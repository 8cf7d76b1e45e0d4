/-
Names laid out in lines: nothing is lost, and how wide a line gets.

* `Text.IsLayout` — each line holds some of the names, whole and in order, a line ends only where the
  next bare name would not fit, and a line of several names is at most three wider than asked for;
* `Text.exists_layout` — names are laid out so, whatever they are and whatever the width;
* `Text.WrapsWithin` and `Text.Overhangs` — the lines of several names keep to the width, unless a
  name is put where there is room for it but not for the marks around it;
* `Text.wrapsWithin_iff` — there is no other way for such a line to be too wide.

Design notes: names are added one at a time at the end, where only the last line changes
(`Text.wrap_concat`).  Which names are in which line is not part of what is computed, but the lines
determine it (`Text.eq_of_map_lineOf`), since every name takes room.
-/
import Mathlib.Data.List.Chain
import Mathlib.Data.List.Infix
import LedgerAbi.Text.Wrap

namespace LedgerAbi.Text

/-- The line that some names fill. -/
def lineOf (group : List Text) : Text := group.flatMap fun name => (Item.ofText name).listed

theorem lineOf_append (group more : List Text) : lineOf (group ++ more) = lineOf group ++ lineOf more :=
  List.flatMap_append

theorem lineOf_singleton (name : Text) : lineOf [name] = (Item.ofText name).listed :=
  List.flatMap_singleton _ _

/-- A name takes four more code points than it has. -/
theorem length_lineOf_singleton (name : Text) : (lineOf [name]).length = name.length + 4 := by
  rw [lineOf_singleton, Item.listed, List.length_append, List.length_append,
    show ("'" : Text).length = 1 from rfl, show ("', " : Text).length = 3 from rfl,
    show (Item.ofText name).text = name from rfl]
  omega

theorem lineOf_eq_nil_iff {group : List Text} : lineOf group = [] ↔ group = [] := by
  constructor
  · intro h
    match group with
    | [] => rfl
    | name :: rest =>
      have hlength := congrArg List.length h
      rw [← List.singleton_append, lineOf_append, List.length_append, length_lineOf_singleton,
        List.length_nil] at hlength
      omega
  · rintro rfl
    rfl

theorem flatten_map_lineOf (groups : List (List Text)) :
    (groups.map lineOf).flatten = lineOf groups.flatten := by
  induction groups with
  | nil => rfl
  | cons group rest ih =>
    rw [List.map_cons, List.flatten_cons, List.flatten_cons, ih, lineOf_append]

/-- The lines determine which names are in which of them. -/
theorem eq_of_map_lineOf {groups others : List (List Text)} (hnames : groups.flatten = others.flatten)
    (hlines : groups.map lineOf = others.map lineOf) : groups = others := by
  -- of two groups at the front one begins with the other, and what is left of it fills no line
  have heq {group other more : List Text} (hline : lineOf group = lineOf other)
      (h : other = group ++ more) : more = [] := by
    rw [h, lineOf_append] at hline
    exact lineOf_eq_nil_iff.mp (List.append_right_eq_self.mp hline.symm)
  induction groups generalizing others with
  | nil => exact (List.map_eq_nil_iff.mp hlines.symm).symm
  | cons group rest ih =>
    match others with
    | [] => cases hlines
    | other :: rest' =>
      obtain ⟨hline, hlines⟩ := List.cons.inj hlines
      rw [List.flatten_cons, List.flatten_cons] at hnames
      obtain ⟨more, hmore, hrest⟩ | ⟨more, hmore, hrest⟩ := List.append_eq_append_iff.mp hnames
      · obtain rfl := heq hline hmore
        rw [List.append_nil] at hmore
        rw [hmore, ih hrest hlines]
      · obtain rfl := heq hline.symm hmore
        rw [List.append_nil] at hmore
        rw [hmore, ih hrest.symm hlines]

/-! ### One more name -/

/-- One more item changes nothing but the last line. -/
theorem wrapFrom_concat (isTooLong : Nat → Bool) (line : Text) (items : List Item) (item : Item) :
    ∃ begun last, wrapFrom isTooLong line items = begun ++ [last] ∧
      wrapFrom isTooLong line (items ++ [item]) = begun ++
        (if isTooLong (last.length + item.length + 1) then [last, item.listed]
        else [last ++ item.listed]) := by
  induction items generalizing line with
  | nil => exact ⟨[], line, rfl, rfl⟩
  | cons x rest ih =>
    rw [List.cons_append, wrapFrom, wrapFrom]
    split
    · obtain ⟨begun, last, hbefore, hafter⟩ := ih x.listed
      exact ⟨line :: begun, last, by rw [hbefore, List.cons_append],
        by rw [hafter, List.cons_append]⟩
    · exact ih (line ++ x.listed)

theorem wrap_concat (width : Int) (names : List Text) (name : Text) :
    ∃ begun line, wrap width names = begun ++ [line] ∧
      wrap width (names ++ [name]) = begun ++
        (if width < line.length + name.length + 1 then [line, lineOf [name]]
        else [line ++ lineOf [name]]) := by
  obtain ⟨begun, line, hbefore, hafter⟩ := wrapFrom_concat (fun n => width < n) [] (names.map Item.ofText)
    (Item.ofText name)
  have hlong : decide (width < (line.length + (Item.ofText name).length + 1 : Nat)) = true ↔
      width < line.length + name.length + 1 := by
    rw [decide_eq_true_iff, show (Item.ofText name).length = name.length from rfl]
    omega
  refine ⟨begun, line, hbefore, ?_⟩
  rw [wrap, wrapItems, List.map_append, List.map_singleton, hafter, lineOf_singleton]
  simp only [hlong]

/-! ### Layouts -/

/-- How names are laid out in lines of some width. -/
structure IsLayout (width : Int) (names : List Text) (groups : List (List Text)) : Prop where
  /-- Every name is in one line, in order. -/
  whole : groups.flatten = names
  lines : wrap width names = groups.map lineOf
  /-- A line of several names has room for the last of them, but perhaps not for the marks after it. -/
  bound : ∀ group ∈ groups, 1 < group.length → (lineOf group).length ≤ width + 3
  /-- A line ends where the next bare name would not fit. -/
  full : groups.IsChain fun group next =>
    ∃ name rest, next = name :: rest ∧ width < (lineOf group).length + name.length + 1

/-- The lines of several names keep to the width. -/
def FitsIn (width : Int) (groups : List (List Text)) : Prop :=
  ∀ group ∈ groups, 1 < group.length → (lineOf group).length ≤ width

/-- Names are laid out whole and in order, in lines that keep to the width if they hold several. -/
def WrapsWithin (width : Int) (names : List Text) : Prop :=
  ∃ groups : List (List Text), groups.flatten = names ∧ wrap width names = groups.map lineOf ∧
    FitsIn width groups

/-- After some names there is room for the next one in the line that they have begun, but not for the
marks around it. -/
def Overhangs (width : Int) (before : List Text) (name : Text) : Prop :=
  ∃ begun line, wrap width before = begun ++ [line] ∧ line ≠ [] ∧
    line.length + name.length + 1 ≤ width ∧ width < line.length + name.length + 4

section Step

variable {width : Int} {names : List Text} {begun : List (List Text)} {last : List Text}

/-- The last group with one more name: in its line, or in a line of its own. -/
def extend (width : Int) (last : List Text) (name : Text) : List (List Text) :=
  if width < (lineOf last).length + name.length + 1 then [last, [name]] else [last ++ [name]]

theorem wrap_extend (h : wrap width names = (begun ++ [last]).map lineOf) (name : Text) :
    wrap width (names ++ [name]) = (begun ++ extend width last name).map lineOf := by
  obtain ⟨begun', line, hbefore, hafter⟩ := wrap_concat width names name
  rw [hbefore, List.map_append, List.map_singleton] at h
  obtain ⟨rfl, hline⟩ := List.append_inj' h rfl
  obtain rfl := List.singleton_inj.mp hline
  rw [hafter, List.map_append, extend]
  split
  · rfl
  · rw [List.map_singleton, lineOf_append]

theorem IsLayout.extend (h : IsLayout width names (begun ++ [last])) (name : Text) :
    IsLayout width (names ++ [name]) (begun ++ extend width last name) := by
  have hlines := wrap_extend h.lines name
  obtain ⟨hnames, -, hbound, hfull⟩ := h
  rw [List.flatten_append, List.flatten_singleton] at hnames
  obtain ⟨hfull, -, hborder⟩ := List.isChain_append.mp hfull
  have hbegun : ∀ group ∈ begun, 1 < group.length → ((lineOf group).length : Int) ≤ width + 3 :=
    fun group hgroup => hbound group (List.mem_append_left _ hgroup)
  by_cases hlong : width < (lineOf last).length + name.length + 1
  · rw [Text.extend, if_pos hlong] at hlines ⊢
    refine ⟨?_, hlines, ?_, ?_⟩
    · rw [List.flatten_append, ← hnames, List.append_assoc]
      simp only [List.flatten_cons, List.flatten_nil, List.append_nil]
    · intro group hgroup hseveral
      rcases List.mem_append.mp hgroup with hgroup | hgroup
      · exact hbegun group hgroup hseveral
      · rcases List.mem_cons.mp hgroup with rfl | hgroup
        · exact hbound group (List.mem_append_right _ (List.mem_singleton_self group)) hseveral
        · rw [List.mem_singleton.mp hgroup, List.length_singleton] at hseveral
          omega
    · refine List.isChain_append.mpr ⟨hfull, ?_, hborder⟩
      exact List.isChain_pair.mpr ⟨name, [], rfl, hlong⟩
  · rw [Text.extend, if_neg hlong] at hlines ⊢
    refine ⟨?_, hlines, ?_, ?_⟩
    · rw [List.flatten_append, List.flatten_singleton, ← hnames, List.append_assoc]
    · intro group hgroup hseveral
      rcases List.mem_append.mp hgroup with hgroup | hgroup
      · exact hbegun group hgroup hseveral
      · rw [List.mem_singleton.mp hgroup, lineOf_append, List.length_append,
          length_lineOf_singleton]
        omega
    · refine List.isChain_append.mpr ⟨hfull, List.isChain_singleton _, ?_⟩
      -- the last line begins with the name that it began with
      intro group hgroup next hnext
      obtain ⟨first, rest, hlast, hlong⟩ := hborder group hgroup last rfl
      rw [List.head?_singleton, Option.mem_some_iff] at hnext
      exact ⟨first, rest ++ [name], by rw [← hnext, hlast, List.cons_append], hlong⟩

/-- One more name makes a line too wide just if it overhangs. -/
theorem fitsIn_extend_iff (h : wrap width names = (begun ++ [last]).map lineOf) (name : Text) :
    FitsIn width (begun ++ extend width last name) ↔
      FitsIn width (begun ++ [last]) ∧ ¬ Overhangs width names name := by
  have hoverhangs : Overhangs width names name ↔ last ≠ [] ∧
      (lineOf last).length + name.length + 1 ≤ width ∧
        width < (lineOf last).length + name.length + 4 := by
    rw [Ne, ← lineOf_eq_nil_iff]
    rw [List.map_append, List.map_singleton] at h
    constructor
    · rintro ⟨begun', line, hwrap, hline⟩
      obtain ⟨-, heq⟩ := List.append_inj' (hwrap.symm.trans h) rfl
      rwa [List.singleton_inj.mp heq] at hline
    · exact fun hline => ⟨_, _, h, hline⟩
  have hsplit (groups : List (List Text)) :
      FitsIn width (begun ++ groups) ↔ FitsIn width begun ∧ FitsIn width groups :=
    List.forall_mem_append
  rw [hoverhangs, hsplit, hsplit, and_assoc]
  refine and_congr_right' ?_
  have hsingle (group : List Text) :
      FitsIn width [group] ↔ (1 < group.length → ((lineOf group).length : Int) ≤ width) :=
    List.forall_mem_singleton
  by_cases hlong : width < (lineOf last).length + name.length + 1
  · have hname : FitsIn width [[name]] := (hsingle [name]).mpr fun h => absurd h (by simp)
    rw [extend, if_pos hlong, show [last, [name]] = [last] ++ [[name]] from rfl, FitsIn,
      List.forall_mem_append]
    exact ⟨fun hfits => ⟨hfits.1, fun hover => by omega⟩, fun hfits => ⟨hfits.1, hname⟩⟩
  · rw [extend, if_neg hlong, hsingle, hsingle, lineOf_append, List.length_append, List.length_append,
      length_lineOf_singleton, List.length_singleton]
    cases last with
    | nil => simp
    | cons first rest =>
      simp only [List.length_cons, ne_eq, reduceCtorEq, not_false_eq_true, true_and]
      omega

end Step

/-- Names are laid out in lines, which keep to the width as long as no name overhangs. -/
theorem exists_layout (width : Int) (names : List Text) : ∃ groups, IsLayout width names groups ∧
    (FitsIn width groups ↔
      ∀ before name, before ++ [name] <+: names → ¬ Overhangs width before name) := by
  induction names using List.reverseRecOn with
  | nil =>
    refine ⟨[[]], ⟨rfl, rfl, ?_, List.isChain_singleton _⟩, iff_of_true ?_ ?_⟩
    · exact List.forall_mem_singleton.mpr fun h => absurd h (by decide)
    · exact List.forall_mem_singleton.mpr fun h => absurd h (by decide)
    · intro before name h
      exact absurd (List.prefix_nil.mp h) (List.append_ne_nil_of_right_ne_nil _ (List.cons_ne_nil _ _))
  | append_singleton names name ih =>
    obtain ⟨groups, hlayout, hfits⟩ := ih
    obtain ⟨begun, last, rfl⟩ : ∃ begun last, groups = begun ++ [last] := by
      refine List.eq_nil_or_concat' groups |>.resolve_left ?_
      rintro rfl
      obtain ⟨_, _, hwrap, -⟩ := wrap_concat width names name
      exact List.append_ne_nil_of_right_ne_nil _ (List.cons_ne_nil _ _)
        (hwrap.symm.trans hlayout.lines)
    refine ⟨_, hlayout.extend name, (fitsIn_extend_iff hlayout.lines name).trans ?_⟩
    rw [hfits]
    constructor
    · rintro ⟨hbefore, hname⟩ before next hnext
      rcases List.prefix_concat_iff.mp hnext with heq | hnext
      · obtain ⟨rfl, hlast⟩ := List.append_inj' heq rfl
        rwa [List.singleton_inj.mp hlast]
      · exact hbefore before next hnext
    · intro h
      exact ⟨fun before next hnext => h before next (hnext.trans (List.prefix_append _ _)),
        h names name (List.prefix_refl _)⟩

/-- **Nothing is lost in the lines, and they keep to the width unless a name overhangs.**  The lines one
after the other are the quoted names one after the other.  Each line holds some names whole, ends only
where the next bare name would not fit, and is at most three wider than asked for if it holds several.
None of those is wider than asked for just if no name is put into a begun line that has room for it but
not for the marks around it. -/
theorem wrapsWithin_iff (width : Int) (names : List Text) :
    (wrap width names).flatten = lineOf names ∧ (∃ groups, IsLayout width names groups) ∧
      (WrapsWithin width names ↔
        ∀ before name, before ++ [name] <+: names → ¬ Overhangs width before name) := by
  obtain ⟨groups, hlayout, hfits⟩ := exists_layout width names
  refine ⟨?_, ⟨groups, hlayout⟩, ?_⟩
  · rw [hlayout.lines, ← hlayout.whole]
    exact flatten_map_lineOf groups
  · rw [← hfits]
    constructor
    · rintro ⟨others, hnames, hlines, hothers⟩
      rwa [eq_of_map_lineOf (hlayout.whole.trans hnames.symm) (hlayout.lines.symm.trans hlines)]
    · exact fun hgroups => ⟨groups, hlayout.whole, hlayout.lines, hgroups⟩

/-- Two names of one letter stand in a line of ten code points where seven were asked for. -/
theorem not_wrapsWithin_pair : ¬ WrapsWithin 7 ["a", "b"] := by
  rintro ⟨groups, hnames, hlines, hfits⟩
  obtain rfl : groups = ([["a", "b"]] : List (List Text)) := eq_of_map_lineOf hnames hlines.symm
  exact absurd (hfits _ List.mem_cons_self (by decide)) (by decide)

end LedgerAbi.Text
