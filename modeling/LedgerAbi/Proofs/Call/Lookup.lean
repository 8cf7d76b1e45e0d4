/-
The functions and events of a binding, and the names that find them.

* `Binding.IsBound` — the items for the entries of a kind have the different signatures of these
  entries in the order in which they are first declared, each with the entry that declares it last;
* `Binding.IsRead.addEntries` — so it is when all entries of a document have been added, since
  adding one more keeps it;
* `Binding.Selects` — what a name selects: the item with that signature, or else the only one with
  the name before its parameter list, or nothing;
* `Binding.find_eq_iff` — looking a name up gives just what it selects;
* `Binding.bound_and_found` — both for all functions and events of a document.

Design notes: functions and events are bound by one operation and looked up by one, so they are
described by one structure (`Binding.IsExact`) over the type of the items.  A name before a
parameter list is no signature, because a signature always has the parenthesis that opens its list
(`Entry.mem_of_fullName`).
-/
import LedgerAbi.Proofs.Call.Sending

namespace LedgerAbi

/-! ### Signatures -/

/-- A signature has a parameter list. -/
theorem Entry.mem_of_fullName {e : Entry} {signature : Text} (h : e.fullName = .ok signature) :
    .char '(' ∈ signature := by
  obtain ⟨hasList, hlist, h⟩ := Except.bind_eq_ok_iff.mp h
  cases hasList with
  | true =>
    rw [if_pos rfl] at h
    split at h
    · next t ht =>
      cases h
      rw [ht] at hlist
      exact List.contains_iff_mem.mp (Except.ok.inj hlist)
    · cases h
  | false =>
    obtain ⟨again, hagain, h⟩ := Except.bind_eq_ok_iff.mp h
    obtain rfl : false = again := Except.ok.inj (hlist.symm.trans hagain)
    split at h
    · cases h
    · cases h
      refine List.mem_append_left _ (List.mem_append_left _ (List.mem_append_right _ ?_))
      exact List.mem_singleton_self _

/-- What stands before a parameter list is no signature. -/
theorem not_mem_displayName (signature : Text) : .char '(' ∉ displayName signature := by
  intro h
  have hbefore := List.mem_takeWhile_imp h
  exact absurd hbefore (by decide)

/-- The last of the entries of a kind that have some signature. -/
structure Entry.IsLast (kind : EntryKind) (signature : Text) (entries : List Entry) (e : Entry) : Prop where
  isOfKind : e.kind = kind
  hasSignature : e.fullName = .ok signature
  isLast : ∃ before after, entries = before ++ e :: after ∧
    ∀ later ∈ after, later.kind = kind → later.fullName ≠ .ok signature

theorem Entry.isLast_concat {kind : EntryKind} {signature : Text} {e : Entry} (hkind : e.kind = kind)
    (h : e.fullName = .ok signature) (entries : List Entry) :
    e.IsLast kind signature (entries ++ [e]) :=
  ⟨hkind, h, entries, [], rfl, nofun⟩

theorem Entry.IsLast.concat {kind : EntryKind} {signature : Text} {entries : List Entry} {e other : Entry}
    (h : e.IsLast kind signature entries)
    (hother : other.kind = kind → other.fullName ≠ .ok signature) :
    e.IsLast kind signature (entries ++ [other]) := by
  obtain ⟨hkind, hsignature, before, after, rfl, hafter⟩ := h
  refine ⟨hkind, hsignature, before, after ++ [other], by rw [List.append_assoc, List.cons_append], ?_⟩
  intro later hlater
  rcases List.mem_append.mp hlater with hlater | hlater
  · exact hafter later hlater
  · rw [List.mem_singleton.mp hlater]
    exact hother

namespace Binding

/-! ### What is bound -/

section Bound

variable {α : Type} {signature : α → Text}

theorem mem_putBound_self (item : α) (items : List α) : item ∈ putBound signature item items := by
  induction items with
  | nil => exact List.mem_singleton_self item
  | cons other rest ih =>
    rw [putBound]
    split
    · exact List.mem_cons_self
    · exact List.mem_cons_of_mem other ih

/-- A signature keeps its place, and a new one comes last. -/
theorem map_putBound (item : α) (items : List α) :
    (putBound signature item items).map signature =
      if signature item ∈ items.map signature then items.map signature
      else items.map signature ++ [signature item] := by
  induction items with
  | nil => rfl
  | cons other rest ih =>
    rw [putBound]
    by_cases hsame : signature other = signature item
    · rw [if_pos hsame, List.map_cons, List.map_cons, hsame, if_pos List.mem_cons_self]
    · rw [if_neg hsame, List.map_cons, List.map_cons, ih]
      by_cases hmem : signature item ∈ rest.map signature
      · rw [if_pos hmem, if_pos (List.mem_cons_of_mem _ hmem)]
      · rw [if_neg hmem, if_neg (List.not_mem_cons_of_ne_of_not_mem (Ne.symm hsame) hmem),
          List.cons_append]

theorem eraseDups_concat (names : List Text) (name : Text) :
    (names ++ [name]).eraseDups =
      if name ∈ names then names.eraseDups else names.eraseDups ++ [name] := by
  rw [List.eraseDups_append]
  by_cases hmem : name ∈ names
  · rw [if_pos hmem, List.removeAll, List.filter_singleton, List.elem_eq_mem, decide_eq_true hmem]
    exact List.append_nil _
  · rw [if_neg hmem, List.removeAll, List.filter_singleton, List.elem_eq_mem, decide_eq_false hmem]
    rfl

/-- Items that were there before and are still there have other signatures. -/
theorem mem_putBound {item x : α} {items : List α} (hdistinct : (items.map signature).Nodup)
    (h : x ∈ putBound signature item items) :
    x = item ∨ (x ∈ items ∧ signature x ≠ signature item) := by
  by_cases hsame : signature x = signature item
  · exact Or.inl (List.inj_on_of_nodup_map (nodup_putBound item hdistinct) h (mem_putBound_self item items)
      hsame)
  · exact (mem_of_mem_putBound h).imp_right fun hmem => ⟨hmem, hsame⟩

/-- The items that stand for the entries of a kind. -/
structure IsBound (kind : EntryKind) (signature : α → Text) (entry : α → Entry) (entries : List Entry)
    (items : List α) : Prop where
  /-- The different signatures, in the order in which they are first declared. -/
  names : ∃ names, (entries.filter fun e => e.kind = kind).mapM Entry.fullName = .ok names ∧
    items.map signature = names.eraseDups
  distinct : (items.map signature).Nodup
  /-- Each with the entry that declares it last. -/
  last : ∀ item ∈ items, (entry item).IsLast kind (signature item) entries

variable {kind : EntryKind} {entry : α → Entry} {entries : List Entry} {items : List α} {e : Entry}

theorem isBound_nil : IsBound kind signature entry [] [] :=
  ⟨⟨[], rfl, rfl⟩, List.nodup_nil, nofun⟩

/-- An entry of the kind replaces the item of its signature, or adds one. -/
theorem IsBound.put (h : IsBound kind signature entry entries items) (item : α)
    (hkind : (entry item).kind = kind) (hname : (entry item).fullName = .ok (signature item)) :
    IsBound kind signature entry (entries ++ [entry item]) (putBound signature item items) := by
  obtain ⟨⟨names, hnames, hsignatures⟩, hdistinct, hlast⟩ := h
  refine ⟨⟨names ++ [signature item], ?_, ?_⟩, nodup_putBound item hdistinct, ?_⟩
  · rw [List.filter_append, List.filter_singleton, decide_eq_true hkind, List.mapM_append, hnames]
    simp only [cond_true, List.mapM_cons, List.mapM_nil, hname]
    rfl
  · rw [map_putBound, hsignatures, eraseDups_concat]
    simp only [List.mem_eraseDups]
  · intro x hx
    rcases mem_putBound hdistinct hx with rfl | ⟨hx, hother⟩
    · exact Entry.isLast_concat hkind hname entries
    · refine (hlast x hx).concat fun _ hsame => hother ?_
      exact (Except.ok.inj (hname.symm.trans hsame)).symm

/-- An entry of another kind changes nothing. -/
theorem IsBound.skip (h : IsBound kind signature entry entries items) (hkind : e.kind ≠ kind) :
    IsBound kind signature entry (entries ++ [e]) items := by
  obtain ⟨⟨names, hnames, hsignatures⟩, hdistinct, hlast⟩ := h
  refine ⟨⟨names, ?_, hsignatures⟩, hdistinct, fun x hx => ?_⟩
  · rw [List.filter_append, List.filter_singleton, decide_eq_false hkind]
    simp only [cond_false, List.append_nil, hnames]
  · exact (hlast x hx).concat fun hsame => absurd hsame hkind

end Bound

/-- What is bound once some entries have been added. -/
structure IsRead (entries : List Entry) (b : Binding) : Prop where
  functions : IsBound .function BoundFunction.signature BoundFunction.entry entries b.functions
  events : IsBound .event BoundEvent.signature BoundEvent.entry entries b.events
  constructor : b.constructor = (entries.filter fun e => e.kind = .constructor).getLast?

section Read

variable {before : List Entry} {b : Binding} {e : Entry}

theorem IsRead.constructor_concat (h : IsRead before b) (hkind : e.kind ≠ .constructor) :
    b.constructor = ((before ++ [e]).filter fun e => e.kind = .constructor).getLast? := by
  rw [List.filter_append, List.filter_singleton, decide_eq_false hkind, cond_false, List.append_nil]
  exact h.constructor

theorem IsRead.addFunction (h : IsRead before b) (hkind : e.kind = .function) {f : BoundFunction}
    (hf : BoundFunction.ofEntry e = .ok f) :
    IsRead (before ++ [e]) { b with functions := putBound BoundFunction.signature f b.functions } := by
  obtain ⟨signature, hsignature, hf⟩ := Except.bind_eq_ok_iff.mp hf
  cases hf
  have hother {kind : EntryKind} (hne : EntryKind.function ≠ kind) : e.kind ≠ kind := hkind ▸ hne
  exact {
    functions := h.functions.put ⟨signature, e⟩ hkind hsignature
    events := h.events.skip (hother (by decide))
    constructor := h.constructor_concat (hother (by decide)) }

theorem IsRead.addEvent (h : IsRead before b) (hkind : e.kind = .event) {event : BoundEvent}
    (hevent : BoundEvent.ofEntry e = .ok event) :
    IsRead (before ++ [e]) { b with events := putBound BoundEvent.signature event b.events } := by
  obtain ⟨signature, hsignature, hevent⟩ := Except.bind_eq_ok_iff.mp hevent
  obtain ⟨topic, -, hevent⟩ := Except.bind_eq_ok_iff.mp hevent
  cases hevent
  have hother {kind : EntryKind} (hne : EntryKind.event ≠ kind) : e.kind ≠ kind := hkind ▸ hne
  exact {
    functions := h.functions.skip (hother (by decide))
    events := h.events.put ⟨signature, topic, e⟩ hkind hsignature
    constructor := h.constructor_concat (hother (by decide)) }

theorem IsRead.addConstructor (h : IsRead before b) (hkind : e.kind = .constructor) :
    IsRead (before ++ [e]) { b with constructor := some e } := by
  have hother {kind : EntryKind} (hne : EntryKind.constructor ≠ kind) : e.kind ≠ kind := hkind ▸ hne
  refine {
    functions := h.functions.skip (hother (by decide))
    events := h.events.skip (hother (by decide))
    constructor := ?_ }
  rw [List.filter_append, List.filter_singleton, decide_eq_true hkind, cond_true,
    List.getLast?_concat]

theorem IsRead.addEntries {entries : List Entry} {c : Binding} (hb : IsRead before b)
    (h : b.addEntries entries = .ok c) : IsRead (before ++ entries) c := by
  induction entries generalizing before b with
  | nil =>
    cases h
    rwa [List.append_nil]
  | cons e rest ih =>
    rw [← List.singleton_append, ← List.append_assoc]
    rw [Binding.addEntries] at h
    cases hkind : e.kind with
    | function =>
      simp only [hkind] at h
      obtain ⟨f, hf, h⟩ := Except.bind_eq_ok_iff.mp h
      exact ih (hb.addFunction hkind hf) h
    | event =>
      simp only [hkind] at h
      obtain ⟨event, hevent, h⟩ := Except.bind_eq_ok_iff.mp h
      exact ih (hb.addEvent hkind hevent) h
    | constructor =>
      simp only [hkind] at h
      exact ih (hb.addConstructor hkind) h

end Read

/-! ### What a name finds -/

section Found

variable {α : Type} {signature : α → Text} {kind : EntryKind} {items : List α} {name : Text}

/-- What a name selects among items: the item with that signature, else the only one with the name
before its parameter list. -/
inductive Selects (signature : α → Text) (kind : EntryKind) (items : List α) (name : Text) :
    Except LookupFailure α → Prop
  | signature {item : α} (hmem : item ∈ items) (h : signature item = name) :
      Selects signature kind items name (.ok item)
  | displayName {item : α} (hno : ∀ other ∈ items, signature other ≠ name) (hmem : item ∈ items)
      (h : displayName (signature item) = name)
      (honly : ∀ other ∈ items, displayName (signature other) = name → other = item) :
      Selects signature kind items name (.ok item)
  | unknown (hno : ∀ other ∈ items, signature other ≠ name)
      (h : ∀ other ∈ items, displayName (signature other) ≠ name) :
      Selects signature kind items name (.error (.notFound kind name))
  | overloaded {first second : α} (hno : ∀ other ∈ items, signature other ≠ name)
      (hfirst : first ∈ items) (hsecond : second ∈ items) (hne : first ≠ second)
      (h : displayName (signature first) = name) (h' : displayName (signature second) = name) :
      Selects signature kind items name (.error (.overloaded kind name
        ((items.filter fun item => displayName (signature item) = name).map signature)))

theorem selects_find (hdistinct : (items.map signature).Nodup) :
    Selects signature kind items name (find signature kind items name) := by
  have hmem {item : α} (h : item ∈ items.filter fun item => displayName (signature item) = name) :
      item ∈ items ∧ displayName (signature item) = name := by
    rwa [List.mem_filter, decide_eq_true_iff] at h
  rw [find]
  split
  · next item hitem =>
    have hname := List.find?_some hitem
    exact .signature (List.mem_of_find?_eq_some hitem) (of_decide_eq_true hname)
  · next hnone =>
    have hno : ∀ other ∈ items, signature other ≠ name := fun other hother =>
      of_decide_eq_false (Bool.eq_false_iff.mpr (List.find?_eq_none.mp hnone other hother))
    have hfilter := hdistinct.of_map.filter fun item => decide (displayName (signature item) = name)
    split
    · next hnil =>
      refine .unknown hno fun other hother hdisplay => ?_
      exact List.filter_eq_nil_iff.mp hnil other hother (decide_eq_true hdisplay)
    · next item hone =>
      obtain ⟨hitem, hdisplay⟩ := hmem (hone ▸ List.mem_singleton_self item)
      refine .displayName hno hitem hdisplay fun other hother hother' => ?_
      have hin : other ∈ items.filter fun item => displayName (signature item) = name :=
        List.mem_filter.mpr ⟨hother, decide_eq_true hother'⟩
      rw [hone] at hin
      exact List.mem_singleton.mp hin
    · next hnil hone =>
      match hfound : items.filter fun item => displayName (signature item) = name with
      | [] => exact absurd hfound hnil
      | [item] => exact absurd hfound (hone item)
      | first :: second :: rest =>
        rw [hfound] at hfilter
        obtain ⟨hfirst, hdisplay⟩ := hmem (hfound ▸ List.mem_cons_self)
        obtain ⟨hsecond, hdisplay'⟩ := hmem (hfound ▸ List.mem_cons_of_mem _ List.mem_cons_self)
        rw [← hfound]
        refine .overloaded hno hfirst hsecond ?_ hdisplay hdisplay'
        rintro rfl
        exact (List.nodup_cons.mp hfilter).1 List.mem_cons_self

/-- A name selects one thing only. -/
theorem Selects.eq (hdistinct : (items.map signature).Nodup) {r s : Except LookupFailure α}
    (hr : Selects signature kind items name r) (hs : Selects signature kind items name s) : r = s := by
  cases hr with
  | signature hmem h =>
    cases hs with
    | signature hmem' h' =>
      rw [List.inj_on_of_nodup_map hdistinct hmem hmem' (h.trans h'.symm)]
    | displayName hno _ _ _ => exact absurd h (hno _ hmem)
    | unknown hno _ => exact absurd h (hno _ hmem)
    | overloaded hno _ _ _ _ _ => exact absurd h (hno _ hmem)
  | displayName hno hmem h honly =>
    cases hs with
    | signature hmem' h' => exact absurd h' (hno _ hmem')
    | displayName _ hmem' h' _ => rw [honly _ hmem' h']
    | unknown _ hnone => exact absurd h (hnone _ hmem)
    | overloaded _ hfirst hsecond hne hfirst' hsecond' =>
      exact absurd ((honly _ hfirst hfirst').trans (honly _ hsecond hsecond').symm) hne
  | unknown hno hnone =>
    cases hs with
    | signature hmem' h' => exact absurd h' (hno _ hmem')
    | displayName _ hmem' h' _ => exact absurd h' (hnone _ hmem')
    | unknown _ _ => rfl
    | overloaded _ hfirst _ _ hfirst' _ => exact absurd hfirst' (hnone _ hfirst)
  | overloaded hno hfirst hsecond hne hfirst' hsecond' =>
    cases hs with
    | signature hmem' h' => exact absurd h' (hno _ hmem')
    | displayName _ _ _ honly =>
      exact absurd ((honly _ hfirst hfirst').trans (honly _ hsecond hsecond').symm) hne
    | unknown _ hnone => exact absurd hfirst' (hnone _ hfirst)
    | overloaded _ _ _ _ _ _ => rfl

/-- Looking a name up gives just what it selects. -/
theorem find_eq_iff (hdistinct : (items.map signature).Nodup) {r : Except LookupFailure α} :
    find signature kind items name = r ↔ Selects signature kind items name r := by
  constructor
  · rintro rfl
    exact selects_find hdistinct
  · exact (selects_find hdistinct).eq hdistinct

/-- An item is found by the name before its parameter list if no other signature has that name. -/
theorem find_displayName_iff (hdistinct : (items.map signature).Nodup)
    (hlist : ∀ item ∈ items, .char '(' ∈ signature item) {item : α} (hitem : item ∈ items) :
    find signature kind items (displayName (signature item)) = .ok item ↔
      ∀ other ∈ items, displayName (signature other) = displayName (signature item) →
        signature other = signature item := by
  have hno : ∀ other ∈ items, signature other ≠ displayName (signature item) :=
    fun other hother h => not_mem_displayName (signature item) (h ▸ hlist other hother)
  rw [find_eq_iff hdistinct]
  constructor
  · intro h other hother hsame
    cases h with
    | signature hmem h => exact absurd h (hno item hmem)
    | displayName _ _ _ honly => rw [honly other hother hsame]
  · intro h
    refine .displayName hno hitem rfl fun other hother hsame => ?_
    exact List.inj_on_of_nodup_map hdistinct hother hitem (h other hother hsame)

end Found

/-- The items for the entries of a kind are bound as they are declared, and each name finds what it
selects. -/
structure IsExact {α : Type} (kind : EntryKind) (signature : α → Text) (entry : α → Entry)
    (entries : List Entry) (items : List α) (lookUp : Text → Except Error α) : Prop
    extends IsBound kind signature entry entries items where
  /-- What is found, or the failure. -/
  selects : ∀ name r, lookUp name = r ↔
    ∃ found, Selects signature kind items name found ∧ r = found.mapError .lookup
  bySignature : ∀ item ∈ items, lookUp (signature item) = .ok item
  byDisplayName : ∀ item ∈ items, lookUp (displayName (signature item)) = .ok item ↔
    ∀ other ∈ items, displayName (signature other) = displayName (signature item) →
      signature other = signature item

theorem IsBound.isExact {α : Type} {kind : EntryKind} {signature : α → Text} {entry : α → Entry}
    {entries : List Entry} {items : List α} (h : IsBound kind signature entry entries items) :
    IsExact kind signature entry entries items
      fun name => (find signature kind items name).mapError .lookup := by
  have hfound {name : Text} {item : α} :
      (find signature kind items name).mapError Error.lookup = .ok item ↔
        find signature kind items name = .ok item := by
    cases find signature kind items name <;> simp [Except.mapError]
  refine ⟨h, ?_, ?_, ?_⟩
  · intro name r
    constructor
    · rintro rfl
      exact ⟨_, selects_find h.distinct, rfl⟩
    · rintro ⟨found, hselects, rfl⟩
      rw [(find_eq_iff h.distinct).mpr hselects]
  · intro item hitem
    exact hfound.mpr ((find_eq_iff h.distinct).mpr (.signature hitem rfl))
  · intro item hitem
    refine hfound.trans (find_displayName_iff h.distinct ?_ hitem)
    exact fun other hother => Entry.mem_of_fullName (h.last other hother).hasSignature

/-- **Functions and events are bound as they are declared, and found by what they are called.**  The
functions of a binding have the different signatures that its document declares for functions, in the
order in which they are first declared, each with the last entry of that signature.  A name finds the
function with that signature, or else the only one with that name before its parameter list, and is a
failure otherwise.  So each function is found by its signature, and by the name before its parameter
list just if no other signature has it.  The same holds of events; the constructor is the last one. -/
theorem bound_and_found {abi : Value} {config : Config} {address bytecode account : Value}
    {objectReturn : Bool} {b : Binding}
    (h : ofValue abi config address bytecode account objectReturn = .ok b) :
    ∃ entries, Entry.listOfValue abi = .ok entries ∧
      IsExact .function BoundFunction.signature BoundFunction.entry entries b.functions b.function ∧
      IsExact .event BoundEvent.signature BoundEvent.entry entries b.events b.event ∧
      b.constructor = (entries.filter fun e => e.kind = .constructor).getLast? := by
  obtain ⟨_, _, _, entries, -, -, -, hentries, hadd⟩ := exists_entries_of_ofValue h
  have hread : IsRead ([] ++ entries) b := IsRead.addEntries ⟨isBound_nil, isBound_nil, rfl⟩ hadd
  exact ⟨entries, hentries, hread.functions.isExact, hread.events.isExact, hread.constructor⟩

/-- The document of a contract with a cell, which is set in two forms and read in one.  The first form
is declared again at the end. -/
def cellAbi : Value := .list [
  .dict [("type", .text "function"), ("name", .text "set"),
    ("inputs", .list [.dict [("type", .text "bool")]])],
  .dict [("type", .text "constructor")],
  .dict [("type", .text "function"), ("name", .text "set"),
    ("inputs", .list [.dict [("type", .text "bool[]")]])],
  .dict [("type", .text "function"), ("name", .text "get"), ("stateMutability", .text "view")],
  .dict [("type", .text "function"), ("name", .text "set"),
    ("inputs", .list [.dict [("type", .text "bool")]]), ("stateMutability", .text "payable")]]

/-- The first form that sets, as it is declared last. -/
def cellSetter : BoundFunction where
  signature := "set(bool)"
  entry := ⟨.function, .text "set", [⟨.text [], .bool, false⟩], [], .payable, false, by decide⟩

def cellListSetter : BoundFunction where
  signature := "set(bool[])"
  entry :=
    ⟨.function, .text "set", [⟨.text [], .array .bool, false⟩], [], .nonpayable, false, by decide⟩

def cellGetter : BoundFunction where
  signature := "get()"
  entry := ⟨.function, .text "get", [], [], .view, false, by decide⟩

/-- The binding of the document, without an address. -/
def cellBinding : Binding where
  abi := cellAbi
  config := .standard
  address := none
  bytecode := none
  account := none
  objectReturn := false
  functions := [cellSetter, cellListSetter, cellGetter]
  events := []
  constructor := some ⟨.constructor, .text [], [], [], .nonpayable, false, by decide⟩

/-- The function that reads is found by its name. The forms that set are found by their signatures only,
the first one as it was declared last. -/
theorem bound_and_found_cell :
    cellBinding.function "get" = .ok cellGetter ∧
    cellBinding.function "set(bool)" = .ok cellSetter ∧
    cellBinding.function "set" ≠ .ok cellSetter := by
  have hbinding : ofValue cellAbi .standard .none .none .none false = .ok cellBinding := rfl
  obtain ⟨entries, -, hfunctions, -, -⟩ := bound_and_found hbinding
  have hset : cellSetter ∈ cellBinding.functions := List.mem_cons_self
  have hother : cellListSetter ∈ cellBinding.functions := List.mem_cons_of_mem _ List.mem_cons_self
  have hget : cellGetter ∈ cellBinding.functions :=
    List.mem_cons_of_mem _ (List.mem_cons_of_mem _ List.mem_cons_self)
  refine ⟨?_, hfunctions.bySignature _ hset, ?_⟩
  · rw [show ("get" : Text) = displayName cellGetter.signature by decide, hfunctions.byDisplayName _ hget]
    decide
  · rw [show ("set" : Text) = displayName cellSetter.signature by decide, Ne,
      hfunctions.byDisplayName _ hset]
    exact fun h => absurd (h _ hother (by decide)) (by decide)

end Binding

end LedgerAbi
