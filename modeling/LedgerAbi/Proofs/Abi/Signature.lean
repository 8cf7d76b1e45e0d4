/-
Signatures are taken apart into what they were made of.

* `Entry.exists_ofText_of_mem` — the parameters of an entry of a document have types that
  come with names;
* `signatureOf` — a name followed by canonical names in parentheses, which is the signature
  of every entry that is named by a text without a list (`Entry.fullName_of_text`);
* `displayName_signatureOf`, `typeSuffix_signatureOf`, `typesOf_parameterList` — both parts
  are read back from it;
* `Entry.fullName_unambiguous` — so two such entries have one signature just if they
  have one name and the same input types.

Design notes: a name may hold anything but an opening parenthesis, also spaces, commas and
closing ones.  The first opening parenthesis therefore ends the name, the last closing one ends
the list, and what stands between holds canonical names and commas only
(`AbiType.not_mem_canonical`), so no space is lost and each comma parts two names.
-/
import LedgerAbi.Abi.Signature
import LedgerAbi.Proofs.Abi.CanonicalName
import LedgerAbi.Proofs.Outcome

namespace LedgerAbi

/-! ### The types of an entry -/

theorem AbiType.exists_ofText {v : Value} {t : AbiType} (h : ofValue v = .ok t) :
    ∃ s, ofText s = .ok t := by
  cases v with
  | text s => exact ⟨s, h⟩
  | _ =>
    rw [ofValue] at h
    · split at h <;> cases h
    · exact nofun

theorem Parameter.exists_ofText {v : Value} {p : Parameter} (h : ofValue v = .ok p) :
    ∃ s, AbiType.ofText s = .ok p.type := by
  obtain ⟨members, -, h⟩ := Except.bind_eq_ok_iff.mp h
  obtain ⟨type, htype, h⟩ := Except.bind_eq_ok_iff.mp h
  cases h
  exact AbiType.exists_ofText htype

/-- The parameters of an entry of a document have types that come with names. -/
theorem Entry.exists_ofText_of_mem {v : Value} {e : Entry} (h : ofValue v = .ok e) {p : Parameter}
    (hp : p ∈ e.inputs ++ e.outputs) : ∃ s, AbiType.ofText s = .ok p.type := by
  obtain ⟨members, -, h⟩ := Except.bind_eq_ok_iff.mp h
  split at h
  · cases h
  obtain ⟨_, -, h⟩ := Except.bind_eq_ok_iff.mp h
  obtain ⟨inputs, hinputs, h⟩ := Except.bind_eq_ok_iff.mp h
  obtain ⟨_, -, h⟩ := Except.bind_eq_ok_iff.mp h
  obtain ⟨outputs, houtputs, h⟩ := Except.bind_eq_ok_iff.mp h
  obtain ⟨mutability, -, h⟩ := Except.bind_eq_ok_iff.mp h
  split at h
  · cases h
    rcases List.mem_append.mp hp with hp | hp
    · obtain ⟨w, -, hw⟩ := Except.exists_of_mem_mapM hinputs hp
      exact Parameter.exists_ofText hw
    · obtain ⟨w, -, hw⟩ := Except.exists_of_mem_mapM houtputs hp
      exact Parameter.exists_ofText hw
  · cases h

/-- The canonical names of the inputs name their types. -/
theorem Entry.ofText_canonical_of_mem {v : Value} {e : Entry} (h : ofValue v = .ok e) :
    ∀ t ∈ e.inputTypes, AbiType.ofText t.canonical = .ok t := by
  intro t ht
  obtain ⟨p, hp, rfl⟩ := List.mem_map.mp ht
  obtain ⟨s, hs⟩ := exists_ofText_of_mem h (List.mem_append_left _ hp)
  exact AbiType.ofText_canonical (AbiType.hasReadableLengths_of_ofText hs)

/-! ### Cutting texts -/

namespace Text

variable {t : Text} {c : CodePoint}

theorem cut_append (h : c ∉ t) (rest : Text) : (t ++ c :: rest).cut c = (t, some rest) := by
  induction t with
  | nil => rw [List.nil_append, cut, if_pos rfl]
  | cons d t ih =>
    rw [List.mem_cons, not_or] at h
    rw [List.cons_append, cut, if_neg (Ne.symm h.1), ih h.2]

theorem before_append (h : c ∉ t) (rest : Text) : (t ++ c :: rest).before c = t := by
  have hall : ∀ d ∈ t, (d != c) = true := by
    rintro d hd
    rw [bne_iff_ne]
    rintro rfl
    exact h hd
  rw [before, List.takeWhile_append_of_pos hall, List.takeWhile_cons_of_neg (by simp),
    List.append_nil]

theorem beforeLast_append_singleton (t : Text) (c : CodePoint) : (t ++ [c]).beforeLast c = t := by
  rw [beforeLast, if_pos (List.mem_append_right _ List.mem_cons_self), List.reverse_append,
    List.reverse_singleton, List.singleton_append, List.dropWhile_cons_of_neg (by simp),
    List.drop_succ_cons, List.drop_zero, List.reverse_reverse]

theorem join_cons_cons (separator t u : Text) (us : List Text) :
    join separator (t :: u :: us) = t ++ separator ++ join separator (u :: us) := rfl

theorem join_singleton_eq_intercalate (c : CodePoint) (ts : List Text) :
    join [c] ts = [c].intercalate ts := by
  induction ts with
  | nil => rfl
  | cons t ts ih =>
    cases ts with
    | nil => rw [join, List.intercalate_singleton]
    | cons u us => rw [join_cons_cons, ih, List.intercalate_cons_cons]

theorem not_mem_join {separator : Text} {ts : List Text} (hseparator : c ∉ separator)
    (h : ∀ t ∈ ts, c ∉ t) : c ∉ join separator ts := by
  induction ts with
  | nil => exact List.not_mem_nil
  | cons t ts ih =>
    rw [List.forall_mem_cons] at h
    cases ts with
    | nil => exact h.1
    | cons u us =>
      rw [join_cons_cons, List.mem_append, List.mem_append]
      rintro ((ht | hsep) | hrest)
      · exact h.1 ht
      · exact hseparator hsep
      · exact ih h.2 hrest

end Text

/-! ### Signatures -/

/-- The types that a parameter list names, with a name between any two commas. An empty list names
none. -/
def typesOf (list : Text) : Except Error (List AbiType) :=
  if list = [] then .ok [] else (list.splitOn (.char ',')).mapM AbiType.ofText

/-- The parameter list of some types. -/
def parameterList (types : List AbiType) : Text := Text.join "," (types.map AbiType.canonical)

/-- A name with the parameter list of some types. -/
def signatureOf (name : Text) (types : List AbiType) : Text :=
  name ++ "(" ++ parameterList types ++ ")"

section Signature

variable {name : Text} {types : List AbiType}

theorem displayName_signatureOf (hname : .char '(' ∉ name) :
    displayName (signatureOf name types) = name := by
  have hopen : ("(" : Text) = [.char '('] := rfl
  rw [displayName, signatureOf, hopen, List.append_assoc, List.append_assoc, List.singleton_append,
    Text.before_append hname]

theorem not_mem_parameterList {c : CodePoint} (hc : c ∈ ("() " : Text)) (types : List AbiType) :
    c ∉ parameterList types := by
  have hcomma : ∀ c ∈ ("() " : Text), c ∉ ("," : Text) := by decide
  have hall : ∀ c ∈ ("() " : Text), c ∈ (",() " : Text) := by decide
  refine Text.not_mem_join (hcomma c hc) fun t ht => ?_
  obtain ⟨type, -, rfl⟩ := List.mem_map.mp ht
  exact type.not_mem_canonical c (hall c hc)

theorem typeSuffix_signatureOf (hname : .char '(' ∉ name) :
    typeSuffix (signatureOf name types) = parameterList types := by
  have hopen : ("(" : Text) = [.char '('] := rfl
  have hclose : (")" : Text) = [.char ')'] := rfl
  have hcut : (signatureOf name types).cut (.char '(') = (name, some (parameterList types ++ ")")) := by
    rw [signatureOf, hopen, List.append_assoc, List.append_assoc, List.singleton_append,
      Text.cut_append hname]
  simp only [typeSuffix, hcut]
  -- the last parenthesis closes the list, and there is no space in it that could be lost
  rw [hclose, Text.beforeLast_append_singleton, List.filter_eq_self]
  intro c hc
  rw [bne_iff_ne]
  rintro rfl
  exact not_mem_parameterList (by decide) types hc

theorem typesOf_parameterList (htypes : ∀ t ∈ types, AbiType.ofText t.canonical = .ok t) :
    typesOf (parameterList types) = .ok types := by
  have hcomma : ("," : Text) = [.char ','] := rfl
  cases types with
  | nil => rfl
  | cons t rest =>
    have hne : (t :: rest).map AbiType.canonical ≠ [] := List.cons_ne_nil _ _
    have hsplit : (parameterList (t :: rest)).splitOn (.char ',') =
        (t :: rest).map AbiType.canonical := by
      rw [parameterList, hcomma, Text.join_singleton_eq_intercalate]
      refine List.splitOn_intercalate _ ?_ hne
      intro u hu
      obtain ⟨type, -, rfl⟩ := List.mem_map.mp hu
      exact type.not_mem_canonical _ (by decide)
    -- a first name without code points would make the list look like that of no types
    have hlist : parameterList (t :: rest) ≠ [] := by
      intro hnil
      rw [hnil, List.splitOn_nil, List.map_cons, List.cons.injEq] at hsplit
      exact t.canonical_ne_nil hsplit.1.symm
    rw [typesOf, if_neg hlist, hsplit, Except.mapM_eq_ok_iff, List.forall₂_map_left_iff]
    exact List.forall₂_same.mpr htypes

end Signature

/-- A text without a list is the name in the signature of its entry. -/
theorem Entry.fullName_of_text {e : Entry} {name : Text} (he : e.name = .text name)
    (hname : .char '(' ∉ name) : e.fullName = .ok (signatureOf name e.inputTypes) := by
  have hlist : nameHasList e.name = .ok false := by
    rw [he, nameHasList, List.contains_eq_mem, decide_eq_false hname]
  have hlong : e.name.isOverlong = false := by
    rw [he]
    rfl
  simp only [fullName, shownName, hlist, hlong, bind, Except.bind, Bool.false_eq_true, if_false]
  rw [he]
  rfl

/-- **Signatures are unambiguous.** Entries of documents that are named by texts without an opening
parenthesis have signatures, which are the same just for the same name and input types, and from which
both are read back. -/
theorem Entry.fullName_unambiguous {v w : Value} {e f : Entry} (he : ofValue v = .ok e)
    (hf : ofValue w = .ok f) {name other : Text} (hname : e.name = .text name)
    (hother : f.name = .text other) (hopen : .char '(' ∉ name) (hopen' : .char '(' ∉ other) :
    ∃ s u, e.fullName = .ok s ∧ f.fullName = .ok u ∧
      (s = u ↔ name = other ∧ e.inputTypes = f.inputTypes) ∧
      displayName s = name ∧ typesOf (typeSuffix s) = .ok e.inputTypes := by
  have htypes : typesOf (typeSuffix (signatureOf name e.inputTypes)) = .ok e.inputTypes := by
    rw [typeSuffix_signatureOf hopen, typesOf_parameterList (ofText_canonical_of_mem he)]
  refine ⟨_, _, fullName_of_text hname hopen, fullName_of_text hother hopen', ?_,
    displayName_signatureOf hopen, htypes⟩
  constructor
  · intro h
    have hdisplay := congrArg displayName h
    rw [displayName_signatureOf hopen, displayName_signatureOf hopen'] at hdisplay
    rw [h, typeSuffix_signatureOf hopen', typesOf_parameterList (ofText_canonical_of_mem hf)] at htypes
    exact ⟨hdisplay, (Except.ok.inj htypes).symm⟩
  · rintro ⟨rfl, htypes⟩
    rw [htypes]

/-- A document entry of a function with unnamed inputs. -/
def functionValue (name : Value) (types : List Text) : Value :=
  .dict [("type", .text "function"), ("name", name),
    ("inputs", .list (types.map fun t => .dict [("type", .text t)]))]

/-- A function with unnamed inputs and no outputs. -/
def functionNamed (name : Value) (types : List AbiType) : Entry where
  kind := .function
  name := name
  inputs := types.map fun t => ⟨.text [], t, false⟩
  outputs := []
  mutability := .nonpayable
  anonymous := false
  distinctKeys := List.Pairwise.nil

theorem inputTypes_functionNamed (name : Value) (types : List AbiType) :
    (functionNamed name types).inputTypes = types := by
  rw [functionNamed, Entry.inputTypes, List.map_map]
  exact List.map_id types

/-- Lists of unsigned integers, and a byte. -/
def wordsAndByte : List AbiType :=
  [.array (.uint .word), .fixedBytes .byte]

/-- Overloads of a name with a space and a closing parenthesis have different signatures. -/
theorem Entry.fullName_unambiguous_overloads :
    Entry.ofValue (functionValue (.text "set )") ["uint[]", "byte"]) =
      .ok (functionNamed (.text "set )") wordsAndByte) ∧
    Entry.ofValue (functionValue (.text "set )") ["bool[]"]) =
      .ok (functionNamed (.text "set )") [.array .bool]) ∧
    ∃ s u, (functionNamed (.text "set )") wordsAndByte).fullName = .ok s ∧
      (functionNamed (.text "set )") [.array .bool]).fullName = .ok u ∧ s ≠ u ∧
      displayName s = "set )" ∧ typesOf (typeSuffix s) = .ok wordsAndByte := by
  have hfirst : Entry.ofValue (functionValue (.text "set )") ["uint[]", "byte"]) =
      .ok (functionNamed (.text "set )") wordsAndByte) := rfl
  have hsecond : Entry.ofValue (functionValue (.text "set )") ["bool[]"]) =
      .ok (functionNamed (.text "set )") [.array .bool]) := rfl
  obtain ⟨s, u, hs, hu, hiff, hdisplay, htypes⟩ :=
    fullName_unambiguous hfirst hsecond rfl rfl (by decide) (by decide)
  rw [inputTypes_functionNamed, inputTypes_functionNamed] at hiff
  rw [inputTypes_functionNamed] at htypes
  refine ⟨hfirst, hsecond, s, u, hs, hu, ?_, hdisplay, htypes⟩
  intro h
  exact absurd (hiff.mp h).2 (by decide)

/-- A list can stand for the name in a document. It is written before the types as a text is that looks
like it, so the signature is the one of another name, and what is read back from it is not the list. -/
theorem Entry.not_unambiguous_listNamed :
    Entry.ofValue (functionValue (.list [.text "a"]) []) = .ok (functionNamed (.list [.text "a"]) []) ∧
    Entry.ofValue (functionValue (.text "['a']") []) = .ok (functionNamed (.text "['a']") []) ∧
    nameHasList (.list [.text "a"]) = .ok false ∧ nameHasList (.text "['a']") = .ok false ∧
    (functionNamed (.list [.text "a"]) []).fullName = .ok "['a']()" ∧
    (functionNamed (.text "['a']") []).fullName = .ok "['a']()" ∧
    Value.list [.text "a"] ≠ .text "['a']" ∧
    Value.text (displayName "['a']()") ≠ .list [.text "a"] :=
  ⟨rfl, rfl, rfl, rfl, rfl, rfl, nofun, nofun⟩

end LedgerAbi
