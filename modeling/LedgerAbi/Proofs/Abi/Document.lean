/-
How reading an ABI document fails.

* `FailsBy` — an outcome is an invalid type, or fails in just the listed ways outside that
  vocabulary; it is passed on from the parts to the whole by `FailsBy.bind` and
  `FailsBy.mapM`;
* `EscapingType`, `EscapingEntry`, `EscapingDocument`, `EscapingSignature`, `EscapingBinding` —
  the types, entries, documents, signatures and bindings that fail in such ways;
* `document_readsOrRejects_iff` — types, documents in shape and bindings of such documents
  are read or rejected as invalid types, but for just these.

Design notes: a document in shape is one whose entries are objects with lists of objects for
parameters, texts for the names of these and a text for the mutability, while the types and the
names of the entries may be anything.  Its parts are read in order, so what escapes is told by the
first part that is not read.
-/
import LedgerAbi.Binding
import LedgerAbi.Proofs.Abi.CanonicalName
import LedgerAbi.Proofs.Event.Arguments

namespace LedgerAbi

/-! ### Outcomes -/

/-- Something is read or rejected as an invalid type. -/
def ReadsOrRejects {α : Type} (outcome : Except Error α) : Prop :=
  (∃ a, outcome = .ok a) ∨ ∃ cause, outcome = .error (.invalidType cause)

/-- An outcome that fails does so as an invalid type, or in just the listed ways. -/
structure FailsBy {α : Type} (outcome : Except Error α) (escapes : Fault → Prop) : Prop where
  cause : ∀ e, outcome = .error e → (∃ cause, e = .invalidType cause) ∨ ∃ fault, e = .fault fault
  fault_iff : ∀ fault, outcome = .error (.fault fault) ↔ escapes fault

namespace FailsBy

variable {α β : Type}

theorem readsOrRejects_iff {outcome : Except Error α} {escapes : Fault → Prop}
    (h : FailsBy outcome escapes) : ReadsOrRejects outcome ↔ ∀ fault, ¬ escapes fault := by
  constructor
  · intro houtcome fault hescapes
    have hfault := (h.fault_iff fault).mpr hescapes
    rcases houtcome with ⟨a, ha⟩ | ⟨cause, hcause⟩
    · rw [hfault] at ha
      cases ha
    · rw [hfault] at hcause
      cases hcause
  · intro hnone
    cases houtcome : outcome with
    | ok a => exact Or.inl ⟨a, rfl⟩
    | error e =>
      rcases h.cause e houtcome with ⟨cause, rfl⟩ | ⟨fault, rfl⟩
      · exact Or.inr ⟨cause, rfl⟩
      · exact absurd ((h.fault_iff fault).mp houtcome) (hnone fault)

theorem congr {outcome : Except Error α} {escapes escapes' : Fault → Prop}
    (h : FailsBy outcome escapes) (hiff : ∀ fault, escapes fault ↔ escapes' fault) :
    FailsBy outcome escapes' :=
  ⟨h.cause, fun fault => (h.fault_iff fault).trans (hiff fault)⟩

theorem ok (a : α) : FailsBy (.ok a) fun _ => False := by
  refine ⟨nofun, fun fault => ?_⟩
  exact iff_of_false nofun not_false

theorem invalidType (cause : InvalidType) :
    FailsBy (.error (.invalidType cause) : Except Error α) fun _ => False := by
  refine ⟨?_, fun fault => iff_of_false nofun not_false⟩
  rintro e ⟨⟩
  exact Or.inl ⟨cause, rfl⟩

theorem fault (c : Fault) : FailsBy (.error (.fault c) : Except Error α) (· = c) := by
  refine ⟨?_, fun fault => ?_⟩
  · rintro e ⟨⟩
    exact Or.inr ⟨c, rfl⟩
  · constructor
    · rintro ⟨⟩
      rfl
    · rintro rfl
      rfl

/-- Two stages fail in the ways of the first, and after it in those of the second. -/
theorem bind {outcome : Except Error α} {f : α → Except Error β} {escapes : Fault → Prop}
    {later : α → Fault → Prop} (h : FailsBy outcome escapes)
    (hf : ∀ a, outcome = .ok a → FailsBy (f a) (later a)) :
    FailsBy (outcome >>= f) fun fault => escapes fault ∨ ∃ a, outcome = .ok a ∧ later a fault := by
  refine ⟨?_, fun fault => ?_⟩
  · intro e he
    rcases Except.bind_eq_error_iff.mp he with he | ⟨a, ha, he⟩
    · exact h.cause e he
    · exact (hf a ha).cause e he
  · rw [Except.bind_eq_error_iff, h.fault_iff]
    refine or_congr_right (exists_congr fun a => and_congr_right fun ha => ?_)
    exact (hf a ha).fault_iff fault

/-- A list fails in the ways of its first item that is not read. -/
theorem mapM {f : α → Except Error β} {escapes : α → Fault → Prop} {xs : List α}
    (h : ∀ x ∈ xs, FailsBy (f x) (escapes x)) :
    FailsBy (xs.mapM f) fun fault => ∃ before x after, xs = before ++ x :: after ∧
      (∀ w ∈ before, ∃ y, f w = .ok y) ∧ escapes x fault := by
  refine ⟨?_, fun fault => ?_⟩
  · intro e he
    obtain ⟨before, x, after, rfl, -, hx⟩ := Except.mapM_eq_error_iff.mp he
    exact (h x (by simp)).cause e hx
  · rw [Except.mapM_eq_error_iff]
    constructor
    · rintro ⟨before, x, after, rfl, hbefore, hx⟩
      exact ⟨before, x, after, rfl, hbefore, ((h x (by simp)).fault_iff fault).mp hx⟩
    · rintro ⟨before, x, after, rfl, hbefore, hx⟩
      exact ⟨before, x, after, rfl, hbefore, ((h x (by simp)).fault_iff fault).mpr hx⟩

end FailsBy

/-! ### Types -/

/-- The values for which a type is neither read nor rejected. -/
inductive EscapingType : Value → Fault → Prop where
  /-- A text outside the grammar that holds an empty tuple. -/
  | emptyTuple {t : Text} (hparse : TypeSyntax.parse? t = none)
      (hempty : TypeSyntax.hasEmptyTuple t = true) : EscapingType (.text t) .emptyTuple
  /-- A text of the grammar with a number of too many digits. -/
  | overlongDimension {t : Text} {s : TypeSyntax} {n : Nat} (hparse : TypeSyntax.parse? t = some s)
      (hn : n ∈ s.numbers) (hlong : exceedsDigitLimit n = true) :
      EscapingType (.text t) .overlongDimension
  /-- Something else than a text that cannot be written out. -/
  | overlongInteger {v : Value} (hv : ∀ t, v ≠ .text t) (hlong : v.isOverlong = true) :
      EscapingType v .overlongInteger

theorem escapingType_text_iff (t : Text) (fault : Fault) :
    EscapingType (.text t) fault ↔
      (TypeSyntax.parse? t = none ∧ TypeSyntax.hasEmptyTuple t = true ∧ fault = .emptyTuple) ∨
      ∃ s, TypeSyntax.parse? t = some s ∧ (s.numbers.any fun n => exceedsDigitLimit n) = true ∧
        fault = .overlongDimension := by
  constructor
  · intro h
    cases h with
    | emptyTuple hparse hempty => exact Or.inl ⟨hparse, hempty, rfl⟩
    | overlongDimension hparse hn hlong =>
      exact Or.inr ⟨_, hparse, List.any_eq_true.mpr ⟨_, hn, hlong⟩, rfl⟩
    | overlongInteger hv => exact absurd rfl (hv t)
  · rintro (⟨hparse, hempty, rfl⟩ | ⟨s, hparse, hnumbers, rfl⟩)
    · exact .emptyTuple hparse hempty
    · obtain ⟨n, hn, hlong⟩ := List.any_eq_true.mp hnumbers
      exact .overlongDimension hparse hn hlong

theorem AbiType.failsBy_ofText (t : Text) : FailsBy (ofText t) (EscapingType (.text t)) := by
  have hiff := escapingType_text_iff t
  unfold ofText
  split
  · next hparse =>
    simp only [hparse, reduceCtorEq, false_and, exists_false, or_false, true_and] at hiff
    split
    · next hempty =>
      exact (FailsBy.fault _).congr fun fault => ((hiff fault).trans (and_iff_right hempty)).symm
    · next hempty =>
      exact (FailsBy.invalidType _).congr fun fault =>
        iff_of_false not_false fun h => hempty ((hiff fault).mp h).1
  · next s hparse =>
    simp only [hparse, reduceCtorEq, false_and, false_or, Option.some.injEq,
      exists_eq_left'] at hiff
    split
    · next hnumbers =>
      exact (FailsBy.fault _).congr fun fault => ((hiff fault).trans (and_iff_right hnumbers)).symm
    · next hnumbers =>
      have hnone (fault : Fault) : False ↔ EscapingType (.text t) fault :=
        iff_of_false not_false fun h => hnumbers ((hiff fault).mp h).1
      split
      · exact (FailsBy.invalidType _).congr hnone
      split
      · exact (FailsBy.invalidType _).congr hnone
      split
      · exact (FailsBy.ok _).congr hnone
      · exact (FailsBy.invalidType _).congr hnone

theorem AbiType.failsBy_ofValue (v : Value) : FailsBy (ofValue v) (EscapingType v) := by
  by_cases htext : ∃ t, v = .text t
  · obtain ⟨t, rfl⟩ := htext
    exact failsBy_ofText t
  · have hv : ∀ t, v ≠ .text t := fun t ht => htext ⟨t, ht⟩
    have hescapes (fault : Fault) :
        EscapingType v fault ↔ v.isOverlong = true ∧ fault = .overlongInteger := by
      constructor
      · intro h
        cases h with
        | emptyTuple => exact absurd rfl (hv _)
        | overlongDimension => exact absurd rfl (hv _)
        | overlongInteger _ hlong => exact ⟨hlong, rfl⟩
      · rintro ⟨hlong, rfl⟩
        exact .overlongInteger hv hlong
    rw [ofValue]
    · split
      · next hlong =>
        exact (FailsBy.fault _).congr fun fault => by rw [hescapes, and_iff_right hlong]
      · next hshort =>
        refine (FailsBy.invalidType _).congr fun fault => iff_of_false not_false ?_
        rw [hescapes]
        exact fun h => hshort h.1
    · exact hv

/-! ### Parameters -/

/-- A text, if it is there. -/
def IsOptionalText (v : Option Value) : Prop := v = none ∨ ∃ t, v = some (.text t)

/-- An object with a text for its name, if it has one. -/
def IsParameter (v : Value) : Prop := ∃ members : Members, v = .dict members ∧
  IsOptionalText (members.get? "name")

/-- The parameters under a key. -/
def parametersOf (members : Members) (key : Text) : List Value :=
  match members.get? key with
  | some (.list items) => items
  | _ => []

/-- Nothing under a key, or a list of parameters. -/
def HasParameters (members : Members) (key : Text) : Prop :=
  (members.get? key = none ∨ ∃ items, members.get? key = some (.list items)) ∧
    ∀ v ∈ parametersOf members key, IsParameter v

/-- The type of a parameter. -/
def typeOf : Value → Value
  | .dict members => Members.getD members "type" (.text [])
  | _ => .none

/-- All parameters are read. -/
def AreRead (ps : List Value) : Prop := ∀ p ∈ ps, ∃ r, Parameter.ofValue p = .ok r

/-- The first parameter that is not read has a type that escapes. -/
def EscapesAmong (ps : List Value) (fault : Fault) : Prop :=
  ∃ before p after, ps = before ++ p :: after ∧ AreRead before ∧ EscapingType (typeOf p) fault

theorem getD_of_hasParameters {members : Members} {key : Text} (h : HasParameters members key) :
    members.getD key (.list []) = .list (parametersOf members key) := by
  rw [Members.getD, parametersOf]
  rcases h.1 with hnone | ⟨items, hsome⟩
  · rw [hnone]
    rfl
  · rw [hsome]
    rfl

theorem Parameter.failsBy_ofValue {v : Value} (h : IsParameter v) :
    FailsBy (ofValue v) (EscapingType (typeOf v)) := by
  obtain ⟨members, rfl, -⟩ := h
  refine ((AbiType.failsBy_ofValue (typeOf (.dict members))).bind fun type _ => .ok _).congr ?_
  intro fault
  simp only [and_false, exists_false, or_false]

theorem Parameter.exists_text_name {v : Value} (h : IsParameter v) {p : Parameter}
    (hp : ofValue v = .ok p) : ∃ t, p.name = .text t := by
  obtain ⟨members, rfl, hname⟩ := h
  obtain ⟨_, hmembers, hp⟩ := Except.bind_eq_ok_iff.mp hp
  obtain ⟨type, -, hp⟩ := Except.bind_eq_ok_iff.mp hp
  cases hmembers
  cases hp
  rcases hname with hnone | ⟨t, hsome⟩
  · exact ⟨[], by rw [hnone]; rfl⟩
  · cases t with
    | nil => exact ⟨[], by rw [hsome]; rfl⟩
    | cons c rest => exact ⟨c :: rest, by rw [hsome]; rfl⟩

theorem failsBy_mapM_parameters {ps : List Value} (h : ∀ p ∈ ps, IsParameter p) :
    FailsBy (ps.mapM Parameter.ofValue) (EscapesAmong ps) :=
  FailsBy.mapM fun p hp => Parameter.failsBy_ofValue (h p hp)

/-! ### Names that overlap -/

/-- Keys of parameters with texts for names are texts. -/
theorem exists_text_of_mem_keysFrom {position : Nat} {ps : List Parameter}
    (h : ∀ p ∈ ps, ∃ t, p.name = .text t) :
    ∀ key ∈ Parameter.keysFrom position ps, ∃ t, key = .text t := by
  induction ps generalizing position with
  | nil => exact nofun
  | cons p rest ih =>
    obtain ⟨hp, hrest⟩ := List.forall_mem_cons.mp h
    rw [Parameter.keysFrom, List.forall_mem_cons]
    refine ⟨?_, ih hrest⟩
    rw [Parameter.key]
    split
    · exact hp
    · exact ⟨_, rfl⟩

theorem Value.mem_of_mem_repeated {keys : List Value} {key : Value} (h : key ∈ repeated keys) :
    key ∈ keys := by
  induction keys with
  | nil => cases h
  | cons first rest ih =>
    rw [repeated] at h
    split at h
    · rcases List.mem_cons.mp h with rfl | h
      · exact List.mem_cons_self
      · exact List.mem_cons_of_mem _ (ih h)
    split at h
    · rcases List.mem_cons.mp h with rfl | h
      · exact List.mem_cons_self
      · exact List.mem_cons_of_mem _ (ih (List.mem_of_mem_filter h))
    · exact List.mem_cons_of_mem _ (ih h)

/-- Texts can be sorted and listed. -/
theorem Value.exists_sortKeys?_of_texts {keys : List Value} (h : ∀ key ∈ keys, ∃ t, key = .text t) :
    ∃ sorted, sortKeys? keys = some sorted ∧ sorted.any isOverlong = false := by
  refine ⟨keys.mergeSort fun v w => keyLess? w v != some true, if_pos ?_, ?_⟩
  · refine Or.inr (List.all_eq_true.mpr fun v hv => List.all_eq_true.mpr fun w hw => ?_)
    obtain ⟨t, rfl⟩ := h v hv
    obtain ⟨u, rfl⟩ := h w hw
    rfl
  · rw [List.any_eq_false]
    intro key hkey
    obtain ⟨t, rfl⟩ := h key (List.mem_mergeSort.mp hkey)
    exact nofun

/-- Texts that overlap are listed in order, in an entry whose name can be written out. -/
theorem Entry.overlap_eq (kind : EntryKind) (name : Value) {keys : List Value}
    (h : ∀ key ∈ keys, ∃ t, key = .text t) :
    ∃ sorted, overlap kind name keys =
      if name.isOverlong then .fault .overlongInteger
      else .invalidType (.overlappingNames kind name sorted) := by
  have htexts : ∀ key ∈ Value.repeated keys, ∃ t, key = .text t := fun key hkey =>
    h key (Value.mem_of_mem_repeated hkey)
  have hkeys : (Value.repeated keys).all Value.isKey = true := by
    rw [List.all_eq_true]
    intro key hkey
    obtain ⟨t, rfl⟩ := htexts key hkey
    rfl
  obtain ⟨sorted, hsorted, hshort⟩ := Value.exists_sortKeys?_of_texts htexts
  refine ⟨sorted, ?_⟩
  simp only [overlap, hkeys, hsorted, hshort, Bool.not_true, Bool.false_eq_true, if_false,
    Bool.or_false]

/-- Texts that overlap are rejected, in an entry whose name can be written out. -/
theorem Entry.failsBy_overlap (kind : EntryKind) (name : Value) {keys : List Value}
    (h : ∀ key ∈ keys, ∃ t, key = .text t) :
    FailsBy (.error (overlap kind name keys) : Except Error Entry) fun fault =>
      name.isOverlong = true ∧ fault = .overlongInteger := by
  obtain ⟨sorted, hsorted⟩ := overlap_eq kind name h
  rw [hsorted]
  split
  · next hlong => exact (FailsBy.fault _).congr fun fault => (and_iff_right hlong).symm
  · next hshort =>
    exact (FailsBy.invalidType _).congr fun fault => iff_of_false not_false fun h => hshort h.1

/-! ### Entries -/

/-- The members of an entry in shape. -/
structure IsEntry (members : Members) : Prop where
  inputs : HasParameters members "inputs"
  outputs : HasParameters members "outputs"
  mutability : IsOptionalText (members.get? "stateMutability")

/-- The entries that are neither read nor rejected. -/
inductive EscapingEntry (members : Members) : Fault → Prop where
  | input {fault : Fault} (h : EscapesAmong (parametersOf members "inputs") fault) :
      EscapingEntry members fault
  | output {fault : Fault} (hinputs : AreRead (parametersOf members "inputs"))
      (h : EscapesAmong (parametersOf members "outputs") fault) : EscapingEntry members fault
  /-- The mutability is none of the four. -/
  | mutability {t : Text} (hinputs : AreRead (parametersOf members "inputs"))
      (houtputs : AreRead (parametersOf members "outputs"))
      (ht : members.get? "stateMutability" = some (.text t)) (hname : Mutability.ofName? t = none) :
      EscapingEntry members .unknownMutability
  /-- The keys overlap, and the name that the rejection would quote cannot be written out. -/
  | overlap {kind : EntryKind} {inputs outputs : List Parameter}
      (hkind : EntryKind.ofValue? (Entry.kindValue members) = some kind)
      (hinputs : (parametersOf members "inputs").mapM Parameter.ofValue = .ok inputs)
      (houtputs : (parametersOf members "outputs").mapM Parameter.ofValue = .ok outputs)
      (hmutability : ∃ m, Mutability.ofMembers members = .ok m)
      (hkeys : ¬ DistinctKeys (parameterKeys (kind.keyed inputs outputs)))
      (hname : (members.getD "name" (.text [])).isOverlong = true) :
      EscapingEntry members .overlongInteger

theorem Mutability.failsBy_ofMembers {members : Members}
    (h : IsOptionalText (members.get? "stateMutability")) :
    FailsBy (ofMembers members) fun fault => fault = .unknownMutability ∧
      ∃ t, members.get? "stateMutability" = some (.text t) ∧ ofName? t = none := by
  rcases h with hnone | ⟨t, hsome⟩
  · have hread : ∃ m, ofMembers members = .ok m := by
      rw [ofMembers, hnone]
      dsimp only
      split
      · exact ⟨_, rfl⟩
      · split <;> exact ⟨_, rfl⟩
    obtain ⟨m, hm⟩ := hread
    rw [hm]
    exact (FailsBy.ok m).congr fun fault => by simp [hnone]
  · rw [ofMembers, hsome]
    dsimp only
    split
    · next m hm => exact (FailsBy.ok m).congr fun fault => by simp [hm]
    · next hname => exact (FailsBy.fault _).congr fun fault => by simp [hname]

theorem areRead_of_mapM {ps : List Value} {rs : List Parameter}
    (h : ps.mapM Parameter.ofValue = .ok rs) : AreRead ps :=
  List.exists_forall₂_iff.mp ⟨rs, Except.mapM_eq_ok_iff.mp h⟩

/-- An entry in shape is read part by part. -/
theorem Entry.ofValue_eq {members : Members} (h : IsEntry members) {kind : EntryKind}
    (hkind : EntryKind.ofValue? (kindValue members) = some kind) :
    ofValue (.dict members) = (do
      let inputs ← (parametersOf members "inputs").mapM Parameter.ofValue
      let outputs ← (parametersOf members "outputs").mapM Parameter.ofValue
      let mutability ← Mutability.ofMembers members
      if h : DistinctKeys (parameterKeys (kind.keyed inputs outputs)) then
        .ok ⟨kind, members.getD "name" (.text []), inputs, outputs, mutability,
          (members.getD "anonymous" .none).isTruthy, h⟩
      else .error (overlap kind (members.getD "name" (.text []))
        (parameterKeys (kind.keyed inputs outputs)))) := by
  simp only [ofValue, Value.members, bind, Except.bind, hkind, getD_of_hasParameters h.inputs,
    getD_of_hasParameters h.outputs, Value.items]

/-- The keys of an entry in shape are texts. -/
theorem Entry.exists_text_of_mem_parameterKeys {members : Members} (h : IsEntry members)
    (kind : EntryKind) {inputs outputs : List Parameter}
    (hinputs : (parametersOf members "inputs").mapM Parameter.ofValue = .ok inputs)
    (houtputs : (parametersOf members "outputs").mapM Parameter.ofValue = .ok outputs) :
    ∀ key ∈ parameterKeys (kind.keyed inputs outputs), ∃ t, key = .text t := by
  have htexts {ps : List Value} (hps : ∀ v ∈ ps, IsParameter v) {rs : List Parameter}
      (hrs : ps.mapM Parameter.ofValue = .ok rs) : ∀ p ∈ rs, ∃ t, p.name = .text t := by
    intro p hp
    obtain ⟨v, hv, hread⟩ := Except.exists_of_mem_mapM hrs hp
    exact Parameter.exists_text_name (hps v hv) hread
  refine exists_text_of_mem_keysFrom ?_
  cases kind with
  | function => exact htexts h.outputs.2 houtputs
  | constructor => exact htexts h.outputs.2 houtputs
  | event => exact htexts h.inputs.2 hinputs

theorem Entry.failsBy_ofValue {members : Members} (h : IsEntry members)
    (hkind : EntryKind.ofValue? (kindValue members) ≠ none) :
    FailsBy (ofValue (.dict members)) (EscapingEntry members) := by
  obtain ⟨kind, hkind⟩ := Option.ne_none_iff_exists'.mp hkind
  rw [ofValue_eq h hkind]
  refine ((failsBy_mapM_parameters h.inputs.2).bind fun inputs hinputs =>
    (failsBy_mapM_parameters h.outputs.2).bind fun outputs houtputs =>
      (Mutability.failsBy_ofMembers h.mutability).bind fun mutability _ =>
        (?_ : FailsBy _ fun fault => ¬ DistinctKeys (parameterKeys (kind.keyed inputs outputs)) ∧
          (members.getD "name" (.text [])).isOverlong = true ∧ fault = .overlongInteger)).congr ?_
  · split
    · next hkeys => exact (FailsBy.ok _).congr fun fault => iff_of_false not_false fun h => h.1 hkeys
    · next hkeys =>
      have hfails := failsBy_overlap kind (members.getD "name" (.text []))
        (exists_text_of_mem_parameterKeys h kind hinputs houtputs)
      exact hfails.congr fun fault => (and_iff_right hkeys).symm
  · intro fault
    constructor
    · rintro (hinput | ⟨inputs, hinputs, houtput | ⟨outputs, houtputs, hlast⟩⟩)
      · exact .input hinput
      · exact .output (areRead_of_mapM hinputs) houtput
      rcases hlast with ⟨rfl, t, ht, hname⟩ | ⟨m, hm, hkeys, hname, rfl⟩
      · exact .mutability (areRead_of_mapM hinputs) (areRead_of_mapM houtputs) ht hname
      · exact .overlap hkind hinputs houtputs ⟨m, hm⟩ hkeys hname
    · intro hescapes
      cases hescapes with
      | input hinput => exact Or.inl hinput
      | output hinputs houtput =>
        obtain ⟨inputs, hinputs⟩ := Except.exists_mapM_eq_ok hinputs
        exact Or.inr ⟨inputs, hinputs, Or.inl houtput⟩
      | mutability hinputs houtputs ht hname =>
        obtain ⟨inputs, hinputs⟩ := Except.exists_mapM_eq_ok hinputs
        obtain ⟨outputs, houtputs⟩ := Except.exists_mapM_eq_ok houtputs
        exact Or.inr ⟨inputs, hinputs, Or.inr ⟨outputs, houtputs, Or.inl ⟨rfl, _, ht, hname⟩⟩⟩
      | overlap hkind' hinputs houtputs hmutability hkeys hname =>
        rw [hkind] at hkind'
        cases hkind'
        obtain ⟨m, hm⟩ := hmutability
        exact Or.inr ⟨_, hinputs, Or.inr ⟨_, houtputs, Or.inr ⟨m, hm, hkeys, hname, rfl⟩⟩⟩

/-! ### Documents -/

/-- The entries of a document in shape. -/
def IsDocument (entries : List Value) : Prop :=
  ∀ v ∈ entries, ∃ members, v = .dict members ∧ IsEntry members

/-- An entry that is passed over or read. -/
def IsPassed (v : Value) : Prop :=
  (∃ members, v = .dict members ∧ EntryKind.ofValue? (Entry.kindValue members) = none) ∨
    ∃ e, Entry.ofValue v = .ok e

/-- The documents that are neither read nor rejected: the first entry that is not passed escapes. -/
inductive EscapingDocument : List Value → Fault → Prop where
  | first {members : Members} {rest : List Value} {fault : Fault}
      (hkind : EntryKind.ofValue? (Entry.kindValue members) ≠ none)
      (h : EscapingEntry members fault) : EscapingDocument (.dict members :: rest) fault
  | later {v : Value} {rest : List Value} {fault : Fault} (hv : IsPassed v)
      (h : EscapingDocument rest fault) : EscapingDocument (v :: rest) fault

theorem Entry.ofValues_cons_passed {members : Members}
    (hkind : EntryKind.ofValue? (kindValue members) = none) (rest : List Value) :
    ofValues (.dict members :: rest) = ofValues rest := by
  simp only [ofValues, Value.members, bind, Except.bind, hkind]

theorem Entry.ofValues_cons {members : Members} {kind : EntryKind}
    (hkind : EntryKind.ofValue? (kindValue members) = some kind) (rest : List Value) :
    ofValues (.dict members :: rest) = (do
      let e ← ofValue (.dict members)
      let es ← ofValues rest
      .ok (e :: es)) := by
  simp only [ofValues, Value.members, bind, Except.bind, hkind]

theorem Entry.failsBy_ofValues {entries : List Value} (h : IsDocument entries) :
    FailsBy (ofValues entries) (EscapingDocument entries) := by
  induction entries with
  | nil => exact (FailsBy.ok _).congr fun fault => iff_of_false not_false nofun
  | cons v rest ih =>
    obtain ⟨⟨members, rfl, hmembers⟩, hrest⟩ := List.forall_mem_cons.mp h
    have hlater := ih hrest
    cases hkind : EntryKind.ofValue? (kindValue members) with
    | none =>
      rw [ofValues_cons_passed hkind]
      refine hlater.congr fun fault => ?_
      constructor
      · intro hescapes
        exact .later (Or.inl ⟨members, rfl, hkind⟩) hescapes
      · intro hescapes
        cases hescapes with
        | first hsome => exact absurd hkind hsome
        | later _ hescapes => exact hescapes
    | some kind =>
      have hsome : EntryKind.ofValue? (kindValue members) ≠ none := by
        rw [hkind]
        exact nofun
      have hfirst := failsBy_ofValue hmembers hsome
      rw [ofValues_cons hkind]
      refine (hfirst.bind fun e _ => hlater.bind fun es _ => .ok (e :: es)).congr fun fault => ?_
      constructor
      · rintro (hescapes | ⟨e, he, hescapes | ⟨_, -, h⟩⟩)
        · exact .first hsome hescapes
        · exact .later (Or.inr ⟨e, he⟩) hescapes
        · exact h.elim
      · intro hescapes
        cases hescapes with
        | first _ hescapes => exact Or.inl hescapes
        | later hpassed hescapes =>
          rcases hpassed with ⟨members', hmembers', hnone⟩ | ⟨e, he⟩
          · cases hmembers'
            exact absurd hnone hsome
          · exact Or.inr ⟨e, he, Or.inl hescapes⟩

/-! ### Signatures -/

/-- The names that no signature is made of. -/
inductive NoSignature (name : Value) : Fault → Prop where
  /-- No parenthesis can be looked for in the name. -/
  | noParts {e : Error} (h : Entry.nameHasList name = .error e) : NoSignature name .wrongKind
  /-- A list or a dictionary with an opening parenthesis stands for no signature. -/
  | noText (h : Entry.nameHasList name = .ok true) (hname : ∀ t, name ≠ .text t) :
      NoSignature name .noMembers
  /-- A name without one has to be written out before the types. -/
  | overlong (h : Entry.nameHasList name = .ok false) (hlong : name.isOverlong = true) :
      NoSignature name .overlongInteger

/-- A function or an event without a signature, or an event whose signature has no encoded form. -/
inductive EscapingSignature (e : Entry) : Fault → Prop where
  | name {fault : Fault} (hkind : e.kind ≠ .constructor) (hname : NoSignature e.name fault) :
      EscapingSignature e fault
  | event {signature : Text} (hkind : e.kind = .event) (hsignature : e.fullName = .ok signature)
      (hsurrogate : signature.isScalar = false) : EscapingSignature e .unencodable

/-- An entry that a binding can hold. -/
def Entry.HasSignature (e : Entry) : Prop :=
  e.kind = .constructor ∨
    ∃ signature, e.fullName = .ok signature ∧ (e.kind = .event → signature.isScalar = true)

theorem Entry.nameHasList_eq_error {name : Value} {e : Error} (h : nameHasList name = .error e) :
    e = .fault .wrongKind := by
  cases name <;> cases h <;> rfl

theorem Entry.fullName_eq_fault {e : Entry} {fault : Fault} (h : NoSignature e.name fault) :
    e.fullName = .error (.fault fault) := by
  cases h with
  | noParts h =>
    simp only [fullName, h, bind, Except.bind]
    rw [nameHasList_eq_error h]
  | noText h hname =>
    simp only [fullName, h, bind, Except.bind, if_true]
  | overlong h hlong =>
    simp only [fullName, shownName, h, hlong, bind, Except.bind, Bool.false_eq_true, if_false,
      if_true]

theorem Entry.fullName_cases (e : Entry) :
    (∃ signature, e.fullName = .ok signature) ∨ ∃ fault, NoSignature e.name fault := by
  cases hlist : nameHasList e.name with
  | error error => exact Or.inr ⟨_, .noParts hlist⟩
  | ok hasList =>
    cases hasList with
    | true =>
      by_cases htext : ∃ t, e.name = .text t
      · exact Or.inl (exists_fullName htext)
      · exact Or.inr ⟨_, .noText hlist fun t ht => htext ⟨t, ht⟩⟩
    | false =>
      cases hlong : e.name.isOverlong with
      | true => exact Or.inr ⟨_, .overlong hlist hlong⟩
      | false =>
        left
        simp only [fullName, shownName, hlist, hlong, bind, Except.bind, Bool.false_eq_true, if_false]
        exact ⟨_, rfl⟩

theorem Entry.hasSignature_or_escapes (e : Entry) :
    e.HasSignature ∨ ∃ fault, EscapingSignature e fault := by
  cases hkind : e.kind with
  | constructor => exact Or.inl (Or.inl hkind)
  | function =>
    rcases e.fullName_cases with ⟨signature, hsignature⟩ | ⟨fault, hname⟩
    · refine Or.inl (Or.inr ⟨signature, hsignature, ?_⟩)
      rw [hkind]
      exact nofun
    · exact Or.inr ⟨fault, .name (by rw [hkind]; exact nofun) hname⟩
  | event =>
    rcases e.fullName_cases with ⟨signature, hsignature⟩ | ⟨fault, hname⟩
    · cases hscalar : signature.isScalar with
      | true => exact Or.inl (Or.inr ⟨signature, hsignature, fun _ => hscalar⟩)
      | false => exact Or.inr ⟨.unencodable, .event hkind hsignature hscalar⟩
    · exact Or.inr ⟨fault, .name (by rw [hkind]; exact nofun) hname⟩

/-- A digest needs a text without lone surrogates. -/
theorem signatureDigest_eq (signature : Text) :
    signatureDigest signature =
      if signature.isScalar then
        .ok (Keccak.digest (Text.toUtf8 (signature.filter (· != .char ' '))))
      else .error (.fault .unencodable) := by
  have hfilter : Text.isScalar (signature.filter (· != .char ' ')) = signature.isScalar := by
    rw [Text.isScalar, Text.isScalar, List.all_filter]
    congr 1
    funext c
    cases c <;> simp [CodePoint.isSurrogate]
  rw [signatureDigest, hfilter]

/-! ### Bindings -/

/-- The entries of which no binding is made: the first that has no signature escapes. -/
inductive EscapingSignatures : List Entry → Fault → Prop where
  | first {e : Entry} {rest : List Entry} {fault : Fault} (h : EscapingSignature e fault) :
      EscapingSignatures (e :: rest) fault
  | later {e : Entry} {rest : List Entry} {fault : Fault} (he : e.HasSignature)
      (h : EscapingSignatures rest fault) : EscapingSignatures (e :: rest) fault

/-- The documents of which no binding is made and that are not rejected. -/
def EscapingBinding (entries : List Value) (fault : Fault) : Prop :=
  EscapingDocument entries fault ∨
    ∃ es, Entry.ofValues entries = .ok es ∧ EscapingSignatures es fault

theorem Binding.addEntries_of_escapes {e : Entry} {fault : Fault} (h : EscapingSignature e fault)
    (b : Binding) (rest : List Entry) : addEntries b (e :: rest) = .error (.fault fault) := by
  cases h with
  | name hkind hname =>
    have hfault := Entry.fullName_eq_fault hname
    cases hcase : e.kind with
    | constructor => exact absurd hcase hkind
    | function =>
      simp only [addEntries, hcase, BoundFunction.ofEntry, hfault, bind, Except.bind]
    | event => simp only [addEntries, hcase, BoundEvent.ofEntry, hfault, bind, Except.bind]
  | event hkind hsignature hsurrogate =>
    simp only [addEntries, hkind, BoundEvent.ofEntry, Entry.topic, hsignature, signatureDigest_eq,
      hsurrogate, bind, Except.bind, Bool.false_eq_true, if_false]

theorem Binding.exists_addEntries_of_hasSignature {e : Entry} (h : e.HasSignature) (b : Binding)
    (rest : List Entry) : ∃ b', addEntries b (e :: rest) = addEntries b' rest := by
  rcases h with hkind | ⟨signature, hsignature, hscalar⟩
  · exact ⟨_, by simp only [addEntries, hkind]; rfl⟩
  cases hkind : e.kind with
  | constructor => exact ⟨_, by simp only [addEntries, hkind]; rfl⟩
  | function =>
    simp only [addEntries, hkind, BoundFunction.ofEntry, hsignature, bind, Except.bind]
    exact ⟨_, rfl⟩
  | event =>
    have htopic : signatureDigest signature = .ok _ := (signatureDigest_eq signature).trans
      (if_pos (hscalar hkind))
    simp only [addEntries, hkind, BoundEvent.ofEntry, Entry.topic, hsignature, htopic, bind,
      Except.bind]
    exact ⟨_, rfl⟩

theorem Entry.HasSignature.not_escapes {e : Entry} (h : e.HasSignature) (fault : Fault) :
    ¬ EscapingSignature e fault := by
  intro hescapes
  cases hescapes with
  | name hkind hname =>
    rcases h with hconstructor | ⟨signature, hsignature, -⟩
    · exact hkind hconstructor
    · rw [fullName_eq_fault hname] at hsignature
      cases hsignature
  | event hkind hsignature hsurrogate =>
    rcases h with hconstructor | ⟨signature, hsignature', hscalar⟩
    · rw [hkind] at hconstructor
      cases hconstructor
    · rw [hsignature] at hsignature'
      cases hsignature'
      rw [hscalar hkind] at hsurrogate
      cases hsurrogate

theorem Binding.failsBy_addEntries (es : List Entry) (b : Binding) :
    FailsBy (addEntries b es) (EscapingSignatures es) := by
  induction es generalizing b with
  | nil => exact (FailsBy.ok b).congr fun fault => iff_of_false not_false nofun
  | cons e rest ih =>
    rcases e.hasSignature_or_escapes with hsignature | ⟨c, hescapes⟩
    · obtain ⟨b', hb'⟩ := exists_addEntries_of_hasSignature hsignature b rest
      rw [hb']
      refine (ih b').congr fun fault => ?_
      constructor
      · exact .later hsignature
      · intro h
        cases h with
        | first hfirst => exact absurd hfirst (hsignature.not_escapes fault)
        | later _ hlater => exact hlater
    · have hfails := addEntries_of_escapes hescapes b rest
      rw [hfails]
      refine (FailsBy.fault c).congr fun fault => ?_
      constructor
      · rintro rfl
        exact .first hescapes
      · intro h
        cases h with
        | first hfirst =>
          -- one outcome tells one fault
          rw [addEntries_of_escapes hfirst b rest] at hfails
          cases hfails
          rfl
        | later hsignature => exact absurd hescapes (hsignature.not_escapes c)

theorem Binding.failsBy_ofValue {entries : List Value} (h : IsDocument entries) (config : Config)
    (objectReturn : Bool) :
    FailsBy (ofValue (.list entries) config .none .none .none objectReturn)
      (EscapingBinding entries) :=
  (Entry.failsBy_ofValues h).bind fun es _ => failsBy_addEntries es _

/-! ### Read or rejected -/

/-- **A type, a document in shape and a binding of it are read, or rejected as an invalid type**,
but for the types, documents and signatures that escape.  A document in shape may have anything for
the names of its entries and the types of its parameters, and any texts for the names of these and
for mutabilities. -/
theorem document_readsOrRejects_iff {entries : List Value} (h : IsDocument entries)
    (config : Config) (objectReturn : Bool) :
    (∀ v, ReadsOrRejects (AbiType.ofValue v) ↔ ∀ fault, ¬ EscapingType v fault) ∧
    (ReadsOrRejects (Entry.listOfValue (.list entries)) ↔
      ∀ fault, ¬ EscapingDocument entries fault) ∧
    (ReadsOrRejects (Binding.ofValue (.list entries) config .none .none .none objectReturn) ↔
      ∀ fault, ¬ EscapingBinding entries fault) := by
  refine ⟨?_, ?_, ?_⟩
  · intro v
    exact (AbiType.failsBy_ofValue v).readsOrRejects_iff
  · exact (Entry.failsBy_ofValues h).readsOrRejects_iff
  · exact (Binding.failsBy_ofValue h config objectReturn).readsOrRejects_iff

/-- The members of a function with a truth value for the type of its input. -/
def untypedFunction : Members := [("type", .text "function"), ("name", .text "f"),
  ("inputs", .list [.dict [("name", .text "x"), ("type", .bool true)]]),
  ("stateMutability", .text "view")]

theorem isDocument_untypedFunction : IsDocument [.dict untypedFunction] := by
  intro v hv
  rw [List.mem_singleton.mp hv]
  refine ⟨untypedFunction, rfl, ⟨Or.inr ⟨_, rfl⟩, ?_⟩, ⟨Or.inl rfl, nofun⟩, Or.inr ⟨_, rfl⟩⟩
  intro p hp
  rw [List.mem_singleton.mp hp]
  exact ⟨_, rfl, Or.inr ⟨_, rfl⟩⟩

/-- The document of this function is read or rejected, since a truth value can be quoted. -/
theorem document_readsOrRejects_untyped :
    IsDocument [.dict untypedFunction] ∧
    ReadsOrRejects (Entry.listOfValue (.list [.dict untypedFunction])) := by
  refine ⟨isDocument_untypedFunction,
    (document_readsOrRejects_iff isDocument_untypedFunction .standard false).2.1.mpr ?_⟩
  intro fault hescapes
  cases hescapes with
  | first _ hentry =>
    cases hentry with
    | input hinput =>
      obtain ⟨before, p, after, hsplit, -, htype⟩ := hinput
      have hp : p ∈ parametersOf untypedFunction "inputs" := by
        rw [hsplit]
        simp
      rw [List.mem_singleton.mp hp] at htype
      cases htype with
      | overlongInteger _ hlong => cases hlong
    | output _ houtput =>
      obtain ⟨before, p, after, hsplit, -⟩ := houtput
      have hnone : parametersOf untypedFunction "outputs" = [] := rfl
      rw [hnone] at hsplit
      exact absurd hsplit (by simp)
    | mutability _ _ ht hname =>
      cases ht
      cases hname
    | overlap _ _ _ _ _ hname => cases hname
  | later _ hrest => cases hrest

/-- The members of a function with a mutability that is none of the four. -/
def unknownFunction : Members :=
  [("type", .text "function"), ("name", .text "f"), ("stateMutability", .text "x")]

/-- A text with an empty tuple, and a document with an unknown mutability. -/
theorem not_readsOrRejects_tuple_mutability :
    ¬ ReadsOrRejects (AbiType.ofValue (.text "()")) ∧ IsDocument [.dict unknownFunction] ∧
    ¬ ReadsOrRejects (Entry.listOfValue (.list [.dict unknownFunction])) := by
  have hdocument : IsDocument [.dict unknownFunction] := by
    intro v hv
    rw [List.mem_singleton.mp hv]
    exact ⟨unknownFunction, rfl, ⟨Or.inl rfl, nofun⟩, ⟨Or.inl rfl, nofun⟩, Or.inr ⟨_, rfl⟩⟩
  refine ⟨?_, hdocument, ?_⟩
  · intro h
    exact (AbiType.failsBy_ofValue _).readsOrRejects_iff.mp h _ (.emptyTuple rfl rfl)
  · intro h
    have hescapes : EscapingDocument [.dict unknownFunction] .unknownMutability :=
      .first nofun (.mutability nofun nofun rfl rfl)
    exact (Entry.failsBy_ofValues hdocument).readsOrRejects_iff.mp h _ hescapes

end LedgerAbi
