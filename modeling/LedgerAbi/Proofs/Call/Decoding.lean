/-
Decoding fails in one way only.

* `IsDecoding` — the outcome of decoding is a value of some sort or a failure to decode;
* `isDecoding_decodeValues`, `isDecoding_decodeRevertReason` — so it is for values and for
  the reason of a reverted call, whatever the bytes are;
* `isDecoding_unpackOutput_iff` — and for the outputs of a function, unless they are asked
  for by name and an output has a list or a dictionary for its name;
* `isDecoding_of_named` — all of it, for types that come with names.

Design notes: the coder of the wire form is given the canonical names of the types.  That it
reads each of them as the type it stands for is `AbiType.ofText_canonical`, so no failure
to read a name can come in between.
-/
import LedgerAbi.Call.Result
import LedgerAbi.Proofs.Abi.Signature
import LedgerAbi.Proofs.Event.Arguments

namespace LedgerAbi

/-- A value with a property, or a failure to decode. -/
def IsDecoding {α : Type} (P : α → Prop) (outcome : Except Error α) : Prop :=
  (∃ a, outcome = .ok a ∧ P a) ∨ ∃ cause, outcome = .error (.decode cause)

theorem not_isDecoding_fault {α : Type} (P : α → Prop) (fault : Fault) :
    ¬ IsDecoding P (.error (.fault fault)) := by
  rintro (⟨a, ha, -⟩ | ⟨cause, hcause⟩)
  · cases ha
  · cases hcause

/-! ### Values -/

theorem isDecoding_decodeBytes (types : List AbiType) (b : Bytes) :
    IsDecoding (fun vs => vs.length = types.length) (decodeBytes types b) := by
  rw [decodeBytes]
  cases Data.decode types b with
  | ok values => exact Or.inl ⟨_, rfl, Data.length_toValues types values⟩
  | error cause => exact Or.inr ⟨_, rfl⟩

/-- Bytes and texts decode to one value for each type, or do not decode. -/
theorem isDecoding_decodeValues (types : List AbiType) {data : Value} (hdata : data.IsWire) :
    IsDecoding (fun vs => vs.length = types.length) (decodeValues types data) := by
  rcases hdata with ⟨b, rfl⟩ | ⟨t, rfl⟩
  · exact isDecoding_decodeBytes types b
  · show IsDecoding _ (decodeText types t)
    rw [decodeText]
    cases Hex.read? t with
    | some b => exact isDecoding_decodeBytes types b
    | none => exact Or.inr ⟨_, rfl⟩

theorem isDecoding_decodeRevertReason (returnData : Bytes) :
    IsDecoding (fun _ => True) (decodeRevertReason returnData) := by
  rw [decodeRevertReason]
  split
  · exact Or.inl ⟨_, rfl, trivial⟩
  · dsimp only
    split
    · exact Or.inl ⟨_, rfl, trivial⟩
    · exact Or.inr ⟨_, rfl⟩

/-! ### The outputs of a function -/

/-- Some output has a list or a dictionary for its name. -/
def Entry.HasKeylessName (e : Entry) : Prop :=
  ∃ p ∈ e.outputs, p.name.isTruthy = true ∧ p.name.isKey = false

theorem all_isKey_keysFrom_eq_false_iff (position : Nat) (ps : List Parameter) :
    (Parameter.keysFrom position ps).all Value.isKey = false ↔
      ∃ p ∈ ps, p.name.isTruthy = true ∧ p.name.isKey = false := by
  induction ps generalizing position with
  | nil => simp [Parameter.keysFrom]
  | cons p rest ih =>
    have hkey : (p.key position).isKey = false ↔ p.name.isTruthy = true ∧ p.name.isKey = false := by
      rw [Parameter.key]
      split
      · next htruthy => simp [htruthy]
      · next hfalsy => simp [hfalsy, Value.isKey]
    rw [Parameter.keysFrom, List.all_cons, Bool.and_eq_false_iff, hkey, ih]
    simp only [List.mem_cons, exists_eq_or_imp]

/-- The bytes of the outputs decode, and then there is no key to keep some value under. -/
def Entry.FailsToName (e : Entry) (data : Value) (objectReturn : Bool) : Prop :=
  objectReturn = true ∧ 2 ≤ e.outputs.length ∧ e.HasKeylessName ∧
    ∃ raw, decodeValues e.outputTypes data = .ok raw

/-- Only a missing key stands in the way of outputs that decode. -/
theorem isDecoding_unpackOutput_iff {e : Entry} {data : Value} (hdata : data.IsWire)
    (objectReturn : Bool) :
    IsDecoding (fun _ => True) (unpackOutput e data objectReturn) ↔
      ¬ e.FailsToName data objectReturn := by
  rw [unpackOutput]
  by_cases hempty : e.outputs.isEmpty = true
  · rw [if_pos hempty]
    refine iff_of_true (Or.inl ⟨_, rfl, trivial⟩) ?_
    intro hfails
    have htwo := hfails.2.1
    rw [List.isEmpty_iff.mp hempty] at htwo
    exact absurd htwo (by decide)
  rw [if_neg hempty]
  rcases isDecoding_decodeValues e.outputTypes hdata with ⟨raw, hraw, hlength⟩ | ⟨cause, hcause⟩
  case inr =>
    rw [hcause]
    refine iff_of_true (Or.inr ⟨cause, rfl⟩) ?_
    intro hfails
    obtain ⟨raw, hraw⟩ := hfails.2.2.2
    rw [hcause] at hraw
    cases hraw
  rw [Entry.outputTypes, List.length_map] at hlength
  rw [hraw]
  dsimp only [bind, Except.bind]
  split
  · refine iff_of_true (Or.inl ⟨_, rfl, trivial⟩) ?_
    intro hfails
    have htwo := hfails.2.1
    rw [← hlength] at htwo
    exact absurd htwo (by simp)
  · next hmany =>
    have htwo : 2 ≤ e.outputs.length := by
      have hpos : 0 < e.outputs.length := List.length_pos_of_ne_nil (by simpa using hempty)
      have hone : raw.length ≠ 1 := by
        intro h
        obtain ⟨v, hv⟩ := List.length_eq_one_iff.mp h
        exact hmany v hv
      omega
    have hkeys := all_isKey_keysFrom_eq_false_iff 0 e.outputs
    cases objectReturn with
    | false =>
      refine iff_of_true (Or.inl ⟨_, rfl, trivial⟩) ?_
      intro hfails
      exact absurd hfails.1 Bool.false_ne_true
    | true =>
      rw [Bool.not_true, if_neg Bool.false_ne_true]
      split
      · next hall =>
        refine iff_of_true (Or.inl ⟨_, rfl, trivial⟩) ?_
        intro hfails
        have hfalse := hkeys.mpr hfails.2.2.1
        rw [parameterKeys, hfalse] at hall
        cases hall
      · next hall =>
        refine iff_of_false (not_isDecoding_fault _ _) (not_not.mpr ?_)
        exact ⟨rfl, htwo, hkeys.mp (Bool.eq_false_iff.mpr hall), raw, hraw⟩

/-! ### The types of an entry -/

/-- The outputs of an entry of a document have types that come with names. -/
theorem Entry.exists_ofText {v : Value} {e : Entry} (h : ofValue v = .ok e) :
    ∀ t ∈ e.outputTypes, ∃ s, AbiType.ofText s = .ok t := by
  intro t ht
  obtain ⟨p, hp, rfl⟩ := List.mem_map.mp ht
  exact exists_ofText_of_mem h (List.mem_append_right _ hp)

/-! ### Everything that is decoded -/

/-- **Decoding gives one value for each type or fails to decode**, for types that come with names.
The coder of the wire form reads the canonical names as the types.  Outputs that are asked for by
name fail in another way just when they decode and an output has a list or a dictionary for its
name. -/
theorem isDecoding_of_named {types : List AbiType}
    (htypes : ∀ t ∈ types, ∃ s, AbiType.ofText s = .ok t) :
    (∀ t ∈ types, AbiType.ofText t.canonical = .ok t) ∧
    (∀ data : Value, data.IsWire →
      IsDecoding (fun vs => vs.length = types.length) (decodeValues types data)) ∧
    (∀ returnData : Bytes, IsDecoding (fun _ => True) (decodeRevertReason returnData)) ∧
    (∀ (v : Value) (e : Entry), Entry.ofValue v = .ok e →
      ∀ t ∈ e.outputTypes, AbiType.ofText t.canonical = .ok t) ∧
    ∀ (e : Entry) (b : Bytes) (objectReturn : Bool),
      IsDecoding (fun _ => True) (unpackOutput e (.bytes b) objectReturn) ↔
        ¬ e.FailsToName (.bytes b) objectReturn := by
  have hcanonical : ∀ {t : AbiType}, (∃ s, AbiType.ofText s = .ok t) →
      AbiType.ofText t.canonical = .ok t := by
    intro t ht
    obtain ⟨s, hs⟩ := ht
    exact AbiType.ofText_canonical (AbiType.hasReadableLengths_of_ofText hs)
  refine ⟨?_, ?_, isDecoding_decodeRevertReason, ?_, ?_⟩
  · intro t ht
    exact hcanonical (htypes t ht)
  · intro data hdata
    exact isDecoding_decodeValues types hdata
  · intro v e he t ht
    exact hcanonical (Entry.exists_ofText he t ht)
  · intro e b objectReturn
    exact isDecoding_unpackOutput_iff (Or.inl ⟨b, rfl⟩) objectReturn

/-- A list of pairs of truth values. -/
def pairList : AbiType := .array (.fixedArray .bool ⟨2, Nat.two_pos⟩)

/-- The list of pairs is named by a text, and half a byte is decoded as one or fails to decode. -/
theorem isDecoding_of_named_pairs :
    AbiType.ofText "bool[2][]" = .ok pairList ∧
    AbiType.ofText pairList.canonical = .ok pairList ∧
    IsDecoding (fun vs => vs.length = 1) (decodeValues [pairList] (.text "0x0")) := by
  have hname : AbiType.ofText "bool[2][]" = .ok pairList := by
    have hlengths : pairList.HasReadableLengths := by
      intro n hn
      obtain rfl : n = ⟨2, by decide⟩ := by simpa [pairList, AbiType.basic, BasicSyntax.inArray] using hn
      exact exceedsDigitLimit_eq_false (by decide)
    have htext : ("bool[2][]" : Text) = pairList.canonical := rfl
    rw [htext]
    exact AbiType.ofText_canonical hlengths
  have htypes : ∀ t ∈ [pairList], ∃ s, AbiType.ofText s = .ok t := by
    intro t ht
    rw [List.mem_singleton.mp ht]
    exact ⟨_, hname⟩
  obtain ⟨hcanonical, hvalues, -⟩ := isDecoding_of_named htypes
  exact ⟨hname, hcanonical _ List.mem_cons_self, hvalues _ (Or.inr ⟨_, rfl⟩)⟩

/-- A function with two truth values for outputs, the first of which is named by a list. -/
def listNamedFunction : Entry where
  kind := .function
  name := .text "f"
  inputs := []
  outputs := [⟨.list [.text "a"], .bool, false⟩, ⟨.text "b", .bool, false⟩]
  mutability := .nonpayable
  anonymous := false
  distinctKeys := by decide +kernel

/-- A document can hold the function, whose outputs decode and cannot be had by name. -/
theorem not_isDecoding_listNamed :
    (∃ v, Entry.ofValue v = .ok listNamedFunction) ∧
    ¬ IsDecoding (fun _ => True)
      (unpackOutput listNamedFunction (.bytes (List.replicate 64 0)) true) := by
  constructor
  · exact ⟨.dict [("type", .text "function"), ("name", .text "f"), ("inputs", .list []),
      ("outputs", .list [.dict [("name", .list [.text "a"]), ("type", .text "bool")],
        .dict [("name", .text "b"), ("type", .text "bool")]])], rfl⟩
  · have hfault : unpackOutput listNamedFunction (.bytes (List.replicate 64 0)) true =
        .error (.fault .wrongKind) := rfl
    rw [hfault]
    exact not_isDecoding_fault _ .wrongKind

end LedgerAbi
