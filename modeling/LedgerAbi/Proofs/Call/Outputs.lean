/-
Named and listed results carry the same information.

* `Clash` — two parameters share a name, or one is named by the position of another that
  has no name;
* `distinctKeys_iff_not_clash` — the keys of parameters with texts for names are distinct
  just when no two of the parameters clash;
* `KeepsUnder` — named values are the items of a list, each under its own key;
* `outputs_agree_or_clash` — a function that is read has outputs of which the named
  result keeps each under its own key and fails as the list does, and a function with
  clashing outputs is not read.

Design notes: names and positions share one space of keys, so a clash is told in terms of
both.  The field `Entry.distinctKeys` then is all that the named result needs: the keys that
were compared when the entry was read are the keys that the values are put under.
-/
import LedgerAbi.Proofs.Abi.Document
import LedgerAbi.Proofs.Call.Reply

namespace LedgerAbi

/-! ### Names and positions -/

/-- Two parameters share a name, or one is named by the position of another that has no name. -/
inductive Clash (ps : List Parameter) : Prop where
  | names {i j : Nat} {p q : Parameter} (hp : ps[i]? = some p) (hq : ps[j]? = some q) (hij : i ≠ j)
      (hnamed : p.name ≠ .text []) (hname : p.name = q.name) : Clash ps
  | position {i j : Nat} {p q : Parameter} (hp : ps[i]? = some p) (hq : ps[j]? = some q)
      (hunnamed : p.name = .text []) (hname : q.name = .text (Text.ofNat i)) : Clash ps

theorem Text.ofNat_injective {m n : Nat} (h : ofNat m = ofNat n) : m = n := by
  rw [← foldl_ofNat m, h, foldl_ofNat]

namespace Parameter

theorem getElem?_keysFrom (position : Nat) (ps : List Parameter) (i : Nat) :
    (keysFrom position ps)[i]? = ps[i]?.map fun p => p.key (position + i) := by
  induction ps generalizing position i with
  | nil => rfl
  | cons p rest ih =>
    cases i with
    | zero => rfl
    | succ i =>
      rw [keysFrom, List.getElem?_cons_succ, List.getElem?_cons_succ, ih, Nat.add_right_comm]
      rfl

theorem key_of_text {p : Parameter} {t : Text} (h : p.name = .text t) (position : Nat) :
    p.key position = .text (if t = [] then Text.ofNat position else t) := by
  rw [key, h]
  cases t with
  | nil => rfl
  | cons c rest => rfl

/-- Parameters at different places have the same key just if they clash. -/
theorem same_key_iff {p q : Parameter} (hp : ∃ t, p.name = .text t) (hq : ∃ t, q.name = .text t)
    {i j : Nat} (hij : i ≠ j) :
    (p.key i).same (q.key j) = true ↔
      (p.name ≠ .text [] ∧ p.name = q.name) ∨
      (p.name = .text [] ∧ q.name = .text (Text.ofNat i)) ∨
      (q.name = .text [] ∧ p.name = .text (Text.ofNat j)) := by
  obtain ⟨t, ht⟩ := hp
  obtain ⟨u, hu⟩ := hq
  have hpositions : Text.ofNat i ≠ Text.ofNat j := fun h => hij (Text.ofNat_injective h)
  rw [key_of_text ht, key_of_text hu, ht, hu]
  simp only [Value.same, beq_iff_eq, Value.text.injEq, ne_eq]
  by_cases hunnamed : t = []
  · by_cases hunnamed' : u = []
    · simp [hunnamed, hunnamed', hpositions, (Text.ofNat_ne_nil _).symm]
    · simpa [hunnamed, hunnamed'] using eq_comm
  · by_cases hunnamed' : u = []
    · simp [hunnamed, hunnamed']
    · simp [hunnamed, hunnamed']

theorem same_key_comm {p q : Parameter} (hp : ∃ t, p.name = .text t) (hq : ∃ t, q.name = .text t)
    (i j : Nat) : (p.key i).same (q.key j) = (q.key j).same (p.key i) := by
  obtain ⟨t, ht⟩ := hp
  obtain ⟨u, hu⟩ := hq
  rw [key_of_text ht, key_of_text hu]
  exact BEq.comm

end Parameter

theorem getElem?_parameterKeys (ps : List Parameter) (i : Nat) :
    (parameterKeys ps)[i]? = ps[i]?.map fun p => p.key i := by
  rw [parameterKeys, Parameter.getElem?_keysFrom, Nat.zero_add]

/-- Distinct keys, told by the places of the parameters. -/
theorem distinctKeys_parameterKeys_iff {ps : List Parameter} :
    DistinctKeys (parameterKeys ps) ↔ ∀ (i j : Nat) (p q : Parameter), ps[i]? = some p →
      ps[j]? = some q → i < j → (p.key i).same (q.key j) = false := by
  rw [DistinctKeys, List.pairwise_iff_getElem]
  constructor
  · intro hpairs i j p q hp hq hij
    have hpi : (parameterKeys ps)[i]? = some (p.key i) := by rw [getElem?_parameterKeys, hp]; rfl
    have hqj : (parameterKeys ps)[j]? = some (q.key j) := by rw [getElem?_parameterKeys, hq]; rfl
    obtain ⟨hi, hpi⟩ := List.getElem?_eq_some_iff.mp hpi
    obtain ⟨hj, hqj⟩ := List.getElem?_eq_some_iff.mp hqj
    rw [← hpi, ← hqj]
    exact hpairs i j hi hj hij
  · intro hpairs i j hi hj hij
    have hpi := List.getElem?_eq_getElem hi
    have hqj := List.getElem?_eq_getElem hj
    rw [getElem?_parameterKeys, Option.map_eq_some_iff] at hpi hqj
    obtain ⟨p, hp, hpi⟩ := hpi
    obtain ⟨q, hq, hqj⟩ := hqj
    rw [← hpi, ← hqj]
    exact hpairs i j p q hp hq hij

/-- Keys of parameters with texts for names are distinct just if no two of the parameters clash. -/
theorem distinctKeys_iff_not_clash {ps : List Parameter} (h : ∀ p ∈ ps, ∃ t, p.name = .text t) :
    DistinctKeys (parameterKeys ps) ↔ ¬ Clash ps := by
  have htext {i : Nat} {p : Parameter} (hp : ps[i]? = some p) : ∃ t, p.name = .text t :=
    h p (List.mem_of_getElem? hp)
  rw [distinctKeys_parameterKeys_iff]
  constructor
  · intro hdistinct hclash
    have hne {i j : Nat} {p q : Parameter} (hp : ps[i]? = some p) (hq : ps[j]? = some q)
        (hij : i ≠ j) : (p.key i).same (q.key j) ≠ true := by
      rw [← Bool.eq_false_iff]
      rcases Nat.lt_or_gt_of_ne hij with hlt | hlt
      · exact hdistinct i j p q hp hq hlt
      · rw [Parameter.same_key_comm (htext hp) (htext hq)]
        exact hdistinct j i q p hq hp hlt
    cases hclash with
    | names hp hq hij hnamed hname =>
      exact hne hp hq hij
        ((Parameter.same_key_iff (htext hp) (htext hq) hij).mpr (Or.inl ⟨hnamed, hname⟩))
    | @position i j p q hp hq hunnamed hname =>
      -- one and the same parameter cannot both have a name and have none
      have hij : i ≠ j := by
        rintro rfl
        rw [hp, Option.some.injEq] at hq
        rw [← hq, hunnamed, Value.text.injEq] at hname
        exact Text.ofNat_ne_nil i hname.symm
      exact hne hp hq hij
        ((Parameter.same_key_iff (htext hp) (htext hq) hij).mpr (Or.inr (Or.inl ⟨hunnamed, hname⟩)))
  · intro hclash i j p q hp hq hij
    rw [Bool.eq_false_iff]
    intro htrue
    rcases (Parameter.same_key_iff (htext hp) (htext hq) hij.ne).mp htrue with
      ⟨hnamed, hname⟩ | ⟨hunnamed, hname⟩ | ⟨hunnamed, hname⟩
    · exact hclash (.names hp hq hij.ne hnamed hname)
    · exact hclash (.position hp hq hunnamed hname)
    · exact hclash (.position hq hp hunnamed hname)

/-! ### Named values -/

/-- Named values are the items of a list, each under its own key. -/
structure KeepsUnder (keys raw : List Value) (values : List (Value × Value)) : Prop where
  keys_eq : values.map Prod.fst = keys
  items_eq : values.map Prod.snd = raw
  item_eq : ∀ (i : Nat) (key v : Value), keys[i]? = some key → raw[i]? = some v →
    (CallResult.object values raw).item key = .ok v

theorem findKey_of_mem {values : List (Value × Value)} (h : DistinctKeys (values.map Prod.fst))
    {key v : Value} (hsame : key.same key = true) (hmem : (key, v) ∈ values) :
    findKey key values = some v := by
  induction values with
  | nil => cases hmem
  | cons entry rest ih =>
    obtain ⟨k, w⟩ := entry
    obtain ⟨hfirst, hrest⟩ := List.pairwise_cons.mp h
    rcases List.mem_cons.mp hmem with heq | hmem
    · cases heq
      rw [findKey, if_pos hsame]
    · have hother : k.same key = false := hfirst key (List.mem_map_of_mem (f := Prod.fst) hmem)
      rw [findKey, hother, if_neg Bool.false_ne_true, ih hrest hmem]

/-- Values under distinct texts are found again, each under its own. -/
theorem keepsUnder_zip {keys raw : List Value} (hdistinct : DistinctKeys keys)
    (htexts : ∀ key ∈ keys, ∃ t, key = .text t) (hlength : keys.length = raw.length) :
    KeepsUnder keys raw (keys.zip raw) := by
  have hkeys : (keys.zip raw).map Prod.fst = keys := List.map_fst_zip hlength.le
  refine ⟨hkeys, List.map_snd_zip hlength.ge, ?_⟩
  intro i key v hkey hv
  have hmem : (key, v) ∈ keys.zip raw := by
    have hplace : (keys.zip raw)[i]? = some (key, v) := List.getElem?_zip_eq_some.mpr ⟨hkey, hv⟩
    exact List.mem_of_getElem? hplace
  obtain ⟨t, rfl⟩ := htexts key (List.mem_of_getElem? hkey)
  have hfound : findKey (.text t) (keys.zip raw) = some v := by
    refine findKey_of_mem ?_ (beq_self_eq_true t) hmem
    rwa [hkeys]
  simp only [CallResult.item, Value.isKey, hfound, Bool.not_true, Bool.false_eq_true, if_false]

/-! ### The outputs of a function -/

/-- What two or more outputs resolve to. -/
theorem Entry.resolved_of_two_le (e : Entry) (objectReturn : Bool) {raw : List Value}
    (h : 2 ≤ raw.length) :
    e.resolved objectReturn raw =
      if objectReturn then .object ((parameterKeys e.outputs).zip raw) raw
      else .value (.list raw) := by
  rcases raw with _ | ⟨v, _ | ⟨w, rest⟩⟩
  · exact absurd h (by decide)
  · exact absurd h (Nat.not_succ_le_self 1)
  · rfl

/-- The named result of decoded outputs fails as their list does, and else has its items under
the keys of the outputs. -/
structure Entry.NamesOutputs (e : Entry) (data : Value) : Prop where
  error_iff : ∀ error, unpackOutput e data true = .error error ↔
    unpackOutput e data false = .error error
  object : ∀ result, unpackOutput e data true = .ok result → ∃ values raw,
    result = .object values raw ∧ unpackOutput e data false = .ok (.value (.list raw)) ∧
      values.length = e.outputs.length ∧ KeepsUnder (parameterKeys e.outputs) raw values

theorem Entry.namesOutputs {e : Entry} (hkind : e.kind = .function)
    (hnames : ∀ p ∈ e.outputs, ∃ t, p.name = .text t) (htwo : 2 ≤ e.outputs.length) (data : Value) :
    e.NamesOutputs data := by
  have hkeyed : ∀ p ∈ e.outputs, p.name.isKey = true := by
    intro p hp
    obtain ⟨t, ht⟩ := hnames p hp
    rw [ht]
    rfl
  have hsome : e.outputs ≠ [] := List.ne_nil_of_length_pos (by omega)
  have hunpack := unpackOutput_eq_map hkind hkeyed hsome data
  have hdistinct : DistinctKeys (parameterKeys e.outputs) := by
    have h := e.distinctKeys
    rwa [hkind] at h
  cases hraw : decodeValues e.outputTypes data with
  | error cause =>
    rw [hraw] at hunpack
    refine ⟨?_, ?_⟩
    · intro error
      rw [hunpack, hunpack]
      rfl
    · intro result hresult
      rw [hunpack] at hresult
      cases hresult
  | ok raw =>
    have hlength : raw.length = e.outputs.length := by
      rw [length_of_decodeValues hraw, outputTypes, List.length_map]
    have hresolved (objectReturn : Bool) :
        unpackOutput e data objectReturn = .ok (e.resolved objectReturn raw) := by
      rw [hunpack, hraw]
      rfl
    -- the same values resolve to an object or to a list
    simp only [e.resolved_of_two_le _ (hlength ▸ htwo)] at hresolved
    refine ⟨?_, ?_⟩
    · intro error
      rw [hresolved, hresolved]
      constructor
      · intro h
        cases h
      · intro h
        cases h
    · intro result hresult
      rw [hresolved true] at hresult
      cases hresult
      have hkeys : (parameterKeys e.outputs).length = raw.length :=
        (length_parameterKeys _).trans hlength.symm
      refine ⟨_, raw, rfl, hresolved false, ?_, ?_⟩
      · rw [List.length_zip, hkeys, Nat.min_self, hlength]
      · exact keepsUnder_zip hdistinct (exists_text_of_mem_keysFrom hnames) hkeys

/-! ### Functions that are read -/

/-- The outputs of a function that is read do not clash. -/
theorem Entry.not_clash {e : Entry} (hkind : e.kind = .function)
    (hnames : ∀ p ∈ e.outputs, ∃ t, p.name = .text t) : ¬ Clash e.outputs := by
  have hdistinct := e.distinctKeys
  rw [hkind] at hdistinct
  exact (distinctKeys_iff_not_clash hnames).mp hdistinct

/-- The members of a function in shape, of which the parts are read: these outputs, and some inputs
and mutability. -/
structure IsFunctionOf (members : Members) (outputs : List Parameter) : Prop where
  entry : IsEntry members
  kind : EntryKind.ofValue? (Entry.kindValue members) = some .function
  name : (members.getD "name" (.text [])).isOverlong = false
  inputs : AreRead (parametersOf members "inputs")
  outputs : (parametersOf members "outputs").mapM Parameter.ofValue = .ok outputs
  mutability : ∃ m, Mutability.ofMembers members = .ok m

/-- Clashing outputs are what keeps such a function from being read. -/
theorem Entry.ofValue_of_isFunctionOf {members : Members} {outputs : List Parameter}
    (h : IsFunctionOf members outputs) :
    (Clash outputs → ∃ keys, ofValue (.dict members) =
      .error (.invalidType (.overlappingNames .function (members.getD "name" (.text [])) keys))) ∧
    (¬ Clash outputs → ∃ e, ofValue (.dict members) = .ok e ∧ e.kind = .function ∧
      e.outputs = outputs) := by
  obtain ⟨inputs, hinputs⟩ := Except.exists_mapM_eq_ok h.inputs
  obtain ⟨m, hm⟩ := h.mutability
  have hnames : ∀ p ∈ outputs, ∃ t, p.name = .text t := by
    intro p hp
    obtain ⟨v, hv, hread⟩ := Except.exists_of_mem_mapM h.outputs hp
    exact Parameter.exists_text_name (h.entry.outputs.2 v hv) hread
  have hkeys : DistinctKeys (parameterKeys (EntryKind.function.keyed inputs outputs)) ↔
      ¬ Clash outputs := distinctKeys_iff_not_clash hnames
  rw [ofValue_eq h.entry h.kind, hinputs, h.outputs, hm]
  dsimp only [bind, Except.bind]
  constructor
  · intro hclash
    obtain ⟨sorted, hsorted⟩ := overlap_eq .function (members.getD "name" (.text []))
      (exists_text_of_mem_parameterKeys h.entry .function hinputs h.outputs)
    rw [dif_neg fun hdistinct => hkeys.mp hdistinct hclash, hsorted, h.name]
    exact ⟨sorted, rfl⟩
  · intro hclash
    rw [dif_pos (hkeys.mpr hclash)]
    exact ⟨_, rfl, rfl, rfl⟩

/-- **Asked for by name, no output is lost.**  A function with texts for the names of two or more
outputs decodes any data to an object just when it decodes them to a list, with the items of the list
under the keys of the outputs, or it fails for both in the same way.  Its outputs do not clash: a
function of which two outputs do is rejected, for the names that overlap. -/
theorem outputs_agree_or_clash :
    (∀ e : Entry, e.kind = .function → (∀ p ∈ e.outputs, ∃ t, p.name = .text t) →
      ¬ Clash e.outputs ∧ (2 ≤ e.outputs.length → ∀ data, e.NamesOutputs data)) ∧
    (∀ (members : Members) (outputs : List Parameter), IsFunctionOf members outputs →
      (Clash outputs → ∃ keys, Entry.ofValue (.dict members) =
        .error (.invalidType (.overlappingNames .function (members.getD "name" (.text [])) keys))) ∧
      (¬ Clash outputs → ∃ e, Entry.ofValue (.dict members) = .ok e ∧ e.kind = .function ∧
        e.outputs = outputs)) := by
  constructor
  · intro e hkind hnames
    exact ⟨Entry.not_clash hkind hnames, Entry.namesOutputs hkind hnames⟩
  · intro members outputs h
    exact Entry.ofValue_of_isFunctionOf h

/-- The members of a function with two truth values for outputs, of which only the first has a name. -/
def switchMembers (digit : CodePoint) : Members := [("name", .text "switch"),
  ("outputs", .list [.dict [("name", .text [digit]), ("type", .text "bool")],
    .dict [("type", .text "bool")]])]

/-- The outputs of this function. -/
def switchOutputs (digit : CodePoint) : List Parameter :=
  [⟨.text [digit], .bool, false⟩, ⟨.text [], .bool, false⟩]

theorem isFunctionOf_switch (digit : CodePoint) :
    IsFunctionOf (switchMembers digit) (switchOutputs digit) where
  entry := by
    refine ⟨⟨Or.inl rfl, nofun⟩, ⟨Or.inr ⟨_, rfl⟩, ?_⟩, Or.inl rfl⟩
    intro v hv
    rcases List.mem_cons.mp hv with rfl | hv
    · exact ⟨_, rfl, Or.inr ⟨_, rfl⟩⟩
    · rw [List.mem_singleton.mp hv]
      exact ⟨_, rfl, Or.inl rfl⟩
  kind := rfl
  name := rfl
  inputs := nofun
  outputs := rfl
  mutability := ⟨_, rfl⟩

/-- The name 0 belongs to the first output and does no harm, while 1 is the position of the second. -/
theorem outputs_agree_or_clash_switch :
    (∃ e, Entry.ofValue (.dict (switchMembers (.char '0'))) = .ok e ∧
      e.NamesOutputs (.bytes (List.replicate 64 0))) ∧
    ∃ keys, Entry.ofValue (.dict (switchMembers (.char '1'))) =
      .error (.invalidType (.overlappingNames .function (.text "switch") keys)) := by
  have hnames : ∀ p ∈ switchOutputs (.char '0'), ∃ t, p.name = .text t := by
    intro p hp
    rcases List.mem_cons.mp hp with rfl | hp
    · exact ⟨_, rfl⟩
    · rw [List.mem_singleton.mp hp]
      exact ⟨_, rfl⟩
  have hdistinct : DistinctKeys (parameterKeys (switchOutputs (.char '0'))) := by decide
  have hclash : Clash (switchOutputs (.char '1')) :=
    @Clash.position _ 1 0 ⟨.text [], .bool, false⟩ _ rfl rfl rfl rfl
  obtain ⟨hnamed, hread⟩ := outputs_agree_or_clash
  constructor
  · obtain ⟨e, he, hkind, houtputs⟩ := (hread _ _ (isFunctionOf_switch (.char '0'))).2
      ((distinctKeys_iff_not_clash hnames).mp hdistinct)
    rw [← houtputs] at hnames
    exact ⟨e, he, (hnamed e hkind hnames).2 (by rw [houtputs]; decide) _⟩
  · exact (hread _ _ (isFunctionOf_switch (.char '1'))).1 hclash

end LedgerAbi
