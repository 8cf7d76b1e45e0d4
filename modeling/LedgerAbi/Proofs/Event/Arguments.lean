/-
A decoded log holds what each parameter decodes to alone.

* `Entry.Accepts` — the conditions on topics and data, one parameter at a time;
* `Entry.Merges` — arguments under their keys, in the order of declaration, with the
  topics dealt out to the indexed parameters and the data to the others;
* `decodeLog_iff_accepts` — a log is decoded just when its topics and data are
  accepted, its arguments merge them, and every failure is one of decoding.

Design notes: the values wait in two queues, and the declaration says which one is
next.  `mergeArguments_spec` reads the queues back from the result: the values of
the indexed parameters, in order, are the first queue, those of the others the
second.  The keys differ, so collecting the arguments under them changes nothing.
-/
import LedgerAbi.Proofs.Event.Topics

namespace LedgerAbi

/-! ### Keys -/

theorem length_keysFrom (position : Nat) (ps : List Parameter) :
    (Parameter.keysFrom position ps).length = ps.length := by
  induction ps generalizing position with
  | nil => rfl
  | cons p rest ih => rw [Parameter.keysFrom, List.length_cons, List.length_cons, ih]

theorem length_parameterKeys (ps : List Parameter) : (parameterKeys ps).length = ps.length :=
  length_keysFrom 0 ps

/-- Where the names can be keys, so can the keys: any others are texts. -/
theorem isKey_of_mem_keysFrom {position : Nat} {ps : List Parameter}
    (hnames : ∀ p ∈ ps, p.name.isKey = true) {key : Value}
    (h : key ∈ Parameter.keysFrom position ps) : key.isKey = true := by
  induction ps generalizing position with
  | nil => cases h
  | cons p rest ih =>
    obtain ⟨hp, hrest⟩ := List.forall_mem_cons.mp hnames
    rw [Parameter.keysFrom, List.mem_cons] at h
    rcases h with rfl | h
    · rw [Parameter.key]
      split
      · exact hp
      · rfl
    · exact ih hrest h

theorem all_isKey_parameterKeys {ps : List Parameter} (hnames : ∀ p ∈ ps, p.name.isKey = true) :
    (parameterKeys ps).all Value.isKey = true :=
  List.all_eq_true.mpr fun _ hkey => isKey_of_mem_keysFrom hnames hkey

theorem putKey_of_fresh {key v : Value} {found : List (Value × Value)}
    (h : ∀ entry ∈ found, entry.1.same key = false) :
    putKey key v found = found ++ [(key, v)] := by
  induction found with
  | nil => rfl
  | cons entry rest ih =>
    obtain ⟨hentry, hrest⟩ := List.forall_mem_cons.mp h
    rw [putKey, hentry, if_neg Bool.false_ne_true, ih hrest, List.cons_append]

theorem foldl_putKey {named found : List (Value × Value)}
    (h : DistinctKeys ((found ++ named).map Prod.fst)) :
    named.foldl (fun found (key, v) => putKey key v found) found = found ++ named := by
  induction named generalizing found with
  | nil => rw [List.foldl_nil, List.append_nil]
  | cons entry rest ih =>
    obtain ⟨key, v⟩ := entry
    -- the keys found so far come before this one, so none of them is the same
    have hfresh : ∀ entry ∈ found, entry.1.same key = false := by
      intro entry hentry
      rw [DistinctKeys, List.map_append] at h
      exact (List.pairwise_append.mp h).2.2 entry.1 (List.mem_map_of_mem hentry) key
        List.mem_cons_self
    rw [List.append_cons] at h
    show rest.foldl (fun found (key, v) => putKey key v found) (putKey key v found) = _
    rw [putKey_of_fresh hfresh, ih h, ← List.append_cons]

/-- Values under distinct keys stay as they are. -/
theorem collect_eq_self {named : List (Value × Value)} (h : DistinctKeys (named.map Prod.fst)) :
    collect named = named := @foldl_putKey named [] h

/-! ### Two queues -/

/-- The arguments of the parameters of a class, in the order of declaration. -/
def argumentsOf (keep : Parameter → Bool) (inputs : List Parameter) (args : List (Value × Value)) :
    List Value :=
  ((inputs.zip args).filter fun place => keep place.1).map fun place => place.2.2

theorem argumentsOf_cons_pos {keep : Parameter → Bool} {p : Parameter} (h : keep p = true)
    (inputs : List Parameter) (key v : Value) (args : List (Value × Value)) :
    argumentsOf keep (p :: inputs) ((key, v) :: args) = v :: argumentsOf keep inputs args := by
  simp only [argumentsOf, List.zip_cons_cons, List.filter_cons, h, if_true, List.map_cons]

theorem argumentsOf_cons_neg {keep : Parameter → Bool} {p : Parameter} (h : keep p = false)
    (inputs : List Parameter) (entry : Value × Value) (args : List (Value × Value)) :
    argumentsOf keep (p :: inputs) (entry :: args) = argumentsOf keep inputs args := by
  simp only [argumentsOf, List.zip_cons_cons, List.filter_cons, h, Bool.false_eq_true, if_false]

theorem mergeArguments_cons_indexed {p : Parameter} (h : p.indexed = true) (key v : Value)
    (rest : List (Value × Parameter)) (fromTopics fromData : List Value) :
    mergeArguments ((key, p) :: rest) (v :: fromTopics) fromData =
      (key, v) :: mergeArguments rest fromTopics fromData := by
  simp only [mergeArguments, h, if_true]

theorem mergeArguments_cons_data {p : Parameter} (h : p.indexed = false) (key v : Value)
    (rest : List (Value × Parameter)) (fromTopics fromData : List Value) :
    mergeArguments ((key, p) :: rest) fromTopics (v :: fromData) =
      (key, v) :: mergeArguments rest fromTopics fromData := by
  simp only [mergeArguments, h, Bool.false_eq_true, if_false]

/-- Queues of the right lengths are dealt out whole: every key gets a value, and each queue stands, in
its order, with the parameters that it was for. -/
theorem mergeArguments_spec {keyed : List (Value × Parameter)} {fromTopics fromData : List Value}
    (htopics : fromTopics.length = ((keyed.map Prod.snd).filter Parameter.indexed).length)
    (hdata : fromData.length = ((keyed.map Prod.snd).filter fun p => !p.indexed).length) :
    (mergeArguments keyed fromTopics fromData).map Prod.fst = keyed.map Prod.fst ∧
      argumentsOf Parameter.indexed (keyed.map Prod.snd)
        (mergeArguments keyed fromTopics fromData) = fromTopics ∧
      argumentsOf (fun p => !p.indexed) (keyed.map Prod.snd)
        (mergeArguments keyed fromTopics fromData) = fromData := by
  -- the first parameter takes from one of the queues and leaves the other as it is
  induction keyed generalizing fromTopics fromData with
  | nil =>
    exact ⟨rfl, (List.eq_nil_of_length_eq_zero htopics).symm,
      (List.eq_nil_of_length_eq_zero hdata).symm⟩
  | cons entry rest ih =>
    obtain ⟨key, p⟩ := entry
    cases hp : p.indexed with
    | true =>
      have hnot : (!p.indexed) = false := by rw [hp]; rfl
      rw [List.map_cons, List.filter_cons, if_pos hp, List.length_cons] at htopics
      rw [List.map_cons, List.filter_cons, if_neg (by simp [hp])] at hdata
      obtain ⟨v, fromTopics, rfl⟩ := List.exists_cons_of_length_eq_add_one htopics
      obtain ⟨hkeys, hfirst, hsecond⟩ := ih (Nat.succ.inj htopics) hdata
      rw [mergeArguments_cons_indexed hp]
      refine ⟨by rw [List.map_cons, List.map_cons, hkeys], ?_, ?_⟩
      · rw [List.map_cons, argumentsOf_cons_pos hp, hfirst]
      · rw [List.map_cons, argumentsOf_cons_neg hnot, hsecond]
    | false =>
      have hnot : (!p.indexed) = true := by rw [hp]; rfl
      rw [List.map_cons, List.filter_cons, if_neg (by simp [hp])] at htopics
      rw [List.map_cons, List.filter_cons, if_pos hnot, List.length_cons] at hdata
      obtain ⟨v, fromData, rfl⟩ := List.exists_cons_of_length_eq_add_one hdata
      obtain ⟨hkeys, hfirst, hsecond⟩ := ih htopics (Nat.succ.inj hdata)
      rw [mergeArguments_cons_data hp]
      refine ⟨by rw [List.map_cons, List.map_cons, hkeys], ?_, ?_⟩
      · rw [List.map_cons, argumentsOf_cons_neg hp, hfirst]
      · rw [List.map_cons, argumentsOf_cons_pos hnot, hsecond]

/-! ### What an event accepts -/

/-- An event with texts for its own name and for the names of its inputs. -/
structure Entry.IsTextEvent (e : Entry) : Prop where
  kind : e.kind = .event
  name : ∃ t, e.name = .text t
  inputs : ∀ p ∈ e.inputs, ∃ t, p.name = .text t

/-- Raw bytes or a text. -/
def Value.IsWire (v : Value) : Prop := (∃ b, v = .bytes b) ∨ ∃ t, v = .text t

namespace Entry

/-- What is asked of the topics of the arguments and of the data: one topic for each indexed input,
each of 64 code points and decoding alone as the topic type of its input, and data that decode as the
types of the other inputs. -/
structure Accepts (e : Entry) (topics : List Text) (data : Text) : Prop where
  count : topics.length = e.indexedInputs.length
  topics : ∀ place ∈ e.indexedInputs.zip topics, place.2.length = topicHexLength ∧
    ∃ values, decodeValues [topicType place.1.type] (.text place.2) = .ok values
  data : ∃ values, decodeValues (e.dataInputs.map Parameter.type) (.text data) = .ok values

/-- Arguments that hold the topics and the data in the order of declaration: each indexed input what
its own topic decodes to alone, the others what the data decode to. -/
structure Merges (e : Entry) (topics : List Text) (data : Text) (args : List (Value × Value)) :
    Prop where
  length : args.length = e.inputs.length
  keys : args.map Prod.fst = parameterKeys e.inputs
  topics : List.Forall₂
    (fun place v => decodeValues [topicType place.1.type] (.text place.2) = .ok [v])
    (e.indexedInputs.zip topics) (argumentsOf Parameter.indexed e.inputs args)
  data : decodeValues (e.dataInputs.map Parameter.type) (.text data) =
    .ok (argumentsOf (fun p => !p.indexed) e.inputs args)

end Entry

/-! ### Decoding a log -/

theorem Value.exists_wireHex {v : Value} (h : v.IsWire) : ∃ t, v.wireHex = .ok t := by
  rcases h with ⟨b, rfl⟩ | ⟨t, rfl⟩
  · exact ⟨_, rfl⟩
  · exact ⟨_, rfl⟩

/-- Empty data have the same wire form in every kind. -/
theorem Value.wireHex_truthy? {v : Value} (h : v.IsWire) :
    ((v.truthy?).getD (.bytes [])).wireHex = v.wireHex := by
  rcases h with ⟨b, rfl⟩ | ⟨t, rfl⟩
  · cases b <;> rfl
  · cases t <;> rfl

theorem Entry.exists_shownName {e : Entry} (h : ∃ t, e.name = .text t) :
    ∃ t, e.shownName = .ok t := by
  obtain ⟨t, ht⟩ := h
  simp only [shownName, ht, nameHasList, Value.isOverlong, bind, Except.bind, Bool.false_eq_true,
    if_false]
  split <;> exact ⟨_, rfl⟩

theorem Entry.exists_fullName {e : Entry} (h : ∃ t, e.name = .text t) :
    ∃ t, e.fullName = .ok t := by
  obtain ⟨shown, hshown⟩ := exists_shownName h
  obtain ⟨t, ht⟩ := h
  simp only [fullName, hshown, ht, nameHasList, bind, Except.bind]
  split <;> exact ⟨_, rfl⟩

theorem decodeText_eq_error {types : List AbiType} {text : Text} {error : Error}
    (h : decodeText types text = .error error) : ∃ cause, error = .decode cause := by
  rw [decodeText] at h
  split at h
  · rw [decodeBytes] at h
    split at h
    · cases h
    · cases h
      exact ⟨_, rfl⟩
  · cases h
    exact ⟨_, rfl⟩

section Log

variable {e : Entry} {log : LogRecord} {fields : List Value}
variable {topics : List Text} {data address : Text}

/-- Decoding a log with texts and bytes in its fields: three checks and two decodings, and nothing else
that could fail. -/
theorem decodeLog_eq (he : e.IsTextEvent) (hwire : log.data.IsWire)
    (hdata : log.data.wireHex = .ok data) (hfields : log.topics = .list fields)
    (htopics : fields.mapM Value.wireHex = .ok topics) (haddress : log.address.wireHex = .ok address) :
    ∃ shown name, decodeLog e log =
      if (argumentTopics e topics).length ≠ e.indexedInputs.length then
        .error (.decode (.topicCount shown e.indexedInputs.length (argumentTopics e topics).length))
      else if (argumentTopics e topics).any fun t => t.length ≠ topicHexLength then
        .error (.decode (.topicLength (argumentTopics e topics)))
      else (do
        let fromTopics ← decodeText (e.indexedInputs.map fun p => topicType p.type)
          (argumentTopics e topics).flatten
        let fromData ← decodeText (e.dataInputs.map Parameter.type) data
        .ok ⟨displayName name, name, address,
          collect (mergeArguments ((parameterKeys e.inputs).zip e.inputs) fromTopics fromData)⟩) := by
  obtain ⟨shown, hshown⟩ := Entry.exists_shownName he.name
  obtain ⟨name, hname⟩ := Entry.exists_fullName he.name
  -- texts as names make every key a key and give the event its signature
  have hkeys : (parameterKeys e.inputs).all Value.isKey = true := by
    refine all_isKey_parameterKeys fun p hp => ?_
    obtain ⟨t, ht⟩ := he.inputs p hp
    rw [ht]
    rfl
  refine ⟨shown, name, ?_⟩
  rw [decodeLog, Value.wireHex_truthy? hwire, hdata, hfields]
  simp only [Value.items, htopics, hshown, hname, haddress, hkeys, bind, Except.bind, Bool.not_true,
    Bool.false_eq_true, if_false]

/-- Such a log fails in one way only. -/
theorem exists_cause_of_decodeLog (he : e.IsTextEvent) (hwire : log.data.IsWire)
    (hdata : log.data.wireHex = .ok data) (hfields : log.topics = .list fields)
    (htopics : fields.mapM Value.wireHex = .ok topics) (haddress : log.address.wireHex = .ok address)
    {error : Error} (h : decodeLog e log = .error error) : ∃ cause, error = .decode cause := by
  obtain ⟨shown, name, heq⟩ := decodeLog_eq he hwire hdata hfields htopics haddress
  rw [heq] at h
  split at h
  · cases h
    exact ⟨_, rfl⟩
  · split at h
    · cases h
      exact ⟨_, rfl⟩
    · -- the error is that of the first of the two decodings that fails
      cases hfromTopics : decodeText (e.indexedInputs.map fun p => topicType p.type)
          (argumentTopics e topics).flatten with
      | error cause =>
        rw [hfromTopics] at h
        cases h
        exact decodeText_eq_error hfromTopics
      | ok fromTopics =>
        cases hfromData : decodeText (e.dataInputs.map Parameter.type) data with
        | error cause =>
          rw [hfromTopics, hfromData] at h
          cases h
          exact decodeText_eq_error hfromData
        | ok fromData =>
          rw [hfromTopics, hfromData] at h
          cases h

/-- The values of topics one by one are the values of the joined topics. -/
theorem decodeTopics_iff (hcount : topics.length = e.indexedInputs.length)
    (hlength : ∀ topic ∈ topics, topic.length = topicHexLength) {values : List Value} :
    decodeText (e.indexedInputs.map fun p => topicType p.type) topics.flatten = .ok values ↔
      List.Forall₂
        (fun place v => decodeValues [topicType place.1.type] (.text place.2) = .ok [v])
        (e.indexedInputs.zip topics) values := by
  have htypes : ∀ t ∈ e.indexedInputs.map fun p => topicType p.type, t.isHashed = false := by
    intro t ht
    obtain ⟨p, -, rfl⟩ := List.mem_map.mp ht
    exact isHashed_topicType p.type
  rw [decodeText_flatten htypes (by rw [List.length_map, hcount]) hlength, List.zip_map_left,
    List.forall₂_map_left_iff]
  rfl

/-- The successful outcomes of decoding a log. -/
theorem exists_of_decodeLog (he : e.IsTextEvent) (hwire : log.data.IsWire)
    (hdata : log.data.wireHex = .ok data) (hfields : log.topics = .list fields)
    (htopics : fields.mapM Value.wireHex = .ok topics) (haddress : log.address.wireHex = .ok address)
    {event : DecodedEvent} (h : decodeLog e log = .ok event) :
    (argumentTopics e topics).length = e.indexedInputs.length ∧
      (∀ topic ∈ argumentTopics e topics, topic.length = topicHexLength) ∧
      ∃ fromTopics fromData,
        decodeText (e.indexedInputs.map fun p => topicType p.type)
          (argumentTopics e topics).flatten = .ok fromTopics ∧
        decodeText (e.dataInputs.map Parameter.type) data = .ok fromData ∧
        event.args =
          collect (mergeArguments ((parameterKeys e.inputs).zip e.inputs) fromTopics fromData) := by
  obtain ⟨shown, name, heq⟩ := decodeLog_eq he hwire hdata hfields htopics haddress
  rw [heq] at h
  split at h
  · cases h
  · next hcount =>
    split at h
    · cases h
    · next hlength =>
      obtain ⟨fromTopics, hfromTopics, h⟩ := Except.bind_eq_ok_iff.mp h
      obtain ⟨fromData, hfromData, h⟩ := Except.bind_eq_ok_iff.mp h
      cases h
      refine ⟨Decidable.not_not.mp hcount, ?_, fromTopics, fromData, hfromTopics, hfromData, rfl⟩
      simpa using hlength

theorem Entry.IsTextEvent.distinctKeys (he : e.IsTextEvent) :
    DistinctKeys (parameterKeys e.inputs) := by
  have h := e.distinctKeys
  rw [he.kind] at h
  exact h

/-- The values of the topics and those of the data, merged under the keys of the inputs. -/
theorem merges_of_decodeText (he : e.IsTextEvent) {fromTopics fromData : List Value}
    (hcount : topics.length = e.indexedInputs.length)
    (hlength : ∀ topic ∈ topics, topic.length = topicHexLength)
    (hfromTopics : decodeText (e.indexedInputs.map fun p => topicType p.type) topics.flatten =
      .ok fromTopics)
    (hfromData : decodeText (e.dataInputs.map Parameter.type) data = .ok fromData) :
    e.Merges topics data
      (collect (mergeArguments ((parameterKeys e.inputs).zip e.inputs) fromTopics fromData)) := by
  have hkeysLength := length_parameterKeys e.inputs
  -- there is a key for every input, so the pairs give both lists back
  have hfst : ((parameterKeys e.inputs).zip e.inputs).map Prod.fst = parameterKeys e.inputs :=
    List.map_fst_zip (Nat.le_of_eq hkeysLength)
  have hsnd : ((parameterKeys e.inputs).zip e.inputs).map Prod.snd = e.inputs :=
    List.map_snd_zip (Nat.le_of_eq hkeysLength.symm)
  have hspec := @mergeArguments_spec ((parameterKeys e.inputs).zip e.inputs) fromTopics fromData
    (by rw [length_of_decodeText hfromTopics, List.length_map, hsnd, Entry.indexedInputs])
    (by rw [length_of_decodeText hfromData, List.length_map, hsnd, Entry.dataInputs])
  rw [hfst, hsnd] at hspec
  obtain ⟨hkeys, hfirst, hsecond⟩ := hspec
  rw [collect_eq_self (by rw [hkeys]; exact he.distinctKeys)]
  refine ⟨?_, hkeys, ?_, ?_⟩
  · have hlengths := congrArg List.length hkeys
    rwa [List.length_map, hkeysLength] at hlengths
  · rw [hfirst]
    exact (decodeTopics_iff hcount hlength).mp hfromTopics
  · rw [hsecond]
    exact hfromData

theorem accepts_of_decodeText {fromTopics fromData : List Value}
    (hcount : topics.length = e.indexedInputs.length)
    (hlength : ∀ topic ∈ topics, topic.length = topicHexLength)
    (hfromTopics : decodeText (e.indexedInputs.map fun p => topicType p.type) topics.flatten =
      .ok fromTopics)
    (hfromData : decodeText (e.dataInputs.map Parameter.type) data = .ok fromData) :
    e.Accepts topics data := by
  have halone := (decodeTopics_iff hcount hlength).mp hfromTopics
  refine ⟨hcount, fun place hplace => ⟨hlength _ (List.of_mem_zip hplace).2, ?_⟩, _, hfromData⟩
  obtain ⟨v, hv⟩ := List.exists_forall₂_iff.mp ⟨_, halone⟩ place hplace
  exact ⟨[v], hv⟩

theorem decodeText_of_accepts (h : e.Accepts topics data) :
    (∀ topic ∈ topics, topic.length = topicHexLength) ∧
      ∃ fromTopics fromData,
        decodeText (e.indexedInputs.map fun p => topicType p.type) topics.flatten = .ok fromTopics ∧
        decodeText (e.dataInputs.map Parameter.type) data = .ok fromData := by
  have hsnd : (e.indexedInputs.zip topics).map Prod.snd = topics :=
    List.map_snd_zip (Nat.le_of_eq h.count)
  have hlength : ∀ topic ∈ topics, topic.length = topicHexLength := by
    intro topic htopic
    rw [← hsnd] at htopic
    obtain ⟨place, hplace, rfl⟩ := List.mem_map.mp htopic
    exact (h.topics place hplace).1
  -- a single type has a single value
  have halone : ∀ place ∈ e.indexedInputs.zip topics,
      ∃ v, decodeValues [topicType place.1.type] (.text place.2) = .ok [v] := by
    intro place hplace
    obtain ⟨values, hvalues⟩ := (h.topics place hplace).2
    obtain ⟨v, rfl⟩ := List.length_eq_one_iff.mp (length_of_decodeText hvalues)
    exact ⟨v, hvalues⟩
  obtain ⟨fromTopics, hfromTopics⟩ := List.exists_forall₂_iff.mpr halone
  obtain ⟨fromData, hfromData⟩ := h.data
  exact ⟨hlength, fromTopics, fromData, (decodeTopics_iff h.count hlength).mpr hfromTopics,
    hfromData⟩

end Log

/-- **Event decoding is the decoding of each parameter alone.** A log of bytes and texts is decoded just
when its topics and data are what its event accepts.  The arguments then merge them in the order of
declaration, and a log that is not decoded is reported as such. -/
theorem decodeLog_iff_accepts {e : Entry} (he : e.IsTextEvent) {log : LogRecord}
    {fields : List Value} (hfields : log.topics = .list fields)
    (hwire : ∀ v ∈ log.address :: log.data :: fields, v.IsWire) :
    ∃ topics data, fields.mapM Value.wireHex = .ok topics ∧ log.data.wireHex = .ok data ∧
      ((∃ event, decodeLog e log = .ok event) ↔ e.Accepts (argumentTopics e topics) data) ∧
      (∀ event, decodeLog e log = .ok event →
        e.Merges (argumentTopics e topics) data event.args) ∧
      ∀ error, decodeLog e log = .error error → ∃ cause, error = .decode cause := by
  obtain ⟨haddressWire, hrest⟩ := List.forall_mem_cons.mp hwire
  obtain ⟨hdataWire, hfieldsWire⟩ := List.forall_mem_cons.mp hrest
  obtain ⟨address, haddress⟩ := Value.exists_wireHex haddressWire
  obtain ⟨data, hdata⟩ := Value.exists_wireHex hdataWire
  obtain ⟨topics, htopics⟩ :=
    Except.exists_mapM_eq_ok fun v hv => Value.exists_wireHex (hfieldsWire v hv)
  -- success gives acceptance and acceptance success; then the arguments, and the kind of an error
  refine ⟨topics, data, htopics, hdata, ⟨?_, ?_⟩, ?_, ?_⟩
  · rintro ⟨event, h⟩
    obtain ⟨hcount, hlength, fromTopics, fromData, hfromTopics, hfromData, -⟩ :=
      exists_of_decodeLog he hdataWire hdata hfields htopics haddress h
    exact accepts_of_decodeText hcount hlength hfromTopics hfromData
  · intro h
    obtain ⟨shown, name, heq⟩ := decodeLog_eq he hdataWire hdata hfields htopics haddress
    obtain ⟨hlength, fromTopics, fromData, hfromTopics, hfromData⟩ := decodeText_of_accepts h
    rw [heq, if_neg (by simp [h.count]), if_neg (by simpa using hlength), hfromTopics, hfromData]
    exact ⟨_, rfl⟩
  · intro event h
    obtain ⟨hcount, hlength, fromTopics, fromData, hfromTopics, hfromData, hargs⟩ :=
      exists_of_decodeLog he hdataWire hdata hfields htopics haddress h
    rw [hargs]
    exact merges_of_decodeText he hcount hlength hfromTopics hfromData
  · intro error h
    exact exists_cause_of_decodeLog he hdataWire hdata hfields htopics haddress h

/-- An event with an unnamed input in the data between two indexed ones, the second a digest. -/
def movedEvent : Entry where
  kind := .event
  name := .text "Moved"
  inputs := [⟨.text "sender", .uint .byte, true⟩, ⟨.text [], .bool, false⟩,
    ⟨.text "tag", .string, true⟩]
  outputs := []
  mutability := .nonpayable
  anonymous := false
  distinctKeys := by decide

/-- A log with topics in bytes and in text. -/
def movedLog : LogRecord where
  address := .text "0xdd"
  topics := .list [.bytes [], .bytes (List.replicate 31 0 ++ [7]),
    .text (Hex.lowerOfBytes (List.replicate 32 0xAB))]
  data := .bytes (List.replicate 31 0 ++ [1])

set_option maxRecDepth 10000 in
theorem decodeLog_iff_accepts_moved :
    ∃ topics data event, decodeLog movedEvent movedLog = .ok event ∧
      event.args = [(.text "sender", .int 7), (.text "1", .bool true),
        (.text "tag", .text (Hex.ofBytes (List.replicate 32 0xAB)))] ∧
      movedEvent.Accepts (argumentTopics movedEvent topics) data ∧
      movedEvent.Merges (argumentTopics movedEvent topics) data event.args := by
  have hevent : movedEvent.IsTextEvent := by
    refine ⟨rfl, ⟨_, rfl⟩, ?_⟩
    simp [movedEvent]
  have hwire : ∀ v ∈ movedLog.address :: movedLog.data :: [.bytes [],
      .bytes (List.replicate 31 0 ++ [7]), .text (Hex.lowerOfBytes (List.replicate 32 0xAB))],
      Value.IsWire v := by
    simp [Value.IsWire, movedLog]
  obtain ⟨topics, data, -, -, hiff, hmerges, -⟩ := decodeLog_iff_accepts hevent rfl hwire
  exact ⟨topics, data, _, rfl, rfl, hiff.mp ⟨_, rfl⟩, hmerges _ rfl⟩

end LedgerAbi
