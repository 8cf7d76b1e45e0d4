/-
The command that encodes, beside the library.

* `CommandLine.ReadsAsArray` — the texts that the command takes for arrays, without a look at
  the types that they are for, and those that it gives up on the way;
* `AbiType.IsScalar.not_inhabits_bracket`, `AbiType.IsScalar.not_inhabits_list` — the text of
  an array spells no scalar but a string, and a list is none;
* `encodeValues_refuses` — what is not of its type is refused, one way or the other;
* `Follows` — what becomes of a result when some of its arguments are garbled;
* `Command.encodes_as_library` — for scalar types the command differs from the library in the
  strings that read as arrays, and in nothing else.

Design notes: the command and the library share the binding, the look-up and the selector.
`Command.run_encode` leaves one difference, the values that take the place of the texts, and
`Guesses` relates the two.  `Follows` passes through the shared stages, so that it has to be
shown for the encoding of the values alone.
-/
import LedgerAbi.CommandLine.Run
import LedgerAbi.Proofs.Call.Sending
import LedgerAbi.Proofs.Codec.Failures
import LedgerAbi.Proofs.Json.Nesting
import LedgerAbi.Proofs.Text.Numeral

namespace LedgerAbi

/-! ### Texts that begin with a bracket -/

theorem Hex.read?_bracket (rest : Text) : read? (.char '[' :: rest) = none := by
  rw [Option.eq_none_iff_forall_ne_some]
  intro b hb
  obtain ⟨mark, hmark, digits, ht, hdigits⟩ := read?_eq_some_iff.mp hb
  simp only [List.mem_cons, List.not_mem_nil, or_false] at hmark
  rcases hmark with rfl | rfl | rfl
  · cases hdigits with
    | nil => cases ht
    | blank hc _ =>
      cases ht
      cases hc
    | pair hc _ _ =>
      cases ht
      cases hc
  · cases ht
  · cases ht

theorem Text.integer?_bracket (rest : Text) : integer? (.char '[' :: rest) = none := by
  rw [Option.eq_none_iff_forall_ne_some]
  intro i hi
  have hdecimal : IsDecimal (.char '[' :: rest) i := by
    have hmark : hasHexMark (.char '[' :: rest) = false := rfl
    have hnumeral := integer?_eq_some_iff.mp hi
    rwa [IsNumeral, hmark, if_neg Bool.false_ne_true] at hnumeral
  -- the first code point of a numeral is a blank, a sign or a digit
  generalize ht : CodePoint.char '[' :: rest = t at hdecimal
  cases hdecimal with
  | @mk left sign digits right negative ds hleft hsign hdigits _ _ =>
    cases left with
    | cons c left =>
      cases ht
      exact absurd (hleft _ List.mem_cons_self) (by decide)
    | nil =>
      cases hsign with
      | minus => cases ht
      | plus => cases ht
      | none =>
        obtain ⟨c, d, hhead, hd⟩ := hdigits.head?
        cases digits with
        | nil => cases hhead
        | cons c' digits =>
          cases hhead
          cases ht
          cases hd

namespace AbiType

/-- A type without an array dimension. -/
def IsScalar : AbiType → Prop
  | array _ => False
  | fixedArray _ _ => False
  | _ => True

variable {t : AbiType} {strict : Bool}

/-- No list is a scalar. -/
theorem IsScalar.not_inhabits_list (ht : t.IsScalar) (items : List Value) :
    ¬ t.Inhabits strict (.list items) := by
  intro h
  cases t with
  | address => obtain ⟨a, h | ⟨_, h, -⟩⟩ := h <;> cases h
  | bool => obtain ⟨b, h | ⟨_, h, -⟩⟩ := h <;> cases h
  | string =>
    obtain ⟨_, h, -⟩ := h
    cases h
  | bytes => obtain ⟨b, h | ⟨_, h, -⟩⟩ := h <;> cases h
  | fixedBytes w => obtain ⟨b, h | ⟨_, h, -⟩, -⟩ := h <;> cases h
  | uint w => obtain ⟨i, h | ⟨_, h, -⟩, -⟩ := h <;> cases h
  | int w => obtain ⟨i, h | ⟨_, h, -⟩, -⟩ := h <;> cases h
  | array e => exact ht
  | fixedArray e n => exact ht

/-- A text that begins with a bracket spells no scalar, and is itself a string. -/
theorem IsScalar.not_inhabits_bracket (ht : t.IsScalar) (hstring : t ≠ string) {text : Text}
    (htext : text.head? = some (.char '[')) : ¬ t.Inhabits strict (.text text) := by
  obtain ⟨rest, rfl⟩ : ∃ rest, text = .char '[' :: rest := List.head?_eq_some_iff.mp htext
  have hbytes (b : Bytes) : ¬ (Value.text (.char '[' :: rest)).SpellsBytes b := by
    rintro (h | ⟨t, h, hread⟩)
    · cases h
    · cases h
      rw [Hex.read?_bracket] at hread
      cases hread
  have hinteger (i : Int) : ¬ (Value.text (.char '[' :: rest)).SpellsInteger i := by
    rintro (h | ⟨t, h, hread⟩)
    · cases h
    · cases h
      rw [Text.integer?_bracket] at hread
      cases hread
  intro h
  -- every scalar but a truth value and a string is read as bytes or as an integer
  cases t with
  | address =>
    obtain ⟨a, h | ⟨t, h, -, hread⟩⟩ := h
    · cases h
    · exact hbytes a.bytes (Or.inr ⟨t, h, hread⟩)
  | bool =>
    obtain ⟨b, h | ⟨t, h, hword⟩⟩ := h
    · cases h
    · cases h
      cases b <;> cases hword
  | string => exact hstring rfl
  | bytes =>
    obtain ⟨b, hb⟩ := h
    exact hbytes b hb
  | fixedBytes w =>
    obtain ⟨b, hb, -⟩ := h
    exact hbytes b hb
  | uint w =>
    obtain ⟨i, hi, -⟩ := h
    exact hinteger i hi
  | int w =>
    obtain ⟨i, hi, -⟩ := h
    exact hinteger i hi
  | array e => exact ht
  | fixedArray e n => exact ht

end AbiType

/-! ### Refusals -/

namespace Error

/-- A limit was met: an integer of too many digits, or brackets nested too deep. -/
def MeetsLimit (e : Error) : Prop := e = .fault .overlongInteger ∨ e = .fault .tooDeep

/-- A value cannot be encoded, or a limit was met on the way. -/
def Refuses (e : Error) : Prop := (∃ cause, e = .encode cause) ∨ e.MeetsLimit

/-- The same failure, or two values that cannot be encoded. Where one of the two met a limit, the other
is left open. -/
def IsAlike (e e' : Error) : Prop :=
  e' = e ∨ (∃ cause cause', e = .encode cause ∧ e' = .encode cause') ∨ e.MeetsLimit ∨ e'.MeetsLimit

theorem Refuses.isAlike {e e' : Error} (h : e.Refuses) (h' : e'.Refuses) : e.IsAlike e' := by
  rcases h with ⟨cause, rfl⟩ | hlimit
  · rcases h' with ⟨cause', rfl⟩ | hlimit'
    · exact Or.inr (Or.inl ⟨cause, cause', rfl, rfl⟩)
    · exact Or.inr (Or.inr (Or.inr hlimit'))
  · exact Or.inr (Or.inr (Or.inl hlimit))

end Error

/-- As many values as there are types are refused if one of them is not of its type. -/
theorem encodeValues_refuses {types : List AbiType} {values : List Value}
    (hlength : types.length = values.length)
    (h : ¬ List.Forall₂ (AbiType.Inhabits false) types values) :
    ∃ e, encodeValues types values = .error e ∧ e.Refuses := by
  cases houtcome : encodeValues types values with
  | ok b =>
    obtain ⟨-, rs, data, hread, hfit, -, -⟩ := encodeValues_eq_ok houtcome
    have hinhabits : List.Forall₂ (AbiType.Inhabits false) types values :=
      (Data.exists_fit_iff hlength).mp ⟨rs, data, hread, hfit, nofun⟩
    exact absurd hinhabits h
  | error e =>
    refine ⟨e, rfl, ?_⟩
    rcases encodeValues_eq_error houtcome with ⟨hdiffer, -⟩ | ⟨cause, rfl⟩ | ⟨fault, rfl, hescapes⟩
    · exact absurd hlength hdiffer
    · exact Or.inl ⟨cause, rfl⟩
    · cases hescapes with
      | unquotable _ _ _ _ _ => exact Or.inr (Or.inl rfl)
      | overlong _ _ _ _ => exact Or.inr (Or.inl rfl)
      -- lone surrogates matter only where all values are of their types
      | surrogate hinhabits _ => exact absurd hinhabits h

/-- A result that follows that of the library: its value if nothing is garbled, a failure that is alike
if nothing is garbled and it fails, and a failure if something is garbled, its own or a refusal. -/
structure Follows {α : Type} (garbled : Prop) (library command : Except Error α) : Prop where
  ok_iff : ∀ a, command = .ok a ↔ library = .ok a ∧ ¬ garbled
  alike : ¬ garbled → ∀ e, library = .error e → ∃ e', command = .error e' ∧ e.IsAlike e'
  refused : garbled → ∃ e', command = .error e' ∧ (library = .error e' ∨ e'.Refuses)

namespace Follows

variable {α β : Type} {garbled : Prop} {library command : Except Error α}

theorem refl (h : ¬ garbled) (r : Except Error α) : Follows garbled r r :=
  ⟨fun _ => (and_iff_left h).symm, fun _ e he => ⟨e, he, Or.inl rfl⟩, fun hgarbled => absurd hgarbled h⟩

theorem error (e : Error) : Follows garbled (.error e : Except Error α) (.error e) := by
  refine ⟨fun a => iff_of_false nofun fun h => ?_, fun _ e' he' => ?_, fun _ => ?_⟩
  · cases h.1
  · cases he'
    exact ⟨e, rfl, Or.inl rfl⟩
  · exact ⟨e, rfl, Or.inl rfl⟩

/-- A refusal follows every failure that is alike, and whatever is garbled. -/
theorem of_refuses {e : Error} (he : e.Refuses) (hok : ∀ a, library = .ok a → garbled)
    (halike : ¬ garbled → ∀ e', library = .error e' → e'.IsAlike e) :
    Follows garbled library (.error e) := by
  refine ⟨fun a => iff_of_false nofun fun h => h.2 (hok a h.1), fun hnot e' he' => ?_, fun _ => ?_⟩
  · exact ⟨e, rfl, halike hnot e' he'⟩
  · exact ⟨e, rfl, Or.inr he⟩

theorem bind_left (x : Except Error β) {l c : β → Except Error α}
    (h : ∀ b, Follows garbled (l b) (c b)) : Follows garbled (x >>= l) (x >>= c) := by
  cases x with
  | error e => exact error e
  | ok b => exact h b

theorem map (h : Follows garbled library command) (f : α → β) :
    Follows garbled (library >>= fun a => .ok (f a)) (command >>= fun a => .ok (f a)) := by
  refine ⟨fun b => ?_, fun hnot e he => ?_, fun hgarbled => ?_⟩
  · simp only [Except.bind_eq_ok_iff, h.ok_iff]
    constructor
    · rintro ⟨a, ⟨ha, hnot⟩, hb⟩
      exact ⟨⟨a, ha, hb⟩, hnot⟩
    · rintro ⟨⟨a, ha, hb⟩, hnot⟩
      exact ⟨a, ⟨ha, hnot⟩, hb⟩
  · rcases Except.bind_eq_error_iff.mp he with he | ⟨a, -, he⟩
    · obtain ⟨e', he', halike⟩ := h.alike hnot e he
      exact ⟨e', by rw [he']; rfl, halike⟩
    · cases he
  · obtain ⟨e', he', hcause⟩ := h.refused hgarbled
    refine ⟨e', by rw [he']; rfl, ?_⟩
    rcases hcause with hlibrary | hrefuses
    · exact Or.inl (by rw [hlibrary]; rfl)
    · exact Or.inr hrefuses

end Follows

namespace CommandLine

/-! ### Arguments -/

/-- A text that the command does not pass on as it is: it begins with a bracket, and reading it as JSON
gives an array or meets a limit. -/
def ReadsAsArray (nesting : Nat) (t : Text) : Prop :=
  t.head? = some (.char '[') ∧ Json.parse nesting t ≠ .error .malformed

variable {nesting : Nat}

/-- The value that the command puts in the place of a text. -/
inductive Guesses (nesting : Nat) : Text → Value → Prop where
  | text {t : Text} (h : ¬ ReadsAsArray nesting t) : Guesses nesting t (.text t)
  | list {t : Text} {items : List Value} (h : ReadsAsArray nesting t) : Guesses nesting t (.list items)

theorem argumentValue_of_plain {t : Text} (h : ¬ ReadsAsArray nesting t) :
    argumentValue nesting t = .ok (.text t) := by
  unfold argumentValue
  split
  · next hhead =>
    have hmalformed : Json.parse nesting t = .error .malformed := by
      by_contra hparse
      exact h ⟨hhead, hparse⟩
    rw [hmalformed]
  · rfl

/-- A text stays what it is, or becomes a list, unless a limit is met in it. -/
theorem argumentValue_cases (nesting : Nat) (t : Text) :
    (∃ v, argumentValue nesting t = .ok v ∧ Guesses nesting t v) ∨
      (ReadsAsArray nesting t ∧ ∃ e, argumentValue nesting t = .error e ∧ e.MeetsLimit) := by
  by_cases ht : ReadsAsArray nesting t
  · obtain ⟨hhead, hparse⟩ := ht
    rw [argumentValue, if_pos hhead]
    cases hv : Json.parse nesting t with
    | ok v =>
      obtain ⟨rest, rfl⟩ := List.head?_eq_some_iff.mp hhead
      obtain ⟨items, rfl⟩ := Json.exists_list_of_parse hv
      exact Or.inl ⟨_, rfl, .list ⟨hhead, hparse⟩⟩
    | error failure =>
      cases failure with
      | malformed => exact absurd hv hparse
      | overlongInteger => exact Or.inr ⟨⟨hhead, hparse⟩, _, rfl, Or.inl rfl⟩
      | tooDeep => exact Or.inr ⟨⟨hhead, hparse⟩, _, rfl, Or.inr rfl⟩
  · exact Or.inl ⟨_, argumentValue_of_plain ht, .text ht⟩

theorem guesses_of_argumentValue {t : Text} {v : Value} (h : argumentValue nesting t = .ok v) :
    Guesses nesting t v := by
  rcases argumentValue_cases nesting t with ⟨v', hv', hguess⟩ | ⟨-, e, he, -⟩
  · cases h.symm.trans hv'
    exact hguess
  · cases h.symm.trans he

theorem readsAsArray_of_argumentValue {t : Text} {e : Error} (h : argumentValue nesting t = .error e) :
    ReadsAsArray nesting t ∧ e.MeetsLimit := by
  rcases argumentValue_cases nesting t with ⟨v', hv', -⟩ | ⟨ht, e', he', hlimit⟩
  · cases h.symm.trans hv'
  · cases h.symm.trans he'
    exact ⟨ht, hlimit⟩

/-- Texts that are no arrays are passed on as they are. -/
theorem eq_texts_of_guesses {texts : List Text} {values : List Value}
    (h : List.Forall₂ (Guesses nesting) texts values) (hplain : ∀ t ∈ texts, ¬ ReadsAsArray nesting t) :
    values = texts.map .text := by
  induction h with
  | nil => rfl
  | cons hguess _ ih =>
    obtain ⟨ht, hrest⟩ := List.forall_mem_cons.mp hplain
    cases hguess with
    | text _ => rw [ih hrest, List.map_cons]
    | list harray => exact absurd harray ht

/-! ### Texts for scalar types -/

/-- A string among the types is given a text that reads as an array. -/
def Garbles (nesting : Nat) (types : List AbiType) (texts : List Text) : Prop :=
  ∃ s ∈ types.zip texts, s.1 = .string ∧ ReadsAsArray nesting s.2

section Scalars

variable {types : List AbiType} {texts : List Text} (hscalar : ∀ t ∈ types, t.IsScalar)
include hscalar

/-- The list in the place of an array belongs to no scalar type. -/
theorem not_forall₂_of_guesses {values : List Value}
    (hguess : List.Forall₂ (Guesses nesting) texts values) {t : Text} (ht : t ∈ texts)
    (harray : ReadsAsArray nesting t) : ¬ List.Forall₂ (AbiType.Inhabits false) types values := by
  intro h
  -- the list stands among the values, and some type stands against it
  obtain ⟨v, hv, hguess⟩ := List.exists_of_forall₂ hguess ht
  obtain ⟨s, hs, hinhabits⟩ := List.exists_of_forall₂ h.flip hv
  cases hguess with
  | text hplain => exact hplain harray
  | list _ => exact (hscalar s hs).not_inhabits_list _ hinhabits

/-- The text of an array belongs to no scalar type but that of strings. -/
theorem garbles_of_forall₂ {strict : Bool}
    (h : List.Forall₂ (AbiType.Inhabits strict) types (texts.map .text)) {t : Text} (ht : t ∈ texts)
    (harray : ReadsAsArray nesting t) : Garbles nesting types texts := by
  rw [List.forall₂_map_right_iff, List.forall₂_iff_zip] at h
  obtain ⟨hlength, h⟩ := h
  -- the type at the place of the text is that of a string, or it would not take the text
  have hzip : List.Forall₂ (fun t s => (s, t) ∈ types.zip texts) texts types :=
    (List.forall₂_iff_zip.mpr ⟨hlength, fun h => h⟩).flip
  obtain ⟨s, hs, hmem⟩ := List.exists_of_forall₂ hzip ht
  by_cases hstring : s = .string
  · exact ⟨_, hmem, hstring, harray⟩
  · exact absurd (h hmem) ((hscalar s hs).not_inhabits_bracket hstring harray.1)

theorem garbles_of_encodeValues {bytes : Bytes} (h : encodeValues types (texts.map .text) = .ok bytes)
    {t : Text} (ht : t ∈ texts) (harray : ReadsAsArray nesting t) : Garbles nesting types texts :=
  garbles_of_forall₂ hscalar (exists_encodeValues_iff.mp ⟨bytes, h⟩) ht harray

/-- What becomes of the values in the place of texts follows what becomes of the texts. -/
theorem follows_of_guesses {values : List Value} (hguess : List.Forall₂ (Guesses nesting) texts values) :
    Follows (Garbles nesting types texts) (encodeValues types (texts.map .text))
      (encodeValues types values) := by
  have hsame : (texts.map Value.text).length = values.length := by
    rw [List.length_map, hguess.length_eq]
  by_cases harray : ∃ t ∈ texts, ReadsAsArray nesting t
  · obtain ⟨t, ht, harray⟩ := harray
    by_cases hlength : types.length = values.length
    -- the list is refused, and unless a string was garbled, so is its text
    · have hvalues := not_forall₂_of_guesses hscalar hguess ht harray
      obtain ⟨e, he, hrefuses⟩ := encodeValues_refuses hlength hvalues
      rw [he]
      refine .of_refuses hrefuses (fun b hb => garbles_of_encodeValues hscalar hb ht harray) ?_
      intro hplain e' he'
      obtain ⟨e'', he'', hrefuses'⟩ := encodeValues_refuses (hlength.trans hsame.symm)
        fun h => hplain (garbles_of_forall₂ hscalar h ht harray)
      rw [he'] at he''
      cases he''
      exact hrefuses'.isAlike hrefuses
    -- a wrong number is reported by the number alone
    · rw [encodeValues, encodeValues, hsame, if_pos hlength, if_pos hlength]
      exact .error _
  · have hplain : ∀ t ∈ texts, ¬ ReadsAsArray nesting t := fun t ht h => harray ⟨t, ht, h⟩
    rw [eq_texts_of_guesses hguess hplain]
    refine .refl ?_ _
    rintro ⟨s, hs, -, hread⟩
    exact hplain s.2 (List.of_mem_zip hs).2 hread

end Scalars

/-! ### The command -/

/-- What the command makes of texts: the values in their place, encoded. -/
def encodeTexts (nesting : Nat) (b : Binding) (name : Text) (texts : List Text) : Except Error Text := do
  let values ← texts.mapM (argumentValue nesting)
  b.encode name values

/-- Without arrays the command makes the same of texts as the library. -/
theorem encodeTexts_of_plain (b : Binding) (name : Text) {texts : List Text}
    (h : ∀ t ∈ texts, ¬ ReadsAsArray nesting t) :
    encodeTexts nesting b name texts = b.encode name (texts.map .text) := by
  have hvalues : texts.mapM (argumentValue nesting) = .ok (texts.map .text) := by
    rw [Except.mapM_eq_ok_iff, List.forall₂_map_right_iff, List.forall₂_same]
    exact fun t ht => argumentValue_of_plain (h t ht)
  rw [encodeTexts, hvalues]
  rfl

theorem encodeTexts_follows {b : Binding} {name : Text} {f : BoundFunction}
    (hname : b.function name = .ok f) (hkind : f.entry.kind = .function)
    (hscalar : ∀ t ∈ f.entry.inputTypes, t.IsScalar) (texts : List Text) :
    Follows (Garbles nesting f.entry.inputTypes texts) (b.encode name (texts.map .text))
      (encodeTexts nesting b name texts) := by
  rw [encodeTexts]
  cases hvalues : texts.mapM (argumentValue nesting) with
  | ok values =>
    have hguess : List.Forall₂ (Guesses nesting) texts values :=
      (Except.mapM_eq_ok_iff.mp hvalues).imp fun _ _ => guesses_of_argumentValue
    show Follows _ _ (b.encode name values)
    rw [Binding.encode_of_function hname hkind, Binding.encode_of_function hname hkind]
    exact .bind_left _ fun selector => (follows_of_guesses hscalar hguess).map _
  | error e =>
    -- the command fails before its look-up, and the library may fail there
    obtain ⟨before, t, after, rfl, -, ht⟩ := Except.mapM_eq_error_iff.mp hvalues
    obtain ⟨harray, hlimit⟩ := readsAsArray_of_argumentValue ht
    refine .of_refuses (Or.inr hlimit) ?_ fun _ _ _ => Or.inr (Or.inr (Or.inr hlimit))
    intro encoded hencoded
    rw [Binding.encode_of_function hname hkind] at hencoded
    obtain ⟨selector, -, hencoded⟩ := Except.bind_eq_ok_iff.mp hencoded
    obtain ⟨bytes, hbytes, -⟩ := Except.bind_eq_ok_iff.mp hencoded
    exact garbles_of_encodeValues hscalar hbytes (List.mem_append_right _ List.mem_cons_self) harray

/-- The outcome of a command that writes what it makes, or fails as it does. -/
def Outcome.ofResult : Except Error Text → Outcome
  | .ok t => .written t
  | .error e => .failed (.ofError e)

/-- What is encoded depends on the functions of a binding alone. -/
theorem encodeTexts_congr {b c : Binding} (h : c.functions = b.functions) :
    encodeTexts nesting c = encodeTexts nesting b := by
  funext name texts
  simp only [encodeTexts, Binding.encode, Binding.function, Binding.function?, h]

/-- A binding without a transport has the functions of every binding of its ABI. -/
theorem exists_offlineBinding {abi address bytecode account : Value} {config : Config}
    {objectReturn : Bool} {b : Binding}
    (h : Binding.ofValue abi config address bytecode account objectReturn = .ok b) :
    ∃ c, offlineBinding abi false = .ok c ∧ c.functions = b.functions := by
  obtain ⟨_, _, _, entries, -, -, -, hentries, hadd⟩ := Binding.exists_entries_of_ofValue h
  refine ⟨⟨abi, .standard, none, none, none, false, b.functions, b.events, b.constructor⟩, ?_, rfl⟩
  rw [offlineBinding, Binding.ofValue, hentries]
  exact Binding.addEntries_congr hadd rfl rfl rfl

namespace Command

/-- Behind two dashes every text is an argument. -/
theorem parse_encode (file name : Text) (texts : List Text) :
    parse ("encode" :: "--" :: file :: name :: texts) = some (.encode file name texts) := rfl

section Run

variable {columns : Int} {post : Rpc.PostOutcome} {read : Text → Option (Text × Text)}
variable {line : List Text} {file name : Text} {texts : List Text} {shown contents : Text}
variable {abi address bytecode account : Value} {config : Config} {objectReturn : Bool} {b : Binding}
variable (hline : parse line = some (.encode file name texts))
variable (hfile : read file = some (shown, contents))
variable (habi : abiOfDocument nesting shown contents = .ok abi)
include hline hfile habi

theorem run_encode (hbinding : offlineBinding abi false = .ok b) :
    run nesting columns post read line = .ofResult (encodeTexts nesting b name texts) := by
  simp only [run, hline, file?, hfile, perform, habi]
  show finish (do
    let b ← lift (offlineBinding abi false)
    let values ← lift (texts.mapM (argumentValue nesting))
    let encoded ← lift (b.encode name values)
    .ok (.written encoded)) = _
  rw [hbinding, encodeTexts]
  cases texts.mapM (argumentValue nesting) with
  | error e => rfl
  | ok values =>
    show finish (do
      let encoded ← lift (b.encode name values)
      .ok (.written encoded)) = .ofResult (b.encode name values)
    cases b.encode name values <;> rfl

/-- **The command encodes texts for scalar types as the library does**, but for a string that reads as
an array, which it refuses.  Unless an integer of too many digits or brackets nested too deep come in
between it fails as the library does, and with the very same failure if no text reads as an array.
Every list of texts can be given behind two dashes. -/
theorem encodes_as_library
    (hbinding : Binding.ofValue abi config address bytecode account objectReturn = .ok b)
    {f : BoundFunction} (hname : b.function name = .ok f)
    (hscalar : ∀ t ∈ f.entry.inputTypes, t.IsScalar) :
    (∃ command, run nesting columns post read line = .ofResult command ∧
      Follows (Garbles nesting f.entry.inputTypes texts) (b.encode name (texts.map .text)) command ∧
      ((∀ t ∈ texts, ¬ ReadsAsArray nesting t) → command = b.encode name (texts.map .text))) ∧
    ∀ file name texts, parse ("encode" :: "--" :: file :: name :: texts) =
      some (.encode file name texts) := by
  refine ⟨⟨encodeTexts nesting b name texts, ?_, ?_, encodeTexts_of_plain b name⟩, parse_encode⟩
  · obtain ⟨c, hc, hfunctions⟩ := exists_offlineBinding hbinding
    rw [run_encode hline hfile habi hc, encodeTexts_congr hfunctions]
  · have hkind := (Binding.isSorted_of_ofValue hbinding).functions f (Binding.mem_of_function hname)
    exact encodeTexts_follows hname hkind hscalar texts

end Run

/-- The document of a contract with one function, which takes a string. -/
def noteDocument : Text :=
  "[\x7b\"type\":\"function\",\"name\":\"note\",\"inputs\":[\x7b\"type\":\"string\"\x7d]\x7d]"

/-- A file with the document. -/
def noteFile (_ : Text) : Option (Text × Text) := some ("-", noteDocument)

def noteAbi : Value := .list [.dict [("type", .text "function"), ("name", .text "note"),
  ("inputs", .list [.dict [("type", .text "string")]])]]

/-- The function of the document. -/
def noteFunction : BoundFunction where
  signature := "note(string)"
  entry := ⟨.function, .text "note", [⟨.text [], .string, false⟩], [], .nonpayable, false, by decide⟩

def noteBinding : Binding where
  abi := noteAbi
  config := .standard
  address := none
  bytecode := none
  account := none
  objectReturn := false
  functions := [noteFunction]
  events := []
  constructor := none

theorem abiOfDocument_note : abiOfDocument Json.usualNesting "-" noteDocument = .ok noteAbi := by
  have hparse : Json.parse Json.usualNesting noteDocument = .ok noteAbi := by cbv
  rw [abiOfDocument, hparse]
  rfl

theorem offlineBinding_note : offlineBinding noteAbi false = .ok noteBinding := rfl

theorem function_note : noteBinding.function "note" = .ok noteFunction := rfl

theorem exists_selector_note : ∃ selector, noteFunction.entry.selector = .ok selector := by
  have hsignature : noteFunction.entry.fullName = .ok noteFunction.signature := rfl
  exact (Entry.exists_selector_iff hsignature).mpr rfl

theorem exists_encode_note {t : Text} (h : t.isScalar = true) :
    ∃ encoded, noteBinding.encode "note" [.text t] = .ok encoded := by
  obtain ⟨selector, hselector⟩ := exists_selector_note
  have hvalues : List.Forall₂ (AbiType.Inhabits true) noteFunction.entry.inputTypes [.text t] :=
    .cons ⟨t, rfl, fun _ => h⟩ .nil
  obtain ⟨bytes, hbytes⟩ := exists_encodeValues_iff.mpr hvalues
  refine ⟨Hex.ofBytes (selector ++ bytes), ?_⟩
  rw [Binding.encode_of_function function_note rfl, hselector, hbytes]
  rfl

/-- A string is written as the library encodes it; a string that reads as an array fails. -/
theorem encodes_as_library_note :
    (∃ encoded, noteBinding.encode "note" [.text "door"] = .ok encoded ∧
      run Json.usualNesting 80 .timeout noteFile ["encode", "-", "note", "door"] = .written encoded) ∧
    ∃ e, run Json.usualNesting 80 .timeout noteFile ["encode", "-", "note", "[1]"] =
      .failed (.ofError e) := by
  have hscalar : ∀ t ∈ noteFunction.entry.inputTypes, t.IsScalar := by
    intro t ht
    cases List.mem_singleton.mp ht
    exact trivial
  constructor
  · have hline : parse ["encode", "-", "note", "door"] = some (.encode "-" "note" ["door"]) := rfl
    obtain ⟨⟨command, hrun, -, hsame⟩, -⟩ := @encodes_as_library _ 80 .timeout noteFile _ _ _ _ _ _ _
      _ _ _ _ _ _ hline rfl abiOfDocument_note offlineBinding_note _ function_note hscalar
    have hplain : ∀ t ∈ [("door" : Text)], ¬ ReadsAsArray Json.usualNesting t := by
      rintro t ht ⟨hhead, -⟩
      cases List.mem_singleton.mp ht
      cases hhead
    obtain ⟨encoded, hencoded⟩ := exists_encode_note (t := "door") rfl
    refine ⟨encoded, hencoded, ?_⟩
    rw [hrun, hsame hplain]
    exact congrArg Outcome.ofResult hencoded
  · have hline : parse ["encode", "-", "note", "[1]"] = some (.encode "-" "note" ["[1]"]) := rfl
    obtain ⟨⟨command, hrun, hfollows, -⟩, -⟩ := @encodes_as_library _ 80 .timeout noteFile _ _ _ _ _ _
      _ _ _ _ _ _ _ hline rfl abiOfDocument_note offlineBinding_note _ function_note hscalar
    have hparse : Json.parse Json.usualNesting "[1]" = .ok (.list [.int 1]) := by cbv
    have hgarbled : Garbles Json.usualNesting noteFunction.entry.inputTypes ["[1]"] := by
      refine ⟨(.string, "[1]"), List.mem_cons_self, rfl, rfl, ?_⟩
      rw [hparse]
      intro h
      cases h
    obtain ⟨e, he, -⟩ := hfollows.refused hgarbled
    exact ⟨e, hrun.trans (congrArg Outcome.ofResult he)⟩

/-- The text of an array is a string, and the library encodes it. The command does not, and takes a text
that begins with a dash for an option unless it stands behind two dashes. -/
theorem not_encodes_as_library_bracket :
    (∃ encoded, noteBinding.encode "note" [.text "[1]"] = .ok encoded) ∧
    run Json.usualNesting 80 .timeout noteFile ["encode", "-", "note", "[1]"] =
      .failed (.reported (.encode (.misfit [.string] .wrongKind))) ∧
    (∃ encoded, noteBinding.encode "note" [.text "-1"] = .ok encoded) ∧
    run Json.usualNesting 80 .timeout noteFile ["encode", "-", "note", "-1"] = .failed (.usage none) := by
  have hoption : parse ["encode", "-", "note", "-1"] = none := rfl
  refine ⟨exists_encode_note rfl, ?_, exists_encode_note rfl, by rw [run, hoption]⟩
  have hparse : Json.parse Json.usualNesting "[1]" = .ok (.list [.int 1]) := by cbv
  have hvalues : [("[1]" : Text)].mapM (argumentValue Json.usualNesting) = .ok [.list [.int 1]] := by
    rw [List.mapM_cons, argumentValue, hparse]
    rfl
  have hshort : Value.anyOverlong [.list [.int 1]] = false := by
    have hone : exceedsDigitLimit 1 = false := exceedsDigitLimit_eq_false (by decide)
    simp only [Value.anyOverlong, Value.isOverlong, hone, Bool.or_false]
  have hmisfit : encodeValues [.string] [.list [.int 1]] =
      .error (.encode (.misfit [.string] .wrongKind)) := by
    have hread : Argument.readAll [.string] [.list [.int 1]] = .ok [.list [.int 1]] := rfl
    have hfit : Data.fit [.string] [.list [.int 1]] = .error .wrongKind := rfl
    rw [encodeValues, if_neg (by decide), hread]
    simp only [bind, Except.bind, hfit, hshort, Bool.false_eq_true, if_false]
  have hencode : noteBinding.encode "note" [.list [.int 1]] =
      .error (.encode (.misfit [.string] .wrongKind)) := by
    obtain ⟨selector, hselector⟩ := exists_selector_note
    rw [Binding.encode_of_function function_note rfl]
    exact Except.bind_eq_error_iff.mpr
      (Or.inr ⟨selector, hselector, Except.bind_eq_error_iff.mpr (Or.inl hmisfit)⟩)
  have htexts : encodeTexts Json.usualNesting noteBinding "note" ["[1]"] =
      .error (.encode (.misfit [.string] .wrongKind)) :=
    Except.bind_eq_error_iff.mpr (Or.inr ⟨_, hvalues, hencode⟩)
  exact (run_encode rfl rfl abiOfDocument_note offlineBinding_note).trans
    (congrArg Outcome.ofResult htexts)

end Command

end CommandLine

end LedgerAbi
