/-
Limits on the nesting of JSON texts.

* `Json.parse_eq_of_le` — what comes of a text within a limit comes of it within every larger one;
* `Json.IsForm` — a text is the JSON form of a value, however deep it is nested;
* `Json.IsTooDeep` — a text is nested deeper than a limit allows;
* `Json.isTooDeep_brackets` — as is one that opens more brackets than that.

Design notes: a larger limit changes a result only if that is `tooDeep`, which `Reaches` states of
two results and which passes through the steps of a reader.  The three readers call each other
with one unit of fuel less, and so all that is shown of them is shown by induction on the fuel.
-/
import LedgerAbi.Json.Parser
import LedgerAbi.Proofs.Outcome

namespace LedgerAbi.Json

/-! ### Larger limits -/

/-- The second result is the first one, unless that is to have met a text nested too deep. -/
def Reaches {α : Type} (r r' : Except Failure α) : Prop := r ≠ .error .tooDeep → r' = r

namespace Reaches

variable {α β : Type}

theorem refl (r : Except Failure α) : Reaches r r := fun _ => rfl

theorem of_tooDeep (r : Except Failure α) : Reaches (.error .tooDeep) r := fun h => absurd rfl h

theorem bind {x x' : Except Failure α} {f f' : α → Except Failure β} (hx : Reaches x x')
    (hf : ∀ a, Reaches (f a) (f' a)) : Reaches (x >>= f) (x' >>= f') := by
  intro h
  cases x with
  | ok a =>
    rw [hx (fun h => by cases h)]
    exact hf a h
  | error e =>
    rw [hx (fun he => h (by rw [he]; rfl))]
    rfl

end Reaches

/-- With some fuel the readers reach under a larger limit what they do under a smaller one. -/
structure Deepens (fuel : Nat) : Prop where
  value {n m : Nat} (h : n ≤ m) (t : Text) : Reaches (value n fuel t) (value m fuel t)
  items {n m : Nat} (h : n ≤ m) (t : Text) : Reaches (items n fuel t) (items m fuel t)
  entries {n m : Nat} (h : n ≤ m) (earlier : Members) (t : Text) :
    Reaches (entries n fuel earlier t) (entries m fuel earlier t)

namespace Deepens

variable {fuel n m : Nat}

theorem value_succ (hfuel : Deepens fuel) (h : n ≤ m) (t : Text) :
    Reaches (Json.value n (fuel + 1) t) (Json.value m (fuel + 1) t) := by
  unfold Json.value
  split
  · exact .refl _
  split
  · exact .refl _
  split
  · cases n with
    | zero => exact .of_tooDeep _
    | succ n =>
      obtain ⟨m, rfl⟩ := Nat.exists_eq_add_one_of_ne_zero (Nat.ne_zero_of_lt h)
      dsimp only
      split
      · exact .refl _
      split
      · exact .refl _
      · exact .bind (hfuel.items (Nat.le_of_succ_le_succ h) _) fun _ => .refl _
  split
  · cases n with
    | zero => exact .of_tooDeep _
    | succ n =>
      obtain ⟨m, rfl⟩ := Nat.exists_eq_add_one_of_ne_zero (Nat.ne_zero_of_lt h)
      dsimp only
      split
      · exact .refl _
      split
      · exact .refl _
      · exact .bind (hfuel.entries (Nat.le_of_succ_le_succ h) _ _) fun _ => .refl _
  · exact .refl _

theorem items_succ (hfuel : Deepens fuel) (h : n ≤ m) (t : Text) :
    Reaches (Json.items n (fuel + 1) t) (Json.items m (fuel + 1) t) := by
  unfold Json.items
  refine .bind (hfuel.value h t) fun _ => ?_
  dsimp only
  split
  · exact .refl _
  split
  · exact .refl _
  split
  · exact .bind (hfuel.items h _) fun _ => .refl _
  · exact .refl _

theorem entries_succ (hfuel : Deepens fuel) (h : n ≤ m) (earlier : Members) (t : Text) :
    Reaches (Json.entries n (fuel + 1) earlier t) (Json.entries m (fuel + 1) earlier t) := by
  unfold Json.entries
  split
  · exact .refl _
  split
  · exact .refl _
  split
  · exact .refl _
  split
  · exact .refl _
  split
  · exact .refl _
  refine .bind (hfuel.value h _) fun _ => ?_
  dsimp only
  split
  · exact .refl _
  split
  · exact .refl _
  split
  · exact hfuel.entries h _ _
  · exact .refl _

theorem all (fuel : Nat) : Deepens fuel := by
  induction fuel with
  | zero => exact ⟨fun _ _ => .refl _, fun _ _ => .refl _, fun _ _ _ => .refl _⟩
  | succ fuel ih => exact ⟨ih.value_succ, ih.items_succ, ih.entries_succ⟩

end Deepens

variable {n m : Nat} {t : Text} {v : Value}

/-- A text is nested deeper than the limit allows, and is given up there. -/
def IsTooDeep (nesting : Nat) (t : Text) : Prop := parse nesting t = .error .tooDeep

instance (nesting : Nat) (t : Text) : Decidable (IsTooDeep nesting t) :=
  match h : parse nesting t with
  | .error .tooDeep => isTrue h
  | .error .malformed => isFalse fun hdeep => by cases h.symm.trans hdeep
  | .error .overlongInteger => isFalse fun hdeep => by cases h.symm.trans hdeep
  | .ok _ => isFalse fun hdeep => by cases h.symm.trans hdeep

theorem not_isTooDeep_of_parse (h : parse n t = .ok v) : ¬ IsTooDeep n t := fun hdeep => by
  cases h.symm.trans hdeep

/-- What comes of a text within a limit comes of it within every larger one. -/
theorem parse_eq_of_le (h : n ≤ m) (hn : ¬ IsTooDeep n t) : parse m t = parse n t :=
  Reaches.bind ((Deepens.all _).value h _) (fun _ => .refl _) hn

/-- Limits that a text keeps make no difference to it. -/
theorem parse_eq_parse (hn : ¬ IsTooDeep n t) (hm : ¬ IsTooDeep m t) : parse n t = parse m t := by
  rcases Nat.le_total n m with h | h
  · exact (parse_eq_of_le h hn).symm
  · exact parse_eq_of_le h hm

/-! ### Forms -/

/-- The text is the JSON form of the value, however deep it is nested. -/
def IsForm (t : Text) (v : Value) : Prop := ∃ nesting, parse nesting t = .ok v

/-- Within a limit that it keeps, a text is read as what it is the form of. -/
theorem isForm_iff (hn : ¬ IsTooDeep n t) : IsForm t v ↔ parse n t = .ok v := by
  constructor
  · rintro ⟨m, hm⟩
    rw [parse_eq_parse hn (not_isTooDeep_of_parse hm), hm]
  · exact fun h => ⟨n, h⟩

/-- A text is the form of one value at most. -/
theorem IsForm.unique {v' : Value} (h : IsForm t v) (h' : IsForm t v') : v = v' := by
  obtain ⟨m, hm⟩ := h
  cases hm.symm.trans ((isForm_iff (not_isTooDeep_of_parse hm)).mp h')
  rfl

/-! ### Brackets -/

theorem exists_list_of_parse {rest : Text} (h : parse n (.char '[' :: rest) = .ok v) :
    ∃ items, v = .list items := by
  obtain ⟨⟨v', after⟩, hv, h⟩ := Except.bind_eq_ok_iff.mp h
  have hlist : ∃ items, v' = .list items := by
    have hskip : skipSpace (.char '[' :: rest) = .char '[' :: rest := rfl
    unfold value at hv
    rw [hskip] at hv
    dsimp only at hv
    rw [if_neg (by decide), if_pos rfl] at hv
    split at hv
    · cases hv
    split at hv
    · cases hv
    split at hv
    · cases hv
      exact ⟨_, rfl⟩
    · obtain ⟨⟨vs, rest⟩, -, hv⟩ := Except.bind_eq_ok_iff.mp hv
      cases hv
      exact ⟨vs, rfl⟩
  dsimp only at h
  split at h
  · cases h
    exact hlist
  · cases h

/-- A text that begins with one bracket more than there are levels. -/
theorem value_brackets {fuel : Nat} (h : 2 * n < fuel) (rest : Text) :
    value n fuel (List.replicate (n + 1) (.char '[') ++ rest) = .error .tooDeep := by
  induction n generalizing fuel with
  | zero =>
    obtain ⟨fuel, rfl⟩ := Nat.exists_eq_add_one_of_ne_zero (Nat.ne_zero_of_lt h)
    rfl
  | succ n ih =>
    -- a level takes two units: one for the array and one for its first item
    obtain ⟨fuel, rfl⟩ := Nat.exists_eq_add_of_le' (show 2 ≤ fuel by omega)
    have hitem : value n fuel (List.replicate (n + 1) (.char '[') ++ rest) = .error .tooDeep :=
      ih (by omega)
    show (items n (fuel + 1) (List.replicate (n + 1) (.char '[') ++ rest) >>= _) = _
    rw [items, hitem]
    rfl

/-- A text that opens more brackets than there are levels is too deep. -/
theorem isTooDeep_brackets {k : Nat} (h : n < k) : IsTooDeep n (List.replicate k (.char '[')) := by
  have hsplit : List.replicate k (CodePoint.char '[') =
      List.replicate (n + 1) (.char '[') ++ List.replicate (k - (n + 1)) (.char '[') := by
    rw [List.replicate_append_replicate, Nat.add_sub_cancel' (Nat.succ_le_of_lt h)]
  have hskip : skipSpace (List.replicate k (.char '[')) = List.replicate k (.char '[') := by
    rw [hsplit]
    rfl
  have hfuel : 2 * n < 2 * (List.replicate k (CodePoint.char '[')).length + 1 := by
    rw [List.length_replicate]
    omega
  rw [IsTooDeep, parse, hskip]
  generalize 2 * (List.replicate k (CodePoint.char '[')).length + 1 = fuel at hfuel
  rw [hsplit, value_brackets hfuel]
  rfl

end LedgerAbi.Json
