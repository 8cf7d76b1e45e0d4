/-
What JSON texts hold.

* `Json.IsValue` — a value that a JSON text can be the form of: there are no raw bytes in
  it, at any depth;
* `Json.isValue_of_parse` — whatever is read from a text is such a value;
* `Json.IsValue.getD` — and so is what stands under a key of it.
-/
import LedgerAbi.Json.Parser
import LedgerAbi.Proofs.Outcome

namespace LedgerAbi.Json

/-- A value without raw bytes, at any depth. -/
inductive IsValue : Value → Prop where
  | none : IsValue .none
  | bool (b : Bool) : IsValue (.bool b)
  | int (i : Int) : IsValue (.int i)
  | float (x : Binary64) : IsValue (.float x)
  | text (t : Text) : IsValue (.text t)
  | list {items : List Value} (h : ∀ v ∈ items, IsValue v) : IsValue (.list items)
  | dict {members : Members} (h : ∀ e ∈ members, IsValue e.2) : IsValue (.dict members)

/-- What stands under a key, or a default in its place. -/
theorem IsValue.getD {members : Members} (h : IsValue (.dict members)) (key : Text) {default : Value}
    (hdefault : IsValue default) : IsValue (members.getD key default) := by
  cases h with
  | dict h =>
    rw [Members.getD, Members.get?]
    cases hfound : List.lookup key members with
    | none => exact hdefault
    | some v =>
      obtain ⟨l₁, l₂, rfl, -⟩ := List.lookup_eq_some_iff.mp hfound
      exact h (key, v) (by simp)

theorem isValue_of_mem_put {members : Members} {v : Value} (hmembers : ∀ e ∈ members, IsValue e.2)
    (hv : IsValue v) (key : Text) : ∀ e ∈ members.put key v, IsValue e.2 := by
  induction members with
  | nil => exact List.forall_mem_singleton.mpr hv
  | cons entry rest ih =>
    obtain ⟨hentry, hrest⟩ := List.forall_mem_cons.mp hmembers
    rw [Members.put]
    split
    · exact List.forall_mem_cons.mpr ⟨hv, hrest⟩
    · exact List.forall_mem_cons.mpr ⟨hentry, ih hrest⟩

theorem isValue_of_word? {t after : Text} {v : Value} (h : word? t = some (v, after)) :
    IsValue v := by
  obtain ⟨⟨w, v'⟩, hfound, h⟩ := Option.map_eq_some_iff.mp h
  cases h
  have hmem := List.mem_of_find?_eq_some hfound
  simp only [words, List.mem_cons, Prod.mk.injEq, List.not_mem_nil, or_false] at hmem
  obtain ⟨-, rfl⟩ | ⟨-, rfl⟩ | ⟨-, rfl⟩ | ⟨-, rfl⟩ | ⟨-, rfl⟩ | ⟨-, rfl⟩ := hmem
  · exact .none
  · exact .bool true
  · exact .bool false
  · exact .float _
  · exact .float _
  · exact .float _

theorem isValue_of_number {negative : Bool} {t after : Text} {v : Value}
    (h : number negative t = .ok (v, after)) : IsValue v := by
  simp only [number] at h
  -- the digits are taken in two ways, but what is made of them is the same
  split at h
  all_goals
    split at h
    · cases h
    split at h
    · split at h
      · cases h
      · cases h
        exact .int _
    · cases h
      exact .float _

/-- What is read with some fuel holds no raw bytes: a value, the items of a list, and the entries of an
object beside the earlier ones. -/
structure Reads (fuel : Nat) : Prop where
  value {nesting : Nat} {t after : Text} {v : Value} : value nesting fuel t = .ok (v, after) → IsValue v
  items {nesting : Nat} {t after : Text} {vs : List Value} :
    items nesting fuel t = .ok (vs, after) → ∀ v ∈ vs, IsValue v
  entries {nesting : Nat} {t after : Text} {earlier found : Members} :
    entries nesting fuel earlier t = .ok (found, after) → (∀ e ∈ earlier, IsValue e.2) →
      ∀ e ∈ found, IsValue e.2

namespace Reads

variable {nesting fuel : Nat} {t after : Text}

theorem value_succ (hfuel : Reads fuel) {v : Value}
    (h : Json.value nesting (fuel + 1) t = .ok (v, after)) : IsValue v := by
  unfold Json.value at h
  split at h
  · cases h
  split at h
  · split at h
    · cases h
      exact .text _
    · cases h
  split at h
  · split at h
    · cases h
    split at h
    · cases h
    split at h
    · cases h
      exact .list (List.forall_mem_nil _)
    · obtain ⟨⟨vs, rest⟩, hitems, h⟩ := Except.bind_eq_ok_iff.mp h
      cases h
      exact .list (hfuel.items hitems)
  split at h
  · split at h
    · cases h
    split at h
    · cases h
    split at h
    · cases h
      exact .dict (List.forall_mem_nil _)
    · obtain ⟨⟨es, rest⟩, hentries, h⟩ := Except.bind_eq_ok_iff.mp h
      cases h
      exact .dict (hfuel.entries hentries (List.forall_mem_nil _))
  split at h
  · next hword =>
    cases h
    exact isValue_of_word? hword
  split at h
  · exact isValue_of_number h
  · exact isValue_of_number h

theorem items_succ (hfuel : Reads fuel) {vs : List Value}
    (h : Json.items nesting (fuel + 1) t = .ok (vs, after)) : ∀ v ∈ vs, IsValue v := by
  unfold Json.items at h
  obtain ⟨⟨v, rest⟩, hv, h⟩ := Except.bind_eq_ok_iff.mp h
  dsimp only at h
  split at h
  · cases h
  split at h
  · cases h
    exact List.forall_mem_singleton.mpr (hfuel.value hv)
  split at h
  · obtain ⟨⟨vs, rest⟩, hvs, h⟩ := Except.bind_eq_ok_iff.mp h
    cases h
    exact List.forall_mem_cons.mpr ⟨hfuel.value hv, hfuel.items hvs⟩
  · cases h

theorem entries_succ (hfuel : Reads fuel) {earlier found : Members}
    (h : Json.entries nesting (fuel + 1) earlier t = .ok (found, after))
    (hearlier : ∀ e ∈ earlier, IsValue e.2) : ∀ e ∈ found, IsValue e.2 := by
  unfold Json.entries at h
  split at h
  · cases h
  split at h
  · cases h
  split at h
  · cases h
  split at h
  · cases h
  split at h
  · cases h
  obtain ⟨⟨v, rest⟩, hv, h⟩ := Except.bind_eq_ok_iff.mp h
  have hput := isValue_of_mem_put hearlier (hfuel.value hv)
  dsimp only at h
  split at h
  · cases h
  split at h
  · cases h
    exact hput _
  split at h
  · exact hfuel.entries h (hput _)
  · cases h

theorem all (fuel : Nat) : Reads fuel := by
  induction fuel with
  | zero => exact ⟨nofun, nofun, nofun⟩
  | succ fuel ih => exact ⟨ih.value_succ, ih.items_succ, ih.entries_succ⟩

end Reads

/-- Whatever is read from a JSON text holds no raw bytes. -/
theorem isValue_of_parse {nesting : Nat} {t : Text} {v : Value} (h : parse nesting t = .ok v) :
    IsValue v := by
  obtain ⟨⟨v', after⟩, hv, h⟩ := Except.bind_eq_ok_iff.mp h
  dsimp only at h
  split at h
  · cases h
    exact (Reads.all _).value hv
  · cases h

end LedgerAbi.Json
