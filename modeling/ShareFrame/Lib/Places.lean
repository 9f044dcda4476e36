import Mathlib.Logic.Function.Basic
import Mathlib.Tactic.Common

/-!
# Places

What is at a place behind a change: of a list at one place or by one more place at its end, of a
function at one argument. Where a state holds several parties, an invariant of each of them is
read off a step in this way: at the party that moved it is what the step says, at the others it
is what it was.
-/

namespace Places

universe u v

variable {α : Type u}

/-! ## Lists -/

section Lists

variable {l : List α} {x y : α} {i j : Nat}

theorem getElem?_set_cases (h : (l.set i x)[j]? = some y) :
    (j = i ∧ y = x) ∨ (j ≠ i ∧ l[j]? = some y) := by
  rw [List.getElem?_set] at h
  split at h
  · next hij =>
    split at h
    · exact .inl ⟨hij.symm, (Option.some.inj h).symm⟩
    · cases h
  · next hij => exact .inr ⟨Ne.symm hij, h⟩

theorem getElem?_concat_cases (h : (l ++ [x])[i]? = some y) :
    (i < l.length ∧ l[i]? = some y) ∨ (i = l.length ∧ y = x) := by
  rw [List.getElem?_append] at h
  split at h
  · next hi => exact .inl ⟨hi, h⟩
  · next hi =>
    obtain ⟨hk, hx⟩ := List.getElem?_eq_some_iff.mp h
    rw [List.length_singleton] at hk
    refine .inr ⟨by omega, ?_⟩
    rw [← hx, List.getElem_singleton]

end Lists

/-! ## Functions -/

section Functions

variable {ι : Type v} [DecidableEq ι] {i j : ι}

theorem update_cases {f : ι → α} {x y : α} (h : Function.update f i x j = y) :
    (j = i ∧ x = y) ∨ (j ≠ i ∧ f j = y) := by
  by_cases hj : j = i
  · subst hj
    rw [Function.update_self] at h
    exact .inl ⟨rfl, h⟩
  · rw [Function.update_of_ne hj] at h
    exact .inr ⟨hj, h⟩

theorem update_eq_some {f : ι → Option α} {x y : α} (h : Function.update f i (some x) j = some y) :
    (j = i ∧ y = x) ∨ (j ≠ i ∧ f j = some y) :=
  (update_cases h).imp_left (And.imp_right fun hx => (Option.some.inj hx).symm)

theorem update_none_eq_some {f : ι → Option α} {y : α}
    (h : Function.update f i none j = some y) : j ≠ i ∧ f j = some y :=
  (update_cases h).resolve_left (by rintro ⟨-, ⟨⟩⟩)

end Functions

end Places
