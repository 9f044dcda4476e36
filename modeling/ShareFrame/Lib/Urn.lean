import Mathlib.Data.Set.Basic
import Mathlib.Tactic.Common

/-!
# Drawing from an urn that changes

A run draws one element after the other without putting any back. Before each
draw elements may be added to the urn and taken out of it. Once everything in
the urn is drawn, a draw may start a new cycle, for which nothing counts as
drawn. What counts as drawn at some point of a run is what was picked in the
cycle and has been in the urn ever since (`Run.Lawful.drawn_iff`); that no
element comes twice in a cycle and that a cycle leaves none out are read off it.
-/

namespace Urn

universe u

/-- A run, draw by draw: what is in the urn, what of it was drawn earlier in the cycle, what is
picked (nothing from an empty urn), and whether the draw starts a new cycle. -/
structure Run (α : Type u) where
  present : Nat → Set α
  drawn : Nat → Set α
  pick : Nat → Option α
  restart : Nat → Prop

namespace Run

variable {α : Type u}

/-- The rules of drawing. -/
structure Lawful (R : Run α) : Prop where
  start : R.drawn 0 = ∅
  /-- a cycle ends when everything present is drawn -/
  restart : ∀ k, R.restart k → R.present k ⊆ R.drawn k
  present : ∀ k x, R.pick k = some x → x ∈ R.present k
  /-- inside a cycle an element that was drawn is not picked -/
  fresh : ∀ k x, R.pick k = some x → ¬ R.restart k → x ∉ R.drawn k
  next : ∀ k x, x ∈ R.drawn (k + 1) ↔
    R.pick k = some x ∨ ¬ R.restart k ∧ x ∈ R.drawn k ∧ x ∈ R.present k

/-- No new cycle starts at a draw in `[a, b)`. -/
def NoRestart (R : Run α) (a b : Nat) : Prop := ∀ m, a ≤ m → m < b → ¬ R.restart m

/-- `x` is in the urn at every draw in `[a, b)`. -/
def Stays (R : Run α) (x : α) (a b : Nat) : Prop := ∀ m, a ≤ m → m < b → x ∈ R.present m

variable {R : Run α}

/-- Drawn is what was picked in the cycle and stayed since. -/
theorem Lawful.drawn_iff (h : R.Lawful) {k : Nat} {x : α} :
    x ∈ R.drawn k ↔ ∃ i < k, R.pick i = some x ∧ R.Stays x (i + 1) k ∧ R.NoRestart (i + 1) k := by
  induction k with
  | zero => simp [h.start]
  | succ k ih =>
    rw [h.next, ih]
    constructor
    · rintro (hk | ⟨hr, ⟨i, hi, hp, hs, hn⟩, hx⟩)
      · exact ⟨k, by omega, hk, fun m _ _ => by omega, fun m _ _ => by omega⟩
      · refine ⟨i, by omega, hp, fun m h1 h2 => ?_, fun m h1 h2 => ?_⟩
        · rcases Nat.lt_succ_iff_lt_or_eq.mp h2 with h2 | rfl
          · exact hs m h1 h2
          · exact hx
        · rcases Nat.lt_succ_iff_lt_or_eq.mp h2 with h2 | rfl
          · exact hn m h1 h2
          · exact hr
    · rintro ⟨i, hi, hp, hs, hn⟩
      rcases Nat.lt_succ_iff_lt_or_eq.mp hi with hi | rfl
      · exact .inr ⟨hn k hi (by omega),
          ⟨i, hi, hp, fun m h1 h2 => hs m h1 (by omega), fun m h1 h2 => hn m h1 (by omega)⟩,
          hs k hi (by omega)⟩
      · exact .inl hp

/-- An element that stays is not picked twice in one cycle. -/
theorem Lawful.no_repeat (h : R.Lawful) {i j : Nat} {x : α} (hij : i < j) (hi : R.pick i = some x)
    (hj : R.pick j = some x) (hs : R.Stays x (i + 1) j) (hn : R.NoRestart (i + 1) (j + 1)) :
    False := by
  have hd : x ∈ R.drawn j := h.drawn_iff.mpr ⟨i, hij, hi, hs, fun m h1 h2 => hn m h1 (by omega)⟩
  exact h.fresh j x hj (hn j (by omega) (by omega)) hd

/-- When a cycle ends, everything present was picked in it. -/
theorem Lawful.picked_of_restart (h : R.Lawful) {b : Nat} {x : α} (hb : R.restart b)
    (hx : x ∈ R.present b) :
    ∃ i < b, R.pick i = some x ∧ R.Stays x (i + 1) b ∧ R.NoRestart (i + 1) b :=
  h.drawn_iff.mp (h.restart b hb hx)

/-- An element that stays through a complete cycle, from the draw `a` that starts it (or the first
draw of the run) up to the draw `b` that starts the next one, is picked exactly once in it. -/
theorem Lawful.exactly_once (h : R.Lawful) {a b : Nat} {x : α} (ha : R.restart a ∨ a = 0)
    (hab : a < b) (hb : R.restart b) (hn : R.NoRestart (a + 1) b) (hs : R.Stays x (a + 1) (b + 1)) :
    ∃ i, (a ≤ i ∧ i < b ∧ R.pick i = some x) ∧
      ∀ j, a ≤ j ∧ j < b ∧ R.pick j = some x → j = i := by
  obtain ⟨i, hi, hp, -, hni⟩ := h.picked_of_restart hb (hs b (by omega) (by omega))
  have hai : a ≤ i := by
    rcases ha with ha | rfl
    · by_contra hlt
      exact hni a (by omega) hab ha
    · exact Nat.zero_le i
  refine ⟨i, ⟨hai, hi, hp⟩, fun j ⟨haj, hj, hpj⟩ => ?_⟩
  -- the earlier one of two picks would make the later one a repetition
  rcases Nat.lt_trichotomy i j with hij | rfl | hij
  · exact (h.no_repeat hij hp hpj (fun m h1 h2 => hs m (by omega) (by omega))
      fun m h1 h2 => hn m (by omega) (by omega)).elim
  · rfl
  · exact (h.no_repeat hij hpj hp (fun m h1 h2 => hs m (by omega) (by omega))
      fun m h1 h2 => hn m (by omega) (by omega)).elim

/-- An element that is new in the urn at draw `a` and stays is picked before the cycle ends. -/
theorem Lawful.picked_of_arrival (h : R.Lawful) {a b : Nat} {x : α}
    (ha : ∀ m, m + 1 = a → x ∉ R.present m) (hab : a ≤ b) (hb : R.restart b)
    (hx : x ∈ R.present b) : ∃ i, a ≤ i ∧ i < b ∧ R.pick i = some x := by
  obtain ⟨i, hi, hp, hs, -⟩ := h.picked_of_restart hb hx
  refine ⟨i, ?_, hi, hp⟩
  by_contra hlt
  obtain ⟨m, rfl⟩ : ∃ m, a = m + 1 := ⟨a - 1, by omega⟩
  refine ha m rfl ?_
  rcases Nat.lt_or_eq_of_le (by omega : i ≤ m) with him | rfl
  · exact hs m him (by omega)
  · exact h.present i x hp

end Run

end Urn
