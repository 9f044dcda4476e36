import Mathlib.Tactic.Common

/-!
# Machines, guarded runs, inductive invariants

A `Machine` has initial states and a partial step function on labels. Every
choice a step leaves open (which thread moves, what the outside world answers,
a random draw) is part of the label, so one list of labels replays one run.

`ReachableBy G` are the states reached by steps that all meet the guard `G`,
`Reachable` those reached by any steps. An inductive invariant holds in every
state reached (`Inductive.of_reachable`); `Inductive.strengthen` proves a second
one with the help of the first. Replayed runs meet a guard step by step (`meets_iff`,
`meets_congr`). A `Countdown` bounds how often a run can take one
label (`Countdown.run`).
-/

namespace Transition

universe u v

/-- Initial states and a partial step function. -/
structure Machine (σ : Type u) (α : Type v) where
  Init : σ → Prop
  step : σ → α → Option σ

namespace Machine

variable {σ : Type u} {α : Type v} (M : Machine σ α)

/-- States reached from an initial one by steps that all meet `G`. -/
inductive ReachableBy (G : σ → α → Prop) : σ → Prop where
  | init {s : σ} : M.Init s → ReachableBy G s
  | step {s s' : σ} {a : α} : ReachableBy G s → G s a → M.step s a = some s' → ReachableBy G s'

/-- States reached from an initial one. -/
abbrev Reachable (s : σ) : Prop := M.ReachableBy (fun _ _ => True) s

variable {M}

theorem ReachableBy.mono {G H : σ → α → Prop} (hGH : ∀ s a, G s a → H s a) {s : σ}
    (h : M.ReachableBy G s) : M.ReachableBy H s := by
  induction h with
  | init h0 => exact .init h0
  | step _ hG hs ih => exact .step ih (hGH _ _ hG) hs

theorem ReachableBy.reachable {G : σ → α → Prop} {s : σ} (h : M.ReachableBy G s) :
    M.Reachable s :=
  h.mono fun _ _ _ => trivial

variable (M) in
/-- `I` holds initially and every step that meets `G` keeps it. -/
structure Inductive (G : σ → α → Prop) (I : σ → Prop) : Prop where
  init : ∀ s, M.Init s → I s
  step : ∀ s a s', I s → G s a → M.step s a = some s' → I s'

theorem Inductive.of_reachable {G : σ → α → Prop} {I : σ → Prop} (h : M.Inductive G I) {s : σ}
    (hr : M.ReachableBy G s) : I s := by
  induction hr with
  | init h0 => exact h.init _ h0
  | step _ hG hs ih => exact h.step _ _ _ ih hG hs

/-- An invariant already proved may be used on both sides of a step. -/
theorem Inductive.strengthen {G : σ → α → Prop} {I J : σ → Prop} (hI : M.Inductive G I)
    (h0 : ∀ s, M.Init s → J s)
    (hJ : ∀ s a s', I s → I s' → J s → G s a → M.step s a = some s' → J s') :
    M.Inductive G fun s => I s ∧ J s where
  init s hs := ⟨hI.init s hs, h0 s hs⟩
  step s a s' h hG hs :=
    have hI' := hI.step s a s' h.1 hG hs
    ⟨hI', hJ s a s' h.1 hI' h.2 hG hs⟩

/-! ## Replaying a run -/

variable (M) in
/-- The state after a list of labels, `none` if one of them is not enabled. -/
def run : σ → List α → Option σ
  | s, [] => some s
  | s, a :: as => (M.step s a).bind (run · as)

theorem run_append (as bs : List α) (s : σ) :
    M.run s (as ++ bs) = (M.run s as).bind (M.run · bs) := by
  induction as generalizing s with
  | nil => rfl
  | cons a as ih =>
    rw [List.cons_append]
    cases h : M.step s a with
    | none => simp [run, h]
    | some t => simp [run, h, ih]

variable (M) in
/-- Every step of the replayed list meets `G`. -/
def Meets (G : σ → α → Prop) : σ → List α → Prop
  | _, [] => True
  | s, a :: as => G s a ∧ ∀ s', M.step s a = some s' → Meets G s' as

/-- Whether a guard was met can be checked by replaying. -/
instance decidableMeets {G : σ → α → Prop} [∀ s a, Decidable (G s a)] :
    ∀ (s : σ) (as : List α), Decidable (M.Meets G s as)
  | _, [] => .isTrue trivial
  | s, a :: as =>
    match h : M.step s a with
    | none => decidable_of_iff (G s a) (by simp [Meets, h])
    | some s' =>
      have : Decidable (M.Meets G s' as) := decidableMeets s' as
      decidable_of_iff (G s a ∧ M.Meets G s' as) (by simp [Meets, h])

theorem ReachableBy.run {G : σ → α → Prop} :
    ∀ (as : List α) {s s' : σ}, M.ReachableBy G s → M.Meets G s as → M.run s as = some s' →
      M.ReachableBy G s'
  | [], s, s', hr, _, h => by
    simp only [Machine.run, Option.some.injEq] at h
    exact h ▸ hr
  | a :: as, s, s', hr, hG, h => by
    simp only [Machine.run, Option.bind_eq_some_iff] at h
    obtain ⟨t, ht, h⟩ := h
    exact ReachableBy.run as (.step hr hG.1 ht) (hG.2 t ht) h

/-- A guard on the label alone. -/
theorem meets_of_mem {G : σ → α → Prop} {as : List α} (h : ∀ a ∈ as, ∀ s, G s a) {s : σ} :
    M.Meets G s as := by
  induction as generalizing s with
  | nil => trivial
  | cons a as ih =>
    exact ⟨h a List.mem_cons_self s, fun _ _ => ih fun b hb => h b (List.mem_cons_of_mem a hb)⟩

theorem meets_cons {G : σ → α → Prop} {s t : σ} {a : α} {as : List α}
    (ht : M.step s a = some t) : M.Meets G s (a :: as) ↔ G s a ∧ M.Meets G t as := by
  refine and_congr_right fun _ => ⟨fun h => h t ht, fun h t' ht' => ?_⟩
  obtain rfl := Option.some.inj (ht.symm.trans ht')
  exact h

/-- Guards that say the same of every step of a run are met by the same runs. -/
theorem meets_congr {G H : σ → α → Prop} {J : σ → Prop}
    (keep : ∀ s a s', J s → M.step s a = some s' → J s')
    (h : ∀ s a s', J s → M.step s a = some s' → (G s a ↔ H s a)) :
    ∀ (as : List α) {s s' : σ}, J s → M.run s as = some s' → (M.Meets G s as ↔ M.Meets H s as)
  | [], _, _, _, _ => Iff.rfl
  | a :: as, s, s', hJ, hrun => by
    obtain ⟨t, ht, hrest⟩ := Option.bind_eq_some_iff.mp hrun
    rw [meets_cons ht, meets_cons ht]
    exact and_congr (h s a t hJ ht) (meets_congr keep h as (keep s a t hJ ht) hrest)

/-- What a step leaves true exactly if it was true and the guard is met. -/
theorem meets_iff {G : σ → α → Prop} {P : σ → Prop}
    (h : ∀ s a s', M.step s a = some s' → (P s' ↔ P s ∧ G s a)) :
    ∀ (as : List α) {s s' : σ}, M.run s as = some s' → (P s' ↔ P s ∧ M.Meets G s as)
  | [], s, s', hrun => by
    obtain rfl := Option.some.inj hrun
    exact (and_iff_left trivial).symm
  | a :: as, s, s', hrun => by
    obtain ⟨t, ht, hrest⟩ := Option.bind_eq_some_iff.mp hrun
    rw [meets_iff h as hrest, h s a t ht, and_assoc, meets_cons ht]

theorem meets_true {s : σ} {as : List α} : M.Meets (fun _ _ => True) s as := by
  induction as generalizing s with
  | nil => trivial
  | cons a as ih => exact ⟨trivial, fun _ _ => ih⟩

/-- A replay of labels from an initial state reaches a state. -/
theorem reachable_run (as : List α) {s s' : σ} (h0 : M.Init s) (h : M.run s as = some s') :
    M.Reachable s' :=
  ReachableBy.run as (.init h0) meets_true h

variable (M) in
/-- A replay ends in a state that passes a test. -/
theorem exists_of_run (s : σ) (as : List α) (f : σ → Bool) (h : (M.run s as).any f = true) :
    ∃ s', M.run s as = some s' ∧ f s' = true :=
  (Option.any_eq_true f _).mp h

/-- A replay ends in a state with property `p`, checked by evaluation. -/
theorem exists_reachable_of_run (as : List α) {s : σ} {p : σ → Prop} (h0 : M.Init s)
    (h : ∃ s', M.run s as = some s' ∧ p s') : ∃ s', M.Reachable s' ∧ p s' := by
  obtain ⟨s', hs, hp⟩ := h
  exact ⟨s', reachable_run as h0 hs, hp⟩

/-! ## Runs between two states -/

variable (M) in
/-- The labels lead from one state to the other, by steps that all meet `G`. -/
def RunBy (G : σ → α → Prop) (s : σ) (as : List α) (t : σ) : Prop :=
  M.Meets G s as ∧ M.run s as = some t

namespace RunBy

variable {G : σ → α → Prop} {s t u : σ} {as bs : List α}

theorem nil : M.RunBy G s [] s := ⟨trivial, rfl⟩

theorem cons {a : α} (hG : G s a) (hs : M.step s a = some t) (h : M.RunBy G t as u) :
    M.RunBy G s (a :: as) u := by
  refine ⟨(meets_cons hs).mpr ⟨hG, h.1⟩, ?_⟩
  rw [run, hs]
  exact h.2

theorem single {a : α} (hG : G s a) (hs : M.step s a = some t) : M.RunBy G s [a] t :=
  cons hG hs nil

theorem uncons {a : α} (h : M.RunBy G s (a :: as) u) :
    ∃ t, G s a ∧ M.step s a = some t ∧ M.RunBy G t as u := by
  obtain ⟨⟨hG, hmeets⟩, hrun⟩ := h
  rw [run, Option.bind_eq_some_iff] at hrun
  obtain ⟨t, ht, hrun⟩ := hrun
  exact ⟨t, hG, ht, hmeets t ht, hrun⟩

theorem trans (h : M.RunBy G s as t) (h' : M.RunBy G t bs u) : M.RunBy G s (as ++ bs) u := by
  induction as generalizing s with
  | nil =>
    obtain ⟨-, h⟩ := h
    cases h
    exact h'
  | cons a as ih =>
    obtain ⟨s', hG, hs, h⟩ := h.uncons
    exact cons hG hs (ih h)

theorem reachable (h : M.RunBy G s as t) (hs : M.Reachable s) : M.Reachable t :=
  ReachableBy.run as hs meets_true h.2

/-- What every step keeps, a run keeps. -/
theorem invariant {I : σ → Prop} (hI : ∀ s a s', I s → G s a → M.step s a = some s' → I s')
    (h : M.RunBy G s as t) (hs : I s) : I t := by
  induction as generalizing s with
  | nil =>
    obtain ⟨-, h⟩ := h
    cases h
    exact hs
  | cons a as ih =>
    obtain ⟨s', hG, hstep, h⟩ := h.uncons
    exact ih h (hI s a s' hs hG hstep)

end RunBy

/-! ## Bounding a label -/

variable (M) in
/-- `I m` says that the label `b` can be taken `m` more times at the most: taking it lowers the
number, no other step that meets `G` raises it. -/
structure Countdown (G : σ → α → Prop) (b : α) (I : Nat → σ → Prop) : Prop where
  lower : ∀ m s s', I m s → M.step s b = some s' → ∃ m' < m, I m' s'
  other : ∀ m s a s', I m s → G s a → a ≠ b → M.step s a = some s' → I m s'

theorem Countdown.run [DecidableEq α] {G : σ → α → Prop} {b : α} {I : Nat → σ → Prop}
    (h : M.Countdown G b I) :
    ∀ (as : List α) {m : Nat} {s s' : σ}, I m s → M.Meets G s as → M.run s as = some s' →
      ∃ m', as.count b + m' ≤ m ∧ I m' s'
  | [], m, s, s', hI, _, hr => by
    simp only [Machine.run, Option.some.injEq] at hr
    exact ⟨m, by simp, hr ▸ hI⟩
  | a :: as, m, s, s', hI, hG, hr => by
    simp only [Machine.run, Option.bind_eq_some_iff] at hr
    obtain ⟨t, ht, hr⟩ := hr
    by_cases hab : a = b
    · obtain ⟨m₁, hlt, hI₁⟩ := h.lower m s t hI (hab ▸ ht)
      obtain ⟨m', hle, hI'⟩ := Countdown.run h as hI₁ (hG.2 t ht) hr
      exact ⟨m', by rw [hab, List.count_cons_self]; omega, hI'⟩
    · obtain ⟨m', hle, hI'⟩ := Countdown.run h as (h.other m s a t hI hG.1 hab ht) (hG.2 t ht) hr
      exact ⟨m', by rw [List.count_cons_of_ne hab]; exact hle, hI'⟩

/-- Steps of a kind that lower a measure which no other step raises are at most as many. -/
theorem countP_add_le {I : σ → Prop} {p : α → Bool} {m : σ → Nat}
    (keep : ∀ s a s', I s → M.step s a = some s' → I s')
    (lower : ∀ s a s', I s → M.step s a = some s' → p a = true → m s' < m s)
    (other : ∀ s a s', I s → M.step s a = some s' → p a = false → m s' ≤ m s) :
    ∀ (as : List α) {s s' : σ}, I s → M.run s as = some s' → as.countP p + m s' ≤ m s
  | [], s, s', _, h => by
    cases h
    simp
  | a :: as, s, s', hI, h => by
    obtain ⟨t, ht, hrest⟩ := Option.bind_eq_some_iff.mp h
    have hrun := countP_add_le keep lower other as (keep s a t hI ht) hrest
    cases hp : p a with
    | true =>
      have hlt := lower s a t hI ht hp
      rw [List.countP_cons_of_pos hp]
      omega
    | false =>
      have hle := other s a t hI ht hp
      rw [List.countP_cons_of_neg (by rw [hp]; exact Bool.false_ne_true)]
      omega

end Machine

end Transition
