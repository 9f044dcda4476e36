import Mathlib.Algebra.BigOperators.Group.Finset.Piecewise
import Mathlib.Tactic.Ring

/-!
# Error diffusion

Cells are visited in an order. A visit replaces the value of a cell by a quantised one
and spreads the error over other cells with the weights of a kernel; a weight without
a cell is dropped. Weights that add up to one keep the sum (`total_scan`), and where
the kernel points forward in the order, no visited cell is changed again
(`not_quantised_of_added`, `value_of_quantised`).
-/

namespace Diffusion

universe u v

/-- What happens to a cell. -/
inductive Event (α : Type u) where
  | quantised (p : α)
  | added (p : α)
  deriving DecidableEq, Repr

structure State (α : Type u) (R : Type v) where
  value : α → R
  /-- the errors that went to no cell -/
  dropped : R
  /-- the cells that were quantised, and to what -/
  quantised : List (α × R)
  /-- what has happened, in order -/
  log : List (Event α)

/-! ## The order -/

section

variable {α : Type u} {R : Type v} (kernel : α → List (Option α × R))

/-- The cells that a visit adds to. -/
def targets (p : α) : List α := (kernel p).filterMap Prod.fst

/-- The kernel points forward. -/
structure Forward (order : List α) : Prop where
  other : ∀ p ∈ order, p ∉ targets kernel p
  later : order.Pairwise fun p q => p ∉ targets kernel q

/-- What a visit does. -/
def events (p : α) : List (Event α) :=
  .quantised p :: (targets kernel p).map .added

variable {kernel} {p q : α} {order : List α}

theorem quantised_mem_events : .quantised q ∈ events kernel p ↔ q = p := by
  simp [events]

theorem added_mem_events : .added q ∈ events kernel p ↔ q ∈ targets kernel p := by
  simp [events]

/-- Nothing is added to a cell behind its visit. -/
theorem not_quantised_of_added (hforward : Forward kernel order) {front back : List (Event α)}
    (h : order.flatMap (events kernel) = front ++ .added q :: back) :
    .quantised q ∉ front ∧ ∃ p ∈ order, q ∈ targets kernel p := by
  induction order generalizing front with
  | nil => simp at h
  | cons p order ih =>
    obtain ⟨hother, hothers⟩ := List.forall_mem_cons.mp hforward.other
    obtain ⟨hlater, hlaters⟩ := List.pairwise_cons.mp hforward.later
    have hrest : Forward kernel order := ⟨hothers, hlaters⟩
    rw [List.flatMap_cons] at h
    obtain ⟨more, rfl, heq⟩ | ⟨more, hevents, heq⟩ := List.append_eq_append_iff.mp h
    · -- it is added behind the visit of `p`
      obtain ⟨hmore, r, hr, hq⟩ := ih hrest heq
      refine ⟨fun hmem => ?_, r, List.mem_cons_of_mem _ hr, hq⟩
      obtain hmem | hmem := List.mem_append.mp hmem
      · exact hlater r hr (quantised_mem_events.mp hmem ▸ hq)
      · exact hmore hmem
    · have hfront : .quantised q ∈ front → q = p := fun hmem =>
        quantised_mem_events.mp (hevents ▸ List.mem_append_left more hmem)
      cases more with
      | nil =>
        have hnil : order.flatMap (events kernel) = [] ++ .added q :: back := heq.symm
        obtain ⟨-, r, hr, hq⟩ := ih hrest hnil
        exact ⟨fun hmem => hlater r hr (hfront hmem ▸ hq), r, List.mem_cons_of_mem _ hr, hq⟩
      | cons e more =>
        obtain ⟨rfl, -⟩ := List.cons.inj heq
        have hq : q ∈ targets kernel p := by
          refine added_mem_events.mp ?_
          rw [hevents]
          exact List.mem_append_right front List.mem_cons_self
        exact ⟨fun hmem => hother (hfront hmem ▸ hq), p, List.mem_cons_self, hq⟩

end

/-! ## The scan -/

variable {α : Type u} [DecidableEq α] {R : Type v} [CommRing R]

/-- A part of the error goes to a cell, or is dropped. -/
def spread (error : R) (s : State α R) : Option α × R → State α R
  | (some p, weight) =>
    { s with
      value := Function.update s.value p (s.value p + error * weight)
      log := s.log ++ [.added p] }
  | (none, weight) => { s with dropped := s.dropped + error * weight }

/-- The cell gets its value. -/
def settle (s : State α R) (p : α) (v : R) : State α R :=
  { s with
    value := Function.update s.value p v
    quantised := s.quantised ++ [(p, v)]
    log := s.log ++ [.quantised p] }

variable (quantise : R → R) (kernel : α → List (Option α × R))

def visit (s : State α R) (p : α) : State α R :=
  (kernel p).foldl (spread (s.value p - quantise (s.value p))) (settle s p (quantise (s.value p)))

def scan (order : List α) (s : State α R) : State α R := order.foldl (visit quantise kernel) s

/-- The values of these cells and what was dropped. -/
def total (S : Finset α) (s : State α R) : R := ∑ p ∈ S, s.value p + s.dropped

variable {quantise kernel} {s : State α R} {p q : α} {order : List α} {S : Finset α} {error : R}

/-! ## Values -/

theorem value_spread {t : Option α × R} (h : t.1 ≠ some q) :
    (spread error s t).value q = s.value q := by
  obtain ⟨_ | p, weight⟩ := t
  · rfl
  · have hne : q ≠ p := by
      rintro rfl
      exact h rfl
    exact Function.update_of_ne hne ..

theorem value_foldl_spread {ts : List (Option α × R)} (h : q ∉ ts.filterMap Prod.fst) :
    (ts.foldl (spread error) s).value q = s.value q := by
  induction ts generalizing s with
  | nil => rfl
  | cons t ts ih =>
    simp only [List.mem_filterMap, not_exists, not_and] at h ih
    rw [List.foldl_cons, ih fun t ht => h t (List.mem_cons_of_mem _ ht),
      value_spread (h t List.mem_cons_self)]

/-- A visited cell is quantised, as long as it adds nothing to itself. -/
theorem value_visit_self (h : p ∉ targets kernel p) :
    (visit quantise kernel s p).value p = quantise (s.value p) := by
  rw [visit, value_foldl_spread h]
  exact Function.update_self ..

theorem value_visit_of_ne (hne : q ≠ p) (h : q ∉ targets kernel p) :
    (visit quantise kernel s p).value q = s.value q := by
  rw [visit, value_foldl_spread h]
  exact Function.update_of_ne hne ..

theorem value_scan_of_notMem (hq : q ∉ order) (h : ∀ p ∈ order, q ∉ targets kernel p) :
    (scan quantise kernel order s).value q = s.value q := by
  induction order generalizing s with
  | nil => rfl
  | cons p order ih =>
    obtain ⟨hne, hq⟩ := not_or.mp (mt List.mem_cons.mpr hq)
    obtain ⟨hp, h⟩ := List.forall_mem_cons.mp h
    rw [scan, List.foldl_cons]
    exact (ih hq h).trans (value_visit_of_ne hne hp)

theorem quantised_foldl_spread (ts : List (Option α × R)) (s : State α R) :
    (ts.foldl (spread error) s).quantised = s.quantised := by
  induction ts generalizing s with
  | nil => rfl
  | cons t ts ih =>
    obtain ⟨_ | p, weight⟩ := t <;> exact ih _

theorem quantised_visit : (visit quantise kernel s p).quantised =
    s.quantised ++ [(p, quantise (s.value p))] := by
  rw [visit, quantised_foldl_spread]
  rfl

/-- The cells are quantised in the order. -/
theorem quantised_scan : (scan quantise kernel order s).quantised.map Prod.fst =
    s.quantised.map Prod.fst ++ order := by
  induction order generalizing s with
  | nil => exact (List.append_nil _).symm
  | cons p order ih =>
    rw [scan, List.foldl_cons]
    refine ih.trans ?_
    rw [quantised_visit, List.map_append, List.append_assoc]
    rfl

/-- What a cell was quantised to is its value in the end. -/
theorem value_of_quantised (hforward : Forward kernel order) (hnodup : order.Nodup) {x : α × R}
    (hx : x ∈ (scan quantise kernel order s).quantised) :
    x ∈ s.quantised ∨
      (scan quantise kernel order s).value x.1 = x.2 ∧ ∃ v, x.2 = quantise v := by
  induction order generalizing s with
  | nil => exact .inl hx
  | cons p order ih =>
    obtain ⟨hother, hothers⟩ := List.forall_mem_cons.mp hforward.other
    obtain ⟨hlater, hlaters⟩ := List.pairwise_cons.mp hforward.later
    obtain ⟨hp, hnodup⟩ := List.nodup_cons.mp hnodup
    rw [scan, List.foldl_cons] at hx ⊢
    obtain hx | hx := ih ⟨hothers, hlaters⟩ hnodup hx
    · rw [quantised_visit] at hx
      obtain hx | hx := List.mem_append.mp hx
      · exact .inl hx
      · obtain rfl := List.mem_singleton.mp hx
        exact .inr ⟨(value_scan_of_notMem hp hlater).trans (value_visit_self hother), _, rfl⟩
    · exact .inr hx

/-! ## The sum -/

theorem sum_update (hp : p ∈ S) (f : α → R) (v : R) :
    ∑ q ∈ S, Function.update f p v q = ∑ q ∈ S, f q - f p + v := by
  rw [Finset.sum_update_of_mem hp, Finset.sdiff_singleton_eq_erase, ← Finset.add_sum_erase S f hp]
  ring

theorem total_spread {t : Option α × R} (h : ∀ p, t.1 = some p → p ∈ S) :
    total S (spread error s t) = total S s + error * t.2 := by
  obtain ⟨_ | p, weight⟩ := t
  · simp only [total, spread]
    ring
  · simp only [total, spread]
    rw [sum_update (h p rfl)]
    ring

theorem total_foldl_spread {ts : List (Option α × R)}
    (h : ∀ p ∈ ts.filterMap Prod.fst, p ∈ S) :
    total S (ts.foldl (spread error) s) = total S s + error * (ts.map Prod.snd).sum := by
  induction ts generalizing s with
  | nil => simp
  | cons t ts ih =>
    have hmem : ∀ u ∈ t :: ts, ∀ p, u.1 = some p → p ∈ S :=
      fun u hu p hp => h p (List.mem_filterMap.mpr ⟨u, hu, hp⟩)
    have hts : ∀ p ∈ ts.filterMap Prod.fst, p ∈ S := by
      intro p hp
      obtain ⟨u, hu, hp⟩ := List.mem_filterMap.mp hp
      exact hmem u (List.mem_cons_of_mem _ hu) p hp
    rw [List.foldl_cons, ih hts, total_spread (hmem t List.mem_cons_self), List.map_cons,
      List.sum_cons]
    ring

/-- What a visit takes from its cell goes to the others or is dropped. -/
theorem total_visit (hp : p ∈ S) (h : ∀ q ∈ targets kernel p, q ∈ S)
    (hweights : ((kernel p).map Prod.snd).sum = 1) :
    total S (visit quantise kernel s p) = total S s := by
  rw [visit, total_foldl_spread h, hweights]
  simp only [total, settle]
  rw [sum_update hp]
  ring

theorem total_scan (hS : ∀ p ∈ order, p ∈ S) (h : ∀ p ∈ order, ∀ q ∈ targets kernel p, q ∈ S)
    (hweights : ∀ p ∈ order, ((kernel p).map Prod.snd).sum = 1) :
    total S (scan quantise kernel order s) = total S s := by
  induction order generalizing s with
  | nil => rfl
  | cons p order ih =>
    obtain ⟨hp, hS⟩ := List.forall_mem_cons.mp hS
    obtain ⟨hq, h⟩ := List.forall_mem_cons.mp h
    obtain ⟨hw, hweights⟩ := List.forall_mem_cons.mp hweights
    rw [scan, List.foldl_cons]
    exact (ih hS h hweights).trans (total_visit hp hq hw)

theorem dropped_foldl_spread {ts : List (Option α × R)} (h : ∀ t ∈ ts, t.1 ≠ none) :
    (ts.foldl (spread error) s).dropped = s.dropped := by
  induction ts generalizing s with
  | nil => rfl
  | cons t ts ih =>
    obtain ⟨ht, hts⟩ := List.forall_mem_cons.mp h
    obtain ⟨_ | p, weight⟩ := t
    · exact absurd rfl ht
    · rw [List.foldl_cons, ih hts]
      rfl

/-- A visit drops nothing if every weight has its cell. -/
theorem dropped_visit (h : ∀ t ∈ kernel p, t.1 ≠ none) :
    (visit quantise kernel s p).dropped = s.dropped := by
  rw [visit, dropped_foldl_spread h]
  rfl

/-! ## The log -/

theorem log_foldl_spread (ts : List (Option α × R)) (s : State α R) :
    (ts.foldl (spread error) s).log = s.log ++ (ts.filterMap Prod.fst).map .added := by
  induction ts generalizing s with
  | nil => exact (List.append_nil _).symm
  | cons t ts ih =>
    obtain ⟨_ | p, weight⟩ := t
    · exact ih _
    · rw [List.foldl_cons, ih]
      exact List.append_assoc ..

theorem log_visit : (visit quantise kernel s p).log = s.log ++ events kernel p := by
  rw [visit, log_foldl_spread]
  exact List.append_assoc ..

theorem log_scan :
    (scan quantise kernel order s).log = s.log ++ order.flatMap (events kernel) := by
  induction order generalizing s with
  | nil => exact (List.append_nil _).symm
  | cons p order ih =>
    rw [scan, List.foldl_cons]
    refine ih.trans ?_
    rw [log_visit, List.append_assoc, List.flatMap_cons]

end Diffusion
