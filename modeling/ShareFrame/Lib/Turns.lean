import Mathlib.Tactic.Common

/-!
# Taking turns

A log holds what several actors did, in the order in which they did it. Turns do not overlap
(`Exclusive`) if nobody else acts between an actor's entrance and one of its own acts. What
carries this through a run is that nobody else has acted since the entrance of an actor who may
still act (`Alone`).
-/

namespace Turns

universe u v

variable {ι : Type u} {ε : Type v} (enters acts : ε → Prop)

/-- Nobody else has acted since an entrance of `i`. -/
def Alone (i : ι) (log : List (ι × ε)) : Prop :=
  ∀ j e f, j ≠ i → enters e → acts f → ¬[(i, e), (j, f)].Sublist log

/-- Nobody else acts between an entrance of an actor and one of its acts. -/
def Exclusive (log : List (ι × ε)) : Prop :=
  ∀ i j e f g, j ≠ i → enters e → acts f → acts g → ¬[(i, e), (j, f), (i, g)].Sublist log

variable {enters acts} {i j : ι} {log new : List (ι × ε)}

theorem fst_of_mem_tagged {new : List ε} {x : ι × ε} (h : x ∈ new.map fun e => (i, e)) :
    x.1 = i := by
  obtain ⟨e, -, rfl⟩ := List.mem_map.mp h
  rfl

/-- How often an actor did something, among what one of them did. -/
theorem count_tagged [DecidableEq ι] [DecidableEq ε] (new : List ε) (i j : ι) (e : ε) :
    (new.map fun e => (i, e)).count (j, e) = if j = i then new.count e else 0 := by
  induction new with
  | nil => simp
  | cons d new ih =>
    rw [List.map_cons, List.count_cons, ih, List.count_cons]
    by_cases hj : j = i
    · simp [hj]
    · simp [hj, Ne.symm hj]

/-! ## Turns -/

theorem exclusive_nil : Exclusive enters acts ([] : List (ι × ε)) := by
  intro i j e f g _ _ _ _ h
  cases h

/-- The last element comes from one of the two parts. -/
theorem sublist_snoc {l : List (ι × ε)} {x : ι × ε} (h : (l ++ [x]).Sublist (log ++ new)) :
    (l ++ [x]).Sublist log ∨ x ∈ new := by
  obtain ⟨front, back, heq, hfront, hback⟩ := List.sublist_append_iff.mp h
  obtain rfl | ⟨back, y, rfl⟩ := List.eq_nil_or_concat back
  · rw [List.append_nil] at heq
    exact .inl (heq ▸ hfront)
  · rw [List.concat_eq_append, ← List.append_assoc] at heq
    obtain ⟨-, hxy⟩ := List.append_inj' heq rfl
    rw [List.singleton_inj] at hxy
    exact .inr (hback.subset (by rw [hxy, List.concat_eq_append]; simp))

theorem Alone.of_notMem (h : ∀ x ∈ log, x.1 ≠ i) : Alone enters acts i log :=
  fun _ e _ _ _ _ hsub => h (i, e) (hsub.subset List.mem_cons_self) rfl

theorem Alone.append (h : Alone enters acts i log) (hnew : ∀ x ∈ new, acts x.2 → x.1 = i) :
    Alone enters acts i (log ++ new) := by
  intro j e f hj he hf hsub
  obtain hold | hmem := sublist_snoc (l := [(i, e)]) hsub
  · exact h j e f hj he hf hold
  · exact hj (hnew _ hmem hf)

/-- Who acts has to be alone. -/
theorem Exclusive.append (h : Exclusive enters acts log) (hnew : ∀ x ∈ new, acts x.2 → x.1 = i)
    (halone : (∃ x ∈ new, acts x.2) → Alone enters acts i log) :
    Exclusive enters acts (log ++ new) := by
  intro k j e f g hj he hf hg hsub
  obtain hold | hmem := sublist_snoc (l := [(k, e), (j, f)]) hsub
  · exact h k j e f g hj he hf hg hold
  · obtain rfl : k = i := hnew _ hmem hg
    refine (halone ⟨_, hmem, hg⟩).append hnew j e f hj he hf ?_
    exact (List.sublist_append_left [(k, e), (j, f)] [(k, g)]).trans hsub

end Turns
