import Mathlib.Tactic.Common

/-!
# Windows of a timed log

The entries of a log carry times. Some are `bad`, and some excuse what happens
around them (`good`). `Bounded w n`: a window of length `w` that no good entry falls
into has at most `n` bad ones. A log that is cut in two parts is bounded if each part
is and no window meets bad entries of both, be it that there is a gap between the
parts (`Bounded.append_gap`), or a good entry (`Bounded.append_good`).
-/

namespace Window

universe u

variable {α : Type u} (time : α → Nat) (bad good : α → Bool) (w n : Nat)

/-- The entry falls into the window of length `w` from `a` on. -/
def Within (a : Nat) (x : α) : Prop := a ≤ time x ∧ time x < a + w

instance (a : Nat) (x : α) : Decidable (Within time w a x) := by
  unfold Within; infer_instance

/-- How many bad entries fall into the window from `a` on. -/
def badWithin (log : List α) (a : Nat) : Nat := log.countP fun x => bad x && Within time w a x

def Bounded (log : List α) : Prop :=
  ∀ a, (∀ x ∈ log, good x = true → ¬ Within time w a x) → badWithin time bad w log a ≤ n

variable {time bad good w n} {old cur log : List α} {x : α}

theorem badWithin_append (a : Nat) :
    badWithin time bad w (old ++ cur) a = badWithin time bad w old a + badWithin time bad w cur a :=
  List.countP_append

theorem badWithin_eq_zero {a : Nat} (h : ∀ x ∈ log, bad x = true → ¬ Within time w a x) :
    badWithin time bad w log a = 0 := by
  refine List.countP_eq_zero.mpr fun x hx => ?_
  simp only [Bool.and_eq_true, decide_eq_true_eq, not_and]
  exact h x hx

theorem badWithin_le (a : Nat) : badWithin time bad w log a ≤ log.countP bad :=
  List.countP_mono_left fun x _ h => by
    rw [Bool.and_eq_true] at h
    exact h.1

theorem bounded_nil : Bounded time bad good w n [] := fun _ _ => Nat.zero_le n

/-- No window meets bad entries of both parts. -/
theorem Bounded.append (hold : Bounded time bad good w n old) (hcur : cur.countP bad ≤ n)
    (h : ∀ a, (∀ x ∈ old, good x = true → ¬ Within time w a x) →
      (∀ x ∈ old, bad x = true → ¬ Within time w a x) ∨
      ∀ y ∈ cur, bad y = true → ¬ Within time w a y) :
    Bounded time bad good w n (old ++ cur) := by
  intro a hgood
  have hgood' : ∀ x ∈ old, good x = true → ¬ Within time w a x :=
    fun x hx => hgood x (List.mem_append_left cur hx)
  rw [badWithin_append]
  rcases h a hgood' with hzero | hzero
  · rw [badWithin_eq_zero hzero, Nat.zero_add]
    exact Nat.le_trans (badWithin_le a) hcur
  · rw [badWithin_eq_zero hzero, Nat.add_zero]
    exact hold a hgood'

/-- The bad entries of the parts are a window apart. -/
theorem Bounded.append_gap {t : Nat} (hold : Bounded time bad good w n old)
    (hcur : cur.countP bad ≤ n) (hbefore : ∀ x ∈ old, bad x = true → time x + w ≤ t)
    (hafter : ∀ y ∈ cur, bad y = true → t ≤ time y) :
    Bounded time bad good w n (old ++ cur) := by
  refine hold.append hcur fun a _ => ?_
  by_cases hmeets : ∃ x ∈ old, bad x = true ∧ Within time w a x
  · obtain ⟨x, hx, hbad, hfrom, -⟩ := hmeets
    refine .inr fun y hy hbad' => ?_
    rintro ⟨-, hto⟩
    have := hbefore x hx hbad
    have := hafter y hy hbad'
    omega
  · exact .inl fun x hx hbad hwithin => hmeets ⟨x, hx, hbad, hwithin⟩

/-- There is a good entry between the bad ones of the parts. -/
theorem Bounded.append_good (hold : Bounded time bad good w n old) (hcur : cur.countP bad ≤ n)
    (hx : x ∈ old) (hgood : good x = true) (hbefore : ∀ y ∈ old, bad y = true → time y ≤ time x)
    (hafter : ∀ y ∈ cur, bad y = true → time x ≤ time y) :
    Bounded time bad good w n (old ++ cur) := by
  refine hold.append hcur fun a hno => ?_
  rcases Nat.lt_or_ge (time x) a with hlt | hge
  · refine .inl fun y hy hbad => ?_
    rintro ⟨hfrom, -⟩
    have := hbefore y hy hbad
    omega
  · refine .inr fun y hy hbad => ?_
    rintro ⟨-, hto⟩
    have := hafter y hy hbad
    exact hno x hx hgood ⟨hge, by omega⟩

/-- One more entry that is not bad. -/
theorem Bounded.concat (h : Bounded time bad good w n log) (hx : bad x = false) :
    Bounded time bad good w n (log ++ [x]) := by
  intro a hgood
  have hzero : badWithin time bad w [x] a = 0 :=
    badWithin_eq_zero fun y hy hbad => by
      rw [List.mem_singleton.mp hy, hx] at hbad
      cases hbad
  rw [badWithin_append, hzero, Nat.add_zero]
  exact h a fun y hy => hgood y (List.mem_append_left [x] hy)

end Window
