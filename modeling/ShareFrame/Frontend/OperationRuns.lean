import ShareFrame.Frontend.OneOperation

/-!
# Runs of the operations

Every thunk comes to its end once its awaits settle: a settled await lowers the rank of what is
awaited next, since the loop of a toggle ends by its clock and sleeps in every round. With
what is counted of each thunk this gives the main result on all runs.
-/

namespace ShareFrame.SlideshowOperation

open Transition Turns

/-! ## The end of a thunk -/

/-- Rounds of the loop that can still begin behind a sleep of now. -/
def rounds (startTime now : Nat) : Nat := (startTime + MAX_OPERATION_WAIT_TIME - now + 1999) / 2000

/-- How many awaits can still settle. -/
def Pc.rank (now : Nat) : Pc → Nat
  | .returned => 0
  | .payload _ => 1
  | .response => 2
  | .sleep _ startTime since => 4 * rounds startTime since + 1
  | .clear _ startTime => 4 * rounds startTime now + 2
  | .checkData _ startTime => 4 * rounds startTime now + 3
  | .check _ startTime => 4 * rounds startTime now + 4
  | .toggleData _ => 1205
  | .toggle _ => 1206
  | .statusData => 1207
  | .status => 1208

theorem rounds_le (startTime : Nat) {now later : Nat} (h : now ≤ later) :
    rounds startTime later ≤ rounds startTime now := by
  unfold rounds
  omega

/-- A sleep takes a round. -/
theorem rounds_lt {startTime since now : Nat} (h : since + 2000 ≤ now)
    (hnow : now - startTime < MAX_OPERATION_WAIT_TIME) :
    rounds startTime now < rounds startTime since := by
  unfold rounds
  simp only [MAX_OPERATION_WAIT_TIME] at *
  omega

theorem rank_le {pc : Pc} {now later : Nat} (h : now ≤ later) : pc.rank later ≤ pc.rank now := by
  cases pc with
  | check wasActive startTime | checkData wasActive startTime | clear wasActive startTime =>
    have := rounds_le startTime h
    simp only [Pc.rank]
    omega
  | _ => exact Nat.le_refl _

theorem rank_caught (t : Thunk) (error : String) (now : Nat) :
    (t.caught error).1.rank now = 0 := by
  rw [(ends_caught t error).1]
  rfl

theorem rank_monitor (wasActive : Option Bool) (startTime now : Nat) :
    (monitor wasActive startTime now).1.rank now ≤ 4 * rounds startTime now + 4 := by
  unfold monitor
  split
  · exact Nat.le_refl _
  · exact Nat.zero_le _

theorem rank_checked (wasActive active : Option Bool) (startTime now : Nat) (success : Bool) :
    (checked wasActive startTime success active now).1.rank now ≤
      4 * rounds startTime now + 2 := by
  unfold checked
  split
  · split
    · exact Nat.le_refl _
    · exact Nat.zero_le _
  · exact Nat.le_succ _

theorem rank_responded (t : Thunk) (status now : Nat) : (t.responded status).1.rank now ≤ 1 := by
  unfold Thunk.responded
  split
  · split
    · exact Nat.zero_le _
    · exact Nat.le_refl _
  · exact Nat.le_refl _

/-- **A settled await lowers the rank.** -/
theorem rank_resume {t : Thunk} {pc : Pc} {answer : Answer} {now later : Nat}
    {p : Pc × List Effect} (hle : now ≤ later) (h : resume t pc answer later = some p) :
    p.1.rank later < pc.rank now := by
  unfold resume at h
  split at h
  · next status =>
    obtain rfl := Option.some.inj h
    exact Nat.lt_succ_of_le (rank_responded t status later)
  · next status success message =>
    obtain rfl := Option.some.inj h
    rw [(ends_parsed t status success message).1]
    exact Nat.zero_lt_one
  -- a toggle up to its request
  · obtain rfl := Option.some.inj h
    exact Nat.lt_succ_self _
  · obtain rfl := Option.some.inj h
    split
    · exact Nat.lt_succ_self _
    · rw [rank_caught]
      exact Nat.succ_pos _
  · obtain rfl := Option.some.inj h
    exact Nat.lt_succ_self _
  · next wasActive success _ =>
    obtain rfl := Option.some.inj h
    split
    · have hmonitor := rank_monitor wasActive later later
      have hrounds : rounds later later = 300 := by
        simp only [rounds, MAX_OPERATION_WAIT_TIME]
        omega
      show (monitor wasActive later later).1.rank later < 1205
      omega
    · rw [rank_caught]
      exact Nat.succ_pos _
  -- whatever is rejected before the loop
  iterate 6
    · obtain rfl := Option.some.inj h
      rw [rank_caught]
      exact Nat.succ_pos _
  -- the loop
  · next wasActive startTime _ =>
    obtain rfl := Option.some.inj h
    have := rounds_le startTime hle
    simp only [Pc.rank]
    omega
  · next wasActive startTime success active =>
    obtain rfl := Option.some.inj h
    have hrounds := rounds_le startTime hle
    refine Nat.lt_of_le_of_lt (rank_checked wasActive active startTime later success) ?_
    show 4 * rounds startTime later + 2 < 4 * rounds startTime now + 3
    omega
  · obtain rfl := Option.some.inj h
    exact Nat.succ_pos _
  iterate 3
    · next wasActive startTime _ =>
      obtain rfl := Option.some.inj h
      have := rounds_le startTime hle
      simp only [Pc.rank]
      omega
  · next wasActive startTime since =>
    split at h
    · next hsince =>
      obtain rfl := Option.some.inj h
      unfold monitor
      split
      · next hnow =>
        have := rounds_lt hsince hnow
        simp only [Pc.rank]
        omega
      · exact Nat.succ_pos _
    · cases h
  · cases h

/-- What is awaited can settle. -/
theorem exists_resume (t : Thunk) {pc : Pc} (h : pc ≠ .returned) (now : Nat) :
    ∃ answer later p, now ≤ later ∧ resume t pc answer later = some p := by
  cases pc with
  | sleep wasActive startTime since =>
    exact ⟨.timeout, max now (since + 2000), _, Nat.le_max_left _ _,
      if_pos (Nat.le_max_right now (since + 2000))⟩
  | returned => exact absurd rfl h
  | _ => exact ⟨.rejected none, now, _, Nat.le_refl now, rfl⟩

/-- The awaits of the `i`-th thunk that settle. -/
def own (i : Nat) : Act → Bool
  | .dispatch _ _ => false
  | .settle j _ _ => j = i

/-- How many awaits of the `i`-th thunk can still settle. -/
def St.rank (i : Nat) (s : St) : Nat :=
  match s.flights[i]? with
  | some f => f.pc.rank s.now
  | none => 0

variable {s s' : St} {a : Act} {i : Nat}

theorem rank_of_eq {f : Flight} (h : s.flights[i]? = some f) : s.rank i = f.pc.rank s.now := by
  rw [St.rank, h]

theorem rank_own (h : Step s a s') (ha : own i a = true) : s'.rank i < s.rank i := by
  cases h with
  | refused t now hnow => cases ha
  | passed t now hnow hbusy => cases ha
  | settled j answer now f p hnow hf hp =>
    obtain rfl : j = i := of_decide_eq_true ha
    obtain ⟨hj, -⟩ := List.getElem?_eq_some_iff.mp hf
    have hf' : (s.settled j f answer now p).flights[j]? = some (f.settled p.1 answer) :=
      List.getElem?_set_self hj
    rw [rank_of_eq hf, rank_of_eq hf']
    exact rank_resume hnow hp

theorem rank_other (hi : i < s.flights.length) (h : Step s a s') (ha : own i a = false) :
    s'.rank i ≤ s.rank i := by
  have hf := List.getElem?_eq_getElem hi
  have hkeep (now : Nat) (hnow : s.now ≤ now) (s' : St) (hs' : s'.now = now)
      (hf' : s'.flights[i]? = s.flights[i]?) : s'.rank i ≤ s.rank i := by
    rw [rank_of_eq hf, rank_of_eq (hf'.trans hf), hs']
    exact rank_le hnow
  cases h with
  | refused t now hnow => exact hkeep now hnow _ rfl rfl
  | passed t now hnow hbusy => exact hkeep now hnow _ rfl (List.getElem?_append_left hi)
  | settled j answer now f p hnow hfj hp =>
    have hj : j ≠ i := of_decide_eq_false ha
    exact hkeep now hnow _ rfl (List.getElem?_set_ne hj)

theorem length_step (h : Step s a s') : s.flights.length ≤ s'.flights.length := by
  cases h with
  | refused t now hnow => exact Nat.le_refl _
  | passed t now hnow hbusy =>
    rw [length_passed]
    exact Nat.le_succ _
  | settled i answer now f p hnow hf hp => exact Nat.le_of_eq List.length_set.symm

/-- The awaits of a thunk settle no more often than its rank says. -/
theorem settled_le {f : Flight} (hf : s.flights[i]? = some f) (more : List Act)
    (h : machine.run s more = some s') : more.countP (own i) ≤ f.pc.rank s.now := by
  obtain ⟨hi, -⟩ := List.getElem?_eq_some_iff.mp hf
  have hrun := Machine.countP_add_le (M := machine) (I := fun s => i < s.flights.length)
    (m := St.rank i) (fun s a s' hi hs => Nat.lt_of_lt_of_le hi (length_step (Step.of_step hs)))
    (fun s a s' _ hs ha => rank_own (Step.of_step hs) ha)
    (fun s a s' hi hs ha => rank_other hi (Step.of_step hs) ha) more hi h
  rw [rank_of_eq hf] at hrun
  omega

theorem exists_settle {f : Flight} (hf : s.flights[i]? = some f) (h : f.pc ≠ .returned) :
    ∃ answer now s', step s (.settle i answer now) = some s' := by
  obtain ⟨answer, later, p, hle, hp⟩ := exists_resume f.thunk h s.now
  refine ⟨answer, later, s.settled i f answer later p, ?_⟩
  rw [step, if_neg (Nat.not_lt_of_le hle), hf]
  simp only [Option.bind_eq_bind, Option.bind_some, hp]
  rfl

/-! ## Main results -/

/-- **As long as no follow-up clear is rejected, one thunk at a time** sends its requests, every
thunk has cleared its flag once when it is done with them, and a toggle sends one clear at most.
In any run a thunk that returned cleared its flag once for every rejected clear and once more,
and one that did not return has an await that can settle, and only so many of them. -/
theorem operations_in_turn (acts : List Act) {s : St} (h : machine.run {} acts = some s) :
    (machine.Meets FollowUpAnswered {} acts → Exclusive Enters Sends s.log ∧
      ∀ i f, s.flights[i]? = some f →
        s.log.count (i, .setStatus false) = (!f.pc.engaged).toNat ∧
        (f.thunk = .toggleSlideshowThunk → s.log.count (i, .send .clear) ≤ 1)) ∧
    ∀ i f, s.flights[i]? = some f →
      (f.pc = .returned → s.log.count (i, .setStatus false) = f.rejects + 1) ∧
      (f.pc ≠ .returned →
        (∃ answer now s', step s (.settle i answer now) = some s') ∧
        ∀ more s', machine.run s more = some s' → more.countP (own i) ≤ f.pc.rank s.now) := by
  refine ⟨fun hmeets => ?_, fun i f hf => ⟨fun hpc => ?_, fun hpc => ?_⟩⟩
  · obtain ⟨hc, ho⟩ := inductive_orderly.of_reachable (.run acts (.init rfl) hmeets h)
    refine ⟨ho.exclusive, fun i f hf => ⟨?_, fun ht => ?_⟩⟩
    · rw [hc.cleared i f hf, ho.rejects i f hf, Nat.zero_add]
    · have hle := hc.clears i f hf ht
      rw [ho.rejects i f hf] at hle
      exact Nat.le_trans hle (by cases f.pc.engaged <;> decide)
  · have hc := inductive_counted.of_reachable (Machine.reachable_run acts rfl h)
    rw [hc.cleared i f hf, hpc]
    rfl
  · exact ⟨exists_settle hf hpc, fun more s' hrun => settled_le hf more hrun⟩

/-- A toggle that stops the slideshow, up to its follow-up clear. -/
def stopped : List Act :=
  [.dispatch .toggleSlideshowThunk 0, .settle 0 (.response 200) 100,
    .settle 0 (.status true (some true)) 110, .settle 0 (.response 200) 200,
    .settle 0 (.payload true none) 210, .settle 0 (.response 200) 300,
    .settle 0 (.status true (some false)) 310]

/-- A photo is skipped in vain during the toggle, and skipped while its follow-up clear is on the
way. -/
def met : List Act :=
  Act.dispatch .toggleSlideshowThunk 0 :: .dispatch .skipImageThunk 50 :: stopped.tail ++
    [.dispatch .skipImageThunk 350, .settle 1 (.response 200) 400, .settle 0 (.response 200) 900,
      .settle 1 (.payload true none) 960]

theorem operations_in_turn_met :
    ∃ s, machine.run {} met = some s ∧ Exclusive Enters Sends s.log ∧
      s.log.count (0, .setStatus false) = 1 ∧ s.log.count (1, .setStatus false) = 1 := by
  have h := (operations_in_turn met rfl).1 (by decide)
  exact ⟨_, rfl, h.1, (h.2 0 _ rfl).1, (h.2 1 _ rfl).1⟩

/-- The follow-up clear is rejected, and a photo is skipped before the toggle looks again. -/
def interrupted : List Act :=
  stopped ++ [Act.settle 0 (.rejected (some "Failed to fetch")) 320, .dispatch .skipImageThunk 1000,
    .settle 0 .timeout 2400, .settle 0 (.response 200) 2500,
    .settle 0 (.status true (some false)) 2510]

/-- The toggle clears the panel behind the other's request, and its flag a second time. -/
theorem interrupted_overlaps :
    ∃ s, machine.run {} interrupted = some s ∧
      [(0, .setStatus true), (1, .send .skip), (0, .send .clear)].Sublist s.log ∧
      s.log.count (0, .setStatus false) = 2 ∧ s.log.count (0, .send .clear) = 2 :=
  ⟨_, rfl, by decide, by decide, by decide⟩

end ShareFrame.SlideshowOperation
