import ShareFrame.Task.ApNetworkSetupScreen

/-!
# The newest credentials

What one step of the thread can change is said once (`next_cases`). From it: at rest
the newest paint is of the credentials set last (`Inv`), another one follows a
failure, however the steps fall (`Ahead`), and while no stop is requested the thread
is on its way there and never held up (`Due`, `distance`).
-/

namespace ShareFrame.ApNetworkSetupScreen

open Transition
open DisplayManager (RefreshPolicy)

/-- The parts of `_run`, or none of them. -/
inductive Stage where
  | out
  /-- in front of the snapshot -/
  | top
  | painting
  /-- behind the paint -/
  | wait
  deriving DecidableEq, Repr

def Site.stage : Site → Stage
  | recheck => .wait
  | backoff _ => .out

def Pc.stage : Pc → Stage
  | .idle | .start | .failed | .exited | .aborted => .out
  | .head | .snapshot => .top
  | .painting _ => .painting
  | .lock site | .test site _ _ | .enter site _ | .blocked site _ | .woken site _ _ | .leave site =>
    site.stage

/-- The wait that the thread is in, and until when. -/
def Pc.wait? : Pc → Option (Site × Nat)
  | .test site deadline _ | .enter site deadline | .blocked site deadline
  | .woken site deadline _ => some (site, deadline)
  | _ => none

@[simp] theorem stage_notified (pc : Pc) : pc.notified.stage = pc.stage := by
  cases pc <;> rfl

@[simp] theorem wait_notified (pc : Pc) : pc.notified.wait? = pc.wait? := by
  cases pc <;> rfl

variable {s s' : State} {a : Act} {o : Own} {c : Credentials}

/-! ## What a step can do -/

/-- What the results speak about, beside the place of the thread. -/
def State.data (s : State) :=
  (s.credentials_, s.dirty_, s.setLast, s.attempted, s.shown, s.runs, s.log, s.outcome)

/-- A step that at most moves on: within its part, behind the wait to the top, or out of `_run`. -/
structure Keeps (s s' : State) : Prop where
  data : s'.data = s.data
  stage : s'.worker.stage = .out ∧
      (s.worker.stage = .top ∨ s.worker.stage = .wait → s.stopRequested = true) ∨
    s'.worker.stage = s.worker.stage ∨ s.worker.stage = .wait ∧ s'.worker.stage = .top
  wait : ∀ w ∈ s'.worker.wait?, w ∈ s.worker.wait? ∨ w.2 = s.now + w.1.period
  now : s.now ≤ s'.now

theorem Keeps.eqs (h : Keeps s s') :
    s'.credentials_ = s.credentials_ ∧ s'.dirty_ = s.dirty_ ∧ s'.setLast = s.setLast ∧
      s'.attempted = s.attempted ∧ s'.shown = s.shown ∧ s'.runs = s.runs ∧ s'.log = s.log ∧
      s'.outcome = s.outcome := by
  simpa only [State.data, Prod.mk.injEq] using h.data

theorem Keeps.of_top (h : Keeps s s') (htop : s'.worker.stage = .top) :
    s.worker.stage = .top ∨ s.worker.stage = .wait := by
  obtain ⟨hstage, -⟩ | hstage | ⟨hstage, -⟩ := h.stage
  · rw [hstage] at htop
    cases htop
  · exact .inl (hstage ▸ htop)
  · exact .inr hstage

theorem Keeps.stage_eq (h : Keeps s s') (hout : s'.worker.stage ≠ .out)
    (htop : s'.worker.stage ≠ .top) :
    s.worker.stage = s'.worker.stage := by
  obtain ⟨hstage, -⟩ | hstage | ⟨-, hstage⟩ := h.stage
  · exact absurd hstage hout
  · exact hstage.symm
  · exact absurd hstage htop

/-- A step of the thread out of `_run`, to a place where it does not wait. -/
theorem Keeps.out {pc : Pc} (hpc : pc.stage = .out) (hwait : pc.wait? = none)
    (hstop : s.worker.stage = .top ∨ s.worker.stage = .wait → s.stopRequested = true) :
    Keeps s (s.goto pc) :=
  ⟨rfl, .inl ⟨hpc, hstop⟩, by simp [State.goto, hwait], Nat.le_refl _⟩

/-- A step of the thread within its part. -/
theorem Keeps.within {pc : Pc} (hpc : pc.stage = s.worker.stage)
    (hwait : ∀ w ∈ pc.wait?, w ∈ s.worker.wait? ∨ w.2 = s.now + w.1.period) : Keeps s (s.goto pc) :=
  ⟨rfl, .inr (.inl hpc), hwait, Nat.le_refl _⟩

/-- The screen is shown, and nothing asks for another paint. -/
def State.Shown (s : State) : Prop := s.shown = true ∧ s.dirty_ = false ∧ s.isCleared = false

/-- What the next statement can do. -/
theorem next_cases (h : next s = some s') :
    Keeps s s' ∨ s.worker = .start ∧ s' = s.enter ∨
    s.worker = .snapshot ∧ ¬ s.Shown ∧ s' = s.attempt ∨
    s.worker = .snapshot ∧ s.Shown ∧ s' = s.goto (.lock .recheck) := by
  unfold next at h
  split at h
  next hpc => -- start
    cases h
    split
    · exact .inl (.out rfl rfl (by simp [hpc, Pc.stage]))
    · exact .inr (.inl ⟨hpc, rfl⟩)
  next hpc => -- head
    cases h
    split
    next hstop => exact .inl (.out rfl rfl fun _ => hstop)
    · exact .inl (.within (by rw [hpc]; rfl) (by simp [Pc.wait?]))
  next hpc => -- snapshot
    cases h
    split
    next hpaint =>
      refine .inr (.inr (.inl ⟨hpc, ?_, rfl⟩))
      rintro ⟨hshown, hdirty, hcleared⟩
      simp [hshown, hdirty, hcleared] at hpaint
    next hpaint =>
      obtain ⟨⟨hshown, hdirty⟩, hcleared⟩ :
          (s.shown = true ∧ s.dirty_ = false) ∧ s.isCleared = false := by
        simpa using hpaint
      refine .inr (.inr (.inr ⟨hpc, ⟨hshown, hdirty, hcleared⟩, ?_⟩))
      rw [← hdirty]
      rfl
  next hpc => -- failed
    split at h
    · cases h
      exact .inl (.out rfl rfl (by simp [hpc, Pc.stage]))
    · split at h
      · cases h
        exact .inl ⟨rfl, .inl ⟨rfl, by simp [hpc, Pc.stage]⟩, by simp [Pc.wait?], Nat.le_refl _⟩
      · cases h
        exact .inl (.out rfl rfl (by simp [hpc, Pc.stage]))
  next site hpc => -- lock
    cases h
    exact .inl (.within (by rw [hpc]; rfl) (by simp [Pc.wait?]))
  next site deadline late hpc => -- test
    cases h
    split
    · exact .inl (.within (by rw [hpc]; rfl) (by simp [Pc.wait?]))
    · exact .inl (.within (by rw [hpc]; rfl) (by simp [Pc.wait?, hpc]))
  next site deadline hpc => -- enter
    cases h
    exact .inl (.within (by rw [hpc]; rfl) (by simp [Pc.wait?, hpc]))
  next site deadline hpc => -- blocked
    obtain ⟨-, h⟩ := Option.ite_none_right_eq_some.mp h
    cases h
    exact .inl (.within (by rw [hpc]; rfl) (by simp [Pc.wait?, hpc]))
  next site deadline late hpc => -- woken
    cases h
    exact .inl (.within (by rw [hpc]; rfl) (by simp [Pc.wait?, hpc]))
  next hpc => -- leave
    cases h
    exact .inl ⟨rfl, .inr (.inr ⟨by rw [hpc]; rfl, rfl⟩), by simp [State.goto, Pc.wait?],
      Nat.le_refl _⟩
  next hpc =>
    cases h
    exact .inl (.out rfl rfl (by simp [hpc, Pc.stage, Site.stage]))
  all_goals cases h

/-- What a step can do. -/
theorem step_cases (h : step s a = some s') :
    Keeps s s' ∨ s.worker = .start ∧ s' = s.enter ∨
    s.worker = .snapshot ∧ ¬ s.Shown ∧ s' = s.attempt ∨
    s.worker = .snapshot ∧ s.Shown ∧ s' = s.goto (.lock .recheck) ∨
    (∃ accepted, s.worker = .painting accepted ∧
      s' = { s with worker := .lock .recheck, shown := accepted, outcome := some accepted }) ∨
    ∃ c, a = .setCredentials c ∧ s' = s.set c := by
  cases a with
  | own o =>
    cases o with
    | next =>
      obtain h | h | h | h := next_cases h
      · exact .inl h
      · exact .inr (.inl h)
      · exact .inr (.inr (.inl h))
      · exact .inr (.inr (.inr (.inl h)))
    | shows =>
      obtain ⟨hpc, h⟩ := Option.ite_none_right_eq_some.mp h
      cases h
      exact .inl ⟨rfl, .inr (.inl (by rw [hpc]; rfl)), by simp [Pc.wait?], Nat.le_refl _⟩
    | returns =>
      simp only [step, ownStep] at h
      split at h
      next accepted hpc =>
        cases h
        exact .inr (.inr (.inr (.inr (.inl ⟨accepted, hpc, rfl⟩))))
      · cases h
    | throws =>
      simp only [step, ownStep] at h
      split at h
      next accepted hpc =>
        cases h
        exact .inl (.out rfl rfl (by simp [hpc, Pc.stage]))
      · cases h
  | setCredentials c =>
    obtain ⟨-, h⟩ := Option.ite_none_left_eq_some.mp h
    cases h
    exact .inr (.inr (.inr (.inr (.inr ⟨c, rfl, rfl⟩))))
  | tick ticks =>
    cases h
    exact .inl ⟨rfl, .inr (.inl rfl), fun w hw => .inl hw, Nat.le_add_right _ _⟩
  | panel =>
    cases h
    exact .inl ⟨rfl, .inr (.inl rfl), fun w hw => .inl hw, Nat.le_refl _⟩
  | notifyOne | spurious | notifyAll =>
    obtain ⟨-, h⟩ := Option.ite_none_right_eq_some.mp h
    cases h
    exact .inl ⟨rfl, .inr (.inl (stage_notified _)), fun w hw => .inl (wait_notified _ ▸ hw),
      Nat.le_refl _⟩
  | requestStop =>
    obtain ⟨-, h⟩ := Option.ite_none_right_eq_some.mp h
    cases h
    exact .inl ⟨rfl, .inr (.inl rfl), fun w hw => .inl hw, Nat.le_refl _⟩
  | start | join =>
    obtain ⟨⟨hpc, -⟩, h⟩ := Option.ite_none_right_eq_some.mp h
    cases h
    exact .inl ⟨rfl, .inl ⟨rfl, by simp [hpc, Pc.stage]⟩, by simp [Pc.wait?], Nat.le_refl _⟩

/-! ## At rest -/

/-- Unless new credentials wait to be painted, the newest paint is of the present ones. -/
def Newest (s : State) : Prop :=
  s.dirty_ = false → s.log.head?.map Attempt.credentials = some s.credentials_

structure Inv (s : State) : Prop where
  setLast : s.setLast = s.credentials_
  current : ∀ a ∈ s.log, a.credentials = a.setLast
  top : s.worker.stage = .top → s.shown = true → s.outcome = some true ∧ Newest s
  painting : s.worker.stage = .painting → Newest s
  wait : s.worker.stage = .wait → s.outcome = some s.shown ∧ Newest s

theorem Newest.congr (h : Newest s) (hcred : s'.credentials_ = s.credentials_)
    (hdirty : s'.dirty_ = s.dirty_) (hlog : s'.log = s.log) : Newest s' := by
  unfold Newest at *
  rwa [hcred, hdirty, hlog]

theorem Newest.set (h : Newest s) (c : Credentials) : Newest (s.set c) := by
  unfold State.set
  split
  · exact h
  · exact fun hdirty => by cases hdirty

theorem Inv.keeps (h : Inv s) (hk : Keeps s s') : Inv s' := by
  obtain ⟨hcred, hdirty, hset, -, hshown, -, hlog, hout⟩ := hk.eqs
  have hnewest (hn : Newest s) : Newest s' := hn.congr hcred hdirty hlog
  refine ⟨by rw [hset, hcred, h.setLast], by rw [hlog]; exact h.current, fun htop hs => ?_,
    fun hp => ?_, fun hw => ?_⟩
  · rw [hshown] at hs
    rw [hout]
    obtain hstage | hstage := hk.of_top htop
    · obtain ⟨hdone, hn⟩ := h.top hstage hs
      exact ⟨hdone, hnewest hn⟩
    · obtain ⟨hdone, hn⟩ := h.wait hstage
      exact ⟨hs ▸ hdone, hnewest hn⟩
  · have hstage := hk.stage_eq (by rw [hp]; decide) (by rw [hp]; decide)
    exact hnewest (h.painting (hstage.trans hp))
  · have hstage := hk.stage_eq (by rw [hw]; decide) (by rw [hw]; decide)
    obtain ⟨hdone, hn⟩ := h.wait (hstage.trans hw)
    exact ⟨by rw [hout, hshown, hdone], hnewest hn⟩

theorem Inv.set (h : Inv s) (c : Credentials) : Inv (s.set c) := by
  constructor
  · unfold State.set
    split
    next heq => exact heq
    · rfl
  · rw [set_log]
    exact h.current
  · rw [set_worker, set_shown, set_outcome]
    exact fun htop hs => (h.top htop hs).imp_right fun hn => hn.set c
  · rw [set_worker]
    exact fun hp => (h.painting hp).set c
  · rw [set_worker, set_shown, set_outcome]
    exact fun hw => (h.wait hw).imp_right fun hn => hn.set c

theorem Inv.step (h : Inv s) (hs : step s a = some s') : Inv s' := by
  obtain hk | ⟨-, rfl⟩ | ⟨-, -, rfl⟩ | ⟨hpc, hshown, rfl⟩ | ⟨accepted, hpc, rfl⟩ | ⟨c, -, rfl⟩ :=
    step_cases hs
  · exact h.keeps hk
  · exact ⟨h.setLast, h.current, by rintro - ⟨⟩, by rintro ⟨⟩, by rintro ⟨⟩⟩
  · refine ⟨h.setLast, List.forall_mem_cons.mpr ⟨h.setLast.symm, h.current⟩, by rintro ⟨⟩,
      fun _ _ => rfl, by rintro ⟨⟩⟩
  · -- nothing to paint: the newest paint has succeeded
    obtain ⟨hdone, hn⟩ := h.top (by rw [hpc]; rfl) hshown.1
    refine ⟨h.setLast, h.current, by rintro ⟨⟩, by rintro ⟨⟩, fun _ => ⟨?_, hn⟩⟩
    exact hdone.trans (congrArg some hshown.1.symm)
  · exact ⟨h.setLast, h.current, by rintro ⟨⟩, by rintro ⟨⟩,
      fun _ => ⟨rfl, h.painting (by rw [hpc]; rfl)⟩⟩
  · exact h.set c

theorem inv_of_reachable (hr : machine.Reachable s) : Inv s := by
  induction hr with
  | init h0 =>
    rw [h0]
    exact ⟨rfl, List.forall_mem_nil _, by rintro ⟨⟩, by rintro ⟨⟩, by rintro ⟨⟩⟩
  | step _ _ hs ih => exact ih.step hs

/-- A wait ends when its time is up. -/
theorem deadline_le (hr : machine.Reachable s) :
    ∀ w ∈ s.worker.wait?, w.2 ≤ s.now + w.1.period := by
  induction hr with
  | init h0 =>
    rw [h0]
    rintro w ⟨⟩
  | step _ _ hs ih =>
    obtain hk | ⟨-, rfl⟩ | ⟨-, -, rfl⟩ | ⟨-, -, rfl⟩ | ⟨accepted, -, rfl⟩ | ⟨c, -, rfl⟩ :=
      step_cases hs
    · intro w hw
      have hnow := hk.now
      obtain hold | hnew := hk.wait w hw
      · have hle := ih w hold
        omega
      · omega
    · rintro w ⟨⟩
    · rintro w ⟨⟩
    · rintro w ⟨⟩
    · rintro w ⟨⟩
    · rw [set_worker, set_now]
      exact ih

/-- Time, wake-ups and credentials that are already set are no reason to paint. -/
def Harmless (c : Credentials) : Act → Prop
  | .setCredentials c' => c' = c
  | .panel cleared => cleared = false
  | .requestStop => False
  | _ => True

/-- The screen with the credentials is up, and the thread sees no reason to paint. -/
structure Rests (c : Credentials) (log : List Attempt) (s : State) : Prop where
  shown : s.Shown
  credentials : s.credentials_ = c
  running : s.stopRequested = false
  stage : s.worker.stage = .top ∨ s.worker.stage = .wait
  log : s.log = log

theorem next_frame (h : next s = some s') :
    s'.isCleared = s.isCleared ∧ s'.stopRequested = s.stopRequested := by
  unfold next at h
  repeat' split at h
  all_goals cases h
  all_goals first
    | exact ⟨rfl, rfl⟩
    | (split <;> exact ⟨rfl, rfl⟩)

/-- Who can wipe the panel or request a stop. -/
theorem frame_of_harmless (hs : step s a = some s') (ha : Harmless c a) (hc : s.isCleared = false)
    (hr : s.stopRequested = false) : s'.isCleared = false ∧ s'.stopRequested = false := by
  cases a with
  | own o =>
    cases o with
    | next =>
      obtain ⟨hcleared, hstop⟩ := next_frame hs
      exact ⟨hcleared.trans hc, hstop.trans hr⟩
    | shows =>
      obtain ⟨-, h⟩ := Option.ite_none_right_eq_some.mp hs
      cases h
      exact ⟨rfl, hr⟩
    | returns | throws =>
      simp only [step, ownStep] at hs
      split at hs <;> cases hs
      exact ⟨hc, hr⟩
  | setCredentials c =>
    obtain ⟨-, h⟩ := Option.ite_none_left_eq_some.mp hs
    cases h
    rw [set_isCleared, set_stopRequested]
    exact ⟨hc, hr⟩
  | tick =>
    cases hs
    exact ⟨hc, hr⟩
  | panel cleared =>
    cases hs
    exact ⟨ha, hr⟩
  | requestStop => exact ha.elim
  | start =>
    obtain ⟨-, h⟩ := Option.ite_none_right_eq_some.mp hs
    cases h
    exact ⟨hc, rfl⟩
  | notifyOne | spurious | notifyAll | join =>
    obtain ⟨-, h⟩ := Option.ite_none_right_eq_some.mp hs
    cases h
    exact ⟨hc, hr⟩

theorem Rests.step {log : List Attempt} (h : Rests c log s) (ha : Harmless c a)
    (hs : step s a = some s') :
    Rests c log s' := by
  obtain ⟨hcleared, hrunning⟩ := frame_of_harmless hs ha h.shown.2.2 h.running
  obtain hk | ⟨hpc, rfl⟩ | ⟨-, hnot, rfl⟩ | ⟨hpc, hshown, rfl⟩ | ⟨accepted, hpc, rfl⟩ |
    ⟨c', rfl, rfl⟩ := step_cases hs
  · obtain ⟨hcred, hdirty, -, -, hshown, -, hlog, -⟩ := hk.eqs
    refine ⟨⟨hshown.trans h.shown.1, hdirty.trans h.shown.2.1, hcleared⟩,
      hcred.trans h.credentials, hrunning, ?_, hlog.trans h.log⟩
    obtain ⟨-, hstop⟩ | hstage | ⟨-, hstage⟩ := hk.stage
    · have hrequested := hstop h.stage
      rw [h.running] at hrequested
      cases hrequested
    · rw [hstage]
      exact h.stage
    · exact .inl hstage
  · simpa [hpc, Pc.stage] using h.stage
  · exact absurd h.shown hnot
  · exact ⟨hshown, h.credentials, hrunning, .inr rfl, h.log⟩
  · simpa [hpc, Pc.stage] using h.stage
  · -- the same credentials again
    obtain rfl : c' = c := ha
    have hset : s.set c' = { s with setLast := c' } := if_pos h.credentials.symm
    rw [hset] at hcleared hrunning ⊢
    exact ⟨h.shown, h.credentials, h.running, h.stage, h.log⟩

/-! ## The first paint of a run -/

/-- Of each run exactly the first paint is immediate. -/
def FirstImmediate : List Attempt → Prop
  | [] => True
  | a :: older => (a.policy = .immediate ↔ ∀ b ∈ older, b.run ≠ a.run) ∧ FirstImmediate older

structure Counted (s : State) : Prop where
  le : ∀ a ∈ s.log, a.run ≤ s.runs
  attempted : s.worker.stage ≠ .out → (s.attempted = true ↔ ∃ a ∈ s.log, a.run = s.runs)
  first : FirstImmediate s.log

theorem Counted.step (h : Counted s) (hs : step s a = some s') : Counted s' := by
  obtain hk | ⟨-, rfl⟩ | ⟨hpc, -, rfl⟩ | ⟨hpc, -, rfl⟩ | ⟨accepted, hpc, rfl⟩ | ⟨c, -, rfl⟩ :=
    step_cases hs
  · obtain ⟨-, -, -, hattempted, -, hruns, hlog, -⟩ := hk.eqs
    refine ⟨by rw [hlog, hruns]; exact h.le, fun hstage => ?_, by rw [hlog]; exact h.first⟩
    rw [hattempted, hlog, hruns]
    apply h.attempted
    obtain ⟨hstage', -⟩ | hstage' | ⟨hstage', -⟩ := hk.stage
    · exact absurd hstage' hstage
    · rwa [← hstage']
    · rw [hstage']
      decide
  · -- no paint has the number of the new run
    refine ⟨fun a ha => Nat.le_succ_of_le (h.le a ha),
      fun _ => iff_of_false Bool.false_ne_true ?_, h.first⟩
    rintro ⟨a, ha, hrun⟩
    have hle := h.le a ha
    have hrun : a.run = s.runs + 1 := hrun
    omega
  · have hattempted := h.attempted (by rw [hpc]; decide)
    refine ⟨List.forall_mem_cons.mpr ⟨Nat.le_refl _, h.le⟩, fun _ => ?_, ?_, h.first⟩
    · exact iff_of_true rfl ⟨_, List.mem_cons_self, rfl⟩
    · show (if s.attempted then RefreshPolicy.respectMinInterval else .immediate) = .immediate ↔
        ∀ b ∈ s.log, b.run ≠ s.runs
      cases hcase : s.attempted with
      | false =>
        refine iff_of_true rfl fun b hb hrun => ?_
        rw [hattempted.mpr ⟨b, hb, hrun⟩] at hcase
        cases hcase
      | true =>
        obtain ⟨b, hb, hrun⟩ := hattempted.mp hcase
        exact iff_of_false (by decide) fun hall => hall b hb hrun
  · exact ⟨h.le, fun _ => h.attempted (by rw [hpc]; decide), h.first⟩
  · exact ⟨h.le, fun _ => h.attempted (by rw [hpc]; rintro ⟨⟩), h.first⟩
  · constructor
    · rw [set_log, set_runs]
      exact h.le
    · rw [set_worker, set_attempted, set_log, set_runs]
      exact h.attempted
    · rw [set_log]
      exact h.first

theorem counted_of_reachable (hr : machine.Reachable s) : Counted s := by
  induction hr with
  | init h0 =>
    rw [h0]
    exact ⟨List.forall_mem_nil _, fun hout => absurd rfl hout, trivial⟩
  | step _ _ hs ih => exact ih.step hs

end ShareFrame.ApNetworkSetupScreen
