import ShareFrame.Lib.Machine

/-!
# Stopping a task that waits

`Task::stop` requests the stop, notifies `cv_` and joins, without `mtx_`. The
worker is in one of four loops whose timed wait looks at the stop token in its
predicate. The wait evaluates the predicate under `mtx_` and then blocks; a
notification reaches it only when it is blocked. `stop` wakes the worker unless
its notification falls between the two (`wakes_iff`).
-/

namespace ShareFrame.TaskStop

open Transition

/-- The loops with such a wait. -/
inductive Site where
  /-- `DisplayClear::_run`; the flag is `clearRequested_` -/
  | displayClear
  /-- `PeriodicTask::_run`; the flag is `runNow_` -/
  | periodicTask
  /-- the inactive wait of `DisplayImageLoop::_run`; the flag is `isSlideshowActive()` -/
  | displayImageLoop
  /-- the back-off wait of `Task::start`, with no flag -/
  | backoff
  deriving DecidableEq, Repr

/-- The predicate of the wait. -/
def predicate : Site → (stop flag : Bool) → Bool
  | .backoff, stop, _ => stop
  | _, stop, flag => stop || flag

/-- The flag behind the wait. -/
def afterWait : Site → Bool → Bool
  | .displayClear, _ | .periodicTask, _ => false
  | _, flag => flag

inductive WorkerPc where
  /-- `while (!st.stop_requested())` -/
  | loop
  /-- what the loop does before the wait -/
  | body
  /-- the check of `Task::start` behind a failed `_run` -/
  | check
  | lock
  /-- in the wait, with `mtx_`; `late` when the time is up -/
  | test (late : Bool)
  /-- the predicate was false -/
  | enter
  | blocked
  | woken (late : Bool)
  /-- the wait is over, with `mtx_` -/
  | leave
  /-- the check of `DisplayClear` behind the wait, and its clear -/
  | recheck
  | clearing
  | exited
  deriving DecidableEq, Repr

/-- Where `Task::stop` is. -/
inductive StopPc where
  | out
  | requested
  | joining
  | joined
  deriving DecidableEq, Repr

structure State where
  stopRequested : Bool := false
  flag : Bool := false
  worker : WorkerPc := .loop
  stop : StopPc := .out
  /-- handlers that have changed the flag and will call `notify_one` -/
  notifies : Nat := 0
  deriving DecidableEq, Repr

inductive Act where
  | request
  /-- `cv_.notify_all()` of `stop` -/
  | notify
  | join
  /-- a handler, under `mtx_` -/
  | set (flag : Bool)
  | notifyOne
  | loop
  /-- the body ends in front of the wait, at the head of the loop, or returns -/
  | arrive
  | skip
  | finish
  | check
  | lock
  | test
  | block
  | timeout
  | spurious
  | relock
  | leave
  | recheck
  | cleared
  deriving DecidableEq, Repr

/-- The worker has `mtx_`. -/
def WorkerPc.holds : WorkerPc → Bool
  | .test _ | .enter | .leave => true
  | _ => false

/-- What a notification does to it. -/
def WorkerPc.notified : WorkerPc → WorkerPc
  | .blocked => .woken false
  | pc => pc

variable (site : Site)

/-- One step of the worker. -/
def workerStep (s : State) : Act → Option WorkerPc
  | .loop => if s.worker = .loop then some (if s.stopRequested then .exited else .body) else none
  | .arrive =>
    if s.worker = .body then some (if site = .backoff then .check else .lock) else none
  | .skip => if s.worker = .body ∧ site = .displayImageLoop then some .loop else none
  | .finish => if s.worker = .body ∧ site = .backoff then some .exited else none
  | .check => if s.worker = .check then some (if s.stopRequested then .exited else .lock) else none
  | .lock => if s.worker = .lock then some (.test false) else none
  | .test =>
    match s.worker with
    | .test late => some (if predicate site s.stopRequested s.flag || late then .leave else .enter)
    | _ => none
  | .block => if s.worker = .enter then some .blocked else none
  | .timeout => if s.worker = .blocked then some (.woken true) else none
  | .spurious => if s.worker = .blocked then some (.woken false) else none
  | .relock =>
    match s.worker with
    | .woken late => some (.test late)
    | _ => none
  | .leave =>
    if s.worker = .leave then some (if site = .displayClear then .recheck else .loop) else none
  | .recheck =>
    if s.worker = .recheck then some (if s.stopRequested then .exited else .clearing) else none
  | .cleared => if s.worker = .clearing then some .loop else none
  | _ => none

def step (s : State) : Act → Option State
  | .request =>
    if s.stop = .out then some { s with stop := .requested, stopRequested := true } else none
  | .notify =>
    if s.stop = .requested then some { s with stop := .joining, worker := s.worker.notified } else none
  | .join =>
    if s.stop = .joining ∧ s.worker = .exited then some { s with stop := .joined } else none
  | .set flag =>
    if s.worker.holds = false ∧ (flag = true ∨ site = .displayImageLoop) then
      some { s with flag, notifies := s.notifies + 1 }
    else none
  | .notifyOne =>
    if 0 < s.notifies then
      some { s with worker := s.worker.notified, notifies := s.notifies - 1 }
    else none
  | .leave => (workerStep site s .leave).map fun worker =>
      { s with worker, flag := afterWait site s.flag }
  | a => (workerStep site s a).map fun worker => { s with worker }

def machine : Machine State Act := ⟨fun s => s = {}, step site⟩

/-- `stop` has notified and joins while the worker is blocked: only the time, or a notification for
another reason, can end the wait. -/
def Stuck (s : State) : Prop := s.stop = .joining ∧ s.stopRequested ∧ s.worker = .blocked

instance (s : State) : Decidable (Stuck s) := by unfold Stuck; infer_instance

/-- The notification of `stop` does not fall between the predicate and the block. -/
def Timely (s : State) : Act → Prop
  | .notify => s.worker ≠ .enter
  | _ => True

instance (s : State) (a : Act) : Decidable (Timely s a) := by
  cases a <;> unfold Timely <;> infer_instance

variable {site} {s s' t : State} {a : Act}

/-- What is behind the notification of a stop that the worker has seen or will see. -/
structure Woken (s : State) : Prop where
  requested : s.stopRequested
  worker : s.worker ≠ .enter ∧ s.worker ≠ .blocked

theorem predicate_stop (flag : Bool) : predicate site true flag = true := by
  cases site <;> rfl

theorem Woken.notified (h : Woken s) : s.worker.notified = s.worker := by
  unfold WorkerPc.notified
  split
  · exact absurd ‹_› h.worker.2
  · rfl

/-- The predicate is true from then on. -/
theorem Woken.workerStep {pc : WorkerPc} (h : Woken s) (hs : workerStep site s a = some pc) :
    pc ≠ .enter ∧ pc ≠ .blocked := by
  cases a with
  | loop | check | recheck =>
    obtain ⟨-, hpc⟩ := Option.ite_none_right_eq_some.mp hs
    cases hpc
    split <;> exact ⟨nofun, nofun⟩
  | arrive | leave =>
    obtain ⟨-, hpc⟩ := Option.ite_none_right_eq_some.mp hs
    cases hpc
    split <;> exact ⟨nofun, nofun⟩
  | skip | finish | lock | timeout | spurious | cleared =>
    obtain ⟨-, hpc⟩ := Option.ite_none_right_eq_some.mp hs
    cases hpc
    exact ⟨nofun, nofun⟩
  | test =>
    simp only [TaskStop.workerStep, h.requested, predicate_stop] at hs
    split at hs <;> cases hs
    exact ⟨nofun, nofun⟩
  | block =>
    obtain ⟨henter, -⟩ := Option.ite_none_right_eq_some.mp hs
    exact absurd henter h.worker.1
  | relock =>
    simp only [TaskStop.workerStep] at hs
    split at hs <;> cases hs
    exact ⟨nofun, nofun⟩
  | _ => cases hs

/-- A step of the worker, or of someone else. -/
theorem worker_of_step (hs : step site s a = some s') :
    (∃ pc, workerStep site s a = some pc ∧ s'.worker = pc ∧ s'.stopRequested = s.stopRequested ∧
      s'.stop = s.stop) ∨
    (s'.worker = s.worker ∨ s'.worker = s.worker.notified) ∧
      (s.stopRequested → s'.stopRequested) := by
  cases a with
  | request =>
    obtain ⟨-, hs⟩ := Option.ite_none_right_eq_some.mp hs
    cases hs
    exact .inr ⟨.inl rfl, fun _ => rfl⟩
  | join | set flag =>
    obtain ⟨-, hs⟩ := Option.ite_none_right_eq_some.mp hs
    cases hs
    exact .inr ⟨.inl rfl, id⟩
  | notify | notifyOne =>
    obtain ⟨-, hs⟩ := Option.ite_none_right_eq_some.mp hs
    cases hs
    exact .inr ⟨.inr rfl, id⟩
  | _ =>
    obtain ⟨pc, hpc, rfl⟩ := Option.map_eq_some_iff.mp hs
    exact .inl ⟨pc, hpc, rfl, rfl, rfl⟩

theorem Woken.step (h : Woken s) (hs : step site s a = some s') : Woken s' := by
  obtain ⟨pc, hpc, rfl, hrequested, -⟩ | ⟨hworker, hrequested⟩ := worker_of_step hs
  · exact ⟨hrequested ▸ h.requested, h.workerStep hpc⟩
  · refine ⟨hrequested h.requested, ?_⟩
    obtain hworker | hworker := hworker
    · exact hworker ▸ h.worker
    · rw [hworker, h.notified]
      exact h.worker

theorem requested_inductive : (machine site).Inductive (fun _ _ => True) fun s =>
    s.stop ≠ .out → s.stopRequested where
  init s h := by
    obtain rfl : s = {} := h
    exact fun hout => absurd rfl hout
  step s a s' h _ hs := by
    have hs : step site s a = some s' := hs
    cases a with
    | request =>
      obtain ⟨-, hs⟩ := Option.ite_none_right_eq_some.mp hs
      cases hs
      exact fun _ => rfl
    | notify =>
      obtain ⟨hpc, hs⟩ := Option.ite_none_right_eq_some.mp hs
      cases hs
      exact fun _ => h (by rw [hpc]; nofun)
    | join =>
      obtain ⟨hpc, hs⟩ := Option.ite_none_right_eq_some.mp hs
      cases hs
      exact fun _ => h (by rw [hpc.1]; nofun)
    | set | notifyOne =>
      obtain ⟨-, hs⟩ := Option.ite_none_right_eq_some.mp hs
      cases hs
      exact h
    | _ =>
      obtain ⟨pc, hpc, rfl⟩ := Option.map_eq_some_iff.mp hs
      exact h

/-- A timely notification. -/
theorem woken_of_notify (hr : (machine site).Reachable s) (htimely : Timely s .notify)
    (hs : step site s .notify = some s') : Woken s' := by
  obtain ⟨hpc, hs⟩ := Option.ite_none_right_eq_some.mp hs
  have hrequested := requested_inductive.of_reachable hr (by rw [hpc]; nofun)
  cases hs
  refine ⟨hrequested, ?_⟩
  show s.worker.notified ≠ .enter ∧ s.worker.notified ≠ .blocked
  unfold WorkerPc.notified
  split
  · exact ⟨nofun, nofun⟩
  next hblocked => exact ⟨htimely, hblocked⟩

theorem joining_of_step (hs : step site s a = some s') (h : s'.stop = .joining) :
    a = .notify ∨ s.stop = .joining := by
  cases a with
  | notify => exact .inl rfl
  | request | join =>
    obtain ⟨-, hs⟩ := Option.ite_none_right_eq_some.mp hs
    cases hs
    cases h
  | set | notifyOne =>
    obtain ⟨-, hs⟩ := Option.ite_none_right_eq_some.mp hs
    cases hs
    exact .inr h
  | _ =>
    obtain ⟨pc, -, rfl⟩ := Option.map_eq_some_iff.mp hs
    exact .inr h

theorem woken_of_joining (hr : (machine site).ReachableBy Timely s) (h : s.stop = .joining) :
    Woken s := by
  induction hr with
  | init h0 =>
    obtain rfl : _ = ({} : State) := h0
    cases h
  | step hr hG hs ih =>
    obtain rfl | hold := joining_of_step hs h
    · exact woken_of_notify hr.reachable hG hs
    · exact (ih hold).step hs

/-- `stop` wakes the worker, for good, if and only if its notification does not fall between the
predicate and the block. -/
theorem wakes_iff (site : Site) :
    (∀ s, (machine site).ReachableBy Timely s → ¬ Stuck s) ∧
    ∀ s s', (machine site).Reachable s → step site s .notify = some s' →
      ((∀ as t, (machine site).run s' as = some t → ¬ Stuck t) ↔ Timely s .notify) := by
  refine ⟨fun s hr hstuck => (woken_of_joining hr hstuck.1).worker.2 hstuck.2.2,
    fun s s' hr hs => ⟨fun h henter => ?_, fun htimely as t hrun hstuck => ?_⟩⟩
  · obtain ⟨hpc, hs⟩ := Option.ite_none_right_eq_some.mp hs
    have hrequested := requested_inductive.of_reachable hr (by rw [hpc]; nofun)
    cases hs
    have hnotified : s.worker.notified = .enter := by rw [henter]; rfl
    refine h [.block] { s with stop := .joining, worker := .blocked } ?_ ⟨rfl, hrequested, rfl⟩
    simp [Machine.run, machine, step, workerStep, hnotified]
  · have hwoken : Woken t :=
      Machine.RunBy.invariant (G := fun _ _ => True) (fun _ _ _ h _ hs => h.step hs)
        ⟨Machine.meets_true, hrun⟩ (woken_of_notify hr htimely hs)
    exact hwoken.worker.2 hstuck.2.2

/-- At each of the waits: the worker has found the predicate false, `stop` comes and goes, and the
worker blocks. -/
theorem stuck_reachable : ¬ ∃ site, ∀ s, (machine site).Reachable s → ¬ Stuck s := by
  rintro ⟨site, hnone⟩
  suffices h : ∃ s, (machine site).Reachable s ∧ Stuck s by
    obtain ⟨s, hs, hstuck⟩ := h
    exact hnone s hs hstuck
  cases site with
  | backoff =>
    exact Machine.exists_reachable_of_run
      [.loop, .arrive, .check, .lock, .test, .request, .notify, .block] rfl ⟨_, rfl, by decide⟩
  | _ =>
    exact Machine.exists_reachable_of_run
      [.loop, .arrive, .lock, .test, .request, .notify, .block] rfl ⟨_, rfl, by decide⟩

/-- A stop that comes when the worker is blocked. -/
theorem wakes_iff_blocked :
    ∃ s, (machine .displayClear).run {} [.loop, .arrive, .lock, .test, .block, .request, .notify] =
      some s ∧ s.stop = .joining ∧ ¬ Stuck s := by
  refine ⟨_, rfl, rfl, (wakes_iff .displayClear).1 _ ?_⟩
  exact Machine.ReachableBy.run [.loop, .arrive, .lock, .test, .block, .request, .notify] (.init rfl)
    (by decide) rfl

end ShareFrame.TaskStop
