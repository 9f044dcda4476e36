import ShareFrame.Display.DisplayManager
import ShareFrame.Task.Task

/-!
# The Wi-Fi setup screen

The thread of `ApNetworkSetupScreen` paints the credentials of the access point,
waits for `kRecheck` and paints again when it has not succeeded, when new ones were
set or when the panel was cleared. `step` is one atomic step of the thread, of a
caller of `setCredentials`, `start` or `stop`, of another user of the panel, or of
time. The critical sections of `mtx_` are one step each, but for the timed waits, which
test their predicate under `mtx_` and then block. What the panel answers is part of
the label. Fields marked *ghost* are never read by a step.
-/

namespace ShareFrame.ApNetworkSetupScreen

open Transition
open DisplayManager (RefreshPolicy)

structure Credentials where
  ssid : String := ""
  password : String := ""
  deriving DecidableEq, Repr

abbrev kRecheck : Nat := 5 * second

/-- The timed waits of the thread. -/
inductive Site where
  /-- the end of the loop of `_run` -/
  | recheck
  /-- `Task::start` behind an exception -/
  | backoff (secs : Nat)
  deriving DecidableEq, Repr

def Site.period : Site → Nat
  | recheck => kRecheck
  | backoff secs => secs * second

/-- Where the thread is. -/
inductive Pc where
  /-- there is none -/
  | idle
  /-- `while (!st.stop_requested())` of `Task::start` -/
  | start
  /-- `while (!st.stop_requested())` of `_run` -/
  | head
  | snapshot
  /-- in `render` or `displayBuffer`; `accepted` once the panel shows the screen -/
  | painting (accepted : Bool)
  /-- `_run` threw -/
  | failed
  | lock (site : Site)
  /-- in the wait, with `mtx_`; `late` when the time is up -/
  | test (site : Site) (deadline : Nat) (late : Bool)
  /-- the predicate was false -/
  | enter (site : Site) (deadline : Nat)
  | blocked (site : Site) (deadline : Nat)
  | woken (site : Site) (deadline : Nat) (late : Bool)
  /-- the wait is over, with `mtx_` -/
  | leave (site : Site)
  | exited
  | aborted
  deriving DecidableEq, Repr

/-- The thread has `mtx_`. -/
def Pc.holds : Pc → Bool
  | .test _ _ _ | .enter _ _ | .leave _ => true
  | _ => false

/-- What a notification does to it. -/
def Pc.notified : Pc → Pc
  | .blocked site deadline => .woken site deadline false
  | pc => pc

/-- Where `stop` is. -/
inductive StopPc where
  | out
  | requested
  | joining
  deriving DecidableEq, Repr

/-- A paint that was begun. -/
structure Attempt where
  /-- which call of `_run` -/
  run : Nat
  credentials : Credentials
  policy : RefreshPolicy
  /-- the credentials set last when it began -/
  setLast : Credentials
  deriving DecidableEq, Repr

structure State where
  now : Nat
  /-- `ssid_` and `password_` -/
  credentials_ : Credentials := {}
  dirty_ : Bool := false
  isCleared : Bool
  stopRequested : Bool := false
  stop : StopPc := .out
  /-- calls of `setCredentials` that will still call `notify_one` -/
  notifies : Nat := 0
  worker : Pc := .idle
  attempted : Bool := false
  shown : Bool := false
  restarts : Restarts := {}
  startTime : Nat := 0
  /-- ghost: the credentials that `setCredentials` was called with last -/
  setLast : Credentials := {}
  /-- ghost: calls of `_run` -/
  runs : Nat := 0
  /-- ghost: the paints, the newest first -/
  log : List Attempt := []
  /-- ghost: what `displayBuffer` returned to the newest paint -/
  outcome : Option Bool := none
  deriving DecidableEq, Repr

/-- The steps of the thread: its next statement, or what `displayBuffer` does. -/
inductive Own where
  | next
  /-- the panel accepts the screen -/
  | shows
  | returns
  | throws
  deriving DecidableEq, Repr

inductive Act where
  | own (o : Own)
  | tick (ticks : Nat)
  | setCredentials (c : Credentials)
  | notifyOne
  /-- another thread clears the panel, or paints it -/
  | panel (cleared : Bool)
  | spurious
  | start
  | requestStop
  /-- `cv_.notify_all()` of `stop` -/
  | notifyAll
  | join
  deriving DecidableEq, Repr

namespace State

def goto (s : State) (pc : Pc) : State := { s with worker := pc }

/-- `setCredentials` under `mtx_`. -/
def set (s : State) (c : Credentials) : State :=
  if c = s.credentials_ then { s with setLast := c }
  else { s with setLast := c, credentials_ := c, dirty_ := true, notifies := s.notifies + 1 }

/-- `_run` is called. -/
def enter (s : State) : State :=
  { s with
    worker := .head, attempted := false, shown := false, startTime := s.now, runs := s.runs + 1 }

/-- The snapshot is to be painted. -/
def attempt (s : State) : State :=
  let policy := if s.attempted then .respectMinInterval else .immediate
  { s with
    worker := .painting false, dirty_ := false, attempted := true, outcome := none
    log := ⟨s.runs, s.credentials_, policy, s.setLast⟩ :: s.log }

/-- The predicate of a wait. -/
def predicate (s : State) : Site → Bool
  | .recheck => s.stopRequested || s.dirty_
  | .backoff _ => s.stopRequested

end State

@[simp] theorem set_worker (s : State) (c : Credentials) : (s.set c).worker = s.worker := by
  unfold State.set; split <;> rfl

@[simp] theorem set_log (s : State) (c : Credentials) : (s.set c).log = s.log := by
  unfold State.set; split <;> rfl

@[simp] theorem set_shown (s : State) (c : Credentials) : (s.set c).shown = s.shown := by
  unfold State.set; split <;> rfl

@[simp] theorem set_outcome (s : State) (c : Credentials) : (s.set c).outcome = s.outcome := by
  unfold State.set; split <;> rfl

@[simp] theorem set_attempted (s : State) (c : Credentials) :
    (s.set c).attempted = s.attempted := by
  unfold State.set; split <;> rfl

@[simp] theorem set_runs (s : State) (c : Credentials) : (s.set c).runs = s.runs := by
  unfold State.set; split <;> rfl

@[simp] theorem set_isCleared (s : State) (c : Credentials) :
    (s.set c).isCleared = s.isCleared := by
  unfold State.set; split <;> rfl

@[simp] theorem set_stopRequested (s : State) (c : Credentials) :
    (s.set c).stopRequested = s.stopRequested := by
  unfold State.set; split <;> rfl

@[simp] theorem set_now (s : State) (c : Credentials) : (s.set c).now = s.now := by
  unfold State.set; split <;> rfl

/-- The next statement; `none` while the thread waits. -/
def next (s : State) : Option State :=
  match s.worker with
  | .start => some (if s.stopRequested then s.goto .exited else s.enter)
  | .head => some (s.goto (if s.stopRequested then .exited else .snapshot))
  | .snapshot =>
    let paint := !s.shown || s.dirty_ || s.isCleared
    some (if paint then s.attempt else { s with dirty_ := false, worker := .lock .recheck })
  | .failed =>
    if s.stopRequested then some (s.goto .exited)
    else
      match s.restarts.afterFailure (s.now - s.startTime) with
      | some (secs, restarts) => some { s with restarts, worker := .lock (.backoff secs) }
      | none => some (s.goto .aborted)
  | .lock site => some (s.goto (.test site (s.now + site.period) false))
  | .test site deadline late =>
    some (s.goto (if s.predicate site || late then .leave site else .enter site deadline))
  | .enter site deadline => some (s.goto (.blocked site deadline))
  | .blocked site deadline =>
    if deadline ≤ s.now then some (s.goto (.woken site deadline true)) else none
  | .woken site deadline late => some (s.goto (.test site deadline late))
  | .leave .recheck => some (s.goto .head)
  | .leave (.backoff _) => some (s.goto .start)
  | .idle | .painting _ | .exited | .aborted => none

def ownStep (s : State) : Own → Option State
  | .next => next s
  | .shows =>
    if s.worker = .painting false then some { s with worker := .painting true, isCleared := false }
    else none
  | .returns =>
    match s.worker with
    | .painting accepted =>
      some { s with worker := .lock .recheck, shown := accepted, outcome := some accepted }
    | _ => none
  | .throws =>
    match s.worker with
    | .painting _ => some (s.goto .failed)
    | _ => none

def step (s : State) : Act → Option State
  | .own o => ownStep s o
  | .tick ticks => some { s with now := s.now + ticks }
  | .setCredentials c => if s.worker.holds then none else some (s.set c)
  | .notifyOne =>
    if 0 < s.notifies then
      some { s with worker := s.worker.notified, notifies := s.notifies - 1 }
    else none
  | .panel cleared => some { s with isCleared := cleared }
  | .spurious => if s.worker.notified ≠ s.worker then some (s.goto s.worker.notified) else none
  | .start =>
    if s.worker = .idle ∧ s.stop = .out then
      some { s with worker := .start, stopRequested := false, restarts := {} }
    else none
  | .requestStop =>
    if s.worker ≠ .idle ∧ s.stop = .out then
      some { s with stop := .requested, stopRequested := true }
    else none
  | .notifyAll =>
    if s.stop = .requested then
      some { s with stop := .joining, worker := s.worker.notified }
    else none
  | .join =>
    if s.worker = .exited ∧ s.stop = .joining then some { s with stop := .out, worker := .idle }
    else none

/-- No thread has been started and no credentials have been set. -/
def machine : Machine State Act :=
  ⟨fun s => s = { now := s.now, isCleared := s.isCleared }, step⟩

end ShareFrame.ApNetworkSetupScreen
