import ShareFrame.Lib.Machine
import ShareFrame.Display.RegistrationWindow
import ShareFrame.Events.Messages
import ShareFrame.Settings.RuntimeSettings
import ShareFrame.Task.Task
import Mathlib.Logic.Function.Basic

/-!
# The display task manager

`DisplayTaskManager` boots the panel and then runs exactly one content task. A
round of its loop computes how long to wait, waits for an event or that
deadline, takes a snapshot and applies it (`_apply`): it stops the running task
and starts the one the snapshot asks for.

`step` is one atomic step of the manager's thread, of the bus thread that
delivers events, of a content task's thread inside `displayBuffer`, or of time.
Everything done under one lock is one step; everything else can be interleaved,
and any amount of time may pass between two steps. `.throws` is the outcome of a
step whose call throws.

Fields marked *ghost* are never read by a step.
-/

namespace ShareFrame.DisplayTaskManager

/-- `DisplayState`. -/
inductive DisplayState where
  | boot
  | slideshow
  | nightBlank
  | registration
  | apSetup
  | status
  deriving DecidableEq, Repr

/-- The five content tasks. -/
inductive Content where
  | slideshow
  | nightBlank
  | registration
  | apSetup
  | status
  deriving DecidableEq, Repr

/-- The task that belongs to a state. -/
def DisplayState.content : DisplayState → Option Content
  | .boot => none
  | .slideshow => some .slideshow
  | .nightBlank => some .nightBlank
  | .registration => some .registration
  | .apSetup => some .apSetup
  | .status => some .status

/-- What a content task was given before it was started. The credentials of the setup screen are not
part of it: that task takes new ones while it runs. -/
inductive Shows where
  | slideshow
  | nightBlank (endHour : Int)
  | registration
  | apSetup
  | status (screen : StatusScreenEvent)
  deriving DecidableEq, Repr

/-- Where a content task's thread is. All of its panel access is `displayBuffer` with its own stop
token, which may wait, checks the token and only then sends the buffer. -/
inductive PaintPc where
  | outside
  | waiting
  | admitted
  | refreshing
  | exited
  deriving DecidableEq, Repr

/-- The thread of a started content task. -/
structure Thread where
  shows : Shows
  /-- ghost: the round that started it -/
  round : Nat
  /-- `request_stop` was called on it -/
  stop : Bool := false
  paint : PaintPc := .outside
  /-- ghost: the stop was requested before the paint it is in passed its check -/
  late : Bool := false
  deriving DecidableEq, Repr

/-- The locals `_run` takes under the lock. -/
structure Snapshot where
  apSetup : ApSetupStateEvent := {}
  status : StatusScreenEvent := {}
  registration : Bool := false
  restore : Bool := false
  deriving DecidableEq, Repr

/-- The calls of `_apply` after it decided to switch, in order. -/
inductive Stage where
  | stop
  | join
  | clear
  | set
  | start
  | store
  deriving DecidableEq, Repr

/-- Where the manager's thread is. -/
inductive Pc where
  | boot
  /-- top of the loop in `_run` -/
  | loop
  /-- in `cv_.wait` or `cv_.wait_until`; `since` is a ghost -/
  | waiting (wakeAt : Option Int) (since : Nat)
  /-- entry of `_apply` -/
  | apply
  | switching (target : DisplayState) (stage : Stage)
  /-- the `_stopActive` after the loop -/
  | leaving (joining : Bool)
  /-- waiting in `Task::start` before `_run` is called again -/
  | backoff (until_ : Nat)
  | stopped
  | aborted
  deriving DecidableEq, Repr

structure Config where
  clock : Clock
  statusScreenTimeoutSecs : Int
  registrationScreenWindowSecs : Int

structure State where
  now : Nat := 0
  -- RuntimeSettings
  night : StoredNight
  slideshowActive : Bool
  -- under mtx_
  latest : ApSetupStateEvent := {}
  registrationWindow : RegistrationWindow := {}
  latestStatus : StatusScreenEvent := {}
  statusSince : Nat := 0
  changed : Bool := true
  restore : Bool := false
  /-- the slideshow's handler stored a new night mode and this task's handler has not run yet -/
  nightPending : Bool := false
  stopRequested : Bool := false
  -- the manager's thread
  pc : Pc := .boot
  booted : Bool := false
  state : DisplayState := .boot
  shownStatus : StatusScreenEvent := {}
  shownNightEnd : Int := -1
  snap : Snapshot := {}
  runStart : Nat := 0
  restarts : Restarts := {}
  -- the content tasks; `none` is a task that is not joinable
  tasks : Content → Option Thread := fun _ => none
  credentials : String × String := ("", "")
  shuttingDown : Bool := false
  /-- ghost: snapshots taken so far -/
  round : Nat := 0
  /-- ghost: when the last snapshot was taken -/
  snapAt : Nat := 0
  /-- ghost: when `_apply` last read the clock, and what `isNightBlankNow` was then -/
  readAt : Nat := 0
  nightRead : Bool := false
  /-- ghost: the night end hour `_apply` read last -/
  endRead : Int := -1
  /-- ghost: target of a switch that threw, until a switch to it completes -/
  threw : Option DisplayState := none
  /-- ghost: a switch threw behind its stop and no switch completed since -/
  down : Bool := false

/-- Labels. `manager` is the next step of the manager's thread, `throws` the same step with its call
throwing. -/
inductive Act where
  | tick (ticks : Nat)
  | manager
  | throws
  -- the bus thread
  | apSetupState (evt : ApSetupStateEvent)
  | statusScreen (evt : StatusScreenEvent)
  | frameRegistration (registered : Bool)
  | scheduledClear
  | storeNightMode (night : StoredNight)
  | updateNightMode
  | setSlideshowActive (active : Bool)
  -- the main thread
  | requestStop
  | requestShutdown
  -- the thread of a content task
  | paint (c : Content)
  | checkStop (c : Content)
  | beginRefresh (c : Content)
  | endRefresh (c : Content)
  | sendFails (c : Content)
  | exit (c : Content)
  deriving DecidableEq

/-! ## The waiting time -/

/-- `std::min(wakeAt.value_or(time_point::max()), t)`. -/
def earlier (wakeAt : Option Int) (t : Int) : Option Int :=
  match wakeAt with
  | none => some t
  | some w => some (min w t)

variable (cfg : Config)

/-- `statusSince_ + statusTimeout`. -/
def statusDeadline (s : State) : Int :=
  (s.statusSince : Int) + cfg.statusScreenTimeoutSecs * second

/-- The deadline computed from the clock at `t`. -/
def wakeAt (s : State) (t : Nat) : Option Int :=
  let untilNightChange := s.night.val.secsUntilNightBlankChange (cfg.clock.localNow t)
  let w₁ := if untilNightChange ≥ 0 then some ((t : Int) + untilNightChange * second) else none
  let w₂ := if s.latestStatus.kind.isSome then earlier w₁ (statusDeadline cfg s) else w₁
  match s.registrationWindow.endsAt (steadySecs t) with
  | some ends => earlier w₂ (ends * second)
  | none => w₂

/-! ## A round -/

/-- `target` of `_apply`: the highest screen the snapshot and the clock ask for. -/
def target (snap : Snapshot) (nightBlank : Bool) : DisplayState :=
  if snap.status.kind.isSome then .status
  else if snap.apSetup.required then .apSetup
  else if snap.registration then .registration
  else if nightBlank then .nightBlank
  else .slideshow

/-- `stale` of `_apply`. -/
def stale (s : State) (target : DisplayState) : Bool :=
  (target == .status && (s.snap.restore || s.snap.status != s.shownStatus))
    || (target == .nightBlank && (s.snap.restore || s.night.val.endHour != s.shownNightEnd))

/-- The status screen has been up for its whole timeout. -/
def statusTimedOut (s : State) : Bool :=
  s.latestStatus.kind.isSome && decide ((s.now : Int) ≥ statusDeadline cfg s)

/-- The end of the locked block in `_run`: hide a status screen that timed out, take the snapshot,
consume the flags. -/
def snapshot (s : State) : State :=
  let latestStatus := if statusTimedOut cfg s then {} else s.latestStatus
  { s with
    latestStatus
    snap := ⟨s.latest, latestStatus, s.registrationWindow.required (steadySecs s.now), s.restore⟩
    restore := false
    changed := false
    pc := .apply
    round := s.round + 1
    snapAt := s.now }

/-- `settings_.isNightBlankNow()` at steady time `t`. -/
def nightBlankAt (s : State) (t : Nat) : Bool := s.night.val.isNightBlankNow (cfg.clock.localNow t)

/-- The target of a round whose `_apply` runs now. -/
def wanted (s : State) : DisplayState := target s.snap (nightBlankAt cfg s s.now)

/-- `_apply` up to its early return: read the clock, decide. -/
def decideSwitch (s : State) : State :=
  let t := wanted cfg s
  if t = s.state ∧ stale s t = false then
    { s with
      readAt := s.now
      nightRead := nightBlankAt cfg s s.now
      credentials := if t = .apSetup then (s.snap.apSetup.ssid, s.snap.apSetup.password)
        else s.credentials
      endRead := s.night.val.endHour
      pc := .loop }
  else
    { s with readAt := s.now, nightRead := nightBlankAt cfg s s.now, pc := .switching t .stop }

/-- `Task::stop` up to `join`: nothing for a task that is not joinable, else the stop request.
`next` is where the manager goes in the two cases. -/
def requestStopOf (s : State) (notJoinable joinable : Pc) : State :=
  match s.state.content with
  | none => { s with pc := notJoinable }
  | some c =>
    match s.tasks c with
    | none => { s with pc := notJoinable }
    | some th =>
      { s with
        tasks := Function.update s.tasks c
          (some { th with
            stop := true, late := decide (th.paint ≠ .admitted ∧ th.paint ≠ .refreshing) })
        pc := joinable }

/-- `thread_.join()`: blocks until the thread has returned. -/
def joinOf (s : State) (next : Pc) : Option State :=
  match s.state.content with
  | none => none
  | some c =>
    match s.tasks c with
    | none => none
    | some th =>
      if th.paint = .exited then some { s with tasks := Function.update s.tasks c none, pc := next }
      else none

/-- Whether the switch calls `display_.clear()`: it leaves a screen for a stopped slideshow. -/
def clears (s : State) (t : DisplayState) : Bool :=
  s.state != .boot && s.state != .slideshow && t == .slideshow && !s.slideshowActive

/-- The setter of the new task, if it has one. -/
def setContent (s : State) (t : DisplayState) : State :=
  match t with
  | .apSetup => { s with credentials := (s.snap.apSetup.ssid, s.snap.apSetup.password) }
  | .nightBlank => { s with shownNightEnd := s.night.val.endHour, endRead := s.night.val.endHour }
  | _ => s

/-- What the new task shows. -/
def showsOf (s : State) (t : DisplayState) : Shows :=
  match t with
  | .status => .status s.snap.status
  | .apSetup => .apSetup
  | .registration => .registration
  | .nightBlank => .nightBlank s.shownNightEnd
  | _ => .slideshow

/-- `start()` of the new task, and `shownStatus_ = status` behind it. -/
def startContent (s : State) (t : DisplayState) : State :=
  match t.content with
  | none => s
  | some c =>
    { s with
      tasks := Function.update s.tasks c (some { shows := showsOf s t, round := s.round })
      shownStatus := if t = .status then s.snap.status else s.shownStatus }

/-- The next step of the manager's thread. -/
def manager (s : State) : Option State :=
  match s.pc with
  | .boot => some { s with booted := true, pc := .loop }
  | .loop =>
    if s.stopRequested then some { s with pc := .leaving false }
    else some { s with pc := .waiting (wakeAt cfg s s.now) s.now }
  | .waiting w _ =>
    if s.stopRequested then some { s with pc := .leaving false }
    else if s.changed ∨ ∃ d ∈ w, d ≤ (s.now : Int) then some (snapshot cfg s)
    else none
  | .apply => some (decideSwitch cfg s)
  | .switching t .stop => some (requestStopOf s (.switching t .clear) (.switching t .join))
  | .switching t .join => joinOf s (.switching t .clear)
  | .switching t .clear => some { s with pc := .switching t .set }
  | .switching t .set => some { setContent s t with pc := .switching t .start }
  | .switching t .start => some { startContent s t with pc := .switching t .store }
  | .switching t .store =>
    some { s with
      state := t
      threw := if s.threw = some t then none else s.threw
      down := false
      pc := .loop }
  | .leaving false => some (requestStopOf s .stopped (.leaving true))
  | .leaving true => joinOf s .stopped
  | .backoff d =>
    if s.stopRequested then some { s with pc := .stopped }
    else if d ≤ s.now then
      some { s with runStart := s.now, pc := if s.booted then .loop else .boot }
    else none
  | .stopped => none
  | .aborted => none

/-- The handlers of `Task::start` after an exception. -/
def caught (s : State) : State :=
  if s.stopRequested then { s with pc := .stopped }
  else
    match s.restarts.afterFailure (s.now - s.runStart) with
    | none => { s with pc := .aborted }
    | some (secs, restarts) => { s with restarts, pc := .backoff (s.now + secs * second) }

/-- The calls that can throw: booting the panel, clearing it, rendering the screen of the new task,
starting it. `shownNightEnd_` is set before the night screen is rendered. -/
def managerThrows (s : State) : Option State :=
  match s.pc with
  | .boot => some (caught s)
  | .switching t .clear =>
    if clears s t then some (caught { s with threw := some t, down := true }) else none
  | .switching t .set =>
    if t = .status then some (caught { s with threw := some t, down := true })
    else if t = .nightBlank then
      some (caught
        { s with threw := some t, down := true, shownNightEnd := s.night.val.endHour })
    else none
  | .switching t .start => some (caught { s with threw := some t, down := true })
  | _ => none

/-! ## The other threads -/

/-- A handler of the bus thread: it updates under the lock and sets `changed_`. -/
def handler (s : State) (f : State → State) : Option State :=
  if s.nightPending then none else some { f s with changed := true }

/-- A step of the thread of content task `c`. -/
def paintStep (s : State) (c : Content) (f : Thread → Option Thread) : Option State :=
  match s.tasks c with
  | none => none
  | some th => (f th).map fun th' => { s with tasks := Function.update s.tasks c (some th') }

/-- The thread of a content task calls `displayBuffer`. -/
def Thread.call (th : Thread) : Option Thread :=
  if th.paint = .outside then some { th with paint := .waiting, late := th.stop } else none

/-- Behind the wait of `displayBuffer`: return if a stop was requested, else go on to send. -/
def Thread.checkStop (shuttingDown : Bool) (th : Thread) : Option Thread :=
  if th.paint = .waiting then
    some { th with paint := if th.stop ∨ shuttingDown then .outside else .admitted }
  else none

/-- Any other move of the thread. -/
def Thread.move (src dst : PaintPc) (th : Thread) : Option Thread :=
  if th.paint = src then some { th with paint := dst } else none

/-- One step of the display process. -/
def step (s : State) : Act → Option State
  | .tick d => some { s with now := s.now + d }
  | .manager => manager cfg s
  | .throws => managerThrows s
  | .apSetupState evt => handler s fun s => { s with latest := evt }
  | .statusScreen evt => handler s fun s => { s with latestStatus := evt, statusSince := s.now }
  | .frameRegistration registered => handler s fun s =>
      { s with
        registrationWindow := s.registrationWindow.report registered (steadySecs s.now)
          cfg.registrationScreenWindowSecs }
  | .scheduledClear => handler s fun s => { s with restore := true }
  | .storeNightMode night =>
    if s.nightPending then none else some { s with night, nightPending := true }
  | .updateNightMode =>
    if s.nightPending then some { s with nightPending := false, changed := true } else none
  | .setSlideshowActive active =>
    if s.nightPending then none else some { s with slideshowActive := active }
  | .requestStop => some { s with stopRequested := true }
  | .requestShutdown => some { s with shuttingDown := true }
  | .paint c => paintStep s c Thread.call
  | .checkStop c => paintStep s c (Thread.checkStop s.shuttingDown)
  | .beginRefresh c => paintStep s c (Thread.move .admitted .refreshing)
  | .endRefresh c => paintStep s c (Thread.move .refreshing .outside)
  | .sendFails c => paintStep s c (Thread.move .admitted .outside)
  | .exit c => paintStep s c (Thread.move .outside .exited)

/-- The process starts with any stored settings, at any time. -/
def machine : Transition.Machine State Act where
  Init s := ∃ now night slideshowActive, s = { now, night, slideshowActive, runStart := now }
  step := step cfg

end ShareFrame.DisplayTaskManager
