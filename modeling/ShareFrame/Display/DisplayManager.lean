import ShareFrame.Lib.Machine
import ShareFrame.Util.Clock
import Mathlib.Logic.Function.Basic

/-!
# The display manager

`DisplayManager` serves the panel to any number of threads. One call at a time
holds `_hwMutex` and is `State.active`; the calls of the other threads are
`State.queued` in front of the lock. `step` is one atomic step of the active
call, of a thread that calls, of a stop or shutdown request, or of time. What the
panel answers and whether a metrics write throws is part of the label.

The behaviour is that of a build with the panel's driver. Fields marked *ghost*
are never read by a step.
-/

namespace ShareFrame.DisplayManager

inductive RefreshPolicy where
  | respectMinInterval
  | immediate
  deriving DecidableEq, Repr

abbrev WIDTH : Nat := 800
abbrev HEIGHT : Nat := 480
abbrev BUFFER_SIZE : Nat := WIDTH * HEIGHT / 8

abbrev FIRST_START_SETTLE_SECS : Nat := 5

structure ScreenSnapshot where
  state : String := "empty"
  source : String := ""
  seq : Nat := 0
  updatedAt : Int := 0
  deriving DecidableEq, Repr

/-- A refresh shows white or a buffer. -/
inductive Picture (β : Type) where
  | white
  | image (buffer : β) (source : String)
  deriving DecidableEq, Repr

namespace Picture

variable {β : Type}

/-- The state `_recordScreen` is called with. -/
def state : Picture β → String
  | white => "cleared"
  | image _ _ => "image"

/-- The source `_recordScreen` is called with. -/
def source : Picture β → String
  | white => ""
  | image _ source => source

/-- The metric counted for the refresh beside `epd_refresh_total`. -/
def counter : Picture β → String
  | white => "epd_clear_total"
  | image _ _ => "epd_image_refresh_total"

/-- The new value of `_isCleared`. -/
def cleared : Picture β → Bool
  | white => true
  | image _ _ => false

end Picture

/-- The public functions that refresh the panel, with their arguments. -/
inductive Kind (β : Type) where
  | init
  | clear
  | clearForShutdown
  | displayBuffer (buffer : β) (source : String) (policy : RefreshPolicy)
  | paintForShutdown (buffer : β) (source : String)
  deriving DecidableEq, Repr

/-- What a call refreshes the panel with. -/
def Kind.picture {β : Type} : Kind β → Picture β
  | displayBuffer buffer source _ => .image buffer source
  | paintForShutdown buffer source => .image buffer source
  | _ => .white

/-- The statements behind a refresh. -/
inductive Effect (β : Type) where
  /-- `_lastDisplayTime.store(now())` -/
  | stamp
  /-- `_hwSleep()` -/
  | sleep
  | increment (key : String) (amount : Int)
  | set (key : String) (value : Int)
  /-- `set(key, nowUnix())` -/
  | setNow (key : String)
  /-- `setIfUnset(key, nowUnix())` -/
  | setNowIfUnset (key : String)
  /-- `++_consecutiveFailures` -/
  | failed
  /-- `_consecutiveFailures = 0` -/
  | recovered
  | isCleared (value : Bool)
  | recordScreen (state source : String)
  /-- `_writeMockPanel` makes the directory -/
  | mockDirectory
  /-- `_writeMockPanel` renames `panel.pbm`: the mock panel shows the picture -/
  | mockPicture (picture : Picture β)
  /-- `_writeMockPanel` renames `panel.json` -/
  | mockMeta
  /-- without an output directory a mock refresh is a line in the log -/
  | mockLog (picture : Picture β)
  deriving DecidableEq, Repr

/-- The statements that can throw: a write to the database, a file operation. -/
def Effect.mayThrow {β : Type} : Effect β → Bool
  | increment _ _ => true
  | set _ _ => true
  | setNow _ => true
  | setNowIfUnset _ => true
  | mockDirectory => true
  | mockPicture _ => true
  | mockMeta => true
  | _ => false

/-- Where the active call is. -/
inductive Pc (β : Type) where
  /-- `_waitMinRefresh` reads the clock -/
  | interval
  /-- `_waitMinRefresh` is about to wait for so many ticks -/
  | delaying (remaining : Int)
  /-- in `_waitCv.wait_for` -/
  | blocked (deadline : Int)
  | stopCheck
  | shutdownCheck
  /-- in the `_hwInit` of `init` -/
  | initPower
  /-- in the `_hwInit` of `_clearHw` or `_sendBufferHw` -/
  | power
  /-- in `EPD_7IN5_V2_Clear` or `EPD_7IN5_V2_Display` -/
  | refreshing (t0 : Nat)
  | finishing (rest : List (Effect β)) (result : Bool)
  /-- `init` sleeps behind its clear -/
  | settling (until_ : Nat)
  | returning (result : Bool)
  deriving DecidableEq, Repr

/-- The call that holds `_hwMutex`. -/
structure Active (τ β : Type) where
  thread : τ
  kind : Kind β
  /-- its stop token was triggered -/
  stop : Bool
  pc : Pc β
  /-- ghost: the stop token was triggered when the wait for the interval ended -/
  late : Bool := false
  /-- ghost: the refresh of this call that the panel accepted -/
  accepted : Option (Picture β) := none
  deriving DecidableEq, Repr

/-- A refresh of the panel: when the driver was called and when it returned. -/
structure Refresh (β : Type) where
  kind : Kind β
  start : Nat
  finish : Option Nat := none
  /-- the stop token was triggered when the wait for the interval ended -/
  late : Bool
  deriving DecidableEq, Repr

structure Config (β : Type) where
  minRefreshSecs : Int
  mockDisplay : Bool
  mockOutputDir : String
  /-- `nowUnix()` at a time of the steady clock -/
  nowUnix : Nat → Int
  /-- the bytes of a buffer -/
  size : β → Nat

/-- The min refresh interval in ticks. -/
def Config.minRefresh {β : Type} (cfg : Config β) : Int := cfg.minRefreshSecs * second

structure State (τ β : Type) where
  now : Nat
  initialized : Bool := false
  panelAwake : Bool := false
  consecutiveFailures : Nat := 0
  isCleared : Bool := false
  lastDisplayTime : Int
  screen : ScreenSnapshot := {}
  shuttingDown : Bool := false
  /-- the rows of `display_metrics` -/
  metrics : String → Option Int := fun _ => none
  /-- the call of each thread that is still in front of the lock -/
  queued : τ → Option (Kind β × Bool) := fun _ => none
  active : Option (Active τ β) := none
  /-- ghost: the last refresh the panel accepted -/
  panel : Option (Picture β) := none
  /-- ghost: the refreshes of the real panel, the newest first -/
  log : List (Refresh β) := []

/-- How `_hwInit` ends. -/
inductive PowerOn where
  | moduleFailed
  | initFailed
  | ready
  deriving DecidableEq, Repr

/-- Labels. `next`, `power`, `refreshed` and `throws` are steps of the active call: its next
statement, the end of `_hwInit` (`written`: its metric was written), the answer of the panel, its
next statement with a throw. -/
inductive Act (τ β : Type) where
  | tick (ticks : Nat)
  | call (t : τ) (kind : Kind β) (stop : Bool)
  | acquire (t : τ)
  | requestStop (t : τ)
  | requestShutdown
  | next
  | power (outcome : PowerOn) (written : Bool)
  | refreshed (accepted : Bool)
  | throws
  deriving DecidableEq, Repr

variable {τ β : Type} (cfg : Config β)

/-! ## The statements behind a refresh -/

/-- `_writeMockPanel`. -/
def writeMockPanel (p : Picture β) : List (Effect β) :=
  [.mockDirectory, .mockPicture p, .mockMeta, .increment "epd_refresh_total" 1, .increment p.counter 1,
    .setNow "epd_last_refresh_at", .setNowIfUnset "epd_first_use_at"]

/-- The mock branch of `_clearHw` and `_sendBufferHw`. -/
def mockRefresh (p : Picture β) : List (Effect β) :=
  (if cfg.mockOutputDir = "" then [.mockLog p] else writeMockPanel p)
    ++ [.recordScreen p.state p.source, .stamp, .isCleared p.cleared]

/-- Behind a refresh of `ms` milliseconds that the panel accepted. -/
def acceptedRefresh (p : Picture β) (ms : Int) : List (Effect β) :=
  [.stamp, .sleep, .increment "epd_refresh_total" 1, .increment p.counter 1,
    .increment "epd_busy_ms_total" ms, .set "epd_last_refresh_ms" ms, .setNow "epd_last_refresh_at",
    .setNowIfUnset "epd_first_use_at", .recovered, .isCleared p.cleared,
    .recordScreen p.state p.source]

/-- Behind a refresh that ended in a timeout. -/
def failedRefresh : List (Effect β) :=
  [.stamp, .sleep, .increment "epd_refresh_fail_total" 1, .failed]

/-- `DisplayMetricsRepository::increment`. -/
def increment (m : String → Option Int) (key : String) (amount : Int) : String → Option Int :=
  Function.update m key (some ((m key).getD 0 + amount))

/-- `DisplayMetricsRepository::setIfUnset`. -/
def setIfUnset (m : String → Option Int) (key : String) (value : Int) : String → Option Int :=
  Function.update m key (some ((m key).getD value))

/-- The active call has shown a picture. -/
def State.show (s : State τ β) (p : Picture β) : State τ β :=
  { s with panel := some p, active := s.active.map fun a => { a with accepted := some p } }

/-- What a statement does. -/
def Effect.exec (s : State τ β) : Effect β → State τ β
  | stamp => { s with lastDisplayTime := s.now }
  | sleep => { s with panelAwake := false }
  | increment key amount => { s with metrics := DisplayManager.increment s.metrics key amount }
  | set key value => { s with metrics := Function.update s.metrics key (some value) }
  | setNow key => { s with metrics := Function.update s.metrics key (some (cfg.nowUnix s.now)) }
  | setNowIfUnset key => { s with metrics := setIfUnset s.metrics key (cfg.nowUnix s.now) }
  | failed => { s with consecutiveFailures := s.consecutiveFailures + 1 }
  | recovered => { s with consecutiveFailures := 0 }
  | isCleared value => { s with isCleared := value }
  | recordScreen state source =>
    { s with screen := ⟨state, source, s.screen.seq + 1, cfg.nowUnix s.now⟩ }
  | mockDirectory => s
  | mockPicture p => s.show p
  | mockMeta => s
  | mockLog p => s.show p

/-! ## A call -/

/-- The common part of `_clearHw` and `_sendBufferHw`. -/
def send (p : Picture β) : Pc β :=
  if cfg.mockDisplay then .finishing (mockRefresh cfg p) true else .power

/-- `_clearHw`. -/
def clearHw : Pc β := send cfg .white

/-- `_sendBufferHw`. -/
def sendBufferHw (buffer : β) (source : String) : Pc β :=
  if cfg.size buffer ≠ BUFFER_SIZE then .returning false else send cfg (.image buffer source)

/-- Behind the lock. -/
def enter (s : State τ β) : Kind β → Pc β
  | .init => if cfg.mockDisplay then clearHw cfg else .initPower
  | .clear => .interval
  | .clearForShutdown => if s.isCleared then .returning true else clearHw cfg
  | .displayBuffer _ _ policy => if policy = .immediate then .stopCheck else .interval
  | .paintForShutdown buffer source => sendBufferHw cfg buffer source

/-- Behind `_clearHw` or `_sendBufferHw`: `init` sleeps while the panel settles. -/
def leave (s : State τ β) (a : Active τ β) (result : Bool) : Pc β :=
  match a.kind, cfg.mockDisplay with
  | .init, false => .settling (s.now + FIRST_START_SETTLE_SECS * second)
  | _, _ => .returning result

/-- The active call goes on at `pc`. -/
def State.goto (s : State τ β) (a : Active τ β) (pc : Pc β) : State τ β :=
  { s with active := some { a with pc } }

/-- The next statement of the active call; `none` while it waits. -/
def next (s : State τ β) (a : Active τ β) : Option (State τ β) :=
  match a.pc with
  | .interval =>
    let elapsed := (s.now : Int) - s.lastDisplayTime
    if elapsed ≥ cfg.minRefresh then
      some { s with active := some { a with pc := .stopCheck, late := a.stop } }
    else some (s.goto a (.delaying (cfg.minRefresh - elapsed)))
  | .delaying remaining => some (s.goto a (.blocked (s.now + remaining)))
  | .blocked deadline =>
    if s.shuttingDown ∨ a.stop ∨ deadline ≤ s.now then
      some { s with active := some { a with pc := .stopCheck, late := a.stop } }
    else none
  | .stopCheck =>
    if a.stop then some (s.goto a (.returning false))
    else
      match a.kind with
      | .displayBuffer _ _ _ => some (s.goto a .shutdownCheck)
      | _ => some (s.goto a (clearHw cfg))
  | .shutdownCheck =>
    if s.shuttingDown then some (s.goto a (.returning false))
    else
      match a.kind with
      | .displayBuffer buffer source _ => some (s.goto a (sendBufferHw cfg buffer source))
      | _ => none
  | .finishing (e :: rest) result =>
    some (e.exec cfg { s with active := some { a with pc := .finishing rest result } })
  | .finishing [] result => some (s.goto a (leave cfg s a result))
  | .settling t => if t ≤ s.now then some (s.goto a (.returning true)) else none
  | .returning _ => some { s with active := none }
  | _ => none

/-- The data behind `_hwInit`, with its metric written or not. A failed metrics write skips what
stands behind it. -/
def powered (s : State τ β) (outcome : PowerOn) (written : Bool) : State τ β :=
  let failed := increment s.metrics "epd_poweron_fail_total" 1
  match outcome, written with
  | .moduleFailed, false => s
  | .moduleFailed, true =>
    { s with metrics := failed, consecutiveFailures := s.consecutiveFailures + 1 }
  | .initFailed, false => { s with initialized := true, panelAwake := true }
  | .initFailed, true =>
    { s with
      initialized := true, panelAwake := false
      metrics := failed, consecutiveFailures := s.consecutiveFailures + 1 }
  | .ready, false => { s with initialized := true, panelAwake := true }
  | .ready, true =>
    { s with
      initialized := true, panelAwake := true
      metrics := increment s.metrics "epd_poweron_total" 1, consecutiveFailures := 0 }

section
variable (s : State τ β) (outcome : PowerOn) (written : Bool)

@[simp] theorem powered_now : (powered s outcome written).now = s.now := by
  cases outcome <;> cases written <;> rfl

@[simp] theorem powered_lastDisplayTime :
    (powered s outcome written).lastDisplayTime = s.lastDisplayTime := by
  cases outcome <;> cases written <;> rfl

@[simp] theorem powered_shuttingDown :
    (powered s outcome written).shuttingDown = s.shuttingDown := by
  cases outcome <;> cases written <;> rfl

@[simp] theorem powered_log : (powered s outcome written).log = s.log := by
  cases outcome <;> cases written <;> rfl

@[simp] theorem powered_isCleared : (powered s outcome written).isCleared = s.isCleared := by
  cases outcome <;> cases written <;> rfl

@[simp] theorem powered_screen : (powered s outcome written).screen = s.screen := by
  cases outcome <;> cases written <;> rfl

@[simp] theorem powered_panel : (powered s outcome written).panel = s.panel := by
  cases outcome <;> cases written <;> rfl

@[simp] theorem powered_queued : (powered s outcome written).queued = s.queued := by
  cases outcome <;> cases written <;> rfl

end

/-- `_hwInit` ends. `DEV_Module_Init` is not called again once it succeeded. -/
def power (s : State τ β) (a : Active τ β) (outcome : PowerOn) (written : Bool) :
    Option (State τ β) :=
  let s' := powered s outcome written
  if outcome = .moduleFailed ∧ s.initialized then none
  else
    match a.pc with
    | .initPower =>
      if !written then some { s' with active := none }
      else some (s'.goto a (if outcome = .ready then clearHw cfg else .returning false))
    | .power =>
      if !written then some { s' with active := none }
      else if outcome = .ready then
        some { s' with
          active := some { a with pc := .refreshing s.now }
          log := { kind := a.kind, start := s.now, late := a.late } :: s.log }
      else some (s'.goto a (leave cfg s a false))
    | _ => none

/-- The refresh that runs has ended. -/
def endRefresh (now : Nat) : List (Refresh β) → List (Refresh β)
  | [] => []
  | r :: rs => { r with finish := some now } :: rs

/-- Milliseconds from `t0` to `now`. -/
def busyMs (t0 now : Nat) : Int := ((now - t0) / 1000000 : Nat)

/-- The panel answers. -/
def refreshed (s : State τ β) (a : Active τ β) (accepted : Bool) : Option (State τ β) :=
  match a.pc with
  | .refreshing t0 =>
    let s' := { s with log := endRefresh s.now s.log }
    if accepted then
      some ((s'.goto a (.finishing (acceptedRefresh a.kind.picture (busyMs t0 s.now)) true)).show
        a.kind.picture)
    else some (s'.goto a (.finishing failedRefresh false))
  | _ => none

/-- The next statement throws: the lock is released and the exception leaves the call. -/
def throws (s : State τ β) (a : Active τ β) : Option (State τ β) :=
  match a.pc with
  | .finishing (e :: _) _ => if e.mayThrow then some { s with active := none } else none
  | _ => none

variable [DecidableEq τ]

/-- One step. -/
def step (s : State τ β) : Act τ β → Option (State τ β)
  | .tick d => some { s with now := s.now + d }
  | .call t kind stop =>
    if (s.queued t).isSome ∨ s.active.any (·.thread = t) then none
    else some { s with queued := Function.update s.queued t (some (kind, stop)) }
  | .acquire t =>
    match s.queued t, s.active with
    | some (kind, stop), none =>
      some { s with
        queued := Function.update s.queued t none
        active := some { thread := t, kind, stop, pc := enter cfg s kind } }
    | _, _ => none
  | .requestStop t =>
    some { s with
      queued := Function.update s.queued t ((s.queued t).map fun c => (c.1, true))
      active := s.active.map fun a => if a.thread = t then { a with stop := true } else a }
  | .requestShutdown => some { s with shuttingDown := true }
  | .next => s.active.bind (next cfg s)
  | .power outcome written => s.active.bind (power cfg s · outcome written)
  | .refreshed accepted => s.active.bind (refreshed s · accepted)
  | .throws => s.active.bind (throws s)

/-- A manager created now: the first refresh may come at once. -/
def created (now : Nat) : State τ β := { now, lastDisplayTime := now - cfg.minRefresh }

def machine : Transition.Machine (State τ β) (Act τ β) where
  Init s := ∃ now, s = created cfg now
  step := step cfg

theorem created_init (now : Nat) : (machine cfg).Init (created cfg now : State τ β) :=
  ⟨now, rfl⟩

/-- The default interval, with buffers that are their own number of bytes. -/
def panelConfig (mockDisplay : Bool) : Config Nat where
  minRefreshSecs := 120
  mockDisplay := mockDisplay
  mockOutputDir := "/tmp/panel"
  nowUnix t := t / second
  size := id

end ShareFrame.DisplayManager
