import ShareFrame.Display.DisplayManager
import ShareFrame.Task.DisplayTaskManager

/-!
# The display process at its end

The threads of the display process that call the display manager: the display task
manager, the daily clear, one content task at a time, and `main`, which after a
signal requests the shutdown of the manager, stops the tasks and leaves the final
picture. A thread that calls waits until the call has returned.

Which screen the task manager switches to and what the content tasks but
`StatusScreen` paint is part of the label; `DisplayTaskManager` and
`DisplayImageLoop` model how they choose. Fields marked *ghost* are never read by
a step.
-/

namespace ShareFrame.DisplayProcess

open DisplayManager (Kind Config RefreshPolicy BUFFER_SIZE)
open DisplayTaskManager (DisplayState Content Stage)

inductive Thread where
  | manager
  | clearer
  | content (c : Content)
  | main
  deriving DecidableEq, Repr

/-- Where `DisplayTaskManager::_run` is. -/
inductive ManagerPc where
  | boot
  | bootPaint
  /-- in the `displayBuffer` of `_boot` -/
  | bootPainting
  | loop
  | switching (target : DisplayState) (stage : Stage)
  /-- the `_stopActive` after the loop -/
  | leaving (joining : Bool)
  | exited
  deriving DecidableEq, Repr

/-- Where `DisplayClear::_run` is. -/
inductive ClearerPc where
  | waiting
  | clearing
  | exited
  deriving DecidableEq, Repr

/-- Where the thread of a content task is. `painted` and `shown` are only `StatusScreen`'s. -/
inductive ContentPc where
  | running
  | painted (result : Bool)
  /-- behind `shown_ = shown`, waiting for the stop -/
  | shown
  | exited
  deriving DecidableEq, Repr

structure ContentThread where
  stop : Bool := false
  pc : ContentPc := .running
  deriving DecidableEq, Repr

/-- Where `main` is. -/
inductive MainPc where
  | running
  | requested
  | joiningManager
  | stoppingClearer
  | joiningClearer
  /-- in front of the final refresh -/
  | final
  | painting
  | clearing
  | finished
  /-- the final refresh threw -/
  | terminated
  deriving DecidableEq, Repr

structure State (β : Type) where
  display : DisplayManager.State Thread β
  -- the display task manager
  managerPc : ManagerPc := .boot
  managerStop : Bool := false
  booted : Bool := false
  state : DisplayState := .boot
  -- the content tasks; `none` is a task that is not joinable
  tasks : Content → Option ContentThread := fun _ => none
  -- StatusScreen
  /-- `none` is the empty buffer -/
  buffer : Option β := none
  source : String := ""
  shown : Bool := false
  -- the daily clear
  clearerPc : ClearerPc := .waiting
  clearerStop : Bool := false
  mainPc : MainPc := .running
  /-- ghost: the refreshes started after `requestShutdown`, the newest first -/
  after : List (Kind β) := []

/-- Labels. -/
inductive Act (β : Type) where
  /-- time, or a step of a call -/
  | display (act : DisplayManager.Act Thread β)
  -- the display task manager
  | boot
  | bootPaint (buffer : β) (source : String)
  | switchTo (target : DisplayState)
  | manager
  | clear
  /-- `status_.set` with what it renders -/
  | set (buffer : β) (source : String)
  /-- rendering a screen or starting its task throws -/
  | managerThrows
  -- a content task
  | paint (c : Content) (buffer : β) (source : String) (policy : RefreshPolicy)
  | status
  | exit (c : Content)
  | clearer
  | main
  deriving DecidableEq, Repr

variable {β : Type}

/-- The thread is inside a call of the display manager. -/
def State.inCall (s : State β) (t : Thread) : Bool :=
  (s.display.queued t).isSome || s.display.active.any (·.thread = t)

variable (cfg : Config β)

/-- A step of the display manager. -/
def State.onDisplay (s : State β) (act : DisplayManager.Act Thread β) : Option (State β) :=
  (DisplayManager.step cfg s.display act).map fun display => { s with display }

/-- A thread that is in no call makes one. -/
def State.call (s : State β) (t : Thread) (kind : Kind β) (stop : Bool) : Option (State β) :=
  s.onDisplay cfg (.call t kind stop)

/-! ## The end of a call -/

/-- The task manager's thread behind an exception of `_run`: `Task::start` runs it again. Its wait in
between and its limit are left out. -/
def State.managerCaught (s : State β) : State β :=
  { s with
    managerPc := if s.managerStop then .exited else if s.booted then .loop else .boot }

/-- `main` behind its last call: `shown_` takes the result of `paintForShutdown`. -/
def State.mainReturned (s : State β) (result : Option Bool) : State β :=
  match result with
  | none => { s with mainPc := .terminated }
  | some r => { s with shown := if s.mainPc = .painting then r else s.shown, mainPc := .finished }

/-- A call of thread `t` has returned a result or thrown. -/
def State.returned (s : State β) (t : Thread) (result : Option Bool) : State β :=
  match t with
  | .manager =>
    match result with
    | none => s.managerCaught
    | some _ => if s.managerPc = .bootPainting then { s with booted := true, managerPc := .loop } else s
  | .clearer => { s with clearerPc := .waiting }
  | .content c =>
    match s.tasks c, result, c with
    | some th, some r, .status =>
      { s with tasks := Function.update s.tasks c (some { th with pc := .painted r }) }
    | _, _, _ => s
  | .main => s.mainReturned result

/-- The call that a step of the display manager has ended, with its result or none. -/
def ended (d d' : DisplayManager.State Thread β) : Option (Thread × Option Bool) :=
  match d.active, d'.active with
  | some a, none =>
    match a.pc with
    | .returning result => some (a.thread, some result)
    | _ => some (a.thread, none)
  | _, _ => none

/-- A step inside a call, and the ghost log of refreshes started after the request. -/
def State.inside (s : State β) (act : DisplayManager.Act Thread β) : Option (State β) :=
  (DisplayManager.step cfg s.display act).map fun d =>
    let started := s.display.shuttingDown && decide (d.log.length ≠ s.display.log.length)
    let s' := { s with
      display := d
      after := if started then (d.log.head?.map (·.kind)).toList ++ s.after else s.after }
    match ended s.display d with
    | some (t, result) => s'.returned t result
    | none => s'

/-! ## The task manager -/

/-- `Task::stop` up to `join`. -/
def State.requestStopOf (s : State β) (notJoinable joinable : ManagerPc) : Option (State β) :=
  match s.state.content with
  | none => some { s with managerPc := notJoinable }
  | some c =>
    match s.tasks c with
    | none => some { s with managerPc := notJoinable }
    | some th =>
      ({ s with
        tasks := Function.update s.tasks c (some { th with stop := true })
        managerPc := joinable }).onDisplay cfg (.requestStop (.content c))

/-- `thread_.join()`. -/
def State.joinOf (s : State β) (next : ManagerPc) : Option (State β) :=
  match s.state.content with
  | none => none
  | some c =>
    match s.tasks c with
    | none => none
    | some th =>
      if th.pc = .exited then
        some { s with tasks := Function.update s.tasks c none, managerPc := next }
      else none

/-- `start()` of the task of a state. -/
def State.startContent (s : State β) (t : DisplayState) : State β :=
  match t.content with
  | none => s
  | some c => { s with tasks := Function.update s.tasks c (some {}) }

/-- `display_.clear()` of `_apply` may be called: the switch leaves a screen for the slideshow. -/
def State.leavesScreen (s : State β) (t : DisplayState) : Bool :=
  s.state != .boot && s.state != .slideshow && t == .slideshow

/-- The manager's next step where nothing is open. -/
def State.manager (s : State β) : Option (State β) :=
  match s.managerPc with
  -- `Task::start` checks the stop before it calls `_run`
  | .boot => if s.managerStop then some { s with managerPc := .exited } else none
  | .loop => if s.managerStop then some { s with managerPc := .leaving false } else none
  | .switching t .stop => s.requestStopOf cfg (.switching t .clear) (.switching t .join)
  | .switching t .join => s.joinOf (.switching t .clear)
  | .switching t .clear => some { s with managerPc := .switching t .set }
  | .switching t .set => if t = .status then none else some { s with managerPc := .switching t .start }
  | .switching t .start => some { s.startContent t with managerPc := .switching t .store }
  | .switching t .store => some { s with state := t, managerPc := .loop }
  | .leaving false => s.requestStopOf cfg .exited (.leaving true)
  | .leaving true => s.joinOf .exited
  | _ => none

/-! ## The other threads -/

/-- `StatusScreen::_run`. -/
def State.statusStep (s : State β) : Option (State β) :=
  match s.tasks .status with
  | none => none
  | some th =>
    let move (pc : ContentPc) (s : State β) : State β :=
      { s with tasks := Function.update s.tasks .status (some { th with pc }) }
    match th.pc with
    | .running =>
      if s.shown then some (move .exited s)
      -- `set` was called before the start
      else s.buffer.bind fun b =>
        s.call cfg (.content .status) (.displayBuffer b s.source .respectMinInterval) th.stop
    | .painted r => some (move .shown { s with shown := r })
    | .shown => if th.stop then some (move .exited s) else none
    | .exited => none

/-- `DisplayClear::_run`: behind its wait it checks the stop and clears. -/
def State.clearer (s : State β) : Option (State β) :=
  match s.clearerPc with
  | .waiting => some { s with clearerPc := if s.clearerStop then .exited else .clearing }
  | .clearing => s.call cfg .clearer .clear false
  | .exited => none

/-- The shutdown sequence of `main`. -/
def State.main (s : State β) : Option (State β) :=
  match s.mainPc with
  | .running => ({ s with mainPc := .requested }).onDisplay cfg .requestShutdown
  | .requested =>
    ({ s with managerStop := true, mainPc := .joiningManager }).onDisplay cfg (.requestStop .manager)
  | .joiningManager =>
    if s.managerPc = .exited then some { s with mainPc := .stoppingClearer } else none
  | .stoppingClearer => some { s with clearerStop := true, mainPc := .joiningClearer }
  | .joiningClearer => if s.clearerPc = .exited then some { s with mainPc := .final } else none
  | .final =>
    if s.state = .status then
      -- `finishForShutdown`
      match s.shown, s.buffer with
      | false, some b =>
        ({ s with mainPc := .painting }).call cfg .main (.paintForShutdown b s.source) false
      | _, _ => some { s with mainPc := .finished }
    else ({ s with mainPc := .clearing }).call cfg .main .clearForShutdown false
  | _ => none

/-- The labels of `display`: time, and the steps of calls. -/
def internal : DisplayManager.Act Thread β → Bool
  | .tick _ => true
  | .acquire _ => true
  | .next => true
  | .power _ _ => true
  | .refreshed _ => true
  | .throws => true
  | _ => false

/-- One step. A thread inside a call moves only with it. -/
def step (s : State β) : Act β → Option (State β)
  | .display act => if internal act then s.inside cfg act else none
  | .boot =>
    if s.inCall .manager ∨ s.managerPc ≠ .boot then none
    else ({ s with managerPc := .bootPaint }).call cfg .manager .init false
  | .bootPaint buffer source =>
    if s.inCall .manager ∨ s.managerPc ≠ .bootPaint then none
    else
      ({ s with managerPc := .bootPainting }).call cfg .manager
        (.displayBuffer buffer source .immediate) s.managerStop
  | .switchTo t =>
    if s.inCall .manager ∨ s.managerPc ≠ .loop ∨ s.managerStop ∨ t = .boot then none
    else some { s with managerPc := .switching t .stop }
  | .manager => if s.inCall .manager then none else s.manager cfg
  | .clear =>
    match s.managerPc with
    | .switching t .clear =>
      if s.inCall .manager ∨ !s.leavesScreen t then none
      else ({ s with managerPc := .switching t .set }).call cfg .manager .clear false
    | _ => none
  | .set buffer source =>
    if s.inCall .manager ∨ s.managerPc ≠ .switching .status .set ∨ cfg.size buffer ≠ BUFFER_SIZE then
      none
    else
      some { s with
        buffer := some buffer, source, shown := false, managerPc := .switching .status .start }
  | .managerThrows =>
    match s.managerPc with
    | .switching _ .set => if s.inCall .manager then none else some s.managerCaught
    | .switching _ .start => if s.inCall .manager then none else some s.managerCaught
    | _ => none
  | .paint c buffer source policy =>
    match s.tasks c with
    | none => none
    | some th =>
      if s.inCall (.content c) ∨ c = .status ∨ th.pc ≠ .running then none
      else s.call cfg (.content c) (.displayBuffer buffer source policy) th.stop
  | .status => if s.inCall (.content .status) then none else s.statusStep cfg
  | .exit c =>
    match s.tasks c with
    | none => none
    | some th =>
      if s.inCall (.content c) ∨ !th.stop ∨ th.pc ≠ .running then none
      else some { s with tasks := Function.update s.tasks c (some { th with pc := .exited }) }
  | .clearer => if s.inCall .clearer then none else s.clearer cfg
  | .main => if s.inCall .main then none else s.main cfg

/-- The process starts with a new display manager. -/
def machine : Transition.Machine (State β) (Act β) where
  Init s := ∃ now, s = { display := DisplayManager.created cfg now }
  step := step cfg

end ShareFrame.DisplayProcess
