import ShareFrame.Display.DisplayIpc
import ShareFrame.Task.DisplayImageLoop

/-!
# The display service

Three threads around the slideshow loop: the IPC thread handles one message after
the other and publishes on the bus, the bus thread runs the loop's handlers in the
order of publication, and the loop paints. A step is one step of the loop's machine,
one operation of a handler, or one delivery. Messages are numbered, so that a
request can be followed from its test to its delivery.

Fields marked *ghost* are never read by a step.
-/

namespace ShareFrame.DisplayService

open Interaction Transition
open Playback (Generator)
open DisplayIpc (Op Ans Handler)

/-- A message on the IPC thread: its number, and what is left of its handler. -/
structure Call where
  number : Nat
  msg : IpcMessage
  rest : Handler Json

structure State (γ : Type) where
  loop : DisplayImageLoop.State γ
  ipc : Option Call := none
  /-- published, the oldest first, each with the number of its message -/
  bus : List (Nat × DisplayEvent) := []
  received : Nat := 0
  /-- ghost: the skips that found no refresh since the last paint of a user picture began -/
  tested : List Nat := []
  /-- ghost: the show-now requests that passed their tests -/
  accepted : List Nat := []
  /-- ghost: the show-now requests that `_takeNext` took or that a later one replaced -/
  done : List Nat := []
  /-- ghost: the show-now request behind `pendingShowId_` -/
  pending : Option (Nat × Int) := none

inductive Act where
  /-- the loop's thread, and what happens around it -/
  | loop (act : DisplayImageLoop.Act)
  /-- a message arrives -/
  | request (msg : IpcMessage)
  /-- the next operation of the handler and its answer -/
  | ipc (event : Event Ans)
  /-- the reply leaves -/
  | reply
  /-- the bus thread runs the handlers of the oldest event -/
  | deliver

variable {γ : Type} (gen : Generator γ) (cfg : DisplayImageLoop.Config)

/-- What an operation of the IPC thread can answer. -/
def Sees (s : DisplayImageLoop.State γ) : Event Ans → Prop
  | ⟨.isRefreshing, b⟩ => b = s.refreshing_
  | ⟨.isReady, b⟩ => b = s.ready_
  | ⟨.shuffleOrder, ids⟩ => ids = s.shuffle_.order_
  | ⟨.currentImageId, id⟩ => id = s.currentImageId_
  | ⟨.getDisplayInterval, secs⟩ => secs = s.settings.displayIntervalSecs_
  | ⟨.isSlideshowActive, b⟩ => b = s.settings.slideshowActive_
  | ⟨.isNightModeEnabled, b⟩ => b = s.settings.night_.val.enabled
  | ⟨.getNightStartHour, hour⟩ => hour = s.settings.night_.val.startHour
  | ⟨.getNightEndHour, hour⟩ => hour = s.settings.night_.val.endHour
  | ⟨.getNightInterval, secs⟩ => secs = s.settings.night_.val.intervalSecs
  | ⟨.getNightStyle, style⟩ => style = s.settings.night_.val.style
  | ⟨.isNightNow, b⟩ => b = DisplayImageLoop.isNightNow cfg s
  | ⟨.getPlaybackMode, mode⟩ => mode = s.settings.playbackMode_
  | ⟨.getCustomOrder, ids⟩ => ids = s.settings.customOrder_
  | ⟨.isShowSender, b⟩ => b = s.settings.showSender_
  | ⟨.getAll, rows⟩ => rows = none ∨ rows = some s.rows
  | ⟨.getAllIds, ids⟩ => ids = none ∨ ids = some (s.rows.map (·.id))
  | ⟨.getByIds ids, rows⟩ => rows = none ∨ rows = some (s.rows.filter (·.id ∈ ids))
  | ⟨.secondsUntilNext, _⟩ | ⟨.screenSnapshot, _⟩ | ⟨.healthSnapshot, _⟩ | ⟨.publish _, _⟩ => True

instance (s : DisplayImageLoop.State γ) : (e : Event Ans) → Decidable (Sees cfg s e)
  | ⟨op, _⟩ => by cases op <;> unfold Sees <;> infer_instance

/-- The loop's handler of an event; the others have their subscribers elsewhere. -/
def handlerOf : DisplayEvent → Option DisplayImageLoop.Act
  | .skipImage => some .skipImage
  | .showImage id => some (.showImage id)
  | .updateDisplayInterval secs => some (.updateInterval secs)
  | .updateNightMode night => some (.updateNightMode night)
  | .updatePlaybackOrder mode customOrder => some (.updatePlaybackOrder mode customOrder)
  | .updateCustomization showSender => some (.updateCustomization showSender)
  | .setSlideshowActive active => some (.setSlideshowActive active)
  | .clearDisplay | .statusScreen _ => none

/-- What happens to the loop without a message to the service. A picture without an id is not
stored. -/
def Free : DisplayImageLoop.Act → Prop
  | .skipImage | .showImage _ | .updateInterval _ | .updateNightMode _ | .updatePlaybackOrder _ _
  | .updateCustomization _ | .setSlideshowActive _ => False
  | .store image => image.id ≠ 0
  | _ => True

instance : DecidablePred Free
  | .skipImage | .showImage _ | .updateInterval _ | .updateNightMode _ | .updatePlaybackOrder _ _
  | .updateCustomization _ | .setSlideshowActive _ => inferInstanceAs (Decidable False)
  | .store image => inferInstanceAs (Decidable (image.id ≠ 0))
  | .tick _ | .loop | .loopThrows | .painted _ | .imageNew _ | .imageRemoved _ | .scheduledClear
  | .remove _ | .setFiles _ | .setDefaultImages _ | .panel _ | .requestStop | .start =>
    inferInstanceAs (Decidable True)

/-- A step of the loop; a pick takes the request that is pending, a paint of a user picture begins
with no tested skip. -/
def afterLoop (s : State γ) (act : DisplayImageLoop.Act) (loop : DisplayImageLoop.State γ) : State γ :=
  match act, s.loop.pc, loop.pc with
  | .loop, .pick _, _ =>
    { s with loop, pending := none, done := (s.pending.map (·.1)).toList ++ s.done }
  | .loop, .checkFile _, .userPainting _ => { s with loop, tested := [] }
  | _, _, _ => { s with loop }

/-- An operation of the IPC thread. -/
def afterIpc (s : State γ) (call : Call) (rest : Handler Json) (event : Event Ans) : State γ :=
  let s := { s with ipc := some { call with rest } }
  match event, call.msg.type with
  | ⟨.publish event, _⟩, _ => { s with bus := s.bus ++ [(call.number, event)] }
  | ⟨.isRefreshing, false⟩, .skipImage => { s with tested := call.number :: s.tested }
  | ⟨.getByIds _, some (_ :: _)⟩, .showImage => { s with accepted := call.number :: s.accepted }
  | _, _ => s

/-- The handlers of an event ran. -/
def afterDeliver (s : State γ) (number : Nat) (event : DisplayEvent)
    (loop : DisplayImageLoop.State γ) : State γ :=
  match event with
  | .showImage id => { s with
      loop, pending := some (number, id), done := (s.pending.map (·.1)).toList ++ s.done }
  | _ => { s with loop }

def step (s : State γ) : Act → Option (State γ)
  | .loop act =>
    if Free act then (DisplayImageLoop.step gen cfg s.loop act).map (afterLoop s act) else none
  | .request msg =>
    match s.ipc with
    | none => some { s with
        ipc := some { number := s.received, msg, rest := DisplayIpc.handle msg }
        received := s.received + 1 }
    | some _ => none
  | .ipc event =>
    match s.ipc with
    | none => none
    | some call =>
      if Sees cfg s.loop event then
        (call.rest.answer event).map fun rest => afterIpc s call rest event
      else none
  | .reply =>
    match s.ipc with
    | none => none
    | some call => if call.rest.outcome.isSome then some { s with ipc := none } else none
  | .deliver =>
    match s.bus with
    | [] => none
    | (number, event) :: bus =>
      match handlerOf event with
      | none => some { s with bus }
      | some act =>
        (DisplayImageLoop.step gen cfg s.loop act).map (afterDeliver { s with bus } number event)

/-- The service starts with an idle bus; stored pictures have an id. -/
def machine : Machine (State γ) Act where
  Init s := ∃ loop, (DisplayImageLoop.machine gen cfg).Init loop ∧ (∀ image ∈ loop.rows, image.id ≠ 0) ∧
    s = { loop }
  step := step gen cfg

end ShareFrame.DisplayService
