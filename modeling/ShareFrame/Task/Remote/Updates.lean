import ShareFrame.Task.Remote.Gates
import ShareFrame.Update.Safety

/-!
# A remote command beside the update service

`machine` runs one command next to the update manager. A request to the update
service is sent, served by the thread of its IPC server and answered, or the client
gives up waiting for it, while the request may still be on its way. Everything else
that the command asks is answered in any way, and the other clients of the update
service, its checker and its workers make their own steps.

Fields marked *ghost* are never read by a step.
-/

namespace ShareFrame.RemoteUpdate

open Interaction RemoteCommand Transition
open HTTPClient (Bytes)
open UpdateManager (Phase)

structure Frame where
  timing : Timing := {}
  uploads : DiagnosticsUploader.Config
  sha256 : Bytes → Bytes
  updates : UpdateManager.Config

/-- Where a request to the update service is. -/
inductive Position where
  | inFlight
  /-- in `startUpdate` -/
  | handling
  | replied (reply : Json)
  deriving DecidableEq

structure Request where
  type : IpcMessageType
  position : Position
  deriving DecidableEq

structure State where
  msg : Json
  /-- what is left of `_handle` -/
  rest : Remote Unit
  /-- the last request to the update service, as long as it can be delivered -/
  request : Option Request := none
  /-- the client waits for the reply to the request -/
  waiting : Bool := false
  updates : UpdateManager.State := {}
  /-- ghost -/
  history : List Event := []
  /-- ghost: the request started a worker -/
  started : Bool := false

inductive Act where
  /-- a step of the update manager, for other clients as well -/
  | update (a : UpdateManager.Act)
  /-- the answer to anything but a request to the update service -/
  | answer (e : Event)
  | send
  | serve (reply : Json)
  | serveThrows
  | reply
  | receive
  /-- the call gives up; a request that was not delivered may be dropped -/
  | giveUp (dropped : Bool)

def phaseName : Phase → String
  | .idle => "idle"
  | .checking => "checking"
  | .downloading => "downloading"
  | .installing => "installing"
  | .awaitingReboot => "awaiting-reboot"
  | .failed => "failed"

/-- The reply to a status request; the other fields are not read. -/
def statusReply (phase : Phase) : Json :=
  .obj [("ok", .bool true), ("status", .obj [("phase", .str (phaseName phase))])]

def performReply (started : Bool) (error : String) : Json :=
  .obj [("ok", .bool started), ("error", .str error)]

/-- The thread of the IPC server is in no call of `startUpdate`. -/
def Over : UpdateManager.Call → Bool
  | .out | .returned _ _ | .threw => true
  | _ => false

/-- The operation of a request to the update service. -/
def ofUpdate : Op → Option IpcMessage
  | .sendAndReceive .update msg => some msg
  | _ => none

theorem ofUpdate_eq_some {op : Op} {msg : IpcMessage} (h : ofUpdate op = some msg) :
    op = .sendAndReceive .update msg := by
  cases op with
  | sendAndReceive peer m => cases peer <;> cases h; rfl
  | _ => cases h

def State.handling (s : State) : Bool := s.request = some ⟨.updatePerform, .handling⟩

/-- The request goes on. -/
def State.at_ (s : State) (type : IpcMessageType) (position : Position) : State :=
  { s with request := some ⟨type, position⟩ }

/-- The request was not sent, or is dropped on its way. -/
def State.Undelivered (s : State) (msg : IpcMessage) (dropped : Bool) : Prop :=
  s.waiting = false ∨ dropped = true ∧ s.request = some ⟨msg.type, .inFlight⟩

instance (s : State) (msg : IpcMessage) (dropped : Bool) : Decidable (s.Undelivered msg dropped) := by
  unfold State.Undelivered; infer_instance

/-- The call of the client returns. -/
def State.answered (s : State) (e : Event) : Option State :=
  (s.rest.answer e).map fun rest => { s with rest, history := s.history ++ [e] }

variable (f : Frame)

def step (s : State) (a : Act) : Option State :=
  match a with
  | .update a =>
    -- the server thread takes the next request once the reply is sent
    if s.handling ∧ a = .ipcCall then none
    else (UpdateManager.step f.sha256 f.updates s.updates a).map fun updates => { s with
      updates
      started := s.started || (s.handling && a = .threadStarted .ipc true) }
  | .answer e => if (ofUpdate e.1).isSome then none else s.answered e
  | .send =>
    match s.rest.next.bind ofUpdate with
    | some msg =>
      if s.waiting then none else some { s.at_ msg.type .inFlight with waiting := true }
    | none => none
  | .serve reply =>
    match s.request with
    | some ⟨type, .inFlight⟩ =>
      if s.updates.terminated ∨ Over s.updates.ipc = false then none
      else match type with
        | .updateStatus =>
          if s.updates.lock = none then some (s.at_ type (.replied (statusReply s.updates.phase_)))
          else none
        | .updatePerform =>
          (UpdateManager.step f.sha256 f.updates s.updates .ipcCall).map fun updates =>
            { s.at_ type .handling with updates }
        | _ => some (s.at_ type (.replied reply))
    | _ => none
  | .serveThrows =>
    match s.request with
    | some ⟨type, .inFlight⟩ =>
      if s.updates.terminated ∨ Over s.updates.ipc = false ∨ type = .updatePerform then none
      else some (s.at_ type (.replied (.obj [])))
    | _ => none
  | .reply =>
    if s.handling then
      match s.updates.ipc with
      | .returned started error => some (s.at_ .updatePerform (.replied (performReply started error)))
      | .threw => some (s.at_ .updatePerform (.replied (.obj [])))
      | _ => none
    else none
  | .receive =>
    match s.rest.next.bind ofUpdate, s.request with
    | some msg, some ⟨type, .replied j⟩ =>
      if s.waiting ∧ type = msg.type then
        State.answered { s with waiting := false } ⟨.sendAndReceive .update msg, some j⟩
      else none
    | _, _ => none
  | .giveUp dropped =>
    match s.rest.next.bind ofUpdate with
    | some msg =>
      State.answered { s with
        waiting := false
        request := if s.Undelivered msg dropped then none else s.request }
        ⟨.sendAndReceive .update msg, none⟩
    | none => none

/-- Any command, and a frame that has just started. -/
def machine : Machine State Act where
  Init s := ∃ msg pendingSlot cache,
    s = { msg, rest := handle f.timing f.uploads msg, updates := { pendingSlot, cache } }
  step := step f

/-! ## What a step can do -/

inductive Effect (s : State) : Act → State → Prop where
  | update {a : UpdateManager.Act} {u : UpdateManager.State}
      (hs : UpdateManager.step f.sha256 f.updates s.updates a = some u)
      (hfree : s.handling = true → a ≠ .ipcCall) :
      Effect s (.update a) { s with
        updates := u
        started := s.started || (s.handling && a = .threadStarted .ipc true) }
  | answer {e : Event} {rest : Remote Unit} (hop : ofUpdate e.1 = none)
      (hrest : Prog.Steps s.rest [e] rest) :
      Effect s (.answer e) { s with rest, history := s.history ++ [e] }
  | send {msg : IpcMessage} (hnext : s.rest.next.bind ofUpdate = some msg) (hwaiting : s.waiting = false) :
      Effect s .send { s.at_ msg.type .inFlight with waiting := true }
  | status {reply : Json} (hreq : s.request = some ⟨.updateStatus, .inFlight⟩) :
      Effect s (.serve reply) (s.at_ .updateStatus (.replied (statusReply s.updates.phase_)))
  | perform {reply : Json} {u : UpdateManager.State} (hreq : s.request = some ⟨.updatePerform, .inFlight⟩)
      (hs : UpdateManager.step f.sha256 f.updates s.updates .ipcCall = some u) :
      Effect s (.serve reply) { s.at_ .updatePerform .handling with updates := u }
  | other {reply : Json} {type : IpcMessageType} (hreq : s.request = some ⟨type, .inFlight⟩)
      (hstatus : type ≠ .updateStatus) (hperform : type ≠ .updatePerform) :
      Effect s (.serve reply) (s.at_ type (.replied reply))
  | throws {type : IpcMessageType} (hreq : s.request = some ⟨type, .inFlight⟩)
      (hperform : type ≠ .updatePerform) : Effect s .serveThrows (s.at_ type (.replied (.obj [])))
  | returned {ok : Bool} {error : String} (hreq : s.handling = true)
      (hipc : s.updates.ipc = .returned ok error) :
      Effect s .reply (s.at_ .updatePerform (.replied (performReply ok error)))
  | threw (hreq : s.handling = true) (hipc : s.updates.ipc = .threw) :
      Effect s .reply (s.at_ .updatePerform (.replied (.obj [])))
  | receive {msg : IpcMessage} {j : Json} {rest : Remote Unit}
      (hreq : s.request = some ⟨msg.type, .replied j⟩) (hwaiting : s.waiting = true)
      (hrest : Prog.Steps s.rest [⟨.sendAndReceive .update msg, some j⟩] rest) :
      Effect s .receive { s with
        rest, waiting := false, history := s.history ++ [⟨.sendAndReceive .update msg, some j⟩] }
  | giveUp {msg : IpcMessage} {dropped : Bool} {request : Option Request} {rest : Remote Unit}
      (hnext : s.rest.next.bind ofUpdate = some msg)
      (hrequest : request = none ∧ s.Undelivered msg dropped ∨
        request = s.request ∧ ¬ s.Undelivered msg dropped)
      (hrest : Prog.Steps s.rest [⟨.sendAndReceive .update msg, none⟩] rest) :
      Effect s (.giveUp dropped) { s with
        rest, request, waiting := false, history := s.history ++ [⟨.sendAndReceive .update msg, none⟩] }

variable {f}

theorem answered_eq {s s' : State} {e : Event} (h : s.answered e = some s') :
    ∃ rest, Prog.Steps s.rest [e] rest ∧ s' = { s with rest, history := s.history ++ [e] } := by
  obtain ⟨rest, hrest, rfl⟩ := Option.map_eq_some_iff.mp h
  exact ⟨rest, Prog.answer_eq_some.mp hrest, rfl⟩

theorem step_effect {s s' : State} {a : Act} (hs : step f s a = some s') : Effect f s a s' := by
  cases a with
  | update a =>
    simp only [step] at hs
    split at hs
    · cases hs
    next hfree =>
      obtain ⟨u, hu, rfl⟩ := Option.map_eq_some_iff.mp hs
      exact .update hu fun hh ha => hfree ⟨hh, ha⟩
  | answer e =>
    simp only [step] at hs
    split at hs
    · cases hs
    next hop =>
      obtain ⟨rest, hrest, rfl⟩ := answered_eq hs
      exact .answer (by simpa using hop) hrest
  | send =>
    simp only [step] at hs
    split at hs
    next msg hnext =>
      split at hs <;> cases hs
      next hwaiting => exact .send hnext (by simpa using hwaiting)
    next => cases hs
  | serve reply =>
    simp only [step] at hs
    split at hs
    next type hreq =>
      split at hs
      · cases hs
      split at hs
      next =>
        split at hs <;> cases hs
        exact .status hreq
      next =>
        obtain ⟨u, hu, rfl⟩ := Option.map_eq_some_iff.mp hs
        exact .perform hreq hu
      next hstatus hperform => cases hs; exact .other hreq hstatus hperform
    next => cases hs
  | serveThrows =>
    simp only [step] at hs
    split at hs
    next type hreq =>
      split at hs <;> cases hs
      next hno => exact .throws hreq fun htype => hno (.inr (.inr htype))
    next => cases hs
  | reply =>
    simp only [step] at hs
    split at hs
    next hhandling =>
      split at hs <;> cases hs
      next hipc => exact .returned hhandling hipc
      next hipc => exact .threw hhandling hipc
    next => cases hs
  | receive =>
    simp only [step] at hs
    split at hs
    next msg type j hnext hreq =>
      split at hs
      next h =>
        obtain ⟨hwaiting, rfl⟩ := h
        obtain ⟨rest, hrest, rfl⟩ := answered_eq hs
        exact .receive hreq hwaiting hrest
      next => cases hs
    next => cases hs
  | giveUp dropped =>
    simp only [step] at hs
    split at hs
    next msg hnext =>
      obtain ⟨rest, hrest, rfl⟩ := answered_eq hs
      refine .giveUp hnext ?_ hrest
      split
      next h => exact .inl ⟨rfl, h⟩
      next h => exact .inr ⟨rfl, h⟩
    next => cases hs

/-! ## The command and the manager are what they are -/

/-- The history is a run of the command, and the manager is in a state that it can reach. -/
structure Sound (f : Frame) (s : State) : Prop where
  steps : Prog.Steps (handle f.timing f.uploads s.msg) s.history s.rest
  updates : (UpdateManager.machine f.sha256 f.updates).Reachable s.updates

theorem sound_inductive : (machine f).Inductive (fun _ _ => True) (Sound f) where
  init := by
    rintro s ⟨msg, pendingSlot, cache, rfl⟩
    exact ⟨.nil _, .init ⟨pendingSlot, cache, rfl⟩⟩
  step s a s' h _ hs := by
    cases step_effect hs with
    | update hu => exact ⟨h.steps, h.updates.step trivial hu⟩
    | perform _ hu => exact ⟨h.steps, .step (a := .ipcCall) h.updates trivial hu⟩
    | answer _ hrest | receive _ _ hrest | giveUp _ _ hrest => exact ⟨h.steps.append hrest, h.updates⟩
    | _ => exact ⟨h.steps, h.updates⟩

/-! ## What the manager leaves alone -/

/-- A call that is in `startUpdate` is not that of an idle IPC thread. -/
theorem ipc_setCall {u : UpdateManager.State} {c : UpdateManager.Caller} {call : UpdateManager.Call}
    (hc : Over (u.calls c) = false) (hover : Over u.ipc = true) :
    (UpdateManager.setCall u c call).ipc = u.ipc := by
  cases c with
  | ipc =>
    have hc : Over u.ipc = false := hc
    rw [hover] at hc
    cases hc
  | checker => rfl

theorem callStep_still {u u' : UpdateManager.State} {c : UpdateManager.Caller}
    (hs : UpdateManager.callStep f.updates u c = some u') :
    u'.phase_ = u.phase_ ∧ (Over u.ipc = true → u'.ipc = u.ipc) := by
  unfold UpdateManager.callStep at hs
  split at hs
  next hc =>
    split at hs <;> cases hs
    exact ⟨rfl, ipc_setCall (by rw [hc]; rfl)⟩
  next hc =>
    split at hs <;> cases hs <;> exact ⟨rfl, ipc_setCall (by rw [hc]; rfl)⟩
  next hc =>
    split at hs <;> cases hs <;> exact ⟨rfl, ipc_setCall (by rw [hc]; rfl)⟩
  next r hc =>
    split at hs <;> cases hs <;> exact ⟨rfl, ipc_setCall (by rw [hc]; rfl)⟩
  next n hc =>
    split at hs
    · split at hs <;> cases hs
      exact ⟨rfl, ipc_setCall (by rw [hc]; rfl)⟩
    · cases hs
      exact ⟨rfl, ipc_setCall (by rw [hc]; rfl)⟩
  next => cases hs

/-- A step that is no worker's and starts none keeps the phase, and the IPC thread stays out of
`startUpdate` unless a request brings it there. -/
theorem service_still {u u' : UpdateManager.State} {a : UpdateManager.Act}
    (hs : UpdateManager.step f.sha256 f.updates u a = some u') (hworker : a.worker = none)
    (hstart : ∀ c ok, a ≠ .threadStarted c ok) :
    u'.phase_ = u.phase_ ∧ (a ≠ .ipcCall → Over u.ipc = true → u'.ipc = u.ipc) := by
  unfold UpdateManager.step at hs
  split at hs
  · cases hs
  cases a with
  | ipcCall =>
    simp only at hs
    split at hs <;> cases hs
    all_goals exact ⟨rfl, fun h => absurd rfl h⟩
  | call c =>
    obtain ⟨t, ht, rfl⟩ := Option.map_eq_some_iff.mp hs
    exact ⟨(callStep_still ht).1, fun _ => (callStep_still ht).2⟩
  | fetched c resp parsed =>
    obtain ⟨t, ht, rfl⟩ := Option.map_eq_some_iff.mp hs
    unfold UpdateManager.fetched at ht
    split at ht
    · cases ht
    next hc =>
      have hc : u.calls c = .fetching := by simpa using hc
      split at ht <;> cases ht <;> exact ⟨rfl, fun _ => ipc_setCall (by rw [hc]; rfl)⟩
  | fetchThrows c =>
    simp only at hs
    split at hs
    next hc =>
      obtain ⟨t, ht, rfl⟩ := Option.map_eq_some_iff.mp hs
      cases ht
      exact ⟨rfl, fun _ => ipc_setCall (by rw [hc]; rfl)⟩
    next => cases hs
  | threadStarted c ok => exact absurd rfl (hstart c ok)
  | wake =>
    simp only at hs
    split at hs <;> cases hs
    exact ⟨rfl, fun _ _ => rfl⟩
  | check =>
    have hs : UpdateManager.checkStep f.updates u = some u' := hs
    unfold UpdateManager.checkStep at hs
    split at hs
    · cases hs; exact ⟨rfl, fun _ _ => rfl⟩
    · split at hs
      · cases hs; exact ⟨rfl, fun _ _ => rfl⟩
      · split at hs <;> cases hs <;> exact ⟨rfl, fun _ _ => rfl⟩
    · cases hs; exact ⟨rfl, fun _ _ => rfl⟩
    · cases hs
  | checkFetched resp parsed =>
    simp only at hs
    split at hs
    · cases hs
    · split at hs <;> cases hs <;> exact ⟨rfl, fun _ _ => rfl⟩
  | setPendingSlot slot => cases hs; exact ⟨rfl, fun _ _ => rfl⟩
  | _ => cases hworker

def frame : Frame :=
  { uploads, sha256 := fun _ => UpdateManager.abcDigest, updates := UpdateManager.frameConfig }

end ShareFrame.RemoteUpdate
