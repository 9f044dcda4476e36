import ShareFrame.Dashboard.FrameHandlers
import ShareFrame.Display.DisplayService

/-!
# Updates of the playback order

Connection threads of the dashboard handle requests that set the playback mode and
perhaps the custom order; their calls reach the display service through one IPC
client. The client's mutex is held for a whole call. A call can fail at any time,
its message can be lost, sent again or come late, and other services send messages
as well. The display service answers before the bus thread applies what it
published.

Fields marked *ghost* are never read by a step.
-/

namespace ShareFrame.OrderUpdates

open Interaction Transition
open Playback (Generator)
open Dashboard (Outside OutsideAns Service Request Response)

/-- A connection thread. -/
structure Session where
  req : Request
  rest : Service Response
  /-- ghost: the custom order that the display service had when it answered the read -/
  read : Option (List Int) := none

/-- A call of the IPC client. -/
structure Packet where
  number : Nat
  session : Nat
  op : Outside
  msg : IpcMessage
  /-- ghost: what a request without a custom order had read, in its update -/
  keeps : Option (Option (List Int))
  deriving DecidableEq

structure State (γ : Type) where
  display : DisplayService.State γ
  sessions : Nat → Option Session := fun _ => none
  calls : Nat := 0
  /-- the call that holds the client's mutex -/
  waiting : Option Packet := none
  wire : List Packet := []
  /-- the call whose message is on the IPC thread -/
  serving : Option Packet := none
  /-- ghost: the custom order that the handler on the IPC thread read -/
  seen : Option (List Int) := none
  /-- ghost: the messages that update the mode only, with what their requests had read -/
  origins : List (Nat × Option (List Int)) := []

/-- `playback_custom_order` as the display service has it. -/
def State.stored {γ : Type} (s : State γ) : List Int := s.display.loop.settings.customOrder_

inductive Act where
  /-- a step of the display service; its requests come from other services -/
  | display (act : DisplayService.Act)
  | begin (session : Nat) (req : Request)
  /-- the session's next call takes the mutex -/
  | send (session : Nat)
  /-- the socket repeats a request that is not answered yet -/
  | resend
  | lose (position : Nat)
  /-- the call ends without a reply -/
  | fail
  | receive (position : Nat)
  | reply
  | finish (session : Nat)

variable {γ : Type} (gen : Generator γ) (cfg : DisplayImageLoop.Config)
  (parse : HTTPClient.Bytes → Option Json)

/-- The custom order in the body of a request. -/
def givenOrder (req : Request) : Option Json := (parse req.body).bind (·.find "custom_order")

/-- The message of an operation on the client of the display service. -/
def message : Outside → Option IpcMessage
  | .sendAndReceive .display msg | .send .display msg => some msg
  | _ => none

/-- How a call ends for its session. -/
def ended (op : Outside) (reply : Option Json) : Option (Event OutsideAns) :=
  match op with
  | .sendAndReceive peer msg => some ⟨.sendAndReceive peer msg, reply⟩
  | .send peer msg => some ⟨.send peer msg, reply.isSome⟩
  | _ => none

def readOrder : IpcMessage := { type := .getPlaybackOrder }

/-- The session that waits goes on, and the mutex is free. -/
def endCall (s : State γ) (packet : Packet) (reply : Option Json) : Option (State γ) :=
  match s.sessions packet.session, ended packet.op reply with
  | some session, some event => (session.rest.answer event).map fun rest =>
    let read := if packet.msg = readOrder ∧ reply.isSome then s.seen else session.read
    { s with
      waiting := none
      sessions := Function.update s.sessions packet.session (some { session with rest, read }) }
  | _, _ => none

/-- What is sent back; the reply is empty when the handler threw. -/
def document : Except DisplayIpc.Error Json → Json
  | .ok doc => doc
  | .error _ => DisplayIpc.empty

def step (s : State γ) : Act → Option (State γ)
  | .display act =>
    match act with
    | .reply => none
    | .request msg => (DisplayService.step gen cfg s.display (.request msg)).map fun display =>
      { s with display, serving := none, seen := none }
    | .ipc ⟨.getCustomOrder, ids⟩ =>
      (DisplayService.step gen cfg s.display (.ipc ⟨.getCustomOrder, ids⟩)).map fun display =>
        { s with display, seen := some ids }
    | act => (DisplayService.step gen cfg s.display act).map fun display => { s with display }
  | .begin n req =>
    match s.sessions n with
    | some _ => none
    | none =>
      let rest := Dashboard.SlideshowImageHandlers.handleUpdateOrder parse req
      some { s with sessions := Function.update s.sessions n (some { req, rest }) }
  | .send n =>
    match s.waiting, s.sessions n with
    | none, some session =>
      match session.rest.next with
      | none => none
      | some op => (message op).map fun msg =>
        let keeps := if msg.type = .updatePlaybackOrder ∧ givenOrder parse session.req = none then
          some session.read else none
        let packet := { number := s.calls, session := n, op, msg, keeps }
        { s with calls := s.calls + 1, waiting := some packet, wire := s.wire ++ [packet] }
    | _, _ => none
  | .resend => s.waiting.map fun packet => { s with wire := s.wire ++ [packet] }
  | .lose position => some { s with wire := s.wire.eraseIdx position }
  | .fail =>
    match s.waiting with
    | none => none
    | some packet => endCall s packet none
  | .receive position =>
    match s.wire[position]? with
    | none => none
    | some packet =>
      (DisplayService.step gen cfg s.display (.request packet.msg)).map fun display =>
        { s with
          display
          wire := s.wire.eraseIdx position
          serving := some packet
          seen := none
          origins := (packet.keeps.map fun read => (s.display.received, read)).toList ++ s.origins }
  | .reply =>
    match s.display.ipc with
    | none => none
    | some call =>
      match call.rest.outcome, DisplayService.step gen cfg s.display .reply with
      | some result, some display =>
        let s := { s with display }
        -- a reply to another call than the one that waits is dropped
        match s.serving with
        | none => some s
        | some packet =>
          if s.waiting = some packet then endCall s packet (some (document result)) else some s
      | _, _ => none
  | .finish n =>
    match s.sessions n with
    | none => none
    | some session =>
      if session.rest.outcome.isSome then
        some { s with sessions := Function.update s.sessions n none }
      else none

/-- No request is being handled yet. -/
def machine : Machine (State γ) Act where
  Init s := ∃ display, (DisplayService.machine gen cfg).Init display ∧
    (∀ id ∈ display.loop.settings.customOrder_, Json.IsInt64 id) ∧ s = { display }
  step := step gen cfg parse

end ShareFrame.OrderUpdates
