import ShareFrame.Lib.Machine
import ShareFrame.Util.Json

/-!
# The websocket send queue

What is published on `WS_SEND` is sent when the connection is open and queued when
it is not; the callback of an opened connection flushes the queue. `step` is one
atomic step of the bus thread (in the `WS_SEND` handler), of the callback thread,
or of the connection. `sendMtx_` is held by one of the threads at a time.

In a run whose sends succeed, whose messages can be dumped and in which no direct
send overtakes the queue, nothing is lost, repeated or reordered (`send_kept`).

Fields marked *ghost* are never read by a step.
-/

namespace ShareFrame.SendQueue

open Transition

inductive Thread where
  | bus
  | callback
  deriving DecidableEq, Repr

/-- Where the bus thread is in the `WS_SEND` handler. -/
inductive Sender where
  | idle
  | entered (msg : Json)
  | locked (msg : Json)
  /-- the connection was open -/
  | sending (msg : Json)
  | queueing (msg : Json)
  deriving DecidableEq

/-- Where the callback thread is in the callback of an opened connection. -/
inductive Callback where
  | idle
  | opened
  /-- in `_flushSendQueue`, before the message at this index -/
  | flushing (next : Nat)
  deriving DecidableEq

structure State where
  /-- `getReadyState` says `Open` -/
  ready : Bool := false
  sendMtx_ : Option Thread := none
  sendQueue_ : List Json := []
  sender : Sender := .idle
  callback : Callback := .idle
  /-- an exception left the callback -/
  terminated : Bool := false
  /-- ghost: the published messages whose handler has returned -/
  handled : List Json := []
  /-- ghost: the messages of the sends that succeeded -/
  sent : List Json := []

inductive Act where
  | publish (msg : Json)
  | lock
  | getReadyState
  | send (success : Bool)
  | pushBack
  | opens
  | closes
  | flushLock
  | flushSend (success : Bool)
  | clear
  deriving DecidableEq

/-- The handler returns, or throws into the bus. -/
def leave (s : State) (msg : Json) : State :=
  { s with sender := .idle, sendMtx_ := none, handled := s.handled ++ [msg] }

/-- `dump` answers `none` where it throws. -/
def step (dump : Json → Option String) (s : State) (a : Act) : Option State :=
  if s.terminated then none
  else match a with
  | .publish msg => if s.sender = .idle then some { s with sender := .entered msg } else none
  | .lock =>
    match s.sender with
    | .entered msg =>
      if s.sendMtx_ = none then some { s with sender := .locked msg, sendMtx_ := some .bus } else none
    | _ => none
  | .getReadyState =>
    match s.sender with
    | .locked msg => some { s with sender := if s.ready then .sending msg else .queueing msg }
    | _ => none
  | .send success =>
    match s.sender with
    | .sending msg =>
      match dump msg with
      | none => some (leave s msg)
      -- the result of the send is not looked at
      | some _ => some { leave s msg with sent := if success then s.sent ++ [msg] else s.sent }
    | _ => none
  | .pushBack =>
    match s.sender with
    | .queueing msg =>
      -- read for the log line
      match msg.value Json.getString "type" "unknown" with
      | .error _ => some (leave s msg)
      | .ok _ => some { leave s msg with sendQueue_ := s.sendQueue_ ++ [msg] }
    | _ => none
  | .opens =>
    if s.ready = false ∧ s.callback = .idle then some { s with ready := true, callback := .opened }
    else none
  | .closes => some { s with ready := false }
  | .flushLock =>
    if s.callback = .opened ∧ s.sendMtx_ = none then
      some { s with callback := .flushing 0, sendMtx_ := some .callback }
    else none
  | .flushSend success =>
    match s.callback with
    | .flushing next =>
      match s.sendQueue_[next]? with
      | none => none
      | some msg =>
        match dump msg with
        | none => some { s with terminated := true }
        | some _ =>
          some { s with
            callback := .flushing (next + 1)
            sent := if success then s.sent ++ [msg] else s.sent }
    | _ => none
  | .clear =>
    match s.callback with
    | .flushing next =>
      if next = s.sendQueue_.length then
        some { s with callback := .idle, sendMtx_ := none, sendQueue_ := [] }
      else none
    | _ => none

def machine (dump : Json → Option String) : Machine State Act where
  Init s := s = {}
  step := step dump

/-! ## What is kept -/

/-- Every handled message went out with one successful send, in the order of publication, or is
still in the queue. -/
def Kept (s : State) : Prop := ∃ rest, s.handled = s.sent ++ rest ∧ rest <:+ s.sendQueue_

/-- A message that both ways out of the handler can take. -/
def Sendable (dump : Json → Option String) (msg : Json) : Prop :=
  (dump msg).isSome = true ∧ msg.Reads Json.getString "type"

/-- The message can be sent, sends succeed, and a message is sent directly only when none is
queued. -/
def Smooth (dump : Json → Option String) (s : State) : Act → Prop
  | .publish msg => Sendable dump msg
  | .send success | .flushSend success => success = true
  | .getReadyState => s.ready = true → s.sendQueue_ = []
  | _ => True

instance (dump : Json → Option String) (s : State) (a : Act) : Decidable (Smooth dump s a) := by
  cases a <;> unfold Smooth <;> (try unfold Sendable) <;> infer_instance

/-- The message in the handler. -/
def Sender.msg : Sender → Option Json
  | .idle => none
  | .entered msg | .locked msg | .sending msg | .queueing msg => some msg

/-- The handler has the lock. -/
def Sender.InLock : Sender → Prop
  | .locked _ | .sending _ | .queueing _ => True
  | _ => False

/-- How many queued messages a flush has sent. -/
def Callback.flushed : Callback → Nat
  | .flushing next => next
  | _ => 0

structure Orderly (dump : Json → Option String) (s : State) : Prop where
  sendable : ∀ msg, s.sender.msg = some msg → Sendable dump msg
  bus : s.sender.InLock → s.sendMtx_ = some .bus
  flush : ∀ next, s.callback = .flushing next → s.sendMtx_ = some .callback
  direct : ∀ msg, s.sender = .sending msg → s.sendQueue_ = []
  kept : s.handled = s.sent ++ s.sendQueue_.drop s.callback.flushed

variable {dump : Json → Option String}

theorem Orderly.init : Orderly dump {} := ⟨nofun, nofun, nofun, nofun, rfl⟩

/-- Without the lock no flush is under way. -/
theorem Orderly.flushed_eq_zero {s : State} (h : Orderly dump s)
    (hlock : s.sendMtx_ ≠ some .callback) : s.callback.flushed = 0 := by
  cases hc : s.callback with
  | flushing next => exact absurd (h.flush next hc) hlock
  | _ => rfl

/-- The handler is done with its message, which went out or to the end of the queue. -/
theorem Orderly.leave {s s' : State} {msg : Json} (h : Orderly dump s) (hbus : s.sendMtx_ = some .bus)
    (hs : s' = { ShareFrame.SendQueue.leave s msg with
      sent := s'.sent
      sendQueue_ := s'.sendQueue_ })
    (hout : s'.sent ++ s'.sendQueue_ = s.sent ++ s.sendQueue_ ++ [msg]) : Orderly dump s' := by
  have hfree : s.sendMtx_ ≠ some .callback := by simp [hbus]
  have hkept := h.kept
  rw [h.flushed_eq_zero hfree, List.drop_zero] at hkept
  have hcallback : s'.callback = s.callback := by rw [hs]; rfl
  have hhandled : s'.handled = s.handled ++ [msg] := by rw [hs]; rfl
  constructor
  case sendable => rw [hs]; exact nofun
  case bus => rw [hs]; exact nofun
  case flush => exact fun next hn => absurd (h.flush next (hcallback ▸ hn)) hfree
  case direct => rw [hs]; exact nofun
  case kept =>
    rw [hcallback, h.flushed_eq_zero hfree, List.drop_zero, hout, hhandled, hkept]

theorem Orderly.step {s s' : State} {a : Act} (h : Orderly dump s) (hG : Smooth dump s a)
    (hs : step dump s a = some s') : Orderly dump s' := by
  simp only [SendQueue.step] at hs
  split at hs
  · cases hs
  cases a with
  | publish msg =>
    simp only at hs
    split at hs <;> cases hs
    exact { h with
      sendable := fun m hm => by cases hm; exact hG
      bus := nofun
      direct := nofun }
  | lock =>
    simp only at hs
    split at hs
    next msg hsender =>
      split at hs <;> cases hs
      next hfree =>
        have hno : ∀ next, s.callback ≠ .flushing next := fun next hn => by
          rw [h.flush next hn] at hfree; cases hfree
        exact { h with
          sendable := fun m hm => h.sendable m (by rw [hsender]; exact hm)
          bus := fun _ => rfl
          flush := fun next hn => absurd hn (hno next)
          direct := nofun }
    next => cases hs
  | getReadyState =>
    simp only at hs
    split at hs
    next msg hsender =>
      cases hs
      have hbus : s.sendMtx_ = some .bus := h.bus (by rw [hsender]; trivial)
      have hmsg : Sendable dump msg := h.sendable msg (by rw [hsender]; rfl)
      by_cases hready : s.ready = true
      · exact { h with
          sendable := fun m hm => by rw [if_pos hready] at hm; cases hm; exact hmsg
          bus := fun _ => hbus
          direct := fun _ _ => hG hready }
      · exact { h with
          sendable := fun m hm => by rw [if_neg hready] at hm; cases hm; exact hmsg
          bus := fun _ => hbus
          direct := fun m hm => by rw [if_neg hready] at hm; cases hm }
    next => cases hs
  | send success =>
    simp only at hs
    split at hs
    next msg hsender =>
      have hbus : s.sendMtx_ = some .bus := h.bus (by rw [hsender]; trivial)
      have hempty := h.direct msg hsender
      obtain ⟨hdump, -⟩ := h.sendable msg (by rw [hsender]; rfl)
      obtain ⟨text, htext⟩ := Option.isSome_iff_exists.mp hdump
      rw [htext] at hs
      have hsuccess : success = true := hG
      subst hsuccess
      cases hs
      exact h.leave hbus rfl (by simp [SendQueue.leave, hempty])
    next => cases hs
  | pushBack =>
    simp only at hs
    split at hs
    next msg hsender =>
      have hbus : s.sendMtx_ = some .bus := h.bus (by rw [hsender]; trivial)
      obtain ⟨-, hreads⟩ := h.sendable msg (by rw [hsender]; rfl)
      have hok := (Json.value_isOk "unknown").mpr hreads
      split at hs
      next e he => rw [he] at hok; cases hok
      next =>
        cases hs
        exact h.leave hbus rfl (by simp [SendQueue.leave])
    next => cases hs
  | opens =>
    simp only at hs
    split at hs <;> cases hs
    next hidle =>
      have hkept := h.kept
      rw [hidle.2] at hkept
      exact { h with flush := nofun, kept := hkept }
  | closes => cases hs; exact { h with }
  | flushLock =>
    simp only at hs
    split at hs <;> cases hs
    next hopened =>
      obtain ⟨hopened, hfree⟩ := hopened
      have hkept := h.kept
      rw [hopened] at hkept
      exact { h with
        bus := fun hin => by rw [h.bus hin] at hfree; cases hfree
        flush := fun _ _ => rfl
        kept := hkept }
  | flushSend success =>
    simp only at hs
    split at hs
    next next hnext =>
      have hsuccess : success = true := hG
      subst hsuccess
      split at hs
      next => cases hs
      next msg hmsg =>
        have hkept := h.kept
        rw [hnext] at hkept
        split at hs <;> cases hs
        · exact { h with }
        · obtain ⟨hlt, hget⟩ := List.getElem?_eq_some_iff.mp hmsg
          refine { h with flush := fun _ _ => h.flush next hnext, kept := ?_ }
          show s.handled = (s.sent ++ [msg]) ++ s.sendQueue_.drop (next + 1)
          rw [hkept]
          show s.sent ++ s.sendQueue_.drop next = _
          rw [List.drop_eq_getElem_cons hlt, hget]
          simp
    next => cases hs
  | clear =>
    simp only at hs
    split at hs
    next next hnext =>
      split at hs <;> cases hs
      next hend =>
        have hlock := h.flush next hnext
        have hkept := h.kept
        rw [hnext] at hkept
        refine { h with
          bus := fun hin => by rw [h.bus hin] at hlock; cases hlock
          flush := nofun
          direct := fun _ _ => rfl
          kept := ?_ }
        show s.handled = s.sent ++ []
        rw [hkept]
        show s.sent ++ s.sendQueue_.drop next = _
        rw [hend, List.drop_length]
    next => cases hs

theorem orderly_inductive : (machine dump).Inductive (Smooth dump) (Orderly dump) where
  init _ hs := hs ▸ .init
  step _ _ _ h hG hs := h.step hG hs

theorem send_kept {s : State} (hr : (machine dump).ReachableBy (Smooth dump) s) : Kept s := by
  have h := orderly_inductive.of_reachable hr
  exact ⟨_, h.kept, List.drop_suffix _ _⟩

/-! ## Runs -/

/-- A request for pictures, as the frame publishes it when it connects. -/
def missing : Json := .obj [("type", .str "check_missing_images")]

/-- The answer to a remote command. -/
def accepted : Json := .obj [("type", .str "command_result"), ("status", .str "accepted")]

def dumped (msg : Json) : Option String :=
  if msg = missing then some "\x7b\"type\":\"check_missing_images\"\x7d"
  else if msg = accepted then some "\x7b\"status\":\"accepted\",\"type\":\"command_result\"\x7d"
  else none

/-- One message waits for the connection, one is sent directly. -/
def smoothRun : List Act :=
  [.publish missing, .lock, .getReadyState, .pushBack, .opens, .flushLock, .flushSend true, .clear,
    .publish accepted, .lock, .getReadyState, .send true]

theorem send_kept_smooth : ∃ s, (machine dumped).run {} smoothRun = some s ∧
    s.sent = [missing, accepted] ∧ Kept s := by
  obtain ⟨s, hs, hsent⟩ : ∃ s ∈ (machine dumped).run {} smoothRun, s.sent = [missing, accepted] := by
    decide +kernel
  have hG : (machine dumped).Meets (Smooth dumped) {} smoothRun := by decide +kernel
  exact ⟨s, hs, hsent, send_kept (Machine.ReachableBy.run smoothRun (.init rfl) hG hs)⟩

/-- The connection has just gone when the direct send is made. -/
def lostRun : List Act :=
  [.opens, .flushLock, .clear, .publish accepted, .lock, .getReadyState, .closes, .send false]

/-- Between the state change and the flush, a message is sent ahead of the queued one. -/
def overtakenRun : List Act :=
  [.publish missing, .lock, .getReadyState, .pushBack, .opens,
    .publish accepted, .lock, .getReadyState, .send true]

theorem not_kept_lost_overtaken :
    (∃ s, (machine dumped).Reachable s ∧ s.handled = [accepted] ∧ ¬ Kept s) ∧
      ∃ s, (machine dumped).Reachable s ∧ s.handled = [missing, accepted] ∧ ¬ Kept s := by
  constructor
  · obtain ⟨s, hs, hhandled, hsent, hqueue⟩ : ∃ s ∈ (machine dumped).run {} lostRun,
        s.handled = [accepted] ∧ s.sent = [] ∧ s.sendQueue_ = [] := by decide +kernel
    refine ⟨s, Machine.reachable_run lostRun rfl hs, hhandled, ?_⟩
    rintro ⟨rest, hrest, hsuffix⟩
    rw [hqueue, List.suffix_nil] at hsuffix
    rw [hhandled, hsent, hsuffix] at hrest
    cases hrest
  · obtain ⟨s, hs, hhandled, hsent⟩ : ∃ s ∈ (machine dumped).run {} overtakenRun,
        s.handled = [missing, accepted] ∧ s.sent = [accepted] := by decide +kernel
    refine ⟨s, Machine.reachable_run overtakenRun rfl hs, hhandled, ?_⟩
    rintro ⟨rest, hrest, -⟩
    rw [hhandled, hsent] at hrest
    exact absurd (List.cons.inj hrest).1 (by decide)

end ShareFrame.SendQueue
