import Mathlib.Data.List.Forall2
import Mathlib.Data.List.ReduceOption
import ShareFrame.Lib.Machine
import ShareFrame.Lib.Pipe
import ShareFrame.Util.Json
import ShareFrame.Util.Text

/-!
# Events between the services

`EventBridge` of the websocket service writes five kinds of bus events to a publisher
socket, each as its topic, a line break and a document. The display and the heartbeat
service read them with an `EventSubscriber`, which logs what it cannot read, and whose
loop ends at the first error of the socket. The socket loses messages, and keeps the
order of the others.

What a service does with an event is what was published (`received_view`). It gets a
part of the published events in their order, and all of them if nothing was lost
(`received_in_order`).
-/

namespace ShareFrame.EventBridge

open Transition

/-- The bus events that are bridged. -/
inductive Event where
  | imageNew (id : Int)
  | imageRemoved (ids : List Int)
  | clearDisplay (msg : Json)
  | wsConnected
  | frameRegistration (registered : Bool)
  deriving DecidableEq

/-! ## `event_topics` -/

def topic : Event → String
  | .imageNew _ => "image.new"
  | .imageRemoved _ => "image.removed"
  | .clearDisplay _ => "display.clear"
  | .wsConnected => "ws.connected"
  | .frameRegistration _ => "frame.registration"

def payload : Event → Json
  | .imageNew id => .obj [("id", .int id)]
  | .imageRemoved ids => .obj [("ids", .arr (ids.map .int))]
  | .clearDisplay msg => msg
  | .wsConnected => .obj []
  | .frameRegistration registered => .obj [("registered", .bool registered)]

section Wire

variable (dump : Json → List UInt8) (parse : List UInt8 → Option Json)

/-- `EventPublisher::publish` -/
def wire (e : Event) : List UInt8 := Text.bytes (topic e) ++ 10 :: dump (payload e)

/-- The topic and the payload of a message; `none` where `_recvLoop` logs that it is malformed, or
catches what the parser throws. -/
def unwire (text : List UInt8) : Option (List UInt8 × Json) :=
  match text.dropWhile (· ≠ 10) with
  | [] => none
  | _ :: rest => (parse rest).map (text.takeWhile (· ≠ 10), ·)

end Wire

/-! ## Callbacks -/

/-- What `DisplayIpc::onEvent` publishes on the bus of the display service. -/
inductive Received where
  | clearDisplay (msg : Json)
  | imageRemoved (ids : List Int)
  | imageNew (id : Int)
  | frameRegistration (registered : Bool)
  deriving DecidableEq

/-- `none` where it publishes nothing; what it throws is caught by `_recvLoop`. -/
def onEvent (topic : List UInt8) (payload : Json) : Except Json.Error (Option Received) :=
  if topic = Text.bytes "display.clear" then .ok (some (.clearDisplay payload))
  else if topic = Text.bytes "image.removed" then
    (payload.value Json.getInt64s "ids" []).map (some <| .imageRemoved ·)
  else if topic = Text.bytes "image.new" then
    (payload.value Json.getInt64 "id" 0).map (some <| .imageNew ·)
  else if topic = Text.bytes "frame.registration" then
    (payload.value Json.getBool "registered" true).map (some <| .frameRegistration ·)
  else .ok none

/-- The callback of the heartbeat service: it calls `runNow`. -/
def onHeartbeatEvent (topic : List UInt8) (_payload : Json) : Except Json.Error (Option Unit) :=
  .ok (if topic = Text.bytes "ws.connected" then some () else none)

/-- One message, with the callback. -/
def receive {ρ : Type} (parse : List UInt8 → Option Json)
    (cb : List UInt8 → Json → Except Json.Error (Option ρ)) (text : List UInt8) : Option ρ :=
  match unwire parse text with
  | none => none
  | some (topic, payload) =>
    match cb topic payload with
    | .ok r => r
    | .error _ => none

/-! ## The event that was published is the one that is received -/

/-- The event as the display service sees it. -/
inductive View : Event → Option Received → Prop where
  | imageNew (id : Int) : View (.imageNew id) (some (.imageNew id))
  | imageRemoved (ids : List Int) : View (.imageRemoved ids) (some (.imageRemoved ids))
  | clearDisplay {msg msg' : Json} (h : msg.Same msg') :
    View (.clearDisplay msg) (some (.clearDisplay msg'))
  | frameRegistration (registered : Bool) :
    View (.frameRegistration registered) (some (.frameRegistration registered))
  | wsConnected : View .wsConnected none

/-- The ids are of the type of an id. -/
def Event.Typed : Event → Prop
  | .imageNew id => Json.IsInt64 id
  | .imageRemoved ids => ∀ id ∈ ids, Json.IsInt64 id
  | _ => True

/-- And the document is read back. -/
structure Sendable (dump : Json → List UInt8) (parse : List UInt8 → Option Json) (e : Event) :
    Prop where
  typed : e.Typed
  document : ∃ doc, parse (dump (payload e)) = some doc ∧ (payload e).Same doc

variable {dump : Json → List UInt8} {parse : List UInt8 → Option Json} {e : Event}

theorem newline_notMem_topic (e : Event) : (10 : UInt8) ∉ Text.bytes (topic e) := by
  cases e <;> simp only [topic] <;> decide

theorem unwire_wire {doc : Json} (h : parse (dump (payload e)) = some doc) :
    unwire parse (wire dump e) = some (Text.bytes (topic e), doc) := by
  have hall : ∀ b ∈ Text.bytes (topic e), decide (b ≠ 10) = true := fun b hb =>
    decide_eq_true fun hten => newline_notMem_topic e (hten ▸ hb)
  unfold unwire wire
  rw [List.dropWhile_append_of_pos hall, List.takeWhile_append_of_pos hall]
  simp [h]

theorem receive_wire {ρ : Type} {cb : List UInt8 → Json → Except Json.Error (Option ρ)} {doc : Json}
    {r : Option ρ} (h : parse (dump (payload e)) = some doc) (hcb : cb (Text.bytes (topic e)) doc = .ok r) :
    receive parse cb (wire dump e) = r := by
  rw [receive, unwire_wire h]
  simp only [hcb]

/-- The display service publishes the event that the websocket service published. -/
theorem received_view (h : Sendable dump parse e) : View e (receive parse onEvent (wire dump e)) := by
  obtain ⟨htyped, doc, hparse, hsame⟩ := h
  cases e with
  | imageNew id =>
    have hvalue : doc.value Json.getInt64 "id" 0 = .ok id := by
      rw [hsame.value Json.Same.getInt64]
      exact congrArg Except.ok htyped.bmod
    rw [receive_wire (r := some (.imageNew id)) hparse]
    · exact .imageNew id
    · rw [onEvent, topic, if_neg (by decide), if_neg (by decide), if_pos rfl, hvalue]
      rfl
  | imageRemoved ids =>
    have hvalue : doc.value Json.getInt64s "ids" [] = .ok ids := by
      rw [hsame.value Json.Same.getInt64s]
      exact Json.getInt64s_map_int htyped
    rw [receive_wire (r := some (.imageRemoved ids)) hparse]
    · exact .imageRemoved ids
    · rw [onEvent, topic, if_neg (by decide), if_pos rfl, hvalue]
      rfl
  | clearDisplay msg =>
    rw [receive_wire (r := some (.clearDisplay doc)) hparse]
    · exact .clearDisplay hsame
    · exact if_pos rfl
  | wsConnected =>
    rw [receive_wire (r := none) hparse]
    · exact .wsConnected
    · rw [onEvent, topic, if_neg (by decide), if_neg (by decide), if_neg (by decide), if_neg (by decide)]
  | frameRegistration registered =>
    have hvalue : doc.value Json.getBool "registered" true = .ok registered := by
      rw [hsame.value Json.Same.getBool]
      rfl
    rw [receive_wire (r := some (.frameRegistration registered)) hparse]
    · exact .frameRegistration registered
    · rw [onEvent, topic, if_neg (by decide), if_neg (by decide), if_neg (by decide), if_pos rfl, hvalue]
      rfl

/-- The heartbeat service runs now for a connection, and for nothing else. -/
theorem receive_heartbeat (h : Sendable dump parse e) :
    receive parse onHeartbeatEvent (wire dump e) = if e = .wsConnected then some () else none := by
  obtain ⟨-, doc, hparse, -⟩ := h
  refine receive_wire hparse ?_
  cases e with
  | wsConnected => rfl
  | _ =>
    rw [topic, onHeartbeatEvent, if_neg (by decide), if_neg (by simp)]

/-! ## Runs -/

inductive Reader where
  | listening
  | ended
  deriving DecidableEq, Repr

/-- The publisher, and one subscriber with what its callback has done. -/
structure State (ρ : Type) where
  /-- the publisher listens -/
  open_ : Bool := true
  pipe : Pipe (List UInt8) := {}
  reader : Reader := .listening
  received : List ρ := []
  /-- *ghost*: the events that the bridge was called with -/
  bridged : List Event := []

inductive Act where
  /-- the bus calls the bridge; the message gets on its way to the subscriber or not -/
  | event (e : Event) (sent : Bool)
  | lose (i : Nat)
  /-- `~EventPublisher` -/
  | close
  | recv
  /-- `nng_recv` fails, or a stop was requested -/
  | finish
  deriving DecidableEq

section Machine

variable {ρ : Type} (dump : Json → List UInt8) (parse : List UInt8 → Option Json)
  (cb : List UInt8 → Json → Except Json.Error (Option ρ))

def step (s : State ρ) : Act → Option (State ρ)
  | .event e sent =>
    let pipe := if s.open_ ∧ sent then s.pipe.write (wire dump e) else s.pipe.drop (wire dump e)
    some { s with pipe, bridged := s.bridged ++ [e] }
  | .lose i => some { s with pipe := s.pipe.lose i }
  | .close => some { s with open_ := false }
  | .recv =>
    match s.reader, s.pipe.take with
    | .listening, some (text, pipe) =>
      some { s with pipe, received := s.received ++ (receive parse cb text).toList }
    | _, _ => none
  | .finish => some { s with reader := .ended }

def machine : Machine (State ρ) Act := ⟨fun s => s = {}, step dump parse cb⟩

end Machine

/-- Every event is one that can be sent. -/
def Typed (dump : Json → List UInt8) (parse : List UInt8 → Option Json) {ρ : Type} (_ : State ρ) :
    Act → Prop
  | .event e _ => Sendable dump parse e
  | _ => True

/-- And it gets on its way, where it is not lost. -/
def Lossless (dump : Json → List UInt8) (parse : List UInt8 → Option Json) {ρ : Type} (s : State ρ) :
    Act → Prop
  | .event e sent => Sendable dump parse e ∧ s.open_ = true ∧ sent = true
  | .lose _ => False
  | _ => True

section Runs

variable {ρ : Type} {cb : List UInt8 → Json → Except Json.Error (Option ρ)} {s s' : State ρ} {a : Act}

structure Inv (dump : Json → List UInt8) (parse : List UInt8 → Option Json)
    (cb : List UInt8 → Json → Except Json.Error (Option ρ)) (s : State ρ) : Prop where
  pipe : s.pipe.Ok
  written : s.pipe.written = s.bridged.map (wire dump)
  received : s.received = s.pipe.read.filterMap (receive parse cb)
  sendable : ∀ e ∈ s.bridged, Sendable dump parse e

theorem Inv.step (h : Inv dump parse cb s) (hG : Typed dump parse s a)
    (hs : step dump parse cb s a = some s') : Inv dump parse cb s' := by
  cases a with
  | event e sent =>
    cases hs
    have hsendable : ∀ e' ∈ s.bridged ++ [e], Sendable dump parse e' := fun e' he' =>
      (List.mem_append.mp he').elim (h.sendable e') fun he' => List.mem_singleton.mp he' ▸ hG
    split
    · refine ⟨h.pipe.write _, ?_, h.received, hsendable⟩
      simp only [Pipe.write, h.written, List.map_append, List.map_cons, List.map_nil]
    · refine ⟨h.pipe.drop _, ?_, h.received, hsendable⟩
      simp only [Pipe.drop, h.written, List.map_append, List.map_cons, List.map_nil]
  | lose i =>
    cases hs
    exact { h with pipe := h.pipe.lose i }
  | close | finish =>
    cases hs
    exact { h with }
  | recv =>
    simp only [EventBridge.step] at hs
    split at hs
    next text pipe _ htake =>
      cases hs
      have hpipe := h.pipe.take htake
      obtain ⟨flight, -, rfl⟩ := Pipe.take_eq_some htake
      refine { h with pipe := hpipe, received := ?_ }
      rw [List.filterMap_append, ← h.received]
      simp only [List.filterMap_cons, List.filterMap_nil]
      cases receive parse cb text <;> rfl
    next => cases hs

theorem inv_inductive : (machine dump parse cb).Inductive (Typed dump parse) (Inv dump parse cb) where
  init s h := by
    obtain rfl : s = {} := h
    exact ⟨Pipe.ok_empty, rfl, rfl, nofun⟩
  step _ _ _ h hG hs := h.step hG hs

theorem typed_of_lossless (s : State ρ) (a : Act) (h : Lossless dump parse s a) :
    Typed dump parse s a := by
  cases a with
  | event => exact h.1
  | _ => trivial

theorem whole_inductive :
    (machine dump parse cb).Inductive (Lossless dump parse) fun s => s.pipe.Whole where
  init s h := by
    obtain rfl : s = {} := h
    exact Pipe.whole_empty
  step s a s' h hG hs := by
    have hs : step dump parse cb s a = some s' := hs
    cases a with
    | event e sent =>
      cases hs
      obtain ⟨-, hopen, rfl⟩ := hG
      dsimp only
      rw [if_pos ⟨hopen, rfl⟩]
      exact h.write _
    | lose i => cases hG
    | close | finish =>
      cases hs
      exact h
    | recv =>
      simp only [EventBridge.step] at hs
      split at hs
      next text pipe _ htake =>
        cases hs
        exact h.take htake
      next => cases hs

/-- What a subscriber got is what its callback makes of some of the events, in their order. -/
theorem Inv.exists_kept (h : Inv dump parse cb s) :
    ∃ kept, kept.Sublist s.bridged ∧ (s.pipe.Whole → s.pipe.flight = [] → kept = s.bridged) ∧
      s.received = kept.filterMap fun e => receive parse cb (wire dump e) := by
  by_cases hwhole : s.pipe.Whole ∧ s.pipe.flight = []
  · refine ⟨s.bridged, .refl _, fun _ _ => rfl, ?_⟩
    rw [h.received, hwhole.1.read_eq hwhole.2, h.written, List.filterMap_map]
    rfl
  · have hread := h.pipe.sublist
    rw [h.written] at hread
    obtain ⟨kept, hkept, heq⟩ := List.sublist_map_iff.mp hread
    refine ⟨kept, hkept, fun hw hf => absurd ⟨hw, hf⟩ hwhole, ?_⟩
    rw [h.received, heq, List.filterMap_map]
    rfl

end Runs

variable {s : State Received}

theorem forall₂_view : ∀ {events : List Event}, (∀ e ∈ events, Sendable dump parse e) →
    List.Forall₂ View events (events.map fun e => receive parse onEvent (wire dump e))
  | [], _ => .nil
  | e :: _, h => .cons (received_view (h e List.mem_cons_self))
      (forall₂_view fun e' he' => h e' (List.mem_cons_of_mem _ he'))

/-- The events that the display service publishes are views of published ones, in their order; of
all of them, if nothing was lost and nothing is on its way. -/
theorem received_in_order (hr : (machine dump parse onEvent).ReachableBy (Typed dump parse) s) :
    ∃ kept views, kept.Sublist s.bridged ∧ List.Forall₂ View kept views ∧
      s.received = views.reduceOption ∧
      ((machine dump parse onEvent).ReachableBy (Lossless dump parse) s → s.pipe.flight = [] →
        kept = s.bridged) := by
  have hinv := inv_inductive.of_reachable hr
  obtain ⟨kept, hkept, hall, hreceived⟩ := hinv.exists_kept
  refine ⟨kept, kept.map fun e => receive parse onEvent (wire dump e), hkept,
    forall₂_view fun e he => hinv.sendable e (hkept.subset he), ?_, fun hlossless => ?_⟩
  · rw [hreceived, List.reduceOption, List.filterMap_map]
    rfl
  · exact hall (whole_inductive.of_reachable hlossless)

/-- The id of a picture arrives. -/
theorem received_in_order_new :
    let doc := Json.obj [("id", .int 7)]
    let text := Text.bytes "\x7b\"id\":7\x7d"
    let dump := fun j => if j = doc then text else []
    let parse := fun t => if t = text then some doc else none
    ∃ s, (machine dump parse onEvent).run {} [.event (.imageNew 7) true, .recv] = some s ∧
      s.received = [.imageNew 7] ∧
      ∃ kept views, kept.Sublist s.bridged ∧ List.Forall₂ View kept views ∧
        s.received = views.reduceOption := by
  intro doc text dump parse
  have hdoc : doc.Same doc := by
    refine .obj (fun _ => rfl) fun key a a' ha ha' => ?_
    obtain rfl := Option.some.inj (ha.symm.trans ha')
    simp only [List.lookup_cons] at ha
    split at ha
    · cases ha
      exact .int 7
    · cases ha
  have hsendable : Sendable dump parse (.imageNew 7) :=
    ⟨(by decide : Json.IsInt64 7), doc, by decide, hdoc⟩
  have hrun : (machine dump parse onEvent).run {} [.event (.imageNew 7) true, .recv] = some _ := rfl
  have hmeets : (machine dump parse onEvent).Meets (Typed dump parse) {}
      [.event (.imageNew 7) true, .recv] :=
    ⟨hsendable, fun _ _ => ⟨trivial, fun _ _ => trivial⟩⟩
  have hr := Machine.ReachableBy.run _ (.init rfl) hmeets hrun
  obtain ⟨kept, views, hkept, hviews, heq, -⟩ := received_in_order hr
  exact ⟨_, hrun, by decide, kept, views, hkept, hviews, heq⟩

/-- The heartbeat service runs now at most once for each connection. -/
theorem heartbeat_runs {s : State Unit}
    (hr : (machine dump parse onHeartbeatEvent).ReachableBy (Typed dump parse) s) :
    s.received.length ≤ s.bridged.count .wsConnected := by
  have hinv := inv_inductive.of_reachable hr
  obtain ⟨kept, hkept, -, hreceived⟩ := hinv.exists_kept
  refine Nat.le_trans (Nat.le_of_eq ?_) (hkept.count_le _)
  have hsendable : ∀ e ∈ kept, Sendable dump parse e := fun e he => hinv.sendable e (hkept.subset he)
  rw [hreceived]
  clear hreceived hkept
  induction kept with
  | nil => rfl
  | cons e kept ih =>
    have hrest := ih fun e' he' => hsendable e' (List.mem_cons_of_mem _ he')
    rw [List.filterMap_cons, receive_heartbeat (hsendable e List.mem_cons_self), List.count_cons]
    by_cases he : e = .wsConnected
    · simp [he, hrest]
    · simp [he, hrest]

end ShareFrame.EventBridge
