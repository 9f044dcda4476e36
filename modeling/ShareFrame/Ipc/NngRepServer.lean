import ShareFrame.Ipc.IpcProtocol
import ShareFrame.Lib.Machine

/-!
# The IPC server

`_serveLoop` receives a request, hands it to the handler and sends the reply, for
any requests and any outcome of the handler. An exception of the handler is
caught, one of the serialiser is not: a reply goes out for every request as long
as what the handler returns is valid UTF-8 (`answers_iff`).
-/

namespace ShareFrame

/-- `nlohmann::json` as a handler builds it. Texts are any bytes. -/
inductive RawJson where
  | null
  | bool (b : Bool)
  | int (n : Int)
  | float (x : Rat)
  | str (bytes : List UInt8)
  | arr (items : List RawJson)
  | obj (members : List (List UInt8 × RawJson))

namespace RawJson

def validText (bytes : List UInt8) : Bool := (ByteArray.mk bytes.toArray).validateUTF8

mutual

/-- Every text of the document is valid UTF-8. -/
def validUtf8 : RawJson → Bool
  | .str bytes => validText bytes
  | .arr items => validItems items
  | .obj members => validMembers members
  | _ => true

def validItems : List RawJson → Bool
  | [] => true
  | item :: items => validUtf8 item && validItems items

def validMembers : List (List UInt8 × RawJson) → Bool
  | [] => true
  | (key, member) :: members => validText key && validUtf8 member && validMembers members

end

end RawJson

namespace NngRepServer

open Transition

/-- How a call of the handler ends. -/
inductive Outcome where
  | value (j : RawJson)
  /-- a `std::exception` -/
  | threw
  /-- any other exception -/
  | threwOther

/-- The data of the reply: the handler's result, else an empty object. -/
def responseData : Option Outcome → RawJson
  | some (.value j) => j
  | _ => .obj []

inductive Pc where
  /-- the condition of the loop -/
  | top
  /-- in `nng_recv` -/
  | receiving
  | handling (request : List UInt8)
  | replying (data : RawJson)
  | exited
  /-- an exception left the serving thread -/
  | terminated

/-- A request, and what the handler made of it if it was called. -/
structure Exchange where
  request : List UInt8
  outcome : Option Outcome

structure State where
  pc : Pc := .top
  stop : Bool := false
  /-- *ghost* -/
  received : List (List UInt8) := []
  /-- *ghost*: the requests behind the handler -/
  exchanges : List Exchange := []
  /-- *ghost*: what went to `nng_send` -/
  replies : List (List UInt8) := []

inductive Act where
  | stop
  | loop
  | timeout
  | failed
  | receive (request : List UInt8)
  | handled (outcome : Outcome)
  | reply

variable (dump : RawJson → Option (List UInt8)) (parse : List UInt8 → Option Json)

def response (data : RawJson) : RawJson :=
  .obj [("data".toUTF8.toList, data), ("type".toUTF8.toList, .str "response".toUTF8.toList)]

/-- `toJsonResponse`, `none` where `dump` throws. -/
def toJsonResponse (data : RawJson) : Option (List UInt8) := (dump (response data)).map (· ++ [10])

def step (s : State) : Act → Option State
  | .stop => some { s with stop := true }
  | .loop =>
    match s.pc with
    | .top => some { s with pc := if s.stop then .exited else .receiving }
    | _ => none
  | .timeout =>
    match s.pc with
    | .receiving => some { s with pc := .top }
    | _ => none
  | .failed =>
    match s.pc with
    | .receiving => some { s with pc := .exited }
    | _ => none
  | .receive request =>
    match s.pc with
    | .receiving =>
      match parseIpcMessage parse request with
      | some _ => some { s with pc := .handling request, received := s.received ++ [request] }
      | none => some { s with
          pc := .replying (responseData none)
          received := s.received ++ [request]
          exchanges := s.exchanges ++ [⟨request, none⟩] }
    | _ => none
  | .handled outcome =>
    match s.pc, outcome with
    | .handling _, .threwOther => some { s with pc := .terminated }
    | .handling request, outcome => some { s with
        pc := .replying (responseData (some outcome))
        exchanges := s.exchanges ++ [⟨request, some outcome⟩] }
    | _, _ => none
  | .reply =>
    match s.pc with
    | .replying data =>
      match toJsonResponse dump data with
      | some reply => some { s with pc := .top, replies := s.replies ++ [reply] }
      | none => some { s with pc := .terminated }
    | _ => none

def machine : Machine State Act := ⟨fun s => s = {}, step dump parse⟩

/-- The handler returns valid texts, or throws a `std::exception`. -/
def Fine : Outcome → Prop
  | .value j => j.validUtf8
  | .threw => True
  | .threwOther => False

def FineStep (_ : State) : Act → Prop
  | .handled outcome => Fine outcome
  | _ => True

/-- The request that is not behind the handler yet. -/
def Pc.pending : Pc → List (List UInt8)
  | .handling request => [request]
  | _ => []

/-- The data that is not sent yet. -/
def Pc.unanswered : Pc → List RawJson
  | .replying data => [data]
  | _ => []

/-- Every request went to the handler if it is valid, and was answered with the data of its outcome,
in order and up to the one in progress. -/
structure Answered (s : State) : Prop where
  runs : s.pc ≠ .terminated
  received : s.received = s.exchanges.map (·.request) ++ s.pc.pending
  outcomes : ∀ e ∈ s.exchanges, e.outcome = none ↔ parseIpcMessage parse e.request = none
  replies : (s.exchanges.map fun e => toJsonResponse dump (responseData e.outcome)) =
    s.replies.map some ++ s.pc.unanswered.map (toJsonResponse dump)

/-- What stands in the handler is a valid request, what is to be sent can be dumped. -/
def Ready : Pc → Prop
  | .handling request => parseIpcMessage parse request ≠ none
  | .replying data => (toJsonResponse dump data).isSome
  | _ => True

variable {dump parse} {s s' : State}

theorem isSome_toJsonResponse (hdump : ∀ j, (dump j).isSome = j.validUtf8) (data : RawJson) :
    (toJsonResponse dump data).isSome = data.validUtf8 := by
  have hresponse : (response data).validUtf8 = data.validUtf8 := by
    have hkeys : RawJson.validText "data".toUTF8.toList = true ∧
        RawJson.validText "type".toUTF8.toList = true ∧
        RawJson.validText "response".toUTF8.toList = true := by decide +kernel
    simp only [response, RawJson.validUtf8, RawJson.validMembers, hkeys.1, hkeys.2.1, hkeys.2.2,
      Bool.true_and, Bool.and_true]
  rw [toJsonResponse, Option.isSome_map, hdump, hresponse]

theorem fine_iff {outcome : Outcome} :
    Fine outcome ↔ outcome ≠ .threwOther ∧ (responseData (some outcome)).validUtf8 := by
  cases outcome <;> simp [Fine, responseData, RawJson.validUtf8, RawJson.validMembers]

theorem exists_of_handled {outcome : Outcome} (hcaught : outcome ≠ .threwOther)
    (hs : step dump parse s (.handled outcome) = some s') :
    ∃ request, s.pc = .handling request ∧ s' = { s with
      pc := .replying (responseData (some outcome))
      exchanges := s.exchanges ++ [⟨request, some outcome⟩] } := by
  cases hpc : s.pc with
  | handling request =>
    refine ⟨request, rfl, ?_⟩
    cases outcome with
    | threwOther => exact absurd rfl hcaught
    | value | threw => simpa [step, hpc] using hs.symm
  | _ => simp [step, hpc] at hs

/-- A step that receives and sends nothing. -/
theorem Answered.goto {pc : Pc} (h : Answered dump parse s) (hruns : pc ≠ .terminated)
    (hpending : pc.pending = s.pc.pending) (hunanswered : pc.unanswered = s.pc.unanswered) :
    Answered dump parse { s with pc } :=
  ⟨hruns, hpending ▸ h.received, h.outcomes, hunanswered ▸ h.replies⟩

/-- The data of a request that is behind the handler. -/
theorem Answered.exchange {request : List UInt8} {outcome : Option Outcome}
    (h : Answered dump parse s) (hunanswered : s.pc.unanswered = [])
    (houtcome : outcome = none ↔ parseIpcMessage parse request = none) :
    (∀ e ∈ s.exchanges ++ [Exchange.mk request outcome],
      e.outcome = none ↔ parseIpcMessage parse e.request = none) ∧
    ((s.exchanges ++ [Exchange.mk request outcome]).map fun e =>
        toJsonResponse dump (responseData e.outcome)) =
      s.replies.map some ++ (Pc.replying (responseData outcome)).unanswered.map (toJsonResponse dump) := by
  constructor
  · intro e he
    obtain he | he := List.mem_append.mp he
    · exact h.outcomes e he
    · obtain rfl := List.mem_singleton.mp he
      exact houtcome
  · have hreplies := h.replies
    rw [hunanswered, List.map_nil, List.append_nil] at hreplies
    rw [List.map_append, hreplies]
    rfl

theorem answered_inductive (hdump : ∀ j, (dump j).isSome = j.validUtf8) :
    (machine dump parse).Inductive FineStep fun s => Answered dump parse s ∧ Ready dump parse s.pc where
  init s h := by
    obtain rfl : s = {} := h
    exact ⟨⟨nofun, rfl, nofun, rfl⟩, trivial⟩
  step s a s' h hG hs := by
    obtain ⟨h, hready⟩ := h
    have hs : step dump parse s a = some s' := hs
    cases a with
    | stop =>
      cases hs
      exact ⟨⟨h.runs, h.received, h.outcomes, h.replies⟩, hready⟩
    | loop =>
      simp only [step] at hs
      split at hs <;> cases hs
      next hpc =>
        refine ⟨h.goto ?_ ?_ ?_, ?_⟩ <;> cases s.stop <;>
          simp [hpc, Pc.pending, Pc.unanswered, Ready]
    | timeout =>
      simp only [step] at hs
      split at hs <;> cases hs
      next hpc => exact ⟨h.goto nofun (by rw [hpc]; rfl) (by rw [hpc]; rfl), trivial⟩
    | failed =>
      simp only [step] at hs
      split at hs <;> cases hs
      next hpc => exact ⟨h.goto nofun (by rw [hpc]; rfl) (by rw [hpc]; rfl), trivial⟩
    | receive request =>
      simp only [step] at hs
      split at hs
      next hpc =>
        have hreceived : s.received = s.exchanges.map (·.request) :=
          h.received.trans (by rw [hpc]; exact List.append_nil _)
        split at hs <;> cases hs
        next msg hmsg =>
          refine ⟨⟨nofun, ?_, h.outcomes, ?_⟩, ?_⟩
          · show s.received ++ [request] = _
            rw [hreceived]; rfl
          · have hreplies := h.replies
            rw [hpc] at hreplies
            exact hreplies
          · exact fun hnone => by rw [hmsg] at hnone; cases hnone
        next hmsg =>
          obtain ⟨houtcomes, hreplies⟩ := h.exchange (by rw [hpc]; rfl) (iff_of_true rfl hmsg)
          refine ⟨⟨nofun, ?_, houtcomes, hreplies⟩, ?_⟩
          · show s.received ++ [request] = _
            rw [hreceived, List.map_append]
            exact (List.append_nil _).symm
          · exact isSome_toJsonResponse hdump _
      next => cases hs
    | handled outcome =>
      obtain ⟨hcaught, hvalid⟩ := fine_iff.mp hG
      obtain ⟨request, hpc, rfl⟩ := exists_of_handled hcaught hs
      rw [hpc] at hready
      have houtcome : some outcome = none ↔ parseIpcMessage parse request = none :=
        iff_of_false nofun hready
      obtain ⟨houtcomes, hreplies⟩ := h.exchange (by rw [hpc]; rfl) houtcome
      refine ⟨⟨nofun, ?_, houtcomes, hreplies⟩, (isSome_toJsonResponse hdump _).trans hvalid⟩
      have hreceived := h.received
      rw [hpc] at hreceived
      rw [List.map_append, hreceived]
      exact (List.append_nil _).symm
    | reply =>
      simp only [step] at hs
      split at hs
      next data hpc =>
        rw [hpc] at hready
        split at hs <;> cases hs
        next reply hreply =>
          obtain ⟨-, hreceived, houtcomes, hreplies⟩ := h
          rw [hpc] at hreceived hreplies
          refine ⟨⟨nofun, hreceived, houtcomes, ?_⟩, trivial⟩
          rw [hreplies, Pc.unanswered, List.map_singleton, hreply, List.map_append]
          exact (List.append_nil _).symm
        next hnone =>
          rw [Ready, hnone] at hready
          cases hready
      next => cases hs

/-- Every request is answered in a run whose handler returns valid texts or throws `std::exception`s;
another outcome ends the serving thread. -/
theorem answers_iff (hdump : ∀ j, (dump j).isSome = j.validUtf8) :
    (∀ s, (machine dump parse).ReachableBy FineStep s → Answered dump parse s) ∧
    ∀ s request outcome, s.pc = .handling request →
      ((∃ s' reply, (machine dump parse).run s [.handled outcome, .reply] = some s' ∧ s'.pc = .top ∧
        toJsonResponse dump (responseData (some outcome)) = some reply ∧
        s'.replies = s.replies ++ [reply]) ↔ Fine outcome) := by
  refine ⟨fun s hr => ((answered_inductive hdump).of_reachable hr).1, fun s request outcome hpc => ?_⟩
  rw [fine_iff, ← isSome_toJsonResponse hdump]
  have hreply {t : State} : (machine dump parse).run s [.handled outcome, .reply] = some t ↔
      ∃ t', step dump parse s (.handled outcome) = some t' ∧ step dump parse t' .reply = some t := by
    simp [Machine.run, machine, Option.bind_eq_some_iff]
  simp only [hreply]
  constructor
  · rintro ⟨t, reply, ⟨t', hhandled, hs⟩, -, hsome, -⟩
    refine ⟨?_, Option.isSome_iff_exists.mpr ⟨reply, hsome⟩⟩
    rintro rfl
    simp only [step, hpc] at hhandled
    cases hhandled
    cases hs
  · rintro ⟨hcaught, hsome⟩
    obtain ⟨reply, hreply⟩ := Option.isSome_iff_exists.mp hsome
    have hhandled : step dump parse s (.handled outcome) = some { s with
        pc := .replying (responseData (some outcome))
        exchanges := s.exchanges ++ [⟨request, some outcome⟩] } := by
      cases outcome with
      | threwOther => exact absurd rfl hcaught
      | value | threw => simp only [step, hpc]
    have hsent : step dump parse { s with
        pc := .replying (responseData (some outcome))
        exchanges := s.exchanges ++ [⟨request, some outcome⟩] } .reply = some { s with
        pc := .top
        exchanges := s.exchanges ++ [⟨request, some outcome⟩]
        replies := s.replies ++ [reply] } := by
      simp only [step, hreply]
    exact ⟨_, reply, ⟨_, hhandled, hsent⟩, rfl, hreply, rfl⟩

/-- `{"data":{},"type":"response"}` -/
def emptyResponse : List UInt8 := "\x7b\"data\":\x7b\x7d,\"type\":\"response\"\x7d".toUTF8.toList

/-- `{"data":{"phase":"idle"},"type":"response"}` -/
def idleResponse : List UInt8 :=
  "\x7b\"data\":\x7b\"phase\":\"idle\"\x7d,\"type\":\"response\"\x7d".toUTF8.toList

/-- A serialiser, right about these two responses. -/
def dumpPhase (j : RawJson) : Option (List UInt8) :=
  if j.validUtf8 then
    match j with
    | .obj [(_, .obj []), _] => some emptyResponse
    | _ => some idleResponse
  else none

theorem isSome_dumpPhase (j : RawJson) : (dumpPhase j).isSome = j.validUtf8 := by
  unfold dumpPhase
  cases j.validUtf8 with
  | false => rfl
  | true => rw [if_pos rfl]; split <;> rfl

def statusRequest : List UInt8 := "\x7b\"type\":\"update_status\"\x7d".toUTF8.toList

/-- A parser that knows the status request. -/
def parseStatus (request : List UInt8) : Option Json :=
  if request = statusRequest then some (.obj [("type", .str "update_status")]) else none

theorem parseIpcMessage_status :
    parseIpcMessage parseStatus statusRequest = some { type := .updateStatus, data := .null } := by
  unfold parseIpcMessage parseStatus
  rw [if_pos rfl]
  rfl

def idleStatus : RawJson := .obj [("phase".toUTF8.toList, .str "idle".toUTF8.toList)]

/-- A request that is no JSON, one that is handled, and one whose handler throws. -/
def threeRequests : List Act :=
  [.loop, .receive [0xff], .reply, .loop, .receive statusRequest, .handled (.value idleStatus), .reply,
    .loop, .receive statusRequest, .handled .threw, .reply]

theorem answers_iff_status :
    ∃ s, (machine dumpPhase parseStatus).run {} threeRequests = some s ∧
      s.replies = [emptyResponse ++ [10], idleResponse ++ [10], emptyResponse ++ [10]] ∧
      Answered dumpPhase parseStatus s := by
  have hempty : toJsonResponse dumpPhase (.obj []) = some (emptyResponse ++ [10]) := by decide +kernel
  have hidle : toJsonResponse dumpPhase idleStatus = some (idleResponse ++ [10]) := by decide +kernel
  have hinvalid : parseIpcMessage parseStatus [0xff] = none := by
    unfold parseIpcMessage parseStatus
    rw [if_neg (by decide +kernel)]
  have hrun : (machine dumpPhase parseStatus).run {} threeRequests = some
      { received := [[0xff], statusRequest, statusRequest],
        exchanges := [⟨[0xff], none⟩, ⟨statusRequest, some (.value idleStatus)⟩,
          ⟨statusRequest, some .threw⟩],
        replies := [emptyResponse ++ [10], idleResponse ++ [10], emptyResponse ++ [10]] } := by
    simp [threeRequests, Machine.run, machine, step, hinvalid, parseIpcMessage_status, responseData,
      hempty, hidle]
  have hmeets : (machine dumpPhase parseStatus).Meets FineStep {} threeRequests := by
    have hvalid : idleStatus.validUtf8 = true := by decide +kernel
    exact Machine.meets_of_mem (by simp [threeRequests, FineStep, Fine, hvalid])
  exact ⟨_, hrun, rfl, (answers_iff isSome_dumpPhase).1 _ (.run _ (.init rfl) hmeets hrun)⟩

/-- The status of an update whose installer wrote the byte `0xff`. -/
def failedStatus : RawJson :=
  .obj [("error".toUTF8.toList, .str ("rauc install failed: ".toUTF8.toList ++ [0xff]))]

/-- The serving thread dies of it, without a reply. -/
theorem terminated_of_status :
    ∃ s, (machine dumpPhase parseStatus).Reachable s ∧
      s.received = [statusRequest] ∧ s.replies = [] ∧ s.pc = .terminated := by
  have hdump : toJsonResponse dumpPhase failedStatus = none := by decide +kernel
  refine Machine.exists_reachable_of_run
    [.loop, .receive statusRequest, .handled (.value failedStatus), .reply] rfl
    ⟨{ pc := .terminated, received := [statusRequest],
       exchanges := [⟨statusRequest, some (.value failedStatus)⟩] }, ?_, rfl, rfl, rfl⟩
  simp [Machine.run, machine, step, parseIpcMessage_status, responseData, hdump]

end NngRepServer

end ShareFrame
