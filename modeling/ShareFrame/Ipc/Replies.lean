import ShareFrame.Display.DisplayIpc
import ShareFrame.Lib.Discipline
import ShareFrame.Net.HTTPClient
import ShareFrame.Net.ServerContact
import ShareFrame.Update.Version

/-!
# What the services reply

The websocket service, the update service and the heartbeat answer requests beside the
display service. A handler that throws is answered by an empty document. All replies
speak one vocabulary (`kindOf`): the same member has the same type in each of them, also
behind the wire (`Typed`). Only the statistics of the display are any document.
-/

namespace ShareFrame

open Interaction HTTPClient

/-! ## The handlers -/

/-- `health::respond` -/
def HealthCheck.respond (msg : IpcMessage) : Json :=
  if msg.type = .getHealth then .obj [("running", .bool true)] else .obj []

/-- `toJson` of a server connection -/
def ServerContact.ServerConnection.toJson (c : ServerContact.ServerConnection) : Json :=
  .obj [("connected", .bool c.connected), ("since", .int c.since),
    ("last_contact_at", .int c.lastContactAt)]

def WsIpc.handle (contact : ServerContact) (msg : IpcMessage) : Json :=
  if msg.type = .getServerConnection then contact.snapshot.toJson else HealthCheck.respond msg

namespace UpdateIpc

/-- The calls of the update manager. -/
inductive Op where
  | fetchLatestRelease
  | startUpdate
  | status
  | history
  deriving DecidableEq, Repr

/-- The answers, `none` where the call throws. An update that does not start has the text of an
error. -/
abbrev Ans : Op → Type
  | .fetchLatestRelease => Option HttpResponse
  | .startUpdate => Option (Bool × String)
  | .status | .history => Json

abbrev Handler := Prog Ans Unit

def ask (op : Op) : Handler (Ans op) := Prog.ask op

def orThrow {α : Type} : Option α → Handler α
  | some a => .pure a
  | none => .throw ()

-- the parser, `none` where it throws, and the installed version
variable (parse : String → Option Json) (version : String)

/-- A release that is an object says whether it is newer. -/
def withNewer (release : Json) : Except Json.Error Json :=
  if release.isObject then do
    let candidate ← release.value Json.getString "version" ""
    pure (release.set "is_newer" (.bool (Update.isVersionNewer candidate version)))
  else .ok release

/-- What the parser and the reads throw is caught. -/
def latest (body : String) : Json :=
  match (parse body).map (withNewer version) with
  | some (.ok release) => .obj [("ok", .bool true), ("release", release)]
  | _ => .obj [("ok", .bool false), ("error", .str "Invalid response from update server")]

def handle (msg : IpcMessage) : Handler Json :=
  match msg.type with
  | .updateCheckLatest => do
    let resp ← orThrow (← ask .fetchLatestRelease)
    pure (if resp.ok then latest parse version resp.body
      else .obj [("ok", .bool false), ("error", .str resp.errorMsg), ("status_code", .int resp.statusCode)])
  | .updatePerform => do
    let (started, error) ← orThrow (← ask .startUpdate)
    pure (.obj [("ok", .bool started), ("error", .str error)])
  | .updateStatus => do
    let status ← ask .status
    pure (.obj [("ok", .bool true), ("status", status)])
  | .updateHistory => do
    let history ← ask .history
    pure (.obj [("ok", .bool true), ("history", history)])
  | .getHealth => pure (.obj [("running", .bool true)])
  | _ => pure (.obj [])

end UpdateIpc

/-! ## The vocabulary -/

namespace Replies

inductive Kind where
  | flag
  | number
  | text
  | numbers
  deriving DecidableEq, Repr

def Kind.fits : Kind → Json → Bool
  | .flag, .bool _ => true
  | .number, .int _ => true
  | .text, .str _ => true
  | .numbers, j => j.getInt64s.isOk
  | _, _ => false

def kindOf (key : String) : Option Kind :=
  if key ∈ ["active", "loop_started", "refreshing", "enabled", "active_now", "inactive", "found",
      "show_sender", "running", "ok"] then some .flag
  else if key ∈ ["image_count", "interval_secs", "seconds_until_next", "start_hour", "end_hour", "seq",
      "image_id", "current_image_id", "status_code"] then some .number
  else if key ∈ ["style", "state", "sender", "mode", "error"] then some .text
  else if key ∈ ["custom_order", "shuffle_order"] then some .numbers
  else none

/-- An object that keeps to the vocabulary. -/
def Typed (j : Json) : Prop :=
  j.isObject = true ∧ ∀ key member kind, j.find key = some member → kindOf key = some kind →
    kind.fits member = true

theorem typed_obj {members : List (String × Json)}
    (h : ∀ p ∈ members, ∀ kind, kindOf p.1 = some kind → kind.fits p.2 = true) : Typed (.obj members) :=
  ⟨rfl, fun _ _ kind hfind hkind => h _ (Json.mem_of_lookup hfind) kind hkind⟩

theorem typed_empty : Typed (.obj []) := typed_obj nofun

theorem isOk_getInt64s {ids : List Int} : (Json.getInt64s (.arr (ids.map .int))).isOk = true := by
  induction ids with
  | nil => rfl
  | cons id ids ih =>
    simp only [Json.getInt64s, List.map_cons, List.mapM_cons] at ih ⊢
    cases hrest : (ids.map Json.int).mapM Json.getInt64 with
    | error e => rw [hrest] at ih; cases ih
    | ok rest => rfl

theorem Kind.fits_same {kind : Kind} {j j' : Json} (h : j.Same j') : kind.fits j' = kind.fits j := by
  cases kind with
  | numbers => exact congrArg Except.isOk h.getInt64s
  | _ => cases h <;> rfl

/-- The way over the wire changes nothing of it. -/
theorem Typed.same {j j' : Json} (h : Typed j) (hs : j.Same j') : Typed j' := by
  obtain ⟨hobject, hfits⟩ := h
  refine ⟨?_, fun key member kind hfind hkind => ?_⟩
  · cases hs with
    | obj => rfl
    | _ => cases hobject
  cases hold : j.find key with
  | none => rw [hs.find_none hold] at hfind; cases hfind
  | some old =>
    obtain ⟨new, hnew, hsame⟩ := hs.find_some hold
    obtain rfl := Option.some.inj (hnew.symm.trans hfind)
    rw [Kind.fits_same hsame]
    exact hfits key old kind hold hkind

section Reads

variable {j : Json} {key : String}

theorem Typed.reads {α : Type} {get : Json → Except Json.Error α} (h : Typed j) (kind : Kind)
    (hkind : kindOf key = some kind) (hget : ∀ member, kind.fits member = true → (get member).isOk = true) :
    j.Reads get key :=
  ⟨h.1, fun member hfind => hget member (h.2 key member kind hfind hkind)⟩

theorem Typed.flag (h : Typed j) (hkind : kindOf key = some .flag) : j.Reads Json.getBool key :=
  h.reads .flag hkind fun member hfits => by cases member <;> first | rfl | cases hfits

theorem Typed.int (h : Typed j) (hkind : kindOf key = some .number) : j.Reads Json.getInt key :=
  h.reads .number hkind fun member hfits => by cases member <;> first | rfl | cases hfits

theorem Typed.int64 (h : Typed j) (hkind : kindOf key = some .number) : j.Reads Json.getInt64 key :=
  h.reads .number hkind fun member hfits => by cases member <;> first | rfl | cases hfits

theorem Typed.text (h : Typed j) (hkind : kindOf key = some .text) : j.Reads Json.getString key :=
  h.reads .text hkind fun member hfits => by cases member <;> first | rfl | cases hfits

theorem Typed.int64s (h : Typed j) (hkind : kindOf key = some .numbers) : j.Reads Json.getInt64s key :=
  h.reads .numbers hkind fun _ hfits => hfits

end Reads

/-! ## Every reply keeps to it -/

/-- Whatever is answered, a value of the program meets `P`. -/
def Values {Op : Type} {Ans : Op → Type} {ε α : Type} (P : α → Prop) (p : Prog Ans ε α) : Prop :=
  ∀ t a, Prog.Runs p t (.ok a) → P a

namespace Values

variable {Op : Type} {Ans : Op → Type} {ε α β : Type} {P : β → Prop}

theorem pure {b : β} (h : P b) : Values P (.pure b : Prog Ans ε β) := by
  intro t a hr
  obtain rfl := Except.ok.inj (Prog.runs_pure.mp hr).2
  exact h

theorem bind {p : Prog Ans ε α} {f : α → Prog Ans ε β} (h : ∀ a, Values P (f a)) : Values P (p >>= f) := by
  intro t b hr
  obtain ⟨a, t₁, t₂, -, -, hf⟩ := Prog.runs_bind_ok.mp hr
  exact h a t₂ b hf

end Values

end Replies

namespace DisplayIpc

open Replies

theorem values_publishRead {read : Except Json.Error (Option DisplayEvent)} :
    Values Typed (publishRead read) := by
  refine .bind fun event => ?_
  cases event with
  | none => exact .pure typed_empty
  | some event => exact .bind fun _ => .pure typed_empty

/-- The display service keeps to the vocabulary, its statistics apart. -/
theorem values_handle {msg : IpcMessage} (h : msg.type ≠ .getDisplayStats) : Values Typed (handle msg) := by
  unfold handle
  split
  · refine .bind fun refreshing => ?_
    split
    · exact .pure (typed_obj (by simp [kindOf, Kind.fits]))
    · exact .bind fun _ => .pure (typed_obj (by simp [kindOf, Kind.fits]))
  · refine .bind fun id => .bind fun refreshing => ?_
    split
    · exact .pure (typed_obj (by simp [kindOf, Kind.fits]))
    refine .bind fun active => ?_
    split
    · exact .pure (typed_obj (by simp [kindOf, Kind.fits]))
    refine .bind fun found => .bind fun stored => ?_
    split
    · exact .pure (typed_obj (by simp [kindOf, Kind.fits]))
    · exact .bind fun _ => .pure (typed_obj (by simp [kindOf, Kind.fits]))
  · exact values_publishRead
  · exact .bind fun secs => .pure (typed_obj (by simp [kindOf, Kind.fits]))
  · exact values_publishRead
  · refine .bind fun _ => .bind fun _ => .bind fun _ => .bind fun _ => .bind fun _ => .bind fun _ => ?_
    exact .pure (typed_obj (by simp [kindOf, Kind.fits]))
  · exact values_publishRead
  · refine .bind fun _ => .bind fun _ => .bind fun _ => .bind fun _ => ?_
    exact .pure (typed_obj (by simp [kindOf, Kind.fits, ids, isOk_getInt64s]))
  · exact values_publishRead
  · exact .bind fun _ => .pure (typed_obj (by simp [kindOf, Kind.fits]))
  · exact .bind fun _ => .bind fun _ => .pure (typed_obj (by simp [kindOf, Kind.fits]))
  · exact values_publishRead
  · exact values_publishRead
  · refine .bind fun _ => .bind fun _ => .bind fun _ => .bind fun _ => .bind fun _ => ?_
    exact .pure (typed_obj (by simp [kindOf, Kind.fits]))
  · exact .bind fun _ => .pure (typed_obj (by simp [kindOf, Kind.fits]))
  · exact .pure (typed_obj (by simp [kindOf, Kind.fits]))
  · rename_i hstats
    exact absurd hstats h
  · exact values_publishRead
  · exact values_publishRead
  all_goals exact .pure typed_empty

end DisplayIpc

namespace UpdateIpc

open Replies

variable {parse : String → Option Json} {version : String}

theorem typed_latest {body : String} : Typed (latest parse version body) := by
  unfold latest
  split <;> exact typed_obj (by simp [kindOf, Kind.fits])

theorem values_handle {msg : IpcMessage} : Values Typed (handle parse version msg) := by
  unfold handle
  split
  · refine .bind fun answer => .bind fun resp => ?_
    split
    · exact .pure typed_latest
    · exact .pure (typed_obj (by simp [kindOf, Kind.fits]))
  · exact .bind fun answer => .bind fun (started, error) => .pure (typed_obj (by simp [kindOf, Kind.fits]))
  · exact .bind fun status => .pure (typed_obj (by simp [kindOf, Kind.fits]))
  · exact .bind fun history => .pure (typed_obj (by simp [kindOf, Kind.fits]))
  · exact .pure (typed_obj (by simp [kindOf, Kind.fits]))
  · exact .pure typed_empty

end UpdateIpc

/-! ## What arrives -/

namespace Replies

open Prog

/-- The message as a service reads it. -/
def Arrives (msg msg' : IpcMessage) : Prop := msg'.type = msg.type ∧ msg.data.Same msg'.data

/-- The server answers for a handler that throws. -/
def sent {ε : Type} : Except ε Json → Json
  | .ok j => j
  | .error _ => .obj []

/-- A reply to a message, as the client reads it. -/
inductive Display (msg : IpcMessage) (reply : Json) : Prop where
  | intro {msg' : IpcMessage} {t : List (Event DisplayIpc.Ans)} {r : Except DisplayIpc.Error Json}
    (hmsg : Arrives msg msg') (hr : Runs (DisplayIpc.handle msg') t r) (hsame : (sent r).Same reply)

inductive Websocket (msg : IpcMessage) (reply : Json) : Prop where
  | intro {msg' : IpcMessage} {contact : ServerContact} (hmsg : Arrives msg msg')
    (hsame : (WsIpc.handle contact msg').Same reply)

inductive Heartbeat (msg : IpcMessage) (reply : Json) : Prop where
  | intro {msg' : IpcMessage} (hmsg : Arrives msg msg') (hsame : (HealthCheck.respond msg').Same reply)

inductive Update (parse : String → Option Json) (version : String) (msg : IpcMessage) (reply : Json) :
    Prop where
  | intro {msg' : IpcMessage} {t : List (Event UpdateIpc.Ans)} {r : Except Unit Json}
    (hmsg : Arrives msg msg') (hr : Runs (UpdateIpc.handle parse version msg') t r)
    (hsame : (sent r).Same reply)

theorem typed_sent {ε : Type} {r : Except ε Json} (h : ∀ j, r = .ok j → Typed j) : Typed (sent r) := by
  cases r with
  | ok j => exact h j rfl
  | error e => exact typed_empty

theorem typed_respond {msg : IpcMessage} : Typed (HealthCheck.respond msg) := by
  unfold HealthCheck.respond
  split <;> exact typed_obj (by simp [kindOf, Kind.fits])

variable {msg : IpcMessage} {reply : Json}

theorem Display.typed (h : Display msg reply) (hstats : msg.type ≠ .getDisplayStats) : Typed reply := by
  obtain ⟨hmsg, hr, hsame⟩ := h
  refine (typed_sent fun j hj => ?_).same hsame
  subst hj
  exact DisplayIpc.values_handle (hmsg.1 ▸ hstats) _ j hr

theorem Websocket.typed (h : Websocket msg reply) : Typed reply := by
  obtain ⟨-, hsame⟩ := h
  refine Typed.same ?_ hsame
  unfold WsIpc.handle
  split
  · exact typed_obj (by simp [kindOf])
  · exact typed_respond

theorem Heartbeat.typed (h : Heartbeat msg reply) : Typed reply := by
  obtain ⟨-, hsame⟩ := h
  exact typed_respond.same hsame

theorem Update.typed {parse : String → Option Json} {version : String} (h : Update parse version msg reply) :
    Typed reply := by
  obtain ⟨-, hr, hsame⟩ := h
  refine (typed_sent fun j hj => ?_).same hsame
  subst hj
  exact UpdateIpc.values_handle _ j hr

end Replies

end ShareFrame
