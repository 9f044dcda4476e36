import ShareFrame.Dashboard.Access
import ShareFrame.Dashboard.Bodies
import ShareFrame.Dashboard.Commands
import ShareFrame.Dashboard.Outputs
import ShareFrame.Ipc.Replies

/-!
# Requests and the services behind them

The handlers of the dashboard read members of what the services reply, and nothing
catches a read that fails: it ends the dashboard. What they read is in the vocabulary of
the replies. So a request whose body can be read is answered, whatever the services reply
and whether they reply at all, as long as the database, the crypto library, the files and
the server do not fail it and the commands write UTF-8 (`answered_of_fits`).
-/

namespace ShareFrame.Dashboard

open HTTPClient Interaction Prog
open Replies (Typed)

variable {cfg : Config} {req : Request}

/-! ## Answers that fit -/

/-- A reply of this service, as `IpcClient` reads it. -/
def Replied : Peer → IpcMessage → Json → Prop
  | .display, msg, reply => Replies.Display msg reply
  | .websocket, msg, reply => Replies.Websocket msg reply
  | .heartbeat, msg, reply => Replies.Heartbeat msg reply
  | .update, msg, reply => ∃ parse version, Replies.Update parse version msg reply

theorem Replied.typed {peer : Peer} {msg : IpcMessage} {reply : Json} (h : Replied peer msg reply)
    (hstats : msg.type ≠ .getDisplayStats) : Typed reply := by
  cases peer with
  | display => exact Replies.Display.typed h hstats
  | websocket => exact Replies.Websocket.typed h
  | heartbeat => exact Replies.Heartbeat.typed h
  | update =>
    obtain ⟨parse, version, h⟩ := h
    exact h.typed

/-- What wifi-mode-manager publishes has the types that are read. -/
def ModeReadable (file : Option Json) : Prop :=
  (WifiMode.read file).Reads Json.getString "mode" ∧
    (WifiMode.read file).Reads Json.getInt64 "last_failed_at"

/-- A service replies what it replies, or nothing; what a command writes is UTF-8; and nobody else
fails. -/
def Fits (cfg : Config) : Event → Prop
  | ⟨.outside (.sendAndReceive peer msg), reply⟩ => ∀ j ∈ reply, Replied peer msg j
  | ⟨.outside .readWifiMode, file⟩ => ModeReadable file
  | ⟨.outside .getAll, found⟩ => found ≠ none
  | ⟨.outside (.getByIds _), found⟩ => found ≠ none
  | ⟨.outside (.run _ _), result⟩ => Text.isUtf8 result.stdOut = true
  | ⟨.outside .sysinfo, lines⟩ =>
    ∀ line ∈ lines.getD [], Text.isUtf8 line.1 = true ∧ line.2.isUtf8 = true
  | ⟨.outside (.diagnostics op), a⟩ => Collected ⟨op, a⟩
  | e => ¬ Spoils cfg e

abbrev FitsOutside (cfg : Config) (e : Interaction.Event OutsideAns) : Prop :=
  Fits cfg (@embedEvent _ _ Ans Op.outside e)

/-- A reply in the vocabulary can be read by all that change the frame. -/
theorem Fits.not_spoils {e : Event} (h : Fits cfg e) : ¬ Spoils cfg e := by
  obtain ⟨op, a⟩ := e
  cases op with
  | outside op =>
    cases op with
    | sendAndReceive peer msg =>
      have hreplied : ∀ j ∈ a, Replied peer msg j := h
      unfold Spoils
      dsimp only
      split
      · rename_i htype
        rintro ⟨j, hj, hno⟩
        have htyped := (hreplied j hj).typed (by rw [htype]; decide)
        exact hno ⟨htyped.flag rfl, fun _ => ⟨htyped.flag rfl, fun _ => htyped.flag rfl⟩⟩
      · rename_i htype
        rintro ⟨j, hj, hno⟩
        exact hno (((hreplied j hj).typed (by rw [htype]; decide)).int64s rfl)
      · exact id
    | _ => exact id
  | _ => exact h

/-- A handler of a route with a body that can be read. -/
theorem returns_body {route : BodyRoute} (h : ∀ body, cfg.parse req.body = some body → route.Readable body) :
    Returns (Fits cfg) (route.handler cfg req) fun _ => True := by
  refine returns_iff.mpr fun t r hr hfits => ?_
  obtain ⟨resp, hresp, -⟩ := (responds_handler hr).mpr ⟨h, fun e he => (hfits e he).not_spoils⟩
  exact ⟨resp, hresp, trivial⟩

/-! ## The reads -/

section

variable {Op : Type} {Ans : Op → Type} {good : Interaction.Event Ans → Prop} {α β : Type}

theorem returns_read {get : Json → Except Json.Error α} {j : Json} {key : String} {dflt : α}
    (h : j.Reads get key) : Returns good (json (j.value get key dflt) : Prog Ans Error α) fun _ => True := by
  have hok := (Json.value_isOk dflt).mpr h
  cases hvalue : j.value get key dflt with
  | error e => rw [hvalue] at hok; cases hok
  | ok a => trivial

/-- A read in front of something else. -/
theorem returns_read_bind {get : Json → Except Json.Error α} {j : Json} {key : String} {dflt : α}
    {f : α → Prog Ans Error β} (h : j.Reads get key) (hf : ∀ a, Returns good (f a) fun _ => True) :
    Returns good (json (j.value get key dflt) >>= f) fun _ => True :=
  (returns_read h).bind fun a _ => hf a

theorem returns_then {p : Prog Ans Error α} {f : α → Prog Ans Error β} (h : Returns good p fun _ => True)
    (hf : ∀ a, Returns good (f a) fun _ => True) : Returns good (p >>= f) fun _ => True :=
  h.bind fun a _ => hf a

end

/-- A question to a service, and what is made of its answer. -/
theorem returns_reply {α : Type} {peer : Peer} {type : IpcMessageType} {data : Json} {absent : α}
    {f : Json → Service α} (htype : type ≠ .getDisplayStats)
    (hf : ∀ j, Typed j → Returns (FitsOutside cfg) (f j) fun _ => True) :
    Returns (FitsOutside cfg) (Service.sendAndReceive peer type data >>= fun
      | none => .pure absent
      | some j => f j) fun _ => True := by
  refine returns_ask_bind.mpr fun reply hreply => ?_
  cases reply with
  | none => trivial
  | some j => exact hf j ((hreply j rfl).typed htype)

theorem returns_valueOr {α : Type} {reply : Option Json} {get : Json → Except Json.Error α} {key : String}
    {dflt : α} (h : ∀ j ∈ reply, j.Reads get key) :
    Returns (FitsOutside cfg) (FrameHandlers.valueOr reply get key dflt) fun _ => True := by
  cases reply with
  | none => trivial
  | some j => exact returns_read (h j rfl)

/-- A call whose answer is not read. -/
theorem returns_call_then {α : Type} {op : Outside} {f : OutsideAns op → Service α}
    (hf : ∀ a, Returns (FitsOutside cfg) (f a) fun _ => True) :
    Returns (FitsOutside cfg) (Service.call op >>= f) fun _ => True :=
  returns_ask_bind.mpr fun a _ => hf a

/-! ## The frame -/

theorem returns_nightModeStatus {display : DisplayConfig} {night : Option Json}
    (h : ∀ j ∈ night, Typed j) :
    Returns (FitsOutside cfg) (FrameHandlers.nightModeStatus display night) fun _ => True := by
  have hrest (enabled : Bool) : Returns (FitsOutside cfg) (do
      let startHour ← FrameHandlers.valueOr night Json.getInt "start_hour" display.nightStartHour
      let endHour ← FrameHandlers.valueOr night Json.getInt "end_hour" display.nightEndHour
      let secs ← FrameHandlers.valueOr night Json.getInt "interval_secs" display.nightIntervalSecs
      let style ← FrameHandlers.valueOr night Json.getString "style" display.nightStyle
      let activeNow ← FrameHandlers.valueOr night Json.getBool "active_now" false
      return .obj [("enabled", .bool enabled), ("start_hour", .int startHour), ("end_hour", .int endHour),
        ("interval_seconds", .int secs), ("style", .str style), ("active_now", .bool activeNow)] :
      Service Json) fun _ => True := by
    refine returns_then (returns_valueOr fun j hj => (h j hj).int rfl) fun _ => ?_
    refine returns_then (returns_valueOr fun j hj => (h j hj).int rfl) fun _ => ?_
    refine returns_then (returns_valueOr fun j hj => (h j hj).int rfl) fun _ => ?_
    refine returns_then (returns_valueOr fun j hj => (h j hj).text rfl) fun _ => ?_
    exact returns_then (returns_valueOr fun j hj => (h j hj).flag rfl) fun _ => trivial
  cases night with
  | none => exact hrest _
  | some j => exact returns_read_bind ((h j rfl).flag rfl) hrest

theorem returns_handleStatus {display : DisplayConfig} :
    Returns (FitsOutside cfg) (FrameHandlers.handleStatus display) fun _ => True := by
  have htyped {type : IpcMessageType} {reply : Option Json}
      (h : FitsOutside cfg ⟨.sendAndReceive .display { type, data := .null }, reply⟩)
      (htype : type ≠ .getDisplayStats) : ∀ j ∈ reply, Typed j := fun j hj => (h j hj).typed htype
  refine returns_ask_bind.mpr fun active hactive => returns_ask_bind.mpr fun interval hinterval => ?_
  cases active with
  | none => trivial
  | some active =>
    cases interval with
    | none => trivial
    | some interval =>
      have hactive := htyped hactive (by decide) active rfl
      have hinterval := htyped hinterval (by decide) interval rfl
      refine returns_ask_bind.mpr fun seconds hseconds => returns_ask_bind.mpr fun night hnight =>
        returns_ask_bind.mpr fun screen hscreen => ?_
      have hseconds := htyped hseconds (by decide)
      have hscreen := htyped hscreen (by decide)
      refine returns_then (returns_nightModeStatus (htyped hnight (by decide))) fun _ => ?_
      refine returns_read_bind (hactive.flag rfl) fun _ => ?_
      refine returns_read_bind (hactive.flag rfl) fun _ => ?_
      refine returns_read_bind (hactive.flag rfl) fun _ => ?_
      refine returns_read_bind (hactive.int rfl) fun _ => ?_
      refine returns_read_bind (hinterval.int rfl) fun _ => ?_
      refine returns_then (returns_valueOr fun j hj => (hseconds j hj).int rfl) fun _ => ?_
      refine returns_then (returns_valueOr fun j hj => (hscreen j hj).int64 rfl) fun _ => ?_
      refine returns_then (returns_valueOr fun j hj => (hscreen j hj).text rfl) fun _ => ?_
      refine returns_then (returns_valueOr fun j hj => (hscreen j hj).int64 rfl) fun _ => ?_
      exact returns_then (returns_valueOr fun j hj => (hscreen j hj).text rfl) fun _ => trivial

theorem returns_entries {images : List Image} {ids : List Int} {position : Nat} :
    Returns (FitsOutside cfg) (SlideshowImageHandlers.entries images ids position) fun _ => True := by
  induction ids generalizing position with
  | nil => trivial
  | cons id ids ih =>
    refine returns_then ?_ fun _ => returns_then ih fun _ => trivial
    unfold SlideshowImageHandlers.entry
    split
    · trivial
    · exact returns_call_then fun _ => returns_call_then fun _ => trivial

theorem returns_listed {order : Json} (h : Typed order) :
    Returns (FitsOutside cfg) (SlideshowImageHandlers.listed order) fun _ => True := by
  refine returns_read_bind (h.text rfl) fun mode => returns_read_bind (h.int64s rfl) fun customOrder => ?_
  refine returns_ask_bind.mpr fun found hfound => ?_
  cases found with
  | none => exact absurd rfl hfound
  | some images =>
    show Returns (FitsOutside cfg) (if _ then _ else _) _
    split
    · refine returns_read_bind (h.int64s rfl) fun _ => ?_
      exact returns_then (p := SlideshowImageHandlers.entries _ _ _) returns_entries fun _ =>
        returns_read_bind (h.int64 rfl) fun _ => trivial
    · exact returns_then (p := SlideshowImageHandlers.entries _ _ _) returns_entries fun _ =>
        returns_read_bind (h.int64 rfl) fun _ => trivial

theorem returns_handleFile {qp : QueryParams} :
    Returns (FitsOutside cfg) (SlideshowImageHandlers.handleFile qp) fun _ => True := by
  unfold SlideshowImageHandlers.handleFile
  split
  · trivial
  split
  · refine returns_ask_bind.mpr fun found hfound => ?_
    match found, hfound with
    | none, hfound => exact absurd rfl hfound
    | some [], _ => trivial
    | some (img :: _), _ =>
      refine returns_ask_bind.mpr fun bytes _ => ?_
      cases bytes <;> trivial
  · trivial

/-- Each field of the body that the route reads can be read. -/
def BodyReadable (cfg : Config) (req : Request) : Prop :=
  ∀ route : BodyRoute, route.Targets req → ∀ body, cfg.parse req.body = some body → route.Readable body

theorem returns_route (hbody : BodyReadable cfg req) (route : BodyRoute) (hmethod : req.method = "POST")
    (hpath : req.path = route.path) : Returns (Fits cfg) (route.handler cfg req) fun _ => True :=
  returns_body (hbody route ⟨hmethod, hpath⟩)

theorem returns_frameRoutes (hbody : BodyReadable cfg req) : ∀ route ∈ frameRoutes cfg,
    req.method = route.method → req.path = route.path →
    Returns (Fits cfg) (route.handler req req.params) fun _ => True := by
  simp only [frameRoutes, List.forall_mem_cons]
  refine ⟨fun _ _ => .embed returns_handleStatus, returns_route hbody .control,
    returns_route hbody .interval, returns_route hbody .nightMode, fun _ _ => .embed ?_,
    returns_route hbody .show_, fun _ _ => .embed (returns_call_then fun _ => trivial),
    fun _ _ => .embed ?_, fun _ _ => .embed ?_, returns_route hbody .customization,
    returns_route hbody .order, fun _ _ => .embed ?_, fun _ _ => .embed returns_handleFile,
    fun _ h => absurd h List.not_mem_nil⟩
  · exact returns_reply (by decide) fun j hj => returns_read_bind (hj.flag rfl) fun _ => trivial
  · refine returns_ask_bind.mpr fun reply _ => ?_
    cases reply <;> trivial
  · exact returns_reply (by decide) fun j hj => returns_read_bind (hj.flag rfl) fun _ => trivial
  · exact returns_reply (by decide) fun j hj => returns_listed hj

/-! ## The network -/

theorem returns_said {p : Service Json} (h : Returns (FitsOutside cfg) p Said) :
    Returns (FitsOutside cfg) (WifiHandlers.answer p) fun _ => True := by
  refine h.bind fun j hj => ?_
  obtain ⟨message, rfl | rfl⟩ := hj <;> trivial

theorem returns_getCurrentConnection : Returns (FitsOutside cfg) WifiManager.getCurrentConnection
    fun current => ∃ result, current = WifiManager.currentConnection result ∧ current.isUtf8 = true :=
  returns_ask_bind.mpr fun result hresult => ⟨result, rfl, isUtf8_currentConnection hresult⟩

/-- The text of an error can be read. -/
theorem wifiResult_isOk {j : Json} (h : ∀ error, j.find "error" = some error → error.getString.isOk = true) :
    (WifiHandlers.wifiResult j).isOk = true := by
  unfold WifiHandlers.wifiResult
  split
  · rename_i error herror
    have hok := h error herror
    cases hmessage : error.getString with
    | error e => rw [hmessage] at hok; cases hok
    | ok message => rfl
  · rfl

/-- A result that holds what a command wrote. -/
theorem returns_answerOutput {p : Service Json} (h : Returns (FitsOutside cfg) p fun j =>
    j.isUtf8 = true ∧ ∀ error, j.find "error" = some error → error.getString.isOk = true) :
    Returns (FitsOutside cfg) (WifiHandlers.answerOutput p) fun _ => True := by
  have hanswer : Returns (FitsOutside cfg) (WifiHandlers.answer p) fun resp =>
      resp.body.isUtf8 = true := by
    refine h.bind fun j hj => ?_
    have hok := wifiResult_isOk hj.2
    cases hresult : WifiHandlers.wifiResult j with
    | error e => rw [hresult] at hok; cases hok
    | ok resp => exact isUtf8_wifiResult hj.1 hresult
  exact hanswer.bind fun resp hresp => returns_dumped hresp

theorem returns_status : Returns (FitsOutside cfg) WifiHandlers.handleStatus fun _ => True := by
  refine returns_answerOutput (returns_getCurrentConnection.mono fun current hcurrent => ?_)
  obtain ⟨result, rfl, hutf8⟩ := hcurrent
  refine ⟨hutf8, fun error herror => ?_⟩
  unfold WifiManager.currentConnection at herror
  split at herror
  · cases herror
    rfl
  · dsimp only at herror
    split at herror <;> cases herror

theorem returns_savedNetworks : Returns (FitsOutside cfg) WifiHandlers.handleSavedNetworks fun _ => True := by
  refine returns_answerOutput (returns_ask_bind.mpr fun result hresult => ?_)
  show _ ∧ _
  split
  · exact ⟨by decide, fun error herror => by cases herror; rfl⟩
  · exact ⟨isUtf8_savedNetworks hresult, fun error herror => by cases herror⟩

theorem returns_isApMode : Returns (FitsOutside cfg) WifiManager.isApMode fun _ => True := by
  refine returns_ask_bind.mpr fun file hfile => ?_
  have hok := (Json.value_isOk "").mpr hfile.1
  show Returns _ (json (WifiMode.isAp file)) _
  unfold WifiMode.isAp
  cases hmode : (WifiMode.read file).value Json.getString "mode" "" with
  | error e => rw [hmode] at hok; cases hok
  | ok mode => trivial

theorem returns_apply : Returns (FitsOutside cfg) WifiHandlers.handleApply fun _ => True := by
  refine returns_then returns_isApMode fun ap => ?_
  split
  · trivial
  · refine returns_said (returns_ask_bind.mpr fun created _ => ?_)
    cases created
    · exact ⟨_, .inl rfl⟩
    · exact ⟨_, .inr rfl⟩

theorem returns_connectionRoutes (hbody : BodyReadable cfg req) : ∀ route ∈ connectionRoutes cfg,
    req.method = route.method → req.path = route.path →
    Returns (Fits cfg) (route.handler req req.params) fun _ => True := by
  simp only [connectionRoutes, List.forall_mem_cons]
  exact ⟨fun _ _ => .embed returns_status, fun _ _ => .embed returns_savedNetworks,
    returns_route hbody .connect, returns_route hbody .forget, fun _ _ => .embed returns_apply,
    returns_route hbody .apPassword, fun _ h => absurd h List.not_mem_nil⟩

/-- The mode of the answer is the one of the file. -/
theorem returns_connectionMode : Returns (FitsOutside cfg) WifiHandlers.connectionMode fun mode =>
    mode.Reads Json.getString "mode" := by
  refine returns_ask_bind.mpr fun file hfile => ?_
  show Returns _ (WifiHandlers.queryServerConnection >>= _) _
  refine Returns.bind (R := fun _ => True) (returns_ask_bind.mpr fun _ _ => trivial) fun server _ => ?_
  refine Returns.bind (R := fun _ => True) ?_ fun offline _ => ?_
  · unfold WifiHandlers.offlineSecs
    split
    · split
      · exact returns_call_then fun _ => trivial
      · trivial
    · trivial
  refine (returns_read hfile.2).bind fun failedAt _ => ?_
  refine Returns.bind (R := fun _ => True) ?_ fun failedAgo _ => ?_
  · unfold WifiHandlers.failedSecsAgo
    split
    · exact returns_call_then fun _ => trivial
    · trivial
  refine (Json.value_isOk "").mp ?_
  have hok := (Json.value_isOk "").mpr hfile.1
  simpa using hok

/-! ## The system -/

theorem returns_handleInfo (hcfg : cfg.system.isUtf8 = true) :
    Returns (FitsOutside cfg) (SystemHandlers.handleInfo cfg.system) fun _ => True := by
  refine returns_ask_bind.mpr fun lines hlines => returns_getCurrentConnection.bind fun wifi hwifi => ?_
  obtain ⟨result, rfl, hutf8⟩ := hwifi
  have hok := currentConnection_reads result
  cases hssid : (WifiManager.currentConnection result).value Json.getString "connection_name" "" with
  | error e => rw [hssid] at hok; cases hok
  | ok ssid =>
    have hkeys : Text.isUtf8 "app_sha" = true ∧ Text.isUtf8 "wlan_ssid" = true := by decide
    have hsha : Text.isUtf8 cfg.system.appSha = true := (Bool.and_eq_true_iff.mp hcfg).2
    have hdata : ((SystemHandlers.sysinfo cfg.system (lines.getD [])).set "app_sha"
        (.str cfg.system.appSha)).isUtf8 = true :=
      Json.isUtf8_set (isUtf8_sysinfo hcfg hlines) hkeys.1 hsha
    exact returns_dumped (isUtf8_jsonResponse rfl
      (Json.isUtf8_set hdata hkeys.2 (Json.isUtf8_value hutf8 rfl hssid)))

theorem returns_handleCheckInternet :
    Returns (FitsOutside cfg) SystemHandlers.handleCheckInternet fun _ => True := by
  refine returns_ask_bind.mpr fun result hresult => returns_dumped (isUtf8_jsonResponse rfl ?_)
  have hkeys : Text.isUtf8 "connected" = true ∧ Text.isUtf8 "output" = true := by decide
  rw [Json.isUtf8_obj]
  simp only [List.forall_mem_cons]
  exact ⟨⟨hkeys.1, rfl⟩, ⟨hkeys.2, hresult⟩, List.forall_mem_nil _⟩

theorem returns_runWithStatusScreen {screen : String} {command : List String} {f : Bool → Response} :
    Returns (FitsOutside cfg) (SystemHandlers.runWithStatusScreen screen command >>= fun ok => .pure (f ok))
      fun _ => True := by
  refine returns_then (returns_call_then fun _ => returns_call_then fun result => ?_) fun _ => trivial
  split
  · trivial
  · exact returns_call_then fun _ => trivial

theorem returns_handleLogs {qp : QueryParams} :
    Returns (FitsOutside cfg) (SystemHandlers.handleLogs cfg.system qp) fun _ => True := by
  unfold SystemHandlers.handleLogs
  dsimp only
  split
  · trivial
  rename_i hservice
  refine returns_ask_bind.mpr fun result hresult => returns_dumped ?_
  have hkeys : Text.isUtf8 "service_name" = true ∧ Text.isUtf8 "lines" = true ∧ Text.isUtf8 "logs" = true := by
    decide
  have hnames : ∀ name ∈ SystemHandlers.allowedServiceNames_, Text.isUtf8 name = true := by decide
  split
  · exact isUtf8_errorResponse (by decide)
  · refine isUtf8_jsonResponse rfl ?_
    rw [Json.isUtf8_obj]
    simp only [List.forall_mem_cons]
    refine ⟨⟨hkeys.1, hnames _ ?_⟩, ⟨hkeys.2.1, rfl⟩, ⟨hkeys.2.2, hresult⟩, List.forall_mem_nil _⟩
    simpa [Validation.isAllowedServiceName] using hservice

theorem returns_diagnostics :
    Returns (FitsOutside cfg) (SystemHandlers.handleSendDiagnostics cfg.system) fun _ => True := by
  have hupload : Returns (FitsOutside cfg) (Service.diagnostics
      (DiagnosticsUploader.collectAndUpload cfg.system.diagnostics "owner" none))
      fun result => Text.isUtf8 result.error = true := .embed returns_collectAndUpload
  refine hupload.bind fun result hresult => returns_dumped ?_
  split
  · exact isUtf8_jsonResponse (by decide) (by decide)
  · exact isUtf8_errorResponse hresult

theorem returns_latest {resp : Json} (h : Typed resp) :
    Returns (FitsOutside cfg) (json (UpdateHandlers.latestAnswered resp)) fun _ => True := by
  have hok : (resp.value Json.getBool "ok" false).isOk = true := (Json.value_isOk _).mpr (h.flag rfl)
  have hcode : (resp.value Json.getInt "status_code" 0).isOk = true := (Json.value_isOk _).mpr (h.int rfl)
  have herror : (resp.value Json.getString "error" "").isOk = true := (Json.value_isOk _).mpr (h.text rfl)
  unfold UpdateHandlers.latestAnswered
  cases hvalue : resp.value Json.getBool "ok" false with
  | error e => rw [hvalue] at hok; cases hok
  | ok ok =>
    cases ok with
    | true => trivial
    | false =>
      cases hvalue' : resp.value Json.getInt "status_code" 0 with
      | error e => rw [hvalue'] at hcode; cases hcode
      | ok code =>
        cases hvalue'' : resp.value Json.getString "error" "" with
        | error e => rw [hvalue''] at herror; cases herror
        | ok error =>
          show Returns _ (json (if code = 404 then _ else _)) _
          split <;> trivial

theorem returns_perform {resp : Json} (h : Typed resp) :
    Returns (FitsOutside cfg) (json (UpdateHandlers.performAnswered resp)) fun _ => True := by
  have hok : (resp.value Json.getBool "ok" false).isOk = true := (Json.value_isOk _).mpr (h.flag rfl)
  have herror : (resp.value Json.getString "error" "Update not started").isOk = true :=
    (Json.value_isOk _).mpr (h.text rfl)
  unfold UpdateHandlers.performAnswered
  cases hvalue : resp.value Json.getBool "ok" false with
  | error e => rw [hvalue] at hok; cases hok
  | ok ok =>
    cases ok with
    | true => trivial
    | false =>
      cases hvalue' : resp.value Json.getString "error" "Update not started" with
      | error e => rw [hvalue'] at herror; cases herror
      | ok error => trivial

theorem returns_reported {type : IpcMessageType} {data : Json → Json} (htype : type ≠ .getDisplayStats) :
    Returns (FitsOutside cfg) (UpdateHandlers.reported type data) fun _ => True :=
  returns_reply htype fun _ hj => returns_read_bind (hj.flag rfl) fun _ => trivial

theorem returns_serviceEntries {services : List ServiceHandlers.ServiceDesc} :
    Returns (FitsOutside cfg) (ServiceHandlers.entries services) fun _ => True := by
  have hrunning (peer : Peer) : Returns (FitsOutside cfg) (ServiceHandlers.isRunning peer) fun _ => True :=
    returns_reply (by decide) fun _ hj => returns_read (hj.flag rfl)
  induction services with
  | nil => trivial
  | cons service services ih =>
    refine returns_then ?_ fun _ => returns_call_then fun _ => returns_then ih fun _ => trivial
    unfold ServiceHandlers.running
    split
    · trivial
    split
    · exact hrunning _
    split
    · exact hrunning _
    split
    · exact hrunning _
    · exact hrunning _

theorem returns_systemRoutes (hcfg : cfg.system.isUtf8 = true) (hbody : BodyReadable cfg req) : ∀ route ∈ systemRoutes cfg,
    req.method = route.method → req.path = route.path →
    Returns (Fits cfg) (route.handler req req.params) fun _ => True := by
  simp only [systemRoutes, List.forall_mem_cons]
  exact ⟨fun _ _ => .embed (returns_handleInfo hcfg), fun _ _ => .embed returns_handleCheckInternet,
    fun _ _ => .embed returns_runWithStatusScreen,
    fun _ _ => .embed (returns_call_then fun _ => trivial),
    fun _ _ => .embed returns_runWithStatusScreen, fun _ _ => .embed returns_handleLogs,
    fun _ _ => .embed returns_diagnostics,
    fun _ _ => .embed (returns_reply (by decide) fun _ => returns_latest),
    fun _ _ => .embed (returns_reply (by decide) fun _ => returns_perform),
    fun _ _ => .embed (returns_reported (by decide)), fun _ _ => .embed (returns_reported (by decide)),
    fun _ _ => .embed (returns_then returns_serviceEntries fun _ => trivial),
    returns_route hbody .restartService, fun _ h => absurd h List.not_mem_nil⟩

/-! ## Every request -/

theorem returns_hasValidSession : Returns (Fits cfg) (hasValidSession req) fun _ => True := by
  unfold hasValidSession
  split
  · trivial
  · exact returns_ask.mpr fun _ _ => trivial

theorem returns_publicRoutes (hbody : BodyReadable cfg req) : ∀ route ∈ publicRoutes cfg,
    req.method = route.method → req.path = route.path →
    Returns (Fits cfg) (route.handler req req.params) fun _ => True := by
  simp only [publicRoutes, List.forall_mem_cons]
  refine ⟨returns_route hbody .login, fun _ _ => returns_then returns_hasValidSession fun _ => trivial,
    fun _ _ => ?_, fun _ _ => .embed trivial, fun _ _ => ?_, fun _ h => absurd h List.not_mem_nil⟩
  · show Returns _ (handleLogout req) _
    unfold handleLogout
    split
    · trivial
    · exact returns_ask_bind.mpr fun _ _ => trivial
  · show Returns _ (handleConnectionMode req) _
    have hmode : Returns (Fits cfg) (outside WifiHandlers.connectionMode) fun mode =>
      mode.Reads Json.getString "mode" := .embed returns_connectionMode
    refine hmode.bind fun mode hmode => returns_read_bind hmode fun name => ?_
    split
    · trivial
    · exact returns_then returns_hasValidSession fun _ => trivial

theorem returns_protectedRoutes (hcfg : cfg.system.isUtf8 = true) (hbody : BodyReadable cfg req) : ∀ route ∈ protectedRoutes cfg,
    req.method = route.method → req.path = route.path →
    Returns (Fits cfg) (route.handler req req.params) fun _ => True := by
  intro route hroute
  rcases List.mem_cons.mp hroute with rfl | hroute
  · exact returns_route hbody .changePassword
  rcases List.mem_append.mp hroute with hroute | hroute
  · rcases List.mem_append.mp hroute with hroute | hroute
    · exact returns_frameRoutes hbody route hroute
    · exact returns_connectionRoutes hbody route hroute
  · exact returns_systemRoutes hcfg hbody route hroute

theorem returns_admission : Returns (Fits cfg) (admission cfg req) fun _ => True := by
  unfold admission
  split
  · trivial
  refine returns_then ?_ fun bypass => ?_
  · unfold apBypass
    split
    · exact .embed returns_isApMode
    · trivial
  · split
    · trivial
    · exact returns_then returns_hasValidSession fun _ => trivial

theorem returns_handleRequest (hcfg : cfg.system.isUtf8 = true) (hbody : BodyReadable cfg req) :
    Returns (Fits cfg) (handleRequest cfg req) fun _ => True := by
  refine returns_iff.mpr fun t r hr hfits => ?_
  rcases runs_bind.mp hr with ⟨e, rfl, he⟩ | ⟨adm, t₁, t₂, rfl, hadm, hrest⟩
  · obtain ⟨_, hno, -⟩ := returns_iff.mp returns_admission _ _ he hfits
    cases hno
  have hgate := keeps_admission.runs hadm
  have hanswered : Returns (Fits cfg) (dispatch req adm) fun _ => True := by
    cases adm with
    | open_ route =>
      obtain ⟨hmem, hmethod, hpath⟩ := lookup_mem hgate.2
      exact returns_publicRoutes hbody route hmem hmethod hpath
    | guarded route =>
      obtain ⟨hmem, hmethod, hpath⟩ := lookup_mem hgate.1
      exact returns_protectedRoutes hcfg hbody route hmem hmethod hpath
    | denied => trivial
    | notFound => trivial
  exact returns_iff.mp hanswered _ _ hrest fun e he => hfits e (List.mem_append_right t₁ he)

/-- In whatever order the requests are served: where the body of a request can be read, each reply
that it gets is one of the service that it asked and each output that it reads is UTF-8, the request
is answered. -/
theorem answered_of_fits {s : State} {c : Connection} {r : Except Error Response}
    (hcfg : cfg.system.isUtf8 = true) (hr : (machine cfg).Reachable s) (hc : c ∈ s.connections) (hbody : BodyReadable cfg c.request)
    (hfits : ∀ e ∈ c.history, Fits cfg e) (hdone : c.rest.outcome = some r) : ∃ resp, r = .ok resp := by
  have hsteps := sound_of_reachable hr c hc
  rw [outcome_eq_some.mp hdone] at hsteps
  obtain ⟨resp, hresp, -⟩ := returns_iff.mp (returns_handleRequest hcfg hbody) _ _ hsteps hfits
  exact ⟨resp, hresp⟩

/-! ## A skip and a log -/

def skipRequest : Request where
  method := "POST"
  uri := "/api/frame/slideshow/skip"
  cookie := some "session=abc"

def logsRequest : Request where
  method := "GET"
  uri := "/api/system/logs?service_name=system&lines=20"
  cookie := some "session=abc"

def refreshing : Json := .obj [("refreshing", .bool true)]

/-- The display refreshes. -/
def skipped : List Event :=
  [⟨.isValid "abc", true⟩,
    ⟨.outside (.sendAndReceive .display { type := .skipImage, data := .null }), some refreshing⟩]

theorem same_refreshing : refreshing.Same refreshing := by
  refine .obj (fun _ => rfl) fun key a a' ha ha' => ?_
  obtain rfl := Option.some.inj (ha.symm.trans ha')
  cases Json.mem_of_lookup ha with
  | head => exact .bool true
  | tail _ h => cases h

theorem display_refreshing : Replies.Display { type := .skipImage, data := .null } refreshing :=
  have hruns : Runs (DisplayIpc.handle { type := .skipImage, data := .null }) [⟨.isRefreshing, true⟩]
      (.ok refreshing) := .cons (.nil _)
  .intro ⟨rfl, .null⟩ hruns same_refreshing

theorem fits_skipped : ∀ e ∈ skipped, Fits homeBoard e := by
  intro e he
  obtain rfl | rfl := List.mem_pair.mp he
  · exact id
  · rintro j ⟨⟩
    exact display_refreshing

/-- The log of the board is a text. -/
def logged : List Event :=
  [⟨.isValid "abc", true⟩,
    ⟨.outside (.run ["tail", "-n", "20", "/var/log/messages"] 10), { exitCode := 0, stdOut := "up\n" }⟩]

theorem fits_logged : ∀ e ∈ logged, Fits homeBoard e := by
  intro e he
  obtain rfl | rfl := List.mem_pair.mp he
  · exact id
  · have hutf8 : Text.isUtf8 "up\n" = true := by decide
    exact hutf8

/-- A run in which one request is served to its end. -/
theorem exists_of_served {req : Request} {t : List Event}
    (h : ((machine homeBoard).run ownerState (.request req :: t.map (.answer 0))).any
      (fun s => s.connections.all (·.rest.outcome.isSome)) = true) :
    ∃ (s : State) (c : Connection) (r : Except Error Response), (machine homeBoard).Reachable s ∧
      c ∈ s.connections ∧ c.request = req ∧ c.history = t ∧ c.rest.outcome = some r := by
  obtain ⟨s, hrun, hall⟩ := (machine homeBoard).exists_of_run ownerState _ _ h
  obtain ⟨c, hc, hreq, hhistory⟩ := history_of_run rfl hrun
  have hmem : c ∈ s.connections := hc ▸ List.mem_cons_self
  obtain ⟨r, hdone⟩ := Option.isSome_iff_exists.mp (List.all_eq_true.mp hall c hmem)
  exact ⟨s, c, r, Transition.Machine.reachable_run _ ⟨rfl, rfl, rfl⟩ hrun, hmem, hreq, hhistory, hdone⟩

theorem bodyReadable_of_nil {req : Request} (h : req.body = []) : BodyReadable homeBoard req := by
  intro route _ body hparse
  have hnone : homeBoard.parse [] = none := by decide +kernel
  rw [h, hnone] at hparse
  cases hparse

theorem answered_of_fits_both :
    (∃ c : Connection, c.request = skipRequest ∧ ∃ resp, c.rest.outcome = some (.ok resp)) ∧
      ∃ c : Connection, c.request = logsRequest ∧ ∃ resp, c.rest.outcome = some (.ok resp) := by
  have hskip : ((machine homeBoard).run ownerState (.request skipRequest ::
      skipped.map (.answer 0))).any (fun s => s.connections.all (·.rest.outcome.isSome)) = true := by
    decide +kernel
  have hlogs : ((machine homeBoard).run ownerState (.request logsRequest ::
      logged.map (.answer 0))).any (fun s => s.connections.all (·.rest.outcome.isSome)) = true := by
    decide +kernel
  constructor
  · obtain ⟨s, c, r, hr, hc, hreq, hhistory, hdone⟩ := exists_of_served hskip
    obtain ⟨resp, rfl⟩ := answered_of_fits (by decide) hr hc (bodyReadable_of_nil (hreq ▸ rfl))
      (hhistory ▸ fits_skipped) hdone
    exact ⟨c, hreq, resp, hdone⟩
  · obtain ⟨s, c, r, hr, hc, hreq, hhistory, hdone⟩ := exists_of_served hlogs
    obtain ⟨resp, rfl⟩ := answered_of_fits (by decide) hr hc (bodyReadable_of_nil (hreq ▸ rfl))
      (hhistory ▸ fits_logged) hdone
    exact ⟨c, hreq, resp, hdone⟩

end ShareFrame.Dashboard
