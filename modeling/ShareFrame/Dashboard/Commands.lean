import ShareFrame.Dashboard.Access
import ShareFrame.Dashboard.Bodies

/-!
# The commands that requests run

Some commands of the dashboard take an argument from the body or the query of a request.
`Ordered` lists all that a request may run. Whatever is answered, and whatever other
requests run at the same time, a request runs nothing else, and nothing before it is let
in (`commands_ordered`).
-/

namespace ShareFrame.Dashboard

open HTTPClient Interaction Prog

variable {cfg : Config} {req : Request}

/-! ## The orders -/

/-- The command behind a call, the uploader's included. -/
def Outside.command : Outside → Option (List String)
  | .run args _ => some args
  | .sysinfo => some ["shareframe-sysinfo"]
  | .svstat id => some ["s6-svstat", "/run/service/shareframe-" ++ id]
  | .diagnostics (.run args _) => some args
  | _ => none

def Op.command : Op → Option (List String)
  | .outside op => op.command
  | _ => none

def wifiStatus : List String := ["shareframe-wifi", "status"]

/-- The fields of the body, as the handlers read them. -/
def Request.Says (cfg : Config) (req : Request) (key value : String) : Prop :=
  ∃ body, cfg.parse req.body = some body ∧ body.value Json.getString key "" = .ok value

/-- The network in use was asked for, and is another one; or the question failed. -/
def Unused (t : List Event) (ssid : String) : Prop :=
  ∃ result, ⟨.outside (.run wifiStatus 10), result⟩ ∈ t ∧
    (WifiManager.currentConnection result).value Json.getString "connection_name" "" ≠ .ok ssid

/-- What a request runs behind the calls of `t`. -/
inductive Ordered (cfg : Config) (req : Request) (t : List Event) : List String → Prop where
  | status (h : req.path ∈
      ["/api/connection/status", "/api/connection/forget", "/api/system/info"]) :
    Ordered cfg req t wifiStatus
  | list (h : req.path = "/api/connection/saved-networks") :
    Ordered cfg req t ["shareframe-wifi", "list"]
  | add {ssid password : String} (h : req.path = "/api/connection/connect")
    (hssid : req.Says cfg "ssid" ssid) (hpassword : req.Says cfg "password" password)
    (hvalid : Validation.isValidSsid ssid = true)
    (hvalid' : Validation.isValidPassword password = true)
    (hfree : WifiMode.isProtectedNetwork ssid = false) :
    Ordered cfg req t ["shareframe-wifi", "add", ssid, password]
  | del {ssid : String} (h : req.path = "/api/connection/forget") (hssid : req.Says cfg "ssid" ssid)
    (hvalid : Validation.isValidNetworkName ssid = true)
    (hfree : WifiMode.isProtectedNetwork ssid = false) (hunused : Unused t ssid) :
    Ordered cfg req t ["shareframe-wifi", "del", ssid]
  | setpass {password : String} (h : req.path = "/api/connection/ap-password")
    (hpassword : req.Says cfg "password" password)
    (hvalid : Validation.isValidWpaPassphrase password = true) :
    Ordered cfg req t ["shareframe-ap", "setpass", password]
  | sysinfo (h : req.path = "/api/system/info") : Ordered cfg req t ["shareframe-sysinfo"]
  | ping (h : req.path = "/api/system/check-internet") :
    Ordered cfg req t ["ping", "-c", "2", "-w", "3", "1.1.1.1"]
  | reboot (h : req.path = "/api/system/restart") : Ordered cfg req t ["reboot"]
  | shutdown (h : req.path = "/api/system/shutdown") : Ordered cfg req t ["shutdown"]
  | factoryReset (h : req.path = "/api/system/factory-reset") :
    Ordered cfg req t ["shareframe-factory-reset", "--yes"]
  | tail {service : String} {lines : Int} (h : req.path = "/api/system/logs")
    (hservice : service ∈ SystemHandlers.allowedServiceNames_) (hlow : 1 ≤ lines)
    (hhigh : lines ≤ 10000) :
    Ordered cfg req t ["tail", "-n", toString lines, SystemHandlers.logFile cfg.system service]
  | diagnostics (h : req.path = "/api/system/diagnostics") : Ordered cfg req t ["shareframe-diag"]
  | svstat {service : ServiceHandlers.ServiceDesc} (h : req.path = "/api/services")
    (hservice : service ∈ ServiceHandlers.kServices) :
    Ordered cfg req t ["s6-svstat", "/run/service/shareframe-" ++ service.id]
  | restart {service : ServiceHandlers.ServiceDesc} (h : req.path = "/api/services/restart")
    (hservice : service ∈ ServiceHandlers.kServices) (hid : req.Says cfg "service" service.id) :
    Ordered cfg req t ["s6-svc", "-r", "/run/service/shareframe-" ++ service.id]

def orders (cfg : Config) (req : Request) : Discipline Ans (List Event) :=
  .tracing fun t op => ∀ args, op.command = some args → Ordered cfg req t args

abbrev serviceOrders (cfg : Config) (req : Request) : Discipline OutsideAns (List Event) :=
  (orders cfg req).comap .outside

/-! ## Handlers -/

/-- No command. -/
def Silent (op : Outside) : Prop := op.command = none

theorem keeps_silent {α : Type} {p : Service α} (h : Uses Silent p) {t : List Event} :
    (serviceOrders cfg req).Keeps p (fun _ _ => True) t :=
  Discipline.keeps_of_permitted h fun t op hop args hargs => by
    have hargs : op.command = some args := hargs
    rw [hop] at hargs
    cases hargs

theorem keeps_call {op : Outside} {args : List String} {t : List Event}
    {Q : OutsideAns op → List Event → Prop} (hop : op.command = some args)
    (h : Ordered cfg req t args) (hQ : ∀ a, Q a (t ++ [⟨.outside op, a⟩])) :
    (serviceOrders cfg req).Keeps (Service.call op) Q t := by
  refine Discipline.keeps_ask.mpr ⟨fun args' hargs => ?_, hQ⟩
  obtain rfl := Option.some.inj (hop.symm.trans hargs)
  exact h

theorem keeps_run {args : List String} {secs : Nat} {t : List Event}
    {Q : RemoteCommand.SubprocessResult → List Event → Prop} (h : Ordered cfg req t args)
    (hQ : ∀ result, Q result (t ++ [⟨.outside (.run args secs), result⟩])) :
    (serviceOrders cfg req).Keeps (Service.run args secs) Q t := keeps_call rfl h hQ

theorem silent_json {α : Type} {x : Except Json.Error α} : Uses Silent (json x : Service α) := .lift

theorem silent_dumped {resp : Response} : Uses Silent (dumped resp) := by
  unfold dumped
  split
  · exact .pure
  · exact .throw

/-- What is left of a program when its commands are behind it. -/
theorem keeps_then {α β : Type} {p : Service α} {f : α → Service β} {t : List Event}
    (h : (serviceOrders cfg req).Keeps p (fun _ _ => True) t) (hf : ∀ a, Uses Silent (f a)) :
    (serviceOrders cfg req).Keeps (p >>= f) (fun _ _ => True) t :=
  h.bind fun a _ _ => keeps_silent (hf a)

theorem keeps_answer {p : Service Json} {t : List Event}
    (h : (serviceOrders cfg req).Keeps p (fun _ _ => True) t) :
    (serviceOrders cfg req).Keeps (WifiHandlers.answer p) (fun _ _ => True) t :=
  keeps_then h fun _ => silent_json

theorem keeps_answerOutput {p : Service Json} {t : List Event}
    (h : (serviceOrders cfg req).Keeps p (fun _ _ => True) t) :
    (serviceOrders cfg req).Keeps (WifiHandlers.answerOutput p) (fun _ _ => True) t :=
  keeps_then (keeps_answer h) fun _ => silent_dumped

/-- A handler with a body: the action, on what was read. -/
theorem orders_bodyHandler {Args : Type} {read : Json → Except Json.Error (Checked Args)}
    {act : Args → Service Response} {t : List Event}
    (h : ∀ body args, cfg.parse req.body = some body → read body = .ok (.accepted args) →
      (serviceOrders cfg req).Keeps (act args) (fun _ _ => True) t) :
    (serviceOrders cfg req).Keeps (bodyHandler cfg.parse read act req) (fun _ _ => True) t := by
  unfold bodyHandler
  cases hparse : cfg.parse req.body with
  | none => trivial
  | some body =>
    show (serviceOrders cfg req).Keeps (answerBody read act body) _ t
    unfold answerBody
    cases hread : read body with
    | error e => trivial
    | ok checked =>
      cases checked with
      | refused message => trivial
      | accepted args => exact h body args hparse hread

/-! ## The network -/

section

variable {t : List Event}

/-- The answer is the one that the command gave. -/
theorem keeps_getCurrentConnection (h : req.path ∈
      ["/api/connection/status", "/api/connection/forget", "/api/system/info"]) :
    (serviceOrders cfg req).Keeps WifiManager.getCurrentConnection (fun current t' =>
      ∃ result, current = WifiManager.currentConnection result ∧
        ⟨.outside (.run wifiStatus 10), result⟩ ∈ t') t :=
  Discipline.keeps_bind.mpr (keeps_run (.status h) fun result =>
    ⟨result, rfl, List.mem_append_right t List.mem_cons_self⟩)

theorem keeps_getSavedNetworks (h : req.path = "/api/connection/saved-networks") :
    (serviceOrders cfg req).Keeps WifiManager.getSavedNetworks (fun _ _ => True) t :=
  keeps_then (keeps_run (.list h) fun _ => trivial) fun _ => .pure

theorem keeps_connect {body : Json} {args : WifiHandlers.ConnectArgs}
    (h : req.path = "/api/connection/connect") (hbody : cfg.parse req.body = some body)
    (hread : WifiHandlers.readConnect body = .ok (.accepted args)) :
    (serviceOrders cfg req).Keeps (WifiManager.connect args.ssid args.password)
      (fun _ _ => True) t := by
  obtain ⟨ssid, hssid, hread⟩ := Json.eq_ok_of_bind hread
  obtain ⟨password, hpassword, hread⟩ := accepted_field hread
  unfold WifiHandlers.checkConnect at hread
  split at hread
  · cases hread
  rename_i hvalid
  split at hread
  · cases hread
  rename_i hvalid'
  cases hread
  unfold WifiManager.connect
  split
  · trivial
  rename_i hfree
  exact keeps_then (keeps_run (.add h ⟨body, hbody, hssid⟩ ⟨body, hbody, hpassword⟩
    (by simpa using hvalid) (by simpa using hvalid') (by simpa using hfree)) fun _ => trivial)
    fun _ => .pure

theorem keeps_forget {body : Json} {ssid : String} (h : req.path = "/api/connection/forget")
    (hbody : cfg.parse req.body = some body)
    (hread : WifiHandlers.readForget body = .ok (.accepted ssid)) :
    (serviceOrders cfg req).Keeps (WifiManager.forget ssid) (fun _ _ => True) t := by
  obtain ⟨field, hssid, hread⟩ := accepted_field hread
  have hvalid := valid_of_require hread
  rw [hvalid] at hread
  cases hread
  unfold WifiManager.forget
  split
  · trivial
  rename_i hfree
  refine (keeps_getCurrentConnection (by simp [h])).bind fun current t' hcurrent => ?_
  obtain ⟨result, rfl, hasked⟩ := hcurrent
  unfold WifiManager.delete
  refine Discipline.keeps_bind.mpr ?_
  cases hname : (WifiManager.currentConnection result).value Json.getString "connection_name" "" with
  | error e => trivial
  | ok name =>
    show (serviceOrders cfg req).Keeps (if name = ssid then _ else _) _ t'
    split
    · trivial
    rename_i hother
    refine keeps_then (keeps_run (.del h ⟨body, hbody, hssid⟩ hvalid (by simpa using hfree)
      ⟨result, hasked, ?_⟩) fun _ => trivial) fun _ => .pure
    rw [hname]
    exact fun heq => hother (Except.ok.inj heq)

theorem keeps_setApPassword {body : Json} {password : String}
    (h : req.path = "/api/connection/ap-password") (hbody : cfg.parse req.body = some body)
    (hread : WifiHandlers.readApPassword body = .ok (.accepted password)) :
    (serviceOrders cfg req).Keeps (WifiManager.setApPassword password) (fun _ _ => True) t := by
  obtain ⟨field, hpassword, hread⟩ := accepted_field hread
  have hvalid := valid_of_require hread
  rw [hvalid] at hread
  cases hread
  exact keeps_then (keeps_run (.setpass h ⟨body, hbody, hpassword⟩ hvalid) fun _ => trivial)
    fun _ => .pure

theorem silent_handleApply : Uses Silent WifiHandlers.handleApply := by
  unfold WifiHandlers.handleApply
  refine .bind (.bind (.ask rfl) fun _ => silent_json) fun ap => ?_
  split
  · exact .pure
  · exact .bind (.bind (.ask rfl) fun _ => .pure) fun _ => silent_json

/-- Each route of the network keeps to its own commands. -/
theorem keeps_connectionRoutes : ∀ route ∈ connectionRoutes cfg, req.path = route.path →
    (orders cfg req).Keeps (route.handler req req.params) (fun _ _ => True) t := by
  simp only [connectionRoutes, List.forall_mem_cons]
  refine ⟨fun h => .embed ?_, fun h => .embed ?_, fun h => .embed ?_, fun h => .embed ?_,
    fun _ => .embed (keeps_silent silent_handleApply), fun h => .embed ?_,
    fun _ h => absurd h List.not_mem_nil⟩
  · exact keeps_answerOutput ((keeps_getCurrentConnection (by simp [h, Route.plain])).mono
      fun _ _ _ => trivial)
  · exact keeps_answerOutput (keeps_getSavedNetworks h)
  · exact orders_bodyHandler fun body args hbody hread => keeps_answer (keeps_connect h hbody hread)
  · exact orders_bodyHandler fun body ssid hbody hread => keeps_answer (keeps_forget h hbody hread)
  · exact orders_bodyHandler fun body password hbody hread =>
      keeps_answer (keeps_setApPassword h hbody hread)

end

/-! ## The frame -/

/-- A question to a service, and what is made of its answer. -/
theorem silent_sendAndReceive {α : Type} {peer : Peer} {type : IpcMessageType} {data : Json}
    {f : Option Json → Service α} (hf : ∀ reply, Uses Silent (f reply)) :
    Uses Silent (Service.sendAndReceive peer type data >>= f) := .bind (.ask rfl) hf

theorem silent_json_bind {α β : Type} {x : Except Json.Error α} {f : α → Service β}
    (hf : ∀ a, Uses Silent (f a)) : Uses Silent (json x >>= f) := .bind silent_json hf

theorem silent_valueOr {α : Type} {reply : Option Json} {get : Json → Except Json.Error α}
    {key : String} {dflt : α} : Uses Silent (FrameHandlers.valueOr reply get key dflt) := by
  cases reply with
  | none => exact .pure
  | some reply => exact silent_json

theorem silent_nightModeStatus {display : DisplayConfig} {night : Option Json} :
    Uses Silent (FrameHandlers.nightModeStatus display night) := by
  cases night with
  | none =>
    exact .bind .pure fun _ => .bind silent_valueOr fun _ => .bind silent_valueOr fun _ =>
      .bind silent_valueOr fun _ => .bind silent_valueOr fun _ => .bind silent_valueOr fun _ => .pure
  | some night =>
    exact silent_json_bind fun _ => .bind silent_valueOr fun _ => .bind silent_valueOr fun _ =>
      .bind silent_valueOr fun _ => .bind silent_valueOr fun _ => .bind silent_valueOr fun _ => .pure

theorem silent_handleStatus {display : DisplayConfig} :
    Uses Silent (FrameHandlers.handleStatus display) := by
  refine silent_sendAndReceive fun active => silent_sendAndReceive fun interval => ?_
  cases active with
  | none => exact .pure
  | some active =>
    cases interval with
    | none => exact .pure
    | some interval =>
      refine silent_sendAndReceive fun _ => silent_sendAndReceive fun _ =>
        silent_sendAndReceive fun _ => .bind silent_nightModeStatus fun _ => ?_
      refine silent_json_bind fun _ => silent_json_bind fun _ => silent_json_bind fun _ =>
        silent_json_bind fun _ => silent_json_bind fun _ => ?_
      exact .bind silent_valueOr fun _ => .bind silent_valueOr fun _ => .bind silent_valueOr fun _ =>
        .bind silent_valueOr fun _ => .bind silent_valueOr fun _ => .pure

theorem silent_forward {type : IpcMessageType} {data response : Json} :
    Uses Silent (FrameHandlers.forward type data response) := .bind (.ask rfl) fun _ => .pure

theorem silent_handleClear : Uses Silent FrameHandlers.handleClear :=
  .bind (.ask rfl) fun _ => .pure

/-- A request that a service answers; no answer is one of the responses. -/
theorem silent_reply {peer : Peer} {type : IpcMessageType} {data : Json} {absent : Response}
    {f : Json → Service Response} (hf : ∀ reply, Uses Silent (f reply)) :
    Uses Silent (Service.sendAndReceive peer type data >>= fun
      | none => .pure absent
      | some reply => f reply) := by
  refine silent_sendAndReceive fun reply => ?_
  cases reply with
  | none => exact .pure
  | some reply => exact hf reply

theorem silent_entries {images : List Image} {ids : List Int} {position : Nat} :
    Uses Silent (SlideshowImageHandlers.entries images ids position) := by
  induction ids generalizing position with
  | nil => exact .pure
  | cons id ids ih =>
    refine .bind ?_ fun _ => .bind ih fun _ => .pure
    unfold SlideshowImageHandlers.entry
    split
    · exact .pure
    · exact .bind (.ask rfl) fun _ => .bind (.ask rfl) fun _ => .pure

theorem silent_orThrow {α : Type} {e : Error} {x : Option α} :
    Uses Silent (orThrow e x : Service α) := by
  cases x with
  | none => exact .throw
  | some a => exact .pure

theorem silent_listed {order : Json} : Uses Silent (SlideshowImageHandlers.listed order) := by
  refine silent_json_bind fun mode => silent_json_bind fun _ => .bind (.ask rfl) fun _ =>
    .bind silent_orThrow fun images => ?_
  dsimp only
  split
  · exact silent_json_bind fun _ => .bind .pure fun _ => .bind silent_entries fun _ =>
      silent_json_bind fun _ => .pure
  · exact .bind .pure fun _ => .bind silent_entries fun _ => silent_json_bind fun _ => .pure

theorem silent_handleFile {qp : QueryParams} : Uses Silent (SlideshowImageHandlers.handleFile qp) := by
  unfold SlideshowImageHandlers.handleFile
  split
  · exact .pure
  split
  · refine .bind (.ask rfl) fun found => .bind silent_orThrow fun images => ?_
    cases images with
    | nil => exact .pure
    | cons img images =>
      refine .bind (.ask rfl) fun bytes => ?_
      cases bytes with
      | none => exact .pure
      | some bytes => exact .pure
  · exact .pure

theorem silent_updateOrder {args : SlideshowImageHandlers.OrderArgs} :
    Uses Silent (SlideshowImageHandlers.updateOrder args) := by
  refine .bind ?_ fun _ => silent_forward
  unfold SlideshowImageHandlers.orderToSet
  split
  · exact .pure
  · exact silent_sendAndReceive fun _ => silent_json

theorem silent_bodyHandler {Args : Type} {read : Json → Except Json.Error (Checked Args)}
    {act : Args → Service Response} (h : ∀ args, Uses Silent (act args)) :
    Uses Silent (bodyHandler cfg.parse read act req) := by
  unfold bodyHandler
  split
  · exact .pure
  · refine silent_json_bind fun checked => ?_
    cases checked with
    | refused message => exact .pure
    | accepted args => exact h args

/-- The routes of the frame run no command. -/
theorem keeps_frameRoutes {t : List Event} : ∀ route ∈ frameRoutes cfg,
    (orders cfg req).Keeps (route.handler req req.params) (fun _ _ => True) t := by
  simp only [frameRoutes, List.forall_mem_cons]
  refine ⟨.embed (keeps_silent silent_handleStatus),
    .embed (keeps_silent (silent_bodyHandler fun _ => silent_forward)),
    .embed (keeps_silent (silent_bodyHandler fun _ => silent_forward)),
    .embed (keeps_silent (silent_bodyHandler fun _ => silent_forward)),
    .embed (keeps_silent (silent_reply fun _ => silent_json_bind fun _ => .pure)),
    .embed (keeps_silent (silent_bodyHandler fun _ => silent_reply fun _ => silent_json)),
    .embed (keeps_silent silent_handleClear),
    .embed (keeps_silent (silent_reply fun _ => .pure)),
    .embed (keeps_silent (silent_reply fun _ => silent_json_bind fun _ => .pure)),
    .embed (keeps_silent (silent_bodyHandler fun _ => silent_forward)),
    .embed (keeps_silent (silent_bodyHandler fun _ => silent_updateOrder)),
    .embed (keeps_silent (silent_reply fun _ => silent_listed)),
    .embed (keeps_silent silent_handleFile), fun _ h => absurd h List.not_mem_nil⟩

/-! ## The system -/

section

variable {t : List Event}

theorem keeps_handleInfo (h : req.path = "/api/system/info") :
    (serviceOrders cfg req).Keeps (SystemHandlers.handleInfo cfg.system) (fun _ _ => True) t := by
  refine Discipline.keeps_bind.mpr (keeps_call rfl (.sysinfo h) fun lines => ?_)
  exact (keeps_getCurrentConnection (by simp [h])).bind fun current t' _ =>
    keeps_silent (silent_json_bind fun _ => silent_dumped)

/-- The display service hears of it before the command runs. -/
theorem keeps_runWithStatusScreen {screen : String} {command : List String}
    (h : ∀ t, Ordered cfg req t command) :
    (serviceOrders cfg req).Keeps (SystemHandlers.runWithStatusScreen screen command)
      (fun _ _ => True) t := by
  refine Discipline.keeps_ask_bind.mpr ⟨nofun, fun sent => ?_⟩
  refine keeps_then (keeps_run (h _) fun _ => trivial) fun result => ?_
  split
  · exact .pure
  · exact .bind (.ask rfl) fun _ => .pure

theorem clampLogLines_mem (lines : Int) :
    1 ≤ Validation.clampLogLines lines ∧ Validation.clampLogLines lines ≤ 10000 := by
  simp only [Validation.clampLogLines, Validation.DEFAULT_LOG_LINES, Validation.MAX_LOG_LINES]
  split <;> omega

theorem keeps_handleLogs {qp : QueryParams} (h : req.path = "/api/system/logs") :
    (serviceOrders cfg req).Keeps (SystemHandlers.handleLogs cfg.system qp) (fun _ _ => True) t := by
  simp only [SystemHandlers.handleLogs]
  split
  · trivial
  rename_i hservice
  refine keeps_then (keeps_run (.tail h ?_ (clampLogLines_mem _).1 (clampLogLines_mem _).2) fun _ => trivial)
    fun _ => silent_dumped
  simpa [Validation.isAllowedServiceName] using hservice

theorem silent_running {id : String} : Uses Silent (ServiceHandlers.running id) := by
  have hrunning : ∀ peer, Uses Silent (ServiceHandlers.isRunning peer) := fun peer => by
    refine silent_sendAndReceive fun reply => ?_
    cases reply with
    | none => exact .pure
    | some reply => exact silent_json
  unfold ServiceHandlers.running
  split
  · exact .pure
  split
  · exact hrunning _
  split
  · exact hrunning _
  split
  · exact hrunning _
  · exact hrunning _

theorem keeps_serviceEntries {services : List ServiceHandlers.ServiceDesc}
    (h : req.path = "/api/services") (hall : ∀ service ∈ services, service ∈ ServiceHandlers.kServices) :
    (serviceOrders cfg req).Keeps (ServiceHandlers.entries services) (fun _ _ => True) t := by
  induction services generalizing t with
  | nil => trivial
  | cons service services ih =>
    refine (keeps_silent silent_running).bind fun isUp t' _ => ?_
    refine Discipline.keeps_bind.mpr
      (keeps_call rfl (.svstat h (hall service List.mem_cons_self)) fun svstat => ?_)
    exact keeps_then (ih fun other hother => hall other (List.mem_cons_of_mem _ hother))
      fun _ => .pure

theorem keeps_serviceRestart {body : Json} {id : String} (h : req.path = "/api/services/restart")
    (hbody : cfg.parse req.body = some body)
    (hread : ServiceHandlers.readRestart body = .ok (.accepted id)) :
    (serviceOrders cfg req).Keeps (ServiceHandlers.restart id) (fun _ _ => True) t := by
  obtain ⟨field, hid, hread⟩ := accepted_field hread
  have hallowed := valid_of_require hread
  rw [hallowed] at hread
  cases hread
  obtain ⟨service, hservice, hname⟩ := List.any_eq_true.mp hallowed
  obtain rfl := of_decide_eq_true hname
  exact keeps_then (keeps_run (.restart h hservice ⟨body, hbody, hid⟩) fun _ => trivial)
    fun _ => .pure

/-- No command of the uploader. -/
theorem silent_post {diag : DiagnosticsUploader.Config} {package trigger : String}
    {commandId : Option Int} : Uses (fun op => Silent (.diagnostics op))
      (DiagnosticsUploader.post diag package trigger commandId) := by
  refine .bind (.ask rfl) fun headers => ?_
  match headers with
  | none => exact .throw
  | some none => exact .pure
  | some (some _) =>
    refine .bind (.ask rfl) fun resp => ?_
    split
    · refine .bind (.ask rfl) fun done => ?_
      cases done
      exacts [.throw, .pure]
    · split <;> exact .pure

theorem silent_uploadPending {diag : DiagnosticsUploader.Config} {commandId : Option Int} :
    Uses (fun op => Silent (.diagnostics op))
      (DiagnosticsUploader.uploadPending diag commandId) := by
  refine .bind (.ask rfl) fun package => .bind silent_post fun result => ?_
  split
  exacts [.bind (.ask rfl) fun _ => .pure, .pure]

theorem keeps_collectAndUpload {diag : DiagnosticsUploader.Config} {trigger : String}
    {commandId : Option Int} (h : req.path = "/api/system/diagnostics") :
    (serviceOrders cfg req).Keeps
      (Service.diagnostics (DiagnosticsUploader.collectAndUpload diag trigger commandId))
      (fun _ _ => True) t := by
  have hcollect : ∀ t, ((serviceOrders cfg req).comap Outside.diagnostics).Keeps
      (DiagnosticsUploader.collect diag trigger commandId) (fun _ _ => True) t := fun t => by
    refine Discipline.keeps_ask_bind.mpr ⟨fun args hargs => ?_, fun res => ?_⟩
    · cases hargs
      exact .diagnostics h
    · split
      · trivial
      · exact Discipline.keeps_of_permitted silent_post fun t op hop args hargs => by
          cases hop.symm.trans hargs
  refine .embed (Discipline.keeps_ask_bind.mpr ⟨nofun, fun found => ?_⟩)
  match found with
  | none => trivial
  | some false => exact hcollect _
  | some true =>
    refine Discipline.Keeps.bind (Discipline.keeps_of_permitted silent_uploadPending
      fun t op hop args hargs => ?_) fun _ t' _ => hcollect t'
    cases hop.symm.trans hargs

theorem silent_reported {type : IpcMessageType} {data : Json → Json} :
    Uses Silent (UpdateHandlers.reported type data) :=
  silent_reply fun _ => silent_json_bind fun _ => .pure

/-- Each route of the system keeps to its own command. -/
theorem keeps_systemRoutes : ∀ route ∈ systemRoutes cfg, req.path = route.path →
    (orders cfg req).Keeps (route.handler req req.params) (fun _ _ => True) t := by
  simp only [systemRoutes, List.forall_mem_cons]
  refine ⟨fun h => .embed (keeps_handleInfo h), fun h => .embed ?_, fun h => .embed ?_,
    fun h => .embed ?_, fun h => .embed ?_, fun h => .embed (keeps_handleLogs h),
    fun h => .embed (keeps_then (keeps_collectAndUpload h) fun _ => silent_dumped),
    fun _ => .embed (keeps_silent (silent_reply fun _ => silent_json)),
    fun _ => .embed (keeps_silent (silent_reply fun _ => silent_json)),
    fun _ => .embed (keeps_silent silent_reported), fun _ => .embed (keeps_silent silent_reported),
    fun h => .embed (keeps_then (keeps_serviceEntries h fun _ => id) fun _ => .pure),
    fun h => .embed ?_,
    fun _ h => absurd h List.not_mem_nil⟩
  · exact keeps_then (keeps_run (.ping h) fun _ => trivial) fun _ => silent_dumped
  · exact keeps_then (keeps_runWithStatusScreen fun _ => .reboot h) fun _ => .pure
  · exact keeps_then (keeps_run (.shutdown h) fun _ => trivial) fun _ => .pure
  · exact keeps_then (keeps_runWithStatusScreen fun _ => .factoryReset h) fun _ => .pure
  · exact orders_bodyHandler fun body id hbody hread => keeps_serviceRestart h hbody hread

end

/-! ## The login -/

/-- No command, among all calls of the dashboard. -/
def Quiet (op : Op) : Prop := op.command = none

theorem keeps_quiet {α : Type} {p : Handler α} (h : Uses Quiet p) {t : List Event} :
    (orders cfg req).Keeps p (fun _ _ => True) t :=
  Discipline.keeps_of_permitted h fun _ _ hop _ hargs => by cases hop.symm.trans hargs

theorem quiet_json {α : Type} {x : Except Json.Error α} : Uses Quiet (json x : Handler α) := .lift

theorem quiet_orThrow {α : Type} {e : Error} {x : Option α} :
    Uses Quiet (orThrow e x : Handler α) := by
  cases x with
  | none => exact .throw
  | some a => exact .pure

theorem quiet_hasValidSession : Uses Quiet (hasValidSession req) := by
  unfold hasValidSession
  split
  · exact .pure
  · exact .ask rfl

theorem quiet_outside {α : Type} {p : Service α} (h : Uses Silent p) : Uses Quiet (outside p) :=
  .embed h

theorem quiet_apBypass : Uses Quiet (apBypass req) := by
  unfold apBypass
  split
  · exact quiet_outside (.bind (.ask rfl) fun _ => silent_json)
  · exact .pure

theorem quiet_admission : Uses Quiet (admission cfg req) := by
  unfold admission
  split
  · exact .pure
  refine .bind quiet_apBypass fun bypass => ?_
  split
  · exact .pure
  · exact .bind quiet_hasValidSession fun _ => .pure

theorem quiet_storedHash : Uses Quiet storedHash := .bind (.ask rfl) fun _ => quiet_orThrow

theorem quiet_verifyDashboardPassword {password : String} :
    Uses Quiet (verifyDashboardPassword cfg password) := by
  have hinitial : Uses Quiet (verifyInitial cfg password) := by
    unfold verifyInitial
    split
    · exact .pure
    · exact .ask rfl
  refine .bind quiet_storedHash fun stored => ?_
  cases stored with
  | none => exact hinitial
  | some stored =>
    dsimp only
    split
    · exact .bind (.ask rfl) fun _ => quiet_orThrow
    · exact hinitial

theorem quiet_isPasswordLoginConfigured : Uses Quiet (isPasswordLoginConfigured cfg) :=
  .bind quiet_storedHash fun _ => .pure

theorem quiet_failed {message : String} : Uses Quiet (failed message) :=
  .bind (.ask rfl) fun _ => .bind (.ask rfl) fun _ => .pure

theorem quiet_sessionLoginResponse : Uses Quiet sessionLoginResponse :=
  .bind (.ask rfl) fun _ => .pure

theorem quiet_handlePasswordLogin {password : String} :
    Uses Quiet (handlePasswordLogin cfg password) := by
  refine .bind (.ask rfl) fun wait => ?_
  split
  · exact .pure
  refine .bind quiet_isPasswordLoginConfigured fun configured => ?_
  split
  · exact .pure
  refine .bind quiet_verifyDashboardPassword fun ok => ?_
  split
  · exact quiet_failed
  · exact .bind (.ask rfl) fun _ => quiet_sessionLoginResponse

theorem quiet_changePassword {args : ChangeArgs} : Uses Quiet (changePassword cfg args) := by
  refine .bind (.ask rfl) fun wait => ?_
  split
  · exact .pure
  refine .bind quiet_isPasswordLoginConfigured fun configured => ?_
  split
  · exact .pure
  split
  · exact .pure
  refine .bind quiet_verifyDashboardPassword fun ok => ?_
  split
  · exact quiet_failed
  · exact .bind (.ask rfl) fun _ => .bind (.ask rfl) fun _ => .bind quiet_orThrow fun _ =>
      .bind (.ask rfl) fun _ => .bind quiet_orThrow fun _ => .pure

theorem quiet_otpLogin {otp : String} : Uses Quiet (otpLogin cfg otp) := by
  refine .bind (.ask rfl) fun _ => .bind quiet_orThrow fun _ => .bind (.ask rfl) fun resp => ?_
  unfold otpReplied
  split
  · exact .pure
  split
  · exact .pure
  refine .bind quiet_json fun valid => ?_
  split
  · exact .pure
  · exact quiet_sessionLoginResponse

theorem quiet_bodyHandler {Args : Type} {read : Json → Except Json.Error (Checked Args)}
    {act : Args → Handler Response} (h : ∀ args, Uses Quiet (act args)) :
    Uses Quiet (bodyHandler cfg.parse read act req) := by
  unfold bodyHandler
  split
  · exact .pure
  · refine .bind quiet_json fun checked => ?_
    cases checked with
    | refused message => exact .pure
    | accepted args => exact h args

theorem quiet_handleLogin : Uses Quiet (handleLogin cfg req) :=
  quiet_bodyHandler fun credential => by
    cases credential with
    | otp otp => exact quiet_otpLogin
    | password password => exact quiet_handlePasswordLogin

theorem silent_connectionMode : Uses Silent WifiHandlers.connectionMode := by
  refine .bind (.bind (.ask rfl) fun _ => .pure) fun mode => .bind
    (silent_sendAndReceive fun _ => .pure) fun server => .bind ?_ fun _ =>
    silent_json_bind fun failedAt => .bind ?_ fun _ => .pure
  · unfold WifiHandlers.offlineSecs
    split
    · split
      · exact .bind (.ask rfl) fun _ => .pure
      · exact .pure
    · exact .pure
  · unfold WifiHandlers.failedSecsAgo
    split
    · exact .bind (.ask rfl) fun _ => .pure
    · exact .pure

theorem quiet_handleConnectionMode : Uses Quiet (handleConnectionMode req) := by
  refine .bind (quiet_outside silent_connectionMode) fun mode => .bind quiet_json fun name => ?_
  split
  · exact .pure
  · exact .bind quiet_hasValidSession fun _ => .pure

theorem quiet_handleLogout : Uses Quiet (handleLogout req) := by
  unfold handleLogout
  split
  · exact .pure
  · exact .bind (.ask rfl) fun _ => .pure

theorem quiet_publicRoutes : ∀ route ∈ publicRoutes cfg,
    Uses Quiet (route.handler req req.params) := by
  simp only [publicRoutes, List.forall_mem_cons]
  exact ⟨quiet_handleLogin, .bind quiet_hasValidSession fun _ => .pure, quiet_handleLogout,
    quiet_outside .pure, quiet_handleConnectionMode, fun _ h => absurd h List.not_mem_nil⟩

/-! ## All requests -/

/-- Behind the login, a route keeps to the orders of the request. -/
theorem keeps_protectedRoutes {route : Route} {t : List Event}
    (h : lookup (protectedRoutes cfg) req = some route) :
    (orders cfg req).Keeps (route.handler req req.params) (fun _ _ => True) t := by
  obtain ⟨hmem, -, hpath⟩ := lookup_mem h
  rcases List.mem_cons.mp hmem with rfl | hmem
  · exact keeps_quiet (quiet_bodyHandler fun _ => quiet_changePassword)
  rcases List.mem_append.mp hmem with hmem | hmem
  · rcases List.mem_append.mp hmem with hmem | hmem
    · exact keeps_frameRoutes route hmem
    · exact keeps_connectionRoutes route hmem hpath
  · exact keeps_systemRoutes route hmem hpath

/-- The session is valid, or the frame is on its access point and this is its factory reset. -/
def BehindLogin (req : Request) (t : List Event) : Prop :=
  extractSessionId req ≠ "" ∧ ⟨.isValid (extractSessionId req), true⟩ ∈ t ∨
    req.path = "/api/system/factory-reset" ∧
      ∃ file, ⟨.outside .readWifiMode, file⟩ ∈ t ∧ WifiMode.isAp file = .ok true

/-- The gate was opened by a call that found it so. -/
theorem behindLogin_of_guarded {route : Route} {t : List Event}
    (hr : Runs (admission cfg req) t (.ok (.guarded route))) : BehindLogin req t := by
  have hgate := keeps_admission.runs hr
  obtain ⟨t₁, e, t₂, rfl, -, hnext⟩ := (gate req).exists_entry
    (m := (gate req).mode .shut t) rfl (by rcases hgate.2 with h | ⟨h, -⟩ <;> rw [h] <;> nofun)
  obtain ⟨hshut, hknocks⟩ : (gate req).permits ((gate req).mode .shut t₁) e.1 :=
    keeps_admission.calls (Steps.calls hr)
  rw [← hnext, hshut] at hgate
  have hmem : e ∈ t₁ ++ e :: t₂ := List.mem_append_right t₁ List.mem_cons_self
  have hopens : Opens req route e := opens_of_next hknocks hgate.2
  cases hopens with
  | session hid => exact .inl ⟨hid, hmem⟩
  | accessPoint hpath hap => exact .inr ⟨hpath, _, hmem, hap⟩

theorem ordered_of_calls {t : List Event} {op : Op} {args : List String}
    (hop : op.command = some args) (h : Calls (handleRequest cfg req) t op) :
    Ordered cfg req t args ∧ BehindLogin req t := by
  rcases calls_bind.mp h with h | ⟨adm, t₁, t₂, rfl, hr, h⟩
  · cases hop.symm.trans (quiet_admission _ _ h)
  have hgate := keeps_admission.runs hr
  cases adm with
  | open_ route => cases hop.symm.trans (quiet_publicRoutes route (lookup_mem hgate.2).1 _ _ h)
  | guarded route =>
    have hordered := (keeps_protectedRoutes (t := t₁) hgate.1).calls h args hop
    rw [orders, Discipline.mode_tracing] at hordered
    refine ⟨hordered, (behindLogin_of_guarded hr).imp ?_ ?_⟩
    · exact fun ⟨hid, hmem⟩ => ⟨hid, List.mem_append_left t₂ hmem⟩
    · exact fun ⟨hpath, file, hmem, hap⟩ => ⟨hpath, file, List.mem_append_left t₂ hmem, hap⟩
  | denied => exact absurd h calls_pure
  | notFound => exact absurd h calls_pure

/-- In whatever order the requests are served, each runs what its route, its body and the answers
so far order, behind the login. -/
theorem commands_ordered {s : State} {c : Connection} {t₁ t₂ : List Event} {e : Event}
    {args : List String} (hr : (machine cfg).Reachable s) (hc : c ∈ s.connections)
    (hhistory : c.history = t₁ ++ e :: t₂) (hcommand : e.1.command = some args) :
    Ordered cfg c.request t₁ args ∧ BehindLogin c.request t₁ := by
  have hsteps := sound_of_reachable hr c hc
  rw [hhistory] at hsteps
  exact ordered_of_calls hcommand hsteps.calls

/-! ## A network is forgotten -/

def forgetText : String := "\x7b\"ssid\":\"Garten\"\x7d"

def homeBoard : Config where
  parse text :=
    if text = forgetText.toUTF8.toList then some (.obj [("ssid", .str "Garten")]) else none
  decode _ := none
  initialPassword := ""
  verifyOtpUrl := ""
  display := {}
  system := { frameId := "", version := "", appSha := "", diagnostics := ⟨"", ""⟩ }

def forgetRequest : Request where
  method := "POST"
  uri := "/api/connection/forget"
  cookie := some "session=abc"
  body := forgetText.toUTF8.toList

/-- The owner is logged in. -/
def ownerState : State where
  now := 0
  sessions_ id := if id = "abc" then some 1 else none
  wifiMode := none

/-- The frame is connected to another network. -/
def asked : List Event :=
  [⟨.isValid "abc", true⟩,
    ⟨.outside (.run wifiStatus 10), { exitCode := 0, stdOut := "ssid=Haus\nwpa_state=COMPLETED\n" }⟩]

def deleted : Event := ⟨.outside (.run ["shareframe-wifi", "del", "Garten"] 10), { exitCode := 0 }⟩

/-- The calls of the only connection. -/
theorem history_of_run {cfg : Config} {es : List Event} {s s' : State} {c : Connection}
    (hc : s.connections = [c]) (h : (machine cfg).run s (es.map (.answer 0)) = some s') :
    ∃ c', s'.connections = [c'] ∧ c'.request = c.request ∧ c'.history = c.history ++ es := by
  induction es generalizing s c with
  | nil =>
    cases h
    exact ⟨c, hc, rfl, (List.append_nil _).symm⟩
  | cons e es ih =>
    obtain ⟨u, hu, h⟩ := Option.bind_eq_some_iff.mp h
    have hu : step cfg s (.answer 0 e) = some u := hu
    obtain ⟨d, rest, hd, -, hconns⟩ := (answered_of_step hu).connection
    rw [hc] at hd hconns
    cases hd
    obtain ⟨c', hc', hreq, hhistory⟩ := ih hconns h
    exact ⟨c', hc', hreq, by simp [hhistory, Connection.answered]⟩

theorem commands_ordered_forget :
    Ordered homeBoard forgetRequest asked ["shareframe-wifi", "del", "Garten"] ∧
      BehindLogin forgetRequest asked := by
  have hruns : ((machine homeBoard).run ownerState (.request forgetRequest ::
      (asked ++ [deleted]).map (.answer 0))).isSome = true := by decide +kernel
  obtain ⟨s, hrun⟩ := Option.isSome_iff_exists.mp hruns
  obtain ⟨c, hc, hreq, hhistory⟩ := history_of_run rfl hrun
  have hhistory : c.history = asked ++ deleted :: [] := hhistory
  have h := commands_ordered (Transition.Machine.reachable_run _ ⟨rfl, rfl, rfl⟩ hrun)
    (hc ▸ List.mem_cons_self) hhistory rfl
  rwa [hreq] at h

end ShareFrame.Dashboard
