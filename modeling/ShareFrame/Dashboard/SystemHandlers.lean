import ShareFrame.Dashboard.WifiHandlers

/-!
# The system, its updates and its services

`SystemHandlers`, `UpdateHandlers` and `ServiceHandlers`: commands of the board,
the update service, and the supervisor of the services.
-/

namespace ShareFrame.Dashboard

open HTTPClient Interaction Service

/-- What the configuration says about the board and its logs. -/
structure SystemConfig where
  frameId : String
  version : String
  appSha : String
  diagnostics : DiagnosticsUploader.Config
  logPath : String := "logs"
  dashboardLogFile : String := "shareframe-dashboard.log"
  websocketLogFile : String := "shareframe-websocket.log"
  displayLogFile : String := "shareframe-display.log"
  heartbeatLogFile : String := "shareframe-heartbeat.log"
  updateLogFile : String := "shareframe-update.log"
  systemLogPath : String := "/var/log/messages"
  eventLogPath : String := "/data/shareframe/health.log"
  deriving DecidableEq, Repr

namespace SystemHandlers

variable (cfg : SystemConfig)

def handleHealth : Service Response := do
  pure (jsonResponse 200 "OK" (.obj [("running", .bool true)]))

/-- The lines of the board, behind what the frame knows about itself. -/
def sysinfo (lines : List (String × Json)) : Json :=
  lines.foldl (fun data line => Json.set data line.1 line.2)
    (.obj [("serial_number", .str cfg.frameId), ("version", .str cfg.version)])

def handleInfo : Service Response := do
  let lines ← call .sysinfo
  let data := sysinfo cfg (lines.getD [])
  let wifi ← WifiManager.getCurrentConnection
  let ssid ← json (wifi.value Json.getString "connection_name" "")
  dumped (jsonResponse 200 "OK" ((data.set "app_sha" (.str cfg.appSha)).set "wlan_ssid" (.str ssid)))

def handleCheckInternet : Service Response := do
  let result ← run ["ping", "-c", "2", "-w", "3", "1.1.1.1"] 10
  dumped (jsonResponse 200 "OK" (.obj [("connected", .bool (result.exitCode = 0)),
    ("output", .str result.stdOut)]))

/-- `_runWithStatusScreen` -/
def runWithStatusScreen (screen : String) (command : List String) : Service Bool := do
  let _ ← send .display .showStatusScreen (.obj [("screen", .str screen)])
  let result ← run command 5
  if result.exitCode = 0 then pure true
  else do
    let _ ← send .display .hideStatusScreen
    pure false

def handleRestart : Service Response := do
  let ok ← runWithStatusScreen "reboot" ["reboot"]
  pure (if ok then jsonResponse 200 "OK" (.obj []) "Rebooting..." else internalError "Reboot failed")

def handleShutdown : Service Response := do
  let result ← run ["shutdown"] 5
  pure (if result.exitCode ≠ 0 then internalError "Shutdown failed"
    else jsonResponse 200 "OK" (.obj []) "Shutting down...")

def handleFactoryReset : Service Response := do
  let ok ← runWithStatusScreen "factory_reset" ["shareframe-factory-reset", "--yes"]
  pure (if ok then jsonResponse 200 "OK" (.obj []) "Resetting to factory defaults..."
    else internalError "Factory reset failed")

def handleSendDiagnostics : Service Response := do
  let result ← diagnostics (DiagnosticsUploader.collectAndUpload cfg.diagnostics "owner" none)
  dumped (if result.ok then jsonResponse 200 "OK" (.obj []) "Diagnostics sent"
    else errorResponse 502 "Bad Gateway" result.error)

def allowedServiceNames_ : List String :=
  ["websocket", "display", "dashboard", "heartbeat", "update", "system", "events"]

/-- The log of a service. -/
def logFile (service : String) : String :=
  if service = "dashboard" then cfg.logPath ++ "/" ++ cfg.dashboardLogFile
  else if service = "websocket" then cfg.logPath ++ "/" ++ cfg.websocketLogFile
  else if service = "display" then cfg.logPath ++ "/" ++ cfg.displayLogFile
  else if service = "heartbeat" then cfg.logPath ++ "/" ++ cfg.heartbeatLogFile
  else if service = "update" then cfg.logPath ++ "/" ++ cfg.updateLogFile
  else if service = "system" then cfg.systemLogPath
  else if service = "events" then cfg.eventLogPath
  else ""

def requestedLines (qp : QueryParams) : Int :=
  Validation.clampLogLines <|
    match (qp.lookup "lines").bind (Text.integer 32) with
    | some (lines, _) => lines
    | none => Validation.DEFAULT_LOG_LINES

def handleLogs (qp : QueryParams) : Service Response := do
  let service := (qp.lookup "service_name").getD ""
  if !Validation.isAllowedServiceName service allowedServiceNames_ then
    pure (badRequest "Invalid or unknown service_name")
  else
    let lines := requestedLines qp
    let result ← run ["tail", "-n", toString lines, logFile cfg service] 10
    dumped (if result.exitCode ≠ 0 then internalError "Failed to retrieve logs"
      else jsonResponse 200 "OK" (.obj [("service_name", .str service), ("lines", .int lines),
        ("logs", .str result.stdOut)]))

end SystemHandlers

namespace UpdateHandlers

def unreachable : Response := errorResponse 503 "Service Unavailable" "Update service not reachable"

/-- A member of a reply that is not constant: a missing one is null. -/
def member (reply : Json) (key : String) : Json := (reply.find key).getD .null

def latestAnswered (resp : Json) : Except Json.Error Response := do
  let ok ← resp.value Json.getBool "ok" false
  if ok then pure (jsonResponse 200 "OK" (member resp "release"))
  else
    let code ← resp.value Json.getInt "status_code" 0
    if code = 404 then pure (jsonResponse 200 "OK" .null)
    else
      let _ ← resp.value Json.getString "error" ""
      pure (errorResponse 502 "Bad Gateway" "Failed to check for updates")

def handleLatest : Service Response := do
  match ← sendAndReceive .update .updateCheckLatest with
  | none => pure unreachable
  | some resp => json (latestAnswered resp)

def performAnswered (resp : Json) : Except Json.Error Response := do
  let ok ← resp.value Json.getBool "ok" false
  if ok then pure (jsonResponse 200 "OK" (.obj []) "Update started")
  else
    let error ← resp.value Json.getString "error" "Update not started"
    pure (errorResponse 409 "Conflict" error)

def handlePerformUpdate : Service Response := do
  match ← sendAndReceive .update .updatePerform with
  | none => pure unreachable
  | some resp => json (performAnswered resp)

/-- Status and history: the member of the reply, once the service is well. -/
def reported (type : IpcMessageType) (data : Json → Json) : Service Response := do
  match ← sendAndReceive .update type with
  | none => pure unreachable
  | some resp =>
    let ok ← json (resp.value Json.getBool "ok" false)
    pure (if ok then jsonResponse 200 "OK" (data resp) else unreachable)

def handleStatus : Service Response := reported .updateStatus (member · "status")

def handleHistory : Service Response :=
  reported .updateHistory fun resp => .obj [("history", member resp "history")]

end UpdateHandlers

namespace ServiceHandlers

structure ServiceDesc where
  id : String
  label : String
  deriving DecidableEq, Repr

def kServices : List ServiceDesc :=
  [⟨"display", "Display"⟩, ⟨"websocket", "WebSocket"⟩, ⟨"dashboard", "Dashboard"⟩,
    ⟨"heartbeat", "Heartbeat"⟩, ⟨"update", "Updates"⟩]

def isAllowedId (id : String) : Bool := kServices.any (·.id = id)

/-- `health::isRunning` -/
def isRunning (peer : Peer) : Service Bool := do
  match ← sendAndReceive peer .getHealth with
  | none => pure false
  | some resp => json (resp.value Json.getBool "running" false)

/-- The dashboard serves this request. -/
def running (id : String) : Service Bool :=
  if id = "dashboard" then pure true
  else if id = "display" then isRunning .display
  else if id = "websocket" then isRunning .websocket
  else if id = "update" then isRunning .update
  else isRunning .heartbeat

def orNull (n : Option Int) : Json :=
  match n with
  | some n => .int n
  | none => .null

def entries : List ServiceDesc → Service (List Json)
  | [] => pure []
  | s :: rest => do
    let isUp ← running s.id
    let svstat ← call (.svstat s.id)
    let more ← entries rest
    pure (.obj [("id", .str s.id), ("label", .str s.label), ("running", .bool isUp),
      ("status", .str svstat.status), ("uptime_seconds", orNull svstat.uptimeSeconds),
      ("pid", orNull svstat.pid)] :: more)

def handleList : Service Response := do
  let services ← entries kServices
  pure (jsonResponse 200 "OK" (.obj [("services", .arr services)]))

def readRestart (body : Json) : Except Json.Error (Checked String) := do
  let id ← body.value Json.getString "service" ""
  pure (require (isAllowedId id) "Invalid or unknown service" id)

def restart (id : String) : Service Response := do
  let r ← run ["s6-svc", "-r", "/run/service/shareframe-" ++ id] 5
  pure (if r.exitCode ≠ 0 then internalError "Failed to restart service"
    else jsonResponse 200 "OK" (.obj [("service", .str id)]) "Dienst wird neu gestartet")

def handleRestart (parse : Bytes → Option Json) : Request → Service Response :=
  bodyHandler parse readRestart restart

end ServiceHandlers

end ShareFrame.Dashboard
