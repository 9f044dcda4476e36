import ShareFrame.Dashboard.Validation

/-!
# Wi-Fi

`WifiManager` runs the board's commands, `WifiHandlers` answers the requests about
them. The mode of the connection comes from a file of wifi-mode-manager, and counts
as `connecting` where that is missing or not an object.
-/

namespace ShareFrame.Dashboard

open HTTPClient Interaction Service

namespace WifiMode

def unknown : Json :=
  .obj [("mode", .str "connecting"), ("ssid", .str ""), ("internet", .bool false),
    ("known_ssids", .arr []), ("ap_ssid", .str ""), ("ap_password", .str "")]

/-- `WifiMode::read`, by what the file holds. -/
def read (file : Option Json) : Json :=
  match file with
  | some (.obj members) => .obj members
  | _ => unknown

/-- Whether the frame hosts its access point; a mode that is not a string throws. -/
def isAp (file : Option Json) : Except Json.Error Bool := do
  let mode ← (read file).value Json.getString "mode" ""
  pure (mode = "ap")

def kProtectedNetworks : List String := ["preconfigured", "Jomi"]

def lower (s : String) : List Char := s.toList.map Char.toLower

def isProtectedNetwork (ssid : String) : Bool := kProtectedNetworks.any fun p => lower p = lower ssid

end WifiMode

namespace WifiManager

def protectedAlias_ : String := "VOREINGESTELLT"

def aliasIfProtected (name : String) : String :=
  if WifiMode.isProtectedNetwork name then protectedAlias_ else name

def error (message : String) : Json := .obj [("error", .str message)]

def done (message : String) : Json := .obj [("message", .str message)]

/-- The network and whether the association is complete, from the lines of `wpa_cli status`. -/
def parseStatus : List String → String × Bool → String × Bool
  | [], status => status
  | line :: rest, (ssid, completed) =>
    parseStatus rest <|
      match Text.withoutPrefix "ssid=" line with
      | some name => (name, completed)
      | none =>
        match Text.withoutPrefix "wpa_state=" line with
        | some state => (ssid, state = "COMPLETED")
        | none => (ssid, completed)

/-- The connection, or the message of an error. -/
def currentConnection (result : RemoteCommand.SubprocessResult) : Json :=
  if result.exitCode ≠ 0 then error "Failed to query connection"
  else
    let (ssid, completed) := parseStatus (Text.lines result.stdOut) ("", false)
    if !completed ∨ ssid = "" then .obj [("connection_name", .str ""), ("is_protected", .bool false)]
    else .obj [("connection_name", .str (aliasIfProtected ssid)),
      ("is_protected", .bool (WifiMode.isProtectedNetwork ssid))]

def getCurrentConnection : Service Json := do
  let result ← run ["shareframe-wifi", "status"] 10
  pure (currentConnection result)

/-- The second of the columns that tabulators separate. -/
def savedSsid (line : String) : Option String := do
  let (_, columns) ← Text.cut '\t' line
  let ssid := match Text.cut '\t' columns with
    | some (ssid, _) => ssid
    | none => columns
  if ssid = "" ∨ WifiMode.isProtectedNetwork ssid then none else some ssid

def getSavedNetworks : Service Json := do
  let result ← run ["shareframe-wifi", "list"] 10
  -- the first line names the columns
  pure (if result.exitCode ≠ 0 then error "Failed to query saved networks"
    else .obj [("networks",
      .arr (((Text.lines result.stdOut).drop 1).filterMap savedSsid |>.map .str))])

def connect (ssid password : String) : Service Json := do
  if WifiMode.isProtectedNetwork ssid then pure (error "Cannot modify protected network")
  else
    let result ← run ["shareframe-wifi", "add", ssid, password] 20
    pure (if result.exitCode ≠ 0 then error "Failed to add WiFi network" else done ("Saved " ++ ssid))

def getWifiMode : Service Json := do
  let file ← call .readWifiMode
  pure (WifiMode.read file)

def isApMode : Service Bool := do
  let file ← call .readWifiMode
  json (WifiMode.isAp file)

def requestConnect : Service Json := do
  let created ← call .requestRetry
  pure (if created then done "Connecting" else error "Failed to request a connection")

/-- The commands of `forget`, once it is known which network is in use. -/
def delete (ssid : String) (current : Json) : Service Json := do
  let name ← json (current.value Json.getString "connection_name" "")
  if name = ssid then pure (error "Cannot delete active connection")
  else
    let result ← run ["shareframe-wifi", "del", ssid] 10
    pure (if result.exitCode ≠ 0 then error "Failed to delete network" else done "Connection deleted")

def forget (ssid : String) : Service Json := do
  if WifiMode.isProtectedNetwork ssid then pure (error "Cannot delete protected network")
  else
    let current ← getCurrentConnection
    delete ssid current

def setApPassword (password : String) : Service Json := do
  let result ← run ["shareframe-ap", "setpass", password] 20
  pure (if result.exitCode ≠ 0 then error "Failed to set AP password" else done "AP-Passwort geändert")

end WifiManager

namespace WifiHandlers

/-- The response for what the Wi-Fi manager answers. -/
def wifiResult (result : Json) : Except Json.Error Response :=
  match result.find "error" with
  | some error => do
    let message ← error.getString
    pure (internalError message)
  | none => pure (jsonResponse 200 "OK" result)

/-- A request to the Wi-Fi manager, answered by its result. -/
def answer (result : Service Json) : Service Response := do
  let result ← result
  json (wifiResult result)

/-- The result holds what a command wrote. -/
def answerOutput (result : Service Json) : Service Response := do
  let resp ← answer result
  dumped resp

def handleStatus : Service Response := answerOutput WifiManager.getCurrentConnection

structure ServerConnection where
  connected : Bool
  since : Int
  lastContactAt : Int
  deriving DecidableEq, Repr

def readServerConnection (j : Json) : Except Json.Error ServerConnection := do
  let member ← j.at_ "connected"
  let connected ← member.getBool
  let since ← j.value Json.getInt64 "since" 0
  let lastContactAt ← j.value Json.getInt64 "last_contact_at" 0
  pure { connected, since, lastContactAt }

/-- What it throws is caught. -/
def serverConnectionFromJson (j : Json) : Option ServerConnection :=
  match readServerConnection j with
  | .ok connection => some connection
  | .error _ => none

def queryServerConnection : Service (Option ServerConnection) := do
  let resp ← sendAndReceive .websocket .getServerConnection
  pure (resp.bind serverConnectionFromJson)

/-- The clock is only read for a connection that was lost. -/
def offlineSecs (server : Option ServerConnection) : Service Int := do
  match server with
  | some { connected := false, since, .. } =>
    if since > 0 then do
      let now ← call .time
      pure (max 0 (now - since))
    else pure 0
  | _ => pure 0

def failedSecsAgo (failedAt : Int) : Service Json := do
  if failedAt > 0 then do
    let now ← call .time
    pure (.int (max 0 (now - failedAt)))
  else pure .null

def connectionMode : Service Json := do
  let mode ← WifiManager.getWifiMode
  let server ← queryServerConnection
  let offline ← offlineSecs server
  let failedAt ← json (mode.value Json.getInt64 "last_failed_at" 0)
  let failedAgo ← failedSecsAgo failedAt
  pure (((((((mode.erase "known_ssids").set "server_connected"
    (match server with
      | some server => .bool server.connected
      | none => .null)).set "server_offline_secs" (.int offline)).set "server_last_contact_at"
    (.int (match server with
      | some server => server.lastContactAt
      | none => 0))).erase "last_failed_at").set "last_failed_secs_ago" failedAgo))

def handleSavedNetworks : Service Response := answerOutput WifiManager.getSavedNetworks

variable (parse : Bytes → Option Json)

structure ConnectArgs where
  ssid : String
  password : String
  deriving DecidableEq, Repr

def checkConnect (args : ConnectArgs) : Checked ConnectArgs :=
  if !Validation.isValidSsid args.ssid then
    .refused "Invalid SSID (max 32 bytes, no control chars)"
  else if !Validation.isValidPassword args.password then
    .refused "Invalid password (8-63 chars, no control chars)"
  else .accepted args

def readConnect (body : Json) : Except Json.Error (Checked ConnectArgs) := do
  let ssid ← body.value Json.getString "ssid" ""
  let password ← body.value Json.getString "password" ""
  pure (checkConnect { ssid, password })

def handleConnect : Request → Service Response := bodyHandler parse readConnect fun args =>
  answer (WifiManager.connect args.ssid args.password)

def readForget (body : Json) : Except Json.Error (Checked String) := do
  let ssid ← body.value Json.getString "ssid" ""
  pure (require (Validation.isValidNetworkName ssid) "Invalid network name" ssid)

def handleForget : Request → Service Response := bodyHandler parse readForget fun ssid =>
  answer (WifiManager.forget ssid)

def handleApply : Service Response := do
  let ap ← WifiManager.isApMode
  if !ap then pure (errorResponse 409 "Conflict" "Not in access point mode")
  else answer WifiManager.requestConnect

def readApPassword (body : Json) : Except Json.Error (Checked String) := do
  let password ← body.value Json.getString "password" ""
  pure (require (Validation.isValidWpaPassphrase password)
    "Ungültiges AP-Passwort (8–63 ASCII-Zeichen)" password)

def handleSetApPassword : Request → Service Response := bodyHandler parse readApPassword fun password =>
  answer (WifiManager.setApPassword password)

end WifiHandlers

end ShareFrame.Dashboard
