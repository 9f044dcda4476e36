import ShareFrame.Auth.PasswordHash
import ShareFrame.Dashboard.FrameHandlers
import ShareFrame.Dashboard.SystemHandlers

/-!
# The dashboard server

`_handleRequest` looks a request up among the public routes, lets nobody further
without a session, and then looks it up among the protected ones. The login takes a
one-time password that the server confirms, or the password of the frame, behind a
throttle.
-/

namespace ShareFrame.Dashboard

open HTTPClient Interaction

structure Config where
  /-- the JSON parser, `none` where it raises a `parse_error` -/
  parse : Bytes → Option Json
  /-- the Base64 decoder, `none` where it throws -/
  decode : String → Option Bytes
  initialPassword : String
  verifyOtpUrl : String
  display : DisplayConfig
  system : SystemConfig

variable (cfg : Config)

/-! ## Sessions -/

/-- `_extractSessionId` -/
def extractSessionId (req : Request) : String :=
  match req.cookie with
  | none => ""
  | some cookie =>
    match Text.behind "session=".toList cookie.toList with
    | none => ""
    | some rest => String.ofList (rest.takeWhile (· ≠ ';'))

/-- `_hasValidSession` -/
def hasValidSession (req : Request) : Handler Bool :=
  if extractSessionId req = "" then pure false else ask (.isValid (extractSessionId req))

/-- `_sessionLoginResponse` -/
def sessionLoginResponse : Handler Response := do
  let sessionId ← ask .createSession
  pure {
    status := 200
    statusText := "OK"
    setCookie := some ("session=" ++ sessionId ++ "; HttpOnly; SameSite=Lax; Path=/; Max-Age=604800")
    body := envelope 200 "Login erfolgreich" .null }

/-! ## The password -/

def kPasswordHashKey : String := "dashboard_password_hash"

def tooManyRequests : Response := errorResponse 429 "Too Many Requests"
  "Zu viele Fehlversuche. Bitte warte kurz und versuche es erneut."

def notConfigured : Response := errorResponse 403 "Forbidden"
  "Passwort-Anmeldung ist auf diesem Gerät nicht eingerichtet."

def unauthorized (message : String) : Response := errorResponse 401 "Unauthorized" message

def isWellFormed (stored : String) : Bool := PasswordHash.isWellFormed cfg.decode stored

/-- The row of the stored hash. -/
def storedHash : Handler (Option String) := do
  let row ← ask (.getSetting kPasswordHashKey)
  orThrow .database row

/-- `_verifyDashboardPassword`, where no hash is stored. -/
def verifyInitial (password : String) : Handler Bool :=
  if cfg.initialPassword = "" then pure false
  else ask (.constantTimeEquals password cfg.initialPassword)

/-- `_verifyDashboardPassword` -/
def verifyDashboardPassword (password : String) : Handler Bool := do
  match ← storedHash with
  | some stored =>
    if isWellFormed cfg stored then do
      let ok ← ask (.verify password stored)
      orThrow .crypto ok
    -- like an absent row, so that a corrupted value can't brick the login
    else verifyInitial cfg password
  | none => verifyInitial cfg password

/-- `_isPasswordLoginConfigured` -/
def isPasswordLoginConfigured : Handler Bool := do
  let stored ← storedHash
  pure (stored.any (isWellFormed cfg) || cfg.initialPassword ≠ "")

/-- A wrong password, at a flat rate. -/
def failed (message : String) : Handler Response := do
  ask .recordFailure
  ask (.sleepFor 250)
  pure (unauthorized message)

/-- `_handlePasswordLogin`, behind the check of the throttle. -/
def passwordLogin (password : String) : Handler Response := do
  let configured ← isPasswordLoginConfigured cfg
  if !configured then pure notConfigured
  else
    let ok ← verifyDashboardPassword cfg password
    if !ok then failed "Passwort ungültig"
    else do
      ask .recordSuccess
      sessionLoginResponse

/-- `_handlePasswordLogin` -/
def handlePasswordLogin (password : String) : Handler Response := do
  let wait ← ask .retryAfterSecs
  if wait > 0 then pure tooManyRequests else passwordLogin cfg password

structure ChangeArgs where
  current : String
  new : String
  deriving DecidableEq, Repr

def readChange (body : Json) : Except Json.Error (Checked ChangeArgs) := do
  let current ← body.value Json.getString "current_password" ""
  let new ← body.value Json.getString "new_password" ""
  pure (.accepted { current, new })

def storePassword (new : String) : Handler Response := do
  let hash ← ask (.hash new)
  let hash ← orThrow .crypto hash
  let stored ← ask (.setSetting kPasswordHashKey hash)
  let () ← orThrow .database stored
  pure (jsonResponse 200 "OK" (.obj []) "Passwort geändert")

/-- `_handleChangePassword`, behind the check of the throttle. -/
def passwordChange (args : ChangeArgs) : Handler Response := do
  let configured ← isPasswordLoginConfigured cfg
  if !configured then pure notConfigured
  else if !Validation.isValidPassword args.new then
    pure (badRequest "Neues Passwort ungültig (8–63 Zeichen, keine Steuerzeichen)")
  else
    let ok ← verifyDashboardPassword cfg args.current
    if !ok then failed "Aktuelles Passwort ungültig"
    else do
      ask .recordSuccess
      storePassword args.new

def changePassword (args : ChangeArgs) : Handler Response := do
  let wait ← ask .retryAfterSecs
  if wait > 0 then pure tooManyRequests else passwordChange cfg args

def handleChangePassword : Request → Handler Response :=
  bodyHandler cfg.parse readChange (changePassword cfg)

/-! ## The login -/

inductive Credential where
  | otp (otp : String)
  | password (password : String)
  deriving DecidableEq, Repr

/-- `find` and `is_string` work on every document. -/
def readLogin (body : Json) : Except Json.Error (Checked Credential) :=
  match body.find "otp" with
  | some (.str otp) => .ok (.accepted (.otp otp))
  | _ =>
    match body.find "password" with
    | some (.str password) => .ok (.accepted (.password password))
    | _ => .ok (.refused "Missing otp or password field")

/-- The flag in the answer of the server. -/
def otpAnswered (serverResp : Json) : Handler Response := do
  let valid ← json (serverResp.value Json.getBool "valid" false)
  if !valid then pure (unauthorized "OTP invalid") else sessionLoginResponse

def document (resp : HttpResponse) : Option Json := cfg.parse resp.body.toUTF8.toList

/-- Behind the response of the server. -/
def otpReplied (resp : HttpResponse) : Handler Response :=
  if !resp.ok then pure (unauthorized "OTP verification failed")
  else match document cfg resp with
    | none => pure (internalError "Internal error")
    | some serverResp => otpAnswered serverResp

/-- The login with a one-time password. -/
def otpLogin (otp : String) : Handler Response := do
  let headers ← ask .authHeaders
  let token ← orThrow .database headers
  let resp ← ask (.verifyOtp cfg.verifyOtpUrl (.obj [("otp", .str otp)]) token)
  otpReplied cfg resp

def login : Credential → Handler Response
  | .otp otp => otpLogin cfg otp
  | .password password => handlePasswordLogin cfg password

def handleLogin : Request → Handler Response := bodyHandler cfg.parse readLogin (login cfg)

def handleCheckAuth (req : Request) : Handler Response := do
  let authenticated ← hasValidSession req
  pure (jsonResponse 200 "OK" (.obj [("authenticated", .bool authenticated)]))

def handleLogout (req : Request) : Handler Response := do
  if extractSessionId req = "" then pure (jsonResponse 200 "OK")
  else do
    ask (.removeSession (extractSessionId req))
    pure (jsonResponse 200 "OK")

/-- Clients of the access point and a logged-in owner may read its password. -/
def handleConnectionMode (req : Request) : Handler Response := do
  let mode ← outside WifiHandlers.connectionMode
  let name ← json (mode.value Json.getString "mode" "")
  if name = "ap" then pure (jsonResponse 200 "OK" mode)
  else
    let valid ← hasValidSession req
    pure (jsonResponse 200 "OK" (if valid then mode else mode.set "ap_password" (.str "")))

/-! ## Routes -/

structure Route where
  method : String
  path : String
  handler : Request → QueryParams → Handler Response

/-- A route whose handler only reads the request's body. -/
def Route.ofBody (method path : String) (handler : Request → Handler Response) : Route :=
  ⟨method, path, fun req _ => handler req⟩

/-- A route whose handler does not look at the request. -/
def Route.plain (method path : String) (handler : Service Response) : Route :=
  ⟨method, path, fun _ _ => outside handler⟩

def publicRoutes : List Route := [
  .ofBody "POST" "/api/auth/login" (handleLogin cfg),
  .ofBody "GET" "/api/auth/status" handleCheckAuth,
  .ofBody "POST" "/api/auth/logout" handleLogout,
  .plain "GET" "/api/system/health" SystemHandlers.handleHealth,
  .ofBody "GET" "/api/connection/mode" handleConnectionMode]

def frameRoutes : List Route := [
  .plain "GET" "/api/frame/slideshow/status" (FrameHandlers.handleStatus cfg.display),
  .ofBody "POST" "/api/frame/slideshow" fun req => outside (FrameHandlers.handleControl cfg.parse req),
  .ofBody "POST" "/api/frame/slideshow/interval" fun req =>
    outside (FrameHandlers.handleUpdateInterval cfg.parse req),
  .ofBody "POST" "/api/frame/slideshow/night-mode" fun req =>
    outside (FrameHandlers.handleUpdateNightMode cfg.parse req),
  .plain "POST" "/api/frame/slideshow/skip" FrameHandlers.handleSkip,
  .ofBody "POST" "/api/frame/slideshow/show" fun req =>
    outside (FrameHandlers.handleShow cfg.parse req),
  .plain "POST" "/api/frame/clear" FrameHandlers.handleClear,
  .plain "GET" "/api/frame/display/stats" FrameHandlers.handleDisplayStats,
  .plain "GET" "/api/frame/display/customization" FrameHandlers.handleCustomization,
  .ofBody "POST" "/api/frame/display/customization" fun req =>
    outside (FrameHandlers.handleUpdateCustomization cfg.parse req),
  .ofBody "POST" "/api/frame/slideshow/order" fun req =>
    outside (SlideshowImageHandlers.handleUpdateOrder cfg.parse req),
  .plain "GET" "/api/frame/slideshow/images" SlideshowImageHandlers.handleList,
  ⟨"GET", "/api/frame/images/file", fun _ qp => outside (SlideshowImageHandlers.handleFile qp)⟩]

def connectionRoutes : List Route := [
  .plain "GET" "/api/connection/status" WifiHandlers.handleStatus,
  .plain "GET" "/api/connection/saved-networks" WifiHandlers.handleSavedNetworks,
  .ofBody "POST" "/api/connection/connect" fun req => outside (WifiHandlers.handleConnect cfg.parse req),
  .ofBody "POST" "/api/connection/forget" fun req => outside (WifiHandlers.handleForget cfg.parse req),
  .plain "POST" "/api/connection/apply" WifiHandlers.handleApply,
  .ofBody "POST" "/api/connection/ap-password" fun req =>
    outside (WifiHandlers.handleSetApPassword cfg.parse req)]

def systemRoutes : List Route := [
  .plain "GET" "/api/system/info" (SystemHandlers.handleInfo cfg.system),
  .plain "GET" "/api/system/check-internet" SystemHandlers.handleCheckInternet,
  .plain "POST" "/api/system/restart" SystemHandlers.handleRestart,
  .plain "POST" "/api/system/shutdown" SystemHandlers.handleShutdown,
  .plain "POST" "/api/system/factory-reset" SystemHandlers.handleFactoryReset,
  ⟨"GET", "/api/system/logs", fun _ qp => outside (SystemHandlers.handleLogs cfg.system qp)⟩,
  .plain "POST" "/api/system/diagnostics" (SystemHandlers.handleSendDiagnostics cfg.system),
  .plain "GET" "/api/system/updates/latest" UpdateHandlers.handleLatest,
  .plain "POST" "/api/system/updates/perform-update" UpdateHandlers.handlePerformUpdate,
  .plain "GET" "/api/system/updates/status" UpdateHandlers.handleStatus,
  .plain "GET" "/api/system/updates/history" UpdateHandlers.handleHistory,
  .plain "GET" "/api/services" ServiceHandlers.handleList,
  .ofBody "POST" "/api/services/restart" fun req =>
    outside (ServiceHandlers.handleRestart cfg.parse req)]

def protectedRoutes : List Route :=
  .ofBody "POST" "/api/auth/change-password" (handleChangePassword cfg) ::
    (frameRoutes cfg ++ connectionRoutes cfg ++ systemRoutes cfg)

/-- The path of the request. -/
def Request.path (req : Request) : String := (parseUri req.uri).1

def Request.params (req : Request) : QueryParams := (parseUri req.uri).2

/-- The first route with the method and the path of the request. -/
def lookup (routes : List Route) (req : Request) : Option Route :=
  routes.find? fun route => req.method = route.method && req.path = route.path

/-! ## `_handleRequest` -/

/-- What becomes of a request. -/
inductive Admission where
  | open_ (route : Route)
  | guarded (route : Route)
  | denied
  | notFound

/-- On the access point, the factory reset is the way out of a forgotten password. -/
def apBypass (req : Request) : Handler Bool :=
  if req.path = "/api/system/factory-reset" then outside WifiManager.isApMode else pure false

/-- Behind the login. -/
def admitted (req : Request) : Admission :=
  match lookup (protectedRoutes cfg) req with
  | some route => .guarded route
  | none => .notFound

def admission (req : Request) : Handler Admission :=
  match lookup (publicRoutes cfg) req with
  | some route => pure (.open_ route)
  | none => do
    let bypass ← apBypass req
    if bypass then pure (admitted cfg req)
    else
      let valid ← hasValidSession req
      pure (if valid then admitted cfg req else .denied)

def authenticationRequired : Response := unauthorized "Authentication required"

def notFound : Response := errorResponse 404 "Not Found" "Not found"

def dispatch (req : Request) : Admission → Handler Response
  | .open_ route | .guarded route => route.handler req req.params
  | .denied => pure authenticationRequired
  | .notFound => pure notFound

/-- `_handleRequest` -/
def handleRequest (req : Request) : Handler Response := do
  let result ← admission cfg req
  dispatch req result

end ShareFrame.Dashboard
