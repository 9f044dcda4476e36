import ShareFrame.Lib.Discipline
import ShareFrame.Net.DiagnosticsUploader
import ShareFrame.Repository.Image
import ShareFrame.Util.Text

/-!
# What the dashboard asks of the rest of the frame

A request is handled by a program over the operations below; any answer to a call
is possible. Most handlers only need the services, commands and files of the frame
(`Outside`, programs of type `Service`). The routes of the login also use the
session store, the throttle and the stored password (`Op`, programs of type
`Handler`).
-/

namespace ShareFrame.Dashboard

open HTTPClient Interaction
open RemoteCommand (SubprocessResult)

/-- The services behind an `IpcClient`. -/
inductive Peer where
  | display
  | websocket
  | heartbeat
  | update
  deriving DecidableEq, Repr

/-- The output of `s6-svstat`, as `parseSvstat` reads it. -/
structure Svstat where
  status : String := "unknown"
  uptimeSeconds : Option Int := none
  pid : Option Int := none
  deriving DecidableEq, Repr

inductive Outside where
  /-- `IpcClient::sendAndReceive` -/
  | sendAndReceive (peer : Peer) (msg : IpcMessage)
  /-- `IpcClient::send` -/
  | send (peer : Peer) (msg : IpcMessage)
  /-- `Subprocess::run` -/
  | run (args : List String) (timeoutSecs : Nat)
  /-- the file in which wifi-mode-manager publishes the mode -/
  | readWifiMode
  /-- the flag file that makes wifi-mode-manager leave the access point -/
  | requestRetry
  | time
  /-- `shareframe-sysinfo`: its lines `key=value`, each value as a typed scalar -/
  | sysinfo
  | svstat (id : String)
  | getAll
  | getByIds (ids : List Int)
  | imageSize (path : String)
  | fileSize (path : String)
  | readFile (path : String)
  /-- the calls of the diagnostics uploader -/
  | diagnostics (op : RemoteCommand.Op)
  deriving DecidableEq, Repr

/-- The answers. A mode file that is missing or not JSON is `none`. -/
abbrev OutsideAns : Outside → Type
  | .sendAndReceive _ _ => Option Json
  | .send _ _ => Bool
  | .run _ _ => SubprocessResult
  | .readWifiMode => Option Json
  | .requestRetry => Bool
  | .time => Int
  | .sysinfo => Option (List (String × Json))
  | .svstat _ => Svstat
  | .getAll | .getByIds _ => Option (List Image)
  | .imageSize _ => Nat × Nat
  | .fileSize _ => Option Nat
  | .readFile _ => Option Bytes
  | .diagnostics op => RemoteCommand.Ans op

inductive Op where
  | outside (op : Outside)
  /-- `SessionManager` -/
  | createSession
  | isValid (sessionId : String)
  | removeSession (sessionId : String)
  /-- `LoginThrottle` -/
  | retryAfterSecs
  | recordFailure
  | recordSuccess
  /-- `SettingsRepository` -/
  | getSetting (key : String)
  | setSetting (key value : String)
  /-- `PasswordHash` -/
  | verify (password stored : String)
  | constantTimeEquals (a b : String)
  | hash (password : String)
  /-- `TokenAuth::buildTokenAuthHeaders` -/
  | authHeaders
  | verifyOtp (url : String) (payload : Json) (token : Option String)
  | sleepFor (millis : Nat)
  deriving DecidableEq, Repr

/-- The answers. Where a database or the crypto library throws, there is `none`. -/
abbrev Ans : Op → Type
  | .outside op => OutsideAns op
  | .createSession => String
  | .isValid _ => Bool
  | .removeSession _ => Unit
  | .retryAfterSecs => Nat
  | .recordFailure | .recordSuccess => Unit
  | .getSetting _ => Option (Option String)
  | .setSetting _ _ => Option Unit
  | .verify _ _ => Option Bool
  | .constantTimeEquals _ _ => Bool
  | .hash _ => Option String
  | .authHeaders => Option (Option String)
  | .verifyOtp _ _ _ => HttpResponse
  | .sleepFor _ => Unit

abbrev Event := Interaction.Event Ans

/-- What leaves a handler. -/
inductive Error where
  | json (error : Json.Error)
  | database
  | crypto
  | filesystem
  deriving DecidableEq, Repr

abbrev Service := Prog OutsideAns Error

abbrev Handler := Prog Ans Error

def outside {α : Type} (p : Service α) : Handler α := Prog.embed Op.outside id p

/-- A read of a document. -/
def json {Op : Type} {Ans : Op → Type} {α : Type} (x : Except Json.Error α) : Prog Ans Error α :=
  Prog.lift (x.mapError .json)

/-- A call that throws where it answers `none`. -/
def orThrow {Op : Type} {Ans : Op → Type} {α : Type} (e : Error) : Option α → Prog Ans Error α
  | some a => .pure a
  | none => .throw e

namespace Service

def call (op : Outside) : Service (OutsideAns op) := Prog.ask op

def sendAndReceive (peer : Peer) (type : IpcMessageType) (data : Json := .null) :
    Service (Option Json) := call (.sendAndReceive peer { type, data })

def send (peer : Peer) (type : IpcMessageType) (data : Json := .null) : Service Bool :=
  call (.send peer { type, data })

def run (args : List String) (timeoutSecs : Nat) : Service SubprocessResult :=
  call (.run args timeoutSecs)

/-- What the diagnostics uploader throws, as it leaves the dashboard. -/
def ofRemote : RemoteCommand.Error → Error
  | .json e => .json e
  | .database => .database
  | .filesystem => .filesystem

/-- A call of the diagnostics uploader. -/
def diagnostics {α : Type} (p : RemoteCommand.Remote α) : Service α :=
  Prog.embed Outside.diagnostics ofRemote p

end Service

def ask (op : Op) : Handler (Ans op) := Prog.ask op

/-! ## Requests and responses -/

structure Request where
  method : String
  uri : String
  /-- the cookie header -/
  cookie : Option String := none
  body : Bytes := []
  deriving DecidableEq, Repr

inductive Content where
  | json (body : Json)
  | binary (contentType : String) (bytes : Bytes) (cacheControl : String)
  deriving DecidableEq, Repr

def Content.isUtf8 : Content → Bool
  | .json body => body.isUtf8
  | .binary _ _ _ => true

structure Response where
  status : Nat
  statusText : String
  setCookie : Option String := none
  body : Content
  deriving DecidableEq, Repr

/-- The envelope of every response: success is derived from the status. -/
def envelope (status : Nat) (message : String) (data : Json) : Content :=
  .json (.obj [("success", .bool (200 ≤ status && status < 300)), ("message", .str message),
    ("data", data)])

def jsonResponse (status : Nat) (statusText : String) (data : Json := .obj [])
    (message : String := "") : Response :=
  { status, statusText, body := envelope status message data }

def errorResponse (status : Nat) (statusText message : String) : Response :=
  { status, statusText, body := envelope status message .null }

def binaryResponse (contentType : String) (bytes : Bytes) (cacheControl : String) : Response :=
  { status := 200, statusText := "OK", body := .binary contentType bytes cacheControl }

/-- A response that says what a program wrote: `dump` throws where that is not UTF-8. The texts of the
others are constants or come from a parser. -/
def dumped (resp : Response) : Service Response :=
  if resp.body.isUtf8 then .pure resp else .throw (.json .typeError)

def badRequest (message : String) : Response := errorResponse 400 "Bad Request" message

def internalError (message : String) : Response := errorResponse 500 "Internal Server Error" message

/-! ## `HttpUtil::parseUri` -/

abbrev QueryParams := List (String × String)

/-- One `key=value` of a query. -/
def queryParam (pair : String) : Option (String × String) :=
  match Text.cut '=' pair with
  | some param => some param
  | none => if pair = "" then none else some (pair, "")

/-- The path, and the parameters with the last of a name first. -/
def parseUri (uri : String) : String × QueryParams :=
  match Text.cut '?' uri with
  | none => (uri, [])
  | some (path, query) => (path, ((Text.split '&' query).filterMap queryParam).reverse)

example : parseUri "/api/logs?service_name=foo&lines=100" =
    ("/api/logs", [("lines", "100"), ("service_name", "foo")]) := by decide +kernel

end ShareFrame.Dashboard
