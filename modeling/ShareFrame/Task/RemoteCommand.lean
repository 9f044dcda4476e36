import ShareFrame.Net.DiagnosticsUploader
import ShareFrame.Net.WsProtocol

/-!
# Remote commands

`RemoteCommand` takes the commands that the server sent from a queue, one after
another, and `_handle` runs each: it reads the fields, goes through the gates, and
rejects the command at the first that refuses; behind the gates it accepts and
acts. Every result goes back as a `command_result`.
-/

namespace ShareFrame.RemoteCommand

open Interaction DiagnosticsUploader

def kServices : List String := ["display", "websocket", "dashboard", "heartbeat", "update"]

def isKnownService (s : String) : Bool := kServices.contains s

def isRebootClass (command : String) : Bool :=
  command = "reboot" || command = "update_install" || command = "factory_reset" ||
    command = "shutdown"

def isSafeMode (command : String) : Bool :=
  command = "enter_safe_mode" || command = "exit_safe_mode"

/-- Without the line ends at its end. -/
def trimmed (s : String) : String :=
  String.ofList (s.toList.reverse.dropWhile fun c => c = '\n' || c = '\r').reverse

/-- In milliseconds. -/
structure Timing where
  refreshWait : Nat := 90000
  refreshPoll : Nat := 2000
  settle : Nat := 2000
  deriving DecidableEq, Repr

/-- The fields of a message. -/
structure Command where
  id : Int
  command : String
  arg : String
  expiresAt : Int
  deriving DecidableEq, Repr

def readCommand (msg : Json) : Except Json.Error Command := do
  let id ← msg.value Json.getInt64 "id" 0
  let command ← msg.value Json.getString "command" ""
  let arg ← msg.value Json.getString "arg" ""
  let expiresAt ← msg.value Json.getInt64 "expires_at" 0
  pure { id, command, arg, expiresAt }

structure Gate where
  ok : Bool := true
  reason : String := ""
  deriving DecidableEq, Repr

def refused (reason : String) : Gate := { ok := false, reason }

/-! ## Results -/

def commandResult (id : Int) (status reason : String) : Json :=
  .obj [("type", .str (wsMessageTypeToString .commandResult)), ("id", .int id), ("status", .str status),
    ("reason", .str reason), ("result", .null)]

def reply (id : Int) (status reason : String) : Remote Unit :=
  publish (commandResult id status reason)

/-- The line that goes to the log of the board. -/
def eventLine (c : Command) (text : String) : String :=
  "#" ++ toString c.id ++ " " ++ c.command ++ (if c.arg = "" then "" else " " ++ c.arg) ++ " " ++ text

def event (c : Command) (text : String) : Remote Unit := do
  let _ ← run ["shareframe-event", "remote", eventLine c text] 5

def reject (c : Command) (reason : String) : Remote Unit := do
  event c ("rejected (" ++ reason ++ ")")
  reply c.id "rejected" reason

/-! ## Gates -/

/-- The second gate is only tried behind the first. -/
def andThen (first second : Remote Gate) : Remote Gate := do
  let gate ← first
  if gate.ok then second else pure gate

/-- A gate that not every command goes through. -/
def onlyIf (condition : Bool) (gate : Remote Gate) : Remote Gate :=
  if condition then gate else pure {}

def wellFormed (c : Command) : Gate :=
  let known := c.command = "request_diagnostics" || c.command = "restart_service" ||
    isRebootClass c.command || isSafeMode c.command
  if c.id ≤ 0 ∨ known = false then refused "unknown command"
  else if (if c.command = "restart_service" then !isKnownService c.arg else c.arg ≠ "") then
    refused "invalid argument"
  else {}

def notExpired (c : Command) : Remote Gate := do
  let now ← ask .systemNow
  pure (if now > c.expiresAt then refused "expired" else {})

/-- The commands that must not meet an update. -/
def needsIdle (c : Command) : Bool :=
  isRebootClass c.command || isSafeMode c.command ||
    (c.command = "restart_service" && c.arg = "update")

/-- The phase in the reply of the update service. -/
def phaseOf (res : Json) : Except Json.Error String := do
  let status ← res.at_ "status"
  status.value Json.getString "phase" "idle"

def updateIdle : Remote Gate := do
  match ← sendAndReceive .update .updateStatus with
  | none => pure {}
  | some res =>
    let phase ← json (phaseOf res)
    pure (if phase ≠ "idle" ∧ phase ≠ "failed" then refused ("update " ++ phase) else {})

/-- The field `is_newer` of the release in the reply of the update service. -/
def isNewerOf (latest : Json) : Except Json.Error Bool := do
  let release ← latest.at_ "release"
  release.value Json.getBool "is_newer" false

def newerAvailable : Remote Gate := do
  match ← sendAndReceive .update .updateCheckLatest with
  | none => pure (refused "update server not reachable")
  | some latest =>
    let ok ← json (latest.value Json.getBool "ok" false)
    if !ok then pure (refused "update server not reachable")
    else
      let isNewer ← json (isNewerOf latest)
      pure (if isNewer then {} else refused "No newer version available")

def gateCmd (rateLimited : Bool) : List String :=
  ["shareframe-remote-gate", "check"] ++ if rateLimited then [] else ["--no-rate-limit"]

def boardGate (rateLimited : Bool) : Remote Gate := do
  let board ← run (gateCmd rateLimited) 5
  pure (if board.exitCode ≠ 0 then
    refused (if trimmed board.stdOut = "" then "board gate failed" else trimmed board.stdOut) else {})

def stillRefreshing : Gate := refused "display still refreshing"

/-- The loop of `_safeToReboot`, for so many passes. -/
def awaitDisplay (timing : Timing) (deadline : Int) : Nat → Remote Gate
  | 0 => pure stillRefreshing
  | passes + 1 => do
    let stop ← ask .stopRequested
    if stop then pure stillRefreshing
    else match ← sendAndReceive .display .getSlideshowActive with
      | none => pure {}
      | some res =>
        let refreshing ← json (res.value Json.getBool "refreshing" false)
        if !refreshing then pure {}
        else
          let now ← ask .steadyNow
          if now ≥ deadline then pure stillRefreshing
          else do
            sleepFor timing.refreshPoll
            awaitDisplay timing deadline passes

/-- More passes do not fit into the wait, each sleeps for `refreshPoll`. -/
def Timing.passes (timing : Timing) : Nat := timing.refreshWait / timing.refreshPoll + 2

def displayReady (timing : Timing) : Remote Gate := do
  let now ← ask .steadyNow
  awaitDisplay timing (now + timing.refreshWait) timing.passes

def safeToReboot (timing : Timing) (rateLimited : Bool) : Remote Gate :=
  andThen (boardGate rateLimited) (displayReady timing)

/-- The logs are saved before the reboot; a factory reset would lose them. -/
def evidence (cfg : Config) (c : Command) : Remote Gate := do
  let result ← captureBeforeReboot cfg c.id
  if result.ok then pure {}
  else if c.command = "factory_reset" then
    pure (refused ("diagnostics upload failed, data would be lost: " ++ result.error))
  else do
    event c ("diagnostics kept on device (" ++ result.error ++ ")")
    pure {}

def gates (timing : Timing) (cfg : Config) (c : Command) : Remote Gate :=
  andThen (pure (wellFormed c)) <|
  andThen (notExpired c) <|
  andThen (onlyIf (needsIdle c) updateIdle) <|
  andThen (onlyIf (c.command = "update_install") newerAvailable) <|
  onlyIf (isRebootClass c.command) <|
    andThen (safeToReboot timing (c.command ≠ "update_install")) (evidence cfg c)

/-! ## Actions -/

def restartService (timing : Timing) (c : Command) : Remote Unit := do
  (if c.arg = "websocket" then sleepFor timing.settle else pure ())
  let res ← run ["s6-svc", "-r", "/run/service/shareframe-" ++ c.arg] 10
  reply c.id (if res.exitCode = 0 then "done" else "failed") res.stdErr

def safeMode (c : Command) : Remote Unit := do
  let res ← run
    ["shareframe-safe-mode", if c.command = "enter_safe_mode" then "enter" else "exit"] 15
  if res.exitCode = 0 then reply c.id "done" (trimmed res.stdOut)
  else do
    let reason := trimmed (if res.stdOut = "" then res.stdErr else res.stdOut)
    event c ("failed (" ++ reason ++ ")")
    reply c.id "failed" reason

def updateFailed (c : Command) (error : String) : Remote Unit := do
  event c ("failed (" ++ error ++ ")")
  reply c.id "failed" error

def mark : Remote Unit := do
  let _ ← run ["shareframe-remote-gate", "mark"] 5

/-- Behind the answer of the update service. -/
def updateAnswered (c : Command) (res : Option Json) : Remote Unit := do
  match res with
  | none => updateFailed c "update service unreachable"
  | some res =>
    let ok ← json (res.value Json.getBool "ok" false)
    if ok then mark
    else do
      let error ← json (res.value Json.getString "error" "update did not start")
      updateFailed c error

def updateInstall (c : Command) : Remote Unit := do
  let res ← sendAndReceive .update .updatePerform
  updateAnswered c res

/-- Reboot and factory reset, behind a status screen. -/
def restart (screen : String) (args : List String) : Remote Unit := do
  let _ ← ask (.send .display ⟨.showStatusScreen, .obj [("screen", .str screen)]⟩)
  let res ← run args 5
  if res.exitCode ≠ 0 then do
    let _ ← ask (.send .display ⟨.hideStatusScreen, .null⟩)
  else pure ()

/-- Reboot, factory reset and shutdown. -/
def leave (timing : Timing) (c : Command) : Remote Unit := do
  mark
  sleepFor timing.settle
  if c.command = "shutdown" then do
    let _ ← run ["shutdown"] 5
  else if c.command = "reboot" then restart "reboot" ["reboot"]
  else restart "factory_reset" ["shareframe-factory-reset", "--yes"]

def act (timing : Timing) (cfg : Config) (c : Command) : Remote Unit := do
  if c.command = "request_diagnostics" then do
    let res ← collectAndUpload cfg "admin" (some c.id)
    reply c.id (if res.ok then "done" else "failed") res.error
  else if c.command = "restart_service" then restartService timing c
  else if isSafeMode c.command then safeMode c
  else if c.command = "update_install" then updateInstall c
  else leave timing c

/-! ## `_handle` -/

def accept (c : Command) : Remote Unit := do
  event c "accepted"
  reply c.id "accepted" ""

def perform (timing : Timing) (cfg : Config) (c : Command) : Remote Unit := do
  let gate ← gates timing cfg c
  if gate.ok then do
    accept c
    act timing cfg c
  else reject c gate.reason

def handle (timing : Timing) (cfg : Config) (msg : Json) : Remote Unit := do
  let c ← json (readCommand msg)
  perform timing cfg c

section

variable {timing : Timing} {cfg : Config} {msg : Json}

theorem handle_of_ok {c : Command} (h : readCommand msg = .ok c) :
    handle timing cfg msg = perform timing cfg c := by
  rw [handle, h]
  rfl

theorem handle_of_error {e : Json.Error} (h : readCommand msg = .error e) :
    handle timing cfg msg = .throw (.json e) := by
  rw [handle, h]
  rfl

end

end ShareFrame.RemoteCommand
