import ShareFrame.Task.Remote.Outside

/-!
# Diagnostics

`DiagnosticsUploader` posts a package of logs to the server. Before a reboot the
package goes to the disk first, and stays there until the server has it.
-/

namespace ShareFrame.DiagnosticsUploader

open RemoteCommand Interaction

structure Config where
  /-- the address of the upload -/
  url : String
  pendingPath : String
  deriving DecidableEq, Repr

structure Result where
  ok : Bool := false
  error : String := ""
  deriving DecidableEq, Repr

def kCollectTimeoutSecs : Nat := 60

variable (cfg : Config)

/-- The address of `_post`. -/
def address (trigger : String) (commandId : Option Int) : String :=
  cfg.url ++ "?trigger=" ++ trigger ++
    match commandId with
    | some id => "&command_id=" ++ toString id
    | none => ""

/-- `_post` -/
def post (package trigger : String) (commandId : Option Int) : Remote Result := do
  match ← ask .authHeaders with
  | none => .throw .database
  | some none => pure { error := "No auth token available" }
  | some (some _) =>
    let res ← ask (.post (address cfg trigger commandId) package)
    if res.statusCode = 401 then
      match ← ask .invalidate with
      | none => .throw .database
      | some () => pure { error := "Upload failed (" ++ toString res.statusCode ++ ")" }
    else if !res.ok then pure { error := "Upload failed (" ++ toString res.statusCode ++ ")" }
    else pure { ok := true }

/-- `_uploadPending` -/
def uploadPending (commandId : Option Int) : Remote Result := do
  let package ← ask (.readPackage cfg.pendingPath)
  let result ← post cfg package "pre-reboot" commandId
  if result.ok then do
    let () ← ask (.removePackage cfg.pendingPath)
    pure result
  else pure result

def captureBeforeReboot (commandId : Int) : Remote Result := do
  let res ← run ["shareframe-diag", "--out", cfg.pendingPath] kCollectTimeoutSecs
  if res.exitCode ≠ 0 then pure { error := "Collecting diagnostics failed: " ++ res.stdErr }
  else uploadPending cfg (some commandId)

/-- `collectAndUpload`, behind the look at the pending package. -/
def collect (trigger : String) (commandId : Option Int) : Remote Result := do
  let res ← run ["shareframe-diag"] kCollectTimeoutSecs
  if res.exitCode ≠ 0 ∨ res.stdOut = "" then
    pure { error := "Collecting diagnostics failed: " ++ res.stdErr }
  else post cfg res.stdOut trigger commandId

def collectAndUpload (trigger : String) (commandId : Option Int) : Remote Result := do
  match ← ask (.packageExists cfg.pendingPath) with
  | none => .throw .filesystem
  | some true => do
    let _ ← uploadPending cfg none
    collect cfg trigger commandId
  | some false => collect cfg trigger commandId

end ShareFrame.DiagnosticsUploader
