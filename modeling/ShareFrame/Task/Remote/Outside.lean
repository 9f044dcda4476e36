import ShareFrame.Ipc.IpcProtocol
import ShareFrame.Lib.Interaction
import ShareFrame.Net.HTTPClient

/-!
# What a remote command asks of the rest of the frame

The operations of `RemoteCommand::_handle` and of the diagnostics uploader that it
calls: messages to the other services, commands of the board, the clocks, the
event bus, the server, and the package on the disk. A command is a program over
them (`Remote`); any answer to a call is possible.
-/

namespace ShareFrame.RemoteCommand

open HTTPClient Interaction

/-- The services that are reached through an `IpcClient`. -/
inductive Peer where
  | display
  | update
  deriving DecidableEq, Repr

structure SubprocessResult where
  exitCode : Int
  stdOut : String := ""
  stdErr : String := ""
  deriving DecidableEq, Repr

inductive Op where
  /-- `IpcClient::sendAndReceive` -/
  | sendAndReceive (peer : Peer) (msg : IpcMessage)
  /-- `IpcClient::send` -/
  | send (peer : Peer) (msg : IpcMessage)
  /-- `Subprocess::run` -/
  | run (args : List String) (timeoutSecs : Nat)
  | systemNow
  | steadyNow
  | sleepFor (millis : Nat)
  | stopRequested
  /-- publishes on `WS_SEND` -/
  | publish (msg : Json)
  /-- `TokenAuth::buildTokenAuthHeaders` -/
  | authHeaders
  /-- `AuthTokenManager::invalidate` -/
  | invalidate
  | post (url package : String)
  | packageExists (path : String)
  | readPackage (path : String)
  | removePackage (path : String)
  deriving DecidableEq, Repr

/-- The answers. Where the token database or the file system throws, there is `none`. -/
abbrev Ans : Op → Type
  | .sendAndReceive _ _ => Option Json
  | .send _ _ => Bool
  | .run _ _ => SubprocessResult
  | .systemNow | .steadyNow => Int
  | .sleepFor _ | .publish _ | .removePackage _ => Unit
  | .stopRequested => Bool
  | .authHeaders => Option (Option String)
  | .invalidate => Option Unit
  | .post _ _ => HttpResponse
  | .packageExists _ => Option Bool
  | .readPackage _ => String

abbrev Event := Interaction.Event Ans

/-- What leaves a command. -/
inductive Error where
  | json (error : Json.Error)
  | database
  | filesystem
  deriving DecidableEq, Repr

abbrev Remote := Prog Ans Error

/-- A read of a document. -/
def json {α : Type} (x : Except Json.Error α) : Remote α := Prog.lift (x.mapError .json)

def ask (op : Op) : Remote (Ans op) := Prog.ask op

def sendAndReceive (peer : Peer) (type : IpcMessageType) : Remote (Option Json) :=
  ask (.sendAndReceive peer { type })

def run (args : List String) (timeoutSecs : Nat) : Remote SubprocessResult :=
  ask (.run args timeoutSecs)

def publish (msg : Json) : Remote Unit := ask (.publish msg)

def sleepFor (millis : Nat) : Remote Unit := ask (.sleepFor millis)

end ShareFrame.RemoteCommand
