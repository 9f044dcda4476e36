import ShareFrame.Lib.Machine

/-!
# Downloads

`HTTPClient::downloadToFile` streams a resource into a file and resumes an
interrupted download where the file ends. A `Round` is what one pass of its loop
meets: the server's answer, and how the local calls on the file went; `step` is
the pass. A run of `machine` is one call with any rounds.
-/

namespace ShareFrame.HTTPClient

structure HttpResponse where
  statusCode : Int := 0
  body : String := ""
  errorMsg : String := ""
  deriving DecidableEq, Repr

def HttpResponse.ok (r : HttpResponse) : Bool := decide (r.statusCode ≥ 200 ∧ r.statusCode < 300)

def kMaxRetries : Nat := 3

/-- Bounds the requests of one download. -/
def kMaxDownloadAttempts : Nat := 30

/-- `ix::HttpErrorCode`, as far as the code tells its values apart. -/
inductive HttpErrorCode where
  | ok
  | chunkReadError
  | cannotReadBody
  | other
  deriving DecidableEq, Repr

/-- `ix::HttpResponse`. The body of a streamed download went to the chunk callback. -/
structure Answer where
  statusCode : Int
  errorCode : HttpErrorCode := .ok
  body : String := ""
  errorMsg : String := ""
  deriving DecidableEq, Repr

/-- The body was cut off behind the status line. -/
def Answer.bodyLost (r : Answer) : Bool :=
  r.errorCode = .chunkReadError || r.errorCode = .cannotReadBody

def toResponse : Option Answer → HttpResponse
  | none => ⟨0, "", "null response"⟩
  | some r => ⟨if r.bodyLost then 0 else r.statusCode, r.body, r.errorMsg⟩

theorem toResponse_ok (a : Answer) : (toResponse (some a)).ok = true ↔
    a.bodyLost = false ∧ 200 ≤ a.statusCode ∧ a.statusCode < 300 := by
  cases h : a.bodyLost <;> simp [toResponse, HttpResponse.ok, h]

abbrev Bytes := List UInt8

/-- What one pass of the loop meets. -/
structure Round where
  /-- the file can be opened for writing -/
  opens : Bool := true
  answer : Option Answer
  /-- the bytes of all chunks -/
  received : Bytes := []
  /-- a write or the close failed when so many bytes had landed -/
  writeFailed : Option Nat := none
  /-- the message of a `resize_file` that failed -/
  resizeFailed : Option String := none
  deriving DecidableEq, Repr

namespace Round

/-- The bytes that landed in the file. -/
def landed (r : Round) : Bytes :=
  match r.writeFailed with
  | none => r.received
  | some n => r.received.take n

def served (r : Round) : Int :=
  match r.answer with
  | none => 0
  | some a => a.statusCode

/-- The bytes continue what the file held: only a 206 does behind kept bytes. -/
def appended (offset : Nat) (r : Round) : Bool :=
  if offset > 0 then r.served = 206 else r.served ≥ 200 && r.served < 300

/-- The server refused to resume. -/
def restart (offset : Nat) (r : Round) : Bool :=
  offset > 0 && (r.served = 200 || r.served = 416)

end Round

/-- The loop's variables, and the file at `destPath`: `none` when it does not exist. -/
structure State where
  file : Option Bytes
  attempt : Nat := 1
  failures : Nat := 0
  result : Option HttpResponse := none
  deriving DecidableEq, Repr

namespace State

def content (s : State) : Bytes := s.file.getD []

/-- The size of the file, zero when it does not exist. -/
def offset (s : State) : Nat := s.content.length

end State

/-- One pass of the loop; `none` once it has returned. -/
def step (destPath : String) (s : State) (r : Round) : Option State :=
  let offset := s.offset
  if s.result.isSome then none
  else if !r.opens then
    some { s with result := some ⟨0, "", "cannot open " ++ destPath ++ " for writing"⟩ }
  else
    let written := s.content ++ r.landed
    let resp := toResponse r.answer
    if r.writeFailed.isSome then
      some { s with
        file := some written
        result := some ⟨0, "", "write failed for " ++ destPath ++ " (disk full?)"⟩ }
    else
      match if r.appended offset then none else r.resizeFailed with
      | some message =>
        some { s with
          file := some written
          result := some ⟨0, "", "cannot truncate " ++ destPath ++ ": " ++ message⟩ }
      | none =>
        let kept := if r.appended offset then written
          else written.take (if r.restart offset then 0 else offset)
        if r.restart offset then some { s with file := some kept, attempt := s.attempt + 1 }
        else if resp.statusCode ≠ 0 then some { s with file := some kept, result := some resp }
        else
          -- a round without progress counts toward the retry limit
          let failures := if r.appended offset && r.received.length > 0 then 0 else s.failures + 1
          if failures > kMaxRetries ∨ s.attempt ≥ kMaxDownloadAttempts then
            some { s with file := some kept, failures, result := some resp }
          else some { s with file := some kept, failures, attempt := s.attempt + 1 }

/-- A call of `downloadToFile` when the file holds a prefix of `resource`, or does not exist. -/
def machine (destPath : String) (resource : Bytes) : Transition.Machine State Round where
  Init s := ∃ file : Option Bytes, file.getD [] <+: resource ∧ s = { file }
  step := step destPath

/-- `downloadToFile` on a file, when its rounds go like this; `none` when they are too few or too
many. -/
def downloadToFile (destPath : String) (file : Option Bytes) (rounds : List Round) :
    Option (HttpResponse × Option Bytes) :=
  ((machine destPath []).run { file } rounds).bind fun s => s.result.map (·, s.file)

end ShareFrame.HTTPClient
