import Mathlib.Logic.Function.Basic
import ShareFrame.Lib.Machine
import ShareFrame.Net.HTTPClient
import ShareFrame.Update.Version
import ShareFrame.Util.FileHash

/-!
# The update manager

`UpdateManager` fetches the latest release, and installs it in a worker thread.
`step` is one atomic step of a thread: of a `startUpdate` call (from the IPC
thread or from the periodic checker), which holds `mutex_` all along, or of a
worker, which takes it for each change of the phase. The answers of the server,
the file system and `rauc` are part of the label. A thread that throws out of its
function ends the process.

Fields marked *ghost* are never read by a step.
-/

namespace ShareFrame.UpdateManager

open HTTPClient Update

inductive Phase where
  | idle
  | checking
  | downloading
  | installing
  | awaitingReboot
  | failed
  deriving DecidableEq, Repr

/-! ## Releases -/

/-- A member of a JSON object, as far as `value(key, "")` tells them apart. -/
inductive Field where
  | absent
  | string (s : String)
  | other
  deriving DecidableEq, Repr

/-- `value(key, "")`; `none` when it throws. -/
def Field.value : Field → Option String
  | .absent => some ""
  | .string s => some s
  | .other => none

/-- A parsed body. -/
inductive Json where
  | object (version criticality downloadUrl checksum : Field)
  | other
  deriving DecidableEq, Repr

/-- A release that `_latestReleaseJson` accepted: version and criticality are strings, an absent one
reads as empty. -/
structure Release where
  version : String
  criticality : String
  downloadUrl : Field
  checksum : Field
  deriving DecidableEq, Repr

/-- `_latestReleaseJson`, with the parsed body (`none` when it does not parse). -/
def latestReleaseJson (resp : HttpResponse) (parsed : Option Json) : Option Release :=
  if !resp.ok then none
  else match parsed with
    | some (.object version criticality downloadUrl checksum) =>
      match version.value, criticality.value with
      | some version, some criticality => some ⟨version, criticality, downloadUrl, checksum⟩
      | _, _ => none
    | _ => none

/-! ## Files -/

def kCacheDir : String := "/data/cache"

def bundle (version : String) : String := kCacheDir ++ "/shareframe-" ++ version ++ ".raucb"

def part (version : String) : String := bundle version ++ ".part"

/-- `path::extension`. -/
def extension (path : String) : List Char :=
  let name := (path.toList.splitOn '/').getLastD []
  match name.splitOn '.' with
  | [] | [_] | [[], _] => []
  | pieces => '.' :: pieces.getLastD []

/-- A bundle or a partial download of another update. -/
def Stale (version path : String) : Prop :=
  (extension path = ".raucb".toList ∨ extension path = ".part".toList) ∧ path ≠ part version

instance (version path : String) : Decidable (Stale version path) := by
  unfold Stale; infer_instance

/-- `std::tolower` of each byte, in the C locale. -/
def lower (s : String) : String := String.ofList (s.toList.map Char.toLower)

/-! ## State -/

inductive Caller where
  | ipc
  | checker
  deriving DecidableEq, Repr

/-- Where a caller is in `startUpdate`. -/
inductive Call where
  | out
  | locking
  | busyCheck
  | slotCheck
  | fetching
  | comparing (release : Release)
  | starting (release : Release)
  /-- assigning `worker_`: the old thread is joined -/
  | joining (worker : Nat)
  | returned (result : Bool) (error : String)
  | threw
  deriving DecidableEq, Repr

/-- Where the periodic checker is. -/
inductive Checker where
  | asleep
  | slotCheck
  | fetching
  | comparing (release : Release)
  /-- in `startUpdate` -/
  | calling (call : Call)
  deriving DecidableEq, Repr

def Checker.call : Checker → Call
  | .calling call => call
  | _ => .out

/-- Where a worker is. -/
inductive WorkerPc where
  | begin
  | preparing
  | toDownloading
  | downloading
  | hashing
  | finalizing
  | toInstalling
  | installing
  /-- `rauc install` runs -/
  | installRuns
  | toAwaiting
  | rebooting
  /-- in `_fail`, before the phase is set -/
  | failing (error : String)
  /-- in `_fail`, the history entry is written -/
  | history (error : String)
  | exited
  deriving DecidableEq, Repr

structure Worker where
  release : Release
  pc : WorkerPc := .begin
  /-- ghost: the pending slot that `startUpdate` read -/
  slotAtStart : Option String
  deriving DecidableEq, Repr

/-- A run of `rauc install`. -/
structure Install where
  release : Release
  installed : Option Bytes
  slotAtStart : Option String
  deriving DecidableEq, Repr

structure Config where
  version : String
  checkIntervalSecs : Int
  autoInstallCriticality : String

structure State where
  -- under mutex_, which `lock` holds
  lock : Option Caller := none
  phase_ : Phase := .idle
  error_ : String := ""
  targetVersion_ : String := ""
  -- threads
  ipc : Call := .out
  checker_ : Checker := .asleep
  workers : List Worker := []
  worker_ : Option Nat := none
  /-- a thread threw out of its function -/
  terminated : Bool := false
  -- files
  pendingSlot : String := ""
  cache : String → Option Bytes := fun _ => none
  /-- ghost: the pending slot that the call with the lock read -/
  slotSeen : Option String := none
  /-- ghost: the call changed the phase, the error or the target version -/
  touched : Caller → Bool := fun _ => false
  /-- ghost: the runs of `rauc install` -/
  installs : List Install := []

/-- Where a caller is in `startUpdate`. -/
def State.calls (s : State) : Caller → Call
  | .ipc => s.ipc
  | .checker => s.checker_.call

inductive Act where
  -- `startUpdate`
  | ipcCall
  | call (caller : Caller)
  | fetched (caller : Caller) (resp : HttpResponse) (parsed : Option Json)
  | fetchThrows (caller : Caller)
  | threadStarted (caller : Caller) (ok : Bool)
  -- the periodic checker
  | wake
  | check
  | checkFetched (resp : HttpResponse) (parsed : Option Json)
  -- a worker
  | work (worker : Nat)
  | prepared (worker : Nat) (removed : List String)
  | downloaded (worker : Nat) (rounds : List Round)
  | hashed (worker : Nat) (reads removed : Bool)
  | renamed (worker : Nat) (error : Option String)
  | installed (worker : Nat) (exitCode : Int) (stdErr : String) (removed : Bool)
  | workThrows (worker : Nat)
  -- `rauc`, the boot, an operator
  | setPendingSlot (slot : String)
  deriving DecidableEq

variable (sha256 : Bytes → Bytes) (cfg : Config)

def isNewerThanInstalled (candidate : String) : Bool := isVersionNewer candidate cfg.version

/-! ## `startUpdate` -/

def Phase.busy : Phase → Bool
  | .checking | .downloading | .installing | .awaitingReboot => true
  | _ => false

def setCall (s : State) (c : Caller) (call : Call) : State :=
  { s with
    ipc := if c = .ipc then call else s.ipc
    checker_ := if c = .checker then .calling call else s.checker_ }

/-- `startUpdate` returns or throws: the lock is given back. -/
def leaveCall (s : State) (c : Caller) (call : Call) : State :=
  { setCall s c call with lock := none }

/-- An exception out of `startUpdate`: the IPC server answers it, the checker has no handler. -/
def throwCall (s : State) (c : Caller) : State :=
  { leaveCall s c .threw with terminated := s.terminated || c = .checker }

/-- The next step of `startUpdate` that needs no answer. -/
def callStep (s : State) (c : Caller) : Option State :=
  match s.calls c with
  | .locking => if s.lock = none then some { setCall s c .busyCheck with lock := some c } else none
  | .busyCheck =>
    if s.phase_.busy then some (leaveCall s c (.returned false "Update already in progress"))
    else some (setCall s c .slotCheck)
  | .slotCheck =>
    if s.pendingSlot ≠ "" then
      some (leaveCall s c
        (.returned false "Previous update awaits confirmation; reboot or wait first"))
    else some { setCall s c .fetching with slotSeen := some s.pendingSlot }
  | .comparing release =>
    if !isNewerThanInstalled cfg release.version then
      some (leaveCall s c (.returned false "No newer version available"))
    else some (setCall s c (.starting release))
  | .joining new =>
    match s.worker_.bind (s.workers[·]?) with
    | some old =>
      if old.pc = .exited then some { leaveCall s c (.returned true "") with worker_ := some new }
      else none
    | none => some { leaveCall s c (.returned true "") with worker_ := some new }
  | _ => none

def fetched (s : State) (c : Caller) (resp : HttpResponse) (parsed : Option Json) : Option State :=
  if s.calls c ≠ .fetching then none
  else match latestReleaseJson resp parsed with
    | none => some (leaveCall s c (.returned false "Failed to fetch latest release from server"))
    | some release => some (setCall s c (.comparing release))

/-- The phase is set, then the thread is created. -/
def threadStarted (s : State) (c : Caller) (ok : Bool) : Option State :=
  match s.calls c with
  | .starting release =>
    let s := { s with phase_ := .checking, error_ := "", targetVersion_ := release.version }
    if ok then
      some { setCall s c (.joining s.workers.length) with
        workers := s.workers ++ [{ release, slotAtStart := s.slotSeen }] }
    else some (throwCall s c)
  | _ => none

/-- A step of a `startUpdate` call, with the record of what it changed. -/
def byCall (s : State) (c : Caller) (s' : Option State) : Option State :=
  s'.map fun s' => { s' with
    touched := Function.update s.touched c (s.touched c ||
      decide ((s'.phase_, s'.error_, s'.targetVersion_) ≠ (s.phase_, s.error_, s.targetVersion_))) }

/-- A call of `startUpdate` begins. -/
def beginCall (s : State) (c : Caller) : State :=
  { setCall s c .locking with touched := Function.update s.touched c false }

/-! ## The periodic checker -/

def checkStep (s : State) : Option State :=
  match s.checker_ with
  | .slotCheck => some { s with checker_ := if s.pendingSlot ≠ "" then .asleep else .fetching }
  | .comparing release =>
    if !isNewerThanInstalled cfg release.version then some { s with checker_ := .asleep }
    else if release.criticality = cfg.autoInstallCriticality then
      some (beginCall s .checker)
    else some { s with checker_ := .asleep }
  | .calling (.returned _ _) => some { s with checker_ := .asleep }
  | _ => none

/-! ## The worker -/

def setWorker (s : State) (i : Nat) (w : Worker) (pc : WorkerPc) : State :=
  { s with workers := s.workers.set i { w with pc } }

/-- The next step of a worker that needs no answer. Where it sets the phase, it waits for the
lock. -/
def workStep (s : State) (i : Nat) (w : Worker) : Option State :=
  match w.pc with
  | .begin =>
    match w.release.downloadUrl.value with
    | none => some { s with terminated := true }
    | some url =>
      if url = "" then some (setWorker s i w (.failing "Release has no download_url"))
      else some (setWorker s i w .preparing)
  | .toDownloading =>
    if s.lock = none then some { setWorker s i w .downloading with phase_ := .downloading } else none
  | .toInstalling =>
    if s.lock = none then some { setWorker s i w .installing with phase_ := .installing } else none
  | .installing =>
    some { setWorker s i w .installRuns with
      installs :=
        ⟨w.release, s.cache (bundle w.release.version), w.slotAtStart⟩ :: s.installs }
  | .toAwaiting =>
    if s.lock = none then some { setWorker s i w .rebooting with phase_ := .awaitingReboot } else none
  | .rebooting => some (setWorker s i w .exited)
  | .failing error =>
    if s.lock = none then
      some { setWorker s i w (.history error) with phase_ := .failed, error_ := error }
    else none
  | .history _ => some (setWorker s i w .exited)
  | _ => none

def prepared (s : State) (i : Nat) (w : Worker) (removed : List String) : Option State :=
  if w.pc = .preparing ∧ ∀ path ∈ removed, Stale w.release.version path then
    some { setWorker s i w .toDownloading with
      cache := fun path => if path ∈ removed then none else s.cache path }
  else none

def downloaded (s : State) (i : Nat) (w : Worker) (rounds : List Round) : Option State :=
  let file := part w.release.version
  if w.pc ≠ .downloading then none
  else (downloadToFile file (s.cache file) rounds).map fun (dl, content) =>
    let s := { s with cache := Function.update s.cache file content }
    if dl.ok then setWorker s i w .hashing
    else setWorker s i w (.failing ("Download failed: " ++
      if dl.errorMsg = "" then "HTTP " ++ toString dl.statusCode else dl.errorMsg))

def hashed (s : State) (i : Nat) (w : Worker) (reads removed : Bool) : Option State :=
  let file := part w.release.version
  if w.pc ≠ .hashing then none
  else match w.release.checksum.value with
    | none => some { s with terminated := true }
    | some checksum =>
      let expected := lower checksum
      let actual := FileHash.sha256File sha256 (if reads then s.cache file else none)
      if expected = "" then some (setWorker s i w .finalizing)
      else if actual ≠ expected then
        let s := { s with
          cache := if removed then Function.update s.cache file none else s.cache }
        some (setWorker s i w
          (.failing ("Checksum mismatch: expected " ++ expected ++ ", got " ++ actual)))
      else some (setWorker s i w .finalizing)

def renamed (s : State) (i : Nat) (w : Worker) (error : Option String) : Option State :=
  let from_ := part w.release.version
  if w.pc ≠ .finalizing then none
  else match error with
    | some message =>
      some (setWorker s i w (.failing ("Failed to finalize download: " ++ message)))
    | none =>
      some { setWorker s i w .toInstalling with
        cache := Function.update (Function.update s.cache (bundle w.release.version)
          (s.cache from_)) from_ none }

def installed (s : State) (i : Nat) (w : Worker) (exitCode : Int) (stdErr : String)
    (removed : Bool) : Option State :=
  let file := bundle w.release.version
  if w.pc ≠ .installRuns then none
  else
    let s := { s with
      cache := if removed then Function.update s.cache file none else s.cache }
    if exitCode ≠ 0 then
      some (setWorker s i w (.failing ("rauc install failed: " ++ stdErr)))
    else some (setWorker s i w .toAwaiting)

/-- A step of worker `i`. -/
def byWorker (s : State) (i : Nat) (f : Worker → Option State) : Option State :=
  s.workers[i]?.bind f

/-! ## Steps -/

def step (s : State) (a : Act) : Option State :=
  if s.terminated then none
  else match a with
  | .ipcCall =>
    match s.ipc with
    | .out | .returned _ _ | .threw => some (beginCall s .ipc)
    | _ => none
  | .call c => byCall s c (callStep cfg s c)
  | .fetched c resp parsed => byCall s c (fetched s c resp parsed)
  | .fetchThrows c => if s.calls c = .fetching then byCall s c (some (throwCall s c)) else none
  | .threadStarted c ok => byCall s c (threadStarted s c ok)
  | .wake =>
    if s.checker_ = .asleep ∧ cfg.checkIntervalSecs > 0 then some { s with checker_ := .slotCheck }
    else none
  | .check => checkStep cfg s
  | .checkFetched resp parsed =>
    if s.checker_ ≠ .fetching then none
    else match latestReleaseJson resp parsed with
      | none => some { s with checker_ := .asleep }
      | some release => some { s with checker_ := .comparing release }
  | .work i => byWorker s i (workStep s i)
  | .prepared i removed => byWorker s i fun w => prepared s i w removed
  | .downloaded i rounds => byWorker s i fun w => downloaded s i w rounds
  | .hashed i reads removed => byWorker s i fun w => hashed sha256 s i w reads removed
  | .renamed i error => byWorker s i fun w => renamed s i w error
  | .installed i exitCode stdErr removed =>
    byWorker s i fun w => installed s i w exitCode stdErr removed
  | .workThrows i =>
    byWorker s i fun w => if w.pc = .exited then none else some { s with terminated := true }
  | .setPendingSlot slot => some { s with pendingSlot := slot }

/-- The manager starts with any pending slot and any files. -/
def machine : Transition.Machine State Act where
  Init s := ∃ pendingSlot cache, s = { pendingSlot, cache }
  step := step sha256 cfg

end ShareFrame.UpdateManager
