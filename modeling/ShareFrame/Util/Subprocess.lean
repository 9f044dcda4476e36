import ShareFrame.Lib.Discipline
import ShareFrame.Util.Text

/-!
# Child processes

`Subprocess::run` makes two pipes, forks, and reads both pipes until they end or the
deadline passes. `Op` are the system calls of the parent. The loop is cut off behind
`fuel` rounds, where the program throws.

Other threads open and close descriptors all the time, and the system uses the number
of a closed one, or of a reaped process, again. `run` reads and closes only what it has
open, signals and waits for its child only while that is not reaped, and leaves nothing
behind except for the first pipe where there is no second one, and a child that `waitpid`
did not reap (`run_releases`). Its result is what came out of the pipes (`run_reports`).
-/

namespace ShareFrame.Subprocess

open Interaction

inductive Status where
  | exited (code : Int)
  | signalled
  deriving DecidableEq, Repr

inductive Poll where
  | failed (interrupted : Bool)
  /-- the descriptors with `POLLIN` or `POLLHUP` -/
  | ready (fds : List Int)
  deriving DecidableEq, Repr

inductive Op where
  | pipe
  | fork
  /-- nanoseconds of the steady clock -/
  | now
  | poll (fds : List Int) (millis : Int)
  | read (fd : Int)
  | close (fd : Int)
  | kill (pid : Int)
  | waitpid (pid : Int)
  deriving DecidableEq, Repr

/-- The answers; an error of `pipe` and `fork` is the text of it. `read` gives no bytes at the end
and `none` when it fails. -/
abbrev Ans : Op → Type
  | .pipe => Except String (Int × Int)
  | .fork => Except String Int
  | .now => Int
  | .poll _ _ => Poll
  | .read _ => Option (List UInt8)
  | .close _ | .kill _ => Unit
  | .waitpid _ => Option Status

/-- The loop goes on when the fuel has run out. -/
abbrev Program := Prog Ans Unit

def ask (op : Op) : Program (Ans op) := Prog.ask op

structure Result where
  exitCode : Int
  stdOut : List UInt8
  stdErr : List UInt8
  deriving DecidableEq, Repr

/-- `outPipe[0]` and `errPipe[0]`, and what was read from them. -/
structure Reading where
  out : Int
  err : Int
  openFds : Int := 2
  stdOut : List UInt8 := []
  stdErr : List UInt8 := []
  deriving DecidableEq, Repr

namespace Reading

def fds (r : Reading) : List Int := [r.out, r.err].filter (0 ≤ ·)

def append (r : Reading) (fd : Int) (data : List UInt8) : Reading :=
  if fd = r.out then { r with stdOut := r.stdOut ++ data } else { r with stdErr := r.stdErr ++ data }

def closed (r : Reading) (fd : Int) : Reading :=
  if fd = r.out then { r with out := -1, openFds := r.openFds - 1 }
  else { r with err := -1, openFds := r.openFds - 1 }

end Reading

/-- The read of a descriptor that is ready. -/
def readFd (fd : Int) (r : Reading) : Program Reading := do
  match ← ask (.read fd) with
  | some (b :: bs) => pure (r.append fd (b :: bs))
  | _ =>
    ask (.close fd)
    pure (r.closed fd)

def readReady (ready : List Int) : List Int → Reading → Program Reading
  | [], r => pure r
  | fd :: fds, r =>
    if fd ∈ ready then readFd fd r >>= readReady ready fds else readReady ready fds r

inductive Ended where
  | timedOut
  | done
  deriving DecidableEq, Repr

abbrev kMilli : Int := 1000000
abbrev kSecond : Int := 1000000000

def loop (deadline : Int) : Nat → Reading → Program (Ended × Reading)
  | 0, _ => .throw ()
  | fuel + 1, r =>
    if r.openFds ≤ 0 then pure (.done, r)
    else do
      let now ← ask .now
      let remaining := (deadline - now).tdiv kMilli
      if remaining ≤ 0 then pure (.timedOut, r)
      else
        match ← ask (.poll r.fds remaining) with
        | .failed true => loop deadline fuel r
        | .failed false => pure (.done, r)
        | .ready ready => readReady ready r.fds r >>= loop deadline fuel

/-- A status that `waitpid` did not write is zero, which is an exit with zero. -/
def exitCode : Option Status → Int
  | some (.exited code) => code
  | some .signalled => -1
  | none => 0

def timeoutText (timeoutSecs : Int) : List UInt8 :=
  Text.bytes ("timeout after " ++ toString timeoutSecs ++ "s")

def closeOpen (fd : Int) : Program Unit := if 0 ≤ fd then ask (.close fd) else pure ()

def finish (pid timeoutSecs : Int) : Ended × Reading → Program Result
  | (.timedOut, r) => do
    ask (.kill pid)
    let _ ← ask (.waitpid pid)
    ask (.close r.out)
    ask (.close r.err)
    pure ⟨-1, r.stdOut, timeoutText timeoutSecs⟩
  | (.done, r) => do
    closeOpen r.out
    closeOpen r.err
    let status ← ask (.waitpid pid)
    pure ⟨exitCode status, r.stdOut, r.stdErr⟩

/-- The parent behind `fork`. -/
def parent (fuel : Nat) (timeoutSecs pid : Int) (outPipe errPipe : Int × Int) : Program Result := do
  ask (.close outPipe.2)
  ask (.close errPipe.2)
  let start ← ask .now
  loop (start + timeoutSecs * kSecond) fuel { out := outPipe.1, err := errPipe.1 } >>=
    finish pid timeoutSecs

def run (fuel : Nat) (args : List String) (timeoutSecs : Int) : Program Result :=
  if args = [] then pure ⟨-1, [], Text.bytes "empty command"⟩
  else do
    match ← ask .pipe with
    | .error e => pure ⟨-1, [], Text.bytes ("pipe() failed: " ++ e)⟩
    | .ok outPipe =>
      match ← ask .pipe with
      | .error e => pure ⟨-1, [], Text.bytes ("pipe() failed: " ++ e)⟩
      | .ok errPipe =>
        match ← ask .fork with
        | .error e =>
          ask (.close outPipe.1)
          ask (.close outPipe.2)
          ask (.close errPipe.1)
          ask (.close errPipe.2)
          pure ⟨-1, [], Text.bytes ("fork() failed: " ++ e)⟩
        | .ok pid => parent fuel timeoutSecs pid outPipe errPipe

/-! ## What the process has from the system -/

structure Mode where
  /-- open descriptors of this call -/
  fds : List Int := []
  pipes : List (Int × Int) := []
  /-- there was no second pipe -/
  leaked : Bool := false
  forked : Bool := false
  /-- the child, until it is reaped -/
  child : Option Int := none
  /-- the first and the last time that the clock was read -/
  started : Option Int := none
  last : Int := 0
  killed : Bool := false
  pollFailed : Bool := false
  reads : List (Int × List UInt8) := []
  /-- descriptors whose last read gave nothing -/
  ended : List Int := []
  status : Option Status := none
  /-- `waitpid` failed, and the child is still there -/
  waitFailed : Bool := false
  /-- a new descriptor was not new -/
  broken : Bool := false
  deriving DecidableEq

namespace Mode

/-- Two descriptors that this process does not have. -/
def Fresh (m : Mode) (p : Int × Int) : Prop :=
  0 ≤ p.1 ∧ 0 ≤ p.2 ∧ p.1 ≠ p.2 ∧ p.1 ∉ m.fds ∧ p.2 ∉ m.fds

instance (m : Mode) (p : Int × Int) : Decidable (m.Fresh p) := by unfold Fresh; infer_instance

/-- The bytes that came out of a descriptor. -/
def got (m : Mode) (fd : Int) : List UInt8 := (m.reads.filter (·.1 = fd)).flatMap (·.2)

def afterPipe (m : Mode) : Except String (Int × Int) → Mode
  | .ok p =>
    if m.Fresh p then { m with fds := m.fds ++ [p.1, p.2], pipes := m.pipes ++ [p] }
    else { m with broken := true }
  | .error _ => { m with leaked := m.leaked || m.fds ≠ [] }

def afterFork (m : Mode) : Except String Int → Mode
  | .ok pid => { m with forked := true, child := some pid }
  | .error _ => m

def afterNow (m : Mode) (now : Int) : Mode :=
  { m with started := m.started.or (some now), last := now }

def afterPoll (m : Mode) : Poll → Mode
  | .failed false => { m with pollFailed := true }
  | _ => m

def afterRead (m : Mode) (fd : Int) : Option (List UInt8) → Mode
  | some (b :: bs) => { m with reads := m.reads ++ [(fd, b :: bs)] }
  | _ => { m with ended := m.ended ++ [fd] }

def afterWait (m : Mode) : Option Status → Mode
  | some status => { m with child := none, status := some status }
  | none => { m with waitFailed := true }

end Mode

section AfterWait

variable (m : Mode) (status : Option Status)

namespace Mode

@[simp] theorem afterWait_fds : (m.afterWait status).fds = m.fds := by cases status <;> rfl
@[simp] theorem afterWait_pipes : (m.afterWait status).pipes = m.pipes := by cases status <;> rfl
@[simp] theorem afterWait_leaked : (m.afterWait status).leaked = m.leaked := by cases status <;> rfl
@[simp] theorem afterWait_forked : (m.afterWait status).forked = m.forked := by cases status <;> rfl
@[simp] theorem afterWait_killed : (m.afterWait status).killed = m.killed := by cases status <;> rfl
@[simp] theorem afterWait_started : (m.afterWait status).started = m.started := by
  cases status <;> rfl
@[simp] theorem afterWait_last : (m.afterWait status).last = m.last := by cases status <;> rfl
@[simp] theorem afterWait_pollFailed : (m.afterWait status).pollFailed = m.pollFailed := by
  cases status <;> rfl
@[simp] theorem afterWait_ended : (m.afterWait status).ended = m.ended := by cases status <;> rfl
@[simp] theorem afterWait_broken : (m.afterWait status).broken = m.broken := by
  cases status <;> rfl
@[simp] theorem afterWait_got (fd : Int) : (m.afterWait status).got fd = m.got fd := by
  cases status <;> rfl

theorem afterWait_child :
    (m.afterWait status).child = none ∨ (m.afterWait status).waitFailed = true := by
  cases status with
  | some ended => exact .inl rfl
  | none => exact .inr rfl

/-- The exit code is that of the status, or zero. -/
theorem afterWait_status :
    (∃ ended, (m.afterWait status).status = some ended ∧ exitCode status = exitCode (some ended)) ∨
      (m.afterWait status).waitFailed = true ∧ exitCode status = 0 := by
  cases status with
  | some ended => exact .inl ⟨ended, rfl, rfl⟩
  | none => exact .inr ⟨rfl, rfl⟩

end Mode

end AfterWait

/-- A descriptor is used while it is open, the child until it is reaped; it is killed when less than
a millisecond is left. A descriptor of `-1` is closed without an effect. -/
def discipline (timeoutSecs : Int) : Discipline Ans Mode where
  permits m op := m.broken = true ∨ match op with
    | .pipe | .now => True
    | .fork => m.forked = false
    | .poll fds _ => ∀ fd ∈ fds, fd ∈ m.fds
    | .read fd => fd ∈ m.fds
    | .close fd => fd = -1 ∨ fd ∈ m.fds
    | .kill pid => m.child = some pid ∧
      ∃ start, m.started = some start ∧ start + timeoutSecs * kSecond - m.last < kMilli
    | .waitpid pid => m.child = some pid
  next m
    | ⟨.pipe, p⟩ => m.afterPipe p
    | ⟨.fork, pid⟩ => m.afterFork pid
    | ⟨.now, now⟩ => m.afterNow now
    | ⟨.poll _ _, p⟩ => m.afterPoll p
    | ⟨.read fd, data⟩ => m.afterRead fd data
    | ⟨.close fd, _⟩ => { m with fds := m.fds.filter (· ≠ fd) }
    | ⟨.kill _, _⟩ => { m with killed := true }
    | ⟨.waitpid _, status⟩ => m.afterWait status

/-! ## The loop -/

/-- The loop has both pipes for reading, but for those that have ended, and the child. -/
structure Holds (p q : Int × Int) (pid start : Int) (r : Reading) (m : Mode) : Prop where
  pipes : m.pipes = [p, q]
  nonneg : 0 ≤ p.1 ∧ 0 ≤ q.1
  ne : p.1 ≠ q.1
  fds : m.fds = r.fds
  out : r.out = p.1 ∨ r.out = -1 ∧ p.1 ∈ m.ended
  err : r.err = q.1 ∨ r.err = -1 ∧ q.1 ∈ m.ended
  openFds : r.openFds = r.fds.length
  child : m.child = some pid
  forked : m.forked = true
  started : m.started = some start
  leaked : m.leaked = false
  killed : m.killed = false
  stdOut : r.stdOut = m.got p.1
  stdErr : r.stdErr = m.got q.1

variable {p q : Int × Int} {pid start timeoutSecs fd : Int} {r : Reading} {m : Mode} {fuel : Nat}

theorem Mode.got_concat (m : Mode) (fd fd' : Int) (data : List UInt8) :
    Mode.got { m with reads := m.reads ++ [(fd, data)] } fd' =
      m.got fd' ++ if fd = fd' then data else [] := by
  unfold Mode.got
  rw [List.filter_append, List.flatMap_append]
  by_cases h : fd = fd' <;> simp [h]

theorem mem_fds : fd ∈ r.fds ↔ 0 ≤ fd ∧ (fd = r.out ∨ fd = r.err) := by
  unfold Reading.fds
  rw [List.mem_filter, List.mem_cons, List.mem_singleton, decide_eq_true_iff]
  exact and_comm

namespace Holds

/-- A descriptor that is still open is one of the two. -/
theorem eq_of_mem (h : Holds p q pid start r m) (hfd : fd ∈ r.fds) :
    fd = p.1 ∧ r.out = p.1 ∨ fd = q.1 ∧ r.err = q.1 ∧ fd ≠ r.out := by
  obtain ⟨hnonneg, rfl | rfl⟩ := mem_fds.mp hfd
  · obtain hout | ⟨hout, -⟩ := h.out
    · exact .inl ⟨hout, hout⟩
    · rw [hout] at hnonneg
      exact absurd hnonneg (by decide)
  · obtain herr | ⟨herr, -⟩ := h.err
    · refine .inr ⟨herr, herr, ?_⟩
      obtain hout | ⟨hout, -⟩ := h.out
      · rw [herr, hout]
        exact h.ne.symm
      · rw [hout]
        omega
    · rw [herr] at hnonneg
      exact absurd hnonneg (by decide)

theorem nodup (h : Holds p q pid start r m) : r.fds.Nodup := by
  obtain hout | ⟨hout, -⟩ := h.out <;> obtain herr | ⟨herr, -⟩ := h.err <;>
    simp [Reading.fds, hout, herr, h.nonneg, h.ne]

/-- Bytes come out of an open descriptor. -/
theorem append (h : Holds p q pid start r m) (hfd : fd ∈ r.fds) (data : List UInt8) :
    Holds p q pid start (r.append fd data) { m with reads := m.reads ++ [(fd, data)] } ∧
      (r.append fd data).fds = r.fds := by
  obtain ⟨rfl, hout⟩ | ⟨rfl, -, hne⟩ := h.eq_of_mem hfd
  · rw [Reading.append, if_pos hout.symm]
    refine ⟨{ h with stdOut := ?_, stdErr := ?_ }, rfl⟩
    · rw [Mode.got_concat, if_pos rfl, ← h.stdOut]
    · rw [Mode.got_concat, if_neg h.ne, List.append_nil, ← h.stdErr]
  · rw [Reading.append, if_neg hne]
    refine ⟨{ h with stdOut := ?_, stdErr := ?_ }, rfl⟩
    · rw [Mode.got_concat, if_neg h.ne.symm, List.append_nil, ← h.stdOut]
    · rw [Mode.got_concat, if_pos rfl, ← h.stdErr]

/-- An open descriptor has ended and is closed. -/
theorem closed (h : Holds p q pid start r m) (hfd : fd ∈ r.fds) :
    Holds p q pid start (r.closed fd)
        { m with ended := m.ended ++ [fd], fds := m.fds.filter (· ≠ fd) } ∧
      (r.closed fd).fds = r.fds.filter (· ≠ fd) := by
  have hin : fd ∈ m.ended ++ [fd] := List.mem_append_right _ List.mem_cons_self
  obtain ⟨rfl, hout⟩ | ⟨rfl, herr, hne⟩ := h.eq_of_mem hfd
  · have herr := h.err.imp_right fun herr => And.intro herr.1 (List.mem_append_left [p.1] herr.2)
    rw [Reading.closed, if_pos hout.symm]
    have hfds : { r with out := -1, openFds := r.openFds - 1 }.fds = r.fds.filter (· ≠ p.1) := by
      obtain herr | ⟨herr, -⟩ := h.err <;> simp [Reading.fds, hout, herr, h.nonneg, h.ne.symm]
    have hopen : r.openFds - 1 = { r with out := -1, openFds := r.openFds - 1 }.fds.length := by
      rw [h.openFds]
      obtain herr | ⟨herr, -⟩ := h.err <;> simp [Reading.fds, hout, herr, h.nonneg]
    refine ⟨{ h with fds := ?_, out := .inr ⟨rfl, hin⟩, err := herr, openFds := hopen }, hfds⟩
    rw [hfds, h.fds]
  · have hout := h.out.imp_right fun hout => And.intro hout.1 (List.mem_append_left [q.1] hout.2)
    rw [Reading.closed, if_neg hne]
    have hfds : { r with err := -1, openFds := r.openFds - 1 }.fds = r.fds.filter (· ≠ q.1) := by
      obtain hout | ⟨hout, -⟩ := h.out <;> simp [Reading.fds, hout, herr, h.nonneg, h.ne]
    have hopen : r.openFds - 1 = { r with err := -1, openFds := r.openFds - 1 }.fds.length := by
      rw [h.openFds]
      obtain hout | ⟨hout, -⟩ := h.out <;> simp [Reading.fds, hout, herr, h.nonneg]
    refine ⟨{ h with fds := ?_, out := hout, err := .inr ⟨rfl, hin⟩, openFds := hopen }, hfds⟩
    rw [hfds, h.fds]

end Holds

/-- A descriptor is read, or closed at its end; the other one stays as it is. -/
theorem keeps_readFd (h : Holds p q pid start r m) (hfd : fd ∈ r.fds) :
    (discipline timeoutSecs).Keeps (readFd fd r)
      (fun r' m' => Holds p q pid start r' m' ∧ ∀ fd' ∈ r.fds, fd' ≠ fd → fd' ∈ r'.fds) m := by
  have hopen : fd ∈ m.fds := h.fds ▸ hfd
  refine Discipline.keeps_ask_bind.mpr ⟨.inr hopen, fun data => ?_⟩
  match data with
  | some (b :: bs) =>
    obtain ⟨hholds, hfds⟩ := h.append hfd (b :: bs)
    exact ⟨hholds, fun fd' hmem _ => hfds ▸ hmem⟩
  | none | some [] =>
    obtain ⟨hholds, hfds⟩ := h.closed hfd
    refine Discipline.keeps_ask_bind.mpr ⟨.inr (.inr hopen), fun _ => ⟨hholds, fun fd' hmem hne => ?_⟩⟩
    rw [hfds]
    exact List.mem_filter.mpr ⟨hmem, decide_eq_true hne⟩

theorem keeps_readReady (ready : List Int) :
    ∀ (fds : List Int) {r : Reading} {m : Mode}, fds.Nodup → (∀ fd ∈ fds, fd ∈ r.fds) →
      Holds p q pid start r m →
      (discipline timeoutSecs).Keeps (readReady ready fds r) (fun r m => Holds p q pid start r m) m
  | [], _, _, _, _, h => h
  | fd :: fds, r, m, hnodup, hfds, h => by
    obtain ⟨hnot, hnodup⟩ := List.nodup_cons.mp hnodup
    unfold readReady
    split
    · refine (keeps_readFd h (hfds fd List.mem_cons_self)).bind fun r' m' hr' => ?_
      refine keeps_readReady ready fds hnodup (fun fd' hfd' => ?_) hr'.1
      exact hr'.2 fd' (hfds fd' (List.mem_cons_of_mem _ hfd')) fun heq => hnot (heq ▸ hfd')
    · exact keeps_readReady ready fds hnodup (fun fd' hfd' => hfds fd' (List.mem_cons_of_mem _ hfd')) h

/-- Why the loop has ended. -/
def Over (timeoutSecs start : Int) (m : Mode) (r : Reading) : Ended → Prop
  | .timedOut => start + timeoutSecs * kSecond - m.last < kMilli
  | .done => m.pollFailed = true ∨ r.openFds ≤ 0

theorem tdiv_le_zero {n : Int} (h : n.tdiv kMilli ≤ 0) : n < kMilli := by
  by_contra hge
  have hpos : 0 < n.tdiv kMilli := by
    rw [Int.tdiv_eq_ediv_of_nonneg (by unfold kMilli at hge; omega)]
    unfold kMilli at hge ⊢
    omega
  omega

theorem Holds.now (h : Holds p q pid start r m) (now : Int) :
    Holds p q pid start r (m.afterNow now) :=
  { h with started := by rw [Mode.afterNow, h.started]; rfl }

theorem keeps_loop : ∀ (fuel : Nat) {r : Reading} {m : Mode}, Holds p q pid start r m →
    (discipline timeoutSecs).Keeps (loop (start + timeoutSecs * kSecond) fuel r)
      (fun x m => Holds p q pid start x.2 m ∧ Over timeoutSecs start m x.2 x.1) m
  | 0, _, _, _ => trivial
  | fuel + 1, r, m, h => by
    unfold loop
    split
    next hopen => exact ⟨h, .inr hopen⟩
    next =>
      refine Discipline.keeps_ask_bind.mpr ⟨.inr trivial, fun now => ?_⟩
      dsimp only
      split
      next hremaining => exact ⟨h.now now, tdiv_le_zero hremaining⟩
      next =>
        refine Discipline.keeps_ask_bind.mpr ⟨.inr fun fd hfd => h.fds ▸ hfd, fun answer => ?_⟩
        cases answer with
        | failed interrupted =>
          cases interrupted with
          | true => exact keeps_loop fuel { h.now now with }
          | false => exact ⟨{ h.now now with }, .inl rfl⟩
        | ready ready =>
          refine (keeps_readReady ready r.fds h.nodup (fun _ => id) { h.now now with }).bind ?_
          exact fun r' m' h' => keeps_loop fuel h'

/-! ## The end -/

/-- What the call gives back, and what it says about the child. -/
structure Reported (timeoutSecs : Int) (p q : Int × Int) (res : Result) (m : Mode) : Prop where
  stdOut : res.stdOut = m.got p.1
  killed : m.killed = true → res.exitCode = -1 ∧ res.stdErr = timeoutText timeoutSecs ∧
    ∃ start, m.started = some start ∧ start + timeoutSecs * kSecond - m.last < kMilli
  finished : m.killed = false → res.stdErr = m.got q.1 ∧
    (m.pollFailed = true ∨ p.1 ∈ m.ended ∧ q.1 ∈ m.ended) ∧
    ((∃ status, m.status = some status ∧ res.exitCode = exitCode (some status)) ∨
      m.waitFailed = true ∧ res.exitCode = 0)

/-- Nothing that the call has opened is open, and its child is reaped where `waitpid` could. -/
structure Released (m : Mode) : Prop where
  fds : m.fds = []
  child : m.child = none ∨ m.waitFailed = true

namespace Holds

theorem out_open (h : Holds p q pid start r m) : r.out = -1 ∨ r.out ∈ r.fds := by
  obtain hout | ⟨hout, -⟩ := h.out
  · exact .inr (mem_fds.mpr ⟨hout ▸ h.nonneg.1, .inl rfl⟩)
  · exact .inl hout

theorem err_open (h : Holds p q pid start r m) :
    r.err = -1 ∨ r.err ∈ r.fds ∧ r.err ≠ r.out := by
  obtain herr | ⟨herr, -⟩ := h.err
  · refine .inr ⟨mem_fds.mpr ⟨herr ▸ h.nonneg.2, .inr rfl⟩, ?_⟩
    obtain hout | ⟨hout, -⟩ := h.out
    · rw [herr, hout]
      exact h.ne.symm
    · have hnonneg := h.nonneg.2
      rw [herr, hout]
      omega
  · exact .inl herr

/-- Both are closed. -/
theorem fds_closed (h : Holds p q pid start r m) :
    (m.fds.filter (· ≠ r.out)).filter (· ≠ r.err) = [] := by
  rw [h.fds, List.filter_filter, List.filter_eq_nil_iff]
  intro fd hfd
  obtain ⟨-, rfl | rfl⟩ := mem_fds.mp hfd <;> simp

/-- No byte of a pipe is missing once it has ended. -/
theorem ended (h : Holds p q pid start r m) (hopen : r.openFds ≤ 0) :
    p.1 ∈ m.ended ∧ q.1 ∈ m.ended := by
  rw [h.openFds] at hopen
  have hnil : r.fds = [] := List.length_eq_zero_iff.mp (by omega)
  constructor
  · refine (h.out.resolve_left fun hout => ?_).2
    have hmem : r.out ∈ r.fds := mem_fds.mpr ⟨hout ▸ h.nonneg.1, .inl rfl⟩
    rw [hnil] at hmem
    cases hmem
  · refine (h.err.resolve_left fun herr => ?_).2
    have hmem : r.err ∈ r.fds := mem_fds.mpr ⟨herr ▸ h.nonneg.2, .inr rfl⟩
    rw [hnil] at hmem
    cases hmem

end Holds

/-- How the parent leaves. -/
def Left (timeoutSecs : Int) (p q : Int × Int) (res : Result) (m : Mode) : Prop :=
  m.pipes = [p, q] ∧ m.forked = true ∧ m.leaked = false ∧ Released m ∧ Reported timeoutSecs p q res m

theorem keeps_timedOut (h : Holds p q pid start r m)
    (hlate : start + timeoutSecs * kSecond - m.last < kMilli) :
    (discipline timeoutSecs).Keeps (finish pid timeoutSecs (.timedOut, r)) (Left timeoutSecs p q) m := by
  refine Discipline.keeps_ask_bind.mpr ⟨.inr ⟨h.child, start, h.started, hlate⟩, fun _ => ?_⟩
  refine Discipline.keeps_ask_bind.mpr ⟨.inr h.child, fun status => ?_⟩
  have hfds := Mode.afterWait_fds { m with killed := true } status
  refine Discipline.keeps_ask_bind.mpr ⟨.inr (h.out_open.imp_right fun hout => ?_), fun _ => ?_⟩
  · exact hfds ▸ h.fds ▸ hout
  refine Discipline.keeps_ask_bind.mpr ⟨.inr (h.err_open.imp_right fun herr => ?_), fun _ => ?_⟩
  · exact List.mem_filter.mpr ⟨hfds ▸ h.fds ▸ herr.1, decide_eq_true herr.2⟩
  have hclosed : ((Mode.afterWait { m with killed := true } status).fds.filter (· ≠ r.out)).filter
      (· ≠ r.err) = [] := by
    rw [hfds]
    exact h.fds_closed
  refine ⟨?_, ?_, ?_, ⟨hclosed, ?_⟩, ?_, fun _ => ⟨rfl, rfl, start, ?_, ?_⟩, fun hkilled => ?_⟩
  · exact (Mode.afterWait_pipes { m with killed := true } status).trans h.pipes
  · exact (Mode.afterWait_forked { m with killed := true } status).trans h.forked
  · exact (Mode.afterWait_leaked { m with killed := true } status).trans h.leaked
  · exact Mode.afterWait_child { m with killed := true } status
  · exact h.stdOut.trans (Mode.afterWait_got { m with killed := true } status p.1).symm
  · exact (Mode.afterWait_started { m with killed := true } status).trans h.started
  · exact (Mode.afterWait_last { m with killed := true } status).symm ▸ hlate
  · exact absurd ((Mode.afterWait_killed { m with killed := true } status).symm.trans hkilled)
      Bool.false_ne_true.symm

/-- A close that is skipped would have no effect. -/
theorem keeps_closeOpen {m : Mode} {Q : Mode → Prop} (hfd : fd = -1 ∨ fd ∈ m.fds)
    (hnonneg : ∀ fd ∈ m.fds, 0 ≤ fd) (hQ : Q { m with fds := m.fds.filter (· ≠ fd) }) :
    (discipline timeoutSecs).Keeps (closeOpen fd) (fun _ => Q) m := by
  unfold closeOpen
  split
  next => exact ⟨.inr hfd, fun _ => hQ⟩
  next hneg =>
    have hall : m.fds.filter (· ≠ fd) = m.fds := by
      refine List.filter_eq_self.mpr fun fd' hfd' => decide_eq_true fun heq => hneg ?_
      exact heq ▸ hnonneg fd' hfd'
    rw [hall] at hQ
    exact hQ

theorem keeps_done (h : Holds p q pid start r m) (hdone : m.pollFailed = true ∨ r.openFds ≤ 0) :
    (discipline timeoutSecs).Keeps (finish pid timeoutSecs (.done, r)) (Left timeoutSecs p q) m := by
  have hnonneg : ∀ fd ∈ m.fds, 0 ≤ fd := fun fd hfd => (mem_fds.mp (h.fds ▸ hfd)).1
  refine Discipline.keeps_bind.mpr (keeps_closeOpen (h.out_open.imp_right fun hout => h.fds ▸ hout) hnonneg ?_)
  refine Discipline.keeps_bind.mpr (keeps_closeOpen (h.err_open.imp_right fun herr => ?_) (fun fd hfd => ?_) ?_)
  · exact List.mem_filter.mpr ⟨h.fds ▸ herr.1, decide_eq_true herr.2⟩
  · exact hnonneg fd (List.mem_filter.mp hfd).1
  · refine Discipline.keeps_ask_bind.mpr ⟨.inr h.child, fun status => ?_⟩
    set m' : Mode := { m with fds := (m.fds.filter (· ≠ r.out)).filter (· ≠ r.err) } with hm'
    refine ⟨?_, ?_, ?_, ⟨?_, Mode.afterWait_child m' status⟩, ?_, fun hkilled => ?_, fun _ => ⟨?_, ?_, ?_⟩⟩
    · exact (Mode.afterWait_pipes m' status).trans h.pipes
    · exact (Mode.afterWait_forked m' status).trans h.forked
    · exact (Mode.afterWait_leaked m' status).trans h.leaked
    · exact (Mode.afterWait_fds m' status).trans h.fds_closed
    · exact h.stdOut.trans (Mode.afterWait_got m' status p.1).symm
    · have hfalse := (Mode.afterWait_killed m' status).trans h.killed
      exact absurd (hfalse.symm.trans hkilled) Bool.false_ne_true
    · exact h.stdErr.trans (Mode.afterWait_got m' status q.1).symm
    · exact hdone.imp (Mode.afterWait_pollFailed m' status).trans fun hopen =>
        (Mode.afterWait_ended m' status).symm ▸ h.ended hopen
    · exact Mode.afterWait_status m' status

theorem keeps_finish {x : Ended × Reading}
    (h : Holds p q pid start x.2 m ∧ Over timeoutSecs start m x.2 x.1) :
    (discipline timeoutSecs).Keeps (finish pid timeoutSecs x) (Left timeoutSecs p q) m := by
  obtain ⟨ended, r⟩ := x
  cases ended with
  | timedOut => exact keeps_timedOut h.1 h.2
  | done => exact keeps_done h.1 h.2

/-! ## The whole call -/

theorem keeps_parent (hm : m = { fds := [p.1, p.2, q.1, q.2], pipes := [p, q], forked := true, child := some pid })
    (hp : 0 ≤ p.1 ∧ p.1 ≠ p.2) (hq : 0 ≤ q.1 ∧ q.1 ≠ q.2)
    (hpq : q.1 ∉ [p.1, p.2] ∧ q.2 ∉ [p.1, p.2]) :
    (discipline timeoutSecs).Keeps (parent fuel timeoutSecs pid p q) (Left timeoutSecs p q) m := by
  subst hm
  simp only [List.mem_cons, List.not_mem_nil, or_false, not_or] at hpq
  obtain ⟨⟨hq₁, hq₂⟩, hq₃, hq₄⟩ := hpq
  have hfds : ([p.1, p.2, q.1, q.2].filter (· ≠ p.2)).filter (· ≠ q.2) =
      [p.1, q.1].filter (0 ≤ ·) := by
    simp [hp, hq, hq₂, hq₄, Ne.symm hq₃]
  refine Discipline.keeps_ask_bind.mpr ⟨.inr (.inr (by simp)), fun _ => ?_⟩
  refine Discipline.keeps_ask_bind.mpr ⟨.inr (.inr ?_), fun _ => ?_⟩
  · exact List.mem_filter.mpr ⟨by simp, decide_eq_true hq₄⟩
  · refine Discipline.keeps_ask_bind.mpr ⟨.inr trivial, fun start => ?_⟩
    suffices hholds : Holds p q pid start _ _ from
      (keeps_loop fuel hholds).bind fun x m h => keeps_finish h
    refine ⟨rfl, ⟨hp.1, hq.1⟩, Ne.symm hq₁, hfds, .inl rfl, .inl rfl, ?_, rfl, rfl, rfl, rfl, rfl, rfl, rfl⟩
    simp [Reading.fds, hp.1, hq.1]

theorem keeps_broken {α : Type} (h : m.broken = true) (prog : Program α) :
    (discipline timeoutSecs).Keeps prog (fun _ m => m.broken = true) m := by
  induction prog generalizing m with
  | pure a => exact h
  | throw e => trivial
  | call op k ih =>
    refine ⟨.inl h, fun a => ih a ?_⟩
    cases op with
    | pipe =>
      simp only [discipline, Mode.afterPipe]
      split
      · split
        · exact h
        · rfl
      · exact h
    | fork | poll | read =>
      simp only [discipline, Mode.afterFork, Mode.afterPoll, Mode.afterRead]
      split <;> exact h
    | waitpid pid => exact (Mode.afterWait_broken m a).trans h
    | _ => exact h

/-- What the call leaves behind. -/
structure Leaves (timeoutSecs : Int) (res : Result) (m : Mode) : Prop where
  released : m.leaked = false → Released m
  leaked : m.leaked = true → ∃ p, m.pipes = [p] ∧ m.fds = [p.1, p.2] ∧ m.child = none
  reported : ∀ p q, m.pipes = [p, q] → m.forked = true → Reported timeoutSecs p q res m

theorem Left.leaves {res : Result} (h : Left timeoutSecs p q res m) : Leaves timeoutSecs res m := by
  obtain ⟨hpipes, -, hleaked, hreleased, hreported⟩ := h
  refine ⟨fun _ => hreleased, fun hl => absurd (hleaked.symm.trans hl) Bool.false_ne_true, ?_⟩
  intro p' q' hpipes' _
  rw [hpipes, List.cons.injEq, List.cons.injEq] at hpipes'
  obtain ⟨rfl, rfl, -⟩ := hpipes'
  exact hreported

/-- Where there is no child, the four descriptors are closed. -/
theorem keeps_closed (e : String) (hp : p.1 ≠ p.2) (hq : q.1 ≠ q.2)
    (hpq : q.1 ∉ [p.1, p.2] ∧ q.2 ∉ [p.1, p.2]) :
    (discipline timeoutSecs).Keeps
      (do
        ask (.close p.1)
        ask (.close p.2)
        ask (.close q.1)
        ask (.close q.2)
        pure ⟨-1, [], Text.bytes ("fork() failed: " ++ e)⟩)
      (Leaves timeoutSecs) { fds := [p.1, p.2, q.1, q.2], pipes := [p, q] } := by
  simp only [List.mem_cons, List.not_mem_nil, or_false, not_or] at hpq
  obtain ⟨⟨hq₁, hq₂⟩, hq₃, hq₄⟩ := hpq
  have hfirst : [p.1, p.2, q.1, q.2].filter (· ≠ p.1) = [p.2, q.1, q.2] := by
    simp [hp.symm, hq₁, hq₃]
  have hsecond : [p.2, q.1, q.2].filter (· ≠ p.2) = [q.1, q.2] := by
    simp [hq₂, hq₄]
  have hthird : [q.1, q.2].filter (· ≠ q.1) = [q.2] := by
    simp [hq.symm]
  refine Discipline.keeps_ask_bind.mpr ⟨.inr (.inr (by simp)), fun _ => ?_⟩
  refine Discipline.keeps_ask_bind.mpr ⟨.inr (.inr ?_), fun _ => ?_⟩
  · exact List.mem_filter.mpr ⟨by simp, decide_eq_true hp.symm⟩
  · refine Discipline.keeps_ask_bind.mpr ⟨.inr (.inr ?_), fun _ => ?_⟩
    · refine List.mem_filter.mpr ⟨?_, decide_eq_true hq₂⟩
      exact List.mem_filter.mpr ⟨by simp, decide_eq_true hq₁⟩
    · refine Discipline.keeps_ask_bind.mpr ⟨.inr (.inr ?_), fun _ => ?_⟩
      · refine List.mem_filter.mpr ⟨List.mem_filter.mpr ⟨?_, decide_eq_true hq₄⟩, decide_eq_true hq.symm⟩
        exact List.mem_filter.mpr ⟨by simp, decide_eq_true hq₃⟩
      · refine ⟨fun _ => ⟨?_, .inl rfl⟩, nofun, nofun⟩
        change ((([p.1, p.2, q.1, q.2].filter (· ≠ p.1)).filter (· ≠ p.2)).filter (· ≠ q.1)).filter
          (· ≠ q.2) = []
        rw [hfirst, hsecond, hthird]
        simp

theorem keeps_run (fuel : Nat) (args : List String) (timeoutSecs : Int) :
    (discipline timeoutSecs).Keeps (run fuel args timeoutSecs)
      (fun res m => m.broken = true ∨ Leaves timeoutSecs res m) {} := by
  unfold run
  split
  · exact .inr ⟨fun _ => ⟨rfl, .inl rfl⟩, nofun, nofun⟩
  · refine Discipline.keeps_ask_bind.mpr ⟨.inr trivial, fun outPipe => ?_⟩
    cases outPipe with
    | error e => exact .inr ⟨fun _ => ⟨rfl, .inl rfl⟩, nofun, nofun⟩
    | ok p =>
      by_cases hp : ({} : Mode).Fresh p
      · have hmode : (discipline timeoutSecs).next {} ⟨.pipe, .ok p⟩ = { fds := [p.1, p.2], pipes := [p] } :=
          if_pos hp
        rw [hmode]
        refine Discipline.keeps_ask_bind.mpr ⟨.inr trivial, fun errPipe => ?_⟩
        cases errPipe with
        | error e => exact .inr ⟨nofun, fun _ => ⟨p, rfl, rfl, rfl⟩, nofun⟩
        | ok q =>
          by_cases hq : Mode.Fresh { fds := [p.1, p.2], pipes := [p] } q
          · have hmode : (discipline timeoutSecs).next { fds := [p.1, p.2], pipes := [p] } ⟨.pipe, .ok q⟩ =
                { fds := [p.1, p.2, q.1, q.2], pipes := [p, q] } := if_pos hq
            rw [hmode]
            refine Discipline.keeps_ask_bind.mpr ⟨.inr rfl, fun child => ?_⟩
            cases child with
            | error e => exact (keeps_closed e hp.2.2.1 hq.2.2.1 hq.2.2.2).mono fun _ _ => .inr
            | ok pid =>
              obtain ⟨hp₁, -, hpne, -⟩ := hp
              obtain ⟨hq₁, -, hqne, hpq⟩ := hq
              exact (keeps_parent rfl ⟨hp₁, hpne⟩ ⟨hq₁, hqne⟩ hpq).mono fun _ _ h => .inr h.leaves
          · have hbroken : ((discipline timeoutSecs).next { fds := [p.1, p.2], pipes := [p] }
                ⟨.pipe, .ok q⟩).broken = true := congrArg Mode.broken (if_neg hq)
            exact (keeps_broken hbroken _).mono fun _ _ => .inl
      · have hbroken : ((discipline timeoutSecs).next {} ⟨.pipe, .ok p⟩).broken = true :=
          congrArg Mode.broken (if_neg hp)
        exact (keeps_broken hbroken _).mono fun _ _ => .inl

/-- At each of its calls the process has what the call needs, and when it returns it has nothing left,
but for the first pipe where there is no second one. -/
theorem run_releases (fuel : Nat) (args : List String) (timeoutSecs : Int) :
    (∀ t op, Prog.Calls (run fuel args timeoutSecs) t op →
      (discipline timeoutSecs).permits ((discipline timeoutSecs).mode {} t) op) ∧
    ∀ t res, Prog.Runs (run fuel args timeoutSecs) t (.ok res) →
      ((discipline timeoutSecs).mode {} t).broken = false →
        (((discipline timeoutSecs).mode {} t).leaked = false →
          Released ((discipline timeoutSecs).mode {} t)) ∧
        (((discipline timeoutSecs).mode {} t).leaked = true →
          ∃ p, ((discipline timeoutSecs).mode {} t).pipes = [p] ∧
            ((discipline timeoutSecs).mode {} t).fds = [p.1, p.2] ∧
            ((discipline timeoutSecs).mode {} t).child = none) := by
  refine ⟨fun t op hc => (keeps_run fuel args timeoutSecs).calls hc, fun t res hr hbroken => ?_⟩
  have hleaves := ((keeps_run fuel args timeoutSecs).runs hr).resolve_left
    (Bool.eq_false_iff.mp hbroken)
  exact ⟨hleaves.released, hleaves.leaked⟩

/-- The child writes two bytes and ends. -/
def answers : List (Event Ans) :=
  [⟨.pipe, .ok (3, 4)⟩, ⟨.pipe, .ok (5, 6)⟩, ⟨.fork, .ok 77⟩, ⟨.close 4, ()⟩, ⟨.close 6, ()⟩,
    ⟨.now, (0 : Int)⟩, ⟨.now, (1 : Int)⟩, ⟨.poll [3, 5] 9999, .ready [3]⟩, ⟨.read 3, some [111, 107]⟩,
    ⟨.now, (2 : Int)⟩, ⟨.poll [3, 5] 9999, .ready [3, 5]⟩, ⟨.read 3, some []⟩, ⟨.close 3, ()⟩,
    ⟨.read 5, some []⟩, ⟨.close 5, ()⟩, ⟨.waitpid 77, some (.exited 0)⟩]

theorem runs_answers : Prog.Runs (run 4 ["date"] 10) answers (.ok ⟨0, [111, 107], []⟩) :=
  Prog.runs_iff_follow.mpr rfl

theorem run_releases_answers :
    Prog.Runs (run 4 ["date"] 10) answers (.ok ⟨0, [111, 107], []⟩) ∧
      Released ((discipline 10).mode {} answers) :=
  ⟨runs_answers, ((run_releases 4 ["date"] 10).2 _ _ runs_answers (by decide)).1 (by decide)⟩

end ShareFrame.Subprocess
