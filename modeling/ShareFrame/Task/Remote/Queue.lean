import Mathlib.Data.List.Basic
import Mathlib.Data.List.Flatten
import ShareFrame.Lib.Discipline
import ShareFrame.Lib.Machine
import ShareFrame.Lib.Mailbox
import ShareFrame.Task.Remote.Gates
import ShareFrame.Task.Task

/-!
# The queue of the remote commands

The bus thread puts the commands of the server into a queue; the thread of the task takes
one, handles it call by call, and takes the next. What leaves a command ends `_run`, and the
restart loop of the task begins it again with what is still queued.

Every command is handled once, in the order of arrival and not before the one in front of it
is over, and the answers that have gone out are in that order too (`answered_in_turn`).
-/

namespace ShareFrame.RemoteQueue

open Transition Mailbox RemoteCommand Interaction Prog

/-- A command that is over. -/
structure Done where
  msg : Json
  calls : List Event
  result : Except Error Unit

/-- Where the thread of the task is. -/
inductive Pc where
  /-- `while (!st.stop_requested())` of `Task::start` -/
  | start
  /-- `while (!st.stop_requested())` of `_run` -/
  | head
  | waiting
  /-- what is left of `_handle` -/
  | handling (rest : Remote Unit)
  /-- the handlers behind `_run` -/
  | failed
  | backoff (deadline : Nat)
  | exited
  | aborted

structure State where
  now : Nat := 0
  mailbox : Box Json := {}
  stopRequested : Bool := false
  pc : Pc := .start
  restarts : Restarts := {}
  startTime : Nat := 0
  /-- *ghost*: the calls for the command in hand -/
  history : List Event := []
  /-- *ghost* -/
  log : List Done := []

inductive Act where
  | tick (ticks : Nat)
  -- the bus thread
  | receive (msg : Json)
  | requestStop
  -- the thread of the task
  | spurious
  | next
  | answer (e : Event)

variable (timing : Timing) (cfg : DiagnosticsUploader.Config)

namespace State

/-- `_handle` is left. -/
def leave (s : State) (result : Except Error Unit) (pc : Pc) : State :=
  { s with
    mailbox := s.mailbox.finish
    pc
    history := []
    log := s.log ++ s.mailbox.hand.map fun msg => ⟨msg, s.history, result⟩ }

/-- The test of the wait, with the mutex: a stop only ends it where nothing is queued. -/
def test (s : State) : State :=
  match s.mailbox.queue, s.mailbox.pop with
  | msg :: _, some mailbox => { s with mailbox, pc := .handling (handle timing cfg msg) }
  | _, _ => if s.stopRequested then { s with pc := .exited } else { s with mailbox := s.mailbox.block }

/-- The next statement of the thread; `none` while it waits, and where an answer is due. -/
def next (s : State) : Option State :=
  match s.pc with
  | .start => some (if s.stopRequested then { s with pc := .exited } else { s with pc := .head, startTime := s.now })
  | .head => some { s with pc := if s.stopRequested then .exited else .waiting }
  | .waiting => if s.mailbox.blocked then none else some (s.test timing cfg)
  | .handling (.pure _) => some (s.leave (.ok ()) .head)
  | .handling (.throw e) => some (s.leave (.error e) .failed)
  | .handling (.call _ _) => none
  | .failed =>
    some <|
      if s.stopRequested then { s with pc := .exited }
      else
        match s.restarts.afterFailure (s.now - s.startTime) with
        | some (secs, restarts) => { s with restarts, pc := .backoff (s.now + secs * second) }
        | none => { s with pc := .aborted }
  | .backoff deadline => if deadline ≤ s.now ∨ s.stopRequested then some { s with pc := .start } else none
  | .exited | .aborted => none

/-- The stop flag that a command sees is the one of the task. -/
def tells (s : State) : Event → Bool
  | ⟨.stopRequested, stop⟩ => stop = s.stopRequested
  | _ => true

def answer (s : State) (e : Event) : Option State :=
  match s.pc with
  | .handling rest =>
    if s.tells e then
      (rest.answer e).map fun rest => { s with pc := .handling rest, history := s.history ++ [e] }
    else none
  | _ => none

/-- All calls of the task. -/
def calls (s : State) : List Event := s.log.flatMap (·.calls) ++ s.history

end State

def step (s : State) : Act → Option State
  | .tick ticks => some { s with now := s.now + ticks }
  -- the bus thread notifies before it lets go of the mutex
  | .receive msg => (s.mailbox.post msg).notify.map fun mailbox => { s with mailbox }
  | .requestStop => some { s with stopRequested := true, mailbox := s.mailbox.wake }
  | .spurious => if s.mailbox.blocked then some { s with mailbox := s.mailbox.wake } else none
  | .next => s.next timing cfg
  | .answer e => s.answer e

def machine : Machine State Act where
  Init s := s.mailbox = {} ∧ s.pc = .start ∧ s.history = [] ∧ s.log = []
  step := step timing cfg

/-! ## The answers to one command -/

variable {timing cfg}

/-- The command that an operation answers. -/
def answerId (op : Op) : Option Int :=
  match op with
  | .publish msg =>
    match msg.find "id" with
    | some (.int id) => if op.isAnswer then some id else none
    | _ => none
  | _ => none

/-- The commands that were answered. -/
def answered (t : List Event) : List Int := t.filterMap fun e => answerId e.1

/-- The command that a message asks for. -/
def idOf (msg : Json) : Option Int := (readCommand msg).toOption.map (·.id)

theorem answerId_eq_none {op : Op} (h : op.isAnswer = false) : answerId op = none := by
  cases op with
  | publish msg =>
    simp only [answerId, h]
    split <;> rfl
  | _ => rfl

theorem answerId_reply {id : Int} {status reason : String}
    (h : status = "accepted" ∨ status = "rejected") :
    answerId (.publish (commandResult id status reason)) = some id := by
  have hanswer : (Op.publish (commandResult id status reason)).isAnswer = true := by
    rw [isAnswer_reply]
    rcases h with rfl | rfl <;> rfl
  simp only [answerId, hanswer]
  rfl

/-- A command answers no other one, and none behind an answer. -/
def once (c : Command) : Discipline Ans (List Int) where
  permits ids op := ∀ id, answerId op = some id → ids = [] ∧ id = c.id
  next ids e := ids ++ (answerId e.1).toList

theorem mode_once {c : Command} (ids : List Int) (t : List Event) :
    (once c).mode ids t = ids ++ answered t := by
  induction t generalizing ids with
  | nil => exact (List.append_nil ids).symm
  | cons e t ih =>
    rw [Discipline.mode_cons, ih]
    cases h : answerId e.1 with
    | none => simp [once, answered, h]
    | some id => simp [once, answered, h]

theorem keeps_quiet {c : Command} {α : Type} {p : Remote α} (h : Uses (·.isAnswer = false) p)
    {ids : List Int} : (once c).Keeps p (fun _ ids' => ids' = ids) ids :=
  Discipline.keeps_of_uses h fun op hop =>
    ⟨fun id hid => absurd ((answerId_eq_none hop).symm.trans hid) nofun,
      fun a => by simp [once, answerId_eq_none hop]⟩

/-- The entry in the log of the board, and the reply. -/
theorem keeps_reply {c : Command} {text status reason : String}
    (h : status = "accepted" ∨ status = "rejected") :
    (once c).Keeps (event c text >>= fun _ => reply c.id status reason)
      (fun _ ids => ids = [c.id]) [] := by
  refine (keeps_quiet (looks_event.mono fun _ h => h.not_answer)).bind fun _ ids hids => ?_
  subst hids
  refine Discipline.keeps_ask.mpr ⟨fun id hid => ⟨rfl, ?_⟩, fun _ => ?_⟩
  · rw [answerId_reply h] at hid
    exact (Option.some.inj hid).symm
  · simp [once, answerId_reply h]

theorem keeps_perform (c : Command) :
    (once c).Keeps (perform timing cfg c) (fun _ ids => ids = [c.id]) [] := by
  refine Discipline.keeps_bind_of_runs (keeps_quiet (looks_gates.mono fun _ h => h.not_answer))
    fun t gate hgate hids => ?_
  rw [hids]
  cases hok : gate.ok with
  | false => exact keeps_reply (.inr rfl)
  | true =>
    have hwell := (passes_gates ⟨gate, hgate, hok⟩).1
    refine (keeps_reply (.inl rfl)).bind fun _ ids hids => ?_
    exact (keeps_quiet ((acts_act hwell).mono fun _ h => h.2)).mono fun _ _ h => h.trans hids

section

variable {msg : Json} {t : List Event}

/-- What is answered so far. -/
theorem answered_of_steps {rest : Remote Unit} (h : Steps (handle timing cfg msg) t rest) :
    (answered t).Sublist (idOf msg).toList := by
  cases hread : readCommand msg with
  | error e =>
    rw [handle_of_error hread] at h
    cases h
    exact List.nil_sublist _
  | ok c =>
    rw [handle_of_ok hread] at h
    have hmode := (keeps_perform c).mode_of (I := fun ids => ids.Sublist [c.id])
      (fun ids e hids hpermits => ?_) h (List.nil_sublist _)
    · rw [mode_once, List.nil_append] at hmode
      simpa [idOf, hread, Except.toOption] using hmode
    · cases hid : answerId e.1 with
      | none => simpa [once, hid] using hids
      | some id =>
        obtain ⟨rfl, rfl⟩ := hpermits id hid
        simp [once, hid]

/-- A command that is handled to its end is answered. -/
theorem answered_of_runs (h : Runs (handle timing cfg msg) t (.ok ())) :
    answered t = (idOf msg).toList := by
  cases hread : readCommand msg with
  | error e =>
    rw [handle_of_error hread] at h
    cases (runs_throw.mp h).2
  | ok c =>
    rw [handle_of_ok hread] at h
    have hmode := (keeps_perform c).runs h
    rw [mode_once, List.nil_append] at hmode
    simp [hmode, idOf, hread, Except.toOption]

end

/-! ## One command behind the other -/

variable {s s' : State}

variable (timing cfg) in
structure InTurn (s : State) : Prop where
  mailbox : s.mailbox.Ok
  batch : s.mailbox.batch = []
  owed : s.mailbox.owed = 0
  waiting : s.mailbox.blocked = true → s.pc = .waiting
  handled : s.mailbox.handled = s.log.map (·.msg)
  ran : ∀ x ∈ s.log, Runs (handle timing cfg x.msg) x.calls x.result
  busy : ∀ rest, s.pc = .handling rest →
    ∃ msg, s.mailbox.hand = [msg] ∧ Steps (handle timing cfg msg) s.history rest
  idle : (∀ rest, s.pc ≠ .handling rest) → s.mailbox.hand = [] ∧ s.history = []

/-- The thread goes on without a command. -/
theorem InTurn.goto (h : InTurn timing cfg s) {pc : Pc} (hbusy : ∀ rest, s.pc ≠ .handling rest)
    (hidle : ∀ rest, pc ≠ .handling rest) (hblocked : s.mailbox.blocked = false) :
    InTurn timing cfg { s with pc } :=
  { h with
    waiting := fun hb => absurd (hblocked.symm.trans hb) Bool.false_ne_true
    busy := fun rest hrest => absurd hrest (hidle rest)
    idle := fun _ => h.idle hbusy }

theorem InTurn.awake (h : InTurn timing cfg s) (hpc : s.pc ≠ .waiting) : s.mailbox.blocked = false :=
  Bool.eq_false_iff.mpr fun hb => hpc (h.waiting hb)

/-- A command is over. -/
theorem InTurn.leave (h : InTurn timing cfg s) {rest : Remote Unit} {result : Except Error Unit}
    {pc : Pc} (hpc : s.pc = .handling rest) (hrest : rest = lift result)
    (hidle : ∀ rest, pc ≠ .handling rest) : InTurn timing cfg (s.leave result pc) := by
  obtain ⟨msg, hhand, hsteps⟩ := h.busy rest hpc
  have hawake := h.awake (by rw [hpc]; nofun)
  refine ⟨h.mailbox.finish, h.batch, h.owed, fun hb => ?_, ?_, fun x hx => ?_,
    fun rest hrest => absurd hrest (hidle rest), fun _ => ⟨rfl, rfl⟩⟩
  · exact absurd (hawake.symm.trans hb) Bool.false_ne_true
  · simp [State.leave, Box.finish, h.handled, hhand]
  · simp only [State.leave, hhand, List.map_cons, List.map_nil, List.mem_append,
      List.mem_singleton] at hx
    rcases hx with hx | rfl
    · exact h.ran x hx
    · rwa [hrest] at hsteps

/-- A command is taken, or the thread blocks. -/
theorem InTurn.test (h : InTurn timing cfg s) (hpc : s.pc = .waiting)
    (hawake : s.mailbox.blocked = false) : InTurn timing cfg (s.test timing cfg) := by
  have hno : ∀ rest, s.pc ≠ .handling rest := fun rest => by rw [hpc]; nofun
  obtain ⟨hhand, hhistory⟩ := h.idle hno
  have hfree : s.mailbox.Free := ⟨hhand, h.batch⟩
  unfold State.test
  split
  next msg queue mailbox hqueue hpop =>
    have hok := h.mailbox.pop hfree hawake hpop
    simp only [Box.pop, hqueue, Option.some.injEq] at hpop
    subst hpop
    refine ⟨hok, h.batch, h.owed, fun hb => absurd (hawake.symm.trans hb) Bool.false_ne_true,
      h.handled, h.ran, fun rest hrest => ?_, fun hidle => absurd rfl (hidle _)⟩
    cases hrest
    exact ⟨msg, rfl, by rw [hhistory]; exact .nil _⟩
  next hempty =>
    have hqueue : s.mailbox.queue = [] := by
      cases hqueue : s.mailbox.queue with
      | nil => rfl
      | cons msg queue => exact (hempty msg queue _ hqueue (by rw [Box.pop, hqueue])).elim
    split
    · exact h.goto hno nofun hawake
    · exact ⟨h.mailbox.block hfree hqueue, h.batch, h.owed, fun _ => hpc, h.handled, h.ran, h.busy,
        h.idle⟩

theorem InTurn.next (h : InTurn timing cfg s) (hs : s.next timing cfg = some s') :
    InTurn timing cfg s' := by
  unfold State.next at hs
  split at hs
  next hpc =>
    have hno : ∀ rest, s.pc ≠ .handling rest := fun rest => by rw [hpc]; nofun
    have hawake := h.awake (by rw [hpc]; nofun)
    cases hs
    split
    · exact h.goto hno nofun hawake
    · have hhead : InTurn timing cfg { s with pc := .head } := h.goto hno nofun hawake
      exact { hhead with }
  next hpc =>
    cases hs
    refine h.goto (fun rest => by rw [hpc]; nofun) ?_ (h.awake (by rw [hpc]; nofun))
    split <;> nofun
  next hpc =>
    split at hs
    · cases hs
    next hawake =>
      cases hs
      exact h.test hpc (by simpa using hawake)
  next u hpc =>
    cases hs
    exact h.leave hpc rfl nofun
  next e hpc =>
    cases hs
    exact h.leave hpc rfl nofun
  next => cases hs
  next hpc =>
    have hno : ∀ rest, s.pc ≠ .handling rest := fun rest => by rw [hpc]; nofun
    have hawake := h.awake (by rw [hpc]; nofun)
    cases hs
    split
    · exact h.goto hno nofun hawake
    split
    next secs restarts _ =>
      have hbackoff : InTurn timing cfg { s with pc := .backoff (s.now + secs * second) } :=
        h.goto hno nofun hawake
      exact { hbackoff with }
    · exact h.goto hno nofun hawake
  next hpc =>
    split at hs
    · cases hs
      exact h.goto (fun rest => by rw [hpc]; nofun) nofun (h.awake (by rw [hpc]; nofun))
    · cases hs
  next => cases hs
  next => cases hs

theorem InTurn.answer {e : Event} (h : InTurn timing cfg s) (hs : s.answer e = some s') :
    InTurn timing cfg s' := by
  unfold State.answer at hs
  split at hs
  next rest hpc =>
    split at hs
    · obtain ⟨rest', hrest, rfl⟩ := Option.map_eq_some_iff.mp hs
      obtain ⟨msg, hhand, hsteps⟩ := h.busy rest hpc
      exact { h with
        waiting := fun hb => absurd (h.waiting hb) (by rw [hpc]; nofun)
        busy := fun rest'' heq => by
          cases heq
          exact ⟨msg, hhand, hsteps.append (answer_eq_some.mp hrest)⟩
        idle := fun hidle => absurd rfl (hidle rest') }
    · cases hs
  · cases hs

theorem inTurn_inductive : (machine timing cfg).Inductive (fun _ _ => True) (InTurn timing cfg) where
  init s := by
    rintro ⟨hbox, hpc, hhistory, hlog⟩
    refine ⟨hbox ▸ Box.ok_empty, hbox ▸ rfl, hbox ▸ rfl, fun hb => ?_, ?_, fun x hx => ?_,
      fun rest hrest => ?_, fun _ => ⟨hbox ▸ rfl, hhistory⟩⟩
    · rw [hbox] at hb
      cases hb
    · rw [hbox, hlog]
      rfl
    · rw [hlog] at hx
      cases hx
    · rw [hpc] at hrest
      cases hrest
  step s a s' h _ hs := by
    cases a with
    | tick ticks => cases hs; exact { h with }
    | receive msg =>
      have hs : (s.mailbox.post msg).notify.map (fun mailbox => { s with mailbox }) = some s' := hs
      obtain ⟨mailbox, hbox, rfl⟩ := Option.map_eq_some_iff.mp hs
      have hok := (h.mailbox.post msg).notify hbox
      simp only [Box.notify, Box.post, Option.some.injEq] at hbox
      subst hbox
      exact { h with mailbox := hok, waiting := fun hb => absurd hb Bool.false_ne_true }
    | requestStop =>
      cases hs
      exact { h with mailbox := h.mailbox.wake, waiting := fun hb => absurd hb Bool.false_ne_true }
    | spurious =>
      obtain ⟨-, hs⟩ := Option.ite_none_right_eq_some.mp hs
      cases hs
      exact { h with mailbox := h.mailbox.wake, waiting := fun hb => absurd hb Bool.false_ne_true }
    | next => exact h.next hs
    | answer e => exact h.answer hs

theorem answered_calls (s : State) :
    answered s.calls = s.log.flatMap (fun x => answered x.calls) ++ answered s.history := by
  simp only [State.calls, answered, List.filterMap_append, List.filterMap_flatMap]

/-- The answers go to what is over and in hand. -/
theorem InTurn.sublist (h : InTurn timing cfg s) :
    (answered s.calls).Sublist ((s.log.map (·.msg) ++ s.mailbox.hand).filterMap idOf) := by
  rw [answered_calls, List.filterMap_append, List.filterMap_map]
  refine List.Sublist.append ?_ ?_
  · rw [List.filterMap_eq_flatMap_toList]
    exact List.Sublist.flatMap_right _ fun x hx => answered_of_steps (h.ran x hx)
  · by_cases hpc : ∃ rest, s.pc = .handling rest
    · obtain ⟨rest, hpc⟩ := hpc
      obtain ⟨msg, hhand, hsteps⟩ := h.busy rest hpc
      rw [hhand, List.filterMap_eq_flatMap_toList, List.flatMap_singleton]
      exact answered_of_steps hsteps
    · rw [(h.idle fun rest hrest => hpc ⟨rest, hrest⟩).2]
      exact List.nil_sublist _

theorem InTurn.posted (h : InTurn timing cfg s) :
    s.mailbox.posted = s.log.map (·.msg) ++ (s.mailbox.hand ++ s.mailbox.queue) := by
  rw [h.mailbox.fifo, h.handled, h.batch, List.nil_append]

/-- Each command that is over was answered at most once, and exactly once where no exception gave
it up. -/
theorem InTurn.answered (h : InTurn timing cfg s) {x : Done} (hx : x ∈ s.log) :
    (answered x.calls).Sublist (idOf x.msg).toList ∧
      (x.result = .ok () → RemoteQueue.answered x.calls = (idOf x.msg).toList) :=
  ⟨answered_of_steps (h.ran x hx), fun hok => answered_of_runs (hok ▸ h.ran x hx)⟩

/-- The commands are over one behind the other in the order of their arrival, with the one in
hand behind them; the answers that have gone out are answers to them in that order, and each
command that no exception gave up was answered once. Where the thread waits for good, every command
is over. -/
theorem answered_in_turn (hr : (machine timing cfg).Reachable s) :
    s.mailbox.posted = s.log.map (·.msg) ++ (s.mailbox.hand ++ s.mailbox.queue) ∧
      (∀ x ∈ s.log, Runs (handle timing cfg x.msg) x.calls x.result) ∧
      (∀ rest, s.pc = .handling rest →
        ∃ msg, s.mailbox.hand = [msg] ∧ Steps (handle timing cfg msg) s.history rest) ∧
      (answered s.calls).Sublist (s.mailbox.posted.filterMap idOf) ∧
      (∀ x ∈ s.log, (answered x.calls).Sublist (idOf x.msg).toList ∧
        (x.result = .ok () → answered x.calls = (idOf x.msg).toList)) ∧
      (s.mailbox.blocked = true → s.log.map (·.msg) = s.mailbox.posted ∧
        answered s.calls = s.log.flatMap fun x => answered x.calls) := by
  have h := inTurn_inductive.of_reachable hr
  refine ⟨h.posted, h.ran, h.busy, h.sublist.trans ?_, fun _ => h.answered, fun hblocked => ?_⟩
  · rw [h.posted, ← List.append_assoc]
    exact (List.sublist_append_left _ _).filterMap idOf
  have hall : s.log.map (·.msg) = s.mailbox.posted :=
    h.handled.symm.trans (h.mailbox.handled_of_blocked hblocked h.owed)
  have hhistory : s.history = [] := (h.idle fun rest => by rw [h.waiting hblocked]; nofun).2
  rw [answered_calls, hhistory]
  exact ⟨hall, List.append_nil _⟩

/-- A command whose id is null, which throws, and one that nobody knows. -/
def twoCommands : List Json :=
  [.obj [("id", .null), ("command", .str "reboot")], .obj [("id", .int 7), ("command", .str "dance")]]

def unknown : Json := commandResult 7 "rejected" "unknown command"

/-- The task begins again a second after the exception. -/
def twoHandled : List Act :=
  twoCommands.map .receive ++
    [.next, .next, .next, .next, .next, .tick second, .next, .next, .next, .next,
      .answer ⟨.run ["shareframe-event", "remote", "#7 dance rejected (unknown command)"] 5,
        { exitCode := 0 }⟩, .answer ⟨.publish unknown, ()⟩, .next, .next, .next]

/-- The second command is over, and was not given up. -/
def danced (s : State) : Bool :=
  s.log.any fun x => x.msg = twoCommands[1] && x.result matches .ok ()

theorem answered_in_turn_two : ∃ s : State, s.mailbox.posted = twoCommands ∧
    s.log.map (·.msg) = twoCommands ∧ ∃ x ∈ s.log, x.msg = twoCommands[1] ∧ answered x.calls = [7] := by
  obtain ⟨s, hrun, hs⟩ := (machine {} uploads).exists_of_run {} twoHandled
    (fun s => s.mailbox.blocked && s.mailbox.posted = twoCommands && danced s) (by decide +kernel)
  simp only [Bool.and_eq_true, decide_eq_true_eq] at hs
  obtain ⟨⟨hblocked, hposted⟩, hdanced⟩ := hs
  obtain ⟨x, hx, hdone⟩ := List.any_eq_true.mp hdanced
  obtain ⟨hmsg, hok⟩ := Bool.and_eq_true_iff.mp hdone
  have hmsg := of_decide_eq_true hmsg
  have hresult : x.result = .ok () := by
    cases hr : x.result with
    | ok u => rfl
    | error e =>
      rw [hr] at hok
      cases hok
  have hr : (machine {} uploads).Reachable s := Machine.reachable_run twoHandled ⟨rfl, rfl, rfl, rfl⟩ hrun
  obtain ⟨-, -, -, -, hanswered, hall⟩ := answered_in_turn hr
  refine ⟨s, hposted, (hall hblocked).1.trans hposted, x, hx, hmsg, ?_⟩
  rw [(hanswered x hx).2 hresult, hmsg]
  rfl

end ShareFrame.RemoteQueue
