import ShareFrame.Lib.Machine
import ShareFrame.Lib.Mailbox
import ShareFrame.Lib.Places

/-!
# Tasks that run on request

A handler sets a flag under `mtx_` and notifies; the loop of the task clears the flag when
its wait is over, and runs. `PeriodicTask` runs before its first wait and after every
interval, `DisplayClear` after every wait, `MissingImageCheck` only on request, and it
lets an exception out to the restart loop. The flag is a mailbox whose whole content one
execution serves.

No request is lost or served by an execution that began before it (`served`).
-/

namespace ShareFrame.Requests

open Transition Mailbox

inductive Site where
  /-- `runNow_` -/
  | periodicTask
  /-- `checkRequested_` -/
  | missingImageCheck
  /-- `clearRequested_` -/
  | displayClear
  deriving DecidableEq, Repr

/-- The loop runs before it waits. -/
def Site.runsFirst : Site → Bool
  | .periodicTask => true
  | .missingImageCheck | .displayClear => false

/-- The wait ends by itself. -/
def Site.timed : Site → Bool
  | .periodicTask | .displayClear => true
  | .missingImageCheck => false

/-- The loop goes on behind an exception of the execution. -/
def Site.catches : Site → Bool
  | .periodicTask | .displayClear => true
  | .missingImageCheck => false

inductive Pc where
  /-- `while (!st.stop_requested())` -/
  | head
  | running
  | waiting
  /-- in the restart loop of `Task::start` -/
  | backoff
  | exited
  deriving DecidableEq, Repr

inductive Event where
  | requested
  | began
  | stopped
  deriving DecidableEq, Repr

/-- A request is known by its place in the log. -/
structure State where
  flag : Box Nat := {}
  stopRequested : Bool := false
  pc : Pc := .head
  /-- *ghost* -/
  log : List Event := []
  deriving DecidableEq

inductive Act where
  | request
  | notify
  | stop
  /-- a notification of `stop`, or none -/
  | spurious
  | head
  | wait
  | timeout
  | finish (threw : Bool)
  | restart
  deriving DecidableEq, Repr

namespace State

def run (s : State) : State := { s with pc := .running, log := s.log ++ [.began] }

/-- Behind the wait, still with `mtx_`. -/
def afterWait (s : State) : Site → State
  | .periodicTask => { s with flag := s.flag.grab, pc := .head }
  | .missingImageCheck =>
    if s.stopRequested then { s with pc := .exited } else { s with flag := s.flag.grab }.run
  | .displayClear =>
    if s.stopRequested then { s with flag := s.flag.grab, pc := .exited }
    else { s with flag := s.flag.grab }.run

end State

variable (site : Site)

def step (s : State) : Act → Option State
  | .request => some { s with flag := s.flag.post s.log.length, log := s.log ++ [.requested] }
  | .notify => s.flag.notify.map fun flag => { s with flag }
  | .stop => some { s with stopRequested := true, log := s.log ++ [.stopped] }
  | .spurious => if s.flag.blocked then some { s with flag := s.flag.wake } else none
  | .head =>
    if s.pc = .head then
      if s.stopRequested then some { s with pc := .exited }
      else if site.runsFirst then some s.run
      else some { s with pc := .waiting }
    else none
  | .wait =>
    if s.pc = .waiting ∧ s.flag.blocked = false then
      if s.stopRequested ∨ s.flag.queue ≠ [] then some (s.afterWait site)
      else some { s with flag := s.flag.block }
    else none
  | .timeout =>
    if s.pc = .waiting ∧ site.timed then some ({ s with flag := s.flag.wake }.afterWait site) else none
  | .finish threw =>
    if s.pc = .running then
      some { s with
        flag := s.flag.finish
        pc := if threw ∧ site.catches = false then .backoff
          else if site.runsFirst then .waiting else .head }
    else none
  | .restart => if s.pc = .backoff then some { s with pc := .head } else none

def machine : Machine State Act := ⟨fun s => s = {}, step site⟩

/-! ## Where a request is -/

/-- The execution that serves the request at this place has begun. -/
def Begun (log : List Event) (i : Nat) : Prop := ∃ j, i < j ∧ log[j]? = some .began

structure Logged (s : State) : Prop where
  posted : ∀ i, s.log[i]? = some .requested ↔ i ∈ s.flag.posted
  handled : ∀ i ∈ s.flag.handled, Begun s.log i
  stopped : .stopped ∈ s.log → s.stopRequested = true
  began : ∀ i j : Nat, s.log[i]? = some .stopped → s.log[j]? = some .began → j < i

structure Inv (s : State) : Prop where
  box : s.flag.Ok
  logged : Logged s
  blocked : s.flag.blocked = true → s.pc = .waiting
  free : s.pc = .waiting ∨ s.pc = .backoff ∨ s.pc = .head ∧ site.runsFirst = false → s.flag.hand = []
  batch : s.flag.batch = []
  running : s.pc = .running → ∀ i ∈ s.flag.hand, Begun s.log i
  coalesced : site = .missingImageCheck →
    s.log.count .began ≤ s.flag.handled.length + (if s.pc = .running then s.flag.hand.length else 0)

variable {site} {s s' : State} {a : Act} {log : List Event} {e : Event} {i : Nat}

theorem getElem?_concat_iff {x : Event} (h : e ≠ x) : (log ++ [e])[i]? = some x ↔ log[i]? = some x := by
  constructor
  · intro hx
    obtain ⟨-, hx⟩ | ⟨-, rfl⟩ := Places.getElem?_concat_cases hx
    · exact hx
    · exact absurd rfl h
  · intro hx
    obtain ⟨hi, -⟩ := List.getElem?_eq_some_iff.mp hx
    rw [List.getElem?_append_left hi]
    exact hx

theorem Begun.concat (h : Begun log i) (e : Event) : Begun (log ++ [e]) i := by
  obtain ⟨j, hj, hbegan⟩ := h
  obtain ⟨hlt, -⟩ := List.getElem?_eq_some_iff.mp hbegan
  exact ⟨j, hj, by rw [List.getElem?_append_left hlt]; exact hbegan⟩

theorem begun_concat (h : i < log.length) : Begun (log ++ [.began]) i :=
  ⟨log.length, h, List.getElem?_concat_length⟩

theorem Logged.lt_of_posted (h : Logged s) (hi : i ∈ s.flag.posted) : i < s.log.length := by
  obtain ⟨hlt, -⟩ := List.getElem?_eq_some_iff.mp ((h.posted i).mpr hi)
  exact hlt

/-- A step that leaves the log and what was posted and handled. -/
theorem Logged.of_eq (h : Logged s) (hlog : s'.log = s.log) (hposted : s'.flag.posted = s.flag.posted)
    (hhandled : s'.flag.handled = s.flag.handled) (hstop : s'.stopRequested = s.stopRequested) :
    Logged s' := by
  obtain ⟨h₁, h₂, h₃, h₄⟩ := h
  constructor
  · rwa [hlog, hposted]
  · rwa [hlog, hhandled]
  · rwa [hlog, hstop]
  · rwa [hlog]

theorem Logged.run (h : Logged s) (hstop : s.stopRequested = false) : Logged s.run where
  posted i := (getElem?_concat_iff (by simp)).trans (h.posted i)
  handled i hi := (h.handled i hi).concat _
  stopped hmem := by
    refine h.stopped ((List.mem_append.mp hmem).resolve_right ?_)
    simp
  began i j hi hj := by
    have hmem : Event.stopped ∈ s.log :=
      List.mem_of_getElem? ((getElem?_concat_iff (by simp)).mp hi)
    rw [h.stopped hmem] at hstop
    cases hstop

theorem Logged.request (h : Logged s) :
    Logged { s with flag := s.flag.post s.log.length, log := s.log ++ [.requested] } where
  posted i := by
    constructor
    · intro hi
      obtain ⟨-, hi⟩ | ⟨rfl, -⟩ := Places.getElem?_concat_cases hi
      · exact List.mem_append.mpr (.inl ((h.posted i).mp hi))
      · exact List.mem_append.mpr (.inr List.mem_cons_self)
    · intro hi
      obtain hi | hi := List.mem_append.mp hi
      · rw [List.getElem?_append_left (h.lt_of_posted hi)]
        exact (h.posted i).mpr hi
      · rw [List.mem_singleton.mp hi]
        exact List.getElem?_concat_length
  handled i hi := (h.handled i hi).concat _
  stopped hmem := by
    refine h.stopped ((List.mem_append.mp hmem).resolve_right ?_)
    simp
  began i j hi hj :=
    h.began i j ((getElem?_concat_iff (by simp)).mp hi) ((getElem?_concat_iff (by simp)).mp hj)

theorem Logged.stop (h : Logged s) :
    Logged { s with stopRequested := true, log := s.log ++ [.stopped] } where
  posted i := (getElem?_concat_iff (by simp)).trans (h.posted i)
  handled i hi := (h.handled i hi).concat _
  stopped _ := rfl
  began i j hi hj := by
    have hj : s.log[j]? = some .began := (getElem?_concat_iff (by simp)).mp hj
    obtain ⟨-, hi⟩ | ⟨rfl, -⟩ := Places.getElem?_concat_cases hi
    · exact h.began i j hi hj
    · exact (List.getElem?_eq_some_iff.mp hj).1

/-- The check is passed, with these requests in hand. -/
theorem Inv.run (hbox : s.flag.Ok) (hlogged : Logged s) (hstop : s.stopRequested = false)
    (hawake : s.flag.blocked = false) (hbatch : s.flag.batch = [])
    (hcount : site = .missingImageCheck →
      s.log.count .began < s.flag.handled.length + s.flag.hand.length) : Inv site s.run where
  box := hbox
  logged := hlogged.run hstop
  blocked hb := absurd (hawake.symm.trans hb) Bool.false_ne_true
  free hpc := by obtain hpc | hpc | ⟨hpc, -⟩ := hpc <;> cases hpc
  batch := hbatch
  running _ i hi := by
    refine begun_concat (hlogged.lt_of_posted ?_)
    rw [hbox.fifo]
    exact List.mem_append.mpr (.inr (List.mem_append.mpr (.inl hi)))
  coalesced hsite := by
    have hlt := hcount hsite
    simp only [State.run, List.count_append, List.count_singleton_self, if_true]
    omega

theorem Inv.not_running (h : Inv site s) (hpc : s.pc ≠ .running) (hsite : site = .missingImageCheck) :
    s.log.count .began ≤ s.flag.handled.length := by
  have hle := h.coalesced hsite
  rwa [if_neg hpc, Nat.add_zero] at hle

/-- The wait is over. -/
theorem Inv.afterWait (h : Inv site s) (hpc : s.pc = .waiting) (hawake : s.flag.blocked = false)
    (hover : site = .missingImageCheck → s.stopRequested = true ∨ s.flag.queue ≠ []) :
    Inv site (s.afterWait site) := by
  have hnot : s.pc ≠ .running := hpc ▸ by simp
  have hbox := h.box.grab ⟨h.free (.inl hpc), h.batch⟩ hawake
  cases site with
  | periodicTask =>
    refine ⟨hbox, h.logged.of_eq rfl rfl rfl rfl, fun hb => ?_, fun hor => ?_, h.batch, fun hrun => ?_,
      fun hsite => ?_⟩
    · exact absurd (hawake.symm.trans hb) Bool.false_ne_true
    · obtain hpc | hpc | ⟨-, hfirst⟩ := hor
      · cases hpc
      · cases hpc
      · cases hfirst
    · cases hrun
    · cases hsite
  | missingImageCheck =>
    rw [State.afterWait]
    split
    · refine ⟨h.box, h.logged.of_eq rfl rfl rfl rfl, fun hb => ?_, fun hor => ?_, h.batch, fun hrun => ?_,
        fun _ => ?_⟩
      · exact absurd (hawake.symm.trans hb) Bool.false_ne_true
      · obtain hpc | hpc | ⟨hpc, -⟩ := hor <;> cases hpc
      · cases hrun
      · exact h.not_running hnot rfl
    next hstop =>
      have hqueue := (hover rfl).resolve_left hstop
      refine .run hbox (h.logged.of_eq rfl rfl rfl rfl) (Bool.eq_false_iff.mpr hstop) hawake h.batch
        fun _ => ?_
      have hle := h.not_running hnot rfl
      have hpos := List.length_pos_iff.mpr hqueue
      simp only [Box.grab]
      omega
  | displayClear =>
    rw [State.afterWait]
    split
    · refine ⟨hbox, h.logged.of_eq rfl rfl rfl rfl, fun hb => ?_, fun hor => ?_, h.batch, fun hrun => ?_,
        fun hsite => ?_⟩
      · exact absurd (hawake.symm.trans hb) Bool.false_ne_true
      · obtain hpc | hpc | ⟨hpc, -⟩ := hor <;> cases hpc
      · cases hrun
      · cases hsite
    next hstop =>
      exact .run hbox (h.logged.of_eq rfl rfl rfl rfl) (Bool.eq_false_iff.mpr hstop) hawake h.batch
        fun hsite => by cases hsite

theorem Inv.step (h : Inv site s) (hs : step site s a = some s') : Inv site s' := by
  cases a with
  | request =>
    cases hs
    refine ⟨h.box.post _, h.logged.request, h.blocked, h.free, h.batch, ?_, ?_⟩
    · exact fun hpc i hi => (h.running hpc i hi).concat _
    · intro hsite
      rw [List.count_append]
      exact h.coalesced hsite
  | stop =>
    cases hs
    refine ⟨h.box, h.logged.stop, h.blocked, h.free, h.batch, ?_, ?_⟩
    · exact fun hpc i hi => (h.running hpc i hi).concat _
    · intro hsite
      rw [List.count_append]
      exact h.coalesced hsite
  | notify =>
    obtain ⟨flag, hflag, rfl⟩ := Option.map_eq_some_iff.mp hs
    have hbox := h.box.notify hflag
    unfold Box.notify at hflag
    split at hflag <;> cases hflag
    exact ⟨hbox, h.logged.of_eq rfl rfl rfl rfl, fun hb => absurd hb Bool.false_ne_true, h.free,
      h.batch, h.running, h.coalesced⟩
  | spurious =>
    obtain ⟨-, hs⟩ := Option.ite_none_right_eq_some.mp hs
    cases hs
    exact ⟨h.box.wake, h.logged.of_eq rfl rfl rfl rfl, fun hb => absurd hb Bool.false_ne_true, h.free,
      h.batch, h.running, h.coalesced⟩
  | head =>
    obtain ⟨hpc, hs⟩ := Option.ite_none_right_eq_some.mp hs
    have hawake : s.flag.blocked = false := by
      refine Bool.eq_false_iff.mpr fun hb => ?_
      have hwaiting := h.blocked hb
      rw [hpc] at hwaiting
      cases hwaiting
    split at hs
    · cases hs
      refine ⟨h.box, h.logged.of_eq rfl rfl rfl rfl, fun hb => ?_, fun hor => ?_, h.batch, nofun, fun hsite => ?_⟩
      · exact absurd (hawake.symm.trans hb) Bool.false_ne_true
      · obtain hpc | hpc | ⟨hpc, -⟩ := hor <;> cases hpc
      · exact h.not_running (hpc ▸ by simp) hsite
    next hstop =>
      split at hs
      next hfirst =>
        cases hs
        refine .run h.box h.logged (Bool.eq_false_iff.mpr hstop) hawake h.batch fun hsite => ?_
        rw [hsite] at hfirst
        cases hfirst
      next hfirst =>
        cases hs
        have hhand := h.free (.inr (.inr ⟨hpc, Bool.eq_false_iff.mpr hfirst⟩))
        exact ⟨h.box, h.logged.of_eq rfl rfl rfl rfl, fun _ => rfl, fun _ => hhand, h.batch, nofun,
          fun hsite => h.not_running (hpc ▸ by simp) hsite⟩
  | wait =>
    obtain ⟨⟨hpc, hawake⟩, hs⟩ := Option.ite_none_right_eq_some.mp hs
    split at hs
    next hover =>
      cases hs
      exact h.afterWait hpc hawake fun _ => hover
    next hover =>
      cases hs
      obtain ⟨-, hqueue⟩ := not_or.mp hover
      exact ⟨h.box.block ⟨h.free (.inl hpc), h.batch⟩ (Decidable.not_not.mp hqueue),
        h.logged.of_eq rfl rfl rfl rfl, fun _ => hpc, h.free, h.batch, h.running, h.coalesced⟩
  | timeout =>
    obtain ⟨⟨hpc, htimed⟩, hs⟩ := Option.ite_none_right_eq_some.mp hs
    cases hs
    have hwoken : Inv site { s with flag := s.flag.wake } :=
      ⟨h.box.wake, h.logged.of_eq rfl rfl rfl rfl, fun hb => absurd hb Bool.false_ne_true, h.free,
        h.batch, h.running, h.coalesced⟩
    refine hwoken.afterWait hpc rfl fun hsite => ?_
    rw [hsite] at htimed
    cases htimed
  | finish threw =>
    obtain ⟨hpc, hs⟩ := Option.ite_none_right_eq_some.mp hs
    cases hs
    refine ⟨h.box.finish, ⟨h.logged.posted, fun i hi => ?_, h.logged.stopped, h.logged.began⟩, fun hb => ?_,
      fun _ => rfl, h.batch, fun _ => List.forall_mem_nil _, fun hsite => ?_⟩
    · obtain hi | hi := List.mem_append.mp hi
      · exact h.logged.handled i hi
      · exact h.running hpc i hi
    · have hwaiting := h.blocked hb
      rw [hpc] at hwaiting
      cases hwaiting
    · have hle := h.coalesced hsite
      rw [if_pos hpc] at hle
      exact Nat.le_trans hle (Nat.le_add_right_of_le (Nat.le_of_eq List.length_append.symm))
  | restart =>
    obtain ⟨hpc, hs⟩ := Option.ite_none_right_eq_some.mp hs
    cases hs
    have hhand := h.free (.inr (.inl hpc))
    refine ⟨h.box, h.logged.of_eq rfl rfl rfl rfl, fun hb => ?_, fun _ => hhand, h.batch, nofun,
      fun hsite => h.not_running (hpc ▸ by simp) hsite⟩
    have hwaiting := h.blocked hb
    rw [hpc] at hwaiting
    cases hwaiting

theorem inv_inductive : (machine site).Inductive (fun _ _ => True) (Inv site) where
  init s h := by
    obtain rfl : s = {} := h
    refine ⟨Box.ok_empty, ⟨fun i => ?_, nofun, nofun, nofun⟩, nofun, fun _ => rfl, rfl, nofun, fun _ => ?_⟩
    · simp
    · exact Nat.le_refl 0
  step _ _ _ h _ hs := h.step hs

variable (site) in
/-- What the loop owes to its requests. -/
structure Served (s : State) : Prop where
  /-- A task that is blocked with no notification under way has begun an execution behind every
  request. -/
  blocked : s.flag.blocked = true → s.flag.owed = 0 → ∀ i, s.log[i]? = some .requested → Begun s.log i
  /-- In whichever state: so it has behind the requests that are not in hand and not waiting. -/
  handled : ∀ i, s.log[i]? = some .requested → Begun s.log i ∨ i ∈ s.flag.hand ∨ i ∈ s.flag.queue
  stopped : ∀ i j : Nat, s.log[i]? = some .stopped → s.log[j]? = some .began → j < i
  /-- `MissingImageCheck` runs on request alone. -/
  asked : site = .missingImageCheck → s.log.count .began ≤ s.flag.posted.length

theorem served (hr : (machine site).Reachable s) : Served site s := by
  have h := inv_inductive.of_reachable hr
  have hposted := h.box.fifo
  rw [h.batch, List.nil_append] at hposted
  refine ⟨fun hb howed i hi => ?_, fun i hi => ?_, h.logged.began, fun hsite => ?_⟩
  · have hmem := (h.logged.posted i).mp hi
    rw [← h.box.handled_of_blocked hb howed] at hmem
    exact h.logged.handled i hmem
  · have hmem := (h.logged.posted i).mp hi
    rw [hposted, List.mem_append, List.mem_append] at hmem
    exact hmem.imp_left (h.logged.handled i)
  · have hle := h.coalesced hsite
    have hlength := congrArg List.length hposted
    rw [List.length_append, List.length_append] at hlength
    split at hle <;> omega

/-- Two requests come while the task runs; one execution serves both. -/
theorem served_two :
    let acts : List Act :=
      [.head, .request, .request, .finish true, .wait, .head, .finish false, .notify, .notify, .wait]
    ∃ s, (machine .periodicTask).run {} acts = some s ∧ s.flag.blocked = true ∧
      s.log = [.began, .requested, .requested, .began] ∧ Served .periodicTask s := by
  intro acts
  have hrun : (machine .periodicTask).run {} acts = some _ := rfl
  exact ⟨_, hrun, rfl, rfl, served (Machine.reachable_run acts rfl hrun)⟩

end ShareFrame.Requests
