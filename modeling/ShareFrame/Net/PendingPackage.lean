import Mathlib.Logic.Function.Basic
import ShareFrame.Lib.Machine
import ShareFrame.Task.Remote.Gates

/-!
# The pending package

Calls of `collectAndUpload` and `captureBeforeReboot`, made by two services, share
the file of the pending package. Each call runs its program; between any two of its
operations the others go on. A call reads the path, posts what it read and removes
the path, whatever lies there by then. No package is lost, and no report of
`captureBeforeReboot` is wrong, if the call finds at the removal what it has read,
and has posted what it captured (`kept_of_undisturbed`).
-/

namespace ShareFrame.DiagnosticsUploader.Pending

open RemoteCommand Interaction Prog Transition

inductive Call where
  | collectAndUpload (trigger : String) (commandId : Option Int)
  | captureBeforeReboot (commandId : Int)
  deriving DecidableEq, Repr

variable (cfg : Config)

def Call.prog : Call → Remote Result
  | .collectAndUpload trigger commandId => DiagnosticsUploader.collectAndUpload cfg trigger commandId
  | .captureBeforeReboot commandId => DiagnosticsUploader.captureBeforeReboot cfg commandId

/-- The command that writes the pending package. -/
def capture : Op := .run ["shareframe-diag", "--out", cfg.pendingPath] kCollectTimeoutSecs

/-- A call under way, or ended. -/
structure Thread where
  call : Call
  /-- what is left of its program -/
  rest : Remote Result
  /-- *ghost*: the calls that were answered -/
  history : List Event := []
  /-- the package that its `shareframe-diag` has written -/
  captured : Option String := none

structure State where
  /-- the content of `pendingPath` -/
  file : Option String
  threads : Nat → Option Thread := fun _ => none
  /-- *ghost*: what the server took -/
  accepted : List String := []
  /-- *ghost*: what was removed from the path -/
  removed : List String := []

inductive Act where
  | start (i : Nat) (call : Call)
  /-- `shareframe-diag` of this call puts a package in place -/
  | write (i : Nat) (package : String)
  /-- An operation of this call ends. Of an upload it says whether the server took the package, of a
  removal whether the file is gone. -/
  | answer (i : Nat) (e : Event) (done : Bool)

/-- The answers that an operation can get. A read of a path that cannot be opened gives nothing. -/
def possible (file captured : Option String) (done : Bool) : Event → Bool
  | ⟨.run args secs, res⟩ => .run args secs ≠ capture cfg || res.exitCode ≠ 0 || captured.isSome
  | ⟨.packageExists _, found⟩ => found = none || found = some file.isSome
  | ⟨.readPackage _, package⟩ => package = "" || some package = file
  | ⟨.post _ _, res⟩ => !res.ok || done
  | _ => true

/-- The package that the server has taken. -/
def taken (e : Event) (done : Bool) : List String :=
  match e.1 with
  | .post _ package => if done then [package] else []
  | _ => []

def isRemoval : Op → Bool
  | .removePackage _ => true
  | _ => false

def State.set (s : State) (i : Nat) (th : Thread) : State :=
  { s with threads := Function.update s.threads i (some th) }

def step (s : State) : Act → Option State
  | .start i c =>
    if (s.threads i).isNone then some (s.set i { call := c, rest := c.prog cfg }) else none
  | .write i package => (s.threads i).bind fun th =>
      if th.rest.next = some (capture cfg) then
        some { s.set i { th with captured := some package } with file := some package }
      else none
  | .answer i e done => (s.threads i).bind fun th => (th.rest.answer e).bind fun rest =>
      if possible cfg s.file th.captured done e then
        let s' := s.set i { th with rest, history := th.history ++ [e] }
        some (if isRemoval e.1 && done then
          { s' with file := none, removed := s.file.toList ++ s.removed }
        else { s' with accepted := taken e done ++ s.accepted })
      else none

/-- No call is under way; a package may be left. -/
def Init (s : State) : Prop :=
  (∀ i, s.threads i = none) ∧ s.accepted = [] ∧ s.removed = []

def machine : Machine State Act := ⟨Init, step cfg⟩

/-- Nothing is removed unsent, and no `captureBeforeReboot` reports another package than its own. -/
structure Kept (s : State) : Prop where
  sent : ∀ package ∈ s.removed, package ∈ s.accepted
  reported : ∀ i th commandId r, s.threads i = some th → th.call = .captureBeforeReboot commandId →
    th.rest = .pure r → r.ok = true → ∃ package ∈ th.captured, package ∈ s.accepted

/-- What a call has read from the path. -/
def readIn (t : List Event) : Option String :=
  t.findSome? fun
    | ⟨.readPackage _, package⟩ => some package
    | _ => none

/-- A call that removes the path finds there what it has read, or nothing; and a
`captureBeforeReboot` whose upload is accepted has read what it captured. -/
def Undisturbed (s : State) : Act → Bool
  | .answer i ⟨.removePackage _, _⟩ done =>
    !done || s.file = none || s.file = (s.threads i).bind (readIn ·.history)
  | .answer i ⟨.post _ _, res⟩ _ =>
    !res.ok || (s.threads i).all fun th => th.captured = none || th.captured = readIn th.history
  | _ => true

variable {cfg}

/-! ## One call -/

/-- Leaves the path as it is. -/
def Spares (cfg : Config) (op : Op) : Prop := isRemoval op = false ∧ op ≠ capture cfg

theorem spares_post {package trigger : String} {commandId : Option Int} :
    Uses (Spares cfg) (post cfg package trigger commandId) := by
  refine .bind (.ask ⟨rfl, nofun⟩) fun headers => ?_
  match headers with
  | none => exact .throw
  | some none => exact .pure
  | some (some _) =>
    refine .bind (.ask ⟨rfl, nofun⟩) fun resp => ?_
    split
    · refine .bind (.ask ⟨rfl, nofun⟩) fun done => ?_
      cases done
      exacts [.throw, .pure]
    · split <;> exact .pure

theorem spares_collect {trigger : String} {commandId : Option Int} :
    Uses (Spares cfg) (collect cfg trigger commandId) := by
  refine .bind (.ask ⟨rfl, by simp [capture]⟩) fun res => ?_
  split
  exacts [.pure, spares_post]

/-- The server has answered the upload of what was read. -/
def Posted (t : List Event) : Prop :=
  ∃ package url, ∃ resp : HTTPClient.HttpResponse, readIn t = some package ∧ resp.ok = true ∧
    ⟨.post url package, resp⟩ ∈ t

theorem posted_of_uploadPending {commandId : Option Int} {t : List Event} {path : String}
    (h : Calls (uploadPending cfg commandId) t (.removePackage path)) : Posted t := by
  obtain ⟨-, hop⟩ | ⟨package, t', rfl, hrest⟩ := calls_ask_bind.mp h
  · cases hop
  obtain hpost | ⟨result, t₁, t₂, rfl, hpost, hremove⟩ := calls_bind.mp hrest
  · cases (spares_post _ _ hpost).1
  · cases hok : result.ok with
    | false =>
      rw [if_neg (by simp [hok])] at hremove
      exact absurd hremove calls_pure
    | true =>
      obtain ⟨resp, hresp, hmem⟩ := runs_post hpost hok
      exact ⟨package, _, resp, rfl, hresp, List.mem_cons_of_mem _ (List.mem_append_left _ hmem)⟩

/-- A `captureBeforeReboot` that reports success has captured a package, and posted what it read. -/
theorem posted_of_reported {commandId : Int} {t : List Event} {r : Result}
    (h : Runs (captureBeforeReboot cfg commandId) t (.ok r)) (hok : r.ok = true) :
    Posted t ∧ ∃ res : SubprocessResult, res.exitCode = 0 ∧ ⟨capture cfg, res⟩ ∈ t := by
  obtain ⟨res, t₁, rfl, h₁⟩ := runs_ask_bind.mp h
  split at h₁
  · obtain ⟨-, he⟩ := runs_pure.mp h₁
    cases he
    cases hok
  next hcode =>
    obtain ⟨package, t₂, rfl, h₂⟩ := runs_ask_bind.mp h₁
    obtain ⟨e, he, -⟩ | ⟨result, t₃, t₄, rfl, hpost, hrest⟩ := runs_bind.mp h₂
    · cases he
    have hresult : result.ok = true := by
      split at hrest
      · assumption
      · obtain ⟨-, he⟩ := runs_pure.mp hrest
        cases he
        exact hok
    obtain ⟨resp, hresp, hmem⟩ := runs_post hpost hresult
    exact ⟨⟨package, _, resp, rfl, hresp,
      List.mem_cons_of_mem _ (List.mem_cons_of_mem _ (List.mem_append_left _ hmem))⟩,
      res, not_not.mp hcode, List.mem_cons_self⟩

/-- Every removal comes behind an upload. -/
theorem Call.posted {c : Call} {t : List Event} {path : String}
    (h : Calls (c.prog cfg) t (.removePackage path)) : Posted t := by
  cases c with
  | captureBeforeReboot id =>
    obtain ⟨-, hop⟩ | ⟨res, t', rfl, hrest⟩ := calls_ask_bind.mp h
    · cases hop
    split at hrest
    · exact absurd hrest calls_pure
    · obtain ⟨package, url, resp, hread, hok, hmem⟩ := posted_of_uploadPending hrest
      exact ⟨package, url, resp, hread, hok, List.mem_cons_of_mem _ hmem⟩
  | collectAndUpload trigger id =>
    obtain ⟨-, hop⟩ | ⟨found, t', rfl, hrest⟩ := calls_ask_bind.mp h
    · cases hop
    match found, hrest with
    | none, hrest => exact absurd hrest calls_throw
    | some false, hrest => cases (spares_collect _ _ hrest).1
    | some true, hrest =>
      obtain hpending | ⟨result, t₁, t₂, rfl, -, hcollect⟩ := calls_bind.mp hrest
      · obtain ⟨package, url, resp, hread, hok, hmem⟩ := posted_of_uploadPending hpending
        exact ⟨package, url, resp, hread, hok, List.mem_cons_of_mem _ hmem⟩
      · cases (spares_collect _ _ hcollect).1

theorem spares_uploadPending {commandId : Option Int} :
    Uses (· ≠ capture cfg) (uploadPending cfg commandId) := by
  refine .bind (.ask nofun) fun package =>
    .bind (spares_post.mono fun _ h => h.2) fun result => ?_
  split
  exacts [.bind (.ask nofun) fun _ => .pure, .pure]

/-- A package is written before anything else. -/
theorem Call.eq_nil_of_capture {c : Call} {t : List Event} (h : Calls (c.prog cfg) t (capture cfg)) :
    t = [] := by
  cases c with
  | captureBeforeReboot id =>
    obtain ⟨rfl, -⟩ | ⟨res, t', rfl, hrest⟩ := calls_ask_bind.mp h
    · rfl
    split at hrest
    · exact absurd hrest calls_pure
    · exact absurd rfl (spares_uploadPending _ _ hrest)
  | collectAndUpload trigger id =>
    obtain ⟨rfl, -⟩ | ⟨found, t', rfl, hrest⟩ := calls_ask_bind.mp h
    · rfl
    match found, hrest with
    | none, hrest => exact absurd hrest calls_throw
    | some false, hrest => exact absurd rfl (spares_collect _ _ hrest).2
    | some true, hrest =>
      obtain hpending | ⟨result, t₁, t₂, rfl, -, hcollect⟩ := calls_bind.mp hrest
      · exact absurd rfl (spares_uploadPending _ _ hpending)
      · exact absurd rfl (spares_collect _ _ hcollect).2

/-! ## Runs -/

variable {s s' : State} {a : Act}

/-- What a step does to the calls. -/
inductive Effect (cfg : Config) (s : State) : Act → State → Prop where
  | start {i : Nat} (c : Call) (hi : s.threads i = none) :
    Effect cfg s (.start i c) (s.set i { call := c, rest := c.prog cfg })
  | write {i : Nat} {th : Thread} (package : String) (hi : s.threads i = some th)
    (hnext : th.rest.next = some (capture cfg)) :
    Effect cfg s (.write i package)
      { s.set i { th with captured := some package } with file := some package }
  | remove {i : Nat} {th : Thread} {rest : Remote Result} (path : String) (hi : s.threads i = some th)
    (hrest : Steps th.rest [⟨.removePackage path, ()⟩] rest) :
    Effect cfg s (.answer i ⟨.removePackage path, ()⟩ true)
      { s.set i { th with rest, history := th.history ++ [⟨.removePackage path, ()⟩] } with
        file := none, removed := s.file.toList ++ s.removed }
  | answer {i : Nat} {th : Thread} {rest : Remote Result} {e : Event} {done : Bool}
    (hi : s.threads i = some th) (hrest : Steps th.rest [e] rest)
    (hpossible : possible cfg s.file th.captured done e = true) :
    Effect cfg s (.answer i e done)
      { s.set i { th with rest, history := th.history ++ [e] } with
        accepted := taken e done ++ s.accepted }

theorem effect_of_step (hs : step cfg s a = some s') : Effect cfg s a s' := by
  cases a with
  | start i c =>
    obtain ⟨hi, hs⟩ := Option.ite_none_right_eq_some.mp hs
    cases hs
    exact .start c (Option.isNone_iff_eq_none.mp hi)
  | write i package =>
    obtain ⟨th, hi, hs⟩ := Option.bind_eq_some_iff.mp hs
    obtain ⟨hnext, hs⟩ := Option.ite_none_right_eq_some.mp hs
    cases hs
    exact .write package hi hnext
  | answer i e done =>
    obtain ⟨th, hi, hs⟩ := Option.bind_eq_some_iff.mp hs
    obtain ⟨rest, hrest, hs⟩ := Option.bind_eq_some_iff.mp hs
    obtain ⟨hpossible, hs⟩ := Option.ite_none_right_eq_some.mp hs
    have hsteps := answer_eq_some.mp hrest
    cases hs
    by_cases hremoval : (isRemoval e.1 && done) = true
    · obtain ⟨op, ans⟩ := e
      rw [if_pos hremoval]
      cases op with
      | removePackage path =>
        obtain rfl : done = true := by simpa [isRemoval] using hremoval
        exact .remove path hi hsteps
      | _ => cases hremoval
    · rw [if_neg hremoval]
      exact .answer hi hsteps hpossible

/-- What was read is what was captured. -/
def Own (captured : Option String) (t : List Event) : Prop := captured = none ∨ captured = readIn t

/-- The first read stays. -/
theorem Own.append {captured : Option String} {t : List Event} (h : Own captured t) (t' : List Event) :
    Own captured (t ++ t') := by
  obtain h | h := h
  · exact .inl h
  · cases captured with
    | none => exact .inl rfl
    | some package =>
      refine .inr ?_
      rw [readIn, List.findSome?_append]
      change some package = (readIn t).or _
      rw [← h, Option.some_or]

/-- Where a call is, and what became of its package. -/
structure Sound (cfg : Config) (accepted : List String) (th : Thread) : Prop where
  steps : Steps (th.call.prog cfg) th.history th.rest
  accepts : ∀ url package, ∀ res : HTTPClient.HttpResponse, ⟨.post url package, res⟩ ∈ th.history →
    res.ok = true → package ∈ accepted
  own : ∀ url package, ∀ res : HTTPClient.HttpResponse, ⟨.post url package, res⟩ ∈ th.history →
    res.ok = true → Own th.captured th.history
  wrote : ∀ res : SubprocessResult, ⟨capture cfg, res⟩ ∈ th.history → res.exitCode = 0 →
    th.captured.isSome

namespace Sound

variable {accepted accepted' : List String} {th : Thread} {rest : Remote Result} {e : Event}

theorem mono (h : Sound cfg accepted th) (hsub : accepted ⊆ accepted') : Sound cfg accepted' th :=
  { h with accepts := fun url package res hmem hok => hsub (h.accepts url package res hmem hok) }

theorem start (c : Call) : Sound cfg accepted { call := c, rest := c.prog cfg } where
  steps := .nil _
  accepts _ _ _ hmem := absurd hmem List.not_mem_nil
  own _ _ _ hmem := absurd hmem List.not_mem_nil
  wrote _ hmem := absurd hmem List.not_mem_nil

theorem history_nil (h : Sound cfg accepted th) (hnext : th.rest.next = some (capture cfg)) :
    th.history = [] := by
  obtain ⟨k, hk⟩ := next_eq_some.mp hnext
  exact Call.eq_nil_of_capture ⟨k, hk ▸ h.steps⟩

theorem write (h : Sound cfg accepted th) (hnext : th.rest.next = some (capture cfg))
    (package : String) : Sound cfg accepted { th with captured := some package } where
  steps := h.steps
  accepts := h.accepts
  own url package' res hmem := by rw [h.history_nil hnext] at hmem; cases hmem
  wrote _ _ _ := rfl

/-- Behind an answer, where only the last event is new. -/
theorem answer (h : Sound cfg accepted th) (hrest : Steps th.rest [e] rest)
    (haccepts : ∀ url package, ∀ res : HTTPClient.HttpResponse, e = ⟨.post url package, res⟩ →
      res.ok = true → package ∈ accepted ∧ Own th.captured th.history)
    (hwrote : ∀ res : SubprocessResult, e = ⟨capture cfg, res⟩ → res.exitCode = 0 →
      th.captured.isSome) :
    Sound cfg accepted { th with rest, history := th.history ++ [e] } where
  steps := h.steps.append hrest
  accepts url package res hmem hok := by
    obtain hmem | hmem := List.mem_append.mp hmem
    · exact h.accepts url package res hmem hok
    · exact (haccepts url package res (List.mem_singleton.mp hmem).symm hok).1
  own url package res hmem hok := by
    obtain hmem | hmem := List.mem_append.mp hmem
    · exact (h.own url package res hmem hok).append [e]
    · exact (haccepts url package res (List.mem_singleton.mp hmem).symm hok).2.append [e]
  wrote res hmem hcode := by
    obtain hmem | hmem := List.mem_append.mp hmem
    · exact h.wrote res hmem hcode
    · exact hwrote res (List.mem_singleton.mp hmem).symm hcode

theorem calls (h : Sound cfg accepted th) (hrest : Steps th.rest [e] rest) :
    Calls (th.call.prog cfg) th.history e.1 :=
  (h.steps.append hrest).calls

/-- The package that the call has read was taken. -/
theorem read_mem (h : Sound cfg accepted th) {path : String}
    (hcalls : Calls (th.call.prog cfg) th.history (.removePackage path)) :
    ∃ package, readIn th.history = some package ∧ package ∈ accepted := by
  obtain ⟨package, url, resp, hread, hok, hmem⟩ := Call.posted hcalls
  exact ⟨package, hread, h.accepts url package resp hmem hok⟩

/-- A `captureBeforeReboot` that reports success. -/
theorem reported (h : Sound cfg accepted th) {commandId : Int} {r : Result}
    (hcall : th.call = .captureBeforeReboot commandId) (hrest : th.rest = .pure r)
    (hok : r.ok = true) : ∃ package ∈ th.captured, package ∈ accepted := by
  have hruns : Runs (captureBeforeReboot cfg commandId) th.history (.ok r) := by
    have hsteps := h.steps
    rw [hcall, hrest] at hsteps
    exact hsteps
  obtain ⟨⟨package, url, resp, hread, hresp, hpost⟩, res, hcode, hrun⟩ := posted_of_reported hruns hok
  have hsome := h.wrote res hrun hcode
  obtain hnone | hown := h.own _ _ _ hpost hresp
  · rw [hnone] at hsome
    cases hsome
  · exact ⟨package, hown.trans hread, h.accepts _ _ _ hpost hresp⟩

end Sound

structure Inv (cfg : Config) (s : State) : Prop where
  sound : ∀ i th, s.threads i = some th → Sound cfg s.accepted th
  sent : ∀ package ∈ s.removed, package ∈ s.accepted

/-- The call that moved, and the others. -/
theorem sound_set {i : Nat} {th : Thread} (h : ∀ j th, s.threads j = some th → Sound cfg s'.accepted th)
    (hth : Sound cfg s'.accepted th) (hs' : s'.threads = (s.set i th).threads) :
    ∀ j th, s'.threads j = some th → Sound cfg s'.accepted th := by
  intro j th' hj
  rw [hs'] at hj
  replace hj : Function.update s.threads i (some th) j = some th' := hj
  rw [Function.update_apply] at hj
  split at hj
  · cases hj
    exact hth
  · exact h j th' hj

theorem Inv.step (h : Inv cfg s) (hG : Undisturbed s a) (hs : step cfg s a = some s') :
    Inv cfg s' := by
  cases effect_of_step hs with
  | start c hi => exact ⟨sound_set h.sound (.start c) rfl, h.sent⟩
  | write package hi hnext =>
    exact ⟨sound_set h.sound ((h.sound _ _ hi).write hnext package) rfl, h.sent⟩
  | @remove i th rest path hi hrest =>
    have hth := h.sound _ _ hi
    refine ⟨sound_set h.sound (hth.answer hrest nofun nofun) rfl, fun package hmem => ?_⟩
    obtain hmem | hmem := List.mem_append.mp hmem
    · -- what lies there is what the call has read
      obtain ⟨read, hread, haccepted⟩ := hth.read_mem (hth.calls hrest)
      have hfile : s.file = some package := Option.mem_toList.mp hmem
      have hG : s.file = none ∨ s.file = readIn th.history := by simpa [Undisturbed, hi] using hG
      rw [hfile, hread] at hG
      obtain rfl : package = read := by simpa using hG
      exact haccepted
    · exact h.sent package hmem
  | @answer i th rest e done hi hrest hpossible =>
    have hsub : s.accepted ⊆ taken e done ++ s.accepted := List.subset_append_right _ _
    refine ⟨sound_set (fun j th hj => (h.sound j th hj).mono hsub)
      (((h.sound _ _ hi).mono hsub).answer hrest ?_ ?_) rfl, fun package hmem => hsub (h.sent package hmem)⟩
    · rintro url package res rfl hok
      have hdone : done = true := by simpa [possible, hok] using hpossible
      exact ⟨List.mem_append_left _ (by simp [taken, hdone]), by simpa [Undisturbed, Own, hok, hi] using hG⟩
    · rintro res rfl hcode
      simpa [possible, capture, hcode] using hpossible

theorem inductive_inv : (machine cfg).Inductive (fun s a => Undisturbed s a) (Inv cfg) where
  init s hs := by
    obtain ⟨hthreads, -, hremoved⟩ := hs
    constructor
    · intro i th hi
      rw [hthreads] at hi
      cases hi
    · rw [hremoved]
      nofun
  step _ _ _ hI hG hs := hI.step hG hs

/-- In a run in which every call finds at its removal what it has read, and each `captureBeforeReboot`
whose upload is accepted has read what it captured, no evidence is lost and no report is wrong. -/
theorem kept_of_undisturbed (h : (machine cfg).ReachableBy (fun s a => Undisturbed s a) s) : Kept s := by
  have hI := inductive_inv.of_reachable h
  exact ⟨hI.sent, fun i th id r hi hcall hrest hok => (hI.sound i th hi).reported hcall hrest hok⟩

/-- A leftover package is sent; behind its upload and before its removal `captureBeforeReboot`
writes a new one. -/
def replaced : List Act :=
  [.start 0 (.collectAndUpload "owner" none), .answer 0 ⟨.packageExists "p", some true⟩ true,
    .answer 0 ⟨.readPackage "p", "old"⟩ true, .answer 0 ⟨.authHeaders, some (some "t")⟩ true,
    .answer 0 ⟨.post "u?trigger=pre-reboot" "old", { statusCode := 200 }⟩ true,
    .start 1 (.captureBeforeReboot 7), .write 1 "new", .answer 0 ⟨.removePackage "p", ()⟩ true]

/-- The call that wrote it finds nothing to read, and sends that. -/
def reportedFor : List Act :=
  [.answer 1 ⟨capture ⟨"u", "p"⟩, { exitCode := 0 }⟩ true, .answer 1 ⟨.readPackage "p", ""⟩ true,
    .answer 1 ⟨.authHeaders, some (some "t")⟩ true,
    .answer 1 ⟨.post "u?trigger=pre-reboot&command_id=7" "", { statusCode := 200 }⟩ true,
    .answer 1 ⟨.removePackage "p", ()⟩ true]

/-- The new package is gone, the server has not taken it, and its `captureBeforeReboot` reports
success. -/
theorem removed_unsent : ∃ s, (machine ⟨"u", "p"⟩).Reachable s ∧ ¬ Kept s ∧ "new" ∈ s.removed ∧
    "new" ∉ s.accepted ∧ (s.threads 1).bind (·.rest.outcome) = some (.ok { ok := true }) := by
  obtain ⟨s, hs, hmem, hsent, hreport⟩ := Machine.exists_reachable_of_run (M := machine ⟨"u", "p"⟩)
    (s := { file := some "old" })
    (p := fun s => "new" ∈ s.removed ∧ "new" ∉ s.accepted ∧
      (s.threads 1).bind (·.rest.outcome) = some (.ok { ok := true }))
    (replaced ++ reportedFor) ⟨fun _ => rfl, rfl, rfl⟩ ⟨_, rfl, by decide, by decide, rfl⟩
  exact ⟨s, hs, fun h => hsent (h.sent "new" hmem), hmem, hsent, hreport⟩

/-- A `captureBeforeReboot` begins beside the upload of a leftover package, and captures its own behind
the removal. -/
def handedIn : List Act :=
  replaced.take 5 ++ [.start 1 (.captureBeforeReboot 7), .answer 0 ⟨.removePackage "p", ()⟩ true,
    .write 1 "new", .answer 1 ⟨capture ⟨"u", "p"⟩, { exitCode := 0 }⟩ true,
    .answer 1 ⟨.readPackage "p", "new"⟩ true, .answer 1 ⟨.authHeaders, some (some "t")⟩ true,
    .answer 1 ⟨.post "u?trigger=pre-reboot&command_id=7" "new", { statusCode := 200 }⟩ true,
    .answer 1 ⟨.removePackage "p", ()⟩ true]

theorem kept_of_undisturbed_handedIn : ∃ s, (machine ⟨"u", "p"⟩).run { file := some "old" } handedIn = some s ∧
    s.removed = ["new", "old"] ∧
    (s.threads 1).bind (·.rest.outcome) = some (.ok { ok := true }) ∧ Kept s :=
  ⟨_, rfl, rfl, rfl, kept_of_undisturbed (Machine.ReachableBy.run (M := machine ⟨"u", "p"⟩) handedIn
    (.init (s := { file := some "old" }) ⟨fun _ => rfl, rfl, rfl⟩) (by decide) rfl)⟩

end ShareFrame.DiagnosticsUploader.Pending
