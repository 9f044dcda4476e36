import ShareFrame.Net.Download
import ShareFrame.Update.Safety

/-!
# How a worker ends

Whatever the download, the checksum, the file system and `rauc` come up with, a
worker lowers its rank with every step, never waits for a lock that is not given
back, and ends behind phase failed or awaiting-reboot, if and only if no read in
it throws (`worker_ends_iff`): the two further fields of the release are read
behind the start of the thread.
-/

namespace ShareFrame.UpdateManager

open HTTPClient Update Transition
open Places (getElem?_set_cases update_cases)

variable {sha256 : Bytes → Bytes} {cfg : Config}

/-! ## Outcomes -/

/-- What one worker meets. -/
structure Outcomes where
  removed : List String := []
  /-- going through the cache directory throws -/
  listingThrows : Bool := false
  /-- the token database throws -/
  tokenThrows : Bool := false
  rounds : Nat → Round
  reads : Bool := true
  partRemoved : Bool := true
  renameError : Option String := none
  exitCode : Int := 0
  stdErr : String := ""
  bundleRemoved : Bool := true

/-- The step of the worker meets these outcomes. -/
def Outcomes.Gives (o : Outcomes) (w : Worker) : Act → Prop
  | .prepared _ removed =>
    removed = o.removed.filter (Stale w.release.version ·) ∧ o.listingThrows = false
  | .downloaded _ rounds => (∃ n, rounds = (List.range n).map o.rounds) ∧ o.tokenThrows = false
  | .hashed _ reads removed => reads = o.reads ∧ removed = o.partRemoved
  | .renamed _ error => error = o.renameError
  | .installed _ exitCode stdErr removed =>
    exitCode = o.exitCode ∧ stdErr = o.stdErr ∧ removed = o.bundleRemoved
  | .workThrows _ =>
    w.pc = .preparing ∧ o.listingThrows = true ∨ w.pc = .downloading ∧ o.tokenThrows = true
  | _ => True

/-- Worker `i` meets the outcomes; the other threads do what they like. -/
def Meeting (o : Outcomes) (i : Nat) (s : State) (a : Act) : Prop :=
  a.worker = some i → ∀ w, s.workers[i]? = some w → o.Gives w a

def ActiveAt (s : State) (i : Nat) : Prop := ∃ w, s.workers[i]? = some w ∧ w.pc.Active

def Phase.Final (p : Phase) : Prop := p = .failed ∨ p = .awaitingReboot

/-- From `s` on no exception leaves worker `i`, it makes at most twelve steps, the step that ends
its activity sets a final phase, and it can always end. -/
structure EndsWell (sha256 : Bytes → Bytes) (cfg : Config) (o : Outcomes) (i : Nat) (s : State) :
    Prop where
  noThrow : ∀ as t a t', (machine sha256 cfg).RunBy (Meeting o i) s as t → t.terminated = false →
    a.worker = some i → Meeting o i t a → step sha256 cfg t a = some t' → t'.terminated = false
  bounded : ∀ as t, (machine sha256 cfg).RunBy (Meeting o i) s as t →
    as.countP (·.worker = some i) ≤ 12
  final : ∀ as t a t', (machine sha256 cfg).RunBy (Meeting o i) s as t → Meeting o i t a →
    step sha256 cfg t a = some t' → ActiveAt t i → ¬ ActiveAt t' i → t'.phase_.Final
  ends : ∀ as t, (machine sha256 cfg).RunBy (Meeting o i) s as t → t.terminated = false →
    ∃ bs t', (machine sha256 cfg).RunBy (Meeting o i) t bs t' ∧ t'.terminated = false ∧
      (∃ w, t'.workers[i]? = some w ∧ w.pc = .exited) ∧ (ActiveAt t i → t'.phase_.Final)

/-! ## Steps of the worker -/

/-- Steps left, at the most. -/
def WorkerPc.rank : WorkerPc → Nat
  | .begin => 12
  | .preparing => 11
  | .toDownloading => 10
  | .downloading => 9
  | .hashing => 8
  | .finalizing => 7
  | .toInstalling => 6
  | .installing => 5
  | .installRuns => 4
  | .toAwaiting => 3
  | .failing _ => 2
  | .rebooting | .history _ => 1
  | .exited => 0

theorem WorkEdge.rank_lt {lock : Option Caller} {p p' : Phase} {pc pc' : WorkerPc}
    (h : WorkEdge lock p pc pc' p') : pc'.rank < pc.rank := by
  cases h with
  | fails hc => cases pc <;> first | exact hc.elim | (simp only [WorkerPc.rank]; omega)
  | _ => simp only [WorkerPc.rank]; omega

/-- An active worker leaves the active part with a final phase; behind it the phase stays. -/
theorem WorkEdge.final {lock : Option Caller} {p p' : Phase} {pc pc' : WorkerPc}
    (h : WorkEdge lock p pc pc' p') (hout : ¬ pc'.Active) :
    (pc.Active → p'.Final) ∧ (¬ pc.Active → p' = p) := by
  cases h with
  | await => exact ⟨fun _ => .inr rfl, fun hno => absurd trivial hno⟩
  | failed => exact ⟨fun _ => .inl rfl, fun hno => absurd trivial hno⟩
  | rebooted | recorded => exact ⟨False.elim, fun _ => rfl⟩
  | _ => exact absurd trivial hout

/-- What the read of the release, the directory and the database must be like behind `begin`. -/
def Sound (o : Outcomes) (r : Release) : Prop :=
  r.checksum.value.isSome ∧ o.listingThrows = false ∧ o.tokenThrows = false

/-- No exception lies ahead of the worker. -/
def Fine (o : Outcomes) (w : Worker) : Prop :=
  match w.pc with
  | .begin => ∃ url, w.release.downloadUrl.value = some url ∧ (url ≠ "" → Sound o w.release)
  | .failing _ | .history _ | .rebooting | .exited => True
  | _ => Sound o w.release

theorem Fine.not_unreadable {o : Outcomes} {w : Worker} (h : Fine o w) : ¬ w.Unreadable := by
  rintro (⟨hpc, hnone⟩ | ⟨hpc, hnone⟩)
  · simp only [Fine, hpc] at h
    obtain ⟨url, hurl, -⟩ := h
    rw [hnone] at hurl; cases hurl
  · simp only [Fine, hpc] at h
    have hsome := h.1
    rw [hnone] at hsome; cases hsome

theorem Fine.not_throws {o : Outcomes} {w : Worker} {i : Nat} (h : Fine o w) :
    ¬ o.Gives w (.workThrows i) := by
  rintro (⟨hpc, htrue⟩ | ⟨hpc, htrue⟩)
  · simp only [Fine, hpc] at h
    have hfalse := h.2.1
    rw [htrue] at hfalse; cases hfalse
  · simp only [Fine, hpc] at h
    have hfalse := h.2.2
    rw [htrue] at hfalse; cases hfalse

theorem Fine.next {o : Outcomes} {w : Worker} {lock : Option Caller} {p p' : Phase} {pc' : WorkerPc}
    (h : Fine o w) (edge : WorkEdge lock p w.pc pc' p')
    (url : pc' = .preparing → w.release.downloadUrl.value ≠ some "") : Fine o { w with pc := pc' } := by
  generalize hpc : w.pc = pc at edge
  cases edge with
  | url =>
    simp only [Fine, hpc] at h ⊢
    obtain ⟨u, hu, hsound⟩ := h
    exact hsound fun he => url rfl (by rw [hu, he])
  | fails | await | rebooted | failed | recorded => trivial
  | _ => simp only [Fine, hpc] at h ⊢; exact h

/-- A step of a worker with no exception ahead. -/
theorem own_moves {o : Outcomes} {s s' : State} {a : Act} {i : Nat} {w : Worker}
    (hw : s.workers[i]? = some w) (hfine : Fine o w) (ha : a.worker = some i)
    (hG : Meeting o i s a) (hs : step sha256 cfg s a = some s') :
    ∃ pc', WorkEdge s.lock s.phase_ w.pc pc' s'.phase_ ∧ Fine o { w with pc := pc' } ∧
      s'.workers[i]? = some { w with pc := pc' } ∧ s'.terminated = s.terminated := by
  obtain ⟨v, hv, hown | ⟨rfl, -⟩⟩ := step_own hs ha
  · rw [hw] at hv
    cases hv
    cases hown with
    | throws why => exact absurd why hfine.not_unreadable
    | @moves pc' edge state _ _ _ url =>
      refine ⟨pc', edge, hfine.next edge url, ?_, by rw [state]⟩
      rw [state]
      exact List.getElem?_set_self (List.getElem?_eq_some_iff.mp hw).1
  · exact absurd (hG ha w hw) hfine.not_throws

/-! ## Steps of the other threads -/

/-- What a step that is no worker's does to the workers. -/
inductive Service (s s' : State) : Prop where
  | same (workers : s'.workers = s.workers) (worker_ : s'.worker_ = s.worker_)
      (joining : ∀ c n, s'.calls c = .joining n → s.calls c = .joining n)
  | started {c : Caller} {release : Release} (at_ : s.calls c = .starting release)
      (workers : s'.workers = s.workers ++ [{ release, slotAtStart := s.slotSeen }])
      (worker_ : s'.worker_ = s.worker_)
      (joining : ∀ d n, s'.calls d = .joining n → n = s.workers.length ∨ s.calls d = .joining n)
  | joined {c : Caller} {n : Nat} (at_ : s.calls c = .joining n) (workers : s'.workers = s.workers)
      (worker_ : s'.worker_ = some n)
      (joining : ∀ d m, s'.calls d = .joining m → d ≠ c ∧ s.calls d = .joining m)

theorem joining_of_update {s s' : State} {c : Caller} {call' : Call}
    (hcalls : s'.calls = Function.update s.calls c call') (hno : ∀ n, call' ≠ .joining n) (d : Caller)
    (m : Nat) (hd : s'.calls d = .joining m) : d ≠ c ∧ s.calls d = .joining m := by
  rw [hcalls] at hd
  obtain ⟨-, hd⟩ | hother := update_cases hd
  · exact absurd hd (hno m)
  · exact hother

/-- A step of a call that does not start a worker. -/
theorem service_call {s t : State} {c : Caller} {call' : Call} (hworkers : t.workers = s.workers)
    (hworker : t.worker_ = s.worker_) (hcalls : t.calls = Function.update s.calls c call')
    (hno : ∀ n, call' ≠ .joining n) : Service s t :=
  .same hworkers hworker fun d m hd => (joining_of_update hcalls hno d m hd).2

theorem beginCall_service {s : State} {c : Caller} : Service s (beginCall s c) :=
  have hcalls : (beginCall s c).calls = Function.update s.calls c .locking := calls_set rfl rfl
  service_call rfl rfl hcalls nofun

theorem service_still {s t : State} (hworkers : t.workers = s.workers)
    (hworker : t.worker_ = s.worker_) (hcalls : t.calls = s.calls) : Service s t :=
  .same hworkers hworker fun _ _ hd => hcalls ▸ hd

theorem callStep_service {s t : State} {c : Caller} (ht : callStep cfg s c = some t) :
    Service s t := by
  unfold callStep at ht
  split at ht
  next =>
    split at ht <;> cases ht
    exact service_call rfl rfl (calls_set rfl rfl) nofun
  next =>
    split at ht <;> cases ht
    · exact service_call rfl rfl (calls_set rfl rfl) nofun
    · exact service_call rfl rfl (calls_set rfl rfl) nofun
  next =>
    split at ht <;> cases ht
    · exact service_call rfl rfl (calls_set rfl rfl) nofun
    · exact service_call rfl rfl (calls_set rfl rfl) nofun
  next =>
    split at ht <;> cases ht
    · exact service_call rfl rfl (calls_set rfl rfl) nofun
    · exact service_call rfl rfl (calls_set rfl rfl) nofun
  next n hc =>
    split at ht
    · split at ht <;> cases ht
      exact .joined hc rfl rfl (joining_of_update (calls_set rfl rfl) nofun)
    · cases ht
      exact .joined hc rfl rfl (joining_of_update (calls_set rfl rfl) nofun)
  next => cases ht

theorem checkStep_service {s s' : State} (hs : checkStep cfg s = some s') : Service s s' := by
  unfold checkStep at hs
  split at hs
  next hc =>
    cases hs
    exact service_still rfl rfl (calls_same rfl (by rw [hc]; split <;> rfl))
  next release hc =>
    split at hs
    · cases hs
      exact service_still rfl rfl (calls_same rfl (by rw [hc]; rfl))
    · split at hs <;> cases hs
      · exact beginCall_service
      · exact service_still rfl rfl (calls_same rfl (by rw [hc]; rfl))
  next result error hc =>
    cases hs
    refine .same rfl rfl fun d m hd => ?_
    cases d
    · exact hd
    · cases hd
  next => cases hs

theorem step_service {s s' : State} {a : Act} (hs : step sha256 cfg s a = some s')
    (ha : a.worker = none) : Service s s' := by
  -- `touched` is not among the fields
  have htouched : ∀ {t : State} {f : Caller → Bool}, Service s t → Service s { t with touched := f } := by
    rintro t f (⟨workers, worker, joining⟩ | ⟨at_, workers, worker, joining⟩ |
      ⟨at_, workers, worker, joining⟩)
    · exact .same workers worker fun c n hc => joining c n (by cases c <;> exact hc)
    · exact .started at_ workers worker fun c n hc => joining c n (by cases c <;> exact hc)
    · exact .joined at_ workers worker fun c n hc => joining c n (by cases c <;> exact hc)
  unfold step at hs
  split at hs
  next => cases hs
  cases a with
  | ipcCall =>
    simp only at hs
    split at hs <;> cases hs
    all_goals exact beginCall_service
  | call c =>
    obtain ⟨t, ht, rfl⟩ := Option.map_eq_some_iff.mp hs
    exact htouched (callStep_service ht)
  | fetched c resp parsed =>
    obtain ⟨t, ht, rfl⟩ := Option.map_eq_some_iff.mp hs
    refine htouched ?_
    unfold fetched at ht
    split at ht
    next => cases ht
    next => split at ht <;> cases ht <;> exact service_call rfl rfl (calls_set rfl rfl) nofun
  | fetchThrows c =>
    simp only at hs
    split at hs
    next =>
      obtain ⟨t, ht, rfl⟩ := Option.map_eq_some_iff.mp hs
      cases ht
      exact htouched (service_call rfl rfl (calls_set rfl rfl) nofun)
    next => cases hs
  | threadStarted c ok =>
    obtain ⟨t, ht, rfl⟩ := Option.map_eq_some_iff.mp hs
    refine htouched ?_
    unfold threadStarted at ht
    split at ht
    next release hc =>
      split at ht <;> cases ht
      · refine .started hc rfl rfl fun d n hd => ?_
        cases c <;> cases d <;> first
          | exact .inr hd
          | (cases hd; exact .inl rfl)
      · exact service_call rfl rfl (calls_set rfl rfl) nofun
    next => cases ht
  | wake =>
    simp only at hs
    split at hs <;> cases hs
    next h => exact service_still rfl rfl (calls_same rfl (by rw [h.1]; rfl))
  | check => exact checkStep_service hs
  | checkFetched resp parsed =>
    simp only at hs
    split at hs
    next => cases hs
    next hc =>
      have hc : s.checker_ = .fetching := by simpa using hc
      split at hs <;> cases hs <;> exact service_still rfl rfl (calls_same rfl (by rw [hc]; rfl))
  | setPendingSlot slot => cases hs; exact service_still rfl rfl (calls_same rfl rfl)
  | _ => cases ha

/-- A step of another thread leaves worker `i` where it is. -/
theorem step_other {s s' : State} {a : Act} {i : Nat} {w : Worker}
    (hs : step sha256 cfg s a = some s') (ha : a.worker ≠ some i) (hw : s.workers[i]? = some w) :
    s'.workers[i]? = some w := by
  cases haj : a.worker with
  | some j =>
    have hj : j ≠ i := fun h => ha (haj.trans (congrArg some h))
    obtain ⟨v, hv, hown | ⟨-, rfl⟩⟩ := step_own hs haj
    · cases hown with
      | throws _ state => rw [state]; exact hw
      | moves _ state => rw [state]; exact (List.getElem?_set_ne hj).trans hw
    · exact hw
  | none =>
    cases step_service hs haj with
    | same workers => rw [workers]; exact hw
    | started _ workers =>
      rw [workers, List.getElem?_append_left (List.getElem?_eq_some_iff.mp hw).1]
      exact hw
    | joined _ workers => rw [workers]; exact hw

/-! ## The lock is given back -/

/-- The thread that an assignment of `worker_` joins is behind its final phase. -/
structure Joined (s : State) : Prop where
  lt : ∀ old, s.worker_ = some old → old < s.workers.length
  newLt : ∀ c n, s.calls c = .joining n → n < s.workers.length
  past : ∀ c n old w, s.calls c = .joining n → s.worker_ = some old → s.workers[old]? = some w →
    ¬ w.pc.Active

theorem joined_step {s s' : State} {a : Act} (hx : Exclusive s) (h : Joined s)
    (hs : step sha256 cfg s a = some s') : Joined s' := by
  cases ha : a.worker with
  | some i =>
    obtain ⟨w, hw, hown | ⟨-, rfl⟩⟩ := step_own hs ha
    · cases hown with
      | throws _ state => rw [state]; exact ⟨h.lt, h.newLt, h.past⟩
      | @moves pc' edge state =>
        have hworkers : s'.workers = s.workers.set i { w with pc := pc' } := by rw [state]
        have hworker : s'.worker_ = s.worker_ := by rw [state]
        have hcalls : s'.calls = s.calls := calls_same (by rw [state]) (by rw [state])
        refine ⟨fun old hold => ?_, fun c n hc => ?_, fun c n old v hc hold hv => ?_⟩
        · rw [hworkers, List.length_set]; exact h.lt old (hworker ▸ hold)
        · rw [hworkers, List.length_set]; exact h.newLt c n (hcalls ▸ hc)
        · rw [hworkers] at hv
          rcases getElem?_set_cases hv with ⟨rfl, rfl⟩ | ⟨-, hv⟩
          · exact fun hactive =>
              h.past c n old w (hcalls ▸ hc) (hworker ▸ hold) hw (edge.active hactive)
          · exact h.past c n old v (hcalls ▸ hc) (hworker ▸ hold) hv
    · exact ⟨h.lt, h.newLt, h.past⟩
  | none =>
    cases step_service hs ha with
    | same workers worker joining =>
      refine ⟨fun old hold => ?_, fun c n hc => ?_, fun c n old v hc hold hv => ?_⟩
      · rw [workers]; exact h.lt old (worker ▸ hold)
      · rw [workers]; exact h.newLt c n (joining c n hc)
      · exact h.past c n old v (joining c n hc) (worker ▸ hold) (workers ▸ hv)
    | @started c release at_ workers worker joining =>
      have hchecked : (s.calls c).Checked := by rw [at_]; trivial
      have hlength : s'.workers.length = s.workers.length + 1 := by rw [workers]; simp
      refine ⟨fun old hold => ?_, fun d n hd => ?_, fun d n old v hd hold hv => ?_⟩
      · have := h.lt old (worker ▸ hold)
        omega
      · rcases joining d n hd with hn | hd
        · omega
        · have := h.newLt d n hd
          omega
      · have hlt := h.lt old (worker ▸ hold)
        rw [workers, List.getElem?_append_left hlt] at hv
        exact hx.none_active hchecked hv
    | @joined c n at_ workers worker joining =>
      refine ⟨fun old hold => ?_, fun d m hd => ?_, fun d m old v hd hold hv => ?_⟩
      · rw [worker] at hold
        cases hold
        rw [workers]; exact h.newLt c n at_
      · rw [workers]; exact h.newLt d m (joining d m hd).2
      · obtain ⟨hdc, hd⟩ := joining d m hd
        exact absurd (hx.unique (by rw [hd]; trivial) (by rw [at_]; trivial)) hdc

theorem joined_inductive :
    (machine sha256 cfg).Inductive (fun _ _ => True) fun s => Safe sha256 cfg s ∧ Joined s :=
  safe_inductive.strengthen
    (by
      rintro s ⟨pendingSlot, cache, rfl⟩
      refine ⟨nofun, fun c n hc => ?_, fun c n old w _ hold => nomatch hold⟩
      cases c <;> cases hc)
    fun _ _ _ hI _ hJ _ hs => joined_step hI.exclusive hJ hs

variable (sha256) in
/-- A step of a call that gives back the lock and leaves the workers alone. -/
theorem step_call_leave {s t : State} {c : Caller} (hlive : s.terminated = false)
    (ht : callStep cfg s c = some t) (hterm : t.terminated = s.terminated) (hlock : t.lock = none)
    (hworkers : t.workers = s.workers) :
    ∃ t', step sha256 cfg s (.call c) = some t' ∧ t'.terminated = false ∧ t'.lock = none ∧
      t'.workers = s.workers := by
  have hs : step sha256 cfg s (.call c) = byCall s c (some t) := by
    simp only [step, hlive, Bool.false_eq_true, if_false, ht]
  exact ⟨_, hs, hterm.trans hlive, hlock, hworkers⟩

variable (sha256 cfg) in
theorem step_call_joined {s : State} {c : Caller} {n : Nat} (hlive : s.terminated = false)
    (hc : s.calls c = .joining n)
    (hold : ∀ k old, s.worker_ = some k → s.workers[k]? = some old → old.pc = .exited) :
    ∃ t, step sha256 cfg s (.call c) = some t ∧ t.terminated = false ∧ t.lock = none ∧
      t.workers = s.workers := by
  have ht : callStep cfg s c = some { leaveCall s c (.returned true "") with worker_ := some n } := by
    simp only [callStep, hc]
    cases hworker : s.worker_.bind (s.workers[·]?) with
    | none => rfl
    | some old =>
      obtain ⟨k, hk, hget⟩ := Option.bind_eq_some_iff.mp hworker
      exact if_pos (hold k old hk hget)
  exact step_call_leave sha256 hlive ht rfl rfl rfl

variable (sha256 cfg) in
theorem step_work {s : State} {i : Nat} {w : Worker} (hlive : s.terminated = false)
    (hw : s.workers[i]? = some w) : step sha256 cfg s (.work i) = workStep s i w := by
  simp only [step, hlive, Bool.false_eq_true, if_false, byWorker, hw, Option.bind_some]

/-- Behind the final phase the last step is always there. -/
theorem workStep_over {s : State} {i : Nat} {w : Worker} (hover : ¬ w.pc.Active)
    (hpc : w.pc ≠ .exited) : workStep s i w = some (setWorker s i w .exited) := by
  unfold workStep
  cases h : w.pc with
  | rebooting | history => rfl
  | exited => exact absurd h hpc
  | _ => exact absurd (by rw [h]; trivial) hover

/-- While worker `i` is active, whoever has the lock can give it back, without a step of it. -/
theorem exists_unlock {o : Outcomes} {s : State} (hr : (machine sha256 cfg).Reachable s)
    (hlive : s.terminated = false) {i : Nat} {w : Worker} (hw : s.workers[i]? = some w)
    (hactive : w.pc.Active) :
    ∃ as t, (machine sha256 cfg).RunBy (Meeting o i) s as t ∧ t.terminated = false ∧
      t.lock = none ∧ t.workers[i]? = some w := by
  obtain ⟨hsafe, hjoined⟩ := joined_inductive.of_reachable hr
  have hx := hsafe.exclusive
  cases hlock : s.lock with
  | none => exact ⟨[], s, .nil, hlive, hlock, hw⟩
  | some c =>
    have hin := (hx.lock c).mpr hlock
    have hbusy := busy_of_active hactive (hx.phases i w hw hactive)
    have hcall : ∀ u : State, Meeting o i u (.call c) := fun _ h => by cases h
    -- the call is before its busy check, or it started a worker
    cases hc : s.calls c with
    | busyCheck =>
      have ht : callStep cfg s c =
          some (leaveCall s c (.returned false "Update already in progress")) := by
        simp only [callStep, hc, hbusy, if_true]
      obtain ⟨t, hs, hlive', hfree, hworkers⟩ := step_call_leave sha256 hlive ht rfl rfl rfl
      exact ⟨_, t, .single (hcall s) hs, hlive', hfree, hworkers ▸ hw⟩
    | joining n =>
      by_cases hold : ∀ k old, s.worker_ = some k → s.workers[k]? = some old → old.pc = .exited
      · obtain ⟨t, hs, hlive', hfree, hworkers⟩ := step_call_joined sha256 cfg hlive hc hold
        exact ⟨_, t, .single (hcall s) hs, hlive', hfree, hworkers ▸ hw⟩
      · push Not at hold
        obtain ⟨k, old, hk, hget, hpc⟩ := hold
        have hover := hjoined.past c n k old hc hk hget
        have hki : k ≠ i := by
          rintro rfl
          rw [hw] at hget
          cases hget
          exact hover hactive
        have hwork : step sha256 cfg s (.work k) = some (setWorker s k old .exited) := by
          rw [step_work sha256 cfg hlive hget, workStep_over hover hpc]
        have hwi : (setWorker s k old .exited).workers[i]? = some w :=
          (List.getElem?_set_ne hki).trans hw
        have hjoining : (setWorker s k old .exited).calls c = .joining n := by cases c <;> exact hc
        have hexited : ∀ j v, (setWorker s k old .exited).worker_ = some j →
            (setWorker s k old .exited).workers[j]? = some v → v.pc = .exited := fun j v hj hv => by
          have hj : s.worker_ = some j := hj
          rw [hk] at hj
          cases hj
          rcases getElem?_set_cases hv with ⟨-, rfl⟩ | ⟨hne, -⟩
          · rfl
          · exact absurd rfl hne
        obtain ⟨t, hs, hlive', hfree, hworkers⟩ :=
          step_call_joined sha256 cfg (s := setWorker s k old .exited) hlive hjoining hexited
        have hG : Meeting o i s (.work k) := fun h => absurd (Option.some.inj h) hki
        exact ⟨_, t, .cons hG hwork (.single (hcall _) hs), hlive', hfree, hworkers ▸ hwi⟩
    | slotCheck | fetching | comparing | starting =>
      exact absurd hactive (hx.none_active (by rw [hc]; trivial) hw)
    | _ => rw [hc] at hin; exact hin.elim

/-! ## The run of a worker -/

/-- The next step of the worker does not throw. -/
def Ready (o : Outcomes) (w : Worker) : Prop :=
  match w.pc with
  | .begin => w.release.downloadUrl.value.isSome
  | .preparing => o.listingThrows = false
  | .downloading => o.tokenThrows = false
  | .hashing => w.release.checksum.value.isSome
  | _ => True

theorem Fine.ready {o : Outcomes} {w : Worker} (h : Fine o w) : Ready o w := by
  unfold Ready
  cases hpc : w.pc <;> simp only [Fine, hpc] at h
  case begin =>
    obtain ⟨url, hurl, -⟩ := h
    exact Option.isSome_iff_exists.mpr ⟨url, hurl⟩
  case preparing => exact h.2.1
  case downloading => exact h.2.2
  case hashing => exact h.1
  all_goals trivial

theorem exists_download (file : String) (content : Option Bytes) (rounds : Nat → Round) :
    ∃ n dl, downloadToFile file content ((List.range n).map rounds) = some dl := by
  obtain ⟨n, s, hrun, hres⟩ :=
    exists_result file [] rounds (s := { file := content }) rfl
  obtain ⟨resp, hresp⟩ := Option.isSome_iff_exists.mp hres
  exact ⟨n, (resp, s.file), by simp only [downloadToFile, hrun, Option.bind_some, hresp, Option.map_some]⟩

variable (cfg) in
/-- A worker that is not over has a step, once the lock is free. -/
theorem exists_own {o : Outcomes} {s : State} {i : Nat} {w : Worker}
    (hlive : s.terminated = false) (hw : s.workers[i]? = some w) (hpc : w.pc ≠ .exited)
    (hready : Ready o w) (hfree : w.pc.Active → s.lock = none) :
    ∃ a t, a.worker = some i ∧ Meeting o i s a ∧ step sha256 cfg s a = some t := by
  have hmeets : ∀ a : Act, o.Gives w a → Meeting o i s a := fun a h _ v hv => by
    rw [hw] at hv
    cases hv
    exact h
  have hwork : (∃ t, workStep s i w = some t) →
      ∃ a t, a.worker = some i ∧ Meeting o i s a ∧ step sha256 cfg s a = some t :=
    fun ⟨t, ht⟩ => ⟨.work i, t, rfl, hmeets _ trivial, (step_work sha256 cfg hlive hw).trans ht⟩
  have hlock : w.pc.Active → ∀ t : State, ∃ u, (if s.lock = none then some t else none) = some u :=
    fun h t => ⟨t, if_pos (hfree h)⟩
  cases h : w.pc <;> simp only [Ready, h] at hready hlock
  case begin =>
    obtain ⟨url, hurl⟩ := Option.isSome_iff_exists.mp hready
    by_cases hempty : url = ""
    · exact hwork (by simp only [workStep, h, hurl, hempty, if_true]; exact ⟨_, rfl⟩)
    · exact hwork (by simp only [workStep, h, hurl, hempty, if_false]; exact ⟨_, rfl⟩)
  case preparing =>
    have ht : prepared s i w (o.removed.filter (Stale w.release.version ·)) ≠ none := by
      rw [prepared, if_pos ⟨h, fun path hpath => by simpa using (List.mem_filter.mp hpath).2⟩]
      exact Option.some_ne_none _
    obtain ⟨t, ht⟩ := Option.ne_none_iff_exists'.mp ht
    exact ⟨.prepared i _, t, rfl, hmeets _ ⟨rfl, hready⟩,
      by simp only [step, hlive, Bool.false_eq_true, if_false, byWorker, hw, Option.bind_some, ht]⟩
  case downloading =>
    obtain ⟨n, dl, hdl⟩ := exists_download (part w.release.version)
      (s.cache (part w.release.version)) o.rounds
    have ht : ∃ t, downloaded s i w ((List.range n).map o.rounds) = some t := by
      simp only [downloaded, h, hdl, Option.map_some, ne_eq, not_true_eq_false, if_false]
      exact ⟨_, rfl⟩
    obtain ⟨t, ht⟩ := ht
    exact ⟨.downloaded i _, t, rfl, hmeets _ ⟨⟨n, rfl⟩, hready⟩,
      by simp only [step, hlive, Bool.false_eq_true, if_false, byWorker, hw, Option.bind_some, ht]⟩
  case hashing =>
    obtain ⟨checksum, hsum⟩ := Option.isSome_iff_exists.mp hready
    have ht : ∃ t, hashed sha256 s i w o.reads o.partRemoved = some t := by
      simp only [hashed, h, hsum, ne_eq, not_true_eq_false, if_false]
      repeat' split
      all_goals exact ⟨_, rfl⟩
    obtain ⟨t, ht⟩ := ht
    exact ⟨.hashed i _ _, t, rfl, hmeets _ ⟨rfl, rfl⟩,
      by simp only [step, hlive, Bool.false_eq_true, if_false, byWorker, hw, Option.bind_some, ht]⟩
  case finalizing =>
    have ht : ∃ t, renamed s i w o.renameError = some t := by
      simp only [renamed, h, ne_eq, not_true_eq_false, if_false]
      split <;> exact ⟨_, rfl⟩
    obtain ⟨t, ht⟩ := ht
    exact ⟨.renamed i _, t, rfl, hmeets _ rfl,
      by simp only [step, hlive, Bool.false_eq_true, if_false, byWorker, hw, Option.bind_some, ht]⟩
  case installRuns =>
    have ht : ∃ t, installed s i w o.exitCode o.stdErr o.bundleRemoved = some t := by
      simp only [installed, h, ne_eq, not_true_eq_false, if_false]
      split <;> exact ⟨_, rfl⟩
    obtain ⟨t, ht⟩ := ht
    exact ⟨.installed i _ _ _, t, rfl, hmeets _ ⟨rfl, rfl, rfl⟩,
      by simp only [step, hlive, Bool.false_eq_true, if_false, byWorker, hw, Option.bind_some, ht]⟩
  case exited => exact absurd h hpc
  case installing | rebooting | history =>
    exact hwork (by simp only [workStep, h]; exact ⟨_, rfl⟩)
  all_goals exact hwork (by simp only [workStep, h]; exact hlock trivial _)

/-- From any state on its way the worker can go on to its end. -/
theorem exists_end {o : Outcomes} {i : Nat} {s : State} {w : Worker}
    (hr : (machine sha256 cfg).Reachable s) (hlive : s.terminated = false)
    (hw : s.workers[i]? = some w) (hfine : Fine o w) :
    ∃ bs t, (machine sha256 cfg).RunBy (Meeting o i) s bs t ∧ t.terminated = false ∧
      (∃ v, t.workers[i]? = some v ∧ v.pc = .exited) ∧
      (w.pc.Active → t.phase_.Final) ∧ (¬ w.pc.Active → t.phase_ = s.phase_) := by
  induction hn : w.pc.rank using Nat.strong_induction_on generalizing s w with
  | _ n ih =>
    subst hn
    by_cases hpc : w.pc = .exited
    · exact ⟨[], s, .nil, hlive, ⟨w, hw, hpc⟩, by rw [hpc]; exact False.elim, fun _ => rfl⟩
    -- an active worker may have to wait for the lock
    obtain ⟨as, t, hrun, hlive, hw, hfree, hphase⟩ : ∃ as t,
        (machine sha256 cfg).RunBy (Meeting o i) s as t ∧ t.terminated = false ∧
        t.workers[i]? = some w ∧ (w.pc.Active → t.lock = none) ∧
        (¬ w.pc.Active → t.phase_ = s.phase_) := by
      by_cases hactive : w.pc.Active
      · obtain ⟨as, t, hrun, hlive', hfree, hw'⟩ := exists_unlock (o := o) hr hlive hw hactive
        exact ⟨as, t, hrun, hlive', hw', fun _ => hfree, fun h => absurd hactive h⟩
      · exact ⟨[], s, .nil, hlive, hw, fun h => absurd h hactive, fun _ => rfl⟩
    obtain ⟨a, u, ha, hG, hs⟩ := exists_own cfg hlive hw hpc hfine.ready hfree
    obtain ⟨pc', edge, hfine', hw', hterm⟩ := own_moves hw hfine ha hG hs
    have hrun' := hrun.trans (.single hG hs)
    obtain ⟨bs, v, hrest, hlive', hexited, hfinal, hstays⟩ :=
      ih pc'.rank edge.rank_lt (hrun'.reachable hr) (hterm.trans hlive) hw' hfine' rfl
    refine ⟨_, v, hrun'.trans hrest, hlive', hexited, fun hactive => ?_, fun hover => ?_⟩
    · by_cases hactive' : pc'.Active
      · exact hfinal hactive'
      · rw [hstays hactive']
        exact (edge.final hactive').1 hactive
    · have hover' : ¬ pc'.Active := fun h => hover (edge.active h)
      rw [hstays hover', (edge.final hover').2 hover, hphase hover]

/-- On its way nothing throws, and every step of the worker lowers its rank. -/
theorem runBy_fine {o : Outcomes} {i : Nat} {as : List Act} :
    ∀ {s t : State} {w : Worker}, s.workers[i]? = some w → Fine o w →
      (machine sha256 cfg).RunBy (Meeting o i) s as t →
      ∃ v, t.workers[i]? = some v ∧ Fine o v ∧ as.countP (·.worker = some i) + v.pc.rank ≤ w.pc.rank := by
  induction as with
  | nil =>
    rintro s t w hw hfine ⟨-, hrun⟩
    cases hrun
    exact ⟨w, hw, hfine, by simp⟩
  | cons a as ih =>
    intro s t w hw hfine hrun
    obtain ⟨u, hG, hs, hrest⟩ := hrun.uncons
    by_cases ha : a.worker = some i
    · obtain ⟨pc', edge, hfine', hw', -⟩ := own_moves hw hfine ha hG hs
      obtain ⟨v, hv, hfinev, hle⟩ := ih hw' hfine' hrest
      have hlt := edge.rank_lt
      refine ⟨v, hv, hfinev, ?_⟩
      rw [List.countP_cons_of_pos (by simpa using ha)]
      simp only at hle
      omega
    · obtain ⟨v, hv, hfinev, hle⟩ := ih (step_other hs ha hw) hfine hrest
      refine ⟨v, hv, hfinev, ?_⟩
      rw [List.countP_cons_of_neg (by simpa using ha)]
      exact hle

theorem endsWell_of_fine {o : Outcomes} {i : Nat} {s : State} {w : Worker}
    (hr : (machine sha256 cfg).Reachable s) (hw : s.workers[i]? = some w) (hfine : Fine o w) :
    EndsWell sha256 cfg o i s where
  noThrow as t a t' hrun hlive ha hG hs := by
    obtain ⟨v, hv, hfinev, -⟩ := runBy_fine hw hfine hrun
    obtain ⟨pc', -, -, -, hterm⟩ := own_moves hv hfinev ha hG hs
    exact hterm.trans hlive
  bounded as t hrun := by
    obtain ⟨v, -, -, hle⟩ := runBy_fine hw hfine hrun
    have htwelve : w.pc.rank ≤ 12 := by cases w.pc <;> simp only [WorkerPc.rank] <;> omega
    omega
  final as t a t' hrun hG hs hbefore hafter := by
    obtain ⟨v, hv, hfinev, -⟩ := runBy_fine hw hfine hrun
    have hactive : v.pc.Active := by
      obtain ⟨v', hv', hactive⟩ := hbefore
      rw [hv] at hv'
      cases hv'
      exact hactive
    by_cases ha : a.worker = some i
    · obtain ⟨pc', edge, -, hw', -⟩ := own_moves hv hfinev ha hG hs
      exact (edge.final fun h => hafter ⟨_, hw', h⟩).1 hactive
    · exact absurd ⟨v, step_other hs ha hv, hactive⟩ hafter
  ends as t hrun hlive := by
    obtain ⟨v, hv, hfinev, -⟩ := runBy_fine hw hfine hrun
    obtain ⟨bs, t', hrest, hlive', hexited, hfinal, -⟩ :=
      exists_end (hrun.reachable hr) hlive hv hfinev
    refine ⟨bs, t', hrest, hlive', hexited, fun ⟨v', hv', hactive⟩ => hfinal ?_⟩
    rw [hv] at hv'
    cases hv'
    exact hactive

/-! ## Where it does not end well -/

theorem setWorker_get {s : State} {i : Nat} {w : Worker} (hw : s.workers[i]? = some w)
    (pc : WorkerPc) : (setWorker s i w pc).workers[i]? = some { w with pc } :=
  List.getElem?_set_self (List.getElem?_eq_some_iff.mp hw).1

/-- The worker does not throw where it ends well. -/
theorem EndsWell.ready {o : Outcomes} {i : Nat} {s t : State} {as : List Act} {w : Worker}
    (h : EndsWell sha256 cfg o i s) (hrun : (machine sha256 cfg).RunBy (Meeting o i) s as t)
    (hlive : t.terminated = false) (hw : t.workers[i]? = some w) : Ready o w := by
  have hno : ∀ a : Act, a.worker = some i → o.Gives w a →
      step sha256 cfg t a ≠ some { t with terminated := true } := fun a ha hG hs => by
    have hmeets : Meeting o i t a := fun _ v hv => by
      rw [hw] at hv
      cases hv
      exact hG
    cases h.noThrow as t a _ hrun hlive ha hmeets hs
  have hthrows : w.pc ≠ .exited → ¬ o.Gives w (.workThrows i) := fun hpc hG =>
    hno (.workThrows i) rfl hG (by
      simp only [step, hlive, Bool.false_eq_true, if_false, byWorker, hw, Option.bind_some, hpc])
  unfold Ready
  cases hpc : w.pc with
  | begin =>
    refine Option.isSome_iff_ne_none.mpr fun hnone => hno (.work i) rfl trivial ?_
    rw [step_work sha256 cfg hlive hw, workStep]
    simp only [hpc, hnone]
  | preparing =>
    exact Bool.eq_false_iff.mpr fun htrue => hthrows (by simp [hpc]) (.inl ⟨hpc, htrue⟩)
  | downloading =>
    exact Bool.eq_false_iff.mpr fun htrue => hthrows (by simp [hpc]) (.inr ⟨hpc, htrue⟩)
  | hashing =>
    refine Option.isSome_iff_ne_none.mpr fun hnone => hno (.hashed i o.reads o.partRemoved) rfl ⟨rfl, rfl⟩ ?_
    simp only [step, hlive, Bool.false_eq_true, if_false, byWorker, hw, Option.bind_some, hashed, hpc,
      ne_eq, not_true_eq_false, hnone]
  | _ => trivial

/-- Worker `i` can come to `pc`, whatever the others do. -/
def Gets (sha256 : Bytes → Bytes) (cfg : Config) (o : Outcomes) (i : Nat) (s : State) (w : Worker)
    (pc : WorkerPc) : Prop :=
  ∃ as t, (machine sha256 cfg).RunBy (Meeting o i) s as t ∧ t.terminated = false ∧
    t.workers[i]? = some { w with pc }

theorem Gets.next {o : Outcomes} {i : Nat} {s : State} {w : Worker} {pc pc' : WorkerPc}
    (h : Gets sha256 cfg o i s w pc)
    (hnext : ∀ t, (machine sha256 cfg).Reachable t → t.terminated = false →
      t.workers[i]? = some { w with pc } → Gets sha256 cfg o i t w pc')
    (hr : (machine sha256 cfg).Reachable s) : Gets sha256 cfg o i s w pc' := by
  obtain ⟨as, t, hrun, hlive, hw⟩ := h
  obtain ⟨bs, u, hrest, hlive', hw'⟩ := hnext t (hrun.reachable hr) hlive hw
  exact ⟨_, u, hrun.trans hrest, hlive', hw'⟩

section

variable {o : Outcomes} {i : Nat} {s : State} {w : Worker}

theorem gets_preparing {url : String} (hlive : s.terminated = false)
    (hw : s.workers[i]? = some { w with pc := .begin })
    (hurl : w.release.downloadUrl.value = some url) (hne : url ≠ "") :
    Gets sha256 cfg o i s w .preparing := by
  have hs : step sha256 cfg s (.work i) =
      some (setWorker s i { w with pc := .begin } .preparing) := by
    rw [step_work sha256 cfg hlive hw]
    simp only [workStep, hurl, hne, if_false]
  have hG : Meeting o i s (.work i) := fun _ _ _ => trivial
  exact ⟨_, _, .single hG hs, hlive, setWorker_get hw .preparing⟩

theorem gets_downloading (hr : (machine sha256 cfg).Reachable s) (hlive : s.terminated = false)
    (hw : s.workers[i]? = some { w with pc := .preparing }) (hlisting : o.listingThrows = false) :
    Gets sha256 cfg o i s w .downloading := by
  have hprepared : Gets sha256 cfg o i s w .toDownloading := by
    generalize hremoved : o.removed.filter (Stale w.release.version ·) = removed
    have hstale : ∀ path ∈ removed, Stale w.release.version path := fun path hpath => by
      rw [← hremoved] at hpath
      simpa using (List.mem_filter.mp hpath).2
    have hs : step sha256 cfg s (.prepared i removed) = some
        { setWorker s i { w with pc := .preparing } .toDownloading with
          cache := fun path => if path ∈ removed then none else s.cache path } := by
      simp only [step, hlive, Bool.false_eq_true, if_false, byWorker, hw, Option.bind_some]
      exact if_pos ⟨rfl, hstale⟩
    have hG : Meeting o i s (.prepared i removed) := fun _ v hv => by
      rw [hw] at hv
      cases hv
      exact ⟨hremoved.symm, hlisting⟩
    exact ⟨_, _, .single hG hs, hlive, setWorker_get hw .toDownloading⟩
  -- the phase is set under the lock
  refine hprepared.next (fun t hr hlive hw => ?_) hr
  obtain ⟨as, u, hrun, hlive, hfree, hw⟩ := exists_unlock (o := o) hr hlive hw trivial
  have hs : step sha256 cfg u (.work i) = some
      { setWorker u i { w with pc := .toDownloading } .downloading with phase_ := .downloading } := by
    rw [step_work sha256 cfg hlive hw]
    simp only [workStep, hfree, if_true]
  have hG : Meeting o i u (.work i) := fun _ _ _ => trivial
  exact ⟨_, _, hrun.trans (.single hG hs), hlive, setWorker_get hw .downloading⟩

/-- The server sends nothing more, and says that this is all. -/
def answered (_ : Nat) : Round := { answer := some { statusCode := 206 } }

theorem download_answered (file : String) (content : Option Bytes) :
    downloadToFile file content ((List.range 1).map answered) =
      some (⟨206, "", ""⟩, some (content.getD [])) := by
  have happended : (answered 0).appended (State.offset { file := content }) = true := by
    unfold Round.appended; split <;> rfl
  have hrestart : (answered 0).restart (State.offset { file := content }) = false := by
    simp [Round.restart, Round.served, answered]
  have hs : HTTPClient.step file { file := content } (answered 0) = some
      { file := some (content.getD []), result := some ⟨206, "", ""⟩ } := by
    simp only [HTTPClient.step, happended, hrestart]
    simp [toResponse, Answer.bodyLost, answered, Round.landed, State.content]
  show Option.bind ((HTTPClient.step file { file := content } (answered 0)).bind some) _ = _
  rw [hs]
  rfl

theorem gets_hashing (hlive : s.terminated = false)
    (hw : s.workers[i]? = some { w with pc := .downloading }) (htoken : o.tokenThrows = false)
    (hrounds : o.rounds = answered) : Gets sha256 cfg o i s w .hashing := by
  generalize hrs : (List.range 1).map answered = rounds
  let file := part w.release.version
  let cache := Function.update s.cache file (some ((s.cache file).getD []))
  have hs : step sha256 cfg s (.downloaded i rounds) =
      some (setWorker { s with cache } i { w with pc := .downloading } .hashing) := by
    simp only [step, hlive, Bool.false_eq_true, if_false, byWorker, hw, Option.bind_some, downloaded,
      ← hrs, download_answered, Option.map_some, ne_eq, not_true_eq_false]
    rfl
  have hG : Meeting o i s (.downloaded i rounds) := fun _ v hv => by
    rw [hw] at hv
    cases hv
    exact ⟨⟨1, by rw [hrounds, hrs]⟩, htoken⟩
  exact ⟨_, _, .single hG hs, hlive, setWorker_get hw .hashing⟩

end

/-- A worker that was just started ends well, whatever it meets, if and only if the release has no
address, or the two fields that it reads are strings and neither the directory nor the database
throws. -/
theorem worker_ends_iff {s : State} {i : Nat} {w : Worker}
    (hr : (machine sha256 cfg).Reachable s) (hlive : s.terminated = false)
    (hw : s.workers[i]? = some w) (hbegin : w.pc = .begin) (listingThrows tokenThrows : Bool) :
    (∀ o, o.listingThrows = listingThrows → o.tokenThrows = tokenThrows →
        EndsWell sha256 cfg o i s) ↔
      w.release.downloadUrl.value = some "" ∨
        w.release.downloadUrl.value.isSome ∧ w.release.checksum.value.isSome ∧
          listingThrows = false ∧ tokenThrows = false := by
  have hw' : s.workers[i]? = some { w with pc := .begin } := by rw [hw, ← hbegin]
  constructor
  · intro hall
    let o : Outcomes := { rounds := answered, listingThrows, tokenThrows }
    have hends : EndsWell sha256 cfg o i s := hall o rfl rfl
    have hready : ∀ pc, Gets sha256 cfg o i s w pc → Ready o { w with pc } := by
      rintro pc ⟨as, t, hrun, hlive, ht⟩
      exact hends.ready hrun hlive ht
    have hurl := hready .begin ⟨[], s, .nil, hlive, hw'⟩
    obtain ⟨url, hsome⟩ := Option.isSome_iff_exists.mp hurl
    by_cases hempty : url = ""
    · exact .inl (by rw [hsome, hempty])
    have hpreparing : Gets sha256 cfg o i s w .preparing := gets_preparing hlive hw' hsome hempty
    have hlisting : listingThrows = false := hready .preparing hpreparing
    have hdownloading := hpreparing.next (fun t hr hlive ht => gets_downloading hr hlive ht hlisting) hr
    have htoken : tokenThrows = false := hready .downloading hdownloading
    have hhashing := hdownloading.next (fun t _ hlive ht => gets_hashing hlive ht htoken rfl) hr
    exact .inr ⟨hurl, hready .hashing hhashing, hlisting, htoken⟩
  · intro hgood o hlisting htoken
    refine endsWell_of_fine hr hw ?_
    simp only [Fine, hbegin]
    rcases hgood with hempty | ⟨hurl, hsum, hl, ht⟩
    · exact ⟨"", hempty, fun hne => absurd rfl hne⟩
    · obtain ⟨url, hurl⟩ := Option.isSome_iff_exists.mp hurl
      exact ⟨url, hurl, fun _ => ⟨hsum, by rw [hlisting, hl], by rw [htoken, ht]⟩⟩

/-- A request up to the start of the worker. -/
def startRun (release : Json) : List Act :=
  [.ipcCall, .call .ipc, .call .ipc, .call .ipc, .fetched .ipc ⟨200, "", ""⟩ (some release),
    .call .ipc, .threadStarted .ipc true]

theorem worker_ends_iff_next :
    ∃ s, (machine (fun _ => abcDigest) frameConfig).run {} (startRun nextRelease) = some s ∧
      ActiveAt s 0 ∧ ∀ o, o.listingThrows = false → o.tokenThrows = false →
        EndsWell (fun _ => abcDigest) frameConfig o 0 s := by
  have hrun : ∃ s ∈ (machine (fun _ => abcDigest) frameConfig).run {} (startRun nextRelease),
      s.terminated = false ∧ ∃ w ∈ s.workers[0]?, w.pc = .begin ∧
        w.release.downloadUrl.value.isSome ∧ w.release.checksum.value.isSome := by decide +kernel
  obtain ⟨s, hs, hlive, w, hw, hbegin, hurl, hsum⟩ := hrun
  have hr : (machine (fun _ => abcDigest) frameConfig).Reachable s :=
    Machine.reachable_run (startRun nextRelease) ⟨"", fun _ => none, rfl⟩ hs
  exact ⟨s, hs, ⟨w, hw, by rw [hbegin]; trivial⟩,
    (worker_ends_iff hr hlive hw hbegin false false).mpr (.inr ⟨hurl, hsum, rfl, rfl⟩)⟩

/-- The release 1.1 with a number for its address. -/
def numberedRelease : Json := .object (.string "1.1") .absent .other .absent

/-- The release is accepted and newer, and its worker throws at its first read. -/
theorem not_endsWell_numbered :
    ∃ release ∈ latestReleaseJson ⟨200, "", ""⟩ (some numberedRelease),
      isVersionNewer release.version frameConfig.version = true ∧
      ∃ s, (machine (fun _ => abcDigest) frameConfig).run {} (startRun numberedRelease) = some s ∧
        (∃ w ∈ s.workers[0]?, w.release = release) ∧
        ∀ o, ¬ EndsWell (fun _ => abcDigest) frameConfig o 0 s := by
  have hrun : ∃ release ∈ latestReleaseJson ⟨200, "", ""⟩ (some numberedRelease),
      isVersionNewer release.version frameConfig.version = true ∧
      ∃ s ∈ (machine (fun _ => abcDigest) frameConfig).run {} (startRun numberedRelease),
        (∃ w ∈ s.workers[0]?, w.release = release) ∧ s.terminated = false ∧
        ∃ t ∈ step (fun _ => abcDigest) frameConfig s (.work 0), t.terminated = true := by
    decide +kernel
  obtain ⟨release, haccepted, hnewer, s, hs, hw, hlive, t, ht, hthrown⟩ := hrun
  refine ⟨release, haccepted, hnewer, s, hs, hw, fun o hends => ?_⟩
  have hfalse := hends.noThrow [] s (.work 0) t .nil hlive rfl (fun _ _ _ => trivial) ht
  rw [hfalse] at hthrown
  cases hthrown

end ShareFrame.UpdateManager
