import ShareFrame.Task.Setup.Newest

/-!
# The next paint

A paint that is due comes before the thread waits again, whatever stops and starts
come between (`Ahead`). While no stop is requested the thread is on its way there
(`Due`): each of its own steps brings it nearer, a needless wake-up costs three, and
only a timed wait holds it up.
-/

namespace ShareFrame.ApNetworkSetupScreen

open Transition

variable {s s' : State} {a : Act} {o : Own} {c : Credentials} {as : List Act} {n : Nat}

/-! ## Before another wait -/

/-- In front of a snapshot with the last paint failed, or out of `_run` with a new one to
come. -/
def Pc.ahead (shown : Bool) : Pc → Prop
  | .head | .snapshot | .test .recheck _ _ | .enter .recheck _ | .blocked .recheck _
  | .woken .recheck _ _ | .leave .recheck => shown = false
  | .idle | .start | .exited => True
  | _ => False

/-- More than `n` paints were begun, or the next one comes before the next wait. -/
def Ahead (n : Nat) (s : State) : Prop :=
  n < s.log.length ∨ n = s.log.length ∧ s.worker.ahead s.shown

theorem ahead_notified {shown : Bool} {pc : Pc} (h : pc.ahead shown) : pc.notified.ahead shown := by
  cases pc with
  | blocked site deadline => cases site <;> exact h
  | _ => exact h

theorem log_le (hs : step s a = some s') : s.log.length ≤ s'.log.length := by
  obtain hk | ⟨-, rfl⟩ | ⟨-, -, rfl⟩ | ⟨-, -, rfl⟩ | ⟨accepted, -, rfl⟩ | ⟨c, -, rfl⟩ :=
    step_cases hs
  · obtain ⟨-, -, -, -, -, -, hlog, -⟩ := hk.eqs
    exact Nat.le_of_eq (congrArg List.length hlog.symm)
  · exact Nat.le_refl _
  · exact Nat.le_succ _
  · exact Nat.le_refl _
  · exact Nat.le_refl _
  · exact Nat.le_of_eq (congrArg List.length (set_log s c).symm)

theorem Ahead.next (h : s.worker.ahead s.shown) (hs : next s = some s') :
    s.log.length < s'.log.length ∨ s'.log = s.log ∧ s'.worker.ahead s'.shown := by
  unfold ApNetworkSetupScreen.next at hs
  split at hs
  next hpc => -- start
    cases hs
    split
    · exact .inr ⟨rfl, trivial⟩
    · exact .inr ⟨rfl, rfl⟩
  next hpc => -- head
    cases hs
    rw [hpc] at h
    split
    · exact .inr ⟨rfl, trivial⟩
    · exact .inr ⟨rfl, h⟩
  next hpc => -- snapshot
    cases hs
    rw [hpc] at h
    have hshown : s.shown = false := h
    rw [if_pos (by simp [hshown])]
    exact .inl (Nat.lt_succ_self _)
  next hpc => -- failed
    rw [hpc] at h
    exact h.elim
  next site hpc => -- lock
    rw [hpc] at h
    exact h.elim
  next site deadline late hpc => -- test
    cases hs
    rw [hpc] at h
    cases site with
    | recheck => split <;> exact .inr ⟨rfl, h⟩
    | backoff => exact h.elim
  next site deadline hpc => -- enter
    cases hs
    rw [hpc] at h
    cases site with
    | recheck => exact .inr ⟨rfl, h⟩
    | backoff => exact h.elim
  next site deadline hpc => -- blocked
    obtain ⟨-, hs⟩ := Option.ite_none_right_eq_some.mp hs
    cases hs
    rw [hpc] at h
    cases site with
    | recheck => exact .inr ⟨rfl, h⟩
    | backoff => exact h.elim
  next site deadline late hpc => -- woken
    cases hs
    rw [hpc] at h
    cases site with
    | recheck => exact .inr ⟨rfl, h⟩
    | backoff => exact h.elim
  next hpc => -- leave
    cases hs
    rw [hpc] at h
    exact .inr ⟨rfl, h⟩
  next hpc =>
    rw [hpc] at h
    exact h.elim
  all_goals cases hs

theorem Ahead.step (h : Ahead n s) (hs : step s a = some s') : Ahead n s' := by
  obtain hlt | ⟨rfl, hpc⟩ := h
  · exact .inl (Nat.lt_of_lt_of_le hlt (log_le hs))
  have hsame (hlog : s'.log = s.log) (hpc' : s'.worker.ahead s'.shown) : Ahead s.log.length s' :=
    .inr ⟨by rw [hlog], hpc'⟩
  cases a with
  | own o =>
    cases o with
    | next =>
      obtain hlt | ⟨hlog, hpc'⟩ := Ahead.next hpc hs
      · exact .inl hlt
      · exact hsame hlog hpc'
    | shows =>
      obtain ⟨hpaint, -⟩ := Option.ite_none_right_eq_some.mp hs
      rw [hpaint] at hpc
      exact hpc.elim
    | returns | throws =>
      simp only [ApNetworkSetupScreen.step, ownStep] at hs
      split at hs
      next accepted hpaint =>
        rw [hpaint] at hpc
        exact hpc.elim
      · cases hs
  | setCredentials c =>
    obtain ⟨-, h⟩ := Option.ite_none_left_eq_some.mp hs
    cases h
    exact hsame (set_log s c) (by rwa [set_worker, set_shown])
  | tick | panel =>
    cases hs
    exact hsame rfl hpc
  | notifyOne | spurious | notifyAll =>
    obtain ⟨-, h⟩ := Option.ite_none_right_eq_some.mp hs
    cases h
    exact hsame rfl (ahead_notified hpc)
  | requestStop =>
    obtain ⟨-, h⟩ := Option.ite_none_right_eq_some.mp hs
    cases h
    exact hsame rfl hpc
  | start | join =>
    obtain ⟨-, h⟩ := Option.ite_none_right_eq_some.mp hs
    cases h
    exact hsame rfl trivial

/-- Before it waits again, or gives up, the thread has begun another paint. -/
def PaintsFirst (s : State) : Prop :=
  ∀ as s', machine.run s as = some s' → (∃ site, s'.worker = .lock site) ∨ s'.worker = .aborted →
    s.log.length < s'.log.length

theorem paintsFirst_of_ahead (h : s.worker.ahead s.shown) : PaintsFirst s := by
  intro as s' hrun hend
  have hahead : Ahead s.log.length s' :=
    Machine.RunBy.invariant (G := fun _ _ => True) (fun _ _ _ hI _ hs => hI.step hs)
      ⟨Machine.meets_true, hrun⟩ (.inr ⟨rfl, h⟩)
  obtain hlt | ⟨-, hpc⟩ := hahead
  · exact hlt
  · obtain ⟨site, hlock⟩ | habort := hend
    · rw [hlock] at hpc
      exact hpc.elim
    · rw [habort] at hpc
      exact hpc.elim

/-! ## On the way -/

/-- Steps of the thread to the next paint at the most. -/
def Pc.distance : Pc → Nat
  | .painting false => 13
  | .painting true => 12
  | .failed => 11
  | .lock _ | .woken _ _ false => 10
  | .test _ _ false => 9
  | .enter _ _ => 8
  | .blocked _ _ => 7
  | .woken _ _ true => 6
  | .test _ _ true => 5
  | .leave _ => 4
  | .start => 3
  | .head => 2
  | .snapshot => 1
  | .idle | .exited | .aborted => 0

/-- There is a thread, and the process. -/
def Pc.alive : Pc → Bool
  | .idle | .exited | .aborted => false
  | _ => true

/-- Another paint is due: no stop is requested, and the thread begins a new run, or
there are new credentials, or the last paint has failed. -/
structure Due (s : State) : Prop where
  running : s.stopRequested = false
  alive : s.worker.alive = true
  reason : s.worker.stage = .out ∨ s.dirty_ = true ∨ s.worker.stage ≠ .painting ∧ s.shown = false

/-- The step of the thread begins a paint, is the end of the process, or comes nearer. -/
def Nearer (s s' : State) : Prop :=
  s.log.length < s'.log.length ∨ s'.worker = .aborted ∨
    Due s' ∧ s'.log = s.log ∧ s'.worker.distance < s.worker.distance

theorem Due.goto (h : Due s) {pc : Pc} (halive : pc.alive = true)
    (hstage : pc.stage = s.worker.stage ∨ s.worker.stage = .wait ∧ pc.stage = .top ∨
      pc.stage = .out)
    (hlt : pc.distance < s.worker.distance) : Nearer s (s.goto pc) := by
  refine .inr (.inr ⟨⟨h.running, halive, ?_⟩, rfl, hlt⟩)
  show pc.stage = .out ∨ s.dirty_ = true ∨ pc.stage ≠ .painting ∧ s.shown = false
  obtain hsame | ⟨hwait, htop⟩ | hout := hstage
  · rw [hsame]
    exact h.reason
  · have hreason := h.reason
    rw [hwait] at hreason
    rw [htop]
    simpa using hreason
  · exact .inl hout

theorem Due.next (h : Due s) (hs : next s = some s') : Nearer s s' := by
  unfold ApNetworkSetupScreen.next at hs
  split at hs
  next hpc => -- start
    cases hs
    rw [if_neg (by simp [h.running])]
    exact .inr (.inr ⟨⟨h.running, rfl, .inr (.inr ⟨by rintro ⟨⟩, rfl⟩)⟩, rfl,
      by simp [hpc, Pc.distance, State.enter]⟩)
  next hpc => -- head
    cases hs
    rw [if_neg (by simp [h.running])]
    exact h.goto rfl (.inl (by rw [hpc]; rfl)) (by simp [hpc, Pc.distance])
  next hpc => -- snapshot
    cases hs
    have hreason : s.dirty_ = true ∨ s.shown = false := by simpa [hpc, Pc.stage] using h.reason
    rw [if_pos (by obtain h | h := hreason <;> simp [h])]
    exact .inl (Nat.lt_succ_self _)
  next hpc => -- failed
    rw [if_neg (by simp [h.running])] at hs
    split at hs
    · cases hs
      exact .inr (.inr ⟨⟨h.running, rfl, .inl rfl⟩, rfl, by simp [hpc, Pc.distance]⟩)
    · cases hs
      exact .inr (.inl rfl)
  next site hpc => -- lock
    cases hs
    exact h.goto rfl (.inl (by rw [hpc]; rfl)) (by simp [hpc, Pc.distance])
  next site deadline late hpc => -- test
    cases hs
    split
    next hleave =>
      exact h.goto rfl (.inl (by rw [hpc]; rfl)) (by cases late <;> simp [hpc, Pc.distance])
    next hstay =>
      obtain rfl : late = false := by
        cases late with
        | false => rfl
        | true => simp at hstay
      exact h.goto rfl (.inl (by rw [hpc]; rfl)) (by simp [hpc, Pc.distance])
  next site deadline hpc => -- enter
    cases hs
    exact h.goto rfl (.inl (by rw [hpc]; rfl)) (by simp [hpc, Pc.distance])
  next site deadline hpc => -- blocked
    obtain ⟨-, hs⟩ := Option.ite_none_right_eq_some.mp hs
    cases hs
    exact h.goto rfl (.inl (by rw [hpc]; rfl)) (by simp [hpc, Pc.distance])
  next site deadline late hpc => -- woken
    cases hs
    exact h.goto rfl (.inl (by rw [hpc]; rfl)) (by cases late <;> simp [hpc, Pc.distance])
  next hpc => -- leave
    cases hs
    exact h.goto rfl (.inr (.inl ⟨by rw [hpc]; rfl, rfl⟩)) (by simp [hpc, Pc.distance])
  next hpc =>
    cases hs
    exact h.goto rfl (.inr (.inr rfl)) (by simp [hpc, Pc.distance])
  all_goals cases hs

theorem Due.own (h : Due s) (hs : ownStep s o = some s') : Nearer s s' := by
  cases o with
  | next => exact h.next hs
  | shows =>
    obtain ⟨hpc, hs⟩ := Option.ite_none_right_eq_some.mp hs
    cases hs
    have hreason := h.reason
    rw [hpc] at hreason
    exact .inr (.inr ⟨⟨h.running, rfl, hreason⟩, rfl, by simp [hpc, Pc.distance]⟩)
  | returns =>
    simp only [ownStep] at hs
    split at hs
    next accepted hpc =>
      cases hs
      -- the credentials have changed during the paint
      have hdirty : s.dirty_ = true := by simpa [hpc, Pc.stage] using h.reason
      exact .inr (.inr ⟨⟨h.running, rfl, .inr (.inl hdirty)⟩, rfl,
        by cases accepted <;> simp [hpc, Pc.distance]⟩)
    · cases hs
  | throws =>
    simp only [ownStep] at hs
    split at hs
    next accepted hpc =>
      cases hs
      exact h.goto rfl (.inr (.inr rfl)) (by cases accepted <;> simp [hpc, Pc.distance])
    · cases hs

def Act.isOwn : Act → Bool
  | .own _ => true
  | _ => false

/-- The labels that wake the thread up in its wait. -/
def Act.isWake : Act → Bool
  | .notifyOne | .spurious | .notifyAll => true
  | _ => false

theorem notified_distance (pc : Pc) : pc.notified.distance ≤ pc.distance + 3 := by
  cases pc with
  | blocked site deadline => exact Nat.le_refl _
  | _ => exact Nat.le_add_right _ _

@[simp] theorem notified_alive (pc : Pc) : pc.notified.alive = pc.alive := by
  cases pc <;> rfl

theorem distance_le (pc : Pc) : pc.distance ≤ 13 := by
  unfold Pc.distance
  split <;> decide

theorem Due.set (h : Due s) (c : Credentials) : Due (s.set c) := by
  refine ⟨(set_stopRequested s c).trans h.running, by rw [set_worker]; exact h.alive, ?_⟩
  unfold State.set
  split
  · exact h.reason
  · exact .inr (.inl rfl)

/-- What the others do neither settles nor delays the paint, but for a wake-up. -/
theorem Due.other (h : Due s) (hown : a.isOwn = false) (hstop : a ≠ .requestStop)
    (hs : step s a = some s') :
    Due s' ∧ s'.log = s.log ∧
      s'.worker.distance ≤ s.worker.distance + if a.isWake then 3 else 0 := by
  cases a with
  | own o => cases hown
  | setCredentials c =>
    obtain ⟨-, hs⟩ := Option.ite_none_left_eq_some.mp hs
    cases hs
    rw [set_log, set_worker]
    exact ⟨h.set c, rfl, Nat.le_refl _⟩
  | tick | panel =>
    cases hs
    exact ⟨⟨h.running, h.alive, h.reason⟩, rfl, Nat.le_refl _⟩
  | notifyOne | spurious | notifyAll =>
    obtain ⟨-, hs⟩ := Option.ite_none_right_eq_some.mp hs
    cases hs
    refine ⟨⟨h.running, (notified_alive _).trans h.alive, ?_⟩, rfl, notified_distance _⟩
    simpa [State.goto] using h.reason
  | requestStop => exact absurd rfl hstop
  | start | join =>
    obtain ⟨⟨hpc, -⟩, -⟩ := Option.ite_none_right_eq_some.mp hs
    have halive := h.alive
    rw [hpc] at halive
    cases halive

/-- The process does not come back. -/
theorem aborted_of_step (h : s.worker = .aborted) (hs : step s a = some s') :
    s'.worker = .aborted := by
  cases a with
  | own o => cases o <;> simp [step, ownStep, next, h] at hs
  | setCredentials c =>
    obtain ⟨-, hs⟩ := Option.ite_none_left_eq_some.mp hs
    cases hs
    rwa [set_worker]
  | tick | panel =>
    cases hs
    exact h
  | notifyOne | spurious | notifyAll =>
    obtain ⟨-, hs⟩ := Option.ite_none_right_eq_some.mp hs
    cases hs
    show s.worker.notified = _
    rw [h]
    rfl
  | requestStop =>
    obtain ⟨-, hs⟩ := Option.ite_none_right_eq_some.mp hs
    cases hs
    exact h
  | start | join =>
    obtain ⟨⟨hpc, -⟩, -⟩ := Option.ite_none_right_eq_some.mp hs
    rw [h] at hpc
    cases hpc

theorem Due.step (h : Due s) (hstop : a ≠ .requestStop) (hs : step s a = some s') :
    s.log.length < s'.log.length ∨ s'.worker = .aborted ∨
      Due s' ∧ s'.log = s.log ∧
        s'.worker.distance + (if a.isOwn then 1 else 0) ≤
          s.worker.distance + 3 * if a.isWake then 1 else 0 := by
  cases hown : a.isOwn with
  | true =>
    obtain ⟨o, rfl⟩ : ∃ o, a = .own o := by
      cases a <;> first | exact ⟨_, rfl⟩ | cases hown
    exact (h.own hs).imp_right (.imp_right fun ⟨hdue, hlog, hlt⟩ => ⟨hdue, hlog, hlt⟩)
  | false =>
    obtain ⟨hdue, hlog, hle⟩ := h.other hown hstop hs
    refine .inr (.inr ⟨hdue, hlog, ?_⟩)
    split at hle
    next hwake => simpa [hwake] using hle
    next hwake => simpa [hwake] using hle

/-- A run without a stop: a paint was begun, the process has ended, or the paint is still
due and as many steps nearer. -/
theorem Due.run (h : Due s) (hstop : .requestStop ∉ as) (hrun : machine.run s as = some s') :
    s.log.length < s'.log.length ∨ s'.worker = .aborted ∨
      Due s' ∧ s'.worker.distance + as.countP Act.isOwn ≤
        s.worker.distance + 3 * as.countP Act.isWake := by
  have hmeets (t : State) (bs : List Act) : machine.Meets (fun _ _ => True) t bs :=
    Machine.meets_true
  induction as generalizing s with
  | nil =>
    cases hrun
    exact .inr (.inr ⟨h, Nat.le_refl _⟩)
  | cons a as ih =>
    obtain ⟨hne, hstop⟩ := List.ne_and_not_mem_of_not_mem_cons hstop
    obtain ⟨t, ht, hrun⟩ := Option.bind_eq_some_iff.mp hrun
    obtain hlt | habort | ⟨hdue, hlog, hle⟩ := h.step (Ne.symm hne) ht
    · exact .inl (Machine.RunBy.invariant (I := fun u => s.log.length < u.log.length)
        (fun _ _ _ hI _ hs => Nat.lt_of_lt_of_le hI (log_le hs)) ⟨hmeets t as, hrun⟩ hlt)
    · exact .inr (.inl (Machine.RunBy.invariant (I := fun u => u.worker = .aborted)
        (fun _ _ _ hI _ hs => aborted_of_step hI hs) ⟨hmeets t as, hrun⟩ habort))
    · refine (ih hdue hstop hrun).imp (fun hlt => hlog ▸ hlt)
        (.imp_right fun ⟨hdue', hle'⟩ => ⟨hdue', ?_⟩)
      rw [List.countP_cons, List.countP_cons]
      omega

/-- Only a timed wait holds the thread up. -/
theorem Due.enabled (h : Due s) :
    (∃ o, (ownStep s o).isSome = true) ∨
      ∃ site deadline, s.worker = .blocked site deadline ∧ s.now < deadline := by
  cases hpc : s.worker with
  | blocked site deadline =>
    by_cases hlate : deadline ≤ s.now
    · exact .inl ⟨.next, by simp [ownStep, ApNetworkSetupScreen.next, hpc, hlate]⟩
    · exact .inr ⟨site, deadline, rfl, by omega⟩
  | painting accepted => exact .inl ⟨.returns, by simp [ownStep, hpc]⟩
  | idle | exited | aborted =>
    have halive := h.alive
    rw [hpc] at halive
    cases halive
  | failed =>
    refine .inl ⟨.next, ?_⟩
    simp only [ownStep, ApNetworkSetupScreen.next, hpc]
    split
    · rfl
    · split <;> rfl
  | leave site =>
    cases site <;> exact .inl ⟨.next, by simp [ownStep, ApNetworkSetupScreen.next, hpc]⟩
  | _ => exact .inl ⟨.next, by simp [ownStep, ApNetworkSetupScreen.next, hpc]⟩

/-- While no stop is requested and the process lives, another paint is begun: until
then some step of the thread is enabled or it waits for its time to be up, and so
few steps lead there. -/
def GoesOn (s : State) : Prop :=
  ∀ as s', machine.run s as = some s' → .requestStop ∉ as → s'.worker ≠ .aborted →
    s.log.length < s'.log.length ∨
    as.countP Act.isOwn ≤ 13 + 3 * as.countP Act.isWake ∧
      ((∃ o, (ownStep s' o).isSome = true) ∨
        ∃ site deadline, s'.worker = .blocked site deadline ∧ s'.now < deadline)

theorem Due.goesOn (h : Due s) : GoesOn s := by
  intro as s' hrun hstop halive
  obtain hlt | habort | ⟨hdue, hle⟩ := h.run hstop hrun
  · exact .inl hlt
  · exact absurd habort halive
  · have hdist := distance_le s.worker
    exact .inr ⟨by omega, hdue.enabled⟩

/-! ## The newest credentials -/

/-- Whatever is set, wiped, stopped and started in between: at rest the newest paint is of
the credentials set last, and it has succeeded or is tried again. Credentials that
change during a paint are painted next, those that do not change nothing, and of each run
the first paint alone is immediate. -/
theorem newest_credentials (hr : machine.Reachable s) :
    (∀ deadline, s.worker = .blocked .recheck deadline → s.dirty_ = false →
      deadline ≤ s.now + kRecheck ∧
      ∃ a older, s.log = a :: older ∧ a.credentials = s.setLast ∧
        (s.outcome = some true ∨
          s.outcome = some false ∧ PaintsFirst s ∧ (s.stopRequested = false → GoesOn s))) ∧
    (∀ a ∈ s.log, a.credentials = a.setLast) ∧
    (∀ accepted c s', s.worker = .painting accepted → c ≠ s.setLast → s.stopRequested = false →
      step s (.setCredentials c) = some s' → GoesOn s') ∧
    (s.worker.holds = false → step s (.setCredentials s.setLast) = some s) ∧
    (∀ deadline as s', s.worker = .blocked .recheck deadline → s.dirty_ = false →
      s.outcome = some true → s.isCleared = false → s.stopRequested = false → machine.run s as = some s' →
      (∀ a ∈ as, Harmless s.setLast a) → s'.log = s.log) ∧
    FirstImmediate s.log := by
  have hinv := inv_of_reachable hr
  have hrest {deadline : Nat} (hpc : s.worker = .blocked .recheck deadline) :
      s.outcome = some s.shown ∧ Newest s := hinv.wait (by rw [hpc]; rfl)
  refine ⟨fun deadline hpc hdirty => ?_, hinv.current,
    fun accepted c s' hpc hc hrunning hs => ?_, fun hfree => ?_,
    fun deadline as s' hpc hdirty hout hcleared hrunning hrun hharmless => ?_,
    (counted_of_reachable hr).first⟩
  · obtain ⟨hout, hnewest⟩ := hrest hpc
    refine ⟨deadline_le hr (.recheck, deadline) (by rw [hpc]; rfl), ?_⟩
    obtain ⟨a, hhead, hcred⟩ := Option.map_eq_some_iff.mp (hnewest hdirty)
    obtain ⟨older, hlog⟩ := List.head?_eq_some_iff.mp hhead
    refine ⟨a, older, hlog, hcred.trans hinv.setLast.symm, ?_⟩
    cases hshown : s.shown with
    | true => exact .inl (hshown ▸ hout)
    | false =>
      refine .inr ⟨hshown ▸ hout, paintsFirst_of_ahead (by rw [hpc]; exact hshown),
        fun hrunning => ?_⟩
      exact Due.goesOn ⟨hrunning, by rw [hpc]; rfl, .inr (.inr ⟨by rw [hpc]; rintro ⟨⟩, hshown⟩)⟩
  · obtain ⟨-, hs⟩ := Option.ite_none_left_eq_some.mp hs
    cases hs
    have hdirty : (s.set c).dirty_ = true := by
      unfold State.set
      rw [if_neg fun heq => hc (heq.trans hinv.setLast.symm)]
    exact Due.goesOn ⟨(set_stopRequested s c).trans hrunning, by rw [set_worker, hpc]; rfl,
      .inr (.inl hdirty)⟩
  · rw [step, if_neg (by simp [hfree]), State.set, if_pos hinv.setLast]
  · obtain ⟨hshown, -⟩ := hrest hpc
    have hshown : s.shown = true := Option.some.inj (hshown.symm.trans hout)
    have hrests : Rests s.setLast s.log s :=
      ⟨⟨hshown, hdirty, hcleared⟩, hinv.setLast.symm, hrunning, .inr (by rw [hpc]; rfl), rfl⟩
    exact (Machine.RunBy.invariant (G := fun _ a => Harmless s.setLast a)
      (fun _ _ _ hI hG hs => hI.step hG hs) ⟨Machine.meets_of_mem fun a ha _ => hharmless a ha, hrun⟩ hrests).log

/-- The password changes during the first paint, and the second one fails. -/
theorem newest_credentials_changed :
    ∃ s, machine.Reachable s ∧ s.setLast = ⟨"frame", "new"⟩ ∧ s.outcome = some false ∧
      ∃ a older, s.log = a :: older ∧ a.credentials = ⟨"frame", "new"⟩ ∧ PaintsFirst s ∧
        GoesOn s := by
  let t : State := { now := 0, isCleared := true }
  let labels : List Act :=
    [.setCredentials ⟨"frame", "old"⟩, .start, .own .next, .own .next, .own .next, .own .shows,
      .setCredentials ⟨"frame", "new"⟩, .own .returns, .own .next, .own .next, .own .next,
      .own .next, .own .next, .own .returns, .own .next, .own .next, .own .next]
  obtain ⟨s, hr, hset, hout, hdirty, hrunning, deadline, hpc⟩ : ∃ s, machine.Reachable s ∧
      s.setLast = ⟨"frame", "new"⟩ ∧ s.outcome = some false ∧ s.dirty_ = false ∧
      s.stopRequested = false ∧ ∃ deadline, s.worker = .blocked .recheck deadline :=
    Machine.exists_reachable_of_run labels (s := t) rfl ⟨_, rfl, rfl, rfl, rfl, rfl, _, rfl⟩
  obtain ⟨-, a, older, hlog, hcred, hend⟩ := (newest_credentials hr).1 _ hpc hdirty
  obtain hdone | ⟨-, hfirst, hgoes⟩ := hend
  · rw [hout] at hdone
    cases hdone
  · exact ⟨s, hr, hset, hout, a, older, hlog, hset ▸ hcred, hfirst, hgoes hrunning⟩

end ShareFrame.ApNetworkSetupScreen
