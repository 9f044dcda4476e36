import ShareFrame.Task.Manager.Rounds

/-!
# The deadline of the wait

Against the screen asked for at a given time (`screenAt`). While the manager
waits and no event is pending, what it read in its last round is what is still
stored (`ReadsInv`), and up to its deadline the clocks do not change the screen
asked for (`screenAt_congr`). What is left is the time between the reads of a
round and the next deadline: a night boundary or the end of the registration
window that passes there is slept through (`night_start_slept_through`), and
only there (`blocked_upToDate`).
-/

namespace ShareFrame.DisplayTaskManager

open Transition

variable (cfg : Config)

/-- The screen that the latest events and the clocks ask for at steady time `t`. -/
def screenAt (s : State) (t : Nat) : DisplayState :=
  if s.latestStatus.kind.isSome ∧ (t : Int) < statusDeadline cfg s then .status
  else if s.latest.required then .apSetup
  else if s.registrationWindow.required (steadySecs t) then .registration
  else if nightBlankAt cfg s t then .nightBlank
  else .slideshow

/-- No event is pending: `changed_` is not set and no stored night mode is yet to be announced. -/
def Quiet (s : State) : Prop := s.changed = false ∧ s.nightPending = false

/-- The manager's thread is blocked in its wait. -/
structure Blocked (s : State) : Prop where
  waiting : ∃ w t₀, s.pc = .waiting w t₀ ∧ ∀ d ∈ w, (s.now : Int) < d
  quiet : Quiet s
  running : s.stopRequested = false

/-- `state_` is the screen asked for, up to the second to which the clocks are read. -/
def UpToDate (s : State) : Prop :=
  ∃ t, t ≤ s.now ∧ s.now ≤ t + second ∧ s.state = screenAt cfg s t

/-- What the round read from the clocks still holds at steady time `t`, as far as no higher screen
hides it. -/
def Timely (s : State) (t : Nat) : Prop :=
  s.latestStatus.kind = none → s.latest.required = false →
    s.registrationWindow.required (steadySecs t) =
        s.registrationWindow.required (steadySecs s.snapAt) ∧
      (s.registrationWindow.required (steadySecs t) = false →
        nightBlankAt cfg s t = nightBlankAt cfg s s.readAt)

/-- No switch throws, and whenever the manager computes its deadline with no event pending, no night
boundary and no end of the registration window has passed since the round read the clocks. -/
def NoBoundaryInRound (s : State) (a : Act) : Prop :=
  NoSwitchThrows s a ∧
    (a = .manager → s.pc = .loop → Quiet s → s.stopRequested = false → Timely cfg s s.now)

instance (s : State) : Decidable (Quiet s) := by unfold Quiet; infer_instance

instance (s : State) (t : Nat) : Decidable (Timely cfg s t) := by unfold Timely; infer_instance

instance (s : State) (a : Act) : Decidable (NoSwitchThrows s a) := by
  unfold NoSwitchThrows; infer_instance

instance (s : State) (a : Act) : Decidable (NoBoundaryInRound cfg s a) := by
  unfold NoBoundaryInRound; infer_instance

variable {cfg}

/-- A status screen outlives the snapshot unless it timed out. -/
theorem snapshot_status_isSome (s : State) : (snapshot cfg s).snap.status.kind.isSome =
    (s.latestStatus.kind.isSome && decide ((s.now : Int) < statusDeadline cfg s)) := by
  simp only [snapshot, statusTimedOut]
  by_cases ht : (s.now : Int) < statusDeadline cfg s
  · simp [ht, Int.not_le.mpr ht]
  · by_cases hk : s.latestStatus.kind.isSome = true <;> simp [ht, hk, Int.not_lt.mp ht]

/-- A round without delay asks for `screenAt` at its time. -/
theorem wanted_snapshot (s : State) : wanted cfg (snapshot cfg s) = screenAt cfg s s.now := by
  simp only [wanted, target, screenAt, snapshot_status_isSome, Bool.and_eq_true, decide_eq_true_eq]
  rfl

/-! ## Up to the deadline -/

theorem earlier_lt {w : Option Int} {t n : Int} (h : ∀ d ∈ earlier w t, n < d) :
    n < t ∧ ∀ d ∈ w, n < d := by
  cases w with
  | none => exact ⟨h t rfl, fun d hd => by cases hd⟩
  | some w =>
    have := h (min w t) rfl
    refine ⟨by omega, fun d hd => ?_⟩
    cases hd; omega

/-- Each of the three ends is at or behind the deadline. -/
theorem before_wakeAt {s : State} {t : Nat} {n : Int} (h : ∀ d ∈ wakeAt cfg s t, n < d) :
    (0 ≤ s.night.val.secsUntilNightBlankChange (cfg.clock.localNow t) →
      n < t + s.night.val.secsUntilNightBlankChange (cfg.clock.localNow t) * second) ∧
    (s.latestStatus.kind.isSome = true → n < statusDeadline cfg s) ∧
    (∀ u, s.registrationWindow.endsAt (steadySecs t) = some u → n < u * second) := by
  have hnight : ∀ {k : Int} {p : Prop} [Decidable p],
      (∀ d ∈ (if p then some k else none), n < d) → p → n < k :=
    fun h hp => h _ (by rw [if_pos hp]; rfl)
  simp only [wakeAt] at h
  have hinner : ∀ w, (∀ d ∈ (if s.latestStatus.kind.isSome = true
      then earlier w (statusDeadline cfg s) else w), n < d) →
      (s.latestStatus.kind.isSome = true → n < statusDeadline cfg s) ∧ ∀ d ∈ w, n < d := by
    intro w hw
    split at hw
    · exact ⟨fun _ => (earlier_lt hw).1, (earlier_lt hw).2⟩
    next hk => exact ⟨fun hk' => absurd hk' hk, hw⟩
  split at h
  next ends hends =>
    obtain ⟨hlt, h⟩ := earlier_lt h
    obtain ⟨hstatus, h⟩ := hinner _ h
    exact ⟨hnight h, hstatus, fun u hu => by
      rw [hends] at hu; cases hu
      exact hlt⟩
  next hends =>
    obtain ⟨hstatus, h⟩ := hinner _ h
    exact ⟨hnight h, hstatus, fun u hu => by rw [hends] at hu; cases hu⟩

/-- Up to the deadline, and a full second before it for the local clock, the answers are those of
the time at which the deadline was computed. -/
theorem answers_congr {s : State} {t u n : Nat} (htu : t ≤ u) (hun : u ≤ n)
    (hu : u = t ∨ u + second ≤ n) (h : ∀ d ∈ wakeAt cfg s t, (n : Int) < d) :
    (s.latestStatus.kind.isSome = true → (u : Int) < statusDeadline cfg s) ∧
      s.registrationWindow.required (steadySecs u) =
        s.registrationWindow.required (steadySecs t) ∧
      nightBlankAt cfg s u = nightBlankAt cfg s t := by
  obtain ⟨hnight, hstatus, hreg⟩ := before_wakeAt h
  refine ⟨fun hk => ?_, RegistrationWindow.required_congr ?_ fun e he => ?_, ?_⟩
  · have := hstatus hk; omega
  · simp only [steadySecs, second]; omega
  · have := hreg e he
    simp only [steadySecs, second] at *; omega
  · rcases hu with rfl | hu
    · rfl
    · refine NightMode.isNightBlankNow_congr s.night.property (Clock.localSecs_mono _ htu) fun h0 => ?_
      obtain ⟨k, hk⟩ := Int.eq_ofNat_of_zero_le h0
      have hlt := hnight h0
      simp only [Clock.localNow] at hlt
      rw [hk] at hlt ⊢
      have := cfg.clock.localSecs_lt (t := t) (u := u) (k := k) (by simp only [second] at *; omega)
      omega

/-! ## What the last round read is what is still stored -/

structure ReadsInv (cfg : Config) (s : State) : Prop where
  first : s.round = 0 → ¬ Quiet s
  latest : Quiet s → s.snap.apSetup = s.latest ∧ s.snap.status = s.latestStatus ∧
    s.snap.registration = s.registrationWindow.required (steadySecs s.snapAt)
  night : Quiet s → s.pc ≠ .apply → s.nightRead = nightBlankAt cfg s s.readAt
  wait : ∀ w t₀, s.pc = .waiting w t₀ → Quiet s → s.stopRequested = false →
    t₀ ≤ s.now ∧ w = wakeAt cfg s t₀

theorem readsInv_init {s : State} (h : (machine cfg).Init s) : ReadsInv cfg s := by
  obtain ⟨now, night, active, rfl⟩ := h
  refine ⟨fun _ => ?_, ?_, ?_, ?_⟩
  · rintro ⟨h, -⟩; cases h
  · rintro ⟨h, -⟩; cases h
  · rintro ⟨h, -⟩; cases h
  · intro w t₀ h; cases h

/-- A step of another thread behind which no event is pending stored nothing. -/
structure Undisturbed (s s' : State) : Prop where
  quiet : Quiet s
  running : s'.stopRequested = false → s.stopRequested = false
  now : s.now ≤ s'.now
  latest : s'.latest = s.latest
  latestStatus : s'.latestStatus = s.latestStatus
  statusSince : s'.statusSince = s.statusSince
  registrationWindow : s'.registrationWindow = s.registrationWindow
  night : s'.night = s.night

theorem not_quiet_handler {s s' : State} {f : State → State} (hs : handler s f = some s') :
    ¬ Quiet s' := by
  unfold handler at hs
  split at hs <;> cases hs
  rintro ⟨h, -⟩; cases h

theorem undisturbed_paintStep {s s' : State} {c : Content} {f : Thread → Option Thread}
    (hs : paintStep s c f = some s') (hq : Quiet s') : Undisturbed s s' := by
  unfold paintStep at hs
  cases hc : s.tasks c with
  | none => simp [hc] at hs
  | some th =>
    simp only [hc, Option.map_eq_some_iff] at hs
    obtain ⟨th', -, rfl⟩ := hs
    exact ⟨hq, id, Nat.le_refl _, rfl, rfl, rfl, rfl, rfl⟩

theorem undisturbed_step {s s' : State} {a : Act} (hm : a ≠ .manager) (ht : a ≠ .throws)
    (hs : step cfg s a = some s') (hq : Quiet s') : Undisturbed s s' := by
  cases a with
  | manager => exact absurd rfl hm
  | throws => exact absurd rfl ht
  | tick d => cases hs; exact ⟨hq, id, Nat.le_add_right _ _, rfl, rfl, rfl, rfl, rfl⟩
  | apSetupState evt => simp only [step] at hs; exact absurd hq (not_quiet_handler hs)
  | statusScreen evt => simp only [step] at hs; exact absurd hq (not_quiet_handler hs)
  | frameRegistration r => simp only [step] at hs; exact absurd hq (not_quiet_handler hs)
  | scheduledClear => simp only [step] at hs; exact absurd hq (not_quiet_handler hs)
  | storeNightMode night =>
    simp only [step] at hs
    split at hs <;> cases hs
    exact absurd hq.2 (by simp)
  | updateNightMode =>
    simp only [step] at hs
    split at hs <;> cases hs
    exact absurd hq.1 (by simp)
  | setSlideshowActive active =>
    simp only [step] at hs
    split at hs <;> cases hs
    exact ⟨hq, id, Nat.le_refl _, rfl, rfl, rfl, rfl, rfl⟩
  | requestStop => cases hs; exact ⟨hq, fun h => (by cases h), Nat.le_refl _, rfl, rfl, rfl, rfl, rfl⟩
  | requestShutdown => cases hs; exact ⟨hq, id, Nat.le_refl _, rfl, rfl, rfl, rfl, rfl⟩
  | paint c => exact undisturbed_paintStep hs hq
  | checkStop c => exact undisturbed_paintStep hs hq
  | beginRefresh c => exact undisturbed_paintStep hs hq
  | endRefresh c => exact undisturbed_paintStep hs hq
  | sendFails c => exact undisturbed_paintStep hs hq
  | exit c => exact undisturbed_paintStep hs hq

theorem Undisturbed.nightBlankAt {s s' : State} (h : Undisturbed s s') (t : Nat) :
    nightBlankAt cfg s' t = nightBlankAt cfg s t := by
  simp only [DisplayTaskManager.nightBlankAt, h.night]

theorem Undisturbed.statusDeadline {s s' : State} (h : Undisturbed s s') :
    statusDeadline cfg s' = statusDeadline cfg s := by
  simp only [DisplayTaskManager.statusDeadline, h.statusSince]

theorem Undisturbed.wakeAt {s s' : State} (h : Undisturbed s s') (t : Nat) :
    wakeAt cfg s' t = wakeAt cfg s t := by
  simp only [DisplayTaskManager.wakeAt, h.night, h.latestStatus, h.statusDeadline,
    h.registrationWindow]

theorem Undisturbed.screenAt {s s' : State} (h : Undisturbed s s') (t : Nat) :
    screenAt cfg s' t = screenAt cfg s t := by
  simp only [DisplayTaskManager.screenAt, h.latestStatus, h.latest, h.registrationWindow,
    h.statusDeadline, h.nightBlankAt]

/-- Steps of the other threads. -/
theorem ReadsInv.congr {s s' : State} (hi : ReadsInv cfg s) (hsame : SameManager s s')
    (hu : Quiet s' → Undisturbed s s') : ReadsInv cfg s' where
  first hr hq := hi.first (hsame.round ▸ hr) (hu hq).quiet
  latest hq := by
    have h := hu hq
    rw [hsame.snap, hsame.snapAt, h.latest, h.latestStatus, h.registrationWindow]
    exact hi.latest h.quiet
  night hq hp := by
    have h := hu hq
    rw [hsame.nightRead, hsame.readAt, h.nightBlankAt]
    exact hi.night h.quiet (hsame.pc ▸ hp)
  wait w t₀ hp hq hrun := by
    have h := hu hq
    obtain ⟨hle, hw⟩ := hi.wait w t₀ (hsame.pc ▸ hp) h.quiet (h.running hrun)
    exact ⟨Nat.le_trans hle h.now, by rw [h.wakeAt]; exact hw⟩

theorem ReadsInv.of_others {s s' : State} {a : Act} (hi : ReadsInv cfg s) (hm : a ≠ .manager)
    (ht : a ≠ .throws) (hs : step cfg s a = some s') : ReadsInv cfg s' :=
  hi.congr (sameManager_step hm ht hs) (undisturbed_step hm ht hs)

/-! ## Steps of the manager's thread -/

/-- What most steps of the manager leave alone. -/
structure SameReads (s s' : State) : Prop where
  changed : s'.changed = s.changed
  nightPending : s'.nightPending = s.nightPending
  latest : s'.latest = s.latest
  latestStatus : s'.latestStatus = s.latestStatus
  registrationWindow : s'.registrationWindow = s.registrationWindow
  night : s'.night = s.night
  snap : s'.snap = s.snap
  snapAt : s'.snapAt = s.snapAt
  readAt : s'.readAt = s.readAt
  nightRead : s'.nightRead = s.nightRead
  round : s'.round = s.round

theorem ReadsInv.congr_away {s s' : State} (hi : ReadsInv cfg s) (h : SameReads s s')
    (hp : s.pc ≠ .apply) (hw : ∀ w t₀, s'.pc ≠ .waiting w t₀) : ReadsInv cfg s' := by
  have hq : Quiet s' → Quiet s := fun hq => ⟨h.changed ▸ hq.1, h.nightPending ▸ hq.2⟩
  constructor
  · exact fun hr hq' => hi.first (h.round ▸ hr) (hq hq')
  · intro hq'
    rw [h.snap, h.snapAt, h.latest, h.latestStatus, h.registrationWindow]
    exact hi.latest (hq hq')
  · intro hq' _
    rw [h.nightRead, h.readAt, nightBlankAt, h.night]
    exact hi.night (hq hq') hp
  · exact fun w t₀ hw' => absurd hw' (hw w t₀)

theorem sameReads_of_pc (s : State) (pc : Pc) : SameReads s { s with pc } :=
  ⟨rfl, rfl, rfl, rfl, rfl, rfl, rfl, rfl, rfl, rfl, rfl⟩

theorem sameReads_caught (s : State) : SameReads s (caught s) := by
  obtain he | he | ⟨d, restarts, he⟩ := caught_cases s <;> rw [he] <;>
    exact ⟨rfl, rfl, rfl, rfl, rfl, rfl, rfl, rfl, rfl, rfl, rfl⟩

theorem not_waiting_caught (s : State) (w : Option Int) (t₀ : Nat) :
    (caught s).pc ≠ .waiting w t₀ := by
  obtain he | he | ⟨d, restarts, he⟩ := caught_cases s <;> rw [he] <;> intro h <;> cases h

theorem readsInv_throws {s s' : State} (hi : ReadsInv cfg s) (hs : managerThrows s = some s') :
    ReadsInv cfg s' := by
  unfold managerThrows at hs
  split at hs
  next hp =>
    cases hs
    exact hi.congr_away (sameReads_caught s) (by rw [hp]; simp) (not_waiting_caught s)
  next t hp =>
    split at hs <;> cases hs
    exact hi.congr_away { sameReads_caught _ with } (by rw [hp]; simp) (not_waiting_caught _)
  next t hp =>
    split at hs
    · cases hs
      exact hi.congr_away { sameReads_caught _ with } (by rw [hp]; simp) (not_waiting_caught _)
    · split at hs <;> cases hs
      exact hi.congr_away { sameReads_caught _ with } (by rw [hp]; simp) (not_waiting_caught _)
  next t hp =>
    cases hs
    exact hi.congr_away { sameReads_caught _ with } (by rw [hp]; simp) (not_waiting_caught _)
  next => cases hs

theorem readsInv_snapshot {s : State} : ReadsInv cfg (snapshot cfg s) := by
  constructor
  · intro hr; exact absurd hr (Nat.succ_ne_zero _)
  · exact fun _ => ⟨rfl, rfl, rfl⟩
  · intro _ hp; exact absurd rfl hp
  · intro w t₀ hp; cases hp

theorem readsInv_decideSwitch {s : State} (hi : ReadsInv cfg s) : ReadsInv cfg (decideSwitch cfg s) := by
  simp only [decideSwitch]
  split
  · exact ⟨hi.first, hi.latest, fun _ _ => rfl, fun w t₀ hp => by cases hp⟩
  · exact ⟨hi.first, hi.latest, fun _ _ => rfl, fun w t₀ hp => by cases hp⟩

theorem readsInv_manager {s s' : State} (hi : ReadsInv cfg s)
    (hs : manager cfg s = some s') : ReadsInv cfg s' := by
  unfold manager at hs
  split at hs
  next hp =>
    cases hs
    exact hi.congr_away { sameReads_of_pc s .loop with } (by rw [hp]; simp) (by simp)
  next hp =>
    have hne : s.pc ≠ .apply := by rw [hp]; simp
    split at hs <;> cases hs
    · exact hi.congr_away (sameReads_of_pc s _) hne (by simp)
    · refine ⟨hi.first, hi.latest, fun hq _ => hi.night hq hne, fun w t₀ h _ _ => ?_⟩
      cases h
      exact ⟨Nat.le_refl _, rfl⟩
  next w t₀ hp =>
    split at hs
    · cases hs
      exact hi.congr_away (sameReads_of_pc s _) (by rw [hp]; simp) (by simp)
    · split at hs <;> cases hs
      exact readsInv_snapshot
  next => cases hs; exact readsInv_decideSwitch hi
  next t hp =>
    cases hs
    obtain he | ⟨tasks, he⟩ := requestStopOf_cases s (.switching t .clear) (.switching t .join) <;>
      rw [he] <;> exact hi.congr_away { sameReads_of_pc s .loop with } (by rw [hp]; simp) (by simp)
  next t hp =>
    obtain ⟨c, rfl⟩ := joinOf_eq hs
    exact hi.congr_away { sameReads_of_pc s .loop with } (by rw [hp]; simp) (by simp)
  next t hp =>
    cases hs
    exact hi.congr_away (sameReads_of_pc s _) (by rw [hp]; simp) (by simp)
  next t hp =>
    cases hs
    cases t <;> exact hi.congr_away { sameReads_of_pc s .loop with } (by rw [hp]; simp) (by simp)
  next t hp =>
    cases hs
    refine hi.congr_away ?_ (by rw [hp]; simp) (by simp)
    simp only [startContent]
    split <;> exact { sameReads_of_pc s .loop with }
  next t hp =>
    cases hs
    exact hi.congr_away { sameReads_of_pc s .loop with } (by rw [hp]; simp) (by simp)
  next hp =>
    cases hs
    obtain he | ⟨tasks, he⟩ := requestStopOf_cases s .stopped (.leaving true) <;>
      rw [he] <;> exact hi.congr_away { sameReads_of_pc s .loop with } (by rw [hp]; simp) (by simp)
  next hp =>
    obtain ⟨c, rfl⟩ := joinOf_eq hs
    exact hi.congr_away { sameReads_of_pc s .loop with } (by rw [hp]; simp) (by simp)
  next d hp =>
    split at hs <;> [skip; split at hs] <;> cases hs <;>
      refine hi.congr_away { sameReads_of_pc s .loop with } (by rw [hp]; simp) ?_
    · simp
    · intro w t₀; simp only; split <;> simp
  next => cases hs
  next => cases hs

theorem readsInv_inductive (cfg : Config) (G : State → Act → Prop) :
    (machine cfg).Inductive G (ReadsInv cfg) where
  init s h := readsInv_init h
  step s a s' hi _ hs := by
    by_cases hm : a = .manager
    · subst hm; exact readsInv_manager hi hs
    · by_cases ht : a = .throws
      · subst ht; exact readsInv_throws hi hs
      · exact hi.of_others hm ht hs

/-! ## Entering the wait -/

/-- The manager enters its wait from the top of the loop only. -/
theorem manager_waiting {s s' : State} {w : Option Int} {t₀ : Nat} (hs : manager cfg s = some s')
    (hp' : s'.pc = .waiting w t₀) :
    s.pc = .loop ∧ s.stopRequested = false ∧
      s' = { s with pc := .waiting (wakeAt cfg s s.now) s.now } := by
  unfold manager at hs
  split at hs
  next => cases hs; cases hp'
  next hp =>
    split at hs
    · cases hs; cases hp'
    next hstop => cases hs; exact ⟨hp, by simpa using hstop, rfl⟩
  next =>
    split at hs
    · cases hs; cases hp'
    · split at hs <;> cases hs
      cases hp'
  next =>
    cases hs
    simp only [decideSwitch] at hp'
    split at hp' <;> cases hp'
  next t _ =>
    cases hs
    obtain he | ⟨_, he⟩ := requestStopOf_cases s (.switching t .clear) (.switching t .join) <;>
      rw [he] at hp' <;> cases hp'
  next => obtain ⟨c, rfl⟩ := joinOf_eq hs; cases hp'
  next => cases hs; cases hp'
  next => cases hs; cases hp'
  next => cases hs; cases hp'
  next => cases hs; cases hp'
  next =>
    cases hs
    obtain he | ⟨_, he⟩ := requestStopOf_cases s .stopped (.leaving true) <;>
      rw [he] at hp' <;> cases hp'
  next => obtain ⟨c, rfl⟩ := joinOf_eq hs; cases hp'
  next =>
    split at hs
    · cases hs; cases hp'
    · split at hs <;> cases hs
      cases hb : s.booted <;> simp [hb] at hp'
  next => cases hs
  next => cases hs

theorem throws_not_waiting {s s' : State} (hs : managerThrows s = some s') (w : Option Int)
    (t₀ : Nat) : s'.pc ≠ .waiting w t₀ := by
  unfold managerThrows at hs
  split at hs
  next => cases hs; exact not_waiting_caught _ w t₀
  next => split at hs <;> cases hs; exact not_waiting_caught _ w t₀
  next =>
    split at hs
    · cases hs; exact not_waiting_caught _ w t₀
    · split at hs <;> cases hs; exact not_waiting_caught _ w t₀
  next => cases hs; exact not_waiting_caught _ w t₀
  next => cases hs

/-- What is known of a quiet wait holds if it holds on entering it and other threads keep it. -/
theorem quietWait_step {P : State → Option Int → Nat → Prop} {s s' : State} {a : Act}
    (hi : ∀ w t₀, s.pc = .waiting w t₀ → Quiet s → s.stopRequested = false → P s w t₀)
    (hloop : a = .manager → s.pc = .loop → Quiet s → s.stopRequested = false →
      P { s with pc := .waiting (wakeAt cfg s s.now) s.now } (wakeAt cfg s s.now) s.now)
    (hothers : ∀ w t₀, SameManager s s' → Undisturbed s s' → P s w t₀ → P s' w t₀)
    (hs : step cfg s a = some s') :
    ∀ w t₀, s'.pc = .waiting w t₀ → Quiet s' → s'.stopRequested = false → P s' w t₀ := by
  intro w t₀ hp' hq' hrun'
  by_cases hm : a = .manager
  · subst hm
    obtain ⟨hp, hrun, rfl⟩ := manager_waiting hs hp'
    cases hp'
    exact hloop rfl hp hq' hrun
  · by_cases ht : a = .throws
    · subst ht; exact absurd hp' (throws_not_waiting hs w t₀)
    · have hsame := sameManager_step hm ht hs
      have hu := undisturbed_step hm ht hs hq'
      exact hothers w t₀ hsame hu (hi w t₀ (hsame.pc ▸ hp') hu.quiet (hu.running hrun'))

/-- In a quiet wait the answers read by the round were still right when it began. -/
theorem timely_inductive : (machine cfg).Inductive (NoBoundaryInRound cfg) fun s =>
    ∀ w t₀, s.pc = .waiting w t₀ → Quiet s → s.stopRequested = false → Timely cfg s t₀ where
  init := by rintro s ⟨now, night, active, rfl⟩ w t₀ hp; cases hp
  step s a s' hi hG hs := by
    refine quietWait_step (P := fun s _ t₀ => Timely cfg s t₀) hi hG.2 (fun w t₀ h hu htimely => ?_) hs
    unfold Timely at htimely ⊢
    simp only [hu.latestStatus, hu.latest, hu.registrationWindow, hu.nightBlankAt, h.snapAt,
      h.readAt]
    exact htimely

/-! ## Blocked with an outdated screen -/

/-- With no boundary inside a round the manager never sleeps on an outdated screen. -/
theorem blocked_upToDate {s : State} (hr : (machine cfg).ReachableBy (NoBoundaryInRound cfg) s)
    (hb : Blocked s) : UpToDate cfg s := by
  obtain ⟨hT, hR⟩ := (roundInv_inductive cfg _).of_reachable hr
  have hi := (readsInv_inductive cfg _).of_reachable hr
  have hd := (down_inductive cfg).of_reachable (hr.mono fun _ _ h => h.1)
  obtain ⟨⟨w, t₀, hp, hlt⟩, hq, hrun⟩ := hb
  obtain ⟨hle, rfl⟩ := hi.wait w t₀ hp hq hrun
  have htimely := timely_inductive.of_reachable hr _ _ hp hq hrun
  obtain ⟨hap, hst, hreg⟩ := hi.latest hq
  have hnight := hi.night hq (by rw [hp]; simp)
  have hround : s.round ≠ 0 := fun h0 => hi.first h0 hq
  have hstate := (hR.idle (by rw [hp]; trivial) hround hd).state
  -- a full second before now, but not before the deadline was computed
  obtain ⟨u, hu, h1, h2, h3⟩ : ∃ u, (u = t₀ ∨ u + second ≤ s.now) ∧ t₀ ≤ u ∧ u ≤ s.now ∧
      s.now ≤ u + second := by
    refine ⟨max t₀ (s.now - second), ?_, by omega, by omega, by omega⟩
    simp only [second] at *; omega
  obtain ⟨hdead, hregu, hnightu⟩ := answers_congr h1 h2 hu hlt
  refine ⟨u, h2, h3, ?_⟩
  rw [hstate]
  simp only [target, screenAt, hap, hst, hreg, hnight, hregu, hnightu]
  cases hk : s.latestStatus.kind with
  | some k =>
    have := hdead (by rw [hk]; rfl)
    simp [this]
  | none =>
    simp only [Option.isSome_none, Bool.false_eq_true, false_and, if_false]
    cases ha : s.latest.required with
    | true => rfl
    | false =>
      obtain ⟨hre, hni⟩ := htimely hk ha
      simp only [Bool.false_eq_true, if_false]
      rw [← hre]
      cases hreg' : s.registrationWindow.required (steadySecs t₀) with
      | true => rfl
      | false => rw [← hni hreg']

/-- An hour before the night starts the slideshow is right. -/
theorem blocked_upToDate_slideshow :
    ∃ s, (machine defaultConfig).run (freshState 0) (List.replicate 10 .manager) = some s ∧
      s.state = .slideshow ∧ UpToDate defaultConfig s := by
  refine ⟨_, rfl, rfl, ?_⟩
  have hr := Machine.ReachableBy.run (G := NoBoundaryInRound defaultConfig)
    (List.replicate 10 .manager) (.init (freshState_init defaultConfig 0)) (by decide) rfl
  exact blocked_upToDate hr ⟨⟨_, _, rfl, by decide⟩, ⟨rfl, rfl⟩, rfl⟩

/-- With nothing else asked for, the night decides. -/
theorem screenAt_of_idle {s : State} {t : Nat} (hk : s.latestStatus.kind = none)
    (ha : s.latest.required = false)
    (hr : s.registrationWindow.required (steadySecs t) = false) :
    screenAt cfg s t = if nightBlankAt cfg s t then .nightBlank else .slideshow := by
  simp [screenAt, hk, ha, hr]

/-- A slideshow at two o'clock is an hour late. -/
theorem not_upToDate_at_two {s : State} (hnow : s.now = 7210 * second) (hst : s.state = .slideshow)
    (hn : s.night = pausingNight) (hk : s.latestStatus.kind = none)
    (ha : s.latest.required = false) (hr : s.registrationWindow.until_ = none) :
    ¬ UpToDate defaultConfig s := by
  rintro ⟨t, h1, h2, h⟩
  have hreg : s.registrationWindow.required (steadySecs t) = false := by
    simp [RegistrationWindow.required, hr]
  have hsecs : defaultConfig.clock.localSecs t = 7209 ∨
      defaultConfig.clock.localSecs t = 7210 := by
    simp only [Clock.localSecs, defaultConfig, second] at *; omega
  have hnight : nightBlankAt defaultConfig s t = true := by
    simp only [nightBlankAt, hn, Clock.localNow]
    rcases hsecs with hsecs | hsecs <;> rw [hsecs] <;> decide
  rw [hst, screenAt_of_idle hk ha hreg, if_pos hnight] at h
  cases h

/-- A first round that decides at 00:59:50 and ends at 01:00:10, and an hour in the wait. -/
def nightStartInRound : List Act :=
  List.replicate 4 Act.manager ++ Act.tick (20 * second) :: List.replicate 6 Act.manager ++
    [Act.tick (3600 * second)]

/-- The start of the night at one o'clock passes inside the round: an hour later the slideshow still
runs. -/
theorem night_start_slept_through :
    ∃ s, (machine defaultConfig).Reachable s ∧ Blocked s ∧ ¬ UpToDate defaultConfig s := by
  refine Machine.exists_reachable_of_run nightStartInRound
    (freshState_init defaultConfig (3590 * second)) ⟨_, rfl, ⟨⟨_, _, rfl, ?_⟩, ⟨rfl, rfl⟩, rfl⟩, ?_⟩
  · decide
  · exact not_upToDate_at_two rfl rfl rfl rfl rfl rfl

end ShareFrame.DisplayTaskManager
