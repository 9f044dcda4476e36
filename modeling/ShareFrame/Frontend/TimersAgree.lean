import ShareFrame.Frontend.TimerActions

/-!
# Whether the timers agree

How far the remaining time of a timer is from what it should be depends on what earlier
syncs left out or took off twice: `Timer.lag` is how long the timer ran up to the shared
stamp beyond what was taken off. An action leaves the timers right exactly if it meets `Cond`
(`right_iff`), and so does a run (`timers_right_iff`).
-/

namespace ShareFrame.Timers

open Transition

variable {s s' : St} {a : Act} {t : Timer} {id : String} {now later lastSyncTime start : Nat}

/-! ## What is right -/

/-- Up to one second. -/
def Near (m n : Nat) : Prop := m ≤ n + 1 ∧ n ≤ m + 1

/-- What should remain. -/
def Timer.ideal (now : Nat) (t : Timer) : Nat := t.duration - t.ranAt now / 1000

/-- The action brings this timer up to date. -/
def Act.syncs (id : String) : Act → Prop
  | syncTimers _ => True
  | syncSpecificTimer i _ => id = i
  | _ => False

/-- The timer that an action is on. -/
def Act.on : Act → Option String
  | addTimer id _ _ | startTimer id _ | stopTimer id _ | resetTimer id _
  | syncSpecificTimer id _ => some id
  | syncTimers _ | syncTimersFulfilled _ _ => none

/-- What remains of a timer behind its next sync, by either thunk. -/
def nextSync (s : St) (id : String) (later : Nat) : Option Nat × Option Nat :=
  (((s.state.syncTimers later).timers id).map (·.remaining),
    ((s.state.syncSpecificTimer id later).timers id).map (·.remaining))

structure Right (s : St) (a : Act) (s' : St) : Prop where
  /-- only a reset increases what remains -/
  down : ∀ id t t', s.state.timers id = some t → s'.state.timers id = some t' →
    t'.remaining ≤ t.remaining ∨ a = .resetTimer id a.time
  /-- what remains of an active timer behind a sync -/
  exact : ∀ id t t', a.syncs id → s.state.timers id = some t → t.isActive = true →
    s'.state.timers id = some t' → Near t'.remaining (t.ideal a.time)
  /-- other timers -/
  apart : ∀ i, a.on = some i → ∀ id, id ≠ i → ∀ later, a.time ≤ later →
    nextSync s' id later = nextSync s id later

/-! ## When it is -/

/-- How long the timer ran up to the shared stamp beyond what was taken off, negative where
more was taken off. -/
def Timer.lag (lastSyncTime start : Nat) (t : Timer) : Int :=
  t.ranBefore + lastSyncTime - start - 1000 * (t.duration - t.remaining)

/-- With the part of a second that the sync leaves out the lag is near a second, or at most one
second is left in any case. -/
def Timer.SharedFits (lastSyncTime now start : Nat) (t : Timer) : Prop :=
  (-1000 ≤ t.lag lastSyncTime start + ((now - lastSyncTime) % 1000 : Nat) ∧
    t.lag lastSyncTime start + ((now - lastSyncTime) % 1000 : Nat) < 2000) ∨
  (t.remaining ≤ (now - lastSyncTime) / 1000 + 1 ∧ t.duration ≤ t.ranAt now / 1000 + 1)

/-- No more was taken off than the seconds since the last start, and the timer did not run for two
seconds before it, or at most one second is left. -/
def Timer.AloneFits (now start : Nat) (t : Timer) : Prop :=
  t.duration - t.remaining ≤ (now - start) / 1000 ∧
  (t.ranBefore + (now - start) % 1000 < 2000 ∨ t.duration ≤ (now - start) / 1000 + 1)

/-- The condition on an action. -/
def Cond (s : St) : Act → Prop
  | .startTimer i now => ∀ t, s.state.timers i = some t → t.isActive = false →
      ∀ id, id ≠ i → ∀ u, s.state.timers id = some u → u.isActive = true → 0 < u.remaining →
        s.state.lastSyncTime = now
  | .syncTimers now => ∀ id t start, s.state.timers id = some t → t.startTimestamp = some start →
      t.SharedFits s.state.lastSyncTime now start
  | .syncSpecificTimer id now => ∀ t start, s.state.timers id = some t →
      t.startTimestamp = some start → t.AloneFits now start
  | _ => True

theorem remaining_synced (h : t.Ok now) (hstart : t.startTimestamp = some start)
    (elapsedMs : Nat) : (t.synced elapsedMs now).remaining = t.remaining - elapsedMs / 1000 := by
  rw [Timer.synced, h.running, hstart]
  exact refreshed_remaining _ _ _

theorem remaining_syncedAlone (h : t.Ok now) (hstart : t.startTimestamp = some start) :
    (t.syncedAlone now).remaining = t.duration - (now - start) / 1000 := by
  rw [Timer.syncedAlone, h.running, hstart]
  exact refreshed_remaining _ _ _

theorem ranAt_eq (hstart : t.startTimestamp = some start) :
    t.ranAt now = t.ranBefore + (now - start) := by
  rw [Timer.ranAt, hstart]

theorem shared_iff (h : t.Ok now) (hstart : t.startTimestamp = some start)
    (hlast : lastSyncTime ≤ now) :
    Near (t.synced (now - lastSyncTime) now).remaining (t.ideal now) ↔
      t.SharedFits lastSyncTime now start := by
  obtain ⟨-, -, hnow⟩ := h.started start hstart
  have hle := h.le
  rw [remaining_synced h hstart, Timer.ideal, Timer.SharedFits, ranAt_eq hstart, Near, Timer.lag]
  omega

theorem alone_iff (h : t.Ok now) (hstart : t.startTimestamp = some start) :
    (t.syncedAlone now).remaining ≤ t.remaining ∧
        Near (t.syncedAlone now).remaining (t.ideal now) ↔ t.AloneFits now start := by
  obtain ⟨-, -, hnow⟩ := h.started start hstart
  have hle := h.le
  rw [remaining_syncedAlone h hstart, Timer.ideal, Timer.AloneFits, ranAt_eq hstart, Near]
  omega

/-- Two stamps take off the same in all later syncs only if they are equal or nothing is left. -/
theorem shared_congr_iff (hlast : lastSyncTime ≤ now) (r : Nat) :
    (∀ later, now ≤ later → r - (later - now) / 1000 = r - (later - lastSyncTime) / 1000) ↔
      (0 < r → lastSyncTime = now) := by
  constructor
  · intro h hr
    by_contra hne
    -- the first later sync at which a full second has passed since the older stamp
    have hlater := h (now + (999 - (now - lastSyncTime - 1) % 1000)) (Nat.le_add_right _ _)
    omega
  · intro h later hlater
    by_cases hr : 0 < r
    · rw [h hr]
    · omega

/-! ## One step -/

theorem Inv.nextSync_eq (hs : Inv s) (id : String) (later : Nat) :
    nextSync s id later =
      ((s.state.timers id).map fun t => (t.synced (later - s.state.lastSyncTime) later).remaining,
        (s.state.timers id).map fun t => (t.syncedAlone later).remaining) := by
  rw [nextSync, hs.syncTimers, TimerState.syncSpecificTimer_eq, TimerState.update_timers_self,
    Option.map_map, Option.map_map]
  rfl

/-- Nothing else decides on the next sync. -/
theorem Inv.nextSync_congr (hs : Inv s) (hs' : Inv s')
    (htimers : s'.state.timers id = s.state.timers id)
    (hlast : s'.state.lastSyncTime = s.state.lastSyncTime) (later : Nat) :
    nextSync s' id later = nextSync s id later := by
  rw [hs'.nextSync_eq, hs.nextSync_eq, htimers, hlast]

/-- The other timers. -/
theorem Inv.reduce_other (hs : Inv s) {i : String} (hon : a.on = some i) (hid : id ≠ i) :
    (a.reduce s.state).timers id = s.state.timers id := by
  cases h : s.state.timers id with
  | some t =>
    rw [hs.reduce_timers h]
    congr 1
    cases a with
    | addTimer j duration now => rfl
    | startTimer j now | stopTimer j now | resetTimer j now | syncSpecificTimer j now =>
      obtain rfl := Option.some.inj hon
      exact if_neg hid
    | syncTimers now | syncTimersFulfilled k now => cases hon
  | none =>
    obtain ⟨-, hkeep⟩ | ⟨j, duration, now, rfl, -, hadd⟩ := hs.reduce_cases a
    · exact hkeep id h
    · obtain rfl := Option.some.inj hon
      rw [hadd]
      exact (Function.update_of_ne hid _ _).trans h

/-- The state behind an action. -/
def St.acted (s : St) (a : Act) : St :=
  { state := a.reduce s.state, now := a.time, pending := s.pending ++ a.stamps }

/-- An action that leaves the shared stamp alone leaves other timers alone. -/
theorem Inv.apart (hs : Inv s) (ha : s.now ≤ a.time)
    (hlast : (a.reduce s.state).lastSyncTime = s.state.lastSyncTime) :
    ∀ i, a.on = some i → ∀ id, id ≠ i → ∀ later, a.time ≤ later →
      nextSync (s.acted a) id later = nextSync s id later :=
  fun _ hon _ hid later _ =>
    hs.nextSync_congr (inv_reduced hs ha) (hs.reduce_other hon hid) hlast later

/-- Right, in terms of what the action makes of a timer. -/
theorem Inv.right_acted_iff (hs : Inv s) :
    Right s a (s.acted a) ↔
      (∀ id t, s.state.timers id = some t →
        (a.change (a.time - s.state.lastSyncTime) id t).remaining ≤ t.remaining ∨
          a = .resetTimer id a.time) ∧
      (∀ id t, a.syncs id → s.state.timers id = some t → t.isActive = true →
        Near (a.change (a.time - s.state.lastSyncTime) id t).remaining (t.ideal a.time)) ∧
      ∀ i, a.on = some i → ∀ id, id ≠ i → ∀ later, a.time ≤ later →
        nextSync (s.acted a) id later = nextSync s id later := by
  constructor
  · intro h
    exact ⟨fun id t ht => h.down id t _ ht (hs.reduce_timers ht a),
      fun id t hsync ht hactive => h.exact id t _ hsync ht hactive (hs.reduce_timers ht a),
      h.apart⟩
  · rintro ⟨hdown, hexact, hapart⟩
    refine ⟨fun id t t' ht ht' => ?_, fun id t t' hsync ht hactive ht' => ?_, hapart⟩
    · obtain rfl := Option.some.inj ((hs.reduce_timers ht a).symm.trans ht')
      exact hdown id t ht
    · obtain rfl := Option.some.inj ((hs.reduce_timers ht a).symm.trans ht')
      exact hexact id t hsync ht hactive

theorem remaining_ite {u : Timer} {p : Prop} [Decidable p] (h : u.remaining ≤ t.remaining) :
    (if p then u else t).remaining ≤ t.remaining := by
  by_cases hp : p
  · rw [if_pos hp]; exact h
  · exact Nat.le_of_eq (by rw [if_neg hp])

theorem remaining_started (now : Nat) (t : Timer) : (t.started now).remaining = t.remaining := by
  unfold Timer.started
  split <;> rfl

/-- The next syncs of a timer under two stamps. -/
theorem nextSync_stamp_iff (hs : Inv s) (hs' : Inv s') (hnow : s.now ≤ now)
    (htimers : s'.state.timers id = s.state.timers id) (hlast : s'.state.lastSyncTime = now) :
    (∀ later, now ≤ later → nextSync s' id later = nextSync s id later) ↔
      ∀ u, s.state.timers id = some u → u.isActive = true → 0 < u.remaining →
        s.state.lastSyncTime = now := by
  have hle : s.state.lastSyncTime ≤ now := Nat.le_trans hs.last hnow
  cases hid : s.state.timers id with
  | none =>
    refine iff_of_true (fun later _ => ?_) (by rintro u ⟨⟩)
    rw [hs'.nextSync_eq, hs.nextSync_eq, htimers, hid]
    rfl
  | some u =>
    have hok (later : Nat) (hlater : now ≤ later) : u.Ok later :=
      (hs.ok id u hid).mono (Nat.le_trans hnow hlater)
    have hpair (later : Nat) : nextSync s' id later = nextSync s id later ↔
        (u.synced (later - now) later).remaining =
          (u.synced (later - s.state.lastSyncTime) later).remaining := by
      rw [hs'.nextSync_eq, hs.nextSync_eq, htimers, hid, hlast]
      simp only [Option.map_some, Prod.mk.injEq, Option.some.injEq, and_true]
    cases hstart : u.startTimestamp with
    | none =>
      have hactive := (hok now (Nat.le_refl now)).stopped hstart
      refine iff_of_true (fun later hlater => (hpair later).mpr ?_) fun v hv hv' => ?_
      · rw [Timer.synced, Timer.synced, (hok later hlater).running, hstart]
      · obtain rfl := Option.some.inj hv
        rw [hactive] at hv'
        cases hv'
    | some start =>
      have hactive := ((hok now (Nat.le_refl now)).started start hstart).1
      refine Iff.trans ⟨fun h later hlater => ?_, fun h later hlater => ?_⟩
        ((shared_congr_iff hle u.remaining).trans ⟨fun h v hv _ hr => ?_, fun h => ?_⟩)
      · rw [← remaining_synced (hok later hlater) hstart,
          ← remaining_synced (hok later hlater) hstart]
        exact (hpair later).mp (h later hlater)
      · rw [hpair, remaining_synced (hok later hlater) hstart,
          remaining_synced (hok later hlater) hstart]
        exact h later hlater
      · obtain rfl := Option.some.inj hv
        exact h hr
      · exact h u rfl hactive

theorem right_startTimer (hs : Inv s) {i : String} (ha : s.now ≤ now) :
    Right s (.startTimer i now) (s.acted (.startTimer i now)) ↔ Cond s (.startTimer i now) := by
  rw [hs.right_acted_iff]
  have hdown : ∀ id t, s.state.timers id = some t →
      ((Act.startTimer i now).change (now - s.state.lastSyncTime) id t).remaining ≤ t.remaining ∨
        Act.startTimer i now = .resetTimer id now :=
    fun id t _ => .inl (remaining_ite (Nat.le_of_eq (remaining_started now t)))
  refine (and_iff_right hdown).trans ((and_iff_right fun _ _ hsync => hsync.elim).trans ?_)
  have hother {id : String} (hid : id ≠ i) :=
    hs.reduce_other (a := .startTimer i now) rfl hid
  -- a timer that does not start leaves the stamp alone
  have hidle (h : ∀ t, s.state.timers i = some t → t.isActive = true) :
      ((Act.startTimer i now).reduce s.state).lastSyncTime = s.state.lastSyncTime := by
    rw [Act.reduce, TimerState.startTimer]
    split
    · next t ht => rw [h t ht, if_pos rfl]
    · rfl
  by_cases h : ∃ t, s.state.timers i = some t ∧ t.isActive = false
  · obtain ⟨t, ht, hinactive⟩ := h
    have hlast : ((Act.startTimer i now).reduce s.state).lastSyncTime = now := by
      rw [Act.reduce, TimerState.startTimer, ht]
      simp only [hinactive]
      rfl
    have hinv := inv_reduced hs (a := .startTimer i now) ha
    constructor
    · intro hnext t' ht' hinactive' id hid
      exact (nextSync_stamp_iff hs hinv ha (hother hid) hlast).mp (hnext i rfl id hid)
    · rintro hcond j hj id hid
      obtain rfl := Option.some.inj hj
      exact (nextSync_stamp_iff hs hinv ha (hother hid) hlast).mpr (hcond t ht hinactive id hid)
  · have hactive : ∀ t, s.state.timers i = some t → t.isActive = true := by
      intro t ht
      exact Bool.not_eq_false _ ▸ fun hf => h ⟨t, ht, hf⟩
    refine iff_of_true (hs.apart ha (hidle hactive)) fun t ht hinactive => ?_
    rw [hactive t ht] at hinactive
    cases hinactive

theorem right_syncTimers (hs : Inv s) (ha : s.now ≤ now) :
    Right s (.syncTimers now) (s.acted (.syncTimers now)) ↔ Cond s (.syncTimers now) := by
  have hle : s.state.lastSyncTime ≤ now := Nat.le_trans hs.last ha
  rw [hs.right_acted_iff]
  have hdown : ∀ id t, s.state.timers id = some t →
      ((Act.syncTimers now).change (now - s.state.lastSyncTime) id t).remaining ≤ t.remaining ∨
        Act.syncTimers now = .resetTimer id now := by
    intro id t ht
    have hok := (hs.ok id t ht).mono ha
    refine .inl ?_
    cases hstart : t.startTimestamp with
    | none => exact Nat.le_of_eq (by rw [Act.change, Timer.synced, hok.running, hstart])
    | some start =>
      rw [Act.change, remaining_synced hok hstart]
      exact Nat.sub_le _ _
  refine (and_iff_right hdown).trans ((and_iff_left ?_).trans ?_)
  · rintro i ⟨⟩
  · constructor
    · intro hexact id t start ht hstart
      have hok := (hs.ok id t ht).mono ha
      exact (shared_iff hok hstart hle).mp (hexact id t trivial ht (hok.started start hstart).1)
    · intro hcond id t _ ht hactive
      have hok := (hs.ok id t ht).mono ha
      obtain ⟨start, hstart⟩ := Option.isSome_iff_exists.mp (hok.active_iff.mp hactive)
      exact (shared_iff hok hstart hle).mpr (hcond id t start ht hstart)

theorem syncedAlone_eq (h : t.Ok now) (hstart : t.startTimestamp = none) :
    t.syncedAlone now = t := by
  rw [Timer.syncedAlone, h.running, hstart]

theorem right_syncSpecificTimer (hs : Inv s) {i : String} (ha : s.now ≤ now) :
    Right s (.syncSpecificTimer i now) (s.acted (.syncSpecificTimer i now)) ↔
      Cond s (.syncSpecificTimer i now) := by
  have hlast : ((Act.syncSpecificTimer i now).reduce s.state).lastSyncTime =
      s.state.lastSyncTime := by
    rw [Act.reduce, TimerState.syncSpecificTimer_eq]
    exact (TimerState.update_rest _ _ _).2
  have hself (t : Timer) (elapsedMs : Nat) :
      (Act.syncSpecificTimer i now).change elapsedMs i t = t.syncedAlone now := if_pos rfl
  rw [hs.right_acted_iff]
  constructor
  · rintro ⟨hdown, hexact, -⟩ t start ht hstart
    have hok := (hs.ok i t ht).mono ha
    have hle := hdown i t ht
    have hnear := hexact i t rfl ht (hok.started start hstart).1
    rw [hself] at hle hnear
    exact (alone_iff hok hstart).mp ⟨hle.resolve_right (by rintro ⟨⟩), hnear⟩
  · refine fun hcond => ⟨fun id t ht => ?_, ?_, hs.apart ha hlast⟩
    · have hok := (hs.ok id t ht).mono ha
      by_cases hid : id = i
      · subst hid
        rw [hself]
        cases hstart : t.startTimestamp with
        | none => exact .inl (Nat.le_of_eq (by rw [syncedAlone_eq hok hstart]))
        | some start => exact .inl ((alone_iff hok hstart).mpr (hcond t start ht hstart)).1
      · exact .inl (Nat.le_of_eq (by rw [Act.change, if_neg hid]))
    · rintro id t rfl ht hactive
      have hok := (hs.ok id t ht).mono ha
      obtain ⟨start, hstart⟩ := Option.isSome_iff_exists.mp (hok.active_iff.mp hactive)
      rw [hself]
      exact ((alone_iff hok hstart).mpr (hcond t start ht hstart)).2

/-- The actions that are always right. -/
theorem right_other (hs : Inv s) (ha : s.now ≤ a.time)
    (hdown : ∀ id t, s.state.timers id = some t →
      (a.change (a.time - s.state.lastSyncTime) id t).remaining ≤ t.remaining ∨
        a = .resetTimer id a.time)
    (hsyncs : ∀ id, ¬a.syncs id)
    (hlast : (a.reduce s.state).lastSyncTime = s.state.lastSyncTime) : Right s a (s.acted a) :=
  hs.right_acted_iff.mpr
    ⟨hdown, fun id _ hsync => absurd hsync (hsyncs id), hs.apart ha hlast⟩

/-- **A step leaves the timers right exactly if it meets the condition.** -/
theorem right_iff (hs : Inv s) (h : Step s a s') : Right s a s' ↔ Cond s a := by
  cases h with
  | stored k now currentTime ha hk =>
    refine iff_of_true ⟨fun id t t' ht ht' => ?_, by rintro id t t' ⟨⟩, by rintro i ⟨⟩⟩ trivial
    obtain rfl := Option.some.inj (ht.symm.trans ht')
    exact .inl (Nat.le_refl _)
  | reduced a ha =>
    cases a with
    | addTimer i duration now =>
      refine iff_of_true (right_other hs ha (fun id t _ => .inl (Nat.le_refl _)) ?_ ?_) trivial
      · rintro id ⟨⟩
      · rw [Act.reduce, TimerState.addTimer]
        split <;> rfl
    | startTimer i now => exact right_startTimer hs ha
    | stopTimer i now =>
      refine iff_of_true (right_other hs ha (fun id t _ => .inl ?_) ?_ ?_) trivial
      · exact remaining_ite (Nat.le_refl _)
      · rintro id ⟨⟩
      · exact (TimerState.update_rest _ _ _).2
    | resetTimer i now =>
      refine iff_of_true (right_other hs ha (fun id t _ => ?_) ?_ ?_) trivial
      · by_cases hid : id = i
        · exact .inr (by rw [hid]; rfl)
        · exact .inl (Nat.le_of_eq (by rw [Act.change, if_neg hid]))
      · rintro id ⟨⟩
      · exact (TimerState.update_rest _ _ _).2
    | syncTimers now => exact right_syncTimers hs ha
    | syncTimersFulfilled k now =>
      exact iff_of_true (right_other hs ha (fun id t _ => .inl (Nat.le_refl _))
        (by rintro id ⟨⟩) rfl) trivial
    | syncSpecificTimer i now => exact right_syncSpecificTimer hs ha

/-! ## Main results -/

/-- Every step that is taken leaves the timers right. -/
def StaysRight (s : St) (a : Act) : Prop := ∀ s', step s a = some s' → Right s a s'

/-- **A run leaves the timers right at every step exactly if its steps meet the condition.** -/
theorem timers_right_iff (acts : List Act) {s s' : St} (h0 : machine.Init s)
    (h : machine.run s acts = some s') :
    machine.Meets StaysRight s acts ↔ machine.Meets Cond s acts := by
  refine Machine.meets_congr (J := Inv) (fun s a s' hs hstep => inv_step hs (Step.of_step hstep))
    (fun s a s' hs hstep => ?_) acts (inv_init h0) h
  rw [← right_iff hs (Step.of_step hstep), StaysRight]
  refine ⟨fun hright => hright s' hstep, fun hright t ht => ?_⟩
  obtain rfl := Option.some.inj (hstep.symm.trans ht)
  exact hright

def opened : St := { state := { lastSyncTime := 1000000 }, now := 1000000 }

/-- The condition, asked of the timers that are there. -/
def CondHere (s : St) : Act → Prop
  | .startTimer i now => ∀ t ∈ s.state.timers i, t.isActive = false →
      ∀ id ∈ s.state.ids, id ≠ i → ∀ u ∈ s.state.timers id, u.isActive = true → 0 < u.remaining →
        s.state.lastSyncTime = now
  | .syncTimers now => ∀ id ∈ s.state.ids, ∀ t ∈ s.state.timers id, ∀ start ∈ t.startTimestamp,
      t.SharedFits s.state.lastSyncTime now start
  | .syncSpecificTimer id now => ∀ t ∈ s.state.timers id, ∀ start ∈ t.startTimestamp,
      t.AloneFits now start
  | _ => True

instance (lastSyncTime now start : Nat) (t : Timer) : Decidable (t.SharedFits lastSyncTime now start) := by
  unfold Timer.SharedFits; infer_instance

instance (now start : Nat) (t : Timer) : Decidable (t.AloneFits now start) := by
  unfold Timer.AloneFits; infer_instance

instance (s : St) : (a : Act) → Decidable (CondHere s a)
  | .startTimer _ _ | .syncTimers _ | .syncSpecificTimer _ _ => by unfold CondHere; infer_instance
  | .addTimer _ _ _ | .stopTimer _ _ | .resetTimer _ _ | .syncTimersFulfilled _ _ => .isTrue trivial

theorem cond_iff_here (hs : Inv s) (a : Act) : Cond s a ↔ CondHere s a := by
  have hknown : ∀ {id t}, s.state.timers id = some t → id ∈ s.state.ids := fun {id t} ht =>
    (hs.known id).mp (by rw [ht]; exact Option.some_ne_none t)
  cases a with
  | startTimer i now =>
    constructor
    · intro h t ht hoff id _ hid u hu
      exact h t ht hoff id hid u hu
    · intro h t ht hoff id hid u hu
      exact h t ht hoff id (hknown hu) hid u hu
  | syncTimers now =>
    constructor
    · intro h id _ t ht start hstart
      exact h id t start ht hstart
    · intro h id t start ht hstart
      exact h id (hknown ht) t ht start hstart
  | syncSpecificTimer id now =>
    constructor
    · intro h t ht start hstart
      exact h t start ht hstart
    · intro h t start ht hstart
      exact h t ht start hstart
  | _ => exact Iff.rfl

/-- Two timers: the second one starts in the moment of a sync. -/
def counted : List Act :=
  [.addTimer "slideshow-actions-timer" none 1000000,
    .addTimer "app-initial-load-timer" (some 10) 1000000,
    .startTimer "slideshow-actions-timer" 1000000,
    .syncTimers 1004000,
    .syncTimersFulfilled 0 1004000,
    .startTimer "app-initial-load-timer" 1004000,
    .syncTimers 1010000]

theorem timers_right_counted : machine.Meets StaysRight opened counted := by
  have h0 : machine.Init opened := ⟨1000000, by decide, rfl⟩
  obtain ⟨s, hrun, -⟩ := machine.exists_of_run opened counted
    (fun s => (s.state.timers "slideshow-actions-timer").map (·.remaining) = some 170 &&
      (s.state.timers "app-initial-load-timer").map (·.remaining) = some 4) (by decide +kernel)
  refine (timers_right_iff counted h0 hrun).mpr ?_
  refine (Machine.meets_congr (J := Inv) (fun s a s' hs hstep => inv_step hs (Step.of_step hstep))
    (fun s a s' hs _ => cond_iff_here hs a) counted (inv_init h0) hrun).mpr ?_
  decide +kernel

/-- A timer that runs for a hundred seconds is stopped, and started again after a minute. -/
def resumed : List Act :=
  [.addTimer "slideshow-actions-timer" none 1000000,
    .startTimer "slideshow-actions-timer" 1000000,
    .syncSpecificTimer "slideshow-actions-timer" 1100000,
    .stopTimer "slideshow-actions-timer" 1100000,
    .startTimer "slideshow-actions-timer" 1160000]

/-- Of 80 seconds the next sync makes 179. -/
theorem resumed_jumps :
    ∃ s s', machine.run opened resumed = some s ∧
      machine.step s (.syncSpecificTimer "slideshow-actions-timer" 1161000) = some s' ∧
      (s.state.timers "slideshow-actions-timer").map (·.remaining) = some 80 ∧
      (s'.state.timers "slideshow-actions-timer").map (·.remaining) = some 179 :=
  ⟨_, _, rfl, rfl, by decide, by decide⟩

end ShareFrame.Timers
