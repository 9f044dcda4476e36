import Mathlib.Data.List.Nodup
import ShareFrame.Frontend.Timers

/-!
# What the actions do to the timers

Each action changes a timer that is there by a function of that timer and the shared stamp
(`Act.change`, `Inv.reduce_timers`), the loop of `syncTimers` too; only `addTimer` makes one.
What holds of every timer at any time (`Timer.Ok`) is kept by all of them.
-/

namespace ShareFrame.Timers

open Transition

variable {s s' : St} {a : Act} {t : Timer} {id j : String} {now later : Nat}

/-! ## One timer -/

/-- A timer whose remaining time was computed anew. -/
def Timer.refreshed (newRemaining now : Nat) (t : Timer) : Timer :=
  if newRemaining = 0 then { t.paused now with remaining := 0 }
  else { t with remaining := newRemaining }

/-- What `syncTimers` makes of a timer. -/
def Timer.synced (elapsedMs now : Nat) (t : Timer) : Timer :=
  match t.running with
  | some _ => t.refreshed (t.remaining - elapsedMs / 1000) now
  | none => t

/-- What `startTimer` makes of a timer. -/
def Timer.started (now : Nat) (t : Timer) : Timer :=
  if t.isActive then t else { t with isActive := true, startTimestamp := some now }

def Timer.reset (t : Timer) : Timer :=
  { t with remaining := t.duration, isActive := false, startTimestamp := none, ranBefore := 0 }

/-- What `syncSpecificTimer` makes of it. -/
def Timer.syncedAlone (now : Nat) (t : Timer) : Timer :=
  match t.running with
  | some start => t.refreshed (t.duration - (now - start) / 1000) now
  | none => t

@[simp] theorem refreshed_remaining (r now : Nat) (t : Timer) :
    (t.refreshed r now).remaining = r := by
  unfold Timer.refreshed
  split
  · next h => exact h.symm
  · rfl

/-- What holds of a timer at any time. -/
structure Timer.Ok (now : Nat) (t : Timer) : Prop where
  le : t.remaining ≤ t.duration
  started : ∀ start, t.startTimestamp = some start → t.isActive = true ∧ 0 < start ∧ start ≤ now
  stopped : t.startTimestamp = none → t.isActive = false

theorem Timer.Ok.running (h : t.Ok now) : t.running = t.startTimestamp := by
  unfold Timer.running
  cases hstart : t.startTimestamp with
  | none => rw [h.stopped hstart]; rfl
  | some start =>
    obtain ⟨hactive, hpos, -⟩ := h.started start hstart
    rw [hactive, if_pos rfl]
    exact if_pos (decide_eq_true (Nat.ne_of_gt hpos))

theorem Timer.Ok.active_iff (h : t.Ok now) :
    t.isActive = true ↔ t.startTimestamp.isSome = true := by
  cases hstart : t.startTimestamp with
  | none => rw [h.stopped hstart]; rfl
  | some start => rw [(h.started start hstart).1]; rfl

theorem Timer.Ok.mono (h : t.Ok now) (hle : now ≤ later) : t.Ok later where
  le := h.le
  started start hstart :=
    have ⟨hactive, hpos, hnow⟩ := h.started start hstart
    ⟨hactive, hpos, Nat.le_trans hnow hle⟩
  stopped := h.stopped

theorem Timer.Ok.paused (h : t.Ok now) (now' : Nat) : (t.paused now').Ok now' where
  le := h.le
  started := by rintro start ⟨⟩
  stopped _ := rfl

theorem Timer.Ok.refreshed (h : t.Ok now) {r : Nat} (hr : r ≤ t.duration) :
    (t.refreshed r now).Ok now := by
  unfold Timer.refreshed
  split
  · exact ⟨Nat.zero_le _, by rintro start ⟨⟩, fun _ => rfl⟩
  · exact ⟨hr, h.started, h.stopped⟩

theorem Timer.Ok.synced (h : t.Ok now) (elapsedMs : Nat) : (t.synced elapsedMs now).Ok now := by
  unfold Timer.synced
  split
  · exact h.refreshed (Nat.le_trans (Nat.sub_le _ _) h.le)
  · exact h

theorem Timer.Ok.syncedAlone (h : t.Ok now) : (t.syncedAlone now).Ok now := by
  unfold Timer.syncedAlone
  split
  · exact h.refreshed (Nat.sub_le _ _)
  · exact h

theorem Timer.Ok.start (h : t.Ok now) (hpos : 0 < now) : (t.started now).Ok now := by
  unfold Timer.started
  split
  · exact h
  · refine ⟨h.le, fun start hstart => ?_, by rintro ⟨⟩⟩
    obtain rfl := Option.some.inj hstart
    exact ⟨rfl, hpos, Nat.le_refl _⟩

theorem Timer.ok_reset (t : Timer) (now : Nat) : t.reset.Ok now :=
  ⟨Nat.le_refl _, by rintro start ⟨⟩, fun _ => rfl⟩

/-! ## What the actions do -/

namespace TimerState

variable {state : TimerState} {f : Timer → Timer}

theorem update_of_some (h : state.timers id = some t) (f : Timer → Timer) :
    state.update id f = { state with timers := Function.update state.timers id (some (f t)) } := by
  rw [update, h]

theorem update_of_none (h : state.timers id = none) (f : Timer → Timer) :
    state.update id f = state := by
  rw [update, h]

theorem update_timers_self (state : TimerState) (id : String) (f : Timer → Timer) :
    (state.update id f).timers id = (state.timers id).map f := by
  cases h : state.timers id with
  | none => rw [update_of_none h, h]; rfl
  | some t => rw [update_of_some h]; exact Function.update_self id _ _

theorem update_timers_of_ne (h : j ≠ id) : (state.update id f).timers j = state.timers j := by
  cases hid : state.timers id with
  | none => rw [update_of_none hid]
  | some t => rw [update_of_some hid]; exact Function.update_of_ne h _ _

theorem update_rest (state : TimerState) (id : String) (f : Timer → Timer) :
    (state.update id f).ids = state.ids ∧
      (state.update id f).lastSyncTime = state.lastSyncTime := by
  cases h : state.timers id with
  | none => rw [update_of_none h]; exact ⟨rfl, rfl⟩
  | some t => rw [update_of_some h]; exact ⟨rfl, rfl⟩

theorem update_update (state : TimerState) (id : String) (f g : Timer → Timer) :
    (state.update id f).update id g = state.update id fun t => g (f t) := by
  cases h : state.timers id with
  | none => rw [update_of_none h, update_of_none h, update_of_none h]
  | some t =>
    have hf : (state.update id f).timers id = some (f t) := by rw [update_timers_self, h]; rfl
    rw [update_of_some hf, update_of_some h, update_of_some h, Function.update_idem]

theorem update_congr {g : Timer → Timer} (h : state.timers id = some t) (hfg : f t = g t) :
    state.update id f = state.update id g := by
  rw [update_of_some h, update_of_some h, hfg]

theorem update_eq_self (h : state.timers id = some t) (hf : f t = t) :
    state.update id f = state := by
  rw [update_of_some h, hf, ← h, Function.update_eq_self]

/-- What both thunks dispatch for a timer is one change of it. -/
theorem refresh_eq (state : TimerState) (id : String) (r now : Nat) :
    state.refresh id r now = state.update id (Timer.refreshed r now) := by
  unfold refresh updateTimer Timer.refreshed
  by_cases hr : r = 0
  · subst hr
    simp only [if_pos, Nat.le_refl, stopTimer, update_update]
    rfl
  · have hle : ¬r ≤ 0 := by omega
    simp only [if_neg hr, if_neg hle]

theorem syncSpecificTimer_eq (state : TimerState) (id : String) (now : Nat) :
    state.syncSpecificTimer id now = state.update id (Timer.syncedAlone now) := by
  unfold syncSpecificTimer
  cases h : state.timers id with
  | none => exact (update_of_none h _).symm
  | some t =>
    cases hrunning : t.running with
    | none =>
      simp only [hrunning]
      exact (update_eq_self h (by rw [Timer.syncedAlone, hrunning])).symm
    | some start =>
      simp only [hrunning, refresh_eq]
      exact update_congr h (by rw [Timer.syncedAlone, hrunning])

/-- A timer that the loop has not come to yet is as it was found. -/
theorem syncRound_eq {timers : String → Option Timer} (h : state.timers id = timers id)
    (elapsedMs now : Nat) :
    syncRound timers elapsedMs now state id = state.update id (Timer.synced elapsedMs now) := by
  unfold syncRound
  cases hid : timers id with
  | none => exact (update_of_none (h.trans hid) _).symm
  | some t =>
    cases hrunning : t.running with
    | none =>
      simp only [hrunning]
      exact (update_eq_self (h.trans hid) (by rw [Timer.synced, hrunning])).symm
    | some start =>
      simp only [hrunning, refresh_eq]
      exact update_congr (h.trans hid) (by rw [Timer.synced, hrunning])

/-- The loop changes each timer once. -/
theorem foldl_syncRound (timers : String → Option Timer) (elapsedMs now : Nat) (ids : List String)
    (hnodup : ids.Nodup) (hfound : ∀ id ∈ ids, state.timers id = timers id) :
    (∀ id ∈ ids, (ids.foldl (syncRound timers elapsedMs now) state).timers id =
        (timers id).map (Timer.synced elapsedMs now)) ∧
      (∀ id ∉ ids, (ids.foldl (syncRound timers elapsedMs now) state).timers id =
        state.timers id) ∧
      (ids.foldl (syncRound timers elapsedMs now) state).ids = state.ids ∧
      (ids.foldl (syncRound timers elapsedMs now) state).lastSyncTime = state.lastSyncTime := by
  induction ids generalizing state with
  | nil => exact ⟨by rintro id ⟨⟩, fun _ _ => rfl, rfl, rfl⟩
  | cons i ids ih =>
    obtain ⟨hi, hnodup⟩ := List.nodup_cons.mp hnodup
    obtain ⟨hfi, hfound⟩ := List.forall_mem_cons.mp hfound
    have hround := syncRound_eq hfi elapsedMs now
    obtain ⟨hids, hlast⟩ := update_rest state i (Timer.synced elapsedMs now)
    have hrest (id : String) (hid : id ∈ ids) :
        (syncRound timers elapsedMs now state i).timers id = timers id := by
      rw [hround, update_timers_of_ne (ne_of_mem_of_not_mem hid hi), hfound id hid]
    obtain ⟨hin, hout, hrestIds, hrestLast⟩ := ih hnodup hrest
    rw [List.foldl_cons]
    refine ⟨fun id hid => ?_, fun id hid => ?_, ?_, ?_⟩
    · obtain rfl | hid := List.mem_cons.mp hid
      · rw [hout _ hi, hround, update_timers_self, hfi]
      · exact hin id hid
    · rw [List.mem_cons, not_or] at hid
      obtain ⟨hne, hid⟩ := hid
      rw [hout id hid, hround, update_timers_of_ne hne]
    · rw [hrestIds, hround, hids]
    · rw [hrestLast, hround, hlast]

end TimerState

/-! ## What holds at any time -/

structure Inv (s : St) : Prop where
  ok : ∀ id t, s.state.timers id = some t → t.Ok s.now
  known : ∀ id, s.state.timers id ≠ none ↔ id ∈ s.state.ids
  nodup : s.state.ids.Nodup
  last : s.state.lastSyncTime ≤ s.now
  pending : ∀ time ∈ s.pending, time ≤ s.now
  pos : 0 < s.now

theorem Inv.syncTimers (h : Inv s) (now : Nat) (id : String) :
    (s.state.syncTimers now).timers id =
      (s.state.timers id).map (Timer.synced (now - s.state.lastSyncTime) now) := by
  obtain ⟨hin, hout, -, -⟩ := TimerState.foldl_syncRound s.state.timers
    (now - s.state.lastSyncTime) now s.state.ids h.nodup fun _ _ => rfl
  by_cases hid : id ∈ s.state.ids
  · exact hin id hid
  · have hnone : s.state.timers id = none := by
      by_contra hne
      exact hid ((h.known id).mp hne)
    rw [TimerState.syncTimers, hout id hid, hnone]
    rfl

theorem Inv.syncTimers_rest (h : Inv s) (now : Nat) :
    (s.state.syncTimers now).ids = s.state.ids ∧
      (s.state.syncTimers now).lastSyncTime = s.state.lastSyncTime := by
  obtain ⟨-, -, hids, hlast⟩ := TimerState.foldl_syncRound s.state.timers
    (now - s.state.lastSyncTime) now s.state.ids h.nodup fun _ _ => rfl
  exact ⟨hids, hlast⟩

/-- What an action makes of a timer that is there. -/
def Act.change (elapsedMs : Nat) (id : String) : Act → Timer → Timer
  | addTimer _ _ _, t | syncTimersFulfilled _ _, t => t
  | startTimer i now, t => if id = i then t.started now else t
  | stopTimer i now, t => if id = i then t.paused now else t
  | resetTimer i _, t => if id = i then t.reset else t
  | syncTimers now, t => t.synced elapsedMs now
  | syncSpecificTimer i now, t => if id = i then t.syncedAlone now else t

/-- A timer that is changed on its own. -/
theorem update_change {f : Timer → Timer} {i : String} (h : s.state.timers id = some t) :
    (s.state.update i f).timers id = some (if id = i then f t else t) := by
  by_cases hid : id = i
  · subst hid
    rw [TimerState.update_timers_self, h, if_pos rfl]
    rfl
  · rw [TimerState.update_timers_of_ne hid, h, if_neg hid]

theorem startTimer_eq (state : TimerState) (id : String) (now : Nat) :
    (state.startTimer id now).timers = (state.update id (Timer.started now)).timers ∧
      (state.startTimer id now).ids = state.ids := by
  unfold TimerState.startTimer
  cases h : state.timers id with
  | none => exact ⟨by rw [TimerState.update_of_none h], rfl⟩
  | some t =>
    rw [TimerState.update_of_some h]
    simp only
    unfold Timer.started
    split
    · exact ⟨by rw [← h, Function.update_eq_self], rfl⟩
    · exact ⟨rfl, rfl⟩

/-- **What an action does to a timer that is there.** -/
theorem Inv.reduce_timers (hs : Inv s) (h : s.state.timers id = some t) (a : Act) :
    (a.reduce s.state).timers id =
      some (a.change (a.time - s.state.lastSyncTime) id t) := by
  cases a with
  | addTimer i duration now =>
    rw [Act.reduce, TimerState.addTimer]
    split
    · exact h
    · next hi =>
      have hne : id ≠ i := by
        rintro rfl
        rw [h] at hi
        cases hi
      exact (Function.update_of_ne hne _ _).trans h
  | startTimer i now =>
    rw [Act.reduce, (startTimer_eq s.state i now).1]
    exact update_change h
  | stopTimer i now => exact update_change h
  | resetTimer i now => exact update_change h
  | syncTimers now =>
    rw [Act.reduce, hs.syncTimers, h]
    rfl
  | syncTimersFulfilled k now => exact h
  | syncSpecificTimer i now =>
    rw [Act.reduce, TimerState.syncSpecificTimer_eq]
    exact update_change h

theorem Timer.Ok.ite {u : Timer} {p : Prop} [Decidable p] (hu : u.Ok now) (ht : t.Ok now) :
    (if p then u else t).Ok now := by
  by_cases hp : p
  · rw [if_pos hp]; exact hu
  · rw [if_neg hp]; exact ht

theorem Timer.Ok.change (h : t.Ok s.now) (ha : s.now ≤ a.time) (hpos : 0 < s.now)
    (elapsedMs : Nat) (id : String) : (a.change elapsedMs id t).Ok a.time := by
  have hok := h.mono ha
  cases a with
  | addTimer i duration now => exact hok
  | startTimer i now => exact .ite (hok.start (Nat.lt_of_lt_of_le hpos ha)) hok
  | stopTimer i now => exact .ite (hok.paused now) hok
  | resetTimer i now => exact .ite (t.ok_reset now) hok
  | syncTimers now => exact hok.synced elapsedMs
  | syncTimersFulfilled k now => exact hok
  | syncSpecificTimer i now => exact .ite hok.syncedAlone hok

def newTimer (id : String) (duration : Option Nat) : Timer :=
  { id, duration := duration.getD DEFAULT_DURATION,
    remaining := duration.getD DEFAULT_DURATION }

/-- Only `addTimer` makes a timer. -/
theorem Inv.reduce_cases (hs : Inv s) (a : Act) :
    ((a.reduce s.state).ids = s.state.ids ∧
      ∀ id, s.state.timers id = none → (a.reduce s.state).timers id = none) ∨
    ∃ id duration now, a = .addTimer id duration now ∧ s.state.timers id = none ∧
      a.reduce s.state = { s.state with
        timers := Function.update s.state.timers id (some (newTimer id duration))
        ids := s.state.ids ++ [id] } := by
  have hupdate (i : String) (f : Timer → Timer) : (s.state.update i f).ids = s.state.ids ∧
      ∀ id, s.state.timers id = none → (s.state.update i f).timers id = none := by
    refine ⟨(TimerState.update_rest s.state i f).1, fun id hid => ?_⟩
    by_cases hi : id = i
    · subst hi
      rw [TimerState.update_timers_self, hid]
      rfl
    · rw [TimerState.update_timers_of_ne hi, hid]
  cases a with
  | addTimer i duration now =>
    cases hi : s.state.timers i with
    | some t =>
      refine .inl ?_
      rw [Act.reduce, TimerState.addTimer, hi]
      exact ⟨rfl, fun id hid => hid⟩
    | none =>
      refine .inr ⟨i, duration, now, rfl, hi, ?_⟩
      rw [Act.reduce, TimerState.addTimer, hi]
      rfl
  | startTimer i now =>
    obtain ⟨htimers, hids⟩ := startTimer_eq s.state i now
    refine .inl ⟨hids, fun id hid => ?_⟩
    rw [Act.reduce, htimers]
    exact (hupdate i _).2 id hid
  | stopTimer i now => exact .inl (hupdate i _)
  | resetTimer i now => exact .inl (hupdate i _)
  | syncTimers now =>
    refine .inl ⟨(hs.syncTimers_rest now).1, fun id hid => ?_⟩
    rw [Act.reduce, hs.syncTimers, hid]
    rfl
  | syncTimersFulfilled k now => exact .inl ⟨rfl, fun id hid => hid⟩
  | syncSpecificTimer i now =>
    rw [Act.reduce, TimerState.syncSpecificTimer_eq]
    exact .inl (hupdate i _)

/-- The stamp moves to the present or stays. -/
theorem Inv.reduce_last (hs : Inv s) (ha : s.now ≤ a.time) :
    (a.reduce s.state).lastSyncTime ≤ a.time := by
  have hlast := Nat.le_trans hs.last ha
  cases a with
  | addTimer i duration now =>
    rw [Act.reduce, TimerState.addTimer]
    split <;> exact hlast
  | startTimer i now =>
    rw [Act.reduce, TimerState.startTimer]
    split
    · split
      · exact hlast
      · exact Nat.le_refl now
    · exact hlast
  | stopTimer i now => exact Nat.le_trans (Nat.le_of_eq (TimerState.update_rest _ _ _).2) hlast
  | resetTimer i now => exact Nat.le_trans (Nat.le_of_eq (TimerState.update_rest _ _ _).2) hlast
  | syncTimers now => exact Nat.le_trans (Nat.le_of_eq (hs.syncTimers_rest now).2) hlast
  | syncTimersFulfilled k now => exact hlast
  | syncSpecificTimer i now =>
    rw [Act.reduce, TimerState.syncSpecificTimer_eq]
    exact Nat.le_trans (Nat.le_of_eq (TimerState.update_rest _ _ _).2) hlast

/-- What a step does. -/
inductive Step (s : St) : Act → St → Prop where
  | reduced (a : Act) : s.now ≤ a.time →
    Step s a { state := a.reduce s.state, now := a.time, pending := s.pending ++ a.stamps }
  | stored (k now currentTime : Nat) : s.now ≤ now → s.pending[k]? = some currentTime →
    Step s (.syncTimersFulfilled k now)
      { state := { s.state with lastSyncTime := currentTime }, now,
        pending := s.pending.eraseIdx k }

theorem Step.of_step (h : step s a = some s') : Step s a s' := by
  cases a with
  | syncTimersFulfilled k now =>
    unfold step at h
    split at h
    · cases h
    · next hnow =>
      obtain ⟨currentTime, hk, h⟩ := Option.bind_eq_some_iff.mp h
      obtain rfl := Option.some.inj h
      exact .stored k now currentTime (Nat.le_of_not_lt hnow) hk
  | _ =>
    unfold step at h
    split at h
    · cases h
    · next hnow =>
      obtain rfl := Option.some.inj h
      exact .reduced _ (Nat.le_of_not_lt hnow)

theorem inv_reduced (hs : Inv s) (ha : s.now ≤ a.time) :
    Inv { state := a.reduce s.state, now := a.time, pending := s.pending ++ a.stamps } := by
  have hold (id : String) (t : Timer) (h : s.state.timers id = some t) (t' : Timer)
      (h' : (a.reduce s.state).timers id = some t') : t'.Ok a.time := by
    rw [hs.reduce_timers h a] at h'
    rw [← Option.some.inj h']
    exact (hs.ok id t h).change ha hs.pos _ id
  have hpending : ∀ time ∈ s.pending ++ a.stamps, time ≤ a.time := by
    refine List.forall_mem_append.mpr ⟨fun time h => Nat.le_trans (hs.pending time h) ha, ?_⟩
    cases a with
    | syncTimers now => simp [Act.stamps, Act.time]
    | _ => rintro time ⟨⟩
  have hpos := Nat.lt_of_lt_of_le hs.pos ha
  have hnone (id : String) (t : Timer) (h : s.state.timers id = some t) :
      (a.reduce s.state).timers id ≠ none := by
    rw [hs.reduce_timers h a]
    rintro ⟨⟩
  obtain ⟨hids, hkeep⟩ | ⟨i, duration, now, rfl, hi, hadd⟩ := hs.reduce_cases a
  · refine ⟨fun id t' h' => ?_, fun id => ?_, by rw [hids]; exact hs.nodup, hs.reduce_last ha,
      hpending, hpos⟩
    · cases h : s.state.timers id with
      | none => rw [hkeep id h] at h'; cases h'
      | some t => exact hold id t h t' h'
    · rw [hids, ← hs.known id]
      cases h : s.state.timers id with
      | none => exact iff_of_false (fun hne => hne (hkeep id h)) fun hne => hne rfl
      | some t => exact iff_of_true (hnone id t h) (by rintro ⟨⟩)
  · have hfresh : i ∉ s.state.ids := fun hmem => (hs.known i).mpr hmem hi
    refine ⟨fun id t' h' => ?_, fun id => ?_, ?_, hs.reduce_last ha, hpending, hpos⟩
    · by_cases hid : id = i
      · subst hid
        simp only [hadd, Function.update_self, Option.some.injEq] at h'
        subst h'
        exact ⟨Nat.le_refl _, by rintro start ⟨⟩, fun _ => rfl⟩
      · cases h : s.state.timers id with
        | none =>
          simp only [hadd, Function.update_of_ne hid, h] at h'
          cases h'
        | some t => exact hold id t h t' h'
    · rw [hadd, List.mem_append, List.mem_singleton, ← hs.known id]
      by_cases hid : id = i
      · subst hid
        exact iff_of_true (by simp) (.inr rfl)
      · rw [or_iff_left hid]
        simp only [ne_eq, Function.update_of_ne hid]
    · rw [hadd]
      exact hs.nodup.append (List.nodup_singleton i) (List.disjoint_singleton.mpr hfresh)

theorem inv_step (hs : Inv s) (h : Step s a s') : Inv s' := by
  cases h with
  | reduced a ha => exact inv_reduced hs ha
  | stored k now currentTime ha hk =>
    have hle := hs.pending currentTime (List.mem_of_getElem? hk)
    exact ⟨fun id t h => (hs.ok id t h).mono ha, hs.known, hs.nodup, Nat.le_trans hle ha,
      fun time htime => Nat.le_trans (hs.pending time (List.mem_of_mem_eraseIdx htime)) ha,
      Nat.lt_of_lt_of_le hs.pos ha⟩

theorem inv_init (h : machine.Init s) : Inv s := by
  obtain ⟨now, hpos, rfl⟩ := h
  exact ⟨by rintro id t ⟨⟩, fun id => iff_of_false (fun hne => hne rfl) (by rintro ⟨⟩),
    List.nodup_nil, Nat.le_refl _, by rintro time ⟨⟩, hpos⟩

end ShareFrame.Timers
