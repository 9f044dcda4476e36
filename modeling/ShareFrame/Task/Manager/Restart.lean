import ShareFrame.Task.Manager.Deadline

/-!
# A switch that throws

A switch stops the running task first. If a later call of it throws, the restart
loop calls `_run` again, but the flags that asked for the switch are consumed
and `state_` still names the stopped task: unless something asks for another
round, the panel stays without a content task (`throw_leaves_no_task`). What
heals it is an event that arrives meanwhile and asks for the screen again
(`failed_switch_heals`).
-/

namespace ShareFrame.DisplayTaskManager

open Transition

variable (cfg : Config)

/-- The task of `t` is started. -/
def Running (s : State) (t : DisplayState) : Prop :=
  ∃ c, t.content = some c ∧ (s.tasks c).isSome = true

/-- Time alone gets the task of `t` started: the manager's own steps behind the deadline do. -/
def StartsByItself (s : State) (t : DisplayState) : Prop :=
  ∃ n k s', (machine cfg).run s (.tick n :: List.replicate k .manager) = some s' ∧ Running s' t

/-- What a failed switch must not leave behind. -/
structure Healed (s : State) : Prop where
  /-- `state_` does not name a stopped task -/
  state : ∀ c, s.state.content = some c → (s.tasks c).isSome = true
  /-- the task the switch was for is started, or will be without an event -/
  target : ∀ t, s.threw = some t → Running s t ∨ StartsByItself cfg s t
  /-- so is some task -/
  running : (∃ t, Running s t) ∨ ∃ t, StartsByItself cfg s t

/-- Behind a switch to `t` that threw, an event makes the manager apply again before it blocks, and
what is then asked for is `t` with a switch. Without an event only a panel still in its boot state
gets there, if a deadline wakes it up and `t` is still asked for then. -/
def AskedAgain (s : State) (a : Act) : Prop :=
  a = .manager → ∀ t ∈ s.threw,
    (s.pc = .apply → wanted cfg s = t ∧ (t = s.state → stale s t = true)) ∧
    (s.pc = .loop → Quiet s → s.stopRequested = false →
      s.state = .boot ∧ ∃ d ∈ wakeAt cfg s s.now, (s.now : Int) < d → screenAt cfg s d.toNat = t)

instance (s : State) (a : Act) : Decidable (AskedAgain cfg s a) := by
  unfold AskedAgain; infer_instance

variable {cfg}

/-! ## The invariant -/

theorem caught_threw (s : State) : (caught s).threw = s.threw := by
  obtain he | he | ⟨d, restarts, he⟩ := caught_cases s <;> rw [he]

theorem caught_not_switching (s : State) (t : DisplayState) (st : Stage) :
    (caught s).pc ≠ .switching t st := by
  obtain he | he | ⟨d, restarts, he⟩ := caught_cases s <;> rw [he] <;> intro h <;> cases h

/-- Both ghosts of a throw are set together, the screen it was for stays the target. -/
structure ThrewOk (s : State) : Prop where
  down : s.down = s.threw.isSome
  switching : ∀ t st, s.pc = .switching t st → ∀ t', s.threw = some t' → t' = t

theorem threwOk_caught {s : State} (h : s.down = s.threw.isSome) : ThrewOk (caught s) where
  down := by rw [down_caught, caught_threw]; exact h
  switching t st hp := absurd hp (caught_not_switching s t st)

theorem threwOk_throws {s s' : State} (h : ThrewOk s) (hs : managerThrows s = some s') :
    ThrewOk s' := by
  unfold managerThrows at hs
  split at hs
  next => cases hs; exact threwOk_caught h.down
  next => split at hs <;> cases hs; exact threwOk_caught rfl
  next =>
    split at hs
    · cases hs; exact threwOk_caught rfl
    · split at hs <;> cases hs; exact threwOk_caught rfl
  next => cases hs; exact threwOk_caught rfl
  next => cases hs

theorem ThrewOk.away {s s' : State} (h : ThrewOk s) (hd : s'.down = s.down)
    (ht : s'.threw = s.threw) (hp : ∀ t st, s'.pc ≠ .switching t st) : ThrewOk s' where
  down := by rw [hd, ht]; exact h.down
  switching t st hp' := absurd hp' (hp t st)

theorem ThrewOk.within {s s' : State} (h : ThrewOk s) {t : DisplayState} {st st' : Stage}
    (hp : s.pc = .switching t st) (hd : s'.down = s.down) (ht : s'.threw = s.threw)
    (hp' : s'.pc = .switching t st') : ThrewOk s' where
  down := by rw [hd, ht]; exact h.down
  switching t₁ st₁ h₁ t₂ h₂ := by
    rw [hp'] at h₁; cases h₁
    exact h.switching t st hp t₂ (ht ▸ h₂)

theorem threwOk_manager {s s' : State} (h : ThrewOk s)
    (hG : s.pc = .apply → ∀ t, s.threw = some t → wanted cfg s = t ∧ (t = s.state → stale s t = true))
    (hs : manager cfg s = some s') : ThrewOk s' := by
  unfold manager at hs
  split at hs
  next => cases hs; exact h.away rfl rfl (by simp)
  next => split at hs <;> cases hs <;> exact h.away rfl rfl (by simp)
  next =>
    split at hs
    · cases hs; exact h.away rfl rfl (by simp)
    · split at hs <;> cases hs
      exact h.away rfl rfl (by simp [snapshot])
  next hp =>
    cases hs
    simp only [decideSwitch]
    split
    · exact h.away rfl rfl (by simp)
    · refine ⟨h.down, fun t st hp' t' ht' => ?_⟩
      cases hp'
      exact (hG hp t' ht').1.symm
  next t hp =>
    cases hs
    obtain he | ⟨tasks, he⟩ := requestStopOf_cases s (.switching t .clear) (.switching t .join) <;>
      rw [he] <;> exact h.within hp rfl rfl rfl
  next t hp => obtain ⟨c, rfl⟩ := joinOf_eq hs; exact h.within hp rfl rfl rfl
  next t hp => cases hs; exact h.within hp rfl rfl rfl
  next t hp => cases hs; cases t <;> exact h.within hp rfl rfl rfl
  next t hp =>
    cases hs
    simp only [startContent]
    split <;> exact h.within hp rfl rfl rfl
  next t hp =>
    cases hs
    refine ⟨?_, fun t st hp' => by cases hp'⟩
    cases ht : s.threw with
    | none => simp
    | some t' => simp [h.switching t _ hp t' ht]
  next =>
    cases hs
    obtain he | ⟨_, he⟩ := requestStopOf_cases s .stopped (.leaving true) <;>
      rw [he] <;> exact h.away rfl rfl (by simp)
  next => obtain ⟨c, rfl⟩ := joinOf_eq hs; exact h.away rfl rfl (by simp)
  next =>
    split at hs
    · cases hs; exact h.away rfl rfl (by simp)
    · split at hs <;> cases hs
      refine h.away rfl rfl fun t st => ?_
      cases hb : s.booted <;> simp
  next => cases hs
  next => cases hs

theorem threwOk_inductive : (machine cfg).Inductive (AskedAgain cfg) ThrewOk where
  init := by
    rintro s ⟨now, night, active, rfl⟩
    exact ⟨rfl, fun t st hp => by cases hp⟩
  step s a s' h hG hs := by
    by_cases hm : a = .manager
    · subst hm
      exact threwOk_manager h (fun hp t ht => (hG rfl t ht).1 hp) hs
    · by_cases ht : a = .throws
      · subst ht; exact threwOk_throws h hs
      · have hsame := sameManager_step hm ht hs
        exact ⟨by rw [hsame.down, hsame.threw]; exact h.down, fun t st hp t' ht' =>
          h.switching t st (hsame.pc ▸ hp) t' (hsame.threw ▸ ht')⟩

/-- In a quiet wait behind a throw the panel is in its boot state and the deadline brings `t`. -/
theorem retry_inductive : (machine cfg).Inductive (AskedAgain cfg) fun s =>
    ∀ w t₀, s.pc = .waiting w t₀ → Quiet s → s.stopRequested = false → ∀ t, s.threw = some t →
      s.state = .boot ∧ ∃ d ∈ w, (t₀ : Int) < d → screenAt cfg s d.toNat = t where
  init := by rintro s ⟨now, night, active, rfl⟩ w t₀ hp; cases hp
  step s a s' hi hG hs := by
    refine quietWait_step (P := fun s w t₀ => ∀ t, s.threw = some t →
      s.state = .boot ∧ ∃ d ∈ w, (t₀ : Int) < d → screenAt cfg s d.toNat = t) hi ?_ ?_ hs
    · exact fun ha hp hq hrun t ht => (hG ha t ht).2 hp hq hrun
    · intro w t₀ h hu hP t ht
      obtain ⟨hst, d, hd, hscreen⟩ := hP t (h.threw ▸ ht)
      exact ⟨h.state ▸ hst, d, hd, fun hlt => by rw [hu.screenAt]; exact hscreen hlt⟩

/-! ## Starting without an event -/

theorem screenAt_content (s : State) (t : Nat) : (screenAt cfg s t).content.isSome = true := by
  unfold screenAt; split_ifs <;> rfl

/-- From the boot state a round runs through to the start of the task it asks for. -/
theorem run_from_boot {s : State} {t : DisplayState} (hp : s.pc = .apply) (hst : s.state = .boot)
    (hw : wanted cfg s = t) (hc : t.content.isSome = true) :
    ∃ s', (machine cfg).run s (List.replicate 5 .manager) = some s' ∧ Running s' t := by
  obtain ⟨c, hc⟩ := Option.isSome_iff_exists.mp hc
  have hne : ¬ (t = .boot ∧ stale s t = false) := by
    rintro ⟨rfl, -⟩; cases hc
  have hdecide : decideSwitch cfg s =
      { s with readAt := s.now, nightRead := nightBlankAt cfg s s.now, pc := .switching t .stop } := by
    simp only [decideSwitch, hw, hst, if_neg hne]
  -- the state at the entry of the setters
  obtain ⟨m, hm⟩ : ∃ m : State, m = { s with
      readAt := s.now, nightRead := nightBlankAt cfg s s.now, pc := .switching t .set } := ⟨_, rfl⟩
  refine ⟨{ startContent { setContent m t with pc := .switching t .start } t with
    pc := .switching t .store }, ?_, c, hc, by simp [startContent, hc]⟩
  simp only [List.replicate, Machine.run, machine, step]
  simp only [manager, hp, Option.bind_some, hdecide, requestStopOf, hst, DisplayState.content, hm]

theorem startsByItself_of_deadline {s : State} {t : DisplayState} {t₀ : Nat} {d : Int}
    (hp : s.pc = .waiting (some d) t₀) (hlt : (s.now : Int) < d) (hrun : s.stopRequested = false)
    (hst : s.state = .boot) (hs : screenAt cfg s d.toNat = t) : StartsByItself cfg s t := by
  obtain ⟨n, rfl⟩ : ∃ n : Nat, d = n := Int.eq_ofNat_of_zero_le (by omega)
  -- the state at the deadline
  have hwake : manager cfg { s with now := n } = some (snapshot cfg { s with now := n }) := by
    simp [manager, hp, hrun]
  obtain ⟨s', hs', hr⟩ := run_from_boot (s := snapshot cfg { s with now := n }) rfl hst
    ((wanted_snapshot _).trans hs) (hs ▸ screenAt_content _ _)
  refine ⟨n - s.now, 6, s', ?_, hr⟩
  have hn : s.now + (n - s.now) = n := by omega
  simp only [List.replicate, Machine.run, machine, step, hn,
    Option.bind_some, hwake] at hs' ⊢
  exact hs'

/-- A switch that threw heals if its screen is asked for again before the manager blocks. -/
theorem failed_switch_heals {s : State} (hr : (machine cfg).ReachableBy (AskedAgain cfg) s)
    (hb : Blocked s) : Healed cfg s := by
  obtain ⟨hT, hR⟩ := (roundInv_inductive cfg _).of_reachable hr
  have hi := (readsInv_inductive cfg _).of_reachable hr
  have hok := threwOk_inductive.of_reachable hr
  obtain ⟨⟨w, t₀, hp, hlt⟩, hq, hrun⟩ := hb
  cases hth : s.threw with
  | none =>
    have hd : s.down = false := by rw [hok.down, hth]; rfl
    have hidle : s.pc.Idle := by rw [hp]; trivial
    have hf := hR.idle hidle (fun h0 => hi.first h0 hq) hd
    obtain ⟨c, th, hc, hth', -⟩ := (completed_of_followed hT hR hf hidle hd).started
    have hsome : (s.tasks c).isSome = true := by rw [hth']; rfl
    refine ⟨fun c' hc' => ?_, fun t ht => ?_, .inl ⟨s.state, c, hc, hsome⟩⟩
    · rw [hc, Option.some.injEq] at hc'
      exact hc' ▸ hsome
    · rw [hth] at ht; cases ht
  | some t =>
    obtain ⟨hst, d, hd, hscreen⟩ := retry_inductive.of_reachable hr w t₀ hp hq hrun t hth
    cases hd
    have hnow := hlt d rfl
    have hle := (hi.wait _ _ hp hq hrun).1
    have hself : StartsByItself cfg s t :=
      startsByItself_of_deadline hp hnow hrun hst (hscreen (by omega))
    refine ⟨fun c hc => ?_, fun t' ht' => ?_, .inr ⟨t, hself⟩⟩
    · rw [hst] at hc; cases hc
    · rw [hth, Option.some.injEq] at ht'
      exact .inr (ht' ▸ hself)

/-- A switch from the slideshow to a status screen that throws, and the restart behind it. -/
def statusThrows : List Act :=
  List.replicate 10 Act.manager ++
    [Act.statusScreen { kind := some .update, version := "2" }, .manager, .manager, .manager,
      .exit .slideshow, .manager, .manager, .throws, .tick second]

/-- A second event during the backoff gets the screen started. -/
theorem failed_switch_heals_status :
    ∃ s, (machine defaultConfig).run (freshState 0) (statusThrows ++
        .statusScreen { kind := some .update, version := "2" } :: List.replicate 10 .manager) =
          some s ∧
      s.state = .status ∧ Healed defaultConfig s := by
  refine ⟨_, rfl, rfl, ?_⟩
  have hr := Machine.ReachableBy.run (G := AskedAgain defaultConfig) (statusThrows ++
      .statusScreen { kind := some .update, version := "2" } :: List.replicate 10 .manager)
    (.init (freshState_init defaultConfig 0)) (by decide) rfl
  exact failed_switch_heals hr ⟨⟨_, _, rfl, by decide⟩, ⟨rfl, rfl⟩, rfl⟩

/-- Without one the manager blocks with no content task started, and `state_` still names the
slideshow. -/
theorem throw_leaves_no_task :
    ∃ s, (machine defaultConfig).Reachable s ∧ Blocked s ∧ s.threw = some .status ∧
      s.state = .slideshow ∧ (∀ c, s.tasks c = none) ∧ ¬ Healed defaultConfig s := by
  refine Machine.exists_reachable_of_run (statusThrows ++ List.replicate 2 .manager)
    (freshState_init defaultConfig 0)
    ⟨_, rfl, ⟨⟨_, _, rfl, by decide⟩, ⟨rfl, rfl⟩, rfl⟩, rfl, rfl, ?_, fun h => ?_⟩
  · intro c; cases c <;> rfl
  · exact absurd (h.state .slideshow rfl) (by decide)

end ShareFrame.DisplayTaskManager
