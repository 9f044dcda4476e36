import ShareFrame.Task.Manager.Tasks

/-!
# What a completed round leaves behind

After `_apply` returned, `state_` is the highest screen the snapshot asks for and
its content task is the only started one, with the snapshot's parameters
(`Completed`). `RoundInv` carries the parameters through the calls of a switch;
it is inductive over all steps, and `Completed` follows as long as no switch
threw.
-/

namespace ShareFrame.DisplayTaskManager

open Transition
open Places (update_eq_some)

/-! ## Steps of the other threads -/

/-- What a step of another thread leaves alone: the manager's own data, and of the content tasks
which are started, by which round and whether asked to stop. -/
structure SameManager (s s' : State) : Prop where
  pc : s'.pc = s.pc
  booted : s'.booted = s.booted
  state : s'.state = s.state
  shownStatus : s'.shownStatus = s.shownStatus
  shownNightEnd : s'.shownNightEnd = s.shownNightEnd
  snap : s'.snap = s.snap
  credentials : s'.credentials = s.credentials
  round : s'.round = s.round
  snapAt : s'.snapAt = s.snapAt
  readAt : s'.readAt = s.readAt
  nightRead : s'.nightRead = s.nightRead
  endRead : s'.endRead = s.endRead
  threw : s'.threw = s.threw
  down : s'.down = s.down
  tasks : ∀ c th', s'.tasks c = some th' →
    ∃ th, s.tasks c = some th ∧ th'.round = th.round ∧ th'.stop = th.stop

theorem SameManager.refl (s : State) : SameManager s s := by
  constructor <;> first | rfl | exact fun c th h => ⟨th, h, rfl, rfl⟩

theorem sameManager_handler {s s' : State} {f : State → State} (hf : SameManager s (f s))
    (hs : handler s f = some s') : SameManager s s' := by
  unfold handler at hs
  split at hs <;> cases hs
  exact ⟨hf.pc, hf.booted, hf.state, hf.shownStatus, hf.shownNightEnd, hf.snap, hf.credentials,
    hf.round, hf.snapAt, hf.readAt, hf.nightRead, hf.endRead, hf.threw, hf.down, hf.tasks⟩

theorem sameManager_paintStep {s s' : State} {c : Content} {f : Thread → Option Thread}
    (hf : ∀ th th', f th = some th' → th'.round = th.round ∧ th'.stop = th.stop)
    (hs : paintStep s c f = some s') : SameManager s s' := by
  unfold paintStep at hs
  cases hc : s.tasks c with
  | none => simp [hc] at hs
  | some th =>
    simp only [hc, Option.map_eq_some_iff] at hs
    obtain ⟨th', hth, rfl⟩ := hs
    refine { SameManager.refl s with tasks := fun d t hd => ?_ }
    obtain ⟨rfl, rfl⟩ | ⟨-, hd⟩ := update_eq_some hd
    · exact ⟨th, hc, hf th t hth⟩
    · exact ⟨t, hd, rfl, rfl⟩

theorem Thread.same_call {th th' : Thread} (h : th.call = some th') :
    th'.round = th.round ∧ th'.stop = th.stop := by
  unfold Thread.call at h
  split at h <;> cases h
  exact ⟨rfl, rfl⟩

theorem Thread.same_checkStop {shuttingDown : Bool} {th th' : Thread}
    (h : th.checkStop shuttingDown = some th') : th'.round = th.round ∧ th'.stop = th.stop := by
  unfold Thread.checkStop at h
  split at h <;> cases h
  exact ⟨rfl, rfl⟩

theorem Thread.same_move {src dst : PaintPc} {th th' : Thread} (h : th.move src dst = some th') :
    th'.round = th.round ∧ th'.stop = th.stop := by
  unfold Thread.move at h
  split at h <;> cases h
  exact ⟨rfl, rfl⟩

/-- Every step but the manager's own two kinds. -/
theorem sameManager_step {cfg : Config} {s s' : State} {a : Act} (hm : a ≠ .manager)
    (ht : a ≠ .throws) (hs : step cfg s a = some s') : SameManager s s' := by
  cases a with
  | manager => exact absurd rfl hm
  | throws => exact absurd rfl ht
  | tick d => cases hs; exact { SameManager.refl s with }
  | apSetupState evt =>
    exact sameManager_handler (f := fun s => { s with latest := evt })
      { SameManager.refl s with } hs
  | statusScreen evt =>
    exact sameManager_handler (f := fun s => { s with latestStatus := evt, statusSince := s.now })
      { SameManager.refl s with } hs
  | frameRegistration r =>
    simp only [step] at hs
    exact sameManager_handler { SameManager.refl s with } hs
  | scheduledClear =>
    exact sameManager_handler (f := fun s => { s with restore := true })
      { SameManager.refl s with } hs
  | storeNightMode night =>
    simp only [step] at hs
    split at hs <;> cases hs
    exact { SameManager.refl s with }
  | updateNightMode =>
    simp only [step] at hs
    split at hs <;> cases hs
    exact { SameManager.refl s with }
  | setSlideshowActive active =>
    simp only [step] at hs
    split at hs <;> cases hs
    exact { SameManager.refl s with }
  | requestStop => cases hs; exact { SameManager.refl s with }
  | requestShutdown => cases hs; exact { SameManager.refl s with }
  | paint c => exact sameManager_paintStep (fun _ _ => Thread.same_call) hs
  | checkStop c => exact sameManager_paintStep (fun _ _ => Thread.same_checkStop) hs
  | beginRefresh c => exact sameManager_paintStep (fun _ _ => Thread.same_move) hs
  | endRefresh c => exact sameManager_paintStep (fun _ _ => Thread.same_move) hs
  | sendFails c => exact sameManager_paintStep (fun _ _ => Thread.same_move) hs
  | exit c => exact sameManager_paintStep (fun _ _ => Thread.same_move) hs

/-! ## The invariant of a round -/

/-- The setters of the screen of `t` were called with this round's values. -/
structure SetFor (s : State) (t : DisplayState) : Prop where
  night : t = .nightBlank → s.shownNightEnd = s.endRead
  credentials : t = .apSetup → s.credentials = (s.snap.apSetup.ssid, s.snap.apSetup.password)

/-- Between two rounds: at the top of the loop or in its wait. -/
def Pc.Idle : Pc → Prop
  | .loop | .waiting _ _ => True
  | _ => False

/-- A stop of the active task was requested and its thread is being joined. -/
def Pc.Joining : Pc → Prop
  | .switching _ .join | .leaving true => True
  | _ => False

/-- What the last round asked for is what `state_` and the started task stand for. -/
structure Followed (s : State) : Prop where
  state : s.state = target s.snap s.nightRead
  set : SetFor s s.state
  status : s.state = .status → s.shownStatus = s.snap.status
  restarted : s.snap.restore = true → s.state = .status ∨ s.state = .nightBlank →
    ∀ c th, s.tasks c = some th → th.round = s.round

structure RoundInv (s : State) : Prop where
  fresh : s.booted = false → s.round = 0
  switching : ∀ t st, s.pc = .switching t st → t = target s.snap s.nightRead
  set : ∀ t, s.pc = .switching t .start → SetFor s t
  started : ∀ t, s.pc = .switching t .store →
    SetFor s t ∧ (t = .status → s.shownStatus = s.snap.status) ∧
      ∀ c th, s.tasks c = some th → th.round = s.round
  idle : s.pc.Idle → s.round ≠ 0 → s.down = false → Followed s
  unasked : ¬ s.pc.Joining → ∀ c th, s.tasks c = some th → th.stop = false

theorem SetFor.congr {s s' : State} (h : SameManager s s') {t : DisplayState} (hs : SetFor s t) :
    SetFor s' t where
  night ht := by rw [h.shownNightEnd, h.endRead]; exact hs.night ht
  credentials ht := by rw [h.credentials, h.snap]; exact hs.credentials ht

theorem Followed.congr {s s' : State} (h : SameManager s s') (hs : Followed s) : Followed s' where
  state := by rw [h.state, h.snap, h.nightRead]; exact hs.state
  set := by rw [h.state]; exact hs.set.congr h
  status := by rw [h.state, h.shownStatus, h.snap]; exact hs.status
  restarted hr hst c th' hc := by
    rw [h.snap] at hr; rw [h.state] at hst; rw [h.round]
    obtain ⟨th, hth, hround, -⟩ := h.tasks c th' hc
    rw [hround]
    exact hs.restarted hr hst c th hth

theorem RoundInv.congr {s s' : State} (h : SameManager s s') (hi : RoundInv s) : RoundInv s' where
  fresh hb := by rw [h.round]; exact hi.fresh (h.booted ▸ hb)
  switching t st hp := by rw [h.snap, h.nightRead]; exact hi.switching t st (h.pc ▸ hp)
  set t hp := (hi.set t (h.pc ▸ hp)).congr h
  started t hp := by
    obtain ⟨h1, h2, h3⟩ := hi.started t (h.pc ▸ hp)
    refine ⟨h1.congr h, ?_, fun c th' hc => ?_⟩
    · rw [h.shownStatus, h.snap]; exact h2
    · obtain ⟨th, hth, hround, -⟩ := h.tasks c th' hc
      rw [hround, h.round]; exact h3 c th hth
  idle hp hr hd := (hi.idle (h.pc ▸ hp) (h.round ▸ hr) (h.down ▸ hd)).congr h
  unasked hp c th' hc := by
    obtain ⟨th, hth, -, hstop⟩ := h.tasks c th' hc
    rw [hstop]; exact hi.unasked (h.pc ▸ hp) c th hth

theorem roundInv_init {cfg : Config} {s : State} (h : (machine cfg).Init s) : RoundInv s := by
  obtain ⟨now, night, active, rfl⟩ := h
  refine ⟨fun _ => rfl, ?_, ?_, ?_, ?_, ?_⟩
  · intro t st hp; cases hp
  · intro t hp; cases hp
  · intro t hp; cases hp
  · intro hp; exact hp.elim
  · intro _ c th hc; cases hc

/-- Outside a switch only an idle manager owes something. -/
theorem roundInv_away {s : State} (hf : s.booted = false → s.round = 0)
    (hsw : ∀ t st, s.pc ≠ .switching t st)
    (hid : s.pc.Idle → s.round ≠ 0 → s.down = false → Followed s)
    (hu : ¬ s.pc.Joining → ∀ c th, s.tasks c = some th → th.stop = false) : RoundInv s where
  fresh := hf
  switching t st hp := absurd hp (hsw t st)
  set t hp := absurd hp (hsw t _)
  started t hp := absurd hp (hsw t _)
  idle := hid
  unasked := hu

theorem roundInv_within {s : State} (t : DisplayState) (st : Stage) (hp : s.pc = .switching t st)
    (hb : s.booted = true) (ht : t = target s.snap s.nightRead)
    (hset : st = .start → SetFor s t)
    (hst : st = .store → SetFor s t ∧ (t = .status → s.shownStatus = s.snap.status) ∧
      ∀ c th, s.tasks c = some th → th.round = s.round)
    (hu : st ≠ .join → ∀ c th, s.tasks c = some th → th.stop = false) : RoundInv s where
  fresh hb' := by rw [hb] at hb'; cases hb'
  switching t' st' hp' := by
    rw [hp] at hp'; cases hp'
    exact ht
  set t' hp' := by
    rw [hp] at hp'; cases hp'
    exact hset rfl
  started t' hp' := by
    rw [hp] at hp'; cases hp'
    exact hst rfl
  idle hp' := by rw [hp] at hp'; exact hp'.elim
  unasked hj := hu (by rintro rfl; rw [hp] at hj; exact hj trivial)

/-! ## Steps of the manager's thread -/

/-- `_apply` returns early only when the screen it wants is up with what the snapshot asks for. -/
theorem followed_of_early_return {cfg : Config} {s s' : State} (hw : wanted cfg s = s.state)
    (hst : stale s s.state = false)
    (hs' : s' = { s with
      readAt := s.now
      nightRead := nightBlankAt cfg s s.now
      credentials := if s.state = .apSetup then (s.snap.apSetup.ssid, s.snap.apSetup.password)
        else s.credentials
      endRead := s.night.val.endHour
      pc := .loop }) : Followed s' := by
  subst hs'
  simp only [stale, Bool.or_eq_false_iff, Bool.and_eq_false_iff, beq_eq_false_iff_ne,
    bne_eq_false_iff_eq] at hst
  obtain ⟨hstatus, hnight⟩ := hst
  constructor
  · exact hw.symm
  · refine ⟨fun h => ?_, fun h => if_pos h⟩
    obtain hne | ⟨-, he⟩ := hnight
    · exact absurd h hne
    · exact he.symm
  · intro h
    obtain hne | ⟨-, he⟩ := hstatus
    · exact absurd h hne
    · exact he.symm
  · -- a scheduled clear makes both of these screens stale
    intro (hr : s.snap.restore = true) h
    rcases h with h | h
    · obtain hne | ⟨hf, -⟩ := hstatus
      · exact absurd h hne
      · rw [hr] at hf; cases hf
    · obtain hne | ⟨hf, -⟩ := hnight
      · exact absurd h hne
      · rw [hr] at hf; cases hf

theorem roundInv_decideSwitch {cfg : Config} {s : State} (hT : TasksInv s) (h : RoundInv s)
    (hp : s.pc = .apply) : RoundInv (decideSwitch cfg s) := by
  have hb : s.booted = true := hT.inLoop (by rw [hp]; trivial)
  have hu := h.unasked (by rw [hp]; exact id)
  simp only [decideSwitch]
  split
  next hc =>
    obtain ⟨hw, hst⟩ := hc
    rw [hw] at hst ⊢
    exact roundInv_away (by intro hb'; rw [hb] at hb'; cases hb') (by intro t st ht; cases ht)
      (fun _ _ _ => followed_of_early_return hw hst rfl) fun _ => hu
  next =>
    exact roundInv_within (wanted cfg s) .stop rfl hb rfl (by intro hst; cases hst)
      (by intro hst; cases hst) fun _ => hu

/-- `requestStopOf` keeps the manager's own data and changes no thread unless it goes to join it. -/
theorem requestStopOf_cases (s : State) (p q : Pc) :
    requestStopOf s p q = { s with pc := p } ∨
      ∃ tasks, requestStopOf s p q = { s with tasks, pc := q } := by
  unfold requestStopOf
  split
  · exact .inl rfl
  · split
    · exact .inl rfl
    · exact .inr ⟨_, rfl⟩

/-- A join that returns leaves everything but the program point and the joined task. -/
theorem joinOf_eq {s s' : State} {p : Pc} (hs : joinOf s p = some s') :
    ∃ c, s' = { s with tasks := Function.update s.tasks c none, pc := p } := by
  unfold joinOf at hs
  split at hs
  · cases hs
  · split at hs
    · cases hs
    · split at hs <;> cases hs
      exact ⟨_, rfl⟩

theorem roundInv_manager {cfg : Config} {s s' : State} (hT : TasksInv s) (hT' : TasksInv s')
    (h : RoundInv s) (hs : manager cfg s = some s') : RoundInv s' := by
  have cleared : s'.pc.Cleared → ∀ c th, s'.tasks c = some th → th.stop = false := by
    intro hp c th hc
    rw [hT'.none_of_owner (owner_cleared hp)] at hc; cases hc
  unfold manager at hs
  split at hs
  next hp =>
    have hr := h.fresh (hT.boot hp)
    cases hs
    refine roundInv_away (fun _ => hr) (by intro t st ht; cases ht) (fun _ hr' => absurd hr hr') ?_
    exact fun _ => h.unasked (by rw [hp]; exact id)
  next hp =>
    have hu := h.unasked (by rw [hp]; exact id)
    split at hs <;> cases hs
    · exact roundInv_away h.fresh (by intro t st ht; cases ht) (fun hi => hi.elim) fun _ => hu
    · refine roundInv_away h.fresh (by intro t st ht; cases ht) (fun _ hr hd => ?_) fun _ => hu
      have hf := h.idle (by rw [hp]; trivial) hr hd
      exact ⟨hf.state, ⟨hf.set.night, hf.set.credentials⟩, hf.status, hf.restarted⟩
  next w t0 hp =>
    have hu := h.unasked (by rw [hp]; exact id)
    split at hs
    · cases hs
      exact roundInv_away h.fresh (by intro t st ht; cases ht) (fun hi => hi.elim) fun _ => hu
    · split at hs <;> cases hs
      have hb : s.booted = true := hT.inLoop (by rw [hp]; trivial)
      refine roundInv_away (fun hb' => ?_) (by intro t st ht; cases ht) (fun hi => hi.elim) fun _ => hu
      rw [snapshot, hb] at hb'; cases hb'
  next hp => cases hs; exact roundInv_decideSwitch hT h hp
  next t hp =>
    have hb : s.booted = true := hT.inLoop (by rw [hp]; trivial)
    have ht := h.switching t _ hp
    cases hs
    obtain he | ⟨tasks, he⟩ := requestStopOf_cases s (.switching t .clear) (.switching t .join) <;>
      rw [he] at cleared ⊢
    · exact roundInv_within t .clear rfl hb ht (by intro hst; cases hst)
        (by intro hst; cases hst) fun _ => cleared trivial
    · exact roundInv_within t .join rfl hb ht (by intro hst; cases hst)
        (by intro hst; cases hst) fun hj => absurd rfl hj
  next t hp =>
    have hb : s.booted = true := hT.inLoop (by rw [hp]; trivial)
    have ht := h.switching t _ hp
    obtain ⟨c, rfl⟩ := joinOf_eq hs
    exact roundInv_within t .clear rfl hb ht (by intro hst; cases hst)
      (by intro hst; cases hst) fun _ => cleared trivial
  next t hp =>
    have hb : s.booted = true := hT.inLoop (by rw [hp]; trivial)
    have ht := h.switching t _ hp
    cases hs
    exact roundInv_within t .set rfl hb ht (by intro hst; cases hst)
      (by intro hst; cases hst) fun _ => cleared trivial
  next t hp =>
    have hb : s.booted = true := hT.inLoop (by rw [hp]; trivial)
    have ht := h.switching t _ hp
    cases hs
    refine roundInv_within t .start rfl ?_ ?_ (fun _ => ?_)
      (by intro hst; cases hst) fun _ => cleared trivial
    · cases t <;> exact hb
    · cases t <;> exact ht
    · cases t <;> exact ⟨by simp [setContent], by simp [setContent]⟩
  next t hp =>
    have hb : s.booted = true := hT.inLoop (by rw [hp]; trivial)
    have ht := h.switching t _ hp
    have hset := h.set t hp
    obtain ⟨c, hc⟩ := Option.isSome_iff_exists.mp (hT.target t _ hp)
    have hn := hT.none_of_owner (owner_cleared (by rw [hp]; trivial))
    cases hs
    simp only [startContent, hc] at cleared ⊢
    have honly : ∀ {d th th'}, Function.update s.tasks c (some th) d = some th' → th' = th := by
      intro d th th' hd
      obtain ⟨-, rfl⟩ | ⟨-, hd⟩ := update_eq_some hd
      · rfl
      · rw [hn] at hd; cases hd
    refine roundInv_within t .store rfl hb ht (by intro hst; cases hst)
      (fun _ => ⟨⟨hset.night, hset.credentials⟩, fun hst => if_pos hst, fun d th hd => ?_⟩)
      fun _ d th hd => ?_
    · rw [honly hd]
    · rw [honly hd]
  next t hp =>
    have hb : s.booted = true := hT.inLoop (by rw [hp]; trivial)
    obtain ⟨hset, hstatus, hround⟩ := h.started t hp
    have hu := h.unasked (by rw [hp]; exact id)
    have ht := h.switching t _ hp
    cases hs
    refine roundInv_away (fun hb' => ?_) (by intro t' st h'; cases h') (fun _ _ _ => ?_) fun _ => hu
    · rw [hb] at hb'; cases hb'
    · exact ⟨ht, ⟨hset.night, hset.credentials⟩, hstatus, fun _ _ => hround⟩
  next hp =>
    cases hs
    obtain he | ⟨tasks, he⟩ := requestStopOf_cases s .stopped (.leaving true) <;>
      rw [he] at cleared ⊢
    · exact roundInv_away h.fresh (by intro t st ht; cases ht) (fun hi => hi.elim)
        fun _ => cleared trivial
    · exact roundInv_away h.fresh (by intro t st ht; cases ht) (fun hi => hi.elim)
        fun hj => absurd trivial hj
  next hp =>
    obtain ⟨c, rfl⟩ := joinOf_eq hs
    exact roundInv_away h.fresh (by intro t st ht; cases ht) (fun hi => hi.elim)
      fun _ => cleared trivial
  next d hp =>
    have hu := h.unasked (by rw [hp]; exact id)
    split at hs
    · cases hs
      exact roundInv_away h.fresh (by intro t st ht; cases ht) (fun hi => hi.elim) fun _ => hu
    · split at hs <;> cases hs
      refine roundInv_away h.fresh ?_ (fun _ hr hd => ?_) fun _ => hu
      · intro t st ht; cases hb : s.booted <;> simp [hb] at ht
      · -- behind an exception either a switch threw or the panel was never booted
        obtain hdown | hb := hT.backoff d hp
        · rw [show s.down = false from hd] at hdown; cases hdown
        · exact absurd (h.fresh hb) hr
  next => cases hs
  next => cases hs

theorem caught_cases (s : State) :
    caught s = { s with pc := .stopped } ∨ caught s = { s with pc := .aborted } ∨
      ∃ d restarts, caught s = { s with restarts, pc := .backoff d } := by
  unfold caught
  split
  · exact .inl rfl
  · split
    · exact .inr (.inl rfl)
    · exact .inr (.inr ⟨_, _, rfl⟩)

theorem roundInv_caught {s : State} (hf : s.booted = false → s.round = 0)
    (hu : ∀ c th, s.tasks c = some th → th.stop = false) : RoundInv (caught s) := by
  obtain he | he | ⟨d, restarts, he⟩ := caught_cases s <;> rw [he] <;>
    exact roundInv_away hf (by intro t st ht; cases ht) (fun hi => hi.elim) fun _ => hu

theorem roundInv_throws {s s' : State} (h : RoundInv s) (hs : managerThrows s = some s') :
    RoundInv s' := by
  unfold managerThrows at hs
  split at hs
  next hp => cases hs; exact roundInv_caught h.fresh (h.unasked (by rw [hp]; exact id))
  next t hp =>
    have hu := h.unasked (by rw [hp]; exact id)
    split at hs <;> cases hs
    exact roundInv_caught h.fresh hu
  next t hp =>
    have hu := h.unasked (by rw [hp]; exact id)
    split at hs
    · cases hs; exact roundInv_caught h.fresh hu
    · split at hs <;> cases hs
      exact roundInv_caught h.fresh hu
  next t hp => cases hs; exact roundInv_caught h.fresh (h.unasked (by rw [hp]; exact id))
  next => cases hs

theorem roundInv_step {cfg : Config} {s s' : State} {a : Act} (hT : TasksInv s) (hT' : TasksInv s')
    (h : RoundInv s) (hs : step cfg s a = some s') : RoundInv s' := by
  by_cases hm : a = .manager
  · subst hm; exact roundInv_manager hT hT' h hs
  · by_cases ht : a = .throws
    · subst ht; exact roundInv_throws h hs
    · exact h.congr (sameManager_step hm ht hs)

theorem roundInv_inductive (cfg : Config) (G : State → Act → Prop) :
    (machine cfg).Inductive G fun s => TasksInv s ∧ RoundInv s :=
  (tasksInv_inductive cfg G).strengthen (fun _ h => roundInv_init h)
    fun _ _ _ hT hT' h _ hs => roundInv_step hT hT' h hs

/-! ## Runs in which no switch throws -/

/-- Only booting the panel throws. -/
def NoSwitchThrows (s : State) (a : Act) : Prop := a = .throws → s.pc = .boot

theorem down_caught (s : State) : (caught s).down = s.down := by
  obtain he | he | ⟨d, restarts, he⟩ := caught_cases s <;> rw [he]

theorem down_manager {cfg : Config} {s s' : State} (h : s.down = false)
    (hs : manager cfg s = some s') : s'.down = false := by
  unfold manager at hs
  split at hs
  next => cases hs; exact h
  next => split at hs <;> cases hs <;> exact h
  next =>
    split at hs
    · cases hs; exact h
    · split at hs <;> cases hs
      exact h
  next =>
    cases hs
    simp only [decideSwitch]
    split <;> exact h
  next t _ =>
    cases hs
    obtain he | ⟨_, he⟩ := requestStopOf_cases s (.switching t .clear) (.switching t .join) <;>
      rw [he] <;> exact h
  next => obtain ⟨c, rfl⟩ := joinOf_eq hs; exact h
  next => cases hs; exact h
  next t _ => cases hs; cases t <;> exact h
  next t _ =>
    cases hs
    simp only [startContent]
    split <;> exact h
  next => cases hs; rfl
  next =>
    cases hs
    obtain he | ⟨_, he⟩ := requestStopOf_cases s .stopped (.leaving true) <;> rw [he] <;> exact h
  next => obtain ⟨c, rfl⟩ := joinOf_eq hs; exact h
  next => split at hs <;> [skip; split at hs] <;> cases hs <;> exact h
  next => cases hs
  next => cases hs

theorem down_inductive (cfg : Config) :
    (machine cfg).Inductive NoSwitchThrows fun s => s.down = false where
  init := by rintro s ⟨now, night, active, rfl⟩; rfl
  step s a s' h hG hs := by
    by_cases hm : a = .manager
    · subst hm; exact down_manager h hs
    · by_cases ht : a = .throws
      · subst ht
        have hp := hG rfl
        simp only [machine, step, managerThrows, hp, Option.some.injEq] at hs
        rw [← hs, down_caught]; exact h
      · rw [(sameManager_step hm ht hs).down]; exact h

/-- What the screen of a content task is given by the snapshot. -/
def asked (s : State) : Content → Shows
  | .slideshow => .slideshow
  | .nightBlank => .nightBlank s.endRead
  | .registration => .registration
  | .apSetup => .apSetup
  | .status => .status s.snap.status

/-- What a completed `_apply` leaves behind. -/
structure Completed (s : State) : Prop where
  /-- `state_` is the highest screen the snapshot asks for -/
  state : s.state = target s.snap s.nightRead
  /-- its content task is started with the snapshot's parameters, anew if it was stale -/
  started : ∃ c th, s.state.content = some c ∧ s.tasks c = some th ∧ th.stop = false ∧
    th.shows = asked s c ∧
    (s.snap.restore = true → s.state = .status ∨ s.state = .nightBlank → th.round = s.round)
  /-- every other one is stopped -/
  stopped : ∀ c, s.state.content ≠ some c → s.tasks c = none
  /-- the setup screen has the snapshot's credentials -/
  credentials : s.state = .apSetup → s.credentials = (s.snap.apSetup.ssid, s.snap.apSetup.password)

theorem Pc.Idle.atHome {pc : Pc} (h : pc.Idle) : pc.AtHome := by
  cases pc <;> first | exact h.elim | trivial

theorem asked_eq_showing {s : State} (h : Followed s) {c : Content}
    (hc : s.state.content = some c) : showing s c = asked s c := by
  cases hst : s.state <;> rw [hst] at hc <;> cases hc
  · rfl
  · simp only [showing, asked, h.set.night hst]
  · rfl
  · rfl
  · simp only [showing, asked, h.status hst]

theorem completed_of_followed {s : State} (hT : TasksInv s) (hR : RoundInv s) (h : Followed s)
    (hp : s.pc.Idle) (hd : s.down = false) : Completed s := by
  have howner : owner s = s.state.content := by
    rw [owner_atHome hp.atHome, hd]; rfl
  obtain ⟨c, hc⟩ : ∃ c, s.state.content = some c :=
    Option.isSome_iff_exists.mp (h.state ▸ target_content _ _)
  obtain ⟨th, hth⟩ := Option.isSome_iff_exists.mp ((hT.only c).mpr (howner.trans hc))
  have hjoin : ¬ s.pc.Joining := by
    intro hj
    cases hpc : s.pc <;> rw [hpc] at hp hj <;> first | exact hp | exact hj
  refine ⟨h.state, ⟨c, th, hc, hth, hR.unasked hjoin c th hth, ?_, ?_⟩, ?_, h.set.credentials⟩
  · rw [hT.shows c th hth, asked_eq_showing h hc]
  · exact fun hr hst => h.restarted hr hst c th hth
  · intro d hd'
    cases htd : s.tasks d with
    | none => rfl
    | some t => exact absurd (howner ▸ (hT.only d).mp (by rw [htd]; rfl)) hd'

/-- A refresh begins only on a thread that was not stopped and whose paint passed its check before
any stop request. -/
theorem beginRefresh_not_late {cfg : Config} {s s' : State} (hT : TasksInv s) {c : Content}
    (hs : step cfg s (.beginRefresh c) = some s') : ∃ th, s.tasks c = some th ∧ th.late = false := by
  simp only [step, paintStep] at hs
  cases hc : s.tasks c with
  | none => simp [hc] at hs
  | some th =>
    refine ⟨th, rfl, ?_⟩
    simp only [hc, Option.map_eq_some_iff, Thread.move] at hs
    obtain ⟨th', hth, -⟩ := hs
    split_ifs at hth with hadm
    by_contra hl
    exact (hT.late c th hc (by simpa using hl)).2.1 hadm

/-- Exactly one content task drives the panel, in every run in which no switch throws. -/
theorem one_content_task {cfg : Config} {s : State}
    (hr : (machine cfg).ReachableBy NoSwitchThrows s) :
    (s.pc.Idle → s.round ≠ 0 → Completed s) ∧
      (∀ c c', (s.tasks c).isSome = true → (s.tasks c').isSome = true → c = c') ∧
      (∀ c s', step cfg s (.beginRefresh c) = some s' →
        ∃ th, s.tasks c = some th ∧ th.late = false) ∧
      (s.pc = .stopped → ∀ c, s.tasks c = none) := by
  obtain ⟨hT, hR⟩ := (roundInv_inductive cfg _).of_reachable hr
  have hd := (down_inductive cfg).of_reachable hr
  refine ⟨fun hp h0 => ?_, fun c c' => hT.unique, fun c s' => beginRefresh_not_late hT, fun hp => ?_⟩
  · exact completed_of_followed hT hR (hR.idle hp h0 hd) hp hd
  · exact hT.none_of_owner (by simp only [owner, hp])

/-- The default timeouts, and a clock that showed midnight at steady time zero. -/
def defaultConfig : Config where
  clock := ⟨0⟩
  statusScreenTimeoutSecs := 2400
  registrationScreenWindowSecs := 600

/-- A pausing night from one to six o'clock. -/
def pausingNight : StoredNight :=
  ⟨{ enabled := true, startHour := 1, endHour := 6, intervalSecs := 3600, style := .pause },
    by decide⟩

/-- A process that starts at steady time `now`. -/
def freshState (now : Nat) : State :=
  { now, night := pausingNight, slideshowActive := true, runStart := now }

theorem freshState_init (cfg : Config) (now : Nat) : (machine cfg).Init (freshState now) :=
  ⟨now, pausingNight, true, rfl⟩

/-- The first round starts the slideshow. -/
theorem one_content_task_slideshow :
    ∃ s, (machine defaultConfig).run (freshState 0) (List.replicate 9 .manager) = some s ∧
      s.state = .slideshow ∧ Completed s := by
  refine ⟨_, rfl, rfl, ?_⟩
  have hr := Machine.ReachableBy.run (G := NoSwitchThrows) (List.replicate 9 .manager)
    (.init (freshState_init defaultConfig 0))
    (Machine.meets_of_mem (by simp [NoSwitchThrows])) rfl
  exact (one_content_task hr).1 trivial (by decide)

end ShareFrame.DisplayTaskManager
