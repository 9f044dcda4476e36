import ShareFrame.Display.Shutdown.Calls

/-!
# The right picture

The steps between the calls keep the invariant of the shutdown too, so a run whose
steps are all orderly leaves the status screen or a white panel behind one final
refresh. Behind it a run in which a waiting `clear` leaves the wrong one.
-/

namespace ShareFrame.DisplayProcess

open DisplayManager (Kind Config Active Pc Picture Follows Still Told BUFFER_SIZE)
open DisplayTaskManager (DisplayState Content Stage)
open Places (update_eq_some update_none_eq_some)

variable {β : Type}

namespace Shutdown

variable {cfg : Config β} {s s' : State β}

/-! ## Between calls -/

theorem not_callOf {t : Thread} (h : ¬ s.inCall t = true) (k : Kind β) : ¬ CallOf s.display t k := by
  simp only [State.inCall, Bool.or_eq_true, not_or, Bool.not_eq_true] at h
  obtain ⟨hqueued, hactive⟩ := h
  rintro (⟨stop, hq⟩ | ⟨a, ha, ht, -⟩)
  · rw [hq] at hqueued
    cases hqueued
  · rw [ha] at hactive
    simp only [Option.any_some, decide_eq_false_iff_not] at hactive
    exact hactive ht

/-- A call of the task manager, before the shutdown. -/
theorem Inv.callManager (h : Inv cfg s) {kind : Kind β} {stop : Bool}
    (hm : s.mainPc = .running) (hpc : ∀ t, s.managerPc ≠ .switching t .store)
    (hs : s.call cfg .manager kind stop = some s') : Inv cfg s' :=
  h.call hs (fun hne => absurd hm hne) (fun ht => by cases ht) (fun _ => hpc) fun ht => by cases ht

/-- `Task::stop` up to `join`. -/
theorem Inv.requestStopOf (h : Inv cfg s) {notJoinable joinable : ManagerPc}
    (hs : s.requestStopOf cfg notJoinable joinable = some s')
    (hpc : s.managerPc ≠ .exited) (hfree : ∀ k, ¬ CallOf s.display .manager k)
    (howns : ∀ c, Owns s c → s.state.content = some c)
    (hjoin : ∀ c, s.state.content = some c → Owns { s with managerPc := joinable } c)
    (hcur : State.StatusCurrent { s with managerPc := joinable } → s.StatusCurrent)
    (hcur' : State.StatusCurrent { s with managerPc := notJoinable } → s.StatusCurrent) :
    Inv cfg s' := by
  have hnotJoinable : (∀ c, s.state.content = some c → s.tasks c = none) →
      Inv cfg { s with managerPc := notJoinable } := fun hnone =>
    h.move _ hpc hfree (fun c th hth => by
      rw [h.no_tasks howns hnone c] at hth
      cases hth) hcur'
  simp only [State.requestStopOf] at hs
  split at hs
  · rename_i hc
    cases hs
    exact hnotJoinable fun c hc' => by rw [hc] at hc'; cases hc'
  · rename_i c hc
    split at hs
    · rename_i hth
      cases hs
      refine hnotJoinable fun c' hc' => ?_
      rw [hc] at hc'
      cases hc'
      exact hth
    · rename_i th hth
      have hmoved := h.move joinable hpc hfree
        (fun c' th' hth' => hjoin c' (howns c' (h.owns c' th' hth'))) hcur
      have hstopped := hmoved.setTask { th with stop := true } hth
        (fun hst k hk => by
          subst hst
          obtain ⟨-, th₀, hth₀, hrun⟩ := h.statusCall k hk
          rw [hth] at hth₀
          cases hth₀
          exact hrun)
        fun _ hp => hp
      exact hstopped.requestStop hs

/-- `thread_.join()`. -/
theorem Inv.joinOf (h : Inv cfg s) {next : ManagerPc} (hs : s.joinOf next = some s')
    (hpc : s.managerPc ≠ .exited)
    (hfree : ∀ k, ¬ CallOf s.display .manager k) (howns : ∀ c, Owns s c → s.state.content = some c)
    (hcur : State.StatusCurrent { s with managerPc := next } → s.StatusCurrent) : Inv cfg s' := by
  simp only [State.joinOf] at hs
  split at hs
  · cases hs
  · rename_i c hc
    split at hs
    · cases hs
    · rename_i th hth
      split at hs
      · rename_i hexit
        cases hs
        refine (h.joinTask hth hexit).move _ hpc hfree (fun c' th' hth' => ?_) hcur
        obtain ⟨hcc, hth₀⟩ := update_none_eq_some hth'
        have := howns c' (h.owns c' th' hth₀)
        rw [hc] at this
        exact absurd (Option.some.inj this).symm hcc
      · cases hs

/-- The task of the target is started. -/
theorem Inv.start (h : Inv cfg s) {t : DisplayState} (hpc : s.managerPc = .switching t .start)
    (hfree : ∀ k, ¬ CallOf s.display .manager k) :
    Inv cfg { s.startContent t with managerPc := .switching t .store } := by
  have hpc' : s.managerPc ≠ .exited := by rw [hpc]; exact ManagerPc.noConfusion
  have hnone : ∀ c, s.tasks c = none := h.no_tasks
    (fun c hc => (hc.false hpc id).elim)
    fun c hc => by
      cases hth : s.tasks c with
      | none => rfl
      | some th =>
        exact ((h.owns c th hth).false hpc id).elim
  have hcur : State.StatusCurrent { s with managerPc := .switching t .store } → s.StatusCurrent := by
    simp only [State.StatusCurrent, hpc]
    exact id
  have hno : ∀ k, ¬ CallOf s.display (.content .status) k := fun k hk => by
    obtain ⟨-, th, hth, -⟩ := h.statusCall k hk
    rw [hnone] at hth
    cases hth
  unfold State.startContent
  split
  · exact h.move _ hpc' hfree (fun c th hth => by rw [hnone c] at hth; cases hth) hcur
  · rename_i c hc
    have hself : ∀ c' th, Function.update s.tasks c (some {}) c' = some th →
        c' = c ∧ th = ({} : ContentThread) := by
      intro c' th hth
      obtain hself | ⟨-, hother⟩ := update_eq_some hth
      · exact hself
      · rw [hnone] at hother
        cases hother
    have hmoved := h.move (.switching t .store) hpc' hfree
      (fun c' th hth => by rw [hnone c'] at hth; cases hth) hcur
    refine hmoved.setTasks (fun c' th hth => ?_) (fun k hk => absurd hk (hno k)) fun th hth hp => ?_
    · rw [(hself c' th hth).1]
      exact hc
    · rw [(hself _ th hth).2] at hp
      cases hp

/-- `state_.store(target)`. -/
theorem Inv.store (h : Inv cfg s) {t : DisplayState} (hpc : s.managerPc = .switching t .store)
    (hfree : ∀ k, ¬ CallOf s.display .manager k) :
    Inv cfg { s with state := t, managerPc := .loop } := by
  have hpc' : s.managerPc ≠ .exited := by rw [hpc]; exact ManagerPc.noConfusion
  have hcur : t = .status → s.StatusCurrent := fun ht => by
    exact statusCurrent_of_move hpc id ht
  exact { h with
    owns := fun c th hth => (h.owns c th hth).move hpc id
    buffered := fun hb => h.buffered (.inr (hcur (hb.elim id id)))
    gone := fun hg => absurd hg (h.no_main hpc')
    managerCall := fun k hk => absurd hk (hfree k)
    mainCall := fun k hk => absurd hk (h.idle_main hpc' k)
    closed := fun hm => { h.closed hm with up := fun hc => (h.closed hm).up (hcur hc) }
    finished := fun hf => absurd hf (h.unfinished hpc') }

theorem Inv.manager (h : Inv cfg s) (hfree : ∀ k, ¬ CallOf s.display .manager k)
    (hs : s.manager cfg = some s') : Inv cfg s' := by
  simp only [State.manager] at hs
  have hkeep : ∀ {pc : ManagerPc}, s.managerPc ≠ .exited →
      (∀ c, Owns s c → Owns { s with managerPc := pc } c) →
      (State.StatusCurrent { s with managerPc := pc } → s.StatusCurrent) →
      Inv cfg { s with managerPc := pc } := fun hpc howns hcur =>
    h.move _ hpc hfree (fun c th hth => howns c (h.owns c th hth)) hcur
  split at hs
  · rename_i hpc
    split at hs
    · cases hs
      refine hkeep (by simp [hpc]) (fun c hc => ?_) fun hc => ?_
      · exact hc.move hpc id
      · exact statusCurrent_of_move hpc id hc
    · cases hs
  · rename_i hpc
    split at hs
    · cases hs
      refine hkeep (by simp [hpc]) (fun c hc => ?_) fun hc => ?_
      · exact hc.move hpc id
      · exact statusCurrent_of_move hpc id hc
    · cases hs
  · rename_i t hpc
    refine h.requestStopOf hs (by simp [hpc]) hfree (fun c hc => ?_) (fun c hc => hc)
      (fun hc => hc.elim) (fun hc => hc.elim)
    exact hc.move hpc id
  · rename_i t hpc
    refine h.joinOf hs (by simp [hpc]) hfree (fun c hc => ?_) (fun hc => hc.elim)
    exact hc.move hpc id
  · rename_i t hpc
    cases hs
    refine hkeep (by simp [hpc]) (fun c hc => ?_) fun hc => hc.elim
    exact (hc.false hpc id).elim
  · rename_i t hpc
    split at hs
    · cases hs
    · rename_i hne
      cases hs
      refine hkeep (by simp [hpc]) (fun c hc => ?_) fun hc => absurd hc hne
      exact (hc.false hpc id).elim
  · rename_i t hpc
    cases hs
    exact h.start hpc hfree
  · rename_i t hpc
    cases hs
    exact h.store hpc hfree
  · rename_i hpc
    refine h.requestStopOf hs (by simp [hpc]) hfree (fun c hc => ?_) (fun c hc => hc)
      (fun hc => ?_) (fun hc => ?_)
    · exact hc.move hpc id
    · exact statusCurrent_of_move hpc id hc
    · exact statusCurrent_of_move hpc id hc
  · rename_i hpc
    refine h.joinOf hs (by simp [hpc]) hfree (fun c hc => ?_) (fun hc => ?_)
    · exact hc.move hpc id
    · exact statusCurrent_of_move hpc id hc
  · cases hs

/-- `status_.set`. -/
theorem Inv.set (h : Inv cfg s) {buffer : β} {source : String}
    (hpc : s.managerPc = .switching .status .set) (hsize : cfg.size buffer = BUFFER_SIZE)
    (hfree : ∀ k, ¬ CallOf s.display .manager k) :
    Inv cfg { s with
      buffer := some buffer, source, shown := false, managerPc := .switching .status .start } := by
  have hpc' : s.managerPc ≠ .exited := by rw [hpc]; exact ManagerPc.noConfusion
  have hnone : ∀ c th, s.tasks c ≠ some th := fun c th hth =>
    (h.owns c th hth).false hpc id
  exact { h with
    owns := fun c th hth => absurd hth (hnone c th)
    statusCall := fun k hk => by
      obtain ⟨_, th, hth, -⟩ := h.statusCall k hk
      exact absurd hth (hnone _ th)
    size := fun b hb => by cases hb; exact hsize
    buffered := fun _ => ⟨buffer, rfl⟩
    gone := fun hg => absurd hg (h.no_main hpc')
    managerCall := fun k hk => absurd hk (hfree k)
    mainCall := fun k hk => absurd hk (h.idle_main hpc' k)
    closed := fun hm =>
      { h.closed hm with
        up := fun _ hr => hr.elim (fun hsh => by cases hsh) fun hth =>
          absurd hth.choose_spec.1 (hnone _ hth.choose) }
    finished := fun hf => absurd hf (h.unfinished hpc') }

/-- `StatusScreen::_run`. -/
theorem Inv.status (h : Inv cfg s) (hfree : ∀ k, ¬ CallOf s.display (.content .status) k)
    (hs : s.statusStep cfg = some s') : Inv cfg s' := by
  simp only [State.statusStep] at hs
  split at hs
  · cases hs
  · rename_i th hth
    split at hs
    · rename_i hrun
      split at hs
      · cases hs
        exact h.setTask _ hth (fun _ k hk => absurd hk (hfree k)) fun _ hp => by cases hp
      · obtain ⟨b, hb, hs⟩ := Option.bind_eq_some_iff.1 hs
        exact h.call hs (fun _ _ => rfl) (fun _ => ⟨⟨b, hb, rfl⟩, th, hth, hrun⟩)
          (fun ht => by cases ht) fun ht => by cases ht
    · rename_i r hpainted
      cases hs
      have hmoved := h.setTask { th with pc := .shown } hth
        (fun _ k hk => absurd hk (hfree k)) fun _ hp => by cases hp
      refine { hmoved with closed := fun hm => { hmoved.closed hm with up := fun hc hr => ?_ } }
      -- `shown_` takes the result that was remembered
      refine (h.closed hm).up hc ?_
      obtain hshown | ⟨th', hth', hp⟩ := hr
      · exact .inr ⟨th, hth, hpainted.trans (congrArg _ hshown)⟩
      · have hself : Function.update s.tasks .status (some { th with pc := .shown }) .status =
            some th' := hth'
        rw [Function.update_self] at hself
        cases hself
        cases hp
    · split at hs
      · cases hs
        exact h.setTask _ hth (fun _ k hk => absurd hk (hfree k)) fun _ hp => by cases hp
      · cases hs
    · cases hs

/-- The shutdown is requested. -/
theorem Inv.request (h : Inv cfg s) (hm : s.mainPc = .running) (hp : s.NothingPending)
    (hu : s.StatusUp)
    (hs : State.onDisplay cfg { s with mainPc := .requested } .requestShutdown = some s') :
    Inv cfg s' := by
  obtain ⟨d, hd, rfl⟩ := Option.map_eq_some_iff.1 hs
  have hrec := recorded_step h.recorded (by simp) hd
  cases hd
  have hno : ∀ k, ¬ CallOf s.display .main k := fun k hk => by
    have := (h.mainCall k hk).gone
    rw [hm] at this
    exact this
  refine { h with
    recorded := hrec
    down := ⟨fun _ hpc => (by cases hpc), fun _ => rfl⟩
    gone := fun hg => hg.elim
    mainCall := fun k hk => absurd hk (hno k)
    closed := fun _ => ⟨fun t c hq _ => hp.1 t c hq, fun a ha _ => hp.2 a ha, fun hc hr => ?_⟩
    after := ?_
    finished := fun hf => by cases hf }
  · obtain ⟨hshow, hidle⟩ := hu hc hr
    exact ⟨hshow, fun a ha _ => hidle a ha⟩
  · refine h.after.imp_right fun ⟨hbegun, _⟩ => ?_
    obtain hf | hf | ⟨a, ha, ht, -⟩ := hbegun
    · rw [hm] at hf; cases hf
    · rw [hm] at hf; cases hf
    · exact absurd (.inr ⟨a, ha, ht, rfl⟩) (hno a.kind)

/-- `main` goes on, in no call. -/
theorem Inv.moveMain (h : Inv cfg s) (pc : MainPc) (hm : s.mainPc ≠ .running)
    (hpc : pc ≠ .running) (hfree : ∀ k, ¬ CallOf s.display .main k)
    (hgone : ManagerGone pc → s.managerPc = .exited) (hnf : s.mainPc ≠ .finished)
    (hnt : s.mainPc ≠ .terminated) (hfin : pc ≠ .finished) : Inv cfg { s with mainPc := pc } :=
  { h with
    down := ⟨fun _ => hpc, fun _ => h.down.2 hm⟩
    gone := hgone
    mainCall := fun k hk => absurd hk (hfree k)
    closed := fun _ => { h.closed hm with }
    after := h.after.imp_right fun ⟨hbegun, hk⟩ =>
      ⟨.inr (.inr ((hbegun.resolve_left hnf).resolve_left hnt)), hk⟩
    finished := fun hf => absurd hf hfin }

/-- `finishForShutdown` trusts `shown_`. -/
theorem Inv.finish (h : Inv cfg s) (hm : s.mainPc = .final) (hst : s.state = .status)
    (hshown : s.shown = true ∨ s.buffer = none) (hfree : ∀ k, ¬ CallOf s.display .main k) :
    Inv cfg { s with mainPc := .finished } := by
  have hrun : s.mainPc ≠ .running := by rw [hm]; exact MainPc.noConfusion
  have hcur : s.StatusCurrent := by
    rw [State.StatusCurrent, h.gone (by rw [hm]; trivial)]
    exact hst
  have hremembered : s.Remembered := by
    obtain hshown | hnone := hshown
    · exact .inl hshown
    · obtain ⟨b, hb⟩ := h.buffered (.inl hst)
      rw [hnone] at hb
      cases hb
  obtain ⟨hshow, hidle⟩ := (h.closed hrun).up hcur hremembered
  exact { h with
    down := ⟨fun _ hpc => (by cases hpc), fun _ => h.down.2 hrun⟩
    gone := fun _ => h.gone (by rw [hm]; trivial)
    mainCall := fun k hk => absurd hk (hfree k)
    closed := fun _ => { h.closed hrun with }
    after := h.after.imp_right fun hbegun => ⟨.inl rfl, hbegun.2⟩
    finished := fun _ =>
      ⟨⟨fun _ => hshow, fun hne => absurd hst hne⟩,
        fun a ha => hidle a ha fun ht => hfree a.kind (.inr ⟨a, ha, ht, rfl⟩)⟩ }

theorem Inv.main (h : Inv cfg s) (hG : Orderly s .main)
    (hfree : ∀ k, ¬ CallOf s.display .main k) (hs : s.main cfg = some s') : Inv cfg s' := by
  simp only [State.main] at hs
  split at hs
  · rename_i hm
    exact h.request hm (hG.pending rfl hm) (hG.up rfl hm) hs
  · rename_i hm
    have hmoved := h.moveMain .joiningManager (by simp [hm]) (by simp) hfree
      (fun hg => hg.elim) (by simp [hm]) (by simp [hm]) (by simp)
    exact (hmoved.setOther true _ _ _).requestStop hs
  · rename_i hm
    split at hs
    · rename_i hexit
      cases hs
      exact h.moveMain _ (by simp [hm]) (by simp) hfree (fun _ => hexit) (by simp [hm])
        (by simp [hm]) (by simp)
    · cases hs
  · rename_i hm
    cases hs
    have hmoved := h.moveMain .joiningClearer (by simp [hm]) (by simp) hfree
      (fun _ => h.gone (by rw [hm]; trivial)) (by simp [hm]) (by simp [hm]) (by simp)
    exact hmoved.setOther _ _ true _
  · rename_i hm
    split at hs
    · cases hs
      exact h.moveMain _ (by simp [hm]) (by simp) hfree (fun _ => h.gone (by rw [hm]; trivial))
        (by simp [hm]) (by simp [hm]) (by simp)
    · cases hs
  · rename_i hm
    split at hs
    · rename_i hst
      split at hs
      · rename_i b hshown hbuf
        have hmoved := h.moveMain .painting (by simp [hm]) (by simp) hfree
          (fun _ => h.gone (by rw [hm]; trivial)) (by simp [hm]) (by simp [hm]) (by simp)
        exact hmoved.call hs (fun _ hne => absurd rfl hne) (fun ht => by cases ht)
          (fun ht => by cases ht) fun _ => .inl ⟨rfl, hst, b, hbuf, rfl⟩
      · rename_i hcase
        cases hs
        refine h.finish hm hst ?_ hfree
        cases hsh : s.shown with
        | true => exact .inl rfl
        | false =>
          cases hb : s.buffer with
          | none => exact .inr rfl
          | some b => exact absurd hb (hcase b hsh)
    · rename_i hst
      have hmoved := h.moveMain .clearing (by simp [hm]) (by simp) hfree
        (fun _ => h.gone (by rw [hm]; trivial)) (by simp [hm]) (by simp [hm]) (by simp)
      exact hmoved.call hs (fun _ hne => absurd rfl hne) (fun ht => by cases ht)
        (fun ht => by cases ht) fun _ => .inr ⟨rfl, hst, rfl⟩
  · cases hs

theorem Inv.clearer (h : Inv cfg s) (hclear : s.mainPc ≠ .running → s.clearerPc ≠ .clearing)
    (hs : s.clearer cfg = some s') : Inv cfg s' := by
  simp only [State.clearer] at hs
  split at hs
  · cases hs
    exact h.setOther _ _ _ _
  · rename_i hpc
    exact h.call hs (fun hm => absurd hpc (hclear hm)) (fun ht => by cases ht) (fun ht => by cases ht)
      fun ht => by cases ht
  · cases hs

theorem Inv.created (cfg : Config β) (now : Nat) :
    Inv cfg { display := DisplayManager.created cfg now } := by
  have hno : ∀ {p : Active Thread β → Prop} (a : Active Thread β),
      (DisplayManager.created cfg now : DisplayManager.State Thread β).active = some a → p a :=
    fun a ha => by cases ha
  have hcall : ∀ t k, ¬ CallOf (DisplayManager.created cfg now) t k := by
    rintro t k (⟨stop, hq⟩ | ⟨a, ha, -⟩)
    · cases hq
    · cases ha
  exact ⟨hno, hno,
    (DisplayManager.Recorded.inductive_inv cfg).init _ (DisplayManager.created_init cfg now),
    fun c th hth => (by cases hth), fun k hk => absurd hk (hcall _ k), fun b hb => (by cases hb),
    fun hb => (by rcases hb with hb | hb <;> cases hb), ⟨fun hd => (by cases hd), fun hm => absurd rfl hm⟩,
    fun hg => hg.elim, fun k hk => absurd hk (hcall _ k), fun k hk => absurd hk (hcall _ k), hno,
    fun hm => absurd rfl hm, .inl rfl, fun hf => (by cases hf)⟩

theorem inductive_inv (hw : cfg.mockDisplay = false) :
    (machine cfg).Inductive Orderly (Inv cfg) where
  init := by
    rintro s ⟨now, rfl⟩
    exact Inv.created cfg now
  step s act s' h hG hs := by
    have hrunning : ∀ {p : Prop}, (s.mainPc ≠ .running → ¬ p) → p → s.mainPc = .running :=
      fun hne hp => by_contra fun hm => hne hm hp
    cases act with
    | display act => exact h.display hw hG hs
    | boot =>
      simp only [machine, step] at hs
      split at hs
      · cases hs
      · rename_i hpc
        simp only [not_or, ne_eq, not_not] at hpc
        obtain ⟨hcall, hpc⟩ := hpc
        have hm : s.mainPc = .running := hrunning (fun hm hne => (hG.noClear hm).1 hne) rfl
        have hmoved := h.move .bootPaint (by simp [hpc]) (not_callOf hcall)
          (fun c th hth => (h.owns c th hth).move hpc id)
          (statusCurrent_of_move hpc id)
        exact hmoved.callManager hm (by simp) hs
    | bootPaint buffer source =>
      simp only [machine, step] at hs
      split at hs
      · cases hs
      · rename_i hpc
        simp only [not_or, ne_eq, not_not] at hpc
        obtain ⟨hcall, hpc⟩ := hpc
        have hmoved := h.move .bootPainting (by simp [hpc]) (not_callOf hcall)
          (fun c th hth => (h.owns c th hth).move hpc id)
          (statusCurrent_of_move hpc id)
        exact hmoved.call hs (fun _ _ => rfl) (fun ht => by cases ht) (fun _ t => by simp)
          fun ht => by cases ht
    | switchTo t =>
      simp only [machine, step] at hs
      split at hs
      · cases hs
      · rename_i hpc
        simp only [not_or, ne_eq, not_not] at hpc
        obtain ⟨hcall, hpc, -⟩ := hpc
        cases hs
        refine h.move _ (by simp [hpc]) (not_callOf hcall) (fun c th hth => ?_) fun hc => hc.elim
        exact (h.owns c th hth).move hpc id
    | manager =>
      simp only [machine, step] at hs
      split at hs
      · cases hs
      · rename_i hcall
        exact h.manager (not_callOf hcall) hs
    | clear =>
      simp only [machine, step] at hs
      split at hs
      · rename_i t hpc
        split at hs
        · cases hs
        · rename_i hguard
          simp only [not_or] at hguard
          have hm : s.mainPc = .running := hrunning (fun hm hne => (hG.noClear hm).2.1 hne) rfl
          have hmoved := h.move (.switching t .set) (by simp [hpc]) (not_callOf hguard.1)
            (fun c th hth => ((h.owns c th hth).false hpc id).elim)
            fun hc => hc.elim
          exact hmoved.callManager hm (by simp) hs
      · cases hs
    | set buffer source =>
      simp only [machine, step] at hs
      split at hs
      · cases hs
      · rename_i hpc
        simp only [not_or, ne_eq, not_not] at hpc
        obtain ⟨hcall, hpc, hsize⟩ := hpc
        cases hs
        exact h.set hpc hsize (not_callOf hcall)
    | managerThrows =>
      have hm : s.mainPc = .running := hrunning (fun hm hne => (hG.noThrow hm).1 hne) rfl
      simp only [machine, step] at hs
      split at hs
      · rename_i t hpc
        split at hs
        · cases hs
        · rename_i hcall
          cases hs
          exact h.managerCaught hm (not_callOf hcall) fun c hc => (hc.false hpc id).elim
      · rename_i t hpc
        split at hs
        · cases hs
        · rename_i hcall
          cases hs
          exact h.managerCaught hm (not_callOf hcall) fun c hc => (hc.false hpc id).elim
      · cases hs
    | paint c buffer source policy =>
      simp only [machine, step] at hs
      split at hs
      · cases hs
      · split at hs
        · cases hs
        · rename_i hpc
          simp only [not_or] at hpc
          exact h.call hs (fun _ _ => rfl)
            (fun ht => by cases ht; exact absurd rfl hpc.2.1) (fun ht => by cases ht)
            fun ht => by cases ht
    | status =>
      simp only [machine, step] at hs
      split at hs
      · cases hs
      · rename_i hcall
        exact h.status (not_callOf hcall) hs
    | exit c =>
      simp only [machine, step] at hs
      split at hs
      · cases hs
      · rename_i th hth
        split at hs
        · cases hs
        · rename_i hpc
          simp only [not_or] at hpc
          cases hs
          refine h.setTask _ hth (fun hc k hk => ?_) fun _ hp => by cases hp
          subst hc
          exact absurd hk (not_callOf hpc.1 k)
    | clearer =>
      simp only [machine, step] at hs
      split at hs
      · cases hs
      · exact h.clearer (fun hm => (hG.noClear hm).2.2 rfl) hs
    | main =>
      simp only [machine, step] at hs
      split at hs
      · cases hs
      · rename_i hcall
        exact h.main hG (not_callOf hcall) hs

end Shutdown

open Shutdown

/-- When the shutdown sequence has finished, the panel shows the status screen if the state is
`Status` and is white otherwise, and the final refresh of `main` is the only one started behind
`requestShutdown`, in every run whose steps are all orderly. -/
theorem shutdown_picture (cfg : Config β) (hw : cfg.mockDisplay = false) {s : State β}
    (h : (machine cfg).ReachableBy Orderly s) :
    (s.mainPc = .finished → s.RightPicture) ∧
      (s.after = [] ∨ ∃ k : Kind β, s.after = [k] ∧
        (k = .clearForShutdown ∨ ∃ b src, k = .paintForShutdown b src)) :=
  have hinv := (inductive_inv hw).of_reachable h
  ⟨fun hf => (hinv.finished hf).1, hinv.after.imp_right (·.2)⟩

/-! ## Checking a run -/

instance (p : Thread → Prop) [DecidablePred p] : Decidable (∀ t, p t) :=
  decidable_of_iff
    (p .manager ∧ p .clearer ∧ p .main ∧ p (.content .slideshow) ∧ p (.content .nightBlank) ∧
      p (.content .registration) ∧ p (.content .apSetup) ∧ p (.content .status))
    ⟨fun ⟨manager, clearer, main, slideshow, nightBlank, registration, apSetup, status⟩ t =>
      match t with
      | .manager => manager
      | .clearer => clearer
      | .main => main
      | .content .slideshow => slideshow
      | .content .nightBlank => nightBlank
      | .content .registration => registration
      | .content .apSetup => apSetup
      | .content .status => status,
    fun h => ⟨h _, h _, h _, h _, h _, h _, h _, h _⟩⟩

instance (s : State β) : Decidable s.NothingPending :=
  inferInstanceAs (Decidable ((∀ t, ∀ c ∈ s.display.queued t, c.1.displays = true) ∧
    ∀ a ∈ s.display.active, a.pc.begun = true ∨ (a.kind.displays = true ∧ a.pc.waits = true)))

instance (s : State β) : Decidable s.StatusCurrent := by
  unfold State.StatusCurrent
  split <;> infer_instance

instance (s : State β) : Decidable s.Remembered :=
  inferInstanceAs (Decidable (s.shown = true ∨ ∃ th ∈ s.tasks .status, th.pc = .painted true))

instance [DecidableEq β] (s : State β) : Decidable s.ShowsStatus :=
  inferInstanceAs (Decidable (∃ b ∈ s.buffer, s.display.panel = some (.image b s.source)))

instance [DecidableEq β] (s : State β) : Decidable s.StatusUp :=
  inferInstanceAs (Decidable (_ → _ → _ ∧ ∀ a ∈ s.display.active, a.pc.refreshes = false))

instance [DecidableEq β] (s : State β) (act : Act β) : Decidable (Orderly s act) :=
  decidable_of_iff
    (act.accepts = true ∧
      (act = .display .throws → DisplayManager.Recorded.Recording Thread β s.display .throws) ∧
      (act = .main → s.mainPc = .running → s.NothingPending ∧ s.StatusUp) ∧
      (s.mainPc ≠ .running →
        (act ≠ .boot ∧ act ≠ .clear ∧ (act = .clearer → s.clearerPc ≠ .clearing)) ∧
        act ≠ .managerThrows ∧
        (act.callThrows = true → ∀ a ∈ s.display.active, a.thread ≠ .manager)))
    ⟨fun ⟨accepts, records, request, behind⟩ =>
      ⟨accepts, records, fun ha hm => (request ha hm).1, fun ha hm => (request ha hm).2,
        fun hm => (behind hm).1, fun hm => (behind hm).2⟩,
    fun h => ⟨h.accepts, h.records, fun ha hm => ⟨h.pending ha hm, h.up ha hm⟩,
      fun hm => ⟨h.noClear hm, h.noThrow hm⟩⟩⟩

/-- A refresh that the panel accepts, from its power-on to the return of its call. -/
def refreshSteps : List (Act Nat) :=
  ([.display (.power .ready true), .display (.refreshed true)] : List (Act Nat))
    ++ (List.replicate 13 (.display .next) : List (Act Nat))

/-- The panel is booted. -/
def bootSteps : List (Act Nat) :=
  ([.boot, .display (.acquire .manager), .display (.power .ready true),
      .display (.power .ready true), .display (.refreshed true)] : List (Act Nat))
    ++ (List.replicate 12 (.display .next) : List (Act Nat))
    ++ ([.display (.tick (5 * second)), .display .next, .display .next,
      .bootPaint BUFFER_SIZE "logo.jpg", .display (.acquire .manager), .display .next,
      .display .next] : List (Act Nat))
    ++ refreshSteps

/-- The task manager switches to the status screen, which is painted. -/
def statusSteps : List (Act Nat) :=
  ([.switchTo .status, .manager, .manager, .set BUFFER_SIZE "status:reboot", .manager, .manager,
      .status, .display (.acquire (.content .status)), .display .next, .display .next,
      .display (.tick (120 * second)), .display .next, .display .next,
      .display .next] : List (Act Nat))
    ++ refreshSteps ++ ([.status] : List (Act Nat))

/-- The shutdown sequence behind its request. -/
def endSteps : List (Act Nat) :=
  [.main, .manager, .manager, .status, .manager, .main, .main, .clearer, .main, .main]

/-- The process before its first step. -/
def fresh : State Nat := { display := DisplayManager.created (DisplayManager.panelConfig false) 0 }

theorem fresh_init : (machine (DisplayManager.panelConfig false)).Init fresh := ⟨0, rfl⟩

/-- The status screen of a reboot stays up. -/
theorem shutdown_picture_status :
    ∃ s, (machine (DisplayManager.panelConfig false)).run fresh
        (bootSteps ++ statusSteps ++ .main :: endSteps) = some s ∧
      s.mainPc = .finished ∧ s.state = .status ∧ s.RightPicture := by
  refine ⟨_, rfl, rfl, rfl, ?_⟩
  have hr := Transition.Machine.ReachableBy.run (G := Orderly)
    (bootSteps ++ statusSteps ++ .main :: endSteps) (.init fresh_init) (by decide +kernel) rfl
  exact (shutdown_picture (DisplayManager.panelConfig false) rfl hr).1 rfl

/-- The daily clear waits for the interval when the shutdown is requested; the request wakes it. -/
def wokenClear : List (Act Nat) :=
  ([.clearer, .clearer, .display (.acquire .clearer), .display .next, .display .next, .main,
      .display .next, .display .next] : List (Act Nat)) ++ refreshSteps

/-- The state is `Status` and the panel is white. -/
theorem shutdown_clears_status :
    ∃ s : State Nat, (machine (DisplayManager.panelConfig false)).Reachable s ∧
      s.mainPc = .finished ∧ s.state = .status ∧ s.display.panel = some .white ∧
      s.after = [.clear] ∧ ¬ s.RightPicture := by
  refine Transition.Machine.exists_reachable_of_run (bootSteps ++ statusSteps ++ wokenClear ++ endSteps)
    fresh_init ⟨_, rfl, rfl, rfl, rfl, rfl, fun h => ?_⟩
  obtain ⟨b, -, hshow⟩ := h.1 rfl
  cases hshow

end ShareFrame.DisplayProcess
