import ShareFrame.Lib.Places
import ShareFrame.Task.DisplayTaskManager

/-!
# One content task at a time

`owner s` is the content task that may be started at the manager's program
point; `TasksInv` says that it is started and every other one is stopped, that
the started task shows what the manager remembers it shows, and that a paint
still waiting when its stop was requested goes no further. `TasksInv` is
inductive over all steps, thrown calls included (`tasksInv_inductive`).
-/

namespace ShareFrame.DisplayTaskManager

open Transition
open Places (update_eq_some)

/-- The content task that is started at this point of the manager's thread. -/
def owner (s : State) : Option Content :=
  match s.pc with
  | .switching t .store => t.content
  | .switching _ .clear => none
  | .switching _ .set => none
  | .switching _ .start => none
  | .stopped => none
  | _ => if s.down then none else s.state.content

/-- What the manager remembers a content task to show. -/
def showing (s : State) : Content → Shows
  | .slideshow => .slideshow
  | .nightBlank => .nightBlank s.shownNightEnd
  | .registration => .registration
  | .apSetup => .apSetup
  | .status => .status s.shownStatus

/-- A paint that had not passed the check when the stop was requested does not pass it. -/
def Thread.LateOk (th : Thread) : Prop :=
  th.late = true → th.stop = true ∧ th.paint ≠ .admitted ∧ th.paint ≠ .refreshing

/-- Points inside the loop of `_run`. -/
def Pc.InLoop : Pc → Prop
  | .boot | .backoff _ | .stopped | .aborted => False
  | _ => True

structure TasksInv (s : State) : Prop where
  only : ∀ c, (s.tasks c).isSome = true ↔ owner s = some c
  shows : ∀ c th, s.tasks c = some th → th.shows = showing s c
  late : ∀ c th, s.tasks c = some th → th.LateOk
  unbooted : s.booted = false → s.state = .boot ∧ s.down = false
  inLoop : s.pc.InLoop → s.booted = true
  boot : s.pc = .boot → s.booted = false
  backoff : ∀ d, s.pc = .backoff d → s.down = true ∨ s.booted = false
  target : ∀ t st, s.pc = .switching t st → t.content.isSome = true

/-- The invariant reads seven fields. -/
theorem TasksInv.congr {s s' : State} (h : TasksInv s) (h1 : s'.tasks = s.tasks) (h2 : s'.pc = s.pc)
    (h3 : s'.state = s.state) (h4 : s'.down = s.down) (h5 : s'.booted = s.booted)
    (h6 : s'.shownStatus = s.shownStatus) (h7 : s'.shownNightEnd = s.shownNightEnd) :
    TasksInv s' := by
  have ho : owner s' = owner s := by simp only [owner, h2, h3, h4]
  have hsh : showing s' = showing s := by funext c; cases c <;> simp only [showing, h6, h7]
  constructor
  · rw [h1, ho]; exact h.only
  · rw [h1, hsh]; exact h.shows
  · rw [h1]; exact h.late
  · rw [h3, h4, h5]; exact h.unbooted
  · rw [h2, h5]; exact h.inLoop
  · rw [h2, h5]; exact h.boot
  · rw [h2, h4, h5]; exact h.backoff
  · rw [h2]; exact h.target

theorem tasksInv_init {cfg : Config} {s : State} (h : (machine cfg).Init s) : TasksInv s := by
  obtain ⟨now, night, active, rfl⟩ := h
  constructor
  · intro c; simp [owner, DisplayState.content]
  · intro c th hc; cases hc
  · intro c th hc; cases hc
  · exact fun _ => ⟨rfl, rfl⟩
  · exact fun h => h.elim
  · exact fun _ => rfl
  · intro d hd; cases hd
  · intro t st ht; cases ht

/-- Two content tasks are never started at the same time. -/
theorem TasksInv.unique {s : State} (h : TasksInv s) {c c' : Content}
    (hc : (s.tasks c).isSome = true) (hc' : (s.tasks c').isSome = true) : c = c' :=
  Option.some.inj (((h.only c).mp hc).symm.trans ((h.only c').mp hc'))

theorem TasksInv.none_of_owner {s : State} (h : TasksInv s) (ho : owner s = none) (c : Content) :
    s.tasks c = none := by
  cases hc : s.tasks c with
  | none => rfl
  | some th =>
    have := (h.only c).mp (by rw [hc]; rfl)
    rw [ho] at this; cases this

/-- With no task started only the owner and the program point matter. -/
theorem tasksInv_of_none {s : State} (hn : ∀ c, s.tasks c = none) (ho : owner s = none)
    (hu : s.booted = false → s.state = .boot ∧ s.down = false)
    (hl : s.pc.InLoop → s.booted = true) (hb : s.pc = .boot → s.booted = false)
    (hbo : ∀ d, s.pc = .backoff d → s.down = true ∨ s.booted = false)
    (ht : ∀ t st, s.pc = .switching t st → t.content.isSome = true) : TasksInv s where
  only c := by simp [hn, ho]
  shows c th hc := by rw [hn] at hc; cases hc
  late c th hc := by rw [hn] at hc; cases hc
  unbooted := hu
  inLoop := hl
  boot := hb
  backoff := hbo
  target := ht

/-! ## Points at which the task of the current state is the started one -/

def Pc.AtHome : Pc → Prop
  | .loop | .waiting _ _ | .apply | .switching _ .stop | .switching _ .join | .leaving _ => True
  | _ => False

theorem owner_atHome {s : State} (h : s.pc.AtHome) :
    owner s = if s.down then none else s.state.content := by
  unfold owner
  cases hp : s.pc with
  | switching t st => cases st <;> simp_all [Pc.AtHome]
  | _ => simp_all [Pc.AtHome]

theorem Pc.AtHome.inLoop {pc : Pc} (h : pc.AtHome) : pc.InLoop := by
  cases pc <;> simp_all [Pc.AtHome, Pc.InLoop]

/-- Moving between such points keeps the invariant. -/
theorem TasksInv.goHome {s : State} (h : TasksInv s) (hp : s.pc.AtHome) (pc : Pc)
    (hp' : pc.AtHome) (ht : ∀ t st, pc = .switching t st → t.content.isSome = true) :
    TasksInv { s with pc } where
  only := by
    rw [owner_atHome (s := { s with pc }) hp']
    intro c
    rw [h.only c, owner_atHome hp]
  shows := h.shows
  late := h.late
  unbooted := h.unbooted
  inLoop _ := h.inLoop hp.inLoop
  boot := by rintro rfl; exact hp'.elim
  backoff := by rintro d rfl; exact hp'.elim
  target := ht

theorem target_content (snap : Snapshot) (night : Bool) :
    (target snap night).content.isSome = true := by
  unfold target; split_ifs <;> rfl

/-! ## Steps of the manager's thread -/

/-- If the task of the current state is not joinable at a home point, nothing is started. -/
theorem TasksInv.none_of_notJoinable {s : State} (h : TasksInv s) (hp : s.pc.AtHome)
    (hc : ∀ c, s.state.content = some c → s.tasks c = none) : ∀ c, s.tasks c = none := by
  refine h.none_of_owner ?_
  rw [owner_atHome hp]
  split_ifs with ht
  · rfl
  · cases hst : s.state.content with
    | none => rfl
    | some c =>
      have hs := (h.only c).mpr (by rw [owner_atHome hp, if_neg ht, hst])
      rw [hc c hst] at hs; cases hs

/-- The points right behind a stop: nothing is started. -/
def Pc.Cleared : Pc → Prop
  | .switching _ .clear | .switching _ .set | .switching _ .start | .stopped => True
  | _ => False

theorem owner_cleared {s : State} (h : s.pc.Cleared) : owner s = none := by
  unfold owner
  cases hp : s.pc with
  | switching t st => cases st <;> simp_all [Pc.Cleared]
  | _ => simp_all [Pc.Cleared]

theorem TasksInv.goCleared {s : State} (h : TasksInv s) (hn : ∀ c, s.tasks c = none)
    (hb : s.booted = true) {pc : Pc} (hp : pc.Cleared)
    (ht : ∀ t st, pc = .switching t st → t.content.isSome = true) : TasksInv { s with pc } :=
  tasksInv_of_none hn (owner_cleared (s := { s with pc }) hp) h.unbooted (fun _ => hb)
    (by rintro rfl; exact hp.elim) (by rintro d rfl; exact hp.elim) ht

/-- Replacing the thread of a started task. -/
theorem TasksInv.update {s : State} (h : TasksInv s) {c : Content} {th : Thread}
    (hc : s.tasks c = some th) (th' : Thread) (hsh : th'.shows = th.shows) (hl : th'.LateOk) :
    TasksInv { s with tasks := Function.update s.tasks c (some th') } where
  only := by
    intro d
    change (Function.update s.tasks c (some th') d).isSome = true ↔ owner s = some d
    rw [← h.only d]
    by_cases hd : d = c
    · subst hd; simp [hc]
    · rw [Function.update_of_ne hd]
  shows d t hd := by
    obtain ⟨rfl, rfl⟩ | ⟨-, hd⟩ := update_eq_some hd
    · rw [hsh]; exact h.shows d th hc
    · exact h.shows d t hd
  late d t hd := by
    obtain ⟨rfl, rfl⟩ | ⟨-, hd⟩ := update_eq_some hd
    · exact hl
    · exact h.late d t hd
  unbooted := h.unbooted
  inLoop := h.inLoop
  boot := h.boot
  backoff := h.backoff
  target := h.target

theorem tasksInv_requestStopOf {s : State} (h : TasksInv s) (hp : s.pc.AtHome) {p q : Pc}
    (hcl : p.Cleared) (hhome : q.AtHome)
    (htp : ∀ t st, p = .switching t st → t.content.isSome = true)
    (htq : ∀ t st, q = .switching t st → t.content.isSome = true) :
    TasksInv (requestStopOf s p q) := by
  have hb := h.inLoop hp.inLoop
  unfold requestStopOf
  cases hst : s.state.content with
  | none =>
    refine h.goCleared (h.none_of_notJoinable hp fun c hc => ?_) hb hcl htp
    rw [hst] at hc; cases hc
  | some c =>
    cases hc : s.tasks c with
    | none =>
      simp only [hc]
      refine h.goCleared (h.none_of_notJoinable hp fun d hd => ?_) hb hcl htp
      rw [hst, Option.some.injEq] at hd
      exact hd ▸ hc
    | some th =>
      simp only [hc]
      -- a paint that passed its check may still refresh: it is not late
      exact (h.update hc { th with stop := true, late := _ } rfl
        fun hl => ⟨rfl, of_decide_eq_true hl⟩).goHome hp _ hhome htq

theorem tasksInv_joinOf {s s' : State} (h : TasksInv s) (hp : s.pc.AtHome) {q : Pc}
    (hcl : q.Cleared) (ht : ∀ t st, q = .switching t st → t.content.isSome = true)
    (hs : joinOf s q = some s') : TasksInv s' := by
  have hb := h.inLoop hp.inLoop
  unfold joinOf at hs
  cases hst : s.state.content with
  | none => simp [hst] at hs
  | some c =>
    cases hc : s.tasks c with
    | none => simp [hst, hc] at hs
    | some th =>
      simp only [hst, hc] at hs
      split at hs
      · cases hs
        have hn : ∀ d, Function.update s.tasks c none d = none := by
          intro d
          by_cases hd : d = c
          · subst hd; simp
          · rw [Function.update_of_ne hd]
            cases hd' : s.tasks d with
            | none => rfl
            | some t => exact absurd (h.unique (by rw [hd']; rfl) (by rw [hc]; rfl)) hd
        exact tasksInv_of_none hn (owner_cleared (s := { s with tasks := _, pc := q }) hcl) h.unbooted
          (fun _ => hb) (by rintro rfl; exact hcl.elim) (by rintro d rfl; exact hcl.elim) ht
      · cases hs

theorem tasksInv_decideSwitch {cfg : Config} {s : State} (h : TasksInv s) (hp : s.pc = .apply) :
    TasksInv (decideSwitch cfg s) := by
  have hhome : s.pc.AtHome := by rw [hp]; trivial
  simp only [decideSwitch]
  split
  · exact (h.goHome hhome .loop trivial (by intro t st ht; cases ht)).congr
      rfl rfl rfl rfl rfl rfl rfl
  · refine (h.goHome hhome (.switching (wanted cfg s) .stop) trivial ?_).congr
      rfl rfl rfl rfl rfl rfl rfl
    intro t st ht
    cases ht
    exact target_content _ _

theorem tasksInv_setContent {s : State} (h : TasksInv s) {t : DisplayState}
    (hp : s.pc = .switching t .set) : TasksInv { setContent s t with pc := .switching t .start } := by
  have hn := h.none_of_owner (owner_cleared (by rw [hp]; trivial))
  have hb : s.booted = true := h.inLoop (by rw [hp]; trivial)
  have ht := h.target t _ hp
  have hset : ∀ c, (setContent s t).tasks c = none := by
    cases t <;> exact hn
  refine tasksInv_of_none hset rfl ?_ ?_ (by intro hb'; cases hb') (by intro d hd; cases hd) ?_
  · cases t <;> exact h.unbooted
  · cases t <;> exact fun _ => hb
  · intro t' st h'; cases h'; exact ht

theorem tasksInv_startContent {s : State} (h : TasksInv s) {t : DisplayState}
    (hp : s.pc = .switching t .start) :
    TasksInv { startContent s t with pc := .switching t .store } := by
  have hn := h.none_of_owner (owner_cleared (by rw [hp]; trivial))
  have hb : s.booted = true := h.inLoop (by rw [hp]; trivial)
  have ht := h.target t _ hp
  obtain ⟨c, hc⟩ := Option.isSome_iff_exists.mp ht
  have hupd : ∀ {th d t'}, Function.update s.tasks c (some th) d = some t' → d = c ∧ t' = th := by
    intro th d t' hd
    obtain hd | ⟨-, hd⟩ := update_eq_some hd
    · exact hd
    · rw [hn] at hd; cases hd
  simp only [startContent, hc]
  constructor
  · intro d
    change (Function.update s.tasks c _ d).isSome = true ↔ t.content = some d
    rw [hc]
    by_cases hdc : d = c
    · subst hdc; simp
    · rw [Function.update_of_ne hdc, hn]
      simp [Ne.symm hdc]
  · intro d th hd
    obtain ⟨rfl, rfl⟩ := hupd hd
    cases t <;> simp [DisplayState.content] at hc <;> subst hc <;> rfl
  · intro d th hd
    obtain ⟨rfl, rfl⟩ := hupd hd
    intro hl; cases hl
  · exact h.unbooted
  · exact fun _ => hb
  · intro hb'; cases hb'
  · intro d hd; cases hd
  · intro t' st h'; cases h'; exact ht

theorem tasksInv_manager {cfg : Config} {s s' : State} (h : TasksInv s)
    (hs : manager cfg s = some s') : TasksInv s' := by
  unfold manager at hs
  split at hs
  next hp => -- boot: nothing is started yet
    obtain ⟨hst, hth⟩ := h.unbooted (h.boot hp)
    have hn := h.none_of_owner (by simp [owner, hp, hst, hth, DisplayState.content])
    cases hs
    exact tasksInv_of_none hn (by simp [owner, hst, hth, DisplayState.content])
      (by intro hb; cases hb) (fun _ => rfl) (by intro hb; cases hb) (by intro d hd; cases hd)
      (by intro t st ht; cases ht)
  next hp =>
    have hhome : s.pc.AtHome := by rw [hp]; trivial
    split at hs <;> cases hs <;>
      exact h.goHome hhome _ trivial (by intro t st ht; cases ht)
  next w t0 hp =>
    have hhome : s.pc.AtHome := by rw [hp]; trivial
    split at hs
    · cases hs
      exact h.goHome hhome _ trivial (by intro t st ht; cases ht)
    · split at hs
      · cases hs
        exact (h.goHome hhome .apply trivial (by intro t st ht; cases ht)).congr
          rfl rfl rfl rfl rfl rfl rfl
      · cases hs
  next hp => cases hs; exact tasksInv_decideSwitch h hp
  next t hp =>
    have ht := h.target t _ hp
    cases hs
    exact tasksInv_requestStopOf h (by rw [hp]; trivial) trivial trivial
      (by intro t' st h'; cases h'; exact ht) (by intro t' st h'; cases h'; exact ht)
  next t hp =>
    have ht := h.target t _ hp
    exact tasksInv_joinOf (q := .switching t .clear) h (by rw [hp]; trivial) trivial
      (by intro t' st h'; cases h'; exact ht) hs
  next t hp =>
    have ht := h.target t _ hp
    cases hs
    exact h.goCleared (h.none_of_owner (owner_cleared (by rw [hp]; trivial)))
      (h.inLoop (by rw [hp]; trivial)) trivial (by intro t' st h'; cases h'; exact ht)
  next t hp => cases hs; exact tasksInv_setContent h hp
  next t hp => cases hs; exact tasksInv_startContent h hp
  next t hp =>
    have hb : s.booted = true := h.inLoop (by rw [hp]; trivial)
    have ho : owner s = t.content := by simp [owner, hp]
    cases hs
    refine ⟨?_, h.shows, h.late, ?_, fun _ => hb, ?_, ?_, ?_⟩
    · intro c; rw [h.only c, ho]; simp [owner]
    · intro hb'; rw [hb] at hb'; cases hb'
    · intro hb'; cases hb'
    · intro d hd; cases hd
    · intro t' st h'; cases h'
  next hp =>
    cases hs
    exact tasksInv_requestStopOf h (by rw [hp]; trivial) trivial trivial
      (by intro t' st h'; cases h') (by intro t' st h'; cases h')
  next hp =>
    exact tasksInv_joinOf (q := .stopped) h (by rw [hp]; trivial) trivial
      (by intro t' st h'; cases h') hs
  next d hp => -- nothing is started while the restart loop waits
    have ho : owner s = none := by
      simp only [owner, hp]
      rcases h.backoff d hp with ht | hb
      · simp [ht]
      · simp [(h.unbooted hb).1, DisplayState.content]
    have hn := h.none_of_owner ho
    split at hs
    · cases hs
      exact tasksInv_of_none hn rfl h.unbooted (fun h' => h'.elim) (by intro hb; cases hb)
        (by intro d hd; cases hd) (by intro t st ht; cases ht)
    · split at hs
      · cases hs
        have hif : ∀ P : Prop, ((if s.booted = true then Pc.loop else Pc.boot) = Pc.boot → P) ↔
            (s.booted = false → P) := by
          intro P; cases s.booted <;> simp
        refine tasksInv_of_none hn ?_ h.unbooted ?_ ?_ ?_ ?_
        · simp only [owner, hp] at ho ⊢
          cases s.booted <;> exact ho
        · cases hb : s.booted
          · exact fun h' => h'.elim
          · exact fun _ => rfl
        · exact (hif _).mpr id
        · intro d' hd; cases hb : s.booted <;> simp [hb] at hd
        · intro t st ht; cases hb : s.booted <;> simp [hb] at ht
      · cases hs
  next => cases hs
  next => cases hs

/-! ## Thrown calls -/

theorem tasksInv_caught {s : State} (hn : ∀ c, s.tasks c = none)
    (hth : s.down = true ∧ s.booted = true ∨
      s.down = false ∧ s.booted = false ∧ s.state = .boot) : TasksInv (caught s) := by
  have hu : s.booted = false → s.state = .boot ∧ s.down = false := by
    rcases hth with ⟨-, hb⟩ | ⟨ht, -, hst⟩
    · intro hb'; rw [hb] at hb'; cases hb'
    · exact fun _ => ⟨hst, ht⟩
  have ho : (if s.down = true then none else s.state.content) = none := by
    rcases hth with ⟨ht, -⟩ | ⟨-, -, hst⟩
    · simp [ht]
    · simp [hst, DisplayState.content]
  unfold caught
  split
  · exact tasksInv_of_none hn rfl hu (fun h => h.elim) (by intro h; cases h)
      (by intro d h; cases h) (by intro t st h; cases h)
  · split
    · exact tasksInv_of_none hn ho hu (fun h => h.elim) (by intro h; cases h)
        (by intro d h; cases h) (by intro t st h; cases h)
    · refine tasksInv_of_none hn ho hu (fun h => h.elim) (by intro h; cases h) ?_
        (by intro t st h; cases h)
      intro d _
      rcases hth with ⟨ht, -⟩ | ⟨-, hb, -⟩
      · exact .inl ht
      · exact .inr hb

theorem tasksInv_throws {s s' : State} (h : TasksInv s) (hs : managerThrows s = some s') :
    TasksInv s' := by
  have cleared : s.pc.Cleared → ∀ c, s.tasks c = none := fun hp =>
    h.none_of_owner (owner_cleared hp)
  unfold managerThrows at hs
  split at hs
  next hp =>
    obtain ⟨hst, hth⟩ := h.unbooted (h.boot hp)
    cases hs
    exact tasksInv_caught (h.none_of_owner (by simp [owner, hp, hst, hth, DisplayState.content]))
      (.inr ⟨hth, h.boot hp, hst⟩)
  next t hp =>
    have hb : s.booted = true := h.inLoop (by rw [hp]; trivial)
    split at hs <;> cases hs
    exact tasksInv_caught (cleared (by rw [hp]; trivial)) (.inl ⟨rfl, hb⟩)
  next t hp =>
    have hb : s.booted = true := h.inLoop (by rw [hp]; trivial)
    split at hs
    · cases hs
      exact tasksInv_caught (cleared (by rw [hp]; trivial)) (.inl ⟨rfl, hb⟩)
    · split at hs <;> cases hs
      exact tasksInv_caught (cleared (by rw [hp]; trivial)) (.inl ⟨rfl, hb⟩)
  next t hp =>
    have hb : s.booted = true := h.inLoop (by rw [hp]; trivial)
    cases hs
    exact tasksInv_caught (cleared (by rw [hp]; trivial)) (.inl ⟨rfl, hb⟩)
  next => cases hs

/-! ## The other threads -/

theorem tasksInv_handler {s s' : State} {f : State → State}
    (hf : TasksInv (f s)) (hs : handler s f = some s') : TasksInv s' := by
  unfold handler at hs
  split at hs <;> cases hs
  exact hf.congr rfl rfl rfl rfl rfl rfl rfl

theorem tasksInv_paintStep {s s' : State} {c : Content} {f : Thread → Option Thread}
    (h : TasksInv s)
    (hf : ∀ th th', f th = some th' → th.LateOk → th'.shows = th.shows ∧ th'.LateOk)
    (hs : paintStep s c f = some s') : TasksInv s' := by
  unfold paintStep at hs
  cases hc : s.tasks c with
  | none => simp [hc] at hs
  | some th =>
    simp only [hc, Option.map_eq_some_iff] at hs
    obtain ⟨th', hth, rfl⟩ := hs
    obtain ⟨hsh, hl⟩ := hf th th' hth (h.late c th hc)
    exact h.update hc th' hsh hl

theorem Thread.lateOk_call {th th' : Thread} (h : th.call = some th') (_ : th.LateOk) :
    th'.shows = th.shows ∧ th'.LateOk := by
  unfold Thread.call at h
  split_ifs at h; cases h
  exact ⟨rfl, fun hl => ⟨hl, by simp, by simp⟩⟩

theorem Thread.lateOk_checkStop {shuttingDown : Bool} {th th' : Thread}
    (h : th.checkStop shuttingDown = some th') (hl : th.LateOk) :
    th'.shows = th.shows ∧ th'.LateOk := by
  unfold Thread.checkStop at h
  split at h <;> cases h
  -- a late thread was asked to stop, so the check sends it back
  refine ⟨rfl, fun hlate => ?_⟩
  have hstop : th.stop = true := (hl hlate).1
  exact ⟨hstop, by simp [hstop], by simp [hstop]⟩

theorem Thread.lateOk_move {src dst : PaintPc} {th th' : Thread} (h : th.move src dst = some th')
    (hl : th.LateOk) (hd : src = .admitted ∨ dst ≠ .admitted ∧ dst ≠ .refreshing) :
    th'.shows = th.shows ∧ th'.LateOk := by
  unfold Thread.move at h
  split_ifs at h with hp
  cases h
  refine ⟨rfl, fun hlate => ⟨(hl hlate).1, ?_⟩⟩
  rcases hd with rfl | hd
  · exact absurd hp (hl hlate).2.1
  · exact hd

theorem tasksInv_step {cfg : Config} {s s' : State} {a : Act} (h : TasksInv s)
    (hs : step cfg s a = some s') : TasksInv s' := by
  cases a with
  | tick d => cases hs; exact h.congr rfl rfl rfl rfl rfl rfl rfl
  | manager => exact tasksInv_manager h hs
  | throws => exact tasksInv_throws h hs
  | apSetupState evt =>
    exact tasksInv_handler (f := fun s => { s with latest := evt })
      (h.congr rfl rfl rfl rfl rfl rfl rfl) hs
  | statusScreen evt =>
    exact tasksInv_handler (f := fun s => { s with latestStatus := evt, statusSince := s.now })
      (h.congr rfl rfl rfl rfl rfl rfl rfl) hs
  | frameRegistration r =>
    simp only [step] at hs
    exact tasksInv_handler (h.congr rfl rfl rfl rfl rfl rfl rfl) hs
  | scheduledClear =>
    exact tasksInv_handler (f := fun s => { s with restore := true })
      (h.congr rfl rfl rfl rfl rfl rfl rfl) hs
  | storeNightMode night =>
    simp only [step] at hs
    split at hs <;> cases hs
    exact h.congr rfl rfl rfl rfl rfl rfl rfl
  | updateNightMode =>
    simp only [step] at hs
    split at hs <;> cases hs
    exact h.congr rfl rfl rfl rfl rfl rfl rfl
  | setSlideshowActive active =>
    simp only [step] at hs
    split at hs <;> cases hs
    exact h.congr rfl rfl rfl rfl rfl rfl rfl
  | requestStop => cases hs; exact h.congr rfl rfl rfl rfl rfl rfl rfl
  | requestShutdown => cases hs; exact h.congr rfl rfl rfl rfl rfl rfl rfl
  | paint c => exact tasksInv_paintStep h (fun _ _ => Thread.lateOk_call) hs
  | checkStop c => exact tasksInv_paintStep h (fun _ _ => Thread.lateOk_checkStop) hs
  | beginRefresh c =>
    exact tasksInv_paintStep h (fun _ _ hm hl => Thread.lateOk_move hm hl (.inl rfl)) hs
  | endRefresh c =>
    exact tasksInv_paintStep h (fun _ _ hm hl => Thread.lateOk_move hm hl (.inr (by simp))) hs
  | sendFails c =>
    exact tasksInv_paintStep h (fun _ _ hm hl => Thread.lateOk_move hm hl (.inl rfl)) hs
  | exit c =>
    exact tasksInv_paintStep h (fun _ _ hm hl => Thread.lateOk_move hm hl (.inr (by simp))) hs

theorem tasksInv_inductive (cfg : Config) (G : State → Act → Prop) :
    (machine cfg).Inductive G TasksInv where
  init _ h := tasksInv_init h
  step _ _ _ h _ hs := tasksInv_step h hs

end ShareFrame.DisplayTaskManager
