import ShareFrame.Task.Loop.Signals

/-!
# The daily clear

`DisplayClear` wipes the panel once a day and publishes `SCHEDULED_CLEAR` behind a
clear that left it blank; `_waitForNext` repaints the picture it waits behind. A
`Watched` state is a state of the loop with what became of the last delivery:
whether a check scheduled a repaint, found it too late, or a paint was attempted.

What a step of the wait may do is `StepLaw`. A wait that is blocked in front of a
blank panel waits for the repaint, has found the next picture due before it, or a
paint was attempted since (`daily_clear`).
-/

namespace ShareFrame.DisplayImageLoop

open Playback Transition

structure Watched (γ : Type) where
  state : State γ
  /-- *ghost*: a `SCHEDULED_CLEAR` was delivered since the panel is blank -/
  handled : Bool := false
  /-- *ghost*: since the last delivery a paint of the loop's body left the panel blank -/
  painted : Bool := false
  /-- *ghost*: since then a repaint did -/
  repainted : Bool := false
  /-- *ghost*: when a repaint would have been allowed that was found too late since then -/
  tooLate : Option Int := none
  /-- *ghost*: the state in which the coming repaint was scheduled -/
  check : Option (State γ) := none

/-- A paint was attempted. -/
def Watched.attempted {γ : Type} (w : Watched γ) : Bool := w.painted || w.repainted

namespace Pc

/-- In `_waitForNext`. -/
def In (shown : Shown) (due : Int) : Pc → Prop
  | .waitNext shown' due' | .waitReady shown' due' _ | .repainting shown' due' =>
    shown' = shown ∧ due' = due
  | _ => False

def isWaitNext : Pc → Bool
  | .waitNext _ _ => true
  | _ => false

def isWaitReady : Pc → Bool
  | .waitReady _ _ _ => true
  | _ => false

def isRepaint : Pc → Bool
  | .repainting _ _ => true
  | _ => false

/-- Behind a paint, up to the end of the first wait. -/
def behindPaint : Pc → Bool
  | .samplePainted _ _ | .sampleReset _ _ | .userPainted _ | .userReset _ | .waitNext _ _ => true
  | _ => false

end Pc

variable {γ : Type} (gen : Generator γ) (cfg : Config)

/-- When a repaint is allowed. -/
def readyAt (s : State γ) : Int := inSecs s (secondsUntilRefreshReady cfg s)

/-- What a step adds to the record. -/
def observe (w : Watched γ) (a : Act) (s' : State γ) : Watched γ :=
  let check :=
    if s'.pc.isWaitReady then if w.state.pc.isWaitReady then w.check else some w.state else none
  if !s'.isCleared then { state := s', check }
  else match a with
    | .scheduledClear => { state := s', check, handled := true }
    | .painted _ =>
      { w with
        state := s', check
        painted := w.painted || !w.state.pc.isRepaint
        repainted := w.repainted || w.state.pc.isRepaint }
    | .loop =>
      { w with
        state := s', check
        tooLate := if w.state.restoreCurrent_ && w.state.pc.isWaitNext && s'.pc.isWaitNext then
          some (readyAt cfg w.state) else w.tooLate }
    | _ => { w with state := s', check }

/-- The loop with its record. -/
def watched : Machine (Watched γ) Act where
  Init w := (machine gen cfg).Init w.state ∧ w = { state := w.state }
  step w a := (step gen cfg w.state a).map (observe cfg w a)

variable {gen cfg} {s s' : State γ} {w w' : Watched γ} {a : Act} {shown : Shown} {due : Int}

@[simp] theorem observe_state : (observe cfg w a s').state = s' := by
  simp only [observe]
  split
  · rfl
  · split <;> rfl

theorem observe_check : (observe cfg w a s').check =
    if s'.pc.isWaitReady then if w.state.pc.isWaitReady then w.check else some w.state else none := by
  simp only [observe]
  split
  · rfl
  · split <;> rfl

theorem exists_of_watched (hs : (watched gen cfg).step w a = some w') :
    step gen cfg w.state a = some w'.state ∧ w' = observe cfg w a w'.state := by
  obtain ⟨s', hstep, rfl⟩ := Option.map_eq_some_iff.mp hs
  rw [observe_state]
  exact ⟨hstep, rfl⟩

/-! ## The wait -/

/-- How the first wait ends, or goes on. -/
inductive Checked (cfg : Config) (s : State γ) (shown : Shown) (due : Int) : State γ → Prop where
  | returns {t : State γ}
    (hreason : s.stopRequested = true ∨ wake cfg s shown = true ∨ s.restoreCurrent_ = false ∧ due ≤ s.now)
    (ht : t = returnWait { s with restoreCurrent_ := false } shown) : Checked cfg s shown due t
  | continues (hrestore : s.restoreCurrent_ = true)
    (hreason : s.isCleared = false ∨ due ≤ readyAt cfg s) :
    Checked cfg s shown due { s with restoreCurrent_ := false }
  | schedules (hrestore : s.restoreCurrent_ = true) (hcleared : s.isCleared = true)
    (hready : readyAt cfg s < due) :
    Checked cfg s shown due
      { s with restoreCurrent_ := false, pc := .waitReady shown due (readyAt cfg s) }

theorem loop_waitNext (hpc : s.pc = .waitNext shown due) : loop gen cfg s =
    if s.stopRequested ∨ wake cfg s shown ∨ s.restoreCurrent_ ∨ due ≤ s.now then
      some (afterWait cfg s shown due) else none := by
  simp only [loop, hpc]

theorem loop_waitReady {t : Int} (hpc : s.pc = .waitReady shown due t) : loop gen cfg s =
    if s.stopRequested ∨ wake cfg s shown then some (returnWait s shown)
    else if t ≤ s.now then some { s with refreshing_ := true, pc := .repainting shown due }
    else none := by
  simp only [loop, hpc]

theorem checked_of_loop (hpc : s.pc = .waitNext shown due) (hs : loop gen cfg s = some s') :
    Checked cfg s shown due s' := by
  rw [loop_waitNext hpc] at hs
  obtain ⟨hends, hs⟩ := Option.ite_none_right_eq_some.mp hs
  obtain rfl := Option.some.inj hs
  simp only [afterWait]
  split
  next hreturn =>
    refine .returns ?_ rfl
    obtain hrestore | hstop | hwake := hreturn
    · obtain hstop | hwake | hset | hdue := hends
      · exact .inl hstop
      · exact .inr (.inl hwake)
      · simp [hset] at hrestore
      · exact .inr (.inr ⟨by simpa using hrestore, hdue⟩)
    · exact .inl hstop
    · exact .inr (.inl hwake)
  next hstays =>
    have hrestore : s.restoreCurrent_ = true := by
      by_contra hno
      exact hstays (.inl (by simpa using hno))
    split
    next hgoes =>
      exact .continues hrestore (hgoes.imp (fun hblank => by simpa using hblank) id)
    next hblank =>
      rw [not_or] at hblank
      exact .schedules hrestore (by simpa using hblank.1) (not_le.mp hblank.2)

/-- A step of the loop's thread outside the wait. -/
structure Outside (s s' : State γ) : Prop where
  restore : s'.restoreCurrent_ = s.restoreCurrent_
  cleared : s'.isCleared = s.isCleared
  behind : s'.pc.behindPaint = true → s.pc.behindPaint = true
  ready : s'.pc.isWaitReady = false
  repaint : s'.pc.isRepaint = false

theorem returnWait_outside {t : State γ} (hrestore : t.restoreCurrent_ = s.restoreCurrent_)
    (hcleared : t.isCleared = s.isCleared) : Outside s (returnWait t shown) := by
  cases shown <;> exact ⟨hrestore, hcleared, nofun, rfl, rfl⟩

theorem returnWait_ne_repainting {shown' : Shown} {due' : Int} :
    (returnWait s shown).pc ≠ .repainting shown' due' := by
  cases shown <;> nofun

/-- Outside `_waitForNext` the loop's thread leaves flag and panel alone. -/
theorem outside_of_loop (hnext : s.pc.isWaitNext = false) (hready : s.pc.isWaitReady = false)
    (hs : loop gen cfg s = some s') : Outside s s' := by
  have htake : ∀ all, (takeNext gen s all).2.restoreCurrent_ = s.restoreCurrent_ ∧
      (takeNext gen s all).2.isCleared = s.isCleared := by
    intro all
    unfold takeNext pickNext
    simp only
    split <;> [exact ⟨rfl, rfl⟩; skip]
    split <;> exact ⟨rfl, rfl⟩
  unfold loop at hs
  split at hs
  case h_12 all hpc =>
    obtain ⟨image, -, rfl⟩ := Option.map_eq_some_iff.mp hs
    exact ⟨(htake all).1, (htake all).2, nofun, rfl, rfl⟩
  case h_17 hpc =>
    rw [hpc] at hnext
    cases hnext
  case h_18 hpc =>
    rw [hpc] at hready
    cases hready
  all_goals
    rename_i hpc
    (try split at hs) <;> (try split at hs) <;> cases hs <;>
      exact ⟨rfl, rfl, by rw [hpc]; simp [Pc.behindPaint, leave, endWait, enterWait], rfl, rfl⟩

/-- A paint ends. -/
structure Painted (s s' : State γ) (outcome : Paint) : Prop where
  restore : s'.restoreCurrent_ = s.restoreCurrent_
  cleared : s'.isCleared = if outcome = .shown then false else s.isCleared
  ready : s'.pc.isWaitReady = false
  repaint : s'.pc.isRepaint = false
  inside : ∀ shown due, s.pc = .repainting shown due → s'.pc = .waitNext shown due
  outside : s.pc.isRepaint = false → s.pc.isWaitNext = false ∧ s.pc.isWaitReady = false

theorem painted_of_step {outcome : Paint} (hs : painted s outcome = some s') : Painted s s' outcome := by
  have hrestore : (panelAfter s outcome).restoreCurrent_ = s.restoreCurrent_ := by
    cases outcome <;> rfl
  have hcleared : (panelAfter s outcome).isCleared =
      if outcome = .shown then false else s.isCleared := by
    cases outcome <;> rfl
  simp only [painted] at hs
  split at hs
  iterate 2
    next hpc =>
      split at hs <;> [skip; split at hs] <;> cases hs <;>
        exact ⟨hrestore, hcleared, rfl, rfl, fun _ _ h => by simp [hpc] at h,
          fun _ => by simp [hpc, Pc.isWaitNext, Pc.isWaitReady]⟩
  next hpc =>
    cases hs
    refine ⟨hrestore, hcleared, rfl, rfl, fun _ _ h => ?_, fun h => by simp [hpc, Pc.isRepaint] at h⟩
    rw [hpc] at h
    cases h
    rfl
  next => cases hs

/-- The bus thread, the surroundings and time. -/
structure Beside (s s' : State γ) (a : Act) : Prop where
  pc : s'.pc = s.pc
  delivered : a = .scheduledClear → s'.restoreCurrent_ = true
  restore : a ≠ .scheduledClear → s'.restoreCurrent_ = s.restoreCurrent_
  cleared : s'.isCleared = s.isCleared ∨ ∃ cleared, a = .panel cleared ∧ s'.isCleared = cleared

theorem beside_of_step (ha : a.Other) (hs : step gen cfg s a = some s') : Beside s s' a := by
  cases a with
  | loop => exact ha.elim
  | loopThrows => exact ha.elim
  | painted _ => exact ha.elim
  | start => exact ha.elim
  | imageNew n =>
    obtain ⟨-, hs⟩ := Option.ite_none_right_eq_some.mp hs
    cases hs
    exact ⟨rfl, by rintro ⟨⟩, fun _ => rfl, .inl rfl⟩
  | imageRemoved ids =>
    simp only [step] at hs
    split at hs <;> cases hs <;> exact ⟨rfl, by rintro ⟨⟩, fun _ => rfl, .inl rfl⟩
  | scheduledClear =>
    cases hs
    exact ⟨rfl, fun _ => rfl, fun h => absurd rfl h, .inl rfl⟩
  | panel cleared =>
    cases hs
    exact ⟨rfl, by rintro ⟨⟩, fun _ => rfl, .inr ⟨cleared, rfl, rfl⟩⟩
  | _ =>
    cases hs
    exact ⟨rfl, by rintro ⟨⟩, fun _ => rfl, .inl rfl⟩

/-- An exception leaves the wait and touches neither flag nor panel. -/
theorem outside_of_loopThrows (hs : loopThrows s = some s') : Outside s s' := by
  simp only [loopThrows] at hs
  split at hs <;> (try split at hs) <;> cases hs <;> exact ⟨rfl, rfl, by rintro ⟨⟩, rfl, rfl⟩

theorem outside_of_start (hs : step gen cfg s .start = some s') : Outside s s' ∧ s.pc = .exited := by
  obtain ⟨hpc, hs⟩ := Option.ite_none_right_eq_some.mp hs
  cases hs
  exact ⟨⟨rfl, rfl, nofun, rfl, rfl⟩, hpc⟩

/-- How a repaint comes about: a wait that was scheduled is over. -/
inductive Awaited (cfg : Config) (s : State γ) (shown : Shown) (due t : Int) : State γ → Prop where
  | returns (hreason : s.stopRequested = true ∨ wake cfg s shown = true) :
    Awaited cfg s shown due t (returnWait s shown)
  | repaints (hstop : s.stopRequested = false) (hwake : wake cfg s shown = false) (ht : t ≤ s.now) :
    Awaited cfg s shown due t { s with refreshing_ := true, pc := .repainting shown due }

theorem awaited_of_loop {t : Int} (hpc : s.pc = .waitReady shown due t)
    (hs : loop gen cfg s = some s') : Awaited cfg s shown due t s' := by
  rw [loop_waitReady hpc] at hs
  split at hs
  next hreason =>
    cases hs
    exact .returns hreason
  next hno =>
    obtain ⟨ht, hs⟩ := Option.ite_none_right_eq_some.mp hs
    cases hs
    rw [not_or] at hno
    exact .repaints (by simpa using hno.1) (by simpa using hno.2) ht

/-! ## What a step may do -/

/-- What becomes of the wait and of a delivery in one step. -/
structure StepLaw (cfg : Config) (w : Watched γ) (a : Act) (s' : State γ) : Prop where
  /-- it returns for a stop, its wake condition or the due time, if no exception ends it -/
  returns : ∀ shown due, w.state.pc.In shown due → ¬ s'.pc.In shown due → a ≠ .loopThrows →
    w.state.stopRequested = true ∨ wake cfg w.state shown = true ∨ due ≤ w.state.now
  /-- a repaint was scheduled by a check, and nothing wakes the wait -/
  repaints : ∀ shown due, s'.pc = .repainting shown due → w.state.pc = .repainting shown due ∨
    ∃ c, w.check = some c ∧ c.pc = .waitNext shown due ∧ c.restoreCurrent_ = true ∧
      c.isCleared = true ∧ readyAt cfg c < due ∧ readyAt cfg c ≤ w.state.now ∧
      wake cfg w.state shown = false ∧ w.state.stopRequested = false
  /-- the flag comes from a delivery -/
  delivered : s'.restoreCurrent_ = true → w.state.restoreCurrent_ = true ∨ a = .scheduledClear
  /-- and only the first wait takes it -/
  kept : w.state.restoreCurrent_ = true →
    s'.restoreCurrent_ = true ∨ a = .loop ∧ ∃ shown due, w.state.pc = .waitNext shown due

/-- What the record says, where it matters. -/
structure Recorded (cfg : Config) (w : Watched γ) : Prop where
  scheduled : ∀ shown due t, w.state.pc = .waitReady shown due t →
    ∃ c, w.check = some c ∧ c.pc = .waitNext shown due ∧ c.restoreCurrent_ = true ∧
      c.isCleared = true ∧ t = readyAt cfg c ∧ t < due
  blank : w.state.pc.behindPaint = true → w.state.isCleared = true → w.handled = true →
    w.state.restoreCurrent_ = true ∨ w.attempted = true ∨
      ∃ shown due t, w.state.pc = .waitNext shown due ∧ w.tooLate = some t ∧ due ≤ t
  unset : w.state.isCleared = false → w.handled = false

/-- A step to outside the wait. -/
theorem StepLaw.outside (h : Outside w.state s')
    (hreturns : ∀ shown due, w.state.pc.In shown due → a ≠ .loopThrows →
      w.state.stopRequested = true ∨ wake cfg w.state shown = true ∨ due ≤ w.state.now) :
    StepLaw cfg w a s' where
  returns shown due hin _ ha := hreturns shown due hin ha
  repaints shown due hpc := by
    have hno := h.repaint
    rw [hpc] at hno
    cases hno
  delivered hset := .inl (h.restore ▸ hset)
  kept hset := .inl (h.restore.trans hset)

theorem stepLaw_loop (hR : Recorded cfg w) (hs : loop gen cfg w.state = some s') :
    StepLaw cfg w .loop s' := by
  cases hpc : w.state.pc with
  | waitNext shown due =>
    have hwait : Pc.In shown due w.state.pc := by rw [hpc]; exact ⟨rfl, rfl⟩
    refine ⟨fun shown' due' hin hout _ => ?_, fun shown' due' hrepaint => ?_, fun hset => .inl ?_,
      fun _ => .inr ⟨rfl, shown, due, hpc⟩⟩
    · rw [hpc] at hin
      obtain ⟨rfl, rfl⟩ := hin
      cases checked_of_loop hpc hs with
      | returns hreason => exact hreason.imp_right fun h => h.imp_right And.right
      | continues => exact absurd hwait hout
      | schedules => exact absurd ⟨rfl, rfl⟩ hout
    · cases checked_of_loop hpc hs with
      | returns _ ht =>
        rw [ht] at hrepaint
        exact absurd hrepaint returnWait_ne_repainting
      | continues =>
        replace hrepaint : w.state.pc = _ := hrepaint
        rw [hpc] at hrepaint
        cases hrepaint
      | schedules => cases hrepaint
    · cases checked_of_loop hpc hs with
      | returns _ ht => subst ht; cases shown <;> cases hset
      | continues => cases hset
      | schedules => cases hset
  | waitReady shown due t =>
    cases awaited_of_loop hpc hs with
    | returns hreason =>
      refine .outside (returnWait_outside rfl rfl) fun shown' due' hin _ => ?_
      rw [hpc] at hin
      obtain ⟨rfl, rfl⟩ := hin
      exact hreason.imp_right .inl
    | repaints hstop hwake ht =>
      refine ⟨fun shown' due' hin hout _ => ?_, fun shown' due' hrepaint => .inr ?_, .inl, .inl⟩
      · rw [hpc] at hin
        exact absurd hin hout
      · cases hrepaint
        obtain ⟨c, hcheck, hc, hrestore, hcleared, rfl, hdue⟩ := hR.scheduled _ _ _ hpc
        exact ⟨c, hcheck, hc, hrestore, hcleared, hdue, ht, hwake, hstop⟩
  | repainting shown due => simp [loop, hpc] at hs
  | _ =>
    refine .outside (outside_of_loop (by rw [hpc]; rfl) (by rw [hpc]; rfl) hs) fun shown due hin => ?_
    rw [hpc] at hin
    cases hin

theorem stepLaw (hR : Recorded cfg w) (hs : step gen cfg w.state a = some s') : StepLaw cfg w a s' := by
  have hbeside : a.Other → StepLaw cfg w a s' := by
    intro ha
    have h := beside_of_step ha hs
    refine ⟨fun shown due hin hout _ => absurd (h.pc ▸ hin) hout,
      fun shown due hrepaint => .inl (h.pc ▸ hrepaint), fun hset => ?_, fun hset => .inl ?_⟩
    · by_cases ha : a = .scheduledClear
      · exact .inr ha
      · exact .inl (h.restore ha ▸ hset)
    · by_cases ha : a = .scheduledClear
      · exact h.delivered ha
      · exact (h.restore ha).trans hset
  cases a with
  | loop => exact stepLaw_loop hR hs
  | loopThrows =>
    exact .outside (outside_of_loopThrows hs) fun _ _ _ ha => absurd rfl ha
  | start =>
    obtain ⟨hout, hpc⟩ := outside_of_start hs
    refine .outside hout fun shown due hin => ?_
    rw [hpc] at hin
    cases hin
  | painted outcome =>
    have h := painted_of_step hs
    refine ⟨fun shown due hin hout _ => ?_, fun shown due hrepaint => ?_,
      fun hset => .inl (h.restore ▸ hset), fun hset => .inl (h.restore.trans hset)⟩
    · cases hpc : w.state.pc with
      | repainting shown' due' =>
        rw [hpc] at hin
        obtain ⟨rfl, rfl⟩ := hin
        exact absurd (by rw [h.inside _ _ hpc]; exact ⟨rfl, rfl⟩) hout
      | _ =>
        have hno := h.outside (by rw [hpc]; rfl)
        simp_all [Pc.In, Pc.isWaitNext, Pc.isWaitReady]
    · have hno := h.repaint
      rw [hrepaint] at hno
      cases hno
  | _ => exact hbeside trivial

/-! ## The record -/

/-- The record of a panel that shows something. -/
theorem observe_shown (h : s'.isCleared = false) : (observe cfg w a s').handled = false := by
  simp only [observe, h, Bool.not_false, if_true]

theorem observe_handled (hcleared : s'.isCleared = true) (ha : a ≠ .scheduledClear) :
    (observe cfg w a s').handled = w.handled := by
  simp only [observe, hcleared, Bool.not_true, Bool.false_eq_true, if_false]
  split <;> first | rfl | exact absurd rfl ha

theorem observe_painted {outcome : Paint} (hcleared : s'.isCleared = true) :
    (observe cfg w (.painted outcome) s').attempted = true := by
  simp only [observe, hcleared, Bool.not_true, Bool.false_eq_true, if_false, Watched.attempted]
  cases w.state.pc.isRepaint <;> simp

theorem observe_attempted (hcleared : s'.isCleared = true) (ha : a ≠ .scheduledClear)
    (h : w.attempted = true) : (observe cfg w a s').attempted = true := by
  cases a with
  | scheduledClear => exact absurd rfl ha
  | painted outcome => exact observe_painted hcleared
  | _ => simpa [observe, hcleared, Watched.attempted] using h

theorem observe_tooLate (hcleared : s'.isCleared = true) (ha : a ≠ .scheduledClear) (hloop : a ≠ .loop) :
    (observe cfg w a s').tooLate = w.tooLate := by
  simp only [observe, hcleared, Bool.not_true, Bool.false_eq_true, if_false]
  split
  next => exact absurd rfl ha
  next => rfl
  next => exact absurd rfl hloop
  next => rfl

/-- Where the panel is blank and a delivery was handled, both were so before. -/
theorem handled_before (hR : Recorded cfg w) (hcleared : s'.isCleared = true) (ha : a ≠ .scheduledClear)
    (hhandled : (observe cfg w a s').handled = true) :
    w.handled = true ∧ w.state.isCleared = true := by
  rw [observe_handled hcleared ha] at hhandled
  refine ⟨hhandled, ?_⟩
  by_contra hshown
  rw [hR.unset (by simpa using hshown)] at hhandled
  cases hhandled

/-- What has to be said about a record, in terms of the state reached. -/
theorem recorded_observe
    (hscheduled : ∀ shown due t, s'.pc = .waitReady shown due t →
      ∃ c, (observe cfg w a s').check = some c ∧ c.pc = .waitNext shown due ∧ c.restoreCurrent_ = true ∧
        c.isCleared = true ∧ t = readyAt cfg c ∧ t < due)
    (hblank : s'.pc.behindPaint = true → s'.isCleared = true → (observe cfg w a s').handled = true →
      s'.restoreCurrent_ = true ∨ (observe cfg w a s').attempted = true ∨
        ∃ shown due t, s'.pc = .waitNext shown due ∧ (observe cfg w a s').tooLate = some t ∧ due ≤ t) :
    Recorded cfg (observe cfg w a s') where
  scheduled shown due t hpc := hscheduled shown due t (by rwa [observe_state] at hpc)
  blank hbehind hcleared hhandled := by
    rw [observe_state] at hbehind hcleared ⊢
    exact hblank hbehind hcleared hhandled
  unset hshown := observe_shown (by rwa [observe_state] at hshown)

/-- Neither behind a paint nor in front of a repaint. -/
theorem recorded_elsewhere (hready : s'.pc.isWaitReady = false) (hbehind : s'.pc.behindPaint = false) :
    Recorded cfg (observe cfg w a s') := by
  refine recorded_observe (fun shown due t hpc => ?_) fun hyes => ?_
  · rw [hpc] at hready
    cases hready
  · rw [hbehind] at hyes
    cases hyes

theorem recorded_beside (hR : Recorded cfg w) (h : Beside w.state s' a) (hloop : a ≠ .loop) :
    Recorded cfg (observe cfg w a s') := by
  refine recorded_observe (fun shown due t hpc => ?_) fun hbehind hcleared hhandled => ?_
  · rw [h.pc] at hpc
    rw [observe_check, h.pc, if_pos (by rw [hpc]; rfl), if_pos (by rw [hpc]; rfl)]
    exact hR.scheduled shown due t hpc
  · by_cases ha : a = .scheduledClear
    · exact .inl (h.delivered ha)
    · obtain ⟨hbefore, hblank⟩ := handled_before hR hcleared ha hhandled
      rw [observe_tooLate hcleared ha hloop, h.restore ha, h.pc]
      obtain hset | hattempt | hlate := hR.blank (h.pc ▸ hbehind) hblank hbefore
      · exact .inl hset
      · exact .inr (.inl (observe_attempted hcleared ha hattempt))
      · exact .inr (.inr hlate)

/-- Outside the first wait the record says what it said. -/
theorem recorded_outside (hR : Recorded cfg w) (h : Outside w.state s')
    (hnext : w.state.pc.isWaitNext = false) : Recorded cfg (observe cfg w .loop s') := by
  refine recorded_observe (fun shown due t hpc => ?_) fun hbehind hcleared hhandled => ?_
  · have hno := h.ready
    rw [hpc] at hno
    cases hno
  · have ha : Act.loop ≠ .scheduledClear := nofun
    obtain ⟨hbefore, hblank⟩ := handled_before hR hcleared ha hhandled
    rw [h.restore]
    obtain hset | hattempt | ⟨shown, due, t, hpc, -⟩ := hR.blank (h.behind hbehind) hblank hbefore
    · exact .inl hset
    · exact .inr (.inl (observe_attempted hcleared ha hattempt))
    · rw [hpc] at hnext
      cases hnext

theorem recorded_loop (hR : Recorded cfg w) (hs : loop gen cfg w.state = some s') :
    Recorded cfg (observe cfg w .loop s') := by
  cases hpc : w.state.pc with
  | waitNext shown due =>
    cases checked_of_loop hpc hs with
    | returns _ ht =>
      subst ht
      cases shown <;> exact recorded_elsewhere rfl rfl
    | continues hrestore hreason =>
      refine recorded_observe (fun shown' due' t hready => ?_) fun _ hcleared _ => .inr (.inr ?_)
      · replace hready : w.state.pc = _ := hready
        rw [hpc] at hready
        cases hready
      · -- the check found the next picture due first
        replace hcleared : w.state.isCleared = true := hcleared
        obtain hshown | hdue := hreason
        · rw [hshown] at hcleared
          cases hcleared
        · refine ⟨shown, due, readyAt cfg w.state, hpc, ?_, hdue⟩
          simp [observe, hcleared, hrestore, hpc, Pc.isWaitNext]
    | schedules hrestore hcleared hready =>
      refine recorded_observe (fun shown' due' t hpc' => ?_) nofun
      cases hpc'
      refine ⟨w.state, ?_, hpc, hrestore, hcleared, rfl, hready⟩
      rw [observe_check, hpc]
      rfl
  | waitReady shown due t =>
    cases awaited_of_loop hpc hs with
    | returns => cases shown <;> exact recorded_elsewhere rfl rfl
    | repaints => exact recorded_elsewhere rfl rfl
  | _ =>
    exact recorded_outside hR (outside_of_loop (by rw [hpc]; rfl) (by rw [hpc]; rfl) hs)
      (by rw [hpc]; rfl)

theorem recorded_step (hR : Recorded cfg w) (hs : step gen cfg w.state a = some s') :
    Recorded cfg (observe cfg w a s') := by
  cases a with
  | loop => exact recorded_loop hR hs
  | loopThrows =>
    simp only [step, loopThrows] at hs
    split at hs <;> (try split at hs) <;> cases hs <;> exact recorded_elsewhere rfl rfl
  | start =>
    obtain ⟨-, hs⟩ := Option.ite_none_right_eq_some.mp hs
    cases hs
    exact recorded_elsewhere rfl rfl
  | painted outcome =>
    have h := painted_of_step hs
    refine recorded_observe (fun shown due t hpc => ?_) fun _ hcleared _ =>
      .inr (.inl (observe_painted hcleared))
    have hno := h.ready
    rw [hpc] at hno
    cases hno
  | _ => exact recorded_beside hR (beside_of_step trivial hs) (by rintro ⟨⟩)

theorem recorded_of_reachable (h : (watched gen cfg).Reachable w) : Recorded cfg w := by
  have hind : (watched gen cfg).Inductive (fun _ _ => True) (Recorded cfg) := by
    refine ⟨fun w hw => ?_, fun w a w' hR _ hs => ?_⟩
    · obtain ⟨⟨_, _, _, _, _, _, _, _, -, hstate⟩, hw⟩ := hw
      rw [hw, hstate]
      exact ⟨nofun, nofun, fun _ => rfl⟩
    · obtain ⟨hstep, heq⟩ := exists_of_watched hs
      rw [heq]
      exact recorded_step hR hstep
  exact hind.of_reachable h

/-- In every state that is reached a step keeps to the law; a scheduled repaint comes before the
due time; a wait that is blocked in front of a blank panel behind a delivery has found the due time
no later than the earliest repaint, or a paint was attempted since; and a delivery ends the first
wait. -/
theorem daily_clear (h : (watched gen cfg).Reachable w) :
    (∀ a s', step gen cfg w.state a = some s' → StepLaw cfg w a s') ∧
    (∀ shown due t, w.state.pc = .waitReady shown due t → t < due) ∧
    (∀ shown due, w.state.pc = .waitNext shown due → loop gen cfg w.state = none →
      w.state.isCleared = true → w.handled = true →
        w.attempted = true ∨ ∃ t, w.tooLate = some t ∧ due ≤ t) ∧
    ∀ shown due, w.state.pc = .waitNext shown due → w.state.restoreCurrent_ = true →
      ∃ s', loop gen cfg w.state = some s' ∧ Checked cfg w.state shown due s' := by
  have hR := recorded_of_reachable h
  have hends : ∀ shown due, w.state.pc = .waitNext shown due → w.state.restoreCurrent_ = true →
      ∃ s', loop gen cfg w.state = some s' := fun shown due hpc hset =>
    ⟨afterWait cfg w.state shown due, by rw [loop_waitNext hpc, if_pos (.inr (.inr (.inl hset)))]⟩
  refine ⟨fun a s' hs => stepLaw hR hs, fun shown due t hpc => ?_,
    fun shown due hpc hblocked hblank hhandled => ?_, fun shown due hpc hset => ?_⟩
  · obtain ⟨c, -, -, -, -, -, hlt⟩ := hR.scheduled shown due t hpc
    exact hlt
  · obtain hset | hattempted | ⟨shown', due', t, hpc', hlate, hle⟩ :=
      hR.blank (by rw [hpc]; rfl) hblank hhandled
    · obtain ⟨s', hs⟩ := hends shown due hpc hset
      rw [hs] at hblocked
      cases hblocked
    · exact .inl hattempted
    · rw [hpc] at hpc'
      cases hpc'
      exact .inr ⟨t, hlate, hle⟩
  · obtain ⟨s', hs⟩ := hends shown due hpc hset
    exact ⟨s', hs, checked_of_loop hpc hs⟩

/-- Two stored pictures; the first is on the panel, and the loop waits behind it. -/
def onPanel : List Act := [.loop, .loop, .loop, .loop, .painted .shown, .loop, .loop, .tick (200 * second)]

def storedPair : State Unit :=
  freshState [⟨1, "alice", "1.jpg", 0, 0⟩, ⟨2, "bob", "2.jpg", 0, 0⟩] ["1.jpg", "2.jpg"] []

theorem storedPair_init : (watched lowest defaultConfig).Init { state := storedPair } :=
  ⟨freshState_init lowest _ _ _ (by decide), rfl⟩

/-- The clear is delivered and the repaint is scheduled. -/
theorem daily_clear_scheduled : ∃ w : Watched Unit, ∃ shown due t,
    (watched lowest defaultConfig).run { state := storedPair }
      (onPanel ++ [.panel true, .scheduledClear, .loop]) = some w ∧
    w.state.pc = .waitReady shown due t ∧ t < due :=
  ⟨_, _, _, _, rfl, rfl, (daily_clear (Machine.reachable_run (M := watched lowest defaultConfig)
    (onPanel ++ [.panel true, .scheduledClear, .loop]) storedPair_init rfl)).2.1 _ _ _ rfl⟩

/-- The clear comes together with a skip: the wait returns and takes the delivery with it. The next
picture cannot be painted, and the loop waits behind it, in front of a blank panel, for longer than
the refresh interval. -/
def skippedClear : List Act :=
  onPanel ++ [Act.panel true, .skipImage, .scheduledClear, .loop, .loop, .loop, .loop, .loop,
    .painted .refused, .loop, .loop]

theorem blank_behind_skip : ∃ w : Watched Unit, (watched lowest defaultConfig).Reachable w ∧
    (∃ shown due, w.state.pc = .waitNext shown due ∧ readyAt defaultConfig w.state < due) ∧
    loop lowest defaultConfig w.state = none ∧ w.state.isCleared = true ∧ w.handled = true ∧
    w.repainted = false ∧ w.tooLate = none :=
  ⟨_, Machine.reachable_run (M := watched lowest defaultConfig) skippedClear storedPair_init rfl,
    ⟨_, _, rfl, by decide⟩, rfl, rfl, rfl, rfl, rfl⟩

end ShareFrame.DisplayImageLoop
