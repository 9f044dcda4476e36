import ShareFrame.Task.Loop.Signals

/-!
# The wait behind a user picture

A paint of a user picture, the flag reset behind it and the `_waitForNext` that
follows: how the loop gets in, and what it keeps inside (`Follows`). A signal that
comes in the wait stays until the wait is over.
-/

namespace ShareFrame.DisplayImageLoop

open Playback Transition

variable {γ : Type} {gen : Generator γ} {cfg : Config}

/-- From the start of a paint of a user picture up to the flag reset behind it. -/
def Pc.InPaint : Pc → Prop
  | .userPainting _ | .userPainted _ | .userReset _ => True
  | _ => False

/-- In `_waitForNext` behind a user picture. -/
def Pc.BehindUser : Pc → Prop
  | .waitNext (.user _) _ | .waitReady (.user _) _ _ | .repainting (.user _) _ => True
  | _ => False

/-- A paint of a user picture begins. -/
def PaintBegins (s s' : State γ) : Prop :=
  (∃ image, s.pc = .checkFile image) ∧ ∃ image, s'.pc = .userPainting image

/-- What a step of the loop's thread, or of its surroundings, does to a paint and to the wait
behind it. -/
structure Follows (s s' : State γ) (a : Act) : Prop where
  inPaint : s'.pc.InPaint → (a = .loop ∧ s'.refreshing_ = true ∧ PaintBegins s s') ∨
    s.pc.InPaint ∧ s'.refreshing_ = s.refreshing_
  behindUser : s'.pc.BehindUser → s.pc.InPaint ∨
    s.pc.BehindUser ∧ (s.skipCurrent_ = true → s'.skipCurrent_ = true)

/-- A step to another place. -/
theorem Follows.elsewhere {s s' : State γ} {a : Act} (h : ¬ s'.pc.InPaint)
    (h' : ¬ s'.pc.BehindUser) : Follows s s' a := ⟨fun hp => absurd hp h, fun hp => absurd hp h'⟩

/-- A step that stays and clears nothing. -/
theorem Follows.stay {s s' : State γ} {a : Act} (hpc : s'.pc = s.pc)
    (hr : s'.refreshing_ = s.refreshing_)
    (hskip : s.skipCurrent_ = true → s'.skipCurrent_ = true) : Follows s s' a :=
  ⟨fun hp => .inr ⟨hpc ▸ hp, hr⟩, fun hp => .inr ⟨hpc ▸ hp, hskip⟩⟩

/-- A step inside the wait. -/
theorem Follows.within {s s' : State γ} {a : Act} (h : ¬ s'.pc.InPaint)
    (hwait : s'.pc.BehindUser → s.pc.BehindUser) (hskip : s'.skipCurrent_ = s.skipCurrent_) :
    Follows s s' a :=
  ⟨fun hp => absurd hp h, fun hp => .inr ⟨hwait hp, fun hs => hskip.trans hs⟩⟩

theorem returnWait_elsewhere (s t : State γ) (shown : Shown) (a : Act) :
    Follows s (returnWait t shown) a := by
  cases shown <;> exact .elsewhere id id

theorem loop_follows {s s' : State γ} (hs : loop gen cfg s = some s') :
    Follows s s' .loop := by
  unfold loop at hs
  split at hs
  next => split at hs <;> [skip; split at hs] <;> cases hs <;> exact .elsewhere id id
  next => split at hs <;> cases hs; exact .elsewhere id id
  next => split at hs <;> cases hs <;> exact .elsewhere id id
  next => split at hs <;> cases hs <;> exact .elsewhere id id
  next => split at hs <;> cases hs; exact .elsewhere id id
  next => split at hs <;> [skip; split at hs] <;> cases hs <;> exact .elsewhere id id
  next => split at hs <;> cases hs <;> exact .elsewhere id id
  next => split at hs <;> cases hs; exact .elsewhere id id
  next => cases hs
  next => cases hs; exact .elsewhere id id
  next => cases hs; exact .elsewhere id id
  next =>
    simp only [Option.map_eq_some_iff] at hs
    obtain ⟨image, -, rfl⟩ := hs
    exact .elsewhere id id
  next image hpc =>
    split at hs <;> cases hs
    · exact .elsewhere id id
    · exact ⟨fun _ => .inl ⟨rfl, rfl, ⟨image, hpc⟩, image, rfl⟩, fun hp => hp.elim⟩
  next => cases hs
  next hpc => cases hs; exact ⟨fun _ => .inr ⟨by rw [hpc]; trivial, rfl⟩, fun hp => hp.elim⟩
  next hpc => cases hs; exact ⟨fun hp => hp.elim, fun _ => .inl (by rw [hpc]; trivial)⟩
  next shown due hpc =>
    split at hs <;> cases hs
    obtain he | he | ⟨readyAt, he⟩ := afterWait_cases cfg s shown due <;> rw [he]
    · exact returnWait_elsewhere s _ shown .loop
    · exact .stay rfl rfl id
    · refine .within id ?_ rfl
      rw [hpc]; cases shown <;> exact id
  next shown due readyAt hpc =>
    split at hs
    · cases hs; exact returnWait_elsewhere s s shown .loop
    · split at hs <;> cases hs
      refine .within id ?_ rfl
      rw [hpc]; cases shown <;> exact id
  next => cases hs
  next => split at hs <;> cases hs; exact .elsewhere id id
  next => cases hs

theorem painted_follows {s s' : State γ} {outcome : Paint} (hs : painted s outcome = some s') :
    Follows s s' (.painted outcome) := by
  have hr : (panelAfter s outcome).refreshing_ = s.refreshing_ := by cases outcome <;> rfl
  have hskip : (panelAfter s outcome).skipCurrent_ = s.skipCurrent_ := by cases outcome <;> rfl
  simp only [painted] at hs
  split at hs
  next => split at hs <;> [skip; split at hs] <;> cases hs <;> exact .elsewhere id id
  next hpc =>
    split at hs <;> [skip; split at hs] <;> cases hs
    · exact ⟨fun _ => .inr ⟨by rw [hpc]; trivial, hr⟩, fun hp => hp.elim⟩
    · exact .elsewhere id id
    · exact ⟨fun _ => .inr ⟨by rw [hpc]; trivial, hr⟩, fun hp => hp.elim⟩
  next shown due hpc =>
    cases hs
    refine .within id ?_ hskip
    rw [hpc]; cases shown <;> exact id
  next => cases hs

theorem step_follows {s s' : State γ} {a : Act} (hs : step gen cfg s a = some s') :
    Follows s s' a := by
  cases a with
  | loop => exact loop_follows hs
  | painted outcome => exact painted_follows hs
  | loopThrows =>
    simp only [step, loopThrows] at hs
    split at hs <;> (try split at hs) <;> cases hs <;> exact .elsewhere id id
  | imageNew n =>
    simp only [step] at hs
    split at hs <;> cases hs
    exact .stay rfl rfl id
  | imageRemoved ids =>
    simp only [step] at hs
    split at hs <;> cases hs
    · exact .stay rfl rfl fun _ => rfl
    · exact .stay rfl rfl id
  | skipImage => cases hs; exact .stay rfl rfl fun _ => rfl
  | showImage n => cases hs; exact .stay rfl rfl fun _ => rfl
  | start =>
    simp only [step] at hs
    split at hs <;> cases hs
    exact .elsewhere id id
  | _ => cases hs; exact .stay rfl rfl id

/-! ## The pending request, the repository and the settings -/

/-- The handlers that change a setting. -/
def Act.Sets : Act → Prop
  | .updateInterval _ | .updateNightMode _ | .updatePlaybackOrder _ _ | .updateCustomization _
  | .setSlideshowActive _ => True
  | _ => False

/-- Only a pick takes the pending request and only its handler sets it; only the image service
changes the rows, and only the handlers of settings change these. -/
structure Frame (s s' : State γ) (a : Act) : Prop where
  pending : s'.pendingShowId_ = s.pendingShowId_ ∨ (a = .loop ∧ ∃ all, s.pc = .pick all) ∨
    ∃ id, a = .showImage id
  rows : s'.rows = s.rows ∨
    (∃ image, a = .store image ∧ s'.rows = s.rows.filter (·.id ≠ image.id) ++ [image]) ∨
    ∃ ids, a = .remove ids ∧ s'.rows = s.rows.filter (·.id ∉ ids)
  settings : s'.settings = s.settings ∨ a.Sets

theorem Frame.same {s s' : State γ} {a : Act} (hp : s'.pendingShowId_ = s.pendingShowId_)
    (hr : s'.rows = s.rows) (hset : s'.settings = s.settings) : Frame s s' a :=
  ⟨.inl hp, .inl hr, .inl hset⟩

theorem takeNext_keeps (gen : Generator γ) (s : State γ) (images : List Image) :
    (takeNext gen s images).2.rows = s.rows ∧
      (takeNext gen s images).2.settings = s.settings := by
  unfold takeNext pickNext
  simp only
  split <;> [exact ⟨rfl, rfl⟩; skip]
  split <;> exact ⟨rfl, rfl⟩

theorem loop_frame {s s' : State γ} (hs : loop gen cfg s = some s') : Frame s s' .loop := by
  unfold loop at hs
  split at hs
  case h_12 all hpc =>
    simp only [Option.map_eq_some_iff] at hs
    obtain ⟨image, -, rfl⟩ := hs
    obtain ⟨hr, hset⟩ := takeNext_keeps gen s all
    exact ⟨.inr (.inl ⟨rfl, all, hpc⟩), .inl hr, .inl hset⟩
  case h_17 shown due hpc =>
    split at hs <;> cases hs
    obtain he | he | ⟨readyAt, he⟩ := afterWait_cases cfg s shown due <;> rw [he]
    · cases shown <;> exact .same rfl rfl rfl
    · exact .same rfl rfl rfl
    · exact .same rfl rfl rfl
  case h_18 shown due readyAt hpc =>
    split at hs
    · cases hs; cases shown <;> exact .same rfl rfl rfl
    · split at hs <;> cases hs; exact .same rfl rfl rfl
  all_goals (try split at hs) <;> (try split at hs) <;> cases hs <;> exact .same rfl rfl rfl

theorem step_frame {s s' : State γ} {a : Act} (hs : step gen cfg s a = some s') :
    Frame s s' a := by
  cases a with
  | loop => exact loop_frame hs
  | painted outcome =>
    have hp : (panelAfter s outcome).pendingShowId_ = s.pendingShowId_ := by cases outcome <;> rfl
    have hr : (panelAfter s outcome).rows = s.rows := by cases outcome <;> rfl
    have hset : (panelAfter s outcome).settings = s.settings := by cases outcome <;> rfl
    simp only [step, painted] at hs
    split at hs <;> (try split at hs) <;> (try split at hs) <;> cases hs <;> exact .same hp hr hset
  | loopThrows =>
    simp only [step, loopThrows] at hs
    split at hs <;> (try split at hs) <;> cases hs <;> exact .same rfl rfl rfl
  | imageNew n =>
    simp only [step] at hs
    split at hs <;> cases hs; exact .same rfl rfl rfl
  | imageRemoved ids =>
    simp only [step] at hs
    split at hs <;> cases hs <;> exact .same rfl rfl rfl
  | start =>
    simp only [step] at hs
    split at hs <;> cases hs; exact .same rfl rfl rfl
  | showImage id => cases hs; exact ⟨.inr (.inr ⟨id, rfl⟩), .inl rfl, .inl rfl⟩
  | store image => cases hs; exact ⟨.inl rfl, .inr (.inl ⟨image, rfl, rfl⟩), .inl rfl⟩
  | remove ids => cases hs; exact ⟨.inl rfl, .inr (.inr ⟨ids, rfl, rfl⟩), .inl rfl⟩
  | updateInterval _ | updateNightMode _ | updatePlaybackOrder _ _ | updateCustomization _
  | setSlideshowActive _ => cases hs; exact ⟨.inl rfl, .inl rfl, .inr trivial⟩
  | _ => cases hs; exact .same rfl rfl rfl

end ShareFrame.DisplayImageLoop
