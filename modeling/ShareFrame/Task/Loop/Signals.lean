import ShareFrame.Task.DisplayImageLoop

/-!
# Signals and waits of the slideshow loop

Two laws about the flags under `mtx_`. A new picture ends the wait behind a
default image (`announced_wakes`), unless it was announced before the flag reset
behind the paint: the reset wipes it (`new_picture_wiped`). A signal in
`skipCurrent_` ends one wait (`signal_ends_one_wait`), unless the loop then finds
neither a picture nor a default image and no further signal was delivered: nothing
clears it on the way (`signal_ends_many_waits`).
-/

namespace ShareFrame.DisplayImageLoop

open Playback Transition

/-- The default refresh interval, and a clock that showed midnight at steady time zero. -/
def defaultConfig : Config := { clock := ⟨0⟩, minRefreshSecs := 120 }

/-- The default intervals and quiet hours. -/
def defaultSettings : RuntimeSettings where
  displayIntervalSecs_ := 900
  night_ := ⟨{ enabled := true, startHour := 1, endHour := 6, intervalSecs := 3600, style := .hold },
    by decide⟩

/-- A loop that starts at noon, long after the last refresh. -/
def freshState (rows : List Image) (files defaultImages : List String) : State Unit where
  now := 43200 * second
  settings := defaultSettings
  rows := rows
  files := files
  defaultImages := defaultImages
  shuffle_ := { rng_ := () }

theorem freshState_init (gen : Generator Unit) (rows : List Image)
    (files defaultImages : List String) (h : (rows.map (·.id)).Nodup) :
    (machine gen defaultConfig).Init (freshState rows files defaultImages) :=
  ⟨_, _, _, rows, files, defaultImages, _, (), h, rfl⟩

variable {γ : Type} {gen : Generator γ} {cfg : Config}

/-- A user picture whose `IMAGE_NEW` handler has run is stored. -/
def HasAnnounced (s : State γ) : Prop := ∃ image ∈ s.rows, image.id ∈ s.announced

instance (s : State γ) : Decidable (HasAnnounced s) := by unfold HasAnnounced; infer_instance

/-- In `_waitForNext` behind a default image. -/
def Pc.BehindSample : Pc → Prop
  | .waitNext (.sample _ _) _ | .waitReady (.sample _ _) _ _ | .repainting (.sample _ _) _ => True
  | _ => False

/-- In a wait whose predicate reads `skipCurrent_`, or in a repaint such a wait goes on behind. -/
def Pc.ReadsSkip : Pc → Prop
  | .noImagesWait _ | .minRefreshWait _ _ | .waitNext _ _ | .waitReady _ _ _ | .repainting _ _ => True
  | _ => False

/-- Before the flag reset behind a default image. -/
def Pc.atSampleReset : Pc → Bool
  | .sampleReset _ _ => true
  | _ => false

/-! ## The other threads -/

/-- What the steps of the other threads do to the flags: a new picture and a signal are only
added. -/
structure OnlySignals (s s' : State γ) : Prop where
  pc : s'.pc = s.pc
  used : s'.used = true → s.used = true
  newImage : s.newImage_ = true → s'.newImage_ = true
  announced : HasAnnounced s' → HasAnnounced s ∨ s'.newImage_ = true

/-- The steps that are not the loop's own. -/
def Act.Other : Act → Prop
  | .loop | .loopThrows | .painted _ | .start => False
  | _ => True

theorem hasAnnounced_store {s : State γ} {image : Image}
    (h : HasAnnounced { s with
      rows := s.rows.filter (·.id ≠ image.id) ++ [image]
      unannounced := image.id :: s.unannounced
      announced := s.announced.filter (· ≠ image.id) }) : HasAnnounced s := by
  obtain ⟨im, him, ha⟩ := h
  obtain ⟨ha, hne⟩ := List.mem_filter.mp ha
  rcases List.mem_append.mp him with hr | hr
  · exact ⟨im, (List.mem_filter.mp hr).1, ha⟩
  · rw [List.mem_singleton] at hr
    exact absurd (congrArg Image.id hr) (of_decide_eq_true hne)

theorem hasAnnounced_remove {s : State γ} {ids : List Int}
    (h : HasAnnounced { s with
      rows := s.rows.filter (·.id ∉ ids), announced := s.announced.filter (· ∉ ids) }) :
    HasAnnounced s := by
  obtain ⟨im, him, ha⟩ := h
  exact ⟨im, (List.mem_filter.mp him).1, (List.mem_filter.mp ha).1⟩

theorem onlySignals_step {s s' : State γ} {a : Act} (ha : a.Other)
    (hs : step gen cfg s a = some s') : OnlySignals s s' := by
  cases a with
  | loop => exact ha.elim
  | loopThrows => exact ha.elim
  | painted _ => exact ha.elim
  | start => exact ha.elim
  | imageNew n =>
    simp only [step] at hs
    split at hs <;> cases hs
    exact ⟨rfl, id, fun _ => rfl, fun _ => .inr rfl⟩
  | imageRemoved ids =>
    simp only [step] at hs
    split at hs <;> cases hs
    · exact ⟨rfl, fun h => (by cases h), id, .inl⟩
    · exact ⟨rfl, id, id, .inl⟩
  | skipImage => cases hs; exact ⟨rfl, fun h => (by cases h), id, .inl⟩
  | showImage n => cases hs; exact ⟨rfl, fun h => (by cases h), id, .inl⟩
  | store image => cases hs; exact ⟨rfl, id, id, fun h => .inl (hasAnnounced_store h)⟩
  | remove ids => cases hs; exact ⟨rfl, id, id, fun h => .inl (hasAnnounced_remove h)⟩
  | _ => cases hs; exact ⟨rfl, id, id, .inl⟩

/-! ## How the loop gets into a wait -/

theorem returnWait_pc (s : State γ) (shown : Shown) : ¬ (returnWait s shown).pc.ReadsSkip := by
  cases shown <;> exact id

theorem afterWait_cases (cfg : Config) (s : State γ) (shown : Shown) (due : Int) :
    afterWait cfg s shown due = returnWait { s with restoreCurrent_ := false } shown ∨
      afterWait cfg s shown due = { s with restoreCurrent_ := false } ∨
      ∃ readyAt, afterWait cfg s shown due =
        { s with restoreCurrent_ := false, pc := .waitReady shown due readyAt } := by
  simp only [afterWait]
  split
  · exact .inl rfl
  · split
    · exact .inr (.inl rfl)
    · exact .inr (.inr ⟨_, rfl⟩)

/-- A step that stays in `_waitForNext` keeps the flags. -/
structure SameWait (s s' : State γ) : Prop where
  reads : s.pc.ReadsSkip
  sample : s'.pc.BehindSample → s.pc.BehindSample
  used : s'.used = s.used
  newImage : s'.newImage_ = s.newImage_
  rows : s'.rows = s.rows
  announced : s'.announced = s.announced

/-- The ways of a step into a wait that reads `skipCurrent_`: without pictures and default images,
behind a flag reset, or within `_waitForNext`. -/
theorem loop_into_wait {s s' : State γ} (hs : loop gen cfg s = some s') (hp : s'.pc.ReadsSkip) :
    (s.pc = .loadDefaults ∧ s.defaultImages = [] ∧ s'.used = s.used ∧ ¬ s'.pc.BehindSample) ∨
      (s'.used = false ∧ ¬ s'.pc.BehindSample) ∨
      (s.pc.atSampleReset = true ∧ s'.used = false ∧ s'.rows = s.rows ∧
        s'.announced = s.announced) ∨
      SameWait s s' := by
  unfold loop at hs
  split at hs
  next => split at hs <;> [skip; split at hs] <;> cases hs <;> exact hp.elim
  next => split at hs <;> cases hs; exact hp.elim
  next => split at hs <;> cases hs <;> exact hp.elim
  next hpc =>
    split at hs <;> cases hs
    next hd => exact .inl ⟨hpc, hd, rfl, id⟩
    next => exact hp.elim
  next => split at hs <;> cases hs; exact hp.elim
  next => split at hs <;> [skip; split at hs] <;> cases hs <;> exact hp.elim
  next =>
    split at hs <;> cases hs
    · exact .inr (.inl ⟨rfl, id⟩)
    · exact hp.elim
  next => split at hs <;> cases hs; exact hp.elim
  next => cases hs
  next => cases hs; exact hp.elim
  next hpc => cases hs; exact .inr (.inr (.inl ⟨by rw [hpc]; rfl, rfl, rfl, rfl⟩))
  next =>
    simp only [Option.map_eq_some_iff] at hs
    obtain ⟨image, -, rfl⟩ := hs
    exact hp.elim
  next => split at hs <;> cases hs <;> exact hp.elim
  next => cases hs
  next => cases hs; exact hp.elim
  next => cases hs; exact .inr (.inl ⟨rfl, id⟩)
  next shown due hpc =>
    have hreads : s.pc.ReadsSkip := by rw [hpc]; trivial
    split at hs <;> cases hs
    obtain he | he | ⟨readyAt, he⟩ := afterWait_cases cfg s shown due <;> rw [he] at hp ⊢
    · exact absurd hp (returnWait_pc _ _)
    · exact .inr (.inr (.inr ⟨hreads, id, rfl, rfl, rfl, rfl⟩))
    · refine .inr (.inr (.inr ⟨hreads, ?_, rfl, rfl, rfl, rfl⟩))
      rw [hpc]; cases shown <;> exact id
  next shown due readyAt hpc =>
    have hreads : s.pc.ReadsSkip := by rw [hpc]; trivial
    split at hs
    · cases hs; exact absurd hp (returnWait_pc _ _)
    · split at hs <;> cases hs
      refine .inr (.inr (.inr ⟨hreads, ?_, rfl, rfl, rfl, rfl⟩))
      rw [hpc]; cases shown <;> exact id
  next => cases hs
  next => split at hs <;> cases hs; exact hp.elim
  next => cases hs

theorem throws_not_reading {s s' : State γ} (hs : loopThrows s = some s') : ¬ s'.pc.ReadsSkip := by
  simp only [loopThrows] at hs
  split at hs <;> (try split at hs) <;> cases hs <;> exact id

theorem samePanel (s : State γ) (outcome : Paint) :
    (panelAfter s outcome).used = s.used ∧ (panelAfter s outcome).newImage_ = s.newImage_ ∧
      (panelAfter s outcome).rows = s.rows ∧ (panelAfter s outcome).announced = s.announced := by
  cases outcome <;> exact ⟨rfl, rfl, rfl, rfl⟩

/-- Of the paints only a repaint is followed by a wait. -/
theorem painted_into_wait {s s' : State γ} {outcome : Paint} (hs : painted s outcome = some s')
    (hp : s'.pc.ReadsSkip) : SameWait s s' := by
  simp only [painted] at hs
  split at hs
  next => split at hs <;> [skip; split at hs] <;> cases hs <;> exact hp.elim
  next => split at hs <;> [skip; split at hs] <;> cases hs <;> exact hp.elim
  next shown due hpc =>
    obtain ⟨h1, h2, h3, h4⟩ := samePanel s outcome
    cases hs
    refine ⟨by rw [hpc]; trivial, ?_, h1, h2, h3, h4⟩
    rw [hpc]; cases shown <;> exact id
  next => cases hs

/-! ## One signal, one wait -/

/-- When the loop finds neither a picture nor a default image, no signal that already ended a wait is
still set. -/
def NoUsedSignal (s : State γ) (a : Act) : Prop :=
  a = .loop → s.pc = .loadDefaults → s.defaultImages = [] → s.used = false

/-- In a wait that reads it, `skipCurrent_` holds no signal that already ended a wait. -/
def SkipFresh (s : State γ) : Prop := s.pc.ReadsSkip → s.used = false

theorem skipFresh_inductive : (machine gen cfg).Inductive NoUsedSignal SkipFresh where
  init := by rintro s ⟨_, _, _, _, _, _, _, _, _, rfl⟩ hp; exact hp.elim
  step s a s' h hG hs hp := by
    by_cases ha : a.Other
    · have ho := onlySignals_step ha hs
      by_contra hu
      have := ho.used (by simpa using hu)
      rw [h (ho.pc ▸ hp)] at this; cases this
    · cases a with
      | loop =>
        obtain ⟨hpc, hd, hu, -⟩ | ⟨hu, -⟩ | ⟨-, hu, -⟩ | hw := loop_into_wait hs hp
        · rw [hu]; exact hG rfl hpc hd
        · exact hu
        · exact hu
        · rw [hw.used]; exact h hw.reads
      | loopThrows => exact absurd hp (throws_not_reading hs)
      | painted outcome =>
        have hw := painted_into_wait hs hp
        rw [hw.used]; exact h hw.reads
      | start =>
        simp only [machine, step] at hs
        split at hs <;> cases hs; exact hp.elim
      | _ => exact absurd trivial ha

/-! ## What was delivered -/

/-- The signals that were delivered: one since the loop last reset the flag, one since it last left a
wait. The loop reads neither. -/
structure Delivered where
  sinceReset : Bool := false
  sinceWait : Bool := false
  deriving DecidableEq, Repr

/-- A delivery that sets the flag. -/
def Act.isSignal (s : State γ) : Act → Bool
  | .skipImage | .showImage _ => true
  | .imageRemoved ids => decide (s.currentImageId_ ∈ ids)
  | _ => false

instance : (pc : Pc) → Decidable pc.ReadsSkip
  | .noImagesWait _ | .minRefreshWait _ _ | .waitNext _ _ | .waitReady _ _ _ | .repainting _ _ =>
    .isTrue trivial
  | .top | .inactiveWait _ | .getAll | .loadDefaults | .defaults _ | .defaultsReady _
  | .samplePainting _ _ | .samplePainted _ _ | .sampleReset _ _ | .pick _ | .checkFile _
  | .userPainting _ | .userPainted _ | .userReset _ | .errorWait _ | .exited => .isFalse id

/-- The loop's step from one place to the other resets the flag. -/
def Pc.resets : Pc → Pc → Bool
  | .sampleReset _ _, _ | .userReset _, _ | _, .minRefreshWait _ _ => true
  | _, _ => false

/-- The loop's step from one place to the other leaves a wait. -/
def Pc.leavesWait (pc pc' : Pc) : Bool := pc.ReadsSkip ∧ ¬ pc'.ReadsSkip

def Delivered.after (d : Delivered) (s : State γ) (a : Act) (s' : State γ) : Delivered :=
  if a.isSignal s then ⟨true, true⟩
  else if a = .loop then
    ⟨d.sinceReset && !s.pc.resets s'.pc, d.sinceWait && !s.pc.leavesWait s'.pc⟩
  else d

variable (gen cfg) in
/-- The loop, with the deliveries beside it. -/
def told : Machine (State γ × Delivered) Act where
  Init x := (machine gen cfg).Init x.1 ∧ x.2 = {}
  step x a := (step gen cfg x.1 a).map fun s' => (s', x.2.after x.1 a s')

/-- When the loop finds neither a picture nor a default image, no signal was delivered since it last
reset the flag, or one was delivered since it last left a wait. -/
def NoOldSignal (x : State γ × Delivered) (a : Act) : Prop :=
  a = .loop → x.1.pc = .loadDefaults → x.1.defaultImages = [] →
    x.2.sinceReset = true → x.2.sinceWait = true

instance (x : State γ × Delivered) (a : Act) : Decidable (NoOldSignal x a) := by
  unfold NoOldSignal; infer_instance

/-- What the flag holds, by the deliveries. -/
structure Delivered.Tells (d : Delivered) (s : State γ) : Prop where
  skip : s.skipCurrent_ = d.sinceReset
  used : s.used = (d.sinceReset && !d.sinceWait)

theorem takeNext_flag (s : State γ) (images : List Image) :
    (takeNext gen s images).2.skipCurrent_ = s.skipCurrent_ ∧
      (takeNext gen s images).2.used = s.used := by
  simp only [takeNext, pickNext]
  split
  · exact ⟨rfl, rfl⟩
  · split <;> exact ⟨rfl, rfl⟩

/-- What a step of the loop does to the flag, by where it leads. -/
theorem loop_flag {s s' : State γ} (hs : loop gen cfg s = some s') :
    s.pc.resets s'.pc = true ∧ s.pc.leavesWait s'.pc = false ∧ s'.skipCurrent_ = false ∧
        s'.used = false ∨
      s.pc.resets s'.pc = false ∧ s.pc.leavesWait s'.pc = true ∧
        s'.skipCurrent_ = s.skipCurrent_ ∧ s'.used = s.skipCurrent_ ∨
      s.pc.resets s'.pc = false ∧ s.pc.leavesWait s'.pc = false ∧
        s'.skipCurrent_ = s.skipCurrent_ ∧ s'.used = s.used := by
  unfold loop at hs
  split at hs
  next hpc =>
    rw [hpc]
    split at hs <;> [skip; split at hs] <;> cases hs <;> exact .inr (.inr ⟨rfl, rfl, rfl, rfl⟩)
  next hpc =>
    rw [hpc]
    split at hs <;> cases hs
    exact .inr (.inr ⟨rfl, rfl, rfl, rfl⟩)
  next hpc =>
    rw [hpc]
    split at hs <;> cases hs <;> exact .inr (.inr ⟨rfl, rfl, rfl, rfl⟩)
  next hpc =>
    rw [hpc]
    split at hs <;> cases hs <;> exact .inr (.inr ⟨rfl, rfl, rfl, rfl⟩)
  next hpc =>
    rw [hpc]
    split at hs <;> cases hs
    exact .inr (.inl ⟨rfl, rfl, rfl, rfl⟩)
  next hpc =>
    rw [hpc]
    split at hs <;> [skip; split at hs] <;> cases hs <;> exact .inr (.inr ⟨rfl, rfl, rfl, rfl⟩)
  next hpc =>
    rw [hpc]
    split at hs <;> cases hs
    · exact .inl ⟨rfl, rfl, rfl, rfl⟩
    · exact .inr (.inr ⟨rfl, rfl, rfl, rfl⟩)
  next hpc =>
    rw [hpc]
    split at hs <;> cases hs
    exact .inr (.inl ⟨rfl, rfl, rfl, rfl⟩)
  next => cases hs
  next hpc =>
    rw [hpc]
    cases hs
    exact .inr (.inr ⟨rfl, rfl, rfl, rfl⟩)
  next hpc =>
    rw [hpc]
    cases hs
    exact .inl ⟨rfl, rfl, rfl, rfl⟩
  next all hpc =>
    rw [hpc]
    simp only [Option.map_eq_some_iff] at hs
    obtain ⟨image, -, rfl⟩ := hs
    obtain ⟨hskip, hused⟩ := @takeNext_flag _ gen s all
    exact .inr (.inr ⟨rfl, rfl, hskip, hused⟩)
  next hpc =>
    rw [hpc]
    split at hs <;> cases hs <;> exact .inr (.inr ⟨rfl, rfl, rfl, rfl⟩)
  next => cases hs
  next hpc =>
    rw [hpc]
    cases hs
    exact .inr (.inr ⟨rfl, rfl, rfl, rfl⟩)
  next hpc =>
    rw [hpc]
    cases hs
    exact .inl ⟨rfl, rfl, rfl, rfl⟩
  next shown due hpc =>
    rw [hpc]
    split at hs <;> cases hs
    obtain he | he | ⟨readyAt, he⟩ := afterWait_cases cfg s shown due <;> rw [he]
    · exact .inr (.inl (by cases shown <;> exact ⟨rfl, rfl, rfl, rfl⟩))
    · exact .inr (.inr ⟨by rw [hpc]; rfl, by rw [hpc]; rfl, rfl, rfl⟩)
    · exact .inr (.inr ⟨rfl, rfl, rfl, rfl⟩)
  next shown due readyAt hpc =>
    rw [hpc]
    split at hs
    · cases hs
      exact .inr (.inl (by cases shown <;> exact ⟨rfl, rfl, rfl, rfl⟩))
    · split at hs <;> cases hs
      exact .inr (.inr ⟨rfl, rfl, rfl, rfl⟩)
  next => cases hs
  next hpc =>
    rw [hpc]
    split at hs <;> cases hs
    exact .inr (.inr ⟨rfl, rfl, rfl, rfl⟩)
  next => cases hs

theorem painted_flag {s s' : State γ} {outcome : Paint} (hs : painted s outcome = some s') :
    s'.skipCurrent_ = s.skipCurrent_ ∧ s'.used = s.used := by
  have hskip : (panelAfter s outcome).skipCurrent_ = s.skipCurrent_ := by cases outcome <;> rfl
  have hused := (samePanel s outcome).1
  simp only [painted] at hs
  split at hs
  next => split at hs <;> [skip; split at hs] <;> cases hs <;> exact ⟨hskip, hused⟩
  next => split at hs <;> [skip; split at hs] <;> cases hs <;> exact ⟨hskip, hused⟩
  next => cases hs; exact ⟨hskip, hused⟩
  next => cases hs

theorem throws_flag {s s' : State γ} (hs : loopThrows s = some s') :
    s'.skipCurrent_ = s.skipCurrent_ ∧ s'.used = s.used := by
  simp only [loopThrows] at hs
  split at hs <;> (try split at hs) <;> cases hs <;> exact ⟨rfl, rfl⟩

/-- A step that is neither a signal nor one of the loop leaves the flag alone. -/
theorem other_flag {s s' : State γ} {a : Act} (hs : step gen cfg s a = some s')
    (hsignal : a.isSignal s = false) (hloop : a ≠ .loop) :
    s'.skipCurrent_ = s.skipCurrent_ ∧ s'.used = s.used := by
  cases a with
  | loop => exact absurd rfl hloop
  | loopThrows => exact throws_flag hs
  | painted outcome => exact painted_flag hs
  | skipImage | showImage n => cases hsignal
  | imageRemoved ids =>
    rw [step, if_neg (of_decide_eq_false hsignal)] at hs
    cases hs
    exact ⟨rfl, rfl⟩
  | imageNew n =>
    simp only [step] at hs
    split at hs <;> cases hs
    exact ⟨rfl, rfl⟩
  | start =>
    simp only [step] at hs
    split at hs <;> cases hs
    exact ⟨rfl, rfl⟩
  | _ => cases hs; exact ⟨rfl, rfl⟩

theorem signal_flag {s s' : State γ} {a : Act} (hs : step gen cfg s a = some s')
    (hsignal : a.isSignal s = true) : s'.skipCurrent_ = true ∧ s'.used = false := by
  cases a with
  | skipImage | showImage n => cases hs; exact ⟨rfl, rfl⟩
  | imageRemoved ids =>
    rw [step, if_pos (of_decide_eq_true hsignal)] at hs
    cases hs
    exact ⟨rfl, rfl⟩
  | _ => cases hsignal

theorem Delivered.Tells.after {d : Delivered} {s s' : State γ} {a : Act} (h : d.Tells s)
    (hs : step gen cfg s a = some s') : (d.after s a s').Tells s' := by
  unfold Delivered.after
  split
  next hsignal =>
    obtain ⟨hskip, hused⟩ := signal_flag hs hsignal
    exact ⟨hskip, hused⟩
  next hsignal =>
    have hsignal := Bool.eq_false_iff.mpr hsignal
    split
    next hloop =>
      subst hloop
      have hloop : loop gen cfg s = some s' := hs
      obtain ⟨hr, hl, hskip, hused⟩ | ⟨hr, hl, hskip, hused⟩ | ⟨hr, hl, hskip, hused⟩ :=
        loop_flag hloop <;> rw [hr, hl]
      · exact ⟨by rw [hskip, Bool.not_true, Bool.and_false],
          by rw [hused, Bool.not_true, Bool.and_false, Bool.false_and]⟩
      · rw [h.skip] at hskip hused
        exact ⟨by rw [hskip, Bool.not_false, Bool.and_true],
          by rw [hused, Bool.not_true, Bool.and_false, Bool.not_false, Bool.and_true, Bool.and_true]⟩
      · exact ⟨by rw [hskip, h.skip, Bool.not_false, Bool.and_true],
          by rw [hused, h.used, Bool.not_false, Bool.and_true, Bool.and_true]⟩
    next hloop =>
      obtain ⟨hskip, hused⟩ := other_flag hs hsignal hloop
      exact ⟨hskip.trans h.skip, hused.trans h.used⟩

theorem told_step {x y : State γ × Delivered} {a : Act} (hs : (told gen cfg).step x a = some y) :
    step gen cfg x.1 a = some y.1 ∧ y.2 = x.2.after x.1 a y.1 := by
  obtain ⟨s', hs', rfl⟩ := Option.map_eq_some_iff.mp hs
  exact ⟨hs', rfl⟩

theorem tells_inductive : (told gen cfg).Inductive (fun _ _ => True) fun x => x.2.Tells x.1 where
  init := by
    rintro ⟨s, d⟩ ⟨⟨_, _, _, _, _, _, _, _, _, rfl⟩, rfl⟩
    exact ⟨rfl, rfl⟩
  step x a y h _ hs := by
    obtain ⟨hs', hd⟩ := told_step hs
    rw [hd]
    exact h.after hs'

theorem noUsedSignal_iff {x : State γ × Delivered} {a : Act} (h : x.2.Tells x.1) :
    NoUsedSignal x.1 a ↔ NoOldSignal x a := by
  refine forall_congr' fun _ => forall_congr' fun _ => forall_congr' fun _ => ?_
  rw [h.used]
  cases x.2.sinceReset <;> cases x.2.sinceWait <;> decide

theorem ReachableBy.untold {x : State γ × Delivered}
    (h : (told gen cfg).ReachableBy NoOldSignal x) :
    (machine gen cfg).ReachableBy NoUsedSignal x.1 := by
  induction h with
  | init h => exact .init h.1
  | step hr hG hs ih =>
    have htells := tells_inductive.of_reachable hr.reachable
    exact .step ih ((noUsedSignal_iff htells).mpr hG) (told_step hs).1

/-- A signal ends one wait: whenever the loop waits on `skipCurrent_`, what is set there has not
ended a wait before, as long as the loop finds no empty frame with an old signal; where it finds one,
it comes back to a wait with a signal that has ended one. -/
theorem signal_ends_one_wait :
    (∀ x, (told gen cfg).ReachableBy NoOldSignal x → x.1.pc.ReadsSkip → x.1.used = false) ∧
    ∀ x a y, (told gen cfg).Reachable x → (told gen cfg).step x a = some y →
      ¬ NoOldSignal x a → y.1.pc.ReadsSkip ∧ y.1.used = true := by
  refine ⟨fun x hr hp => skipFresh_inductive.of_reachable (ReachableBy.untold hr) hp, ?_⟩
  intro x a y hr hs hno
  have htells := tells_inductive.of_reachable hr
  rw [← noUsedSignal_iff htells] at hno
  simp only [NoUsedSignal, Classical.not_imp, Bool.not_eq_false] at hno
  obtain ⟨rfl, hpc, hempty, hused⟩ := hno
  have hs' : loop gen cfg x.1 = some y.1 := (told_step hs).1
  simp only [loop, hpc, if_pos hempty] at hs'
  rw [← Option.some.inj hs']
  exact ⟨trivial, hused⟩

/-- A skip on the way into the wait for the first picture. -/
def skipBeforeWait : List Act := [.loop, .loop, .skipImage, .loop]

theorem signal_ends_one_wait_fresh :
    ∃ x, (told lowest defaultConfig).run (freshState [] [] [], {}) skipBeforeWait = some x ∧
      (∃ t, x.1.pc = .noImagesWait t) ∧ x.1.skipCurrent_ = true ∧ x.1.used = false := by
  refine ⟨_, rfl, ⟨_, rfl⟩, rfl, ?_⟩
  have hinit : (told lowest defaultConfig).Init (freshState [] [] [], {}) :=
    ⟨freshState_init lowest [] [] [] (by decide), rfl⟩
  have hmeets : (told lowest defaultConfig).Meets NoOldSignal (freshState [] [] [], {})
      skipBeforeWait := by decide
  have hr := Machine.ReachableBy.run skipBeforeWait (.init hinit) hmeets rfl
  exact signal_ends_one_wait.1 _ hr trivial

/-- Without pictures and default images one skip ends the wait, and is still set when the loop comes
back to it. -/
theorem signal_ends_many_waits :
    ∃ s, (machine lowest defaultConfig).Reachable s ∧ (∃ t, s.pc = .noImagesWait t) ∧
      s.skipCurrent_ = true ∧ s.used = true :=
  Machine.exists_reachable_of_run
    (List.replicate 3 .loop ++ .skipImage :: List.replicate 4 .loop)
    (freshState_init lowest [] [] [] (by decide)) ⟨_, rfl, ⟨_, rfl⟩, rfl, rfl⟩

/-! ## The wait behind a default image -/

/-- At the flag reset behind a default image no stored picture has been announced yet. -/
def NothingNewAtReset (s : State γ) (a : Act) : Prop :=
  a = .loop → s.pc.atSampleReset = true → ¬ HasAnnounced s

instance (s : State γ) (a : Act) : Decidable (NothingNewAtReset s a) := by
  unfold NothingNewAtReset; infer_instance

/-- Behind a default image an announced picture is remembered. -/
def NewRemembered (s : State γ) : Prop := s.pc.BehindSample → HasAnnounced s → s.newImage_ = true

theorem Pc.BehindSample.readsSkip {pc : Pc} (h : pc.BehindSample) : pc.ReadsSkip := by
  cases pc <;> first | exact h.elim | trivial

theorem SameWait.newRemembered {s s' : State γ} (hw : SameWait s s') (h : NewRemembered s) :
    NewRemembered s' := by
  intro hp ha
  rw [hw.newImage]
  refine h (hw.sample hp) ?_
  unfold HasAnnounced at ha ⊢
  rwa [hw.rows, hw.announced] at ha

theorem newRemembered_inductive : (machine gen cfg).Inductive NothingNewAtReset NewRemembered where
  init := by rintro s ⟨_, _, _, _, _, _, _, _, _, rfl⟩ hp; exact hp.elim
  step s a s' h hG hs hp hn := by
    by_cases ha : a.Other
    · have ho := onlySignals_step ha hs
      obtain hn | hn := ho.announced hn
      · exact ho.newImage (h (ho.pc ▸ hp) hn)
      · exact hn
    · cases a with
      | loop =>
        obtain ⟨-, -, -, hno⟩ | ⟨-, hno⟩ | ⟨hpc, -, hrows, hann⟩ | hw :=
          loop_into_wait hs hp.readsSkip
        · exact absurd hp hno
        · exact absurd hp hno
        · -- entering the wait: the guard
          refine absurd ?_ (hG rfl hpc)
          unfold HasAnnounced at hn ⊢
          rwa [hrows, hann] at hn
        · exact hw.newRemembered h hp hn
      | loopThrows => exact absurd hp.readsSkip (throws_not_reading hs)
      | painted outcome => exact (painted_into_wait hs hp.readsSkip).newRemembered h hp hn
      | start =>
        simp only [machine, step] at hs
        split at hs <;> cases hs; exact hp.elim
      | _ => exact absurd trivial ha

/-- By day an active slideshow does not sit out the interval on a default image once a new picture
was announced. -/
theorem announced_wakes {s : State γ} (hr : (machine gen cfg).ReachableBy NothingNewAtReset s)
    {images : List String} {path : String} {due : Int}
    (hp : s.pc = .waitNext (.sample images path) due ∨
      ∃ readyAt, s.pc = .waitReady (.sample images path) due readyAt)
    (hday : isNightNow cfg s = false) (ha : HasAnnounced s) :
    wake cfg s (.sample images path) = true := by
  have hbehind : s.pc.BehindSample := by
    obtain hp | ⟨readyAt, hp⟩ := hp <;> rw [hp] <;> trivial
  have hnew := newRemembered_inductive.of_reachable hr hbehind ha
  simp [wake, hnew, hday]

/-- A picture that is stored and announced while the loop waits behind a default image. -/
def pictureInWait : List Act :=
  List.replicate 5 Act.loop ++ Act.painted .shown :: List.replicate 2 Act.loop ++
    [Act.store ⟨1, "alice", "1.jpg", 0, 0⟩, .imageNew 1]

theorem announced_wakes_first :
    ∃ s due, (machine lowest defaultConfig).run (freshState [] [] ["a.png"]) pictureInWait = some s ∧
      s.pc = .waitNext (.sample ["a.png"] "a.png") due ∧ HasAnnounced s ∧
      wake defaultConfig s (.sample ["a.png"] "a.png") = true := by
  refine ⟨_, _, rfl, rfl, by decide, ?_⟩
  have hr := Machine.ReachableBy.run (G := NothingNewAtReset) pictureInWait
    (.init (freshState_init lowest [] [] ["a.png"] (by decide))) (by decide) rfl
  exact announced_wakes hr (.inl rfl) (by decide) (by decide)

/-- The same picture during the paint of the default image: its flag is wiped behind the paint, and
the loop waits for the whole interval. -/
theorem new_picture_wiped :
    ∃ s due, (machine lowest defaultConfig).Reachable s ∧
      s.pc = .waitNext (.sample ["a.png"] "a.png") due ∧ s.settings.slideshowActive_ = true ∧
      isNightNow defaultConfig s = false ∧ HasAnnounced s ∧
      wake defaultConfig s (.sample ["a.png"] "a.png") = false := by
  obtain ⟨s, hr, due, h⟩ := Machine.exists_reachable_of_run
    (p := fun s => ∃ due, s.pc = .waitNext (.sample ["a.png"] "a.png") due ∧
      s.settings.slideshowActive_ = true ∧ isNightNow defaultConfig s = false ∧ HasAnnounced s ∧
      wake defaultConfig s (.sample ["a.png"] "a.png") = false)
    (List.replicate 5 .loop ++ [.store ⟨1, "alice", "1.jpg", 0, 0⟩, .imageNew 1, .painted .shown,
      .loop, .loop])
    (freshState_init lowest [] [] ["a.png"] (by decide))
    ⟨_, rfl, _, rfl, rfl, by decide, by decide, by decide⟩
  exact ⟨s, due, hr, h⟩

end ShareFrame.DisplayImageLoop
