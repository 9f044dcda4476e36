import ShareFrame.Task.Loop.MissingFiles

/-!
# The same picture twice in a row

Ordered playback steps on from the current picture and never repeats it
(`nextAfter_ne`). The shuffle bag only knows what it gave itself: its pick differs
from the current picture where the bag `Remembers` that one (`next_ne`), and in a
run where that is so at every shuffle pick no picture comes twice in a row
(`shuffle_no_repeat`). A picture that is shown on request, in another mode, or is not
painted after the pick, sets the two memories apart (`shown_twice`); while none of
this happens they agree (`Agrees.step`).
-/

namespace ShareFrame.Playback

theorem nextAfter_ne {seq : List Int} (h : seq.Nodup) (hlen : 1 < seq.length) (c : Int) :
    nextAfter seq c ≠ c := by
  intro heq
  have hnext := nextAfter_start h (by omega) c
  rw [heq, startAfter] at hnext
  split at hnext
  next hc =>
    -- the next position is another one
    have hi := List.idxOf_lt_length_of_mem hc
    have hself : seq[seq.idxOf c]? = some c := by
      rw [List.getElem?_eq_getElem hi, List.getElem_idxOf hi]
    have hpos := (List.getElem?_inj hi h).mp (hself.trans hnext)
    by_cases hlast : seq.idxOf c + 1 < seq.length
    · rw [Nat.mod_eq_of_lt hlast] at hpos
      omega
    · rw [show seq.idxOf c + 1 = seq.length by omega, Nat.mod_self] at hpos
      omega
  next hc => exact hc (List.mem_of_getElem? hnext.symm)

namespace ShuffleBag

variable {γ : Type} {gen : Generator γ}

/-- The bag has played the picture in this cycle, as the last one if that leaves none to play. -/
def Remembers (b : ShuffleBag γ) (ids : List Int) (c : Int) : Prop :=
  c ∈ b.played ∧ ((∀ x ∈ ids, x ∈ b.played) → (b.played.filter (· ∈ ids)).getLast? = some c)

instance (b : ShuffleBag γ) (ids : List Int) (c : Int) : Decidable (b.Remembers ids c) := by
  unfold Remembers; infer_instance

theorem next_ne {b : ShuffleBag γ} (h : b.Ok) {ids : List Int} (hids : ids.Nodup)
    (hlen : 1 < ids.length) {c : Int} (hc : c ∈ ids → b.Remembers ids c) :
    ((b.sync gen ids).next gen).1 ≠ c := by
  obtain ⟨hok, hmem, -, hplayed⟩ := sync_spec gen h hids
  obtain ⟨hlength, -, hall⟩ := holds_spec hok hids hmem
  have hne : (b.sync gen ids).order_ ≠ [] := List.ne_nil_of_length_pos (by omega)
  obtain ⟨-, hpick, -, hmid, hend⟩ := next_spec gen hok hne
  rintro rfl
  obtain ⟨hold, hlast⟩ := hc ((hmem _).mp hpick)
  by_cases hex : (b.sync gen ids).order_.length ≤ (b.sync gen ids).played_
  · -- a new cycle: all that stay were played
    have hsynced := hall hex
    refine hend hex (by omega) ?_
    rw [← hsynced, hplayed]
    refine hlast fun x hx => ?_
    have hx := (hmem x).mpr hx
    rw [← hsynced, hplayed] at hx
    exact (List.mem_filter.mp hx).1
  · refine hmid hex ?_
    rw [hplayed]
    exact List.mem_filter.mpr ⟨hold, decide_eq_true ((hmem _).mp hpick)⟩

/-- The bag remembers what it gave last. -/
theorem remembers_of_getLast {b : ShuffleBag γ} {ids : List Int} {c : Int} (hc : c ∈ ids)
    (h : b.played.getLast? = some c) : b.Remembers ids c := by
  obtain ⟨rest, hrest⟩ := List.getLast?_eq_some_iff.mp h
  rw [Remembers, hrest]
  refine ⟨by simp, fun _ => ?_⟩
  rw [List.filter_append, List.filter_singleton, decide_eq_true hc, cond_true, List.getLast?_concat]

/-- What a pick gives is what the bag has played last. -/
theorem getLast_next {b : ShuffleBag γ} (h : b.Ok) {ids : List Int} (hids : ids.Nodup)
    (hne : ids ≠ []) : ((b.sync gen ids).next gen).2.played.getLast? =
      some ((b.sync gen ids).next gen).1 := by
  obtain ⟨hok, hmem, -⟩ := sync_spec gen h hids
  obtain ⟨x, hx⟩ := List.exists_mem_of_ne_nil ids hne
  obtain ⟨-, -, hplayed, -⟩ := next_spec gen hok (List.ne_nil_of_mem ((hmem x).mpr hx))
  rw [hplayed, List.getLast?_concat]

end ShuffleBag

end ShareFrame.Playback

namespace ShareFrame.DisplayImageLoop

open Playback Transition

variable {γ : Type} {gen : Generator γ} {cfg : Config} {s s' : State γ}

/-- A stored picture is asked for. -/
def Asked (s : State γ) (all : List Image) : Prop :=
  s.pendingShowId_ ≠ 0 ∧ s.pendingShowId_ ∈ ids all

instance (s : State γ) (all : List Image) : Decidable (Asked s all) := by
  unfold Asked; infer_instance

/-- A shuffle pick knows the current picture. -/
def KnowsCurrent (s : State γ) (all : List Image) : Prop :=
  s.settings.playbackMode_ = .shuffle → ¬ Asked s all → s.currentImageId_ ∈ ids all →
    s.shuffle_.Remembers (ids all) s.currentImageId_

instance (s : State γ) (all : List Image) : Decidable (KnowsCurrent s all) := by
  unfold KnowsCurrent; infer_instance

/-- The list of a pick. -/
def Pc.given : Pc → Option (List Image)
  | .pick all => some all
  | _ => none

/-- The condition on a step: a pick knows the current picture. -/
def Knowing (s : State γ) (a : Act) : Prop :=
  a = .loop → ∀ all ∈ s.pc.given, KnowsCurrent s all

instance (s : State γ) (a : Act) : Decidable (Knowing s a) := by unfold Knowing; infer_instance

theorem takeNext_ne (hbag : s.shuffle_.Ok) {all : List Image} (h : Stored all)
    (hlen : 2 ≤ all.length) (hknows : KnowsCurrent s all)
    (heq : (takeNext gen s all).1 = s.currentImageId_) :
    s.pendingShowId_ = s.currentImageId_ := by
  simp only [takeNext] at heq
  split at heq
  next => exact heq
  next hno =>
    exfalso
    simp only [pickNext] at heq
    split at heq
    next hmode =>
      have hp := arrange_perm h.nodup s.settings.playbackMode_ s.settings.customOrder_
      have hlength := hp.length_eq
      rw [List.length_map] at hlength
      exact nextAfter_ne (hp.nodup_iff.mpr h.nodup) (by omega) _ heq
    next hmode =>
      refine ShuffleBag.next_ne hbag h.nodup (by rw [length_ids]; omega) (fun hc => ?_) heq
      exact hknows (by simpa using hmode) hno hc

/-! ## When the memories agree -/

/-- The picture between the pick and the assignment of `currentImageId_`. -/
def Pc.taken : Pc → Option Image
  | .checkFile image | .userPainting image | .userPainted image => some image
  | _ => none

/-- What sets the memories apart: a switch to shuffle, a shuffle pick of a picture that is
asked for, and a picture taken in a shuffle whose paint throws or is cancelled. -/
def Undivided (s : State γ) : Act → Prop
  | .updatePlaybackOrder mode _ => mode = .shuffle → s.settings.playbackMode_ = .shuffle
  | .loop => match s.pc with
    | .pick all => s.settings.playbackMode_ = .shuffle → ¬ Asked s all
    | _ => True
  | .loopThrows => s.settings.playbackMode_ = .shuffle → s.pc.taken = none
  | .painted outcome => s.settings.playbackMode_ = .shuffle → s.pc.taken.isSome →
    outcome = .shown ∨ s.stopRequested = false
  | _ => True

/-- In a shuffle the picture that is taken, or else the current one, is what the bag gave last. -/
def Agrees (s : State γ) : Prop :=
  s.settings.playbackMode_ = .shuffle →
    match s.pc.taken with
    | some image => s.shuffle_.played.getLast? = some image.id
    | none => s.currentImageId_ = 0 ∨ s.shuffle_.played.getLast? = some s.currentImageId_

theorem Agrees.keep (h : Agrees s)
    (hmode : s'.settings.playbackMode_ = .shuffle → s.settings.playbackMode_ = .shuffle)
    (hbag : s'.shuffle_ = s.shuffle_) (hcurrent : s'.currentImageId_ = s.currentImageId_)
    (htaken : s'.pc.taken = s.pc.taken) : Agrees s' := by
  intro hshuffle
  rw [hbag, hcurrent, htaken]
  exact h (hmode hshuffle)

/-- The picture that is taken becomes current. -/
theorem Agrees.settle {image : Image} (h : Agrees s) (htaken : s.pc.taken = some image)
    (hmode : s'.settings = s.settings) (hbag : s'.shuffle_ = s.shuffle_)
    (hcurrent : s'.currentImageId_ = image.id) (hnone : s'.pc.taken = none) : Agrees s' := by
  intro hshuffle
  have hlast := h (hmode ▸ hshuffle)
  rw [htaken] at hlast
  rw [hnone, hbag, hcurrent]
  exact .inr hlast

theorem Agrees.pick (hbag : s.shuffle_.Ok) {all : List Image} (h : Stored all)
    (hpc : s.pc = .pick all) (hask : s.settings.playbackMode_ = .shuffle → ¬ Asked s all)
    (hs : loop gen cfg s = some s') : Agrees s' := by
  simp only [loop, hpc, Option.map_eq_some_iff] at hs
  obtain ⟨image, hfind, rfl⟩ := hs
  obtain ⟨-, bag, -, htaken⟩ := takeNext_spec gen hbag h
  intro hshuffle
  have hshuffle : s.settings.playbackMode_ = .shuffle := by
    rw [htaken] at hshuffle
    exact hshuffle
  have hne : ids all ≠ [] := fun hnil => h.ne_nil (List.map_eq_nil_iff.mp hnil)
  have hid : image.id = (takeNext gen s all).1 := by simpa using List.find?_some hfind
  show (takeNext gen s all).2.shuffle_.played.getLast? = some image.id
  have hno : ¬ (s.pendingShowId_ ≠ 0 ∧ s.pendingShowId_ ∈ all.map (·.id)) := hask hshuffle
  have hmode : ¬ s.settings.playbackMode_ ≠ .shuffle := not_not.mpr hshuffle
  rw [hid, takeNext, if_neg hno, pickNext, if_neg hmode]
  exact ShuffleBag.getLast_next hbag h.nodup hne

theorem Agrees.loop (hsound : Sound s) (h : Agrees s) (hG : Undivided s .loop)
    (hs : loop gen cfg s = some s') : Agrees s' := by
  cases hpc : s.pc with
  | pick all =>
    simp only [Undivided, hpc] at hG
    exact .pick hsound.bag (hsound.pick all hpc) hpc hG hs
  | checkFile image =>
    have htaken : s.pc.taken = some image := by rw [hpc]; rfl
    simp only [DisplayImageLoop.loop, hpc] at hs
    split at hs <;> cases hs
    · exact h.settle htaken rfl rfl rfl rfl
    · exact h.keep id rfl rfl htaken.symm
  | userPainted image =>
    have htaken : s.pc.taken = some image := by rw [hpc]; rfl
    simp only [DisplayImageLoop.loop, hpc] at hs
    cases hs
    exact h.settle htaken rfl rfl rfl rfl
  | userPainting image =>
    simp only [DisplayImageLoop.loop, hpc] at hs
    cases hs
  | waitNext shown due =>
    have htaken : s.pc.taken = none := by rw [hpc]; rfl
    simp only [DisplayImageLoop.loop, hpc] at hs
    split at hs <;> cases hs
    obtain he | he | ⟨readyAt, he⟩ := afterWait_cases cfg s shown due <;> rw [he]
    · cases shown <;> exact h.keep id rfl rfl htaken.symm
    · exact h.keep id rfl rfl rfl
    · exact h.keep id rfl rfl htaken.symm
  | waitReady shown due readyAt =>
    have htaken : s.pc.taken = none := by rw [hpc]; rfl
    simp only [DisplayImageLoop.loop, hpc] at hs
    split at hs <;> [skip; split at hs] <;> cases hs
    · cases shown <;> exact h.keep id rfl rfl htaken.symm
    · exact h.keep id rfl rfl htaken.symm
  | _ =>
    have htaken : s.pc.taken = none := by rw [hpc]; rfl
    simp only [DisplayImageLoop.loop, hpc] at hs
    (try split at hs) <;> (try split at hs) <;> cases hs <;> exact h.keep id rfl rfl htaken.symm

theorem Agrees.painted (h : Agrees s) {outcome : Paint} (hG : Undivided s (.painted outcome))
    (hs : painted s outcome = some s') : Agrees s' := by
  have hpanel : (panelAfter s outcome).settings = s.settings ∧
      (panelAfter s outcome).shuffle_ = s.shuffle_ ∧
      (panelAfter s outcome).currentImageId_ = s.currentImageId_ := by
    cases outcome <;> exact ⟨rfl, rfl, rfl⟩
  obtain ⟨hsettings, hbag, hcurrent⟩ := hpanel
  have hmode : (panelAfter s outcome).settings.playbackMode_ = .shuffle →
      s.settings.playbackMode_ = .shuffle := fun hshuffle => hsettings ▸ hshuffle
  simp only [DisplayImageLoop.painted] at hs
  split at hs
  next hpc =>
    have htaken : s.pc.taken = none := by rw [hpc]; rfl
    split at hs <;> [skip; split at hs] <;> cases hs <;>
      exact h.keep hmode hbag hcurrent htaken.symm
  next image hpc =>
    have htaken : s.pc.taken = some image := by rw [hpc]; rfl
    split at hs
    next => cases hs; exact h.keep hmode hbag hcurrent htaken.symm
    next hshown =>
      split at hs <;> cases hs
      next hstop =>
        -- a cancelled paint
        intro hshuffle
        obtain hshown' | hgoes := hG (hmode hshuffle) (by rw [htaken]; rfl)
        · exact absurd hshown' hshown
        · rw [hgoes] at hstop
          cases hstop
      next => exact h.keep hmode hbag hcurrent htaken.symm
  next hpc =>
    have htaken : s.pc.taken = none := by rw [hpc]; rfl
    cases hs
    exact h.keep hmode hbag hcurrent htaken.symm
  next => cases hs

theorem Agrees.step {a : Act} (hsound : Sound s) (h : Agrees s) (hG : Undivided s a)
    (hs : step gen cfg s a = some s') : Agrees s' := by
  cases a with
  | loop => exact h.loop hsound hG hs
  | painted outcome => exact h.painted hG hs
  | loopThrows =>
    have hcaught : s' = { s with refreshing_ := false, pc := .errorWait (inSecs s 5) } := by
      simp only [DisplayImageLoop.step, loopThrows] at hs
      split at hs <;> (try split at hs) <;> cases hs <;> rfl
    subst hcaught
    intro hshuffle
    have hagrees := h hshuffle
    rw [hG hshuffle] at hagrees
    exact hagrees
  | imageNew n =>
    simp only [DisplayImageLoop.step] at hs
    split at hs <;> cases hs
    exact h.keep id rfl rfl rfl
  | imageRemoved removed =>
    simp only [DisplayImageLoop.step] at hs
    split at hs <;> cases hs <;> exact h.keep id rfl rfl rfl
  | updatePlaybackOrder mode customOrder =>
    cases hs
    exact h.keep hG rfl rfl rfl
  | start =>
    simp only [DisplayImageLoop.step] at hs
    split at hs <;> cases hs
    next hpc => exact h.keep id rfl rfl (by rw [hpc]; rfl)
  | _ =>
    cases hs
    exact h.keep id rfl rfl rfl

theorem agrees_inductive :
    (machine gen cfg).Inductive Undivided fun s => Sound s ∧ Agrees s where
  init := by
    rintro s hinit
    refine ⟨sound_inductive.init s hinit, fun _ => ?_⟩
    obtain ⟨_, _, _, _, _, _, _, _, -, rfl⟩ := hinit
    exact Or.inl rfl
  step s a s' h hG hs := ⟨sound_inductive.step s a s' h.1 trivial hs, h.2.step h.1 hG hs⟩

theorem knowsCurrent_of_agrees (h : Agrees s) {all : List Image} (hpc : s.pc = .pick all)
    (hcurrent : s.currentImageId_ ≠ 0) : KnowsCurrent s all := by
  intro hshuffle _ hmem
  have hagrees := h hshuffle
  rw [hpc] at hagrees
  exact ShuffleBag.remembers_of_getLast hmem (hagrees.resolve_left hcurrent)

/-! ## Runs -/

/-- In every run whose shuffle picks know the current picture, a pick from two pictures or more is
another picture than the current one, unless that one is asked for. They know it in every run in
which nothing sets the memories apart. -/
theorem shuffle_no_repeat (gen : Generator γ) (cfg : Config) :
    (∀ s all, (machine gen cfg).ReachableBy Knowing s → s.pc = .pick all → 2 ≤ all.length →
      Knowing s .loop → (takeNext gen s all).1 = s.currentImageId_ →
        s.pendingShowId_ = s.currentImageId_) ∧
    ∀ s all, (machine gen cfg).ReachableBy Undivided s → s.pc = .pick all → s.currentImageId_ ≠ 0 →
      Knowing s .loop := by
  refine ⟨fun s all hreach hpc hlen hknows heq => ?_, fun s all hreach hpc hcurrent => ?_⟩
  · have hsound : Sound s := sound_inductive.of_reachable hreach.reachable
    exact takeNext_ne hsound.bag (hsound.pick all hpc) hlen (hknows rfl all (by rw [hpc]; rfl)) heq
  · obtain ⟨-, hagrees⟩ := agrees_inductive.of_reachable hreach
    intro _ given hgiven
    rw [hpc] at hgiven
    obtain rfl := Option.some.inj hgiven
    exact knowsCurrent_of_agrees hagrees hpc hcurrent

/-- Two stored pictures, in a shuffle. -/
def shuffledPair : State Unit :=
  { freshState [⟨1, "alice", "1.jpg", 0, 0⟩, ⟨2, "bob", "2.jpg", 0, 0⟩] ["1.jpg", "2.jpg"] [] with
    settings := { defaultSettings with playbackMode_ := .shuffle } }

theorem shuffledPair_init : (machine lowest defaultConfig).Init shuffledPair :=
  ⟨_, _, _, _, _, _, _, (), by decide, rfl⟩

/-- From the top of the loop through a paint to the next pick. -/
def oneRound : List Act :=
  [.loop, .loop, .loop, .loop, .painted .shown, .loop, .loop, .tick (86400 * second), .loop,
    .loop, .loop]

/-- The second pick: the bag gave the first picture. -/
theorem shuffle_no_repeat_second :
    ∃ s all, (machine lowest defaultConfig).run shuffledPair oneRound = some s ∧
    s.pc = .pick all ∧ s.currentImageId_ = 2 ∧ (takeNext lowest s all).1 ≠ 2 := by
  refine ⟨_, _, rfl, rfl, rfl, fun heq => ?_⟩
  have hreach := Machine.ReachableBy.run (M := machine lowest defaultConfig) (G := Knowing) oneRound
    (.init shuffledPair_init) (by decide) rfl
  have hsame := (shuffle_no_repeat lowest defaultConfig).1 _ _ hreach rfl (by decide) (by decide) heq
  exact absurd hsame (by decide)

/-- The second picture is asked for and shown; the bag, which was not asked, gives it again. -/
theorem shown_twice : ∃ s all, (machine lowest defaultConfig).Reachable s ∧ s.pc = .pick all ∧
    all.length = 2 ∧ s.currentImageId_ = 2 ∧ s.pendingShowId_ = 0 ∧
    (takeNext lowest s all).1 = s.currentImageId_ :=
  ⟨_, _, Machine.reachable_run (M := machine lowest defaultConfig) (.showImage 2 :: oneRound)
    shuffledPair_init rfl, rfl, rfl, rfl, rfl, rfl⟩

end ShareFrame.DisplayImageLoop
