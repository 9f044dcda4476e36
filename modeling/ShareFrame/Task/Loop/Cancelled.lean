import ShareFrame.Task.Loop.MissingFiles

/-!
# Cancelled paints

The loop takes a picture before it paints it. A stop that comes before or during
the paint leaves the picture unpainted, and the loop goes on from the place it had
moved to once it is started again. `cancelled_paint` says when that is the place
from before the pick. A step up to the restart keeps the place (`Unpainted.step`),
so the pick alone decides.
-/

namespace ShareFrame.DisplayImageLoop

open Playback Transition

variable {γ : Type} {gen : Generator γ} {cfg : Config}

/-! ## Picks -/

/-- What the loop takes its next picture from. -/
inductive Pick where
  | user (all : List Image)
  | sample (images : List String)
  deriving DecidableEq

/-- The pick that the next step of the loop makes. -/
def pickAt (cfg : Config) (s : State γ) : Option Pick :=
  match s.pc with
  | .pick all => some (.user all)
  | .defaultsReady images =>
    if secondsUntilRefreshReady cfg s > 0 then none else some (.sample images)
  | _ => none

/-- `_takeNext` takes the picture asked for. -/
def Serves (s : State γ) (all : List Image) : Prop :=
  s.pendingShowId_ ≠ 0 ∧ s.pendingShowId_ ∈ ids all

/-- The default image that comes next. -/
def nextSample (s : State γ) (images : List String) : String :=
  images.getD (if s.defaultImageIdx_ ≥ images.length then 0 else s.defaultImageIdx_) ""

/-- The two states pick the same picture. -/
def SamePick (gen : Generator γ) (s t : State γ) : Pick → Prop
  | .user all => (takeNext gen t all).1 = (takeNext gen s all).1
  | .sample images => nextSample t images = nextSample s images

/-! ## From a pick to the restart -/

/-- The picture taken is not painted: its file exists, its paint ends without a picture under a
stop, and the loop is not started again. -/
def Cancels (s : State γ) : Act → Prop
  | .loop => match s.pc with
    | .checkFile image => image.imagePath ∈ s.files
    | _ => True
  | .painted outcome => outcome ≠ .shown ∧ s.stopRequested = true
  | .loopThrows | .start => False
  | _ => True

instance (s : State γ) (a : Act) : Decidable (Cancels s a) :=
  match a with
  | .loop => by
    unfold Cancels
    simp only
    split <;> infer_instance
  | .painted outcome => inferInstanceAs (Decidable (outcome ≠ .shown ∧ s.stopRequested = true))
  | .loopThrows | .start => inferInstanceAs (Decidable False)
  | .tick _ | .imageNew _ | .imageRemoved _ | .skipImage | .showImage _ | .scheduledClear
  | .setSlideshowActive _ | .updateInterval _ | .updateNightMode _ | .updatePlaybackOrder _ _
  | .updateCustomization _ | .store _ | .remove _ | .setFiles _ | .setDefaultImages _ | .panel _
  | .requestStop => inferInstanceAs (Decidable True)

/-- The id a step asks for. -/
def Act.asksFor : Act → Option Int
  | .showImage id => some id
  | _ => none

/-- The last id asked for. -/
def lastAsked : List Act → Option Int
  | [] => none
  | a :: as => (lastAsked as).or a.asksFor

/-- The loop is between a pick and the end of a cancelled paint. -/
def Unpainted (s : State γ) : Prop :=
  match s.pc with
  | .checkFile _ | .userPainting _ | .samplePainting _ _ | .exited => True
  | .top => s.stopRequested = true
  | _ => False

/-- The place of the slideshow: what a pick starts from, a pending request apart. -/
structure SamePlace (s t : State γ) : Prop where
  order : t.shuffle_.order_ = s.shuffle_.order_
  played : t.shuffle_.played_ = s.shuffle_.played_
  current : t.currentImageId_ = s.currentImageId_
  index : t.defaultImageIdx_ = s.defaultImageIdx_

theorem SamePlace.refl (s : State γ) : SamePlace s s := ⟨rfl, rfl, rfl, rfl⟩

theorem SamePlace.trans {s t u : State γ} (h : SamePlace s t) (h' : SamePlace t u) :
    SamePlace s u :=
  ⟨h'.order.trans h.order, h'.played.trans h.played, h'.current.trans h.current,
    h'.index.trans h.index⟩

/-- What a step up to the restart does. -/
structure Keeps (s : State γ) (a : Act) (s' : State γ) : Prop where
  unpainted : Unpainted s'
  place : SamePlace s s'
  pending : s'.pendingShowId_ = a.asksFor.getD s.pendingShowId_

/-- The loop's own steps. -/
theorem Unpainted.loop {s s' : State γ} (h : Unpainted s) (hc : Cancels s .loop)
    (hs : loop gen cfg s = some s') : Keeps s .loop s' := by
  unfold Unpainted at h
  simp only [Cancels] at hc
  split at h
  next image hpc =>
    simp only [hpc] at hc
    simp only [DisplayImageLoop.loop, hpc, if_neg (not_not.mpr hc)] at hs
    cases hs
    exact ⟨trivial, ⟨rfl, rfl, rfl, rfl⟩, rfl⟩
  next hpc => simp [DisplayImageLoop.loop, hpc] at hs
  next hpc => simp [DisplayImageLoop.loop, hpc] at hs
  next hpc => simp [DisplayImageLoop.loop, hpc] at hs
  next hpc =>
    -- a stop was requested, so the loop is left
    simp only [DisplayImageLoop.loop, hpc, h, if_true] at hs
    cases hs
    exact ⟨trivial, ⟨rfl, rfl, rfl, rfl⟩, rfl⟩
  next => exact h.elim

theorem Unpainted.painted {s s' : State γ} (h : Unpainted s) {outcome : Paint}
    (hc : Cancels s (.painted outcome)) (hs : painted s outcome = some s') :
    Keeps s (.painted outcome) s' := by
  obtain ⟨hshown, hstop⟩ := hc
  have hplace : SamePlace s (panelAfter s outcome) := by
    cases outcome <;> exact ⟨rfl, rfl, rfl, rfl⟩
  have hpending : (panelAfter s outcome).pendingShowId_ = s.pendingShowId_ := by
    cases outcome <;> rfl
  have hstop' : (panelAfter s outcome).stopRequested = true := by cases outcome <;> exact hstop
  simp only [DisplayImageLoop.painted, if_neg hshown, hstop, if_true] at hs
  split at hs
  next => cases hs; exact ⟨hstop', ⟨hplace.1, hplace.2, hplace.3, hplace.4⟩, hpending⟩
  next => cases hs; exact ⟨trivial, ⟨hplace.1, hplace.2, hplace.3, hplace.4⟩, hpending⟩
  next hpc => simp [Unpainted, hpc] at h
  next => cases hs

/-- A step of another thread that keeps the loop where it is. -/
theorem Unpainted.other {s s' : State γ} (h : Unpainted s) {a : Act} (hpc : s'.pc = s.pc)
    (hstop : s.stopRequested = true → s'.stopRequested = true) (hplace : SamePlace s s')
    (hpending : s'.pendingShowId_ = a.asksFor.getD s.pendingShowId_) : Keeps s a s' := by
  refine ⟨?_, hplace, hpending⟩
  unfold Unpainted at h ⊢
  rw [hpc]
  split at h <;> first | trivial | exact hstop h

theorem Unpainted.step {s s' : State γ} (h : Unpainted s) {a : Act} (hc : Cancels s a)
    (hs : (machine gen cfg).step s a = some s') : Keeps s a s' := by
  cases a with
  | loop => exact h.loop hc hs
  | painted outcome => exact h.painted hc hs
  | loopThrows => exact hc.elim
  | start => exact hc.elim
  | imageNew n =>
    simp only [machine, DisplayImageLoop.step] at hs
    split at hs <;> cases hs
    exact h.other rfl id ⟨rfl, rfl, rfl, rfl⟩ rfl
  | imageRemoved removed =>
    simp only [machine, DisplayImageLoop.step] at hs
    split at hs <;> cases hs <;> exact h.other rfl id ⟨rfl, rfl, rfl, rfl⟩ rfl
  | requestStop => cases hs; exact h.other rfl (fun _ => rfl) ⟨rfl, rfl, rfl, rfl⟩ rfl
  | _ => cases hs; exact h.other rfl id ⟨rfl, rfl, rfl, rfl⟩ rfl

/-- Up to the restart the place stays, and the last request is the one that is pending. -/
theorem Unpainted.run {s u : State γ} {as : List Act} (h : Unpainted s)
    (hrun : (machine gen cfg).RunBy Cancels s as u) :
    SamePlace s u ∧ u.pendingShowId_ = (lastAsked as).getD s.pendingShowId_ := by
  induction as generalizing s with
  | nil =>
    obtain ⟨-, hrun⟩ := hrun
    cases hrun
    exact ⟨.refl _, rfl⟩
  | cons a as ih =>
    obtain ⟨t, hc, hs, hrun⟩ := hrun.uncons
    have hstep := h.step hc hs
    obtain ⟨hplace, hpending⟩ := ih hstep.unpainted hrun
    refine ⟨hstep.place.trans hplace, ?_⟩
    rw [hpending, hstep.pending, lastAsked]
    cases lastAsked as <;> rfl

/-! ## The pick -/

/-- The place and the request from before the pick; a request made since takes the place of the
pending one. -/
def Restored (s : State γ) (as : List Act) (t : State γ) : Prop :=
  SamePlace s t ∧ t.pendingShowId_ = (lastAsked as).getD s.pendingShowId_

/-- No request is lost with the pick, and the pick moves nothing on: in a shuffle it serves a
request or the cycle is a round of one picture, and a default image is not the first of a new
round. -/
def Undisturbed (s : State γ) (as : List Act) : Pick → Prop
  | .user all => (s.pendingShowId_ = 0 ∨ lastAsked as ≠ none) ∧
      (s.settings.playbackMode_ = .shuffle → Serves s all ∨ s.shuffle_.OneRound (ids all))
  | .sample images => s.defaultImageIdx_ = 0 ∨ s.defaultImageIdx_ < images.length

/-- What `_takeNext` does to the place. -/
theorem takeNext_place (gen : Generator γ) {s : State γ} (hs : Sound s) {all : List Image} (h : Stored all) :
    SamePlace s (takeNext gen s all).2 ↔
      (s.settings.playbackMode_ = .shuffle → Serves s all ∨ s.shuffle_.OneRound (ids all)) := by
  have hids : ids all ≠ [] := by simpa [ids] using h.ne_nil
  unfold takeNext
  simp only
  split
  next hserves => exact ⟨fun _ _ => .inl hserves, fun _ => ⟨rfl, rfl, rfl, rfl⟩⟩
  next hserves =>
    unfold pickNext
    simp only
    split
    next hmode => exact ⟨fun _ hm => absurd hm hmode, fun _ => ⟨rfl, rfl, rfl, rfl⟩⟩
    next hmode =>
      have hiff := ShuffleBag.sync_next_eq_iff gen hs.bag h.nodup hids
      constructor
      · exact fun hp _ => .inr (hiff.mp ⟨hp.order, hp.played⟩)
      · intro hu
        obtain hreq | hone := hu (not_not.mp hmode)
        · exact absurd hreq hserves
        · obtain ⟨horder, hplayed⟩ := hiff.mpr hone
          exact ⟨horder, hplayed, rfl, rfl⟩

/-- What a pick does. -/
theorem pick_spec {s s₁ : State γ} (h : Sound s) {pick : Pick} (hpick : pickAt cfg s = some pick)
    (hs : loop gen cfg s = some s₁) (as : List Act) :
    Unpainted s₁ ∧ (SamePlace s s₁ ∧
      (lastAsked as).getD s₁.pendingShowId_ = (lastAsked as).getD s.pendingShowId_ ↔
        Undisturbed s as pick) := by
  unfold pickAt at hpick
  split at hpick
  next all hpc =>
    cases hpick
    have hstored := h.pick all hpc
    obtain ⟨-, bag, -, htaken⟩ := takeNext_spec gen h.bag hstored
    have hplace := takeNext_place gen h hstored
    simp only [loop, hpc, Option.map_eq_some_iff] at hs
    obtain ⟨image, -, rfl⟩ := hs
    refine ⟨trivial, ?_⟩
    rw [Undisturbed, ← hplace, and_comm]
    refine and_congr ?_ ⟨fun hp => ⟨hp.1, hp.2, hp.3, hp.4⟩, fun hp => ⟨hp.1, hp.2, hp.3, hp.4⟩⟩
    rw [htaken]
    cases lastAsked as with
    | none => simp [eq_comm]
    | some id => simp
  next images hpc =>
    split at hpick
    · cases hpick
    next hready =>
      cases hpick
      simp only [loop, hpc, if_neg hready] at hs
      cases hs
      refine ⟨trivial, ?_⟩
      rw [Undisturbed]
      constructor
      · rintro ⟨hp, -⟩
        have hindex := hp.index
        simp only at hindex
        split at hindex <;> omega
      · intro hu
        refine ⟨⟨rfl, rfl, rfl, ?_⟩, rfl⟩
        simp only
        split <;> omega
  next => cases hpick

/-- From the same place the same picture comes. -/
theorem SamePlace.pick {s t : State γ} (h : Sound s) (hplace : SamePlace s t) {as : List Act}
    (hasked : lastAsked as = none) (hpending : t.pendingShowId_ = s.pendingShowId_) {pick : Pick}
    (hpick : pickAt cfg s = some pick) (hu : Undisturbed s as pick) :
    SamePick gen s { t with settings := s.settings } pick := by
  unfold pickAt at hpick
  split at hpick
  next all hpc =>
    cases hpick
    obtain ⟨hnone, hmode⟩ := hu
    have hzero : s.pendingShowId_ = 0 := hnone.resolve_right (absurd hasked)
    simp only [SamePick, takeNext, hpending, hzero, ne_eq, not_true_eq_false, false_and, if_false]
    unfold pickNext
    simp only
    split
    next => rw [hplace.current]
    next hm =>
      have hone := (hmode (not_not.mp hm)).resolve_left fun hserves => hserves.1 hzero
      have hok : t.shuffle_.Ok :=
        ⟨hplace.order ▸ h.bag.nodup, by rw [hplace.played, hplace.order]; exact h.bag.played_le⟩
      have honet : t.shuffle_.OneRound (ids all) :=
        ⟨hone.1, hplace.order.trans hone.2.1, hplace.played.trans hone.2.2⟩
      -- both rounds consist of the one stored picture
      exact List.singleton_injective ((honet.next gen hok).1.trans (hone.next gen h.bag).1.symm)
  next images hpc =>
    split at hpick
    · cases hpick
    · cases hpick
      simp only [SamePick, nextSample, hplace.index]
  next => cases hpick

variable (gen cfg) in
/-- The loop picks in `s`, the paint is cancelled and the loop is started again in `t`. -/
def Interrupted (s : State γ) (pick : Pick) (as : List Act) (t : State γ) : Prop :=
  pickAt cfg s = some pick ∧ ∃ s₁ u, (machine gen cfg).step s .loop = some s₁ ∧
    (machine gen cfg).RunBy Cancels s₁ as u ∧ (machine gen cfg).step u .start = some t

/-- After a cancelled paint and a restart everything is as before the pick if and only if the pick
disturbs nothing, and then the picture is picked again while no other one is asked for. -/
theorem cancelled_paint {s t : State γ} {pick : Pick} {as : List Act}
    (hr : (machine gen cfg).Reachable s) (h : Interrupted gen cfg s pick as t) :
    (Restored s as t ↔ Undisturbed s as pick) ∧
      (Undisturbed s as pick → lastAsked as = none →
        SamePick gen s { t with settings := s.settings } pick) := by
  obtain ⟨hpick, s₁, u, hs, hrun, ht⟩ := h
  have hsound := sound_inductive.of_reachable hr
  obtain ⟨hunpainted, hiff⟩ := pick_spec hsound hpick hs as
  obtain ⟨hplace, hpending⟩ := hunpainted.run hrun
  have hstart : t = { u with stopRequested := false, pc := .top } := by
    simp only [machine, step] at ht
    split at ht <;> cases ht
    rfl
  have hfrom : SamePlace s₁ t := by
    rw [hstart]
    exact ⟨hplace.1, hplace.2, hplace.3, hplace.4⟩
  have hto : SamePlace t s₁ :=
    ⟨hfrom.order.symm, hfrom.played.symm, hfrom.current.symm, hfrom.index.symm⟩
  have hpending' : t.pendingShowId_ = (lastAsked as).getD s₁.pendingShowId_ := by
    rw [hstart]
    exact hpending
  have hrestored : Restored s as t ↔ Undisturbed s as pick := by
    rw [← hiff, Restored, hpending']
    exact and_congr_left fun _ =>
      ⟨fun hp : SamePlace s t => hp.trans hto, fun hp : SamePlace s s₁ => hp.trans hfrom⟩
  refine ⟨hrestored, fun hu hasked => ?_⟩
  obtain ⟨hsame, hsamePending⟩ := hrestored.mpr hu
  rw [hasked] at hsamePending
  exact hsame.pick hsound hasked hsamePending hpick hu

/-- Two stored pictures with their files. -/
def twoPictures : List Image := [⟨1, "alice", "1.jpg", 0, 0⟩, ⟨2, "bob", "2.jpg", 0, 0⟩]

def twoStored : State Unit := freshState twoPictures ["1.jpg", "2.jpg"] []

theorem twoStored_init : (machine lowest defaultConfig).Init twoStored :=
  freshState_init lowest twoPictures ["1.jpg", "2.jpg"] [] (by decide)

/-- The paint waits, and is refused after the stop. -/
def stopInPaint : List Act := [.loop, .tick 1, .requestStop, .painted .refused]

theorem cancelled_paint_chronological :
    ∃ s t, (machine lowest defaultConfig).run twoStored [.loop, .loop] = some s ∧
      Interrupted lowest defaultConfig s (.user twoPictures) stopInPaint t ∧
      Restored s stopInPaint t ∧ (takeNext lowest t twoPictures).1 = 1 := by
  refine ⟨_, _, rfl, ⟨rfl, _, _, rfl, ⟨by decide, rfl⟩, rfl⟩, ?_, by decide⟩
  have hr := Machine.reachable_run [.loop, .loop] twoStored_init rfl
  exact (cancelled_paint hr ⟨rfl, _, _, rfl, ⟨by decide, rfl⟩, rfl⟩).1.mpr
    ⟨.inl rfl, fun hmode => nomatch hmode⟩

/-- A cancelled paint loses the request it was to serve, and in a shuffle the picture is left out of
the cycle: another one is picked next. -/
theorem cancelled_paint_moves_on :
    (∃ s t, (machine lowest defaultConfig).Reachable s ∧ s.pendingShowId_ = 2 ∧
      Interrupted lowest defaultConfig s (.user twoPictures) stopInPaint t ∧
      t.pendingShowId_ = 0 ∧ ¬ Restored s stopInPaint t ∧
      ¬ SamePick lowest s { t with settings := s.settings } (.user twoPictures)) ∧
    ∃ s t, (machine lowest defaultConfig).Reachable s ∧ s.pendingShowId_ = 0 ∧
      s.settings.playbackMode_ = .shuffle ∧
      Interrupted lowest defaultConfig s (.user twoPictures) stopInPaint t ∧
      ¬ Restored s stopInPaint t ∧
      ¬ SamePick lowest s { t with settings := s.settings } (.user twoPictures) := by
  constructor
  · refine ⟨_, _, Machine.reachable_run [.showImage 2, .loop, .loop] twoStored_init rfl, rfl,
      ⟨rfl, _, _, rfl, ⟨by decide, rfl⟩, rfl⟩, rfl, fun h => ?_, by unfold SamePick; decide⟩
    exact absurd h.2 (by decide)
  · refine ⟨_, _, Machine.reachable_run [.updatePlaybackOrder .shuffle [], .loop, .loop]
      twoStored_init rfl, rfl, rfl, ⟨rfl, _, _, rfl, ⟨by decide, rfl⟩, rfl⟩, fun h => ?_,
      by unfold SamePick; decide⟩
    exact absurd h.1.played (by decide)

end ShareFrame.DisplayImageLoop
