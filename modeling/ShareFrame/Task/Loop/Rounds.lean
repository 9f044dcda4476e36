import ShareFrame.Task.Loop.MissingFiles

/-!
# Rounds of ordered playback

With the pictures and the settings unchanged, picking and making the pick current
walks along the arranged order, from behind the current picture on and round and
round (`round_eq`). One round shows every picture once (`ordered_rounds`). A pick
of any mode is an id of the list it was given (`takeNext_exists`).
-/

namespace ShareFrame.DisplayImageLoop

open Playback Transition

variable {γ : Type} {gen : Generator γ} {cfg : Config}

/-- The play order of the pictures. -/
def order (s : State γ) (images : List Image) : List Int :=
  arrange images s.settings.playbackMode_ s.settings.customOrder_

variable (gen) in
/-- Pick, and make the pick current. -/
def round (images : List Image) (s : State γ) : State γ :=
  { (pickNext gen s images).2 with currentImageId_ := (pickNext gen s images).1 }

variable (gen) in
/-- The pick of round `k`. -/
def picked (s : State γ) (images : List Image) (k : Nat) : Int :=
  ((round gen images)^[k + 1] s).currentImageId_

theorem order_perm {images : List Image} (h : Stored images) (s : State γ) :
    (order s images).Perm (ids images) := arrange_perm h.nodup _ _

theorem order_spec {images : List Image} (h : Stored images) (s : State γ) :
    (order s images).Nodup ∧ (order s images).length = images.length ∧ 0 < images.length := by
  have hp := order_perm h s
  exact ⟨hp.nodup_iff.mpr h.nodup, hp.length_eq.trans (length_ids images),
    List.length_pos_iff.mpr h.ne_nil⟩

theorem round_eq {s : State γ} (hmode : s.settings.playbackMode_ ≠ .shuffle) (images : List Image) :
    round gen images s = { s with currentImageId_ := nextAfter (order s images) s.currentImageId_ } := by
  simp only [round, pickNext, if_pos hmode, order]

theorem round_iterate {s : State γ} (hmode : s.settings.playbackMode_ ≠ .shuffle)
    (images : List Image) (k : Nat) : (round gen images)^[k] s =
      { s with currentImageId_ := (nextAfter (order s images))^[k] s.currentImageId_ } := by
  induction k with
  | zero => rfl
  | succ k ih =>
    rw [Function.iterate_succ_apply', Function.iterate_succ_apply', ih]
    refine round_eq ?_ images
    exact hmode

theorem picked_eq {s : State γ} (hmode : s.settings.playbackMode_ ≠ .shuffle) {images : List Image}
    (h : Stored images) (k : Nat) : some (picked gen s images k) =
      (order s images)[(startAfter (order s images) s.currentImageId_ + k) % images.length]? := by
  obtain ⟨hnodup, hlen, hpos⟩ := order_spec h s
  rw [picked, round_iterate hmode]
  have hnext := nextAfter_iterate hnodup (by omega) s.currentImageId_ k
  rwa [hlen] at hnext

/-- In an order other than shuffle the picks of one round are the play order, taken up behind the
current picture, or at the front if that is not stored; every picture comes once, and the next round
is the same. -/
theorem ordered_rounds {s : State γ} (hmode : s.settings.playbackMode_ ≠ .shuffle)
    {images : List Image} (h : Stored images) :
    ∃ j, (List.range images.length).map (picked gen s images) = (order s images).rotate j ∧
      (s.currentImageId_ ∉ ids images → j = 0) ∧
      (∀ i, (order s images)[i]? = some s.currentImageId_ → j = i + 1) ∧
      ((List.range images.length).map (picked gen s images)).Perm (ids images) ∧
      ∀ k, picked gen s images (images.length + k) = picked gen s images k := by
  obtain ⟨hnodup, hlen, hpos⟩ := order_spec h s
  have hperm := order_perm h s
  have hround : (List.range images.length).map (picked gen s images) =
      (order s images).rotate (startAfter (order s images) s.currentImageId_) := by
    refine List.ext_getElem (by simp [hlen]) fun k hk hk' => ?_
    have hlt : k < (order s images).length := by rwa [List.length_rotate] at hk'
    rw [List.getElem_map, List.getElem_range]
    refine Option.some.inj ?_
    rw [picked_eq hmode h, ← List.getElem?_eq_getElem hk', List.getElem?_rotate hlt, hlen,
      Nat.add_comm k]
  refine ⟨_, hround, fun hnot => ?_, fun i hi => ?_, ?_, fun k => Option.some.inj ?_⟩
  · rw [startAfter, if_neg fun hmem => hnot (hperm.mem_iff.mp hmem)]
  · obtain ⟨hlt, hi⟩ := List.getElem?_eq_some_iff.mp hi
    rw [startAfter, if_pos (hi ▸ List.getElem_mem hlt), ← hi, hnodup.idxOf_getElem]
  · rw [hround]
    exact (List.rotate_perm _ _).trans hperm
  · rw [picked_eq hmode h, picked_eq hmode h, Nat.add_left_comm, Nat.add_mod_left]

def threePictures : List Image :=
  [⟨4, "alice", "4.jpg", 0, 7⟩, ⟨5, "bob", "5.jpg", 0, 8⟩, ⟨6, "carol", "6.jpg", 0, 9⟩]

theorem threePictures_stored : Stored threePictures := ⟨by decide, by simp [threePictures]⟩

/-- The newest picture first; the second one is current. -/
def newestFirst : State Unit :=
  { freshState threePictures [] [] with
    settings := { defaultSettings with playbackMode_ := .newestFirst }, currentImageId_ := 5 }

theorem ordered_rounds_newestFirst :
    (List.range 3).map (picked lowest newestFirst threePictures) = [4, 6, 5] := by
  obtain ⟨j, hround, -, hbehind, -⟩ :=
    ordered_rounds (s := newestFirst) (by decide) threePictures_stored
  have horder : order newestFirst threePictures = [6, 5, 4] := by decide
  rw [horder] at hround hbehind
  obtain rfl := hbehind 1 rfl
  exact hround

/-! ## The pick is in the list -/

/-- Behind any picks from other lists `_takeNext` returns the id of a picture of its list, so the
loop finds the picture it looks up, in every state that is reached. -/
theorem takeNext_exists (gen : Generator γ) (cfg : Config) :
    (∀ seed (lists : Nat → List Int) (k : Nat) (s : State γ) (images : List Image),
      (∀ i, (lists i).Nodup) → s.shuffle_ = bagAt gen seed lists k → Stored images →
        (takeNext gen s images).1 ∈ ids images ∧
          ∃ image ∈ images, image.id = (takeNext gen s images).1 ∧
            images.find? (·.id = (takeNext gen s images).1) = some image) ∧
    ∀ (s : State γ) (all : List Image), (machine gen cfg).Reachable s → s.pc = .pick all →
      ∃ s', loop gen cfg s = some s' := by
  refine ⟨fun seed lists k s images hlists hbag h => ?_, fun s all hreach hpc => ?_⟩
  · have hok : s.shuffle_.Ok := hbag ▸ bagAt_ok gen seed hlists k
    exact ⟨(takeNext_spec gen hok h).1, find_taken gen hok h⟩
  · have hsound : Sound s := sound_inductive.of_reachable hreach
    obtain ⟨image, -, -, hfind⟩ := find_taken gen hsound.bag (hsound.pick all hpc)
    simp only [loop, hpc, hfind]
    exact ⟨_, rfl⟩

/-- The bag was filled from a list with another picture, and that one is asked for. -/
def staleRequest : State Unit :=
  { freshState threePictures [] [] with
    settings := { defaultSettings with playbackMode_ := .shuffle }
    pendingShowId_ := 1
    shuffle_ := bagAt lowest () (fun _ => [1, 4]) 1 }

theorem takeNext_exists_stale : (takeNext lowest staleRequest threePictures).1 ∈ [4, 5, 6] :=
  ((takeNext_exists lowest defaultConfig).1 () (fun _ => [1, 4]) 1 staleRequest threePictures
    (fun _ => by decide) rfl threePictures_stored).1

end ShareFrame.DisplayImageLoop
