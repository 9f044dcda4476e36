import Mathlib.Data.List.Rotate
import ShareFrame.Task.Loop.Signals

/-!
# Pictures whose file is missing

The loop steps over a stored picture whose file does not exist without a wait.
As long as one stored picture has its file it comes to a paint: the order of
every mode brings that picture up (`reaches_paint`). When no file exists, or a
shuffle has just played the only picture that has one, it takes longer than a
round, or forever (`spins_on_missing_files`).
-/

namespace ShareFrame.DisplayImageLoop

open Playback Transition

variable {γ : Type} {gen : Generator γ} {cfg : Config}

/-! ## The repository and the bag -/

/-- The ids of `repo_.getAll()`. -/
def ids (images : List Image) : List Int := images.map (·.id)

/-- What `getAll` can return. -/
structure Stored (images : List Image) : Prop where
  nodup : (ids images).Nodup
  ne_nil : images ≠ []

/-- No id is stored twice, and the bag is one the code can build. -/
structure Sound (s : State γ) : Prop where
  nodup : (ids s.rows).Nodup
  bag : s.shuffle_.Ok
  pick : ∀ all, s.pc = .pick all → Stored all

theorem exists_id {images : List Image} (h : images ≠ []) : ∃ x, x ∈ ids images := by
  obtain ⟨image, him⟩ := List.exists_mem_of_ne_nil images h
  exact ⟨image.id, List.mem_map_of_mem him⟩

variable (gen) in
/-- What a pick does: an id of the list, and of the state only the bag changes. -/
theorem pickNext_spec {s : State γ} (hbag : s.shuffle_.Ok) {images : List Image}
    (h : Stored images) :
    (pickNext gen s images).1 ∈ ids images ∧
      ∃ bag : ShuffleBag γ, bag.Ok ∧ (pickNext gen s images).2 = { s with shuffle_ := bag } := by
  obtain ⟨x, hx⟩ := exists_id h.ne_nil
  simp only [pickNext]
  split
  · refine ⟨?_, s.shuffle_, hbag, rfl⟩
    have hp := arrange_perm h.nodup s.settings.playbackMode_ s.settings.customOrder_
    have hn := hp.nodup_iff.mpr h.nodup
    exact hp.mem_iff.mp (List.mem_of_getElem?
      (nextAfter_start hn (List.length_pos_of_mem (hp.mem_iff.mpr hx)) s.currentImageId_).symm)
  · obtain ⟨hmem, hok, -⟩ := ShuffleBag.sync_next_spec gen h.nodup hx hbag
    exact ⟨hmem, _, hok, rfl⟩

variable (gen) in
/-- What `_takeNext` does: an id of the list; the request is taken, and the bag may change. -/
theorem takeNext_spec {s : State γ} (hbag : s.shuffle_.Ok) {images : List Image}
    (h : Stored images) :
    (takeNext gen s images).1 ∈ ids images ∧
      ∃ bag : ShuffleBag γ, bag.Ok ∧
        (takeNext gen s images).2 = { s with pendingShowId_ := 0, shuffle_ := bag } := by
  simp only [takeNext]
  split
  next hreq => exact ⟨hreq.2, s.shuffle_, hbag, rfl⟩
  next => exact pickNext_spec gen (s := { s with pendingShowId_ := 0 }) hbag h

variable (gen) in
/-- The picked id is found: the end iterator is not dereferenced. -/
theorem find_taken {s : State γ} (hbag : s.shuffle_.Ok) {images : List Image} (h : Stored images) :
    ∃ image ∈ images, image.id = (takeNext gen s images).1 ∧
      images.find? (·.id = (takeNext gen s images).1) = some image := by
  obtain ⟨hmem, -⟩ := takeNext_spec gen hbag h
  obtain ⟨image, him, hid⟩ := List.mem_map.mp hmem
  cases hf : images.find? (·.id = (takeNext gen s images).1) with
  | none => exact absurd (decide_eq_true hid) (List.find?_eq_none.mp hf image him)
  | some found =>
    exact ⟨found, List.mem_of_find?_eq_some hf, by simpa using List.find?_some hf, rfl⟩

/-- A step that keeps the repository and the bag and does not get to a pick. -/
theorem Sound.keep {s s' : State γ} (h : Sound s) (hrows : s'.rows = s.rows)
    (hbag : s'.shuffle_ = s.shuffle_) (hpc : ∀ all, s'.pc = .pick all → s.pc = .pick all) :
    Sound s' where
  nodup := by rw [hrows]; exact h.nodup
  bag := by rw [hbag]; exact h.bag
  pick all hp := h.pick all (hpc all hp)

theorem returnWait_frame (s : State γ) (shown : Shown) :
    (returnWait s shown).rows = s.rows ∧ (returnWait s shown).shuffle_ = s.shuffle_ ∧
      ∀ all, (returnWait s shown).pc ≠ .pick all := by
  cases shown <;> exact ⟨rfl, rfl, fun _ h => nomatch h⟩

theorem afterWait_frame (cfg : Config) (s : State γ) (shown : Shown) (due : Int) :
    (afterWait cfg s shown due).rows = s.rows ∧ (afterWait cfg s shown due).shuffle_ = s.shuffle_ ∧
      ∀ all, (afterWait cfg s shown due).pc = .pick all → s.pc = .pick all := by
  obtain he | he | ⟨readyAt, he⟩ := afterWait_cases cfg s shown due <;> rw [he]
  · obtain ⟨h1, h2, h3⟩ := returnWait_frame { s with restoreCurrent_ := false } shown
    exact ⟨h1, h2, fun all hp => absurd hp (h3 all)⟩
  · exact ⟨rfl, rfl, fun _ => id⟩
  · exact ⟨rfl, rfl, fun _ hp => nomatch hp⟩

theorem loop_sound {s s' : State γ} (h : Sound s) (hs : loop gen cfg s = some s') : Sound s' := by
  unfold loop at hs
  split at hs
  next => split at hs <;> [skip; split at hs] <;> cases hs <;> exact h.keep rfl rfl (by simp [leave])
  next => split at hs <;> cases hs; exact h.keep rfl rfl (by simp)
  next =>
    split at hs <;> cases hs
    next => exact h.keep rfl rfl (by simp)
    next hne => exact ⟨h.nodup, h.bag, by rintro _ ⟨⟩; exact ⟨h.nodup, hne⟩⟩
  next => split at hs <;> cases hs <;> exact h.keep rfl rfl (by simp)
  next => split at hs <;> cases hs; exact h.keep rfl rfl (by simp [endWait])
  next => split at hs <;> [skip; split at hs] <;> cases hs <;> exact h.keep rfl rfl (by simp)
  next => split at hs <;> cases hs <;> exact h.keep rfl rfl (by simp)
  next => split at hs <;> cases hs; exact h.keep rfl rfl (by simp [endWait])
  next => cases hs
  next => cases hs; exact h.keep rfl rfl (by simp)
  next => cases hs; exact h.keep rfl rfl (by simp [enterWait])
  next all hpc =>
    obtain ⟨-, bag, hok, he⟩ := takeNext_spec gen h.bag (h.pick all hpc)
    simp only [Option.map_eq_some_iff, he] at hs
    obtain ⟨image, -, rfl⟩ := hs
    exact ⟨h.nodup, hok, fun _ hp => nomatch hp⟩
  next => split at hs <;> cases hs <;> exact h.keep rfl rfl (by simp)
  next => cases hs
  next => cases hs; exact h.keep rfl rfl (by simp)
  next => cases hs; exact h.keep rfl rfl (by simp [enterWait])
  next shown due hpc =>
    split at hs <;> cases hs
    obtain ⟨h1, h2, h3⟩ := afterWait_frame cfg s shown due
    exact h.keep h1 h2 h3
  next shown due readyAt hpc =>
    obtain ⟨h1, h2, h3⟩ := returnWait_frame s shown
    split at hs
    · cases hs; exact h.keep h1 h2 fun all hp => absurd hp (h3 all)
    · split at hs <;> cases hs; exact h.keep rfl rfl (by simp)
  next => cases hs
  next => split at hs <;> cases hs; exact h.keep rfl rfl (by simp)
  next => cases hs

theorem painted_sound {s s' : State γ} (h : Sound s) {outcome : Paint}
    (hs : painted s outcome = some s') : Sound s' := by
  have hbag : (panelAfter s outcome).shuffle_ = s.shuffle_ := by cases outcome <;> rfl
  obtain ⟨-, -, hrows, -⟩ := samePanel s outcome
  simp only [painted] at hs
  split at hs
  next => split at hs <;> [skip; split at hs] <;> cases hs <;> exact h.keep hrows hbag (by simp)
  next => split at hs <;> [skip; split at hs] <;> cases hs <;> exact h.keep hrows hbag (by simp [leave])
  next => cases hs; exact h.keep hrows hbag (by simp)
  next => cases hs

/-- Storing a picture takes the place of the row with its id. -/
theorem nodup_store {images : List Image} (h : (ids images).Nodup) (image : Image) :
    (ids (images.filter (·.id ≠ image.id) ++ [image])).Nodup := by
  rw [ids, List.map_append]
  refine List.nodup_append.mpr ⟨(List.filter_sublist.map _).nodup h, List.nodup_singleton _, ?_⟩
  rintro _ ha _ hb rfl
  obtain ⟨im, him, hid⟩ := List.mem_map.mp ha
  rw [List.map_singleton, List.mem_singleton] at hb
  exact of_decide_eq_true (List.mem_filter.mp him).2 (hid.trans hb)

theorem sound_inductive : (machine gen cfg).Inductive (fun _ _ => True) Sound where
  init := by
    rintro s ⟨_, _, _, _, _, _, _, _, hn, rfl⟩
    exact ⟨hn, ⟨List.nodup_nil, Nat.le_refl _⟩, fun _ hp => nomatch hp⟩
  step s a s' h _ hs := by
    cases a with
    | loop => exact loop_sound h hs
    | loopThrows =>
      simp only [machine, step, loopThrows] at hs
      split at hs <;> (try split at hs) <;> cases hs <;> exact h.keep rfl rfl (by simp)
    | painted outcome => exact painted_sound h hs
    | imageNew n =>
      simp only [machine, step] at hs
      split at hs <;> cases hs; exact h.keep rfl rfl fun _ => id
    | imageRemoved removed =>
      simp only [machine, step] at hs
      split at hs <;> cases hs <;> exact h.keep rfl rfl fun _ => id
    | store image => cases hs; exact ⟨nodup_store h.nodup image, h.bag, h.pick⟩
    | remove removed => cases hs; exact ⟨(List.filter_sublist.map _).nodup h.nodup, h.bag, h.pick⟩
    | start =>
      simp only [machine, step] at hs
      split at hs <;> cases hs; exact h.keep rfl rfl (by simp)
    | _ => cases hs; exact h.keep rfl rfl fun _ => id

/-! ## How soon a picture comes -/

/-- Regular picks of the current mode in which every stored picture comes up. -/
def rounds (s : State γ) : Nat :=
  if s.settings.playbackMode_ ≠ .shuffle then s.rows.length else 2 * s.rows.length - 1

/-- One of the next `k` regular picks is `x`. -/
def Within (gen : Generator γ) (x : Int) (k : Nat) (s : State γ) : Prop :=
  if s.settings.playbackMode_ ≠ .shuffle then
    ∃ j < k, (nextAfter (arrange s.rows s.settings.playbackMode_ s.settings.customOrder_))^[j + 1]
      s.currentImageId_ = x
  else ShuffleBag.latest s.rows.length (s.shuffle_.sync gen (ids s.rows)).played x ≤ k

/-- A stored picture is asked for by show-now. -/
def Requested (s : State γ) : Prop := s.pendingShowId_ ≠ 0 ∧ s.pendingShowId_ ∈ ids s.rows

instance (s : State γ) : Decidable (Requested s) := by unfold Requested; infer_instance

/-- One of the next `k` picks is `x`. -/
def Comes (gen : Generator γ) (x : Int) (k : Nat) (s : State γ) : Prop :=
  if Requested s then k = rounds s + 1 else Within gen x k s

theorem length_ids (images : List Image) : (ids images).length = images.length := List.length_map _

theorem within_rounds {s : State γ} (h : Sound s) {x : Int} (hx : x ∈ ids s.rows) :
    Within gen x (rounds s) s := by
  unfold Within rounds
  split
  · have hp := arrange_perm h.nodup s.settings.playbackMode_ s.settings.customOrder_
    obtain ⟨j, hj, hjx⟩ := nextAfter_reaches (hp.nodup_iff.mpr h.nodup) s.currentImageId_
      (hp.mem_iff.mpr hx)
    refine ⟨j, ?_, hjx⟩
    have hlen := hp.length_eq
    rw [List.length_map] at hlen
    omega
  · obtain ⟨hok, hmem, -, -⟩ := ShuffleBag.sync_spec gen h.bag h.nodup
    have hle := (ShuffleBag.latest_le hok h.nodup hmem hx).2
    rwa [length_ids] at hle

variable (gen) in
/-- A regular pick that is not `x` brings `x` closer. -/
theorem pickNext_within {s : State γ} (h : Sound s) {x : Int} (hx : x ∈ ids s.rows) {k : Nat}
    (hk : Within gen x k s) :
    0 < k ∧ ((pickNext gen s s.rows).1 ≠ x →
      Within gen x (k - 1)
        { (pickNext gen s s.rows).2 with currentImageId_ := (pickNext gen s s.rows).1 }) := by
  unfold Within at hk
  unfold pickNext
  split at hk
  next hm =>
    obtain ⟨j, hj, hjx⟩ := hk
    refine ⟨by omega, fun hne => ?_⟩
    rw [if_pos hm] at hne ⊢
    cases j with
    | zero => exact absurd hjx hne
    | succ j =>
      rw [Within, if_pos hm]
      exact ⟨j, by omega, hjx⟩
  next hm =>
    obtain ⟨-, -, hlt⟩ := ShuffleBag.sync_next_spec gen h.nodup hx h.bag
    obtain ⟨hok, hmem, -, -⟩ := ShuffleBag.sync_spec gen h.bag h.nodup
    have hpos := (ShuffleBag.latest_le hok h.nodup hmem hx).1
    rw [length_ids] at hlt hpos
    refine ⟨by omega, fun hne => ?_⟩
    rw [if_neg hm] at hne ⊢
    rw [Within, if_neg hm]
    have hlt := hlt hne
    exact Nat.le_sub_one_of_lt (Nat.lt_of_lt_of_le hlt hk)

theorem takeNext_of_requested {s : State γ} (h : Requested s) :
    takeNext gen s s.rows = (s.pendingShowId_, { s with pendingShowId_ := 0 }) :=
  if_pos h

theorem takeNext_of_not_requested {s : State γ} (h : ¬ Requested s) :
    takeNext gen s s.rows = pickNext gen { s with pendingShowId_ := 0 } s.rows :=
  if_neg h

theorem comes_of_taken {s : State γ} (h : s.pendingShowId_ = 0) {x : Int} {k : Nat} :
    Comes gen x k s ↔ Within gen x k s := by
  rw [Comes, if_neg fun hr : Requested s => hr.1 h]

variable (gen) in
/-- A pick that is not `x` brings `x` closer: behind a requested picture a round is left. -/
theorem takeNext_comes {s : State γ} (h : Sound s) {x : Int} (hx : x ∈ ids s.rows) {k : Nat}
    (hk : Comes gen x k s) :
    0 < k ∧ ((takeNext gen s s.rows).1 ≠ x →
      Comes gen x (k - 1)
        { (takeNext gen s s.rows).2 with currentImageId_ := (takeNext gen s s.rows).1 }) := by
  by_cases hreq : Requested s
  · rw [Comes, if_pos hreq] at hk
    rw [takeNext_of_requested hreq, hk]
    refine ⟨by omega, fun _ => ?_⟩
    rw [comes_of_taken rfl]
    exact within_rounds (s := { s with pendingShowId_ := 0, currentImageId_ := s.pendingShowId_ })
      ⟨h.nodup, h.bag, h.pick⟩ hx
  · rw [Comes, if_neg hreq] at hk
    have hs : Sound { s with pendingShowId_ := 0 } := ⟨h.nodup, h.bag, h.pick⟩
    obtain ⟨hpos, hcloser⟩ := pickNext_within gen hs hx hk
    obtain ⟨-, bag, -, hpick⟩ := pickNext_spec gen hs.bag
      (⟨h.nodup, fun hnil => by rw [hnil] at hx; cases hx⟩ : Stored s.rows)
    rw [takeNext_of_not_requested hreq]
    refine ⟨hpos, fun hne => ?_⟩
    rw [comes_of_taken (by rw [hpick])]
    exact hcloser hne

variable (gen) in
theorem exists_comes {s : State γ} (h : Sound s) {x : Int} (hx : x ∈ ids s.rows) :
    ∃ k ≤ rounds s + 1, Comes gen x k s := by
  by_cases hreq : Requested s
  · exact ⟨rounds s + 1, Nat.le_refl _, by rw [Comes, if_pos hreq]⟩
  · exact ⟨rounds s, Nat.le_succ _, by rw [Comes, if_neg hreq]; exact within_rounds h hx⟩

/-! ## A pass over the pictures -/

/-- What other threads do while the repository, the files, the order and the flag are left alone and
no picture is asked for. -/
def Act.Quiet : Act → Prop
  | .tick _ | .loop | .imageNew _ | .imageRemoved _ | .skipImage | .scheduledClear
  | .updateInterval _ | .updateNightMode _ | .updateCustomization _ | .setDefaultImages _
  | .panel _ => True
  | _ => False

instance : DecidablePred Act.Quiet := fun a => by cases a <;> unfold Act.Quiet <;> infer_instance

/-- The loop is in a pass over the stored pictures, at most `m` of its steps before a paint; `x` has
its file. An iteration is four steps. -/
structure InPass (gen : Generator γ) (x : Image) (m : Nat) (s : State γ) : Prop where
  sound : Sound s
  active : s.settings.slideshowActive_ = true
  running : s.stopRequested = false
  stored : x ∈ s.rows
  file : x.imagePath ∈ s.files
  at_ : match s.pc with
    | .top => ∃ k, Comes gen x.id k s ∧ 4 * k ≤ m
    | .getAll => ∃ k, Comes gen x.id k s ∧ 4 * k ≤ m + 1
    | .pick all => all = s.rows ∧ ∃ k, Comes gen x.id k s ∧ 4 * k ≤ m + 2
    | .checkFile image => image ∈ s.rows ∧ if image.imagePath ∈ s.files then 1 ≤ m
      else ∃ k, Comes gen x.id k { s with currentImageId_ := image.id } ∧ 4 * k + 1 ≤ m
    | .userPainting image => image ∈ s.rows ∧ image.imagePath ∈ s.files
    | _ => False

/-- Steps of other threads leave the pass where it is. -/
theorem inPass_quiet {x : Image} {m : Nat} {s s' : State γ} {a : Act} (h : InPass gen x m s)
    (ha : a.Quiet) (hne : a ≠ .loop) (hs : step gen cfg s a = some s') : InPass gen x m s' := by
  have hsound : Sound s' := sound_inductive.step s a s' h.sound trivial hs
  cases a with
  | loop => exact absurd rfl hne
  | imageNew n =>
    simp only [step] at hs
    split at hs <;> cases hs
    exact ⟨hsound, h.active, h.running, h.stored, h.file, h.at_⟩
  | imageRemoved removed =>
    simp only [step] at hs
    split at hs <;> cases hs <;> exact ⟨hsound, h.active, h.running, h.stored, h.file, h.at_⟩
  | tick | skipImage | scheduledClear | updateInterval | updateNightMode | updateCustomization
  | setDefaultImages | panel =>
    cases hs; exact ⟨hsound, h.active, h.running, h.stored, h.file, h.at_⟩
  | _ => exact ha.elim

/-- Each step of the loop uses one up. -/
theorem inPass_loop {x : Image} {m : Nat} {s s' : State γ} (h : InPass gen x m s)
    (hs : loop gen cfg s = some s') : ∃ m' < m, InPass gen x m' s' := by
  have hsound : Sound s' := loop_sound h.sound hs
  have hx : x.id ∈ ids s.rows := List.mem_map_of_mem h.stored
  have hne : s.rows ≠ [] := List.ne_nil_of_mem h.stored
  have hat := h.at_
  unfold loop at hs
  split at hs <;> rename_i hpc <;> rw [hpc] at hat
  case h_1 =>
    obtain ⟨k, hk, hm⟩ := hat
    obtain ⟨hpos, -⟩ := takeNext_comes gen h.sound hx hk
    rw [if_neg (by simp [h.running]), if_neg (by simp [h.active])] at hs
    cases hs
    exact ⟨m - 1, by omega, hsound, h.active, h.running, h.stored, h.file, k, hk, by omega⟩
  case h_3 =>
    obtain ⟨k, hk, hm⟩ := hat
    obtain ⟨hpos, -⟩ := takeNext_comes gen h.sound hx hk
    rw [if_neg hne] at hs
    cases hs
    exact ⟨m - 1, by omega, hsound, h.active, h.running, h.stored, h.file, rfl, k, hk, by omega⟩
  case h_12 all =>
    obtain ⟨rfl, k, hk, hm⟩ := hat
    have hstored : Stored s.rows := ⟨h.sound.nodup, hne⟩
    obtain ⟨hpos, hcloser⟩ := takeNext_comes gen h.sound hx hk
    obtain ⟨-, bag, -, htaken⟩ := takeNext_spec gen h.sound.bag hstored
    obtain ⟨image, him, hid, hfind⟩ := find_taken gen h.sound.bag hstored
    simp only [hfind, Option.map_some, htaken] at hs
    cases hs
    simp only [htaken, ← hid] at hcloser
    by_cases hfile : image.imagePath ∈ s.files
    · exact ⟨1, by omega, hsound, h.active, h.running, h.stored, h.file, him,
        by rw [if_pos hfile]⟩
    · -- the only stored picture with that id is another one than `x`
      have hother : image.id ≠ x.id := fun he =>
        hfile (List.inj_on_of_nodup_map h.sound.nodup him h.stored he ▸ h.file)
      exact ⟨m - 1, by omega, hsound, h.active, h.running, h.stored, h.file, him,
        by rw [if_neg hfile]; exact ⟨k - 1, hcloser hother, by omega⟩⟩
  case h_13 image =>
    obtain ⟨him, hm⟩ := hat
    split at hs <;> cases hs
    next hfile =>
      rw [if_neg hfile] at hm
      obtain ⟨k, hk, hm⟩ := hm
      exact ⟨m - 1, by omega, hsound, h.active, h.running, h.stored, h.file, k, hk, by omega⟩
    next hfile =>
      have hfile : image.imagePath ∈ s.files := by simpa using hfile
      rw [if_pos hfile] at hm
      exact ⟨0, by omega, hsound, h.active, h.running, h.stored, h.file, him, hfile⟩
  all_goals first | exact hat.elim | cases hs

theorem inPass_countdown (x : Image) :
    (machine gen cfg).Countdown (fun _ a => a.Quiet) .loop (InPass gen x) where
  lower _ _ _ h hs := inPass_loop h hs
  other _ _ _ _ h ha hne hs := inPass_quiet h ha hne hs

/-- In a pass the loop paints or can go on. -/
theorem inPass_progress {x : Image} {m : Nat} {s : State γ} (h : InPass gen x m s) :
    (∃ image ∈ s.rows, s.pc = .userPainting image ∧ image.imagePath ∈ s.files) ∨
      (loop gen cfg s).isSome := by
  have hat := h.at_
  have hne : s.rows ≠ [] := List.ne_nil_of_mem h.stored
  split at hat
  case h_1 hpc => exact .inr (by simp [loop, hpc, h.running, h.active])
  case h_2 hpc => exact .inr (by simp [loop, hpc, hne])
  case h_3 all hpc =>
    obtain ⟨rfl, -⟩ := hat
    obtain ⟨image, -, -, hfind⟩ := find_taken gen h.sound.bag ⟨h.sound.nodup, hne⟩
    exact .inr (by simp [loop, hpc, hfind])
  case h_4 image hpc => exact .inr (by simp only [loop, hpc]; split <;> rfl)
  case h_5 image hpc => exact .inl ⟨image, hat.1, hpc, hat.2⟩
  case h_6 => exact hat.elim

/-- When a stored picture has its file, the loop comes to a paint: within a round and one requested
picture in the ordered modes, within two rounds in a shuffle. (A call that throws ends the pass in a
wait.) -/
theorem reaches_paint {s s' : State γ} {as : List Act} (h : Sound s) (hpc : s.pc = .top)
    (hactive : s.settings.slideshowActive_ = true) (hstop : s.stopRequested = false)
    (hfile : ∃ image ∈ s.rows, image.imagePath ∈ s.files) (hquiet : ∀ a ∈ as, a.Quiet)
    (hrun : (machine gen cfg).run s as = some s') :
    as.count .loop ≤ 4 * (if s.settings.playbackMode_ = .shuffle then 2 * s.rows.length
      else s.rows.length + 1) ∧
    ((∃ image ∈ s'.rows, s'.pc = .userPainting image ∧ image.imagePath ∈ s'.files) ∨
      (loop gen cfg s').isSome) := by
  obtain ⟨x, hx, hxf⟩ := hfile
  obtain ⟨k, hk, hcomes⟩ := exists_comes gen h (List.mem_map_of_mem hx)
  have hpass : InPass gen x (4 * k) s :=
    ⟨h, hactive, hstop, hx, hxf, by rw [hpc]; exact ⟨k, hcomes, Nat.le_refl _⟩⟩
  obtain ⟨m', hcount, hpass'⟩ := (inPass_countdown x).run as hpass
    (Machine.meets_of_mem fun a ha _ => hquiet a ha) hrun
  refine ⟨?_, inPass_progress hpass'⟩
  have hn : 0 < s.rows.length := List.length_pos_of_mem hx
  rw [rounds] at hk
  split at hk <;> split
  all_goals first | contradiction | omega

/-- A shuffle of stored pictures, of which the last one in the first cycle has its file. -/
def shuffledPictures : State Unit :=
  { freshState [⟨1, "alice", "1.jpg", 0, 0⟩, ⟨2, "bob", "2.jpg", 0, 0⟩, ⟨3, "carol", "3.jpg", 0, 0⟩]
      ["1.jpg"] [] with
    settings := { defaultSettings with playbackMode_ := .shuffle } }

/-- Three iterations, and a while in between. -/
def threeIterations : List Act := List.replicate 6 Act.loop ++ Act.tick 1 :: List.replicate 6 Act.loop

theorem reaches_paint_shuffle :
    ∃ s', (machine lowest defaultConfig).run shuffledPictures threeIterations = some s' ∧
      s'.pc = .userPainting ⟨1, "alice", "1.jpg", 0, 0⟩ ∧
      threeIterations.count .loop ≤ 4 * (2 * shuffledPictures.rows.length) := by
  refine ⟨_, rfl, rfl, ?_⟩
  have hsound : Sound shuffledPictures :=
    ⟨by decide, ⟨List.nodup_nil, Nat.le_refl _⟩, fun _ hp => nomatch hp⟩
  have hrun : ∃ s', (machine lowest defaultConfig).run shuffledPictures threeIterations = some s' :=
    ⟨_, rfl⟩
  obtain ⟨s', hrun⟩ := hrun
  exact (reaches_paint hsound rfl rfl rfl (by decide) (by decide) hrun).1

/-! ## When no file exists -/

/-- In an iteration over the stored pictures, neither in a paint nor in a wait. -/
def Pc.Iterating : Pc → Prop
  | .top | .getAll | .pick _ | .checkFile _ => True
  | _ => False

/-- The loop iterates over stored pictures none of which has its file. -/
structure Spinning (s : State γ) : Prop where
  sound : Sound s
  active : s.settings.slideshowActive_ = true
  running : s.stopRequested = false
  stored : s.rows ≠ []
  noFile : ∀ image ∈ s.rows, image.imagePath ∉ s.files
  at_ : s.pc.Iterating
  found : ∀ image, s.pc = .checkFile image → image ∈ s.rows
  listed : ∀ all, s.pc = .pick all → all = s.rows

theorem spinning_loop {s : State γ} (h : Spinning s) :
    ∃ s', loop gen cfg s = some s' ∧ Spinning s' := by
  suffices hstep : ∃ s', loop gen cfg s = some s' ∧ s'.settings = s.settings ∧
      s'.stopRequested = s.stopRequested ∧ s'.rows = s.rows ∧ s'.files = s.files ∧
      s'.pc.Iterating ∧ (∀ image, s'.pc = .checkFile image → image ∈ s.rows) ∧
      ∀ all, s'.pc = .pick all → all = s.rows by
    obtain ⟨s', hs, h1, h2, h3, h4, h5, h6, h7⟩ := hstep
    exact ⟨s', hs, loop_sound h.sound hs, h1 ▸ h.active, h2 ▸ h.running, h3 ▸ h.stored,
      by rw [h3, h4]; exact h.noFile, h5, by rw [h3]; exact h6, by rw [h3]; exact h7⟩
  have hat := h.at_
  unfold Pc.Iterating at hat
  split at hat
  case h_1 hpc =>
    exact ⟨{ s with pc := .getAll }, by simp [loop, hpc, h.running, h.active], rfl, rfl, rfl, rfl,
      trivial, by simp, by simp⟩
  case h_2 hpc =>
    exact ⟨{ s with pc := .pick s.rows }, by simp [loop, hpc, h.stored], rfl, rfl, rfl, rfl,
      trivial, by simp, by simp⟩
  case h_3 all hpc =>
    obtain rfl := h.listed all hpc
    have hstored : Stored s.rows := ⟨h.sound.nodup, h.stored⟩
    obtain ⟨image, him, -, hfind⟩ := find_taken gen h.sound.bag hstored
    obtain ⟨-, bag, -, htaken⟩ := takeNext_spec gen h.sound.bag hstored
    exact ⟨{ s with pendingShowId_ := 0, shuffle_ := bag, pc := .checkFile image },
      by simp [loop, hpc, hfind, htaken], rfl, rfl, rfl, rfl, trivial, by simpa using him, by simp⟩
  case h_4 image hpc =>
    exact ⟨{ s with currentImageId_ := image.id, pc := .top },
      by simp [loop, hpc, h.noFile image (h.found image hpc)], rfl, rfl, rfl, rfl, trivial,
      by simp, by simp⟩
  case h_5 => exact hat.elim

/-- Without a file the loop goes on and on, without a wait. -/
theorem spins_without_files {s : State γ} (h : Spinning s) (k : Nat) :
    ∃ s', (machine gen cfg).run s (List.replicate k .loop) = some s' ∧ Spinning s' := by
  induction k generalizing s with
  | zero => exact ⟨s, rfl, h⟩
  | succ k ih =>
    obtain ⟨t, ht, hspin⟩ : ∃ t, loop gen cfg s = some t ∧ Spinning t := spinning_loop h
    obtain ⟨s', hs, hspin'⟩ := ih hspin
    exact ⟨s', by simp [List.replicate_succ, Machine.run, machine, step, ht] at hs ⊢; exact hs, hspin'⟩

/-! ## More than a round -/

/-- A generator that draws the lower bound and shuffles by moving the first to the end. -/
def rotating : Generator Unit :=
  { lowest with
    shuffle := fun _ l => (l.rotate 1, ())
    shuffle_perm := fun _ l => List.rotate_perm l 1 }

/-- The stored pictures of the two runs. -/
def fourPictures : List Image :=
  [⟨1, "alice", "1.jpg", 0, 0⟩, ⟨2, "bob", "2.jpg", 0, 0⟩, ⟨3, "carol", "3.jpg", 0, 0⟩,
    ⟨4, "dave", "4.jpg", 0, 0⟩]

/-- A shuffle has just shown the only picture with a file, and is told to go on. -/
def shownFirst : List Act :=
  Act.updatePlaybackOrder .shuffle [] :: List.replicate 4 Act.loop ++ Act.painted .shown ::
    List.replicate 2 Act.loop ++ [Act.skipImage, .loop]

instance (pc : Pc) : Decidable pc.Iterating := by cases pc <;> unfold Pc.Iterating <;> infer_instance

/-- The loop iterates over the stored pictures forever when none has its file. With a shuffle it can
also take more than one iteration beyond their number when one has its file: here six without a
paint over four pictures. -/
theorem spins_on_missing_files :
    (∃ s, (machine rotating defaultConfig).Reachable s ∧ s.pc = .top ∧ s.rows = fourPictures ∧
      s.settings.slideshowActive_ = true ∧ s.stopRequested = false ∧
      ∀ k, ∃ s', (machine rotating defaultConfig).run s (List.replicate k .loop) = some s' ∧
        s'.pc.Iterating) ∧
    (∃ s, (machine rotating defaultConfig).Reachable s ∧ s.pc = .top ∧ s.rows = fourPictures ∧
      s.settings.slideshowActive_ = true ∧ s.stopRequested = false ∧
      (∃ image ∈ s.rows, image.imagePath ∈ s.files) ∧
      ∀ k ≤ 4 * 6, ∃ s' ∈ (machine rotating defaultConfig).run s (List.replicate k .loop),
        s'.pc.Iterating) := by
  constructor
  · have hinit := freshState_init rotating fourPictures [] [] (by decide)
    refine ⟨_, .init hinit, rfl, rfl, rfl, rfl, fun k => ?_⟩
    have hspin : Spinning (freshState fourPictures [] []) :=
      ⟨sound_inductive.init _ hinit, rfl, rfl, by decide, by decide, trivial,
        fun _ hp => (nomatch hp), fun _ hp => (nomatch hp)⟩
    obtain ⟨s', hrun, hspin'⟩ := spins_without_files hspin k
    exact ⟨s', hrun, hspin'.at_⟩
  · exact Machine.exists_reachable_of_run shownFirst
      (freshState_init rotating fourPictures ["4.jpg"] [] (by decide))
      ⟨_, rfl, rfl, rfl, rfl, rfl, by decide, by decide⟩

end ShareFrame.DisplayImageLoop
