import ShareFrame.Settings.PlaybackOrder

/-!
# What `arrange` returns

The stored pictures have one chronological list (`earlier_sorted`), whatever order
they are given in. The loop over `customIds` leaves its known ids, each at its first
occurrence (`place_eq`); the order of every mode follows (`arrange_exact`).
-/

namespace ShareFrame.Playback

/-- Received earlier, or at the same time with the smaller id. -/
def Earlier (a b : Image) : Prop :=
  a.receivedAt < b.receivedAt ∨ a.receivedAt = b.receivedAt ∧ a.id < b.id

theorem before_iff {a b : Image} : Before a b ↔
    a.receivedAt < b.receivedAt ∨ a.receivedAt = b.receivedAt ∧ a.id ≤ b.id := by
  unfold Before
  split <;> omega

instance : Std.Total Before where
  total a b := by
    rw [before_iff, before_iff]
    omega

instance : IsTrans Image Before where
  trans a b c := by
    rw [before_iff, before_iff, before_iff]
    omega

/-- `Before` orders pictures with different ids strictly. -/
theorem earlier_of_before {a b : Image} (h : Before a b) (hne : a.id ≠ b.id) : Earlier a b := by
  rw [before_iff] at h
  unfold Earlier
  omega

theorem earlier_sorted {images : List Image} (h : (images.map (·.id)).Nodup) :
    (images.insertionSort Before).Pairwise Earlier := by
  have hsorted := List.pairwise_insertionSort Before images
  have hids : (images.insertionSort Before).Pairwise (·.id ≠ ·.id) :=
    List.pairwise_map.mp ((chronological_perm images).nodup_iff.mpr h)
  exact hsorted.imp₂ (fun _ _ => earlier_of_before) hids

/-- The list that `std::ranges::sort` leaves does not depend on the order before. -/
theorem chronological_congr {images images' : List Image} (h : (images.map (·.id)).Nodup)
    (hperm : images'.Perm images) : chronological images' = chronological images := by
  have h' : (images'.map (·.id)).Nodup := (hperm.map _).nodup_iff.mpr h
  have hsort : (images'.insertionSort Before).Perm (images.insertionSort Before) :=
    ((List.perm_insertionSort Before images').trans hperm).trans
      (List.perm_insertionSort Before images).symm
  refine congrArg (List.map (·.id)) (hsort.eq_of_pairwise (fun a b _ _ hab hba => ?_)
    (earlier_sorted h') (earlier_sorted h))
  unfold Earlier at hab hba
  omega

/-- The loop over `customIds` appends the known ids, each at its first occurrence. -/
theorem place_eq (existing ordered ids : List Int) : place existing ordered ids =
    ordered ++ (ids.filter fun id => id ∈ existing ∧ id ∉ ordered).eraseDups := by
  induction ids generalizing ordered with
  | nil => simp [place]
  | cons id rest ih =>
    rw [place, ih]
    by_cases hnew : id ∈ existing ∧ id ∉ ordered
    · rw [if_pos hnew, List.filter_cons_of_pos (by simpa using hnew), List.eraseDups_cons,
        List.filter_filter, List.append_assoc, List.singleton_append]
      refine congrArg (fun l => ordered ++ id :: List.eraseDups l) (List.filter_congr fun x _ => ?_)
      simp only [List.mem_append, List.mem_singleton, not_or, Bool.decide_and, beq_eq_decide]
      grind
    · rw [if_neg hnew, List.filter_cons_of_neg (by simpa using hnew)]

/-- Custom order: the known ids of the list at their first occurrence, then the others. -/
theorem arrange_custom (images : List Image) (customIds : List Int) :
    arrange images .custom customIds =
      (customIds.filter (· ∈ images.map (·.id))).eraseDups ++
        (chronological images).filter (· ∉ customIds) := by
  have hmem : ∀ x, x ∈ chronological images ↔ x ∈ images.map (·.id) :=
    fun x => (chronological_perm images).mem_iff
  have hplace : place (chronological images) [] customIds =
      (customIds.filter (· ∈ images.map (·.id))).eraseDups := by
    rw [place_eq, List.nil_append]
    exact congrArg List.eraseDups (List.filter_congr fun x _ => by simp [hmem])
  show place (chronological images) [] customIds ++
    (chronological images).filter (· ∉ place (chronological images) [] customIds) = _
  rw [hplace, List.append_cancel_left_eq]
  refine List.filter_congr fun x hx => ?_
  have hx := (hmem x).mp hx
  simp only [List.mem_eraseDups, List.mem_filter, hx, decide_true, and_true]

/-- Of pictures with different ids every mode arranges each one once: chronologically, the other way
round, or the known custom ids first and the rest chronologically. The order in which the pictures
are given does not matter. -/
theorem arrange_exact {images : List Image} (h : (images.map (·.id)).Nodup) :
    (∀ mode customIds, (arrange images mode customIds).Perm (images.map (·.id))) ∧
    (∃ sorted : List Image, sorted.Perm images ∧ sorted.Pairwise Earlier ∧ ∀ customIds,
      arrange images .chronological customIds = sorted.map (·.id) ∧
      arrange images .newestFirst customIds = (sorted.map (·.id)).reverse ∧
      arrange images .custom customIds =
        (customIds.filter (· ∈ images.map (·.id))).eraseDups ++
          (sorted.map (·.id)).filter (· ∉ customIds)) ∧
    ∀ images', images'.Perm images → ∀ mode customIds,
      arrange images' mode customIds = arrange images mode customIds := by
  refine ⟨arrange_perm h, ⟨images.insertionSort Before, List.perm_insertionSort Before images,
    earlier_sorted h, fun customIds => ⟨rfl, rfl, arrange_custom images customIds⟩⟩,
    fun images' hperm mode customIds => ?_⟩
  rw [arrange, arrange, chronological_congr h hperm]

/-- Ids that are not stored and ids given twice do no harm. -/
theorem arrange_exact_custom :
    (arrange [⟨3, "a", "3.jpg", 0, 7⟩, ⟨1, "b", "1.jpg", 0, 9⟩, ⟨2, "c", "2.jpg", 0, 7⟩]
      .custom [1, 8, 1]).Perm [3, 1, 2] ∧
    arrange [⟨3, "a", "3.jpg", 0, 7⟩, ⟨1, "b", "1.jpg", 0, 9⟩, ⟨2, "c", "2.jpg", 0, 7⟩]
      .custom [1, 8, 1] = [1, 2, 3] :=
  ⟨(@arrange_exact [⟨3, "a", "3.jpg", 0, 7⟩, ⟨1, "b", "1.jpg", 0, 9⟩, ⟨2, "c", "2.jpg", 0, 7⟩]
    (by decide)).1 .custom [1, 8, 1], by decide⟩

end ShareFrame.Playback
