import Mathlib.Data.List.Nodup
import Mathlib.Data.List.Sort
import Mathlib.Data.List.TakeWhile
import ShareFrame.Repository.Image

/-!
# Playback order

`arrange` puts the stored pictures into the order of a playback mode,
`nextAfter` steps through it. Stepping from any id visits the whole order within
one round (`nextAfter_iterate`).
-/

namespace ShareFrame

inductive PlaybackMode where
  | shuffle
  | chronological
  | newestFirst
  | custom
  deriving DecidableEq, Repr

def PlaybackMode.toString : PlaybackMode → String
  | .shuffle => "shuffle"
  | .chronological => "chronological"
  | .newestFirst => "newest_first"
  | .custom => "custom"

def playbackModeFromString : String → Option PlaybackMode
  | "shuffle" => some .shuffle
  | "chronological" => some .chronological
  | "newest_first" => some .newestFirst
  | "custom" => some .custom
  | _ => none

namespace Playback

/-- Received earlier, the id decides between equal times. -/
def Before (a b : Image) : Prop :=
  if a.receivedAt ≠ b.receivedAt then a.receivedAt < b.receivedAt else a.id ≤ b.id

instance : DecidableRel Before := fun a b => by unfold Before; infer_instance

def chronological (images : List Image) : List Int := (images.insertionSort Before).map (·.id)

/-- The loop over `customIds`: known ids in the order of their first occurrence. -/
def place (existing : List Int) : List Int → List Int → List Int
  | ordered, [] => ordered
  | ordered, id :: rest =>
    place existing (if id ∈ existing ∧ id ∉ ordered then ordered ++ [id] else ordered) rest

/-- Play order of `images` for every mode but shuffle. -/
def arrange (images : List Image) (mode : PlaybackMode) (customIds : List Int) : List Int :=
  let ids := chronological images
  let ids := if mode = .newestFirst then ids.reverse else ids
  if mode ≠ .custom then ids
  else
    let ordered := place ids [] customIds
    ordered ++ ids.filter (· ∉ ordered)

/-- The id after `currentId`, wrapping around; the first one when it is not in `sequence`, `0` for
an empty one. -/
def nextAfter (sequence : List Int) (currentId : Int) : Int :=
  match sequence.dropWhile (· ≠ currentId) with
  | _ :: next :: _ => next
  | _ => sequence.headD 0

/-! ## `arrange` is a permutation -/

theorem chronological_perm (images : List Image) :
    (chronological images).Perm (images.map (·.id)) :=
  (List.perm_insertionSort Before images).map _

theorem place_spec {existing : List Int} (ids : List Int) {ordered : List Int}
    (hn : ordered.Nodup) (hs : ordered ⊆ existing) :
    (place existing ordered ids).Nodup ∧ place existing ordered ids ⊆ existing := by
  induction ids generalizing ordered with
  | nil => exact ⟨hn, hs⟩
  | cons id rest ih =>
    simp only [place]
    split
    next h =>
      refine ih (List.nodup_append.mpr ⟨hn, List.nodup_singleton id, fun a ha b hb => ?_⟩) ?_
      · rw [List.mem_singleton] at hb
        rintro rfl
        exact h.2 (hb ▸ ha)
      · exact List.append_subset.mpr ⟨hs, by simpa using h.1⟩
    next => exact ih hn hs

/-- Splitting off a duplicate-free part. -/
theorem append_filter_perm {ordered ids : List Int} (hn : ordered.Nodup) (hi : ids.Nodup)
    (hs : ordered ⊆ ids) : (ordered ++ ids.filter (· ∉ ordered)).Perm ids := by
  have hnd : (ordered ++ ids.filter (· ∉ ordered)).Nodup := by
    refine List.nodup_append.mpr ⟨hn, hi.filter _, fun a ha b hb => ?_⟩
    rintro rfl
    exact of_decide_eq_true (List.mem_filter.mp hb).2 ha
  refine (List.perm_ext_iff_of_nodup hnd hi).mpr fun x => ?_
  rw [List.mem_append, List.mem_filter, decide_eq_true_eq]
  constructor
  · rintro (h | h)
    · exact hs h
    · exact h.1
  · intro h
    by_cases hx : x ∈ ordered
    · exact .inl hx
    · exact .inr ⟨h, hx⟩

theorem arrange_perm {images : List Image} (h : (images.map (·.id)).Nodup) (mode : PlaybackMode)
    (customIds : List Int) : (arrange images mode customIds).Perm (images.map (·.id)) := by
  have hp := chronological_perm images
  simp only [arrange]
  split
  · split
    · exact (List.reverse_perm _).trans hp
    · exact hp
  next hm =>
    have hm : mode = .custom := by simpa using hm
    have hne : ¬ mode = .newestFirst := by rw [hm]; decide
    rw [if_neg hne]
    have hnd : (chronological images).Nodup := hp.nodup_iff.mpr h
    obtain ⟨h1, h2⟩ := place_spec customIds List.nodup_nil (List.nil_subset (chronological images))
    exact (append_filter_perm h1 hnd h2).trans hp

/-! ## Stepping through a sequence -/

theorem dropWhile_ne_getElem {seq : List Int} (h : seq.Nodup) {i : Nat} (hi : i < seq.length) :
    seq.dropWhile (· ≠ seq[i]) = seq.drop i := by
  induction seq generalizing i with
  | nil => simp at hi
  | cons x xs ih =>
    obtain ⟨hx, hxs⟩ := List.nodup_cons.mp h
    cases i with
    | zero => simp
    | succ i =>
      have hi' : i < xs.length := by simpa using hi
      have hne : x ≠ xs[i] := fun he => hx (he ▸ List.getElem_mem hi')
      rw [List.getElem_cons_succ, List.dropWhile_cons_of_pos (by simpa using hne),
        List.drop_succ_cons]
      exact ih hxs hi'

/-- The id behind position `i`. -/
theorem nextAfter_getElem {seq : List Int} (h : seq.Nodup) {i : Nat} (hi : i < seq.length) :
    some (nextAfter seq seq[i]) = seq[(i + 1) % seq.length]? := by
  unfold nextAfter
  rw [dropWhile_ne_getElem h hi]
  by_cases hlast : i + 1 < seq.length
  · rw [List.drop_eq_getElem_cons hi, List.drop_eq_getElem_cons hlast, Nat.mod_eq_of_lt hlast,
      List.getElem?_eq_getElem hlast]
  · have hend : i + 1 = seq.length := by omega
    have hnil : seq.drop (i + 1) = [] := List.drop_eq_nil_of_le (by omega)
    rw [List.drop_eq_getElem_cons hi, hnil, hend, Nat.mod_self]
    cases seq with
    | nil => simp at hi
    | cons x xs => rfl

theorem nextAfter_of_not_mem {seq : List Int} {c : Int} (h : c ∉ seq) (hne : 0 < seq.length) :
    some (nextAfter seq c) = seq[0]? := by
  have hnil : seq.dropWhile (· ≠ c) = [] := by
    rw [List.dropWhile_eq_nil_iff]
    intro x hx
    exact decide_eq_true fun he : x = c => h (he ▸ hx)
  unfold nextAfter
  rw [hnil]
  cases seq with
  | nil => simp at hne
  | cons x xs => rfl

/-- Where the sequence is taken up behind an id. -/
def startAfter (seq : List Int) (c : Int) : Nat := if c ∈ seq then seq.idxOf c + 1 else 0

theorem nextAfter_start {seq : List Int} (h : seq.Nodup) (hne : 0 < seq.length) (c : Int) :
    some (nextAfter seq c) = seq[startAfter seq c % seq.length]? := by
  rw [startAfter]
  split
  next hc =>
    have hi := List.idxOf_lt_length_of_mem hc
    rw [← nextAfter_getElem h hi, List.getElem_idxOf hi]
  next hc => rw [Nat.zero_mod, nextAfter_of_not_mem hc hne]

/-- From any id, stepping goes round and round the sequence. -/
theorem nextAfter_iterate {seq : List Int} (h : seq.Nodup) (hne : 0 < seq.length) (c : Int) (k : Nat) :
    some ((nextAfter seq)^[k + 1] c) = seq[(startAfter seq c + k) % seq.length]? := by
  induction k with
  | zero => exact nextAfter_start h hne c
  | succ k ih =>
    rw [Function.iterate_succ_apply']
    have hlt := Nat.mod_lt (startAfter seq c + k) hne
    rw [List.getElem?_eq_getElem hlt, Option.some.injEq] at ih
    rw [ih, nextAfter_getElem h hlt, Nat.mod_add_mod, Nat.add_assoc]

/-- Within one round every id comes up. -/
theorem nextAfter_reaches {seq : List Int} (h : seq.Nodup) (c : Int) {x : Int} (hx : x ∈ seq) :
    ∃ k < seq.length, (nextAfter seq)^[k + 1] c = x := by
  obtain ⟨i, hi, rfl⟩ := List.getElem_of_mem hx
  have hne : 0 < seq.length := by omega
  have hj := nextAfter_iterate h hne c
  generalize startAfter seq c = j at hj
  -- the number of steps from `j` to `i` around the sequence
  have hk : (j + (i + seq.length - j % seq.length) % seq.length) % seq.length = i := by
    have hjl := Nat.mod_lt j hne
    rw [Nat.add_mod, Nat.mod_mod]
    by_cases hle : j % seq.length ≤ i
    · rw [show i + seq.length - j % seq.length = (i - j % seq.length) + seq.length by omega,
        Nat.add_mod_right, Nat.mod_eq_of_lt (by omega : i - j % seq.length < seq.length),
        Nat.mod_eq_of_lt (by omega)]
      omega
    · rw [Nat.mod_eq_of_lt (by omega : i + seq.length - j % seq.length < seq.length),
        show j % seq.length + (i + seq.length - j % seq.length) = i + seq.length by omega,
        Nat.add_mod_right, Nat.mod_eq_of_lt hi]
  refine ⟨_, Nat.mod_lt (i + seq.length - j % seq.length) hne, Option.some.inj ?_⟩
  rw [hj, hk, List.getElem?_eq_getElem hi]

end Playback

end ShareFrame
