import Mathlib.Data.List.InsertIdx
import Mathlib.Data.List.Nodup
import Mathlib.Data.List.Perm.Basic
import ShareFrame.Lib.Urn

/-!
# The shuffle bag

`playback::ShuffleBag` plays every picture once per cycle in random order. The
first `played_` entries of `order_` are what the cycle has played: `sync` keeps
them in front, `next` takes the entry behind them and shuffles once all are
played. A run of `sync(ids); next()` is a run of an urn whose drawn elements are
these entries (`Bag.lawful`), and what the cycle owes every picture follows
(`shuffleBag_fair`).
-/

namespace ShareFrame.Playback

/-- The random generator: `std::uniform_int_distribution` and `std::ranges::shuffle` over some
generator state. -/
structure Generator (γ : Type) where
  uniform : γ → Nat → Nat → Nat × γ
  shuffle : γ → List Int → List Int × γ
  uniform_mem : ∀ g lo hi, lo ≤ hi → lo ≤ (uniform g lo hi).1 ∧ (uniform g lo hi).1 ≤ hi
  shuffle_perm : ∀ g l, (shuffle g l).1.Perm l

structure ShuffleBag (γ : Type) where
  order_ : List Int := []
  played_ : Nat := 0
  rng_ : γ

namespace ShuffleBag

variable {γ : Type} (gen : Generator γ)

/-- The first loop of `sync`: drop the ids that are gone. -/
def keep (b : ShuffleBag γ) (ids : List Int) : ShuffleBag γ :=
  { b with
    order_ := b.order_.filter (· ∈ ids)
    played_ := ((b.order_.take b.played_).filter (· ∈ ids)).length }

/-- Insert an id at a random position of the part not yet played. -/
def insertOne (b : ShuffleBag γ) (id : Int) : ShuffleBag γ :=
  let pos := gen.uniform b.rng_ b.played_ b.order_.length
  { b with order_ := b.order_.insertIdx pos.1 id, rng_ := pos.2 }

/-- The second loop of `sync`: insert the ids that are not `known`. -/
def insertNew (known : List Int) : List Int → ShuffleBag γ → ShuffleBag γ
  | [], b => b
  | id :: ids, b =>
    insertNew known ids (if id ∈ known then b else b.insertOne gen id)

def sync (b : ShuffleBag γ) (ids : List Int) : ShuffleBag γ :=
  let kept := b.keep ids
  insertNew gen kept.order_ ids kept

/-- `std::swap(order_.front(), order_[i])`. -/
def swapFront (l : List Int) (i : Nat) : List Int :=
  match l[0]?, l[i]? with
  | some x, some y => (l.set 0 y).set i x
  | _, _ => l

/-- A new cycle: a shuffle that does not start with the id that ended the last cycle. -/
def reshuffle (b : ShuffleBag γ) : ShuffleBag γ :=
  let order := gen.shuffle b.rng_ b.order_
  if order.1.length > 1 ∧ order.1.head? = b.order_.getLast? then
    let other := gen.uniform order.2 1 (order.1.length - 1)
    { order_ := swapFront order.1 other.1, played_ := 0, rng_ := other.2 }
  else { order_ := order.1, played_ := 0, rng_ := order.2 }

/-- `next` reshuffles. -/
def Exhausted (b : ShuffleBag γ) : Prop := b.order_ ≠ [] ∧ b.order_.length ≤ b.played_

instance (b : ShuffleBag γ) : Decidable b.Exhausted := by unfold Exhausted; infer_instance

def next (b : ShuffleBag γ) : Int × ShuffleBag γ :=
  if b.order_ = [] then (0, b)
  else
    let b := if b.order_.length ≤ b.played_ then b.reshuffle gen else b
    (b.order_.getD b.played_ 0, { b with played_ := b.played_ + 1 })

/-- The ids the cycle has played. -/
def played (b : ShuffleBag γ) : List Int := b.order_.take b.played_

/-- The bag as the code keeps it: no id twice, the position inside the order. -/
structure Ok (b : ShuffleBag γ) : Prop where
  nodup : b.order_.Nodup
  played_le : b.played_ ≤ b.order_.length

/-! ## `sync` -/

/-- The kept part of the played ids is the played part of the kept ids. -/
theorem keep_played (b : ShuffleBag γ) (ids : List Int) :
    (b.keep ids).played = b.played.filter (· ∈ ids) := by
  have hsplit : b.order_.filter (· ∈ ids) =
      b.played.filter (· ∈ ids) ++ (b.order_.drop b.played_).filter (· ∈ ids) := by
    rw [← List.filter_append, played, List.take_append_drop]
  simp only [played, keep] at hsplit ⊢
  rw [hsplit, List.take_left]

theorem keep_ok {b : ShuffleBag γ} (h : b.Ok) (ids : List Int) : (b.keep ids).Ok where
  nodup := h.nodup.filter _
  played_le := ((List.take_sublist _ _).filter _).length_le

/-- What inserting into the part not yet played keeps. -/
structure Extends (b b' : ShuffleBag γ) : Prop where
  played : b'.played = b.played
  played_ : b'.played_ = b.played_
  order : b.order_.Sublist b'.order_

theorem Extends.refl (b : ShuffleBag γ) : Extends b b := ⟨rfl, rfl, List.Sublist.refl _⟩

theorem Extends.trans {b₁ b₂ b₃ : ShuffleBag γ} (h : Extends b₁ b₂) (h' : Extends b₂ b₃) :
    Extends b₁ b₃ :=
  ⟨h'.played.trans h.played, h'.played_.trans h.played_, h.order.trans h'.order⟩

theorem insertOne_spec {b : ShuffleBag γ} (h : b.Ok) {id : Int} (hid : id ∉ b.order_) :
    Extends b (b.insertOne gen id) ∧ (b.insertOne gen id).Ok ∧
      ∀ x, x ∈ (b.insertOne gen id).order_ ↔ x = id ∨ x ∈ b.order_ := by
  obtain ⟨hlo, hhi⟩ := gen.uniform_mem b.rng_ b.played_ b.order_.length h.played_le
  refine ⟨⟨?_, rfl, List.sublist_insertIdx _ _ _⟩, ⟨?_, ?_⟩, fun x => List.mem_insertIdx hhi⟩
  · exact List.take_insertIdx_eq_take_of_le _ _ _ _ hlo
  · exact (List.perm_insertIdx id b.order_ hhi).nodup_iff.mpr (List.nodup_cons.mpr ⟨hid, h.nodup⟩)
  · show b.played_ ≤ (b.order_.insertIdx _ id).length
    rw [List.length_insertIdx_of_le_length hhi]
    exact Nat.le_succ_of_le h.played_le

theorem insertNew_spec {known : List Int} {ids : List Int} (hids : ids.Nodup)
    {b : ShuffleBag γ} (h : b.Ok) (hnew : ∀ x ∈ ids, x ∉ known → x ∉ b.order_) :
    Extends b (insertNew gen known ids b) ∧ (insertNew gen known ids b).Ok ∧
      ∀ x, x ∈ (insertNew gen known ids b).order_ ↔ x ∈ b.order_ ∨ x ∈ ids ∧ x ∉ known := by
  induction ids generalizing b with
  | nil => exact ⟨.refl b, h, fun x => by simp [insertNew]⟩
  | cons id ids ih =>
    obtain ⟨hid, hids⟩ := List.nodup_cons.mp hids
    have htail : ∀ x ∈ ids, x ∉ known → x ∉ b.order_ :=
      fun x hx => hnew x (List.mem_cons_of_mem id hx)
    simp only [insertNew]
    by_cases hk : id ∈ known
    · obtain ⟨h1, h2, h3⟩ := ih hids h htail
      rw [if_pos hk]
      refine ⟨h1, h2, fun x => ?_⟩
      rw [h3, List.mem_cons]
      grind
    · obtain ⟨g1, g2, g3⟩ := insertOne_spec gen h (hnew id List.mem_cons_self hk)
      have htail' : ∀ x ∈ ids, x ∉ known → x ∉ (b.insertOne gen id).order_ := by
        intro x hx hxk
        rw [g3]
        rintro (rfl | hxb)
        · exact hid hx
        · exact htail x hx hxk hxb
      obtain ⟨h1, h2, h3⟩ := ih hids g2 htail'
      rw [if_neg hk]
      refine ⟨g1.trans h1, h2, fun x => ?_⟩
      rw [h3, g3, List.mem_cons]
      grind

/-- What `sync` does: the ids of the list, in an order that keeps what stays, and of the played ones
those that stay. -/
theorem sync_spec {b : ShuffleBag γ} (h : b.Ok) {ids : List Int} (hids : ids.Nodup) :
    (b.sync gen ids).Ok ∧ (∀ x, x ∈ (b.sync gen ids).order_ ↔ x ∈ ids) ∧
      (b.order_.filter (· ∈ ids)).Sublist (b.sync gen ids).order_ ∧
      (b.sync gen ids).played = b.played.filter (· ∈ ids) := by
  have hknown : ∀ x ∈ ids, x ∉ (b.keep ids).order_ → x ∉ (b.keep ids).order_ := fun _ _ => id
  obtain ⟨h1, h2, h3⟩ := insertNew_spec gen hids (keep_ok h ids) hknown
  refine ⟨h2, fun x => ?_, h1.order, h1.played.trans (keep_played b ids)⟩
  rw [sync, h3]
  simp only [keep, List.mem_filter, decide_eq_true_eq]
  tauto

/-! ## `next` -/

theorem swapFront_spec {l : List Int} (h : l.Nodup) {i : Nat} (hi : 1 ≤ i) (hl : i < l.length) :
    (swapFront l i).Perm l ∧ (swapFront l i).head? ≠ l.head? := by
  obtain ⟨x, hx⟩ : ∃ x, l[0]? = some x := ⟨l[0], List.getElem?_eq_getElem (by omega)⟩
  obtain ⟨y, hy⟩ : ∃ y, l[i]? = some y := ⟨l[i], List.getElem?_eq_getElem hl⟩
  have hne : y ≠ x := by
    rintro rfl
    have := (List.getElem?_inj hl h).mp (hy.trans hx.symm)
    omega
  have hsw : swapFront l i = (l.set 0 y).set i x := by
    unfold swapFront; rw [hx, hy]
  obtain ⟨hx0, rfl⟩ := List.getElem?_eq_some_iff.mp hx
  obtain ⟨hyi, rfl⟩ := List.getElem?_eq_some_iff.mp hy
  rw [hsw]
  refine ⟨List.set_set_perm hx0 hyi, ?_⟩
  rw [List.head?_eq_getElem?, List.head?_eq_getElem?, List.getElem?_set_ne (by omega),
    List.getElem?_set_self hx0, List.getElem?_eq_getElem hx0]
  simpa using hne

/-- A new cycle plays the same ids from the start, and not the last one first. -/
theorem reshuffle_spec {b : ShuffleBag γ} (h : b.Ok) :
    (b.reshuffle gen).order_.Perm b.order_ ∧ (b.reshuffle gen).played_ = 0 ∧
      (1 < b.order_.length → (b.reshuffle gen).order_.head? ≠ b.order_.getLast?) := by
  have hp := gen.shuffle_perm b.rng_ b.order_
  have hn : (gen.shuffle b.rng_ b.order_).1.Nodup := hp.nodup_iff.mpr h.nodup
  have hlen := hp.length_eq
  simp only [reshuffle]
  split
  next hc =>
    obtain ⟨hlo, hhi⟩ := gen.uniform_mem (gen.shuffle b.rng_ b.order_).2 1
      ((gen.shuffle b.rng_ b.order_).1.length - 1) (by omega)
    obtain ⟨hperm, hhead⟩ := swapFront_spec hn hlo (by omega)
    exact ⟨hperm.trans hp, rfl, fun _ => hc.2 ▸ hhead⟩
  next hc => exact ⟨hp, rfl, fun hl hhead => hc ⟨by omega, hhead⟩⟩

theorem reshuffle_ok {b : ShuffleBag γ} (h : b.Ok) : (b.reshuffle gen).Ok where
  nodup := (reshuffle_spec gen h).1.nodup_iff.mpr h.nodup
  played_le := by rw [(reshuffle_spec gen h).2.1]; exact Nat.zero_le _

/-- Playing the entry behind the played ones. -/
theorem play_spec {b : ShuffleBag γ} (h : b.Ok) (hlt : b.played_ < b.order_.length) :
    ∃ x, b.order_[b.played_]? = some x ∧ x ∈ b.order_ ∧ x ∉ b.played ∧
      ({ b with played_ := b.played_ + 1 } : ShuffleBag γ).played = b.played ++ [x] := by
  refine ⟨b.order_[b.played_], List.getElem?_eq_getElem hlt, List.getElem_mem hlt, fun hmem => ?_,
    (List.take_append_getElem hlt).symm⟩
  have hnd : (b.order_.take b.played_ ++ [b.order_[b.played_]]).Nodup := by
    rw [List.take_append_getElem hlt]
    exact h.nodup.sublist (List.take_sublist _ _)
  exact (List.nodup_append.mp hnd).2.2 _ hmem _ List.mem_cons_self rfl

theorem next_of_nil {b : ShuffleBag γ} (h : b.order_ = []) : b.next gen = (0, b) := if_pos h

/-- What `next` does to a bag with ids in it: it plays an id, one that the cycle has not played or,
when it begins a new cycle, not the last one in the order. -/
theorem next_spec {b : ShuffleBag γ} (h : b.Ok) (hne : b.order_ ≠ []) :
    (b.next gen).2.Ok ∧ (b.next gen).1 ∈ b.order_ ∧
      (b.next gen).2.played =
        (if b.order_.length ≤ b.played_ then [] else b.played) ++ [(b.next gen).1] ∧
      (¬ b.order_.length ≤ b.played_ → (b.next gen).1 ∉ b.played) ∧
      (b.order_.length ≤ b.played_ → 1 < b.order_.length →
        b.order_.getLast? ≠ some (b.next gen).1) := by
  have hpos : 0 < b.order_.length := List.length_pos_iff.mpr hne
  by_cases hex : b.order_.length ≤ b.played_
  · obtain ⟨hperm, hzero, hhead⟩ := reshuffle_spec gen h
    have hlen := hperm.length_eq
    have hlt : (b.reshuffle gen).played_ < (b.reshuffle gen).order_.length := by omega
    obtain ⟨x, hx, hmem, -, hplayed⟩ := play_spec (reshuffle_ok gen h) hlt
    have heq : b.next gen =
        (x, { b.reshuffle gen with played_ := (b.reshuffle gen).played_ + 1 }) := by
      simp only [next, if_neg hne, if_pos hex, List.getD_eq_getElem?_getD, hx, Option.getD_some]
    rw [heq]
    refine ⟨⟨(reshuffle_ok gen h).nodup, hlt⟩, hperm.mem_iff.mp hmem, ?_, fun h' => absurd hex h',
      fun _ hl hlast => hhead hl ?_⟩
    · rw [if_pos hex, hplayed]
      simp [played, hzero]
    · rw [List.head?_eq_getElem?, ← hzero, hx, hlast]
  · obtain ⟨x, hx, hmem, hnot, hplayed⟩ := play_spec h (by omega)
    have heq : b.next gen = (x, { b with played_ := b.played_ + 1 }) := by
      simp only [next, if_neg hne, if_neg hex, List.getD_eq_getElem?_getD, hx, Option.getD_some]
    rw [heq]
    exact ⟨⟨h.nodup, Nat.lt_of_not_le hex⟩, hmem, by rw [if_neg hex, hplayed], fun _ => hnot,
      fun h' => absurd h' hex⟩

/-! ## Playing a list that does not change -/

/-- Picks until `x` comes at the latest: the rest of the cycle, and all of the next one if this one
has played it. -/
def latest (n : Nat) (played : List Int) (x : Int) : Nat :=
  if x ∈ played then 2 * n - played.length else n - played.length

/-- A bag that holds the ids of the list: how far it is, and when all of it is played. -/
theorem holds_spec {ids : List Int} {c : ShuffleBag γ} (h : c.Ok) (hids : ids.Nodup)
    (hmem : ∀ y, y ∈ c.order_ ↔ y ∈ ids) :
    c.order_.length = ids.length ∧ c.played.length = c.played_ ∧
      (c.order_.length ≤ c.played_ → c.played = c.order_) :=
  ⟨((List.perm_ext_iff_of_nodup h.nodup hids).mpr hmem).length_eq,
    List.length_take_of_le h.played_le, List.take_of_length_le⟩

theorem latest_le {ids : List Int} {c : ShuffleBag γ} (h : c.Ok) (hids : ids.Nodup)
    (hmem : ∀ y, y ∈ c.order_ ↔ y ∈ ids) {x : Int} (hx : x ∈ ids) :
    1 ≤ latest ids.length c.played x ∧ latest ids.length c.played x ≤ 2 * ids.length - 1 := by
  obtain ⟨hlen, hplen, hall⟩ := holds_spec h hids hmem
  have hn : 0 < ids.length := List.length_pos_of_mem hx
  have hle := h.played_le
  rw [latest]
  split
  next hxp =>
    have hpos : 0 < c.played.length := List.length_pos_of_mem hxp
    omega
  next hxp =>
    have hlt : ¬ c.order_.length ≤ c.played_ := fun hle => hxp (hall hle ▸ (hmem x).mpr hx)
    omega

/-- A pick other than `x` brings `x` closer. -/
theorem latest_next {ids : List Int} {c : ShuffleBag γ} (h : c.Ok) (hids : ids.Nodup)
    (hmem : ∀ y, y ∈ c.order_ ↔ y ∈ ids) {x : Int} (hx : x ∈ ids) (hne : (c.next gen).1 ≠ x) :
    latest ids.length (c.next gen).2.played x < latest ids.length c.played x := by
  obtain ⟨hlen, hplen, hall⟩ := holds_spec h hids hmem
  have hcne : c.order_ ≠ [] := List.ne_nil_of_mem ((hmem x).mpr hx)
  have hpos : 0 < c.order_.length := List.length_pos_iff.mpr hcne
  have hle := h.played_le
  obtain ⟨-, -, hplayed, -, -⟩ := next_spec gen h hcne
  rw [hplayed]
  by_cases hex : c.order_.length ≤ c.played_
  · -- a new cycle: all was played, now only another one is
    have hxp : x ∈ c.played := hall hex ▸ (hmem x).mpr hx
    rw [if_pos hex, List.nil_append, latest, latest, if_neg (by simpa using hne.symm), if_pos hxp,
      List.length_singleton]
    omega
  · rw [if_neg hex, latest, latest, List.length_append, List.length_singleton]
    by_cases hxp : x ∈ c.played
    · rw [if_pos (List.mem_append_left _ hxp), if_pos hxp]; omega
    · rw [if_neg (by simp [hxp, hne.symm]), if_neg hxp]; omega

/-- Syncing with the list the bag already holds keeps what it has played. -/
theorem sync_next_played {ids : List Int} {c : ShuffleBag γ} (h : c.Ok) (hids : ids.Nodup)
    (hmem : ∀ y, y ∈ c.order_ ↔ y ∈ ids) (hne : c.order_ ≠ []) :
    ((c.next gen).2.sync gen ids).played = (c.next gen).2.played := by
  obtain ⟨hok, hpick, hplayed, -, -⟩ := next_spec gen h hne
  rw [(sync_spec gen hok hids).2.2.2, List.filter_eq_self]
  intro y hy
  refine decide_eq_true ((hmem y).mp ?_)
  rw [hplayed] at hy
  rcases List.mem_append.mp hy with hy | hy
  · split at hy
    · cases hy
    · exact List.mem_of_mem_take hy
  · rw [List.mem_singleton] at hy
    exact hy ▸ hpick

/-- One `sync` and `next`: a pick from the list, and another one than `x` brings `x` closer. -/
theorem sync_next_spec {ids : List Int} (hids : ids.Nodup) {x : Int} (hx : x ∈ ids)
    {b : ShuffleBag γ} (h : b.Ok) :
    ((b.sync gen ids).next gen).1 ∈ ids ∧ ((b.sync gen ids).next gen).2.Ok ∧
      (((b.sync gen ids).next gen).1 ≠ x →
        latest ids.length (((b.sync gen ids).next gen).2.sync gen ids).played x <
          latest ids.length (b.sync gen ids).played x) := by
  obtain ⟨hok, hmem, -, -⟩ := sync_spec gen h hids
  have hne : (b.sync gen ids).order_ ≠ [] := List.ne_nil_of_mem ((hmem x).mpr hx)
  obtain ⟨hok', hpick, -, -, -⟩ := next_spec gen hok hne
  refine ⟨(hmem _).mp hpick, hok', fun hother => ?_⟩
  rw [sync_next_played gen hok hids hmem hne]
  exact latest_next gen hok hids hmem hx hother

/-! ## A pick that leaves the bag where it was -/

theorem next_order_perm {b : ShuffleBag γ} (h : b.Ok) : (b.next gen).2.order_.Perm b.order_ := by
  simp only [next]
  split
  · exact .refl _
  · split
    · exact (reshuffle_spec gen h).1
    · exact .refl _

/-- The cycle of a single picture, which was played. -/
def OneRound (b : ShuffleBag γ) (ids : List Int) : Prop :=
  ids.length = 1 ∧ b.order_ = ids ∧ b.played_ = 1

/-- A round of one picture is followed by the same one. -/
theorem OneRound.next {b : ShuffleBag γ} (h : b.Ok) {ids : List Int} (hb : b.OneRound ids) :
    [((b.sync gen ids).next gen).1] = ids ∧ ((b.sync gen ids).next gen).2.order_ = b.order_ ∧
      ((b.sync gen ids).next gen).2.played_ = b.played_ := by
  obtain ⟨hlen, horder, hone⟩ := hb
  obtain ⟨x, rfl⟩ := List.length_eq_one_iff.mp hlen
  obtain ⟨hok, hmem, -, hplayed⟩ := sync_spec gen h (List.nodup_singleton x)
  have hsynced : (b.sync gen [x]).order_ = [x] :=
    List.perm_singleton.mp ((List.perm_ext_iff_of_nodup hok.nodup (List.nodup_singleton x)).mpr hmem)
  have hplayedx : (b.sync gen [x]).played = [x] := by
    rw [hplayed, played, horder, hone]
    simp
  -- the bag is exhausted, so the pick begins a new cycle
  have hex : (b.sync gen [x]).order_.length ≤ (b.sync gen [x]).played_ := by
    have hle : (b.sync gen [x]).played.length ≤ (b.sync gen [x]).played_ := List.length_take_le _ _
    rw [hsynced]
    rw [hplayedx] at hle
    exact hle
  obtain ⟨hok', hpick, hnext, -, -⟩ := next_spec gen hok (by rw [hsynced]; exact List.cons_ne_nil x [])
  rw [if_pos hex, List.nil_append] at hnext
  have hx : ((b.sync gen [x]).next gen).1 = x := by
    rw [hsynced] at hpick
    exact List.mem_singleton.mp hpick
  have horder' : ((b.sync gen [x]).next gen).2.order_ = [x] :=
    List.perm_singleton.mp ((next_order_perm gen hok).trans (.of_eq hsynced))
  refine ⟨by rw [hx], horder'.trans horder.symm, ?_⟩
  have hlen' : ((b.sync gen [x]).next gen).2.played.length =
      ((b.sync gen [x]).next gen).2.played_ := List.length_take_of_le hok'.played_le
  rw [hnext] at hlen'
  rw [hone]
  exact hlen'.symm

/-- A regular pick moves the cycle on, but for a round of one picture. -/
theorem sync_next_eq_iff {b : ShuffleBag γ} (h : b.Ok) {ids : List Int} (hids : ids.Nodup)
    (hne : ids ≠ []) :
    ((b.sync gen ids).next gen).2.order_ = b.order_ ∧
      ((b.sync gen ids).next gen).2.played_ = b.played_ ↔ b.OneRound ids := by
  refine ⟨fun ⟨horder, hpos⟩ => ?_, fun hb => (hb.next gen h).2⟩
  obtain ⟨hok, hmem, -, hplayed⟩ := sync_spec gen h hids
  obtain ⟨x, hx⟩ := List.exists_mem_of_ne_nil ids hne
  obtain ⟨hok', -, hnext, -, -⟩ := next_spec gen hok (List.ne_nil_of_mem ((hmem x).mpr hx))
  have hperm : b.order_.Perm (b.sync gen ids).order_ := horder ▸ next_order_perm gen hok
  -- everything in the order stays, so the played ones do
  have hkept : (b.sync gen ids).played = b.played := by
    rw [hplayed, List.filter_eq_self]
    exact fun y hy => decide_eq_true ((hmem y).mp (hperm.subset (List.mem_of_mem_take hy)))
  have hsame : ((b.sync gen ids).next gen).2.played = b.played := by
    rw [played, horder, hpos, played]
  rw [hkept, hsame] at hnext
  have hlength := congrArg List.length hnext
  split at hnext <;> rename_i hex
  · have hone : b.played.length = 1 := by
      rw [if_pos hex] at hlength
      exact hlength
    have hall : (b.sync gen ids).order_.length = 1 := by
      obtain ⟨hlen, hplen, hall⟩ := holds_spec hok hids hmem
      rw [← hall hex, hkept, hone]
    have hidsone : ids.length = 1 := by
      rw [← ((List.perm_ext_iff_of_nodup hok.nodup hids).mpr hmem).length_eq, hall]
    refine ⟨hidsone, ?_, ?_⟩
    · obtain ⟨y, rfl⟩ := List.length_eq_one_iff.mp hidsone
      exact List.perm_singleton.mp
        (hperm.trans ((List.perm_ext_iff_of_nodup hok.nodup hids).mpr hmem))
    · rw [← hone, played, List.length_take_of_le h.played_le]
  · rw [if_neg hex, List.length_append, List.length_singleton] at hlength
    omega

end ShuffleBag

/-! ## Runs -/

section Runs

variable {γ : Type} (gen : Generator γ) (seed : γ) (ids : Nat → List Int)

/-- The bag before step `k` of a run of `sync(ids); next()`. -/
def bagAt : Nat → ShuffleBag γ
  | 0 => { rng_ := seed }
  | k + 1 => (((bagAt k).sync gen (ids k)).next gen).2

/-- The bag between the `sync` and the `next` of step `k`. -/
def syncedAt (k : Nat) : ShuffleBag γ := (bagAt gen seed ids k).sync gen (ids k)

/-- What `next` returns in step `k`. -/
def shownAt (k : Nat) : Int := ((syncedAt gen seed ids k).next gen).1

/-- Step `k` returns the id `x`; a step with an empty list returns none. -/
def Returns (k : Nat) (x : Int) : Prop := ids k ≠ [] ∧ shownAt gen seed ids k = x

/-- `next` reshuffles in step `k`. -/
def Reshuffles (k : Nat) : Prop := (syncedAt gen seed ids k).Exhausted

/-- A run as drawing from an urn: drawn is what the cycle has played. -/
def urn : Urn.Run Int where
  present k := { x | x ∈ ids k }
  drawn k := { x | x ∈ (bagAt gen seed ids k).played }
  pick k := if ids k = [] then none else some (shownAt gen seed ids k)
  restart := Reshuffles gen seed ids

variable {gen seed ids}

theorem pick_eq_some {k : Nat} {x : Int} :
    (urn gen seed ids).pick k = some x ↔ Returns gen seed ids k x := by
  simp only [urn, Returns]
  split <;> simp_all

variable (gen seed) (hids : ∀ k, (ids k).Nodup)
include hids

theorem bagAt_ok (k : Nat) : (bagAt gen seed ids k).Ok := by
  induction k with
  | zero => exact ⟨List.nodup_nil, Nat.le_refl _⟩
  | succ k ih =>
    have hs := (ShuffleBag.sync_spec gen ih (hids k)).1
    by_cases hne : (syncedAt gen seed ids k).order_ = []
    · show ((syncedAt gen seed ids k).next gen).2.Ok
      rw [ShuffleBag.next_of_nil gen hne]; exact hs
    · exact (ShuffleBag.next_spec gen hs hne).1

theorem synced_spec (k : Nat) :
    (syncedAt gen seed ids k).Ok ∧ (∀ x, x ∈ (syncedAt gen seed ids k).order_ ↔ x ∈ ids k) ∧
      ((bagAt gen seed ids k).order_.filter (· ∈ ids k)).Sublist (syncedAt gen seed ids k).order_ ∧
      (syncedAt gen seed ids k).played = (bagAt gen seed ids k).played.filter (· ∈ ids k) :=
  ShuffleBag.sync_spec gen (bagAt_ok gen seed hids k) (hids k)

theorem synced_order_eq_nil {k : Nat} : (syncedAt gen seed ids k).order_ = [] ↔ ids k = [] := by
  have hmem := (synced_spec gen seed hids k).2.1
  constructor <;> intro h <;> refine List.eq_nil_iff_forall_not_mem.mpr fun x hx => ?_
  · have hx' := (hmem x).mpr hx
    rw [h] at hx'; cases hx'
  · have hx' := (hmem x).mp hx
    rw [h] at hx'; cases hx'

/-- The bag of a run draws like an urn. -/
theorem lawful : (urn gen seed ids).Lawful where
  start := by ext x; simp [urn, bagAt, ShuffleBag.played]
  restart k hr x hx := by
    obtain ⟨-, hmem, -, hplayed⟩ := synced_spec gen seed hids k
    -- exhausted: the played part is the whole order
    have hall : (syncedAt gen seed ids k).played = (syncedAt gen seed ids k).order_ :=
      List.take_of_length_le hr.2
    have hx' : x ∈ (syncedAt gen seed ids k).played := hall ▸ (hmem x).mpr hx
    rw [hplayed] at hx'
    exact (List.mem_filter.mp hx').1
  present k x hp := by
    obtain ⟨hne, rfl⟩ := pick_eq_some.mp hp
    obtain ⟨hok, hmem, -, -⟩ := synced_spec gen seed hids k
    exact (hmem _).mp (ShuffleBag.next_spec gen hok (mt (synced_order_eq_nil gen seed hids).mp hne)).2.1
  fresh k x hp hr hx := by
    obtain ⟨hne, rfl⟩ := pick_eq_some.mp hp
    obtain ⟨hok, hmem, -, hplayed⟩ := synced_spec gen seed hids k
    have hne' := mt (synced_order_eq_nil gen seed hids).mp hne
    obtain ⟨-, hin, -, hnew, -⟩ := ShuffleBag.next_spec gen hok hne'
    refine hnew (fun hle => hr ⟨hne', hle⟩) ?_
    rw [hplayed]
    exact List.mem_filter.mpr ⟨hx, by simpa using (hmem _).mp hin⟩
  next k x := by
    obtain ⟨hok, -, -, hplayed⟩ := synced_spec gen seed hids k
    rw [pick_eq_some]
    show x ∈ ((syncedAt gen seed ids k).next gen).2.played ↔ _ ∨ ¬ Reshuffles gen seed ids k ∧
      x ∈ (bagAt gen seed ids k).played ∧ x ∈ ids k
    by_cases hne : ids k = []
    · have hnil := (synced_order_eq_nil gen seed hids).mpr hne
      rw [ShuffleBag.next_of_nil gen hnil]
      simp [ShuffleBag.played, hnil, Returns, hne]
    · have hne' := mt (synced_order_eq_nil gen seed hids).mp hne
      obtain ⟨-, -, hnext, -, -⟩ := ShuffleBag.next_spec gen hok hne'
      rw [hnext, List.mem_append, List.mem_singleton]
      by_cases hr : (syncedAt gen seed ids k).order_.length ≤ (syncedAt gen seed ids k).played_
      · have hre : Reshuffles gen seed ids k := ⟨hne', hr⟩
        simp [hr, hre, Returns, hne, shownAt, eq_comm]
      · have hre : ¬ Reshuffles gen seed ids k := fun h => hr h.2
        simp only [hr, hre, if_false, hplayed, List.mem_filter, decide_eq_true_eq, Returns, hne,
          shownAt, not_false_eq_true, true_and, ne_eq]
        tauto

/-- The picture returned last does not come again at once while there is another one. -/
theorem shown_ne {k : Nat} {x : Int} (hx : Returns gen seed ids k x) (hs : x ∈ ids (k + 1))
    (hl : 2 ≤ (ids (k + 1)).length) : shownAt gen seed ids (k + 1) ≠ x := by
  obtain ⟨hne, rfl⟩ := hx
  obtain ⟨hok, -, -, -⟩ := synced_spec gen seed hids k
  have hne₁ := mt (synced_order_eq_nil gen seed hids).mp hne
  obtain ⟨-, -, hlast, -, -⟩ := ShuffleBag.next_spec gen hok hne₁
  obtain ⟨hok', hmem', -, hplayed'⟩ := synced_spec gen seed hids (k + 1)
  have hne' : (syncedAt gen seed ids (k + 1)).order_ ≠ [] := by
    rw [Ne, synced_order_eq_nil gen seed hids]
    intro h; rw [h] at hl; simp at hl
  -- it is the last played id, so it stays the last played one over the sync
  have hend : (syncedAt gen seed ids (k + 1)).played.getLast? = some (shownAt gen seed ids k) := by
    rw [hplayed']
    show List.getLast? (List.filter _ ((syncedAt gen seed ids k).next gen).2.played) = _
    have hone : [((syncedAt gen seed ids k).next gen).1].filter (· ∈ ids (k + 1)) =
        [shownAt gen seed ids k] := by
      rw [show ((syncedAt gen seed ids k).next gen).1 = shownAt gen seed ids k from rfl]
      simp [hs]
    rw [hlast, List.filter_append, hone, List.getLast?_concat]
  obtain ⟨-, -, -, hnew, hshuffle⟩ := ShuffleBag.next_spec gen hok' hne'
  intro heq
  by_cases hex : (syncedAt gen seed ids (k + 1)).order_.length ≤
      (syncedAt gen seed ids (k + 1)).played_
  · have hall : (syncedAt gen seed ids (k + 1)).played = (syncedAt gen seed ids (k + 1)).order_ :=
      List.take_of_length_le hex
    have hlen : (ids (k + 1)).length ≤ (syncedAt gen seed ids (k + 1)).order_.length :=
      (List.subperm_of_subset (hids (k + 1)) fun y hy => (hmem' y).mpr hy).length_le
    exact hshuffle hex (by omega) (by rw [← hall, hend]; exact congrArg some heq.symm)
  · refine hnew hex ?_
    rw [show ((syncedAt gen seed ids (k + 1)).next gen).1 = _ from heq]
    exact List.mem_of_getLast? hend

end Runs

/-- The shuffle bag is fair over every run of `sync(ids); next()`, whatever the generator draws. -/
theorem shuffleBag_fair {γ : Type} (gen : Generator γ) (seed : γ) (ids : Nat → List Int)
    (hids : ∀ k, (ids k).Nodup) :
    -- after a sync: no id twice, exactly the ids of the list, what stays keeps its order
    (∀ k, (syncedAt gen seed ids k).order_.Nodup ∧
      (∀ x, x ∈ (syncedAt gen seed ids k).order_ ↔ x ∈ ids k) ∧
      (syncedAt gen seed ids k).played_ ≤ (syncedAt gen seed ids k).order_.length ∧
      ((bagAt gen seed ids k).order_.filter (· ∈ ids k)).Sublist (syncedAt gen seed ids k).order_) ∧
    -- within a cycle an id comes twice only if it was gone in between
    (∀ x i j, i < j → Returns gen seed ids i x → Returns gen seed ids j x →
      (∀ m, i < m → m ≤ j → ¬ Reshuffles gen seed ids m) → ∃ m, i < m ∧ m < j ∧ x ∉ ids m) ∧
    -- an id present in every sync of a complete cycle, or up to the first reshuffle, comes once
    (∀ x a b, a < b → (Reshuffles gen seed ids a ∨ a = 0) → Reshuffles gen seed ids b →
      (∀ m, a < m → m < b → ¬ Reshuffles gen seed ids m) → (∀ m, a < m → m ≤ b → x ∈ ids m) →
      ∃ i, (a ≤ i ∧ i < b ∧ Returns gen seed ids i x) ∧
        ∀ j, a ≤ j ∧ j < b ∧ Returns gen seed ids j x → j = i) ∧
    -- an id that arrives in step `a` comes before its cycle ends in step `b` unless it is removed
    (∀ x a b, a ≤ b → (∀ m, m + 1 = a → x ∉ ids m) → Reshuffles gen seed ids b →
      (∀ m, a ≤ m → m ≤ b → x ∈ ids m) → ∃ i, a ≤ i ∧ i < b ∧ Returns gen seed ids i x) ∧
    -- the id returned last does not come again at once
    (∀ x k, Returns gen seed ids k x → x ∈ ids (k + 1) → 2 ≤ (ids (k + 1)).length →
      shownAt gen seed ids (k + 1) ≠ x) := by
  have hlaw := lawful gen seed hids
  refine ⟨fun k => ?_, fun x i j hij hi hj hn => ?_, fun x a b hab ha hb hn hs => ?_,
    fun x a b hab ha hb hs => ?_, fun x k => shown_ne gen seed hids⟩
  · obtain ⟨hok, hmem, hsub, -⟩ := synced_spec gen seed hids k
    exact ⟨hok.nodup, hmem, hok.played_le, hsub⟩
  · by_contra hno
    refine hlaw.no_repeat hij (pick_eq_some.mpr hi) (pick_eq_some.mpr hj) (fun m h1 h2 => ?_)
      fun m h1 h2 => hn m h1 (by omega)
    by_contra hx
    exact hno ⟨m, h1, h2, hx⟩
  · obtain ⟨i, ⟨h1, h2, h3⟩, huniq⟩ := hlaw.exactly_once ha hab hb (fun m h1 h2 => hn m h1 h2)
      fun m h1 h2 => hs m h1 (by omega)
    exact ⟨i, ⟨h1, h2, pick_eq_some.mp h3⟩, fun j ⟨g1, g2, g3⟩ =>
      huniq j ⟨g1, g2, pick_eq_some.mpr g3⟩⟩
  · obtain ⟨i, h1, h2, h3⟩ := hlaw.picked_of_arrival ha hab hb (hs b hab (Nat.le_refl b))
    exact ⟨i, h1, h2, pick_eq_some.mp h3⟩

/-- A generator that draws the lower bound and shuffles nothing. -/
def lowest : Generator Unit where
  uniform _ lo _ := (lo, ())
  shuffle _ l := (l, ())
  uniform_mem _ _ _ h := ⟨Nat.le_refl _, h⟩
  shuffle_perm _ _ := .refl _

/-- Two full cycles of three pictures: each comes once in the second one, and the reshuffle does not
repeat the last one. -/
theorem shuffleBag_fair_three :
    (List.range 7).map (shownAt lowest () fun _ => [1, 2, 3]) = [3, 2, 1, 3, 2, 1, 3] ∧
      (∃ i, (3 ≤ i ∧ i < 6 ∧ Returns lowest () (fun _ => [1, 2, 3]) i 2) ∧
        ∀ j, 3 ≤ j ∧ j < 6 ∧ Returns lowest () (fun _ => [1, 2, 3]) j 2 → j = i) := by
  obtain ⟨-, -, honce, -, -⟩ := shuffleBag_fair lowest () (fun _ => [1, 2, 3]) fun _ => by decide
  refine ⟨by decide, honce 2 3 6 (by decide) (.inl ?_) ?_ (fun m h1 h2 => ?_) fun _ _ _ => by decide⟩
  · unfold Reshuffles; decide
  · unfold Reshuffles; decide
  · obtain rfl | rfl : m = 4 ∨ m = 5 := by omega
    all_goals unfold Reshuffles; decide

end ShareFrame.Playback
