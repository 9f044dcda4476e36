import ShareFrame.Image.ImageManager
import ShareFrame.Lib.Machine

/-!
# Crashes of the picture store

One thread runs `saveImage`, `removeImages` and `removeExpired` in any order; the
process may end between any two statements and starts again with the constructor.
A crash changes no row, and the constructor removes the files of no row
(`Repairs`). It does not remove a row whose file is missing: files and rows agree
again unless the crash came behind a removed file and before the `DELETE`
(`survives_iff`).
-/

namespace ShareFrame.ImageManager

/-- No operation runs. -/
def Pc.resting : Pc → Bool
  | .idle | .removed _ | .starting | .ready => true
  | _ => false

/-- The picture is being saved, removed or expired. -/
def Pc.About : Pc → Image → Prop
  | .save id _ _ _, row => row.id = id
  | .writing image _, row | .saving image, row => row.id = image.id
  | .clear ids, row | .clearing ids _ _, row => row.id ∈ ids
  | .expireAll now, row | .expiring now _ _ _, row => row.expiresAt < now
  | _, _ => False

theorem Pc.About.of_eq {pc : Pc} {a b : Image} (h : pc.About a) (hid : a.id = b.id)
    (hexpires : a.expiresAt = b.expiresAt) : pc.About b := by
  cases pc <;> simp only [About, hid, hexpires] at h ⊢ <;> exact h

/-- Every row has its file, and every file belongs to a row. -/
def Store.Consistent (st : Store) : Prop :=
  (∀ row ∈ st.rows, st.Has row.imagePath) ∧ ∀ f ∈ st.files, ∃ row ∈ st.rows, row.imagePath = f.path

instance (st : Store) : Decidable st.Consistent := by unfold Store.Consistent; infer_instance

namespace Crash

open Transition

structure State where
  store : Store
  pc : Pc := .starting
  /-- *ghost*: the store when no operation ran, last -/
  before : Store
  deriving DecidableEq

inductive Op where
  | saveImage (sentImageId : Int) (sender base64Data : String) (expiresAt : Int)
  | removeImages (ids : List Int)
  | removeExpired

def Op.pc : Op → Pc
  | .saveImage id sender data expiresAt => .save id sender data expiresAt
  | .removeImages ids => .clear ids
  | .removeExpired => .expire

inductive Act where
  | tick (now : Int)
  | start (op : Op)
  /-- the next statement -/
  | call (ok : Bool)
  | crash

variable (dir : String) (decode : String → List UInt8)

/-- The process starts again. -/
def State.restarted (s : State) : State := { s with pc := .starting, before := s.store }

def step (s : State) : Act → Option State
  | .tick now => some { s with store := ⟨now, s.store.rows, s.store.files⟩ }
  | .start op => if s.pc = .idle ∨ s.pc = .ready then some { s with pc := op.pc } else none
  | .call ok => (next dir decode s.store s.pc ok).map fun (st, pc) =>
      { store := st, pc, before := if pc.resting then st else s.before }
  | .crash => some s.restarted

/-- The process starts, with files for all its rows. -/
def Init (s : State) : Prop :=
  s.pc = .starting ∧ s.before = s.store ∧
    ∀ row ∈ s.store.rows, Named dir row ∧ s.store.Has row.imagePath

def machine : Machine State Act := ⟨Init dir, step dir decode⟩

/-- The process does not die, and no `DELETE` fails, behind a file that the operation has removed;
and the constructor removes every file that it wants to. -/
def Whole (s : State) : Act → Bool
  | .crash => s.pc.gone = []
  | .call ok => spares s.pc ok
  | _ => true

/-- Steps of the constructor, and of the process that dies in it. -/
def Starts (s : State) : Act → Bool
  | .start _ => false
  | a => Whole s a

variable {dir decode} {s s' t : State} {a : Act} {st st' : Store} {pc pc' : Pc} {ok : Bool}

theorem exists_of_call (hs : step dir decode s (.call ok) = some s') :
    ∃ st pc, next dir decode s.store s.pc ok = some (st, pc) ∧
      s' = ⟨st, pc, if pc.resting then st else s.before⟩ := by
  obtain ⟨⟨st, pc⟩, hnext, rfl⟩ := Option.map_eq_some_iff.mp hs
  exact ⟨st, pc, hnext, rfl⟩

/-! ## The constructor -/

/-- The files that it has not come to yet may be orphans, the others are not. -/
def Pending (st : Store) : Pc → Prop
  | .orphans known todo =>
    known = st.rows.map (·.imagePath) ∧ ∀ f ∈ st.files, f.path ∈ known ∨ f.path ∈ todo
  | .ready => ∀ f ∈ st.files, f.path ∈ st.rows.map (·.imagePath)
  | .starting => True
  | _ => False

/-- What the constructor keeps of a store. -/
structure Keeps (st st' : Store) : Prop where
  rows : st'.rows = st.rows
  mem : ∀ f, f.path ∈ st.rows.map (·.imagePath) → (f ∈ st'.files ↔ f ∈ st.files)

theorem Keeps.refl : Keeps st st := ⟨rfl, fun _ _ => .rfl⟩

theorem Keeps.trans {st'' : Store} (h : Keeps st st') (h' : Keeps st' st'') : Keeps st st'' :=
  ⟨h'.rows.trans h.rows, fun f hf => (h'.mem f (h.rows ▸ hf)).trans (h.mem f hf)⟩

theorem Keeps.has {row : Image} (h : Keeps st st') (hrow : row ∈ st.rows) :
    st'.Has row.imagePath ↔ st.Has row.imagePath := by
  have hmem : row.imagePath ∈ st.rows.map (·.imagePath) := List.mem_map_of_mem hrow
  simp only [Store.has_iff]
  constructor
  · rintro ⟨f, hf, hpath⟩
    exact ⟨f, (h.mem f (hpath ▸ hmem)).mp hf, hpath⟩
  · rintro ⟨f, hf, hpath⟩
    exact ⟨f, (h.mem f (hpath ▸ hmem)).mpr hf, hpath⟩

theorem Pending.next (h : Pending st pc) (hok : spares pc ok)
    (hnext : next dir decode st pc ok = some (st', pc')) : Pending st' pc' ∧ Keeps st st' := by
  cases pc with
  | ready => cases hnext
  | starting =>
    cases ok <;> cases hnext
    · exact ⟨trivial, .refl⟩
    · exact ⟨⟨rfl, fun f hf => .inr (List.mem_map_of_mem hf)⟩, .refl⟩
  | orphans known todo =>
    obtain ⟨rfl, hcover⟩ := h
    cases todo with
    | nil =>
      cases hnext
      exact ⟨fun f hf => (hcover f hf).resolve_right List.not_mem_nil, .refl⟩
    | cons file todo =>
      cases hnext
      by_cases hfile : file ∈ st.rows.map (·.imagePath)
      · rw [if_pos hfile]
        refine ⟨⟨rfl, fun f hf => ?_⟩, .refl⟩
        obtain hf | hf := hcover f hf
        · exact .inl hf
        · obtain hf | hf := List.mem_cons.mp hf
          · exact .inl (hf ▸ hfile)
          · exact .inr hf
      · obtain rfl : ok = true := by simpa [spares, hfile] using hok
        rw [if_neg hfile]
        refine ⟨⟨rfl, fun f hf => ?_⟩, rfl, fun f hf => ?_⟩
        · obtain ⟨hf, hne⟩ := Store.mem_remove.mp hf
          exact (hcover f hf).imp_right fun hf => (List.mem_cons.mp hf).resolve_left hne
        · exact Store.mem_removeIf_of_ne fun hpath => hfile (hpath ▸ hf)
  | _ => cases h

/-- What the constructor does to the store that it finds. -/
structure Repairs (st : Store) (t : State) : Prop where
  pending : Pending t.store t.pc
  keeps : Keeps st t.store

theorem Repairs.step (h : Repairs st s) (hG : Starts s a) (hs : step dir decode s a = some s') :
    Repairs st s' := by
  cases a with
  | start op => cases hG
  | tick now =>
    cases hs
    exact ⟨h.pending, h.keeps.trans ⟨rfl, fun _ _ => .rfl⟩⟩
  | crash =>
    cases hs
    exact ⟨trivial, h.keeps⟩
  | call ok =>
    obtain ⟨st', pc', hnext, rfl⟩ := exists_of_call hs
    obtain ⟨hpending, hkeeps⟩ := h.pending.next hG hnext
    exact ⟨hpending, h.keeps.trans hkeeps⟩

theorem repairs_of_run {as : List Act}
    (h : (machine dir decode).RunBy (fun s a => Starts s a) s.restarted as t) :
    Repairs s.store t :=
  h.invariant (I := Repairs s.store) (fun _ _ _ hI hG hs => hI.step hG hs) ⟨trivial, .refl⟩

/-! ## Operations -/

/-- What an operation knows about the store that it has come to. -/
def Doing (st : Store) : Pc → Prop
  | .saving image => st.Has image.imagePath
  | .clearing ids todo _ => ∀ image ∈ todo, image ∈ st.rows ∧ image.id ∈ ids
  | .expiring _ todo _ _ => ∀ image ∈ todo, image ∈ st.rows
  | .orphans known todo => Pending st (.orphans known todo)
  | .ready => Pending st .ready
  | _ => True

variable (dir) in
/-- An operation changes no row before it ends, and only files of the pictures that it is about. -/
structure Tracks (before st : Store) (pc : Pc) : Prop where
  images : ∀ image ∈ pc.images, Named dir image
  rows : st.rows = before.rows
  files : ∀ row ∈ st.rows, st.Has row.imagePath ∨ row.imagePath ∈ pc.gone
  gone : ∀ p ∈ pc.gone, ¬ st.Has p ∧
    ∃ row ∈ st.rows, row.imagePath = p ∧ pc.Deletes row ∧ pc.About row
  others : ∀ row ∈ st.rows, ¬ pc.About row → ∀ data,
    ((⟨row.imagePath, data⟩ : File) ∈ st.files ↔ ⟨row.imagePath, data⟩ ∈ before.files)
  doing : Doing st pc

/-- No operation runs. -/
theorem Tracks.rest (hpc : pc.resting) (hfiles : ∀ row ∈ st.rows, st.Has row.imagePath)
    (hdoing : Doing st pc) : Tracks dir st st pc := by
  have himages : pc.images = [] := by cases pc <;> first | rfl | cases hpc
  have hgone : pc.gone = [] := by cases pc <;> first | rfl | cases hpc
  exact ⟨himages ▸ nofun, rfl, fun row hrow => .inl (hfiles row hrow), hgone ▸ nofun,
    fun _ _ _ _ => .rfl, hdoing⟩

theorem Tracks.has_of_gone {before : Store} (h : Tracks dir before st pc) (hgone : pc.gone = [])
    {row : Image} (hrow : row ∈ st.rows) : st.Has row.imagePath :=
  (h.files row hrow).resolve_right (hgone ▸ List.not_mem_nil)

/-- A row that the `DELETE` does not find has its file. -/
theorem Tracks.has_of_not_deletes {before : Store} (h : Tracks dir before st pc)
    (hnamed : ∀ row ∈ st.rows, Named dir row) {row : Image} (hrow : row ∈ st.rows)
    (hnot : ¬ pc.Deletes row) : st.Has row.imagePath := by
  refine (h.files row hrow).resolve_right fun hgone => ?_
  obtain ⟨-, row', hrow', hpath, hdeletes, -⟩ := h.gone _ hgone
  exact hnot (hdeletes.of_id_eq ((hnamed row' hrow').inj (hnamed row hrow) hpath).1)

theorem Tracks.has_of_not_about {before : Store} (h : Tracks dir before st pc)
    (hnamed : ∀ row ∈ st.rows, Named dir row) {row : Image} (hrow : row ∈ st.rows)
    (hnot : ¬ pc.About row) : st.Has row.imagePath := by
  refine (h.files row hrow).resolve_right fun hgone => ?_
  obtain ⟨-, row', hrow', hpath, -, habout⟩ := h.gone _ hgone
  obtain ⟨hid, hexpires⟩ := (hnamed row' hrow').inj (hnamed row hrow) hpath
  exact hnot (habout.of_eq hid hexpires)

/-- The operation removes the file of a picture that it is about, or fails to. -/
theorem Tracks.remove {before : Store} {image : Image} (h : Tracks dir before st pc)
    (himage : image ∈ st.rows) (hgone : pc'.gone = goneIf ok image.imagePath pc.gone)
    (hdeletes : ∀ row, pc.Deletes row → pc'.Deletes row) (hdel : pc'.Deletes image)
    (habout : pc'.About = pc.About) (himageabout : pc.About image)
    (hothers : ∀ row ∈ st.rows, ¬ pc.About row → row.imagePath ≠ image.imagePath)
    (himages : ∀ image ∈ pc'.images, image ∈ pc.images)
    (hdoing : Doing (st.removeIf ok image.imagePath) pc') :
    Tracks dir before (st.removeIf ok image.imagePath) pc' where
  images row hrow := h.images row (himages row hrow)
  rows := Store.rows_removeIf.trans h.rows
  files row hrow := by
    rw [Store.rows_removeIf] at hrow
    rw [hgone, mem_goneIf]
    by_cases hpath : row.imagePath = image.imagePath
    · cases ok with
      | true => exact .inr (.inl ⟨rfl, hpath⟩)
      | false => exact (h.files row hrow).imp_right .inr
    · exact (h.files row hrow).imp (Store.has_removeIf_of_ne hpath).mpr .inr
  gone p hp := by
    rw [Store.rows_removeIf]
    rw [hgone, mem_goneIf] at hp
    obtain ⟨rfl, rfl⟩ | hp := hp
    · exact ⟨fun hhas => (Store.has_remove.mp hhas).2 rfl, image, himage, rfl, hdel,
        habout ▸ himageabout⟩
    · obtain ⟨hhas, row, hrow, hpath, hrowdel, hrowabout⟩ := h.gone p hp
      exact ⟨fun hp => hhas (Store.has_of_removeIf hp), row, hrow, hpath, hdeletes row hrowdel,
        habout ▸ hrowabout⟩
  others row hrow hnot data := by
    rw [Store.rows_removeIf] at hrow
    rw [habout] at hnot
    exact (Store.mem_removeIf_of_ne (hothers row hrow hnot)).trans (h.others row hrow hnot data)
  doing := hdoing

theorem Tracks.next {before : Store} (h : Tracks dir before st pc)
    (hnamed : ∀ row ∈ st.rows, Named dir row) (hok : spares pc ok)
    (hnext : next dir decode st pc ok = some (st', pc')) :
    Tracks dir (if pc'.resting then st' else before) st' pc' := by
  have himages := (next_named hnext hnamed h.images).2
  cases pc with
  | idle | ready => cases hnext
  | removed => cases hnext; exact .rest rfl (fun _ => h.has_of_gone rfl) trivial
  | expire => 
    cases hnext
    exact ⟨himages, h.rows, h.files, List.forall_mem_nil _, fun row hrow _ => h.others row hrow id, trivial⟩
  | check =>
    simp only [ImageManager.next] at hnext
    split at hnext <;> cases hnext
    · exact ⟨himages, h.rows, h.files, List.forall_mem_nil _, fun row hrow _ => h.others row hrow id, trivial⟩
    · exact .rest rfl (fun _ => h.has_of_gone rfl) trivial
  | save id sender data expiresAt =>
    simp only [ImageManager.next] at hnext
    split at hnext <;> cases hnext
    · exact .rest rfl (fun _ => h.has_of_gone rfl) trivial
    · exact ⟨himages, h.rows, h.files, h.gone, h.others, trivial⟩
  | writing image data =>
    cases ok <;> cases hnext
    · exact .rest rfl (fun _ => h.has_of_gone rfl) trivial
    · refine ⟨himages, h.rows, fun row hrow => .inl ?_, List.forall_mem_nil _,
        fun row hrow hnot _ => ?_, ?_⟩
      · exact Store.has_write.mpr (.inr (h.has_of_gone rfl hrow))
      · have hne : row.imagePath ≠ image.imagePath := fun hpath =>
          hnot ((hnamed row hrow).inj (h.images image (List.mem_singleton.mpr rfl)) hpath).1
        refine Store.mem_write.trans (Iff.trans ?_ (h.others row hrow hnot _))
        exact ⟨fun hf => hf.elim (fun hf => absurd (congrArg File.path hf) hne) (·.1),
          fun hf => .inr ⟨hf, hne⟩⟩
      · exact Store.has_write.mpr (.inl rfl)
  | saving image =>
    cases ok <;> cases hnext
    · exact .rest rfl (fun _ => h.has_of_gone rfl) trivial
    · refine .rest rfl (fun row hrow => ?_) trivial
      obtain rfl | ⟨hrow, -⟩ := Store.mem_save.mp hrow
      · exact h.doing
      · exact h.has_of_gone rfl hrow
  | clear ids =>
    cases ok <;> cases hnext
    · exact .rest rfl (fun _ => h.has_of_gone rfl) trivial
    · refine ⟨himages, h.rows, h.files, List.forall_mem_nil _, h.others, fun image himage => ?_⟩
      obtain ⟨hmem, hid⟩ := List.mem_filter.mp himage
      exact ⟨hmem, of_decide_eq_true hid⟩
  | clearing ids todo gone =>
    cases todo with
    | cons image todo =>
      cases hnext
      obtain ⟨himage, hid⟩ := h.doing image List.mem_cons_self
      refine h.remove himage rfl (fun _ => id) hid rfl hid (fun row hrow hnot hpath => ?_)
        (fun _ => List.mem_cons_of_mem _) fun image' himage' => ?_
      · have hsame := ((hnamed row hrow).inj (hnamed image himage) hpath).1
        exact hnot (show row.id ∈ ids by rwa [hsame])
      · rw [Store.rows_removeIf]
        exact h.doing image' (List.mem_cons_of_mem _ himage')
    | nil =>
      cases ok <;> cases hnext
      · exact .rest rfl (fun _ => h.has_of_gone (of_decide_eq_true hok)) trivial
      · refine .rest rfl (fun row hrow => ?_) trivial
        obtain ⟨hrow, hid⟩ := Store.mem_removeByIds.mp hrow
        exact h.has_of_not_deletes hnamed hrow hid
  | expireAll now =>
    cases ok <;> cases hnext
    · exact .rest rfl (fun _ => h.has_of_gone rfl) trivial
    · exact ⟨himages, h.rows, h.files, List.forall_mem_nil _, h.others, fun _ => id⟩
  | expiring now todo expired gone =>
    cases todo with
    | cons image todo =>
      have htodo : ∀ row ∈ todo, row ∈ st.rows :=
        fun row hrow => h.doing row (List.mem_cons_of_mem _ hrow)
      simp only [ImageManager.next] at hnext
      split at hnext <;> cases hnext
      next hpast =>
        refine h.remove (h.doing image List.mem_cons_self) rfl
          (fun _ hdel => List.mem_append.mpr (.inl hdel))
          (List.mem_append.mpr (.inr (List.mem_singleton.mpr rfl))) rfl hpast
          (fun row hrow hnot hpath => ?_) (fun _ => List.mem_cons_of_mem _) ?_
        · have hsame := ((hnamed row hrow).inj (h.images image List.mem_cons_self) hpath).2
          exact hnot (show row.expiresAt < now by omega)
        · show ∀ row ∈ todo, row ∈ (st.removeIf ok image.imagePath).rows
          rwa [Store.rows_removeIf]
      next => exact ⟨himages, h.rows, h.files, h.gone, h.others, htodo⟩
    | nil =>
      have hhas : ∀ row ∈ st.rows, row.id ∉ expired → st.Has row.imagePath := fun row hrow hid =>
        h.has_of_not_deletes hnamed hrow hid
      simp only [ImageManager.next] at hnext
      split at hnext
      next hnil =>
        cases hnext
        exact .rest rfl (fun row hrow => hhas row hrow (hnil ▸ List.not_mem_nil)) trivial
      next =>
        cases ok <;> cases hnext
        · exact .rest rfl (fun _ => h.has_of_gone (of_decide_eq_true hok)) trivial
        · refine .rest rfl (fun row hrow => ?_) trivial
          obtain ⟨hrow, hid⟩ := Store.mem_removeByIds.mp hrow
          exact hhas row hrow hid
  | starting =>
    have hstart : Pending st .starting := trivial
    obtain ⟨hpending, -⟩ := hstart.next hok hnext
    cases ok <;> cases hnext
    · exact .rest rfl (fun _ => h.has_of_gone rfl) trivial
    · exact ⟨himages, h.rows, h.files, List.forall_mem_nil _, fun row hrow _ => h.others row hrow id, hpending⟩
  | orphans known todo =>
    have horphans : Pending st (.orphans known todo) := h.doing
    obtain ⟨hpending, hkeeps⟩ := horphans.next hok hnext
    have hhas : ∀ row ∈ st'.rows, st'.Has row.imagePath := fun row hrow => by
      rw [hkeeps.rows] at hrow
      exact (hkeeps.has hrow).mpr (h.has_of_gone rfl hrow)
    cases todo with
    | nil =>
      cases hnext
      exact .rest rfl hhas hpending
    | cons file todo =>
      cases hnext
      refine ⟨himages, hkeeps.rows.trans h.rows, fun row hrow => .inl (hhas row hrow),
        List.forall_mem_nil _, fun row hrow _ data => ?_, hpending⟩
      rw [hkeeps.rows] at hrow
      exact (hkeeps.mem _ (List.mem_map_of_mem hrow)).trans (h.others row hrow id data)

/-! ## Runs -/

variable (dir) in
structure Inv (s : State) : Prop where
  named : ∀ row ∈ s.store.rows, Named dir row
  tracks : Tracks dir s.before s.store s.pc

theorem inv_inductive : (machine dir decode).Inductive (fun s a => Whole s a) (Inv dir) where
  init s h := by
    obtain ⟨hpc, hbefore, hrows⟩ := h
    refine ⟨fun row hrow => (hrows row hrow).1, ?_⟩
    rw [hbefore, hpc]
    exact .rest rfl (fun row hrow => (hrows row hrow).2) trivial
  step s a s' h hG hs := by
    obtain ⟨hnamed, htracks⟩ := h
    cases a with
    | tick now =>
      cases hs
      exact ⟨hnamed, htracks.images, htracks.rows, htracks.files, htracks.gone, htracks.others,
        htracks.doing⟩
    | start op =>
      have hs : (if s.pc = .idle ∨ s.pc = .ready then some { s with pc := op.pc } else none) = some s' :=
        hs
      split at hs
      case isTrue hpc =>
        cases hs
        refine ⟨hnamed, ?_⟩
        have hrest : s.pc.gone = [] ∧ ∀ row, ¬ s.pc.About row := by
          obtain hpc | hpc := hpc <;> rw [hpc] <;> exact ⟨rfl, fun _ => id⟩
        have hfiles : ∀ row ∈ s.store.rows, s.store.Has row.imagePath :=
          fun _ => htracks.has_of_gone hrest.1
        have hothers := fun row hrow => htracks.others row hrow (hrest.2 row)
        cases op <;> exact ⟨nofun, htracks.rows, fun row hrow => .inl (hfiles row hrow), nofun,
          fun row hrow _ => hothers row hrow, trivial⟩
      case isFalse => cases hs
    | call ok =>
      obtain ⟨st', pc', hnext, rfl⟩ := exists_of_call hs
      exact ⟨(next_named hnext hnamed htracks.images).1, htracks.next hnamed hG hnext⟩
    | crash =>
      cases hs
      exact ⟨hnamed, .rest rfl (fun _ => htracks.has_of_gone (of_decide_eq_true hG)) trivial⟩

/-- The files that the operation has removed decide whether a crash is repaired. -/
theorem survives_iff (hr : (machine dir decode).ReachableBy (fun s a => Whole s a) s) :
    (s.pc = .ready → s.store.Consistent) ∧
      ∀ as t, (machine dir decode).RunBy (fun s a => Starts s a) s.restarted as t → t.pc = .ready →
        (t.store.Consistent ↔ s.pc.gone = []) ∧ t.store.rows = s.before.rows ∧
          ∀ row ∈ s.before.rows, ¬ s.pc.About row →
            t.store.Has row.imagePath ∧ ∀ data, ((⟨row.imagePath, data⟩ : File) ∈ t.store.files ↔
              ⟨row.imagePath, data⟩ ∈ s.before.files) := by
  obtain ⟨hnamed, htracks⟩ := inv_inductive.of_reachable hr
  have hcover {t : State} (hpending : Pending t.store t.pc) (hpc : t.pc = .ready) :
      ∀ f ∈ t.store.files, ∃ row ∈ t.store.rows, row.imagePath = f.path := by
    rw [hpc] at hpending
    exact fun f hf => List.mem_map.mp (hpending f hf)
  refine ⟨fun hpc => ⟨fun row => htracks.has_of_gone (hpc ▸ rfl), ?_⟩, fun as t hrun hready => ?_⟩
  · refine hcover ?_ hpc
    have hdoing := htracks.doing
    rw [hpc] at hdoing ⊢
    exact hdoing
  obtain ⟨hpending, hkeeps⟩ := repairs_of_run hrun
  refine ⟨⟨fun h => ?_, fun hgone => ⟨fun row hrow => ?_, hcover hpending hready⟩⟩,
    hkeeps.rows.trans htracks.rows, fun row hrow hnot => ?_⟩
  · refine List.eq_nil_iff_forall_not_mem.mpr fun p hp => ?_
    obtain ⟨hmissing, row, hrow, rfl, -, -⟩ := htracks.gone p hp
    exact hmissing ((hkeeps.has hrow).mp (h.1 row (hkeeps.rows ▸ hrow)))
  · rw [hkeeps.rows] at hrow
    exact (hkeeps.has hrow).mpr (htracks.has_of_gone hgone hrow)
  · rw [← htracks.rows] at hrow
    exact ⟨(hkeeps.has hrow).mpr (htracks.has_of_not_about hnamed hrow hnot), fun data =>
      (hkeeps.mem _ (List.mem_map_of_mem hrow)).trans (htracks.others row hrow hnot data)⟩

/-- The process that has never stored a picture. -/
def empty : State := ⟨{}, .starting, {}⟩

theorem init_empty : (machine "images" fun _ => [1]).Init empty := ⟨rfl, rfl, nofun⟩

/-- A crash behind the file of a picture that is being saved: the file goes. -/
theorem survives_iff_saving :
    let image : Image := ⟨5, "Ann", "images/Ann_0_100_5.jpg", 100, 0⟩
    let s : State := ⟨⟨0, [], [⟨image.imagePath, [1]⟩]⟩, .saving image, {}⟩
    let t : State := ⟨{}, .ready, {}⟩
    (machine "images" fun _ => [1]).Reachable s ∧
      (machine "images" fun _ => [1]).RunBy (fun s a => Starts s a) s.restarted
        [.call true, .call true, .call true] t ∧
      t.store.Consistent := by
  intro image s t
  have hr : (machine "images" fun _ => [1]).ReachableBy (fun s a => Whole s a) s :=
    Machine.ReachableBy.run [.call true, .call true, .start (.saveImage 5 "Ann" "/9j/" 100),
      .call true, .call true] (.init init_empty) (by decide +kernel) (by decide +kernel)
  have hrun : (machine "images" fun _ => [1]).RunBy (fun s a => Starts s a) s.restarted
      [.call true, .call true, .call true] t :=
    ⟨by decide +kernel, by decide +kernel⟩
  exact ⟨hr.reachable, hrun, (((survives_iff hr).2 _ t hrun rfl).1).mpr rfl⟩

/-- A crash of `removeExpired` between the file and the row. -/
theorem row_without_file :
    ∃ s, (machine "images" fun _ => [1]).Reachable s ∧ s.pc = .ready ∧ ¬ s.store.Consistent := by
  refine Machine.exists_reachable_of_run [.call true, .call true, .start (.saveImage 5 "Ann" "/9j/" 100),
    .call true, .call true, .call true, .tick 200, .start .removeExpired, .call true, .call true,
    .call true, .crash, .call true, .call true] init_empty ⟨_, rfl, ?_⟩
  exact ⟨by decide +kernel, by decide +kernel⟩

end Crash

end ShareFrame.ImageManager
