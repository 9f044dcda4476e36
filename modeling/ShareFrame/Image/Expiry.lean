import ShareFrame.Image.ImageManager
import ShareFrame.Lib.Machine

/-!
# Expiry beside updates

The thread of `ImageUpdate` and the expiry task work on one picture store. The
pass reads all rows, removes the files of the expired ones and deletes by id,
while the other thread may clear an id and store it anew. The files are those of
expired pictures whatever happens, since a name says when its picture expires; the
`DELETE` takes what the ids mean by then (`spares_live_iff`).
-/

namespace ShareFrame.ImageManager.Expiry

open Transition

structure State where
  store : Store
  update : Pc := .idle
  expiry : Pc := .idle
  deriving DecidableEq

inductive Act where
  | tick (now : Int)
  /-- the next message of `ImageUpdate` -/
  | picture (msg : Json)
  | clearImages (msg : Json)
  | update (ok : Bool)
  /-- the next pass of the expiry task -/
  | expire
  | expiry (ok : Bool)

variable (dir : String) (decode : String → List UInt8)

/-- A message that ends before its first query leaves the thread idle. -/
def receive (s : State) (pc : Option Pc) : Option State :=
  if s.update = .idle then some { s with update := pc.getD .idle } else none

def step (s : State) : Act → Option State
  | .tick now => some { s with store := ⟨now, s.store.rows, s.store.files⟩ }
  | .picture msg => receive s (onPicture msg)
  | .clearImages msg => receive s (onClearImages msg)
  | .update ok => (next dir decode s.store s.update ok).map fun (store, update) =>
      { s with store, update }
  | .expire => if s.expiry = .idle then some { s with expiry := .expire } else none
  | .expiry ok => (next dir decode s.store s.expiry ok).map fun (store, expiry) =>
      { s with store, expiry }

/-- Any pictures, with their files. -/
def Init (s : State) : Prop :=
  (∀ row ∈ s.store.rows, Named dir row ∧ s.store.Has row.imagePath) ∧
    (s.store.rows.map (·.id)).Nodup ∧ s.update = .idle ∧ s.expiry = .idle

def machine : Machine State Act := ⟨Init dir, step dir decode⟩

/-- Every expired id is still that of an expired picture. -/
def Still (now : Int) (expired : List Int) (st : Store) : Prop :=
  ∀ id ∈ expired, ∃ row ∈ st.rows, row.id = id ∧ row.expiresAt < now

instance (now : Int) (expired : List Int) (st : Store) : Decidable (Still now expired st) := by
  unfold Still; infer_instance

/-- No `DELETE` fails behind a removed file, and that of the pass finds every id as it read it. -/
def Kept (s : State) : Act → Bool
  | .update ok => spares s.update ok
  | .expiry ok => spares s.expiry ok && match s.expiry with
    | .expiring now [] expired _ => !ok || decide (Still now expired s.store)
    | _ => true
  | _ => true

/-- Of what has not expired at `now`, no row and no file goes. -/
def SparesLive (now : Int) (st st' : Store) : Prop :=
  ∀ row ∈ st.rows, now ≤ row.expiresAt →
    row ∈ st'.rows ∧ (st.Has row.imagePath → st'.Has row.imagePath)

/-- The ids are those of the rows that go. -/
def Deleted (st st' : Store) (ids : List Int) : Prop :=
  ∀ id, id ∈ ids ↔ ∃ row ∈ st.rows, row.id = id ∧ row ∉ st'.rows

variable {dir decode} {s s' : State} {a : Act} {st st' : Store} {pc pc' : Pc} {ok : Bool}

theorem exists_of_update (hs : step dir decode s (.update ok) = some s') :
    ∃ st pc, next dir decode s.store s.update ok = some (st, pc) ∧
      s' = { s with store := st, update := pc } := by
  obtain ⟨⟨st, pc⟩, hnext, rfl⟩ := Option.map_eq_some_iff.mp hs
  exact ⟨st, pc, hnext, rfl⟩

theorem exists_of_expiry (hs : step dir decode s (.expiry ok) = some s') :
    ∃ st pc, next dir decode s.store s.expiry ok = some (st, pc) ∧
      s' = { s with store := st, expiry := pc } := by
  obtain ⟨⟨st, pc⟩, hnext, rfl⟩ := Option.map_eq_some_iff.mp hs
  exact ⟨st, pc, hnext, rfl⟩

/-! ## What either thread keeps -/

/-- Where the thread of `ImageUpdate` can be. -/
def Updates : Pc → Bool
  | .idle | .check .. | .save .. | .writing .. | .saving _ | .clear _ | .clearing .. => true
  | _ => false

/-- Where the expiry task can be. -/
def Expires : Pc → Bool
  | .idle | .expire | .expireAll _ | .expiring .. | .removed _ => true
  | _ => false

theorem thread_next (h : next dir decode st pc ok = some (st', pc')) :
    (Updates pc → Updates pc') ∧ (Expires pc → Expires pc') := by
  unfold next at h
  split at h
  all_goals try split at h
  all_goals try split at h
  all_goals cases h
  all_goals constructor <;> intro hpc <;> first | rfl | cases hpc

/-- The picture that the operation is about to save has this id. -/
def Saves : Pc → Int → Prop
  | .save id _ _ _, n => id = n
  | .writing image _, n | .saving image, n => image.id = n
  | _, _ => False

variable (dir) in
/-- What a thread knows by itself. -/
structure Knows (pc : Pc) : Prop where
  images : ∀ image ∈ pc.images, Named dir image
  clearing : ∀ ids todo gone, pc = .clearing ids todo gone → ∀ image ∈ todo, image.id ∈ ids
  gone : ∀ p ∈ pc.gone, ∃ image, Named dir image ∧ image.imagePath = p ∧ pc.Deletes image

theorem Knows.next (h : Knows dir pc) (hnamed : ∀ row ∈ st.rows, Named dir row)
    (hnext : next dir decode st pc ok = some (st', pc')) : Knows dir pc' where
  images := (next_named hnext hnamed h.images).2
  clearing ids todo gone hpc := by
    subst hpc
    unfold ImageManager.next at hnext
    split at hnext
    all_goals try split at hnext
    all_goals try split at hnext
    all_goals cases hnext
    · exact fun image himage => of_decide_eq_true (List.mem_filter.mp himage).2
    · exact fun image himage => h.clearing _ _ _ rfl image (List.mem_cons_of_mem _ himage)
  gone := by
    cases effect_of_next hnext with
    | quiet hgone hdeletes =>
      intro p hp
      obtain ⟨image, himage, hpath, hdel⟩ := h.gone p (hgone ▸ hp)
      exact ⟨image, himage, hpath, hdeletes image hdel⟩
    | removed himage hdel hgone hdeletes =>
      intro p hp
      rw [hgone, mem_goneIf] at hp
      obtain ⟨-, rfl⟩ | hp := hp
      · refine ⟨_, h.images _ himage, rfl, hdel fun ids todo gone hpc => ?_⟩
        subst hpc
        exact h.clearing ids todo gone rfl _ himage
      · obtain ⟨image, himage, hpath, hdel⟩ := h.gone p hp
        exact ⟨image, himage, hpath, hdeletes image hdel⟩
    | deleted _ hgone | failed _ hgone => exact hgone ▸ nofun
    | wrote | saved | orphan => exact nofun

/-- A file that an operation does not find again is one that it has removed. -/
theorem next_has (h : next dir decode st pc ok = some (st', pc')) (hpc : Updates pc ∨ Expires pc)
    {p : String} (hp : st.Has p) : st'.Has p ∨ p ∈ pc'.gone := by
  cases effect_of_next h with
  | wrote => exact .inl (Store.has_write.mpr (.inr hp))
  | @removed image pc' himage hdel hgone =>
    by_cases hpath : p = image.imagePath
    · cases ok with
      | false => exact .inl hp
      | true => exact .inr (hgone ▸ mem_goneIf.mpr (.inl ⟨rfl, hpath⟩))
    · exact .inl ((Store.has_removeIf_of_ne hpath).mpr hp)
  | orphan horphans =>
    subst horphans
    obtain hpc | hpc := hpc <;> cases hpc
  | _ => exact .inl hp

/-- What an operation has removed stays noted until the row of it goes. -/
theorem next_gone (h : next dir decode st pc ok = some (st', pc')) (hspares : spares pc ok)
    (hknows : Knows dir pc) {row : Image} (hnamed : Named dir row) (hrow : row ∈ st'.rows)
    (hgone : row.imagePath ∈ pc.gone) : row.imagePath ∈ pc'.gone := by
  cases effect_of_next h with
  | quiet hsame => exact hsame ▸ hgone
  | removed _ _ hsame => exact hsame ▸ mem_goneIf.mpr (.inr hgone)
  | deleted hdeletes =>
    obtain ⟨image, himage, hpath, hdel⟩ := hknows.gone _ hgone
    have hid : row.id ∉ _ := (Store.mem_removeByIds.mp hrow).2
    rw [← (himage.inj hnamed hpath).1] at hid
    exact absurd ((hdeletes image).mp hdel) hid
  | failed hfailed => exact absurd (hfailed hspares ▸ hgone) List.not_mem_nil
  | wrote hpc | saved hpc | orphan hpc => exact absurd (hpc ▸ hgone) List.not_mem_nil

/-- The picture that is about to be saved has no row. -/
theorem next_fresh (h : next dir decode st pc ok = some (st', pc')) {id : Int} (hsaves : Saves pc' id)
    (hfresh : ∀ id, Saves pc id → ∀ row ∈ st.rows, row.id ≠ id) : ∀ row ∈ st'.rows, row.id ≠ id := by
  unfold next at h
  split at h
  all_goals try split at h
  all_goals try split at h
  all_goals cases h
  all_goals try cases hsaves
  case h_3.isTrue.refl.refl hcheck => exact hcheck.2
  all_goals exact hfresh _ rfl

theorem saving_next (h : next dir decode st pc ok = some (st', pc')) {image : Image}
    (hpc : pc' = .saving image) : st'.Has image.imagePath := by
  subst hpc
  unfold next at h
  split at h
  all_goals try split at h
  all_goals try split at h
  all_goals cases h
  exact Store.has_write.mpr (.inl rfl)

/-! ## Both threads -/

variable (dir) in
structure Inv (s : State) : Prop where
  named : ∀ row ∈ s.store.rows, Named dir row
  nodup : (s.store.rows.map (·.id)).Nodup
  updates : Updates s.update
  update : Knows dir s.update
  fresh : ∀ id, Saves s.update id → ∀ row ∈ s.store.rows, row.id ≠ id
  expires : Expires s.expiry
  expiry : Knows dir s.expiry

theorem onPicture_eq {msg : Json} (h : onPicture msg = some pc) :
    ∃ id sender data expiresAt, pc = .check id sender data expiresAt := by
  unfold onPicture at h
  split at h
  · split at h <;> cases h
    exact ⟨_, _, _, _, rfl⟩
  · cases h

theorem onClearImages_eq {msg : Json} (h : onClearImages msg = some pc) : ∃ ids, pc = .clear ids := by
  unfold onClearImages at h
  split at h <;> cases h
  exact ⟨_, rfl⟩

/-- A message starts an operation that saves nothing yet, or none. -/
theorem exists_of_receive (dir : String) {o : Option Pc} (hs : receive s o = some s')
    (ho : (∃ msg, o = onPicture msg) ∨ ∃ msg, o = onClearImages msg) :
    ∃ pc, s.update = .idle ∧ s' = { s with update := pc } ∧ Updates pc ∧ Knows dir pc ∧
      ∀ id, ¬ Saves pc id := by
  obtain ⟨hidle, hs⟩ := Option.ite_none_right_eq_some.mp hs
  refine ⟨o.getD .idle, hidle, (Option.some.inj hs).symm, ?_⟩
  cases hpc : o with
  | none => exact ⟨rfl, ⟨nofun, nofun, nofun⟩, fun _ => id⟩
  | some pc =>
    obtain ⟨msg, rfl⟩ | ⟨msg, rfl⟩ := ho
    · obtain ⟨_, _, _, _, rfl⟩ := onPicture_eq hpc
      exact ⟨rfl, ⟨nofun, nofun, nofun⟩, fun _ => id⟩
    · obtain ⟨_, rfl⟩ := onClearImages_eq hpc
      exact ⟨rfl, ⟨nofun, nofun, nofun⟩, fun _ => id⟩

/-- The expiry task only removes rows. -/
theorem expiry_rows (h : next dir decode st pc ok = some (st', pc')) (hpc : Expires pc) :
    ∀ row ∈ st'.rows, row ∈ st.rows := by
  refine fun row hrow => (next_rows h row hrow).resolve_right fun hsaving => ?_
  subst hsaving
  cases hpc

theorem inv_inductive : (machine dir decode).Inductive (fun _ _ => True) (Inv dir) where
  init s h := by
    obtain ⟨hrows, hnodup, hupdate, hexpiry⟩ := h
    refine ⟨fun row hrow => (hrows row hrow).1, hnodup, ?_, ?_, ?_, ?_, ?_⟩
    all_goals first | rw [hupdate] | rw [hexpiry]
    · rfl
    · exact ⟨nofun, nofun, nofun⟩
    · exact nofun
    · rfl
    · exact ⟨nofun, nofun, nofun⟩
  step s a s' h _ hs := by
    cases a with
    | tick now =>
      cases hs
      exact { h with }
    | picture | clearImages =>
      obtain ⟨pc, -, rfl, hupdates, hknows, hsaves⟩ := exists_of_receive dir hs
        (by first | exact .inl ⟨_, rfl⟩ | exact .inr ⟨_, rfl⟩)
      exact { h with
        updates := hupdates, update := hknows, fresh := fun id hid => absurd hid (hsaves id) }
    | update ok =>
      obtain ⟨st, pc, hnext, rfl⟩ := exists_of_update hs
      exact { h with
        named := (next_named hnext h.named h.update.images).1
        nodup := next_nodup hnext h.nodup
        updates := (thread_next hnext).1 h.updates
        update := h.update.next h.named hnext
        fresh := fun id hid => next_fresh hnext hid h.fresh }
    | expire =>
      have hs : (if s.expiry = .idle then some { s with expiry := .expire } else none) = some s' := hs
      split at hs <;> cases hs
      exact { h with expires := rfl, expiry := ⟨nofun, nofun, nofun⟩ }
    | expiry ok =>
      obtain ⟨st, pc, hnext, rfl⟩ := exists_of_expiry hs
      have hrows := expiry_rows hnext h.expires
      exact { h with
        named := fun row hrow => h.named row (hrows row hrow)
        nodup := next_nodup hnext h.nodup
        fresh := fun id hid row hrow => h.fresh id hid row (hrows row hrow)
        expires := (thread_next hnext).2 h.expires
        expiry := h.expiry.next h.named hnext }

/-! ## Files of rows -/

/-- A missing file was removed by an operation that has not ended. -/
structure Files (s : State) : Prop where
  rows : ∀ row ∈ s.store.rows, s.store.Has row.imagePath ∨ row.imagePath ∈ s.update.gone ∨
    row.imagePath ∈ s.expiry.gone
  saving : ∀ image, s.update = .saving image →
    s.store.Has image.imagePath ∨ image.imagePath ∈ s.expiry.gone

/-- Behind the file of a picture that is being saved, the pass cannot end. -/
theorem Inv.expiry_gone {image : Image} (h : Inv dir s) (hkept : Kept s (.expiry ok))
    (hnext : next dir decode s.store s.expiry ok = some (st', pc')) (hsaving : s.update = .saving image)
    (hgone : image.imagePath ∈ s.expiry.gone) : image.imagePath ∈ pc'.gone := by
  have hnamed : Named dir image := h.update.images image (by rw [hsaving]; exact List.mem_cons_self)
  obtain ⟨hspares, hstill⟩ := Bool.and_eq_true_iff.mp hkept
  have hknows := h.expiry
  cases hpc : s.expiry with
  | expiring now todo expired gone =>
    rw [hpc] at hnext hspares hstill hgone hknows
    cases todo with
    | cons image' todo =>
      simp only [next] at hnext
      split at hnext <;> cases hnext
      · exact mem_goneIf.mpr (.inr hgone)
      · exact hgone
    | nil =>
      cases ok with
      | false => exact absurd (of_decide_eq_true hspares ▸ hgone) List.not_mem_nil
      | true =>
        -- the picture would have a row already
        obtain ⟨image', himage', hpath, hdel⟩ := hknows.gone _ hgone
        obtain ⟨row, hrow, hid, -⟩ := of_decide_eq_true hstill image'.id hdel
        refine absurd (hid.trans (himage'.inj hnamed hpath).1) (h.fresh image.id ?_ row hrow)
        rw [hsaving]
        rfl
  | clearing => exact absurd (hpc ▸ h.expires) (by simp [Expires])
  | _ => rw [hpc] at hgone; cases hgone

theorem Files.step (h : Inv dir s) (hfiles : Files s) (hG : Kept s a)
    (hs : Expiry.step dir decode s a = some s') : Files s' := by
  cases a with
  | tick now =>
    cases hs
    exact ⟨hfiles.rows, hfiles.saving⟩
  | picture | clearImages =>
    obtain ⟨pc, hidle, rfl, -, -, hsaves⟩ := exists_of_receive dir hs
      (by first | exact .inl ⟨_, rfl⟩ | exact .inr ⟨_, rfl⟩)
    refine ⟨fun row hrow => ?_, fun image hpc => ?_⟩
    · have hold := hfiles.rows row hrow
      rw [hidle] at hold
      exact hold.imp_right fun hgone => .inr (hgone.resolve_left List.not_mem_nil)
    · obtain rfl : pc = .saving image := hpc
      exact absurd rfl (hsaves image.id)
  | update ok =>
    obtain ⟨st, pc, hnext, rfl⟩ := exists_of_update hs
    refine ⟨fun row hrow => ?_, fun image hsaving => .inl (saving_next hnext hsaving)⟩
    have hhas : s.store.Has row.imagePath → st.Has row.imagePath ∨ row.imagePath ∈ pc.gone :=
      next_has hnext (.inl h.updates)
    have hnamed : Named dir row := (next_named hnext h.named h.update.images).1 row hrow
    obtain hold | hsaving := next_rows hnext row hrow
    · obtain hin | hgone | hgone := hfiles.rows row hold
      · exact (hhas hin).imp_right .inl
      · exact .inr (.inl (next_gone hnext hG h.update hnamed hrow hgone))
      · exact .inr (.inr hgone)
    · obtain hin | hgone := hfiles.saving row hsaving
      · exact (hhas hin).imp_right .inl
      · exact .inr (.inr hgone)
  | expire =>
    obtain ⟨hidle, hs⟩ := Option.ite_none_right_eq_some.mp hs
    obtain rfl := Option.some.inj hs
    obtain ⟨hrows, hsaved⟩ := hfiles
    rw [hidle] at hrows hsaved
    exact ⟨hrows, hsaved⟩
  | expiry ok =>
    obtain ⟨st, pc, hnext, rfl⟩ := exists_of_expiry hs
    have hhas {p : String} : s.store.Has p → st.Has p ∨ p ∈ pc.gone := next_has hnext (.inr h.expires)
    refine ⟨fun row hrow => ?_, fun image hsaving => ?_⟩
    · have hold := expiry_rows hnext h.expires row hrow
      obtain hin | hgone | hgone := hfiles.rows row hold
      · exact (hhas hin).imp_right .inr
      · exact .inr (.inl hgone)
      · have hspares : spares s.expiry ok := (Bool.and_eq_true_iff.mp hG).1
        exact .inr (.inr (next_gone hnext hspares h.expiry (h.named row hold) hrow hgone))
    · obtain hin | hgone := hfiles.saving image hsaving
      · exact hhas hin
      · exact .inr (h.expiry_gone hG hnext hsaving hgone)

theorem files_inductive : (machine dir decode).Inductive (fun s a => Kept s a)
    fun s => Inv dir s ∧ Files s := by
  refine Machine.Inductive.strengthen ⟨inv_inductive.init, fun s a s' h _ hs =>
    inv_inductive.step s a s' h trivial hs⟩ (fun s h => ?_)
    fun s a s' h _ hfiles hG hs => hfiles.step h hG hs
  obtain ⟨hrows, -, hupdate, -⟩ := h
  refine ⟨fun row hrow => .inl (hrows row hrow).2, fun image hsaving => ?_⟩
  rw [hupdate] at hsaving
  cases hsaving

/-! ## A pass -/

/-- What the ids mean at the `DELETE`. -/
theorem spares_removeByIds_iff (now : Int) (expired : List Int) (hnodup : (st.rows.map (·.id)).Nodup) :
    SparesLive now st (st.removeByIds expired) ∧ Deleted st (st.removeByIds expired) expired ↔
      Still now expired st := by
  constructor
  · rintro ⟨hspares, hdeleted⟩ id hid
    obtain ⟨row, hrow, rfl, hgone⟩ := (hdeleted id).mp hid
    refine ⟨row, hrow, rfl, ?_⟩
    by_contra hlive
    exact hgone (hspares row hrow (by omega)).1
  · intro hstill
    refine ⟨fun row hrow hlive => ⟨Store.mem_removeByIds.mpr ⟨hrow, fun hid => ?_⟩, id⟩, fun id => ?_⟩
    · obtain ⟨row', hrow', hsame, hpast⟩ := hstill row.id hid
      obtain rfl := List.inj_on_of_nodup_map hnodup hrow' hrow hsame
      omega
    · constructor
      · intro hid
        obtain ⟨row, hrow, rfl, -⟩ := hstill id hid
        exact ⟨row, hrow, rfl, fun hmem => (Store.mem_removeByIds.mp hmem).2 hid⟩
      · rintro ⟨row, hrow, rfl, hgone⟩
        by_contra hid
        exact hgone (Store.mem_removeByIds.mpr ⟨hrow, hid⟩)

theorem SparesLive.refl {now : Int} : SparesLive now st st := fun _ hrow _ => ⟨hrow, id⟩

/-- The name of a live picture is not that of an expired one. -/
theorem spares_removeIf {now : Int} {image : Image} (hnamed : ∀ row ∈ st.rows, Named dir row)
    (himage : Named dir image) (hpast : image.expiresAt < now) :
    SparesLive now st (st.removeIf ok image.imagePath) := by
  refine fun row hrow hlive =>
    ⟨by rwa [Store.rows_removeIf], (Store.has_removeIf_of_ne fun hpath => ?_).mpr⟩
  have hsame := ((hnamed row hrow).inj himage hpath).2
  omega

/-- The pass spares what has not expired and returns the ids of the rows that it deletes if and only
if each id that it has read is still that of an expired picture. -/
theorem spares_live_iff :
    (∀ s s' ok, (machine dir decode).Reachable s → step dir decode s (.expiry ok) = some s' →
      s'.store ≠ s.store → ∃ now todo expired gone, s.expiry = .expiring now todo expired gone ∧
        (todo ≠ [] → SparesLive now s.store s'.store)) ∧
    (∀ s s' ok now expired gone ids, (machine dir decode).Reachable s →
      s.expiry = .expiring now [] expired gone → step dir decode s (.expiry ok) = some s' →
      s'.expiry = .removed ids →
        (SparesLive now s.store s'.store ∧ Deleted s.store s'.store ids ↔ Still now expired s.store)) ∧
    ∀ s, (machine dir decode).ReachableBy (fun s a => Kept s a) s → s.update = .idle → s.expiry = .idle →
      ∀ row ∈ s.store.rows, s.store.Has row.imagePath := by
  refine ⟨fun s s' ok hr hs hne => ?_, fun s s' ok now expired gone ids hr hpc hs hids => ?_,
    fun s hr hupdate hexpiry row hrow => ?_⟩
  · obtain ⟨st, pc, hnext, rfl⟩ := exists_of_expiry hs
    obtain ⟨hnamed, -, -, -, -, hexpires, hknows⟩ := inv_inductive.of_reachable hr
    cases hpc : s.expiry with
    | expiring now todo expired gone =>
      refine ⟨now, todo, expired, gone, rfl, fun htodo => ?_⟩
      rw [hpc] at hnext hknows
      cases todo with
      | nil => exact absurd rfl htodo
      | cons image todo =>
        simp only [next] at hnext
        split at hnext <;> cases hnext
        next hpast => exact spares_removeIf hnamed (hknows.images image List.mem_cons_self) hpast
        next => exact .refl
    | idle => rw [hpc] at hnext; cases hnext
    | expire | removed => rw [hpc] at hnext; cases hnext; exact absurd rfl hne
    | expireAll =>
      rw [hpc] at hnext
      cases ok <;> cases hnext <;> exact absurd rfl hne
    | _ => rw [hpc] at hexpires; cases hexpires
  · obtain ⟨st, pc, hnext, rfl⟩ := exists_of_expiry hs
    have hnodup := (inv_inductive.of_reachable hr).nodup
    rw [hpc] at hnext
    obtain rfl : pc = .removed ids := hids
    simp only [next] at hnext
    split at hnext
    next hnil =>
      cases hnext
      subst hnil
      have hiff := spares_removeByIds_iff now [] hnodup
      rwa [Store.removeByIds_nil] at hiff
    next =>
      cases ok <;> cases hnext
      exact spares_removeByIds_iff now expired hnodup
  · obtain hin | hgone | hgone := (files_inductive.of_reachable hr).2.rows row hrow
    · exact hin
    · rw [hupdate] at hgone; cases hgone
    · rw [hexpiry] at hgone; cases hgone

def annsPicture (id expiresAt : Int) : Json :=
  .obj [("sent_image_id", .int id), ("sender", .str "Ann"), ("data", .str "/9j/"),
    ("expiry_unix_timestamp", .int expiresAt)]

theorem init_empty : (machine "images" fun _ => [1]).Init ⟨{}, .idle, .idle⟩ := ⟨nofun, .nil, rfl, rfl⟩

/-- One picture has expired and one has not; a third one comes in behind the reading of the rows. -/
def sentInside : List Act :=
  .picture (annsPicture 5 100) :: List.replicate 4 (.update true) ++
    .picture (annsPicture 6 1000) :: List.replicate 4 (.update true) ++
    [.tick 200, .expire, .expiry true, .expiry true] ++
    .picture (annsPicture 7 1000) :: List.replicate 4 (.update true) ++ [.expiry true, .expiry true]

/-- At the `DELETE`. -/
def atDelete (s : State) : Bool :=
  s.expiry = .expiring 200 [] [5] ["images/Ann_0_100_5.jpg"] && s.update = .idle &&
    Still 200 [5] s.store && Kept s (.expiry true)

/-- Behind the pass. -/
def pruned (s : State) : Bool :=
  s.store.rows.map (·.id) = [6, 7] && s.update = .idle && s.expiry = .idle

theorem spares_live_iff_expired :
    ∃ s s' t, (machine "images" fun _ => [1]).run ⟨{}, .idle, .idle⟩ sentInside = some s ∧
      step "images" (fun _ => [1]) s (.expiry true) = some s' ∧
      SparesLive 200 s.store s'.store ∧ Deleted s.store s'.store [5] ∧
      step "images" (fun _ => [1]) s' (.expiry true) = some t ∧ t.store.rows.map (·.id) = [6, 7] ∧
      ∀ row ∈ t.store.rows, t.store.Has row.imagePath := by
  obtain ⟨s, hrun, hs⟩ := (machine "images" fun _ => [1]).exists_of_run ⟨{}, .idle, .idle⟩ sentInside
    (fun s => atDelete s && (step "images" (fun _ => [1]) s (.expiry true)).any fun s' =>
      s'.expiry = .removed [5] && Kept s' (.expiry true) &&
        (step "images" (fun _ => [1]) s' (.expiry true)).any pruned) (by decide +kernel)
  have hmeets : (machine "images" fun _ => [1]).Meets (fun s a => Kept s a) ⟨{}, .idle, .idle⟩ sentInside := by
    decide +kernel
  simp only [atDelete, pruned, Bool.and_eq_true, decide_eq_true_eq, Option.any_eq_true] at hs
  obtain ⟨⟨⟨⟨hexpiry, -⟩, hstill⟩, hkept⟩, s', hstep, ⟨hremoved, hkept'⟩, t, hlast, ⟨hids, hupdate⟩, hidle⟩ := hs
  have hr := (Machine.ReachableBy.init init_empty).run sentInside hmeets hrun
  obtain ⟨hspares, hdeleted⟩ :=
    (spares_live_iff.2.1 s s' true 200 [5] _ [5] hr.reachable hexpiry hstep hremoved).mpr hstill
  exact ⟨s, s', t, hrun, hstep, hspares, hdeleted, hlast, hids,
    spares_live_iff.2.2 t (.step (.step hr hkept hstep) hkept' hlast) hupdate hidle⟩

/-- The picture is cleared and sent again with a new expiry between the reading of the rows and the
`DELETE`. -/
theorem live_row_deleted :
    ∃ s, (machine "images" fun _ => [1]).Reachable s ∧
      (∃ row ∈ s.store.rows, row.id = 5 ∧ row.expiresAt = 1000) ∧ s.store.now = 200 ∧
      ∃ s', step "images" (fun _ => [1]) s (.expiry true) = some s' ∧ s'.store.rows = [] ∧
        s'.expiry = .removed [5] :=
  Machine.exists_reachable_of_run [.picture (annsPicture 5 100), .update true, .update true,
    .update true, .update true, .tick 200, .expire, .expiry true, .expiry true,
    .clearImages (.obj [("sent_image_ids", .arr [.int 5])]), .update true, .update true, .update true,
    .picture (annsPicture 5 1000), .update true, .update true, .update true, .update true, .expiry true]
    init_empty ⟨_, rfl, by decide +kernel, by decide +kernel, _, rfl, by decide +kernel,
      by decide +kernel⟩

end ShareFrame.ImageManager.Expiry
