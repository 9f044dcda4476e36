import Mathlib.Data.List.Nodup
import ShareFrame.Lib.Words
import ShareFrame.Repository.Image
import ShareFrame.Util.Json
import ShareFrame.Util.Text

/-!
# The picture store

Pictures are files in the save directory and rows of the picture table. `next` is one
statement of `ImageManager`: a file is written or removed, or an SQL statement runs;
it has its effect or fails. Other threads, and the end of the process, come between
two statements. The name of a file determines the id and the expiry of its picture
(`path_inj`).
-/

namespace ShareFrame.ImageManager

structure File where
  path : String
  data : List UInt8
  deriving DecidableEq

structure Store where
  /-- seconds of the system clock -/
  now : Int := 0
  rows : List Image := []
  /-- the regular files in the save directory -/
  files : List File := []
  deriving DecidableEq

/-- Where a thread is in an operation. The files that the operation has removed so far are *ghost*:
no statement reads them. -/
inductive Pc where
  | idle
  -- `_onPicture`, before it asks for the picture
  | check (id : Int) (sender data : String) (expiresAt : Int)
  -- `saveImage`
  | save (id : Int) (sender data : String) (expiresAt : Int)
  | writing (image : Image) (data : List UInt8)
  | saving (image : Image)
  -- `removeImages`
  | clear (ids : List Int)
  | clearing (ids : List Int) (todo : List Image) (gone : List String)
  -- `removeExpired`
  | expire
  | expireAll (now : Int)
  | expiring (now : Int) (todo : List Image) (expired : List Int) (gone : List String)
  /-- it returned these ids -/
  | removed (ids : List Int)
  -- the constructor
  | starting
  | orphans (known todo : List String)
  /-- it has run -/
  | ready
  deriving DecidableEq

variable (dir : String) (decode : String → List UInt8)

/-! ## Names of files -/

/-- Every byte that is not a letter, a digit, `-` or `_` becomes a `_`. -/
def safeFilePart (s : String) : String :=
  String.ofList (s.toList.flatMap fun c =>
    if c.isAlphanum || c = '-' || c = '_' then [c] else List.replicate c.utf8Size '_')

def path (sender : String) (receivedAt expiresAt id : Int) : String :=
  dir ++ "/" ++ safeFilePart sender ++ "_" ++ toString receivedAt ++ "_" ++ toString expiresAt ++ "_" ++
    toString id ++ ".jpg"

/-! ## Statements -/

/-- `INSERT OR REPLACE` -/
def Store.save (st : Store) (image : Image) : Store :=
  { st with rows := st.rows.filter (·.id ≠ image.id) ++ [image] }

def Store.removeByIds (st : Store) (ids : List Int) : Store :=
  { st with rows := st.rows.filter (·.id ∉ ids) }

def Store.write (st : Store) (file : String) (data : List UInt8) : Store :=
  { st with files := ⟨file, data⟩ :: st.files.filter (·.path ≠ file) }

def Store.remove (st : Store) (file : String) : Store :=
  { st with files := st.files.filter (·.path ≠ file) }

/-- `std::filesystem::remove`: where it fails the operation goes on. -/
def Store.removeIf (st : Store) (ok : Bool) (file : String) : Store :=
  if ok then st.remove file else st

/-- The files that an operation has removed, behind one more removal. -/
def goneIf (ok : Bool) (file : String) (gone : List String) : List String :=
  if ok then file :: gone else gone

/-- The next statement of an operation, which succeeds or fails. A failed SQL statement throws, and
the operation ends; where the constructor throws, the process does. -/
def next (st : Store) : Pc → Bool → Option (Store × Pc)
  | .idle, _ | .ready, _ => none
  | .check id sender data expiresAt, ok =>
    if ok ∧ ∀ row ∈ st.rows, row.id ≠ id then some (st, .save id sender data expiresAt)
    else some (st, .idle)
  | .save id sender data expiresAt, _ =>
    if decode data = [] then some (st, .idle)
    else some (st, .writing
      ⟨id, sender, path dir sender st.now expiresAt id, expiresAt, st.now⟩ (decode data))
  | .writing image data, ok =>
    if ok then some (st.write image.imagePath data, .saving image) else some (st, .idle)
  | .saving image, ok => some (if ok then st.save image else st, .idle)
  | .clear ids, ok =>
    if ok then some (st, .clearing ids (st.rows.filter (·.id ∈ ids)) []) else some (st, .idle)
  | .clearing ids (image :: todo) gone, ok =>
    some (st.removeIf ok image.imagePath, .clearing ids todo (goneIf ok image.imagePath gone))
  | .clearing ids [] _, ok => some (if ok then st.removeByIds ids else st, .idle)
  | .expire, _ => some (st, .expireAll st.now)
  | .expireAll now, ok => if ok then some (st, .expiring now st.rows [] []) else some (st, .idle)
  | .expiring now (image :: todo) expired gone, ok =>
    if image.expiresAt < now then
      some (st.removeIf ok image.imagePath,
        .expiring now todo (expired ++ [image.id]) (goneIf ok image.imagePath gone))
    else some (st, .expiring now todo expired gone)
  | .expiring _ [] expired _, ok =>
    if expired = [] then some (st, .removed [])
    else if ok then some (st.removeByIds expired, .removed expired) else some (st, .idle)
  | .removed _, _ => some (st, .idle)
  | .starting, ok =>
    if ok then some (st, .orphans (st.rows.map (·.imagePath)) (st.files.map (·.path)))
    else some (st, .starting)
  | .orphans known (file :: todo), ok =>
    some (if file ∈ known then st else st.removeIf ok file, .orphans known todo)
  | .orphans _ [], _ => some (st, .ready)

/-! ## Messages -/

/-- A number that is sent as a number or as a text, zero where there is neither; `none` where the
conversion throws. -/
def jsonInt64 (msg : Json) (key : String) : Option Int :=
  match msg.find key with
  | none => some 0
  | some (.str s) => (Text.integer 64 s).map (·.1)
  | some v => match v.getInt64 with
    | .ok n => some n
    | .error _ => some 0

/-- `_onPicture` up to its query; `none` where it ends before. -/
def onPicture (msg : Json) : Option Pc :=
  match jsonInt64 msg "sent_image_id", msg.value Json.getString "sender" "",
    msg.value Json.getString "data" "", jsonInt64 msg "expiry_unix_timestamp" with
  | some id, .ok sender, .ok data, some expiresAt =>
    if id = 0 ∨ sender = "" ∨ data = "" then none else some (.check id sender data expiresAt)
  | _, _, _, _ => none

/-- `_onClearImages` up to its query. -/
def onClearImages (msg : Json) : Option Pc :=
  match msg.value Json.getInt64s "sent_image_ids" [] with
  | .ok [] | .error _ => none
  | .ok ids => some (.clear ids)

/-! ## The store behind a statement -/

/-- There is a file of this name. -/
def Store.Has (st : Store) (file : String) : Prop := file ∈ st.files.map (·.path)

instance (st : Store) (file : String) : Decidable (st.Has file) := by
  unfold Store.Has; infer_instance

namespace Store

variable {st : Store} {file p : String} {data : List UInt8} {image row : Image} {ids : List Int}
  {f : File} {ok : Bool}

theorem has_iff : st.Has p ↔ ∃ f ∈ st.files, f.path = p := List.mem_map

theorem mem_write : f ∈ (st.write file data).files ↔
    f = ⟨file, data⟩ ∨ f ∈ st.files ∧ f.path ≠ file := by
  simp [write, List.mem_filter]

theorem mem_remove : f ∈ (st.remove file).files ↔ f ∈ st.files ∧ f.path ≠ file := by
  simp [remove, List.mem_filter]

@[simp] theorem has_write : (st.write file data).Has p ↔ p = file ∨ st.Has p := by
  simp only [has_iff, mem_write]
  constructor
  · rintro ⟨f, rfl | ⟨hf, -⟩, rfl⟩
    · exact .inl rfl
    · exact .inr ⟨f, hf, rfl⟩
  · rintro (rfl | ⟨f, hf, rfl⟩)
    · exact ⟨_, .inl rfl, rfl⟩
    · by_cases hp : f.path = file
      · exact ⟨_, .inl rfl, hp.symm⟩
      · exact ⟨f, .inr ⟨hf, hp⟩, rfl⟩

@[simp] theorem has_remove : (st.remove file).Has p ↔ st.Has p ∧ p ≠ file := by
  simp only [has_iff, mem_remove]
  constructor
  · rintro ⟨f, ⟨hf, hne⟩, rfl⟩
    exact ⟨⟨f, hf, rfl⟩, hne⟩
  · rintro ⟨⟨f, hf, rfl⟩, hne⟩
    exact ⟨f, ⟨hf, hne⟩, rfl⟩

@[simp] theorem has_save : (st.save image).Has p ↔ st.Has p := .rfl

@[simp] theorem has_removeByIds : (st.removeByIds ids).Has p ↔ st.Has p := .rfl

@[simp] theorem rows_removeIf : (st.removeIf ok file).rows = st.rows := by
  cases ok <;> rfl

theorem mem_save : row ∈ (st.save image).rows ↔ row = image ∨ row ∈ st.rows ∧ row.id ≠ image.id := by
  simp [save, List.mem_filter, or_comm]

theorem mem_removeByIds : row ∈ (st.removeByIds ids).rows ↔ row ∈ st.rows ∧ row.id ∉ ids := by
  simp [removeByIds, List.mem_filter]

theorem removeByIds_nil (st : Store) : st.removeByIds [] = st := by
  simp [removeByIds]

theorem nodup_save (h : (st.rows.map (·.id)).Nodup) : ((st.save image).rows.map (·.id)).Nodup := by
  have hfilter : ((st.rows.filter (·.id ≠ image.id)).map (·.id)).Nodup :=
    h.sublist (List.filter_sublist.map _)
  rw [save, List.map_append, List.map_singleton]
  refine List.Nodup.append hfilter (List.nodup_singleton _) fun id hid hsame => ?_
  obtain ⟨row, hrow, rfl⟩ := List.mem_map.mp hid
  exact of_decide_eq_true (List.mem_filter.mp hrow).2 (List.mem_singleton.mp hsame)

theorem nodup_removeByIds (h : (st.rows.map (·.id)).Nodup) :
    ((st.removeByIds ids).rows.map (·.id)).Nodup :=
  h.sublist (List.filter_sublist.map _)

/-- The removal of a file of another name. -/
theorem has_removeIf_of_ne (h : p ≠ file) : (st.removeIf ok file).Has p ↔ st.Has p := by
  cases ok with
  | false => rfl
  | true => simp [removeIf, h]

theorem mem_removeIf_of_ne (h : f.path ≠ file) : f ∈ (st.removeIf ok file).files ↔ f ∈ st.files := by
  cases ok with
  | false => rfl
  | true => simp [removeIf, mem_remove, h]

theorem has_of_removeIf (h : (st.removeIf ok file).Has p) : st.Has p := by
  cases ok with
  | false => exact h
  | true => exact (has_remove.mp h).1

end Store

@[simp] theorem mem_goneIf {ok : Bool} {file p : String} {gone : List String} :
    p ∈ goneIf ok file gone ↔ ok = true ∧ p = file ∨ p ∈ gone := by
  cases ok <;> simp [goneIf]

/-! ## What a statement does -/

/-- The files that the operation has removed. -/
def Pc.gone : Pc → List String
  | .clearing _ _ gone | .expiring _ _ _ gone => gone
  | _ => []

/-- The `DELETE` of the operation will find the row. -/
def Pc.Deletes : Pc → Image → Prop
  | .clearing ids _ _, row => row.id ∈ ids
  | .expiring _ _ expired _, row => row.id ∈ expired
  | _, _ => False

theorem Pc.Deletes.of_id_eq {pc : Pc} {a b : Image} (h : pc.Deletes a) (hid : a.id = b.id) :
    pc.Deletes b := by
  cases pc with
  | clearing ids => exact show b.id ∈ ids from hid ▸ show a.id ∈ ids from h
  | expiring _ _ expired => exact show b.id ∈ expired from hid ▸ show a.id ∈ expired from h
  | _ => cases h

/-- The statement has its effect, or a failure of it parts no row from its file and leaves no orphan
behind. -/
def spares (pc : Pc) (ok : Bool) : Bool :=
  ok || match pc with
    | .clearing _ [] gone | .expiring _ [] _ gone => decide (gone = [])
    | .orphans known (file :: _) => decide (file ∈ known)
    | _ => true

/-- The pictures that an operation still works on. -/
def Pc.images : Pc → List Image
  | .writing image _ | .saving image => [image]
  | .clearing _ todo _ | .expiring _ todo _ _ => todo
  | _ => []

/-- The store and the operation behind a statement. -/
inductive Effect (st : Store) (pc : Pc) (ok : Bool) : Store → Pc → Prop where
  | quiet {pc' : Pc} (hgone : pc'.gone = pc.gone) (hdeletes : ∀ row, pc.Deletes row → pc'.Deletes row) :
    Effect st pc ok st pc'
  | wrote {image : Image} {data : List UInt8} (hpc : pc = .writing image data) :
    Effect st pc ok (st.write image.imagePath data) (.saving image)
  | saved {image : Image} (hpc : pc = .saving image) : Effect st pc ok (st.save image) .idle
  | removed {image : Image} {pc' : Pc} (himage : image ∈ pc.images)
    (hdel : (∀ ids todo gone, pc = .clearing ids todo gone → image.id ∈ ids) → pc'.Deletes image)
    (hgone : pc'.gone = goneIf ok image.imagePath pc.gone)
    (hdeletes : ∀ row, pc.Deletes row → pc'.Deletes row) :
    Effect st pc ok (st.removeIf ok image.imagePath) pc'
  | deleted {ids : List Int} {pc' : Pc} (hdeletes : ∀ row, pc.Deletes row ↔ row.id ∈ ids)
    (hgone : pc'.gone = []) : Effect st pc ok (st.removeByIds ids) pc'
  | failed {pc' : Pc} (hspares : spares pc ok → pc.gone = []) (hgone : pc'.gone = []) :
    Effect st pc ok st pc'
  | orphan {known todo : List String} {file : String} (hpc : pc = .orphans known (file :: todo)) :
    Effect st pc ok (st.removeIf ok file) (.orphans known todo)

theorem effect_of_next {dir : String} {decode : String → List UInt8} {st st' : Store} {pc pc' : Pc}
    {ok : Bool} (h : next dir decode st pc ok = some (st', pc')) : Effect st pc ok st' pc' := by
  cases pc with
  | idle | ready => cases h
  | expire | removed => cases h; exact .quiet rfl fun _ => id
  | check =>
    simp only [next] at h
    split at h <;> cases h <;> exact .quiet rfl fun _ => id
  | save =>
    simp only [next] at h
    split at h <;> cases h <;> exact .quiet rfl fun _ => id
  | writing image data =>
    cases ok <;> cases h
    · exact .quiet rfl fun _ => id
    · exact .wrote rfl
  | saving image =>
    cases ok <;> cases h
    · exact .quiet rfl fun _ => id
    · exact .saved rfl
  | clear ids => cases ok <;> cases h <;> exact .quiet rfl nofun
  | clearing ids todo gone =>
    cases todo with
    | cons image todo =>
      cases h
      exact .removed List.mem_cons_self (fun hids => hids ids _ gone rfl) rfl fun _ => id
    | nil =>
      cases ok <;> cases h
      · exact .failed of_decide_eq_true rfl
      · exact .deleted (fun _ => .rfl) rfl
  | expireAll now => cases ok <;> cases h <;> exact .quiet rfl nofun
  | expiring now todo expired gone =>
    cases todo with
    | cons image todo =>
      simp only [next] at h
      split at h <;> cases h
      · exact .removed List.mem_cons_self
          (fun _ => List.mem_append.mpr (.inr (List.mem_singleton.mpr rfl))) rfl
          fun _ hdel => List.mem_append.mpr (.inl hdel)
      · exact .quiet rfl fun _ => id
    | nil =>
      simp only [next] at h
      split at h
      next hnil =>
        cases h
        subst hnil
        have hdeleted : Effect st (.expiring now [] [] gone) ok (st.removeByIds []) (.removed []) :=
          .deleted (fun _ => .rfl) rfl
        rwa [st.removeByIds_nil] at hdeleted
      next =>
        cases ok <;> cases h
        · exact .failed of_decide_eq_true rfl
        · exact .deleted (fun _ => .rfl) rfl
  | starting => cases ok <;> cases h <;> exact .quiet rfl nofun
  | orphans known todo =>
    cases todo with
    | nil => cases h; exact .quiet rfl nofun
    | cons file todo =>
      cases h
      split
      · exact .quiet rfl nofun
      · exact .orphan rfl

/-! ## A name says which picture it is -/

theorem underscore_notMem (n : Int) : '_' ∉ (toString n).toList :=
  fun h => absurd (Text.mem_toString h) (by decide)

theorem toString_inj {m n : Int} (h : toString m = toString n) : m = n := by
  have hm := Text.number_toString m
  rw [h, Text.number_toString] at hm
  exact (Prod.mk.inj (Option.some.inj hm)).1.symm

/-- The number behind the last underscore. -/
theorem append_number_inj {xs ys : List Char} {m n : Int}
    (h : xs ++ '_' :: (toString m).toList = ys ++ '_' :: (toString n).toList) : xs = ys ∧ m = n := by
  obtain ⟨hxs, hnum⟩ := Words.append_cons_inj_last (underscore_notMem m) (underscore_notMem n) h
  exact ⟨hxs, toString_inj (String.toList_injective hnum)⟩

variable {dir}

theorem path_inj {sender sender' : String} {receivedAt receivedAt' expiresAt expiresAt' id id' : Int}
    (h : path dir sender receivedAt expiresAt id = path dir sender' receivedAt' expiresAt' id') :
    id = id' ∧ expiresAt = expiresAt' := by
  have hlist := congrArg String.toList h
  simp only [path, String.toList_append] at hlist
  replace hlist := List.append_cancel_right hlist
  rw [show "_".toList = ['_'] from rfl] at hlist
  have hsep (xs ys : List Char) : xs ++ ['_'] ++ ys = xs ++ '_' :: ys := by
    rw [List.append_assoc, List.singleton_append]
  simp only [hsep] at hlist
  obtain ⟨hfront, hid⟩ := append_number_inj hlist
  exact ⟨hid, (append_number_inj hfront).2⟩

variable (dir) in
/-- Its file has the name that `saveImage` gives it. -/
def Named (image : Image) : Prop :=
  image.imagePath = path dir image.sender image.receivedAt image.expiresAt image.id

theorem Named.inj {a b : Image} (ha : Named dir a) (hb : Named dir b)
    (h : a.imagePath = b.imagePath) : a.id = b.id ∧ a.expiresAt = b.expiresAt :=
  path_inj (ha.symm.trans (h.trans hb))

variable {decode : String → List UInt8} in
theorem next_named {st st' : Store} {pc pc' : Pc} {ok : Bool}
    (h : next dir decode st pc ok = some (st', pc')) (hrows : ∀ row ∈ st.rows, Named dir row)
    (himages : ∀ image ∈ pc.images, Named dir image) :
    (∀ row ∈ st'.rows, Named dir row) ∧ ∀ image ∈ pc'.images, Named dir image := by
  have hnil : ∀ image ∈ ([] : List Image), Named dir image := nofun
  cases pc with
  | idle | ready => cases h
  | expire | removed => cases h; exact ⟨hrows, hnil⟩
  | check =>
    simp only [next] at h
    split at h <;> cases h <;> exact ⟨hrows, hnil⟩
  | save id sender data expiresAt =>
    simp only [next] at h
    split at h <;> cases h
    · exact ⟨hrows, hnil⟩
    · exact ⟨hrows, fun image himage => List.mem_singleton.mp himage ▸ rfl⟩
  | writing image data =>
    cases ok <;> cases h
    · exact ⟨hrows, hnil⟩
    · exact ⟨hrows, himages⟩
  | saving image =>
    cases ok <;> cases h
    · exact ⟨hrows, hnil⟩
    · refine ⟨fun row hrow => ?_, hnil⟩
      obtain rfl | ⟨hrow, -⟩ := Store.mem_save.mp hrow
      · exact himages row (List.mem_singleton.mpr rfl)
      · exact hrows row hrow
  | clear ids =>
    cases ok <;> cases h
    · exact ⟨hrows, hnil⟩
    · exact ⟨hrows, fun image himage => hrows image (List.mem_filter.mp himage).1⟩
  | clearing ids todo gone =>
    cases todo with
    | cons image todo =>
      cases h
      rw [Store.rows_removeIf]
      exact ⟨hrows, fun image himage => himages image (List.mem_cons_of_mem _ himage)⟩
    | nil =>
      cases ok <;> cases h
      · exact ⟨hrows, hnil⟩
      · exact ⟨fun row hrow => hrows row (Store.mem_removeByIds.mp hrow).1, hnil⟩
  | expireAll now =>
    cases ok <;> cases h
    · exact ⟨hrows, hnil⟩
    · exact ⟨hrows, hrows⟩
  | expiring now todo expired gone =>
    cases todo with
    | cons image todo =>
      have htodo : ∀ image ∈ todo, Named dir image :=
        fun image himage => himages image (List.mem_cons_of_mem _ himage)
      simp only [next] at h
      split at h <;> cases h
      · rw [Store.rows_removeIf]
        exact ⟨hrows, htodo⟩
      · exact ⟨hrows, htodo⟩
    | nil =>
      simp only [next] at h
      split at h
      · cases h
        exact ⟨hrows, hnil⟩
      · cases ok <;> cases h
        · exact ⟨hrows, hnil⟩
        · exact ⟨fun row hrow => hrows row (Store.mem_removeByIds.mp hrow).1, hnil⟩
  | starting => cases ok <;> cases h <;> exact ⟨hrows, hnil⟩
  | orphans known todo =>
    cases todo with
    | nil => cases h; exact ⟨hrows, hnil⟩
    | cons file todo =>
      cases h
      refine ⟨?_, hnil⟩
      split
      · exact hrows
      · rw [Store.rows_removeIf]
        exact hrows

section

variable {decode : String → List UInt8} {st st' : Store} {pc pc' : Pc} {ok : Bool}

/-- Rows come from `saveImage` alone. -/
theorem next_rows (h : next dir decode st pc ok = some (st', pc')) :
    ∀ row ∈ st'.rows, row ∈ st.rows ∨ pc = .saving row := by
  cases effect_of_next h with
  | saved hpc =>
    intro row hrow
    obtain rfl | ⟨hrow, -⟩ := Store.mem_save.mp hrow
    · exact .inr hpc
    · exact .inl hrow
  | deleted => exact fun row hrow => .inl (Store.mem_removeByIds.mp hrow).1
  | removed | orphan =>
    rw [Store.rows_removeIf]
    exact fun row => .inl
  | _ => exact fun row => .inl

theorem next_nodup (h : next dir decode st pc ok = some (st', pc'))
    (hnodup : (st.rows.map (·.id)).Nodup) : (st'.rows.map (·.id)).Nodup := by
  cases effect_of_next h with
  | saved => exact Store.nodup_save hnodup
  | deleted => exact Store.nodup_removeByIds hnodup
  | removed | orphan => rwa [Store.rows_removeIf]
  | _ => exact hnodup

end

end ShareFrame.ImageManager
