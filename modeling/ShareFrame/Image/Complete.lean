import Mathlib.Logic.Relation
import ShareFrame.Image.ImageManager

/-!
# Pictures that are stored in part

`saveImage` looks at its stream when the file is opened, not behind `write` and
`close`. On a full disk a part of the picture is stored under a row like a whole one,
and `_onPicture` skips every later copy of it. Where all bytes arrive in the file, the
message is the statements of the store one after another (`steps_of_arrived`), and
`whole_iff` says when a message leaves no such row.
-/

namespace ShareFrame.ImageManager.Complete

/-- What the calls of a message meet. -/
structure Disk where
  /-- the query for pictures of the same id -/
  queries : Bool := true
  opens : Bool := true
  /-- how many bytes `write` and `close` bring into the file, at most -/
  written : Nat
  inserts : Bool := true
  deriving DecidableEq, Repr

variable (dir : String) (decode : String → List UInt8)

/-- `saveImage`; no data is what `decode` gives where it fails. -/
def saveImage (st : Store) (disk : Disk) (sentImageId : Int) (sender base64Data : String)
    (expiresAt : Int) : Option Image × Store :=
  let decoded := decode base64Data
  if decoded = [] then (none, st)
  else
    let receivedAt := st.now
    let filepath := path dir sender receivedAt expiresAt sentImageId
    if !disk.opens then (none, st)
    else
      -- neither `write` nor `close` is asked whether it failed
      let st := st.write filepath (decoded.take disk.written)
      let image : Image := ⟨sentImageId, sender, filepath, expiresAt, receivedAt⟩
      if disk.inserts then (some image, st.save image) else (none, st)

/-- `_onPicture`: what `saveImage` returned, if it was called. -/
def handlePicture (st : Store) (disk : Disk) (msg : Json) : Option (Option Image) × Store :=
  match onPicture msg with
  | some (.check id sender data expiresAt) =>
    if disk.queries ∧ ∀ row ∈ st.rows, row.id ≠ id then
      let (saved, st) := saveImage dir decode st disk id sender data expiresAt
      (some saved, st)
    else (none, st)
  | _ => (none, st)

/-- The message of this picture leaves its row with the whole file, or no row and is not skipped
when it is sent again. -/
structure Whole (st : Store) (disk : Disk) (msg : Json) (id : Int) (data : String) : Prop where
  saved : ∀ image, (handlePicture dir decode st disk msg).1 = some (some image) →
    (handlePicture dir decode st disk msg).2.rows.filter (·.id = id) = [image] ∧
    (handlePicture dir decode st disk msg).2.files.filter (·.path = image.imagePath) =
      [⟨image.imagePath, decode data⟩]
  failed : (handlePicture dir decode st disk msg).1 = some none →
    (handlePicture dir decode st disk msg).2.rows.filter (·.id = id) = [] ∧
    ∀ disk' : Disk, disk'.queries →
      (handlePicture dir decode (handlePicture dir decode st disk msg).2 disk' msg).1 ≠ none

/-- A new picture comes into its file in part, and its row is inserted. -/
def Short (st : Store) (disk : Disk) (id : Int) (data : String) : Prop :=
  disk.queries ∧ (∀ row ∈ st.rows, row.id ≠ id) ∧ disk.opens ∧ disk.inserts ∧
    disk.written < (decode data).length

variable {dir decode} {st : Store} {disk : Disk} {msg : Json} {id : Int} {sender data : String}
  {expiresAt : Int}

variable (dir st id sender expiresAt) in
/-- The picture as it is stored. -/
def stored : Image := ⟨id, sender, path dir sender st.now expiresAt id, expiresAt, st.now⟩

/-! ## What `saveImage` leaves -/

theorem saveImage_of_ok (hdata : decode data ≠ []) (hopens : disk.opens = true)
    (hinserts : disk.inserts = true) :
    saveImage dir decode st disk id sender data expiresAt =
      (some (stored dir st id sender expiresAt),
        (st.write (stored dir st id sender expiresAt).imagePath
          ((decode data).take disk.written)).save (stored dir st id sender expiresAt)) := by
  simp only [saveImage, if_neg hdata, hopens, hinserts, Bool.not_true, Bool.false_eq_true, if_false,
    if_true, stored]

variable (dir st id sender expiresAt) in
theorem saveImage_of_failed
    (h : ¬ (decode data ≠ [] ∧ disk.opens = true ∧ disk.inserts = true)) :
    (saveImage dir decode st disk id sender data expiresAt).1 = none ∧
      (saveImage dir decode st disk id sender data expiresAt).2.rows = st.rows := by
  unfold saveImage
  by_cases hdata : decode data = []
  · simp only [if_pos hdata, and_self]
  · cases hopens : disk.opens with
    | false => simp [hdata]
    | true =>
      cases hinserts : disk.inserts with
      | false => simp [hdata, Store.write]
      | true => exact absurd ⟨hdata, hopens, hinserts⟩ h

theorem rows_save_filter (h : ∀ row ∈ st.rows, row.id ≠ id) {image : Image} (hid : image.id = id) :
    (st.save image).rows.filter (·.id = id) = [image] := by
  have hnone : (st.rows.filter (·.id ≠ image.id)).filter (·.id = id) = [] := by
    refine List.filter_eq_nil_iff.mpr fun row hrow => ?_
    simpa using h row (List.mem_filter.mp hrow).1
  rw [Store.save, List.filter_append, hnone]
  simp [hid]

theorem files_write_filter (st : Store) (file : String) (content : List UInt8) :
    (st.write file content).files.filter (·.path = file) = [⟨file, content⟩] := by
  have hnone : (st.files.filter (·.path ≠ file)).filter (·.path = file) = [] := by
    refine List.filter_eq_nil_iff.mpr fun f hf => ?_
    simpa using (List.mem_filter.mp hf).2
  rw [Store.write, List.filter_cons_of_pos (by simp), hnone]

/-! ## Messages -/

theorem handlePicture_of_new (h : onPicture msg = some (.check id sender data expiresAt))
    (hqueries : disk.queries = true) (hnew : ∀ row ∈ st.rows, row.id ≠ id) :
    handlePicture dir decode st disk msg =
      (some (saveImage dir decode st disk id sender data expiresAt).1,
        (saveImage dir decode st disk id sender data expiresAt).2) := by
  rw [handlePicture, h]
  exact if_pos ⟨hqueries, hnew⟩

theorem handlePicture_of_old (h : onPicture msg = some (.check id sender data expiresAt))
    (hold : ¬ (disk.queries = true ∧ ∀ row ∈ st.rows, row.id ≠ id)) :
    handlePicture dir decode st disk msg = (none, st) := by
  rw [handlePicture, h]
  exact if_neg hold

/-- Where every byte arrives, the message is the statements of the store one after another. -/
theorem steps_of_arrived (h : onPicture msg = some (.check id sender data expiresAt))
    (harrived : (decode data).length ≤ disk.written) :
    Relation.ReflTransGen (fun a b => ∃ ok, next dir decode a.1 a.2 ok = some b)
      (st, .check id sender data expiresAt) ((handlePicture dir decode st disk msg).2, .idle) := by
  by_cases hcheck : disk.queries = true ∧ ∀ row ∈ st.rows, row.id ≠ id
  · rw [handlePicture_of_new h hcheck.1 hcheck.2, saveImage]
    refine .head ⟨true, if_pos ⟨rfl, hcheck.2⟩⟩ ?_
    by_cases hdata : decode data = []
    · rw [if_pos hdata]
      exact .single ⟨true, if_pos hdata⟩
    · rw [if_neg hdata, List.take_of_length_le harrived]
      refine .head ⟨true, if_neg hdata⟩ ?_
      cases disk.opens with
      | false => exact .single ⟨false, rfl⟩
      | true =>
        refine .head ⟨true, rfl⟩ (.single ⟨disk.inserts, ?_⟩)
        cases disk.inserts <;> rfl
  · rw [handlePicture_of_old h hcheck]
    exact .single ⟨false, rfl⟩

/-- The file of a new picture is whole if all its bytes arrived. -/
theorem whole_iff_of_ok (h : onPicture msg = some (.check id sender data expiresAt))
    (hqueries : disk.queries = true) (hnew : ∀ row ∈ st.rows, row.id ≠ id)
    (hdata : decode data ≠ []) (hopens : disk.opens = true) (hinserts : disk.inserts = true) :
    Whole dir decode st disk msg id data ↔ (decode data).length ≤ disk.written := by
  have heq : handlePicture dir decode st disk msg = _ := handlePicture_of_new h hqueries hnew
  rw [saveImage_of_ok hdata hopens hinserts] at heq
  have hfile := files_write_filter st (stored dir st id sender expiresAt).imagePath
    ((decode data).take disk.written)
  constructor
  · rintro ⟨hsaved, -⟩
    rw [heq] at hsaved
    have hwhole := (hsaved _ rfl).2
    have htake : (decode data).take disk.written = decode data :=
      congrArg File.data (List.singleton_inj.mp (hfile.symm.trans hwhole))
    have hlength := congrArg List.length htake
    rw [List.length_take] at hlength
    omega
  · intro hle
    rw [List.take_of_length_le hle] at heq hfile
    refine ⟨fun image himage => ?_, fun hnone => ?_⟩
    · rw [heq] at himage ⊢
      obtain rfl := Option.some.inj (Option.some.inj himage)
      exact ⟨rows_save_filter hnew rfl, hfile⟩
    · rw [heq] at hnone
      cases hnone

/-- Where no row is left, the message is not skipped when it is sent again. -/
theorem whole_of_failed (h : onPicture msg = some (.check id sender data expiresAt))
    (hqueries : disk.queries = true) (hnew : ∀ row ∈ st.rows, row.id ≠ id)
    (hfailed : ¬ (decode data ≠ [] ∧ disk.opens = true ∧ disk.inserts = true)) :
    Whole dir decode st disk msg id data := by
  obtain ⟨hnone, hrows⟩ := saveImage_of_failed dir st id sender expiresAt hfailed
  have heq : handlePicture dir decode st disk msg = _ := handlePicture_of_new h hqueries hnew
  rw [hnone] at heq
  refine ⟨fun image himage => ?_, fun _ => ⟨?_, fun disk' hqueries' => ?_⟩⟩
  · rw [heq] at himage
    cases himage
  · rw [heq, hrows]
    exact List.filter_eq_nil_iff.mpr fun row hrow => by simpa using hnew row hrow
  · rw [heq, handlePicture_of_new h hqueries' (hrows ▸ hnew)]
    exact Option.some_ne_none _

/-- No picture is stored in part if and only if no new one comes into its file in part. -/
theorem whole_iff (h : onPicture msg = some (.check id sender data expiresAt)) :
    Whole dir decode st disk msg id data ↔ ¬ Short decode st disk id data := by
  by_cases hcheck : disk.queries = true ∧ ∀ row ∈ st.rows, row.id ≠ id
  · obtain ⟨hqueries, hnew⟩ := hcheck
    by_cases hok : decode data ≠ [] ∧ disk.opens = true ∧ disk.inserts = true
    · obtain ⟨hdata, hopens, hinserts⟩ := hok
      rw [whole_iff_of_ok h hqueries hnew hdata hopens hinserts, ← Nat.not_lt]
      exact not_congr ⟨fun hlt => ⟨hqueries, hnew, hopens, hinserts, hlt⟩,
        fun hshort => hshort.2.2.2.2⟩
    · refine iff_of_true (whole_of_failed h hqueries hnew hok) ?_
      rintro ⟨-, -, hopens, hinserts, hlt⟩
      exact hok ⟨List.ne_nil_of_length_pos (Nat.zero_lt_of_lt hlt), hopens, hinserts⟩
  · have heq : handlePicture dir decode st disk msg = _ := handlePicture_of_old h hcheck
    refine iff_of_true ⟨fun image himage => ?_, fun hnone => ?_⟩ ?_
    · rw [heq] at himage
      cases himage
    · rw [heq] at hnone
      cases hnone
    · rintro ⟨hqueries, hnew, -⟩
      exact hcheck ⟨hqueries, hnew⟩

/-- The message of a picture of three bytes. -/
def picture : Json :=
  .obj [("sent_image_id", .int 5), ("sender", .str "Ann"), ("data", .str "/9j/"),
    ("expiry_unix_timestamp", .int 100)]

theorem onPicture_picture : onPicture picture = some (.check 5 "Ann" "/9j/" 100) := by
  decide

/-- The third byte fits, and the disk is full. -/
theorem whole_iff_three :
    onPicture picture = some (.check 5 "Ann" "/9j/" 100) ∧
      Whole "images" (fun _ => [0xff, 0xd8, 0xff]) {} { written := 3 } picture 5 "/9j/" := by
  refine ⟨onPicture_picture, (whole_iff onPicture_picture).mpr ?_⟩
  rintro ⟨-, -, -, -, hlt⟩
  exact absurd hlt (by decide)

/-- The disk is full behind two of them. -/
theorem part_stored :
    ¬ Whole "images" (fun _ => [0xff, 0xd8, 0xff]) {} { written := 2 } picture 5 "/9j/" ∧
      (handlePicture "images" (fun _ => [0xff, 0xd8, 0xff]) {} { written := 2 } picture).2 =
        ⟨0, [⟨5, "Ann", "images/Ann_0_100_5.jpg", 100, 0⟩],
          [⟨"images/Ann_0_100_5.jpg", [0xff, 0xd8]⟩]⟩ := by
  have hstore : handlePicture "images" (fun _ => [0xff, 0xd8, 0xff]) {} { written := 2 } picture =
      (some (some ⟨5, "Ann", "images/Ann_0_100_5.jpg", 100, 0⟩),
        ⟨0, [⟨5, "Ann", "images/Ann_0_100_5.jpg", 100, 0⟩],
          [⟨"images/Ann_0_100_5.jpg", [0xff, 0xd8]⟩]⟩) := by
    decide
  refine ⟨fun h => ?_, by rw [hstore]⟩
  have hfile := (h.saved _ (by rw [hstore])).2
  rw [hstore] at hfile
  exact absurd hfile (by decide)

end ShareFrame.ImageManager.Complete
