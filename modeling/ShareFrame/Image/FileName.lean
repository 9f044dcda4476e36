import ShareFrame.Image.ImageManager
import ShareFrame.Lib.Numeral

/-!
# Names of picture files

The path that `ImageManager::saveImage` builds, byte by byte. Its last part is a name of
its own, whatever the sender sent, and the number behind the last underscore is the id
of the picture (`picture_path`). On a text it is `path` (`bytes_path`).
-/

namespace ShareFrame.ImageManager.FileName

open Text (bytes)

/-! ## The path -/

/-- `std::isalnum` in the C locale. -/
def isalnum (c : UInt8) : Bool :=
  (0x30 ≤ c && c ≤ 0x39) || (0x41 ≤ c && c ≤ 0x5A) || (0x61 ≤ c && c ≤ 0x7A)

def safeFilePart (s : List UInt8) : List UInt8 :=
  s.map fun c => if !isalnum c && c ≠ '-'.toUInt8 && c ≠ '_'.toUInt8 then '_'.toUInt8 else c

def filename (sender : List UInt8) (receivedAt expiresAt sentImageId : Int) : List UInt8 :=
  safeFilePart sender ++ bytes "_" ++ bytes (toString receivedAt) ++ bytes "_" ++
    bytes (toString expiresAt) ++ bytes "_" ++ bytes (toString sentImageId) ++ bytes ".jpg"

/-- `operator/` of `std::filesystem::path`. -/
def slash (dir name : List UInt8) : List UInt8 :=
  if name.head? = some '/'.toUInt8 then name
  else if dir = [] ∨ dir.getLast? = some '/'.toUInt8 then dir ++ name
  else dir ++ '/'.toUInt8 :: name

def filepath (savePath sender : List UInt8) (receivedAt expiresAt sentImageId : Int) : List UInt8 :=
  slash savePath (filename sender receivedAt expiresAt sentImageId)

/-! ## What a path leads to -/

/-- The names that are looked up one behind the other. -/
def components (path : List UInt8) : List (List UInt8) := Words.words '/'.toUInt8 path

def isAbsolute (path : List UInt8) : Prop := path.head? = some '/'.toUInt8

/-- The name of an entry of a directory. -/
structure Entry (name : List UInt8) : Prop where
  ne_nil : name ≠ []
  ne_dot : name ≠ bytes "."
  ne_dotDot : name ≠ bytes ".."
  slash_notMem : '/'.toUInt8 ∉ name
  nul_notMem : 0 ∉ name

/-- The path leads into the directory, and from there to an entry of it. -/
def IsChild (dir path : List UInt8) : Prop :=
  (isAbsolute path ↔ isAbsolute dir) ∧
    ∃ name, Entry name ∧ components path = components dir ++ [name]

/-! ## Bytes of a name -/

theorem isalnum_iff (c : UInt8) : isalnum c = true ↔
    48 ≤ c.toNat ∧ c.toNat ≤ 57 ∨ 65 ≤ c.toNat ∧ c.toNat ≤ 90 ∨ 97 ≤ c.toNat ∧ c.toNat ≤ 122 := by
  simp [isalnum, UInt8.le_iff_toNat_le, or_assoc]

theorem mem_bytes_number {b : UInt8} {n : Int} (h : b ∈ bytes (toString n)) :
    isalnum b = true ∨ b = '-'.toUInt8 := by
  obtain ⟨c, hc, hb⟩ := List.mem_flatMap.mp h
  obtain rfl | hdigit := Text.mem_toString hc
  · exact .inr (List.mem_singleton.mp hb)
  · obtain ⟨hlo, hhi⟩ := Numeral.toNat_of_isDigit hdigit
    have hbyte := Text.mem_utf8EncodeChar hb
    exact .inl ((isalnum_iff b).mpr (by omega))

theorem mem_safeFilePart {b : UInt8} {s : List UInt8} (h : b ∈ safeFilePart s) :
    isalnum b = true ∨ b = '-'.toUInt8 ∨ b = '_'.toUInt8 := by
  obtain ⟨c, -, rfl⟩ := List.mem_map.mp h
  split
  next => exact .inr (.inr rfl)
  next hc =>
    simp only [Bool.and_eq_true, Bool.not_eq_true', decide_eq_true_eq, not_and_or, not_not,
      Bool.not_eq_false] at hc
    exact or_assoc.mp hc

/-- The bytes of a name. -/
theorem mem_filename {b : UInt8} {sender : List UInt8} {receivedAt expiresAt sentImageId : Int}
    (h : b ∈ filename sender receivedAt expiresAt sentImageId) :
    isalnum b = true ∨ b = '-'.toUInt8 ∨ b = '_'.toUInt8 ∨ b = '.'.toUInt8 := by
  have hend : ((bytes ".jpg").all fun c => isalnum c || c = '.'.toUInt8) = true := by decide
  have hsep : bytes "_" = ['_'.toUInt8] := by decide
  simp only [filename, List.mem_append, or_assoc] at h
  rcases h with h | h | h | h | h | h | h | h
  · exact (mem_safeFilePart h).imp_right (Or.imp_right .inl)
  · exact .inr (.inr (.inl (List.mem_singleton.mp (hsep ▸ h))))
  · exact (mem_bytes_number h).imp_right .inl
  · exact .inr (.inr (.inl (List.mem_singleton.mp (hsep ▸ h))))
  · exact (mem_bytes_number h).imp_right .inl
  · exact .inr (.inr (.inl (List.mem_singleton.mp (hsep ▸ h))))
  · exact (mem_bytes_number h).imp_right .inl
  · have hb := List.all_eq_true.mp hend b h
    rw [Bool.or_eq_true, decide_eq_true_eq] at hb
    exact hb.imp_right fun hdot => .inr (.inr hdot)

theorem entry_filename (sender : List UInt8) (receivedAt expiresAt sentImageId : Int) :
    Entry (filename sender receivedAt expiresAt sentImageId) := by
  have hlen : 4 ≤ (filename sender receivedAt expiresAt sentImageId).length := by
    rw [filename, List.length_append]
    exact Nat.le_add_left _ _
  have hne {name : List UInt8} (hshort : name.length < 4) :
      filename sender receivedAt expiresAt sentImageId ≠ name := by
    rintro rfl
    omega
  exact {
    ne_nil := hne (by decide)
    ne_dot := hne (by decide)
    ne_dotDot := hne (by decide)
    slash_notMem := fun h => absurd (mem_filename h) (by decide)
    nul_notMem := fun h => absurd (mem_filename h) (by decide) }

/-! ## The child -/

theorem head?_ne_of_notMem {name : List UInt8} {c : UInt8} (h : c ∉ name) : name.head? ≠ some c :=
  fun hhead => h (List.mem_of_mem_head? hhead)

theorem components_slash {dir name : List UInt8} (h : Entry name) :
    components (slash dir name) = components dir ++ [name] := by
  have hname : components name = [name] := Words.words_singleton h.slash_notMem h.ne_nil
  rw [slash, if_neg (head?_ne_of_notMem h.slash_notMem)]
  split
  next hdir =>
    rcases hdir with rfl | hlast
    · rw [List.nil_append, hname, components, Words.words_nil, List.nil_append]
    · obtain ⟨front, rfl⟩ := List.getLast?_eq_some_iff.mp hlast
      rw [← List.append_cons, components, Words.words_append_cons, components,
        Words.words_append_cons, Words.words_nil, List.append_nil]
      exact congrArg _ hname
  next => rw [components, Words.words_append_cons, ← components, ← components, hname]

theorem isAbsolute_slash {dir name : List UInt8} (h : Entry name) :
    isAbsolute (slash dir name) ↔ isAbsolute dir := by
  have hname := head?_ne_of_notMem h.slash_notMem
  rw [slash, if_neg hname]
  cases dir with
  | nil => exact iff_of_false hname (by rintro ⟨⟩)
  | cons c dir => split <;> rfl

/-! ## The id -/

theorem underscore_notMem_bytes (n : Int) : '_'.toUInt8 ∉ bytes (toString n) :=
  fun h => absurd (mem_bytes_number h) (by decide)

theorem filename_inj {sender sender' : List UInt8}
    {receivedAt receivedAt' expiresAt expiresAt' sentImageId sentImageId' : Int}
    (h : filename sender receivedAt expiresAt sentImageId =
      filename sender' receivedAt' expiresAt' sentImageId') : sentImageId = sentImageId' := by
  have hsep (xs ys : List UInt8) : xs ++ bytes "_" ++ ys = xs ++ '_'.toUInt8 :: ys := by
    rw [List.append_assoc]
    rfl
  have hname := List.append_cancel_right h
  simp only [hsep] at hname
  obtain ⟨-, hid⟩ := Words.append_cons_inj_last (underscore_notMem_bytes sentImageId)
    (underscore_notMem_bytes sentImageId') hname
  exact toString_inj (Text.bytes_injective hid)

/-! ## Texts -/

theorem isAlphanum_iff (c : Char) : c.isAlphanum = true ↔
    65 ≤ c.toNat ∧ c.toNat ≤ 90 ∨ 97 ≤ c.toNat ∧ c.toNat ≤ 122 ∨ 48 ≤ c.toNat ∧ c.toNat ≤ 57 := by
  show ((decide (c.val ≥ 65 ∧ c.val ≤ 90) || (c.val ≥ 97 && c.val ≤ 122)) ||
    (c.val ≥ 48 && c.val ≤ 57)) = true ↔ _
  simp [UInt32.le_iff_toNat_le, or_assoc]

theorem eq_iff_toNat {c d : Char} : c = d ↔ c.toNat = d.toNat := by
  rw [← Char.val_inj, ← UInt32.toNat_inj]
  rfl

/-- The bytes of a character are kept with it, or replaced with it. -/
theorem safeFilePart_encode (c : Char) :
    safeFilePart (String.utf8EncodeChar c) =
      (if c.isAlphanum || c = '-' || c = '_' then [c] else List.replicate c.utf8Size '_').flatMap
        String.utf8EncodeChar := by
  have hunder : String.utf8EncodeChar '_' = ['_'.toUInt8] := by decide
  have hreplace (n : Nat) :
      (List.replicate n '_').flatMap String.utf8EncodeChar = List.replicate n '_'.toUInt8 := by
    rw [List.flatMap_replicate, hunder]
    exact List.flatten_replicate_singleton
  have hkept : ∀ b ∈ String.utf8EncodeChar c,
      ((!isalnum b && b ≠ '-'.toUInt8 && b ≠ '_'.toUInt8) = true ↔
        ¬ (c.isAlphanum || c = '-' || c = '_') = true) := by
    intro b hb
    have hbyte := Text.mem_utf8EncodeChar hb
    simp only [Bool.and_eq_true, Bool.not_eq_true', ← Bool.not_eq_true, isalnum_iff, ne_eq,
      decide_eq_true_eq, ← UInt8.toNat_inj, Bool.or_eq_true, isAlphanum_iff, eq_iff_toNat]
    have hdash : '-'.toNat = 45 := rfl
    have hline : '_'.toNat = 95 := rfl
    have hdash' : '-'.toUInt8.toNat = 45 := rfl
    have hline' : '_'.toUInt8.toNat = 95 := rfl
    omega
  by_cases hc : (c.isAlphanum || c = '-' || c = '_') = true
  · have hsame : ∀ b ∈ String.utf8EncodeChar c,
        (if !isalnum b && b ≠ '-'.toUInt8 && b ≠ '_'.toUInt8 then '_'.toUInt8 else b) = id b :=
      fun b hb => if_neg fun h => (hkept b hb).mp h hc
    rw [if_pos hc, List.flatMap_singleton, safeFilePart, List.map_congr_left hsame, List.map_id]
  · rw [if_neg hc, hreplace, safeFilePart, ← String.length_utf8EncodeChar]
    exact List.map_eq_replicate_iff.mpr fun b hb => if_pos ((hkept b hb).mpr hc)

theorem bytes_safeFilePart (s : String) :
    bytes (ImageManager.safeFilePart s) = safeFilePart (bytes s) := by
  rw [bytes, ImageManager.safeFilePart, String.toList_ofList, List.flatMap_assoc, safeFilePart,
    bytes, List.map_flatMap]
  exact congrArg (List.flatMap · s.toList) (funext fun c => (safeFilePart_encode c).symm)

/-- The directory has a name, and no slash behind it. -/
theorem bytes_path {dir : String} (hne : dir ≠ "") (hlast : (bytes dir).getLast? ≠ some '/'.toUInt8)
    (sender : String) (receivedAt expiresAt sentImageId : Int) :
    bytes (path dir sender receivedAt expiresAt sentImageId) =
      filepath (bytes dir) (bytes sender) receivedAt expiresAt sentImageId := by
  have hentry := entry_filename (bytes sender) receivedAt expiresAt sentImageId
  have hdir : bytes dir ≠ [] := fun h => hne (Text.bytes_injective h)
  rw [filepath, slash, if_neg (head?_ne_of_notMem hentry.slash_notMem),
    if_neg (not_or.mpr ⟨hdir, hlast⟩), filename, path]
  simp only [Text.bytes_append, bytes_safeFilePart, List.append_assoc]
  rfl

/-! ## Main result -/

/-- The path of a picture leads to an entry of the directory of pictures, and to none that another
picture gets. -/
theorem picture_path (savePath sender : List UInt8) (receivedAt expiresAt sentImageId : Int) :
    IsChild savePath (filepath savePath sender receivedAt expiresAt sentImageId) ∧
    ∀ sender' receivedAt' expiresAt' sentImageId', sentImageId' ≠ sentImageId →
      filepath savePath sender' receivedAt' expiresAt' sentImageId' ≠
        filepath savePath sender receivedAt expiresAt sentImageId := by
  have hentry := entry_filename sender receivedAt expiresAt sentImageId
  refine ⟨⟨isAbsolute_slash hentry, _, hentry, components_slash hentry⟩,
    fun sender' receivedAt' expiresAt' sentImageId' hne h => ?_⟩
  have hparts := congrArg components h
  rw [filepath, filepath, components_slash (entry_filename _ _ _ _),
    components_slash hentry] at hparts
  exact hne (filename_inj (List.singleton_inj.mp (List.append_cancel_left hparts)))

example : filepath (bytes "/images") (bytes "../a_1/é") 5 (-7) 12 =
    bytes "/images/___a_1____5_-7_12.jpg" := by
  decide

end ShareFrame.ImageManager.FileName
