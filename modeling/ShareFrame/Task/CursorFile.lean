import ShareFrame.Lib.Numeral
import ShareFrame.Task.Heartbeat

/-!
# Saving the cursor on a full disk

`Heartbeat::_saveEventCursor` writes a temporary file and renames it over the cursor.
The stream is a temporary of the condition: it holds the text in its buffer when it is
asked whether the write succeeded, and flushes it when it is destroyed, behind the
question and in front of the rename. What the flush leaves out is missing in the
cursor (`cursorOf_flushed`), which then is neither the old number nor the new one,
unless the file was not opened or not renamed or the part that was written happens
to be the old number (`saved_iff`).
-/

namespace ShareFrame.Heartbeat.CursorFile

/-- The file of the cursor and the temporary file beside it. -/
structure Files where
  cursor : Option String
  tmp : Option String := none
  deriving DecidableEq, Repr

/-- What the calls into the file system meet. -/
structure Disk where
  opens : Bool := true
  /-- how many bytes the flush writes, at most -/
  flushed : Nat
  renames : Bool := true
  deriving DecidableEq, Repr

/-- What the flush leaves in the file. -/
def flush (n : Nat) (text : String) : String := String.ofList (text.toList.take n)

/-- `_saveEventCursor` -/
def saveEventCursor (files : Files) (seq : Int64) (disk : Disk) : Files :=
  if disk.opens then
    -- the stream is destroyed here
    let tmp := some (flush disk.flushed (cursorText seq.toInt))
    if disk.renames then ⟨tmp, none⟩ else { files with tmp }
  else files

/-- The digits of a number and its sign. -/
def width (seq : Int) : Nat := (toString seq).length

/-- How many of them are not written. -/
def missing (seq : Int64) (disk : Disk) : Nat := width seq.toInt - disk.flushed

/-- Digits are cut off and the rest takes the place of another number. -/
def Cut (files : Files) (seq : Int64) (disk : Disk) : Prop :=
  disk.opens = true ∧ disk.renames = true ∧ 0 < missing seq disk ∧ seq.toInt ≠ 0 ∧
    cursorOf files.cursor ≠ seq.toInt.tdiv (10 ^ missing seq disk)

/-- The cursor is the old or the new number, and not smaller than before where the new one is
not. -/
structure Saved (files : Files) (seq : Int64) (disk : Disk) : Prop where
  whole : cursorOf (saveEventCursor files seq disk).cursor = cursorOf files.cursor ∨
    cursorOf (saveEventCursor files seq disk).cursor = seq.toInt
  kept : cursorOf files.cursor ≤ seq.toInt →
    cursorOf files.cursor ≤ cursorOf (saveEventCursor files seq disk).cursor

variable {files : Files} {seq : Int64} {disk : Disk}

/-! ## A part of a number -/

/-- What `operator>>` reads of a text, `0` where there is no number. -/
def read (cs : List Char) : Int := ((Text.number cs).map Prod.fst).getD 0

theorem read_digits {cs : List Char} (h : Numeral.Digits cs) : read cs = Numeral.value cs := by
  by_cases hne : cs = []
  · rw [hne]
    rfl
  · have hread := Text.number_digits [] hne h (by simp)
    rw [List.append_nil] at hread
    rw [read, hread]
    rfl

theorem read_minus_digits {cs : List Char} (h : Numeral.Digits cs) :
    read ('-' :: cs) = -(Numeral.value cs : Int) := by
  by_cases hne : cs = []
  · rw [hne]
    rfl
  · have hread := Text.number_minus_digits [] hne h (by simp)
    rw [List.append_nil] at hread
    rw [read, hread]
    rfl

theorem value_take_toDigits (m k : Nat) :
    (Numeral.value ((Nat.toDigits 10 m).take k) : Int) =
      (m : Int).tdiv (10 ^ ((Nat.toDigits 10 m).length - k)) := by
  rw [Numeral.value_take (Numeral.digits_toDigits m), Numeral.value_toDigits, Int.natCast_div,
    Int.natCast_pow]
  exact (Int.tdiv_eq_ediv_of_nonneg (Int.natCast_nonneg m)).symm

theorem lt_pow_length (m : Nat) : m < 10 ^ ((Nat.toDigits 10 m).length + 1) := by
  have hlt := Numeral.value_lt (Numeral.digits_toDigits m)
  rw [Numeral.value_toDigits] at hlt
  exact hlt.trans_le (Nat.pow_le_pow_right (by decide) (Nat.le_succ _))

/-- The first digits of a number, read again. -/
theorem read_take (n : Int) (k : Nat) :
    read ((toString n).toList.take k) = n.tdiv (10 ^ (width n - k)) := by
  have hdigits (j : Nat) : Numeral.Digits ((Nat.toDigits 10 n.natAbs).take j) :=
    fun c hc => Numeral.digits_toDigits _ c (List.mem_of_mem_take hc)
  rw [width, ← String.length_toList, Text.toList_toString]
  by_cases hn : n < 0
  · rw [if_pos hn, List.singleton_append, List.length_cons]
    have hneg : n = -(n.natAbs : Int) := by omega
    cases k with
    | zero =>
      have hlt : (n.natAbs : Int) < 10 ^ ((Nat.toDigits 10 n.natAbs).length + 1) := by
        exact_mod_cast lt_pow_length n.natAbs
      rw [hneg, Int.neg_tdiv, Int.natAbs_neg, Int.natAbs_natCast, Nat.sub_zero,
        Int.tdiv_eq_zero_of_lt (Int.natCast_nonneg _) hlt]
      rfl
    | succ k =>
      rw [List.take_succ_cons, read_minus_digits (hdigits k), value_take_toDigits,
        Nat.add_sub_add_right, ← Int.neg_tdiv, ← hneg]
  · rw [if_neg hn, List.nil_append, read_digits (hdigits k), value_take_toDigits,
      Int.natAbs_of_nonneg (Int.not_lt.mp hn)]

theorem cursorOf_eq_read (text : String) :
    cursorOf (some text) =
      max (-9223372036854775808) (min (read text.toList) 9223372036854775807) := by
  rw [cursorOf, read]
  cases Text.number text.toList <;> rfl

/-- What is read after the flush. -/
theorem read_flushed (n : Int) (k : Nat) :
    read ((cursorText n).toList.take k) = n.tdiv (10 ^ (width n - k)) := by
  have hlength : (toString n).toList.length = width n := String.length_toList
  rw [cursorText, String.toList_append]
  by_cases hk : k ≤ width n
  · rw [List.take_append_of_le_length (hlength ▸ hk), read_take]
  · have htake :
        ((toString n).toList ++ "\n".toList).take k = (toString n).toList ++ "\n".toList := by
      refine List.take_of_length_le ?_
      rw [List.length_append, hlength, show "\n".toList.length = 1 from rfl]
      omega
    have hzero : width n - k = 0 := by omega
    rw [htake, read, Text.number_append n _ (by simp), hzero, Int.pow_zero, Int.tdiv_one]
    rfl

/-- The cursor after a flush that wrote so many bytes. -/
theorem cursorOf_flushed (seq : Int64) (k : Nat) :
    cursorOf (some (flush k (cursorText seq.toInt))) =
      seq.toInt.tdiv (10 ^ (width seq.toInt - k)) := by
  have hle := seq.le_toInt
  have hlt := seq.toInt_lt
  have habs : (seq.toInt.tdiv (10 ^ (width seq.toInt - k))).natAbs ≤ seq.toInt.natAbs :=
    Int.natAbs_tdiv_le_natAbs ..
  have hsign : seq.toInt ≤ 0 → seq.toInt.tdiv (10 ^ (width seq.toInt - k)) ≤ 0 := by
    intro hneg
    have hpow : (0 : Int) ≤ 10 ^ (width seq.toInt - k) := Int.pow_nonneg (by decide)
    have hpos := Int.tdiv_nonneg (show 0 ≤ -seq.toInt by omega) hpow
    rw [Int.neg_tdiv] at hpos
    omega
  rw [cursorOf_eq_read, flush, String.toList_ofList, read_flushed]
  omega

/-! ## The save -/

theorem saveEventCursor_cursor : (saveEventCursor files seq disk).cursor =
    if disk.opens && disk.renames then some (flush disk.flushed (cursorText seq.toInt))
    else files.cursor := by
  rw [saveEventCursor]
  cases disk.opens <;> cases disk.renames <;> rfl

/-- Where the flush writes everything, the save is the one of a beat. -/
theorem saveEventCursor_whole (h : width seq.toInt < disk.flushed) :
    (saveEventCursor files seq disk).cursor =
      if disk.opens && disk.renames then some (cursorText seq.toInt) else files.cursor := by
  have hlength : (cursorText seq.toInt).toList.length ≤ disk.flushed := by
    rw [String.length_toList, cursorText, String.length_append]
    exact h
  rw [saveEventCursor_cursor, flush, List.take_of_length_le hlength, String.ofList_toList]

/-- What an acknowledged heartbeat leaves, as long as the disk is not full. -/
theorem answered_eq_save {backendReached : Bool} {r : Round} {events : List Event} {last : Event}
    (h : width seq.toInt < disk.flushed) (hsaved : r.saved = (disk.opens && disk.renames))
    (hok : r.response.ok = true) (hlast : events.getLast? = some last)
    (hseq : last.seq = seq.toInt) :
    (answered files.cursor backendReached r events).file =
      (saveEventCursor files seq disk).cursor := by
  rw [answered_file, saveEventCursor_whole h, hok, Bool.true_and, hsaved, hlast, ← hseq]
  rfl

/-- Without its last digits it is another number, unless it is `0`. -/
theorem tdiv_eq_self_iff {m : Nat} {n : Int} (hm : 0 < m) : n.tdiv (10 ^ m) = n ↔ n = 0 := by
  constructor
  · intro h
    by_contra hn
    have hlt : n.natAbs / 10 ^ m < n.natAbs :=
      Nat.div_lt_self (Int.natAbs_pos.mpr hn) (Nat.one_lt_pow (by omega) (by decide))
    have habs := congrArg Int.natAbs h
    rw [Int.natAbs_tdiv, Int.natAbs_pow] at habs
    exact absurd habs (Nat.ne_of_lt hlt)
  · rintro rfl
    exact Int.zero_tdiv _

/-- The cursor stays whole if and only if no digits are cut off. -/
theorem saved_iff (files : Files) (seq : Int64) (disk : Disk) :
    Saved files seq disk ↔ ¬ Cut files seq disk := by
  have hsaved : Saved files seq disk ↔
      cursorOf (saveEventCursor files seq disk).cursor = cursorOf files.cursor ∨
        cursorOf (saveEventCursor files seq disk).cursor = seq.toInt := by
    refine ⟨Saved.whole, fun h => ⟨h, fun hle => ?_⟩⟩
    obtain h | h := h
    · exact h.ge
    · exact h ▸ hle
  rw [hsaved, saveEventCursor_cursor, Cut]
  by_cases hopens : (disk.opens && disk.renames) = true
  · rw [if_pos hopens, cursorOf_flushed]
    obtain ⟨hopens, hrenames⟩ := Bool.and_eq_true_iff.mp hopens
    simp only [hopens, hrenames, true_and, not_and, ne_eq, not_not]
    rw [show width seq.toInt - disk.flushed = missing seq disk from rfl]
    by_cases hmissing : 0 < missing seq disk
    · rw [tdiv_eq_self_iff hmissing, or_comm, or_iff_not_imp_left]
      exact ⟨fun h _ h0 => (h h0).symm, fun h h0 => (h hmissing h0).symm⟩
    · have hzero : missing seq disk = 0 := Nat.eq_zero_of_not_pos hmissing
      rw [hzero, Int.pow_zero, Int.tdiv_one]
      exact iff_of_true (.inr rfl) fun hpos => absurd hpos (Nat.lt_irrefl 0)
  · rw [if_neg hopens]
    refine iff_of_true (.inl rfl) ?_
    rintro ⟨hopens', hrenames', -⟩
    rw [hopens', hrenames'] at hopens
    exact hopens rfl

/-- The disk is full behind two digits: the next heartbeat asks for the events from 13 on again. -/
theorem not_saved_full :
    ¬ Saved { cursor := some "41\n" } 1234 { flushed := 2 } ∧
      cursorOf (some "41\n") = 41 ∧
      cursorOf (saveEventCursor { cursor := some "41\n" } 1234 { flushed := 2 }).cursor = 12 := by
  have hcursor :
      cursorOf (saveEventCursor { cursor := some "41\n" } 1234 { flushed := 2 }).cursor = 12 := by
    decide
  have hbefore : cursorOf (some "41\n") = 41 := by decide
  refine ⟨fun h => ?_, hbefore, hcursor⟩
  obtain h | h := h.whole
  · rw [hcursor, hbefore] at h
    exact absurd h (by decide)
  · rw [hcursor] at h
    exact absurd h (by decide)

end ShareFrame.Heartbeat.CursorFile
