import Mathlib.Algebra.Group.Nat.Defs
import ShareFrame.Display.PanelText

/-!
# Decoding UTF-8

`panel_text::decodeUtf8` takes the length of a sequence from its first byte, collects
the bits of the bytes behind it as far as the text goes, and skips the length even
where the text ends before. A read outside the text is `none`, and does not occur; what
was encoded is decoded (`decodeUtf8_correct`).
-/

namespace ShareFrame.PanelText

/-! ## The loops -/

/-- How long the first byte says that the sequence is. -/
def sequenceLength (c : UInt8) : Nat :=
  if c < 0x80 then 1
  else if c >>> 5 = 0x6 then 2
  else if c >>> 4 = 0xE then 3
  else if c >>> 3 = 0x1E then 4
  else 1

/-- The bits of the first byte. -/
def leadBits (c : UInt8) (len : Nat) : CodePoint :=
  if len = 1 then c.toUInt32 else (c &&& (0x7F >>> UInt8.ofNat len)).toUInt32

/-- The bits of a further byte. -/
def addBits (cp : CodePoint) (b : UInt8) : CodePoint := (cp <<< 6) ||| (b &&& 0x3F).toUInt32

/-- The bytes from the `k`-th of a sequence on, of which so many are left. -/
def readTail (s : List UInt8) (i : Nat) : Nat → Nat → CodePoint → Option CodePoint
  | 0, _, cp => some cp
  | left + 1, k, cp =>
    if i + k < s.length then
      match s[i + k]? with
      | none => none
      | some b => readTail s i left (k + 1) (addBits cp b)
    else some cp

theorem sequenceLength_pos (c : UInt8) : 0 < sequenceLength c := by
  unfold sequenceLength
  repeat' split
  all_goals decide

/-- The loop from the `i`-th byte on. -/
def decodeFrom (s : List UInt8) (i : Nat) (out : List CodePoint) : Option (List CodePoint) :=
  if i < s.length then
    match s[i]? with
    | none => none
    | some c =>
      match readTail s i (sequenceLength c - 1) 1 (leadBits c (sequenceLength c)) with
      | none => none
      | some cp => decodeFrom s (i + sequenceLength c) (out ++ [cp])
  else some out
termination_by s.length - i
decreasing_by
  have hpos := sequenceLength_pos c
  omega

def decodeUtf8 (s : List UInt8) : Option (List CodePoint) := decodeFrom s 0 []

/-! ## Any bytes -/

theorem readTail_ne_none (s : List UInt8) (i left k : Nat) (cp : CodePoint) :
    readTail s i left k cp ≠ none := by
  induction left generalizing k cp with
  | zero => rintro ⟨⟩
  | succ left ih =>
    rw [readTail]
    split
    next hlt =>
      rw [List.getElem?_eq_getElem hlt]
      exact ih (k + 1) (addBits cp s[i + k])
    next => rintro ⟨⟩

/-- No read is outside, and every code point takes a byte. -/
theorem exists_decodeFrom (s : List UInt8) (i : Nat) (out : List CodePoint) :
    ∃ decoded, decodeFrom s i out = some decoded ∧
      decoded.length ≤ out.length + (s.length - i) := by
  induction h : s.length - i using Nat.strongRecOn generalizing i out with
  | ind n ih =>
    rw [decodeFrom]
    split
    next hlt =>
      rw [List.getElem?_eq_getElem hlt]
      have hpos := sequenceLength_pos s[i]
      obtain ⟨cp, hcp⟩ := Option.ne_none_iff_exists'.mp (readTail_ne_none s i
        (sequenceLength s[i] - 1) 1 (leadBits s[i] (sequenceLength s[i])))
      obtain ⟨decoded, heq, hle⟩ :=
        ih (s.length - (i + sequenceLength s[i])) (by omega) _ (out ++ [cp]) rfl
      rw [List.length_append, List.length_singleton] at hle
      refine ⟨decoded, ?_, by omega⟩
      simp only [hcp]
      exact heq
    next => exact ⟨out, rfl, by omega⟩

/-! ## Bytes in front of the text -/

theorem getElem?_behind (before s : List UInt8) (i : Nat) :
    (before ++ s)[before.length + i]? = s[i]? := by
  rw [List.getElem?_append_right (Nat.le_add_right ..), Nat.add_sub_cancel_left]

theorem readTail_behind (before s : List UInt8) (i left k : Nat) (cp : CodePoint) :
    readTail (before ++ s) (before.length + i) left k cp = readTail s i left k cp := by
  induction left generalizing k cp with
  | zero => rfl
  | succ left ih =>
    have hlt : before.length + i + k < (before ++ s).length ↔ i + k < s.length := by
      rw [List.length_append]
      omega
    rw [readTail, readTail, Nat.add_assoc, getElem?_behind]
    simp only [← Nat.add_assoc, hlt, ih]

theorem decodeFrom_behind (before s : List UInt8) (i : Nat) (out : List CodePoint) :
    decodeFrom (before ++ s) (before.length + i) out = decodeFrom s i out := by
  induction h : s.length - i using Nat.strongRecOn generalizing i out with
  | ind n ih =>
    have hlt : before.length + i < (before ++ s).length ↔ i < s.length := by
      rw [List.length_append]
      omega
    rw [decodeFrom, decodeFrom, getElem?_behind]
    simp only [hlt, readTail_behind]
    split
    next hi =>
      rw [List.getElem?_eq_getElem hi]
      have hpos := sequenceLength_pos s[i]
      simp only
      split
      · rfl
      · rw [Nat.add_assoc]
        exact ih (s.length - (i + sequenceLength s[i])) (by omega) _ _ rfl
    next => rfl

/-! ## The encoding of one character -/

theorem sequenceLength_ofNat {n : Nat} (h : n < 256) :
    sequenceLength (UInt8.ofNat n) =
      if n < 128 then 1 else if n / 32 = 6 then 2 else if n / 16 = 14 then 3
      else if n / 8 = 30 then 4 else 1 := by
  simp only [sequenceLength, UInt8.lt_iff_toNat_lt, ← UInt8.toNat_inj, UInt8.toNat_shiftRight,
    UInt8.toNat_ofNat_of_lt' h, Nat.shiftRight_eq_div_pow]
  rfl

/-- The mask leaves the lower bits. -/
theorem toNat_leadBits {n len : Nat} (h : n < 256) (hlen : len = 2 ∨ len = 3 ∨ len = 4) :
    (leadBits (UInt8.ofNat n) len).toNat = n % 2 ^ (7 - len) := by
  have hmask : (0x7F >>> UInt8.ofNat len : UInt8).toNat = 2 ^ (7 - len) - 1 := by
    obtain rfl | rfl | rfl := hlen <;> rfl
  have hne : len ≠ 1 := by omega
  rw [leadBits, if_neg hne, UInt8.toNat_toUInt32, UInt8.toNat_and, hmask,
    Nat.and_two_pow_sub_one_eq_mod, UInt8.toNat_ofNat_of_lt' h]

theorem toNat_addBits {cp : CodePoint} {n : Nat} (hcp : cp.toNat < 2 ^ 26) (h : n < 256) :
    (addBits cp (UInt8.ofNat n)).toNat = 64 * cp.toNat + n % 64 := by
  have hmask : (0x3F : UInt8).toNat = 2 ^ 6 - 1 := rfl
  have hshift : cp.toNat <<< ((6 : UInt32).toNat % 32) % 2 ^ 32 = cp.toNat <<< 6 := by
    rw [show (6 : UInt32).toNat % 32 = 6 from rfl]
    refine Nat.mod_eq_of_lt ?_
    rw [Nat.shiftLeft_eq]
    omega
  have hlt : n % 2 ^ 6 < 2 ^ 6 := Nat.mod_lt _ (by decide)
  rw [addBits, UInt32.toNat_or, UInt32.toNat_shiftLeft, hshift, UInt8.toNat_toUInt32,
    UInt8.toNat_and, hmask, Nat.and_two_pow_sub_one_eq_mod, UInt8.toNat_ofNat_of_lt' h,
    ← Nat.shiftLeft_add_eq_or_of_lt hlt, Nat.shiftLeft_eq, Nat.mul_comm,
    show 2 ^ 6 = 64 from rfl]

/-- The further bytes of a sequence that is whole. -/
theorem readTail_append (front bytes rest : List UInt8) (cp : CodePoint) :
    readTail (front ++ (bytes ++ rest)) 0 bytes.length front.length cp =
      some (bytes.foldl addBits cp) := by
  induction bytes generalizing front cp with
  | nil => rfl
  | cons b bytes ih =>
    have hlt : 0 + front.length < (front ++ (b :: bytes ++ rest)).length := by simp
    have hget : (front ++ (b :: bytes ++ rest))[0 + front.length]? = some b := by
      rw [Nat.zero_add, List.getElem?_append_right (Nat.le_refl _), Nat.sub_self]
      rfl
    have hnext := ih (front ++ [b]) (addBits cp b)
    rw [List.append_assoc, List.length_append, List.length_singleton] at hnext
    rw [List.length_cons, readTail, if_pos hlt, hget]
    exact hnext

/-- A sequence that is whole is one code point. -/
theorem decodeFrom_sequence {lead : UInt8} {bytes : List UInt8}
    (hlen : sequenceLength lead = bytes.length + 1) (rest : List UInt8) (out : List CodePoint) :
    decodeFrom (lead :: (bytes ++ rest)) 0 out =
      decodeFrom rest 0 (out ++ [bytes.foldl addBits (leadBits lead (bytes.length + 1))]) := by
  have htail := readTail_append [lead] bytes rest (leadBits lead (bytes.length + 1))
  have hrest := decodeFrom_behind (lead :: bytes) rest 0
    (out ++ [bytes.foldl addBits (leadBits lead (bytes.length + 1))])
  rw [List.singleton_append, List.length_singleton] at htail
  rw [List.cons_append, List.length_cons, Nat.add_zero] at hrest
  rw [decodeFrom, if_pos (by simp), List.getElem?_cons_zero]
  simp only [hlen, Nat.add_sub_cancel, htail, Nat.zero_add]
  exact hrest

/-- The number that further bytes make of the bits before them. -/
theorem toNat_foldl {ns : List Nat} (hns : ∀ n ∈ ns, n < 256) {cp : CodePoint}
    (hcp : (cp.toNat + 1) * 64 ^ ns.length ≤ 2 ^ 32) :
    ((ns.map UInt8.ofNat).foldl addBits cp).toNat =
      ns.foldl (fun v n => 64 * v + n % 64) cp.toNat := by
  induction ns generalizing cp with
  | nil => rfl
  | cons n ns ih =>
    obtain ⟨hn, hns⟩ := List.forall_mem_cons.mp hns
    rw [List.length_cons, Nat.pow_succ', ← Nat.mul_assoc] at hcp
    have hpos : 0 < 64 ^ ns.length := Nat.pow_pos (by decide)
    have hle : (cp.toNat + 1) * 64 ≤ 2 ^ 32 := Nat.le_trans (Nat.le_mul_of_pos_right _ hpos) hcp
    have hadd : (addBits cp (UInt8.ofNat n)).toNat = _ := toNat_addBits (by omega) hn
    rw [List.map_cons, List.foldl_cons, List.foldl_cons, ih hns, hadd]
    rw [hadd]
    exact Nat.le_trans (Nat.mul_le_mul_right _ (by omega)) hcp

/-- A lead byte of more than one byte and the bytes behind it. -/
theorem toNat_sequence {n : Nat} {ns : List Nat} (hn : n < 256) (hns : ∀ n ∈ ns, n < 256)
    (hlen : ns.length + 1 = 2 ∨ ns.length + 1 = 3 ∨ ns.length + 1 = 4) :
    ((ns.map UInt8.ofNat).foldl addBits (leadBits (UInt8.ofNat n) (ns.length + 1))).toNat =
      ns.foldl (fun v n => 64 * v + n % 64) (n % 2 ^ (7 - (ns.length + 1))) := by
  have hlead := toNat_leadBits hn hlen
  rw [toNat_foldl hns, hlead]
  rw [hlead]
  generalize ns.length = l at hlen
  obtain rfl | rfl | rfl : l = 1 ∨ l = 2 ∨ l = 3 := by omega
  all_goals omega

/-- The bytes of a character are a whole sequence with its bits. -/
theorem exists_sequence (c : Char) : ∃ lead bytes, String.utf8EncodeChar c = lead :: bytes ∧
    sequenceLength lead = bytes.length + 1 ∧
    bytes.foldl addBits (leadBits lead (bytes.length + 1)) = c.val := by
  have hmax : c.val.toNat < 0x110000 := by
    have hvalid := c.valid
    simp only [UInt32.isValidChar, Nat.isValidChar] at hvalid
    omega
  unfold String.utf8EncodeChar
  generalize hv : c.val.toNat = v at hmax
  simp only
  split
  next h1 =>
    refine ⟨_, [], rfl, ?_, UInt32.toNat_inj.mp ?_⟩
    · rw [sequenceLength_ofNat (by omega), if_pos (by omega)]
      rfl
    · rw [hv]
      exact UInt8.toNat_ofNat_of_lt' (show v < 256 by omega)
  next h1 =>
    split
    next h2 =>
      refine ⟨_, [v % 0x40 + 0x80].map UInt8.ofNat, rfl, ?_, UInt32.toNat_inj.mp ?_⟩
      · rw [sequenceLength_ofNat (by omega), if_neg (by omega), if_pos (by omega)]
        rfl
      · rw [List.length_map, toNat_sequence (by omega) (by simp; omega) (.inl rfl), hv]
        simp only [List.foldl_cons, List.foldl_nil, List.length_singleton]
        omega
    next h2 =>
      split
      next h3 =>
        refine ⟨_, [v / 64 % 0x40 + 0x80, v % 0x40 + 0x80].map UInt8.ofNat, rfl, ?_,
          UInt32.toNat_inj.mp ?_⟩
        · rw [sequenceLength_ofNat (by omega), if_neg (by omega), if_neg (by omega),
            if_pos (by omega)]
          rfl
        · rw [List.length_map, toNat_sequence (by omega) (by simp; omega) (.inr (.inl rfl)), hv]
          simp only [List.foldl_cons, List.foldl_nil, List.length_cons, List.length_nil]
          omega
      next h3 =>
        refine ⟨_, [v / 4096 % 0x40 + 0x80, v / 64 % 0x40 + 0x80, v % 0x40 + 0x80].map UInt8.ofNat,
          rfl, ?_, UInt32.toNat_inj.mp ?_⟩
        · rw [sequenceLength_ofNat (by omega), if_neg (by omega), if_neg (by omega),
            if_neg (by omega), if_pos (by omega)]
          rfl
        · rw [List.length_map, toNat_sequence (by omega) (by simp; omega) (.inr (.inr rfl)), hv]
          simp only [List.foldl_cons, List.foldl_nil, List.length_cons, List.length_nil]
          omega

/-! ## Main result -/

theorem decodeFrom_encode (cs : List Char) (out : List CodePoint) :
    decodeFrom (cs.flatMap String.utf8EncodeChar) 0 out = some (out ++ cs.map Char.val) := by
  induction cs generalizing out with
  | nil =>
    rw [List.flatMap_nil, decodeFrom, if_neg (by simp), List.map_nil, List.append_nil]
  | cons c cs ih =>
    obtain ⟨lead, bytes, heq, hlen, hbits⟩ := exists_sequence c
    rw [List.flatMap_cons, heq, List.cons_append, decodeFrom_sequence hlen, hbits, ih,
      List.append_assoc]
    rfl

/-- What was encoded is decoded; and any bytes are decoded without a read outside of them, into at
most one code point for each. -/
theorem decodeUtf8_correct :
    (∀ cs : List Char, decodeUtf8 (cs.flatMap String.utf8EncodeChar) = some (cs.map Char.val)) ∧
    ∀ s : List UInt8, ∃ out, decodeUtf8 s = some out ∧ out.length ≤ s.length := by
  refine ⟨fun cs => decodeFrom_encode cs [], fun s => ?_⟩
  obtain ⟨out, heq, hle⟩ := exists_decodeFrom s 0 []
  rw [List.length_nil, Nat.zero_add, Nat.sub_zero] at hle
  exact ⟨out, heq, hle⟩

end ShareFrame.PanelText
