import Mathlib.Algebra.Group.Nat.Defs
import Mathlib.Tactic.Common

/-!
# Bits of bytes

Bits are counted from the most significant one of the first byte. `msb n` writes the low
`n` bits of a number, and a sequence of bytes is the sequence of their bits (`bits`), each
of which can be read by its index (`getElem?_bits`). Writing splits where a number is
split (`msb_add`), so bits that are regrouped into digits of another width keep their index
(`getElem?_flatMap_msb`). A mask changes one bit (`bit_set`, `bit_clear`).
-/

namespace Bits

/-- The low `n` bits of a number. -/
def msb : Nat → Nat → List Bool
  | 0, _ => []
  | n + 1, v => v.testBit n :: msb n v

def bits (data : List UInt8) : List Bool := data.flatMap fun b => msb 8 b.toNat

/-- The bit of this index, `false` behind the end. -/
def bit (data : List UInt8) (i : Nat) : Bool := (data[i / 8]?.getD 0).toNat.testBit (7 - i % 8)

variable {m n v w i j : Nat} {data : List UInt8}

/-! ## Numbers -/

@[simp] theorem length_msb (n v : Nat) : (msb n v).length = n := by
  induction n with
  | zero => rfl
  | succ n ih => rw [msb, List.length_cons, ih]

theorem msb_congr (h : ∀ i < n, v.testBit i = w.testBit i) : msb n v = msb n w := by
  induction n with
  | zero => rfl
  | succ n ih =>
    rw [msb, msb, h n (Nat.lt_succ_self n), ih fun i hi => h i (Nat.lt_succ_of_lt hi)]

theorem msb_mod (h : n ≤ m) (v : Nat) : msb n (v % 2 ^ m) = msb n v := by
  refine msb_congr fun i hi => ?_
  rw [Nat.testBit_mod_two_pow, decide_eq_true (Nat.lt_of_lt_of_le hi h), Bool.true_and]

theorem msb_add (m n v : Nat) : msb (m + n) v = msb m (v / 2 ^ n) ++ msb n v := by
  induction m with
  | zero => rw [Nat.zero_add]; rfl
  | succ m ih => rw [Nat.succ_add, msb, ih, msb, Nat.testBit_div_two_pow, List.cons_append]

theorem msb_zero (n : Nat) : msb n 0 = List.replicate n false := by
  induction n with
  | zero => rfl
  | succ n ih => rw [msb, ih, Nat.zero_testBit, List.replicate_succ]

/-- The bits that a shift brings in. -/
theorem msb_shift (m n v : Nat) : msb (m + n) (v * 2 ^ n) = msb m v ++ List.replicate n false := by
  have hpos : 0 < 2 ^ n := Nat.two_pow_pos n
  rw [msb_add, Nat.mul_div_cancel v hpos, ← msb_mod (Nat.le_refl n), Nat.mul_mod_left, msb_zero]

theorem getElem?_msb (h : i < n) : (msb n v)[i]? = some (v.testBit (n - 1 - i)) := by
  induction n generalizing i with
  | zero => exact absurd h (Nat.not_lt_zero i)
  | succ n ih =>
    cases i with
    | zero => rfl
    | succ i =>
      have hi : i < n := Nat.lt_of_succ_lt_succ h
      rw [msb, List.getElem?_cons_succ, ih hi]
      have hidx : n - 1 - i = n + 1 - 1 - (i + 1) := by omega
      rw [hidx]

theorem msb_inj (hv : v < 2 ^ n) (hw : w < 2 ^ n) (h : msb n v = msb n w) : v = w := by
  refine Nat.eq_of_testBit_eq fun i => ?_
  by_cases hi : i < n
  · have hv := getElem?_msb (v := v) (show n - 1 - i < n by omega)
    have hw := getElem?_msb (v := w) (show n - 1 - i < n by omega)
    rw [h, hw] at hv
    have hidx : n - 1 - (n - 1 - i) = i := by omega
    rw [hidx] at hv
    exact (Option.some.inj hv).symm
  · have hle : 2 ^ n ≤ 2 ^ i := Nat.pow_le_pow_right (by decide) (Nat.le_of_not_lt hi)
    rw [Nat.testBit_lt_two_pow (Nat.lt_of_lt_of_le hv hle),
      Nat.testBit_lt_two_pow (Nat.lt_of_lt_of_le hw hle)]

/-! ## Digits of one width -/

theorem length_flatMap_msb (n : Nat) (ds : List Nat) :
    (ds.flatMap (msb n)).length = ds.length * n := by
  induction ds with
  | nil => rw [List.flatMap_nil, List.length_nil, List.length_nil, Nat.zero_mul]
  | cons d ds ih =>
    rw [List.flatMap_cons, List.length_append, ih, length_msb, List.length_cons, Nat.succ_mul,
      Nat.add_comm]

/-- The bits of one digit among those of all. -/
theorem getElem?_flatMap_msb (ds : List Nat) (k : Nat) (h : j < n) :
    (ds.flatMap (msb n))[k * n + j]? = ds[k]?.map fun d => d.testBit (n - 1 - j) := by
  induction ds generalizing k with
  | nil => rw [List.flatMap_nil, List.getElem?_nil, List.getElem?_nil]; rfl
  | cons d ds ih =>
    rw [List.flatMap_cons]
    cases k with
    | zero =>
      rw [Nat.zero_mul, Nat.zero_add, List.getElem?_append_left (by rw [length_msb]; exact h),
        getElem?_msb h]
      rfl
    | succ k =>
      have hle : (msb n d).length ≤ (k + 1) * n + j := by
        rw [length_msb, Nat.succ_mul]
        omega
      have hidx : (k + 1) * n + j - (msb n d).length = k * n + j := by
        rw [length_msb, Nat.succ_mul]
        omega
      rw [List.getElem?_append_right hle, hidx, ih, List.getElem?_cons_succ]

theorem flatMap_msb_inj {ds es : List Nat} (hd : ∀ d ∈ ds, d < 2 ^ n) (he : ∀ e ∈ es, e < 2 ^ n)
    (hlen : ds.length = es.length) (h : ds.flatMap (msb n) = es.flatMap (msb n)) : ds = es := by
  induction ds generalizing es with
  | nil => exact (List.eq_nil_of_length_eq_zero hlen.symm).symm
  | cons d ds ih =>
    cases es with
    | nil => cases hlen
    | cons e es =>
      obtain ⟨hd0, hd⟩ := List.forall_mem_cons.mp hd
      obtain ⟨he0, he⟩ := List.forall_mem_cons.mp he
      rw [List.flatMap_cons, List.flatMap_cons] at h
      obtain ⟨hhead, htail⟩ := List.append_inj h (by rw [length_msb, length_msb])
      rw [msb_inj hd0 he0 hhead, ih hd he (Nat.succ.inj hlen) htail]

/-! ## Bytes -/

theorem bits_eq (data : List UInt8) : bits data = (data.map (·.toNat)).flatMap (msb 8) := by
  rw [List.flatMap_map]
  rfl

theorem length_bits (data : List UInt8) : (bits data).length = 8 * data.length := by
  rw [bits_eq, length_flatMap_msb, List.length_map, Nat.mul_comm]

theorem bits_append (data more : List UInt8) : bits (data ++ more) = bits data ++ bits more :=
  List.flatMap_append

theorem getElem?_bits (h : i < 8 * data.length) : (bits data)[i]? = some (bit data i) := by
  have hbyte : i / 8 < data.length := by omega
  have hi : i = i / 8 * 8 + i % 8 := by omega
  rw [bits_eq, hi, getElem?_flatMap_msb _ _ (Nat.mod_lt i (by decide)), List.getElem?_map, bit,
    ← hi, List.getElem?_eq_getElem hbyte]
  rfl

theorem bit_of_le (h : 8 * data.length ≤ i) : bit data i = false := by
  have hbyte : data.length ≤ i / 8 := by omega
  rw [bit, List.getElem?_eq_none hbyte]
  exact Nat.zero_testBit _

theorem bits_inj {data data' : List UInt8} (h : bits data = bits data') : data = data' := by
  have hlen := congrArg List.length h
  rw [length_bits, length_bits] at hlen
  have hbyte (bytes : List UInt8) : ∀ d ∈ bytes.map (·.toNat), d < 2 ^ 8 := by
    intro d hd
    obtain ⟨b, -, rfl⟩ := List.mem_map.mp hd
    exact b.toNat_lt
  rw [bits_eq, bits_eq] at h
  have hmap := flatMap_msb_inj (hbyte data) (hbyte data')
    (by rw [List.length_map, List.length_map]; omega) h
  exact (List.map_inj_right fun a b => UInt8.toNat_inj.mp).mp hmap

/-! ## Masks -/

/-- The mask of one bit. -/
def mask (i : Nat) : UInt8 := 0x80 >>> UInt8.ofNat (i % 8)

theorem testBit_mask (i j : Nat) :
    (mask i).toNat.testBit (7 - j % 8) = decide (i % 8 = j % 8) := by
  have hall : ∀ i < 8, ∀ j < 8,
      (0x80 >>> UInt8.ofNat i : UInt8).toNat.testBit (7 - j) = decide (i = j) := by
    decide
  exact hall _ (Nat.mod_lt i (by decide)) _ (Nat.mod_lt j (by decide))

theorem testBit_not_mask (i j : Nat) :
    (~~~mask i).toNat.testBit (7 - j % 8) = !decide (i % 8 = j % 8) := by
  have hall : ∀ i < 8, ∀ j < 8,
      (~~~(0x80 >>> UInt8.ofNat i) : UInt8).toNat.testBit (7 - j) = !decide (i = j) := by
    decide
  exact hall _ (Nat.mod_lt i (by decide)) _ (Nat.mod_lt j (by decide))

/-- A byte in which only the bit of one index may change. -/
theorem bit_modify {f : UInt8 → UInt8} (hi : i < 8 * data.length) (j : Nat) (c : Bool)
    (hf : ∀ b : UInt8, (f b).toNat.testBit (7 - j % 8) =
      if i % 8 = j % 8 then c else b.toNat.testBit (7 - j % 8)) :
    bit (data.modify (i / 8) f) j = if i = j then c else bit data j := by
  have hbyte : i / 8 < data.length := by omega
  rw [bit, bit]
  by_cases hj : i / 8 = j / 8
  · have heq : i % 8 = j % 8 ↔ i = j := by omega
    rw [← hj, List.getElem?_modify_eq, List.getElem?_eq_getElem hbyte]
    simp only [Option.map_eq_map, Option.map_some, Option.getD_some, hf, heq]
  · have hne : i ≠ j := fun h => hj (by rw [h])
    rw [List.getElem?_modify_ne _ _ hj, if_neg hne]

theorem bit_set (hi : i < 8 * data.length) (j : Nat) :
    bit (data.modify (i / 8) (· ||| mask i)) j = if i = j then true else bit data j := by
  refine bit_modify hi j true fun b => ?_
  rw [UInt8.toNat_or, Nat.testBit_or, testBit_mask]
  by_cases h : i % 8 = j % 8
  · rw [if_pos h, decide_eq_true h, Bool.or_true]
  · rw [if_neg h, decide_eq_false h, Bool.or_false]

theorem bit_clear (hi : i < 8 * data.length) (j : Nat) :
    bit (data.modify (i / 8) (· &&& ~~~mask i)) j = if i = j then false else bit data j := by
  refine bit_modify hi j false fun b => ?_
  rw [UInt8.toNat_and, Nat.testBit_and, testBit_not_mask]
  by_cases h : i % 8 = j % 8
  · rw [if_pos h, decide_eq_true h, Bool.not_true, Bool.and_false]
  · rw [if_neg h, decide_eq_false h, Bool.not_false, Bool.and_true]

end Bits
