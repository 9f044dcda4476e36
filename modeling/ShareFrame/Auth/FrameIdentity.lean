import ShareFrame.Lib.Bits

/-!
# The readable frame id

`FrameIdentity::fingerprint`: the first bytes of a digest of the public key in RFC 4648
base32, in groups of four letters. `base32` keeps the bits that no letter has taken yet in
an accumulator; what it has written and what the accumulator holds are together the bits
of the bytes read (`Coder.Holds`). OpenSSL and the Base64 decoder are parameters.
-/

namespace ShareFrame.FrameIdentity

open Bits (bit msb)

def alphabet : List Char := "ABCDEFGHIJKLMNOPQRSTUVWXYZ234567".toList

theorem and_0x1F_lt (v : UInt32) : (v &&& 0x1F).toNat < alphabet.length := by
  rw [UInt32.toNat_and]
  exact Nat.lt_succ_of_le Nat.and_le_right

/-- `alphabet[v & 0x1F]`. -/
def symbol (v : UInt32) : Char := alphabet.get ⟨(v &&& 0x1F).toNat, and_0x1F_lt v⟩

/-- The variables of the loop in `base32`. -/
structure Coder where
  out : List Char := []
  buffer : UInt32 := 0
  bits : Nat := 0

/-- `while (bits >= 5)`, over the output so far. -/
def drain (buffer : UInt32) : Nat → List Char → List Char × Nat
  | bits + 5, out => drain buffer bits (out ++ [symbol (buffer >>> UInt32.ofNat bits)])
  | bits, out => (out, bits)

/-- `(buffer << 8) | data[i]`. -/
def accumulate (buffer : UInt32) (c : UInt8) : UInt32 := buffer <<< 8 ||| c.toUInt32

def Coder.push (s : Coder) (c : UInt8) : Coder :=
  let buffer := accumulate s.buffer c
  let (out, bits) := drain buffer (s.bits + 8) s.out
  { out, buffer := buffer &&& (1 <<< UInt32.ofNat bits - 1), bits }

/-- The accumulator where the last letter is taken from it. -/
def Coder.last (s : Coder) : UInt32 := s.buffer <<< UInt32.ofNat (5 - s.bits)

def base32 (data : List UInt8) : List Char :=
  let s := data.foldl Coder.push {}
  if 0 < s.bits then s.out ++ [symbol s.last] else s.out

example : base32 [0x66, 0x6F, 0x6F, 0x62] = "MZXW6YQ".toList := by decide

/-! ## The accumulator -/

theorem toNat_accumulate {buffer : UInt32} (h : buffer.toNat < 2 ^ 4) (c : UInt8) :
    (accumulate buffer c).toNat = buffer.toNat * 256 + c.toNat := by
  have hc : c.toNat < 2 ^ 8 := c.toNat_lt
  have hshift : (buffer <<< 8).toNat = buffer.toNat <<< 8 := by
    rw [UInt32.toNat_shiftLeft]
    have hlt : buffer.toNat <<< 8 < 2 ^ 32 := by rw [Nat.shiftLeft_eq]; omega
    exact Nat.mod_eq_of_lt hlt
  rw [accumulate, UInt32.toNat_or, hshift, UInt8.toNat_toUInt32, ← Nat.shiftLeft_add_eq_or_of_lt hc,
    Nat.shiftLeft_eq]

theorem toNat_shiftRight (buffer : UInt32) {n : Nat} (h : n < 32) :
    (buffer >>> UInt32.ofNat n).toNat = buffer.toNat / 2 ^ n := by
  rw [UInt32.toNat_shiftRight, UInt32.toNat_ofNat', Nat.mod_eq_of_lt (by omega : n < 2 ^ 32),
    Nat.mod_eq_of_lt h, Nat.shiftRight_eq_div_pow]

theorem toNat_low (buffer : UInt32) {n : Nat} (h : n < 5) :
    (buffer &&& (1 <<< UInt32.ofNat n - 1)).toNat = buffer.toNat % 2 ^ n := by
  have hmask : ∀ n < 5, (1 <<< UInt32.ofNat n - 1 : UInt32).toNat = 2 ^ n - 1 := by decide
  rw [UInt32.toNat_and, hmask n h, Nat.and_two_pow_sub_one_eq_mod]

theorem toNat_shiftLeft {buffer : UInt32} (h : buffer.toNat < 2 ^ 4) {n : Nat} (hn : n ≤ 5) :
    (buffer <<< UInt32.ofNat n).toNat = buffer.toNat * 2 ^ n := by
  have hpow : 2 ^ n ≤ 2 ^ 5 := Nat.pow_le_pow_right (by decide) hn
  have hlt : buffer.toNat * 2 ^ n < 2 ^ 32 := by
    calc buffer.toNat * 2 ^ n ≤ 2 ^ 4 * 2 ^ 5 := Nat.mul_le_mul (Nat.le_of_lt h) hpow
      _ < 2 ^ 32 := by decide
  rw [UInt32.toNat_shiftLeft, UInt32.toNat_ofNat', Nat.mod_eq_of_lt (by omega : n < 2 ^ 32),
    Nat.mod_eq_of_lt (by omega : n < 32), Nat.shiftLeft_eq, Nat.mod_eq_of_lt hlt]

/-! ## Letters -/

/-- The letter of a digit. -/
def letter (d : Fin 32) : Char := alphabet.get d

theorem letter_inj : ∀ d e : Fin 32, letter d = letter e → d = e := by decide

/-- The digit that `symbol` writes. -/
def digit (v : Nat) : Fin 32 := ⟨v % 2 ^ 5, Nat.mod_lt v (by decide)⟩

theorem symbol_eq (v : UInt32) : symbol v = letter (digit v.toNat) := by
  have hmod : (v &&& 0x1F).toNat = v.toNat % 2 ^ 5 := by
    rw [UInt32.toNat_and]
    exact Nat.and_two_pow_sub_one_eq_mod v.toNat 5
  unfold symbol letter digit
  congr 1
  exact Fin.ext hmod

/-! ## The loops -/

/-- What `drain` takes from the accumulator and what it leaves there are its bits. -/
theorem drain_eq (buffer : UInt32) (n : Nat) (out : List Char) (h : n < 32) :
    ∃ ds r, drain buffer n out = (out ++ List.map letter ds, r) ∧ r < 5 ∧
      (ds.map (·.val)).flatMap (msb 5) ++ msb r buffer.toNat = msb n buffer.toNat := by
  fun_induction drain with
  | case1 n out ih =>
    obtain ⟨ds, r, heq, hr, hbits⟩ := ih (by omega)
    have hdigit : msb 5 (digit (buffer.toNat / 2 ^ n)).val = msb 5 (buffer.toNat / 2 ^ n) :=
      Bits.msb_mod (Nat.le_refl 5) _
    refine ⟨digit (buffer.toNat / 2 ^ n) :: ds, r, ?_, hr, ?_⟩
    · rw [heq, symbol_eq, toNat_shiftRight buffer (by omega), List.map_cons, List.append_assoc,
        List.singleton_append]
    · rw [List.map_cons, List.flatMap_cons, hdigit, List.append_assoc, hbits,
        ← Bits.msb_add, Nat.add_comm]
  | case2 n out hn =>
    refine ⟨[], n, by rw [List.map_nil, List.append_nil], ?_, by rw [List.map_nil]; rfl⟩
    by_cases hlt : n < 5
    · exact hlt
    · exact absurd (by omega : n = n - 5 + 5) (hn (n - 5))

/-- The bits of the bytes read are those of the letters and those still held. -/
structure Coder.Holds (data : List UInt8) (s : Coder) (ds : List (Fin 32)) : Prop where
  out : s.out = ds.map letter
  few : s.bits < 5
  small : s.buffer.toNat < 2 ^ s.bits
  bits : (ds.map (·.val)).flatMap (msb 5) ++ msb s.bits s.buffer.toNat = Bits.bits data

namespace Coder.Holds

variable {data : List UInt8} {s : Coder} {ds : List (Fin 32)}

theorem lt (h : Holds data s ds) : s.buffer.toNat < 2 ^ 4 :=
  Nat.lt_of_lt_of_le h.small (Nat.pow_le_pow_right (by decide) (Nat.le_of_lt_succ h.few))

theorem push (h : Holds data s ds) (c : UInt8) : ∃ ds', Holds (data ++ [c]) (s.push c) ds' := by
  obtain ⟨more, r, heq, hr, hbits⟩ := drain_eq (accumulate s.buffer c) (s.bits + 8) s.out
    (by have := h.few; omega)
  have hpush : s.push c = ⟨s.out ++ more.map letter, accumulate s.buffer c &&&
      (1 <<< UInt32.ofNat r - 1), r⟩ := by
    rw [Coder.push, heq]
  -- the accumulator is that of before with the byte behind it
  have hacc : msb (s.bits + 8) (accumulate s.buffer c).toNat =
      msb s.bits s.buffer.toNat ++ msb 8 c.toNat := by
    have hc : c.toNat < 2 ^ 8 := c.toNat_lt
    rw [toNat_accumulate h.lt, Bits.msb_add, ← Bits.msb_mod (Nat.le_refl 8)]
    have hdiv : (s.buffer.toNat * 256 + c.toNat) / 2 ^ 8 = s.buffer.toNat := by omega
    have hmod : (s.buffer.toNat * 256 + c.toNat) % 2 ^ 8 = c.toNat := by omega
    rw [hdiv, hmod]
  rw [hpush]
  refine ⟨ds ++ more, ?_, hr, ?_, ?_⟩
  · rw [List.map_append, ← h.out]
  · rw [toNat_low _ hr]
    exact Nat.mod_lt _ (Nat.two_pow_pos r)
  · rw [toNat_low _ hr, Bits.msb_mod (Nat.le_refl r), List.map_append, List.flatMap_append,
      List.append_assoc, hbits, hacc, ← List.append_assoc, h.bits, Bits.bits_append]
    simp [Bits.bits]

end Coder.Holds

theorem Coder.Holds.foldl {data : List UInt8} {s : Coder} {ds : List (Fin 32)}
    (h : s.Holds data ds) (more : List UInt8) :
    ∃ ds', (more.foldl Coder.push s).Holds (data ++ more) ds' := by
  induction more generalizing data s ds with
  | nil => exact ⟨ds, by rw [List.append_nil]; exact h⟩
  | cons c more ih =>
    obtain ⟨ds', hpush⟩ := h.push c
    rw [List.append_cons]
    exact ih hpush

theorem holds (data : List UInt8) : ∃ ds, (data.foldl Coder.push {}).Holds data ds := by
  have hstart : Coder.Holds [] {} [] := ⟨rfl, by decide, by decide, rfl⟩
  exact hstart.foldl data

/-- The letters stand for the bits of the bytes and for fewer than five zeros. -/
theorem base32_eq (data : List UInt8) :
    ∃ ds z, base32 data = List.map letter ds ∧ z < 5 ∧
      (ds.map (·.val)).flatMap (msb 5) = Bits.bits data ++ List.replicate z false := by
  obtain ⟨ds, h⟩ := holds data
  rw [base32]
  generalize data.foldl Coder.push {} = s at h
  have hfew := h.few
  by_cases hpos : 0 < s.bits
  · refine ⟨ds ++ [digit s.last.toNat], 5 - s.bits, ?_, by omega, ?_⟩
    · rw [if_pos hpos, symbol_eq, List.map_append, h.out, List.map_singleton]
    · have hlast : msb 5 (digit s.last.toNat).val =
          msb s.bits s.buffer.toNat ++ List.replicate (5 - s.bits) false := by
        have hfive : s.bits + (5 - s.bits) = 5 := by omega
        rw [← Bits.msb_shift, hfive, ← toNat_shiftLeft h.lt (Nat.sub_le 5 s.bits)]
        exact Bits.msb_mod (Nat.le_refl 5) _
      rw [List.map_append, List.flatMap_append, List.map_singleton, List.flatMap_singleton, hlast,
        ← List.append_assoc, h.bits]
  · have hzero : s.bits = 0 := by omega
    have hbits := h.bits
    rw [hzero, msb, List.append_nil] at hbits
    exact ⟨ds, 0, by rw [if_neg hpos, h.out], by decide, by rw [hbits, List.replicate_zero,
      List.append_nil]⟩

theorem length_base32 (data : List UInt8) :
    (base32 data).length = (8 * data.length + 4) / 5 := by
  obtain ⟨ds, z, heq, hz, hbits⟩ := base32_eq data
  have hlen := congrArg List.length hbits
  rw [Bits.length_flatMap_msb, List.length_append, Bits.length_bits, List.length_replicate,
    List.length_map] at hlen
  rw [heq, List.length_map]
  omega

theorem getElem?_base32 (data : List UInt8) {k : Nat} (h : k < (base32 data).length) :
    ∃ d : Fin 32, (base32 data)[k]? = some (letter d) ∧
      ∀ j < 5, d.val.testBit (4 - j) = bit data (5 * k + j) := by
  obtain ⟨ds, z, heq, hz, hbits⟩ := base32_eq data
  rw [heq, List.length_map] at h
  refine ⟨ds.get ⟨k, h⟩, ?_, fun j hj => ?_⟩
  · rw [heq, List.getElem?_map, List.getElem?_eq_getElem h]
    rfl
  · have hread := Bits.getElem?_flatMap_msb (ds.map (·.val)) k hj
    rw [List.getElem?_map, List.getElem?_eq_getElem h, hbits, Nat.mul_comm] at hread
    by_cases hin : 5 * k + j < 8 * data.length
    · rw [List.getElem?_append_left (by rw [Bits.length_bits]; exact hin),
        Bits.getElem?_bits hin] at hread
      exact (Option.some.inj hread).symm
    · -- behind the last byte
      rw [List.getElem?_append_right (by rw [Bits.length_bits]; omega)] at hread
      rw [Bits.bit_of_le (Nat.le_of_not_lt hin)]
      exact (List.eq_of_mem_replicate (List.mem_of_getElem? hread))

theorem base32_inj {data data' : List UInt8} (hlen : data.length = data'.length)
    (h : base32 data = base32 data') : data = data' := by
  obtain ⟨ds, z, heq, -, hbits⟩ := base32_eq data
  obtain ⟨ds', z', heq', -, hbits'⟩ := base32_eq data'
  rw [heq, heq', List.map_inj_right letter_inj] at h
  rw [h, hbits'] at hbits
  refine (Bits.bits_inj (List.append_inj hbits ?_).1).symm
  rw [Bits.length_bits, Bits.length_bits, hlen]

/-! ## RFC 4648 -/

/-- The base32 alphabet of RFC 4648. -/
def table3 (d : Nat) : Char :=
  if d < 26 then Char.ofNat ('A'.toNat + d) else Char.ofNat ('2'.toNat + (d - 26))

theorem letter_eq_table3 : ∀ d : Fin 32, letter d = table3 d.val := by decide

/-- **base32 is RFC 4648's encoding without padding**, of every byte string. -/
theorem base32_rfc4648 (data : List UInt8) :
    (base32 data).length = (8 * data.length + 4) / 5 ∧
    (∀ k < (base32 data).length, ∃ d < 32, (base32 data)[k]? = some (table3 d) ∧
      ∀ j < 5, d.testBit (4 - j) = bit data (5 * k + j)) ∧
    (∀ data', data'.length = data.length → base32 data' = base32 data → data' = data) ∧
    ∀ front back, data = front ++ back → ∀ s, s = front.foldl Coder.push {} →
      s.buffer.toNat < 2 ^ s.bits ∧ s.bits < 5 ∧
      (∀ c, (accumulate s.buffer c).toNat = s.buffer.toNat * 2 ^ 8 + c.toNat ∧
        (accumulate s.buffer c).toNat < 2 ^ 12) ∧
      s.last.toNat = s.buffer.toNat * 2 ^ (5 - s.bits) ∧ s.last.toNat < 2 ^ 12 := by
  refine ⟨length_base32 data, fun k hk => ?_, fun data' hlen => base32_inj hlen, ?_⟩
  · obtain ⟨d, hletter, hbits⟩ := getElem?_base32 data hk
    exact ⟨d.val, d.isLt, by rw [hletter, letter_eq_table3], hbits⟩
  · rintro front - - s rfl
    obtain ⟨ds, h⟩ := holds front
    have hlt := h.lt
    have hlast := toNat_shiftLeft hlt (Nat.sub_le 5 (front.foldl Coder.push {}).bits)
    refine ⟨h.small, h.few, fun c => ?_, hlast, ?_⟩
    · have hc : c.toNat < 2 ^ 8 := c.toNat_lt
      rw [toNat_accumulate hlt]
      omega
    · rw [Coder.last, hlast]
      calc (front.foldl Coder.push {}).buffer.toNat * 2 ^ (5 - (front.foldl Coder.push {}).bits)
          ≤ 2 ^ 4 * 2 ^ 5 := Nat.mul_le_mul (Nat.le_of_lt hlt)
            (Nat.pow_le_pow_right (by decide) (Nat.sub_le 5 _))
        _ < 2 ^ 12 := by decide

/-! ## The fingerprint -/

/-- The Base64 decoder with what it throws, and OpenSSL's calls, `none` where one fails. -/
structure Crypto (Key : Type) where
  decode : String → Except String (List UInt8)
  newRawPrivateKey : List UInt8 → Option Key
  getRawPublicKey : Key → Option (List UInt8)
  newContext : Bool
  digest : List UInt8 → Option (Vector UInt8 32)

variable {Key : Type} (crypto : Crypto Key)

def publicKeyFromSeed (base64PrivateKey : String) : Except String (List UInt8) := do
  let seed ← crypto.decode base64PrivateKey
  if seed.length ≠ 32 then throw "FrameIdentity: private key seed must be 32 bytes"
  match crypto.newRawPrivateKey seed with
  | none => throw "FrameIdentity: failed to load private key"
  | some pkey =>
    match crypto.getRawPublicKey pkey with
    | some pub =>
      if pub.length = 32 then return pub else throw "FrameIdentity: failed to derive public key"
    | none => throw "FrameIdentity: failed to derive public key"

def sha256 (data : List UInt8) : Except String (Vector UInt8 32) :=
  if crypto.newContext then
    match crypto.digest data with
    | some out => return out
    | none => throw "FrameIdentity: SHA-256 failed"
  else throw "FrameIdentity: failed to create MD context"

/-- Groups of four, with a hyphen between them. -/
def grouped (b32 : List Char) : List Char :=
  (List.range ((b32.length + 3) / 4)).foldl (fun text k =>
    (if k ≠ 0 then text ++ ['-'] else text) ++ (b32.drop (4 * k)).take 4) []

def fingerprint (base64PrivateKey : String) : Except String (List Char) := do
  let pub ← publicKeyFromSeed crypto base64PrivateKey
  let digest ← sha256 crypto pub
  return grouped (base32 (digest.toList.take 10))

theorem grouped_of_length {b32 : List Char} (h : b32.length = 16) :
    grouped b32 = b32.take 4 ++ '-' :: ((b32.drop 4).take 4 ++ '-' :: ((b32.drop 8).take 4 ++
      '-' :: b32.drop 12)) := by
  have hrange : List.range ((b32.length + 3) / 4) = [0, 1, 2, 3] := by rw [h]; decide
  have hrest : (b32.drop 12).take 4 = b32.drop 12 :=
    List.take_of_length_le (by simp [h])
  rw [grouped, hrange]
  simp [hrest]

/-- `XXXX-XXXX-XXXX-XXXX`, of the letters for ten bytes of the digest. -/
theorem fingerprint_ok {base64PrivateKey : String} {text : List Char}
    (h : fingerprint crypto base64PrivateKey = .ok text) :
    ∃ (pub : List UInt8) (digest : Vector UInt8 32) (b32 : List Char),
      crypto.digest pub = some digest ∧ b32 = base32 (digest.toList.take 10) ∧ b32.length = 16 ∧
      text = b32.take 4 ++ '-' :: ((b32.drop 4).take 4 ++ '-' :: ((b32.drop 8).take 4 ++
        '-' :: b32.drop 12)) := by
  rw [fingerprint] at h
  cases hpub : publicKeyFromSeed crypto base64PrivateKey with
  | error e => rw [hpub] at h; cases h
  | ok pub =>
    cases hsha : sha256 crypto pub with
    | error e => rw [hpub] at h; simp only [bind, Except.bind, hsha] at h; cases h
    | ok digest =>
      rw [hpub] at h
      simp only [bind, Except.bind, hsha] at h
      have hlen : (base32 (digest.toList.take 10)).length = 16 := by
        rw [length_base32, List.length_take, Vector.length_toList]
        rfl
      refine ⟨pub, digest, _, ?_, rfl, hlen, ?_⟩
      · unfold sha256 at hsha
        split at hsha
        · split at hsha
          · next out heq => rw [heq, Except.ok.inj hsha]
          · cases hsha
        · cases hsha
      · rw [← grouped_of_length hlen]
        exact (Except.ok.inj h).symm

end ShareFrame.FrameIdentity
