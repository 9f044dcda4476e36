import Mathlib.Algebra.Order.Ring.Nat
import Mathlib.Data.Char
import Mathlib.Data.List.Lex
import Mathlib.Order.PiLex
import Mathlib.Tactic.Ring

/-!
# Decimal numerals

A list of decimal digits and its value. Of numerals without leading zeros the
longer one is greater (`value_lt_of_length_lt`), and of two of the same length the
one that is greater as a text (`value_lt_iff_of_length`), so they compare without
arithmetic and of any size. Sequences of numbers are ordered with zeros behind them
(`padded`).
-/

namespace Numeral

/-- Decimal digits. -/
def Digits (cs : List Char) : Prop := ∀ c ∈ cs, c.isDigit = true

/-- No leading zero. -/
def Trimmed (cs : List Char) : Prop := ∀ c ∈ cs.head?, c ≠ '0'

/-- The number that is written. -/
def value (cs : List Char) : Nat := Nat.ofDigitChars 10 cs 0

/-- The value of one digit. -/
abbrev digit (c : Char) : Nat := c.toNat - '0'.toNat

variable {c d : Char} {cs ds : List Char}

theorem Digits.of_cons (h : Digits (c :: cs)) : c.isDigit = true ∧ Digits cs :=
  List.forall_mem_cons.mp h

theorem toNat_of_isDigit (h : c.isDigit = true) : 48 ≤ c.toNat ∧ c.toNat ≤ 57 := by
  simp only [Char.isDigit, Bool.and_eq_true, decide_eq_true_eq] at h
  exact h

theorem digit_lt (h : c.isDigit = true) : digit c < 10 := by
  have hc := toNat_of_isDigit h
  show c.toNat - 48 < 10
  omega

theorem digit_pos (h : c.isDigit = true) (hc : c ≠ '0') : 0 < digit c := by
  have hbounds := toNat_of_isDigit h
  have hne : c.toNat ≠ 48 := fun heq => hc (Char.toNat_inj.mp heq)
  show 0 < c.toNat - 48
  omega

/-- Digits compare as characters. -/
theorem digit_lt_iff (hc : c.isDigit = true) (hd : d.isDigit = true) :
    digit c < digit d ↔ c < d := by
  have hcb := toNat_of_isDigit hc
  have hdb := toNat_of_isDigit hd
  show c.toNat - 48 < d.toNat - 48 ↔ c.toNat < d.toNat
  omega

theorem value_cons : value (c :: cs) = 10 ^ cs.length * digit c + value cs := by
  rw [value, Nat.ofDigitChars_cons, Nat.ofDigitChars_eq_ofDigitChars_zero, Nat.mul_zero, Nat.zero_add]
  rfl

theorem value_lt (h : Digits cs) : value cs < 10 ^ cs.length := by
  induction cs with
  | nil => exact Nat.one_pos
  | cons c cs ih =>
    obtain ⟨hc, hcs⟩ := h.of_cons
    have hrest := ih hcs
    have hdigit : digit c + 1 ≤ 10 := digit_lt hc
    calc value (c :: cs) < 10 ^ cs.length * digit c + 10 ^ cs.length := by
          rw [value_cons]
          omega
      _ = 10 ^ cs.length * (digit c + 1) := by ring
      _ ≤ 10 ^ cs.length * 10 := Nat.mul_le_mul_left _ hdigit
      _ = 10 ^ (c :: cs).length := by rw [List.length_cons, pow_succ]

theorem value_append : value (cs ++ ds) = 10 ^ ds.length * value cs + value ds := by
  rw [value, Nat.ofDigitChars_append, Nat.ofDigitChars_eq_ofDigitChars_zero]
  rfl

/-- The first digits of a number. -/
theorem value_take (h : Digits cs) (k : Nat) :
    value (cs.take k) = value cs / 10 ^ (cs.length - k) := by
  have hlt : value (cs.drop k) < 10 ^ (cs.length - k) := by
    rw [← List.length_drop]
    exact value_lt fun c hc => h c (List.mem_of_mem_drop hc)
  have hvalue : value cs = 10 ^ (cs.length - k) * value (cs.take k) + value (cs.drop k) := by
    rw [← List.length_drop, ← value_append, List.take_append_drop]
  rw [hvalue, Nat.mul_add_div (by omega), Nat.div_eq_of_lt hlt, Nat.add_zero]

/-! ## Numerals of numbers -/

theorem digits_toDigits (n : Nat) : Digits (Nat.toDigits 10 n) :=
  fun _ hc => Nat.isDigit_of_mem_toDigits (by decide) (by decide) hc

theorem value_toDigits (n : Nat) : value (Nat.toDigits 10 n) = n := Nat.ofDigitChars_ten_toDigits

/-! ## Leading zeros -/

theorem le_value (hc : c.isDigit = true) (hne : c ≠ '0') : 10 ^ cs.length ≤ value (c :: cs) := by
  rw [value_cons]
  have hpos := digit_pos hc hne
  calc 10 ^ cs.length = 10 ^ cs.length * 1 := (Nat.mul_one _).symm
    _ ≤ 10 ^ cs.length * digit c := Nat.mul_le_mul_left _ hpos
    _ ≤ 10 ^ cs.length * digit c + value cs := Nat.le_add_right _ _

/-- Leading zeros do not count. -/
theorem value_dropWhile (cs : List Char) : value (cs.dropWhile (· = '0')) = value cs := by
  induction cs with
  | nil => rfl
  | cons c cs ih =>
    by_cases hc : c = '0'
    · rw [List.dropWhile_cons_of_pos (by simpa using hc), ih, value_cons, hc]
      simp [digit]
    · rw [List.dropWhile_cons_of_neg (by simpa using hc)]

theorem trimmed_dropWhile (cs : List Char) : Trimmed (cs.dropWhile (· = '0')) := by
  intro c hc
  have hhead := List.head?_dropWhile_not (· = '0') cs
  rw [Option.mem_def.mp hc] at hhead
  simpa using hhead

theorem Digits.dropWhile (h : Digits cs) (p : Char → Bool) : Digits (cs.dropWhile p) :=
  fun c hc => h c ((List.dropWhile_suffix p).subset hc)

/-- Numerals of one length compare as texts. -/
theorem value_lt_iff_of_length (hc : Digits cs) (hd : Digits ds) (hlen : cs.length = ds.length) :
    value cs < value ds ↔ cs < ds := by
  induction cs generalizing ds with
  | nil =>
    obtain rfl := List.length_eq_zero_iff.mp hlen.symm
    simp
  | cons c cs ih =>
    cases ds with
    | nil => cases hlen
    | cons d ds =>
      have hlen : cs.length = ds.length := Nat.succ.inj hlen
      obtain ⟨hc0, hcs⟩ := hc.of_cons
      obtain ⟨hd0, hds⟩ := hd.of_cons
      have hltc := value_lt hcs
      have hltd := value_lt hds
      rw [hlen] at hltc
      rw [List.cons_lt_cons_iff, ← ih hcs hds hlen, ← digit_lt_iff hc0 hd0, value_cons, value_cons, hlen]
      obtain hlt | heq | hgt := Nat.lt_trichotomy (digit c) (digit d)
      · have hstep := Nat.mul_le_mul_left (10 ^ ds.length) (Nat.succ_le_of_lt hlt)
        rw [Nat.mul_succ] at hstep
        exact iff_of_true (by omega) (.inl hlt)
      · have hcd : c = d := by
          have hcb := toNat_of_isDigit hc0
          have hdb := toNat_of_isDigit hd0
          have hsub : c.toNat - 48 = d.toNat - 48 := heq
          exact Char.toNat_inj.mp (by omega)
        subst hcd
        simp
      · have hstep := Nat.mul_le_mul_left (10 ^ ds.length) (Nat.succ_le_of_lt hgt)
        rw [Nat.mul_succ] at hstep
        refine iff_of_false (by omega) ?_
        rintro (hlt | ⟨rfl, -⟩)
        · omega
        · omega

theorem value_lt_of_length_lt (hc : Digits cs) (hd : Digits ds) (ht : Trimmed ds)
    (hlen : cs.length < ds.length) : value cs < value ds := by
  cases ds with
  | nil => cases hlen
  | cons d ds =>
    have hle : cs.length ≤ ds.length := Nat.le_of_lt_succ hlen
    calc value cs < 10 ^ cs.length := value_lt hc
      _ ≤ 10 ^ ds.length := Nat.pow_le_pow_right (by decide) hle
      _ ≤ value (d :: ds) := le_value hd.of_cons.1 (ht d rfl)

/-- Of one length, only the same digits write the same number. -/
theorem value_inj_of_length (hc : Digits cs) (hd : Digits ds) (hlen : cs.length = ds.length)
    (hvalue : value cs = value ds) : cs = ds := by
  refine le_antisymm ?_ ?_
  · exact not_lt.mp fun hlt => absurd ((value_lt_iff_of_length hd hc hlen.symm).mpr hlt) (by omega)
  · exact not_lt.mp fun hlt => absurd ((value_lt_iff_of_length hc hd hlen).mpr hlt) (by omega)

/-- The numbers with zeros behind them, ordered from the first on. -/
def padded (ns : List Nat) : Lex (Nat → Nat) := toLex fun i => ns.getD i 0

theorem padded_lt_iff_exists {ms ns : List Nat} :
    padded ms < padded ns ↔ ∃ i, (∀ j < i, ms.getD j 0 = ns.getD j 0) ∧ ms.getD i 0 < ns.getD i 0 :=
  Iff.rfl

/-- The first numbers decide, or the others. -/
theorem padded_lt_iff (ms ns : List Nat) :
    padded ms < padded ns ↔
      ms.headD 0 < ns.headD 0 ∨ ms.headD 0 = ns.headD 0 ∧ padded ms.tail < padded ns.tail := by
  have hhead : ∀ ks : List Nat, ks.getD 0 0 = ks.headD 0 := by
    rintro (_ | ⟨k, ks⟩) <;> rfl
  have htail : ∀ (ks : List Nat) i, ks.getD (i + 1) 0 = ks.tail.getD i 0 := by
    rintro (_ | ⟨k, ks⟩) i <;> rfl
  simp only [padded_lt_iff_exists]
  constructor
  · rintro ⟨_ | i, hbelow, hlt⟩
    · rw [hhead, hhead] at hlt
      exact .inl hlt
    · refine .inr ⟨?_, i, fun j hj => ?_, ?_⟩
      · rw [← hhead, ← hhead]
        exact hbelow 0 (by omega)
      · rw [← htail, ← htail]
        exact hbelow (j + 1) (by omega)
      · rwa [← htail, ← htail]
  · rintro (hlt | ⟨heq, i, hbelow, hlt⟩)
    · exact ⟨0, fun _ hj => absurd hj (by omega), by rwa [hhead, hhead]⟩
    · refine ⟨i + 1, fun j hj => ?_, by rwa [htail, htail]⟩
      cases j with
      | zero => rwa [hhead, hhead]
      | succ j =>
        rw [htail, htail]
        exact hbelow j (by omega)

end Numeral
