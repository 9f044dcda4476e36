import Mathlib.Order.WithBot
import ShareFrame.Lib.Numeral
import ShareFrame.Update.Version

/-!
# The order of versions

`isVersionNewer` never computes a number: it compares digit strings by length and
then as texts. It is nevertheless the order of the numbers, padded with zeros, with
every other string below all versions (`isVersionNewer_iff`), and so it has the laws
of an order on all strings.
-/

namespace ShareFrame.Update

open Numeral

/-- The numbers of a version. -/
def numbers (version : String) : List Nat := (segments version).map value

/-- What `isVersionNewer` orders: a string that is no version comes before every
version. -/
def key (version : String) : WithBot (Lex (Nat → Nat)) :=
  if isSemver version then (padded (numbers version) : Lex (Nat → Nat)) else ⊥

theorem digits_of_isSemver {version : String} (h : isSemver version = true) :
    ∀ s ∈ segments version, Digits s := by
  intro s hs c hc
  have hseg := List.all_eq_true.mp h s hs
  have hall := (Bool.and_eq_true_iff.mp hseg).2
  exact List.all_eq_true.mp hall c hc

/-- One pass decides by the numbers of its two segments. -/
theorem segmentNewer_iff {a b : List Char} {rest : Bool} (ha : Digits a) (hb : Digits b) :
    segmentNewer a b rest = true ↔ value b < value a ∨ value b = value a ∧ rest = true := by
  have hda : Digits (trimZeros a) := ha.dropWhile _
  have hdb : Digits (trimZeros b) := hb.dropWhile _
  have hta : Trimmed (trimZeros a) := trimmed_dropWhile a
  have htb : Trimmed (trimZeros b) := trimmed_dropWhile b
  have hva : value (trimZeros a) = value a := value_dropWhile a
  have hvb : value (trimZeros b) = value b := value_dropWhile b
  rw [← hva, ← hvb, segmentNewer]
  generalize trimZeros a = va at *
  generalize trimZeros b = vb at *
  obtain hlt | heq | hgt := Nat.lt_trichotomy va.length vb.length
  · -- the longer string is the greater number
    have hvalue := value_lt_of_length_lt hda hdb htb hlt
    rw [if_pos (by omega)]
    simp only [gt_iff_lt, decide_eq_true_eq]
    omega
  · rw [if_neg (by simpa using heq)]
    by_cases hsame : va = vb
    · rw [if_neg (by simpa using hsame), hsame]
      simp
    · -- of one length: the greater text
      have hvalue : value va ≠ value vb := fun h => hsame (value_inj_of_length hda hdb heq h)
      rw [if_pos hsame, decide_eq_true_eq, ← value_lt_iff_of_length hdb hda heq.symm]
      omega
  · have hvalue := value_lt_of_length_lt hdb hda hta hgt
    rw [if_pos (by omega)]
    simp only [gt_iff_lt, decide_eq_true_eq]
    omega

theorem missingNewer_iff {bs : List (List Char)} (hb : ∀ s ∈ bs, Digits s) :
    missingNewer bs = true ↔ padded (bs.map value) < padded [] := by
  induction bs with
  | nil => exact iff_of_false (by simp [missingNewer]) (lt_irrefl _)
  | cons b bs ih =>
    obtain ⟨hb0, hbs⟩ := List.forall_mem_cons.mp hb
    rw [missingNewer, segmentNewer_iff (by rintro c ⟨⟩) hb0, ih hbs]
    exact (padded_lt_iff ((b :: bs).map value) []).symm

/-- The loop decides by the numbers: two streams of any lengths. -/
theorem segmentsNewer_iff {as bs : List (List Char)} (ha : ∀ s ∈ as, Digits s)
    (hb : ∀ s ∈ bs, Digits s) :
    segmentsNewer as bs = true ↔ padded (bs.map value) < padded (as.map value) := by
  induction as generalizing bs with
  | nil => exact missingNewer_iff hb
  | cons a as ih =>
    obtain ⟨ha0, has⟩ := List.forall_mem_cons.mp ha
    have hhead : Digits (bs.headD []) := by
      cases bs with
      | nil => rintro c ⟨⟩
      | cons b bs => exact hb b List.mem_cons_self
    have htail : ∀ s ∈ bs.tail, Digits s := fun s hs => hb s (List.mem_of_mem_tail hs)
    rw [segmentsNewer, segmentNewer_iff ha0 hhead, ih has htail, padded_lt_iff (bs.map value)]
    cases bs <;> rfl

/-- `isVersionNewer` is an order of keys. -/
theorem isVersionNewer_iff (candidate current : String) :
    isVersionNewer candidate current = true ↔ key current < key candidate := by
  unfold isVersionNewer key
  cases hcand : isSemver candidate with
  | false => simp
  | true =>
    cases hcurr : isSemver current with
    | false =>
      have hne : candidate ≠ current := by
        rintro rfl
        rw [hcand] at hcurr
        cases hcurr
      simpa using hne
    | true =>
      have hiff := segmentsNewer_iff (digits_of_isSemver hcand) (digits_of_isSemver hcurr)
      simp only [Bool.not_true, Bool.or_self, Bool.false_eq_true, if_false, if_true]
      exact hiff.trans WithBot.coe_lt_coe.symm

/-- Versions are ordered by their numbers: at the first place where these differ, the
newer one has the greater. Every other string is older than a version, and no string
is newer than itself, than a newer one, or than one not older than a newer one. -/
theorem version_order :
    (∀ a b, isSemver a = true → isSemver b = true →
      (isVersionNewer a b = true ↔
        ∃ i, (∀ j < i, (numbers a).getD j 0 = (numbers b).getD j 0) ∧
          (numbers b).getD i 0 < (numbers a).getD i 0)) ∧
    (∀ a b, isSemver a = false → isVersionNewer a b = false) ∧
    (∀ a b, isSemver a = true → isSemver b = false → isVersionNewer a b = true) ∧
    (∀ a, isVersionNewer a a = false) ∧
    (∀ a b, isVersionNewer a b = true → isVersionNewer b a = false) ∧
    (∀ a b c, isVersionNewer a b = true → isVersionNewer b c = true → isVersionNewer a c = true) ∧
    ∀ a b c, isVersionNewer a b = false → isVersionNewer b a = false → isVersionNewer b c = false →
      isVersionNewer c b = false → isVersionNewer a c = false ∧ isVersionNewer c a = false := by
  have hfalse : ∀ a b, isVersionNewer a b = false ↔ key a ≤ key b := fun a b => by
    rw [← Bool.not_eq_true, isVersionNewer_iff, not_lt]
  refine ⟨fun a b ha hb => ?_, fun a b ha => ?_, fun a b ha hb => ?_, fun a => ?_, fun a b hab => ?_,
    fun a b c hab hbc => ?_, fun a b c hab hba hbc hcb => ?_⟩
  · rw [isVersionNewer_iff, key, key, if_pos ha, if_pos hb, WithBot.coe_lt_coe]
    simp only [eq_comm (a := (numbers a).getD _ 0)]
    exact padded_lt_iff_exists
  · rw [hfalse, key, if_neg (by simp [ha])]
    exact bot_le
  · rw [isVersionNewer_iff, key, key, if_pos ha, if_neg (by simp [hb])]
    exact WithBot.bot_lt_coe _
  · exact (hfalse a a).mpr le_rfl
  · rw [isVersionNewer_iff] at hab
    exact (hfalse b a).mpr hab.le
  · rw [isVersionNewer_iff] at *
    exact hbc.trans hab
  · rw [hfalse] at hab hba hbc hcb
    exact ⟨(hfalse a c).mpr (hab.trans hbc), (hfalse c a).mpr (hcb.trans hba)⟩

theorem version_order_segments :
    (∃ i, (∀ j < i, (numbers "1.10.0").getD j 0 = (numbers "1.9.12").getD j 0) ∧
      (numbers "1.9.12").getD i 0 < (numbers "1.10.0").getD i 0) ∧
    isVersionNewer "1.10.0" "dev" = true :=
  ⟨(version_order.1 "1.10.0" "1.9.12" (by decide) (by decide)).mp (by decide),
    version_order.2.2.1 "1.10.0" "dev" (by decide) (by decide)⟩

end ShareFrame.Update
