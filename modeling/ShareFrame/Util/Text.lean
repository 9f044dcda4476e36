import ShareFrame.Lib.Words

/-!
# Parts of a text

`find` and `substr` of `std::string` as they occur together, and texts that are not UTF-8.
-/

namespace ShareFrame.Text

/-- The text before and behind the first `sep`, `none` where there is none. -/
def cut (sep : Char) (s : String) : Option (String × String) :=
  match s.toList.dropWhile (· ≠ sep) with
  | [] => none
  | _ :: rest => some (String.ofList (s.toList.takeWhile (· ≠ sep)), String.ofList rest)

/-- The parts between the separators. -/
def split (sep : Char) (s : String) : List String := (s.toList.splitOn sep).map String.ofList

/-- The lines that `std::getline` reads. -/
def lines (s : String) : List String := split '\n' s

/-- The bytes of a text, as UTF-8. -/
def bytes (s : String) : List UInt8 := s.toList.flatMap String.utf8EncodeChar

/-- What follows the first occurrence of a text. -/
def behind (pattern : List Char) : List Char → Option (List Char)
  | [] => if pattern = [] then some [] else none
  | c :: rest =>
    if pattern.isPrefixOf (c :: rest) then some ((c :: rest).drop pattern.length)
    else behind pattern rest

/-- The text behind a `start`. -/
def withoutPrefix (start s : String) : Option String :=
  if start.toList.isPrefixOf s.toList then some (String.ofList (s.toList.drop start.length)) else none

/-- The digits at the start of a text and what follows them. -/
def digits : Nat → List Char → Nat × List Char
  | n, [] => (n, [])
  | n, c :: rest => if c.isDigit then digits (10 * n + (c.toNat - '0'.toNat)) rest else (n, c :: rest)

/-- `strtoll`: blanks, a sign and digits at the start, and what follows them. -/
def number (s : List Char) : Option (Int × List Char) :=
  let unsigned (rest : List Char) (sign : Int) : Option (Int × List Char) :=
    match rest with
    | c :: _ => if c.isDigit then let (n, more) := digits 0 rest; some (sign * n, more) else none
    | [] => none
  match s.dropWhile fun c => c = ' ' || ('\t' ≤ c && c ≤ '\r') with
  | '-' :: rest => unsigned rest (-1)
  | '+' :: rest => unsigned rest 1
  | rest => unsigned rest 1

/-- `std::stoll` and `std::stoi`, for so many bits; `none` where they throw. -/
def integer (bits : Nat) (s : String) : Option (Int × List Char) :=
  match number s.toList with
  | some (n, rest) => if -Int.pow 2 (bits - 1) ≤ n ∧ n < Int.pow 2 (bits - 1) then some (n, rest) else none
  | none => none

example : integer 64 " -12x" = some (-12, ['x']) := by decide

/-- What was put together is cut apart. -/
theorem cut_append {sep : Char} {s rest : String} (h : sep ∉ s.toList) :
    cut sep (s ++ String.ofList [sep] ++ rest) = some (s, rest) := by
  have hall : ∀ c ∈ s.toList, decide (c ≠ sep) = true := fun c hc =>
    decide_eq_true fun heq => h (heq ▸ hc)
  have hstop : [sep].dropWhile (fun c => decide (c ≠ sep)) = [sep] := by simp
  have hlist : (s ++ String.ofList [sep] ++ rest).toList = s.toList ++ sep :: rest.toList := by simp
  unfold cut
  rw [hlist, List.dropWhile_append_of_pos hall, List.takeWhile_append_of_pos hall]
  simp

/-! ## Numbers that were written -/

/-- The digits in front of something else are read to their end. -/
theorem digits_append {cs : List Char} (rest : List Char) (hcs : ∀ c ∈ cs, c.isDigit = true)
    (hrest : ∀ c ∈ rest.head?, c.isDigit = false) (n : Nat) :
    digits n (cs ++ rest) = (Nat.ofDigitChars 10 cs n, rest) := by
  induction cs generalizing n with
  | nil =>
    cases rest with
    | nil => rfl
    | cons c rest =>
      have hc : c.isDigit = false := hrest c rfl
      rw [List.nil_append, digits, if_neg (by simp [hc])]
      rfl
  | cons c cs ih =>
    rw [List.cons_append, digits, if_pos (hcs c List.mem_cons_self),
      ih fun c hc => hcs c (List.mem_cons_of_mem _ hc), Nat.ofDigitChars_cons]

theorem not_blank_of_isDigit {c : Char} (h : c.isDigit = true) :
    (c = ' ' || ('\t' ≤ c && c ≤ '\r')) = false ∧ c ≠ '-' ∧ c ≠ '+' := by
  simp only [Char.isDigit, Bool.and_eq_true, decide_eq_true_eq] at h
  have h0 : '0' ≤ c := h.1
  refine ⟨?_, ?_, ?_⟩
  · simp only [Bool.or_eq_false_iff, Bool.and_eq_false_iff, decide_eq_false_iff_not, Char.not_le]
    refine ⟨?_, .inr ?_⟩
    · rintro rfl
      exact absurd h0 (by decide)
    · exact UInt32.lt_of_lt_of_le (b := '0'.val) (by decide) h0
  · rintro rfl
    exact absurd h0 (by decide)
  · rintro rfl
    exact absurd h0 (by decide)

/-- Digits, and something else behind them. -/
theorem number_digits {cs : List Char} (rest : List Char) (hne : cs ≠ [])
    (hcs : ∀ c ∈ cs, c.isDigit = true) (hrest : ∀ c ∈ rest.head?, c.isDigit = false) :
    number (cs ++ rest) = some ((Nat.ofDigitChars 10 cs 0 : Int), rest) := by
  have hvalue := digits_append rest hcs hrest 0
  obtain ⟨c, cs, rfl⟩ := List.exists_cons_of_ne_nil hne
  have hc := hcs c List.mem_cons_self
  obtain ⟨hblank, hminus, hplus⟩ := not_blank_of_isDigit hc
  have hdrop : (c :: cs ++ rest).dropWhile (fun c => c = ' ' || ('\t' ≤ c && c ≤ '\r')) =
      c :: (cs ++ rest) := by
    rw [List.cons_append, List.dropWhile_cons, hblank]
    rfl
  unfold number
  simp only [hdrop]
  split
  next heq => exact absurd (List.cons.inj heq).1 hminus
  next heq => exact absurd (List.cons.inj heq).1 hplus
  next =>
    simp only [hc, if_true, ← List.cons_append, hvalue, Int.one_mul]

theorem number_minus_digits {cs : List Char} (rest : List Char) (hne : cs ≠ [])
    (hcs : ∀ c ∈ cs, c.isDigit = true) (hrest : ∀ c ∈ rest.head?, c.isDigit = false) :
    number ('-' :: (cs ++ rest)) = some (-(Nat.ofDigitChars 10 cs 0 : Int), rest) := by
  have hvalue := digits_append rest hcs hrest 0
  obtain ⟨c, cs, rfl⟩ := List.exists_cons_of_ne_nil hne
  have hc := hcs c List.mem_cons_self
  unfold number
  rw [List.dropWhile_cons_of_neg (by decide)]
  simp only [List.cons_append, hc, if_true]
  rw [← List.cons_append, hvalue, Int.neg_one_mul]

theorem toList_toString (n : Int) :
    (toString n).toList = (if n < 0 then ['-'] else []) ++ Nat.toDigits 10 n.natAbs := by
  cases n with
  | ofNat k =>
    rw [show toString (Int.ofNat k) = Nat.repr k from rfl, Nat.toList_repr, if_neg (by simp)]
    rfl
  | negSucc k =>
    rw [show toString (Int.negSucc k) = "-" ++ Nat.repr (k + 1) from rfl, String.toList_append,
      Nat.toList_repr, if_pos (Int.negSucc_lt_zero k)]
    rfl

/-- A number that was written in front of something else. -/
theorem number_append (n : Int) (rest : List Char)
    (hrest : ∀ c ∈ rest.head?, c.isDigit = false) :
    number ((toString n).toList ++ rest) = some (n, rest) := by
  have hdigits : ∀ c ∈ Nat.toDigits 10 n.natAbs, c.isDigit = true :=
    fun c hc => Nat.isDigit_of_mem_toDigits (by decide) (by decide) hc
  rw [toList_toString]
  by_cases hn : n < 0
  · rw [if_pos hn, List.singleton_append, List.cons_append,
      number_minus_digits rest Nat.toDigits_ne_nil hdigits hrest, Nat.ofDigitChars_ten_toDigits,
      Int.ofNat_natAbs_of_nonpos (Int.le_of_lt hn), Int.neg_neg]
  · rw [if_neg hn, List.nil_append, number_digits rest Nat.toDigits_ne_nil hdigits hrest,
      Nat.ofDigitChars_ten_toDigits, Int.natAbs_of_nonneg (Int.not_lt.mp hn)]

theorem number_toString (n : Int) : number (toString n).toList = some (n, []) := by
  rw [← number_append n [] (by simp), List.append_nil]

/-- A number is written with a sign and digits. -/
theorem mem_toString {n : Int} {c : Char} (h : c ∈ (toString n).toList) :
    c = '-' ∨ c.isDigit = true := by
  rw [toList_toString] at h
  obtain h | h := List.mem_append.mp h
  · split at h
    · exact .inl (List.mem_singleton.mp h)
    · cases h
  · exact .inr (Nat.isDigit_of_mem_toDigits (by decide) (by decide) h)

theorem comma_notMem (n : Int) : ',' ∉ (toString n).toList :=
  fun h => absurd (mem_toString h) (by decide)

/-- What `std::to_string` writes, `std::stoi` and `std::stoll` read. -/
theorem integer_toString (bits : Nat) {n : Int} (h : -Int.pow 2 (bits - 1) ≤ n)
    (h' : n < Int.pow 2 (bits - 1)) : integer bits (toString n) = some (n, []) := by
  unfold integer
  rw [number_toString]
  simp only
  rw [if_pos ⟨h, h'⟩]

/-! ## Words -/

/-- `std::isspace` -/
def isBlank (c : Char) : Bool := c = ' ' || ('\t' ≤ c && c ≤ '\r')

/-- `operator>>` into a string: the next word, and what follows it. -/
def word (s : List Char) : List Char × List Char :=
  let rest := s.dropWhile isBlank
  (rest.takeWhile fun c => !isBlank c, rest.dropWhile fun c => !isBlank c)

/-- A word behind a blank is read to the next blank. -/
theorem word_append {w rest : List Char} (hw : ∀ c ∈ w, isBlank c = false) (hne : w ≠ [])
    (hrest : ∀ c ∈ rest.head?, isBlank c = true) : word (' ' :: (w ++ rest)) = (w, rest) := by
  have hdrop : (' ' :: (w ++ rest)).dropWhile isBlank = w ++ rest := by
    obtain ⟨c, cs, rfl⟩ := List.exists_cons_of_ne_nil hne
    rw [List.dropWhile_cons_of_pos rfl, List.cons_append,
      List.dropWhile_cons_of_neg (by simp [hw c List.mem_cons_self])]
  have htake : rest.takeWhile (fun c => !isBlank c) = [] := by
    cases rest with
    | nil => rfl
    | cons c cs => rw [List.takeWhile_cons_of_neg (by simp [hrest c rfl])]
  have hskip : rest.dropWhile (fun c => !isBlank c) = rest := by
    cases rest with
    | nil => rfl
    | cons c cs => rw [List.dropWhile_cons_of_neg (by simp [hrest c rfl])]
  have hword : ∀ c ∈ w, (!isBlank c) = true := fun c hc => by simp [hw c hc]
  rw [word, hdrop]
  show (List.takeWhile _ (w ++ rest), List.dropWhile _ (w ++ rest)) = _
  rw [List.takeWhile_append_of_pos hword, List.dropWhile_append_of_pos hword, htake, hskip,
    List.append_nil]

/-! ## Searching -/

/-- The pattern stands in front of `rest`, and nowhere before. -/
def First (pattern s rest : List Char) : Prop :=
  ∃ before, s = before ++ (pattern ++ rest) ∧
    ∀ before' rest', s = before' ++ (pattern ++ rest') → before.length ≤ before'.length

variable {pattern s rest : List Char}

theorem first_of_front (h : pattern <+: s) :
    First pattern s rest ↔ rest = s.drop pattern.length := by
  obtain ⟨tail, rfl⟩ := h
  rw [List.drop_left]
  constructor
  · rintro ⟨before, heq, hmin⟩
    have hnil : before = [] :=
      List.length_eq_zero_iff.mp (Nat.le_zero.mp (hmin [] tail rfl))
    rw [hnil] at heq
    exact (List.append_cancel_left heq).symm
  · rintro rfl
    exact ⟨[], rfl, fun _ _ _ => Nat.zero_le _⟩

theorem first_cons {c : Char} (h : ¬ pattern <+: c :: s) :
    First pattern (c :: s) rest ↔ First pattern s rest := by
  constructor
  · rintro ⟨before, heq, hmin⟩
    cases before with
    | nil => exact absurd ⟨rest, heq.symm⟩ h
    | cons d before =>
      have hrest := (List.cons.inj heq).2
      exact ⟨before, hrest, fun before' rest' heq' =>
        Nat.le_of_succ_le_succ (hmin (c :: before') rest' (congrArg (c :: ·) heq'))⟩
  · rintro ⟨before, rfl, hmin⟩
    refine ⟨c :: before, rfl, fun before' rest' heq => ?_⟩
    cases before' with
    | nil => exact absurd ⟨rest', heq.symm⟩ h
    | cons d before' => exact Nat.succ_le_succ (hmin before' rest' (List.cons.inj heq).2)

theorem behind_cons (c : Char) (s : List Char) :
    behind pattern (c :: s) =
      if pattern <+: c :: s then some ((c :: s).drop pattern.length) else behind pattern s := by
  rw [behind]
  simp only [List.isPrefixOf_iff_prefix]

/-- It finds the first place. -/
theorem behind_eq_some_iff : behind pattern s = some rest ↔ First pattern s rest := by
  induction s with
  | nil =>
    rw [behind]
    by_cases hnil : pattern = []
    · rw [if_pos hnil, first_of_front (hnil ▸ List.nil_prefix), Option.some.injEq, List.drop_nil,
        eq_comm]
    · rw [if_neg hnil]
      refine iff_of_false (by rintro ⟨⟩) ?_
      rintro ⟨before, heq, -⟩
      simp [hnil] at heq
  | cons c s ih =>
    rw [behind_cons]
    split
    next hfront => rw [first_of_front hfront, Option.some.injEq, eq_comm]
    next hfront => rw [first_cons hfront, ih]

theorem behind_eq_none_iff : behind pattern s = none ↔ ¬ pattern <:+: s := by
  induction s with
  | nil =>
    rw [behind, List.infix_nil]
    split <;> simp [*]
  | cons c s ih =>
    rw [behind_cons, List.infix_cons_iff, not_or, ← ih]
    split <;> simp [*]

/-- A character that the pattern does not have parts the text. -/
theorem behind_append_cons {sep : Char} (hsep : sep ∉ pattern) (hne : pattern ≠ [])
    (xs ys : List Char) :
    behind pattern (xs ++ sep :: ys) =
      ((behind pattern xs).map (· ++ sep :: ys)).or (behind pattern ys) := by
  have hfront (zs : List Char) : pattern <+: zs ++ sep :: ys ↔ pattern <+: zs := by
    constructor
    · intro h
      obtain hzs | ⟨more, rfl⟩ := List.prefix_or_prefix_of_prefix h (List.prefix_append zs _)
      · exact hzs
      · cases more with
        | nil => simp
        | cons d more =>
          obtain ⟨rfl, -⟩ := List.cons_prefix_cons.mp ((List.prefix_append_right_inj zs).mp h)
          exact absurd (List.mem_append_right zs List.mem_cons_self) hsep
    · intro h
      exact h.trans (List.prefix_append _ _)
  induction xs with
  | nil =>
    have hnot : ¬ pattern <+: sep :: ys := fun h => hne (List.prefix_nil.mp ((hfront []).mp h))
    rw [List.nil_append, behind_cons, if_neg hnot, behind, if_neg hne]
    rfl
  | cons c xs ih =>
    have hlen (h : pattern <+: c :: xs) :
        (c :: xs ++ sep :: ys).drop pattern.length = (c :: xs).drop pattern.length ++ sep :: ys :=
      List.drop_append_of_le_length h.length_le
    rw [List.cons_append, behind_cons, behind_cons, ← List.cons_append]
    by_cases h : pattern <+: c :: xs
    · rw [if_pos ((hfront _).mpr h), if_pos h, hlen h]
      rfl
    · rw [if_neg (mt (hfront _).mp h), if_neg h, ih]

/-! ## Bytes -/

theorem bytes_append (s t : String) : bytes (s ++ t) = bytes s ++ bytes t := by
  rw [bytes, String.toList_append, List.flatMap_append]
  rfl

theorem bytes_injective : Function.Injective bytes := by
  intro s t h
  have hencode : s.toList.utf8Encode = t.toList.utf8Encode := congrArg List.toByteArray h
  rwa [String.utf8Encode_toList, String.utf8Encode_toList, String.toByteArray_inj] at hencode

/-- An ASCII character is its byte, and the bytes of every other one are outside of ASCII. -/
theorem mem_utf8EncodeChar {c : Char} {b : UInt8} (h : b ∈ String.utf8EncodeChar c) :
    b.toNat = c.toNat ∧ c.toNat < 128 ∨ 128 ≤ b.toNat ∧ 128 ≤ c.toNat := by
  have hbyte {n : Nat} (hn : n < 256) : (UInt8.ofNat n).toNat = n := UInt8.toNat_ofNat_of_lt' hn
  have hv : c.val.toNat = c.toNat := rfl
  unfold String.utf8EncodeChar at h
  simp only [hv] at h
  split at h
  next h1 =>
    obtain rfl := List.mem_singleton.mp h
    exact .inl ⟨hbyte (by omega), by omega⟩
  next h1 =>
    -- a first byte from 0xC0 on, and others from 0x80 on
    refine .inr ⟨?_, by omega⟩
    split at h
    next =>
      simp only [List.mem_cons, List.not_mem_nil, or_false] at h
      rcases h with rfl | rfl <;> rw [hbyte (by omega)] <;> omega
    next =>
      split at h
      all_goals
        simp only [List.mem_cons, List.not_mem_nil, or_false] at h
      · rcases h with rfl | rfl | rfl <;> rw [hbyte (by omega)] <;> omega
      · rcases h with rfl | rfl | rfl | rfl <;> rw [hbyte (by omega)] <;> omega

/-! ## Bytes that are not UTF-8 -/

/-- What programs write may be any bytes. Those that are not UTF-8 stand as this noncharacter. -/
def stray : Char := Char.ofNat 0xFFFF

def isUtf8 (s : String) : Bool := decide (stray ∉ s.toList)

theorem isUtf8_iff {s : String} : isUtf8 s = true ↔ stray ∉ s.toList := decide_eq_true_iff

section

variable {s t : String} {sep : Char}

theorem isUtf8_append (hs : isUtf8 s = true) (ht : isUtf8 t = true) : isUtf8 (s ++ t) = true := by
  rw [isUtf8_iff] at hs ht ⊢
  rw [String.toList_append, List.mem_append, not_or]
  exact ⟨hs, ht⟩

/-- Of a part of the characters. -/
theorem isUtf8_ofList {cs : List Char} (h : cs ⊆ s.toList) (hs : isUtf8 s = true) :
    isUtf8 (String.ofList cs) = true := by
  rw [isUtf8_iff] at hs ⊢
  rw [String.toList_ofList]
  exact fun hc => hs (h hc)

theorem isUtf8_of_mem_split (h : t ∈ split sep s) (hs : isUtf8 s = true) : isUtf8 t = true := by
  obtain ⟨part, hpart, rfl⟩ := List.mem_map.mp h
  exact isUtf8_ofList (fun c hc => (Words.mem_of_mem_splitOn hpart hc).1) hs

theorem isUtf8_of_withoutPrefix {start : String} (h : withoutPrefix start s = some t)
    (hs : isUtf8 s = true) : isUtf8 t = true := by
  obtain ⟨-, h⟩ := Option.ite_none_right_eq_some.mp h
  obtain rfl := Option.some.inj h
  exact isUtf8_ofList (List.drop_subset _ _) hs

theorem isUtf8_of_cut {rest : String} (h : cut sep s = some (t, rest)) (hs : isUtf8 s = true) :
    isUtf8 t = true ∧ isUtf8 rest = true := by
  unfold cut at h
  split at h
  · cases h
  next c tail hdrop =>
    obtain ⟨rfl, rfl⟩ := Prod.mk.inj (Option.some.inj h)
    have htail : tail ⊆ s.toList := fun d hd =>
      (List.dropWhile_suffix _).subset (hdrop ▸ List.mem_cons_of_mem c hd)
    exact ⟨isUtf8_ofList (List.takeWhile_prefix _).subset hs, isUtf8_ofList htail hs⟩

theorem isUtf8_toString (n : Int) : isUtf8 (toString n) = true :=
  isUtf8_iff.mpr fun h => absurd (mem_toString h) (by decide)

end

end ShareFrame.Text
