import ShareFrame.Lib.Delimited
import ShareFrame.Lib.Numeral

/-!
# JSON.stringify

The text of an object whose members are texts, whole numbers and truth values, as
`JSON.stringify` writes it: members that are `undefined` are left out, the others stand in
their order. Two objects with one text have the same members (`stringify_inj`).
-/

namespace ShareFrame.JSON

open Delimited

inductive Value where
  | str (s : String)
  | num (n : Int)
  | bool (b : Bool)
  deriving DecidableEq, Repr

abbrev Member := String × Value

/-! ## The text -/

def quoteChar (c : Char) : List Char :=
  if c = '\x08' then ['\\', 'b']
  else if c = '\t' then ['\\', 't']
  else if c = '\n' then ['\\', 'n']
  else if c = '\x0C' then ['\\', 'f']
  else if c = '\r' then ['\\', 'r']
  else if c = '"' then ['\\', '"']
  else if c = '\\' then ['\\', '\\']
  else if c.toNat < 0x20 then
    ['\\', 'u', '0', '0', Nat.digitChar (c.toNat / 16), Nat.digitChar (c.toNat % 16)]
  else [c]

def quote (s : List Char) : List Char := '"' :: (s.flatMap quoteChar ++ ['"'])

def decimal (n : Int) : List Char :=
  if n < 0 then '-' :: Nat.toDigits 10 n.natAbs else Nat.toDigits 10 n.natAbs

def Value.text : Value → List Char
  | str s => quote s.toList
  | num n => decimal n
  | bool true => ['t', 'r', 'u', 'e']
  | bool false => ['f', 'a', 'l', 's', 'e']

def member (m : Member) : List Char := quote m.1.toList ++ ':' :: m.2.text

/-- Of the members that are not `undefined`. -/
def stringify (members : List Member) : List Char := '{' :: listed member ',' '}' members

example : String.ofList (stringify [("service_name", .str "system"), ("lines", .num 100)]) =
    "\x7b\"service_name\":\"system\",\"lines\":100\x7d" := by decide

/-! ## Characters -/

def hexValue (c : Char) : Nat := if c.toNat < 58 then c.toNat - 48 else c.toNat - 87

/-- The character behind a backslash. -/
def unescape : List Char → Option (Char × List Char)
  | 'b' :: s => some ('\x08', s)
  | 't' :: s => some ('\t', s)
  | 'n' :: s => some ('\n', s)
  | 'f' :: s => some ('\x0C', s)
  | 'r' :: s => some ('\r', s)
  | 'u' :: _ :: _ :: a :: b :: s => some (Char.ofNat (16 * hexValue a + hexValue b), s)
  | c :: s => some (c, s)
  | [] => none

def unquoteChar : List Char → Option (Char × List Char)
  | [] => none
  | c :: s => if c = '\\' then unescape s else some (c, s)

theorem unquoteChar_quoteChar (c : Char) (s : List Char) :
    unquoteChar (quoteChar c ++ s) = some (c, s) := by
  have hhex : ∀ n < 32, Char.ofNat (16 * hexValue (Nat.digitChar (n / 16)) +
      hexValue (Nat.digitChar (n % 16))) = Char.ofNat n := by
    decide
  unfold quoteChar
  split
  · next h => subst h; rfl
  split
  · next h => subst h; rfl
  split
  · next h => subst h; rfl
  split
  · next h => subst h; rfl
  split
  · next h => subst h; rfl
  split
  · next h => subst h; rfl
  split
  · next h => subst h; rfl
  split
  · next h =>
    have hc : Char.ofNat (16 * hexValue (Nat.digitChar (c.toNat / 16)) +
        hexValue (Nat.digitChar (c.toNat % 16))) = c := by
      rw [hhex c.toNat h, Char.ofNat_toNat]
    show some (Char.ofNat _, s) = some (c, s)
    rw [hc]
  · next hback _ => simp only [List.singleton_append, unquoteChar, if_neg hback]

theorem instant_quoteChar : Instant quoteChar := by
  intro a b s t heq
  have h := congrArg unquoteChar heq
  rw [unquoteChar_quoteChar, unquoteChar_quoteChar, Option.some.injEq, Prod.mk.injEq] at h
  exact h

theorem quoteChar_ne_quote (c : Char) (s t : List Char) : quoteChar c ++ s ≠ '"' :: t := by
  intro h
  have hc := unquoteChar_quoteChar c s
  rw [h] at hc
  obtain ⟨rfl, -⟩ := Prod.mk.inj (Option.some.inj hc)
  exact absurd (List.cons.inj h).1 (by decide)

theorem instant_quote : Instant quote := by
  intro a b s t heq
  exact instant_quoteChar.quoted quoteChar_ne_quote a b s t (List.cons.inj heq).2

/-! ## Values and members -/

/-- What stands behind a member. -/
def Stop (c : Char) : Prop := c = ',' ∨ c = '}'

theorem mem_decimal {n : Int} {c : Char} (h : c ∈ decimal n) : c = '-' ∨ c.isDigit = true := by
  unfold decimal at h
  split at h
  · obtain rfl | h := List.mem_cons.mp h
    · exact .inl rfl
    · exact .inr (Numeral.digits_toDigits _ c h)
  · exact .inr (Numeral.digits_toDigits _ c h)

theorem decimal_inj {m n : Int} (h : decimal m = decimal n) : m = n := by
  have habs : ∀ k l : Int, Nat.toDigits 10 k.natAbs = Nat.toDigits 10 l.natAbs →
      k.natAbs = l.natAbs := by
    intro k l hkl
    rw [← Numeral.value_toDigits k.natAbs, hkl, Numeral.value_toDigits]
  have hsign : ∀ k l : Int, '-' :: Nat.toDigits 10 k.natAbs ≠ Nat.toDigits 10 l.natAbs := by
    intro k l hkl
    have hdigit := Numeral.digits_toDigits l.natAbs '-' (by rw [← hkl]; exact List.mem_cons_self)
    exact absurd hdigit (by decide)
  unfold decimal at h
  split at h <;> split at h
  · have := habs m n (List.cons.inj h).2
    omega
  · exact absurd h (hsign m n)
  · exact absurd h.symm (hsign n m)
  · have := habs m n h
    omega

/-- A value that is not a text. -/
def Value.Plain (v : Value) : Prop := ∀ s, v ≠ .str s

theorem Value.Plain.mem_text {v : Value} (hv : v.Plain) {c : Char} (h : c ∈ v.text) :
    ¬Stop c ∧ c ≠ '"' := by
  have hc : c = '-' ∨ c.isAlphanum = true := by
    cases v with
    | str s => exact absurd rfl (hv s)
    | num n =>
      refine (mem_decimal h).imp_right fun hdigit => ?_
      rw [Char.isAlphanum, hdigit, Bool.or_true]
    | bool b =>
      have hall : ∀ b, (Value.bool b).text.all Char.isAlphanum = true := by decide
      exact .inr (List.all_eq_true.mp (hall b) c h)
  have hne {d : Char} (hd : d ≠ '-' ∧ d.isAlphanum = false) : c ≠ d := by
    rintro rfl
    obtain hminus | halnum := hc
    · exact hd.1 hminus
    · rw [hd.2] at halnum
      cases halnum
  exact ⟨not_or.mpr ⟨hne (by decide), hne (by decide)⟩, hne (by decide)⟩

theorem Value.Plain.text_inj {v w : Value} (hv : v.Plain) (hw : w.Plain) (h : v.text = w.text) :
    v = w := by
  have hsign : ∀ n b, (Value.num n).text ≠ (Value.bool b).text := by
    intro n b heq
    have hmem : ∀ c ∈ (Value.bool b).text, c = '-' ∨ c.isDigit = true := by
      rw [← heq]
      exact fun c hc => mem_decimal hc
    cases b with
    | true => exact absurd (hmem 't' List.mem_cons_self) (by decide)
    | false => exact absurd (hmem 'f' List.mem_cons_self) (by decide)
  cases v with
  | str s => exact absurd rfl (hv s)
  | num m =>
    cases w with
    | str s => exact absurd rfl (hw s)
    | num n => rw [decimal_inj h]
    | bool b => exact absurd h (hsign m b)
  | bool b =>
    cases w with
    | str s => exact absurd rfl (hw s)
    | num n => exact absurd h.symm (hsign n b)
    | bool c =>
      have hbool : ∀ b c, (Value.bool b).text = (Value.bool c).text → b = c := by decide
      rw [hbool b c h]

theorem stopped_plain : Stopped Stop fun v : { v : Value // v.Plain } => v.1.text :=
  Stopped.of_notMem (fun v w h => Subtype.ext (v.2.text_inj w.2 h))
    fun v _ hc => (v.2.mem_text hc).1

theorem stopped_text : Stopped Stop Value.text := by
  -- a text starts with a quotation mark and no other value does
  have hstart : ∀ (v w : Value) (x : String) (c d : Char) (s t : List Char), v = .str x →
      w.Plain → Stop d → v.text ++ c :: s ≠ w.text ++ d :: t := by
    rintro v w x c d s t rfl hw hd heq
    cases hwt : w.text with
    | nil =>
      rw [hwt] at heq
      obtain rfl : '"' = d := (List.cons.inj heq).1
      exact absurd hd (by unfold Stop; decide)
    | cons e u =>
      rw [hwt] at heq
      obtain rfl : '"' = e := (List.cons.inj heq).1
      exact (hw.mem_text (hwt ▸ List.mem_cons_self)).2 rfl
  have hplain : ∀ v : Value, (∃ x, v = .str x) ∨ v.Plain := by
    intro v
    cases v with
    | str x => exact .inl ⟨x, rfl⟩
    | num n => exact .inr (by rintro s ⟨⟩)
    | bool b => exact .inr (by rintro s ⟨⟩)
  intro v w c d s t hc hd heq
  obtain ⟨x, hv⟩ | hv := hplain v
  · obtain ⟨y, hw⟩ | hw := hplain w
    · subst hv hw
      obtain ⟨hxy, hrest⟩ := instant_quote _ _ _ _ heq
      rw [String.toList_inj.mp hxy]
      exact ⟨rfl, hrest⟩
    · exact absurd heq (hstart v w x c d s t hv hw hd)
  · obtain ⟨y, hw⟩ | hw := hplain w
    · exact absurd heq.symm (hstart w v y d c t s hw hv hc)
    · obtain ⟨hvw, hrest⟩ := stopped_plain ⟨v, hv⟩ ⟨w, hw⟩ c d s t hc hd heq
      exact ⟨congrArg Subtype.val hvw, hrest⟩

theorem stopped_member : Stopped Stop member := by
  have hcolon : Stopped Stop fun v : Value => ':' :: v.text := by
    intro v w c d s t hc hd heq
    exact stopped_text v w c d s t hc hd (List.cons.inj heq).2
  have hkey : Instant fun k : String => quote k.toList := by
    intro k l s t heq
    obtain ⟨hkl, hrest⟩ := instant_quote _ _ _ _ heq
    exact ⟨String.toList_inj.mp hkl, hrest⟩
  exact hkey.pair hcolon

/-- **The text tells the members.** -/
theorem stringify_inj {l m : List Member} (h : stringify l = stringify m) : l = m := by
  refine listed_inj stopped_member (by decide) (fun a s hs => ?_) (List.cons.inj h).2
  exact absurd (List.cons.inj hs).1 (by decide)

end ShareFrame.JSON
