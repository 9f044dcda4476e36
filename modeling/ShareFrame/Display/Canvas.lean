import Mathlib.Algebra.Field.Rat
import Mathlib.Tactic.NormNum.Inv
import ShareFrame.Display.DisplayManager
import ShareFrame.Display.PanelText
import ShareFrame.Lib.Bits

/-!
# Drawing on the panel buffer

`panel_text::Canvas` drops every pixel outside the area that the passepartout leaves
visible and changes one bit for every other. A drawing (`IsDrawing`) is what a sequence of
such calls does; `Font::draw` and `drawBox` are drawings whatever the font says of its
glyphs and wherever the box lies. The pen of a text is a float and stays open.
-/

namespace ShareFrame.PanelText

open Bits (bit mask)
open DisplayManager (BUFFER_SIZE WIDTH HEIGHT)

structure Rect where
  x0 : Int
  y0 : Int
  x1 : Int
  y1 : Int
  deriving DecidableEq, Repr

/-- About 140×90 mm of the 163.2×97.92 mm panel, less 5 mm per side, over exact numbers. -/
def SAFE_AREA : Rect :=
  let pxPerMm : Rat := WIDTH / 163.2
  let visibleW := 140 * pxPerMm
  let visibleH := 90 * pxPerMm
  let margin := 5 * pxPerMm
  let x0 := ((WIDTH - visibleW) / 2 + margin).floor + 1
  let y0 := ((HEIGHT - visibleH) / 2 + margin).floor + 1
  ⟨x0, y0, WIDTH - x0, HEIGHT - y0⟩

theorem SAFE_AREA_eq : SAFE_AREA = ⟨82, 44, 718, 436⟩ := by decide +kernel

/-! ## Canvas -/

/-- `buffer_[k]` is changed; `none` where there is no such byte. -/
def change (buffer : List UInt8) (k : Int) (f : UInt8 → UInt8) : Option (List UInt8) :=
  if 0 ≤ k ∧ k < buffer.length then some (buffer.modify k.toNat f) else none

/-- What `black` and `white` have in common. -/
def plot (f : UInt8 → UInt8 → UInt8) (x y : Int) (buffer : List UInt8) : Option (List UInt8) :=
  if x < SAFE_AREA.x0 ∨ x ≥ SAFE_AREA.x1 ∨ y < SAFE_AREA.y0 ∨ y ≥ SAFE_AREA.y1 then some buffer
  else
    let i := y * WIDTH + x
    change buffer (i.tdiv 8) (f · (0x80 >>> UInt8.ofNat (i.tmod 8).toNat))

def Canvas.black : Int → Int → List UInt8 → Option (List UInt8) := plot fun byte m => byte &&& ~~~m

def Canvas.white : Int → Int → List UInt8 → Option (List UInt8) := plot fun byte m => byte ||| m

/-! ## Text -/

/-- What stb_truetype gives for a code point. -/
structure Glyph where
  w : Int
  h : Int
  xoff : Int
  yoff : Int
  bitmap : Int → UInt8

/-- A loaded font, over the pen positions. -/
structure Font (Pen : Type) where
  /-- `static_cast<float>(left)` -/
  start : Int → Pen
  /-- `static_cast<int>(x + 0.5f)` -/
  round : Pen → Int
  /-- `x += advance * s` -/
  advance : Int → Pen → CodePoint → Pen
  kern : Int → Pen → CodePoint → CodePoint → Pen
  /-- `none` for a null pointer -/
  codepointBitmap : Int → CodePoint → Option Glyph
  ascent : Int → Int

/-- `for (int i = start; i < stop; ++i)`. -/
def steps (start stop : Int) : List Int :=
  (List.range (stop - start).toNat).map fun k : Nat => start + k

def Glyph.draw (glyph : Glyph) (left baseline : Int) (buffer : List UInt8) : Option (List UInt8) :=
  (steps 0 glyph.h).foldlM (fun buffer gy => (steps 0 glyph.w).foldlM (fun buffer gx =>
    if glyph.bitmap (gy * glyph.w + gx) ≥ 128 then
      Canvas.black (left + glyph.xoff + gx) (baseline + glyph.yoff + gy) buffer
    else some buffer) buffer) buffer

section

variable {Pen : Type} (font : Font Pen)

/-- The bitmap of a code point, with the pen at `x`. -/
def Font.drawBitmap (px baseline : Int) (x : Pen) (cp : CodePoint) (buffer : List UInt8) :
    Option (List UInt8) :=
  match font.codepointBitmap px cp with
  | some glyph => glyph.draw (font.round x) baseline buffer
  | none => some buffer

/-- The pen behind a code point, before the rest of the text. -/
def Font.behind (px : Int) (x : Pen) (cp : CodePoint) : List CodePoint → Pen
  | [] => font.advance px x cp
  | next :: _ => font.kern px (font.advance px x cp) cp next

/-- The loop of `Font::draw`. -/
def Font.drawFrom (px baseline : Int) : Pen → List CodePoint → List UInt8 → Option (List UInt8)
  | _, [], buffer => some buffer
  | x, cp :: rest, buffer => do
    let buffer ← font.drawBitmap px baseline x cp buffer
    drawFrom px baseline (font.behind px x cp rest) rest buffer

def Font.draw (text : List CodePoint) (px left baseline : Int) :
    List UInt8 → Option (List UInt8) :=
  font.drawFrom px baseline (font.start left) text

/-! ## The box of a badge -/

def kPx : Int := 20
def kPadding : Int := 8
def kBorder : Int := 2
def kInset : Int := kPadding + kBorder

def drawBox (line : List CodePoint) (box : Rect) (buffer : List UInt8) : Option (List UInt8) := do
  let buffer ← (steps box.y0 box.y1).foldlM (fun buffer y =>
    (steps box.x0 box.x1).foldlM (fun buffer x =>
      if x < box.x0 + kBorder ∨ x ≥ box.x1 - kBorder ∨ y < box.y0 + kBorder ∨ y ≥ box.y1 - kBorder
      then Canvas.black x y buffer else Canvas.white x y buffer) buffer) buffer
  font.draw line kPx (box.x0 + kInset) (box.y0 + kInset + font.ascent kPx) buffer

end

/-! ## One call -/

/-- A call of `black` or `white`. -/
structure Call where
  white : Bool
  x : Int
  y : Int
  deriving DecidableEq, Repr

def Call.run (c : Call) (buffer : List UInt8) : Option (List UInt8) :=
  if c.white then Canvas.white c.x c.y buffer else Canvas.black c.x c.y buffer

def Inside (x y : Int) : Prop :=
  SAFE_AREA.x0 ≤ x ∧ x < SAFE_AREA.x1 ∧ SAFE_AREA.y0 ≤ y ∧ y < SAFE_AREA.y1

instance (x y : Int) : Decidable (Inside x y) := inferInstanceAs (Decidable (_ ∧ _))

/-- The index of the bit of a pixel. -/
def index (x y : Int) : Nat := (y * WIDTH + x).toNat

variable {x y x' y' : Int} {buffer : List UInt8}

theorem inside_iff : Inside x y ↔ 82 ≤ x ∧ x < 718 ∧ 44 ≤ y ∧ y < 436 := by
  rw [Inside, SAFE_AREA_eq]

theorem index_lt (h : Inside x y) : index x y < 8 * BUFFER_SIZE := by
  rw [inside_iff] at h
  simp only [index, WIDTH, HEIGHT, BUFFER_SIZE]
  omega

theorem index_inj (h : Inside x y) (h' : Inside x' y') (heq : index x y = index x' y') :
    x = x' ∧ y = y' := by
  rw [inside_iff] at h h'
  simp only [index, WIDTH] at heq
  omega

/-- The pixel of a bit. -/
theorem index_mod_div (h : Inside x y) :
    ((index x y % WIDTH : Nat) : Int) = x ∧ ((index x y / WIDTH : Nat) : Int) = y := by
  rw [inside_iff] at h
  simp only [index, WIDTH]
  omega

theorem plot_outside (f : UInt8 → UInt8 → UInt8) (h : ¬Inside x y) :
    plot f x y buffer = some buffer := by
  rw [plot, if_pos]
  rw [Inside] at h
  omega

theorem plot_inside (f : UInt8 → UInt8 → UInt8) (h : Inside x y)
    (hlen : buffer.length = BUFFER_SIZE) :
    plot f x y buffer = some (buffer.modify (index x y / 8) (f · (mask (index x y)))) := by
  have hnot : ¬(x < SAFE_AREA.x0 ∨ x ≥ SAFE_AREA.x1 ∨ y < SAFE_AREA.y0 ∨ y ≥ SAFE_AREA.y1) := by
    rw [Inside] at h
    omega
  have hi : y * WIDTH + x = (index x y : Int) := by
    rw [inside_iff] at h
    simp only [index, WIDTH]
    omega
  have hbyte : (index x y : Int).tdiv 8 = (index x y / 8 : Nat) := rfl
  have hlt := index_lt h
  rw [plot, if_neg hnot]
  simp only [hi, hbyte]
  rw [change, if_pos (by omega)]
  rfl

theorem Call.run_outside {c : Call} (h : ¬Inside c.x c.y) : c.run buffer = some buffer := by
  rw [Call.run, Canvas.white, Canvas.black, plot_outside _ h, plot_outside _ h, ite_self]

/-- **One call changes the bit of its pixel and no other.** -/
theorem Call.run_inside {c : Call} (h : Inside c.x c.y) (hlen : buffer.length = BUFFER_SIZE) :
    ∃ buffer', c.run buffer = some buffer' ∧ buffer'.length = BUFFER_SIZE ∧
      ∀ i, bit buffer' i = if index c.x c.y = i then c.white else bit buffer i := by
  have hlt : index c.x c.y < 8 * buffer.length := by rw [hlen]; exact index_lt h
  rw [Call.run, Canvas.white, Canvas.black, plot_inside _ h hlen, plot_inside _ h hlen]
  cases c.white with
  | true => exact ⟨_, rfl, by rw [List.length_modify, hlen], fun i => Bits.bit_set hlt i⟩
  | false => exact ⟨_, rfl, by rw [List.length_modify, hlen], fun i => Bits.bit_clear hlt i⟩

/-! ## Sequences of calls -/

def runCalls (calls : List Call) (buffer : List UInt8) : Option (List UInt8) :=
  calls.foldlM (fun buffer c => c.run buffer) buffer

/-- The colour that the last call for a pixel gave it. -/
def lastColour (calls : List Call) (x y : Int) : Option Bool :=
  ((calls.filter fun c => c.x = x ∧ c.y = y).getLast?).map (·.white)

theorem lastColour_cons (c : Call) (calls : List Call) (x y : Int) (old : Bool) :
    (lastColour (c :: calls) x y).getD old =
      (lastColour calls x y).getD (if c.x = x ∧ c.y = y then c.white else old) := by
  rw [lastColour, lastColour, List.filter_cons]
  by_cases hc : c.x = x ∧ c.y = y
  · rw [if_pos (decide_eq_true hc), if_pos hc, List.getLast?_cons]
    cases (calls.filter fun c => c.x = x ∧ c.y = y).getLast? <;> rfl
  · rw [if_neg (by rw [decide_eq_true_eq]; exact hc), if_neg hc]

/-- What a sequence of calls leaves in a buffer. -/
structure Painted (calls : List Call) (buffer buffer' : List UInt8) : Prop where
  length : buffer'.length = BUFFER_SIZE
  outside : ∀ i : Nat, ¬Inside (i % WIDTH : Nat) (i / WIDTH : Nat) → bit buffer' i = bit buffer i
  inside : ∀ x y, Inside x y →
    bit buffer' (index x y) = (lastColour calls x y).getD (bit buffer (index x y))

theorem run_painted (calls : List Call) (hlen : buffer.length = BUFFER_SIZE) :
    ∃ buffer', runCalls calls buffer = some buffer' ∧ Painted calls buffer buffer' := by
  induction calls generalizing buffer with
  | nil => exact ⟨buffer, rfl, hlen, fun i _ => rfl, fun x y _ => rfl⟩
  | cons c calls ih =>
    rw [runCalls, List.foldlM_cons]
    by_cases hc : Inside c.x c.y
    · obtain ⟨next, hrun, hnext, hbit⟩ := c.run_inside hc hlen
      obtain ⟨buffer', hrest, hp⟩ := ih hnext
      refine ⟨buffer', by rw [hrun]; exact hrest, hp.length, fun i hi => ?_, fun x y hxy => ?_⟩
      · rw [hp.outside i hi, hbit, if_neg]
        rintro rfl
        obtain ⟨hx, hy⟩ := index_mod_div hc
        rw [hx, hy] at hi
        exact hi hc
      · have hnamed : index c.x c.y = index x y ↔ c.x = x ∧ c.y = y :=
          ⟨index_inj hc hxy, fun h => by rw [h.1, h.2]⟩
        rw [hp.inside x y hxy, hbit, lastColour_cons]
        simp only [hnamed]
    · obtain ⟨buffer', hrest, hp⟩ := ih hlen
      refine ⟨buffer', by rw [c.run_outside hc]; exact hrest, hp.length, hp.outside, ?_⟩
      intro x y hxy
      rw [hp.inside x y hxy, lastColour_cons, if_neg]
      rintro ⟨rfl, rfl⟩
      exact hc hxy

/-! ## Drawings -/

/-- A function on buffers that does what some sequence of calls does. -/
def IsDrawing (d : List UInt8 → Option (List UInt8)) : Prop :=
  ∃ calls, ∀ buffer, d buffer = runCalls calls buffer

namespace IsDrawing

theorem none : IsDrawing some := ⟨[], fun _ => rfl⟩

theorem call (c : Call) : IsDrawing c.run := by
  refine ⟨[c], fun buffer => ?_⟩
  rw [runCalls, List.foldlM_cons]
  exact (bind_pure _).symm

theorem bind {d d' : List UInt8 → Option (List UInt8)} (h : IsDrawing d) (h' : IsDrawing d') :
    IsDrawing fun buffer => d buffer >>= d' := by
  obtain ⟨calls, h⟩ := h
  obtain ⟨calls', h'⟩ := h'
  refine ⟨calls ++ calls', fun buffer => ?_⟩
  rw [runCalls, List.foldlM_append, ← runCalls, ← h buffer]
  exact bind_congr fun buffer => h' buffer

theorem foldlM {α : Type} {d : α → List UInt8 → Option (List UInt8)} (l : List α)
    (h : ∀ a, IsDrawing (d a)) : IsDrawing (l.foldlM fun buffer a => d a buffer) := by
  induction l with
  | nil => exact none
  | cons a l ih => simpa only [List.foldlM_cons] using (h a).bind ih

theorem ite {d d' : List UInt8 → Option (List UInt8)} {p : Prop} [Decidable p] (h : IsDrawing d)
    (h' : IsDrawing d') : IsDrawing fun buffer => if p then d buffer else d' buffer := by
  by_cases hp : p
  · simpa only [if_pos hp] using h
  · simpa only [if_neg hp] using h'

theorem black (x y : Int) : IsDrawing (Canvas.black x y) := call ⟨false, x, y⟩

theorem white (x y : Int) : IsDrawing (Canvas.white x y) := call ⟨true, x, y⟩

theorem glyph (glyph : Glyph) (left baseline : Int) : IsDrawing (glyph.draw left baseline) :=
  foldlM _ fun _ => foldlM _ fun _ => ite (black _ _) none

variable {Pen : Type} (font : Font Pen)

theorem drawBitmap (px baseline : Int) (x : Pen) (cp : CodePoint) :
    IsDrawing (font.drawBitmap px baseline x cp) := by
  unfold Font.drawBitmap
  cases font.codepointBitmap px cp with
  | none => exact none
  | some g => exact glyph g _ _

theorem drawFrom (px baseline : Int) (x : Pen) (text : List CodePoint) :
    IsDrawing (font.drawFrom px baseline x text) := by
  induction text generalizing x with
  | nil => exact none
  | cons cp rest ih =>
    exact (drawBitmap font px baseline x cp).bind (ih _)

theorem draw (text : List CodePoint) (px left baseline : Int) :
    IsDrawing (font.draw text px left baseline) := drawFrom font px baseline _ text

theorem drawBox (line : List CodePoint) (box : Rect) : IsDrawing (drawBox font line box) := by
  unfold PanelText.drawBox
  exact IsDrawing.bind (foldlM _ fun y => foldlM _ fun x => ite (black x y) (white x y))
    (draw font line _ _ _)

end IsDrawing

/-- **Drawing never leaves the visible area**: whatever is drawn, text and boxes too, no
access is out of range, bits outside keep their value and a pixel inside has the colour of
the last call that named it. -/
theorem canvas_frame {Pen : Type} (font : Font Pen) :
    (∀ (calls : List Call) (buffer : List UInt8), buffer.length = BUFFER_SIZE →
      ∃ buffer', runCalls calls buffer = some buffer' ∧ Painted calls buffer buffer') ∧
    (∀ x y x' y', Inside x y → Inside x' y' → index x y = index x' y' → x = x' ∧ y = y') ∧
    (∀ text px left baseline, IsDrawing (font.draw text px left baseline)) ∧
    ∀ line box, IsDrawing (drawBox font line box) :=
  ⟨fun calls _ hlen => run_painted calls hlen, fun _ _ _ _ => index_inj,
    IsDrawing.draw font, IsDrawing.drawBox font⟩

end ShareFrame.PanelText
