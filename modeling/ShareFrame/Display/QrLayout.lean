import Mathlib.Data.List.TakeWhile
import Mathlib.Data.Set.Insert
import ShareFrame.Display.Canvas
import ShareFrame.Display.DecodeUtf8
import ShareFrame.Display.WifiQr

/-!
# The setup screens

`qr_layout` draws a QR code on the left of the visible area and a column of text beside
it. The code of a payload and what a font says of its glyphs stay open. On the panel
the modules can be sampled, with two white modules around them at least, whatever the text
is, where the font keeps it beside the code (`screens_show`). The text shrinks until it fits, and its lines stand one below the
other (`drawText_fits`).
-/

namespace ShareFrame

open PanelText (CodePoint Rect Glyph Font Canvas.black SAFE_AREA Call Inside index runCalls IsDrawing
  Painted lastColour steps)
open DisplayManager (BUFFER_SIZE WIDTH)
open Bits (bit)
open Text (bytes)

/-! ## The ink of a drawing -/

namespace PanelText

/-- A drawing that makes these pixels black, as far as they are in the visible area, and
leaves all others. -/
def Inks (S : Set (Int × Int)) (d : List UInt8 → Option (List UInt8)) : Prop :=
  ∃ calls : List Call, (∀ c ∈ calls, c.white = false) ∧
    (∀ x y, (x, y) ∈ S ↔ ∃ c ∈ calls, c.x = x ∧ c.y = y) ∧ ∀ buffer, d buffer = runCalls calls buffer

namespace Inks

variable {S S' : Set (Int × Int)} {d d' : List UInt8 → Option (List UInt8)}

theorem none : Inks ∅ some := by
  refine ⟨[], List.forall_mem_nil _, fun x y => ⟨fun h => absurd h (Set.notMem_empty _), ?_⟩, fun _ => rfl⟩
  rintro ⟨c, hc, -⟩
  exact absurd hc List.not_mem_nil

theorem black (x y : Int) : Inks {(x, y)} (Canvas.black x y) := by
  refine ⟨[⟨false, x, y⟩], by simp, fun a b => ?_, fun buffer => ?_⟩
  · simp only [Set.mem_singleton_iff, Prod.mk.injEq, List.mem_singleton, exists_eq_left]
    exact and_congr eq_comm eq_comm
  · rw [runCalls, List.foldlM_cons]
    exact (bind_pure _).symm

theorem bind (h : Inks S d) (h' : Inks S' d') : Inks (S ∪ S') fun buffer => d buffer >>= d' := by
  obtain ⟨calls, hblack, hmem, hrun⟩ := h
  obtain ⟨calls', hblack', hmem', hrun'⟩ := h'
  refine ⟨calls ++ calls', ?_, fun x y => ?_, fun buffer => ?_⟩
  · rw [List.forall_mem_append]
    exact ⟨hblack, hblack'⟩
  · rw [Set.mem_union, hmem, hmem']
    simp only [List.mem_append, or_and_right, exists_or]
  · rw [runCalls, List.foldlM_append, ← runCalls, ← hrun buffer]
    exact bind_congr fun buffer => hrun' buffer

theorem foldlM {α : Type} {l : List α} {S : α → Set (Int × Int)} {d : α → List UInt8 → Option (List UInt8)}
    (h : ∀ a ∈ l, Inks (S a) (d a)) :
    Inks {p | ∃ a ∈ l, p ∈ S a} (l.foldlM fun buffer a => d a buffer) := by
  induction l with
  | nil =>
    have hset : {p | ∃ a ∈ [], p ∈ S a} = ∅ := by
      simp only [List.not_mem_nil, false_and, exists_false, Set.ofPred_false]
    rw [hset]
    exact none
  | cons a l ih =>
    obtain ⟨ha, hl⟩ := List.forall_mem_cons.mp h
    have hset : {p | ∃ b ∈ a :: l, p ∈ S b} = S a ∪ {p | ∃ b ∈ l, p ∈ S b} := by
      ext p
      simp only [Set.mem_ofPred_eq, Set.mem_union, List.mem_cons, or_and_right, exists_or,
        exists_eq_left]
    rw [hset]
    simpa only [List.foldlM_cons] using ha.bind (ih hl)

theorem ite {p : Prop} [Decidable p] (h : Inks S d) :
    Inks {q | p ∧ q ∈ S} fun buffer => if p then d buffer else some buffer := by
  by_cases hp : p
  · simpa only [hp, true_and, if_true, Set.ofPred_mem_eq] using h
  · simpa only [hp, false_and, if_false, Set.ofPred_false] using none

/-- What it leaves in a buffer. -/
theorem painted (h : Inks S d) {buffer : List UInt8} (hlen : buffer.length = BUFFER_SIZE) :
    ∃ buffer', d buffer = some buffer' ∧ buffer'.length = BUFFER_SIZE ∧
      (∀ i : Nat, ¬Inside (i % WIDTH : Nat) (i / WIDTH : Nat) → bit buffer' i = bit buffer i) ∧
      (∀ x y, Inside x y → (x, y) ∈ S → bit buffer' (index x y) = false) ∧
      ∀ x y, Inside x y → (x, y) ∉ S → bit buffer' (index x y) = bit buffer (index x y) := by
  obtain ⟨calls, hblack, hmem, hrun⟩ := h
  obtain ⟨buffer', hbuffer', hpainted⟩ := run_painted calls hlen
  refine ⟨buffer', (hrun buffer).trans hbuffer', hpainted.length, hpainted.outside,
    fun x y hin hxy => ?_, fun x y hin hxy => ?_⟩
  · have hlast : lastColour calls x y = some false := by
      obtain ⟨c, hc, hcx⟩ := (hmem x y).mp hxy
      have hne : (calls.filter fun c => c.x = x ∧ c.y = y) ≠ [] :=
        List.ne_nil_of_mem (List.mem_filter.mpr ⟨hc, decide_eq_true hcx⟩)
      rw [lastColour, List.getLast?_eq_some_getLast hne, Option.map_some,
        hblack _ (List.mem_filter.mp (List.getLast_mem hne)).1]
    rw [hpainted.inside x y hin, hlast, Option.getD_some]
  · have hlast : lastColour calls x y = Option.none := by
      have hnil : (calls.filter fun c => c.x = x ∧ c.y = y) = [] := by
        refine List.filter_eq_nil_iff.mpr fun c hc hcx => ?_
        exact hxy ((hmem x y).mpr ⟨c, hc, of_decide_eq_true hcx⟩)
      rw [lastColour, hnil]
      rfl
    rw [hpainted.inside x y hin, hlast, Option.getD_none]

end Inks

theorem mem_steps {start stop i : Int} : i ∈ steps start stop ↔ start ≤ i ∧ i < stop := by
  simp only [steps, List.mem_map, List.mem_range]
  constructor
  · rintro ⟨k, hk, rfl⟩
    omega
  · intro h
    exact ⟨(i - start).toNat, by omega, by omega⟩

/-- Up to a size, the pen does not go back over these characters, and none of their glyphs reaches
farther to the left of it. -/
structure Font.Forward {Pen : Type} (font : Font Pen) (maxPx reach : Int) (chars : List CodePoint) :
    Prop where
  start : ∀ left, left ≤ font.round (font.start left)
  behind : ∀ px x cp rest, 0 < px → px ≤ maxPx → cp ∈ chars → rest ⊆ chars →
    font.round x ≤ font.round (font.behind px x cp rest)
  bearing : ∀ px cp glyph, 0 < px → px ≤ maxPx → cp ∈ chars →
    font.codepointBitmap px cp = some glyph → -reach ≤ glyph.xoff

section

variable {Pen : Type} {font : Font Pen} {maxPx reach px : Int} {chars : List CodePoint}

theorem exists_inks_glyph (glyph : Glyph) (left baseline : Int) :
    ∃ S, Inks S (glyph.draw left baseline) ∧ ∀ p ∈ S, left + glyph.xoff ≤ p.1 := by
  refine ⟨_, .foldlM fun gy _ => .foldlM fun gx _ => .ite (.black _ _), ?_⟩
  rintro ⟨x, y⟩ ⟨gy, -, gx, hgx, -, hp⟩
  have hgx := (mem_steps.mp hgx).1
  obtain ⟨rfl, rfl⟩ := Prod.mk.inj hp
  dsimp only
  omega

/-- The ink of a text behind the pen. -/
theorem exists_inks_drawFrom (hfont : font.Forward maxPx reach chars) (hpos : 0 < px) (hpx : px ≤ maxPx)
    (baseline : Int) {text : List CodePoint} (htext : text ⊆ chars) {left : Int} {x : Pen}
    (hx : left ≤ font.round x) :
    ∃ S, Inks S (font.drawFrom px baseline x text) ∧ ∀ p ∈ S, left - reach ≤ p.1 := by
  induction text generalizing x with
  | nil => exact ⟨∅, .none, fun p hp => absurd hp (Set.notMem_empty p)⟩
  | cons cp rest ih =>
    obtain ⟨hcp, hrest⟩ := List.cons_subset.mp htext
    obtain ⟨S', hS', hleft'⟩ := ih hrest (Int.le_trans hx (hfont.behind px x cp rest hpos hpx hcp hrest))
    have hglyph : ∃ S, Inks S (font.drawBitmap px baseline x cp) ∧ ∀ p ∈ S, left - reach ≤ p.1 := by
      unfold Font.drawBitmap
      cases hglyph : font.codepointBitmap px cp with
      | none => exact ⟨∅, .none, fun p hp => absurd hp (Set.notMem_empty p)⟩
      | some glyph =>
        obtain ⟨S, hS, hleft⟩ := exists_inks_glyph glyph (font.round x) baseline
        have hbearing := hfont.bearing px cp glyph hpos hpx hcp hglyph
        refine ⟨S, hS, fun p hp => ?_⟩
        have := hleft p hp
        omega
    obtain ⟨S, hS, hleft⟩ := hglyph
    exact ⟨S ∪ S', hS.bind hS', fun p hp => hp.elim (hleft p) (hleft' p)⟩

theorem exists_inks_draw (hfont : font.Forward maxPx reach chars) (hpos : 0 < px) (hpx : px ≤ maxPx)
    {text : List CodePoint} (htext : text ⊆ chars) (left baseline : Int) :
    ∃ S, Inks S (font.draw text px left baseline) ∧ ∀ p ∈ S, left - reach ≤ p.1 :=
  exists_inks_drawFrom hfont hpos hpx baseline htext (hfont.start left)

end

end PanelText

/-! ## The code -/

/-- A code of `qrcodegen`. -/
structure QrCode where
  version : Nat
  version_ok : 1 ≤ version ∧ version ≤ 40
  getModule : Int → Int → Bool

/-- `getSize` -/
def QrCode.size (qr : QrCode) : Int := 4 * qr.version + 17

namespace QrLayout

def kQrBox : Int := 300
def kQrQuietModules : Int := 2
def kColumnGap : Int := 20
def kTitlePx : Int := 34
def kBodyPx : Int := 24
def kMinBodyPx : Int := 16

/-- How wide a module is; no quotient here has a negative operand. -/
def modulePx (size : Int) : Int := kQrBox / (size + 2 * kQrQuietModules)

def boxTop : Int := SAFE_AREA.y0 + (SAFE_AREA.y1 - SAFE_AREA.y0 - kQrBox) / 2

def left (size : Int) : Int := SAFE_AREA.x0 + (kQrBox - size * modulePx size) / 2

def top (size : Int) : Int := boxTop + (kQrBox - size * modulePx size) / 2

def drawQr (qr : QrCode) (buffer : List UInt8) : Option (List UInt8) :=
  let m := modulePx qr.size
  (steps 0 qr.size).foldlM (fun buffer my => (steps 0 qr.size).foldlM (fun buffer mx =>
    if qr.getModule mx my then
      (steps 0 m).foldlM (fun buffer y => (steps 0 m).foldlM (fun buffer x =>
        PanelText.Canvas.black (left qr.size + mx * m + x) (top qr.size + my * m + y) buffer) buffer) buffer
    else some buffer) buffer) buffer

/-- The pixel lies in this module. -/
def InModule (size mx my x y : Int) : Prop :=
  (left size + mx * modulePx size ≤ x ∧ x < left size + mx * modulePx size + modulePx size) ∧
    top size + my * modulePx size ≤ y ∧ y < top size + my * modulePx size + modulePx size

def OnCode (size mx my : Int) : Prop := (0 ≤ mx ∧ mx < size) ∧ 0 ≤ my ∧ my < size

theorem exists_inks_drawQr (qr : QrCode) : ∃ S, PanelText.Inks S (drawQr qr) ∧ ∀ x y, (x, y) ∈ S ↔
    ∃ mx my, OnCode qr.size mx my ∧ qr.getModule mx my = true ∧ InModule qr.size mx my x y := by
  refine ⟨_, .foldlM fun my _ => .foldlM fun mx _ => .ite
    (.foldlM fun y _ => .foldlM fun x _ => .black _ _), fun x y => ?_⟩
  constructor
  · rintro ⟨my, hmy, mx, hmx, hdark, b, hb, a, ha, hp⟩
    rw [PanelText.mem_steps] at hmy hmx ha hb
    obtain ⟨rfl, rfl⟩ := Prod.mk.inj hp
    exact ⟨mx, my, ⟨hmx, hmy⟩, hdark, ⟨by omega, by omega⟩, by omega, by omega⟩
  · rintro ⟨mx, my, ⟨hmx, hmy⟩, hdark, hx, hy⟩
    refine ⟨my, PanelText.mem_steps.mpr hmy, mx, PanelText.mem_steps.mpr hmx, hdark,
      y - (top qr.size + my * modulePx qr.size), PanelText.mem_steps.mpr (by omega),
      x - (left qr.size + mx * modulePx qr.size), PanelText.mem_steps.mpr (by omega), ?_⟩
    exact Prod.ext (by dsimp only; omega) (by dsimp only; omega)

/-! ## Where the modules are -/

section Geometry

variable (qr : QrCode)

theorem size_bounds : 21 ≤ qr.size ∧ qr.size ≤ 177 := by
  have h := qr.version_ok
  unfold QrCode.size
  omega

/-- The modules and the quiet ones around them have room in the box. -/
theorem modulePx_bounds : 1 ≤ modulePx qr.size ∧
    qr.size * modulePx qr.size + 4 * modulePx qr.size ≤ kQrBox := by
  obtain ⟨hlow, hhigh⟩ := size_bounds qr
  have hpos : 0 < qr.size + 2 * kQrQuietModules := by unfold kQrQuietModules; omega
  refine ⟨Int.le_ediv_of_mul_le hpos ?_, ?_⟩
  · unfold kQrQuietModules kQrBox
    omega
  · have hle : kQrBox / (qr.size + 2 * kQrQuietModules) * (qr.size + 2 * kQrQuietModules) ≤ kQrBox :=
      Int.ediv_mul_le kQrBox (by omega)
    have hsplit : modulePx qr.size * (qr.size + 2 * kQrQuietModules) =
        qr.size * modulePx qr.size + 4 * modulePx qr.size := by
      rw [kQrQuietModules, Int.mul_add, Int.mul_comm, Int.mul_comm _ (2 * 2)]
      rfl
    rw [← hsplit]
    exact hle

/-- A strip of the code is one of the modules in it. -/
theorem strip_bounds {size m i : Int} (hm : 1 ≤ m) (hi : 0 ≤ i ∧ i < size) :
    0 ≤ i * m ∧ i * m + m ≤ size * m := by
  have hnext : (i + 1) * m ≤ size * m := Int.mul_le_mul_of_nonneg_right (by omega) (by omega)
  rw [Int.add_mul, Int.one_mul] at hnext
  exact ⟨Int.mul_nonneg hi.1 (by omega), hnext⟩

/-- A pixel lies in one strip. -/
theorem strip_unique {m i j x : Int} (hi : i * m ≤ x ∧ x < i * m + m) (hj : j * m ≤ x ∧ x < j * m + m) :
    i = j := by
  have hm : 0 < m := by omega
  have hle : ∀ {i j : Int}, i * m ≤ x → x < j * m + m → i ≤ j := by
    intro i j hi hj
    by_contra hlt
    have hnext : (j + 1) * m ≤ i * m := Int.mul_le_mul_of_nonneg_right (by omega) (by omega)
    rw [Int.add_mul, Int.one_mul] at hnext
    omega
  exact Int.le_antisymm (hle hi.1 hj.2) (hle hj.1 hi.2)

variable {qr} {mx my mx' my' x y : Int}

theorem module_unique (h : InModule qr.size mx my x y) (h' : InModule qr.size mx' my' x y) :
    mx = mx' ∧ my = my' := by
  obtain ⟨hx, hy⟩ := h
  obtain ⟨hx', hy'⟩ := h'
  exact ⟨strip_unique (x := x - left qr.size) (m := modulePx qr.size) (by omega) (by omega),
    strip_unique (x := y - top qr.size) (m := modulePx qr.size) (by omega) (by omega)⟩

/-- The pixel lies in the code or in the quiet modules around it. -/
def AroundCode (size x y : Int) : Prop :=
  let quiet := kQrQuietModules * modulePx size
  (left size - quiet ≤ x ∧ x < left size + size * modulePx size + quiet) ∧
    top size - quiet ≤ y ∧ y < top size + size * modulePx size + quiet

/-- All of this is in the box, beside the text. -/
theorem AroundCode.inside (h : AroundCode qr.size x y) : Inside x y ∧ x < SAFE_AREA.x0 + kQrBox := by
  obtain ⟨-, hroom⟩ := modulePx_bounds qr
  simp only [AroundCode, left, top, boxTop, kQrQuietModules, kQrBox, PanelText.SAFE_AREA_eq] at h hroom
  rw [PanelText.inside_iff, PanelText.SAFE_AREA_eq, kQrBox]
  dsimp only
  omega

theorem InModule.around (hcode : OnCode qr.size mx my) (h : InModule qr.size mx my x y) :
    AroundCode qr.size x y := by
  obtain ⟨hm, -⟩ := modulePx_bounds qr
  have hx := strip_bounds hm hcode.1
  have hy := strip_bounds hm hcode.2
  simp only [InModule, AroundCode, kQrQuietModules] at h ⊢
  omega

end Geometry

/-! ## What is on the panel -/

/-- A code that can be read off a panel: each pixel of a dark module is black, and all others
are white, also around the code. -/
structure Scans (qr : QrCode) (buffer : List UInt8) : Prop where
  length : buffer.length = BUFFER_SIZE
  visible : 1 ≤ modulePx qr.size
  pixels : ∀ mx my x y, OnCode qr.size mx my → InModule qr.size mx my x y →
    bit buffer (index x y) = !qr.getModule mx my
  quiet : ∀ x y, AroundCode qr.size x y →
    (∀ mx my, OnCode qr.size mx my → ¬InModule qr.size mx my x y) → bit buffer (index x y) = true

/-- `Canvas canvas` -/
def blank : List UInt8 := List.replicate BUFFER_SIZE 0xFF

theorem bit_blank {x y : Int} (h : Inside x y) : bit blank (index x y) = true := by
  have hlt : index x y / 8 < BUFFER_SIZE := by
    have := PanelText.index_lt h
    omega
  have hbyte : ∀ j < 8, (0xFF : UInt8).toNat.testBit (7 - j) = true := by decide
  rw [bit, blank, List.getElem?_replicate_of_lt hlt, Option.getD_some]
  exact hbyte _ (Nat.mod_lt _ (by decide))

/-- With a drawing on it that stays right of the box, a code can be read. -/
theorem exists_scans (qr : QrCode) {S : Set (Int × Int)} {d : List UInt8 → Option (List UInt8)}
    (hd : PanelText.Inks S d) (hright : ∀ p ∈ S, SAFE_AREA.x0 + kQrBox ≤ p.1) :
    ∃ buffer, (drawQr qr blank >>= d) = some buffer ∧ Scans qr buffer := by
  obtain ⟨Q, hQ, hmem⟩ := exists_inks_drawQr qr
  obtain ⟨buffer, hrun, hlen, -, hblack, hwhite⟩ := (hQ.bind hd).painted (List.length_replicate ..)
  have hnot {x y : Int} (h : AroundCode qr.size x y) : (x, y) ∉ S := fun hp => by
    have hlt := h.inside.2
    have hle := hright _ hp
    omega
  refine ⟨buffer, hrun, hlen, (modulePx_bounds qr).1, fun mx my x y hcode hin => ?_, fun x y hround hno => ?_⟩
  · have hround := hin.around hcode
    cases hdark : qr.getModule mx my with
    | true =>
      exact hblack x y hround.inside.1 (.inl ((hmem x y).mpr ⟨mx, my, hcode, hdark, hin⟩))
    | false =>
      refine (hwhite x y hround.inside.1 ?_).trans (bit_blank hround.inside.1)
      rintro (hp | hp)
      · obtain ⟨mx', my', -, hdark', hin'⟩ := (hmem x y).mp hp
        obtain ⟨rfl, rfl⟩ := module_unique hin hin'
        rw [hdark] at hdark'
        cases hdark'
      · exact hnot hround hp
  · refine (hwhite x y hround.inside.1 ?_).trans (bit_blank hround.inside.1)
    rintro (hp | hp)
    · obtain ⟨mx, my, hcode, -, hin⟩ := (hmem x y).mp hp
      exact hno mx my hcode hin
    · exact hnot hround hp

/-! ## The text -/

/-- A loaded font with the measures of its lines. -/
structure Typeface (Pen α : Type) extends Font Pen where
  lineHeight : Int → Int
  width : Int → List CodePoint → α
  /-- an `int` beside a width -/
  ofInt : Int → α

/-- A line and where its top is. -/
structure Line where
  text : List CodePoint
  px : Int
  y : Int
  deriving DecidableEq, Repr

/-- The lines of a paragraph and their size. -/
abbrev Block := List (List CodePoint) × Int

def textLeft : Int := SAFE_AREA.x0 + kQrBox + kColumnGap
def maxWidth : Int := SAFE_AREA.x1 - textLeft
def maxHeight : Int := SAFE_AREA.y1 - SAFE_AREA.y0

/-- The sizes that are tried, `for (int body = kBodyPx; body >= kMinBodyPx; body -= 2)`. -/
def bodies : List Int :=
  (List.range ((kBodyPx - kMinBodyPx) / 2 + 1).toNat).map fun k : Nat => kBodyPx - 2 * k

def title (body : Int) : Int := kTitlePx * body / kBodyPx

def gap (body : Int) : Int := body / 2

section

variable {Pen α : Type} [LE α] [DecidableLE α] (font : Typeface Pen α)

/-- The first paragraph is the title. -/
def blocksFrom (body : Int) : Nat → List (List UInt8) → Option (List Block)
  | _, [] => some []
  | i, paragraph :: paragraphs => do
    let px := if i = 0 then title body else body
    let text ← PanelText.decodeUtf8 paragraph
    let blocks ← blocksFrom body (i + 1) paragraphs
    pure ((PanelText.wrap (font.width px) (font.ofInt maxWidth) text, px) :: blocks)

omit [LE α] [DecidableLE α] in
def heightFrom (body : Int) : Nat → List Block → Int
  | _, [] => 0
  | i, (lines, px) :: blocks =>
    lines.length * font.lineHeight px + (if i > 0 then gap body else 0) + heightFrom body (i + 1) blocks

def column (px : Int) : Int → List (List CodePoint) → List Line
  | _, [] => []
  | y, line :: lines => ⟨line, px, y⟩ :: column px (y + font.lineHeight px) lines

def place (body : Int) : Nat → Int → List Block → List Line
  | _, _, [] => []
  | i, y, (lines, px) :: blocks =>
    let y := if i > 0 then y + gap body else y
    column font px y lines ++ place body (i + 1) (y + lines.length * font.lineHeight px) blocks

/-- Where the text begins. -/
def textTop (height : Int) : Int := SAFE_AREA.y0 + max 0 ((maxHeight - height).tdiv 2)

def drawLines (lines : List Line) (buffer : List UInt8) : Option (List UInt8) :=
  lines.foldlM (fun buffer line =>
    font.draw line.text line.px textLeft (line.y + font.ascent line.px) buffer) buffer

def drawTextFrom (paragraphs : List (List UInt8)) : List Int → List UInt8 → Option (List UInt8)
  | [], buffer => some buffer
  | body :: bodies, buffer => do
    let blocks ← blocksFrom font body 0 paragraphs
    let height := heightFrom font body 0 blocks
    if height > maxHeight ∧ body - 2 ≥ kMinBodyPx then drawTextFrom paragraphs bodies buffer
    else drawLines font (place font body 0 (textTop height) blocks) buffer

def drawText (paragraphs : List (List UInt8)) : List UInt8 → Option (List UInt8) :=
  drawTextFrom font paragraphs bodies

end

/-! ## The text fits -/

section

variable {Pen α : Type} {font : Typeface Pen α} {body top bottom : Int}

variable (font) in
/-- One line below the other, between two heights. -/
structure Stacked (top bottom : Int) (lines : List Line) : Prop where
  apart : lines.Pairwise fun a b => a.y + font.lineHeight a.px ≤ b.y
  between : ∀ line ∈ lines, top ≤ line.y ∧ line.y + font.lineHeight line.px ≤ bottom

theorem Stacked.nil : Stacked font top bottom [] := ⟨.nil, List.forall_mem_nil _⟩

theorem Stacked.append {middle middle' : Int} {lines lines' : List Line} (h : Stacked font top middle lines)
    (h' : Stacked font middle' bottom lines') (hle : middle ≤ middle') (htop : top ≤ middle')
    (hbottom : middle ≤ bottom) : Stacked font top bottom (lines ++ lines') := by
  refine ⟨List.pairwise_append.mpr ⟨h.apart, h'.apart, fun a ha b hb => ?_⟩, ?_⟩
  · have hup := (h.between a ha).2
    have hdown := (h'.between b hb).1
    omega
  · rw [List.forall_mem_append]
    refine ⟨fun a ha => ?_, fun b hb => ?_⟩
    · obtain ⟨hy, hend⟩ := h.between a ha
      omega
    · obtain ⟨hy, hend⟩ := h'.between b hb
      omega

theorem column_text (px y : Int) (lines : List (List CodePoint)) :
    (column font px y lines).map (·.text) = lines := by
  induction lines generalizing y with
  | nil => rfl
  | cons line lines ih => exact congrArg (line :: ·) (ih _)

theorem column_px {px y : Int} {lines : List (List CodePoint)} {line : Line}
    (h : line ∈ column font px y lines) : line.px = px := by
  induction lines generalizing y with
  | nil => cases h
  | cons text lines ih =>
    obtain rfl | h := List.mem_cons.mp h
    · rfl
    · exact ih h

variable (hline : ∀ px, 0 ≤ font.lineHeight px)

include hline

theorem stacked_column (px y : Int) (lines : List (List CodePoint)) :
    Stacked font y (y + lines.length * font.lineHeight px) (column font px y lines) := by
  have hpos := hline px
  induction lines generalizing y with
  | nil => exact .nil
  | cons line lines ih =>
    have hrest := ih (y + font.lineHeight px)
    have hnonneg : 0 ≤ (lines.length : Int) * font.lineHeight px := Int.mul_nonneg (by omega) hpos
    have hlen : ((line :: lines).length : Int) * font.lineHeight px =
        font.lineHeight px + lines.length * font.lineHeight px := by
      rw [List.length_cons, Int.natCast_add, Int.add_mul, Int.add_comm, Int.natCast_one, Int.one_mul]
    have hone : Stacked font y (y + font.lineHeight px) [⟨line, px, y⟩] :=
      ⟨List.pairwise_singleton .., by simp⟩
    rw [hlen, ← Int.add_assoc]
    exact hone.append hrest (Int.le_refl _) (by omega) (by omega)

omit hline in
theorem gap_nonneg (hbody : 0 ≤ body) : 0 ≤ gap body := by
  unfold gap
  omega

theorem heightFrom_nonneg (hbody : 0 ≤ body) (i : Nat) (blocks : List Block) :
    0 ≤ heightFrom font body i blocks := by
  induction blocks generalizing i with
  | nil => exact Int.le_refl 0
  | cons block blocks ih =>
    obtain ⟨lines, px⟩ := block
    have hrest := ih (i + 1)
    have hgap := gap_nonneg hbody
    have hnonneg : 0 ≤ (lines.length : Int) * font.lineHeight px := Int.mul_nonneg (by omega) (hline px)
    rw [heightFrom]
    split <;> omega

theorem stacked_place (hbody : 0 ≤ body) (i : Nat) (y : Int) (blocks : List Block) :
    Stacked font y (y + heightFrom font body i blocks) (place font body i y blocks) := by
  induction blocks generalizing i y with
  | nil => exact .nil
  | cons block blocks ih =>
    obtain ⟨lines, px⟩ := block
    have hgap := gap_nonneg hbody
    have hnonneg : 0 ≤ (lines.length : Int) * font.lineHeight px := Int.mul_nonneg (by omega) (hline px)
    have hrest := heightFrom_nonneg hline hbody (i + 1) blocks
    have key : ∀ y', y ≤ y' → Stacked font y (y' + lines.length * font.lineHeight px +
        heightFrom font body (i + 1) blocks) (column font px y' lines ++
          place font body (i + 1) (y' + lines.length * font.lineHeight px) blocks) := by
      intro y' hy
      have hcolumn := stacked_column hline px y' lines
      have hfirst : Stacked font y (y' + lines.length * font.lineHeight px) (column font px y' lines) :=
        ⟨hcolumn.apart, fun line hmem => ⟨Int.le_trans hy (hcolumn.between line hmem).1,
          (hcolumn.between line hmem).2⟩⟩
      exact hfirst.append (ih (i + 1) _) (Int.le_refl _) (by omega) (by omega)
    rw [place, heightFrom]
    split
    · have h := key (y + gap body) (by omega)
      rwa [show y + (lines.length * font.lineHeight px + gap body + heightFrom font body (i + 1) blocks) =
        y + gap body + lines.length * font.lineHeight px + heightFrom font body (i + 1) blocks by omega]
    · have h := key y (Int.le_refl y)
      rwa [Int.add_zero, ← Int.add_assoc]

omit hline

theorem place_text (i : Nat) (y : Int) (blocks : List Block) :
    (place font body i y blocks).map (·.text) = blocks.flatMap (·.1) := by
  induction blocks generalizing i y with
  | nil => rfl
  | cons block blocks ih =>
    obtain ⟨lines, px⟩ := block
    rw [place, List.map_append, column_text, ih, List.flatMap_cons]

/-- A line is one of a block. -/
theorem exists_block_of_mem_place {i : Nat} {y : Int} {blocks : List Block} {line : Line}
    (h : line ∈ place font body i y blocks) : ∃ b ∈ blocks, line.text ∈ b.1 ∧ line.px = b.2 := by
  induction blocks generalizing i y with
  | nil => cases h
  | cons block blocks ih =>
    obtain ⟨lines, px⟩ := block
    rw [place] at h
    rcases List.mem_append.mp h with h | h
    · have htext := List.mem_map_of_mem (f := (·.text)) h
      rw [column_text] at htext
      exact ⟨(lines, px), List.mem_cons_self, htext, column_px h⟩
    · obtain ⟨b, hb, hrest⟩ := ih h
      exact ⟨b, List.mem_cons_of_mem _ hb, hrest⟩

end

section

variable {Pen α : Type} [LE α] [DecidableLE α] {font : Typeface Pen α} {paragraphs : List (List UInt8)}
  {body : Int}

theorem filter_wrap (width : List CodePoint → α) (maxWidth : α) (text : List CodePoint) :
    (PanelText.wrap width maxWidth text).flatten.filter (· ≠ PanelText.space) =
      text.filter (· ≠ PanelText.space) := by
  obtain ⟨pieces, hws, -, hwords⟩ := (PanelText.holds_wrap width maxWidth text).pieces
  rw [List.flatMap_append, List.flatMap_singleton, Words.words_nil, List.append_nil] at hwords
  rw [← Words.flatten_flatMap_words, hwords, ← Words.flatten_words text, ← hws, List.flatten_flatten]

/-- The code points of a paragraph. -/
def textOf (paragraph : List UInt8) : List CodePoint := (PanelText.decodeUtf8 paragraph).getD []

theorem decodeUtf8_eq (paragraph : List UInt8) :
    PanelText.decodeUtf8 paragraph = some (textOf paragraph) := by
  obtain ⟨text, htext, -⟩ := PanelText.exists_decodeFrom paragraph 0 []
  have htext : PanelText.decodeUtf8 paragraph = some text := htext
  rw [textOf, htext, Option.getD_some]

/-- The characters that the text can have on the panel. -/
def drawn (paragraphs : List (List UInt8)) : List CodePoint :=
  PanelText.space :: paragraphs.flatMap textOf

variable (font) in
/-- The lines of the blocks are the paragraphs but for spaces, and each is as wide as the column at
most, or one character. -/
structure Wrapped (paragraphs : List (List UInt8)) (body : Int) (blocks : List Block) : Prop where
  text : (blocks.flatMap (·.1)).flatten.filter (· ≠ PanelText.space) =
    (paragraphs.flatMap textOf).filter (· ≠ PanelText.space)
  px : ∀ b ∈ blocks, b.2 = title body ∨ b.2 = body
  width : ∀ b ∈ blocks, ∀ line ∈ b.1, font.width b.2 line ≤ font.ofInt maxWidth ∨ line.length = 1

variable (font) in
theorem exists_blocks (body : Int) (i : Nat) (paragraphs : List (List UInt8)) :
    ∃ blocks, blocksFrom font body i paragraphs = some blocks ∧ Wrapped font paragraphs body blocks := by
  induction paragraphs generalizing i with
  | nil => exact ⟨[], rfl, rfl, List.forall_mem_nil _, List.forall_mem_nil _⟩
  | cons paragraph paragraphs ih =>
    obtain ⟨blocks, hblocks, htext, hpx, hwidth⟩ := ih (i + 1)
    refine ⟨_, by rw [blocksFrom, decodeUtf8_eq, hblocks]; rfl, ?_, ?_, ?_⟩
    · rw [List.flatMap_cons, List.flatten_append, List.filter_append, filter_wrap, htext,
        List.flatMap_cons, List.filter_append]
    · rw [List.forall_mem_cons]
      refine ⟨?_, hpx⟩
      dsimp only
      split
      · exact .inl rfl
      · exact .inr rfl
    · rw [List.forall_mem_cons]
      refine ⟨fun line hline => ?_, hwidth⟩
      exact ((PanelText.holds_wrap _ _ _).lines line hline).imp_left of_decide_eq_true

variable (font paragraphs) in
def Fits (body : Int) : Prop :=
  ∀ blocks ∈ blocksFrom font body 0 paragraphs, heightFrom font body 0 blocks ≤ maxHeight

variable (font paragraphs body) in
/-- What is drawn at a size. -/
def Lays (blocks : List Block) (d : List UInt8 → Option (List UInt8)) : Prop :=
  blocksFrom font body 0 paragraphs = some blocks ∧
    d = drawLines font (place font body 0 (textTop (heightFrom font body 0 blocks)) blocks)

variable (font paragraphs) in
/-- Of the sizes, the first that fits, or the last. -/
theorem exists_lays (front : List Int) (last : Int) (hfront : ∀ b ∈ front, b - 2 ≥ kMinBodyPx)
    (hlast : ¬last - 2 ≥ kMinBodyPx) : ∃ before body after blocks, front ++ [last] = before ++ body :: after ∧
      (∀ larger ∈ before, ¬Fits font paragraphs larger) ∧ (Fits font paragraphs body ∨ body = last) ∧
      Lays font paragraphs body blocks (drawTextFrom font paragraphs (front ++ [last])) := by
  induction front with
  | nil =>
    obtain ⟨blocks, hblocks, -⟩ := exists_blocks font last 0 paragraphs
    refine ⟨[], last, [], blocks, rfl, List.forall_mem_nil _, .inr rfl, hblocks, funext fun buffer => ?_⟩
    simp only [List.nil_append, drawTextFrom, hblocks, Option.bind_eq_bind, Option.bind_some]
    rw [if_neg fun h => hlast h.2]
  | cons body front ih =>
    obtain ⟨hbody, hfront⟩ := List.forall_mem_cons.mp hfront
    obtain ⟨blocks, hblocks, -⟩ := exists_blocks font body 0 paragraphs
    by_cases hhigh : heightFrom font body 0 blocks > maxHeight
    · obtain ⟨before, chosen, after, lines, hsplit, hlarger, hfits, hlines, hdraw⟩ := ih hfront
      refine ⟨body :: before, chosen, after, lines, congrArg (body :: ·) hsplit, ?_, hfits, hlines, ?_⟩
      · rw [List.forall_mem_cons]
        refine ⟨fun hfit => ?_, hlarger⟩
        have hle := hfit blocks hblocks
        omega
      · refine Eq.trans (funext fun buffer => ?_) hdraw
        simp only [List.cons_append, drawTextFrom, hblocks, Option.bind_eq_bind, Option.bind_some]
        rw [if_pos ⟨hhigh, hbody⟩]
    · refine ⟨[], body, front ++ [last], blocks, rfl, List.forall_mem_nil _, .inl fun blocks' h => ?_,
        hblocks, funext fun buffer => ?_⟩
      · obtain rfl := Option.some.inj (hblocks.symm.trans h)
        omega
      · simp only [List.cons_append, drawTextFrom, hblocks, Option.bind_eq_bind, Option.bind_some]
        rw [if_neg fun h => hhigh h.1]

theorem bodies_eq : bodies = [24, 22, 20, 18] ++ [16] := rfl

/-- The text is drawn at the largest size at which it fits, or at the smallest: nothing of it but
spaces is left out, no line is too wide, the lines are apart and, where they fit, visible. -/
theorem drawText_fits (font : Typeface Pen α) (hline : ∀ px, 0 ≤ font.lineHeight px)
    (paragraphs : List (List UInt8)) : ∃ body ∈ bodies, ∃ lines : List Line,
      drawText font paragraphs = drawLines font lines ∧
      (∀ larger ∈ bodies, body < larger → ¬Fits font paragraphs larger) ∧
      (Fits font paragraphs body ∨ body = kMinBodyPx) ∧
      (lines.flatMap (·.text)).filter (· ≠ PanelText.space) =
        (paragraphs.flatMap textOf).filter (· ≠ PanelText.space) ∧
      (∀ line ∈ lines, font.width line.px line.text ≤ font.ofInt maxWidth ∨ line.text.length = 1) ∧
      ∃ bottom, Stacked font SAFE_AREA.y0 bottom lines ∧
        (Fits font paragraphs body → bottom ≤ SAFE_AREA.y1) := by
  obtain ⟨before, body, after, blocks, hsplit, hlarger, hfits, hblocks, hdraw⟩ :=
    exists_lays font paragraphs [24, 22, 20, 18] 16 (by decide) (by decide)
  obtain ⟨blocks', hblocks', hwrapped⟩ := exists_blocks font body 0 paragraphs
  obtain rfl := Option.some.inj (hblocks.symm.trans hblocks')
  rw [← bodies_eq] at hsplit
  have hmem : body ∈ bodies := hsplit ▸ List.mem_append_right before List.mem_cons_self
  have hsmaller : ∀ b ∈ after, b < body := by
    have hsorted : bodies.Pairwise (· > ·) := by decide
    rw [hsplit] at hsorted
    exact fun b hb => (List.pairwise_cons.mp (List.pairwise_append.mp hsorted).2.1).1 b hb
  have hbody : 0 ≤ body := by
    have hall : ∀ b ∈ bodies, 0 ≤ b := by decide
    exact hall body hmem
  have hstacked := stacked_place hline hbody 0 (textTop (heightFrom font body 0 blocks)) blocks
  have hnonneg := heightFrom_nonneg hline hbody 0 blocks
  refine ⟨body, hmem, _, hdraw, fun larger hin hlt => ?_, hfits, ?_, fun line hl => ?_,
    textTop (heightFrom font body 0 blocks) + heightFrom font body 0 blocks,
    ⟨hstacked.apart, fun line hl => ⟨?_, (hstacked.between line hl).2⟩⟩, fun hfit => ?_⟩
  · rw [hsplit, List.mem_append, List.mem_cons] at hin
    obtain hin | rfl | hin := hin
    · exact hlarger larger hin
    · exact absurd hlt (Int.lt_irrefl _)
    · have := hsmaller larger hin
      omega
  · rw [List.flatMap_def, place_text]
    exact hwrapped.text
  · obtain ⟨b, hb, htext, hpx⟩ := exists_block_of_mem_place hl
    rw [hpx]
    exact hwrapped.width b hb _ htext
  · have htop : SAFE_AREA.y0 ≤ textTop (heightFrom font body 0 blocks) := by
      unfold textTop
      omega
    exact Int.le_trans htop (hstacked.between line hl).1
  · have hle := hfit blocks hblocks
    have hhalf := Int.tdiv_eq_ediv_of_nonneg (a := maxHeight - heightFrom font body 0 blocks) (b := 2)
      (by omega)
    rw [textTop, hhalf]
    rw [maxHeight] at hle ⊢
    omega

/-- Each character is half as wide as it is high. -/
def monospaced : Typeface Int Int where
  start left := left
  round x := x
  advance px x _ := x + max 0 (px / 2)
  kern _ x _ _ := x
  codepointBitmap px cp := if cp = PanelText.space then none else some ⟨px / 2, px, 0, -px, fun _ => 255⟩
  ascent px := px
  lineHeight px := max 0 (px + px / 4)
  width px text := text.length * (px / 2)
  ofInt n := n

theorem drawText_fits_monospaced : ∃ body ∈ bodies,
    (∀ larger ∈ bodies, body < larger → ¬Fits monospaced [bytes "Rahmen", bytes "1. QR-Code scannen"] larger) ∧
    (Fits monospaced [bytes "Rahmen", bytes "1. QR-Code scannen"] body ∨ body = kMinBodyPx) := by
  obtain ⟨body, hbody, _, -, hlarger, hfits, -⟩ := drawText_fits monospaced (fun px => Int.le_max_left 0 _)
    [bytes "Rahmen", bytes "1. QR-Code scannen"]
  exact ⟨body, hbody, hlarger, hfits⟩

/-! ## Beside the code -/

theorem title_le {body : Int} (h : body ∈ bodies) :
    (0 < title body ∧ title body ≤ kTitlePx) ∧ 0 < body ∧ body ≤ kTitlePx := by
  have hall : ∀ b ∈ bodies, (0 < title b ∧ title b ≤ kTitlePx) ∧ 0 < b ∧ b ≤ kTitlePx := by decide
  exact hall body h

omit [DecidableLE α] in
/-- Nothing else is drawn. -/
theorem Wrapped.subset {body : Int} {blocks : List Block} {paragraphs : List (List UInt8)}
    (h : Wrapped font paragraphs body blocks) {b : Block} (hb : b ∈ blocks) {text : List CodePoint}
    (htext : text ∈ b.1) : text ⊆ drawn paragraphs := by
  intro cp hcp
  by_cases hspace : cp = PanelText.space
  · rw [hspace]
    exact List.mem_cons_self
  · refine List.mem_cons_of_mem _ (List.mem_filter.mp (h.text ▸ List.mem_filter.mpr ⟨?_, ?_⟩)).1
    · exact List.mem_flatten_of_mem (List.mem_flatMap_of_mem hb htext) hcp
    · exact decide_eq_true hspace

omit [LE α] [DecidableLE α] in
theorem exists_inks_drawLines {chars : List CodePoint}
    (hfont : font.toFont.Forward kTitlePx kColumnGap chars) {lines : List Line}
    (hlines : ∀ line ∈ lines, (0 < line.px ∧ line.px ≤ kTitlePx) ∧ line.text ⊆ chars) :
    ∃ S, PanelText.Inks S (drawLines font lines) ∧ ∀ p ∈ S, SAFE_AREA.x0 + kQrBox ≤ p.1 := by
  induction lines with
  | nil => exact ⟨∅, .none, fun p hp => absurd hp (Set.notMem_empty p)⟩
  | cons line lines ih =>
    obtain ⟨⟨hpx, htext⟩, hrest⟩ := List.forall_mem_cons.mp hlines
    obtain ⟨S, hS, hleft⟩ := PanelText.exists_inks_draw hfont hpx.1 hpx.2 htext textLeft
      (line.y + font.ascent line.px)
    obtain ⟨S', hS', hleft'⟩ := ih hrest
    refine ⟨S ∪ S', hS.bind hS', ?_⟩
    rintro p (hp | hp)
    · have h := hleft p hp
      unfold textLeft at h
      omega
    · exact hleft' p hp

/-- The text stays beside the code. -/
theorem exists_inks_drawText {paragraphs : List (List UInt8)}
    (hfont : font.toFont.Forward kTitlePx kColumnGap (drawn paragraphs)) :
    ∃ S, PanelText.Inks S (drawText font paragraphs) ∧ ∀ p ∈ S, SAFE_AREA.x0 + kQrBox ≤ p.1 := by
  obtain ⟨before, body, after, blocks, hsplit, -, -, hblocks, hdraw⟩ :=
    exists_lays font paragraphs [24, 22, 20, 18] 16 (by decide) (by decide)
  obtain ⟨blocks', hblocks', hwrapped⟩ := exists_blocks font body 0 paragraphs
  obtain rfl := Option.some.inj (hblocks.symm.trans hblocks')
  have hmem : body ∈ bodies := bodies_eq.trans hsplit ▸ List.mem_append_right before List.mem_cons_self
  rw [drawText, bodies_eq, hdraw]
  refine exists_inks_drawLines hfont fun line hl => ?_
  obtain ⟨b, hb, htext, hpx⟩ := exists_block_of_mem_place hl
  obtain ⟨htitle, hbody⟩ := title_le hmem
  refine ⟨?_, hwrapped.subset hb htext⟩
  rw [hpx]
  obtain h | h := hwrapped.px b hb
  · exact h ▸ htitle
  · exact h ▸ hbody

end

end QrLayout

/-! ## The screens -/

section

variable {Pen α : Type} [LE α] [DecidableLE α]

-- `none` where a text is too long for a code, and where no font can be loaded
variable (encodeText : List UInt8 → Option QrCode) (font : Option (QrLayout.Typeface Pen α))

/-- `payload.c_str()` -/
def cStr (s : List UInt8) : List UInt8 := s.takeWhile (· ≠ 0)

/-- What the renderers have in common. -/
def QrLayout.screen (payload : List UInt8) (paragraphs : List (List UInt8)) : Option (List UInt8) := do
  let qr ← encodeText (cStr payload)
  let buffer ← drawQr qr blank
  match font with
  | none => some buffer
  | some font => drawText font paragraphs buffer

namespace RegistrationScreenRenderer

def paragraphs (host serial : List UInt8) : List (List UInt8) :=
  [bytes "Rahmen hinzufügen", bytes "1. QR-Code scannen und bei ShareFrame anmelden",
    bytes "2. Oder auf " ++ host ++ bytes " unter Bilderrahmen hinzufügen: " ++ serial]

def render (url host serial : List UInt8) : Option (List UInt8) :=
  QrLayout.screen encodeText font url (paragraphs host serial)

end RegistrationScreenRenderer

namespace ApNetworkSetupScreenRenderer

/-- How to join by hand. -/
def join (ssid password : List UInt8) : List UInt8 :=
  if password = [] then bytes "mit WLAN " ++ ssid ++ bytes " verbinden"
  else bytes "mit WLAN " ++ ssid ++ bytes " verbinden (Passwort " ++ password ++ bytes ")"

def paragraphs (ssid password url : List UInt8) : List (List UInt8) :=
  [bytes "Rahmen einrichten", bytes "1. QR-Code scannen oder " ++ join ssid password,
    bytes "2. Dashboard öffnet sich automatisch, sonst " ++ url ++
      bytes " aufrufen und mit dem Rahmen-Passwort anmelden"]

def render (ssid password url : List UInt8) : Option (List UInt8) :=
  QrLayout.screen encodeText font (wifiQrPayload ssid password) (paragraphs ssid password url)

theorem mem_escape (s : List UInt8) : 0 ∈ escape s ↔ 0 ∈ s := by
  have hne : (0 : UInt8) ≠ '\\'.toUInt8 := by decide
  induction s with
  | nil => rfl
  | cons c s ih =>
    rw [escape]
    split <;> simp [ih, hne]

/-- The payload is encoded as a whole unless there is a zero in a field. -/
theorem cStr_wifiQrPayload {ssid password : List UInt8} (hssid : 0 ∉ ssid) (hpassword : 0 ∉ password) :
    cStr (wifiQrPayload ssid password) = wifiQrPayload ssid password := by
  have hfixed : 0 ∉ bytes "WIFI:T:nopass;S:" ∧ 0 ∉ bytes "WIFI:T:WPA;S:" ∧ 0 ∉ bytes ";P:" ∧
    0 ∉ bytes ";;" := by decide
  obtain ⟨hopen, hwpa, hfield, hend⟩ := hfixed
  refine List.takeWhile_eq_self_iff.mpr fun b hb => decide_eq_true fun hzero => ?_
  subst hzero
  rw [wifiQrPayload] at hb
  split at hb <;> simp_all [mem_escape]

end ApNetworkSetupScreenRenderer

namespace QrLayout

/-- The code of a payload is on the panel, unless the payload is too long for one. -/
def Shows (payload : List UInt8) (screen : Option (List UInt8)) : Prop :=
  (encodeText (cStr payload) = none → screen = none) ∧
    ∀ qr, encodeText (cStr payload) = some qr → ∃ buffer, screen = some buffer ∧ Scans qr buffer

/-- At the sizes of the text the font, if there is one, leaves these paragraphs beside the code. -/
def Beside (paragraphs : List (List UInt8)) : Prop :=
  ∀ f ∈ font, f.toFont.Forward kTitlePx kColumnGap (drawn paragraphs)

variable {font}

theorem shows_screen {paragraphs : List (List UInt8)} (hfont : Beside font paragraphs)
    (payload : List UInt8) : Shows encodeText payload (screen encodeText font payload paragraphs) := by
  refine ⟨fun hnone => by rw [screen, hnone]; rfl, fun qr hqr => ?_⟩
  cases font with
  | none =>
    obtain ⟨buffer, hbuffer, hscans⟩ := exists_scans qr PanelText.Inks.none
      (fun p hp => absurd hp (Set.notMem_empty p))
    refine ⟨buffer, ?_, hscans⟩
    rw [screen, hqr]
    exact hbuffer
  | some font =>
    obtain ⟨S, hS, hright⟩ := exists_inks_drawText (hfont font rfl)
    obtain ⟨buffer, hbuffer, hscans⟩ := exists_scans qr hS hright
    refine ⟨buffer, ?_, hscans⟩
    rw [screen, hqr]
    exact hbuffer

/-- Both setup screens show their code where the font leaves their texts beside it; the code of the
setup network says the network that was given. -/
theorem screens_show :
    (∀ url host serial, Beside font (RegistrationScreenRenderer.paragraphs host serial) →
      Shows encodeText url (RegistrationScreenRenderer.render encodeText font url host serial)) ∧
    ∀ ssid password url,
      (Beside font (ApNetworkSetupScreenRenderer.paragraphs ssid password url) →
        Shows encodeText (ApNetworkSetupScreenRenderer.wifiQrPayload ssid password)
          (ApNetworkSetupScreenRenderer.render encodeText font ssid password url)) ∧
      (0 ∉ ssid → 0 ∉ password →
        ApNetworkSetupScreenRenderer.parse (cStr (ApNetworkSetupScreenRenderer.wifiQrPayload ssid password)) =
          some (ApNetworkSetupScreenRenderer.network ssid password)) := by
  refine ⟨fun url host serial hfont => shows_screen encodeText hfont url, fun ssid password url =>
    ⟨fun hfont => shows_screen encodeText hfont _, fun hssid hpassword => ?_⟩⟩
  rw [ApNetworkSetupScreenRenderer.cStr_wifiQrPayload hssid hpassword]
  exact ApNetworkSetupScreenRenderer.parse_wifiQrPayload ssid password

theorem beside_monospaced (paragraphs : List (List UInt8)) : Beside (some monospaced) paragraphs := by
  rintro f ⟨⟩
  refine ⟨fun left => Int.le_refl left, fun px x cp rest hpos _ _ _ => ?_, fun px cp glyph _ _ _ h => ?_⟩
  · have hle : x ≤ x + max 0 (px / 2) := by omega
    cases rest <;> exact hle
  · have h : (if cp = PanelText.space then none else some ⟨px / 2, px, 0, -px, fun _ => 255⟩) = some glyph := h
    split at h <;> cases h
    exact Int.neg_nonpos_of_nonneg (by decide)

/-- The corners of every code of the first version. -/
def corners : QrCode where
  version := 1
  version_ok := by decide
  getModule x y := x = 0 ∧ y = 0 ∨ x = 20 ∧ y = 0 ∨ x = 0 ∧ y = 20

theorem screens_show_monospaced :
    Shows (fun _ => some corners) (ApNetworkSetupScreenRenderer.wifiQrPayload (bytes "Rahmen") [])
      (ApNetworkSetupScreenRenderer.render (fun _ => some corners) (some monospaced) (bytes "Rahmen") []
        (bytes "http://10.42.0.1")) ∧
    ApNetworkSetupScreenRenderer.parse
        (cStr (ApNetworkSetupScreenRenderer.wifiQrPayload (bytes "Rahmen") [])) =
      some (ApNetworkSetupScreenRenderer.network (bytes "Rahmen") []) := by
  obtain ⟨hshows, hreads⟩ := (@screens_show _ _ _ _ (fun _ => some corners) (some monospaced)).2
    (bytes "Rahmen") [] (bytes "http://10.42.0.1")
  exact ⟨hshows (beside_monospaced _), hreads (by decide) (by decide)⟩

end QrLayout

end

end ShareFrame
