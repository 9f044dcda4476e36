import Mathlib.Algebra.Field.Rat
import Mathlib.Algebra.Order.Ring.Rat
import Mathlib.Tactic.NormNum.Ineq
import ShareFrame.Lib.Bits
import ShareFrame.Lib.Diffusion

/-!
# Dithering a photo

The end of `PhotoRenderer::render`: serpentine Floyd–Steinberg over the grey image, over
exact numbers, and packing into the buffer of the panel. Odd rows run from right to
left with the kernel mirrored. The loops are a scan of error diffusion (`dither_eq`)
whose kernel points forward (`forward_scanOrder`), for any width and height.
-/

namespace ShareFrame.PhotoRenderer

open Diffusion
open Bits (bit)

/-- `gray`, and *ghost* what was done to it. -/
abbrev Gray := Diffusion.State Nat Rat

variable (width height : Nat)

/-! ## The loops -/

def quantise (oldPixel : Rat) : Rat := if 255 / 2 < oldPixel then 255 else 0

def direction (y : Nat) : Int := if y % 2 = 1 then -1 else 1

/-- The column of the `i`-th pixel of a row. -/
def column (y i : Nat) : Nat := if y % 2 = 1 then width - 1 - i else i

/-- The index of the pixel at `(nx, ny)`, if it lies in the image. -/
def inside (nx ny : Int) : Option Nat :=
  if 0 ≤ nx ∧ nx < width ∧ 0 ≤ ny ∧ ny < height then some (ny * width + nx).toNat else none

/-- `distribute`; outside of the image the error is dropped. -/
def distribute (x y : Nat) (error : Rat) (s : Gray) (dx dy : Int) (factor : Rat) : Gray :=
  spread error s (inside width height (x + dx * direction y) (y + dy), factor)

/-- The inner loop's body. -/
def ditherPixel (s : Gray) (y i : Nat) : Gray :=
  let x := column width y i
  let idx := y * width + x
  let oldPixel := s.value idx
  let newPixel := quantise oldPixel
  let s := settle s idx newPixel
  let error := oldPixel - newPixel
  let s := distribute width height x y error s 1 0 (7 / 16)
  let s := distribute width height x y error s (-1) 1 (3 / 16)
  let s := distribute width height x y error s 0 1 (5 / 16)
  distribute width height x y error s 1 1 (1 / 16)

/-- Both loops. -/
def dither (gray : Nat → Rat) : Gray :=
  (List.range height).foldl
    (fun s y => (List.range width).foldl (fun s i => ditherPixel width height s y i) s)
    { value := gray, dropped := 0, quantised := [], log := [] }

/-- A bit of the buffer is set; `none` where the index lies outside. -/
def setWhite (buffer : List UInt8) (i : Nat) : Option (List UInt8) :=
  if i / 8 < buffer.length then
    some (buffer.modify (i / 8) (· ||| (0x80 >>> UInt8.ofNat (i % 8))))
  else none

/-- The last loop. -/
def pack (gray : Nat → Rat) : Option (List UInt8) :=
  (List.range (width * height)).foldlM
    (fun buffer i => if 255 / 2 < gray i then setWhite buffer i else some buffer)
    (List.replicate (width * height / 8) 0)

/-! ## The scan -/

/-- What a pixel at `(x, y)` adds to, with the factors. -/
def around (x y : Nat) : List (Option Nat × Rat) :=
  [(inside width height (x + 1 * direction y) (y + 0), 7 / 16),
    (inside width height (x + -1 * direction y) (y + 1), 3 / 16),
    (inside width height (x + 0 * direction y) (y + 1), 5 / 16),
    (inside width height (x + 1 * direction y) (y + 1), 1 / 16)]

def kernel (idx : Nat) : List (Option Nat × Rat) := around width height (idx % width) (idx / width)

/-- The index of the `i`-th pixel of a row. -/
def index (y i : Nat) : Nat := y * width + column width y i

/-- The rows and the pixels in them, in the order of the loops. -/
def pixels : List (Nat × Nat) :=
  (List.range height).flatMap fun y => (List.range width).map fun i => (y, i)

def scanOrder : List Nat := (pixels width height).map fun p => index width p.1 p.2

variable {width height} {x y i : Nat} {s : Gray}

theorem column_lt (h : i < width) : column width y i < width := by
  unfold column
  split <;> omega

theorem column_column (h : i < width) : column width y (column width y i) = i := by
  unfold column
  split <;> omega

theorem index_div (h : i < width) : index width y i / width = y := by
  have hx : column width y i < width := column_lt h
  rw [index, Nat.mul_comm, Nat.mul_add_div (by omega), Nat.div_eq_of_lt hx, Nat.add_zero]

theorem index_mod (h : i < width) : index width y i % width = column width y i := by
  rw [index, Nat.mul_comm, Nat.mul_add_mod, Nat.mod_eq_of_lt (column_lt h)]

theorem kernel_index (h : i < width) :
    kernel width height (index width y i) = around width height (column width y i) y := by
  rw [kernel, index_div h, index_mod h]

theorem ditherPixel_eq (h : i < width) :
    ditherPixel width height s y i =
      visit quantise (kernel width height) s (index width y i) := by
  rw [visit, kernel_index h]
  rfl

/-- The loops are a scan. -/
theorem dither_eq (gray : Nat → Rat) :
    dither width height gray = scan quantise (kernel width height) (scanOrder width height)
      { value := gray, dropped := 0, quantised := [], log := [] } := by
  rw [dither, scan, scanOrder, pixels, List.foldl_map, List.foldl_flatMap]
  refine List.foldl_ext _ _ _ fun s y _ => ?_
  rw [List.foldl_map]
  refine List.foldl_ext _ _ _ fun s i hi => ?_
  exact ditherPixel_eq (List.mem_range.mp hi)

/-! ## The kernel points forward -/

theorem mem_pixels {p : Nat × Nat} : p ∈ pixels width height ↔ p.1 < height ∧ p.2 < width := by
  simp only [pixels, List.mem_flatMap, List.mem_range, List.mem_map]
  constructor
  · rintro ⟨y, hy, i, hi, rfl⟩
    exact ⟨hy, hi⟩
  · rintro ⟨hy, hi⟩
    exact ⟨p.1, hy, p.2, hi, rfl⟩

/-- The order of the loops. -/
def Earlier (p q : Nat × Nat) : Prop := p.1 < q.1 ∨ p.1 = q.1 ∧ p.2 < q.2

theorem pixels_ascending : (pixels width height).Pairwise Earlier := by
  refine List.pairwise_flatMap.mpr ⟨fun y _ => ?_, ?_⟩
  · exact List.pairwise_map.mpr (List.pairwise_lt_range.imp fun hlt => .inr ⟨rfl, hlt⟩)
  · refine List.pairwise_lt_range.imp fun hlt p hp q hq => ?_
    obtain ⟨i, -, rfl⟩ := List.mem_map.mp hp
    obtain ⟨j, -, rfl⟩ := List.mem_map.mp hq
    exact .inl hlt

theorem index_inj {p q : Nat × Nat} (hp : p.2 < width) (hq : q.2 < width)
    (h : index width p.1 p.2 = index width q.1 q.2) : p = q := by
  have hrow := congrArg (· / width) h
  have hcolumn := congrArg (· % width) h
  simp only [index_div hp, index_div hq] at hrow
  simp only [index_mod hp, index_mod hq, hrow] at hcolumn
  have hback := congrArg (column width q.1) hcolumn
  rw [column_column hp, column_column hq] at hback
  exact Prod.ext hrow hback

/-- A neighbour in the image is one of its pixels. -/
theorem inside_eq_some {nx ny : Int} {n : Nat} (h : inside width height nx ny = some n) :
    ∃ x y : Nat, nx = x ∧ ny = y ∧ x < width ∧ y < height ∧
      n = index width y (column width y x) := by
  obtain ⟨⟨hx, hx', hy, hy'⟩, hn⟩ := Option.ite_none_right_eq_some.mp h
  obtain ⟨x, rfl⟩ := Int.eq_ofNat_of_zero_le hx
  obtain ⟨y, rfl⟩ := Int.eq_ofNat_of_zero_le hy
  have hlt : x < width := Int.ofNat_lt.mp hx'
  refine ⟨x, y, rfl, rfl, hlt, Int.ofNat_lt.mp hy', ?_⟩
  rw [index, column_column hlt, ← Option.some.inj hn]
  exact Int.toNat_natCast (y * width + x)

/-- A pixel adds to pixels behind it. -/
theorem mem_targets {n : Nat} (hi : i < width)
    (h : n ∈ targets (kernel width height) (index width y i)) :
    ∃ q ∈ pixels width height, n = index width q.1 q.2 ∧ Earlier (y, i) q := by
  rw [targets, kernel_index hi] at h
  obtain ⟨t, ht, hn⟩ := List.mem_filterMap.mp h
  simp only [around, List.mem_cons, List.not_mem_nil, or_false] at ht
  obtain rfl | ht := ht
  · -- the next pixel of the row
    obtain ⟨nx, ny, hnx, hny, hx, hy, rfl⟩ := inside_eq_some hn
    obtain rfl : ny = y := by omega
    have hnext : column width ny nx = i + 1 := by
      unfold column direction at *
      split at hnx <;> split <;> omega
    rw [hnext]
    have hlt : i + 1 < width := by
      rw [← hnext]
      exact column_lt hx
    exact ⟨(ny, i + 1), mem_pixels.mpr ⟨hy, hlt⟩, rfl, .inr ⟨rfl, Nat.lt_succ_self i⟩⟩
  · -- a pixel of the next row
    have hbelow : ∃ nx : Int, inside width height nx (y + 1) = some n := by
      obtain rfl | rfl | rfl := ht
      · exact ⟨_, hn⟩
      · exact ⟨_, hn⟩
      · exact ⟨_, hn⟩
    obtain ⟨_, hn⟩ := hbelow
    obtain ⟨nx, ny, -, hny, hx, hy, rfl⟩ := inside_eq_some hn
    refine ⟨(ny, column width ny nx), mem_pixels.mpr ⟨hy, column_lt hx⟩, rfl, .inl ?_⟩
    show y < ny
    omega

theorem forward_scanOrder : Forward (kernel width height) (scanOrder width height) := by
  have hnot {p q : Nat × Nat} (hp : p ∈ pixels width height) (hq : q ∈ pixels width height)
      (h : ¬ Earlier q p) :
      index width p.1 p.2 ∉ targets (kernel width height) (index width q.1 q.2) := by
    intro hmem
    obtain ⟨r, hr, heq, hearlier⟩ := mem_targets (mem_pixels.mp hq).2 hmem
    rw [index_inj (mem_pixels.mp hp).2 (mem_pixels.mp hr).2 heq] at h
    exact h hearlier
  refine ⟨fun n hn => ?_, ?_⟩
  · obtain ⟨p, hp, rfl⟩ := List.mem_map.mp hn
    refine hnot hp hp ?_
    unfold Earlier
    omega
  · refine List.pairwise_map.mpr (pixels_ascending.imp_of_mem fun {p q} hp hq hlt => hnot hp hq ?_)
    unfold Earlier at *
    omega

theorem mem_scanOrder {n : Nat} : n ∈ scanOrder width height ↔ n < width * height := by
  constructor
  · intro h
    obtain ⟨p, hp, rfl⟩ := List.mem_map.mp h
    obtain ⟨hy, hi⟩ := mem_pixels.mp hp
    have hx : column width p.1 p.2 < width := column_lt hi
    calc index width p.1 p.2 < p.1 * width + width := Nat.add_lt_add_left hx _
      _ = (p.1 + 1) * width := (Nat.succ_mul ..).symm
      _ ≤ height * width := Nat.mul_le_mul_right _ hy
      _ = width * height := Nat.mul_comm ..
  · intro h
    have hpos : 0 < width := Nat.pos_of_mul_pos_right (Nat.zero_lt_of_lt h)
    have hx : n % width < width := Nat.mod_lt _ hpos
    refine List.mem_map.mpr ⟨(n / width, column width (n / width) (n % width)), mem_pixels.mpr
      ⟨Nat.div_lt_of_lt_mul h, column_lt hx⟩, ?_⟩
    show index width (n / width) (column width (n / width) (n % width)) = n
    rw [index, column_column hx, Nat.mul_comm, Nat.div_add_mod]

theorem nodup_scanOrder : (scanOrder width height).Nodup := by
  refine List.pairwise_map.mpr (pixels_ascending.imp_of_mem fun {p q} hp hq hlt heq => ?_)
  rw [index_inj (mem_pixels.mp hp).2 (mem_pixels.mp hq).2 heq] at hlt
  unfold Earlier at hlt
  omega

/-! ## The packed bits -/

/-- One bit is set, and the others stay. -/
theorem setWhite_of_lt {buffer : List UInt8} (h : i / 8 < buffer.length) :
    ∃ buffer', setWhite buffer i = some buffer' ∧ buffer'.length = buffer.length ∧
      ∀ j, bit buffer' j = (bit buffer j || decide (i = j)) := by
  refine ⟨_, if_pos h, List.length_modify .., fun j => ?_⟩
  refine (Bits.bit_set (show i < 8 * buffer.length by omega) j).trans ?_
  by_cases hij : i = j
  · rw [if_pos hij, decide_eq_true hij, Bool.or_true]
  · rw [if_neg hij, decide_eq_false hij, Bool.or_false]

theorem exists_pack (gray : Nat → Rat) (h : 8 ∣ width * height) :
    ∃ buffer, pack width height gray = some buffer ∧ buffer.length = width * height / 8 ∧
      ∀ i < width * height, bit buffer i = decide (255 / 2 < gray i) := by
  have hloop : ∀ n ≤ width * height, ∃ buffer,
      (List.range n).foldlM
        (fun buffer i => if 255 / 2 < gray i then setWhite buffer i else some buffer)
        (List.replicate (width * height / 8) 0) = some buffer ∧
      buffer.length = width * height / 8 ∧
      ∀ i, bit buffer i = (decide (i < n) && decide (255 / 2 < gray i)) := by
    intro n hn
    induction n with
    | zero =>
      refine ⟨_, rfl, List.length_replicate, fun i => ?_⟩
      have hzero : (List.replicate (width * height / 8) (0 : UInt8))[i / 8]?.getD 0 = 0 := by
        rw [List.getElem?_replicate]
        split <;> rfl
      rw [bit, hzero, UInt8.toNat_zero, Nat.zero_testBit]
      simp
    | succ n ih =>
      obtain ⟨buffer, heq, hlength, hbits⟩ := ih (by omega)
      rw [List.range_succ, List.foldlM_append, heq]
      simp only [Option.bind_eq_bind, Option.bind_some, List.foldlM_cons, List.foldlM_nil]
      have hone (i : Nat) : (i < n + 1) ↔ (i < n ∨ n = i) := by omega
      by_cases hwhite : 255 / 2 < gray n
      · have hlt : n / 8 < buffer.length := by omega
        obtain ⟨buffer', heq', hlength', hbits'⟩ := setWhite_of_lt hlt
        rw [if_pos hwhite, heq']
        refine ⟨buffer', rfl, hlength'.trans hlength, fun i => ?_⟩
        rw [hbits', hbits, Bool.eq_iff_iff]
        simp only [Bool.or_eq_true, Bool.and_eq_true, decide_eq_true_eq, hone]
        constructor
        · rintro (⟨hi, hgray⟩ | rfl)
          · exact ⟨.inl hi, hgray⟩
          · exact ⟨.inr rfl, hwhite⟩
        · rintro ⟨hi | rfl, hgray⟩
          · exact .inl ⟨hi, hgray⟩
          · exact .inr rfl
      · rw [if_neg hwhite]
        refine ⟨buffer, rfl, hlength, fun i => ?_⟩
        rw [hbits, Bool.eq_iff_iff]
        simp only [Bool.and_eq_true, decide_eq_true_eq, hone]
        constructor
        · rintro ⟨hi, hgray⟩
          exact ⟨.inl hi, hgray⟩
        · rintro ⟨hi | rfl, hgray⟩
          · exact ⟨hi, hgray⟩
          · exact absurd hgray hwhite
  obtain ⟨buffer, heq, hlength, hbits⟩ := hloop _ (Nat.le_refl _)
  refine ⟨buffer, heq, hlength, fun i hi => ?_⟩
  rw [hbits, decide_eq_true hi, Bool.true_and]

/-! ## Main result -/

theorem quantise_cases (v : Rat) : quantise v = 0 ∨ quantise v = 255 := by
  unfold quantise
  split
  · exact .inr rfl
  · exact .inl rfl

/-- The factors make up the whole error. -/
theorem sum_around (x y : Nat) : ((around width height x y).map Prod.snd).sum = 1 := by
  simp only [around, List.map_cons, List.map_nil, List.sum_cons, List.sum_nil]
  norm_num

theorem mem_targets_scanOrder {n p : Nat} (hp : p ∈ scanOrder width height)
    (h : n ∈ targets (kernel width height) p) : n ∈ scanOrder width height := by
  obtain ⟨q, hq, rfl⟩ := List.mem_map.mp hp
  obtain ⟨r, hr, rfl, -⟩ := mem_targets (mem_pixels.mp hq).2 h
  exact List.mem_map_of_mem hr

theorem quantised_dither (gray : Nat → Rat) :
    (dither width height gray).quantised.map Prod.fst = scanOrder width height := by
  rw [dither_eq, quantised_scan]
  rfl

theorem value_dither {gray : Nat → Rat} {x : Nat × Rat}
    (hx : x ∈ (dither width height gray).quantised) :
    (dither width height gray).value x.1 = x.2 ∧ (x.2 = 0 ∨ x.2 = 255) := by
  rw [dither_eq] at hx ⊢
  obtain hx | ⟨hvalue, v, hv⟩ := value_of_quantised forward_scanOrder nodup_scanOrder hx
  · cases hx
  · exact ⟨hvalue, hv ▸ quantise_cases v⟩

theorem total_dither (gray : Nat → Rat) :
    ∑ p ∈ Finset.range (width * height), (dither width height gray).value p +
      (dither width height gray).dropped = ∑ p ∈ Finset.range (width * height), gray p := by
  have hrange : ∀ p ∈ scanOrder width height, p ∈ Finset.range (width * height) :=
    fun p hp => Finset.mem_range.mpr (mem_scanOrder.mp hp)
  have htotal : total _ (scan quantise (kernel width height) (scanOrder width height)
      { value := gray, dropped := 0, quantised := [], log := [] }) = _ :=
    total_scan hrange (fun p hp q hq => hrange q (mem_targets_scanOrder hp hq))
      (fun p _ => sum_around ..)
  rw [← dither_eq] at htotal
  exact htotal.trans (add_zero _)

/-- Every pixel is quantised once, to black or white, and keeps that; errors go to pixels of the
image that are still to be visited, or are dropped; nothing else is lost, and nothing is dropped
where all four neighbours are there; and the bits of the buffer are the white pixels. -/
theorem dither_spec (width height : Nat) (gray : Nat → Rat) :
    ((dither width height gray).quantised.map Prod.fst).Perm (List.range (width * height)) ∧
    (∀ p v, (p, v) ∈ (dither width height gray).quantised →
      (dither width height gray).value p = v ∧ (v = 0 ∨ v = 255)) ∧
    (∀ front p back, (dither width height gray).log = front ++ .added p :: back →
      p < width * height ∧ .quantised p ∉ front) ∧
    ∑ p ∈ Finset.range (width * height), (dither width height gray).value p +
        (dither width height gray).dropped = ∑ p ∈ Finset.range (width * height), gray p ∧
    (∀ (s : Gray) y i, i < width →
      (∀ t ∈ around width height (column width y i) y, t.1 ≠ none) →
      (ditherPixel width height s y i).dropped = s.dropped) ∧
    (8 ∣ width * height → ∃ buffer,
      pack width height (dither width height gray).value = some buffer ∧
      buffer.length = width * height / 8 ∧
      ∀ p < width * height,
        (bit buffer p = true ↔ (p, 255) ∈ (dither width height gray).quantised)) := by
  refine ⟨?_, fun p v h => value_dither h, fun front p back hlog => ?_, total_dither gray,
    fun s y i hi hinside => ?_, fun hdvd => ?_⟩
  · rw [quantised_dither, List.perm_ext_iff_of_nodup nodup_scanOrder List.nodup_range]
    exact fun p => mem_scanOrder.trans List.mem_range.symm
  · rw [dither_eq, log_scan, List.nil_append] at hlog
    obtain ⟨hfront, q, hq, hp⟩ := not_quantised_of_added forward_scanOrder hlog
    exact ⟨mem_scanOrder.mp (mem_targets_scanOrder hq hp), hfront⟩
  · rw [ditherPixel_eq hi]
    refine dropped_visit ?_
    rwa [kernel_index hi]
  · obtain ⟨buffer, heq, hlength, hbits⟩ := exists_pack (dither width height gray).value hdvd
    refine ⟨buffer, heq, hlength, fun p hp => ?_⟩
    rw [hbits p hp, decide_eq_true_eq]
    constructor
    · intro hwhite
      have hmem : p ∈ (dither width height gray).quantised.map Prod.fst := by
        rw [quantised_dither]
        exact mem_scanOrder.mpr hp
      obtain ⟨x, hx, rfl⟩ := List.mem_map.mp hmem
      obtain ⟨hvalue, hblack | hx255⟩ := value_dither hx
      · rw [hvalue, hblack] at hwhite
        norm_num at hwhite
      · rw [← hx255]
        exact hx
    · intro hmem
      rw [(value_dither hmem).1]
      norm_num

end ShareFrame.PhotoRenderer
