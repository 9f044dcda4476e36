import ShareFrame.Lib.Words

/-!
# Text on the panel

`panel_text::wrap` fills a line with words as long as they fit, and breaks a word that
does not fit on a line of its own anywhere. What the width of a text is, and how widths
compare, stays open: the lines hold the words of the text, in order, each whole or in
the pieces of a break (`wrap_keeps_text`).
-/

namespace ShareFrame.PanelText

open Words

universe u

/-- A `char32_t`. -/
abbrev CodePoint := UInt32

def space : CodePoint := 0x20

/-- The finished lines and the one that is filled. -/
structure Lines where
  lines : List (List CodePoint) := []
  line : List CodePoint := []
  deriving DecidableEq, Repr

/-- The line with a further word. -/
def Lines.joined (s : Lines) (word : List CodePoint) : List CodePoint :=
  if s.line = [] then word else s.line ++ space :: word

/-- The line is finished, if there is one. -/
def Lines.push (s : Lines) : Lines := if s.line = [] then s else ⟨s.lines ++ [s.line], []⟩

section

variable {α : Type u} [LE α] [DecidableLE α] (width : List CodePoint → α) (maxWidth : α)

def fits (candidate : List CodePoint) : Bool := width candidate ≤ maxWidth

/-- The next character of a word that is broken. -/
def addChar (s : Lines) (c : CodePoint) : Lines :=
  if s.line ≠ [] ∧ !fits width maxWidth (s.line ++ [c]) then ⟨s.lines ++ [s.line], [c]⟩
  else ⟨s.lines, s.line ++ [c]⟩

def addWord (s : Lines) (word : List CodePoint) : Lines :=
  if fits width maxWidth (s.joined word) then ⟨s.lines, s.joined word⟩
  else word.foldl (addChar width maxWidth) s.push

/-- The loop, with the text behind `pos`. -/
def wrapFrom (s : Lines) (text : List CodePoint) : Lines :=
  if text = [] then s
  else
    wrapFrom (addWord width maxWidth s (text.takeWhile (· ≠ space)))
      ((text.dropWhile (· ≠ space)).drop 1)
termination_by text.length
decreasing_by
  have hne : text ≠ [] := by assumption
  have hle : (text.dropWhile (· ≠ space)).length ≤ text.length :=
    (List.dropWhile_sublist _).length_le
  have hpos := List.length_pos_iff.mpr hne
  rw [List.length_drop]
  omega

def wrap (text : List CodePoint) : List (List CodePoint) :=
  (wrapFrom width maxWidth {} text).push.lines

variable {width maxWidth} {s : Lines} {word : List CodePoint} {ws : List (List CodePoint)}

/-! ## Breaking a word -/

variable (width maxWidth) in
/-- Every beginning of the word fits. -/
def Whole (word : List CodePoint) : Prop := ∀ front, front <+: word → fits width maxWidth front

variable (width maxWidth) in
/-- A line that fits, or of one character. -/
def LineOk (line : List CodePoint) : Prop := fits width maxWidth line ∨ line.length = 1

/-- A word that is broken from a line on: its pieces make up the word, and there is one piece where
all beginnings fit. -/
theorem exists_pieces (s : Lines) (word : List CodePoint)
    (hline : s.line = [] ∨ LineOk width maxWidth s.line) :
    ∃ pieces last, word.foldl (addChar width maxWidth) s = ⟨s.lines ++ pieces, last⟩ ∧
      pieces.flatten ++ last = s.line ++ word ∧
      (∀ piece ∈ pieces, piece ≠ [] ∧ LineOk width maxWidth piece) ∧
      (s.line ++ word ≠ [] → last ≠ [] ∧ LineOk width maxWidth last) ∧
      (Whole width maxWidth (s.line ++ word) → pieces = []) := by
  induction word generalizing s with
  | nil =>
    refine ⟨[], s.line, ?_, ?_, List.forall_mem_nil _, fun hne => ?_, fun _ => rfl⟩
    · rw [List.append_nil]
      rfl
    · rw [List.append_nil]
      rfl
    · rw [List.append_nil] at hne
      exact ⟨hne, hline.resolve_left hne⟩
  | cons c word ih =>
    rw [List.foldl_cons, addChar]
    by_cases hbreak : s.line ≠ [] ∧ (!fits width maxWidth (s.line ++ [c])) = true
    · obtain ⟨pieces, last, heq, hflatten, hpieces, hlast, -⟩ :=
        ih ⟨s.lines ++ [s.line], [c]⟩ (.inr (.inr rfl))
      rw [if_pos hbreak]
      refine ⟨s.line :: pieces, last, ?_, ?_, ?_, fun _ => hlast (List.cons_ne_nil _ _),
        fun hwhole => ?_⟩
      · rw [heq, List.append_assoc]
        rfl
      · rw [List.flatten_cons, List.append_assoc, hflatten]
        rfl
      · exact List.forall_mem_cons.mpr ⟨⟨hbreak.1, hline.resolve_left hbreak.1⟩, hpieces⟩
      · have hfits := hwhole (s.line ++ [c]) ⟨word, by rw [List.append_assoc]; rfl⟩
        rw [hfits] at hbreak
        exact absurd hbreak.2 (by decide)
    · rw [if_neg hbreak]
      have hline' : LineOk width maxWidth (s.line ++ [c]) := by
        by_cases hnil : s.line = []
        · exact .inr (by rw [hnil]; rfl)
        · exact .inl (by simpa [hnil] using hbreak)
      have happend : s.line ++ [c] ++ word = s.line ++ c :: word := by
        rw [List.append_assoc]
        rfl
      obtain ⟨pieces, last, heq, hflatten, hpieces, hlast, hwhole⟩ :=
        ih ⟨s.lines, s.line ++ [c]⟩ (.inr hline')
      simp only [happend] at hflatten hlast hwhole
      exact ⟨pieces, last, heq, hflatten, hpieces, hlast, hwhole⟩

/-! ## Filling the lines -/

variable (width maxWidth) in
/-- The lines hold these words, whole or in pieces. -/
structure Holds (s : Lines) (ws : List (List CodePoint)) : Prop where
  pieces : ∃ pieces : List (List (List CodePoint)), pieces.map List.flatten = ws ∧
    (∀ p ∈ pieces, Whole width maxWidth p.flatten → p = [p.flatten]) ∧
    (s.lines ++ [s.line]).flatMap (words space) = pieces.flatten
  lines : ∀ l ∈ s.lines, LineOk width maxWidth l
  line : s.line = [] ∨ LineOk width maxWidth s.line

theorem flatMap_push (s : Lines) :
    (s.push.lines ++ [s.push.line]).flatMap (words space) =
      (s.lines ++ [s.line]).flatMap (words space) := by
  rw [Lines.push]
  split
  · rfl
  · simp only [List.flatMap_append, List.flatMap_cons, List.flatMap_nil, words_nil, List.append_nil]

theorem Holds.push (h : Holds width maxWidth s ws) : Holds width maxWidth s.push ws := by
  obtain ⟨pieces, hws, hwhole, hwords⟩ := h.pieces
  refine ⟨⟨pieces, hws, hwhole, (flatMap_push s).trans hwords⟩, ?_, ?_⟩
  · rw [Lines.push]
    split
    · exact h.lines
    next hne =>
      intro l hl
      obtain hl | hl := List.mem_append.mp hl
      · exact h.lines l hl
      · rw [List.mem_singleton.mp hl]
        exact h.line.resolve_left hne
  · rw [Lines.push]
    split
    · exact h.line
    · exact .inl rfl

/-- Further lines with the pieces of one more word. -/
theorem Holds.append (h : Holds width maxWidth s ws) (s' : Lines)
    (pieces : List (List CodePoint)) (hwhole : Whole width maxWidth pieces.flatten →
      pieces = [pieces.flatten])
    (hwords : (s'.lines ++ [s'.line]).flatMap (words space) =
      (s.lines ++ [s.line]).flatMap (words space) ++ pieces)
    (hlines : ∀ l ∈ s'.lines, LineOk width maxWidth l)
    (hline : s'.line = [] ∨ LineOk width maxWidth s'.line) :
    Holds width maxWidth s' (ws ++ [pieces.flatten]) := by
  obtain ⟨before, hws, hbefore, hwords'⟩ := h.pieces
  refine ⟨⟨before ++ [pieces], ?_, fun p hp => ?_, ?_⟩, hlines, hline⟩
  · rw [List.map_append, hws]
    rfl
  · obtain hp | hp := List.mem_append.mp hp
    · exact hbefore p hp
    · rw [List.mem_singleton.mp hp]
      exact hwhole
  · rw [hwords, hwords', List.flatten_append, List.flatten_singleton]

/-- The words of a line and one more. -/
theorem words_joined (s : Lines) (hsep : space ∉ word) :
    words space (s.joined word) = words space s.line ++ [word].filter (· ≠ []) := by
  rw [← words_of_notMem hsep, Lines.joined]
  split
  next hnil => rw [hnil, words_nil, List.nil_append]
  next => exact words_append_cons s.line word

/-- A word that joins the line. -/
theorem Holds.joined (h : Holds width maxWidth s ws) (hsep : space ∉ word)
    (hfits : fits width maxWidth (s.joined word)) :
    Holds width maxWidth ⟨s.lines, s.joined word⟩ (ws ++ [word].filter (· ≠ [])) := by
  have hjoined := words_joined s hsep
  by_cases hne : word = []
  · subst hne
    obtain ⟨pieces, hws, hwhole, hwords⟩ := h.pieces
    refine ⟨⟨pieces, hws.trans (List.append_nil ws).symm, hwhole, ?_⟩, h.lines, .inr (.inl hfits)⟩
    rw [← hwords, List.flatMap_append, List.flatMap_append, List.flatMap_singleton,
      List.flatMap_singleton]
    exact congrArg _ (hjoined.trans (List.append_nil _))
  · have hone : [word].filter (· ≠ []) = [word] := List.filter_cons_of_pos (by simpa using hne)
    rw [hone] at hjoined ⊢
    have hlast := h.append ⟨s.lines, s.joined word⟩ [word] (fun _ => ?_) ?_
      h.lines (.inr (.inl hfits))
    · rwa [List.flatten_singleton] at hlast
    · rw [List.flatten_singleton]
    · rw [List.flatMap_append, List.flatMap_append, List.flatMap_singleton, List.flatMap_singleton,
        List.append_assoc]
      exact congrArg _ hjoined

theorem push_line (s : Lines) : s.push.line = [] := by
  rw [Lines.push]
  split
  · assumption
  · rfl

/-- A word that is broken on lines of its own. -/
theorem Holds.broken (h : Holds width maxWidth s ws) (hsep : space ∉ word) :
    Holds width maxWidth (word.foldl (addChar width maxWidth) s.push)
      (ws ++ [word].filter (· ≠ [])) := by
  have hpush := h.push
  by_cases hne : word = []
  · subst hne
    rw [show [([] : List CodePoint)].filter (· ≠ []) = [] from rfl, List.append_nil]
    exact hpush
  · obtain ⟨pieces, last, heq, hflatten, hpieces, hlast, hwhole⟩ :=
      exists_pieces s.push word hpush.line
    rw [push_line, List.nil_append] at hflatten hlast hwhole
    obtain ⟨hlastne, hlastok⟩ := hlast hne
    have hall : (pieces ++ [last]).flatten = word := by
      rw [List.flatten_append, List.flatten_singleton, hflatten]
    have hself : (pieces ++ [last]).flatMap (words space) = pieces ++ [last] := by
      refine flatMap_words fun piece hpiece => ⟨fun hmem => hsep ?_, ?_⟩
      · rw [← hall]
        exact List.mem_flatten_of_mem hpiece hmem
      · obtain hpiece | hpiece := List.mem_append.mp hpiece
        · exact (hpieces piece hpiece).1
        · rw [List.mem_singleton.mp hpiece]
          exact hlastne
    have hone : [word].filter (· ≠ []) = [word] := List.filter_cons_of_pos (by simpa using hne)
    rw [heq, hone, ← hall]
    refine hpush.append _ _ (fun hfits => ?_) ?_ ?_ (.inr hlastok)
    · rw [hall] at hfits
      rw [hwhole hfits, List.nil_append, List.flatten_singleton]
    · rw [List.append_assoc, List.flatMap_append, hself, List.flatMap_append, push_line,
        List.flatMap_singleton, words_nil, List.append_nil]
    · exact List.forall_mem_append.mpr ⟨hpush.lines, fun l hl => (hpieces l hl).2⟩

theorem Holds.addWord (h : Holds width maxWidth s ws) (hsep : space ∉ word) :
    Holds width maxWidth (addWord width maxWidth s word) (ws ++ [word].filter (· ≠ [])) := by
  rw [PanelText.addWord]
  split
  next hfits => exact h.joined hsep hfits
  next => exact h.broken hsep

/-- The first word, and what is behind the space that ends it. -/
theorem words_first (text : List CodePoint) :
    space ∉ text.takeWhile (· ≠ space) ∧
      words space text = [text.takeWhile (· ≠ space)].filter (· ≠ []) ++
        words space ((text.dropWhile (· ≠ space)).drop 1) := by
  have hsep : space ∉ text.takeWhile (· ≠ space) := by
    intro hmem
    have hall := List.all_eq_true.mp (List.all_takeWhile (p := (· ≠ space)) (l := text)) space hmem
    simp at hall
  refine ⟨hsep, ?_⟩
  have hsplit := List.takeWhile_append_dropWhile (p := (· ≠ space)) (l := text)
  have hhead := List.head?_dropWhile_not (· ≠ space) text
  rw [← words_of_notMem hsep]
  cases hdrop : text.dropWhile (· ≠ space) with
  | nil =>
    rw [hdrop, List.append_nil] at hsplit
    rw [hsplit, List.drop_nil, words_nil, List.append_nil]
  | cons c rest =>
    rw [hdrop] at hsplit hhead
    obtain rfl : c = space := by simpa using hhead
    rw [List.drop_one, List.tail_cons, ← words_append_cons, hsplit]

/-- The words of the text that is left. -/
theorem Holds.wrapFrom (h : Holds width maxWidth s ws) (text : List CodePoint) :
    Holds width maxWidth (wrapFrom width maxWidth s text) (ws ++ words space text) := by
  induction s, text using wrapFrom.induct width maxWidth generalizing ws with
  | case1 s =>
    rw [PanelText.wrapFrom, if_pos rfl, words_nil, List.append_nil]
    exact h
  | case2 s text hne ih =>
    obtain ⟨hsep, hwords⟩ := words_first text
    rw [PanelText.wrapFrom, if_neg hne, hwords, ← List.append_assoc]
    exact ih (h.addWord hsep)

variable (width maxWidth) in
theorem holds_wrap (text : List CodePoint) :
    Holds width maxWidth ⟨wrap width maxWidth text, []⟩ (words space text) := by
  have hstart : Holds width maxWidth {} [] :=
    ⟨⟨[], rfl, List.forall_mem_nil _, by simp⟩, List.forall_mem_nil _, .inl rfl⟩
  have hend := (hstart.wrapFrom text).push
  rw [List.nil_append] at hend
  have hlines : (PanelText.wrapFrom width maxWidth {} text).push = ⟨wrap width maxWidth text, []⟩ :=
    congrArg (Lines.mk _) (push_line _)
  rwa [hlines] at hend

/-- A text that does not get narrower at its end: where it fits, its beginnings do. -/
theorem whole_of_fits (htrans : ∀ a b c : α, a ≤ b → b ≤ c → a ≤ c)
    (hwidth : ∀ text c, width text ≤ width (text ++ [c])) (h : width word ≤ maxWidth) :
    Whole width maxWidth word := by
  have hle : ∀ more front, width (front ++ more) ≤ maxWidth → width front ≤ maxWidth := by
    intro more
    induction more with
    | nil => exact fun front hfront => List.append_nil front ▸ hfront
    | cons c more ih =>
      intro front hfront
      refine htrans _ _ _ (hwidth front c) (ih (front ++ [c]) ?_)
      rwa [List.append_assoc]
  rintro front ⟨more, rfl⟩
  exact decide_eq_true (hle more front h)

/-- The lines are the text but for its spaces, and each fits or is one character; where a text does
not get narrower at its end, their words are those of the text, each whole if it fits on a line. -/
theorem wrap_keeps_text (width : List CodePoint → α) (maxWidth : α) (text : List CodePoint) :
    (wrap width maxWidth text).flatten.filter (· ≠ space) = text.filter (· ≠ space) ∧
    (∀ line ∈ wrap width maxWidth text, width line ≤ maxWidth ∨ line.length = 1) ∧
    ((∀ a b c : α, a ≤ b → b ≤ c → a ≤ c) → (∀ text c, width text ≤ width (text ++ [c])) →
      ∃ pieces : List (List (List CodePoint)), pieces.map List.flatten = words space text ∧
        (∀ p ∈ pieces, width p.flatten ≤ maxWidth → p = [p.flatten]) ∧
        (wrap width maxWidth text).flatMap (words space) = pieces.flatten) := by
  have hholds := holds_wrap width maxWidth text
  obtain ⟨pieces, hws, hwhole, hwords⟩ := hholds.pieces
  rw [List.flatMap_append, List.flatMap_singleton, words_nil, List.append_nil] at hwords
  refine ⟨?_, fun line hline => ?_, fun htrans hwidth =>
    ⟨pieces, hws, fun p hp hfits => ?_, hwords⟩⟩
  · rw [← flatten_flatMap_words, hwords, ← flatten_words text, ← hws, List.flatten_flatten]
  · exact (hholds.lines line hline).imp_left of_decide_eq_true
  · exact hwhole p hp (whole_of_fits htrans hwidth hfits)

end

end ShareFrame.PanelText
