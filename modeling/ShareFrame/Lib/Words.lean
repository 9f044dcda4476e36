import Mathlib.Tactic.Common

/-!
# Words of a text

The runs of a text between the separators, without the empty ones. They are the
text without its separators (`flatten_words`), and a separator parts them
(`words_append_cons`). What is in front of the first separator of a text, or behind the
last one, is determined (`append_cons_inj_first`, `append_cons_inj_last`).
-/

namespace Words

universe u

variable {α : Type u} [DecidableEq α] {sep : α}

/-- The words of a text, in order. -/
def words (sep : α) (text : List α) : List (List α) := (text.splitOn sep).filter (· ≠ [])

@[simp] theorem words_nil : words sep [] = [] := by
  rw [words, List.splitOn_nil]
  rfl

theorem words_append_cons (xs ys : List α) :
    words sep (xs ++ sep :: ys) = words sep xs ++ words sep ys := by
  rw [words, List.splitOn_append_cons_self, List.filter_append]
  rfl

/-- A word is its only word. -/
theorem words_of_notMem {w : List α} (h : sep ∉ w) :
    words sep w = [w].filter (· ≠ []) := by
  rw [words, List.splitOn_eq_singleton h]

theorem words_singleton {w : List α} (h : sep ∉ w) (hne : w ≠ []) : words sep w = [w] := by
  rw [words_of_notMem h, List.filter_cons_of_pos (by simpa using hne), List.filter_nil]

/-- Nothing but the separators is lost. -/
theorem flatten_splitOn (text : List α) : (text.splitOn sep).flatten = text.filter (· ≠ sep) := by
  induction text with
  | nil => rw [List.splitOn_nil]; rfl
  | cons c text ih =>
    rw [List.splitOn_cons_eq_if_modifyHead]
    split
    next heq =>
      rw [List.filter_cons_of_neg (by simpa using heq), ← ih]
      rfl
    next hne =>
      obtain ⟨w, ws, hws⟩ := List.exists_cons_of_ne_nil (List.splitOn_ne_nil sep text)
      rw [List.filter_cons_of_pos (by simpa using hne), ← ih, hws]
      rfl

/-- A part holds what the text holds, and no separator. -/
theorem mem_of_mem_splitOn {c : α} {w text : List α} (hw : w ∈ text.splitOn sep) (hc : c ∈ w) :
    c ∈ text ∧ c ≠ sep := by
  have hmem : c ∈ text.filter (· ≠ sep) := flatten_splitOn text ▸ List.mem_flatten.mpr ⟨w, hw, hc⟩
  rw [List.mem_filter] at hmem
  exact ⟨hmem.1, of_decide_eq_true hmem.2⟩

theorem flatten_words (text : List α) : (words sep text).flatten = text.filter (· ≠ sep) := by
  rw [words, List.flatten_filter_ne_nil, flatten_splitOn]

/-- The words of several texts, each for itself. -/
theorem flatten_flatMap_words (texts : List (List α)) :
    (texts.flatMap (words sep)).flatten = texts.flatten.filter (· ≠ sep) := by
  induction texts with
  | nil => rfl
  | cons text texts ih =>
    rw [List.flatMap_cons, List.flatten_append, ih, flatten_words, List.flatten_cons,
      List.filter_append]

/-- Words are their own words. -/
theorem flatMap_words {ws : List (List α)} (h : ∀ w ∈ ws, sep ∉ w ∧ w ≠ []) :
    ws.flatMap (words sep) = ws := by
  induction ws with
  | nil => rfl
  | cons w ws ih =>
    obtain ⟨⟨hsep, hne⟩, hws⟩ := List.forall_mem_cons.mp h
    rw [List.flatMap_cons, words_singleton hsep hne, ih hws]
    rfl

/-! ## One separator -/

omit [DecidableEq α] in
/-- The first separator. -/
theorem append_cons_inj_first {us vs xs ys : List α} (hu : sep ∉ us) (hv : sep ∉ vs)
    (h : us ++ sep :: xs = vs ++ sep :: ys) : us = vs ∧ xs = ys := by
  induction us generalizing vs with
  | nil =>
    cases vs with
    | nil => exact ⟨rfl, (List.cons.inj h).2⟩
    | cons c vs => exact absurd (List.mem_cons.mpr (.inl (List.cons.inj h).1)) hv
  | cons c us ih =>
    cases vs with
    | nil => exact absurd (List.mem_cons.mpr (.inl (List.cons.inj h).1.symm)) hu
    | cons d vs =>
      obtain ⟨rfl, hrest⟩ := List.cons.inj h
      obtain ⟨rfl, hxs⟩ :=
        ih (List.not_mem_of_not_mem_cons hu) (List.not_mem_of_not_mem_cons hv) hrest
      exact ⟨rfl, hxs⟩

omit [DecidableEq α] in
/-- The last separator. -/
theorem append_cons_inj_last {us vs xs ys : List α} (hx : sep ∉ xs) (hy : sep ∉ ys)
    (h : us ++ sep :: xs = vs ++ sep :: ys) : us = vs ∧ xs = ys := by
  have hrev := congrArg List.reverse h
  simp only [List.reverse_append, List.reverse_cons, List.append_assoc,
    List.singleton_append] at hrev
  obtain ⟨hback, hfront⟩ := append_cons_inj_first (mt List.mem_reverse.mp hx)
    (mt List.mem_reverse.mp hy) hrev
  exact ⟨List.reverse_inj.mp hfront, List.reverse_inj.mp hback⟩

end Words
