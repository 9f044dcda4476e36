import Mathlib.Tactic.Common

/-!
# Escaped fields

A record is a sequence of fields, each a key, a colon, a text and a stop, closed by one
more stop. In a text a bar takes its meaning off the symbol behind it. `step` reads one
symbol. The reader gets the fields of a record back (`parse_record`), and as long as
it reads the text of a field it is in that field (`within_of_isPrefix`).
-/

namespace Escape

universe u

structure Marks (α : Type u) where
  bar : α
  colon : α
  stop : α

/-- A key and its text. -/
abbrev Field (α : Type u) := List α × List α

/-- What was read. -/
inductive Reader (α : Type u) where
  /-- in front of a field, or of the end -/
  | front (fields : List (Field α))
  | key (fields : List (Field α)) (key : List α)
  | text (fields : List (Field α)) (key text : List α)
  /-- in a text, behind a bar -/
  | escaped (fields : List (Field α)) (key text : List α)
  | closed (fields : List (Field α))

/-- The reader is in the text of the field of this key, behind these fields. -/
def Reader.Within {α : Type u} (fields : List (Field α)) (key : List α) : Reader α → Prop
  | .text before k _ | .escaped before k _ => before = fields ∧ k = key
  | _ => False

variable {α : Type u} [DecidableEq α] (marks : Marks α) (special : α → Bool)

/-- The next symbol. -/
def step : Reader α → α → Option (Reader α)
  | .front fields, c => some (if c = marks.stop then .closed fields else .key fields [c])
  | .key fields key, c =>
    if c = marks.colon then some (.text fields key [])
    else if c = marks.stop then none
    else some (.key fields (key ++ [c]))
  | .text fields key text, c =>
    some (if c = marks.stop then .front (fields ++ [(key, text)])
      else if c = marks.bar then .escaped fields key text
      else .text fields key (text ++ [c]))
  | .escaped fields key text, c => some (.text fields key (text ++ [c]))
  | .closed _, _ => none

/-- Reads the symbols. -/
def run (r : Reader α) (symbols : List α) : Option (Reader α) := symbols.foldlM (step marks) r

/-- The fields of a record. -/
def parse (symbols : List α) : Option (List (Field α)) :=
  match run marks (.front []) symbols with
  | some (.closed fields) => some fields
  | _ => none

/-- A bar in front of each special symbol. -/
def escape (text : List α) : List α :=
  text.flatMap fun c => if special c then [marks.bar, c] else [c]

/-- A field up to its text. -/
def opening (key : List α) : List α := key ++ [marks.colon]

def field (f : Field α) : List α :=
  opening marks f.1 ++ escape marks special f.2 ++ [marks.stop]

def record (fields : List (Field α)) : List α :=
  fields.flatMap (field marks special) ++ [marks.stop]

/-! ## Reading -/

variable {marks special} {fields : List (Field α)} {key text : List α} {r r' : Reader α}

theorem run_cons {c : α} (h : step marks r c = some r') (xs : List α) :
    run marks r (c :: xs) = run marks r' xs := by
  rw [run, List.foldlM_cons, h]
  rfl

theorem run_append {xs : List α} (h : run marks r xs = some r') (ys : List α) :
    run marks r (xs ++ ys) = run marks r' ys := by
  rw [run, List.foldlM_append, ← run, h]
  rfl

/-- A key has a symbol, and none of the two that end it. -/
structure Key (marks : Marks α) (key : List α) : Prop where
  ne_nil : key ≠ []
  colon : marks.colon ∉ key
  stop : marks.stop ∉ key

theorem run_key {more : List α} (hcolon : marks.colon ∉ more) (hstop : marks.stop ∉ more) :
    run marks (.key fields key) more = some (.key fields (key ++ more)) := by
  induction more generalizing key with
  | nil => rw [List.append_nil]; rfl
  | cons c more ih =>
    obtain ⟨hc, hcolon⟩ := not_or.mp (mt List.mem_cons.mpr hcolon)
    obtain ⟨hs, hstop⟩ := not_or.mp (mt List.mem_cons.mpr hstop)
    have hstep : step marks (.key fields key) c = some (.key fields (key ++ [c])) := by
      rw [step, if_neg (Ne.symm hc), if_neg (Ne.symm hs)]
    rw [run_cons hstep, ih hcolon hstop, ← List.append_cons]

theorem run_opening (h : Key marks key) :
    run marks (.front fields) (opening marks key) = some (.text fields key []) := by
  obtain ⟨c, more, rfl⟩ := List.exists_cons_of_ne_nil h.ne_nil
  obtain ⟨-, hcolon⟩ := not_or.mp (mt List.mem_cons.mpr h.colon)
  obtain ⟨hs, hstop⟩ := not_or.mp (mt List.mem_cons.mpr h.stop)
  have hfirst : step marks (.front fields) c = some (.key fields [c]) := by
    rw [step, if_neg (Ne.symm hs)]
  have hend : step marks (.key fields ([c] ++ more)) marks.colon =
      some (.text fields ([c] ++ more) []) := by
    rw [step, if_pos rfl]
  rw [opening, List.cons_append, run_cons hfirst, run_append (run_key hcolon hstop), run_cons hend]
  rfl

/-- The special symbols have all that ends a text or is not itself there. -/
structure Guards (marks : Marks α) (special : α → Bool) : Prop where
  bar : special marks.bar = true
  stop : special marks.stop = true
  ne : marks.bar ≠ marks.stop

theorem step_bar (h : Guards marks special) :
    step marks (.text fields key text) marks.bar = some (.escaped fields key text) := by
  rw [step, if_neg h.ne, if_pos rfl]

theorem step_plain (h : Guards marks special) {c : α} (hc : special c ≠ true) :
    step marks (.text fields key text) c = some (.text fields key (text ++ [c])) := by
  have hstop : c ≠ marks.stop := by
    rintro rfl
    exact hc h.stop
  have hbar : c ≠ marks.bar := by
    rintro rfl
    exact hc h.bar
  rw [step, if_neg hstop, if_neg hbar]

/-- A symbol of a text, with the bar in front of it if it is special. -/
theorem run_symbol (h : Guards marks special) (c : α) :
    run marks (.text fields key text) (if special c then [marks.bar, c] else [c]) =
      some (.text fields key (text ++ [c])) := by
  split
  next => rw [run_cons (step_bar h)]; rfl
  next hc => rw [run_cons (step_plain h hc)]; rfl

/-- An escaped text is read as it was. -/
theorem run_escape (h : Guards marks special) (more : List α) :
    run marks (.text fields key text) (escape marks special more) =
      some (.text fields key (text ++ more)) := by
  induction more generalizing text with
  | nil => rw [List.append_nil]; rfl
  | cons c more ih =>
    rw [escape, List.flatMap_cons, ← escape, run_append (run_symbol h c), ih, ← List.append_cons]

theorem run_field (h : Guards marks special) {f : Field α} (hkey : Key marks f.1) :
    run marks (.front fields) (field marks special f) = some (.front (fields ++ [f])) := by
  have hstop : step marks (.text fields f.1 f.2) marks.stop = some (.front (fields ++ [f])) := by
    rw [step, if_pos rfl]
  rw [field, List.append_assoc, run_append (run_opening hkey), run_append (run_escape h f.2),
    List.nil_append, run_cons hstop]
  rfl

theorem run_fields (h : Guards marks special) {more : List (Field α)}
    (hkeys : ∀ f ∈ more, Key marks f.1) :
    run marks (.front fields) (more.flatMap (field marks special)) =
      some (.front (fields ++ more)) := by
  induction more generalizing fields with
  | nil => rw [List.append_nil]; rfl
  | cons f more ih =>
    obtain ⟨hkey, hkeys⟩ := List.forall_mem_cons.mp hkeys
    rw [List.flatMap_cons, run_append (run_field h hkey), ih hkeys, ← List.append_cons]

/-- The fields of a record are read back, and no others. -/
theorem parse_record (h : Guards marks special) (hkeys : ∀ f ∈ fields, Key marks f.1) :
    parse marks (record marks special fields) = some fields := by
  have hstop : step marks (.front fields) marks.stop = some (.closed fields) := by
    rw [step, if_pos rfl]
  have hrun : run marks (.front []) (record marks special fields) = some (.closed fields) := by
    rw [record, run_append (run_fields h hkeys), List.nil_append, run_cons hstop]
    rfl
  rw [parse, hrun]

/-! ## Within a field -/

theorem within_of_isPrefix_symbol (h : Guards marks special) {part : List α} (c : α)
    (hpart : part <+: if special c then [marks.bar, c] else [c]) :
    ∃ r, run marks (.text fields key text) part = some r ∧ r.Within fields key := by
  -- the whole symbol, or the bar, or nothing
  split at hpart
  next =>
    rcases List.prefix_cons_iff.mp hpart with rfl | ⟨back, rfl, hback⟩
    · exact ⟨_, rfl, rfl, rfl⟩
    · rw [run_cons (step_bar h)]
      rcases List.prefix_cons_iff.mp hback with rfl | ⟨none, rfl, hnone⟩
      · exact ⟨_, rfl, rfl, rfl⟩
      · obtain rfl : none = [] := List.prefix_nil.mp hnone
        exact ⟨_, rfl, rfl, rfl⟩
  next hc =>
    rcases List.prefix_cons_iff.mp hpart with rfl | ⟨back, rfl, hback⟩
    · exact ⟨_, rfl, rfl, rfl⟩
    · obtain rfl : back = [] := List.prefix_nil.mp hback
      exact ⟨_, run_cons (step_plain h hc) [], rfl, rfl⟩

/-- The reader does not leave the text on the way through an escaped one. -/
theorem within_of_isPrefix (h : Guards marks special) {part more : List α}
    (hpart : part <+: escape marks special more) :
    ∃ r, run marks (.text fields key text) part = some r ∧ r.Within fields key := by
  induction more generalizing part text with
  | nil =>
    obtain rfl : part = [] := List.prefix_nil.mp hpart
    exact ⟨_, rfl, rfl, rfl⟩
  | cons c more ih =>
    rw [escape, List.flatMap_cons, ← escape] at hpart
    rcases List.prefix_or_prefix_of_prefix hpart (List.prefix_append _ _) with hshort | ⟨part, rfl⟩
    · exact within_of_isPrefix_symbol h c hshort
    · rw [run_append (run_symbol h c)]
      exact ih ((List.prefix_append_right_inj _).mp hpart)

/-- In a record the text of a field is read within the field, up to each of its symbols. -/
theorem exists_within (h : Guards marks special) (hkeys : ∀ f ∈ fields, Key marks f.1)
    (hkey : Key marks key) {part more : List α} (hpart : part <+: escape marks special more) :
    ∃ r, run marks (.front []) (fields.flatMap (field marks special) ++ opening marks key ++ part) =
      some r ∧ r.Within fields key := by
  obtain ⟨r, hr, hwithin⟩ :
      ∃ r, run marks (.text fields key []) part = some r ∧ r.Within fields key :=
    within_of_isPrefix h hpart
  refine ⟨r, ?_, hwithin⟩
  rw [List.append_assoc, run_append (run_fields h hkeys), List.nil_append,
    run_append (run_opening hkey), hr]

end Escape
