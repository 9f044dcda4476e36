import Mathlib.Data.List.DropRight
import ShareFrame.Lib.Words

/-!
# Paths

A path is a sequence of names between separators; `.` stays where it is and `..` goes
back. A place is the names that lead to it, the last one first. From a place a walk keeps
to what lies below, as long as it does not go back behind its start (`walk_below`). The
normal form of a path leads to the same place (`place_normal`), by names alone
(`names_normal`).
-/

namespace Paths

universe u

variable {α : Type u}

/-- The separator of names, and the dot. -/
structure Marks (α : Type u) where
  sep : α
  dot : α
  ne : dot ≠ sep

namespace Marks

variable (m : Marks α)

def here : List α := [m.dot]

def up : List α := [m.dot, m.dot]

theorem here_ne_up : m.here ≠ m.up := by simp [here, up]

theorem sep_notMem_here : m.sep ∉ m.here := by simpa [here] using m.ne.symm

theorem sep_notMem_up : m.sep ∉ m.up := by simpa [up] using m.ne.symm

end Marks

variable [DecidableEq α] (m : Marks α)

/-! ## Walks -/

/-- By one name from a place; nothing is behind the root. -/
def enter (root : Bool) (p : List (List α)) (name : List α) : List (List α) :=
  if name = m.here then p
  else if name = m.up then
    match p with
    | [] => if root then [] else [m.up]
    | last :: rest => if last = m.up then m.up :: last :: rest else rest
  else name :: p

def walk (root : Bool) (p : List (List α)) (ns : List (List α)) : List (List α) :=
  ns.foldl (enter m root) p

/-- The name of a file or a directory. -/
structure Name (name : List α) : Prop where
  ne_nil : name ≠ []
  sep_notMem : m.sep ∉ name
  ne_here : name ≠ m.here
  ne_up : name ≠ m.up

/-- Names behind steps back, and none of these behind the root. -/
inductive Settled : Bool → List (List α) → Prop where
  | nil (root : Bool) : Settled root []
  | up {p : List (List α)} (h : ∀ name ∈ p, name = m.up) : Settled false (m.up :: p)
  | name {root : Bool} {name : List α} {p : List (List α)} (hname : Name m name)
    (h : Settled root p) : Settled root (name :: p)

/-- A part of a path between two separators. -/
def Part (name : List α) : Prop := name ≠ [] ∧ m.sep ∉ name

variable {m} {root : Bool} {p : List (List α)} {name : List α} {ns : List (List α)}

theorem Settled.enter (h : Settled m root p) (hname : Part m name) :
    Settled m root (Paths.enter m root p name) := by
  unfold Paths.enter
  split
  · exact h
  rename_i hhere
  split
  · cases h with
    | nil =>
      cases root with
      | true => exact .nil true
      | false => exact .up (List.forall_mem_nil _)
    | up hup =>
      dsimp only
      rw [if_pos rfl]
      exact .up (List.forall_mem_cons.mpr ⟨rfl, hup⟩)
    | name hlast hrest =>
      dsimp only
      rw [if_neg hlast.ne_up]
      exact hrest
  · rename_i hup
    exact .name ⟨hname.1, hname.2, hhere, hup⟩ h

theorem Settled.walk (h : Settled m root p) (hns : ∀ name ∈ ns, Part m name) :
    Settled m root (Paths.walk m root p ns) := by
  induction ns generalizing p with
  | nil => exact h
  | cons name ns ih =>
    obtain ⟨hname, hns⟩ := List.forall_mem_cons.mp hns
    exact ih (h.enter hname) hns

omit [DecidableEq α] in
theorem Settled.part (h : Settled m root p) : ∀ name ∈ p, Part m name := by
  have hup : Part m m.up := ⟨by simp [Marks.up], m.sep_notMem_up⟩
  induction h with
  | nil => exact List.forall_mem_nil _
  | up h =>
    refine List.forall_mem_cons.mpr ⟨hup, fun name hname => ?_⟩
    rw [h name hname]
    exact hup
  | name hname _ ih => exact List.forall_mem_cons.mpr ⟨⟨hname.ne_nil, hname.sep_notMem⟩, ih⟩

omit [DecidableEq α] in
/-- Below the root there are names only. -/
theorem Settled.proper (h : Settled m true p) : ∀ name ∈ p, Name m name := by
  generalize hroot : true = root at h
  induction h with
  | nil => exact List.forall_mem_nil _
  | up _ => cases hroot
  | name hname _ ih => exact List.forall_mem_cons.mpr ⟨hname, ih hroot⟩

theorem walk_append (ns ns' : List (List α)) :
    walk m root p (ns ++ ns') = walk m root (walk m root p ns) ns' :=
  List.foldl_append

/-- The names of a place lead to it. -/
theorem walk_reverse (h : Settled m root p) : walk m root [] p.reverse = p := by
  induction h with
  | nil => rfl
  | @up p h =>
    have hfix : ∀ n, walk m false [] (List.replicate n m.up) = List.replicate n m.up := by
      intro n
      induction n with
      | zero => rfl
      | succ n ih =>
        rw [List.replicate_succ', walk_append, ih]
        cases n with
        | zero => simp [walk, Paths.enter, m.here_ne_up.symm]
        | succ n => simp [walk, Paths.enter, m.here_ne_up.symm, List.replicate_succ, ← List.replicate_succ']
    have hp : m.up :: p = List.replicate (p.length + 1) m.up := by
      rw [List.replicate_succ, List.eq_replicate_of_mem h, List.length_replicate]
    rw [hp, List.reverse_replicate]
    exact hfix _
  | name hname h ih =>
    rw [List.reverse_cons, walk_append, ih]
    simp only [walk, List.foldl_cons, List.foldl_nil, Paths.enter]
    rw [if_neg hname.ne_here, if_neg hname.ne_up]

/-- A step back behind the start stays. -/
theorem up_mem_enter (h : m.up ∈ p) : m.up ∈ Paths.enter m root p name := by
  unfold Paths.enter
  split
  · exact h
  split
  · cases p with
    | nil => cases h
    | cons last rest =>
      dsimp only
      split
      · exact List.mem_cons_self
      · rename_i hlast
        exact (List.mem_cons.mp h).resolve_left (Ne.symm hlast)
  · exact List.mem_cons_of_mem _ h

theorem up_mem_walk (h : m.up ∈ p) : m.up ∈ walk m root p ns := by
  induction ns generalizing p with
  | nil => exact h
  | cons name ns ih => exact ih (up_mem_enter h)

theorem enter_below {start : List (List α)} (h : m.up ∉ Paths.enter m false p name) :
    Paths.enter m root (p ++ start) name = Paths.enter m false p name ++ start := by
  unfold Paths.enter at h ⊢
  split
  · rfl
  rename_i hhere
  rw [if_neg hhere] at h
  split
  · rename_i hup
    rw [if_pos hup] at h
    cases p with
    | nil => exact absurd List.mem_cons_self h
    | cons last rest =>
      dsimp only [List.cons_append] at h ⊢
      split
      · rename_i hlast
        rw [if_pos hlast] at h
        exact absurd List.mem_cons_self h
      · rfl
  · rfl

/-- A walk that does not go back behind its start leads below it. -/
theorem walk_below_from {start : List (List α)} (h : m.up ∉ walk m false p ns) :
    walk m root (p ++ start) ns = walk m false p ns ++ start := by
  induction ns generalizing p with
  | nil => rfl
  | cons name ns ih =>
    have hname : m.up ∉ Paths.enter m false p name := fun hup =>
      h (up_mem_walk (p := Paths.enter m false p name) hup)
    show walk m root (Paths.enter m root (p ++ start) name) ns = _
    rw [enter_below hname]
    exact ih h

theorem walk_below {start : List (List α)} (h : m.up ∉ walk m false [] ns) :
    walk m root start ns = walk m false [] ns ++ start := walk_below_from h

/-! ## Texts -/

section Texts

variable (m)

/-- The names of a path, in order. -/
def components (path : List α) : List (List α) := Words.words m.sep path

def Absolute (path : List α) : Prop := path.head? = some m.sep

instance : DecidablePred (Absolute m) := fun path => inferInstanceAs (Decidable (path.head? = some m.sep))

/-- Where a path leads. -/
def place (path : List α) : List (List α) := walk m (decide (Absolute m path)) [] (components m path)

/-- What is behind the last separator. -/
def filename (path : List α) : List α := path.rtakeWhile fun c => c ≠ m.sep

/-- The file name up to its last dot, if that is not all there is in front. -/
def stem (path : List α) : List α :=
  let name := filename m path
  let extension := name.rtakeWhile fun c => c ≠ m.dot
  let front := name.take (name.length - extension.length - 1)
  if name = m.up ∨ extension.length = name.length ∨ front = [] then name else front

/-- What is in front of the file name, without the separators behind it. -/
def parentPath (path : List α) : List α :=
  let dir := path.take (path.length - (filename m path).length)
  let parent := dir.rdropWhile fun c => c = m.sep
  if parent = [] ∧ dir ≠ [] then [m.sep] else parent

/-- `operator/` -/
def slash (dir path : List α) : List α :=
  if Absolute m path then path
  else if dir = [] ∨ dir.getLast? = some m.sep then dir ++ path
  else dir ++ m.sep :: path

/-- The text that leads to a place, which is a directory where that is said. -/
def text (root : Bool) (p : List (List α)) (directory : Bool) : List α :=
  (if root then [m.sep] else []) ++ [m.sep].intercalate p.reverse ++
    if directory ∧ p ≠ [] ∧ p.head? ≠ some m.up then [m.sep] else []

def lexicallyNormal (path : List α) : List α :=
  if path = [] then []
  else
    let last := filename m path
    let normal := text m (decide (Absolute m path)) (place m path)
      (decide (last = [] ∨ last = m.here ∨ last = m.up))
    if normal = [] then m.here else normal

end Texts

variable {path dir : List α}

theorem part_components : ∀ name ∈ components m path, Part m name := by
  intro name hname
  obtain ⟨hsplit, hne⟩ := List.mem_filter.mp hname
  exact ⟨of_decide_eq_true hne, fun hsep => (Words.mem_of_mem_splitOn hsplit hsep).2 rfl⟩

theorem settled_place : Settled m (decide (Absolute m path)) (place m path) :=
  Settled.walk (.nil _) part_components

theorem components_intercalate {ws : List (List α)} (h : ∀ w ∈ ws, Part m w) :
    components m ([m.sep].intercalate ws) = ws := by
  induction ws with
  | nil => exact Words.words_nil
  | cons w ws ih =>
    obtain ⟨⟨hne, hsep⟩, hws⟩ := List.forall_mem_cons.mp h
    cases ws with
    | nil =>
      rw [List.intercalate_singleton]
      exact Words.words_singleton hsep hne
    | cons w' ws =>
      have hrest := ih hws
      rw [List.intercalate_cons_cons, List.append_assoc, List.singleton_append, components,
        Words.words_append_cons, Words.words_singleton hsep hne]
      exact congrArg (w :: ·) hrest

theorem components_text {directory : Bool} (h : Settled m root p) :
    components m (text m root p directory) = p.reverse := by
  have hpart : ∀ name ∈ p.reverse, Part m name := fun name hname => h.part name (List.mem_reverse.mp hname)
  have hnames := components_intercalate hpart
  have hend : ∀ xs : List α, components m (xs ++ [m.sep]) = components m xs := fun xs => by
    rw [components, Words.words_append_cons, Words.words_nil, List.append_nil]
    rfl
  have hfront : ∀ xs : List α, components m ([m.sep] ++ xs) = components m xs := fun xs => by
    have hsplit : Words.words m.sep ([] ++ m.sep :: xs) = _ := Words.words_append_cons [] xs
    rw [Words.words_nil, List.nil_append, List.nil_append] at hsplit
    exact hsplit
  unfold text
  split <;> split
  · rw [hend, hfront, hnames]
  · rw [List.append_nil, hfront, hnames]
  · rw [List.nil_append, hend, hnames]
  · rw [List.nil_append, List.append_nil, hnames]

/-- A relative text does not begin at the root. -/
theorem absolute_text {directory : Bool} (h : Settled m root p) :
    Absolute m (text m root p directory) ↔ root = true := by
  cases root with
  | true => exact iff_of_true rfl rfl
  | false =>
    refine iff_of_false (fun habs => ?_) Bool.false_ne_true
    cases hp : p.reverse with
    | nil =>
      rw [List.reverse_eq_nil_iff] at hp
      subst hp
      simp [Absolute, text] at habs
    | cons first rest =>
      have hpart := h.part first (List.mem_reverse.mp (hp ▸ List.mem_cons_self))
      obtain ⟨c, name, rfl⟩ := List.exists_cons_of_ne_nil hpart.1
      have hhead : ([m.sep].intercalate ((c :: name) :: rest)).head? = some c := by
        cases rest with
        | nil => rw [List.intercalate_singleton]; rfl
        | cons _ _ => rw [List.intercalate_cons_cons]; rfl
      rw [Absolute, text, if_neg Bool.false_ne_true, List.nil_append, hp, List.head?_append, hhead] at habs
      exact hpart.2 (Option.some.inj habs ▸ List.mem_cons_self)

/-- The normal form of an absolute path is of names alone. -/
theorem components_normal (h : Absolute m path) :
    components m (lexicallyNormal m path) = (place m path).reverse := by
  have hne : path ≠ [] := fun hnil => by rw [hnil] at h; cases h
  have hsettled : Settled m _ (place m path) := settled_place
  unfold lexicallyNormal
  rw [if_neg hne]
  dsimp only
  split
  · rename_i hnil
    have habs : Absolute m [] := hnil ▸ (absolute_text hsettled).mpr (decide_eq_true h)
    cases habs
  · exact components_text hsettled

theorem absolute_normal : Absolute m (lexicallyNormal m path) ↔ Absolute m path := by
  have hsettled : Settled m _ (place m path) := settled_place
  unfold lexicallyNormal
  split
  · rename_i hnil
    rw [hnil]
  dsimp only
  split
  · rename_i hnil
    have habs := hnil ▸ absolute_text hsettled
    rw [decide_eq_true_iff] at habs
    refine iff_of_false (fun h => m.ne (Option.some.inj h)) fun h => ?_
    cases habs.mpr h
  · exact (absolute_text hsettled).trans decide_eq_true_iff

/-- The normal form leads to the same place. -/
theorem place_normal : place m (lexicallyNormal m path) = place m path := by
  by_cases hne : path = []
  · rw [hne]
    rfl
  have hsettled : Settled m _ (place m path) := settled_place
  have habs : Absolute m (lexicallyNormal m path) ↔ Absolute m path := absolute_normal
  rw [place, decide_eq_decide.mpr habs]
  unfold lexicallyNormal
  rw [if_neg hne]
  dsimp only
  split
  · rename_i hnil
    have hplace : (place m path).reverse = [] := by
      rw [← components_text hsettled, hnil]
      exact Words.words_nil
    rw [List.reverse_eq_nil_iff.mp hplace, components,
      Words.words_singleton m.sep_notMem_here (by simp [Marks.here])]
    simp [walk, Paths.enter]
  · rw [components_text hsettled]
    exact walk_reverse hsettled

/-! ## Joining -/

theorem components_slash (h : ¬Absolute m path) :
    components m (slash m dir path) = components m dir ++ components m path := by
  unfold slash
  rw [if_neg h]
  split
  · rename_i hdir
    obtain rfl | hlast := hdir
    · rw [components, components, Words.words_nil]
      rfl
    · obtain ⟨front, rfl⟩ := List.getLast?_eq_some_iff.mp hlast
      rw [List.append_assoc, List.singleton_append, components, components, components,
        Words.words_append_cons, Words.words_append_cons, Words.words_nil, List.append_nil]
  · exact Words.words_append_cons dir path

theorem absolute_slash (h : Absolute m dir) : Absolute m (slash m dir path) := by
  have hne : dir ≠ [] := fun hnil => by rw [hnil] at h; cases h
  unfold slash
  split
  · assumption
  split
  · rw [Absolute, List.head?_append_of_ne_nil _ hne]
    exact h
  · rw [Absolute, List.head?_append_of_ne_nil _ hne]
    exact h

/-! ## Resolving -/

variable (m) in
/-- A relative path, taken from a directory. -/
def resolve (base path : List α) : List α :=
  if Absolute m path then path else lexicallyNormal m (slash m base path)

variable {base : List α}

theorem absolute_resolve (h : Absolute m base) : Absolute m (resolve m base path) := by
  unfold resolve
  split
  · assumption
  · exact absolute_normal.mpr (absolute_slash h)

/-- Resolved once is resolved for good. -/
theorem resolve_resolve (h : Absolute m base) (base' : List α) :
    resolve m base' (resolve m base path) = resolve m base path :=
  if_pos (absolute_resolve h)

theorem lexicallyNormal_eq_nil : lexicallyNormal m path = [] ↔ path = [] := by
  unfold lexicallyNormal
  split
  · rename_i hnil
    exact iff_of_true rfl hnil
  · rename_i hne
    dsimp only
    split
    · exact iff_of_false (by simp [Marks.here]) hne
    · rename_i htext
      exact iff_of_false htext hne

/-- Nothing is resolved to no path but nothing in no directory. -/
theorem resolve_eq_nil : resolve m base path = [] ↔ base = [] ∧ path = [] := by
  unfold resolve
  split
  · rename_i habs
    have hne : path ≠ [] := fun hnil => by rw [hnil] at habs; cases habs
    exact iff_of_false hne fun h => hne h.2
  · rename_i habs
    rw [lexicallyNormal_eq_nil]
    unfold slash
    rw [if_neg habs]
    split
    · exact List.append_eq_nil_iff
    · rename_i hbase
      exact iff_of_false (by simp) fun h => hbase (.inl h.1)

theorem place_resolve (habs : ¬Absolute m path) (h : Absolute m base) :
    place m (resolve m base path) = walk m true (place m base) (components m path) := by
  have hslash : Absolute m (slash m base path) := absolute_slash h
  rw [resolve, if_neg habs, place_normal, place, place, decide_eq_true hslash, decide_eq_true h,
    components_slash habs, walk_append]

/-- The names of a resolved path are the names of its place. -/
theorem components_resolve (habs : ¬Absolute m path) (h : Absolute m base) :
    components m (resolve m base path) = (place m (resolve m base path)).reverse := by
  rw [resolve, if_neg habs, components_normal (absolute_slash h), place_normal]

theorem names_resolve (habs : ¬Absolute m path) (h : Absolute m base) :
    ∀ name ∈ components m (resolve m base path), Name m name := by
  have hsettled : Settled m _ (place m (resolve m base path)) := settled_place
  rw [decide_eq_true (absolute_resolve h)] at hsettled
  rw [components_resolve habs h]
  exact fun name hname => hsettled.proper name (List.mem_reverse.mp hname)

/-- A path that does not go back behind its start is resolved to one below the directory. -/
theorem resolve_below (habs : ¬Absolute m path) (h : Absolute m base) (hup : m.up ∉ place m path) :
    components m (resolve m base path) = (place m base).reverse ++ (place m path).reverse := by
  have hplace : place m path = walk m false [] (components m path) := by rw [place, decide_eq_false habs]
  rw [hplace] at hup ⊢
  rw [components_resolve habs h, place_resolve habs h, walk_below hup, List.reverse_append]

end Paths
