import Mathlib.Data.List.Nodup
import Mathlib.Data.List.Sort
import Mathlib.Data.String.Basic

/-!
# Migrations

`MigrationRunner::run` goes through the SQL files of a directory in the order of their
paths. A file whose id is recorded is skipped, another is executed and recorded in one
transaction, and the first exception ends the run. What else the database holds, and
what the SQL does to it, stays abstract. A run executes the files that are not
recorded from the first on (`run_executes`); over any runs, with any directories, each
is executed once (`migrations_once`).
-/

namespace ShareFrame.MigrationRunner

universe u

/-- The ids in `schema_migrations`, and everything else. -/
@[ext] structure Db (δ : Type u) where
  records : List String
  data : δ
  deriving DecidableEq

/-- A file and what is read from it. A `Char` stands for every byte of the name. -/
structure File where
  name : String
  sql : String
  deriving DecidableEq, Repr

/-- The entries of a directory. -/
structure Dir where
  entries : List File
  nodup : (entries.map (·.name)).Nodup

/-! ## Names -/

/-- `path::extension`: from the last dot on, which is not the first character. -/
def extension (name : String) : List Char :=
  if name = "." ∨ name = ".." then []
  else
    match name.toList.reverse.dropWhile (· ≠ '.') with
    | [] | [_] => []
    | _ => '.' :: (name.toList.reverse.takeWhile (· ≠ '.')).reverse

/-- `path::stem` -/
def stem (name : String) : String :=
  String.ofList (name.toList.take (name.length - (extension name).length))

def File.id (f : File) : String := stem f.name

/-- The order of the paths, which differ in the names alone. -/
def File.Le (a b : File) : Prop := a.name ≤ b.name

instance : DecidableRel File.Le := fun a b => by unfold File.Le; infer_instance

instance : Std.Total File.Le := ⟨fun a b => le_total a.name b.name⟩

instance : IsTrans File File.Le := ⟨fun _ _ _ => le_trans⟩

/-- The SQL files in the order of their paths. -/
def files (dir : Dir) : List File :=
  (dir.entries.filter fun f => extension f.name = ".sql".toList).insertionSort File.Le

/-! ## The run -/

/-- What one run meets. -/
structure Io (δ : Type u) where
  /-- the table is there or is created, and the directory can be read -/
  starts : Bool := true
  /-- `isApplied` -/
  queries : String → Bool := fun _ => true
  opens : String → Bool := fun _ => true
  /-- what SQL does, `none` where it throws -/
  exec : String → δ → Option δ
  /-- the `INSERT` -/
  inserts : String → Bool := fun _ => true
  commits : String → Bool := fun _ => true

structure Result (δ : Type u) where
  db : Db δ
  /-- *ghost*: the files whose transaction was committed -/
  executed : List File
  /-- no exception -/
  ok : Bool

variable {δ : Type u}

/-- One transaction: an exception rolls it back. -/
def apply (io : Io δ) (db : Db δ) (id sql : String) : Option (Db δ) :=
  match io.exec sql db.data with
  | none => none
  | some data =>
    if id ∉ db.records ∧ io.inserts id ∧ io.commits id then some ⟨db.records ++ [id], data⟩
    else none

/-- The loop over the files. -/
def runFiles (io : Io δ) (db : Db δ) : List File → Result δ
  | [] => ⟨db, [], true⟩
  | f :: fs =>
    if !io.queries f.id then ⟨db, [], false⟩
    else if f.id ∈ db.records then runFiles io db fs
    else if !io.opens f.name then ⟨db, [], false⟩
    else
      match apply io db f.id f.sql with
      | none => ⟨db, [], false⟩
      | some db =>
        let r := runFiles io db fs
        { r with executed := f :: r.executed }

def run (io : Io δ) (db : Db δ) (dir : Dir) : Result δ :=
  if !io.starts then ⟨db, [], false⟩ else runFiles io db (files dir)

/-- The files that are not recorded. -/
def pending (records : List String) (fs : List File) : List File := fs.filter (·.id ∉ records)

/-- The first file that is not recorded throws. -/
def Fails (io : Io δ) (db : Db δ) (fs : List File) : Prop :=
  ∃ f more, pending db.records fs = f :: more ∧
    (io.opens f.name = false ∨ apply io db f.id f.sql = none)

/-! ## Ids -/

theorem extension_suffix (name : String) : extension name <:+ name.toList := by
  unfold extension
  split
  · exact List.nil_suffix
  · split
    next => exact List.nil_suffix
    next => exact List.nil_suffix
    next hnil hone =>
      have hsplit := List.takeWhile_append_dropWhile (p := (· ≠ '.')) (l := name.toList.reverse)
      have hhead := List.head?_dropWhile_not (· ≠ '.') name.toList.reverse
      cases hdrop : name.toList.reverse.dropWhile (· ≠ '.') with
      | nil => exact absurd hdrop hnil
      | cons c front =>
        rw [hdrop] at hsplit hhead
        obtain rfl : c = '.' := by simpa using hhead
        refine ⟨front.reverse, ?_⟩
        have hname := congrArg List.reverse hsplit
        rw [List.reverse_reverse, List.reverse_append, List.reverse_cons,
          List.append_assoc] at hname
        exact hname

/-- A name is its stem and its extension. -/
theorem stem_append_extension (name : String) :
    (stem name).toList ++ extension name = name.toList := by
  obtain ⟨front, hname⟩ := extension_suffix name
  have hlength := congrArg List.length hname
  rw [List.length_append, String.length_toList] at hlength
  have hfront : name.toList.take (name.length - (extension name).length) = front := by
    rw [← hname, ← hlength, Nat.add_sub_cancel, List.take_left]
  rw [stem, String.toList_ofList, hfront, hname]

theorem mem_files {dir : Dir} {f : File} :
    f ∈ files dir ↔ f ∈ dir.entries ∧ extension f.name = ".sql".toList := by
  rw [files, List.mem_insertionSort, List.mem_filter, decide_eq_true_eq]

theorem names_ascending (dir : Dir) : (files dir).Pairwise (·.name < ·.name) := by
  have hsorted : (files dir).Pairwise File.Le := List.pairwise_insertionSort ..
  have hnodup : ((files dir).map (·.name)).Nodup := by
    have hfilter := dir.nodup.sublist
      ((List.filter_sublist (p := fun f : File => extension f.name = ".sql".toList)).map (·.name))
    exact ((List.perm_insertionSort ..).map _).nodup_iff.mpr hfilter
  rw [List.Nodup, List.pairwise_map] at hnodup
  exact hsorted.imp₂ (fun _ _ => lt_of_le_of_ne) hnodup

/-- Files of a directory have different ids. -/
theorem ids_nodup (dir : Dir) : ((files dir).map (·.id)).Nodup := by
  rw [List.Nodup, List.pairwise_map]
  refine (names_ascending dir).imp_of_mem fun {a b} ha hb hlt hid => ?_
  have hname := stem_append_extension a.name
  rw [(mem_files.mp ha).2, show stem a.name = stem b.name from hid, ← (mem_files.mp hb).2,
    stem_append_extension] at hname
  exact hlt.ne' (String.toList_injective hname)

/-! ## One run -/

variable {io : Io δ} {db db' : Db δ} {f : File} {fs : List File} {dir : Dir}

theorem apply_eq_some {id sql : String} (h : apply io db id sql = some db') :
    ∃ data, io.exec sql db.data = some data ∧ db' = ⟨db.records ++ [id], data⟩ := by
  unfold apply at h
  split at h
  next => cases h
  next data hexec =>
    obtain ⟨-, h⟩ := Option.ite_none_right_eq_some.mp h
    exact ⟨data, hexec, (Option.some.inj h).symm⟩

theorem pending_cons_of_mem (fs : List File) {records : List String} (h : f.id ∈ records) :
    pending records (f :: fs) = pending records fs :=
  List.filter_cons_of_neg (by simpa using h)

theorem pending_cons_of_notMem (fs : List File) {records : List String} (h : f.id ∉ records) :
    pending records (f :: fs) = f :: pending records fs :=
  List.filter_cons_of_pos (by simpa using h)

/-- The record of another file. -/
theorem pending_append_singleton {records : List String} {id : String} (h : id ∉ fs.map (·.id)) :
    pending (records ++ [id]) fs = pending records fs := by
  refine List.filter_congr fun f hf => ?_
  have hne : f.id ≠ id := fun heq => h (heq ▸ List.mem_map_of_mem hf)
  simp [hne]

/-- What a run does to the files that are not recorded: the executed ones are the first of them. -/
structure Executes (io : Io δ) (db : Db δ) (fs : List File) (r : Result δ) : Prop where
  order : pending db.records fs = r.executed ++ pending r.db.records fs
  records : r.db.records = db.records ++ r.executed.map (·.id)
  effects : r.executed.foldlM (fun data f => io.exec f.sql data) db.data = some r.db.data
  all : r.ok = true → pending r.db.records fs = []
  stops : r.ok = false →
    io.starts = false ∨ (∃ f ∈ fs, io.queries f.id = false) ∨ Fails io r.db fs

/-- An exception in front of the first transaction. -/
theorem executes_stopped
    (h : io.starts = false ∨ (∃ f ∈ fs, io.queries f.id = false) ∨ Fails io db fs) :
    Executes io db fs ⟨db, [], false⟩ :=
  ⟨rfl, (List.append_nil _).symm, rfl, by rintro ⟨⟩, fun _ => h⟩

/-- The first file is recorded in the end. -/
theorem Executes.cons {r : Result δ} {executed : List File} (h : Executes io db' fs r)
    (hmem : f.id ∈ r.db.records)
    (horder : pending db.records (f :: fs) = executed ++ pending r.db.records fs)
    (hrecords : r.db.records = db.records ++ executed.map (·.id))
    (heffects : executed.foldlM (fun data f => io.exec f.sql data) db.data = some r.db.data) :
    Executes io db (f :: fs) { r with executed } := by
  have hpending := pending_cons_of_mem fs hmem
  refine ⟨?_, hrecords, heffects, ?_, fun hstop => ?_⟩
  · rw [hpending]
    exact horder
  · rw [hpending]
    exact h.all
  · obtain hstarts | ⟨g, hg, hqueries⟩ | hfails := h.stops hstop
    · exact .inl hstarts
    · exact .inr (.inl ⟨g, List.mem_cons_of_mem _ hg, hqueries⟩)
    · refine .inr (.inr ?_)
      rw [Fails, hpending]
      exact hfails

theorem executes_runFiles (hids : (fs.map (·.id)).Nodup) :
    Executes io db fs (runFiles io db fs) := by
  induction fs generalizing db with
  | nil => exact ⟨rfl, (List.append_nil _).symm, rfl, fun _ => rfl, by rintro ⟨⟩⟩
  | cons f fs ih =>
    obtain ⟨hfresh, hids⟩ := List.nodup_cons.mp hids
    rw [runFiles]
    cases hquery : io.queries f.id with
    | false => exact executes_stopped (.inr (.inl ⟨f, List.mem_cons_self, hquery⟩))
    | true =>
      rw [if_neg (by decide)]
      by_cases hmem : f.id ∈ db.records
      · have hrest := @ih db hids
        rw [if_pos hmem]
        refine hrest.cons (hrest.records ▸ List.mem_append_left _ hmem) ?_ hrest.records
          hrest.effects
        rw [pending_cons_of_mem fs hmem]
        exact hrest.order
      · rw [if_neg hmem]
        have hpending := pending_cons_of_notMem fs hmem
        cases hopens : io.opens f.name with
        | false => exact executes_stopped (.inr (.inr ⟨f, _, hpending, .inl hopens⟩))
        | true =>
          rw [if_neg (by decide)]
          cases happly : apply io db f.id f.sql with
          | none => exact executes_stopped (.inr (.inr ⟨f, _, hpending, .inr happly⟩))
          | some db' =>
            obtain ⟨data, hexec, rfl⟩ := apply_eq_some happly
            have hrest := @ih ⟨db.records ++ [f.id], data⟩ hids
            have hrecords := hrest.records
            rw [List.append_assoc] at hrecords
            refine hrest.cons ?_ ?_ hrecords ?_
            · rw [hrecords]
              exact List.mem_append_right _ List.mem_cons_self
            · rw [hpending, ← pending_append_singleton hfresh, hrest.order]
              rfl
            · rw [List.foldlM_cons, hexec]
              exact hrest.effects

/-- A run, for any database and directory. -/
theorem run_executes (io : Io δ) (db : Db δ) (dir : Dir) :
    Executes io db (files dir) (run io db dir) := by
  rw [run]
  cases hstarts : io.starts with
  | false => exact executes_stopped (.inl hstarts)
  | true => exact executes_runFiles (ids_nodup dir)

/-- A run with nothing to execute changes nothing. -/
theorem run_of_pending_nil (h : pending db.records (files dir) = []) : (run io db dir).db = db := by
  have hexecutes := run_executes io db dir
  have horder := hexecutes.order
  rw [h] at horder
  obtain ⟨hnil, -⟩ := List.append_eq_nil_iff.mp horder.symm
  have hrecords := hexecutes.records
  have heffects := hexecutes.effects
  rw [hnil] at hrecords heffects
  exact Db.ext (hrecords.trans (List.append_nil _)) (Option.some.inj heffects).symm

/-! ## Any runs -/

/-- The database behind these runs, each with its directory, and what was executed, *ghost*. -/
def runAll (db : Db δ) : List (Io δ × Dir) → Db δ × List (Io δ × File)
  | [] => (db, [])
  | (io, dir) :: runs =>
    let r := run io db dir
    ((runAll r.db runs).1, r.executed.map (io, ·) ++ (runAll r.db runs).2)

/-- Everything that was executed is recorded, in this order, had not been and was executed once,
and nothing else has changed the database. -/
structure Once (db last : Db δ) (executed : List (Io δ × File)) : Prop where
  records : last.records = db.records ++ executed.map (·.2.id)
  fresh : ∀ x ∈ executed, x.2.id ∉ db.records
  once : (executed.map (·.2.id)).Nodup
  effects : executed.foldlM (fun data x => x.1.exec x.2.sql data) db.data = some last.data

/-- The files that a run executes. -/
theorem Executes.sublist {r : Result δ} (h : Executes io db fs r) :
    r.executed.Sublist (pending db.records fs) := by
  rw [h.order]
  exact List.sublist_append_left _ _

theorem once_run (io : Io δ) (db : Db δ) (dir : Dir) :
    Once db (run io db dir).db ((run io db dir).executed.map (io, ·)) := by
  have hexecutes := run_executes io db dir
  have hids : (((run io db dir).executed.map (io, ·)).map (·.2.id)) =
      (run io db dir).executed.map (·.id) := by
    rw [List.map_map]
    rfl
  refine ⟨?_, fun x hx => ?_, ?_, ?_⟩
  · rw [hids]
    exact hexecutes.records
  · obtain ⟨f, hf, rfl⟩ := List.mem_map.mp hx
    exact of_decide_eq_true (List.mem_filter.mp (hexecutes.sublist.subset hf)).2
  · rw [hids]
    exact (ids_nodup dir).sublist ((hexecutes.sublist.trans List.filter_sublist).map _)
  · rw [List.foldlM_map]
    exact hexecutes.effects

theorem Once.trans {last : Db δ} {executed executed' : List (Io δ × File)}
    (h : Once db db' executed) (h' : Once db' last executed') :
    Once db last (executed ++ executed') := by
  refine ⟨?_, fun x hx => ?_, ?_, ?_⟩
  · rw [h'.records, h.records, List.append_assoc, List.map_append]
  · obtain hx | hx := List.mem_append.mp hx
    · exact h.fresh x hx
    · exact fun hmem => h'.fresh x hx (h.records ▸ List.mem_append_left _ hmem)
  · rw [List.map_append]
    refine h.once.append h'.once fun id hid hid' => ?_
    obtain ⟨x, hx, rfl⟩ := List.mem_map.mp hid'
    exact h'.fresh x hx (h.records ▸ List.mem_append_right _ hid)
  · rw [List.foldlM_append, h.effects]
    exact h'.effects

theorem once_runAll (db : Db δ) (runs : List (Io δ × Dir)) :
    Once db (runAll db runs).1 (runAll db runs).2 := by
  induction runs generalizing db with
  | nil => exact ⟨(List.append_nil _).symm, List.forall_mem_nil _, List.nodup_nil, rfl⟩
  | cons x runs ih =>
    obtain ⟨io, dir⟩ := x
    exact (once_run io db dir).trans (ih _)

/-- Over any runs every id is executed once, and the next run executes the files that are not
recorded, in ascending order and up to the first that throws; when none has thrown, a further run
changes nothing. -/
theorem migrations_once (db : Db δ) (runs : List (Io δ × Dir)) :
    Once db (runAll db runs).1 (runAll db runs).2 ∧
    ∀ (io : Io δ) (dir : Dir),
      (files dir).Pairwise (·.name < ·.name) ∧
      (∀ f, f ∈ files dir ↔ f ∈ dir.entries ∧ extension f.name = ".sql".toList) ∧
      Executes io (runAll db runs).1 (files dir) (run io (runAll db runs).1 dir) ∧
      ((run io (runAll db runs).1 dir).ok = true → ∀ io' : Io δ,
        (run io' (run io (runAll db runs).1 dir).db dir).db = (run io (runAll db runs).1 dir).db) :=
  ⟨once_runAll db runs, fun io dir => ⟨names_ascending dir, fun _ => mem_files,
    run_executes io _ dir, fun hok _ => run_of_pending_nil ((run_executes io _ dir).all hok)⟩⟩

/-- The second file throws at first; the other two are executed in the next run, behind a new file
in front of them. -/
example :
    let a : File := ⟨"001_a.sql", "a"⟩
    let b : File := ⟨"002_b.sql", "b"⟩
    let c : File := ⟨"001_c.sql", "c"⟩
    let io (bad : String) : Io (List String) :=
      { exec := fun sql data => if sql = bad then none else some (data ++ [sql]) }
    (runAll ⟨[], []⟩ [(io "b", ⟨[b, a, ⟨"README.md", ""⟩], by decide⟩),
      (io "", ⟨[b, a, c], by decide⟩)]).1 =
      ⟨["001_a", "001_c", "002_b"], ["a", "c", "b"]⟩ := by
  decide

end ShareFrame.MigrationRunner
