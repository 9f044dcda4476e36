import Mathlib.Logic.Function.Basic
import ShareFrame.Net.HTTPClient
import ShareFrame.Util.Json

/-!
# The frame access token

Threads of several services look up the token in one table; a service has one
`AuthTokenManager`. A lookup reads the row at up to three places, and a request to
the server may lie between two of them. The last read is dereferenced without a
look (`absent`): it finds a row unless the last statement that wrote the table is
a `DELETE` of another thread (`absent_iff`).
-/

namespace ShareFrame.AuthTokenManager

open Transition
open HTTPClient (HttpResponse)

structure Token where
  value : String
  expiresAt : Int
  deriving DecidableEq, Repr

/-- What `fetchAndSaveToken` makes of an answer. -/
inductive Fetched where
  | token (token : Token)
  | unregistered
  | failed
  deriving DecidableEq

section

variable (parse : String → Option Json) (parseIso8601ToUnix : String → Option Int)

/-- The body of an answer that carries a token. -/
def readToken (body : String) : Option Token :=
  match parse body with
  | none => none
  | some j =>
    match j.at_ "access_token" >>= Json.getString, j.at_ "expires_at" >>= Json.getString with
    | .ok value, .ok expiresAt => (parseIso8601ToUnix expiresAt).map (Token.mk value)
    | _, _ => none

/-- `fetchAndSaveToken` up to the save. -/
def fetched (res : HttpResponse) : Fetched :=
  if !res.ok then
    match parse res.body with
    | some (.obj members) =>
      match (Json.obj members).value Json.getString "code" "" with
      | .ok "frame_unregistered" => .unregistered
      | _ => .failed
    | _ => .failed
  else match readToken parse parseIso8601ToUnix res.body with
    | some token => .token token
    | none => .failed

end

/-- Where a thread is in `getOrFetchToken`. -/
inductive Pc where
  | out
  /-- `isExpiredLocally` -/
  | checkLocal
  /-- `isExpiredServer` -/
  | checkServer
  | verifying (value : String)
  /-- `fetchAndSaveToken` -/
  | fetching
  | deleting (token : Token)
  | inserting (token : Token)
  /-- the row was there: `_repo.get()->value` -/
  | read
  | returned (value : Option String)
  /-- it dereferenced an empty optional -/
  | absent
  deriving DecidableEq

inductive Write where
  | delete
  | insert
  deriving DecidableEq

structure State where
  table : List Token := []
  threads : Nat → Pc := fun _ => .out
  /-- `_unregistered` of each manager -/
  unregistered : Nat → Bool := fun _ => false
  /-- *ghost*: the last statement that wrote the table, and whose it was -/
  last : Option (Nat × Write) := none

inductive Act where
  | getOrFetchToken (i : Nat)
  | invalidate (i : Nat)
  | checkLocal (i : Nat) (now : Int)
  | checkServer (i : Nat)
  | verified (i : Nat) (res : HttpResponse)
  /-- the answer, or `none` where building the headers throws -/
  | fetched (i : Nat) (res : Option HttpResponse)
  /-- the two statements of `save`; one that fails throws -/
  | delete (i : Nat) (ok : Bool)
  | insert (i : Nat) (ok : Bool)
  | read (i : Nat)

def State.goto (s : State) (i : Nat) (pc : Pc) : State :=
  { s with threads := Function.update s.threads i pc }

def State.delete (s : State) (i : Nat) : State := { s with table := [], last := some (i, .delete) }

def State.insert (s : State) (i : Nat) (token : Token) : State :=
  { s with table := s.table ++ [token], last := some (i, .insert) }

/-- `getOrFetchToken` behind the fetch. -/
def State.refused (s : State) (m i : Nat) (unregistered : Bool) : State :=
  { s.goto i (.returned none) with unregistered := Function.update s.unregistered m unregistered }

/-- Whether the thread is at rest. -/
def Pc.resting : Pc → Bool
  | .out | .returned _ => true
  | _ => false

variable (parse : String → Option Json) (parseIso8601ToUnix : String → Option Int) (manager : Nat → Nat)

def step (s : State) : Act → Option State
  | .getOrFetchToken i => if (s.threads i).resting then some (s.goto i .checkLocal) else none
  | .invalidate i => if (s.threads i).resting then some (s.delete i) else none
  | .checkLocal i now =>
    match s.threads i with
    | .checkLocal =>
      match s.table.head? with
      | none => some (s.goto i .checkServer)
      | some token => some (s.goto i (if now ≥ token.expiresAt then .checkServer else .read))
    | _ => none
  | .checkServer i =>
    match s.threads i with
    | .checkServer =>
      match s.table.head? with
      | none => some (s.goto i .fetching)
      | some token => some (s.goto i (.verifying token.value))
    | _ => none
  | .verified i res =>
    match s.threads i with
    | .verifying _ => some (s.goto i (if res.ok then .read else .fetching))
    | _ => none
  | .fetched i res =>
    match s.threads i with
    | .fetching =>
      match res.map (fetched parse parseIso8601ToUnix) with
      | some (.token token) => some (s.goto i (.deleting token))
      | some .unregistered => some (s.refused (manager i) i true)
      | some .failed | none => some (s.refused (manager i) i false)
    | _ => none
  | .delete i ok =>
    match s.threads i with
    | .deleting token =>
      if ok then some ((s.delete i).goto i (.inserting token))
      else some (s.refused (manager i) i false)
    | _ => none
  | .insert i ok =>
    match s.threads i with
    | .inserting token =>
      if ok then
        some { (s.insert i token).goto i .read with
          unregistered := Function.update s.unregistered (manager i) false }
      else some (s.refused (manager i) i false)
    | _ => none
  | .read i =>
    match s.threads i with
    | .read =>
      match s.table.head? with
      | none => some (s.goto i .absent)
      | some token => some (s.goto i (.returned (some token.value)))
    | _ => none

/-- No thread looks up a token yet; there may be rows. -/
def Init (s : State) : Prop := (∀ i, s.threads i = .out) ∧ s.last = none

def machine : Machine State Act := ⟨Init, step parse parseIso8601ToUnix manager⟩

/-- The thread has seen a row and will read it again. -/
def Pc.relies : Pc → Bool
  | .verifying _ | .read => true
  | _ => false

structure Inv (s : State) : Prop where
  deleted : ∀ j, s.last = some (j, .delete) → s.table = []
  /-- A row that was seen goes by a `DELETE` of another thread. -/
  relies : ∀ i, (s.threads i).relies → s.table = [] → ∃ j, j ≠ i ∧ s.last = some (j, .delete)

variable {parse parseIso8601ToUnix manager} {s s' : State} {i : Nat} {pc : Pc} {a : Act}

/-- A statement that writes nothing. -/
theorem Inv.goto (h : Inv s) (hpc : pc.relies → s.table ≠ [] ∨ (s.threads i).relies) :
    Inv (s.goto i pc) where
  deleted := h.deleted
  relies k hk hempty := by
    by_cases hki : k = i
    · subst hki
      have hk : pc.relies := by simpa [State.goto] using hk
      exact (hpc hk).elim (absurd hempty) fun hrelies => h.relies k hrelies hempty
    · exact h.relies k (by simpa [State.goto, hki] using hk) hempty

theorem Inv.refused {m : Nat} {b : Bool} (h : Inv s) : Inv (s.refused m i b) :=
  have hgoto : Inv (s.goto i (.returned none)) := h.goto nofun
  ⟨h.deleted, hgoto.relies⟩

theorem Inv.delete (hi : (s.threads i).relies = false) : Inv (s.delete i) where
  deleted _ _ := rfl
  relies k hk _ := by
    refine ⟨i, ?_, rfl⟩
    rintro rfl
    exact absurd (hi.symm.trans hk) (by decide)

theorem Inv.insert {token : Token} : Inv (s.insert i token) where
  deleted _ hlast := by cases hlast
  relies _ _ hempty := by simp [State.insert] at hempty

theorem inv_inductive : (machine parse parseIso8601ToUnix manager).Inductive (fun _ _ => True) Inv where
  init s h := by
    obtain ⟨hout, hlast⟩ := h
    refine ⟨fun j hj => ?_, fun i hi => ?_⟩
    · rw [hlast] at hj; cases hj
    · rw [hout i] at hi; cases hi
  step s a s' h _ hs := by
    have hs : step parse parseIso8601ToUnix manager s a = some s' := hs
    have hne {token : Token} (hhead : s.table.head? = some token) : s.table ≠ [] := by
      rintro hnil
      rw [hnil] at hhead
      cases hhead
    cases a with
    | getOrFetchToken i =>
      obtain ⟨-, hs⟩ := Option.ite_none_right_eq_some.mp hs
      cases hs
      exact h.goto nofun
    | invalidate i =>
      obtain ⟨hrest, hs⟩ := Option.ite_none_right_eq_some.mp hs
      cases hs
      refine .delete ?_
      cases hi : s.threads i <;> first | rfl | (rw [hi] at hrest; cases hrest)
    | checkLocal i now =>
      simp only [step] at hs
      split at hs
      · split at hs <;> cases hs
        · exact h.goto nofun
        next token hhead => exact h.goto fun _ => .inl (hne hhead)
      · cases hs
    | checkServer i =>
      simp only [step] at hs
      split at hs
      · split at hs <;> cases hs
        · exact h.goto nofun
        next token hhead => exact h.goto fun _ => .inl (hne hhead)
      · cases hs
    | verified i res =>
      simp only [step] at hs
      split at hs <;> cases hs
      next hi => exact h.goto fun _ => .inr (by rw [hi]; rfl)
    | fetched i res =>
      simp only [step] at hs
      split at hs
      · split at hs <;> cases hs
        · exact h.goto nofun
        all_goals exact h.refused
      · cases hs
    | delete i ok =>
      simp only [step] at hs
      split at hs
      next hi =>
        split at hs <;> cases hs
        · exact (Inv.delete (by rw [hi]; rfl)).goto nofun
        · exact h.refused
      · cases hs
    | insert i ok =>
      simp only [step] at hs
      split at hs
      next token hi =>
        split at hs <;> cases hs
        · have hread : Inv ((s.insert i token).goto i .read) :=
            Inv.insert.goto fun _ => .inl (by simp [State.insert])
          exact ⟨hread.deleted, hread.relies⟩
        · exact h.refused
      · cases hs
    | read i =>
      simp only [step] at hs
      split at hs
      · split at hs <;> cases hs <;> exact h.goto nofun
      · cases hs

/-- The last read of a lookup comes when the table was not just emptied by another thread. -/
def Timely (s : State) : Act → Prop
  | .read i => ¬ ∃ j, j ≠ i ∧ s.last = some (j, .delete)
  | _ => True

theorem exists_of_read (hs : step parse parseIso8601ToUnix manager s (.read i) = some s') :
    s.threads i = .read ∧ ((∃ token ∈ s.table, s'.threads i = .returned (some token.value)) ∨
      s.table = [] ∧ s'.threads i = .absent) := by
  simp only [step] at hs
  split at hs
  next hi =>
    refine ⟨hi, ?_⟩
    cases htable : s.table with
    | nil =>
      rw [htable] at hs
      cases hs
      exact .inr ⟨rfl, by simp [State.goto]⟩
    | cons token table =>
      rw [htable] at hs
      cases hs
      exact .inl ⟨token, List.mem_cons_self, by simp [State.goto]⟩
  next => cases hs

/-- The last read finds no row if and only if the last statement that wrote the table is a `DELETE`
of another thread. -/
theorem empty_iff (hr : (machine parse parseIso8601ToUnix manager).Reachable s)
    (hi : s.threads i = .read) : s.table = [] ↔ ¬ Timely s (.read i) := by
  obtain ⟨hdeleted, hrelies⟩ := inv_inductive.of_reachable hr
  constructor
  · exact fun hempty htimely => htimely (hrelies i (by rw [hi]; rfl) hempty)
  · intro hlate
    obtain ⟨j, -, hlast⟩ := not_not.mp hlate
    exact hdeleted j hlast

theorem absent_of_goto {k : Nat} (h : (s.goto i pc).threads k = .absent) (hpc : pc ≠ .absent) :
    s.threads k = .absent := by
  by_cases hki : k = i
  · subst hki
    exact absurd (by simpa [State.goto] using h) hpc
  · simpa [State.goto, hki] using h

/-- Only the last read dereferences without a look. -/
theorem absent_of_step {k : Nat} (hs : step parse parseIso8601ToUnix manager s a = some s')
    (h : s'.threads k = .absent) : s.threads k = .absent ∨ a = .read k := by
  cases a with
  | read i =>
    by_cases hki : k = i
    · exact .inr (hki ▸ rfl)
    simp only [step] at hs
    split at hs
    · split at hs <;> cases hs <;> exact .inl (by simpa [State.goto, hki] using h)
    · cases hs
  | getOrFetchToken i =>
    obtain ⟨-, hs⟩ := Option.ite_none_right_eq_some.mp hs
    cases hs
    exact .inl (absent_of_goto h nofun)
  | invalidate i =>
    obtain ⟨-, hs⟩ := Option.ite_none_right_eq_some.mp hs
    cases hs
    exact .inl h
  | checkLocal i now =>
    simp only [step] at hs
    split at hs
    · split at hs <;> cases hs
      · exact .inl (absent_of_goto h nofun)
      · exact .inl (absent_of_goto h (by split <;> nofun))
    · cases hs
  | checkServer i =>
    simp only [step] at hs
    split at hs
    · split at hs <;> cases hs <;> exact .inl (absent_of_goto h nofun)
    · cases hs
  | verified i res =>
    simp only [step] at hs
    split at hs <;> cases hs
    exact .inl (absent_of_goto h (by split <;> nofun))
  | fetched i res =>
    simp only [step] at hs
    split at hs
    · split at hs <;> cases hs
      all_goals exact .inl (absent_of_goto (s := s) (i := i) h nofun)
    · cases hs
  | delete i ok =>
    simp only [step] at hs
    split at hs
    · split at hs <;> cases hs
      · exact .inl (absent_of_goto (s := s.delete i) h nofun)
      · exact .inl (absent_of_goto (s := s) (i := i) h nofun)
    · cases hs
  | insert i ok =>
    simp only [step] at hs
    split at hs
    · split at hs <;> cases hs
      · exact .inl (absent_of_goto (s := s.insert i _) (i := i) h nofun)
      · exact .inl (absent_of_goto (s := s) (i := i) h nofun)
    · cases hs

/-- In runs whose last reads are timely no lookup dereferences an absent row; a last read that is not
timely does, the others return the token of a row. -/
theorem absent_iff :
    (∀ s i, (machine parse parseIso8601ToUnix manager).ReachableBy Timely s → s.threads i ≠ .absent) ∧
    ∀ s s' i, (machine parse parseIso8601ToUnix manager).Reachable s →
      step parse parseIso8601ToUnix manager s (.read i) = some s' →
        ((∃ token ∈ s.table, s'.threads i = .returned (some token.value)) ↔ Timely s (.read i)) ∧
        (s'.threads i = .absent ↔ ¬ Timely s (.read i)) := by
  have hread {s s' : State} {i : Nat} (hr : (machine parse parseIso8601ToUnix manager).Reachable s)
      (hs : step parse parseIso8601ToUnix manager s (.read i) = some s') :
      ((∃ token ∈ s.table, s'.threads i = .returned (some token.value)) ↔ Timely s (.read i)) ∧
        (s'.threads i = .absent ↔ ¬ Timely s (.read i)) := by
    obtain ⟨hi, hend⟩ := exists_of_read hs
    have hempty := empty_iff hr hi
    obtain ⟨token, htoken, hreturned⟩ | ⟨hnil, habsent⟩ := hend
    · have htimely : Timely s (.read i) := not_not.mp fun hlate =>
        absurd (hempty.mpr hlate) (List.ne_nil_of_mem htoken)
      exact ⟨iff_of_true ⟨token, htoken, hreturned⟩ htimely,
        iff_of_false (by rw [hreturned]; nofun) (not_not.mpr htimely)⟩
    · have hlate := hempty.mp hnil
      refine ⟨iff_of_false ?_ hlate, iff_of_true habsent hlate⟩
      rintro ⟨token, htoken, -⟩
      rw [hnil] at htoken
      cases htoken
  refine ⟨fun s i hr => ?_, fun s s' i hr hs => hread hr hs⟩
  induction hr with
  | init h =>
    rw [h.1 i]
    nofun
  | step hr hG hs ih =>
    intro h
    obtain hold | rfl := absent_of_step hs h
    · exact ih hold
    · exact (hread hr.reachable hs).2.mp h hG

/-- A stored token, and no lookup yet. -/
def stored : State := { table := [⟨"t", 100⟩] }

theorem init_stored {parse : String → Option Json} {parseIso8601ToUnix : String → Option Int}
    {manager : Nat → Nat} : (machine parse parseIso8601ToUnix manager).Init stored := ⟨fun _ => rfl, rfl⟩

/-- The token is invalidated behind the last read. -/
theorem absent_iff_stored :
    ∃ s : State, (machine (fun _ => none) (fun _ => none) id).Reachable s ∧ s.table = [] ∧
      s.threads 0 = .returned (some "t") ∧ s.threads 0 ≠ .absent := by
  have hmeets : (machine (fun _ => none) (fun _ => none) id).Meets Timely stored
      [.getOrFetchToken 0, .checkLocal 0 50, .read 0, .invalidate 1] := by
    refine ⟨trivial, fun _ h => ?_⟩
    cases h
    refine ⟨trivial, fun _ h => ?_⟩
    cases h
    refine ⟨?_, fun _ _ => ⟨trivial, fun _ _ => trivial⟩⟩
    rintro ⟨j, -, hlast⟩
    cases hlast
  have hread := Machine.ReachableBy.run _ (.init init_stored) hmeets rfl
  exact ⟨_, hread.reachable, rfl, rfl, absent_iff.1 _ 0 hread⟩

/-- Another thread invalidates the token between the check and the last read. -/
theorem invalidated_between_reads :
    ∃ s, (machine (fun _ => none) (fun _ => none) id).Reachable s ∧ s.threads 0 = .absent :=
  Machine.exists_reachable_of_run [.getOrFetchToken 0, .checkLocal 0 50, .invalidate 1, .read 0]
    init_stored ⟨_, rfl, rfl⟩

end ShareFrame.AuthTokenManager
