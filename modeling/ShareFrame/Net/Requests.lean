import ShareFrame.Net.Download

/-!
# How many requests a download sends

A round that can open its file sends one request. The attempt limit is tested on
lost connections only: a refused resume goes back to the head of the loop without
it. The refusal empties the file, so the round behind it cannot be refused again,
and a call ends after at most one attempt more than the limit (`last_step`). It
keeps to the limit unless the resume of the last attempt is refused
(`requests_le_iff`).
-/

namespace ShareFrame.HTTPClient

open Transition

variable {destPath : String} {resource : Bytes}

/-- The `GET`s of these rounds. -/
def requests (rs : List Round) : Nat := rs.countP (·.opens)

/-- The resume of the last attempt is refused, and the file can be opened once more. -/
def RefusedLast (destPath : String) : State → List Round → Prop
  | s, r :: r' :: rs =>
    s.attempt = kMaxDownloadAttempts ∧ r.empties s.offset ∧ r'.opens = true ∨
      ∃ s', step destPath s r = some s' ∧ RefusedLast destPath s' (r' :: rs)
  | _, _ => False

/-- Behind the last attempt the file is empty: no resume is refused, and the call returns. -/
theorem last_step (destPath : String) {s : State} (hresult : s.result = none)
    (hattempt : kMaxDownloadAttempts ≤ s.attempt) (hoffset : s.offset = 0) (r : Round) :
    ∃ s', step destPath s r = some s' ∧ s'.result.isSome := by
  obtain ⟨s', hs, hends | hgoes⟩ := step_goesOn destPath hresult r
  · exact ⟨s', hs, hends⟩
  · obtain hearly | ⟨-, -, -, hrestart⟩ := hgoes.early
    · omega
    · simp [Round.restart, hoffset] at hrestart

/-- The first rounds of a sequence. -/
def firstRounds (rounds : Nat → Round) (n : Nat) : List Round := (List.range n).map rounds

theorem firstRounds_succ (rounds : Nat → Round) (n : Nat) :
    firstRounds rounds (n + 1) = rounds 0 :: firstRounds (fun i => rounds (i + 1)) n := by
  rw [firstRounds, List.range_succ_eq_map, List.map_cons, List.map_map]
  rfl

/-- The call returns behind the first `n` rounds, within the limit unless `RefusedLast`. -/
structure Returns (destPath : String) (resource : Bytes) (s : State) (rounds : Nat → Round)
    (n : Nat) : Prop where
  bound : s.attempt + n ≤ kMaxDownloadAttempts + 2
  returns : ∃ t, (machine destPath resource).run s (firstRounds rounds n) = some t ∧ t.result.isSome
  requests_le : s.attempt + requests (firstRounds rounds n) ≤ kMaxDownloadAttempts + 1 ↔
    ¬ RefusedLast destPath s (firstRounds rounds n)

theorem Returns.now {s s' : State} {rounds : Nat → Round}
    (hattempt : s.attempt ≤ kMaxDownloadAttempts) (hs : step destPath s (rounds 0) = some s')
    (hends : s'.result.isSome) :
    Returns destPath resource s rounds 1 := by
  refine ⟨by omega, ⟨s', by simp [firstRounds, Machine.run, machine, hs], hends⟩, ?_⟩
  have hle : requests (firstRounds rounds 1) ≤ 1 := List.countP_le_length
  exact iff_of_true (by omega) id

/-- The rounds up to the return of a call that is within the limit. -/
theorem exists_returns (destPath : String) (resource : Bytes) (k : Nat) {s : State}
    (rounds : Nat → Round) (hresult : s.result = none)
    (hattempt : s.attempt + k = kMaxDownloadAttempts) :
    ∃ n, Returns destPath resource s rounds n := by
  induction k generalizing s rounds with
  | zero =>
    obtain ⟨s', hs, hends | hgoes⟩ := step_goesOn destPath hresult (rounds 0)
    · exact ⟨1, .now (by omega) hs hends⟩
    · have hempties := hgoes.early.resolve_left (by omega)
      have hnext := hgoes.attempt
      obtain ⟨t, ht, hends⟩ := last_step destPath hgoes.result (by omega)
        (hgoes.emptied hempties) (rounds 1)
      have hrounds : firstRounds rounds 2 = [rounds 0, rounds 1] := rfl
      refine ⟨2, by omega, ⟨t, ?_, hends⟩, ?_⟩
      · rw [hrounds]
        simp [Machine.run, machine, hs, ht]
      · rw [hrounds, requests, List.countP_cons_of_pos hgoes.opens, List.countP_singleton]
        have hlast : RefusedLast destPath s [rounds 0, rounds 1] ↔ (rounds 1).opens = true := by
          simp [RefusedLast, hempties, show s.attempt = kMaxDownloadAttempts from hattempt]
        rw [hlast]
        cases hopens : (rounds 1).opens <;> simp <;> omega
  | succ k ih =>
    obtain ⟨s', hs, hends | hgoes⟩ := step_goesOn destPath hresult (rounds 0)
    · exact ⟨1, .now (by omega) hs hends⟩
    · have hnext := hgoes.attempt
      obtain ⟨n, hbound, ⟨t, hrun, hends⟩, hle⟩ :=
        ih (fun i => rounds (i + 1)) hgoes.result (by omega)
      refine ⟨n + 1, by omega, ⟨t, ?_, hends⟩, ?_⟩
      · rw [firstRounds_succ, Machine.run,
          show (machine destPath resource).step s (rounds 0) = _ from hs]
        exact hrun
      · rw [firstRounds_succ, requests, List.countP_cons_of_pos hgoes.opens]
        rw [requests, hnext] at hle
        rw [show s.attempt + (List.countP (·.opens) (firstRounds (fun i => rounds (i + 1)) n) + 1) =
          s.attempt + 1 + List.countP (·.opens) (firstRounds (fun i => rounds (i + 1)) n) by omega, hle]
        refine not_congr ?_
        cases hrest : firstRounds (fun i => rounds (i + 1)) n with
        | nil => exact Iff.rfl
        | cons r' rs =>
          have hearly : s.attempt ≠ kMaxDownloadAttempts := by omega
          simp [RefusedLast, hearly, hs]

/-- A call returns for every file and every sequence of rounds, behind at most one round more than
the limit. It sends no more requests than the limit if and only if the resume of the last attempt is
not refused. -/
theorem requests_le_iff (file : Option Bytes) (rounds : Nat → Round) :
    ∃ n ≤ kMaxDownloadAttempts + 1,
      (∃ t, (machine destPath resource).run { file } (firstRounds rounds n) = some t ∧
        t.result.isSome) ∧
      (requests (firstRounds rounds n) ≤ kMaxDownloadAttempts ↔
        ¬ RefusedLast destPath { file } (firstRounds rounds n)) := by
  have hfirst : ({ file } : State).attempt = 1 := rfl
  obtain ⟨n, hbound, hreturns, hle⟩ :=
    exists_returns destPath resource 29 (s := { file }) rounds rfl rfl
  rw [hfirst] at hbound hle
  refine ⟨n, by omega, hreturns, ?_⟩
  rw [← hle]
  omega

/-- Every round breaks off behind one more byte; the resume of the last attempt is refused. -/
def crawl (i : Nat) : Round :=
  if i = 0 then { answer := some { statusCode := 200, errorCode := .cannotReadBody }, received := [1] }
  else if i < 29 then
    { answer := some { statusCode := 206, errorCode := .cannotReadBody }, received := [1] }
  else if i = 29 then { answer := some { statusCode := 416 } }
  else { answer := some { statusCode := 200 }, received := [1] }

theorem one_too_many :
    ∃ t, (machine "a.part" []).run { file := none } (firstRounds crawl 31) = some t ∧
    t.result = some ⟨200, "", ""⟩ ∧ requests (firstRounds crawl 31) = 31 ∧ kMaxDownloadAttempts = 30 :=
  ⟨_, rfl, rfl, rfl, rfl⟩

end ShareFrame.HTTPClient
