import Mathlib.Tactic.Common

/-!
# Pipes that lose messages

A writer puts messages into a pipe, a reader takes them out in order, and between the two any of
them can get lost. What was read, with what is still on its way behind it, is a part of what was
written (`Ok`), and all of it as long as nothing was lost (`Whole`).
-/

universe u v

structure Pipe (μ : Type u) where
  flight : List μ := []
  /-- *ghost* -/
  written : List μ := []
  /-- *ghost* -/
  read : List μ := []
  deriving DecidableEq

namespace Pipe

variable {μ : Type u}

def write (p : Pipe μ) (msg : μ) : Pipe μ :=
  { p with flight := p.flight ++ [msg], written := p.written ++ [msg] }

/-- A message that is written and does not get on its way. -/
def drop (p : Pipe μ) (msg : μ) : Pipe μ := { p with written := p.written ++ [msg] }

def lose (p : Pipe μ) (i : Nat) : Pipe μ := { p with flight := p.flight.eraseIdx i }

def take (p : Pipe μ) : Option (μ × Pipe μ) :=
  match p.flight with
  | [] => none
  | msg :: flight => some (msg, { p with flight, read := p.read ++ [msg] })

def Ok (p : Pipe μ) : Prop := (p.read ++ p.flight).Sublist p.written

def Whole (p : Pipe μ) : Prop := p.read ++ p.flight = p.written

variable {p p' : Pipe μ} {msg : μ}

theorem take_eq_some (h : p.take = some (msg, p')) :
    ∃ flight, p.flight = msg :: flight ∧ p' = { p with flight, read := p.read ++ [msg] } := by
  unfold take at h
  split at h
  · cases h
  next msg' flight hflight =>
    cases h
    exact ⟨flight, hflight, rfl⟩

theorem ok_empty : ({} : Pipe μ).Ok := .slnil

theorem Ok.write (h : p.Ok) (msg : μ) : (p.write msg).Ok := by
  unfold Ok Pipe.write
  rw [← List.append_assoc]
  exact h.append (.refl _)

theorem Ok.drop (h : p.Ok) (msg : μ) : (p.drop msg).Ok :=
  List.Sublist.trans h (List.sublist_append_left _ _)

theorem Ok.lose (h : p.Ok) (i : Nat) : (p.lose i).Ok :=
  ((List.Sublist.refl _).append (List.eraseIdx_sublist _ _)).trans h

theorem Ok.take (h : p.Ok) (hp : p.take = some (msg, p')) : p'.Ok := by
  obtain ⟨flight, hflight, rfl⟩ := take_eq_some hp
  unfold Ok at h ⊢
  rw [hflight] at h
  simpa using h

theorem Ok.sublist (h : p.Ok) : p.read.Sublist p.written :=
  (List.sublist_append_left _ _).trans h

theorem whole_empty : ({} : Pipe μ).Whole := rfl

theorem Whole.write (h : p.Whole) (msg : μ) : (p.write msg).Whole := by
  unfold Whole at h
  simp only [Whole, Pipe.write, ← h, List.append_assoc]

theorem Whole.take (h : p.Whole) (hp : p.take = some (msg, p')) : p'.Whole := by
  obtain ⟨flight, hflight, rfl⟩ := take_eq_some hp
  unfold Whole at h ⊢
  rw [hflight] at h
  simpa using h

theorem Whole.read_eq (h : p.Whole) (hflight : p.flight = []) : p.read = p.written := by
  rw [← h, hflight, List.append_nil]

end Pipe
