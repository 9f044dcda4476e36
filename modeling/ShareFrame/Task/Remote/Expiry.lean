import Mathlib.Algebra.GroupWithZero.Nat
import ShareFrame.Task.Remote.Gates
import ShareFrame.Util.Clock

/-!
# Expired commands

The operations of a command take time, any amount of it. The first one reads the
system clock: a command that is expired by then, however long it was queued, is
rejected and acts on nothing (`checked_first`). Behind it the clock is not looked at
again; an action is late by what the operations in between took, at most.
-/

namespace ShareFrame.RemoteCommand

open Interaction Prog DiagnosticsUploader

/-- Operations with the time that each takes, in ticks. -/
abbrev Timed := List (Event × Nat)

namespace Timed

def events (t : Timed) : List Event := t.map (·.1)

def elapsed (t : Timed) : Nat := (t.map (·.2)).sum

end Timed

/-- The system clock in whole seconds. -/
def systemSecs (ticks : Nat) : Int := ((ticks / second : Nat) : Int)

/-- The clock is read right at this time. -/
def readAt (ticks : Nat) : Event → Bool
  | ⟨.systemNow, now⟩ => now = systemSecs ticks
  | _ => true

/-- Every reading of the clock is right, where the first operation starts at this time. -/
def clocked : Nat → Timed → Bool
  | _, [] => true
  | ticks, (e, duration) :: t => readAt ticks e && clocked (ticks + duration) t

variable {timing : Timing} {cfg : Config} {c : Command} {msg : Json} {start : Nat} {t : Timed}

/-- The first reading of a command. -/
theorem systemNow_of_clocked {now : Int} {rest : List Event} (hclock : clocked start t = true)
    (ht : t.events = ⟨.systemNow, now⟩ :: rest) : now = systemSecs start := by
  cases t with
  | nil => cases ht
  | cons x t =>
    obtain ⟨e, duration⟩ := x
    obtain ⟨rfl, -⟩ := List.cons.inj ht
    have hread := (Bool.and_eq_true_iff.mp hclock).1
    simpa [readAt] using hread

/-- An action comes behind a reading of the clock in time. -/
theorem inTime_of_calls {op : Op} (hclock : clocked start t = true)
    (hcall : Calls (handle timing cfg msg) t.events op) (hop : op.isAction = true) :
    ∃ c, readCommand msg = .ok c ∧ systemSecs start ≤ c.expiresAt := by
  obtain ⟨c, t₁, res, t₂, hread, -, ht, -, clock, idle, newer, board, display, saved, rfl, hin, -⟩ :=
    passed_of_calls hcall hop
  obtain ⟨now, hnow, rfl⟩ := hin
  have hstart := systemNow_of_clocked hclock ht
  exact ⟨c, hread, hstart ▸ hnow⟩

/-- A command looks at the clock first. -/
theorem perform_eq (timing : Timing) (cfg : Config) (hwell : (wellFormed c).ok = true) :
    ∃ k : Int → Remote Unit, perform timing cfg c = .call .systemNow k ∧
      ∀ now, c.expiresAt < now → k now = reject c "expired" := by
  unfold perform gates andThen
  rw [pure_eq, pure_bind_eq, if_pos hwell]
  refine ⟨_, rfl, fun now hlate => ?_⟩
  simp only [Prog.bind, Pure.pure]
  rw [if_pos hlate]
  rfl

/-- A command that is expired goes no further than the clock. -/
theorem runs_expired {r : Except Error Unit} (hread : readCommand msg = .ok c)
    (hwell : (wellFormed c).ok = true) (hclock : clocked start t = true)
    (hlate : c.expiresAt < systemSecs start) (hrun : Runs (handle timing cfg msg) t.events r) :
    r = .ok () ∧ ∃ res, t.events = [⟨.systemNow, systemSecs start⟩,
      ⟨.run ["shareframe-event", "remote", eventLine c "rejected (expired)"] 5, res⟩,
      ⟨.publish (commandResult c.id "rejected" "expired"), ()⟩] := by
  obtain ⟨k, hfirst, hexpired⟩ := perform_eq timing cfg hwell
  rw [handle_of_ok hread, hfirst] at hrun
  obtain ⟨now, t₁, ht, hreject⟩ := runs_call.mp hrun
  obtain rfl := systemNow_of_clocked hclock ht
  rw [hexpired _ hlate] at hreject
  obtain ⟨res, t₂, rfl, hreply⟩ := runs_ask_bind.mp hreject
  obtain ⟨_, rfl, rfl⟩ := runs_ask.mp hreply
  exact ⟨rfl, res, ht⟩

/-- A command that has expired when it is taken up starts no action and, unless it is refused
for its fields, is rejected as expired. An action comes at most so much later than `expires_at` as
the operations behind the check have taken. -/
theorem checked_first (hclock : clocked start t = true) :
    (∀ op, Calls (handle timing cfg msg) t.events op → op.isAction = true →
      ∃ c, readCommand msg = .ok c ∧ systemSecs start ≤ c.expiresAt ∧
        systemSecs (start + t.elapsed) ≤ c.expiresAt + systemSecs (t.elapsed + (second - 1))) ∧
    ∀ c r, readCommand msg = .ok c → (wellFormed c).ok = true → c.expiresAt < systemSecs start →
      Runs (handle timing cfg msg) t.events r →
        r = .ok () ∧ ∃ res, t.events = [⟨.systemNow, systemSecs start⟩,
          ⟨.run ["shareframe-event", "remote", eventLine c "rejected (expired)"] 5, res⟩,
          ⟨.publish (commandResult c.id "rejected" "expired"), ()⟩] := by
  refine ⟨fun op hcall hop => ?_, fun c r hread hwell hlate hrun =>
    runs_expired hread hwell hclock hlate hrun⟩
  obtain ⟨c, hread, hintime⟩ := inTime_of_calls hclock hcall hop
  refine ⟨c, hread, hintime, ?_⟩
  simp only [systemSecs, second] at hintime ⊢
  omega

/-- The logs of the frame take 55 seconds to collect. -/
def slowly : Op → Nat
  | .run ("shareframe-diag" :: _) _ => 55 * second
  | .sleepFor millis => millis * 1000000
  | _ => 0

def slowReboot : Timed := rebootAnswers.map fun e => (e, slowly e.1)

theorem calls_slowReboot :
    Calls (handle {} uploads rebootCommand) slowReboot.events (.run ["reboot"] 5) := by
  have hevents : slowReboot.events = rebootAnswers := by
    simp [slowReboot, Timed.events, Function.comp_def]
  rw [hevents]
  exact calls_iff_follow.mpr (by decide +kernel)

theorem checked_first_reboot :
    ∃ c, readCommand rebootCommand = .ok c ∧ systemSecs (50 * second) ≤ c.expiresAt ∧
      systemSecs (50 * second + slowReboot.elapsed) ≤
        c.expiresAt + systemSecs (slowReboot.elapsed + (second - 1)) :=
  (checked_first (by decide +kernel)).1 _ calls_slowReboot rfl

/-- The command expires at 100 and is taken up at 50; the reboot is started at 107. -/
theorem reboot_late : ∃ start, ∃ t : Timed, ∃ c, clocked start t = true ∧
    Calls (handle {} uploads rebootCommand) t.events (.run ["reboot"] 5) ∧
    readCommand rebootCommand = .ok c ∧ c.expiresAt = 100 ∧ systemSecs (start + t.elapsed) = 107 :=
  ⟨50 * second, slowReboot, ⟨7, "reboot", "", 100⟩, by decide +kernel, calls_slowReboot, by rfl, rfl,
    by decide +kernel⟩

end ShareFrame.RemoteCommand
