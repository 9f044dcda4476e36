import Mathlib.Tactic.Common

/-!
# The quiet-hours window

`Tm` is the part of `std::tm` the window reads; `Tm.ofLocal n` is the time of
day of local second `n`. `secsUntilEnd` and `secsUntilStart` are the two
countdowns of `NightWindow.hpp`; hours are the C++ `int`s. `InWindow` is the
half-open window `[start:00, end:00)` on seconds of the day, and
`inWindow_of_lt_end`, `not_inWindow_of_lt_start` say that inside and outside
last exactly until the countdown runs out.
-/

namespace ShareFrame

/-- What the panel does inside the quiet-hours window. -/
inductive NightStyle where
  | slower
  | hold
  | pause
  deriving DecidableEq, Repr

def NightStyle.toString : NightStyle → String
  | .slower => "slower"
  | .hold => "hold"
  | .pause => "pause"

def nightStyleFromString : String → Option NightStyle
  | "slower" => some .slower
  | "hold" => some .hold
  | "pause" => some .pause
  | _ => none

/-- The fields of `std::tm` that are read. -/
structure Tm where
  hour : Int
  min : Int
  sec : Int
  deriving DecidableEq, Repr

namespace Tm

/-- Seconds since midnight. -/
def secs (t : Tm) : Int := t.hour * 3600 + t.min * 60 + t.sec

/-- A time of day as `localtime_r` fills it in. -/
def Ok (t : Tm) : Prop :=
  0 ≤ t.hour ∧ t.hour ≤ 23 ∧ 0 ≤ t.min ∧ t.min ≤ 59 ∧ 0 ≤ t.sec ∧ t.sec ≤ 59

/-- The time of day of the local second `n` (days have 86400 seconds). -/
def ofLocal (n : Nat) : Tm :=
  ⟨((n % 86400 / 3600 : Nat) : Int), ((n % 3600 / 60 : Nat) : Int), ((n % 60 : Nat) : Int)⟩

theorem secs_ofLocal (n : Nat) : (ofLocal n).secs = ((n % 86400 : Nat) : Int) := by
  simp only [secs, ofLocal]; omega

theorem ofLocal_ok (n : Nat) : (ofLocal n).Ok := by
  simp only [Ok, ofLocal]; omega

end Tm

namespace Night

/-- `kDay`. -/
abbrev kDay : Int := 24 * 60 * 60

/-- Seconds left in the half-open `[startHour, endHour)` window, which may wrap past midnight;
`0` outside it. -/
def secsUntilEnd (tm : Tm) (startHour endHour : Int) : Int :=
  if startHour = endHour then 0
  else
    let hour := tm.hour
    let inside :=
      if startHour < endHour then decide (hour ≥ startHour ∧ hour < endHour)
      else decide (hour ≥ startHour ∨ hour < endHour)
    if !inside then 0
    else
      let now := hour * 3600 + tm.min * 60 + tm.sec
      let «end» := endHour * 3600
      if «end» > now then «end» - now else «end» + kDay - now

/-- Seconds until the window next opens; `0` inside it or when it is empty. -/
def secsUntilStart (tm : Tm) (startHour endHour : Int) : Int :=
  if startHour = endHour ∨ secsUntilEnd tm startHour endHour > 0 then 0
  else
    let now := tm.hour * 3600 + tm.min * 60 + tm.sec
    let start := startHour * 3600
    if start > now then start - now else start + kDay - now

/-! ## The window on seconds of the day -/

/-- The window as a set of seconds of the day. -/
def InWindow (startHour endHour x : Int) : Prop :=
  startHour ≠ endHour ∧
    if startHour < endHour then startHour * 3600 ≤ x ∧ x < endHour * 3600
    else startHour * 3600 ≤ x ∨ x < endHour * 3600

instance (s e x : Int) : Decidable (InWindow s e x) := by unfold InWindow; infer_instance

/-- An hour of the settings. -/
abbrev HourOk (h : Int) : Prop := 0 ≤ h ∧ h ≤ 23

variable {tm : Tm} {s e : Int}

theorem hour_le_iff (ht : tm.Ok) : s ≤ tm.hour ↔ s * 3600 ≤ tm.secs := by
  simp only [Tm.Ok] at ht
  simp only [Tm.secs]; omega

theorem hour_lt_iff (ht : tm.Ok) : tm.hour < s ↔ tm.secs < s * 3600 := by
  simp only [Tm.Ok] at ht
  simp only [Tm.secs]; omega

/-- The countdown to the end in closed form. -/
theorem secsUntilEnd_eq (ht : tm.Ok) :
    secsUntilEnd tm s e =
      if InWindow s e tm.secs then
        if tm.secs < e * 3600 then e * 3600 - tm.secs else e * 3600 + kDay - tm.secs
      else 0 := by
  unfold secsUntilEnd InWindow
  by_cases hse : s = e
  · simp [hse]
  · have h1 : (tm.hour ≥ s) = (s * 3600 ≤ tm.secs) := propext (hour_le_iff ht)
    have h2 : (tm.hour < e) = (tm.secs < e * 3600) := propext (hour_lt_iff ht)
    simp only [hse, if_false, h1, h2, ne_eq, not_false_eq_true, true_and, gt_iff_lt]
    change (if (!if s < e then _ else _) = true then (0 : Int)
      else if tm.secs < e * 3600 then e * 3600 - tm.secs else e * 3600 + kDay - tm.secs) = _
    by_cases hlt : s < e <;> simp only [hlt, if_true, if_false, Bool.not_eq_true',
      decide_eq_false_iff_not] <;> split_ifs <;> omega

theorem secs_range (ht : tm.Ok) : 0 ≤ tm.secs ∧ tm.secs < kDay := by
  simp only [Tm.Ok] at ht
  simp only [Tm.secs, kDay]; omega

/-- The countdown is positive exactly inside the window. -/
theorem secsUntilEnd_pos_iff (ht : tm.Ok) (he : HourOk e) :
    0 < secsUntilEnd tm s e ↔ InWindow s e tm.secs := by
  rw [secsUntilEnd_eq ht]
  have hr := secs_range ht
  split
  · rename_i h
    refine iff_of_true ?_ h
    split <;> omega
  · rename_i h
    exact iff_of_false (Int.lt_irrefl 0) h

/-- The countdown to the start in closed form. -/
theorem secsUntilStart_eq (ht : tm.Ok) (he : HourOk e) (hne : s ≠ e)
    (hout : ¬ InWindow s e tm.secs) :
    secsUntilStart tm s e =
      if s * 3600 > tm.secs then s * 3600 - tm.secs else s * 3600 + kDay - tm.secs := by
  have hend : ¬ secsUntilEnd tm s e > 0 := fun h => hout ((secsUntilEnd_pos_iff ht he).mp h)
  unfold secsUntilStart
  rw [if_neg (by simp only [hne, false_or]; exact hend)]
  rfl

/-- Outside a non-empty window the countdown to its start is positive. -/
theorem secsUntilStart_pos (ht : tm.Ok) (hs : HourOk s) (he : HourOk e) (hne : s ≠ e)
    (hout : ¬ InWindow s e tm.secs) : 0 < secsUntilStart tm s e := by
  have hr := secs_range ht
  rw [secsUntilStart_eq ht he hne hout]
  simp only [kDay] at hr ⊢
  split <;> omega

/-- Inside lasts until the countdown to the end runs out. -/
theorem inWindow_of_lt_end {n m : Nat} (hs : HourOk s) (he : HourOk e) (hnm : n ≤ m)
    (hin : InWindow s e (Tm.ofLocal n).secs)
    (hlt : (m : Int) < n + secsUntilEnd (Tm.ofLocal n) s e) :
    InWindow s e (Tm.ofLocal m).secs := by
  rw [secsUntilEnd_eq (Tm.ofLocal_ok n), if_pos hin] at hlt
  simp only [Tm.secs_ofLocal, InWindow, kDay] at *
  obtain ⟨hne, hin⟩ := hin
  refine ⟨hne, ?_⟩
  split at hin <;> rename_i hse <;> simp only [hse, if_true, if_false] <;> split at hlt <;> omega

/-- Outside lasts until the countdown to the start runs out. -/
theorem not_inWindow_of_lt_start {n m : Nat} (hs : HourOk s) (he : HourOk e) (hnm : n ≤ m)
    (hne : s ≠ e) (hout : ¬ InWindow s e (Tm.ofLocal n).secs)
    (hlt : (m : Int) < n + secsUntilStart (Tm.ofLocal n) s e) :
    ¬ InWindow s e (Tm.ofLocal m).secs := by
  rw [secsUntilStart_eq (Tm.ofLocal_ok n) he hne hout] at hlt
  simp only [Tm.secs_ofLocal, InWindow, kDay, ne_eq, hne, not_false_eq_true, true_and] at *
  split at hout <;> rename_i hse <;> simp only [hse, if_true, if_false] <;> split at hlt <;> omega

end Night

end ShareFrame
