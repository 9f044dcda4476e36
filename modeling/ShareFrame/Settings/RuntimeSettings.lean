import ShareFrame.Settings.NightWindow
import ShareFrame.Settings.PlaybackOrder

/-!
# Settings at run time

The fields of `RuntimeSettings` and the questions asked about the night ones at a
time of day. `isNightBlankNow` keeps its value until `secsUntilNightBlankChange`
runs out (`isNightBlankNow_congr`).
-/

namespace ShareFrame

open Night

/-- The night fields of `RuntimeSettings`. -/
structure NightMode where
  enabled : Bool
  startHour : Int
  endHour : Int
  intervalSecs : Int
  style : NightStyle
  deriving DecidableEq, Repr

namespace NightMode

/-- Both hours are hours of the day, as the configuration check and the IPC handler make sure. -/
def HoursOk (m : NightMode) : Prop := HourOk m.startHour ∧ HourOk m.endHour

instance (m : NightMode) : Decidable m.HoursOk := by unfold HoursOk; infer_instance

/-- `_secsUntilNightEnd`. -/
def untilEnd (m : NightMode) (tm : Tm) : Int := secsUntilEnd tm m.startHour m.endHour

/-- `_secsUntilNightStart`. -/
def untilStart (m : NightMode) (tm : Tm) : Int := secsUntilStart tm m.startHour m.endHour

def isNightNow (m : NightMode) (tm : Tm) : Bool := m.enabled && decide (m.untilEnd tm > 0)

def isNightBlankNow (m : NightMode) (tm : Tm) : Bool :=
  m.enabled && m.style == .pause && decide (m.untilEnd tm > 0)

/-- Seconds until `isNightBlankNow` flips, `-1` when pausing is off. -/
def secsUntilNightBlankChange (m : NightMode) (tm : Tm) : Int :=
  if !m.enabled ∨ m.style ≠ .pause ∨ m.startHour = m.endHour then -1
  else if m.untilEnd tm > 0 then m.untilEnd tm
  else m.untilStart tm

variable {m : NightMode}

/-- Pausing is on and the window is not empty. -/
def Pauses (m : NightMode) : Prop := m.enabled = true ∧ m.style = .pause ∧ m.startHour ≠ m.endHour

theorem secsUntilNightBlankChange_of_pauses (h : m.Pauses) (tm : Tm) :
    m.secsUntilNightBlankChange tm =
      if m.untilEnd tm > 0 then m.untilEnd tm else m.untilStart tm := by
  obtain ⟨h1, h2, h3⟩ := h
  simp [secsUntilNightBlankChange, h1, h2, h3]

theorem secsUntilNightBlankChange_of_not (h : ¬ m.Pauses) (tm : Tm) :
    m.secsUntilNightBlankChange tm = -1 := by
  unfold secsUntilNightBlankChange
  rw [if_pos]
  unfold Pauses at h
  by_cases h1 : m.enabled = true <;> by_cases h2 : m.style = .pause <;> simp_all

/-- A blank night is a pausing one inside its window. -/
theorem isNightBlankNow_iff {n : Nat} (hm : m.HoursOk) :
    m.isNightBlankNow (Tm.ofLocal n) = true ↔
      m.Pauses ∧ InWindow m.startHour m.endHour (Tm.ofLocal n).secs := by
  have hpos : m.untilEnd (Tm.ofLocal n) > 0 ↔ _ :=
    secsUntilEnd_pos_iff (s := m.startHour) (Tm.ofLocal_ok n) hm.2
  simp only [isNightBlankNow, Bool.and_eq_true, decide_eq_true_eq, hpos, beq_iff_eq, Pauses]
  constructor
  · rintro ⟨⟨h1, h2⟩, h3⟩
    exact ⟨⟨h1, h2, h3.1⟩, h3⟩
  · rintro ⟨⟨h1, h2, -⟩, h3⟩
    exact ⟨⟨h1, h2⟩, h3⟩

/-- The answer stays the same until the countdown runs out, for good when there is none. -/
theorem isNightBlankNow_congr {n k : Nat} (hm : m.HoursOk) (hnk : n ≤ k)
    (hlt : 0 ≤ m.secsUntilNightBlankChange (Tm.ofLocal n) →
      (k : Int) < n + m.secsUntilNightBlankChange (Tm.ofLocal n)) :
    m.isNightBlankNow (Tm.ofLocal k) = m.isNightBlankNow (Tm.ofLocal n) := by
  rw [Bool.eq_iff_iff, isNightBlankNow_iff hm, isNightBlankNow_iff hm]
  by_cases hp : m.Pauses
  · simp only [hp, true_and]
    rw [secsUntilNightBlankChange_of_pauses hp] at hlt
    have hpos := secsUntilEnd_pos_iff (s := m.startHour) (Tm.ofLocal_ok n) hm.2
    by_cases hin : InWindow m.startHour m.endHour (Tm.ofLocal n).secs
    · have hend : m.untilEnd (Tm.ofLocal n) > 0 := hpos.mpr hin
      rw [if_pos hend] at hlt
      exact iff_of_true (inWindow_of_lt_end hm.1 hm.2 hnk hin (hlt (Int.le_of_lt hend))) hin
    · have hend : ¬ m.untilEnd (Tm.ofLocal n) > 0 := fun h => hin (hpos.mp h)
      rw [if_neg hend] at hlt
      have hstart := secsUntilStart_pos (Tm.ofLocal_ok n) hm.1 hm.2 hp.2.2 hin
      exact iff_of_false (not_inWindow_of_lt_start hm.1 hm.2 hnk hp.2.2 hin
        (hlt (Int.le_of_lt hstart))) hin
  · simp [hp]

/-- The countdown is positive when there is one. -/
theorem secsUntilNightBlankChange_pos {n : Nat} (hm : m.HoursOk)
    (h : 0 ≤ m.secsUntilNightBlankChange (Tm.ofLocal n)) :
    0 < m.secsUntilNightBlankChange (Tm.ofLocal n) := by
  by_cases hp : m.Pauses
  · rw [secsUntilNightBlankChange_of_pauses hp]
    by_cases hend : m.untilEnd (Tm.ofLocal n) > 0
    · rw [if_pos hend]; exact hend
    · rw [if_neg hend]
      exact secsUntilStart_pos (Tm.ofLocal_ok n) hm.1 hm.2 hp.2.2
          fun hin => hend ((secsUntilEnd_pos_iff (Tm.ofLocal_ok n) hm.2).mpr hin)
  · rw [secsUntilNightBlankChange_of_not hp] at h
    omega

end NightMode

/-- Night settings as they can be stored: both hours are hours of the day. -/
abbrev StoredNight := { m : NightMode // m.HoursOk }

structure RuntimeSettings where
  displayIntervalSecs_ : Int
  slideshowActive_ : Bool := true
  night_ : StoredNight
  playbackMode_ : PlaybackMode := .chronological
  customOrder_ : List Int := []
  showSender_ : Bool := false
  deriving DecidableEq

/-- The interval to use at a time of day: inside the quiet hours the night one up to their end, or
all the rest of them when the picture is held. -/
def RuntimeSettings.effectiveInterval (s : RuntimeSettings) (tm : Tm) : Int :=
  let night := s.night_.val
  if !night.enabled then s.displayIntervalSecs_
  else if night.untilEnd tm ≤ 0 then s.displayIntervalSecs_
  else if night.style = .hold then night.untilEnd tm
  else min night.intervalSecs (night.untilEnd tm)

end ShareFrame
