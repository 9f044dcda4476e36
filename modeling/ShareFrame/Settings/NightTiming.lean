import ShareFrame.Settings.RuntimeSettings

/-!
# Night timing

The countdowns are exact: each is positive on its own side of the window only and
then ends with the first `end:00`, or `start:00`, to come (`firstAt_secsUntilEnd`,
`firstAt_secsUntilStart`). So the panel and the slideshow, which sleep for them, wake
up at the second the answer changes.
-/

namespace ShareFrame

namespace Night

/-- The window on a clock of one day: less far past `start:00` than `end:00` is. -/
def Within (startHour endHour : Int) (tm : Tm) : Prop :=
  (tm.secs - startHour * 3600) % kDay < (endHour * 3600 - startHour * 3600) % kDay

/-- The `k`-th second from `n` on is the first one that is `hour:00`. -/
def FirstAt (n : Nat) (hour k : Int) : Prop :=
  ∃ j : Nat, k = j ∧ Tm.ofLocal (n + j) = ⟨hour, 0, 0⟩ ∧ ∀ i < j, Tm.ofLocal (n + i) ≠ ⟨hour, 0, 0⟩

variable {tm : Tm} {s e hour : Int} {n : Nat}

theorem within_iff (ht : tm.Ok) (hs : HourOk s) (he : HourOk e) :
    Within s e tm ↔ InWindow s e tm.secs := by
  have hr := secs_range ht
  simp only [Within, InWindow, kDay] at *
  split <;> omega

/-- Only the seconds of the day count. -/
theorem ofLocal_eq_iff :
    Tm.ofLocal n = ⟨hour, 0, 0⟩ ↔ (Tm.ofLocal n).secs = hour * 3600 := by
  rw [Tm.secs_ofLocal]
  simp only [Tm.ofLocal, Tm.mk.injEq]
  omega

/-- How far it is to an hour, round the clock. -/
theorem firstAt_of_ne (hh : HourOk hour) (hne : (Tm.ofLocal n).secs ≠ hour * 3600) :
    FirstAt n hour
      (if (Tm.ofLocal n).secs < hour * 3600 then hour * 3600 - (Tm.ofLocal n).secs
        else hour * 3600 + kDay - (Tm.ofLocal n).secs) := by
  rw [Tm.secs_ofLocal] at *
  refine ⟨(if ((n % 86400 : Nat) : Int) < hour * 3600 then hour * 3600 - ((n % 86400 : Nat) : Int)
    else hour * 3600 + kDay - ((n % 86400 : Nat) : Int)).toNat, ?_, ?_, fun i hi => ?_⟩
  · simp only [kDay]
    split <;> omega
  · rw [ofLocal_eq_iff, Tm.secs_ofLocal]
    simp only [kDay]
    split <;> omega
  · rw [Ne, ofLocal_eq_iff, Tm.secs_ofLocal]
    simp only [kDay] at hi
    split at hi <;> omega

theorem not_inWindow_end : ¬ InWindow s e (e * 3600) := by
  rintro ⟨hne, hin⟩
  split at hin <;> omega

theorem inWindow_start (hne : s ≠ e) : InWindow s e (s * 3600) := by
  refine ⟨hne, ?_⟩
  split <;> omega

/-- Inside the window its end comes first after the countdown. -/
theorem firstAt_secsUntilEnd (he : HourOk e) (hin : InWindow s e (Tm.ofLocal n).secs) :
    FirstAt n e (secsUntilEnd (Tm.ofLocal n) s e) := by
  rw [secsUntilEnd_eq (Tm.ofLocal_ok n), if_pos hin]
  exact firstAt_of_ne he fun heq => not_inWindow_end (heq ▸ hin)

/-- Outside a window its start comes first after the countdown. -/
theorem firstAt_secsUntilStart (hs : HourOk s) (he : HourOk e) (hne : s ≠ e)
    (hout : ¬ InWindow s e (Tm.ofLocal n).secs) :
    FirstAt n s (secsUntilStart (Tm.ofLocal n) s e) := by
  rw [secsUntilStart_eq (Tm.ofLocal_ok n) he hne hout]
  exact firstAt_of_ne hs fun heq => hout (heq ▸ inWindow_start hne)

theorem secsUntilStart_pos_iff (hs : HourOk s) (he : HourOk e) :
    0 < secsUntilStart (Tm.ofLocal n) s e ↔ s ≠ e ∧ ¬ InWindow s e (Tm.ofLocal n).secs := by
  constructor
  · intro h
    unfold secsUntilStart at h
    split at h
    · omega
    next hcond =>
      obtain ⟨hne, hend⟩ := not_or.mp hcond
      exact ⟨hne, fun hin => hend ((secsUntilEnd_pos_iff (Tm.ofLocal_ok n) he).mpr hin)⟩
  · rintro ⟨hne, hout⟩
    exact secsUntilStart_pos (Tm.ofLocal_ok n) hs he hne hout

theorem secsUntilStart_nonneg (hs : HourOk s) (he : HourOk e) :
    0 ≤ secsUntilStart (Tm.ofLocal n) s e := by
  by_cases h : s ≠ e ∧ ¬ InWindow s e (Tm.ofLocal n).secs
  · exact Int.le_of_lt ((secsUntilStart_pos_iff hs he).mpr h)
  · unfold secsUntilStart
    rw [if_pos]
    rw [not_and_or, not_not, not_not] at h
    exact h.imp id (secsUntilEnd_pos_iff (Tm.ofLocal_ok n) he).mpr

end Night

open Night

namespace NightMode

variable {m : NightMode} {n : Nat}

/-- Whatever the countdown counts to, the answer is the other one there. -/
theorem isNightBlankNow_flip {j : Nat} (hm : m.HoursOk)
    (hj : m.secsUntilNightBlankChange (Tm.ofLocal n) = j) :
    m.isNightBlankNow (Tm.ofLocal (n + j)) = !m.isNightBlankNow (Tm.ofLocal n) := by
  by_cases hp : m.Pauses
  swap
  · rw [secsUntilNightBlankChange_of_not hp] at hj
    omega
  have hpos : m.untilEnd (Tm.ofLocal n) > 0 ↔ _ := secsUntilEnd_pos_iff (Tm.ofLocal_ok n) hm.2
  rw [secsUntilNightBlankChange_of_pauses hp] at hj
  rw [Bool.eq_not_iff, Ne, Bool.eq_iff_iff, isNightBlankNow_iff hm, isNightBlankNow_iff hm]
  simp only [hp, true_and]
  have hne := hp.2.2
  by_cases hin : InWindow m.startHour m.endHour (Tm.ofLocal n).secs
  · -- at `end:00` the window is over
    obtain ⟨i, hi, hend, -⟩ := firstAt_secsUntilEnd hm.2 hin
    rw [if_pos (hpos.mpr hin), untilEnd, hi, Int.natCast_inj] at hj
    rw [← hj, ofLocal_eq_iff.mp hend]
    exact fun hiff => not_inWindow_end (hiff.mpr hin)
  · -- at `start:00` it has begun
    obtain ⟨i, hi, hstart, -⟩ := firstAt_secsUntilStart hm.1 hm.2 hne hin
    rw [if_neg fun h => hin (hpos.mp h), untilStart, hi, Int.natCast_inj] at hj
    rw [← hj, ofLocal_eq_iff.mp hstart]
    exact fun hiff => hin (hiff.mp (inWindow_start hne))

end NightMode

variable {s : RuntimeSettings} {tm : Tm}

theorem effectiveInterval_pos (hday : 0 < s.displayIntervalSecs_)
    (hnight : 0 < s.night_.val.intervalSecs) :
    0 < s.effectiveInterval tm := by
  simp only [RuntimeSettings.effectiveInterval]
  split
  · exact hday
  · split
    · exact hday
    next hend =>
      split
      · omega
      · exact lt_min hnight (by omega)

/-- Inside the quiet hours the interval ends with them at the latest. -/
theorem effectiveInterval_le (hnow : s.night_.val.isNightNow tm = true) :
    s.effectiveInterval tm ≤ s.night_.val.untilEnd tm := by
  obtain ⟨henabled, hend⟩ := Bool.and_eq_true_iff.mp hnow
  have hend := of_decide_eq_true hend
  unfold RuntimeSettings.effectiveInterval
  rw [if_neg (by simp [henabled]), if_neg (by omega)]
  split
  · exact le_rfl
  · exact min_le_right _ _

/-- The countdowns end exactly where the window does, round the clock; the panel's
pause changes when its countdown says so and at no second before; and no interval
inside the quiet hours is longer than they last. -/
theorem night_timing :
    (∀ (s e : Int) (n : Nat), HourOk s → HourOk e →
      (0 < secsUntilEnd (Tm.ofLocal n) s e ↔ Within s e (Tm.ofLocal n)) ∧
      (0 < secsUntilEnd (Tm.ofLocal n) s e → FirstAt n e (secsUntilEnd (Tm.ofLocal n) s e)) ∧
      (0 < secsUntilStart (Tm.ofLocal n) s e ↔ s ≠ e ∧ ¬ Within s e (Tm.ofLocal n)) ∧
      (0 < secsUntilStart (Tm.ofLocal n) s e → FirstAt n s (secsUntilStart (Tm.ofLocal n) s e))) ∧
    (∀ (m : StoredNight) (n : Nat),
      (m.val.secsUntilNightBlankChange (Tm.ofLocal n) = -1 ∧
        ∀ k : Nat,
          m.val.isNightBlankNow (Tm.ofLocal (n + k)) = m.val.isNightBlankNow (Tm.ofLocal n)) ∨
      ∃ j : Nat, m.val.secsUntilNightBlankChange (Tm.ofLocal n) = j ∧ 0 < j ∧
        (∀ k < j,
          m.val.isNightBlankNow (Tm.ofLocal (n + k)) = m.val.isNightBlankNow (Tm.ofLocal n)) ∧
        m.val.isNightBlankNow (Tm.ofLocal (n + j)) = !m.val.isNightBlankNow (Tm.ofLocal n)) ∧
    ∀ (s : RuntimeSettings) (n : Nat),
      (0 < s.displayIntervalSecs_ → 0 < s.night_.val.intervalSecs →
        0 < s.effectiveInterval (Tm.ofLocal n)) ∧
      (s.night_.val.isNightNow (Tm.ofLocal n) = true →
        s.effectiveInterval (Tm.ofLocal n) ≤ s.night_.val.untilEnd (Tm.ofLocal n)) := by
  refine ⟨fun s e n hs he => ?_, fun m n => ?_,
    fun s n => ⟨effectiveInterval_pos, effectiveInterval_le⟩⟩
  · have hok := Tm.ofLocal_ok n
    have hend := secsUntilEnd_pos_iff (s := s) hok he
    have hstart := secsUntilStart_pos_iff (n := n) hs he
    rw [within_iff hok hs he]
    refine ⟨hend, fun h => firstAt_secsUntilEnd he (hend.mp h), hstart, fun h => ?_⟩
    obtain ⟨hne, hout⟩ := hstart.mp h
    exact firstAt_secsUntilStart hs he hne hout
  · have hm := m.property
    by_cases hp : m.val.Pauses
    · right
      have hnonneg : 0 ≤ m.val.secsUntilNightBlankChange (Tm.ofLocal n) := by
        rw [NightMode.secsUntilNightBlankChange_of_pauses hp]
        split
        · omega
        · exact secsUntilStart_nonneg hm.1 hm.2
      have hpos := NightMode.secsUntilNightBlankChange_pos hm hnonneg
      obtain ⟨j, hj⟩ := Int.eq_ofNat_of_zero_le hnonneg
      refine ⟨j, hj, by omega, fun k hk => ?_, NightMode.isNightBlankNow_flip hm hj⟩
      exact NightMode.isNightBlankNow_congr hm (by omega) fun _ => by omega
    · have hnone := NightMode.secsUntilNightBlankChange_of_not hp (Tm.ofLocal n)
      refine .inl ⟨hnone, fun k => ?_⟩
      exact NightMode.isNightBlankNow_congr hm (by omega) fun h => by omega

/-- Half past eleven, in quiet hours from ten to six. -/
theorem night_timing_wrapped :
    FirstAt 84600 6 (secsUntilEnd (Tm.ofLocal 84600) 22 6) ∧
    0 < RuntimeSettings.effectiveInterval
      { displayIntervalSecs_ := 3600, night_ := ⟨⟨true, 22, 6, 7200, .slower⟩, by decide⟩ }
      (Tm.ofLocal 84600) :=
  ⟨(night_timing.1 22 6 84600 (by decide) (by decide)).2.1 (by decide),
    (night_timing.2.2 _ 84600).1 (by decide) (by decide)⟩

end ShareFrame
