import ShareFrame.Settings.NightWindow

/-!
# Steady time and the local clock

Steady time counts nanoseconds, the ticks of `std::chrono::steady_clock`. The
local clock runs with it at a fixed offset (`Clock.offset`): no clock change
while the process runs. Both are read in whole seconds, rounded down.
-/

namespace ShareFrame

/-- Ticks of one second. -/
abbrev second : Nat := 1000000000

/-- `steadySecs()`. -/
def steadySecs (t : Nat) : Int := ((t / second : Nat) : Int)

/-- The local clock: what it shows at steady time `0`, in ticks. -/
structure Clock where
  offset : Nat
  deriving DecidableEq, Repr

namespace Clock

/-- Whole local seconds at steady time `t` (`std::time`, shifted to local time). -/
def localSecs (c : Clock) (t : Nat) : Nat := (t + c.offset) / second

/-- `localNow()`. -/
def localNow (c : Clock) (t : Nat) : Tm := Tm.ofLocal (c.localSecs t)

theorem localSecs_mono (c : Clock) {t u : Nat} (h : t ≤ u) : c.localSecs t ≤ c.localSecs u := by
  simp only [localSecs, second]; omega

/-- A full second before `k` seconds of steady time are over, fewer than `k` local seconds are. -/
theorem localSecs_lt (c : Clock) {t u k : Nat} (h : u + second ≤ t + k * second) :
    c.localSecs u < c.localSecs t + k := by
  simp only [localSecs, second] at *; omega

end Clock

end ShareFrame
