import ShareFrame.Util.Clock

/-!
# The restart loop of a task

`Task::start` runs `_run` in a loop: after an exception it waits and runs it
again. The wait doubles with every rapid failure, a run of more than a minute
resets it, and the tenth rapid failure in a row aborts the process.
-/

namespace ShareFrame

/-- The two counters of the restart loop. -/
structure Restarts where
  consecutiveFailures : Nat := 0
  backoffSecs : Nat := 1
  deriving DecidableEq, Repr

namespace Restarts

abbrev kMaxBackoffSecs : Nat := 60
abbrev kMaxConsecutiveFailures : Nat := 10
abbrev kStableThresholdSecs : Nat := 60

/-- `_run` threw `elapsed` ticks after it was called: the seconds to wait before it is called again
and the counters from then on, or `none` for `std::abort()`. -/
def afterFailure (r : Restarts) (elapsed : Nat) : Option (Nat × Restarts) :=
  let stable := decide (elapsed > kStableThresholdSecs * second)
  let failures := if stable then 0 else r.consecutiveFailures + 1
  let backoff := if stable then 1 else r.backoffSecs
  if failures ≥ kMaxConsecutiveFailures then none
  else some (backoff, ⟨failures, min (backoff * 2) kMaxBackoffSecs⟩)

end Restarts

end ShareFrame
