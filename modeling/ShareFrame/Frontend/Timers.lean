import Mathlib.Logic.Function.Basic
import ShareFrame.Lib.Machine

/-!
# The timers of the dashboard

`timers.Slice`: countdowns in whole seconds, by their names. `syncTimers` takes the full
seconds since a stamp shared by all timers off the remaining time of each; `syncSpecificTimer`
computes the remaining time of one timer from its own start. The thunks run at once and only the
stamp of `syncTimers` is stored later. *Ghost* for each timer is how long it ran, since its last
reset, in runs that a stop has ended.
-/

namespace ShareFrame.Timers

open Transition

def DEFAULT_DURATION : Nat := 180

structure Timer where
  id : String
  duration : Nat
  remaining : Nat
  isActive : Bool := false
  startTimestamp : Option Nat := none
  ranBefore : Nat := 0
  deriving DecidableEq, Repr

structure TimerState where
  timers : String → Option Timer := fun _ => none
  /-- the keys of the object -/
  ids : List String := []
  lastSyncTime : Nat

/-! ## Reducers -/

/-- `timer.isActive && timer.startTimestamp`. -/
def Timer.running (t : Timer) : Option Nat :=
  if t.isActive then t.startTimestamp.filter (· ≠ 0) else none

/-- For how many milliseconds the timer ran since its last reset. -/
def Timer.ranAt (now : Nat) (t : Timer) : Nat :=
  t.ranBefore + match t.startTimestamp with
    | some start => now - start
    | none => 0

def Timer.paused (now : Nat) (t : Timer) : Timer :=
  { t with isActive := false, startTimestamp := none, ranBefore := t.ranAt now }

namespace TimerState

/-- The timer of this name is changed, if there is one. -/
def update (id : String) (f : Timer → Timer) (s : TimerState) : TimerState :=
  match s.timers id with
  | some t => { s with timers := Function.update s.timers id (some (f t)) }
  | none => s

def addTimer (id : String) (duration : Option Nat) (s : TimerState) : TimerState :=
  match s.timers id with
  | some _ => s
  | none =>
    let duration := duration.getD DEFAULT_DURATION
    { s with
      timers := Function.update s.timers id (some { id, duration, remaining := duration })
      ids := s.ids ++ [id] }

def startTimer (id : String) (now : Nat) (s : TimerState) : TimerState :=
  match s.timers id with
  | some t =>
    if t.isActive then s
    else
      { s with
        lastSyncTime := now
        timers := Function.update s.timers id
          (some { t with isActive := true, startTimestamp := some now }) }
  | none => s

def stopTimer (id : String) (now : Nat) (s : TimerState) : TimerState := s.update id (·.paused now)

def resetTimer (id : String) (s : TimerState) : TimerState :=
  s.update id fun t => { t with
    remaining := t.duration, isActive := false, startTimestamp := none, ranBefore := 0 }

def updateTimer (id : String) (remaining now : Nat) (s : TimerState) : TimerState :=
  s.update id fun t =>
    let t := { t with remaining }
    if remaining ≤ 0 then { t.paused now with remaining := 0 } else t

/-! ## Thunks -/

/-- What both thunks dispatch for a timer. -/
def refresh (id : String) (newRemaining now : Nat) (s : TimerState) : TimerState :=
  let s := s.updateTimer id newRemaining now
  if newRemaining = 0 then s.stopTimer id now else s

/-- One round of the loop in `syncTimers`, over the timers that it found. -/
def syncRound (timers : String → Option Timer) (elapsedMs currentTime : Nat) (s : TimerState)
    (id : String) : TimerState :=
  match timers id with
  | some timer =>
    if timer.running.isSome then s.refresh id (timer.remaining - elapsedMs / 1000) currentTime
    else s
  | none => s

/-- `syncTimers` up to its return. -/
def syncTimers (currentTime : Nat) (s : TimerState) : TimerState :=
  s.ids.foldl (syncRound s.timers (currentTime - s.lastSyncTime) currentTime) s

def syncSpecificTimer (id : String) (currentTime : Nat) (s : TimerState) : TimerState :=
  match s.timers id with
  | some timer =>
    match timer.running with
    | some start => s.refresh id (timer.duration - (currentTime - start) / 1000) currentTime
    | none => s
  | none => s

end TimerState

/-! ## The slice -/

/-- The slice, the clock, and the stamps of `syncTimers` that are not stored yet. -/
structure St where
  state : TimerState
  now : Nat
  pending : List Nat := []

/-- Actions, with their times. -/
inductive Act where
  | addTimer (id : String) (duration : Option Nat) (now : Nat)
  | startTimer (id : String) (now : Nat)
  | stopTimer (id : String) (now : Nat)
  | resetTimer (id : String) (now : Nat)
  | syncTimers (now : Nat)
  | syncTimersFulfilled (k now : Nat)
  | syncSpecificTimer (id : String) (now : Nat)
  deriving DecidableEq, Repr

def Act.time : Act → Nat
  | addTimer _ _ now | startTimer _ now | stopTimer _ now | resetTimer _ now | syncTimers now
  | syncTimersFulfilled _ now | syncSpecificTimer _ now => now

def Act.reduce (s : TimerState) : Act → TimerState
  | addTimer id duration _ => s.addTimer id duration
  | startTimer id now => s.startTimer id now
  | stopTimer id now => s.stopTimer id now
  | resetTimer id _ => s.resetTimer id
  | syncTimers now => s.syncTimers now
  | syncTimersFulfilled _ _ => s
  | syncSpecificTimer id now => s.syncSpecificTimer id now

/-- What `syncTimers` returns. -/
def Act.stamps : Act → List Nat
  | syncTimers now => [now]
  | _ => []

def step (s : St) (a : Act) : Option St :=
  if a.time < s.now then none
  else
    match a with
    | .syncTimersFulfilled k now => do
      let currentTime ← s.pending[k]?
      some { state := { s.state with lastSyncTime := currentTime }, now,
             pending := s.pending.eraseIdx k }
    | a => some { state := a.reduce s.state, now := a.time, pending := s.pending ++ a.stamps }

/-- No timers, behind the epoch. -/
def machine : Machine St Act where
  Init s := ∃ now, 0 < now ∧ s = { state := { lastSyncTime := now }, now }
  step := step

end ShareFrame.Timers
