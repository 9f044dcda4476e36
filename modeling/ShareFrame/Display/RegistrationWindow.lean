import Mathlib.Tactic.Common

/-!
# The registration window

Decides from the websocket's reports whether the panel asks to register the
frame: from the first refusal for a given number of seconds, or until the
server takes the frame.
-/

namespace ShareFrame

/-- `RegistrationWindow`; times are whole steady seconds. -/
structure RegistrationWindow where
  until_ : Option Int := none
  registered_ : Bool := false
  deriving DecidableEq, Repr

namespace RegistrationWindow

variable (w : RegistrationWindow)

def report (registered : Bool) (nowSecs windowSecs : Int) : RegistrationWindow :=
  if registered then { w with registered_ := true }
  else if w.until_.isNone then { w with until_ := some (nowSecs + windowSecs) }
  else w

def required (nowSecs : Int) : Bool :=
  !w.registered_ && match w.until_ with
    | none => false
    | some u => decide (nowSecs < u)

/-- When a showing screen times out; nothing while it doesn't show. -/
def endsAt (nowSecs : Int) : Option Int := if w.required nowSecs then w.until_ else none

variable {w}

/-- The end of a showing screen is the first second at which it no longer shows. -/
theorem endsAt_eq_some {now u : Int} :
    w.endsAt now = some u ↔ w.registered_ = false ∧ w.until_ = some u ∧ now < u := by
  unfold endsAt required
  cases hu : w.until_ <;> cases hr : w.registered_ <;> simp
  constructor
  · rintro ⟨h, rfl⟩; exact ⟨rfl, h⟩
  · rintro ⟨rfl, h⟩; exact ⟨h, rfl⟩

theorem endsAt_isSome {now : Int} : (w.endsAt now).isSome = w.required now := by
  unfold endsAt required
  cases w.until_ with
  | none => cases w.registered_ <;> simp
  | some u => cases w.registered_ <;> by_cases h : now < u <;> simp [h]

/-- Once off, the screen stays off. -/
theorem required_mono {now later : Int} (h : now ≤ later) (hl : w.required later = true) :
    w.required now = true := by
  unfold required at hl ⊢
  cases hu : w.until_ <;> rw [hu] at hl <;> simp_all
  omega

/-- Without a further report the answer stays the same until the end of the window. -/
theorem required_congr {now later : Int} (h : now ≤ later)
    (hlt : ∀ u, w.endsAt now = some u → later < u) : w.required later = w.required now := by
  cases hn : w.required now
  · cases hl : w.required later
    · rfl
    · exact absurd (required_mono h hl) (by simp [hn])
  · have hs : (w.endsAt now).isSome = true := by rw [endsAt_isSome, hn]
    obtain ⟨u, hu⟩ := Option.isSome_iff_exists.mp hs
    obtain ⟨hr, hu', -⟩ := endsAt_eq_some.mp hu
    simp [required, hr, hu', hlt u hu]

end RegistrationWindow

end ShareFrame
