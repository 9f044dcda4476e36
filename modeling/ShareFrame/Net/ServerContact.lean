import Mathlib.Algebra.Order.Group.Int
import ShareFrame.Lib.Machine
import ShareFrame.Util.Json
import ShareFrame.Util.Text

/-!
# The last contact with the server

`ServerContact` keeps the time at which the board last heard from the server, and a
copy of it in the settings that survives a restart. The copy is written at every
change of the connection and at most once a period in between. The calls so far, with
their times, say what the fields hold (`heard`, `openedAt`); the copy is less than a
period behind (`contact_tracked`).
-/

namespace ShareFrame

/-- The fields, and the setting `server_last_contact_at`. -/
structure ServerContact where
  connected : Bool := false
  connectedSince : Int := 0
  lastContact : Int := 0
  lastPersisted : Int := 0
  stored : Option String
  deriving DecidableEq, Repr

namespace ServerContact

open Transition

def PERSIST_EVERY_SECS : Int := 3600

/-- `snapshot` gives this. -/
structure ServerConnection where
  connected : Bool
  since : Int
  lastContactAt : Int
  deriving DecidableEq, Repr

/-- The time that the setting holds, `0` where the constructor ignores it. -/
def restore : Option String → Int
  | none => 0
  | some text =>
    match Text.integer 64 text with
    | some (n, _) => n
    | none => 0

/-- The constructor; the setting may be unreadable. -/
def create (stored : Option String) (reads : Bool) : ServerContact :=
  let at_ := if reads then restore stored else 0
  { lastContact := at_, lastPersisted := at_, stored }

def persist (c : ServerContact) (at_ : Int) (ok : Bool) : ServerContact :=
  if ok then { c with lastPersisted := at_, stored := some (toString at_) } else c

def onOpen (c : ServerContact) (now : Int) (ok : Bool) : ServerContact :=
  { c with connected := true, connectedSince := now, lastContact := now }.persist now ok

def onClose (c : ServerContact) (now : Int) (ok : Bool) : ServerContact :=
  if !c.connected then c else { c with connected := false, lastContact := now }.persist now ok

def touch (c : ServerContact) (now : Int) (ok : Bool) : ServerContact :=
  if !c.connected then c
  else
    let c := { c with lastContact := now }
    if PERSIST_EVERY_SECS ≤ c.lastContact - c.lastPersisted then c.persist c.lastContact ok else c

def snapshot (c : ServerContact) : ServerConnection :=
  ⟨c.connected, if c.connected then c.connectedSince else c.lastContact, c.lastContact⟩

/-! ## The calls -/

inductive Op where
  | onOpen
  | onClose
  | touch
  deriving DecidableEq, Repr

def call (c : ServerContact) : Op → Int → Bool → ServerContact
  | .onOpen => c.onOpen
  | .onClose => c.onClose
  | .touch => c.touch

/-- The calls since the start, the last one first, with their times. -/
abbrev History := List (Op × Int)

/-- The connection is open behind these calls. -/
def Open : History → Bool
  | [] => false
  | (.onOpen, _) :: _ => true
  | (.onClose, _) :: _ => false
  | (.touch, _) :: calls => Open calls

/-- When a call last found or made the connection open; `start` where none did. -/
def heard (start : Int) : History → Int
  | [] => start
  | (op, now) :: calls => if op = .onOpen ∨ Open calls then now else heard start calls

/-- The time of the last `onOpen`. -/
def openedAt : History → Int
  | [] => 0
  | (.onOpen, now) :: _ => now
  | (_, _) :: calls => openedAt calls

/-! ## Runs -/

structure State where
  contact : ServerContact
  /-- *ghost*: the clock at the last call -/
  clock : Int
  /-- *ghost*: the contact at the start -/
  start : Int
  /-- *ghost*: the calls since the start -/
  calls : History := []
  deriving DecidableEq, Repr

inductive Act where
  | call (op : Op) (now : Int) (ok : Bool)
  /-- the process starts again -/
  | restart (reads : Bool)

def started (clock : Int) (contact : ServerContact) : State :=
  { contact, clock, start := contact.lastContact }

/-- The clock does not go back. -/
def step (s : State) : Act → Option State
  | .call op now ok =>
    if s.clock ≤ now ∧ Json.IsInt64 now then
      some { s with
        contact := s.contact.call op now ok, clock := now, calls := (op, now) :: s.calls }
    else none
  | .restart reads => some (started s.clock (create s.contact.stored reads))

/-- The clock is not before the restored contact. -/
def Init (s : State) : Prop :=
  ∃ stored clock, s = started clock (create stored true) ∧ restore stored ≤ clock

def machine : Machine State Act := ⟨Init, step⟩

/-- The settings can be written, and read at the start. -/
def Stores (_ : State) : Act → Bool
  | .call _ _ ok => ok
  | .restart reads => reads

variable {c : ServerContact} {s s' : State} {a : Act} {op : Op} {now : Int}

/-! ## What a call does -/

/-- A connection that is not open and is not opened. -/
theorem call_of_closed (hop : op ≠ .onOpen) (hc : c.connected = false) (ok : Bool) :
    c.call op now ok = c := by
  cases op with
  | onOpen => exact absurd rfl hop
  | onClose => simp [call, onClose, hc]
  | touch => simp [call, touch, hc]

/-- A connection that is open or is opened: the call is the last contact, and it is persisted, or
the one that was is still close. -/
theorem call_of_open (now : Int) (h : op = .onOpen ∨ c.connected = true) :
    ∃ persisted stored, c.call op now true =
        ⟨decide (op ≠ .onClose), if op = .onOpen then now else c.connectedSince, now, persisted,
          stored⟩ ∧
      (persisted = now ∧ stored = some (toString now) ∨
        persisted = c.lastPersisted ∧ stored = c.stored ∧
          now - c.lastPersisted < PERSIST_EVERY_SECS) := by
  cases op with
  | onOpen => exact ⟨now, some (toString now), rfl, .inl ⟨rfl, rfl⟩⟩
  | onClose =>
    have hc : c.connected = true := h.resolve_left (by decide)
    exact ⟨now, some (toString now), by simp [call, onClose, hc, persist], .inl ⟨rfl, rfl⟩⟩
  | touch =>
    have hc : c.connected = true := h.resolve_left (by decide)
    by_cases hfar : PERSIST_EVERY_SECS ≤ now - c.lastPersisted
    · exact ⟨now, some (toString now), by simp [call, touch, hc, hfar, persist], .inl ⟨rfl, rfl⟩⟩
    · exact ⟨c.lastPersisted, c.stored, by simp [call, touch, hc, hfar],
        .inr ⟨rfl, rfl, lt_of_not_ge hfar⟩⟩

theorem lastContact_call (c : ServerContact) (op : Op) (now : Int) (ok : Bool) :
    (c.call op now ok).lastContact =
      if op = .onOpen ∨ c.connected = true then now else c.lastContact := by
  cases op with
  | onOpen => cases ok <;> rfl
  | onClose => cases hc : c.connected <;> cases ok <;> simp [call, onClose, hc, persist]
  | touch =>
    cases hc : c.connected with
    | false => simp [call, touch, hc]
    | true =>
      by_cases hfar : PERSIST_EVERY_SECS ≤ now - c.lastPersisted <;> cases ok <;>
        simp [call, touch, hc, hfar, persist]

theorem restore_toString {n : Int} (h : Json.IsInt64 n) : restore (some (toString n)) = n := by
  obtain ⟨hlow, hhigh⟩ := h
  have hpow : Int.pow 2 (64 - 1) = 9223372036854775808 := rfl
  rw [restore, Text.integer_toString 64 (by omega) (by omega)]

/-! ## What the calls say -/

theorem behind_closed (start now : Int) {calls : History} (hop : op ≠ .onOpen)
    (hc : Open calls = false) :
    Open ((op, now) :: calls) = false ∧ heard start ((op, now) :: calls) = heard start calls ∧
      openedAt ((op, now) :: calls) = openedAt calls := by
  have hnot : ¬ (op = .onOpen ∨ Open calls = true) := by simp [hop, hc]
  refine ⟨?_, if_neg hnot, ?_⟩
  · cases op with
    | onOpen => exact absurd rfl hop
    | onClose => rfl
    | touch => exact hc
  · cases op with
    | onOpen => exact absurd rfl hop
    | onClose => rfl
    | touch => rfl

theorem behind_open (start now : Int) {calls : History} (h : op = .onOpen ∨ Open calls = true) :
    Open ((op, now) :: calls) = decide (op ≠ .onClose) ∧ heard start ((op, now) :: calls) = now ∧
      openedAt ((op, now) :: calls) = if op = .onOpen then now else openedAt calls := by
  refine ⟨?_, if_pos h, ?_⟩
  · cases op with
    | onOpen => rfl
    | onClose => rfl
    | touch => exact h.resolve_left (by decide)
  · cases op with
    | onOpen => rfl
    | onClose => rfl
    | touch => rfl

/-! ## Runs agree with the calls -/

/-- The fields agree with the calls, and the setting holds what was persisted. -/
structure Inv (s : State) : Prop where
  connected : s.contact.connected = Open s.calls
  since : s.contact.connectedSince = openedAt s.calls
  contact : s.contact.lastContact = heard s.start s.calls
  persisted : restore s.contact.stored = s.contact.lastPersisted
  behind : s.contact.lastPersisted ≤ s.contact.lastContact
  close : s.contact.lastContact - s.contact.lastPersisted < PERSIST_EVERY_SECS
  clock : s.contact.lastContact ≤ s.clock

theorem inv_started {stored : Option String} {clock : Int} (h : restore stored ≤ clock) :
    Inv (started clock (create stored true)) := by
  refine ⟨rfl, rfl, rfl, rfl, le_rfl, ?_, h⟩
  show restore stored - restore stored < 3600
  omega

theorem Inv.call (h : Inv s) (hnow : s.clock ≤ now) (hint : Json.IsInt64 now) :
    Inv { s with
      contact := s.contact.call op now true, clock := now, calls := (op, now) :: s.calls } := by
  have hclock : s.contact.lastContact ≤ now := le_trans h.clock hnow
  by_cases hopen : op = .onOpen ∨ Open s.calls = true
  · obtain ⟨hstate, hheard, hsince⟩ := behind_open s.start now hopen
    obtain ⟨persisted, stored, heq, hkept⟩ := call_of_open now (h.connected ▸ hopen)
    have hcopy : restore stored = persisted ∧ persisted ≤ now ∧
        now - persisted < PERSIST_EVERY_SECS := by
      obtain ⟨rfl, rfl⟩ | ⟨rfl, rfl, hclose⟩ := hkept
      · refine ⟨restore_toString hint, le_rfl, ?_⟩
        rw [Int.sub_self]
        decide
      · exact ⟨h.persisted, le_trans h.behind hclock, hclose⟩
    rw [heq]
    refine ⟨hstate.symm, ?_, hheard.symm, hcopy.1, hcopy.2.1, hcopy.2.2, le_rfl⟩
    rw [hsince, h.since]
  · obtain ⟨hop, hclosed⟩ := not_or.mp hopen
    have hclosed : Open s.calls = false := eq_false_of_ne_true hclosed
    obtain ⟨hstate, hheard, hsince⟩ := behind_closed s.start now hop hclosed
    rw [call_of_closed hop (h.connected.trans hclosed)]
    exact ⟨h.connected.trans (hclosed.trans hstate.symm), h.since.trans hsince.symm,
      h.contact.trans hheard.symm, h.persisted, h.behind, h.close, hclock⟩

theorem inv_inductive : machine.Inductive (fun s a => Stores s a) Inv where
  init s h := by
    obtain ⟨stored, clock, rfl, hle⟩ := h
    exact inv_started hle
  step s a s' h hG hs := by
    cases a with
    | call op now ok =>
      obtain ⟨⟨hnow, hint⟩, hs⟩ := Option.ite_none_right_eq_some.mp hs
      cases hs
      obtain rfl : ok = true := hG
      exact h.call hnow hint
    | restart reads =>
      cases hs
      obtain rfl : reads = true := hG
      refine inv_started ?_
      rw [h.persisted]
      exact le_trans h.behind h.clock

/-- The last contact is when a call last found or made the connection open, and the setting is
less than a period behind it. -/
theorem contact_tracked (h : machine.ReachableBy (fun s a => Stores s a) s) :
    (0 ≤ s.contact.lastContact - s.contact.lastPersisted ∧
      s.contact.lastContact - s.contact.lastPersisted < PERSIST_EVERY_SECS) ∧
    s.contact.lastContact = heard s.start s.calls ∧
    (∀ op now ok s', step s (.call op now ok) = some s' →
      s.contact.lastContact ≤ s'.contact.lastContact) ∧
    (0 ≤ s.contact.lastContact - (create s.contact.stored true).lastContact ∧
      s.contact.lastContact - (create s.contact.stored true).lastContact < PERSIST_EVERY_SECS) ∧
    s.contact.snapshot =
      if Open s.calls then ⟨true, openedAt s.calls, heard s.start s.calls⟩
      else ⟨false, heard s.start s.calls, heard s.start s.calls⟩ := by
  have hI := inv_inductive.of_reachable h
  have hbound := Int.sub_nonneg_of_le hI.behind
  refine ⟨⟨hbound, hI.close⟩, hI.contact, fun op now ok s' hs => ?_, ?_, ?_⟩
  · obtain ⟨⟨hnow, hint⟩, hs⟩ := Option.ite_none_right_eq_some.mp hs
    cases hs
    rw [lastContact_call]
    split
    · exact le_trans hI.clock hnow
    · exact le_rfl
  · rw [show (create s.contact.stored true).lastContact = s.contact.lastPersisted from hI.persisted]
    exact ⟨hbound, hI.close⟩
  · rw [snapshot, hI.connected, hI.since, hI.contact]
    cases Open s.calls <;> rfl

/-- A touch without a connection, an hour of touches, and a power cut. -/
def hour : List Act :=
  [.call .touch 10 true, .call .onOpen 1000 true, .call .touch 4599 true, .call .touch 4600 true,
    .call .touch 5000 true]

theorem contact_tracked_hour : ∃ s, machine.run (started 0 (create none true)) hour = some s ∧
    s.contact = ⟨true, 1000, 5000, 4600, some "4600"⟩ ∧
    s.contact.lastContact - (create s.contact.stored true).lastContact < PERSIST_EVERY_SECS := by
  have hrun : ∃ s, machine.run (started 0 (create none true)) hour = some s ∧
      (s.contact = ⟨true, 1000, 5000, 4600, some "4600"⟩ : Bool) = true :=
    (Option.any_eq_true _ _).mp (by decide +kernel)
  obtain ⟨s, hs, hcontact⟩ := hrun
  have hr : machine.ReachableBy (fun s a => Stores s a) s :=
    Machine.ReachableBy.run hour (.init ⟨none, 0, rfl, le_rfl⟩) (by decide +kernel) hs
  exact ⟨s, hs, of_decide_eq_true hcontact, (contact_tracked hr).2.2.2.1.2⟩

end ServerContact

end ShareFrame
