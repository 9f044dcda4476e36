import Mathlib.Tactic.Common

/-!
# Mailboxes

Several threads post messages into a queue under a mutex, each notifying a condition variable once
it has let go of the mutex. One worker blocks on that variable while the queue is empty. It takes
one message or the whole queue, and handles what it took outside of the mutex.

`Box.Ok` is what each operation keeps: every message that was posted has been handled, is in hand
or still waits, each in one place and in order; and the worker is not blocked behind a message
unless a notification is under way. A worker that is blocked for good has therefore handled
everything (`Ok.handled_of_blocked`).
-/

namespace Mailbox

universe u

structure Box (μ : Type u) where
  queue : List μ := []
  /-- taken, and not begun -/
  batch : List μ := []
  /-- what the worker handles now -/
  hand : List μ := []
  /-- the worker is in its wait, without the mutex -/
  blocked : Bool := false
  /-- posts behind which the notification is still to come -/
  owed : Nat := 0
  /-- *ghost* -/
  posted : List μ := []
  /-- *ghost* -/
  handled : List μ := []
  deriving DecidableEq

namespace Box

variable {μ : Type u}

/-! ## Threads that post -/

def post (b : Box μ) (msg : μ) : Box μ :=
  { b with queue := b.queue ++ [msg], posted := b.posted ++ [msg], owed := b.owed + 1 }

/-- The wait ends, for whatever reason; it goes on with the test of the queue. -/
def wake (b : Box μ) : Box μ := { b with blocked := false }

def notify (b : Box μ) : Option (Box μ) :=
  match b.owed with
  | 0 => none
  | owed + 1 => some { b with owed, blocked := false }

/-! ## The worker -/

/-- It has nothing from the queue. -/
def Free (b : Box μ) : Prop := b.hand = [] ∧ b.batch = []

instance (b : Box μ) : Decidable b.Free :=
  decidable_of_iff (b.hand.isEmpty ∧ b.batch.isEmpty) (by simp [Free])

/-- With the mutex, it has found the queue empty. -/
def block (b : Box μ) : Box μ := { b with blocked := true }

/-- It takes the whole queue. -/
def swap (b : Box μ) : Box μ := { b with batch := b.queue, queue := [] }

/-- It takes one message. -/
def pop (b : Box μ) : Option (Box μ) :=
  match b.queue with
  | [] => none
  | msg :: queue => some { b with queue, hand := [msg] }

/-- It handles the whole queue at once. -/
def grab (b : Box μ) : Box μ := { b with hand := b.queue, queue := [] }

/-- The next message of the batch. -/
def next (b : Box μ) : Option (Box μ) :=
  match b.batch with
  | [] => none
  | msg :: batch => some { b with batch, hand := [msg] }

def finish (b : Box μ) : Box μ := { b with hand := [], handled := b.handled ++ b.hand }

/-! ## What they keep -/

structure Ok (b : Box μ) : Prop where
  fifo : b.posted = b.handled ++ (b.hand ++ (b.batch ++ b.queue))
  free : b.blocked = true → b.Free
  awaited : b.blocked = true → b.queue ≠ [] → 0 < b.owed

variable {b b' : Box μ} {msg : μ}

theorem ok_empty : ({} : Box μ).Ok :=
  ⟨rfl, fun h => absurd h Bool.false_ne_true, fun h => absurd h Bool.false_ne_true⟩

theorem Ok.post (h : b.Ok) (msg : μ) : (b.post msg).Ok where
  fifo := by simp only [Box.post, h.fifo, List.append_assoc]
  free := h.free
  awaited _ _ := Nat.succ_pos _

theorem Ok.wake (h : b.Ok) : b.wake.Ok :=
  ⟨h.fifo, fun hb => absurd hb Bool.false_ne_true, fun hb => absurd hb Bool.false_ne_true⟩

theorem Ok.notify (h : b.Ok) (hb : b.notify = some b') : b'.Ok := by
  unfold Box.notify at hb
  split at hb
  · cases hb
  · cases hb
    exact ⟨h.fifo, fun hb => absurd hb Bool.false_ne_true, fun hb => absurd hb Bool.false_ne_true⟩

theorem Ok.block (h : b.Ok) (hfree : b.Free) (hqueue : b.queue = []) : b.block.Ok :=
  ⟨h.fifo, fun _ => hfree, fun _ hne => absurd hqueue hne⟩

theorem Ok.swap (h : b.Ok) (hfree : b.Free) (hawake : b.blocked = false) : b.swap.Ok where
  fifo := by
    have hfifo := h.fifo
    rw [hfree.1, hfree.2] at hfifo
    simpa [Box.swap, hfree.1] using hfifo
  free hb := absurd (hawake.symm.trans hb) Bool.false_ne_true
  awaited hb := absurd (hawake.symm.trans hb) Bool.false_ne_true

theorem Ok.grab (h : b.Ok) (hfree : b.Free) (hawake : b.blocked = false) : b.grab.Ok where
  fifo := by
    have hfifo := h.fifo
    rw [hfree.1, hfree.2] at hfifo
    simpa [Box.grab, hfree.2] using hfifo
  free hb := absurd (hawake.symm.trans hb) Bool.false_ne_true
  awaited hb := absurd (hawake.symm.trans hb) Bool.false_ne_true

theorem Ok.pop (h : b.Ok) (hfree : b.Free) (hawake : b.blocked = false) (hb : b.pop = some b') :
    b'.Ok := by
  unfold Box.pop at hb
  split at hb
  · cases hb
  next msg queue hqueue =>
    cases hb
    have hfifo := h.fifo
    rw [hfree.1, hqueue] at hfifo
    refine ⟨?_, fun hb => ?_, fun hb => ?_⟩
    · rw [hfree.2] at hfifo ⊢
      exact hfifo
    · exact absurd (hawake.symm.trans hb) Bool.false_ne_true
    · exact absurd (hawake.symm.trans hb) Bool.false_ne_true

theorem Ok.next (h : b.Ok) (hhand : b.hand = []) (hb : b.next = some b') : b'.Ok := by
  unfold Box.next at hb
  split at hb
  · cases hb
  next msg batch hbatch =>
    cases hb
    have hfifo := h.fifo
    rw [hhand, hbatch] at hfifo
    have hawake : b.blocked = true → False := fun hb => by
      have hnil := (h.free hb).2
      rw [hbatch] at hnil
      cases hnil
    exact ⟨hfifo, fun hb => (hawake hb).elim, fun hb => (hawake hb).elim⟩

theorem Ok.finish (h : b.Ok) : b.finish.Ok where
  fifo := by simp only [Box.finish, h.fifo, List.append_assoc, List.nil_append]
  free hb := ⟨rfl, (h.free hb).2⟩
  awaited := h.awaited

/-- Where the thread waits for good, everything was handled in the order in which it was posted. -/
theorem Ok.handled_of_blocked (h : b.Ok) (hb : b.blocked = true) (howed : b.owed = 0) :
    b.handled = b.posted := by
  have hqueue : b.queue = [] := by
    by_contra hne
    exact absurd (h.awaited hb hne) (howed ▸ Nat.lt_irrefl 0)
  rw [h.fifo, (h.free hb).1, (h.free hb).2, hqueue]
  simp

end Box

end Mailbox
