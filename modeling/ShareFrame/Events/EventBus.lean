import Mathlib.Data.List.Induction
import ShareFrame.Lib.Machine

/-!
# The event bus

Any thread publishes, at any time; one thread swaps the queue out and calls the
handlers of each message of the batch. A message is a topic and a payload; its
handlers are those of its topic, in the order of their subscriptions. A handler
may publish (as any thread may) and may throw.

`published_delivered` says what has been delivered at any time: to each handler the messages
of its topic in the order in which they were queued, up to those that are still in
the queue or in the batch; and a call comes behind the end of all earlier ones.

Fields marked *ghost* are never read by a step.
-/

namespace ShareFrame.EventBus

open Transition

universe u v w

variable {τ : Type u} {μ : Type v} {η : Type w} [DecidableEq τ]

/-- `subscribe` -/
def subscribe (handlers_ : τ → List η) (T : τ) (handler : η) : τ → List η :=
  fun T' => if T' = T then handlers_ T' ++ [handler] else handlers_ T'

/-- The handlers behind these subscriptions. -/
def subscribed (subs : List (τ × η)) : τ → List η :=
  subs.foldl (fun handlers_ sub => subscribe handlers_ sub.1 sub.2) fun _ => []

/-- A topic's handlers stand in the order of their subscriptions. -/
theorem subscribed_eq (subs : List (τ × η)) (T : τ) :
    subscribed subs T = (subs.filter (·.1 = T)).map (·.2) := by
  induction subs using List.reverseRecOn with
  | nil => rfl
  | append_singleton subs sub ih =>
    rw [subscribed, List.foldl_append, ← subscribed, List.foldl_cons, List.foldl_nil, subscribe, ih]
    by_cases hT : T = sub.1
    · simp [hT]
    · simp [hT, Ne.symm hT]

/-- The start and the end of a call: the number of the message, and the handler's place among
those of its topic. -/
inductive Event (τ : Type u) (μ : Type v) where
  | called (n : Nat) (msg : τ × μ) (k : Nat)
  | returned (n k : Nat) (threw : Bool)

structure State (τ : Type u) (μ : Type v) where
  queue_ : List (τ × μ) := []
  /-- what is left of the batch; the dispatch thread waits when it is empty -/
  batch : List (τ × μ) := []
  /-- the next handler of the first message of the batch -/
  next : Nat := 0
  running : Bool := false
  stop : Bool := false
  exited : Bool := false
  /-- *ghost*: all messages, in the order in which the publishers took the lock -/
  published : List (τ × μ) := []
  /-- *ghost*: the messages whose handlers have all returned -/
  done : List (τ × μ) := []
  /-- *ghost* -/
  log : List (Event τ μ) := []

inductive Act (τ : Type u) (μ : Type v) where
  | publish (msg : τ × μ)
  | stop
  | swap
  | leave
  | call
  /-- the handler returns or throws -/
  | finish (threw : Bool)
  | advance

variable (handlers_ : τ → List η)

def step (s : State τ μ) : Act τ μ → Option (State τ μ)
  | .publish msg => some { s with queue_ := s.queue_ ++ [msg], published := s.published ++ [msg] }
  | .stop => some { s with stop := true }
  | .swap =>
    if s.batch = [] ∧ s.queue_ ≠ [] ∧ s.stop = false ∧ s.exited = false then
      some { s with batch := s.queue_, queue_ := [] }
    else none
  | .leave => if s.batch = [] ∧ s.stop then some { s with exited := true } else none
  | .call =>
    match s.batch with
    | [] => none
    | msg :: _ =>
      if s.next < (handlers_ msg.1).length ∧ s.running = false then
        some { s with running := true, log := s.log ++ [.called s.done.length msg s.next] }
      else none
  | .finish threw =>
    if s.running then
      some { s with
        running := false, next := s.next + 1
        log := s.log ++ [.returned s.done.length s.next threw] }
    else none
  | .advance =>
    match s.batch with
    | [] => none
    | msg :: batch =>
      if s.next = (handlers_ msg.1).length ∧ s.running = false then
        some { s with batch, next := 0, done := s.done ++ [msg] }
      else none

def machine : Machine (State τ μ) (Act τ μ) := ⟨fun s => s = {}, step handlers_⟩

/-! ## Deliveries -/

namespace State

/-- The messages that a handler was called with. -/
def received (s : State τ μ) (T : τ) (k : Nat) : List (τ × μ) :=
  s.log.filterMap fun
    | .called _ msg k' => if msg.1 = T ∧ k' = k then some msg else none
    | .returned .. => none

/-- The first message of the batch has come to this place among its handlers. -/
def passed (s : State τ μ) (k : Nat) : Bool := k < s.next || k = s.next && s.running

/-- The messages of the batch and the queue that the handler has not been called with. -/
def pending (s : State τ μ) (T : τ) (k : Nat) : List (τ × μ) :=
  (s.batch.drop (if s.passed k then 1 else 0) ++ s.queue_).filter (·.1 = T)

end State

/-- All calls of earlier messages, and those of earlier handlers of the message, have ended. -/
def Behind (published : List (τ × μ)) (log : List (Event τ μ)) (n k : Nat) : Prop :=
  ∀ n' msg' k', published[n']? = some msg' → k' < (handlers_ msg'.1).length →
    n' < n ∨ n' = n ∧ k' < k → ∃ threw, .returned n' k' threw ∈ log

structure Delivered (s : State τ μ) : Prop where
  /-- Each handler of a topic has received the published messages in order, each once, up to those
  that are still pending. -/
  received : ∀ T k, k < (handlers_ T).length →
    s.received T k ++ s.pending T k = s.published.filter (·.1 = T)
  ordered : ∀ i n msg k, s.log[i]? = some (.called n msg k) →
    s.published[n]? = some msg ∧ k < (handlers_ msg.1).length ∧
      Behind handlers_ s.published (s.log.take i) n k

structure Inv (s : State τ μ) : Prop where
  split : s.published = s.done ++ (s.batch ++ s.queue_)
  idle : s.batch = [] → s.next = 0 ∧ s.running = false
  next : ∀ msg batch, s.batch = msg :: batch → s.next + s.running.toNat ≤ (handlers_ msg.1).length
  received : ∀ T k, k < (handlers_ T).length →
    s.received T k = (s.done ++ s.batch.take (if s.passed k then 1 else 0)).filter (·.1 = T)
  behind : Behind handlers_ s.published s.log s.done.length s.next
  ordered : ∀ i n msg k, s.log[i]? = some (.called n msg k) →
    s.published[n]? = some msg ∧ k < (handlers_ msg.1).length ∧
      Behind handlers_ s.published (s.log.take i) n k

variable {handlers_} {s s' : State τ μ} {a : Act τ μ} {published : List (τ × μ)}
  {log : List (Event τ μ)} {n k : Nat}

omit [DecidableEq τ] in
theorem Behind.mono {log' : List (Event τ μ)} (h : Behind handlers_ published log n k)
    (hlog : ∀ e ∈ log, e ∈ log') : Behind handlers_ published log' n k := by
  intro n' msg' k' hmsg' hk' hlt
  obtain ⟨threw, hmem⟩ := h n' msg' k' hmsg' hk' hlt
  exact ⟨threw, hlog _ hmem⟩

omit [DecidableEq τ] in
/-- A message that is published later is not an earlier one. -/
theorem Behind.publish {msg : τ × μ} (h : Behind handlers_ published log n k)
    (hn : n < published.length ∨ n = published.length ∧ k = 0) :
    Behind handlers_ (published ++ [msg]) log n k := by
  intro n' msg' k' hmsg' hk' hlt
  rw [List.getElem?_append_left (by omega)] at hmsg'
  exact h n' msg' k' hmsg' hk' hlt

theorem Inv.delivered (h : Inv handlers_ s) : Delivered handlers_ s where
  received T k hk := by
    rw [h.received T k hk, State.pending, ← List.filter_append, h.split, List.append_assoc,
      ← List.append_assoc (s.batch.take _), List.take_append_drop]
  ordered := h.ordered

/-- The log grows by an event that, if it is a call, comes behind the earlier ones. -/
theorem Inv.ordered_concat {e : Event τ μ} (h : Inv handlers_ s)
    (he : ∀ n msg k, e = .called n msg k → s.published[n]? = some msg ∧ k < (handlers_ msg.1).length ∧
      Behind handlers_ s.published s.log n k) (i n : Nat) (msg : τ × μ) (k : Nat)
    (hi : (s.log ++ [e])[i]? = some (.called n msg k)) :
    s.published[n]? = some msg ∧ k < (handlers_ msg.1).length ∧
      Behind handlers_ s.published ((s.log ++ [e]).take i) n k := by
  rcases Nat.lt_trichotomy i s.log.length with hlt | rfl | hgt
  · rw [List.getElem?_append_left hlt] at hi
    rw [List.take_append_of_le_length (Nat.le_of_lt hlt)]
    exact h.ordered i n msg k hi
  · rw [List.getElem?_concat_length, Option.some.injEq] at hi
    rw [List.take_left]
    exact he n msg k hi
  · rw [List.getElem?_eq_none (by simp; omega)] at hi
    cases hi

theorem Inv.getElem?_done {msg : τ × μ} {batch : List (τ × μ)} (h : Inv handlers_ s)
    (hbatch : s.batch = msg :: batch) : s.published[s.done.length]? = some msg := by
  rw [h.split, hbatch, List.getElem?_append_right (Nat.le_refl _), Nat.sub_self]
  rfl

theorem inv_inductive : (machine handlers_).Inductive (fun _ _ => True) (Inv (μ := μ) handlers_) where
  init s h := by
    obtain rfl : s = {} := h
    refine ⟨rfl, fun _ => ⟨rfl, rfl⟩, nofun, fun T k _ => ?_, nofun, nofun⟩
    simp [State.received]
  step s a s' h _ hs := by
    have hs : step handlers_ s a = some s' := hs
    cases a with
    | publish msg =>
      cases hs
      have hlen := congrArg List.length h.split
      simp only [List.length_append] at hlen
      refine ⟨?_, h.idle, h.next, h.received, h.behind.publish ?_, fun i n msg k hi => ?_⟩
      · simp only [h.split, List.append_assoc]
      · cases hbatch : s.batch with
        | nil =>
          obtain ⟨hnext, -⟩ := h.idle hbatch
          rw [hbatch, List.length_nil] at hlen
          omega
        | cons msg batch =>
          rw [hbatch, List.length_cons] at hlen
          omega
      · obtain ⟨hmsg, hk, hbehind⟩ := h.ordered i n msg k hi
        obtain ⟨hn, -⟩ := List.getElem?_eq_some_iff.mp hmsg
        exact ⟨by rw [List.getElem?_append_left hn]; exact hmsg, hk, hbehind.publish (.inl hn)⟩
    | stop =>
      cases hs
      exact { h with }
    | swap =>
      obtain ⟨⟨hbatch, -⟩, hs⟩ := Option.ite_none_right_eq_some.mp hs
      cases hs
      obtain ⟨hnext, hrunning⟩ := h.idle hbatch
      refine ⟨?_, fun _ => ⟨hnext, hrunning⟩, fun msg batch _ => ?_, fun T k hk => ?_, h.behind, h.ordered⟩
      · simp [h.split, hbatch]
      · simp [hnext, hrunning]
      · have hreceived := h.received T k hk
        simpa [State.received, State.passed, hnext, hrunning] using hreceived
    | leave =>
      obtain ⟨-, hs⟩ := Option.ite_none_right_eq_some.mp hs
      cases hs
      exact { h with }
    | call =>
      simp only [step] at hs
      split at hs
      · cases hs
      next msg batch hbatch =>
        obtain ⟨⟨hnext, hrunning⟩, hs⟩ := Option.ite_none_right_eq_some.mp hs
        cases hs
        refine ⟨h.split, fun hnil => ?_, fun msg' batch' hbatch' => ?_, fun T k hk => ?_,
          h.behind.mono fun e he => List.mem_append.mpr (.inl he), h.ordered_concat ?_⟩
        · rw [hbatch] at hnil; cases hnil
        · rw [hbatch] at hbatch'; cases hbatch'; exact hnext
        · have hold := h.received T k hk
          simp only [State.received] at hold
          simp only [State.received, List.filterMap_append, hold]
          by_cases hk : k = s.next
          · by_cases hT : msg.1 = T <;> simp [State.passed, hrunning, hbatch, hk, hT]
          · simp [State.passed, hrunning, hk, Ne.symm hk]
        · rintro n msg' k ⟨⟩
          exact ⟨h.getElem?_done hbatch, hnext, h.behind⟩
    | finish threw =>
      obtain ⟨hrunning, hs⟩ := Option.ite_none_right_eq_some.mp hs
      cases hs
      refine ⟨h.split, fun hnil => ?_, fun msg batch hbatch => ?_, fun T k hk => ?_, ?_,
        h.ordered_concat nofun⟩
      · obtain ⟨-, hidle⟩ := h.idle hnil
        exact absurd (hrunning.symm.trans hidle) (by decide)
      · have hle := h.next msg batch hbatch
        rw [hrunning] at hle
        exact hle
      · have hold := h.received T k hk
        simp only [State.received] at hold
        have hpassed : (decide (k < s.next + 1) || decide (k = s.next + 1) && false) = s.passed k := by
          rw [State.passed, hrunning, Bool.and_false, Bool.or_false, Bool.and_true, Bool.eq_iff_iff]
          simp
          omega
        simp only [State.received, List.filterMap_append, hold]
        rw [← hpassed]
        exact List.append_nil _
      · intro n' msg' k' hmsg' hk' hlt
        replace hlt : n' < s.done.length ∨ n' = s.done.length ∧ k' < s.next + 1 := hlt
        by_cases hlast : n' = s.done.length ∧ k' = s.next
        · obtain ⟨rfl, rfl⟩ := hlast
          exact ⟨threw, List.mem_append.mpr (.inr (List.mem_singleton.mpr rfl))⟩
        · obtain ⟨threw', hmem⟩ := h.behind n' msg' k' hmsg' hk' (by omega)
          exact ⟨threw', List.mem_append.mpr (.inl hmem)⟩
    | advance =>
      simp only [step] at hs
      split at hs
      · cases hs
      next msg batch hbatch =>
        obtain ⟨⟨hnext, hrunning⟩, hs⟩ := Option.ite_none_right_eq_some.mp hs
        cases hs
        refine ⟨?_, fun _ => ⟨rfl, hrunning⟩, fun _ _ _ => ?_, fun T k hk => ?_, ?_, h.ordered⟩
        · simp [h.split, hbatch]
        · simp [hrunning]
        · have hold := h.received T k hk
          simp only [State.received] at hold
          simp only [State.received, hold]
          -- the handlers of its topic have all been called
          by_cases hT : msg.1 = T
          · subst hT
            simp [State.passed, hrunning, hbatch, hnext, hk]
          · cases s.passed k <;> simp [State.passed, hrunning, hbatch, hT]
        · intro n' msg' k' hmsg' hk' hlt
          replace hlt : n' < (s.done ++ [msg]).length ∨ n' = (s.done ++ [msg]).length ∧ k' < 0 := hlt
          rw [List.length_append, List.length_singleton] at hlt
          refine h.behind n' msg' k' hmsg' hk' ?_
          by_cases hn : n' = s.done.length
          · subst hn
            rw [h.getElem?_done hbatch] at hmsg'
            cases hmsg'
            omega
          · omega

/-- Whatever is published and whichever handlers throw: each handler receives the messages of its
topic once and in order, and the handlers of a message run behind each other in the order of their
subscriptions, before those of the next one. -/
theorem published_delivered {subs : List (τ × η)} {s : State τ μ}
    (hr : (machine (subscribed subs)).Reachable s) :
    Delivered (subscribed subs) s ∧
      ∀ T, subscribed subs T = (subs.filter (·.1 = T)).map (·.2) :=
  ⟨(inv_inductive.of_reachable hr).delivered, subscribed_eq subs⟩

/-- The first of two handlers throws, and a second message waits. -/
theorem published_delivered_throwing :
    let subs : List (Nat × String) := [(0, "slideshow"), (1, "manager"), (0, "manager")]
    let acts : List (Act Nat Nat) :=
      [.publish (0, 7), .swap, .call, .publish (0, 8), .finish true, .call]
    ∃ s, (machine (subscribed subs)).run {} acts = some s ∧ s.received 0 1 = [(0, 7)] ∧
      s.pending 0 1 = [(0, 8)] ∧ Delivered (subscribed subs) s := by
  intro subs acts
  have hrun : (machine (subscribed subs)).run {} acts = some _ := rfl
  exact ⟨_, hrun, rfl, rfl, (published_delivered (Machine.reachable_run acts rfl hrun)).1⟩

end ShareFrame.EventBus
