import Mathlib.Order.Lattice
import ShareFrame.Lib.Machine

/-!
# Delivery behind a cursor

A log grows at its end, with ascending keys. The sender keeps the key of the last
item that was acknowledged, its cursor, and in every beat sends the next items behind
it, at most so many. The receiver may take a batch, the answer may be lost, and the
cursor may fail to advance.

The batches, up to their last item, are stretches of the log (`between`): what was
acknowledged reaches as far as the cursor (`Inv.acknowledged`), and what arrived for
the first time is one stretch from the start on (`Inv.fresh`). Where no answer is lost
and every advance is kept, the acknowledged batches follow one another (`Exact`), and
every full beat takes a limit's worth off what is left (`left_run`).
-/

namespace Cursor

open Transition

universe u v

variable {α : Type u} {κ : Type v} [LinearOrder κ] (key : α → κ)

/-! ## Stretches of a log -/

/-- The items behind `c`. -/
def after (c : κ) (log : List α) : List α := log.filter fun a => c < key a

/-- The items behind `c` and up to `d`. -/
def between (c d : κ) (log : List α) : List α := log.filter fun a => c < key a ∧ key a ≤ d

variable {key} {log : List α} {a : α} {c d e : κ} {n : Nat}

theorem mem_after : a ∈ after key c log ↔ a ∈ log ∧ c < key a := by simp [after]

theorem mem_between : a ∈ between key c d log ↔ a ∈ log ∧ c < key a ∧ key a ≤ d := by simp [between]

theorem between_self : between key c c log = [] := by
  refine List.filter_eq_nil_iff.mpr fun a _ => ?_
  simp

theorem between_eq_filter : between key c d log = (after key c log).filter fun a => key a ≤ d := by
  rw [between, after, List.filter_filter]
  simp only [Bool.decide_and, Bool.and_comm]

/-- A stretch, and what is behind it. -/
theorem between_after (h : log.Pairwise (key · < key ·)) (hcd : c ≤ d) :
    between key c d log ++ after key d log = after key c log := by
  induction log with
  | nil => rfl
  | cons a log ih =>
    obtain ⟨ha, hlog⟩ := List.pairwise_cons.mp h
    have hrest := ih hlog
    simp only [between, after, List.filter_cons, decide_eq_true_eq] at hrest ⊢
    by_cases hd : key a ≤ d
    · rw [if_neg (not_lt_of_ge hd)]
      by_cases hc : c < key a
      · rw [if_pos ⟨hc, hd⟩, if_pos hc, List.cons_append, hrest]
      · rw [if_neg fun hx => hc hx.1, if_neg hc, hrest]
    · -- everything from here on lies behind `d`
      have hd : d < key a := lt_of_not_ge hd
      have hempty : log.filter (fun b => decide (c < key b ∧ key b ≤ d)) = [] := by
        refine List.filter_eq_nil_iff.mpr fun b hb => ?_
        simpa using fun _ => hd.trans (ha b hb)
      rw [hempty, List.nil_append] at hrest
      rw [if_neg fun hx => not_le_of_gt hd hx.2, if_pos hd, if_pos (hcd.trans_lt hd), hempty,
        List.nil_append, hrest]

/-- Two stretches that follow one another. -/
theorem between_append (h : log.Pairwise (key · < key ·)) (hcd : c ≤ d) (hde : d ≤ e) :
    between key c d log ++ between key d e log = between key c e log := by
  have hall : (between key c d log).filter (fun a => key a ≤ e) = between key c d log :=
    List.filter_eq_self.mpr fun a ha => decide_eq_true ((mem_between.mp ha).2.2.trans hde)
  rw [between_eq_filter (c := c) (d := e), ← between_after h hcd, List.filter_append, hall,
    ← between_eq_filter]

/-- A new item lies behind the stretch. -/
theorem between_push (ha : d < key a) : between key c d (log ++ [a]) = between key c d log := by
  rw [between, List.filter_append]
  simp [between, not_le_of_gt ha]

theorem between_prefix (h : log.Pairwise (key · < key ·)) (hcd : c ≤ d) :
    between key c d log <+: after key c log := ⟨after key d log, between_after h hcd⟩

theorem nodup_of_ascending (h : log.Pairwise (key · < key ·)) : log.Nodup :=
  h.imp fun hlt heq => by rw [heq] at hlt; exact lt_irrefl _ hlt

theorem nodup_between (h : log.Pairwise (key · < key ·)) : (between key c d log).Nodup :=
  (nodup_of_ascending h).filter _

theorem le_getLast {l : List α} (h : l.Pairwise (key · < key ·)) (hne : l ≠ []) (ha : a ∈ l) :
    key a ≤ key (l.getLast hne) := by
  rw [← List.dropLast_concat_getLast hne] at h ha
  obtain ha | ha := List.mem_append.mp ha
  · exact le_of_lt ((List.pairwise_append.mp h).2.2 a ha _ List.mem_cons_self)
  · exact le_of_eq (congrArg key (List.mem_singleton.mp ha))

/-- The first items of a log are those up to the last of them. -/
theorem filter_of_append {l batch rest : List α} (h : l.Pairwise (key · < key ·))
    (hl : l = batch ++ rest) (hne : batch ≠ []) :
    l.filter (fun a => key a ≤ key (batch.getLast hne)) = batch := by
  subst hl
  obtain ⟨hbatch, -, hcross⟩ := List.pairwise_append.mp h
  have hall : batch.filter (fun a => key a ≤ key (batch.getLast hne)) = batch :=
    List.filter_eq_self.mpr fun a ha => decide_eq_true (le_getLast hbatch hne ha)
  have hnone : rest.filter (fun a => key a ≤ key (batch.getLast hne)) = [] := by
    refine List.filter_eq_nil_iff.mpr fun b hb => ?_
    simpa using hcross _ (List.getLast_mem hne) b hb
  rw [List.filter_append, hall, hnone, List.append_nil]

/-- The first items behind `c` are a stretch. -/
theorem take_after (h : log.Pairwise (key · < key ·)) (hne : (after key c log).take n ≠ []) :
    ∃ a ∈ log, ((after key c log).take n).getLast? = some a ∧ c < key a ∧
      (after key c log).take n = between key c (key a) log := by
  have hlast := List.mem_of_mem_take (List.getLast_mem hne)
  obtain ⟨hmem, hlt⟩ := mem_after.mp hlast
  refine ⟨_, hmem, List.getLast?_eq_some_getLast hne, hlt, ?_⟩
  rw [between_eq_filter]
  exact (filter_of_append (h.filter _) (List.take_append_drop n _).symm hne).symm

/-! ## First deliveries -/

section First

variable [DecidableEq α]

theorem eraseDups_eq_self {l : List α} (h : l.Nodup) : l.eraseDups = l := by
  induction l with
  | nil => rfl
  | cons a l ih =>
    obtain ⟨ha, hl⟩ := List.nodup_cons.mp h
    have hrest : l.filter (fun b => !b == a) = l :=
      List.filter_eq_self.mpr fun b hb => by simpa using fun heq : b = a => ha (heq ▸ hb)
    rw [List.eraseDups_cons, hrest, ih hl]

/-- A batch from `d` on adds what lies behind `e`, where everything up to there has come. -/
theorem eraseDups_between {l : List α} {m : κ} (h : log.Pairwise (key · < key ·))
    (hl : l.eraseDups = between key c e log) (hcd : c ≤ d) (hde : d ≤ e) :
    (l ++ between key d m log).eraseDups = between key c (max e m) log := by
  have hnew : (between key d m log).removeAll l = between key e m log := by
    simp only [List.removeAll, between, List.filter_filter]
    refine List.filter_congr fun a ha => ?_
    have hmem : a ∈ l ↔ c < key a ∧ key a ≤ e := by
      rw [← List.mem_eraseDups, hl, mem_between]
      simp [ha]
    rw [Bool.eq_iff_iff]
    simp only [List.elem_eq_mem, hmem, Bool.and_eq_true, Bool.not_eq_true', decide_eq_true_eq,
      decide_eq_false_iff_not]
    constructor
    · rintro ⟨hnot, hd, hm⟩
      exact ⟨lt_of_not_ge fun he => hnot ⟨hcd.trans_lt hd, he⟩, hm⟩
    · rintro ⟨he, hm⟩
      exact ⟨fun hx => not_le_of_gt he hx.2, hde.trans_lt he, hm⟩
  rw [List.eraseDups_append, hl, hnew, eraseDups_eq_self (nodup_between h)]
  obtain hme | hem := le_total m e
  · have hempty : between key e m log = [] := by
      refine List.filter_eq_nil_iff.mpr fun a _ => ?_
      simpa using fun hlt : e < key a => hme.trans_lt hlt
    rw [hempty, List.append_nil, max_eq_left hme]
  · rw [max_eq_right hem]
    exact between_append h (hcd.trans hde) hem

end First

/-! ## Sender and receiver -/

structure State (α : Type u) (κ : Type v) where
  log : List α
  cursor : κ
  /-- *ghost*: where the cursor stood at the start -/
  first : κ
  /-- *ghost*: what the receiver took -/
  received : List α := []
  /-- *ghost*: the batches whose acknowledgement came back -/
  acknowledged : List (List α) := []

/-- What becomes of a beat. -/
structure Beat where
  /-- the next items could be read -/
  listed : Bool
  /-- the receiver took the batch -/
  taken : Bool
  /-- its answer came back -/
  acked : Bool
  /-- the cursor could be advanced -/
  saved : Bool
  deriving DecidableEq, Repr

inductive Act (α : Type u) where
  | grow (a : α)
  | beat (b : Beat)

variable (key) (limit : Nat)

def batch (s : State α κ) (b : Beat) : List α :=
  if b.listed then (after key s.cursor s.log).take limit else []

def step (s : State α κ) : Act α → Option (State α κ)
  | .grow a => if ∀ b ∈ s.log, key b < key a then some { s with log := s.log ++ [a] } else none
  | .beat b =>
    if b.acked && !b.taken then none
    else some { s with
      cursor := if b.acked && b.saved then ((batch key limit s b).getLast?.map key).getD s.cursor
        else s.cursor
      received := if b.taken then s.received ++ batch key limit s b else s.received
      acknowledged := if b.acked then s.acknowledged ++ [batch key limit s b] else s.acknowledged }

/-- Nothing is logged or sent yet. -/
def Init (s : State α κ) : Prop :=
  s.log = [] ∧ s.first = s.cursor ∧ s.received = [] ∧ s.acknowledged = []

def machine : Machine (State α κ) (Act α) := ⟨Init, step key limit⟩

variable {key limit} {s s' t : State α κ} {b : Beat} {x : Act α}

/-- A place that the log has reached. -/
def Reached (key : α → κ) (s : State α κ) (c : κ) : Prop := c = s.first ∨ ∃ a ∈ s.log, key a = c

theorem Reached.max (hc : Reached key s c) (hd : Reached key s d) : Reached key s (max c d) := by
  obtain h | h := le_total c d
  · rw [max_eq_right h]
    exact hd
  · rw [max_eq_left h]
    exact hc

theorem Reached.between_push (h : Reached key s c) (ha : ∀ b ∈ s.log, key b < key a) :
    between key s.first c (s.log ++ [a]) = between key s.first c s.log := by
  obtain rfl | ⟨b, hb, rfl⟩ := h
  · rw [between_self, between_self]
  · exact Cursor.between_push (ha b hb)

/-- A batch is the stretch up to where the cursor goes with it. -/
theorem batch_eq (limit : Nat) (b : Beat) (h : s.log.Pairwise (key · < key ·))
    (hc : Reached key s s.cursor) : ∃ m, s.cursor ≤ m ∧ Reached key s m ∧
      batch key limit s b = between key s.cursor m s.log ∧
      ((batch key limit s b).getLast?.map key).getD s.cursor = m := by
  by_cases hempty : batch key limit s b = []
  · exact ⟨s.cursor, le_rfl, hc, by rw [hempty, between_self], by rw [hempty]; rfl⟩
  · have hlisted : b.listed = true := by
      by_contra hno
      exact hempty (if_neg hno)
    rw [batch, if_pos hlisted] at hempty ⊢
    obtain ⟨a, ha, hlast, hlt, heq⟩ := take_after h hempty
    exact ⟨key a, hlt.le, .inr ⟨a, ha, rfl⟩, heq, by rw [hlast]; rfl⟩

/-- A step grows the log, or sends the stretch from the cursor to `m`. -/
inductive Effect (key : α → κ) (limit : Nat) (s : State α κ) : Act α → State α κ → Prop where
  | grow {a : α} (ha : ∀ b ∈ s.log, key b < key a) :
    Effect key limit s (.grow a) { s with log := s.log ++ [a] }
  | beat {b : Beat} {m : κ} (hm : s.cursor ≤ m) (hreached : Reached key s m)
    (hbatch : batch key limit s b = between key s.cursor m s.log)
    (htaken : b.acked = true → b.taken = true) :
    Effect key limit s (.beat b) { s with
      cursor := if b.acked && b.saved then m else s.cursor
      received := if b.taken then s.received ++ between key s.cursor m s.log else s.received
      acknowledged :=
        if b.acked then s.acknowledged ++ [between key s.cursor m s.log] else s.acknowledged }

theorem effect_of_step (h : s.log.Pairwise (key · < key ·)) (hc : Reached key s s.cursor)
    (hs : step key limit s x = some s') : Effect key limit s x s' := by
  cases x with
  | grow a =>
    obtain ⟨ha, hs⟩ := Option.ite_none_right_eq_some.mp hs
    cases hs
    exact .grow ha
  | beat b =>
    obtain ⟨htaken, hs⟩ := Option.ite_none_left_eq_some.mp hs
    obtain ⟨m, hm, hreached, hbatch, hnew⟩ := batch_eq limit b h hc
    rw [hnew, hbatch] at hs
    cases hs
    exact .beat hm hreached hbatch (by simpa using htaken)

theorem first_eq (hs : step key limit s x = some s') : s'.first = s.first := by
  cases x with
  | grow a =>
    obtain ⟨-, hs⟩ := Option.ite_none_right_eq_some.mp hs
    cases hs
    rfl
  | beat b =>
    obtain ⟨-, hs⟩ := Option.ite_none_left_eq_some.mp hs
    cases hs
    rfl

/-! ## Every run -/

variable [DecidableEq α]

structure Inv (key : α → κ) (s : State α κ) : Prop where
  ascending : s.log.Pairwise (key · < key ·)
  first_le : s.first ≤ s.cursor
  reached : Reached key s s.cursor
  acknowledged : ∀ a ∈ between key s.first s.cursor s.log, ∃ batch ∈ s.acknowledged, a ∈ batch
  fresh : ∃ m, s.cursor ≤ m ∧ Reached key s m ∧
    s.received.eraseDups = between key s.first m s.log

theorem Inv.effect (h : Inv key s) (hs : step key limit s x = some s') : Effect key limit s x s' :=
  effect_of_step h.ascending h.reached hs

theorem cursor_mono (h : Inv key s) (hs : step key limit s x = some s') : s.cursor ≤ s'.cursor := by
  cases h.effect hs with
  | grow => exact le_rfl
  | beat hm =>
    simp only
    split
    exacts [hm, le_rfl]

theorem Inv.grow (h : Inv key s) (ha : ∀ b ∈ s.log, key b < key a) :
    Inv key { s with log := s.log ++ [a] } := by
  have hgrown : ∀ {c}, Reached key s c → Reached key { s with log := s.log ++ [a] } c :=
    fun hc => hc.imp_right fun ⟨b, hb, heq⟩ => ⟨b, List.mem_append_left _ hb, heq⟩
  obtain ⟨m, hm, hreached, hfresh⟩ := h.fresh
  refine ⟨?_, h.first_le, hgrown h.reached, ?_, m, hm, hgrown hreached, ?_⟩
  · refine List.pairwise_append.mpr ⟨h.ascending, List.pairwise_singleton _ _, ?_⟩
    intro b hb c hc
    cases List.mem_singleton.mp hc
    exact ha b hb
  · simp only [h.reached.between_push ha]
    exact h.acknowledged
  · simp only [hreached.between_push ha]
    exact hfresh

theorem Inv.step (h : Inv key s) (hs : step key limit s x = some s') : Inv key s' := by
  cases h.effect hs with
  | grow ha => exact h.grow ha
  | @beat b m hm hreached hbatch htaken =>
    have hcursor : (if b.acked && b.saved then m else s.cursor) ≤ m := by
      split
      exacts [le_rfl, hm]
    refine ⟨h.ascending, h.first_le.trans (cursor_mono h hs), ?_, fun a ha => ?_, ?_⟩
    · simp only
      split
      exacts [hreached, h.reached]
    · obtain ⟨hmem, hfirst, hle⟩ := mem_between.mp ha
      by_cases hold : key a ≤ s.cursor
      · obtain ⟨old, hold, ha⟩ := h.acknowledged a (mem_between.mpr ⟨hmem, hfirst, hold⟩)
        refine ⟨old, ?_, ha⟩
        simp only
        split
        exacts [List.mem_append_left _ hold, hold]
      · -- the cursor has moved past it, with this batch
        have hacked : b.acked = true := by
          by_contra hno
          exact hold (by simpa [hno] using hle)
        refine ⟨between key s.cursor m s.log, by simp [hacked], ?_⟩
        exact mem_between.mpr ⟨hmem, lt_of_not_ge hold, hle.trans hcursor⟩
    · obtain ⟨n, hn, hreached', hfresh⟩ := h.fresh
      cases htake : b.taken with
      | false =>
        have hacked : b.acked = false := by
          by_contra hyes
          simp [htaken (by simpa using hyes)] at htake
        exact ⟨n, by simpa [hacked] using hn, hreached', by simpa using hfresh⟩
      | true =>
        exact ⟨max n m, hcursor.trans (le_max_right n m), hreached'.max hreached,
          eraseDups_between h.ascending hfresh h.first_le hn⟩

theorem inv_of_reachable (h : (machine key limit).Reachable s) : Inv key s := by
  have hind : (machine key limit).Inductive (fun _ _ => True) (Inv key) := by
    refine ⟨fun s hs => ?_, fun _ _ _ hI _ hs => hI.step hs⟩
    obtain ⟨hlog, hfirst, hreceived, -⟩ := hs
    refine ⟨by rw [hlog]; exact .nil, hfirst.le, .inl hfirst.symm, ?_, s.cursor, le_rfl,
      .inl hfirst.symm, ?_⟩
    · rw [hlog]
      nofun
    · rw [hlog, hreceived]
      rfl
  exact hind.of_reachable h

/-! ## Runs without losses -/

/-- No answer is lost, and the cursor is advanced. -/
def Lossless (_ : State α κ) : Act α → Bool
  | .beat b => b.saved && (!b.taken || b.acked)
  | _ => true

/-- The acknowledged batches follow one another, and nothing else was taken. -/
structure Exact (key : α → κ) (s : State α κ) : Prop where
  inv : Inv key s
  flatten : s.acknowledged.flatten = between key s.first s.cursor s.log
  received : s.received = s.acknowledged.flatten

theorem Exact.step (h : Exact key s) (hG : Lossless s x) (hs : step key limit s x = some s') :
    Exact key s' := by
  refine ⟨h.inv.step hs, ?_, ?_⟩
  · cases h.inv.effect hs with
    | grow ha =>
      simp only [h.inv.reached.between_push ha]
      exact h.flatten
    | @beat b m hm hreached hbatch htaken =>
      obtain ⟨hsaved, -⟩ : b.saved = true ∧ (b.taken = false ∨ b.acked = true) := by
        simpa [Lossless] using hG
      cases hacked : b.acked with
      | false => simpa [hacked] using h.flatten
      | true =>
        simp only [hsaved, Bool.and_self, if_true, List.flatten_append, h.flatten,
          List.flatten_singleton]
        exact between_append h.inv.ascending h.inv.first_le hm
  · cases h.inv.effect hs with
    | grow ha => exact h.received
    | @beat b m hm hreached hbatch htaken =>
      obtain ⟨-, hkept⟩ : b.saved = true ∧ (b.taken = false ∨ b.acked = true) := by
        simpa [Lossless] using hG
      cases hacked : b.acked with
      | false =>
        obtain htake : b.taken = false := by simpa [hacked] using hkept
        simpa [htake] using h.received
      | true => simp [htaken hacked, h.received]

theorem exact_of_reachable (h : (machine key limit).ReachableBy (fun s x => Lossless s x) s) :
    Exact key s := by
  have hind : (machine key limit).Inductive (fun s x => Lossless s x) (Exact key) := by
    refine ⟨fun s hs => ?_, fun _ _ _ hI hG hs => hI.step hG hs⟩
    obtain ⟨hlog, -, hreceived, hacknowledged⟩ := id hs
    refine ⟨inv_of_reachable (.init hs : (machine key limit).Reachable s), ?_, ?_⟩
    · rw [hlog, hacknowledged]
      rfl
    · rw [hreceived, hacknowledged]
      rfl
  exact hind.of_reachable h

/-- In a list of batches without repetitions, one holds the item. -/
theorem countP_eq_one {l : List (List α)} (h : l.flatten.Nodup) (ha : a ∈ l.flatten) :
    l.countP (a ∈ ·) = 1 := by
  induction l with
  | nil => cases ha
  | cons batch l ih =>
    obtain ⟨-, hl, hdisjoint⟩ := List.nodup_append.mp h
    obtain ha | ha := List.mem_append.mp ha
    · have hnone : l.countP (a ∈ ·) = 0 := by
        refine List.countP_eq_zero.mpr fun other hother => ?_
        simpa using fun hmem => hdisjoint a ha a (List.mem_flatten_of_mem hother hmem) rfl
      rw [List.countP_cons_of_pos (by simpa using ha), hnone]
    · have hnot : a ∉ batch := fun hmem => hdisjoint a hmem a ha rfl
      rw [List.countP_cons_of_neg (by simpa using hnot), ih hl ha]

/-- What the cursor has passed is in one acknowledged batch. -/
theorem Exact.once (h : Exact key s) (ha : a ∈ between key s.first s.cursor s.log) :
    s.acknowledged.countP (a ∈ ·) = 1 :=
  countP_eq_one (h.flatten ▸ nodup_between h.inv.ascending) (h.flatten ▸ ha)

/-- A beat that is read and acknowledged. -/
def Full : Act α → Bool
  | .beat b => b.listed && b.acked
  | _ => false

/-- What is left of the items up to `a`. -/
def left (key : α → κ) (s : State α κ) (a : α) : Nat := (between key s.cursor (key a) s.log).length

/-- A full beat takes `limit` items off what is left, no step adds to it. -/
theorem left_step (h : Inv key s) (ha : a ∈ s.log) (hG : Lossless s x)
    (hs : step key limit s x = some s') :
    a ∈ s'.log ∧ left key s' a ≤ left key s a - if Full x then limit else 0 := by
  cases h.effect hs with
  | @grow b hb =>
    refine ⟨List.mem_append_left _ ha, ?_⟩
    simp only [left, between_push (hb a ha), Full]
    exact Nat.le_refl _
  | @beat b m hm hreached hbatch htaken =>
    refine ⟨ha, ?_⟩
    have hsaved : b.saved = true := by simp [Lossless] at hG; exact hG.1
    cases hacked : b.acked with
    | false => simp [left, Full, hacked]
    | true =>
      simp only [left, Full, hacked, hsaved, Bool.and_self, if_true, Bool.and_true]
      obtain hle | hlt := le_or_gt (key a) m
      · have hnone : between key m (key a) s.log = [] := by
          refine List.filter_eq_nil_iff.mpr fun c _ => ?_
          simpa using fun hmc : m < key c => hle.trans_lt hmc
        rw [hnone]
        exact Nat.zero_le _
      · -- the batch ends in front of `a`: it was cut off at the limit
        have hsplit := congrArg List.length (between_append h.ascending hm hlt.le)
        rw [List.length_append] at hsplit
        cases hlisted : b.listed with
        | false => simp; omega
        | true =>
          have hlength : (between key s.cursor m s.log).length = limit := by
            rw [← hbatch, batch, if_pos hlisted, List.length_take]
            refine Nat.min_eq_left (Nat.le_of_not_lt fun hshort => ?_)
            rw [batch, if_pos hlisted, List.take_of_length_le (Nat.le_of_lt hshort)] at hbatch
            have hmem : a ∈ after key s.cursor s.log := mem_after.mpr ⟨ha, hm.trans_lt hlt⟩
            rw [hbatch] at hmem
            exact not_le_of_gt hlt (mem_between.mp hmem).2.2
          simp; omega

theorem left_run {as : List (Act α)} (h : Inv key s) (ha : a ∈ s.log)
    (hrun : (machine key limit).RunBy (fun s x => Lossless s x) s as t) :
    a ∈ t.log ∧ left key t a ≤ left key s a - limit * as.countP Full := by
  induction as generalizing s with
  | nil =>
    obtain ⟨-, hrun⟩ := hrun
    cases hrun
    exact ⟨ha, Nat.le_refl _⟩
  | cons x as ih =>
    obtain ⟨s', hG, hs, hrun⟩ := hrun.uncons
    obtain ⟨ha', hstep⟩ := left_step h ha hG hs
    obtain ⟨hat, hrest⟩ := ih (h.step hs) ha' hrun
    refine ⟨hat, Nat.le_trans hrest ?_⟩
    rw [List.countP_cons, Nat.mul_add]
    split at hstep
    next hfull => rw [if_pos hfull]; omega
    next hpart => rw [if_neg hpart]; omega

/-- As soon as enough full beats have come, the cursor has passed the item. -/
theorem le_cursor {as : List (Act α)} (h : Inv key s) (ha : a ∈ s.log)
    (hrun : (machine key limit).RunBy (fun s x => Lossless s x) s as t)
    (henough : left key s a ≤ limit * as.countP Full) : key a ≤ t.cursor := by
  obtain ⟨hat, hleft⟩ := left_run h ha hrun
  by_contra hlt
  have hmem : a ∈ between key t.cursor (key a) t.log :=
    mem_between.mpr ⟨hat, lt_of_not_ge hlt, le_rfl⟩
  have hpos := List.length_pos_of_mem hmem
  simp only [left] at hleft henough
  omega

end Cursor
