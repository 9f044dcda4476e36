import ShareFrame.Dashboard.Entrance
import ShareFrame.Dashboard.Serving
import ShareFrame.Lib.Window

/-!
# Wrong passwords in half a minute

A comparison follows the check of the throttle and comes before its record. Between
the two other threads may pass the check as well: six at once compare six wrong
passwords. Where no more attempts are past the check than the throttle has left,
and nothing is compared between a success and its record, the log of the
comparisons falls into groups of five failures at most, with a lock or a success
between them.
-/

namespace ShareFrame.Dashboard

open HTTPClient Interaction Prog Window

variable (cfg : Config)

/-- A comparison of a password, and whether it succeeded. -/
def guess : Event → Option Bool
  | ⟨.verify _ _, ok⟩ => ok
  | ⟨.constantTimeEquals _ _, ok⟩ => some ok
  | _ => none

def Entry.wrong (x : Entry) : Bool := guess x.event = some false

def Entry.right (x : Entry) : Bool := guess x.event = some true

/-- In every half minute without a successful comparison, five at most fail. -/
abbrev FewGuesses (log : List Entry) : Prop :=
  Bounded Entry.time Entry.wrong Entry.right LoginThrottle.kLockDuration LoginThrottle.kMaxFailures log

/-! ## Attempts -/

/-- Past the check of the throttle, and the outcome is not recorded. -/
def Phase.inFlight (running : Bool) : Phase → Bool
  | .passed => running
  | .compared _ => true
  | _ => false

namespace Connection

def phase (c : Connection) : Phase := Dashboard.phase cfg c.history

def inFlight (c : Connection) : Bool := (c.phase cfg).inFlight c.rest.outcome.isNone

/-- A failure that is not recorded. -/
def failing (c : Connection) : Bool := c.phase cfg = .compared false

end Connection

namespace State

def inFlight (s : State) : Nat := s.connections.countP (Connection.inFlight cfg)

def failing (s : State) : Nat := s.connections.countP (Connection.failing cfg)

end State

/-- The throttle reports no lock. -/
def passes : Event → Bool
  | ⟨.retryAfterSecs, wait⟩ => decide ((wait : Nat) = 0)
  | _ => false

/-- An attempt passes the check only where fewer than five failures are recorded or may follow, and
a comparison fails only where no success waits for its record. -/
def Orderly (s : State) : Act → Prop
  | .answer _ e =>
    (passes e = true → s.throttle_.failures_ + s.inFlight cfg < LoginThrottle.kMaxFailures) ∧
    (guess e = some false → ∀ c ∈ s.connections, c.phase cfg ≠ .compared true)
  | _ => True

instance (s : State) (a : Act) : Decidable (Orderly cfg s a) := by
  unfold Orderly; cases a <;> infer_instance

/-! ## What a call does to an attempt -/

variable {cfg} {s s' : State} {c : Connection} {i : Nat} {e : Event}

/-- A call, by the phase before it and the one behind it. -/
inductive Turn (s s' : State) (e : Event) : Phase → Phase → Prop where
  | other {p : Phase} : guess e = none → s'.throttle_ = s.throttle_ → Turn s s' e p p
  | confirm : guess e = none → s'.throttle_ = s.throttle_ → Turn s s' e .idle .confirmed
  | pass : guess e = none → s'.throttle_ = s.throttle_ → passes e = true →
    s.throttle_.lockedUntil_ ≤ s.now → Turn s s' e .idle .passed
  | compare {ok : Bool} : guess e = some ok → s'.throttle_ = s.throttle_ →
    Turn s s' e .passed (.compared ok)
  | failure {p : Phase} : guess e = none → s'.throttle_ = s.throttle_.recordFailure s.now →
    p = .compared false ∨ p = .passed → Turn s s' e p (.recorded false)
  | success : guess e = none → s'.throttle_ = {} → Turn s s' e (.compared true) (.recorded true)

theorem State.Serves.now (h : s.Serves e s') : s'.now = s.now := by
  cases h <;> rfl

theorem State.Serves.throttle (h : s.Serves e s') (hfailure : e.1 ≠ .recordFailure)
    (hsuccess : e.1 ≠ .recordSuccess) : s'.throttle_ = s.throttle_ := by
  cases h with
  | recordFailure => exact absurd rfl hfailure
  | recordSuccess => exact absurd rfl hsuccess
  | _ => rfl

theorem turn_of_serves {req : Request} {p : Phase} (hpermits : (entrance cfg req).permits p e.1)
    (hserves : s.Serves e s') : Turn s s' e p (p.next cfg e) := by
  obtain ⟨op, a⟩ := e
  cases op with
  | retryAfterSecs =>
    obtain rfl : p = .idle := hpermits
    have hsame := hserves.throttle nofun nofun
    cases hserves with
    | other hop => cases hop
    | retryAfterSecs =>
      rw [Phase.next_retryAfterSecs]
      split
      · rename_i hzero
        exact .pass rfl hsame (decide_eq_true hzero) (LoginThrottle.retryAfterSecs_eq_zero.mp hzero)
      · exact .other rfl hsame
  | verify password stored =>
    obtain rfl := hpermits.1
    have hsame := hserves.throttle nofun nofun
    cases a with
    | none => exact .other rfl hsame
    | some ok => exact .compare rfl hsame
  | constantTimeEquals x y =>
    obtain rfl := hpermits.1
    exact .compare rfl (hserves.throttle nofun nofun)
  | recordFailure =>
    cases hserves with
    | other hop => cases hop
    | recordFailure =>
      rcases hpermits with rfl | rfl
      · exact .failure rfl rfl (.inl rfl)
      · exact .failure rfl rfl (.inr rfl)
  | recordSuccess =>
    obtain rfl : p = .compared true := hpermits
    cases hserves with
    | other hop => cases hop
    | recordSuccess => exact .success rfl rfl
  | verifyOtp url payload token =>
    obtain rfl := hpermits.1
    have hsame := hserves.throttle nofun nofun
    rw [Phase.next_verifyOtp]
    split
    · exact .confirm rfl hsame
    · exact .other rfl hsame
  | _ =>
    rw [show p.next cfg _ = p by cases p <;> rfl]
    exact .other rfl (hserves.throttle nofun nofun)

theorem Turn.congr {u : State} {p p' : Phase} (h : Turn s u e p p')
    (hthrottle : u.throttle_ = s'.throttle_) : Turn s s' e p p' := by
  cases h with
  | other hguess hsame => exact .other hguess (hthrottle ▸ hsame)
  | confirm hguess hsame => exact .confirm hguess (hthrottle ▸ hsame)
  | pass hguess hsame hpasses hopen => exact .pass hguess (hthrottle ▸ hsame) hpasses hopen
  | compare hguess hsame => exact .compare hguess (hthrottle ▸ hsame)
  | failure hguess hrecord hp => exact .failure hguess (hthrottle ▸ hrecord) hp
  | success hguess hreset => exact .success hguess (hthrottle ▸ hreset)

/-- What becomes of the connection that made a call, and of the rest of the state. -/
structure Moved (cfg : Config) (s : State) (i : Nat) (e : Event) (c c' : Connection) (s' : State) :
    Prop where
  before : s.connections[i]? = some c
  running : c.rest.outcome = none
  after : s'.connections = s.connections.set i c'
  now : s'.now = s.now
  log : s'.log = s.log ++ [⟨s.now, i, e⟩]
  turn : Turn s s' e (c.phase cfg) (c'.phase cfg)

theorem moved_of_answered (hs : Sound cfg s) (h : Answered s i e s') :
    ∃ c c', Moved cfg s i e c c' s' := by
  obtain ⟨c, rest, hc, hrest, hconns⟩ := h.connection
  obtain ⟨u, hu, hnow, -, hthrottle, -⟩ := h.served
  have hserves := serves_of_serve hu
  have hsteps := (hs c (List.mem_of_getElem? hc)).append hrest
  have hturn := turn_of_serves (keeps_handleRequest.calls hsteps.calls) hserves
  have hphase : (c.answered e rest).phase cfg = Phase.next cfg (c.phase cfg) e :=
    (entrance cfg c.request).mode_concat .idle c.history e
  refine ⟨c, c.answered e rest, hc, ?_, hconns, hnow.symm.trans hserves.now, h.log, ?_⟩
  · obtain ⟨op, a⟩ := e
    cases hrun : c.rest with
    | call op' k => rfl
    | _ => rw [hrun] at hrest; cases hrest
  · rw [hphase]
    exact hturn.congr hthrottle

/-! ## Counting the attempts -/

theorem countP_set_add {α : Type} {f : α → Bool} {l : List α} {x y : α} (h : l[i]? = some x) :
    (l.set i y).countP f + (f x).toNat = l.countP f + (f y).toNat := by
  induction l generalizing i with
  | nil => cases h
  | cons z l ih =>
    cases i with
    | zero =>
      cases h
      cases hx : f x <;> cases hy : f y <;> simp [hx, hy]
    | succ i =>
      have hi := ih (i := i) h
      simp only [List.set_cons_succ, List.countP_cons]
      omega

namespace Moved

variable {c' : Connection}

theorem inFlight_add (h : Moved cfg s i e c c' s') :
    s'.inFlight cfg + (c.inFlight cfg).toNat = s.inFlight cfg + (c'.inFlight cfg).toNat := by
  unfold State.inFlight
  rw [h.after]
  exact countP_set_add h.before

theorem failing_add (h : Moved cfg s i e c c' s') :
    s'.failing cfg + (c.failing cfg).toNat = s.failing cfg + (c'.failing cfg).toNat := by
  unfold State.failing
  rw [h.after]
  exact countP_set_add h.before

/-- A connection was there, or it is the one that moved. -/
theorem mem (h : Moved cfg s i e c c' s') {d : Connection} (hd : d ∈ s'.connections) :
    d ∈ s.connections ∨ d = c' := by
  rw [h.after] at hd
  exact List.mem_or_eq_of_mem_set hd

theorem mem_before (h : Moved cfg s i e c c' s') : c ∈ s.connections := List.mem_of_getElem? h.before

theorem inFlight_before (h : Moved cfg s i e c c' s') :
    c.inFlight cfg = (c.phase cfg).inFlight true := by
  rw [Connection.inFlight, h.running]
  rfl

end Moved

theorem Phase.inFlight_le {p : Phase} {running : Bool} :
    (p.inFlight running).toNat ≤ (p.inFlight true).toNat := by
  cases p <;> cases running <;> simp [Phase.inFlight]

/-! ## Groups of failures -/

/-- The wrong guesses of the log are in two groups, a lock apart. -/
def ByLock (until_ : Nat) (old cur : List Entry) : Prop :=
  (∀ x ∈ old, x.wrong = true → x.time + LoginThrottle.kLockDuration ≤ until_) ∧
    ∀ y ∈ cur, y.wrong = true → until_ ≤ y.time

/-- There is a right guess between them. -/
def BySuccess (old cur : List Entry) : Prop :=
  ∃ x ∈ old, x.right = true ∧ (∀ y ∈ old, y.wrong = true → y.time ≤ x.time) ∧
    ∀ y ∈ cur, y.wrong = true → x.time ≤ y.time

/-- The log is what is settled, and the failures that the throttle counts or will count. -/
structure Groups (cfg : Config) (s : State) (old cur : List Entry) : Prop where
  log : s.log = old ++ cur
  settled : FewGuesses old
  counted : cur.countP Entry.wrong ≤ s.throttle_.failures_ + s.failing cfg
  apart : ByLock s.throttle_.lockedUntil_ old cur ∨ BySuccess old cur
  /-- until it is recorded, nothing fails behind a success -/
  success : ∀ c ∈ s.connections, c.phase cfg = .compared true →
    cur.countP Entry.wrong = 0 ∧ BySuccess old cur

structure Paced (cfg : Config) (s : State) : Prop where
  budget : s.throttle_.failures_ + s.inFlight cfg ≤ LoginThrottle.kMaxFailures
  /-- whoever is past the check meets no lock -/
  unlocked : ∀ c ∈ s.connections, c.phase cfg = .passed → c.rest.outcome = none →
    s.throttle_.lockedUntil_ ≤ s.now
  past : ∀ x ∈ s.log, x.time ≤ s.now
  groups : ∃ old cur, Groups cfg s old cur

theorem failing_le_inFlight : s.failing cfg ≤ s.inFlight cfg := by
  refine List.countP_mono_left fun c _ hc => ?_
  simp only [Connection.failing, decide_eq_true_eq] at hc
  rw [Connection.inFlight, hc]
  rfl

theorem Groups.few {old cur : List Entry} (h : Groups cfg s old cur)
    (hbudget : s.throttle_.failures_ + s.inFlight cfg ≤ LoginThrottle.kMaxFailures) :
    FewGuesses s.log := by
  have hcur : cur.countP Entry.wrong ≤ LoginThrottle.kMaxFailures := by
    have := h.counted
    have : s.failing cfg ≤ s.inFlight cfg := failing_le_inFlight
    omega
  rw [h.log]
  rcases h.apart with ⟨hbefore, hafter⟩ | ⟨x, hx, hright, hbefore, hafter⟩
  · exact h.settled.append_gap hcur hbefore hafter
  · exact h.settled.append_good hcur hx hright hbefore hafter

theorem Paced.few (h : Paced cfg s) : FewGuesses s.log := by
  obtain ⟨old, cur, hgroups⟩ := h.groups
  exact hgroups.few h.budget

/-! ### One more entry -/

variable {old cur : List Entry} {x : Entry}

theorem ByLock.concat {t : Nat} (h : ByLock t old cur) (hx : x.wrong = true → t ≤ x.time) :
    ByLock t old (cur ++ [x]) := by
  refine ⟨h.1, fun y hy hwrong => ?_⟩
  rcases List.mem_append.mp hy with hy | hy
  · exact h.2 y hy hwrong
  · obtain rfl := List.mem_singleton.mp hy
    exact hx hwrong

theorem BySuccess.concat (h : BySuccess old cur)
    (hx : x.wrong = true → ∀ z ∈ old, z.time ≤ x.time) : BySuccess old (cur ++ [x]) := by
  obtain ⟨z, hz, hright, hbefore, hafter⟩ := h
  refine ⟨z, hz, hright, hbefore, fun y hy hwrong => ?_⟩
  rcases List.mem_append.mp hy with hy | hy
  · exact hafter y hy hwrong
  · obtain rfl := List.mem_singleton.mp hy
    exact hx hwrong z hz

theorem countP_concat_of_not_wrong (hx : x.wrong = false) :
    (cur ++ [x]).countP Entry.wrong = cur.countP Entry.wrong := by
  rw [List.countP_append, List.countP_singleton, hx]
  rfl

theorem countP_concat_of_wrong (hx : x.wrong = true) :
    (cur ++ [x]).countP Entry.wrong = cur.countP Entry.wrong + 1 := by
  rw [List.countP_append, List.countP_singleton, hx]
  rfl

theorem wrong_eq_false (h : guess x.event ≠ some false) : x.wrong = false := decide_eq_false h

/-! ### One call -/

namespace Moved

variable {c' : Connection}

/-- The budget is used up by those who pass the check, and given back by a record. -/
theorem budget (h : Moved cfg s i e c c' s') (hs : Paced cfg s)
    (hG : Orderly cfg s (.answer i e)) :
    s'.throttle_.failures_ + s'.inFlight cfg ≤ LoginThrottle.kMaxFailures := by
  have hadd := h.inFlight_add
  have hbudget := hs.budget
  rw [h.inFlight_before, Connection.inFlight] at hadd
  generalize c'.rest.outcome.isNone = running at hadd
  have hturn := h.turn
  generalize c.phase cfg = p at hadd hturn
  generalize c'.phase cfg = p' at hadd hturn
  cases hturn with
  | other _ hsame =>
    have : (p.inFlight running).toNat ≤ (p.inFlight true).toNat := Phase.inFlight_le
    rw [hsame]
    omega
  | confirm _ hsame =>
    simp only [Phase.inFlight] at hadd
    rw [hsame]
    omega
  | pass _ hsame hpasses _ =>
    have hfree := hG.1 hpasses
    have := Bool.toNat_le running
    simp only [Phase.inFlight, Bool.toNat_false] at hadd
    rw [hsame]
    omega
  | compare _ hsame =>
    simp only [Phase.inFlight, Bool.toNat_true] at hadd
    rw [hsame]
    omega
  | failure _ hrecord hp =>
    have hflew : p.inFlight true = true := by rcases hp with rfl | rfl <;> rfl
    rw [hflew] at hadd
    simp only [Phase.inFlight, Bool.toNat_false, Bool.toNat_true] at hadd
    rw [hrecord]
    unfold LoginThrottle.recordFailure
    split <;> dsimp only <;> omega
  | success _ hreset =>
    simp only [Phase.inFlight, Bool.toNat_false, Bool.toNat_true] at hadd
    rw [hreset]
    dsimp only
    omega

/-- A lock is set when nobody is past the check any more. -/
theorem inFlight_eq_zero (h : Moved cfg s i e c c' s') (hs : Paced cfg s)
    (hp : c.phase cfg = .compared false ∨ c.phase cfg = .passed)
    (hp' : c'.phase cfg = .recorded false)
    (hlock : s.throttle_.failures_ + 1 ≥ LoginThrottle.kMaxFailures) : s'.inFlight cfg = 0 := by
  have hadd := h.inFlight_add
  have hbudget := hs.budget
  have hflew : (c.phase cfg).inFlight true = true := by rcases hp with hp | hp <;> rw [hp] <;> rfl
  rw [h.inFlight_before, hflew, Connection.inFlight, hp'] at hadd
  simp only [Phase.inFlight, Bool.toNat_false, Bool.toNat_true] at hadd
  omega

theorem not_inFlight (h : s'.inFlight cfg = 0) {d : Connection} (hd : d ∈ s'.connections) :
    d.inFlight cfg = false := by
  have hno := List.countP_eq_zero.mp h d hd
  simpa using hno

/-- What the throttle becomes where it keeps no lock. -/
theorem unlocked_of_same (h : Moved cfg s i e c c' s') (hs : Paced cfg s)
    (hsame : s'.throttle_.lockedUntil_ = s.throttle_.lockedUntil_)
    (hc' : c'.phase cfg = .passed → s.throttle_.lockedUntil_ ≤ s.now) :
    ∀ d ∈ s'.connections, d.phase cfg = .passed → d.rest.outcome = none →
      s'.throttle_.lockedUntil_ ≤ s'.now := by
  intro d hd hpassed hrunning
  rw [hsame, h.now]
  rcases h.mem hd with hd | rfl
  · exact hs.unlocked d hd hpassed hrunning
  · exact hc' hpassed

theorem unlocked (h : Moved cfg s i e c c' s') (hs : Paced cfg s) :
    ∀ d ∈ s'.connections, d.phase cfg = .passed → d.rest.outcome = none →
      s'.throttle_.lockedUntil_ ≤ s'.now := by
  have hc := hs.unlocked c h.mem_before
  have hturn := h.turn
  obtain ⟨p, hp⟩ : ∃ p, c.phase cfg = p := ⟨_, rfl⟩
  obtain ⟨p', hp'⟩ : ∃ p, c'.phase cfg = p := ⟨_, rfl⟩
  rw [hp, hp'] at hturn
  cases hturn with
  | other _ hsame =>
    exact h.unlocked_of_same hs (congrArg _ hsame) fun hpassed => hc (hp.trans (hp'.symm.trans hpassed)) h.running
  | confirm _ hsame =>
    exact h.unlocked_of_same hs (congrArg _ hsame) fun hpassed => by rw [hp'] at hpassed; cases hpassed
  | pass _ hsame _ hopen => exact h.unlocked_of_same hs (congrArg _ hsame) fun _ => hopen
  | compare _ hsame =>
    exact h.unlocked_of_same hs (congrArg _ hsame) fun _ => hc hp h.running
  | failure _ hrecord hp₀ =>
    by_cases hlock : s.throttle_.failures_ + 1 ≥ LoginThrottle.kMaxFailures
    · intro d hd hpassed hrunning
      have hno := not_inFlight (h.inFlight_eq_zero hs (hp ▸ hp₀) hp' hlock) hd
      rw [Connection.inFlight, hpassed, hrunning] at hno
      cases hno
    · refine h.unlocked_of_same hs ?_ fun hpassed => by rw [hp'] at hpassed; cases hpassed
      rw [hrecord, LoginThrottle.recordFailure, if_neg hlock]
  | success _ hreset =>
    intro d _ _ _
    rw [hreset]
    exact Nat.zero_le _

/-- A call that is no comparison joins the last group. -/
theorem groups_of_none {old cur : List Entry} (h : Moved cfg s i e c c' s')
    (hg : Groups cfg s old cur) (hguess : guess e = none)
    (hcounted : cur.countP Entry.wrong ≤ s'.throttle_.failures_ + s'.failing cfg)
    (hapart : ByLock s'.throttle_.lockedUntil_ old cur ∨ BySuccess old cur)
    (hc' : c'.phase cfg = .compared true → c.phase cfg = .compared true) :
    Groups cfg s' old (cur ++ [⟨s.now, i, e⟩]) := by
  have hright : (Entry.mk s.now i e).wrong = false := wrong_eq_false (by rw [hguess]; nofun)
  have hno {P : Prop} : (Entry.mk s.now i e).wrong = true → P := fun hwrong => by
    rw [hright] at hwrong
    cases hwrong
  refine ⟨by rw [h.log, hg.log, List.append_assoc], hg.settled, ?_, ?_, fun d hd hd' => ?_⟩
  · rw [countP_concat_of_not_wrong hright]
    exact hcounted
  · exact hapart.imp (fun hlock => hlock.concat hno) fun hsuccess => hsuccess.concat hno
  · rw [countP_concat_of_not_wrong hright]
    have hsuccess : cur.countP Entry.wrong = 0 ∧ BySuccess old cur := by
      rcases h.mem hd with hd | rfl
      · exact hg.success d hd hd'
      · exact hg.success c h.mem_before (hc' hd')
    exact ⟨hsuccess.1, hsuccess.2.concat hno⟩

/-- Everything so far is settled. -/
theorem groups_of_settled (h : Moved cfg s i e c c' s') (hs : Paced cfg s)
    (hguess : guess e ≠ some false)
    (hapart : ByLock s'.throttle_.lockedUntil_ s'.log [] ∨ BySuccess s'.log [])
    (hsuccess : ∀ d ∈ s'.connections, d.phase cfg = .compared true → BySuccess s'.log []) :
    Groups cfg s' s'.log [] where
  log := (List.append_nil _).symm
  settled := by
    rw [h.log]
    exact hs.few.concat (wrong_eq_false hguess)
  counted := Nat.zero_le _
  apart := hapart
  success d hd hd' := ⟨rfl, hsuccess d hd hd'⟩

theorem past (h : Moved cfg s i e c c' s') (hs : Paced cfg s) : ∀ x ∈ s'.log, x.time ≤ s'.now := by
  intro x hx
  rw [h.log] at hx
  rw [h.now]
  rcases List.mem_append.mp hx with hx | hx
  · exact hs.past x hx
  · rw [List.mem_singleton.mp hx]

theorem failing_same (h : Moved cfg s i e c c' s') (hc : c.failing cfg = c'.failing cfg) :
    s'.failing cfg = s.failing cfg := by
  have hadd := h.failing_add
  rw [hc] at hadd
  omega

/-- A call that records nothing either. -/
theorem groups_of_same {old cur : List Entry} (h : Moved cfg s i e c c' s')
    (hg : Groups cfg s old cur) (hguess : guess e = none) (hsame : s'.throttle_ = s.throttle_)
    (hfailing : c.failing cfg = c'.failing cfg)
    (hc' : c'.phase cfg = .compared true → c.phase cfg = .compared true) :
    Groups cfg s' old (cur ++ [⟨s.now, i, e⟩]) := by
  refine h.groups_of_none hg hguess ?_ ?_ hc'
  · rw [hsame, h.failing_same hfailing]
    exact hg.counted
  · rw [hsame]
    exact hg.apart

theorem failing_of_phase {p : Phase} (hp : c.phase cfg = p) (hne : p ≠ .compared false) :
    c.failing cfg = false := by
  simp only [Connection.failing, hp, hne, decide_false]

/-- A failed comparison is one more in the last group. -/
theorem groups_of_wrong {old cur : List Entry} (h : Moved cfg s i e c c' s') (hs : Paced cfg s)
    (hG : Orderly cfg s (.answer i e)) (hg : Groups cfg s old cur) (hguess : guess e = some false)
    (hsame : s'.throttle_ = s.throttle_) (hp : c.phase cfg = .passed)
    (hp' : c'.phase cfg = .compared false) : Groups cfg s' old (cur ++ [⟨s.now, i, e⟩]) := by
  have hwrong : (Entry.mk s.now i e).wrong = true := decide_eq_true hguess
  have hopen := hs.unlocked c h.mem_before hp h.running
  refine ⟨by rw [h.log, hg.log, List.append_assoc], hg.settled, ?_, ?_, fun d hd hd' => ?_⟩
  · have hadd := h.failing_add
    rw [failing_of_phase hp nofun, show c'.failing cfg = true from decide_eq_true hp'] at hadd
    simp only [Bool.toNat_false, Bool.toNat_true] at hadd
    have := hg.counted
    rw [countP_concat_of_wrong hwrong, hsame]
    omega
  · rw [hsame]
    refine hg.apart.imp (fun hlock => hlock.concat fun _ => hopen) fun hsuccess =>
      hsuccess.concat fun _ z hz => ?_
    exact hs.past z (hg.log ▸ List.mem_append_left cur hz)
  · rcases h.mem hd with hd | rfl
    · exact absurd hd' (hG.2 hguess d hd)
    · rw [hp'] at hd'
      cases hd'

theorem groups (h : Moved cfg s i e c c' s') (hs : Paced cfg s)
    (hG : Orderly cfg s (.answer i e)) : ∃ old cur, Groups cfg s' old cur := by
  obtain ⟨old, cur, hg⟩ := hs.groups
  have hturn := h.turn
  obtain ⟨p, hp⟩ : ∃ p, c.phase cfg = p := ⟨_, rfl⟩
  obtain ⟨p', hp'⟩ : ∃ p, c'.phase cfg = p := ⟨_, rfl⟩
  rw [hp, hp'] at hturn
  cases hturn with
  | other hguess hsame =>
    exact ⟨old, _, h.groups_of_same hg hguess hsame (by simp only [Connection.failing, hp, hp'])
      fun hd => hp.trans (hp'.symm.trans hd)⟩
  | confirm hguess hsame =>
    exact ⟨old, _, h.groups_of_same hg hguess hsame (by simp [Connection.failing, hp, hp'])
      fun hd => by rw [hp'] at hd; cases hd⟩
  | pass hguess hsame =>
    exact ⟨old, _, h.groups_of_same hg hguess hsame (by simp [Connection.failing, hp, hp'])
      fun hd => by rw [hp'] at hd; cases hd⟩
  | @compare ok hguess hsame =>
    cases ok with
    | false => exact ⟨old, _, h.groups_of_wrong hs hG hg hguess hsame hp hp'⟩
    | true =>
      have hsuccess : BySuccess s'.log [] := by
        refine ⟨⟨s.now, i, e⟩, ?_, decide_eq_true hguess, fun y hy _ => ?_, by simp⟩
        · rw [h.log]
          exact List.mem_append_right _ List.mem_cons_self
        · rw [← h.now]
          exact h.past hs y hy
      exact ⟨s'.log, [], h.groups_of_settled hs (by rw [hguess]; nofun) (.inr hsuccess)
        fun _ _ _ => hsuccess⟩
  | failure hguess hrecord hp₀ =>
    by_cases hlock : s.throttle_.failures_ + 1 ≥ LoginThrottle.kMaxFailures
    · have hzero := h.inFlight_eq_zero hs (hp ▸ hp₀) hp' hlock
      refine ⟨s'.log, [], h.groups_of_settled hs (by rw [hguess]; nofun) (.inl ⟨fun x hx _ => ?_, by simp⟩)
        fun d hd hd' => ?_⟩
      · have := h.past hs x hx
        rw [hrecord, LoginThrottle.recordFailure, if_pos hlock]
        rw [h.now] at this
        exact Nat.add_le_add_right this _
      · have hno := not_inFlight hzero hd
        rw [Connection.inFlight, hd'] at hno
        cases hno
    · have hthrottle : s'.throttle_ = { s.throttle_ with failures_ := s.throttle_.failures_ + 1 } := by
        rw [hrecord, LoginThrottle.recordFailure, if_neg hlock]
      refine ⟨old, _, h.groups_of_none hg hguess ?_ ?_ fun hd => by rw [hp'] at hd; cases hd⟩
      · have hadd := h.failing_add
        have := Bool.toNat_le (c.failing cfg)
        have := hg.counted
        rw [hthrottle]
        dsimp only
        omega
      · rw [hthrottle]
        exact hg.apart
  | success hguess hreset =>
    obtain ⟨hzero, hsuccess⟩ := hg.success c h.mem_before hp
    refine ⟨old, _, h.groups_of_none hg hguess ?_ (.inr hsuccess) fun hd => by rw [hp'] at hd; cases hd⟩
    rw [hzero]
    exact Nat.zero_le _

theorem paced (h : Moved cfg s i e c c' s') (hs : Paced cfg s)
    (hG : Orderly cfg s (.answer i e)) : Paced cfg s' :=
  ⟨h.budget hs hG, h.unlocked hs, h.past hs, h.groups hs hG⟩

end Moved

/-! ## Over runs -/

theorem Paced.of_same (h : Paced cfg s) (hnow : s.now ≤ s'.now) (hthrottle : s'.throttle_ = s.throttle_)
    (hconns : s'.connections = s.connections) (hlog : s'.log = s.log) : Paced cfg s' := by
  obtain ⟨old, cur, hg⟩ := h.groups
  have hfailing : s'.failing cfg = s.failing cfg := by rw [State.failing, hconns]; rfl
  refine ⟨?_, fun c hc hp hr => ?_, fun x hx => ?_, old, cur, ?_⟩
  · rw [hthrottle, State.inFlight, hconns]
    exact h.budget
  · rw [hconns] at hc
    rw [hthrottle]
    exact Nat.le_trans (h.unlocked c hc hp hr) hnow
  · rw [hlog] at hx
    exact Nat.le_trans (h.past x hx) hnow
  · exact ⟨hlog.trans hg.log, hg.settled, by rw [hthrottle, hfailing]; exact hg.counted,
      by rw [hthrottle]; exact hg.apart, fun c hc => hg.success c (hconns ▸ hc)⟩

/-- A connection that has made no call is no attempt. -/
theorem Paced.of_request (h : Paced cfg s) {d : Connection} (hd : d.history = []) :
    Paced cfg { s with connections := s.connections ++ [d] } := by
  obtain ⟨old, cur, hg⟩ := h.groups
  have hphase : d.phase cfg = .idle := by rw [Connection.phase, hd]; rfl
  have hmem {P : Phase → Prop} (hidle : ¬ P .idle) : ∀ c ∈ s.connections ++ [d], P (c.phase cfg) →
      c ∈ s.connections := fun c hc hP => by
    rcases List.mem_append.mp hc with hc | hc
    · exact hc
    · rw [List.mem_singleton.mp hc, hphase] at hP
      exact absurd hP hidle
  have hinFlight : d.inFlight cfg = false := by rw [Connection.inFlight, hphase]; rfl
  have hfailing : d.failing cfg = false := Moved.failing_of_phase hphase nofun
  refine ⟨?_, fun c hc hp => ?_, h.past, old, cur, hg.log, hg.settled, ?_, hg.apart, fun c hc hp => ?_⟩
  · simpa [State.inFlight, List.countP_append, List.countP_singleton, hinFlight] using h.budget
  · exact h.unlocked c (hmem (P := (· = .passed)) nofun c hc hp) hp
  · simpa [State.failing, List.countP_append, List.countP_singleton, hfailing] using hg.counted
  · exact hg.success c (hmem (P := (· = .compared true)) nofun c hc hp) hp

theorem Paced.init (h : (machine cfg).Init s) : Paced cfg s := by
  obtain ⟨hconns, hlog, hthrottle⟩ := h
  refine ⟨?_, fun c hc => ?_, fun x hx => ?_, [], [], hlog, bounded_nil, Nat.zero_le _, ?_, fun c hc => ?_⟩
  · rw [hthrottle, State.inFlight, hconns, List.countP_nil]
    decide
  · rw [hconns] at hc; cases hc
  · rw [hlog] at hx; cases hx
  · exact .inl ⟨by simp, by simp⟩
  · rw [hconns] at hc; cases hc

theorem paced_inductive :
    (machine cfg).Inductive (Orderly cfg) fun s => Sound cfg s ∧ Paced cfg s where
  init s h := ⟨sound_inductive.init s h, .init h⟩
  step s a s' h hG hs := by
    refine ⟨sound_inductive.step s a s' h.1 trivial hs, ?_⟩
    cases a with
    | request req =>
      cases hs
      exact h.2.of_request rfl
    | answer i e =>
      have hstep : ShareFrame.Dashboard.step cfg s (.answer i e) = some s' := hs
      obtain ⟨c, c', hmoved⟩ := moved_of_answered h.1 (answered_of_step hstep)
      exact hmoved.paced h.2 hG
    | tick ticks =>
      cases hs
      exact h.2.of_same (Nat.le_add_right _ _) rfl rfl rfl
    | publish file =>
      cases hs
      exact h.2.of_same (Nat.le_refl _) rfl rfl rfl

/-- Some attempt is past the check, and its failure is not among those that wait for a record. -/
theorem failing_lt_inFlight (hc : c ∈ s.connections) (hflew : c.inFlight cfg = true)
    (hno : c.failing cfg = false) : s.failing cfg < s.inFlight cfg := by
  obtain ⟨l, l', hl⟩ := List.append_of_mem hc
  have hle (l : List Connection) :
      l.countP (Connection.failing cfg) ≤ l.countP (Connection.inFlight cfg) :=
    failing_le_inFlight (s := { s with connections := l })
  have := hle l
  have := hle l'
  simp only [State.failing, State.inFlight, hl, List.countP_append, List.countP_cons, hflew, hno]
  simp only [if_true, Bool.false_eq_true, if_false]
  omega

/-- Where every step keeps to the order, five wrong passwords at most are compared in half a minute
without a success; and a comparison is only made while there is no lock, and fewer than five
failures are recorded or wait for their record. -/
theorem fewGuesses_of_orderly (h : (machine cfg).ReachableBy (Orderly cfg) s) :
    FewGuesses s.log ∧
      ∀ i e s', step cfg s (.answer i e) = some s' → guess e ≠ none →
        s.throttle_.retryAfterSecs s.now = 0 ∧
          s.throttle_.failures_ + s.failing cfg < LoginThrottle.kMaxFailures := by
  obtain ⟨hsound, hpaced⟩ := paced_inductive.of_reachable h
  refine ⟨hpaced.few, fun i e s' hstep hguess => ?_⟩
  obtain ⟨c, c', hmoved⟩ := moved_of_answered hsound (answered_of_step hstep)
  have hp : c.phase cfg = .passed := by
    have hturn := hmoved.turn
    generalize c.phase cfg = p at hturn
    generalize c'.phase cfg = p' at hturn
    cases hturn with
    | compare => rfl
    | _ => exact absurd ‹guess e = none› hguess
  have hopen := hpaced.unlocked c hmoved.mem_before hp hmoved.running
  have hflew : c.inFlight cfg = true := by rw [hmoved.inFlight_before, hp]; rfl
  have hlt := failing_lt_inFlight hmoved.mem_before hflew (Moved.failing_of_phase hp nofun)
  have := hpaced.budget
  exact ⟨LoginThrottle.retryAfterSecs_eq_zero.mpr hopen, by omega⟩

/-! ## Six at once -/

/-- An object with a password. -/
def loginText : String := "\x7b\"password\":\"12345678\"\x7d"

/-- The row of a password hash. -/
def storedText : String := "pbkdf2-sha256$1000$AAAA$AAAA"

/-- A frame with a stored password, whose parser knows the body of the login. -/
def lockedBoard : Config where
  parse text :=
    if text = loginText.toUTF8.toList then some (.obj [("password", .str "12345678")]) else none
  decode text := if text = "AAAA" then some [0, 0, 0] else none
  initialPassword := ""
  verifyOtpUrl := ""
  display := {}
  system := { frameId := "", version := "", appSha := "", diagnostics := ⟨"", ""⟩ }

def loginRequest : Request where
  method := "POST"
  uri := "/api/auth/login"
  body := loginText.toUTF8.toList

/-- No session, no lock. -/
def quietState : State where
  now := 0
  sessions_ _ := none
  wifiMode := none

/-- A login up to its comparison. -/
def passCheck (i : Nat) : List Act :=
  [.answer i ⟨.retryAfterSecs, (0 : Nat)⟩,
    .answer i ⟨.getSetting kPasswordHashKey, some (some storedText)⟩,
    .answer i ⟨.getSetting kPasswordHashKey, some (some storedText)⟩]

/-- The password is wrong. -/
def compareWrong (i : Nat) : Act := .answer i ⟨.verify "12345678" storedText, some false⟩

/-- Six logins pass the check before one of them compares. -/
def sixAtOnce : List Act :=
  List.replicate 6 (Act.request loginRequest) ++ (List.range 6).flatMap passCheck ++
    (List.range 6).map compareWrong

/-- Two logins that are past the check at the same time. -/
def twoLogins : List Act :=
  List.replicate 2 (Act.request loginRequest) ++ passCheck 0 ++ passCheck 1 ++
    [compareWrong 1, compareWrong 0, .answer 0 ⟨.recordFailure, ()⟩, .answer 1 ⟨.recordFailure, ()⟩]

theorem fewGuesses_of_orderly_two :
    ∃ s : State, s.log.countP Entry.wrong = 2 ∧ FewGuesses s.log := by
  obtain ⟨s, hrun, hwrong⟩ := (machine lockedBoard).exists_of_run quietState twoLogins
    (fun s => s.log.countP Entry.wrong = 2) (by decide +kernel)
  have hmeets : (machine lockedBoard).Meets (Orderly lockedBoard) quietState twoLogins := by
    decide +kernel
  exact ⟨s, of_decide_eq_true hwrong,
    (fewGuesses_of_orderly (.run twoLogins (.init ⟨rfl, rfl, rfl⟩) hmeets hrun)).1⟩

/-- Six wrong passwords are compared in one moment, without a success. -/
theorem not_fewGuesses_six : ∃ s, (machine lockedBoard).Reachable s ∧ ¬ FewGuesses s.log := by
  obtain ⟨s, hrun, hsix⟩ := (machine lockedBoard).exists_of_run quietState sixAtOnce
    (fun s => decide (badWithin Entry.time Entry.wrong LoginThrottle.kLockDuration s.log 0 = 6) &&
      s.log.all fun x => !x.right) (by decide +kernel)
  rw [Bool.and_eq_true, decide_eq_true_eq, List.all_eq_true] at hsix
  refine ⟨s, Transition.Machine.reachable_run sixAtOnce ⟨rfl, rfl, rfl⟩ hrun, fun h => ?_⟩
  have hle := h 0 fun x hx hright => by
    have := hsix.2 x hx
    rw [hright] at this
    cases this
  rw [hsix.1] at hle
  exact absurd hle (by decide)

end ShareFrame.Dashboard
