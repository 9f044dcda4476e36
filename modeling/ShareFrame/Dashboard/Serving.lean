import ShareFrame.Dashboard.DashboardServer
import ShareFrame.Lib.Machine
import ShareFrame.Util.Clock
import Mathlib.Logic.Function.Basic

/-!
# Requests at the same time

Every connection has its own thread, which runs `_handleRequest`. The threads share
the session store and the throttle, whose calls are atomic, and the file with the
Wi-Fi mode, which wifi-mode-manager rewrites. A step is one call of one thread
(`State.serve`), a new request, the passing of time, or a new mode. What the rest of
the frame and the server answer is part of the label.
-/

namespace ShareFrame.Dashboard

open HTTPClient Interaction Prog

/-! ## The throttle -/

structure LoginThrottle where
  failures_ : Nat := 0
  /-- in ticks of the steady clock -/
  lockedUntil_ : Nat := 0
  deriving DecidableEq, Repr

namespace LoginThrottle

def kMaxFailures : Nat := 5

def kLockDuration : Nat := 30 * second

/-- Whole seconds, rounded up. -/
def retryAfterSecs (s : LoginThrottle) (now : Nat) : Nat :=
  if s.lockedUntil_ ≤ now then 0 else (s.lockedUntil_ - now + (second - 1)) / second

def recordFailure (s : LoginThrottle) (now : Nat) : LoginThrottle :=
  if s.failures_ + 1 ≥ kMaxFailures then { failures_ := 0, lockedUntil_ := now + kLockDuration }
  else { s with failures_ := s.failures_ + 1 }

def recordSuccess (_ : LoginThrottle) : LoginThrottle := {}

/-- It reports no lock if and only if there is none. -/
theorem retryAfterSecs_eq_zero {s : LoginThrottle} {now : Nat} :
    s.retryAfterSecs now = 0 ↔ s.lockedUntil_ ≤ now := by
  unfold retryAfterSecs
  split
  · simp_all
  · simp only [second] at *
    omega

end LoginThrottle

/-! ## The server -/

/-- In ticks of the steady clock. -/
def kSessionMaxAge : Nat := 30 * 60 * second

/-- 32 bytes in hexadecimal digits. -/
def isSessionId (id : String) : Bool :=
  id.toList.length = 64 && id.toList.all fun c => c.isDigit || ('a' ≤ c && c ≤ 'f')

/-- A thread: the request, the calls so far, and what is left of `_handleRequest`. -/
structure Connection where
  request : Request
  history : List Event := []
  rest : Handler Response

/-- A call of a connection and its time. -/
structure Entry where
  time : Nat
  connection : Nat
  event : Event

structure State where
  now : Nat
  /-- when each session expires -/
  sessions_ : String → Option Nat
  throttle_ : LoginThrottle := {}
  wifiMode : Option Json
  connections : List Connection := []
  log : List Entry := []

namespace State

/-- `SessionManager::isValid` -/
def isValid (s : State) (sessionId : String) : Bool :=
  match s.sessions_ sessionId with
  | none => false
  | some expiresAt => s.now < expiresAt

/-- One call. `none` where the answer is not the one of the state. -/
def serve (s : State) : Event → Option State
  | ⟨.outside .readWifiMode, file⟩ => if file = s.wifiMode then some s else none
  | ⟨.createSession, id⟩ =>
    if isSessionId id then
      some { s with sessions_ := Function.update s.sessions_ id (some (s.now + kSessionMaxAge)) }
    else none
  | ⟨.isValid id, valid⟩ => if valid = s.isValid id then some s else none
  | ⟨.removeSession id, _⟩ => some { s with sessions_ := Function.update s.sessions_ id none }
  | ⟨.retryAfterSecs, wait⟩ => if wait = s.throttle_.retryAfterSecs s.now then some s else none
  | ⟨.recordFailure, _⟩ => some { s with throttle_ := s.throttle_.recordFailure s.now }
  | ⟨.recordSuccess, _⟩ => some { s with throttle_ := s.throttle_.recordSuccess }
  | ⟨.constantTimeEquals a b, equal⟩ => if equal = decide (a = b) then some s else none
  | _ => some s

end State

inductive Act where
  | request (req : Request)
  /-- the next call of a connection is answered -/
  | answer (i : Nat) (e : Event)
  | tick (ticks : Nat)
  /-- wifi-mode-manager writes its file -/
  | publish (file : Option Json)

variable (cfg : Config)

def Connection.answered (c : Connection) (e : Event) (rest : Handler Response) : Connection :=
  { c with history := c.history ++ [e], rest }

def step (s : State) : Act → Option State
  | .request req =>
    some { s with connections := s.connections ++ [{ request := req, rest := handleRequest cfg req }] }
  | .answer i e => do
    let c ← s.connections[i]?
    let rest ← c.rest.answer e
    let s' ← s.serve e
    some { s' with
      connections := s.connections.set i (c.answered e rest)
      log := s.log ++ [⟨s.now, i, e⟩] }
  | .tick ticks => some { s with now := s.now + ticks }
  | .publish file => some { s with wifiMode := file }

/-- The process starts without connections, with any clock, any sessions and any mode. -/
def machine : Transition.Machine State Act where
  Init s := s.connections = [] ∧ s.log = [] ∧ s.throttle_ = {}
  step := step cfg

/-! ## What a step can do -/

variable {cfg} {s s' : State}

/-- The calls that the shared state answers. -/
def Op.isShared : Op → Bool
  | .outside .readWifiMode | .createSession | .isValid _ | .removeSession _ | .retryAfterSecs
  | .recordFailure | .recordSuccess | .constantTimeEquals _ _ => true
  | _ => false

inductive State.Serves (s : State) : Event → State → Prop where
  | readWifiMode : Serves s ⟨.outside .readWifiMode, s.wifiMode⟩ s
  | createSession {id : String} : isSessionId id = true → Serves s ⟨.createSession, id⟩
    { s with sessions_ := Function.update s.sessions_ id (some (s.now + kSessionMaxAge)) }
  | isValid {id : String} : Serves s ⟨.isValid id, s.isValid id⟩ s
  | removeSession {id : String} : Serves s ⟨.removeSession id, ()⟩
    { s with sessions_ := Function.update s.sessions_ id none }
  | retryAfterSecs : Serves s ⟨.retryAfterSecs, s.throttle_.retryAfterSecs s.now⟩ s
  | recordFailure : Serves s ⟨.recordFailure, ()⟩
    { s with throttle_ := s.throttle_.recordFailure s.now }
  | recordSuccess : Serves s ⟨.recordSuccess, ()⟩ { s with throttle_ := s.throttle_.recordSuccess }
  | constantTimeEquals {a b : String} : Serves s ⟨.constantTimeEquals a b, decide (a = b)⟩ s
  | other {e : Event} : e.1.isShared = false → Serves s e s

theorem serves_of_serve {e : Event} (h : s.serve e = some s') : s.Serves e s' := by
  unfold State.serve at h
  split at h
  · split at h <;> cases h
    rename_i hfile
    exact hfile ▸ .readWifiMode
  · split at h <;> cases h
    rename_i hid
    exact .createSession hid
  · split at h <;> cases h
    rename_i hvalid
    exact hvalid ▸ .isValid
  · cases h
    exact .removeSession
  · split at h <;> cases h
    rename_i hwait
    exact hwait ▸ .retryAfterSecs
  · cases h
    exact .recordFailure
  · cases h
    exact .recordSuccess
  · split at h <;> cases h
    rename_i hequal
    exact hequal ▸ .constantTimeEquals
  · rename_i hmode hcreate hvalid hremove hretry hfailure hsuccess hequals
    cases h
    refine .other ?_
    obtain ⟨op, a⟩ := e
    cases op with
    | outside op =>
      cases op with
      | readWifiMode => exact (hmode a rfl).elim
      | _ => rfl
    | createSession => exact (hcreate a rfl).elim
    | isValid id => exact (hvalid id a rfl).elim
    | removeSession id => exact (hremove id a rfl).elim
    | retryAfterSecs => exact (hretry a rfl).elim
    | recordFailure => exact (hfailure a rfl).elim
    | recordSuccess => exact (hsuccess a rfl).elim
    | constantTimeEquals x y => exact (hequals x y a rfl).elim
    | _ => rfl

/-- A call of a connection. -/
structure Answered (s : State) (i : Nat) (e : Event) (s' : State) : Prop where
  connection : ∃ c rest, s.connections[i]? = some c ∧ Steps c.rest [e] rest ∧
    s'.connections = s.connections.set i (c.answered e rest)
  served : ∃ u, s.serve e = some u ∧ u.now = s'.now ∧ u.sessions_ = s'.sessions_ ∧
    u.throttle_ = s'.throttle_ ∧ u.wifiMode = s'.wifiMode
  log : s'.log = s.log ++ [⟨s.now, i, e⟩]

theorem answered_of_step {i : Nat} {e : Event} (h : step cfg s (.answer i e) = some s') :
    Answered s i e s' := by
  simp only [step, Option.bind_eq_bind, Option.bind_eq_some_iff, Option.some.injEq] at h
  obtain ⟨c, hc, rest, hrest, u, hu, rfl⟩ := h
  exact ⟨⟨c, rest, hc, answer_eq_some.mp hrest, rfl⟩, ⟨u, hu, rfl, rfl, rfl, rfl⟩, rfl⟩

/-- A step is a call, or it leaves the connections that are there, the log, the sessions and the
throttle alone. -/
inductive Effect (cfg : Config) (s s' : State) : Prop where
  | request (req : Request) (h : s' = { s with
      connections := s.connections ++ [{ request := req, rest := handleRequest cfg req }] })
  | answer {i : Nat} {e : Event} (h : Answered s i e s')
  | tick {ticks : Nat} (h : s' = { s with now := s.now + ticks })
  | publish {file : Option Json} (h : s' = { s with wifiMode := file })

theorem step_effect {a : Act} (h : step cfg s a = some s') : Effect cfg s s' := by
  cases a with
  | request req => exact .request req (Option.some.inj h).symm
  | answer i e => exact .answer (answered_of_step h)
  | tick ticks => exact .tick (Option.some.inj h).symm
  | publish file => exact .publish (Option.some.inj h).symm

/-- A connection has got as far as its calls lead. -/
def Sound (cfg : Config) (s : State) : Prop :=
  ∀ c ∈ s.connections, Steps (handleRequest cfg c.request) c.history c.rest

theorem sound_inductive : (machine cfg).Inductive (fun _ _ => True) (Sound cfg) where
  init s h c hc := by rw [h.1] at hc; cases hc
  step s a s' h _ hs := by
    intro c hc
    cases step_effect hs with
    | request req heq =>
      subst heq
      rcases List.mem_append.mp hc with hc | hc
      · exact h c hc
      · cases List.mem_singleton.mp hc
        exact .nil _
    | answer hans =>
      obtain ⟨c₀, rest, hc₀, hrest, hconns⟩ := hans.connection
      rw [hconns] at hc
      rcases List.mem_or_eq_of_mem_set hc with hc | rfl
      · exact h c hc
      · exact (h c₀ (List.mem_of_getElem? hc₀)).append hrest
    | tick heq => subst heq; exact h c hc
    | publish heq => subst heq; exact h c hc

theorem sound_of_reachable (h : (machine cfg).Reachable s) : Sound cfg s :=
  sound_inductive.of_reachable h

end ShareFrame.Dashboard
