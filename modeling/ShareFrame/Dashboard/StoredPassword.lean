import ShareFrame.Dashboard.Commands
import ShareFrame.Lib.Places
import ShareFrame.Lib.Returns

/-!
# The stored password

The row of the password hash is shared by all requests; a change of the password
overwrites it. Each comparison is with the row as the request read it, and the row may
change between. A password is in force where the row accepts it (`accepts`): its hash
does, or, where there is no well-formed hash, it is the initial password.

Where what the database and the crypto library answer is the truth (`Genuine`), nobody
is let in by a password, and nobody changes it, with a password that was not in force at
some moment of the request (`password_custody`). Where the row stays as it is and nothing
fails, an attempt that is not locked out succeeds if and only if its password is in
force, also right after a change (`password_decides`).
-/

namespace ShareFrame.Dashboard

open HTTPClient Interaction Prog Transition.Machine

variable (cfg : Config) (crypto : PasswordHash.Crypto)

/-! ## What is in force -/

def accepts (row : Option String) (password : String) : Bool :=
  match row.filter (isWellFormed cfg) with
  | some stored => PasswordHash.verify cfg.decode crypto password stored = some true
  | none => cfg.initialPassword ≠ "" && password = cfg.initialPassword

/-- What a call has stored. -/
def storedBy : Event → Option String
  | ⟨.setSetting key hash, some ()⟩ => if key = kPasswordHashKey then some hash else none
  | _ => none

/-- The row behind the calls of this log, which began with `row₀`. -/
def storedRow (row₀ : Option String) (log : List Entry) : Option String :=
  (log.filterMap fun x => storedBy x.event).getLast?.or row₀

/-- An answer of the database or the crypto library is the truth, or a failure. -/
def Vouched (row : Option String) : Event → Prop
  | ⟨.getSetting key, some found⟩ => key = kPasswordHashKey → found = row
  | ⟨.verify password stored, some ok⟩ =>
    PasswordHash.verify cfg.decode crypto password stored = some ok
  | ⟨.hash password, some hash⟩ => ∃ salt : List UInt8, salt.length = PasswordHash.kSaltLen ∧
    PasswordHash.hash crypto salt password = some hash
  | ⟨.constantTimeEquals a b, equal⟩ => equal = decide (a = b)
  | _ => True

def Genuine (row₀ : Option String) (s : State) : Act → Prop
  | .answer _ e => Vouched cfg crypto (storedRow row₀ s.log) e
  | _ => True

variable {cfg crypto} {req : Request} {t t' : List Event} {row : Option String} {password : String}

/-! ## What a request compares and stores -/

/-- The password was compared with the row that was read, and was right. -/
inductive Passed (cfg : Config) (password : String) (t : List Event) : Prop where
  | stored {stored : String} (hread : ⟨.getSetting kPasswordHashKey, some (some stored)⟩ ∈ t)
    (hwell : isWellFormed cfg stored = true) (hverify : ⟨.verify password stored, some true⟩ ∈ t)
  | initial {row : Option String} (hread : ⟨.getSetting kPasswordHashKey, some row⟩ ∈ t)
    (hwell : row.any (isWellFormed cfg) = false) (hne : cfg.initialPassword ≠ "")
    (hequal : ⟨.constantTimeEquals password cfg.initialPassword, true⟩ ∈ t)

theorem Passed.mono (h : Passed cfg password t) (ht : t ⊆ t') : Passed cfg password t' := by
  cases h with
  | stored hread hwell hverify => exact .stored (ht hread) hwell (ht hverify)
  | initial hread hwell hne hequal => exact .initial (ht hread) hwell hne (ht hequal)

/-- The body of the request is a change of the password. -/
def Proposes (cfg : Config) (req : Request) (args : ChangeArgs) : Prop :=
  ∃ body, cfg.parse req.body = some body ∧ readChange body = .ok (.accepted args)

/-- A hash that the request may store: of the new password, behind the current one. -/
def Replaces (cfg : Config) (req : Request) (t : List Event) (key hash : String) : Prop :=
  key = kPasswordHashKey ∧ req.path = "/api/auth/change-password" ∧
    ∃ args, Proposes cfg req args ∧ Validation.isValidPassword args.new = true ∧
      Passed cfg args.current t ∧ ⟨.hash args.new, some hash⟩ ∈ t

def custody (cfg : Config) (req : Request) : Discipline Ans (List Event) :=
  .tracing fun t op => match op with
    | .createSession => ∀ password, Offers cfg req (.password password) → Passed cfg password t
    | .setSetting key hash => Replaces cfg req t key hash
    | _ => True

/-- No session, and nothing stored. -/
def Idle : Op → Prop
  | .createSession | .setSetting _ _ => False
  | _ => True

theorem custody_idle {α : Type} {p : Handler α} (h : Uses Idle p) :
    (custody cfg req).Keeps p (fun _ _ => True) t :=
  Discipline.keeps_of_permitted h fun t op hop => by
    cases op with
    | createSession | setSetting => exact hop.elim
    | _ => trivial

theorem idle_outside {α : Type} {p : Service α} : Uses Idle (outside p) :=
  uses_embed.mono fun _ ⟨_, hop⟩ => hop ▸ trivial

theorem idle_hasValidSession : Uses Idle (hasValidSession req) := by
  unfold hasValidSession
  split
  · exact .pure
  · exact .ask trivial

theorem idle_failed {message : String} : Uses Idle (failed message) :=
  .bind (.ask trivial) fun _ => .bind (.ask trivial) fun _ => .pure

theorem custody_orThrow {α : Type} {e : Error} {x : Option α} {Q : α → List Event → Prop}
    (h : ∀ a, x = some a → Q a t) : (custody cfg req).Keeps (orThrow e x : Handler α) Q t := by
  cases x with
  | none => trivial
  | some a => exact h a rfl

/-- The row as it was read. -/
theorem custody_storedHash : (custody cfg req).Keeps storedHash (fun row t' =>
    t' = t ++ [⟨.getSetting kPasswordHashKey, some row⟩]) t := by
  refine Discipline.keeps_ask_bind.mpr ⟨trivial, fun found => custody_orThrow fun row hrow => ?_⟩
  rw [← hrow]
  rfl

theorem mem_concat {e : Event} : e ∈ t ++ [e] := List.mem_append_right t List.mem_cons_self

/-- A comparison that succeeded was one with the row. -/
theorem custody_verify : (custody cfg req).Keeps (verifyDashboardPassword cfg password)
    (fun ok t' => ok = true → Passed cfg password t') t := by
  have hinitial {t : List Event} {row : Option String}
      (hread : ⟨.getSetting kPasswordHashKey, some row⟩ ∈ t) (hwell : row.any (isWellFormed cfg) = false) :
      (custody cfg req).Keeps (verifyInitial cfg password)
        (fun ok t' => ok = true → Passed cfg password t') t := by
    unfold verifyInitial
    split
    · exact nofun
    · rename_i hne
      refine Discipline.keeps_ask.mpr ⟨trivial, fun ok hok => ?_⟩
      subst hok
      exact .initial (List.mem_append_left _ hread) hwell hne mem_concat
  refine custody_storedHash.bind fun row t' ht => ?_
  subst ht
  cases row with
  | none => exact hinitial mem_concat rfl
  | some stored =>
    dsimp only
    split
    · rename_i hwell
      refine Discipline.keeps_ask_bind.mpr ⟨trivial, fun answer => custody_orThrow fun ok hsome hok => ?_⟩
      subst hsome hok
      exact .stored (List.mem_append_left _ mem_concat) hwell mem_concat
    · rename_i hwell
      exact hinitial mem_concat (by simpa using hwell)

theorem idle_configured : Uses Idle (isPasswordLoginConfigured cfg) :=
  .bind (.bind (.ask trivial) fun row => by cases row <;> first | exact .throw | exact .pure) fun _ => .pure

/-- A body is one login. -/
theorem eq_of_offers {a b : Credential} (ha : Offers cfg req a) (hb : Offers cfg req b) : a = b := by
  obtain ⟨body, hbody, hread⟩ := ha
  obtain ⟨body', hbody', hread'⟩ := hb
  obtain rfl := Option.some.inj (hbody.symm.trans hbody')
  cases hread.symm.trans hread'
  rfl

theorem custody_passwordLogin (hoffers : Offers cfg req (.password password)) :
    (custody cfg req).Keeps (handlePasswordLogin cfg password) (fun _ _ => True) t := by
  refine Discipline.keeps_ask_bind.mpr ⟨trivial, fun wait => ?_⟩
  split
  · trivial
  refine (custody_idle idle_configured).bind fun configured t _ => ?_
  split
  · trivial
  refine custody_verify.bind fun ok t hpassed => ?_
  cases ok with
  | false => exact custody_idle idle_failed
  | true =>
    refine Discipline.keeps_ask_bind.mpr ⟨trivial, fun _ => ?_⟩
    refine Discipline.keeps_ask_bind.mpr ⟨fun other hother => ?_, fun _ => trivial⟩
    cases eq_of_offers hoffers hother
    exact (hpassed rfl).mono (List.subset_append_left _ _)

/-- A session behind a one-time password is none of a password. -/
theorem custody_otpLogin {otp : String} (hoffers : Offers cfg req (.otp otp)) :
    (custody cfg req).Keeps (otpLogin cfg otp) (fun _ _ => True) t := by
  refine Discipline.keeps_ask_bind.mpr ⟨trivial, fun headers => ?_⟩
  refine Discipline.keeps_bind.mpr (custody_orThrow fun token _ => ?_)
  refine Discipline.keeps_ask_bind.mpr ⟨trivial, fun resp => ?_⟩
  unfold otpReplied
  split
  · trivial
  split
  · trivial
  refine Discipline.keeps_bind.mpr (Discipline.keeps_lift.mpr fun valid _ => ?_)
  split
  · trivial
  · refine Discipline.keeps_ask_bind.mpr ⟨fun other hother => ?_, fun _ => trivial⟩
    cases eq_of_offers hoffers hother

theorem custody_changePassword {args : ChangeArgs} (hpath : req.path = "/api/auth/change-password")
    (hproposes : Proposes cfg req args) :
    (custody cfg req).Keeps (changePassword cfg args) (fun _ _ => True) t := by
  refine Discipline.keeps_ask_bind.mpr ⟨trivial, fun wait => ?_⟩
  split
  · trivial
  refine (custody_idle idle_configured).bind fun configured t _ => ?_
  split
  · trivial
  split
  · trivial
  rename_i hvalid
  refine custody_verify.bind fun ok t hpassed => ?_
  cases ok with
  | false => exact custody_idle idle_failed
  | true =>
    refine Discipline.keeps_ask_bind.mpr ⟨trivial, fun _ => ?_⟩
    refine Discipline.keeps_ask_bind.mpr ⟨trivial, fun answer => ?_⟩
    refine Discipline.keeps_bind.mpr (custody_orThrow fun hash hsome => ?_)
    subst hsome
    refine Discipline.keeps_ask_bind.mpr ⟨?_, fun stored => ?_⟩
    · refine ⟨rfl, hpath, args, hproposes, by simpa using hvalid, (hpassed rfl).mono ?_, mem_concat⟩
      exact fun e he => List.mem_append_left _ (List.mem_append_left _ he)
    · exact Discipline.keeps_bind.mpr (custody_orThrow fun _ _ => trivial)

/-! ## Every request -/

theorem custody_bodyHandler {Args : Type} {read : Json → Except Json.Error (Checked Args)}
    {act : Args → Handler Response}
    (h : ∀ body args, cfg.parse req.body = some body → read body = .ok (.accepted args) →
      (custody cfg req).Keeps (act args) (fun _ _ => True) t) :
    (custody cfg req).Keeps (bodyHandler cfg.parse read act req) (fun _ _ => True) t := by
  unfold bodyHandler
  cases hparse : cfg.parse req.body with
  | none => trivial
  | some body =>
    refine Discipline.keeps_bind.mpr (Discipline.keeps_lift.mpr fun checked hread => ?_)
    cases checked with
    | refused message => trivial
    | accepted args =>
      refine h body args hparse ?_
      cases hx : read body with
      | error e => rw [hx] at hread; cases hread
      | ok a => rw [hx] at hread; cases hread; rfl

theorem custody_guarded {route : Route} (h : lookup (protectedRoutes cfg) req = some route) :
    (custody cfg req).Keeps (route.handler req req.params) (fun _ _ => True) t := by
  obtain ⟨hmem, -, hpath⟩ := lookup_mem h
  rcases List.mem_cons.mp hmem with rfl | hmem
  · exact custody_bodyHandler fun body args hbody hread => custody_changePassword hpath ⟨body, hbody, hread⟩
  · obtain ⟨p, hp⟩ := guarded_outside route hmem req req.params
    rw [hp]
    exact custody_idle idle_outside

theorem custody_open {route : Route} (h : lookup (publicRoutes cfg) req = some route) :
    (custody cfg req).Keeps (route.handler req req.params) (fun _ _ => True) t := by
  obtain ⟨hmem, -, -⟩ := lookup_mem h
  simp only [publicRoutes, List.mem_cons, List.not_mem_nil, or_false] at hmem
  rcases hmem with rfl | rfl | rfl | rfl | rfl
  · refine custody_bodyHandler fun body credential hbody hread => ?_
    cases credential with
    | otp otp => exact custody_otpLogin ⟨body, hbody, hread⟩
    | password password => exact custody_passwordLogin ⟨body, hbody, hread⟩
  · exact custody_idle (.bind idle_hasValidSession fun _ => .pure)
  · show (custody cfg req).Keeps (handleLogout req) _ _
    unfold handleLogout
    split
    · trivial
    · exact Discipline.keeps_ask_bind.mpr ⟨trivial, fun _ => trivial⟩
  · exact custody_idle idle_outside
  · refine custody_idle (.bind idle_outside fun mode => .bind .lift fun name => ?_)
    split
    · exact .pure
    · exact .bind idle_hasValidSession fun _ => .pure

theorem idle_admission : Uses Idle (admission cfg req) := by
  unfold admission
  split
  · exact .pure
  refine .bind ?_ fun bypass => ?_
  · unfold apBypass
    split
    · exact idle_outside
    · exact .pure
  · split
    · exact .pure
    · exact .bind idle_hasValidSession fun _ => .pure

theorem custody_handleRequest : (custody cfg req).Keeps (handleRequest cfg req) (fun _ _ => True) [] := by
  refine Discipline.keeps_bind_of_runs (custody_idle idle_admission) fun t adm hr _ => ?_
  have hgate := keeps_admission.runs hr
  cases adm with
  | open_ route => exact custody_open hgate.2
  | guarded route => exact custody_guarded hgate.1
  | denied => trivial
  | notFound => trivial

/-- Whoever stores a hash is behind the login. -/
theorem behindLogin_of_stores {key hash : String} (h : Calls (handleRequest cfg req) t (.setSetting key hash)) :
    Replaces cfg req t key hash ∧ ⟨.isValid (extractSessionId req), true⟩ ∈ t := by
  have hreplaces : Replaces cfg req t key hash := by
    have hpermits := custody_handleRequest.calls h
    rwa [custody, Discipline.mode_tracing] at hpermits
  refine ⟨hreplaces, ?_⟩
  obtain ⟨-, hpath, -⟩ := hreplaces
  rcases calls_bind.mp h with h | ⟨adm, t₁, t₂, rfl, hr, h⟩
  · exact (idle_admission _ _ h).elim
  have hgate := keeps_admission.runs hr
  cases adm with
  | open_ route =>
    obtain ⟨hmem, -, hroute⟩ := lookup_mem hgate.2
    rw [hpath] at hroute
    simp [publicRoutes, Route.ofBody, Route.plain] at hmem
    rcases hmem with rfl | rfl | rfl | rfl | rfl <;> simp at hroute
  | guarded route =>
    rcases behindLogin_of_guarded hr with ⟨-, hmem⟩ | ⟨hreset, -⟩
    · exact List.mem_append_left t₂ hmem
    · exact absurd (hpath.symm.trans hreset) (by decide)
  | denied => exact absurd h calls_pure
  | notFound => exact absurd h calls_pure

/-! ## Over runs -/

/-- The calls of one connection. -/
def callsOf (i : Nat) (log : List Entry) : List Event :=
  (log.filter (·.connection = i)).map (·.event)

variable {s s' : State} {i : Nat} {log log' : List Entry} {row₀ : Option String}

theorem callsOf_append : callsOf i (log ++ log') = callsOf i log ++ callsOf i log' := by
  simp [callsOf]

theorem callsOf_cons_self {time : Nat} {e : Event} :
    callsOf i (⟨time, i, e⟩ :: log) = e :: callsOf i log := by
  simp [callsOf]

theorem callsOf_singleton_of_ne {x : Entry} (h : x.connection ≠ i) : callsOf i [x] = [] := by
  simp [callsOf, h]

theorem exists_of_mem_callsOf {e : Event} (h : e ∈ callsOf i log) :
    ∃ log₁ time log₂, log = log₁ ++ ⟨time, i, e⟩ :: log₂ := by
  obtain ⟨⟨time, j, e'⟩, hmem, rfl⟩ := List.mem_map.mp h
  obtain ⟨hlogged, hj⟩ := List.mem_filter.mp hmem
  obtain rfl : j = i := of_decide_eq_true hj
  obtain ⟨log₁, log₂, hlog⟩ := List.append_of_mem hlogged
  exact ⟨log₁, time, log₂, hlog⟩

/-- The log is the histories of the connections, put together. -/
structure Recounted (s : State) : Prop where
  history : ∀ i c, s.connections[i]? = some c → c.history = callsOf i s.log
  known : ∀ x ∈ s.log, x.connection < s.connections.length

theorem recounted_inductive : (machine cfg).Inductive (fun _ _ => True) Recounted where
  init s h := by
    obtain ⟨hconns, hlog, -⟩ := h
    refine ⟨fun i c hc => ?_, fun x hx => ?_⟩
    · rw [hconns] at hc
      cases hc
    · rw [hlog] at hx
      cases hx
  step s a s' h _ hs := by
    cases step_effect hs with
    | request req heq =>
      subst heq
      refine ⟨fun i c hc => ?_, fun x hx => ?_⟩
      · rcases Places.getElem?_concat_cases hc with ⟨-, hc⟩ | ⟨rfl, rfl⟩
        · exact h.history i c hc
        · have hnone : s.log.filter (·.connection = s.connections.length) = [] := by
            refine List.filter_eq_nil_iff.mpr fun x hx heq => ?_
            exact absurd (of_decide_eq_true heq) (Nat.ne_of_lt (h.known x hx))
          simp [callsOf, hnone]
      · exact Nat.lt_of_lt_of_le (h.known x hx) (by simp)
    | @answer j e hans =>
      obtain ⟨c₀, rest, hc₀, -, hconns⟩ := hans.connection
      refine ⟨fun i c hc => ?_, fun x hx => ?_⟩
      · rw [hconns] at hc
        rw [hans.log, callsOf_append]
        rcases Places.getElem?_set_cases hc with ⟨rfl, rfl⟩ | ⟨hne, hc⟩
        · rw [callsOf_cons_self, ← h.history i c₀ hc₀]
          rfl
        · rw [callsOf_singleton_of_ne (Ne.symm hne), List.append_nil]
          exact h.history i c hc
      · rw [hans.log] at hx
        rw [hconns, List.length_set]
        rcases List.mem_append.mp hx with hx | hx
        · exact h.known x hx
        · obtain rfl := List.mem_singleton.mp hx
          exact (List.getElem?_eq_some_iff.mp hc₀).1
    | tick heq => subst heq; exact ⟨h.history, h.known⟩
    | publish heq => subst heq; exact ⟨h.history, h.known⟩

/-- Every answer so far was the truth. -/
def AllVouched (cfg : Config) (crypto : PasswordHash.Crypto) (row₀ : Option String) (log : List Entry) : Prop :=
  ∀ log₁ x log₂, log = log₁ ++ x :: log₂ → Vouched cfg crypto (storedRow row₀ log₁) x.event

theorem AllVouched.concat {x : Entry} (h : AllVouched cfg crypto row₀ log)
    (hx : Vouched cfg crypto (storedRow row₀ log) x.event) : AllVouched cfg crypto row₀ (log ++ [x]) := by
  intro log₁ y log₂ heq
  rcases List.eq_nil_or_concat log₂ with rfl | ⟨log₂, z, rfl⟩
  · obtain ⟨rfl, hxy⟩ := List.append_inj' heq rfl
    cases hxy
    exact hx
  · rw [List.concat_eq_append, ← List.cons_append, ← List.append_assoc] at heq
    obtain ⟨rfl, -⟩ := List.append_inj' heq rfl
    exact h log₁ y log₂ rfl

theorem vouched_inductive :
    (machine cfg).Inductive (Genuine cfg crypto row₀) fun s => AllVouched cfg crypto row₀ s.log where
  init s h := by
    intro log₁ x log₂ heq
    rw [h.2.1] at heq
    exact absurd heq (by simp)
  step s a s' h hG hs := by
    cases a with
    | answer i e =>
      have hstep : ShareFrame.Dashboard.step cfg s (.answer i e) = some s' := hs
      have hans := answered_of_step hstep
      rw [hans.log]
      exact h.concat hG
    | _ => cases hs; exact h

/-- At some moment of the connection's calls, the row accepted the password. -/
def InForce (cfg : Config) (crypto : PasswordHash.Crypto) (row₀ : Option String) (log : List Entry)
    (i : Nat) (password : String) : Prop :=
  ∃ log₁ x log₂, log = log₁ ++ x :: log₂ ∧ x.connection = i ∧
    accepts cfg crypto (storedRow row₀ log₁) password = true

theorem accepts_stored {stored : String} (hwell : isWellFormed cfg stored = true)
    (h : PasswordHash.verify cfg.decode crypto password stored = some true) :
    accepts cfg crypto (some stored) password = true := by
  simp [accepts, Option.filter, hwell, h]

theorem accepts_initial (hwell : row.any (isWellFormed cfg) = false) :
    accepts cfg crypto row password =
      (decide (cfg.initialPassword ≠ "") && decide (password = cfg.initialPassword)) := by
  have hnone : row.filter (isWellFormed cfg) = none := by
    cases row with
    | none => rfl
    | some stored =>
      have hbad : isWellFormed cfg stored = false := hwell
      simp [Option.filter, hbad]
  simp only [accepts, hnone]

/-- A comparison with true answers was one with the row in force. -/
theorem Passed.inForce (h : Passed cfg password (callsOf i log)) (hv : AllVouched cfg crypto row₀ log) :
    InForce cfg crypto row₀ log i password := by
  cases h with
  | @stored stored hread hwell hverify =>
    obtain ⟨log₁, time, log₂, hlog⟩ := exists_of_mem_callsOf hread
    obtain ⟨log₃, time', log₄, hlog'⟩ := exists_of_mem_callsOf hverify
    have hrow : some stored = storedRow row₀ log₁ := hv log₁ _ log₂ hlog rfl
    refine ⟨log₁, _, log₂, hlog, rfl, ?_⟩
    rw [← hrow]
    exact accepts_stored hwell (hv log₃ _ log₄ hlog')
  | @initial row hread hwell hne hequal =>
    obtain ⟨log₁, time, log₂, hlog⟩ := exists_of_mem_callsOf hread
    obtain ⟨log₃, time', log₄, hlog'⟩ := exists_of_mem_callsOf hequal
    have hrow : row = storedRow row₀ log₁ := hv log₁ _ log₂ hlog rfl
    have hsame : true = decide (password = cfg.initialPassword) := hv log₃ _ log₄ hlog'
    refine ⟨log₁, _, log₂, hlog, rfl, ?_⟩
    rw [← hrow, accepts_initial hwell, ← hsame, Bool.and_true]
    exact decide_eq_true hne

theorem AllVouched.left (h : AllVouched cfg crypto row₀ (log ++ log')) : AllVouched cfg crypto row₀ log :=
  fun log₁ x log₂ heq => h log₁ x (log₂ ++ log') (by rw [heq]; simp)

/-- A connection's next call, with those before it. -/
theorem calls_of_log {c : Connection} {e : Event} {time : Nat} (hr : (machine cfg).Reachable s)
    (hlog : s.log = log ++ ⟨time, i, e⟩ :: log') (hc : s.connections[i]? = some c) :
    Calls (handleRequest cfg c.request) (callsOf i log) e.1 := by
  have hsteps := sound_of_reachable hr c (List.mem_of_getElem? hc)
  rw [(recounted_inductive.of_reachable hr).history i c hc, hlog, callsOf_append, callsOf_cons_self] at hsteps
  exact hsteps.calls

/-- Where the answers are the truth, a password that gets a session was in force at some moment of
the request. So was the current password of a change; only the route of that one stores a hash,
behind a valid session and of the new password. -/
theorem password_custody {c : Connection} {e : Event} {time : Nat}
    (hr : (machine cfg).ReachableBy (Genuine cfg crypto row₀) s)
    (hlog : s.log = log ++ ⟨time, i, e⟩ :: log') (hc : s.connections[i]? = some c) :
    (∀ id password, e = ⟨.createSession, id⟩ → Offers cfg c.request (.password password) →
      InForce cfg crypto row₀ log i password) ∧
    ∀ hash, storedBy e = some hash → c.request.path = "/api/auth/change-password" ∧
      ∃ args, ∃ salt : List UInt8, Proposes cfg c.request args ∧
      Validation.isValidPassword args.new = true ∧
      ⟨.isValid (extractSessionId c.request), true⟩ ∈ callsOf i log ∧
      InForce cfg crypto row₀ log i args.current ∧
      salt.length = PasswordHash.kSaltLen ∧ PasswordHash.hash crypto salt args.new = some hash := by
  have hcalls := calls_of_log hr.reachable hlog hc
  have hall : AllVouched cfg crypto row₀ log := by
    have hwhole : AllVouched cfg crypto row₀ s.log := vouched_inductive.of_reachable hr
    rw [hlog] at hwhole
    exact hwhole.left
  constructor
  · rintro id password rfl hoffers
    have hpermits := custody_handleRequest.calls hcalls
    rw [custody, Discipline.mode_tracing] at hpermits
    exact (hpermits password hoffers).inForce hall
  · intro hash hstored
    obtain ⟨op, a⟩ := e
    cases op with
    | setSetting key value =>
      obtain ⟨⟨rfl, hpath, args, hproposes, hvalid, hpassed, hhash⟩, hsession⟩ := behindLogin_of_stores hcalls
      cases a with
      | none => cases hstored
      | some =>
        obtain rfl : value = hash := by simpa [storedBy] using hstored
        obtain ⟨log₁, time', log₂, heq⟩ := exists_of_mem_callsOf hhash
        obtain ⟨salt, hsalt, hsome⟩ := hall log₁ _ log₂ heq
        exact ⟨hpath, args, salt, hproposes, hvalid, hsession, hpassed.inForce hall, hsalt, hsome⟩
    | _ => cases hstored

/-! ## The outcome of an attempt -/

/-- The answers of an attempt that is not locked out, where nothing fails and the row stays. -/
def Undisturbed (cfg : Config) (crypto : PasswordHash.Crypto) (row : Option String) : Event → Prop
  | ⟨.getSetting key, found⟩ => key = kPasswordHashKey → found = some row
  | ⟨.verify password stored, ok⟩ =>
    ok = PasswordHash.verify cfg.decode crypto password stored ∧ ok ≠ none
  | ⟨.retryAfterSecs, wait⟩ => (wait : Nat) = 0
  | ⟨.constantTimeEquals a b, equal⟩ => equal = decide (a = b)
  | _ => True

theorem undisturbed_storedHash :
    Returns (Undisturbed cfg crypto row) storedHash fun stored => stored = row := by
  refine returns_ask_bind.mpr fun found hfound => ?_
  obtain rfl : found = some row := hfound rfl
  rfl

/-- The comparison finds what is in force. -/
theorem undisturbed_verify : Returns (Undisturbed cfg crypto row) (verifyDashboardPassword cfg password)
    fun ok => ok = accepts cfg crypto row password := by
  have hinitial (hwell : row.any (isWellFormed cfg) = false) :
      Returns (Undisturbed cfg crypto row) (verifyInitial cfg password)
        fun ok => ok = accepts cfg crypto row password := by
    rw [accepts_initial hwell]
    unfold verifyInitial
    split
    · rename_i hempty
      simp [hempty]
    · rename_i hne
      refine returns_ask.mpr fun ok hok => ?_
      obtain rfl : ok = decide (password = cfg.initialPassword) := hok
      simp [hne]
  refine undisturbed_storedHash.bind fun stored hstored => ?_
  subst hstored
  cases stored with
  | none => exact hinitial rfl
  | some stored =>
    dsimp only
    split
    · rename_i hwell
      refine returns_ask_bind.mpr fun answer ⟨hanswer, hsome⟩ => ?_
      cases answer with
      | none => exact absurd rfl hsome
      | some ok =>
        show ok = accepts cfg crypto (some stored) password
        simp [accepts, Option.filter, hwell, ← hanswer]
    · rename_i hwell
      exact hinitial (by simpa using hwell)

/-- The response with a session. -/
def welcome (sessionId : String) : Response where
  status := 200
  statusText := "OK"
  setCookie := some ("session=" ++ sessionId ++ "; HttpOnly; SameSite=Lax; Path=/; Max-Age=604800")
  body := envelope 200 "Login erfolgreich" .null

/-- What a login with a password is answered. -/
def Settled (cfg : Config) (crypto : PasswordHash.Crypto) (row : Option String) (password : String)
    (resp : Response) : Prop :=
  if accepts cfg crypto row password then ∃ sessionId, resp = welcome sessionId
  else resp = notConfigured ∨ resp = unauthorized "Passwort ungültig"

theorem configured_of_accepts (h : accepts cfg crypto row password = true) :
    (row.any (isWellFormed cfg) || decide (cfg.initialPassword ≠ "")) = true := by
  cases hwell : row.any (isWellFormed cfg) with
  | true => rfl
  | false =>
    rw [accepts_initial hwell, Bool.and_eq_true] at h
    rw [h.1]
    rfl

theorem undisturbed_passwordLogin : Returns (Undisturbed cfg crypto row) (handlePasswordLogin cfg password)
    (Settled cfg crypto row password) := by
  refine returns_ask_bind.mpr fun wait hwait => ?_
  obtain rfl : wait = 0 := hwait
  rw [if_neg (Nat.lt_irrefl 0)]
  refine (undisturbed_storedHash.bind (Q := fun configured =>
    configured = (row.any (isWellFormed cfg) || decide (cfg.initialPassword ≠ ""))) fun stored hstored => ?_).bind
    fun configured hconfigured => ?_
  · rw [hstored]
    rfl
  split
  · rename_i hno
    have hrefused : accepts cfg crypto row password = false := by
      refine Bool.eq_false_iff.mpr fun haccepts => ?_
      rw [hconfigured, configured_of_accepts haccepts] at hno
      cases hno
    simp [Settled, hrefused]
  refine undisturbed_verify.bind fun ok hok => ?_
  cases ok with
  | false =>
    refine returns_ask_bind.mpr fun _ _ => returns_ask_bind.mpr fun _ _ => ?_
    simp [Settled, ← hok]
  | true =>
    refine returns_ask_bind.mpr fun _ _ => returns_ask_bind.mpr fun id _ => ?_
    show Settled cfg crypto row password (welcome id)
    rw [Settled, ← hok, if_pos rfl]
    exact ⟨id, rfl⟩

theorem handleRequest_login (h : IsLogin req) : handleRequest cfg req = handleLogin cfg req := by
  have hlookup : lookup (publicRoutes cfg) req =
      some (.ofBody "POST" "/api/auth/login" (handleLogin cfg)) := by
    simp [lookup, publicRoutes, Route.ofBody, h.1, h.2]
  simp only [handleRequest, admission, hlookup]
  rfl

theorem handleLogin_password (h : Offers cfg req (.password password)) :
    handleLogin cfg req = handlePasswordLogin cfg password := by
  obtain ⟨body, hbody, hread⟩ := h
  simp only [handleLogin, bodyHandler, hbody, answerBody, hread]
  rfl

/-- The database or the crypto library fails, or the throttle reports a lock. -/
def hinders : Event → Bool
  | ⟨.getSetting _, none⟩ | ⟨.verify _ _, none⟩ => true
  | ⟨.retryAfterSecs, wait⟩ => (wait : Nat) ≠ 0
  | _ => false

theorem undisturbed_of_vouched {e : Event} (hv : Vouched cfg crypto row e) (hno : hinders e = false) :
    Undisturbed cfg crypto row e := by
  obtain ⟨op, a⟩ := e
  cases op with
  | getSetting key =>
    cases a with
    | none => cases hno
    | some found => exact fun hkey => congrArg some (hv hkey)
  | verify password stored =>
    cases a with
    | none => cases hno
    | some ok => exact ⟨hv.symm, nofun⟩
  | retryAfterSecs =>
    have hzero : decide ((a : Nat) ≠ 0) = false := hno
    have hwait : ¬ (a : Nat) ≠ 0 := of_decide_eq_false hzero
    exact not_not.mp hwait
  | constantTimeEquals a b => exact hv
  | _ => trivial

/-- Where the row stays as it is during a login with a password, and nothing fails or is locked, the
login gets a session if and only if its password is in force. The one that was stored last is. -/
theorem password_decides {c : Connection} {r : Except Error Response}
    (hr : (machine cfg).ReachableBy (Genuine cfg crypto row₀) s) (hc : s.connections[i]? = some c)
    (hlogin : IsLogin c.request) (hoffers : Offers cfg c.request (.password password))
    (hrow : ∀ k x, s.log[k]? = some x → x.connection = i → storedRow row₀ (s.log.take k) = row)
    (hno : ∀ x ∈ s.log, x.connection = i → hinders x.event = false) (hdone : c.rest.outcome = some r) :
    (∃ resp, r = .ok resp ∧ Settled cfg crypto row password resp) ∧
      ∀ salt hash, crypto.Works cfg.decode salt password → salt.length = PasswordHash.kSaltLen →
        row = some hash → PasswordHash.hash crypto salt password = some hash →
        ∃ sessionId, r = .ok (welcome sessionId) := by
  have hgood : ∀ e ∈ c.history, Undisturbed cfg crypto row e := by
    intro e he
    rw [(recounted_inductive.of_reachable hr.reachable).history i c hc] at he
    obtain ⟨log₁, time, log₂, hlog⟩ := exists_of_mem_callsOf he
    have hall : AllVouched cfg crypto row₀ s.log := vouched_inductive.of_reachable hr
    have hv := hall log₁ _ log₂ hlog
    have hkept := hrow log₁.length ⟨time, i, e⟩ (by rw [hlog]; simp) rfl
    rw [hlog, List.take_left] at hkept
    rw [hkept] at hv
    exact undisturbed_of_vouched hv (hno _ (hlog ▸ List.mem_append_right _ List.mem_cons_self) rfl)
  have hruns := runs_of_finished hr.reachable (List.mem_of_getElem? hc) (outcome_eq_some.mp hdone)
  rw [handleRequest_login hlogin, handleLogin_password hoffers] at hruns
  have hsettled := returns_iff.mp undisturbed_passwordLogin _ _ hruns hgood
  refine ⟨hsettled, fun salt hash hworks hsalt hstored hhash => ?_⟩
  obtain ⟨resp, rfl, hresp⟩ := hsettled
  have haccepts : accepts cfg crypto row password = true := by
    rw [hstored]
    exact accepts_stored (PasswordHash.isWellFormed_hash hworks hsalt hhash)
      (PasswordHash.verify_hash_self hworks hsalt hhash)
  rw [Settled, if_pos haccepts] at hresp
  obtain ⟨id, rfl⟩ := hresp
  exact ⟨id, rfl⟩

/-! ## A frame that changes hands -/

def handoverSalt : List UInt8 := [0, 1, 2, 3, 4, 5, 6, 7, 8, 9, 10, 11, 12, 13, 14, 15]

def handoverKey : List UInt8 := [234, 118, 114, 47, 163, 220, 9, 172, 81, 147, 88, 99, 181, 151, 207, 202,
  242, 72, 97, 59, 176, 109, 148, 6, 18, 150, 131, 219, 252, 223, 217, 80]

def handoverHash : String :=
  "pbkdf2-sha256$100000$AAECAwQFBgcICQoLDA0ODw==$6nZyL6PcCaxRk1hjtZfPyvJIYTuwbZQGEpaD2/zf2VA="

def changeText : String :=
  "\x7b\"current_password\":\"startwort\",\"new_password\":\"neues-passwort\"\x7d"

def newLoginText : String := "\x7b\"password\":\"neues-passwort\"\x7d"

/-- A frame with an initial password. -/
def handoverBoard : Config where
  parse text :=
    if text = changeText.toUTF8.toList then
      some (.obj [("current_password", .str "startwort"), ("new_password", .str "neues-passwort")])
    else if text = newLoginText.toUTF8.toList then some (.obj [("password", .str "neues-passwort")])
    else none
  decode text :=
    if text = "AAECAwQFBgcICQoLDA0ODw==" then some handoverSalt
    else if text = "6nZyL6PcCaxRk1hjtZfPyvJIYTuwbZQGEpaD2/zf2VA=" then some handoverKey
    else none
  initialPassword := "startwort"
  verifyOtpUrl := ""
  display := {}
  system := { frameId := "", version := "", appSha := "", diagnostics := ⟨"", ""⟩ }

/-- Base64 and PBKDF2 on the values of this frame. -/
def handoverCrypto : PasswordHash.Crypto where
  encode bytes :=
    if bytes = handoverSalt then "AAECAwQFBgcICQoLDA0ODw=="
    else if bytes = handoverKey then "6nZyL6PcCaxRk1hjtZfPyvJIYTuwbZQGEpaD2/zf2VA="
    else ""
  derive password salt iterations length :=
    if password = "neues-passwort" ∧ salt = handoverSalt ∧ iterations = 100000 ∧ length = 32 then
      some handoverKey
    else none

def handoverSession : String := String.ofList (List.replicate 64 '0')

def handoverRequests : List Request := [
  { method := "POST", uri := "/api/auth/change-password", cookie := some ("session=" ++ handoverSession),
    body := changeText.toUTF8.toList },
  { method := "POST", uri := "/api/auth/login", body := newLoginText.toUTF8.toList }]

/-- The owner has a session. -/
def handoverState : State where
  now := 0
  sessions_ id := if id = handoverSession then some 1 else none
  wifiMode := none

/-- The owner changes the password, and logs in with the new one, up to the session. -/
def handover : List Act :=
  handoverRequests.map .request ++ [
    .answer 0 ⟨.isValid handoverSession, true⟩,
    .answer 0 ⟨.retryAfterSecs, (0 : Nat)⟩,
    .answer 0 ⟨.getSetting kPasswordHashKey, some none⟩,
    .answer 0 ⟨.getSetting kPasswordHashKey, some none⟩,
    .answer 0 ⟨.constantTimeEquals "startwort" "startwort", true⟩,
    .answer 0 ⟨.recordSuccess, ()⟩,
    .answer 0 ⟨.hash "neues-passwort", some handoverHash⟩,
    .answer 0 ⟨.setSetting kPasswordHashKey handoverHash, some ()⟩,
    .answer 1 ⟨.retryAfterSecs, (0 : Nat)⟩,
    .answer 1 ⟨.getSetting kPasswordHashKey, some (some handoverHash)⟩,
    .answer 1 ⟨.getSetting kPasswordHashKey, some (some handoverHash)⟩,
    .answer 1 ⟨.verify "neues-passwort" handoverHash, some true⟩,
    .answer 1 ⟨.recordSuccess, ()⟩]

def letIn : Act := .answer 1 ⟨.createSession, handoverSession⟩

/-- The truth of an answer, with the salt at hand. -/
def vouches (row : Option String) : Event → Bool
  | ⟨.getSetting key, some found⟩ => key ≠ kPasswordHashKey || found = row
  | ⟨.verify password stored, some ok⟩ =>
    PasswordHash.verify handoverBoard.decode handoverCrypto password stored = some ok
  | ⟨.hash password, some hash⟩ => PasswordHash.hash handoverCrypto handoverSalt password = some hash
  | ⟨.constantTimeEquals a b, equal⟩ => equal = decide (a = b)
  | _ => true

theorem vouched_of_vouches {e : Event} (h : vouches row e = true) :
    Vouched handoverBoard handoverCrypto row e := by
  obtain ⟨op, a⟩ := e
  cases op with
  | getSetting key =>
    cases a with
    | none => trivial
    | some found =>
      intro hkey
      simpa [vouches, hkey] using h
  | verify password stored =>
    cases a with
    | none => trivial
    | some ok =>
      have hsame : PasswordHash.verify handoverBoard.decode handoverCrypto password stored = some ok :=
        of_decide_eq_true h
      exact hsame
  | hash password =>
    cases a with
    | none => trivial
    | some hash => exact ⟨handoverSalt, rfl, of_decide_eq_true h⟩
  | constantTimeEquals x y =>
    have hsame : a = decide (x = y) := of_decide_eq_true h
    exact hsame
  | _ => trivial

def Vouching (s : State) : Act → Prop
  | .answer _ e => vouches (storedRow none s.log) e = true
  | _ => True

instance (s : State) : (a : Act) → Decidable (Vouching s a)
  | .answer _ e => instDecidableEqBool (vouches (storedRow none s.log) e) true
  | .request _ | .tick _ | .publish _ => instDecidableTrue

theorem reachable_handover {as : List Act} (hmeets : (machine handoverBoard).Meets Vouching handoverState as)
    (hrun : (machine handoverBoard).run handoverState as = some s) :
    (machine handoverBoard).ReachableBy (Genuine handoverBoard handoverCrypto none) s := by
  refine ReachableBy.mono (fun s a h => ?_) (.run as (.init ⟨rfl, rfl, rfl⟩) hmeets hrun)
  cases a with
  | answer i e => exact vouched_of_vouches h
  | _ => trivial

theorem works_handover : handoverCrypto.Works handoverBoard.decode handoverSalt "neues-passwort" where
  decode_salt := by decide +kernel
  plain := by decide +kernel
  decode_key digest h := by
    obtain rfl : handoverKey = digest := Option.some.inj h
    decide +kernel

/-- What is checked of the state behind the change and the login. -/
def handedOver (s : State) : Bool :=
  (s.connections[1]?.any fun c => c.request = handoverRequests[1] && c.rest.outcome.isSome) &&
    ((List.range s.log.length).all fun k => s.log[k]?.all fun x =>
      x.connection ≠ 1 || storedRow none (s.log.take k) = some handoverHash) &&
    s.log.all fun x => x.connection ≠ 1 || !hinders x.event

theorem offers_handover : Offers handoverBoard handoverRequests[1] (.password "neues-passwort") :=
  ⟨.obj [("password", .str "neues-passwort")], by decide +kernel, rfl⟩

/-- What is behind the session. -/
theorem exists_letIn : ∃ s₁ s, (machine handoverBoard).ReachableBy (Genuine handoverBoard handoverCrypto none) s ∧
    step handoverBoard s₁ letIn = some s ∧ handedOver s = true := by
  obtain ⟨s, hrun, hs⟩ := (machine handoverBoard).exists_of_run handoverState (handover ++ [letIn])
    handedOver (by decide +kernel)
  have hmeets : (machine handoverBoard).Meets Vouching handoverState (handover ++ [letIn]) := by decide +kernel
  have hr := reachable_handover hmeets hrun
  rw [run_append, Option.bind_eq_some_iff] at hrun
  obtain ⟨s₁, -, hlast⟩ := hrun
  obtain ⟨s', hstep, hsame⟩ := Option.bind_eq_some_iff.mp hlast
  cases hsame
  exact ⟨s₁, s, hr, hstep, hs⟩

theorem exists_of_handedOver (h : handedOver s = true) :
    ∃ c r, s.connections[1]? = some c ∧ c.request = handoverRequests[1] ∧ c.rest.outcome = some r := by
  rw [handedOver, Bool.and_eq_true, Bool.and_eq_true] at h
  obtain ⟨c, hc, hrequest⟩ := (Option.any_eq_true _ _).mp h.1.1
  rw [Bool.and_eq_true] at hrequest
  obtain ⟨r, hr⟩ := Option.isSome_iff_exists.mp hrequest.2
  exact ⟨c, r, hc, of_decide_eq_true hrequest.1, hr⟩

theorem password_custody_handover : ∃ s log time, (machine handoverBoard).Reachable s ∧
    s.log = log ++ [⟨time, 1, ⟨.createSession, handoverSession⟩⟩] ∧
    InForce handoverBoard handoverCrypto none log 1 "neues-passwort" := by
  obtain ⟨s₁, s, hr, hstep, hs⟩ := exists_letIn
  have hlog := (answered_of_step hstep).log
  obtain ⟨c, r, hc, hrequest, -⟩ := exists_of_handedOver hs
  exact ⟨s, s₁.log, s₁.now, hr.reachable, hlog,
    (password_custody hr hlog hc).1 _ _ rfl (hrequest ▸ offers_handover)⟩

theorem password_decides_handover : ∃ (s : State) (c : Connection) (sessionId : String),
    s.connections[1]? = some c ∧ c.rest.outcome = some (.ok (welcome sessionId)) := by
  obtain ⟨s₁, s, hr, -, hs⟩ := exists_letIn
  obtain ⟨c, r, hc, hrequest, hdone⟩ := exists_of_handedOver hs
  rw [handedOver, Bool.and_eq_true, Bool.and_eq_true, List.all_eq_true, List.all_eq_true] at hs
  have hrow : ∀ k x, s.log[k]? = some x → x.connection = 1 →
      storedRow none (s.log.take k) = some handoverHash := by
    intro k x hx hconnection
    have hk := hs.1.2 k (List.mem_range.mpr (List.getElem?_eq_some_iff.mp hx).1)
    simpa [hx, hconnection] using hk
  have hno : ∀ x ∈ s.log, x.connection = 1 → hinders x.event = false := by
    intro x hx hconnection
    simpa [hconnection] using hs.2 x hx
  have hlogin : IsLogin handoverRequests[1] := ⟨rfl, by decide +kernel⟩
  rw [← hrequest] at hlogin
  obtain ⟨-, hopens⟩ := password_decides hr hc hlogin (hrequest ▸ offers_handover) hrow hno hdone
  obtain ⟨id, rfl⟩ := hopens handoverSalt handoverHash works_handover rfl rfl (by decide +kernel)
  exact ⟨s, c, id, hc, hdone⟩

end ShareFrame.Dashboard
