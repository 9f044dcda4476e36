import ShareFrame.Dashboard.DashboardServer

/-!
# The order of a login

A request asks the throttle before it compares a password, compares one at most,
and then records the outcome before anything else. A session is created behind an
OTP that the server confirmed, or behind a recorded success. `entrance` says this
as a discipline; every request keeps to it, whatever is answered
(`keeps_handleRequest`).
-/

namespace ShareFrame.Dashboard

open HTTPClient Interaction Prog

variable {cfg : Config} {req : Request}

/-- How far a login has got. -/
inductive Phase where
  | idle
  /-- the server answered the OTP as valid -/
  | confirmed
  /-- the throttle reported no lock -/
  | passed
  | compared (ok : Bool)
  | recorded (ok : Bool)
  deriving DecidableEq, Repr

/-- The answer of the server to an OTP is a document with a true flag. -/
def Confirms (cfg : Config) (resp : HttpResponse) : Prop :=
  resp.ok = true ∧ (document cfg resp).bind (·.find "valid") = some (.bool true)

instance (cfg : Config) (resp : HttpResponse) : Decidable (Confirms cfg resp) := by
  unfold Confirms; infer_instance

def Phase.next (cfg : Config) : Phase → Event → Phase
  | .idle, ⟨.verifyOtp _ _ _, resp⟩ => if Confirms cfg resp then .confirmed else .idle
  | .idle, ⟨.retryAfterSecs, wait⟩ => if (wait : Nat) = 0 then .passed else .idle
  | .passed, ⟨.verify _ _, some ok⟩ => .compared ok
  | .passed, ⟨.constantTimeEquals _ _, ok⟩ => .compared ok
  | .passed, ⟨.recordFailure, _⟩ => .recorded false
  | .compared ok, ⟨.recordFailure, _⟩ => .recorded ok
  | .compared ok, ⟨.recordSuccess, _⟩ => .recorded ok
  | s, _ => s

/-- The events that lead into another phase. -/
inductive Phase.Moves (cfg : Config) : Phase → Event → Phase → Prop where
  | confirm {url : String} {payload : Json} {token : Option String} {resp : HttpResponse} :
    Confirms cfg resp → Moves cfg .idle ⟨.verifyOtp url payload token, resp⟩ .confirmed
  | pass : Moves cfg .idle ⟨.retryAfterSecs, 0⟩ .passed
  | verify {password stored : String} {ok : Bool} :
    Moves cfg .passed ⟨.verify password stored, some ok⟩ (.compared ok)
  | equals {a b : String} {ok : Bool} :
    Moves cfg .passed ⟨.constantTimeEquals a b, ok⟩ (.compared ok)
  | fail : Moves cfg .passed ⟨.recordFailure, ()⟩ (.recorded false)
  | failure {ok : Bool} : Moves cfg (.compared ok) ⟨.recordFailure, ()⟩ (.recorded ok)
  | success {ok : Bool} : Moves cfg (.compared ok) ⟨.recordSuccess, ()⟩ (.recorded ok)

theorem Phase.moves_of_next {s s' : Phase} {e : Event} (h : s.next cfg e = s') (hs : s ≠ s') :
    Moves cfg s e s' := by
  subst h
  unfold Phase.next at hs ⊢
  split at hs
  · split at hs
    · rename_i hconfirms
      rw [if_pos hconfirms]
      exact .confirm hconfirms
    · exact absurd rfl hs
  · split at hs
    · rename_i wait hwait
      cases hwait
      exact .pass
    · exact absurd rfl hs
  · exact .verify
  · exact .equals
  · exact .fail
  · exact .failure
  · exact .success
  · exact absurd rfl hs

theorem Phase.idle_ne (ok : Bool) : Phase.idle ≠ .compared ok := nofun

theorem Phase.next_verifyOtp {url : String} {payload : Json} {token : Option String}
    {resp : HttpResponse} : Phase.idle.next cfg ⟨.verifyOtp url payload token, resp⟩ =
      if Confirms cfg resp then .confirmed else .idle := rfl

theorem Phase.next_retryAfterSecs {wait : Nat} :
    Phase.idle.next cfg ⟨.retryAfterSecs, wait⟩ = if wait = 0 then .passed else .idle := rfl

/-- The phase behind these calls. -/
def phase (cfg : Config) (t : List Event) : Phase := t.foldl (Phase.next cfg) .idle

def IsLogin (req : Request) : Prop := req.method = "POST" ∧ req.path = "/api/auth/login"

/-- The body of the request is a login with this credential. -/
def Offers (cfg : Config) (req : Request) (credential : Credential) : Prop :=
  ∃ body, cfg.parse req.body = some body ∧ readLogin body = .ok (.accepted credential)

def entrance (cfg : Config) (req : Request) : Discipline Ans Phase where
  permits s
    | .retryAfterSecs => s = .idle
    | .verify password _ => s = .passed ∧ (IsLogin req → Offers cfg req (.password password))
    | .constantTimeEquals password initial =>
      s = .passed ∧ initial = cfg.initialPassword ∧
        (IsLogin req → Offers cfg req (.password password))
    -- without a password to compare with, the attempt fails as well
    | .recordFailure => s = .compared false ∨ s = .passed
    | .recordSuccess => s = .compared true
    | .createSession => IsLogin req ∧ (s = .confirmed ∨ s = .recorded true)
    | .verifyOtp _ payload _ =>
      s = .idle ∧ ∃ otp, payload = .obj [("otp", .str otp)] ∧ Offers cfg req (.otp otp)
    | _ => ∀ ok, s ≠ .compared ok
  next := Phase.next cfg

/-! ## The routes -/

/-- The calls to the rest of the frame have no part in it. -/
theorem keeps_outside {α : Type} {p : Service α} {s : Phase} (hs : ∀ ok, s ≠ .compared ok) :
    (entrance cfg req).Keeps (outside p) (fun _ s' => s' = s) s := by
  refine Discipline.keeps_of_uses uses_embed fun op hop => ?_
  obtain ⟨op', rfl⟩ := hop
  exact ⟨hs, fun a => by cases s <;> rfl⟩

theorem keeps_json {α : Type} {x : Except Json.Error α} {Q : α → Phase → Prop} {s : Phase}
    (h : ∀ a, x = .ok a → Q a s) : (entrance cfg req).Keeps (json x : Handler α) Q s := by
  cases x with
  | error e => trivial
  | ok a => exact h a rfl

/-- A handler with a body keeps the discipline if its action does, on what it read. -/
theorem keeps_bodyHandler {Args : Type} {read : Json → Except Json.Error (Checked Args)}
    {act : Args → Handler Response} {s : Phase}
    (h : ∀ body args, cfg.parse req.body = some body → read body = .ok (.accepted args) →
      (entrance cfg req).Keeps (act args) (fun _ _ => True) s) :
    (entrance cfg req).Keeps (bodyHandler cfg.parse read act req) (fun _ _ => True) s := by
  unfold bodyHandler
  cases hparse : cfg.parse req.body with
  | none => trivial
  | some body =>
    refine Discipline.keeps_bind.mpr (keeps_json fun checked hread => ?_)
    cases checked with
    | refused message => trivial
    | accepted args => exact h body args hparse hread

theorem keeps_storedHash {Q : Option String → Phase → Prop} {s : Phase} (hs : ∀ ok, s ≠ .compared ok)
    (h : ∀ stored, Q stored s) : (entrance cfg req).Keeps storedHash Q s := by
  refine Discipline.keeps_ask_bind.mpr ⟨hs, fun row => ?_⟩
  rw [show (entrance cfg req).next s ⟨.getSetting kPasswordHashKey, row⟩ = s by cases s <;> rfl]
  cases row with
  | none => trivial
  | some stored => exact h stored

/-- A comparison, or the answer no without one. -/
theorem keeps_verify {password : String} {Q : Bool → Phase → Prop}
    (hoffers : IsLogin req → Offers cfg req (.password password)) (hno : Q false .passed)
    (h : ∀ ok, Q ok (.compared ok)) :
    (entrance cfg req).Keeps (verifyDashboardPassword cfg password) Q .passed := by
  have hinitial : (entrance cfg req).Keeps (verifyInitial cfg password) Q .passed := by
    unfold verifyInitial
    split
    · exact hno
    · exact Discipline.keeps_ask.mpr ⟨⟨rfl, rfl, hoffers⟩, h⟩
  refine Discipline.keeps_bind.mpr (keeps_storedHash nofun fun stored => ?_)
  cases stored with
  | none => exact hinitial
  | some stored =>
    dsimp only
    split
    · refine Discipline.keeps_ask_bind.mpr ⟨⟨rfl, hoffers⟩, fun ok => ?_⟩
      cases ok with
      | none => trivial
      | some ok => exact h ok
    · exact hinitial

theorem keeps_failed {message : String} {s : Phase} (hs : s = .compared false ∨ s = .passed) :
    (entrance cfg req).Keeps (failed message) (fun _ _ => True) s := by
  refine Discipline.keeps_ask_bind.mpr ⟨hs, fun () => ?_⟩
  rw [show (entrance cfg req).next s ⟨.recordFailure, ()⟩ = .recorded false by
    rcases hs with rfl | rfl <;> rfl]
  exact Discipline.keeps_ask_bind.mpr ⟨nofun, fun _ => trivial⟩

theorem keeps_configured {Q : Bool → Phase → Prop} {s : Phase} (hs : ∀ ok, s ≠ .compared ok)
    (h : ∀ configured, Q configured s) :
    (entrance cfg req).Keeps (isPasswordLoginConfigured cfg) Q s :=
  Discipline.keeps_bind.mpr (keeps_storedHash hs fun _ => h _)

/-- The check of the throttle. -/
theorem keeps_retryAfter {f : Nat → Handler Response}
    (hlocked : ∀ wait, wait > 0 → (entrance cfg req).Keeps (f wait) (fun _ _ => True) .idle)
    (hpassed : (entrance cfg req).Keeps (f 0) (fun _ _ => True) .passed) :
    (entrance cfg req).Keeps (ask .retryAfterSecs >>= f) (fun _ _ => True) .idle := by
  refine Discipline.keeps_ask_bind.mpr ⟨rfl, fun wait => ?_⟩
  cases wait with
  | zero => exact hpassed
  | succ wait => exact hlocked _ (Nat.succ_pos wait)

theorem keeps_session {s : Phase} (hlogin : IsLogin req) (hs : s = .confirmed ∨ s = .recorded true) :
    (entrance cfg req).Keeps sessionLoginResponse (fun _ _ => True) s :=
  Discipline.keeps_ask_bind.mpr ⟨⟨hlogin, hs⟩, fun _ => trivial⟩

theorem keeps_passwordLogin {password : String} (hlogin : IsLogin req)
    (hoffers : Offers cfg req (.password password)) :
    (entrance cfg req).Keeps (handlePasswordLogin cfg password) (fun _ _ => True) .idle := by
  refine keeps_retryAfter (fun wait hwait => by rw [if_pos hwait]; trivial) ?_
  rw [if_neg (Nat.lt_irrefl 0)]
  refine Discipline.keeps_bind.mpr (keeps_configured nofun fun configured => ?_)
  split
  · trivial
  refine Discipline.keeps_bind.mpr (keeps_verify (fun _ => hoffers) (keeps_failed (.inr rfl))
    fun ok => ?_)
  cases ok with
  | false => exact keeps_failed (.inl rfl)
  | true =>
    exact Discipline.keeps_ask_bind.mpr ⟨rfl, fun _ => keeps_session hlogin (.inr rfl)⟩

theorem keeps_storePassword {new : String} {s : Phase} (hs : ∀ ok, s ≠ .compared ok) :
    (entrance cfg req).Keeps (storePassword new) (fun _ _ => True) s := by
  refine Discipline.keeps_ask_bind.mpr ⟨hs, fun hash => ?_⟩
  rw [show (entrance cfg req).next s ⟨.hash new, hash⟩ = s by cases s <;> rfl]
  cases hash with
  | none => trivial
  | some hash =>
    refine ⟨hs, fun stored => ?_⟩
    cases stored <;> trivial

theorem keeps_changePassword {args : ChangeArgs} (hno : ¬ IsLogin req) :
    (entrance cfg req).Keeps (changePassword cfg args) (fun _ _ => True) .idle := by
  refine keeps_retryAfter (fun wait hwait => by rw [if_pos hwait]; trivial) ?_
  rw [if_neg (Nat.lt_irrefl 0)]
  refine Discipline.keeps_bind.mpr (keeps_configured nofun fun configured => ?_)
  split
  · trivial
  split
  · trivial
  refine Discipline.keeps_bind.mpr (keeps_verify (fun h => absurd h hno) (keeps_failed (.inr rfl))
    fun ok => ?_)
  cases ok with
  | false => exact keeps_failed (.inl rfl)
  | true =>
    exact Discipline.keeps_ask_bind.mpr ⟨rfl, fun _ => keeps_storePassword nofun⟩

theorem keeps_otpLogin {otp : String} (hlogin : IsLogin req) (hoffers : Offers cfg req (.otp otp)) :
    (entrance cfg req).Keeps (otpLogin cfg otp) (fun _ _ => True) .idle := by
  refine Discipline.keeps_ask_bind.mpr ⟨nofun, fun headers => ?_⟩
  cases headers with
  | none => trivial
  | some token =>
    refine ⟨⟨rfl, otp, rfl, hoffers⟩, fun resp => ?_⟩
    show (entrance cfg req).Keeps (otpReplied cfg resp) _ (if Confirms cfg resp then _ else _)
    unfold otpReplied
    split
    · trivial
    rename_i hok
    split
    · trivial
    rename_i doc hdoc
    refine Discipline.keeps_bind.mpr (keeps_json fun valid hvalid => ?_)
    cases valid with
    | false => trivial
    | true =>
      have hconfirms : Confirms cfg resp := by
        refine ⟨by simpa using hok, ?_⟩
        rw [hdoc, Option.bind_some, Json.value_true_iff.mp hvalid]
      refine keeps_session hlogin (.inl ?_)
      rw [if_pos hconfirms]

theorem keeps_login (hlogin : IsLogin req) :
    (entrance cfg req).Keeps (handleLogin cfg req) (fun _ _ => True) .idle := by
  refine keeps_bodyHandler fun body credential hparse hread => ?_
  cases credential with
  | otp otp => exact keeps_otpLogin hlogin ⟨body, hparse, hread⟩
  | password password => exact keeps_passwordLogin hlogin ⟨body, hparse, hread⟩

theorem keeps_hasValidSession {Q : Bool → Phase → Prop} {s : Phase} (hs : ∀ ok, s ≠ .compared ok)
    (h : ∀ valid, Q valid s) : (entrance cfg req).Keeps (hasValidSession req) Q s := by
  unfold hasValidSession
  split
  · exact h false
  · refine Discipline.keeps_ask.mpr ⟨hs, fun valid => ?_⟩
    rw [show (entrance cfg req).next s ⟨.isValid (extractSessionId req), valid⟩ = s by cases s <;> rfl]
    exact h valid

/-! ## Every request -/

theorem lookup_mem {routes : List Route} {route : Route} (h : lookup routes req = some route) :
    route ∈ routes ∧ req.method = route.method ∧ req.path = route.path := by
  have hfound := List.find?_some h
  simp only [Bool.and_eq_true, decide_eq_true_eq] at hfound
  exact ⟨List.mem_of_find?_eq_some h, hfound⟩

/-- Behind the login, everything but the change of the password is a program over the rest of the
frame. -/
theorem guarded_outside : ∀ route ∈ frameRoutes cfg ++ connectionRoutes cfg ++ systemRoutes cfg,
    ∀ req qp, ∃ p, route.handler req qp = outside p := by
  simp only [frameRoutes, connectionRoutes, systemRoutes, List.cons_append, List.nil_append,
    List.forall_mem_cons]
  and_intros
  all_goals first | exact fun _ _ => ⟨_, rfl⟩ | exact fun _ h => absurd h List.not_mem_nil

theorem keeps_guarded {route : Route} (h : lookup (protectedRoutes cfg) req = some route) :
    (entrance cfg req).Keeps (route.handler req req.params) (fun _ _ => True) .idle := by
  obtain ⟨hmem, -, hpath⟩ := lookup_mem h
  rcases List.mem_cons.mp hmem with rfl | hmem
  · refine keeps_bodyHandler fun _ args _ _ => keeps_changePassword fun hlogin => ?_
    have hsame : "/api/auth/change-password" = "/api/auth/login" := hpath.symm.trans hlogin.2
    exact absurd hsame (by decide)
  · obtain ⟨p, hp⟩ := guarded_outside route hmem req req.params
    rw [hp]
    exact (keeps_outside Phase.idle_ne).mono fun _ _ _ => trivial

theorem keeps_open {route : Route} (h : lookup (publicRoutes cfg) req = some route) :
    (entrance cfg req).Keeps (route.handler req req.params) (fun _ _ => True) .idle := by
  obtain ⟨hmem, hmethod, hpath⟩ := lookup_mem h
  simp only [publicRoutes, List.mem_cons, List.not_mem_nil, or_false] at hmem
  rcases hmem with rfl | rfl | rfl | rfl | rfl
  · exact keeps_login ⟨hmethod, hpath⟩
  · exact Discipline.keeps_bind.mpr (keeps_hasValidSession nofun fun _ => trivial)
  · show (entrance cfg req).Keeps (handleLogout req) _ _
    unfold handleLogout
    split
    exacts [trivial, Discipline.keeps_ask_bind.mpr ⟨nofun, fun _ => trivial⟩]
  · exact (keeps_outside Phase.idle_ne).mono fun _ _ _ => trivial
  · refine (keeps_outside Phase.idle_ne).bind fun mode s hs => ?_
    subst hs
    refine Discipline.keeps_bind.mpr (keeps_json fun name _ => ?_)
    split
    exacts [trivial, Discipline.keeps_bind.mpr (keeps_hasValidSession nofun fun _ => trivial)]

/-- Whatever is answered, a request keeps to the order of a login. -/
theorem keeps_handleRequest :
    (entrance cfg req).Keeps (handleRequest cfg req) (fun _ _ => True) .idle := by
  unfold handleRequest admission
  split
  · rename_i route hroute
    exact keeps_open hroute
  have hadmitted : (entrance cfg req).Keeps (dispatch req (admitted cfg req)) (fun _ _ => True) .idle := by
    unfold admitted
    split
    · rename_i route hroute
      exact keeps_guarded hroute
    · trivial
  have hbypass : (entrance cfg req).Keeps (apBypass req) (fun _ s => s = .idle) .idle := by
    unfold apBypass
    split
    exacts [keeps_outside nofun, rfl]
  refine Discipline.keeps_bind.mpr (hbypass.bind fun bypass s hs => ?_)
  subst hs
  split
  · exact hadmitted
  · refine Discipline.keeps_bind.mpr (keeps_hasValidSession nofun fun valid => ?_)
    cases valid with
    | false => trivial
    | true => exact hadmitted

/-- The call that led into a phase was permitted in the one before. -/
theorem exists_move {s : Phase} {t : List Event} {q : Handler Response}
    (hrun : Steps (handleRequest cfg req) t q) (h : phase cfg t = s) (hs : s ≠ .idle) :
    ∃ t₁ e t₂ s₀, t = t₁ ++ e :: t₂ ∧ phase cfg t₁ = s₀ ∧ (entrance cfg req).permits s₀ e.1 ∧
      Phase.Moves cfg s₀ e s := by
  obtain ⟨t₁, e, t₂, rfl, hne, hnext⟩ := (entrance cfg req).exists_entry h (Ne.symm hs)
  exact ⟨t₁, e, t₂, _, rfl, rfl, keeps_handleRequest.calls hrun.calls,
    Phase.moves_of_next hnext hne⟩

end ShareFrame.Dashboard
