import ShareFrame.Dashboard.Entrance
import ShareFrame.Dashboard.Serving

/-!
# Who gets behind the login

A request that no public route takes knocks at a gate: it reads the mode of the
Wi-Fi for the factory reset, and asks the session store about its session. `gate`
says so as a discipline, and that a protected handler starts where the gate is open.
What a request without a session gets depends on nothing else.
-/

namespace ShareFrame.Dashboard

open HTTPClient Interaction Prog

variable {cfg : Config} {req : Request}

/-! ## The gate -/

inductive Gate where
  | shut
  /-- the session is valid -/
  | session
  /-- the frame hosts its access point -/
  | accessPoint
  deriving DecidableEq, Repr

def Gate.next : Gate → Event → Gate
  | .shut, ⟨.isValid _, true⟩ => .session
  | .shut, ⟨.outside .readWifiMode, file⟩ =>
    if WifiMode.isAp file = .ok true then .accessPoint else .shut
  | s, _ => s

theorem Gate.next_of_ne {s : Gate} (h : s ≠ .shut) (e : Event) : s.next e = s := by
  cases s with
  | shut => exact absurd rfl h
  | _ => rfl

/-- The calls in front of the gate only read. -/
def Knocks (req : Request) : Op → Prop
  | .isValid sessionId => sessionId = extractSessionId req ∧ sessionId ≠ ""
  | .outside .readWifiMode => req.path = "/api/system/factory-reset"
  | _ => False

def gate (req : Request) : Discipline Ans Gate where
  permits s op := s = .shut ∧ Knocks req op
  next := Gate.next

/-- An open gate stays open. -/
theorem mode_gate_of_ne {s : Gate} (h : s ≠ .shut) (t : List Event) : (gate req).mode s t = s := by
  induction t with
  | nil => rfl
  | cons e t ih =>
    rw [Discipline.mode_cons, show (gate req).next s e = s from Gate.next_of_ne h e]
    exact ih

/-- The gate has been shut all along. -/
theorem mode_gate_shut {t t' : List Event} (h : (gate req).mode .shut (t ++ t') = .shut) :
    (gate req).mode .shut t = .shut := by
  by_contra hne
  rw [Discipline.mode_append, mode_gate_of_ne hne] at h
  exact hne h

def factoryReset : Route := .plain "POST" "/api/system/factory-reset" SystemHandlers.handleFactoryReset

/-- How the gate stands for what becomes of a request. -/
def Admits (cfg : Config) (req : Request) (s : Gate) : Admission → Prop
  | .open_ route => s = .shut ∧ lookup (publicRoutes cfg) req = some route
  | .guarded route => lookup (protectedRoutes cfg) req = some route ∧
    (s = .session ∨ s = .accessPoint ∧ req.path = "/api/system/factory-reset")
  | .denied => s = .shut
  | .notFound => s ≠ .shut

theorem admits_admitted {s : Gate}
    (h : s = .session ∨ s = .accessPoint ∧ req.path = "/api/system/factory-reset") :
    Admits cfg req s (admitted cfg req) := by
  unfold admitted
  split
  · rename_i route hroute
    exact ⟨hroute, h⟩
  · rcases h with rfl | ⟨rfl, -⟩ <;> nofun

theorem keeps_apBypass : (gate req).Keeps (apBypass req)
    (fun bypass s => if bypass then s = .accessPoint ∧ req.path = "/api/system/factory-reset"
      else s = .shut) .shut := by
  unfold apBypass
  split
  · rename_i hpath
    refine ⟨⟨rfl, hpath⟩, fun file => ?_⟩
    show (gate req).Keeps (Prog.embed Op.outside id (json (WifiMode.isAp file))) _
      (if WifiMode.isAp file = .ok true then _ else _)
    cases WifiMode.isAp file with
    | error e => trivial
    | ok ap =>
      cases ap with
      | false => exact rfl
      | true => exact ⟨rfl, hpath⟩
  · exact rfl

theorem gate_hasValidSession {Q : Bool → Gate → Prop} (hno : Q false .shut) (hyes : Q true .session) :
    (gate req).Keeps (hasValidSession req) Q .shut := by
  unfold hasValidSession
  split
  · exact hno
  · rename_i hid
    refine Discipline.keeps_ask.mpr ⟨⟨rfl, rfl, hid⟩, fun valid => ?_⟩
    cases valid with
    | false => exact hno
    | true => exact hyes

/-- Whatever is answered, a request is admitted as the gate stands. -/
theorem keeps_admission : (gate req).Keeps (admission cfg req) (fun adm s => Admits cfg req s adm) .shut := by
  unfold admission
  split
  · rename_i route hroute
    exact ⟨rfl, hroute⟩
  refine keeps_apBypass.bind fun bypass s hs => ?_
  cases bypass with
  | true =>
    obtain ⟨rfl, hpath⟩ := hs
    exact admits_admitted (.inr ⟨rfl, hpath⟩)
  | false =>
    cases hs
    exact Discipline.keeps_bind.mpr (gate_hasValidSession rfl (admits_admitted (.inl rfl)))

/-! ## A protected handler starts -/

/-- The calls led behind the login, to this route. -/
def Entered (cfg : Config) (req : Request) (t : List Event) (route : Route) : Prop :=
  ∃ t₁ t₂, t = t₁ ++ t₂ ∧ Runs (admission cfg req) t₁ (.ok (.guarded route))

variable {t : List Event} {route : Route}

/-- Nothing runs before the gate was asked. -/
theorem not_entered_nil : ¬ Entered cfg req [] route := by
  rintro ⟨t₁, t₂, h, hr⟩
  obtain ⟨rfl, rfl⟩ := List.append_eq_nil_iff.mp h.symm
  have hgate : Admits cfg req .shut (.guarded route) := keeps_admission.runs hr
  rcases hgate.2 with h | ⟨h, -⟩ <;> cases h

/-- The call that opened the gate. -/
inductive Opens (req : Request) (route : Route) : Event → Prop where
  | session : extractSessionId req ≠ "" → Opens req route ⟨.isValid (extractSessionId req), true⟩
  | accessPoint {file : Option Json} : req.path = "/api/system/factory-reset" →
    WifiMode.isAp file = .ok true → Opens req route ⟨.outside .readWifiMode, file⟩

theorem opens_of_next {e : Event} (hknocks : Knocks req e.1)
    (h : Gate.next .shut e = .session ∨
      Gate.next .shut e = .accessPoint ∧ req.path = "/api/system/factory-reset") :
    Opens req route e := by
  obtain ⟨op, a⟩ := e
  cases op with
  | isValid id =>
    obtain ⟨rfl, hid⟩ := hknocks
    cases a with
    | false => rcases h with h | ⟨h, -⟩ <;> cases h
    | true => exact .session hid
  | outside op =>
    cases op with
    | readWifiMode =>
      by_cases hap : WifiMode.isAp a = .ok true
      · exact .accessPoint hknocks hap
      · simp [Gate.next, hap] at h
    | _ => cases hknocks
  | _ => cases hknocks

/-- A handler starts with the call that opens the gate. -/
theorem entered_concat {e : Event} (h : Entered cfg req (t ++ [e]) route)
    (hno : ¬ Entered cfg req t route) :
    lookup (protectedRoutes cfg) req = some route ∧ Opens req route e := by
  obtain ⟨t₁, t₂, ht, hr⟩ := h
  rcases List.eq_nil_or_concat t₂ with rfl | ⟨t₂, x, rfl⟩
  · rw [List.append_nil] at ht
    subst ht
    have hgate := keeps_admission.runs hr
    obtain ⟨hshut, hknocks⟩ : (gate req).permits ((gate req).mode .shut t) e.1 :=
      keeps_admission.calls (Steps.calls hr)
    rw [Discipline.mode_concat, hshut] at hgate
    exact ⟨hgate.1, opens_of_next hknocks hgate.2⟩
  · rw [List.concat_eq_append, ← List.append_assoc] at ht
    obtain ⟨rfl, -⟩ := List.append_inj' ht rfl
    exact absurd ⟨t₁, t₂, rfl, hr⟩ hno

/-- Only the factory reset is behind its path. -/
theorem eq_factoryReset_of_mem : ∀ route ∈ protectedRoutes cfg,
    route.path = "/api/system/factory-reset" → route = factoryReset := by
  simp [protectedRoutes, frameRoutes, connectionRoutes, systemRoutes, Route.plain, Route.ofBody,
    factoryReset]

theorem eq_factoryReset (h : lookup (protectedRoutes cfg) req = some route)
    (hpath : req.path = "/api/system/factory-reset") : route = factoryReset := by
  obtain ⟨hmem, -, hroute⟩ := lookup_mem h
  exact eq_factoryReset_of_mem route hmem (hroute.symm.trans hpath)

/-- On the access point the factory reset starts. -/
theorem entered_factoryReset {file : Option Json} (hmethod : req.method = "POST")
    (hpath : req.path = "/api/system/factory-reset") (hap : WifiMode.isAp file = .ok true) :
    Entered cfg req [⟨.outside .readWifiMode, file⟩] factoryReset := by
  have hpublic : lookup (publicRoutes cfg) req = none := by
    simp [lookup, publicRoutes, Route.ofBody, Route.plain, hpath]
  have hprotected : lookup (protectedRoutes cfg) req = some factoryReset := by
    simp [lookup, protectedRoutes, frameRoutes, connectionRoutes, systemRoutes, Route.ofBody,
      Route.plain, factoryReset, hmethod, hpath]
  have hbypass : Runs (apBypass req) [⟨.outside .readWifiMode, file⟩] (.ok true) := by
    rw [apBypass, if_pos hpath]
    refine runs_call.mpr ⟨file, [], rfl, ?_⟩
    show Runs (Prog.embed Op.outside id (json (WifiMode.isAp file))) _ _
    rw [hap]
    exact runs_pure.mpr ⟨rfl, rfl⟩
  refine ⟨_, [], (List.append_nil _).symm, ?_⟩
  simp only [admission, hpublic]
  refine runs_bind_ok.mpr ⟨true, _, [], (List.append_nil _).symm, hbypass, ?_⟩
  rw [if_pos rfl, admitted, hprotected]
  exact runs_pure.mpr ⟨rfl, rfl⟩

/-! ## A session is created -/

/-- A true comparison of this password with the stored or the initial one. -/
inductive Verified (cfg : Config) (password : String) : Event → Prop where
  | verify (stored : String) : Verified cfg password ⟨.verify password stored, some true⟩
  | constantTimeEquals :
    Verified cfg password ⟨.constantTimeEquals password cfg.initialPassword, true⟩

/-- The server answered the OTP of the request as valid, or the throttle reported no lock and then
the password of the request verified. -/
inductive Authenticated (cfg : Config) (req : Request) (t : List Event) : Prop where
  | otp {otp url : String} {token : Option String} {resp : HttpResponse} :
    Offers cfg req (.otp otp) → ⟨.verifyOtp url (.obj [("otp", .str otp)]) token, resp⟩ ∈ t →
    Confirms cfg resp → Authenticated cfg req t
  | password {password : String} {t₁ t₂ : List Event} {e : Event} :
    Offers cfg req (.password password) → t = t₁ ++ e :: t₂ → ⟨.retryAfterSecs, 0⟩ ∈ t₁ →
    Verified cfg password e → Authenticated cfg req t

theorem retryAfterSecs_mem {q : Handler Response} (hrun : Steps (handleRequest cfg req) t q)
    (h : phase cfg t = .passed) : ⟨.retryAfterSecs, 0⟩ ∈ t := by
  obtain ⟨t₁, e, t₂, s, rfl, -, -, hmove⟩ := exists_move hrun h nofun
  cases hmove
  exact List.mem_append_right t₁ List.mem_cons_self

/-- Behind a comparison that succeeded. -/
theorem authenticated_of_compared {q : Handler Response} (hlogin : IsLogin req)
    (hrun : Steps (handleRequest cfg req) t q) (h : phase cfg t = .compared true) :
    Authenticated cfg req t := by
  obtain ⟨t₁, e, t₂, s, rfl, hs, hpermits, hmove⟩ := exists_move hrun h nofun
  obtain ⟨p, hp, -⟩ := hrun.split
  cases hmove with
  | verify => exact .password (hpermits.2 hlogin) rfl (retryAfterSecs_mem hp hs) (.verify _)
  | equals =>
    obtain ⟨-, rfl, hoffers⟩ := hpermits
    exact .password (hoffers hlogin) rfl (retryAfterSecs_mem hp hs) .constantTimeEquals

theorem Authenticated.append (h : Authenticated cfg req t) (t' : List Event) :
    Authenticated cfg req (t ++ t') := by
  cases h with
  | otp hoffers hmem hconfirms => exact .otp hoffers (List.mem_append_left t' hmem) hconfirms
  | password hoffers ht hmem hverified =>
    subst ht
    exact .password hoffers (List.append_assoc ..) hmem hverified

theorem authenticated_of_createSession {q : Handler Response} {id : String} {t' : List Event}
    (hrun : Steps (handleRequest cfg req) (t ++ ⟨.createSession, id⟩ :: t') q) :
    IsLogin req ∧ Authenticated cfg req t := by
  obtain ⟨hlogin, hphase⟩ : (entrance cfg req).permits ((entrance cfg req).mode .idle t) .createSession :=
    keeps_handleRequest.calls hrun.calls
  refine ⟨hlogin, ?_⟩
  obtain ⟨p, hp, -⟩ := hrun.split
  rcases hphase with hphase | hphase
  · obtain ⟨t₁, e, t₂, s, rfl, -, hpermits, hmove⟩ := exists_move hp hphase nofun
    cases hmove with
    | confirm hconfirms =>
      obtain ⟨-, otp, rfl, hoffers⟩ := hpermits
      exact .otp hoffers (List.mem_append_right t₁ List.mem_cons_self) hconfirms
  · obtain ⟨t₁, e, t₂, s, rfl, hs, -, hmove⟩ := exists_move hp hphase nofun
    obtain ⟨p', hp', -⟩ := hp.split
    cases hmove with
    | failure => exact (authenticated_of_compared hlogin hp' hs).append _
    | success => exact (authenticated_of_compared hlogin hp' hs).append _

/-! ## The password of the access point -/

theorem runs_json {α : Type} {x : Except Json.Error α} {a : α} :
    Runs (json x : Handler α) t (.ok a) ↔ t = [] ∧ x = .ok a := by
  rw [json, runs_lift]
  refine and_congr_right fun _ => ?_
  cases x with
  | error e => exact ⟨nofun, nofun⟩
  | ok b => simp [Except.mapError, eq_comm]

/-- The mode of the answer is the one of the file. -/
theorem runs_connectionMode {t : List (Interaction.Event OutsideAns)} {mode : Json}
    (h : Runs WifiHandlers.connectionMode t (.ok mode)) :
    ∃ file t', t = ⟨.readWifiMode, file⟩ :: t' ∧
      mode.value Json.getString "mode" "" = (WifiMode.read file).value Json.getString "mode" "" := by
  obtain ⟨m, t₁, t₂, rfl, hm, hrest⟩ := runs_bind_ok.mp h
  obtain ⟨file, t', rfl, hread⟩ := runs_ask_bind.mp hm
  obtain ⟨rfl, hfile⟩ := runs_pure.mp hread
  obtain rfl := Except.ok.inj hfile
  obtain ⟨server, t₁, t₂, rfl, -, hrest⟩ := runs_bind_ok.mp hrest
  obtain ⟨offline, t₃, t₄, rfl, -, hrest⟩ := runs_bind_ok.mp hrest
  obtain ⟨failedAt, t₅, t₆, rfl, -, hrest⟩ := runs_bind_ok.mp hrest
  obtain ⟨failedAgo, t₇, t₈, rfl, -, hrest⟩ := runs_bind_ok.mp hrest
  obtain ⟨rfl, hmode⟩ := runs_pure.mp hrest
  cases hmode
  exact ⟨file, _, rfl, by simp⟩

/-- A member of the data of a response. -/
def Response.member (resp : Response) (key : String) : Option Json :=
  match resp.body with
  | .json body => (body.find "data").bind (·.find key)
  | .binary _ _ _ => none

theorem member_jsonResponse {status : Nat} {statusText key message : String} {data : Json} :
    (jsonResponse status statusText data message).member key = data.find key := rfl

theorem runs_hasValidSession (h : Runs (hasValidSession req) t (.ok true)) :
    ⟨.isValid (extractSessionId req), true⟩ ∈ t := by
  unfold hasValidSession at h
  split at h
  · cases (runs_pure.mp h).2
  · obtain ⟨valid, rfl, hvalid⟩ := runs_ask.mp h
    cases hvalid
    exact List.mem_singleton.mpr rfl

/-- A secret is answered on the access point, or to the owner. -/
theorem runs_handleConnectionMode {resp : Response} {password : Json}
    (h : Runs (handleConnectionMode req) t (.ok resp))
    (hmember : resp.member "ap_password" = some password) (hsecret : password ≠ .str "") :
    (∃ file, ⟨.outside .readWifiMode, file⟩ ∈ t ∧ WifiMode.isAp file = .ok true) ∨
      ⟨.isValid (extractSessionId req), true⟩ ∈ t := by
  obtain ⟨mode, t₁, t₂, rfl, hmode, hrest⟩ := runs_bind_ok.mp h
  obtain ⟨name, t₃, t₄, rfl, hname, hrest⟩ := runs_bind_ok.mp hrest
  obtain ⟨t', r', rfl, hr', hmode⟩ := runs_embed.mp hmode
  cases r' with
  | error e => cases hr'
  | ok mode' =>
  cases hr'
  obtain ⟨file, t'', rfl, hvalue⟩ := runs_connectionMode hmode
  split at hrest
  · rename_i hap
    refine .inl ⟨file, List.mem_append_left _ List.mem_cons_self, ?_⟩
    rw [WifiMode.isAp, ← hvalue, (runs_json.mp hname).2, hap]
    rfl
  · obtain ⟨valid, t₅, t₆, rfl, hvalid, hrest⟩ := runs_bind_ok.mp hrest
    obtain ⟨-, hresp⟩ := runs_pure.mp hrest
    cases hresp
    cases valid with
    | true =>
      refine .inr (List.mem_append_right _ (List.mem_append_right _ (List.mem_append_left _ ?_)))
      exact runs_hasValidSession hvalid
    | false =>
      rw [member_jsonResponse] at hmember
      exact absurd (Json.find_set hmember) hsecret

/-! ## A request that is turned away -/

/-- No call found a valid session, or the frame on its access point. -/
def Outsider (t : List Event) : Prop :=
  (∀ id, ⟨.isValid id, true⟩ ∉ t) ∧
    ∀ file, ⟨.outside .readWifiMode, file⟩ ∈ t → WifiMode.isAp file ≠ .ok true

theorem Outsider.of_cons {e : Event} (h : Outsider (e :: t)) : Outsider t :=
  ⟨fun id hmem => h.1 id (List.mem_cons_of_mem e hmem),
    fun file hmem => h.2 file (List.mem_cons_of_mem e hmem)⟩

theorem Outsider.left {t' : List Event} (h : Outsider (t ++ t')) : Outsider t :=
  ⟨fun id hmem => h.1 id (List.mem_append_left t' hmem),
    fun file hmem => h.2 file (List.mem_append_left t' hmem)⟩

theorem Outsider.next {e : Event} (h : Outsider (e :: t)) : Gate.next .shut e = .shut := by
  unfold Gate.next
  split
  · exact absurd List.mem_cons_self (h.1 _)
  · rw [if_neg (h.2 _ List.mem_cons_self)]
  · rfl

theorem Outsider.shut (h : Outsider t) : (gate req).mode .shut t = .shut := by
  induction t with
  | nil => rfl
  | cons e t ih =>
    rw [Discipline.mode_cons, show (gate req).next .shut e = .shut from h.next]
    exact ih h.of_cons

theorem admits_shut {adm : Admission} (hpublic : lookup (publicRoutes cfg) req = none)
    (h : Admits cfg req .shut adm) : adm = .denied := by
  cases adm with
  | open_ route => rw [h.2] at hpublic; cases hpublic
  | guarded route => rcases h.2 with h | ⟨h, -⟩ <;> cases h
  | denied => rfl
  | notFound => exact absurd rfl h

theorem knocks_of_calls {op : Op} (hpublic : lookup (publicRoutes cfg) req = none)
    (hout : Outsider t) (hcalls : Calls (handleRequest cfg req) t op) : Knocks req op := by
  rcases calls_bind.mp hcalls with hcalls | ⟨adm, t₁, t₂, rfl, hr, hcalls⟩
  · exact (keeps_admission.calls hcalls).2
  · have hgate := keeps_admission.runs hr
    rw [mode_gate_shut hout.shut] at hgate
    rw [admits_shut hpublic hgate] at hcalls
    exact absurd hcalls calls_pure

/-- What the request learned about the access point. -/
def Sees (req : Request) (t : List Event) (ap : Except Json.Error Bool) : Prop :=
  if req.path = "/api/system/factory-reset" then
    ∃ file, ⟨.outside .readWifiMode, file⟩ ∈ t ∧ ap = WifiMode.isAp file
  else ap = .ok false

theorem Sees.append {ap : Except Json.Error Bool} (h : Sees req t ap) (t' : List Event) :
    Sees req (t ++ t') ap := by
  unfold Sees at h ⊢
  split at h
  · rename_i hpath
    obtain ⟨file, hmem, hap⟩ := h
    rw [if_pos hpath]
    exact ⟨file, List.mem_append_left t' hmem, hap⟩
  · rename_i hpath
    rwa [if_neg hpath]

theorem runs_apBypass {r : Except Error Bool} (h : Runs (apBypass req) t r) :
    ∃ ap, Sees req t ap ∧ r = ap.mapError .json := by
  unfold apBypass at h
  unfold Sees
  split at h
  · rename_i hpath
    obtain ⟨file, t', rfl, hrest⟩ := runs_call.mp h
    refine ⟨WifiMode.isAp file, by rw [if_pos hpath]; exact ⟨file, List.mem_cons_self, rfl⟩, ?_⟩
    change Runs (Prog.embed Op.outside id (json (WifiMode.isAp file))) t' r at hrest
    cases hap : WifiMode.isAp file with
    | error e =>
      rw [hap] at hrest
      exact (runs_throw.mp hrest).2
    | ok ap =>
      rw [hap] at hrest
      exact (runs_pure.mp hrest).2
  · rename_i hpath
    exact ⟨.ok false, by rw [if_neg hpath], (runs_pure.mp h).2⟩

theorem runs_hasValidSession_ok {r : Except Error Bool} (h : Runs (hasValidSession req) t r) :
    ∃ valid, r = .ok valid := by
  unfold hasValidSession at h
  split at h
  · exact ⟨_, (runs_pure.mp h).2⟩
  · obtain ⟨valid, -, hr⟩ := runs_ask.mp h
    exact ⟨valid, hr⟩

/-- At a shut gate a request is denied, unless the mode of the Wi-Fi cannot be read. -/
theorem runs_admission_outsider {r : Except Error Admission}
    (hpublic : lookup (publicRoutes cfg) req = none) (hout : Outsider t)
    (h : Runs (admission cfg req) t r) :
    ∃ ap, Sees req t ap ∧ r = (ap.mapError Error.json).map fun _ => .denied := by
  have hdenied : ∀ adm, r = .ok adm → adm = .denied := by
    rintro adm rfl
    have hgate := keeps_admission.runs h
    rw [hout.shut] at hgate
    exact admits_shut hpublic hgate
  simp only [admission, hpublic] at h
  rcases runs_bind.mp h with ⟨e, rfl, hbypass⟩ | ⟨bypass, t₁, t₂, rfl, hbypass, hrest⟩
  · obtain ⟨ap, hsees, hap⟩ := runs_apBypass hbypass
    refine ⟨ap, hsees, ?_⟩
    rw [← hap]
    rfl
  · obtain ⟨ap, hsees, hap⟩ := runs_apBypass hbypass
    refine ⟨ap, hsees.append t₂, ?_⟩
    rw [← hap]
    have hok : ∃ adm, r = .ok adm := by
      split at hrest
      · exact ⟨_, (runs_pure.mp hrest).2⟩
      · rcases runs_bind.mp hrest with ⟨e, -, he⟩ | ⟨valid, t₃, t₄, -, -, hrest⟩
        · obtain ⟨valid, hvalid⟩ := runs_hasValidSession_ok he
          cases hvalid
        · exact ⟨_, (runs_pure.mp hrest).2⟩
    obtain ⟨adm, rfl⟩ := hok
    rw [hdenied adm rfl]
    rfl

/-- What a request that is turned away gets. -/
def turnedAway (ap : Except Json.Error Bool) : Except Error Response :=
  (ap.mapError Error.json).map fun _ => authenticationRequired

theorem runs_outsider {r : Except Error Response} (hpublic : lookup (publicRoutes cfg) req = none)
    (hout : Outsider t) (h : Runs (handleRequest cfg req) t r) :
    ∃ ap, Sees req t ap ∧ r = turnedAway ap := by
  rcases runs_bind.mp h with ⟨e, rfl, hrun⟩ | ⟨adm, t₁, t₂, rfl, hrun, hrest⟩
  · obtain ⟨ap, hsees, hap⟩ := runs_admission_outsider hpublic hout hrun
    refine ⟨ap, hsees, ?_⟩
    cases ap with
    | error e => cases hap; rfl
    | ok ap => cases hap
  · obtain ⟨ap, hsees, hap⟩ := runs_admission_outsider hpublic hout.left hrun
    refine ⟨ap, hsees.append t₂, ?_⟩
    cases ap with
    | error e => cases hap
    | ok ap =>
      cases hap
      exact (runs_pure.mp hrest).2

/-! ## Over runs -/

variable {s s' : State} {c : Connection}

namespace State

/-- The session that the request names is valid at this time. -/
def hasValidSession (s : State) (req : Request) : Bool :=
  extractSessionId req ≠ "" && s.isValid (extractSessionId req)

def isApMode (s : State) : Bool := WifiMode.isAp s.wifiMode = .ok true

/-- What the shared parts of the server answer. -/
def Tells (s : State) : Event → Prop
  | ⟨.isValid id, valid⟩ => valid = s.isValid id
  | ⟨.outside .readWifiMode, file⟩ => file = s.wifiMode
  | ⟨.retryAfterSecs, wait⟩ => wait = s.throttle_.retryAfterSecs s.now
  | _ => True

/-- The other connections and all that they share are as before. -/
structure Untouched (s : State) (i : Nat) (s' : State) : Prop where
  now : s'.now = s.now
  sessions : s'.sessions_ = s.sessions_
  throttle : s'.throttle_ = s.throttle_
  wifiMode : s'.wifiMode = s.wifiMode
  others : ∀ j ≠ i, s'.connections[j]? = s.connections[j]?

end State

theorem State.Serves.tells {e : Event} (h : s.Serves e s') : s.Tells e := by
  cases h with
  | other hop =>
    unfold State.Tells
    split <;> first | cases hop | trivial
  | _ => trivial

theorem State.Serves.of_knock {e : Event} (h : s.Serves e s') (hknocks : Knocks req e.1) :
    s' = s := by
  cases h with
  | createSession => cases hknocks
  | removeSession => cases hknocks
  | recordFailure => cases hknocks
  | recordSuccess => cases hknocks
  | _ => rfl

/-- Only a login stores a session. -/
theorem State.Serves.sessions {e : Event} {id : String} (h : s.Serves e s')
    (hnew : s'.sessions_ id ≠ s.sessions_ id) (hin : s'.sessions_ id ≠ none) :
    e = ⟨.createSession, id⟩ := by
  cases h with
  | @createSession id' =>
    by_cases hid : id = id'
    · rw [hid]
    · exact absurd (Function.update_of_ne hid _ _) hnew
  | @removeSession id' =>
    by_cases hid : id = id'
    · subst hid
      exact absurd (Function.update_self ..) hin
    · exact absurd (Function.update_of_ne hid _ _) hnew
  | _ => exact absurd rfl hnew

theorem untouched_of_answered {i : Nat} {e : Event} (h : Answered s i e s')
    (hknocks : Knocks req e.1) : s.Untouched i s' := by
  obtain ⟨u, hu, hnow, hsessions, hthrottle, hmode⟩ := h.served
  obtain ⟨c, rest, hc, -, hconns⟩ := h.connection
  obtain rfl := (serves_of_serve hu).of_knock hknocks
  refine ⟨hnow.symm, hsessions.symm, hthrottle.symm, hmode.symm, fun j hj => ?_⟩
  rw [hconns, List.getElem?_set_ne (Ne.symm hj)]

/-! ## The access control -/

/-- `GET /api/connection/mode` -/
def IsConnectionMode (req : Request) : Prop :=
  req.method = "GET" ∧ req.path = "/api/connection/mode"

theorem handleRequest_connectionMode (h : IsConnectionMode req) :
    handleRequest cfg req = handleConnectionMode req := by
  have hlookup : lookup (publicRoutes cfg) req =
      some (.ofBody "GET" "/api/connection/mode" handleConnectionMode) := by
    simp [lookup, publicRoutes, Route.ofBody, Route.plain, h.1, h.2]
  simp only [handleRequest, admission, hlookup]
  rfl

/-- Nobody gets behind the login without a session. -/
structure AccessControl (cfg : Config) : Prop where
  /-- no handler has started when a request arrives -/
  arrives : ∀ req route, ¬ Entered cfg req [] route
  /-- it starts with a call at whose time the session is valid, or as the factory reset of a frame
  on its access point -/
  entered : ∀ s i e s' c route, step cfg s (.answer i e) = some s' → s.connections[i]? = some c →
    ¬ Entered cfg c.request c.history route → Entered cfg c.request (c.history ++ [e]) route →
    s.hasValidSession c.request = true ∨ s.isApMode = true ∧ route = factoryReset
  /-- on the access point the factory reset does start -/
  resets : ∀ req file, req.method = "POST" → req.path = "/api/system/factory-reset" →
    WifiMode.isAp file = .ok true →
    Entered cfg req [⟨.outside .readWifiMode, file⟩] factoryReset
  /-- a session is stored by a login that was let in -/
  created : ∀ s a s' id, (machine cfg).Reachable s → step cfg s a = some s' →
    s'.sessions_ id ≠ s.sessions_ id → s'.sessions_ id ≠ none →
    ∃ i c, a = .answer i ⟨.createSession, id⟩ ∧ s.connections[i]? = some c ∧ IsLogin c.request ∧
      Authenticated cfg c.request c.history
  /-- the password of the access point is answered on it or to an owner -/
  apPassword : ∀ s c resp password, (machine cfg).Reachable s → c ∈ s.connections →
    IsConnectionMode c.request → c.rest = .pure resp → resp.member "ap_password" = some password →
    password ≠ .str "" →
    (∃ file, ⟨.outside .readWifiMode, file⟩ ∈ c.history ∧ WifiMode.isAp file = .ok true) ∨
      ⟨.isValid (extractSessionId c.request), true⟩ ∈ c.history
  /-- the answers in a history are those of the state at their time -/
  truthful : ∀ s i e s', step cfg s (.answer i e) = some s' → s.Tells e
  /-- two runs answer a request that they turn away the same -/
  sameResponse : ∀ s₁ s₂ c₁ c₂ r₁ r₂, (machine cfg).Reachable s₁ → (machine cfg).Reachable s₂ →
    c₁ ∈ s₁.connections → c₂ ∈ s₂.connections → c₁.request = c₂.request →
    lookup (publicRoutes cfg) c₁.request = none → Outsider c₁.history → Outsider c₂.history →
    (∀ file₁ file₂, ⟨.outside .readWifiMode, file₁⟩ ∈ c₁.history →
      ⟨.outside .readWifiMode, file₂⟩ ∈ c₂.history → WifiMode.isAp file₁ = WifiMode.isAp file₂) →
    c₁.rest = Prog.lift r₁ → c₂.rest = Prog.lift r₂ → r₁ = r₂
  /-- such a request only reads, and changes nothing -/
  unchanged : ∀ s i e s' c, (machine cfg).Reachable s → step cfg s (.answer i e) = some s' →
    s.connections[i]? = some c → lookup (publicRoutes cfg) c.request = none → Outsider c.history →
    Knocks c.request e.1 ∧ s.Untouched i s'

theorem runs_of_finished {r : Except Error Response} (hr : (machine cfg).Reachable s)
    (hc : c ∈ s.connections) (hrest : c.rest = Prog.lift r) :
    Runs (handleRequest cfg c.request) c.history r := by
  have hsteps := sound_of_reachable hr c hc
  rwa [hrest] at hsteps

theorem steps_of_answered (hs : Sound cfg s) {i : Nat} {e : Event} (h : Answered s i e s')
    (hc : s.connections[i]? = some c) :
    ∃ rest, Steps (handleRequest cfg c.request) (c.history ++ [e]) rest := by
  obtain ⟨c', rest, hc', hrest, -⟩ := h.connection
  obtain rfl := Option.some.inj (hc.symm.trans hc')
  exact ⟨rest, (hs c (List.mem_of_getElem? hc)).append hrest⟩

theorem opens_session {i : Nat} {e : Event} {route : Route} (h : Answered s i e s')
    (hroute : lookup (protectedRoutes cfg) req = some route) (hopens : Opens req route e) :
    s.hasValidSession req = true ∨ s.isApMode = true ∧ route = factoryReset := by
  obtain ⟨u, hu, -⟩ := h.served
  have htells := (serves_of_serve hu).tells
  cases hopens with
  | session hid =>
    have hvalid : true = s.isValid (extractSessionId req) := htells
    exact .inl (by simp [State.hasValidSession, hid, ← hvalid])
  | accessPoint hpath hap =>
    rename_i file
    have hfile : file = s.wifiMode := htells
    subst hfile
    exact .inr ⟨by simpa [State.isApMode] using hap, eq_factoryReset hroute hpath⟩

theorem sees_same {t₁ t₂ : List Event} {ap₁ ap₂ : Except Json.Error Bool} (h₁ : Sees req t₁ ap₁)
    (h₂ : Sees req t₂ ap₂)
    (hmode : ∀ file₁ file₂, ⟨.outside .readWifiMode, file₁⟩ ∈ t₁ →
      ⟨.outside .readWifiMode, file₂⟩ ∈ t₂ → WifiMode.isAp file₁ = WifiMode.isAp file₂) :
    ap₁ = ap₂ := by
  unfold Sees at h₁ h₂
  split at h₁
  · obtain ⟨file₁, hmem₁, rfl⟩ := h₁
    rename_i hpath
    rw [if_pos hpath] at h₂
    obtain ⟨file₂, hmem₂, rfl⟩ := h₂
    exact hmode file₁ file₂ hmem₁ hmem₂
  · rename_i hpath
    rw [if_neg hpath] at h₂
    rw [h₁, h₂]

theorem accessControl (cfg : Config) : AccessControl cfg where
  arrives req route := not_entered_nil
  entered s i e s' c route hstep hc hno hentered := by
    obtain ⟨hroute, hopens⟩ := entered_concat hentered hno
    exact opens_session (answered_of_step hstep) hroute hopens
  resets req file hmethod hpath hap := entered_factoryReset hmethod hpath hap
  created s a s' id hr hstep hnew hin := by
    cases a with
    | answer i e =>
      have hans := answered_of_step hstep
      obtain ⟨u, hu, -, hsessions, -, -⟩ := hans.served
      rw [← hsessions] at hnew hin
      obtain rfl := (serves_of_serve hu).sessions hnew hin
      obtain ⟨c, -, hc, -⟩ := hans.connection
      obtain ⟨rest, hsteps⟩ := steps_of_answered (sound_of_reachable hr) hans hc
      exact ⟨i, c, rfl, hc, authenticated_of_createSession hsteps⟩
    | _ => cases hstep; exact absurd rfl hnew
  apPassword s c resp password hr hc hmode hrest hmember hsecret := by
    have hruns := runs_of_finished hr hc (r := .ok resp) hrest
    rw [handleRequest_connectionMode hmode] at hruns
    exact runs_handleConnectionMode hruns hmember hsecret
  truthful s i e s' hstep := by
    obtain ⟨u, hu, -⟩ := (answered_of_step hstep).served
    exact (serves_of_serve hu).tells
  sameResponse s₁ s₂ c₁ c₂ r₁ r₂ hr₁ hr₂ hc₁ hc₂ hreq hpublic hout₁ hout₂ hmode hrest₁ hrest₂ := by
    have hruns₁ := runs_of_finished hr₁ hc₁ hrest₁
    have hruns₂ := runs_of_finished hr₂ hc₂ hrest₂
    rw [← hreq] at hruns₂
    obtain ⟨ap₁, hsees₁, rfl⟩ := runs_outsider hpublic hout₁ hruns₁
    obtain ⟨ap₂, hsees₂, rfl⟩ := runs_outsider hpublic hout₂ hruns₂
    rw [sees_same hsees₁ hsees₂ hmode]
  unchanged s i e s' c hr hstep hc hpublic hout := by
    have hans := answered_of_step hstep
    obtain ⟨rest, hsteps⟩ := steps_of_answered (sound_of_reachable hr) hans hc
    have hknocks := knocks_of_calls hpublic hout hsteps.calls
    exact ⟨hknocks, untouched_of_answered hans hknocks⟩

end ShareFrame.Dashboard
