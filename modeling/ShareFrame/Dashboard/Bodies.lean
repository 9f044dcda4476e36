import ShareFrame.Dashboard.DashboardServer

/-!
# Requests with a body

Twelve routes read a body. A request to one of them is answered, and a body that it
cannot use is refused without an effect, if and only if the request is not let in or
every field that is read has its type and no other party spoils the handling
(`handleRequest_responds_iff`): only the parse is guarded.
-/

namespace ShareFrame.Dashboard

open HTTPClient Interaction Prog

variable {cfg : Config} {req : Request}

/-! ## The routes -/

inductive BodyRoute where
  | login
  | changePassword
  | control
  | interval
  | nightMode
  | show_
  | customization
  | order
  | connect
  | forget
  | apPassword
  | restartService
  deriving DecidableEq, Repr

namespace BodyRoute

def path : BodyRoute → String
  | login => "/api/auth/login"
  | changePassword => "/api/auth/change-password"
  | control => "/api/frame/slideshow"
  | interval => "/api/frame/slideshow/interval"
  | nightMode => "/api/frame/slideshow/night-mode"
  | show_ => "/api/frame/slideshow/show"
  | customization => "/api/frame/display/customization"
  | order => "/api/frame/slideshow/order"
  | connect => "/api/connection/connect"
  | forget => "/api/connection/forget"
  | apPassword => "/api/connection/ap-password"
  | restartService => "/api/services/restart"

def handler (cfg : Config) : BodyRoute → Request → Handler Response
  | login => handleLogin cfg
  | changePassword => handleChangePassword cfg
  | control => fun req => outside (FrameHandlers.handleControl cfg.parse req)
  | interval => fun req => outside (FrameHandlers.handleUpdateInterval cfg.parse req)
  | nightMode => fun req => outside (FrameHandlers.handleUpdateNightMode cfg.parse req)
  | show_ => fun req => outside (FrameHandlers.handleShow cfg.parse req)
  | customization => fun req => outside (FrameHandlers.handleUpdateCustomization cfg.parse req)
  | order => fun req => outside (SlideshowImageHandlers.handleUpdateOrder cfg.parse req)
  | connect => fun req => outside (WifiHandlers.handleConnect cfg.parse req)
  | forget => fun req => outside (WifiHandlers.handleForget cfg.parse req)
  | apPassword => fun req => outside (WifiHandlers.handleSetApPassword cfg.parse req)
  | restartService => fun req => outside (ServiceHandlers.handleRestart cfg.parse req)

/-- The request goes to the route. -/
def Targets (route : BodyRoute) (req : Request) : Prop := req.method = "POST" ∧ req.path = route.path

/-- Every field that the handler reads is absent or has a type that converts. -/
def Readable : BodyRoute → Json → Prop
  | login, _ | customization, _ => True
  | changePassword, body =>
    body.Reads Json.getString "current_password" ∧ body.Reads Json.getString "new_password"
  | control, body => body.Reads Json.getString "action"
  | interval, body => body.Reads Json.getInt "interval_seconds"
  | nightMode, body =>
    body.Reads Json.getBool "enabled" ∧ body.Reads Json.getInt "start_hour" ∧
      body.Reads Json.getInt "end_hour" ∧ body.Reads Json.getInt "interval_seconds" ∧
      body.Reads Json.getString "style"
  | show_, body => body.isObject = true
  | order, body => body.Reads Json.getString "mode"
  | connect, body => body.Reads Json.getString "ssid" ∧ body.Reads Json.getString "password"
  | forget, body => body.Reads Json.getString "ssid"
  | apPassword, body => body.Reads Json.getString "password"
  | restartService, body => body.Reads Json.getString "service"

end BodyRoute

open Validation

/-- The body holds what the route needs. -/
def BodyRoute.Usable : BodyRoute → Json → Prop
  | .login, body => ∃ text, body.find "otp" = some (.str text) ∨ body.find "password" = some (.str text)
  | .changePassword, body => body.Reads Json.getString "current_password" ∧
    ∃ new, body.value Json.getString "new_password" "" = .ok new ∧ isValidPassword new = true
  | .control, body => ∃ action, body.value Json.getString "action" "" = .ok action ∧
    isValidSlideshowAction action = true
  | .interval, body => ∃ secs, body.value Json.getInt "interval_seconds" 0 = .ok secs ∧
    isValidIntervalSecs secs = true
  | .nightMode, body => body.Reads Json.getBool "enabled" ∧
    ∃ startHour endHour secs style, body.value Json.getInt "start_hour" (-1) = .ok startHour ∧
      body.value Json.getInt "end_hour" (-1) = .ok endHour ∧
      body.value Json.getInt "interval_seconds" 0 = .ok secs ∧
      body.value Json.getString "style" "" = .ok style ∧
      isValidHour startHour = true ∧ isValidHour endHour = true ∧ startHour ≠ endHour ∧
      isValidIntervalSecs secs = true ∧ (nightStyleFromString style).isSome = true
  | .show_, body => ∃ id, (body.find "id").bind parseImageId = some id
  | .customization, body => ∃ flag, body.find "show_sender" = some (.bool flag)
  | .order, body => ∃ mode, body.value Json.getString "mode" "" = .ok mode ∧
    isValidPlaybackMode mode = true ∧
    ∀ order, body.find "custom_order" = some order → (parseCustomOrder order).isSome = true
  | .connect, body => ∃ ssid password, body.value Json.getString "ssid" "" = .ok ssid ∧
    body.value Json.getString "password" "" = .ok password ∧
    isValidSsid ssid = true ∧ isValidPassword password = true
  | .forget, body => ∃ ssid, body.value Json.getString "ssid" "" = .ok ssid ∧
    isValidNetworkName ssid = true
  | .apPassword, body => ∃ password, body.value Json.getString "password" "" = .ok password ∧
    isValidWpaPassphrase password = true
  | .restartService, body => ∃ id, body.value Json.getString "service" "" = .ok id ∧
    ServiceHandlers.isAllowedId id = true

/-! ## What the routes promise -/

/-- A look at the sessions, the throttle or the stored password. Everything else may have an
effect. -/
def Op.isLook : Op → Bool
  | .isValid _ | .retryAfterSecs | .getSetting _ => true
  | _ => false

def Response.isClientError (resp : Response) : Bool := 400 ≤ resp.status && resp.status < 500

/-- There is a response; without a usable body it is an error of the client, and nothing happened. -/
def Responds (usable : Prop) (t : List Event) (r : Except Error Response) : Prop :=
  ∃ resp, r = .ok resp ∧ (¬ usable → resp.isClientError = true ∧ ∀ e ∈ t, e.1.isLook = true)

/-- The reply of the display service to a picture that is to be shown. -/
def ShowReadable (j : Json) : Prop :=
  j.Reads Json.getBool "refreshing" ∧ (j.find "refreshing" ≠ some (.bool true) →
    j.Reads Json.getBool "inactive" ∧ (j.find "inactive" ≠ some (.bool true) →
      j.Reads Json.getBool "found"))

/-- An answer that makes the handler of a route throw. -/
def Spoils (cfg : Config) : Event → Prop
  | ⟨.outside (.sendAndReceive _ msg), reply⟩ =>
    match msg.type with
    | .showImage => ∃ j ∈ reply, ¬ ShowReadable j
    | .getPlaybackOrder => ∃ j ∈ reply, ¬ j.Reads Json.getInt64s "custom_order"
    | _ => False
  | ⟨.authHeaders, headers⟩ => headers = none
  | ⟨.verifyOtp _ _ _, resp⟩ =>
    resp.ok = true ∧ ∃ j ∈ document cfg resp, ¬ j.Reads Json.getBool "valid"
  | ⟨.getSetting _, row⟩ => row = none
  | ⟨.setSetting _ _, done⟩ => done = none
  | ⟨.verify _ _, ok⟩ => ok = none
  | ⟨.hash _, hash⟩ => hash = none
  | _ => False

/-! ## Which answers make an action throw -/

/-- What `Spoils` says about the calls of a `Service`. -/
abbrev SpoilsOutside (cfg : Config) (e : Interaction.Event OutsideAns) : Prop :=
  Spoils cfg (@embedEvent _ _ Ans Op.outside e)

theorem isOk_mapError {α : Type} {x : Except Json.Error α} :
    (x.mapError Error.json).isOk = x.isOk := by
  cases x <;> rfl

theorem showAnswered_isOk {j : Json} :
    (FrameHandlers.showAnswered j).isOk = true ↔ ShowReadable j := by
  have hflag : ∀ {key : String} {flag : Bool}, j.value Json.getBool key false = .ok flag →
      (flag = true ↔ j.find key = some (.bool true)) := fun {key flag} hvalue => by
    rw [← Json.value_true_iff, hvalue]; simp
  simp only [FrameHandlers.showAnswered, ShowReadable, ← Json.value_isOk false]
  refine Json.isOk_bind fun refreshing hrefreshing => ?_
  cases refreshing with
  | true => exact iff_of_true rfl fun hno => absurd ((hflag hrefreshing).mp rfl) hno
  | false =>
    have hno : j.find "refreshing" ≠ some (.bool true) := fun h => nomatch (hflag hrefreshing).mpr h
    refine Iff.trans (Json.isOk_bind fun inactive hinactive => ?_) (imp_iff_right hno).symm
    cases inactive with
    | true => exact iff_of_true rfl fun hno => absurd ((hflag hinactive).mp rfl) hno
    | false =>
      have hno : j.find "inactive" ≠ some (.bool true) := fun h => nomatch (hflag hinactive).mpr h
      refine Iff.trans (Iff.trans (Json.isOk_bind (p := True) fun _ _ => iff_of_true rfl trivial)
        (and_iff_left trivial)) (imp_iff_right hno).symm

theorem throwsOn_call {op : Outside} (h : ∀ a, ¬ SpoilsOutside cfg ⟨op, a⟩) :
    ThrowsOn (SpoilsOutside cfg) (Service.call op) := .ask h

theorem throwsOn_forward {type : IpcMessageType} {data response : Json} :
    ThrowsOn (SpoilsOutside cfg) (FrameHandlers.forward type data response) :=
  .bind (throwsOn_call fun _ => id) fun _ => .pure

theorem throwsOn_showImage {id : Int} : ThrowsOn (SpoilsOutside cfg) (FrameHandlers.showImage id) := by
  refine .ask_bind (fun reply hbad => ?_) fun reply hgood => ?_
  · obtain ⟨j, rfl, hj⟩ := hbad
    exact lift_eq_throw (by rw [isOk_mapError]; exact Bool.eq_false_iff.mpr (mt showAnswered_isOk.mp hj))
  · cases reply with
    | none => exact .pure
    | some j =>
      have hj : ShowReadable j := by_contra fun hj => hgood ⟨j, rfl, hj⟩
      exact .lift (by rw [isOk_mapError]; exact showAnswered_isOk.mpr hj)

theorem throwsOn_updateOrder {args : SlideshowImageHandlers.OrderArgs} :
    ThrowsOn (SpoilsOutside cfg) (SlideshowImageHandlers.updateOrder args) := by
  refine .bind ?_ fun _ => throwsOn_forward
  unfold SlideshowImageHandlers.orderToSet
  cases args.customOrder with
  | some customOrder => exact .pure
  | none =>
    refine .ask_bind (fun reply hbad => ?_) fun reply hgood => ?_
    · obtain ⟨j, rfl, hj⟩ := hbad
      exact lift_eq_throw (by
        rw [isOk_mapError]; exact Bool.eq_false_iff.mpr (mt (Json.value_isOk []).mp hj))
    · cases reply with
      | none => exact .pure
      | some j =>
        have hj : j.Reads Json.getInt64s "custom_order" := by_contra fun hj => hgood ⟨j, rfl, hj⟩
        exact .lift (by rw [isOk_mapError]; exact (Json.value_isOk []).mpr hj)

/-- The Wi-Fi manager answers with a message or with the text of an error. -/
def Said (j : Json) : Prop := ∃ message, j = WifiManager.error message ∨ j = WifiManager.done message

theorem said_ite {c : Prop} [Decidable c] {failure success : String} :
    Said (if c then WifiManager.error failure else WifiManager.done success) := by
  split
  exacts [⟨_, .inl rfl⟩, ⟨_, .inr rfl⟩]

theorem throwsOn_answer {p : Service Json} (hp : ThrowsOn (SpoilsOutside cfg) p)
    (hsaid : ∀ t j, Runs p t (.ok j) → Said j) :
    ThrowsOn (SpoilsOutside cfg) (WifiHandlers.answer p) := by
  refine .bind_of hp hsaid fun j hj => ?_
  obtain ⟨message, rfl | rfl⟩ := hj <;> exact .pure

/-- A command, and what its exit code means. -/
theorem throwsOn_command {args : List String} {secs : Nat} {β : Type}
    {f : RemoteCommand.SubprocessResult → β} :
    ThrowsOn (SpoilsOutside cfg) (Service.run args secs >>= fun result => .pure (f result)) :=
  .bind (throwsOn_call fun _ => id) fun _ => .pure

theorem runs_command {args : List String} {secs : Nat} {β : Type}
    {f : RemoteCommand.SubprocessResult → β} {t : List (Interaction.Event OutsideAns)} {b : β}
    (h : Runs (Service.run args secs >>= fun result => .pure (f result)) t (.ok b)) :
    ∃ result, b = f result := by
  obtain ⟨result, t', -, h⟩ := runs_ask_bind.mp h
  obtain ⟨-, h⟩ := runs_pure.mp h
  exact ⟨result, Except.ok.inj h⟩

theorem throwsOn_connect {args : WifiHandlers.ConnectArgs} : ThrowsOn (SpoilsOutside cfg)
    (WifiHandlers.answer (WifiManager.connect args.ssid args.password)) := by
  unfold WifiManager.connect
  split
  · exact throwsOn_answer .pure fun t j h => ⟨_, .inl (Except.ok.inj (runs_pure.mp h).2)⟩
  · refine throwsOn_answer throwsOn_command fun t j h => ?_
    obtain ⟨result, rfl⟩ := runs_command h
    exact said_ite

theorem throwsOn_setApPassword {password : String} : ThrowsOn (SpoilsOutside cfg)
    (WifiHandlers.answer (WifiManager.setApPassword password)) := by
  refine throwsOn_answer throwsOn_command fun t j h => ?_
  obtain ⟨result, rfl⟩ := runs_command h
  exact said_ite

/-- The connection has a name that can be read, or none. -/
theorem currentConnection_reads (result : RemoteCommand.SubprocessResult) :
    ((WifiManager.currentConnection result).value Json.getString "connection_name" "").isOk = true := by
  unfold WifiManager.currentConnection
  split
  · rfl
  · dsimp only
    split <;> rfl

theorem throwsOn_forget {ssid : String} : ThrowsOn (SpoilsOutside cfg)
    (WifiHandlers.answer (WifiManager.forget ssid)) := by
  unfold WifiManager.forget
  split
  · exact throwsOn_answer .pure fun t j h => ⟨_, .inl (Except.ok.inj (runs_pure.mp h).2)⟩
  refine throwsOn_answer ?_ fun t j h => ?_
  · refine .bind_of throwsOn_command (fun t current h => runs_command h) fun current h => ?_
    obtain ⟨result, rfl⟩ := h
    refine .lift_bind (by rw [isOk_mapError]; exact currentConnection_reads result) fun name _ => ?_
    split
    exacts [.pure, throwsOn_command]
  · rcases runs_bind.mp h with ⟨e, he, -⟩ | ⟨current, t₁, t₂, rfl, -, h⟩
    · cases he
    rcases runs_bind.mp h with ⟨e, he, -⟩ | ⟨name, t₃, t₄, rfl, -, h⟩
    · cases he
    split at h
    · exact ⟨_, .inl (Except.ok.inj (runs_pure.mp h).2)⟩
    · obtain ⟨result, rfl⟩ := runs_command h
      exact said_ite

theorem throwsOn_ask {op : Op} (h : ∀ a, ¬ Spoils cfg ⟨op, a⟩) : ThrowsOn (Spoils cfg) (ask op) := .ask h

theorem throwsOn_storedHash : ThrowsOn (Spoils cfg) storedHash := by
  refine .ask_bind (fun row hbad => ⟨.database, by rw [show row = none from hbad]; rfl⟩)
    fun row hgood => ?_
  cases row with
  | none => exact absurd rfl hgood
  | some _ => exact .pure

theorem throwsOn_verify {password : String} :
    ThrowsOn (Spoils cfg) (verifyDashboardPassword cfg password) := by
  have hinitial : ThrowsOn (Spoils cfg) (verifyInitial cfg password) := by
    unfold verifyInitial
    split
    exacts [.pure, throwsOn_ask fun _ => id]
  refine .bind throwsOn_storedHash fun stored => ?_
  cases stored with
  | none => exact hinitial
  | some stored =>
    dsimp only
    split
    · refine .ask_bind (fun ok hbad => ⟨.crypto, by rw [show ok = none from hbad]; rfl⟩)
        fun ok hgood => ?_
      cases ok with
      | none => exact absurd rfl hgood
      | some _ => exact .pure
    · exact hinitial

theorem throwsOn_configured : ThrowsOn (Spoils cfg) (isPasswordLoginConfigured cfg) :=
  .bind throwsOn_storedHash fun _ => .pure

theorem throwsOn_failed {message : String} : ThrowsOn (Spoils cfg) (failed message) :=
  .bind (throwsOn_ask fun _ => id) fun _ => .bind (throwsOn_ask fun _ => id) fun _ => .pure

theorem throwsOn_session : ThrowsOn (Spoils cfg) sessionLoginResponse :=
  .bind (throwsOn_ask fun _ => id) fun _ => .pure

theorem throwsOn_passwordLogin {password : String} :
    ThrowsOn (Spoils cfg) (handlePasswordLogin cfg password) := by
  refine .bind (throwsOn_ask fun _ => id) fun wait => ?_
  split
  · exact .pure
  refine .bind throwsOn_configured fun configured => ?_
  split
  · exact .pure
  refine .bind throwsOn_verify fun ok => ?_
  split
  exacts [throwsOn_failed, .bind (throwsOn_ask fun _ => id) fun _ => throwsOn_session]

theorem throwsOn_storePassword {new : String} : ThrowsOn (Spoils cfg) (storePassword new) := by
  refine .ask_bind (fun hash hbad => ⟨.crypto, by rw [show hash = none from hbad]; rfl⟩)
    fun hash hgood => ?_
  cases hash with
  | none => exact absurd rfl hgood
  | some hash =>
    refine .ask_bind (fun done hbad => ⟨.database, by rw [show done = none from hbad]; rfl⟩)
      fun done hgood => ?_
    cases done with
    | none => exact absurd rfl hgood
    | some _ => exact .pure

theorem throwsOn_changePassword {args : ChangeArgs} :
    ThrowsOn (Spoils cfg) (changePassword cfg args) := by
  refine .bind (throwsOn_ask fun _ => id) fun wait => ?_
  split
  · exact .pure
  refine .bind throwsOn_configured fun configured => ?_
  split
  · exact .pure
  split
  · exact .pure
  refine .bind throwsOn_verify fun ok => ?_
  split
  exacts [throwsOn_failed, .bind (throwsOn_ask fun _ => id) fun _ => throwsOn_storePassword]

theorem throwsOn_otpLogin {otp : String} : ThrowsOn (Spoils cfg) (otpLogin cfg otp) := by
  refine .ask_bind (fun headers hbad => ⟨.database, by rw [show headers = none from hbad]; rfl⟩)
    fun headers hgood => ?_
  cases headers with
  | none => exact absurd rfl hgood
  | some token =>
    refine .ask_bind (fun resp hbad => ?_) fun resp hgood => ?_
    · obtain ⟨hok, j, hj, hno⟩ := hbad
      obtain ⟨e, he⟩ := lift_bind_eq_throw (f := fun valid : Bool => if !valid then
        .pure (unauthorized "OTP invalid") else sessionLoginResponse)
        (isOk_mapError.trans (Bool.eq_false_iff.mpr (mt (Json.value_isOk false).mp hno)))
      have hdoc : document cfg resp = some j := hj
      exact ⟨e, by rw [← he]; simp only [otpReplied, hok, hdoc]; rfl⟩
    · unfold otpReplied
      split
      · exact .pure
      · rename_i hok
        split
        · exact .pure
        · rename_i j hj
          have hreads : j.Reads Json.getBool "valid" :=
            by_contra fun hno => hgood ⟨by simpa using hok, j, hj, hno⟩
          refine .lift_bind (isOk_mapError.trans ((Json.value_isOk false).mpr hreads)) fun valid _ => ?_
          split
          exacts [.pure, throwsOn_session]

theorem throwsOn_login {credential : Credential} : ThrowsOn (Spoils cfg) (login cfg credential) := by
  cases credential with
  | otp otp => exact throwsOn_otpLogin
  | password password => exact throwsOn_passwordLogin

/-! ## One handler -/

/-- The calls are looks, whatever is answered. -/
def looking : Discipline Ans Unit where
  permits _ op := op.isLook = true
  next _ _ := ()

theorem looks_events {α : Type} {p : Handler α} {Q : α → Unit → Prop} (h : looking.Keeps p Q ())
    {t : List Event} {q : Handler α} (hs : Steps p t q) : ∀ e ∈ t, e.1.isLook = true := by
  induction hs with
  | nil => exact fun e he => absurd he List.not_mem_nil
  | cons _ ih =>
    intro e he
    rcases List.mem_cons.mp he with rfl | he
    · exact h.1
    · exact ih (h.2 _) e he

/-- Without a valid new password nothing but looks happens. -/
theorem looks_changePassword {args : ChangeArgs} (h : isValidPassword args.new = false) :
    looking.Keeps (changePassword cfg args) (fun resp _ => resp.isClientError = true) () := by
  refine Discipline.keeps_bind.mpr (Discipline.keeps_ask.mpr ⟨rfl, fun wait => ?_⟩)
  split
  · rfl
  refine Discipline.keeps_bind.mpr (Discipline.keeps_bind.mpr ?_)
  refine Discipline.keeps_bind.mpr (Discipline.keeps_ask.mpr ⟨rfl, fun row => ?_⟩)
  cases row with
  | none => trivial
  | some stored =>
    show looking.Keeps (if _ then _ else _) _ _
    split
    · rfl
    · rw [h]; rfl

/-- The body is JSON and holds what the route needs. -/
def UsableBody (cfg : Config) (req : Request) (usable : Json → Prop) : Prop :=
  ∃ body, cfg.parse req.body = some body ∧ usable body

theorem responds_refused {usable : Prop} {message : String} {t : List Event}
    {r : Except Error Response} (h : Runs (.pure (badRequest message)) t r) :
    Responds usable t r ∧ ∀ e ∈ t, ¬ Spoils cfg e := by
  obtain ⟨rfl, rfl⟩ := runs_pure.mp h
  exact ⟨⟨_, rfl, fun _ => ⟨rfl, fun e he => absurd he List.not_mem_nil⟩⟩,
    fun e he => absurd he List.not_mem_nil⟩

/-- An action that only looks where the body is not usable. -/
theorem responds_action {usable : Prop} {p : Handler Response} (hthrows : ThrowsOn (Spoils cfg) p)
    (hlooks : ¬ usable → looking.Keeps p (fun resp _ => resp.isClientError = true) ())
    {t : List Event} {r : Except Error Response} (h : Runs p t r) :
    Responds usable t r ↔ ∀ e ∈ t, ¬ Spoils cfg e := by
  have hiff := hthrows t r h
  cases r with
  | error e =>
    obtain ⟨x, hx, hbad⟩ := hiff.mp ⟨e, rfl⟩
    exact iff_of_false (fun ⟨_, hok, _⟩ => (nomatch hok)) fun hsound => hsound x hx hbad
  | ok resp =>
    refine iff_of_true ⟨resp, rfl, fun hno => ?_⟩ fun x hx hbad => ?_
    · exact ⟨(hlooks hno).runs h, looks_events (hlooks hno) h⟩
    · obtain ⟨_, herr⟩ := hiff.mpr ⟨x, hx, hbad⟩
      cases herr

theorem responds_bodyHandler {Args : Type} {read : Json → Except Json.Error (Checked Args)}
    {act : Args → Handler Response} {usable readable : Json → Prop}
    (hread : ∀ body, (read body).isOk = true ↔ readable body)
    (hthrows : ∀ args, ThrowsOn (Spoils cfg) (act args))
    (hlooks : ∀ body args, read body = .ok (.accepted args) → ¬ usable body →
      looking.Keeps (act args) (fun resp _ => resp.isClientError = true) ())
    {t : List Event} {r : Except Error Response} (h : Runs (bodyHandler cfg.parse read act req) t r) :
    Responds (UsableBody cfg req usable) t r ↔
      (∀ body, cfg.parse req.body = some body → readable body) ∧ ∀ e ∈ t, ¬ Spoils cfg e := by
  unfold bodyHandler at h
  cases hparse : cfg.parse req.body with
  | none =>
    rw [hparse] at h
    obtain ⟨hresponds, hsound⟩ := responds_refused h
    exact iff_of_true hresponds ⟨nofun, hsound⟩
  | some body =>
    rw [hparse] at h
    have h : Runs (answerBody read act body) t r := h
    simp only [Option.some.injEq, forall_eq', ← hread]
    unfold answerBody at h
    cases hbody : read body with
    | error e =>
      rw [hbody] at h
      obtain ⟨rfl, rfl⟩ := runs_throw.mp h
      exact iff_of_false (fun ⟨_, he, _⟩ => (nomatch he)) fun hok => (nomatch hok.1)
    | ok checked =>
      rw [hbody] at h
      refine Iff.trans ?_ (and_iff_right rfl).symm
      cases checked with
      | refused message =>
        have hrefused : Responds (UsableBody cfg req usable) t r ∧ ∀ e ∈ t, ¬ Spoils cfg e := responds_refused h
        exact iff_of_true hrefused.1 hrefused.2
      | accepted args =>
        have h : Runs (act args) t r := h
        exact responds_action (hthrows args) (fun hno => hlooks body args hbody fun huse =>
          hno ⟨body, hparse, huse⟩) h

/-- A handler over the services is one over all operations. -/
theorem outside_bodyHandler {Args : Type} {read : Json → Except Json.Error (Checked Args)}
    {act : Args → Service Response} :
    outside (bodyHandler cfg.parse read act req) =
      bodyHandler cfg.parse read (fun args => outside (act args)) req := by
  unfold bodyHandler
  cases cfg.parse req.body with
  | none => rfl
  | some body =>
    show outside (answerBody read act body) = answerBody read (fun args => outside (act args)) body
    unfold answerBody
    cases read body with
    | error e => rfl
    | ok checked => cases checked <;> rfl

/-- A handler over the services whose accepted bodies are usable. -/
theorem responds_outside {Args : Type} {read : Json → Except Json.Error (Checked Args)}
    {act : Args → Service Response} {usable readable : Json → Prop}
    (hread : ∀ body, (read body).isOk = true ↔ readable body)
    (hthrows : ∀ args, ThrowsOn (SpoilsOutside cfg) (act args))
    (husable : ∀ body args, read body = .ok (.accepted args) → usable body)
    {t : List Event} {r : Except Error Response}
    (h : Runs (outside (bodyHandler cfg.parse read act req)) t r) :
    Responds (UsableBody cfg req usable) t r ↔
      (∀ body, cfg.parse req.body = some body → readable body) ∧ ∀ e ∈ t, ¬ Spoils cfg e := by
  rw [outside_bodyHandler] at h
  exact responds_bodyHandler hread (fun args => .embed (hthrows args))
    (fun body args haccepted hno => absurd (husable body args haccepted) hno) h

/-! ## Each handler -/

/-- A handler that reads one field. -/
theorem isOk_field {α Args : Type} {get : Json → Except Json.Error α} {key : String} {dflt : α}
    {check : α → Checked Args} {body : Json} :
    (do let field ← body.value get key dflt; pure (check field) : Except Json.Error _).isOk = true ↔
      body.Reads get key :=
  (Json.isOk_read fun _ => iff_of_true rfl trivial).trans (and_iff_left trivial)

theorem accepted_field {α Args : Type} {get : Json → Except Json.Error α} {key : String} {dflt : α}
    {check : α → Checked Args} {body : Json} {args : Args}
    (h : (do let field ← body.value get key dflt; pure (check field) : Except Json.Error _) =
      .ok (.accepted args)) :
    ∃ field, body.value get key dflt = .ok field ∧ check field = .accepted args := by
  obtain ⟨field, hfield, hcheck⟩ := Json.eq_ok_of_bind h
  exact ⟨field, hfield, Except.ok.inj hcheck⟩

theorem valid_of_require {Args : Type} {valid : Bool} {message : String} {args args' : Args}
    (h : require valid message args = .accepted args') : valid = true := by
  cases valid with
  | true => rfl
  | false => cases h

theorem nightMode_isOk {body : Json} :
    (FrameHandlers.readNightMode body).isOk = true ↔ BodyRoute.nightMode.Readable body :=
  Json.isOk_read fun _ => Json.isOk_read fun _ => Json.isOk_read fun _ => Json.isOk_read fun _ =>
    isOk_field

theorem change_isOk {body : Json} :
    (readChange body).isOk = true ↔ BodyRoute.changePassword.Readable body :=
  Json.isOk_read fun _ => isOk_field

theorem connect_isOk {body : Json} :
    (WifiHandlers.readConnect body).isOk = true ↔ BodyRoute.connect.Readable body :=
  Json.isOk_read fun _ => isOk_field

theorem order_isOk {body : Json} :
    (SlideshowImageHandlers.readOrder body).isOk = true ↔ BodyRoute.order.Readable body := by
  refine (Json.isOk_read fun mode => iff_of_true ?_ trivial).trans (and_iff_left trivial)
  split <;> rfl

theorem usable_nightMode {body : Json} {args : FrameHandlers.NightArgs}
    (h : FrameHandlers.readNightMode body = .ok (.accepted args)) :
    BodyRoute.nightMode.Usable body := by
  obtain ⟨enabled, henabled, h⟩ := Json.eq_ok_of_bind h
  obtain ⟨startHour, hstart, h⟩ := Json.eq_ok_of_bind h
  obtain ⟨endHour, hend, h⟩ := Json.eq_ok_of_bind h
  obtain ⟨secs, hsecs, h⟩ := Json.eq_ok_of_bind h
  obtain ⟨style, hstyle, h⟩ := accepted_field h
  refine ⟨(Json.value_isOk false).mp (by rw [henabled]; rfl),
    startHour, endHour, secs, style, hstart, hend, hsecs, hstyle, ?_⟩
  unfold FrameHandlers.checkNightMode at h
  split at h
  · cases h
  rename_i hours
  split at h
  · cases h
  rename_i hdiffer
  split at h
  · cases h
  rename_i hvalid
  split at h
  · cases h
  rename_i hnamed
  have hhours : isValidHour startHour = true ∧ isValidHour endHour = true := by simpa using hours
  exact ⟨hhours.1, hhours.2, hdiffer, by simpa using hvalid, by simpa [Option.isSome_iff_ne_none] using hnamed⟩

theorem usable_show {body id : Json} {args : Int} (hvalue : body.value .ok "id" .null = .ok id)
    (h : (match parseImageId id with
      | none => .refused "id must be a positive integer"
      | some id => .accepted id) = Checked.accepted args) : BodyRoute.show_.Usable body := by
  cases hid : parseImageId id with
  | none => rw [hid] at h; cases h
  | some n =>
    refine ⟨n, ?_⟩
    cases body with
    | obj members =>
      simp only [Json.value] at hvalue
      cases hmember : members.lookup "id" with
      | none => rw [hmember] at hvalue; cases hvalue; cases hid
      | some member =>
        rw [hmember] at hvalue
        cases hvalue
        rw [Json.find, hmember, Option.bind_some, hid]
    | _ => cases hvalue

theorem usable_order {body : Json} {args : SlideshowImageHandlers.OrderArgs}
    (h : SlideshowImageHandlers.readOrder body = .ok (.accepted args)) :
    BodyRoute.order.Usable body := by
  obtain ⟨mode, hmode, h⟩ := Json.eq_ok_of_bind h
  split at h
  · cases h
  rename_i hvalid
  refine ⟨mode, hmode, by simpa using hvalid, fun order horder => ?_⟩
  have h := Except.ok.inj h
  cases hparse : parseCustomOrder order with
  | none => simp only [horder, hparse] at h; cases h
  | some ids => rfl

theorem usable_connect {body : Json} {args : WifiHandlers.ConnectArgs}
    (h : WifiHandlers.readConnect body = .ok (.accepted args)) : BodyRoute.connect.Usable body := by
  obtain ⟨ssid, hssid, h⟩ := Json.eq_ok_of_bind h
  obtain ⟨password, hpassword, h⟩ := accepted_field h
  unfold WifiHandlers.checkConnect at h
  split at h
  · cases h
  split at h
  · cases h
  exact ⟨ssid, password, hssid, hpassword, by simp_all, by simp_all⟩

/-- A new password that is not valid is found behind the throttle. -/
theorem looks_of_unusable {body : Json} {args : ChangeArgs}
    (h : readChange body = .ok (.accepted args)) (hno : ¬ BodyRoute.changePassword.Usable body) :
    looking.Keeps (changePassword cfg args) (fun resp _ => resp.isClientError = true) () := by
  obtain ⟨current, hcurrent, h⟩ := Json.eq_ok_of_bind h
  obtain ⟨new, hnew, h⟩ := accepted_field h
  cases h
  refine looks_changePassword (Bool.eq_false_iff.mpr fun hvalid => hno ⟨?_, new, hnew, hvalid⟩)
  exact (Json.value_isOk "").mp (by rw [hcurrent]; rfl)

theorem responds_handler {route : BodyRoute} {t : List Event} {r : Except Error Response}
    (h : Runs (route.handler cfg req) t r) :
    Responds (UsableBody cfg req route.Usable) t r ↔
      (∀ body, cfg.parse req.body = some body → route.Readable body) ∧ ∀ e ∈ t, ¬ Spoils cfg e := by
  cases route with
  | login =>
    refine responds_bodyHandler (fun body => iff_of_true ?_ trivial) (fun _ => throwsOn_login)
      (fun body credential haccepted hno => ?_) h
    · unfold readLogin
      split
      · rfl
      · split <;> rfl
    · refine absurd ?_ hno
      unfold readLogin at haccepted
      split at haccepted
      · rename_i otp hotp
        exact ⟨otp, .inl hotp⟩
      · split at haccepted
        · rename_i password hpassword
          exact ⟨password, .inr hpassword⟩
        · cases haccepted
  | changePassword =>
    exact responds_bodyHandler (fun body => change_isOk) (fun _ => throwsOn_changePassword)
      (fun body args => looks_of_unusable) h
  | control =>
    refine responds_outside (fun body => isOk_field) (fun _ => throwsOn_forward)
      (fun body args haccepted => ?_) h
    obtain ⟨action, hvalue, hcheck⟩ := accepted_field haccepted
    exact ⟨action, hvalue, valid_of_require hcheck⟩
  | interval =>
    refine responds_outside (fun body => isOk_field) (fun _ => throwsOn_forward)
      (fun body args haccepted => ?_) h
    obtain ⟨secs, hvalue, hcheck⟩ := accepted_field haccepted
    exact ⟨secs, hvalue, valid_of_require hcheck⟩
  | nightMode =>
    exact responds_outside (fun body => nightMode_isOk) (fun _ => throwsOn_forward)
      (fun body args => usable_nightMode) h
  | show_ =>
    refine responds_outside (fun body => ?_) (fun _ => throwsOn_showImage)
      (fun body args haccepted => ?_) h
    · refine isOk_field.trans ⟨fun hr => hr.1, fun hobj => ⟨hobj, fun _ _ => rfl⟩⟩
    · obtain ⟨id, hvalue, hcheck⟩ := accepted_field haccepted
      exact usable_show hvalue hcheck
  | customization =>
    refine responds_outside (fun body => iff_of_true ?_ trivial) (fun _ => throwsOn_forward)
      (fun body args haccepted => ?_) h
    · unfold FrameHandlers.readCustomization
      split <;> rfl
    · unfold FrameHandlers.readCustomization at haccepted
      split at haccepted
      · rename_i flag hflag
        exact ⟨flag, hflag⟩
      · cases haccepted
  | order =>
    exact responds_outside (fun body => order_isOk) (fun _ => throwsOn_updateOrder)
      (fun body args => usable_order) h
  | connect =>
    exact responds_outside (fun body => connect_isOk) (fun _ => throwsOn_connect)
      (fun body args => usable_connect) h
  | forget =>
    refine responds_outside (fun body => isOk_field) (fun _ => throwsOn_forget)
      (fun body args haccepted => ?_) h
    obtain ⟨ssid, hvalue, hcheck⟩ := accepted_field haccepted
    exact ⟨ssid, hvalue, valid_of_require hcheck⟩
  | apPassword =>
    refine responds_outside (fun body => isOk_field) (fun _ => throwsOn_setApPassword)
      (fun body args haccepted => ?_) h
    obtain ⟨password, hvalue, hcheck⟩ := accepted_field haccepted
    exact ⟨password, hvalue, valid_of_require hcheck⟩
  | restartService =>
    refine responds_outside (fun body => isOk_field) (fun _ => throwsOn_command)
      (fun body args haccepted => ?_) h
    obtain ⟨id, hvalue, hcheck⟩ := accepted_field haccepted
    exact ⟨id, hvalue, valid_of_require hcheck⟩

/-! ## Each request -/

/-- Only the method and the path decide where a request goes. -/
theorem lookup_eq {routes : List Route} {method path : String} (hmethod : req.method = method)
    (hpath : req.path = path) :
    lookup routes req = routes.find? fun route => method = route.method && path = route.path := by
  rw [lookup, hmethod, hpath]

theorem lookup_public {route : BodyRoute} (h : route.Targets req) (hne : route ≠ .login) :
    lookup (publicRoutes cfg) req = none := by
  rw [lookup_eq h.1 h.2]
  cases route with
  | login => exact absurd rfl hne
  | _ => rfl

theorem lookup_login (h : BodyRoute.login.Targets req) : lookup (publicRoutes cfg) req =
    some (.ofBody "POST" "/api/auth/login" (handleLogin cfg)) := by
  rw [lookup_eq h.1 h.2]
  rfl

theorem lookup_protected {route : BodyRoute} (h : route.Targets req) (hne : route ≠ .login) :
    lookup (protectedRoutes cfg) req = some (.ofBody "POST" route.path (route.handler cfg)) := by
  rw [lookup_eq h.1 h.2]
  cases route with
  | login => exact absurd rfl hne
  | _ => rfl

/-- A request to a route behind the login is denied, or it has a session and the handler runs. -/
theorem runs_protected {route : BodyRoute} (hreq : route.Targets req) (hne : route ≠ .login)
    {t : List Event} {r : Except Error Response} (h : Runs (handleRequest cfg req) t r) :
    (r = .ok authenticationRequired ∧ ∀ e ∈ t, e = ⟨.isValid (extractSessionId req), false⟩) ∨
      ∃ t', t = ⟨.isValid (extractSessionId req), true⟩ :: t' ∧ Runs (route.handler cfg req) t' r := by
  have hpath : req.path ≠ "/api/system/factory-reset" := by
    rw [hreq.2]
    cases route <;> decide
  have hrun : admission cfg req = hasValidSession req >>= fun valid =>
      .pure (if valid then admitted cfg req else .denied) := by
    unfold admission apBypass
    rw [lookup_public hreq hne, if_neg hpath]
    rfl
  have hadmitted : dispatch req (admitted cfg req) = route.handler cfg req := by
    unfold admitted
    rw [lookup_protected hreq hne]
    rfl
  unfold handleRequest at h
  rw [hrun] at h
  unfold hasValidSession at h
  split at h
  · obtain ⟨rfl, rfl⟩ := runs_pure.mp (show Runs (.pure authenticationRequired) t r from h)
    exact .inl ⟨rfl, fun e he => absurd he List.not_mem_nil⟩
  · obtain ⟨valid, t', rfl, hrest⟩ := runs_ask_bind.mp (show Runs (ask (.isValid _) >>= fun valid : Bool =>
      dispatch req (if valid then admitted cfg req else .denied)) t r from h)
    cases valid with
    | false =>
      obtain ⟨rfl, rfl⟩ := runs_pure.mp (show Runs (.pure authenticationRequired) t' r from hrest)
      exact .inl ⟨rfl, fun e he => List.mem_singleton.mp he⟩
    | true =>
      rw [if_pos rfl, hadmitted] at hrest
      exact .inr ⟨t', rfl, hrest⟩

/-- The login is open to everyone, the other routes take a session. -/
def LetIn (route : BodyRoute) (req : Request) (t : List Event) : Prop :=
  route = .login ∨ (⟨.isValid (extractSessionId req), true⟩ : Event) ∈ t

/-- A request to a route with a body is answered, and refused without an effect where the body is
not usable, if and only if it is not let in or the fields of its body and all answers can be
read. -/
theorem handleRequest_responds_iff {route : BodyRoute} (hreq : route.Targets req) {t : List Event}
    {r : Except Error Response} (h : Runs (handleRequest cfg req) t r) :
    Responds (UsableBody cfg req route.Usable) t r ↔ (LetIn route req t →
      (∀ body, cfg.parse req.body = some body → route.Readable body) ∧ ∀ e ∈ t, ¬ Spoils cfg e) := by
  by_cases hlogin : route = .login
  · subst hlogin
    rw [imp_iff_right (.inl rfl)]
    unfold handleRequest admission at h
    rw [lookup_login hreq] at h
    have h : Runs (BodyRoute.login.handler cfg req) t r := h
    exact responds_handler h
  rcases runs_protected hreq hlogin h with ⟨rfl, hdenied⟩ | ⟨t', rfl, hrun⟩
  · refine iff_of_true ⟨_, rfl, fun _ => ⟨rfl, fun e he => by rw [hdenied e he]; rfl⟩⟩ fun hlet => ?_
    rcases hlet with hlet | hlet
    · exact absurd hlet hlogin
    · cases hdenied _ hlet
  · rw [imp_iff_right (.inr List.mem_cons_self)]
    have hresponds : Responds (UsableBody cfg req route.Usable)
        (⟨.isValid (extractSessionId req), true⟩ :: t') r ↔
          Responds (UsableBody cfg req route.Usable) t' r := by
      simp only [Responds, List.forall_mem_cons, Op.isLook, true_and]
    rw [hresponds, responds_handler hrun, List.forall_mem_cons]
    exact and_congr_right fun _ => (and_iff_right id).symm

/-! ## Two requests -/

/-- An object with the action `start`. -/
def startText : String := "\x7b\"action\":\"start\"\x7d"

/-- A frame whose parser knows the bodies of the two requests. -/
def board : Config where
  parse text :=
    if text = "[]".toUTF8.toList then some (.arr [])
    else if text = startText.toUTF8.toList then some (.obj [("action", .str "start")])
    else none
  decode _ := none
  initialPassword := ""
  verifyOtpUrl := ""
  display := {}
  system := { frameId := "", version := "", appSha := "", diagnostics := ⟨"", ""⟩ }

/-- A request of somebody who is logged in. -/
def slideshowRequest (text : String) : Request where
  method := "POST"
  uri := "/api/frame/slideshow"
  cookie := some "session=7f"
  body := text.toUTF8.toList

def startRun : List Event :=
  [⟨.isValid "7f", true⟩,
    ⟨.outside (.send .display ⟨.setSlideshowActive, .obj [("active", .bool true)]⟩), true⟩]

theorem handleRequest_responds_iff_start :
    Responds (UsableBody board (slideshowRequest startText) BodyRoute.control.Usable) startRun
      (.ok (jsonResponse 200 "OK" (.obj [("action", .str "start")]))) := by
  have hrun : Runs (handleRequest board (slideshowRequest startText)) startRun
      (.ok (jsonResponse 200 "OK" (.obj [("action", .str "start")]))) :=
    runs_iff_follow.mpr (by decide +kernel)
  have hreq : BodyRoute.control.Targets (slideshowRequest startText) := ⟨rfl, by decide +kernel⟩
  refine (handleRequest_responds_iff hreq hrun).mpr fun _ => ⟨fun body hbody => ?_, fun e he => ?_⟩
  · rw [show board.parse (slideshowRequest startText).body = some (.obj [("action", .str "start")]) by
      decide +kernel] at hbody
    cases hbody
    exact (by decide : Json.Reads Json.getString (.obj [("action", .str "start")]) "action")
  · simp only [startRun, List.mem_cons, List.not_mem_nil, or_false] at he
    rcases he with rfl | rfl <;> exact id

/-- The body `[]` is JSON, but not an object: a `type_error` leaves the handler, and there is no
response. -/
theorem not_responds_array :
    BodyRoute.control.Targets (slideshowRequest "[]") ∧
    ∃ r, Runs (handleRequest board (slideshowRequest "[]")) [⟨.isValid "7f", true⟩] r ∧
      ¬ Responds (UsableBody board (slideshowRequest "[]") BodyRoute.control.Usable)
        [⟨.isValid "7f", true⟩] r :=
  ⟨⟨rfl, by decide +kernel⟩, .error (.json .typeError), runs_iff_follow.mpr (by decide +kernel),
    fun ⟨_, hok, _⟩ => (nomatch hok)⟩

end ShareFrame.Dashboard
