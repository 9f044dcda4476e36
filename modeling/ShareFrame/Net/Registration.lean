import Mathlib.Data.List.Induction
import ShareFrame.Display.RegistrationWindow

/-!
# Reports of an unregistered frame

The websocket client reports on `FRAME_REGISTRATION` that the server refuses the
frame because nobody owns it, and later that it has taken the frame; the display
shows its registration screen by these reports. A callback carries what the token
manager answers if the callback asks it.
-/

namespace ShareFrame.Registration

abbrev kMaxReconnectWaitMs : Nat := 180000
abbrev kUnregisteredMaxReconnectWaitMs : Nat := 30000
abbrev kTokenRefreshThreshold : Int := 5

abbrev CLOSE_AUTH_REJECTED : Int := 4001
abbrev CLOSE_TOKEN_REVOKED : Int := 4002

/-- What `buildTokenAuthHeaders` returned, and `isUnregistered()` behind it. -/
structure Fetch where
  headers : Bool
  unregistered : Bool
  deriving DecidableEq, Repr

inductive Callback where
  | onOpen
  | onClose (code : Int) (fetch : Fetch)
  | onError (httpStatus : Int) (fetch : Fetch)
  deriving DecidableEq, Repr

structure Client where
  reconnectCount_ : Int := 0
  everOpened_ : Bool := false
  reportedUnregistered_ : Bool := false
  maxReconnectWaitMs : Nat := 0
  /-- what it has published on `FRAME_REGISTRATION` -/
  reports : List Bool := []
  deriving DecidableEq, Repr

namespace Client

variable (c : Client)

/-- `_reportIfUnregistered` -/
def reportIfUnregistered (unregistered : Bool) : Client :=
  if c.everOpened_ || !unregistered then c
  else { c with
    reportedUnregistered_ := true
    maxReconnectWaitMs :=
      if c.reportedUnregistered_ then c.maxReconnectWaitMs else kUnregisteredMaxReconnectWaitMs
    reports := c.reports ++ [false] }

/-- `_refreshToken` -/
def refreshToken (fetch : Fetch) : Client :=
  if fetch.headers then c else c.reportIfUnregistered fetch.unregistered

/-- `_handleReconnect` -/
def handleReconnect (closeCode : Int) (fetch : Fetch) : Client :=
  if closeCode = CLOSE_AUTH_REJECTED ∨ closeCode = CLOSE_TOKEN_REVOKED then
    { c with reconnectCount_ := 0 }.refreshToken fetch
  else if c.reconnectCount_ + 1 < kTokenRefreshThreshold then
    { c with reconnectCount_ := c.reconnectCount_ + 1 }
  else { c with reconnectCount_ := 0 }.refreshToken fetch

/-- The callback of an opened connection. -/
def onOpen : Client :=
  let c := { c with reconnectCount_ := 0, everOpened_ := true }
  if c.reportedUnregistered_ then
    { c with
      reportedUnregistered_ := false
      maxReconnectWaitMs := kMaxReconnectWaitMs
      reports := c.reports ++ [true] }
  else c

def onCallback : Callback → Client
  | .onOpen => c.onOpen
  | .onClose code fetch => c.handleReconnect code fetch
  | .onError httpStatus fetch =>
    c.handleReconnect (if httpStatus = 401 ∨ httpStatus = 403 then CLOSE_AUTH_REJECTED else 0) fetch

end Client

/-- `_setupWebsocket` -/
def setupWebsocket (fetch : Fetch) : Client :=
  let c := ({} : Client).reportIfUnregistered fetch.unregistered
  if c.reportedUnregistered_ then c else { c with maxReconnectWaitMs := kMaxReconnectWaitMs }

/-- The client behind its callbacks. -/
def run (fetch : Fetch) (callbacks : List Callback) : Client :=
  callbacks.foldl Client.onCallback (setupWebsocket fetch)

theorem run_concat (fetch : Fetch) (callbacks : List Callback) (cb : Callback) :
    run fetch (callbacks ++ [cb]) = (run fetch callbacks).onCallback cb := by
  rw [run, List.foldl_append]
  rfl

/-! ## Reports -/

/-- Before the first open connection there are only refusals. -/
structure Refused (c : Client) : Prop where
  everOpened : c.everOpened_ = false
  reported : c.reportedUnregistered_ = true ↔ c.reports ≠ []
  refusals : ∀ r ∈ c.reports, r = false

/-- Behind it nothing is reported any more. -/
structure Opened (reports : List Bool) (c : Client) : Prop where
  everOpened : c.everOpened_ = true
  reported : c.reportedUnregistered_ = false
  reports : c.reports = reports

variable {c : Client} {reports : List Bool} {fetch : Fetch}

theorem Refused.reportIfUnregistered (h : Refused c) (unregistered : Bool) :
    Refused (c.reportIfUnregistered unregistered) := by
  unfold Client.reportIfUnregistered
  split
  · exact h
  · refine ⟨h.everOpened, ?_, fun r hr => ?_⟩
    · simp
    · obtain hr | hr := List.mem_append.mp hr
      · exact h.refusals r hr
      · exact List.mem_singleton.mp hr

theorem Refused.refreshToken (h : Refused c) : Refused (c.refreshToken fetch) := by
  unfold Client.refreshToken
  split
  · exact h
  · exact h.reportIfUnregistered _

theorem Refused.handleReconnect (h : Refused c) (code : Int) :
    Refused (c.handleReconnect code fetch) := by
  have hcount (n : Int) : Refused { c with reconnectCount_ := n } := ⟨h.everOpened, h.reported, h.refusals⟩
  unfold Client.handleReconnect
  split
  · exact (hcount 0).refreshToken
  · split
    · exact hcount _
    · exact (hcount 0).refreshToken

theorem Refused.onCallback (h : Refused c) {cb : Callback} (hcb : cb ≠ .onOpen) :
    Refused (c.onCallback cb) := by
  cases cb with
  | onOpen => exact absurd rfl hcb
  | onClose => exact h.handleReconnect _
  | onError => exact h.handleReconnect _

theorem Refused.onOpen (h : Refused c) :
    Opened (c.reports ++ if c.reports = [] then [] else [true]) c.onOpen := by
  unfold Client.onOpen
  by_cases hnil : c.reports = []
  · have hreported : c.reportedUnregistered_ = false :=
      Bool.eq_false_iff.mpr fun hreported => h.reported.mp hreported hnil
    exact ⟨by simp [hreported], by simp [hreported], by simp [hreported, hnil]⟩
  · have hreported := h.reported.mpr hnil
    exact ⟨by simp [hreported], by simp [hreported], by simp [hreported, hnil]⟩

theorem Opened.refreshToken (h : Opened reports c) : c.refreshToken fetch = c := by
  unfold Client.refreshToken Client.reportIfUnregistered
  rw [h.everOpened]
  simp

theorem Opened.onCallback (h : Opened reports c) (cb : Callback) : Opened reports (c.onCallback cb) := by
  have hcount (n : Int) : Opened reports { c with reconnectCount_ := n } :=
    ⟨h.everOpened, h.reported, h.reports⟩
  have hreconnect (code : Int) (fetch : Fetch) : Opened reports (c.handleReconnect code fetch) := by
    unfold Client.handleReconnect
    split
    · rw [(hcount 0).refreshToken]
      exact hcount 0
    · split
      · exact hcount _
      · rw [(hcount 0).refreshToken]
        exact hcount 0
  cases cb with
  | onOpen => refine ⟨?_, ?_, ?_⟩ <;> simp [Client.onCallback, Client.onOpen, h.reported, h.reports]
  | onClose code fetch => exact hreconnect code fetch
  | onError status fetch => exact hreconnect _ fetch

theorem refused_setup : Refused (setupWebsocket fetch) := by
  have hempty : Refused ({} : Client) := ⟨rfl, by simp, nofun⟩
  have h := hempty.reportIfUnregistered fetch.unregistered
  simp only [setupWebsocket]
  split
  · exact h
  · exact ⟨h.everOpened, h.reported, h.refusals⟩

theorem refused_run {callbacks : List Callback} (h : ∀ cb ∈ callbacks, cb ≠ .onOpen) :
    Refused (run fetch callbacks) := by
  induction callbacks using List.reverseRecOn with
  | nil => exact refused_setup
  | append_singleton callbacks cb ih =>
    rw [run_concat]
    exact (ih fun cb hcb => h cb (List.mem_append.mpr (.inl hcb))).onCallback
      (h cb (List.mem_append.mpr (.inr (List.mem_singleton.mpr rfl))))

theorem opened_run {before after : List Callback} (h : ∀ cb ∈ before, cb ≠ .onOpen) :
    Opened ((run fetch before).reports ++ if (run fetch before).reports = [] then [] else [true])
      (run fetch (before ++ .onOpen :: after)) := by
  induction after using List.reverseRecOn with
  | nil =>
    rw [run_concat]
    exact (refused_run h).onOpen
  | append_singleton after cb ih =>
    rw [← List.cons_append, ← List.append_assoc, run_concat]
    exact ih.onCallback cb

/-! ## The window -/

/-- The reports arrive at these times. -/
def deliver (windowSecs : Int) (deliveries : List (Bool × Int)) : RegistrationWindow :=
  deliveries.foldl (fun w d => w.report d.1 d.2 windowSecs) {}

variable {windowSecs : Int} {deliveries : List (Bool × Int)}

/-- The window opens with the first refusal; a registration closes it. -/
theorem deliver_eq : deliver windowSecs deliveries =
    ⟨(deliveries.find? (!·.1)).map (·.2 + windowSecs), deliveries.any (·.1)⟩ := by
  induction deliveries using List.reverseRecOn with
  | nil => rfl
  | append_singleton deliveries d ih =>
    rw [deliver, List.foldl_append, ← deliver, ih, List.find?_append, List.any_append]
    obtain ⟨registered, now⟩ := d
    cases registered with
    | true => simp [RegistrationWindow.report]
    | false =>
      cases deliveries.find? (!·.1) <;> simp [RegistrationWindow.report]

theorem required_iff {t : Int} : (deliver windowSecs deliveries).required t = true ↔
    (∀ d ∈ deliveries, d.1 = false) ∧
      ∃ first, deliveries.find? (!·.1) = some first ∧ t < first.2 + windowSecs := by
  rw [deliver_eq, RegistrationWindow.required, Bool.and_eq_true_iff, Bool.not_eq_true',
    List.any_eq_false]
  refine and_congr (by simp) ?_
  cases deliveries.find? (!·.1) <;> simp

/-- Once it is off again, the screen stays off. -/
theorem required_latch {more more' : List (Bool × Int)} {t t' t'' : Int}
    (h : (deliver windowSecs deliveries).required t = true)
    (h' : (deliver windowSecs (deliveries ++ more)).required t' = false) (ht : t' ≤ t'') :
    (deliver windowSecs (deliveries ++ more ++ more')).required t'' = false := by
  obtain ⟨-, first, hfirst, -⟩ := required_iff.mp h
  have hfind (ds : List (Bool × Int)) : (deliveries ++ ds).find? (!·.1) = some first := by
    rw [List.find?_append, hfirst, Option.some_or]
  refine Bool.eq_false_iff.mpr fun hagain => ?_
  obtain ⟨hrefusals, first', hfirst', hlt⟩ := required_iff.mp hagain
  rw [List.append_assoc, hfind] at hfirst'
  cases hfirst'
  refine absurd (required_iff.mpr ⟨fun d hd => ?_, first, hfind more, by omega⟩)
    (Bool.eq_false_iff.mp h')
  exact hrefusals d (List.mem_append.mpr (.inl hd))

/-- The reports follow the server's verdict, and the screen follows the reports. -/
theorem follows_verdict (fetch : Fetch) (windowSecs : Int) :
    (∀ callbacks, (∀ cb ∈ callbacks, cb ≠ .onOpen) →
      ∀ r ∈ (run fetch callbacks).reports, r = false) ∧
    (∀ before after, (∀ cb ∈ before, cb ≠ .onOpen) →
      (run fetch (before ++ .onOpen :: after)).reports = (run fetch before).reports ++
        if (run fetch before).reports = [] then [] else [true]) ∧
    (∀ callbacks deliveries t, deliveries.map (·.1) <+: (run fetch callbacks).reports →
      (deliveries.map (·.2)).Pairwise (· ≤ ·) → (∀ d ∈ deliveries, d.2 ≤ t) →
      ((deliver windowSecs deliveries).required t = true ↔ (∀ d ∈ deliveries, d.1 = false) ∧
        ∃ first, deliveries.find? (!·.1) = some first ∧ first.2 ≤ t ∧ t < first.2 + windowSecs)) ∧
    ∀ deliveries more more' t t' t'',
      (deliver windowSecs deliveries).required t = true →
      (deliver windowSecs (deliveries ++ more)).required t' = false → t' ≤ t'' →
      (deliver windowSecs (deliveries ++ more ++ more')).required t'' = false := by
  refine ⟨fun callbacks h => (refused_run h).refusals, fun before after h => (opened_run h).reports,
    fun callbacks deliveries t _ _ ht => ?_, fun _ _ _ _ _ _ h h' ht => required_latch h h' ht⟩
  rw [required_iff]
  refine and_congr_right fun _ => exists_congr fun first => and_congr_right fun hfirst => ?_
  exact (and_iff_right (ht first (List.mem_of_find?_eq_some hfirst))).symm

/-- Two refusals, then the server takes the frame. -/
theorem follows_verdict_taken :
    let refused : Fetch := ⟨false, true⟩
    (run refused [.onError 403 refused, .onOpen]).reports = [false, false, true] ∧
      (deliver 600 [(false, 0), (false, 100)]).required 599 = true ∧
      (deliver 600 [(false, 0), (false, 100), (true, 600)]).required 600 = false := by
  intro refused
  obtain ⟨-, htaken, hrequired, hlatch⟩ := follows_verdict refused 600
  have hbefore : (run refused [.onError 403 refused]).reports = [false, false] := by decide
  have hon : (deliver 600 [(false, 0), (false, 100)]).required 599 = true :=
    (hrequired [.onError 403 refused] _ _ (by rw [hbefore]; exact List.prefix_rfl) (by decide)
      (by decide)).mpr ⟨by decide, (false, 0), rfl, by decide, by decide⟩
  refine ⟨?_, hon, hlatch [(false, 0), (false, 100)] [] [(true, 600)] 599 600 600 hon
    (by decide) (Int.le_refl _)⟩
  have h := htaken [.onError 403 refused] [] (by decide)
  rw [hbefore] at h
  exact h

end ShareFrame.Registration
