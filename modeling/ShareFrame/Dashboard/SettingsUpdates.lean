import ShareFrame.Dashboard.KeptOrder

/-!
# Settings from a request to the display service

Four endpoints of the dashboard check a body and send what it says to the display
service, which checks it again. The values that a request was answered with are
accepted there and published as they are (`validators_agree`). In between lie the
text of the message and its parser, which need to be inverse on that message only.
-/

namespace ShareFrame.SettingsUpdates

open Interaction Prog
open Playback (Generator)
open Dashboard (Outside OutsideAns Service Request Response jsonResponse)
open OrderUpdates (readOrder givenOrder Fits)
open DisplayIpc (Ans)

inductive Endpoint where
  | updateInterval
  | updateNightMode
  | updateOrder
  | updateCustomization
  deriving DecidableEq, Repr

def Endpoint.handler (parse : HTTPClient.Bytes → Option Json) : Endpoint → Request → Service Response
  | .updateInterval => Dashboard.FrameHandlers.handleUpdateInterval parse
  | .updateNightMode => Dashboard.FrameHandlers.handleUpdateNightMode parse
  | .updateOrder => Dashboard.SlideshowImageHandlers.handleUpdateOrder parse
  | .updateCustomization => Dashboard.FrameHandlers.handleUpdateCustomization parse

/-- The values of a response that says that the settings were taken. -/
inductive Values where
  | interval (secs : Int)
  | nightMode (night : StoredNight)
  | order (mode : PlaybackMode) (customOrder : List Int)
  | customization (showSender : Bool)
  deriving DecidableEq

namespace Values

/-- The data of the response. -/
def response : Values → Json
  | .interval secs => .obj [("interval_seconds", .int secs)]
  | .nightMode night => .obj [("enabled", .bool night.val.enabled),
      ("start_hour", .int night.val.startHour), ("end_hour", .int night.val.endHour),
      ("interval_seconds", .int night.val.intervalSecs), ("style", .str night.val.style.toString)]
  | .order mode customOrder =>
    .obj [("mode", .str mode.toString), ("custom_order", .arr (customOrder.map .int))]
  | .customization showSender => .obj [("show_sender", .bool showSender)]

/-- The message to the display service. -/
def msg : Values → IpcMessage
  | .interval secs =>
    { type := .updateDisplayInterval, data := .obj [("interval_secs", .int secs)] }
  | .nightMode night =>
    { type := .updateNightMode
      data := .obj [("enabled", .bool night.val.enabled), ("start_hour", .int night.val.startHour),
        ("end_hour", .int night.val.endHour), ("interval_secs", .int night.val.intervalSecs),
        ("style", .str night.val.style.toString)] }
  | .order mode customOrder =>
    { type := .updatePlaybackOrder
      data := .obj [("mode", .str mode.toString), ("custom_order", .arr (customOrder.map .int))] }
  | .customization showSender =>
    { type := .updateCustomization, data := .obj [("show_sender", .bool showSender)] }

def event : Values → DisplayEvent
  | .interval secs => .updateDisplayInterval secs
  | .nightMode night => .updateNightMode night
  | .order mode customOrder => .updatePlaybackOrder mode customOrder
  | .customization showSender => .updateCustomization showSender

/-- The settings with these values. -/
def setIn (s : RuntimeSettings) : Values → RuntimeSettings
  | .interval secs => { s with displayIntervalSecs_ := secs }
  | .nightMode night => { s with night_ := night }
  | .order mode customOrder => { s with playbackMode_ := mode, customOrder_ := customOrder }
  | .customization showSender => { s with showSender_ := showSender }

/-- What the validators of the dashboard make sure of. -/
def Checked : Values → Prop
  | .interval secs => 180 ≤ secs ∧ secs ≤ 86400
  | .nightMode night => night.val.startHour ≠ night.val.endHour ∧
      180 ≤ night.val.intervalSecs ∧ night.val.intervalSecs ≤ 86400
  | .order _ customOrder => Fits customOrder
  | .customization _ => True

/-! ## The display service takes them -/

theorem floatFree_document (values : Values) : values.msg.document.floatFree = true := by
  cases values with
  | order mode customOrder =>
    simp only [msg, IpcMessage.document, reduceCtorEq, if_false, Json.floatFree,
      Json.floatFreeMembers, Json.floatFreeItems_int, Bool.and_true]
  | _ => rfl

theorem nightStyleFromString_toString (style : NightStyle) :
    nightStyleFromString style.toString = some style := by cases style <;> rfl

theorem playbackModeFromString_toString (mode : PlaybackMode) :
    playbackModeFromString mode.toString = some mode := by cases mode <;> rfl

/-- The second check passes, and finds the same values. -/
theorem readEvent_msg {values : Values} (h : values.Checked) :
    DisplayIpc.readEvent values.msg = .ok (some values.event) := by
  cases values with
  | interval secs =>
    obtain ⟨hlow, hhigh⟩ := h
    have hsecs : Json.value Json.getInt (.obj [("interval_secs", .int secs)]) "interval_secs" 0 =
      .ok secs := Json.getInt_int (by omega) (by omega)
    show DisplayIpc.readDisplayInterval (.obj [("interval_secs", .int secs)]) = _
    rw [DisplayIpc.readDisplayInterval, hsecs]
    exact congrArg Except.ok (if_neg (by omega))
  | nightMode night =>
    obtain ⟨⟨enabled, startHour, endHour, secs, style⟩, hhours⟩ := night
    obtain ⟨hne, hlow, hhigh⟩ := h
    obtain ⟨hstart, hend⟩ := id hhours
    simp only [Night.HourOk] at hstart hend hne hlow hhigh
    generalize hdata : (msg (.nightMode ⟨⟨enabled, startHour, endHour, secs, style⟩, hhours⟩)).data =
      data
    have henabled : data.value Json.getBool "enabled" false = .ok enabled := by rw [← hdata]; rfl
    have hstart' : data.value Json.getInt "start_hour" (-1) = .ok startHour := by
      rw [← hdata]
      exact Json.getInt_int (n := startHour) (by omega) (by omega)
    have hend' : data.value Json.getInt "end_hour" (-1) = .ok endHour := by
      rw [← hdata]
      exact Json.getInt_int (n := endHour) (by omega) (by omega)
    have hsecs : data.value Json.getInt "interval_secs" 0 = .ok secs := by
      rw [← hdata]
      exact Json.getInt_int (n := secs) (by omega) (by omega)
    have hstyle : data.value Json.getString "style" "" = .ok style.toString := by rw [← hdata]; rfl
    show DisplayIpc.readNightMode (msg (.nightMode _)).data = _
    rw [hdata, DisplayIpc.readNightMode, henabled, hstart', hend', hsecs, hstyle]
    refine congrArg Except.ok ?_
    rw [nightStyleFromString_toString, DisplayIpc.checkNightMode, dif_neg (by omega)]
    rfl
  | order mode customOrder =>
    have hmode : Json.value Json.getString (msg (.order mode customOrder)).data "mode" "" =
      .ok mode.toString := rfl
    have horder : DisplayIpc.readCustomOrder (msg (.order mode customOrder)).data = customOrder := by
      have hread : Json.value Json.getInt64s (msg (.order mode customOrder)).data "custom_order" [] =
        .ok customOrder := Json.getInt64s_map_int h
      rw [DisplayIpc.readCustomOrder, hread]
    show DisplayIpc.readPlaybackOrder (msg (.order mode customOrder)).data = _
    rw [DisplayIpc.readPlaybackOrder, hmode]
    refine congrArg Except.ok ?_
    rw [playbackModeFromString_toString, horder]
    rfl
  | customization showSender => rfl

/-- It reads the values only, so another writing of the same data does as well. -/
theorem readEvent_same {values : Values} {data : Json} (h : values.msg.data.Same data) :
    DisplayIpc.readEvent { values.msg with data } = DisplayIpc.readEvent values.msg := by
  cases values with
  | interval secs =>
    show DisplayIpc.readDisplayInterval data = DisplayIpc.readDisplayInterval _
    simp only [DisplayIpc.readDisplayInterval, h.value Json.Same.getInt]
  | nightMode night =>
    show DisplayIpc.readNightMode data = DisplayIpc.readNightMode _
    simp only [DisplayIpc.readNightMode, h.value Json.Same.getInt, h.value Json.Same.getBool,
      h.value Json.Same.getString]
  | order mode customOrder =>
    show DisplayIpc.readPlaybackOrder data = DisplayIpc.readPlaybackOrder _
    simp only [DisplayIpc.readPlaybackOrder, DisplayIpc.readCustomOrder,
      h.value Json.Same.getString, h.value Json.Same.getInt64s]
  | customization showSender =>
    obtain ⟨member, hfind, hsame⟩ := h.find_some
      (show (msg (.customization showSender)).data.find "show_sender" = some (.bool showSender) from rfl)
    cases hsame
    have hread : DisplayIpc.readCustomization data = .ok (some (.updateCustomization showSender)) := by
      rw [DisplayIpc.readCustomization, hfind]
    exact hread

/-- The display service publishes the values, and nothing else. -/
theorem runs_handle {values : Values} (h : values.Checked) {data : Json}
    (hsame : values.msg.data.Same data) {t : List (Event Ans)} {r : Except DisplayIpc.Error Json} :
    Runs (DisplayIpc.handle { values.msg with data }) t r ↔
      t = [⟨.publish values.event, ()⟩] ∧ r = .ok DisplayIpc.empty := by
  have hhandle : DisplayIpc.handle { values.msg with data } =
      DisplayIpc.publishRead (DisplayIpc.readEvent { values.msg with data }) := by
    cases values <;> rfl
  rw [hhandle, readEvent_same hsame, readEvent_msg h]
  show Runs (DisplayIpc.ask (.publish values.event) >>= fun _ => Pure.pure DisplayIpc.empty) t r ↔ _
  simp only [DisplayIpc.ask, runs_ask_bind, pure_eq, runs_pure]
  constructor
  · rintro ⟨_, _, rfl, rfl, rfl⟩
    exact ⟨rfl, rfl⟩
  · rintro ⟨rfl, rfl⟩
    exact ⟨(), [], rfl, rfl, rfl⟩

/-- Its bus thread sets them. -/
theorem deliver_sets {γ : Type} (gen : Generator γ) (cfg : DisplayImageLoop.Config)
    {s : DisplayService.State γ} {values : Values} {number : Nat} {bus : List (Nat × DisplayEvent)}
    (hbus : s.bus = (number, values.event) :: bus) :
    ∃ s', DisplayService.step gen cfg s .deliver = some s' ∧ s'.bus = bus ∧
      s'.loop.settings = values.setIn s.loop.settings := by
  simp only [DisplayService.step, hbus]
  cases values <;> exact ⟨_, rfl, rfl, rfl⟩

end Values

/-! ## The dashboard sends what it answers -/

open Dashboard (badRequest internalError Checked answerBody bodyHandler)
open Dashboard.FrameHandlers (forward)

/-- The first check of a custom order drops the repeated ids. -/
theorem parseIds_spec {ids out : List Int} {items : List Json}
    (h : Dashboard.Validation.parseIds ids items = some out) (hnodup : ids.Nodup) (hfits : Fits ids) :
    ∃ ns : List Int, items = ns.map .int ∧ out.Nodup ∧ Fits out ∧
      ∀ id, id ∈ out ↔ id ∈ ids ∨ id ∈ ns.map Dashboard.Validation.int64 := by
  induction items generalizing ids with
  | nil =>
    cases h
    exact ⟨[], rfl, hnodup, hfits, by simp⟩
  | cons item items ih =>
    cases item with
    | int n =>
      simp only [Dashboard.Validation.parseIds] at h
      by_cases hmem : Dashboard.Validation.int64 n ∈ ids
      · rw [if_pos hmem] at h
        obtain ⟨ns, rfl, hout, hfits', hiff⟩ := ih h hnodup hfits
        refine ⟨n :: ns, rfl, hout, hfits', fun id => ?_⟩
        rw [hiff, List.map_cons, List.mem_cons]
        constructor
        · exact Or.imp_right .inr
        · rintro (hid | rfl | hid)
          · exact .inl hid
          · exact .inl hmem
          · exact .inr hid
      · rw [if_neg hmem] at h
        have hfits'' : Fits (ids ++ [Dashboard.Validation.int64 n]) := by
          intro id hid
          obtain hid | hid := List.mem_append.mp hid
          · exact hfits id hid
          · rw [List.mem_singleton.mp hid]
            exact Json.isInt64_bmod n
        have hnodup' : (ids ++ [Dashboard.Validation.int64 n]).Nodup :=
          List.nodup_append.mpr ⟨hnodup, List.nodup_singleton _, fun a ha b hb => by
            rintro rfl
            rw [List.mem_singleton.mp hb] at ha
            exact hmem ha⟩
        obtain ⟨ns, rfl, hout, hfits', hiff⟩ := ih h hnodup' hfits''
        refine ⟨n :: ns, rfl, hout, hfits', fun id => ?_⟩
        rw [hiff, List.map_cons, List.mem_cons, List.mem_append, List.mem_singleton, or_assoc]
    | _ => cases h

/-- A body is answered with 200 by the action behind its check only. -/
theorem runs_bodyHandler {Args : Type} {parse : HTTPClient.Bytes → Option Json}
    {read : Json → Except Json.Error (Checked Args)} {act : Args → Service Response} {req : Request}
    {t : List (Event OutsideAns)} {res : Response}
    (hrun : Runs (bodyHandler parse read act req) t (.ok res)) (h200 : res.status = 200) :
    ∃ body args, parse req.body = some body ∧ read body = .ok (.accepted args) ∧
      Runs (act args) t (.ok res) := by
  unfold bodyHandler at hrun
  split at hrun
  next =>
    obtain ⟨-, he⟩ := runs_pure.mp hrun
    cases he
    cases h200
  next body hbody =>
    unfold answerBody Dashboard.json at hrun
    cases hread : read body with
    | error e =>
      rw [hread] at hrun
      cases (runs_throw.mp hrun).2
    | ok checked =>
      rw [hread] at hrun
      cases checked with
      | refused message =>
        obtain ⟨-, he⟩ := runs_pure.mp hrun
        cases he
        cases h200
      | accepted args => exact ⟨body, args, hbody, hread, hrun⟩

/-- A setter answers with 200 once its message was answered. -/
theorem runs_forward {type : IpcMessageType} {data response : Json} {t : List (Event OutsideAns)}
    {res : Response} (hrun : Runs (forward type data response) t (.ok res)) (h200 : res.status = 200) :
    t = [⟨.send .display { type, data }, true⟩] ∧ res = jsonResponse 200 "OK" response := by
  obtain ⟨sent, t', rfl, hrest⟩ := runs_call.mp hrun
  obtain ⟨rfl, he⟩ := runs_pure.mp hrest
  cases sent with
  | true => cases he; exact ⟨rfl, rfl⟩
  | false => cases he; cases h200

theorem eq_toString_of_nightStyle {s : String} {style : NightStyle}
    (h : nightStyleFromString s = some style) : s = style.toString := by
  unfold nightStyleFromString at h
  split at h <;> cases h <;> rfl

theorem eq_toString_of_playbackMode {s : String} {mode : PlaybackMode}
    (h : playbackModeFromString s = some mode) : s = mode.toString := by
  unfold playbackModeFromString at h
  split at h <;> cases h <;> rfl

/-- What a custom order in the body has to do with the one in the response. -/
def DedupOf (given : Json) (customOrder : List Int) : Prop :=
  ∃ ns : List Int, given = .arr (ns.map .int) ∧ customOrder.Nodup ∧
    ∀ id, id ∈ customOrder ↔ id ∈ ns.map Dashboard.Validation.int64

/-- A response that says that the settings were taken carries checked values, and they were sent:
behind at most a read of the order, in one message. -/
structure Accepted (parse : HTTPClient.Bytes → Option Json) (req : Request)
    (t : List (Event OutsideAns)) (res : Response) (values : Values) : Prop where
  checked : values.Checked
  response : res = jsonResponse 200 "OK" values.response
  sent : ∃ reads, t = reads ++ [⟨.send .display values.msg, true⟩] ∧
    ∀ e ∈ reads, e.1 = .sendAndReceive .display readOrder
  dedup : ∀ mode customOrder, values = .order mode customOrder →
    ∀ given, givenOrder parse req = some given → DedupOf given customOrder

theorem accepted_interval {parse : HTTPClient.Bytes → Option Json} {req : Request}
    {t : List (Event OutsideAns)} {res : Response}
    (hrun : Runs (Endpoint.updateInterval.handler parse req) t (.ok res)) (h200 : res.status = 200) :
    ∃ secs, Accepted parse req t res (.interval secs) := by
  obtain ⟨body, secs, -, hread, hact⟩ := runs_bodyHandler hrun h200
  obtain ⟨rfl, rfl⟩ := runs_forward hact h200
  obtain ⟨n, -, hread⟩ := Json.eq_ok_of_bind hread
  have hread := Except.ok.inj hread
  simp only [Dashboard.require] at hread
  split at hread <;> cases hread
  next hvalid =>
    simp only [Dashboard.Validation.isValidIntervalSecs, Bool.and_eq_true, decide_eq_true_eq] at hvalid
    refine ⟨secs, hvalid, rfl, ⟨[], rfl, List.forall_mem_nil _⟩, ?_⟩
    rintro mode customOrder ⟨⟩

theorem accepted_nightMode {parse : HTTPClient.Bytes → Option Json} {req : Request}
    {t : List (Event OutsideAns)} {res : Response}
    (hrun : Runs (Endpoint.updateNightMode.handler parse req) t (.ok res)) (h200 : res.status = 200) :
    ∃ night, Accepted parse req t res (.nightMode night) := by
  obtain ⟨body, args, -, hread, hact⟩ := runs_bodyHandler hrun h200
  obtain ⟨rfl, rfl⟩ := runs_forward hact h200
  obtain ⟨enabled, -, hread⟩ := Json.eq_ok_of_bind hread
  obtain ⟨startHour, -, hread⟩ := Json.eq_ok_of_bind hread
  obtain ⟨endHour, -, hread⟩ := Json.eq_ok_of_bind hread
  obtain ⟨secs, -, hread⟩ := Json.eq_ok_of_bind hread
  obtain ⟨style, -, hread⟩ := Json.eq_ok_of_bind hread
  have hread := Except.ok.inj hread
  unfold Dashboard.FrameHandlers.checkNightMode at hread
  split at hread
  next => cases hread
  next hhours =>
    split at hread
    next => cases hread
    next hne =>
      split at hread
      next => cases hread
      next hsecs =>
        split at hread
        next => cases hread
        next hstyle =>
          cases hread
          cases hs : nightStyleFromString style with
          | none => rw [hs] at hstyle; exact absurd rfl hstyle
          | some kind =>
            simp only [Dashboard.Validation.isValidHour, Bool.or_eq_true, Bool.not_eq_true', not_or,
              Bool.not_eq_false, Bool.and_eq_true, decide_eq_true_eq] at hhours
            simp only [Dashboard.Validation.isValidIntervalSecs, Bool.not_eq_true',
              Bool.not_eq_false, Bool.and_eq_true, decide_eq_true_eq] at hsecs
            obtain rfl := eq_toString_of_nightStyle hs
            refine ⟨⟨⟨enabled, startHour, endHour, secs, kind⟩, hhours⟩, ⟨hne, hsecs⟩, rfl,
              ⟨[], rfl, List.forall_mem_nil _⟩, ?_⟩
            rintro mode customOrder ⟨⟩

theorem accepted_customization {parse : HTTPClient.Bytes → Option Json} {req : Request}
    {t : List (Event OutsideAns)} {res : Response}
    (hrun : Runs (Endpoint.updateCustomization.handler parse req) t (.ok res))
    (h200 : res.status = 200) :
    ∃ showSender, Accepted parse req t res (.customization showSender) := by
  obtain ⟨body, showSender, -, -, hact⟩ := runs_bodyHandler hrun h200
  obtain ⟨rfl, rfl⟩ := runs_forward hact h200
  refine ⟨showSender, trivial, rfl, ⟨[], rfl, List.forall_mem_nil _⟩, ?_⟩
  rintro mode customOrder ⟨⟩

/-- The order that is sent: the one of the body without its repetitions, or what the display
service replied. -/
theorem runs_orderToSet {args : Dashboard.SlideshowImageHandlers.OrderArgs}
    {t : List (Event OutsideAns)} {customOrder : List Int}
    (hrun : Runs (Dashboard.SlideshowImageHandlers.orderToSet args) t (.ok customOrder)) :
    (args.customOrder = some customOrder ∧ t = []) ∨
      (args.customOrder = none ∧ Fits customOrder ∧
        ∀ e ∈ t, e.1 = .sendAndReceive .display readOrder) := by
  unfold Dashboard.SlideshowImageHandlers.orderToSet at hrun
  split at hrun
  next given hgiven =>
    obtain ⟨rfl, he⟩ := runs_pure.mp hrun
    cases he
    exact .inl ⟨hgiven, rfl⟩
  next hnone =>
    obtain ⟨reply, t', rfl, hrest⟩ := runs_call.mp hrun
    have hread : Runs (Dashboard.json (Dashboard.SlideshowImageHandlers.currentOrder reply)) t'
      (.ok customOrder) := hrest
    obtain ⟨rfl, he⟩ := runs_lift.mp hread
    refine .inr ⟨hnone, ?_, fun e he => ?_⟩
    · cases hcurrent : Dashboard.SlideshowImageHandlers.currentOrder reply with
      | error e => rw [hcurrent] at he; cases he
      | ok ids =>
        rw [hcurrent] at he
        cases he
        cases reply with
        | none => cases hcurrent; exact nofun
        | some doc => exact Json.isInt64_value hcurrent
    · rw [List.mem_singleton.mp he]
      rfl

theorem accepted_order {parse : HTTPClient.Bytes → Option Json} {req : Request}
    {t : List (Event OutsideAns)} {res : Response}
    (hrun : Runs (Endpoint.updateOrder.handler parse req) t (.ok res)) (h200 : res.status = 200) :
    ∃ mode customOrder, Accepted parse req t res (.order mode customOrder) := by
  obtain ⟨body, args, hbody, hread, hact⟩ := runs_bodyHandler hrun h200
  obtain ⟨customOrder, t₁, t₂, rfl, horder, hforward⟩ := runs_bind_ok.mp hact
  obtain ⟨rfl, rfl⟩ := runs_forward hforward h200
  obtain ⟨s, -, hread⟩ := Json.eq_ok_of_bind hread
  split at hread
  next => cases hread
  next hvalid =>
    cases hs : playbackModeFromString s with
    | none => simp [Dashboard.Validation.isValidPlaybackMode, hs] at hvalid
    | some mode =>
    obtain rfl := eq_toString_of_playbackMode hs
    have hgiven : givenOrder parse req = body.find "custom_order" := by rw [givenOrder, hbody]; rfl
    have hread := Except.ok.inj hread
    split at hread
    next hnone =>
      -- the order that is stored
      cases hread
      obtain ⟨he, -⟩ | ⟨-, hfits, hreads⟩ := runs_orderToSet horder
      · cases he
      refine ⟨mode, customOrder, hfits, rfl, ⟨t₁, rfl, hreads⟩, fun _ _ _ given hg => ?_⟩
      rw [hgiven, hnone] at hg
      cases hg
    next given hfind =>
      split at hread
      next => cases hread
      next ids hparsed =>
        cases hread
        obtain ⟨he, rfl⟩ | ⟨he, -⟩ := runs_orderToSet horder
        · cases he
          unfold Dashboard.Validation.parseCustomOrder at hparsed
          split at hparsed
          next items =>
            split at hparsed
            next => cases hparsed
            next =>
              obtain ⟨ns, rfl, hnodup, hfits, hiff⟩ := parseIds_spec hparsed List.nodup_nil (List.forall_mem_nil _)
              refine ⟨mode, customOrder, hfits, rfl, ⟨[], rfl, List.forall_mem_nil _⟩, fun _ _ hv given' hg => ?_⟩
              rw [hgiven, hfind] at hg
              cases hg
              cases hv
              exact ⟨ns, rfl, hnodup, fun id => by simpa using hiff id⟩
          next => cases hparsed
        · cases he

theorem accepted {parse : HTTPClient.Bytes → Option Json} {endpoint : Endpoint} {req : Request}
    {t : List (Event OutsideAns)} {res : Response}
    (hrun : Runs (endpoint.handler parse req) t (.ok res)) (h200 : res.status = 200) :
    ∃ values, Accepted parse req t res values := by
  cases endpoint with
  | updateInterval =>
    obtain ⟨secs, h⟩ := accepted_interval hrun h200
    exact ⟨_, h⟩
  | updateNightMode =>
    obtain ⟨night, h⟩ := accepted_nightMode hrun h200
    exact ⟨_, h⟩
  | updateOrder =>
    obtain ⟨mode, customOrder, h⟩ := accepted_order hrun h200
    exact ⟨_, h⟩
  | updateCustomization =>
    obtain ⟨showSender, h⟩ := accepted_customization hrun h200
    exact ⟨_, h⟩

/-- What an endpoint answers with 200, the display service takes: the message is read back, its
handler publishes one event with exactly the values of the response, and the settings hold them once
it is handled. -/
theorem validators_agree {γ : Type} (gen : Generator γ) (cfg : DisplayImageLoop.Config)
    {dump : Json → HTTPClient.Bytes} {parse : HTTPClient.Bytes → Option Json} {endpoint : Endpoint}
    {req : Request} {t : List (Event OutsideAns)} {res : Response}
    (hrun : Runs (endpoint.handler parse req) t (.ok res)) (h200 : res.status = 200)
    (hround : ∀ msg, (⟨.send .display msg, true⟩ : Event OutsideAns) ∈ t →
      msg.document.floatFree = true → RoundTrips dump parse msg.document) :
    ∃ values, Accepted parse req t res values ∧
      ∃ msg, parseIpcMessage parse (toJson dump values.msg) = some msg ∧
        (∀ t' r, Runs (DisplayIpc.handle msg) t' r ↔
          t' = [⟨.publish values.event, ()⟩] ∧ r = .ok DisplayIpc.empty) ∧
        ∀ (s : DisplayService.State γ) number bus, s.bus = (number, values.event) :: bus →
          ∃ s', DisplayService.step gen cfg s .deliver = some s' ∧ s'.bus = bus ∧
            s'.loop.settings = values.setIn s.loop.settings := by
  obtain ⟨values, h⟩ := accepted hrun h200
  obtain ⟨reads, ht, -⟩ := h.sent
  have hsent : (⟨.send .display values.msg, true⟩ : Event OutsideAns) ∈ t := by
    rw [ht]
    exact List.mem_append_right _ (List.mem_singleton.mpr rfl)
  obtain ⟨data, hparse, hsame⟩ :=
    parseIpcMessage_toJson (hround values.msg hsent values.floatFree_document)
  exact ⟨values, h, _, hparse, fun _ _ => Values.runs_handle h.checked hsame,
    fun _ _ _ hbus => Values.deliver_sets gen cfg hbus⟩

/-! ## A request -/

section Run

open DisplayImageLoop (defaultConfig)
open Playback (lowest)

/-- A request for an order with a repetition. -/
def bodyText : String := "\x7b\"mode\":\"custom\",\"custom_order\":[3,1,3,2]\x7d"

/-- Its message, the members sorted by their names. -/
def messageText : String :=
  "\x7b\"data\":\x7b\"custom_order\":[3,1,2],\"mode\":\"custom\"\x7d,\"type\":\"update_playback_order\"\x7d"

def sentDocument : Json :=
  .obj [("data", .obj [("custom_order", .arr [.int 3, .int 1, .int 2]), ("mode", .str "custom")]),
    ("type", .str "update_playback_order")]

/-- A parser of the two texts. -/
def knownTexts (text : HTTPClient.Bytes) : Option Json :=
  if text = bodyText.toUTF8.toList then some (.obj [("mode", .str "custom"),
    ("custom_order", .arr [.int 3, .int 1, .int 3, .int 2])])
  else if text = messageText.toUTF8.toList ++ [10] then some sentDocument
  else none

/-- A writer of the message. -/
def writeMessage (_ : Json) : HTTPClient.Bytes := messageText.toUTF8.toList

theorem same_swap {k l : String} (hkl : k ≠ l) {a a' b b' : Json} (ha : a.Same a') (hb : b.Same b') :
    (Json.obj [(k, a), (l, b)]).Same (.obj [(l, b'), (k, a')]) := by
  refine .obj (fun key => ?_) fun key x y hx hy => ?_
  · cases hk : key == k <;> cases hl : key == l <;> simp [List.lookup_cons, hk, hl]
  · by_cases hk : key = k
    · subst hk
      simp only [List.lookup_cons, beq_self_eq_true, beq_false_of_ne hkl, Option.some.injEq] at hx hy
      exact hx ▸ hy ▸ ha
    · simp only [List.lookup_cons, beq_false_of_ne hk] at hx hy
      split at hx
      next hl =>
        rw [hl] at hy
        cases hx
        cases hy
        exact hb
      next => cases hx

theorem roundTrips_sent :
    RoundTrips writeMessage knownTexts (Values.order .custom [3, 1, 2]).msg.document := by
  refine ⟨sentDocument, by decide +kernel, ?_⟩
  exact same_swap (by decide) (.str _)
    (same_swap (by decide) (.str _) (.arr (.cons (.int 3) (.cons (.int 1) (.cons (.int 2) .nil)))))

/-- The order of the request arrives without its repetition. -/
theorem validators_agree_order :
    ∃ msg, parseIpcMessage knownTexts (toJson writeMessage (Values.order .custom [3, 1, 2]).msg) =
        some msg ∧
      Runs (DisplayIpc.handle msg) [⟨.publish (.updatePlaybackOrder .custom [3, 1, 2]), ()⟩]
        (.ok DisplayIpc.empty) := by
  have hrun : Runs (Endpoint.updateOrder.handler knownTexts
      { method := "POST", uri := "/", body := bodyText.toUTF8.toList })
      [⟨.send .display (Values.order .custom [3, 1, 2]).msg, true⟩]
      (.ok (jsonResponse 200 "OK" (Values.order .custom [3, 1, 2]).response)) :=
    runs_iff_follow.mpr (by decide +kernel)
  obtain ⟨values, h, msg, hparse, hruns, -⟩ :=
    validators_agree lowest defaultConfig hrun rfl fun msg hmsg _ => by
      rw [List.mem_singleton] at hmsg
      cases hmsg
      exact roundTrips_sent
  obtain ⟨reads, hsent, -⟩ := h.sent
  have hmsg : values.msg = (Values.order .custom [3, 1, 2]).msg := by
    have hlast := congrArg List.getLast? hsent
    simp only [List.getLast?_singleton, List.getLast?_append, Option.some_or, Option.some.injEq,
      Sigma.mk.injEq, Outside.send.injEq, true_and] at hlast
    exact hlast.1.symm
  have hevent : values.event = .updatePlaybackOrder .custom [3, 1, 2] := by
    have hread := Values.readEvent_msg h.checked
    rw [hmsg] at hread
    exact (Option.some.inj (Except.ok.inj hread)).symm
  rw [hmsg] at hparse
  rw [hevent] at hruns
  exact ⟨msg, hparse, (hruns _ _).mpr ⟨rfl, rfl⟩⟩

end Run

end ShareFrame.SettingsUpdates
