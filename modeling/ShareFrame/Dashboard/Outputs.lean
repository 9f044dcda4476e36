import ShareFrame.Dashboard.SystemHandlers
import ShareFrame.Lib.Returns
import ShareFrame.Task.Remote.Answers

/-!
# What commands wrote, in responses

Some responses say what a command wrote: the name of a network, the lines of a log, a text
about an error. Where that is UTF-8, so is the response, and it is dumped.
-/

namespace ShareFrame.Dashboard

open Interaction Prog

/-- The names that the build and the configuration give to the frame. -/
def SystemConfig.isUtf8 (cfg : SystemConfig) : Bool :=
  Text.isUtf8 cfg.frameId && Text.isUtf8 cfg.version && Text.isUtf8 cfg.appSha

/-! ## Responses -/

section

variable {status : Nat} {statusText message : String} {data : Json}

theorem isUtf8_envelope (hmessage : Text.isUtf8 message = true) (hdata : data.isUtf8 = true) :
    (envelope status message data).isUtf8 = true := by
  have hkeys : Text.isUtf8 "success" = true ∧ Text.isUtf8 "message" = true ∧ Text.isUtf8 "data" = true := by
    decide
  rw [envelope, Content.isUtf8, Json.isUtf8_obj]
  simp only [List.forall_mem_cons]
  exact ⟨⟨hkeys.1, rfl⟩, ⟨hkeys.2.1, hmessage⟩, ⟨hkeys.2.2, hdata⟩, List.forall_mem_nil _⟩

theorem isUtf8_jsonResponse (hmessage : Text.isUtf8 message = true) (hdata : data.isUtf8 = true) :
    (jsonResponse status statusText data message).body.isUtf8 = true := isUtf8_envelope hmessage hdata

theorem isUtf8_errorResponse (hmessage : Text.isUtf8 message = true) :
    (errorResponse status statusText message).body.isUtf8 = true := isUtf8_envelope hmessage rfl

end

theorem returns_dumped {good : Interaction.Event OutsideAns → Prop} {resp : Response}
    (h : resp.body.isUtf8 = true) : Returns good (dumped resp) fun _ => True := by
  rw [dumped, if_pos h]
  trivial

/-! ## Networks -/

section

variable {result : RemoteCommand.SubprocessResult}

theorem isUtf8_parseStatus {lines : List String} {status : String × Bool}
    (hlines : ∀ line ∈ lines, Text.isUtf8 line = true) (hstatus : Text.isUtf8 status.1 = true) :
    Text.isUtf8 (WifiManager.parseStatus lines status).1 = true := by
  induction lines generalizing status with
  | nil => exact hstatus
  | cons line lines ih =>
    rw [List.forall_mem_cons] at hlines
    refine ih hlines.2 ?_
    split
    next name hname => exact Text.isUtf8_of_withoutPrefix hname hlines.1
    next => split <;> exact hstatus

theorem isUtf8_aliasIfProtected {name : String} (h : Text.isUtf8 name = true) :
    Text.isUtf8 (WifiManager.aliasIfProtected name) = true := by
  unfold WifiManager.aliasIfProtected
  split
  · decide
  · exact h

theorem isUtf8_lines {text line : String} (h : Text.isUtf8 text = true) (hline : line ∈ Text.lines text) :
    Text.isUtf8 line = true := Text.isUtf8_of_mem_split hline h

theorem isUtf8_currentConnection (h : Text.isUtf8 result.stdOut = true) :
    (WifiManager.currentConnection result).isUtf8 = true := by
  have hname : Text.isUtf8 (WifiManager.parseStatus (Text.lines result.stdOut) ("", false)).1 = true :=
    isUtf8_parseStatus (fun line => isUtf8_lines h) rfl
  unfold WifiManager.currentConnection
  split
  · decide
  · dsimp only
    split
    · decide
    · rw [Json.isUtf8_obj]
      simp only [List.forall_mem_cons]
      exact ⟨⟨by decide, isUtf8_aliasIfProtected hname⟩, ⟨by decide, rfl⟩, List.forall_mem_nil _⟩

/-- Also of the text of an error, which is a member of the result. -/
theorem isUtf8_wifiResult {j : Json} {resp : Response} (hj : j.isUtf8 = true)
    (h : WifiHandlers.wifiResult j = .ok resp) : resp.body.isUtf8 = true := by
  unfold WifiHandlers.wifiResult at h
  split at h
  next error herror =>
    obtain ⟨message, hmessage, h⟩ := Json.eq_ok_of_bind h
    cases h
    have herror := Json.isUtf8_find hj herror
    cases error with
    | str s =>
      cases hmessage
      exact isUtf8_errorResponse herror
    | _ => cases hmessage
  next =>
    cases h
    exact isUtf8_jsonResponse rfl hj

theorem isUtf8_savedSsid {line ssid : String} (h : WifiManager.savedSsid line = some ssid)
    (hline : Text.isUtf8 line = true) : Text.isUtf8 ssid = true := by
  obtain ⟨⟨id, columns⟩, hcut, h⟩ := Option.bind_eq_some_iff.mp h
  have hcolumns := (Text.isUtf8_of_cut hcut hline).2
  dsimp only at h
  obtain ⟨-, h⟩ := Option.ite_none_left_eq_some.mp h
  obtain rfl := Option.some.inj h
  split
  next name rest hname => exact (Text.isUtf8_of_cut hname hcolumns).1
  next => exact hcolumns

theorem isUtf8_savedNetworks (h : Text.isUtf8 result.stdOut = true) :
    (Json.obj [("networks", .arr (((Text.lines result.stdOut).drop 1).filterMap WifiManager.savedSsid
      |>.map .str))]).isUtf8 = true := by
  rw [Json.isUtf8_obj, List.forall_mem_singleton]
  have hkey : Text.isUtf8 "networks" = true := by decide
  refine ⟨hkey, Json.isUtf8_arr.mpr fun item hitem => ?_⟩
  obtain ⟨ssid, hssid, rfl⟩ := List.mem_map.mp hitem
  obtain ⟨line, hline, hsaved⟩ := List.mem_filterMap.mp hssid
  exact isUtf8_savedSsid hsaved (isUtf8_lines h (List.mem_of_mem_drop hline))

end

/-! ## The board -/

theorem isUtf8_sysinfo {cfg : SystemConfig} {lines : List (String × Json)} (hcfg : cfg.isUtf8 = true)
    (hlines : ∀ line ∈ lines, Text.isUtf8 line.1 = true ∧ line.2.isUtf8 = true) :
    (SystemHandlers.sysinfo cfg lines).isUtf8 = true := by
  simp only [SystemConfig.isUtf8, Bool.and_eq_true] at hcfg
  have hset (data : Json) (hdata : data.isUtf8 = true) :
      (lines.foldl (fun data line => Json.set data line.1 line.2) data).isUtf8 = true := by
    induction lines generalizing data with
    | nil => exact hdata
    | cons line lines ih =>
      rw [List.forall_mem_cons] at hlines
      exact ih hlines.2 _ (Json.isUtf8_set hdata hlines.1.1 hlines.1.2)
  refine hset _ ?_
  rw [Json.isUtf8_obj]
  simp only [List.forall_mem_cons]
  exact ⟨⟨by decide, hcfg.1.1⟩, ⟨by decide, hcfg.1.2⟩, List.forall_mem_nil _⟩

/-! ## The diagnostics -/

/-- No call of the uploader fails, and what its command says of a failure is UTF-8. -/
def Collected : RemoteCommand.Event → Prop
  | ⟨.run _ _, result⟩ => Text.isUtf8 result.stdErr = true
  | e => ¬ RemoteCommand.Spoils e

section

open DiagnosticsUploader

variable {cfg : DiagnosticsUploader.Config} {package trigger : String} {commandId : Option Int}

theorem returns_post : Returns Collected (post cfg package trigger commandId) fun result =>
    Text.isUtf8 result.error = true := by
  have hfailed (code : Int) : Text.isUtf8 ("Upload failed (" ++ toString code ++ ")") = true :=
    Text.isUtf8_append (Text.isUtf8_append (by decide) (Text.isUtf8_toString code)) (by decide)
  have hnone : Text.isUtf8 "No auth token available" = true := by decide
  have hempty : Text.isUtf8 "" = true := rfl
  refine returns_ask_bind.mpr fun headers hheaders => ?_
  cases headers with
  | none => exact absurd rfl hheaders
  | some token =>
    cases token with
    | none => exact hnone
    | some token =>
      refine returns_ask_bind.mpr fun res _ => ?_
      split
      · refine returns_ask_bind.mpr fun done hdone => ?_
        cases done with
        | none => exact absurd rfl hdone
        | some done => exact hfailed _
      · split
        · exact hfailed _
        · exact hempty

theorem returns_uploadPending : Returns Collected (uploadPending cfg commandId) fun result =>
    Text.isUtf8 result.error = true := by
  refine returns_ask_bind.mpr fun package _ => returns_post.bind fun result hresult => ?_
  split
  · exact returns_ask_bind.mpr fun _ _ => hresult
  · exact hresult

theorem returns_collect : Returns Collected (collect cfg trigger commandId) fun result =>
    Text.isUtf8 result.error = true := by
  refine returns_ask_bind.mpr fun res hres => ?_
  split
  · exact Text.isUtf8_append (by decide) hres
  · exact returns_post

theorem returns_collectAndUpload : Returns Collected (collectAndUpload cfg trigger commandId) fun result =>
    Text.isUtf8 result.error = true := by
  refine returns_ask_bind.mpr fun found hfound => ?_
  cases found with
  | none => exact absurd rfl hfound
  | some pending =>
    cases pending with
    | true => exact returns_uploadPending.bind fun _ _ => returns_collect
    | false => exact returns_collect

end

end ShareFrame.Dashboard
