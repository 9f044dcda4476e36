import ShareFrame.Util.Json

/-!
# Messages between the services

A message travels as the text of a document with its type and its data. What is
sent arrives as it is (`parseIpcMessage_toJson`), for every writer and reader of
texts that are inverse on this document.
-/

namespace ShareFrame

inductive IpcMessageType where
  | skipImage
  | updateDisplayInterval
  | getDisplayInterval
  | updateNightMode
  | getNightMode
  | updatePlaybackOrder
  | getPlaybackOrder
  | getScreenInfo
  | clearDisplay
  | setSlideshowActive
  | getSlideshowActive
  | getSecondsUntilNext
  | getHealth
  | getDisplayStats
  | updateCheckLatest
  | updatePerform
  | updateStatus
  | updateHistory
  | showStatusScreen
  | hideStatusScreen
  | showImage
  | getServerConnection
  | updateCustomization
  | getCustomization
  deriving DecidableEq, Repr

structure IpcMessage where
  type : IpcMessageType
  data : Json := .null
  deriving DecidableEq, Repr

def ipcMessageTypeToString : IpcMessageType → String
  | .skipImage => "skip_image"
  | .updateDisplayInterval => "update_display_interval"
  | .getDisplayInterval => "get_display_interval"
  | .updateNightMode => "update_night_mode"
  | .getNightMode => "get_night_mode"
  | .updatePlaybackOrder => "update_playback_order"
  | .getPlaybackOrder => "get_playback_order"
  | .getScreenInfo => "get_screen_info"
  | .clearDisplay => "clear_display"
  | .setSlideshowActive => "set_slideshow_active"
  | .getSlideshowActive => "get_slideshow_active"
  | .getSecondsUntilNext => "get_seconds_until_next"
  | .getHealth => "get_health"
  | .getDisplayStats => "get_display_stats"
  | .updateCheckLatest => "update_check_latest"
  | .updatePerform => "update_perform"
  | .updateStatus => "update_status"
  | .updateHistory => "update_history"
  | .showStatusScreen => "show_status_screen"
  | .hideStatusScreen => "hide_status_screen"
  | .showImage => "show_image"
  | .getServerConnection => "get_server_connection"
  | .updateCustomization => "update_customization"
  | .getCustomization => "get_customization"

def ipcMessageTypeFromString : String → Option IpcMessageType
  | "skip_image" => some .skipImage
  | "update_display_interval" => some .updateDisplayInterval
  | "get_display_interval" => some .getDisplayInterval
  | "update_night_mode" => some .updateNightMode
  | "get_night_mode" => some .getNightMode
  | "update_playback_order" => some .updatePlaybackOrder
  | "get_playback_order" => some .getPlaybackOrder
  | "get_screen_info" => some .getScreenInfo
  | "clear_display" => some .clearDisplay
  | "set_slideshow_active" => some .setSlideshowActive
  | "get_slideshow_active" => some .getSlideshowActive
  | "get_seconds_until_next" => some .getSecondsUntilNext
  | "get_health" => some .getHealth
  | "get_display_stats" => some .getDisplayStats
  | "update_check_latest" => some .updateCheckLatest
  | "update_perform" => some .updatePerform
  | "update_status" => some .updateStatus
  | "update_history" => some .updateHistory
  | "show_status_screen" => some .showStatusScreen
  | "hide_status_screen" => some .hideStatusScreen
  | "show_image" => some .showImage
  | "get_server_connection" => some .getServerConnection
  | "update_customization" => some .updateCustomization
  | "get_customization" => some .getCustomization
  | _ => none

theorem ipcMessageTypeFromString_toString (type : IpcMessageType) :
    ipcMessageTypeFromString (ipcMessageTypeToString type) = some type := by
  cases type <;> rfl

section

variable (dump : Json → List UInt8) (parse : List UInt8 → Option Json)

/-- The document of a message; data that is null is left out. -/
def IpcMessage.document (msg : IpcMessage) : Json :=
  .obj (("type", .str (ipcMessageTypeToString msg.type)) ::
    if msg.data = .null then [] else [("data", msg.data)])

/-- The text of a document, with a line break behind it. -/
def line (doc : Json) : List UInt8 := dump doc ++ [10]

def toJson (msg : IpcMessage) : List UInt8 := line dump msg.document

def parseIpcMessage (text : List UInt8) : Option IpcMessage :=
  match parse text with
  | none => none
  | some j =>
    match j.find "type" with
    | some (.str typeStr) => (ipcMessageTypeFromString typeStr).map fun type =>
      { type, data := (j.find "data").getD .null }
    | _ => none

/-- The line of a document is read back. -/
def RoundTrips (doc : Json) : Prop := ∃ doc', parse (line dump doc) = some doc' ∧ doc.Same doc'

variable {dump parse}

/-- What is sent arrives as it is. -/
theorem parseIpcMessage_toJson {msg : IpcMessage} (h : RoundTrips dump parse msg.document) :
    ∃ data, parseIpcMessage parse (toJson dump msg) = some { msg with data } ∧
      msg.data.Same data := by
  obtain ⟨doc, hparse, hsame⟩ := h
  obtain ⟨type, htype, hstr⟩ := hsame.find_some
    (show msg.document.find "type" = some (.str (ipcMessageTypeToString msg.type)) from rfl)
  cases hstr
  unfold parseIpcMessage toJson
  simp only [hparse, htype, ipcMessageTypeFromString_toString, Option.map_some]
  by_cases hnull : msg.data = .null
  · have hfind : doc.find "data" = none := by
      refine hsame.find_none ?_
      rw [IpcMessage.document, if_pos hnull]
      rfl
    rw [hfind, hnull]
    exact ⟨_, rfl, .null⟩
  · have hdoc : msg.document.find "data" = some msg.data := by
      rw [IpcMessage.document, if_neg hnull]
      rfl
    obtain ⟨data, hfind, hdata⟩ := hsame.find_some hdoc
    rw [hfind]
    exact ⟨data, rfl, hdata⟩

end

end ShareFrame
