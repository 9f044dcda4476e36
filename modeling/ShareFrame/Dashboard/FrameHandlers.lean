import ShareFrame.Dashboard.Validation

/-!
# The slideshow and its pictures

`FrameHandlers` and `SlideshowImageHandlers`: the display service answers over IPC,
the pictures come from the repository and the disk.
-/

namespace ShareFrame.Dashboard

open HTTPClient Interaction Service

/-- The display section of the configuration. -/
structure DisplayConfig where
  intervalSecs : Int := 900
  nightModeEnabled : Bool := true
  nightStartHour : Int := 1
  nightEndHour : Int := 6
  nightIntervalSecs : Int := 3600
  nightStyle : String := "hold"
  deriving DecidableEq, Repr

namespace FrameHandlers

/-- A member of a reply that may be missing as a whole. -/
def valueOr {α : Type} (reply : Option Json) (get : Json → Except Json.Error α) (key : String)
    (dflt : α) : Service α :=
  match reply with
  | some reply => json (reply.value get key dflt)
  | none => pure dflt

def nightModeStatus (cfg : DisplayConfig) (night : Option Json) : Service Json := do
  let enabled ← match night with
    | some night => json (night.value Json.getBool "enabled" false)
    | none => pure cfg.nightModeEnabled
  let startHour ← valueOr night Json.getInt "start_hour" cfg.nightStartHour
  let endHour ← valueOr night Json.getInt "end_hour" cfg.nightEndHour
  let secs ← valueOr night Json.getInt "interval_secs" cfg.nightIntervalSecs
  let style ← valueOr night Json.getString "style" cfg.nightStyle
  let activeNow ← valueOr night Json.getBool "active_now" false
  pure (.obj [("enabled", .bool enabled), ("start_hour", .int startHour), ("end_hour", .int endHour),
    ("interval_seconds", .int secs), ("style", .str style), ("active_now", .bool activeNow)])

def handleStatus (cfg : DisplayConfig) : Service Response := do
  let active ← sendAndReceive .display .getSlideshowActive
  let interval ← sendAndReceive .display .getDisplayInterval
  match active, interval with
  | some active, some interval => do
    let seconds ← sendAndReceive .display .getSecondsUntilNext
    let night ← sendAndReceive .display .getNightMode
    let screen ← sendAndReceive .display .getScreenInfo
    let nightMode ← nightModeStatus cfg night
    let isActive ← json (active.value Json.getBool "active" true)
    let loopStarted ← json (active.value Json.getBool "loop_started" false)
    let refreshing ← json (active.value Json.getBool "refreshing" false)
    let imageCount ← json (active.value Json.getInt "image_count" 0)
    let secs ← json (interval.value Json.getInt "interval_secs" cfg.intervalSecs)
    let untilNext ← valueOr seconds Json.getInt "seconds_until_next" (-1)
    let seq ← valueOr screen Json.getInt64 "seq" 0
    let state ← valueOr screen Json.getString "state" "empty"
    let imageId ← valueOr screen Json.getInt64 "image_id" 0
    let sender ← valueOr screen Json.getString "sender" ""
    pure (jsonResponse 200 "OK" (.obj [("active", .bool isActive), ("loop_started", .bool loopStarted),
      ("refreshing", .bool refreshing), ("image_count", .int imageCount),
      ("interval_seconds", .int secs), ("seconds_until_next", .int untilNext),
      ("night_mode", nightMode),
      ("now_showing", .obj [("seq", .int seq), ("state", .str state), ("image_id", .int imageId),
        ("sender", .str sender)])]))
  | _, _ => pure (internalError "Service unavailable")

variable (parse : Bytes → Option Json)

/-- The setters that a handler ends with: a message to the display service, then the response. -/
def forward (type : IpcMessageType) (data response : Json) : Service Response := do
  let sent ← send .display type data
  pure (if sent then jsonResponse 200 "OK" response else internalError "IPC error")

def readControl (body : Json) : Except Json.Error (Checked String) := do
  let action ← body.value Json.getString "action" ""
  pure (require (Validation.isValidSlideshowAction action) "action must be 'start' or 'stop'" action)

def handleControl : Request → Service Response := bodyHandler parse readControl fun action =>
  forward .setSlideshowActive (.obj [("active", .bool (action = "start"))])
    (.obj [("action", .str action)])

def readInterval (body : Json) : Except Json.Error (Checked Int) := do
  let secs ← body.value Json.getInt "interval_seconds" 0
  pure (require (Validation.isValidIntervalSecs secs)
    "interval_seconds must be between 180 and 86400" secs)

def handleUpdateInterval : Request → Service Response := bodyHandler parse readInterval fun secs =>
  forward .updateDisplayInterval (.obj [("interval_secs", .int secs)])
    (.obj [("interval_seconds", .int secs)])

structure NightArgs where
  enabled : Bool
  startHour : Int
  endHour : Int
  secs : Int
  style : String
  deriving DecidableEq, Repr

def checkNightMode (args : NightArgs) : Checked NightArgs :=
  if !Validation.isValidHour args.startHour || !Validation.isValidHour args.endHour then
    .refused "start_hour and end_hour must be between 0 and 23"
  else if args.startHour = args.endHour then .refused "start_hour and end_hour must differ"
  else if !Validation.isValidIntervalSecs args.secs then
    .refused "interval_seconds must be between 180 and 86400"
  else if (nightStyleFromString args.style).isNone then
    .refused "style must be one of slower, hold, pause"
  else .accepted args

def readNightMode (body : Json) : Except Json.Error (Checked NightArgs) := do
  let enabled ← body.value Json.getBool "enabled" false
  let startHour ← body.value Json.getInt "start_hour" (-1)
  let endHour ← body.value Json.getInt "end_hour" (-1)
  let secs ← body.value Json.getInt "interval_seconds" 0
  let style ← body.value Json.getString "style" ""
  pure (checkNightMode { enabled, startHour, endHour, secs, style })

def handleUpdateNightMode : Request → Service Response := bodyHandler parse readNightMode fun args =>
  forward .updateNightMode
    (.obj [("enabled", .bool args.enabled), ("start_hour", .int args.startHour),
      ("end_hour", .int args.endHour), ("interval_secs", .int args.secs), ("style", .str args.style)])
    (.obj [("enabled", .bool args.enabled), ("start_hour", .int args.startHour),
      ("end_hour", .int args.endHour), ("interval_seconds", .int args.secs),
      ("style", .str args.style)])

def handleSkip : Service Response := do
  match ← sendAndReceive .display .skipImage with
  | none => pure (internalError "IPC error")
  | some result =>
    let refreshing ← json (result.value Json.getBool "refreshing" false)
    pure (if refreshing then errorResponse 409 "Conflict" "Display is refreshing"
      else jsonResponse 200 "OK")

def readShow (body : Json) : Except Json.Error (Checked Int) := do
  let id ← body.value .ok "id" .null
  pure (match Validation.parseImageId id with
    | none => .refused "id must be a positive integer"
    | some id => .accepted id)

/-- The reply of the display service to a picture that is to be shown. -/
def showAnswered (result : Json) : Except Json.Error Response := do
  let refreshing ← result.value Json.getBool "refreshing" false
  if refreshing then pure (errorResponse 409 "Conflict" "Display is refreshing")
  else
    let inactive ← result.value Json.getBool "inactive" false
    if inactive then pure (errorResponse 409 "Conflict" "Slideshow is paused")
    else
      let found ← result.value Json.getBool "found" false
      pure (if found then jsonResponse 200 "OK" else errorResponse 404 "Not Found" "Picture not found")

def showImage (id : Int) : Service Response := do
  match ← sendAndReceive .display .showImage (.obj [("id", .int id)]) with
  | none => pure (internalError "IPC error")
  | some result => json (showAnswered result)

def handleShow : Request → Service Response := bodyHandler parse readShow showImage

def handleClear : Service Response := do
  let sent ← send .display .clearDisplay
  pure (if sent then jsonResponse 200 "OK" else internalError "IPC error")

def handleDisplayStats : Service Response := do
  match ← sendAndReceive .display .getDisplayStats with
  | none => pure (internalError "Service unavailable")
  | some result => pure (jsonResponse 200 "OK" result)

def handleCustomization : Service Response := do
  match ← sendAndReceive .display .getCustomization with
  | none => pure (internalError "Service unavailable")
  | some result =>
    let showSender ← json (result.value Json.getBool "show_sender" false)
    pure (jsonResponse 200 "OK" (.obj [("show_sender", .bool showSender)]))

/-- `find` and `is_boolean` work on every document. -/
def readCustomization (body : Json) : Except Json.Error (Checked Bool) :=
  match body.find "show_sender" with
  | some (.bool showSender) => .ok (.accepted showSender)
  | _ => .ok (.refused "show_sender must be a boolean")

def handleUpdateCustomization : Request → Service Response :=
  bodyHandler parse readCustomization fun showSender =>
    forward .updateCustomization (.obj [("show_sender", .bool showSender)])
      (.obj [("show_sender", .bool showSender)])

end FrameHandlers

namespace SlideshowImageHandlers

def imageContentType (bytes : Bytes) : String :=
  if [0x89, 0x50, 0x4e, 0x47].isPrefixOf bytes then "image/png" else "image/jpeg"

/-- One entry of the list. -/
def entry (images : List Image) (id : Int) (position : Nat) : Service Json := do
  match images.find? (·.id = id) with
  | none => pure .null
  | some img =>
    let (width, height) ← call (.imageSize img.imagePath)
    let size ← call (.fileSize img.imagePath)
    pure (.obj [("id", .int img.id), ("sender", .str img.sender), ("received_at", .int img.receivedAt),
      ("expires_at", .int img.expiresAt), ("width", .int width), ("height", .int height),
      ("size_bytes", .int (size.getD 0)), ("position", .int position)])

def entries (images : List Image) : List Int → Nat → Service (List Json)
  | [], _ => pure []
  | id :: rest, position => do
    let first ← entry images id position
    let more ← entries images rest (position + 1)
    pure (first :: more)

def ids (list : List Int) : Json := .arr (list.map .int)

/-- The pictures, in the order that the playback mode gives them. -/
def listed (order : Json) : Service Response := do
  let mode ← json (order.value Json.getString "mode" "")
  let mode := (playbackModeFromString mode).getD .chronological
  let customOrder ← json (order.value Json.getInt64s "custom_order" [])
  let found ← call .getAll
  let images ← orThrow .database found
  let sequence ← if mode = .shuffle then do
      let shuffleOrder ← json (order.value Json.getInt64s "shuffle_order" [])
      pure (Playback.arrange images .custom shuffleOrder)
    else pure (Playback.arrange images mode customOrder)
  let list ← entries images sequence 1
  let current ← json (order.value Json.getInt64 "current_image_id" 0)
  pure (jsonResponse 200 "OK" (.obj [("mode", .str mode.toString), ("custom_order", ids customOrder),
    ("current_image_id", .int current), ("images", .arr list)]))

def handleList : Service Response := do
  match ← sendAndReceive .display .getPlaybackOrder with
  | none => pure (internalError "Service unavailable")
  | some order => listed order

def handleFile (qp : QueryParams) : Service Response := do
  match qp.lookup "id" with
  | none => pure (badRequest "id is required")
  | some text =>
    match Text.integer 64 text with
    | some (id, []) => do
      let found ← call (.getByIds [id])
      match ← orThrow .database found with
      | [] => pure (errorResponse 404 "Not Found" "Picture not found")
      | img :: _ =>
        match ← call (.readFile img.imagePath) with
        | none => pure (errorResponse 404 "Not Found" "Picture file missing")
        | some bytes => pure (binaryResponse (imageContentType bytes) bytes "private, max-age=86400")
    | _ => pure (badRequest "id must be an integer")

variable (parse : Bytes → Option Json)

structure OrderArgs where
  mode : String
  customOrder : Option (List Int)
  deriving DecidableEq, Repr

def readOrder (body : Json) : Except Json.Error (Checked OrderArgs) := do
  let mode ← body.value Json.getString "mode" ""
  if !Validation.isValidPlaybackMode mode then
    pure (.refused "mode must be 'shuffle', 'chronological', 'newest_first' or 'custom'")
  else
    pure (match body.find "custom_order" with
      | none => .accepted { mode, customOrder := none }
      | some order =>
        match Validation.parseCustomOrder order with
        | none => .refused "custom_order must be a list of picture ids"
        | some customOrder => .accepted { mode, customOrder := some customOrder })

/-- The custom order that is to be kept. -/
def currentOrder (current : Option Json) : Except Json.Error (List Int) :=
  match current with
  | none => .ok []
  | some current => current.value Json.getInt64s "custom_order" []

/-- The order that a request sets, or the one that the display service has. -/
def orderToSet (args : OrderArgs) : Service (List Int) :=
  match args.customOrder with
  | some customOrder => pure customOrder
  | none => do
    let current ← sendAndReceive .display .getPlaybackOrder
    json (currentOrder current)

def updateOrder (args : OrderArgs) : Service Response := do
  let customOrder ← orderToSet args
  FrameHandlers.forward .updatePlaybackOrder
    (.obj [("mode", .str args.mode), ("custom_order", ids customOrder)])
    (.obj [("mode", .str args.mode), ("custom_order", ids customOrder)])

def handleUpdateOrder : Request → Service Response := bodyHandler parse readOrder updateOrder

end SlideshowImageHandlers

end ShareFrame.Dashboard
