import ShareFrame.Events.Messages
import ShareFrame.Ipc.IpcProtocol
import ShareFrame.Lib.Interaction

/-!
# Messages to the display service

`DisplayIpc::handle` answers the other services. What it reads (the loop, the
settings, the repository, the panel) and what it publishes on the bus are the
operations of a program, so that other threads can step between two of them. What
it throws leaves the reply empty.
-/

namespace ShareFrame.DisplayIpc

open Interaction

/-- `DisplayManager::ScreenSnapshot` -/
structure ScreenSnapshot where
  state : String := "empty"
  source : String := ""
  seq : Int := 0
  updatedAt : Int := 0
  deriving DecidableEq, Repr

inductive Op where
  -- DisplayImageLoop
  | isRefreshing
  | isReady
  | shuffleOrder
  | currentImageId
  | secondsUntilNext
  -- RuntimeSettings
  | getDisplayInterval
  | isSlideshowActive
  | isNightModeEnabled
  | getNightStartHour
  | getNightEndHour
  | getNightInterval
  | getNightStyle
  | isNightNow
  | getPlaybackMode
  | getCustomOrder
  | isShowSender
  -- ImageRepository
  | getAll
  | getAllIds
  | getByIds (ids : List Int)
  -- DisplayManager
  | screenSnapshot
  | healthSnapshot
  -- EventBus
  | publish (event : DisplayEvent)
  deriving DecidableEq, Repr

/-- The answers. Where the database throws, there is `none`. -/
abbrev Ans : Op → Type
  | .isRefreshing | .isReady | .isSlideshowActive | .isNightModeEnabled | .isNightNow
  | .isShowSender => Bool
  | .shuffleOrder | .getCustomOrder => List Int
  | .currentImageId | .secondsUntilNext | .getDisplayInterval | .getNightStartHour
  | .getNightEndHour | .getNightInterval => Int
  | .getNightStyle => NightStyle
  | .getPlaybackMode => PlaybackMode
  | .getAll | .getByIds _ => Option (List Image)
  | .getAllIds => Option (List Int)
  | .screenSnapshot => ScreenSnapshot
  | .healthSnapshot => Json
  | .publish _ => Unit

/-- What leaves the handler. -/
inductive Error where
  | json (error : Json.Error)
  | database
  deriving DecidableEq, Repr

abbrev Handler := Prog Ans Error

def ask (op : Op) : Handler (Ans op) := Prog.ask op

def json {α : Type} (x : Except Json.Error α) : Handler α := Prog.lift (x.mapError .json)

/-- A query that throws where it answers `none`. -/
def query {α : Type} : Option α → Handler α
  | some a => .pure a
  | none => .throw .database

def empty : Json := .obj []

def ids (list : List Int) : Json := .arr (list.map .int)

/-! ## Payloads that are checked

Each is read to the event it becomes; a payload that does not pass its check is
dropped. -/

def readDisplayInterval (data : Json) : Except Json.Error (Option DisplayEvent) := do
  let secs ← data.value Json.getInt "interval_secs" 0
  pure (if secs ≤ 0 then none else some (.updateDisplayInterval secs))

def checkNightMode (enabled : Bool) (startHour endHour secs : Int) (style : Option NightStyle) :
    Option DisplayEvent :=
  match style with
  | none => none
  | some style =>
    if h : startHour < 0 ∨ startHour > 23 ∨ endHour < 0 ∨ endHour > 23 ∨ startHour = endHour ∨
        secs ≤ 0 then none
    else some (.updateNightMode ⟨{ enabled, startHour, endHour, intervalSecs := secs, style },
      by simp only [NightMode.HoursOk, Night.HourOk]; omega⟩)

def readNightMode (data : Json) : Except Json.Error (Option DisplayEvent) := do
  let enabled ← data.value Json.getBool "enabled" false
  let startHour ← data.value Json.getInt "start_hour" (-1)
  let endHour ← data.value Json.getInt "end_hour" (-1)
  let secs ← data.value Json.getInt "interval_secs" 0
  let style ← data.value Json.getString "style" ""
  pure (checkNightMode enabled startHour endHour secs (nightStyleFromString style))

/-- The order; what its read throws is caught. -/
def readCustomOrder (data : Json) : List Int :=
  match data.value Json.getInt64s "custom_order" [] with
  | .ok customOrder => customOrder
  | .error _ => []

def readPlaybackOrder (data : Json) : Except Json.Error (Option DisplayEvent) := do
  let mode ← data.value Json.getString "mode" ""
  pure ((playbackModeFromString mode).map fun mode =>
    .updatePlaybackOrder mode (readCustomOrder data))

/-- `find` and `is_boolean` work on every document. -/
def readCustomization (data : Json) : Except Json.Error (Option DisplayEvent) :=
  match data.find "show_sender" with
  | some (.bool showSender) => .ok (some (.updateCustomization showSender))
  | _ => .ok none

def readSlideshowActive (data : Json) : Except Json.Error (Option DisplayEvent) := do
  let active ← data.value Json.getBool "active" true
  pure (some (.setSlideshowActive active))

def readStatusScreen (data : Json) : Except Json.Error (Option DisplayEvent) := do
  let screen ← data.value Json.getString "screen" ""
  match statusScreenKindFromString screen with
  | none => pure none
  | some kind =>
    let version ← data.value Json.getString "version" ""
    pure (some (.statusScreen { kind := some kind, version }))

/-- Publish what was read, and reply with an empty document. -/
def publishRead (read : Except Json.Error (Option DisplayEvent)) : Handler Json := do
  match ← json read with
  | none => pure empty
  | some event =>
    ask (.publish event)
    pure empty

/-! ## The handler -/

def skipImage : Handler Json := do
  if ← ask .isRefreshing then pure (.obj [("refreshing", .bool true)])
  else
    ask (.publish .skipImage)
    pure (.obj [("refreshing", .bool false)])

def showImage (id : Int) : Handler Json := do
  if ← ask .isRefreshing then pure (.obj [("refreshing", .bool true)])
  else if !(← ask .isSlideshowActive) then pure (.obj [("inactive", .bool true)])
  else
    let stored ← query (← ask (.getByIds [id]))
    if stored = [] then pure (.obj [("found", .bool false)])
    else
      ask (.publish (.showImage id))
      pure (.obj [("refreshing", .bool false), ("found", .bool true)])

/-- The id in a `ShowImage`. -/
def readId (data : Json) : Except Json.Error Int :=
  if data.isObject then data.value Json.getInt64 "id" 0 else .ok 0

def getNightMode : Handler Json := do
  let enabled ← ask .isNightModeEnabled
  let startHour ← ask .getNightStartHour
  let endHour ← ask .getNightEndHour
  let secs ← ask .getNightInterval
  let style ← ask .getNightStyle
  let activeNow ← ask .isNightNow
  pure (.obj [("enabled", .bool enabled), ("start_hour", .int startHour), ("end_hour", .int endHour),
    ("interval_secs", .int secs), ("style", .str style.toString), ("active_now", .bool activeNow)])

def getPlaybackOrder : Handler Json := do
  let mode ← ask .getPlaybackMode
  let customOrder ← ask .getCustomOrder
  let shuffleOrder ← ask .shuffleOrder
  let current ← ask .currentImageId
  pure (.obj [("mode", .str mode.toString), ("custom_order", ids customOrder),
    ("shuffle_order", ids shuffleOrder), ("current_image_id", .int current)])

/-- The stored picture that a screen shows: its id and sender. -/
def shownPicture (screen : ScreenSnapshot) : Handler (Int × String) := do
  if screen.state = "image" then
    let all ← query (← ask .getAll)
    pure (match all.find? (·.imagePath = screen.source) with
      | some image => (image.id, image.sender)
      | none => (0, ""))
  else pure (0, "")

def getScreenInfo : Handler Json := do
  let screen ← ask .screenSnapshot
  let (imageId, sender) ← shownPicture screen
  pure (.obj [("seq", .int screen.seq), ("state", .str screen.state), ("source", .str screen.source),
    ("updated_at", .int screen.updatedAt), ("image_id", .int imageId), ("sender", .str sender)])

def getSlideshowActive : Handler Json := do
  let active ← ask .isSlideshowActive
  let ready ← ask .isReady
  let refreshing ← ask .isRefreshing
  let stored ← query (← ask .getAllIds)
  pure (.obj [("active", .bool active), ("loop_started", .bool ready),
    ("refreshing", .bool refreshing), ("image_count", .int stored.length)])

def handle (msg : IpcMessage) : Handler Json :=
  match msg.type with
  | .skipImage => skipImage
  | .showImage => do showImage (← json (readId msg.data))
  | .updateDisplayInterval => publishRead (readDisplayInterval msg.data)
  | .getDisplayInterval => do
    let secs ← ask .getDisplayInterval
    pure (.obj [("interval_secs", .int secs)])
  | .updateNightMode => publishRead (readNightMode msg.data)
  | .getNightMode => getNightMode
  | .updatePlaybackOrder => publishRead (readPlaybackOrder msg.data)
  | .getPlaybackOrder => getPlaybackOrder
  | .updateCustomization => publishRead (readCustomization msg.data)
  | .getCustomization => do
    let showSender ← ask .isShowSender
    pure (.obj [("show_sender", .bool showSender)])
  | .getScreenInfo => getScreenInfo
  | .clearDisplay => publishRead (.ok (some .clearDisplay))
  | .setSlideshowActive => publishRead (readSlideshowActive msg.data)
  | .getSlideshowActive => getSlideshowActive
  | .getSecondsUntilNext => do
    let secs ← ask .secondsUntilNext
    pure (.obj [("seconds_until_next", .int secs)])
  | .getHealth => pure (.obj [("running", .bool true)])
  | .getDisplayStats => ask .healthSnapshot
  | .showStatusScreen => publishRead (readStatusScreen msg.data)
  | .hideStatusScreen => publishRead (.ok (some (.statusScreen {})))
  | .updateCheckLatest | .updatePerform | .updateStatus | .updateHistory | .getServerConnection =>
    pure empty

/-! ## What is published -/

section Published

open Prog

/-- What the payload of a message is read to. -/
def readEvent (msg : IpcMessage) : Except Json.Error (Option DisplayEvent) :=
  match msg.type with
  | .updateDisplayInterval => readDisplayInterval msg.data
  | .updateNightMode => readNightMode msg.data
  | .updatePlaybackOrder => readPlaybackOrder msg.data
  | .updateCustomization => readCustomization msg.data
  | .setSlideshowActive => readSlideshowActive msg.data
  | .showStatusScreen => readStatusScreen msg.data
  | .clearDisplay => .ok (some .clearDisplay)
  | .hideStatusScreen => .ok (some (.statusScreen {}))
  | _ => .ok none

/-- The message that publishes an event. -/
def source : DisplayEvent → IpcMessageType
  | .skipImage => .skipImage
  | .showImage _ => .showImage
  | .updateDisplayInterval _ => .updateDisplayInterval
  | .updateNightMode _ => .updateNightMode
  | .updatePlaybackOrder _ _ => .updatePlaybackOrder
  | .updateCustomization _ => .updateCustomization
  | .clearDisplay => .clearDisplay
  | .setSlideshowActive _ => .setSlideshowActive
  | .statusScreen event => if event.kind.isSome then .showStatusScreen else .hideStatusScreen

/-- Every payload is read to an event of its own kind. -/
theorem readEvent_source {msg : IpcMessage} {event : DisplayEvent}
    (h : readEvent msg = .ok (some event)) : source event = msg.type := by
  unfold readEvent at h
  split at h
  next hm =>
    obtain ⟨secs, -, h⟩ := Json.eq_ok_of_bind h
    have h := Except.ok.inj h
    split at h <;> cases h
    exact hm.symm
  next hm =>
    obtain ⟨enabled, -, h⟩ := Json.eq_ok_of_bind h
    obtain ⟨startHour, -, h⟩ := Json.eq_ok_of_bind h
    obtain ⟨endHour, -, h⟩ := Json.eq_ok_of_bind h
    obtain ⟨secs, -, h⟩ := Json.eq_ok_of_bind h
    obtain ⟨style, -, h⟩ := Json.eq_ok_of_bind h
    have h := Except.ok.inj h
    unfold checkNightMode at h
    split at h <;> [skip; split at h] <;> cases h
    exact hm.symm
  next hm =>
    obtain ⟨mode, -, h⟩ := Json.eq_ok_of_bind h
    obtain ⟨m, -, rfl⟩ := Option.map_eq_some_iff.mp (Except.ok.inj h)
    exact hm.symm
  next hm =>
    unfold readCustomization at h
    split at h <;> cases h
    exact hm.symm
  next hm =>
    obtain ⟨active, -, h⟩ := Json.eq_ok_of_bind h
    cases h
    exact hm.symm
  next hm =>
    obtain ⟨screen, -, h⟩ := Json.eq_ok_of_bind h
    split at h
    · cases h
    · obtain ⟨version, -, h⟩ := Json.eq_ok_of_bind h
      cases h
      exact hm.symm
  next hm => cases h; exact hm.symm
  next hm => cases h; exact hm.symm
  next => cases h

theorem readEvent_own {msg : IpcMessage} {event : DisplayEvent}
    (h : readEvent msg = .ok (some event)) (id : Int) : event ≠ .showImage id := by
  rintro rfl
  have hm : .showImage = msg.type := readEvent_source h
  rw [readEvent, ← hm] at h
  cases h

theorem readCustomOrder_isInt64 (data : Json) : ∀ id ∈ readCustomOrder data, Json.IsInt64 id := by
  unfold readCustomOrder
  split
  next ids h => exact Json.isInt64_value h
  next => exact nofun

theorem readEvent_isInt64 {msg : IpcMessage} {mode : PlaybackMode} {ids : List Int}
    (h : readEvent msg = .ok (some (.updatePlaybackOrder mode ids))) :
    ∀ id ∈ ids, Json.IsInt64 id := by
  have hm : .updatePlaybackOrder = msg.type := readEvent_source h
  rw [readEvent, ← hm] at h
  obtain ⟨mode', -, h⟩ := Json.eq_ok_of_bind h
  obtain ⟨m, -, he⟩ := Option.map_eq_some_iff.mp (Except.ok.inj h)
  cases he
  exact readCustomOrder_isInt64 msg.data

/-- A publication is of an event that `P` allows. -/
def Allows (P : DisplayEvent → Prop) : Op → Prop
  | .publish event => P event
  | _ => True

variable {P : DisplayEvent → Prop}

theorem allows_ask {op : Op} {f : Ans op → Handler Json} (h : Allows P op)
    (hf : ∀ a, Uses (Allows P) (f a)) : Uses (Allows P) (ask op >>= f) := Uses.bind (.ask h) hf

theorem uses_query {A : Op → Prop} {α : Type} {x : Option α} : Uses A (query x) := by
  cases x
  · exact .throw
  · exact .pure

theorem uses_publishRead {read : Except Json.Error (Option DisplayEvent)}
    (h : ∀ event, read = .ok (some event) → P event) : Uses (Allows P) (publishRead read) := by
  unfold publishRead json
  match read, h with
  | .error e, _ => exact .throw
  | .ok none, _ => exact .pure
  | .ok (some event), h => exact allows_ask (h event rfl) fun _ => .pure

/-- The events that a message may publish. -/
def May (msg : IpcMessage) (event : DisplayEvent) : Prop :=
  (msg.type = .skipImage ∧ event = .skipImage) ∨
    (msg.type = .showImage ∧ ∃ id, event = .showImage id) ∨ readEvent msg = .ok (some event)

theorem uses_handle (msg : IpcMessage) : Uses (Allows (May msg)) (handle msg) := by
  have hread : ∀ read, readEvent msg = read → Uses (Allows (May msg)) (publishRead read) :=
    fun read hm => uses_publishRead fun event he => .inr (.inr (hm.trans he))
  unfold handle
  split
  next hm =>
    refine allows_ask trivial fun b => ?_
    split
    · exact .pure
    · exact allows_ask (.inl ⟨hm, rfl⟩) fun _ => .pure
  next hm =>
    refine Uses.bind .lift fun id => allows_ask trivial fun b => ?_
    split
    · exact .pure
    · refine allows_ask trivial fun active => ?_
      split
      · exact .pure
      · refine allows_ask trivial fun stored => uses_query.bind fun stored => ?_
        split
        · exact .pure
        · exact allows_ask (.inr (.inl ⟨hm, id, rfl⟩)) fun _ => .pure
  next hm => exact hread _ (by simp only [readEvent, hm])
  next => exact allows_ask trivial fun _ => .pure
  next hm => exact hread _ (by simp only [readEvent, hm])
  next =>
    iterate 6 refine allows_ask trivial fun _ => ?_
    exact .pure
  next hm => exact hread _ (by simp only [readEvent, hm])
  next =>
    iterate 4 refine allows_ask trivial fun _ => ?_
    exact .pure
  next hm => exact hread _ (by simp only [readEvent, hm])
  next => exact allows_ask trivial fun _ => .pure
  next =>
    refine allows_ask trivial fun screen => Uses.bind ?_ fun _ => .pure
    unfold shownPicture
    split
    · exact Uses.bind (.ask trivial) fun _ => uses_query.bind fun _ => .pure
    · exact .pure
  next hm => exact hread _ (by simp only [readEvent, hm])
  next hm => exact hread _ (by simp only [readEvent, hm])
  next =>
    iterate 4 refine allows_ask trivial fun _ => ?_
    exact uses_query.bind fun _ => .pure
  next => exact allows_ask trivial fun _ => .pure
  next => exact .pure
  next => exact .ask trivial
  next hm => exact hread _ (by simp only [readEvent, hm])
  next hm => exact hread _ (by simp only [readEvent, hm])
  all_goals exact .pure

/-- What a message publishes: a skip, the picture asked for, or what its payload is read to. -/
theorem handle_publishes {msg : IpcMessage} {t : List (Event Ans)} {event : DisplayEvent}
    (h : Calls (handle msg) t (.publish event)) : May msg event :=
  uses_handle msg t _ h

end Published

end ShareFrame.DisplayIpc
