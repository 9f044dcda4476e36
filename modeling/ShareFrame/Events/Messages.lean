import ShareFrame.Settings.RuntimeSettings

/-!
# Event payloads

The payloads of the bus topics that decide what the panel shows, and the messages
that the display service publishes for the other services (`DisplayEvent`).
-/

namespace ShareFrame

/-- Logo screens other services ask the display to show. -/
inductive StatusScreenKind where
  | update
  | reboot
  | factoryReset
  deriving DecidableEq, Repr

/-- `AP_SETUP_STATE`: whether the panel should show the setup screen, and the AP to join. -/
structure ApSetupStateEvent where
  required : Bool := false
  ssid : String := ""
  password : String := ""
  deriving DecidableEq, Repr

/-- `STATUS_SCREEN`: no kind hides the screen again. -/
structure StatusScreenEvent where
  kind : Option StatusScreenKind := none
  version : String := ""
  deriving DecidableEq, Repr

def statusScreenKindFromString : String → Option StatusScreenKind
  | "update" => some .update
  | "reboot" => some .reboot
  | "factory_reset" => some .factoryReset
  | _ => none

/-- The topics that `DisplayIpc::handle` publishes to, each with its payload. -/
inductive DisplayEvent where
  | skipImage
  | showImage (id : Int)
  | updateDisplayInterval (intervalSecs : Int)
  | updateNightMode (night : StoredNight)
  | updatePlaybackOrder (mode : PlaybackMode) (customOrder : List Int)
  | updateCustomization (showSender : Bool)
  | clearDisplay
  | setSlideshowActive (active : Bool)
  | statusScreen (event : StatusScreenEvent)
  deriving DecidableEq, Repr

end ShareFrame
