import ShareFrame.Dashboard.Outside
import ShareFrame.Settings.NightWindow
import ShareFrame.Settings.PlaybackOrder

/-!
# Validation of requests

The checks of `dashboard::Validation`, and the shape that all handlers with a
request body share (`bodyHandler`): parse, read the fields and check them, act.
Only the parse is guarded, what a read throws leaves the handler.
-/

namespace ShareFrame.Dashboard

open HTTPClient Interaction

namespace Validation

def MAX_SSID_LENGTH : Nat := 32
def MAX_PASSWORD_LENGTH : Nat := 63
def MIN_PASSWORD_LENGTH : Nat := 8
def MAX_NETWORK_NAME_LENGTH : Nat := 128
def MIN_INTERVAL_SECS : Int := 180
def MAX_INTERVAL_SECS : Int := 86400
def MAX_CUSTOM_ORDER_LENGTH : Nat := 1000
def MAX_LOG_LINES : Int := 10000
def DEFAULT_LOG_LINES : Int := 100

def containsControlChars (s : String) : Bool := s.toList.any fun c => c.val < 0x20 && c != ' '

def isValidSsid (ssid : String) : Bool :=
  ssid != "" && ssid.utf8ByteSize ≤ MAX_SSID_LENGTH && !containsControlChars ssid

def isValidPassword (password : String) : Bool :=
  MIN_PASSWORD_LENGTH ≤ password.utf8ByteSize && password.utf8ByteSize ≤ MAX_PASSWORD_LENGTH &&
    !containsControlChars password

/-- hostapd takes printable ASCII only. -/
def isValidWpaPassphrase (password : String) : Bool :=
  MIN_PASSWORD_LENGTH ≤ password.utf8ByteSize && password.utf8ByteSize ≤ MAX_PASSWORD_LENGTH &&
    password.toList.all fun c => 0x20 ≤ c.val && c.val ≤ 0x7e

def isValidNetworkName (name : String) : Bool :=
  name != "" && name.utf8ByteSize ≤ MAX_NETWORK_NAME_LENGTH && !containsControlChars name

def isAllowedServiceName (name : String) (allowed : List String) : Bool := allowed.contains name

def clampLogLines (lines : Int) : Int :=
  if lines ≤ 0 then DEFAULT_LOG_LINES else min lines MAX_LOG_LINES

def isValidSlideshowAction (action : String) : Bool := action = "start" || action = "stop"

def isValidIntervalSecs (secs : Int) : Bool := MIN_INTERVAL_SECS ≤ secs && secs ≤ MAX_INTERVAL_SECS

def isValidHour (hour : Int) : Bool := 0 ≤ hour && hour ≤ 23

def isValidPlaybackMode (mode : String) : Bool := (playbackModeFromString mode).isSome

/-- The value that `get<int64_t>` makes of an integer. -/
def int64 (n : Int) : Int := n.bmod (Nat.pow 2 64)

/-- A stored picture id: a positive integer. -/
def parseImageId : Json → Option Int
  | .int n => if int64 n > 0 then some (int64 n) else none
  | _ => none

/-- The loop of `parseCustomOrder`. -/
def parseIds (ids : List Int) : List Json → Option (List Int)
  | [] => some ids
  | .int n :: rest => parseIds (if int64 n ∈ ids then ids else ids ++ [int64 n]) rest
  | _ => none

/-- Ids of a custom play order, duplicates dropped. -/
def parseCustomOrder : Json → Option (List Int)
  | .arr items => if items.length > MAX_CUSTOM_ORDER_LENGTH then none else parseIds [] items
  | _ => none

end Validation

/-! ## Handlers with a body -/

/-- The fields of a body behind their checks. -/
inductive Checked (Args : Type) where
  | refused (message : String)
  | accepted (args : Args)
  deriving DecidableEq, Repr

def require {Args : Type} (valid : Bool) (message : String) (args : Args) : Checked Args :=
  if valid then .accepted args else .refused message

section

variable {Op : Type} {Ans : Op → Type} {Args : Type}

/-- Behind the parse. -/
def answerBody (read : Json → Except Json.Error (Checked Args)) (act : Args → Prog Ans Error Response) (body : Json) :
    Prog Ans Error Response := do
  match ← json (read body) with
  | .refused message => pure (badRequest message)
  | .accepted args => act args

def bodyHandler (parse : Bytes → Option Json) (read : Json → Except Json.Error (Checked Args))
    (act : Args → Prog Ans Error Response) (req : Request) : Prog Ans Error Response :=
  match parse req.body with
  | none => pure (badRequest "Invalid JSON")
  | some body => answerBody read act body

end

end ShareFrame.Dashboard
