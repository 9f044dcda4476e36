import Mathlib.Tactic.Common

/-!
# Websocket message types

The names the server and the frame give their messages.
-/

namespace ShareFrame

inductive WsMessageType where
  -- inbound
  | picture
  | clearImages
  | clearDisplay
  | command
  -- outbound
  | checkSentImagesExpiry
  | checkMissingImages
  | commandResult
  deriving DecidableEq, Repr

def wsMessageTypeToString : WsMessageType → String
  | .picture => "picture"
  | .clearImages => "clear_specific_sent_images"
  | .clearDisplay => "clear_display"
  | .command => "command"
  | .checkSentImagesExpiry => "check_sent_images_expiry"
  | .checkMissingImages => "check_missing_images"
  | .commandResult => "command_result"

def wsMessageTypeFromString (s : String) : Option WsMessageType :=
  if s = "picture" then some .picture
  else if s = "clear_specific_sent_images" then some .clearImages
  else if s = "clear_display" then some .clearDisplay
  else if s = "command" then some .command
  else if s = "check_sent_images_expiry" then some .checkSentImagesExpiry
  else if s = "check_missing_images" then some .checkMissingImages
  else if s = "command_result" then some .commandResult
  else none

end ShareFrame
