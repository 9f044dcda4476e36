import ShareFrame.Net.HTTPClient
import ShareFrame.Net.WsProtocol
import ShareFrame.Util.Json

/-!
# Inbound websocket frames

`WebsocketClient::_processMessage` handles a text frame on ixwebsocket's callback
thread, where nothing catches an exception that leaves it. The parser is a
parameter with its two exceptions; only one of them is caught.
-/

namespace ShareFrame.WebsocketClient

open HTTPClient (Bytes)

/-- The bus topics of inbound messages. -/
inductive Topic where
  | picture
  | clearImages
  | clearDisplay
  | remoteCommand
  deriving DecidableEq, Repr

/-- The topic of a message type; the others are not expected from the server. -/
def topic : WsMessageType → Option Topic
  | .picture => some .picture
  | .clearImages => some .clearImages
  | .clearDisplay => some .clearDisplay
  | .command => some .remoteCommand
  | _ => none

/-- The exceptions of `json::parse`: a `parse_error`, and `out_of_range.406` for a number that no
double holds. -/
inductive ParseError where
  | parseError
  | outOfRange
  deriving DecidableEq, Repr

/-- What leaves `_processMessage`: the parser's exceptions but for `parse_error`, and those of a
read. -/
inductive Thrown where
  | outOfRange
  | read (error : Json.Error)
  deriving DecidableEq, Repr

section

variable (parse : Bytes → Except ParseError Json) (text : Bytes)

/-- `_processMessage`: what it publishes, or what leaves it. Only a `parse_error` is caught. -/
def processMessage : Except Thrown (List (Topic × Json)) :=
  match parse text with
  | .error .parseError => .ok []
  | .error .outOfRange => .error .outOfRange
  | .ok json =>
    match json.value Json.getString "type" "" with
    | .error e => .error (.read e)
    | .ok type =>
      if type = "" then .ok []
      else match wsMessageTypeFromString type with
        | none => .ok []
        | some msgType =>
          match topic msgType with
          | none => .ok []
          | some t => .ok [(t, json)]

/-- What a frame stands for: an object whose type is a string that names an inbound message. -/
def inbound : Option (Topic × Json) :=
  match parse text with
  | .error _ => none
  | .ok json =>
    match json.find "type" with
    | some (.str type) => ((wsMessageTypeFromString type).bind topic).map (·, json)
    | _ => none

/-- The frame is not JSON, or an object whose numbers are in range and whose type, if there is one,
is a string. -/
def Readable : Prop :=
  match parse text with
  | .error e => e = .parseError
  | .ok json => json.Reads Json.getString "type"

end

@[simp] theorem wsMessageTypeFromString_empty : wsMessageTypeFromString "" = none := rfl

/-- The empty type is no message type, so that its own test changes nothing. -/
theorem published_eq (type : String) (json : Json) :
    (if type = "" then Except.ok [] else match wsMessageTypeFromString type with
      | none => .ok []
      | some msgType =>
        match topic msgType with
        | none => .ok []
        | some t => .ok [(t, json)] : Except Thrown (List (Topic × Json))) =
      .ok (((wsMessageTypeFromString type).bind topic).map (·, json)).toList := by
  by_cases he : type = ""
  · rw [if_pos he, he, wsMessageTypeFromString_empty]; rfl
  · rw [if_neg he]
    cases wsMessageTypeFromString type with
    | none => rfl
    | some msgType =>
      simp only [Option.bind_some]
      cases topic msgType with
      | none => rfl
      | some t => rfl

/-- A frame is handled without an exception, and publishes what it stands for, if and only if its
numbers and its type can be read. -/
theorem processMessage_iff (parse : Bytes → Except ParseError Json) (text : Bytes) :
    processMessage parse text = .ok (inbound parse text).toList ↔ Readable parse text := by
  unfold processMessage inbound Readable
  cases parse text with
  | error e => cases e <;> simp
  | ok json =>
    dsimp only
    rw [← Json.value_isOk ""]
    cases json with
    | obj members =>
      simp only [Json.value, Json.find]
      cases members.lookup "type" with
      | none => simp [Except.isOk, Except.toBool]
      | some member =>
        cases member with
        | str type =>
          simp only [Json.getString, Except.isOk, Except.toBool, iff_true]
          exact published_eq type _
        | _ => simp [Json.getString, Except.isOk, Except.toBool]
    | _ => simp [Json.value, Except.isOk, Except.toBool]

/-- The frame `[]` is JSON, but not an object: a `type_error` leaves the callback. -/
theorem processMessage_array :
    ∃ parse : Bytes → Except ParseError Json, parse [91, 93] = .ok (.arr []) ∧
      processMessage parse [91, 93] ≠ .ok (inbound parse [91, 93]).toList :=
  ⟨fun text => if text = [91, 93] then .ok (.arr []) else .error .parseError, by decide, by decide⟩

end ShareFrame.WebsocketClient
