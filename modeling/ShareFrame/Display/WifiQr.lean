import ShareFrame.Lib.Escape
import ShareFrame.Util.Text

/-!
# The QR code of the setup network

`ApNetworkSetupScreenRenderer::wifiQrPayload` writes the fields of a Wi-Fi network with a
backslash in front of what has a meaning there. Who reads it gets the network that was
given, whatever bytes its name and its password have (`wifiQrPayload_unambiguous`).
-/

namespace ShareFrame.ApNetworkSetupScreenRenderer

open Text (bytes)

/-! ## The payload -/

def special (c : UInt8) : Bool :=
  c = '\\'.toUInt8 || c = ';'.toUInt8 || c = ','.toUInt8 || c = ':'.toUInt8 || c = '"'.toUInt8

def escape : List UInt8 → List UInt8
  | [] => []
  | c :: s => if special c then '\\'.toUInt8 :: c :: escape s else c :: escape s

def wifiQrPayload (ssid password : List UInt8) : List UInt8 :=
  if password = [] then bytes "WIFI:T:nopass;S:" ++ escape ssid ++ bytes ";;"
  else bytes "WIFI:T:WPA;S:" ++ escape ssid ++ bytes ";P:" ++ escape password ++ bytes ";;"

/-! ## The grammar -/

/-- A backslash escapes the next byte, `:` ends a key and `;` a field. -/
def marks : Escape.Marks UInt8 := ⟨'\\'.toUInt8, ':'.toUInt8, ';'.toUInt8⟩

/-- The fields of a payload. -/
def parse (payload : List UInt8) : Option (List (Escape.Field UInt8)) :=
  if bytes "WIFI:" <+: payload then Escape.parse marks (payload.drop 5) else none

/-- The fields of a network, an open one where there is no password. -/
def network (ssid password : List UInt8) : List (Escape.Field UInt8) :=
  if password = [] then [(bytes "T", bytes "nopass"), (bytes "S", ssid)]
  else [(bytes "T", bytes "WPA"), (bytes "S", ssid), (bytes "P", password)]

/-! ## Reading it back -/

theorem guards : Escape.Guards marks special := ⟨by decide, by decide, by decide⟩

theorem escape_eq (s : List UInt8) : escape s = Escape.escape marks special s := by
  induction s with
  | nil => rfl
  | cons c s ih =>
    rw [escape, ih, Escape.escape, Escape.escape, List.flatMap_cons]
    split <;> rfl

theorem wifiQrPayload_eq (ssid password : List UInt8) :
    wifiQrPayload ssid password =
      bytes "WIFI:" ++ Escape.record marks special (network ssid password) := by
  rw [wifiQrPayload, network, escape_eq, escape_eq]
  split
  · simp only [Escape.record, List.flatMap_cons, List.flatMap_nil]
    simp only [Escape.field, Escape.opening, List.append_assoc]
    rfl
  · simp only [Escape.record, List.flatMap_cons, List.flatMap_nil]
    simp only [Escape.field, Escape.opening, List.append_assoc]
    rfl

theorem network_keys (ssid password : List UInt8) :
    ∀ f ∈ network ssid password, Escape.Key marks f.1 := by
  have hT : Escape.Key marks (bytes "T") := ⟨by decide, by decide, by decide⟩
  have hS : Escape.Key marks (bytes "S") := ⟨by decide, by decide, by decide⟩
  have hP : Escape.Key marks (bytes "P") := ⟨by decide, by decide, by decide⟩
  unfold network
  split
  · simp [hT, hS]
  · simp [hT, hS, hP]

theorem parse_wifiQrPayload (ssid password : List UInt8) :
    parse (wifiQrPayload ssid password) = some (network ssid password) := by
  have hdrop : (bytes "WIFI:" ++ Escape.record marks special (network ssid password)).drop 5 =
      Escape.record marks special (network ssid password) := rfl
  rw [wifiQrPayload_eq, parse, if_pos (List.prefix_append _ _), hdrop,
    Escape.parse_record guards (network_keys ssid password)]

theorem network_inj {ssid ssid' password password' : List UInt8}
    (h : network ssid password = network ssid' password') :
    ssid = ssid' ∧ password = password' := by
  unfold network at h
  split at h <;> split at h
  next hnil hnil' =>
    have hssid : ssid = ssid' := by simpa using h
    exact ⟨hssid, hnil.trans hnil'.symm⟩
  next => simp at h
  next => simp at h
  next => simpa using h

/-! ## Main result -/

/-- The payload has the fields of the network and no others, two networks have two payloads, and up
to every symbol of a name or a password the reader is in its field, behind the fields in front. -/
theorem wifiQrPayload_unambiguous (ssid password : List UInt8) :
    parse (wifiQrPayload ssid password) = some (network ssid password) ∧
    (∀ ssid' password', wifiQrPayload ssid' password' = wifiQrPayload ssid password →
      ssid' = ssid ∧ password' = password) ∧
    ∀ fields f more, network ssid password = fields ++ f :: more →
      ∀ part rest, part ++ rest = escape f.2 → ∃ front back r,
        wifiQrPayload ssid password = bytes "WIFI:" ++ (front ++ part) ++ rest ++ back ∧
        Escape.run marks (.front []) (front ++ part) = some r ∧ r.Within fields f.1 := by
  refine ⟨parse_wifiQrPayload ssid password, fun ssid' password' h => ?_,
    fun fields f more hf part rest hpart => ?_⟩
  · have hparse := parse_wifiQrPayload ssid' password'
    rw [h, parse_wifiQrPayload] at hparse
    obtain ⟨hssid, hpassword⟩ := network_inj (Option.some.inj hparse)
    exact ⟨hssid.symm, hpassword.symm⟩
  · have hkeys := network_keys ssid password
    rw [hf, List.forall_mem_append, List.forall_mem_cons] at hkeys
    obtain ⟨hfields, hkey, -⟩ := hkeys
    rw [escape_eq] at hpart
    obtain ⟨r, hrun, hwithin⟩ := Escape.exists_within guards hfields hkey ⟨rest, hpart⟩
    refine ⟨_, marks.stop :: (more.flatMap (Escape.field marks special) ++ [marks.stop]), r, ?_,
      hrun, hwithin⟩
    rw [wifiQrPayload_eq, hf, Escape.record, List.flatMap_append, List.flatMap_cons, Escape.field,
      ← hpart]
    simp only [List.append_assoc, List.cons_append, List.nil_append]

/-- Names and passwords that look like the end of a field. -/
example : parse (wifiQrPayload (bytes "a;T:b\\") (bytes ";;")) =
    some [(bytes "T", bytes "WPA"), (bytes "S", bytes "a;T:b\\"), (bytes "P", bytes ";;")] := by
  decide

end ShareFrame.ApNetworkSetupScreenRenderer
