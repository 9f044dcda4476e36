import Mathlib.Tactic.Common

/-!
# File hashes

`FileHash::sha256File`: the digest of a file in lower-case hex. The digest
function is a parameter.
-/

namespace ShareFrame.FileHash

def hexDigit (n : Nat) : Char := "0123456789abcdef".toList.getD n '0'

def hex (digest : List UInt8) : String :=
  String.ofList (digest.flatMap fun b => [hexDigit (b.toNat / 16), hexDigit (b.toNat % 16)])

theorem hexDigit_toLower (n : Nat) : (hexDigit n).toLower = hexDigit n := by
  rcases Nat.lt_or_ge n 16 with hlt | hge
  · revert n; decide
  · have hnone : "0123456789abcdef".toList[n]? = none := List.getElem?_eq_none hge
    rw [hexDigit, List.getD_eq_getElem?_getD, hnone]
    rfl

/-- Hex digests are lower case. -/
theorem hex_toLower (digest : List UInt8) :
    (hex digest).toList.map Char.toLower = (hex digest).toList := by
  rw [hex, String.toList_ofList, List.map_flatMap]
  simp only [List.map_cons, List.map_nil, hexDigit_toLower]

/-- The empty string for a file that cannot be read. -/
def sha256File (sha256 : List UInt8 → List UInt8) : Option (List UInt8) → String
  | none => ""
  | some bytes => hex (sha256 bytes)

end ShareFrame.FileHash
