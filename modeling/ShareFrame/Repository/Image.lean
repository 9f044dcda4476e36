import Mathlib.Tactic.Common

/-!
# Stored pictures

The entity behind a row of the picture table.
-/

namespace ShareFrame

/-- `Image`. Times are Unix seconds; `receivedAt` is `0` for a picture stored before it was
recorded. -/
structure Image where
  id : Int
  sender : String
  imagePath : String
  expiresAt : Int
  receivedAt : Int := 0
  deriving DecidableEq, Repr

end ShareFrame
