import Mathlib.Tactic.Common

/-!
# Versions

`UpdateManager::isVersionNewer` compares dotted sequences of decimal numbers
segment by segment, as digit strings without leading zeros. A missing segment
counts as zero.
-/

namespace ShareFrame.Update

/-- The segments that `std::getline` with `.` reads. -/
def segments (version : String) : List (List Char) := version.toList.splitOn '.'

/-- `^\d+(\.\d+)*$`. -/
def isSemver (version : String) : Bool :=
  (segments version).all fun s => !s.isEmpty && s.all Char.isDigit

def trimZeros (segment : List Char) : List Char := segment.dropWhile (· = '0')

/-- One pass of the loop: decided by this pair of segments, or by the `rest`. -/
def segmentNewer (a b : List Char) (rest : Bool) : Bool :=
  let va := trimZeros a
  let vb := trimZeros b
  if va.length ≠ vb.length then va.length > vb.length
  else if va ≠ vb then decide (vb < va)
  else rest

/-- The loop once the candidate has no segment left. -/
def missingNewer : List (List Char) → Bool
  | [] => false
  | b :: bs => segmentNewer [] b (missingNewer bs)

/-- The loop over both versions' segments. -/
def segmentsNewer : List (List Char) → List (List Char) → Bool
  | [], bs => missingNewer bs
  | a :: as, bs => segmentNewer a (bs.headD []) (segmentsNewer as bs.tail)

def isVersionNewer (candidate current : String) : Bool :=
  if !isSemver candidate || !isSemver current then candidate ≠ current && isSemver candidate
  else segmentsNewer (segments candidate) (segments current)

example : isVersionNewer "1.10.0" "1.9.12" = true := by decide

example : isVersionNewer "1.02" "1.2.0" = false := by decide

end ShareFrame.Update
