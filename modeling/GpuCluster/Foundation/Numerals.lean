import GpuCluster.Foundation.IpAddr
import GpuCluster.Foundation.Text
import Mathlib.Algebra.Ring.Nat

/-! # Words and decimal numbers in a text

The words between white space, and unsigned numbers of a width as a program
reads them: digits after an optional plus sign, refused when they do not fit.
-/

namespace GpuCluster.Foundation

/-- `str::split_whitespace`. -/
def splitWhitespace (s : String) : List String :=
  ((s.toList.splitOnP isWhitespace).filter (· ≠ [])).map String.ofList

/-- The digits of an unsigned number. -/
def unsignedDigits : List Char → List Char
  | '+' :: rest => rest
  | chars => chars

/-- `str::parse` to an unsigned integer of this many bits. -/
def parseUnsigned (bits : ℕ) (s : String) : Option ℕ :=
  if unsignedDigits s.toList = [] then none
  else (numeral? 10 (unsignedDigits s.toList)).filter (· < 2 ^ bits)

end GpuCluster.Foundation
