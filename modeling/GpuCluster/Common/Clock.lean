import Mathlib.Data.Int.Notation

/-! # Clock readings

Readings of `Utc::now()` are integers, in nanoseconds since the epoch, and so
are durations. Both are signed, as the clock library's are.
-/

namespace GpuCluster.Common

/-- `Duration::seconds(n)`. -/
def seconds (n : ℤ) : ℤ := n * 1000000000

end GpuCluster.Common
