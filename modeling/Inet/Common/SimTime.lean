import Mathlib.Data.Nat.Notation

/-!
# Simulation time
-/

namespace Inet

/-- Simulation time in the ticks of the kernel's default resolution, 10⁻¹² s. -/
abbrev SimTime := ℕ

/-- `SimTime(n, SIMTIME_MS)`. -/
def SimTime.ms (n : ℕ) : SimTime :=
  n * 1000000000

end Inet
