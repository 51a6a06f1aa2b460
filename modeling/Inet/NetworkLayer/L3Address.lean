import Mathlib.Data.Nat.Notation

/-!
# Addresses of the network layer

The routing protocols take an address as a value that can be compared. Which addresses are multicast
or local is asked of the address type and of the tables of the host, and so it is a parameter of the
models.
-/

namespace Inet

/-- `L3Address`; zero is the unspecified address. -/
abbrev L3Address :=
  ℕ

end Inet
