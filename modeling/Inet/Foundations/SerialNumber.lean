import Mathlib.Data.UInt

/-!
# Serial numbers

Positions of an unbounded stream, known only modulo `2 ^ 32` (`wrap`). Two positions less than
`2 ^ 31` apart can be told apart and compared by the difference of their serial numbers
(`sub_lt_iff_le`, `wrap_inj`); a serial number close enough above a position determines the position
(`wrap_add_sub`).
-/

namespace SerialNumber

/-- The serial number of a position. -/
def wrap (n : ℕ) : UInt32 :=
  UInt32.ofNat n

variable {m n : ℕ}

theorem toNat_wrap (n : ℕ) : (wrap n).toNat = n % 2 ^ 32 :=
  UInt32.toNat_ofNat'

theorem wrap_add_wrap (m n : ℕ) : wrap m + wrap n = wrap (m + n) :=
  (UInt32.ofNat_add m n).symm

theorem wrap_toNat (s : UInt32) : wrap s.toNat = s :=
  UInt32.ofNat_toNat

/-- The distance to a later position. -/
theorem toNat_wrap_sub_wrap (hmn : m ≤ n) (hlt : n < m + 2 ^ 32) :
    (wrap n - wrap m).toNat = n - m := by
  rw [UInt32.toNat_sub, toNat_wrap, toNat_wrap]
  omega

/-- **Half the number space is enough to compare.** -/
theorem sub_lt_iff_le (h₁ : m < n + 2 ^ 31) (h₂ : n < m + 2 ^ 31) :
    (wrap n - wrap m).toNat < 2 ^ 31 ↔ m ≤ n := by
  rw [UInt32.toNat_sub, toNat_wrap, toNat_wrap]
  omega

theorem wrap_inj (h₁ : m < n + 2 ^ 31) (h₂ : n < m + 2 ^ 31) : wrap m = wrap n ↔ m = n := by
  rw [← UInt32.toNat_inj, toNat_wrap, toNat_wrap]
  omega

/-- The position of a serial number at or after a given one. -/
theorem wrap_add_sub (n : ℕ) (s : UInt32) : wrap (n + (s - wrap n).toNat) = s := by
  rw [← UInt32.toNat_inj, toNat_wrap, UInt32.toNat_sub, toNat_wrap]
  have := s.toNat_lt
  omega

end SerialNumber
