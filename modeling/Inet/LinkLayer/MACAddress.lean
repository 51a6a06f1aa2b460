import Mathlib.Data.List.Basic
import Mathlib.Data.Fintype.Basic
import Mathlib.Tactic.IntervalCases

/-!
# MAC addresses and their text form

`MACAddress.h` keeps an address in the lower six bytes of a `uint64` whose two highest bytes are
always zero; here it is a 48-bit word. The forwarder stores addresses of delayed packets as text
(`str`) and parses them back (`MACAddress(const char *)`, that is `setAddress`, that is `tryParse`),
so the result needed downstream is that the text form loses nothing: `tryParse_str`.

Parsing reads two hexadecimal digits for each of the six bytes and skips the separators between
them; the syntax check beforehand makes sure that there are twelve digits to read. The round trip
is assembled from one byte (`readByte_printByte`) and from the fact that writing the six bytes of an
address at their six positions restores it (`foldl_setAddressByte`).
-/

namespace Inet

/-- A C string: its bytes, without the terminating zero. -/
abbrev CString := List UInt8

/-! ### Characters -/

/-- `isdigit` of the C library. -/
def isdigit (c : UInt8) : Bool :=
  '0'.toUInt8 ≤ c && c ≤ '9'.toUInt8

/-- `islower` of the C library. -/
def islower (c : UInt8) : Bool :=
  'a'.toUInt8 ≤ c && c ≤ 'z'.toUInt8

/-- `isxdigit` of the C library. -/
def isxdigit (c : UInt8) : Bool :=
  isdigit c || ('a'.toUInt8 ≤ c && c ≤ 'f'.toUInt8) || ('A'.toUInt8 ≤ c && c ≤ 'F'.toUInt8)

/-- The value of a hexadecimal digit, as the conditional expression in `tryParse` computes it. -/
def hexValue (c : UInt8) : UInt8 :=
  if isdigit c then c - '0'.toUInt8
  else if islower c then c - 'a'.toUInt8 + 10
  else c - 'A'.toUInt8 + 10

/-- The upper-case hexadecimal digit that `sprintf("%X")` prints for a value below sixteen. -/
def hexDigit (d : UInt8) : UInt8 :=
  if d < 10 then '0'.toUInt8 + d else 'A'.toUInt8 + (d - 10)

/-! ### Addresses -/

/-- A MAC address: the 48 bits of `MACAddress::address` that are not always zero. -/
structure MACAddress where
  address : BitVec 48
  deriving DecidableEq, Repr

namespace MACAddress

/-- The bit offset of byte `k`, the first byte being the most significant. -/
def offset (k : Fin 6) : ℕ :=
  (5 - k) * 8

def getAddressByte (a : MACAddress) (k : Fin 6) : UInt8 :=
  UInt8.ofBitVec ((a.address >>> offset k).setWidth 8)

def setAddressByte (a : MACAddress) (k : Fin 6) (addrbyte : UInt8) : MACAddress :=
  ⟨(a.address &&& ~~~(0xff#48 <<< offset k)) ||| (addrbyte.toBitVec.setWidth 48 <<< offset k)⟩

/-- The address all of whose bits are set. -/
def BROADCAST_ADDRESS : MACAddress :=
  ⟨BitVec.allOnes 48⟩

/-- An address has a first byte. -/
instance neZeroBytes : NeZero 6 :=
  ⟨by decide⟩

/-- `isMulticast`. -/
def isMulticast (a : MACAddress) : Bool :=
  a.getAddressByte 0 &&& 0x01 ≠ 0

theorem toNat_injective : Function.Injective fun a : MACAddress ↦ a.address.toNat :=
  fun ⟨_⟩ ⟨_⟩ h ↦ congrArg mk (BitVec.eq_of_toNat_eq h)

/-- Addresses are ordered as numbers. -/
instance : LinearOrder MACAddress where
  le a b := a.address.toNat ≤ b.address.toNat
  le_refl a := le_refl a.address.toNat
  le_trans _ _ _ := le_trans (α := ℕ)
  le_antisymm _ _ h h' := toNat_injective (le_antisymm h h')
  le_total _ _ := le_total (α := ℕ) _ _
  toDecidableLE a b := inferInstanceAs (Decidable (a.address.toNat ≤ b.address.toNat))
  toDecidableEq := inferInstance

/-- `sprintf("%2.2X-", b)`. -/
def printByte (b : UInt8) : CString :=
  [hexDigit (b >>> 4), hexDigit (b &&& 0xf), '-'.toUInt8]

/-- `MACAddress::str`: six hexadecimal bytes joined by hyphens. -/
def str (a : MACAddress) : CString :=
  ((List.finRange 6).flatMap fun i ↦ printByte (a.getAddressByte i)).dropLast

/-- One round of the conversion loop of `tryParse`: the next byte and the rest of the text. When the
text ends before two digits are found the byte is zero. -/
def readByte (s : CString) : UInt8 × CString :=
  match s.dropWhile (!isxdigit ·) with
  | [] => (0, [])
  | c :: s =>
    match s.dropWhile (!isxdigit ·) with
    | [] => (0, [])
    | c' :: s => ((hexValue c <<< 4) + hexValue c', s)

/-- `MACAddress::tryParse`, with `none` for a wrong syntax. -/
def tryParse (hexstr : CString) : Option MACAddress :=
  if !hexstr.all fun c ↦ isxdigit c || c == ' '.toUInt8 || c == ':'.toUInt8 || c == '-'.toUInt8 then
    none
  else if hexstr.countP isxdigit ≠ 2 * 6 then
    none
  else
    some ((List.finRange 6).foldl
      (fun (as : MACAddress × CString) pos ↦
        ((as.1.setAddressByte pos (readByte as.2).1), (readByte as.2).2)) (⟨0⟩, hexstr)).1

/-- The bits of an address after one of its bytes was written. -/
theorem getLsbD_setAddressByte (a : MACAddress) (k : Fin 6) (b : UInt8) {i : ℕ} (hi : i < 48) :
    (a.setAddressByte k b).address.getLsbD i =
      if offset k ≤ i ∧ i < offset k + 8 then b.toBitVec.getLsbD (i - offset k)
      else a.address.getLsbD i := by
  have hff : (0xff#48) = (BitVec.allOnes 8).setWidth 48 := by decide
  simp only [setAddressByte, hff, BitVec.getLsbD_or, BitVec.getLsbD_and, BitVec.getLsbD_not,
    BitVec.getLsbD_shiftLeft, BitVec.getLsbD_setWidth, BitVec.getLsbD_allOnes]
  by_cases hlo : offset k ≤ i
  · by_cases hhi : i < offset k + 8
    · have h8 : i - offset k < 8 := by omega
      simp [hi, hlo, hhi, h8, show i - offset k < 48 by omega, show ¬ i < offset k by omega]
    · have h8 : ¬ i - offset k < 8 := by omega
      have hbit : b.toBitVec.getLsbD (i - offset k) = false :=
        BitVec.getLsbD_of_ge _ _ (by omega)
      simp [hi, hlo, hhi, h8, hbit]
  · simp [hi, hlo, show i < offset k by omega]

/-- The bits of one byte of an address. -/
theorem getLsbD_getAddressByte (a : MACAddress) (k : Fin 6) {j : ℕ} (hj : j < 8) :
    (a.getAddressByte k).toBitVec.getLsbD j = a.address.getLsbD (offset k + j) := by
  simp [getAddressByte, hj]

/-- Two addresses with the same 48 bits are equal. -/
theorem ext_getLsbD {a b : MACAddress}
    (h : ∀ i < 48, a.address.getLsbD i = b.address.getLsbD i) : a = b := by
  obtain ⟨x⟩ := a
  obtain ⟨y⟩ := b
  exact congrArg MACAddress.mk (BitVec.eq_of_getLsbD_eq fun i hi ↦ h i hi)

/-- Writing the six bytes of an address at their positions restores the address, whatever stood
there before. -/
theorem foldl_setAddressByte (a b : MACAddress) :
    (List.finRange 6).foldl (fun c k ↦ c.setAddressByte k (a.getAddressByte k)) b = a := by
  refine ext_getLsbD fun i hi ↦ ?_
  have hbyte : ∀ k : Fin 6, offset k ≤ i → i < offset k + 8 →
      (a.getAddressByte k).toBitVec.getLsbD (i - offset k) = a.address.getLsbD i := by
    intro k hlo hhi
    rw [getLsbD_getAddressByte a k (by omega), Nat.add_sub_of_le hlo]
  rw [show List.finRange 6 = [0, 1, 2, 3, 4, 5] from rfl]
  simp only [List.foldl_cons, List.foldl_nil, getLsbD_setAddressByte _ _ _ hi]
  split_ifs with h5 h4 h3 h2 h1 h0
  · exact hbyte 5 h5.1 h5.2
  · exact hbyte 4 h4.1 h4.2
  · exact hbyte 3 h3.1 h3.2
  · exact hbyte 2 h2.1 h2.2
  · exact hbyte 1 h1.1 h1.2
  · exact hbyte 0 h0.1 h0.2
  · -- the six bytes cover all 48 bits
    simp only [offset] at h0 h1 h2 h3 h4 h5
    omega

/-! ### The text form -/

theorem hexValue_hexDigit {d : UInt8} (h : d.toNat < 16) : hexValue (hexDigit d) = d := by
  have hall : ∀ n < 16, hexValue (hexDigit (UInt8.ofNat n)) = UInt8.ofNat n := by decide
  simpa using hall d.toNat h

theorem isxdigit_hexDigit {d : UInt8} (h : d.toNat < 16) : isxdigit (hexDigit d) = true := by
  have hall : ∀ n < 16, isxdigit (hexDigit (UInt8.ofNat n)) = true := by decide
  simpa using hall d.toNat h

theorem toNat_high_lt (b : UInt8) : (b >>> 4).toNat < 16 := by
  have := b.toNat_lt
  simp [UInt8.toNat_shiftRight, Nat.shiftRight_eq_div_pow]
  omega

theorem toNat_low_lt (b : UInt8) : (b &&& 0xf).toNat < 16 := by
  have := Nat.and_le_right (n := b.toNat) (m := 15)
  simp
  omega

/-- A byte is put together from its two halves. -/
theorem high_add_low (b : UInt8) : ((b >>> 4) <<< 4) + (b &&& 0xf) = b := by
  have hb := b.toNat_lt
  have hlow : b.toNat &&& 15 = b.toNat % 16 := Nat.and_two_pow_sub_one_eq_mod b.toNat 4
  apply UInt8.toNat_inj.1
  simp [UInt8.toNat_add, UInt8.toNat_shiftLeft, UInt8.toNat_shiftRight,
    Nat.shiftRight_eq_div_pow, Nat.shiftLeft_eq, hlow]
  omega

/-- Reading back a printed byte, up to the separator. -/
theorem readByte_printByte (b : UInt8) (s : CString) :
    readByte (hexDigit (b >>> 4) :: hexDigit (b &&& 0xf) :: s) = (b, s) := by
  have hhi := isxdigit_hexDigit (toNat_high_lt b)
  have hlo := isxdigit_hexDigit (toNat_low_lt b)
  simp [readByte, hhi, hlo, hexValue_hexDigit (toNat_high_lt b),
    hexValue_hexDigit (toNat_low_lt b), high_add_low]

/-- Separators are skipped. -/
theorem readByte_hyphen (s : CString) : readByte ('-'.toUInt8 :: s) = readByte s := by
  simp [readByte, show isxdigit '-'.toUInt8 = false from by decide]

/-- The text of an address, byte by byte. -/
theorem str_eq (a : MACAddress) :
    a.str = printByte (a.getAddressByte 0) ++ printByte (a.getAddressByte 1) ++
      printByte (a.getAddressByte 2) ++ printByte (a.getAddressByte 3) ++
      printByte (a.getAddressByte 4) ++
      [hexDigit (a.getAddressByte 5 >>> 4), hexDigit (a.getAddressByte 5 &&& 0xf)] := by
  rw [str, show List.finRange 6 = [0, 1, 2, 3, 4, 5] from rfl]
  simp [printByte]

/-- **The text form loses nothing.** -/
theorem tryParse_str (a : MACAddress) : tryParse a.str = some a := by
  have hx : ∀ k, isxdigit (hexDigit (a.getAddressByte k >>> 4)) = true ∧
      isxdigit (hexDigit (a.getAddressByte k &&& 0xf)) = true := fun k ↦
    ⟨isxdigit_hexDigit (toNat_high_lt _), isxdigit_hexDigit (toNat_low_lt _)⟩
  have hhyphen : isxdigit '-'.toUInt8 = false := by decide
  have hchars : (a.str.all fun c ↦ isxdigit c || c == ' '.toUInt8 || c == ':'.toUInt8 ||
      c == '-'.toUInt8) = true := by
    simp [str_eq, printByte, hx]
  have hcount : a.str.countP isxdigit = 2 * 6 := by
    simp [str_eq, printByte, hx, hhyphen]
  rw [tryParse, if_neg (by simp [hchars]), if_neg (by simp [hcount]), Option.some_inj]
  -- the loop reads back the bytes that `str` printed, one separator at a time
  refine Eq.trans ?_ (foldl_setAddressByte a ⟨0⟩)
  rw [show List.finRange 6 = [0, 1, 2, 3, 4, 5] from rfl]
  simp only [List.foldl_cons, List.foldl_nil, str_eq, printByte, List.cons_append, List.nil_append,
    readByte_printByte, readByte_hyphen]

/-- The text literal of the broadcast address. -/
def broadcastText : CString :=
  ['f', 'f', ':', 'f', 'f', ':', 'f', 'f', ':', 'f', 'f', ':', 'f', 'f', ':', 'f', 'f'].map
    Char.toUInt8

/-- The literal denotes the broadcast address. -/
theorem tryParse_broadcastText : tryParse broadcastText = some BROADCAST_ADDRESS := by
  decide

end MACAddress

end Inet
