import Inet.Common.SerializerBuffer
import Inet.Foundations.OnesComplement

/-!
# The checksum of IP, IGMP, TCP and UDP

`TCPIPchecksum`: the complement of a sum in one's complement over the words of a packet, and for TCP
and UDP also over the addresses, the length and the protocol. A last byte without a partner is added
as it is. When the checksum of a packet is written into words that were zero, the checksum of the
result is zero (`checksum_of_written`, `plainChecksum_of_written`).
-/

namespace Inet.Serializer.TCPIPchecksum

open OnesComplement

/-- The loop of `TCPIPchecksum::_checksum`, on a `uint32_t`. -/
def sumWords (sum : ℕ) : List UInt8 → ℕ
  | x :: y :: addr =>
    let sum := (sum + (x.toNat <<< 8 ||| y.toNat)) % 2 ^ 32
    sumWords (if sum / 2 ^ 31 % 2 = 1 then sum % 2 ^ 16 + sum / 2 ^ 16 else sum) addr
  | [x] => (sum + x.toNat) % 2 ^ 32
  | [] => sum

/-- `TCPIPchecksum::_checksum`. -/
def wordSum (addr : List UInt8) : ℕ :=
  fold 16 (sumWords 0 addr)

/-- What `TCPIPchecksum::checksum` adds up. -/
def totalSum (protocolId : ℕ) (packet addr : List UInt8) : ℕ :=
  (wordSum packet + wordSum addr + packet.length + protocolId) % 2 ^ 32

/-- `TCPIPchecksum::checksum`. -/
def checksum (protocolId : ℕ) (packet addr : List UInt8) : UInt16 :=
  ~~~UInt16.ofNat (fold 16 (totalSum protocolId packet addr))

/-- The sum of the words. -/
def words : List UInt8 → ℕ
  | x :: y :: l => x.toNat * 2 ^ 8 + y.toNat + words l
  | [x] => x.toNat
  | [] => 0

variable {protocolId : ℕ} {packet addr l l' : List UInt8} {sum : ℕ}

/-- The words behind a list of even length. -/
theorem words_append (h : 2 ∣ l.length) : words (l ++ l') = words l + words l' := by
  induction l using words.induct with
  | case1 x y l ih =>
    have heven : 2 ∣ l.length := by
      rw [List.length_cons, List.length_cons] at h
      omega
    rw [List.cons_append, List.cons_append, words, words, ih heven]
    omega
  | case2 x => exact absurd h (by simp)
  | case3 => simp [words]

/-- One turn of the loop adds a word. Carrying over keeps the residue and neither adds anything nor
loses everything. -/
theorem exists_sumWords_cons (hsum : sum < 2 ^ 31) (x y : UInt8) (l : List UInt8) :
    ∃ s < 2 ^ 31, sumWords sum (x :: y :: l) = sumWords s l ∧
      s ≡ sum + (x.toNat * 2 ^ 8 + y.toNat) [MOD 2 ^ 16 - 1] ∧
      s ≤ sum + (x.toNat * 2 ^ 8 + y.toNat) ∧
      (0 < sum + (x.toNat * 2 ^ 8 + y.toNat) → 0 < s) := by
  have hx := x.toNat_lt
  have hy := y.toNat_lt
  have hor : x.toNat <<< 8 ||| y.toNat = x.toNat * 2 ^ 8 + y.toNat := by
    rw [← Nat.shiftLeft_add_eq_or_of_lt (i := 8) hy, Nat.shiftLeft_eq]
  have hfits : (sum + (x.toNat * 2 ^ 8 + y.toNat)) % 2 ^ 32 =
      sum + (x.toNat * 2 ^ 8 + y.toNat) := Nat.mod_eq_of_lt (by omega)
  rw [sumWords]
  simp only [hor, hfits]
  split_ifs with hcarry
  · exact ⟨_, by omega, rfl, (carry (by decide) (by omega)).1, by omega, fun _ ↦ by omega⟩
  · exact ⟨_, by omega, rfl, rfl, le_rfl, id⟩

theorem sumWords_singleton (hsum : sum < 2 ^ 31) (x : UInt8) :
    sumWords sum [x] = sum + x.toNat := by
  have hx := x.toNat_lt
  rw [sumWords, Nat.mod_eq_of_lt (by omega)]

/-- **The loop** adds the words, up to multiples of `2 ^ 16 - 1`. -/
theorem sumWords_modEq (hsum : sum < 2 ^ 31) :
    sumWords sum l ≡ sum + words l [MOD 2 ^ 16 - 1] := by
  induction l using words.induct generalizing sum with
  | case1 x y l ih =>
    obtain ⟨s, hs, hturn, hmod, -⟩ := exists_sumWords_cons hsum x y l
    rw [hturn, words, ← Nat.add_assoc]
    exact (ih hs).trans (hmod.add_right _)
  | case2 x => rw [sumWords_singleton hsum, words]
  | case3 => rfl

theorem wordSum_spec (l : List UInt8) :
    wordSum l < 2 ^ 16 ∧ wordSum l ≡ words l [MOD 2 ^ 16 - 1] := by
  refine ⟨fold_lt (by decide) _, (fold_modEq (by decide) _).trans ?_⟩
  simpa using sumWords_modEq (l := l) (show 0 < 2 ^ 31 by decide)

/-- The total does not overflow when the packet is not longer than an `int` says. -/
theorem totalSum_spec (addr : List UInt8) (hlength : packet.length < 2 ^ 31) (hprotocol : protocolId < 2 ^ 16) :
    totalSum protocolId packet addr ≡
        words packet + words addr + packet.length + protocolId [MOD 2 ^ 16 - 1] ∧
      packet.length ≤ totalSum protocolId packet addr := by
  obtain ⟨hpacket, hpacket'⟩ := wordSum_spec packet
  obtain ⟨haddr, haddr'⟩ := wordSum_spec addr
  rw [totalSum, Nat.mod_eq_of_lt (by omega)]
  exact ⟨((hpacket'.add haddr').add_right _).add_right _, by omega⟩

theorem toNat_checksum : (checksum protocolId packet addr).toNat =
    2 ^ 16 - 1 - fold 16 (totalSum protocolId packet addr) := by
  have hlt := fold_lt (w := 16) (by decide) (totalSum protocolId packet addr)
  rw [checksum, UInt16.toNat_not, UInt16.toNat_ofNat_of_lt' hlt]
  rfl

/-- A field that was zero adds what is written into it. -/
theorem words_written (heven : 2 ∣ l.length) (c : UInt16) :
    words (l ++ bytes16 c ++ l') = words (l ++ [0, 0] ++ l') + c.toNat := by
  have hwords (x y : UInt8) :
      words (l ++ [x, y] ++ l') = words l + (x.toNat * 2 ^ 8 + y.toNat) + words l' := by
    rw [words_append (by simpa using heven), words_append heven, words, words, Nat.add_zero]
  have hbytes : (c >>> 8).toUInt8.toNat * 2 ^ 8 + c.toUInt8.toNat = c.toNat := by
    have hlt := c.toNat_lt
    simp [Nat.shiftRight_eq_div_pow]
    omega
  rw [bytes16, hwords, hwords, hbytes]
  simp only [UInt8.toNat_zero]
  omega

/-- **A checksum verifies** where it has been written into a zero word. -/
theorem checksum_of_written (hprotocol : protocolId < 2 ^ 16)
    (heven : 2 ∣ l.length) (hlength : (l ++ [0, 0] ++ l').length < 2 ^ 31) :
    checksum protocolId
      (l ++ bytes16 (checksum protocolId (l ++ [0, 0] ++ l') addr) ++ l') addr = 0 := by
  generalize hc : checksum protocolId (l ++ [0, 0] ++ l') addr = c
  have hcomplement := congrArg UInt16.toNat hc
  rw [toNat_checksum] at hcomplement
  have hlength' : (l ++ bytes16 c ++ l').length = (l ++ [0, 0] ++ l').length := by
    simp [bytes16]
  obtain ⟨hzero, -⟩ := totalSum_spec addr hlength hprotocol
  obtain ⟨htotal, htotalpos⟩ := totalSum_spec addr (hlength' ▸ hlength) hprotocol
  -- the total has grown by the complement
  have hgrown : totalSum protocolId (l ++ bytes16 c ++ l') addr ≡
      totalSum protocolId (l ++ [0, 0] ++ l') addr + c.toNat [MOD 2 ^ 16 - 1] := by
    have hsum : words (l ++ bytes16 c ++ l') + words addr + (l ++ bytes16 c ++ l').length +
        protocolId = words (l ++ [0, 0] ++ l') + words addr + (l ++ [0, 0] ++ l').length +
        protocolId + c.toNat := by
      rw [words_written heven, hlength']
      omega
    rw [hsum] at htotal
    exact htotal.trans (hzero.symm.add_right _)
  have hdvd : 2 ^ 16 - 1 ∣ totalSum protocolId (l ++ bytes16 c ++ l') addr := by
    rw [hgrown.dvd_iff dvd_rfl, ← hcomplement]
    exact dvd_add_complement (by decide) _
  have hpos : 0 < (l ++ bytes16 c ++ l').length := by simp [bytes16]
  rw [checksum, fold_eq_of_dvd (by decide) (hpos.trans_le htotalpos) hdvd]
  rfl

/-! ### The checksum of some bytes alone -/

/-- `TCPIPchecksum::checksum` of an address and a count. -/
def plainChecksum (addr : List UInt8) : UInt16 :=
  ~~~UInt16.ofNat (wordSum addr)

theorem sumWords_pos (hsum : sum < 2 ^ 31) (hpos : 0 < sum + words l) : 0 < sumWords sum l := by
  induction l using words.induct generalizing sum with
  | case1 x y l ih =>
    obtain ⟨s, hs, hturn, -, -, hspos⟩ := exists_sumWords_cons hsum x y l
    rw [words] at hpos
    rw [hturn]
    exact ih hs (by omega)
  | case2 x => rwa [sumWords_singleton hsum, ← words]
  | case3 => exact hpos

/-- **A checksum is zero** if the words add up to nothing, unless all bytes are zero. -/
theorem plainChecksum_eq_zero_iff (hpos : 0 < words l) :
    plainChecksum l = 0 ↔ words l % (2 ^ 16 - 1) = 0 := by
  obtain ⟨hlt, hmod⟩ := wordSum_spec l
  have hzero : plainChecksum l = 0 ↔ wordSum l = 2 ^ 16 - 1 := by
    rw [plainChecksum, ← UInt16.toNat_inj, UInt16.toNat_not, UInt16.toNat_ofNat_of_lt' hlt]
    show 2 ^ 16 - 1 - wordSum l = 0 ↔ _
    omega
  rw [hzero]
  constructor
  · intro h
    rw [h] at hmod
    rw [show words l % (2 ^ 16 - 1) = (2 ^ 16 - 1) % (2 ^ 16 - 1) from hmod.symm, Nat.mod_self]
  · intro h
    have hsum := sumWords_modEq (l := l) (show 0 < 2 ^ 31 by decide)
    rw [Nat.zero_add] at hsum
    have hdvd : 2 ^ 16 - 1 ∣ sumWords 0 l := by
      rw [hsum.dvd_iff dvd_rfl]
      exact Nat.dvd_of_mod_eq_zero h
    exact fold_eq_of_dvd (by decide) (sumWords_pos (by decide) (by rwa [Nat.zero_add])) hdvd

/-- **A checksum verifies** where it has been written into a zero word, unless all bytes are zero.
-/
theorem plainChecksum_of_written (heven : 2 ∣ l.length) (hpos : 0 < words (l ++ [0, 0] ++ l')) :
    plainChecksum (l ++ bytes16 (plainChecksum (l ++ [0, 0] ++ l')) ++ l') = 0 := by
  generalize hc : plainChecksum (l ++ [0, 0] ++ l') = c
  obtain ⟨hlt, hmod⟩ := wordSum_spec (l ++ [0, 0] ++ l')
  have hcomplement : c.toNat = 2 ^ 16 - 1 - wordSum (l ++ [0, 0] ++ l') := by
    rw [← hc, plainChecksum, UInt16.toNat_not, UInt16.toNat_ofNat_of_lt' hlt]
    rfl
  have hadded : words (l ++ bytes16 c ++ l') = words (l ++ [0, 0] ++ l') + c.toNat :=
    words_written heven c
  have hdvd : 2 ^ 16 - 1 ∣ words (l ++ bytes16 c ++ l') := by
    rw [hadded, (hmod.symm.add_right c.toNat).dvd_iff dvd_rfl, hcomplement]
    exact ⟨1, by omega⟩
  exact (plainChecksum_eq_zero_iff (by rw [hadded]; omega)).2 (Nat.mod_eq_zero_of_dvd hdvd)

end Inet.Serializer.TCPIPchecksum
