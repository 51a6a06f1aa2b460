import Inet.Common.TCPIPchecksum

/-!
# The Internet checksum

RFC 1071 adds up the words of a packet in one's complement, an odd last byte being padded on the
right with zero. `TCPIPchecksum` adds that byte as it is, so that it is a low byte and not a high
one. The sums are the same exactly when there is no such byte or it is zero (`wordSum_eq_iff`,
`checksum_eq_iff`). A checksum that was computed and stored verifies in any case, since both times
the byte is taken in the same way.
-/

namespace Inet.Serializer.TCPIPchecksum

open OnesComplement

/-- The words of some bytes, the last of which is padded on the right. -/
def wordsOf : List UInt8 → List ℕ
  | x :: y :: l => (x.toNat * 2 ^ 8 + y.toNat) :: wordsOf l
  | [x] => [x.toNat * 2 ^ 8]
  | [] => []

/-- The words of the pseudo header. -/
def pseudoHeader (addr : List UInt8) (protocolId length : ℕ) : List ℕ :=
  wordsOf addr ++ [protocolId, length]

/-- The checksum of RFC 1071 for a packet behind its pseudo header. -/
def internetChecksum (protocolId : ℕ) (packet addr : List UInt8) : UInt16 :=
  ~~~UInt16.ofNat (sum 16 (pseudoHeader addr protocolId packet.length ++ wordsOf packet))

/-- There is no odd last byte, or it is zero. -/
def NoOddByte (l : List UInt8) : Prop :=
  2 ∣ l.length ∨ l.getLast? = some 0

/-- The last byte, if it is odd. -/
def oddByte : List UInt8 → ℕ
  | _ :: _ :: l => oddByte l
  | [x] => x.toNat
  | [] => 0

variable {protocolId : ℕ} {packet addr l l' : List UInt8}

theorem oddByte_lt (l : List UInt8) : oddByte l < 2 ^ 8 := by
  induction l using oddByte.induct with
  | case1 x y l ih => exact ih
  | case2 x => exact x.toNat_lt
  | case3 => decide

theorem oddByte_eq_zero_iff (l : List UInt8) : oddByte l = 0 ↔ NoOddByte l := by
  induction l using oddByte.induct with
  | case1 x y l ih =>
    cases l with
    | nil => simp [oddByte, NoOddByte]
    | cons z l =>
      rw [oddByte, ih, NoOddByte, NoOddByte, List.getLast?_cons_cons, List.getLast?_cons_cons]
      simp only [List.length_cons]
      exact or_congr (by omega) Iff.rfl
  | case2 x => simp [oddByte, NoOddByte, ← UInt8.toNat_inj]
  | case3 => simp [oddByte, NoOddByte]

theorem wordsOf_lt (l : List UInt8) : ∀ w ∈ wordsOf l, w < 2 ^ 16 := by
  induction l using wordsOf.induct with
  | case1 x y l ih =>
    have hx := x.toNat_lt
    have hy := y.toNat_lt
    exact List.forall_mem_cons.2 ⟨by omega, ih⟩
  | case2 x =>
    have hx := x.toNat_lt
    exact List.forall_mem_singleton.2 (by omega)
  | case3 => exact List.forall_mem_nil _

/-- The words add up to what the loop adds up, with the odd byte in its place. -/
theorem sum_wordsOf (l : List UInt8) : (wordsOf l).sum = words l + 255 * oddByte l := by
  induction l using wordsOf.induct with
  | case1 x y l ih =>
    rw [wordsOf, words, oddByte, List.sum_cons, ih]
    omega
  | case2 x =>
    rw [wordsOf, words, oddByte, List.sum_singleton]
    omega
  | case3 => rfl

/-- Sums with the residues of the same number only without the odd byte are the same exactly when it
is zero: 257 is more than a byte. -/
theorem eq_iff_noOddByte {a b n : ℕ} (ha : a < 2 ^ 16) (hb : b < 2 ^ 16)
    (hamod : a ≡ n [MOD 2 ^ 16 - 1]) (hbmod : b ≡ n + 255 * oddByte l [MOD 2 ^ 16 - 1])
    (hapos : 0 < a ↔ 0 < n) (hbpos : 0 < b ↔ 0 < n + 255 * oddByte l) :
    a = b ↔ NoOddByte l := by
  rw [← oddByte_eq_zero_iff]
  constructor
  · intro heq
    have hlt := oddByte_lt l
    have hmod : n + 255 * oddByte l ≡ n [MOD 2 ^ 16 - 1] := hbmod.symm.trans (heq ▸ hamod)
    have hdvd : 2 ^ 16 - 1 ∣ 255 * oddByte l :=
      (Nat.modEq_zero_iff_dvd).1 (Nat.ModEq.add_left_cancel' n hmod)
    omega
  · intro hodd
    rw [hodd, Nat.mul_zero, Nat.add_zero] at hbmod hbpos
    exact eq_of_modEq (by decide) ha hb (hamod.trans hbmod.symm) (hapos.trans hbpos.symm)

/-- Carrying over adds nothing. -/
theorem sumWords_le {sum : ℕ} (hsum : sum < 2 ^ 31) : sumWords sum l ≤ sum + words l := by
  induction l using words.induct generalizing sum with
  | case1 x y l ih =>
    obtain ⟨s, hs, hturn, -, hle, -⟩ := exists_sumWords_cons hsum x y l
    rw [hturn, words]
    exact (ih hs).trans (by omega)
  | case2 x => exact (sumWords_singleton hsum x).le
  | case3 => exact le_rfl

theorem wordSum_pos_iff (l : List UInt8) : 0 < wordSum l ↔ 0 < words l := by
  have hle := sumWords_le (l := l) (show 0 < 2 ^ 31 by decide)
  constructor
  · intro hpos
    by_contra hzero
    have hsum : sumWords 0 l = 0 := by omega
    rw [wordSum, hsum] at hpos
    exact absurd hpos (by decide)
  · intro hpos
    exact fold_pos (by decide) (sumWords_pos (by decide) (by omega))

/-- **The sum of a byte string** is that of RFC 1071 exactly when there is no odd byte. -/
theorem wordSum_eq_iff (l : List UInt8) : wordSum l = sum 16 (wordsOf l) ↔ NoOddByte l := by
  obtain ⟨hlt, hmod⟩ := wordSum_spec l
  obtain ⟨hlt', hmod', hpos'⟩ := sum_spec (by decide) (wordsOf_lt l)
  rw [sum_wordsOf] at hmod' hpos'
  exact eq_iff_noOddByte hlt hlt' hmod hmod' (wordSum_pos_iff l) hpos'

theorem pseudoHeader_append_lt (addr : List UInt8) (hprotocol : protocolId < 2 ^ 16)
    (hlength : packet.length < 2 ^ 16) :
    ∀ w ∈ pseudoHeader addr protocolId packet.length ++ wordsOf packet, w < 2 ^ 16 := by
  rw [pseudoHeader]
  simp only [List.forall_mem_append, List.forall_mem_cons]
  exact ⟨⟨wordsOf_lt addr, hprotocol, hlength, List.forall_mem_nil _⟩, wordsOf_lt packet⟩

/-- **The checksum of a packet** is that of RFC 1071 exactly when there is no odd byte. -/
theorem checksum_eq_iff (hprotocol : protocolId < 2 ^ 16) (hlength : packet.length < 2 ^ 16)
    (haddr : 2 ∣ addr.length) :
    checksum protocolId packet addr = internetChecksum protocolId packet addr ↔ NoOddByte packet := by
  obtain ⟨hlt', hmod', hpos'⟩ := sum_spec (by decide)
    (pseudoHeader_append_lt addr hprotocol hlength)
  have hlt := fold_lt (w := 16) (by decide) (totalSum protocolId packet addr)
  have hmod := (fold_modEq (w := 16) (by decide) _).trans
    (totalSum_spec addr (by omega : packet.length < 2 ^ 31) hprotocol).1
  have heven : oddByte addr = 0 := (oddByte_eq_zero_iff addr).2 (.inl haddr)
  have hsum : (pseudoHeader addr protocolId packet.length ++ wordsOf packet).sum =
      words packet + words addr + packet.length + protocolId + 255 * oddByte packet := by
    simp only [pseudoHeader, List.sum_append, List.sum_cons, List.sum_nil, sum_wordsOf, heven]
    omega
  rw [hsum] at hmod' hpos'
  have hwords : checksum protocolId packet addr = internetChecksum protocolId packet addr ↔
      fold 16 (totalSum protocolId packet addr) =
        sum 16 (pseudoHeader addr protocolId packet.length ++ wordsOf packet) := by
    rw [checksum, internetChecksum, UInt16.not_inj, ← UInt16.toNat_inj,
      UInt16.toNat_ofNat_of_lt' hlt, UInt16.toNat_ofNat_of_lt' hlt']
  rw [hwords]
  refine eq_iff_noOddByte hlt hlt' hmod hmod' ?_ hpos'
  have hpacket := wordSum_pos_iff packet
  have haddress := wordSum_pos_iff addr
  have htotal : totalSum protocolId packet addr =
      wordSum packet + wordSum addr + packet.length + protocolId := by
    have hlt₁ := (wordSum_spec packet).1
    have hlt₂ := (wordSum_spec addr).1
    rw [totalSum, Nat.mod_eq_of_lt (by omega)]
  have hfold : 0 < fold 16 (totalSum protocolId packet addr) ↔
      0 < totalSum protocolId packet addr := by
    refine ⟨fun hpos ↦ ?_, fold_pos (by decide)⟩
    by_contra hzero
    rw [Nat.eq_zero_of_not_pos hzero] at hpos
    exact absurd hpos (by decide)
  rw [hfold, htotal]
  omega

/-- **The checksums** of a byte string, and of a packet with its pseudo header, are those of RFC
1071 exactly when there is no odd byte; a checksum that was computed with a zero field and stored
there verifies in any case. -/
theorem isInternetChecksum_iff (string packet addr front back : List UInt8) (protocolId : ℕ)
    (hprotocol : protocolId < 2 ^ 16) :
    (wordSum string = sum 16 (wordsOf string) ↔ NoOddByte string) ∧
      (packet.length < 2 ^ 16 → 2 ∣ addr.length →
        (checksum protocolId packet addr = internetChecksum protocolId packet addr ↔
          NoOddByte packet)) ∧
      (2 ∣ front.length → (front ++ [0, 0] ++ back).length < 2 ^ 16 →
        checksum protocolId
          (front ++ bytes16 (checksum protocolId (front ++ [0, 0] ++ back) addr) ++ back) addr = 0) :=
  ⟨wordSum_eq_iff string, fun hlength haddr ↦ checksum_eq_iff hprotocol hlength haddr,
    fun heven hlength ↦ checksum_of_written hprotocol heven (by omega)⟩

/-- A packet of four bytes, and a field behind two bytes. -/
theorem isInternetChecksum_even :
    wordSum [1, 2] = sum 16 (wordsOf [1, 2]) ∧
      checksum 17 [1, 2, 3, 4] [5, 6] = internetChecksum 17 [1, 2, 3, 4] [5, 6] ∧
      checksum 17 ([1, 2] ++ bytes16 (checksum 17 ([1, 2] ++ [0, 0] ++ [3]) [5, 6]) ++ [3]) [5, 6] =
        0 := by
  obtain ⟨hstring, hpacket, hwritten⟩ :=
    isInternetChecksum_iff [1, 2] [1, 2, 3, 4] [5, 6] [1, 2] [3] 17 (by decide)
  exact ⟨hstring.2 (.inl (by decide)), (hpacket (by decide) (by decide)).2 (.inl (by decide)),
    hwritten (by decide) (by decide)⟩

/-- The sum of the byte 1 alone is 1, and that of RFC 1071 is 256. -/
theorem wordSum_odd : wordSum [1] = 1 ∧ sum 16 (wordsOf [1]) = 256 ∧
    checksum 17 [1] [] ≠ internetChecksum 17 [1] [] := by
  decide +kernel

end Inet.Serializer.TCPIPchecksum
