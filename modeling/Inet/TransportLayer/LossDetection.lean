import Inet.TransportLayer.Scoreboard
import Inet.TransportLayer.TCPSender

/-!
# Lost octets

The definitions of RFC 3517 that speak of single octets: an octet is lost when enough blocks, or
enough octets, above it have been sacked (`Scoreboard.IsLost`), and `Scoreboard.highRxt` is where
the retransmitted octets end. Positions count from the first octet of the scoreboard.

The code asks its questions once for a region. `Stretch` is what a region is to the scoreboard,
octets with equal flags, and for octets that are not sacked the answers are the same all along a
stretch (`Stretch.isLost_iff`, `Stretch.lt_highRxt_iff`).
-/

namespace Inet.Tcp

open SerialNumber Tiling

namespace Scoreboard

variable (b : Scoreboard)

/-- What is known about the octet at a position. -/
def flagsAt (i : ℕ) : Flags :=
  b.bytes.getD i {}

/-- `IsLost (S)`: `DUPTHRESH` blocks of sacked octets, or `DUPTHRESH * SMSS` sacked octets, lie
above the octet. -/
def IsLost (mss : UInt32) (i : ℕ) : Prop :=
  DUPTHRESH.toNat ≤ sackedBlocks false (b.bytes.drop (i + 1)) ∨
    (DUPTHRESH * mss).toNat ≤ (b.bytes.drop (i + 1)).countP Flags.sacked

instance (mss : UInt32) (i : ℕ) : Decidable (b.IsLost mss i) :=
  inferInstanceAs (Decidable (_ ∨ _))

/-- The position behind the last octet that has been retransmitted, 0 if there is none. -/
def highRxt : ℕ :=
  (b.bytes.rdropWhile (!·.rexmitted)).length

/-- Octets from a position on that have the same flags. -/
structure Stretch (k length : ℕ) (flags : Flags) : Prop where
  pos : 0 < length
  isPrefix : List.replicate length flags <+: b.bytes.drop k

end Scoreboard

/-- What is left when a list is cut back to the last element without a property. -/
theorem lt_length_rdropWhile {α : Type*} (p : α → Bool) (l : List α) (i : ℕ) :
    i < (l.rdropWhile p).length ↔ ∃ x ∈ l.drop i, p x = false := by
  induction l using List.reverseRecOn with
  | nil => simp
  | append_singleton l x ih =>
    by_cases hi : i ≤ l.length
    · rw [List.drop_append_of_le_length hi, List.rdropWhile_concat]
      split
      · rename_i hx
        rw [ih]
        simp [hx]
      · rename_i hx
        refine iff_of_true (by simp; omega) ⟨x, by simp, by simpa using hx⟩
    · rw [List.drop_of_length_le (by simp; omega)]
      have hle : ((l ++ [x]).rdropWhile p).length ≤ (l ++ [x]).length := by
        have hcut := List.rdropWhile_prefix p (l ++ [x])
        exact hcut.length_le
      rw [List.length_append, List.length_singleton] at hle
      exact iff_of_false (by omega) (by simp)

namespace Scoreboard.Stretch

variable {b : Scoreboard} {k length i : ℕ} {flags : Flags}

/-- The octets from one of a stretch on. -/
theorem drop_eq (h : b.Stretch k length flags) (hk : k ≤ i) (hi : i ≤ k + length) :
    b.bytes.drop i = List.replicate (k + length - i) flags ++ b.bytes.drop (k + length) := by
  obtain ⟨rest, hrest⟩ := h.isPrefix
  have hbehind : b.bytes.drop (k + length) = rest := by
    rw [← List.drop_drop, ← hrest, List.drop_left' List.length_replicate]
  have hfrom : b.bytes.drop i = (b.bytes.drop k).drop (i - k) := by
    rw [List.drop_drop, Nat.add_sub_cancel' hk]
  rw [hfrom, hbehind, ← hrest, List.drop_append_of_le_length (by rw [List.length_replicate]; omega),
    List.drop_replicate]
  congr 2
  omega

theorem flagsAt_eq (h : b.Stretch k length flags) (hk : k ≤ i) (hi : i < k + length) :
    b.flagsAt i = flags := by
  obtain ⟨n, hn⟩ := Nat.exists_eq_succ_of_ne_zero (Nat.sub_ne_zero_of_lt hi)
  rw [flagsAt, List.getD_eq_getElem?_getD, ← List.head?_drop, h.drop_eq hk hi.le, hn,
    Nat.succ_eq_add_one, List.replicate_succ]
  rfl

/-- The octets that are not sacked add nothing to the blocks. -/
theorem sackedBlocks_drop (h : b.Stretch k length flags) (hsacked : flags.sacked = false)
    (hk : k ≤ i) (hi : i ≤ k + length) :
    sackedBlocks false (b.bytes.drop i) = sackedBlocks false (b.bytes.drop (k + length)) := by
  rw [h.drop_eq hk hi]
  obtain hzero | hpos := Nat.eq_zero_or_pos (k + length - i)
  · rw [hzero, List.replicate_zero, List.nil_append]
  · rw [TCPSACKRexmitQueue.sackedBlocks_replicate false flags _ hpos, hsacked]
    exact Nat.zero_add _

theorem countP_drop (h : b.Stretch k length flags) (hsacked : flags.sacked = false)
    (hk : k ≤ i) (hi : i ≤ k + length) :
    (b.bytes.drop i).countP Flags.sacked = (b.bytes.drop (k + length)).countP Flags.sacked := by
  rw [h.drop_eq hk hi, List.countP_append, List.countP_replicate, hsacked]
  exact Nat.zero_add _

/-- **Being lost is the same all along a stretch** of octets that are not sacked. -/
theorem isLost_iff (h : b.Stretch k length flags) (hsacked : flags.sacked = false) (mss : UInt32)
    (hk : k ≤ i) (hi : i < k + length) :
    b.IsLost mss i ↔ DUPTHRESH.toNat ≤ sackedBlocks false (b.bytes.drop k) ∨
      (DUPTHRESH * mss).toNat ≤ (b.bytes.drop k).countP Flags.sacked := by
  rw [IsLost, h.sackedBlocks_drop hsacked (Nat.le_succ_of_le hk) hi,
    h.countP_drop hsacked (Nat.le_succ_of_le hk) hi, h.sackedBlocks_drop hsacked le_rfl (by omega),
    h.countP_drop hsacked le_rfl (by omega)]

/-- **A stretch lies below `highRxt` as a whole, or not at all.** -/
theorem lt_highRxt_iff (h : b.Stretch k length flags) (hk : k ≤ i) (hi : i < k + length) :
    i < b.highRxt ↔ k < b.highRxt := by
  have hpos := h.pos
  rw [highRxt, lt_length_rdropWhile, lt_length_rdropWhile, h.drop_eq hk hi.le,
    h.drop_eq le_rfl (by omega)]
  have hi' : k + length - i ≠ 0 := by omega
  have hk' : k + length - k ≠ 0 := by omega
  simp only [List.mem_append, List.mem_replicate, hi', hk', ne_eq, not_false_eq_true, true_and]

end Scoreboard.Stretch

end Inet.Tcp
