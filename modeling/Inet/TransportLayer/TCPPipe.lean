import Mathlib.Algebra.BigOperators.Intervals
import Mathlib.Algebra.Order.BigOperators.Group.Finset
import Inet.TransportLayer.LossDetection

/-!
# The estimate of the octets in the network

`setPipe` walks over the regions of the scoreboard from `snd_una` to `snd_max` and asks once for
each region that is not sacked whether it is lost and whether it lies below `highRxt`. RFC 3517 asks
for every octet (`Scoreboard.pipe`), and the two estimates are the same (`setPipe_eq_pipe`).

The estimate is not the one of the later RFC 6675, for which fewer sacked octets make a loss, and it
counts every octet below `highRxt` for the second time, be it retransmitted or not
(`setPipe_ne_pipe`).
-/

namespace Inet.Tcp

open SerialNumber Tiling

namespace Scoreboard

variable (b : Scoreboard)

/-- What RFC 3517 adds for an octet. -/
def octetsOf (mss : UInt32) (i : ℕ) : ℕ :=
  if (b.flagsAt i).sacked then 0
  else (if b.IsLost mss i then 0 else 1) + if i < b.highRxt then 1 else 0

/-- The octets of `[una, max)` that are not sacked: once if they are not lost, and once more if they
have been sent again. -/
def pipe (Lost Resent : ℕ → Prop) [DecidablePred Lost] [DecidablePred Resent] (una max : ℕ) : ℕ :=
  (Finset.filter (fun i ↦ (b.flagsAt i).sacked = false ∧ ¬ Lost i) (Finset.Ico una max)).card +
    (Finset.filter (fun i ↦ (b.flagsAt i).sacked = false ∧ Resent i) (Finset.Ico una max)).card

theorem sum_octetsOf (mss : UInt32) (una max : ℕ) :
    ∑ i ∈ Finset.Ico una max, b.octetsOf mss i =
      b.pipe (b.IsLost mss) (· < b.highRxt) una max := by
  rw [pipe, Finset.card_filter, Finset.card_filter, ← Finset.sum_add_distrib]
  refine Finset.sum_congr rfl fun i _ ↦ ?_
  rw [octetsOf]
  obtain hsacked | hsacked := Bool.eq_false_or_eq_true (b.flagsAt i).sacked
  · simp [hsacked]
  · simp [hsacked, ite_not]

theorem octetsOf_le (mss : UInt32) (i : ℕ) : b.octetsOf mss i ≤ 2 := by
  rw [octetsOf]
  split_ifs <;> omega

variable {b} {k length i : ℕ} {flags : Flags}

/-- The same is added for every octet of a stretch. -/
theorem Stretch.octetsOf_eq (h : b.Stretch k length flags) (mss : UInt32) (hk : k ≤ i)
    (hi : i < k + length) : b.octetsOf mss i = b.octetsOf mss k := by
  have hpos := h.pos
  rw [octetsOf, octetsOf, h.flagsAt_eq hk hi, h.flagsAt_eq le_rfl (by omega)]
  obtain hsacked | hsacked := Bool.eq_false_or_eq_true flags.sacked
  · rw [hsacked, if_pos rfl, if_pos rfl]
  · have hlost : b.IsLost mss i ↔ b.IsLost mss k :=
      (h.isLost_iff hsacked mss hk hi).trans (h.isLost_iff hsacked mss le_rfl (by omega)).symm
    simp only [hlost, h.lt_highRxt_iff hk hi]

theorem Stretch.sum_octetsOf (h : b.Stretch k length flags) (mss : UInt32) :
    ∑ i ∈ Finset.Ico k (k + length), b.octetsOf mss i = length * b.octetsOf mss k := by
  have hsame : ∀ i ∈ Finset.Ico k (k + length), b.octetsOf mss i = b.octetsOf mss k := fun i hi ↦
    h.octetsOf_eq mss (Finset.mem_Ico.1 hi).1 (Finset.mem_Ico.1 hi).2
  rw [Finset.sum_congr rfl hsame, Finset.sum_const, Nat.card_Ico, Nat.add_sub_cancel_left,
    nsmul_eq_mul, Nat.cast_id]

end Scoreboard

namespace TCPSACKRexmitQueue

/-- No region reaches across a sequence number. -/
def NoneAcross (q : TCPSACKRexmitQueue) (seqNum : UInt32) : Prop :=
  ∀ r ∈ q.rexmitQueue, ¬ (seqLess r.beginSeqNum seqNum ∧ seqLess seqNum r.endSeqNum)

instance (q : TCPSACKRexmitQueue) (seqNum : UInt32) : Decidable (q.NoneAcross seqNum) :=
  inferInstanceAs (Decidable (∀ r ∈ q.rexmitQueue, _))

variable {q : TCPSACKRexmitQueue} {first last n max : ℕ}

/-- What `checkSackBlock` returns is a stretch up to the end of a region. -/
theorem Valid.stretch (h : q.Valid first last) (hspan : last < first + 2 ^ 31) (hfirst : first ≤ n)
    (hn : n < last) :
    ∃ r ∈ q.rexmitQueue, ∃ x y flags, r.At x y ∧ x ≤ n ∧ n < y ∧ y ≤ last ∧
      q.checkSackBlock (wrap n) = .ok (wrap (y - n), flags.sacked, flags.rexmitted) ∧
      q.scoreboard.Stretch (n - first) (y - n) flags := by
  have hasserted : seqLE q.begin (wrap n) ∧ seqLess (wrap n) q.stop := by
    rw [h.begin_eq, h.stop_eq, seqLE_wrap ⟨by omega, by omega⟩, seqLess_wrap ⟨by omega, by omega⟩]
    omega
  obtain ⟨before, r, rest, x, y, hsearch, hl, -, hbefore, hr, hxn, hny, hrest⟩ :=
    search_spec h.tiles (n := n) ⟨hfirst, by omega, by omega⟩ hn
  have hmem : r ∈ q.rexmitQueue := hl ▸ List.mem_append_right _ List.mem_cons_self
  refine ⟨r, hmem, x, y, ⟨r.sacked, r.rexmitted⟩, hr, hxn, hny, hrest.le, ?_,
    Nat.sub_pos_of_lt hny, ?_⟩
  · have hry := hr.lt
    rw [TCPSACKRexmitQueue.checkSackBlock, if_neg (not_not.2 hasserted), hsearch,
      ← toNat_wrap_sub_wrap hny.le (by omega), wrap_toNat, ← hr.end_eq]
    rfl
  · rw [scoreboard, hl, drop_expand rest hbefore hr hxn hny.le]
    exact List.prefix_append _ _

/-- A stretch ends at the latest where no region reaches across. -/
theorem Valid.stretch_le (h : q.Valid first last) (hspan : last < first + 2 ^ 31)
    (hfirst : first ≤ n) (hn : n < max) (hmax : max ≤ last) (hnone : q.NoneAcross (wrap max)) :
    ∃ y flags, q.checkSackBlock (wrap n) = .ok (wrap (y - n), flags.sacked, flags.rexmitted) ∧
      n < y ∧ y ≤ max ∧ q.scoreboard.Stretch (n - first) (y - n) flags := by
  obtain ⟨r, hmem, x, y, flags, hr, hxn, hny, hy, hblock, hstretch⟩ :=
    h.stretch hspan hfirst (by omega)
  refine ⟨y, flags, hblock, hny, ?_, hstretch⟩
  by_contra hlt
  have hry := hr.lt
  refine hnone r hmem ?_
  rw [hr.begin_eq, hr.end_eq, seqLess_wrap ⟨by omega, by omega⟩,
    seqLess_wrap ⟨by omega, by omega⟩]
  omega

/-- `highRxt` as the code has it. -/
theorem Valid.getHighestRexmittedSeqNum_eq (h : q.Valid first last) :
    q.getHighestRexmittedSeqNum = wrap (first + q.scoreboard.highRxt) := by
  have hhighest : q.getHighestRexmittedSeqNum = q.scoreboard.getHighest Flags.rexmitted :=
    h.getHighest fun _ ↦ rfl
  rw [hhighest, ← wrap_add_wrap, ← h.begin_eq]
  rfl

theorem Valid.highRxt_le (h : q.Valid first last) : q.scoreboard.highRxt ≤ last - first := by
  have hcut := List.rdropWhile_prefix (!·.rexmitted) q.scoreboard.bytes
  exact hcut.length_le.trans_eq h.length_bytes

end TCPSACKRexmitQueue

namespace TCPSender

open TCPSACKRexmitQueue

variable {s : TCPSender} {first last n max : ℕ}

/-- **`isLost` answers for an octet** that is not sacked. -/
theorem isLost_eq (hq : s.rexmitQueue.Valid first last) (hspan : last < first + 2 ^ 31)
    (hsack : s.sackEnabled = true) (hfirst : first ≤ n) (hn : n < last)
    (huna : seqGE (wrap n) s.sndUna) {length : ℕ} {flags : Flags}
    (hstretch : s.rexmitQueue.scoreboard.Stretch (n - first) length flags)
    (hsacked : flags.sacked = false) :
    s.isLost (wrap n) = .ok (decide (s.rexmitQueue.scoreboard.IsLost s.sndMss (n - first))) := by
  have hge : seqLE s.rexmitQueue.begin (wrap n) := by
    rw [hq.begin_eq, seqLE_wrap ⟨by omega, by omega⟩]
    exact hfirst
  have hle : seqLE (wrap n) s.rexmitQueue.stop := by
    rw [hq.stop_eq, seqLE_wrap ⟨by omega, by omega⟩]
    exact hn.le
  have hoffset : s.rexmitQueue.scoreboard.offset (wrap n) = n - first := by
    show (wrap n - s.rexmitQueue.begin).toNat = n - first
    rw [hq.begin_eq, toNat_wrap_sub_wrap hfirst (by omega)]
  have hpos := hstretch.pos
  obtain ⟨sacks, hsacks, hcount⟩ := exists_of_map_eq_ok (hq.getNumOfDiscontiguousSacks hge hle)
  obtain ⟨bytes, hbytes, hsum⟩ := exists_of_map_eq_ok (hq.getAmountOfSackedBytes hge hle)
  rw [Scoreboard.getNumOfDiscontiguousSacks, hoffset] at hcount
  rw [Scoreboard.getAmountOfSackedBytes, hoffset] at hsum
  have hlost := hstretch.isLost_iff hsacked s.sndMss le_rfl (by omega)
  rw [← hcount, ← hsum, ← UInt32.le_iff_toNat_le, ← UInt32.le_iff_toNat_le] at hlost
  rw [isLost, if_neg (not_not.2 ⟨hsack, huna⟩), hsacks, hbytes]
  show (if DUPTHRESH ≤ sacks then Except.ok true
    else Except.ok (decide (DUPTHRESH * s.sndMss ≤ bytes))) = _
  by_cases hblocks : DUPTHRESH ≤ sacks
  · rw [if_pos hblocks, decide_eq_true (hlost.2 (.inl hblocks))]
  · rw [if_neg hblocks]
    simp only [hlost, hblocks, false_or]

/-- A turn adds what the octets of its stretch add. -/
theorem pipeTurn_eq (hq : s.rexmitQueue.Valid first last) (hspan : last < first + 2 ^ 31)
    (hsack : s.sackEnabled = true) (hrxt : s.highRxt = s.rexmitQueue.getHighestRexmittedSeqNum)
    (hfirst : first ≤ n) (hn : n < last) (huna : seqGE (wrap n) s.sndUna) {length : ℕ}
    {flags : Flags} (hstretch : s.rexmitQueue.scoreboard.Stretch (n - first) length flags) :
    s.pipeTurn (wrap n) (wrap length) flags.sacked =
      .ok (wrap (length * s.rexmitQueue.scoreboard.octetsOf s.sndMss (n - first))) := by
  have hpos := hstretch.pos
  have hhigh := hq.highRxt_le
  have hbelow : seqLess (wrap n) s.highRxt ↔ n - first < s.rexmitQueue.scoreboard.highRxt := by
    rw [hrxt, hq.getHighestRexmittedSeqNum_eq, seqLess_wrap ⟨by omega, by omega⟩]
    omega
  rw [Scoreboard.octetsOf, hstretch.flagsAt_eq le_rfl (by omega), pipeTurn]
  obtain hsacked | hsacked := Bool.eq_false_or_eq_true flags.sacked
  · rw [hsacked, if_pos rfl, if_pos rfl, Nat.mul_zero]
    rfl
  · rw [hsacked, if_neg Bool.false_ne_true, if_neg Bool.false_ne_true,
      isLost_eq hq hspan hsack hfirst hn huna hstretch hsacked]
    refine congrArg Except.ok ?_
    simp only [hbelow, decide_eq_true_eq, Nat.mul_add, ← wrap_add_wrap, apply_ite wrap,
      mul_ite, Nat.mul_zero, Nat.mul_one]
    rfl

/-- **The loop adds what the octets up to `snd_max` add**, within as many turns as there are
octets. -/
theorem pipeLoop_eq (hq : s.rexmitQueue.Valid first last) (hspan : last < first + 2 ^ 31)
    (hsack : s.sackEnabled = true) (hrxt : s.highRxt = s.rexmitQueue.getHighestRexmittedSeqNum)
    (hmax : s.sndMax = wrap max) (hlast : max ≤ last)
    (hnone : s.rexmitQueue.NoneAcross (wrap max)) (hfirst : first ≤ n) (hn : n ≤ max)
    (huna : ∃ una, s.sndUna = wrap una ∧ first ≤ una ∧ una ≤ n) (rounds : ℕ)
    (hrounds : max - n ≤ rounds) (pipe : UInt32) :
    s.pipeLoop rounds (wrap n) pipe = .ok (pipe + wrap
      (∑ i ∈ Finset.Ico (n - first) (max - first),
        s.rexmitQueue.scoreboard.octetsOf s.sndMss i)) := by
  induction rounds generalizing n pipe with
  | zero =>
    have heq : n = max := by omega
    have hend : ¬ seqLess (wrap n) s.sndMax := by
      rw [hmax, seqLess_wrap ⟨by omega, by omega⟩]
      omega
    rw [pipeLoop, if_neg hend, heq, Finset.Ico_self, Finset.sum_empty]
    exact congrArg Except.ok (UInt32.add_zero pipe).symm
  | succ rounds ih =>
    rw [pipeLoop]
    obtain rfl | hlt := hn.eq_or_lt
    · have hend : ¬ seqLess (wrap n) s.sndMax := by
        rw [hmax, seqLess_wrap ⟨by omega, by omega⟩]
        omega
      rw [if_neg hend, Finset.Ico_self, Finset.sum_empty]
      exact congrArg Except.ok (UInt32.add_zero pipe).symm
    · have hgoes : seqLess (wrap n) s.sndMax := by
        rw [hmax, seqLess_wrap ⟨by omega, by omega⟩]
        exact hlt
      obtain ⟨una, hsnd, huna', hle⟩ := huna
      have hge : seqGE (wrap n) s.sndUna := by
        rw [hsnd, seqGE_wrap ⟨by omega, by omega⟩]
        exact hle
      obtain ⟨y, flags, hblock, hny, hymax, hstretch⟩ :=
        hq.stretch_le hspan hfirst hlt hlast hnone
      have hturn := pipeTurn_eq hq hspan hsack hrxt hfirst (by omega) hge hstretch
      have hrest := ih (n := y) (by omega) hymax ⟨una, hsnd, huna', by omega⟩ (by omega)
        (pipe + wrap ((y - n) * s.rexmitQueue.scoreboard.octetsOf s.sndMss (n - first)))
      rw [if_pos hgoes, hblock]
      show (ofRuntime (s.pipeTurn (wrap n) (wrap (y - n)) flags.sacked) >>= fun added ↦
        s.pipeLoop rounds (wrap n + wrap (y - n)) (pipe + added)) = _
      rw [hturn, wrap_add_wrap, Nat.add_sub_cancel' hny.le]
      refine hrest.trans (congrArg Except.ok ?_)
      have hsum := hstretch.sum_octetsOf s.sndMss
      rw [show n - first + (y - n) = y - first by omega] at hsum
      rw [UInt32.add_assoc, wrap_add_wrap, ← hsum,
        Finset.sum_Ico_consecutive _ (by omega) (by omega)]

/-- **`setPipe` makes the estimate of RFC 3517, octet by octet.** The scoreboard covers
`[snd_una, snd_max)`, and no region reaches across `snd_max`. -/
theorem setPipe_eq_pipe {una : ℕ} (hq : s.rexmitQueue.Valid first last)
    (hspan : last < first + 2 ^ 31) (hsack : s.sackEnabled = true) (huna : s.sndUna = wrap una)
    (hmax : s.sndMax = wrap max) (hfirst : first ≤ una) (hle : una ≤ max) (hlast : max ≤ last)
    (hnone : s.rexmitQueue.NoneAcross s.sndMax) (rounds : ℕ) (hrounds : max - una ≤ rounds) :
    ∃ pipe, s.setPipe rounds =
        .ok { s with highRxt := s.rexmitQueue.getHighestRexmittedSeqNum, pipe } ∧
      pipe.toNat = s.rexmitQueue.scoreboard.pipe (s.rexmitQueue.scoreboard.IsLost s.sndMss)
        (· < s.rexmitQueue.scoreboard.highRxt) (una - first) (max - first) := by
  rw [← Scoreboard.sum_octetsOf]
  have hloop := pipeLoop_eq
    (s := { s with highRxt := s.rexmitQueue.getHighestRexmittedSeqNum, pipe := 0 })
    hq hspan hsack rfl hmax hlast (hmax ▸ hnone) hfirst hle ⟨una, huna, hfirst, le_rfl⟩ rounds
    hrounds 0
  have hbound : ∑ i ∈ Finset.Ico (una - first) (max - first),
      s.rexmitQueue.scoreboard.octetsOf s.sndMss i ≤ (max - first - (una - first)) • 2 :=
    (Finset.sum_le_card_nsmul _ _ 2 fun i _ ↦
      s.rexmitQueue.scoreboard.octetsOf_le s.sndMss i).trans_eq (by rw [Nat.card_Ico])
  rw [nsmul_eq_mul, Nat.cast_id] at hbound
  refine ⟨wrap (∑ i ∈ Finset.Ico (una - first) (max - first),
    s.rexmitQueue.scoreboard.octetsOf s.sndMss i), ?_, ?_⟩
  · rw [setPipe, if_neg (not_not.2 hsack)]
    show (TCPSender.pipeLoop _ rounds s.sndUna 0 >>= _) = _
    rw [← huna] at hloop
    rw [hloop, UInt32.zero_add]
    rfl
  · rw [toNat_wrap, Nat.mod_eq_of_lt (by omega)]

/-- Fourteen octets have been sent. -/
def fourteenSent (regions : List RexmitRegion) : TCPSender where
  rcvNxt := 0
  rcvWnd := 0
  rcvAdv := 0
  maxRcvBuffer := 0
  sndMss := 4
  receiveQueue := ⟨0, []⟩
  sndUna := 0
  sndNxt := 14
  sndMax := 14
  sndWnd := 100
  rexmitQueue := ⟨regions, 0, 14⟩
  sendQueue := ⟨0, 14⟩

/-- All of them but the first four are sacked. -/
def tenSacked : List RexmitRegion :=
  [⟨0, 4, false, false⟩, ⟨4, 14, true, false⟩]

/-- The second four of them have been sent again. -/
def secondResent : List RexmitRegion :=
  [⟨0, 4, false, false⟩, ⟨4, 8, false, true⟩, ⟨8, 14, true, false⟩]

theorem setPipe_eq_pipe_tenSacked :
    ∃ pipe, (fourteenSent tenSacked).setPipe 14 =
        .ok { fourteenSent tenSacked with highRxt := 0, pipe } ∧
      pipe.toNat = (fourteenSent tenSacked).rexmitQueue.scoreboard.pipe
        ((fourteenSent tenSacked).rexmitQueue.scoreboard.IsLost 4)
        (· < (fourteenSent tenSacked).rexmitQueue.scoreboard.highRxt) 0 14 :=
  setPipe_eq_pipe (s := fourteenSent tenSacked)
    ⟨rfl, rfl, .cons ⟨rfl, rfl, by decide, by decide⟩ (b := 4) (by decide)
      (.cons ⟨rfl, rfl, by decide, by decide⟩ (b := 14) (by decide) (.nil 14)), by decide⟩
    (by decide) rfl rfl rfl le_rfl (by decide) le_rfl (by decide) 14 le_rfl

end TCPSender

/-- An octet is lost by RFC 6675. -/
def Scoreboard.IsLostByRFC6675 (b : Scoreboard) (mss : UInt32) (i : ℕ) : Prop :=
  DUPTHRESH.toNat ≤ sackedBlocks false (b.bytes.drop (i + 1)) ∨
    ((DUPTHRESH - 1) * mss).toNat < (b.bytes.drop (i + 1)).countP Flags.sacked

instance (b : Scoreboard) (mss : UInt32) (i : ℕ) : Decidable (b.IsLostByRFC6675 mss i) :=
  inferInstanceAs (Decidable (_ ∨ _))

namespace TCPSender

/-- Ten sacked octets are more than two segments of four but not three, and the octets below those
that have been sent again count twice. -/
theorem setPipe_ne_pipe :
    (((fourteenSent tenSacked).setPipe 14).toOption.map TCPSender.pipe = some 4 ∧
      (fourteenSent tenSacked).rexmitQueue.scoreboard.pipe
        ((fourteenSent tenSacked).rexmitQueue.scoreboard.IsLostByRFC6675 4)
        (fun i ↦ ((fourteenSent tenSacked).rexmitQueue.scoreboard.flagsAt i).rexmitted = true)
        0 14 = 0) ∧
    ((fourteenSent secondResent).setPipe 14).toOption.map TCPSender.pipe = some 16 ∧
      (fourteenSent secondResent).rexmitQueue.scoreboard.pipe
        ((fourteenSent secondResent).rexmitQueue.scoreboard.IsLostByRFC6675 4)
        (fun i ↦ ((fourteenSent secondResent).rexmitQueue.scoreboard.flagsAt i).rexmitted = true)
        0 14 = 12 := by
  decide +kernel

end TCPSender

end Inet.Tcp
