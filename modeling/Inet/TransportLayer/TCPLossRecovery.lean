import Mathlib.Logic.Relation
import Mathlib.Order.Bounds.Defs
import Inet.TransportLayer.TCPPipe
import Inet.TransportLayer.TCPSendSegment

/-!
# Loss recovery and the window of the peer

`nextSeg` chooses what is sent next during the recovery from losses. `Scoreboard.NextSeg` says what
RFC 3517 demands of it, with the octets numbered from `snd_una` on. The loops of the code find the
first octets of rules (1) and (3), since an octet is lost if one above it is
(`nextSeg_spec`).

For rule (2) the code compares the window with `pipe`, the estimate of what is in the network, and
not with what is outstanding, and the difference is unsigned. What a segment carries is bounded by
the segment size alone: neither by the window, when octets are sent again, nor by the next sacked
octet. The code meets its purpose exactly in the states in which this makes no difference
(`respectsWindow_iff`); when the window has shrunk below `pipe`, new octets are sent behind it
(`not_respectsWindow`).
-/

namespace Inet.Tcp

open SerialNumber Tiling

namespace Scoreboard

variable (b : Scoreboard)

/-- The position behind the last sacked octet, 0 if there is none. -/
def highSacked : ℕ :=
  (b.bytes.rdropWhile (!·.sacked)).length

/-- The octets from `k` on that are not sacked, below `high` and of those that have been sent. -/
def unsackedFrom (k high sent : ℕ) : Set ℕ :=
  {i | k ≤ i ∧ i < high ∧ i < sent ∧ (b.flagsAt i).sacked = false}

/-- The octets that are not sacked and meet (1.a) and (1.b): they lie behind what has been sent
again and below the highest sacked octet. -/
def unsacked (sent : ℕ) : Set ℕ :=
  b.unsackedFrom b.highRxt b.highSacked sent

/-- Those that are lost as well (1.c). -/
def lost (mss : UInt32) (sent : ℕ) : Set ℕ :=
  {i | i ∈ b.unsacked sent ∧ b.IsLost mss i}

/-- What a search for the first octet of a set finds. -/
def Finds (S : Set ℕ) : Option ℕ → Prop
  | some i => IsLeast S i
  | none => S = ∅

/-- `NextSeg ()`: what rules (1) to (4) choose. `Admits` says that there is new data and that the
window admits it. -/
def NextSeg (mss : UInt32) (sent : ℕ) (Admits : Prop) : Option ℕ → Prop
  | some i => IsLeast (b.lost mss sent) i ∨
      b.lost mss sent = ∅ ∧ (Admits ∧ i = sent ∨ ¬ Admits ∧ IsLeast (b.unsacked sent) i)
  | none => b.lost mss sent = ∅ ∧ ¬ Admits ∧ b.unsacked sent = ∅

variable {b} {mss : UInt32} {sent i j : ℕ} {P Q : Prop}

/-- Sacked octets at the start do not matter. -/
theorem unsackedFrom_eq {k y high : ℕ} (hle : k ≤ y)
    (hsacked : ∀ i, k ≤ i → i < y → (b.flagsAt i).sacked = true) :
    b.unsackedFrom k high sent = b.unsackedFrom y high sent := by
  ext i
  refine ⟨fun ⟨hk, hrest⟩ ↦ ⟨?_, hrest⟩, fun ⟨hy, hrest⟩ ↦ ⟨hle.trans hy, hrest⟩⟩
  by_contra hlt
  rw [hsacked i hk (not_le.1 hlt)] at hrest
  exact absurd hrest.2.2 (by decide)

/-! ### Lost octets lie below lost octets -/

theorem sackedBlocks_le_succ (bytes : List Flags) :
    sackedBlocks false bytes ≤ 1 + sackedBlocks true bytes := by
  cases bytes with
  | nil => exact Nat.zero_le _
  | cons flags bytes =>
    rw [sackedBlocks, sackedBlocks]
    cases flags.sacked <;> simp

theorem sackedBlocks_drop_le (bytes : List Flags) (n : ℕ) :
    sackedBlocks false (bytes.drop n) ≤ sackedBlocks false bytes := by
  induction n generalizing bytes with
  | zero => exact le_rfl
  | succ n ih =>
    cases bytes with
    | nil => exact le_rfl
    | cons flags bytes =>
      have hle := sackedBlocks_le_succ bytes
      refine (ih bytes).trans ?_
      rw [sackedBlocks]
      cases flags.sacked <;> simp_all

theorem IsLost.mono (h : b.IsLost mss j) (hle : i ≤ j) : b.IsLost mss i := by
  obtain ⟨k, rfl⟩ := Nat.exists_eq_add_of_le hle
  have hdrop : b.bytes.drop (i + k + 1) = (b.bytes.drop (i + 1)).drop k := by
    rw [List.drop_drop, Nat.add_right_comm]
  rw [IsLost, hdrop] at h
  refine h.imp (fun hblocks ↦ ?_) fun hbytes ↦ ?_
  · exact hblocks.trans (sackedBlocks_drop_le _ k)
  · exact hbytes.trans ((List.drop_sublist k _).countP_le)

/-- If the first octet that is not sacked is not lost, none is. -/
theorem lost_eq_empty (h : IsLeast (b.unsacked sent) i) (hnot : ¬ b.IsLost mss i) :
    b.lost mss sent = ∅ :=
  Set.eq_empty_of_forall_notMem fun _ hj ↦ hnot (hj.2.mono (h.2 hj.1))

theorem isLeast_lost (h : IsLeast (b.unsacked sent) i) (hlost : b.IsLost mss i) :
    IsLeast (b.lost mss sent) i :=
  ⟨⟨h.1, hlost⟩, fun _ hj ↦ h.2 hj.1⟩

/-- **What is chosen follows rule (2) as it is read otherwise** if the readings agree where rule (1)
does not apply. -/
theorem nextSeg_congr {r : Option ℕ} (h : b.NextSeg mss sent P r) :
    b.NextSeg mss sent Q r ↔ (b.lost mss sent = ∅ → (P ↔ Q)) := by
  have hbelow {i : ℕ} (hi : IsLeast (b.unsacked sent) i) : i ≠ sent := hi.1.2.2.1.ne
  cases r with
  | none =>
    obtain ⟨hlost, hP, hnone⟩ := h
    exact ⟨fun hQ _ ↦ iff_of_false hP hQ.2.1, fun hiff ↦ ⟨hlost, mt (hiff hlost).2 hP, hnone⟩⟩
  | some i =>
    rcases h with hleast | ⟨hlost, hchoice⟩
    · exact ⟨fun _ hlost ↦ absurd (hlost ▸ hleast.1) (Set.notMem_empty i), fun _ ↦ .inl hleast⟩
    · constructor
      · rintro (hleast | ⟨-, hchoice'⟩) -
        · exact absurd (hlost ▸ hleast.1) (Set.notMem_empty i)
        · rcases hchoice with ⟨hP, heq⟩ | ⟨hP, hleast⟩
          · exact iff_of_true hP (hchoice'.resolve_right fun h ↦ hbelow h.2 heq).1
          · exact iff_of_false hP (hchoice'.resolve_left fun h ↦ hbelow hleast h.2).1
      · intro hiff
        rw [hiff hlost] at hchoice
        exact .inr ⟨hlost, hchoice⟩

/-- What the rules choose is determined. -/
theorem nextSeg_unique {r : Option ℕ} (h : b.NextSeg mss sent P r)
    (hi : b.NextSeg mss sent P (some i)) : r = some i := by
  have hnone {j : ℕ} (hlost : b.lost mss sent = ∅) : ¬ IsLeast (b.lost mss sent) j :=
    fun hj ↦ absurd (hlost ▸ hj.1) (Set.notMem_empty j)
  cases r with
  | none =>
    obtain ⟨hlost, hP, hempty⟩ := h
    rcases hi with hleast | ⟨-, ⟨hP', -⟩ | ⟨-, hleast⟩⟩
    · exact absurd hleast (hnone hlost)
    · exact absurd hP' hP
    · exact absurd (hempty ▸ hleast.1) (Set.notMem_empty i)
  | some j =>
    rcases h with hj | ⟨hlost, ⟨hP, rfl⟩ | ⟨hP, hj⟩⟩
    · rcases hi with hi | ⟨hlost, -⟩
      · rw [hj.unique hi]
      · exact absurd hj (hnone hlost)
    · rcases hi with hi | ⟨-, ⟨-, rfl⟩ | ⟨hP', -⟩⟩
      · exact absurd hi (hnone hlost)
      · rfl
      · exact absurd hP hP'
    · rcases hi with hi | ⟨-, ⟨hP', -⟩ | ⟨-, hi⟩⟩
      · exact absurd hi (hnone hlost)
      · exact absurd hP' hP
      · rw [hj.unique hi]

end Scoreboard

namespace TCPSender

/-! ### What the code should do -/

/-- How many octets are outstanding. -/
def sent (s : TCPSender) : ℕ :=
  (s.sndMax - s.sndUna).toNat

/-- Octets that have not been sent are buffered. -/
def HasNewData (s : TCPSender) : Prop :=
  0 < s.sendQueue.getBytesAvailable s.sndMax

instance (s : TCPSender) : Decidable s.HasNewData :=
  inferInstanceAs (Decidable (_ < _))

/-- There is new data, and the window admits a segment of it behind what is outstanding. -/
def AdmitsNewData (s : TCPSender) : Prop :=
  s.HasNewData ∧ s.sent + s.sndMss.toNat ≤ s.sndWnd.toNat

/-- What `nextSeg` should choose, as an octet counted from `snd_una`. -/
def NextSeg (s : TCPSender) : Option ℕ → Prop :=
  s.rexmitQueue.scoreboard.NextSeg s.sndMss s.sent s.AdmitsNewData

/-- The number of an octet, counted from `snd_una`. -/
def octet (s : TCPSender) (seqNum : UInt32) : ℕ :=
  (seqNum - s.sndUna).toNat

/-- No octet is lost that has not been sent again, so that rule (1) does not apply. -/
def NoneLost (s : TCPSender) : Prop :=
  s.rexmitQueue.scoreboard.lost s.sndMss s.sent = ∅

/-- Octets lie within the window, and none of them is sacked. -/
def Fit (s : TCPSender) (start size : ℕ) : Prop :=
  ∀ i, start ≤ i → i < start + size →
    i < s.sndWnd.toNat ∧ (s.rexmitQueue.scoreboard.flagsAt i).sacked = false

/-- **What a turn of the loop should do**: `nextSeg` chooses by the rules, the difference of the
window and `pipe` does not wrap around where it is used, and the octets that are sent lie within the
window and are not sacked. -/
structure RespectsWindow (s : TCPSender) (time : UInt32) (rounds : ℕ) : Prop where
  chooses : ∃ s₁ seqNum, s.nextSeg rounds = .ok (s₁, seqNum) ∧ s.NextSeg (seqNum.map s.octet)
  pipe_le : s.NoneLost → s.pipe ≤ s.sndWnd
  fit : ∀ s₁ seqNum s' tcpseg, s.nextSeg rounds = .ok (s₁, some seqNum) →
    { s₁ with sndNxt := seqNum }.sendSegment s₁.sndMss time = .ok (s', tcpseg) →
    s.Fit (s.octet tcpseg.sequenceNo) tcpseg.payloadLength

/-- The sender when it sends from an octet on. -/
def sendsFrom (s : TCPSender) (i : ℕ) : TCPSender :=
  { s with
    highRxt := s.rexmitQueue.getHighestRexmittedSeqNum
    sndNxt := s.sndUna + wrap i }

/-- Where rule (1) does not apply, `pipe` lies within the window, and new data fits behind `pipe` if
and only if it fits behind what is outstanding. The segment that starts with the chosen octet,
behind those that are passed over, lies within the window and reaches no sacked octet. -/
structure Safe (s : TCPSender) (time : UInt32) : Prop where
  pipe_le : s.NoneLost → s.pipe ≤ s.sndWnd
  pipe_iff : s.NoneLost → s.HasNewData →
    (s.pipe.toNat + s.sndMss.toNat ≤ s.sndWnd.toNat ↔
      s.sent + s.sndMss.toNat ≤ s.sndWnd.toNat)
  fit : ∀ i header, s.NextSeg (some i) → (s.sendsFrom i).CanSend time header →
    s.Fit (i + (s.sendsFrom i).passed) ((s.sendsFrom i).segmentSize s.sndMss header)

/-- A sender that recovers from losses. Its scoreboard starts with the octet at `snd_una`. -/
structure Recovering (s : TCPSender) (una n max last stop : ℕ) : Prop
    extends Placed s una una n max last stop where
  sackEnabled : s.sackEnabled = true
  lossRecovery : s.lossRecovery = true

variable {s s' : TCPSender} {una n max last stop rounds k i : ℕ} {time : UInt32}

/-! ### What `nextSeg` chooses -/

/-- **The loop finds the first octet that is not sacked.** -/
theorem nextUnsacked_eq (rounds high sent k : ℕ) (hq : s.rexmitQueue.Valid una last)
    (hspan : last < una + 2 ^ 31) (hmax : s.sndMax = wrap (una + sent)) (hsent : sent < 2 ^ 31)
    (hhigh : una + high ≤ last) (hk : una + k ≤ last) (hrounds : high - k ≤ rounds) :
    ∃ r : Option ℕ, s.nextUnsacked (wrap (una + high)) rounds (wrap (una + k)) =
        .ok (r.map fun i ↦ wrap (una + i)) ∧
      Scoreboard.Finds (s.rexmitQueue.scoreboard.unsackedFrom k high sent) r := by
  induction rounds generalizing k with
  | zero =>
    have hgoes : ¬ (seqLess (wrap (una + k)) s.sndMax ∧
        seqLess (wrap (una + k)) (wrap (una + high))) := by
      rw [hmax, seqLess_wrap ⟨by omega, by omega⟩, seqLess_wrap ⟨by omega, by omega⟩]
      omega
    refine ⟨none, ?_, Set.eq_empty_of_forall_notMem fun i hi ↦ ?_⟩
    · rw [nextUnsacked, if_neg hgoes]
      rfl
    · have hki := hi.1
      have hhigh := hi.2.1
      omega
  | succ rounds ih =>
    have hgoes : seqLess (wrap (una + k)) s.sndMax ∧
        seqLess (wrap (una + k)) (wrap (una + high)) ↔ k < sent ∧ k < high := by
      rw [hmax, seqLess_wrap ⟨by omega, by omega⟩, seqLess_wrap ⟨by omega, by omega⟩]
      omega
    by_cases hend : k < sent ∧ k < high
    · obtain ⟨-, -, x, y, flags, -, -, hny, hy, hblock, hstretch⟩ :=
        hq.stretch hspan (Nat.le_add_right una k) (by omega)
      obtain ⟨length, rfl⟩ := Nat.exists_eq_add_of_le hny.le
      rw [Nat.add_sub_cancel_left, Nat.add_sub_cancel_left] at hstretch
      have hpos := hstretch.pos
      rw [nextUnsacked, if_pos (hgoes.2 hend), hblock]
      show ∃ r : Option ℕ,
        (if flags.sacked then s.nextUnsacked _ rounds _ else .ok (some _)) = _ ∧ _
      obtain hsacked | hsacked := Bool.eq_false_or_eq_true flags.sacked
      · obtain ⟨r, heq, hfinds⟩ := ih (k + length) (by omega) (by omega)
        rw [if_pos hsacked, wrap_add_wrap, Nat.add_sub_cancel_left, Nat.add_assoc, heq,
          Scoreboard.unsackedFrom_eq (Nat.le_add_right k length) fun i hk hi ↦ by
            rw [hstretch.flagsAt_eq hk hi, hsacked]]
        exact ⟨r, rfl, hfinds⟩
      · have hflags := hstretch.flagsAt_eq le_rfl (by omega)
        rw [if_neg (by simp [hsacked])]
        exact ⟨some k, rfl, ⟨le_rfl, hend.2, hend.1, hflags ▸ hsacked⟩, fun i hi ↦ hi.1⟩
    · refine ⟨none, ?_, Set.eq_empty_of_forall_notMem fun i hi ↦ ?_⟩
      · rw [nextUnsacked, if_neg (mt hgoes.1 hend)]
        rfl
      · obtain ⟨hki, hhigh, hsent, -⟩ := hi
        omega

/-- The window of rule (2) as the code reads it. -/
def ReadsWindow (s : TCPSender) : Prop :=
  s.HasNewData ∧ s.sndMss.toUInt64 ≤ s.effectiveWin

theorem Recovering.sent_eq (h : s.Recovering una n max last stop) :
    una + s.sent = max := by
  have hle := h.una_le_max
  have hmax := h.max_le
  have hspan := h.stop_lt
  rw [sent, h.sndMax_eq, h.sndUna_eq, toNat_wrap_sub_wrap hle (by omega)]
  omega

theorem Recovering.highSacked_le (h : s.Recovering una n max last stop) :
    una + s.rexmitQueue.scoreboard.highSacked ≤ last := by
  have hcut := List.rdropWhile_prefix (!·.sacked) s.rexmitQueue.scoreboard.bytes
  have hq := h.valid h.sackEnabled
  have hlength := hcut.length_le
  have hle := hq.tiles.le
  rw [hq.length_bytes] at hlength
  rw [Scoreboard.highSacked]
  omega

/-- The loop, from `highRxt` to the highest sacked octet. -/
theorem Recovering.nextUnsacked_spec (h : s.Recovering una n max last stop)
    (hrounds : stop - una ≤ rounds) (highRxt : UInt32) :
    ∃ r : Option ℕ, nextUnsacked { s with highRxt } s.rexmitQueue.getHighestSackedSeqNum rounds
        s.rexmitQueue.getHighestRexmittedSeqNum = .ok (r.map fun i ↦ s.sndUna + wrap i) ∧
      Scoreboard.Finds (s.rexmitQueue.scoreboard.unsacked s.sent) r := by
  have hq := h.valid h.sackEnabled
  have hlast := h.last_le h.sackEnabled
  have hspan := h.stop_lt
  have hsent := h.sent_eq
  have hmax := h.max_le
  have hhigh := h.highSacked_le
  have hrxt := hq.highRxt_le
  have hqlast := hq.tiles.le
  have hsacked : s.rexmitQueue.getHighestSackedSeqNum =
      wrap (una + s.rexmitQueue.scoreboard.highSacked) := by
    have hhighest : s.rexmitQueue.getHighestSackedSeqNum =
        s.rexmitQueue.scoreboard.getHighest Flags.sacked := hq.getHighest fun _ ↦ rfl
    rw [hhighest, ← wrap_add_wrap, ← hq.begin_eq]
    rfl
  obtain ⟨r, heq, hfinds⟩ := nextUnsacked_eq (s := { s with highRxt }) rounds
    s.rexmitQueue.scoreboard.highSacked s.sent s.rexmitQueue.scoreboard.highRxt hq (by omega)
    (hsent ▸ h.sndMax_eq) (by omega) hhigh (by omega) (by omega)
  refine ⟨r, ?_, hfinds⟩
  rw [hsacked, hq.getHighestRexmittedSeqNum_eq, heq, h.sndUna_eq]
  simp only [wrap_add_wrap]

/-- Rules (2) and (3). -/
theorem Recovering.nextNewOrUnsacked_spec (h : s.Recovering una n max last stop)
    (hrounds : stop - una ≤ rounds)
    (hlost : s.rexmitQueue.scoreboard.lost s.sndMss s.sent = ∅) :
    ∃ r : Option ℕ, nextNewOrUnsacked
        { s with highRxt := s.rexmitQueue.getHighestRexmittedSeqNum } rounds =
          .ok (r.map fun i ↦ s.sndUna + wrap i) ∧
      s.rexmitQueue.scoreboard.NextSeg s.sndMss s.sent s.ReadsWindow r := by
  rw [nextNewOrUnsacked]
  by_cases hreads : s.ReadsWindow
  · refine ⟨some s.sent, (if_pos hreads).trans ?_, .inr ⟨hlost, .inl ⟨hreads, rfl⟩⟩⟩
    show Except.ok (some s.sndMax) = Except.ok (some (s.sndUna + wrap s.sent))
    rw [h.sndMax_eq, h.sndUna_eq, wrap_add_wrap, h.sent_eq]
  · obtain ⟨r, heq, hfinds⟩ := h.nextUnsacked_spec hrounds s.rexmitQueue.getHighestRexmittedSeqNum
    refine ⟨r, (if_neg hreads).trans heq, ?_⟩
    cases r with
    | none => exact ⟨hlost, hreads, hfinds⟩
    | some i => exact .inr ⟨hlost, .inr ⟨hreads, hfinds⟩⟩

/-- **`nextSeg` chooses by the rules**, with the window as the code reads it. -/
theorem Recovering.nextSeg_spec (h : s.Recovering una n max last stop)
    (hrounds : stop - una ≤ rounds) :
    ∃ r : Option ℕ, s.nextSeg rounds =
        .ok ({ s with highRxt := s.rexmitQueue.getHighestRexmittedSeqNum },
          r.map fun i ↦ s.sndUna + wrap i) ∧
      s.rexmitQueue.scoreboard.NextSeg s.sndMss s.sent s.ReadsWindow r := by
  obtain ⟨r₀, hloop, hfinds⟩ :=
    h.nextUnsacked_spec hrounds s.rexmitQueue.getHighestRexmittedSeqNum
  rw [nextSeg, if_neg (not_not.2 h.sackEnabled)]
  show ∃ r : Option ℕ, Except.bind (nextUnsacked _ _ rounds _) _ = _ ∧ _
  rw [hloop]
  cases r₀ with
  | none =>
    have hlost : s.rexmitQueue.scoreboard.lost s.sndMss s.sent = ∅ :=
      Set.eq_empty_of_forall_notMem fun i hi ↦ (Set.eq_empty_iff_forall_notMem.1 hfinds i) hi.1
    obtain ⟨r, heq, hnext⟩ := h.nextNewOrUnsacked_spec hrounds hlost
    refine ⟨r, ?_, hnext⟩
    show Except.bind (nextNewOrUnsacked _ rounds) _ = _
    rw [heq]
    rfl
  | some i =>
    have hq := h.valid h.sackEnabled
    have hlast := h.last_le h.sackEnabled
    have hspan := h.stop_lt
    have hhigh := h.highSacked_le
    obtain ⟨-, hbelow, -, hunsacked⟩ := hfinds.1
    -- whether it is lost
    obtain ⟨-, -, x, y, flags, -, -, hny, -, -, hstretch⟩ :=
      hq.stretch (by omega) (Nat.le_add_right una i) (by omega)
    rw [Nat.add_sub_cancel_left] at hstretch
    have hpos := hstretch.pos
    rw [hstretch.flagsAt_eq le_rfl (by omega)] at hunsacked
    have hge : seqGE (wrap (una + i)) s.sndUna := by
      rw [h.sndUna_eq, seqGE_wrap ⟨by omega, by omega⟩]
      exact Nat.le_add_right una i
    rw [← Nat.add_sub_cancel_left (n := una) (m := i)] at hstretch
    have hisLost := isLost_eq
      (s := { s with highRxt := s.rexmitQueue.getHighestRexmittedSeqNum }) hq (by omega)
      h.sackEnabled (Nat.le_add_right una i) (by omega) hge hstretch hunsacked
    rw [Nat.add_sub_cancel_left, ← wrap_add_wrap, ← h.sndUna_eq] at hisLost
    show ∃ r : Option ℕ, Except.bind (ofRuntime (isLost _ _)) _ = _ ∧ _
    by_cases hlost : s.rexmitQueue.scoreboard.IsLost s.sndMss i
    · refine ⟨some i, ?_, .inl (Scoreboard.isLeast_lost hfinds hlost)⟩
      rw [hisLost.trans (congrArg Except.ok (decide_eq_true hlost))]
      rfl
    · obtain ⟨r, heq, hnext⟩ :=
        h.nextNewOrUnsacked_spec hrounds (Scoreboard.lost_eq_empty hfinds hlost)
      refine ⟨r, ?_, hnext⟩
      rw [hisLost.trans (congrArg Except.ok (decide_eq_false hlost))]
      show Except.bind (nextNewOrUnsacked _ rounds) _ = _
      rw [heq]
      rfl

/-- The window as the code reads it, when the difference does not wrap around. -/
theorem readsWindow_iff (hle : s.pipe ≤ s.sndWnd) :
    s.ReadsWindow ↔ s.HasNewData ∧ s.pipe.toNat + s.sndMss.toNat ≤ s.sndWnd.toNat := by
  have hle' := UInt32.le_iff_toNat_le.1 hle
  have hwin : s.effectiveWin.toNat = s.sndWnd.toNat - s.pipe.toNat := by
    rw [effectiveWin, UInt64.toNat_sub_of_le]
    · rfl
    · exact UInt64.le_iff_toNat_le.2 hle'
  have hmss : s.sndMss.toUInt64.toNat = s.sndMss.toNat := rfl
  rw [ReadsWindow, UInt64.le_iff_toNat_le, hwin, hmss, Nat.le_sub_iff_add_le' hle']

/-! ### What is sent -/

/-- The chosen octet is buffered, and all before it are known to the scoreboard. -/
theorem Recovering.of_nextSeg (h : s.Recovering una n max last stop) {P : Prop}
    (hP : P → s.HasNewData) (hnext : s.rexmitQueue.scoreboard.NextSeg s.sndMss s.sent P (some i)) :
    una + i ≤ last ∧ una + i < stop ∧ una + i ≤ max := by
  have hsent := h.sent_eq
  have hlast := h.last_le h.sackEnabled
  have hhigh := h.highSacked_le
  have hunsacked (hi : i ∈ s.rexmitQueue.scoreboard.unsacked s.sent) :
      una + i ≤ last ∧ una + i < stop ∧ una + i ≤ max := by
    obtain ⟨-, hbelow, hlt, -⟩ := hi
    omega
  rcases hnext with hleast | ⟨-, ⟨hnew, rfl⟩ | ⟨-, hleast⟩⟩
  · exact hunsacked hleast.1.1
  · have hbuffered := UInt32.lt_iff_toNat_lt.1 (hP hnew)
    have hle := h.una_le_max
    rw [h.sendQueue_eq, h.sndMax_eq, TCPVirtualDataSendQueue.getBytesAvailable_wrap hle h.max_le
      h.stop_lt] at hbuffered
    have hzero : (0 : UInt32).toNat = 0 := rfl
    have hmax := h.max_le_last h.sackEnabled
    omega
  · exact hunsacked hleast.1

theorem Recovering.placed_sendsFrom (h : s.Recovering una n max last stop) (hlast : una + i ≤ last)
    (hstop : una + i < stop) : (s.sendsFrom i).Placed una una (una + i) max last stop := by
  have hqlast := h.last_le h.sackEnabled
  exact { h.toPlaced with
    sndNxt_eq := by
      show s.sndUna + wrap i = _
      rw [h.sndUna_eq, wrap_add_wrap]
    una_le := Nat.le_add_right una i
    n_le := by omega
    n_le_last := fun _ ↦ .inl hlast }

theorem octet_eq (huna : s.sndUna = wrap una) (hi : i < 2 ^ 32) : s.octet (wrap (una + i)) = i := by
  rw [octet, huna, toNat_wrap_sub_wrap (Nat.le_add_right una i) (by omega), Nat.add_sub_cancel_left]

/-- **A segment that is sent starts behind the octets that are passed over.** -/
theorem Recovering.sendSegment_inv (h : s.Recovering una n max last stop) (hlast : una + i ≤ last)
    (hstop : una + i < stop) {tcpseg : TCPSegment Unit}
    (hsend : (s.sendsFrom i).sendSegment s.sndMss time = .ok (s', tcpseg)) :
    ∃ header last', (s.sendsFrom i).CanSend time header ∧
      s.octet tcpseg.sequenceNo = i + (s.sendsFrom i).passed ∧
      tcpseg.payloadLength = (s.sendsFrom i).segmentSize s.sndMss header ∧
      s'.sentBytes = wrap tcpseg.payloadLength ∧
      una + i + (s.sendsFrom i).passed + tcpseg.payloadLength ≤ last' ∧
      ∃ n', s'.Recovering una n' max last' stop := by
  have hplaced := h.placed_sendsFrom hlast hstop
  obtain ⟨header, hcan⟩ := hplaced.canSend hsend
    (pos_of_sendSegment (s := s.sendsFrom i) h.sackEnabled hsend)
  have hmss : 0 < s.sndMss := UInt32.lt_of_le_of_lt UInt32.zero_le hcan.fits
  obtain ⟨s'', tcpseg', last', hsend', hplaced', hsent, hseq, hlength, hsack, hloss, hlast'⟩ :=
    hplaced.sendSegment_ok hcan hmss
  rw [hsend] at hsend'
  cases hsend'
  have hspan := h.stop_lt
  have hleft := hcan.passed_lt
  rw [hplaced.buffered_eq] at hleft
  refine ⟨header, last', hcan, ?_, hlength, by rw [hsent, hlength], ?_, _, hplaced',
    hsack.trans h.sackEnabled, hloss.trans h.lossRecovery⟩
  · rw [hseq, Nat.add_assoc, octet_eq h.sndUna_eq (by omega)]
  · rw [hlength]
    exact hlast' h.sackEnabled

/-- **A turn does what it should exactly in the states in which that is safe.** -/
theorem Recovering.respects_iff_safe (h : s.Recovering una n max last stop)
    (hrounds : stop - una ≤ rounds) : s.RespectsWindow time rounds ↔ s.Safe time := by
  obtain ⟨r, heq, hnext⟩ := h.nextSeg_spec hrounds
  have hspan := h.stop_lt
  have hoctet : (r.map fun i ↦ s.sndUna + wrap i).map s.octet = r := by
    cases r with
    | none => rfl
    | some i =>
      have hle := h.of_nextSeg And.left hnext
      show some (s.octet (s.sndUna + wrap i)) = some i
      have hadd : s.sndUna + wrap i = wrap (una + i) := by rw [h.sndUna_eq, wrap_add_wrap]
      rw [hadd, octet_eq h.sndUna_eq (by omega)]
  have hcongr : s.NextSeg r ↔ (s.NoneLost → (s.ReadsWindow ↔ s.AdmitsNewData)) :=
    Scoreboard.nextSeg_congr hnext
  constructor
  · rintro ⟨⟨s₁, seqNum, heq', hchoice⟩, hpipe, hfit⟩
    rw [heq] at heq'
    cases heq'
    rw [hoctet] at hchoice
    refine ⟨hpipe, fun hnone hnew ↦ ?_, fun i header hi hcan ↦ ?_⟩
    · have hiff := hcongr.1 hchoice hnone
      rw [readsWindow_iff (hpipe hnone), AdmitsNewData] at hiff
      simpa only [hnew, true_and] using hiff
    · obtain rfl := Scoreboard.nextSeg_unique hchoice hi
      obtain ⟨hlast, hstop, -⟩ := h.of_nextSeg And.left hi
      obtain ⟨s', tcpseg, last', hsend, -⟩ := (h.placed_sendsFrom hlast hstop).sendSegment_ok hcan
        (UInt32.lt_of_le_of_lt UInt32.zero_le hcan.fits)
      obtain ⟨header', -, hcan', hseq, hlength, -⟩ := h.sendSegment_inv hlast hstop hsend
      have hheader : header' = header := by
        obtain ⟨conn, hwrite⟩ := hcan.writes
        obtain ⟨conn', hwrite'⟩ := hcan'.writes
        rw [hwrite] at hwrite'
        cases hwrite'
        rfl
      rw [← hseq, ← hheader, ← hlength]
      exact hfit _ _ s' tcpseg heq hsend
  · rintro ⟨hpipe, hiff, hfit⟩
    have hchoice : s.NextSeg r := hcongr.2 fun hnone ↦ by
      rw [readsWindow_iff (hpipe hnone), AdmitsNewData]
      exact and_congr_right (hiff hnone)
    refine ⟨⟨_, _, heq, hoctet.symm ▸ hchoice⟩, hpipe, fun s₁ seqNum s' tcpseg heq' hsend ↦ ?_⟩
    rw [heq] at heq'
    cases r with
    | none => cases heq'
    | some i =>
      cases heq'
      obtain ⟨hlast, hstop, -⟩ := h.of_nextSeg And.left hchoice
      obtain ⟨header, -, hcan, hseq, hlength, -⟩ := h.sendSegment_inv hlast hstop hsend
      rw [hseq, hlength]
      exact hfit i header hchoice hcan

/-- `snd_max` moves behind octets that the scoreboard has. -/
theorem Recovering.withSndMax (h : s.Recovering una n max last stop) (hk : una + k ≤ last)
    (highRxt pipe : UInt32) :
    ∃ max', Recovering { s with
      highRxt, pipe
      sndMax := if seqGreater (wrap (una + k)) s.sndMax then wrap (una + k) else s.sndMax }
        una n max' last stop := by
  have hstop := h.last_le h.sackEnabled
  by_cases hgreater : seqGreater (wrap (una + k)) s.sndMax
  · refine ⟨una + k, { h with
      sndMax_eq := if_pos hgreater
      una_le_max := Nat.le_add_right una k
      max_le := by omega
      max_le_last := fun _ ↦ .inl hk }⟩
  · exact ⟨max, { h with sndMax_eq := (if_neg hgreater).trans h.sndMax_eq }⟩

theorem eq_ok_of_ofRuntime {α : Type} {x : Except RuntimeError α} {a : α}
    (h : ofRuntime x = .ok a) : x = .ok a := by
  cases x with
  | ok b => exact congrArg Except.ok (Except.ok.inj h)
  | error e => cases h

theorem sendSegmentDuringLossRecoveryPhase_inv {seqNum : UInt32} {tcpseg : TCPSegment Unit}
    (h : s.sendSegmentDuringLossRecoveryPhase seqNum time = .ok (s', tcpseg)) :
    ∃ s₁ highRxt, { s with sndNxt := seqNum }.sendSegment s.sndMss time = .ok (s₁, tcpseg) ∧
      s' = { s₁ with
        highRxt
        sndMax := if seqGreater (seqNum + s₁.sentBytes) s₁.sndMax then seqNum + s₁.sentBytes
          else s₁.sndMax } := by
  rw [sendSegmentDuringLossRecoveryPhase] at h
  by_cases hphase : s.sackEnabled = true ∧ s.lossRecovery = true
  · rw [if_neg (not_not.2 hphase)] at h
    obtain ⟨⟨s₁, tcpseg'⟩, hsend, h⟩ := exists_of_bind_eq_ok h
    change (if ¬ seqLE s₁.sndNxt (seqNum + s₁.sentBytes + 1) then _ else Except.ok _) = _ at h
    by_cases hnext : seqLE s₁.sndNxt (seqNum + s₁.sentBytes + 1)
    · rw [if_neg (not_not.2 hnext)] at h
      cases h
      exact ⟨s₁, _, hsend, rfl⟩
    · rw [if_pos hnext] at h
      cases h
  · rw [if_pos hphase] at h
    cases h

/-- A turn leads to a sender that recovers from losses. -/
theorem Recovering.turn (h : s.Recovering una n max last stop) (hrounds : stop - una ≤ rounds)
    (hturn : s.recoveryTurn time rounds = .ok (some s')) :
    ∃ n' max' last', s'.Recovering una n' max' last' stop := by
  obtain ⟨r, heq, hnext⟩ := h.nextSeg_spec hrounds
  obtain ⟨⟨s₁, seqNum⟩, heq', hturn⟩ := exists_of_bind_eq_ok hturn
  rw [heq] at heq'
  cases heq'
  cases r with
  | none => cases hturn
  | some i =>
    obtain ⟨hlast, hstop, -⟩ := h.of_nextSeg And.left hnext
    obtain ⟨⟨s₂, tcpseg⟩, hphase, hs'⟩ := exists_of_bind_eq_ok hturn
    cases hs'
    obtain ⟨s₁, highRxt, hsend, rfl⟩ :=
      sendSegmentDuringLossRecoveryPhase_inv (eq_ok_of_ofRuntime hphase)
    obtain ⟨-, last', -, -, -, hsent, hle, n', h'⟩ := h.sendSegment_inv hlast hstop hsend
    have hadd : s.sndUna + wrap i + s₁.sentBytes = wrap (una + (i + tcpseg.payloadLength)) := by
      rw [h.sndUna_eq, hsent, wrap_add_wrap, wrap_add_wrap, Nat.add_assoc]
    rw [hadd]
    obtain ⟨max', h''⟩ := h'.withSndMax (k := i + tcpseg.payloadLength) (by omega) highRxt
      (s₁.pipe + s₁.sentBytes)
    exact ⟨n', max', last', h''⟩

end TCPSender

/-- A turn of the loop of `sendDataDuringLossRecoveryPhase`. -/
def RecoveryTurn (congestionWindow time : UInt32) (rounds : ℕ) (s s' : TCPSender) : Prop :=
  s.HasWindowFor congestionWindow ∧ s.recoveryTurn time rounds = .ok (some s')

namespace TCPSender

variable {s s' : TCPSender} {una n max last stop rounds turns : ℕ} {congestionWindow time : UInt32}

/-- What the loop ends with is what a last turn leaves, up to `highRxt`. -/
theorem reaches_of_recoveryLoop (h : recoveryLoop congestionWindow time rounds turns s = .ok s') :
    ∃ s₁, Relation.ReflTransGen (RecoveryTurn congestionWindow time rounds) s s₁ ∧
      s' = { s₁ with highRxt := s'.highRxt } := by
  induction turns generalizing s with
  | zero =>
    rw [recoveryLoop] at h
    split_ifs at h
    cases h
    exact ⟨s', .refl, rfl⟩
  | succ turns ih =>
    rw [recoveryLoop] at h
    split_ifs at h with hwindow
    · obtain ⟨r, hturn, h⟩ := exists_of_bind_eq_ok h
      cases r with
      | none =>
        cases h
        exact ⟨s, .refl, rfl⟩
      | some s₂ =>
        obtain ⟨s₁, hreach, heq⟩ := ih h
        exact ⟨s₁, .head ⟨hwindow, hturn⟩ hreach, heq⟩
    · cases h
      exact ⟨s', .refl, rfl⟩

/-- **Loss recovery respects the window exactly in the runs in which every turn is safe**: every
turn of the loop, in every state it reaches, chooses by the rules and sends octets that lie within
the window and are not sacked, and no difference wraps around, if and only if all these states are
safe. -/
theorem respectsWindow_iff (h : s.Recovering una n max last stop) (hrounds : stop - una ≤ rounds)
    (congestionWindow time : UInt32) :
    (∀ s', Relation.ReflTransGen (RecoveryTurn congestionWindow time rounds) s s' →
      s'.HasWindowFor congestionWindow → s'.RespectsWindow time rounds) ↔
    ∀ s', Relation.ReflTransGen (RecoveryTurn congestionWindow time rounds) s s' →
      s'.HasWindowFor congestionWindow → s'.Safe time := by
  have hrecovering {s' : TCPSender}
      (hreach : Relation.ReflTransGen (RecoveryTurn congestionWindow time rounds) s s') :
      ∃ n' max' last', s'.Recovering una n' max' last' stop := by
    induction hreach with
    | refl => exact ⟨n, max, last, h⟩
    | tail _ hturn ih =>
      obtain ⟨n', max', last', h'⟩ := ih
      exact h'.turn hrounds hturn.2
  refine forall_congr' fun s' ↦ forall_congr' fun hreach ↦ imp_congr_right fun _ ↦ ?_
  obtain ⟨n', max', last', h'⟩ := hrecovering hreach
  exact h'.respects_iff_safe hrounds

/-- A sender that recovers, with nothing left to send. -/
def resent : TCPSender :=
  { fourteenSent secondResent with lossRecovery := true, pipe := 16 }

theorem recovering_resent : resent.Recovering 0 14 14 14 14 where
  sendQueue_eq := rfl
  sndUna_eq := rfl
  sndNxt_eq := rfl
  sndMax_eq := rfl
  first_le := le_rfl
  una_le := by decide
  una_le_max := by decide
  n_le := by decide
  max_le := by decide
  stop_lt := by decide
  sndFinSeq_eq hfin := absurd hfin (by decide)
  valid _ :=
    { begin_eq := rfl
      stop_eq := rfl
      tiles := .cons ⟨rfl, rfl, by decide, by decide⟩ (b := 4) (by decide)
        (.cons ⟨rfl, rfl, by decide, by decide⟩ (b := 8) (by decide)
          (.single ⟨rfl, rfl, by decide, by decide⟩ (by decide)))
      lt := by decide }
  last_le _ := le_rfl
  n_le_last _ := .inl le_rfl
  max_le_last _ := .inl le_rfl
  sackEnabled := rfl
  lossRecovery := rfl

theorem unsacked_resent : resent.rexmitQueue.scoreboard.unsacked resent.sent = ∅ := by
  have hnone : ∀ i < 14, ¬ (resent.rexmitQueue.scoreboard.highRxt ≤ i ∧
      i < resent.rexmitQueue.scoreboard.highSacked ∧ i < resent.sent ∧
      (resent.rexmitQueue.scoreboard.flagsAt i).sacked = false) := by
    decide +kernel
  exact Set.eq_empty_of_forall_notMem fun i hi ↦ hnone i hi.2.2.1 hi

theorem safe_resent : resent.Safe 0 where
  pipe_le _ := by decide
  pipe_iff _ hnew := absurd hnew (by decide +kernel)
  fit i header hi _ := by
    rcases hi with hleast | ⟨-, ⟨hadmits, -⟩ | ⟨-, hleast⟩⟩
    · exact absurd (unsacked_resent ▸ hleast.1.1) (Set.notMem_empty i)
    · exact absurd hadmits.1 (by decide +kernel)
    · exact absurd (unsacked_resent ▸ hleast.1) (Set.notMem_empty i)

/-- Nothing is sent. -/
theorem respectsWindow_iff_resent :
    resent.HasWindowFor 100 ∧
      ∀ s, Relation.ReflTransGen (RecoveryTurn 100 0 14) resent s → s.HasWindowFor 100 →
        s.RespectsWindow 0 14 :=
  ⟨by decide, (respectsWindow_iff recovering_resent le_rfl 100 0).2 fun s hreach _ ↦ by
    rcases Relation.ReflTransGen.cases_head hreach with rfl | ⟨s₁, ⟨-, hturn⟩, -⟩
    · exact safe_resent
    · have hnone : (resent.recoveryTurn 0 14).toOption = some none := by decide +kernel
      rw [hturn] at hnone
      cases hnone⟩

/-- The window has shrunk to 400 octets while 1072 are outstanding. -/
def shrunk : TCPSender where
  rcvNxt := 5000
  rcvWnd := 2000
  rcvAdv := 7000
  maxRcvBuffer := 2000
  receiveQueue := .init 5000
  sndUna := 1000
  sndNxt := 1536
  sndMax := 2072
  sndWnd := 400
  pipe := 1072
  lossRecovery := true
  rexmitQueue := ⟨[⟨1000, 1536, false, true⟩, ⟨1536, 2072, true, false⟩], 1000, 2072⟩
  sendQueue := ⟨1000, 4000⟩

theorem recovering_shrunk : shrunk.Recovering 1000 1536 2072 2072 4000 where
  sendQueue_eq := rfl
  sndUna_eq := rfl
  sndNxt_eq := rfl
  sndMax_eq := rfl
  first_le := le_rfl
  una_le := by decide
  una_le_max := by decide
  n_le := by decide
  max_le := by decide
  stop_lt := by decide
  sndFinSeq_eq hfin := absurd hfin (by decide)
  valid _ :=
    { begin_eq := rfl
      stop_eq := rfl
      tiles := .cons ⟨rfl, rfl, by decide, by decide⟩ (by decide)
        (.single ⟨rfl, rfl, by decide, by decide⟩ (by decide))
      lt := by decide }
  last_le _ := by decide
  n_le_last _ := .inl (by decide)
  max_le_last _ := .inl le_rfl
  sackEnabled := rfl
  lossRecovery := rfl

/-- **When the window has shrunk below `pipe`, new octets are sent behind it**: 400 less 1072 is a
large number. -/
theorem not_respectsWindow :
    ¬ ∀ (s : TCPSender) (una n max last stop rounds : ℕ) (congestionWindow time : UInt32),
      s.Recovering una n max last stop → stop - una ≤ rounds →
      ∀ s', Relation.ReflTransGen (RecoveryTurn congestionWindow time rounds) s s' →
        s'.HasWindowFor congestionWindow → s'.RespectsWindow time rounds := by
  intro h
  have hwindow : shrunk.HasWindowFor 5000 := by decide
  have hrespects :=
    h shrunk _ _ _ _ _ 3000 5000 0 recovering_shrunk (by decide) shrunk .refl hwindow
  have hnext : shrunk.nextSeg 3000 = .ok ({ shrunk with highRxt := 1536 }, some 2072) := by
    decide +kernel
  cases hsend : (shrunk.sendsFrom 1072).sendSegment 536 0 with
  | error e =>
    have hsends : ((shrunk.sendsFrom 1072).sendSegment 536 0).toOption.isSome = true := by
      decide +kernel
    rw [hsend] at hsends
    cases hsends
  | ok r =>
    have hsent : ((shrunk.sendsFrom 1072).sendSegment 536 0).toOption.map
        (fun r ↦ (shrunk.octet r.2.sequenceNo, r.2.payloadLength)) = some (1072, 536) := by
      decide +kernel
    rw [hsend] at hsent
    obtain ⟨hstart, hsize⟩ := Prod.mk.inj (Option.some.inj hsent)
    have hfit := hrespects.fit _ _ r.1 r.2 hnext hsend
    rw [hstart, hsize] at hfit
    exact absurd (hfit 1072 le_rfl (by decide)).1 (by decide)

end TCPSender

end Inet.Tcp
