import Mathlib.Data.List.DropRight
import Inet.Common.ByteArrayBuffer
import Inet.Foundations.Fallible
import Inet.Foundations.SerialNumber

/-!
# TCP segments

The comparison of sequence numbers, the packet class `TCPSegment` with its options, and the
truncation of a segment to the range a receiver wants. A segment carries its data as bytes, as
message objects, or only as a length, depending on the queues of the connection; all three are kept
here. A message object travels in the segment with its last byte, under the sequence number behind
that byte.

`UInt32` is the `uint32` of the source, so differences wrap around. `Packet` stands for the class of
the message objects.
-/

namespace Inet.Tcp

open SerialNumber

/-! ### Comparing sequence numbers -/

/-- `seqLess`. -/
def seqLess (a b : UInt32) : Prop :=
  a ≠ b ∧ (b - a).toNat < 2 ^ 31

/-- `seqLE`. -/
def seqLE (a b : UInt32) : Prop :=
  (b - a).toNat < 2 ^ 31

/-- `seqGreater`. -/
def seqGreater (a b : UInt32) : Prop :=
  a ≠ b ∧ (a - b).toNat < 2 ^ 31

/-- `seqGE`. -/
def seqGE (a b : UInt32) : Prop :=
  (a - b).toNat < 2 ^ 31

instance (a b : UInt32) : Decidable (seqLess a b) :=
  inferInstanceAs (Decidable (_ ∧ _))

instance (a b : UInt32) : Decidable (seqLE a b) :=
  inferInstanceAs (Decidable (_ < _))

instance (a b : UInt32) : Decidable (seqGreater a b) :=
  inferInstanceAs (Decidable (_ ∧ _))

instance (a b : UInt32) : Decidable (seqGE a b) :=
  inferInstanceAs (Decidable (_ < _))

/-- `seqMin`. -/
def seqMin (a b : UInt32) : UInt32 :=
  if (b - a).toNat < 2 ^ 31 then a else b

/-- `seqMax`. -/
def seqMax (a b : UInt32) : UInt32 :=
  if (a - b).toNat < 2 ^ 31 then a else b

/-- Two positions can be compared by their sequence numbers. -/
def Near (m n : ℕ) : Prop :=
  m < n + 2 ^ 31 ∧ n < m + 2 ^ 31

variable {m n : ℕ}

theorem Near.symm (h : Near m n) : Near n m :=
  ⟨h.2, h.1⟩

theorem seqLE_wrap (h : Near m n) : seqLE (wrap m) (wrap n) ↔ m ≤ n :=
  sub_lt_iff_le h.1 h.2

theorem seqGE_wrap (h : Near m n) : seqGE (wrap m) (wrap n) ↔ n ≤ m :=
  sub_lt_iff_le h.2 h.1

theorem wrap_eq_wrap (h : Near m n) : wrap m = wrap n ↔ m = n :=
  wrap_inj h.1 h.2

theorem seqLess_wrap (h : Near m n) : seqLess (wrap m) (wrap n) ↔ m < n := by
  rw [seqLess, ne_eq, wrap_eq_wrap h, sub_lt_iff_le h.1 h.2]
  omega

theorem seqGreater_wrap (h : Near m n) : seqGreater (wrap m) (wrap n) ↔ n < m := by
  rw [seqGreater, ne_eq, wrap_eq_wrap h, sub_lt_iff_le h.2 h.1]
  omega

theorem seqMin_wrap (h : Near m n) : seqMin (wrap m) (wrap n) = wrap (min m n) := by
  rw [seqMin, min_def, apply_ite wrap]
  simp only [sub_lt_iff_le h.1 h.2]

theorem seqMax_wrap (h : Near m n) : seqMax (wrap m) (wrap n) = wrap (max m n) := by
  rw [seqMax, max_comm, max_def, apply_ite wrap]
  simp only [sub_lt_iff_le h.2 h.1]

/-- What is not behind `k` and before `n` is before everything between them. -/
theorem seqLE_of_not_seqLess {k : ℕ} {seq : UInt32} (hnot : ¬ seqLess (wrap k) seq) (hkm : k ≤ m)
    (hmn : m ≤ n) (hnk : n < k + 2 ^ 31) (hle : seqLE seq (wrap n)) : seqLE seq (wrap m) := by
  by_cases heq : wrap k = seq
  · rw [← heq, seqLE_wrap ⟨by omega, by omega⟩]
    exact hkm
  · have hfar : ¬ (seq - wrap k).toNat < 2 ^ 31 := fun hlt ↦ hnot ⟨heq, hlt⟩
    have hseq := seq.toNat_lt
    rw [seqLE, UInt32.toNat_sub, toNat_wrap] at hle ⊢
    rw [UInt32.toNat_sub, toNat_wrap] at hfar
    omega

/-! ### Options -/

/-- `class SackItem` and `class Sack`. -/
structure Sack where
  start : UInt32 := 0
  stop : UInt32 := 0
  deriving DecidableEq, Repr

/-- `Sack::empty`. -/
def Sack.empty (s : Sack) : Prop :=
  s.start = 0 ∧ s.stop = 0

instance (s : Sack) : Decidable s.empty :=
  inferInstanceAs (Decidable (_ ∧ _))

/-- `Sack::contains`. -/
def Sack.contains (s other : Sack) : Prop :=
  seqLE s.start other.start ∧ seqLE other.stop s.stop

instance (s other : Sack) : Decidable (s.contains other) :=
  inferInstanceAs (Decidable (_ ∧ _))

/-- The subclasses of `TCPOption`, each with its own fields. -/
inductive TCPOptionFields
  | endOfOptionList
  | nop
  | maxSegmentSize (maxSegmentSize : UInt16)
  | windowScale (windowScale : UInt16)
  | sackPermitted
  | sack (sackItem : List Sack)
  | timestamp (senderTimestamp echoedTimestamp : UInt32)
  | unknown (bytes : List UInt8)
  deriving DecidableEq, Repr

/-- `class TCPOption`. -/
structure TCPOption where
  kind : UInt16
  length : UInt16
  fields : TCPOptionFields
  deriving DecidableEq, Repr

/-! ### Segments -/

/-- `struct TCPPayloadMessage`. -/
structure TCPPayloadMessage (Packet : Type) where
  endSequenceNo : UInt32
  msg : Packet
  deriving DecidableEq, Repr

/-- `packet TCPSegment`, with the byte length of the packet class. -/
structure TCPSegment (Packet : Type) where
  srcPort : UInt16 := 0
  destPort : UInt16 := 0
  sequenceNo : UInt32 := 0
  ackNo : UInt32 := 0
  headerLength : UInt16 := 20
  urgBit : Bool := false
  ackBit : Bool := false
  pshBit : Bool := false
  rstBit : Bool := false
  synBit : Bool := false
  finBit : Bool := false
  window : UInt16 := 0
  urgentPointer : UInt16 := 0
  headerOption : List TCPOption := []
  payloadLength : ℕ := 0
  payloadList : List (TCPPayloadMessage Packet) := []
  byteArray : List UInt8 := []
  byteLength : ℕ := 0
  bitError : Bool := false
  deriving DecidableEq, Repr

/-- What stops a simulation. -/
inductive RuntimeError
  | assertionFailed
  | sendQueueIsFull
  | outOfAcceptableRange (first last : UInt32)
  | mergeUnsuccessful (first last first' last' : UInt32)
  | truncateOutside (firstSeqNo endSeqNo first last : UInt32)
  deriving DecidableEq, Repr

/-- An assertion inside a called function. -/
def assertSome {α : Type} : Option α → Except RuntimeError α
  | some a => .ok a
  | none => .error .assertionFailed

variable {Packet : Type}

namespace TCPSegment

/-- `sequenceNo + payloadLength`. -/
def endNo (tcpseg : TCPSegment Packet) : UInt32 :=
  tcpseg.sequenceNo + UInt32.ofNat tcpseg.payloadLength

/-- `TCPSegment::addPayloadMessage`. -/
def addPayloadMessage (tcpseg : TCPSegment Packet) (msg : Packet) (endSequenceNo : UInt32) :
    TCPSegment Packet :=
  { tcpseg with payloadList := tcpseg.payloadList ++ [⟨endSequenceNo, msg⟩] }

/-- The loop that drops message objects from the back. -/
def dropBack (payloadList : List (TCPPayloadMessage Packet)) (sequenceNo : UInt32)
    (payloadLength : ℕ) : List (TCPPayloadMessage Packet) :=
  payloadList.rdropWhile fun p ↦ payloadLength < (p.endSequenceNo - sequenceNo).toNat

/-- `TCPSegment::truncateData`. -/
def truncateData (tcpseg : TCPSegment Packet) (truncleft truncright : ℕ) :
    Except RuntimeError (TCPSegment Packet) := do
  if tcpseg.payloadLength < truncleft + truncright then throw .assertionFailed
  let byteArray ←
    if tcpseg.byteArray.length ≠ 0 then
      assertSome (ByteArray.truncateData tcpseg.byteArray truncleft truncright)
    else .ok tcpseg.byteArray
  let payloadList := tcpseg.payloadList.dropWhile fun p ↦
    (p.endSequenceNo - tcpseg.sequenceNo).toNat ≤ truncleft
  let sequenceNo := tcpseg.sequenceNo + UInt32.ofNat truncleft
  let payloadLength := tcpseg.payloadLength - (truncleft + truncright)
  return { tcpseg with
    byteArray, sequenceNo, payloadLength
    payloadList := dropBack payloadList sequenceNo payloadLength }

/-- `TCPSegment::truncateSegment`. -/
def truncateSegment (tcpseg : TCPSegment Packet) (firstSeqNo endSeqNo : UInt32) :
    Except RuntimeError (TCPSegment Packet) := do
  if tcpseg.payloadLength = 0 then throw .assertionFailed
  if ¬ (seqLess tcpseg.sequenceNo endSeqNo ∧ seqLess firstSeqNo tcpseg.endNo) then
    throw (.truncateOutside firstSeqNo endSeqNo tcpseg.sequenceNo tcpseg.endNo)
  let truncleft :=
    if seqLess tcpseg.sequenceNo firstSeqNo then (firstSeqNo - tcpseg.sequenceNo).toNat else 0
  let truncright :=
    if seqGreater tcpseg.endNo endSeqNo then (tcpseg.endNo - endSeqNo).toNat else 0
  tcpseg.truncateData truncleft truncright

/-- What a truncation leaves. -/
theorem truncateData_ok {tcpseg tcpseg' : TCPSegment Packet} {truncleft truncright : ℕ}
    (h : tcpseg.truncateData truncleft truncright = .ok tcpseg') :
    truncleft + truncright ≤ tcpseg.payloadLength ∧
      tcpseg'.sequenceNo = tcpseg.sequenceNo + UInt32.ofNat truncleft ∧
      tcpseg'.payloadLength = tcpseg.payloadLength - (truncleft + truncright) ∧
      tcpseg'.payloadList = dropBack (tcpseg.payloadList.dropWhile fun p ↦
        (p.endSequenceNo - tcpseg.sequenceNo).toNat ≤ truncleft) tcpseg'.sequenceNo
          tcpseg'.payloadLength ∧
      (tcpseg.byteArray = [] ∧ tcpseg'.byteArray = [] ∨
        ByteArray.truncateData tcpseg.byteArray truncleft truncright = some tcpseg'.byteArray) := by
  unfold truncateData at h
  by_cases hlt : tcpseg.payloadLength < truncleft + truncright
  · rw [if_pos hlt] at h
    cases h
  · rw [if_neg hlt] at h
    refine ⟨not_lt.1 hlt, ?_⟩
    by_cases hempty : tcpseg.byteArray = []
    · simp only [hempty, List.length_nil, ne_eq, not_true_eq_false, if_false] at h
      cases h
      exact ⟨rfl, rfl, rfl, .inl ⟨hempty, rfl⟩⟩
    · have hlen : tcpseg.byteArray.length ≠ 0 := by simpa using hempty
      rw [if_pos hlen] at h
      cases htrunc : ByteArray.truncateData tcpseg.byteArray truncleft truncright with
      | none =>
        rw [htrunc] at h
        cases h
      | some byteArray =>
        rw [htrunc] at h
        cases h
        exact ⟨rfl, rfl, rfl, .inr rfl⟩
/-- When a segment is truncated at all, and by how much. -/
theorem truncateSegment_ok {tcpseg tcpseg' : TCPSegment Packet} {firstSeqNo endSeqNo : UInt32}
    (h : tcpseg.truncateSegment firstSeqNo endSeqNo = .ok tcpseg') :
    0 < tcpseg.payloadLength ∧ seqLess tcpseg.sequenceNo endSeqNo ∧
      seqLess firstSeqNo tcpseg.endNo ∧
      tcpseg.truncateData
        (if seqLess tcpseg.sequenceNo firstSeqNo then (firstSeqNo - tcpseg.sequenceNo).toNat else 0)
        (if seqGreater tcpseg.endNo endSeqNo then (tcpseg.endNo - endSeqNo).toNat else 0) =
          .ok tcpseg' := by
  unfold truncateSegment at h
  by_cases hzero : tcpseg.payloadLength = 0
  · rw [if_pos hzero] at h
    cases h
  · rw [if_neg hzero] at h
    by_cases hcommon : seqLess tcpseg.sequenceNo endSeqNo ∧ seqLess firstSeqNo tcpseg.endNo
    · rw [if_neg (not_not.2 hcommon)] at h
      exact ⟨Nat.pos_of_ne_zero hzero, hcommon.1, hcommon.2, h⟩
    · rw [if_pos hcommon] at h
      cases h

end TCPSegment

end Inet.Tcp
