import Inet.TransportLayer.TCPVirtualDataRcvQueue

/-!
# Queues that keep bytes

`TCPByteStreamSendQueue` keeps what the application has sent and the peer has not acknowledged, and
cuts segments from it. The regions of `TCPByteStreamRcvQueue` carry their bytes, and `merge` puts
the bytes of two regions together.

When the absorbed region reaches further than the segment, `merge` takes what is missing at the end
from the start of that region. This is the right part only when the region starts where the segment
ends; so a region fits a segment that does not end strictly inside it (`EndsOutside`).
-/

namespace Inet

/-- `packet RawPacket`, with the byte length of the packet class. -/
structure RawPacket where
  byteLength : ℕ
  byteArray : List UInt8
  deriving DecidableEq, Repr

namespace Tcp

open SerialNumber IntervalList

/-! ### Sending -/

/-- `TCPByteStreamSendQueue`; `begin` and `end` are read by `getBufferStartSeq` and
`getBufferEndSeq`. -/
structure TCPByteStreamSendQueue where
  dataBuffer : ByteArrayBuffer := {}
  bufferStartSeq : UInt32 := 0
  bufferEndSeq : UInt32 := 0
  deriving DecidableEq, Repr

namespace TCPByteStreamSendQueue

/-- `TCPByteStreamSendQueue::init`. -/
def init (startSeq : UInt32) : TCPByteStreamSendQueue where
  bufferStartSeq := startSeq
  bufferEndSeq := startSeq

/-- `TCPByteStreamSendQueue::enqueueAppData`. -/
def enqueueAppData (q : TCPByteStreamSendQueue) (msg : RawPacket) :
    Except RuntimeError TCPByteStreamSendQueue :=
  if msg.byteLength = msg.byteArray.length then
    .ok { q with
      dataBuffer := q.dataBuffer.push msg.byteArray
      bufferEndSeq := q.bufferEndSeq + UInt32.ofNat msg.byteLength }
  else .error .assertionFailed

/-- `TCPByteStreamSendQueue::createSegmentWithBytes`. The length of the buffer is an `unsigned int`
where the length of the segment is not. -/
def createSegmentWithBytes (q : TCPByteStreamSendQueue) (fromSeq : UInt32) (numBytes : ℕ) :
    Except RuntimeError (TCPSegment Unit) :=
  if seqLE q.bufferStartSeq fromSeq ∧ seqLE (fromSeq + UInt32.ofNat numBytes) q.bufferEndSeq then
    let fromOffs := (fromSeq - q.bufferStartSeq).toNat
    let bytes := q.dataBuffer.getBytesToBuffer (numBytes % 2 ^ 32) fromOffs
    if bytes.length = numBytes then
      .ok { sequenceNo := fromSeq, payloadLength := numBytes, byteArray := bytes }
    else .error .assertionFailed
  else .error .assertionFailed

/-- `TCPByteStreamSendQueue::discardUpTo`. -/
def discardUpTo (q : TCPByteStreamSendQueue) (seqNum : UInt32) :
    Except RuntimeError TCPByteStreamSendQueue := do
  if seqLE q.bufferStartSeq seqNum ∧ seqLE seqNum q.bufferEndSeq then
    let dataBuffer ← assertSome (q.dataBuffer.drop (seqNum - q.bufferStartSeq).toNat)
    return { q with dataBuffer, bufferStartSeq := seqNum }
  else throw .assertionFailed

end TCPByteStreamSendQueue

/-! ### Receiving -/

/-- `TCPByteStreamRcvQueue::Region`. -/
structure ByteStreamRegion where
  getBegin : UInt32
  getEnd : UInt32
  data : List UInt8
  deriving DecidableEq, Repr

namespace ByteStreamRegion

/-- `Region::merge`. The new buffer is filled from its start to its end when each region has as many
bytes as its interval. -/
def merge (self other : ByteStreamRegion) : Option ByteStreamRegion :=
  if seqLess self.getEnd other.getBegin ∨ seqLess other.getEnd self.getBegin then none
  else
    let nbegin := seqMin self.getBegin other.getBegin
    let nend := seqMax self.getEnd other.getEnd
    if nbegin ≠ self.getBegin ∨ nend ≠ self.getEnd then
      let left :=
        if nbegin ≠ self.getBegin then
          ByteArray.copyDataToBuffer other.data (self.getBegin - nbegin).toNat 0 else []
      let middle := ByteArray.copyDataToBuffer self.data (self.getEnd - self.getBegin).toNat 0
      let right :=
        if nend ≠ self.getEnd then
          ByteArray.copyDataToBuffer other.data (nend - self.getEnd).toNat 0 else []
      some { getBegin := nbegin, getEnd := nend, data := left ++ middle ++ right }
    else some self

/-- `Region::split`. -/
def split (self : ByteStreamRegion) (seq : UInt32) :
    Except RuntimeError (ByteStreamRegion × ByteStreamRegion) := do
  if seqGreater seq self.getBegin ∧ seqLess seq self.getEnd then
    let length := (seq - self.getBegin).toNat
    if length ≤ self.data.length then
      let data ← assertSome (ByteArray.truncateData self.data length 0)
      return (⟨self.getBegin, seq, self.data.take length⟩, { self with getBegin := seq, data })
    else throw .assertionFailed
  else throw .assertionFailed

/-- `Region::copyTo`: the bytes of the message. -/
def copyTo (self : ByteStreamRegion) : Except RuntimeError RawPacket :=
  if (self.getEnd - self.getBegin).toNat = self.data.length then
    .ok ⟨(self.getEnd - self.getBegin).toNat, self.data⟩
  else .error .assertionFailed

/-- `TCPByteStreamRcvQueue::createRegionFromSegment`. -/
def createRegionFromSegment {Packet : Type} (tcpseg : TCPSegment Packet) :
    Except RuntimeError ByteStreamRegion :=
  if tcpseg.payloadLength = tcpseg.byteArray.length then
    .ok ⟨tcpseg.sequenceNo, tcpseg.endNo, tcpseg.byteArray⟩
  else .error .assertionFailed

instance : Region ByteStreamRegion where
  getBegin := getBegin
  getEnd := getEnd
  merge := merge
  split := split
  createRegionFromSegment := createRegionFromSegment

end ByteStreamRegion

/-- `TCPByteStreamRcvQueue`. -/
abbrev TCPByteStreamRcvQueue := TCPVirtualDataRcvQueue ByteStreamRegion

/-- `TCPByteStreamRcvQueue::extractBytesUpTo`. -/
def TCPByteStreamRcvQueue.extractBytesUpTo (q : TCPByteStreamRcvQueue) (seq : UInt32) :
    Except RuntimeError (Option RawPacket × TCPByteStreamRcvQueue) := do
  match ← q.extractTo seq with
  | (some reg, q) => return (some (← reg.copyTo), q)
  | (none, q) => return (none, q)

/-! ### Parts of a byte sequence -/

/-- The bytes from the `a`-th on, before the `b`-th. -/
def slice (bytes : List UInt8) (a b : ℕ) : List UInt8 :=
  (bytes.drop a).take (b - a)

variable {bytes more : List UInt8} {a b c : ℕ}

theorem length_slice (h : b ≤ bytes.length) : (slice bytes a b).length = b - a := by
  rw [slice, List.length_take, List.length_drop]
  omega

theorem slice_append_slice (hab : a ≤ b) (hbc : b ≤ c) :
    slice bytes a b ++ slice bytes b c = slice bytes a c := by
  rw [slice, slice, slice, show c - a = (b - a) + (c - b) by omega, List.take_add, List.drop_drop,
    show a + (b - a) = b by omega]

theorem take_slice (hbc : b ≤ c) : (slice bytes a c).take (b - a) = slice bytes a b := by
  rw [slice, slice, List.take_take, min_eq_left (by omega)]

theorem drop_slice (hab : a ≤ b) : (slice bytes a c).drop (b - a) = slice bytes b c := by
  rw [slice, slice, List.drop_take, List.drop_drop, show a + (b - a) = b by omega,
    show c - a - (b - a) = c - b by omega]

theorem slice_append_left (h : b ≤ bytes.length) : slice (bytes ++ more) a b = slice bytes a b := by
  rcases le_total a bytes.length with ha | ha
  · rw [slice, slice, List.drop_append_of_le_length ha, List.take_append_of_le_length]
    rw [List.length_drop]
    omega
  · rw [slice, slice, show b - a = 0 by omega, List.take_zero, List.take_zero]

/-! ### Regions with the right bytes -/

/-- The first interval does not end strictly inside the second one. -/
def EndsOutside (p q : ℕ × ℕ) : Prop :=
  ¬ (q.1 < p.2 ∧ p.2 < q.2)

namespace ByteStreamRegion

/-- The region carries the bytes of a sequence whose first byte is at `start`. -/
structure At (bytes : List UInt8) (start : ℕ) (r : ByteStreamRegion) (p : ℕ × ℕ) : Prop where
  getBegin_eq : r.getBegin = wrap p.1
  getEnd_eq : r.getEnd = wrap p.2
  start_le : start ≤ p.1
  le_end : p.2 ≤ start + bytes.length
  data_eq : r.data = slice bytes (p.1 - start) (p.2 - start)

/-- Bytes that are added at the end change nothing. -/
theorem At.append {start : ℕ} {r : ByteStreamRegion} {p : ℕ × ℕ} (h : At bytes start r p)
    (more : List UInt8) : At (bytes ++ more) start r p where
  getBegin_eq := h.getBegin_eq
  getEnd_eq := h.getEnd_eq
  start_le := h.start_le
  le_end := by
    have := h.le_end
    rw [List.length_append]
    omega
  data_eq := by
    have := h.le_end
    rw [h.data_eq, slice_append_left (by omega)]

variable {start first n : ℕ} {r s : ByteStreamRegion} {p q : ℕ × ℕ}

theorem At.length_data (h : At bytes start r p) : r.data.length = p.2 - p.1 := by
  have := h.le_end
  have := h.start_le
  rw [h.data_eq, length_slice (by omega)]
  omega

/-- What `merge` puts in front. -/
theorem At.copy_left (hs : At bytes start s q) (hb : start ≤ p.1) (hnear : Near (min p.1 q.1) p.1)
    (hle : p.1 ≤ q.2) :
    (if wrap (min p.1 q.1) ≠ wrap p.1 then
      ByteArray.copyDataToBuffer s.data (wrap p.1 - wrap (min p.1 q.1)).toNat 0 else []) =
      slice bytes (min p.1 q.1 - start) (p.1 - start) := by
  have hsb := hs.start_le
  simp only [ne_eq, wrap_eq_wrap hnear, ByteArray.copyDataToBuffer_eq, List.drop_zero, hs.data_eq]
  rw [toNat_wrap_sub_wrap (min_le_left _ _) (by have := hnear.2; omega)]
  rcases le_or_gt p.1 q.1 with h | h
  · rw [min_eq_left h, if_neg (by simp), slice, Nat.sub_self, List.take_zero]
  · rw [min_eq_right h.le, if_pos h.ne, show p.1 - q.1 = (p.1 - start) - (q.1 - start) by omega,
      take_slice (by omega)]

/-- What `merge` puts behind, when the other region reaches further. -/
theorem At.copy_right (hs : At bytes start s q) (hb : start ≤ p.2) (hnear : Near (max p.2 q.2) p.2)
    (hle : q.1 ≤ p.2) (hfits : EndsOutside p q) :
    (if wrap (max p.2 q.2) ≠ wrap p.2 then
      ByteArray.copyDataToBuffer s.data (wrap (max p.2 q.2) - wrap p.2).toNat 0 else []) =
      slice bytes (p.2 - start) (max p.2 q.2 - start) := by
  have hsb := hs.start_le
  simp only [ne_eq, wrap_eq_wrap hnear, ByteArray.copyDataToBuffer_eq, List.drop_zero, hs.data_eq]
  rw [toNat_wrap_sub_wrap (le_max_left _ _) (by have := hnear.1; omega)]
  rcases le_or_gt q.2 p.2 with h | h
  · rw [max_eq_left h, if_neg (by simp), slice, Nat.sub_self, List.take_zero]
  · -- the other region starts where this one ends
    have htouch : q.1 = p.2 := by
      unfold EndsOutside at hfits
      omega
    rw [max_eq_right h.le, if_pos h.ne', htouch,
      show q.2 - p.2 = (q.2 - start) - (p.2 - start) by omega, take_slice le_rfl]

/-- **Merging keeps the bytes right** when the segment does not end inside the other region. -/
theorem At.merge (hr : At bytes start r p) (hs : At bytes start s q) (hp : Within first p)
    (hq : Within first q) (hle : q.1 ≤ p.2) (hle' : p.1 ≤ q.2) (hfits : EndsOutside p q) :
    ∃ t, r.merge s = some t ∧ At bytes start t (join p q) := by
  have hpn := hp.nonempty
  have hqn := hq.nonempty
  have hpb := hr.start_le
  have hqb := hs.start_le
  have hpe := hr.le_end
  have hqe := hs.le_end
  have hwin := hp.join hq
  have hnb : Near (min p.1 q.1) p.1 :=
    Within.near_of_le hwin.le (hwin.nonempty.trans hwin.lt) hp.le (hpn.trans hp.lt)
  have hne : Near (max p.2 q.2) p.2 :=
    Within.near_of_le (hwin.le.trans hwin.nonempty.le) hwin.lt (hp.le.trans hpn.le) hp.lt
  have htouch : ¬ (seqLess r.getEnd s.getBegin ∨ seqLess s.getEnd r.getBegin) := by
    rw [hr.getBegin_eq, hr.getEnd_eq, hs.getBegin_eq, hs.getEnd_eq,
      seqLess_wrap (hp.near_end_begin hq), seqLess_wrap (hq.near_end_begin hp)]
    omega
  have hleft := hs.copy_left hpb hnb hle'
  have hright := hs.copy_right (hpb.trans hpn.le) hne hle hfits
  have hmiddle : ByteArray.copyDataToBuffer r.data (wrap p.2 - wrap p.1).toNat 0 =
      slice bytes (p.1 - start) (p.2 - start) := by
    rw [ByteArray.copyDataToBuffer_eq, List.drop_zero, hr.data_eq,
      toNat_wrap_sub_wrap hpn.le (by have := hp.lt; have := hp.le; omega),
      show p.2 - p.1 = (p.2 - start) - (p.1 - start) by omega, take_slice le_rfl]
  have hall : slice bytes (min p.1 q.1 - start) (p.1 - start) ++
      slice bytes (p.1 - start) (p.2 - start) ++ slice bytes (p.2 - start) (max p.2 q.2 - start) =
      slice bytes (min p.1 q.1 - start) (max p.2 q.2 - start) := by
    rw [slice_append_slice (by omega) (by omega), slice_append_slice (by omega) (by omega)]
  rw [ByteStreamRegion.merge, if_neg htouch]
  simp only [hr.getBegin_eq, hr.getEnd_eq, hs.getBegin_eq, hs.getEnd_eq,
    seqMin_wrap (hp.near_begin_begin hq), seqMax_wrap (hp.near_end_end hq), hleft, hright, hmiddle,
    hall]
  split_ifs with hgrow
  · exact ⟨_, rfl, rfl, rfl, le_min hpb hqb, max_le hpe hqe, rfl⟩
  · -- the segment already contains the other region
    rw [not_or, not_not, not_not, wrap_eq_wrap hnb, wrap_eq_wrap hne] at hgrow
    have hjoin : join p q = p := Prod.ext hgrow.1 hgrow.2
    exact ⟨r, rfl, hjoin.symm ▸ hr⟩

/-- Both parts of a region that is split keep their bytes. -/
theorem At.split (hr : At bytes start r p) (hlt : p.1 < n) (hlt' : n < p.2)
    (hnear : p.2 < p.1 + 2 ^ 31) :
    ∃ t u, r.split (wrap n) = .ok (t, u) ∧ At bytes start t (p.1, n) ∧
      At bytes start u (n, p.2) := by
  have hb := hr.start_le
  have he := hr.le_end
  have hlen : (wrap n - wrap p.1).toNat = n - p.1 := toNat_wrap_sub_wrap hlt.le (by omega)
  have hle : n - p.1 ≤ r.data.length := by
    rw [hr.length_data]
    omega
  have htrunc : ByteArray.truncateData r.data (n - p.1) 0 = some (r.data.drop (n - p.1)) := by
    rw [ByteArray.truncateData, if_pos (by omega), List.take_of_length_le (by simp)]
  have hsplit : r.split (wrap n) = .ok (⟨wrap p.1, wrap n, r.data.take (n - p.1)⟩,
      ⟨wrap n, wrap p.2, r.data.drop (n - p.1)⟩) := by
    rw [ByteStreamRegion.split, hr.getBegin_eq, hr.getEnd_eq,
      if_pos ⟨(seqGreater_wrap ⟨by omega, by omega⟩).2 hlt,
        (seqLess_wrap ⟨by omega, by omega⟩).2 hlt'⟩]
    simp only [hlen, if_pos hle, htrunc]
    rfl
  refine ⟨_, _, hsplit, ⟨rfl, rfl, hb, by dsimp only; omega, ?_⟩,
    ⟨rfl, rfl, by dsimp only; omega, he, ?_⟩⟩
  · rw [hr.data_eq, show n - p.1 = (n - start) - (p.1 - start) by omega, take_slice (by omega)]
  · rw [hr.data_eq, show n - p.1 = (n - start) - (p.1 - start) by omega, drop_slice (by omega)]

instance : LawfulRegion (At bytes start) EndsOutside where
  getBegin_eq h := h.getBegin_eq
  getEnd_eq h := h.getEnd_eq
  merge_eq hr hs hp hq hle hle' hfits := hr.merge hs hp hq hle hle' hfits
  split_eq hr hlt hlt' hnear := hr.split hlt hlt' hnear
  fits_join {p q q'} _ hgap hne := by
    have : q'.2 < max p.2 q.2 := (hgap.trans hne).trans_le (le_max_right _ _)
    exact fun h ↦ lt_asymm this h.2

end ByteStreamRegion

end Tcp

end Inet
