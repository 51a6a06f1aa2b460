import Inet.Foundations.TransitionSystem
import Inet.TransportLayer.ReceiveStream
import Inet.TransportLayer.TCPByteStreamQueues

/-!
# The byte stream of a connection

The sending and the receiving byte queue of a connection, with every segment that has ever been cut
or truncated between them: any of these may arrive, at any time and any number of times. What is
cut anew for a retransmission need not have the boundaries of what was sent before.

The bytes that are handed out are the first ones that were sent, as long as no segment arrives that
ends strictly inside a region of the receive queue (`byteStream_intact`). A segment that does is put
together wrongly with the rest of that region (`byteStream_corrupted`).
-/

namespace Inet.Tcp

open SerialNumber IntervalList

/-- The queues of a connection, what was sent, what is on its way, and what was handed out. -/
structure ByteStreamState where
  sendQueue : TCPByteStreamSendQueue
  receiveQueue : TCPByteStreamRcvQueue
  sent : List UInt8 := []
  segments : List (TCPSegment Unit) := []
  delivered : List UInt8 := []
  deriving DecidableEq, Repr

/-- What can happen. -/
inductive ByteStreamEvent
  | enqueueAppData (msg : RawPacket)
  | createSegmentWithBytes (fromSeq : UInt32) (numBytes : ℕ)
  | discardUpTo (seqNum : UInt32)
  | truncateSegment (tcpseg : TCPSegment Unit) (firstSeqNo endSeqNo : UInt32)
  | insertBytesFromSegment (tcpseg : TCPSegment Unit)
  | extractBytesUpToRcvNxt
  deriving DecidableEq, Repr

namespace ByteStreamState

/-- Both sides start with the same sequence number. -/
def init (startSeq : UInt32) : ByteStreamState where
  sendQueue := .init startSeq
  receiveQueue := .init startSeq

/-- The bytes of a message, if there is one. -/
def bytesOf (msg : Option RawPacket) : List UInt8 :=
  (msg.map RawPacket.byteArray).getD []

/-- What an event does. -/
def step (s : ByteStreamState) : ByteStreamEvent → Except RuntimeError ByteStreamState
  | .enqueueAppData msg => do
    let sendQueue ← s.sendQueue.enqueueAppData msg
    return { s with sendQueue, sent := s.sent ++ msg.byteArray }
  | .createSegmentWithBytes fromSeq numBytes => do
    let tcpseg ← s.sendQueue.createSegmentWithBytes fromSeq numBytes
    return { s with segments := s.segments ++ [tcpseg] }
  | .discardUpTo seqNum => do
    let sendQueue ← s.sendQueue.discardUpTo seqNum
    return { s with sendQueue }
  | .truncateSegment tcpseg firstSeqNo endSeqNo => do
    let tcpseg ← tcpseg.truncateSegment firstSeqNo endSeqNo
    return { s with segments := s.segments ++ [tcpseg] }
  | .insertBytesFromSegment tcpseg => do
    let receiveQueue ← s.receiveQueue.insertBytesFromSegment tcpseg
    return { s with receiveQueue }
  | .extractBytesUpToRcvNxt => do
    let (msg, receiveQueue) ← s.receiveQueue.extractBytesUpTo s.receiveQueue.rcvNxt
    return { s with receiveQueue, delivered := s.delivered ++ bytesOf msg }

/-- Less than half the number space is sent in all; what arrives has been sent, brings data, and
starts at or after the first byte the queue may hold. -/
def Allowed (s : ByteStreamState) : ByteStreamEvent → Prop
  | .enqueueAppData msg => s.sent.length + msg.byteArray.length < 2 ^ 31
  | .truncateSegment tcpseg _ _ => tcpseg ∈ s.segments
  | .insertBytesFromSegment tcpseg => tcpseg ∈ s.segments ∧ 0 < tcpseg.payloadLength ∧
      seqGE tcpseg.sequenceNo s.receiveQueue.getFirstSeqNo
  | _ => True

instance (s : ByteStreamState) : (e : ByteStreamEvent) → Decidable (s.Allowed e)
  | .enqueueAppData _ => inferInstanceAs (Decidable (_ < _))
  | .truncateSegment _ _ _ => inferInstanceAs (Decidable (_ ∈ _))
  | .insertBytesFromSegment _ => inferInstanceAs (Decidable (_ ∧ _))
  | .createSegmentWithBytes _ _ | .discardUpTo _ | .extractBytesUpToRcvNxt =>
    inferInstanceAs (Decidable True)

/-- A segment that arrives does not end strictly inside a region of the receive queue. -/
def EndsOutsideRegions (s : ByteStreamState) : ByteStreamEvent → Prop
  | .insertBytesFromSegment tcpseg => ∀ r ∈ s.receiveQueue.regionList,
      ¬ (seqLess r.getBegin tcpseg.endNo ∧ seqLess tcpseg.endNo r.getEnd)
  | _ => True

instance (s : ByteStreamState) : (e : ByteStreamEvent) → Decidable (s.EndsOutsideRegions e)
  | .insertBytesFromSegment _ => inferInstanceAs (Decidable (∀ _ ∈ _, _))
  | .enqueueAppData _ | .createSegmentWithBytes _ _ | .discardUpTo _ | .truncateSegment _ _ _
  | .extractBytesUpToRcvNxt => inferInstanceAs (Decidable True)

end ByteStreamState

/-- The connection as a transition system. -/
def byteStream (startSeq : UInt32) : TransitionSystem ByteStreamState ByteStreamEvent Unit where
  Init s := s = .init startSeq
  Step s e _ s' := s.Allowed e ∧ s.step e = .ok s'

/-! ### What is sent, what is on its way, what has arrived -/

/-- A segment carries the bytes its sequence number says. -/
def Carries (bytes : List UInt8) (start : ℕ) (tcpseg : TCPSegment Unit) : Prop :=
  ∃ offset, tcpseg.sequenceNo = wrap (start + offset) ∧
    tcpseg.payloadLength = tcpseg.byteArray.length ∧
    tcpseg.byteArray = slice bytes offset (offset + tcpseg.payloadLength)

/-- The send queue holds what has been sent and not been acknowledged. -/
structure SendQueueHolds (bytes : List UInt8) (start : ℕ) (q : TCPByteStreamSendQueue)
    (acked : ℕ) : Prop where
  bufferStartSeq_eq : q.bufferStartSeq = wrap (start + acked)
  bufferEndSeq_eq : q.bufferEndSeq = wrap (start + bytes.length)
  holds : q.dataBuffer.Holds (bytes.drop acked)
  acked_le : acked ≤ bytes.length

/-- The receive queue holds bytes that were sent, and what was handed out are the first of them. -/
structure ReceiveQueueHolds (bytes : List UInt8) (start : ℕ) (q : TCPByteStreamRcvQueue)
    (delivered : List UInt8) (σ : Stream) (ps : List (ℕ × ℕ)) (next : ℕ) : Prop where
  refines : Refines (ByteStreamRegion.At bytes start) σ q ps next
  start_le : start ≤ σ.first
  first_le : σ.first ≤ start + bytes.length
  delivered_eq : delivered = bytes.take (σ.first - start)

/-- Nothing has been corrupted. -/
structure ByteStreamState.Intact (startSeq : UInt32) (s : ByteStreamState) : Prop where
  short : s.sent.length < 2 ^ 31
  sendQueue : ∃ acked, SendQueueHolds s.sent startSeq.toNat s.sendQueue acked
  segments : ∀ tcpseg ∈ s.segments, Carries s.sent startSeq.toNat tcpseg
  receiveQueue : ∃ σ ps next,
    ReceiveQueueHolds s.sent startSeq.toNat s.receiveQueue s.delivered σ ps next

variable {bytes more delivered : List UInt8} {start acked next : ℕ} {tcpseg tcpseg' : TCPSegment Unit}
  {q : TCPByteStreamSendQueue} {r : TCPByteStreamRcvQueue} {σ : Stream} {ps : List (ℕ × ℕ)}

/-- A segment with data lies inside what has been sent. -/
theorem Carries.le_length {offset : ℕ} (hlen : tcpseg.payloadLength = tcpseg.byteArray.length)
    (hslice : tcpseg.byteArray = slice bytes offset (offset + tcpseg.payloadLength))
    (hpos : 0 < tcpseg.payloadLength) : offset + tcpseg.payloadLength ≤ bytes.length := by
  rw [hslice, slice, List.length_take, List.length_drop] at hlen
  omega

theorem Carries.append (h : Carries bytes start tcpseg) (more : List UInt8) :
    Carries (bytes ++ more) start tcpseg := by
  obtain ⟨offset, hseq, hlen, hslice⟩ := h
  refine ⟨offset, hseq, hlen, ?_⟩
  rcases Nat.eq_zero_or_pos tcpseg.payloadLength with hzero | hpos
  · rw [hzero] at hlen ⊢
    rw [List.eq_nil_of_length_eq_zero hlen.symm, slice, Nat.add_sub_cancel_left, List.take_zero]
  · rw [slice_append_left (Carries.le_length hlen hslice hpos)]
    exact hslice

/-- **A truncated segment carries the bytes its new sequence number says.** -/
theorem Carries.truncate (h : Carries bytes start tcpseg) {firstSeqNo endSeqNo : UInt32}
    (htrunc : tcpseg.truncateSegment firstSeqNo endSeqNo = .ok tcpseg') :
    Carries bytes start tcpseg' := by
  obtain ⟨offset, hseq, hlen, hslice⟩ := h
  obtain ⟨hpos, -, -, hdata⟩ := TCPSegment.truncateSegment_ok htrunc
  generalize (if seqLess tcpseg.sequenceNo firstSeqNo then
    (firstSeqNo - tcpseg.sequenceNo).toNat else 0) = left at hdata
  generalize (if seqGreater tcpseg.endNo endSeqNo then
    (tcpseg.endNo - endSeqNo).toNat else 0) = right at hdata
  obtain ⟨hle, hseq', hlen', -, hempty | hbytes⟩ := TCPSegment.truncateData_ok hdata
  · rw [hempty.1, List.length_nil] at hlen
    omega
  · rw [ByteArray.truncateData, if_pos (by omega)] at hbytes
    have hbytes' := (Option.some.inj hbytes).symm
    refine ⟨offset + left, ?_, ?_, ?_⟩
    · rw [hseq', hseq, ← Nat.add_assoc]
      exact wrap_add_wrap _ _
    · rw [hlen', hbytes', List.length_take, List.length_drop]
      omega
    · have hdrop : (slice bytes offset (offset + tcpseg.payloadLength)).drop left =
          slice bytes (offset + left) (offset + tcpseg.payloadLength) := by
        rw [← drop_slice (Nat.le_add_right offset left), Nat.add_sub_cancel_left]
      have hcut : tcpseg.byteArray.length - (left + right) =
          offset + left + tcpseg'.payloadLength - (offset + left) := by omega
      rw [hbytes', hcut, hslice, hdrop]
      exact take_slice (by omega)

/-! ### The send queue -/

theorem SendQueueHolds.init (start : UInt32) :
    SendQueueHolds [] start.toNat (.init start) 0 where
  bufferStartSeq_eq := (wrap_toNat start).symm
  bufferEndSeq_eq := (wrap_toNat start).symm
  holds := .empty
  acked_le := le_rfl

theorem SendQueueHolds.enqueue (h : SendQueueHolds bytes start q acked) {msg : RawPacket}
    {q' : TCPByteStreamSendQueue} (henqueue : q.enqueueAppData msg = .ok q') :
    SendQueueHolds (bytes ++ msg.byteArray) start q' acked := by
  unfold TCPByteStreamSendQueue.enqueueAppData at henqueue
  split at henqueue
  · rename_i hlen
    cases henqueue
    exact {
      bufferStartSeq_eq := h.bufferStartSeq_eq
      bufferEndSeq_eq := by
        rw [List.length_append, ← Nat.add_assoc, ← wrap_add_wrap, ← h.bufferEndSeq_eq, ← hlen]
        rfl
      holds := by
        rw [List.drop_append_of_le_length h.acked_le]
        exact h.holds.push msg.byteArray
      acked_le := by
        rw [List.length_append]
        exact h.acked_le.trans (Nat.le_add_right _ _) }
  · cases henqueue

/-- **Every segment that is cut carries the bytes its sequence number says.** -/
theorem SendQueueHolds.createSegment (h : SendQueueHolds bytes start q acked) {fromSeq : UInt32}
    {numBytes : ℕ} (hcreate : q.createSegmentWithBytes fromSeq numBytes = .ok tcpseg) :
    Carries bytes start tcpseg := by
  unfold TCPByteStreamSendQueue.createSegmentWithBytes at hcreate
  split at hcreate
  · dsimp only at hcreate
    split at hcreate
    · rename_i hlen
      cases hcreate
      rw [h.holds.getBytesToBuffer_eq, List.drop_drop] at hlen ⊢
      have hmod : numBytes % 2 ^ 32 = numBytes := by
        rw [List.length_take] at hlen
        have := Nat.mod_le numBytes (2 ^ 32)
        omega
      refine ⟨acked + (fromSeq - q.bufferStartSeq).toNat, ?_, hlen.symm, ?_⟩
      · rw [h.bufferStartSeq_eq, ← Nat.add_assoc]
        exact (wrap_add_sub _ fromSeq).symm
      · rw [slice, Nat.add_sub_cancel_left, hmod]
    · cases hcreate
  · cases hcreate

theorem SendQueueHolds.discard (h : SendQueueHolds bytes start q acked) {seqNum : UInt32}
    {q' : TCPByteStreamSendQueue} (hdiscard : q.discardUpTo seqNum = .ok q') :
    ∃ acked', SendQueueHolds bytes start q' acked' := by
  unfold TCPByteStreamSendQueue.discardUpTo at hdiscard
  split at hdiscard
  · cases hdrop : q.dataBuffer.drop (seqNum - q.bufferStartSeq).toNat with
    | none =>
      rw [hdrop] at hdiscard
      cases hdiscard
    | some dataBuffer =>
      rw [hdrop] at hdiscard
      cases hdiscard
      have hheld := h.holds.drop hdrop
      rw [List.drop_drop] at hheld
      refine ⟨acked + (seqNum - q.bufferStartSeq).toNat, ?_, h.bufferEndSeq_eq, hheld, ?_⟩
      · rw [h.bufferStartSeq_eq, ← Nat.add_assoc]
        exact (wrap_add_sub _ seqNum).symm
      · have hle : (seqNum - q.bufferStartSeq).toNat ≤ q.dataBuffer.dataLengthM := by
          unfold ByteArrayBuffer.drop at hdrop
          split at hdrop
          · assumption
          · cases hdrop
        have := h.acked_le
        rw [h.holds.dataLengthM_eq, List.length_drop] at hle
        omega
  · cases hdiscard

/-! ### The receive queue -/

namespace ReceiveQueueHolds

variable {startSeq : UInt32} {msg : Option RawPacket} {r' : TCPByteStreamRcvQueue}

theorem init (startSeq : UInt32) : ReceiveQueueHolds [] startSeq.toNat (.init startSeq) []
    (.init startSeq.toNat) [] startSeq.toNat where
  refines := by
    have hinit : Refines (ByteStreamRegion.At [] startSeq.toNat) _ _ _ _ := .init startSeq.toNat
    rwa [wrap_toNat] at hinit
  start_le := le_rfl
  first_le := le_rfl
  delivered_eq := by simp [Stream.init]

theorem append (h : ReceiveQueueHolds bytes start r delivered σ ps next) (more : List UInt8) :
    ReceiveQueueHolds (bytes ++ more) start r delivered σ ps next where
  refines := h.refines.imp fun _ _ hat ↦ hat.append more
  start_le := h.start_le
  first_le := by
    have := h.first_le
    rw [List.length_append]
    omega
  delivered_eq := by
    have := h.first_le
    rw [h.delivered_eq, List.take_append_of_le_length (by omega)]

/-- **A segment that carries its bytes is put together rightly** with the regions it meets. -/
theorem insert (h : ReceiveQueueHolds bytes start r delivered σ ps next)
    (hshort : bytes.length < 2 ^ 31) (hcarries : Carries bytes start tcpseg)
    (hpos : 0 < tcpseg.payloadLength) (hge : seqGE tcpseg.sequenceNo r.getFirstSeqNo)
    (hends : ∀ reg ∈ r.regionList, ¬ (seqLess reg.getBegin tcpseg.endNo ∧
      seqLess tcpseg.endNo reg.getEnd)) :
    ∃ r' σ' ps' next', r.insertBytesFromSegment tcpseg = .ok r' ∧
      ReceiveQueueHolds bytes start r' delivered σ' ps' next' := by
  obtain ⟨offset, hseq, hlen, hslice⟩ := hcarries
  have hle := Carries.le_length hlen hslice hpos
  have hstart := h.start_le
  have hfirst := h.first_le
  have hafter : σ.first ≤ start + offset := by
    rwa [hseq, h.refines.getFirstSeqNo_eq, seqGE_wrap ⟨by omega, by omega⟩] at hge
  have hend : tcpseg.endNo = wrap (start + offset + tcpseg.payloadLength) := by
    rw [TCPSegment.endNo, hseq]
    exact wrap_add_wrap _ _
  have hseg : Within σ.first (start + offset, start + offset + tcpseg.payloadLength) :=
    ⟨hafter, by simpa using hpos, by dsimp only; omega⟩
  have hat : ByteStreamRegion.At bytes start ⟨tcpseg.sequenceNo, tcpseg.endNo, tcpseg.byteArray⟩
      (start + offset, start + offset + tcpseg.payloadLength) :=
    { getBegin_eq := hseq
      getEnd_eq := hend
      start_le := Nat.le_add_right _ _
      le_end := by dsimp only; omega
      data_eq := by
        dsimp only
        rw [Nat.add_sub_cancel_left, Nat.add_assoc, Nat.add_sub_cancel_left]
        exact hslice }
  have hfits : ∀ p ∈ ps, EndsOutside (start + offset, start + offset + tcpseg.payloadLength) p := by
    intro p hp
    obtain ⟨reg, hreg, hatreg⟩ := exists_of_mem_right h.refines.regions hp
    have hw := h.refines.within hp
    have hout := hends reg hreg
    rwa [hatreg.getBegin_eq, hatreg.getEnd_eq, hend,
      seqLess_wrap (hseg.near_end_begin hw).symm, seqLess_wrap (hseg.near_end_end hw)] at hout
  obtain ⟨r', next', hinsert, -, href⟩ := h.refines.insert hat hseg hfits
  refine ⟨r', _, _, next', ?_, href, hstart, hfirst, h.delivered_eq⟩
  rw [TCPVirtualDataRcvQueue.insertBytesFromSegment]
  show (ByteStreamRegion.createRegionFromSegment tcpseg).bind _ = _
  rw [ByteStreamRegion.createRegionFromSegment, if_pos hlen]
  exact hinsert

/-- **What is handed out continues what was handed out before.** -/
theorem extract (h : ReceiveQueueHolds bytes start r delivered σ ps next) :
    ∃ msg r' σ' ps', r.extractBytesUpTo r.rcvNxt = .ok (msg, r') ∧
      ReceiveQueueHolds bytes start r' (delivered ++ ByteStreamState.bytesOf msg) σ' ps' next := by
  have hnext := h.refines.next_lt
  have hle := h.refines.first_le
  rcases hle.lt_or_eq with hlt | heq
  · obtain ⟨reg, r', hextract, hat, href⟩ := h.refines.extract_upTo hlt le_rfl
    rw [← h.refines.rcvNxt_eq] at hextract
    have hlen : (reg.getEnd - reg.getBegin).toNat = reg.data.length := by
      rw [hat.getBegin_eq, hat.getEnd_eq, hat.length_data]
      exact toNat_wrap_sub_wrap hle (by omega)
    have hstart := h.start_le
    refine ⟨some ⟨reg.data.length, reg.data⟩, r', _, _, ?_, href, hstart.trans hle, hat.le_end, ?_⟩
    · rw [TCPByteStreamRcvQueue.extractBytesUpTo, hextract]
      show (do let msg ← reg.copyTo; pure (some msg, r')) = _
      rw [ByteStreamRegion.copyTo, if_pos hlen, hlen]
      rfl
    · have hdata := hat.data_eq
      dsimp only at hdata ⊢
      rw [h.delivered_eq, ByteStreamState.bytesOf, Option.map_some, Option.getD_some, hdata]
      have hzero (k : ℕ) : bytes.take k = slice bytes 0 k := by simp [slice]
      rw [hzero, hzero, slice_append_slice (Nat.zero_le _) (by omega)]
  · have hrcv : r.rcvNxt = wrap σ.first := by rw [h.refines.rcvNxt_eq, heq]
    refine ⟨none, r, σ, ps, ?_, ?_⟩
    · rw [TCPByteStreamRcvQueue.extractBytesUpTo, hrcv, h.refines.extract_upTo_first]
      rfl
    · rw [ByteStreamState.bytesOf, Option.map_none, Option.getD_none, List.append_nil]
      exact h

end ReceiveQueueHolds

/-! ### Runs -/

namespace ByteStreamState

variable {startSeq : UInt32} {s s' : ByteStreamState} {e : ByteStreamEvent}

theorem intact_init (startSeq : UInt32) : Intact startSeq (.init startSeq) where
  short := by simp [init]
  sendQueue := ⟨0, .init startSeq⟩
  segments := by simp [init]
  receiveQueue := ⟨_, _, _, .init startSeq⟩

/-- **Every step keeps the stream intact**, as long as no segment ends inside a region. -/
theorem Intact.step (h : s.Intact startSeq) (hallowed : s.Allowed e)
    (hends : s.EndsOutsideRegions e) (hstep : s.step e = .ok s') : s'.Intact startSeq := by
  cases e with
  | enqueueAppData msg =>
    obtain ⟨sendQueue, henqueue, hs'⟩ := exists_of_bind_eq_ok hstep
    cases hs'
    obtain ⟨acked, hsend⟩ := h.sendQueue
    obtain ⟨σ, ps, next, hrcv⟩ := h.receiveQueue
    exact {
      short := by
        dsimp only
        rw [List.length_append]
        exact hallowed
      sendQueue := ⟨acked, hsend.enqueue henqueue⟩
      segments := fun tcpseg hseg ↦ (h.segments tcpseg hseg).append msg.byteArray
      receiveQueue := ⟨σ, ps, next, hrcv.append msg.byteArray⟩ }
  | createSegmentWithBytes fromSeq numBytes =>
    obtain ⟨tcpseg, hcreate, hs'⟩ := exists_of_bind_eq_ok hstep
    cases hs'
    obtain ⟨acked, hsend⟩ := h.sendQueue
    refine { h with segments := fun tcpseg' hseg ↦ ?_ }
    rcases List.mem_append.1 hseg with hseg | hseg
    · exact h.segments tcpseg' hseg
    · rw [List.mem_singleton.1 hseg]
      exact hsend.createSegment hcreate
  | discardUpTo seqNum =>
    obtain ⟨sendQueue, hdiscard, hs'⟩ := exists_of_bind_eq_ok hstep
    cases hs'
    obtain ⟨acked, hsend⟩ := h.sendQueue
    exact { h with sendQueue := hsend.discard hdiscard }
  | truncateSegment tcpseg firstSeqNo endSeqNo =>
    obtain ⟨tcpseg', htrunc, hs'⟩ := exists_of_bind_eq_ok hstep
    cases hs'
    refine { h with segments := fun tcpseg'' hseg ↦ ?_ }
    rcases List.mem_append.1 hseg with hseg | hseg
    · exact h.segments tcpseg'' hseg
    · rw [List.mem_singleton.1 hseg]
      exact (h.segments tcpseg hallowed).truncate htrunc
  | insertBytesFromSegment tcpseg =>
    obtain ⟨receiveQueue, hinsert, hs'⟩ := exists_of_bind_eq_ok hstep
    cases hs'
    obtain ⟨hmem, hpos, hge⟩ := hallowed
    obtain ⟨σ, ps, next, hrcv⟩ := h.receiveQueue
    obtain ⟨r', σ', ps', next', hinsert', hrcv'⟩ :=
      hrcv.insert h.short (h.segments tcpseg hmem) hpos hge hends
    cases hinsert.symm.trans hinsert'
    exact { h with receiveQueue := ⟨σ', ps', next', hrcv'⟩ }
  | extractBytesUpToRcvNxt =>
    obtain ⟨⟨msg, receiveQueue⟩, hextract, hs'⟩ := exists_of_bind_eq_ok hstep
    cases hs'
    obtain ⟨σ, ps, next, hrcv⟩ := h.receiveQueue
    obtain ⟨msg', r', σ', ps', hextract', hrcv'⟩ := hrcv.extract
    cases hextract.symm.trans hextract'
    exact { h with receiveQueue := ⟨σ', ps', next, hrcv'⟩ }

theorem Intact.delivered_isPrefix (h : s.Intact startSeq) : s.delivered <+: s.sent := by
  obtain ⟨σ, ps, next, hrcv⟩ := h.receiveQueue
  rw [hrcv.delivered_eq]
  exact List.take_prefix _ _

end ByteStreamState

/-- **The bytes that are handed out are the first bytes that were sent**, in every run in which no
segment arrives that ends strictly inside a region of the receive queue. -/
theorem byteStream_intact (startSeq : UInt32)
    {tr : List (Transition ByteStreamState ByteStreamEvent Unit)} {s : ByteStreamState}
    (hrun : (byteStream startSeq).Run tr s) (hends : ∀ t ∈ tr, t.pre.EndsOutsideRegions t.input) :
    s.delivered <+: s.sent := by
  have hintact : (∀ t ∈ tr, t.pre.EndsOutsideRegions t.input) → s.Intact startSeq :=
    hrun.history (P := fun tr s ↦ (∀ t ∈ tr, t.pre.EndsOutsideRegions t.input) → s.Intact startSeq)
      (fun s hs _ ↦ hs ▸ ByteStreamState.intact_init startSeq)
      (fun tr s e _ s' _ ih hstep hends ↦ by
        rw [List.forall_mem_append] at hends
        exact (ih hends.1).step hstep.1 (hends.2 _ (List.mem_singleton.2 rfl)) hstep.2)
  exact (hintact hends).delivered_isPrefix

/-! ### Two runs -/

open TransitionSystem

/-- Events that are allowed and do not fail make a run. -/
theorem ByteStreamState.run_of_events (startSeq : UInt32) (events : List ByteStreamEvent)
    (h : ∀ t ∈ transitionsOf (orStay ByteStreamState.step) (.init startSeq) events,
      t.pre.Allowed t.input ∧ t.pre.step t.input = .ok (orStay step t.pre t.input).1) :
    (byteStream startSeq).Run (transitionsOf (orStay ByteStreamState.step) (.init startSeq) events)
      (stateAfter (orStay ByteStreamState.step) (.init startSeq) events) :=
  Run.ofFallible (C := ByteStreamState.Allowed) rfl (fun _ _ _ ha hs ↦ ⟨ha, hs⟩) h

/-- Six bytes, of which the last four arrive before all of them are sent again, across the
wrap-around. -/
def sentAgain : List ByteStreamEvent :=
  [.enqueueAppData ⟨6, [0, 1, 2, 3, 4, 5]⟩, .createSegmentWithBytes 0 4,
    .createSegmentWithBytes 4294967294 6,
    .insertBytesFromSegment { sequenceNo := 0, payloadLength := 4, byteArray := [2, 3, 4, 5] },
    .insertBytesFromSegment
      { sequenceNo := 4294967294, payloadLength := 6, byteArray := [0, 1, 2, 3, 4, 5] },
    .extractBytesUpToRcvNxt, .discardUpTo 4]

theorem byteStream_intact_sentAgain :
    (stateAfter (orStay ByteStreamState.step) (.init 4294967294) sentAgain).delivered
      <+: [0, 1, 2, 3, 4, 5] :=
  byteStream_intact 4294967294 (ByteStreamState.run_of_events 4294967294 sentAgain (by decide)) (by decide)

/-- Six bytes, of which the last four arrive before the first four are sent again. -/
def cutAnew : List ByteStreamEvent :=
  [.enqueueAppData ⟨6, [0, 1, 2, 3, 4, 5]⟩, .createSegmentWithBytes 2 4,
    .createSegmentWithBytes 0 4,
    .insertBytesFromSegment { sequenceNo := 2, payloadLength := 4, byteArray := [2, 3, 4, 5] },
    .insertBytesFromSegment { sequenceNo := 0, payloadLength := 4, byteArray := [0, 1, 2, 3] },
    .extractBytesUpToRcvNxt]

/-- **A segment that is cut anew may corrupt the stream.** -/
theorem byteStream_corrupted :
    ∃ tr s, (byteStream 0).Run tr s ∧ tr.map Transition.input = cutAnew ∧
      s.sent = [0, 1, 2, 3, 4, 5] ∧ s.delivered = [0, 1, 2, 3, 2, 3] ∧ ¬ s.delivered <+: s.sent :=
  ⟨_, _, ByteStreamState.run_of_events 0 cutAnew (by decide), by decide, by decide,
    by decide, by decide⟩

end Inet.Tcp
