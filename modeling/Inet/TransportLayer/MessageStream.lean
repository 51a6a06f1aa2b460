import Inet.Foundations.TransitionSystem
import Inet.TransportLayer.ReceiveStream
import Inet.TransportLayer.TCPMsgBasedQueues

/-!
# The messages of a connection

The message-based queues of the two ends of a connection, with every segment that has ever been cut
or truncated between them: any of these may arrive, at any time and any number of times. The stream
may be longer than the number space, so every segment is kept with the position of its first byte;
the queues see the sequence numbers only.

A message is carried by the segments with its last byte (`Carries`), is waiting at the receiver when
that byte has arrived (`ReceiveQueueHolds`), and is handed out when all bytes before it have arrived
as well. So the messages that are handed out are the first ones that were sent
(`messages_delivered_inOrder`), as long as a segment that arrives starts at or after the first byte
that has not been handed out. An older one brings its message again (`message_delivered_twice`).
-/

namespace Inet.Tcp

open SerialNumber IntervalList AscendingKeys CPacket

variable {Packet : Type}

/-- The queues of a connection, the messages that were sent, the segments on their way, the bytes
that have arrived, and the messages that were handed out. `acknowledged` and `handedOut` are the
positions of the first byte that has not been acknowledged and not been handed out. -/
structure MessageState (Packet : Type) where
  sendQueue : TCPMsgBasedSendQueue Packet
  receiveQueue : TCPMsgBasedRcvQueue Packet
  messages : List Packet := []
  acknowledged : ℕ
  segments : List (ℕ × TCPSegment Packet) := []
  arrived : List (ℕ × ℕ) := []
  handedOut : ℕ
  delivered : List Packet := []
  deriving DecidableEq, Repr

/-- What can happen. -/
inductive MessageEvent (Packet : Type)
  | enqueueAppData (msg : Packet)
  | createSegmentWithBytes (fromSeq : UInt32) (numBytes : ℕ)
  | discardUpTo (seqNum : UInt32)
  | truncateSegment (tcpseg : ℕ × TCPSegment Packet) (firstSeqNo endSeqNo : UInt32)
  | insertBytesFromSegment (tcpseg : ℕ × TCPSegment Packet)
  | extractBytesUpToRcvNxt
  deriving DecidableEq, Repr

/-- The messages of a stream that starts at a position, each with the position behind its last
byte. -/
def stamped [CPacket Packet] : ℕ → List Packet → List (ℕ × Packet)
  | _, [] => []
  | start, msg :: messages =>
    (start + getByteLength msg, msg) :: stamped (start + getByteLength msg) messages

/-- The position behind the last message. -/
def endOf [CPacket Packet] (start : ℕ) (messages : List Packet) : ℕ :=
  start + (messages.map getByteLength).sum

namespace MessageState

variable [CPacket Packet]

/-- Both sides start with the same sequence number. -/
def init (startSeq : UInt32) : MessageState Packet where
  sendQueue := .init startSeq
  receiveQueue := .init startSeq
  acknowledged := startSeq.toNat
  handedOut := startSeq.toNat

/-- What an event does. -/
def step (s : MessageState Packet) :
    MessageEvent Packet → Except RuntimeError (MessageState Packet)
  | .enqueueAppData msg => do
    let sendQueue ← s.sendQueue.enqueueAppData msg
    return { s with sendQueue, messages := s.messages ++ [msg] }
  | .createSegmentWithBytes fromSeq numBytes => do
    let tcpseg ← s.sendQueue.createSegmentWithBytes fromSeq numBytes
    let first := s.acknowledged + (fromSeq - s.sendQueue.bufferStartSeq).toNat
    return { s with segments := s.segments ++ [(first, tcpseg)] }
  | .discardUpTo seqNum => do
    let sendQueue ← s.sendQueue.discardUpTo seqNum
    let acknowledged := s.acknowledged + (seqNum - s.sendQueue.bufferStartSeq).toNat
    return { s with sendQueue, acknowledged }
  | .truncateSegment (first, tcpseg) firstSeqNo endSeqNo => do
    let tcpseg' ← tcpseg.truncateSegment firstSeqNo endSeqNo
    let first' := first + (tcpseg'.sequenceNo - tcpseg.sequenceNo).toNat
    return { s with segments := s.segments ++ [(first', tcpseg')] }
  | .insertBytesFromSegment (first, tcpseg) => do
    let receiveQueue ← s.receiveQueue.insertBytesFromSegment tcpseg
    return { s with receiveQueue, arrived := s.arrived ++ [(first, first + tcpseg.payloadLength)] }
  | .extractBytesUpToRcvNxt => do
    let (msg, receiveQueue) ← s.receiveQueue.extractBytesUpTo s.receiveQueue.rcvNxt
    let count := (receiveQueue.getFirstSeqNo - s.receiveQueue.getFirstSeqNo).toNat
    return { s with
      receiveQueue
      handedOut := s.handedOut + count
      delivered := s.delivered ++ msg.toList }

/-- Messages are not empty, a segment is cut from what the send queue covers, and what arrives has
been sent. -/
def Allowed (s : MessageState Packet) : MessageEvent Packet → Prop
  | .enqueueAppData msg => 0 < getByteLength msg
  | .createSegmentWithBytes fromSeq numBytes =>
      (fromSeq - s.sendQueue.bufferStartSeq).toNat + numBytes ≤
        (s.sendQueue.bufferEndSeq - s.sendQueue.bufferStartSeq).toNat
  | .truncateSegment tcpseg _ _ => tcpseg ∈ s.segments
  | .insertBytesFromSegment tcpseg => tcpseg ∈ s.segments
  | _ => True

/-- Less than half the number space waits in the send queue, and what arrives brings data and lies
in the half of the number space that starts with the first byte that has not been handed out. -/
def InRange (s : MessageState Packet) : MessageEvent Packet → Prop
  | .enqueueAppData msg =>
      (s.sendQueue.bufferEndSeq - s.sendQueue.bufferStartSeq).toNat + getByteLength msg < 2 ^ 31
  | .insertBytesFromSegment tcpseg => 0 < tcpseg.2.payloadLength ∧
      s.handedOut ≤ tcpseg.1 ∧ tcpseg.1 + tcpseg.2.payloadLength < s.handedOut + 2 ^ 31
  | _ => True

instance [DecidableEq Packet] (s : MessageState Packet) :
    (e : MessageEvent Packet) → Decidable (s.Allowed e)
  | .enqueueAppData _ => inferInstanceAs (Decidable (_ < _))
  | .createSegmentWithBytes _ _ => inferInstanceAs (Decidable (_ ≤ _))
  | .truncateSegment _ _ _ | .insertBytesFromSegment _ => inferInstanceAs (Decidable (_ ∈ _))
  | .discardUpTo _ | .extractBytesUpToRcvNxt => inferInstanceAs (Decidable True)

instance (s : MessageState Packet) : (e : MessageEvent Packet) → Decidable (s.InRange e)
  | .enqueueAppData _ => inferInstanceAs (Decidable (_ < _))
  | .insertBytesFromSegment _ => inferInstanceAs (Decidable (_ ∧ _))
  | .createSegmentWithBytes _ _ | .discardUpTo _ | .truncateSegment _ _ _
  | .extractBytesUpToRcvNxt => inferInstanceAs (Decidable True)

/-- Extracting a number of times. -/
def extractTimes (s : MessageState Packet) : ℕ → Except RuntimeError (MessageState Packet)
  | 0 => .ok s
  | n + 1 => do
    let s ← s.step .extractBytesUpToRcvNxt
    s.extractTimes n

end MessageState

/-- The connection as a transition system. -/
def messageStream [CPacket Packet] (startSeq : UInt32) :
    TransitionSystem (MessageState Packet) (MessageEvent Packet) Unit where
  Init s := s = .init startSeq
  Step s e _ s' := s.Allowed e ∧ s.step e = .ok s'

/-! ### Messages and their ends -/

section Stamped

variable [CPacket Packet] {start : ℕ} {messages : List Packet} {x : ℕ × Packet}

theorem endOf_cons (start : ℕ) (msg : Packet) (messages : List Packet) :
    endOf start (msg :: messages) = endOf (start + getByteLength msg) messages := by
  rw [endOf, endOf, List.map_cons, List.sum_cons, Nat.add_assoc]

theorem endOf_concat (start : ℕ) (messages : List Packet) (msg : Packet) :
    endOf start (messages ++ [msg]) = endOf start messages + getByteLength msg := by
  rw [endOf, endOf, List.map_append, List.sum_append, List.map_singleton, List.sum_singleton,
    Nat.add_assoc]

theorem stamped_concat (start : ℕ) (messages : List Packet) (msg : Packet) :
    stamped start (messages ++ [msg]) =
      stamped start messages ++ [(endOf start messages + getByteLength msg, msg)] := by
  induction messages generalizing start with
  | nil => rfl
  | cons m messages ih => rw [List.cons_append, stamped, stamped, ih, endOf_cons, List.cons_append]

theorem map_snd_stamped (start : ℕ) (messages : List Packet) :
    (stamped start messages).map Prod.snd = messages := by
  induction messages generalizing start with
  | nil => rfl
  | cons m messages ih => rw [stamped, List.map_cons, ih]

/-- Messages that are not empty end behind the start and up to the end of the stream. -/
theorem stamped_bounds (hpos : ∀ msg ∈ messages, 0 < getByteLength msg)
    (hx : x ∈ stamped start messages) : start < x.1 ∧ x.1 ≤ endOf start messages := by
  induction messages generalizing start with
  | nil => cases hx
  | cons m messages ih =>
    rw [List.forall_mem_cons] at hpos
    have hle : start + getByteLength m ≤ endOf (start + getByteLength m) messages :=
      Nat.le_add_right _ _
    rw [endOf_cons]
    rcases List.mem_cons.1 hx with rfl | hx
    · exact ⟨by simpa using hpos.1, hle⟩
    · obtain ⟨hlt, hle'⟩ := ih hpos.2 hx
      exact ⟨by omega, hle'⟩

theorem ascending_stamped (hpos : ∀ msg ∈ messages, 0 < getByteLength msg) :
    Ascending Prod.fst (stamped start messages) := by
  induction messages generalizing start with
  | nil => exact List.Pairwise.nil
  | cons m messages ih =>
    rw [List.forall_mem_cons] at hpos
    exact (ih hpos.2).cons fun y hy ↦ (stamped_bounds hpos.2 hy).1

end Stamped

namespace MessageState

/-! ### What is sent, what is on its way, what has arrived -/

/-- A segment carries the messages whose last byte it holds, and lies before `fin`. -/
structure Carries (l : List (ℕ × Packet)) (fin : ℕ) (tcpseg : ℕ × TCPSegment Packet) : Prop where
  sequenceNo_eq : tcpseg.2.sequenceNo = wrap tcpseg.1
  end_le : tcpseg.1 + tcpseg.2.payloadLength ≤ fin
  short : tcpseg.2.payloadLength < 2 ^ 31
  payload : ∃ xs, tcpseg.2.payloadList = xs.map .at ∧
    Selects Prod.fst l (fun e ↦ tcpseg.1 < e ∧ e ≤ tcpseg.1 + tcpseg.2.payloadLength) xs

/-- The send queue holds the messages that end behind what has been acknowledged. -/
structure SendQueueHolds (l : List (ℕ × Packet)) (fin : ℕ) (q : TCPMsgBasedSendQueue Packet)
    (acked : ℕ) : Prop where
  bufferStartSeq_eq : q.bufferStartSeq = wrap acked
  bufferEndSeq_eq : q.bufferEndSeq = wrap fin
  acked_le : acked ≤ fin
  short : fin < acked + 2 ^ 31
  payload : ∃ xs, q.payloadQueue = xs.map .at ∧ Selects Prod.fst l (acked < ·) xs

/-- The receive queue holds the messages whose last byte has arrived and has not been handed out. -/
structure ReceiveQueueHolds (l : List (ℕ × Packet)) (σ : Stream) (q : TCPMsgBasedRcvQueue Packet)
    (ps : List (ℕ × ℕ)) (next : ℕ) (xs : List (ℕ × Packet)) : Prop where
  refines : Refines VirtualRegion.At σ q.toTCPVirtualDataRcvQueue ps next
  payloadList_eq : q.payloadList = xs.map .at
  payload : Selects Prod.fst l (fun e ↦ σ.first < e ∧ e - 1 ∈ σ.received) xs

variable {l xs : List (ℕ × Packet)} {x : ℕ × Packet} {fin fin' acked next : ℕ} {σ : Stream}
  {tcpseg : ℕ × TCPSegment Packet} {q : TCPMsgBasedSendQueue Packet}
  {r : TCPMsgBasedRcvQueue Packet} {ps : List (ℕ × ℕ)}

theorem Carries.concat (h : Carries l fin tcpseg) (hx : fin < x.1) (hle : fin ≤ fin') :
    Carries (l ++ [x]) fin' tcpseg := by
  obtain ⟨xs, hlist, hxs⟩ := h.payload
  have hend := h.end_le
  exact { h with
    end_le := hend.trans hle
    payload := ⟨xs, hlist, hxs.concat_of_not fun hin ↦ by omega⟩ }

/-- The distance of a message from the first byte of its segment. -/
theorem sub_sequenceNo {first e : ℕ} (hlt : first < e) (hnear : e < first + 2 ^ 32) :
    (wrap e - wrap first).toNat = e - first :=
  toNat_wrap_sub_wrap hlt.le hnear

/-- **A truncated segment carries the messages whose last byte it still holds.** -/
theorem Carries.truncate (h : Carries l fin tcpseg) {firstSeqNo endSeqNo : UInt32}
    {tcpseg' : TCPSegment Packet}
    (htrunc : tcpseg.2.truncateSegment firstSeqNo endSeqNo = .ok tcpseg') :
    Carries l fin (tcpseg.1 + (tcpseg'.sequenceNo - tcpseg.2.sequenceNo).toNat, tcpseg') := by
  obtain ⟨first, tcpseg⟩ := tcpseg
  obtain ⟨hseq, hend, hshort, xs, hlist, hxs⟩ := h
  dsimp only at hseq hend hshort hlist hxs htrunc ⊢
  obtain ⟨-, -, -, hdata⟩ := TCPSegment.truncateSegment_ok htrunc
  generalize (if seqLess tcpseg.sequenceNo firstSeqNo then
    (firstSeqNo - tcpseg.sequenceNo).toNat else 0) = left at hdata
  generalize (if seqGreater tcpseg.endNo endSeqNo then
    (tcpseg.endNo - endSeqNo).toNat else 0) = right at hdata
  obtain ⟨hle, hseq', hlen', hlist', -⟩ := TCPSegment.truncateData_ok hdata
  have hfirst : tcpseg'.sequenceNo = wrap (first + left) := by
    rw [hseq', hseq]
    exact wrap_add_wrap _ _
  have hleft : (tcpseg'.sequenceNo - tcpseg.sequenceNo).toNat = left := by
    rw [hfirst, hseq, toNat_wrap_sub_wrap (Nat.le_add_right _ _) (by omega)]
    omega
  rw [hleft]
  refine ⟨hfirst, by dsimp only; omega, by dsimp only; omega, ?_⟩
  -- the messages that end in the part cut off on the left
  have hdrop : (xs.map TCPPayloadMessage.at).dropWhile
      (fun p ↦ (p.endSequenceNo - tcpseg.sequenceNo).toNat ≤ left) =
        (xs.dropWhile (·.1 ≤ first + left)).map .at := by
    refine dropWhile_map_eq fun x hx ↦ decide_eq_decide.2 ?_
    obtain ⟨-, hlt, hle'⟩ := (hxs.mem_iff x).1 hx
    rw [TCPPayloadMessage.at, hseq, sub_sequenceNo hlt (by omega)]
    omega
  have hkept := hxs.dropWhile (first + left)
  -- and those that end in the part cut off on the right
  have hback : ((xs.dropWhile (·.1 ≤ first + left)).map TCPPayloadMessage.at).rdropWhile
      (fun p ↦ tcpseg'.payloadLength < (p.endSequenceNo - tcpseg'.sequenceNo).toNat) =
        ((xs.dropWhile (·.1 ≤ first + left)).rdropWhile
          (first + left + tcpseg'.payloadLength < ·.1)).map .at := by
    refine rdropWhile_map_eq fun x hx ↦ decide_eq_decide.2 ?_
    obtain ⟨-, ⟨-, hle'⟩, hlt⟩ := (hkept.mem_iff x).1 hx
    rw [TCPPayloadMessage.at, hfirst, sub_sequenceNo hlt (by omega)]
    omega
  refine ⟨_, ?_, (hkept.rdropWhile (first + left + tcpseg'.payloadLength)).congr fun x _ ↦ ?_⟩
  · dsimp only
    rw [hlist', hlist, hdrop, TCPSegment.dropBack, hback]
  · dsimp only
    omega

/-! ### The send queue -/

theorem SendQueueHolds.init (startSeq : UInt32) :
    SendQueueHolds ([] : List (ℕ × Packet)) startSeq.toNat (.init startSeq) startSeq.toNat where
  bufferStartSeq_eq := (wrap_toNat startSeq).symm
  bufferEndSeq_eq := (wrap_toNat startSeq).symm
  acked_le := le_rfl
  short := by omega
  payload := ⟨[], rfl, .nil (by simp)⟩

/-- What waits in the send queue. -/
theorem SendQueueHolds.toNat_sub (h : SendQueueHolds l fin q acked) :
    (q.bufferEndSeq - q.bufferStartSeq).toNat = fin - acked := by
  have hshort := h.short
  rw [h.bufferEndSeq_eq, h.bufferStartSeq_eq, toNat_wrap_sub_wrap h.acked_le (by omega)]

theorem SendQueueHolds.enqueue [CPacket Packet] (h : SendQueueHolds l fin q acked) {msg : Packet}
    {q' : TCPMsgBasedSendQueue Packet} (hl : ∀ y ∈ l, y.1 ≤ fin) (hpos : 0 < getByteLength msg)
    (hshort : (q.bufferEndSeq - q.bufferStartSeq).toNat + getByteLength msg < 2 ^ 31)
    (henqueue : q.enqueueAppData msg = .ok q') :
    SendQueueHolds (l ++ [(fin + getByteLength msg, msg)]) (fin + getByteLength msg) q' acked := by
  rw [h.toNat_sub] at hshort
  have hle := h.acked_le
  have hend : q.bufferEndSeq + UInt32.ofNat (getByteLength msg) = wrap (fin + getByteLength msg) := by
    rw [h.bufferEndSeq_eq]
    exact wrap_add_wrap _ _
  rw [TCPMsgBasedSendQueue.enqueueAppData, hend] at henqueue
  split at henqueue
  · cases henqueue
  · cases henqueue
    obtain ⟨xs, hlist, hxs⟩ := h.payload
    refine ⟨h.bufferStartSeq_eq, rfl, by omega, by omega, xs ++ [(fin + getByteLength msg, msg)],
      ?_, hxs.concat (fun y hy ↦ ?_) ?_⟩
    · rw [hlist, List.map_append]
      rfl
    · have hy' := hl y hy
      show y.1 < fin + getByteLength msg
      omega
    · show acked < fin + getByteLength msg
      omega

/-- **Every segment that is cut carries the messages whose last byte it holds.** -/
theorem SendQueueHolds.createSegment (h : SendQueueHolds l fin q acked) (hl : ∀ y ∈ l, y.1 ≤ fin)
    {fromSeq : UInt32} {numBytes : ℕ} {tcpseg : TCPSegment Packet}
    (hrange : (fromSeq - q.bufferStartSeq).toNat + numBytes ≤
      (q.bufferEndSeq - q.bufferStartSeq).toNat)
    (hcreate : q.createSegmentWithBytes fromSeq numBytes = .ok tcpseg) :
    Carries l fin (acked + (fromSeq - q.bufferStartSeq).toNat, tcpseg) := by
  rw [h.toNat_sub] at hrange
  have hle := h.acked_le
  have hshort := h.short
  have hfrom : wrap (acked + (fromSeq - q.bufferStartSeq).toNat) = fromSeq := by
    rw [h.bufferStartSeq_eq]
    exact wrap_add_sub acked fromSeq
  generalize (fromSeq - q.bufferStartSeq).toNat = offset at hrange hfrom
  subst hfrom
  obtain ⟨xs, hlist, hxs⟩ := h.payload
  have hto : wrap (acked + offset) + UInt32.ofNat numBytes = wrap (acked + offset + numBytes) :=
    wrap_add_wrap _ _
  rw [TCPMsgBasedSendQueue.createSegmentWithBytes, hto, hlist] at hcreate
  dsimp only at hcreate
  split at hcreate
  · cases hcreate
    have hnear (n : ℕ) (hn : acked ≤ n) (hn' : n ≤ fin) (x : ℕ × Packet) (hx : x ∈ xs) :
        seqLE (TCPPayloadMessage.at x).endSequenceNo (wrap n) ↔ x.1 ≤ n := by
      obtain ⟨hxl, hlt⟩ := (hxs.mem_iff x).1 hx
      have hxfin := hl x hxl
      exact seqLE_wrap ⟨by omega, by omega⟩
    have hskip : (xs.map TCPPayloadMessage.at).dropWhile
        (seqLE ·.endSequenceNo (wrap (acked + offset))) =
          (xs.dropWhile (·.1 ≤ acked + offset)).map .at :=
      dropWhile_map_eq fun x hx ↦ decide_eq_decide.2 (hnear _ (by omega) (by omega) x hx)
    have htake : ((xs.dropWhile (·.1 ≤ acked + offset)).map TCPPayloadMessage.at).takeWhile
        (seqLE ·.endSequenceNo (wrap (acked + offset + numBytes))) =
          ((xs.dropWhile (·.1 ≤ acked + offset)).takeWhile
            (·.1 ≤ acked + offset + numBytes)).map .at :=
      takeWhile_map_eq fun x hx ↦
        decide_eq_decide.2 (hnear _ (by omega) (by omega) x (List.dropWhile_subset _ hx))
    refine ⟨rfl, by dsimp only; omega, by dsimp only; omega, _, ?_,
      ((hxs.dropWhile (acked + offset)).takeWhile (acked + offset + numBytes)).congr fun x _ ↦ ?_⟩
    · dsimp only
      rw [hskip, htake]
    · dsimp only
      omega
  · cases hcreate

theorem SendQueueHolds.discard (h : SendQueueHolds l fin q acked) (hl : ∀ y ∈ l, y.1 ≤ fin)
    {seqNum : UInt32} {q' : TCPMsgBasedSendQueue Packet}
    (hdiscard : q.discardUpTo seqNum = .ok q') :
    SendQueueHolds l fin q' (acked + (seqNum - q.bufferStartSeq).toNat) := by
  have hle := h.acked_le
  have hshort := h.short
  have hseq : wrap (acked + (seqNum - q.bufferStartSeq).toNat) = seqNum := by
    rw [h.bufferStartSeq_eq]
    exact wrap_add_sub acked seqNum
  unfold TCPMsgBasedSendQueue.discardUpTo at hdiscard
  split at hdiscard
  · rename_i hin
    cases hdiscard
    have hoffset : (seqNum - q.bufferStartSeq).toNat < 2 ^ 31 := hin.1
    generalize (seqNum - q.bufferStartSeq).toNat = offset at hseq hoffset
    subst hseq
    obtain ⟨xs, hlist, hxs⟩ := h.payload
    have hfin : acked + offset ≤ fin := by
      rw [← seqLE_wrap ⟨by omega, by omega⟩, ← h.bufferEndSeq_eq]
      exact hin.2
    have hdrop : (xs.map TCPPayloadMessage.at).dropWhile
        (seqLE ·.endSequenceNo (wrap (acked + offset))) =
          (xs.dropWhile (·.1 ≤ acked + offset)).map .at := by
      refine dropWhile_map_eq fun x hx ↦ decide_eq_decide.2 ?_
      obtain ⟨hxl, hlt⟩ := (hxs.mem_iff x).1 hx
      have hxfin := hl x hxl
      exact seqLE_wrap ⟨by omega, by omega⟩
    refine ⟨rfl, h.bufferEndSeq_eq, hfin, by omega, _, ?_,
      (hxs.dropWhile (acked + offset)).congr fun x _ ↦ by omega⟩
    dsimp only
    rw [hlist, hdrop]
  · cases hdiscard

/-! ### The receive queue -/

namespace ReceiveQueueHolds

variable {r' : TCPMsgBasedRcvQueue Packet}

theorem init (startSeq : UInt32) :
    ReceiveQueueHolds ([] : List (ℕ × Packet)) (.init startSeq.toNat) (.init startSeq) []
      startSeq.toNat [] where
  refines := by
    have hinit : Refines VirtualRegion.At _ _ _ _ := .init startSeq.toNat
    rwa [wrap_toNat] at hinit
  payloadList_eq := rfl
  payload := .nil (by simp)

/-- The waiting messages end in the half of the number space behind what has been handed out. -/
theorem endsWithin (h : ReceiveQueueHolds l σ r ps next xs) : EndsWithin σ.first xs := by
  intro x hx
  obtain ⟨-, hlt, hmem⟩ := (h.payload.mem_iff x).1 hx
  obtain ⟨p, hp, hin⟩ := h.refines.mem_points_iff.2 ⟨hmem, by omega⟩
  have hend := h.refines.end_lt p hp
  have hlast := hin.2
  exact ⟨hlt, by omega⟩

theorem concat (h : ReceiveQueueHolds l σ r ps next xs) (hx : x.1 - 1 ∉ σ.received) :
    ReceiveQueueHolds (l ++ [x]) σ r ps next xs :=
  { h with payload := h.payload.concat_of_not fun hin ↦ hx hin.2 }

/-- **A segment brings the messages whose last byte it holds.** -/
theorem insert (h : ReceiveQueueHolds l σ r ps next xs) (hl : Ascending Prod.fst l)
    (hcarries : Carries l fin tcpseg) (hpos : 0 < tcpseg.2.payloadLength)
    (hle : σ.first ≤ tcpseg.1) (hlt : tcpseg.1 + tcpseg.2.payloadLength < σ.first + 2 ^ 31) :
    ∃ r' ps' next' xs', r.insertBytesFromSegment tcpseg.2 = .ok r' ∧
      ReceiveQueueHolds l ⟨σ.start, σ.received ∪
        Set.Ico tcpseg.1 (tcpseg.1 + tcpseg.2.payloadLength), σ.first⟩ r' ps' next' xs' := by
  obtain ⟨zs, hlist, hzs⟩ := hcarries.payload
  have hat : VirtualRegion.At ⟨tcpseg.2.sequenceNo, tcpseg.2.endNo⟩
      (tcpseg.1, tcpseg.1 + tcpseg.2.payloadLength) := by
    rw [VirtualRegion.At, TCPSegment.endNo, hcarries.sequenceNo_eq, ← wrap_add_wrap]
    rfl
  have hseg : Within σ.first (tcpseg.1, tcpseg.1 + tcpseg.2.payloadLength) :=
    ⟨hle, by simpa using hpos, hlt⟩
  obtain ⟨q', next', hinsert, -, href⟩ := h.refines.insert hat hseg fun _ _ ↦ trivial
  have hends : EndsWithin σ.first ([] ++ xs ++ zs) := by
    intro x hx
    rcases List.mem_append.1 hx with hx | hx
    · exact h.endsWithin x hx
    · obtain ⟨-, hlow, hhigh⟩ := (hzs.mem_iff x).1 hx
      exact ⟨by omega, by omega⟩
  have hmerge := TCPMsgBasedRcvQueue.insertPayload_map hends h.payload.ascending hzs.ascending
    (by simp)
  refine ⟨⟨q', (mergeInto Prod.fst [] xs zs).map .at⟩, _, next', mergeInto Prod.fst [] xs zs, ?_,
    href, rfl, (Selects.mergeInto hl h.payload hzs).congr fun x _ ↦ ?_⟩
  · rw [TCPMsgBasedRcvQueue.insertBytesFromSegment]
    show (r.toTCPVirtualDataRcvQueue.insertRegion _).bind _ = _
    rw [h.payloadList_eq, hlist]
    rw [List.map_nil] at hmerge
    show ((r.toTCPVirtualDataRcvQueue.insertRegion ⟨tcpseg.2.sequenceNo, tcpseg.2.endNo⟩).bind
      fun q ↦ (TCPMsgBasedRcvQueue.insertPayload [] (xs.map .at) (zs.map .at)).bind _) = _
    rw [hinsert, hmerge]
    rfl
  · -- the last byte of a message is one of the segment, or was there before
    have hmem : x.1 - 1 ∈ Set.Ico tcpseg.1 (tcpseg.1 + tcpseg.2.payloadLength) ↔
        tcpseg.1 ≤ x.1 - 1 ∧ x.1 - 1 < tcpseg.1 + tcpseg.2.payloadLength := Iff.rfl
    rw [Set.mem_union, hmem]
    dsimp only
    constructor
    · rintro (⟨hlow, hold⟩ | ⟨hlow, hhigh⟩)
      · exact ⟨hlow, .inl hold⟩
      · exact ⟨by omega, .inr ⟨by omega, by omega⟩⟩
    · rintro ⟨hlow, hold | ⟨hlow', hhigh⟩⟩
      · exact .inl ⟨hlow, hold⟩
      · exact .inr ⟨by omega, by omega⟩

/-- A message that lies before `next` and has not been handed out is waiting. -/
theorem mem_of_le (h : ReceiveQueueHolds l σ r ps next xs) (hx : x ∈ l) (hlt : σ.first < x.1)
    (hle : x.1 ≤ next) : x ∈ xs :=
  (h.payload.mem_iff x).2 ⟨hx, hlt, h.refines.received_of_lt (by omega) (by omega)⟩

/-- **An extraction hands out the first waiting message** if all bytes before its end have
arrived. -/
theorem extract_some (h : ReceiveQueueHolds l σ r ps next (x :: xs)) (hle : x.1 ≤ next) :
    ∃ r' ps', r.extractBytesUpTo r.rcvNxt = .ok (some x.2, r') ∧
      ReceiveQueueHolds l { σ with first := x.1 } r' ps' next xs := by
  have hx := h.endsWithin x List.mem_cons_self
  have hnext := h.refines.next_lt
  have hlist : r.payloadList = PayloadItem.at x :: xs.map .at := h.payloadList_eq
  obtain ⟨reg, q', hextract, hat, href⟩ := h.refines.extract_upTo hx.1 hle
  have hbound : TCPMsgBasedRcvQueue.extractionEnd r.payloadList r.rcvNxt = wrap x.1 := by
    rw [hlist, h.refines.rcvNxt_eq, TCPMsgBasedRcvQueue.extractionEnd, PayloadItem.at]
    rcases hle.lt_or_eq with hlt | heq
    · exact if_pos ((seqLess_wrap ⟨by omega, by omega⟩).2 hlt)
    · rw [heq, ite_self]
  refine ⟨⟨q', xs.map .at⟩, _, ?_, href, rfl, h.payload.tail.congr fun y _ ↦ ?_⟩
  · rw [TCPMsgBasedRcvQueue.extractBytesUpTo, hbound, hextract, hlist]
    exact if_pos (RegionAt.getEnd_eq hat).symm
  · dsimp only
    exact ⟨fun hy ↦ ⟨hy.2, hy.1.2⟩, fun hy ↦ ⟨⟨hx.1.trans hy.1, hy.2⟩, hy.1⟩⟩

/-- It hands out none if there are none, or the first one is not complete. -/
theorem extract_none (h : ReceiveQueueHolds l σ r ps next xs) (hlt : ∀ y ∈ xs, next < y.1) :
    ∃ r' ps', r.extractBytesUpTo r.rcvNxt = .ok (none, r') ∧
      ReceiveQueueHolds l { σ with first := next } r' ps' next xs := by
  have hnext := h.refines.next_lt
  have hfirst := h.refines.first_le
  have hlist := h.payloadList_eq
  have hbound : TCPMsgBasedRcvQueue.extractionEnd r.payloadList r.rcvNxt = wrap next := by
    rw [hlist, h.refines.rcvNxt_eq]
    cases xs with
    | nil => rfl
    | cons x xs =>
      have hx := h.endsWithin x List.mem_cons_self
      have hx' := hlt x List.mem_cons_self
      refine if_neg ?_
      rw [PayloadItem.at, seqLess_wrap ⟨by omega, by omega⟩]
      omega
  have hpayload : Selects Prod.fst l (fun e ↦ next < e ∧ e - 1 ∈ σ.received) xs := by
    refine h.payload.congr fun y hy ↦ ⟨fun hin ↦ ?_, fun hin ↦ ⟨by omega, hin.2⟩⟩
    exact ⟨hlt y ((h.payload.mem_iff y).2 ⟨hy, hin⟩), hin.2⟩
  rcases hfirst.lt_or_eq with hless | heq
  · obtain ⟨reg, q', hextract, hat, href⟩ := h.refines.extract_upTo hless le_rfl
    refine ⟨⟨q', r.payloadList⟩, _, ?_, href, hlist, hpayload⟩
    rw [TCPMsgBasedRcvQueue.extractBytesUpTo, hbound, hextract, hlist]
    cases xs with
    | nil => rfl
    | cons x xs =>
      have hx := h.endsWithin x List.mem_cons_self
      have hx' := hlt x List.mem_cons_self
      have hend : reg.getEnd = wrap next := RegionAt.getEnd_eq hat
      refine if_neg ?_
      rw [PayloadItem.at, hend, wrap_eq_wrap ⟨by omega, by omega⟩]
      omega
  · have hσ : { σ with first := next } = σ := by rw [← heq]
    refine ⟨r, ps, ?_, hσ ▸ h.refines, hlist, hpayload⟩
    rw [TCPMsgBasedRcvQueue.extractBytesUpTo, hbound, ← heq, h.refines.extract_upTo_first]
    rfl

end ReceiveQueueHolds

/-! ### Runs -/

variable [CPacket Packet] {startSeq : UInt32} {s s' : MessageState Packet}

/-- The receiver's side as a stream. -/
def stream (startSeq : UInt32) (s : MessageState Packet) : Stream :=
  ⟨startSeq.toNat, points s.arrived, s.handedOut⟩

/-- The messages, with the positions behind them. -/
def sent (startSeq : UInt32) (s : MessageState Packet) : List (ℕ × Packet) :=
  stamped startSeq.toNat s.messages

/-- The messages go through in order. -/
structure InOrder (startSeq : UInt32) (s : MessageState Packet) : Prop where
  positive : ∀ msg ∈ s.messages, 0 < getByteLength msg
  sendQueue : SendQueueHolds (s.sent startSeq) (endOf startSeq.toNat s.messages) s.sendQueue
    s.acknowledged
  segments : ∀ tcpseg ∈ s.segments,
    Carries (s.sent startSeq) (endOf startSeq.toNat s.messages) tcpseg
  arrived_lt : ∀ n ∈ points s.arrived, n < endOf startSeq.toNat s.messages
  receiveQueue : ∃ ps next xs,
    ReceiveQueueHolds (s.sent startSeq) (s.stream startSeq) s.receiveQueue ps next xs
  handedOut_le : s.handedOut ≤ endOf startSeq.toNat s.messages
  delivered_eq : s.delivered = ((s.sent startSeq).takeWhile (·.1 ≤ s.handedOut)).map Prod.snd

theorem inOrder_init (startSeq : UInt32) : InOrder startSeq (.init startSeq : MessageState Packet) where
  positive := by simp [init]
  sendQueue := .init startSeq
  segments := by simp [init]
  arrived_lt := by simp [init]
  receiveQueue := by
    have hinit : ReceiveQueueHolds ([] : List (ℕ × Packet)) _ _ _ _ _ := .init startSeq
    rw [Stream.init, ← points_nil] at hinit
    exact ⟨_, _, _, hinit⟩
  handedOut_le := Nat.le_add_right _ _
  delivered_eq := rfl

theorem step_extract {msg : Option Packet} {r : TCPMsgBasedRcvQueue Packet}
    (h : s.receiveQueue.extractBytesUpTo s.receiveQueue.rcvNxt = .ok (msg, r)) :
    s.step .extractBytesUpToRcvNxt = .ok { s with
      receiveQueue := r
      handedOut := s.handedOut + (r.getFirstSeqNo - s.receiveQueue.getFirstSeqNo).toNat
      delivered := s.delivered ++ msg.toList } := by
  rw [step, h]
  rfl

namespace InOrder

theorem ascending (h : s.InOrder startSeq) : Ascending Prod.fst (s.sent startSeq) :=
  ascending_stamped h.positive

theorem bounds (h : s.InOrder startSeq) {x : ℕ × Packet} (hx : x ∈ s.sent startSeq) :
    startSeq.toNat < x.1 ∧ x.1 ≤ endOf startSeq.toNat s.messages :=
  stamped_bounds h.positive hx

theorem delivered_isPrefix (h : s.InOrder startSeq) : s.delivered <+: s.messages := by
  have hmap : s.messages = (s.sent startSeq).map Prod.snd := (map_snd_stamped _ _).symm
  rw [h.delivered_eq, hmap]
  exact (List.takeWhile_prefix _).map _

/-- **A new message** is not in any segment yet. -/
theorem enqueue (h : s.InOrder startSeq) {msg : Packet}
    {sendQueue : TCPMsgBasedSendQueue Packet} (hpos : 0 < getByteLength msg)
    (hrange : s.InRange (.enqueueAppData msg))
    (henqueue : s.sendQueue.enqueueAppData msg = .ok sendQueue) :
    InOrder startSeq { s with sendQueue, messages := s.messages ++ [msg] } := by
  have hend := endOf_concat startSeq.toNat s.messages msg
  have hle : endOf startSeq.toNat s.messages ≤ endOf startSeq.toNat (s.messages ++ [msg]) := by
    rw [hend]
    exact Nat.le_add_right _ _
  obtain ⟨ps, next, xs, hrcv⟩ := h.receiveQueue
  have hhanded := h.handedOut_le
  exact {
    positive := List.forall_mem_append.2 ⟨h.positive, by simpa using hpos⟩
    sendQueue := by
      rw [sent, stamped_concat, hend]
      exact h.sendQueue.enqueue (fun y hy ↦ (h.bounds hy).2) hpos hrange henqueue
    segments := fun tcpseg hseg ↦ by
      rw [sent, stamped_concat]
      exact (h.segments tcpseg hseg).concat (by dsimp only; omega) hle
    arrived_lt := fun n hn ↦ (h.arrived_lt n hn).trans_le hle
    receiveQueue := by
      rw [sent, stamped_concat]
      refine ⟨ps, next, xs, hrcv.concat fun hin ↦ ?_⟩
      have hlt := h.arrived_lt _ hin
      dsimp only at hlt
      omega
    handedOut_le := hhanded.trans hle
    delivered_eq := by
      rw [h.delivered_eq, sent, sent, stamped_concat, List.takeWhile_append]
      split_ifs with hall
      · rw [List.takeWhile_cons_of_neg (by simpa using by omega), List.append_nil,
          List.takeWhile_eq_self_iff.2 ?_]
        exact List.takeWhile_eq_self_iff.1 ((List.takeWhile_prefix _).eq_of_length hall)
      · rfl }

/-- **A segment that arrives** in the range of the receiver is accepted. -/
theorem insert (h : s.InOrder startSeq) {tcpseg : ℕ × TCPSegment Packet}
    (hallowed : s.Allowed (.insertBytesFromSegment tcpseg))
    (hrange : s.InRange (.insertBytesFromSegment tcpseg)) :
    ∃ s', s.step (.insertBytesFromSegment tcpseg) = .ok s' ∧ s'.InOrder startSeq := by
  obtain ⟨hpos, hle, hlt⟩ := hrange
  have hcarries := h.segments tcpseg hallowed
  obtain ⟨ps, next, xs, hrcv⟩ := h.receiveQueue
  obtain ⟨r', ps', next', xs', hinsert, hrcv'⟩ := hrcv.insert h.ascending hcarries hpos hle hlt
  have hpoints : points (s.arrived ++ [(tcpseg.1, tcpseg.1 + tcpseg.2.payloadLength)]) =
      points s.arrived ∪ Set.Ico tcpseg.1 (tcpseg.1 + tcpseg.2.payloadLength) := by
    rw [← points_reverse, List.reverse_append, List.reverse_singleton, List.singleton_append,
      points_cons, points_reverse, Set.union_comm]
  refine ⟨_, by rw [step, hinsert]; rfl, ?_⟩
  exact { h with
    arrived_lt := by
      dsimp only
      rw [hpoints]
      rintro n (hn | hn)
      · exact h.arrived_lt n hn
      · exact hn.2.trans_le hcarries.end_le
    receiveQueue := by
      rw [stream]
      dsimp only
      rw [hpoints]
      exact ⟨_, _, _, hrcv'⟩ }

/-- The message behind those that were handed out. -/
theorem getElem?_delivered (h : s.InOrder startSeq) :
    (s.sent startSeq)[s.delivered.length]? =
      ((s.sent startSeq).dropWhile (·.1 ≤ s.handedOut)).head? := by
  have hsplit := List.takeWhile_append_dropWhile (p := fun x ↦ decide (x.1 ≤ s.handedOut))
    (l := s.sent startSeq)
  rw [h.delivered_eq, List.length_map]
  nth_rewrite 1 [← hsplit]
  rw [List.getElem?_append_right le_rfl, Nat.sub_self, List.head?_eq_getElem?]

/-- A waiting message that is complete is the next one. -/
theorem dropWhile_eq (h : s.InOrder startSeq)
    (hrcv : ReceiveQueueHolds (s.sent startSeq) (s.stream startSeq) s.receiveQueue ps next (x :: xs))
    (hle : x.1 ≤ next) :
    ∃ rest, (s.sent startSeq).dropWhile (·.1 ≤ s.handedOut) = x :: rest := by
  obtain ⟨hmem, hlt, -⟩ := (hrcv.payload.mem_iff x).1 List.mem_cons_self
  have hx : x ∈ (s.sent startSeq).dropWhile (·.1 ≤ s.handedOut) :=
    (mem_dropWhile h.ascending).2 ⟨hmem, hlt⟩
  cases hdrop : (s.sent startSeq).dropWhile (·.1 ≤ s.handedOut) with
  | nil => rw [hdrop] at hx; cases hx
  | cons y rest =>
    have hasc : Ascending Prod.fst (y :: rest) := hdrop ▸ h.ascending.dropWhile _
    obtain ⟨hy, hylt⟩ := (mem_dropWhile h.ascending).1 (hdrop ▸ List.mem_cons_self : y ∈ _)
    -- neither of the two lies before the other
    have hyx : y.1 ≤ x.1 := by
      rcases List.mem_cons.1 (hdrop ▸ hx) with rfl | hrest
      · exact le_rfl
      · exact (hasc.lt_of_mem hrest).le
    have hxy : x.1 ≤ y.1 := by
      rcases List.mem_cons.1 (hrcv.mem_of_le hy hylt (hyx.trans hle)) with rfl | hrest
      · exact le_rfl
      · exact (hrcv.payload.ascending.lt_of_mem hrest).le
    exact ⟨rest, by rw [h.ascending.eq_of_key_eq hy hmem (hyx.antisymm hxy)]⟩

/-- **An extraction hands out the next message**, if all bytes up to its end have arrived. -/
theorem extract (h : s.InOrder startSeq) :
    ∃ next msg r s', s.receiveQueue.rcvNxt = wrap next ∧ (s.stream startSeq).IsNext next ∧
      s.receiveQueue.extractBytesUpTo s.receiveQueue.rcvNxt = .ok (msg, r) ∧
      (∀ m, msg = some m ↔
        ∃ fin, (s.sent startSeq)[s.delivered.length]? = some (fin, m) ∧ fin ≤ next) ∧
      s.step .extractBytesUpToRcvNxt = .ok s' ∧ s'.InOrder startSeq ∧
      s'.delivered = s.delivered ++ msg.toList ∧ s'.messages = s.messages ∧
      s'.arrived = s.arrived := by
  obtain ⟨ps, next, xs, hrcv⟩ := h.receiveQueue
  have hrcvNxt := hrcv.refines.rcvNxt_eq
  have hnext := hrcv.refines.isNext
  have hfirst := hrcv.refines.getFirstSeqNo_eq
  have hgetElem := h.getElem?_delivered
  -- what the step does to `handedOut`
  have hcount {r' : TCPMsgBasedRcvQueue Packet} {ps' : List (ℕ × ℕ)} {n : ℕ}
      (href : Refines VirtualRegion.At ⟨startSeq.toNat, points s.arrived, n⟩
        r'.toTCPVirtualDataRcvQueue ps' next) (hle : s.handedOut ≤ n) (hlt : n ≤ next) :
      s.handedOut + (r'.getFirstSeqNo - s.receiveQueue.getFirstSeqNo).toNat = n := by
    have hbound := hrcv.refines.next_lt
    rw [href.getFirstSeqNo_eq, hfirst]
    have hsub : (wrap n - wrap s.handedOut).toNat = n - s.handedOut :=
      toNat_wrap_sub_wrap hle (by simp only [stream] at hbound; omega)
    dsimp only [stream]
    rw [hsub]
    omega
  by_cases hcomplete : ∃ x ∈ xs, x.1 ≤ next
  · -- the first waiting message is complete
    obtain ⟨y, hy, hyle⟩ := hcomplete
    obtain _ | ⟨x, xs⟩ := xs
    · cases hy
    have hle : x.1 ≤ next := by
      rcases List.mem_cons.1 hy with rfl | hy
      · exact hyle
      · exact (hrcv.payload.ascending.lt_of_mem hy).le.trans hyle
    obtain ⟨hmem, hlt, -⟩ := (hrcv.payload.mem_iff x).1 List.mem_cons_self
    obtain ⟨r', ps', hextract, hrcv'⟩ := hrcv.extract_some hle
    obtain ⟨rest, hdrop⟩ := h.dropWhile_eq hrcv hle
    refine ⟨next, some x.2, r', _, hrcvNxt, hnext, hextract, fun m ↦ ?_,
      step_extract hextract, ?_, rfl, rfl, rfl⟩
    · rw [hgetElem, hdrop, List.head?_cons, Option.some_inj]
      constructor
      · rintro rfl
        exact ⟨x.1, rfl, hle⟩
      · rintro ⟨fin, heq, -⟩
        rw [Option.some_inj.1 heq]
    · have hhanded := hcount hrcv'.refines hlt.le hle
      dsimp only [Option.toList]
      rw [hhanded]
      exact { h with
        receiveQueue := ⟨ps', next, xs, hrcv'⟩
        handedOut_le := (h.bounds hmem).2
        delivered_eq := by
          have hsplit := List.takeWhile_append_dropWhile (p := fun x ↦ decide (x.1 ≤ s.handedOut))
            (l := s.sent startSeq)
          rw [hdrop] at hsplit
          have hasc := h.ascending
          rw [← hsplit] at hasc
          have hdone : ∀ y ∈ (s.sent startSeq).takeWhile (·.1 ≤ s.handedOut),
              y.1 ≤ s.handedOut := fun y hy ↦ by simpa using List.mem_takeWhile_imp hy
          have htake := (takeWhile_of_next hasc hdone hlt).2
          rw [hsplit] at htake
          show s.delivered ++ [x.2] = ((s.sent startSeq).takeWhile (·.1 ≤ x.1)).map Prod.snd
          rw [htake, List.map_append, h.delivered_eq, List.map_singleton] }
  · have hlt : ∀ y ∈ xs, next < y.1 := fun y hy ↦ not_le.1 fun hle ↦ hcomplete ⟨y, hy, hle⟩
    obtain ⟨r', ps', hextract, hrcv'⟩ := hrcv.extract_none hlt
    have hle := hrcv.refines.first_le
    have hnone (y : ℕ × Packet) (hy : y ∈ s.sent startSeq) (hylt : s.handedOut < y.1) :
        next < y.1 :=
      not_le.1 fun hyle ↦ hcomplete ⟨y, hrcv.mem_of_le hy hylt hyle, hyle⟩
    refine ⟨next, none, r', _, hrcvNxt, hnext, hextract, fun m ↦ ?_,
      step_extract hextract, ?_, rfl, rfl, rfl⟩
    · refine ⟨fun hm ↦ (Option.some_ne_none m hm.symm).elim, ?_⟩
      rintro ⟨fin, heq, hfin⟩
      rw [hgetElem] at heq
      obtain ⟨hy, hylt⟩ := (mem_dropWhile h.ascending).1 (List.mem_of_head? heq)
      exact absurd hfin (not_le.2 (hnone _ hy hylt))
    · have hhanded := hcount hrcv'.refines hle le_rfl
      dsimp only [Option.toList]
      rw [hhanded, List.append_nil]
      exact { h with
        receiveQueue := ⟨ps', next, xs, hrcv'⟩
        handedOut_le := by
          rcases hle.lt_or_eq with hless | heq
          · have hin := h.arrived_lt (next - 1)
              (hrcv.refines.received_of_lt (by omega) (by omega))
            dsimp only
            omega
          · exact heq ▸ h.handedOut_le
        delivered_eq := by
          have htake := takeWhile_map_eq (f := id) (l := s.sent startSeq)
            (p := fun y ↦ decide (y.1 ≤ next)) (q := fun y ↦ decide (y.1 ≤ s.handedOut))
            fun y hy ↦ decide_eq_decide.2
              ⟨fun hyle ↦ not_lt.1 fun hylt ↦ (hnone y hy hylt).not_ge hyle, fun hyle ↦ hyle.trans hle⟩
          rw [List.map_id, List.map_id] at htake
          show s.delivered = ((s.sent startSeq).takeWhile (·.1 ≤ next)).map Prod.snd
          rw [htake, h.delivered_eq] }

/-- Once all bytes have arrived, an extraction hands out a message as long as there is one. -/
theorem extractTimes (h : s.InOrder startSeq)
    (hall : ∀ n, startSeq.toNat ≤ n → n < endOf startSeq.toNat s.messages → n ∈ points s.arrived) :
    ∃ s', s.extractTimes (s.messages.length - s.delivered.length) = .ok s' ∧
      s'.delivered = s.messages := by
  generalize hk : s.messages.length - s.delivered.length = k
  induction k generalizing s with
  | zero =>
    have hlen := h.delivered_isPrefix.length_le
    exact ⟨s, rfl, h.delivered_isPrefix.eq_of_length (by omega)⟩
  | succ k ih =>
    obtain ⟨next, msg, r, s', -, hnext, -, hmsg, hstep, h', hdelivered, hmessages, harrived⟩ :=
      h.extract
    have hlen : s.delivered.length < (s.sent startSeq).length := by
      rw [← List.length_map (f := Prod.snd), sent, map_snd_stamped]
      omega
    obtain ⟨⟨fin, m⟩, hget⟩ : ∃ x, (s.sent startSeq)[s.delivered.length]? = some x :=
      ⟨_, List.getElem?_eq_getElem hlen⟩
    have hfin : fin ≤ next := by
      have hend := (h.bounds (List.mem_of_getElem? hget)).2
      by_contra hlt
      exact hnext.1.2 (hall next hnext.1.1 (by dsimp only at hend; omega))
    have hsome : msg = some m := (hmsg m).2 ⟨fin, hget, hfin⟩
    rw [← hmessages] at hk hall ⊢
    rw [← harrived] at hall
    obtain ⟨s'', htimes, hdone⟩ := ih h' hall (by
      rw [hdelivered, hsome, Option.toList_some, List.length_append, List.length_singleton]
      omega)
    refine ⟨s'', ?_, hdone⟩
    rw [MessageState.extractTimes, hstep]
    exact htimes

/-- **Every step keeps the messages in order**, as long as it is in range. -/
theorem step (h : s.InOrder startSeq) {e : MessageEvent Packet} (hallowed : s.Allowed e)
    (hrange : s.InRange e) (hstep : s.step e = .ok s') : s'.InOrder startSeq := by
  cases e with
  | enqueueAppData msg =>
    obtain ⟨sendQueue, henqueue, hs'⟩ := exists_of_bind_eq_ok hstep
    cases hs'
    exact h.enqueue hallowed hrange henqueue
  | createSegmentWithBytes fromSeq numBytes =>
    obtain ⟨tcpseg, hcreate, hs'⟩ := exists_of_bind_eq_ok hstep
    cases hs'
    have hcarries := h.sendQueue.createSegment (fun y hy ↦ (h.bounds hy).2) hallowed hcreate
    exact { h with
      segments := List.forall_mem_append.2 ⟨h.segments, List.forall_mem_singleton.2 hcarries⟩ }
  | discardUpTo seqNum =>
    obtain ⟨sendQueue, hdiscard, hs'⟩ := exists_of_bind_eq_ok hstep
    cases hs'
    exact { h with sendQueue := h.sendQueue.discard (fun y hy ↦ (h.bounds hy).2) hdiscard }
  | truncateSegment tcpseg firstSeqNo endSeqNo =>
    obtain ⟨tcpseg', htrunc, hs'⟩ := exists_of_bind_eq_ok hstep
    cases hs'
    have hcarries := (h.segments tcpseg hallowed).truncate htrunc
    exact { h with
      segments := List.forall_mem_append.2 ⟨h.segments, List.forall_mem_singleton.2 hcarries⟩ }
  | insertBytesFromSegment tcpseg =>
    obtain ⟨s'', hinsert, h'⟩ := h.insert hallowed hrange
    cases hstep.symm.trans hinsert
    exact h'
  | extractBytesUpToRcvNxt =>
    obtain ⟨-, -, -, s'', -, -, -, -, hextract, h', -⟩ := h.extract
    cases hstep.symm.trans hextract
    exact h'

end InOrder

end MessageState

/-- **The messages are handed out in the order in which they were sent, each once**, in every run
whose steps are in range: an arrival in range is accepted; an extraction returns the next message
exactly if it ends at or before the first byte that has not arrived; and once all bytes have
arrived, extractions return all messages. -/
theorem messages_delivered_inOrder [CPacket Packet] (startSeq : UInt32)
    {tr : List (Transition (MessageState Packet) (MessageEvent Packet) Unit)}
    {s : MessageState Packet} (hrun : (messageStream startSeq).Run tr s)
    (hrange : ∀ t ∈ tr, t.pre.InRange t.input) :
    s.delivered <+: s.messages ∧
    (∀ tcpseg, s.Allowed (.insertBytesFromSegment tcpseg) →
      s.InRange (.insertBytesFromSegment tcpseg) →
        ∃ s', s.step (.insertBytesFromSegment tcpseg) = .ok s') ∧
    (∃ next msg r, s.receiveQueue.rcvNxt = wrap next ∧ (s.stream startSeq).IsNext next ∧
      s.receiveQueue.extractBytesUpTo s.receiveQueue.rcvNxt = .ok (msg, r) ∧
      ∀ m, msg = some m ↔
        ∃ fin, (s.sent startSeq)[s.delivered.length]? = some (fin, m) ∧ fin ≤ next) ∧
    ((∀ n, startSeq.toNat ≤ n → n < endOf startSeq.toNat s.messages → n ∈ points s.arrived) →
      ∃ s', s.extractTimes (s.messages.length - s.delivered.length) = .ok s' ∧
        s'.delivered = s.messages) := by
  have hinOrder : (∀ t ∈ tr, t.pre.InRange t.input) → s.InOrder startSeq :=
    hrun.history (P := fun tr s ↦ (∀ t ∈ tr, t.pre.InRange t.input) → s.InOrder startSeq)
      (fun s hs _ ↦ hs ▸ MessageState.inOrder_init startSeq)
      (fun tr s e _ s' _ ih hstep hrange ↦ by
        rw [List.forall_mem_append] at hrange
        exact (ih hrange.1).step hstep.1 (hrange.2 _ (List.mem_singleton.2 rfl)) hstep.2)
  have h := hinOrder hrange
  refine ⟨h.delivered_isPrefix, fun tcpseg hallowed hin ↦ ?_, ?_, h.extractTimes⟩
  · obtain ⟨s', hinsert, -⟩ := h.insert hallowed hin
    exact ⟨s', hinsert⟩
  · obtain ⟨next, msg, r, -, hrcvNxt, hnext, hextract, hmsg, -⟩ := h.extract
    exact ⟨next, msg, r, hrcvNxt, hnext, hextract, hmsg⟩

/-! ### Some runs -/

/-- A message object with a name. -/
structure NamedPacket where
  name : ℕ
  byteLength : ℕ
  deriving DecidableEq, Repr

instance : CPacket NamedPacket where
  getByteLength := NamedPacket.byteLength

open TransitionSystem

/-- The state after some events; what fails is left out. -/
def MessageState.afterEvents (startSeq : UInt32) (events : List (MessageEvent NamedPacket)) :
    MessageState NamedPacket :=
  stateAfter (orStay MessageState.step) (.init startSeq) events

/-- Events that are allowed and do not fail make a run. -/
theorem MessageState.run_of_events (startSeq : UInt32) (events : List (MessageEvent NamedPacket))
    (h : ∀ t ∈ transitionsOf (orStay MessageState.step) (.init startSeq) events,
      t.pre.Allowed t.input ∧ t.pre.step t.input = .ok (orStay step t.pre t.input).1) :
    (messageStream startSeq).Run (transitionsOf (orStay MessageState.step) (.init startSeq) events)
      (afterEvents startSeq events) :=
  Run.ofFallible (C := MessageState.Allowed) rfl (fun _ _ _ ha hs ↦ ⟨ha, hs⟩) h

/-- A segment of one of the runs. -/
def messageSegment (sequenceNo : UInt32) (payloadLength : ℕ)
    (payloadList : List (TCPPayloadMessage NamedPacket)) : TCPSegment NamedPacket :=
  { sequenceNo, payloadLength, payloadList }

/-- Two messages across the wrap-around. The second half of the stream arrives first, both halves
are cut again, and the new segment arrives truncated. -/
def cutAgain : List (MessageEvent NamedPacket) :=
  [.enqueueAppData ⟨0, 10⟩, .enqueueAppData ⟨1, 6⟩, .createSegmentWithBytes 4294967294 8,
    .createSegmentWithBytes 6 8,
    .insertBytesFromSegment (4294967302, messageSegment 6 8 [⟨8, ⟨0, 10⟩⟩, ⟨14, ⟨1, 6⟩⟩]),
    .extractBytesUpToRcvNxt,
    .insertBytesFromSegment (4294967294, messageSegment 4294967294 8 []),
    .extractBytesUpToRcvNxt, .discardUpTo 6, .createSegmentWithBytes 6 4,
    .truncateSegment (4294967302, messageSegment 6 4 [⟨8, ⟨0, 10⟩⟩]) 8 100,
    .insertBytesFromSegment (4294967304, messageSegment 8 2 []), .extractBytesUpToRcvNxt]

theorem messages_delivered_inOrder_cutAgain :
    (MessageState.afterEvents 4294967294 cutAgain).delivered <+:
      (MessageState.afterEvents 4294967294 cutAgain).messages :=
  (messages_delivered_inOrder 4294967294
    (MessageState.run_of_events 4294967294 cutAgain (by decide)) (by decide)).1

/-- A segment arrives once more after its message was handed out. -/
def arrivesAgain : List (MessageEvent NamedPacket) :=
  [.enqueueAppData ⟨0, 10⟩, .createSegmentWithBytes 0 10,
    .insertBytesFromSegment (0, messageSegment 0 10 [⟨10, ⟨0, 10⟩⟩]), .extractBytesUpToRcvNxt,
    .insertBytesFromSegment (0, messageSegment 0 10 [⟨10, ⟨0, 10⟩⟩]), .extractBytesUpToRcvNxt]

/-- A message that is longer than the number space. -/
def tooLong : List (MessageEvent NamedPacket) :=
  [.enqueueAppData ⟨0, 4294967301⟩, .createSegmentWithBytes 0 5,
    .insertBytesFromSegment (0, messageSegment 0 5 [⟨5, ⟨0, 4294967301⟩⟩]),
    .extractBytesUpToRcvNxt]

/-- A segment without data arrives first. -/
def withoutData : List (MessageEvent NamedPacket) :=
  [.enqueueAppData ⟨0, 10⟩, .createSegmentWithBytes 5 0, .createSegmentWithBytes 5 5,
    .insertBytesFromSegment (5, messageSegment 5 0 [])]

/-- **Out of range the messages may go wrong.** A segment that arrives again after its message was
handed out brings the message again; a message that is longer than the number space is handed out
after a few of its bytes; and after a segment without data the next one is refused. -/
theorem messages_outside :
    (∃ tr s, (messageStream 0).Run tr s ∧ tr.map Transition.input = arrivesAgain ∧
      s.messages = [⟨0, 10⟩] ∧ s.delivered = [⟨0, 10⟩, ⟨0, 10⟩] ∧ ¬ s.delivered <+: s.messages) ∧
    (∃ tr s, (messageStream 0).Run tr s ∧ tr.map Transition.input = tooLong ∧
      s.delivered = [⟨0, 4294967301⟩] ∧ s.arrived = [(0, 5)]) ∧
    (∃ tr s, (messageStream 0).Run tr s ∧ tr.map Transition.input = withoutData ∧
      s.Allowed (.insertBytesFromSegment (5, messageSegment 5 5 [⟨10, ⟨0, 10⟩⟩])) ∧
      s.step (.insertBytesFromSegment (5, messageSegment 5 5 [⟨10, ⟨0, 10⟩⟩])) =
        .error (.outOfAcceptableRange 5 10)) :=
  ⟨⟨_, _, MessageState.run_of_events 0 arrivesAgain (by decide), by decide, by decide,
      by decide, by decide⟩,
    ⟨_, _, MessageState.run_of_events 0 tooLong (by decide), by decide, by decide,
      by decide⟩,
    ⟨_, _, MessageState.run_of_events 0 withoutData (by decide), by decide, by decide,
      by decide⟩⟩

end Inet.Tcp
