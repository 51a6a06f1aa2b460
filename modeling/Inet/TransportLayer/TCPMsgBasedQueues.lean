import Inet.Foundations.AscendingKeys
import Inet.TransportLayer.TCPVirtualDataRcvQueue

/-!
# Queues that keep messages

`TCPMsgBasedSendQueue` keeps the message objects of the application, each under the sequence number
behind its last byte, and attaches to a segment those whose last byte it holds.
`TCPMsgBasedRcvQueue` counts bytes and collects the messages of the segments, without duplicates, in
the order of their sequence numbers; a message is handed out with the region that ends where it
ends.
-/

namespace Inet.Tcp

open SerialNumber AscendingKeys

/-- The class of the message objects: `cPacket::getByteLength`. -/
class CPacket (Packet : Type) where
  getByteLength : Packet → ℕ

variable {Packet : Type}

/-! ### Sending -/

/-- `TCPMsgBasedSendQueue`; `begin` and `end` are read by `getBufferStartSeq` and
`getBufferEndSeq`. -/
structure TCPMsgBasedSendQueue (Packet : Type) where
  payloadQueue : List (TCPPayloadMessage Packet) := []
  bufferStartSeq : UInt32 := 0
  bufferEndSeq : UInt32 := 0
  deriving DecidableEq, Repr

namespace TCPMsgBasedSendQueue

/-- `TCPMsgBasedSendQueue::init`. -/
def init (startSeq : UInt32) : TCPMsgBasedSendQueue Packet where
  bufferStartSeq := startSeq
  bufferEndSeq := startSeq

/-- `TCPMsgBasedSendQueue::enqueueAppData`. -/
def enqueueAppData [CPacket Packet] (q : TCPMsgBasedSendQueue Packet) (msg : Packet) :
    Except RuntimeError (TCPMsgBasedSendQueue Packet) :=
  let bufferEndSeq := q.bufferEndSeq + UInt32.ofNat (CPacket.getByteLength msg)
  if seqLess bufferEndSeq q.bufferStartSeq then .error .sendQueueIsFull
  else .ok { q with bufferEndSeq, payloadQueue := q.payloadQueue ++ [⟨bufferEndSeq, msg⟩] }

/-- `TCPMsgBasedSendQueue::createSegmentWithBytes`. -/
def createSegmentWithBytes (q : TCPMsgBasedSendQueue Packet) (fromSeq : UInt32) (numBytes : ℕ) :
    Except RuntimeError (TCPSegment Packet) :=
  let toSeq := fromSeq + UInt32.ofNat numBytes
  if seqLE q.bufferStartSeq fromSeq ∧ seqLE toSeq q.bufferEndSeq then
    let skipped := q.payloadQueue.dropWhile (seqLE ·.endSequenceNo fromSeq)
    let payloadList := skipped.takeWhile (seqLE ·.endSequenceNo toSeq)
    .ok { sequenceNo := fromSeq, payloadLength := numBytes, payloadList }
  else .error .assertionFailed

/-- `TCPMsgBasedSendQueue::discardUpTo`. -/
def discardUpTo (q : TCPMsgBasedSendQueue Packet) (seqNum : UInt32) :
    Except RuntimeError (TCPMsgBasedSendQueue Packet) :=
  if seqLE q.bufferStartSeq seqNum ∧ seqLE seqNum q.bufferEndSeq then
    .ok { q with
      bufferStartSeq := seqNum
      payloadQueue := q.payloadQueue.dropWhile (seqLE ·.endSequenceNo seqNum) }
  else .error .assertionFailed

end TCPMsgBasedSendQueue

/-! ### Receiving -/

/-- `TCPMsgBasedRcvQueue::PayloadItem`. -/
structure PayloadItem (Packet : Type) where
  seqNo : UInt32
  packet : Packet
  deriving DecidableEq, Repr

/-- `TCPMsgBasedRcvQueue`. -/
structure TCPMsgBasedRcvQueue (Packet : Type) extends TCPVirtualDataRcvQueue VirtualRegion where
  payloadList : List (PayloadItem Packet) := []
  deriving DecidableEq, Repr

namespace TCPMsgBasedRcvQueue

/-- `TCPMsgBasedRcvQueue::init` on a new queue. -/
def init (startSeq : UInt32) : TCPMsgBasedRcvQueue Packet where
  toTCPVirtualDataRcvQueue := .init startSeq

/-- The assertion that the first entry is not behind the last one. -/
def checkOrder (payloadList : List (PayloadItem Packet)) : Except RuntimeError Unit :=
  match payloadList.head?, payloadList.getLast? with
  | some front, some back =>
    if seqLE front.seqNo back.seqNo then .ok () else .error .assertionFailed
  | _, _ => .ok ()

/-- The loop of `insertBytesFromSegment` over the messages of a segment. Its iterator stands between
`done` and `rest`. -/
def insertPayload (done rest : List (PayloadItem Packet)) :
    List (TCPPayloadMessage Packet) → Except RuntimeError (List (PayloadItem Packet))
  | [] => .ok (done ++ rest)
  | p :: payload =>
    let before := rest.takeWhile (seqLess ·.seqNo p.endSequenceNo)
    let after := rest.dropWhile (seqLess ·.seqNo p.endSequenceNo)
    if after.head?.map PayloadItem.seqNo = some p.endSequenceNo then
      insertPayload (done ++ before) after payload
    else do
      let after := ⟨p.endSequenceNo, p.msg⟩ :: after
      checkOrder (done ++ before ++ after)
      insertPayload (done ++ before) after payload

/-- `TCPMsgBasedRcvQueue::insertBytesFromSegment`. -/
def insertBytesFromSegment (q : TCPMsgBasedRcvQueue Packet) (tcpseg : TCPSegment Packet) :
    Except RuntimeError (TCPMsgBasedRcvQueue Packet) := do
  let toTCPVirtualDataRcvQueue ← q.toTCPVirtualDataRcvQueue.insertBytesFromSegment tcpseg
  let payloadList ← insertPayload [] q.payloadList tcpseg.payloadList
  return { toTCPVirtualDataRcvQueue, payloadList }

/-- The end of the first message, if it lies before `seq`. -/
def extractionEnd (payloadList : List (PayloadItem Packet)) (seq : UInt32) : UInt32 :=
  match payloadList with
  | [] => seq
  | front :: _ => if seqLess front.seqNo seq then front.seqNo else seq

/-- `TCPMsgBasedRcvQueue::extractBytesUpTo`. -/
def extractBytesUpTo (q : TCPMsgBasedRcvQueue Packet) (seq : UInt32) :
    Except RuntimeError (Option Packet × TCPMsgBasedRcvQueue Packet) := do
  let (reg, base) ← q.toTCPVirtualDataRcvQueue.extractTo (extractionEnd q.payloadList seq)
  match reg, q.payloadList with
  | some reg, front :: rest =>
    if front.seqNo = reg.getEnd then
      return (some front.packet, { toTCPVirtualDataRcvQueue := base, payloadList := rest })
    else return (none, { q with toTCPVirtualDataRcvQueue := base })
  | _, _ => return (none, { q with toTCPVirtualDataRcvQueue := base })

end TCPMsgBasedRcvQueue

/-! ### Messages at positions of the stream

A message together with the position behind its last byte. As long as all positions lie in one half
of the number space, the queues order messages by their positions. -/

/-- The entry of a segment or of the send queue for a message. -/
def TCPPayloadMessage.at (x : ℕ × Packet) : TCPPayloadMessage Packet :=
  ⟨wrap x.1, x.2⟩

/-- The entry of the receive queue for a message. -/
def PayloadItem.at (x : ℕ × Packet) : PayloadItem Packet :=
  ⟨wrap x.1, x.2⟩

/-- The messages end in the half of the number space behind `first`. -/
def EndsWithin (first : ℕ) (xs : List (ℕ × Packet)) : Prop :=
  ∀ x ∈ xs, first < x.1 ∧ x.1 < first + 2 ^ 31

variable {first : ℕ} {done rest zs xs : List (ℕ × Packet)} {x z : ℕ × Packet}

theorem EndsWithin.near (h : EndsWithin first xs) (hx : x ∈ xs) (hz : z ∈ xs) : Near x.1 z.1 := by
  have := h x hx
  have := h z hz
  exact ⟨by omega, by omega⟩

theorem EndsWithin.subset (h : EndsWithin first xs) {ys : List (ℕ × Packet)} (hys : ys ⊆ xs) :
    EndsWithin first ys :=
  fun x hx ↦ h x (hys hx)

namespace TCPMsgBasedRcvQueue

/-- The assertion holds of messages in the order of their positions. -/
theorem checkOrder_map (h : EndsWithin first xs) (hxs : Ascending Prod.fst xs) :
    checkOrder (xs.map PayloadItem.at) = .ok () := by
  unfold checkOrder
  split
  · rename_i front back hfront hback
    rw [List.head?_map, Option.map_eq_some_iff] at hfront
    rw [List.getLast?_map, Option.map_eq_some_iff] at hback
    obtain ⟨x, hx, rfl⟩ := hfront
    obtain ⟨z, hz, rfl⟩ := hback
    have hle : x.1 ≤ z.1 := by
      obtain ⟨l, rfl⟩ := List.head?_eq_some_iff.1 hx
      rcases List.mem_cons.1 (List.mem_of_getLast? hz) with rfl | hmem
      · exact le_rfl
      · exact (hxs.lt_of_mem hmem).le
    refine if_pos ?_
    have hnear := h.near (List.mem_of_head? hx) (List.mem_of_getLast? hz)
    exact (seqLE_wrap hnear).2 hle
  · rfl

/-- **Inserting the messages of a segment is merging them** into the messages that are there. -/
theorem insertPayload_map (h : EndsWithin first (done ++ rest ++ zs))
    (hlist : Ascending Prod.fst (done ++ rest)) (hz : Ascending Prod.fst zs)
    (hdone : ∀ y ∈ done, ∀ z ∈ zs, y.1 < z.1) :
    insertPayload (done.map PayloadItem.at) (rest.map PayloadItem.at)
        (zs.map TCPPayloadMessage.at) =
      .ok ((mergeInto Prod.fst done rest zs).map PayloadItem.at) := by
  induction zs generalizing done rest with
  | nil => simp [insertPayload, mergeInto]
  | cons z zs ih =>
    obtain ⟨hsplit, hbefore, hnew⟩ :=
      mergeInto_round hlist fun y hy ↦ hdone y hy z List.mem_cons_self
    have hpassed : ∀ y ∈ done ++ rest.takeWhile (·.1 < z.1), ∀ w ∈ zs, y.1 < w.1 :=
      fun y hy w hw ↦ (hbefore y hy).trans (hz.lt_of_mem hw)
    have hnear (x : ℕ × Packet) (hx : x ∈ rest) : Near x.1 z.1 :=
      h.near (by simp [hx]) (by simp)
    have hless (x : ℕ × Packet) (hx : x ∈ rest) :
        decide (seqLess (PayloadItem.at x).seqNo (TCPPayloadMessage.at z).endSequenceNo) =
          decide (x.1 < z.1) :=
      decide_eq_decide.2 (seqLess_wrap (hnear x hx))
    have hhead : ((rest.dropWhile (·.1 < z.1)).map PayloadItem.at).head?.map PayloadItem.seqNo =
        some (TCPPayloadMessage.at z).endSequenceNo ↔
          (rest.dropWhile (·.1 < z.1)).head?.map Prod.fst = some z.1 := by
      cases hafter : rest.dropWhile (·.1 < z.1) with
      | nil => simp
      | cons w after =>
        have hw : w ∈ rest := List.dropWhile_subset _ (hafter ▸ List.mem_cons_self)
        rw [List.map_cons, List.head?_cons, List.head?_cons, Option.map_some, Option.map_some,
          Option.some_inj, Option.some_inj]
        exact wrap_eq_wrap (hnear w hw)
    rw [List.map_cons, insertPayload, mergeInto, dropWhile_map_eq hless, takeWhile_map_eq hless]
    dsimp only
    by_cases heq : (rest.dropWhile (·.1 < z.1)).head?.map Prod.fst = some z.1
    · rw [if_pos (hhead.2 heq), if_pos heq, ← List.map_append]
      refine ih ?_ (hsplit ▸ hlist) hz.tail hpassed
      rw [← hsplit]
      refine h.subset fun x hx ↦ ?_
      simp only [List.mem_append, List.mem_cons] at hx ⊢
      tauto
    · have hwithin : EndsWithin first
          (done ++ rest.takeWhile (·.1 < z.1) ++ z :: rest.dropWhile (·.1 < z.1) ++ zs) := by
        refine h.subset fun x hx ↦ ?_
        rw [hsplit]
        simp only [List.mem_append, List.mem_cons] at hx ⊢
        tauto
      have hcheck := checkOrder_map (hwithin.subset (List.subset_append_left _ _)) (hnew heq)
      rw [List.map_append, List.map_append, List.map_cons] at hcheck
      have hrest := ih hwithin (hnew heq) hz.tail hpassed
      rw [List.map_append, List.map_cons] at hrest
      rw [if_neg (mt hhead.1 heq), if_neg heq]
      show (checkOrder (done.map _ ++ _ ++ PayloadItem.at z :: _)).bind _ = _
      rw [hcheck]
      exact hrest

end TCPMsgBasedRcvQueue

end Inet.Tcp
