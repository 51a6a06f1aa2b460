import Inet.Foundations.TransitionSystem
import Inet.TransportLayer.ReceiveStream
import Inet.TransportLayer.SackReports

/-!
# A receiver and its answers

Beside the connection, a `Receiver` keeps the positions of the stream behind the sequence numbers:
that of `rcv_nxt`, the intervals whose bytes have gone into the receive queue, and those that the
entries of `sacks_array` stood for when the array was last changed.

`Ready` relates a connection to these positions. What a segment does to it is followed through
`processSegment1stThru8th`: the answers say what has been received, and no assertion of `addSacks`
fails, if the entries that `rcv_nxt` has passed are seen to be passed (`Safe`,
`safe_processSegment1stThru8th`).
-/

namespace Inet.Tcp

open SerialNumber IntervalList

/-- A connection, with what its sequence numbers stand for. The stream starts at `start`, `next` is
the position of `rcv_nxt`, `received` has the intervals that have gone into the receive queue, and
`noted` those of the entries of `sacks_array`, read when the array was last changed. `replies` is
what the last event has sent. -/
structure Receiver where
  conn : TCPConnection
  start : ℕ
  next : ℕ
  received : List (ℕ × ℕ) := []
  noted : List (ℕ × ℕ) := []
  replies : List Reply := []
  deriving DecidableEq, Repr

/-- What can happen: a segment arrives, the sending half or a timer sends one, the application
reads, or the FSM moves for another reason than a FIN. -/
inductive ReceiverEvent
  | arrive (a : Arrival)
  | send (time : UInt32)
  | read
  | enter (s : TCPState)
  deriving DecidableEq, Repr

/-- What the connection does. -/
def TCPConnection.handle (conn : TCPConnection) :
    ReceiverEvent → Except ReceiveError (TCPConnection × List Reply)
  | .arrive a => conn.processSegment1stThru8th a
  | .send time => (conn.sendAck time).map fun r ↦ (r.1, [r.2])
  | .read => conn.forwardData.map (·, [])
  | .enter s => .ok ({ conn with fsmState := s }, [])

/-- The text that an event puts into the receive queue. -/
def TCPConnection.insertedText (conn : TCPConnection) : ReceiverEvent → Option (TCPSegment Unit)
  | .arrive a =>
    if conn.IsSegmentAcceptable a ∧ ¬ (a.tcpseg.rstBit ∨ a.tcpseg.synBit) ∧ a.ackPasses ∧
        conn.fsmState.ProcessesText ∧ 0 < a.tcpseg.payloadLength then
      (conn.textToInsert a.tcpseg).toOption.join
    else none
  | _ => none

/-- The interval of a segment's text. -/
def textAt (n : ℕ) (tcpseg : TCPSegment Unit) : ℕ × ℕ :=
  (nearest n tcpseg.sequenceNo, nearest n tcpseg.sequenceNo + tcpseg.payloadLength)

/-- The position of a sequence number at or after a given one. -/
def ahead (n : ℕ) (seq : UInt32) : ℕ :=
  n + (seq - wrap n).toNat

namespace Receiver

/-- The interval of a block. -/
def interval (n : ℕ) (s : Sack) : ℕ × ℕ :=
  (nearest n s.start, nearest n s.stop)

/-- The interval that an event puts into the receive queue. -/
def inserted (r : Receiver) (e : ReceiverEvent) : List (ℕ × ℕ) :=
  ((r.conn.insertedText e).map (textAt r.next)).toList

/-- What an event does. -/
def step (r : Receiver) (e : ReceiverEvent) : Except ReceiveError Receiver := do
  let (conn, replies) ← r.conn.handle e
  let next := ahead r.next conn.rcvNxt
  let noted :=
    if replies.any Reply.sacksAdded then conn.sacksArray.map (interval next) else r.noted
  return { r with conn, next, noted, replies, received := r.received ++ r.inserted e }

/-- A segment brings bytes of the stream that are less than half the number space away from
`rcv_nxt`. -/
def ArrivesNear (r : Receiver) : ReceiverEvent → Prop
  | .arrive a => 0 < a.tcpseg.payloadLength → ∃ pos, a.tcpseg.sequenceNo = wrap pos ∧
      r.start ≤ pos ∧ r.next < pos + 2 ^ 31 ∧ pos + a.tcpseg.payloadLength < r.next + 2 ^ 31
  | _ => True

/-- The FSM does not come back to the states in which options are written. -/
def Follows (r : Receiver) : ReceiverEvent → Prop
  | .enter s => s.WritesOptions → s.ProcessesText ∧ r.conn.fsmState.ProcessesText
  | _ => True

instance (r : Receiver) : (e : ReceiverEvent) → Decidable (r.Follows e)
  | .arrive _ | .send _ | .read => inferInstanceAs (Decidable True)
  | .enter _ => inferInstanceAs (Decidable (_ → _ ∧ _))

/-- What has been passed is seen to be passed. -/
def SeesPassed (noted : List (ℕ × ℕ)) (n : ℕ) : Prop :=
  ∀ e ∈ noted, e.2 ≤ n → seqLE (wrap e.2) (wrap n)

instance (noted : List (ℕ × ℕ)) (n : ℕ) : Decidable (SeesPassed noted n) :=
  inferInstanceAs (Decidable (∀ e ∈ noted, _ → _))

/-- A connection that has been established and has not received any data. -/
structure Starts (r : Receiver) : Prop where
  next_eq : r.next = r.start
  rcvNxt_eq : r.conn.rcvNxt = wrap r.start
  receiveQueue_eq : r.conn.receiveQueue = .init (wrap r.start)
  processesText : r.conn.fsmState.ProcessesText
  maxRcvBuffer_lt : r.conn.maxRcvBuffer.toNat + 1 < 2 ^ 31
  sacksArray_eq : r.conn.sacksArray = []
  sndSack : r.conn.sndSack = false
  sndDsack : r.conn.sndDsack = false
  received_eq : r.received = []
  noted_eq : r.noted = []
  replies_eq : r.replies = []

/-- The bytes of a block, read next to `rcv_nxt`. -/
def octets (r : Receiver) (s : Sack) : Set ℕ :=
  Set.Ico (nearest r.next s.start) (nearest r.next s.stop)

/-- A block at or above `rcv_nxt`, inside a region of the receive queue. -/
def LiesAbove (r : Receiver) (s : Sack) : Prop :=
  seqLE r.conn.rcvNxt s.start ∧ ∃ region ∈ r.conn.receiveQueue.regionList,
    seqLE region.getBegin s.start ∧ seqLE s.stop region.getEnd

/-- What is claimed of an answer. Its first block may be a D-SACK, or that of a segment which has
filled a gap. -/
structure Sound (r : Receiver) (reply : Reply) : Prop where
  options_le : reply.tcpseg.headerOptionArrayLength ≤ 40
  received : ∀ s ∈ reply.tcpseg.blocks, (r.octets s).Nonempty ∧ r.octets s ⊆ points r.received
  above : ∀ s ∈ reply.tcpseg.blocks.tail, r.LiesAbove s
  first : reply.dsack = false → ∀ s ∈ reply.tcpseg.blocks.head?,
    seqLE s.stop r.conn.rcvNxt ∨ r.LiesAbove s
  once : (if reply.dsack then reply.tcpseg.blocks.tail else reply.tcpseg.blocks).Pairwise
    fun s t ↦ ∀ x ∈ r.octets s, x ∉ r.octets t

end Receiver

/-- The receiver as a transition system. -/
def sackReceiver : TransitionSystem Receiver ReceiverEvent Unit where
  Init := Receiver.Starts
  Step r e _ r' := r.Follows e ∧ r.step e = .ok r'

/-! ### The queue around a segment -/

section Queue

variable {σ : Stream} {q : TCPVirtualDataRcvQueue VirtualRegion} {ps : List (ℕ × ℕ)}
  {e : ℕ × ℕ} {next k n a b : ℕ}

/-- Everything before the first byte that is missing has been received. -/
theorem Refines.received_below (h : Refines VirtualRegion.At σ q ps next) (hle : σ.start ≤ n)
    (hlt : n < next) : n ∈ σ.received := by
  by_contra hn
  exact absurd (h.isNext.2 ⟨hle, hn⟩) (not_le.2 hlt)

/-- Received bytes that are not below the first missing byte are in one region. -/
theorem Refines.liesAbove (h : Refines VirtualRegion.At σ q ps next) (he : e.1 < e.2)
    (hsub : Set.Ico e.1 e.2 ⊆ σ.received) (hn : next ≤ n) (hn' : n ≤ next + 1) (hlt : n < e.2) :
    TCPConnection.LiesAbove ps n e := by
  have hbegin : next < e.1 := by
    by_contra hle
    exact h.isNext.1.2 (hsub ⟨not_lt.1 hle, hn.trans_lt hlt⟩)
  refine ⟨by omega, h.canonical.exists_of_Ico_subset he fun x hx ↦ h.mem_points_iff.2 ⟨hsub hx, ?_⟩⟩
  exact h.first_le.trans (hbegin.le.trans hx.1)

/-- The first missing byte is not behind the end of the buffer. -/
theorem Refines.next_le (h : Refines VirtualRegion.At σ q ps next) (hfirst : σ.first ≤ k)
    (hends : ∀ p ∈ ps, p.2 ≤ k) : next ≤ k := by
  rcases h.first_le.lt_or_eq with hlt | heq
  · obtain ⟨p, hp, hmem⟩ := h.mem_points_iff.2
      ⟨h.received_of_lt (n := next - 1) (by omega) (by omega), by omega⟩
    have := hends p hp
    have := hmem.2
    omega
  · exact heq ▸ hfirst

/-- `getLE` finds the region around a position. -/
theorem Refines.getLE (h : Refines VirtualRegion.At σ q ps next)
    (hnear : ∀ p ∈ ps, Near p.1 a ∧ Near a p.2) :
    q.getLE (wrap a) = wrap a ∧ (∀ p ∈ ps, ¬ (p.1 ≤ a ∧ a < p.2)) ∨
      ∃ p ∈ ps, p.1 ≤ a ∧ a < p.2 ∧ q.getLE (wrap a) = wrap p.1 := by
  have hiff {i : VirtualRegion} {p : ℕ × ℕ} (hp : p ∈ ps) (hi : VirtualRegion.At i p) :
      seqLE (Region.getBegin i) (wrap a) ∧ seqLess (wrap a) (Region.getEnd i) ↔
        p.1 ≤ a ∧ a < p.2 := by
    rw [RegionAt.getBegin_eq hi, RegionAt.getEnd_eq hi, seqLE_wrap (hnear p hp).1,
      seqLess_wrap (hnear p hp).2]
  rw [TCPVirtualDataRcvQueue.getLE]
  split
  · rename_i i hfind
    obtain ⟨p, hp, hi⟩ :=
      exists_of_mem_right h.regions.flip (List.mem_of_find?_eq_some hfind)
    have hfound := (hiff hp hi).1 (by simpa using List.find?_some hfind)
    exact .inr ⟨p, hp, hfound.1, hfound.2, congrArg Region.getBegin hi⟩
  · rename_i hfind
    refine .inl ⟨rfl, fun p hp hmem ↦ ?_⟩
    obtain ⟨i, hi, hat⟩ := exists_of_mem_right h.regions hp
    exact List.find?_eq_none.1 hfind i hi (by simpa using (hiff hp hat).2 hmem)

/-- `getRE` finds the region that ends at or behind a position. -/
theorem Refines.getRE (h : Refines VirtualRegion.At σ q ps next)
    (hnear : ∀ p ∈ ps, Near p.1 b ∧ Near b p.2) :
    q.getRE (wrap b) = wrap b ∧ (∀ p ∈ ps, ¬ (p.1 < b ∧ b ≤ p.2)) ∨
      ∃ p ∈ ps, p.1 < b ∧ b ≤ p.2 ∧ q.getRE (wrap b) = wrap p.2 := by
  have hiff {i : VirtualRegion} {p : ℕ × ℕ} (hp : p ∈ ps) (hi : VirtualRegion.At i p) :
      seqLess (Region.getBegin i) (wrap b) ∧ seqLE (wrap b) (Region.getEnd i) ↔
        p.1 < b ∧ b ≤ p.2 := by
    rw [RegionAt.getBegin_eq hi, RegionAt.getEnd_eq hi, seqLess_wrap (hnear p hp).1,
      seqLE_wrap (hnear p hp).2]
  rw [TCPVirtualDataRcvQueue.getRE]
  split
  · rename_i i hfind
    obtain ⟨p, hp, hi⟩ :=
      exists_of_mem_right h.regions.flip (List.mem_of_find?_eq_some hfind)
    have hfound := (hiff hp hi).1 (by simpa using List.find?_some hfind)
    exact .inr ⟨p, hp, hfound.1, hfound.2, congrArg Region.getEnd hi⟩
  · rename_i hfind
    refine .inl ⟨rfl, fun p hp hmem ↦ ?_⟩
    obtain ⟨i, hi, hat⟩ := exists_of_mem_right h.regions hp
    exact List.find?_eq_none.1 hfind i hi (by simpa using (hiff hp hat).2 hmem)

/-- Inside a region, the two find its ends. -/
theorem Refines.getLE_getRE_of_mem (h : Refines VirtualRegion.At σ q ps next)
    (hnear : ∀ p ∈ ps, ∀ n, a ≤ n → n ≤ b → Near p.1 n ∧ Near n p.2) (he : e ∈ ps)
    (hle : e.1 ≤ a) (hlt : a < b) (hle' : b ≤ e.2) :
    q.getLE (wrap a) = wrap e.1 ∧ q.getRE (wrap b) = wrap e.2 := by
  constructor
  · rcases h.getLE fun p hp ↦ hnear p hp a le_rfl hlt.le with ⟨-, hnone⟩ | ⟨p, hp, hbegin, hend, heq⟩
    · exact absurd ⟨hle, by omega⟩ (hnone e he)
    · have hpe : p = e := h.canonical.eq_of_mem (x := a) hp he ⟨hbegin, hend⟩ ⟨hle, by omega⟩
      rw [heq, hpe]
  · rcases h.getRE fun p hp ↦ hnear p hp b hlt.le le_rfl with ⟨-, hnone⟩ | ⟨p, hp, hbegin, hend, heq⟩
    · exact absurd ⟨by omega, hle'⟩ (hnone e he)
    · have hpe : p = e := h.canonical.eq_of_mem (x := b - 1) hp he ⟨by omega, by omega⟩
        ⟨by omega, by omega⟩
      rw [heq, hpe]

/-- Below the first missing byte, they find what has been received around the segment. -/
theorem Refines.getLE_getRE_below (h : Refines VirtualRegion.At σ q ps next)
    (hnear : ∀ p ∈ ps, ∀ n, a ≤ n → n ≤ b → Near p.1 n ∧ Near n p.2) (hlt : a < b)
    (hle : b ≤ next) :
    ∃ a' b', q.getLE (wrap a) = wrap a' ∧ q.getRE (wrap b) = wrap b' ∧ a' ≤ a ∧
      (a' = a ∨ σ.first ≤ a') ∧ b ≤ b' ∧ b' ≤ next := by
  have hbegin : ∃ a', q.getLE (wrap a) = wrap a' ∧ a' ≤ a ∧ (a' = a ∨ σ.first ≤ a') := by
    rcases h.getLE fun p hp ↦ hnear p hp a le_rfl hlt.le with ⟨heq, -⟩ | ⟨p, hp, hle, -, heq⟩
    · exact ⟨a, heq, le_rfl, .inl rfl⟩
    · exact ⟨p.1, heq, hle, .inr (h.within hp).le⟩
  have hend : ∃ b', q.getRE (wrap b) = wrap b' ∧ b ≤ b' ∧ b' ≤ next := by
    rcases h.getRE fun p hp ↦ hnear p hp b hlt.le le_rfl with ⟨heq, -⟩ | ⟨p, hp, hlt', hle', heq⟩
    · exact ⟨b, heq, le_rfl, hle⟩
    · -- the first missing byte is not in the region
      refine ⟨p.2, heq, hle', not_lt.1 fun hlt'' ↦ h.next_notMem ⟨p, hp, by omega, hlt''⟩⟩
  obtain ⟨a', ha', hle₁, hor⟩ := hbegin
  obtain ⟨b', hb', hle₂, hle₃⟩ := hend
  exact ⟨a', b', ha', hb', hle₁, hor, hle₂, hle₃⟩

end Queue

/-! ### A connection between two events, or inside of one -/

theorem ahead_wrap {m n : ℕ} (hle : m ≤ n) (hlt : n < m + 2 ^ 32) : ahead m (wrap n) = n := by
  rw [ahead, toNat_wrap_sub_wrap hle hlt]
  omega

/-- The queue holds what has been received from `σ.first` on, and fits into the buffer from `k` on.
The first missing byte is that at `next`, and `rcv_nxt` is there or behind a FIN. -/
structure Ready (conn : TCPConnection) (σ : Stream) (k next n : ℕ) (noted ps : List (ℕ × ℕ)) :
    Prop where
  refines : Refines VirtualRegion.At σ conn.receiveQueue ps next
  rcvNxt_eq : conn.rcvNxt = wrap n
  le : next ≤ n
  le_succ : n ≤ next + 1
  le_first : k ≤ σ.first
  ends : ∀ p ∈ ps, p.2 ≤ k + conn.maxRcvBuffer.toNat
  next_le : next ≤ k + conn.maxRcvBuffer.toNat
  maxRcvBuffer_lt : conn.maxRcvBuffer.toNat + 1 < 2 ^ 31
  sacksArray_eq : conn.sacksArray = noted.map sackAt
  nonempty : ∀ e ∈ noted, e.1 < e.2
  received : ∀ e ∈ noted, Set.Ico e.1 e.2 ⊆ σ.received
  apart : noted.Pairwise Apart

/-- What an answer says. -/
structure Told (received : Set ℕ) (ps : List (ℕ × ℕ)) (n : ℕ) (reply : Reply) : Prop where
  options_le : reply.tcpseg.headerOptionArrayLength ≤ 40
  reported : ∃ bs : List (ℕ × ℕ), reply.tcpseg.blocks = bs.map sackAt ∧
    TCPConnection.Reported received ps n reply.dsack bs

namespace Ready

open TCPConnection

variable {conn conn' : TCPConnection} {σ : Stream} {k next n a b : ℕ} {noted ps : List (ℕ × ℕ)}

/-- The buffer from the first byte in it on. -/
theorem rebase (h : Ready conn σ k next n noted ps) : Ready conn σ σ.first next n noted ps :=
  have hends : ∀ p ∈ ps, p.2 ≤ σ.first + conn.maxRcvBuffer.toNat := fun p hp ↦
    (h.ends p hp).trans (Nat.add_le_add_right h.le_first _)
  { h with
    le_first := le_rfl
    ends := hends
    next_le := h.refines.next_le (Nat.le_add_right _ _) hends }

/-- Everything around the queue can be compared. -/
theorem near (h : Ready conn σ k next n noted ps) {p : ℕ × ℕ} (hp : p ∈ ps) {m : ℕ} (hk : k ≤ m)
    (hm : m ≤ k + conn.maxRcvBuffer.toNat) : Near p.1 m ∧ Near m p.2 := by
  have hle := h.le_first.trans (h.refines.within hp).le
  have hne := (h.refines.within hp).nonempty
  have hend := h.ends p hp
  have hmax := h.maxRcvBuffer_lt
  exact ⟨⟨by omega, by omega⟩, ⟨by omega, by omega⟩⟩

/-- What `addSacks` needs, apart from the entry it inserts. -/
theorem reporting (h : Ready conn σ k next n noted ps) (hseen : Receiver.SeesPassed noted n)
    (hnew : conn.startSeqno ≠ conn.endSeqno → ∃ b, conn.newSack = sackAt b ∧
      Set.Ico b.1 b.2 ⊆ σ.received ∧
        if conn.sndDsack then Entry n b else Within k b ∧ (b.2 ≤ n ∨ b ∈ ps ∧ n ≤ b.1)) :
    Reporting conn σ.received ps k n noted where
  rcvNxt_eq := h.rcvNxt_eq
  sacksArray_eq := h.sacksArray_eq
  le := h.le_first.trans (h.refines.first_le.trans h.le)
  lt := by
    have hle := h.le_succ
    have hle' := h.next_le
    have hmax := h.maxRcvBuffer_lt
    omega
  canonical := h.refines.canonical
  ends p hp := by
    have hle := h.ends p hp
    have hmax := h.maxRcvBuffer_lt
    omega
  nonempty := h.nonempty
  received := h.received
  apart := h.apart
  passed := hseen
  above e he hlt := h.refines.liesAbove (h.nonempty e he) (h.received e he) h.le h.le_succ hlt
  new := hnew

/-- Neither the flags nor anything else that is not named matters. -/
theorem congr (h : Ready conn σ k next n noted ps)
    (hqueue : conn'.receiveQueue = conn.receiveQueue) (hrcvNxt : conn'.rcvNxt = conn.rcvNxt)
    (hmax : conn'.maxRcvBuffer = conn.maxRcvBuffer) (hsacks : conn'.sacksArray = conn.sacksArray) :
    Ready conn' σ k next n noted ps where
  refines := hqueue ▸ h.refines
  rcvNxt_eq := hrcvNxt.trans h.rcvNxt_eq
  le := h.le
  le_succ := h.le_succ
  le_first := h.le_first
  ends := hmax ▸ h.ends
  next_le := hmax ▸ h.next_le
  maxRcvBuffer_lt := hmax ▸ h.maxRcvBuffer_lt
  sacksArray_eq := hsacks.trans h.sacksArray_eq
  nonempty := h.nonempty
  received := h.received
  apart := h.apart

end Ready

theorem interval_sackAt {n : ℕ} {p : ℕ × ℕ} (h : Entry n p) :
    Receiver.interval n (sackAt p) = p :=
  Prod.ext (nearest_wrap h.near_begin) (nearest_wrap h.near_end)

/-- What is known after an answer with SACKs. -/
structure Settled (conn conn' : TCPConnection) (σ : Stream) (k next n : ℕ) (ps : List (ℕ × ℕ))
    (reply : Reply) : Prop where
  ready : Ready conn' σ k next n (conn'.sacksArray.map (Receiver.interval n)) ps
  fsmState_eq : conn'.fsmState = conn.fsmState
  sndSack : conn'.sndSack = false
  sndDsack : conn'.sndDsack = false
  told : Told σ.received ps n reply

/-- **An answer with SACKs**, when the entry it inserts stands for received bytes. -/
theorem Ready.answer {conn : TCPConnection} {σ : Stream} {k next n : ℕ} {noted ps : List (ℕ × ℕ)}
    (h : Ready conn σ k next n noted ps) (time : UInt32) (hadds : conn.AddsSacks)
    (hnew : conn.startSeqno ≠ conn.endSeqno → ∃ b, conn.newSack = sackAt b ∧
      Set.Ico b.1 b.2 ⊆ σ.received ∧
        if conn.sndDsack then Entry n b else Within k b ∧ (b.2 ≤ n ∨ b ∈ ps ∧ n ≤ b.1)) :
    (∃ e, conn.sendAck time = .error (.runtime e)) ∨
      (∃ c, conn.sendAck time = .error (.addSacks c) ∧ c.rcvNxt = wrap n ∧
        ¬ Receiver.SeesPassed noted n) ∨
      ∃ conn' reply, conn.sendAck time = .ok (conn', reply) ∧ conn'.rcvNxt = wrap n ∧
        reply.sacksAdded = true ∧
        (Receiver.SeesPassed noted n → Settled conn conn' σ k next n ps reply) := by
  by_cases hseen : Receiver.SeesPassed noted n
  · rcases (h.reporting hseen hnew).sendAck time hadds with
      ⟨e, heq⟩ | ⟨conn', reply, es', bs, rcvWnd, rcvAdv, heq, hconn', hkept, hreported, hblocks,
        hlen, hadded⟩
    · exact .inl ⟨e, heq⟩
    · have hrcvNxt : conn'.rcvNxt = conn.rcvNxt := by rw [hconn']; rfl
      have hsacks : conn'.sacksArray = es'.map sackAt := by rw [hconn']
      have hnoted : conn'.sacksArray.map (Receiver.interval n) = es' := by
        rw [hsacks, List.map_map]
        conv_rhs => rw [← List.map_id es']
        exact List.map_congr_left fun e he ↦ interval_sackAt (hkept.entry e he)
      refine .inr (.inr ⟨conn', reply, heq, hrcvNxt.trans h.rcvNxt_eq, hadded, fun _ ↦ ?_⟩)
      exact {
        ready := {
          refines := by rw [hconn']; exact h.refines
          rcvNxt_eq := hrcvNxt.trans h.rcvNxt_eq
          le := h.le
          le_succ := h.le_succ
          le_first := h.le_first
          ends := by rw [hconn']; exact h.ends
          next_le := by rw [hconn']; exact h.next_le
          maxRcvBuffer_lt := by rw [hconn']; exact h.maxRcvBuffer_lt
          sacksArray_eq := by rw [hnoted, hsacks]
          nonempty := hnoted.symm ▸ fun e he ↦ (hkept.entry e he).nonempty
          received := hnoted.symm ▸ hkept.received
          apart := hnoted.symm ▸ hkept.apart }
        fsmState_eq := by rw [hconn']; rfl
        sndSack := by rw [hconn']; rfl
        sndDsack := by rw [hconn']; rfl
        told := ⟨hlen, bs, hblocks, hreported⟩ }
  · rcases TCPConnection.sendAck_cases time hadds with
      hruntime | ⟨c, heq, hrcvNxt⟩ | ⟨conn', reply, heq, hrcvNxt, hadded⟩
    · exact .inl hruntime
    · exact .inr (.inl ⟨c, heq, hrcvNxt.trans h.rcvNxt_eq, hseen⟩)
    · exact .inr (.inr ⟨conn', reply, heq, hrcvNxt.trans h.rcvNxt_eq, hadded,
        fun hseen' ↦ absurd hseen' hseen⟩)

/-- **An answer without SACKs.** -/
theorem Ready.answer_plain {conn : TCPConnection} {σ : Stream} {k next n : ℕ}
    {noted ps : List (ℕ × ℕ)} (h : Ready conn σ k next n noted ps) (time : UInt32)
    (hadds : ¬ conn.AddsSacks) :
    (∃ e, conn.sendAck time = .error (.runtime e)) ∨
      ∃ conn' reply, conn.sendAck time = .ok (conn', reply) ∧ conn'.rcvNxt = wrap n ∧
        reply.sacksAdded = false ∧ Ready conn' σ k next n noted ps ∧
        conn'.fsmState = conn.fsmState ∧ conn'.sndSack = conn.sndSack ∧
        conn'.sndDsack = conn.sndDsack ∧ Told σ.received ps n reply := by
  rcases TCPConnection.sendAck_plain time hadds with
    hruntime | ⟨conn', reply, rcvWnd, rcvAdv, heq, rfl, hblocks, hlen, hadded⟩
  · exact .inl hruntime
  · refine .inr ⟨_, reply, heq, h.rcvNxt_eq, hadded, h.congr rfl rfl rfl rfl, rfl, rfl, rfl, hlen, [],
      hblocks, ?_⟩
    exact ⟨by simp, by simp, by simp, by simp, by simp⟩

/-! ### The segments that arrive -/

/-- What is known after an event: `R` has been received from `start` on. -/
def Outcome (start : ℕ) (R : Set ℕ) (noted : List (ℕ × ℕ)) (n : ℕ) (conn' : TCPConnection)
    (replies : List Reply) : Prop :=
  ∃ σ k next ps, σ.start = start ∧ σ.received = R ∧
    Ready conn' σ k next n (if replies.any Reply.sacksAdded then
      conn'.sacksArray.map (Receiver.interval n) else noted) ps ∧
    (conn'.fsmState.WritesOptions → conn'.fsmState.ProcessesText ∧ n = next ∧
      conn'.sndSack = false ∧ conn'.sndDsack = false) ∧
    ∀ reply ∈ replies, Told R ps n reply

/-- The assertions of `addSacks` hold and the outcome is as it should be, if what has been passed is
seen to be passed. -/
def Safe (start : ℕ) (R : Set ℕ) (next : ℕ) (noted : List (ℕ × ℕ)) :
    Except ReceiveError (TCPConnection × List Reply) → Prop
  | .error (.runtime _) => True
  | .error (.addSacks c) => ¬ Receiver.SeesPassed noted (ahead next c.rcvNxt)
  | .ok (conn', replies) =>
    ((∃ reply ∈ replies, reply.sacksAdded) →
      Receiver.SeesPassed noted (ahead next conn'.rcvNxt)) →
      Outcome start R noted (ahead next conn'.rcvNxt) conn' replies

section Arrivals

open TCPConnection

variable {conn : TCPConnection} {σ : Stream} {k next n a b : ℕ} {noted ps : List (ℕ × ℕ)}

/-- The entry of a D-SACK, on one side of `rcv_nxt`. -/
theorem newSack_dsack (hdsack : conn.sndDsack = true) (hstart : conn.startSeqno = wrap a)
    (hend : conn.endSeqno = wrap b) (hrcvNxt : conn.rcvNxt = wrap n) (ha : Near a n) (hb : Near b n)
    (h : b ≤ n ∨ n ≤ a) : conn.newSack = sackAt (a, b) := by
  have hcut : ¬ (seqLess conn.startSeqno conn.rcvNxt ∧ seqLess conn.rcvNxt conn.endSeqno) := by
    rw [hstart, hend, hrcvNxt, seqLess_wrap ha, seqLess_wrap hb.symm]
    omega
  rw [newSack, if_pos hdsack, if_neg hcut, hstart, hend]
  rfl

/-- The outcome when the FSM may have moved on a FIN. -/
theorem outcome_of_ready {conn₁ : TCPConnection} {noted' : List (ℕ × ℕ)} {replies : List Reply}
    {fin : Bool} (h : Ready conn₁ σ k next n noted' ps) (htext : conn₁.fsmState.ProcessesText)
    (hsack : conn₁.sndSack = false) (hdsack : conn₁.sndDsack = false)
    (hfin : fin = false → n = next)
    (hnoted : noted' = if replies.any Reply.sacksAdded then
      conn₁.sacksArray.map (Receiver.interval n) else noted)
    (htold : ∀ reply ∈ replies, Told σ.received ps n reply) :
    Outcome σ.start σ.received noted n (conn₁.moveFsm fin) replies := by
  subst hnoted
  cases fin with
  | true => exact ⟨σ, k, next, ps, rfl, rfl, h.congr rfl rfl rfl rfl,
      fun hwrites ↦ absurd hwrites (TCPState.not_writesOptions_afterFin htext _), htold⟩
  | false => exact ⟨σ, k, next, ps, rfl, rfl, h,
      fun _ ↦ ⟨htext, hfin rfl, hsack, hdsack⟩, htold⟩

theorem rcvNxt_moveFsm (conn₁ : TCPConnection) (fin : Bool) :
    (conn₁.moveFsm fin).rcvNxt = conn₁.rcvNxt := by
  cases fin <;> rfl

/-- A single answer, after which the FSM may move. -/
theorem safe_of_answer {conn₁ : TCPConnection} {time : UInt32} {old : ℕ} {fin : Bool}
    (h : Ready conn₁ σ k next n noted ps) (htext : conn₁.fsmState.ProcessesText)
    (hold : ahead old (wrap n) = n) (hfin : fin = false → n = next)
    (hnew : conn₁.AddsSacks → conn₁.startSeqno ≠ conn₁.endSeqno → ∃ b, conn₁.newSack = sackAt b ∧
      Set.Ico b.1 b.2 ⊆ σ.received ∧
        if conn₁.sndDsack then Entry n b else Within k b ∧ (b.2 ≤ n ∨ b ∈ ps ∧ n ≤ b.1))
    (hflags : ¬ conn₁.AddsSacks → conn₁.sndSack = false ∧ conn₁.sndDsack = false) :
    Safe σ.start σ.received old noted
      ((conn₁.sendAck time).map fun r ↦ (r.1.moveFsm fin, [r.2])) := by
  by_cases hadds : conn₁.AddsSacks
  · rcases h.answer time hadds (hnew hadds) with
      ⟨e, heq⟩ | ⟨c, heq, hrcvNxt, hseen⟩ | ⟨conn', reply, heq, hrcvNxt, hadded, hsettled⟩
    · rw [heq]
      trivial
    · rw [heq]
      show ¬ _
      rwa [hrcvNxt, hold]
    · rw [heq]
      intro hseen
      rw [rcvNxt_moveFsm, hrcvNxt, hold] at hseen ⊢
      obtain ⟨hready, hfsm, hsack, hdsack, htold⟩ := hsettled (hseen ⟨reply, by simp, hadded⟩)
      exact outcome_of_ready hready (hfsm ▸ htext) hsack hdsack hfin (by simp [hadded])
        (by simpa using htold)
  · obtain ⟨hsack, hdsack⟩ := hflags hadds
    rcases h.answer_plain time hadds with
      ⟨e, heq⟩ | ⟨conn', reply, heq, hrcvNxt, hadded, hready, hfsm, hsack', hdsack', htold⟩
    · rw [heq]
      trivial
    · rw [heq]
      intro _
      rw [rcvNxt_moveFsm, hrcvNxt, hold]
      exact outcome_of_ready hready (hfsm ▸ htext) (hsack'.trans hsack) (hdsack'.trans hdsack) hfin
        (by simp [hadded]) (by simpa using htold)

/-- A connection that only goes on. -/
theorem safe_of_ready {conn₁ : TCPConnection} {old : ℕ} {fin : Bool}
    (h : Ready conn₁ σ k next n noted ps) (htext : conn₁.fsmState.ProcessesText)
    (hold : ahead old (wrap n) = n) (hfin : fin = false → n = next)
    (hsack : conn₁.sndSack = false) (hdsack : conn₁.sndDsack = false) :
    Safe σ.start σ.received old noted (.ok (conn₁.moveFsm fin, [])) := by
  intro _
  rw [rcvNxt_moveFsm, h.rcvNxt_eq, hold]
  exact outcome_of_ready h htext hsack hdsack hfin rfl (by simp)

/-- **A segment that is not acceptable.** -/
theorem safe_answerUnacceptable {arrival : Arrival} (h : Ready conn σ k next next noted ps)
    (htext : conn.fsmState.ProcessesText) (hsack : conn.sndSack = false)
    (hdsack : conn.sndDsack = false)
    (hnear : 0 < arrival.tcpseg.payloadLength → ∃ pos, arrival.tcpseg.sequenceNo = wrap pos ∧
      σ.start ≤ pos ∧ next < pos + 2 ^ 31 ∧
      pos + arrival.tcpseg.payloadLength < next + 2 ^ 31) :
    Safe σ.start σ.received next noted (conn.answerUnacceptable arrival) := by
  have hplain : ¬ conn.AddsSacks := fun hadds ↦ by simp [AddsSacks, hsack, hdsack] at hadds
  have hold : ahead next (wrap next) = next := ahead_wrap le_rfl (by omega)
  have hanswer : Safe σ.start σ.received next noted
      ((conn.sendAck arrival.time).map fun r ↦ (r.1.moveFsm false, [r.2])) :=
    safe_of_answer h htext hold (fun _ ↦ rfl) (fun hadds ↦ absurd hadds hplain)
      fun _ ↦ ⟨hsack, hdsack⟩
  rw [answerUnacceptable]
  split_ifs with hrst hsyn
  · show Safe _ _ _ _ (.ok (conn.moveFsm false, []))
    exact safe_of_ready h htext hold (fun _ ↦ rfl) hsack hdsack
  · exact hanswer
  · show Safe _ _ _ _ (((conn.noteDuplicate arrival.tcpseg).sendAck _).map fun r ↦
      (r.1.moveFsm false, [r.2]))
    rw [noteDuplicate]
    split_ifs with hdup
    · obtain ⟨hpos, henabled, hless⟩ := hdup
      obtain ⟨pos, hseq, hstart, hnext, hend⟩ := hnear hpos
      have hendNo : arrival.tcpseg.endNo = wrap (pos + arrival.tcpseg.payloadLength) := by
        rw [TCPSegment.endNo, hseq]
        exact wrap_add_wrap _ _
      have ha : Near pos next := ⟨by omega, hnext⟩
      have hb : Near (pos + arrival.tcpseg.payloadLength) next := ⟨hend, by omega⟩
      rw [hendNo, h.rcvNxt_eq, seqLess_wrap hb] at hless
      refine safe_of_answer (h.congr rfl rfl rfl rfl) htext hold (fun _ ↦ rfl)
        (fun _ _ ↦ ?_) fun hadds ↦ ?_
      · refine ⟨(pos, pos + arrival.tcpseg.payloadLength), ?_, ?_, ?_⟩
        · exact newSack_dsack rfl hseq hendNo h.rcvNxt_eq ha hb (.inl hless.le)
        · exact fun x hx ↦ h.refines.received_below (hstart.trans hx.1) (hx.2.trans hless)
        · exact (if_pos rfl).mpr ⟨by simpa using hpos, ha, hb⟩
      · exact absurd ⟨htext.writesOptions, henabled, .inr rfl⟩ hadds
    · exact hanswer

/-- **The text that is inserted** begins at or behind `rcv_nxt`, is not empty, and ends within the
buffer. -/
theorem textToInsert_spec {arrival : Arrival} {tcpseg : TCPSegment Unit} {pos : ℕ}
    (h : Ready conn σ σ.first next next noted ps) (hacceptable : conn.IsSegmentAcceptable arrival)
    (hpos : 0 < arrival.tcpseg.payloadLength) (hseq : arrival.tcpseg.sequenceNo = wrap pos)
    (hnext : next < pos + 2 ^ 31) (hend : pos + arrival.tcpseg.payloadLength < next + 2 ^ 31)
    (htext : conn.textToInsert arrival.tcpseg = .ok (some tcpseg)) :
    ∃ x y, tcpseg.sequenceNo = wrap x ∧ x + tcpseg.payloadLength = y ∧ x < y ∧ next ≤ x ∧
      pos ≤ x ∧ y ≤ pos + arrival.tcpseg.payloadLength ∧
      y ≤ σ.first + conn.maxRcvBuffer.toNat := by
  obtain ⟨tcpseg', htrunc, hspace⟩ := exists_of_bind_eq_ok htext
  have hspace' : conn.HasEnoughSpaceForSegmentInReceiveQueue tcpseg' ∧ tcpseg' = tcpseg := by
    by_cases hhas : conn.HasEnoughSpaceForSegmentInReceiveQueue tcpseg'
    · rw [if_pos hhas] at hspace
      exact ⟨hhas, by cases hspace; rfl⟩
    · rw [if_neg hhas] at hspace
      cases hspace
  obtain ⟨⟨hfirst, hbuffer⟩, rfl⟩ := hspace'
  obtain ⟨-, hbefore, hbehind, hdata⟩ := TCPSegment.truncateSegment_ok htrunc
  obtain ⟨hle, hseq', hlen', -, -⟩ := TCPSegment.truncateData_ok hdata
  have hlt32 : arrival.tcpseg.payloadLength < 2 ^ 32 := by omega
  have hendNo : arrival.tcpseg.endNo = wrap (pos + arrival.tcpseg.payloadLength) := by
    rw [TCPSegment.endNo, hseq]
    exact wrap_add_wrap _ _
  have hwnd : conn.rcvNxt + conn.rcvWnd = wrap (next + conn.rcvWnd.toNat) := by
    rw [h.rcvNxt_eq, ← wrap_add_wrap, wrap_toNat]
  have hlen : UInt32.ofNat arrival.tcpseg.payloadLength ≠ 0 := by
    intro hzero
    have hnat : (wrap arrival.tcpseg.payloadLength).toNat = 0 := congrArg UInt32.toNat hzero
    rw [toNat_wrap] at hnat
    omega
  have hopen : conn.rcvWnd.toNat ≠ 0 := by
    intro hzero
    have hif := hacceptable.2
    rw [if_neg hlen] at hif
    exact hif.1 (by rw [← wrap_toNat conn.rcvWnd, hzero]; rfl)
  have hnear : Near pos next := ⟨by omega, hnext⟩
  rw [hendNo, h.rcvNxt_eq, seqLess_wrap ⟨by omega, hend⟩] at hbehind
  have hleft : (if seqLess arrival.tcpseg.sequenceNo conn.rcvNxt then
      (conn.rcvNxt - arrival.tcpseg.sequenceNo).toNat else 0) = next - pos := by
    simp only [hseq, h.rcvNxt_eq, seqLess_wrap hnear]
    split_ifs with hlt
    · exact toNat_wrap_sub_wrap hlt.le (by omega)
    · omega
  -- the window is open, and the segment begins before its end
  have hright : next - pos + (if seqGreater arrival.tcpseg.endNo (conn.rcvNxt + conn.rcvWnd) then
      (arrival.tcpseg.endNo - (conn.rcvNxt + conn.rcvWnd)).toNat else 0) ≠
        arrival.tcpseg.payloadLength := by
    have hne := hbefore.1
    rw [hseq, hwnd, ne_eq, ← UInt32.toNat_inj, toNat_wrap, toNat_wrap] at hne
    have hword := conn.rcvWnd.toNat_lt
    rw [hendNo, hwnd]
    split_ifs with hgreater
    · rw [UInt32.toNat_sub, toNat_wrap, toNat_wrap]
      omega
    · omega
  rw [hleft] at hle hseq' hlen'
  generalize (if seqGreater arrival.tcpseg.endNo (conn.rcvNxt + conn.rcvWnd) then
      (arrival.tcpseg.endNo - (conn.rcvNxt + conn.rcvWnd)).toNat else 0) = truncright
    at hle hlen' hright
  have hx : tcpseg'.sequenceNo = wrap (pos + (next - pos)) := by
    rw [hseq', hseq]
    exact wrap_add_wrap _ _
  have hy : tcpseg'.endNo = wrap (pos + (next - pos) + tcpseg'.payloadLength) := by
    rw [TCPSegment.endNo, hx]
    exact wrap_add_wrap _ _
  refine ⟨pos + (next - pos), _, hx, rfl, by omega, by omega, by omega, by omega, ?_⟩
  have hfirst_le := h.refines.first_le
  have hnext_le := h.next_le
  have hmax := h.maxRcvBuffer_lt
  rw [hy, h.refines.getFirstSeqNo_eq, ← wrap_toNat conn.maxRcvBuffer, wrap_add_wrap, seqLE,
    UInt32.toNat_sub, toNat_wrap, toNat_wrap] at hbuffer
  omega

/-- All data up to the first missing byte is handed out. -/
theorem extractAll_spec {q : TCPVirtualDataRcvQueue VirtualRegion}
    (h : Refines VirtualRegion.At σ q ps next) {m : ℕ} (hm : q.regionList.length < m) :
    ∃ q' ps', extractAll (wrap next) m q = .ok q' ∧
      Refines VirtualRegion.At { σ with first := next } q' ps' next ∧
      ∀ p ∈ ps', ∃ p' ∈ ps, p.2 = p'.2 := by
  obtain ⟨m, rfl⟩ : ∃ m', m = m' + 1 := ⟨m - 1, by omega⟩
  rcases h.first_le.lt_or_eq with hlt | heq
  · obtain ⟨r, q', hextract, -, href⟩ := h.extract_upTo hlt le_rfl
    have hnonempty : q.regionList ≠ [] := by
      intro hnil
      rw [TCPVirtualDataRcvQueue.extractTo, hnil] at hextract
      split_ifs at hextract
      cases hextract
    obtain ⟨m, rfl⟩ : ∃ m', m = m' + 1 :=
      ⟨m - 1, by have := List.length_pos_iff.2 hnonempty; omega⟩
    refine ⟨q', removeTo next ps, ?_, href, fun p hp ↦ end_of_mem_removeTo hp⟩
    have hlast : q'.extractTo (wrap next) = .ok (none, q') := href.extract_upTo_first
    simp only [extractAll, hextract, hlast, bind, Except.bind]
    rfl
  · refine ⟨q, ps, ?_, ?_, fun p hp ↦ ⟨p, hp, rfl⟩⟩
    · have hlast : q.extractTo (wrap next) = .ok (none, q) := heq ▸ h.extract_upTo_first
      simp only [extractAll, hlast, bind, Except.bind]
      rfl
    · have hσ : { σ with first := next } = σ := by rw [← heq]
      rw [hσ]
      exact h

/-- The eighth step moves `rcv_nxt` over a FIN that comes next, and changes nothing else that
matters. -/
theorem checkFin_spec {conn₁ : TCPConnection} {tcpseg : TCPSegment Unit}
    (h : Ready conn₁ σ k next n noted ps) (hmoves : n = next ∨ tcpseg.endNo ≠ wrap n) :
    ∃ m, Ready (conn₁.checkFin tcpseg).1 σ k next m noted ps ∧ n ≤ m ∧ m ≤ n + 1 ∧
      ((conn₁.checkFin tcpseg).2 = true ↔ m = n + 1) ∧ (tcpseg.endNo ≠ wrap n → m = n) ∧
      (conn₁.checkFin tcpseg).1.fsmState = conn₁.fsmState ∧
      (conn₁.checkFin tcpseg).1.sndSack = conn₁.sndSack ∧
      (conn₁.checkFin tcpseg).1.sndDsack = conn₁.sndDsack := by
  rw [checkFin]
  split_ifs with hfin hnext
  · have hendNo : tcpseg.endNo = wrap n := hnext.symm.trans h.rcvNxt_eq
    have hn : n = next := hmoves.resolve_right (not_not.2 hendNo)
    refine ⟨n + 1, ?_, by omega, le_rfl, by simp, fun hne ↦ absurd hendNo hne, rfl, rfl, rfl⟩
    have hready : Ready { conn₁ with ackNow := true } σ k next n noted ps :=
      h.congr rfl rfl rfl rfl
    have hsucc : conn₁.rcvNxt + 1 = wrap (n + 1) := by
      rw [h.rcvNxt_eq]
      exact wrap_add_wrap n 1
    exact { hready with rcvNxt_eq := hsucc, le := by omega, le_succ := by omega }
  · exact ⟨n, h.congr rfl rfl rfl rfl, le_rfl, by omega, by simp, fun _ ↦ rfl, rfl, rfl, rfl⟩
  · exact ⟨n, h, le_rfl, by omega, by simp, fun _ ↦ rfl, rfl, rfl, rfl⟩

/-- **What follows the text**: the answer reports the bytes of the segment if they have moved
`rcv_nxt`. -/
theorem safe_finishSegment {conn₁ : TCPConnection} {tcpseg : TCPSegment Unit} {arrival : Arrival}
    {old : ℕ} {fin : Bool} (h : Ready conn₁ σ k next n noted ps)
    (htext : conn₁.fsmState.ProcessesText) (hsack : conn₁.sndSack = false)
    (hdsack : conn₁.sndDsack = false) (hfin : fin = false → n = next)
    (hmoves : n = next ∨ tcpseg.endNo ≠ wrap n) (hle : old ≤ n) (hlt : n + 1 < old + 2 ^ 32)
    (hnew : tcpseg.sequenceNo ≠ tcpseg.endNo → ∃ x y, tcpseg.sequenceNo = wrap x ∧
      tcpseg.endNo = wrap y ∧ k ≤ x ∧ σ.start ≤ x ∧ x < y ∧ y ≤ next) :
    Safe σ.start σ.received old noted
      (conn₁.finishSegment (wrap old) tcpseg arrival [] fin) := by
  obtain ⟨m, hready, hnm, hmn, hmoved, hstay, hfsm, hs, hd⟩ := checkFin_spec h hmoves
  rw [finishSegment]
  generalize conn₁.checkFin tcpseg = checked at hready hmoved hfsm hs hd
  obtain ⟨conn₂, fin'⟩ := checked
  have hold : ahead old (wrap m) = m := ahead_wrap (by omega) (by omega)
  have hfin' : (fin || fin') = false → m = next := by
    intro hnone
    obtain ⟨hnone, hnone'⟩ := Bool.or_eq_false_iff.1 hnone
    have hm : m ≠ n + 1 := fun heq ↦ by simp [hnone'] at hmoved; exact hmoved heq
    have hn := hfin hnone
    omega
  have htext' : conn₂.fsmState.ProcessesText := hfsm ▸ htext
  have hmap (c : TCPConnection) :
      ((c.sendAck arrival.time).map fun r ↦ (r.1, [] ++ [r.2])).map
        (fun r ↦ (r.1.moveFsm (fin || fin'), r.2)) =
          (c.sendAck arrival.time).map fun r ↦ (r.1.moveFsm (fin || fin'), [r.2]) := by
    cases c.sendAck arrival.time <;> rfl
  show Safe _ _ _ _ ((conn₂.acknowledge _ _ _ _).map _)
  rw [acknowledge]
  split_ifs with hsame
  · exact safe_of_ready hready htext' hold hfin' (hs.trans hsack) (hd.trans hdsack)
  · have hneed : conn₂.sackEnabled = true ∧ conn₂.receiveQueue.getQueueLength ≠ 0 ∨
        conn₂.noteReceiveSeqChanged tcpseg = conn₂ := by
      rw [noteReceiveSeqChanged]
      split_ifs with hneed
      · exact .inl hneed
      · exact .inr rfl
    rcases hneed with hneed | heq
    · -- the answer is sent at once
      have hnote : conn₂.noteReceiveSeqChanged tcpseg = { conn₂ with
          startSeqno := tcpseg.sequenceNo, endSeqno := tcpseg.endNo, sndSack := true,
          ackNow := true } := if_pos hneed
      rw [hnote]
      show Safe _ _ _ _ ((if _ then _ else _ : Except _ _).map _)
      rw [if_pos (.inl rfl), hmap]
      refine safe_of_answer (hready.congr rfl rfl rfl rfl) htext' hold hfin' (fun _ hne ↦ ?_)
        fun hadds ↦ absurd ⟨htext'.writesOptions, hneed.1, .inl rfl⟩ hadds
      obtain ⟨x, y, hx, hy, hkx, hstart, hxy, hynext⟩ := hnew hne
      have hdsack' : conn₂.sndDsack = false := hd.trans hdsack
      have hbound := h.next_le
      have hmax := h.maxRcvBuffer_lt
      have hfirst := h.le_first
      obtain ⟨a', b', hle', hre', ha', hor, hb', hbnext⟩ := hready.refines.getLE_getRE_below
        (a := x) (b := y) (fun p hp m hm hm' ↦ hready.near hp (by omega)
          (hm'.trans (hynext.trans hready.next_le))) hxy hynext
      have hka : k ≤ a' := by rcases hor with rfl | hor <;> omega
      have hstart' : σ.start ≤ a' := by
        rcases hor with rfl | hor
        · exact hstart
        · exact hready.refines.start_le.trans hor
      refine ⟨(a', b'), ?_, ?_, ?_⟩
      · show TCPConnection.newSack _ = _
        rw [newSack, if_neg (by simp [hdsack'])]
        show Sack.mk (conn₂.receiveQueue.getLE tcpseg.sequenceNo)
          (conn₂.receiveQueue.getRE tcpseg.endNo) = _
        rw [hx, hy, hle', hre']
        rfl
      · exact fun z hz ↦ hready.refines.received_below (hstart'.trans hz.1) (hz.2.trans_le hbnext)
      · rw [if_neg (by simp [hdsack'])]
        refine ⟨⟨hka, ?_, ?_⟩, .inl ?_⟩
        · show a' < b'
          omega
        · show b' < k + 2 ^ 31
          omega
        · show b' ≤ m
          have := hready.le
          omega
    · rw [heq]
      show Safe _ _ _ _ ((if _ then _ else _ : Except _ _).map _)
      have hplain : ¬ conn₂.AddsSacks := by
        rintro ⟨-, -, hflag⟩
        rw [hs, hd, hsack, hdsack] at hflag
        simp at hflag
      split_ifs
      · rw [hmap]
        exact safe_of_answer hready htext' hold hfin' (fun hadds ↦ absurd hadds hplain)
          fun _ ↦ ⟨hs.trans hsack, hd.trans hdsack⟩
      · exact safe_of_ready hready htext' hold hfin' (hs.trans hsack) (hd.trans hdsack)

/-- The queue and what is received after an insertion. -/
theorem insert_spec {tcpseg : TCPSegment Unit} {x y : ℕ}
    (h : Ready conn σ σ.first next next noted ps) (hx : tcpseg.sequenceNo = wrap x)
    (hy : x + tcpseg.payloadLength = y) (hxy : x < y) (hle : next ≤ x)
    (hend : y ≤ σ.first + conn.maxRcvBuffer.toNat) :
    ∃ q' next' ps', conn.receiveQueue.insertBytesFromSegment tcpseg = .ok q' ∧ next ≤ next' ∧
      Ready { conn with receiveQueue := q', rcvNxt := q'.rcvNxt }
        { σ with received := σ.received ∪ Set.Ico x y } σ.first next' next' noted ps' := by
  have hmax := h.maxRcvBuffer_lt
  have hfirst := h.refines.first_le
  have hseg : Within σ.first (x, y) := ⟨hfirst.trans hle, hxy, by show y < _; omega⟩
  have hat : VirtualRegion.At ⟨tcpseg.sequenceNo, tcpseg.endNo⟩ (x, y) := by
    rw [VirtualRegion.At, TCPSegment.endNo, hx, ← hy]
    exact congrArg (VirtualRegion.mk (wrap x)) (wrap_add_wrap _ _)
  obtain ⟨q', next', hinsert, hnext, href⟩ := h.refines.insert hat hseg fun _ _ ↦ trivial
  have hends : ∀ p ∈ (insertBack (x, y) ps.reverse).reverse,
      p.2 ≤ σ.first + conn.maxRcvBuffer.toNat := by
    intro p hp
    rcases end_of_mem_insertBack (List.mem_reverse.1 hp) with heq | ⟨p', hp', heq⟩
    · exact heq ▸ hend
    · exact heq ▸ h.ends p' (List.mem_reverse.1 hp')
  exact ⟨q', next', _, hinsert, hnext, {
    refines := href
    rcvNxt_eq := href.rcvNxt_eq
    le := le_rfl
    le_succ := by omega
    le_first := le_rfl
    ends := hends
    next_le := href.next_le (Nat.le_add_right _ _) hends
    maxRcvBuffer_lt := hmax
    sacksArray_eq := h.sacksArray_eq
    nonempty := h.nonempty
    received := fun e he ↦ (h.received e he).trans Set.subset_union_left
    apart := h.apart }⟩

/-- The entry for a segment that does not move `rcv_nxt`. -/
theorem newSack_outOfOrder {conn₁ : TCPConnection} {x y : ℕ}
    (h : Ready conn₁ σ σ.first next next noted ps) (hsub : Set.Ico x y ⊆ σ.received)
    (hxy : x < y) (hle : next ≤ x) (hend : y ≤ σ.first + conn₁.maxRcvBuffer.toNat)
    (hstart : conn₁.startSeqno = wrap x) (hstop : conn₁.endSeqno = wrap y) :
    ∃ b, conn₁.newSack = sackAt b ∧ Set.Ico b.1 b.2 ⊆ σ.received ∧
      if conn₁.sndDsack then Entry next b
      else Within σ.first b ∧ (b.2 ≤ next ∨ b ∈ ps ∧ next ≤ b.1) := by
  have hmax := h.maxRcvBuffer_lt
  have hfirst := h.refines.first_le
  by_cases hdsack : conn₁.sndDsack = true
  · have hx : Near x next := ⟨by omega, by omega⟩
    have hy : Near y next := ⟨by omega, by omega⟩
    refine ⟨(x, y), newSack_dsack hdsack hstart hstop h.rcvNxt_eq hx hy (.inr hle), hsub, ?_⟩
    rw [if_pos hdsack]
    exact ⟨hxy, hx, hy⟩
  · obtain ⟨hle', e, he, hbegin, hstop'⟩ :=
      h.refines.liesAbove (e := (x, y)) hxy hsub le_rfl (Nat.le_succ _) (by show next < y; omega)
    obtain ⟨hleft, hright⟩ := h.refines.getLE_getRE_of_mem (a := x) (b := y)
      (fun p hp m hm hm' ↦ h.near hp (by omega) (hm'.trans hend)) he hbegin hxy hstop'
    have hreceived : Set.Ico e.1 e.2 ⊆ σ.received := fun z hz ↦
      (h.refines.mem_points_iff.1 ⟨e, he, hz⟩).1
    refine ⟨e, ?_, hreceived, ?_⟩
    · rw [newSack, if_neg hdsack, hstart, hstop, hleft, hright]
      rfl
    · rw [if_neg hdsack]
      refine ⟨h.refines.within he, .inr ⟨he, not_lt.1 fun hlt ↦ ?_⟩⟩
      -- the first missing byte is not in the region
      exact h.refines.next_notMem ⟨e, he, hlt.le, hle.trans_lt (hxy.trans_le hstop')⟩

/-- Two connections that do not differ in what the report is made of. -/
structure Agrees (c c' : TCPConnection) : Prop where
  receiveQueue : c'.receiveQueue = c.receiveQueue
  rcvNxt : c'.rcvNxt = c.rcvNxt
  maxRcvBuffer : c'.maxRcvBuffer = c.maxRcvBuffer
  sacksArray : c'.sacksArray = c.sacksArray
  fsmState : c'.fsmState = c.fsmState
  sndSack : c'.sndSack = c.sndSack
  sndDsack : c'.sndDsack = c.sndDsack

theorem Agrees.outcome {c c' : TCPConnection} {start : ℕ} {R : Set ℕ} {replies : List Reply}
    (hagrees : Agrees c c') (h : Outcome start R noted n c replies) :
    Outcome start R noted n c' replies := by
  obtain ⟨σ, k, next, ps, hstart, hR, hready, hwrites, htold⟩ := h
  refine ⟨σ, k, next, ps, hstart, hR, ?_, fun hw ↦ ?_, htold⟩
  · rw [hagrees.sacksArray]
    exact hready.congr hagrees.receiveQueue hagrees.rcvNxt hagrees.maxRcvBuffer hagrees.sacksArray
  · rw [hagrees.fsmState] at hw ⊢
    obtain ⟨htext, hn, hsack, hdsack⟩ := hwrites hw
    exact ⟨htext, hn, hagrees.sndSack.trans hsack, hagrees.sndDsack.trans hdsack⟩

/-- When `rcv_nxt` has not moved and no FIN comes next, nothing more is answered. -/
theorem finishSegment_of_eq {c : TCPConnection} {tcpseg : TCPSegment Unit} {arrival : Arrival}
    {replies : List Reply} (hne : c.rcvNxt ≠ tcpseg.endNo) :
    ∃ c', c.finishSegment c.rcvNxt tcpseg arrival replies false = .ok (c', replies) ∧
      Agrees c c' := by
  have hcheck : ∃ c', c.checkFin tcpseg = (c', false) ∧ Agrees c c' := by
    rw [checkFin]
    split_ifs
    · exact ⟨_, rfl, rfl, rfl, rfl, rfl, rfl, rfl, rfl⟩
    · exact ⟨c, rfl, rfl, rfl, rfl, rfl, rfl, rfl, rfl⟩
  obtain ⟨c', hcheck, hagrees⟩ := hcheck
  refine ⟨c', ?_, hagrees⟩
  rw [finishSegment, hcheck, acknowledge, if_pos hagrees.rcvNxt.symm]
  rfl

/-- What is noted about a segment that does not move `rcv_nxt`. -/
theorem noteOutOfOrder_spec (q : TCPVirtualDataRcvQueue VirtualRegion)
    (tcpseg : TCPSegment Unit) (htext : conn.fsmState.ProcessesText) :
    (conn.noteOutOfOrder q tcpseg).receiveQueue = q ∧
      (conn.noteOutOfOrder q tcpseg).rcvNxt = conn.rcvNxt ∧
      (conn.noteOutOfOrder q tcpseg).maxRcvBuffer = conn.maxRcvBuffer ∧
      (conn.noteOutOfOrder q tcpseg).sacksArray = conn.sacksArray ∧
      (conn.noteOutOfOrder q tcpseg).fsmState = conn.fsmState ∧
      ((conn.noteOutOfOrder q tcpseg).AddsSacks ∧
        (conn.noteOutOfOrder q tcpseg).startSeqno = tcpseg.sequenceNo ∧
        (conn.noteOutOfOrder q tcpseg).endSeqno = tcpseg.endNo ∨
      conn.sackEnabled = false ∧ (conn.noteOutOfOrder q tcpseg).sackEnabled = false ∧
        (conn.noteOutOfOrder q tcpseg).sndSack = conn.sndSack ∧
        (conn.noteOutOfOrder q tcpseg).sndDsack = conn.sndDsack) := by
  rw [noteOutOfOrder]
  split_ifs with henabled hdup
  · exact ⟨rfl, rfl, rfl, rfl, rfl, .inl ⟨⟨htext.writesOptions, henabled, .inr rfl⟩, rfl, rfl⟩⟩
  · exact ⟨rfl, rfl, rfl, rfl, rfl, .inl ⟨⟨htext.writesOptions, henabled, .inl rfl⟩, rfl, rfl⟩⟩
  · have hnot := Bool.eq_false_iff.2 henabled
    exact ⟨rfl, rfl, rfl, rfl, rfl, .inr ⟨hnot, hnot, rfl, rfl⟩⟩

/-- **A segment that does not move `rcv_nxt`** is answered at once. -/
theorem safe_outOfOrder {q : TCPVirtualDataRcvQueue VirtualRegion} {tcpseg : TCPSegment Unit}
    {arrival : Arrival} {x y : ℕ}
    (h : Ready { conn with receiveQueue := q } σ σ.first next next noted ps)
    (htext : conn.fsmState.ProcessesText) (hsack : conn.sndSack = false)
    (hdsack : conn.sndDsack = false) (hsub : Set.Ico x y ⊆ σ.received)
    (hx : tcpseg.sequenceNo = wrap x) (hy : tcpseg.endNo = wrap y) (hxy : x < y) (hle : next ≤ x)
    (hend : y ≤ σ.first + conn.maxRcvBuffer.toNat) :
    Safe σ.start σ.received next noted
      (((conn.noteOutOfOrder q tcpseg).sendAck arrival.time).bind fun r ↦
        r.1.finishSegment conn.rcvNxt tcpseg arrival [r.2] false) := by
  have hmax : conn.maxRcvBuffer.toNat + 1 < 2 ^ 31 := h.maxRcvBuffer_lt
  have hfirst := h.refines.first_le
  have hold : ahead next (wrap next) = next := ahead_wrap le_rfl (by omega)
  have hne : wrap next ≠ tcpseg.endNo := by
    rw [hy, ne_eq, wrap_eq_wrap ⟨by omega, by omega⟩]
    omega
  obtain ⟨hqueue, hrcvNxt, hbuffer, hsacks, hfsm, hflags⟩ :=
    noteOutOfOrder_spec q tcpseg htext
  generalize conn.noteOutOfOrder q tcpseg = conn₁ at hqueue hrcvNxt hbuffer hsacks hfsm hflags
  have hready : Ready conn₁ σ σ.first next next noted ps := h.congr hqueue hrcvNxt hbuffer hsacks
  have hanswer : Safe σ.start σ.received next noted
      ((conn₁.sendAck arrival.time).map fun r ↦ (r.1.moveFsm false, [r.2])) := by
    refine safe_of_answer hready (hfsm ▸ htext) hold (fun _ ↦ rfl) (fun hadds _ ↦ ?_)
      fun hadds ↦ ?_
    · rcases hflags with ⟨-, hstart, hstop⟩ | ⟨-, henabled, -⟩
      · exact newSack_outOfOrder hready hsub hxy hle (hbuffer ▸ hend) (hstart.trans hx)
          (hstop.trans hy)
      · exact absurd hadds.2.1 (by simp [henabled])
    · rcases hflags with ⟨hadds', -⟩ | ⟨-, -, hs, hd⟩
      · exact absurd hadds' hadds
      · exact ⟨hs.trans hsack, hd.trans hdsack⟩
  cases hsend : conn₁.sendAck arrival.time with
  | error e =>
    rw [hsend] at hanswer
    exact hanswer
  | ok r =>
    obtain ⟨conn', reply⟩ := r
    rw [hsend] at hanswer
    have hrcv : conn'.rcvNxt = wrap next := (rcvNxt_of_sendAck hsend).trans hready.rcvNxt_eq
    obtain ⟨c', heq, hagrees⟩ : ∃ c', conn'.finishSegment conn'.rcvNxt tcpseg arrival [reply] false =
        .ok (c', [reply]) ∧ Agrees conn' c' := finishSegment_of_eq (hrcv ▸ hne)
    show Safe _ _ _ _ (conn'.finishSegment conn.rcvNxt tcpseg arrival [reply] false)
    rw [show conn.rcvNxt = conn'.rcvNxt from h.rcvNxt_eq.trans hrcv.symm, heq]
    intro hseen
    rw [hagrees.rcvNxt] at hseen ⊢
    exact hagrees.outcome (hanswer hseen)

/-- Handing out the data does not fail. -/
theorem forwardData_spec (h : Ready conn σ k next next noted ps) :
    ∃ q' ps', conn.forwardData = .ok { conn with receiveQueue := q' } ∧
      Ready { conn with receiveQueue := q' } { σ with first := next } k next next noted ps' := by
  obtain ⟨q', ps', hextract, href, hends⟩ := extractAll_spec h.refines (Nat.lt_succ_self _)
  refine ⟨q', ps', ?_, ?_⟩
  · rw [forwardData, h.rcvNxt_eq, hextract]
    rfl
  · exact { h with
      refines := href
      le_first := h.le_first.trans h.refines.first_le
      ends := fun p hp ↦ by
        obtain ⟨p', hp', heq⟩ := hends p hp
        exact heq ▸ h.ends p' hp' }

/-- Whether the data is handed out or only announced. -/
theorem passData_spec (h : Ready conn σ k next next noted ps) :
    ∃ q' σ' ps', conn.passData = .ok { conn with receiveQueue := q' } ∧ σ'.start = σ.start ∧
      σ'.received = σ.received ∧
      Ready { conn with receiveQueue := q' } σ' k next next noted ps' := by
  rw [passData]
  split_ifs with hnotify
  · exact ⟨conn.receiveQueue, σ, ps, rfl, rfl, rfl, h⟩
  · obtain ⟨q', ps', heq, hready⟩ := forwardData_spec h
    exact ⟨q', { σ with first := next }, ps', heq, rfl, rfl, hready⟩

/-- Moving over a FIN that came before. -/
theorem catchUpFin_spec (h : Ready conn σ k next next noted ps) :
    ∃ n, Ready conn.catchUpFin.1 σ k next n noted ps ∧
      (conn.catchUpFin.2 = false → n = next) ∧ n ≤ next + 1 ∧
      conn.catchUpFin.1.fsmState = conn.fsmState ∧ conn.catchUpFin.1.sndSack = conn.sndSack ∧
      conn.catchUpFin.1.sndDsack = conn.sndDsack := by
  rw [catchUpFin]
  split_ifs with hfin
  · have hready : Ready { conn with ackNow := true } σ k next next noted ps :=
      h.congr rfl rfl rfl rfl
    have hsucc : conn.rcvFinSeq + 1 = wrap (next + 1) := by
      rw [← hfin.2, h.rcvNxt_eq]
      exact wrap_add_wrap next 1
    exact ⟨next + 1, { hready with rcvNxt_eq := hsucc, le := by omega, le_succ := le_rfl },
      by simp, le_rfl, rfl, rfl, rfl⟩
  · exact ⟨next, h, by simp, by omega, rfl, rfl, rfl⟩

/-- **The text of a segment** is inserted, and the answer is sound. -/
theorem safe_insertText {tcpseg : TCPSegment Unit} {arrival : Arrival} {x y : ℕ}
    (h : Ready conn σ σ.first next next noted ps) (htext : conn.fsmState.ProcessesText)
    (hsack : conn.sndSack = false) (hdsack : conn.sndDsack = false)
    (hx : tcpseg.sequenceNo = wrap x) (hy : x + tcpseg.payloadLength = y) (hxy : x < y)
    (hle : next ≤ x) (hend : y ≤ σ.first + conn.maxRcvBuffer.toNat) :
    Safe σ.start (σ.received ∪ Set.Ico x y) next noted
      ((conn.insertText tcpseg arrival.time).bind fun r ↦
        r.1.finishSegment conn.rcvNxt tcpseg arrival r.2.1 r.2.2) := by
  have hendNo : tcpseg.endNo = wrap y := by
    rw [TCPSegment.endNo, hx, ← hy]
    exact wrap_add_wrap _ _
  have hmax := h.maxRcvBuffer_lt
  have hfirst := h.refines.first_le
  obtain ⟨q', next', ps', hinsert, hnext, hready⟩ := insert_spec h hx hy hxy hle hend
  have hnext' : next' ≤ σ.first + conn.maxRcvBuffer.toNat := hready.next_le
  have hsub : Set.Ico x y ⊆ σ.received ∪ Set.Ico x y := Set.subset_union_right
  have hrcvNxt : q'.rcvNxt = wrap next' := hready.rcvNxt_eq
  rw [insertText, hinsert]
  show Safe _ _ _ _ (Except.bind (if q'.rcvNxt = conn.rcvNxt then _ else _) _)
  by_cases hsame : q'.rcvNxt = conn.rcvNxt
  · rw [if_pos hsame]
    have heq : next' = next := by
      rw [hrcvNxt, h.rcvNxt_eq, wrap_eq_wrap ⟨by omega, by omega⟩] at hsame
      exact hsame
    subst heq
    have hready' : Ready { conn with receiveQueue := q' }
        { σ with received := σ.received ∪ Set.Ico x y } σ.first next' next' noted ps' :=
      hready.congr rfl hsame.symm rfl rfl
    have hout : Safe σ.start (σ.received ∪ Set.Ico x y) next' noted
        (((conn.noteOutOfOrder q' tcpseg).sendAck arrival.time).bind fun r ↦
          r.1.finishSegment conn.rcvNxt tcpseg arrival [r.2] false) :=
      safe_outOfOrder hready' htext hsack hdsack hsub hx hendNo hxy hle hend
    cases hsend : (conn.noteOutOfOrder q' tcpseg).sendAck arrival.time with
    | error e =>
      rw [hsend] at hout
      exact hout
    | ok r =>
      rw [hsend] at hout
      exact hout
  · rw [if_neg hsame]
    -- the segment has filled the gap, and perhaps more
    have hlt : next < next' := by
      refine lt_of_le_of_ne hnext fun heq ↦ hsame ?_
      rw [hrcvNxt, ← heq, h.rcvNxt_eq]
    have hmem : next ∈ Set.Ico x y :=
      (hready.refines.received_below h.refines.isNext.1.1 hlt).resolve_left h.refines.isNext.1.2
    have hynext : y ≤ next' := not_lt.1 fun hgt ↦
      hready.refines.isNext.1.2 (.inr ⟨hmem.1.trans hlt.le, hgt⟩)
    obtain ⟨q'', σ', ps'', hpass, hstart, hreceived, hready'⟩ := passData_spec hready
    obtain ⟨n, hready'', hfin, hn, hfsm, hs, hd⟩ := catchUpFin_spec hready'
    have hmoves : n = next' ∨ tcpseg.endNo ≠ wrap n := by
      rcases Nat.lt_or_ge next' n with hgt | hge
      · rw [hendNo, ne_eq, wrap_eq_wrap ⟨by omega, by omega⟩]
        omega
      · exact .inl (hge.antisymm hready''.le)
    rw [hpass]
    show Safe _ _ _ _ (TCPConnection.finishSegment _ _ _ _ [] _)
    have hfinish : Safe σ'.start σ'.received next noted
        (TCPConnection.finishSegment _ (wrap next) tcpseg arrival [] _) :=
      safe_finishSegment hready'' (hfsm.symm ▸ htext) (hs.trans hsack) (hd.trans hdsack) hfin
        hmoves (hnext.trans hready''.le) (by omega) fun _ ↦ ⟨x, y, hx, hendNo, hfirst.trans hle,
          hstart.trans_le (h.refines.start_le.trans (hfirst.trans hle)), hxy, hynext⟩
    rw [hstart, hreceived, ← h.rcvNxt_eq] at hfinish
    exact hfinish

theorem insertedText_arrive (conn : TCPConnection) (arrival : Arrival) :
    conn.insertedText (.arrive arrival) =
      if conn.IsSegmentAcceptable arrival ∧ ¬ (arrival.tcpseg.rstBit ∨ arrival.tcpseg.synBit) ∧
          arrival.ackPasses ∧ conn.fsmState.ProcessesText ∧ 0 < arrival.tcpseg.payloadLength then
        (conn.textToInsert arrival.tcpseg).toOption.join
      else none :=
  rfl

/-- **The text of a segment**, as it goes into the queue or is dropped. -/
theorem safe_processText {arrival : Arrival} (h : Ready conn σ σ.first next next noted ps)
    (htext : conn.fsmState.ProcessesText) (hsack : conn.sndSack = false)
    (hdsack : conn.sndDsack = false) (hacceptable : conn.IsSegmentAcceptable arrival)
    (hpos : 0 < arrival.tcpseg.payloadLength)
    (hnear : ∃ pos, arrival.tcpseg.sequenceNo = wrap pos ∧ σ.start ≤ pos ∧ next < pos + 2 ^ 31 ∧
      pos + arrival.tcpseg.payloadLength < next + 2 ^ 31) :
    Safe σ.start (σ.received ∪ points
        ((conn.textToInsert arrival.tcpseg).toOption.join.map (textAt next)).toList)
      next noted (conn.processText arrival) := by
  have hnone : σ.received ∪ points ((none : Option (ℕ × ℕ))).toList = σ.received := by
    rw [Option.toList_none, points_nil, Set.union_empty]
  cases hinsert : conn.textToInsert arrival.tcpseg with
  | error e =>
    rw [processText, hinsert]
    trivial
  | ok text =>
    cases text with
    | none =>
      rw [processText, hinsert]
      show Safe _ (σ.received ∪ points (none : Option (ℕ × ℕ)).toList) _ _
        (.ok (conn.moveFsm false, []))
      rw [hnone]
      exact safe_of_ready h htext (ahead_wrap le_rfl (by omega)) (fun _ ↦ rfl) hsack hdsack
    | some tcpseg =>
      obtain ⟨pos, hseq, hstart, hnext, hlast⟩ := hnear
      obtain ⟨x, y, hx, hy, hxy, hle, hposx, hylast, hend⟩ :=
        textToInsert_spec h hacceptable hpos hseq hnext hlast hinsert
      have hat : textAt next tcpseg = (x, y) := by
        rw [textAt, hx, nearest_wrap ⟨by omega, by omega⟩, hy]
      have hpoints : points ((Except.toOption (.ok (some tcpseg) :
          Except RuntimeError _)).join.map (textAt next)).toList = Set.Ico x y := by
        show points [textAt next tcpseg] = _
        rw [hat, points_cons, points_nil, Set.union_empty]
      rw [processText, hinsert, hpoints]
      exact safe_insertText h htext hsack hdsack hx hy hxy hle hend

/-- **A segment that arrives.** -/
theorem safe_processSegment1stThru8th {arrival : Arrival}
    (h : Ready conn σ k next next noted ps) (htext : conn.fsmState.ProcessesText)
    (hsack : conn.sndSack = false) (hdsack : conn.sndDsack = false)
    (hnear : 0 < arrival.tcpseg.payloadLength → ∃ pos, arrival.tcpseg.sequenceNo = wrap pos ∧
      σ.start ≤ pos ∧ next < pos + 2 ^ 31 ∧
      pos + arrival.tcpseg.payloadLength < next + 2 ^ 31) :
    Safe σ.start (σ.received ∪
        points ((conn.insertedText (.arrive arrival)).map (textAt next)).toList)
      next noted (conn.processSegment1stThru8th arrival) := by
  have hold : ahead next (wrap next) = next := ahead_wrap le_rfl (by omega)
  have hnone : σ.received ∪ points ((none : Option (TCPSegment Unit)).map (textAt next)).toList =
      σ.received := by
    rw [Option.map_none, Option.toList_none, points_nil, Set.union_empty]
  rw [insertedText_arrive, processSegment1stThru8th]
  by_cases hacceptable : conn.IsSegmentAcceptable arrival
  · rw [if_neg (not_not.2 hacceptable)]
    by_cases hreset : arrival.tcpseg.rstBit ∨ arrival.tcpseg.synBit
    · rw [if_pos hreset, if_neg fun hall ↦ hall.2.1 hreset, hnone]
      intro _
      show Outcome _ _ _ (ahead next conn.rcvNxt) _ _
      rw [h.rcvNxt_eq, hold]
      exact ⟨σ, k, next, ps, rfl, rfl, h.congr rfl h.rcvNxt_eq.symm rfl rfl, False.elim, by simp⟩
    · rw [if_neg hreset]
      by_cases hpasses : arrival.ackPasses
      · rw [if_neg (not_not.2 hpasses)]
        by_cases hpos : conn.fsmState.ProcessesText ∧ 0 < arrival.tcpseg.payloadLength
        · rw [if_pos hpos, if_pos ⟨hacceptable, hreset, hpasses, hpos⟩]
          obtain ⟨ackNow, hprobe⟩ : ∃ ackNow,
              conn.noteProbe arrival.tcpseg = { conn with ackNow } := by
            rw [noteProbe]
            split_ifs
            exacts [⟨_, rfl⟩, ⟨_, rfl⟩]
          have hready : Ready { conn with ackNow } σ σ.first next next noted ps :=
            h.rebase.congr rfl rfl rfl rfl
          rw [hprobe]
          exact safe_processText hready htext hsack hdsack hacceptable hpos.2 (hnear hpos.2)
        · rw [if_neg hpos, if_neg fun hall ↦ hpos hall.2.2.2, hnone, h.rcvNxt_eq]
          refine safe_finishSegment h htext hsack hdsack (fun _ ↦ rfl) (.inl rfl) le_rfl (by omega)
            fun hne ↦ absurd ?_ hne
          have hempty : arrival.tcpseg.payloadLength = 0 :=
            Nat.eq_zero_of_not_pos fun hlt ↦ hpos ⟨htext, hlt⟩
          rw [TCPSegment.endNo, hempty]
          exact (UInt32.add_zero _).symm
      · rw [if_pos hpasses, if_neg fun hall ↦ hpasses hall.2.2.1, hnone]
        show Safe _ _ _ _ (.ok (conn.moveFsm false, []))
        exact safe_of_ready h htext hold (fun _ ↦ rfl) hsack hdsack
  · rw [if_pos hacceptable, if_neg fun hall ↦ hacceptable hall.1, hnone]
    exact safe_answerUnacceptable h htext hsack hdsack hnear

end Arrivals

end Inet.Tcp
