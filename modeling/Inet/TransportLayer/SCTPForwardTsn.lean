import Inet.TransportLayer.SCTPGapListRuns
import Mathlib.Algebra.Order.Ring.Int
import Mathlib.Data.List.Basic

/-!
# The arrival of a FORWARD-TSN

`processForwardTsnArrived` is told that the peer has abandoned all up to a TSN, and which SSN is the
last that is skipped in each ordered stream. The expected SSN of such a stream is to go past that
one, and every TSN up to the given one is to count as received.

The TSNs are compared as integers, and the loop over them does not end for the last TSN of all: a
model of it is given the number of turns it may take. For a stream with chunks in its ordered queue
the SSN of the first of them is expected next, whatever the FORWARD-TSN lists. `forwards_iff` says
which of them do what they are to do.
-/

namespace Inet.Sctp

open SerialNumber

/-- `SCTP_UINT16_GT`. -/
def ssnGt (a b : UInt16) : Prop :=
  a < b ∧ 2 ^ 15 < b - a ∨ b < a ∧ a - b < 2 ^ 15

instance (a b : UInt16) : Decidable (ssnGt a b) :=
  inferInstanceAs (Decidable (_ ∨ _))

/-! ### The receive streams -/

/-- What `SCTPDataVariables` says of a chunk in the queue of a receive stream. -/
structure SCTPDataVariables where
  ssn : UInt16
  bbit : Bool
  ebit : Bool
  deriving DecidableEq

/-- `SCTPQueue`: the chunks in the order of their TSNs, as integers. -/
structure SCTPQueue where
  payloadQueue : List (UInt32 × SCTPDataVariables)
  ascending : payloadQueue.Pairwise fun a b ↦ a.1 < b.1

namespace SCTPQueue

/-- `getFirstSsnInQueue`, if `getQueueSize` is not zero. -/
def getFirstSsnInQueue (q : SCTPQueue) : Option UInt16 :=
  q.payloadQueue.head?.map fun elem ↦ elem.2.ssn

/-- The chunk is a complete message with the SSN. -/
def IsMessage (ssn : UInt16) (elem : UInt32 × SCTPDataVariables) : Prop :=
  elem.2.ssn = ssn ∧ elem.2.bbit = true ∧ elem.2.ebit = true

instance (ssn : UInt16) (elem : UInt32 × SCTPDataVariables) : Decidable (IsMessage ssn elem) :=
  inferInstanceAs (Decidable (_ ∧ _))

/-- `dequeueChunkBySSN`. -/
def dequeueChunkBySSN (q : SCTPQueue) (ssn : UInt16) : Option (SCTPDataVariables × SCTPQueue) :=
  (q.payloadQueue.find? (IsMessage ssn)).map fun elem ↦
    (elem.2, ⟨q.payloadQueue.eraseP (IsMessage ssn), q.ascending.sublist List.eraseP_sublist⟩)

/-- There is a message to dequeue. -/
def HasMessage (q : SCTPQueue) (ssn : UInt16) : Prop :=
  (q.dequeueChunkBySSN ssn).isSome

end SCTPQueue

/-- `SCTPReceiveStream`, with the one of its queues that is read here. -/
structure SCTPReceiveStream where
  expectedStreamSeqNum : ℤ := 0
  orderedQ : SCTPQueue

namespace SCTPReceiveStream

/-- The expected SSN is one. -/
def InRange (rStream : SCTPReceiveStream) : Prop :=
  0 ≤ rStream.expectedStreamSeqNum ∧ rStream.expectedStreamSeqNum ≤ 65535

/-- The stream is told of a skipped SSN, which is a `short`. -/
def skip (rStream : SCTPReceiveStream) (ssn : Int16) : SCTPReceiveStream :=
  let expected : ℤ :=
    match rStream.orderedQ.getFirstSsnInQueue with
    | some first => first.toNat
    | none =>
      if rStream.expectedStreamSeqNum ≤ ssn.toInt then ssn.toInt + 1
      else rStream.expectedStreamSeqNum
  { rStream with expectedStreamSeqNum := if 65535 < expected then 0 else expected }

end SCTPReceiveStream

/-! ### The chunk and the association -/

/-- `SCTPForwardTsnChunk`. The arrays `sid` and `ssn` are one of pairs. -/
structure SCTPForwardTsnChunk where
  newCumTsn : UInt32
  streams : List (UInt16 × Int16)

/-- The SSNs that are listed for a stream with ordered delivery: -1 stands for unordered. -/
def ssnsIn (streams : List (UInt16 × Int16)) (sid : UInt16) : List Int16 :=
  (streams.filter fun entry ↦ entry.1 = sid ∧ entry.2 ≠ -1).map Prod.snd

/-- The SSNs that the chunk lists for a stream. -/
abbrev SCTPForwardTsnChunk.ssns (fwChunk : SCTPForwardTsnChunk) (sid : UInt16) : List Int16 :=
  ssnsIn fwChunk.streams sid

/-- What `processForwardTsnArrived` reads and writes of an `SCTPAssociation`. -/
structure SCTPAssociation where
  gapList : SCTPGapList
  receiveStreams : UInt16 → Option SCTPReceiveStream
  /-- The streams of which `sendDataArrivedNotification` has told the application. -/
  notified : List UInt16 := []

namespace SCTPGapList

/-- `SCTPGapList::tsnInGapList`. -/
def tsnInGapList (s : SCTPGapList) (tsn : UInt32) : Prop :=
  s.CombinedGapList.tsnInGapList tsn

instance (s : SCTPGapList) (tsn : UInt32) : Decidable (s.tsnInGapList tsn) :=
  inferInstanceAs (Decidable (∃ gap ∈ _, _))

/-- One turn of the loop over the abandoned TSNs. The `dummy` is only written. -/
def abandonTSN (s : SCTPGapList) (i : UInt32) : Option SCTPGapList :=
  if s.CumAckTSN < i ∧ ¬s.tsnInGapList i then do
    let (_, _, s) ← s.updateGapList i false false
    s.tryToAdvanceCumAckTSN
  else some s

/-- The loop, for fewer turns than the given number. -/
def abandonTSNs (newCumTsn : UInt32) : ℕ → UInt32 → SCTPGapList → Option SCTPGapList
  | 0, _, _ => none
  | turns + 1, i, s =>
    if i ≤ newCumTsn then do abandonTSNs newCumTsn turns (i + 1) (← s.abandonTSN i) else some s

end SCTPGapList

namespace SCTPAssociation

/-- One entry of the arrays. A stream that is not there stops the model. -/
def skipStream (a : SCTPAssociation) (entry : UInt16 × Int16) : Option SCTPAssociation :=
  if entry.2 ≠ -1 then do
    let rStream ← a.receiveStreams entry.1
    return { a with
      receiveStreams := Function.update a.receiveStreams entry.1 (some (rStream.skip entry.2))
      notified := a.notified ++ [entry.1] }
  else some a

/-- `processForwardTsnArrived`. -/
def processForwardTsnArrived (turns : ℕ) (a : SCTPAssociation) (fwChunk : SCTPForwardTsnChunk) :
    Option SCTPAssociation :=
  -- old FORWARD-TSNs are ignored
  if fwChunk.newCumTsn ≤ a.gapList.CumAckTSN then some a
  else do
    let a ← fwChunk.streams.foldlM skipStream a
    let gapList ← a.gapList.abandonTSNs fwChunk.newCumTsn turns (a.gapList.CumAckTSN + 1)
    return { a with gapList }

/-- `processForwardTsnArrived` returns, and leaves an association. -/
def Returns (a : SCTPAssociation) (fwChunk : SCTPForwardTsnChunk) (a' : SCTPAssociation) : Prop :=
  ∃ turns, a.processForwardTsnArrived turns fwChunk = some a'

end SCTPAssociation

/-! ### What a FORWARD-TSN is to do -/

/-- All up to a position counts as received. -/
def Received.skipTo (r : Received) (x : ℕ) : Received :=
  { r with base := max r.base x }

/-- The SSN that an expected or listed number stands for. -/
abbrev ssnOf (n : ℤ) : UInt16 :=
  UInt16.ofInt n

/-- An expected SSN is past those that are skipped, and skips no later message in the queue. -/
def SCTPQueue.Clears (q : SCTPQueue) (skipped : List Int16) (expected : UInt16) : Prop :=
  ∀ ssn ∈ skipped, ssnGt expected (ssnOf ssn.toInt) ∧
    ∀ later, q.HasMessage later → ssnGt later (ssnOf ssn.toInt) → ¬ssnGt expected later

namespace SCTPAssociation

/-- **The receiver has been moved past the abandoned data.** -/
structure MovedPast (a a' : SCTPAssociation) (fwChunk : SCTPForwardTsnChunk) (r : Received)
    (x : ℕ) : Prop where
  gapList : ∃ cum', x ≤ cum' ∧ a'.gapList.Represents (r.skipTo x) cum'
  streams : ∀ sid, fwChunk.ssns sid ≠ [] → ∃ rStream rStream',
    a.receiveStreams sid = some rStream ∧ a'.receiveStreams sid = some rStream' ∧
      rStream.orderedQ.Clears (fwChunk.ssns sid) (ssnOf rStream'.expectedStreamSeqNum)

/-- A FORWARD-TSN that is ahead moves the receiver, and any other changes nothing. -/
def Forwards (a : SCTPAssociation) (fwChunk : SCTPForwardTsnChunk) (r : Received) (cum : ℕ) : Prop :=
  if tsnGt fwChunk.newCumTsn a.gapList.CumAckTSN then
    ∃ a', a.Returns fwChunk a' ∧
      a.MovedPast a' fwChunk r (cum + (fwChunk.newCumTsn - a.gapList.CumAckTSN).toNat)
  else a.Returns fwChunk a

end SCTPAssociation

/-! ### When it does so -/

/-- The SSNs listed for a stream leave it with an SSN past all of them. If nothing is queued, that
is the expected one, if all that are listed are smaller, or the one behind the greatest. -/
def SCTPReceiveStream.Clears (rStream : SCTPReceiveStream) (skipped : List Int16) : Prop :=
  match rStream.orderedQ.getFirstSsnInQueue with
  | some first => rStream.orderedQ.Clears skipped first
  | none =>
    (∀ ssn ∈ skipped, ssn.toInt < rStream.expectedStreamSeqNum ∧
      ssnGt (ssnOf rStream.expectedStreamSeqNum) (ssnOf ssn.toInt)) ∨
    ∃ greatest ∈ skipped, rStream.expectedStreamSeqNum ≤ greatest.toInt ∧
      ∀ ssn ∈ skipped, ssn.toInt ≤ greatest.toInt ∧
        ssnGt (ssnOf (greatest.toInt + 1)) (ssnOf ssn.toInt)

/-- The TSNs compare as integers as they do modulo `2 ^ 32`, the loop ends, and each stream that is
listed is there and comes past what is listed for it. -/
def SCTPForwardTsnChunk.Forwardable (fwChunk : SCTPForwardTsnChunk) (a : SCTPAssociation) : Prop :=
  if tsnGt fwChunk.newCumTsn a.gapList.CumAckTSN then
    a.gapList.CumAckTSN < fwChunk.newCumTsn ∧ fwChunk.newCumTsn ≠ 0xffffffff ∧
      ∀ sid, fwChunk.ssns sid ≠ [] →
        ∃ rStream, a.receiveStreams sid = some rStream ∧ rStream.Clears (fwChunk.ssns sid)
  else fwChunk.newCumTsn ≤ a.gapList.CumAckTSN

/-! ### The expected SSN -/

/-- A message is found if all of it is one chunk of the queue. -/
theorem SCTPQueue.hasMessage_iff {q : SCTPQueue} {ssn : UInt16} :
    q.HasMessage ssn ↔ ∃ elem ∈ q.payloadQueue, IsMessage ssn elem := by
  rw [HasMessage, dequeueChunkBySSN, Option.isSome_map, List.find?_isSome]
  simp only [decide_eq_true_eq]

theorem SCTPQueue.not_hasMessage_of_empty {q : SCTPQueue} (h : q.getFirstSsnInQueue = none)
    (ssn : UInt16) : ¬q.HasMessage ssn := by
  rw [getFirstSsnInQueue, Option.map_eq_none_iff, List.head?_eq_none_iff] at h
  rw [hasMessage_iff, h]
  simp

namespace SCTPReceiveStream

variable {rStream : SCTPReceiveStream} {skipped : List Int16} {ssn : Int16} {first : UInt16}

theorem skip_of_first (h : rStream.orderedQ.getFirstSsnInQueue = some first) (ssn : Int16) :
    (rStream.skip ssn).expectedStreamSeqNum = first.toNat := by
  have hlt := first.toNat_lt
  simp only [skip, h]
  exact if_neg (by omega)

theorem skip_of_empty (h : rStream.orderedQ.getFirstSsnInQueue = none) (hr : rStream.InRange)
    (ssn : Int16) :
    (rStream.skip ssn).expectedStreamSeqNum =
      if rStream.expectedStreamSeqNum ≤ ssn.toInt then ssn.toInt + 1
      else rStream.expectedStreamSeqNum := by
  have hlt := ssn.toInt_lt
  have hle := hr.2
  simp only [skip, h]
  refine if_neg ?_
  split_ifs <;> omega

/-- The SSN of the first chunk is expected, whatever is listed. -/
theorem foldl_skip_of_first (h : rStream.orderedQ.getFirstSsnInQueue = some first)
    (hne : skipped ≠ []) :
    (skipped.foldl skip rStream).expectedStreamSeqNum = first.toNat := by
  induction skipped generalizing rStream with
  | nil => exact absurd rfl hne
  | cons ssn skipped ih =>
    rcases eq_or_ne skipped [] with rfl | hne
    · exact skip_of_first h ssn
    · exact ih h hne

/-- The greatest of the SSNs, as integers, decides. -/
theorem foldl_skip_of_empty (h : rStream.orderedQ.getFirstSsnInQueue = none)
    (hr : rStream.InRange) :
    rStream.expectedStreamSeqNum ≤ (skipped.foldl skip rStream).expectedStreamSeqNum ∧
      (∀ ssn ∈ skipped, ssn.toInt < (skipped.foldl skip rStream).expectedStreamSeqNum) ∧
      ((skipped.foldl skip rStream).expectedStreamSeqNum = rStream.expectedStreamSeqNum ∨
        ∃ greatest ∈ skipped, rStream.expectedStreamSeqNum ≤ greatest.toInt ∧
          (skipped.foldl skip rStream).expectedStreamSeqNum = greatest.toInt + 1) := by
  induction skipped generalizing rStream with
  | nil => exact ⟨le_rfl, by simp, .inl rfl⟩
  | cons ssn skipped ih =>
    have hstep := skip_of_empty h hr ssn
    have hlt := ssn.toInt_lt
    have hr' : (rStream.skip ssn).InRange := by
      obtain ⟨hnonneg, hle⟩ := hr
      rw [InRange, hstep]
      split_ifs <;> omega
    have hq : (rStream.skip ssn).orderedQ.getFirstSsnInQueue = none := h
    obtain ⟨hle, hall, hlast⟩ := ih hq hr'
    have hpast : rStream.expectedStreamSeqNum ≤ (rStream.skip ssn).expectedStreamSeqNum ∧
        ssn.toInt < (rStream.skip ssn).expectedStreamSeqNum := by
      rw [hstep]
      split_ifs <;> omega
    rw [List.foldl_cons]
    refine ⟨hpast.1.trans hle, List.forall_mem_cons.2 ⟨hpast.2.trans_le hle, hall⟩, ?_⟩
    rcases hlast with hsame | ⟨greatest, hmem, hge, heq⟩
    · rw [hsame, hstep]
      split_ifs with hmove
      · exact .inr ⟨ssn, List.mem_cons_self, hmove, rfl⟩
      · exact .inl rfl
    · exact .inr ⟨greatest, List.mem_cons_of_mem _ hmem, hpast.1.trans hge, heq⟩

theorem ssnOf_toNat (ssn : UInt16) : ssnOf ssn.toNat = ssn := by
  have hlt := ssn.toNat_lt
  rw [← UInt16.toNat_inj, ssnOf, UInt16.ofInt, UInt16.toNat_ofNat']
  omega

/-- **The expected SSN comes past those that are listed** exactly for the streams that they leave so.
-/
theorem clears_foldl_skip_iff (hr : rStream.InRange) (hne : skipped ≠ []) :
    rStream.orderedQ.Clears skipped (ssnOf (skipped.foldl skip rStream).expectedStreamSeqNum) ↔
      rStream.Clears skipped := by
  rw [SCTPReceiveStream.Clears]
  rcases hfirst : rStream.orderedQ.getFirstSsnInQueue with - | first
  · obtain ⟨-, hall, hlast⟩ := @foldl_skip_of_empty rStream skipped hfirst hr
    have hclears (expected : UInt16) : rStream.orderedQ.Clears skipped expected ↔
        ∀ ssn ∈ skipped, ssnGt expected (ssnOf ssn.toInt) :=
      forall₂_congr fun ssn _ ↦
        and_iff_left fun later hlater ↦
          absurd hlater (SCTPQueue.not_hasMessage_of_empty hfirst later)
    rw [hclears]
    constructor
    · intro hgt
      rcases hlast with hsame | ⟨greatest, hmem, hge, heq⟩
      · rw [hsame] at hall hgt
        exact .inl fun ssn hssn ↦ ⟨hall ssn hssn, hgt ssn hssn⟩
      · rw [heq] at hall hgt
        exact .inr ⟨greatest, hmem, hge, fun ssn hssn ↦ ⟨Int.lt_add_one_iff.1 (hall ssn hssn),
          hgt ssn hssn⟩⟩
    · rintro (hsmall | ⟨greatest, hmem, hge, hgreatest⟩) ssn hssn
      · rcases hlast with hsame | ⟨moved, hmoved, hge, -⟩
        · rw [hsame]
          exact (hsmall ssn hssn).2
        · exact absurd (hsmall moved hmoved).1 (not_lt.2 hge)
      · have hlt := hall greatest hmem
        rcases hlast with hsame | ⟨moved, hmoved, -, heq⟩
        · omega
        · have hmoved := (hgreatest moved hmoved).1
          obtain heq' : (skipped.foldl skip rStream).expectedStreamSeqNum = greatest.toInt + 1 := by
            omega
          rw [heq']
          exact (hgreatest ssn hssn).2
  · rw [foldl_skip_of_first hfirst hne, ssnOf_toNat]

end SCTPReceiveStream

/-! ### The listed streams -/

theorem ssnsIn_cons (entry : UInt16 × Int16) (streams : List (UInt16 × Int16)) (sid : UInt16) :
    ssnsIn (entry :: streams) sid =
      if entry.1 = sid ∧ entry.2 ≠ -1 then entry.2 :: ssnsIn streams sid
      else ssnsIn streams sid := by
  rw [ssnsIn, List.filter_cons]
  simp only [decide_eq_true_eq]
  split_ifs <;> rfl

namespace SCTPAssociation

variable {a a' : SCTPAssociation} {streams : List (UInt16 × Int16)} {entry : UInt16 × Int16}

/-- What the entries of the chunk do: each stream they list is there, and is told of its SSNs. -/
structure Skipped (a : SCTPAssociation) (streams : List (UInt16 × Int16)) (a' : SCTPAssociation) :
    Prop where
  gapList : a'.gapList = a.gapList
  exists_stream : ∀ sid, ssnsIn streams sid ≠ [] → ∃ rStream, a.receiveStreams sid = some rStream
  receiveStreams : ∀ sid, a'.receiveStreams sid =
    (a.receiveStreams sid).map ((ssnsIn streams sid).foldl SCTPReceiveStream.skip)

/-- The entry lists no SSN, or that of a stream which is there. -/
theorem skipStream_cases (h : a.skipStream entry = some a') :
    (entry.2 = -1 ∧ a' = a) ∨
    (entry.2 ≠ -1 ∧ ∃ rStream, a.receiveStreams entry.1 = some rStream ∧
      a'.gapList = a.gapList ∧ a'.receiveStreams =
        Function.update a.receiveStreams entry.1 (some (rStream.skip entry.2))) := by
  rw [skipStream] at h
  split_ifs at h with hlisted
  · rcases hstream : a.receiveStreams entry.1 with - | rStream
    · rw [hstream] at h
      cases h
    · rw [hstream] at h
      obtain rfl := Option.some.inj h
      exact .inr ⟨hlisted, rStream, rfl, rfl, rfl⟩
  · exact .inl ⟨not_not.1 hlisted, (Option.some.inj h).symm⟩

theorem skipped_of_foldlM (h : streams.foldlM skipStream a = some a') : a.Skipped streams a' := by
  induction streams generalizing a with
  | nil =>
    obtain rfl := Option.some.inj h
    exact ⟨rfl, fun sid hne ↦ absurd rfl hne, fun sid ↦ Option.map_id'.symm⟩
  | cons entry streams ih =>
    rw [List.foldlM_cons, Option.bind_eq_bind, Option.bind_eq_some_iff] at h
    obtain ⟨a₁, hentry, hrest⟩ := h
    have hskipped := ih hrest
    rcases skipStream_cases hentry with ⟨hnone, rfl⟩ | ⟨hlisted, rStream, hstream, hgaps, hupdate⟩
    · have hsame (sid : UInt16) : ssnsIn (entry :: streams) sid = ssnsIn streams sid := by
        rw [ssnsIn_cons, if_neg fun h ↦ h.2 hnone]
      exact ⟨hskipped.gapList, fun sid ↦ hsame sid ▸ hskipped.exists_stream sid,
        fun sid ↦ hsame sid ▸ hskipped.receiveStreams sid⟩
    · refine ⟨hskipped.gapList.trans hgaps, fun sid hne ↦ ?_, fun sid ↦ ?_⟩
      · rcases eq_or_ne entry.1 sid with rfl | hother
        · exact ⟨rStream, hstream⟩
        · rw [ssnsIn_cons, if_neg fun h ↦ hother h.1] at hne
          have hthere := hskipped.exists_stream sid hne
          rwa [hupdate, Function.update_of_ne hother.symm] at hthere
      · rw [hskipped.receiveStreams, hupdate, ssnsIn_cons]
        rcases eq_or_ne entry.1 sid with rfl | hother
        · rw [Function.update_self, if_pos ⟨rfl, hlisted⟩, hstream]
          rfl
        · rw [Function.update_of_ne hother.symm, if_neg fun h ↦ hother h.1]

theorem exists_foldlM_skipStream
    (h : ∀ sid, ssnsIn streams sid ≠ [] → ∃ rStream, a.receiveStreams sid = some rStream) :
    ∃ a', streams.foldlM skipStream a = some a' := by
  induction streams generalizing a with
  | nil => exact ⟨a, rfl⟩
  | cons entry streams ih =>
    obtain ⟨a₁, hentry⟩ : ∃ a₁, a.skipStream entry = some a₁ := by
      rcases eq_or_ne entry.2 (-1) with hnone | hlisted
      · exact ⟨a, if_neg (not_not.2 hnone)⟩
      · obtain ⟨rStream, hstream⟩ := h entry.1 (by simp [ssnsIn_cons, hlisted])
        rw [skipStream, if_pos hlisted, hstream]
        exact ⟨_, rfl⟩
    obtain ⟨a', hrest⟩ : ∃ a', streams.foldlM skipStream a₁ = some a' := by
      refine ih fun sid hne ↦ ?_
      have hmore : ssnsIn (entry :: streams) sid ≠ [] := by
        rw [ssnsIn_cons]
        split_ifs
        exacts [List.cons_ne_nil _ _, hne]
      rcases skipStream_cases hentry with ⟨-, rfl⟩ | ⟨-, rStream, -, -, hupdate⟩
      · exact h sid hmore
      · rw [hupdate]
        rcases eq_or_ne entry.1 sid with rfl | hother
        · exact ⟨_, Function.update_self _ _ _⟩
        · rw [Function.update_of_ne hother.symm]
          exact h sid hmore
    refine ⟨a', ?_⟩
    rw [List.foldlM_cons, hentry]
    exact hrest

end SCTPAssociation

/-! ### The loop over the abandoned TSNs -/

/-- The TSN behind the cumulative one is not overlooked, unless it is the last of all. -/
theorem SCTPSimpleGapList.not_overlooks_next {cTsnAck : UInt32} (hzero : cTsnAck + 1 + 1 ≠ 0)
    (lo : UInt32) (gaps : List Gap) : ¬overlooks (cTsnAck + 1) cTsnAck lo gaps := by
  induction gaps generalizing lo with
  | nil => exact id
  | cons gap gaps ih =>
    rw [overlooks]
    split_ifs with hpos
    · exact fun hover ↦ ih _ hover.2
    · rw [UInt32.lt_iff_toNat_lt] at hpos
      have hstart : gap.start = 0 := UInt32.toNat_inj.1 (Nat.eq_zero_of_not_pos hpos)
      rw [hstart]
      exact fun hover ↦ hover.2.1 ⟨rfl, hzero⟩

namespace SCTPGapList

open SCTPSimpleGapList

variable {s s₀ : SCTPGapList} {r r' : Received} {cum c p x : ℕ} {newCumTsn : UInt32}

theorem mem_all_skipTo {y : ℕ} : y ∈ (r.skipTo x).all ↔ y ≤ x ∨ y ∈ r.all := by
  simp only [Received.skipTo, Received.all, Set.mem_union, Set.mem_ofPred_eq, le_max_iff]
  tauto

/-- Sets that agree above the cumulative position. -/
theorem Follows.congr (h : s.Follows r c) (hbase : r'.base ≤ c) (hcontiguous : ∀ y ≤ c, y ∈ r'.all)
    (hrevokable : ∀ y, c < y → (y ∈ r.revokable ↔ y ∈ r'.revokable))
    (hnonRevokable : ∀ y, c < y → (y ∈ r.nonRevokable ↔ y ∈ r'.nonRevokable))
    (hdisjoint : Disjoint r'.revokable r'.nonRevokable) : s.Follows r' c where
  cumAckTSN := h.cumAckTSN
  base_le := hbase
  contiguous := hcontiguous
  combined := h.combined.congr fun y hy ↦ by
    have hold : ¬y ≤ r.base := not_le.2 (h.base_le.trans_lt hy)
    have hnew : ¬y ≤ r'.base := not_le.2 (hbase.trans_lt hy)
    simp only [Received.all, Set.mem_union, Set.mem_ofPred_eq, hold, hnew, false_or,
      hrevokable y hy, hnonRevokable y hy]
  revokable := h.revokable.congr hrevokable
  nonRevokable := h.nonRevokable.congr hnonRevokable
  disjoint := hdisjoint

/-- Nothing new is said of what lies below the cumulative position. -/
theorem Follows.skipTo (h : s.Follows r c) (hx : x ≤ c) : s.Follows (r.skipTo x) c :=
  h.congr (max_le h.base_le hx) (fun y hy ↦ mem_all_skipTo.2 (.inr (h.contiguous y hy)))
    (fun _ _ ↦ Iff.rfl) (fun _ _ ↦ Iff.rfl) h.disjoint

theorem skipTo_skipTo (hx : p ≤ x) : (r.skipTo p).skipTo x = r.skipTo x := by
  simp only [Received.skipTo, max_assoc, max_eq_right hx]

/-- **The next TSN counts as received.** No block is added, so there is room for it. -/
theorem Follows.updateGapList_next (h : s.Follows r c) (hzero : wrap (c + 2) ≠ 0) :
    ∃ c' s', s.updateGapList (wrap (c + 1)) false false = some (true, true, s') ∧ c + 1 ≤ c' ∧
      s'.Follows (r.skipTo (c + 1)) c' := by
  have hover : ¬(GapListCall.updateGapList (c + 1) false false).Overlooks s := by
    rw [GapListCall.Overlooks, h.cumAckTSN, ← wrap_add_one]
    have hzero : wrap c + 1 + 1 ≠ 0 := by rwa [wrap_add_one, wrap_add_one]
    exact not_or.2 ⟨not_overlooks_next hzero _ _, not_overlooks_next hzero _ _⟩
  obtain ⟨c', s', hupdate, hfollows⟩ := h.update_nonRevokable (fun hne ↦ absurd rfl hne)
    (Nat.lt_succ_self c) (by omega) h.combined.next_notMem false hover
  have hmem {y : ℕ} : y ∈ (GapListCall.effect r (.updateGapList (c + 1) false false)).all ↔
      y = c + 1 ∨ y ∈ r.all := by
    simp only [GapListCall.effect, Received.all, Set.mem_union, Set.mem_sdiff, Set.mem_insert_iff,
      Set.mem_singleton_iff]
    tauto
  have hle : c + 1 ≤ c' := by
    by_contra hlt
    refine hfollows.combined.next_notMem (hmem.2 ?_)
    rcases eq_or_ne c' c with rfl | hne
    · exact .inl rfl
    · exact .inr (h.contiguous _ (by omega))
  refine ⟨c', s', hupdate, hle, hfollows.congr ?_ (fun y hy ↦ ?_) (fun y hy ↦ ?_) (fun y hy ↦ ?_)
    h.disjoint⟩
  · exact max_le (h.base_le.trans (by omega)) hle
  · rw [mem_all_skipTo]
    exact (hmem.1 (hfollows.contiguous y hy)).imp_left le_of_eq
  · exact and_iff_left (hle.trans_lt hy).ne'
  · exact or_iff_right (hle.trans_lt hy).ne'

theorem updateGapList_of_le {i : UInt32} (h : tsnLe i s.CumAckTSN) :
    s.updateGapList i false false = some (false, false, s) := by
  have hsame (g : SCTPSimpleGapList) :
      g.updateGapList i s.CumAckTSN false = some ⟨false, s.CumAckTSN, false, g⟩ := if_pos h
  have hkind : s.updateKind i false false = some (false, s) := by
    rw [updateKind, if_neg Bool.false_ne_true, hsame]
    rfl
  rw [updateGapList_of_kind hkind, updateCombined, hsame, Option.bind_eq_bind, Option.bind_some]
  exact (if_neg (not_not.2 rfl)).trans rfl

/-- **One turn**, for the TSN behind those that count as received. -/
theorem Follows.abandonTSN (h : s.Follows (r.skipTo p) c) (hp : p ≤ c) (hc : c < p + 1 + 2 ^ 31)
    (hlast : (wrap p).toNat + 2 < 2 ^ 32) :
    ∃ c' s', s.abandonTSN (wrap (p + 1)) = some s' ∧ p + 1 ≤ c' ∧
      s'.Follows (r.skipTo (p + 1)) c' := by
  have hnat : (wrap (p + 1)).toNat = (wrap p).toNat + 1 := by
    rw [toNat_wrap] at hlast ⊢
    rw [toNat_wrap]
    omega
  rcases hp.eq_or_lt with rfl | hlt
  · -- nothing but the TSNs up to the one before has been received
    have hbehind : s.CumAckTSN < wrap (p + 1) := by
      rw [h.cumAckTSN, UInt32.lt_iff_toNat_lt, hnat]
      exact Nat.lt_succ_self _
    have hout : ¬s.tsnInGapList (wrap (p + 1)) := by
      rw [SCTPGapList.tsnInGapList, h.combined.tsnInGapList_iff]
      rintro ⟨y, hy, hpy, heq⟩
      have hbelow := h.combined.lt_of_mem hpy hy
      obtain rfl := (wrap_inj (by omega) (by omega)).1 heq
      exact h.combined.next_notMem hy
    have hzero : wrap (p + 2) ≠ 0 := by
      rw [ne_eq, ← UInt32.toNat_inj, toNat_wrap]
      rw [toNat_wrap] at hlast
      show (p + 2) % 2 ^ 32 ≠ 0
      omega
    obtain ⟨c', s', hupdate, hle, hfollows⟩ := h.updateGapList_next hzero
    rw [skipTo_skipTo (Nat.le_succ p)] at hfollows
    refine ⟨c', s', ?_, hle, hfollows⟩
    rw [SCTPGapList.abandonTSN, if_pos ⟨hbehind, hout⟩, hupdate]
    exact hfollows.tryToAdvance
  · refine ⟨c, s, ?_, hlt, ?_⟩
    · rw [SCTPGapList.abandonTSN]
      split_ifs with hturn
      · -- the cumulative TSN has wrapped around, and is the later one
        have hle : tsnLe (wrap (p + 1)) s.CumAckTSN := by
          rw [h.cumAckTSN]
          exact (tsnGe_wrap (by omega) (by omega)).2 hlt
        rw [updateGapList_of_le hle]
        exact h.tryToAdvance
      · rfl
    · have hnext := h.skipTo (x := p + 1) hlt
      rwa [skipTo_skipTo (Nat.le_succ p)] at hnext

/-- What counts as received without a gap ends soon, or with what has been abandoned. -/
theorem Follows.cum_bound (h₀ : s₀.Follows r cum) (h : s.Follows (r.skipTo p) c) :
    c ≤ max p cum ∨ c < cum + 2 ^ 31 := by
  rcases mem_all_skipTo.1 (h.contiguous c le_rfl) with hle | hmem
  · exact .inl (hle.trans (le_max_left _ _))
  · rcases le_or_gt c cum with hle | hlt
    · exact .inl (hle.trans (le_max_right _ _))
    · exact .inr (h₀.combined.lt_of_mem hlt hmem)

/-- **The loop** ends if the last TSN of all is not reached, and is given enough turns. -/
theorem Follows.abandonTSNs (h₀ : s₀.Follows r cum) (hn : newCumTsn.toNat + 1 < 2 ^ 32)
    (hcum : cum ≤ p) (hx : newCumTsn.toNat = (wrap p).toNat + (x - p)) (hpx : p ≤ x)
    (h : s.Follows (r.skipTo p) c) (hp : p ≤ c) :
    ∃ c' s', s'.Follows (r.skipTo x) c' ∧ x ≤ c' ∧ ∀ turns,
      SCTPGapList.abandonTSNs newCumTsn turns (wrap (p + 1)) s =
        if x - p < turns then some s' else none := by
  have hnat : (wrap (p + 1)).toNat = (wrap p).toNat + 1 := by
    rw [toNat_wrap] at hx ⊢
    rw [toNat_wrap]
    omega
  induction hk : x - p generalizing p c s with
  | zero =>
    obtain rfl : p = x := by omega
    refine ⟨c, s, h, hp, fun turns ↦ ?_⟩
    have hend : ¬wrap (p + 1) ≤ newCumTsn := by
      rw [UInt32.le_iff_toNat_le, hnat]
      omega
    cases turns with
    | zero => rfl
    | succ turns => rw [SCTPGapList.abandonTSNs, if_neg hend, if_pos turns.succ_pos]
  | succ k ih =>
    have hturn : wrap (p + 1) ≤ newCumTsn := by
      rw [UInt32.le_iff_toNat_le, hnat]
      omega
    have hbound := h₀.cum_bound h
    rw [max_eq_left hcum] at hbound
    obtain ⟨c₁, s₁, hone, hle, hfollows⟩ := h.abandonTSN hp (by omega) (by omega)
    have hnat' : (wrap (p + 1 + 1)).toNat = (wrap (p + 1)).toNat + 1 := by
      rw [hnat]
      rw [toNat_wrap] at hx ⊢
      rw [toNat_wrap]
      omega
    obtain ⟨c', s', hfollows', hle', hrun⟩ :=
      ih (by omega) (by omega) (by omega) hfollows hle hnat' (by omega)
    refine ⟨c', s', hfollows', hle', fun turns ↦ ?_⟩
    cases turns with
    | zero => rfl
    | succ turns =>
      rw [SCTPGapList.abandonTSNs, if_pos hturn, hone, wrap_add_one]
      refine (hrun turns).trans ?_
      simp only [Nat.succ_lt_succ_iff]

/-- For the last TSN of all the loop does not end. -/
theorem abandonTSNs_last (turns : ℕ) (i : UInt32) (s : SCTPGapList) :
    SCTPGapList.abandonTSNs 0xffffffff turns i s = none := by
  induction turns generalizing i s with
  | zero => rfl
  | succ turns ih =>
    have hturn : i ≤ 0xffffffff := by
      rw [UInt32.le_iff_toNat_le]
      exact Nat.le_of_lt_succ i.toNat_lt
    rw [SCTPGapList.abandonTSNs, if_pos hturn]
    rcases s.abandonTSN i with - | s'
    · rfl
    · exact ih _ s'

end SCTPGapList

/-! ### When a FORWARD-TSN moves the receiver -/

/-- A TSN is ahead if it is reached within half the number space. -/
theorem tsnGt_iff {a b : UInt32} : tsnGt a b ↔ 0 < (a - b).toNat ∧ (a - b).toNat < 2 ^ 31 := by
  have ha := a.toNat_lt
  have hb := b.toNat_lt
  have hhalf : (2 ^ 31 : UInt32).toNat = 2 ^ 31 := rfl
  rw [tsnGt]
  simp only [UInt32.lt_iff_toNat_lt, UInt32.toNat_sub, hhalf]
  omega

namespace SCTPAssociation

variable {a a' : SCTPAssociation} {fwChunk : SCTPForwardTsnChunk} {r : Received} {cum : ℕ}

theorem returns_of_le (hle : fwChunk.newCumTsn ≤ a.gapList.CumAckTSN) :
    a.Returns fwChunk a' ↔ a' = a := by
  simp only [Returns, processForwardTsnArrived, if_pos hle, exists_const, Option.some.injEq,
    eq_comm]

/-- It returns after the entries and the loop. -/
theorem returns_of_lt (hlt : ¬fwChunk.newCumTsn ≤ a.gapList.CumAckTSN) :
    a.Returns fwChunk a' ↔ ∃ a₁ turns gapList, fwChunk.streams.foldlM skipStream a = some a₁ ∧
      a.gapList.abandonTSNs fwChunk.newCumTsn turns (a.gapList.CumAckTSN + 1) = some gapList ∧
      a' = { a₁ with gapList } := by
  simp only [Returns, processForwardTsnArrived, if_neg hlt, Option.bind_eq_bind,
    Option.bind_eq_some_iff, Option.pure_def, Option.some.injEq]
  constructor
  · rintro ⟨turns, a₁, hstreams, gapList, hloop, rfl⟩
    rw [(skipped_of_foldlM hstreams).gapList] at hloop
    exact ⟨a₁, turns, gapList, hstreams, hloop, rfl⟩
  · rintro ⟨a₁, turns, gapList, hstreams, hloop, rfl⟩
    rw [← (skipped_of_foldlM hstreams).gapList] at hloop
    exact ⟨turns, a₁, hstreams, gapList, hloop, rfl⟩

theorem not_returns_last (hlt : ¬fwChunk.newCumTsn ≤ a.gapList.CumAckTSN)
    (hlast : fwChunk.newCumTsn = 0xffffffff) : ¬a.Returns fwChunk a' := by
  rw [returns_of_lt hlt, hlast]
  rintro ⟨a₁, turns, gapList, -, hloop, -⟩
  rw [SCTPGapList.abandonTSNs_last] at hloop
  cases hloop

/-- **The gap lists that are left**, if there are any, are those of all up to the given TSN. -/
theorem exists_gapList (h : a.gapList.Follows r cum)
    (hlt : ¬fwChunk.newCumTsn ≤ a.gapList.CumAckTSN) (hlast : fwChunk.newCumTsn ≠ 0xffffffff) :
    ∃ c gapList, gapList.Follows
        (r.skipTo (cum + (fwChunk.newCumTsn - a.gapList.CumAckTSN).toNat)) c ∧
      cum + (fwChunk.newCumTsn - a.gapList.CumAckTSN).toNat ≤ c ∧
      ∀ a', a.Returns fwChunk a' ↔
        ∃ a₁, fwChunk.streams.foldlM skipStream a = some a₁ ∧ a' = { a₁ with gapList } := by
  have hn := fwChunk.newCumTsn.toNat_lt
  have hn' : fwChunk.newCumTsn.toNat ≠ 2 ^ 32 - 1 := fun heq ↦ hlast (UInt32.toNat_inj.1 heq)
  have hdistance : (fwChunk.newCumTsn - a.gapList.CumAckTSN).toNat =
      fwChunk.newCumTsn.toNat - a.gapList.CumAckTSN.toNat := by
    rw [UInt32.le_iff_toNat_le] at hlt
    rw [UInt32.toNat_sub]
    omega
  rw [UInt32.le_iff_toNat_le] at hlt
  rw [hdistance]
  have hx : fwChunk.newCumTsn.toNat = (wrap cum).toNat +
      (cum + (fwChunk.newCumTsn.toNat - a.gapList.CumAckTSN.toNat) - cum) := by
    rw [← h.cumAckTSN]
    omega
  obtain ⟨c, gapList, hfollows, hle, hrun⟩ := h.abandonTSNs (x := cum +
    (fwChunk.newCumTsn.toNat - a.gapList.CumAckTSN.toNat)) (by omega) le_rfl hx (by omega)
    (h.skipTo le_rfl) le_rfl
  refine ⟨c, gapList, hfollows, hle, fun a' ↦ ?_⟩
  have hcum : a.gapList.CumAckTSN + 1 = wrap (cum + 1) := by
    rw [h.cumAckTSN, wrap_add_one]
  rw [returns_of_lt (by rwa [UInt32.le_iff_toNat_le]), hcum]
  simp only [hrun]
  constructor
  · rintro ⟨a₁, turns, gapList', hstreams, hloop, rfl⟩
    split_ifs at hloop
    obtain rfl := Option.some.inj hloop
    exact ⟨a₁, hstreams, rfl⟩
  · rintro ⟨a₁, hstreams, rfl⟩
    exact ⟨a₁, _, gapList, hstreams, if_pos (Nat.lt_succ_self _), rfl⟩

/-- Without the loop the cumulative TSN does not come past the abandoned ones. -/
theorem not_movedPast_self (h : a.gapList.Follows r cum) {x : ℕ} (hx : cum < x)
    (hbelow : x < cum + 2 ^ 31) : ¬a.MovedPast a fwChunk r x := by
  rintro ⟨⟨cum', hle, hrepresents⟩, -⟩
  have hlt : cum' < cum + 2 ^ 31 := by
    rcases SCTPGapList.mem_all_skipTo.1 (hrepresents.isCum.1 cum' le_rfl) with hle' | hmem
    · omega
    · exact h.combined.lt_of_mem (hx.trans_le hle) hmem
  have heq : wrap cum = wrap cum' := h.cumAckTSN.symm.trans hrepresents.cumAckTSN
  rw [wrap_inj (by omega) hlt] at heq
  omega

/-- A FORWARD-TSN that is taken for a new one changes the cumulative TSN. -/
theorem not_returns_self (h : a.gapList.Follows r cum)
    (hlt : ¬fwChunk.newCumTsn ≤ a.gapList.CumAckTSN) : ¬a.Returns fwChunk a := by
  intro hreturns
  have hlast : fwChunk.newCumTsn ≠ 0xffffffff := fun hlast ↦ not_returns_last hlt hlast hreturns
  obtain ⟨c, gapList, hfollows, hle, hiff⟩ := exists_gapList h hlt hlast
  obtain ⟨a₁, -, hsame⟩ := (hiff a).1 hreturns
  have hcum : wrap cum = wrap c := by
    rw [← h.cumAckTSN, ← hfollows.cumAckTSN, hsame]
  have hbound := h.cum_bound hfollows
  have hdistance := (fwChunk.newCumTsn - a.gapList.CumAckTSN).toNat_lt
  have hpos : 0 < (fwChunk.newCumTsn - a.gapList.CumAckTSN).toNat := by
    rw [UInt32.le_iff_toNat_le] at hlt
    rw [UInt32.toNat_sub]
    have := fwChunk.newCumTsn.toNat_lt
    omega
  rw [← UInt32.toNat_inj, toNat_wrap, toNat_wrap] at hcum
  omega

/-- The listed streams come past what is listed for them. -/
theorem movedPast_iff {a₁ : SCTPAssociation} {gapList : SCTPGapList} {c x : ℕ}
    (hranges : ∀ sid rStream, a.receiveStreams sid = some rStream → rStream.InRange)
    (hstreams : fwChunk.streams.foldlM skipStream a = some a₁)
    (hfollows : gapList.Follows (r.skipTo x) c) (hle : x ≤ c) :
    a.MovedPast { a₁ with gapList } fwChunk r x ↔ ∀ sid, fwChunk.ssns sid ≠ [] →
      ∃ rStream, a.receiveStreams sid = some rStream ∧ rStream.Clears (fwChunk.ssns sid) := by
  have hskipped := skipped_of_foldlM hstreams
  constructor
  · intro hmoved sid hne
    obtain ⟨rStream, rStream', hstream, hstream', hclears⟩ := hmoved.streams sid hne
    have hstream' : a₁.receiveStreams sid = some rStream' := hstream'
    rw [hskipped.receiveStreams, hstream, Option.map_some] at hstream'
    obtain rfl := Option.some.inj hstream'
    refine ⟨rStream, hstream, ?_⟩
    exact (SCTPReceiveStream.clears_foldl_skip_iff (hranges sid rStream hstream) hne).1 hclears
  · intro hclears
    refine ⟨⟨c, hle, hfollows.represents⟩, fun sid hne ↦ ?_⟩
    obtain ⟨rStream, hstream, hclear⟩ := hclears sid hne
    refine ⟨rStream, (fwChunk.ssns sid).foldl SCTPReceiveStream.skip rStream, hstream, ?_, ?_⟩
    · show a₁.receiveStreams sid = _
      rw [hskipped.receiveStreams, hstream, Option.map_some]
    · exact (SCTPReceiveStream.clears_foldl_skip_iff (hranges sid rStream hstream) hne).2 hclear

/-- **A FORWARD-TSN that is ahead moves the receiver past the abandoned data, and any other changes
nothing**, exactly if it is forwardable. -/
theorem forwards_iff (h : a.gapList.Follows r cum)
    (hranges : ∀ sid rStream, a.receiveStreams sid = some rStream → rStream.InRange) :
    a.Forwards fwChunk r cum ↔ fwChunk.Forwardable a := by
  rw [Forwards, SCTPForwardTsnChunk.Forwardable]
  split_ifs with hahead
  · obtain ⟨hpos, hbelow⟩ := tsnGt_iff.1 hahead
    rw [← UInt32.not_le]
    constructor
    · rintro ⟨a', hreturns, hmoved⟩
      have hlt : ¬fwChunk.newCumTsn ≤ a.gapList.CumAckTSN := by
        intro hle
        obtain rfl := (returns_of_le hle).1 hreturns
        exact not_movedPast_self h (by omega) (by omega) hmoved
      have hlast : fwChunk.newCumTsn ≠ 0xffffffff :=
        fun hlast ↦ not_returns_last hlt hlast hreturns
      obtain ⟨c, gapList, hfollows, hle, hiff⟩ := exists_gapList h hlt hlast
      obtain ⟨a₁, hstreams, rfl⟩ := (hiff a').1 hreturns
      exact ⟨hlt, hlast, (movedPast_iff hranges hstreams hfollows hle).1 hmoved⟩
    · rintro ⟨hlt, hlast, hclears⟩
      obtain ⟨c, gapList, hfollows, hle, hiff⟩ := exists_gapList h hlt hlast
      obtain ⟨a₁, hstreams⟩ : ∃ a₁, fwChunk.streams.foldlM skipStream a = some a₁ :=
        exists_foldlM_skipStream fun sid hne ↦ (hclears sid hne).imp fun _ ↦ And.left
      exact ⟨_, (hiff _).2 ⟨a₁, hstreams, rfl⟩,
        (movedPast_iff hranges hstreams hfollows hle).2 hclears⟩
  · constructor
    · intro hreturns
      by_contra hlt
      exact not_returns_self h hlt hreturns
    · exact fun hle ↦ (returns_of_le hle).2 rfl

/-- TSN 11 has arrived, the first fragment of the message with SSN 0 in stream 0. -/
def fragmentQueued : SCTPAssociation where
  gapList := { CumAckTSN := 11 }
  receiveStreams sid := if sid = 0 then some ⟨0, ⟨[(11, ⟨0, true, false⟩)], by simp⟩⟩ else none

/-- TSN 10 has arrived, and nothing is queued in stream 0. -/
def nothingQueued : SCTPAssociation where
  gapList := { CumAckTSN := 10 }
  receiveStreams sid := if sid = 0 then some ⟨0, ⟨[], .nil⟩⟩ else none

/-- The message with SSN 0 in stream 0, up to TSN 12, has been abandoned. -/
def messageAbandoned : SCTPForwardTsnChunk where
  newCumTsn := 12
  streams := [(0, 0)]

theorem forwards_iff_nothingQueued :
    nothingQueued.Forwards messageAbandoned ⟨10, ∅, ∅⟩ 10 := by
  refine (forwards_iff (GapListState.init_follows 10) fun sid rStream hstream ↦ ?_).2 ?_
  · simp only [nothingQueued] at hstream
    split_ifs at hstream
    obtain rfl := Option.some.inj hstream
    exact ⟨le_rfl, by decide⟩
  · rw [SCTPForwardTsnChunk.Forwardable, if_pos (by decide)]
    refine ⟨by decide, by decide, fun sid hne ↦ ?_⟩
    obtain rfl : sid = 0 := by
      by_contra hother
      exact hne ((ssnsIn_cons _ _ _).trans (if_neg fun h ↦ hother h.1.symm))
    refine ⟨_, rfl, .inr ⟨0, by decide, by decide, fun ssn hssn ↦ ?_⟩⟩
    obtain rfl : ssn = 0 := List.mem_singleton.1 hssn
    decide

/-- **The stream stalls.** The first chunk in its queue is a fragment of the abandoned message, whose
SSN is expected again. -/
theorem not_forwards_fragmentQueued :
    ¬∀ (a : SCTPAssociation) (fwChunk : SCTPForwardTsnChunk) (r : Received) (cum : ℕ),
      a.gapList.Follows r cum →
        (∀ sid rStream, a.receiveStreams sid = some rStream → rStream.InRange) →
          a.Forwards fwChunk r cum := by
  intro hall
  have hforwards := hall fragmentQueued messageAbandoned ⟨11, ∅, ∅⟩ 11
    (GapListState.init_follows 11) fun sid rStream hstream ↦ by
      simp only [fragmentQueued] at hstream
      split_ifs at hstream
      obtain rfl := Option.some.inj hstream
      exact ⟨le_rfl, by decide⟩
  rw [Forwards, if_pos (by decide)] at hforwards
  obtain ⟨a', hreturns, hmoved⟩ := hforwards
  obtain ⟨a₁, turns, gapList, hstreams, -, rfl⟩ := (returns_of_lt (by decide)).1 hreturns
  obtain ⟨rStream, rStream', hstream, hstream', hclears⟩ := hmoved.streams 0 (by decide)
  have hstream' : a₁.receiveStreams 0 = some rStream' := hstream'
  rw [(skipped_of_foldlM hstreams).receiveStreams, hstream, Option.map_some] at hstream'
  obtain rfl := Option.some.inj hstream
  obtain rfl := Option.some.inj hstream'
  exact absurd (hclears 0 (by decide)).1 (by decide)

end SCTPAssociation

end Inet.Sctp
