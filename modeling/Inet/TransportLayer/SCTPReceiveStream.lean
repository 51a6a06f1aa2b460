import Inet.Foundations.OrderedMap
import Mathlib.Data.UInt

/-!
# The receive stream of an SCTP association

A DATA chunk that has not been received before goes to the receive stream of its SID. Chunks wait in
`orderedQ` and `unorderedQ` until the fragments of their message are there; `reassemble` then
appends the data of the others to the first one. From `orderedQ` the complete message with the
expected SSN goes to `deliveryQ`, and from there the messages are taken in the order of their TSNs.

The queues are maps whose keys are TSNs, in the order of integers. Where the code reads a chunk
which is not there, or does not end, the model has no result.
-/

namespace Inet.SCTPDelivery

/-! ### The chunks -/

/-- `SCTPSimpleMessage`. -/
structure SCTPSimpleMessage where
  data : List UInt8
  dataLen : UInt32
  byteLength : ℕ
  deriving DecidableEq

/-- `SCTPDataVariables`, as far as the receive stream uses it; `len` is in bits. -/
structure SCTPDataVariables where
  tsn : UInt32
  ssn : UInt16
  ordered : Bool
  bbit : Bool
  ebit : Bool
  len : UInt32
  userData : SCTPSimpleMessage
  deriving DecidableEq

/-- The loop with `setData` and `getData`: an index past the end of an array is an error. -/
def copyData (data src : List UInt8) (offset : ℕ) : ℕ → Option (List UInt8)
  | 0 => some data
  | i + 1 => do
    let data ← copyData data src offset i
    let byte ← src[i]?
    if i + offset < data.length then some (data.set (i + offset) byte) else none

/-- What the loop of `reassemble` does with `firstVar` for one more fragment. -/
def SCTPDataVariables.addFragment (firstVar processVar : SCTPDataVariables) :
    Option SCTPDataVariables :=
  let firstSimple := firstVar.userData
  let processSimple := processVar.userData
  if 0 < firstSimple.data.length ∧ 0 < processSimple.data.length then do
    let data ← copyData (firstSimple.data ++ List.replicate processSimple.data.length 0)
      processSimple.data (firstVar.len / 8).toNat (processVar.len / 8).toNat
    some { firstVar with
      len := firstVar.len + processVar.len
      userData :=
        { data
          dataLen := firstSimple.dataLen + processSimple.dataLen
          byteLength := firstSimple.byteLength + processSimple.byteLength } }
  else some { firstVar with len := firstVar.len + processVar.len }

/-! ### The queues -/

/-- `SCTPQueue`: the `payloadQueue`. -/
abbrev SCTPQueue :=
  OrderedMap ℕ SCTPDataVariables

namespace SCTPQueue

/-- `getChunk`. -/
def getChunk (queue : SCTPQueue) (tsn : UInt32) : Option SCTPDataVariables :=
  queue.find tsn.toNat

/-- `getQueueSize`. -/
def getQueueSize (queue : SCTPQueue) : ℕ :=
  queue.entries.length

/-- `checkAndInsertChunk`. -/
def checkAndInsertChunk (queue : SCTPQueue) (key : UInt32) (chunk : SCTPDataVariables) :
    Bool × SCTPQueue :=
  match queue.getChunk key with
  | some _ => (false, queue)
  | none => (true, queue.insert key.toNat chunk)

/-- `getAndExtractChunk`, for which the TSN has to be there. -/
def getAndExtractChunk (queue : SCTPQueue) (tsn : UInt32) :
    Option (SCTPDataVariables × SCTPQueue) :=
  (queue.getChunk tsn).map fun chunk ↦ (chunk, queue.erase tsn.toNat)

/-- `extractMessage`. -/
def extractMessage (queue : SCTPQueue) : Option (SCTPDataVariables × SCTPQueue) :=
  queue.entries.head?.map fun elem ↦ (elem.2, queue.erase elem.1)

/-- `dequeueChunkBySSN`. -/
def dequeueChunkBySSN (queue : SCTPQueue) (ssn : UInt16) : Option (SCTPDataVariables × SCTPQueue) :=
  (queue.entries.find? fun elem ↦ elem.2.ssn == ssn && elem.2.bbit && elem.2.ebit).map fun elem ↦
    (elem.2, queue.erase elem.1)

end SCTPQueue

/-! ### The receive stream -/

/-- `SCTPReceiveStream`. -/
structure SCTPReceiveStream where
  expectedStreamSeqNum : ℕ
  deliveryQ : SCTPQueue
  orderedQ : SCTPQueue
  unorderedQ : SCTPQueue

namespace SCTPReceiveStream

/-- The number of TSNs: a loop that goes on for longer has been everywhere. -/
abbrev turns : ℕ :=
  2 ^ 32

/-- The first loop of `reassemble`, down to the first fragment. -/
def firstFragment (queue : SCTPQueue) : ℕ → UInt32 → Option UInt32
  | 0, _ => none
  | fuel + 1, begintsn =>
    match queue.getChunk begintsn with
    | some chunk => if chunk.bbit then some begintsn else firstFragment queue fuel (begintsn - 1)
    | none => some begintsn

/-- The second loop of `reassemble`, up to the last fragment. -/
def lastFragment (queue : SCTPQueue) : ℕ → UInt32 → Option UInt32
  | 0, _ => none
  | fuel + 1, endtsn =>
    match queue.getChunk endtsn with
    | some chunk => if chunk.ebit then some endtsn else lastFragment queue fuel (endtsn + 1)
    | none => some endtsn

/-- The third loop of `reassemble`, which moves the data to the first fragment. -/
def addFragments : ℕ → UInt32 → UInt32 → SCTPDataVariables → SCTPQueue →
    Option (SCTPDataVariables × SCTPQueue)
  | 0, _, _, _, _ => none
  | fuel + 1, begintsn, endtsn, firstVar, queue =>
    let begintsn := begintsn + 1
    if begintsn ≤ endtsn then do
      let (processVar, queue) ← queue.getAndExtractChunk begintsn
      let firstVar ← firstVar.addFragment processVar
      addFragments fuel begintsn endtsn firstVar queue
    else some (firstVar, queue)

/-- `reassemble`. -/
def reassemble (queue : SCTPQueue) (tsn : UInt32) : Option (UInt32 × SCTPQueue) := do
  let begintsn ← firstFragment queue turns tsn
  match queue.getChunk begintsn with
  | none => some (tsn, queue)
  | some firstVar =>
    let endtsn ← lastFragment queue turns begintsn
    match queue.getChunk endtsn with
    | none => some (tsn, queue)
    | some _ =>
      let (firstVar, queue) ← addFragments turns begintsn endtsn firstVar queue
      some (firstVar.tsn, queue.insert begintsn.toNat { firstVar with ebit := true })

/-- The branch of `enqueueNewDataChunk` for unordered chunks. -/
def enqueueUnordered (rStream : SCTPReceiveStream) (dchunk : SCTPDataVariables) :
    Option (ℕ × SCTPReceiveStream) :=
  if dchunk.bbit && dchunk.ebit then
    let (inserted, deliveryQ) := rStream.deliveryQ.checkAndInsertChunk dchunk.tsn dchunk
    some (if inserted then 2 else 0, { rStream with deliveryQ })
  else do
    let (inserted, unorderedQ) := rStream.unorderedQ.checkAndInsertChunk dchunk.tsn dchunk
    let (reassembled, unorderedQ) ← reassemble unorderedQ dchunk.tsn
    let chunk ← unorderedQ.getChunk reassembled
    -- the code asks for the B bit twice, and not for the E bit
    if chunk.bbit && chunk.bbit then
      let (chunk, unorderedQ) ← unorderedQ.getAndExtractChunk reassembled
      let (delivered, deliveryQ) := rStream.deliveryQ.checkAndInsertChunk reassembled chunk
      some (if delivered then 2 else if inserted then 3 else 0,
        { rStream with deliveryQ, unorderedQ })
    else some (if inserted then 3 else 0, { rStream with unorderedQ })

/-- A message with the expected SSN goes from `orderedQ` to `deliveryQ`: the step which
`enqueueNewDataChunk` and `putInDeliveryQ` have in common, with whether it got there. -/
def deliverExpected (rStream : SCTPReceiveStream) : Option (Bool × SCTPReceiveStream) :=
  match rStream.orderedQ.dequeueChunkBySSN (UInt16.ofNat rStream.expectedStreamSeqNum) with
  | none => none
  | some (chunk, orderedQ) =>
    match rStream.deliveryQ.checkAndInsertChunk chunk.tsn chunk with
    | (true, deliveryQ) =>
      let expectedStreamSeqNum :=
        if rStream.expectedStreamSeqNum + 1 > 65535 then 0 else rStream.expectedStreamSeqNum + 1
      some (true, { rStream with expectedStreamSeqNum, deliveryQ, orderedQ })
    | (false, deliveryQ) => some (false, { rStream with deliveryQ, orderedQ })

/-- The branch of `enqueueNewDataChunk` for ordered chunks. -/
def enqueueOrdered (rStream : SCTPReceiveStream) (dchunk : SCTPDataVariables) :
    Option (ℕ × SCTPReceiveStream) := do
  let (inserted, orderedQ) := rStream.orderedQ.checkAndInsertChunk dchunk.tsn dchunk
  let delivery := if inserted then 1 else 0
  let (delivery, orderedQ) ←
    if !dchunk.bbit || !dchunk.ebit then
      (reassemble orderedQ dchunk.tsn).map fun (_, orderedQ) ↦ (3, orderedQ)
    else some (delivery, orderedQ)
  let rStream := { rStream with orderedQ }
  match rStream.deliverExpected with
  | some (true, rStream) => some (2, rStream)
  | some (false, rStream) => some (delivery, rStream)
  | none => some (delivery, rStream)

/-- `enqueueNewDataChunk`, with the value it returns. -/
def enqueueNewDataChunk (rStream : SCTPReceiveStream) (dchunk : SCTPDataVariables) :
    Option (ℕ × SCTPReceiveStream) :=
  if !dchunk.ordered then rStream.enqueueUnordered dchunk else rStream.enqueueOrdered dchunk

/-- The loop of `putInDeliveryQ`: a message leaves `orderedQ` in each turn. -/
def putInDeliveryQLoop : ℕ → SCTPReceiveStream → SCTPReceiveStream
  | 0, rStream => rStream
  | size + 1, rStream =>
    match rStream.deliverExpected with
    | some (_, rStream) => putInDeliveryQLoop size rStream
    | none => rStream

/-- `putInDeliveryQ`. -/
def putInDeliveryQ (rStream : SCTPReceiveStream) : SCTPReceiveStream :=
  putInDeliveryQLoop rStream.orderedQ.getQueueSize rStream

/-- What `processDataArrived` has the receive stream do with a new chunk. -/
def processDataArrived (rStream : SCTPReceiveStream) (chunk : SCTPDataVariables) :
    Option SCTPReceiveStream := do
  let (ret, rStream) ← rStream.enqueueNewDataChunk chunk
  some (if 0 < ret ∧ ret < 3 then rStream.putInDeliveryQ else rStream)

/-- The constructor. -/
def start : SCTPReceiveStream where
  expectedStreamSeqNum := 0
  deliveryQ := ∅
  orderedQ := ∅
  unorderedQ := ∅

end SCTPReceiveStream

end Inet.SCTPDelivery
