import Inet.Foundations.Tiling
import Inet.TransportLayer.TCPSegment

/-!
# The SACK scoreboard

`TCPSACKRexmitQueue` keeps what a sender with selective acknowledgments knows about the bytes it has
sent: whether they have been sacked, and whether they have been retransmitted. It keeps regions of
sequence numbers with two bits each; an update that starts or ends inside a region splits it.
-/

namespace Inet.Tcp

/-- `TCPSACKRexmitQueue::Region`. -/
structure RexmitRegion where
  beginSeqNum : UInt32
  endSeqNum : UInt32
  sacked : Bool
  rexmitted : Bool
  deriving DecidableEq, Repr

/-- `TCPSACKRexmitQueue`; `stop` is the field `end`. -/
structure TCPSACKRexmitQueue where
  rexmitQueue : List RexmitRegion := []
  begin : UInt32 := 0
  stop : UInt32 := 0
  deriving DecidableEq, Repr

namespace TCPSACKRexmitQueue

/-- `TCPSACKRexmitQueue::init`. -/
def init (q : TCPSACKRexmitQueue) (seqNum : UInt32) : TCPSACKRexmitQueue :=
  { q with begin := seqNum, stop := seqNum }

/-- The loop of `checkQueue`. -/
def checkRegions (b stop : UInt32) : List RexmitRegion → Bool
  | [] => b = stop
  | elem :: rest =>
    b = elem.beginSeqNum && seqLess elem.beginSeqNum elem.endSeqNum &&
      checkRegions elem.endSeqNum stop rest

/-- `TCPSACKRexmitQueue::checkQueue`. -/
def checkQueue (q : TCPSACKRexmitQueue) : Bool :=
  checkRegions q.begin q.stop q.rexmitQueue

/-- The assertion at the end of an update. -/
def checked (q : TCPSACKRexmitQueue) : Except RuntimeError TCPSACKRexmitQueue :=
  if q.checkQueue then .ok q else .error .assertionFailed

/-! ### Updates -/

/-- `TCPSACKRexmitQueue::discardUpTo`. -/
def discardUpTo (q : TCPSACKRexmitQueue) (seqNum : UInt32) :
    Except RuntimeError TCPSACKRexmitQueue :=
  if ¬ (seqLE q.begin seqNum ∧ seqLE seqNum q.stop) then .error .assertionFailed
  else
    match q.rexmitQueue.dropWhile (seqLE ·.endSeqNum seqNum) with
    | [] => checked { q with rexmitQueue := [], begin := seqNum }
    | i :: rest =>
      if seqLE i.beginSeqNum seqNum ∧ seqLess seqNum i.endSeqNum then
        let rexmitQueue := { i with beginSeqNum := seqNum } :: rest
        checked { q with rexmitQueue, begin := seqNum }
      else .error .assertionFailed

/-- The search for the region of a sequence number, with the assertions that it exists. What comes
before it is returned as well. -/
def search (rexmitQueue : List RexmitRegion) (seqNum : UInt32) :
    Except RuntimeError (List RexmitRegion × RexmitRegion × List RexmitRegion) :=
  match rexmitQueue.dropWhile (seqLE ·.endSeqNum seqNum) with
  | [] => .error .assertionFailed
  | i :: rest =>
    if seqLE i.beginSeqNum seqNum ∧ seqLess seqNum i.endSeqNum then
      .ok (rexmitQueue.takeWhile (seqLE ·.endSeqNum seqNum), i, rest)
    else .error .assertionFailed

/-- The search, and the "chunk item" step behind it: the regions before and from `seqNum` on. -/
def chunkAt (rexmitQueue : List RexmitRegion) (seqNum : UInt32) :
    Except RuntimeError (List RexmitRegion × List RexmitRegion) := do
  let (before, i, rest) ← search rexmitQueue seqNum
  if i.beginSeqNum ≠ seqNum then
    return (before ++ [{ i with endSeqNum := seqNum }], { i with beginSeqNum := seqNum } :: rest)
  else return (before, i :: rest)

/-- The end of the regions a loop has passed, `fromSeqNum` if there are none. -/
def endOfPassed (passed : List RexmitRegion) (fromSeqNum : UInt32) : UInt32 :=
  (passed.getLast?.map RexmitRegion.endSeqNum).getD fromSeqNum

/-- What `enqueueSentData` does with the regions from `fromSeqNum` on. -/
def markRexmitted (regions : List RexmitRegion) (fromSeqNum toSeqNum : UInt32) :
    Except RuntimeError (List RexmitRegion) :=
  let passed := regions.takeWhile (seqLE ·.endSeqNum toSeqNum)
  let rest := regions.dropWhile (seqLE ·.endSeqNum toSeqNum)
  let marked := passed.map ({ · with rexmitted := true })
  let fromSeqNum := endOfPassed passed fromSeqNum
  if fromSeqNum ≠ toSeqNum then
    match rest with
    | [] => .ok (marked ++ [⟨fromSeqNum, toSeqNum, false, false⟩])
    | i :: rest =>
      if seqLess i.beginSeqNum toSeqNum then
        .ok (marked ++ ⟨fromSeqNum, toSeqNum, i.sacked, true⟩ ::
          { i with beginSeqNum := toSeqNum } :: rest)
      else .error .assertionFailed
  else if passed = [] then .error .assertionFailed
  else .ok (marked ++ rest)

/-- The end of `enqueueSentData`. -/
def withRegions (q : TCPSACKRexmitQueue) (rexmitQueue : List RexmitRegion) :
    Except RuntimeError TCPSACKRexmitQueue :=
  match rexmitQueue.head?, rexmitQueue.getLast? with
  | some front, some back =>
    checked { q with rexmitQueue, begin := front.beginSeqNum, stop := back.endSeqNum }
  | _, _ => .error .assertionFailed

/-- `TCPSACKRexmitQueue::enqueueSentData`. -/
def enqueueSentData (q : TCPSACKRexmitQueue) (fromSeqNum toSeqNum : UInt32) :
    Except RuntimeError TCPSACKRexmitQueue :=
  if ¬ (seqLE q.begin fromSeqNum ∧ seqLE fromSeqNum q.stop ∧ seqLess fromSeqNum toSeqNum) then
    .error .assertionFailed
  else if q.rexmitQueue = [] ∨ q.stop = fromSeqNum then
    q.withRegions (q.rexmitQueue ++ [⟨fromSeqNum, toSeqNum, false, false⟩])
  else do
    let (before, regions) ← chunkAt q.rexmitQueue fromSeqNum
    let regions ← markRexmitted regions fromSeqNum toSeqNum
    q.withRegions (before ++ regions)

/-- What `setSackedBit` does with the regions from `fromSeqNum` on. -/
def markSacked (regions : List RexmitRegion) (fromSeqNum toSeqNum : UInt32) :
    List RexmitRegion :=
  let passed := regions.takeWhile (seqLE ·.endSeqNum toSeqNum)
  let rest := regions.dropWhile (seqLE ·.endSeqNum toSeqNum)
  let marked := passed.map fun i ↦
    if seqGE i.beginSeqNum fromSeqNum then { i with sacked := true } else i
  match rest with
  | [] => marked
  | i :: rest =>
    if seqLess i.beginSeqNum toSeqNum ∧ seqLess toSeqNum i.endSeqNum then
      marked ++ { i with endSeqNum := toSeqNum, sacked := true } ::
        { i with beginSeqNum := toSeqNum } :: rest
    else marked ++ i :: rest

/-- The first assignment of `setSackedBit`. -/
def sackedFrom (q : TCPSACKRexmitQueue) (fromSeqNum : UInt32) : UInt32 :=
  if seqLess fromSeqNum q.begin then q.begin else fromSeqNum

/-- `TCPSACKRexmitQueue::setSackedBit`. -/
def setSackedBit (q : TCPSACKRexmitQueue) (fromSeqNum toSeqNum : UInt32) :
    Except RuntimeError TCPSACKRexmitQueue :=
  let fromSeqNum := q.sackedFrom fromSeqNum
  if ¬ (seqLess fromSeqNum q.stop ∧ seqLess q.begin toSeqNum ∧ seqLE toSeqNum q.stop ∧
      seqLess fromSeqNum toSeqNum) then
    .error .assertionFailed
  else if q.rexmitQueue = [] then q.checked
  else do
    let (before, regions) ← chunkAt q.rexmitQueue fromSeqNum
    checked { q with rexmitQueue := before ++ markSacked regions fromSeqNum toSeqNum }

/-- `TCPSACKRexmitQueue::resetSackedBit`. -/
def resetSackedBit (q : TCPSACKRexmitQueue) : TCPSACKRexmitQueue :=
  { q with rexmitQueue := q.rexmitQueue.map ({ · with sacked := false }) }

/-- `TCPSACKRexmitQueue::resetRexmittedBit`. -/
def resetRexmittedBit (q : TCPSACKRexmitQueue) : TCPSACKRexmitQueue :=
  { q with rexmitQueue := q.rexmitQueue.map ({ · with rexmitted := false }) }

/-! ### Queries -/

/-- `TCPSACKRexmitQueue::getSackedBit`. -/
def getSackedBit (q : TCPSACKRexmitQueue) (seqNum : UInt32) : Except RuntimeError Bool :=
  if ¬ (seqLE q.begin seqNum ∧ seqLE seqNum q.stop) then .error .assertionFailed
  else if q.stop = seqNum then .ok false
  else do
    let (_, i, _) ← search q.rexmitQueue seqNum
    return i.sacked

/-- The loop of `getHighestSackedSeqNum` and `getHighestRexmittedSeqNum`, from the back. -/
def getHighest (bit : RexmitRegion → Bool) (q : TCPSACKRexmitQueue) : UInt32 :=
  ((q.rexmitQueue.reverse.find? bit).map RexmitRegion.endSeqNum).getD q.begin

/-- `TCPSACKRexmitQueue::getHighestSackedSeqNum`. -/
def getHighestSackedSeqNum : TCPSACKRexmitQueue → UInt32 :=
  getHighest RexmitRegion.sacked

/-- `TCPSACKRexmitQueue::getHighestRexmittedSeqNum`. -/
def getHighestRexmittedSeqNum : TCPSACKRexmitQueue → UInt32 :=
  getHighest RexmitRegion.rexmitted

/-- The second loop of `checkRexmitQueueForSackedOrRexmittedSegments`. -/
def passedBytes (fromSeqNum : UInt32) : List RexmitRegion → Except RuntimeError UInt32
  | [] => .ok 0
  | i :: rest =>
    if i.sacked ∨ i.rexmitted then
      if seqLE i.beginSeqNum fromSeqNum ∧ seqLess fromSeqNum i.endSeqNum then do
        let bytes ← passedBytes i.endSeqNum rest
        return i.endSeqNum - fromSeqNum + bytes
      else .error .assertionFailed
    else .ok 0

/-- `TCPSACKRexmitQueue::checkRexmitQueueForSackedOrRexmittedSegments`. -/
def checkRexmitQueueForSackedOrRexmittedSegments (q : TCPSACKRexmitQueue) (fromSeqNum : UInt32) :
    Except RuntimeError UInt32 :=
  if ¬ (seqLE q.begin fromSeqNum ∧ seqLE fromSeqNum q.stop) then .error .assertionFailed
  else if q.rexmitQueue = [] ∨ q.stop = fromSeqNum then .ok 0
  else passedBytes fromSeqNum (q.rexmitQueue.dropWhile (seqLE ·.endSeqNum fromSeqNum))

/-- The loop of `getTotalAmountOfSackedBytes`. -/
def sackedBytes : List RexmitRegion → UInt32
  | [] => 0
  | elem :: rest =>
    (if elem.sacked then elem.endSeqNum - elem.beginSeqNum else 0) + sackedBytes rest

/-- `TCPSACKRexmitQueue::getTotalAmountOfSackedBytes`. -/
def getTotalAmountOfSackedBytes (q : TCPSACKRexmitQueue) : UInt32 :=
  sackedBytes q.rexmitQueue

/-- The loop of `getAmountOfSackedBytes` and what follows it, on a list that starts with the last
region. -/
def sackedBytesBack (fromSeqNum : UInt32) : List RexmitRegion → UInt32
  | [] => 0
  | i :: rest =>
    if seqLE fromSeqNum i.beginSeqNum then
      (if i.sacked then i.endSeqNum - i.beginSeqNum else 0) + sackedBytesBack fromSeqNum rest
    else if seqLess i.beginSeqNum fromSeqNum ∧ seqLess fromSeqNum i.endSeqNum ∧ i.sacked then
      i.endSeqNum - fromSeqNum
    else 0

/-- `TCPSACKRexmitQueue::getAmountOfSackedBytes`. -/
def getAmountOfSackedBytes (q : TCPSACKRexmitQueue) (fromSeqNum : UInt32) :
    Except RuntimeError UInt32 :=
  if ¬ (seqLE q.begin fromSeqNum ∧ seqLE fromSeqNum q.stop) then .error .assertionFailed
  else .ok (sackedBytesBack fromSeqNum q.rexmitQueue.reverse)

/-- The second loop of `getNumOfDiscontiguousSacks`. -/
def sackedBlocks (prevSacked : Bool) : List RexmitRegion → UInt32
  | [] => 0
  | i :: rest => (if i.sacked && !prevSacked then 1 else 0) + sackedBlocks i.sacked rest

/-- `TCPSACKRexmitQueue::getNumOfDiscontiguousSacks`. -/
def getNumOfDiscontiguousSacks (q : TCPSACKRexmitQueue) (fromSeqNum : UInt32) :
    Except RuntimeError UInt32 :=
  if ¬ (seqLE q.begin fromSeqNum ∧ seqLE fromSeqNum q.stop) then .error .assertionFailed
  else if q.rexmitQueue = [] ∨ fromSeqNum = q.stop then .ok 0
  else .ok (sackedBlocks false (q.rexmitQueue.dropWhile (seqLE ·.endSeqNum fromSeqNum)))

/-- `TCPSACKRexmitQueue::checkSackBlock`, which returns `length`, `sacked` and `rexmitted`. -/
def checkSackBlock (q : TCPSACKRexmitQueue) (fromSeqNum : UInt32) :
    Except RuntimeError (UInt32 × Bool × Bool) :=
  if ¬ (seqLE q.begin fromSeqNum ∧ seqLess fromSeqNum q.stop) then .error .assertionFailed
  else do
    let (_, i, _) ← search q.rexmitQueue fromSeqNum
    return (i.endSeqNum - fromSeqNum, i.sacked, i.rexmitted)

end TCPSACKRexmitQueue

end Inet.Tcp
