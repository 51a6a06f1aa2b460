import Inet.TransportLayer.TCPVirtualDataRcvQueue

/-!
# The receiving half of a connection

What `TCPConnection` does with a segment that arrives, as far as the receive queue and the SACK
option of the answer are concerned: `processSegment1stThru8th`, which notes what has to be reported,
and `writeHeaderOptions` with `addSacks`, which reports it.

The processing of the acknowledgment a segment carries belongs to the sending half. What this half
decides, and what the clock and the timers decide, comes with the segment (`Arrival`).
-/

namespace Inet.Tcp

/-- The states of the FSM. -/
inductive TCPState
  | init
  | closed
  | listen
  | synSent
  | synRcvd
  | established
  | closeWait
  | lastAck
  | finWait1
  | finWait2
  | closing
  | timeWait
  deriving DecidableEq, Repr

namespace TCPState

/-- The states in which the text of a segment is processed. -/
def ProcessesText : TCPState → Prop
  | .synRcvd | .established | .finWait1 | .finWait2 => True
  | _ => False

/-- The states in which a segment without SYN gets header options. -/
def WritesOptions : TCPState → Prop
  | .synSent | .synRcvd | .established | .finWait1 | .finWait2 => True
  | _ => False

instance : (s : TCPState) → Decidable s.ProcessesText
  | .synRcvd | .established | .finWait1 | .finWait2 => inferInstanceAs (Decidable True)
  | .init | .closed | .listen | .synSent | .closeWait | .lastAck | .closing | .timeWait =>
    inferInstanceAs (Decidable False)

instance : (s : TCPState) → Decidable s.WritesOptions
  | .synSent | .synRcvd | .established | .finWait1 | .finWait2 => inferInstanceAs (Decidable True)
  | .init | .closed | .listen | .closeWait | .lastAck | .closing | .timeWait =>
    inferInstanceAs (Decidable False)

theorem ProcessesText.writesOptions {s : TCPState} (h : s.ProcessesText) : s.WritesOptions := by
  cases s <;> first | exact h | exact h.elim

/-- The transition on `TCP_E_RCV_FIN`, or on `TCP_E_RCV_FIN_ACK` when our FIN has been
acknowledged. -/
def afterFin (finAckRcvd : Bool) : TCPState → TCPState
  | .synRcvd | .established => .closeWait
  | .finWait1 => if finAckRcvd then .timeWait else .closing
  | .finWait2 => .timeWait
  | s => s

theorem not_writesOptions_afterFin {s : TCPState} (h : s.ProcessesText) (finAckRcvd : Bool) :
    ¬ (s.afterFin finAckRcvd).WritesOptions := by
  cases s <;> cases finAckRcvd <;> first | exact id | cases h

end TCPState

/-- The state variables of a connection that receiving and reporting use, and its receive queue. -/
structure TCPConnection where
  fsmState : TCPState := .established
  rcvNxt : UInt32
  rcvWnd : UInt32
  rcvAdv : UInt32
  maxRcvBuffer : UInt32
  sndMss : UInt32 := 536
  wsEnabled : Bool := false
  rcvWndScale : UInt32 := 0
  sackEnabled : Bool := true
  tsEnabled : Bool := false
  tsRecent : UInt32 := 0
  useDataNotification : Bool := false
  ackNow : Bool := false
  sndSack : Bool := false
  sndDsack : Bool := false
  startSeqno : UInt32 := 0
  endSeqno : UInt32 := 0
  sacksArray : List Sack := []
  finAckRcvd : Bool := false
  finRcvd : Bool := false
  rcvFinSeq : UInt32 := 0
  receiveQueue : TCPVirtualDataRcvQueue VirtualRegion
  deriving DecidableEq, Repr

/-- What ends the processing: an error of a called function, or an assertion of `addSacks`, with the
connection it was called on. -/
inductive ReceiveError
  | runtime (e : RuntimeError)
  | addSacks (conn : TCPConnection)
  deriving DecidableEq, Repr

/-- An error of a called function. -/
def orRuntime {α : Type} : Except RuntimeError α → Except ReceiveError α
  | .ok a => .ok a
  | .error e => .error (.runtime e)

/-- A segment that arrives. The rest is decided elsewhere: whether the test of PAWS rejects it,
whether it is acceptable for its acknowledgment alone, whether the fifth step lets it pass, whether
the algorithm acknowledges new data at once, and the time. -/
structure Arrival where
  tcpseg : TCPSegment Unit
  pawsRejects : Bool := false
  ackAcceptable : Bool := false
  ackPasses : Bool := true
  acksAtOnce : Bool := false
  time : UInt32 := 0
  deriving DecidableEq, Repr

/-- A segment that is sent. Its first block is a D-SACK if `dsack` is set, and `addSacks` has run if
`sacksAdded` is. -/
structure Reply where
  sacksAdded : Bool
  dsack : Bool
  tcpseg : TCPSegment Unit
  deriving DecidableEq, Repr

/-! ### Options -/

/-- `TCPOptionNop`. -/
def TCPOption.nop : TCPOption :=
  ⟨1, 1, .nop⟩

/-- `TCPOptionTimestamp`. -/
def TCPOption.timestamp (senderTimestamp echoedTimestamp : UInt32) : TCPOption :=
  ⟨8, 10, .timestamp senderTimestamp echoedTimestamp⟩

/-- `TCPOptionSack`, with its items. -/
def TCPOption.sack (sackItem : List Sack) : TCPOption :=
  ⟨5, UInt16.ofNat (8 * sackItem.length + 2), .sack sackItem⟩

/-- The blocks of an option. -/
def TCPOption.blocks (option : TCPOption) : List Sack :=
  match option.fields with
  | .sack sackItem => sackItem
  | _ => []

namespace TCPSegment

/-- `TCPSegment::getHeaderOptionArrayLength`. -/
def headerOptionArrayLength (tcpseg : TCPSegment Unit) : ℕ :=
  ((tcpseg.headerOption.map TCPOption.length).foldl (· + ·) 0).toNat

/-- `TCPSegment::addHeaderOption`, for several options. -/
def addHeaderOptions (tcpseg : TCPSegment Unit) (options : List TCPOption) : TCPSegment Unit :=
  { tcpseg with headerOption := tcpseg.headerOption ++ options }

/-- The blocks a segment reports. -/
def blocks (tcpseg : TCPSegment Unit) : List Sack :=
  tcpseg.headerOption.flatMap TCPOption.blocks

end TCPSegment

namespace TCPConnection

/-! ### `addSacks` -/

/-- The loop that deletes what lies below `rcv_nxt`, with its assertion. -/
def deleteOldSacks (rcvNxt : UInt32) : List Sack → Option (List Sack)
  | [] => some []
  | it :: rest =>
    if seqLE it.stop rcvNxt ∨ it.empty then deleteOldSacks rcvNxt rest
    else if seqGE it.start rcvNxt then (deleteOldSacks rcvNxt rest).map (it :: ·)
    else none

/-- The loop that deletes what an earlier entry contains. It has at most as many turns as there are
entries. -/
def deleteContained : ℕ → List Sack → Option (List Sack)
  | _, [] => some []
  | 0, _ => none
  | n + 1, it :: rest =>
    if it.empty then none
    else (deleteContained n (rest.filter fun it2 ↦ ¬ it.contains it2)).map (it :: ·)

/-- The entry that is inserted: the D-SACK, or the part of the receive queue around the segment. -/
def newSack (conn : TCPConnection) : Sack :=
  if conn.sndDsack then
    let stop :=
      if seqLess conn.startSeqno conn.rcvNxt ∧ seqLess conn.rcvNxt conn.endSeqno then conn.rcvNxt
      else conn.endSeqno
    ⟨conn.startSeqno, stop⟩
  else ⟨conn.receiveQueue.getLE conn.startSeqno, conn.receiveQueue.getRE conn.endSeqno⟩

/-- Whether a D-SACK is inserted. -/
def dsackInserted (conn : TCPConnection) : Bool :=
  conn.startSeqno ≠ conn.endSeqno && conn.sndDsack

/-- The insertion at the front. A D-SACK does not take part in the comparison of the entries. -/
def insertSack (conn : TCPConnection) (sacksArray : List Sack) : Option (List Sack) :=
  if conn.startSeqno = conn.endSeqno then some sacksArray
  else if conn.sndDsack then
    (deleteContained sacksArray.length sacksArray).map (conn.newSack :: ·)
  else deleteContained (sacksArray.length + 1) (conn.newSack :: sacksArray)

/-- Resetting the flags. -/
def resetFlags (conn : TCPConnection) : TCPConnection :=
  { conn with sndSack := false, sndDsack := false, startSeqno := 0, endSeqno := 0 }

/-- The number of options that bring the length to 2 modulo 4. -/
def paddingBefore (usedOptionsLen : ℕ) : ℕ :=
  (6 - usedOptionsLen % 4) % 4

/-- The most entries there is space for. -/
def maxnode (usedOptionsLen : ℕ) : ℕ :=
  (40 - usedOptionsLen - 2) / 8

/-- `TCPConnection::addSacks`. An assertion fails without a result. -/
def addSacks (conn : TCPConnection) (tcpseg : TCPSegment Unit) :
    Option (TCPConnection × TCPSegment Unit) := do
  let usedOptionsLen := tcpseg.headerOptionArrayLength
  let sacksArray ← deleteOldSacks conn.rcvNxt conn.sacksArray
  if 40 - 10 < usedOptionsLen then
    some ({ conn.resetFlags with sacksArray }, tcpseg)
  else
    let sacksArray ← conn.insertSack sacksArray
    let n := min sacksArray.length (maxnode usedOptionsLen)
    -- the D-SACK is deleted in the end
    let conn' := { conn.resetFlags with
      sacksArray := if conn.dsackInserted then sacksArray.tail else sacksArray }
    if n = 0 then some (conn', tcpseg)
    else
      let sackItem := sacksArray.take n
      guard (∀ it ∈ sackItem, it.start ≠ it.stop)
      guard (usedOptionsLen + paddingBefore usedOptionsLen + 8 * n + 2 ≤ 40)
      some (conn', tcpseg.addHeaderOptions
        (List.replicate (paddingBefore usedOptionsLen) TCPOption.nop ++ [TCPOption.sack sackItem]))

/-! ### Sending -/

/-- The window that is offered: the free space unless it is too small, no less than what has been
offered before, and no more than fits into the header when it is not scaled. -/
def offeredWindow (conn : TCPConnection) : UInt32 :=
  let win := conn.receiveQueue.getAmountOfFreeBytes conn.maxRcvBuffer
  let win := if win < conn.maxRcvBuffer / 4 ∧ win < conn.sndMss then 0 else win
  let win := if win < conn.rcvAdv - conn.rcvNxt then conn.rcvAdv - conn.rcvNxt else win
  if 65535 < win ∧ ¬ conn.wsEnabled then 65535 else win

/-- The window as it is put into the header. -/
def scaledWindow (conn : TCPConnection) : UInt32 :=
  if conn.wsEnabled ∧ conn.rcvWndScale ≠ 0 then conn.offeredWindow >>> conn.rcvWndScale
  else conn.offeredWindow

/-- `TCPConnection::updateRcvWnd`. -/
def updateRcvWnd (conn : TCPConnection) : Except RuntimeError (TCPConnection × UInt16) :=
  if conn.wsEnabled ∧ 14 < conn.rcvWndScale ∨ 65535 < conn.scaledWindow then
    .error .assertionFailed
  else
    let rcvWnd := conn.offeredWindow
    let rcvAdv :=
      if 0 < rcvWnd ∧ seqGE (conn.rcvNxt + rcvWnd) conn.rcvAdv then conn.rcvNxt + rcvWnd
      else conn.rcvAdv
    .ok ({ conn with rcvWnd, rcvAdv }, conn.scaledWindow.toUInt16)

/-- Whether `addSacks` is called when the options are written. -/
def AddsSacks (conn : TCPConnection) : Prop :=
  conn.fsmState.WritesOptions ∧ conn.sackEnabled ∧ (conn.sndSack ∨ conn.sndDsack)

instance (conn : TCPConnection) : Decidable conn.AddsSacks :=
  inferInstanceAs (Decidable (_ ∧ _ ∧ (_ ∨ _)))

/-- The timestamp option, with two options before it unless SACKs follow. -/
def timestampOptions (conn : TCPConnection) (tcpseg : TCPSegment Unit) (time : UInt32) :
    List TCPOption :=
  if conn.tsEnabled then
    (if conn.sackEnabled ∧ (conn.sndSack ∨ conn.sndDsack) then [] else [.nop, .nop]) ++
      [.timestamp time (if tcpseg.ackBit then conn.tsRecent else 0)]
  else []

/-- The header length for the options, or no options if they are too long. -/
def closeOptions (tcpseg : TCPSegment Unit) : TCPSegment Unit :=
  if tcpseg.headerOption = [] then tcpseg
  else if tcpseg.headerOptionArrayLength ≤ 40 then
    { tcpseg with headerLength := 20 + UInt16.ofNat tcpseg.headerOptionArrayLength }
  else { tcpseg with headerLength := 20, headerOption := [] }

/-- `TCPConnection::writeHeaderOptions`, for a segment without SYN. -/
def writeHeaderOptions (conn : TCPConnection) (tcpseg : TCPSegment Unit) (time : UInt32) :
    Option (TCPConnection × TCPSegment Unit) :=
  if conn.fsmState.WritesOptions then
    let tcpseg := tcpseg.addHeaderOptions (conn.timestampOptions tcpseg time)
    if conn.AddsSacks then (conn.addSacks tcpseg).map fun r ↦ (r.1, closeOptions r.2)
    else some (conn, closeOptions tcpseg)
  else some (conn, closeOptions tcpseg)

/-- `TCPConnection::sendAck`. The header of a data segment is written in the same way. -/
def sendAck (conn : TCPConnection) (time : UInt32) : Except ReceiveError (TCPConnection × Reply) :=
  do
  let (conn, window) ← orRuntime conn.updateRcvWnd
  match conn.writeHeaderOptions { ackBit := true, ackNo := conn.rcvNxt, window } time with
  | none => .error (.addSacks conn)
  | some (conn', tcpseg) =>
    return ({ conn' with ackNow := false }, ⟨conn.AddsSacks, conn.dsackInserted, tcpseg⟩)

/-! ### Receiving -/

/-- `TCPConnection::isSegmentAcceptable`, after the test of PAWS. -/
def IsSegmentAcceptable (conn : TCPConnection) (a : Arrival) : Prop :=
  let len := UInt32.ofNat a.tcpseg.payloadLength
  let seqNo := a.tcpseg.sequenceNo
  let rcvWndEnd := conn.rcvNxt + conn.rcvWnd
  ¬ a.pawsRejects ∧
    if len = 0 then
      (if conn.rcvWnd = 0 then seqNo = conn.rcvNxt
        else seqLE conn.rcvNxt seqNo ∧ seqLE seqNo rcvWndEnd) ∨ a.ackAcceptable
    else conn.rcvWnd ≠ 0 ∧ (seqLE conn.rcvNxt seqNo ∧ seqLess seqNo rcvWndEnd ∨
      seqLess conn.rcvNxt (seqNo + len) ∧ seqLE (seqNo + len) rcvWndEnd)

instance (conn : TCPConnection) (a : Arrival) : Decidable (conn.IsSegmentAcceptable a) := by
  unfold IsSegmentAcceptable
  infer_instance

/-- What is noted about a segment that is not acceptable: all of it may have been received. -/
def noteDuplicate (conn : TCPConnection) (tcpseg : TCPSegment Unit) : TCPConnection :=
  if 0 < tcpseg.payloadLength ∧ conn.sackEnabled ∧ seqLess tcpseg.endNo conn.rcvNxt then
    { conn with startSeqno := tcpseg.sequenceNo, endSeqno := tcpseg.endNo, sndDsack := true }
  else conn

/-- A segment that is not acceptable is answered. -/
def answerUnacceptable (conn : TCPConnection) (a : Arrival) :
    Except ReceiveError (TCPConnection × List Reply) :=
  if a.tcpseg.rstBit then .ok (conn, [])
  else
    let conn := if a.tcpseg.synBit then conn else conn.noteDuplicate a.tcpseg
    (conn.sendAck a.time).map fun r ↦ (r.1, [r.2])

/-- `TCPConnection::hasEnoughSpaceForSegmentInReceiveQueue`. -/
def HasEnoughSpaceForSegmentInReceiveQueue (conn : TCPConnection) (tcpseg : TCPSegment Unit) :
    Prop :=
  let firstSeq := conn.receiveQueue.getFirstSeqNo
  seqLE firstSeq tcpseg.sequenceNo ∧ seqLE tcpseg.endNo (firstSeq + conn.maxRcvBuffer)

instance (conn : TCPConnection) (tcpseg : TCPSegment Unit) :
    Decidable (conn.HasEnoughSpaceForSegmentInReceiveQueue tcpseg) :=
  inferInstanceAs (Decidable (_ ∧ _))

/-- The text that goes into the receive queue, if there is room for it. -/
def textToInsert (conn : TCPConnection) (tcpseg : TCPSegment Unit) :
    Except RuntimeError (Option (TCPSegment Unit)) := do
  let tcpseg ← tcpseg.truncateSegment conn.rcvNxt (conn.rcvNxt + conn.rcvWnd)
  return if conn.HasEnoughSpaceForSegmentInReceiveQueue tcpseg then some tcpseg else none

/-- The bytes in use, as `updateRcvQueueVars` computes them. -/
def usedRcvBuffer (conn : TCPConnection) : UInt32 :=
  conn.maxRcvBuffer - conn.receiveQueue.getAmountOfFreeBytes conn.maxRcvBuffer

/-- What is noted about a segment that does not move `rcv_nxt`: it is a duplicate if the queue has
not grown. -/
def noteOutOfOrder (conn : TCPConnection) (receiveQueue : TCPVirtualDataRcvQueue VirtualRegion)
    (tcpseg : TCPSegment Unit) : TCPConnection :=
  let conn' := { conn with receiveQueue, ackNow := true }
  if conn.sackEnabled then
    let conn' := { conn' with startSeqno := tcpseg.sequenceNo, endSeqno := tcpseg.endNo }
    if conn.usedRcvBuffer = receiveQueue.getAmountOfBufferedBytes then
      { conn' with sndDsack := true }
    else { conn' with sndSack := true }
  else conn'

/-- The loop that hands out all data up to `rcv_nxt`. Each turn but the last takes a region. -/
def extractAll (seq : UInt32) : ℕ → TCPVirtualDataRcvQueue VirtualRegion →
    Except RuntimeError (TCPVirtualDataRcvQueue VirtualRegion)
  | 0, q => .ok q
  | n + 1, q => do
    match ← q.extractTo seq with
    | (none, q) => return q
    | (some _, q) => extractAll seq n q

/-- Handing out all data up to `rcv_nxt`. -/
def forwardData (conn : TCPConnection) : Except ReceiveError TCPConnection := do
  let receiveQueue ← orRuntime
    (extractAll conn.rcvNxt (conn.receiveQueue.regionList.length + 1) conn.receiveQueue)
  return { conn with receiveQueue }

/-- New data is handed out, or only announced. -/
def passData (conn : TCPConnection) : Except ReceiveError TCPConnection :=
  if conn.useDataNotification then .ok conn else conn.forwardData

/-- When the gap before a FIN is filled, `rcv_nxt` moves over the FIN. The result says so. -/
def catchUpFin (conn : TCPConnection) : TCPConnection × Bool :=
  if conn.finRcvd ∧ conn.rcvNxt = conn.rcvFinSeq then
    ({ conn with ackNow := true, rcvNxt := conn.rcvFinSeq + 1 }, true)
  else (conn, false)

/-- The insertion of a segment's text and what follows from it. The result says whether `rcv_nxt`
has moved over a FIN. -/
def insertText (conn : TCPConnection) (tcpseg : TCPSegment Unit) (time : UInt32) :
    Except ReceiveError (TCPConnection × List Reply × Bool) := do
  let receiveQueue ← orRuntime (conn.receiveQueue.insertBytesFromSegment tcpseg)
  if receiveQueue.rcvNxt = conn.rcvNxt then
    ((conn.noteOutOfOrder receiveQueue tcpseg).sendAck time).map fun r ↦ (r.1, [r.2], false)
  else
    let conn ← passData { conn with receiveQueue, rcvNxt := receiveQueue.rcvNxt }
    return (conn.catchUpFin.1, [], conn.catchUpFin.2)

/-- The eighth step. The result says whether `rcv_nxt` has moved over a FIN. -/
def checkFin (conn : TCPConnection) (tcpseg : TCPSegment Unit) : TCPConnection × Bool :=
  if tcpseg.finBit then
    if conn.rcvNxt = tcpseg.endNo then
      ({ conn with ackNow := true, rcvNxt := conn.rcvNxt + 1 }, true)
    else ({ conn with ackNow := true, finRcvd := true, rcvFinSeq := tcpseg.endNo }, false)
  else (conn, false)

/-- What is noted when `rcv_nxt` has moved and the queue is not empty. -/
def noteReceiveSeqChanged (conn : TCPConnection) (tcpseg : TCPSegment Unit) : TCPConnection :=
  if conn.sackEnabled ∧ conn.receiveQueue.getQueueLength ≠ 0 then
    { conn with
      startSeqno := tcpseg.sequenceNo
      endSeqno := tcpseg.endNo
      sndSack := true
      ackNow := true }
  else conn

/-- The answer when `rcv_nxt` has moved. `receiveSeqChanged` sends it at once if it is asked to. -/
def acknowledge (conn : TCPConnection) (oldRcvNxt : UInt32) (tcpseg : TCPSegment Unit) (a : Arrival)
    (replies : List Reply) : Except ReceiveError (TCPConnection × List Reply) :=
  if oldRcvNxt = conn.rcvNxt then .ok (conn, replies)
  else
    let conn := conn.noteReceiveSeqChanged tcpseg
    if conn.ackNow ∨ a.acksAtOnce then
      (conn.sendAck a.time).map fun r ↦ (r.1, replies ++ [r.2])
    else .ok (conn, replies)

/-- The transition of the FSM when `rcv_nxt` has moved over a FIN. -/
def moveFsm (conn : TCPConnection) (fin : Bool) : TCPConnection :=
  if fin then { conn with fsmState := conn.fsmState.afterFin conn.finAckRcvd } else conn

/-- What follows the text: the eighth step, the answer, and the transition of the FSM. -/
def finishSegment (conn : TCPConnection) (oldRcvNxt : UInt32) (tcpseg : TCPSegment Unit)
    (a : Arrival) (replies : List Reply) (fin : Bool) :
    Except ReceiveError (TCPConnection × List Reply) :=
  let checked := conn.checkFin tcpseg
  (checked.1.acknowledge oldRcvNxt tcpseg a replies).map fun r ↦
    (r.1.moveFsm (fin || checked.2), r.2)

/-- The seventh step, and what follows. A segment for which there is no room is dropped. -/
def processText (conn : TCPConnection) (a : Arrival) :
    Except ReceiveError (TCPConnection × List Reply) := do
  match ← orRuntime (conn.textToInsert a.tcpseg) with
  | none => return (conn, [])
  | some tcpseg =>
    (conn.insertText tcpseg a.time).bind fun r ↦
      r.1.finishSegment conn.rcvNxt tcpseg a r.2.1 r.2.2

/-- A segment with a single byte may be a probe. -/
def noteProbe (conn : TCPConnection) (tcpseg : TCPSegment Unit) : TCPConnection :=
  if tcpseg.payloadLength = 1 then { conn with ackNow := true } else conn

/-- `TCPConnection::processSegment1stThru8th`, and the transition that follows. A connection that is
reset is not followed further. -/
def processSegment1stThru8th (conn : TCPConnection) (a : Arrival) :
    Except ReceiveError (TCPConnection × List Reply) :=
  if ¬ conn.IsSegmentAcceptable a then conn.answerUnacceptable a
  else if a.tcpseg.rstBit ∨ a.tcpseg.synBit then .ok ({ conn with fsmState := .closed }, [])
  else if ¬ a.ackPasses then .ok (conn, [])
  else if conn.fsmState.ProcessesText ∧ 0 < a.tcpseg.payloadLength then
    (conn.noteProbe a.tcpseg).processText a
  else conn.finishSegment conn.rcvNxt a.tcpseg a [] false

end TCPConnection

end Inet.Tcp
