import Inet.TransportLayer.TCPConnection
import Inet.TransportLayer.TCPSACKRexmitQueue

/-!
# The sending half of a connection

What `TCPConnection` does to send data: `sendSegment` and `sendData`, and the functions of RFC 3517
for the recovery from losses with selective acknowledgments (`isLost`, `setPipe`, `nextSeg`,
`sendSegmentDuringLossRecoveryPhase`, `sendDataDuringLossRecoveryPhase`). The options and the window
of a segment come from the receiving half.

The send queue is that of virtual data, which is the two ends of what is buffered. Loops are bounded
by a number of rounds, and a loop that has not ended by then says so (`SendError.unfinished`). What
is left out does not touch the variables here: the notifications of the algorithm and of the
application, the timers and the statistics.
-/

namespace Inet.Tcp

/-- `#define DUPTHRESH 3`. -/
def DUPTHRESH : UInt32 := 3

/-- `#define TCP_OPTION_TS_SIZE 12`. -/
def TCP_OPTION_TS_SIZE : UInt32 := 12

/-- `TCPVirtualDataSendQueue`; `stop` is the field `end`. -/
structure TCPVirtualDataSendQueue where
  begin : UInt32 := 0
  stop : UInt32 := 0
  deriving DecidableEq, Repr

namespace TCPVirtualDataSendQueue

/-- `TCPSendQueue::getBytesAvailable`. -/
def getBytesAvailable (q : TCPVirtualDataSendQueue) (fromSeq : UInt32) : UInt32 :=
  if seqLess fromSeq q.stop then q.stop - fromSeq else 0

/-- `TCPVirtualDataSendQueue::createSegmentWithBytes`. -/
def createSegmentWithBytes (q : TCPVirtualDataSendQueue) (fromSeq numBytes : UInt32) :
    Except RuntimeError (TCPSegment Unit) :=
  if seqLE q.begin fromSeq ∧ seqLE (fromSeq + numBytes) q.stop then
    .ok { sequenceNo := fromSeq, payloadLength := numBytes.toNat }
  else .error .assertionFailed

end TCPVirtualDataSendQueue

/-- The state variables that sending uses, with those of the receiving half, and the two queues. -/
structure TCPSender extends TCPConnection where
  sndUna : UInt32
  sndNxt : UInt32
  sndMax : UInt32
  sndWnd : UInt32
  pipe : UInt32 := 0
  highRxt : UInt32 := 0
  sentBytes : UInt32 := 0
  lossRecovery : Bool := false
  afterRto : Bool := false
  sendFin : Bool := false
  sndFinSeq : UInt32 := 0
  rexmitQueue : TCPSACKRexmitQueue
  sendQueue : TCPVirtualDataSendQueue
  deriving DecidableEq, Repr

/-- What ends the sending: an error, or a loop that goes on after the given number of rounds. -/
inductive SendError
  | runtime (e : RuntimeError)
  | unfinished
  deriving DecidableEq, Repr

/-- An error of a called function. -/
def ofRuntime {α : Type} : Except RuntimeError α → Except SendError α
  | .ok a => .ok a
  | .error e => .error (.runtime e)

namespace TCPSender

/-! ### The scoreboard -/

/-- `TCPConnection::isLost`. The second query is made when the first one does not decide. -/
def isLost (s : TCPSender) (seqNum : UInt32) : Except RuntimeError Bool :=
  if ¬ (s.sackEnabled ∧ seqGE seqNum s.sndUna) then .error .assertionFailed
  else do
    let sacks ← s.rexmitQueue.getNumOfDiscontiguousSacks seqNum
    if DUPTHRESH ≤ sacks then return true
    else
      let bytes ← s.rexmitQueue.getAmountOfSackedBytes seqNum
      return DUPTHRESH * s.sndMss ≤ bytes

/-- The number of octets one turn of the loop of `setPipe` adds. -/
def pipeTurn (s : TCPSender) (s1 length : UInt32) (sacked : Bool) : Except RuntimeError UInt32 :=
  if sacked then .ok 0
  else do
    let lost ← s.isLost s1
    return (if lost then 0 else length) + if seqLess s1 s.highRxt then length else 0

/-- The loop of `setPipe`. -/
def pipeLoop (s : TCPSender) : ℕ → UInt32 → UInt32 → Except SendError UInt32
  | rounds, s1, pipe =>
    if seqLess s1 s.sndMax then
      match rounds with
      | 0 => .error .unfinished
      | rounds + 1 => do
        let (length, sacked, _) ← ofRuntime (s.rexmitQueue.checkSackBlock s1)
        let added ← ofRuntime (s.pipeTurn s1 length sacked)
        s.pipeLoop rounds (s1 + length) (pipe + added)
    else .ok pipe

/-- `TCPConnection::setPipe`. -/
def setPipe (s : TCPSender) (rounds : ℕ) : Except SendError TCPSender :=
  if ¬ s.sackEnabled then .error (.runtime .assertionFailed)
  else do
    let s := { s with highRxt := s.rexmitQueue.getHighestRexmittedSeqNum, pipe := 0 }
    let pipe ← s.pipeLoop rounds s.sndUna 0
    return { s with pipe }

/-- The loops of rules (1) and (3) of `nextSeg`, up to a region that is not sacked. -/
def nextUnsacked (s : TCPSender) (highestSackedSeqNum : UInt32) :
    ℕ → UInt32 → Except SendError (Option UInt32)
  | rounds, seqNum =>
    if seqLess seqNum s.sndMax ∧ seqLess seqNum highestSackedSeqNum then
      match rounds with
      | 0 => .error .unfinished
      | rounds + 1 => do
        let (shift, sacked, _) ← ofRuntime (s.rexmitQueue.checkSackBlock seqNum)
        if sacked then s.nextUnsacked highestSackedSeqNum rounds (seqNum + shift)
        else return some seqNum
    else .ok none

/-- The window of rule (2), an unsigned difference. -/
def effectiveWin (s : TCPSender) : UInt64 :=
  s.sndWnd.toUInt64 - s.pipe.toUInt64

/-- Rules (2) and (3) of `nextSeg`. -/
def nextNewOrUnsacked (s : TCPSender) (rounds : ℕ) : Except SendError (Option UInt32) :=
  if 0 < s.sendQueue.getBytesAvailable s.sndMax ∧ s.sndMss.toUInt64 ≤ s.effectiveWin then
    .ok (some s.sndMax)
  else s.nextUnsacked s.rexmitQueue.getHighestSackedSeqNum rounds s.highRxt

/-- `TCPConnection::nextSeg`, without a sequence number if it returns `false`. -/
def nextSeg (s : TCPSender) (rounds : ℕ) : Except SendError (TCPSender × Option UInt32) :=
  if ¬ s.sackEnabled then .error (.runtime .assertionFailed)
  else do
    let s := { s with highRxt := s.rexmitQueue.getHighestRexmittedSeqNum }
    match ← s.nextUnsacked s.rexmitQueue.getHighestSackedSeqNum rounds s.highRxt with
    | some s2 =>
      let lost ← ofRuntime (s.isLost s2)
      let seqNum ← if lost then .ok (some s2) else s.nextNewOrUnsacked rounds
      return (s, seqNum)
    | none =>
      let seqNum ← s.nextNewOrUnsacked rounds
      return (s, seqNum)

/-! ### Segments -/

/-- The octets that are sacked or have been sent again are passed over after a time-out. -/
def forward (s : TCPSender) : Except RuntimeError TCPSender :=
  if s.sackEnabled ∧ s.afterRto then do
    let forward ← s.rexmitQueue.checkRexmitQueueForSackedOrRexmittedSegments s.sndNxt
    return { s with sndNxt := s.sndNxt + forward }
  else .ok s

/-- The header of the segment, from a segment of its own. -/
def writeHeader (s : TCPSender) (time : UInt32) :
    Except RuntimeError (TCPConnection × TCPSegment Unit) :=
  match s.toTCPConnection.writeHeaderOptions { ackBit := true } time with
  | none => .error .assertionFailed
  | some r => .ok r

/-- `options_len`. -/
def optionsLen (tcpseg : TCPSegment Unit) : UInt32 :=
  tcpseg.headerLength.toUInt32 - 20

/-- The scoreboard takes the octets that are sent. -/
def enqueueSent (s : TCPSender) (bytes : UInt32) : Except RuntimeError TCPSender :=
  if s.sackEnabled then do
    let rexmitQueue ← s.rexmitQueue.enqueueSentData s.sndNxt (s.sndNxt + bytes)
    return { s with rexmitQueue }
  else .ok s

/-- `snd_nxt` moves behind the octets that are sent, and behind the FIN when it goes with them. -/
def advance (s : TCPSender) (bytes : UInt32) : TCPSender × Bool :=
  let sndNxt := s.sndNxt + bytes
  let afterRto := s.afterRto && !decide (seqGE sndNxt s.sndMax)
  let finBit := s.sendFin && sndNxt = s.sndFinSeq
  ({ s with sentBytes := bytes, afterRto, sndNxt := if finBit then s.sndFinSeq + 1 else sndNxt },
    finBit)

/-- The rest of `sendSegment`, from the segment with its octets on. -/
def finishSend (s : TCPSender) (bytes : UInt32) (header tcpseg : TCPSegment Unit) :
    Except RuntimeError (TCPSender × TCPSegment Unit) := do
  let s ← s.enqueueSent bytes
  let (conn, window) ← s.toTCPConnection.updateRcvWnd
  let (s, finBit) := { s with toTCPConnection := conn }.advance bytes
  return (s, { tcpseg with
    ackNo := s.rcvNxt
    ackBit := true
    window, finBit
    headerOption := header.headerOption
    headerLength := header.headerLength })

/-- The number of octets that are sent: no more than are buffered, and no more than fit with the
options. -/
def octetsToSend (s : TCPSender) (bytes : UInt32) (header : TCPSegment Unit) : UInt32 :=
  let buffered := s.sendQueue.getBytesAvailable s.sndNxt
  let bytes := if buffered < bytes then buffered else bytes
  if s.sndMss < bytes + optionsLen header then s.sndMss - optionsLen header else bytes

/-- `TCPConnection::sendSegment`, with the segment that is sent. -/
def sendSegment (s : TCPSender) (bytes time : UInt32) :
    Except RuntimeError (TCPSender × TCPSegment Unit) := do
  let s ← s.forward
  let (conn, header) ← s.writeHeader time
  let s := { s with toTCPConnection := conn }
  if ¬ optionsLen header < s.sndMss then .error .assertionFailed
  else
    let bytes := s.octetsToSend bytes header
    let tcpseg ← s.sendQueue.createSegmentWithBytes s.sndNxt bytes
    s.finishSend bytes header tcpseg

end TCPSender

/-! ### `sendData` -/

/-- How far `sendData` has come: before its only segment, in the loop that sends whole segments,
before the last segment, or behind it. -/
inductive SendStage
  | single
  | whole
  | last
  | ended
  deriving DecidableEq, Repr

/-- The local variables of `sendData` while it sends. -/
structure Sending where
  sender : TCPSender
  maxWindow : UInt32
  effectiveMaxBytesSend : UInt32
  bytesToSend : UInt64
  stage : SendStage
  deriving DecidableEq, Repr

namespace Sending

/-- The call behind the loops. -/
def lastCall (d : Sending) : Option UInt32 :=
  let buffered := (d.sender.sendQueue.getBytesAvailable d.sender.sndNxt).toUInt64
  if d.bytesToSend = buffered ∧ buffered ≠ 0 then some d.bytesToSend.toUInt32 else none

/-- What `sendSegment` is called with next, if it is called. -/
def nextCall (d : Sending) : Option UInt32 :=
  match d.stage with
  | .single => some d.bytesToSend.toUInt32
  | .whole =>
    if d.effectiveMaxBytesSend.toUInt64 ≤ d.bytesToSend then some d.sender.sndMss else d.lastCall
  | .last => d.lastCall
  | .ended => none

/-- The stage behind the next call. -/
def nextStage (d : Sending) : SendStage :=
  match d.stage with
  | .single => .last
  | .whole => if d.effectiveMaxBytesSend.toUInt64 ≤ d.bytesToSend then .whole else .ended
  | .last | .ended => .ended

/-- A call, and `bytesToSend` behind it. -/
def call (d : Sending) (bytes time : UInt32) : Except RuntimeError Sending := do
  let (sender, _) ← d.sender.sendSegment bytes time
  return { d with
    sender
    bytesToSend := d.bytesToSend - sender.sentBytes.toUInt64
    stage := d.nextStage }

/-- All calls. -/
def sendAll (time : UInt32) : ℕ → Sending → Except SendError Sending
  | rounds, d =>
    match d.nextCall with
    | none => .ok d
    | some bytes =>
      match rounds with
      | 0 => .error .unfinished
      | rounds + 1 => do
        let d ← ofRuntime (d.call bytes time)
        d.sendAll time rounds

end Sending

namespace TCPSender

/-- Where `sendData` starts to send. -/
def rewound (s : TCPSender) : TCPSender :=
  if s.afterRto then s else { s with sndNxt := s.sndMax }

/-- `sendData` up to the first call of `sendSegment`, or up to the return without one. The effective
window is signed in the source. -/
def startSending (s : TCPSender) (fullSegmentsOnly : Bool) (congestionWindow : UInt32) :
    Option Sending :=
  let s := s.rewound
  let buffered := s.sendQueue.getBytesAvailable s.sndNxt
  let maxWindow := min s.sndWnd congestionWindow
  let effectiveWin := maxWindow.toNat - (s.sndNxt - s.sndUna).toNat
  let bytesToSend := min effectiveWin buffered.toNat
  let effectiveMaxBytesSend := if s.tsEnabled then s.sndMss - TCP_OPTION_TS_SIZE else s.sndMss
  if buffered = 0 ∨ effectiveWin = 0 ∨
      fullSegmentsOnly ∧ bytesToSend < effectiveMaxBytesSend.toNat then none
  else some {
    sender := s
    maxWindow, effectiveMaxBytesSend
    bytesToSend := UInt64.ofNat bytesToSend
    stage := if bytesToSend ≤ s.sndMss.toNat then .single else .whole }

/-- `TCPConnection::sendData`. -/
def sendData (s : TCPSender) (fullSegmentsOnly : Bool) (congestionWindow time : UInt32)
    (rounds : ℕ) : Except SendError (TCPSender × Bool) :=
  match s.startSending fullSegmentsOnly congestionWindow with
  | none => .ok (s.rewound, false)
  | some d => do
    let d ← d.sendAll time rounds
    let s := d.sender
    return ({ s with sndMax := if seqGreater s.sndNxt s.sndMax then s.sndNxt else s.sndMax }, true)

end TCPSender

/-! ### Loss recovery -/

namespace TCPSender

/-- `TCPConnection::sendSegmentDuringLossRecoveryPhase`. -/
def sendSegmentDuringLossRecoveryPhase (s : TCPSender) (seqNum time : UInt32) :
    Except RuntimeError (TCPSender × TCPSegment Unit) :=
  if ¬ (s.sackEnabled ∧ s.lossRecovery) then .error .assertionFailed
  else do
    let (s, tcpseg) ← { s with sndNxt := seqNum }.sendSegment s.sndMss time
    let sentSeqNum := seqNum + s.sentBytes
    if ¬ seqLE s.sndNxt (sentSeqNum + 1) then .error .assertionFailed
    else
      return ({ s with
        highRxt := if seqLess seqNum s.sndMax then s.rexmitQueue.getHighestRexmittedSeqNum
          else s.highRxt
        sndMax := if seqGreater sentSeqNum s.sndMax then sentSeqNum else s.sndMax }, tcpseg)

/-- The condition of the loop of `sendDataDuringLossRecoveryPhase`. The differences are signed. -/
def HasWindowFor (s : TCPSender) (congestionWindow : UInt32) : Prop :=
  s.sndMss.toInt32.toInt ≤ congestionWindow.toInt32.toInt - s.pipe.toInt32.toInt

instance (s : TCPSender) (congestionWindow : UInt32) :
    Decidable (s.HasWindowFor congestionWindow) :=
  inferInstanceAs (Decidable (_ ≤ _))

/-- A turn of the loop, or its end if `nextSeg` returns `false`. -/
def recoveryTurn (s : TCPSender) (time : UInt32) (rounds : ℕ) :
    Except SendError (Option TCPSender) := do
  match ← s.nextSeg rounds with
  | (_, none) => return none
  | (s, some seqNum) =>
    let (s, _) ← ofRuntime (s.sendSegmentDuringLossRecoveryPhase seqNum time)
    return some { s with pipe := s.pipe + s.sentBytes }

/-- The loop of `sendDataDuringLossRecoveryPhase`. When `nextSeg` fails, only `highRxt` changes. -/
def recoveryLoop (congestionWindow time : UInt32) (rounds : ℕ) :
    ℕ → TCPSender → Except SendError TCPSender
  | turns, s =>
    if s.HasWindowFor congestionWindow then
      match turns with
      | 0 => .error .unfinished
      | turns + 1 => do
        match ← s.recoveryTurn time rounds with
        | none => return { s with highRxt := s.rexmitQueue.getHighestRexmittedSeqNum }
        | some s => recoveryLoop congestionWindow time rounds turns s
    else .ok s

/-- `TCPConnection::sendDataDuringLossRecoveryPhase`. -/
def sendDataDuringLossRecoveryPhase (s : TCPSender) (congestionWindow time : UInt32)
    (rounds turns : ℕ) : Except SendError TCPSender :=
  if ¬ (s.sackEnabled ∧ s.lossRecovery) then .error (.runtime .assertionFailed)
  else recoveryLoop congestionWindow time rounds turns s

end TCPSender

end Inet.Tcp
