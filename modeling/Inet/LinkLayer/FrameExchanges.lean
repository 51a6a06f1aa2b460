import Inet.LinkLayer.FrameExchange

/-!
# The exchanges for unicast data

`SendDataWithAckFrameExchange` sends a frame and waits for the ACK,
`SendDataWithRtsCtsFrameExchange` first sends an RTS and waits for the CTS. Both start again when
something fails, as long as their retry limits let them.
-/

namespace Inet

open StepBasedFrameExchange

/-- `IMacParameters`, as far as the exchanges use them. -/
structure MacParameters where
  shortRetryLimit : ℤ
  longRetryLimit : ℤ
  useFullAckTimeout : Bool
  deriving DecidableEq, Repr

namespace SendDataWithAckFrameExchange

/-- The members: the count, the retry flag of the frame, and whether the link has been reported as
broken. -/
structure Members where
  retryCount : ℤ := 0
  retryFlag : Bool := false
  linkBreak : Bool := false
  deriving DecidableEq, Repr

variable (params : MacParameters)

/-- `doStep`. -/
def doStep (step : ℤ) : Action Members := fun s ↦
  match step with
  | 0 => startContentionIfNeeded s
  | 1 => transmitFrame (.data s.members.retryFlag) s
  | 2 =>
    if params.useFullAckTimeout then expectReplyWithin .expectFullReply s
    else expectReplyWithin .expectReplyRxStart s
  | 3 => do
    let s ← releaseChannel s
    succeed s
  | _ => .error .assertionFailed

/-- `processReply`. -/
def processReply (step : ℤ) (frame : ReceivedFrame) (s : StepBasedFrameExchange Members) :
    Except FrameExchangeError (FrameProcessingResult × StepBasedFrameExchange Members) :=
  match step with
  | 2 => .ok (if frame = .ack then .processedDiscard else .ignored, s)
  | _ => .error .assertionFailed

/-- `retry`. -/
def retry : Action Members := fun s ↦ do
  let s ← releaseChannel s
  if s.members.retryCount + 1 < params.shortRetryLimit then
    gotoStep 0 { s with
      members := { s.members with retryFlag := true, retryCount := s.members.retryCount + 1 } }
  else do
    let s ← fail s
    return { s with members := { s.members with linkBreak := true } }

/-- `processTimeout`. -/
def processTimeout (step : ℤ) : Action Members := fun s ↦
  match step with
  | 2 => retry params s
  | _ => .error .assertionFailed

/-- `processInternalCollision`. -/
def processInternalCollision (step : ℤ) : Action Members := fun s ↦
  match step with
  | 0 => retry params s
  | _ => .error .assertionFailed

/-- The functions of the class. -/
def steps : Steps Members where
  doStep := doStep params
  processReply := processReply
  processTimeout := processTimeout params
  processInternalCollision := processInternalCollision params

end SendDataWithAckFrameExchange

namespace SendDataWithRtsCtsFrameExchange

/-- The members: the counts and the retry flag of the frame. -/
structure Members where
  shortRetryCount : ℤ := 0
  longRetryCount : ℤ := 0
  retryFlag : Bool := false
  deriving DecidableEq, Repr

variable (params : MacParameters)

/-- `doStep`. -/
def doStep (step : ℤ) : Action Members := fun s ↦
  match step with
  | 0 => startContentionIfNeeded s
  | 1 => transmitFrame .rts s
  | 2 => expectReplyWithin .expectReplyRxStart s
  | 3 => transmitFrame (.data s.members.retryFlag) s
  | 4 => expectReplyWithin .expectReplyRxStart s
  | 5 => do
    let s ← releaseChannel s
    succeed s
  | _ => .error .assertionFailed

/-- `processReply`. -/
def processReply (step : ℤ) (frame : ReceivedFrame) (s : StepBasedFrameExchange Members) :
    Except FrameExchangeError (FrameProcessingResult × StepBasedFrameExchange Members) :=
  match step with
  | 2 => .ok (if frame = .cts then .processedDiscard else .ignored, s)
  | 4 => .ok (if frame = .ack then .processedDiscard else .ignored, s)
  | _ => .error .assertionFailed

/-- `retryRtsCts`. -/
def retryRtsCts : Action Members := fun s ↦ do
  let s ← releaseChannel s
  if s.members.shortRetryCount < params.shortRetryLimit then
    gotoStep 0 { s with
      members := { s.members with shortRetryCount := s.members.shortRetryCount + 1 } }
  else fail s

/-- `retryData`. -/
def retryData : Action Members := fun s ↦ do
  let s ← releaseChannel s
  if s.members.longRetryCount < params.longRetryLimit then
    gotoStep 0 { s with
      members := { s.members with
        retryFlag := true
        longRetryCount := s.members.longRetryCount + 1 } }
  else fail s

/-- `processTimeout`. -/
def processTimeout (step : ℤ) : Action Members := fun s ↦
  match step with
  | 2 => retryRtsCts params s
  | 4 => retryData params s
  | _ => .error .assertionFailed

/-- `processInternalCollision`. -/
def processInternalCollision (step : ℤ) : Action Members := fun s ↦
  match step with
  | 0 => retryRtsCts params s
  | _ => .error .assertionFailed

/-- The functions of the class. -/
def steps : Steps Members where
  doStep := doStep
  processReply := processReply
  processTimeout := processTimeout params
  processInternalCollision := processInternalCollision params

end SendDataWithRtsCtsFrameExchange

end Inet
