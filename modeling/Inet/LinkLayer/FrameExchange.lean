import Inet.Foundations.Fallible
import Inet.Foundations.TransitionSystem
import Mathlib.Algebra.Order.Ring.Int

/-!
# Frame exchanges made of steps

A `StepBasedFrameExchange` goes through numbered steps. Each step performs one operation, which
starts something that takes time or says where to go on; the exchange proceeds when it hears of the
end. The steps and the reactions of a kind of exchange are a parameter (`Steps`).

The contention and the transmitter are modelled as far as they can raise an error themselves, and it
is noted which frames have been handed to the transmitter and which results have been reported.
-/

namespace Inet

namespace StepBasedFrameExchange

/-- `Operation`. -/
inductive Operation
  | noOperation
  | startContention
  | transmitFrame
  | expectFullReply
  | expectReplyRxStart
  | gotoStep
  | fail
  | succeed
  deriving DecidableEq, Repr

/-- `Status`. -/
inductive Status
  | inProgress
  | succeeded
  | failed
  deriving DecidableEq, Repr

/-- `FrameProcessingResult`. -/
inductive FrameProcessingResult
  | ignored
  | processedDiscard
  | processedKeep
  deriving DecidableEq, Repr

/-- What a contention is doing, as far as an exchange is concerned. -/
inductive ChannelState
  | idle
  | contending
  | owning
  deriving DecidableEq, Repr

/-- The frames that an exchange sends. -/
inductive SentFrame
  | rts
  | data (retry : Bool)
  deriving DecidableEq, Repr

/-- The frames that are received, as an exchange tells them apart. -/
inductive ReceivedFrame
  | ack
  | cts
  | other
  deriving DecidableEq, Repr

/-- What is raised. -/
inductive FrameExchangeError
  | assertionFailed
  | alreadyTerminated
  | onlyOneOperation
  | operationNotPermitted
  | noOperation
  | unhandledEvent
  | alreadyScheduled
  | nullPointer
  | stackOverflow
  deriving DecidableEq, Repr

end StepBasedFrameExchange

open StepBasedFrameExchange

/-- `StepBasedFrameExchange` with the members `σ` of a derived class, and its surroundings.
`timeoutMsg` says whether the message is scheduled, once there is one. -/
structure StepBasedFrameExchange (σ : Type) where
  members : σ
  step : ℤ := 0
  operation : Operation := .noOperation
  status : Status := .inProgress
  timeoutMsg : Option Bool := none
  gotoTarget : ℤ := -1
  channel : ChannelState := .idle
  transmitting : Bool := false
  sent : List SentFrame := []
  reports : List Bool := []
  deriving DecidableEq

namespace StepBasedFrameExchange

variable {σ : Type}

/-- A function of an exchange. -/
abbrev Action (σ : Type) :=
  StepBasedFrameExchange σ → Except FrameExchangeError (StepBasedFrameExchange σ)

/-! ### Operations -/

/-- `setOperation`. -/
def setOperation (newOperation : Operation) : Action σ := fun s ↦
  if s.status ≠ .inProgress then .error .alreadyTerminated
  else if s.operation ≠ .noOperation then .error .onlyOneOperation
  else .ok { s with operation := newOperation }

/-- `startContention`. The contention has to be idle. -/
def startContention : Action σ := fun s ↦ do
  let s ← setOperation .startContention s
  if s.channel = .idle then .ok { s with channel := .contending } else .error .assertionFailed

/-- `startContentionIfNeeded`. -/
def startContentionIfNeeded : Action σ := fun s ↦
  if s.channel = .owning then .ok s else startContention s

/-- `transmitFrame`. The transmitter has to be idle. -/
def transmitFrame (frame : SentFrame) : Action σ := fun s ↦ do
  let s ← setOperation .transmitFrame s
  if s.transmitting then .error .assertionFailed
  else .ok { s with transmitting := true, sent := s.sent ++ [frame] }

/-- `expectFullReplyWithin` and `expectReplyRxStartWithin`. -/
def expectReplyWithin (operation : Operation) : Action σ := fun s ↦ do
  let s ← setOperation operation s
  if s.timeoutMsg = some true then .error .alreadyScheduled
  else .ok { s with timeoutMsg := some true }

/-- `gotoStep`. -/
def gotoStep (step : ℤ) : Action σ := fun s ↦ do
  let s ← setOperation .gotoStep s
  .ok { s with gotoTarget := step }

/-- `fail`. -/
def fail : Action σ := fun s ↦ do
  let s ← setOperation .fail s
  .ok { s with status := .failed }

/-- `succeed`. -/
def succeed : Action σ := fun s ↦ do
  let s ← setOperation .succeed s
  .ok { s with status := .succeeded }

/-- `releaseChannel`. A contention that waits for the channel does not expect it. -/
def releaseChannel : Action σ := fun s ↦
  if s.channel = .contending then .error .unhandledEvent else .ok { s with channel := .idle }

/-! ### Going through the steps -/

/-- The functions of a derived class. -/
structure Steps (σ : Type) where
  doStep : ℤ → Action σ
  processReply : ℤ → ReceivedFrame → StepBasedFrameExchange σ →
    Except FrameExchangeError (FrameProcessingResult × StepBasedFrameExchange σ)
  processTimeout : ℤ → Action σ
  processInternalCollision : ℤ → Action σ

/-- `cleanup`. -/
def cleanup (s : StepBasedFrameExchange σ) : StepBasedFrameExchange σ :=
  { s with timeoutMsg := s.timeoutMsg.map fun _ ↦ false }

/-- `cleanupAndReportResult`. -/
def cleanupAndReportResult : Action σ := fun s ↦
  match s.status with
  | .succeeded => .ok { s.cleanup with reports := s.reports ++ [true] }
  | .failed => .ok { s.cleanup with reports := s.reports ++ [false] }
  | .inProgress => .error .assertionFailed

/-- `checkOperation`. -/
def checkOperation : Operation → Except FrameExchangeError Unit
  | .noOperation | .gotoStep => .ok ()
  | .fail | .succeed => .error .assertionFailed
  | _ => .error .operationNotPermitted

/-- The step that comes next. -/
def nextStep (s : StepBasedFrameExchange σ) : StepBasedFrameExchange σ :=
  { s with
    step := if s.operation = .gotoStep then s.gotoTarget else s.step + 1
    operation := .noOperation }

variable (P : Steps σ)

/-- `proceed`. It calls itself as long as steps go to other steps, which is bounded here. -/
def proceed : ℕ → Action σ
  | 0, _ => .error .stackOverflow
  | depth + 1, s =>
    if s.status = .inProgress then do
      let s ← P.doStep s.nextStep.step s.nextStep
      if s.status = .inProgress then
        if s.operation = .noOperation then .error .noOperation
        else if s.operation = .gotoStep then proceed depth s
        else .ok s
      else cleanupAndReportResult s
    else .ok s

/-- A bound for the calls of `proceed`. -/
def maxDepth : ℕ :=
  2

/-- `start`. -/
def start : Action σ := fun s ↦
  if s.step = 0 then proceed P maxDepth { s with operation := .gotoStep, gotoTarget := 0 }
  else .error .assertionFailed

/-- What follows a reaction: the exchange proceeds, or it has come to its end. -/
def goOn : Action σ := fun s ↦
  if s.status = .inProgress then do
    checkOperation s.operation
    proceed P maxDepth s
  else cleanupAndReportResult s

/-- `handleTimeout`. -/
def handleTimeout : Action σ := fun s ↦ do
  let s ← P.processTimeout s.step { s with operation := .noOperation }
  goOn P s

/-- Whether the time-out is scheduled, for a member that is used without a check. -/
def isTimeoutScheduled (s : StepBasedFrameExchange σ) : Except FrameExchangeError Bool :=
  match s.timeoutMsg with
  | none => .error .nullPointer
  | some scheduled => .ok scheduled

/-! ### Events -/

/-- `channelAccessGranted`. -/
def channelAccessGranted : Action σ := fun s ↦
  if s.status = .inProgress ∧ s.operation = .startContention then proceed P maxDepth s
  else .error .assertionFailed

/-- `transmissionComplete`. -/
def transmissionComplete : Action σ := fun s ↦
  if s.status = .inProgress ∧ s.operation = .transmitFrame then proceed P maxDepth s
  else .error .assertionFailed

/-- `internalCollision`. -/
def internalCollision : Action σ := fun s ↦
  if s.status = .inProgress ∧ s.operation = .startContention then do
    let s ← P.processInternalCollision s.step { s with operation := .noOperation }
    goOn P s
  else .error .assertionFailed

/-- The exchange goes on waiting for the frame. -/
def keepWaiting (operation : Operation) : Action σ := fun s ↦
  if operation = .expectFullReply then .ok { s with operation := .expectFullReply }
  else do
    let scheduled ← s.isTimeoutScheduled
    if scheduled then .ok { s with operation := .expectReplyRxStart } else handleTimeout P s

/-- What follows the processing of a frame. -/
def replyProcessed (operation : Operation) (result : FrameProcessingResult) : Action σ := fun s ↦
  if s.status = .inProgress then do
    checkOperation s.operation
    if result ≠ .ignored ∨ s.operation ≠ .noOperation then proceed P maxDepth s.cleanup
    else keepWaiting P operation s
  else cleanupAndReportResult s

/-- `lowerFrameReceived`. -/
def lowerFrameReceived (frame : ReceivedFrame) (s : StepBasedFrameExchange σ) :
    Except FrameExchangeError (FrameProcessingResult × StepBasedFrameExchange σ) :=
  if s.status = .inProgress then
    if s.operation = .expectFullReply ∨ s.operation = .expectReplyRxStart then do
      let (result, s') ← P.processReply s.step frame { s with operation := .noOperation }
      let s' ← replyProcessed P s.operation result s'
      return (result, s')
    else .ok (.ignored, s)
  else .error .assertionFailed

/-- `corruptedOrNotForUsFrameReceived`. -/
def corruptedOrNotForUsFrameReceived : Action σ := fun s ↦
  if s.operation = .expectReplyRxStart then do
    let scheduled ← s.isTimeoutScheduled
    if scheduled then .ok s else handleTimeout P s
  else .ok s

/-- `handleSelfMessage`. -/
def handleSelfMessage (isReceptionInProgress : Bool) : Action σ := fun s ↦
  if s.status = .inProgress then
    if s.operation = .expectFullReply then handleTimeout P s
    else if s.operation = .expectReplyRxStart then
      if isReceptionInProgress then .ok s else handleTimeout P s
    else .error .assertionFailed
  else .error .assertionFailed

/-! ### Runs -/

/-- What happens around an exchange. -/
inductive Event
  | channelAccessGranted
  | internalCollision
  | transmissionComplete
  | frameReceived (frame : ReceivedFrame)
  | corruptedFrameReceived
  | timeout (isReceptionInProgress : Bool)
  deriving DecidableEq, Repr

/-- An event can happen only while the exchange is not over, and only if it has been started. -/
def Enabled (s : StepBasedFrameExchange σ) : Event → Prop
  | .channelAccessGranted | .internalCollision => s.reports = [] ∧ s.channel = .contending
  | .transmissionComplete => s.reports = [] ∧ s.transmitting = true
  | .frameReceived _ | .corruptedFrameReceived => s.reports = []
  | .timeout _ => s.reports = [] ∧ s.timeoutMsg = some true

instance (s : StepBasedFrameExchange σ) : DecidablePred s.Enabled
  | .channelAccessGranted | .internalCollision =>
    inferInstanceAs (Decidable (s.reports = [] ∧ s.channel = .contending))
  | .transmissionComplete => inferInstanceAs (Decidable (s.reports = [] ∧ s.transmitting = true))
  | .frameReceived _ | .corruptedFrameReceived => inferInstanceAs (Decidable (s.reports = []))
  | .timeout _ => inferInstanceAs (Decidable (s.reports = [] ∧ s.timeoutMsg = some true))

/-- What the exchange does, and what it does with a frame. -/
def react (s : StepBasedFrameExchange σ) :
    Event → Except FrameExchangeError (FrameProcessingResult × StepBasedFrameExchange σ)
  | .channelAccessGranted =>
    (channelAccessGranted P { s with channel := .owning }).map (.ignored, ·)
  | .internalCollision => (internalCollision P { s with channel := .idle }).map (.ignored, ·)
  | .transmissionComplete =>
    (transmissionComplete P { s with transmitting := false }).map (.ignored, ·)
  | .frameReceived frame => lowerFrameReceived P frame s
  | .corruptedFrameReceived => (corruptedOrNotForUsFrameReceived P s).map (.ignored, ·)
  | .timeout isReceptionInProgress =>
    (handleSelfMessage P isReceptionInProgress { s with timeoutMsg := some false }).map (.ignored, ·)

/-- An exchange from its start on. -/
def system (members : σ) :
    TransitionSystem (StepBasedFrameExchange σ) Event FrameProcessingResult where
  Init s := start P { members := members } = .ok s
  Step s i o s' := s.Enabled i ∧ s.react P i = .ok (o, s')

/-- An event that raises an error leaves the exchange as it is. -/
def reactOrStay (s : StepBasedFrameExchange σ) (e : Event) :
    StepBasedFrameExchange σ × FrameProcessingResult :=
  match s.react P e with
  | .ok (result, s') => (s', result)
  | .error _ => (s, .ignored)

/-- Events that can happen and raise no error make a run. -/
theorem system_run (m₀ : σ) (es : List Event) {s : StepBasedFrameExchange σ}
    (hs : start P { members := m₀ } = .ok s)
    (h : ∀ t ∈ TransitionSystem.transitionsOf (reactOrStay P) s es,
      t.pre.Enabled t.input ∧ t.pre.react P t.input =
        .ok ((reactOrStay P t.pre t.input).2, (reactOrStay P t.pre t.input).1)) :
    (system P m₀).Run (TransitionSystem.transitionsOf (reactOrStay P) s es)
      (TransitionSystem.stateAfter (reactOrStay P) s es) :=
  .ofInputs (fun _ _ hstep ↦ hstep) hs h

end StepBasedFrameExchange

end Inet
