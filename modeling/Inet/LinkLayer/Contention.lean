import Inet.Foundations.Fallible
import Inet.Foundations.TransitionSystem
import Mathlib.Algebra.Order.Ring.Int

/-!
# Contention for the 802.11 channel

A `Contention` waits until the medium has been free for an inter-frame space and a number of backoff
slots. What is left of the backoff when the medium becomes busy is computed from the time at which
the transmission was to start. Times are numbers of ticks.

There is no collision controller here, so that no other contention interferes.
-/

namespace Inet

/-- `Contention::State`. -/
inductive ContentionState
  | idle
  | defer
  | ifsAndBackoff
  | owning
  deriving DecidableEq, Repr

/-- `Contention::EventType`. -/
inductive ContentionEvent
  | start
  | mediumStateChanged
  | corruptedFrameReceived
  | transmissionGranted
  | internalCollision
  | channelReleased
  deriving DecidableEq, Repr

/-- What is reported to the upper MAC. -/
inductive ContentionReport
  | channelAccessGranted
  | internalCollision
  deriving DecidableEq, Repr

/-- The errors of a contention. -/
inductive ContentionError
  | assertionFailed
  | unhandledEvent
  | alreadyScheduled
  | timeInThePast
  deriving DecidableEq, Repr

/-- `Contention`: the parameters of the current contention and the state. `startTxEvent` is the
arrival time of the event if it is scheduled. -/
structure Contention where
  ifs : ℕ := 0
  eifs : ℕ := 0
  slotTime : ℕ := 0
  fsm : ContentionState := .idle
  endEifsTime : ℤ := 0
  backoffSlots : ℤ := 0
  scheduledTransmissionTime : ℤ := 0
  lastChannelBusyTime : ℤ := 0
  lastIdleStartTime : ℤ := 0
  backoffOptimizationDelta : ℤ := 0
  mediumFree : Bool := false
  backoffOptimization : Bool := true
  startTxEvent : Option ℤ := none
  deriving DecidableEq, Repr

/-- The arguments of `startContention`, with the number that is drawn from the contention window. -/
structure ContentionParams where
  ifs : ℕ
  eifs : ℕ
  slotTime : ℕ
  slotTime_pos : 0 < slotTime
  backoffSlots : ℕ

namespace Contention

variable (now : ℤ)

/-- `SimTime::getMaxTime`, in ticks. -/
def maxTime : ℤ :=
  2 ^ 63 - 1

/-- `initialize`. -/
def initial (backoffOptimization initialChannelBusy : Bool) : Contention where
  backoffOptimization := backoffOptimization
  lastIdleStartTime := now - maxTime / 2
  lastChannelBusyTime := if initialChannelBusy = false ∧ now = 0 then now - maxTime / 2 else 0

/-- `scheduleTransmissionRequestFor`. -/
def scheduleTransmissionRequestFor (txStartTime : ℤ) (s : Contention) :
    Except ContentionError Contention :=
  if s.startTxEvent.isSome then .error .alreadyScheduled
  else if txStartTime < now then .error .timeInThePast
  else .ok { s with startTxEvent := some txStartTime }

/-- `cancelTransmissionRequest`. -/
def cancelTransmissionRequest (s : Contention) : Contention :=
  { s with startTxEvent := none }

/-- The time that is waited for. -/
def waitInterval (s : Contention) : ℤ :=
  let useEifs := s.endEifsTime > now + s.ifs
  (if useEifs then s.eifs else s.ifs) + s.backoffSlots * s.slotTime

/-- The time by which a frame is taken to have arrived earlier. -/
def optimizationDelta (s : Contention) : ℤ :=
  min (s.waitInterval now) (min (now - s.lastChannelBusyTime) (now - s.lastIdleStartTime))

/-- `scheduleTransmissionRequest`. -/
def scheduleTransmissionRequest (s : Contention) : Except ContentionError Contention :=
  if s.mediumFree then
    let waitInterval := s.waitInterval now
    let optimized := s.backoffOptimization = true ∧ s.fsm = .idle
    let delta := if optimized then s.optimizationDelta now else s.backoffOptimizationDelta
    let waitInterval := if optimized ∧ delta > 0 then waitInterval - delta else waitInterval
    { s with
      backoffOptimizationDelta := delta
      scheduledTransmissionTime := now + waitInterval
      }.scheduleTransmissionRequestFor now (now + waitInterval)
  else .error .assertionFailed

/-- `switchToEifs`. -/
def switchToEifs (s : Contention) : Except ContentionError Contention :=
  { s with endEifsTime := now + s.eifs }.cancelTransmissionRequest.scheduleTransmissionRequest now

/-- `computeRemainingBackoffSlots`. The division is that of C++. -/
def computeRemainingBackoffSlots (s : Contention) : Contention :=
  let remainingTime := s.scheduledTransmissionTime - now
  let remainingSlots := (remainingTime + s.slotTime - 1).tdiv s.slotTime
  if remainingSlots < s.backoffSlots then { s with backoffSlots := remainingSlots } else s

/-- `revokeBackoffOptimization`. -/
def revokeBackoffOptimization (s : Contention) : Except ContentionError Contention :=
  ({ s with
    scheduledTransmissionTime := s.scheduledTransmissionTime + s.backoffOptimizationDelta
    backoffOptimizationDelta := 0
    }.cancelTransmissionRequest.computeRemainingBackoffSlots now).scheduleTransmissionRequest now

/-- Going to a state without a report. -/
def goTo (fsm : ContentionState) (s : Contention) : Contention × Option ContentionReport :=
  ({ s with fsm := fsm }, none)

/-- `handleWithFSM`. The actions of a transition see the state that is left. -/
def handleWithFSM (event : ContentionEvent) (s : Contention) :
    Except ContentionError (Contention × Option ContentionReport) :=
  match s.fsm, event with
  | .idle, .start =>
    if s.mediumFree then (s.scheduleTransmissionRequest now).map (goTo .ifsAndBackoff)
    else .ok (s.goTo .defer)
  | .idle, .mediumStateChanged | .idle, .corruptedFrameReceived | .idle, .channelReleased => .ok (s, none)
  | .defer, .mediumStateChanged =>
    if s.mediumFree then (s.scheduleTransmissionRequest now).map (goTo .ifsAndBackoff)
    else .error .unhandledEvent
  | .defer, .corruptedFrameReceived => .ok ({ s with endEifsTime := now + s.eifs }, none)
  | .ifsAndBackoff, .transmissionGranted =>
    .ok ({ s with fsm := .owning }, some .channelAccessGranted)
  | .ifsAndBackoff, .mediumStateChanged =>
    if s.mediumFree then .error .unhandledEvent
    else .ok ((s.cancelTransmissionRequest.computeRemainingBackoffSlots now).goTo .defer)
  | .ifsAndBackoff, .internalCollision =>
    if s.backoffOptimizationDelta ≠ 0 then
      (s.revokeBackoffOptimization now).map (goTo .ifsAndBackoff)
    else .ok ({ s with fsm := .idle, lastIdleStartTime := now }, some .internalCollision)
  | .ifsAndBackoff, .corruptedFrameReceived => (s.switchToEifs now).map (goTo .ifsAndBackoff)
  | .owning, .channelReleased => .ok ({ s with fsm := .idle, lastIdleStartTime := now }, none)
  | .owning, .mediumStateChanged | .owning, .corruptedFrameReceived => .ok (s, none)
  | _, _ => .error .unhandledEvent

/-- The parameters of a new contention. -/
def setParams (params : ContentionParams) (s : Contention) : Contention :=
  { s with
    ifs := params.ifs
    eifs := params.eifs
    slotTime := params.slotTime
    backoffSlots := params.backoffSlots }

/-- `startContention`. -/
def startContention (params : ContentionParams) (s : Contention) :
    Except ContentionError (Contention × Option ContentionReport) :=
  if s.fsm = .idle then (s.setParams params).handleWithFSM now .start
  else .error .assertionFailed

/-- A change of the medium is noted. -/
def setMediumFree (mediumFree : Bool) (s : Contention) : Contention :=
  { s with mediumFree := mediumFree, lastChannelBusyTime := now }

/-- `mediumStateChanged`. -/
def mediumStateChanged (mediumFree : Bool) (s : Contention) :
    Except ContentionError (Contention × Option ContentionReport) :=
  (s.setMediumFree now mediumFree).handleWithFSM now .mediumStateChanged

/-- `handleMessage`: the event that was scheduled has arrived. -/
def handleMessage (s : Contention) : Except ContentionError (Contention × Option ContentionReport) :=
  { s with startTxEvent := none }.handleWithFSM now .transmissionGranted

end Contention

end Inet
