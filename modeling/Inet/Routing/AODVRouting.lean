import Mathlib.Logic.Function.Basic
import Inet.Foundations.TransitionSystem
import Inet.NetworkLayer.L3Address

/-!
# Route discovery in AODV

A datagram for which there is no route waits in `targetAddressToDelayedPackets` while a Route
Request is sent, and `waitForRREPTimers` has a timer for the target. When the Route Reply arrives,
the datagrams are put back; when the timer expires, the request is sent again, at most `rreqRetries`
times at the largest TTL. Not more than `rreqRatelimit` requests are sent in a second.

The routing table is changed by the other messages of the protocol as well. What route discovery
sees of it is what it gives for an address, so that here it may change in any way at any time.
-/

namespace Inet

/-- `AODVRouteData`, as far as route discovery reads it. -/
structure AODVRouteData where
  isActive : Bool
  hasValidDestNum : Bool
  destSeqNum : ℕ
  deriving DecidableEq, Repr

/-- A route that `findBestMatchingRoute` gives. Only those of AODV have data of the protocol. -/
structure AODVRoute where
  nextHop : L3Address
  metric : ℕ
  isOwn : Bool
  protocolData : Option AODVRouteData
  deriving DecidableEq, Repr

/-- A datagram that the network layer has handed over. -/
structure INetworkDatagram where
  id : ℕ
  sourceAddress : L3Address
  destinationAddress : L3Address
  deriving DecidableEq, Repr

/-- `WaitForRREP`. A timer that is scheduled has an arrival time. -/
structure WaitForRREP where
  destAddr : L3Address
  lastTTL : ℕ
  fromInvalidEntry : Bool
  arrivalTime : Option ℕ
  deriving DecidableEq, Repr

/-- `AODVRREQ`. -/
structure AODVRREQ where
  gratuitousRREPFlag : Bool
  originatorSeqNum : ℕ
  destSeqNum : ℕ
  unknownSeqNumFlag : Bool
  originatorAddr : L3Address
  destAddr : L3Address
  rreqId : ℕ
  hopCount : ℕ
  deriving DecidableEq, Repr

/-- What route discovery does with packets. -/
inductive AODVAction
  | sendRREQ (rreq : AODVRREQ) (timeToLive : ℕ)
  | accept (datagram : INetworkDatagram)
  | reinjectQueuedDatagram (datagram : INetworkDatagram)
  deriving DecidableEq, Repr

/-- The parameters of the module, and what it asks of the addresses. Times are counted in units of
which `second` make up a second. -/
structure AODVParameters where
  second : ℕ
  selfIPAddress : L3Address
  isLocalAddress : L3Address → Bool
  isBroadcast : L3Address → Bool
  isMulticast : L3Address → Bool
  askGratuitousRREP : Bool
  rreqRetries : ℕ
  rreqRatelimit : ℕ
  ttlStart : ℕ
  ttlIncrement : ℕ
  ttlThreshold : ℕ
  netDiameter : ℕ
  nodeTraversalTime : ℕ
  timeoutBuffer : ℕ

/-- `class AODVRouting`: what belongs to route discovery. The action list is what the current event
does. -/
structure AODVRouting where
  now : ℕ := 0
  routingTable : L3Address → Option AODVRoute := fun _ ↦ none
  targetAddressToDelayedPackets : List INetworkDatagram := []
  waitForRREPTimers : L3Address → Option WaitForRREP := fun _ ↦ none
  addressToRreqRetries : L3Address → Option ℕ := fun _ ↦ none
  rreqCount : ℕ := 0
  counterTimer : ℕ
  sequenceNum : ℕ := 0
  rreqId : ℕ := 0
  actions : List AODVAction := []

/-- What stops the module. -/
inductive AODVError
  | assertionFailed
  | missingTimer
  deriving DecidableEq, Repr

namespace AODVRouting

variable (P : AODVParameters)

/-- The timer that waits for a reply from a target. -/
def setTimer (s : AODVRouting) (target : L3Address) (timer : Option WaitForRREP) : AODVRouting :=
  { s with waitForRREPTimers := Function.update s.waitForRREPTimers target timer }

/-- `AODVRouting::hasOngoingRouteDiscovery`. -/
def hasOngoingRouteDiscovery (s : AODVRouting) (target : L3Address) : Bool :=
  (s.waitForRREPTimers target).isSome

/-- `AODVRouting::delayDatagram`. -/
def delayDatagram (datagram : INetworkDatagram) (s : AODVRouting) : AODVRouting :=
  { s with targetAddressToDelayedPackets := s.targetAddressToDelayedPackets ++ [datagram] }

/-- `AODVRouting::createRREQ`. -/
def createRREQ (destAddr : L3Address) (s : AODVRouting) : AODVRREQ × AODVRouting :=
  let destSeqNum : Option ℕ :=
    match s.routingTable destAddr with
    | some lastKnownRoute =>
      if lastKnownRoute.isOwn then
        match lastKnownRoute.protocolData with
        | some routeData => if routeData.hasValidDestNum then some routeData.destSeqNum else none
        | none => none
      else none
    | none => none
  ({ gratuitousRREPFlag := P.askGratuitousRREP, originatorSeqNum := s.sequenceNum + 1
     destSeqNum := destSeqNum.getD 0, unknownSeqNumFlag := destSeqNum.isNone
     originatorAddr := P.selfIPAddress, destAddr := destAddr, rreqId := s.rreqId + 1, hopCount := 0 },
    { s with sequenceNum := s.sequenceNum + 1, rreqId := s.rreqId + 1 })

/-- The timer that `sendRREQ` schedules, with the time to live of the request. -/
def nextTimer (s : AODVRouting) (destAddr : L3Address) (timeToLive : ℕ) :
    Except AODVError (WaitForRREP × ℕ) :=
  match s.waitForRREPTimers destAddr with
  | some rrepTimer =>
    if timeToLive ≠ 0 then
      .ok ({ rrepTimer with
        destAddr := destAddr, lastTTL := timeToLive, fromInvalidEntry := true, arrivalTime := none },
        timeToLive)
    else if rrepTimer.arrivalTime.isSome then .error .assertionFailed
    else if rrepTimer.lastTTL + P.ttlIncrement < P.ttlThreshold then
      .ok ({ rrepTimer with
        destAddr := destAddr, lastTTL := rrepTimer.lastTTL + P.ttlIncrement },
        rrepTimer.lastTTL + P.ttlIncrement)
    else .ok ({ rrepTimer with destAddr := destAddr, lastTTL := P.netDiameter }, P.netDiameter)
  | none => .ok (⟨destAddr, P.ttlStart, false, none⟩, P.ttlStart)

/-- The end of `sendRREQ`: the timer is scheduled, and the request is sent. -/
def scheduleRREQ (rreq : AODVRREQ) (rrepTimer : WaitForRREP) (timeToLive : ℕ) (s : AODVRouting) :
    Except AODVError AODVRouting :=
  let ringTraversalTime := 2 * P.nodeTraversalTime * (timeToLive + P.timeoutBuffer)
  if timeToLive = 0 then .error .assertionFailed
  else .ok ({ s with
    actions := s.actions ++ [AODVAction.sendRREQ rreq timeToLive]
    rreqCount := s.rreqCount + 1 }.setTimer rreq.destAddr
      (some { rrepTimer with arrivalTime := some (s.now + ringTraversalTime) }))

/-- `AODVRouting::sendRREQ`, to the broadcast address. -/
def sendRREQ (rreq : AODVRREQ) (timeToLive : ℕ) (s : AODVRouting) : Except AODVError AODVRouting :=
  if P.rreqRatelimit ≤ s.rreqCount then .ok s
  else do
    let (rrepTimer, timeToLive) ← s.nextTimer P rreq.destAddr timeToLive
    s.scheduleRREQ P rreq rrepTimer timeToLive

/-- `AODVRouting::startRouteDiscovery`. -/
def startRouteDiscovery (target : L3Address) (timeToLive : ℕ) (s : AODVRouting) :
    Except AODVError AODVRouting :=
  if s.hasOngoingRouteDiscovery target then .error .assertionFailed
  else
    let (rreq, s) := s.createRREQ P target
    { s with addressToRreqRetries := Function.update s.addressToRreqRetries target (some 0) }.sendRREQ
      P rreq timeToLive

/-- The route for a datagram can be used. -/
def isActiveRoute (route : AODVRoute) : Bool :=
  route.protocolData.any AODVRouteData.isActive && route.nextHop != 0

/-- `AODVRouting::ensureRouteForDatagram`. -/
def ensureRouteForDatagram (datagram : INetworkDatagram) (s : AODVRouting) :
    Except AODVError AODVRouting :=
  let destAddr := datagram.destinationAddress
  let accepted := { s with actions := s.actions ++ [.accept datagram] }
  if P.isBroadcast destAddr || P.isLocalAddress destAddr || P.isMulticast destAddr then .ok accepted
  else if (s.routingTable destAddr).any isActiveRoute then .ok accepted
  else if datagram.sourceAddress == 0 || P.isLocalAddress datagram.sourceAddress then
    let s := s.delayDatagram datagram
    if s.hasOngoingRouteDiscovery destAddr then .ok s
    else
      match s.routingTable destAddr with
      | some route =>
        if route.protocolData.any fun routeData ↦ !routeData.isActive then
          s.startRouteDiscovery P destAddr (route.metric + P.ttlIncrement)
        else s.startRouteDiscovery P destAddr 0
      | none => s.startRouteDiscovery P destAddr 0
  else .ok accepted

/-- `AODVRouting::completeRouteDiscovery`. -/
def completeRouteDiscovery (target : L3Address) (s : AODVRouting) : Except AODVError AODVRouting :=
  if s.hasOngoingRouteDiscovery target then
    let delayed := s.targetAddressToDelayedPackets.filter fun datagram ↦
      datagram.destinationAddress = target
    let rest := s.targetAddressToDelayedPackets.filter fun datagram ↦
      datagram.destinationAddress ≠ target
    .ok ({ s with
      actions := s.actions ++ delayed.map AODVAction.reinjectQueuedDatagram
      targetAddressToDelayedPackets := rest }.setTimer target none)
  else .error .assertionFailed

/-- The end of `AODVRouting::handleRREP`, after the routes have been updated. -/
def handleRREP (originatorAddr destAddr : L3Address) (s : AODVRouting) :
    Except AODVError AODVRouting :=
  if originatorAddr ≠ 0 ∧ P.selfIPAddress = originatorAddr ∧ s.hasOngoingRouteDiscovery destAddr then
    s.completeRouteDiscovery destAddr
  else .ok s

/-- `AODVRouting::handleWaitForRREP`. -/
def handleWaitForRREP (rrepTimer : WaitForRREP) (s : AODVRouting) : Except AODVError AODVRouting :=
  let destAddr := rrepTimer.destAddr
  match s.addressToRreqRetries destAddr with
  | none => .error .assertionFailed
  | some retries =>
    if retries = P.rreqRetries then .ok s
    else
      let (rreq, s) := s.createRREQ P destAddr
      let s := if rrepTimer.lastTTL = P.netDiameter then
          { s with
            addressToRreqRetries := Function.update s.addressToRreqRetries destAddr (some (retries + 1)) }
        else s
      s.sendRREQ P rreq 0

end AODVRouting

/-- What happens to route discovery. -/
inductive AODVEvent
  | advance (t : ℕ)
  | routesChanged (routingTable : L3Address → Option AODVRoute)
  | datagram (datagram : INetworkDatagram)
  | routeReply (originatorAddr destAddr : L3Address)
  | waitForRREP (target : L3Address)
  | counterTimer

namespace AODVRouting

variable (P : AODVParameters)

/-- What the module does. A timer that expires is no longer scheduled. -/
def handle (s : AODVRouting) : AODVEvent → Except AODVError AODVRouting
  | .advance t => .ok { s with now := t }
  | .routesChanged routingTable => .ok { s with routingTable := routingTable }
  | .datagram datagram => s.ensureRouteForDatagram P datagram
  | .routeReply originatorAddr destAddr => s.handleRREP P originatorAddr destAddr
  | .waitForRREP target =>
    match s.waitForRREPTimers target with
    | some rrepTimer =>
      (s.setTimer target (some { rrepTimer with arrivalTime := none })).handleWaitForRREP P rrepTimer
    | none => .error .missingTimer
  | .counterTimer => .ok { s with rreqCount := 0, counterTimer := s.now + P.second }

/-- When an event can happen. -/
def Allowed (s : AODVRouting) : AODVEvent → Prop
  | .advance t => s.now ≤ t ∧ t ≤ s.counterTimer ∧
    ∀ target timer, s.waitForRREPTimers target = some timer → ∀ u ∈ timer.arrivalTime, t ≤ u
  | .waitForRREP target =>
    ∃ timer, s.waitForRREPTimers target = some timer ∧ timer.arrivalTime = some s.now
  | .counterTimer => s.counterTimer = s.now
  | _ => True

/-- Route discovery as a machine. -/
def system : TransitionSystem AODVRouting AODVEvent (List AODVAction) where
  Init s := ∃ now routingTable,
    s = { now := now, routingTable := routingTable, counterTimer := now + P.second }
  Step s event actions s' :=
    s.Allowed event ∧ { s with actions := [] }.handle P event = .ok s' ∧ actions = s'.actions

end AODVRouting

end Inet
