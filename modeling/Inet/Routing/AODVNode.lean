import Mathlib.Data.UInt
import Mathlib.Logic.Function.Basic
import Inet.NetworkLayer.L3Address

/-!
# A node of AODV

What `AODVRouting` does with the control packets it receives and with the notices of the lower
layers, on the routes that it has put into the routing table. A route of another source counts as
none for every function of the module, and so the table is the list of its own routes.

When a route is asked for, and for how many hops, is the subject of `Inet.Routing.AODVRouting`; here
any node may ask for any route. Times are those of the simulation, and the jitter of a packet is
left to the network.
-/

namespace Inet.AODV

/-! ### Packets -/

/-- `AODVRREQ`. -/
structure RREQ where
  gratuitousRREPFlag : Bool
  unknownSeqNumFlag : Bool
  hopCount : ℕ
  rreqId : UInt32
  destAddr : L3Address
  destSeqNum : UInt32
  originatorAddr : L3Address
  originatorSeqNum : UInt32
  deriving DecidableEq

/-- `AODVRREP`. -/
structure RREP where
  ackRequiredFlag : Bool := false
  hopCount : ℕ
  destAddr : L3Address
  destSeqNum : UInt32
  originatorAddr : L3Address
  originatorSeqNum : UInt32
  lifeTime : ℤ
  deriving DecidableEq

/-- `UnreachableNode`. -/
structure UnreachableNode where
  addr : L3Address
  seqNum : UInt32
  deriving DecidableEq

/-- `AODVControlPacket`. -/
inductive ControlPacket where
  | rreq (rreq : RREQ)
  | rrep (rrep : RREP)
  | rerr (unreachableNodes : List UnreachableNode)
  | rrepAck
  deriving DecidableEq

/-- A packet that is given to the network layer. -/
structure Sent where
  packet : ControlPacket
  destAddr : L3Address
  timeToLive : ℕ
  deriving DecidableEq

/-! ### The state of a node -/

/-- A route of the protocol with its `AODVRouteData`. -/
structure Route where
  destination : L3Address
  nextHop : L3Address
  metric : ℕ
  precursorList : List L3Address := []
  isActive : Bool
  hasValidDestNum : Bool
  destSeqNum : UInt32
  lifeTime : ℤ
  deriving DecidableEq

/-- The parameters of the module, and what is asked of the addresses. -/
structure Parameters where
  broadcastAddress : L3Address
  isMulticast : L3Address → Bool
  askGratuitousRREP : Bool
  activeRouteTimeout : ℤ
  deletePeriod : ℤ
  myRouteTimeout : ℤ
  blacklistTimeout : ℤ
  netTraversalTime : ℤ
  nodeTraversalTime : ℤ
  nextHopWait : ℤ
  pathDiscoveryTime : ℤ
  helloInterval : ℤ
  allowedHelloLoss : ℤ
  rerrRatelimit : ℕ

/-- `class AODVRouting`, with the packets that the current event sends. An entry of
`rreqsArrivalTime` is found by the id of the request alone, as `RREQIdentifierCompare` has it. -/
structure Node where
  sequenceNum : UInt32 := 0
  rreqId : UInt32 := 0
  routes : List Route := []
  rreqsArrivalTime : UInt32 → Option ℤ := fun _ ↦ none
  waitForRREPTimers : L3Address → Bool := fun _ ↦ false
  blacklist : L3Address → Option ℤ := fun _ ↦ none
  failedNextHop : L3Address := 0
  rrepAckTimer : Option ℤ := none
  rerrCount : ℕ := 0
  lastBroadcastTime : ℤ := 0
  rebootTime : ℤ := 0
  isOperational : Bool := true
  sent : List Sent := []

namespace Route

/-- `AODVRouteData::addPrecursor`. -/
def addPrecursor (precursorAddr : L3Address) (route : Route) : Route :=
  { route with precursorList := route.precursorList.insert precursorAddr }

/-- `AODVRouting::updateRoutingTable`. -/
def update (nextHop : L3Address) (hopCount : ℕ) (hasValidDestNum : Bool) (destSeqNum : UInt32)
    (isActive : Bool) (lifeTime : ℤ) (route : Route) : Route :=
  { route with
    nextHop := nextHop, metric := hopCount, hasValidDestNum := hasValidDestNum
    destSeqNum := destSeqNum, isActive := isActive, lifeTime := lifeTime }

end Route

namespace Node

variable (P : Parameters) (self : L3Address) (now : ℤ)

/-! ### The routing table -/

/-- `findBestMatchingRoute`: a route of the protocol is for one address. -/
def findRoute (s : Node) (addr : L3Address) : Option Route :=
  s.routes.find? fun route ↦ route.destination = addr

/-- The route for an address is changed. -/
def modifyRoute (s : Node) (addr : L3Address) (f : Route → Route) : Node :=
  { s with routes := s.routes.map fun route ↦ if route.destination = addr then f route else route }

/-- `AODVRouting::createRoute`. -/
def createRoute (s : Node) (destAddr nextHop : L3Address) (hopCount : ℕ) (hasValidDestNum : Bool)
    (destSeqNum : UInt32) (isActive : Bool) (lifeTime : ℤ) : Node :=
  { s with routes := s.routes ++
      [⟨destAddr, nextHop, hopCount, [], isActive, hasValidDestNum, destSeqNum, lifeTime⟩] }

/-- A route is created, or the one that exists is updated. -/
def setRoute (s : Node) (destAddr nextHop : L3Address) (hopCount : ℕ) (hasValidDestNum : Bool)
    (destSeqNum : UInt32) (isActive : Bool) (lifeTime : ℤ) : Node :=
  if (s.findRoute destAddr).isSome then
    s.modifyRoute destAddr (.update nextHop hopCount hasValidDestNum destSeqNum isActive lifeTime)
  else s.createRoute destAddr nextHop hopCount hasValidDestNum destSeqNum isActive lifeTime

/-- The first lines of `handleRREQ` and `handleRREP`: a route to the previous hop, without a valid
sequence number. -/
def setPreviousHop (s : Node) (sourceAddr : L3Address) (seqNum : UInt32) : Node :=
  s.setRoute sourceAddr sourceAddr 1 false seqNum true (now + P.activeRouteTimeout)

/-- `AODVRouting::updateValidRouteLifeTime`. -/
def updateValidRouteLifeTime (s : Node) (destAddr : L3Address) (lifetime : ℤ) : Node :=
  s.modifyRoute destAddr fun route ↦
    if route.isActive then { route with lifeTime := max route.lifeTime lifetime } else route

/-- The reboot is over. -/
def hasRebooted (s : Node) : Prop :=
  s.rebootTime + P.deletePeriod < now ∨ s.rebootTime = 0

instance (s : Node) : Decidable (s.hasRebooted P now) :=
  inferInstanceAs (Decidable (_ ∨ _))

/-! ### Sending -/

/-- `AODVRouting::sendAODVPacket`. -/
def sendAODVPacket (s : Node) (packet : ControlPacket) (destAddr : L3Address) (timeToLive : ℕ) :
    Node :=
  { s with
    sent := s.sent ++ [⟨packet, destAddr, timeToLive⟩]
    lastBroadcastTime := if destAddr = P.broadcastAddress then now else s.lastBroadcastTime }

/-- `AODVRouting::createRREQ`. -/
def createRREQ (s : Node) (destAddr : L3Address) : RREQ × Node :=
  let destSeqNum : Option UInt32 :=
    match s.findRoute destAddr with
    | some lastKnownRoute =>
      if lastKnownRoute.hasValidDestNum then some lastKnownRoute.destSeqNum else none
    | none => none
  (⟨P.askGratuitousRREP, destSeqNum.isNone, 0, s.rreqId + 1, destAddr, destSeqNum.getD 0, self,
      s.sequenceNum + 1⟩,
    { s with
      sequenceNum := s.sequenceNum + 1
      rreqId := s.rreqId + 1
      rreqsArrivalTime := Function.update s.rreqsArrivalTime (s.rreqId + 1) (some now) })

/-- A route is asked for: `createRREQ`, and `sendRREQ` with the time to live that route discovery
gives it, if there is no limit that stops the request. -/
def askForRoute (s : Node) (target : L3Address) (timeToLive : Option ℕ) : Node :=
  let (rreq, s) := s.createRREQ P self now target
  match timeToLive with
  | some timeToLive =>
    { s with waitForRREPTimers := Function.update s.waitForRREPTimers target true }.sendAODVPacket P
      now (.rreq rreq) P.broadcastAddress timeToLive
  | none => s

/-- `AODVRouting::sendRREP`. There has to be a route to the originator. -/
def sendRREP (s : Node) (rrep : RREP) (destAddr : L3Address) (timeToLive : ℕ) : Option Node := do
  let destRoute ← s.findRoute destAddr
  let nextHop := destRoute.nextHop
  let s := s.modifyRoute destAddr (.addPrecursor nextHop)
  if destRoute.metric = 1 then
    return { s with
      failedNextHop := nextHop
      rrepAckTimer := some (now + P.nextHopWait) }.sendAODVPacket P now
        (.rrep { rrep with ackRequiredFlag := true }) nextHop timeToLive
  else return s.sendAODVPacket P now (.rrep rrep) nextHop timeToLive

/-- The sequence number of the destination in `AODVRouting::createRREP`: it is raised by one, if
that is the number in the request. -/
def replySeqNum (s : Node) (rreq : RREQ) : UInt32 :=
  if rreq.unknownSeqNumFlag = false ∧ s.sequenceNum + 1 = rreq.destSeqNum then s.sequenceNum + 1
  else s.sequenceNum

/-- `AODVRouting::createRREP`, by the destination itself. -/
def createRREPAsDestination (s : Node) (rreq : RREQ) : RREP × Node :=
  ({ hopCount := 0, destAddr := rreq.destAddr, destSeqNum := s.replySeqNum rreq
     originatorAddr := rreq.originatorAddr, originatorSeqNum := rreq.originatorSeqNum
     lifeTime := P.myRouteTimeout },
    { s with sequenceNum := s.replySeqNum rreq })

/-- `AODVRouting::createRREP`, by an intermediate node. -/
def createRREPAsIntermediate (s : Node) (rreq : RREQ) (destRoute : Route) (lastHopAddr : L3Address) :
    RREP × Node :=
  ({ hopCount := destRoute.metric, destAddr := rreq.destAddr, destSeqNum := destRoute.destSeqNum
     originatorAddr := rreq.originatorAddr, originatorSeqNum := rreq.originatorSeqNum
     lifeTime := destRoute.lifeTime - now },
    (s.modifyRoute destRoute.destination (.addPrecursor lastHopAddr)).modifyRoute
      rreq.originatorAddr (.addPrecursor destRoute.nextHop))

/-- `AODVRouting::createGratuitousRREP` and `sendGRREP`. -/
def sendGRREP (s : Node) (rreq : RREQ) (destAddr : L3Address) (timeToLive : ℕ) : Option Node := do
  let originatorRoute ← s.findRoute rreq.originatorAddr
  let destRoute ← s.findRoute destAddr
  return s.sendAODVPacket P now
    (.rrep { hopCount := originatorRoute.metric, destAddr := rreq.originatorAddr
             destSeqNum := rreq.originatorSeqNum, originatorAddr := rreq.destAddr
             originatorSeqNum := 0, lifeTime := originatorRoute.lifeTime })
    destRoute.nextHop timeToLive

/-- `AODVRouting::createRERR`, which is broadcast to the neighbours. -/
def sendRERR (s : Node) (unreachableNodes : List UnreachableNode) : Node :=
  { s with rerrCount := s.rerrCount + 1 }.sendAODVPacket P now (.rerr unreachableNodes)
    P.broadcastAddress 1

/-! ### Route Requests -/

/-- A request that is not looked at: from a node of the blacklist, or again within
`pathDiscoveryTime`. -/
def Ignores (s : Node) (rreq : RREQ) (sourceAddr : L3Address) : Prop :=
  (s.blacklist sourceAddr).isSome ∨
    ∃ t ∈ s.rreqsArrivalTime rreq.rreqId, now - t ≤ P.pathDiscoveryTime

instance (s : Node) (rreq : RREQ) (sourceAddr : L3Address) :
    Decidable (s.Ignores P now rreq sourceAddr) :=
  inferInstanceAs (Decidable (_ ∨ _))

/-- The reverse route of a request, whose hop count has been raised. The sequence numbers are
compared as an `int`. -/
def setReverseRoute (s : Node) (rreq : RREQ) (sourceAddr : L3Address) : Node :=
  let minimalLifeTime :=
    now + 2 * P.netTraversalTime - 2 * rreq.hopCount * P.nodeTraversalTime
  let newLifeTime := max now minimalLifeTime
  match s.findRoute rreq.originatorAddr with
  | none =>
    s.createRoute rreq.originatorAddr sourceAddr rreq.hopCount true rreq.originatorSeqNum true
      newLifeTime
  | some reverseRoute =>
    let routeSeqNum := reverseRoute.destSeqNum.toInt32
    let rreqSeqNum := rreq.originatorSeqNum.toInt32
    if routeSeqNum < rreqSeqNum ∨
        (rreqSeqNum = routeSeqNum ∧ rreq.hopCount < reverseRoute.metric) ∨
        rreq.unknownSeqNumFlag then
      let newSeqNum :=
        if routeSeqNum < rreqSeqNum then rreq.originatorSeqNum else reverseRoute.destSeqNum
      s.modifyRoute rreq.originatorAddr
        (.update sourceAddr rreq.hopCount true newSeqNum true newLifeTime)
    else s

/-- `AODVRouting::forwardRREQ`, with what is set before. -/
def forwardRREQ (s : Node) (rreq : RREQ) (timeToLive : ℕ) : Node :=
  if 0 < timeToLive ∧ s.hasRebooted P now then
    let destSeqNum :=
      match s.findRoute rreq.destAddr with
      | some destRoute => max destRoute.destSeqNum rreq.destSeqNum
      | none => rreq.destSeqNum
    s.sendAODVPacket P now (.rreq { rreq with destSeqNum := destSeqNum, unknownSeqNumFlag := false })
      P.broadcastAddress timeToLive
  else s

/-- The node replies for another one: it has an active route with a number that is not older. -/
def canReply (rreq : RREQ) (destRoute : Route) : Bool :=
  destRoute.isActive && destRoute.hasValidDestNum && decide (rreq.destSeqNum ≤ destRoute.destSeqNum)

/-- An intermediate node replies, and tells the destination of it if it is asked to. -/
def replyAsIntermediate (s : Node) (rreq : RREQ) (destRoute : Route) (sourceAddr : L3Address) :
    Option Node :=
  if destRoute.nextHop = sourceAddr then some s
  else do
    let (rrep, s) := s.createRREPAsIntermediate now rreq destRoute sourceAddr
    let s ← s.sendRREP P now rrep rreq.originatorAddr 255
    if rreq.gratuitousRREPFlag then s.sendGRREP P now rreq rreq.destAddr 100 else return s

/-- `AODVRouting::handleRREQ`. -/
def handleRREQ (s : Node) (rreq : RREQ) (sourceAddr : L3Address) (timeToLive : ℕ) : Option Node :=
  if (s.blacklist sourceAddr).isSome then some s
  else
    let s := s.setPreviousHop P now sourceAddr rreq.originatorSeqNum
    if ∃ t ∈ s.rreqsArrivalTime rreq.rreqId, now - t ≤ P.pathDiscoveryTime then some s
    else
      let s := { s with
        rreqsArrivalTime := Function.update s.rreqsArrivalTime rreq.rreqId (some now) }
      let rreq := { rreq with hopCount := rreq.hopCount + 1 }
      let s := s.setReverseRoute P now rreq sourceAddr
      if rreq.destAddr = self then
        let (rrep, s) := s.createRREPAsDestination P rreq
        s.sendRREP P now rrep rreq.originatorAddr 255
      else
        match s.findRoute rreq.destAddr with
        | some destRoute =>
          if canReply rreq destRoute then s.replyAsIntermediate P now rreq destRoute sourceAddr
          else some (s.forwardRREQ P now rreq timeToLive)
        | none => some (s.forwardRREQ P now rreq timeToLive)

/-! ### Route Replies -/

/-- `AODVRouting::createHelloMessage`: a reply without an originator. -/
def createHelloMessage (s : Node) : RREP where
  hopCount := 0
  destAddr := self
  destSeqNum := s.sequenceNum
  originatorAddr := 0
  originatorSeqNum := 0
  lifeTime := P.allowedHelloLoss * P.helloInterval

/-- `AODVRouting::sendHelloMessagesIfNeeded`. -/
def sendHelloMessagesIfNeeded (s : Node) : Node :=
  if s.routes.any Route.isActive ∧
      (s.lastBroadcastTime = 0 ∨ P.helloInterval < now - s.lastBroadcastTime) then
    s.sendAODVPacket P now (.rrep (s.createHelloMessage P self)) P.broadcastAddress 1
  else s

/-- `AODVRouting::handleHelloMessage`. -/
def handleHelloMessage (s : Node) (helloMessage : RREP) : Node :=
  let newLifeTime := now + P.allowedHelloLoss * P.helloInterval
  let lifeTime :=
    match s.findRoute helloMessage.destAddr with
    | some routeHelloOriginator => max routeHelloOriginator.lifeTime newLifeTime
    | none => newLifeTime
  s.setRoute helloMessage.destAddr helloMessage.destAddr 1 true helloMessage.destSeqNum true lifeTime

/-- The forward route of a reply, whose hop count has been raised. -/
def setForwardRoute (s : Node) (rrep : RREP) (sourceAddr : L3Address) : Node :=
  match s.findRoute rrep.destAddr with
  | some destRoute =>
    if destRoute.hasValidDestNum = false ∨ destRoute.destSeqNum < rrep.destSeqNum ∨
        (rrep.destSeqNum = destRoute.destSeqNum ∧
          (destRoute.isActive = false ∨ rrep.hopCount < destRoute.metric)) then
      s.modifyRoute rrep.destAddr
        (.update sourceAddr rrep.hopCount true rrep.destSeqNum true (now + rrep.lifeTime))
    else s
  | none =>
    s.createRoute rrep.destAddr sourceAddr rrep.hopCount true rrep.destSeqNum true
      (now + rrep.lifeTime)

/-- `AODVRouting::forwardRREP`, with what is done before, if there is a reverse route. -/
def forwardRREP (s : Node) (rrep : RREP) (sourceAddr : L3Address) : Node :=
  match s.findRoute rrep.originatorAddr with
  | some originatorRoute =>
    let s := s.modifyRoute rrep.originatorAddr fun route ↦
      { route with lifeTime := max (now + P.activeRouteTimeout) route.lifeTime }
    if s.hasRebooted P now then
      let s := if rrep.ackRequiredFlag then s.sendAODVPacket P now .rrepAck sourceAddr 100 else s
      let s := s.modifyRoute rrep.destAddr (.addPrecursor originatorRoute.nextHop)
      let s :=
        match s.findRoute rrep.destAddr with
        | some destRoute => s.modifyRoute destRoute.nextHop (.addPrecursor originatorRoute.nextHop)
        | none => s
      s.sendAODVPacket P now (.rrep { rrep with ackRequiredFlag := false }) originatorRoute.nextHop
        100
    else s
  | none => s

/-- The reply is for a request of this node: the route is used whatever its number is. -/
def acceptRREP (s : Node) (rrep : RREP) (sourceAddr : L3Address) : Node :=
  if s.waitForRREPTimers rrep.destAddr then
    { s with
      waitForRREPTimers := Function.update s.waitForRREPTimers rrep.destAddr false }.modifyRoute
        rrep.destAddr
        (.update sourceAddr rrep.hopCount true rrep.destSeqNum true (now + rrep.lifeTime))
  else s

/-- `AODVRouting::handleRREP`. -/
def handleRREP (s : Node) (rrep : RREP) (sourceAddr : L3Address) : Node :=
  if rrep.originatorAddr = 0 then s.handleHelloMessage P now rrep
  else
    let s := s.setPreviousHop P now sourceAddr rrep.originatorSeqNum
    let rrep := { rrep with hopCount := rrep.hopCount + 1 }
    let s := s.setForwardRoute now rrep sourceAddr
    if self ≠ rrep.originatorAddr then s.forwardRREP P now rrep sourceAddr
    else s.acceptRREP now rrep sourceAddr

/-- `AODVRouting::handleRREPACK`. -/
def handleRREPACK (s : Node) (neighborAddr : L3Address) : Node :=
  if s.rrepAckTimer.isSome ∧ (s.findRoute neighborAddr).isSome then
    { s with rrepAckTimer := none }.modifyRoute neighborAddr fun route ↦
      { route with isActive := true }
  else s

/-- `AODVRouting::handleRREPACKTimer`. -/
def handleRREPACKTimer (s : Node) : Node :=
  { s with
    rrepAckTimer := none
    blacklist := Function.update s.blacklist s.failedNextHop (some (now + P.blacklistTimeout)) }

/-- `AODVRouting::handleBlackListTimer`. -/
def handleBlackListTimer (s : Node) : Node :=
  { s with blacklist := fun addr ↦ (s.blacklist addr).filter fun t ↦ now < t }

/-! ### Route Errors -/

/-- The entry is invalidated. -/
def invalidate (destSeqNum : UInt32) (route : Route) : Route :=
  { route with
    destSeqNum := destSeqNum, isActive := false, lifeTime := now + P.deletePeriod }

/-- The number of a route to an unreachable destination: it is raised if it is valid. -/
def raisedSeqNum (route : Route) : UInt32 :=
  if route.hasValidDestNum then route.destSeqNum + 1 else route.destSeqNum

/-- The route uses a neighbour that is gone. -/
def isVia (nextHop : L3Address) (route : Route) : Bool :=
  route.isActive && route.nextHop == nextHop

/-- `AODVRouting::handleLinkBreakSendRERR`. -/
def handleLinkBreakSendRERR (s : Node) (unreachableAddr : L3Address) : Node :=
  match s.findRoute unreachableAddr with
  | none => s
  | some unreachableRoute =>
    let first := if unreachableRoute.isActive then
        [UnreachableNode.mk unreachableAddr unreachableRoute.destSeqNum]
      else []
    let unreachableNodes := first ++ (s.routes.filter (isVia unreachableAddr)).map fun route ↦
      ⟨route.destination, raisedSeqNum route⟩
    let s := { s with
      routes := s.routes.map fun route ↦
        if isVia unreachableAddr route then invalidate P now (raisedSeqNum route) route else route }
    if P.rerrRatelimit ≤ s.rerrCount ∨ unreachableNodes = [] then s
    else s.sendRERR P now unreachableNodes

/-- `AODVRouting::receiveSignal`, for a datagram that could not be sent. -/
def receiveSignal (s : Node) (unreachableAddr : L3Address) : Node :=
  match s.findRoute unreachableAddr with
  | some route => s.handleLinkBreakSendRERR P now route.nextHop
  | none => s

/-- The entries of a Route Error for a route. -/
def errorsFor (unreachableNodes : List UnreachableNode) (route : Route) : List UnreachableNode :=
  unreachableNodes.filter fun node ↦ route.destination = node.addr

/-- `AODVRouting::handleRERR`. A route that is listed more than once takes the last number. -/
def handleRERR (s : Node) (unreachableNodes : List UnreachableNode) (sourceAddr : L3Address) : Node :=
  let unreachableNeighbors := s.routes.flatMap fun route ↦
    if isVia sourceAddr route ∧ route.precursorList ≠ [] then errorsFor unreachableNodes route else []
  let s := { s with
    routes := s.routes.map fun route ↦
      match (errorsFor unreachableNodes route).getLast? with
      | some node => if isVia sourceAddr route then invalidate P now node.seqNum route else route
      | none => route }
  if P.rerrRatelimit ≤ s.rerrCount then s
  else if unreachableNeighbors ≠ [] ∧ s.hasRebooted P now then s.sendRERR P now unreachableNeighbors
  else s

/-- `AODVRouting::sendRERRWhenNoRouteToForward`. -/
def sendRERRWhenNoRouteToForward (s : Node) (unreachableAddr : L3Address) : Node :=
  if P.rerrRatelimit ≤ s.rerrCount then s
  else
    let seqNum :=
      match s.findRoute unreachableAddr with
      | some unreachableRoute =>
        if unreachableRoute.hasValidDestNum then unreachableRoute.destSeqNum else 0
      | none => 0
    s.sendRERR P now [⟨unreachableAddr, seqNum⟩]

/-- `AODVRouting::datagramForwardHook`. -/
def datagramForwardHook (s : Node) (sourceAddr destAddr : L3Address) : Node :=
  let lifetime := now + P.activeRouteTimeout
  let updateSource (s : Node) : Node :=
    match s.findRoute sourceAddr with
    | some ipSource => s.updateValidRouteLifeTime ipSource.nextHop lifetime
    | none => s
  if destAddr = P.broadcastAddress ∨ destAddr = self ∨ P.isMulticast destAddr then
    if destAddr = self then updateSource s else s
  else
    let s := s.updateValidRouteLifeTime sourceAddr lifetime
    let s := s.updateValidRouteLifeTime destAddr lifetime
    match s.findRoute destAddr with
    | some routeDest =>
      let s := updateSource (s.updateValidRouteLifeTime routeDest.nextHop lifetime)
      if routeDest.isActive then s
      else
        (s.modifyRoute destAddr fun route ↦
          { route with
            destSeqNum := raisedSeqNum route
            lifeTime := now + P.deletePeriod }).sendRERRWhenNoRouteToForward P now destAddr
    | none => (updateSource s).sendRERRWhenNoRouteToForward P now destAddr

/-! ### Expiry and restarts -/

/-- The loop of `AODVRouting::expungeRoutes`. The route behind one that is deleted takes its place,
and is passed over. -/
def expungeFrom (waitForRREPTimers : L3Address → Bool) : List Route → List Route
  | [] => []
  | [route] =>
    if route.lifeTime ≤ now then
      if route.isActive then
        [{ route with isActive := false, lifeTime := now + P.deletePeriod }]
      else if waitForRREPTimers route.destination then
        [{ route with lifeTime := now + 2 * P.netTraversalTime }]
      else []
    else [route]
  | route :: next :: routes =>
    if route.lifeTime ≤ now then
      if route.isActive then
        { route with isActive := false, lifeTime := now + P.deletePeriod } ::
          expungeFrom waitForRREPTimers (next :: routes)
      else if waitForRREPTimers route.destination then
        { route with lifeTime := now + 2 * P.netTraversalTime } ::
          expungeFrom waitForRREPTimers (next :: routes)
      else next :: expungeFrom waitForRREPTimers routes
    else route :: expungeFrom waitForRREPTimers (next :: routes)

/-- `AODVRouting::expungeRoutes`. -/
def expungeRoutes (s : Node) : Node :=
  { s with routes := expungeFrom P now s.waitForRREPTimers s.routes }

/-- A node goes down: `clearState`, and the routing table of the host is emptied. -/
def shutDown (s : Node) : Node :=
  { s with
    isOperational := false, rerrCount := 0, rreqId := 0, sequenceNum := 0
    waitForRREPTimers := fun _ ↦ false, rreqsArrivalTime := fun _ ↦ none
    rrepAckTimer := none, routes := [] }

/-- A node starts again. -/
def start (s : Node) : Node :=
  { s with isOperational := true, rebootTime := now }

end Node

end Inet.AODV
