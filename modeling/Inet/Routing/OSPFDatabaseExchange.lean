import Inet.Foundations.TransitionSystem
import Inet.Routing.OSPFFlooding

/-!
# The OSPF database exchange

A `Neighbor` with the fields that the exchange of database descriptions uses, the events of its
state machine, and `DatabaseDescriptionHandler`. What surrounds the neighbour (its interface, area
and router) is given with each event and may change between them. What a change to or from `Full`
does to the rest of the router is not part of the neighbour.
-/

namespace Inet.OSPF

/-! ### Packets -/

/-- The bits of `OSPFDDOptions` that are used. -/
structure OSPFDDOptions where
  I_Init : Bool
  M_More : Bool
  MS_MasterSlave : Bool
  deriving DecidableEq

/-- `OSPFDatabaseDescriptionPacket`. -/
structure OSPFDatabaseDescriptionPacket where
  interfaceMTU : ℕ
  options : OSPFOptions
  ddOptions : OSPFDDOptions
  ddSequenceNumber : ℕ
  lsaHeaders : List OSPFLSAHeader := []
  byteLength : ℤ := 0
  deriving DecidableEq

/-- `LSARequest`. -/
structure LSARequest where
  lsType : LSAType
  linkStateID : IPv4Address
  advertisingRouter : IPv4Address
  deriving DecidableEq

/-- `Neighbor::DDPacketID`. -/
structure DDPacketID where
  ddOptions : OSPFDDOptions
  options : OSPFOptions
  sequenceNumber : ℕ
  deriving DecidableEq

/-- The identification of a packet. -/
def OSPFDatabaseDescriptionPacket.packetID (packet : OSPFDatabaseDescriptionPacket) : DDPacketID :=
  ⟨packet.ddOptions, packet.options, packet.ddSequenceNumber⟩

/-- `Neighbor::DatabaseExchangeRelationshipType`. -/
inductive DatabaseExchangeRelationshipType
  | master
  | slave
  deriving DecidableEq

/-- `Neighbor::NeighborEventType`. -/
inductive NeighborEventType
  | helloReceived
  | start
  | twoWayReceived
  | negotiationDone
  | exchangeDone
  | badLinkStateRequest
  | loadingDone
  | isAdjacencyOk
  | sequenceNumberMismatch
  | oneWayReceived
  | killNeighbor
  | inactivityTimer
  | pollTimer
  | linkDown
  | ddRetransmissionTimer
  | updateRetransmissionTimer
  | requestRetransmissionTimer
  deriving DecidableEq

/-- What is sent to a neighbour. The packets of `retransmitUpdatePacket` and the Hello packets are
not looked into. -/
inductive ExchangeEffect
  | databaseDescription (destination : IPv4Address) (packet : OSPFDatabaseDescriptionPacket)
  | retransmission (destination : IPv4Address) (packet : OSPFDatabaseDescriptionPacket)
  | linkStateRequest (destination : IPv4Address) (requests : List LSARequest)
  | retransmittedUpdate
  | hello
  deriving DecidableEq

/-! ### The neighbour -/

/-- A `Neighbor` with its timers, each scheduled or not, and what it keeps for the exchange. -/
structure ExchangeNeighbor extends Neighbor where
  neighborsDesignatedRouter : DesignatedRouterID := NULL_DESIGNATEDROUTERID
  neighborsBackupDesignatedRouter : DesignatedRouterID := NULL_DESIGNATEDROUTERID
  designatedRoutersSetUp : Bool := false
  neighborOptions : OSPFOptions := {}
  inactivityTimer : Bool := false
  pollTimer : Bool := false
  ddRetransmissionTimer : Bool := false
  requestRetransmissionTimer : Bool := false
  requestRetransmissionTimerActive : Bool := false
  databaseExchangeRelationship : Option DatabaseExchangeRelationshipType := none
  firstAdjacencyInited : Bool := false
  lastReceivedDDPacket : DDPacketID := ⟨⟨true, true, false⟩, {}, 0⟩
  databaseSummaryList : List OSPFLSAHeader := []
  lastTransmittedDDPacket : Option OSPFDatabaseDescriptionPacket := none
  /-- What has been sent since the last event began. -/
  effects : List ExchangeEffect := []

/-- The router, the area and the interface of a neighbour at an event, and the number that
`getUniqueULong` would give. -/
structure Surroundings where
  router : Router
  area : Area
  intf : Interface
  mtu : ℕ
  uniqueULong : ℕ

/-- `IP_MAX_HEADER_BYTES`. -/
def IP_MAX_HEADER_BYTES : ℤ := 60

/-- `IPV4_DATAGRAM_LENGTH`. -/
def IPV4_DATAGRAM_LENGTH : ℤ := 65536

/-- `OSPF_HEADER_LENGTH`. -/
def OSPF_HEADER_LENGTH : ℤ := 24

/-- `OSPF_LSA_HEADER_LENGTH`. -/
def OSPF_LSA_HEADER_LENGTH : ℤ := 20

/-- `OSPF_DD_HEADER_LENGTH`. -/
def OSPF_DD_HEADER_LENGTH : ℤ := 8

/-- `OSPF_REQUEST_LENGTH`. -/
def OSPF_REQUEST_LENGTH : ℤ := 12

namespace Surroundings

variable (c : Surroundings)

/-- How long a packet may be whose shortest useful form has a given length without the IP header. -/
def maxPacketSize (shortest : ℤ) : ℤ :=
  (if IP_MAX_HEADER_BYTES + shortest > c.mtu then IPV4_DATAGRAM_LENGTH else c.mtu) -
    IP_MAX_HEADER_BYTES

/-- Where the packets for one neighbour are sent. -/
def destination (neighborIPAddress : IPv4Address) : IPv4Address :=
  if c.intf.interfaceType = .pointToPoint then ALL_OSPF_ROUTERS_MCAST else neighborIPAddress

/-- The headers of the LSAs of a vector that have not reached `MAX_AGE`. -/
def young {κ β : Type} [LinearOrder κ] (T : LSATable κ β) : List OSPFLSAHeader :=
  (T.lsas.map (·.2.header)).filter (·.lsAge < MAX_AGE)

/-- The headers that `createDatabaseSummary` collects. -/
def databaseSummary : List OSPFLSAHeader :=
  young c.area.routerLSAs ++ young c.area.networkLSAs ++ young c.area.summaryLSAs ++
    if c.intf.interfaceType ≠ .virtual ∧ c.area.externalRoutingCapability = true then
      young c.router.asExternalLSAs
    else []

/-- A header of a database description that is not an error. -/
def Accepts (header : OSPFLSAHeader) : Prop :=
  header.lsType ≠ .unknown ∧
    ¬(header.lsType = .asExternal ∧ c.area.externalRoutingCapability = false)

instance (header : OSPFLSAHeader) : Decidable (c.Accepts header) :=
  inferInstanceAs (Decidable (_ ∧ _))

/-- A header of an instance that the database does not have. -/
def Lacks (header : OSPFLSAHeader) : Prop :=
  ∀ copy ∈ c.router.findLSA header.lsType header.lsaKey c.area.areaID,
    copy.lsa.header.isOlder header = true

instance (header : OSPFLSAHeader) : Decidable (c.Lacks header) :=
  inferInstanceAs (Decidable (∀ _ ∈ _, _))

end Surroundings

/-- The loops that fill a packet: entries of a length are taken as long as the packet stays within
its maximum. The second list is left over. -/
def fillPacket {β : Type} (maxPacketSize length : ℤ) : ℤ → List β → List β × List β
  | _, [] => ([], [])
  | packetSize, e :: l =>
    if packetSize ≤ maxPacketSize - length then
      let r := fillPacket maxPacketSize length (packetSize + length) l
      (e :: r.1, r.2)
    else ([], e :: l)

namespace ExchangeNeighbor

variable (c : Surroundings) (n : ExchangeNeighbor)

/-! ### What a neighbour does -/

/-- A packet goes out. -/
def send (e : ExchangeEffect) : ExchangeNeighbor :=
  { n with effects := n.effects ++ [e] }

/-- `changeState`. -/
def changeState (state : NeighborState) : ExchangeNeighbor :=
  { n with state }

/-- `reset`. -/
def reset : ExchangeNeighbor :=
  { n with
    toNeighbor := n.toNeighbor.reset
    databaseSummaryList := []
    ddRetransmissionTimer := false
    requestRetransmissionTimer := false
    requestRetransmissionTimerActive := false
    lastTransmittedDDPacket := none }

/-- `incrementDDSequenceNumber`, of an `unsigned long`. -/
def incrementDDSequenceNumber : ExchangeNeighbor :=
  { n with ddSequenceNumber := (n.ddSequenceNumber + 1) % 2 ^ 64 }

/-- `initFirstAdjacency`. -/
def initFirstAdjacency : ExchangeNeighbor :=
  { n with ddSequenceNumber := c.uniqueULong, firstAdjacencyInited := true }

/-- `sendDatabaseDescriptionPacket`. -/
def sendDatabaseDescriptionPacket (init : Bool) : ExchangeNeighbor :=
  let maxPacketSize := c.maxPacketSize
    (OSPF_HEADER_LENGTH + OSPF_DD_HEADER_LENGTH + OSPF_LSA_HEADER_LENGTH)
  let packetSize := OSPF_HEADER_LENGTH + OSPF_DD_HEADER_LENGTH
  let filled :=
    if init then ([], n.databaseSummaryList)
    else fillPacket maxPacketSize OSPF_LSA_HEADER_LENGTH packetSize n.databaseSummaryList
  let packet : OSPFDatabaseDescriptionPacket :=
    { interfaceMTU := if c.intf.interfaceType ≠ .virtual then c.mtu else 0
      options := { E_ExternalRoutingCapability := c.area.externalRoutingCapability }
      ddOptions :=
        if init then ⟨true, true, true⟩
        else ⟨false, decide (filled.2 ≠ []), n.databaseExchangeRelationship = some .master⟩
      ddSequenceNumber := n.ddSequenceNumber
      lsaHeaders := filled.1
      byteLength := packetSize + filled.1.length * OSPF_LSA_HEADER_LENGTH }
  ({ n with databaseSummaryList := filled.2, lastTransmittedDDPacket := some packet }).send
    (.databaseDescription (c.destination n.neighborIPAddress) packet)

/-- `retransmitDatabaseDescriptionPacket`. -/
def retransmitDatabaseDescriptionPacket : ExchangeNeighbor × Bool :=
  match n.lastTransmittedDDPacket with
  | some packet => (n.send (.retransmission (c.destination n.neighborIPAddress) packet), true)
  | none => (n, false)

/-- `createDatabaseSummary`. -/
def createDatabaseSummary : ExchangeNeighbor :=
  { n with databaseSummaryList := n.databaseSummaryList ++ c.databaseSummary }

/-- `sendLinkStateRequestPacket`. -/
def sendLinkStateRequestPacket : ExchangeNeighbor :=
  let maxPacketSize := c.maxPacketSize (OSPF_HEADER_LENGTH + OSPF_REQUEST_LENGTH)
  let requested :=
    (fillPacket maxPacketSize OSPF_REQUEST_LENGTH OSPF_HEADER_LENGTH n.linkStateRequestList).1
  n.send (.linkStateRequest (c.destination n.neighborIPAddress)
    (requested.map fun h ↦ ⟨h.lsType, h.linkStateID, h.advertisingRouter⟩))

/-- `needAdjacency`. -/
def needAdjacency : Bool :=
  let type := c.intf.interfaceType
  let dRouter := c.intf.designatedRouter
  let backupDRouter := c.intf.backupDesignatedRouter
  type = .pointToPoint || type = .pointToMultipoint || type = .virtual ||
    dRouter.routerID = c.router.routerID || backupDRouter.routerID = c.router.routerID ||
    (n.neighborsDesignatedRouter.routerID = dRouter.routerID ||
      (!n.designatedRoutersSetUp &&
        n.neighborsDesignatedRouter.ipInterfaceAddress = dRouter.ipInterfaceAddress)) ||
    (n.neighborsBackupDesignatedRouter.routerID = backupDRouter.routerID ||
      (!n.designatedRoutersSetUp &&
        n.neighborsBackupDesignatedRouter.ipInterfaceAddress = backupDRouter.ipInterfaceAddress))

/-- `startRequestRetransmissionTimer`. -/
def startRequestRetransmissionTimer : ExchangeNeighbor :=
  { n with requestRetransmissionTimer := true, requestRetransmissionTimerActive := true }

/-- `clearRequestRetransmissionTimer`. -/
def clearRequestRetransmissionTimer : ExchangeNeighbor :=
  { n with requestRetransmissionTimer := false, requestRetransmissionTimerActive := false }

/-- `addToRequestList`. -/
def addToRequestList (header : OSPFLSAHeader) : ExchangeNeighbor :=
  { n with linkStateRequestList := n.linkStateRequestList ++ [header] }

/-! ### The state machine -/

/-- `KILL_NEIGHBOR` and `LINK_DOWN`. -/
def killed : ExchangeNeighbor :=
  { n.reset with inactivityTimer := false, state := .down }

/-- `INACTIVITY_TIMER`. -/
def inactive : ExchangeNeighbor :=
  { n.reset with
    pollTimer := n.pollTimer || c.intf.interfaceType = .nbma
    state := .down }

/-- `ONEWAY_RECEIVED`. -/
def oneWay : ExchangeNeighbor :=
  n.reset.changeState .init

/-- `HELLO_RECEIVED`: the inactivity timer starts anew. -/
def greeted : ExchangeNeighbor :=
  { n with inactivityTimer := true }

/-- `IS_ADJACENCY_OK` where there is an adjacency. -/
def reconsidered : ExchangeNeighbor :=
  if n.needAdjacency c then n else n.reset.changeState .twoWay

/-- An adjacency begins, after `TWOWAY_RECEIVED` or `IS_ADJACENCY_OK`. -/
def adjoined : ExchangeNeighbor :=
  let n := if n.firstAdjacencyInited then n.incrementDDSequenceNumber else n.initFirstAdjacency c
  { n.sendDatabaseDescriptionPacket c true with ddRetransmissionTimer := true, state := .exchangeStart }

/-- `SEQUENCE_NUMBER_MISMATCH` and `BAD_LINK_STATE_REQUEST`. -/
def restarted : ExchangeNeighbor :=
  { n.reset.incrementDDSequenceNumber.sendDatabaseDescriptionPacket c true with
    ddRetransmissionTimer := true
    state := .exchangeStart }

/-- `UPDATE_RETRANSMISSION_TIMER`. -/
def updateAgain : ExchangeNeighbor :=
  { n.send .retransmittedUpdate with updateRetransmissionTimerActive := true }

/-- `REQUEST_RETRANSMISSION_TIMER`. -/
def requestAgain : ExchangeNeighbor :=
  (n.sendLinkStateRequestPacket c).startRequestRetransmissionTimer

/-- `NeighborStateDown::processEvent`. -/
def processDown : NeighborEventType → ExchangeNeighbor
  | .start => { n.send .hello with pollTimer := false, inactivityTimer := true, state := .attempt }
  | .helloReceived => { n with pollTimer := false, inactivityTimer := true, state := .init }
  | .pollTimer => { n.send .hello with pollTimer := true }
  | _ => n

/-- `NeighborStateAttempt::processEvent`. -/
def processAttempt : NeighborEventType → ExchangeNeighbor
  | .killNeighbor | .linkDown => n.killed
  | .inactivityTimer => n.inactive c
  | .helloReceived => n.greeted.changeState .init
  | _ => n

/-- `NeighborStateInit::processEvent`. -/
def processInit : NeighborEventType → ExchangeNeighbor
  | .killNeighbor | .linkDown => n.killed
  | .inactivityTimer => n.inactive c
  | .helloReceived => n.greeted
  | .twoWayReceived => if n.needAdjacency c then n.adjoined c else n.changeState .twoWay
  | _ => n

/-- `NeighborStateTwoWay::processEvent`. -/
def processTwoWay : NeighborEventType → ExchangeNeighbor
  | .killNeighbor | .linkDown => n.killed
  | .inactivityTimer => n.inactive c
  | .oneWayReceived => n.oneWay
  | .helloReceived => n.greeted
  | .isAdjacencyOk => if n.needAdjacency c then n.adjoined c else n
  | _ => n

/-- `NeighborStateExchangeStart::processEvent`. -/
def processExchangeStart : NeighborEventType → ExchangeNeighbor
  | .killNeighbor | .linkDown => n.killed
  | .inactivityTimer => n.inactive c
  | .oneWayReceived => n.oneWay
  | .helloReceived => n.greeted
  | .isAdjacencyOk => n.reconsidered c
  | .ddRetransmissionTimer =>
    { (n.retransmitDatabaseDescriptionPacket c).1 with ddRetransmissionTimer := true }
  | .negotiationDone =>
    { (n.createDatabaseSummary c).sendDatabaseDescriptionPacket c false with
      ddRetransmissionTimer := false
      state := .exchange }
  | _ => n

/-- `NeighborStateExchange::processEvent`. -/
def processExchange : NeighborEventType → ExchangeNeighbor
  | .killNeighbor | .linkDown => n.killed
  | .inactivityTimer => n.inactive c
  | .oneWayReceived => n.oneWay
  | .helloReceived => n.greeted
  | .isAdjacencyOk => n.reconsidered c
  | .sequenceNumberMismatch | .badLinkStateRequest => n.restarted c
  | .exchangeDone =>
    let n := { n with ddRetransmissionTimer := true }
    if n.linkStateRequestList = [] then n.clearRequestRetransmissionTimer.changeState .full
    else n.changeState .loading
  | .updateRetransmissionTimer => n.updateAgain
  | .requestRetransmissionTimer => n.requestAgain c
  | _ => n

/-- `NeighborStateLoading::processEvent`. -/
def processLoading : NeighborEventType → ExchangeNeighbor
  | .killNeighbor | .linkDown => n.killed
  | .inactivityTimer => n.inactive c
  | .oneWayReceived => n.oneWay
  | .helloReceived => n.greeted
  | .loadingDone => n.clearRequestRetransmissionTimer.changeState .full
  | .isAdjacencyOk => n.reconsidered c
  | .sequenceNumberMismatch | .badLinkStateRequest => n.restarted c
  | .requestRetransmissionTimer => n.requestAgain c
  | .updateRetransmissionTimer => n.updateAgain
  | .ddRetransmissionTimer => { n with lastTransmittedDDPacket := none }
  | _ => n

/-- `NeighborStateFull::processEvent`. -/
def processFull : NeighborEventType → ExchangeNeighbor
  | .killNeighbor | .linkDown => n.killed
  | .inactivityTimer => n.inactive c
  | .oneWayReceived => n.oneWay
  | .helloReceived => n.greeted
  | .isAdjacencyOk => n.reconsidered c
  | .sequenceNumberMismatch | .badLinkStateRequest => n.restarted c
  | .updateRetransmissionTimer => n.updateAgain
  | .ddRetransmissionTimer => { n with lastTransmittedDDPacket := none }
  | _ => n

/-- `processEvent`. -/
def processEvent (event : NeighborEventType) : ExchangeNeighbor :=
  match n.state with
  | .down => n.processDown event
  | .attempt => n.processAttempt c event
  | .init => n.processInit c event
  | .twoWay => n.processTwoWay c event
  | .exchangeStart => n.processExchangeStart c event
  | .exchange => n.processExchange c event
  | .loading => n.processLoading c event
  | .full => n.processFull c event

/-- `removeFromRequestList`. -/
def removeFromRequestList (k : LSAKeyType) : ExchangeNeighbor :=
  let n := { n with toNeighbor := n.toNeighbor.dropRequest k }
  if n.state = .loading ∧ n.linkStateRequestList = [] then
    n.clearRequestRetransmissionTimer.processEvent c .loadingDone
  else n

/-- Step (1) (c) and (d) of `Interface::floodLSA`. -/
def retransmit (lsa : OSPFLSA) (isSender : Bool) : ExchangeNeighbor :=
  if isSender then n else { n with toNeighbor := n.toNeighbor.addToRetransmissionList lsa }

/-- Step (1) of `Interface::floodLSA` for the neighbour, which may be the one the LSA comes from. -/
def offer (lsa : OSPFLSA) (isSender : Bool) : ExchangeNeighbor :=
  if n.state.ReachedExchange then
    match n.pendingRequest lsa.header.lsaKey with
    | none => n.retransmit lsa isSender
    | some requested =>
      if lsa.header.isOlder requested then n
      else
        let n := n.removeFromRequestList c lsa.header.lsaKey
        if lsa.header.isSame requested then n else n.retransmit lsa isSender
  else n

/-! ### `DatabaseDescriptionHandler` -/

/-- The loop of `processDDPacket` over the headers; it stops at an error. -/
def requestHeaders : List OSPFLSAHeader → ExchangeNeighbor → ExchangeNeighbor × Bool
  | [], n => (n, true)
  | header :: l, n =>
    if c.Accepts header then
      requestHeaders l (if c.Lacks header then n.addToRequestList header else n)
    else (n.processEvent c .sequenceNumberMismatch, false)

/-- The end of `processDDPacket`. -/
def describeNext (packet : OSPFDatabaseDescriptionPacket) (inExchangeStart : Bool) :
    ExchangeNeighbor :=
  if n.databaseExchangeRelationship = some .master then
    let n := n.incrementDDSequenceNumber
    if n.databaseSummaryList = [] ∧ packet.ddOptions.M_More = false then
      n.processEvent c .exchangeDone
    else if inExchangeStart then n
    else n.sendDatabaseDescriptionPacket c false
  else
    let n := { n with ddSequenceNumber := packet.ddSequenceNumber }
    let n := if inExchangeStart then n else n.sendDatabaseDescriptionPacket c false
    if packet.ddOptions.M_More = false ∧ n.databaseSummaryList = [] then
      n.processEvent c .exchangeDone
    else n

/-- `processDDPacket`. -/
def processDDPacket (packet : OSPFDatabaseDescriptionPacket) (inExchangeStart : Bool) :
    ExchangeNeighbor × Bool :=
  let r := requestHeaders c packet.lsaHeaders n
  if r.2 then (r.1.describeNext c packet inExchangeStart, true) else r

/-- Link state requests are sent unless that has begun. -/
def startRequests : ExchangeNeighbor :=
  if n.linkStateRequestList ≠ [] ∧ n.requestRetransmissionTimerActive = false then
    (n.sendLinkStateRequestPacket c).clearRequestRetransmissionTimer.startRequestRetransmissionTimer
  else n

/-- The first packet that both sides agree on is processed, and the exchange begins. -/
def negotiate (packet : OSPFDatabaseDescriptionPacket)
    (relationship : DatabaseExchangeRelationshipType) : ExchangeNeighbor :=
  let n := { n with
    neighborOptions := packet.options
    databaseExchangeRelationship := some relationship
    lastReceivedDDPacket := packet.packetID }
  let r := n.processDDPacket c packet true
  if r.2 then (r.1.processEvent c .negotiationDone).startRequests c else r.1

/-- `processPacket` in `EXCHANGE_START_STATE`. -/
def processInExchangeStart (packet : OSPFDatabaseDescriptionPacket) : ExchangeNeighbor :=
  let ddOptions := packet.ddOptions
  if ddOptions.I_Init = true ∧ ddOptions.M_More = true ∧ ddOptions.MS_MasterSlave = true ∧
      packet.lsaHeaders = [] then
    if c.router.routerID < n.neighborID then
      ({ n with ddSequenceNumber := packet.ddSequenceNumber }).negotiate c packet .slave
    else n.sendDatabaseDescriptionPacket c true
  else if ddOptions.I_Init = false ∧ ddOptions.MS_MasterSlave = false ∧
      packet.ddSequenceNumber = n.ddSequenceNumber ∧ n.neighborID < c.router.routerID then
    n.negotiate c packet .master
  else n

/-- A packet of the exchange that is neither a duplicate nor the next one. -/
def Mismatches (packet : OSPFDatabaseDescriptionPacket) : Prop :=
  packet.ddOptions.MS_MasterSlave = true ∧ n.databaseExchangeRelationship ≠ some .slave ∨
    packet.ddOptions.MS_MasterSlave = false ∧ n.databaseExchangeRelationship ≠ some .master ∨
    packet.ddOptions.I_Init = true ∨ packet.options ≠ n.lastReceivedDDPacket.options

instance (packet : OSPFDatabaseDescriptionPacket) : Decidable (n.Mismatches packet) :=
  inferInstanceAs (Decidable (_ ∨ _))

/-- The packet that comes next in the exchange. -/
def IsNext (packet : OSPFDatabaseDescriptionPacket) : Prop :=
  n.databaseExchangeRelationship = some .master ∧
      packet.ddSequenceNumber = n.ddSequenceNumber ∨
    n.databaseExchangeRelationship = some .slave ∧
      packet.ddSequenceNumber = (n.ddSequenceNumber + 1) % 2 ^ 64

instance (packet : OSPFDatabaseDescriptionPacket) : Decidable (n.IsNext packet) :=
  inferInstanceAs (Decidable (_ ∨ _))

/-- `processPacket` in `EXCHANGE_STATE`. -/
def processInExchange (packet : OSPFDatabaseDescriptionPacket) : ExchangeNeighbor :=
  if packet.packetID ≠ n.lastReceivedDDPacket then
    if n.Mismatches packet then n.processEvent c .sequenceNumberMismatch
    else if n.IsNext packet then
      let r := ({ n with lastReceivedDDPacket := packet.packetID }).processDDPacket c packet false
      if r.2 then r.1.startRequests c else r.1
    else n.processEvent c .sequenceNumberMismatch
  else if n.databaseExchangeRelationship = some .slave then
    (n.retransmitDatabaseDescriptionPacket c).1
  else n

/-- `processPacket` in `LOADING_STATE` and `FULL_STATE`. -/
def processAfterExchange (packet : OSPFDatabaseDescriptionPacket) : ExchangeNeighbor :=
  if packet.packetID ≠ n.lastReceivedDDPacket ∨ packet.ddOptions.I_Init = true then
    n.processEvent c .sequenceNumberMismatch
  else if n.databaseExchangeRelationship = some .slave then
    let r := n.retransmitDatabaseDescriptionPacket c
    if r.2 then r.1 else r.1.processEvent c .sequenceNumberMismatch
  else n

/-- `DatabaseDescriptionHandler::processPacket`. -/
def processPacket (packet : OSPFDatabaseDescriptionPacket) : ExchangeNeighbor :=
  if packet.interfaceMTU ≤ c.mtu then
    match n.state with
    | .init => n.processEvent c .twoWayReceived
    | .exchangeStart => n.processInExchangeStart c packet
    | .exchange => n.processInExchange c packet
    | .loading | .full => n.processAfterExchange c packet
    | .down | .attempt | .twoWay => n
  else n

end ExchangeNeighbor

/-! ### Runs -/

/-- What happens to a neighbour: a database description arrives, an LSA is flooded on its interface,
an update is sent to it, its Hello packets name designated routers, an event is raised by what else
it sends or by its interface, or a timer fires. -/
inductive ExchangeInput
  | databaseDescription (packet : OSPFDatabaseDescriptionPacket)
  | flood (lsa : OSPFLSA) (isSender : Bool)
  | updateSent (k : LSAKeyType)
  | designatedRouters (designated backup : DesignatedRouterID) (setUp : Bool)
  | event (event : NeighborEventType)
  | timer (event : NeighborEventType)

/-- The events that are raised outside the neighbour and the handler. -/
def NeighborEventType.External : NeighborEventType → Prop
  | helloReceived | start | twoWayReceived | badLinkStateRequest | isAdjacencyOk | oneWayReceived
  | killNeighbor | linkDown => True
  | _ => False

namespace ExchangeNeighbor

/-- The timer of an event is scheduled. -/
def Scheduled (n : ExchangeNeighbor) : NeighborEventType → Prop
  | .inactivityTimer => n.inactivityTimer = true
  | .pollTimer => n.pollTimer = true
  | .ddRetransmissionTimer => n.ddRetransmissionTimer = true
  | .updateRetransmissionTimer => n.updateRetransmissionTimerActive = true
  | .requestRetransmissionTimer => n.requestRetransmissionTimer = true
  | _ => False

/-- A timer that fires is no longer scheduled. -/
def fired (n : ExchangeNeighbor) : NeighborEventType → ExchangeNeighbor
  | .inactivityTimer => { n with inactivityTimer := false }
  | .pollTimer => { n with pollTimer := false }
  | .ddRetransmissionTimer => { n with ddRetransmissionTimer := false }
  | .requestRetransmissionTimer => { n with requestRetransmissionTimer := false }
  | _ => n

/-- Only the timers that are scheduled fire. -/
def Allows (n : ExchangeNeighbor) : ExchangeInput → Prop
  | .event event => event.External
  | .timer event => n.Scheduled event
  | _ => True

/-- The neighbour after an input. -/
def step (n : ExchangeNeighbor) (c : Surroundings) (input : ExchangeInput) : ExchangeNeighbor :=
  let n := { n with effects := [] }
  match input with
  | .databaseDescription packet => n.processPacket c packet
  | .flood lsa isSender => n.offer c lsa isSender
  | .updateSent k => { n with toNeighbor := n.toNeighbor.addToTransmittedLSAList k }
  | .designatedRouters designated backup setUp =>
    { n with
      neighborsDesignatedRouter := designated
      neighborsBackupDesignatedRouter := backup
      designatedRoutersSetUp := setUp }
  | .event event => n.processEvent c event
  | .timer event => (n.fired event).processEvent c event

end ExchangeNeighbor

/-- The runs of a neighbour, from its construction on. -/
def exchangeSystem : TransitionSystem ExchangeNeighbor (Surroundings × ExchangeInput) Unit where
  Init n := ∃ neighborID neighborIPAddress,
    n = { neighborID, neighborIPAddress, state := .down }
  Step n i _ n' := n.Allows i.2 ∧ n' = n.step i.1 i.2

end Inet.OSPF
