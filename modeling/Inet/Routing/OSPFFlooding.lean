import Inet.Routing.OSPFLSA

/-!
# OSPF flooding

The neighbours, interfaces and areas of an OSPF router, the lists they keep for an LSA on its way,
and `floodLSA`. When a neighbour becomes fully adjacent the router originates its LSAs anew and
floods them; this is a parameter here (`Origination`), and all that is used of it is that it leaves
the interfaces and the adjacencies as they are.
-/

namespace Inet.OSPF

/-- `Neighbor::NeighborStateType`. -/
inductive NeighborState
  | down
  | attempt
  | init
  | twoWay
  | exchangeStart
  | exchange
  | loading
  | full
  deriving DecidableEq

/-- The value of a neighbour state. -/
def NeighborState.code : NeighborState → ℕ
  | down => 0
  | attempt => 1
  | init => 2
  | twoWay => 4
  | exchangeStart => 8
  | exchange => 16
  | loading => 32
  | full => 64

/-- `EXCHANGE_STATE` or a later one. -/
def NeighborState.ReachedExchange (s : NeighborState) : Prop :=
  NeighborState.exchange.code ≤ s.code

instance (s : NeighborState) : Decidable s.ReachedExchange :=
  inferInstanceAs (Decidable (_ ≤ _))

/-- `Interface::OSPFInterfaceType`. -/
inductive InterfaceType
  | unknown
  | pointToPoint
  | broadcast
  | nbma
  | pointToMultipoint
  | virtual
  deriving DecidableEq

/-- `Interface::InterfaceStateType`. -/
inductive InterfaceState
  | down
  | loopback
  | waiting
  | pointToPoint
  | notDesignatedRouter
  | backup
  | designatedRouter
  deriving DecidableEq

/-- `DesignatedRouterID`. -/
structure DesignatedRouterID where
  routerID : IPv4Address
  ipInterfaceAddress : IPv4Address
  deriving DecidableEq

/-- `NULL_DESIGNATEDROUTERID`. -/
def NULL_DESIGNATEDROUTERID : DesignatedRouterID :=
  ⟨0, 0⟩

/-- `IPv4Address::ALL_OSPF_ROUTERS_MCAST`, 224.0.0.5. -/
def ALL_OSPF_ROUTERS_MCAST : IPv4Address := 0xe0000005

/-- `IPv4Address::ALL_OSPF_DESIGNATED_ROUTERS_MCAST`, 224.0.0.6. -/
def ALL_OSPF_DESIGNATED_ROUTERS_MCAST : IPv4Address := 0xe0000006

/-- `Neighbor`; an LSA on the retransmission list is a copy. -/
structure Neighbor where
  neighborID : IPv4Address
  neighborIPAddress : IPv4Address
  state : NeighborState
  linkStateRequestList : List OSPFLSAHeader := []
  linkStateRetransmissionList : List OSPFLSA := []
  transmittedLSAs : List (LSAKeyType × ℕ) := []
  updateRetransmissionTimerActive : Bool := false
  ddSequenceNumber : ℕ := 0

/-- `Interface`; the neighbours of the map by router id are given by their places in the vector. -/
structure Interface where
  interfaceType : InterfaceType
  state : InterfaceState
  ifIndex : ℕ
  areaID : IPv4Address
  address : IPv4Address := 0
  interfaceTransmissionDelay : ℕ := 1
  designatedRouter : DesignatedRouterID := NULL_DESIGNATEDROUTERID
  backupDesignatedRouter : DesignatedRouterID := NULL_DESIGNATEDROUTERID
  neighboringRoutersByID : OrderedMap IPv4Address ℕ := ∅
  neighboringRouters : List Neighbor := []
  delayedAcknowledgements : OrderedMap IPv4Address (List OSPFLSAHeader) := ∅

/-- `Area`. -/
structure Area where
  areaID : IPv4Address
  externalRoutingCapability : Bool := true
  associatedInterfaces : List Interface := []
  routerLSAs : LSATable IPv4Address RouterContents := {}
  networkLSAs : LSATable IPv4Address NetworkContents := {}
  summaryLSAs : LSATable LSAKeyType SummaryContents := {}

/-- What a router hands to its message handler or to the IP routing table. -/
inductive Effect
  | update (ifIndex : ℕ) (destination : IPv4Address) (lsa : OSPFLSA)
  | acknowledgement (ifIndex : ℕ) (destination : IPv4Address) (header : OSPFLSAHeader)
  | databaseDescription (ifIndex : ℕ) (destination : IPv4Address) (ddSequenceNumber : ℕ)
  | addExternalRoute (address : IPv4Address) (contents : OSPFASExternalLSAContents) (ifIndex : ℕ)

/-- `Router`. -/
structure Router where
  routerID : IPv4Address
  areas : List Area := []
  asExternalLSAs : LSATable LSAKeyType OSPFASExternalLSAContents := {}
  /-- The destinations of the routes to area border and AS boundary routers. -/
  boundaryRoutes : List IPv4Address := []
  effects : List Effect := []

/-- The place of an interface. -/
structure InterfaceRef where
  area : ℕ
  interface : ℕ
  deriving DecidableEq

/-- The place of a neighbour. -/
structure NeighborRef extends InterfaceRef where
  neighbor : ℕ
  deriving DecidableEq

/-! ### The lists of a neighbour -/

namespace Neighbor

/-- `isLSAOnRequestList`. -/
def isLSAOnRequestList (n : Neighbor) (k : LSAKeyType) : Bool :=
  n.linkStateRequestList.any (·.lsaKey = k)

/-- `findOnRequestList`. -/
def findOnRequestList (n : Neighbor) (k : LSAKeyType) : Option OSPFLSAHeader :=
  n.linkStateRequestList.find? (·.lsaKey = k)

/-- What `floodLSA` compares an LSA with: nothing is requested of a fully adjacent neighbour. -/
def pendingRequest (n : Neighbor) (k : LSAKeyType) : Option OSPFLSAHeader :=
  if n.state = .full then none else n.findOnRequestList k

/-- `isLinkStateRequestListEmpty(lsaKey)`, which asks whether the LSA is on the retransmission list.
-/
def isLinkStateRequestListEmpty (n : Neighbor) (k : LSAKeyType) : Bool :=
  n.linkStateRetransmissionList.any (·.header.lsaKey = k)

/-- `removeFromRetransmissionList`. -/
def removeFromRetransmissionList (n : Neighbor) (k : LSAKeyType) : Neighbor :=
  { n with
    linkStateRetransmissionList := n.linkStateRetransmissionList.filter (·.header.lsaKey ≠ k) }

/-- `addToRetransmissionList`: the first LSA with the key is replaced. -/
def addToRetransmissionList (n : Neighbor) (lsa : OSPFLSA) : Neighbor :=
  match n.linkStateRetransmissionList.findIdx? (·.header.lsaKey = lsa.header.lsaKey) with
  | some i =>
    { n with linkStateRetransmissionList := n.linkStateRetransmissionList.set i lsa }
  | none =>
    { n with linkStateRetransmissionList := n.linkStateRetransmissionList ++ [lsa] }

/-- The loop of `removeFromRequestList`. -/
def dropRequest (n : Neighbor) (k : LSAKeyType) : Neighbor :=
  { n with linkStateRequestList := n.linkStateRequestList.filter (·.lsaKey ≠ k) }

/-- `isOnTransmittedLSAList`. -/
def isOnTransmittedLSAList (n : Neighbor) (k : LSAKeyType) : Bool :=
  n.transmittedLSAs.any (·.1 = k)

/-- `addToTransmittedLSAList` with the start of the update retransmission timer after it. -/
def addToTransmittedLSAList (n : Neighbor) (k : LSAKeyType) : Neighbor :=
  { n with transmittedLSAs := n.transmittedLSAs ++ [(k, 0)],
           updateRetransmissionTimerActive := true }

/-- `reset`. -/
def reset (n : Neighbor) : Neighbor :=
  { n with linkStateRetransmissionList := [], linkStateRequestList := [],
           updateRetransmissionTimerActive := false }

/-- What acknowledgements depend on: the address, and whether the exchange has begun. -/
def adjacency (n : Neighbor) : IPv4Address × Bool :=
  (n.neighborIPAddress, decide n.state.ReachedExchange)

end Neighbor

namespace Interface

/-- `getNeighborByID`. -/
def getNeighborByID (intf : Interface) (id : IPv4Address) : Option Neighbor :=
  (intf.neighboringRoutersByID.find id).bind (intf.neighboringRouters[·]?)

/-- `hasAnyNeighborInStates(EXCHANGE_STATE | LOADING_STATE)`. -/
def hasAnyNeighborInExchangeOrLoading (intf : Interface) : Bool :=
  intf.neighboringRouters.any fun n ↦ n.state = .exchange ∨ n.state = .loading

/-- Packets for the routers of a broadcast network go to all of them, or to the designated ones. -/
def SendsToAllRouters (intf : Interface) : Prop :=
  intf.state = .designatedRouter ∨ intf.state = .backup ∨
    intf.designatedRouter = NULL_DESIGNATEDROUTERID

instance (intf : Interface) : Decidable intf.SendsToAllRouters :=
  inferInstanceAs (Decidable (_ ∨ _))

/-- The destination of a packet on a broadcast network. -/
def broadcastDestination (intf : Interface) : IPv4Address :=
  if intf.SendsToAllRouters then ALL_OSPF_ROUTERS_MCAST else ALL_OSPF_DESIGNATED_ROUTERS_MCAST

/-- The destination of a packet for one neighbour. -/
def destinationFor (intf : Interface) (neighborAddress : IPv4Address) : IPv4Address :=
  if intf.interfaceType = .broadcast then intf.broadcastDestination
  else if intf.interfaceType = .pointToPoint then ALL_OSPF_ROUTERS_MCAST
  else neighborAddress

/-- `createUpdatePacket`: the LSA in it has aged by the transmission delay. There is no packet for
an object of another kind than its header says. -/
def createUpdatePacket (intf : Interface) (lsa : OSPFLSA) : Option OSPFLSA :=
  if lsa.WellTyped then
    let lsAge := lsa.header.lsAge
    some (lsa.setLsAge (if lsAge < MAX_AGE - intf.interfaceTransmissionDelay then
      lsAge + intf.interfaceTransmissionDelay else MAX_AGE))
  else none

/-- An LSA of the type is flooded out of the interface at all. -/
def Floods (intf : Interface) (externalRoutingCapability : Bool) (type : LSAType) : Prop :=
  type = .asExternal ∧ intf.interfaceType ≠ .virtual ∧ externalRoutingCapability = true ∨
    type ≠ .asExternal ∧
      (intf.areaID ≠ NULL_IPV4ADDRESS ∧ intf.interfaceType ≠ .virtual ∨
        intf.areaID = NULL_IPV4ADDRESS)

instance (intf : Interface) (b : Bool) (type : LSAType) : Decidable (intf.Floods b type) :=
  inferInstanceAs (Decidable (_ ∨ _))

/-- What acknowledgements depend on. -/
def adjacencies (intf : Interface) :
    InterfaceType × InterfaceState × DesignatedRouterID × OrderedMap IPv4Address ℕ ×
      List (IPv4Address × Bool) :=
  (intf.interfaceType, intf.state, intf.designatedRouter, intf.neighboringRoutersByID,
    intf.neighboringRouters.map Neighbor.adjacency)

end Interface

namespace Router

/-- The interface at a place. -/
def interface? (r : Router) (at' : InterfaceRef) : Option Interface :=
  (r.areas[at'.area]?).bind (·.associatedInterfaces[at'.interface]?)

/-- The neighbour at a place. -/
def neighbor? (r : Router) (at' : NeighborRef) : Option Neighbor :=
  (r.interface? at'.toInterfaceRef).bind (·.neighboringRouters[at'.neighbor]?)

/-- Writing to an area. -/
def modifyArea (r : Router) (i : ℕ) (f : Area → Area) : Router :=
  { r with areas := r.areas.modify i f }

/-- Writing to an interface. -/
def modifyInterface (r : Router) (at' : InterfaceRef) (f : Interface → Interface) : Router :=
  r.modifyArea at'.area fun a ↦
    { a with associatedInterfaces := a.associatedInterfaces.modify at'.interface f }

/-- Writing to a neighbour. -/
def modifyNeighbor (r : Router) (at' : NeighborRef) (f : Neighbor → Neighbor) : Router :=
  r.modifyInterface at'.toInterfaceRef fun intf ↦
    { intf with neighboringRouters := intf.neighboringRouters.modify at'.neighbor f }

/-- A packet or a route is handed over. -/
def emit (r : Router) (e : Effect) : Router :=
  { r with effects := r.effects ++ [e] }

/-- What acknowledgements depend on, of all interfaces. -/
def adjacencies (r : Router) :=
  r.areas.map fun a ↦ a.associatedInterfaces.map Interface.adjacencies

/-- The place of the area with an id (`areasByID`). -/
def areaIndex (r : Router) (areaID : IPv4Address) : Option ℕ :=
  r.areas.findIdx? (·.areaID = areaID)

/-- `hasAnyNeighborInStates(EXCHANGE_STATE | LOADING_STATE)`. -/
def hasAnyNeighborInExchangeOrLoading (r : Router) : Bool :=
  r.areas.any fun a ↦ a.associatedInterfaces.any Interface.hasAnyNeighborInExchangeOrLoading

/-- `isLocalAddress`. -/
def isLocalAddress (r : Router) (address : IPv4Address) : Bool :=
  r.areas.any fun a ↦ a.associatedInterfaces.any (·.address = address)

/-- `removeFromAllRetransmissionLists` of the interfaces of an area. -/
def removeFromRetransmissionListsOf (k : LSAKeyType) (a : Area) : Area :=
  { a with associatedInterfaces := a.associatedInterfaces.map fun intf ↦
      { intf with neighboringRouters :=
          intf.neighboringRouters.map (·.removeFromRetransmissionList k) } }

/-- `Router::removeFromAllRetransmissionLists`. -/
def removeFromAllRetransmissionLists (r : Router) (k : LSAKeyType) : Router :=
  { r with areas := r.areas.map (removeFromRetransmissionListsOf k) }

end Router

/-! ### Flooding -/

/-- What `NeighborState::changeState` does when an adjacency becomes full or stops being so: the
router originates its router LSA and perhaps a network LSA, floods them and rebuilds its routing
table. -/
structure Origination where
  run : Router → NeighborRef → Router
  adjacencies_run (r : Router) (at' : NeighborRef) : (run r at').adjacencies = r.adjacencies

namespace Origination

variable (P : Origination)

/-- `Neighbor::removeFromRequestList`, with the event `LOADING_DONE` when nothing is left to load.
-/
def removeFromRequestList (r : Router) (at' : NeighborRef) (k : LSAKeyType) : Router :=
  let r := r.modifyNeighbor at' (·.dropRequest k)
  match r.neighbor? at' with
  | some n =>
    if n.state = .loading ∧ n.linkStateRequestList = [] then
      P.run (r.modifyNeighbor at' ({ · with state := .full })) at'
    else r
  | none => r

/-- Step (1) (c) and (d) of `Interface::floodLSA`. -/
def retransmit (lsa : OSPFLSA) (sender : Option NeighborRef) (at' : NeighborRef)
    (s : Router × Bool) : Router × Bool :=
  if sender = some at' then s
  else (s.1.modifyNeighbor at' (·.addToRetransmissionList lsa), true)

/-- Step (1) of `Interface::floodLSA` for one neighbour; the flag is `lsaAddedToRetransmissionList`.
-/
def offer (lsa : OSPFLSA) (sender : Option NeighborRef) (s : Router × Bool) (at' : NeighborRef) :
    Router × Bool :=
  match s.1.neighbor? at' with
  | none => s
  | some n =>
    if n.state.ReachedExchange then
      match n.pendingRequest lsa.header.lsaKey with
      | none => retransmit lsa sender at' s
      | some requested =>
        if lsa.header.isOlder requested then s
        else
          let s := (P.removeFromRequestList s.1 at' lsa.header.lsaKey, s.2)
          if lsa.header.isSame requested then s else retransmit lsa sender at' s
    else s

end Origination

/-- The places of the neighbours of an interface. -/
def InterfaceRef.neighbors (at' : InterfaceRef) (intf : Interface) : List NeighborRef :=
  (List.range intf.neighboringRouters.length).map ({ toInterfaceRef := at', neighbor := · })

namespace Router

/-- Step (5) of `Interface::floodLSA`: the update packet is sent, and the neighbours it is for note
it. -/
def sendUpdate (r : Router) (at' : InterfaceRef) (intf : Interface) (k : LSAKeyType)
    (packet : OSPFLSA) : Router :=
  let note (r : Router) (i : ℕ) : Router :=
    r.modifyNeighbor { toInterfaceRef := at', neighbor := i } (·.addToTransmittedLSAList k)
  if intf.interfaceType = .broadcast then
    let r := r.emit (.update intf.ifIndex intf.broadcastDestination packet)
    if intf.SendsToAllRouters then (List.range intf.neighboringRouters.length).foldl note r
    else
      ([intf.designatedRouter.routerID, intf.backupDesignatedRouter.routerID].filterMap
        intf.neighboringRoutersByID.find).foldl note r
  else if intf.interfaceType = .pointToPoint then
    let r := r.emit (.update intf.ifIndex ALL_OSPF_ROUTERS_MCAST packet)
    if intf.neighboringRouters = [] then r else note r 0
  else
    intf.neighboringRouters.zipIdx.foldl (fun r n ↦
      if n.1.state.ReachedExchange then
        note (r.emit (.update intf.ifIndex n.1.neighborIPAddress packet)) n.2
      else r) r

/-- Steps (3) and (4) of `Interface::floodLSA`: the LSA is not sent back where it came from when the
designated router will do that. -/
def SendsOut (r : Router) (source : Option InterfaceRef) (sender : Option NeighborRef)
    (at' : InterfaceRef) (intf : Interface) : Prop :=
  (source ≠ some at' ∨ ∃ n ∈ sender.bind r.neighbor?,
      n.neighborID ≠ intf.designatedRouter.routerID ∧
        n.neighborID ≠ intf.backupDesignatedRouter.routerID) ∧
    (source ≠ some at' ∨ intf.state ≠ .backup)

instance (r : Router) (source : Option InterfaceRef) (sender : Option NeighborRef)
    (at' : InterfaceRef) (intf : Interface) : Decidable (r.SendsOut source sender at' intf) :=
  inferInstanceAs (Decidable (_ ∧ _))

end Router

namespace Origination

variable (P : Origination)

/-- `Interface::floodLSA`. -/
def floodInterface (lsa : OSPFLSA) (source : Option InterfaceRef) (sender : Option NeighborRef)
    (externalRoutingCapability : Bool) (r : Router) (at' : InterfaceRef) : Router × Bool :=
  match r.interface? at' with
  | none => (r, false)
  | some intf =>
    if intf.Floods externalRoutingCapability lsa.header.lsType then
      let s := (at'.neighbors intf).foldl (P.offer lsa sender) (r, false)
      match s.1.interface? at' with
      | none => (s.1, false)
      | some intf =>
        if s.2 = true ∧ s.1.SendsOut source sender at' intf then
          match intf.createUpdatePacket lsa with
          | some packet =>
            (s.1.sendUpdate at' intf lsa.header.lsaKey packet, decide (source = some at'))
          | none => (s.1, false)
        else (s.1, false)
    else (r, false)

/-- `Area::floodLSA`. -/
def floodArea (lsa : OSPFLSA) (source : Option InterfaceRef) (sender : Option NeighborRef)
    (s : Router × Bool) (i : ℕ) : Router × Bool :=
  match s.1.areas[i]? with
  | none => s
  | some a =>
    (List.range a.associatedInterfaces.length).foldl (fun s j ↦
      let t := P.floodInterface lsa source sender a.externalRoutingCapability s.1 ⟨i, j⟩
      (t.1, s.2 || t.2)) s

/-- `Router::floodLSA`: whether the LSA is flooded back out of the interface it came from is the
result. -/
def floodLSA (r : Router) (lsa : OSPFLSA) (areaID : IPv4Address) (source : Option InterfaceRef)
    (sender : Option NeighborRef) : Router × Bool :=
  if lsa.header.lsType = .asExternal then
    (List.range r.areas.length).foldl (fun s i ↦
      if (s.1.areas[i]?).any (·.externalRoutingCapability) then P.floodArea lsa source sender s i
      else s) (r, false)
  else
    match r.areaIndex areaID with
    | some i => P.floodArea lsa source sender (r, false) i
    | none => (r, false)

end Origination

/-! ### Finding and installing -/

/-- An LSA of the database as `findLSA` gives it. -/
structure DatabaseCopy where
  lsa : OSPFLSA
  source : InstallSource
  installTime : ℕ

/-- The LSA an object of the database is. -/
def TrackedLSA.toCopy {β : Type} (wrap : LSA β → OSPFLSA) (t : TrackedLSA β) : DatabaseCopy :=
  ⟨wrap t.lsa, t.source, t.installTime⟩

namespace Area

/-- The retransmission lists are cleared of an LSA that is in the database already. -/
def clearIf (a : Area) (found : Bool) (k : LSAKeyType) : Area :=
  if found then Router.removeFromRetransmissionListsOf k a else a

/-- `installRouterLSA`. -/
def installRouterLSA (a : Area) (lsa : OSPFRouterLSA) : Area × Bool :=
  let id := lsa.header.linkStateID
  let t := a.routerLSAs.install id lsa
  ({ a.clearIf (a.routerLSAs.find id).isSome lsa.header.lsaKey with routerLSAs := t.1 }, t.2)

/-- `installNetworkLSA`. -/
def installNetworkLSA (a : Area) (lsa : OSPFNetworkLSA) : Area × Bool :=
  let id := lsa.header.linkStateID
  let t := a.networkLSAs.install id lsa
  ({ a.clearIf (a.networkLSAs.find id).isSome lsa.header.lsaKey with networkLSAs := t.1 }, t.2)

/-- `installSummaryLSA`. -/
def installSummaryLSA (a : Area) (lsa : OSPFSummaryLSA) : Area × Bool :=
  let id := lsa.header.lsaKey
  let t := a.summaryLSAs.install id lsa
  ({ a.clearIf (a.summaryLSAs.find id).isSome id with summaryLSAs := t.1 }, t.2)

end Area

namespace Router

/-- `findLSA`. -/
def findLSA (r : Router) (type : LSAType) (k : LSAKeyType) (areaID : IPv4Address) :
    Option DatabaseCopy :=
  let area := (r.areaIndex areaID).bind (r.areas[·]?)
  match type with
  | .router => area.bind fun a ↦ (a.routerLSAs.find k.linkStateID).map (·.toCopy .router)
  | .network => area.bind fun a ↦ (a.networkLSAs.find k.linkStateID).map (·.toCopy .network)
  | .summaryNetworks | .summaryASBoundaryRouters =>
    area.bind fun a ↦ (a.summaryLSAs.find k).map (·.toCopy .summary)
  | .asExternal => (r.asExternalLSAs.find k).map (·.toCopy .asExternal)
  | .unknown => none

/-- An installation in the area with an id. -/
def inArea (r : Router) (areaID : IPv4Address) (f : Area → Area × Bool) : Router × Bool :=
  match r.areaIndex areaID with
  | some i =>
    match r.areas[i]? with
    | some a => (r.modifyArea i fun a ↦ (f a).1, (f a).2)
    | none => (r, false)
  | none => (r, false)

/-- The header of an LSA of the database is written. -/
def writeCopy (r : Router) (lsa : OSPFLSA) (areaID : IPv4Address) : Router :=
  let k := lsa.header.lsaKey
  let write {β : Type} (t : TrackedLSA β) : TrackedLSA β :=
    { t with lsa := { t.lsa with header := lsa.header } }
  let inPlace (f : Area → Area) : Router :=
    match r.areaIndex areaID with
    | some i => r.modifyArea i f
    | none => r
  match lsa with
  | .router _ =>
    inPlace fun a ↦ { a with routerLSAs := a.routerLSAs.modify k.linkStateID write }
  | .network _ =>
    inPlace fun a ↦ { a with networkLSAs := a.networkLSAs.modify k.linkStateID write }
  | .summary _ => inPlace fun a ↦ { a with summaryLSAs := a.summaryLSAs.modify k write }
  | .asExternal _ => { r with asExternalLSAs := r.asExternalLSAs.modify k write }

end Router

namespace Origination

variable (P : Origination)

/-- The own LSA is functionally equivalent to one that has come in. -/
def Equivalent (r : Router) (own lsa : OSPFASExternalLSA) : Prop :=
  lsa.header.advertisingRouter ∈ r.boundaryRoutes ∧
    own.contents.E_ExternalMetricType = lsa.contents.E_ExternalMetricType ∧
    own.contents.routeCost = lsa.contents.routeCost ∧ lsa.contents.forwardingAddress ≠ 0 ∧
    own.contents.forwardingAddress = lsa.contents.forwardingAddress

instance (r : Router) (own lsa : OSPFASExternalLSA) : Decidable (Equivalent r own lsa) :=
  inferInstanceAs (Decidable (_ ∧ _))

/-- The end of `installASExternalLSA`. -/
def storeASExternalLSA (r : Router) (lsa : OSPFASExternalLSA) (ownLSAFloodedOut : Bool) :
    Router × Bool :=
  let k := lsa.header.lsaKey
  let t := r.asExternalLSAs.install k lsa
  let r := if (r.asExternalLSAs.find k).isSome then r.removeFromAllRetransmissionLists k else r
  ({ r with asExternalLSAs := t.1 }, t.2 || ownLSAFloodedOut)

/-- `Router::installASExternalLSA`: of two equivalent LSAs the one of the router with the larger id
is kept. -/
def installASExternalLSA (r : Router) (lsa : OSPFASExternalLSA) : Router × Bool :=
  let ownKey : LSAKeyType := ⟨lsa.header.linkStateID, r.routerID⟩
  match r.asExternalLSAs.find ownKey with
  | some own =>
    if Equivalent r own.lsa lsa then
      if lsa.header.advertisingRouter < r.routerID then (r, false)
      else
        let own := own.setLsAge MAX_AGE
        let r := { r with asExternalLSAs := r.asExternalLSAs.modify ownKey (·.setLsAge MAX_AGE) }
        let r := (P.floodLSA r (.asExternal own.lsa) NULL_IPV4ADDRESS none none).1
        storeASExternalLSA
          { r with asExternalLSAs := r.asExternalLSAs.modify ownKey (·.incrementInstallTime) } lsa
          true
    else storeASExternalLSA r lsa false
  | none => storeASExternalLSA r lsa false

/-- `Router::installLSA`. -/
def installLSA (r : Router) (lsa : OSPFLSA) (areaID : IPv4Address) : Router × Bool :=
  match lsa with
  | .router lsa => r.inArea areaID (·.installRouterLSA lsa)
  | .network lsa => r.inArea areaID (·.installNetworkLSA lsa)
  | .summary lsa => r.inArea areaID (·.installSummaryLSA lsa)
  | .asExternal lsa => P.installASExternalLSA r lsa

end Origination

/-! ### What flooding leaves alone -/

namespace Router

variable {r : Router} {at' : InterfaceRef} {ref : NeighborRef}

end Router

namespace Area

end Area

namespace Origination

open Router

variable (P : Origination) (r : Router)

end Origination

end Inet.OSPF
