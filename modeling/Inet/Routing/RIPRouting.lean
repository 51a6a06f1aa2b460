import Mathlib.Data.List.AList
import Inet.Foundations.TransitionSystem
import Inet.NetworkLayer.L3Address

/-!
# The Routing Information Protocol

`RIPRouting` keeps a table of its own beside the routing table of the host. A route of the one is
linked to a route of the other by a pointer, and both are changed from many places: when a response
arrives, when the interfaces or the routes of the host change, and when a route expires, which is
noticed while routes are being sent.

The routing table is the host's, as far as this module uses it. It tells its listeners what it adds,
deletes and changes; `RIPRouting` ignores what it is told about its own routes. An object is known
by its address, which is not used again.
-/

namespace Inet

/-- `RIP_INFINITE_METRIC`. -/
def RIP_INFINITE_METRIC : ℕ :=
  16

/-- The source of a route in the routing table of the host. -/
inductive RouteSource
  | rip
  | interfaceEntry (ie : ℕ) (isLoopback : Bool)
  | other
  deriving DecidableEq, Repr

/-- `IRoute`: a route in the routing table of the host. -/
structure IRoute where
  dest : L3Address
  prefixLength : ℤ
  nextHop : L3Address
  ie : Option ℕ
  metric : ℕ
  source : RouteSource
  deriving DecidableEq, Repr

/-- `RIPRoute::RouteType`. -/
inductive RouteType
  | rte
  | static
  | default
  | redistribute
  | interface
  deriving DecidableEq, Repr

/-- `RIPRoute`. -/
structure RIPRoute where
  type : RouteType
  route : Option ℕ
  dest : L3Address
  prefixLength : ℤ
  nextHop : L3Address
  ie : Option ℕ
  fromAddr : L3Address := 0
  metric : ℕ
  tag : ℕ := 0
  changed : Bool := false
  lastUpdateTime : ℕ := 0
  deriving DecidableEq, Repr

instance : Inhabited RIPRoute :=
  ⟨⟨.rte, none, 0, 0, 0, none, 0, RIP_INFINITE_METRIC, 0, false, 0⟩⟩

/-- `RIPMode`. -/
inductive RIPMode
  | noRIP
  | noSplitHorizon
  | splitHorizon
  | splitHorizonPoisonedReverse
  deriving DecidableEq, Repr

/-- `RIPInterfaceEntry`, as `configure` lets it be. -/
structure RIPInterfaceEntry where
  ie : ℕ
  metric : ℕ
  mode : RIPMode
  metric_pos : 1 ≤ metric
  metric_lt : metric < RIP_INFINITE_METRIC
  deriving DecidableEq, Repr

/-- `RIPEntry`. -/
structure RIPEntry where
  addressFamilyId : ℕ
  routeTag : ℕ
  address : L3Address
  prefixLength : ℤ
  nextHop : L3Address
  metric : ℕ
  deriving DecidableEq, Repr

/-- `RIP_AF_NONE`. -/
def RIP_AF_NONE : ℕ :=
  0

/-- `RIP_AF_INET`. -/
def RIP_AF_INET : ℕ :=
  2

/-- `RIPCommand`. -/
inductive RIPCommand
  | request
  | response
  deriving DecidableEq, Repr

/-- A packet that is sent. A multicast packet leaves through one interface. -/
structure RIPPacket where
  command : RIPCommand
  entry : List RIPEntry
  destAddr : L3Address
  destPort : ℕ
  outInterface : Option ℕ
  deriving DecidableEq, Repr

/-- `UDPDataIndication`, with what the tables of the host say about the source address. -/
structure UDPDataIndication where
  srcAddr : L3Address
  srcPort : ℕ
  interfaceId : ℕ
  ttl : ℕ
  isLocalAddress : Bool
  isNeighborAddress : Bool
  deriving DecidableEq, Repr

/-- What stops the module. -/
inductive RIPError
  | assertionFailed
  | danglingPointer
  | badRoute
  | indexOutOfRange
  | invalidRequest
  deriving DecidableEq, Repr

/-- `RIPRouting::Mode`. -/
inductive RIPVersion
  | RIPv2
  | RIPng
  deriving DecidableEq, Repr

/-- The parameters of the module, and what it asks of the addresses and of the interfaces. The
`triggeredUpdateDelay` is drawn anew each time. The routing table refuses some routes. -/
structure RIPParameters where
  mode : RIPVersion
  ripUdpPort : ℕ
  updateInterval : ℕ
  routeExpiryTime : ℕ
  routePurgeTime : ℕ
  triggeredUpdateDelay : ℕ → ℕ
  linkLocalRIPRoutersMulticastAddress : L3Address
  maxPrefixLength : ℤ
  isUnicast : L3Address → Bool
  isMulticast : L3Address → Bool
  isLinkLocal : L3Address → Bool
  mtu : ℕ → ℕ
  acceptsRoute : L3Address → ℤ → Bool
  isMulticast_linkLocalRIPRouters : isMulticast linkLocalRIPRoutersMulticastAddress = true
  eq_zero_of_acceptsRoute : mode = .RIPv2 → ∀ dest, acceptsRoute dest 0 = true → dest = 0

/-- `class RIPRouting` and the routing table of the host. `sent` is what the current event has sent.
-/
structure RIPRouting where
  now : ℕ := 0
  ripInterfaces : List RIPInterfaceEntry := []
  ripRoutes : List ℕ := []
  ripRoute : ℕ → RIPRoute := fun _ ↦ default
  nextRipRoute : ℕ := 0
  rt : AList fun _ : ℕ ↦ IRoute := ∅
  nextRoute : ℕ := 0
  updateTimer : Option ℕ := none
  triggeredUpdateTimer : Option ℕ := none
  draws : ℕ := 0
  sent : List RIPPacket := []

namespace RIPRouting

variable (P : RIPParameters)

/-- A route in the routing table of the host. -/
def entry (s : RIPRouting) (r : ℕ) : Option IRoute :=
  s.rt.lookup r

/-- The routing table of the host loses a route, or has one. -/
def eraseEntry (r : ℕ) (s : RIPRouting) : RIPRouting :=
  { s with rt := s.rt.erase r }

def insertEntry (r : ℕ) (e : IRoute) (s : RIPRouting) : RIPRouting :=
  { s with rt := s.rt.insert r e }

/-- A route of this module is changed. -/
def setRipRoute (s : RIPRouting) (p : ℕ) (f : RIPRoute → RIPRoute) : RIPRouting :=
  { s with ripRoute := Function.update s.ripRoute p (f (s.ripRoute p)) }

/-! ### Looking up -/

/-- `findInterfaceById`. -/
def findInterfaceById (s : RIPRouting) (interfaceId : ℕ) : Option RIPInterfaceEntry :=
  s.ripInterfaces.find? fun elem ↦ elem.ie = interfaceId

/-- `findRoute(destination, prefixLength)`. -/
def findRoute (s : RIPRouting) (dest : L3Address) (prefixLength : ℤ) : Option ℕ :=
  s.ripRoutes.find? fun p ↦ (s.ripRoute p).dest = dest ∧ (s.ripRoute p).prefixLength = prefixLength

/-- `findRoute(route)`. -/
def findRouteByLink (s : RIPRouting) (r : ℕ) : Option ℕ :=
  s.ripRoutes.find? fun p ↦ (s.ripRoute p).route = some r

/-- `findRoute(ie, type)`. -/
def findRouteByInterface (s : RIPRouting) (ie : ℕ) (type : RouteType) : Option ℕ :=
  s.ripRoutes.find? fun p ↦ (s.ripRoute p).type = type ∧ (s.ripRoute p).ie = some ie

/-- `getInterfaceMetric`. -/
def getInterfaceMetric (s : RIPRouting) (ie : ℕ) : ℕ :=
  match s.findInterfaceById ie with
  | some ripIe => ripIe.metric
  | none => 1

/-! ### Invalidating routes -/

/-- `RIPRouting::triggerUpdate`. -/
def triggerUpdate (s : RIPRouting) : RIPRouting :=
  match s.triggeredUpdateTimer with
  | some _ => s
  | none =>
    let updateTime := s.now + P.triggeredUpdateDelay s.draws
    -- a regular update that is due before the triggered one takes its place
    if ∀ arrivalTime ∈ s.updateTimer, updateTime < arrivalTime then
      { s with triggeredUpdateTimer := some updateTime, draws := s.draws + 1 }
    else { s with draws := s.draws + 1 }

/-- `invalidateRoute` for a route whose link has been removed. -/
def invalidateUnlinked (p : ℕ) (s : RIPRouting) : RIPRouting :=
  (s.setRipRoute p fun x ↦
    { x with route := none, metric := RIP_INFINITE_METRIC, changed := true }).triggerUpdate P

/-- `NF_ROUTE_DELETED`, for a route of another source. -/
def handleRouteDeleted (r : ℕ) (s : RIPRouting) : RIPRouting :=
  s.ripRoutes.foldl (fun s p ↦
    if (s.ripRoute p).route = some r then s.invalidateUnlinked P p else s) s

/-- The routing table deletes a route and tells its listeners. -/
def deleteRoute (r : ℕ) (s : RIPRouting) : RIPRouting :=
  match s.entry r with
  | some e =>
    if e.source = .rip then s.eraseEntry r else (s.eraseEntry r).handleRouteDeleted P r
  | none => s

/-- The link of a route is removed, and the route it led to is deleted. -/
def unlinkRoute (p : ℕ) (s : RIPRouting) : RIPRouting :=
  match (s.ripRoute p).route with
  | some r => (s.setRipRoute p fun x ↦ { x with route := none }).deleteRoute P r
  | none => s

/-- `RIPRouting::invalidateRoute`. -/
def invalidateRoute (p : ℕ) (s : RIPRouting) : RIPRouting :=
  (s.unlinkRoute P p).invalidateUnlinked P p

/-- `RIPRouting::purgeRoute`. -/
def purgeRoute (p : ℕ) (s : RIPRouting) : RIPRouting :=
  let s' := s.unlinkRoute P p
  { s' with ripRoutes := s'.ripRoutes.erase p }

/-- `RIPRouting::invalidateRoutes`. -/
def invalidateRoutes (ie : ℕ) (s : RIPRouting) : RIPRouting :=
  s.ripRoutes.foldl (fun s p ↦
    if (s.ripRoute p).ie = some ie then s.invalidateRoute P p else s) s

/-! ### Adding routes -/

/-- The default route that a new route replaces in an IPv4 table. -/
def oldDefaultRoute (prefixLength : ℤ) (s : RIPRouting) : Option ℕ :=
  if P.mode = .RIPv2 ∧ prefixLength = 0 then
    (s.rt.entries.find? fun e ↦ e.2.prefixLength = 0).map Sigma.fst
  else none

/-- A default route of an IPv4 table replaces the old one. -/
def replaceDefaultRoute (prefixLength : ℤ) (s : RIPRouting) : RIPRouting :=
  match s.oldDefaultRoute P prefixLength with
  | some r => s.deleteRoute P r
  | none => s

/-- The routing table adds a route, and gives back its address. -/
def addIRoute (route : IRoute) (s : RIPRouting) : Except RIPError (ℕ × RIPRouting) :=
  if P.acceptsRoute route.dest route.prefixLength then
    let s' := s.replaceDefaultRoute P route.prefixLength
    .ok (s'.nextRoute, { s'.insertEntry s'.nextRoute route with nextRoute := s'.nextRoute + 1 })
  else .error .badRoute

/-- `routeChanged`: a route whose destination, prefix length or metric has changed is added again.
-/
def changeIRoute (r : ℕ) (route : IRoute) (s : RIPRouting) : Except RIPError RIPRouting :=
  match s.entry r with
  | none => .error .danglingPointer
  | some e =>
    if e.dest = route.dest ∧ e.prefixLength = route.prefixLength ∧ e.metric = route.metric then
      .ok (s.insertEntry r route)
    else if P.acceptsRoute route.dest route.prefixLength then
      .ok (((s.eraseEntry r).replaceDefaultRoute P route.prefixLength).insertEntry r route)
    else .error .badRoute

/-- `addRoute(dest, prefixLength, ie, nextHop, metric)`. -/
def addOwnRoute (dest : L3Address) (prefixLength : ℤ) (ie : ℕ) (nextHop : L3Address) (metric : ℕ)
    (s : RIPRouting) : Except RIPError (ℕ × RIPRouting) :=
  s.addIRoute P ⟨dest, prefixLength, nextHop, some ie, metric, .rip⟩

/-- A route of this module is added at the end. -/
def pushRoute (x : RIPRoute) (s : RIPRouting) : RIPRouting :=
  { s with
    ripRoutes := s.ripRoutes ++ [s.nextRipRoute]
    ripRoute := Function.update s.ripRoute s.nextRipRoute x
    nextRipRoute := s.nextRipRoute + 1 }

/-- `RIPRouting::importRoute`. -/
def importRoute (r : ℕ) (route : IRoute) (type : RouteType) (metric : ℕ) (s : RIPRouting) :
    RIPRouting :=
  let ie := match type, route.source with
    | .interface, .interfaceEntry ie _ => some ie
    | _, _ => route.ie
  s.pushRoute
    { type := type, route := some r, dest := route.dest, prefixLength := route.prefixLength
      nextHop := route.nextHop, ie := ie, metric := metric }

/-- `RIPRouting::addRoute`. -/
def addRoute (dest : L3Address) (prefixLength : ℤ) (ie : ℕ) (nextHop : L3Address)
    (metric routeTag : ℕ) (fromAddr : L3Address) (s : RIPRouting) : Except RIPError RIPRouting := do
  let (r, s) ← s.addOwnRoute P dest prefixLength ie nextHop metric
  return (s.pushRoute
    { type := .rte, route := some r, dest := dest, prefixLength := prefixLength, nextHop := nextHop
      ie := some ie, fromAddr := fromAddr, metric := metric, tag := routeTag, changed := true
      lastUpdateTime := s.now }).triggerUpdate P

/-! ### Updating routes -/

/-- `setInterface`, `setMetric`, `setFrom` and `setRouteTag`: what is linked to a learned route
follows. -/
def adopt (p : ℕ) (ie metric routeTag : ℕ) (fromAddr : L3Address) (s : RIPRouting) :
    Except RIPError RIPRouting :=
  let s' := s.setRipRoute p fun x ↦
    { x with ie := some ie, metric := metric, fromAddr := fromAddr, tag := routeTag }
  match (s.ripRoute p).type, (s.ripRoute p).route with
  | .rte, some r =>
    match s.entry r with
    | some e => .ok (s'.insertEntry r { e with ie := some ie, metric := metric })
    | none => .error .danglingPointer
  | _, _ => .ok s'

/-- The route is linked to a new one in the routing table. -/
def relink (p : ℕ) (ie : ℕ) (nextHop : L3Address) (metric : ℕ) (s : RIPRouting) :
    Except RIPError RIPRouting := do
  let (r, s) ← s.addOwnRoute P (s.ripRoute p).dest (s.ripRoute p).prefixLength ie nextHop metric
  return s.setRipRoute p fun x ↦ { x with route := some r }

/-- The new link of a route that is updated, in `updateRoute`. -/
def updateLink (p ie : ℕ) (nextHop : L3Address) (metric oldMetric : ℕ) (s : RIPRouting) :
    Except RIPError RIPRouting :=
  if oldMetric = RIP_INFINITE_METRIC then
    if metric < RIP_INFINITE_METRIC then
      if (s.ripRoute p).route = none then
        (s.setRipRoute p fun x ↦ { x with type := .rte, nextHop := nextHop }).relink P p ie nextHop
          metric
      else .error .assertionFailed
    else .ok s
  else if (s.ripRoute p).route = none then .error .assertionFailed
  else
    let s := (s.unlinkRoute P p).setRipRoute p fun x ↦ { x with nextHop := nextHop }
    if metric < RIP_INFINITE_METRIC then s.relink P p ie nextHop metric else .ok s

/-- `RIPRouting::updateRoute`. -/
def updateRoute (p ie : ℕ) (nextHop : L3Address) (metric routeTag : ℕ) (fromAddr : L3Address)
    (s : RIPRouting) : Except RIPError RIPRouting := do
  let oldMetric := (s.ripRoute p).metric
  let s ← s.adopt p ie metric routeTag fromAddr
  let s ← s.updateLink P p ie nextHop metric oldMetric
  let s := (s.setRipRoute p fun x ↦ { x with changed := true }).triggerUpdate P
  return if metric = RIP_INFINITE_METRIC ∧ oldMetric ≠ RIP_INFINITE_METRIC then
    s.invalidateRoute P p
  else s.setRipRoute p fun x ↦ { x with lastUpdateTime := s.now }

/-! ### Sending -/

/-- `RIPRouting::sendPacket`. -/
def sendPacket (command : RIPCommand) (entry : List RIPEntry) (destAddr : L3Address)
    (destPort destInterface : ℕ) (s : RIPRouting) : RIPRouting :=
  { s with
    sent := s.sent ++ [⟨command, entry, destAddr, destPort,
      if P.isMulticast destAddr then some destInterface else none⟩] }

/-- `RIPRouting::sendRIPRequest`. -/
def sendRIPRequest (ripInterface : RIPInterfaceEntry) (s : RIPRouting) : RIPRouting :=
  s.sendPacket P .request [⟨RIP_AF_NONE, 0, 0, 0, 0, RIP_INFINITE_METRIC⟩]
    P.linkLocalRIPRoutersMulticastAddress P.ripUdpPort ripInterface.ie

/-- `RIPRouting::checkRouteIsExpired`: whether the route is valid. -/
def checkRouteIsExpired (p : ℕ) (s : RIPRouting) : Bool × RIPRouting :=
  let route := s.ripRoute p
  if route.type = .rte then
    if route.lastUpdateTime + P.routeExpiryTime + P.routePurgeTime ≤ s.now then
      (false, s.purgeRoute P p)
    else if route.lastUpdateTime + P.routeExpiryTime ≤ s.now then (false, s.invalidateRoute P p)
    else (true, s)
  else (true, s)

/-- The entry for a route, unless it is left out. -/
def routeEntry (ripInterface : RIPInterfaceEntry) (changedOnly : Bool) (route : RIPRoute) :
    Option RIPEntry :=
  let entry (metric : ℕ) : RIPEntry :=
    ⟨RIP_AF_INET, route.tag, route.dest, route.prefixLength, 0, metric⟩
  if changedOnly = true ∧ route.changed = false then none
  else if route.ie = some ripInterface.ie then
    match ripInterface.mode with
    | .splitHorizon => none
    | .splitHorizonPoisonedReverse => some (entry RIP_INFINITE_METRIC)
    | _ => some (entry route.metric)
  else some (entry route.metric)

/-- The number of entries that fit in a packet. -/
def maxEntries (ie : ℕ) : ℕ :=
  match P.mode with
  | .RIPv2 => 25
  | .RIPng => (P.mtu ie - 40 - 8 - 4) / 20

/-- The next entry of a packet. A full packet is sent. -/
def fillEntry (address : L3Address) (port ie : ℕ) (packet : List RIPEntry) (e : RIPEntry)
    (s : RIPRouting) : Except RIPError (List RIPEntry × RIPRouting) :=
  if maxEntries P ie = 0 then .error .indexOutOfRange
  else if maxEntries P ie ≤ packet.length + 1 then
    .ok ([], s.sendPacket P .response (packet ++ [e]) address port ie)
  else .ok (packet ++ [e], s)

/-- The loop of `sendRoutes`, from position `i` on. It goes on to the old end of the vector when a
route has been erased from it; then the last route still stands behind the new end. -/
def sendLoop (address : L3Address) (port : ℕ) (ripInterface : RIPInterfaceEntry)
    (changedOnly : Bool) :
    ℕ → ℕ → List ℕ → List RIPEntry → RIPRouting → Except RIPError (List RIPEntry × RIPRouting)
  | 0, _, _, packet, s => .ok (packet, s)
  | n + 1, i, behind, packet, s =>
    match (s.ripRoutes ++ behind)[i]? with
    | none => .error .danglingPointer
    | some p =>
      if p ∈ s.ripRoutes then
        let s' := (s.checkRouteIsExpired P p).2
        let behind' := s.ripRoutes.drop s'.ripRoutes.length ++ behind
        if (s.checkRouteIsExpired P p).1 then
          match routeEntry ripInterface changedOnly (s'.ripRoute p) with
          | some e => do
            let (packet', s'') ← s'.fillEntry P address port ripInterface.ie packet e
            sendLoop address port ripInterface changedOnly n (i + 1) behind' packet' s''
          | none => sendLoop address port ripInterface changedOnly n (i + 1) behind' packet s'
        else sendLoop address port ripInterface changedOnly n (i + 1) behind' packet s'
      else .error .danglingPointer

/-- `RIPRouting::sendRoutes`. -/
def sendRoutes (address : L3Address) (port : ℕ) (ripInterface : RIPInterfaceEntry)
    (changedOnly : Bool) (s : RIPRouting) : Except RIPError RIPRouting := do
  let (packet, s) ←
    s.sendLoop P address port ripInterface changedOnly s.ripRoutes.length 0 [] []
  return if packet = [] then s
    else s.sendPacket P .response packet address port ripInterface.ie

/-- `RIPRouting::processUpdate`. -/
def processUpdate (triggered : Bool) (s : RIPRouting) : Except RIPError RIPRouting := do
  let s ← s.ripInterfaces.foldlM (fun s elem ↦
    if elem.mode ≠ .noRIP then
      s.sendRoutes P P.linkLocalRIPRoutersMulticastAddress P.ripUdpPort elem triggered
    else .ok s) s
  return s.ripRoutes.foldl (fun s p ↦ s.setRipRoute p fun x ↦ { x with changed := false }) s

/-! ### Requests and responses -/

/-- The answer to an entry of a request. -/
def answerEntry (s : RIPRouting) (entry : RIPEntry) : Except RIPError RIPEntry :=
  if entry.addressFamilyId = RIP_AF_INET then
    .ok { entry with metric := match s.findRoute entry.address entry.prefixLength with
      | some p => (s.ripRoute p).metric
      | none => RIP_INFINITE_METRIC }
  else .error .invalidRequest

/-- The packet goes back to where it has come from. -/
def sendAnswer (ctrlInfo : UDPDataIndication) (entry : List RIPEntry) (s : RIPRouting) : RIPRouting :=
  { s with sent := s.sent ++ [⟨.response, entry, ctrlInfo.srcAddr, ctrlInfo.srcPort, none⟩] }

/-- `RIPRouting::processRequest`. -/
def processRequest (ctrlInfo : UDPDataIndication) (entry : List RIPEntry) (s : RIPRouting) :
    Except RIPError RIPRouting :=
  match entry with
  | [] => .ok s
  | [e] =>
    if e.addressFamilyId = RIP_AF_NONE then
      if e.metric = RIP_INFINITE_METRIC then
        match s.findInterfaceById ctrlInfo.interfaceId with
        | some ripInterface => s.sendRoutes P ctrlInfo.srcAddr ctrlInfo.srcPort ripInterface false
        | none => .ok s
      else .error .invalidRequest
    else do
      let answer ← s.answerEntry e
      return s.sendAnswer ctrlInfo [answer]
  | entry => do
    let answers ← entry.mapM s.answerEntry
    return s.sendAnswer ctrlInfo answers

/-- `RIPRouting::isValidResponse`. -/
def isValidResponse (ctrlInfo : UDPDataIndication) (entry : List RIPEntry) : Bool :=
  decide (ctrlInfo.srcPort = P.ripUdpPort ∧ ctrlInfo.isLocalAddress = false ∧
    (P.mode = .RIPng → P.isLinkLocal ctrlInfo.srcAddr = true ∧ ctrlInfo.ttl = 255) ∧
    (P.mode = .RIPv2 → ctrlInfo.isNeighborAddress = true) ∧
    ∀ e ∈ entry, 1 ≤ e.metric ∧ e.metric ≤ RIP_INFINITE_METRIC ∧ P.isUnicast e.address = true ∧
      (P.mode = .RIPng → P.isLinkLocal e.address = false ∧ 0 ≤ e.prefixLength ∧
        e.prefixLength ≤ P.maxPrefixLength))

/-- The loop of `processResponse`. -/
def processEntry (incomingIe : RIPInterfaceEntry) (srcAddr : L3Address) (s : RIPRouting)
    (e : RIPEntry) : Except RIPError RIPRouting :=
  let metric := min (e.metric + incomingIe.metric) RIP_INFINITE_METRIC
  let nextHop := if e.nextHop = 0 then srcAddr else e.nextHop
  match s.findRoute e.address e.prefixLength with
  | some p =>
    let route := s.ripRoute p
    if (route.type = .static ∨ route.type = .default) ∧ route.metric ≠ RIP_INFINITE_METRIC then .ok s
    else
      let s' := if route.fromAddr = srcAddr then
        s.setRipRoute p fun x ↦ { x with lastUpdateTime := s.now } else s
      if route.fromAddr = srcAddr ∧ route.metric ≠ metric ∨ metric < route.metric then
        s'.updateRoute P p incomingIe.ie nextHop metric e.routeTag srcAddr
      else .ok s'
  | none =>
    if metric ≠ RIP_INFINITE_METRIC then
      s.addRoute P e.address e.prefixLength incomingIe.ie nextHop metric e.routeTag srcAddr
    else .ok s

/-- `RIPRouting::processResponse`. -/
def processResponse (ctrlInfo : UDPDataIndication) (entry : List RIPEntry) (s : RIPRouting) :
    Except RIPError RIPRouting :=
  if isValidResponse P ctrlInfo entry then
    match s.findInterfaceById ctrlInfo.interfaceId with
    | some incomingIe => entry.foldlM (processEntry P incomingIe ctrlInfo.srcAddr) s
    | none => .ok s
  else .ok s

/-! ### Notifications -/

/-- `RIPRouting::addInterface`. -/
def addInterface (ripInterface : RIPInterfaceEntry) (s : RIPRouting) : RIPRouting :=
  { s with ripInterfaces := s.ripInterfaces ++ [ripInterface] }

/-- `RIPRouting::deleteInterface`, after the routing table has deleted its routes. -/
def deleteInterface (ie : ℕ) (s : RIPRouting) : RIPRouting :=
  let s' := (s.rt.entries.filter fun e ↦ e.2.ie = some ie).foldl (fun s e ↦ s.deleteRoute P e.1) s
  { s' with
    ripInterfaces := s'.ripInterfaces.filter fun elem ↦ elem.ie ≠ ie
    ripRoutes := s'.ripRoutes.filter fun p ↦ (s'.ripRoute p).ie ≠ some ie }

/-- `NF_INTERFACE_STATE_CHANGED`, when the interface is up. -/
def handleInterfaceUp (ie : ℕ) (s : RIPRouting) : RIPRouting :=
  match s.findInterfaceById ie with
  | some ripInterface => if ripInterface.mode ≠ .noRIP then s.sendRIPRequest P ripInterface else s
  | none => s

/-- `NF_ROUTE_ADDED`, for a route of another source. -/
def handleRouteAdded (r : ℕ) (route : IRoute) (s : RIPRouting) : RIPRouting :=
  match route.source with
  | .interfaceEntry ie false =>
    match s.findRouteByInterface ie .interface with
    | some p => (s.setRipRoute p fun x ↦
        { x with route := some r, metric := s.getInterfaceMetric ie, changed := true }).triggerUpdate P
    | none => s.importRoute r route .interface (s.getInterfaceMetric ie)
  | _ => s

/-- `NF_ROUTE_CHANGED`, for a route of another source. -/
def handleRouteChanged (r : ℕ) (route : IRoute) (s : RIPRouting) : RIPRouting :=
  match s.findRouteByLink r with
  | some p =>
    let x := s.ripRoute p
    let s' := s.setRipRoute p fun x ↦
      { x with
        dest := route.dest, prefixLength := route.prefixLength, nextHop := route.nextHop
        ie := route.ie }
    if route.dest ≠ x.dest ∨ route.prefixLength ≠ x.prefixLength ∨ route.nextHop ≠ x.nextHop ∨
      route.ie ≠ x.ie then
      (s'.setRipRoute p fun x ↦ { x with changed := true }).triggerUpdate P
    else s'
  | none => s

/-! ### The module -/

/-- `RIPRouting::configureInitialRoutes`, for one route. -/
def configureInitialRoute (s : RIPRouting) (e : (_ : ℕ) × IRoute) : RIPRouting :=
  match e.2.source with
  | .interfaceEntry _ true => s
  | .interfaceEntry ie false => s.importRoute e.1 e.2 .interface (s.getInterfaceMetric ie)
  | _ =>
    if e.2.prefixLength = 0 then s.importRoute e.1 e.2 .default 1
    else if P.isMulticast e.2.dest = false ∧ P.isLinkLocal e.2.dest = false then
      s.importRoute e.1 e.2 .static 1
    else s

/-- `RIPRouting::startRIPRouting`. -/
def startRIPRouting (now : ℕ) (ripInterfaces : List RIPInterfaceEntry)
    (rt : AList fun _ : ℕ ↦ IRoute) (nextRoute : ℕ) : RIPRouting :=
  let s : RIPRouting :=
    { now := now, ripInterfaces := ripInterfaces, rt := rt, nextRoute := nextRoute }
  let s := rt.entries.foldl (configureInitialRoute P) s
  let s := (s.ripInterfaces.filter fun elem ↦ elem.mode ≠ .noRIP).foldl
    (fun s elem ↦ s.sendRIPRequest P elem) s
  { s with updateTimer := some (now + P.updateInterval) }

end RIPRouting

/-- What happens to the module. Routes are added, deleted and changed by others. -/
inductive RIPEvent
  | advance (t : ℕ)
  | updateTimer
  | triggeredUpdateTimer
  | request (ctrlInfo : UDPDataIndication) (entry : List RIPEntry)
  | response (ctrlInfo : UDPDataIndication) (entry : List RIPEntry)
  | interfaceCreated (ripInterface : RIPInterfaceEntry)
  | interfaceDeleted (ie : ℕ)
  | interfaceUp (ie : ℕ)
  | interfaceDown (ie : ℕ)
  | routeAdded (route : IRoute)
  | routeDeleted (r : ℕ)
  | routeChanged (r : ℕ) (route : IRoute)

namespace RIPRouting

variable (P : RIPParameters)

/-- What the module does. -/
def handle (s : RIPRouting) : RIPEvent → Except RIPError RIPRouting
  | .advance t => .ok { s with now := t }
  | .updateTimer => do
    let s ← { s with updateTimer := none }.processUpdate P false
    return { s with updateTimer := some (s.now + P.updateInterval) }
  | .triggeredUpdateTimer => { s with triggeredUpdateTimer := none }.processUpdate P true
  | .request ctrlInfo entry => s.processRequest P ctrlInfo entry
  | .response ctrlInfo entry => s.processResponse P ctrlInfo entry
  | .interfaceCreated ripInterface => .ok (s.addInterface ripInterface)
  | .interfaceDeleted ie => .ok (s.deleteInterface P ie)
  | .interfaceUp ie => .ok (s.handleInterfaceUp P ie)
  | .interfaceDown ie => .ok (s.invalidateRoutes P ie)
  | .routeAdded route => do
    let (r, s) ← s.addIRoute P route
    return s.handleRouteAdded P r route
  | .routeDeleted r => .ok (s.deleteRoute P r)
  | .routeChanged r route => do
    let s ← s.changeIRoute P r route
    return s.handleRouteChanged P r route

/-- When an event can happen. -/
def Allowed (s : RIPRouting) : RIPEvent → Prop
  | .advance t => s.now ≤ t ∧ (∀ u ∈ s.updateTimer, t ≤ u) ∧ ∀ u ∈ s.triggeredUpdateTimer, t ≤ u
  | .updateTimer => s.updateTimer = some s.now
  | .triggeredUpdateTimer => s.triggeredUpdateTimer = some s.now
  | .routeAdded route => route.source ≠ .rip
  | .routeDeleted r => ∃ e, s.entry r = some e ∧ e.source ≠ .rip
  | .routeChanged r route => ∃ e, s.entry r = some e ∧ e.source ≠ .rip ∧ route.source = e.source
  | _ => True

/-- The states in which the module starts. No route of the host is its own. -/
def Starts (s : RIPRouting) : Prop :=
  ∃ now ripInterfaces rt nextRoute, s = startRIPRouting P now ripInterfaces rt nextRoute ∧
    ∀ e ∈ rt.entries, e.1 < nextRoute ∧ e.2.source ≠ .rip

/-- The module as a machine. What an event sends is its output. -/
def system : TransitionSystem RIPRouting RIPEvent (List RIPPacket) where
  Init := Starts P
  Step s event sent s' :=
    s.Allowed event ∧ { s with sent := [] }.handle P event = .ok s' ∧ sent = s'.sent

end RIPRouting

end Inet
