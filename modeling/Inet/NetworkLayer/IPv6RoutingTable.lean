import Inet.Common.SimTime
import Inet.Foundations.TransitionSystem
import Inet.NetworkLayer.IPv4Route
import Inet.NetworkLayer.IPv6Datagram

/-!
# The IPv6 routing table

`IPv6RoutingTable` sorts its routes again whenever one is added, so that the first route that
matches an address is a best one. A route may expire; the longest prefix match throws expired routes
away if they come from router advertisements.

The search is an iterator that goes through the routes. It need not come to an end, and is given the
number of its turns. A route that has been removed belongs to the caller, and an object is known by
its address, which is not used again. The destination cache is left out.
-/

namespace Inet.IPv6

open SortedScan

/-- What `constructMask` accepts. -/
abbrev PrefixLength :=
  {n : ℕ // n ≤ 128}

/-- The length of the prefix of a default route. -/
def PrefixLength.zero : PrefixLength :=
  ⟨0, Nat.zero_le _⟩

/-- `IPv6Address::constructMask`. -/
def IPv6Address.constructMask (prefixLength : PrefixLength) : IPv6Address :=
  let mask (numOfShifts : ℕ) : UInt32 := 0xFFFFFFFF <<< UInt32.ofNat numOfShifts
  if prefixLength.1 = 0 then ⟨0, 0, 0, 0⟩
  else if prefixLength.1 ≤ 32 then ⟨mask (32 - prefixLength.1), 0, 0, 0⟩
  else if prefixLength.1 ≤ 64 then ⟨0xFFFFFFFF, mask (64 - prefixLength.1), 0, 0⟩
  else if prefixLength.1 ≤ 96 then ⟨0xFFFFFFFF, 0xFFFFFFFF, mask (96 - prefixLength.1), 0⟩
  else ⟨0xFFFFFFFF, 0xFFFFFFFF, 0xFFFFFFFF, mask (128 - prefixLength.1)⟩

/-- `IPv6Address::matches`. -/
def IPv6Address.Matches (addr destPrefix : IPv6Address) (prefixLength : PrefixLength) : Bool :=
  let mask := IPv6Address.constructMask prefixLength
  (((addr.d0 ^^^ destPrefix.d0) &&& mask.d0) ||| ((addr.d1 ^^^ destPrefix.d1) &&& mask.d1) |||
    ((addr.d2 ^^^ destPrefix.d2) &&& mask.d2) ||| ((addr.d3 ^^^ destPrefix.d3) &&& mask.d3)) == 0

/-! ### Routes -/

/-- `class IPv6Route`, as far as the table uses it. Of an interface only the identity matters. -/
structure IPv6Route where
  destPrefix : IPv6Address
  prefixLength : PrefixLength
  sourceType : SourceType
  interfacePtr : Option ℕ := none
  nextHop : IPv6Address := ⟨0, 0, 0, 0⟩
  expiryTime : SimTime := 0
  metric : ℤ := 0
  adminDist : ℕ := 255
  deriving DecidableEq, Repr

namespace IPv6Route

/-- `IPv6Route::dDirectlyConnected`. -/
def dDirectlyConnected : ℕ :=
  0

/-- `IPv6Route::dStatic`. -/
def dStatic : ℕ :=
  1

variable {useAdminDist : Bool} {a b : IPv6Route}

/-- `IPv6RoutingTable::routeLessThan`. -/
def routeLessThan (useAdminDist : Bool) (a b : IPv6Route) : Bool :=
  if a.prefixLength ≠ b.prefixLength then b.prefixLength.1 < a.prefixLength.1
  else if useAdminDist ∧ a.adminDist ≠ b.adminDist then a.adminDist < b.adminDist
  else a.metric < b.metric

/-- What `routeLessThan` compares, one after the other. -/
def key (useAdminDist : Bool) (a : IPv6Route) : ℤ ×ₗ ℕ ×ₗ ℤ :=
  toLex (-(a.prefixLength.1 : ℤ), toLex (if useAdminDist then a.adminDist else 0, a.metric))

theorem routeLessThan_iff :
    routeLessThan useAdminDist a b = true ↔ key useAdminDist a < key useAdminDist b := by
  simp only [routeLessThan, key, Prod.Lex.toLex_lt_toLex, ne_eq, neg_lt_neg_iff, neg_inj,
    Nat.cast_lt, Nat.cast_inj]
  by_cases hlength : a.prefixLength = b.prefixLength
  · cases useAdminDist with
    | false => simp [hlength]
    | true => by_cases hdist : a.adminDist = b.adminDist <;> simp [hlength, hdist]
  · simp [hlength, Subtype.ext_iff.not.1 hlength]

/-- A route is at least as good as another. -/
def AsGoodAs (useAdminDist : Bool) (a b : IPv6Route) : Prop :=
  b.prefixLength.1 ≤ a.prefixLength.1 ∧ (b.prefixLength = a.prefixLength →
    (useAdminDist = true → a.adminDist ≤ b.adminDist) ∧
      ((useAdminDist = true → a.adminDist = b.adminDist) → a.metric ≤ b.metric))

/-- **Routes with smaller keys are better.** -/
theorem asGoodAs_of_key_le (hle : key useAdminDist a ≤ key useAdminDist b) :
    AsGoodAs useAdminDist a b := by
  simp only [key, Prod.Lex.toLex_le_toLex, neg_lt_neg_iff, neg_inj, Nat.cast_lt, Nat.cast_inj]
    at hle
  rcases hle with hlt | ⟨hlength, hlt | ⟨hdist, hmetric⟩⟩
  · exact ⟨hlt.le, fun heq ↦ absurd (congrArg Subtype.val heq) hlt.ne⟩
  · refine ⟨hlength.ge, fun _ ↦ ?_⟩
    cases useAdminDist with
    | false => exact absurd hlt (lt_irrefl 0)
    | true => exact ⟨fun _ ↦ hlt.le, fun heq ↦ absurd (heq rfl) hlt.ne⟩
  · refine ⟨hlength.ge, fun _ ↦ ?_⟩
    cases useAdminDist with
    | false => exact ⟨fun h ↦ Bool.noConfusion h, fun _ ↦ hmetric⟩
    | true => exact ⟨fun _ ↦ le_of_eq hdist, fun _ ↦ hmetric⟩

/-- The route matches an address, in `doLongestPrefixMatch`. -/
def Matches (a : IPv6Route) (dest : IPv6Address) : Bool :=
  dest.Matches a.destPrefix a.prefixLength

/-- The route has expired; zero stands for infinity. -/
def isExpired (a : IPv6Route) (now : SimTime) : Bool :=
  a.expiryTime < now ∧ a.expiryTime ≠ 0

end IPv6Route

/-- A route object, at its address. -/
structure RouteEntry where
  pointer : ℕ
  route : IPv6Route
  deriving DecidableEq, Repr

/-- `class IPv6RoutingTable`: the part for routes. -/
structure IPv6RoutingTable where
  routeList : List RouteEntry := []
  useAdminDist : Bool
  nextPointer : ℕ := 0
  deriving DecidableEq, Repr

/-- What is thrown: the route is not in the table. -/
inductive RoutingTableError
  | routeNotInTable
  deriving DecidableEq, Repr

namespace IPv6RoutingTable

/-- The object at an address. -/
def find (rt : IPv6RoutingTable) (pointer : ℕ) : Option RouteEntry :=
  rt.routeList.find? fun e ↦ e.pointer = pointer

/-- `IPv6RoutingTable::internalAddRoute`. -/
def internalAddRoute (rt : IPv6RoutingTable) (e : RouteEntry) : IPv6RoutingTable :=
  { rt with
    routeList := stableSort (fun a b ↦ a.route.routeLessThan rt.useAdminDist b.route)
      (rt.routeList ++ [e]) }

/-- `IPv6RoutingTable::addRoute`, with a route that belongs to the caller. -/
def addRoute (rt : IPv6RoutingTable) (route : IPv6Route) : IPv6RoutingTable :=
  { rt with nextPointer := rt.nextPointer + 1 }.internalAddRoute ⟨rt.nextPointer, route⟩

/-- `IPv6RoutingTable::internalRemoveRoute`. -/
def internalRemoveRoute (rt : IPv6RoutingTable) (pointer : ℕ) :
    Option RouteEntry × IPv6RoutingTable :=
  (rt.find pointer, { rt with routeList := rt.routeList.eraseP fun e ↦ e.pointer = pointer })

/-- `IPv6RoutingTable::removeRoute`. -/
def removeRoute (rt : IPv6RoutingTable) (pointer : ℕ) : Option RouteEntry × IPv6RoutingTable :=
  rt.internalRemoveRoute pointer

/-- `IPv6RoutingTable::internalDeleteRoute`, for the route at a position. -/
def internalDeleteRoute (rt : IPv6RoutingTable) (it : ℕ) : IPv6RoutingTable :=
  { rt with routeList := rt.routeList.eraseIdx it }

/-- `IPv6RoutingTable::deleteRoute`. -/
def deleteRoute (rt : IPv6RoutingTable) (pointer : ℕ) : Bool × IPv6RoutingTable :=
  match rt.routeList.findIdx? fun e ↦ e.pointer = pointer with
  | some it => (true, rt.internalDeleteRoute it)
  | none => (false, rt)

/-- `IPv6RoutingTable::routeChanged`. -/
def routeChanged (rt : IPv6RoutingTable) (pointer : ℕ) (fieldCode : ChangeCodes) :
    Except RoutingTableError IPv6RoutingTable :=
  if fieldCode = .F_DESTINATION ∨ fieldCode = .F_PREFIX_LENGTH ∨ fieldCode = .F_METRIC then
    match rt.internalRemoveRoute pointer with
    | (some e, rt) => .ok (rt.internalAddRoute e)
    | (none, _) => .error .routeNotInTable
  else .ok rt

/-- A route of the table is changed in place. -/
def modify (rt : IPv6RoutingTable) (pointer : ℕ) (f : IPv6Route → IPv6Route) : IPv6RoutingTable :=
  { rt with
    routeList := rt.routeList.map fun e ↦ if e.pointer = pointer then ⟨pointer, f e.route⟩ else e }

/-- A setter of `IPv6Route`: a change is reported to the table that the route is in. -/
def setField (rt : IPv6RoutingTable) (pointer : ℕ) (f : IPv6Route → IPv6Route)
    (fieldCode : ChangeCodes) : Except RoutingTableError IPv6RoutingTable :=
  match rt.find pointer with
  | some e =>
    if f e.route = e.route then .ok rt else (rt.modify pointer f).routeChanged pointer fieldCode
  | none => .ok rt

def setDestination (rt : IPv6RoutingTable) (pointer : ℕ) (destPrefix : IPv6Address) :=
  rt.setField pointer (fun e ↦ { e with destPrefix }) .F_DESTINATION

def setPrefixLength (rt : IPv6RoutingTable) (pointer : ℕ) (prefixLength : PrefixLength) :=
  rt.setField pointer (fun e ↦ { e with prefixLength }) .F_PREFIX_LENGTH

def setMetric (rt : IPv6RoutingTable) (pointer : ℕ) (metric : ℤ) :=
  rt.setField pointer (fun e ↦ { e with metric }) .F_METRIC

def setNextHop (rt : IPv6RoutingTable) (pointer : ℕ) (nextHop : IPv6Address) :=
  rt.setField pointer (fun e ↦ { e with nextHop }) .F_NEXTHOP

def setInterface (rt : IPv6RoutingTable) (pointer : ℕ) (interfacePtr : Option ℕ) :=
  rt.setField pointer (fun e ↦ { e with interfacePtr }) .F_IFACE

def setExpiryTime (rt : IPv6RoutingTable) (pointer : ℕ) (expiryTime : SimTime) :=
  rt.setField pointer (fun e ↦ { e with expiryTime }) .F_EXPIRYTIME

def setSourceType (rt : IPv6RoutingTable) (pointer : ℕ) (sourceType : SourceType) :=
  rt.setField pointer (fun e ↦ { e with sourceType }) .F_TYPE

/-- The route for a prefix, in `addOrUpdateOnLinkPrefix` and `addOrUpdateOwnAdvPrefix`. -/
def findPrefix (rt : IPv6RoutingTable) (sourceType : SourceType) (destPrefix : IPv6Address)
    (prefixLength : PrefixLength) : Option RouteEntry :=
  rt.routeList.find? fun e ↦ e.route.sourceType = sourceType ∧ e.route.destPrefix = destPrefix ∧
    e.route.prefixLength = prefixLength

/-- What `addOrUpdateOnLinkPrefix` and `addOrUpdateOwnAdvPrefix` do, each with its own source type.
-/
def addOrUpdatePrefix (rt : IPv6RoutingTable) (sourceType : SourceType) (destPrefix : IPv6Address)
    (prefixLength : PrefixLength) (interfacePtr : Option ℕ) (expiryTime : SimTime) :
    Except RoutingTableError IPv6RoutingTable :=
  match rt.findPrefix sourceType destPrefix prefixLength with
  | none =>
    .ok <| rt.addRoute
      { destPrefix, prefixLength, sourceType, interfacePtr, expiryTime, metric := 0
        adminDist := IPv6Route.dDirectlyConnected }
  | some e => do
    let rt ← rt.setInterface e.pointer interfacePtr
    rt.setExpiryTime e.pointer expiryTime

/-- `IPv6RoutingTable::addOrUpdateOnLinkPrefix`, with the interface for the identifier. -/
def addOrUpdateOnLinkPrefix (rt : IPv6RoutingTable) :=
  rt.addOrUpdatePrefix .ROUTER_ADVERTISEMENT

/-- `IPv6RoutingTable::addOrUpdateOwnAdvPrefix`, with the interface for the identifier. -/
def addOrUpdateOwnAdvPrefix (rt : IPv6RoutingTable) :=
  rt.addOrUpdatePrefix .OWN_ADV_PREFIX

/-- `IPv6RoutingTable::deleteOnLinkPrefix`. -/
def deleteOnLinkPrefix (rt : IPv6RoutingTable) (destPrefix : IPv6Address)
    (prefixLength : PrefixLength) : IPv6RoutingTable :=
  match rt.routeList.findIdx? fun e ↦ e.route.sourceType = .ROUTER_ADVERTISEMENT ∧
    e.route.destPrefix = destPrefix ∧ e.route.prefixLength = prefixLength with
  | some it => rt.internalDeleteRoute it
  | none => rt

/-- `IPv6RoutingTable::addStaticRoute`, with the interface for the identifier. -/
def addStaticRoute (rt : IPv6RoutingTable) (destPrefix : IPv6Address) (prefixLength : PrefixLength)
    (interfacePtr : Option ℕ) (nextHop : IPv6Address) (metric : ℤ) : IPv6RoutingTable :=
  rt.addRoute
    { destPrefix, prefixLength, sourceType := .MANUAL, interfacePtr, nextHop
      metric := if metric = 0 then 10 else metric, adminDist := IPv6Route.dStatic }

/-- `IPv6RoutingTable::addDefaultRoute`, with the interface for the identifier. -/
def addDefaultRoute (rt : IPv6RoutingTable) (nextHop : IPv6Address) (interfacePtr : Option ℕ)
    (routerLifetime : SimTime) : IPv6RoutingTable :=
  rt.addRoute
    { destPrefix := ⟨0, 0, 0, 0⟩, prefixLength := .zero
      sourceType := .ROUTER_ADVERTISEMENT, interfacePtr, nextHop, metric := 10
      adminDist := IPv6Route.dStatic, expiryTime := routerLifetime }

/-- `IPv6RoutingTable::addRoutingProtocolRoute`. -/
def addRoutingProtocolRoute (rt : IPv6RoutingTable) (route : IPv6Route) : IPv6RoutingTable :=
  rt.addRoute route

/-- The routes that satisfy a condition are deleted one after the other. -/
def deleteRoutes (rt : IPv6RoutingTable) (p : IPv6Route → Bool) : IPv6RoutingTable :=
  { rt with routeList := rt.routeList.filter fun e ↦ !p e.route }

/-- `IPv6RoutingTable::deleteDefaultRoutes`. -/
def deleteDefaultRoutes (rt : IPv6RoutingTable) (interfaceID : ℕ) : IPv6RoutingTable :=
  rt.deleteRoutes fun e ↦ e.interfacePtr = some interfaceID ∧ e.prefixLength.1 = 0

/-- `IPv6RoutingTable::deleteAllRoutes`, and what is done when the node is shut down. -/
def deleteAllRoutes (rt : IPv6RoutingTable) : IPv6RoutingTable :=
  { rt with routeList := [] }

/-- `IPv6RoutingTable::deletePrefixes`. -/
def deletePrefixes (rt : IPv6RoutingTable) (interfaceID : ℕ) : IPv6RoutingTable :=
  rt.deleteRoutes fun e ↦ e.interfacePtr = some interfaceID ∧ 0 < e.prefixLength.1

/-- `IPv6RoutingTable::deleteInterfaceRoutes`. -/
def deleteInterfaceRoutes (rt : IPv6RoutingTable) (entry : ℕ) : IPv6RoutingTable :=
  rt.deleteRoutes fun e ↦ e.interfacePtr = some entry

/-- The loop of `doLongestPrefixMatch`, with some number of turns left and the iterator at a
position. -/
def matchLoop (now : SimTime) (dest : IPv6Address) :
    ℕ → IPv6RoutingTable → ℕ → Option (Option RouteEntry × IPv6RoutingTable)
  | 0, _, _ => none
  | n + 1, rt, it =>
    match rt.routeList[it]? with
    | none => some (none, rt)
    | some e =>
      if e.route.Matches dest then
        if e.route.isExpired now then
          if e.route.sourceType = .ROUTER_ADVERTISEMENT then
            matchLoop now dest n (rt.internalDeleteRoute it) it
          else matchLoop now dest n rt it
        else some (some e, rt)
      else matchLoop now dest n rt (it + 1)

/-- `IPv6RoutingTable::doLongestPrefixMatch`, in at most so many turns. -/
def doLongestPrefixMatch (rt : IPv6RoutingTable) (now : SimTime) (dest : IPv6Address) (turns : ℕ) :
    Option (Option RouteEntry × IPv6RoutingTable) :=
  matchLoop now dest turns rt 0

end IPv6RoutingTable

/-- What may happen to a table. -/
inductive RoutingTableCall
  | addRoute (route : IPv6Route)
  | removeRoute (pointer : ℕ)
  | deleteRoute (pointer : ℕ)
  | addOrUpdateOnLinkPrefix (destPrefix : IPv6Address) (prefixLength : PrefixLength)
      (interfacePtr : Option ℕ) (expiryTime : SimTime)
  | addOrUpdateOwnAdvPrefix (destPrefix : IPv6Address) (prefixLength : PrefixLength)
      (interfacePtr : Option ℕ) (expiryTime : SimTime)
  | deleteOnLinkPrefix (destPrefix : IPv6Address) (prefixLength : PrefixLength)
  | addStaticRoute (destPrefix : IPv6Address) (prefixLength : PrefixLength)
      (interfacePtr : Option ℕ) (nextHop : IPv6Address) (metric : ℤ)
  | addDefaultRoute (nextHop : IPv6Address) (interfacePtr : Option ℕ) (routerLifetime : SimTime)
  | addRoutingProtocolRoute (route : IPv6Route)
  | deleteDefaultRoutes (interfaceID : ℕ)
  | deleteAllRoutes
  | deletePrefixes (interfaceID : ℕ)
  | deleteInterfaceRoutes (entry : ℕ)
  | setDestination (pointer : ℕ) (destPrefix : IPv6Address)
  | setPrefixLength (pointer : ℕ) (prefixLength : PrefixLength)
  | setMetric (pointer : ℕ) (metric : ℤ)
  | setNextHop (pointer : ℕ) (nextHop : IPv6Address)
  | setInterface (pointer : ℕ) (interfacePtr : Option ℕ)
  | setExpiryTime (pointer : ℕ) (expiryTime : SimTime)
  | setSourceType (pointer : ℕ) (sourceType : SourceType)
  | doLongestPrefixMatch (now : SimTime) (dest : IPv6Address)

namespace IPv6RoutingTable

/-- What a call makes of the table. A search may not come to an end. -/
def Calls (rt : IPv6RoutingTable) : RoutingTableCall → IPv6RoutingTable → Prop
  | .addRoute route, rt' => rt.addRoute route = rt'
  | .removeRoute pointer, rt' => (rt.removeRoute pointer).2 = rt'
  | .deleteRoute pointer, rt' => (rt.deleteRoute pointer).2 = rt'
  | .addOrUpdateOnLinkPrefix destPrefix prefixLength interfacePtr expiryTime, rt' =>
    rt.addOrUpdateOnLinkPrefix destPrefix prefixLength interfacePtr expiryTime = .ok rt'
  | .addOrUpdateOwnAdvPrefix destPrefix prefixLength interfacePtr expiryTime, rt' =>
    rt.addOrUpdateOwnAdvPrefix destPrefix prefixLength interfacePtr expiryTime = .ok rt'
  | .deleteOnLinkPrefix destPrefix prefixLength, rt' =>
    rt.deleteOnLinkPrefix destPrefix prefixLength = rt'
  | .addStaticRoute destPrefix prefixLength interfacePtr nextHop metric, rt' =>
    rt.addStaticRoute destPrefix prefixLength interfacePtr nextHop metric = rt'
  | .addDefaultRoute nextHop interfacePtr routerLifetime, rt' =>
    rt.addDefaultRoute nextHop interfacePtr routerLifetime = rt'
  | .addRoutingProtocolRoute route, rt' => rt.addRoutingProtocolRoute route = rt'
  | .deleteDefaultRoutes interfaceID, rt' => rt.deleteDefaultRoutes interfaceID = rt'
  | .deleteAllRoutes, rt' => rt.deleteAllRoutes = rt'
  | .deletePrefixes interfaceID, rt' => rt.deletePrefixes interfaceID = rt'
  | .deleteInterfaceRoutes entry, rt' => rt.deleteInterfaceRoutes entry = rt'
  | .setDestination pointer destPrefix, rt' => rt.setDestination pointer destPrefix = .ok rt'
  | .setPrefixLength pointer prefixLength, rt' => rt.setPrefixLength pointer prefixLength = .ok rt'
  | .setMetric pointer metric, rt' => rt.setMetric pointer metric = .ok rt'
  | .setNextHop pointer nextHop, rt' => rt.setNextHop pointer nextHop = .ok rt'
  | .setInterface pointer interfacePtr, rt' => rt.setInterface pointer interfacePtr = .ok rt'
  | .setExpiryTime pointer expiryTime, rt' => rt.setExpiryTime pointer expiryTime = .ok rt'
  | .setSourceType pointer sourceType, rt' => rt.setSourceType pointer sourceType = .ok rt'
  | .doLongestPrefixMatch now dest, rt' =>
    ∃ turns r, rt.doLongestPrefixMatch now dest turns = some (r, rt')

/-- The table as a transition system. -/
def system (useAdminDist : Bool) : TransitionSystem IPv6RoutingTable RoutingTableCall Unit where
  Init rt := rt = { useAdminDist }
  Step rt call _ rt' := rt.Calls call rt'

end IPv6RoutingTable

end Inet.IPv6
