import Inet.Foundations.TransitionSystem
import Inet.NetworkLayer.IPv4Route
import Mathlib.Data.List.Nodup
import Mathlib.Logic.Function.Basic

/-!
# The IPv4 routing table

`IPv4RoutingTable` keeps its routes in the order of `routeLessThan`, so that the first route that
matches an address is a best one, and remembers what it has found in a cache. A route that is in the
table may be changed; the setters report what they change, and `routeChanged` puts a route whose
destination, netmask or metric has changed into its new place.

A change of the administrative distance does not move the route. As long as none of these calls
disturbs the order, every look-up finds a best route (`findBestMatchingRoute_isBest`).

An object is known by its address, which is not used again.
-/

namespace Inet

open SortedScan

/-- `class IPv4InterfaceData`, as far as the table uses it. -/
structure IPv4InterfaceData where
  ipAddress : IPv4Address
  netmask : IPv4Address
  metric : ℤ
  deriving DecidableEq, Repr

/-- An entry of the interface table. -/
structure InterfaceEntry where
  id : ℕ
  fullName : String
  ipv4Data : Option IPv4InterfaceData
  deriving DecidableEq, Repr

/-- A route object, at its address. -/
structure RouteEntry where
  pointer : ℕ
  route : IPv4Route
  deriving DecidableEq, Repr

/-- `class IPv4RoutingTable`: the part for unicast routes. `netmaskRoutes` is the pattern matcher
that is made of the parameter. -/
structure IPv4RoutingTable where
  routes : List RouteEntry := []
  routingCache : IPv4Address → Option (Option ℕ) := fun _ ↦ none
  useAdminDist : Bool
  netmaskRoutes : String → Bool
  nextPointer : ℕ := 0

/-- What is thrown. -/
inductive RoutingTableError
  | wrongNetmask (netmask : IPv4Address)
  | destinationIsZeroInsideNetmask (dest netmask : IPv4Address)
  | destinationHasBitsOutsideNetmask (dest netmask : IPv4Address)
  | interfaceIsNullptr
  | routeNotInTable
  | danglingPointer (pointer : ℕ)
  deriving DecidableEq, Repr

namespace IPv4RoutingTable

open IPv4Address (getNetmaskLength IsValidNetmask)

/-- The object at an address. -/
def find (rt : IPv4RoutingTable) (pointer : ℕ) : Option RouteEntry :=
  rt.routes.find? fun e ↦ e.pointer = pointer

/-- `IPv4RoutingTable::invalidateCache`. -/
def invalidateCache (rt : IPv4RoutingTable) : IPv4RoutingTable :=
  { rt with routingCache := fun _ ↦ none }

/-- The loop of `findBestMatchingRoute`. -/
def firstMatch (rt : IPv4RoutingTable) (dest : IPv4Address) : Option RouteEntry :=
  rt.routes.find? fun e ↦ e.route.Matches dest

/-- A look-up is remembered. -/
def remember (rt : IPv4RoutingTable) (dest : IPv4Address) (bestRoute : Option RouteEntry) :
    IPv4RoutingTable :=
  let cached := bestRoute.map RouteEntry.pointer
  { rt with routingCache := Function.update rt.routingCache dest (some cached) }

/-- `IPv4RoutingTable::findBestMatchingRoute`. -/
def findBestMatchingRoute (rt : IPv4RoutingTable) (dest : IPv4Address) :
    Except RoutingTableError (Option RouteEntry × IPv4RoutingTable) :=
  let search := (rt.firstMatch dest, rt.remember dest (rt.firstMatch dest))
  match rt.routingCache dest with
  | some none => .ok (none, rt)
  | some (some pointer) =>
    match rt.find pointer with
    | some e => if e.route.isValid then .ok (some e, rt) else .ok search
    | none => .error (.danglingPointer pointer)
  | none => .ok search

/-- `IPv4RoutingTable::getDefaultRoute`. -/
def getDefaultRoute (rt : IPv4RoutingTable) : Option RouteEntry :=
  (rt.routes.reverse.takeWhile fun e ↦ e.route.netmask = 0).find? fun e ↦ e.route.isValid

/-- `IPv4RoutingTable::internalRemoveRoute`. -/
def internalRemoveRoute (rt : IPv4RoutingTable) (pointer : ℕ) :
    Option RouteEntry × IPv4RoutingTable :=
  (rt.find pointer, { rt with routes := rt.routes.eraseP fun e ↦ e.pointer = pointer })

/-- `IPv4RoutingTable::removeRoute`. The route that is returned belongs to the caller. -/
def removeRoute (rt : IPv4RoutingTable) (pointer : ℕ) : Option RouteEntry × IPv4RoutingTable :=
  match rt.internalRemoveRoute pointer with
  | (some e, rt) => (some e, rt.invalidateCache)
  | (none, rt) => (none, rt)

/-- `IPv4RoutingTable::deleteRoute`. -/
def deleteRoute (rt : IPv4RoutingTable) (pointer : ℕ) : Option RouteEntry × IPv4RoutingTable :=
  rt.removeRoute pointer

/-- A row is inserted at its upper bound. -/
def insertEntry (rt : IPv4RoutingTable) (e : RouteEntry) : IPv4RoutingTable :=
  { rt with routes := insertRow (fun e' ↦ e.route.routeLessThan rt.useAdminDist e'.route) e rt.routes }

/-- `IPv4RoutingTable::internalAddRoute`. -/
def internalAddRoute (rt : IPv4RoutingTable) (e : RouteEntry) :
    Except RoutingTableError IPv4RoutingTable :=
  let entry := e.route
  if ¬ IsValidNetmask entry.netmask then .error (.wrongNetmask entry.netmask)
  else if entry.netmask ≠ 0 ∧ entry.dest &&& entry.netmask = 0 then
    .error (.destinationIsZeroInsideNetmask entry.dest entry.netmask)
  else if entry.dest &&& ~~~entry.netmask ≠ 0 then
    .error (.destinationHasBitsOutsideNetmask entry.dest entry.netmask)
  else if entry.interfacePtr = none then .error .interfaceIsNullptr
  else
    -- a new default route takes the place of the old one
    let replaced := match rt.getDefaultRoute with
      | some oldDefaultRoute => (rt.deleteRoute oldDefaultRoute.pointer).2
      | none => rt
    .ok ((if entry.netmask = 0 then replaced else rt).insertEntry e)

/-- `IPv4RoutingTable::addRoute`, with a route that belongs to the caller. -/
def addRoute (rt : IPv4RoutingTable) (entry : IPv4Route) : Except RoutingTableError IPv4RoutingTable :=
  ({ rt with nextPointer := rt.nextPointer + 1 }.internalAddRoute ⟨rt.nextPointer, entry⟩).map
    invalidateCache

/-- `IPv4RoutingTable::routeChanged`. -/
def routeChanged (rt : IPv4RoutingTable) (pointer : ℕ) (fieldCode : ChangeCodes) :
    Except RoutingTableError IPv4RoutingTable :=
  if fieldCode = .F_DESTINATION ∨ fieldCode = .F_PREFIX_LENGTH ∨ fieldCode = .F_METRIC then
    match rt.internalRemoveRoute pointer with
    | (some e, rt) => (rt.internalAddRoute e).map invalidateCache
    | (none, _) => .error .routeNotInTable
  else .ok rt

/-- A route of the table is changed in place. -/
def modify (rt : IPv4RoutingTable) (pointer : ℕ) (f : IPv4Route → IPv4Route) : IPv4RoutingTable :=
  { rt with routes := rt.routes.map fun e ↦ if e.pointer = pointer then ⟨pointer, f e.route⟩ else e }

/-- A setter of `IPv4Route`: a change is reported to the table that the route is in. -/
def setField (rt : IPv4RoutingTable) (pointer : ℕ) (f : IPv4Route → IPv4Route)
    (fieldCode : ChangeCodes) : Except RoutingTableError IPv4RoutingTable :=
  match rt.find pointer with
  | some e => if f e.route = e.route then .ok rt else (rt.modify pointer f).routeChanged pointer fieldCode
  | none => .ok rt

def setDestination (rt : IPv4RoutingTable) (pointer : ℕ) (dest : IPv4Address) :=
  rt.setField pointer (fun e ↦ { e with dest }) .F_DESTINATION

def setNetmask (rt : IPv4RoutingTable) (pointer : ℕ) (netmask : IPv4Address) :=
  rt.setField pointer (fun e ↦ { e with netmask }) .F_PREFIX_LENGTH

def setGateway (rt : IPv4RoutingTable) (pointer : ℕ) (gateway : IPv4Address) :=
  rt.setField pointer (fun e ↦ { e with gateway }) .F_NEXTHOP

def setInterface (rt : IPv4RoutingTable) (pointer : ℕ) (interfacePtr : Option ℕ) :=
  rt.setField pointer (fun e ↦ { e with interfacePtr }) .F_IFACE

def setSourceType (rt : IPv4RoutingTable) (pointer : ℕ) (sourceType : SourceType) :=
  rt.setField pointer (fun e ↦ { e with sourceType }) .F_SOURCE

def setAdminDist (rt : IPv4RoutingTable) (pointer : ℕ) (adminDist : ℕ) :=
  rt.setField pointer (fun e ↦ { e with adminDist }) .F_ADMINDIST

def setMetric (rt : IPv4RoutingTable) (pointer : ℕ) (metric : ℤ) :=
  rt.setField pointer (fun e ↦ { e with metric }) .F_METRIC

def setSource (rt : IPv4RoutingTable) (pointer : ℕ) (source : Option ℕ) :=
  rt.setField pointer (fun e ↦ { e with source }) .F_SOURCE

/-- The routes that satisfy a condition are deleted; the cache is flushed if there are any. -/
def deleteRoutes (rt : IPv4RoutingTable) (p : IPv4Route → Bool) : IPv4RoutingTable :=
  let kept := { rt with routes := rt.routes.filter fun e ↦ !p e.route }
  if rt.routes.any fun e ↦ p e.route then kept.invalidateCache else kept

/-- `IPv4RoutingTable::purge`. -/
def purge (rt : IPv4RoutingTable) : IPv4RoutingTable :=
  rt.deleteRoutes fun e ↦ !e.isValid

/-- `IPv4RoutingTable::deleteInterfaceRoutes`. -/
def deleteInterfaceRoutes (rt : IPv4RoutingTable) (entry : ℕ) : IPv4RoutingTable :=
  rt.deleteRoutes fun e ↦ e.interfacePtr = some entry

/-- The route for the subnet of an interface. -/
def netmaskRoute (ie : InterfaceEntry) (data : IPv4InterfaceData) : IPv4Route where
  sourceType := .IFACENETMASK
  source := some ie.id
  dest := data.ipAddress &&& data.netmask
  netmask := data.netmask
  adminDist := 0
  metric := data.metric
  interfacePtr := some ie.id

/-- The turn of the second loop of `updateNetmaskRoutes` for an interface. -/
def addNetmaskRoute (rt : IPv4RoutingTable) (ie : InterfaceEntry) : IPv4RoutingTable :=
  match ie.ipv4Data with
  | some data =>
    if rt.netmaskRoutes ie.fullName ∧ data.netmask ≠ 0xffffffff then
      { rt with nextPointer := rt.nextPointer + 1 }.insertEntry ⟨rt.nextPointer, netmaskRoute ie data⟩
    else rt
  | none => rt

/-- `IPv4RoutingTable::updateNetmaskRoutes`, with the interface table as it is. -/
def updateNetmaskRoutes (rt : IPv4RoutingTable) (ift : List InterfaceEntry) : IPv4RoutingTable :=
  let kept := rt.routes.filter fun e ↦ e.route.sourceType ≠ .IFACENETMASK
  (ift.foldl addNetmaskRoute { rt with routes := kept }).invalidateCache

end IPv4RoutingTable

/-- What may happen to a table. Routes of derived classes may expire by themselves. -/
inductive RoutingTableCall
  | addRoute (entry : IPv4Route)
  | removeRoute (pointer : ℕ)
  | deleteRoute (pointer : ℕ)
  | setDestination (pointer : ℕ) (dest : IPv4Address)
  | setNetmask (pointer : ℕ) (netmask : IPv4Address)
  | setGateway (pointer : ℕ) (gateway : IPv4Address)
  | setInterface (pointer : ℕ) (interfacePtr : Option ℕ)
  | setSourceType (pointer : ℕ) (sourceType : SourceType)
  | setAdminDist (pointer : ℕ) (adminDist : ℕ)
  | setMetric (pointer : ℕ) (metric : ℤ)
  | setSource (pointer : ℕ) (source : Option ℕ)
  | updateNetmaskRoutes (ift : List InterfaceEntry)
  | purge
  | deleteInterfaceRoutes (entry : ℕ)
  | interfaceChanged
  | expire (pointer : ℕ)
  | findBestMatchingRoute (dest : IPv4Address)

namespace IPv4RoutingTable

open IPv4Address (getNetmaskLength IsValidNetmask)

/-- A call, and the route that it returns. -/
def call (rt : IPv4RoutingTable) :
    RoutingTableCall → Except RoutingTableError (Option RouteEntry × IPv4RoutingTable)
  | .addRoute entry => (rt.addRoute entry).map (none, ·)
  | .removeRoute pointer => .ok (rt.removeRoute pointer)
  | .deleteRoute pointer => .ok (none, (rt.deleteRoute pointer).2)
  | .setDestination pointer dest => (rt.setDestination pointer dest).map (none, ·)
  | .setNetmask pointer netmask => (rt.setNetmask pointer netmask).map (none, ·)
  | .setGateway pointer gateway => (rt.setGateway pointer gateway).map (none, ·)
  | .setInterface pointer interfacePtr => (rt.setInterface pointer interfacePtr).map (none, ·)
  | .setSourceType pointer sourceType => (rt.setSourceType pointer sourceType).map (none, ·)
  | .setAdminDist pointer adminDist => (rt.setAdminDist pointer adminDist).map (none, ·)
  | .setMetric pointer metric => (rt.setMetric pointer metric).map (none, ·)
  | .setSource pointer source => (rt.setSource pointer source).map (none, ·)
  | .updateNetmaskRoutes ift => .ok (none, rt.updateNetmaskRoutes ift)
  | .purge => .ok (none, rt.purge)
  | .deleteInterfaceRoutes entry => .ok (none, rt.deleteInterfaceRoutes entry)
  | .interfaceChanged => .ok (none, rt.invalidateCache)
  | .expire pointer => .ok (none, rt.modify pointer fun e ↦ { e with isValid := false })
  | .findBestMatchingRoute dest => rt.findBestMatchingRoute dest

/-- The table as a transition system. -/
def system : TransitionSystem IPv4RoutingTable RoutingTableCall (Option RouteEntry) where
  Init rt := rt.routes = [] ∧ rt.routingCache = fun _ ↦ none
  Step rt call o rt' := rt.call call = .ok (o, rt')

/-! ### The order of the routes -/

/-- The routes are in order, each as `internalAddRoute` demands it, and at an address of its own. -/
structure InOrder (rt : IPv4RoutingTable) : Prop where
  ordered : Ordered (fun e ↦ e.route.key rt.useAdminDist) rt.routes
  wellFormed : ∀ e ∈ rt.routes, e.route.WellFormed
  nodup : (rt.routes.map RouteEntry.pointer).Nodup
  lt : ∀ e ∈ rt.routes, e.pointer < rt.nextPointer

variable {rt rt' : IPv4RoutingTable} {e : RouteEntry} {pointer : ℕ} {f : IPv4Route → IPv4Route}
  {dest : IPv4Address}

theorem find_some (h : rt.find pointer = some e) : e ∈ rt.routes ∧ e.pointer = pointer :=
  ⟨List.mem_of_find?_eq_some h, by simpa using List.find?_some h⟩

namespace InOrder

theorem find_eq (h : InOrder rt) (he : e ∈ rt.routes) : rt.find e.pointer = some e := by
  obtain ⟨e', hfind⟩ : ∃ e', rt.find e.pointer = some e' := by
    rw [← Option.isSome_iff_exists, find, List.find?_isSome]
    exact ⟨e, he, by simp⟩
  obtain ⟨he', heq⟩ := find_some hfind
  rw [hfind, List.inj_on_of_nodup_map h.nodup he' he heq]

/-- Routes may be taken out. -/
theorem sublist (h : InOrder rt) {routes : List RouteEntry} (hsub : routes.Sublist rt.routes) :
    InOrder { rt with routes } where
  ordered := h.ordered.sublist hsub
  wellFormed e he := h.wellFormed e (hsub.subset he)
  nodup := List.Nodup.sublist (hsub.map _) h.nodup
  lt e he := h.lt e (hsub.subset he)

/-- A route may be put in. -/
theorem insertEntry (h : InOrder rt) (he : e.route.WellFormed) (hlt : e.pointer < rt.nextPointer)
    (hnew : ∀ e' ∈ rt.routes, e'.pointer ≠ e.pointer) : InOrder (rt.insertEntry e) := by
  obtain ⟨hordered, hperm⟩ := Ordered.insertRow (a := e) h.ordered
    (p := fun e' ↦ e.route.routeLessThan rt.useAdminDist e'.route) fun e' ↦ IPv4Route.routeLessThan_iff
  have hmem {e' : RouteEntry} : e' ∈ (rt.insertEntry e).routes ↔ e' = e ∨ e' ∈ rt.routes :=
    hperm.mem_iff.trans List.mem_cons
  refine ⟨hordered, fun e' he' ↦ ?_, ?_, fun e' he' ↦ ?_⟩
  · rcases hmem.1 he' with rfl | he'
    exacts [he, h.wellFormed e' he']
  · refine (hperm.map RouteEntry.pointer).nodup_iff.2 (List.nodup_cons.2 ⟨fun hin ↦ ?_, h.nodup⟩)
    obtain ⟨e', he', heq⟩ := List.mem_map.1 hin
    exact hnew e' he' heq
  · rcases hmem.1 he' with rfl | he'
    exacts [hlt, h.lt e' he']

/-- When a route has been taken out, its address is free. -/
theorem pointer_ne (h : InOrder rt) (pointer : ℕ) :
    ∀ e ∈ rt.routes.eraseP (fun e ↦ e.pointer = pointer), e.pointer ≠ pointer := by
  intro e he heq
  have hmem : pointer ∈ (rt.routes.map RouteEntry.pointer).erase pointer := by
    rw [List.erase_eq_eraseP', List.eraseP_map]
    have hp : (fun x ↦ x == pointer) ∘ RouteEntry.pointer =
        fun e : RouteEntry ↦ decide (e.pointer = pointer) := rfl
    rw [hp]
    exact List.mem_map.2 ⟨e, he, heq⟩
  exact h.nodup.not_mem_erase hmem

theorem invalidateCache (h : InOrder rt) : InOrder rt.invalidateCache :=
  ⟨h.1, h.2, h.3, h.4⟩

theorem removeRoute (h : InOrder rt) (pointer : ℕ) : InOrder (rt.removeRoute pointer).2 := by
  have herased := h.sublist (List.eraseP_sublist (p := fun e ↦ e.pointer = pointer))
  rw [IPv4RoutingTable.removeRoute, internalRemoveRoute]
  cases rt.find pointer with
  | none => exact herased
  | some e => exact herased.invalidateCache

/-- What `internalAddRoute` accepts may be put in. -/
theorem internalAddRoute (h : InOrder rt) (hlt : e.pointer < rt.nextPointer)
    (hnew : ∀ e' ∈ rt.routes, e'.pointer ≠ e.pointer) (hok : rt.internalAddRoute e = .ok rt') :
    InOrder rt' := by
  have hdeleted (hwell : e.route.WellFormed) (old : RouteEntry) :
      InOrder (((rt.deleteRoute old.pointer).2).insertEntry e) := by
    have hsub : (rt.deleteRoute old.pointer).2.routes.Sublist rt.routes ∧
        (rt.deleteRoute old.pointer).2.nextPointer = rt.nextPointer := by
      rw [IPv4RoutingTable.deleteRoute, IPv4RoutingTable.removeRoute, internalRemoveRoute]
      cases rt.find old.pointer <;> exact ⟨List.eraseP_sublist, rfl⟩
    exact (h.removeRoute old.pointer).insertEntry hwell (hsub.2 ▸ hlt)
      fun e' he' ↦ hnew e' (hsub.1.subset he')
  rw [IPv4RoutingTable.internalAddRoute] at hok
  simp only at hok
  split_ifs at hok with hmask hzero hinside hinterface
  · have hwell : e.route.WellFormed := ⟨hmask, not_not.1 hinside⟩
    obtain rfl := Except.ok.inj hok
    cases rt.getDefaultRoute with
    | none => exact h.insertEntry hwell hlt hnew
    | some old => exact hdeleted hwell old
  · obtain rfl := Except.ok.inj hok
    exact h.insertEntry ⟨hmask, not_not.1 hinside⟩ hlt hnew

/-- A new object may be put in. -/
theorem addNetmaskRoute (h : InOrder rt) {ie : InterfaceEntry}
    (hvalid : ∀ data ∈ ie.ipv4Data, IsValidNetmask data.netmask) :
    InOrder (rt.addNetmaskRoute ie) := by
  rw [IPv4RoutingTable.addNetmaskRoute]
  cases hdata : ie.ipv4Data with
  | none => exact h
  | some data =>
    simp only
    split_ifs
    · have hnext : InOrder { rt with nextPointer := rt.nextPointer + 1 } :=
        ⟨h.1, h.2, h.3, fun e he ↦ (h.lt e he).trans (Nat.lt_succ_self _)⟩
      refine hnext.insertEntry ⟨hvalid data hdata, ?_⟩ (Nat.lt_succ_self _) fun e he ↦ (h.lt e he).ne
      show data.ipAddress &&& data.netmask &&& ~~~data.netmask = 0
      rw [UInt32.and_assoc, UInt32.and_not_self, UInt32.and_zero]
    · exact h

theorem updateNetmaskRoutes (h : InOrder rt) {ift : List InterfaceEntry}
    (hvalid : ∀ ie ∈ ift, ∀ data ∈ ie.ipv4Data, IsValidNetmask data.netmask) :
    InOrder (rt.updateNetmaskRoutes ift) := by
  rw [IPv4RoutingTable.updateNetmaskRoutes]
  refine InOrder.invalidateCache ?_
  have hkept := h.sublist (List.filter_sublist (p := fun e ↦ e.route.sourceType ≠ .IFACENETMASK))
  generalize { rt with routes := _ } = kept at hkept ⊢
  induction ift generalizing kept with
  | nil => exact hkept
  | cons ie ift ih =>
    rw [List.forall_mem_cons] at hvalid
    exact ih hvalid.2 _ (hkept.addNetmaskRoute hvalid.1)

end InOrder

/-! ### The cache -/

/-- The cache holds what the scan has found. -/
structure Inv (rt : IPv4RoutingTable) : Prop extends InOrder rt where
  cached : ∀ dest r, rt.routingCache dest = some r → ∃ found,
    Remembers (fun e ↦ e.route.Matches dest) rt.routes found ∧ found.map RouteEntry.pointer = r ∧
      ∀ e ∈ found, IPv4Address.maskedAddrAreEqual dest e.route.dest e.route.netmask = true

theorem InOrder.inv (h : InOrder rt) (hempty : rt.routingCache = fun _ ↦ none) : Inv rt :=
  ⟨h, fun dest r hr ↦ by simp [hempty] at hr⟩

namespace Inv

/-- **A look-up** finds the first match, whether it was cached or not. -/
theorem findBestMatchingRoute (h : Inv rt) (dest : IPv4Address) :
    ∃ rt', rt.findBestMatchingRoute dest = .ok (rt.firstMatch dest, rt') ∧ Inv rt' := by
  have hsearch : Inv (rt.remember dest (rt.firstMatch dest)) := by
    refine ⟨⟨h.1.1, h.1.2, h.1.3, h.1.4⟩, fun dest' r hr ↦ ?_⟩
    have hr' : Function.update rt.routingCache dest
        (some ((rt.firstMatch dest).map RouteEntry.pointer)) dest' = some r := hr
    by_cases hdest : dest' = dest
    · subst hdest
      rw [Function.update_self, Option.some_inj] at hr'
      refine ⟨rt.firstMatch dest', remembers_find? _ _, hr', fun e he ↦ ?_⟩
      have hmatch : e.route.Matches dest' = true := List.find?_some (p := fun e : RouteEntry ↦
        e.route.Matches dest') he
      exact ((Bool.and_eq_true _ _).mp hmatch).2
    · rw [Function.update_of_ne hdest] at hr'
      exact h.cached dest' r hr'
  rw [IPv4RoutingTable.findBestMatchingRoute]
  cases hcache : rt.routingCache dest with
  | none => exact ⟨_, rfl, hsearch⟩
  | some r =>
    obtain ⟨found, hfound, rfl, hmatch⟩ := h.cached dest r hcache
    cases found with
    | none => exact ⟨rt, by rw [firstMatch, hfound.find? (by simp)]; rfl, h⟩
    | some e =>
      have he : e ∈ rt.routes := by
        obtain ⟨l₁, l₂, heq, -⟩ := hfound
        rw [heq]
        simp
      simp only [Option.map_some, h.find_eq he]
      split_ifs with hvalid
      · refine ⟨rt, ?_, h⟩
        have hmatches : e.route.Matches dest = true := by
          rw [IPv4Route.Matches, hvalid, hmatch e rfl]
          rfl
        rw [firstMatch, hfound.find? (by simpa using hmatches)]
      · exact ⟨_, rfl, hsearch⟩

/-- A change in place that keeps the order, the destination and the netmask. -/
theorem modify (h : Inv rt) (hdest : ∀ r, (f r).dest = r.dest)
    (hnetmask : ∀ r, (f r).netmask = r.netmask)
    (hvalid : ∀ r, (f r).isValid = true → r.isValid = true)
    (hordered : Ordered (fun e ↦ e.route.key rt.useAdminDist) (rt.modify pointer f).routes) :
    Inv (rt.modify pointer f) := by
  let g := fun e : RouteEntry ↦ if e.pointer = pointer then ⟨pointer, f e.route⟩ else e
  have hg (e : RouteEntry) : (g e).pointer = e.pointer ∧ (g e).route.dest = e.route.dest ∧
      (g e).route.netmask = e.route.netmask ∧
      ((g e).route.isValid = true → e.route.isValid = true) := by
    simp only [g]
    split_ifs with heq
    exacts [⟨heq.symm, hdest _, hnetmask _, hvalid _⟩, ⟨rfl, rfl, rfl, id⟩]
  have hroutes : (rt.modify pointer f).routes = rt.routes.map g := rfl
  refine ⟨⟨hordered, ?_, ?_, ?_⟩, ?_⟩
  · rw [hroutes, List.forall_mem_map]
    intro e he
    have hwell := h.wellFormed e he
    exact ⟨by rw [(hg e).2.2.1]; exact hwell.1, by rw [(hg e).2.1, (hg e).2.2.1]; exact hwell.2⟩
  · rw [hroutes, List.map_map, show RouteEntry.pointer ∘ g = RouteEntry.pointer from
      funext fun e ↦ (hg e).1]
    exact h.nodup
  · rw [hroutes, List.forall_mem_map]
    exact fun e he ↦ (hg e).1 ▸ h.lt e he
  · intro dest r hr
    obtain ⟨found, hfound, rfl, hmatch⟩ := h.cached dest r hr
    refine ⟨found.map g, hfound.map fun e _ hmatches ↦ ?_, ?_, ?_⟩
    · have hmatches' : (g e).route.Matches dest = true := hmatches
      rw [IPv4Route.Matches, (hg e).2.1, (hg e).2.2.1, Bool.and_eq_true] at hmatches'
      rw [IPv4Route.Matches, Bool.and_eq_true]
      exact ⟨(hg e).2.2.2 hmatches'.1, hmatches'.2⟩
    · rw [Option.map_map]
      exact congrArg (fun g' ↦ found.map g') (funext fun e ↦ (hg e).1)
    · intro e he
      obtain ⟨e', he', rfl⟩ := Option.mem_map.1 he
      rw [(hg e').2.1, (hg e').2.2.1]
      exact hmatch e' he'

/-- Deleting routes flushes the cache. -/
theorem deleteRoutes (h : Inv rt) (p : IPv4Route → Bool) : Inv (rt.deleteRoutes p) := by
  rw [IPv4RoutingTable.deleteRoutes]
  split_ifs with hany
  · exact (h.sublist List.filter_sublist).invalidateCache.inv rfl
  · have hkept : rt.routes.filter (fun e ↦ !p e.route) = rt.routes := by
      rw [List.filter_eq_self]
      simpa using hany
    rw [hkept]
    exact h

theorem removeRoute (h : Inv rt) (pointer : ℕ) : Inv (rt.removeRoute pointer).2 := by
  have hinOrder := h.toInOrder.removeRoute pointer
  rw [IPv4RoutingTable.removeRoute, internalRemoveRoute] at hinOrder ⊢
  cases hfind : rt.find pointer with
  | none =>
    have hnone : rt.routes.eraseP (fun e ↦ e.pointer = pointer) = rt.routes :=
      List.eraseP_of_forall_not (by simpa [find] using hfind)
    simp only [hnone]
    exact h
  | some e =>
    rw [hfind] at hinOrder
    exact hinOrder.inv rfl

/-- **A setter** keeps the invariant: the route is taken out and put in again, or its place is still
right. -/
theorem setField (h : Inv rt) {fieldCode : ChangeCodes}
    (hok : rt.setField pointer f fieldCode = .ok rt')
    (hstay : ¬ (fieldCode = .F_DESTINATION ∨ fieldCode = .F_PREFIX_LENGTH ∨ fieldCode = .F_METRIC) →
      Inv (rt.modify pointer f)) : Inv rt' := by
  rw [IPv4RoutingTable.setField] at hok
  cases hfind : rt.find pointer with
  | none =>
    rw [hfind] at hok
    exact Except.ok.inj hok ▸ h
  | some e =>
    rw [hfind] at hok
    simp only at hok
    split_ifs at hok with hsame
    · exact Except.ok.inj hok ▸ h
    rw [routeChanged] at hok
    split_ifs at hok with hmoves
    · obtain ⟨he, rfl⟩ := find_some hfind
      let g := fun e' : RouteEntry ↦ if e'.pointer = e.pointer then ⟨e.pointer, f e'.route⟩ else e'
      have hg : (fun e' : RouteEntry ↦ decide (e'.pointer = e.pointer)) ∘ g =
          fun e' ↦ decide (e'.pointer = e.pointer) := by
        funext e'
        simp only [g, Function.comp_apply]
        split_ifs with heq <;> simp [heq]
      -- without the route, the table is what it was before the change
      have herase : (rt.routes.map g).eraseP (fun e' ↦ e'.pointer = e.pointer) =
          rt.routes.eraseP fun e' ↦ e'.pointer = e.pointer := by
        rw [List.eraseP_map, hg]
        refine (List.map_congr_left fun e' he' ↦ ?_).trans (List.map_id _)
        exact if_neg (h.pointer_ne e.pointer e' he')
      have hchanged : (rt.modify e.pointer f).find e.pointer = some ⟨e.pointer, f e.route⟩ := by
        have hfind' : (rt.routes.find? fun e' ↦ e'.pointer = e.pointer) = some e := hfind
        show (rt.routes.map g).find? _ = _
        rw [List.find?_map, hg, hfind', Option.map_some]
        exact congrArg some (if_pos rfl)
      simp only [internalRemoveRoute, hchanged] at hok
      obtain ⟨rt₁, hadd, rfl⟩ := exists_of_map_eq_ok hok
      have herased := h.sublist (List.eraseP_sublist (p := fun e' ↦ e'.pointer = e.pointer))
      rw [← herase] at herased
      refine (InOrder.internalAddRoute (e := ⟨e.pointer, f e.route⟩) herased (h.lt e he) ?_
        hadd).invalidateCache.inv rfl
      show ∀ e' ∈ (rt.routes.map g).eraseP _, e'.pointer ≠ e.pointer
      rw [herase]
      exact h.pointer_ne e.pointer
    · exact Except.ok.inj hok ▸ hstay hmoves

end Inv

/-! ### Runs -/

/-- The calls that keep the order: a change of an administrative distance leaves the route in its
place, and the netmasks of interfaces are netmasks. -/
def Keeps (rt : IPv4RoutingTable) : RoutingTableCall → Prop
  | .setAdminDist pointer adminDist => Ordered (fun e ↦ e.route.key rt.useAdminDist)
      (rt.modify pointer fun e ↦ { e with adminDist }).routes
  | .updateNetmaskRoutes ift => ∀ ie ∈ ift, ∀ data ∈ ie.ipv4Data, IsValidNetmask data.netmask
  | _ => True

/-- A change in place that the order does not depend on. -/
theorem Inv.modify_of_key_eq (h : Inv rt) (hdest : ∀ r, (f r).dest = r.dest)
    (hnetmask : ∀ r, (f r).netmask = r.netmask)
    (hvalid : ∀ r, (f r).isValid = true → r.isValid = true)
    (hkey : ∀ r, (f r).key rt.useAdminDist = r.key rt.useAdminDist) :
    Inv (rt.modify pointer f) := by
  refine h.modify hdest hnetmask hvalid (h.ordered.map fun e _ ↦ ?_)
  split_ifs
  exacts [hkey _, rfl]

/-- **One call** keeps the routes in order and the cache right. -/
theorem Inv.call (h : Inv rt) {call : RoutingTableCall} (hkeeps : rt.Keeps call)
    {o : Option RouteEntry} (hok : rt.call call = .ok (o, rt')) : Inv rt' := by
  have hset {x : Except RoutingTableError IPv4RoutingTable}
      (hx : x.map (none, ·) = .ok (o, rt')) : x = .ok rt' := by
    obtain ⟨rt₁, heq, hpair⟩ := exists_of_map_eq_ok hx
    exact heq.trans (congrArg Except.ok (Prod.ext_iff.1 hpair).2)
  cases call with
  | addRoute entry =>
    obtain ⟨rt₁, hadd, rfl⟩ := exists_of_map_eq_ok (hset hok)
    have hnext : InOrder { rt with nextPointer := rt.nextPointer + 1 } :=
      ⟨h.1.1, h.1.2, h.1.3, fun e he ↦ (h.lt e he).trans (Nat.lt_succ_self _)⟩
    exact (hnext.internalAddRoute (e := ⟨rt.nextPointer, entry⟩) (Nat.lt_succ_self _)
      (fun e he ↦ (h.lt e he).ne) hadd).invalidateCache.inv rfl
  | removeRoute pointer =>
    have hremoved := h.removeRoute pointer
    rw [Except.ok.inj hok] at hremoved
    exact hremoved
  | deleteRoute pointer =>
    obtain rfl := (Prod.ext_iff.1 (Except.ok.inj hok)).2
    exact h.removeRoute pointer
  | setDestination pointer dest => exact h.setField (hset hok) fun hnot ↦ absurd (.inl rfl) hnot
  | setNetmask pointer netmask =>
    exact h.setField (hset hok) fun hnot ↦ absurd (.inr (.inl rfl)) hnot
  | setMetric pointer metric =>
    exact h.setField (hset hok) fun hnot ↦ absurd (.inr (.inr rfl)) hnot
  | setGateway pointer gateway =>
    exact h.setField (hset hok) fun _ ↦ h.modify_of_key_eq (fun _ ↦ rfl) (fun _ ↦ rfl)
      (fun _ ↦ id) fun _ ↦ rfl
  | setInterface pointer interfacePtr =>
    exact h.setField (hset hok) fun _ ↦ h.modify_of_key_eq (fun _ ↦ rfl) (fun _ ↦ rfl)
      (fun _ ↦ id) fun _ ↦ rfl
  | setSourceType pointer sourceType =>
    exact h.setField (hset hok) fun _ ↦ h.modify_of_key_eq (fun _ ↦ rfl) (fun _ ↦ rfl)
      (fun _ ↦ id) fun _ ↦ rfl
  | setSource pointer source =>
    exact h.setField (hset hok) fun _ ↦ h.modify_of_key_eq (fun _ ↦ rfl) (fun _ ↦ rfl)
      (fun _ ↦ id) fun _ ↦ rfl
  | setAdminDist pointer adminDist =>
    exact h.setField (hset hok) fun _ ↦ h.modify (fun _ ↦ rfl) (fun _ ↦ rfl) (fun _ ↦ id) hkeeps
  | updateNetmaskRoutes ift =>
    obtain rfl := (Prod.ext_iff.1 (Except.ok.inj hok)).2
    exact (h.toInOrder.updateNetmaskRoutes hkeeps).inv rfl
  | purge =>
    obtain rfl : rt.purge = rt' := (Prod.ext_iff.1 (Except.ok.inj hok)).2
    exact h.deleteRoutes _
  | deleteInterfaceRoutes entry =>
    obtain rfl : rt.deleteInterfaceRoutes entry = rt' := (Prod.ext_iff.1 (Except.ok.inj hok)).2
    exact h.deleteRoutes _
  | interfaceChanged =>
    obtain rfl := (Prod.ext_iff.1 (Except.ok.inj hok)).2
    exact h.toInOrder.invalidateCache.inv rfl
  | expire pointer =>
    obtain rfl : (rt.modify pointer fun e ↦ { e with isValid := false }) = rt' :=
      (Prod.ext_iff.1 (Except.ok.inj hok)).2
    exact h.modify_of_key_eq (fun _ ↦ rfl) (fun _ ↦ rfl)
      (fun _ hfalse ↦ absurd hfalse Bool.false_ne_true) fun _ ↦ rfl
  | findBestMatchingRoute dest =>
    obtain ⟨rt₁, heq, hinv⟩ := h.findBestMatchingRoute dest
    obtain rfl := (Prod.ext_iff.1 (Except.ok.inj (heq.symm.trans hok))).2
    exact hinv

theorem Inv.run {tr : List (Transition IPv4RoutingTable RoutingTableCall (Option RouteEntry))}
    (h : system.Run tr rt) (hkeeps : ∀ t ∈ tr, t.pre.Keeps t.input) : Inv rt := by
  induction h with
  | nil hinit =>
    refine InOrder.inv ⟨?_, ?_, ?_, ?_⟩ hinit.2 <;> rw [hinit.1]
    exacts [List.Pairwise.nil, by simp, List.nodup_nil, by simp]
  | snoc _ hstep ih =>
    rw [List.forall_mem_append, List.forall_mem_singleton] at hkeeps
    exact (ih hkeeps.1).call hkeeps.2 hstep

/-- A best route for an address: no route, when none matches. -/
def IsBest (rt : IPv4RoutingTable) (dest : IPv4Address) : Option RouteEntry → Prop
  | none => ∀ e ∈ rt.routes, e.route.Matches dest = false
  | some e => e ∈ rt.routes ∧ e.route.Matches dest = true ∧
      ∀ e' ∈ rt.routes, e'.route.Matches dest = true → e.route.AsGoodAs rt.useAdminDist e'.route

/-- **Every look-up finds a best route**, whether the cache holds the address or not, as long as no
change of an administrative distance has disturbed the order. -/
theorem findBestMatchingRoute_isBest
    {tr : List (Transition IPv4RoutingTable RoutingTableCall (Option RouteEntry))}
    (h : system.Run tr rt) (hkeeps : ∀ t ∈ tr, t.pre.Keeps t.input) (dest : IPv4Address) :
    ∃ bestRoute rt' rt'', rt.findBestMatchingRoute dest = .ok (bestRoute, rt') ∧
      rt.invalidateCache.findBestMatchingRoute dest = .ok (bestRoute, rt'') ∧
      rt.IsBest dest bestRoute := by
  have hinv := Inv.run h hkeeps
  obtain ⟨rt', hcached, -⟩ := hinv.findBestMatchingRoute dest
  obtain ⟨rt'', hfresh, -⟩ := (hinv.toInOrder.invalidateCache.inv rfl).findBestMatchingRoute dest
  refine ⟨rt.firstMatch dest, rt', rt'', hcached, hfresh, ?_⟩
  cases hfirst : rt.firstMatch dest with
  | none =>
    rw [firstMatch, List.find?_eq_none] at hfirst
    exact fun e he ↦ Bool.eq_false_iff.2 (hfirst e he)
  | some e =>
    have hmem : e ∈ rt.routes := List.mem_of_find?_eq_some hfirst
    have hmatch : e.route.Matches dest = true :=
      List.find?_some (p := fun e : RouteEntry ↦ e.route.Matches dest) hfirst
    exact ⟨hmem, hmatch, fun e' he' hmatch' ↦ IPv4Route.asGoodAs_of_key_le
      (hinv.ordered.key_le_of_find? hfirst he' hmatch') (hinv.wellFormed e hmem)
      (hinv.wellFormed e' he') hmatch hmatch'⟩

/-! ### An example -/

/-- A route to `10.0.0.0/8`. -/
def tenSlashEight (adminDist : ℕ) : IPv4Route where
  dest := 0x0a000000
  netmask := 0xff000000
  interfacePtr := some 1
  adminDist

/-- An empty table that uses administrative distances. -/
def fresh : IPv4RoutingTable where
  useAdminDist := true
  netmaskRoutes _ := false

/-- The table with one route. -/
theorem findBestMatchingRoute_tenSlashEight : ∃ rt bestRoute rt' rt'',
    fresh.addRoute (tenSlashEight 1) = .ok rt ∧
      rt.findBestMatchingRoute 0x0a000001 = .ok (bestRoute, rt') ∧
      rt.invalidateCache.findBestMatchingRoute 0x0a000001 = .ok (bestRoute, rt'') ∧
      rt.IsBest 0x0a000001 bestRoute := by
  obtain ⟨rt, hadd⟩ : ∃ rt, fresh.addRoute (tenSlashEight 1) = .ok rt := ⟨_, rfl⟩
  have hstep : fresh.call (.addRoute (tenSlashEight 1)) = .ok (none, rt) := by
    rw [call, hadd]
    rfl
  have hnil : system.Run [] fresh := .nil ⟨rfl, rfl⟩
  have hrun : system.Run [⟨fresh, .addRoute (tenSlashEight 1), none, rt⟩] rt := hnil.snoc hstep
  obtain ⟨bestRoute, rt', rt'', hspec⟩ := findBestMatchingRoute_isBest hrun
    (List.forall_mem_singleton.2 trivial) 0x0a000001
  exact ⟨rt, bestRoute, rt', rt'', hadd, hspec⟩

/-- **The administrative distance** of the first of two routes grows beyond that of the second. -/
theorem setAdminDist_disturbs : ∃ tr rt e rt', system.Run tr rt ∧
    rt.findBestMatchingRoute 0x0a000001 = .ok (some e, rt') ∧ ¬ rt.IsBest 0x0a000001 (some e) := by
  let table (adminDist : ℕ) : IPv4RoutingTable :=
    { fresh with routes := [⟨0, tenSlashEight adminDist⟩, ⟨1, tenSlashEight 5⟩], nextPointer := 2 }
  have hfirst : fresh.call (.addRoute (tenSlashEight 1)) =
      .ok (none, { fresh with routes := [⟨0, tenSlashEight 1⟩], nextPointer := 1 }) := rfl
  have hsecond : IPv4RoutingTable.call
      { fresh with routes := [⟨0, tenSlashEight 1⟩], nextPointer := 1 }
      (.addRoute (tenSlashEight 5)) = .ok (none, table 1) := rfl
  have hthird : (table 1).call (.setAdminDist 0 9) = .ok (none, table 9) := rfl
  have hrun : system.Run _ (table 9) :=
    TransitionSystem.Run.snoc (.snoc (.snoc (.nil ⟨rfl, rfl⟩) hfirst) hsecond) hthird
  refine ⟨_, table 9, ⟨0, tenSlashEight 9⟩, _, hrun, rfl, ?_⟩
  rintro ⟨-, -, hbest⟩
  have hother := hbest ⟨1, tenSlashEight 5⟩ (by simp [table]) rfl
  exact absurd ((hother.2 rfl).1 rfl) (by decide)

end IPv4RoutingTable

end Inet
