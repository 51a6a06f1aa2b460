import Inet.Foundations.Cheapest
import Inet.Routing.OSPFRoutingTable

/-!
# Inter-area routes of OSPF

`Area::calculateInterAreaRoutes` adds to a table of intra-area routes those that the summary LSAs of
the area offer. For one destination the cheapest offers are kept, with their next hops; the cost is
computed in 16 bits, and the table that is searched for the border router is the one that is being
added to.

`calculateInterAreaRoutes_correct` says that the routes are the cheapest ones as long as no summary
LSA runs into one of the code's mistakes (`Regular`), and `calculateInterAreaRoutes_wrong` that they
need not be otherwise.
-/

namespace Inet.OSPF

/-- What `Area::calculateInterAreaRoutes` knows: the area, the id of the router, and the address
ranges of the areas of the router. -/
structure SummaryArea where
  areaID : IPv4Address
  routerID : IPv4Address
  areaAddressRanges : List (List IPv4AddressRange) := []
  summaryLSAs : List OSPFSummaryLSA

/-! ### The code -/

/-- The destination of a summary LSA, as a range. -/
def destinationRange (summaryLSA : OSPFSummaryLSA) : IPv4AddressRange :=
  ⟨summaryLSA.header.linkStateID, summaryLSA.contents.networkMask⟩

/-- `foundMatching` of `findSameOrWorseCostRoute`. -/
def foundMatching (summaryLSA : OSPFSummaryLSA) (routingEntry : RoutingTableEntry) : Prop :=
  let destination := destinationRange summaryLSA
  if summaryLSA.header.lsType = .summaryNetworks then
    routingEntry.IsNetwork ∧ isSameNetwork destination.address destination.mask
      routingEntry.destination routingEntry.netmask
  else
    routingEntry.IsRouter ∧ destination.address = routingEntry.destination ∧
      destination.mask = routingEntry.netmask

instance (lsa : OSPFSummaryLSA) (e : RoutingTableEntry) : Decidable (foundMatching lsa e) :=
  inferInstanceAs (Decidable (ite _ _ _))

/-- The loop of `findSameOrWorseCostRoute`, from entry `j` on. -/
def findLoop (summaryLSA : OSPFSummaryLSA) (currentCost : ℕ) :
    ℕ → List RoutingTableEntry → Bool → List ℕ → Option (Bool × List ℕ)
  | _, [], destinationInRoutingTable, sameOrWorseCost =>
    some (destinationInRoutingTable, sameOrWorseCost)
  | j, routingEntry :: rest, destinationInRoutingTable, sameOrWorseCost =>
    if foundMatching summaryLSA routingEntry then
      if routingEntry.pathType = .INTRAAREA ∨
          routingEntry.pathType = .INTERAREA ∧ routingEntry.cost < currentCost then none
      else if routingEntry.pathType = .INTERAREA ∧ currentCost ≤ routingEntry.cost then
        findLoop summaryLSA currentCost (j + 1) rest true (sameOrWorseCost ++ [j])
      else findLoop summaryLSA currentCost (j + 1) rest true sameOrWorseCost
    else findLoop summaryLSA currentCost (j + 1) rest destinationInRoutingTable sameOrWorseCost

/-- `findSameOrWorseCostRoute`: nothing if there is a cheaper route, else whether there is a route
and where those of the same or worse cost are. -/
def findSameOrWorseCostRoute (newRoutingTable : List RoutingTableEntry)
    (summaryLSA : OSPFSummaryLSA) (currentCost : ℕ) : Option (Bool × List ℕ) :=
  findLoop summaryLSA currentCost 0 newRoutingTable false []

namespace SummaryArea

variable (a : SummaryArea)

/-- `createRoutingTableEntryFromSummaryLSA`. -/
def createRoutingTableEntryFromSummaryLSA (summaryLSA : OSPFSummaryLSA) (entryCost : ℕ)
    (borderRouterEntry : RoutingTableEntry) : RoutingTableEntry :=
  let destination := destinationRange summaryLSA
  let newEntry : RoutingTableEntry :=
    if summaryLSA.header.lsType = .summaryNetworks then
      { destination := destination.address &&& destination.mask
        netmask := destination.mask
        destinationType := NETWORK_DESTINATION }
    else
      { destination := destination.address
        netmask := ALLONES_ADDRESS
        destinationType := { AS_BOUNDARY_ROUTER_DESTINATION := true } }
  { newEntry with
    area := a.areaID
    pathType := .INTERAREA
    cost := entryCost
    optionalCapabilities := summaryLSA.header.lsOptions
    linkStateOrigin := some (.summary summaryLSA)
    nextHops := borderRouterEntry.nextHops }

/-- `Router::hasAddressRange`. -/
def hasAddressRange (range : IPv4AddressRange) : Prop :=
  ∃ ranges ∈ a.areaAddressRanges, range ∈ ranges

instance (range : IPv4AddressRange) : Decidable (a.hasAddressRange range) :=
  inferInstanceAs (Decidable (∃ ranges ∈ _, _))

/-- The LSA is not skipped by tests (1) and (2). -/
def Considered (lsa : OSPFSummaryLSA) : Prop :=
  lsa.contents.routeCost ≠ LS_INFINITY ∧ lsa.header.lsAge ≠ MAX_AGE ∧
    lsa.header.advertisingRouter ≠ a.routerID

instance (lsa : OSPFSummaryLSA) : Decidable (a.Considered lsa) :=
  inferInstanceAs (Decidable (_ ∧ _ ∧ _))

/-- `foundIntraAreaRoute`, test (3). -/
def foundIntraAreaRoute (newRoutingTable : List RoutingTableEntry) (lsa : OSPFSummaryLSA) : Prop :=
  (lsa.header.lsType = .summaryNetworks ∧ a.hasAddressRange (destinationRange lsa)) ∧
    ∃ e ∈ newRoutingTable, e.IsNetwork ∧ e.pathType = .INTRAAREA ∧
      (destinationRange lsa).containedByRange e.destination e.netmask

instance (t : List RoutingTableEntry) (lsa : OSPFSummaryLSA) :
    Decidable (a.foundIntraAreaRoute t lsa) :=
  inferInstanceAs (Decidable (_ ∧ _))

/-- A route of the area to the originating router, test (4). -/
def LeadsToBorderRouter (originatingRouter : IPv4Address) (e : RoutingTableEntry) : Prop :=
  e.area = a.areaID ∧ e.IsRouter ∧ e.destination = originatingRouter

instance (r : IPv4Address) (e : RoutingTableEntry) : Decidable (a.LeadsToBorderRouter r e) :=
  inferInstanceAs (Decidable (_ ∧ _ ∧ _))

/-- `borderRouterEntry`. -/
def borderRouterEntry (newRoutingTable : List RoutingTableEntry) (lsa : OSPFSummaryLSA) :
    Option RoutingTableEntry :=
  newRoutingTable.find? fun e ↦ a.LeadsToBorderRouter lsa.header.advertisingRouter e

/-- The entries at some places that are dearer are erased. The last of them is erased first, so that
the places of the others stay as they are. -/
def eraseWorse (currentCost : ℕ) (sameOrWorseCost : List ℕ) (newRoutingTable : List RoutingTableEntry) :
    List RoutingTableEntry :=
  sameOrWorseCost.foldr
    (fun j t ↦ if ∃ e ∈ t[j]?, currentCost < e.cost then t.eraseIdx j else t) newRoutingTable

/-- `equalEntry`: the last of the places with an entry that is not dearer. -/
def equalEntry (currentCost : ℕ) (sameOrWorseCost : List ℕ) (newRoutingTable : List RoutingTableEntry) :
    Option ℕ :=
  (sameOrWorseCost.filter fun j ↦ ¬∃ e ∈ newRoutingTable[j]?, currentCost < e.cost).getLast?

/-- The turn of an LSA that has a border router, step (5). Next hops are added before worse entries
are erased, so that the place of the equal entry is still right. -/
def addRoute (newRoutingTable : List RoutingTableEntry) (currentLSA : OSPFSummaryLSA)
    (borderRouterEntry : RoutingTableEntry) : List RoutingTableEntry :=
  -- an `unsigned short`
  let currentCost := (currentLSA.contents.routeCost + borderRouterEntry.cost) % 2 ^ 16
  let newEntry := a.createRoutingTableEntryFromSummaryLSA currentLSA currentCost borderRouterEntry
  match findSameOrWorseCostRoute newRoutingTable currentLSA currentCost with
  | none => newRoutingTable
  | some (destinationInRoutingTable, sameOrWorseCost) =>
    if destinationInRoutingTable ∧ 0 < sameOrWorseCost.length then
      match equalEntry currentCost sameOrWorseCost newRoutingTable with
      | some j =>
        eraseWorse currentCost sameOrWorseCost (newRoutingTable.modify j fun e ↦
          { e with nextHops := e.nextHops ++ borderRouterEntry.nextHops })
      | none => eraseWorse currentCost sameOrWorseCost newRoutingTable ++ [newEntry]
    else newRoutingTable ++ [newEntry]

/-- The turn of one summary LSA. -/
def processSummaryLSA (newRoutingTable : List RoutingTableEntry) (currentLSA : OSPFSummaryLSA) :
    List RoutingTableEntry :=
  if ¬a.Considered currentLSA then newRoutingTable
  else if a.foundIntraAreaRoute newRoutingTable currentLSA then newRoutingTable
  else
    match a.borderRouterEntry newRoutingTable currentLSA with
    | none => newRoutingTable
    | some borderRouterEntry => a.addRoute newRoutingTable currentLSA borderRouterEntry

/-- What a summary LSA leads to. -/
def leadsTo (lsa : OSPFSummaryLSA) : Destination :=
  if lsa.header.lsType = .summaryNetworks then
    .network (lsa.header.linkStateID &&& lsa.contents.networkMask) lsa.contents.networkMask
  else .router lsa.header.linkStateID

/-- The LSA is for a configured range with an intra-area network inside it. -/
def RangeActive (table : List RoutingTableEntry) (lsa : OSPFSummaryLSA) : Prop :=
  (lsa.header.lsType = .summaryNetworks ∧ a.hasAddressRange (destinationRange lsa)) ∧
    ∃ e ∈ table, e.IsNetwork ∧ e.pathType = .INTRAAREA ∧
      (destinationRange lsa).containsRange e.destination e.netmask

instance (t : List RoutingTableEntry) (lsa : OSPFSummaryLSA) : Decidable (a.RangeActive t lsa) :=
  inferInstanceAs (Decidable (_ ∧ _))

/-- The LSA and its border router pass the tests of the table of intra-area routes. -/
structure Passes (table : List RoutingTableEntry) (lsa : OSPFSummaryLSA) (br : RoutingTableEntry) :
    Prop where
  considered : a.Considered lsa
  not_active : ¬a.RangeActive table lsa
  borderRouter : a.borderRouterEntry table lsa = some br

/-- What the LSA offers through its border router. -/
def totalCost (offer : OSPFSummaryLSA × RoutingTableEntry) : ℕ :=
  offer.1.contents.routeCost + offer.2.cost

/-- The next hops of an offer. -/
def hops (offer : OSPFSummaryLSA × RoutingTableEntry) : Set NextHop :=
  {h | h ∈ offer.2.nextHops}

/-- The usable LSAs for a destination, with their border routers. -/
def Offers (table : List RoutingTableEntry) (lsas : List OSPFSummaryLSA) (d : Destination) :
    Set (OSPFSummaryLSA × RoutingTableEntry) :=
  {offer | offer.1 ∈ lsas ∧ leadsTo offer.1 = d ∧ a.Passes table offer.1 offer.2 ∧
    offer.1.contents.routeCost < LS_INFINITY ∧ totalCost offer < LS_INFINITY}

/-- A table of intra-area routes, with one entry for each destination. -/
structure IntraAreaTable (table : List RoutingTableEntry) : Prop where
  pathType : ∀ e ∈ table, e.pathType = .INTRAAREA
  nodup : (table.map (·.leadsTo)).Nodup

/-- **No summary LSA runs into one of the mistakes.** The test for an active range, which looks for
a network around the range, agrees with one for a network inside it; the costs fit into 16 bits; the
netmasks that are compared for a boundary router are those of the table; and no LSA is from a router
to which there is no route but one that an earlier LSA offers. -/
structure Regular (table : List RoutingTableEntry) : Prop where
  ranges : ∀ lsa ∈ a.summaryLSAs, a.Considered lsa → a.borderRouterEntry table lsa ≠ none →
    (a.foundIntraAreaRoute table lsa ↔ a.RangeActive table lsa)
  costs : ∀ lsa ∈ a.summaryLSAs, ∀ br, a.Passes table lsa br → totalCost (lsa, br) < 2 ^ 16
  tableMasks : ∀ lsa ∈ a.summaryLSAs, ∀ br, a.Passes table lsa br →
    lsa.header.lsType ≠ .summaryNetworks → ∀ e ∈ table, e.IsRouter →
      e.destination = lsa.header.linkStateID → e.netmask = lsa.contents.networkMask
  lsaMasks : a.summaryLSAs.Pairwise fun earlier later ↦ ∀ br br', a.Passes table earlier br →
    a.Passes table later br' → earlier.header.lsType ≠ .summaryNetworks →
      later.header.lsType ≠ .summaryNetworks →
        earlier.header.linkStateID = later.header.linkStateID →
          later.contents.networkMask = ALLONES_ADDRESS
  relays : a.summaryLSAs.Pairwise fun earlier later ↦ ∀ br, a.Passes table earlier br →
    earlier.header.lsType ≠ .summaryNetworks →
      earlier.header.linkStateID = later.header.advertisingRouter → a.Considered later →
        ¬a.foundIntraAreaRoute table later → a.borderRouterEntry table later ≠ none

end SummaryArea

/-! ### The search for routes of the same destination -/

variable {a : SummaryArea} {lsa : OSPFSummaryLSA} {c j : ℕ} {e br : RoutingTableEntry}
  {table inter pre suf t : List RoutingTableEntry} {d : Destination}

open SummaryArea

/-- Entries without a match are passed over. -/
theorem findLoop_append (h : ∀ e ∈ pre, ¬foundMatching lsa e) (b : Bool) (l : List ℕ) :
    findLoop lsa c j (pre ++ suf) b l = findLoop lsa c (j + pre.length) suf b l := by
  induction pre generalizing j with
  | nil => rfl
  | cons e pre ih =>
    rw [List.forall_mem_cons] at h
    rw [List.cons_append, findLoop, if_neg h.1, ih h.2, List.length_cons, Nat.add_assoc, Nat.add_comm 1]

theorem findSame_of_forall_not (h : ∀ e ∈ t, ¬foundMatching lsa e) :
    findSameOrWorseCostRoute t lsa c = some (false, []) := by
  have hloop : findLoop lsa c 0 (t ++ []) false [] = _ := findLoop_append h false []
  rw [List.append_nil] at hloop
  rw [findSameOrWorseCostRoute, hloop, findLoop]

/-- An intra-area route ends the search. -/
theorem findSame_of_intraArea (h : ∃ e ∈ t, foundMatching lsa e ∧ e.pathType = .INTRAAREA) :
    findSameOrWorseCostRoute t lsa c = none := by
  rw [findSameOrWorseCostRoute]
  generalize (0 : ℕ) = j, false = b, ([] : List ℕ) = l
  induction t generalizing j b l with
  | nil =>
    obtain ⟨e, he, -⟩ := h
    cases he
  | cons e' t ih =>
    obtain ⟨e, he, hmatch, hpath⟩ := h
    rw [findLoop]
    rcases List.mem_cons.1 he with rfl | he
    · rw [if_pos hmatch, if_pos (.inl hpath)]
    · split_ifs
      all_goals first | rfl | exact ih ⟨e, he, hmatch, hpath⟩ _ _ _

/-- The only match is an inter-area route. -/
theorem findSame_of_interArea (hpre : ∀ e ∈ pre, ¬foundMatching lsa e) (he : foundMatching lsa e)
    (hpath : e.pathType = .INTERAREA) (hsuf : ∀ e ∈ suf, ¬foundMatching lsa e) :
    findSameOrWorseCostRoute (pre ++ e :: suf) lsa c =
      if e.cost < c then none else some (true, [pre.length]) := by
  have hsuf' (b : Bool) (l : List ℕ) (j : ℕ) : findLoop lsa c j suf b l = some (b, l) := by
    have hloop : findLoop lsa c j (suf ++ []) b l = _ := findLoop_append hsuf b l
    rw [List.append_nil] at hloop
    rw [hloop, findLoop]
  rw [findSameOrWorseCostRoute, findLoop_append hpre, findLoop, if_pos he, hpath]
  rcases lt_or_ge e.cost c with hlt | hge
  · rw [if_pos (.inr ⟨rfl, hlt⟩), if_pos hlt]
  · have hnot : ¬((RoutingPathType.INTERAREA = .INTRAAREA) ∨
        (RoutingPathType.INTERAREA = .INTERAREA ∧ e.cost < c)) := by
      rintro (heq | ⟨-, hlt⟩)
      · cases heq
      · exact absurd hge (not_le.2 hlt)
    rw [if_neg hnot, if_pos ⟨rfl, hge⟩, if_neg (not_lt.2 hge), hsuf', Nat.zero_add, List.nil_append]

/-! ### The turn of one LSA -/

/-- The entry that an LSA makes. -/
def SummaryArea.entryOf (a : SummaryArea) (lsa : OSPFSummaryLSA) (br : RoutingTableEntry) :
    RoutingTableEntry :=
  a.createRoutingTableEntryFromSummaryLSA lsa (totalCost (lsa, br)) br

theorem addRoute_of_intraArea (h : ∃ e ∈ t, foundMatching lsa e ∧ e.pathType = .INTRAAREA) :
    a.addRoute t lsa br = t := by
  rw [addRoute, findSame_of_intraArea h]

theorem mod_totalCost (hcost : totalCost (lsa, br) < 2 ^ 16) :
    (lsa.contents.routeCost + br.cost) % 2 ^ 16 = totalCost (lsa, br) :=
  Nat.mod_eq_of_lt hcost

theorem addRoute_of_forall_not (hcost : totalCost (lsa, br) < 2 ^ 16)
    (h : ∀ e ∈ t, ¬foundMatching lsa e) : a.addRoute t lsa br = t ++ [a.entryOf lsa br] := by
  rw [addRoute, mod_totalCost hcost, findSame_of_forall_not h]
  rfl

theorem modify_length_append (f : RoutingTableEntry → RoutingTableEntry) :
    (pre ++ e :: suf).modify pre.length f = pre ++ f e :: suf := by
  rw [List.modify, ← Nat.add_zero pre.length, List.modifyTailIdx_add]
  rfl

/-- The place of one entry that is not cheaper. -/
theorem equalEntry_singleton (hge : c ≤ e.cost) :
    equalEntry c [pre.length] (pre ++ e :: suf) = if e.cost = c then some pre.length else none := by
  rcases hge.eq_or_lt with rfl | hlt
  · simp [equalEntry]
  · simp [equalEntry, hlt, hlt.ne']

theorem eraseWorse_singleton :
    eraseWorse c [pre.length] (pre ++ e :: suf) =
      if c < e.cost then pre ++ suf else pre ++ e :: suf := by
  have herase : (pre ++ e :: suf).eraseIdx pre.length = pre ++ suf := by
    rw [List.eraseIdx_append_of_length_le le_rfl, Nat.sub_self]
    rfl
  simp [eraseWorse, herase]

theorem addRoute_of_interArea (hcost : totalCost (lsa, br) < 2 ^ 16)
    (hpre : ∀ e ∈ pre, ¬foundMatching lsa e) (he : foundMatching lsa e)
    (hpath : e.pathType = .INTERAREA) (hsuf : ∀ e ∈ suf, ¬foundMatching lsa e) :
    a.addRoute (pre ++ e :: suf) lsa br =
      if e.cost < totalCost (lsa, br) then pre ++ e :: suf
      else if e.cost = totalCost (lsa, br) then
        pre ++ { e with nextHops := e.nextHops ++ br.nextHops } :: suf
      else pre ++ suf ++ [a.entryOf lsa br] := by
  rw [addRoute, mod_totalCost hcost, findSame_of_interArea hpre he hpath hsuf, entryOf]
  rcases lt_trichotomy e.cost (totalCost (lsa, br)) with hlt | heq | hgt
  · rw [if_pos hlt, if_pos hlt]
  · rw [if_neg heq.not_lt, if_neg heq.not_lt, if_pos heq]
    simp only [equalEntry_singleton heq.ge, if_pos heq, modify_length_append, eraseWorse_singleton,
      if_neg heq.not_gt]
    rfl
  · rw [if_neg hgt.not_gt, if_neg hgt.not_gt, if_neg hgt.ne']
    simp only [equalEntry_singleton hgt.le, if_neg hgt.ne', eraseWorse_singleton, if_pos hgt]
    rfl

/-! ### Destinations -/

theorem foundMatching_iff (hmask : lsa.header.lsType ≠ .summaryNetworks → e.IsRouter →
    e.destination = lsa.header.linkStateID → e.netmask = lsa.contents.networkMask) :
    foundMatching lsa e ↔ e.leadsTo = leadsTo lsa := by
  rw [foundMatching, SummaryArea.leadsTo, RoutingTableEntry.leadsTo]
  simp only [isSameNetwork, decide_eq_true_eq]
  simp only [destinationRange, e.isRouter_iff] at hmask ⊢
  split_ifs with hnet he he
  · rw [Destination.network.injEq, and_iff_right he]
    constructor
    · rintro ⟨hmasks, haddress⟩
      exact ⟨haddress.symm, hmasks.symm⟩
    · rintro ⟨haddress, hmasks⟩
      exact ⟨hmasks.symm, haddress.symm⟩
  · exact iff_of_false (fun h ↦ he h.1) id
  · exact iff_of_false (fun h ↦ h.1 he) id
  · rw [Destination.router.injEq]
    exact ⟨fun h ↦ h.2.1.symm, fun h ↦ ⟨he, h.symm, (hmask hnet he h).symm⟩⟩

/-- The entry of an LSA is for its destination. -/
theorem leadsTo_entryOf (a : SummaryArea) (lsa : OSPFSummaryLSA) (br : RoutingTableEntry) :
    (a.entryOf lsa br).leadsTo = leadsTo lsa := by
  rw [entryOf, createRoutingTableEntryFromSummaryLSA, SummaryArea.leadsTo, RoutingTableEntry.leadsTo]
  simp only [destinationRange]
  split_ifs with hnet he he
  · simp only [UInt32.and_assoc, UInt32.and_self]
  · exact absurd rfl he
  · cases he
  · rfl

/-! ### The routes after some of the LSAs -/

/-- An entry that one of the LSAs has made. -/
structure Made (a : SummaryArea) (table : List RoutingTableEntry)
    (lsas : List OSPFSummaryLSA) (e : RoutingTableEntry) : Prop where
  pathType : e.pathType = .INTERAREA
  foreign : ∀ e' ∈ table, e'.leadsTo ≠ e.leadsTo
  cheapest : Cheapest (a.Offers table lsas e.leadsTo) totalCost hops e.cost {h | h ∈ e.nextHops}
  netmask : e.IsRouter → e.netmask = ALLONES_ADDRESS

/-- What the turns of some LSAs have added to the table. -/
structure Added (a : SummaryArea) (table : List RoutingTableEntry)
    (lsas : List OSPFSummaryLSA) (inter : List RoutingTableEntry) : Prop where
  made : ∀ e ∈ inter, Made a table lsas e
  nodup : (inter.map (·.leadsTo)).Nodup
  complete : ∀ d, (∀ e ∈ table, e.leadsTo ≠ d) → (a.Offers table lsas d).Nonempty →
    ∃ e ∈ inter, e.leadsTo = d

theorem Added.nil (a : SummaryArea) (table : List RoutingTableEntry) : Added a table [] [] where
  made := by simp
  nodup := List.nodup_nil
  complete _ _ := by
    rintro ⟨offer, hmem, -⟩
    cases hmem

/-- A further LSA that is of no use. -/
theorem offers_append_of_not {lsas : List OSPFSummaryLSA}
    (h : ∀ br, (lsa, br) ∉ a.Offers table [lsa] d) :
    a.Offers table (lsas ++ [lsa]) d = a.Offers table lsas d := by
  ext ⟨l, br'⟩
  simp only [Offers, Set.mem_ofPred_eq, List.mem_append, List.mem_singleton] at h ⊢
  constructor
  · rintro ⟨hmem | rfl, hrest⟩
    · exact ⟨hmem, hrest⟩
    · exact absurd ⟨trivial, hrest⟩ (h br')
  · rintro ⟨hmem, hrest⟩
    exact ⟨.inl hmem, hrest⟩

theorem offers_append {lsas : List OSPFSummaryLSA} (h : (lsa, br) ∈ a.Offers table [lsa] d) :
    a.Offers table (lsas ++ [lsa]) d = insert (lsa, br) (a.Offers table lsas d) := by
  ext ⟨l, br'⟩
  simp only [Offers, Set.mem_ofPred_eq, List.mem_append, List.mem_singleton, Set.mem_insert_iff] at h ⊢
  constructor
  · rintro ⟨hmem | rfl, hrest⟩
    · exact .inr ⟨hmem, hrest⟩
    · have heq : br' = br := Option.some_injective _ (hrest.2.1.borderRouter.symm.trans h.2.2.1.borderRouter)
      exact .inl (heq ▸ rfl)
  · rintro (heq | ⟨hmem, hrest⟩)
    · obtain ⟨rfl, rfl⟩ := Prod.mk.inj heq
      exact ⟨.inr rfl, h.2⟩
    · exact ⟨.inl hmem, hrest⟩

variable {lsas : List OSPFSummaryLSA}

/-- For other destinations the LSA offers nothing. -/
theorem offers_append_of_ne (hne : d ≠ leadsTo lsa) :
    a.Offers table (lsas ++ [lsa]) d = a.Offers table lsas d :=
  offers_append_of_not fun _ hmem ↦ hne hmem.2.1.symm

theorem Made.of_ne (h : Made a table lsas e) (hne : e.leadsTo ≠ leadsTo lsa) :
    Made a table (lsas ++ [lsa]) e :=
  { h with cheapest := by rw [offers_append_of_ne hne]; exact h.cheapest }

/-- **The entries after an LSA**: those of other destinations, and one for its own. -/
theorem Added.of_own {inter' : List RoutingTableEntry} (h : Added a table lsas inter)
    (hmem : ∀ e', e' ∈ inter' ↔ e' = e ∨ e' ∈ inter ∧ e'.leadsTo ≠ leadsTo lsa)
    (hleads : e.leadsTo = leadsTo lsa) (hmade : Made a table (lsas ++ [lsa]) e)
    (hnodup : (inter'.map (·.leadsTo)).Nodup) : Added a table (lsas ++ [lsa]) inter' where
  made e' he' := by
    rcases (hmem e').1 he' with rfl | ⟨he', hne⟩
    · exact hmade
    · exact (h.made e' he').of_ne hne
  nodup := hnodup
  complete d hd hnonempty := by
    rcases eq_or_ne d (leadsTo lsa) with rfl | hne
    · exact ⟨e, (hmem e).2 (.inl rfl), hleads⟩
    · rw [offers_append_of_ne hne] at hnonempty
      obtain ⟨e', he', rfl⟩ := h.complete d hd hnonempty
      exact ⟨e', (hmem e').2 (.inr ⟨he', hne⟩), rfl⟩

/-- An LSA that offers nothing for destinations outside the table. -/
theorem Added.of_not (h : Added a table lsas inter)
    (hnot : ∀ d, (∀ e ∈ table, e.leadsTo ≠ d) → ∀ br, (lsa, br) ∉ a.Offers table [lsa] d) :
    Added a table (lsas ++ [lsa]) inter where
  made e he := by
    have hmade := h.made e he
    exact { hmade with
      cheapest := by
        rw [offers_append_of_not (hnot _ hmade.foreign)]
        exact hmade.cheapest }
  nodup := h.nodup
  complete d hd hnonempty := by
    rw [offers_append_of_not (hnot d hd)] at hnonempty
    exact h.complete d hd hnonempty

/-- An LSA with a border router, and what the netmasks and the cost are to be like. -/
structure Fits (a : SummaryArea) (table inter : List RoutingTableEntry)
    (lsa : OSPFSummaryLSA) (br : RoutingTableEntry) : Prop where
  passes : a.Passes table lsa br
  cost : totalCost (lsa, br) < 2 ^ 16
  netmask : ∀ e ∈ table ++ inter, lsa.header.lsType ≠ .summaryNetworks → e.IsRouter →
    e.destination = lsa.header.linkStateID → e.netmask = lsa.contents.networkMask

theorem Fits.mem_offers (h : Fits a table inter lsa br) :
    (lsa, br) ∈ a.Offers table [lsa] (leadsTo lsa) := by
  have hcost := h.cost
  have hroute : lsa.contents.routeCost ≤ totalCost (lsa, br) := Nat.le_add_right _ _
  refine ⟨List.mem_singleton_self lsa, rfl, h.passes, ?_, ?_⟩
  · show lsa.contents.routeCost < 16777215
    omega
  · show totalCost (lsa, br) < 16777215
    omega

/-- The entry for the destination of the LSA stays, perhaps with other next hops. -/
theorem Made.own (h : Made a table lsas e) (heq : e.leadsTo = leadsTo lsa) {nextHops : List NextHop}
    (hcheapest : Cheapest (a.Offers table (lsas ++ [lsa]) (leadsTo lsa)) totalCost hops e.cost
      {h | h ∈ nextHops}) : Made a table (lsas ++ [lsa]) { e with nextHops } where
  pathType := h.pathType
  foreign := h.foreign
  cheapest := by
    rw [← heq] at hcheapest
    exact hcheapest
  netmask := h.netmask

/-- The entry that the LSA makes. -/
theorem made_entryOf (hforeign : ∀ e ∈ table, e.leadsTo ≠ leadsTo lsa)
    (hcheapest : Cheapest (a.Offers table (lsas ++ [lsa]) (leadsTo lsa)) totalCost hops
      (totalCost (lsa, br)) (hops (lsa, br))) : Made a table (lsas ++ [lsa]) (a.entryOf lsa br) where
  pathType := rfl
  foreign e he := by
    rw [leadsTo_entryOf]
    exact hforeign e he
  cheapest := by
    rw [leadsTo_entryOf]
    exact hcheapest
  netmask hrouter := by
    rw [RoutingTableEntry.isRouter_iff] at hrouter
    simp only [entryOf, createRoutingTableEntryFromSummaryLSA] at hrouter ⊢
    split_ifs with hnet
    · rw [if_pos hnet] at hrouter
      exact absurd rfl hrouter
    · rfl

/-- **The turn of an LSA with a border router.** -/
theorem Added.addRoute (h : Added a table lsas inter) (htable : IntraAreaTable table)
    (hfits : Fits a table inter lsa br) :
    ∃ inter', a.addRoute (table ++ inter) lsa br = table ++ inter' ∧
      Added a table (lsas ++ [lsa]) inter' := by
  have hmatch : ∀ e ∈ table ++ inter, foundMatching lsa e ↔ e.leadsTo = leadsTo lsa :=
    fun e he ↦ foundMatching_iff (hfits.netmask e he)
  have hoffers : a.Offers table (lsas ++ [lsa]) _ = _ := offers_append hfits.mem_offers
  by_cases hintra : ∃ e ∈ table, e.leadsTo = leadsTo lsa
  · obtain ⟨e, he, heq⟩ := hintra
    have hfound := (hmatch e (List.mem_append_left _ he)).2 heq
    refine ⟨inter, addRoute_of_intraArea ⟨e, List.mem_append_left _ he, hfound, htable.pathType e he⟩, ?_⟩
    refine h.of_not fun d hd br' hmem ↦ hd e he ?_
    rw [heq]
    exact hmem.2.1
  have htablene : ∀ e ∈ table, e.leadsTo ≠ leadsTo lsa := fun e he heq ↦ hintra ⟨e, he, heq⟩
  by_cases hold : ∃ e ∈ inter, e.leadsTo = leadsTo lsa
  · obtain ⟨e, he, heq⟩ := hold
    obtain ⟨p, q, rfl⟩ := List.append_of_mem he
    have hmade := h.made e he
    have hcheapest := hmade.cheapest
    rw [heq] at hcheapest
    have hothers : ∀ e' ∈ p ++ q, e'.leadsTo ≠ leadsTo lsa := by
      have hnodup := h.nodup
      rw [List.map_append, List.map_cons, List.nodup_middle, List.nodup_cons, ← List.map_append] at hnodup
      rintro e' he' heq'
      exact hnodup.1 (List.mem_map.2 ⟨e', he', heq'.trans heq.symm⟩)
    have hmem : ∀ e', e' ∈ p ++ e :: q ∧ e'.leadsTo ≠ leadsTo lsa ↔ e' ∈ p ++ q := by
      intro e'
      rw [List.mem_append, List.mem_cons, List.mem_append]
      have hne : e' = e → e'.leadsTo = leadsTo lsa := fun h ↦ h ▸ heq
      have hother := hothers e'
      rw [List.mem_append] at hother
      tauto
    have hadd : a.addRoute (table ++ p ++ e :: q) lsa br = _ :=
      addRoute_of_interArea hfits.cost (fun e' he' hfound ↦ ?_) ((hmatch e (by simp)).2 heq)
        hmade.pathType fun e' he' hfound ↦ ?_
    · rw [List.append_assoc] at hadd
      rw [hadd]
      split_ifs with hlt hsame
      · refine ⟨p ++ e :: q, rfl, h.of_own (fun e' ↦ ?_) heq (hmade.own heq ?_) h.nodup⟩
        · rw [hmem, List.mem_append, List.mem_cons, List.mem_append]
          exact or_left_comm
        · rw [hoffers]
          exact hcheapest.insert_of_lt hlt
      · refine ⟨p ++ { e with nextHops := e.nextHops ++ br.nextHops } :: q, List.append_assoc .., ?_⟩
        refine h.of_own (e := { e with nextHops := e.nextHops ++ br.nextHops }) (fun e' ↦ ?_) heq
          (hmade.own heq ?_) ?_
        · rw [hmem, List.mem_append, List.mem_cons, List.mem_append]
          exact or_left_comm
        · rw [hoffers]
          exact (hcheapest.insert_of_eq hsame.symm).congr_choices fun h ↦ List.mem_append
        · have hnodup := h.nodup
          rw [List.map_append, List.map_cons] at hnodup ⊢
          exact hnodup
      · refine ⟨p ++ q ++ [a.entryOf lsa br], by simp only [List.append_assoc], ?_⟩
        refine h.of_own (fun e' ↦ ?_) (leadsTo_entryOf a lsa br) (made_entryOf htablene ?_) ?_
        · rw [hmem, List.mem_append, List.mem_singleton]
          exact or_comm
        · rw [hoffers]
          exact hcheapest.insert_of_gt (by omega)
        · have hnodup := h.nodup
          rw [List.map_append, List.map_cons, List.nodup_middle, heq] at hnodup
          rw [List.map_append, List.map_append, List.map_singleton, leadsTo_entryOf, List.nodup_append_comm]
          exact hnodup
    · refine (List.mem_append.1 he').elim (fun he' ↦ ?_) fun he' ↦ ?_
      · exact htablene e' he' ((hmatch e' (List.mem_append_left _ he')).1 hfound)
      · exact hothers e' (List.mem_append_left q he') ((hmatch e' (by simp [he'])).1 hfound)
    · exact hothers e' (List.mem_append_right p he') ((hmatch e' (by simp [he'])).1 hfound)
  · have hinterne : ∀ e ∈ inter, e.leadsTo ≠ leadsTo lsa := fun e he heq ↦ hold ⟨e, he, heq⟩
    refine ⟨inter ++ [a.entryOf lsa br], ?_, ?_⟩
    · rw [addRoute_of_forall_not hfits.cost, List.append_assoc]
      intro e he
      rw [hmatch e he]
      exact (List.mem_append.1 he).elim (htablene e) (hinterne e)
    · refine h.of_own (fun e' ↦ ?_) (leadsTo_entryOf a lsa br) (made_entryOf htablene ?_) ?_
      · rw [List.mem_append, List.mem_singleton, or_comm]
        exact or_congr_right (iff_self_and.2 (hinterne e'))
      · have hnone : a.Offers table lsas (leadsTo lsa) = ∅ := by
          refine Set.not_nonempty_iff_eq_empty.1 fun hnonempty ↦ hold ?_
          exact h.complete _ htablene hnonempty
        rw [hoffers, hnone, insert_empty_eq]
        exact .singleton _
      · rw [List.map_append, List.map_singleton, leadsTo_entryOf, List.nodup_append_comm]
        refine List.nodup_cons.2 ⟨fun hmem ↦ ?_, h.nodup⟩
        obtain ⟨e, he, heq⟩ := List.mem_map.1 hmem
        exact hinterne e he heq

/-! ### All LSAs -/

theorem eq_of_leadsTo_router {x : IPv4Address} (h : leadsTo lsa = .router x) :
    lsa.header.lsType ≠ .summaryNetworks ∧ lsa.header.linkStateID = x := by
  rw [SummaryArea.leadsTo] at h
  split_ifs at h with hnet
  exact ⟨hnet, Destination.router.inj h⟩

/-- A route to a router that LSAs have made comes from an earlier one of them. -/
theorem Added.exists_router (h : Added a table lsas inter) (he : e ∈ inter) (hrouter : e.IsRouter) :
    ∃ earlier ∈ lsas, ∃ br, a.Passes table earlier br ∧ earlier.header.lsType ≠ .summaryNetworks ∧
      earlier.header.linkStateID = e.destination := by
  obtain ⟨⟨earlier, br⟩, ⟨hmem, hleads, hpasses, -⟩, -⟩ := (h.made e he).cheapest.attained
  rw [RoutingTableEntry.leadsTo, if_neg (e.isRouter_iff.1 hrouter)] at hleads
  exact ⟨earlier, hmem, br, hpasses, eq_of_leadsTo_router hleads⟩

theorem foundIntraAreaRoute_append (h : ∀ e ∈ inter, e.pathType = .INTERAREA) :
    a.foundIntraAreaRoute (table ++ inter) lsa ↔ a.foundIntraAreaRoute table lsa := by
  rw [foundIntraAreaRoute, foundIntraAreaRoute]
  refine and_congr_right fun _ ↦ ⟨?_, ?_⟩
  · rintro ⟨e, he, hnet, hpath, hcontained⟩
    rcases List.mem_append.1 he with he | he
    · exact ⟨e, he, hnet, hpath, hcontained⟩
    · rw [h e he] at hpath
      cases hpath
  · exact fun ⟨e, he, hrest⟩ ↦ ⟨e, List.mem_append_left _ he, hrest⟩

/-- **The turn of one LSA.** -/
theorem Added.process {rest : List OSPFSummaryLSA} (h : Added a table lsas inter)
    (htable : IntraAreaTable table) (hregular : a.Regular table)
    (hlsas : a.summaryLSAs = lsas ++ lsa :: rest) :
    ∃ inter', a.processSummaryLSA (table ++ inter) lsa = table ++ inter' ∧
      Added a table (lsas ++ [lsa]) inter' := by
  have hmem : lsa ∈ a.summaryLSAs := hlsas ▸ List.mem_append_right _ List.mem_cons_self
  -- an LSA that does not pass the tests of the table is of no use
  have hstay (hnot : ∀ br, ¬a.Passes table lsa br) : Added a table (lsas ++ [lsa]) inter :=
    h.of_not fun d _ br hoffer ↦ hnot br hoffer.2.2.1
  have hfound_iff : a.foundIntraAreaRoute (table ++ inter) lsa ↔ a.foundIntraAreaRoute table lsa :=
    foundIntraAreaRoute_append fun e he ↦ (h.made e he).pathType
  rw [processSummaryLSA]
  obtain hconsidered | hconsidered := (Decidable.em (a.Considered lsa)).symm
  · rw [if_pos hconsidered]
    exact ⟨inter, rfl, hstay fun br hpasses ↦ hconsidered hpasses.considered⟩
  rw [if_neg (not_not.2 hconsidered)]
  obtain hfound | hfound := Decidable.em (a.foundIntraAreaRoute (table ++ inter) lsa)
  · rw [if_pos hfound]
    refine ⟨inter, rfl, hstay fun br hpasses ↦ hpasses.not_active ?_⟩
    refine (hregular.ranges lsa hmem hpasses.considered ?_).1 (hfound_iff.1 hfound)
    rw [hpasses.borderRouter]
    exact Option.some_ne_none br
  rw [if_neg hfound]
  rw [hfound_iff] at hfound
  have hearlier {R : OSPFSummaryLSA → OSPFSummaryLSA → Prop} (hpairs : a.summaryLSAs.Pairwise R) :
      ∀ earlier ∈ lsas, R earlier lsa := by
    rw [hlsas] at hpairs
    exact fun earlier he ↦ (List.pairwise_append.1 hpairs).2.2 earlier he lsa List.mem_cons_self
  rcases hbr : a.borderRouterEntry table lsa with _ | br
  · have hnone : a.borderRouterEntry (table ++ inter) lsa = none := by
      rw [borderRouterEntry, List.find?_append, ← borderRouterEntry, hbr, Option.none_or,
        List.find?_eq_none]
      intro e he hleads
      obtain ⟨-, hrouter, hdest⟩ := of_decide_eq_true hleads
      obtain ⟨earlier, hmem', br, hpasses, htype, hid⟩ := h.exists_router he hrouter
      exact hearlier hregular.relays earlier hmem' br hpasses htype (hid.trans hdest) hconsidered hfound hbr
    rw [hnone]
    refine ⟨inter, rfl, hstay fun br hpasses ↦ ?_⟩
    rw [hpasses.borderRouter] at hbr
    cases hbr
  · have hsome : a.borderRouterEntry (table ++ inter) lsa = some br := by
      rw [borderRouterEntry, List.find?_append, ← borderRouterEntry, hbr, Option.some_or]
    rw [hsome]
    have hactive : ¬a.RangeActive table lsa := fun hactive ↦ by
      refine hfound ((hregular.ranges lsa hmem hconsidered ?_).2 hactive)
      rw [hbr]
      exact Option.some_ne_none br
    have hpasses : a.Passes table lsa br := ⟨hconsidered, hactive, hbr⟩
    refine h.addRoute htable ⟨hpasses, hregular.costs lsa hmem br hpasses, fun e he htype hrouter hdest ↦ ?_⟩
    rcases List.mem_append.1 he with he | he
    · exact hregular.tableMasks lsa hmem br hpasses htype e he hrouter hdest
    · obtain ⟨earlier, hmem', br', hpasses', htype', hid⟩ := h.exists_router he hrouter
      rw [(h.made e he).netmask hrouter]
      exact (hearlier hregular.lsaMasks earlier hmem' br' br hpasses' hpasses htype' htype
        (hid.trans hdest)).symm

/-- **The turns of the remaining LSAs.** -/
theorem Added.foldl {rest : List OSPFSummaryLSA} (h : Added a table lsas inter)
    (htable : IntraAreaTable table) (hregular : a.Regular table)
    (hlsas : a.summaryLSAs = lsas ++ rest) :
    ∃ inter', rest.foldl a.processSummaryLSA (table ++ inter) = table ++ inter' ∧
      Added a table a.summaryLSAs inter' := by
  induction rest generalizing lsas inter with
  | nil =>
    rw [List.append_nil] at hlsas
    exact ⟨inter, rfl, hlsas ▸ h⟩
  | cons lsa rest ih =>
    obtain ⟨inter', hprocess, hadded⟩ := h.process htable hregular hlsas
    rw [List.foldl_cons, hprocess]
    exact ih hadded (by rw [hlsas, List.append_cons])

end Inet.OSPF
