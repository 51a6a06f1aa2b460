import Inet.NetworkLayer.IPv6RoutingTable

/-!
# The longest prefix match

The routes are in the order of `routeLessThan` after any calls (`inOrder_of_run`). The search passes
the routes that do not match and throws expired ones from router advertisements away; where it stops
(`stopsAt`) it finds a best route (`doLongestPrefixMatch_right`), unless the route there has
expired: it looks at that route again and again (`matchLoop_eq_none`).
-/

namespace Inet.IPv6

open SortedScan

namespace IPv6RoutingTable

variable {useAdminDist : Bool} {now : SimTime} {dest : IPv6Address} {rt rt' : IPv6RoutingTable}
  {routes before : List RouteEntry} {e : RouteEntry} {r : Option RouteEntry} {turns it pointer : ℕ}
  {f : IPv6Route → IPv6Route} {fieldCode : ChangeCodes}

/-! ### The order of the routes -/

/-- The routes are in order. -/
def InOrder (useAdminDist : Bool) (rt : IPv6RoutingTable) : Prop :=
  rt.useAdminDist = useAdminDist ∧ Ordered (fun e ↦ e.route.key useAdminDist) rt.routeList

namespace InOrder

theorem sublist (h : InOrder useAdminDist rt) (hrt : rt'.useAdminDist = rt.useAdminDist)
    (hsub : rt'.routeList.Sublist rt.routeList) : InOrder useAdminDist rt' :=
  ⟨hrt.trans h.1, h.2.sublist hsub⟩

/-- Whatever the order was, it is right when a route has been added. -/
theorem internalAddRoute (hrt : rt.useAdminDist = useAdminDist) (e : RouteEntry) :
    InOrder useAdminDist (rt.internalAddRoute e) := by
  refine ⟨hrt, ordered_stableSort (fun a b ↦ ?_) _⟩
  rw [hrt]
  exact IPv6Route.routeLessThan_iff

theorem addRoute (h : InOrder useAdminDist rt) (route : IPv6Route) :
    InOrder useAdminDist (rt.addRoute route) :=
  internalAddRoute (by exact h.1) _

theorem deleteRoutes (h : InOrder useAdminDist rt) (p : IPv6Route → Bool) :
    InOrder useAdminDist (rt.deleteRoutes p) :=
  h.sublist rfl List.filter_sublist

/-- **A setter** keeps the order: the table is sorted again if the order depends on the field. -/
theorem setField (h : InOrder useAdminDist rt) (hok : rt.setField pointer f fieldCode = .ok rt')
    (hkey : ¬ (fieldCode = .F_DESTINATION ∨ fieldCode = .F_PREFIX_LENGTH ∨ fieldCode = .F_METRIC) →
      ∀ a : IPv6Route, (f a).key useAdminDist = a.key useAdminDist) : InOrder useAdminDist rt' := by
  rw [IPv6RoutingTable.setField] at hok
  cases hfind : rt.find pointer with
  | none =>
    rw [hfind] at hok
    exact Except.ok.inj hok ▸ h
  | some e =>
    rw [hfind] at hok
    simp only at hok
    split_ifs at hok
    · exact Except.ok.inj hok ▸ h
    · rw [routeChanged] at hok
      split_ifs at hok with hcode
      · rw [internalRemoveRoute] at hok
        cases hfound : (rt.modify pointer f).find pointer with
        | none =>
          rw [hfound] at hok
          cases hok
        | some e' =>
          rw [hfound] at hok
          obtain rfl := Except.ok.inj hok
          exact internalAddRoute (by exact h.1) e'
      · obtain rfl := Except.ok.inj hok
        refine ⟨h.1, h.2.map fun e _ ↦ ?_⟩
        split_ifs
        · exact hkey hcode e.route
        · rfl

theorem addOrUpdatePrefix (h : InOrder useAdminDist rt) {sourceType : SourceType}
    {destPrefix : IPv6Address} {prefixLength : PrefixLength} {interfacePtr : Option ℕ}
    {expiryTime : SimTime}
    (hok : rt.addOrUpdatePrefix sourceType destPrefix prefixLength interfacePtr expiryTime =
      .ok rt') : InOrder useAdminDist rt' := by
  rw [IPv6RoutingTable.addOrUpdatePrefix] at hok
  split at hok
  · exact Except.ok.inj hok ▸ h.addRoute _
  · obtain ⟨rt₁, hinterface, hok⟩ := exists_of_bind_eq_ok hok
    exact (h.setField hinterface fun _ _ ↦ rfl).setField hok fun _ _ ↦ rfl

end InOrder

/-! ### The search -/

/-- The search stops at a route that matches, unless it throws it away. -/
def stopsAt (now : SimTime) (dest : IPv6Address) (e : RouteEntry) : Bool :=
  e.route.Matches dest &&
    !(e.route.isExpired now && decide (e.route.sourceType = .ROUTER_ADVERTISEMENT))

/-- What a search leaves of the routes: where it has passed, those that match are gone. -/
def leave (now : SimTime) (dest : IPv6Address) (routes : List RouteEntry) : List RouteEntry :=
  (routes.takeWhile fun e ↦ !stopsAt now dest e).filter (fun e ↦ !e.route.Matches dest) ++
    routes.dropWhile fun e ↦ !stopsAt now dest e

theorem leave_cons_of_stopsAt (h : stopsAt now dest e = true) (routes : List RouteEntry) :
    leave now dest (e :: routes) = e :: routes := by
  rw [leave, List.takeWhile_cons, List.dropWhile_cons, h]
  rfl

theorem leave_cons_of_not_stopsAt (h : stopsAt now dest e = false) (routes : List RouteEntry) :
    leave now dest (e :: routes) =
      if e.route.Matches dest then leave now dest routes else e :: leave now dest routes := by
  rw [leave, List.takeWhile_cons, List.dropWhile_cons, h]
  show (e :: routes.takeWhile _).filter _ ++ routes.dropWhile _ = _
  rw [List.filter_cons]
  cases e.route.Matches dest <;> rfl

theorem leave_sublist (now : SimTime) (dest : IPv6Address) (routes : List RouteEntry) :
    (leave now dest routes).Sublist routes := by
  refine (List.filter_sublist.append (List.Sublist.refl _)).trans ?_
  rw [List.takeWhile_append_dropWhile]

/-- A turn of the loop, by what the route there is like. -/
theorem matchLoop_succ (rt : IPv6RoutingTable) (before routes : List RouteEntry) (e : RouteEntry)
    (n : ℕ) :
    matchLoop now dest (n + 1) { rt with routeList := before ++ e :: routes } before.length =
      if stopsAt now dest e then
        if e.route.isExpired now then
          matchLoop now dest n { rt with routeList := before ++ e :: routes } before.length
        else some (some e, { rt with routeList := before ++ e :: routes })
      else if e.route.Matches dest then
        matchLoop now dest n { rt with routeList := before ++ routes } before.length
      else
        matchLoop now dest n { rt with routeList := before ++ [e] ++ routes }
          (before ++ [e]).length := by
  have hget : (before ++ e :: routes)[before.length]? = some e := by simp
  have herase : (before ++ e :: routes).eraseIdx before.length = before ++ routes := by
    simp [List.eraseIdx_append_of_length_le]
  rw [matchLoop, hget, stopsAt, internalDeleteRoute, herase, List.append_assoc, List.length_append]
  by_cases hmatches : e.route.Matches dest = true
  · by_cases hexpired : e.route.isExpired now = true
    · by_cases hsource : e.route.sourceType = .ROUTER_ADVERTISEMENT <;>
        simp [hmatches, hexpired, hsource]
    · simp [hmatches, hexpired]
  · simp [hmatches]

/-- **The search ends** if it does not stop at an expired route. -/
theorem matchLoop_eq_some (rt : IPv6RoutingTable) (before : List RouteEntry)
    (hlive : ∀ e ∈ routes.find? (stopsAt now dest), e.route.isExpired now = false)
    (hturns : routes.length < turns) :
    matchLoop now dest turns { rt with routeList := before ++ routes } before.length =
      some (routes.find? (stopsAt now dest),
        { rt with routeList := before ++ leave now dest routes }) := by
  induction routes generalizing before turns with
  | nil =>
    obtain ⟨n, rfl⟩ := Nat.exists_eq_succ_of_ne_zero (Nat.ne_of_gt hturns)
    rw [matchLoop]
    simp [leave]
  | cons e routes ih =>
    obtain ⟨n, rfl⟩ := Nat.exists_eq_succ_of_ne_zero (Nat.ne_of_gt (Nat.zero_lt_of_lt hturns))
    rw [List.length_cons, Nat.succ_lt_succ_iff] at hturns
    rw [matchLoop_succ]
    cases hstops : stopsAt now dest e with
    | true =>
      rw [List.find?_cons, hstops] at hlive ⊢
      simp only at hlive
      rw [if_pos rfl, hlive e rfl, leave_cons_of_stopsAt hstops]
      rfl
    | false =>
      rw [List.find?_cons, hstops] at hlive ⊢
      rw [if_neg Bool.false_ne_true, leave_cons_of_not_stopsAt hstops]
      split_ifs
      · exact ih _ hlive hturns
      · rw [ih _ hlive hturns, List.append_assoc]
        rfl

/-- **The search does not end** if it stops at an expired route. -/
theorem matchLoop_eq_none (rt : IPv6RoutingTable) (before : List RouteEntry)
    (hfind : routes.find? (stopsAt now dest) = some e)
    (hexpired : e.route.isExpired now = true) (turns : ℕ) :
    matchLoop now dest turns { rt with routeList := before ++ routes } before.length = none := by
  induction turns generalizing before routes with
  | zero => rfl
  | succ n ih =>
    cases routes with
    | nil => cases hfind
    | cons e' routes =>
      rw [matchLoop_succ]
      cases hstops : stopsAt now dest e' with
      | true =>
        have heq : e' = e := by
          rw [List.find?_cons, hstops] at hfind
          exact Option.some.inj hfind
        rw [if_pos rfl, heq, if_pos hexpired]
        exact ih _ (heq ▸ hfind)
      | false =>
        have hfind' : routes.find? (stopsAt now dest) = some e := by
          rw [List.find?_cons, hstops] at hfind
          exact hfind
        rw [if_neg Bool.false_ne_true]
        split_ifs
        · exact ih _ hfind'
        · exact ih _ hfind'

/-- **The answer of a search** is the route where it stops, however many turns it has taken. -/
theorem eq_find_of_matchLoop (before : List RouteEntry)
    (h : matchLoop now dest turns { rt with routeList := before ++ routes }
    before.length = some (r, rt')) : r = routes.find? (stopsAt now dest) := by
  induction turns generalizing before routes with
  | zero => cases h
  | succ n ih =>
    rcases routes with - | ⟨e, routes⟩
    · rw [matchLoop] at h
      simp only [List.append_nil, List.getElem?_length] at h
      exact (Prod.ext_iff.1 (Option.some.inj h)).1.symm
    · rw [matchLoop_succ] at h
      rw [List.find?_cons]
      split_ifs at h with hstops hexpired hmatches
      · have hagain := ih _ h
        rwa [List.find?_cons] at hagain
      · rw [hstops]
        exact (Prod.ext_iff.1 (Option.some.inj h)).1.symm
      all_goals
        rw [Bool.not_eq_true] at hstops
        rw [hstops]
        exact ih _ h

/-- A search only takes routes out. -/
theorem routeList_sublist_of_matchLoop
    (h : matchLoop now dest turns rt it = some (r, rt')) :
    rt'.useAdminDist = rt.useAdminDist ∧ rt'.routeList.Sublist rt.routeList := by
  induction turns generalizing rt it with
  | zero => cases h
  | succ n ih =>
    rw [matchLoop] at h
    split at h
    · obtain ⟨-, rfl⟩ := Prod.ext_iff.1 (Option.some.inj h)
      exact ⟨rfl, List.Sublist.refl _⟩
    · split_ifs at h
      · obtain ⟨hflag, hsub⟩ := ih h
        exact ⟨hflag, hsub.trans (List.eraseIdx_sublist _ _)⟩
      · exact ih h
      · obtain ⟨-, rfl⟩ := Prod.ext_iff.1 (Option.some.inj h)
        exact ⟨rfl, List.Sublist.refl _⟩
      · exact ih h

/-! ### Runs -/

/-- **One call** keeps the order. -/
theorem InOrder.calls {call : RoutingTableCall} (h : InOrder useAdminDist rt)
    (hcalls : rt.Calls call rt') : InOrder useAdminDist rt' := by
  cases call with
  | addRoute | addStaticRoute | addDefaultRoute | addRoutingProtocolRoute =>
    obtain rfl := hcalls
    exact h.addRoute _
  | removeRoute =>
    obtain rfl := hcalls
    exact h.sublist rfl List.eraseP_sublist
  | deleteRoute =>
    obtain rfl := hcalls
    rw [deleteRoute]
    split
    · exact h.sublist rfl (List.eraseIdx_sublist _ _)
    · exact h
  | deleteOnLinkPrefix =>
    obtain rfl := hcalls
    rw [deleteOnLinkPrefix]
    split
    · exact h.sublist rfl (List.eraseIdx_sublist _ _)
    · exact h
  | deleteAllRoutes =>
    obtain rfl := hcalls
    exact h.sublist rfl (List.nil_sublist _)
  | deleteDefaultRoutes | deletePrefixes | deleteInterfaceRoutes =>
    obtain rfl := hcalls
    exact h.deleteRoutes _
  | addOrUpdateOnLinkPrefix | addOrUpdateOwnAdvPrefix => exact h.addOrUpdatePrefix hcalls
  | setDestination => exact h.setField hcalls fun hcode ↦ absurd (.inl rfl) hcode
  | setPrefixLength => exact h.setField hcalls fun hcode ↦ absurd (.inr (.inl rfl)) hcode
  | setMetric => exact h.setField hcalls fun hcode ↦ absurd (.inr (.inr rfl)) hcode
  | setNextHop | setInterface | setExpiryTime | setSourceType =>
    exact h.setField hcalls fun _ _ ↦ rfl
  | doLongestPrefixMatch =>
    obtain ⟨turns, r, hloop⟩ := hcalls
    obtain ⟨hflag, hsub⟩ := routeList_sublist_of_matchLoop hloop
    exact h.sublist hflag hsub

/-- **The order of the routes**, after any calls. -/
theorem inOrder_of_run {tr : List (Transition IPv6RoutingTable RoutingTableCall Unit)}
    (h : (system useAdminDist).Run tr rt) : InOrder useAdminDist rt := by
  refine h.invariant (I := InOrder useAdminDist) (fun rt hinit ↦ ?_)
    fun rt call _ rt' hrt hstep ↦ hrt.calls hstep
  rw [hinit]
  exact ⟨rfl, List.Pairwise.nil⟩

/-- A right answer, and the table after it: the route matches and has not expired, no such route is
better, and what has been removed had expired. -/
structure Right (useAdminDist : Bool) (now : SimTime) (dest : IPv6Address) (rt : IPv6RoutingTable)
    (r : Option RouteEntry) (rt' : IPv6RoutingTable) : Prop where
  found : ∀ e ∈ r, e ∈ rt.routeList ∧ e.route.Matches dest = true ∧ e.route.isExpired now = false
  best : ∀ e' ∈ rt.routeList, e'.route.Matches dest = true → e'.route.isExpired now = false →
    ∃ e ∈ r, e.route.AsGoodAs useAdminDist e'.route
  order : rt'.routeList.Sublist rt.routeList
  removed : ∃ removed, (rt'.routeList ++ removed).Perm rt.routeList ∧ ∀ e ∈ removed,
    e.route.isExpired now = true ∧ e.route.sourceType = .ROUTER_ADVERTISEMENT

/-- What a search throws away. -/
theorem exists_removed (now : SimTime) (dest : IPv6Address) (routes : List RouteEntry) :
    ∃ removed, (leave now dest routes ++ removed).Perm routes ∧ ∀ e ∈ removed,
      e.route.isExpired now = true ∧ e.route.sourceType = .ROUTER_ADVERTISEMENT := by
  refine ⟨(routes.takeWhile fun e ↦ !stopsAt now dest e).filter fun e ↦ e.route.Matches dest, ?_,
    fun e he ↦ ?_⟩
  · rw [leave, List.append_assoc]
    refine (List.perm_append_comm.append_left _).trans ?_
    rw [← List.append_assoc]
    refine ((List.perm_append_comm.trans (List.filter_append_perm _ _)).append_right _).trans ?_
    rw [List.takeWhile_append_dropWhile]
  · obtain ⟨hpassed, hmatches⟩ := List.mem_filter.1 he
    have hstops := List.mem_takeWhile_imp hpassed
    simpa [stopsAt, hmatches] using hstops

/-- Wherever the search does not stop at a route that has expired, it comes to an end after one turn
for each route and one more at the most, and finds a best route. -/
theorem doLongestPrefixMatch_right {tr : List (Transition IPv6RoutingTable RoutingTableCall Unit)}
    (h : (system useAdminDist).Run tr rt) (now : SimTime) (dest : IPv6Address)
    (hlive : ∀ e ∈ rt.routeList.find? (stopsAt now dest), e.route.isExpired now = false) :
    ∃ r rt', (∀ turns, rt.routeList.length < turns →
        rt.doLongestPrefixMatch now dest turns = some (r, rt')) ∧
      Right useAdminDist now dest rt r rt' := by
  refine ⟨rt.routeList.find? (stopsAt now dest),
    { rt with routeList := leave now dest rt.routeList }, fun turns hturns ↦
      matchLoop_eq_some rt [] hlive hturns, fun e he ↦ ?_, fun e' he' hmatches hexpired ↦ ?_,
    leave_sublist now dest _, exists_removed now dest _⟩
  · have hstops := List.find?_some he
    rw [stopsAt, Bool.and_eq_true] at hstops
    exact ⟨List.mem_of_find?_eq_some he, hstops.1, hlive e he⟩
  · have hstops : stopsAt now dest e' = true := by
      rw [stopsAt, hmatches, hexpired]
      rfl
    obtain ⟨e, he⟩ := Option.isSome_iff_exists.1 (List.find?_isSome.2 ⟨e', he', hstops⟩)
    exact ⟨e, he, IPv6Route.asGoodAs_of_key_le
      ((inOrder_of_run h).2.key_le_of_find? he he' hstops)⟩

/-! ### Small tables -/

/-- The empty table. -/
def emptyTable (useAdminDist : Bool) : IPv6RoutingTable :=
  { useAdminDist }

theorem run_emptyTable (useAdminDist : Bool) :
    (system useAdminDist).Run [] (emptyTable useAdminDist) :=
  .nil rfl

theorem run_call {tr : List (Transition IPv6RoutingTable RoutingTableCall Unit)}
    {call : RoutingTableCall} (h : (system useAdminDist).Run tr rt) (hcalls : rt.Calls call rt') :
    (system useAdminDist).Run (tr ++ [⟨rt, call, (), rt'⟩]) rt' :=
  h.snoc hcalls

theorem run_addRoute {tr : List (Transition IPv6RoutingTable RoutingTableCall Unit)}
    (h : (system useAdminDist).Run tr rt) (route : IPv6Route) : (system useAdminDist).Run
      (tr ++ [⟨rt, .addRoute route, (), rt.addRoute route⟩]) (rt.addRoute route) :=
  run_call h rfl

/-- A default route. -/
def defaultRoute (metric : ℤ) (adminDist : ℕ) : IPv6Route where
  destPrefix := ⟨0, 0, 0, 0⟩
  prefixLength := .zero
  sourceType := .RIP
  metric := metric
  adminDist := adminDist

/-- A route to 2001:db8::/32 that expires after one second. -/
def expiringRoute (sourceType : SourceType) : IPv6Route where
  destPrefix := ⟨0x20010db8, 0, 0, 0⟩
  prefixLength := ⟨32, by decide⟩
  sourceType := sourceType
  expiryTime := SimTime.ms 1000
  adminDist := IPv6Route.dDirectlyConnected

/-- 2001:db8::1. -/
def documentationHost : IPv6Address :=
  ⟨0x20010db8, 0, 0, 1⟩

/-- A default route, and an on-link prefix that expires. -/
def onLinkTable : IPv6RoutingTable :=
  ((emptyTable false).addRoute (defaultRoute 1 120)).addRoute (expiringRoute .ROUTER_ADVERTISEMENT)

/-- When the on-link prefix has expired, the default route is found. -/
theorem doLongestPrefixMatch_right_onLinkTable : ∃ r rt',
    (∀ turns, onLinkTable.routeList.length < turns →
      onLinkTable.doLongestPrefixMatch (SimTime.ms 2000) documentationHost turns = some (r, rt')) ∧
    Right false (SimTime.ms 2000) documentationHost onLinkTable r rt' :=
  doLongestPrefixMatch_right
    (run_addRoute (run_addRoute (run_emptyTable false) (defaultRoute 1 120))
      (expiringRoute .ROUTER_ADVERTISEMENT)) (SimTime.ms 2000) documentationHost (by decide +kernel)

/-- The search does not end at an expired prefix of the router's own, and with administrative
distances it does not ask for the smallest metric first. -/
theorem not_doLongestPrefixMatch_right :
    (¬ ∀ (tr : List (Transition IPv6RoutingTable RoutingTableCall Unit)) (rt : IPv6RoutingTable)
      (now : SimTime) (dest : IPv6Address), (system false).Run tr rt → ∃ turns r rt',
        rt.doLongestPrefixMatch now dest turns = some (r, rt') ∧ Right false now dest rt r rt') ∧
    ¬ ∀ (tr : List (Transition IPv6RoutingTable RoutingTableCall Unit)) (rt : IPv6RoutingTable)
      (now : SimTime) (dest : IPv6Address), (system true).Run tr rt → ∃ turns r rt',
        rt.doLongestPrefixMatch now dest turns = some (r, rt') ∧ Right false now dest rt r rt' := by
  constructor
  · intro h
    have hadded : (emptyTable false).Calls
        (.addOrUpdateOwnAdvPrefix ⟨0x20010db8, 0, 0, 0⟩ ⟨32, by decide⟩ none (SimTime.ms 1000))
        ((emptyTable false).addRoute (expiringRoute .OWN_ADV_PREFIX)) := rfl
    obtain ⟨turns, r, rt', hloop, -⟩ := h _ _ (SimTime.ms 2000) documentationHost
      (run_call (run_emptyTable false) hadded)
    have hhangs : ((emptyTable false).addRoute (expiringRoute .OWN_ADV_PREFIX)).doLongestPrefixMatch
        (SimTime.ms 2000) documentationHost turns = none :=
      matchLoop_eq_none _ [] (e := ⟨0, expiringRoute .OWN_ADV_PREFIX⟩)
        (by decide +kernel) (by decide +kernel) turns
    rw [hhangs] at hloop
    cases hloop
  · intro h
    have hrun := run_addRoute (run_addRoute (run_emptyTable true) (defaultRoute 20 1))
      (defaultRoute 5 120)
    obtain ⟨turns, r, rt', hloop, hright⟩ := h _ _ 0 documentationHost hrun
    obtain ⟨e, he, -, hmetric⟩ := hright.best ⟨1, defaultRoute 5 120⟩ (by decide +kernel)
      (by decide +kernel) (by decide +kernel)
    -- the search stops at the route with the metric 20
    have hr := eq_find_of_matchLoop [] hloop
    rw [hr] at he
    revert e
    decide +kernel

end IPv6RoutingTable

end Inet.IPv6
