import Inet.Routing.RIPConsistency

/-!
# The tables of RIP in every run

Sending and the responses of the neighbours keep the tables consistent, whatever they are. An
interface that is deleted takes the routes of the host and those of the module with it. What the
routing table says about routes of another source keeps the tables consistent if it does not lead to
a second route for a prefix, and if no default route of this module is replaced (`Undisturbed`).
-/

namespace Inet

namespace RIPRouting

variable {P : RIPParameters} {s s' : RIPRouting} {p q r : ℕ} {X : Set ℕ}

/-! ### Sending -/

theorem Consistent.checkRouteIsExpired (h : Consistent P s) (hp : p ∈ s.ripRoutes) :
    Consistent P (s.checkRouteIsExpired P p).2 := by
  rw [RIPRouting.checkRouteIsExpired]
  split_ifs
  exacts [h.purgeRoute hp, h.invalidateRoute hp, h, h]

theorem checkRouteIsExpired_of_valid (h : (s.checkRouteIsExpired P p).1 = true) :
    (s.checkRouteIsExpired P p).2 = s := by
  rw [checkRouteIsExpired] at h ⊢
  split_ifs at h ⊢
  all_goals rfl

/-- What is neither in a table nor a counter does not matter. -/
theorem ConsistentOff.congr (h : ConsistentOff P X s) (hroutes : s'.ripRoutes = s.ripRoutes)
    (hroute : s'.ripRoute = s.ripRoute) (hnext : s'.nextRipRoute = s.nextRipRoute)
    (hrt : s'.rt = s.rt) (hnextRoute : s'.nextRoute = s.nextRoute) : ConsistentOff P X s' := by
  have hentry (r : ℕ) : s'.entry r = s.entry r := congrArg (AList.lookup r) hrt
  have hkey (p : ℕ) : s'.key p = s.key p := by
    rw [key, key, hroute]
  refine ⟨hroutes ▸ h.nodup, ?_, ?_, ?_, ?_, ?_⟩
  · rw [hroutes, hnext]
    exact h.lt_nextRipRoute
  · intro r e he
    rw [hentry] at he
    rw [hnextRoute]
    exact h.lt_nextRoute r e he
  · intro r e he
    rw [hentry] at he
    exact h.accepted r e he
  · intro p hp q hq heq
    rw [hroutes] at hp hq
    rw [hkey, hkey] at heq
    exact h.inj p hp q hq heq
  · intro p hp hX
    rw [hroutes] at hp
    rw [hroute]
    exact (h.ok p hp hX).congr fun r _ ↦ hentry r

/-- **The loop that sends.** What is kept when a route is checked, when an entry is added to the
packet and when the packet is sent, is kept by the loop. -/
theorem results_sendLoop {address : L3Address} {port : ℕ} {ripInterface : RIPInterfaceEntry}
    {changedOnly : Bool} {motive : List RIPEntry → RIPRouting → Prop}
    (hcheck : ∀ packet s p, motive packet s → p ∈ s.ripRoutes →
      motive packet (s.checkRouteIsExpired P p).2)
    (hadd : ∀ packet s p e, motive packet s → p ∈ s.ripRoutes →
      (s.checkRouteIsExpired P p).1 = true →
      routeEntry ripInterface changedOnly (s.ripRoute p) = some e → motive (packet ++ [e]) s)
    (hsend : ∀ packet s, motive packet s →
      motive [] (s.sendPacket P .response packet address port ripInterface.ie))
    (n i : ℕ) (behind : List ℕ) (packet : List RIPEntry) (s : RIPRouting) (h : motive packet s) :
    Results (fun x ↦ motive x.1 x.2) (· ≠ .assertionFailed)
      (s.sendLoop P address port ripInterface changedOnly n i behind packet) := by
  induction n generalizing i behind packet s with
  | zero => exact h
  | succ n ih =>
    rw [sendLoop]
    cases (s.ripRoutes ++ behind)[i]? with
    | none => exact (by decide : RIPError.danglingPointer ≠ .assertionFailed)
    | some p =>
      simp only
      split_ifs with hp hvalid
      · have hsame := checkRouteIsExpired_of_valid hvalid
        rw [hsame]
        cases he : routeEntry ripInterface changedOnly (s.ripRoute p) with
        | none => exact ih _ _ _ _ h
        | some e =>
          have hfilled : Results (fun x ↦ motive x.1 x.2) (· ≠ .assertionFailed)
              (s.fillEntry P address port ripInterface.ie packet e) := by
            rw [fillEntry]
            have hadded := hadd packet s p e h hp hvalid he
            split_ifs
            · exact (by decide : RIPError.indexOutOfRange ≠ .assertionFailed)
            · exact hsend _ _ hadded
            · exact hadded
          exact hfilled.bind fun x hx ↦ ih _ _ _ _ hx
      · exact ih _ _ _ _ (hcheck packet s p h hp)
      · exact (by decide : RIPError.danglingPointer ≠ .assertionFailed)

theorem results_sendRoutes {address : L3Address} {port : ℕ} {ripInterface : RIPInterfaceEntry}
    {changedOnly : Bool} {motive : List RIPEntry → RIPRouting → Prop}
    (hcheck : ∀ packet s p, motive packet s → p ∈ s.ripRoutes →
      motive packet (s.checkRouteIsExpired P p).2)
    (hadd : ∀ packet s p e, motive packet s → p ∈ s.ripRoutes →
      (s.checkRouteIsExpired P p).1 = true →
      routeEntry ripInterface changedOnly (s.ripRoute p) = some e → motive (packet ++ [e]) s)
    (hsend : ∀ packet s, motive packet s →
      motive [] (s.sendPacket P .response packet address port ripInterface.ie))
    (s : RIPRouting) (h : motive [] s) : Results (motive []) (· ≠ .assertionFailed)
      (s.sendRoutes P address port ripInterface changedOnly) := by
  refine (results_sendLoop hcheck hadd hsend s.ripRoutes.length 0 [] [] s h).bind fun x hx ↦ ?_
  obtain ⟨packet, s'⟩ := x
  show motive [] (if packet = [] then s' else _)
  split_ifs with hpacket
  · rwa [hpacket] at hx
  · exact hsend packet s' hx

theorem Consistent.sendRoutes (h : Consistent P s) (address : L3Address) (port : ℕ)
    (ripInterface : RIPInterfaceEntry) (changedOnly : Bool) :
    Results (Consistent P) (· ≠ .assertionFailed)
      (s.sendRoutes P address port ripInterface changedOnly) :=
  results_sendRoutes (motive := fun _ s ↦ Consistent P s) (fun _ _ _ h hp ↦ h.checkRouteIsExpired hp)
    (fun _ _ _ _ h _ _ _ ↦ h) (fun _ _ h ↦ h.congr rfl rfl rfl rfl rfl) s h

theorem Consistent.processUpdate (h : Consistent P s) (triggered : Bool) :
    Results (Consistent P) (· ≠ .assertionFailed) (s.processUpdate P triggered) := by
  refine (Results.foldlM (Q := Consistent P) h fun s elem _ h ↦ ?_).bind fun s' h' ↦ ?_
  · split_ifs
    exacts [h.sendRoutes _ _ _ _, h]
  · have hloop (ps : List ℕ) (s : RIPRouting) (h : Consistent P s) : Consistent P
        (ps.foldl (fun s p ↦ s.setRipRoute p fun x ↦ { x with changed := false }) s) := by
      induction ps generalizing s with
      | nil => exact h
      | cons p ps ih => exact ih _ (h.touch p (fun _ ↦ false) RIPRoute.lastUpdateTime)
    exact hloop _ s' h'

/-! ### Requests and responses -/

theorem Consistent.processRequest (h : Consistent P s) (ctrlInfo : UDPDataIndication)
    (entry : List RIPEntry) :
    Results (Consistent P) (· ≠ .assertionFailed) (s.processRequest P ctrlInfo entry) := by
  have hanswer (entry : List RIPEntry) : Consistent P (s.sendAnswer ctrlInfo entry) :=
    h.congr rfl rfl rfl rfl rfl
  have herror (e : RIPEntry) : Results (fun _ ↦ True) (· ≠ .assertionFailed) (s.answerEntry e) := by
    rw [answerEntry]
    split_ifs
    · trivial
    · exact (by decide : RIPError.invalidRequest ≠ .assertionFailed)
  have hanswers (entry : List RIPEntry) :
      Results (fun _ ↦ True) (· ≠ .assertionFailed) (entry.mapM s.answerEntry) := by
    induction entry with
    | nil => trivial
    | cons e entry ih =>
      rw [List.mapM_cons]
      exact (herror e).bind fun _ _ ↦ ih.bind fun _ _ ↦ trivial
  rw [RIPRouting.processRequest.eq_def]
  split
  · exact h
  · split_ifs
    · split
      · exact h.sendRoutes _ _ _ _
      · exact h
    · exact (by decide : RIPError.invalidRequest ≠ .assertionFailed)
    · exact (herror _).bind fun _ _ ↦ hanswer _
  · exact (hanswers _).bind fun _ _ ↦ hanswer _

theorem mem_of_findRoute {dest : L3Address} {prefixLength : ℤ}
    (h : s.findRoute dest prefixLength = some p) : p ∈ s.ripRoutes ∧ s.key p = (dest, prefixLength) := by
  obtain ⟨hdest, hpfx⟩ : (s.ripRoute p).dest = dest ∧ (s.ripRoute p).prefixLength = prefixLength := by
    simpa using List.find?_some h
  exact ⟨List.mem_of_find?_eq_some h, Prod.ext hdest hpfx⟩

theorem key_ne_of_findRoute {dest : L3Address} {prefixLength : ℤ}
    (h : s.findRoute dest prefixLength = none) (hq : q ∈ s.ripRoutes) :
    s.key q ≠ (dest, prefixLength) := by
  intro heq
  refine absurd (List.find?_eq_none.1 h q hq) (not_not.2 (decide_eq_true ?_))
  exact Prod.ext_iff.1 heq

theorem Consistent.processEntry (h : Consistent P s) (incomingIe : RIPInterfaceEntry)
    (srcAddr : L3Address) {e : RIPEntry} (he : 1 ≤ e.metric) :
    Results (Consistent P) (· ≠ .assertionFailed) (processEntry P incomingIe srcAddr s e) := by
  have hpos : 1 ≤ min (e.metric + incomingIe.metric) RIP_INFINITE_METRIC :=
    le_min (he.trans (Nat.le_add_right _ _)) (by decide)
  have hle : min (e.metric + incomingIe.metric) RIP_INFINITE_METRIC ≤ RIP_INFINITE_METRIC :=
    min_le_right _ _
  rw [RIPRouting.processEntry]
  simp only
  generalize (if e.nextHop = 0 then srcAddr else e.nextHop) = nextHop
  cases hfind : s.findRoute e.address e.prefixLength with
  | none =>
    simp only
    split_ifs with hmetric
    · exact h.addRoute (fun q hq ↦ key_ne_of_findRoute hfind hq) hpos (lt_of_le_of_ne hle hmetric)
    · exact h
  | some p =>
    have hp := (mem_of_findRoute hfind).1
    have htouched : Consistent P (s.setRipRoute p fun x ↦ { x with lastUpdateTime := s.now }) :=
      h.touch p RIPRoute.changed fun _ ↦ s.now
    simp only
    split_ifs
    exacts [h, htouched.updateRoute hp hpos hle, h.updateRoute hp hpos hle, htouched, h]

theorem Consistent.processResponse (h : Consistent P s) (ctrlInfo : UDPDataIndication)
    (entry : List RIPEntry) :
    Results (Consistent P) (· ≠ .assertionFailed) (s.processResponse P ctrlInfo entry) := by
  rw [RIPRouting.processResponse]
  split_ifs with hvalid
  · cases s.findInterfaceById ctrlInfo.interfaceId with
    | none => exact h
    | some incomingIe =>
      obtain ⟨-, -, -, -, hentries⟩ := of_decide_eq_true hvalid
      exact Results.foldlM h fun s e he h ↦ h.processEntry incomingIe _ (hentries e he).1
  · exact h

/-! ### Interfaces -/

theorem Fades.ie (h : Fades s s') (p : ℕ) : (s'.ripRoute p).ie = (s.ripRoute p).ie := by
  rcases h.ripRoute p with h | h <;> rw [h]
  rfl

theorem Consistent.deleteInterface (h : Consistent P s) (ie : ℕ) :
    Consistent P (s.deleteInterface P ie) := by
  -- the routes of the interface may be left without what they are linked to
  have hloop (es : List ((_ : ℕ) × IRoute)) (s' : RIPRouting)
      (hs' : ConsistentOff P {p | (s.ripRoute p).ie = some ie} s') (hfades : Fades s s')
      (hes : ∀ e ∈ es, s.entry e.1 = some e.2 ∧ e.2.ie = some ie) :
      ConsistentOff P {p | (s.ripRoute p).ie = some ie}
        (es.foldl (fun s e ↦ s.deleteRoute P e.1) s') ∧
        Fades s (es.foldl (fun s e ↦ s.deleteRoute P e.1) s') := by
    induction es generalizing s' with
    | nil => exact ⟨hs', hfades⟩
    | cons e es ih =>
      rw [List.forall_mem_cons] at hes
      refine ih _ (hs'.deleteRoute fun e' he' hrip p hp hX hlink ↦ hX ?_)
        (hfades.trans (fades_deleteRoute _ _)) hes.2
      obtain ⟨-, e'', he'', -, hagrees⟩ := (hs'.ok p hp hX).linked _ hlink
      obtain rfl := Option.some.inj (he'.symm.trans he'')
      obtain rfl := Option.some.inj ((hfades.entry _ _ he').symm.trans hes.1.1)
      exact (hfades.ie p).symm.trans ((hagrees hrip).ie.symm.trans hes.1.2)
  obtain ⟨hoff, hfades⟩ := hloop (s.rt.entries.filter fun e ↦ e.2.ie = some ie) s
    (h.mono (Set.empty_subset _)) (.refl s) fun e he ↦ by
      obtain ⟨he, hie⟩ := List.mem_filter.1 he
      exact ⟨AList.mem_lookup_iff.2 he, of_decide_eq_true hie⟩
  rw [RIPRouting.deleteInterface]
  generalize (s.rt.entries.filter fun e ↦ e.2.ie = some ie).foldl
    (fun s e ↦ s.deleteRoute P e.1) s = s' at hoff hfades
  refine ConsistentOff.congr (hoff.of_sublist List.filter_sublist fun p hp hX ↦ ?_) rfl rfl rfl rfl rfl
  obtain ⟨-, hie⟩ := List.mem_filter.1 hp
  exact of_decide_eq_true hie ((hfades.ie p).trans hX)

theorem Consistent.handleInterfaceUp (h : Consistent P s) (ie : ℕ) :
    Consistent P (s.handleInterfaceUp P ie) := by
  rw [RIPRouting.handleInterfaceUp]
  cases s.findInterfaceById ie with
  | none => exact h
  | some ripInterface =>
    simp only
    split_ifs
    exacts [h.congr rfl rfl rfl rfl rfl, h]

theorem getInterfaceMetric_bounds (s : RIPRouting) (ie : ℕ) :
    1 ≤ s.getInterfaceMetric ie ∧ s.getInterfaceMetric ie < RIP_INFINITE_METRIC := by
  rw [getInterfaceMetric]
  cases s.findInterfaceById ie with
  | none => exact ⟨le_rfl, by decide⟩
  | some ripIe => exact ⟨ripIe.metric_pos, ripIe.metric_lt⟩

/-! ### Routes of other sources -/

/-- A route that is linked to a route of another source is in order. -/
theorem routeOk_of_foreign {x : RIPRoute} {e : IRoute} (hpos : 1 ≤ x.metric)
    (hlt : x.metric < RIP_INFINITE_METRIC) (hroute : x.route = some r) (he : s.entry r = some e)
    (htype : x.type ≠ .rte) (hrip : e.source ≠ .rip) : s.RouteOk x := by
  refine ⟨hpos, hlt.le, fun hnone ↦ ?_, fun r' hr' ↦ ?_⟩
  · rw [hroute] at hnone
    cases hnone
  · obtain rfl := Option.some.inj (hroute.symm.trans hr')
    exact ⟨hlt, e, he, fun hrte ↦ absurd hrte htype, fun hsource ↦ absurd hsource hrip⟩

/-- **What the routing table says** about a route of another source leads to no second route for a
prefix, and no default route of this module is replaced. -/
def Undisturbed (P : RIPParameters) (s : RIPRouting) : RIPEvent → Prop
  | .routeAdded route =>
    KeepsDefault P route.prefixLength ∅ s ∧
      ∀ ie, route.source = .interfaceEntry ie false → s.findRouteByInterface ie .interface = none →
        ∀ q ∈ s.ripRoutes, s.key q ≠ (route.dest, route.prefixLength)
  | .routeChanged r route =>
    (∀ e, s.entry r = some e →
      ¬ (e.dest = route.dest ∧ e.prefixLength = route.prefixLength ∧ e.metric = route.metric) →
        KeepsDefault P route.prefixLength ∅ (s.eraseEntry r)) ∧
      ∀ p ∈ s.ripRoutes, (s.ripRoute p).route = some r →
        ∀ q ∈ s.ripRoutes, q ≠ p → s.key q ≠ (route.dest, route.prefixLength)
  | _ => True

theorem mem_of_findRouteByInterface {ie : ℕ} {type : RouteType}
    (h : s.findRouteByInterface ie type = some p) : p ∈ s.ripRoutes ∧ (s.ripRoute p).type = type := by
  have hp : (s.ripRoute p).type = type ∧ (s.ripRoute p).ie = some ie := by
    simpa using List.find?_some h
  exact ⟨List.mem_of_find?_eq_some h, hp.1⟩

theorem Added.findRouteByInterface {route : IRoute} {x : ℕ × RIPRouting}
    (h : Added P X route s x) (ie : ℕ) (type : RouteType) :
    x.2.findRouteByInterface ie type = s.findRouteByInterface ie type := by
  have hsame (p : ℕ) : (x.2.ripRoute p).type = (s.ripRoute p).type ∧
      (x.2.ripRoute p).ie = (s.ripRoute p).ie := by
    rcases h.faded p with h | h <;> rw [h]
    exacts [⟨rfl, rfl⟩, ⟨rfl, rfl⟩]
  rw [RIPRouting.findRouteByInterface, RIPRouting.findRouteByInterface, h.ripRoutes]
  congr 1
  funext p
  rw [(hsame p).1, (hsame p).2]

theorem Consistent.routeAdded {route : IRoute} (h : Consistent P s) (hsource : route.source ≠ .rip)
    (hundisturbed : Undisturbed P s (.routeAdded route)) :
    Results (Consistent P) (· ≠ .assertionFailed) (s.handle P (.routeAdded route)) := by
  obtain ⟨hkeeps, himport⟩ := hundisturbed
  refine (h.addIRoute fun _ ↦ hkeeps).bind fun x hx ↦ ?_
  have hx' : Consistent P x.2 := hx.consistent
  show Consistent P (x.2.handleRouteAdded P x.1 route)
  rw [handleRouteAdded.eq_def]
  split
  · rename_i ie hie
    obtain ⟨hpos, hlt⟩ := getInterfaceMetric_bounds x.2 ie
    cases hfind : x.2.findRouteByInterface ie .interface with
    | some p =>
      obtain ⟨hp, htype⟩ := mem_of_findRouteByInterface hfind
      refine ConsistentOff.triggerUpdate (ConsistentOff.setRipRoute_of_ok hx' _ ?_ fun q hq hqp heq ↦
        hqp (hx'.inj q hq p hp heq))
      refine routeOk_of_foreign hpos hlt rfl hx.entry ?_ hsource
      rw [htype]
      decide
    | none =>
      refine Consistent.pushRoute hx' (routeOk_of_foreign hpos hlt rfl hx.entry
        (show RouteType.interface ≠ .rte by decide) hsource) fun q hq ↦ ?_
      rw [hx.key]
      rw [hx.ripRoutes] at hq
      rw [hx.findRouteByInterface] at hfind
      exact himport ie hie hfind q hq
  · exact hx'

/-- A route of another source is changed. -/
theorem Consistent.insertForeign {e route : IRoute} (h : Consistent P s) (he : s.entry r = some e)
    (hsource : e.source ≠ .rip) (hroute : route.source ≠ .rip) :
    Consistent P (s.insertEntry r route) := by
  refine ⟨h.nodup, h.lt_nextRipRoute, fun r' e₁ he₁ ↦ ?_, fun r' e₁ he₁ hrip ↦ ?_, h.inj,
    fun p hp _ ↦ ?_⟩
  · rw [insertEntry_entry] at he₁
    split_ifs at he₁ with heq
    · exact heq ▸ h.lt_nextRoute r e he
    · exact h.lt_nextRoute r' e₁ he₁
  · rw [insertEntry_entry] at he₁
    split_ifs at he₁ with heq
    · obtain rfl := Option.some.inj he₁
      exact absurd hrip hroute
    · exact h.accepted r' e₁ he₁ hrip
  · have hok := h.ok p hp (Set.notMem_empty p)
    by_cases hlink : (s.ripRoute p).route = some r
    · obtain ⟨hlt, e', he', htype, -⟩ := hok.linked r hlink
      obtain rfl := Option.some.inj (he.symm.trans he')
      refine routeOk_of_foreign hok.metric_pos hlt hlink ?_ (fun hrte ↦ hsource (htype hrte)) hroute
      rw [insertEntry_entry, if_pos rfl]
    · refine hok.congr fun r' hr' ↦ ?_
      rw [insertEntry_entry, if_neg]
      rintro rfl
      exact hlink hr'

theorem Consistent.changeIRoute {e route : IRoute} (h : Consistent P s) (he : s.entry r = some e)
    (hsource : e.source ≠ .rip) (hroute : route.source ≠ .rip)
    (hkeeps : ¬ (e.dest = route.dest ∧ e.prefixLength = route.prefixLength ∧
      e.metric = route.metric) → KeepsDefault P route.prefixLength ∅ (s.eraseEntry r)) :
    Results (fun s' ↦ Consistent P s' ∧ s'.entry r = some route ∧ s'.ripRoutes = s.ripRoutes ∧
      ∀ p, s'.ripRoute p = s.ripRoute p ∨ s'.ripRoute p = (s.ripRoute p).invalidated)
      (· ≠ .assertionFailed) (s.changeIRoute P r route) := by
  rw [RIPRouting.changeIRoute, he]
  simp only
  split_ifs with hsame haccepts
  · refine ⟨h.insertForeign he hsource hroute, ?_, rfl, fun p ↦ .inl rfl⟩
    rw [insertEntry_entry, if_pos rfl]
  · -- the routes that are linked to the route are not in order until it is added again
    have herased : ConsistentOff P {p | (s.ripRoute p).route = some r} (s.eraseEntry r) :=
      (h.mono (Set.empty_subset _)).fades (fades_eraseEntry r s) fun p _ hX _ r' hr' ↦ by
        rw [eraseEntry_entry, if_neg]
        rintro rfl
        exact hX hr'
    have hfades : Fades s ((s.eraseEntry r).replaceDefaultRoute P route.prefixLength) :=
      (fades_eraseEntry r s).trans (fades_replaceDefaultRoute _ _)
    have hreplaced : ConsistentOff P {p | (s.ripRoute p).route = some r}
        ((s.eraseEntry r).replaceDefaultRoute P route.prefixLength) :=
      herased.replaceDefaultRoute fun r' e' hr' he' hrip p hp _ ↦
        hkeeps hsame r' e' hr' he' hrip p hp (Set.notMem_empty p)
    generalize (s.eraseEntry r).replaceDefaultRoute P route.prefixLength = s' at hfades hreplaced
    have hentry (r' : ℕ) : (s'.insertEntry r route).entry r' =
        if r' = r then some route else s'.entry r' := insertEntry_entry _ _ _ _
    refine ⟨⟨hreplaced.nodup, hreplaced.lt_nextRipRoute, fun r' e₁ he₁ ↦ ?_,
      fun r' e₁ he₁ hrip ↦ ?_, hreplaced.inj, fun p hp _ ↦ ?_⟩, ?_, hfades.ripRoutes,
      hfades.ripRoute⟩
    · rw [hentry] at he₁
      split_ifs at he₁ with heq
      · rw [heq]
        exact hfades.nextRoute.symm ▸ h.lt_nextRoute r e he
      · exact hreplaced.lt_nextRoute r' e₁ he₁
    · rw [hentry] at he₁
      split_ifs at he₁ with heq
      · obtain rfl := Option.some.inj he₁
        exact absurd hrip hroute
      · exact hreplaced.accepted r' e₁ he₁ hrip
    · have hp' : p ∈ s.ripRoutes := hfades.ripRoutes ▸ hp
      have hok := h.ok p hp' (Set.notMem_empty p)
      by_cases hlink : (s.ripRoute p).route = some r
      · obtain ⟨hlt, e', he', htype, -⟩ := hok.linked r hlink
        obtain rfl := Option.some.inj (he.symm.trans he')
        rcases hfades.ripRoute p with heq | heq
        · show RouteOk _ (s'.ripRoute p)
          rw [heq]
          refine routeOk_of_foreign hok.metric_pos hlt hlink ?_ (fun hrte ↦ hsource (htype hrte)) hroute
          rw [hentry, if_pos rfl]
        · show RouteOk _ (s'.ripRoute p)
          rw [heq]
          exact .invalidated _ _
      · refine (hreplaced.ok p hp hlink).congr fun r' hr' ↦ ?_
        rw [hentry, if_neg]
        rintro rfl
        rcases hfades.ripRoute p with heq | heq
        · rw [heq] at hr'
          exact hlink hr'
        · rw [heq] at hr'
          cases hr'
    · rw [hentry, if_pos rfl]
  · exact (by decide : RIPError.badRoute ≠ .assertionFailed)

theorem Consistent.routeChanged {e route : IRoute} (h : Consistent P s) (he : s.entry r = some e)
    (hsource : e.source ≠ .rip) (hroute : route.source = e.source)
    (hundisturbed : Undisturbed P s (.routeChanged r route)) :
    Results (Consistent P) (· ≠ .assertionFailed) (s.handle P (.routeChanged r route)) := by
  obtain ⟨hkeeps, hkey⟩ := hundisturbed
  have hforeign : route.source ≠ .rip := hroute ▸ hsource
  refine (h.changeIRoute he hsource hforeign (hkeeps e he)).bind fun s' hs' ↦ ?_
  obtain ⟨h', he', hroutes, hfaded⟩ := hs'
  show Consistent P (s'.handleRouteChanged P r route)
  rw [handleRouteChanged]
  cases hfind : s'.findRouteByLink r with
  | none => exact h'
  | some p =>
    have hp : p ∈ s'.ripRoutes := List.mem_of_find?_eq_some hfind
    have hlink : (s'.ripRoute p).route = some r := by simpa using List.find?_some hfind
    have hok := h'.ok p hp (Set.notMem_empty p)
    obtain ⟨hlt, e₁, he₁, htype, -⟩ := hok.linked r hlink
    obtain rfl := Option.some.inj (he'.symm.trans he₁)
    have hchanged : Consistent P (s'.setRipRoute p fun x ↦
        { x with
          dest := route.dest, prefixLength := route.prefixLength, nextHop := route.nextHop
          ie := route.ie }) := by
      refine ConsistentOff.setRipRoute_of_ok h' _ (routeOk_of_foreign hok.metric_pos hlt hlink he'
        (fun hrte ↦ hforeign (htype hrte)) hforeign) fun q hq hqp ↦ ?_
      rw [hroutes] at hp hq
      have hlink' : (s.ripRoute p).route = some r := by
        rcases hfaded p with heq | heq
        · rw [← heq]
          exact hlink
        · rw [heq] at hlink
          cases hlink
      have hsame : s'.key q = s.key q := by
        rw [key, key]
        rcases hfaded q with heq | heq <;> rw [heq]
        rfl
      rw [hsame]
      exact hkey p hp hlink' q hq hqp
    simp only
    split_ifs
    · exact (Consistent.touch hchanged p (fun _ ↦ true) RIPRoute.lastUpdateTime).triggerUpdate
    · exact hchanged

/-! ### The start -/

/-- A route of the host that is imported when the module starts. -/
def IsImported (P : RIPParameters) (route : IRoute) : Prop :=
  match route.source with
  | .interfaceEntry _ isLoopback => isLoopback = false
  | _ => route.prefixLength = 0 ∨ P.isMulticast route.dest = false ∧ P.isLinkLocal route.dest = false

/-- The routes that are imported are for different prefixes. -/
def ImportsDistinct (P : RIPParameters) (s : RIPRouting) : Prop :=
  ∀ r e r' e', s.entry r = some e → s.entry r' = some e' → IsImported P e → IsImported P e' →
    e.dest = e'.dest → e.prefixLength = e'.prefixLength → r = r'

theorem configureInitialRoute_eq (s : RIPRouting) (e : (_ : ℕ) × IRoute) :
    configureInitialRoute P s e = s ∨ IsImported P e.2 ∧ ∃ type metric, type ≠ .rte ∧ 1 ≤ metric ∧
      metric < RIP_INFINITE_METRIC ∧
      configureInitialRoute P s e = s.importRoute e.1 e.2 type metric := by
  have hone : 1 < RIP_INFINITE_METRIC := by decide
  obtain ⟨r, dest, prefixLength, nextHop, ie, metric, source⟩ := e
  have hother (hsource : ∀ ie isLoopback, source ≠ .interfaceEntry ie isLoopback) :
      configureInitialRoute P s ⟨r, dest, prefixLength, nextHop, ie, metric, source⟩ =
        (if prefixLength = 0 then
          s.importRoute r ⟨dest, prefixLength, nextHop, ie, metric, source⟩ .default 1
        else if P.isMulticast dest = false ∧ P.isLinkLocal dest = false then
          s.importRoute r ⟨dest, prefixLength, nextHop, ie, metric, source⟩ .static 1
        else s) ∧ (IsImported P ⟨dest, prefixLength, nextHop, ie, metric, source⟩ ↔
          prefixLength = 0 ∨ P.isMulticast dest = false ∧ P.isLinkLocal dest = false) := by
    cases source with
    | interfaceEntry ie isLoopback => exact absurd rfl (hsource ie isLoopback)
    | rip => exact ⟨rfl, Iff.rfl⟩
    | other => exact ⟨rfl, Iff.rfl⟩
  cases source with
  | interfaceEntry ie isLoopback =>
    cases isLoopback with
    | true => exact .inl rfl
    | false =>
      obtain ⟨hpos, hlt⟩ := getInterfaceMetric_bounds s ie
      exact .inr ⟨rfl, .interface, _, by decide, hpos, hlt, rfl⟩
  | rip =>
    obtain ⟨heq, himported⟩ := hother fun _ _ h ↦ by cases h
    rw [heq, himported]
    split_ifs with hdefault hunicast
    · exact .inr ⟨.inl hdefault, .default, 1, by decide, le_rfl, hone, rfl⟩
    · exact .inr ⟨.inr hunicast, .static, 1, by decide, le_rfl, hone, rfl⟩
    · exact .inl rfl
  | other =>
    obtain ⟨heq, himported⟩ := hother fun _ _ h ↦ by cases h
    rw [heq, himported]
    split_ifs with hdefault hunicast
    · exact .inr ⟨.inl hdefault, .default, 1, by decide, le_rfl, hone, rfl⟩
    · exact .inr ⟨.inr hunicast, .static, 1, by decide, le_rfl, hone, rfl⟩
    · exact .inl rfl

theorem pushRoute_key {x : RIPRoute} (hp : p ∈ (s.pushRoute x).ripRoutes)
    (hfresh : ∀ q ∈ s.ripRoutes, q < s.nextRipRoute) :
    p ∈ s.ripRoutes ∧ (s.pushRoute x).key p = s.key p ∨
      (s.pushRoute x).key p = (x.dest, x.prefixLength) := by
  rcases List.mem_append.1 hp with hp | hp
  · refine .inl ⟨hp, ?_⟩
    rw [key, pushRoute_of_ne x (hfresh p hp).ne, ← key]
  · rw [List.mem_singleton.1 hp, key, pushRoute_self]
    exact .inr rfl

/-- **The initial routes.** -/
theorem Consistent.configureInitialRoutes (es : List ((_ : ℕ) × IRoute)) (h : Consistent P s)
    (hes : ∀ e ∈ es, s.entry e.1 = some e.2 ∧ e.2.source ≠ .rip)
    (hdistinct : es.Pairwise fun e e' ↦ IsImported P e.2 → IsImported P e'.2 →
      (e.2.dest, e.2.prefixLength) ≠ (e'.2.dest, e'.2.prefixLength))
    (hnew : ∀ p ∈ s.ripRoutes, ∀ e ∈ es, IsImported P e.2 →
      s.key p ≠ (e.2.dest, e.2.prefixLength)) :
    Consistent P (es.foldl (configureInitialRoute P) s) ∧
      (es.foldl (configureInitialRoute P) s).rt = s.rt := by
  induction es generalizing s with
  | nil => exact ⟨h, rfl⟩
  | cons e es ih =>
    rw [List.forall_mem_cons] at hes
    rw [List.pairwise_cons] at hdistinct
    rw [List.foldl_cons]
    rcases configureInitialRoute_eq s e with heq | ⟨himported, type, metric, htype, hpos, hlt, heq⟩
    · rw [heq]
      exact ih h hes.2 hdistinct.2 fun p hp e' he' ↦ hnew p hp e' (List.mem_cons_of_mem _ he')
    · rw [heq]
      have hpushed : Consistent P (s.importRoute e.1 e.2 type metric) :=
        h.pushRoute (routeOk_of_foreign hpos hlt rfl hes.1.1 htype hes.1.2) fun q hq ↦
          hnew q hq e List.mem_cons_self himported
      refine ih hpushed hes.2 hdistinct.2 fun p hp e' he' himported' ↦ ?_
      rcases pushRoute_key hp h.lt_nextRipRoute with ⟨hp, hkey⟩ | hkey
      · exact fun heq ↦ hnew p hp e' (List.mem_cons_of_mem _ he') himported' (hkey.symm.trans heq)
      · exact fun heq ↦ hdistinct.1 e' he' himported himported' (hkey.symm.trans heq)

/-- The requests change nothing else. -/
theorem foldl_sendRIPRequest (elems : List RIPInterfaceEntry) (s : RIPRouting) :
    ∃ sent, elems.foldl (fun s elem ↦ s.sendRIPRequest P elem) s = { s with sent := sent } := by
  induction elems generalizing s with
  | nil => exact ⟨s.sent, rfl⟩
  | cons elem elems ih =>
    obtain ⟨sent, h⟩ := ih (s.sendRIPRequest P elem)
    exact ⟨sent, h⟩

/-- **The module starts** with consistent tables if no two routes for one prefix are imported. -/
theorem Starts.consistent (hstart : Starts P s) (hdistinct : ImportsDistinct P s) :
    Consistent P s := by
  obtain ⟨now, ripInterfaces, rt, nextRoute, rfl, hrt⟩ := hstart
  have hlookup (e : (_ : ℕ) × IRoute) : e ∈ rt.entries ↔ rt.lookup e.1 = some e.2 :=
    AList.mem_lookup_iff.symm
  let start : RIPRouting :=
    { now := now, ripInterfaces := ripInterfaces, rt := rt, nextRoute := nextRoute }
  have hempty : Consistent P start := by
    refine ⟨List.nodup_nil, List.forall_mem_nil _, fun r e he ↦ ?_, fun r e he hrip ↦ ?_,
      List.forall_mem_nil _, List.forall_mem_nil _⟩
    · exact (hrt ⟨r, e⟩ ((hlookup ⟨r, e⟩).2 he)).1
    · exact absurd hrip (hrt ⟨r, e⟩ ((hlookup ⟨r, e⟩).2 he)).2
  rw [startRIPRouting] at hdistinct ⊢
  obtain ⟨sent, hsent⟩ := foldl_sendRIPRequest (P := P)
    ((rt.entries.foldl (configureInitialRoute P) start).ripInterfaces.filter
      fun elem ↦ elem.mode ≠ .noRIP) (rt.entries.foldl (configureInitialRoute P) start)
  -- the table of the host stays as it is, so that its prefixes are those at the start
  have hrt' (es : List ((_ : ℕ) × IRoute)) (s : RIPRouting) :
      (es.foldl (configureInitialRoute P) s).rt = s.rt := by
    induction es generalizing s with
    | nil => rfl
    | cons e es ih =>
      rw [List.foldl_cons, ih]
      rcases configureInitialRoute_eq s e with heq | ⟨-, type, metric, -, -, -, heq⟩ <;> rw [heq]
      rfl
  simp only [start] at hsent hrt' hempty
  simp only [hsent] at hdistinct ⊢
  refine ConsistentOff.congr (Consistent.configureInitialRoutes rt.entries hempty
    (fun e he ↦ ⟨(hlookup e).1 he, (hrt e he).2⟩) ?_ (List.forall_mem_nil _)).1 rfl rfl rfl rfl rfl
  have hnodup : rt.entries.Pairwise fun e e' ↦ e.1 ≠ e'.1 := List.pairwise_map.1 rt.nodupKeys
  refine hnodup.imp_of_mem fun {e e'} he he' hne himported himported' heq ↦ hne ?_
  refine hdistinct e.1 e.2 e'.1 e'.2 ?_ ?_ himported himported' (Prod.ext_iff.1 heq).1
    (Prod.ext_iff.1 heq).2
  · exact (congrArg (AList.lookup e.1) (hrt' _ _)).trans ((hlookup e).1 he)
  · exact (congrArg (AList.lookup e'.1) (hrt' _ _)).trans ((hlookup e').1 he')

/-! ### Every run -/

/-- **One step.** -/
theorem Consistent.handle {event : RIPEvent} (h : Consistent P s) (hallowed : s.Allowed event)
    (hundisturbed : Undisturbed P s event) :
    Results (Consistent P) (· ≠ .assertionFailed) (s.handle P event) := by
  cases event with
  | advance t => exact h.congr rfl rfl rfl rfl rfl
  | updateTimer =>
    have hcleared : Consistent P { s with updateTimer := none } := h.congr rfl rfl rfl rfl rfl
    exact (hcleared.processUpdate false).bind fun s' h' ↦
      ConsistentOff.congr h' rfl rfl rfl rfl rfl
  | triggeredUpdateTimer =>
    have hcleared : Consistent P { s with triggeredUpdateTimer := none } :=
      h.congr rfl rfl rfl rfl rfl
    exact hcleared.processUpdate true
  | request ctrlInfo entry => exact h.processRequest ctrlInfo entry
  | response ctrlInfo entry => exact h.processResponse ctrlInfo entry
  | interfaceCreated ripInterface => exact h.congr rfl rfl rfl rfl rfl
  | interfaceDeleted ie => exact h.deleteInterface ie
  | interfaceUp ie => exact h.handleInterfaceUp ie
  | interfaceDown ie => exact h.invalidateRoutes ie
  | routeAdded route => exact h.routeAdded hallowed hundisturbed
  | routeDeleted r =>
    obtain ⟨e, he, hsource⟩ := hallowed
    refine h.deleteRoute fun e' he' hrip ↦ absurd hrip ?_
    obtain rfl := Option.some.inj (he.symm.trans he')
    exact hsource
  | routeChanged r route =>
    obtain ⟨e, he, hsource, hroute⟩ := hallowed
    exact h.routeChanged he hsource hroute hundisturbed

/-- RIP in an IPv4 host whose multicast addresses are those from 1000 on, with the default
intervals. -/
def RIPv2Parameters : RIPParameters where
  mode := .RIPv2
  ripUdpPort := 520
  updateInterval := 30
  routeExpiryTime := 180
  routePurgeTime := 120
  triggeredUpdateDelay _ := 3
  linkLocalRIPRoutersMulticastAddress := 1000
  maxPrefixLength := 32
  isUnicast a := a < 1000
  isMulticast a := 1000 ≤ a
  isLinkLocal _ := false
  mtu _ := 1500
  acceptsRoute dest prefixLength := prefixLength ≠ 0 ∨ dest = 0
  isMulticast_linkLocalRIPRouters := rfl
  eq_zero_of_acceptsRoute := by simp

/-- The route of an interface to its network. -/
def interfaceRoute (ie : ℕ) (dest : L3Address) : IRoute :=
  ⟨dest, 24, 0, some ie, 1, .interfaceEntry ie false⟩

/-- An interface with the default cost. -/
def defaultInterface (ie : ℕ) : RIPInterfaceEntry :=
  ⟨ie, 1, .splitHorizonPoisonedReverse, by decide, by decide⟩

/-- A router with two networks. -/
def twoNetworks : RIPRouting :=
  startRIPRouting RIPv2Parameters 0 [defaultInterface 0, defaultInterface 1]
    ((AList.insert 0 (interfaceRoute 0 10) ∅).insert 1 (interfaceRoute 1 20)) 2

/-- A neighbour in the second network has a route. -/
def neighbourHasRoute (dest : L3Address) (metric : ℕ) : RIPEvent :=
  .response ⟨21, 520, 1, 1, false, true⟩ [⟨RIP_AF_INET, 0, dest, 24, 0, metric⟩]

theorem twoNetworks_starts : Starts RIPv2Parameters twoNetworks :=
  ⟨0, _, _, 2, rfl, by decide⟩

/-- What an event that does not fail leads to. -/
def after (P : RIPParameters) (s : RIPRouting) (event : RIPEvent) : RIPRouting × List RIPPacket :=
  match { s with sent := [] }.handle P event with
  | .ok s' => (s', s'.sent)
  | .error _ => (s, [])

theorem step_after (s : RIPRouting) (event : RIPEvent) (hallowed : s.Allowed event)
    (hok : ({ s with sent := [] }.handle P event).toOption.isSome = true) :
    (system P).Step s event (after P s event).2 (after P s event).1 := by
  refine ⟨hallowed, ?_⟩
  rw [after]
  cases h : { s with sent := [] }.handle P event with
  | error e =>
    rw [h] at hok
    cases hok
  | ok s' => exact ⟨rfl, rfl⟩

end RIPRouting

end Inet
