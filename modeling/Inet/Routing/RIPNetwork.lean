import Inet.Foundations.WeightedWalks
import Inet.Routing.RIPReachable

/-!
# A network of RIP routers

Routers that send to each other. A response that has been sent stays in the air, and may arrive at
any time, more than once or never, at any router that hears the sender. Every router has its own
clock, its timers fire, its interfaces go down and come back, and routes of the host may be deleted.
The host adds no route and no interface, so that what a router knows by itself is what it has
started with.

A metric is never too good: it is the metric with which some router has started, and the costs of
the interfaces on which it has been heard on the way (`metric_heard`).
-/

namespace Inet

open TransitionSystem WeightedWalks

/-- What an entry says is justified, if it says that there is a route. -/
def RIPEntry.Justified (J : L3Address × ℤ → ℕ → Prop) (e : RIPEntry) : Prop :=
  e.metric < RIP_INFINITE_METRIC → J (e.address, e.prefixLength) e.metric

/-- The host adds and changes no route, and adds no interface. -/
def RIPEvent.Fixed : RIPEvent → Prop
  | .routeAdded _ | .routeChanged _ _ | .interfaceCreated _ => False
  | _ => True

namespace RIPRouting

variable {P : RIPParameters} {s s' s'' : RIPRouting} {p : ℕ}
  {J : L3Address × ℤ → ℕ → Prop} {I : List RIPInterfaceEntry}

/-! ### What an operation may weaken -/

/-- Routes may have been removed or invalidated, and interfaces removed. Nothing has been sent. -/
structure Weakens (s s' : RIPRouting) : Prop where
  ripRoutes : ∀ p ∈ s'.ripRoutes, p ∈ s.ripRoutes
  ripInterfaces : ∀ elem ∈ s'.ripInterfaces, elem ∈ s.ripInterfaces
  sent : s'.sent = s.sent
  key : ∀ p, s'.key p = s.key p
  metric : ∀ p, (s'.ripRoute p).metric = (s.ripRoute p).metric ∨
    (s'.ripRoute p).metric = RIP_INFINITE_METRIC

namespace Weakens

theorem refl (s : RIPRouting) : Weakens s s :=
  ⟨fun _ h ↦ h, fun _ h ↦ h, rfl, fun _ ↦ rfl, fun _ ↦ .inl rfl⟩

theorem trans (h : Weakens s s') (h' : Weakens s' s'') : Weakens s s'' where
  ripRoutes p hp := h.ripRoutes p (h'.ripRoutes p hp)
  ripInterfaces elem helem := h.ripInterfaces elem (h'.ripInterfaces elem helem)
  sent := h'.sent.trans h.sent
  key p := (h'.key p).trans (h.key p)
  metric p := by
    rcases h'.metric p with h' | h'
    · rw [h']
      exact h.metric p
    · exact .inr h'

theorem of_fades (h : Fades s s') : Weakens s s' where
  ripRoutes _ hp := h.ripRoutes ▸ hp
  ripInterfaces _ helem := h.ripInterfaces ▸ helem
  sent := h.sent
  key := h.key
  metric p := by
    rcases h.ripRoute p with h | h <;> rw [h]
    · exact .inl rfl
    · exact .inr rfl

/-- The route stays the same for a neighbour that hears of it. -/
theorem setRipRoute (s : RIPRouting) (p : ℕ) {f : RIPRoute → RIPRoute}
    (hdest : ∀ x, (f x).dest = x.dest) (hlength : ∀ x, (f x).prefixLength = x.prefixLength)
    (hmetric : ∀ x, (f x).metric = x.metric) : Weakens s (s.setRipRoute p f) := by
  refine ⟨fun _ h ↦ h, fun _ h ↦ h, rfl, fun q ↦ ?_, fun q ↦ .inl ?_⟩
  · obtain rfl | hne := eq_or_ne q p
    · rw [RIPRouting.key, setRipRoute_self, hdest, hlength, RIPRouting.key]
    · rw [RIPRouting.key, setRipRoute_of_ne s f hne, RIPRouting.key]
  · obtain rfl | hne := eq_or_ne q p
    · rw [setRipRoute_self, hmetric]
    · rw [setRipRoute_of_ne s f hne]

theorem triggerUpdate (s : RIPRouting) : Weakens s (s.triggerUpdate P) :=
  of_fades (fades_triggerUpdate s)

theorem unlinkRoute (p : ℕ) (s : RIPRouting) : Weakens s (s.unlinkRoute P p) := by
  rw [RIPRouting.unlinkRoute]
  split
  · have hunlinked := setRipRoute s p (f := fun x ↦ { x with route := none }) (fun _ ↦ rfl)
      (fun _ ↦ rfl) fun _ ↦ rfl
    exact hunlinked.trans (of_fades (fades_deleteRoute _ _))
  · exact refl s

theorem invalidateRoute (p : ℕ) (s : RIPRouting) : Weakens s (s.invalidateRoute P p) :=
  (unlinkRoute p s).trans (of_fades (fades_invalidateUnlinked p _))

theorem purgeRoute (p : ℕ) (s : RIPRouting) : Weakens s (s.purgeRoute P p) := by
  refine (unlinkRoute (P := P) p s).trans ?_
  exact ⟨fun _ hq ↦ List.mem_of_mem_erase hq, fun _ h ↦ h, rfl, fun _ ↦ rfl, fun _ ↦ .inl rfl⟩

theorem checkRouteIsExpired (p : ℕ) (s : RIPRouting) :
    Weakens s (s.checkRouteIsExpired P p).2 := by
  rw [RIPRouting.checkRouteIsExpired]
  split_ifs
  exacts [purgeRoute p s, invalidateRoute p s, refl s, refl s]

theorem foldl {α : Type} {f : RIPRouting → α → RIPRouting} (hf : ∀ s a, Weakens s (f s a))
    (l : List α) (s : RIPRouting) : Weakens s (l.foldl f s) := by
  induction l generalizing s with
  | nil => exact refl s
  | cons a l ih => exact (hf s a).trans (ih _)

theorem invalidateRoutes (ie : ℕ) (s : RIPRouting) : Weakens s (s.invalidateRoutes P ie) := by
  refine foldl (fun s p ↦ ?_) _ s
  split_ifs
  exacts [invalidateRoute p s, refl s]

theorem deleteInterface (ie : ℕ) (s : RIPRouting) : Weakens s (s.deleteInterface P ie) := by
  have hroutes := foldl (f := fun s (e : (_ : ℕ) × IRoute) ↦ s.deleteRoute P e.1)
    (fun s e ↦ of_fades (fades_deleteRoute e.1 s)) (s.rt.entries.filter fun e ↦ e.2.ie = some ie) s
  refine hroutes.trans ?_
  exact ⟨fun _ hp ↦ List.mem_of_mem_filter hp, fun _ h ↦ List.mem_of_mem_filter h, rfl,
    fun _ ↦ rfl, fun _ ↦ .inl rfl⟩

/-- A route of this module is put into the table of the host. -/
theorem addOwnRoute (dest : L3Address) (prefixLength : ℤ) (ie : ℕ) (nextHop : L3Address)
    (metric : ℕ) (s : RIPRouting) : Results (fun x ↦ Weakens s x.2) (fun _ ↦ True)
      (s.addOwnRoute P dest prefixLength ie nextHop metric) := by
  rw [RIPRouting.addOwnRoute, addIRoute]
  split_ifs
  · have hreplaced := of_fades (fades_replaceDefaultRoute (P := P) prefixLength s)
    exact ⟨hreplaced.ripRoutes, hreplaced.ripInterfaces, hreplaced.sent, hreplaced.key,
      hreplaced.metric⟩
  · trivial

theorem relink (p ie : ℕ) (nextHop : L3Address) (metric : ℕ) (s : RIPRouting) :
    Results (Weakens s) (fun _ ↦ True) (s.relink P p ie nextHop metric) := by
  refine (addOwnRoute _ _ ie nextHop metric s).bind fun x hx ↦ ?_
  exact Weakens.trans hx (setRipRoute x.2 p (f := fun y ↦ { y with route := some x.1 })
    (fun _ ↦ rfl) (fun _ ↦ rfl) fun _ ↦ rfl)

theorem updateLink (p ie : ℕ) (nextHop : L3Address) (metric oldMetric : ℕ) (s : RIPRouting) :
    Results (Weakens s) (fun _ ↦ True) (s.updateLink P p ie nextHop metric oldMetric) := by
  rw [RIPRouting.updateLink]
  have hunlinked := (unlinkRoute (P := P) p s).trans (setRipRoute (s.unlinkRoute P p) p
    (f := fun x ↦ { x with nextHop := nextHop }) (fun _ ↦ rfl) (fun _ ↦ rfl) fun _ ↦ rfl)
  have htyped := setRipRoute s p (f := fun x ↦ { x with type := .rte, nextHop := nextHop })
    (fun _ ↦ rfl) (fun _ ↦ rfl) fun _ ↦ rfl
  dsimp only
  split_ifs
  · exact (relink p ie nextHop metric _).mono fun s' hs' ↦ htyped.trans hs'
  · trivial
  · exact refl s
  · trivial
  · exact (relink p ie nextHop metric _).mono fun s' hs' ↦ hunlinked.trans hs'
  · exact hunlinked

end Weakens

/-! ### Metrics that are justified -/

/-- What the router knows is justified, and what it sends. Its interfaces are among some. -/
structure Justified (J : L3Address × ℤ → ℕ → Prop) (I : List RIPInterfaceEntry) (s : RIPRouting) :
    Prop where
  ripInterfaces : ∀ elem ∈ s.ripInterfaces, elem ∈ I
  ripRoutes : ∀ p ∈ s.ripRoutes, (s.ripRoute p).metric < RIP_INFINITE_METRIC →
    J (s.key p) (s.ripRoute p).metric
  sent : ∀ packet ∈ s.sent, packet.command = .response → ∀ e ∈ packet.entry, e.Justified J

namespace Justified

theorem weakens (h : Justified J I s) (h' : Weakens s s') : Justified J I s' where
  ripInterfaces elem helem := h.ripInterfaces elem (h'.ripInterfaces elem helem)
  ripRoutes p hp hlt := by
    rcases h'.metric p with hsame | hinfinite
    · rw [hsame] at hlt ⊢
      rw [h'.key]
      exact h.ripRoutes p (h'.ripRoutes p hp) hlt
    · rw [hinfinite] at hlt
      exact absurd hlt (lt_irrefl _)
  sent := by
    rw [h'.sent]
    exact h.sent

theorem sendPacket (h : Justified J I s) {command : RIPCommand} {entry : List RIPEntry}
    (hentry : command = .response → ∀ e ∈ entry, e.Justified J)
    (destAddr : L3Address) (destPort destInterface : ℕ) :
    Justified J I (s.sendPacket P command entry destAddr destPort destInterface) where
  ripInterfaces := h.ripInterfaces
  ripRoutes := h.ripRoutes
  sent := List.forall_mem_append.2 ⟨h.sent, List.forall_mem_singleton.2 hentry⟩

/-- An entry lists a route of the table, or says that there is none. -/
theorem routeEntry (h : Justified J I s) (hp : p ∈ s.ripRoutes) {ripInterface : RIPInterfaceEntry}
    {changedOnly : Bool} {e : RIPEntry}
    (he : routeEntry ripInterface changedOnly (s.ripRoute p) = some e) : e.Justified J := by
  have hmetric : ∀ metric, (metric < RIP_INFINITE_METRIC → metric = (s.ripRoute p).metric) →
      RIPEntry.Justified J
        ⟨RIP_AF_INET, (s.ripRoute p).tag, (s.ripRoute p).dest, (s.ripRoute p).prefixLength, 0,
          metric⟩ := by
    intro metric heq hlt
    obtain rfl := heq hlt
    exact h.ripRoutes p hp hlt
  rw [RIPRouting.routeEntry] at he
  split_ifs at he
  · split at he
    · cases he
    · obtain rfl := Option.some.inj he
      exact hmetric _ fun hlt ↦ absurd hlt (lt_irrefl _)
    · obtain rfl := Option.some.inj he
      exact hmetric _ fun _ ↦ rfl
  · obtain rfl := Option.some.inj he
    exact hmetric _ fun _ ↦ rfl

theorem sendRoutes (h : Justified J I s) (address : L3Address) (port : ℕ)
    (ripInterface : RIPInterfaceEntry) (changedOnly : Bool) :
    Results (Justified J I) (· ≠ .assertionFailed)
      (s.sendRoutes P address port ripInterface changedOnly) := by
  refine (results_sendRoutes (motive := fun packet s ↦ Justified J I s ∧ ∀ e ∈ packet, e.Justified J)
    (fun packet s p h _ ↦ ⟨h.1.weakens (.checkRouteIsExpired p s), h.2⟩)
    (fun packet s p e h hp _ he ↦ ⟨h.1, ?_⟩) (fun packet s h ↦ ⟨h.1.sendPacket (fun _ ↦ h.2) _ _ _, ?_⟩)
    s ⟨h, ?_⟩).mono fun s' hs' ↦ hs'.1
  · exact List.forall_mem_append.2 ⟨h.2, List.forall_mem_singleton.2 (h.1.routeEntry hp he)⟩
  · exact List.forall_mem_nil _
  · exact List.forall_mem_nil _

theorem processUpdate (h : Justified J I s) (triggered : Bool) :
    Results (Justified J I) (· ≠ .assertionFailed) (s.processUpdate P triggered) := by
  refine (Results.foldlM (Q := Justified J I) h fun s elem _ h ↦ ?_).bind fun s' h' ↦ ?_
  · split_ifs
    exacts [h.sendRoutes _ _ _ _, h]
  · have hflags := Weakens.foldl (f := fun s p ↦ s.setRipRoute p fun x ↦ { x with changed := false })
      (fun s p ↦ .setRipRoute s p (fun _ ↦ rfl) (fun _ ↦ rfl) fun _ ↦ rfl) s'.ripRoutes s'
    exact h'.weakens hflags

/-! ### Requests and responses -/

/-- The answer to an entry of a request lists a route of the table, or says that there is none. -/
theorem answerEntry (h : Justified J I s) (e : RIPEntry) :
    Results (RIPEntry.Justified J) (fun _ ↦ True) (s.answerEntry e) := by
  rw [RIPRouting.answerEntry]
  split_ifs
  · intro hlt
    rcases hfind : s.findRoute e.address e.prefixLength with - | p
    · simp only [hfind] at hlt
      exact absurd hlt (lt_irrefl _)
    · simp only [hfind] at hlt ⊢
      obtain ⟨hp, hkey⟩ := mem_of_findRoute hfind
      rw [← hkey]
      exact h.ripRoutes p hp hlt
  · trivial

theorem sendAnswer (h : Justified J I s) (ctrlInfo : UDPDataIndication) {entry : List RIPEntry}
    (hentry : ∀ e ∈ entry, e.Justified J) : Justified J I (s.sendAnswer ctrlInfo entry) where
  ripInterfaces := h.ripInterfaces
  ripRoutes := h.ripRoutes
  sent := List.forall_mem_append.2 ⟨h.sent, List.forall_mem_singleton.2 fun _ ↦ hentry⟩

theorem processRequest (h : Justified J I s) (ctrlInfo : UDPDataIndication)
    (entry : List RIPEntry) :
    Results (Justified J I) (fun _ ↦ True) (s.processRequest P ctrlInfo entry) := by
  have hanswers (entry : List RIPEntry) : Results (fun answers ↦ ∀ e ∈ answers, e.Justified J)
      (fun _ ↦ True) (entry.mapM s.answerEntry) := by
    induction entry with
    | nil => exact List.forall_mem_nil _
    | cons e entry ih =>
      rw [List.mapM_cons]
      exact (h.answerEntry e).bind fun e' he' ↦ ih.bind fun answers hanswers ↦
        List.forall_mem_cons.2 ⟨he', hanswers⟩
  rw [RIPRouting.processRequest.eq_def]
  split
  · exact h
  · split_ifs
    · split
      · exact (h.sendRoutes _ _ _ _).weaken fun _ _ ↦ trivial
      · exact h
    · trivial
    · exact (h.answerEntry _).bind fun e he ↦ h.sendAnswer ctrlInfo (List.forall_mem_singleton.2 he)
  · exact (hanswers _).bind fun answers hall ↦ h.sendAnswer ctrlInfo hall

/-- A route gets a metric that is justified. -/
theorem setMetric (h : Justified J I s) {f : RIPRoute → RIPRoute}
    (hdest : ∀ x, (f x).dest = x.dest) (hlength : ∀ x, (f x).prefixLength = x.prefixLength)
    (hmetric : (f (s.ripRoute p)).metric < RIP_INFINITE_METRIC →
      J (s.key p) (f (s.ripRoute p)).metric) : Justified J I (s.setRipRoute p f) where
  ripInterfaces := h.ripInterfaces
  ripRoutes q hq hlt := by
    obtain rfl | hne := eq_or_ne q p
    · rw [key, setRipRoute_self] at *
      rw [hdest, hlength]
      exact hmetric hlt
    · rw [key, setRipRoute_of_ne s f hne] at *
      exact h.ripRoutes q hq hlt
  sent := h.sent

theorem adopt (h : Justified J I s) {ie metric routeTag : ℕ} {fromAddr : L3Address}
    (hmetric : metric < RIP_INFINITE_METRIC → J (s.key p) metric) :
    Results (fun s' ↦ Justified J I s') (fun _ ↦ True) (s.adopt p ie metric routeTag fromAddr) := by
  have hset : Justified J I (s.setRipRoute p fun x ↦
      { x with ie := some ie, metric := metric, fromAddr := fromAddr, tag := routeTag }) :=
    h.setMetric (fun _ ↦ rfl) (fun _ ↦ rfl) hmetric
  rw [RIPRouting.adopt]
  split
  · split
    · exact ⟨hset.ripInterfaces, hset.ripRoutes, hset.sent⟩
    · trivial
  · exact hset

theorem updateRoute (h : Justified J I s) {ie : ℕ} {nextHop : L3Address} {metric routeTag : ℕ}
    {fromAddr : L3Address} (hmetric : metric < RIP_INFINITE_METRIC → J (s.key p) metric) :
    Results (Justified J I) (fun _ ↦ True)
      (s.updateRoute P p ie nextHop metric routeTag fromAddr) := by
  refine (h.adopt hmetric).bind fun s₁ h₁ ↦ (Weakens.updateLink p ie nextHop metric _ s₁).bind
    fun s₂ h₂ ↦ ?_
  have hchanged := (Weakens.setRipRoute s₂ p (f := fun x ↦ { x with changed := true }) (fun _ ↦ rfl)
    (fun _ ↦ rfl) fun _ ↦ rfl).trans (.triggerUpdate (P := P) _)
  show Justified J I (if _ then _ else _)
  split_ifs
  · exact h₁.weakens ((h₂.trans hchanged).trans (.invalidateRoute p _))
  · refine h₁.weakens ((h₂.trans hchanged).trans (.setRipRoute _ p ?_ ?_ ?_))
    all_goals exact fun _ ↦ rfl

theorem pushRoute (h : Justified J I s) {x : RIPRoute}
    (hx : x.metric < RIP_INFINITE_METRIC → J (x.dest, x.prefixLength) x.metric) :
    Justified J I (s.pushRoute x) where
  ripInterfaces := h.ripInterfaces
  ripRoutes q hq hlt := by
    obtain rfl | hne := eq_or_ne q s.nextRipRoute
    · rw [key, pushRoute_self] at *
      exact hx hlt
    · rw [key, pushRoute_of_ne x hne] at *
      exact h.ripRoutes q ((List.mem_append.1 hq).resolve_right fun h ↦
        hne (List.mem_singleton.1 h)) hlt
  sent := h.sent

theorem addRoute (h : Justified J I s) {dest : L3Address} {prefixLength : ℤ} {ie : ℕ}
    {nextHop : L3Address} {metric routeTag : ℕ} {fromAddr : L3Address}
    (hmetric : metric < RIP_INFINITE_METRIC → J (dest, prefixLength) metric) :
    Results (Justified J I) (fun _ ↦ True)
      (s.addRoute P dest prefixLength ie nextHop metric routeTag fromAddr) := by
  refine (Weakens.addOwnRoute dest prefixLength ie nextHop metric s).bind fun x hx ↦ ?_
  exact ((h.weakens hx).pushRoute hmetric).weakens (.triggerUpdate _)

/-- **An entry of a response.** What it says is justified with the cost of the interface added. -/
theorem processEntry (h : Justified J I s) {incomingIe : RIPInterfaceEntry} (srcAddr : L3Address)
    {e : RIPEntry} (he : e.metric + incomingIe.metric < RIP_INFINITE_METRIC →
      J (e.address, e.prefixLength) (e.metric + incomingIe.metric)) :
    Results (Justified J I) (fun _ ↦ True) (processEntry P incomingIe srcAddr s e) := by
  have hmetric : min (e.metric + incomingIe.metric) RIP_INFINITE_METRIC < RIP_INFINITE_METRIC →
      J (e.address, e.prefixLength) (min (e.metric + incomingIe.metric) RIP_INFINITE_METRIC) := by
    intro hlt
    have hsum := (min_lt_iff.1 hlt).resolve_right (lt_irrefl _)
    rw [min_eq_left hsum.le]
    exact he hsum
  rw [RIPRouting.processEntry]
  dsimp only
  generalize (if e.nextHop = 0 then srcAddr else e.nextHop) = nextHop
  rcases hfind : s.findRoute e.address e.prefixLength with - | p
  · dsimp only
    split_ifs
    exacts [h.addRoute hmetric, h]
  · obtain ⟨-, hkey⟩ := mem_of_findRoute hfind
    have htouched : Weakens s (s.setRipRoute p fun x ↦ { x with lastUpdateTime := s.now }) :=
      .setRipRoute s p (fun _ ↦ rfl) (fun _ ↦ rfl) fun _ ↦ rfl
    dsimp only
    split_ifs
    · exact h
    · refine (h.weakens htouched).updateRoute fun hlt ↦ ?_
      rw [htouched.key, hkey]
      exact hmetric hlt
    · refine h.updateRoute fun hlt ↦ ?_
      rw [hkey]
      exact hmetric hlt
    · exact h.weakens htouched
    · exact h

theorem processResponse (h : Justified J I s) (ctrlInfo : UDPDataIndication) {entry : List RIPEntry}
    (hentry : ∀ elem ∈ I, elem.ie = ctrlInfo.interfaceId → ∀ e ∈ entry,
      e.metric + elem.metric < RIP_INFINITE_METRIC →
        J (e.address, e.prefixLength) (e.metric + elem.metric)) :
    Results (Justified J I) (fun _ ↦ True) (s.processResponse P ctrlInfo entry) := by
  rw [RIPRouting.processResponse]
  split_ifs
  · rcases hfind : s.findInterfaceById ctrlInfo.interfaceId with - | incomingIe
    · exact h
    · have hie : incomingIe.ie = ctrlInfo.interfaceId := by simpa using List.find?_some hfind
      have hmem := h.ripInterfaces incomingIe (List.mem_of_find?_eq_some hfind)
      exact Results.foldlM h fun s e he h ↦
        h.processEntry ctrlInfo.srcAddr (hentry incomingIe hmem hie e he)
  · exact h

/-- **What an event leaves is justified**, if what a response says is with the cost of the
interface.
-/
theorem handle (h : Justified J I s) {event : RIPEvent} (hfixed : event.Fixed)
    (hresponse : ∀ ctrlInfo entry, event = .response ctrlInfo entry → ∀ elem ∈ I,
      elem.ie = ctrlInfo.interfaceId → ∀ e ∈ entry, e.metric + elem.metric < RIP_INFINITE_METRIC →
        J (e.address, e.prefixLength) (e.metric + elem.metric)) :
    Results (Justified J I) (fun _ ↦ True) (s.handle P event) := by
  have hcongr {s' : RIPRouting} (hinterfaces : s'.ripInterfaces = s.ripInterfaces)
      (hroutes : s'.ripRoutes = s.ripRoutes) (hroute : s'.ripRoute = s.ripRoute)
      (hsent : s'.sent = s.sent) : Justified J I s' := by
    refine h.weakens ⟨fun _ hp ↦ hroutes ▸ hp, fun _ hp ↦ hinterfaces ▸ hp, hsent, fun p ↦ ?_,
      fun p ↦ .inl ?_⟩
    · rw [key, key, hroute]
    · rw [hroute]
  rcases event with t | - | - | ⟨ctrlInfo, entry⟩ | ⟨ctrlInfo, entry⟩ | ripInterface | ie | ie | ie |
    route | r | ⟨r, route⟩
  · exact hcongr rfl rfl rfl rfl
  · have hupdate : Justified J I { s with updateTimer := none } := hcongr rfl rfl rfl rfl
    exact ((hupdate.processUpdate false).weaken fun _ _ ↦ trivial).bind fun s' h' ↦
      ⟨h'.ripInterfaces, h'.ripRoutes, h'.sent⟩
  · have hupdate : Justified J I { s with triggeredUpdateTimer := none } := hcongr rfl rfl rfl rfl
    exact (hupdate.processUpdate true).weaken fun _ _ ↦ trivial
  · exact h.processRequest ctrlInfo entry
  · exact h.processResponse ctrlInfo (hresponse ctrlInfo entry rfl)
  · exact hfixed.elim
  · exact h.weakens (.deleteInterface ie s)
  · show Justified J I (s.handleInterfaceUp P ie)
    rw [handleInterfaceUp]
    split
    · split_ifs
      · refine h.sendPacket (fun hcommand ↦ ?_) _ _ _
        cases hcommand
      · exact h
    · exact h
  · exact h.weakens (.invalidateRoutes ie s)
  · exact hfixed.elim
  · exact h.weakens (.of_fades (fades_deleteRoute r s))
  · exact hfixed.elim

end Justified

/-! ### What a router knows by itself -/

/-- The metric with which a route of the host is imported. -/
def importMetric (s : RIPRouting) (e : IRoute) : ℕ :=
  match e.source with
  | .interfaceEntry ie false => s.getInterfaceMetric ie
  | _ => 1

/-- The routes with which a router starts are those that it has imported. -/
theorem configureInitialRoute_cases (s : RIPRouting) (e : (_ : ℕ) × IRoute) :
    configureInitialRoute P s e = s ∨ ∃ type,
      configureInitialRoute P s e = s.importRoute e.1 e.2 type (s.importMetric e.2) := by
  obtain ⟨r, dest, prefixLength, nextHop, ie, metric, source⟩ := e
  rcases source with - | ⟨ie, - | -⟩ | -
  · rw [configureInitialRoute]
    split_ifs
    exacts [.inr ⟨_, rfl⟩, .inr ⟨_, rfl⟩, .inl rfl]
  · exact .inr ⟨_, rfl⟩
  · exact .inl rfl
  · rw [configureInitialRoute]
    split_ifs
    exacts [.inr ⟨_, rfl⟩, .inr ⟨_, rfl⟩, .inl rfl]

theorem importRoute_eq (s : RIPRouting) (r : ℕ) (route : IRoute) (type : RouteType) (metric : ℕ) :
    ∃ x, s.importRoute r route type metric = s.pushRoute x ∧
      (x.dest, x.prefixLength) = (route.dest, route.prefixLength) ∧ x.metric = metric :=
  ⟨_, rfl, rfl, rfl⟩

/-- Every route of the table has been imported from one of the host. -/
def Imported (s : RIPRouting) : Prop :=
  ∀ p ∈ s.ripRoutes, ∃ e ∈ s.rt.entries, s.key p = (e.2.dest, e.2.prefixLength) ∧
    (s.ripRoute p).metric = s.importMetric e.2

theorem Imported.configureInitialRoute (h : Imported s) {e : (_ : ℕ) × IRoute}
    (he : e ∈ s.rt.entries) : Imported (configureInitialRoute P s e) ∧
      (RIPRouting.configureInitialRoute P s e).rt = s.rt := by
  rcases configureInitialRoute_cases (P := P) s e with heq | ⟨type, heq⟩
  · rw [heq]
    exact ⟨h, rfl⟩
  · obtain ⟨x, hx, hkey, hmetric⟩ := importRoute_eq s e.1 e.2 type (s.importMetric e.2)
    rw [heq, hx]
    refine ⟨fun p hp ↦ ?_, rfl⟩
    obtain rfl | hne := eq_or_ne p s.nextRipRoute
    · refine ⟨e, he, ?_, ?_⟩
      · rw [key, pushRoute_self]
        exact hkey
      · rw [pushRoute_self]
        exact hmetric
    · rw [key, pushRoute_of_ne x hne]
      exact h p ((List.mem_append.1 hp).resolve_right fun h ↦ hne (List.mem_singleton.1 h))

theorem Starts.imported (h : Starts P s) : Imported s := by
  obtain ⟨now, ripInterfaces, rt, nextRoute, rfl, -⟩ := h
  have hloop (es : List ((_ : ℕ) × IRoute)) (s : RIPRouting) (hes : ∀ e ∈ es, e ∈ s.rt.entries)
      (hs : Imported s) : Imported (es.foldl (RIPRouting.configureInitialRoute P) s) := by
    induction es generalizing s with
    | nil => exact hs
    | cons e es ih =>
      rw [List.forall_mem_cons] at hes
      obtain ⟨himported, hrt⟩ := hs.configureInitialRoute (P := P) hes.1
      exact ih _ (fun e' he' ↦ hrt ▸ hes.2 e' he') himported
  rw [startRIPRouting]
  obtain ⟨sent, hsent⟩ := foldl_sendRIPRequest (P := P) (List.filter (fun elem ↦ elem.mode ≠ .noRIP)
    (rt.entries.foldl (RIPRouting.configureInitialRoute P)
      { now := now, ripInterfaces := ripInterfaces, rt := rt, nextRoute := nextRoute }).ripInterfaces)
    (rt.entries.foldl (RIPRouting.configureInitialRoute P)
      { now := now, ripInterfaces := ripInterfaces, rt := rt, nextRoute := nextRoute })
  rw [hsent]
  exact hloop rt.entries _ (fun _ he ↦ he) fun _ hp ↦ absurd hp List.not_mem_nil

end RIPRouting

/-! ### The network -/

/-- The routers, and the packets that have been sent, with their senders. -/
structure RIPNetwork (ρ : Type) where
  routers : ρ → RIPRouting
  air : List (ρ × RIPPacket) := []

namespace RIPNetwork

open RIPRouting

section

variable {ρ : Type} [DecidableEq ρ] (P : ρ → RIPParameters) (start : ρ → RIPRouting)
  (Hears : ρ → ρ → ℕ → Prop)

/-- A response comes from a router that is heard on the interface. -/
def Delivers (net : RIPNetwork ρ) (m : ρ) : RIPEvent → Prop
  | .response ctrlInfo entry => ∃ n packet, (n, packet) ∈ net.air ∧ packet.command = .response ∧
      packet.entry = entry ∧ Hears n m ctrlInfo.interfaceId
  | _ => True

/-- The network as a machine: one router handles one event. -/
def system : TransitionSystem (RIPNetwork ρ) (ρ × RIPEvent) (List RIPPacket) where
  Init net := net = { routers := start }
  Step net event sent net' := event.2.Fixed ∧ net.Delivers Hears event.1 event.2 ∧ ∃ s,
    (RIPRouting.system (P event.1)).Step (net.routers event.1) event.2 sent s ∧
      net' = { routers := Function.update net.routers event.1 s
               air := net.air ++ sent.map (Prod.mk event.1) }

/-- A hop to a router costs what the interface costs on which it hears the other one. -/
def Hop (n m : ρ) (cost : ℕ) : Prop :=
  ∃ elem ∈ (start m).ripInterfaces, Hears n m elem.ie ∧ cost = elem.metric

/-- A router has started with a route, with the metric of its import. -/
def Own (m : ρ) (d : L3Address × ℤ) (metric : ℕ) : Prop :=
  ∃ e ∈ (start m).rt.entries, d = (e.2.dest, e.2.prefixLength) ∧
    metric = (start m).importMetric e.2

end

variable {ρ : Type} [DecidableEq ρ] {P : ρ → RIPParameters} {start : ρ → RIPRouting}
  {Hears : ρ → ρ → ℕ → Prop} {net net' : RIPNetwork ρ}

/-- What the routers know and what is in the air has been heard along hops. -/
structure Justified (start : ρ → RIPRouting) (Hears : ρ → ρ → ℕ → Prop) (net : RIPNetwork ρ) :
    Prop where
  routers : ∀ m, RIPRouting.Justified (Heard (Hop start Hears) (Own start) m)
    (start m).ripInterfaces { net.routers m with sent := [] }
  air : ∀ x ∈ net.air, x.2.command = .response →
    ∀ e ∈ x.2.entry, e.Justified (Heard (Hop start Hears) (Own start) x.1)

omit [DecidableEq ρ] in
theorem justified_init (hstart : ∀ m, Starts (P m) (start m)) :
    Justified start Hears { routers := start } where
  routers m := by
    refine ⟨fun _ h ↦ h, fun p hp _ ↦ heard_of_own ?_, List.forall_mem_nil _⟩
    exact (hstart m).imported p hp
  air := List.forall_mem_nil _

theorem justified_step (h : net.Justified start Hears) {event : ρ × RIPEvent}
    {sent : List RIPPacket} (hstep : (system P start Hears).Step net event sent net') :
    net'.Justified start Hears := by
  obtain ⟨m, event⟩ := event
  obtain ⟨hfixed, hdelivers, s, ⟨-, hhandle, rfl⟩, rfl⟩ := hstep
  have hs : RIPRouting.Justified (Heard (Hop start Hears) (Own start) m)
      (start m).ripInterfaces s := by
    refine ((h.routers m).handle hfixed fun ctrlInfo entry hevent elem helem hie e he _ ↦ ?_).of_eq_ok
      hhandle
    subst hevent
    obtain ⟨n, packet, hair, hcommand, rfl, hhears⟩ := hdelivers
    have hsaid := h.air _ hair hcommand e he
    exact (hsaid (by omega)).across ⟨elem, helem, hie ▸ hhears, rfl⟩
  refine ⟨fun m' ↦ ?_, List.forall_mem_append.2 ⟨h.air, List.forall_mem_map.2 hs.sent⟩⟩
  show RIPRouting.Justified _ _ { Function.update net.routers m s m' with sent := [] }
  obtain rfl | hne := eq_or_ne m' m
  · rw [Function.update_self]
    exact ⟨hs.ripInterfaces, hs.ripRoutes, List.forall_mem_nil _⟩
  · rw [Function.update_of_ne hne]
    exact h.routers m'

/-- **A metric is never too good.** In every run, a metric that a router knows or that is said in a
response in the air is one with which some router has imported a route for the prefix, and the costs
of the interfaces along a walk from it, so that no shorter way has been missed by it. -/
theorem metric_heard (hstart : ∀ m, Starts (P m) (start m))
    {tr : List (Transition (RIPNetwork ρ) (ρ × RIPEvent) (List RIPPacket))}
    (h : (system P start Hears).Run tr net) :
    (∀ m, ∀ p ∈ (net.routers m).ripRoutes,
      ((net.routers m).ripRoute p).metric < RIP_INFINITE_METRIC →
        Heard (Hop start Hears) (Own start) m ((net.routers m).key p)
          ((net.routers m).ripRoute p).metric ∧
        distance (Hop start Hears) (Own start) m ((net.routers m).key p) ≤
          ((net.routers m).ripRoute p).metric) ∧
    ∀ x ∈ net.air, x.2.command = .response → ∀ e ∈ x.2.entry, e.metric < RIP_INFINITE_METRIC →
      Heard (Hop start Hears) (Own start) x.1 (e.address, e.prefixLength) e.metric := by
  have hjustified : net.Justified start Hears :=
    h.invariant (fun _ hinit ↦ hinit ▸ justified_init hstart) fun _ _ _ _ hI hstep ↦
      justified_step hI hstep
  refine ⟨fun m p hp hlt ↦ ?_, hjustified.air⟩
  have hheard := (hjustified.routers m).ripRoutes p hp hlt
  exact ⟨hheard, hheard.distance_le⟩

/-! Two routers that share a network. -/

/-- The one has the networks 10 and 20, the other 20 and 30. -/
def twoRouters : Bool → RIPRouting
  | false => twoNetworks
  | true => startRIPRouting RIPv2Parameters 0 [defaultInterface 0, defaultInterface 1]
      ((AList.insert 0 (interfaceRoute 0 20) ∅).insert 1 (interfaceRoute 1 30)) 2

theorem twoRouters_starts : ∀ m, Starts RIPv2Parameters (twoRouters m)
  | false => twoNetworks_starts
  | true => ⟨0, _, _, 2, rfl, by decide⟩

/-- They hear each other in the network that they share. -/
def SharedNetwork (n m : Bool) (ie : ℕ) : Prop :=
  n ≠ m ∧ ie = if m then 0 else 1

/-- The network after an event that does not fail. -/
def next (P : ρ → RIPParameters) (net : RIPNetwork ρ) (event : ρ × RIPEvent) :
    RIPNetwork ρ × List RIPPacket :=
  let x := RIPRouting.after (P event.1) (net.routers event.1) event.2
  ({ routers := Function.update net.routers event.1 x.1
     air := net.air ++ x.2.map (Prod.mk event.1) }, x.2)

/-- The first one sends its update, and the other one receives it. -/
def firstUpdate : List (Bool × RIPEvent) :=
  [(false, .advance 30), (false, .updateTimer),
    (true, .response ⟨21, 520, 0, 1, false, true⟩
      [⟨RIP_AF_INET, 0, 20, 24, 0, 16⟩, ⟨RIP_AF_INET, 0, 10, 24, 0, 1⟩])]

theorem step_next {Hears : ρ → ρ → ℕ → Prop} (net : RIPNetwork ρ) (event : ρ × RIPEvent)
    (hfixed : event.2.Fixed) (hdelivers : net.Delivers Hears event.1 event.2)
    (hallowed : (net.routers event.1).Allowed event.2)
    (hok : ({ net.routers event.1 with sent := [] }.handle (P event.1) event.2).toOption.isSome
      = true) : (system P start Hears).Step net event (next P net event).2 (next P net event).1 :=
  ⟨hfixed, hdelivers, _, step_after _ _ hallowed hok, rfl⟩

theorem metric_heard_firstUpdate :
    Heard (Hop twoRouters SharedNetwork) (Own twoRouters) true (10, 24) 2 := by
  generalize hnet : stateAfter (next fun _ ↦ RIPRouting.RIPv2Parameters) { routers := twoRouters }
    firstUpdate = net
  have hrun : (system (fun _ ↦ RIPRouting.RIPv2Parameters) twoRouters SharedNetwork).Run
      (transitionsOf (next fun _ ↦ RIPRouting.RIPv2Parameters) { routers := twoRouters }
        firstUpdate) net := by
    subst hnet
    refine .ofInputs (C := fun net event ↦ event.2.Fixed ∧ net.Delivers SharedNetwork event.1 event.2
      ∧ (net.routers event.1).Allowed event.2 ∧ ({ net.routers event.1 with sent := [] }.handle
        RIPRouting.RIPv2Parameters event.2).toOption.isSome = true)
      (fun net event h ↦ step_next net event h.1 h.2.1 h.2.2.1 h.2.2.2) rfl ?_
    simp only [firstUpdate, transitionsOf, List.forall_mem_cons]
    refine ⟨⟨trivial, trivial, ⟨by decide, by decide, by decide⟩, by decide +kernel⟩,
      ⟨trivial, trivial, rfl, by decide +kernel⟩, ⟨trivial, ?_, trivial, by decide +kernel⟩,
      List.forall_mem_nil _⟩
    refine ⟨false, ⟨.response, _, 1000, 520, some 1⟩, ?_, rfl, rfl, by decide, rfl⟩
    decide +kernel
  have hroute : 2 ∈ (net.routers true).ripRoutes ∧ (net.routers true).key 2 = (10, 24) ∧
      ((net.routers true).ripRoute 2).metric = 2 := by
    subst hnet
    decide +kernel
  have hheard := (metric_heard twoRouters_starts hrun).1 true 2 hroute.1 (by rw [hroute.2.2]; decide)
  rw [hroute.2.1, hroute.2.2] at hheard
  exact hheard.1

end RIPNetwork

end Inet
