import Mathlib.Data.List.Nodup
import Inet.Routing.AODVNetwork

/-!
# Routes and packets of a network of AODV nodes

What holds of the routes of every node and of every packet in the air, in every run. A node has at
most one route for an address, and a route of a single hop leads to the neighbour itself: a request
or a reply that has not been passed on comes from the node that it tells of.

So an acknowledgement is only asked of the originator of the request. But it is only given by a node
that passes the reply on, and then it is none. The neighbour ends in the blacklist whenever the
timer fires.
-/

namespace Inet.AODV

open TransitionSystem

/-- A route of a single hop leads to the neighbour itself. -/
structure Route.Sound (route : Route) : Prop where
  metric_pos : 0 < route.metric
  nextHop_eq : route.metric = 1 → route.nextHop = route.destination

/-- Routes that only differ in what the protocol remembers of them. -/
structure Route.Alike (route route' : Route) : Prop where
  destination : route'.destination = route.destination
  nextHop : route'.nextHop = route.nextHop
  metric : route'.metric = route.metric

theorem Route.Alike.refl (route : Route) : route.Alike route :=
  ⟨rfl, rfl, rfl⟩

theorem Route.alike_addPrecursor (precursorAddr : L3Address) (route : Route) :
    route.Alike (route.addPrecursor precursorAddr) :=
  ⟨rfl, rfl, rfl⟩

theorem Route.Sound.alike {route route' : Route} (h : route.Sound) (h' : route.Alike route') :
    route'.Sound where
  metric_pos := h'.metric ▸ h.metric_pos
  nextHop_eq hmetric := by
    rw [h'.nextHop, h'.destination]
    exact h.nextHop_eq (h'.metric ▸ hmetric)

/-- What is true of every request that a node sends. -/
def RREQ.Sound (P : Parameters) (self : L3Address) (rreq : RREQ) : Prop :=
  rreq.originatorAddr ≠ rreq.destAddr ∧ rreq.originatorAddr ≠ P.broadcastAddress ∧
    (rreq.hopCount = 0 → rreq.originatorAddr = self)

/-- What is true of every packet that a node sends. -/
def Sent.Sound (P : Parameters) (self : L3Address) (x : Sent) : Prop :=
  match x.packet with
  | .rreq rreq => rreq.Sound P self
  | .rrep rrep =>
    (rrep.hopCount = 0 → rrep.destAddr = self) ∧
      (rrep.ackRequiredFlag →
        x.destAddr = rrep.originatorAddr ∧ rrep.originatorAddr ≠ P.broadcastAddress)
  | .rerr _ => True
  | .rrepAck => False

namespace Node

/-- What is true of a node in every state. -/
structure Sound (P : Parameters) (addr : L3Address) (s : Node) : Prop where
  routes : ∀ route ∈ s.routes, route.Sound
  nodup : (s.routes.map Route.destination).Nodup
  sent : ∀ x ∈ s.sent, x.Sound P addr

variable {P : Parameters} {self sourceAddr destAddr nextHop addr : L3Address} {now lifeTime : ℤ}
  {s s' : Node} {rreq : RREQ} {rrep : RREP} {route : Route} {timeToLive hopCount : ℕ}

theorem findRoute_eq_some (h : s.findRoute addr = some route) :
    route ∈ s.routes ∧ route.destination = addr :=
  ⟨List.mem_of_find?_eq_some h, by simpa using List.find?_some h⟩

theorem findRoute_eq_none (h : s.findRoute addr = none) :
    addr ∉ s.routes.map Route.destination := by
  intro hmem
  obtain ⟨route, hroute, rfl⟩ := List.mem_map.1 hmem
  exact List.find?_eq_none.1 h route hroute (decide_eq_true rfl)

namespace Sound

/-! ### Changes of the routing table -/

/-- Nothing of the routes and of what is sent changes. -/
theorem of_eq (h : s.Sound P self) (hroutes : s'.routes = s.routes) (hsent : s'.sent = s.sent) :
    s'.Sound P self :=
  ⟨hroutes ▸ h.routes, hroutes ▸ h.nodup, hsent ▸ h.sent⟩

/-- Every route becomes a sound one for the same destination. -/
theorem map (h : s.Sound P self) {f : Route → Route}
    (hsound : ∀ route ∈ s.routes, (f route).Sound)
    (hdest : ∀ route, (f route).destination = route.destination) :
    Sound P self { s with routes := s.routes.map f } where
  routes := List.forall_mem_map.2 hsound
  nodup := by
    show ((s.routes.map f).map Route.destination).Nodup
    rw [List.map_map, show Route.destination ∘ f = Route.destination from funext hdest]
    exact h.nodup
  sent := h.sent

/-- Only what the protocol remembers of the routes changes. -/
theorem map_alike (h : s.Sound P self) {f : Route → Route}
    (hf : ∀ route : Route, route.Alike (f route)) :
    Sound P self { s with routes := s.routes.map f } :=
  h.map (fun route hroute ↦ (h.routes route hroute).alike (hf route)) fun route ↦
    (hf route).destination

theorem modifyRoute (h : s.Sound P self) (addr : L3Address) {f : Route → Route}
    (hf : ∀ route : Route, route.Alike (f route)) : (s.modifyRoute addr f).Sound P self := by
  refine h.map_alike fun route ↦ ?_
  split_ifs
  · exact hf route
  · exact .refl route

theorem update (h : s.Sound P self) {hasValidDestNum isActive : Bool} {destSeqNum : UInt32}
    (hpos : 0 < hopCount) (hnext : hopCount = 1 → nextHop = destAddr) :
    (s.modifyRoute destAddr (.update nextHop hopCount hasValidDestNum destSeqNum isActive
      lifeTime)).Sound P self := by
  refine h.map (fun route hroute ↦ ?_) fun route ↦ ?_
  · split_ifs with hdest
    · exact ⟨hpos, fun hone ↦ (hnext hone).trans hdest.symm⟩
    · exact h.routes route hroute
  · split_ifs <;> rfl

theorem createRoute (h : s.Sound P self) {hasValidDestNum isActive : Bool} {destSeqNum : UInt32}
    (hnone : s.findRoute destAddr = none) (hpos : 0 < hopCount)
    (hnext : hopCount = 1 → nextHop = destAddr) :
    (s.createRoute destAddr nextHop hopCount hasValidDestNum destSeqNum isActive lifeTime).Sound P
      self where
  routes := List.forall_mem_append.2 ⟨h.routes, List.forall_mem_singleton.2 ⟨hpos, hnext⟩⟩
  nodup := by
    show ((s.routes ++ [_]).map Route.destination).Nodup
    rw [List.map_append, List.nodup_append_comm]
    exact List.nodup_cons.2 ⟨findRoute_eq_none hnone, h.nodup⟩
  sent := h.sent

theorem setRoute (h : s.Sound P self) {hasValidDestNum isActive : Bool} {destSeqNum : UInt32}
    (hpos : 0 < hopCount) (hnext : hopCount = 1 → nextHop = destAddr) :
    (s.setRoute destAddr nextHop hopCount hasValidDestNum destSeqNum isActive lifeTime).Sound P
      self := by
  rw [Node.setRoute]
  split_ifs with hsome
  · exact h.update hpos hnext
  · exact h.createRoute (Option.not_isSome_iff_eq_none.1 hsome) hpos hnext

theorem updateValidRouteLifeTime (h : s.Sound P self) (destAddr : L3Address) (lifetime : ℤ) :
    (s.updateValidRouteLifeTime destAddr lifetime).Sound P self := by
  refine h.modifyRoute _ fun route ↦ ?_
  split_ifs <;> exact ⟨rfl, rfl, rfl⟩

theorem sendAODVPacket (h : s.Sound P self) {packet : ControlPacket} (hpacket : Sent.Sound P self
    ⟨packet, destAddr, timeToLive⟩) : (s.sendAODVPacket P now packet destAddr timeToLive).Sound P
      self where
  routes := h.routes
  nodup := h.nodup
  sent := List.forall_mem_append.2 ⟨h.sent, List.forall_mem_singleton.2 hpacket⟩

/-! ### Requests -/

theorem setReverseRoute (h : s.Sound P self) (hpos : 0 < rreq.hopCount)
    (hnext : rreq.hopCount = 1 → sourceAddr = rreq.originatorAddr) :
    (s.setReverseRoute P now rreq sourceAddr).Sound P self := by
  rw [Node.setReverseRoute]
  rcases hroute : s.findRoute rreq.originatorAddr with - | reverseRoute
  · exact h.createRoute hroute hpos hnext
  · dsimp only
    split_ifs
    exacts [h.update hpos hnext, h.update hpos hnext, h]

/-- A route of one hop leads to the originator itself, who is asked for an acknowledgement. -/
theorem sendRREP (h : s.Sound P self)
    (hsend : s.sendRREP P now rrep rrep.originatorAddr timeToLive = some s')
    (hack : rrep.ackRequiredFlag = false) (hself : rrep.hopCount = 0 → rrep.destAddr = self)
    (hne : rrep.originatorAddr ≠ P.broadcastAddress) : s'.Sound P self := by
  rw [Node.sendRREP] at hsend
  rcases hroute : s.findRoute rrep.originatorAddr with - | destRoute
  · rw [hroute] at hsend
    cases hsend
  rw [hroute] at hsend
  simp only [Option.bind_eq_bind, Option.bind_some] at hsend
  obtain ⟨hmem, hdest⟩ := findRoute_eq_some hroute
  have hprecursor : (s.modifyRoute rrep.originatorAddr
      (.addPrecursor destRoute.nextHop)).Sound P self := h.modifyRoute _ (Route.alike_addPrecursor _)
  split_ifs at hsend with hmetric
  · obtain rfl := Option.some.inj hsend
    refine sendAODVPacket ?_ ⟨hself, fun _ ↦ ⟨?_, hne⟩⟩
    · exact hprecursor.of_eq rfl rfl
    · exact ((h.routes _ hmem).nextHop_eq hmetric).trans hdest
  · obtain rfl := Option.some.inj hsend
    refine hprecursor.sendAODVPacket ?_
    exact ⟨hself, fun hflag ↦ absurd hflag (by rw [hack]; exact Bool.false_ne_true)⟩

theorem sendGRREP (h : s.Sound P self)
    (hsend : s.sendGRREP P now rreq destAddr timeToLive = some s') : s'.Sound P self := by
  rw [Node.sendGRREP] at hsend
  simp only [Option.bind_eq_bind, Option.bind_eq_some_iff, Option.pure_def,
    Option.some.injEq] at hsend
  obtain ⟨originatorRoute, horiginator, destRoute, -, rfl⟩ := hsend
  have hpos := (h.routes _ (findRoute_eq_some horiginator).1).metric_pos
  exact h.sendAODVPacket ⟨fun hzero ↦ absurd hzero hpos.ne', fun hflag ↦ absurd hflag Bool.false_ne_true⟩

theorem forwardRREQ (h : s.Sound P self) (hpos : 0 < rreq.hopCount)
    (hne : rreq.originatorAddr ≠ rreq.destAddr)
    (hbroadcast : rreq.originatorAddr ≠ P.broadcastAddress) :
    (s.forwardRREQ P now rreq timeToLive).Sound P self := by
  rw [Node.forwardRREQ]
  split_ifs
  · exact h.sendAODVPacket ⟨hne, hbroadcast, fun hzero ↦ absurd hzero hpos.ne'⟩
  · exact h

theorem replyAsIntermediate (h : s.Sound P self) (hroute : route ∈ s.routes)
    (hreply : s.replyAsIntermediate P now rreq route sourceAddr = some s')
    (hne : rreq.originatorAddr ≠ P.broadcastAddress) : s'.Sound P self := by
  have hcreate : (s.createRREPAsIntermediate now rreq route sourceAddr).2.Sound P self :=
    (h.modifyRoute _ (Route.alike_addPrecursor _)).modifyRoute _ (Route.alike_addPrecursor _)
  have hsend {s₁ : Node} (hs₁ : Node.sendRREP P now
      (s.createRREPAsIntermediate now rreq route sourceAddr).2
      (s.createRREPAsIntermediate now rreq route sourceAddr).1 rreq.originatorAddr 255 = some s₁) :
      s₁.Sound P self :=
    hcreate.sendRREP hs₁ rfl (fun hzero ↦ absurd hzero (h.routes _ hroute).metric_pos.ne') hne
  rw [Node.replyAsIntermediate] at hreply
  split_ifs at hreply
  · obtain rfl := Option.some.inj hreply
    exact h
  · rw [Option.bind_eq_bind, Option.bind_eq_some_iff] at hreply
    obtain ⟨s₁, hs₁, hgratuitous⟩ := hreply
    exact (hsend hs₁).sendGRREP hgratuitous
  · rw [Option.bind_eq_bind, Option.bind_eq_some_iff] at hreply
    obtain ⟨s₁, hs₁, hsame⟩ := hreply
    obtain rfl := Option.some.inj hsame
    exact hsend hs₁

theorem setPreviousHop (h : s.Sound P self) (sourceAddr : L3Address) (seqNum : UInt32) :
    (s.setPreviousHop P now sourceAddr seqNum).Sound P self :=
  h.setRoute Nat.one_pos fun _ ↦ rfl

theorem handleRREQ (h : s.Sound P self)
    (hhandle : s.handleRREQ P self now rreq sourceAddr timeToLive = some s')
    (hrreq : rreq.Sound P sourceAddr) : s'.Sound P self := by
  obtain ⟨hne, hbroadcast, hzero⟩ := hrreq
  rw [Node.handleRREQ] at hhandle
  split_ifs at hhandle with hblack
  · obtain rfl := Option.some.inj hhandle
    exact h
  dsimp only at hhandle
  have hprevious : (s.setPreviousHop P now sourceAddr rreq.originatorSeqNum).Sound P self :=
    h.setPreviousHop sourceAddr rreq.originatorSeqNum
  split_ifs at hhandle with hagain hself
  · obtain rfl := Option.some.inj hhandle
    exact hprevious
  all_goals
    generalize hs₁ : Node.setReverseRoute P now _ { rreq with hopCount := rreq.hopCount + 1 }
      sourceAddr = s₁ at hhandle
    have hreverse : s₁.Sound P self := by
      rw [← hs₁]
      refine Sound.setReverseRoute (hprevious.of_eq rfl rfl) (Nat.succ_pos _) fun hone ↦ ?_
      exact (hzero (Nat.succ_injective hone)).symm
  · -- the node is the destination
    have hcreate : (s₁.createRREPAsDestination P
        { rreq with hopCount := rreq.hopCount + 1 }).2.Sound P self := hreverse.of_eq rfl rfl
    exact hcreate.sendRREP hhandle rfl (fun _ ↦ hself) hbroadcast
  · split at hhandle
    · rename_i destRoute hroute
      split_ifs at hhandle
      · exact hreverse.replyAsIntermediate (findRoute_eq_some hroute).1 hhandle hbroadcast
      · obtain rfl := Option.some.inj hhandle
        exact hreverse.forwardRREQ (Nat.succ_pos _) hne hbroadcast
    · obtain rfl := Option.some.inj hhandle
      exact hreverse.forwardRREQ (Nat.succ_pos _) hne hbroadcast

/-! ### Replies -/

theorem setForwardRoute (h : s.Sound P self) (hpos : 0 < rrep.hopCount)
    (hnext : rrep.hopCount = 1 → sourceAddr = rrep.destAddr) :
    (s.setForwardRoute now rrep sourceAddr).Sound P self := by
  rw [Node.setForwardRoute]
  rcases hroute : s.findRoute rrep.destAddr with - | destRoute
  · exact h.createRoute hroute hpos hnext
  · dsimp only
    split_ifs
    · exact h.update hpos hnext
    · exact h

/-- A node that passes a reply on has not been asked for an acknowledgement. -/
theorem forwardRREP (h : s.Sound P self) (hack : rrep.ackRequiredFlag = false)
    (hpos : 0 < rrep.hopCount) : (s.forwardRREP P now rrep sourceAddr).Sound P self := by
  rw [Node.forwardRREP]
  split
  · rename_i originatorRoute hroute
    have hlife : (s.modifyRoute rrep.originatorAddr fun route ↦
        { route with lifeTime := max (now + P.activeRouteTimeout) route.lifeTime }).Sound P self :=
      h.modifyRoute _ fun _ ↦ ⟨rfl, rfl, rfl⟩
    dsimp only
    split_ifs with hreboot hflag
    · exact absurd hflag (by rw [hack]; exact Bool.false_ne_true)
    · refine sendAODVPacket ?_ ⟨fun hzero ↦ absurd hzero hpos.ne', fun hflag ↦ absurd hflag Bool.false_ne_true⟩
      have hprecursor := hlife.modifyRoute rrep.destAddr
        (Route.alike_addPrecursor originatorRoute.nextHop)
      split
      · exact hprecursor.modifyRoute _ (Route.alike_addPrecursor _)
      · exact hprecursor
    · exact hlife
  · exact h

theorem acceptRREP (h : s.Sound P self) (hpos : 0 < rrep.hopCount)
    (hnext : rrep.hopCount = 1 → sourceAddr = rrep.destAddr) :
    (s.acceptRREP now rrep sourceAddr).Sound P self := by
  rw [Node.acceptRREP]
  split_ifs
  · refine Sound.update ?_ hpos hnext
    exact h.of_eq rfl rfl
  · exact h

theorem handleRREP (h : s.Sound P self) (hrrep : Sent.Sound P sourceAddr
    ⟨.rrep rrep, destAddr, timeToLive⟩) (hdest : destAddr = self ∨ destAddr = P.broadcastAddress) :
    (s.handleRREP P self now rrep sourceAddr).Sound P self := by
  obtain ⟨hzero, hack⟩ := hrrep
  rw [Node.handleRREP]
  split_ifs with hhello
  · exact h.setRoute Nat.one_pos fun _ ↦ rfl
  dsimp only
  have hnext : rrep.hopCount + 1 = 1 → sourceAddr = rrep.destAddr := fun hone ↦
    (hzero (Nat.succ_injective hone)).symm
  have hforward : (Node.setForwardRoute now (s.setPreviousHop P now sourceAddr rrep.originatorSeqNum)
      { rrep with hopCount := rrep.hopCount + 1 } sourceAddr).Sound P self :=
    (h.setPreviousHop sourceAddr rrep.originatorSeqNum).setForwardRoute (Nat.succ_pos _) hnext
  split_ifs with hself
  · refine hforward.forwardRREP ?_ (Nat.succ_pos _)
    -- the reply has been sent to its originator alone
    refine Bool.eq_false_iff.2 fun hflag ↦ ?_
    obtain ⟨rfl, hne⟩ := hack hflag
    exact hdest.elim (fun heq ↦ hself heq.symm) hne
  · exact hforward.acceptRREP (Nat.succ_pos _) hnext

/-! ### Errors -/

theorem sendRERR (h : s.Sound P self) (unreachableNodes : List UnreachableNode) :
    (s.sendRERR P now unreachableNodes).Sound P self := by
  refine Sound.sendAODVPacket ?_ ?_
  · exact h.of_eq rfl rfl
  · exact trivial

theorem handleLinkBreakSendRERR (h : s.Sound P self) (unreachableAddr : L3Address) :
    (s.handleLinkBreakSendRERR P now unreachableAddr).Sound P self := by
  rw [Node.handleLinkBreakSendRERR]
  split
  · exact h
  · dsimp only
    have hinvalidate := h.map_alike (f := fun route ↦
      if isVia unreachableAddr route then invalidate P now (raisedSeqNum route) route else route)
      fun route ↦ by split_ifs; exacts [⟨rfl, rfl, rfl⟩, .refl route]
    split_ifs
    exacts [hinvalidate, hinvalidate.sendRERR _, hinvalidate, hinvalidate.sendRERR _]

theorem receiveSignal (h : s.Sound P self) (unreachableAddr : L3Address) :
    (s.receiveSignal P now unreachableAddr).Sound P self := by
  rw [Node.receiveSignal]
  split
  · exact h.handleLinkBreakSendRERR _
  · exact h

theorem handleRERR (h : s.Sound P self) (unreachableNodes : List UnreachableNode)
    (sourceAddr : L3Address) : (s.handleRERR P now unreachableNodes sourceAddr).Sound P self := by
  rw [Node.handleRERR]
  dsimp only
  split_ifs
  on_goal 2 => refine sendRERR ?_ _
  -- the routes over the sender are invalidated
  all_goals
    refine h.map_alike fun route ↦ ?_
    split
    · split_ifs
      exacts [⟨rfl, rfl, rfl⟩, .refl route]
    · exact .refl route

theorem sendRERRWhenNoRouteToForward (h : s.Sound P self) (unreachableAddr : L3Address) :
    (s.sendRERRWhenNoRouteToForward P now unreachableAddr).Sound P self := by
  rw [Node.sendRERRWhenNoRouteToForward]
  split_ifs
  · exact h
  · exact h.sendRERR _

theorem datagramForwardHook (h : s.Sound P self) (sourceAddr destAddr : L3Address) :
    (s.datagramForwardHook P self now sourceAddr destAddr).Sound P self := by
  rw [Node.datagramForwardHook]
  have hboth := (h.updateValidRouteLifeTime sourceAddr (now + P.activeRouteTimeout))
    |>.updateValidRouteLifeTime destAddr (now + P.activeRouteTimeout)
  dsimp only
  split_ifs
  · split
    exacts [h.updateValidRouteLifeTime _ _, h]
  · exact h
  · split
    · rename_i routeDest hroute
      have hused := hboth.updateValidRouteLifeTime routeDest.nextHop (now + P.activeRouteTimeout)
      split_ifs
      on_goal 2 =>
        refine sendRERRWhenNoRouteToForward ?_ _
        refine modifyRoute ?_ _ fun _ ↦ ⟨rfl, rfl, rfl⟩
      all_goals
        split
        exacts [hused.updateValidRouteLifeTime _ _, hused]
    · refine sendRERRWhenNoRouteToForward ?_ _
      split
      exacts [hboth.updateValidRouteLifeTime _ _, hboth]

/-! ### The other events -/

/-- Routes that are alike have the same destinations, and are sound together. -/
theorem routes_alike {kept routes : List Route} (h : List.Forall₂ Route.Alike kept routes)
    (hkept : ∀ route ∈ kept, route.Sound) :
    (∀ route ∈ routes, route.Sound) ∧
      routes.map Route.destination = kept.map Route.destination := by
  induction h with
  | nil => exact ⟨hkept, rfl⟩
  | cons halike _ ih =>
    rw [List.forall_mem_cons] at hkept
    obtain ⟨hsound, hdest⟩ := ih hkept.2
    refine ⟨List.forall_mem_cons.2 ⟨hkept.1.alike halike, hsound⟩, ?_⟩
    rw [List.map_cons, List.map_cons, hdest, halike.destination]

/-- What the loop leaves are routes that were there, as far as their destinations go, in the same
order. -/
theorem expungeFrom_alike (P : Parameters) (now : ℤ) (waitForRREPTimers : L3Address → Bool) (routes : List Route) :
    ∃ kept : List Route, kept.Sublist routes ∧
      List.Forall₂ Route.Alike kept (expungeFrom P now waitForRREPTimers routes) := by
  fun_induction expungeFrom with
  | case1 => exact ⟨[], .slnil, .nil⟩
  | case2 route _ _ => exact ⟨[route], .refl _, .cons ⟨rfl, rfl, rfl⟩ .nil⟩
  | case3 route _ _ _ => exact ⟨[route], .refl _, .cons ⟨rfl, rfl, rfl⟩ .nil⟩
  | case4 route _ _ _ => exact ⟨[], List.nil_sublist _, .nil⟩
  | case5 route _ => exact ⟨[route], .refl _, .cons (.refl route) .nil⟩
  | case6 route next routes _ _ ih =>
    obtain ⟨kept, hsub, halike⟩ := ih
    exact ⟨route :: kept, hsub.cons_cons route, .cons ⟨rfl, rfl, rfl⟩ halike⟩
  | case7 route next routes _ _ _ ih =>
    obtain ⟨kept, hsub, halike⟩ := ih
    exact ⟨route :: kept, hsub.cons_cons route, .cons ⟨rfl, rfl, rfl⟩ halike⟩
  | case8 route next routes _ _ _ ih =>
    -- the next one is passed over
    obtain ⟨kept, hsub, halike⟩ := ih
    exact ⟨next :: kept, (hsub.cons_cons next).cons route, .cons (.refl next) halike⟩
  | case9 route next routes _ ih =>
    obtain ⟨kept, hsub, halike⟩ := ih
    exact ⟨route :: kept, hsub.cons_cons route, .cons (.refl route) halike⟩

theorem expungeRoutes (h : s.Sound P self) : (s.expungeRoutes P now).Sound P self := by
  obtain ⟨kept, hsub, halike⟩ := expungeFrom_alike P now s.waitForRREPTimers
    s.routes
  obtain ⟨hsound, hdest⟩ := routes_alike halike fun route hroute ↦
    h.routes route (hsub.subset hroute)
  exact ⟨hsound, hdest ▸ h.nodup.sublist (hsub.map _), h.sent⟩

theorem askForRoute (h : s.Sound P self) {target : L3Address} (htarget : target ≠ self)
    (hself : self ≠ P.broadcastAddress) (timeToLive : Option ℕ) :
    (s.askForRoute P self now target timeToLive).Sound P self := by
  rcases timeToLive with - | timeToLive
  · exact h.of_eq rfl rfl
  · refine Sound.sendAODVPacket ?_ ⟨htarget.symm, hself, fun _ ↦ rfl⟩
    exact h.of_eq rfl rfl

theorem sendHelloMessagesIfNeeded (h : s.Sound P self) :
    (s.sendHelloMessagesIfNeeded P self now).Sound P self := by
  rw [Node.sendHelloMessagesIfNeeded]
  split_ifs
  · exact h.sendAODVPacket ⟨fun _ ↦ rfl, fun hflag ↦ absurd hflag Bool.false_ne_true⟩
  · exact h

end Sound

/-- **What a node does with an event keeps its routes and packets sound**, if what it receives
is. -/
theorem Sound.handle {event : NodeEvent} (h : s.Sound P self)
    (hhandle : s.handle P self now event = some s') (hself : self ≠ P.broadcastAddress)
    (hreceive : ∀ t, event = .receive t → t.sent.Sound P t.source ∧
      (t.sent.destAddr = self ∨ t.sent.destAddr = P.broadcastAddress))
    (hask : ∀ target timeToLive, event = .askForRoute target timeToLive → target ≠ self) :
    s'.Sound P self := by
  rcases event with t | ⟨target, timeToLive⟩ | ⟨destAddr, nextHop⟩ | ⟨sourceAddr, destAddr⟩ |
    unreachableAddr | - | - | - | - | - | - | -
  · obtain ⟨hsound, hdest⟩ := hreceive t rfl
    obtain ⟨source, packet, destAddr, timeToLive⟩ := t
    rw [Node.handle] at hhandle
    split_ifs at hhandle
    swap
    · obtain rfl := Option.some.inj hhandle
      exact h
    rcases packet with rreq | rrep | unreachableNodes | -
    · exact h.handleRREQ hhandle hsound
    · obtain rfl := Option.some.inj hhandle
      exact h.handleRREP hsound hdest
    · obtain rfl := Option.some.inj hhandle
      exact h.handleRERR _ _
    · exact hsound.elim
  all_goals obtain rfl := Option.some.inj hhandle
  · exact h.askForRoute (hask _ _ rfl) hself timeToLive
  · exact (h.updateValidRouteLifeTime _ _).updateValidRouteLifeTime _ _
  · exact h.datagramForwardHook _ _
  · exact h.receiveSignal _
  · exact h.sendHelloMessagesIfNeeded
  · exact h.expungeRoutes
  · exact h.of_eq rfl rfl
  · exact h.of_eq rfl rfl
  · exact h.of_eq rfl rfl
  · exact ⟨fun _ hroute ↦ absurd hroute List.not_mem_nil, List.nodup_nil, h.sent⟩
  · exact h.of_eq rfl rfl

end Node

/-! ### Runs -/

namespace Network

variable {P : Parameters} {net net' : Network} {event : Event} {sent : List Sent}

/-- Every node is sound, and so is every packet in the air. -/
structure Sound (P : Parameters) (net : Network) : Prop where
  nodes : ∀ addr, (net.nodes addr).Sound P addr
  air : ∀ t ∈ net.air, t.sent.Sound P t.source

theorem sound_init : Sound P {} where
  nodes _ := ⟨fun _ hroute ↦ absurd hroute List.not_mem_nil, List.nodup_nil, fun _ hx ↦ absurd hx List.not_mem_nil⟩
  air _ ht := absurd ht List.not_mem_nil

theorem sound_step (h : net.Sound P) (hstep : (system P).Step net event sent net') :
    net'.Sound P := by
  obtain ⟨hallowed, hafter⟩ := hstep
  rcases event with ⟨addr, event⟩ | t
  · obtain ⟨hself, hallowed⟩ := hallowed
    obtain ⟨s, hhandle, hs⟩ := Option.map_eq_some_iff.1 hafter
    obtain ⟨rfl, rfl⟩ := Prod.mk.inj hs
    have hnode : (net.nodeAt addr).Sound P addr :=
      ⟨(h.nodes addr).routes, (h.nodes addr).nodup, fun _ hx ↦ absurd hx List.not_mem_nil⟩
    have hsound : s.Sound P addr := by
      refine hnode.handle hhandle hself (fun t ht ↦ ?_) fun target timeToLive hask ↦ ?_
      · subst ht
        exact ⟨h.air t hallowed.1, hallowed.2.2⟩
      · subst hask
        exact hallowed.1
    refine ⟨fun addr' ↦ ?_, List.forall_mem_append.2 ⟨h.air, List.forall_mem_map.2 hsound.sent⟩⟩
    obtain rfl | hne := eq_or_ne addr' addr
    · rw [setNode_nodes_self]
      exact hsound
    · rw [setNode_nodes_of_ne net s hne]
      exact h.nodes addr'
  · obtain ⟨rfl, rfl⟩ := Prod.mk.inj (Option.some.inj hafter)
    exact ⟨h.nodes, h.air⟩

/-- **Routes and packets are sound in every state of a run.** -/
theorem sound {tr : List (Transition Network Event (List Sent))} (h : (system P).Run tr net) :
    net.Sound P :=
  h.invariant (fun _ hinit ↦ hinit ▸ sound_init) fun _ _ _ _ hsound hstep ↦ sound_step hsound hstep

end Network

end Inet.AODV
