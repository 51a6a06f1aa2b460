import Inet.Routing.AODVInvariants

/-!
# Requests and replies in a network of AODV nodes

`handle_cases` says what an event does to the numbers of a node, to its wait for an acknowledgement
and to what it sends. From it follow, for every run:

* a reply is not older than the request was, unless the destination answers whose own number is more
  than one behind;
* an acknowledgement is never sent;
* copies of a request are copies of one request, while the numbers of the nodes last.
-/

namespace Inet.AODV

open TransitionSystem

/-- The packet is not a request. -/
def ControlPacket.NoRREQ : ControlPacket → Prop
  | .rreq _ => False
  | _ => True

namespace Node

variable {P : Parameters} {self sourceAddr : L3Address} {now : ℤ} {s s' : Node} {rrep : RREP}

namespace Says

variable (s)

theorem updateValidRouteLifeTime {p : ControlPacket → Prop} (destAddr : L3Address) (lifetime : ℤ) :
    Says p s (s.updateValidRouteLifeTime destAddr lifetime) :=
  quiet rfl rfl rfl rfl

theorem setRoutes {p : ControlPacket → Prop} (routes : List Route) :
    Says p s { s with routes := routes } :=
  quiet rfl rfl rfl rfl

theorem sendRERR (unreachableNodes : List UnreachableNode) :
    Says ControlPacket.NoRREQ s (s.sendRERR P now unreachableNodes) := by
  have hcount : Says ControlPacket.NoRREQ s { s with rerrCount := s.rerrCount + 1 } :=
    quiet rfl rfl rfl rfl
  exact hcount.trans (sendAODVPacket _ trivial _ _)

theorem handleLinkBreakSendRERR (unreachableAddr : L3Address) :
    Says ControlPacket.NoRREQ s (s.handleLinkBreakSendRERR P now unreachableAddr) := by
  rw [Node.handleLinkBreakSendRERR]
  split
  · exact refl s
  · dsimp only
    generalize ite (Route.isActive _ = true) [_] [] ++ _ = unreachableNodes
    split_ifs
    · exact setRoutes s _
    · exact (setRoutes s _).trans (sendRERR _ _)

theorem receiveSignal (unreachableAddr : L3Address) :
    Says ControlPacket.NoRREQ s (s.receiveSignal P now unreachableAddr) := by
  rw [Node.receiveSignal]
  split
  · exact handleLinkBreakSendRERR s _
  · exact refl s

theorem handleRERR (unreachableNodes : List UnreachableNode) (sourceAddr : L3Address) :
    Says ControlPacket.NoRREQ s (s.handleRERR P now unreachableNodes sourceAddr) := by
  rw [Node.handleRERR]
  dsimp only
  split_ifs
  · exact setRoutes s _
  · exact (setRoutes s _).trans (sendRERR _ _)
  · exact setRoutes s _

theorem sendRERRWhenNoRouteToForward (unreachableAddr : L3Address) :
    Says ControlPacket.NoRREQ s (s.sendRERRWhenNoRouteToForward P now unreachableAddr) := by
  rw [Node.sendRERRWhenNoRouteToForward]
  split_ifs
  · exact refl s
  · exact sendRERR s _

theorem datagramForwardHook (sourceAddr destAddr : L3Address) :
    Says ControlPacket.NoRREQ s (s.datagramForwardHook P self now sourceAddr destAddr) := by
  rw [Node.datagramForwardHook]
  have hboth : Says ControlPacket.NoRREQ s
      ((s.updateValidRouteLifeTime sourceAddr (now + P.activeRouteTimeout)).updateValidRouteLifeTime
        destAddr (now + P.activeRouteTimeout)) := quiet rfl rfl rfl rfl
  dsimp only
  split_ifs
  · split
    exacts [updateValidRouteLifeTime s _ _, refl s]
  · exact refl s
  · split
    · rename_i routeDest hroute
      have hused := hboth.trans
        (updateValidRouteLifeTime _ routeDest.nextHop (now + P.activeRouteTimeout))
      split_ifs
      on_goal 2 =>
        refine Says.trans ?_ ((modifyRoute _ _ _).trans (sendRERRWhenNoRouteToForward _ _))
      all_goals
        split
        exacts [hused.trans (updateValidRouteLifeTime _ _ _), hused]
    · refine Says.trans ?_ (sendRERRWhenNoRouteToForward _ _)
      split
      exacts [hboth.trans (updateValidRouteLifeTime _ _ _), hboth]

theorem forwardRREP (rrep : RREP) (sourceAddr : L3Address) :
    Says ControlPacket.NoRREQ s (s.forwardRREP P now rrep sourceAddr) := by
  rw [Node.forwardRREP]
  split
  · rename_i originatorRoute hroute
    dsimp only
    have hlife := modifyRoute (p := ControlPacket.NoRREQ) s rrep.originatorAddr fun route ↦
      { route with lifeTime := max (now + P.activeRouteTimeout) route.lifeTime }
    split_ifs
    · have hack (s : Node) : Says ControlPacket.NoRREQ s
          (s.sendAODVPacket P now .rrepAck sourceAddr 100) := sendAODVPacket s trivial _ _
      have hprecursor := (hlife.trans (hack _)).trans
        (modifyRoute _ rrep.destAddr (.addPrecursor originatorRoute.nextHop))
      refine Says.trans ?_ (sendAODVPacket _ trivial _ _)
      split
      exacts [hprecursor.trans (modifyRoute _ _ _), hprecursor]
    · have hprecursor := hlife.trans
        (modifyRoute _ rrep.destAddr (.addPrecursor originatorRoute.nextHop))
      refine Says.trans ?_ (sendAODVPacket _ trivial _ _)
      split
      exacts [hprecursor.trans (modifyRoute _ _ _), hprecursor]
    · exact hlife
  · exact refl s

theorem acceptRREP (rrep : RREP) (sourceAddr : L3Address) :
    Says ControlPacket.NoRREQ s (s.acceptRREP now rrep sourceAddr) := by
  rw [Node.acceptRREP]
  split_ifs
  · exact quiet rfl rfl rfl rfl
  · exact refl s

theorem handleRREP (rrep : RREP) (sourceAddr : L3Address) :
    Says ControlPacket.NoRREQ s (s.handleRREP P self now rrep sourceAddr) := by
  rw [Node.handleRREP]
  split_ifs
  · exact setRoute s _ _ _ _ _ _ _
  dsimp only
  have hforward : Says ControlPacket.NoRREQ s
      (Node.setForwardRoute now (s.setPreviousHop P now sourceAddr rrep.originatorSeqNum)
        { rrep with hopCount := rrep.hopCount + 1 } sourceAddr) :=
    (setRoute s _ _ _ _ _ _ _).trans (setForwardRoute _ _ _)
  split_ifs
  · exact hforward.trans (forwardRREP _ _ _)
  · exact hforward.trans (acceptRREP _ _ _)

theorem sendHelloMessagesIfNeeded :
    Says ControlPacket.NoRREQ s (s.sendHelloMessagesIfNeeded P self now) := by
  rw [Node.sendHelloMessagesIfNeeded]
  split_ifs
  · exact sendAODVPacket s trivial _ _
  · exact refl s

end Says

/-- **What an event does to a node.** Only a request that is asked for, or that is received, has
anything to do with the numbers, and the wait for an acknowledgement ends with the timer or when the
node goes down. -/
theorem handle_cases {event : NodeEvent} (h : s.handle P self now event = some s') :
    Says ControlPacket.NoRREQ s s' ∨
    (∃ target timeToLive, event = .askForRoute target timeToLive ∧
      s' = s.askForRoute P self now target timeToLive) ∨
    (∃ t rreq, event = .receive t ∧ t.sent.packet = .rreq rreq ∧ s.isOperational ∧
      s.handleRREQ P self now rreq t.source (t.sent.timeToLive - 1) = some s') ∨
    (∃ t, event = .receive t ∧ t.sent.packet = .rrepAck) ∨
    (event = .rrepAckTimer ∧ s' = s.handleRREPACKTimer P now) ∨
    (event = .shutDown ∧ s' = s.shutDown) := by
  rcases event with t | ⟨target, timeToLive⟩ | ⟨destAddr, nextHop⟩ | ⟨sourceAddr, destAddr⟩ |
    unreachableAddr | - | - | - | - | - | - | -
  · rw [Node.handle] at h
    split_ifs at h with hoperational
    swap
    · obtain rfl := Option.some.inj h
      exact .inl (.refl s)
    rcases hpacket : t.sent.packet with rreq | rrep | unreachableNodes | -
    · rw [hpacket] at h
      exact .inr (.inr (.inl ⟨t, rreq, rfl, hpacket, hoperational, h⟩))
    · rw [hpacket] at h
      obtain rfl := Option.some.inj h
      exact .inl (.handleRREP s _ _)
    · rw [hpacket] at h
      obtain rfl := Option.some.inj h
      exact .inl (.handleRERR s _ _)
    · exact .inr (.inr (.inr (.inl ⟨t, rfl, hpacket⟩)))
  all_goals obtain rfl := Option.some.inj h
  · exact .inr (.inl ⟨target, timeToLive, rfl, rfl⟩)
  · exact .inl ((Says.updateValidRouteLifeTime s _ _).trans (.updateValidRouteLifeTime _ _ _))
  · exact .inl (.datagramForwardHook s _ _)
  · exact .inl (.receiveSignal s _)
  · exact .inl (.sendHelloMessagesIfNeeded s)
  · exact .inl (.setRoutes s _)
  · exact .inl (.quiet rfl rfl rfl rfl)
  · exact .inr (.inr (.inr (.inr (.inl ⟨rfl, rfl⟩))))
  · exact .inl (.quiet rfl rfl rfl rfl)
  · exact .inr (.inr (.inr (.inr (.inr ⟨rfl, rfl⟩))))
  · exact .inl (.quiet rfl rfl rfl rfl)

end Node

namespace Network

variable {P : Parameters} {net net' : Network} {event : Event} {sent : List Sent}
  {tr : List (Transition Network Event (List Sent))} {t : Transition Network Event (List Sent)}

/-- What an event of a node does to the network. -/
theorem step_node {addr : L3Address} {nodeEvent : NodeEvent}
    (h : (system P).Step net (.node addr nodeEvent) sent net') :
    ∃ s, (net.nodeAt addr).handle P addr net.now nodeEvent = some s ∧
      net' = net.setNode addr s ∧ sent = s.sent := by
  obtain ⟨s, hhandle, hs⟩ := Option.map_eq_some_iff.1 h.2
  obtain ⟨rfl, rfl⟩ := Prod.mk.inj hs
  exact ⟨s, hhandle, rfl, rfl⟩

theorem step_advance {now : ℤ} (h : (system P).Step net (.advance now) sent net') :
    net' = { net with now := now } ∧ sent = [] := by
  obtain ⟨rfl, rfl⟩ := Prod.mk.inj (Option.some.inj h.2)
  exact ⟨rfl, rfl⟩

/-! ### The numbers of replies -/

/-- The replies that a node generates for a request are not older than the number in it. -/
def RepliesNotOlder (t : Transition Network Event (List Sent)) : Prop :=
  ∀ addr x rreq, t.input = .node addr (.receive x) → x.sent.packet = .rreq rreq →
    rreq.unknownSeqNumFlag = false →
      ∀ y ∈ t.output, ∀ rrep, y.packet = .rrep rrep → rreq.Answers rrep →
        rreq.destSeqNum ≤ rrep.destSeqNum

/-- A destination that answers a request is at most one behind the number in it. -/
def DestinationKeepsUp (P : Parameters) (t : Transition Network Event (List Sent)) : Prop :=
  ∀ addr x rreq, t.input = .node addr (.receive x) → x.sent.packet = .rreq rreq →
    rreq.unknownSeqNumFlag = false → (t.pre.nodes addr).isOperational → rreq.destAddr = addr →
      ¬(t.pre.nodes addr).Ignores P t.pre.now rreq x.source →
        rreq.destSeqNum ≤ (t.pre.nodes addr).sequenceNum ∨
          rreq.destSeqNum = (t.pre.nodes addr).sequenceNum + 1

/-- The number of the destination catches up by one step. -/
theorem le_replySeqNum_iff {s : Node} {rreq : RREQ} (h : rreq.unknownSeqNumFlag = false) :
    rreq.destSeqNum ≤ s.replySeqNum rreq ↔
      rreq.destSeqNum ≤ s.sequenceNum ∨ rreq.destSeqNum = s.sequenceNum + 1 := by
  rw [Node.replySeqNum]
  split_ifs with hnext
  · exact ⟨fun _ ↦ .inr hnext.2.symm, fun _ ↦ hnext.2 ▸ UInt32.le_refl _⟩
  · exact ⟨.inl, fun hor ↦ hor.resolve_right fun heq ↦ hnext ⟨h, heq.symm⟩⟩

/-- **One step.** -/
theorem repliesNotOlder_iff_of_sound (hsound : t.pre.Sound P) (hstep : (system P).Takes t) :
    RepliesNotOlder t ↔ DestinationKeepsUp P t := by
  obtain ⟨net, event, sent, net'⟩ := t
  have hreceive {addr : L3Address} {x : Transmission} {rreq : RREQ} {s : Node}
      (hpacket : x.sent.packet = .rreq rreq) (hoperational : (net.nodes addr).isOperational)
      (hhandle : (net.nodeAt addr).handle P addr net.now (.receive x) = some s) :
      (net.nodeAt addr).handleRREQ P addr net.now rreq x.source (x.sent.timeToLive - 1) =
        some s := by
    rw [Node.handle, if_pos (show (net.nodeAt addr).isOperational from hoperational), hpacket]
      at hhandle
    exact hhandle
  constructor
  · rintro h addr x rreq rfl hpacket hflag hoperational hdest hignores
    obtain ⟨s, hhandle, -, rfl⟩ := step_node hstep
    obtain ⟨hignores', -⟩ | ⟨-, -, -, -, -, rrep, nextHop, hanswers, hnumber, hmem, -⟩ | ⟨-, hne, -⟩ :=
      Node.handleRREQ_cases (hreceive hpacket hoperational hhandle)
    · exact absurd hignores' hignores
    · have hle := h addr x rreq rfl hpacket hflag _ hmem rrep rfl hanswers
      rw [hnumber] at hle
      exact (le_replySeqNum_iff hflag).1 hle
    · exact absurd hdest hne
  · rintro h addr x rreq rfl hpacket hflag y hy rrep hrrep hanswers
    obtain ⟨s, hhandle, -, rfl⟩ := step_node hstep
    by_cases hoperational : (net.nodes addr).isOperational
    swap
    · -- a node that is down sends nothing
      rw [Node.handle, if_neg (show ¬(net.nodeAt addr).isOperational from hoperational)] at hhandle
      have hnil : s.sent = [] := Option.some.inj hhandle ▸ rfl
      have hmem : y ∈ s.sent := hy
      rw [hnil] at hmem
      cases hmem
    obtain ⟨-, htold⟩ | ⟨hignores, hdest, -, -, -, rrep', nextHop, -, hnumber, -, honly⟩ |
      ⟨-, -, htold⟩ := Node.handleRREQ_cases (hreceive hpacket hoperational hhandle)
    · exact (htold.sent y hy).elim (fun hnil ↦ absurd hnil List.not_mem_nil) False.elim
    · obtain hnil | rfl := honly y hy
      · cases hnil
      obtain rfl := ControlPacket.rrep.inj hrrep
      rw [hnumber]
      exact (le_replySeqNum_iff hflag).2
        (h addr x rreq rfl hpacket hflag hoperational hdest hignores)
    · obtain hnil | hpasses := htold.sent y hy
      · cases hnil
      rw [hrrep] at hpasses
      obtain ⟨-, hle⟩ | hgratuitous := hpasses
      · exact hle
      · -- the originator has not asked for a route to itself
        have hrreq := hsound.air x hstep.1.2.1
        rw [Sent.Sound, hpacket] at hrreq
        exact absurd (hgratuitous.1.symm.trans hanswers.1) hrreq.1

/-- **The replies of a run are not older than the requests** exactly if every destination that
answers is at most one behind. -/
theorem repliesNotOlder_iff (h : (system P).Run tr net) :
    (∀ t ∈ tr, RepliesNotOlder t) ↔ ∀ t ∈ tr, DestinationKeepsUp P t := by
  refine forall₂_congr fun t ht ↦ ?_
  obtain ⟨tr₁, hrun⟩ := h.reachable_pre ht
  exact repliesNotOlder_iff_of_sound (sound hrun) (h.takes ht)

/-! A run in which a destination is too far behind. -/

/-- Parameters with times in seconds. -/
def slowParameters : Parameters where
  broadcastAddress := 255
  isMulticast _ := false
  askGratuitousRREP := false
  activeRouteTimeout := 3
  deletePeriod := 15
  myRouteTimeout := 6
  blacklistTimeout := 5
  netTraversalTime := 2
  nodeTraversalTime := 0
  nextHopWait := 1
  pathDiscoveryTime := 5
  helloInterval := 1
  allowedHelloLoss := 2
  rerrRatelimit := 10

/-- The network after an event, or the same one if an assertion fails. -/
def next (P : Parameters) (net : Network) (event : Event) : Network × List Sent :=
  (net.after P event).getD (net, [])

theorem run_of_inputs {events : List Event}
    (h : ∀ t ∈ transitionsOf (next P) {} events,
      t.pre.Allowed P t.input ∧ (t.pre.after P t.input).isSome) :
    (system P).Run (transitionsOf (next P) {} events) (stateAfter (next P) {} events) := by
  refine Run.ofInputs (T := system P) (f := next P)
    (C := fun net event ↦ net.Allowed P event ∧ (net.after P event).isSome)
    (fun net event hC ↦ ⟨hC.1, ?_⟩) rfl h
  obtain ⟨x, hx⟩ := Option.isSome_iff_exists.1 hC.2
  rw [hx, next, hx]
  rfl

/-- The request for which the destination is too far behind. -/
def slowRequest : RREQ := ⟨false, false, 0, 1, 2, 3, 1, 1⟩

/-- The node with the address 2 has asked for a route, and node 1 knows it by that. Then the link
breaks, and a datagram comes for node 2. -/
def slowEvents : List Event :=
  [.node 2 (.askForRoute 4 (some 2)),
    .node 1 (.receive ⟨2, .rreq ⟨false, true, 0, 1, 4, 0, 2, 1⟩, 255, 2⟩),
    .node 3 (.receive ⟨1, .rreq ⟨false, false, 1, 1, 4, 0, 2, 1⟩, 255, 1⟩), .node 1 (.linkBreak 2),
    .node 1 (.forwardDatagram 3 2), .advance 6, .node 1 (.askForRoute 2 (some 2)),
    .node 2 (.receive ⟨1, .rreq slowRequest, 255, 2⟩)]

theorem run_slowEvents : (system slowParameters).Run
    (transitionsOf (next slowParameters) {} slowEvents)
    (stateAfter (next slowParameters) {} slowEvents) :=
  run_of_inputs (by decide +kernel)

/-- The node answers a request for the number 3 with the number 1. -/
theorem not_repliesNotOlder_outdatedDestination :
    ¬∀ P tr net, (system P).Run tr net → ∀ t ∈ tr, RepliesNotOlder t := by
  intro h
  have hreply : ∃ t ∈ transitionsOf (next slowParameters) {} slowEvents,
      t.input = .node 2 (.receive ⟨1, .rreq slowRequest, 255, 2⟩) ∧
        ⟨.rrep ⟨true, 0, 2, 1, 1, 1, 6⟩, 1, 255⟩ ∈ t.output := by decide +kernel
  obtain ⟨t, ht, hinput, hmem⟩ := hreply
  exact absurd (h _ _ _ run_slowEvents t ht 2 _ slowRequest hinput rfl rfl _ hmem _ rfl ⟨rfl, rfl⟩)
    (by decide)

theorem repliesNotOlder_iff_slowEvents :
    (∀ t ∈ transitionsOf (next slowParameters) {} slowEvents, RepliesNotOlder t) ↔
      ∀ t ∈ transitionsOf (next slowParameters) {} slowEvents,
        DestinationKeepsUp slowParameters t :=
  repliesNotOlder_iff run_slowEvents

/-! ### Acknowledgements -/

/-- A wait for an acknowledgement is over. -/
def EndsWait (addr : L3Address) (t : Transition Network Event (List Sent)) : Prop :=
  (t.pre.nodes addr).rrepAckTimer.isSome ∧ (t.post.nodes addr).rrepAckTimer = none

/-- The neighbour that has not given the acknowledgement is in the blacklist. -/
def Blacklists (P : Parameters) (addr : L3Address) (t : Transition Network Event (List Sent)) :
    Prop :=
  t.input = .node addr .rrepAckTimer ∧
    (t.post.nodes addr).blacklist (t.pre.nodes addr).failedNextHop =
      some (t.pre.now + P.blacklistTimeout)

theorem air_ne_rrepAck (hsound : net.Sound P) : ∀ x ∈ net.air, x.sent.packet ≠ .rrepAck := by
  intro x hx hpacket
  have hx := hsound.air x hx
  rw [Sent.Sound, hpacket] at hx
  exact hx

/-- What an event does to a node it does not happen to. -/
theorem nodes_of_ne {addr addr' : L3Address} {nodeEvent : NodeEvent}
    (h : (system P).Step net (.node addr nodeEvent) sent net') (hne : addr' ≠ addr) :
    net'.nodes addr' = net.nodes addr' := by
  obtain ⟨s, -, rfl, -⟩ := step_node h
  exact setNode_nodes_of_ne net s hne

theorem wait_step {addr : L3Address} (hsound : net.Sound P)
    (hstep : (system P).Step net event sent net')
    (hpending : (net.nodes addr).rrepAckTimer.isSome)
    (hover : (net'.nodes addr).rrepAckTimer = none) :
    (event = .node addr .rrepAckTimer ∧
      (net'.nodes addr).blacklist (net.nodes addr).failedNextHop =
        some (net.now + P.blacklistTimeout)) ∨ event = .node addr .shutDown := by
  have hkept (h : (net'.nodes addr).rrepAckTimer.isSome) : False := by
    rw [hover] at h
    cases h
  rcases event with ⟨addr', event⟩ | now
  swap
  · obtain ⟨rfl, -⟩ := step_advance hstep
    exact (hkept hpending).elim
  obtain rfl | hne := eq_or_ne addr addr'
  swap
  · rw [nodes_of_ne hstep hne] at hkept
    exact (hkept hpending).elim
  obtain ⟨s, hhandle, rfl, -⟩ := step_node hstep
  rw [setNode_nodes_self] at hkept ⊢
  obtain htold | ⟨target, timeToLive, rfl, rfl⟩ | ⟨t, rreq, rfl, -, -, hrreq⟩ | ⟨t, rfl, hpacket⟩ |
    ⟨rfl, rfl⟩ | ⟨rfl, -⟩ := Node.handle_cases hhandle
  · exact (hkept (htold.rrepAckTimer hpending)).elim
  · rcases timeToLive with - | timeToLive <;> exact (hkept hpending).elim
  · obtain ⟨-, htold⟩ | ⟨-, -, -, -, htimer, -⟩ | ⟨-, -, htold⟩ := Node.handleRREQ_cases hrreq
    · exact (hkept (htold.rrepAckTimer hpending)).elim
    · exact (hkept (htimer hpending)).elim
    · exact (hkept (htold.rrepAckTimer hpending)).elim
  · exact absurd hpacket (air_ne_rrepAck hsound t hstep.1.2.1)
  · exact .inl ⟨rfl, Function.update_self _ _ _⟩
  · exact .inr rfl

/-- **Acknowledgements are asked for and never given**: there is none in any run, and a wait for one
ends in the blacklist unless the node goes down. -/
theorem blacklists_of_endsWait (h : (system P).Run tr net) :
    (∀ x ∈ net.air, x.sent.packet ≠ .rrepAck) ∧
      ∀ t ∈ tr, ∀ addr, EndsWait addr t → Blacklists P addr t ∨ t.input = .node addr .shutDown := by
  refine ⟨air_ne_rrepAck (sound h), fun t ht addr hwait ↦ ?_⟩
  obtain ⟨tr₁, hrun⟩ := h.reachable_pre ht
  exact wait_step (sound hrun) (h.takes ht) hwait.1 hwait.2

/-- The run of above goes on until the timer fires. -/
def slowEventsWithTimer : List Event :=
  slowEvents ++ [.advance 7, .node 2 .rrepAckTimer]

theorem blacklists_of_endsWait_slowEvents :
    (∀ x ∈ (stateAfter (next slowParameters) {} slowEventsWithTimer).air,
      x.sent.packet ≠ .rrepAck) ∧
    ∀ t ∈ transitionsOf (next slowParameters) {} slowEventsWithTimer, ∀ addr, EndsWait addr t →
      Blacklists slowParameters addr t ∨ t.input = .node addr .shutDown :=
  blacklists_of_endsWait (run_of_inputs (by decide +kernel))

/-! ### The numbers of requests -/

/-- The node does not go down, and it has numbers left. -/
def Lasts (t : Transition Network Event (List Sent)) : Prop :=
  (∀ addr, t.input ≠ .node addr .shutDown) ∧
    ∀ addr, (t.pre.nodes addr).sequenceNum.toNat + 1 < 2 ^ 32 ∧
      (t.pre.nodes addr).rreqId.toNat + 1 < 2 ^ 32

/-- A request is in the air. -/
def InAir (net : Network) (rreq : RREQ) : Prop :=
  ∃ x ∈ net.air, x.sent.packet = .rreq rreq

/-- The requests of a node are told apart by their ids, and later ones have later numbers. No one
knows of a number that the node has not used. -/
structure Numbered (net : Network) : Prop where
  rreqId : ∀ rreq, net.InAir rreq → rreq.rreqId ≤ (net.nodes rreq.originatorAddr).rreqId
  seqNum : ∀ rreq, net.InAir rreq →
    rreq.originatorSeqNum ≤ (net.nodes rreq.originatorAddr).sequenceNum
  copy : ∀ rreq rreq', net.InAir rreq → net.InAir rreq' →
    rreq'.originatorAddr = rreq.originatorAddr → rreq'.rreqId = rreq.rreqId → rreq.Copy rreq'
  later : ∀ rreq rreq', net.InAir rreq → net.InAir rreq' →
    rreq'.originatorAddr = rreq.originatorAddr → rreq.rreqId < rreq'.rreqId →
      rreq.originatorSeqNum < rreq'.originatorSeqNum

/-- The numbers of the nodes do not fall, and every request that is in the air afterwards is a copy
of one that was. -/
structure Follows (net net' : Network) : Prop where
  sequenceNum : ∀ addr, (net.nodes addr).sequenceNum ≤ (net'.nodes addr).sequenceNum
  rreqId : ∀ addr, (net.nodes addr).rreqId ≤ (net'.nodes addr).rreqId
  copy : ∀ rreq, net'.InAir rreq → ∃ rreq₀, net.InAir rreq₀ ∧ rreq₀.Copy rreq

theorem Numbered.follows (h : net.Numbered) (hfollows : net.Follows net') : net'.Numbered where
  rreqId rreq hrreq := by
    obtain ⟨rreq₀, hrreq₀, haddr, hid, -, -⟩ := hfollows.copy rreq hrreq
    rw [hid, haddr]
    exact UInt32.le_trans (h.rreqId rreq₀ hrreq₀) (hfollows.rreqId _)
  seqNum rreq hrreq := by
    obtain ⟨rreq₀, hrreq₀, haddr, -, hseq, -⟩ := hfollows.copy rreq hrreq
    rw [hseq, haddr]
    exact UInt32.le_trans (h.seqNum rreq₀ hrreq₀) (hfollows.sequenceNum _)
  copy rreq rreq' hrreq hrreq' haddr hid := by
    obtain ⟨rreq₀, hrreq₀, haddr₀, hid₀, hseq₀, hdest₀⟩ := hfollows.copy rreq hrreq
    obtain ⟨rreq₁, hrreq₁, haddr₁, hid₁, hseq₁, hdest₁⟩ := hfollows.copy rreq' hrreq'
    obtain ⟨-, -, hseq, hdest⟩ := h.copy rreq₀ rreq₁ hrreq₀ hrreq₁
      (haddr₁.symm.trans (haddr.trans haddr₀)) (hid₁.symm.trans (hid.trans hid₀))
    exact ⟨haddr, hid, hseq₁.trans (hseq.trans hseq₀.symm), hdest₁.trans (hdest.trans hdest₀.symm)⟩
  later rreq rreq' hrreq hrreq' haddr hlt := by
    obtain ⟨rreq₀, hrreq₀, haddr₀, hid₀, hseq₀, -⟩ := hfollows.copy rreq hrreq
    obtain ⟨rreq₁, hrreq₁, haddr₁, hid₁, hseq₁, -⟩ := hfollows.copy rreq' hrreq'
    rw [hseq₀, hseq₁]
    exact h.later rreq₀ rreq₁ hrreq₀ hrreq₁ (haddr₁.symm.trans (haddr.trans haddr₀))
      (hid₀ ▸ hid₁ ▸ hlt)

/-- A node uses its next numbers for a request of its own. -/
structure Asks (net net' : Network) (addr : L3Address) (rreq : RREQ) : Prop where
  others : ∀ addr' ≠ addr, net'.nodes addr' = net.nodes addr'
  sequenceNum : (net'.nodes addr).sequenceNum = (net.nodes addr).sequenceNum + 1
  rreqId : (net'.nodes addr).rreqId = (net.nodes addr).rreqId + 1
  originator : rreq.originatorAddr = addr ∧ rreq.rreqId = (net.nodes addr).rreqId + 1 ∧
    rreq.originatorSeqNum = (net.nodes addr).sequenceNum + 1
  inAir : ∀ rreq', net'.InAir rreq' → net.InAir rreq' ∨ rreq' = rreq

/-- A number that is not the last one is below its successor. -/
theorem lt_succ_of_toNat_lt {x : UInt32} (h : x.toNat + 1 < 2 ^ 32) : x < x + 1 := by
  rw [UInt32.lt_iff_toNat_lt, UInt32.toNat_add]
  show x.toNat < (x.toNat + 1) % 2 ^ 32
  rw [Nat.mod_eq_of_lt h]
  exact Nat.lt_succ_self _

theorem le_succ_of_toNat_lt {x : UInt32} (h : x.toNat + 1 < 2 ^ 32) : x ≤ x + 1 := by
  rw [UInt32.le_iff_toNat_le]
  exact (UInt32.lt_iff_toNat_lt.1 (lt_succ_of_toNat_lt h)).le

theorem Numbered.asks (h : net.Numbered) {addr : L3Address} {rreq : RREQ}
    (hasks : net.Asks net' addr rreq)
    (hsequenceNum : (net.nodes addr).sequenceNum.toNat + 1 < 2 ^ 32)
    (hrreqId : (net.nodes addr).rreqId.toNat + 1 < 2 ^ 32) : net'.Numbered := by
  obtain ⟨rfl, hid, hseq⟩ := hasks.originator
  -- what was in the air is older than the new request
  have holder (rreq' : RREQ) (hrreq' : net.InAir rreq')
      (haddr : rreq'.originatorAddr = rreq.originatorAddr) :
      rreq'.rreqId < rreq.rreqId ∧ rreq'.originatorSeqNum < rreq.originatorSeqNum := by
    have hid' := h.rreqId rreq' hrreq'
    have hseq' := h.seqNum rreq' hrreq'
    rw [haddr] at hid' hseq'
    rw [hid, hseq]
    exact ⟨UInt32.lt_of_le_of_lt hid' (lt_succ_of_toNat_lt hrreqId),
      UInt32.lt_of_le_of_lt hseq' (lt_succ_of_toNat_lt hsequenceNum)⟩
  have hnumbers (addr' : L3Address) :
      (net.nodes addr').sequenceNum ≤ (net'.nodes addr').sequenceNum ∧
        (net.nodes addr').rreqId ≤ (net'.nodes addr').rreqId := by
    obtain rfl | hne := eq_or_ne addr' rreq.originatorAddr
    · rw [hasks.sequenceNum, hasks.rreqId]
      exact ⟨le_succ_of_toNat_lt hsequenceNum, le_succ_of_toNat_lt hrreqId⟩
    · rw [hasks.others addr' hne]
      exact ⟨UInt32.le_refl _, UInt32.le_refl _⟩
  refine ⟨fun rreq' hrreq' ↦ ?_, fun rreq' hrreq' ↦ ?_,
    fun rreq₀ rreq₁ hrreq₀ hrreq₁ haddr heq ↦ ?_, fun rreq₀ rreq₁ hrreq₀ hrreq₁ haddr hlt ↦ ?_⟩
  · obtain hold | rfl := hasks.inAir rreq' hrreq'
    · exact UInt32.le_trans (h.rreqId rreq' hold) (hnumbers _).2
    · exact UInt32.le_of_eq (hid.trans hasks.rreqId.symm)
  · obtain hold | rfl := hasks.inAir rreq' hrreq'
    · exact UInt32.le_trans (h.seqNum rreq' hold) (hnumbers _).1
    · exact UInt32.le_of_eq (hseq.trans hasks.sequenceNum.symm)
  · obtain hold₀ | rfl := hasks.inAir rreq₀ hrreq₀
    · obtain hold₁ | rfl := hasks.inAir rreq₁ hrreq₁
      · exact h.copy rreq₀ rreq₁ hold₀ hold₁ haddr heq
      · exact absurd heq.symm (UInt32.ne_of_lt (holder rreq₀ hold₀ haddr.symm).1)
    · obtain hold₁ | rfl := hasks.inAir rreq₁ hrreq₁
      · exact absurd heq (UInt32.ne_of_lt (holder rreq₁ hold₁ haddr).1)
      · exact ⟨rfl, rfl, rfl, rfl⟩
  · obtain hold₀ | rfl := hasks.inAir rreq₀ hrreq₀
    · obtain hold₁ | rfl := hasks.inAir rreq₁ hrreq₁
      · exact h.later rreq₀ rreq₁ hold₀ hold₁ haddr hlt
      · exact (holder rreq₀ hold₀ haddr.symm).2
    · obtain hold₁ | rfl := hasks.inAir rreq₁ hrreq₁
      · exact absurd (UInt32.lt_trans hlt (holder rreq₁ hold₁ haddr).1) (UInt32.lt_irrefl _)
      · exact absurd hlt (UInt32.lt_irrefl _)

/-- What is in the air after an event was there before, or the node has sent it. -/
theorem inAir_after {addr : L3Address} {s : Node} {rreq : RREQ}
    (h : (net.setNode addr s).InAir rreq) :
    net.InAir rreq ∨ ∃ x ∈ s.sent, x.packet = .rreq rreq := by
  obtain ⟨x, hx, hpacket⟩ := h
  rcases List.mem_append.1 hx with hx | hx
  · exact .inl ⟨x, hx, hpacket⟩
  · obtain ⟨y, hy, rfl⟩ := List.mem_map.1 hx
    exact .inr ⟨y, hy, hpacket⟩

/-- A node whose numbers do not fall, and that sends no request but copies. -/
theorem follows_of_node {addr : L3Address} {s : Node}
    (hsequenceNum : (net.nodes addr).sequenceNum ≤ s.sequenceNum)
    (hrreqId : (net.nodes addr).rreqId ≤ s.rreqId)
    (hsent : ∀ x ∈ s.sent, ∀ rreq, x.packet = .rreq rreq →
      ∃ rreq₀, net.InAir rreq₀ ∧ rreq₀.Copy rreq) :
    net.Follows (net.setNode addr s) where
  sequenceNum addr' := by
    obtain rfl | hne := eq_or_ne addr' addr
    · rwa [setNode_nodes_self]
    · exact UInt32.le_of_eq (congrArg Node.sequenceNum (setNode_nodes_of_ne net s hne)).symm
  rreqId addr' := by
    obtain rfl | hne := eq_or_ne addr' addr
    · rwa [setNode_nodes_self]
    · exact UInt32.le_of_eq (congrArg Node.rreqId (setNode_nodes_of_ne net s hne)).symm
  copy rreq hrreq := by
    obtain hold | ⟨x, hx, hpacket⟩ := inAir_after hrreq
    · exact ⟨rreq, hold, rfl, rfl, rfl, rfl⟩
    · exact hsent x hx rreq hpacket

theorem follows_of_told {addr : L3Address} {s : Node} {p : ControlPacket → Prop}
    (h : (net.nodeAt addr).Says p s)
    (hp : ∀ rreq, p (.rreq rreq) → ∃ rreq₀, net.InAir rreq₀ ∧ rreq₀.Copy rreq) :
    net.Follows (net.setNode addr s) := by
  refine follows_of_node (h.sequenceNum ▸ UInt32.le_refl _) (h.rreqId ▸ UInt32.le_refl _)
    fun x hx rreq hpacket ↦ ?_
  obtain hnil | htold := h.sent x hx
  · cases hnil
  · exact hp rreq (hpacket ▸ htold)

theorem numbered_step (hsound : net.Sound P) (h : net.Numbered)
    (hstep : (system P).Step net event sent net') (hlasts : Lasts ⟨net, event, sent, net'⟩) :
    net'.Numbered := by
  rcases event with ⟨addr, event⟩ | now
  swap
  · obtain ⟨rfl, -⟩ := step_advance hstep
    exact ⟨h.rreqId, h.seqNum, h.copy, h.later⟩
  have hlast : (net.nodes addr).sequenceNum.toNat + 1 < 2 ^ 32 ∧
    (net.nodes addr).rreqId.toNat + 1 < 2 ^ 32 := hlasts.2 addr
  obtain ⟨s, hhandle, rfl, -⟩ := step_node hstep
  obtain htold | ⟨target, timeToLive, rfl, rfl⟩ | ⟨t, rreq, rfl, hpacket, -, hrreq⟩ |
    ⟨t, rfl, hpacket⟩ | ⟨rfl, rfl⟩ | ⟨rfl, -⟩ := Node.handle_cases hhandle
  · exact h.follows (follows_of_told htold fun _ hfalse ↦ hfalse.elim)
  · rcases timeToLive with - | timeToLive
    · -- the numbers are used, but nothing is sent
      refine h.follows (follows_of_node ?_ ?_ fun _ hx ↦ absurd hx List.not_mem_nil)
      · exact le_succ_of_toNat_lt hlast.1
      · exact le_succ_of_toNat_lt hlast.2
    · have hasks : net.Asks (net.setNode addr
          ((net.nodeAt addr).askForRoute P addr net.now target (some timeToLive))) addr
          ((net.nodeAt addr).createRREQ P addr net.now target).1 := ?_
      · exact h.asks hasks hlast.1 hlast.2
      refine ⟨fun addr' hne ↦ setNode_nodes_of_ne net _ hne, ?_, ?_, ⟨rfl, rfl, rfl⟩,
        fun rreq hrreq ↦ ?_⟩
      · rw [setNode_nodes_self]
        rfl
      · rw [setNode_nodes_self]
        rfl
      · refine (inAir_after hrreq).imp_right ?_
        rintro ⟨x, hx, hpacket⟩
        obtain rfl := List.mem_singleton.1 hx
        exact (ControlPacket.rreq.inj hpacket).symm
  · have hair : net.InAir rreq := ⟨t, hstep.1.2.1, hpacket⟩
    obtain ⟨-, htold⟩ | ⟨-, -, hsequenceNum, hrreqId, -, rrep, nextHop, -, -, -, honly⟩ |
      ⟨-, -, htold⟩ := Node.handleRREQ_cases hrreq
    · exact h.follows (follows_of_told htold fun _ hfalse ↦ hfalse.elim)
    · refine h.follows (follows_of_node ?_ (hrreqId ▸ UInt32.le_refl _) fun x hx rreq' hrreq' ↦ ?_)
      · rw [hsequenceNum, Node.replySeqNum]
        split_ifs
        · exact le_succ_of_toNat_lt hlast.1
        · exact UInt32.le_refl _
      · obtain hnil | rfl := honly x hx
        · cases hnil
        · cases hrreq'
    · exact h.follows (follows_of_told htold fun rreq' hcopy ↦ ⟨rreq, hair, hcopy⟩)
  · exact absurd hpacket (air_ne_rrepAck hsound t hstep.1.2.1)
  · exact h.follows (follows_of_node (UInt32.le_refl _) (UInt32.le_refl _)
      fun _ hx ↦ absurd hx List.not_mem_nil)
  · exact absurd rfl (hlasts.1 addr)

/-- No request is in the air at the start. -/
theorem not_inAir_empty (rreq : RREQ) : ¬InAir {} rreq := by
  rintro ⟨_, hx, _⟩
  exact absurd hx List.not_mem_nil

theorem numbered_init : Numbered {} where
  rreqId rreq h := absurd h (not_inAir_empty rreq)
  seqNum rreq h := absurd h (not_inAir_empty rreq)
  copy rreq _ h := absurd h (not_inAir_empty rreq)
  later rreq _ h := absurd h (not_inAir_empty rreq)

/-- **The ids and the numbers of the requests of a node tell them apart and order them**, in every
run in which no node goes down and no node runs out of numbers. -/
theorem numbered (h : (system P).Run tr net) (hlasts : ∀ t ∈ tr, Lasts t) : net.Numbered := by
  have hboth := h.forall_of_invariant (I := fun net ↦ net.Sound P ∧ net.Numbered) (C := Lasts)
    (D := fun _ ↦ True) (fun _ hinit ↦ hinit ▸ ⟨sound_init, numbered_init⟩)
    (fun _ _ _ _ hI hstep hlast ↦
      ⟨trivial, sound_step hI.1 hstep, numbered_step hI.1 hI.2 hstep hlast⟩) hlasts
  exact hboth.2.2

theorem numbered_discovery :
    Numbered (stateAfter (next slowParameters) {} (slowEvents.take 2)) := by
  have hfresh : ({} : Node).sequenceNum.toNat + 1 < 2 ^ 32 ∧
      ({} : Node).rreqId.toNat + 1 < 2 ^ 32 := by decide
  have hrun : (system slowParameters).Run
      (transitionsOf (next slowParameters) {} (slowEvents.take 2))
      (stateAfter (next slowParameters) {} (slowEvents.take 2)) :=
    run_of_inputs (by decide +kernel)
  refine numbered hrun ?_
  show ∀ t ∈ [_, _], Lasts t
  rw [List.forall_mem_cons, List.forall_mem_singleton]
  refine ⟨⟨fun addr ↦ nofun, fun addr ↦ hfresh⟩, fun addr ↦ nofun, fun addr ↦ ?_⟩
  show ((Network.setNode {} 2 _).nodes addr).sequenceNum.toNat + 1 < 2 ^ 32 ∧
    ((Network.setNode {} 2 _).nodes addr).rreqId.toNat + 1 < 2 ^ 32
  obtain rfl | hne := eq_or_ne addr 2
  · rw [setNode_nodes_self]
    decide
  · rw [setNode_nodes_of_ne _ _ hne]
    exact hfresh

end Network

end Inet.AODV
