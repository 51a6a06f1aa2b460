import Inet.Foundations.TransitionSystem
import Inet.Routing.AODVNode

/-!
# A network of AODV nodes

The nodes are known by their addresses. What one of them sends stays in the air, and may be received
at any time, late, again or never: by the node it is addressed to, or by any other one if it is a
broadcast. Timers may fire at any time, data may be sent and links may break at any time, and nodes
may be restarted.

`Node.handle_sent` and `handleRREQ_cases` say once what an event makes a node send and what becomes
of its sequence number.
-/

namespace Inet.AODV

open TransitionSystem

/-- A packet in the air. -/
structure Transmission where
  source : L3Address
  sent : Sent
  deriving DecidableEq

/-- What happens to a node. -/
inductive NodeEvent where
  | receive (t : Transmission)
  | askForRoute (target : L3Address) (timeToLive : Option ℕ)
  | useRoute (destAddr nextHop : L3Address)
  | forwardDatagram (sourceAddr destAddr : L3Address)
  | linkBreak (unreachableAddr : L3Address)
  | helloMsgTimer
  | expungeTimer
  | counterTimer
  | rrepAckTimer
  | blacklistTimer
  | shutDown
  | start
  deriving DecidableEq

/-- `AODVRouting::handleMessage`, the hooks and the signals. A node that is down drops what it
receives, and a packet has lost one hop when it arrives. -/
def Node.handle (P : Parameters) (self : L3Address) (now : ℤ) (s : Node) : NodeEvent → Option Node
  | .receive t =>
    if s.isOperational then
      match t.sent.packet with
      | .rreq rreq => s.handleRREQ P self now rreq t.source (t.sent.timeToLive - 1)
      | .rrep rrep => some (s.handleRREP P self now rrep t.source)
      | .rerr unreachableNodes => some (s.handleRERR P now unreachableNodes t.source)
      | .rrepAck => some (s.handleRREPACK t.source)
    else some s
  | .askForRoute target timeToLive => some (s.askForRoute P self now target timeToLive)
  | .useRoute destAddr nextHop =>
    some ((s.updateValidRouteLifeTime destAddr (now + P.activeRouteTimeout)).updateValidRouteLifeTime
      nextHop (now + P.activeRouteTimeout))
  | .forwardDatagram sourceAddr destAddr =>
    some (s.datagramForwardHook P self now sourceAddr destAddr)
  | .linkBreak unreachableAddr => some (s.receiveSignal P now unreachableAddr)
  | .helloMsgTimer => some (s.sendHelloMessagesIfNeeded P self now)
  | .expungeTimer => some (s.expungeRoutes P now)
  | .counterTimer => some { s with rerrCount := 0 }
  | .rrepAckTimer => some (s.handleRREPACKTimer P now)
  | .blacklistTimer => some (s.handleBlackListTimer now)
  | .shutDown => some s.shutDown
  | .start => some (s.start now)

/-- The nodes and the packets in the air. -/
structure Network where
  nodes : L3Address → Node := fun _ ↦ {}
  air : List Transmission := []
  now : ℤ := 0

/-- An event of a node, or time goes on. -/
inductive Event where
  | node (addr : L3Address) (event : NodeEvent)
  | advance (t : ℤ)
  deriving DecidableEq

namespace Network

variable (P : Parameters)

/-- The state in which a node handles an event: nothing has been sent in it yet. -/
def nodeAt (net : Network) (addr : L3Address) : Node :=
  { net.nodes addr with sent := [] }

/-- When an event can happen to the node with the address. -/
def AllowedAt (net : Network) (addr : L3Address) : NodeEvent → Prop
  | .receive t =>
    t ∈ net.air ∧ t.source ≠ addr ∧ (t.sent.destAddr = addr ∨ t.sent.destAddr = P.broadcastAddress)
  | .askForRoute target _ => target ≠ addr ∧ (net.nodes addr).isOperational
  | .rrepAckTimer => (net.nodes addr).rrepAckTimer = some net.now
  | .start => (net.nodes addr).isOperational = false
  | _ => (net.nodes addr).isOperational

instance (net : Network) (addr : L3Address) :
    (event : NodeEvent) → Decidable (net.AllowedAt P addr event)
  | .receive _ => inferInstanceAs (Decidable (_ ∧ _ ∧ (_ ∨ _)))
  | .askForRoute _ _ => inferInstanceAs (Decidable (_ ∧ _))
  | .rrepAckTimer | .useRoute _ _ | .forwardDatagram _ _ | .linkBreak _ | .helloMsgTimer
  | .expungeTimer | .counterTimer | .blacklistTimer | .shutDown | .start =>
    inferInstanceAs (Decidable (_ = _))

/-- When an event can happen. No node has the broadcast address. -/
def Allowed (net : Network) : Event → Prop
  | .node addr event => addr ≠ P.broadcastAddress ∧ net.AllowedAt P addr event
  | .advance t => net.now ≤ t

instance (net : Network) : (event : Event) → Decidable (net.Allowed P event)
  | .node _ _ => inferInstanceAs (Decidable (_ ∧ _))
  | .advance _ => inferInstanceAs (Decidable (_ ≤ _))

/-- A node gets a new state, and what it has sent is in the air. -/
def setNode (net : Network) (addr : L3Address) (s : Node) : Network :=
  { net with
    nodes := Function.update net.nodes addr s
    air := net.air ++ s.sent.map (Transmission.mk addr) }

@[simp] theorem setNode_nodes_self (net : Network) (addr : L3Address) (s : Node) :
    (net.setNode addr s).nodes addr = s :=
  Function.update_self _ _ _

theorem setNode_nodes_of_ne (net : Network) {addr addr' : L3Address} (s : Node)
    (h : addr' ≠ addr) : (net.setNode addr s).nodes addr' = net.nodes addr' :=
  Function.update_of_ne h _ _

/-- The network after an event, with what has been sent, if no assertion of the node fails. -/
def after (net : Network) : Event → Option (Network × List Sent)
  | .node addr event =>
    ((net.nodeAt addr).handle P addr net.now event).map fun s ↦ (net.setNode addr s, s.sent)
  | .advance t => some ({ net with now := t }, [])

/-- The network as a machine. Its outputs are what is sent. -/
def system : TransitionSystem Network Event (List Sent) where
  Init net := net = {}
  Step net event sent net' := net.Allowed P event ∧ net.after P event = some (net', sent)

end Network

/-! ### What is sent -/

/-- The reply is one to the request. -/
def RREQ.Answers (rreq : RREQ) (rrep : RREP) : Prop :=
  rrep.destAddr = rreq.destAddr ∧ rrep.originatorAddr = rreq.originatorAddr

/-- The reply tells the destination of the request of its originator. -/
def RREQ.IsGratuitous (rreq : RREQ) (rrep : RREP) : Prop :=
  rrep.destAddr = rreq.originatorAddr ∧ rrep.originatorAddr = rreq.destAddr

/-- What identifies a request, with the addresses and the number of its originator. -/
def RREQ.Copy (rreq rreq' : RREQ) : Prop :=
  rreq'.originatorAddr = rreq.originatorAddr ∧ rreq'.rreqId = rreq.rreqId ∧
    rreq'.originatorSeqNum = rreq.originatorSeqNum ∧ rreq'.destAddr = rreq.destAddr

/-- What an intermediate node sends for a request: the request, a reply that is not older, or a
gratuitous one. -/
def RREQ.Passes (rreq : RREQ) : ControlPacket → Prop
  | .rreq rreq' => rreq.Copy rreq'
  | .rrep rrep =>
    (rreq.Answers rrep ∧ rreq.destSeqNum ≤ rrep.destSeqNum) ∨ rreq.IsGratuitous rrep
  | _ => False

namespace Node

variable {P : Parameters} {self sourceAddr : L3Address} {now : ℤ} {s s' s'' : Node}
  {p : ControlPacket → Prop} {rreq : RREQ} {rrep : RREP} {timeToLive : ℕ}

/-- The node keeps its numbers, still waits for an acknowledgement if it has done so, and what it
sends is of some kind. -/
structure Says (p : ControlPacket → Prop) (s s' : Node) : Prop where
  sequenceNum : s'.sequenceNum = s.sequenceNum
  rreqId : s'.rreqId = s.rreqId
  rrepAckTimer : s.rrepAckTimer.isSome → s'.rrepAckTimer.isSome
  sent : ∀ x ∈ s'.sent, x ∈ s.sent ∨ p x.packet

namespace Says

theorem trans (h : Says p s s') (h' : Says p s' s'') : Says p s s'' where
  sequenceNum := h'.sequenceNum.trans h.sequenceNum
  rreqId := h'.rreqId.trans h.rreqId
  rrepAckTimer := h'.rrepAckTimer ∘ h.rrepAckTimer
  sent x hx := (h'.sent x hx).elim (h.sent x) .inr

/-- Nothing is sent. -/
theorem quiet (hsequenceNum : s'.sequenceNum = s.sequenceNum) (hrreqId : s'.rreqId = s.rreqId)
    (htimer : s'.rrepAckTimer = s.rrepAckTimer) (hsent : s'.sent = s.sent) : Says p s s' :=
  ⟨hsequenceNum, hrreqId, fun h ↦ htimer ▸ h, fun _ hx ↦ .inl (hsent ▸ hx)⟩

theorem refl (s : Node) : Says p s s :=
  quiet rfl rfl rfl rfl

variable (s)

theorem modifyRoute (addr : L3Address) (f : Route → Route) : Says p s (s.modifyRoute addr f) :=
  quiet rfl rfl rfl rfl

theorem createRoute (destAddr nextHop : L3Address) (hopCount : ℕ) (hasValidDestNum : Bool)
    (destSeqNum : UInt32) (isActive : Bool) (lifeTime : ℤ) : Says p s (s.createRoute destAddr nextHop
      hopCount hasValidDestNum destSeqNum isActive lifeTime) :=
  quiet rfl rfl rfl rfl

theorem setRoute (destAddr nextHop : L3Address) (hopCount : ℕ) (hasValidDestNum : Bool)
    (destSeqNum : UInt32) (isActive : Bool) (lifeTime : ℤ) : Says p s (s.setRoute destAddr nextHop
      hopCount hasValidDestNum destSeqNum isActive lifeTime) := by
  rw [Node.setRoute]
  split_ifs
  · exact modifyRoute s _ _
  · exact createRoute s _ _ _ _ _ _ _

theorem sendAODVPacket {packet : ControlPacket} (hp : p packet) (destAddr : L3Address)
    (timeToLive : ℕ) : Says p s (s.sendAODVPacket P now packet destAddr timeToLive) where
  sequenceNum := rfl
  rreqId := rfl
  rrepAckTimer := id
  sent x hx := by
    rcases List.mem_append.1 hx with hx | hx
    · exact .inl hx
    · rw [List.mem_singleton.1 hx]
      exact .inr hp

theorem setReverseRoute (rreq : RREQ) (sourceAddr : L3Address) :
    Says p s (s.setReverseRoute P now rreq sourceAddr) := by
  rw [Node.setReverseRoute]
  rcases s.findRoute rreq.originatorAddr with - | reverseRoute
  · exact createRoute s _ _ _ _ _ _ _
  · dsimp only
    split_ifs
    exacts [modifyRoute s _ _, modifyRoute s _ _, refl s]

theorem setForwardRoute (rrep : RREP) (sourceAddr : L3Address) :
    Says p s (s.setForwardRoute now rrep sourceAddr) := by
  rw [Node.setForwardRoute]
  rcases s.findRoute rrep.destAddr with - | destRoute
  · exact createRoute s _ _ _ _ _ _ _
  · dsimp only
    split_ifs
    · exact modifyRoute s _ _
    · exact refl s

end Says

/-! ### Requests -/

/-- A reply is sent to the next hop on the way to the originator. -/
theorem sendRREP_sent {destAddr : L3Address}
    (h : s.sendRREP P now rrep destAddr timeToLive = some s') :
    ∃ ack nextHop, s'.sent =
      s.sent ++ [⟨.rrep { rrep with ackRequiredFlag := ack }, nextHop, timeToLive⟩] ∧
      s'.sequenceNum = s.sequenceNum ∧ s'.rreqId = s.rreqId ∧
      (s.rrepAckTimer.isSome → s'.rrepAckTimer.isSome) := by
  rw [sendRREP] at h
  rcases hroute : s.findRoute destAddr with - | destRoute
  · rw [hroute] at h
    cases h
  rw [hroute] at h
  simp only [Option.bind_eq_bind, Option.bind_some] at h
  split_ifs at h
  · obtain rfl := Option.some.inj h
    exact ⟨true, _, rfl, rfl, rfl, fun _ ↦ rfl⟩
  · obtain rfl := Option.some.inj h
    exact ⟨rrep.ackRequiredFlag, _, rfl, rfl, rfl, id⟩

theorem Says.sendRREP {destAddr : L3Address}
    (h : s.sendRREP P now rrep destAddr timeToLive = some s')
    (hp : ∀ ack, p (.rrep { rrep with ackRequiredFlag := ack })) : Says p s s' := by
  obtain ⟨ack, nextHop, hsent, hsequenceNum, hrreqId, htimer⟩ := sendRREP_sent h
  refine ⟨hsequenceNum, hrreqId, htimer, fun x hx ↦ ?_⟩
  rw [hsent] at hx
  rcases List.mem_append.1 hx with hx | hx
  · exact .inl hx
  · rw [List.mem_singleton.1 hx]
    exact .inr (hp ack)

theorem Says.sendGRREP {destAddr : L3Address}
    (h : s.sendGRREP P now rreq destAddr timeToLive = some s')
    (hp : ∀ rrep, rreq.IsGratuitous rrep → p (.rrep rrep)) : Says p s s' := by
  rw [Node.sendGRREP] at h
  simp only [Option.bind_eq_bind, Option.bind_eq_some_iff, Option.pure_def,
    Option.some.injEq] at h
  obtain ⟨originatorRoute, -, destRoute, -, rfl⟩ := h
  exact .sendAODVPacket s (hp _ ⟨rfl, rfl⟩) _ _

theorem Says.forwardRREQ (s : Node) (rreq : RREQ) (timeToLive : ℕ)
    (hp : ∀ rreq', rreq.Copy rreq' → p (.rreq rreq')) :
    Says p s (s.forwardRREQ P now rreq timeToLive) := by
  rw [Node.forwardRREQ]
  split_ifs
  · refine Says.sendAODVPacket s (hp _ ?_) _ _
    exact ⟨rfl, rfl, rfl, rfl⟩
  · exact refl s

theorem Says.replyAsIntermediate {destRoute : Route}
    (h : s.replyAsIntermediate P now rreq destRoute sourceAddr = some s')
    (hroute : rreq.destSeqNum ≤ destRoute.destSeqNum) : Says rreq.Passes s s' := by
  have hcreate : Says rreq.Passes s (s.createRREPAsIntermediate now rreq destRoute sourceAddr).2 :=
    .quiet rfl rfl rfl rfl
  have hreply {s₁ : Node} (hsend : Node.sendRREP P now
      (s.createRREPAsIntermediate now rreq destRoute sourceAddr).2
      (s.createRREPAsIntermediate now rreq destRoute sourceAddr).1 rreq.originatorAddr 255 =
        some s₁) : Says rreq.Passes s s₁ :=
    hcreate.trans (.sendRREP hsend fun _ ↦ .inl ⟨⟨rfl, rfl⟩, hroute⟩)
  rw [Node.replyAsIntermediate] at h
  split_ifs at h
  · obtain rfl := Option.some.inj h
    exact refl s
  · rw [Option.bind_eq_bind, Option.bind_eq_some_iff] at h
    obtain ⟨s₁, hsend, hgratuitous⟩ := h
    exact (hreply hsend).trans (.sendGRREP hgratuitous fun _ hrrep ↦ .inr hrrep)
  · rw [Option.bind_eq_bind, Option.bind_eq_some_iff] at h
    obtain ⟨s₁, hsend, hsame⟩ := h
    obtain rfl := Option.some.inj hsame
    exact hreply hsend

theorem setPreviousHop_rreqsArrivalTime (s : Node) (sourceAddr : L3Address) (seqNum : UInt32) :
    (s.setPreviousHop P now sourceAddr seqNum).rreqsArrivalTime = s.rreqsArrivalTime := by
  rw [setPreviousHop, setRoute]
  split_ifs <;> rfl

/-- **What a node does with a request**: it ignores it, or replies as the destination, or passes it
on. -/
theorem handleRREQ_cases (h : s.handleRREQ P self now rreq sourceAddr timeToLive = some s') :
    (s.Ignores P now rreq sourceAddr ∧ Says (fun _ ↦ False) s s') ∨
    (¬s.Ignores P now rreq sourceAddr ∧ rreq.destAddr = self ∧
      s'.sequenceNum = s.replySeqNum rreq ∧ s'.rreqId = s.rreqId ∧
      (s.rrepAckTimer.isSome → s'.rrepAckTimer.isSome) ∧
      ∃ rrep nextHop, rreq.Answers rrep ∧ rrep.destSeqNum = s.replySeqNum rreq ∧
        ⟨.rrep rrep, nextHop, 255⟩ ∈ s'.sent ∧
        ∀ x ∈ s'.sent, x ∈ s.sent ∨ x = ⟨.rrep rrep, nextHop, 255⟩) ∨
    (¬s.Ignores P now rreq sourceAddr ∧ rreq.destAddr ≠ self ∧ Says rreq.Passes s s') := by
  rw [handleRREQ] at h
  rcases hblack : (s.blacklist sourceAddr).isSome with - | -
  swap
  · rw [if_pos hblack] at h
    obtain rfl := Option.some.inj h
    exact .inl ⟨.inl hblack, .refl s⟩
  rw [if_neg (by rw [hblack]; exact Bool.false_ne_true)] at h
  dsimp only at h
  have hprevious (p : ControlPacket → Prop) :
      Says p s (s.setPreviousHop P now sourceAddr rreq.originatorSeqNum) :=
    .setRoute s _ _ _ _ _ _ _
  by_cases hagain : ∃ t ∈ s.rreqsArrivalTime rreq.rreqId, now - t ≤ P.pathDiscoveryTime
  · rw [if_pos (by rwa [setPreviousHop_rreqsArrivalTime])] at h
    obtain rfl := Option.some.inj h
    exact .inl ⟨.inr hagain, hprevious _⟩
  rw [if_neg (by rwa [setPreviousHop_rreqsArrivalTime])] at h
  have hignores : ¬s.Ignores P now rreq sourceAddr :=
    not_or.2 ⟨by rw [hblack]; exact Bool.false_ne_true, hagain⟩
  -- the routes are set, and the request is remembered
  generalize hs₁ : Node.setReverseRoute P now _ { rreq with hopCount := rreq.hopCount + 1 }
    sourceAddr = s₁ at h
  have hquiet (p : ControlPacket → Prop) : Says p s s₁ := by
    rw [← hs₁]
    have hremember : Says p (s.setPreviousHop P now sourceAddr rreq.originatorSeqNum)
        { s.setPreviousHop P now sourceAddr rreq.originatorSeqNum with
          rreqsArrivalTime := Function.update
            (s.setPreviousHop P now sourceAddr rreq.originatorSeqNum).rreqsArrivalTime rreq.rreqId
            (some now) } := .quiet rfl rfl rfl rfl
    exact ((hprevious p).trans hremember).trans (.setReverseRoute _ _ _)
  have hsame : s₁.replySeqNum { rreq with hopCount := rreq.hopCount + 1 } = s.replySeqNum rreq := by
    rw [replySeqNum, replySeqNum, (hquiet fun _ ↦ False).sequenceNum]
  split_ifs at h with hself
  · obtain ⟨ack, nextHop, hsent, hsequenceNum, hrreqId, htimer⟩ := sendRREP_sent h
    refine .inr (.inl ⟨hignores, hself, hsequenceNum.trans hsame,
      hrreqId.trans (hquiet fun _ ↦ False).rreqId,
      fun hpending ↦ htimer ((hquiet fun _ ↦ False).rrepAckTimer hpending),
      { (s₁.createRREPAsDestination P { rreq with hopCount := rreq.hopCount + 1 }).1 with
        ackRequiredFlag := ack }, nextHop, ⟨rfl, rfl⟩, hsame, ?_, fun x hx ↦ ?_⟩)
    · rw [hsent]
      exact List.mem_append_right _ (List.mem_singleton_self _)
    · rw [hsent] at hx
      rcases List.mem_append.1 hx with hx | hx
      · exact ((hquiet fun _ ↦ False).sent x hx).imp_right False.elim
      · exact .inr (List.mem_singleton.1 hx)
  · refine .inr (.inr ⟨hignores, hself, (hquiet _).trans ?_⟩)
    split at h
    · split_ifs at h with hreply
      · have hnum := (Bool.and_eq_true_iff.1 hreply).2
        exact .replyAsIntermediate h (of_decide_eq_true hnum)
      · obtain rfl := Option.some.inj h
        exact .forwardRREQ _ _ _ fun _ hcopy ↦ hcopy
    · obtain rfl := Option.some.inj h
      exact .forwardRREQ _ _ _ fun _ hcopy ↦ hcopy

end Node

end Inet.AODV
