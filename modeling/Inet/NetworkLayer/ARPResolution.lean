import Inet.NetworkLayer.ARP

/-!
# Datagrams that wait for ARP

The cache of `ARP` and the queues of `IPv4` agree in every run: there is a queue for a next hop only
while its cache entry is pending, and then the timer of the entry is scheduled. So every datagram
that waits is sent to the address of the ARP packet that resolves its next hop, or it is dropped
after `retryCount` requests.

What one event does to one next hop is a `Move`; `Phase` says what is known of a next hop between
the events, and `Watched.step` that every move keeps it.
-/

namespace Inet.ARP

open IPv4 (IPv4Datagram)

variable {α : Type}

/-! ### What is recorded of a next hop -/

/-- A request for an address. -/
def Action.IsRequestFor (a : IPv4Address) : Action α → Bool
  | .sendARP packet _ _ => packet.opcode = .request ∧ packet.destIPAddress = a
  | _ => false

/-- A datagram that begins to wait for a next hop. -/
def Action.pended? (a : IPv4Address) : Action α → Option (IPv4Datagram α)
  | .pendDatagram datagram nextHopAddr => if nextHopAddr = a then some datagram else none
  | _ => none

/-- A datagram that is sent. -/
def Action.sent? : Action α → Option (IPv4Datagram α)
  | .sendDatagram datagram _ _ => some datagram
  | _ => none

/-- A datagram that is deleted. -/
def Action.dropped? : Action α → Option (IPv4Datagram α)
  | .dropDatagram datagram => some datagram
  | _ => none

/-- The requests for an address. -/
def requests (a : IPv4Address) (actions : List (Action α)) : ℕ :=
  actions.countP (·.IsRequestFor a)

/-- The datagrams that begin to wait for a next hop. -/
def pended (a : IPv4Address) (actions : List (Action α)) : List (IPv4Datagram α) :=
  actions.filterMap (·.pended? a)

/-- A transition of a node. -/
abbrev Turn (α : Type) :=
  Transition (Node α) (Event α) (List (Action α))

/-- The next hop that an event is about. -/
def Event.hop (p : Params) (s : Node α) : Event α → Option IPv4Address
  | .sendDatagram datagram ie nextHopAddr =>
    if s.isIeee802Lan ie then (s.nextHopFor p datagram ie nextHopAddr).toOption else none
  | .arpPacket arp _ => some arp.srcIPAddress
  | .timeout nextHopAddr => some nextHopAddr
  | _ => none

/-- The datagrams of the queue for a next hop that a transition sends or drops. -/
def releasedBy (a : IPv4Address) (t : Turn α) : List (IPv4Datagram α) :=
  match t.input with
  | .arpPacket arp _ => if arp.srcIPAddress = a then t.output.filterMap Action.sent? else []
  | .timeout nextHopAddr => if nextHopAddr = a then t.output.filterMap Action.dropped? else []
  | _ => []

/-- An ARP packet comes from a next hop, or its resolution fails. -/
def Ends (a : IPv4Address) (t : Turn α) : Bool :=
  match t.input with
  | .arpPacket arp _ => arp.srcIPAddress = a
  | .timeout nextHopAddr => nextHopAddr = a ∧ requests a t.output = 0
  | _ => false

/-- The datagrams that have been queued for a next hop, with the times. -/
def queued (a : IPv4Address) (tr : List (Turn α)) : List (SimTime × IPv4Datagram α) :=
  tr.flatMap fun t ↦ (pended a t.output).map (t.pre.now, ·)

/-- The datagrams that have been sent from the queue for a next hop, or dropped. -/
def released (a : IPv4Address) (tr : List (Turn α)) : List (IPv4Datagram α) :=
  tr.flatMap (releasedBy a)

/-- The requests for a next hop since its last ARP packet, or since its resolution failed. -/
def unanswered (a : IPv4Address) (tr : List (Turn α)) : ℕ :=
  tr.foldl (fun n t ↦ if Ends a t then 0 else n + requests a t.output) 0

/-- The MAC address of the last ARP packet from a next hop, with its time. -/
def lastARP (a : IPv4Address) (tr : List (Turn α)) : Option (MACAddress × SimTime) :=
  tr.foldl (fun last t ↦
    match t.input with
    | .arpPacket arp _ =>
      if arp.srcIPAddress = a then some (arp.srcMACAddress, t.pre.now) else last
    | _ => last) none

/-- The datagrams that wait for a next hop. -/
def Node.waiting (s : Node α) (a : IPv4Address) : List (IPv4Datagram α) :=
  (s.pendingPackets.find a).getD []

/-- Datagrams go to unicast next hops, and ARP packets are valid. -/
def Node.IsValid (p : Params) (s : Node α) : Event α → Prop
  | .sendDatagram datagram ie nextHopAddr =>
    s.isIeee802Lan ie = true ∧ ∃ hop, s.nextHopFor p datagram ie nextHopAddr = .ok hop ∧
      s.isBroadcastOn hop ie = false ∧ hop.isMulticast = false
  | .arpPacket arp _ => arp.srcMACAddress ≠ .UNSPECIFIED_ADDRESS ∧
      arp.srcIPAddress.isUnspecified = false ∧ (arp.opcode = .request ∨ arp.opcode = .reply)
  | _ => True

/-! ### Moves -/

/-- The entry with which the resolution of a next hop starts. -/
def ARPCacheEntry.started (p : Params) (now : SimTime) (ie : ℕ) : ARPCacheEntry :=
  { ie, pending := true, timer := some (now + p.retryTimeout) }

/-- An entry after another request. -/
def ARPCacheEntry.retried (p : Params) (now : SimTime) (e : ARPCacheEntry) : ARPCacheEntry :=
  { e with numRetries := e.numRetries + 1, timer := some (now + p.retryTimeout) }

/-- An entry after an ARP packet. -/
def ARPCacheEntry.answered (macAddress : MACAddress) (now : SimTime) (e : ARPCacheEntry) :
    ARPCacheEntry :=
  { e with pending := false, timer := none, macAddress, lastUpdate := now }

variable {p : Params} {a : IPv4Address} {s s' : Node α} {event : Event α}
  {actions : List (Action α)}

/-- What an event does to a next hop. -/
inductive Move (p : Params) (a : IPv4Address) (s : Node α) : Event α → List (Action α) → Node α → Prop
  | other {event : Event α} {actions : List (Action α)} {s' : Node α}
      (hhop : event.hop p s ≠ some a) (hentry : s'.arpCache.find a = s.arpCache.find a)
      (hqueue : s'.pendingPackets.find a = s.pendingPackets.find a)
      (hrequests : requests a actions = 0) (hpended : pended a actions = [])
      (hnow : s.now ≤ s'.now) (htime : ∀ e timer, s.arpCache.find a = some e →
        e.timer = some timer → s.now ≤ timer → s'.now ≤ timer) :
      Move p a s event actions s'
  | started {datagram : IPv4Datagram α} {ie : ℕ} {nextHopAddr : IPv4Address} {request : Action α}
      {s' : Node α} (hhop : (Event.sendDatagram datagram ie nextHopAddr).hop p s = some a)
      (hnot : ∀ e, s.arpCache.find a = some e → e.pending = false)
      (hrequest : s.sendARPRequest ie a = .ok request) (hnow : s'.now = s.now)
      (hentry : s'.arpCache.find a = some (.started p s.now ie))
      (hqueue : s'.pendingPackets.find a = some (s.waiting a ++ [datagram])) :
      Move p a s (.sendDatagram datagram ie nextHopAddr) [request, .pendDatagram datagram a] s'
  | joined {datagram : IPv4Datagram α} {ie : ℕ} {nextHopAddr : IPv4Address} {e : ARPCacheEntry}
      {s' : Node α} (hhop : (Event.sendDatagram datagram ie nextHopAddr).hop p s = some a)
      (hfind : s.arpCache.find a = some e) (hpending : e.pending = true) (hnow : s'.now = s.now)
      (hentry : s'.arpCache.find a = some e)
      (hqueue : s'.pendingPackets.find a = some (s.waiting a ++ [datagram])) :
      Move p a s (.sendDatagram datagram ie nextHopAddr) [.pendDatagram datagram a] s'
  | direct {datagram : IPv4Datagram α} {ie : ℕ} {nextHopAddr : IPv4Address} {e : ARPCacheEntry}
      (hhop : (Event.sendDatagram datagram ie nextHopAddr).hop p s = some a)
      (hfind : s.arpCache.find a = some e) (hpending : e.pending = false)
      (hvalid : s.now ≤ e.lastUpdate + p.cacheTimeout) :
      Move p a s (.sendDatagram datagram ie nextHopAddr)
        [.sendDatagram datagram ie (some e.macAddress)] s
  | retried {e : ARPCacheEntry} {request : Action α} {s' : Node α}
      (hfind : s.arpCache.find a = some e) (htimer : e.timer = some s.now)
      (hlt : e.numRetries + 1 < p.retryCount)
      (hrequest : s.sendARPRequest e.ie a = .ok request) (hnow : s'.now = s.now)
      (hentry : s'.arpCache.find a = some (e.retried p s.now))
      (hqueue : s'.pendingPackets.find a = s.pendingPackets.find a) :
      Move p a s (.timeout a) [request] s'
  | failed {e : ARPCacheEntry} {s' : Node α} (hfind : s.arpCache.find a = some e)
      (htimer : e.timer = some s.now) (hle : p.retryCount ≤ e.numRetries + 1) (hnow : s'.now = s.now)
      (hentry : s'.arpCache.find a = none) (hqueue : s'.pendingPackets.find a = none) :
      Move p a s (.timeout a) ((s.waiting a).map .dropDatagram) s'
  | answered {arp : ARPPacket} {ie : ℕ} {e : ARPCacheEntry} {replies : List (Action α)}
      {s' : Node α} (hsrc : arp.srcIPAddress = a)
      (hmac : arp.srcMACAddress ≠ .UNSPECIFIED_ADDRESS) (hnow : s'.now = s.now)
      (hentry : s'.arpCache.find a = some (e.answered arp.srcMACAddress s.now))
      (hqueue : s'.pendingPackets.find a = none)
      (hreplies : ∀ action ∈ replies, ∃ arp ie mac, action = .sendARP arp ie mac ∧
        arp.opcode = .reply) :
      Move p a s (.arpPacket arp ie)
        ((s.waiting a).map (.sendDatagram · e.ie (some arp.srcMACAddress)) ++ replies) s'
  | ignored {arp : ARPPacket} {ie : ℕ} (hsrc : arp.srcIPAddress = a)
      (hfind : s.arpCache.find a = none) : Move p a s (.arpPacket arp ie) [] s

/-- Entries that are not pending have no timer, and a MAC address. -/
def Node.Settled (s : Node α) : Prop :=
  ∀ a e, s.arpCache.find a = some e → e.pending = false →
    e.timer = none ∧ e.macAddress ≠ .UNSPECIFIED_ADDRESS

theorem requests_request {ie : ℕ} {b : IPv4Address} {request : Action α}
    (h : s.sendARPRequest ie b = .ok request) (a : IPv4Address) :
    requests a [request] = if b = a then 1 else 0 := by
  rw [Node.sendARPRequest] at h
  split_ifs at h
  obtain rfl := Except.ok.inj h
  simp [requests, Action.IsRequestFor, List.countP_cons]

theorem pended_request {ie : ℕ} {b : IPv4Address} {request : Action α}
    (h : s.sendARPRequest ie b = .ok request) (a : IPv4Address) (l : List (Action α)) :
    pended a (request :: l) = pended a l := by
  rw [Node.sendARPRequest] at h
  split_ifs at h
  obtain rfl := Except.ok.inj h
  rfl

theorem not_datagram_request {ie : ℕ} {b : IPv4Address} {request : Action α}
    (h : s.sendARPRequest ie b = .ok request) :
    request.sent? = none ∧ request.dropped? = none := by
  rw [Node.sendARPRequest] at h
  split_ifs at h
  obtain rfl := Except.ok.inj h
  exact ⟨rfl, rfl⟩

theorem exists_of_initiate {ie : ℕ} {b : IPv4Address} {r : Node α × List (Action α)}
    (h : s.initiateARPResolution p b ie = .ok r) :
    ∃ request, s.sendARPRequest ie b = .ok request ∧
      r = ({ s with arpCache := s.arpCache.insert b (.started p s.now ie) }, [request]) := by
  obtain ⟨request, hrequest, rfl⟩ := exists_of_map_eq_ok h
  exact ⟨request, hrequest, rfl⟩

/-- A datagram that waits. -/
theorem pendOrSend_unspecified (datagram : IPv4Datagram α) (ie : ℕ) (b : IPv4Address)
    (actions : List (Action α)) :
    s.pendOrSend datagram ie b .UNSPECIFIED_ADDRESS actions =
      .ok ({ s with pendingPackets := s.pendingPackets.insert b (s.waiting b ++ [datagram]) },
        actions ++ [.pendDatagram datagram b]) := by
  rw [Node.pendOrSend, if_pos rfl]
  rfl

/-- **What a node does with a datagram** for a unicast next hop. -/
theorem exists_of_sendDatagram {datagram : IPv4Datagram α} {ie : ℕ} {nextHopAddr b : IPv4Address}
    (hlan : s.isIeee802Lan ie = true) (hnext : s.nextHopFor p datagram ie nextHopAddr = .ok b)
    (hbroadcast : s.isBroadcastOn b ie = false) (hmulticast : b.isMulticast = false)
    (hsettled : s.Settled)
    (h : s.sendDatagramToOutput p datagram ie nextHopAddr = .ok (s', actions)) :
    (∃ request, (∀ e, s.arpCache.find b = some e → e.pending = false) ∧
      s.sendARPRequest ie b = .ok request ∧ actions = [request, .pendDatagram datagram b] ∧
      s' = { s with
        arpCache := s.arpCache.insert b (.started p s.now ie)
        pendingPackets := s.pendingPackets.insert b (s.waiting b ++ [datagram]) }) ∨
    (∃ e, s.arpCache.find b = some e ∧ e.pending = true ∧ actions = [.pendDatagram datagram b] ∧
      s' = { s with pendingPackets := s.pendingPackets.insert b (s.waiting b ++ [datagram]) }) ∨
    ∃ e, s.arpCache.find b = some e ∧ e.pending = false ∧ s.now ≤ e.lastUpdate + p.cacheTimeout ∧
      actions = [.sendDatagram datagram ie (some e.macAddress)] ∧ s' = s := by
  rw [Node.sendDatagramToOutput, if_pos hlan, hnext, Except.bind] at h
  obtain ⟨r, hresolve, hend⟩ := exists_of_bind_eq_ok h
  replace hresolve : s.resolveL3Address p b ie = .ok r := by
    simpa [Node.resolveNextHopMacAddress, hbroadcast, hmulticast] using hresolve
  rw [Node.resolveL3Address] at hresolve
  have hinitiated (hnot : ∀ e, s.arpCache.find b = some e → e.pending = false)
      (h : (s.initiateARPResolution p b ie).map (MACAddress.UNSPECIFIED_ADDRESS, ·) = .ok r) :
      ∃ request, (∀ e, s.arpCache.find b = some e → e.pending = false) ∧
        s.sendARPRequest ie b = .ok request ∧ actions = [request, .pendDatagram datagram b] ∧
        s' = { s with
          arpCache := s.arpCache.insert b (.started p s.now ie)
          pendingPackets := s.pendingPackets.insert b (s.waiting b ++ [datagram]) } := by
    obtain ⟨r', hinitiate, rfl⟩ := exists_of_map_eq_ok h
    obtain ⟨request, hrequest, rfl⟩ := exists_of_initiate hinitiate
    rw [pendOrSend_unspecified] at hend
    obtain ⟨rfl, rfl⟩ := Prod.mk.inj (Except.ok.inj hend)
    exact ⟨request, hnot, hrequest, rfl, rfl⟩
  rcases Option.eq_none_or_eq_some (s.arpCache.find b) with hfind | ⟨e, hfind⟩
  · rw [hfind] at hresolve
    exact .inl (hinitiated (by simp [hfind]) hresolve)
  · rw [hfind] at hresolve
    dsimp only at hresolve
    split_ifs at hresolve with hpending hfresh
    · obtain rfl := Except.ok.inj hresolve
      rw [pendOrSend_unspecified] at hend
      obtain ⟨rfl, rfl⟩ := Prod.mk.inj (Except.ok.inj hend)
      exact .inr (.inl ⟨e, hfind, hpending, rfl, rfl⟩)
    · have hnot := Bool.eq_false_iff.2 hpending
      obtain rfl := Except.ok.inj hresolve
      dsimp only at hend
      rw [Node.pendOrSend, if_neg (hsettled b e hfind hnot).2] at hend
      split_ifs at hend
      obtain ⟨rfl, rfl⟩ := Prod.mk.inj (Except.ok.inj hend)
      exact .inr (.inr ⟨e, hfind, hnot, hfresh, rfl, rfl⟩)
    · exact .inl (hinitiated (by simp [hfind, Bool.eq_false_iff.2 hpending]) hresolve)

theorem arpResolutionCompleted_eq (b : IPv4Address) (macAddress : MACAddress) (ie : ℕ) :
    s.arpResolutionCompleted b macAddress ie =
      ({ s with pendingPackets := s.pendingPackets.erase b },
        (s.waiting b).map (.sendDatagram · ie (some macAddress))) := by
  rcases Option.eq_none_or_eq_some (s.pendingPackets.find b) with hfind | ⟨queue, hfind⟩
  · simp [Node.arpResolutionCompleted, Node.waiting, hfind, OrderedMap.erase_eq_self hfind]
  · simp [Node.arpResolutionCompleted, Node.waiting, hfind]

theorem arpResolutionTimedOut_eq (b : IPv4Address) :
    s.arpResolutionTimedOut b =
      ({ s with pendingPackets := s.pendingPackets.erase b },
        (s.waiting b).map .dropDatagram) := by
  rcases Option.eq_none_or_eq_some (s.pendingPackets.find b) with hfind | ⟨queue, hfind⟩
  · simp [Node.arpResolutionTimedOut, Node.waiting, hfind, OrderedMap.erase_eq_self hfind]
  · simp [Node.arpResolutionTimedOut, Node.waiting, hfind]

/-- The signal goes out with the address of the packet, and the queue is emptied. -/
theorem updateARPCache_eq (b : IPv4Address) (e : ARPCacheEntry) (macAddress : MACAddress)
    (htimer : e.pending = false → e.timer = none) :
    ∃ e' : ARPCacheEntry, s.updateARPCache b e macAddress =
      ({ s with
          arpCache := s.arpCache.insert b (e'.answered macAddress s.now)
          pendingPackets := s.pendingPackets.erase b },
        (s.waiting b).map (.sendDatagram · e'.ie (some macAddress))) := by
  rw [Node.updateARPCache]
  by_cases hpending : e.pending = true
  · refine ⟨{ e with numRetries := 0 }, ?_⟩
    rw [if_pos hpending, arpResolutionCompleted_eq]
    rfl
  · have hnot := Bool.eq_false_iff.2 hpending
    refine ⟨e, ?_⟩
    rw [if_neg hpending, arpResolutionCompleted_eq, ARPCacheEntry.answered, ← hnot, ← htimer hnot]
    rfl

/-- Requests that ask for this node are answered. -/
theorem answer_ok {arp : ARPPacket} (h : arp.opcode = .request ∨ arp.opcode = .reply) (ie : ℕ)
    (actions : List (Action α)) :
    ∃ replies : List (Action α), s.answer arp ie actions = .ok (s, actions ++ replies) ∧
      ∀ action ∈ replies, ∃ arp ie mac, action = .sendARP arp ie mac ∧ arp.opcode = .reply := by
  rw [Node.answer]
  rcases h with h | h
  · refine ⟨[s.replyTo arp ie], by rw [h], fun action haction ↦ ?_⟩
    obtain rfl := List.mem_singleton.1 haction
    exact ⟨_, _, _, rfl, rfl⟩
  · exact ⟨[], by rw [h, List.append_nil], by simp⟩

/-- **What a node does with an ARP packet**. -/
theorem processARPPacket_ok {arp : ARPPacket} (ie : ℕ) (hvalid : s.IsValid p (.arpPacket arp ie))
    (hsettled : s.Settled) :
    s.arpCache.find arp.srcIPAddress = none ∧ s.processARPPacket p arp ie = .ok (s, []) ∨
    ∃ (e : ARPCacheEntry) (replies : List (Action α)),
      s.processARPPacket p arp ie =
        .ok ({ s with
            arpCache := s.arpCache.insert arp.srcIPAddress (e.answered arp.srcMACAddress s.now)
            pendingPackets := s.pendingPackets.erase arp.srcIPAddress },
          (s.waiting arp.srcIPAddress).map (.sendDatagram · e.ie (some arp.srcMACAddress)) ++
            replies) ∧
        ∀ action ∈ replies, ∃ arp ie mac, action = .sendARP arp ie mac ∧ arp.opcode = .reply := by
  obtain ⟨hmac, hip, hopcode⟩ := hvalid
  rw [Node.processARPPacket, if_neg hmac, if_neg (Bool.eq_false_iff.1 hip)]
  rcases Option.eq_none_or_eq_some (s.arpCache.find arp.srcIPAddress) with hfind | ⟨e, hfind⟩
  · by_cases hrecognized : s.addressRecognized p arp.destIPAddress ie = true
    · obtain ⟨e', heq⟩ := updateARPCache_eq (s := s) arp.srcIPAddress { ie } arp.srcMACAddress fun _ ↦ rfl
      rw [hfind]
      dsimp only
      rw [if_pos hrecognized, heq]
      obtain ⟨replies, hanswer, hreplies⟩ := answer_ok hopcode ie _
      exact .inr ⟨e', replies, hanswer, hreplies⟩
    · rw [hfind]
      exact .inl ⟨rfl, if_neg hrecognized⟩
  · obtain ⟨e', heq⟩ := updateARPCache_eq (s := s) arp.srcIPAddress e arp.srcMACAddress
      fun hnot ↦ (hsettled _ e hfind hnot).1
    rw [hfind]
    dsimp only
    rw [heq]
    split_ifs with hrecognized
    · obtain ⟨replies, hanswer, hreplies⟩ := answer_ok hopcode ie _
      exact .inr ⟨e', replies, hanswer, hreplies⟩
    · exact .inr ⟨e', [], by rw [List.append_nil], by simp⟩

/-- **What a node does when a timer fires**. -/
theorem exists_of_timeout {b : IPv4Address} {e : ARPCacheEntry}
    (hfind : s.arpCache.find b = some e) (h : s.requestTimedOut p b = .ok (s', actions)) :
    (∃ request, e.numRetries + 1 < p.retryCount ∧ s.sendARPRequest e.ie b = .ok request ∧
      actions = [request] ∧
      s' = { s with arpCache := s.arpCache.insert b (e.retried p s.now) }) ∨
    p.retryCount ≤ e.numRetries + 1 ∧ actions = (s.waiting b).map .dropDatagram ∧
      s' = { s with
        arpCache := s.arpCache.erase b
        pendingPackets := s.pendingPackets.erase b } := by
  rw [Node.requestTimedOut, hfind] at h
  dsimp only at h
  split_ifs at h with hlt
  · obtain ⟨request, hrequest, heq⟩ := exists_of_map_eq_ok h
    obtain ⟨rfl, rfl⟩ := Prod.mk.inj heq
    exact .inl ⟨request, hlt, hrequest, rfl, rfl⟩
  · rw [arpResolutionTimedOut_eq] at h
    obtain ⟨rfl, rfl⟩ := Prod.mk.inj (Except.ok.inj h)
    exact .inr ⟨not_lt.1 hlt, rfl, rfl⟩

theorem requests_map_send (a : IPv4Address) (l : List (IPv4Datagram α)) (ie : ℕ)
    (mac : Option MACAddress) : requests a (l.map (Action.sendDatagram · ie mac)) = 0 := by
  simp [requests, Action.IsRequestFor, List.countP_map, Function.comp_def]

theorem requests_map_drop (a : IPv4Address) (l : List (IPv4Datagram α)) :
    requests a (l.map Action.dropDatagram) = 0 := by
  simp [requests, Action.IsRequestFor, List.countP_map, Function.comp_def]

theorem pended_map_send (a : IPv4Address) (l : List (IPv4Datagram α)) (ie : ℕ)
    (mac : Option MACAddress) : pended a (l.map (Action.sendDatagram · ie mac)) = [] := by
  simp [pended, Action.pended?, List.filterMap_map]

theorem pended_map_drop (a : IPv4Address) (l : List (IPv4Datagram α)) :
    pended a (l.map Action.dropDatagram) = [] := by
  simp [pended, Action.pended?, List.filterMap_map]

theorem dropped_map_drop (l : List (IPv4Datagram α)) :
    (l.map Action.dropDatagram).filterMap Action.dropped? = l :=
  List.filterMap_map.trans List.filterMap_some

theorem sent_map_drop (l : List (IPv4Datagram α)) :
    (l.map Action.dropDatagram).filterMap Action.sent? = [] := by
  simp [Action.sent?, List.filterMap_map]

theorem sent_map_send (l : List (IPv4Datagram α)) (ie : ℕ) (mac : Option MACAddress) :
    (l.map (Action.sendDatagram · ie mac)).filterMap Action.sent? = l :=
  List.filterMap_map.trans List.filterMap_some

theorem dropped_map_send (l : List (IPv4Datagram α)) (ie : ℕ) (mac : Option MACAddress) :
    (l.map (Action.sendDatagram · ie mac)).filterMap Action.dropped? = [] := by
  simp [Action.dropped?, List.filterMap_map]

/-- Replies are no requests, and no datagrams. -/
theorem of_replies {replies : List (Action α)} (h : ∀ action ∈ replies, ∃ arp ie mac,
    action = .sendARP arp ie mac ∧ arp.opcode = .reply) (a : IPv4Address) :
    requests a replies = 0 ∧ pended a replies = [] ∧ replies.filterMap Action.sent? = [] ∧
      replies.filterMap Action.dropped? = [] := by
  refine ⟨List.countP_eq_zero.2 fun action haction ↦ ?_,
    List.filterMap_eq_nil_iff.2 fun action haction ↦ ?_,
    List.filterMap_eq_nil_iff.2 fun action haction ↦ ?_,
    List.filterMap_eq_nil_iff.2 fun action haction ↦ ?_⟩
  all_goals obtain ⟨arp, ie, mac, rfl, hop⟩ := h action haction
  · simp [Action.IsRequestFor, hop]
  · rfl
  · rfl
  · rfl

theorem requests_append (a : IPv4Address) (l l' : List (Action α)) :
    requests a (l ++ l') = requests a l + requests a l' :=
  List.countP_append

theorem pended_append (a : IPv4Address) (l l' : List (Action α)) :
    pended a (l ++ l') = pended a l ++ pended a l' :=
  List.filterMap_append

theorem Event.hop_sendDatagram {datagram : IPv4Datagram α} {ie : ℕ} {nextHopAddr b : IPv4Address}
    (hlan : s.isIeee802Lan ie = true) (hnext : s.nextHopFor p datagram ie nextHopAddr = .ok b) :
    (Event.sendDatagram datagram ie nextHopAddr).hop p s = some b := by
  rw [Event.hop, if_pos hlan, hnext]
  rfl

/-- **Every event is a move** for every next hop. -/
theorem move_of_step (hvalid : s.IsValid p event) (hallows : s.Allows event)
    (hsettled : s.Settled) (h : s.step p event = .ok (s', actions)) (a : IPv4Address) :
    Move p a s event actions s' := by
  have hother (hhop : event.hop p s ≠ some a) (hnow : s'.now = s.now)
      (hentry : s'.arpCache.find a = s.arpCache.find a)
      (hqueue : s'.pendingPackets.find a = s.pendingPackets.find a)
      (hrequests : requests a actions = 0) (hpended : pended a actions = []) :
      Move p a s event actions s' :=
    .other hhop hentry hqueue hrequests hpended hnow.ge fun _ _ _ _ hle ↦ hnow.trans_le hle
  cases event with
  | sendDatagram datagram ie nextHopAddr =>
    obtain ⟨hlan, b, hnext, hbroadcast, hmulticast⟩ := hvalid
    have hhop := Event.hop_sendDatagram hlan hnext
    rcases exists_of_sendDatagram hlan hnext hbroadcast hmulticast hsettled h with
      ⟨request, hnot, hrequest, rfl, rfl⟩ | ⟨e, hfind, hpending, rfl, rfl⟩ |
        ⟨e, hfind, hpending, hfresh, rfl, rfl⟩
    · rcases eq_or_ne b a with rfl | hne
      · exact .started hhop hnot hrequest rfl (by simp [OrderedMap.find_insert])
          (by simp [OrderedMap.find_insert])
      · refine hother (by simpa [hhop] using hne) rfl ?_ ?_ ?_ ?_
        · simp [OrderedMap.find_insert, hne.symm]
        · simp [OrderedMap.find_insert, hne.symm]
        · rw [← List.singleton_append, requests_append, requests_request hrequest, if_neg hne]
          rfl
        · rw [pended_request hrequest]
          simp [pended, Action.pended?, hne]
    · rcases eq_or_ne b a with rfl | hne
      · exact .joined hhop hfind hpending rfl hfind (by simp [OrderedMap.find_insert])
      · refine hother (by simpa [hhop] using hne) rfl rfl ?_ rfl ?_
        · simp [OrderedMap.find_insert, hne.symm]
        · simp [pended, Action.pended?, hne]
    · rcases eq_or_ne b a with rfl | hne
      · exact .direct hhop hfind hpending hfresh
      · exact hother (by simpa [hhop] using hne) rfl rfl rfl rfl rfl
  | arpPacket arp ie =>
    rcases processARPPacket_ok ie hvalid hsettled with ⟨hfind, heq⟩ |
      ⟨e, replies, heq, hreplies⟩
    · obtain ⟨rfl, rfl⟩ := Prod.mk.inj (Except.ok.inj (heq.symm.trans h))
      rcases eq_or_ne arp.srcIPAddress a with rfl | hne
      · exact .ignored rfl hfind
      · exact hother (by simpa [Event.hop] using hne) rfl rfl rfl rfl rfl
    · obtain ⟨rfl, rfl⟩ := Prod.mk.inj (Except.ok.inj (heq.symm.trans h))
      rcases eq_or_ne arp.srcIPAddress a with rfl | hne
      · exact .answered rfl hvalid.1 rfl (by simp [OrderedMap.find_insert])
          (by simp [OrderedMap.find_erase]) hreplies
      · obtain ⟨hrequests, hpended, -, -⟩ := of_replies hreplies a
        refine hother (by simpa [Event.hop] using hne) rfl ?_ ?_ ?_ ?_
        · simp [OrderedMap.find_insert, hne.symm]
        · simp [OrderedMap.find_erase, hne.symm]
        · rw [requests_append, requests_map_send, hrequests]
        · rw [pended_append, pended_map_send, hpended, List.append_nil]
  | timeout b =>
    obtain ⟨e, hfind, htimer⟩ := hallows
    rcases exists_of_timeout hfind h with ⟨request, hlt, hrequest, rfl, rfl⟩ | ⟨hle, rfl, rfl⟩
    · rcases eq_or_ne b a with rfl | hne
      · exact .retried hfind htimer hlt hrequest rfl (by simp [OrderedMap.find_insert]) rfl
      · refine hother (by simpa [Event.hop] using hne) rfl ?_ rfl ?_ ?_
        · simp [OrderedMap.find_insert, hne.symm]
        · rw [requests_request hrequest, if_neg hne]
        · rw [pended_request hrequest]
          rfl
    · rcases eq_or_ne b a with rfl | hne
      · exact .failed hfind htimer hle rfl (by simp [OrderedMap.find_erase])
          (by simp [OrderedMap.find_erase])
      · refine hother (by simpa [Event.hop] using hne) rfl ?_ ?_ ?_ ?_
        · simp [OrderedMap.find_erase, hne.symm]
        · simp [OrderedMap.find_erase, hne.symm]
        · exact requests_map_drop a _
        · exact pended_map_drop a _
  | pass time =>
    obtain ⟨hle, htimers⟩ := hallows
    obtain ⟨rfl, rfl⟩ := Prod.mk.inj (Except.ok.inj h)
    exact .other (by simp [Event.hop]) rfl rfl rfl rfl hle fun e timer hfind htimer _ ↦
      htimers a e timer hfind htimer
  | configure config =>
    obtain ⟨rfl, rfl⟩ := Prod.mk.inj (Except.ok.inj h)
    exact hother (by simp [Event.hop]) rfl rfl rfl rfl rfl

/-! ### Between the events -/

/-- **What is known of a next hop** for which `n` requests are unanswered, the last ARP packet was
`last`, and the datagrams `w` wait. -/
inductive Phase (p : Params) (a : IPv4Address) (s : Node α) (n : ℕ)
    (last : Option (MACAddress × SimTime)) (w : List (SimTime × IPv4Datagram α)) : Prop
  | absent (hentry : s.arpCache.find a = none) (hqueue : s.pendingPackets.find a = none)
      (hn : n = 0) (hw : w = [])
  | resolved {e : ARPCacheEntry} (hentry : s.arpCache.find a = some e)
      (hpending : e.pending = false) (htimer : e.timer = none)
      (hmac : e.macAddress ≠ .UNSPECIFIED_ADDRESS)
      (hlast : last = some (e.macAddress, e.lastUpdate))
      (hqueue : s.pendingPackets.find a = none) (hn : n = 0) (hw : w = [])
  | pending {e : ARPCacheEntry} {timer : SimTime} (hentry : s.arpCache.find a = some e)
      (hpending : e.pending = true) (htimer : e.timer = some timer) (hnow : s.now ≤ timer)
      (hsoon : timer ≤ s.now + p.retryTimeout) (hn : n = e.numRetries + 1)
      (hle : n ≤ p.retryCount) (hqueue : s.pendingPackets.find a = some (w.map Prod.snd))
      (hw : w ≠ []) (htimes : ∀ x ∈ w, timer ≤ x.1 + n * p.retryTimeout)

/-- **The record of a next hop**: the datagrams that are no longer queued were released in order,
and the others wait. -/
def Watched (p : Params) (a : IPv4Address) (tr : List (Turn α)) (s : Node α) : Prop :=
  ∃ r w, queued a tr = r ++ w ∧ r.map Prod.snd = released a tr ∧
    Phase p a s (unanswered a tr) (lastARP a tr) w

section Record

variable {tr : List (Turn α)} {t : Turn α}

theorem queued_concat : queued a (tr ++ [t]) =
    queued a tr ++ (pended a t.output).map (t.pre.now, ·) := by
  simp [queued]

theorem released_concat : released a (tr ++ [t]) = released a tr ++ releasedBy a t := by
  simp [released]

theorem unanswered_concat : unanswered a (tr ++ [t]) =
    if Ends a t then 0 else unanswered a tr + requests a t.output := by
  simp [unanswered]

theorem lastARP_concat_arpPacket {arp : ARPPacket} {ie : ℕ} (h : t.input = .arpPacket arp ie)
    (hsrc : arp.srcIPAddress = a) :
    lastARP a (tr ++ [t]) = some (arp.srcMACAddress, t.pre.now) := by
  simp [lastARP, h, hsrc]

theorem lastARP_concat (h : ∀ arp ie, t.input = .arpPacket arp ie → arp.srcIPAddress ≠ a) :
    lastARP a (tr ++ [t]) = lastARP a tr := by
  rw [lastARP, List.foldl_append, List.foldl_cons, List.foldl_nil]
  cases hinput : t.input with
  | arpPacket arp ie => exact if_neg (h arp ie hinput)
  | _ => rfl

theorem releasedBy_arpPacket {arp : ARPPacket} {ie : ℕ} (h : t.input = .arpPacket arp ie)
    (hsrc : arp.srcIPAddress = a) : releasedBy a t = t.output.filterMap Action.sent? := by
  rw [releasedBy, h]
  exact if_pos hsrc

theorem releasedBy_timeout (h : t.input = .timeout a) :
    releasedBy a t = t.output.filterMap Action.dropped? := by
  rw [releasedBy, h]
  exact if_pos rfl

end Record

/-- An event about another next hop. -/
theorem of_hop_ne (h : event.hop p s ≠ some a) (actions : List (Action α)) (s' : Node α) :
    releasedBy a ⟨s, event, actions, s'⟩ = [] ∧ Ends a ⟨s, event, actions, s'⟩ = false ∧
      ∀ arp ie, event = .arpPacket arp ie → arp.srcIPAddress ≠ a := by
  cases event with
  | arpPacket arp ie =>
    have hne : arp.srcIPAddress ≠ a := fun heq ↦ h (congrArg some heq)
    refine ⟨if_neg hne, decide_eq_false hne, fun arp' ie' heq ↦ ?_⟩
    obtain ⟨rfl, -⟩ := Event.arpPacket.inj heq
    exact hne
  | timeout b =>
    have hne : b ≠ a := fun heq ↦ h (congrArg some heq)
    exact ⟨if_neg hne, decide_eq_false fun hb ↦ hne hb.1, fun _ _ heq ↦ by cases heq⟩
  | _ => exact ⟨rfl, rfl, fun _ _ heq ↦ by cases heq⟩

section Step

variable {n : ℕ} {last : Option (MACAddress × SimTime)} {w : List (SimTime × IPv4Datagram α)}

theorem Phase.waiting_eq (h : Phase p a s n last w) : s.waiting a = w.map Prod.snd := by
  rcases h with ⟨-, hqueue, -, rfl⟩ | ⟨-, -, -, -, -, hqueue, -, rfl⟩ |
    ⟨-, -, -, -, -, -, -, hqueue, -, -⟩ <;> simp [Node.waiting, hqueue]

/-- A next hop whose resolution has not begun. -/
theorem Phase.idle (h : Phase p a s n last w)
    (hnot : ∀ e, s.arpCache.find a = some e → e.pending = false) : n = 0 ∧ w = [] := by
  rcases h with ⟨-, -, hn, hw⟩ | ⟨-, -, -, -, -, -, hn, hw⟩ |
    ⟨hentry, hpending, -, -, -, -, -, -, -, -⟩
  · exact ⟨hn, hw⟩
  · exact ⟨hn, hw⟩
  · exact absurd (hnot _ hentry) (Bool.eq_false_iff.not_left.2 hpending)

/-- A next hop whose entry is pending. -/
theorem Phase.of_pending {e : ARPCacheEntry} (h : Phase p a s n last w)
    (hfind : s.arpCache.find a = some e) (hpending : e.pending = true) :
    ∃ timer, e.timer = some timer ∧ s.now ≤ timer ∧ timer ≤ s.now + p.retryTimeout ∧
      n = e.numRetries + 1 ∧ n ≤ p.retryCount ∧
      s.pendingPackets.find a = some (w.map Prod.snd) ∧ w ≠ [] ∧
      ∀ x ∈ w, timer ≤ x.1 + n * p.retryTimeout := by
  rcases h with ⟨hentry, -, -, -⟩ | ⟨hentry, hnot, -, -, -, -, -, -⟩ |
    ⟨hentry, -, htimer, hnow, hsoon, hn, hle, hqueue, hw, htimes⟩
  · simp [hfind] at hentry
  · obtain rfl := Option.some.inj (hfind.symm.trans hentry)
    simp [hpending] at hnot
  · obtain rfl := Option.some.inj (hfind.symm.trans hentry)
    exact ⟨_, htimer, hnow, hsoon, hn, hle, hqueue, hw, htimes⟩

/-- An entry whose timer is scheduled is pending. -/
theorem Phase.pending_of_timer {e : ARPCacheEntry} {timer : SimTime} (h : Phase p a s n last w)
    (hfind : s.arpCache.find a = some e) (htimer : e.timer = some timer) : e.pending = true := by
  rcases h with ⟨hentry, -, -, -⟩ | ⟨hentry, -, hnone, -, -, -, -, -⟩ |
    ⟨hentry, hpending, -, -, -, -, -, -, -, -⟩
  · simp [hfind] at hentry
  · obtain rfl := Option.some.inj (hfind.symm.trans hentry)
    simp [htimer] at hnone
  · obtain rfl := Option.some.inj (hfind.symm.trans hentry)
    exact hpending

/-- A next hop whose entry is valid. -/
theorem Phase.of_not_pending {e : ARPCacheEntry} (h : Phase p a s n last w)
    (hfind : s.arpCache.find a = some e) (hnot : e.pending = false) :
    e.timer = none ∧ e.macAddress ≠ .UNSPECIFIED_ADDRESS ∧
      last = some (e.macAddress, e.lastUpdate) ∧ s.pendingPackets.find a = none := by
  rcases h with ⟨hentry, -, -, -⟩ | ⟨hentry, -, htimer, hmac, hlast, hqueue, -, -⟩ |
    ⟨hentry, hpending, -, -, -, -, -, -, -, -⟩
  · simp [hfind] at hentry
  · obtain rfl := Option.some.inj (hfind.symm.trans hentry)
    exact ⟨htimer, hmac, hlast, hqueue⟩
  · obtain rfl := Option.some.inj (hfind.symm.trans hentry)
    simp [hnot] at hpending

theorem Phase.absent_of_find (h : Phase p a s n last w) (hfind : s.arpCache.find a = none) :
    s.pendingPackets.find a = none ∧ n = 0 ∧ w = [] := by
  rcases h with ⟨-, hqueue, hn, hw⟩ | ⟨hentry, -, -, -, -, -, -, -⟩ |
    ⟨hentry, -, -, -, -, -, -, -, -, -⟩
  · exact ⟨hqueue, hn, hw⟩
  · simp [hfind] at hentry
  · simp [hfind] at hentry

/-- No datagram waits for longer than all the requests take. -/
theorem Phase.now_le (h : Phase p a s n last w) :
    ∀ x ∈ w, s.now ≤ x.1 + p.retryCount * p.retryTimeout := by
  rcases h with ⟨-, -, -, rfl⟩ | ⟨-, -, -, -, -, -, -, rfl⟩ |
    ⟨-, -, -, hnow, -, -, hle, -, -, htimes⟩
  · exact List.forall_mem_nil _
  · exact List.forall_mem_nil _
  · exact fun x hx ↦ hnow.trans ((htimes x hx).trans
      (Nat.add_le_add_left (Nat.mul_le_mul_right _ hle) _))

/-- Nothing happens to a next hop while time passes up to its timer. -/
theorem Phase.congr (h : Phase p a s n last w)
    (hentry : s'.arpCache.find a = s.arpCache.find a)
    (hsame : s'.pendingPackets.find a = s.pendingPackets.find a) (hnow : s.now ≤ s'.now)
    (htime : ∀ e timer, s.arpCache.find a = some e → e.timer = some timer → s.now ≤ timer →
      s'.now ≤ timer) : Phase p a s' n last w := by
  rcases h with ⟨hfind, hqueue, hn, hw⟩ |
    ⟨hfind, hpending, htimer, hmac, hlast, hqueue, hn, hw⟩ |
    ⟨hfind, hpending, htimer, hle, hsoon, hn, hcount, hqueue, hw, htimes⟩
  · exact .absent (hentry.trans hfind) (hsame.trans hqueue) hn hw
  · exact .resolved (hentry.trans hfind) hpending htimer hmac hlast (hsame.trans hqueue) hn hw
  · exact .pending (hentry.trans hfind) hpending htimer (htime _ _ hfind htimer hle)
      (hsoon.trans (Nat.add_le_add_right hnow _)) hn hcount (hsame.trans hqueue) hw htimes

end Step

theorem Watched.nil (hs : (system α p).Init s) (a : IPv4Address) : Watched p a [] s :=
  ⟨[], [], rfl, rfl, .absent (by rw [hs.1]; rfl) (by rw [hs.2]; rfl) rfl rfl⟩

/-- A transition after which the datagrams still wait. -/
theorem Watched.keep {tr : List (Turn α)} {t : Turn α} {r w v : List (SimTime × IPv4Datagram α)}
    (hqueued : queued a tr = r ++ w) (hreleased : r.map Prod.snd = released a tr)
    (hends : Ends a t = false) (hsrc : ∀ arp ie, t.input = .arpPacket arp ie → arp.srcIPAddress ≠ a)
    (hby : releasedBy a t = []) (hw : v = w ++ (pended a t.output).map (t.pre.now, ·))
    (hphase : Phase p a s' (unanswered a tr + requests a t.output) (lastARP a tr) v) :
    Watched p a (tr ++ [t]) s' := by
  refine ⟨r, v, ?_, ?_, ?_⟩
  · rw [queued_concat, hqueued, hw, List.append_assoc]
  · rw [released_concat, hreleased, hby, List.append_nil]
  · rwa [unanswered_concat, if_neg (Bool.eq_false_iff.1 hends), lastARP_concat hsrc]

/-- A transition after which none waits. -/
theorem Watched.release {tr : List (Turn α)} {t : Turn α} {r w : List (SimTime × IPv4Datagram α)}
    (hqueued : queued a tr = r ++ w) (hreleased : r.map Prod.snd = released a tr)
    (hends : Ends a t = true) (hpended : pended a t.output = [])
    (hby : releasedBy a t = w.map Prod.snd)
    (hphase : Phase p a s' 0 (lastARP a (tr ++ [t])) []) : Watched p a (tr ++ [t]) s' := by
  refine ⟨r ++ w, [], ?_, ?_, ?_⟩
  · rw [queued_concat, hqueued, hpended, List.map_nil]
  · rw [released_concat, List.map_append, hreleased, hby]
  · rwa [unanswered_concat, if_pos hends]

/-- **Every move keeps the record** of a next hop. -/
theorem Watched.move {tr : List (Turn α)} (hretry : 1 ≤ p.retryCount) (h : Watched p a tr s)
    (hmove : Move p a s event actions s') :
    Watched p a (tr ++ [⟨s, event, actions, s'⟩]) s' := by
  obtain ⟨r, w, hqueued, hreleased, hphase⟩ := h
  have hwaiting := hphase.waiting_eq
  cases hmove with
  | other hhop hentry hqueue hrequests hpended hnow htime =>
    obtain ⟨hby, hends, hsrc⟩ := of_hop_ne hhop actions s'
    refine .keep hqueued hreleased hends hsrc hby (v := w) (by simp [hpended]) ?_
    rw [hrequests]
    exact hphase.congr hentry hqueue hnow htime
  | @started datagram ie nextHopAddr request _ hhop hnot hrequest hnow hentry hqueue =>
    obtain ⟨hn, rfl⟩ := hphase.idle hnot
    have hpended : pended a [request, .pendDatagram datagram a] = [datagram] := by
      rw [pended_request hrequest]
      simp [pended, Action.pended?]
    have hone : requests a [request, .pendDatagram datagram a] = 1 := by
      rw [← List.singleton_append, requests_append, requests_request hrequest, if_pos rfl]
      rfl
    refine .keep hqueued hreleased rfl (by simp) rfl rfl ?_
    rw [hn, hpended, hone]
    refine .pending hentry rfl rfl (hnow.trans_le (Nat.le_add_right _ _))
      (by rw [hnow]) rfl hretry ?_ (List.cons_ne_nil _ _) ?_
    · rw [hqueue, hwaiting]
      rfl
    · intro x hx
      obtain rfl := List.mem_singleton.1 hx
      simp
  | @joined datagram ie nextHopAddr e _ hhop hfind hpending hnow hentry hqueue =>
    obtain ⟨timer, htimer, hle, hsoon, hn, hcount, -, hw, htimes⟩ :=
      hphase.of_pending hfind hpending
    have hpended : pended a [.pendDatagram datagram a] = [datagram] := by
      simp [pended, Action.pended?]
    refine .keep hqueued hreleased rfl (by simp) rfl rfl ?_
    rw [hpended]
    refine .pending hentry hpending htimer (hnow.trans_le hle) (hsoon.trans_eq (by rw [hnow]))
      hn hcount ?_ (by simp) ?_
    · rw [hqueue, hwaiting, List.map_append]
      rfl
    · intro x hx
      rcases List.mem_append.1 hx with hx | hx
      · exact htimes x hx
      · obtain rfl := List.mem_singleton.1 hx
        have hone : 1 ≤ unanswered a tr := hn ▸ Nat.le_add_left 1 _
        exact hsoon.trans (Nat.add_le_add_left (Nat.le_mul_of_pos_left _ hone) _)
  | direct hhop hfind hpending hvalid =>
    exact .keep hqueued hreleased rfl (by simp) rfl (List.append_nil _).symm hphase
  | @retried e request _ hfind htimer hlt hrequest hnow hentry hqueue =>
    have hpending := hphase.pending_of_timer hfind htimer
    obtain ⟨timer, htimer', -, -, hn, -, hsame, hw, htimes⟩ :=
      hphase.of_pending hfind hpending
    obtain rfl := Option.some.inj (htimer.symm.trans htimer')
    have hone : requests a [request] = 1 := by rw [requests_request hrequest, if_pos rfl]
    refine .keep (v := w) hqueued hreleased (by simp [Ends, hone]) (by simp) ?_ ?_ ?_
    · rw [releasedBy_timeout rfl]
      exact List.filterMap_cons_none (not_datagram_request hrequest).2
    · rw [pended_request hrequest]
      exact (List.append_nil _).symm
    · rw [hone]
      refine .pending hentry hpending rfl (hnow.trans_le (Nat.le_add_right _ _))
        (by rw [hnow]) (by rw [hn]; rfl) (by rw [hn]; exact hlt) ?_ hw ?_
      · exact hqueue.trans hsame
      · intro x hx
        rw [Nat.add_mul, Nat.one_mul, ← Nat.add_assoc]
        exact Nat.add_le_add_right (htimes x hx) _
  | @failed e _ hfind htimer hle hnow hentry hqueue =>
    refine .release hqueued hreleased (by simp [Ends, requests_map_drop]) (pended_map_drop a _)
      ?_ (.absent hentry hqueue rfl rfl)
    rw [releasedBy_timeout rfl, dropped_map_drop, hwaiting]
  | @answered arp ie e replies _ hsrc hmac hnow hentry hqueue hreplies =>
    obtain ⟨-, hpended, hsent, -⟩ := of_replies hreplies a
    refine .release hqueued hreleased (by simp [Ends, hsrc]) ?_ ?_ ?_
    · rw [pended_append, pended_map_send, hpended, List.append_nil]
    · rw [releasedBy_arpPacket rfl hsrc, List.filterMap_append, hsent, sent_map_send, hwaiting,
        List.append_nil]
    · rw [lastARP_concat_arpPacket rfl hsrc]
      exact .resolved hentry rfl rfl hmac rfl hqueue rfl rfl
  | @ignored arp ie hsrc hfind =>
    obtain ⟨hqueue, -, rfl⟩ := hphase.absent_of_find hfind
    refine .release hqueued hreleased (by simp [Ends, hsrc]) rfl ?_ (.absent hfind hqueue rfl rfl)
    rw [releasedBy_arpPacket rfl hsrc]
    rfl

theorem Watched.settled {tr : List (Turn α)} (h : ∀ a, Watched p a tr s) : s.Settled :=
  fun a e hfind hnot ↦ by
    obtain ⟨r, w, -, -, hphase⟩ := h a
    obtain ⟨htimer, hmac, -, -⟩ := hphase.of_not_pending hfind hnot
    exact ⟨htimer, hmac⟩

/-- The record of every next hop is kept in a run. -/
theorem Watched.of_run {tr : List (Turn α)} (hretry : 1 ≤ p.retryCount)
    (hrun : (system α p).Run tr s) (hvalid : ∀ t ∈ tr, t.pre.IsValid p t.input) :
    ∀ a, Watched p a tr s := by
  refine hrun.history (P := fun tr s ↦ (∀ t ∈ tr, t.pre.IsValid p t.input) →
    ∀ a, Watched p a tr s) (fun s hs _ ↦ Watched.nil hs) ?_ hvalid
  intro tr s event actions s' _ ih hstep hvalid a
  have hwatched := ih fun t ht ↦ hvalid t (List.mem_append_left _ ht)
  exact (hwatched a).move hretry (move_of_step (hvalid _ (List.mem_concat_self ..)) hstep.1
    (Watched.settled hwatched) hstep.2 a)

/-! ### What is sent and dropped -/

/-- **What a transition delivers** after a record: a datagram waits, or it is sent to the address of
the last ARP packet of its next hop, if that is not too old; an ARP packet sends to its source; a
timeout drops what waits after `retryCount` requests. -/
def Delivers (p : Params) (tr : List (Turn α)) (t : Turn α) : Prop :=
  match t.input with
  | .sendDatagram datagram ie nextHopAddr =>
    ∃ hop, t.pre.nextHopFor p datagram ie nextHopAddr = .ok hop ∧
      t.output.filterMap Action.dropped? = [] ∧
      (t.output.filterMap Action.sent? = [] ∧ pended hop t.output = [datagram] ∨
        ∃ mac time, t.output = [.sendDatagram datagram ie (some mac)] ∧
          lastARP hop tr = some (mac, time) ∧ t.pre.now ≤ time + p.cacheTimeout)
  | .arpPacket arp _ =>
    t.output.filterMap Action.dropped? = [] ∧ ∀ datagram ie mac,
      .sendDatagram datagram ie mac ∈ t.output → mac = some arp.srcMACAddress
  | .timeout nextHopAddr =>
    t.output.filterMap Action.sent? = [] ∧
      (t.output.filterMap Action.dropped? ≠ [] → unanswered nextHopAddr tr = p.retryCount)
  | _ => t.output = []

theorem delivers_of_step {tr : List (Turn α)} (hwatched : ∀ a, Watched p a tr s)
    (hvalid : s.IsValid p event) (hallows : s.Allows event)
    (h : s.step p event = .ok (s', actions)) : Delivers p tr ⟨s, event, actions, s'⟩ := by
  have hsettled := Watched.settled hwatched
  cases event with
  | sendDatagram datagram ie nextHopAddr =>
    obtain ⟨hlan, b, hnext, hbroadcast, hmulticast⟩ := hvalid
    rcases exists_of_sendDatagram hlan hnext hbroadcast hmulticast hsettled h with
      ⟨request, -, hrequest, rfl, -⟩ | ⟨e, -, -, rfl, -⟩ | ⟨e, hfind, hpending, hfresh, rfl, -⟩
    · obtain ⟨hsent, hdropped⟩ := not_datagram_request hrequest
      refine ⟨b, hnext, ?_, .inl ⟨?_, ?_⟩⟩
      · rw [List.filterMap_cons_none hdropped]
        rfl
      · rw [List.filterMap_cons_none hsent]
        rfl
      · rw [pended_request hrequest]
        simp [pended, Action.pended?]
    · exact ⟨b, hnext, rfl, .inl ⟨rfl, by simp [pended, Action.pended?]⟩⟩
    · obtain ⟨r, w, -, -, hphase⟩ := hwatched b
      obtain ⟨-, -, hlast, -⟩ := hphase.of_not_pending hfind hpending
      exact ⟨b, hnext, rfl, .inr ⟨e.macAddress, e.lastUpdate, rfl, hlast, hfresh⟩⟩
  | arpPacket arp ie =>
    rcases processARPPacket_ok ie hvalid hsettled with ⟨-, heq⟩ |
      ⟨e, replies, heq, hreplies⟩
    · obtain ⟨rfl, rfl⟩ := Prod.mk.inj (Except.ok.inj (heq.symm.trans h))
      exact ⟨rfl, fun _ _ _ hmem ↦ absurd hmem List.not_mem_nil⟩
    · obtain ⟨rfl, rfl⟩ := Prod.mk.inj (Except.ok.inj (heq.symm.trans h))
      obtain ⟨-, -, -, hdropped⟩ := of_replies hreplies arp.srcIPAddress
      refine ⟨?_, fun datagram ie' mac hmem ↦ ?_⟩
      · rw [List.filterMap_append, dropped_map_send, hdropped, List.append_nil]
      · rcases List.mem_append.1 hmem with hmem | hmem
        · obtain ⟨d, -, hsend⟩ := List.mem_map.1 hmem
          exact (Action.sendDatagram.inj hsend).2.2.symm
        · obtain ⟨arp', ie', mac', hreply, -⟩ := hreplies _ hmem
          cases hreply
  | timeout b =>
    obtain ⟨e, hfind, htimer⟩ := hallows
    obtain ⟨r, w, -, -, hphase⟩ := hwatched b
    have hpending := hphase.pending_of_timer hfind htimer
    obtain ⟨-, -, -, -, hn, hcount, -, -, -⟩ := hphase.of_pending hfind hpending
    rcases exists_of_timeout hfind h with ⟨request, -, hrequest, rfl, -⟩ | ⟨hle, rfl, -⟩
    · obtain ⟨hsent, hdropped⟩ := not_datagram_request hrequest
      exact ⟨List.filterMap_cons_none hsent,
        fun hne ↦ absurd (List.filterMap_cons_none hdropped) hne⟩
    · exact ⟨sent_map_drop _, fun _ ↦ le_antisymm hcount (hle.trans_eq hn.symm)⟩
  | pass time =>
    obtain ⟨-, rfl⟩ := Prod.mk.inj (Except.ok.inj h)
    rfl
  | configure config =>
    obtain ⟨-, rfl⟩ := Prod.mk.inj (Except.ok.inj h)
    rfl

theorem error_of_sendARPRequest {ie : ℕ} {b : IPv4Address} {error : ARPError}
    (h : s.sendARPRequest ie b = .error error) : error = .addressNotSet := by
  rw [Node.sendARPRequest] at h
  split_ifs at h
  exact (Except.error.inj h).symm

/-- **The assertion never fails**: nothing waits for a next hop whose entry is valid. -/
theorem error_of_step {tr : List (Turn α)} {error : ARPError} (hwatched : ∀ a, Watched p a tr s)
    (hvalid : s.IsValid p event) (hallows : s.Allows event)
    (h : s.step p event = .error error) : error = .addressNotSet := by
  have hsettled := Watched.settled hwatched
  cases event with
  | sendDatagram datagram ie nextHopAddr =>
    obtain ⟨hlan, b, hnext, hbroadcast, hmulticast⟩ := hvalid
    obtain ⟨r, w, -, -, hphase⟩ := hwatched b
    rw [Node.step, Node.sendDatagramToOutput, if_pos hlan, hnext, Except.bind] at h
    have hresolve : s.resolveNextHopMacAddress p b ie = s.resolveL3Address p b ie := by
      simp [Node.resolveNextHopMacAddress, hbroadcast, hmulticast]
    rw [hresolve, Node.resolveL3Address] at h
    have hstarted (h : ((s.initiateARPResolution p b ie).map (MACAddress.UNSPECIFIED_ADDRESS, ·)).bind
        (fun r ↦ r.2.1.pendOrSend datagram ie b r.1 r.2.2) = .error error) :
        error = .addressNotSet := by
      rcases hinitiate : s.initiateARPResolution p b ie with error' | r'
      · rw [hinitiate] at h
        obtain rfl := Except.error.inj h
        exact error_of_sendARPRequest (eq_error_of_map_eq_error hinitiate)
      · rw [hinitiate] at h
        cases (pendOrSend_unspecified datagram ie b r'.2).symm.trans h
    rcases Option.eq_none_or_eq_some (s.arpCache.find b) with hfind | ⟨e, hfind⟩
    · rw [hfind] at h
      exact hstarted h
    · rw [hfind] at h
      dsimp only at h
      split_ifs at h with hpending hfresh
      · cases (pendOrSend_unspecified datagram ie b []).symm.trans h
      · obtain ⟨-, hmac, -, hqueue⟩ := hphase.of_not_pending hfind (Bool.eq_false_iff.2 hpending)
        rw [Except.bind, Node.pendOrSend, if_neg hmac, hqueue] at h
        cases h
      · exact hstarted h
  | arpPacket arp ie =>
    rcases processARPPacket_ok ie hvalid hsettled with ⟨-, heq⟩ | ⟨e, replies, heq, -⟩ <;>
      cases heq.symm.trans h
  | timeout b =>
    obtain ⟨e, hfind, -⟩ := hallows
    rw [Node.step, Node.requestTimedOut, hfind] at h
    dsimp only at h
    split_ifs at h
    exact error_of_sendARPRequest (eq_error_of_map_eq_error h)
  | pass time => cases h
  | configure config => cases h

/-! ### Runs -/

/-- **No datagram is lost or stuck**. In every run, an entry is pending exactly when its timer is
scheduled; there are queues, none of them empty, only for next hops whose entries are pending; the
datagrams that were queued for a next hop have been sent or dropped in order up to those that wait,
and none waits for longer than `retryCount` timeouts; what is sent and dropped is as `Delivers`
says; and no assertion fails but that the node has an address. -/
theorem no_datagram_lost (p : Params) (hretry : 1 ≤ p.retryCount) {tr : List (Turn α)}
    {s : Node α} (hrun : (system α p).Run tr s) (hvalid : ∀ t ∈ tr, t.pre.IsValid p t.input) :
    (∀ a e, s.arpCache.find a = some e → (e.pending = true ↔ e.timer.isSome = true)) ∧
    (∀ a queue, s.pendingPackets.find a = some queue →
      queue ≠ [] ∧ ∃ e, s.arpCache.find a = some e ∧ e.pending = true) ∧
    (∀ a, ∃ r w, queued a tr = r ++ w ∧ r.map Prod.snd = released a tr ∧
      w.map Prod.snd = s.waiting a ∧
        ∀ x ∈ w, s.now ≤ x.1 + p.retryCount * p.retryTimeout) ∧
    (∀ tr₁ t tr₂, tr = tr₁ ++ t :: tr₂ → Delivers p tr₁ t) ∧
    ∀ event error, s.IsValid p event → s.Allows event → s.step p event = .error error →
      error = .addressNotSet := by
  have hwatched := Watched.of_run hretry hrun hvalid
  refine ⟨fun a e hfind ↦ ?_, fun a queue hqueue ↦ ?_, fun a ↦ ?_, fun tr₁ t tr₂ htr ↦ ?_,
    fun event error ↦ error_of_step hwatched⟩
  · obtain ⟨r, w, -, -, hphase⟩ := hwatched a
    constructor
    · intro hpending
      obtain ⟨timer, htimer, -⟩ := hphase.of_pending hfind hpending
      rw [htimer, Option.isSome_some]
    · intro hsome
      obtain ⟨timer, htimer⟩ := Option.isSome_iff_exists.1 hsome
      exact hphase.pending_of_timer hfind htimer
  · obtain ⟨r, w, -, -, ⟨-, hnone, -, -⟩ | ⟨-, -, -, -, -, hnone, -, -⟩ |
      ⟨hfind, hpending, -, -, -, -, -, hsome, hw, -⟩⟩ := hwatched a
    · simp [hnone] at hqueue
    · simp [hnone] at hqueue
    · obtain rfl := Option.some.inj (hqueue.symm.trans hsome)
      exact ⟨by simpa using hw, _, hfind, hpending⟩
  · obtain ⟨r, w, hqueued, hreleased, hphase⟩ := hwatched a
    refine ⟨r, w, hqueued, hreleased, hphase.waiting_eq.symm, fun x hx ↦ ?_⟩
    exact hphase.now_le x hx
  · obtain ⟨hvalid₁, hvalid'⟩ := List.forall_mem_append.1 (htr ▸ hvalid)
    obtain ⟨m, hrun₁, hpath⟩ := (htr ▸ hrun).split
    cases hpath with
    | cons hstep _ =>
      exact delivers_of_step (Watched.of_run hretry hrun₁ hvalid₁)
        (List.forall_mem_cons.1 hvalid').1 hstep.1 hstep.2

/-- A node with the address 10.0.0.1. -/
def firstNode : Node Unit where
  now := 0
  config :=
    { interface := fun _ ↦ ⟨true, ⟨0x0AAA00000001⟩, 0x0A000001, 0xFF000000⟩
      isLocalAddress := fun addr ↦ addr = 0x0A000001
      getInterfaceForDestAddr := fun _ ↦ none }

/-- A datagram for 10.0.0.2. -/
def firstDatagram : IPv4Datagram Unit where
  srcAddress := 0x0A000001
  destAddress := 0x0A000002
  timeToLive := 32
  identification := 0
  byteLength := 120
  encapsulatedPacket := none

/-- The reply of 10.0.0.2. -/
def firstReply : ARPPacket where
  opcode := .reply
  srcMACAddress := ⟨0x0AAA00000002⟩
  destMACAddress := ⟨0x0AAA00000001⟩
  srcIPAddress := 0x0A000002
  destIPAddress := 0x0A000001

/-- The datagram of a node that is answered after a second is sent, and the next one goes out at
once. -/
theorem no_datagram_lost_answered :
    let p : Params := ⟨1, 3, 120, false, false⟩
    let tr := TransitionSystem.transitionsOf (fun s event ↦ ((s.step p event).toOption.getD (s, [])))
      firstNode [.sendDatagram firstDatagram 0 0, .pass 1, .arpPacket firstReply 0,
        .sendDatagram firstDatagram 0 0]
    queued 0x0A000002 tr = [(0, firstDatagram)] ∧ released 0x0A000002 tr = [firstDatagram] ∧
      ∀ tr₁ t tr₂, tr = tr₁ ++ t :: tr₂ → Delivers p tr₁ t := by
  intro p tr
  refine ⟨by decide +kernel, by decide +kernel, ?_⟩
  have hrun : (system Unit p).Run tr _ :=
    TransitionSystem.Run.ofInputs (T := system Unit p)
      (C := fun s event ↦ s.Allows event ∧ (s.step p event).toOption.isSome = true)
      (fun _ _ h ↦ ⟨h.1, eq_ok_getD h.2 _⟩) ⟨rfl, rfl⟩ ?_
  · refine (no_datagram_lost p (by decide) hrun ?_).2.2.2.1
    have hsend (s : Node Unit) (hs : s.config = firstNode.config) :
        s.IsValid p (.sendDatagram firstDatagram 0 0) := by
      refine ⟨?_, 0x0A000002, ?_, ?_, by decide⟩
      · rw [Node.isIeee802Lan, hs]
        decide
      · rw [Node.nextHopFor, hs]
        decide
      · rw [Node.isBroadcastOn, hs]
        decide
    have hreply (s : Node Unit) : s.IsValid p (.arpPacket firstReply 0) :=
      ⟨by decide, by decide, by decide⟩
    simp only [tr, TransitionSystem.transitionsOf, List.forall_mem_cons]
    exact ⟨hsend _ rfl, trivial, hreply _, hsend _ rfl, List.forall_mem_nil _⟩
  · simp only [TransitionSystem.transitionsOf, List.forall_mem_cons]
    refine ⟨⟨trivial, by decide +kernel⟩, ⟨⟨by decide +kernel, fun addr e timer hfind htimer ↦ ?_⟩,
      by decide +kernel⟩, ⟨trivial, by decide +kernel⟩, ⟨trivial, by decide +kernel⟩,
      List.forall_mem_nil _⟩
    -- the only timer is that of the request
    have hentry : (OrderedMap.insert ∅ 0x0A000002 (ARPCacheEntry.started p 0 0)).find addr = some e :=
      hfind
    rw [OrderedMap.find_insert] at hentry
    split_ifs at hentry
    · obtain rfl := Option.some.inj hentry
      exact (Option.some.inj htimer).le
    · cases hentry

end Inet.ARP
