import Inet.Applications.DHCPServer
import Inet.Foundations.TransitionSystem

/-!
# Addresses are leased to one client

A lease changes hands only if a client asks for the address, in a DISCOVER or in a REQUEST: neither
is the address compared with the pool and the leases of others, nor the client with the owner of the
lease (`RespectsLeases`). Everything the server grants is either new, or a lease that it has
(`Grant`), and from this it follows what holds of a run (`exclusive_iff`).
-/

namespace Inet.DHCPServer

variable {c : DHCPServer} {leased leased' : DHCPLeased} {ip : IPv4Address} {lease lease' : DHCPLease}
  {mac : MACAddress} {packet : DHCPMessage}

/-- The addresses of the pool. -/
def InPool (c : DHCPServer) (ip : IPv4Address) : Prop :=
  ∃ i < c.maxNumOfClients, ip = c.ipAddressStart + UInt32.ofNat i

/-- An address is offered or acknowledged to a client. -/
def Grants (r : DHCPReply) (ip : IPv4Address) (mac : MACAddress) : Prop :=
  (r.message.options.messageType = .offer ∨ r.message.options.messageType = .ack) ∧
    r.message.yiaddr = ip ∧ r.message.chaddr = mac

instance (c : DHCPServer) (ip : IPv4Address) : Decidable (InPool c ip) :=
  inferInstanceAs (Decidable (∃ i < c.maxNumOfClients, ip = c.ipAddressStart + UInt32.ofNat i))

instance (r : DHCPReply) (ip : IPv4Address) (mac : MACAddress) : Decidable (Grants r ip mac) :=
  inferInstanceAs (Decidable (_ ∧ _ ∧ _))

/-- A client without a lease asks for no address, or for one of the pool that is not leased. A
client that names an address to keep it or to renew its lease names its own. -/
def RespectsLeases (c : DHCPServer) (leased : DHCPLeased) (inputInterfaceId : ℕ) (packet : DHCPMessage) :
    Prop :=
  inputInterfaceId = c.interfaceId → packet.op = .bootRequest →
    (packet.options.messageType = .discover → getLeaseByMac leased packet.chaddr = none →
      packet.options.requestedIp ≠ 0 →
        InPool c packet.options.requestedIp ∧ leased.find packet.options.requestedIp = none) ∧
    (packet.options.messageType = .request → packet.options.serverIdentifier ≠ c.ipAddress →
      ∀ lease, leased.find (if packet.ciaddr = 0 then packet.options.requestedIp else packet.ciaddr) =
        some lease → lease.mac = packet.chaddr)

instance (c : DHCPServer) (leased : DHCPLeased) (inputInterfaceId : ℕ) (packet : DHCPMessage) :
    Decidable (RespectsLeases c leased inputInterfaceId packet) :=
  inferInstanceAs (Decidable (_ → _ → (_ → _ → _ → _ ∧ _) ∧ (_ → _ → ∀ lease ∈ leased.find
    (if packet.ciaddr = 0 then packet.options.requestedIp else packet.ciaddr), lease.mac = packet.chaddr)))

/-- A lease stands under its address, and it is allocated. -/
def Allocated (leased : DHCPLeased) : Prop :=
  ∀ ip lease, leased.find ip = some lease → lease.ip = ip ∧ lease.leased = true

/-! ### What the server grants -/

theorem getLeaseByMac_eq_some (h : getLeaseByMac leased mac = some (ip, lease)) :
    leased.find ip = some lease ∧ lease.mac = mac :=
  ⟨OrderedMap.mem_entries.1 (List.mem_of_find?_eq_some h), by simpa using List.find?_some h⟩

theorem getLeaseByMac_eq_none (h : getLeaseByMac leased mac = none)
    (hfind : leased.find ip = some lease) : lease.mac ≠ mac := fun hmac ↦
  List.find?_eq_none.1 h (ip, lease) (OrderedMap.mem_entries.2 hfind) (decide_eq_true hmac)

/-- What is available of the pool has no lease yet. -/
theorem getAvailableLease_of_zero (hs : Allocated leased)
    (h : c.getAvailableLease leased 0 = some (ip, lease)) :
    leased.find ip = none ∧ InPool c ip ∧ lease.ip = ip := by
  rw [getAvailableLease, if_neg (fun h ↦ h rfl)] at h
  split at h
  · rename_i ip' hfirst
    obtain ⟨rfl, rfl⟩ := Prod.mk.inj (Option.some.inj h)
    have hnone : leased.find ip' = none := by
      have havailable := List.find?_some hfirst
      rw [isAvailable] at havailable
      rcases hfind : leased.find ip' with _ | lease
      · rfl
      · rw [hfind] at havailable
        simp [(hs _ _ hfind).2] at havailable
    obtain ⟨i, hi, rfl⟩ := List.mem_map.1 (List.mem_of_find?_eq_some hfirst)
    refine ⟨hnone, ⟨i, List.mem_range.1 hi, rfl⟩, ?_⟩
    rw [hnone]
    rfl
  · cases h

/-- What is available of the other addresses is the one that is asked for. -/
theorem getAvailableLease_of_ne {requestedAddress : IPv4Address} (hs : Allocated leased)
    (hne : requestedAddress ≠ 0) :
    c.getAvailableLease leased requestedAddress = some (requestedAddress, c.newLease requestedAddress) := by
  rw [getAvailableLease, if_pos hne]
  rcases hfind : leased.find requestedAddress with _ | lease
  · rfl
  · simp [(hs _ _ hfind).2]

/-- The ways in which an address is granted, with what the condition says of each. -/
inductive Grant (c : DHCPServer) (leased : DHCPLeased) (inputInterfaceId : ℕ) (packet : DHCPMessage)
    (r : DHCPReply) (ip : IPv4Address) (lease' : DHCPLease) : Prop
  | new (hnone : ∀ ip lease, leased.find ip = some lease → lease.mac ≠ packet.chaddr)
      (hmac : lease'.mac = packet.chaddr) (htype : r.message.options.messageType = .offer)
      (hrespects : RespectsLeases c leased inputInterfaceId packet ↔
        InPool c ip ∧ leased.find ip = none)
  | kept (lease : DHCPLease) (hfind : leased.find ip = some lease) (hmac : lease'.mac = lease.mac)
      (htype : lease.mac ≠ packet.chaddr → r.message.options.messageType = .ack)
      (hrespects : RespectsLeases c leased inputInterfaceId packet ↔ lease.mac = packet.chaddr)

/-- A message is answered by a grant, or no lease changes and nothing is granted. -/
inductive Answered (c : DHCPServer) (leased : DHCPLeased) (inputInterfaceId : ℕ) (packet : DHCPMessage) :
    DHCPLeased × List DHCPReply → Prop
  | refused (replies : List DHCPReply) (hno : ∀ r ∈ replies, ∀ ip mac, ¬ Grants r ip mac)
      (hrespects : RespectsLeases c leased inputInterfaceId packet) :
    Answered c leased inputInterfaceId packet (leased, replies)
  | granted (r : DHCPReply) (ip : IPv4Address) (lease' : DHCPLease) (hgrants : Grants r ip lease'.mac)
      (hip : lease'.ip = ip) (hleased : lease'.leased = true)
      (hgrant : Grant c leased inputInterfaceId packet r ip lease') :
    Answered c leased inputInterfaceId packet (leased.insert ip lease', [r])

theorem not_grants_sendNAK : ¬ Grants (c.sendNAK packet) ip mac := by
  rintro ⟨h | h, -⟩ <;> cases h

theorem grants_sendACK (h : lease.ip = ip) : Grants (c.sendACK lease packet) ip lease.mac :=
  ⟨.inr rfl, h, rfl⟩

theorem grants_sendOffer (h : lease.ip = ip) : Grants (c.sendOffer lease packet) ip lease.mac :=
  ⟨.inl rfl, h, rfl⟩

theorem processDiscover_answered {inputInterfaceId : ℕ} (hs : Allocated leased)
    (hinterface : inputInterfaceId = c.interfaceId) (hop : packet.op = .bootRequest)
    (htype : packet.options.messageType = .discover) :
    Answered c leased inputInterfaceId packet (c.processDiscover leased packet) := by
  have hrespects : RespectsLeases c leased inputInterfaceId packet ↔
      (getLeaseByMac leased packet.chaddr = none → packet.options.requestedIp ≠ 0 →
        InPool c packet.options.requestedIp ∧ leased.find packet.options.requestedIp = none) := by
    refine ⟨fun h ↦ (h hinterface hop).1 htype, fun h _ _ ↦ ⟨fun _ ↦ h, fun hrequest ↦ ?_⟩⟩
    cases htype.symm.trans hrequest
  rw [processDiscover]
  rcases hmac : getLeaseByMac leased packet.chaddr with _ | ⟨ip, lease⟩
  · by_cases hzero : packet.options.requestedIp = 0
    · rcases havailable : c.getAvailableLease leased packet.options.requestedIp with _ | ⟨ip, lease⟩
      · exact .refused [] (List.forall_mem_nil _) (hrespects.2 fun _ h ↦ absurd hzero h)
      · rw [hzero] at havailable
        obtain ⟨hnone, hpool, hip⟩ := getAvailableLease_of_zero hs havailable
        exact .granted _ ip _ (grants_sendOffer hip) hip rfl
          (.new (fun ip lease ↦ getLeaseByMac_eq_none hmac) rfl rfl
            (iff_of_true (hrespects.2 fun _ h ↦ absurd hzero h) ⟨hpool, hnone⟩))
    · rw [getAvailableLease_of_ne hs hzero]
      refine .granted _ _ _ (grants_sendOffer rfl) rfl rfl
        (.new (fun ip lease ↦ getLeaseByMac_eq_none hmac) rfl rfl (hrespects.trans ?_))
      exact ⟨fun h ↦ h hmac hzero, fun h _ _ ↦ h⟩
  · obtain ⟨hfind, hsame⟩ := getLeaseByMac_eq_some hmac
    obtain ⟨hip, hleased⟩ := hs _ _ hfind
    refine .granted _ ip _ (grants_sendOffer hip) hip hleased
      (.kept lease hfind rfl (fun h ↦ absurd hsame h) (iff_of_true (hrespects.2 fun h ↦ ?_) hsame))
    cases hmac.symm.trans h

/-- A confirmation of a lease that the server has. -/
theorem confirm_answered {inputInterfaceId : ℕ} (hs : Allocated leased)
    (hfind : leased.find ip = some lease)
    (hrespects : RespectsLeases c leased inputInterfaceId packet ↔ lease.mac = packet.chaddr) :
    Answered c leased inputInterfaceId packet (c.confirm leased packet ip lease) :=
  .granted _ ip _ (grants_sendACK (hs _ _ hfind).1) (hs _ _ hfind).1 rfl
    (.kept lease hfind rfl (fun _ ↦ rfl) hrespects)

theorem processRequest_answered {inputInterfaceId : ℕ} (hs : Allocated leased)
    (hinterface : inputInterfaceId = c.interfaceId) (hop : packet.op = .bootRequest)
    (htype : packet.options.messageType = .request) :
    Answered c leased inputInterfaceId packet (c.processRequest leased packet) := by
  have hrespects : RespectsLeases c leased inputInterfaceId packet ↔
      (packet.options.serverIdentifier ≠ c.ipAddress → ∀ lease, leased.find
        (if packet.ciaddr = 0 then packet.options.requestedIp else packet.ciaddr) = some lease →
          lease.mac = packet.chaddr) := by
    refine ⟨fun h ↦ (h hinterface hop).2 htype, fun h _ _ ↦ ⟨fun hdiscover ↦ ?_, fun _ ↦ h⟩⟩
    cases htype.symm.trans hdiscover
  have hnak : ∀ r ∈ [c.sendNAK packet], ∀ ip mac, ¬ Grants r ip mac :=
    List.forall_mem_singleton.2 fun _ _ ↦ not_grants_sendNAK
  rw [processRequest]
  by_cases hserver : packet.options.serverIdentifier = c.ipAddress
  · rw [if_pos hserver]
    have hok := hrespects.2 fun h ↦ absurd hserver h
    rcases hmac : getLeaseByMac leased packet.chaddr with _ | ⟨ip, lease⟩
    · exact .refused _ hnak hok
    · obtain ⟨hfind, hsame⟩ := getLeaseByMac_eq_some hmac
      by_cases hrequested : lease.ip ≠ packet.options.requestedIp
      · simp only [if_pos hrequested]
        exact .refused _ hnak hok
      · simp only [if_neg hrequested]
        exact confirm_answered hs hfind (iff_of_true hok hsame)
  · rw [if_neg hserver]
    by_cases hciaddr : packet.ciaddr = 0
    · rw [if_pos hciaddr]
      rw [if_pos hciaddr] at hrespects
      rcases hfind : leased.find packet.options.requestedIp with _ | lease
      · refine .refused [] (List.forall_mem_nil _) (hrespects.2 fun _ lease h ↦ ?_)
        cases hfind.symm.trans h
      · -- the lease stands under its address, so that the masked addresses are equal
        have hsame : IPv4Address.maskedAddrAreEqual packet.options.requestedIp lease.ip c.subnetMask :=
          decide_eq_true (by rw [(hs _ _ hfind).1, UInt32.xor_self, UInt32.zero_and])
        simp only [if_pos hsame]
        refine confirm_answered hs hfind (hrespects.trans ⟨fun h ↦ h hserver lease hfind, ?_⟩)
        intro h _ lease' hlease'
        obtain rfl := Option.some.inj (hfind.symm.trans hlease')
        exact h
    · rw [if_neg hciaddr]
      rw [if_neg hciaddr] at hrespects
      rcases hfind : leased.find packet.ciaddr with _ | lease
      · refine .refused _ hnak (hrespects.2 fun _ lease h ↦ ?_)
        cases hfind.symm.trans h
      · refine confirm_answered hs hfind (hrespects.trans ⟨fun h ↦ h hserver lease hfind, ?_⟩)
        intro h _ lease' hlease'
        obtain rfl := Option.some.inj (hfind.symm.trans hlease')
        exact h

theorem processDHCPMessage_answered (hs : Allocated leased) (inputInterfaceId : ℕ)
    (packet : DHCPMessage) : Answered c leased inputInterfaceId packet
      (c.processDHCPMessage leased inputInterfaceId packet) := by
  rw [processDHCPMessage]
  by_cases hinterface : inputInterfaceId = c.interfaceId
  · rw [if_neg (not_not.2 hinterface)]
    by_cases hop : packet.op = .bootRequest
    · rw [if_pos hop]
      split
      · rename_i htype
        exact processDiscover_answered hs hinterface hop htype
      · rename_i htype
        exact processRequest_answered hs hinterface hop htype
      · rename_i hdiscover hrequest
        exact .refused [] (List.forall_mem_nil _) fun _ _ ↦
          ⟨fun h ↦ absurd h hdiscover, fun h ↦ absurd h hrequest⟩
    · rw [if_neg hop]
      exact .refused [] (List.forall_mem_nil _) fun _ h ↦ absurd h hop
  · rw [if_pos hinterface]
    exact .refused [] (List.forall_mem_nil _) fun h ↦ absurd h hinterface

/-! ### Runs -/

/-- The leases of a server between start and stop. -/
def system (c : DHCPServer) : TransitionSystem DHCPLeased (ℕ × DHCPMessage) (List DHCPReply) where
  Init s := s = ∅
  Step s i o s' := c.processDHCPMessage s i.1 i.2 = (s', o)

variable {tr : List (Transition DHCPLeased (ℕ × DHCPMessage) (List DHCPReply))} {s s' : DHCPLeased}

/-- A client has at most one lease, an address is granted to one client only and lies in the pool,
and an ACK goes to the client that has asked for it. -/
structure Exclusive (c : DHCPServer)
    (tr : List (Transition DHCPLeased (ℕ × DHCPMessage) (List DHCPReply))) (s : DHCPLeased) : Prop where
  oneLease : ∀ ip ip' lease lease', s.find ip = some lease → s.find ip' = some lease' →
    lease.mac = lease'.mac → ip = ip'
  oneClient : ∀ t ∈ tr, ∀ t' ∈ tr, ∀ r ∈ t.output, ∀ r' ∈ t'.output, ∀ ip mac mac',
    Grants r ip mac → Grants r' ip mac' → mac = mac'
  inPool : ∀ t ∈ tr, ∀ r ∈ t.output, ∀ ip mac, Grants r ip mac → InPool c ip
  toClient : ∀ t ∈ tr, ∀ r ∈ t.output, r.message.options.messageType = .ack →
    r.message.chaddr = t.input.2.chaddr

/-- The leases are what has been granted. -/
structure Recorded (tr : List (Transition DHCPLeased (ℕ × DHCPMessage) (List DHCPReply)))
    (s : DHCPLeased) : Prop where
  allocated : Allocated s
  granted : ∀ ip lease, s.find ip = some lease → ∃ t ∈ tr, ∃ r ∈ t.output, Grants r ip lease.mac
  recorded : ∀ t ∈ tr, ∀ r ∈ t.output, ∀ ip mac, Grants r ip mac →
    ∃ lease, s.find ip = some lease ∧ lease.mac = mac

theorem Allocated.insert (hs : Allocated leased) (hip : lease'.ip = ip) (hleased : lease'.leased = true) :
    Allocated (leased.insert ip lease') := by
  intro ip₀ lease₀ hfind
  rw [OrderedMap.find_insert] at hfind
  split_ifs at hfind with heq
  · obtain rfl := Option.some.inj hfind
    exact ⟨hip.trans heq.symm, hleased⟩
  · exact hs _ _ hfind

/-- A step without a grant. -/
theorem exclusive_refused {i : ℕ × DHCPMessage} {o : List DHCPReply} (hs : Recorded tr s)
    (h : Exclusive c tr s) (hno : ∀ r ∈ o, ∀ ip mac, ¬ Grants r ip mac) :
    Exclusive c (tr ++ [⟨s, i, o, s⟩]) s ∧ Recorded (tr ++ [⟨s, i, o, s⟩]) s := by
  have hold {t : Transition DHCPLeased (ℕ × DHCPMessage) (List DHCPReply)} {r : DHCPReply} {ip mac}
      (ht : t ∈ tr ++ [⟨s, i, o, s⟩]) (hr : r ∈ t.output) (hg : Grants r ip mac) : t ∈ tr := by
    rcases List.mem_append.1 ht with ht | ht
    · exact ht
    · obtain rfl := List.mem_singleton.1 ht
      exact absurd hg (hno r hr ip mac)
  refine ⟨⟨h.oneLease, fun t ht t' ht' r hr r' hr' ip mac mac' hg hg' ↦ ?_, fun t ht r hr ip mac hg ↦ ?_,
    fun t ht r hr hack ↦ ?_⟩, ⟨hs.allocated, fun ip lease hfind ↦ ?_, fun t ht r hr ip mac hg ↦ ?_⟩⟩
  · exact h.oneClient t (hold ht hr hg) t' (hold ht' hr' hg') r hr r' hr' ip mac mac' hg hg'
  · exact h.inPool t (hold ht hr hg) r hr ip mac hg
  · exact h.toClient t (hold ht hr ⟨.inr hack, rfl, rfl⟩) r hr hack
  · obtain ⟨t, ht, hrest⟩ := hs.granted ip lease hfind
    exact ⟨t, List.mem_append_left _ ht, hrest⟩
  · exact hs.recorded t (hold ht hr hg) r hr ip mac hg

/-- A step with a grant to the client that has sent the message, of an address of the pool that is
new or that the client has. -/
theorem exclusive_granted {i : ℕ × DHCPMessage} {r : DHCPReply} (hs : Recorded tr s) (h : Exclusive c tr s)
    (hgrants : Grants r ip lease'.mac) (hip : lease'.ip = ip) (hleased : lease'.leased = true)
    (hmac : lease'.mac = i.2.chaddr) (hpool : InPool c ip)
    (hown : ∀ lease, s.find ip = some lease → lease.mac = lease'.mac)
    (hother : ∀ ip₀ lease, s.find ip₀ = some lease → lease.mac = lease'.mac → ip₀ = ip) :
    Exclusive c (tr ++ [⟨s, i, [r], s.insert ip lease'⟩]) (s.insert ip lease') ∧
      Recorded (tr ++ [⟨s, i, [r], s.insert ip lease'⟩]) (s.insert ip lease') := by
  have hrecorded : Recorded (tr ++ [⟨s, i, [r], s.insert ip lease'⟩]) (s.insert ip lease') := by
    refine ⟨hs.allocated.insert hip hleased, fun ip₀ lease₀ hfind ↦ ?_, fun t ht r₀ hr ip₀ mac hg ↦ ?_⟩
    · rw [OrderedMap.find_insert] at hfind
      split_ifs at hfind with heq
      · obtain rfl := Option.some.inj hfind
        exact ⟨_, List.mem_append_right _ (List.mem_singleton.2 rfl), r, List.mem_singleton.2 rfl,
          heq ▸ hgrants⟩
      · obtain ⟨t, ht, hrest⟩ := hs.granted _ _ hfind
        exact ⟨t, List.mem_append_left _ ht, hrest⟩
    · rw [OrderedMap.find_insert]
      rcases List.mem_append.1 ht with ht | ht
      · obtain ⟨lease₀, hfind, hmac₀⟩ := hs.recorded t ht r₀ hr ip₀ mac hg
        split_ifs with heq
        · obtain rfl := heq
          exact ⟨lease', rfl, (hown _ hfind).symm.trans hmac₀⟩
        · exact ⟨lease₀, hfind, hmac₀⟩
      · obtain rfl := List.mem_singleton.1 ht
        obtain rfl := List.mem_singleton.1 hr
        rw [if_pos (hg.2.1.symm.trans hgrants.2.1)]
        exact ⟨lease', rfl, hgrants.2.2.symm.trans hg.2.2⟩
  refine ⟨⟨fun ip₁ ip₂ lease₁ lease₂ h₁ h₂ hsame ↦ ?_, fun t ht t' ht' r₁ hr₁ r₂ hr₂ ip₀ mac mac' hg hg' ↦ ?_,
    fun t ht r₀ hr ip₀ mac hg ↦ ?_, fun t ht r₀ hr hack ↦ ?_⟩, hrecorded⟩
  · rw [OrderedMap.find_insert] at h₁ h₂
    split_ifs at h₁ h₂ with heq₁ heq₂ heq₂
    · rw [heq₁, heq₂]
    · obtain rfl := Option.some.inj h₁
      exact heq₁.trans (hother _ _ h₂ hsame.symm).symm
    · obtain rfl := Option.some.inj h₂
      exact (hother _ _ h₁ hsame).trans heq₂.symm
    · exact h.oneLease _ _ _ _ h₁ h₂ hsame
  · -- the lease that is recorded now says to whom the address has been granted
    obtain ⟨lease₁, hfind₁, rfl⟩ := hrecorded.recorded t ht r₁ hr₁ ip₀ mac hg
    obtain ⟨lease₂, hfind₂, rfl⟩ := hrecorded.recorded t' ht' r₂ hr₂ ip₀ mac' hg'
    rw [Option.some.inj (hfind₁.symm.trans hfind₂)]
  · rcases List.mem_append.1 ht with ht | ht
    · exact h.inPool t ht r₀ hr ip₀ mac hg
    · obtain rfl := List.mem_singleton.1 ht
      obtain rfl := List.mem_singleton.1 hr
      exact hgrants.2.1.symm.trans hg.2.1 ▸ hpool
  · rcases List.mem_append.1 ht with ht | ht
    · exact h.toClient t ht r₀ hr hack
    · obtain rfl := List.mem_singleton.1 ht
      obtain rfl := List.mem_singleton.1 hr
      exact hgrants.2.2.trans hmac

/-- **One step** keeps the leases exclusive exactly if its message respects them. -/
theorem exclusive_step {i : ℕ × DHCPMessage} {o : List DHCPReply} (hs : Recorded tr s)
    (h : Exclusive c tr s) (hstep : (system c).Step s i o s') :
    (Exclusive c (tr ++ [⟨s, i, o, s'⟩]) s' ↔ RespectsLeases c s i.1 i.2) ∧
      (RespectsLeases c s i.1 i.2 → Recorded (tr ++ [⟨s, i, o, s'⟩]) s') := by
  have hanswered := processDHCPMessage_answered (c := c) hs.allocated i.1 i.2
  rw [show c.processDHCPMessage s i.1 i.2 = (s', o) from hstep] at hanswered
  rcases hanswered with ⟨_, hno, hrespects⟩ | ⟨r, ip, lease', hgrants, hip, hleased, hgrant⟩
  · obtain ⟨hexclusive, hrecorded⟩ := exclusive_refused (i := i) hs h hno
    exact ⟨iff_of_true hexclusive hrespects, fun _ ↦ hrecorded⟩
  have hnew : (⟨s, i, [r], s.insert ip lease'⟩ : Transition DHCPLeased (ℕ × DHCPMessage) (List DHCPReply)) ∈
      tr ++ [⟨s, i, [r], s.insert ip lease'⟩] :=
    List.mem_append_right _ (List.mem_singleton.2 rfl)
  rcases hgrant with ⟨hnone, hmac, htype, hrespects⟩ | ⟨lease, hfind, hmac, htype, hrespects⟩
  · have hkeeps (hC : RespectsLeases c s i.1 i.2) := by
      obtain ⟨hpool, hfree⟩ := hrespects.1 hC
      exact exclusive_granted hs h hgrants hip hleased hmac hpool
        (fun lease hfind ↦ by cases hfree.symm.trans hfind)
        (fun ip₀ lease hfind hsame ↦ absurd (hsame.trans hmac) (hnone ip₀ lease hfind))
    refine ⟨⟨fun hexclusive ↦ hrespects.2 ⟨?_, ?_⟩, fun hC ↦ (hkeeps hC).1⟩, fun hC ↦ (hkeeps hC).2⟩
    · exact hexclusive.inPool _ hnew r (List.mem_singleton.2 rfl) ip _ hgrants
    · -- what has a lease has been granted before, to another client
      rcases hfind : s.find ip with _ | lease
      · rfl
      · obtain ⟨t, ht, r₀, hr, hg⟩ := hs.granted ip lease hfind
        have hsame := hexclusive.oneClient t (List.mem_append_left _ ht) _ hnew r₀ hr r
          (List.mem_singleton.2 rfl) ip _ _ hg hgrants
        exact absurd (hsame.trans hmac) (hnone ip lease hfind)
  · have hpool : InPool c ip := by
      obtain ⟨t, ht, r₀, hr, hg⟩ := hs.granted ip lease hfind
      exact h.inPool t ht r₀ hr ip _ hg
    have hkeeps (hC : RespectsLeases c s i.1 i.2) :=
      exclusive_granted hs h hgrants hip hleased (hmac.trans (hrespects.1 hC)) hpool
        (fun lease₀ hfind₀ ↦ by rw [Option.some.inj (hfind₀.symm.trans hfind), hmac])
        (fun ip₀ lease₀ hfind₀ hsame ↦ h.oneLease _ _ _ _ hfind₀ hfind (hsame.trans hmac))
    refine ⟨⟨fun hexclusive ↦ hrespects.2 ?_, fun hC ↦ (hkeeps hC).1⟩, fun hC ↦ (hkeeps hC).2⟩
    by_contra hne
    have hclient := hexclusive.toClient _ hnew r (List.mem_singleton.2 rfl) (htype hne)
    exact hne (hmac.symm.trans (hgrants.2.2.symm.trans hclient))

/-- The leases are exclusive at every point of a run exactly if every message of it respects them.
-/
theorem exclusive_iff (h : (system c).Run tr s) :
    (∀ tr₁ m, tr₁ <+: tr → (system c).Run tr₁ m → Exclusive c tr₁ m) ↔
      ∀ t ∈ tr, RespectsLeases c t.pre t.input.1 t.input.2 := by
  refine h.forall_prefix_iff_of_invariant (J := Recorded) (fun s hs ↦ ?_)
    fun tr s i o s' _ hrecorded hexclusive hstep ↦ exclusive_step hrecorded hexclusive hstep
  obtain rfl := hs
  exact ⟨⟨(fun _ _ h ↦ by cases h), (fun _ _ h ↦ by cases h), List.forall_mem_nil _⟩,
    ⟨(fun _ _ _ _ h ↦ by cases h), List.forall_mem_nil _, List.forall_mem_nil _, List.forall_mem_nil _⟩⟩

/-- A server with a pool of ten addresses from 10.0.0.10 on. -/
def tenAddresses : DHCPServer where
  interfaceId := 1
  ipAddress := 0x0a000001
  subnetMask := 0xffffff00
  gateway := 0x0a000001
  ipAddressStart := 0x0a00000a
  maxNumOfClients := 10
  leaseTime := 3600

/-- A client that is looking for a server, and may ask for an address. -/
def discoverFrom (mac : MACAddress) (requestedIp : IPv4Address) : DHCPMessage where
  op := .bootRequest
  xid := 1
  chaddr := mac
  options := { messageType := .discover, requestedIp := requestedIp }

/-- A client that wants to keep an address. -/
def rebootOf (mac : MACAddress) (requestedIp : IPv4Address) : DHCPMessage where
  op := .bootRequest
  xid := 2
  chaddr := mac
  options := { messageType := .request, requestedIp := requestedIp }

/-- What a server makes of the messages on its interface. -/
def answers (c : DHCPServer) : DHCPLeased → ℕ × DHCPMessage → DHCPLeased × List DHCPReply :=
  fun s i ↦ c.processDHCPMessage s i.1 i.2

theorem system_run (c : DHCPServer) (is : List (ℕ × DHCPMessage)) :
    (system c).Run (TransitionSystem.transitionsOf (answers c) ∅ is)
      (TransitionSystem.stateAfter (answers c) ∅ is) :=
  .ofInputs (C := fun _ _ ↦ True) (fun _ _ _ ↦ rfl) rfl fun _ _ ↦ trivial

/-- A client that gets a lease, asks again and renews its lease. -/
theorem exclusive_iff_oneClient : ∃ tr s, (system tenAddresses).Run tr s ∧ tr.length = 3 ∧
    Exclusive tenAddresses tr s := by
  have hrun := system_run tenAddresses [(1, discoverFrom ⟨1⟩ 0), (1, discoverFrom ⟨1⟩ 0x0a00000b),
    (1, rebootOf ⟨1⟩ 0x0a00000a)]
  exact ⟨_, _, hrun, rfl, (exclusive_iff hrun).2 (by decide) _ _ List.prefix_rfl hrun⟩

/-- A client is offered the address of another one, a client is sent the ACK of another one, and a
client is offered an address that is not in the pool. -/
theorem not_exclusive_requested :
    (∃ tr s, (system tenAddresses).Run tr s ∧ ∃ t ∈ tr, ∃ t' ∈ tr, ∃ r ∈ t.output, ∃ r' ∈ t'.output,
      Grants r 0x0a00000a ⟨1⟩ ∧ Grants r' 0x0a00000a ⟨2⟩) ∧
    (∃ tr s, (system tenAddresses).Run tr s ∧ ∃ t ∈ tr, ∃ r ∈ t.output,
      r.message.options.messageType = .ack ∧ t.input.2.chaddr = ⟨2⟩ ∧ r.message.chaddr = ⟨1⟩) ∧
    ∃ tr s, (system tenAddresses).Run tr s ∧ ∃ t ∈ tr, ∃ r ∈ t.output, Grants r 0x08080808 ⟨1⟩ ∧
      ¬ InPool tenAddresses 0x08080808 := by
  refine ⟨⟨_, _, system_run _ [(1, discoverFrom ⟨1⟩ 0), (1, discoverFrom ⟨2⟩ 0x0a00000a)], by decide⟩,
    ⟨_, _, system_run _ [(1, discoverFrom ⟨1⟩ 0), (1, rebootOf ⟨2⟩ 0x0a00000a)], by decide⟩,
    ⟨_, _, system_run _ [(1, discoverFrom ⟨1⟩ 0x08080808)], by decide⟩⟩

end Inet.DHCPServer
