import Inet.Foundations.OrderedMap
import Inet.Foundations.TransitionSystem
import Inet.LinkLayer.MACAddress
import Inet.Ndn.Packets
import Inet.NetworkLayer.IPv4Fragmentation
import Inet.NetworkLayer.IPv4Route

/-!
# ARP

The modules `ARP` and `IPv4` of one node, as far as they send datagrams to the next hops of a LAN.
`ARP` keeps a cache entry for each next hop, and `IPv4` a queue of datagrams that wait for one; the
two are tied by signals, which are calls here. Time is part of the state of a node, and it does not
go past a scheduled timer.
-/

namespace Inet

namespace IPv4Address

/-- `isUnspecified`. -/
def isUnspecified (addr : IPv4Address) : Bool :=
  addr = 0

/-- `isMulticast`: a class D address. -/
def isMulticast (addr : IPv4Address) : Bool :=
  addr &&& 0xF0000000 = 0xE0000000

/-- `isLimitedBroadcastAddress`. -/
def isLimitedBroadcastAddress (addr : IPv4Address) : Bool :=
  addr = 0xFFFFFFFF

/-- `makeBroadcastAddress`. -/
def makeBroadcastAddress (addr netmask : IPv4Address) : IPv4Address :=
  addr ||| ~~~netmask

/-- `getDByte`: the byte `i` of the dotted form. -/
def getDByte (addr : IPv4Address) (i : ℕ) : UInt8 :=
  (addr >>> UInt32.ofNat ((3 - i) * 8)).toUInt8

end IPv4Address

namespace MACAddress

/-- `UNSPECIFIED_ADDRESS`. -/
def UNSPECIFIED_ADDRESS : MACAddress :=
  ⟨0⟩

/-- `makeMulticastAddress`, of a multicast address. -/
def makeMulticastAddress (addr : IPv4Address) : MACAddress :=
  [(0, 0x01), (1, 0x00), (2, 0x5e), (3, addr.getDByte 1 &&& 0x7f), (4, addr.getDByte 2),
    (5, addr.getDByte 3)].foldl (fun a b ↦ a.setAddressByte b.1 b.2) UNSPECIFIED_ADDRESS

end MACAddress

namespace ARP

open IPv4 (IPv4Datagram)

/-- What is used of an `InterfaceEntry` and its `IPv4InterfaceData`. -/
structure InterfaceEntry where
  isBroadcast : Bool
  macAddress : MACAddress
  ipAddress : IPv4Address
  netmask : IPv4Address

/-- The interfaces of a node by their ids, and what is asked of its routing table. -/
structure NodeConfig where
  interface : ℕ → InterfaceEntry
  isLocalAddress : IPv4Address → Bool
  getInterfaceForDestAddr : IPv4Address → Option ℕ

/-- The parameters of the modules. -/
structure Params where
  retryTimeout : SimTime
  retryCount : ℕ
  cacheTimeout : SimTime
  respondToProxyARP : Bool
  useProxyARP : Bool

/-- `ARPOpcode`. -/
inductive ARPOpcode
  | request
  | reply
  | rarpRequest
  | rarpReply
  | other (opcode : ℤ)
  deriving DecidableEq

/-- `packet ARPPacket`. -/
structure ARPPacket where
  opcode : ARPOpcode
  srcMACAddress : MACAddress
  destMACAddress : MACAddress
  srcIPAddress : IPv4Address
  destIPAddress : IPv4Address
  deriving DecidableEq

/-- `ARP::ARPCacheEntry`. The timer is the time it is scheduled for. -/
structure ARPCacheEntry where
  ie : ℕ
  pending : Bool := false
  macAddress : MACAddress := .UNSPECIFIED_ADDRESS
  lastUpdate : SimTime := 0
  numRetries : ℕ := 0
  timer : Option SimTime := none
  deriving DecidableEq

/-- The two modules of a node, and the time. -/
structure Node (α : Type) where
  now : SimTime
  config : NodeConfig
  arpCache : OrderedMap IPv4Address ARPCacheEntry := ∅
  pendingPackets : OrderedMap IPv4Address (List (IPv4Datagram α)) := ∅

/-- What a node does: an ARP packet or a datagram is sent, a datagram begins to wait for a next hop,
or a waiting datagram is deleted. -/
inductive Action (α : Type)
  | sendARP (packet : ARPPacket) (ie : ℕ) (macAddress : MACAddress)
  | sendDatagram (datagram : IPv4Datagram α) (ie : ℕ) (macAddress : Option MACAddress)
  | pendDatagram (datagram : IPv4Datagram α) (nextHopAddr : IPv4Address)
  | dropDatagram (datagram : IPv4Datagram α)
  deriving DecidableEq

/-- What is thrown. -/
inductive ARPError
  /-- `ASSERT(!myMACAddress.isUnspecified())` and `ASSERT(!myIPAddress.isUnspecified())`. -/
  | addressNotSet
  /-- `ASSERT2`: "IPv4-ARP error: nextHopAddr found in ARP table, but IPv4 queue for nextHopAddr not
  empty". -/
  | queueNotEmpty
  | noNextHopAddress
  | emptySourceMACAddress
  | emptySourceIPAddress
  | rarpNotSupported
  | unsupportedOpcode (opcode : ℤ)
  deriving DecidableEq

variable {α : Type}

namespace Node

variable (p : Params) (s : Node α)

/-! ### The signals to `IPv4` -/

/-- `IPv4::arpResolutionCompleted`. -/
def arpResolutionCompleted (l3Address : IPv4Address) (macAddress : MACAddress) (ie : ℕ) :
    Node α × List (Action α) :=
  match s.pendingPackets.find l3Address with
  | some packetQueue =>
    ({ s with pendingPackets := s.pendingPackets.erase l3Address },
      packetQueue.map (.sendDatagram · ie (some macAddress)))
  | none => (s, [])

/-- `IPv4::arpResolutionTimedOut`. -/
def arpResolutionTimedOut (l3Address : IPv4Address) : Node α × List (Action α) :=
  match s.pendingPackets.find l3Address with
  | some packetQueue =>
    ({ s with pendingPackets := s.pendingPackets.erase l3Address },
      packetQueue.map .dropDatagram)
  | none => (s, [])

/-! ### `ARP` -/

/-- `ARP::sendARPRequest`. -/
def sendARPRequest (ie : ℕ) (ipAddress : IPv4Address) : Except ARPError (Action α) :=
  let myMACAddress := (s.config.interface ie).macAddress
  let myIPAddress := (s.config.interface ie).ipAddress
  if myMACAddress = .UNSPECIFIED_ADDRESS ∨ myIPAddress.isUnspecified = true then
    .error .addressNotSet
  else
    .ok (.sendARP
      { opcode := .request
        srcMACAddress := myMACAddress
        destMACAddress := .UNSPECIFIED_ADDRESS
        srcIPAddress := myIPAddress
        destIPAddress := ipAddress } ie .BROADCAST_ADDRESS)

/-- `ARP::initiateARPResolution`, of the new or old entry for a next hop. -/
def initiateARPResolution (nextHopAddr : IPv4Address) (ie : ℕ) :
    Except ARPError (Node α × List (Action α)) :=
  let entry : ARPCacheEntry := { ie, pending := true, timer := some (s.now + p.retryTimeout) }
  (s.sendARPRequest ie nextHopAddr).map fun request ↦
    ({ s with arpCache := s.arpCache.insert nextHopAddr entry }, [request])

/-- `ARP::requestTimedOut`, of the entry for a next hop. -/
def requestTimedOut (nextHopAddr : IPv4Address) : Except ARPError (Node α × List (Action α)) :=
  match s.arpCache.find nextHopAddr with
  | none => .ok (s, [])
  | some entry =>
    if entry.numRetries + 1 < p.retryCount then
      let retried :=
        { entry with
          numRetries := entry.numRetries + 1
          timer := some (s.now + p.retryTimeout) }
      (s.sendARPRequest entry.ie nextHopAddr).map fun request ↦
        ({ s with arpCache := s.arpCache.insert nextHopAddr retried }, [request])
    else
      let (s, actions) := s.arpResolutionTimedOut nextHopAddr
      .ok ({ s with arpCache := s.arpCache.erase nextHopAddr }, actions)

/-- `ARP::addressRecognized`. -/
def addressRecognized (destAddr : IPv4Address) (ie : ℕ) : Bool :=
  if s.config.isLocalAddress destAddr then true
  else if p.respondToProxyARP then
    (s.config.getInterfaceForDestAddr destAddr).any (· ≠ ie)
  else false

/-- `ARP::updateARPCache`, of the entry for an address. -/
def updateARPCache (addr : IPv4Address) (entry : ARPCacheEntry) (macAddress : MACAddress) :
    Node α × List (Action α) :=
  let entry :=
    if entry.pending then { entry with pending := false, timer := none, numRetries := 0 } else entry
  let s := { s with
    arpCache := s.arpCache.insert addr { entry with macAddress, lastUpdate := s.now } }
  s.arpResolutionCompleted addr macAddress entry.ie

/-- The reply to an ARP request. -/
def replyTo (arp : ARPPacket) (ie : ℕ) : Action α :=
  .sendARP
    { opcode := .reply
      srcMACAddress := (s.config.interface ie).macAddress
      destMACAddress := arp.srcMACAddress
      srcIPAddress := arp.destIPAddress
      destIPAddress := arp.srcIPAddress } ie arp.srcMACAddress

/-- The part of `processARPPacket` that looks at the opcode. -/
def answer (arp : ARPPacket) (ie : ℕ) (actions : List (Action α)) :
    Except ARPError (Node α × List (Action α)) :=
  match arp.opcode with
  | .request => .ok (s, actions ++ [s.replyTo arp ie])
  | .reply => .ok (s, actions)
  | .rarpRequest | .rarpReply => .error .rarpNotSupported
  | .other opcode => .error (.unsupportedOpcode opcode)

/-- `ARP::processARPPacket`. -/
def processARPPacket (arp : ARPPacket) (ie : ℕ) : Except ARPError (Node α × List (Action α)) :=
  if arp.srcMACAddress = .UNSPECIFIED_ADDRESS then .error .emptySourceMACAddress
  else if arp.srcIPAddress.isUnspecified then .error .emptySourceIPAddress
  else
    match s.arpCache.find arp.srcIPAddress with
    | some entry =>
      let (s', actions) := s.updateARPCache arp.srcIPAddress entry arp.srcMACAddress
      if s.addressRecognized p arp.destIPAddress ie then s'.answer arp ie actions
      else .ok (s', actions)
    | none =>
      if s.addressRecognized p arp.destIPAddress ie then
        let (s', actions) := s.updateARPCache arp.srcIPAddress { ie } arp.srcMACAddress
        s'.answer arp ie actions
      else .ok (s, [])

/-- `ARP::resolveL3Address`. -/
def resolveL3Address (addr : IPv4Address) (ie : ℕ) :
    Except ARPError (MACAddress × Node α × List (Action α)) :=
  match s.arpCache.find addr with
  | none => (s.initiateARPResolution p addr ie).map (.UNSPECIFIED_ADDRESS, ·)
  | some entry =>
    if entry.pending then .ok (.UNSPECIFIED_ADDRESS, s, [])
    else if s.now ≤ entry.lastUpdate + p.cacheTimeout then .ok (entry.macAddress, s, [])
    else (s.initiateARPResolution p addr ie).map (.UNSPECIFIED_ADDRESS, ·)

/-! ### `IPv4` -/

/-- `isIeee802Lan`. -/
def isIeee802Lan (ie : ℕ) : Bool :=
  (s.config.interface ie).isBroadcast && (s.config.interface ie).macAddress ≠ .UNSPECIFIED_ADDRESS

/-- The next hop of a datagram for which there may be none. -/
def nextHopFor (datagram : IPv4Datagram α) (ie : ℕ) (nextHopAddr : IPv4Address) :
    Except ARPError IPv4Address :=
  let ipv4Data := s.config.interface ie
  if nextHopAddr.isUnspecified then
    if IPv4Address.maskedAddrAreEqual datagram.destAddress ipv4Data.ipAddress ipv4Data.netmask ∨
        p.useProxyARP = true then .ok datagram.destAddress
    else .error .noNextHopAddress
  else .ok nextHopAddr

/-- A next hop that is a broadcast address on an interface. -/
def isBroadcastOn (nextHopAddr : IPv4Address) (destIE : ℕ) : Bool :=
  let ipv4Data := s.config.interface destIE
  nextHopAddr.isLimitedBroadcastAddress ||
    nextHopAddr = ipv4Data.ipAddress.makeBroadcastAddress ipv4Data.netmask

/-- `IPv4::resolveNextHopMacAddress`. -/
def resolveNextHopMacAddress (nextHopAddr : IPv4Address) (destIE : ℕ) :
    Except ARPError (MACAddress × Node α × List (Action α)) :=
  if s.isBroadcastOn nextHopAddr destIE then .ok (.BROADCAST_ADDRESS, s, [])
  else if nextHopAddr.isMulticast then .ok (.makeMulticastAddress nextHopAddr, s, [])
  else s.resolveL3Address p nextHopAddr destIE

/-- The end of `sendDatagramToOutput`: the datagram waits, or it is sent. -/
def pendOrSend (datagram : IPv4Datagram α) (ie : ℕ) (nextHopAddr : IPv4Address)
    (nextHopMacAddr : MACAddress) (actions : List (Action α)) :
    Except ARPError (Node α × List (Action α)) :=
  if nextHopMacAddr = .UNSPECIFIED_ADDRESS then
    let packetQueue := (s.pendingPackets.find nextHopAddr).getD []
    .ok ({ s with pendingPackets := s.pendingPackets.insert nextHopAddr (packetQueue ++ [datagram]) },
      actions ++ [.pendDatagram datagram nextHopAddr])
  else if (s.pendingPackets.find nextHopAddr).isSome then .error .queueNotEmpty
  else .ok (s, actions ++ [.sendDatagram datagram ie (some nextHopMacAddr)])

/-- `IPv4::sendDatagramToOutput`. -/
def sendDatagramToOutput (datagram : IPv4Datagram α) (ie : ℕ) (nextHopAddr : IPv4Address) :
    Except ARPError (Node α × List (Action α)) :=
  if s.isIeee802Lan ie then
    (s.nextHopFor p datagram ie nextHopAddr).bind fun nextHopAddr ↦
      (s.resolveNextHopMacAddress p nextHopAddr ie).bind fun r ↦
        r.2.1.pendOrSend datagram ie nextHopAddr r.1 r.2.2
  else .ok (s, [.sendDatagram datagram ie none])

end Node

/-! ### Runs -/

/-- What happens to a node: it sends a datagram, receives an ARP packet, the timer of a cache entry
fires, time passes, or the node is configured anew. -/
inductive Event (α : Type)
  | sendDatagram (datagram : IPv4Datagram α) (ie : ℕ) (nextHopAddr : IPv4Address)
  | arpPacket (arp : ARPPacket) (ie : ℕ)
  | timeout (nextHopAddr : IPv4Address)
  | pass (time : SimTime)
  | configure (config : NodeConfig)

/-- What the node does then. -/
def Node.step (p : Params) (s : Node α) : Event α → Except ARPError (Node α × List (Action α))
  | .sendDatagram datagram ie nextHopAddr => s.sendDatagramToOutput p datagram ie nextHopAddr
  | .arpPacket arp ie => s.processARPPacket p arp ie
  | .timeout nextHopAddr => s.requestTimedOut p nextHopAddr
  | .pass time => .ok ({ s with now := time }, [])
  | .configure config => .ok ({ s with config }, [])

/-- A timer fires at the time it is scheduled for, and time does not go back or past a timer. -/
def Node.Allows (s : Node α) : Event α → Prop
  | .timeout nextHopAddr =>
    ∃ entry, s.arpCache.find nextHopAddr = some entry ∧ entry.timer = some s.now
  | .pass time =>
    s.now ≤ time ∧ ∀ addr entry timer, s.arpCache.find addr = some entry →
      entry.timer = some timer → time ≤ timer
  | _ => True

/-- The nodes of a simulation as a transition system. -/
def system (α : Type) (p : Params) : TransitionSystem (Node α) (Event α) (List (Action α)) where
  Init s := s.arpCache = ∅ ∧ s.pendingPackets = ∅
  Step s event actions s' := s.Allows event ∧ s.step p event = .ok (s', actions)

end ARP

end Inet
