import Inet.Foundations.OrderedMap
import Inet.LinkLayer.MACAddress
import Inet.NetworkLayer.IPv4Route

/-!
# A DHCP server

The server keeps its leases by address. It looks for a lease of a client by going through them,
offers a lease in reply to a DISCOVER, and confirms one in reply to a REQUEST. The time stamps of a
lease are not modelled: no function reads them.
-/

namespace Inet

/-- `DHCPMessageType`. -/
inductive DHCPMessageType
  | discover
  | offer
  | request
  | decline
  | ack
  | nak
  | release
  | inform
  deriving DecidableEq, Repr

/-- `DHCPOpcode`. -/
inductive DHCPOpcode
  | bootRequest
  | bootReply
  deriving DecidableEq, Repr

/-- `DHCPOptions`. -/
structure DHCPOptions where
  messageType : DHCPMessageType
  requestedIp : IPv4Address := 0
  subnetMask : IPv4Address := 0
  router : List IPv4Address := []
  dns : List IPv4Address := []
  serverIdentifier : IPv4Address := 0
  renewalTime : ℚ := 0
  rebindingTime : ℚ := 0
  leaseTime : ℚ := 0
  deriving DecidableEq, Repr

/-- `DHCPMessage`. -/
structure DHCPMessage where
  op : DHCPOpcode
  xid : ℤ
  broadcast : Bool := false
  ciaddr : IPv4Address := 0
  yiaddr : IPv4Address := 0
  giaddr : IPv4Address := 0
  chaddr : MACAddress
  options : DHCPOptions
  deriving DecidableEq, Repr

/-- A message that the server sends, and where to. -/
structure DHCPReply where
  message : DHCPMessage
  destAddr : IPv4Address
  deriving DecidableEq, Repr

/-- `DHCPLease`. -/
structure DHCPLease where
  xid : ℤ := -1
  ip : IPv4Address := 0
  mac : MACAddress := ⟨0⟩
  gateway : IPv4Address := 0
  subnetMask : IPv4Address := 0
  dns : IPv4Address := 0
  leased : Bool := false
  deriving DecidableEq, Repr

/-- The leases, by address. -/
abbrev DHCPLeased :=
  OrderedMap IPv4Address DHCPLease

/-- The members of a `DHCPServer` that has been started, other than the leases. -/
structure DHCPServer where
  interfaceId : ℕ
  ipAddress : IPv4Address
  subnetMask : IPv4Address
  gateway : IPv4Address
  ipAddressStart : IPv4Address
  maxNumOfClients : ℕ
  leaseTime : ℚ
  deriving DecidableEq, Repr

namespace DHCPServer

variable (c : DHCPServer)

/-- `IPv4Address::ALLONES_ADDRESS`. -/
def allOnesAddress : IPv4Address :=
  0xffffffff

/-- Where a NAK goes. -/
def nakDestAddr (msg : DHCPMessage) : IPv4Address :=
  if msg.giaddr ≠ 0 then msg.giaddr else allOnesAddress

/-- Where an offer or an ACK goes. -/
def replyDestAddr (packet : DHCPMessage) : IPv4Address :=
  if packet.giaddr ≠ 0 then packet.giaddr
  else if packet.ciaddr ≠ 0 then packet.ciaddr
  else allOnesAddress

/-- The options of an offer or an ACK. -/
def leaseOptions (messageType : DHCPMessageType) (lease : DHCPLease) : DHCPOptions where
  messageType := messageType
  subnetMask := lease.subnetMask
  router := [lease.gateway]
  dns := [lease.dns]
  serverIdentifier := c.ipAddress
  renewalTime := c.leaseTime * (1 / 2)
  rebindingTime := c.leaseTime * (7 / 8)
  leaseTime := c.leaseTime

/-- `sendNAK`. -/
def sendNAK (msg : DHCPMessage) : DHCPReply where
  message := {
    op := .bootReply
    xid := msg.xid
    broadcast := msg.broadcast
    giaddr := msg.giaddr
    chaddr := msg.chaddr
    options := { messageType := .nak, serverIdentifier := c.ipAddress } }
  destAddr := nakDestAddr msg

/-- `sendACK`. -/
def sendACK (lease : DHCPLease) (packet : DHCPMessage) : DHCPReply where
  message := {
    op := .bootReply
    xid := lease.xid
    ciaddr := lease.ip
    yiaddr := lease.ip
    chaddr := lease.mac
    options := c.leaseOptions .ack lease }
  destAddr := replyDestAddr packet

/-- `sendOffer`. -/
def sendOffer (lease : DHCPLease) (packet : DHCPMessage) : DHCPReply where
  message := {
    op := .bootReply
    xid := lease.xid
    yiaddr := lease.ip
    giaddr := lease.gateway
    chaddr := lease.mac
    options := c.leaseOptions .offer lease }
  destAddr := replyDestAddr packet

/-- `getLeaseByMac`, with the address under which the lease is kept. -/
def getLeaseByMac (leased : DHCPLeased) (mac : MACAddress) : Option (IPv4Address × DHCPLease) :=
  leased.entries.find? fun elem ↦ elem.2.mac = mac

/-- A new lease of an address. -/
def newLease (ip : IPv4Address) : DHCPLease where
  ip := ip
  gateway := c.gateway
  subnetMask := c.subnetMask

/-- An address has no lease that is allocated. -/
def isAvailable (leased : DHCPLeased) (ip : IPv4Address) : Bool :=
  match leased.find ip with
  | some lease => !lease.leased
  | none => true

/-- `getAvailableLease`, with the address under which the lease is kept. A new lease replaces the
old one. -/
def getAvailableLease (leased : DHCPLeased) (requestedAddress : IPv4Address) :
    Option (IPv4Address × DHCPLease) :=
  if requestedAddress ≠ 0 then
    match leased.find requestedAddress with
    | some lease =>
      some (requestedAddress, if lease.leased = false then lease else c.newLease requestedAddress)
    | none => some (requestedAddress, c.newLease requestedAddress)
  else
    match ((List.range c.maxNumOfClients).map fun i ↦ c.ipAddressStart + UInt32.ofNat i).find?
        (isAvailable leased) with
    | some ip => some (ip, (leased.find ip).getD (c.newLease ip))
    | none => none

/-- What is done with a DISCOVER. -/
def processDiscover (leased : DHCPLeased) (packet : DHCPMessage) : DHCPLeased × List DHCPReply :=
  match getLeaseByMac leased packet.chaddr with
  | none =>
    match c.getAvailableLease leased packet.options.requestedIp with
    | none => (leased, [])
    | some (ip, lease) =>
      let lease := { lease with mac := packet.chaddr, xid := packet.xid, leased := true }
      (leased.insert ip lease, [c.sendOffer lease packet])
  | some (ip, lease) =>
    let lease := { lease with xid := packet.xid }
    (leased.insert ip lease, [c.sendOffer lease packet])

/-- A lease is confirmed. -/
def confirm (leased : DHCPLeased) (packet : DHCPMessage) (ip : IPv4Address) (lease : DHCPLease) :
    DHCPLeased × List DHCPReply :=
  let lease := { lease with xid := packet.xid, leased := true }
  (leased.insert ip lease, [c.sendACK lease packet])

/-- What is done with a REQUEST. It follows an offer, or the client has kept an address from before,
or it renews its lease. -/
def processRequest (leased : DHCPLeased) (packet : DHCPMessage) : DHCPLeased × List DHCPReply :=
  if packet.options.serverIdentifier = c.ipAddress then
    match getLeaseByMac leased packet.chaddr with
    | some (ip, lease) =>
      if lease.ip ≠ packet.options.requestedIp then (leased, [c.sendNAK packet])
      else c.confirm leased packet ip lease
    | none => (leased, [c.sendNAK packet])
  else if packet.ciaddr = 0 then
    match leased.find packet.options.requestedIp with
    | none => (leased, [])
    | some lease =>
      if IPv4Address.maskedAddrAreEqual packet.options.requestedIp lease.ip c.subnetMask then
        c.confirm leased packet packet.options.requestedIp lease
      else (leased, [c.sendNAK packet])
  else
    match leased.find packet.ciaddr with
    | some lease => c.confirm leased packet packet.ciaddr lease
    | none => (leased, [c.sendNAK packet])

/-- `processDHCPMessage`, with the interface on which the message has come. -/
def processDHCPMessage (leased : DHCPLeased) (inputInterfaceId : ℕ) (packet : DHCPMessage) :
    DHCPLeased × List DHCPReply :=
  if inputInterfaceId ≠ c.interfaceId then (leased, [])
  else if packet.op = .bootRequest then
    match packet.options.messageType with
    | .discover => c.processDiscover leased packet
    | .request => c.processRequest leased packet
    | _ => (leased, [])
  else (leased, [])

end DHCPServer

end Inet
