import Inet.Routing.OSPFLSA

/-!
# Entries of the OSPF routing table

`RoutingTableEntry` of `ospf`, with ranges of addresses, and what destination an entry is for: a
network by its prefix, or a router.
-/

namespace Inet.OSPF

/-- `IPv4Address::ALLONES_ADDRESS`. -/
def ALLONES_ADDRESS : IPv4Address := 0xffffffff

/-- `IPv4AddressRange`. -/
structure IPv4AddressRange where
  address : IPv4Address
  mask : IPv4Address
  deriving DecidableEq

namespace IPv4AddressRange

/-- `containsRange`. -/
def containsRange (range : IPv4AddressRange) (otherAddress otherMask : IPv4Address) : Bool :=
  IPv4Address.maskedAddrAreEqual range.address otherAddress range.mask ∧ range.mask ≤ otherMask

/-- `containedByRange`. -/
def containedByRange (range : IPv4AddressRange) (otherAddress otherMask : IPv4Address) : Bool :=
  IPv4Address.maskedAddrAreEqual otherAddress range.address otherMask ∧ otherMask ≤ range.mask

end IPv4AddressRange

/-- `isSameNetwork`. -/
def isSameNetwork (address1 mask1 address2 mask2 : IPv4Address) : Bool :=
  mask1 = mask2 ∧ address1 &&& mask1 = address2 &&& mask2

/-- `NextHop`. -/
structure NextHop where
  ifIndex : ℤ
  hopAddress : IPv4Address
  advertisingRouter : IPv4Address
  deriving DecidableEq

/-- `RoutingDestinationType`, by its two bits; `NETWORK_DESTINATION` has neither. -/
structure RoutingDestinationType where
  AREA_BORDER_ROUTER_DESTINATION : Bool := false
  AS_BOUNDARY_ROUTER_DESTINATION : Bool := false
  deriving DecidableEq

/-- `NETWORK_DESTINATION`. -/
def NETWORK_DESTINATION : RoutingDestinationType := {}

/-- `RoutingPathType`. -/
inductive RoutingPathType
  | INTRAAREA
  | INTERAREA
  | TYPE1_EXTERNAL
  | TYPE2_EXTERNAL
  deriving DecidableEq

/-- `RoutingTableEntry`. The interface and the gateway of the route are those of the first next hop,
and its metric is the cost. -/
structure RoutingTableEntry where
  destination : IPv4Address
  netmask : IPv4Address := ALLONES_ADDRESS
  destinationType : RoutingDestinationType := NETWORK_DESTINATION
  optionalCapabilities : OSPFOptions := {}
  area : IPv4Address := NULL_IPV4ADDRESS
  pathType : RoutingPathType := .INTRAAREA
  cost : ℕ := 0
  linkStateOrigin : Option OSPFLSA := none
  nextHops : List NextHop := []
  deriving DecidableEq

/-- What an entry leads to. -/
inductive Destination
  | network (address mask : IPv4Address)
  | router (address : IPv4Address)
  deriving DecidableEq

namespace RoutingTableEntry

/-- The entry is for a network. -/
def IsNetwork (e : RoutingTableEntry) : Prop :=
  e.destinationType = NETWORK_DESTINATION

/-- The entry is for a border router or a boundary router. -/
def IsRouter (e : RoutingTableEntry) : Prop :=
  e.destinationType.AREA_BORDER_ROUTER_DESTINATION = true ∨
    e.destinationType.AS_BOUNDARY_ROUTER_DESTINATION = true

instance (e : RoutingTableEntry) : Decidable e.IsNetwork :=
  inferInstanceAs (Decidable (_ = _))

instance (e : RoutingTableEntry) : Decidable e.IsRouter :=
  inferInstanceAs (Decidable (_ ∨ _))

/-- The destination of an entry. -/
def leadsTo (e : RoutingTableEntry) : Destination :=
  if e.IsNetwork then .network (e.destination &&& e.netmask) e.netmask else .router e.destination

theorem isRouter_iff (e : RoutingTableEntry) : e.IsRouter ↔ ¬e.IsNetwork := by
  rw [IsRouter, IsNetwork, NETWORK_DESTINATION]
  rcases e.destinationType with ⟨_ | _, _ | _⟩ <;> simp

end RoutingTableEntry

end Inet.OSPF
