import Inet.Common.SimTime
import Inet.LinkLayer.MACAddress

/-!
# NDN packets

The packet classes of `NdnPackets.msg`, the message fields of `cMessage` that the NDN modules read
(name, kind, arrival gate), the gates of the forwarder and simulation time.

The class of a packet and its `type` field always agree: the consumer sets 5 on an `Interest`, the
producer 6 on a `Data`, and every module that branches on `getType()` casts to that class next. So a
packet here is one of the two constructors of `Packet` and `getType` reads the constructor. The one
packet sent without a type, the prefix registration of a producer, is an `Interest` that the
forwarder recognises by its kind before it looks at the type.

Names, and the `char` arrays of the packets, are lists of bytes. `unsigned int` fields are 32-bit
words, since the encoder writes them as four bytes. The counting fields `hopCount`, `seqNo` and
`prefixLength` are natural numbers: every sender in the repository sets them to non-negative values.
-/

namespace Inet

namespace Ndn

/-- `#define INTEREST 5`. -/
def INTEREST : ℕ := 5

/-- `#define DATA 6`. -/
def DATA : ℕ := 6

/-- `#define REGISTER_PREFIX_CODE 15`: the kind of a prefix registration. -/
def REGISTER_PREFIX_CODE : ℤ := 15

/-- `#define TIMEOUT_CODE 100`: the kind of a time-out notification. -/
def TIMEOUT_CODE : ℤ := 100

/-- The input gates on which the forwarder receives packets, as `cGate::isName` and
`cGate::getIndex` see them. The gates of the tables (`pitIn`, `fibIn`, `csIn`, `xIn`) are left out:
no table module ever sends a message. -/
inductive Gate
  | upperLayerIn (index : ℕ)
  | lowerLayerIn (index : ℕ)
  deriving DecidableEq, Repr

/-- `cGate::getIndex`. -/
def Gate.index : Gate → ℕ
  | .upperLayerIn index => index
  | .lowerLayerIn index => index

/-- `packet NdnPacket`, with the fields of the message it is. -/
structure NdnPacket where
  /-- The name of the message, which is the NDN name. -/
  name : CString
  /-- The message kind. -/
  kind : ℤ := 0
  /-- The gate the message last arrived on; meaningful once it was delivered to a forwarder. -/
  arrivalGate : Gate := .upperLayerIn 0
  /-- The size given to the link layer. -/
  byteLength : ℕ := 0
  hopCount : ℕ := 0
  seqNo : ℕ := 0
  prefixLength : ℕ := 1
  flood : Bool := false
  deriving DecidableEq, Repr

/-- `packet Interest extends NdnPacket`. -/
structure Interest extends NdnPacket where
  canBePrefix : Bool := false
  mustBeFresh : Bool := false
  forwardingHint : List UInt8 := []
  nonce : List UInt8 := []
  interestLifetimeMs : UInt32 := 4000
  hopLimit : UInt32 := 256
  parameters : List UInt8 := []
  deriving DecidableEq, Repr

/-- `packet Data extends NdnPacket`. -/
structure Data extends NdnPacket where
  contentType : UInt32 := 0
  freshnessPeriod : UInt32 := 0
  finalBlockId : List UInt8 := []
  content : List UInt8 := []
  signatureType : UInt32 := 0
  keyLocator : List UInt8 := []
  deriving DecidableEq, Repr

/-- A packet of either class (`NDNPacketPtr`). -/
inductive Packet
  | interest (interest : Interest)
  | data (data : Data)
  deriving DecidableEq, Repr

namespace Packet

/-- The base part of a packet. -/
def base : Packet → NdnPacket
  | .interest i => i.toNdnPacket
  | .data d => d.toNdnPacket

/-- `getType()`. -/
def getType : Packet → ℕ
  | .interest _ => INTEREST
  | .data _ => DATA

/-- `getName()`. -/
def name (p : Packet) : CString :=
  p.base.name

/-- `getKind()`. -/
def kind (p : Packet) : ℤ :=
  p.base.kind

/-- `getArrivalGate()`. -/
def arrivalGate (p : Packet) : Gate :=
  p.base.arrivalGate

/-- The packet as it is delivered on a gate. -/
def arriveOn (p : Packet) (gate : Gate) : Packet :=
  match p with
  | .interest i => .interest { i with arrivalGate := gate }
  | .data d => .data { d with arrivalGate := gate }

@[simp] theorem name_interest (i : Interest) : (interest i).name = i.name := rfl

@[simp] theorem name_data (d : Data) : (data d).name = d.name := rfl

@[simp] theorem kind_interest (i : Interest) : (interest i).kind = i.kind := rfl

@[simp] theorem kind_data (d : Data) : (data d).kind = d.kind := rfl

@[simp] theorem arrivalGate_interest (i : Interest) : (interest i).arrivalGate = i.arrivalGate :=
  rfl

@[simp] theorem arrivalGate_data (d : Data) : (data d).arrivalGate = d.arrivalGate := rfl

@[simp] theorem getType_interest (i : Interest) : (interest i).getType = INTEREST := rfl

@[simp] theorem getType_data (d : Data) : (data d).getType = DATA := rfl

@[simp]
theorem arrivalGate_arriveOn (p : Packet) (gate : Gate) : (p.arriveOn gate).arrivalGate = gate := by
  cases p <;> rfl

@[simp]
theorem kind_arriveOn (p : Packet) (gate : Gate) : (p.arriveOn gate).kind = p.kind := by
  cases p <;> rfl

end Packet

/-- The control information of the link layer attached to a packet (`Ieee802Ctrl`). -/
structure Ieee802Ctrl where
  src : MACAddress
  dest : MACAddress
  deriving DecidableEq, Repr

end Ndn

end Inet
