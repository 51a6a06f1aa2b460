import Inet.LinkLayer.MACAddress

/-!
# 802.11 data and management frames

A frame is a header and a length, and it may have a packet in it. In the simulation the length of a
frame counts the packet in it, and is set by hand where the frame stands for one of another length.
-/

namespace Inet

/-- The types of data and management frames that numbering and reassembly tell apart. -/
inductive Ieee80211FrameType
  | management
  | data
  | dataWithQos
  deriving DecidableEq, Repr

/-- The header of an `Ieee80211DataOrMgmtFrame`. -/
structure Ieee80211Header where
  type : Ieee80211FrameType
  receiverAddress : MACAddress
  transmitterAddress : MACAddress
  tid : UInt8 := 0
  sequenceNumber : ℕ := 0
  fragmentNumber : ℤ := 0
  moreFragments : Bool := false
  retry : Bool := false
  deriving DecidableEq

/-- `Ieee80211DataOrMgmtFrame`, with a packet of type `α` in it. -/
structure Ieee80211DataOrMgmtFrame (α : Type) extends Ieee80211Header where
  byteLength : ℤ
  encapsulatedPacket : Option α := none
  deriving DecidableEq

/-- A packet of the higher layers, known by its address. -/
structure UpperPacket where
  pointer : ℕ
  byteLength : ℕ
  deriving DecidableEq, Repr

namespace Ieee80211DataOrMgmtFrame

variable {α : Type}

/-- `encapsulate`: the length of the packet counts. -/
def encapsulate (packet : α) (packetLength : ℤ) (frame : Ieee80211DataOrMgmtFrame α) :
    Ieee80211DataOrMgmtFrame α :=
  { frame with
    byteLength := frame.byteLength + packetLength
    encapsulatedPacket := some packet }

/-- `decapsulate`: the packet, and the frame without it. A length of zero stays. There is no result
if the packet is longer than the frame. -/
def decapsulate (packetLength : α → ℤ) (frame : Ieee80211DataOrMgmtFrame α) :
    Option (Option α × Ieee80211DataOrMgmtFrame α) :=
  match frame.encapsulatedPacket with
  | none => some (none, frame)
  | some packet =>
    let byteLength :=
      if frame.byteLength > 0 then frame.byteLength - packetLength packet else frame.byteLength
    if byteLength < 0 then none
    else some (some packet, { frame with byteLength := byteLength, encapsulatedPacket := none })

end Ieee80211DataOrMgmtFrame

end Inet
