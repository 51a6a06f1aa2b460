import Mathlib.Data.UInt
import Inet.NetworkLayer.IPv4Serializer
import Inet.NetworkLayer.IPv6Datagram

/-!
# The IPv6 serializer

`IPv6Serializer` writes a fixed header, the extension headers as a chain of next-header codes that
is patched while it is written, and the payload; it parses the fixed header and the payload.
`serialize_eq` says which bytes are written. They are not those of RFC 2460: the hop limit is lost
in a conversion of its byte order, the extension headers are not counted by the payload length, and
they are not parsed. So an IPv6 datagram is encoded properly only if it has none and its hop limit
is zero (`properEncoding_iff`).
-/

namespace Inet.Serializer

open IPv6 Buffer

/-- `struct ip6_hdr`. -/
structure Ip6Hdr where
  ip6_flow : UInt32
  ip6_plen : UInt16
  ip6_nxt : UInt8
  ip6_hlim : UInt8
  ip6_src : IPv6Address
  ip6_dst : IPv6Address

/-- `htons` and `ntohs`, as a conversion of numbers on a little-endian host. -/
def htons (x : UInt16) : UInt16 :=
  x <<< 8 ||| x >>> 8

/-- The bytes of an address, in network byte order. -/
def addressBytes (addr : IPv6Address) : List UInt8 :=
  bytes32 addr.d0 ++ bytes32 addr.d1 ++ bytes32 addr.d2 ++ bytes32 addr.d3

/-- `Buffer::writeIPv6Address`. -/
def Buffer.writeIPv6Address (b : Buffer) (addr : IPv6Address) : Buffer :=
  (((b.writeUint32 addr.d0).writeUint32 addr.d1).writeUint32 addr.d2).writeUint32 addr.d3

/-- `Buffer::readIPv6Address`. -/
def Buffer.readIPv6Address (b : Buffer) : IPv6Address × Buffer :=
  let (d0, b) := b.readUint32
  let (d1, b) := b.readUint32
  let (d2, b) := b.readUint32
  let (d3, b) := b.readUint32
  (⟨d0, d1, d2, d3⟩, b)

theorem writes_writeIPv6Address (addr : IPv6Address) :
    Writes (·.writeIPv6Address addr) (addressBytes addr) := by
  have h₀₁ := (writes_writeUint32 addr.d0).seq (writes_writeUint32 addr.d1)
  have h₂ := h₀₁.seq (writes_writeUint32 addr.d2)
  have h₃ := h₂.seq (writes_writeUint32 addr.d3)
  intro b hroom
  rw [addressBytes] at hroom ⊢
  show b.writeIPv6Address addr = _
  rw [writeIPv6Address]
  exact h₃ b hroom

theorem readIPv6Address_of_remaining {b : Buffer} {addr : IPv6Address} {rest : List UInt8}
    (h : b.remaining = addressBytes addr ++ rest) :
    b.readIPv6Address = (addr, b.advance 16) := by
  simp only [addressBytes, List.append_assoc] at h
  have h₄ : (b.advance 4).remaining = _ := remaining_advance h
  have h₈ : (b.advance 8).remaining = _ := remaining_advance h₄
  have h₁₂ : (b.advance 12).remaining = _ := remaining_advance h₈
  simp only [readIPv6Address, readUint32_of_remaining h, readUint32_of_remaining h₄,
    readUint32_of_remaining h₈, readUint32_of_remaining h₁₂, advance_advance, Nat.reduceAdd]

namespace Ip6Hdr

/-- The bytes of the structure. -/
def bytes (ip6h : Ip6Hdr) : List UInt8 :=
  bytes32 ip6h.ip6_flow ++ bytes16 ip6h.ip6_plen ++ [ip6h.ip6_nxt] ++
    ([ip6h.ip6_hlim] ++ addressBytes ip6h.ip6_src ++ addressBytes ip6h.ip6_dst)

/-- The structure at the position of a buffer. -/
def read (b : Buffer) : Ip6Hdr :=
  let (ip6_flow, b) := b.readUint32
  let (ip6_plen, b) := b.readUint16
  let (ip6_nxt, b) := b.readByte
  let (ip6_hlim, b) := b.readByte
  let (ip6_src, b) := b.readIPv6Address
  let (ip6_dst, _) := b.readIPv6Address
  { ip6_flow, ip6_plen, ip6_nxt, ip6_hlim, ip6_src, ip6_dst }

theorem length_bytes (ip6h : Ip6Hdr) : ip6h.bytes.length = IPv6_HEADER_BYTES :=
  rfl

/-- **The structure is read** as it is. -/
theorem read_eq {ip6h : Ip6Hdr} {b : Buffer} {rest : List UInt8}
    (h : b.remaining = ip6h.bytes ++ rest) : read b = ip6h := by
  simp only [bytes, List.append_assoc] at h
  have h₄ : (b.advance 4).remaining = _ := remaining_advance h
  have h₆ : (b.advance 6).remaining = _ := remaining_advance h₄
  have h₇ : (b.advance 7).remaining = _ := remaining_advance h₆
  have h₈ : (b.advance 8).remaining = _ := remaining_advance h₇
  have h₂₄ : (b.advance 24).remaining = _ := remaining_advance h₈
  simp only [read, readUint32_of_remaining h, readUint16_of_remaining h₄,
    readByte_of_remaining h₆, readByte_of_remaining h₇, readIPv6Address_of_remaining h₈,
    readIPv6Address_of_remaining h₂₄, advance_advance, Nat.reduceAdd]

end Ip6Hdr

/-- What stops the serialization of an IPv6 datagram. -/
inductive IPv6SerializerError
  | assertionFailed
  | castFailed
  | nullPointer
  | unknownExtensionHeader (extensionType : ℤ)
  | payload (error : IPv4SerializerError)
  deriving DecidableEq

namespace IPv6Serializer

variable {P : Type} (serializers : SerializerRegistrationList P)

/-! ### Writing -/

/-- The `ip6_hdr` structure of a datagram. The payload length is not known yet. -/
def ip6hOf (dgram : IPv6Datagram (Payload P)) : Ip6Hdr where
  ip6_flow := ((0x06 : UInt32) <<< 8 ||| dgram.trafficClass.toUInt32) <<< 20 ||| dgram.flowLabel
  ip6_plen := 0
  ip6_nxt := UInt8.ofInt dgram.transportProtocol
  ip6_hlim := (htons (UInt16.ofInt dgram.hopLimit)).toUInt8
  ip6_src := dgram.srcAddress
  ip6_dst := dgram.destAddress

/-- The `switch` over the type of an extension header. -/
def writeContents (extHdr : IPv6ExtensionHeader) (b : Buffer) : Except IPv6SerializerError Buffer :=
  let filled := b.fillNBytes (extHdr.byteLength - 2) 0
  if extHdr.extensionType = IP_PROT_IPv6EXT_HOP then
    if extHdr.contents = .hopByHopOptions then .ok filled else .error .castFailed
  else if extHdr.extensionType = IP_PROT_IPv6EXT_DEST then
    if extHdr.contents = .destinationOptions then .ok filled else .error .castFailed
  else if extHdr.extensionType = IP_PROT_IPv6EXT_ROUTING then
    match extHdr.contents with
    | .routing routingType segmentsLeft address =>
      let b := (b.writeByte routingType).writeByte segmentsLeft
      .ok ((address.foldl Buffer.writeIPv6Address b).fillNBytes 4 0)
    | _ => .error .castFailed
  else if extHdr.extensionType = IP_PROT_IPv6EXT_FRAGMENT then
    match extHdr.contents with
    | .fragment hdr =>
      if hdr.fragmentOffset &&& 7 = 0 then
        .ok ((b.writeUint16 (hdr.fragmentOffset ||| if hdr.moreFragments then 1 else 0)).writeUint32
          hdr.identification)
      else .error .assertionFailed
    | _ => .error .castFailed
  else if extHdr.extensionType = IP_PROT_IPv6EXT_AUTH then
    if extHdr.contents = .authentication then .ok filled else .error .castFailed
  else if extHdr.extensionType = IP_PROT_IPv6EXT_ESP then
    if extHdr.contents = .encapsulatingSecurityPayload then .ok filled else .error .castFailed
  else .error (.unknownExtensionHeader extHdr.extensionType)

/-- One turn of the loop over the extension headers, with the variable `nextHdrCodePos`. -/
def writeExtensionHeader (transportProtocol : ℤ) (s : Buffer × ℕ) (extHdr : IPv6ExtensionHeader) :
    Except IPv6SerializerError (Buffer × ℕ) := do
  let b := s.1.writeByteTo s.2 (UInt8.ofInt extHdr.extensionType)
  let nextHdrCodePos := b.pos
  let b := b.writeByte (UInt8.ofInt transportProtocol)
  if extHdr.byteLength % 8 ≠ 0 then throw .assertionFailed
  let b := b.writeByte (UInt8.ofInt (((extHdr.byteLength : ℤ) - 8) / 8))
  let b ← writeContents extHdr b
  if nextHdrCodePos + extHdr.byteLength ≠ b.pos then throw .assertionFailed
  return (b, nextHdrCodePos)

/-- `SerializerBase::lookupAndSerialize`, for the encapsulated packet. -/
def writePayload (dgram : IPv6Datagram (Payload P)) (b : Buffer) :
    Except IPv6SerializerError Buffer :=
  match dgram.encapsulatedPacket with
  | none => .error .assertionFailed
  | some pkt =>
    (IPv4Serializer.lookupAndSerialize serializers dgram.transportProtocol.toNat pkt b).mapError
      .payload

/-- `IPv6Serializer::serialize`. -/
def serialize (dgram : IPv6Datagram (Payload P)) (b : Buffer) :
    Except IPv6SerializerError Buffer := do
  let start := b.pos
  if b.getRemainingSize < IPv6_HEADER_BYTES then throw .nullPointer
  let b := b.writeNBytes (ip6hOf dgram).bytes
  let (b, _) ← dgram.extensionHeaders.foldlM (writeExtensionHeader dgram.transportProtocol)
    (b, start + 6)
  let encapStart := b.pos
  let b ← writePayload serializers dgram b
  return b.writeUint16To (start + 4) (UInt16.ofNat (b.pos - encapStart))

/-! ### Parsing -/

/-- The datagram with an `ip6_hdr` structure and a payload. -/
def datagramOf (ip6h : Ip6Hdr) (encapPacket : Option (Payload P)) : IPv6Datagram (Payload P) where
  srcAddress := ip6h.ip6_src
  destAddress := ip6h.ip6_dst
  trafficClass := ((ip6h.ip6_flow >>> 20) &&& 0xff).toUInt8
  flowLabel := ip6h.ip6_flow &&& 0xfffff
  hopLimit := (htons ip6h.ip6_hlim.toUInt16).toInt16.toInt
  transportProtocol := ip6h.ip6_nxt.toNat
  byteLength := IPv6_HEADER_BYTES +
    (encapPacket.map (IPv4Serializer.payloadByteLength serializers)).getD 0
  encapsulatedPacket := encapPacket

/-- The part of `deserialize` behind the structure. -/
def parsePayload (ip6h : Ip6Hdr) (b : Buffer) : IPv6Datagram (Payload P) × Buffer :=
  let packetLength := ip6h.ip6_plen.toNat
  let b := if b.buf.length < packetLength + IPv6_HEADER_BYTES then { b with errorFound := true } else b
  let (encapPacket, b) :=
    IPv4Serializer.deserializePayload serializers ip6h.ip6_nxt.toNat false packetLength b
  (datagramOf serializers ip6h encapPacket, b)

/-- `IPv6Serializer::deserialize`. -/
def deserialize (b : Buffer) :
    Except IPv6SerializerError (IPv6Datagram (Payload P) × Buffer) :=
  if b.pos ≠ 0 then .error .assertionFailed
  else if b.getRemainingSize < IPv6_HEADER_BYTES then .error .nullPointer
  else .ok (parsePayload serializers (Ip6Hdr.read b) (b.accessNBytes IPv6_HEADER_BYTES).2)

/-! ### The bytes of a packet -/

/-- A routing or a fragment header, with the length of its class. -/
def IsRoutingOrFragment (extHdr : IPv6ExtensionHeader) : Prop :=
  match extHdr.contents with
  | .routing _ _ address => extHdr.extensionType = IP_PROT_IPv6EXT_ROUTING ∧
      extHdr.byteLength = 8 + 16 * address.length
  | .fragment _ => extHdr.extensionType = IP_PROT_IPv6EXT_FRAGMENT ∧
      extHdr.byteLength = IPv6_FRAGMENT_HEADER_LENGTH
  | _ => False

/-- The offset of a fragment header is a multiple of 8 bytes. -/
def IsAligned (extHdr : IPv6ExtensionHeader) : Prop :=
  match extHdr.contents with
  | .fragment hdr => hdr.fragmentOffset &&& 7 = 0
  | _ => True

/-- The bytes of an extension header behind its length, as they are written. -/
def writtenBody (extHdr : IPv6ExtensionHeader) : List UInt8 :=
  match extHdr.contents with
  | .routing routingType segmentsLeft address =>
    [routingType] ++ [segmentsLeft] ++ address.flatMap addressBytes ++ List.replicate 4 0
  | .fragment hdr =>
    bytes16 (hdr.fragmentOffset ||| if hdr.moreFragments then 1 else 0) ++ bytes32 hdr.identification
  | _ => []

/-- The bytes of an extension header behind its length, according to RFC 2460: the reserved bytes of
a routing header stand in front of its addresses. -/
def rfcBody (extHdr : IPv6ExtensionHeader) : List UInt8 :=
  match extHdr.contents with
  | .routing routingType segmentsLeft address =>
    [routingType, segmentsLeft, 0, 0, 0, 0] ++ address.flatMap addressBytes
  | .fragment hdr =>
    bytes16 (UInt16.ofNat (hdr.fragmentOffset.toNat / 8 * 8 + hdr.moreFragments.toNat)) ++
      bytes32 hdr.identification
  | _ => []

/-- A chain of extension headers: the code of the first one, and the bytes. -/
def chain (body : IPv6ExtensionHeader → List UInt8) (transportProtocol : UInt8) :
    List IPv6ExtensionHeader → UInt8 × List UInt8
  | [] => (transportProtocol, [])
  | extHdr :: l =>
    let (next, bytes) := chain body transportProtocol l
    (UInt8.ofInt extHdr.extensionType,
      [next] ++ [UInt8.ofInt (((extHdr.byteLength : ℤ) - 8) / 8)] ++ body extHdr ++ bytes)

/-- The fixed header according to RFC 2460. -/
def rfcHdr (dgram : IPv6Datagram (Payload P)) (next : UInt8) (payloadLength : ℕ) : Ip6Hdr where
  ip6_flow := UInt32.ofNat
    (6 * 2 ^ 28 + dgram.trafficClass.toNat * 2 ^ 20 + dgram.flowLabel.toNat)
  ip6_plen := UInt16.ofNat payloadLength
  ip6_nxt := next
  ip6_hlim := UInt8.ofInt dgram.hopLimit
  ip6_src := dgram.srcAddress
  ip6_dst := dgram.destAddress

/-- **The packet of a datagram** according to RFC 2460. -/
def rfcPacket (dgram : IPv6Datagram (Payload P)) (payload : List UInt8) : List UInt8 :=
  let (next, bytes) := chain rfcBody (UInt8.ofInt dgram.transportProtocol) dgram.extensionHeaders
  (rfcHdr dgram next (lengthOf dgram.extensionHeaders + payload.length)).bytes ++ bytes ++ payload

/-- The packet of a datagram, as it is written. -/
def writtenPacket (dgram : IPv6Datagram (Payload P)) (payload : List UInt8) : List UInt8 :=
  let (next, bytes) :=
    chain writtenBody (UInt8.ofInt dgram.transportProtocol) dgram.extensionHeaders
  Ip6Hdr.bytes
    { ip6hOf dgram with ip6_plen := UInt16.ofNat payload.length, ip6_nxt := next } ++ bytes ++ payload

/-- A datagram with routing and fragment headers that have been accepted, and raw bytes of a
protocol that is not registered. -/
structure Encodable (dgram : IPv6Datagram (Payload P)) (payload : List UInt8) : Prop where
  accepted : Accepted dgram.extensionHeaders
  headers : ∀ extHdr ∈ dgram.extensionHeaders, IsRoutingOrFragment extHdr
  flowLabel : dgram.flowLabel < 2 ^ 20
  hopLimit : 0 ≤ dgram.hopLimit ∧ dgram.hopLimit < 2 ^ 8
  encapsulated : dgram.encapsulatedPacket = some (.rawPacket payload)
  notRegistered : serializers.deserialize dgram.transportProtocol.toNat = none
  length : IPv6_HEADER_BYTES + lengthOf dgram.extensionHeaders + payload.length < 2 ^ 16

variable {serializers} {dgram : IPv6Datagram (Payload P)} {payload : List UInt8} {b : Buffer}
  {extHdr : IPv6ExtensionHeader} {l : List IPv6ExtensionHeader}

theorem length_addressBytes (addr : IPv6Address) : (addressBytes addr).length = 16 :=
  rfl

theorem length_flatMap_addressBytes (address : List IPv6Address) :
    (address.flatMap addressBytes).length = 16 * address.length := by
  induction address with
  | nil => rfl
  | cons addr address ih =>
    rw [List.flatMap_cons, List.length_append, length_addressBytes, ih, List.length_cons]
    omega

theorem byteLength_mod_eight (h : IsRoutingOrFragment extHdr) : extHdr.byteLength % 8 = 0 := by
  obtain ⟨type, length, contents⟩ := extHdr
  cases contents with
  | routing routingType segmentsLeft address =>
    have hlength : length = 8 + 16 * address.length := h.2
    show length % 8 = 0
    omega
  | fragment hdr => exact congrArg (· % 8) h.2
  | _ => exact h.elim

theorem length_writtenBody (h : IsRoutingOrFragment extHdr) :
    2 + (writtenBody extHdr).length = extHdr.byteLength := by
  obtain ⟨type, length, contents⟩ := extHdr
  cases contents with
  | routing routingType segmentsLeft address =>
    have hlength : length = 8 + 16 * address.length := h.2
    simp only [writtenBody, List.length_append, List.length_singleton, List.length_replicate,
      length_flatMap_addressBytes, hlength]
    omega
  | fragment hdr => exact h.2.symm
  | _ => exact h.elim

/-- **What is written of a header** behind its length. -/
theorem writeContents_eq (h : IsRoutingOrFragment extHdr) (haligned : IsAligned extHdr)
    (hroom : b.HasRoom (writtenBody extHdr).length) :
    writeContents extHdr b = .ok (b.put (writtenBody extHdr)) := by
  obtain ⟨type, length, contents⟩ := extHdr
  cases contents with
  | routing routingType segmentsLeft address =>
    obtain ⟨rfl, -⟩ := h
    have hhead := (writes_writeByte routingType).seq (writes_writeByte segmentsLeft)
    have haddresses := hhead.seq (writes_foldl writes_writeIPv6Address address)
    have hfill : Writes (·.fillNBytes 4 0) (List.replicate 4 0) :=
      fun b hroom ↦ writeNBytes_eq_put hroom
    exact congrArg Except.ok (haddresses.seq hfill b hroom)
  | fragment hdr =>
    obtain ⟨rfl, -⟩ := h
    have hwrites := (writes_writeUint16
      (hdr.fragmentOffset ||| if hdr.moreFragments then 1 else 0)).seq
        (writes_writeUint32 hdr.identification)
    rw [IsAligned] at haligned
    simp only [writeContents, if_pos haligned]
    exact congrArg Except.ok (hwrites b hroom)
  | _ => exact h.elim

/-- A header with its two first bytes. -/
theorem writeHeader_eq (h : IsRoutingOrFragment extHdr) (haligned : IsAligned extHdr)
    (hroom : b.HasRoom extHdr.byteLength) (x y : UInt8) :
    writeContents extHdr ((b.writeByte x).writeByte y) =
      .ok (b.put ([x] ++ [y] ++ writtenBody extHdr)) := by
  rw [← length_writtenBody h] at hroom
  have hhead : (b.writeByte x).writeByte y = b.put ([x] ++ [y]) :=
    (writes_writeByte x).seq (writes_writeByte y) b (hroom.mono (Nat.le_add_right _ _))
  have hbehind : (b.put ([x] ++ [y])).HasRoom (writtenBody extHdr).length := hasRoom_put hroom
  rw [hhead, writeContents_eq h haligned hbehind, put_put hroom]

/-- **One turn of the loop** patches the last next-header code, and writes a header that ends the
chain. -/
theorem writeExtensionHeader_eq (h : IsRoutingOrFragment extHdr) (haligned : IsAligned extHdr)
    (tp : ℤ) (code : UInt8) {front mid : List UInt8}
    (hroom : b.HasRoom (front.length + 1 + mid.length + extHdr.byteLength)) :
    writeExtensionHeader tp (b.put (front ++ [code] ++ mid), b.pos + front.length) extHdr =
      .ok (b.put (front ++ [UInt8.ofInt extHdr.extensionType] ++ mid ++ ([UInt8.ofInt tp] ++
          [UInt8.ofInt (((extHdr.byteLength : ℤ) - 8) / 8)] ++ writtenBody extHdr)),
        b.pos + (front ++ [UInt8.ofInt extHdr.extensionType] ++ mid).length) := by
  have hlength := length_writtenBody h
  have hpatch := writeByteTo_put (hroom.mono (Nat.le_add_right _ _)) code
    (UInt8.ofInt extHdr.extensionType)
  generalize hpatched : front ++ [UInt8.ofInt extHdr.extensionType] ++ mid = patched at hpatch ⊢
  have hroom' : b.HasRoom (patched.length + extHdr.byteLength) := by
    rw [← hpatched, List.length_append, List.length_append, List.length_singleton]
    exact hroom
  have hwrite := writeHeader_eq h haligned (hasRoom_put hroom') (UInt8.ofInt tp)
    (UInt8.ofInt (((extHdr.byteLength : ℤ) - 8) / 8))
  generalize hbytes : [UInt8.ofInt tp] ++ [UInt8.ofInt (((extHdr.byteLength : ℤ) - 8) / 8)] ++
    writtenBody extHdr = bytes at hwrite ⊢
  have hlength' : bytes.length = extHdr.byteLength := by
    rw [← hbytes, List.length_append, ← hlength]
    rfl
  rw [← hlength'] at hroom'
  rw [put_put hroom'] at hwrite
  have hpos : (b.put patched).pos + extHdr.byteLength = (b.put (patched ++ bytes)).pos := by
    rw [pos_put, pos_put, List.length_append, hlength', Nat.add_assoc]
  simp only [writeExtensionHeader, hpatch, byteLength_mod_eight h, hwrite, bind, Except.bind, hpos]
  rw [if_neg (not_not.2 rfl), if_neg (not_not.2 rfl)]
  rfl

/-- **The loop** writes the chain of the headers. -/
theorem writeExtensionHeaders_eq (h : ∀ extHdr ∈ l, IsRoutingOrFragment extHdr)
    (haligned : ∀ extHdr ∈ l, IsAligned extHdr) (tp : ℤ) (front mid : List UInt8)
    (hroom : b.HasRoom (front.length + 1 + mid.length + lengthOf l)) :
    ∃ pos, l.foldlM (writeExtensionHeader tp)
        (b.put (front ++ [UInt8.ofInt tp] ++ mid), b.pos + front.length) =
      .ok (b.put (front ++ [(chain writtenBody (UInt8.ofInt tp) l).1] ++ mid ++
        (chain writtenBody (UInt8.ofInt tp) l).2), pos) := by
  induction l generalizing front mid with
  | nil =>
    rw [chain, List.append_nil]
    exact ⟨_, rfl⟩
  | cons extHdr l ih =>
    rw [List.forall_mem_cons] at h haligned
    rw [lengthOf, List.map_cons, List.sum_cons, ← Nat.add_assoc] at hroom
    have hlength := length_writtenBody h.1
    -- the header that has been written becomes the front, up to its own next-header code
    have hturn := writeExtensionHeader_eq h.1 haligned.1 tp (UInt8.ofInt tp)
      (hroom.mono (Nat.le_add_right _ _))
    obtain ⟨pos, hrest⟩ := ih h.2 haligned.2
      (front ++ [UInt8.ofInt extHdr.extensionType] ++ mid)
      ([UInt8.ofInt (((extHdr.byteLength : ℤ) - 8) / 8)] ++ writtenBody extHdr)
      (hroom.mono (by simp [lengthOf]; omega))
    refine ⟨pos, ?_⟩
    rw [List.foldlM_cons, hturn, chain]
    simp only [List.append_assoc, bind, Except.bind] at hrest ⊢
    exact hrest

variable (serializers) in
/-- Raw bytes that are written to what remains of a buffer. -/
theorem writePayload_eq (h : dgram.encapsulatedPacket = some (.rawPacket payload))
    (hroom : b.HasRoom payload.length) :
    writePayload serializers dgram b = .ok (b.put payload) := by
  have hle : payload.length ≤ b.getRemainingSize := by
    rw [HasRoom] at hroom
    rw [getRemainingSize]
    omega
  have hremaining : b.HasRoom b.getRemainingSize := by
    rw [HasRoom] at hroom ⊢
    rw [getRemainingSize]
    omega
  have hbytes : IPv4Serializer.serializeBytes payload (b.sub b.getRemainingSize) =
      (b.sub b.getRemainingSize).put payload := by
    refine IPv4Serializer.serializeBytes_eq payload ?_
    rw [HasRoom, IPv4Serializer.length_sub hremaining]
    exact (Nat.zero_add _).trans_le hle
  rw [writePayload, h]
  simp only [IPv4Serializer.lookupAndSerialize, hbytes, IPv4Serializer.join_put hremaining hle]
  rfl

theorem length_chain (h : ∀ extHdr ∈ l, IsRoutingOrFragment extHdr) (tp : UInt8) :
    (chain writtenBody tp l).2.length = lengthOf l := by
  induction l with
  | nil => rfl
  | cons extHdr l ih =>
    rw [List.forall_mem_cons] at h
    have hlength := length_writtenBody h.1
    rw [chain, lengthOf, List.map_cons, List.sum_cons]
    simp only [List.length_append, List.length_singleton, ih h.2, ← hlength]
    rfl

/-- **What is written** of a datagram. -/
theorem serialize_eq (h : Encodable serializers dgram payload)
    (haligned : ∀ extHdr ∈ dgram.extensionHeaders, IsAligned extHdr)
    (hroom : b.HasRoom (IPv6_HEADER_BYTES + lengthOf dgram.extensionHeaders + payload.length)) :
    serialize serializers dgram b = .ok (b.put (writtenPacket dgram payload)) := by
  have hsize : ¬b.getRemainingSize < IPv6_HEADER_BYTES := by
    rw [HasRoom] at hroom
    rw [getRemainingSize]
    omega
  let flow := bytes32 (ip6hOf dgram).ip6_flow
  let mid := [(ip6hOf dgram).ip6_hlim] ++ addressBytes dgram.srcAddress ++
    addressBytes dgram.destAddress
  have hheader : b.writeNBytes (ip6hOf dgram).bytes =
      b.put (flow ++ [0, 0] ++ [UInt8.ofInt dgram.transportProtocol] ++ mid) := by
    have hzero : bytes16 0 = [0, 0] := by decide
    rw [writeNBytes_eq_put ((hroom.mono (Nat.le_add_right _ _)).mono (Nat.le_add_right _ _)),
      ← hzero]
    rfl
  obtain ⟨pos, hloop⟩ := writeExtensionHeaders_eq h.headers haligned dgram.transportProtocol
    (flow ++ [0, 0]) mid (hroom.mono (Nat.le_add_right _ _))
  have hsix : (flow ++ [0, 0]).length = 6 := rfl
  rw [hsix] at hloop
  have hchain := length_chain h.headers (UInt8.ofInt dgram.transportProtocol)
  rw [writtenPacket]
  generalize chain writtenBody (UInt8.ofInt dgram.transportProtocol) dgram.extensionHeaders =
    codes at hloop hchain ⊢
  have hwritten : (flow ++ [0, 0] ++ [codes.1] ++ mid ++ codes.2).length =
      IPv6_HEADER_BYTES + lengthOf dgram.extensionHeaders := by
    rw [List.length_append, hchain]
    rfl
  rw [← hwritten] at hroom
  have hpayload := writePayload_eq serializers h.encapsulated (hasRoom_put hroom)
  rw [put_put hroom] at hpayload
  have hroom' : b.HasRoom (flow.length + 2 + ([codes.1] ++ mid ++ codes.2 ++ payload).length) :=
    hroom.mono (by simp; omega)
  have hlength := writeUint16To_put hroom' 0 0 (UInt16.ofNat payload.length)
  simp only [List.append_assoc] at hlength hpayload hloop hheader ⊢
  have hwidth : (b.put (flow ++ ([0, 0] ++ ([codes.1] ++ (mid ++ (codes.2 ++ payload)))))).pos -
      (b.put (flow ++ ([0, 0] ++ ([codes.1] ++ (mid ++ codes.2))))).pos = payload.length := by
    simp only [pos_put, List.length_append]
    omega
  simp only [serialize, if_neg hsize, hheader, bind, Except.bind, hloop, hpayload, hwidth]
  refine congrArg Except.ok (hlength.trans ?_)
  simp only [Ip6Hdr.bytes, List.append_assoc]
  rfl

/-! ### What is parsed -/

/-- The version, the traffic class and the flow label share a number. -/
theorem toNat_flowinfo (trafficClass : UInt8) {flowLabel : UInt32} (h : flowLabel < 2 ^ 20) :
    (((0x06 : UInt32) <<< 8 ||| trafficClass.toUInt32) <<< 20 ||| flowLabel).toNat =
      6 * 2 ^ 28 + trafficClass.toNat * 2 ^ 20 + flowLabel.toNat := by
  have hclass := trafficClass.toNat_lt
  have hlabel : flowLabel.toNat < 2 ^ 20 := h
  have hsix : 6 * 2 ^ 8 ||| trafficClass.toNat = 6 * 2 ^ 8 + trafficClass.toNat := by
    rw [Nat.mul_comm, Nat.two_pow_add_eq_or_of_lt hclass]
  rw [UInt32.toNat_or, UInt32.toNat_shiftLeft, UInt32.toNat_or, UInt8.toNat_toUInt32]
  have hhigh : ((0x06 : UInt32) <<< 8).toNat = 6 * 2 ^ 8 := by decide
  have htwenty : (20 : UInt32).toNat % 32 = 20 := by decide
  rw [hhigh, hsix, htwenty, Nat.shiftLeft_eq, Nat.mod_eq_of_lt (by omega), Nat.mul_comm,
    ← Nat.two_pow_add_eq_or_of_lt hlabel]
  omega

theorem trafficClass_of_flowinfo {flow : UInt32} {trafficClass : UInt8} {flowLabel : ℕ}
    (h : flowLabel < 2 ^ 20)
    (hflow : flow.toNat = 6 * 2 ^ 28 + trafficClass.toNat * 2 ^ 20 + flowLabel) :
    ((flow >>> 20) &&& 0xff).toUInt8 = trafficClass := by
  have hclass := trafficClass.toNat_lt
  rw [← UInt8.toNat_inj, UInt32.toNat_toUInt8, UInt32.toNat_and, UInt32.toNat_shiftRight]
  have htwenty : (20 : UInt32).toNat % 32 = 20 := by decide
  have hmask : (0xff : UInt32).toNat = 2 ^ 8 - 1 := by decide
  rw [htwenty, hmask, Nat.and_two_pow_sub_one_eq_mod, Nat.shiftRight_eq_div_pow, hflow]
  omega

theorem flowLabel_of_flowinfo {flow flowLabel : UInt32} {n : ℕ} (h : flowLabel.toNat < 2 ^ 20)
    (hflow : flow.toNat = n * 2 ^ 20 + flowLabel.toNat) : flow &&& 0xfffff = flowLabel := by
  have hmask : (0xfffff : UInt32).toNat = 2 ^ 20 - 1 := by decide
  rw [← UInt32.toNat_inj, UInt32.toNat_and, hmask, Nat.and_two_pow_sub_one_eq_mod, hflow]
  omega

theorem toInt_htons_iff {h : ℤ} (hrange : 0 ≤ h ∧ h < 2 ^ 8) :
    (htons (UInt8.ofInt h).toUInt16).toInt16.toInt = h ↔ h = 0 := by
  obtain ⟨n, rfl⟩ := Int.eq_ofNat_of_zero_le hrange.1
  have hall : ∀ n : Fin 256, (htons (UInt8.ofInt n).toUInt16).toInt16.toInt = n ↔ (n : ℤ) = 0 := by
    decide +kernel
  exact hall ⟨n, by omega⟩

/-- The extension headers are never parsed. -/
theorem exists_of_deserialize {d : IPv6Datagram (Payload P)} {b' : Buffer}
    (h : deserialize serializers b = .ok (d, b')) :
    ∃ pkt, d = datagramOf serializers (Ip6Hdr.read b) pkt := by
  rw [deserialize] at h
  split_ifs at h
  exact ⟨_, (congrArg Prod.fst (Except.ok.inj h)).symm⟩

/-- **What is parsed** of a header and a payload of the length that it says. -/
theorem deserialize_eq (ip6h : Ip6Hdr) (hlength : ip6h.ip6_plen.toNat = payload.length)
    (hnone : serializers.deserialize ip6h.ip6_nxt.toNat = none) :
    ∃ b', deserialize serializers { buf := ip6h.bytes ++ payload } =
        .ok (datagramOf serializers ip6h (if payload = [] then none else some (.rawPacket payload)),
          b') ∧ b'.errorFound = false := by
  let b : Buffer := { buf := ip6h.bytes ++ payload, pos := IPv6_HEADER_BYTES }
  have hread : Ip6Hdr.read { buf := ip6h.bytes ++ payload } = ip6h := Ip6Hdr.read_eq rfl
  have htotal : (ip6h.bytes ++ payload).length = IPv6_HEADER_BYTES + payload.length := by
    rw [List.length_append, Ip6Hdr.length_bytes]
  have hsize : ¬Buffer.getRemainingSize { buf := ip6h.bytes ++ payload } < IPv6_HEADER_BYTES := by
    rw [getRemainingSize, htotal]
    exact (Nat.le_add_right _ _).not_gt
  have haccess : (Buffer.accessNBytes { buf := ip6h.bytes ++ payload } IPv6_HEADER_BYTES).2 = b := by
    rw [accessNBytes, if_pos (by rw [htotal]; exact Nat.le_add_right _ _)]
    rfl
  have hfits : ¬b.buf.length < payload.length + IPv6_HEADER_BYTES := by
    rw [htotal]
    omega
  have hremaining : b.remaining = payload := List.drop_left' (Ip6Hdr.length_bytes ip6h)
  have hpayload := IPv4Serializer.deserializePayload_eq hnone hremaining (by
    rw [IPv4Serializer.InBounds, htotal]
    exact Nat.le_add_right _ _)
  refine ⟨b.advance payload.length, ?_, rfl⟩
  rw [deserialize, if_neg (not_not.2 rfl), if_neg hsize, hread, haccess, parsePayload]
  simp only [hlength, if_neg hfits, hpayload]

/-- The bytes of a payload. -/
def payloadBytes : Option (Payload P) → Option (List UInt8)
  | none => some []
  | some (.rawPacket bytes) => some bytes
  | some (.packet _) => none

/-- A datagram that carries what another one does. -/
structure IsCopy (d dgram : IPv6Datagram (Payload P)) : Prop where
  trafficClass : d.trafficClass = dgram.trafficClass
  flowLabel : d.flowLabel = dgram.flowLabel
  hopLimit : d.hopLimit = dgram.hopLimit
  srcAddress : d.srcAddress = dgram.srcAddress
  destAddress : d.destAddress = dgram.destAddress
  transportProtocol : d.transportProtocol = dgram.transportProtocol
  extensionHeaders : d.extensionHeaders = dgram.extensionHeaders
  payload : payloadBytes d.encapsulatedPacket = payloadBytes dgram.encapsulatedPacket

variable (serializers) in
/-- **The serialization is a proper encoding** of a datagram: in every buffer with room for it, the
packet of the datagram is written, and it is parsed as the datagram. -/
def ProperEncoding (dgram : IPv6Datagram (Payload P)) (payload : List UInt8) : Prop :=
  ∀ b : Buffer, b.pos = 0 →
    b.HasRoom (IPv6_HEADER_BYTES + lengthOf dgram.extensionHeaders + payload.length) →
    ∃ b', serialize serializers dgram b = .ok b' ∧ b'.errorFound = b.errorFound ∧
      b'.buf.take b'.pos = rfcPacket dgram payload ∧
      ∃ d b'', deserialize serializers { buf := b'.buf.take b'.pos } = .ok (d, b'') ∧
        b''.errorFound = false ∧ IsCopy d dgram

/-- There are no extension headers, the hop limit is zero, and the protocol has a number of a byte.
-/
structure Faithful (dgram : IPv6Datagram (Payload P)) : Prop where
  extensionHeaders : dgram.extensionHeaders = []
  hopLimit : dgram.hopLimit = 0
  transportProtocol : 0 ≤ dgram.transportProtocol ∧ dgram.transportProtocol < 2 ^ 8

theorem rfcPacket_of_nil (h : dgram.extensionHeaders = []) (payload : List UInt8) :
    rfcPacket dgram payload =
      (rfcHdr dgram (UInt8.ofInt dgram.transportProtocol) payload.length).bytes ++ payload := by
  simp [rfcPacket, h, chain, lengthOf]

/-- Bytes of a number that is one. -/
theorem ofInt_toNat_iff {n : ℤ} : ((UInt8.ofInt n).toNat : ℤ) = n ↔ 0 ≤ n ∧ n < 2 ^ 8 := by
  have hvalue : ((UInt8.ofInt n).toNat : ℤ) = n % 2 ^ 8 := by
    rw [UInt8.ofInt, UInt8.toNat_ofNat', Int.natCast_mod]
    omega
  rw [hvalue]
  omega

/-- **An encoding that is proper** is that of a faithful datagram. -/
theorem Encodable.faithful (h : Encodable serializers dgram payload)
    (hproper : ProperEncoding serializers dgram payload) : Faithful dgram := by
  obtain ⟨b', -, -, hbytes, d, b'', hparsed, -, hcopy⟩ := hproper
    { buf := List.replicate
        (IPv6_HEADER_BYTES + lengthOf dgram.extensionHeaders + payload.length) 0 } rfl
    (by rw [HasRoom, List.length_replicate]; exact (Nat.zero_add _).le)
  rw [hbytes] at hparsed
  obtain ⟨pkt, rfl⟩ := exists_of_deserialize hparsed
  have hnil : dgram.extensionHeaders = [] := hcopy.extensionHeaders.symm
  have hread := Ip6Hdr.read_eq (b := { buf := rfcPacket dgram payload })
    (rfcPacket_of_nil hnil payload)
  have hhop := hcopy.hopLimit
  have htransport := hcopy.transportProtocol
  rw [datagramOf, hread] at hhop htransport
  exact ⟨hnil, (toInt_htons_iff h.hopLimit).1 hhop, ofInt_toNat_iff.1 htransport⟩

/-- The fixed header has the fields of a faithful datagram. -/
theorem Faithful.isCopy (hfaithful : Faithful dgram) (h : Encodable serializers dgram payload) :
    IsCopy (datagramOf serializers
      (rfcHdr dgram (UInt8.ofInt dgram.transportProtocol) payload.length)
        (if payload = [] then none else some (.rawPacket payload))) dgram := by
  obtain ⟨hnil, hhop, hprotocol⟩ := hfaithful
  have hlabel : dgram.flowLabel.toNat < 2 ^ 20 := h.flowLabel
  have hclass := dgram.trafficClass.toNat_lt
  have hflow : (rfcHdr dgram (UInt8.ofInt dgram.transportProtocol) payload.length).ip6_flow.toNat =
      6 * 2 ^ 28 + dgram.trafficClass.toNat * 2 ^ 20 + dgram.flowLabel.toNat :=
    UInt32.toNat_ofNat_of_lt' (by rw [UInt32.size]; omega)
  have hparts : 6 * 2 ^ 28 + dgram.trafficClass.toNat * 2 ^ 20 + dgram.flowLabel.toNat =
      (6 * 2 ^ 8 + dgram.trafficClass.toNat) * 2 ^ 20 + dgram.flowLabel.toNat := by omega
  exact
    { trafficClass := trafficClass_of_flowinfo hlabel hflow
      flowLabel := flowLabel_of_flowinfo hlabel (hflow.trans hparts)
      hopLimit := (toInt_htons_iff h.hopLimit).2 hhop
      srcAddress := by rw [datagramOf, rfcHdr]
      destAddress := by rw [datagramOf, rfcHdr]
      transportProtocol := ofInt_toNat_iff.2 hprotocol
      extensionHeaders := hnil.symm
      payload := by
        rw [h.encapsulated, datagramOf]
        show payloadBytes (if payload = [] then _ else _) = _
        split_ifs with hempty
        · rw [hempty]
          rfl
        · rfl }

/-- **A faithful datagram** is encoded properly. -/
theorem Faithful.properEncoding (hfaithful : Faithful dgram)
    (h : Encodable serializers dgram payload) : ProperEncoding serializers dgram payload := by
  have hnil := hfaithful.extensionHeaders
  have hhop := hfaithful.hopLimit
  have hnumber := ofInt_toNat_iff.2 hfaithful.transportProtocol
  have hsize := h.length
  intro b hpos hroom
  have hserialize := serialize_eq h (by rw [hnil]; exact List.forall_mem_nil _) hroom
  have hpacket : writtenPacket dgram payload = rfcPacket dgram payload := by
    have hflow := toNat_flowinfo dgram.trafficClass h.flowLabel
    rw [rfcPacket_of_nil hnil, writtenPacket, hnil, rfcHdr, ← hflow, UInt32.ofNat_toNat, hhop]
    simp only [chain, List.append_nil, ip6hOf, hhop]
    rfl
  have hwritten : (b.put (writtenPacket dgram payload)).buf.take
      (b.put (writtenPacket dgram payload)).pos = rfcPacket dgram payload := by
    rw [put, hpos, Nat.zero_add, List.take_zero, List.nil_append, List.take_left', hpacket]
    rfl
  have hnone : serializers.deserialize (UInt8.ofInt dgram.transportProtocol).toNat = none := by
    rw [← h.notRegistered]
    congr 1
    omega
  obtain ⟨b'', hparsed, hok⟩ := deserialize_eq
    (rfcHdr dgram (UInt8.ofInt dgram.transportProtocol) payload.length)
    (UInt16.toNat_ofNat_of_lt' (by rw [UInt16.size]; omega)) hnone
  rw [← rfcPacket_of_nil hnil, ← hwritten] at hparsed
  exact ⟨_, hserialize, rfl, hwritten, _, b'', hparsed, hok, hfaithful.isCopy h⟩

/-- **The serialization is a proper encoding** exactly of the datagrams that are faithful. -/
theorem properEncoding_iff (h : Encodable serializers dgram payload) :
    ProperEncoding serializers dgram payload ↔ Faithful dgram :=
  ⟨h.faithful, fun hfaithful ↦ hfaithful.properEncoding h⟩

/-- A datagram of OSPF from 2001:db8::1 to 2001:db8::2. -/
def dgramWith (hopLimit : ℤ) (extensionHeaders : List IPv6ExtensionHeader) :
    IPv6Datagram (Payload Empty) where
  srcAddress := ⟨0x20010db8, 0, 0, 1⟩
  destAddress := ⟨0x20010db8, 0, 0, 2⟩
  trafficClass := 0xb8
  flowLabel := 0x12345
  hopLimit := hopLimit
  transportProtocol := 89
  extensionHeaders := extensionHeaders
  byteLength := IPv6_HEADER_BYTES + lengthOf extensionHeaders + 3
  encapsulatedPacket := some (.rawPacket [1, 2, 3])

/-- A routing header with the address 2001:db8::3. -/
def routing : IPv6ExtensionHeader :=
  ⟨IP_PROT_IPv6EXT_ROUTING, 24, .routing 0 1 [⟨0x20010db8, 0, 0, 3⟩]⟩

theorem encodable_dgramWith {hopLimit : ℤ} (hhop : 0 ≤ hopLimit ∧ hopLimit < 2 ^ 8)
    (hl : l = [] ∨ l = [routing]) :
    Encodable IPv4Serializer.noSerializers (dgramWith hopLimit l) [1, 2, 3] where
  accepted := ⟨l, by rcases hl with rfl | rfl <;> rfl⟩
  headers extHdr hmem := by
    rcases hl with rfl | rfl
    · cases hmem
    · rw [List.mem_singleton.1 hmem]
      exact ⟨rfl, rfl⟩
  flowLabel := by show (0x12345 : UInt32) < 2 ^ 20; decide
  hopLimit := hhop
  encapsulated := rfl
  notRegistered := rfl
  length := by
    show IPv6_HEADER_BYTES + lengthOf l + 3 < 2 ^ 16
    rcases hl with rfl | rfl <;> decide

theorem properEncoding_hopLimit_zero :
    ProperEncoding IPv4Serializer.noSerializers (dgramWith 0 []) [1, 2, 3] :=
  (properEncoding_iff (encodable_dgramWith (by decide) (.inl rfl))).2
    ⟨rfl, rfl, by decide⟩

/-- A hop limit of 64 is lost, and so is a routing header. -/
theorem not_properEncoding_hopLimit_routing :
    ¬ProperEncoding IPv4Serializer.noSerializers (dgramWith 64 []) [1, 2, 3] ∧
      ¬ProperEncoding IPv4Serializer.noSerializers (dgramWith 0 [routing]) [1, 2, 3] := by
  constructor
  · intro hproper
    have hfaithful := (encodable_dgramWith (by decide) (.inl rfl)).faithful hproper
    exact absurd hfaithful.hopLimit (by decide)
  · intro hproper
    have hfaithful := (encodable_dgramWith (by decide) (.inr rfl)).faithful hproper
    exact absurd hfaithful.extensionHeaders (by decide)

end IPv6Serializer

end Inet.Serializer
