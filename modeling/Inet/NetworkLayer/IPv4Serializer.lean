import Inet.NetworkLayer.IPv4Options
import Inet.Foundations.Fallible
import Mathlib.Algebra.Order.BigOperators.Group.List

/-!
# The IPv4 serializer

`IPv4Serializer` writes a datagram as a header, its options and its payload, and parses such bytes.
The checksum is written over the twenty bytes of the header without options, but it is verified over
the whole header. So a datagram with options comes back without a bit error only if the words of the
options add up to nothing. `datagram_roundTrips_iff` says when an unfragmented datagram comes back
as it was.
-/

namespace Inet.Serializer

/-- `IP_HEADER_BYTES`. -/
abbrev IP_HEADER_BYTES : ℕ :=
  20

/-- An encapsulated packet: a `RawPacket`, or a packet of a protocol. -/
inductive Payload (P : Type)
  | rawPacket (bytes : List UInt8)
  | packet (pkt : P)
  deriving DecidableEq

/-- `IPv4Datagram`. A total length that is not set is that of the packet. -/
structure IPv4Datagram (P : Type) where
  version : ℕ := 4
  headerLength : ℕ := IP_HEADER_BYTES
  srcAddress : IPv4Address
  destAddress : IPv4Address
  transportProtocol : ℕ
  timeToLive : ℕ
  identification : ℕ
  moreFragments : Bool := false
  dontFragment : Bool := false
  fragmentOffset : ℕ := 0
  totalLengthField : Option ℕ := none
  typeOfService : UInt8
  options : List TLVOption := []
  byteLength : ℕ
  encapsulatedPacket : Option (Payload P)
  deriving DecidableEq

/-- `IPv4Datagram::getTotalLengthField`. -/
def IPv4Datagram.getTotalLengthField {P : Type} (dgram : IPv4Datagram P) : ℕ :=
  dgram.totalLengthField.getD dgram.byteLength

/-- The serializers of the protocols above IP: what they make of a packet, and of the bytes of a
protocol that is registered, with the number of bytes that have been read. -/
structure SerializerRegistrationList (P : Type) where
  byteLength : P → ℕ
  serialize : ℕ → P → Buffer → Except IPv4SerializerError Buffer
  deserialize : ℕ → Option (Buffer → P × ℕ)

/-- `struct ip`. -/
structure Ip where
  ip_vhl : UInt8
  ip_tos : UInt8
  ip_len : UInt16
  ip_id : UInt16
  ip_off : UInt16
  ip_ttl : UInt8
  ip_p : UInt8
  ip_sum : UInt16
  ip_src : UInt32
  ip_dst : UInt32

/-- `IP_MAKE_VHL`. -/
def IP_MAKE_VHL (v hl : ℕ) : UInt8 :=
  UInt8.ofNat (v % 16) <<< 4 ||| UInt8.ofNat (hl % 16)

/-- `IP_VHL_HL`. -/
def IP_VHL_HL (vhl : UInt8) : UInt8 :=
  vhl &&& 0x0f

/-- `IP_VHL_V`. -/
def IP_VHL_V (vhl : UInt8) : UInt8 :=
  vhl >>> 4

/-- `IP_DF`. -/
abbrev IP_DF : UInt16 := 0x4000

/-- `IP_MF`. -/
abbrev IP_MF : UInt16 := 0x2000

/-- `IP_OFFMASK`. -/
abbrev IP_OFFMASK : UInt16 := 0x1fff

namespace Ip

/-- The bytes in front of the checksum. -/
def front (ip : Ip) : List UInt8 :=
  [ip.ip_vhl] ++ [ip.ip_tos] ++ bytes16 ip.ip_len ++ bytes16 ip.ip_id ++ bytes16 ip.ip_off ++
    [ip.ip_ttl] ++ [ip.ip_p]

/-- The bytes of the structure. -/
def bytes (ip : Ip) : List UInt8 :=
  ip.front ++ bytes16 ip.ip_sum ++ (bytes32 ip.ip_src ++ bytes32 ip.ip_dst)

/-- The structure at the position of a buffer. -/
def read (b : Buffer) : Ip :=
  let (ip_vhl, b) := b.readByte
  let (ip_tos, b) := b.readByte
  let (ip_len, b) := b.readUint16
  let (ip_id, b) := b.readUint16
  let (ip_off, b) := b.readUint16
  let (ip_ttl, b) := b.readByte
  let (ip_p, b) := b.readByte
  let (ip_sum, b) := b.readUint16
  let (ip_src, b) := b.readUint32
  let (ip_dst, _) := b.readUint32
  { ip_vhl, ip_tos, ip_len, ip_id, ip_off, ip_ttl, ip_p, ip_sum, ip_src, ip_dst }

theorem length_bytes (ip : Ip) : ip.bytes.length = IP_HEADER_BYTES :=
  rfl

/-- **The structure is read** as it is. -/
theorem read_eq {ip : Ip} {b : Buffer} {rest : List UInt8} (h : b.remaining = ip.bytes ++ rest) :
    read b = ip := by
  simp only [bytes, front, List.append_assoc] at h
  have h₁ : (b.advance 1).remaining = _ := Buffer.remaining_advance h
  have h₂ : (b.advance 2).remaining = _ := Buffer.remaining_advance h₁
  have h₄ : (b.advance 4).remaining = _ := Buffer.remaining_advance h₂
  have h₆ : (b.advance 6).remaining = _ := Buffer.remaining_advance h₄
  have h₈ : (b.advance 8).remaining = _ := Buffer.remaining_advance h₆
  have h₉ : (b.advance 9).remaining = _ := Buffer.remaining_advance h₈
  have h₁₀ : (b.advance 10).remaining = _ := Buffer.remaining_advance h₉
  have h₁₂ : (b.advance 12).remaining = _ := Buffer.remaining_advance h₁₀
  have h₁₆ : (b.advance 16).remaining = _ := Buffer.remaining_advance h₁₂
  simp only [read, Buffer.readByte_of_remaining h, Buffer.readByte_of_remaining h₁,
    Buffer.readUint16_of_remaining h₂, Buffer.readUint16_of_remaining h₄,
    Buffer.readUint16_of_remaining h₆, Buffer.readByte_of_remaining h₈,
    Buffer.readByte_of_remaining h₉, Buffer.readUint16_of_remaining h₁₀,
    Buffer.readUint32_of_remaining h₁₂, Buffer.readUint32_of_remaining h₁₆,
    Buffer.advance_advance, Nat.reduceAdd]

end Ip

namespace IPv4Serializer

open Buffer

variable {P : Type}

/-! ### Writing -/

/-- What has been written to a part of a buffer is in the buffer, which goes on behind it. -/
def join (b sb : Buffer) : Buffer :=
  let b : Buffer :=
    { b with buf := b.buf.take b.pos ++ sb.buf ++ b.buf.drop (b.pos + sb.buf.length) }
  let b := (b.accessNBytes sb.pos).2
  if sb.errorFound then { b with errorFound := true } else b

/-- The `ip` structure of a datagram, with the checksum zero. -/
def ipOf (dgram : IPv4Datagram P) : Ip where
  ip_vhl := IP_MAKE_VHL dgram.version (dgram.headerLength / 4)
  ip_tos := dgram.typeOfService
  ip_len := UInt16.ofNat dgram.getTotalLengthField
  ip_id := UInt16.ofNat dgram.identification
  ip_off := UInt16.ofNat (dgram.fragmentOffset / 8) |||
    (if dgram.moreFragments then IP_MF else 0) ||| (if dgram.dontFragment then IP_DF else 0)
  ip_ttl := UInt8.ofNat dgram.timeToLive
  ip_p := UInt8.ofNat dgram.transportProtocol
  ip_sum := 0
  ip_src := dgram.srcAddress
  ip_dst := dgram.destAddress

/-- The length of some options. -/
def lengthOf (options : List TLVOption) : ℕ :=
  (options.map TLVOption.length).sum

/-- `IPv4Serializer::serializeOptions`. The number of options is a `short`. No other option
serializers than the default one are registered. -/
def serializeOptions (dgram : IPv4Datagram P) (b : Buffer) : Except IPv4SerializerError Buffer := do
  let options := dgram.options.take (dgram.options.length % 2 ^ 16)
  let b ← options.foldlM (fun b option ↦ serializeOption option b) b
  let b ← require (IP_HEADER_BYTES + lengthOf options ≤ dgram.headerLength) .notEnoughForOptions b
  return if b.getRemainingSize ≠ 0 then b.fillNBytes b.getRemainingSize 0 else b

/-- `ByteArraySerializer::serialize`. -/
def serializeBytes (bytes : List UInt8) (b : Buffer) : Buffer :=
  let wl := min bytes.length b.getRemainingSize
  let b := b.writeNBytes (bytes.take wl)
  if wl < bytes.length then b.fillNBytes (bytes.length - wl) 0x3f else b

/-- The options of a datagram, if there is room for them in the header. -/
def writeOptions (dgram : IPv4Datagram P) (b : Buffer) : Except IPv4SerializerError Buffer :=
  if IP_HEADER_BYTES < dgram.headerLength then
    (serializeOptions dgram (b.sub (dgram.headerLength - IP_HEADER_BYTES))).map (join b)
  else .ok b

variable (serializers : SerializerRegistrationList P)

/-- `SerializerBase::lookupAndSerialize`. -/
def lookupAndSerialize (id : ℕ) (pkt : Payload P) (b : Buffer) : Except IPv4SerializerError Buffer :=
  let subBuffer := b.sub b.getRemainingSize
  match pkt with
  | .rawPacket bytes => .ok (join b (serializeBytes bytes subBuffer))
  | .packet pkt => (serializers.serialize id pkt subBuffer).map (join b)

/-- The byte length of an encapsulated packet. -/
def payloadByteLength : Payload P → ℕ
  | .rawPacket bytes => bytes.length
  | .packet pkt => serializers.byteLength pkt

/-- A difference of two `unsigned int`. -/
def subUint (m n : ℕ) : ℕ :=
  (m + 2 ^ 32 - n) % 2 ^ 32

/-- The payload of a datagram. -/
def serializePayload (dgram : IPv4Datagram P) (b : Buffer) : Except IPv4SerializerError Buffer := do
  let payloadLength := subUint dgram.byteLength b.pos
  match dgram.encapsulatedPacket with
  | none => return b.fillNBytes payloadLength 0x3f
  | some pkt =>
    let totalLength := payloadByteLength serializers pkt
    if (dgram.moreFragments ∨ dgram.fragmentOffset ≠ 0) ∧ payloadLength < totalLength then
      let tmpBuffer ← lookupAndSerialize serializers dgram.transportProtocol pkt
        { buf := List.replicate totalLength 0 }
      return b.writeNBytes (readNBytes payloadLength (tmpBuffer.seek dgram.fragmentOffset)).1
    else lookupAndSerialize serializers dgram.transportProtocol pkt b

/-- `IPv4Serializer::serialize`. -/
def serialize (dgram : IPv4Datagram P) (b : Buffer) : Except IPv4SerializerError Buffer := do
  let b ← require (b.pos = 0) .assertionFailed b
  if b.buf.length < IP_HEADER_BYTES then return (b.accessNBytes IP_HEADER_BYTES).2
  let b ← require (dgram.headerLength % 4 = 0 ∧ dgram.fragmentOffset % 8 = 0) .assertionFailed b
  let b := b.writeNBytes (ipOf dgram).bytes
  let b ← writeOptions dgram b
  let b ← serializePayload serializers dgram b
  return b.writeUint16To 10 (TCPIPchecksum.plainChecksum (b.buf.take IP_HEADER_BYTES))

/-! ### Parsing -/

/-- `IPv4Serializer::deserializeOptions`, up to `n` turns. An option without a length is not added.
-/
def deserializeOptions : ℕ → Buffer → Except IPv4SerializerError (List TLVOption × Buffer)
  | 0, b => .ok ([], b)
  | n + 1, b =>
    if b.getRemainingSize ≠ 0 then do
      let (option, b) := deserializeOption b
      let b ← require (1 ≤ option.length) .assertionFailed b
      let (options, b) ← deserializeOptions n b
      return (option :: options, b)
    else .ok ([], b)

/-- The options of a header of some length, behind the `ip` structure. Each turn of the loop reads a
byte. -/
def parseOptions (headerLength : ℕ) (b : Buffer) :
    Except IPv4SerializerError (List TLVOption × Buffer) :=
  if IP_HEADER_BYTES < headerLength then
    let sb := b.sub (headerLength - IP_HEADER_BYTES)
    (deserializeOptions sb.getRemainingSize sb).map fun r ↦
      (r.1, if r.2.errorFound then { b with errorFound := true } else b)
  else .ok ([], b)

/-- `ByteArraySerializer::deserialize`: the packet, and the number of bytes that have been read. -/
def deserializeBytes (b : Buffer) : Option (Payload P) × ℕ :=
  if b.getRemainingSize ≠ 0 then
    (some (.rawPacket b.remaining), b.getRemainingSize)
  else (none, 0)

/-- `SerializerBase::lookupAndDeserialize`, and the part of `deserialize` that parses a fragment as
bytes. -/
def deserializePayload (id : ℕ) (fragment : Bool) (maxLength : ℕ) (b : Buffer) :
    Option (Payload P) × Buffer :=
  let subBuffer := b.sub maxLength
  let (pkt, pos) :=
    match serializers.deserialize id with
    | some deserialize =>
      if fragment ∨ subBuffer.getRemainingSize = 0 then deserializeBytes subBuffer
      else
        let (pkt, pos) := deserialize subBuffer
        (some (.packet pkt), pos)
    | none => deserializeBytes subBuffer
  (pkt, (b.accessNBytes pos).2)

/-- The header length that an `ip` structure says, but at least its own. -/
def headerLengthOf (ip : Ip) : ℕ :=
  max ((IP_VHL_HL ip.ip_vhl).toNat * 4) IP_HEADER_BYTES

/-- The datagram with an `ip` structure. -/
def datagramOf (ip : Ip) (options : List TLVOption) (encapPacket : Option (Payload P)) :
    IPv4Datagram P where
  version := (IP_VHL_V ip.ip_vhl).toNat
  headerLength := headerLengthOf ip
  srcAddress := ip.ip_src
  destAddress := ip.ip_dst
  transportProtocol := ip.ip_p.toNat
  timeToLive := ip.ip_ttl.toNat
  identification := ip.ip_id.toNat
  moreFragments := ip.ip_off &&& IP_MF ≠ 0
  dontFragment := ip.ip_off &&& IP_DF ≠ 0
  fragmentOffset := (ip.ip_off &&& IP_OFFMASK).toNat * 8
  totalLengthField := some ip.ip_len.toNat
  typeOfService := ip.ip_tos
  options := options
  byteLength := headerLengthOf ip + (encapPacket.map (payloadByteLength serializers)).getD 0
  encapsulatedPacket := encapPacket

/-- Whether there is a bit error in a header. -/
def hasBitError (ip : Ip) (buf : List UInt8) : Bool :=
  (IP_VHL_HL ip.ip_vhl).toNat * 4 < IP_HEADER_BYTES ∨ buf.length < headerLengthOf ip ∨
    TCPIPchecksum.plainChecksum (buf.take (headerLengthOf ip)) ≠ 0

/-- `IPv4Serializer::deserialize`: the datagram, if there is one, with its bit error. -/
def deserialize (b : Buffer) :
    Except IPv4SerializerError (Option (IPv4Datagram P × Bool) × Buffer) := do
  let b ← require (b.pos = 0) .assertionFailed b
  if b.buf.length < IP_HEADER_BYTES then return (none, (b.accessNBytes IP_HEADER_BYTES).2)
  let ip := Ip.read b
  let (options, b) ← parseOptions (headerLengthOf ip) (b.accessNBytes IP_HEADER_BYTES).2
  let b := b.seek (headerLengthOf ip)
  let fragment := ip.ip_off &&& IP_MF ≠ 0 ∨ ip.ip_off &&& IP_OFFMASK ≠ 0
  let (encapPacket, b) := deserializePayload serializers ip.ip_p.toNat fragment
    (subUint ip.ip_len.toNat (headerLengthOf ip)) b
  return (some (datagramOf serializers ip options encapPacket, hasBitError ip b.buf), b)

/-! ### The round trip -/

/-- An `End` option. -/
def endOption : TLVOption :=
  ⟨0, 1, .endOfOptions⟩

/-- The number of padding bytes behind the options. -/
def padding (dgram : IPv4Datagram P) : ℕ :=
  dgram.headerLength - IP_HEADER_BYTES - lengthOf dgram.options

/-- The bytes between the `ip` structure and the payload. -/
def optionsArea (dgram : IPv4Datagram P) : List UInt8 :=
  dgram.options.flatMap optionBytes ++ List.replicate (padding dgram) 0

/-- An unfragmented datagram whose lengths are right, with a payload of raw bytes of a protocol that
is not registered. -/
structure WellFormed (dgram : IPv4Datagram P) (payload : List UInt8) : Prop where
  version : dgram.version = 4
  moreFragments : dgram.moreFragments = false
  fragmentOffset : dgram.fragmentOffset = 0
  valid : ∀ o ∈ dgram.options, Valid o
  headerLength : dgram.headerLength = IP_HEADER_BYTES + (lengthOf dgram.options + 3) / 4 * 4
  headerLength_le : dgram.headerLength ≤ 60
  totalLength : dgram.getTotalLengthField = dgram.byteLength
  byteLength : dgram.byteLength = dgram.headerLength + payload.length
  byteLength_le : dgram.byteLength ≤ 65535
  encapsulated : dgram.encapsulatedPacket = some (.rawPacket payload) ∨
    payload = [] ∧ dgram.encapsulatedPacket = none
  notRegistered : serializers.deserialize dgram.transportProtocol = none

/-- The datagram that should come back: with `End` options for the padding. -/
def expected (dgram : IPv4Datagram P) (payload : List UInt8) : IPv4Datagram P :=
  { dgram with
    options := dgram.options ++ List.replicate (padding dgram) endOption
    totalLengthField := some dgram.byteLength
    encapsulatedPacket := if payload = [] then none else some (.rawPacket payload) }

/-- A datagram that is written into a buffer of its size is parsed as it was, without a bit error.
-/
def RoundTrips (dgram : IPv4Datagram P) (payload : List UInt8) : Prop :=
  ∀ b : Buffer, b.pos = 0 → b.buf.length = dgram.byteLength →
    ∃ b' b'', serialize serializers dgram b = .ok b' ∧
      deserialize serializers { buf := b'.buf } =
        .ok (some (expected dgram payload, false), b'') ∧ b''.errorFound = false

/-- The words of the options add up to nothing, the options are readable, and the numbers fit. -/
structure Faithful (dgram : IPv4Datagram P) : Prop where
  words : TCPIPchecksum.words (optionsArea dgram) % (2 ^ 16 - 1) = 0
  readable : ∀ o ∈ dgram.options, Readable o
  timeToLive : dgram.timeToLive < 2 ^ 8
  transportProtocol : dgram.transportProtocol < 2 ^ 8
  identification : dgram.identification < 2 ^ 16

variable {serializers} {dgram : IPv4Datagram P} {payload : List UInt8} {b : Buffer}

theorem lengthOf_cons (o : TLVOption) (options : List TLVOption) :
    lengthOf (o :: options) = o.length + lengthOf options :=
  List.sum_cons

theorem length_flatMap_optionBytes {options : List TLVOption} (h : ∀ o ∈ options, Valid o) :
    (options.flatMap optionBytes).length = lengthOf options ∧ options.length ≤ lengthOf options := by
  induction options with
  | nil => exact ⟨rfl, le_rfl⟩
  | cons o options ih =>
    rw [List.forall_mem_cons] at h
    obtain ⟨hlength, hle⟩ := ih h.2
    have hpos := length_pos_of_valid h.1
    rw [List.flatMap_cons, List.length_append, length_optionBytes h.1, hlength, lengthOf_cons,
      List.length_cons]
    exact ⟨rfl, by omega⟩

namespace WellFormed

variable (h : WellFormed serializers dgram payload)

include h

theorem lengthOf_le : lengthOf dgram.options ≤ 40 := by
  have hlength := h.headerLength
  have hle := h.headerLength_le
  rw [IP_HEADER_BYTES] at hlength
  omega

theorem length_optionsArea : (optionsArea dgram).length = dgram.headerLength - IP_HEADER_BYTES := by
  have hlength := h.headerLength
  rw [optionsArea, List.length_append, (length_flatMap_optionBytes h.valid).1, List.length_replicate,
    padding]
  omega

theorem headerLength_eq : dgram.headerLength = IP_HEADER_BYTES + (optionsArea dgram).length := by
  have hlength := h.headerLength
  rw [h.length_optionsArea]
  omega

theorem four_dvd : 4 ∣ dgram.headerLength := by
  rw [h.headerLength]
  exact Nat.dvd_add (by decide) (Dvd.intro_left _ rfl)

/-- The options are all of those that are written. -/
theorem take_options : dgram.options.take (dgram.options.length % 2 ^ 16) = dgram.options := by
  have hle := (length_flatMap_optionBytes h.valid).2
  have hlengthOf := h.lengthOf_le
  rw [Nat.mod_eq_of_lt (by omega), List.take_length]

end WellFormed

theorem foldlM_serializeOption {options : List TLVOption} (h : ∀ o ∈ options, Valid o)
    (hroom : b.HasRoom (options.flatMap optionBytes).length) :
    options.foldlM (fun b option ↦ serializeOption option b) b =
      .ok (b.put (options.flatMap optionBytes)) :=
  foldlM_eq_put (fun _ o ho hroom ↦ serializeOption_eq (h o ho) hroom) hroom

/-- **The options and the padding** fill their part of the buffer. -/
theorem serializeOptions_eq (h : WellFormed serializers dgram payload) (hpos : b.pos = 0)
    (hlength : b.buf.length = (optionsArea dgram).length) :
    serializeOptions dgram b = .ok (b.put (optionsArea dgram)) := by
  have harea : (optionsArea dgram).length =
      (dgram.options.flatMap optionBytes).length + padding dgram := by
    rw [optionsArea, List.length_append, List.length_replicate]
  have hroom : b.HasRoom ((dgram.options.flatMap optionBytes).length +
      (List.replicate (padding dgram) (0 : UInt8)).length) := by
    rw [List.length_replicate, ← harea, HasRoom, hpos, hlength, Nat.zero_add]
  have hfold := foldlM_serializeOption h.valid (hroom.mono (Nat.le_add_right _ _))
  have hle : IP_HEADER_BYTES + lengthOf dgram.options ≤ dgram.headerLength := by
    have hheader := h.headerLength
    omega
  have hremaining : (b.put (dgram.options.flatMap optionBytes)).getRemainingSize = padding dgram := by
    rw [getRemainingSize, length_put (hroom.mono (Nat.le_add_right _ _)), pos_put, hpos, hlength,
      harea, Nat.zero_add, Nat.add_sub_cancel_left]
  have hput : (b.put (dgram.options.flatMap optionBytes)).fillNBytes (padding dgram) 0 =
      b.put (optionsArea dgram) := by
    rw [fillNBytes, writeNBytes_eq_put (hasRoom_put hroom), put_put hroom, optionsArea]
  rw [serializeOptions, h.take_options]
  simp only [hfold, require, if_pos hle, bind, Except.bind, hremaining]
  split_ifs with hzero
  · exact congrArg Except.ok hput
  · rw [not_not.1 hzero, fillNBytes, List.replicate_zero, writeNBytes] at hput
    exact congrArg Except.ok hput

theorem length_sub {n : ℕ} (h : b.HasRoom n) : (b.sub n).buf.length = n := by
  rw [HasRoom] at h
  rw [sub, List.length_take, List.length_drop]
  omega

/-- Bytes that are written to a part of a buffer that has room for them. -/
theorem join_put {l : List UInt8} {n : ℕ} (hroom : b.HasRoom n) (hle : l.length ≤ n) :
    join b ((b.sub n).put l) = b.put l := by
  have hlength := length_put (hroom.mono hle)
  have hsub : ((b.sub n).put l).buf = l ++ (b.buf.drop (b.pos + l.length)).take (n - l.length) := by
    rw [put, sub]
    simp only [List.take_zero, List.nil_append, Nat.zero_add]
    rw [List.drop_take, List.drop_drop]
  have hrest : (b.buf.drop (b.pos + l.length)).take (n - l.length) ++ b.buf.drop (b.pos + n) =
      b.buf.drop (b.pos + l.length) := by
    have hsplit := List.take_append_drop (n - l.length) (b.buf.drop (b.pos + l.length))
    rwa [List.drop_drop, Nat.add_assoc, Nat.add_sub_cancel' hle] at hsplit
  have hbuf : b.buf.take b.pos ++ ((b.sub n).put l).buf ++
      b.buf.drop (b.pos + ((b.sub n).put l).buf.length) = (b.put l).buf := by
    have hsize : ((b.sub n).put l).buf.length = n := by
      rw [length_put (by rw [HasRoom, length_sub hroom]; exact (Nat.zero_add _).trans_le hle),
        length_sub hroom]
    rw [hsize, hsub, put, List.append_assoc, List.append_assoc, hrest]
    exact (List.append_assoc _ _ _).symm
  have hpos : ((b.sub n).put l).pos = l.length := Nat.zero_add _
  have hfits : b.pos + l.length ≤ (b.put l).buf.length := hlength.symm ▸ hroom.mono hle
  have herror : ((b.sub n).put l).errorFound = false := rfl
  simp only [join, hbuf, hpos, accessNBytes, herror, if_pos hfits]
  rfl

theorem serializeBytes_eq (bytes : List UInt8) (hroom : b.HasRoom bytes.length) :
    serializeBytes bytes b = b.put bytes := by
  have hle : bytes.length ≤ b.getRemainingSize := by
    rw [HasRoom] at hroom
    rw [getRemainingSize]
    omega
  rw [serializeBytes]
  simp only [Nat.min_eq_left hle, lt_irrefl, if_false, List.take_length]
  exact writeNBytes_eq_put hroom

/-- **The payload** is written behind the header. -/
theorem serializePayload_eq (h : WellFormed serializers dgram payload)
    (hpos : b.pos = dgram.headerLength) (hlength : b.buf.length = dgram.byteLength) :
    serializePayload serializers dgram b = .ok (b.put payload) := by
  have hbyteLength := h.byteLength
  have hremaining : b.getRemainingSize = payload.length := by
    rw [getRemainingSize, hpos, hlength, hbyteLength, Nat.add_sub_cancel_left]
  have hroom : b.HasRoom payload.length := by
    rw [HasRoom, hpos, hlength, hbyteLength]
  rw [serializePayload]
  rcases h.encapsulated with hencapsulated | ⟨rfl, hencapsulated⟩
  · have hnot : ¬ ((dgram.moreFragments ∨ dgram.fragmentOffset ≠ 0) ∧
        subUint dgram.byteLength b.pos < payload.length) := by
      rw [h.moreFragments, h.fragmentOffset]
      simp
    rw [hencapsulated]
    simp only [payloadByteLength, if_neg hnot, lookupAndSerialize, hremaining]
    rw [serializeBytes_eq payload (by rw [HasRoom, length_sub hroom]; exact (Nat.zero_add _).le),
      join_put hroom le_rfl]
  · have hzero : subUint dgram.byteLength b.pos = 0 := by
      rw [hpos, hbyteLength, List.length_nil, Nat.add_zero, subUint, Nat.add_sub_cancel_left,
        Nat.mod_self]
    rw [hencapsulated]
    simp only [hzero]
    exact congrArg Except.ok (put_nil b).symm

/-- The bytes of a datagram with a checksum. -/
def datagramBytes (dgram : IPv4Datagram P) (payload : List UInt8) (x : UInt16) : List UInt8 :=
  { ipOf dgram with ip_sum := x }.bytes ++ optionsArea dgram ++ payload

theorem length_datagramBytes (h : WellFormed serializers dgram payload) (x : UInt16) :
    (datagramBytes dgram payload x).length = dgram.byteLength := by
  rw [datagramBytes, List.length_append, List.length_append, Ip.length_bytes, h.byteLength,
    h.headerLength_eq]

/-- **Writing a datagram.** The checksum is that of the `ip` structure. -/
theorem serialize_eq (h : WellFormed serializers dgram payload) (hpos : b.pos = 0)
    (hlength : b.buf.length = dgram.byteLength) :
    ∃ b', serialize serializers dgram b = .ok b' ∧
      b'.buf = datagramBytes dgram payload (TCPIPchecksum.plainChecksum (ipOf dgram).bytes) := by
  have hheader := h.headerLength_eq
  have hbyteLength := h.byteLength
  have hip := (ipOf dgram).length_bytes
  have hroom : b.HasRoom ((ipOf dgram).bytes.length + (optionsArea dgram).length) := by
    rw [HasRoom, hpos, hlength, hip]
    omega
  have hput : b.writeNBytes (ipOf dgram).bytes = b.put (ipOf dgram).bytes :=
    writeNBytes_eq_put (hroom.mono (Nat.le_add_right _ _))
  have hoptions : writeOptions dgram (b.put (ipOf dgram).bytes) =
      .ok (b.put ((ipOf dgram).bytes ++ optionsArea dgram)) := by
    rw [← put_put hroom, writeOptions]
    split_ifs with hlt
    · rw [← h.length_optionsArea, serializeOptions_eq h rfl (length_sub (hasRoom_put hroom)),
        Except.map, join_put (hasRoom_put hroom) le_rfl]
    · have hnil : optionsArea dgram = [] := List.length_eq_zero_iff.1 (by omega)
      rw [hnil, put_nil]
  have hroom' : b.HasRoom (((ipOf dgram).bytes ++ optionsArea dgram).length + payload.length) := by
    rw [HasRoom, hpos, hlength, List.length_append, hip]
    omega
  have hpayload := serializePayload_eq (b := b.put ((ipOf dgram).bytes ++ optionsArea dgram)) h
    (by rw [pos_put, hpos, List.length_append, hip]; omega)
    (by rw [length_put (hroom'.mono (Nat.le_add_right _ _)), hlength])
  rw [put_put hroom'] at hpayload
  have hwhole : b.put ((ipOf dgram).bytes ++ optionsArea dgram ++ payload) =
      { b with
        buf := (ipOf dgram).bytes ++ optionsArea dgram ++ payload
        pos := ((ipOf dgram).bytes ++ optionsArea dgram ++ payload).length } :=
    put_eq_of_length hpos (hlength.trans (length_datagramBytes h 0).symm)
  rw [hwhole] at hpayload
  have hlong : ¬ b.buf.length < IP_HEADER_BYTES := by omega
  have hok : dgram.headerLength % 4 = 0 ∧ dgram.fragmentOffset % 8 = 0 :=
    ⟨Nat.mod_eq_zero_of_dvd h.four_dvd, by rw [h.fragmentOffset]⟩
  simp only [serialize, require, if_pos hpos, if_neg hlong, if_pos hok, hput, hoptions, hpayload, bind,
    Except.bind, pure, Except.pure]
  refine ⟨_, rfl, ?_⟩
  have htake : ((ipOf dgram).bytes ++ optionsArea dgram ++ payload).take IP_HEADER_BYTES =
      (ipOf dgram).bytes := by
    rw [List.append_assoc]
    exact List.take_left' hip
  rw [htake]
  exact congrArg Buffer.buf (writeUint16To_eq (l := (ipOf dgram).front) (b := {
    b with
    buf := (ipOf dgram).bytes ++ optionsArea dgram ++ payload
    pos := ((ipOf dgram).bytes ++ optionsArea dgram ++ payload).length }) rfl _)

/-! ### What is parsed -/

theorem vhl_halves {hl : ℕ} (h : hl < 16) :
    (IP_VHL_HL (IP_MAKE_VHL 4 hl)).toNat = hl ∧ (IP_VHL_V (IP_MAKE_VHL 4 hl)).toNat = 4 := by
  have hall : ∀ n < 16, (IP_VHL_HL (IP_MAKE_VHL 4 n)).toNat = n ∧
      (IP_VHL_V (IP_MAKE_VHL 4 n)).toNat = 4 := by decide
  exact hall hl h

/-- The `ip` structure of a datagram, with a checksum. -/
def ipWith (dgram : IPv4Datagram P) (x : UInt16) : Ip :=
  { ipOf dgram with ip_sum := x }

section Header

variable (h : WellFormed serializers dgram payload)

include h

theorem WellFormed.hl (x : UInt16) :
    (IP_VHL_HL (ipWith dgram x).ip_vhl).toNat * 4 = dgram.headerLength := by
  have hle := h.headerLength_le
  show (IP_VHL_HL (IP_MAKE_VHL dgram.version (dgram.headerLength / 4))).toNat * 4 = _
  rw [h.version, (vhl_halves (by omega)).1, Nat.div_mul_cancel h.four_dvd]

theorem WellFormed.headerLengthOf (x : UInt16) :
    headerLengthOf (ipWith dgram x) = dgram.headerLength := by
  rw [IPv4Serializer.headerLengthOf, h.hl, h.headerLength]
  exact Nat.max_eq_left (Nat.le_add_right _ _)

theorem WellFormed.ip_off (x : UInt16) :
    (ipWith dgram x).ip_off = if dgram.dontFragment then IP_DF else 0 := by
  show UInt16.ofNat (dgram.fragmentOffset / 8) ||| (if dgram.moreFragments then IP_MF else 0) |||
    (if dgram.dontFragment then IP_DF else 0) = _
  rw [h.moreFragments, h.fragmentOffset]
  cases dgram.dontFragment <;> rfl

theorem WellFormed.ip_len (x : UInt16) : (ipWith dgram x).ip_len.toNat = dgram.byteLength := by
  have hlt : dgram.byteLength < 2 ^ 16 := Nat.lt_succ_of_le h.byteLength_le
  show (UInt16.ofNat dgram.getTotalLengthField).toNat = _
  rw [h.totalLength, UInt16.toNat_ofNat_of_lt' hlt]

theorem WellFormed.flags (x : UInt16) :
    decide ((ipWith dgram x).ip_off &&& IP_MF ≠ 0) = false ∧
      decide ((ipWith dgram x).ip_off &&& IP_DF ≠ 0) = dgram.dontFragment ∧
      (ipWith dgram x).ip_off &&& IP_OFFMASK = 0 := by
  rw [h.ip_off]
  cases dgram.dontFragment <;> decide

/-- The whole header is the `ip` structure and the options. -/
theorem WellFormed.take_header (x : UInt16) :
    (datagramBytes dgram payload x).take dgram.headerLength =
      (ipWith dgram x).bytes ++ optionsArea dgram := by
  refine List.take_left' ?_
  rw [List.length_append, Ip.length_bytes, h.headerLength_eq]

/-- **The checksum of the header** is that of the options alone. -/
theorem WellFormed.hasBitError_iff :
    hasBitError (ipWith dgram (TCPIPchecksum.plainChecksum (ipOf dgram).bytes))
      (datagramBytes dgram payload (TCPIPchecksum.plainChecksum (ipOf dgram).bytes)) = false ↔
      TCPIPchecksum.words (optionsArea dgram) % (2 ^ 16 - 1) = 0 := by
  have hpos : 0 < (IP_MAKE_VHL dgram.version (dgram.headerLength / 4)).toNat := by
    have hall : ∀ n < 16, 0 < (IP_MAKE_VHL 4 n).toNat := by decide
    have hle := h.headerLength_le
    rw [h.version]
    exact hall _ (by omega)
  have hwordspos (x : UInt16) (l : List UInt8) :
      0 < TCPIPchecksum.words ((ipWith dgram x).bytes ++ l) := by
    have hsplit : (ipWith dgram x).bytes ++ l =
        IP_MAKE_VHL dgram.version (dgram.headerLength / 4) :: dgram.typeOfService ::
          ((ipWith dgram x).bytes.drop 2 ++ l) := rfl
    rw [hsplit, TCPIPchecksum.words]
    omega
  have hself (x : UInt16) : 0 < TCPIPchecksum.words (ipWith dgram x).bytes := by
    have := hwordspos x []
    rwa [List.append_nil] at this
  have hbytes (x : UInt16) : (ipWith dgram x).bytes = (ipOf dgram).front ++ bytes16 x ++
      (bytes32 dgram.srcAddress ++ bytes32 dgram.destAddress) := rfl
  have hfirst : (ipOf dgram).front ++ [0, 0] ++
      (bytes32 dgram.srcAddress ++ bytes32 dgram.destAddress) = (ipOf dgram).bytes := (hbytes 0).symm
  have hfirstpos : 0 < TCPIPchecksum.words (ipOf dgram).bytes := hself 0
  rw [← hfirst] at hfirstpos
  have hzero := TCPIPchecksum.plainChecksum_of_written ⟨5, rfl⟩ hfirstpos
  rw [hfirst, ← hbytes] at hzero
  generalize TCPIPchecksum.plainChecksum (ipOf dgram).bytes = x at hzero ⊢
  have hheader : ¬ (IP_VHL_HL (ipWith dgram x).ip_vhl).toNat * 4 < IP_HEADER_BYTES := by
    rw [h.hl, h.headerLength]
    omega
  have hlong : ¬ (datagramBytes dgram payload x).length < dgram.headerLength := by
    rw [length_datagramBytes h, h.byteLength]
    omega
  rw [hasBitError, h.headerLengthOf, h.take_header, decide_eq_false_iff_not, not_or, not_or, not_not,
    and_iff_right hheader, and_iff_right hlong, TCPIPchecksum.plainChecksum_eq_zero_iff (hwordspos x _),
    TCPIPchecksum.words_append ⟨10, rfl⟩]
  have hmod := (TCPIPchecksum.plainChecksum_eq_zero_iff (hself x)).1 hzero
  omega

end Header

/-- The buffer behind the header of a datagram. -/
def behindHeader (dgram : IPv4Datagram P) (payload : List UInt8) (x : UInt16) (errorFound : Bool) :
    Buffer where
  buf := datagramBytes dgram payload x
  pos := dgram.headerLength
  errorFound := errorFound

theorem buf_deserializePayload (id : ℕ) (fragment : Bool) (maxLength : ℕ) (b : Buffer) :
    (deserializePayload serializers id fragment maxLength b).2.buf = b.buf :=
  b.buf_accessNBytes _

theorem parseOptions_eq (h : WellFormed serializers dgram payload) (x : UInt16) :
    parseOptions dgram.headerLength
        { buf := datagramBytes dgram payload x, pos := IP_HEADER_BYTES } =
      (deserializeOptions (optionsArea dgram).length { buf := optionsArea dgram }).map fun r ↦
        (r.1, { buf := datagramBytes dgram payload x, pos := IP_HEADER_BYTES,
                errorFound := r.2.errorFound }) := by
  have hsub : Buffer.sub { buf := datagramBytes dgram payload x, pos := IP_HEADER_BYTES }
      (dgram.headerLength - IP_HEADER_BYTES) = { buf := optionsArea dgram } := by
    have hdrop : (datagramBytes dgram payload x).drop IP_HEADER_BYTES =
        optionsArea dgram ++ payload := by
      rw [datagramBytes, List.append_assoc]
      exact List.drop_left' (Ip.length_bytes _)
    rw [sub, hdrop, List.take_left' h.length_optionsArea]
  rw [parseOptions]
  split_ifs with hlt
  · rw [hsub]
    show (deserializeOptions (optionsArea dgram).length _).map _ = _
    congr 1
    funext r
    cases r.2.errorFound <;> rfl
  · have hnil : optionsArea dgram = [] := by
      rw [← List.length_eq_zero_iff, h.length_optionsArea]
      omega
    rw [hnil]
    rfl

/-- **Parsing a datagram** comes down to parsing its options and its payload. -/
theorem deserialize_eq (h : WellFormed serializers dgram payload) (x : UInt16) :
    deserialize serializers { buf := datagramBytes dgram payload x } =
      (deserializeOptions (optionsArea dgram).length { buf := optionsArea dgram }).map fun r ↦
        ((some (datagramOf serializers (ipWith dgram x) r.1 (deserializePayload serializers
            (ipWith dgram x).ip_p.toNat false payload.length
              (behindHeader dgram payload x r.2.errorFound)).1,
          hasBitError (ipWith dgram x) (datagramBytes dgram payload x)),
        (deserializePayload serializers (ipWith dgram x).ip_p.toNat false payload.length
          (behindHeader dgram payload x r.2.errorFound)).2)) := by
  have hbyteLength := h.byteLength
  have hheader := h.headerLength_eq
  have hlength := length_datagramBytes h x
  have hlong : ¬ (datagramBytes dgram payload x).length < IP_HEADER_BYTES := by omega
  have hremaining : Buffer.remaining { buf := datagramBytes dgram payload x } =
      (ipWith dgram x).bytes ++ (optionsArea dgram ++ payload) :=
    List.append_assoc _ _ _
  have hread := Ip.read_eq hremaining
  have haccess : (Buffer.accessNBytes { buf := datagramBytes dgram payload x } IP_HEADER_BYTES).2 =
      { buf := datagramBytes dgram payload x, pos := IP_HEADER_BYTES } := by
    rw [accessNBytes, if_pos (by dsimp only; omega)]
    rfl
  have hfragment : decide ((ipWith dgram x).ip_off &&& IP_MF ≠ 0 ∨
      (ipWith dgram x).ip_off &&& IP_OFFMASK ≠ 0) = false := by
    obtain ⟨hmf, -, hoffset⟩ := h.flags x
    rw [decide_eq_false_iff_not, not_or, not_not, not_not]
    exact ⟨not_not.1 (of_decide_eq_false hmf), hoffset⟩
  have hpayload : subUint dgram.byteLength dgram.headerLength = payload.length := by
    have hle := h.byteLength_le
    rw [subUint, hbyteLength]
    omega
  simp only [deserialize, require, if_true, if_neg hlong, hread, haccess, h.headerLengthOf,
    parseOptions_eq h, hfragment, h.ip_len, hpayload, bind, Except.bind, pure, Except.pure]
  cases deserializeOptions (optionsArea dgram).length { buf := optionsArea dgram } with
  | error e => rfl
  | ok r =>
    have hseek (errorFound : Bool) :
        Buffer.seek { buf := datagramBytes dgram payload x, pos := IP_HEADER_BYTES, errorFound }
          dgram.headerLength = behindHeader dgram payload x errorFound :=
      if_pos (show dgram.headerLength ≤ (datagramBytes dgram payload x).length by omega)
    simp only [Except.map, hseek, buf_deserializePayload, behindHeader]

/-- **Raw bytes** are read to the end of the datagram. -/
theorem deserializePayload_eq {id : ℕ} (hid : serializers.deserialize id = none)
    (hb : b.remaining = payload) (hbounds : InBounds b) :
    deserializePayload serializers id false payload.length b =
      (if payload = [] then none else some (.rawPacket payload), b.advance payload.length) := by
  have hsub : b.sub payload.length = { buf := payload } := by
    rw [sub, ← remaining, hb, List.take_length]
  have hsize : Buffer.getRemainingSize { buf := payload } = payload.length := rfl
  have hroom : b.pos + payload.length ≤ b.buf.length := by
    have hlength := b.length_remaining
    rw [hb, getRemainingSize] at hlength
    rw [InBounds] at hbounds
    omega
  have haccess : (b.accessNBytes payload.length).2 = b.advance payload.length := by
    rw [accessNBytes, if_pos hroom]
    rfl
  simp only [deserializePayload, hid, hsub, deserializeBytes, hsize]
  rcases eq_or_ne payload [] with rfl | hne
  · exact Prod.ext rfl haccess
  · have hlength : payload.length ≠ 0 := List.length_eq_zero_iff.not.2 hne
    rw [if_pos hlength, if_neg hne]
    exact Prod.ext rfl haccess

/-! ### When a datagram comes back -/

/-- **The option loop** parses readable options as they were written. -/
theorem deserializeOptions_eq {options : List TLVOption} (hvalid : ∀ o ∈ options, Valid o)
    (hreadable : ∀ o ∈ options, Readable o) (hlength : lengthOf options < 256)
    (hb : b.remaining = options.flatMap optionBytes) {n : ℕ} (hn : b.getRemainingSize ≤ n) :
    deserializeOptions n b = .ok (options, b.advance (lengthOf options)) := by
  induction options generalizing b n with
  | nil =>
    have hzero : b.getRemainingSize = 0 := by rw [← b.length_remaining, hb]; rfl
    cases n with
    | zero => rfl
    | succ n =>
      rw [deserializeOptions, if_neg (not_not.2 hzero)]
      rfl
  | cons o options ih =>
    rw [List.forall_mem_cons] at hvalid hreadable
    rw [lengthOf_cons] at hlength
    rw [List.flatMap_cons] at hb
    have hbytes := length_optionBytes hvalid.1
    have hpos := length_pos_of_valid hvalid.1
    have hsize := b.length_remaining
    rw [hb, List.length_append, hbytes] at hsize
    have hbounds : b.pos ≤ b.buf.length := by
      rw [getRemainingSize] at hsize
      omega
    have htail := remaining_advance hb
    rw [hbytes] at htail
    have hsize' := (b.advance o.length).length_remaining
    rw [htail] at hsize'
    cases n with
    | zero => omega
    | succ n =>
      have hread := deserializeOption_eq hvalid.1 hreadable.1 (by omega) hbounds hb
      have hrest := ih hvalid.2 hreadable.2 (by omega) htail (n := n) (by omega)
      rw [advance_advance] at hrest
      simp only [deserializeOptions, if_pos (show b.getRemainingSize ≠ 0 by omega), hread, require,
        if_pos (Nat.succ_le_of_lt hpos), hrest, bind, Except.bind, lengthOf_cons]
      rfl

theorem exists_of_deserializeOptions {n : ℕ} {r : List TLVOption × Buffer}
    (hr : deserializeOptions (n + 1) b = .ok r) (hremaining : b.getRemainingSize ≠ 0) :
    ∃ r', deserializeOptions n (deserializeOption b).2 = .ok r' ∧
      r = ((deserializeOption b).1 :: r'.1, r'.2) := by
  rw [deserializeOptions, if_pos hremaining] at hr
  generalize deserializeOption b = p at hr ⊢
  obtain ⟨option, b'⟩ := p
  obtain ⟨b'', hrequire, hloop⟩ := exists_of_bind_eq_ok hr
  obtain ⟨r', hrest, heq⟩ := exists_of_bind_eq_ok hloop
  rw [require] at hrequire
  split_ifs at hrequire
  obtain rfl := Except.ok.inj hrequire
  exact ⟨r', hrest, (Except.ok.inj heq).symm⟩

/-- An error that has been found before the options stays. -/
theorem errorFound_of_deserializeOptions {n : ℕ} {r : List TLVOption × Buffer}
    (hr : deserializeOptions n b = .ok r) (hb : InBounds b) (herror : r.2.errorFound = false) :
    b.errorFound = false := by
  induction n generalizing b r with
  | zero =>
    obtain rfl := Except.ok.inj hr
    exact herror
  | succ n ih =>
    rcases eq_or_ne b.getRemainingSize 0 with hzero | hremaining
    · rw [deserializeOptions, if_neg (not_not.2 hzero)] at hr
      obtain rfl := Except.ok.inj hr
      exact herror
    · obtain ⟨r', hrest, rfl⟩ := exists_of_deserializeOptions hr hremaining
      have hread := (takes_deserializeOption b hb).1
      exact hread.errorFound (ih hrest hread.1 herror)

/-- **What the option loop gives** fits, and takes all bytes. -/
theorem takes_deserializeOptions {n : ℕ} {r : List TLVOption × Buffer}
    (hr : deserializeOptions n b = .ok r) (hb : InBounds b) (hn : b.getRemainingSize ≤ n)
    (herror : r.2.errorFound = false) :
    (∀ o ∈ r.1, Fits o) ∧ (r.1.map takenLength).sum = b.getRemainingSize := by
  induction n generalizing b r with
  | zero =>
    cases hr
    exact ⟨List.forall_mem_nil _, (Nat.le_zero.1 hn).symm⟩
  | succ n ih =>
    rcases eq_or_ne b.getRemainingSize 0 with hzero | hremaining
    · rw [deserializeOptions, if_neg (not_not.2 hzero)] at hr
      obtain rfl := Except.ok.inj hr
      exact ⟨List.forall_mem_nil _, hzero.symm⟩
    · obtain ⟨r', hrest, rfl⟩ := exists_of_deserializeOptions hr hremaining
      obtain ⟨hread, hfits⟩ := takes_deserializeOption b hb
      have hok := errorFound_of_deserializeOptions hrest hread.1 herror
      have hadvance := hread.2 hok
      have hbounds := hread.1
      have hpos := takenLength_pos (deserializeOption b).1
      have hsize : (deserializeOption b).2.getRemainingSize =
          b.getRemainingSize - takenLength (deserializeOption b).1 := by
        rw [hadvance, getRemainingSize_advance]
      obtain ⟨hall, hsum⟩ := ih hrest hread.1 (by omega) herror
      refine ⟨List.forall_mem_cons.2 ⟨hfits hok, hall⟩, ?_⟩
      rw [hadvance, InBounds] at hbounds
      have hle : b.pos + takenLength (deserializeOption b).1 ≤ b.buf.length := hbounds
      rw [List.map_cons, List.sum_cons, hsum, hsize]
      rw [getRemainingSize] at hremaining ⊢
      omega

theorem valid_endOption : Valid endOption :=
  ⟨rfl, rfl⟩

theorem readable_endOption : Readable endOption :=
  ⟨trivial, id⟩

theorem flatMap_replicate_endOption (n : ℕ) :
    (List.replicate n endOption).flatMap optionBytes = List.replicate n 0 := by
  induction n with
  | zero => rfl
  | succ n ih =>
    rw [List.replicate_succ, List.flatMap_cons, ih]
    rfl

theorem forall_mem_padded {p : TLVOption → Prop} {options : List TLVOption} {n : ℕ}
    (h : ∀ o ∈ options, p o) (hend : p endOption) :
    ∀ o ∈ options ++ List.replicate n endOption, p o := by
  intro o ho
  rcases List.mem_append.1 ho with ho | ho
  · exact h o ho
  · rw [List.eq_of_mem_replicate ho]
    exact hend

theorem lengthOf_append (options options' : List TLVOption) :
    lengthOf (options ++ options') = lengthOf options + lengthOf options' := by
  rw [lengthOf, List.map_append, List.sum_append, lengthOf, lengthOf]

theorem lengthOf_replicate_endOption (n : ℕ) : lengthOf (List.replicate n endOption) = n := by
  induction n with
  | zero => rfl
  | succ n ih => rw [List.replicate_succ, lengthOf_cons, ih, Nat.add_comm]; rfl

/-- The options with the padding are parsed as they are. -/
theorem deserializeOptions_optionsArea (h : WellFormed serializers dgram payload)
    (hreadable : ∀ o ∈ dgram.options, Readable o) :
    ∃ b, deserializeOptions (optionsArea dgram).length { buf := optionsArea dgram } =
      .ok (dgram.options ++ List.replicate (padding dgram) endOption, b) ∧ b.errorFound = false := by
  have hle := h.headerLength_le
  have hlengthOf := h.lengthOf_le
  have hpadding : padding dgram ≤ dgram.headerLength - IP_HEADER_BYTES := Nat.sub_le _ _
  refine ⟨_, deserializeOptions_eq (forall_mem_padded h.valid valid_endOption)
    (forall_mem_padded hreadable readable_endOption) ?_ ?_ le_rfl, rfl⟩
  · rw [lengthOf_append, lengthOf_replicate_endOption]
    omega
  · rw [List.flatMap_append, flatMap_replicate_endOption]
    rfl

/-- The payload behind the header. -/
theorem remaining_behindHeader (h : WellFormed serializers dgram payload) (x : UInt16)
    (errorFound : Bool) :
    (behindHeader dgram payload x errorFound).remaining = payload ∧
      InBounds (behindHeader dgram payload x errorFound) := by
  constructor
  · refine List.drop_left' ?_
    rw [List.length_append, Ip.length_bytes]
    exact h.headerLength_eq.symm
  · show dgram.headerLength ≤ (datagramBytes dgram payload x).length
    rw [length_datagramBytes h, h.byteLength]
    exact Nat.le_add_right _ _

/-- The fields of the `ip` structure are those of the datagram, if they fit. -/
theorem datagramOf_eq (h : WellFormed serializers dgram payload) (x : UInt16)
    (httl : dgram.timeToLive < 2 ^ 8) (hprotocol : dgram.transportProtocol < 2 ^ 8)
    (hid : dgram.identification < 2 ^ 16) :
    datagramOf serializers (ipWith dgram x)
      (dgram.options ++ List.replicate (padding dgram) endOption)
        (if payload = [] then none else some (.rawPacket payload)) = expected dgram payload := by
  have hle := h.headerLength_le
  obtain ⟨hmf, hdf, hoffset⟩ := h.flags x
  rw [datagramOf, expected]
  congr 1
  · show (IP_VHL_V (IP_MAKE_VHL dgram.version (dgram.headerLength / 4))).toNat = _
    rw [h.version, (vhl_halves (by omega)).2]
  · exact h.headerLengthOf x
  · exact UInt8.toNat_ofNat_of_lt' hprotocol
  · exact UInt8.toNat_ofNat_of_lt' httl
  · exact UInt16.toNat_ofNat_of_lt' hid
  · exact hmf.trans h.moreFragments.symm
  · rw [hoffset, h.fragmentOffset]
    rfl
  · rw [h.ip_len]
  · rw [h.headerLengthOf, h.byteLength]
    split_ifs with hnil
    · rw [hnil]
      rfl
    · rfl

/-- **A faithful datagram comes back** as it was. -/
theorem Faithful.roundTrips (hfaithful : Faithful dgram)
    (h : WellFormed serializers dgram payload) : RoundTrips serializers dgram payload := by
  intro b hpos hlength
  obtain ⟨b', hserialize, hbuf⟩ := serialize_eq h hpos hlength
  obtain ⟨b₀, hoptions, herror⟩ := deserializeOptions_optionsArea h hfaithful.readable
  have hbit := h.hasBitError_iff.2 hfaithful.words
  generalize TCPIPchecksum.plainChecksum (ipOf dgram).bytes = x at hbit hbuf
  have hp : (ipWith dgram x).ip_p.toNat = dgram.transportProtocol :=
    UInt8.toNat_ofNat_of_lt' hfaithful.transportProtocol
  obtain ⟨hremaining, hbounds⟩ := remaining_behindHeader h x b₀.errorFound
  have hpayload := deserializePayload_eq h.notRegistered hremaining hbounds
  have hdatagram := datagramOf_eq h x hfaithful.timeToLive hfaithful.transportProtocol
    hfaithful.identification
  refine ⟨b', (behindHeader dgram payload x b₀.errorFound).advance payload.length, hserialize, ?_, herror⟩
  rw [hbuf, deserialize_eq h, hoptions, Except.map, hp]
  simp only [hpayload, hdatagram, hbit]

/-- Options that take all of their bytes together do so each. -/
theorem takenLength_eq {options : List TLVOption} (hvalid : ∀ o ∈ options, Valid o)
    (hsum : lengthOf options ≤ (options.map takenLength).sum) :
    ∀ o ∈ options, takenLength o = o.length := by
  have hle {options : List TLVOption} (hvalid : ∀ o ∈ options, Valid o) :
      (options.map takenLength).sum ≤ lengthOf options :=
    List.sum_le_sum fun o ho ↦ (takenLength_of_valid (hvalid o ho)).1
  induction options with
  | nil => exact List.forall_mem_nil _
  | cons o options ih =>
    rw [List.forall_mem_cons] at hvalid
    have hfirst := (takenLength_of_valid hvalid.1).1
    have hrest := hle hvalid.2
    rw [lengthOf_cons, List.map_cons, List.sum_cons] at hsum
    exact List.forall_mem_cons.2 ⟨by omega, ih hvalid.2 (by omega)⟩

/-- **A datagram that comes back** as it was is faithful. -/
theorem WellFormed.faithful (h : WellFormed serializers dgram payload)
    (hround : RoundTrips serializers dgram payload) : Faithful dgram := by
  obtain ⟨b', b'', hserialize, hdeserialize, herror⟩ :=
    hround { buf := List.replicate dgram.byteLength 0 } rfl List.length_replicate
  obtain ⟨b₁, hserialize', hbuf⟩ :=
    serialize_eq (b := { buf := List.replicate dgram.byteLength 0 }) h rfl List.length_replicate
  obtain rfl := Except.ok.inj (hserialize.symm.trans hserialize')
  have hbit := h.hasBitError_iff
  generalize TCPIPchecksum.plainChecksum (ipOf dgram).bytes = x at hbit hbuf
  rw [hbuf, deserialize_eq h] at hdeserialize
  obtain ⟨r, hoptions, heq⟩ := exists_of_map_eq_ok hdeserialize
  obtain ⟨hsome, hb''⟩ := Prod.mk.inj heq
  obtain ⟨hdatagram, hzero⟩ := Prod.mk.inj (Option.some_inj.1 hsome)
  rw [← hb''] at herror
  have hok : r.2.errorFound = false := errorFound_of_accessNBytes
    (b := behindHeader dgram payload x r.2.errorFound) herror
  have hlist : r.1 = dgram.options ++ List.replicate (padding dgram) endOption :=
    congrArg IPv4Datagram.options hdatagram
  obtain ⟨hfits, hsum⟩ := takes_deserializeOptions hoptions (Nat.zero_le _) le_rfl hok
  have hfield {n : ℕ} {y : UInt8} (hy : y.toNat = n) : n < 2 ^ 8 := hy ▸ y.toNat_lt
  refine ⟨hbit.1 hzero, fun o ho ↦ ?_, ?_, ?_, ?_⟩
  · refine ⟨hfits o (by rw [hlist]; exact List.mem_append_left _ ho),
      (takenLength_of_valid (h.valid o ho)).2 (takenLength_eq h.valid ?_ o ho)⟩
    rw [hlist, List.map_append, List.map_replicate, List.sum_append, List.sum_replicate_nat] at hsum
    have hends : padding dgram * takenLength endOption = padding dgram := Nat.mul_one _
    have harea : (optionsArea dgram).length = lengthOf dgram.options + padding dgram := by
      rw [optionsArea, List.length_append, (length_flatMap_optionBytes h.valid).1,
        List.length_replicate]
    have hremaining : Buffer.getRemainingSize { buf := optionsArea dgram } =
        (optionsArea dgram).length := rfl
    omega
  · exact hfield (congrArg IPv4Datagram.timeToLive hdatagram)
  · exact hfield (congrArg IPv4Datagram.transportProtocol hdatagram)
  · have hid : (ipWith dgram x).ip_id.toNat = dgram.identification :=
      congrArg IPv4Datagram.identification hdatagram
    rw [← hid]
    exact (ipWith dgram x).ip_id.toNat_lt

/-- **An unfragmented datagram comes back** as it was, without a bit error, just if the words of its
options add up to nothing, the options are readable, and the numbers fit. -/
theorem datagram_roundTrips_iff (h : WellFormed serializers dgram payload) :
    RoundTrips serializers dgram payload ↔ Faithful dgram :=
  ⟨h.faithful, fun hfaithful ↦ hfaithful.roundTrips h⟩

/-- No protocols above IP. -/
def noSerializers : SerializerRegistrationList Empty where
  byteLength _ := 0
  serialize _ _ := .ok
  deserialize _ := none

/-- A datagram of OSPF from 10.0.0.1 to 10.0.0.2. -/
def dgramWith (headerLength : ℕ) (options : List TLVOption) (payload : List UInt8) :
    IPv4Datagram Empty where
  headerLength := headerLength
  srcAddress := 0x0A000001
  destAddress := 0x0A000002
  transportProtocol := 89
  timeToLive := 64
  identification := 7
  typeOfService := 0
  options := options
  byteLength := headerLength + payload.length
  encapsulatedPacket := some (.rawPacket payload)

theorem wellFormed_dgramWith {headerLength : ℕ} (options : List TLVOption)
    (hvalid : ∀ o ∈ options, Valid o)
    (hheader : headerLength = IP_HEADER_BYTES + (lengthOf options + 3) / 4 * 4)
    (hle : headerLength ≤ 60) : WellFormed noSerializers (dgramWith headerLength options [1, 2, 3])
      [1, 2, 3] where
  version := rfl
  moreFragments := rfl
  fragmentOffset := rfl
  valid := hvalid
  headerLength := hheader
  headerLength_le := hle
  totalLength := rfl
  byteLength := rfl
  byteLength_le := by
    show headerLength + 3 ≤ 65535
    omega
  encapsulated := .inl rfl
  notRegistered := rfl

theorem roundTrips_streamId :
    RoundTrips noSerializers (dgramWith 24 [⟨8, 4, .streamId 0xF7FB⟩] [1, 2, 3]) [1, 2, 3] :=
  (datagram_roundTrips_iff (wellFormed_dgramWith [⟨8, 4, .streamId 0xF7FB⟩]
    (List.forall_mem_singleton.2 ⟨rfl, rfl⟩) rfl (by decide))).2
    { words := by decide
      readable := List.forall_mem_singleton.2 ⟨trivial, id⟩
      timeToLive := by decide
      transportProtocol := by decide
      identification := by decide }

/-- With a NOP option there is a bit error, and a timestamp option without addresses does not come
back. -/
theorem not_roundTrips_options :
    ¬ RoundTrips noSerializers (dgramWith 24 [⟨1, 1, .nop⟩] [1, 2, 3]) [1, 2, 3] ∧
      ¬ RoundTrips noSerializers (dgramWith 28 [⟨68, 8, .timestamp 0 0 0 [] [5]⟩] [1, 2, 3])
        [1, 2, 3] := by
  have hnop := wellFormed_dgramWith [⟨1, 1, .nop⟩]
    (List.forall_mem_singleton.2 ⟨rfl, rfl⟩) rfl (by decide)
  have htimestamp := wellFormed_dgramWith [⟨68, 8, .timestamp 0 0 0 [] [5]⟩]
    (List.forall_mem_singleton.2 ⟨rfl, rfl, by decide, .inl ⟨rfl, rfl⟩⟩) rfl (by decide)
  constructor
  · intro h
    exact absurd (hnop.faithful h).words (by decide)
  · intro h
    exact ((htimestamp.faithful h).readable _ (List.mem_singleton_self _)).2 rfl

end IPv4Serializer

end Inet.Serializer
