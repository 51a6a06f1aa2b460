import Inet.Common.TCPIPchecksum
import Inet.TransportLayer.TCPSegment

/-!
# The TCP serializer

`TCPSerializer` writes a segment as bytes and parses bytes as a segment; the options are written one
after the other and padded with zeros, which the parser takes for `End` options.

`Canonical` options are those that the parser makes of the bytes that it finds. They are written as
`optionBytes`, and parsed again as they were (`serializeOption_canonical`,
`deserializeOption_canonical`).
-/

namespace Inet.Serializer

open Tcp

/-- `struct Context`: the addresses of the network layer, if there are any. -/
structure Context where
  l3Addresses : List UInt8 := []

/-- `IP_PROT_TCP`. -/
abbrev IP_PROT_TCP : ℕ :=
  6

/-- `TCP_HEADER_OCTETS`. -/
abbrev TCP_HEADER_OCTETS : ℕ :=
  20

namespace TCPSerializer

variable {Packet : Type}

/-! ### Writing -/

/-- `TCPSerializer::serializeOption`. -/
def serializeOption (option : TCPOption) (b : Buffer) : Except SerializerError Buffer :=
  let b := b.writeByte option.kind.toUInt8
  let b := if 1 < option.length then b.writeByte option.length.toUInt8 else b
  match option.fields with
  | .unknown bytes =>
    assert (option.length.toNat = 2 + bytes.length) (bytes.foldl Buffer.writeByte b)
  | fields =>
    match option.kind.toNat with
    | 0 =>
      match fields with
      | .endOfOptionList => assert (option.length = 1) b
      | _ => .error .castFailed
    | 1 =>
      match fields with
      | .nop => assert (option.length = 1) b
      | _ => .error .castFailed
    | 2 =>
      match fields with
      | .maxSegmentSize maxSegmentSize => assert (option.length = 4) (b.writeUint16 maxSegmentSize)
      | _ => .error .castFailed
    | 3 =>
      match fields with
      | .windowScale windowScale => assert (option.length = 3) (b.writeByte windowScale.toUInt8)
      | _ => .error .castFailed
    | 4 =>
      match fields with
      | .sackPermitted => assert (option.length = 2) b
      | _ => .error .castFailed
    | 5 =>
      match fields with
      | .sack sackItem =>
        assert (option.length.toNat = 2 + sackItem.length * 8)
          (sackItem.foldl (fun b si ↦ (b.writeUint32 si.start).writeUint32 si.stop) b)
      | _ => .error .castFailed
    | 8 =>
      match fields with
      | .timestamp senderTimestamp echoedTimestamp =>
        assert (option.length = 10) ((b.writeUint32 senderTimestamp).writeUint32 echoedTimestamp)
      | _ => .error .castFailed
    | kind => .error (.unknownTCPOption kind)

/-- The flags of a header. -/
def flags (tcpseg : TCPSegment Packet) : UInt8 :=
  (if tcpseg.finBit then 0x01 else 0) ||| (if tcpseg.synBit then 0x02 else 0) |||
    (if tcpseg.rstBit then 0x04 else 0) ||| (if tcpseg.pshBit then 0x08 else 0) |||
    (if tcpseg.ackBit then 0x10 else 0) ||| (if tcpseg.urgBit then 0x20 else 0)

/-- The `tcphdr` structure, up to the checksum. The data offset has four bits, above those that are
not used. -/
def headerFront (tcpseg : TCPSegment Packet) : List UInt8 :=
  bytes16 tcpseg.srcPort ++ bytes16 tcpseg.destPort ++ bytes32 tcpseg.sequenceNo ++
    bytes32 tcpseg.ackNo ++ [(tcpseg.headerLength / 4 % 16).toUInt8 <<< 4, 0x3f &&& flags tcpseg] ++
    bytes16 tcpseg.window

/-- The `tcphdr` structure, with the checksum zero. -/
def headerBytes (tcpseg : TCPSegment Packet) : List UInt8 :=
  headerFront tcpseg ++ [0, 0] ++ bytes16 tcpseg.urgentPointer

/-- The options, and the zeros behind them. -/
def serializeOptions (headerOption : List TCPOption) (b : Buffer) :
    Except SerializerError Buffer := do
  let b ← headerOption.foldlM (fun b option ↦ serializeOption option b) b
  let optionsLength := (headerOption.map fun option ↦ option.length.toNat).sum % 4
  return if optionsLength ≠ 0 then b.fillNBytes (4 - optionsLength) 0 else b

/-- The data, or as many letters `t`. -/
def serializeData (tcpseg : TCPSegment Packet) (b : Buffer) : Except SerializerError Buffer :=
  let dataLength := tcpseg.byteLength - tcpseg.headerLength.toNat
  if tcpseg.byteLength ≤ tcpseg.headerLength.toNat then .ok b
  else if tcpseg.byteArray ≠ [] then
    assert (tcpseg.byteArray.length = dataLength) (b.writeNBytes tcpseg.byteArray)
  else .ok (b.fillNBytes dataLength 0x74)

/-- The checksum is filled in. -/
def writeChecksum (b : Buffer) (c : Context) : Buffer :=
  b.writeUint16To 16 (TCPIPchecksum.checksum IP_PROT_TCP (b.buf.take b.pos) c.l3Addresses)

/-- `TCPSerializer::serialize`. The number of options is a `short`. -/
def serialize (tcpseg : TCPSegment Packet) (b : Buffer) (c : Context) :
    Except SerializerError Buffer := do
  let b ← assert (b.pos = 0) b
  if tcpseg.headerLength % 4 ≠ 0 then
    throw (.invalidTCPHeaderLength tcpseg.headerLength.toNat)
  let b := b.writeNBytes (headerBytes tcpseg)
  let b ← serializeOptions (tcpseg.headerOption.take (tcpseg.headerOption.length % 2 ^ 16)) b
  let b ← serializeData tcpseg b
  return writeChecksum b c

/-! ### Parsing -/

/-- Pairs of numbers. -/
def readSackItems : ℕ → Buffer → List Sack × Buffer
  | 0, b => ([], b)
  | n + 1, b =>
    let (start, b) := b.readUint32
    let (stop, b) := b.readUint32
    let (sackItem, b) := readSackItems n b
    (⟨start, stop⟩ :: sackItem, b)

/-- An option that is not parsed any further. -/
def readUnknown (kind length : UInt8) (b : Buffer) : TCPOption × Buffer :=
  let (bytes, b) := Buffer.readNBytes (length.toNat - 2) b
  (⟨kind.toUInt16, length.toUInt16, .unknown bytes⟩, b)

/-- `TCPSerializer::deserializeOption`. -/
def deserializeOption (b : Buffer) : TCPOption × Buffer :=
  let (kind, b) := b.readByte
  match kind.toNat with
  | 0 => (⟨0, 1, .endOfOptionList⟩, b)
  | 1 => (⟨1, 1, .nop⟩, b)
  | 2 =>
    let (length, b) := b.readByte
    if length = 4 then
      let (maxSegmentSize, b) := b.readUint16
      (⟨2, 4, .maxSegmentSize maxSegmentSize⟩, b)
    else readUnknown kind length b
  | 3 =>
    let (length, b) := b.readByte
    if length = 3 then
      let (windowScale, b) := b.readByte
      (⟨3, 3, .windowScale windowScale.toUInt16⟩, b)
    else readUnknown kind length b
  | 4 =>
    let (length, b) := b.readByte
    if length = 2 then (⟨4, 2, .sackPermitted⟩, b) else readUnknown kind length b
  | 5 =>
    let (length, b) := b.readByte
    if 2 < length ∧ length.toNat % 8 = 2 then
      let (sackItem, b) := readSackItems (length.toNat / 8) b
      (⟨5, length.toUInt16, .sack sackItem⟩, b)
    else readUnknown kind length b
  | 8 =>
    let (length, b) := b.readByte
    if length = 10 then
      let (senderTimestamp, b) := b.readUint32
      let (echoedTimestamp, b) := b.readUint32
      (⟨8, 10, .timestamp senderTimestamp echoedTimestamp⟩, b)
    else readUnknown kind length b
  | _ =>
    let (length, b) := b.readByte
    readUnknown kind length b

/-- The option loop of `deserialize`, up to `n` turns. -/
def deserializeOptions : ℕ → Buffer → List TCPOption × Buffer
  | 0, sb => ([], sb)
  | n + 1, sb =>
    if sb.getRemainingSize ≠ 0 then
      let (option, sb) := deserializeOption sb
      let (headerOption, sb) := deserializeOptions n sb
      (option :: headerOption, sb)
    else ([], sb)

/-- The options of a header of `hdrLength` bytes, of which the first twenty have been read. Each
turn of the loop reads a byte. -/
def parseOptions (hdrLength : ℕ) (b : Buffer) : List TCPOption × Buffer :=
  if TCP_HEADER_OCTETS < hdrLength then
    let sb := b.sub (hdrLength - TCP_HEADER_OCTETS)
    let (headerOption, sb) := deserializeOptions sb.getRemainingSize sb
    (headerOption, if sb.errorFound then { b with errorFound := true } else b)
  else ([], b)

/-- The header length, from its byte in the header. -/
def hdrLength (header : List UInt8) : ℕ :=
  (header.getD 12 0 >>> 4).toNat * 4

/-- The number in two bytes of a header. -/
def field16 (header : List UInt8) (i : ℕ) : UInt16 :=
  word16 (header.getD i 0) (header.getD (i + 1) 0)

/-- The number in four bytes of a header. -/
def field32 (header : List UInt8) (i : ℕ) : UInt32 :=
  word32 (header.getD i 0) (header.getD (i + 1) 0) (header.getD (i + 2) 0) (header.getD (i + 3) 0)

/-- The fields of a segment that are in the `tcphdr` structure. -/
def parseHeader (tcp : List UInt8) : TCPSegment Packet :=
  let flags := tcp.getD 13 0
  { srcPort := field16 tcp 0
    destPort := field16 tcp 2
    sequenceNo := field32 tcp 4
    ackNo := field32 tcp 8
    headerLength := UInt16.ofNat (hdrLength tcp)
    finBit := flags &&& 0x01 = 0x01
    synBit := flags &&& 0x02 = 0x02
    rstBit := flags &&& 0x04 = 0x04
    pshBit := flags &&& 0x08 = 0x08
    ackBit := flags &&& 0x10 = 0x10
    urgBit := flags &&& 0x20 = 0x20
    window := field16 tcp 14
    urgentPointer := field16 tcp 18 }

/-- `TCPSerializer::deserialize`. -/
def deserialize (buf : List UInt8) (c : Context) : TCPSegment Packet :=
  let (tcp, b) := Buffer.readNBytes TCP_HEADER_OCTETS { buf }
  let (headerOption, b) := parseOptions (hdrLength tcp) b
  let b := b.seek (hdrLength tcp)
  let payloadLength := b.getRemainingSize
  let (payload, b) := b.accessNBytes payloadLength
  { parseHeader tcp with
    headerOption
    byteLength := buf.length
    payloadLength
    byteArray := payload.getD []
    bitError := b.errorFound ∨ field16 tcp 16 ≠ 0 ∧ c.l3Addresses ≠ [] ∧
      TCPIPchecksum.checksum IP_PROT_TCP buf c.l3Addresses ≠ 0 }

/-! ### The bytes of an option -/

/-- The bytes behind the kind and the length. -/
def fieldBytes : TCPOptionFields → List UInt8
  | .endOfOptionList => []
  | .nop => []
  | .maxSegmentSize maxSegmentSize => bytes16 maxSegmentSize
  | .windowScale windowScale => [windowScale.toUInt8]
  | .sackPermitted => []
  | .sack sackItem => sackItem.flatMap fun si ↦ bytes32 si.start ++ bytes32 si.stop
  | .timestamp senderTimestamp echoedTimestamp => bytes32 senderTimestamp ++ bytes32 echoedTimestamp
  | .unknown bytes => bytes

/-- What is written of an option. -/
def optionBytes (option : TCPOption) : List UInt8 :=
  option.kind.toUInt8 ::
    ((if 1 < option.length then [option.length.toUInt8] else []) ++ fieldBytes option.fields)

/-- The kinds and lengths of the options that are parsed. -/
def IsKnown (kind length : ℕ) : Prop :=
  kind = 0 ∨ kind = 1 ∨ kind = 2 ∧ length = 4 ∨ kind = 3 ∧ length = 3 ∨ kind = 4 ∧ length = 2 ∨
    kind = 5 ∧ 2 < length ∧ length % 8 = 2 ∨ kind = 8 ∧ length = 10

instance (kind length : ℕ) : Decidable (IsKnown kind length) :=
  inferInstanceAs (Decidable (_ ∨ _))

/-- The options whose fields say what their kind and their length say, and fit into their bytes. -/
def Canonical : TCPOption → Prop
  | ⟨kind, length, .endOfOptionList⟩ => kind = 0 ∧ length = 1
  | ⟨kind, length, .nop⟩ => kind = 1 ∧ length = 1
  | ⟨kind, length, .maxSegmentSize _⟩ => kind = 2 ∧ length = 4
  | ⟨kind, length, .windowScale windowScale⟩ => kind = 3 ∧ length = 3 ∧ windowScale < 256
  | ⟨kind, length, .sackPermitted⟩ => kind = 4 ∧ length = 2
  | ⟨kind, length, .sack sackItem⟩ =>
    kind = 5 ∧ length.toNat = 2 + sackItem.length * 8 ∧ 0 < sackItem.length ∧ length < 256
  | ⟨kind, length, .timestamp _ _⟩ => kind = 8 ∧ length = 10
  | ⟨kind, length, .unknown bytes⟩ =>
    kind < 256 ∧ length.toNat = 2 + bytes.length ∧ length < 256 ∧ ¬ IsKnown kind.toNat length.toNat

variable {o : TCPOption} {b : Buffer} {rest : List UInt8}

theorem length_sackBytes (sackItem : List Sack) :
    (fieldBytes (.sack sackItem)).length = sackItem.length * 8 := by
  simp [fieldBytes, bytes32]

/-- An option is as long as its length says. -/
theorem length_optionBytes (h : Canonical o) : (optionBytes o).length = o.length.toNat := by
  obtain ⟨kind, length, fields⟩ := o
  rw [optionBytes]
  cases fields with
  | endOfOptionList => simp [h.2, fieldBytes]
  | nop => simp [h.2, fieldBytes]
  | maxSegmentSize maxSegmentSize => simp [h.2, fieldBytes, bytes16]
  | windowScale windowScale => simp [h.2.1, fieldBytes]
  | sackPermitted => simp [h.2, fieldBytes]
  | sack sackItem =>
    obtain ⟨-, hlength, hpos, -⟩ := h
    have hone : 1 < length := UInt16.lt_iff_toNat_lt.2 (by rw [hlength, UInt16.toNat_one]; omega)
    simp only [if_pos hone, List.length_cons, List.length_append, List.length_nil,
      length_sackBytes, hlength]
    omega
  | timestamp senderTimestamp echoedTimestamp => simp [h.2, fieldBytes, bytes32]
  | unknown bytes =>
    obtain ⟨-, hlength, -, -⟩ := h
    have hone : 1 < length := UInt16.lt_iff_toNat_lt.2 (by rw [hlength, UInt16.toNat_one]; omega)
    simp only [if_pos hone, List.length_cons, List.length_append, List.length_nil, fieldBytes,
      hlength]
    omega

/-- The kind and the length. -/
theorem writeHead (hroom : b.HasRoom (optionBytes o).length) :
    (if 1 < o.length then (b.writeByte o.kind.toUInt8).writeByte o.length.toUInt8
      else b.writeByte o.kind.toUInt8) =
        b.put (o.kind.toUInt8 :: if 1 < o.length then [o.length.toUInt8] else []) ∧
      (b.put (o.kind.toUInt8 :: if 1 < o.length then [o.length.toUInt8] else [])).HasRoom
        (fieldBytes o.fields).length := by
  rw [optionBytes, ← List.cons_append] at hroom
  refine ⟨?_, b.hasRoom_put (by rwa [List.length_append] at hroom)⟩
  split_ifs at hroom ⊢ with hone
  · simp only [List.length_append, List.length_cons, List.length_nil, Buffer.HasRoom] at hroom
    have htwo : b.HasRoom ([o.kind.toUInt8].length + [o.length.toUInt8].length) := by
      show b.pos + 2 ≤ b.buf.length
      omega
    rw [b.writeByte_eq_put (by show b.pos + 1 ≤ b.buf.length; omega),
      Buffer.writeByte_eq_put (Buffer.hasRoom_put htwo), Buffer.put_put htwo]
    rfl
  · simp only [List.length_append, List.length_cons, List.length_nil, Buffer.HasRoom] at hroom
    exact Buffer.writeByte_eq_put (by show b.pos + 1 ≤ b.buf.length; omega) _

/-- **A canonical option is written** as its bytes. -/
theorem serializeOption_canonical (h : Canonical o) (hroom : b.HasRoom (optionBytes o).length) :
    serializeOption o b = .ok (b.put (optionBytes o)) := by
  obtain ⟨hhead, hfields⟩ := writeHead hroom
  have hput : (b.put (o.kind.toUInt8 :: if 1 < o.length then [o.length.toUInt8] else [])).put
      (fieldBytes o.fields) = b.put (optionBytes o) := by
    rw [optionBytes, ← List.cons_append] at hroom ⊢
    rw [List.length_append] at hroom
    exact Buffer.put_put hroom
  rw [← hput, serializeOption]
  simp only [hhead]
  generalize b.put _ = b' at hfields ⊢
  obtain ⟨kind, length, fields⟩ := o
  simp only at hfields ⊢
  cases fields with
  | endOfOptionList =>
    obtain ⟨rfl, rfl⟩ := h
    rw [fieldBytes, Buffer.put_nil]
    rfl
  | nop =>
    obtain ⟨rfl, rfl⟩ := h
    rw [fieldBytes, Buffer.put_nil]
    rfl
  | maxSegmentSize maxSegmentSize =>
    obtain ⟨rfl, rfl⟩ := h
    exact congrArg Except.ok (Buffer.writeUint16_eq_put hfields maxSegmentSize)
  | windowScale windowScale =>
    obtain ⟨rfl, rfl, -⟩ := h
    exact congrArg Except.ok (Buffer.writeByte_eq_put hfields windowScale.toUInt8)
  | sackPermitted =>
    obtain ⟨rfl, rfl⟩ := h
    rw [fieldBytes, Buffer.put_nil]
    rfl
  | sack sackItem =>
    obtain ⟨rfl, hlength, -, -⟩ := h
    refine (if_pos hlength).trans (congrArg Except.ok (Buffer.foldl_eq_put ?_ hfields))
    intro b si hroom
    have hroom' : b.HasRoom ((bytes32 si.start).length + (bytes32 si.stop).length) := by
      rwa [List.length_append] at hroom
    have hfirst : b.HasRoom 4 := hroom'.mono (Nat.le_add_right 4 4)
    rw [Buffer.writeUint32_eq_put hfirst, Buffer.writeUint32_eq_put (Buffer.hasRoom_put hroom'),
      Buffer.put_put hroom']
  | timestamp senderTimestamp echoedTimestamp =>
    obtain ⟨rfl, rfl⟩ := h
    have hroom' : b'.HasRoom ((bytes32 senderTimestamp).length +
        (bytes32 echoedTimestamp).length) := hfields
    have hfirst : b'.HasRoom 4 := hroom'.mono (Nat.le_add_right 4 4)
    refine congrArg Except.ok ?_
    rw [Buffer.writeUint32_eq_put hfirst, Buffer.writeUint32_eq_put (Buffer.hasRoom_put hroom'),
      Buffer.put_put hroom']
    rfl
  | unknown bytes =>
    obtain ⟨-, hlength, -⟩ := h
    refine (if_pos hlength).trans (congrArg Except.ok ?_)
    have hflat : bytes.flatMap (fun x ↦ [x]) = bytes := by simp
    have hroom' : b'.HasRoom (bytes.flatMap fun x ↦ [x]).length := by rwa [hflat]
    rw [Buffer.foldl_eq_put (fun b x hroom ↦ Buffer.writeByte_eq_put hroom x) hroom', hflat]
    rfl

/-! ### Parsing the bytes of an option -/

/-- **An option that is not known** by its kind and its length. -/
theorem deserializeOption_unknown {kind length : UInt8} {bytes : List UInt8}
    (hnot : ¬ IsKnown kind.toNat length.toNat) (hlength : bytes.length = length.toNat - 2)
    (h : b.remaining = kind :: length :: (bytes ++ rest)) :
    deserializeOption b = (⟨kind.toUInt16, length.toUInt16, .unknown bytes⟩,
      b.advance (2 + bytes.length)) := by
  have hbytes : (b.advance 2).remaining = bytes ++ rest :=
    Buffer.remaining_advance (l := [kind, length]) h
  have hread : readUnknown kind length (b.advance 2) =
      (⟨kind.toUInt16, length.toUInt16, .unknown bytes⟩, b.advance (2 + bytes.length)) := by
    simp only [readUnknown, ← hlength, Buffer.readNBytes_of_remaining hbytes,
      Buffer.advance_advance]
  simp only [deserializeOption, Buffer.readByte_of_remaining h,
    Buffer.readByte_of_remaining (Buffer.remaining_tail h), Buffer.advance_advance, hread]
  have hlength' (n : ℕ) (hn : n < 256) (heq : length = UInt8.ofNat n) : length.toNat = n := by
    rw [heq, UInt8.toNat_ofNat_of_lt' hn]
  split
  · exact absurd (.inl ‹_›) hnot
  · exact absurd (.inr (.inl ‹_›)) hnot
  · split_ifs with hfour
    · exact absurd (by rw [‹kind.toNat = 2›, hlength' 4 (by decide) hfour]; decide) hnot
    · rfl
  · split_ifs with hthree
    · exact absurd (by rw [‹kind.toNat = 3›, hlength' 3 (by decide) hthree]; decide) hnot
    · rfl
  · split_ifs with htwo
    · exact absurd (by rw [‹kind.toNat = 4›, hlength' 2 (by decide) htwo]; decide) hnot
    · rfl
  · split_ifs with hsack
    · refine absurd ?_ hnot
      exact .inr (.inr (.inr (.inr (.inr (.inl ⟨‹_›, UInt8.lt_iff_toNat_lt.1 hsack.1, hsack.2⟩)))))
    · rfl
  · split_ifs with hten
    · exact absurd (by rw [‹kind.toNat = 8›, hlength' 10 (by decide) hten]; decide) hnot
    · rfl
  · rfl

theorem readSackItems_of_remaining {sackItem : List Sack}
    (h : b.remaining = fieldBytes (.sack sackItem) ++ rest) :
    readSackItems sackItem.length b = (sackItem, b.advance (sackItem.length * 8)) := by
  induction sackItem generalizing b with
  | nil => rfl
  | cons si sackItem ih =>
    have hstart : b.remaining = bytes32 si.start ++ (bytes32 si.stop ++
        (fieldBytes (.sack sackItem) ++ rest)) := by
      rw [h, fieldBytes, List.flatMap_cons, fieldBytes, List.append_assoc, List.append_assoc]
    have hstop := Buffer.remaining_advance hstart
    have htail := Buffer.remaining_advance hstop
    rw [Buffer.advance_advance] at htail
    have hstop' : (b.advance 4).readUint32 = (si.stop, (b.advance 4).advance 4) :=
      Buffer.readUint32_of_remaining hstop
    have hrest : readSackItems sackItem.length (b.advance 8) =
        (sackItem, (b.advance 8).advance (sackItem.length * 8)) := ih htail
    simp only [List.length_cons, readSackItems, Buffer.readUint32_of_remaining hstart, hstop',
      Buffer.advance_advance, hrest, Nat.succ_mul, Nat.add_comm 8]

/-- **A canonical option is parsed** as it was written. -/
theorem deserializeOption_canonical (h : Canonical o) (hb : b.remaining = optionBytes o ++ rest) :
    deserializeOption b = (o, b.advance o.length.toNat) := by
  obtain ⟨kind, length, fields⟩ := o
  rw [optionBytes] at hb
  cases fields with
  | endOfOptionList =>
    obtain ⟨rfl, rfl⟩ := h
    have hkind : b.remaining = 0 :: rest := hb
    simp only [deserializeOption, Buffer.readByte_of_remaining hkind]
    rfl
  | nop =>
    obtain ⟨rfl, rfl⟩ := h
    have hkind : b.remaining = 1 :: rest := hb
    simp only [deserializeOption, Buffer.readByte_of_remaining hkind]
    rfl
  | maxSegmentSize maxSegmentSize =>
    obtain ⟨rfl, rfl⟩ := h
    have hkind : b.remaining = 2 :: 4 :: (bytes16 maxSegmentSize ++ rest) := hb
    have hlength := Buffer.remaining_tail hkind
    have hdata := Buffer.readUint16_of_remaining (Buffer.remaining_tail hlength)
    simp only [deserializeOption, Buffer.readByte_of_remaining hkind,
      Buffer.readByte_of_remaining hlength, hdata, UInt8.reduceToNat, if_true]
    rfl
  | windowScale windowScale =>
    obtain ⟨rfl, rfl, hlt⟩ := h
    have hkind : b.remaining = 3 :: 3 :: ([windowScale.toUInt8] ++ rest) := hb
    have hlength := Buffer.remaining_tail hkind
    have hdata := Buffer.readByte_of_remaining (Buffer.remaining_tail hlength)
    have hscale : windowScale.toUInt8.toUInt16 = windowScale := by
      rw [← UInt16.toNat_inj]
      have hlt' := UInt16.lt_iff_toNat_lt.1 hlt
      simp only [UInt16.toNat_ofNat, UInt8.toNat_toUInt16, UInt16.toNat_toUInt8] at hlt' ⊢
      omega
    simp only [deserializeOption, Buffer.readByte_of_remaining hkind,
      Buffer.readByte_of_remaining hlength, hdata, hscale, UInt8.reduceToNat, if_true]
    rfl
  | sackPermitted =>
    obtain ⟨rfl, rfl⟩ := h
    have hkind : b.remaining = 4 :: 2 :: rest := hb
    have hlength := Buffer.remaining_tail hkind
    simp only [deserializeOption, Buffer.readByte_of_remaining hkind,
      Buffer.readByte_of_remaining hlength]
    rfl
  | sack sackItem =>
    obtain ⟨rfl, hlength, hpos, hlt⟩ := h
    have hone : 1 < length := UInt16.lt_iff_toNat_lt.2 (by rw [hlength, UInt16.toNat_one]; omega)
    have hkind : b.remaining = 5 :: length.toUInt8 :: (fieldBytes (.sack sackItem) ++ rest) := by
      rw [hb, if_pos hone]
      rfl
    have hsecond := Buffer.remaining_tail hkind
    have hitems := readSackItems_of_remaining (Buffer.remaining_tail hsecond)
    rw [Buffer.advance_advance, Buffer.advance_advance] at hitems
    have hbyte : length.toUInt8.toNat = 2 + sackItem.length * 8 := by
      have hlt' := UInt16.lt_iff_toNat_lt.1 hlt
      simp only [UInt16.toNat_ofNat, UInt16.toNat_toUInt8] at hlt' ⊢
      omega
    have hword : length.toUInt8.toUInt16 = length := by
      rw [← UInt16.toNat_inj, UInt8.toNat_toUInt16, hbyte, hlength]
    have hcond : 2 < length.toUInt8 ∧ length.toUInt8.toNat % 8 = 2 := by
      refine ⟨UInt8.lt_iff_toNat_lt.2 ?_, by omega⟩
      rw [hbyte]
      exact Nat.lt_add_of_pos_right (by omega)
    have hcount : length.toUInt8.toNat / 8 = sackItem.length := by omega
    simp only [deserializeOption, Buffer.readByte_of_remaining hkind,
      Buffer.readByte_of_remaining hsecond, hcount, hitems, hword, hlength, UInt8.reduceToNat,
      if_pos hcond, Buffer.advance_advance, Nat.reduceAdd]
  | timestamp senderTimestamp echoedTimestamp =>
    obtain ⟨rfl, rfl⟩ := h
    have hkind : b.remaining = 8 :: 10 :: (bytes32 senderTimestamp ++
      (bytes32 echoedTimestamp ++ rest)) := hb
    have hlength := Buffer.remaining_tail hkind
    have hsender := Buffer.remaining_tail hlength
    have hechoed := Buffer.readUint32_of_remaining (Buffer.remaining_advance hsender)
    have hsender' := Buffer.readUint32_of_remaining hsender
    simp only [deserializeOption, Buffer.readByte_of_remaining hkind,
      Buffer.readByte_of_remaining hlength, hsender', UInt8.reduceToNat, if_true]
    simp only [bytes32, List.length_cons, List.length_nil, Nat.reduceAdd] at hechoed
    simp only [hechoed]
    rfl
  | unknown bytes =>
    obtain ⟨hkind, hlength, hlt, hnot⟩ := h
    have hone : 1 < length := UInt16.lt_iff_toNat_lt.2 (by rw [hlength, UInt16.toNat_one]; omega)
    have hkind' := UInt16.lt_iff_toNat_lt.1 hkind
    have hlt' := UInt16.lt_iff_toNat_lt.1 hlt
    have hbyte {x : UInt16} (hx : x.toNat < 256) : x.toUInt8.toNat = x.toNat ∧
        x.toUInt8.toUInt16 = x := by
      rw [← UInt16.toNat_inj, UInt8.toNat_toUInt16, UInt16.toNat_toUInt8]
      exact ⟨Nat.mod_eq_of_lt hx, Nat.mod_eq_of_lt hx⟩
    rw [if_pos hone] at hb
    have hb' : b.remaining = kind.toUInt8 :: length.toUInt8 :: (bytes ++ rest) := hb
    rw [deserializeOption_unknown ?_ ?_ hb', (hbyte hkind').2,
      (hbyte hlt').2, hlength]
    · rwa [(hbyte hkind').1, (hbyte hlt').1]
    · rw [(hbyte hlt').1]
      omega

end TCPSerializer

end Inet.Serializer
