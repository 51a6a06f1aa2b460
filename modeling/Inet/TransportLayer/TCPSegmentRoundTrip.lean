import Inet.TransportLayer.TCPSerializer

/-!
# The round trip of TCP segments

A segment whose options are canonical and whose header is as long as they need is written as its
header, its options, the padding and its bytes (`serialize_eq`), and parsed again as it was, with
`End` options for the padding (`deserialize_serialize`). The checksum that is written verifies.
-/

namespace Inet.Serializer.TCPSerializer

open Tcp

variable {Packet : Type} {tcpseg : TCPSegment Packet} {os : List TCPOption} {b : Buffer}
  {rest data header : List UInt8} {c : Context} {x : UInt16}

/-- The bytes of some options. -/
def optionsBytes (os : List TCPOption) : List UInt8 :=
  os.flatMap optionBytes

/-- An `End` option. -/
def endOption : TCPOption :=
  ⟨0, 1, .endOfOptionList⟩

theorem canonical_endOption : Canonical endOption :=
  ⟨rfl, rfl⟩

theorem optionsBytes_replicate (n : ℕ) :
    optionsBytes (List.replicate n endOption) = List.replicate n 0 := by
  induction n with
  | zero => rfl
  | succ n ih =>
    rw [List.replicate_succ, optionsBytes, List.flatMap_cons, ← optionsBytes, ih]
    rfl

theorem length_optionsBytes (h : ∀ o ∈ os, Canonical o) :
    (optionsBytes os).length = (os.map fun option ↦ option.length.toNat).sum ∧
      os.length ≤ (optionsBytes os).length := by
  induction os with
  | nil => exact ⟨rfl, le_rfl⟩
  | cons o os ih =>
    rw [List.forall_mem_cons] at h
    obtain ⟨hsum, hle⟩ := ih h.2
    rw [optionsBytes] at hsum hle
    have hpos : 0 < (optionBytes o).length := by simp [optionBytes]
    rw [optionsBytes, List.flatMap_cons, List.length_append, hsum, List.map_cons, List.sum_cons,
      List.length_cons, length_optionBytes h.1]
    rw [length_optionBytes h.1] at hpos
    exact ⟨rfl, by omega⟩

/-! ### Parsing -/

/-- **The option loop** parses canonical options as they were written. -/
theorem deserializeOptions_canonical (h : ∀ o ∈ os, Canonical o)
    (hb : b.remaining = optionsBytes os) {n : ℕ} (hn : b.getRemainingSize ≤ n) :
    deserializeOptions n b = (os, b.advance (optionsBytes os).length) := by
  induction os generalizing b n with
  | nil =>
    have hzero : b.getRemainingSize = 0 := by rw [← b.length_remaining, hb]; rfl
    cases n with
    | zero => rfl
    | succ n =>
      rw [deserializeOptions, if_neg (not_not.2 hzero)]
      rfl
  | cons o os ih =>
    rw [List.forall_mem_cons] at h
    have hb' : b.remaining = optionBytes o ++ optionsBytes os := by
      rw [hb, optionsBytes, List.flatMap_cons, ← optionsBytes]
    have hlength : (optionBytes o).length = o.length.toNat := length_optionBytes h.1
    have hpos : 0 < (optionBytes o).length := by simp [optionBytes]
    have hsize := b.length_remaining
    rw [hb', List.length_append] at hsize
    have htail := Buffer.remaining_advance hb'
    have hsize' := (b.advance (optionBytes o).length).length_remaining
    rw [htail] at hsize'
    cases n with
    | zero => omega
    | succ n =>
      rw [deserializeOptions, if_pos (by omega)]
      simp only [deserializeOption_canonical h.1 hb', ← hlength]
      rw [ih h.2 htail (by omega)]
      simp only [Buffer.advance_advance, optionsBytes, List.flatMap_cons, List.length_append]

/-- The options of a buffer, and the buffer behind the `tcphdr` structure. -/
def parsed (buf : List UInt8) : List TCPOption × Buffer :=
  parseOptions (hdrLength (buf.take TCP_HEADER_OCTETS)) { buf, pos := TCP_HEADER_OCTETS }

theorem parsed_snd (buf : List UInt8) : (parsed buf).2 =
    { buf, pos := TCP_HEADER_OCTETS, errorFound := (parsed buf).2.errorFound } := by
  rw [parsed, parseOptions]
  split_ifs
  · simp only
    split_ifs <;> rfl
  · rfl

theorem readNBytes_tcphdr {buf : List UInt8} (hlength : TCP_HEADER_OCTETS ≤ buf.length) :
    Buffer.readNBytes TCP_HEADER_OCTETS { buf := buf } =
      (buf.take TCP_HEADER_OCTETS, { buf := buf, pos := TCP_HEADER_OCTETS }) := by
  have htake : (buf.take TCP_HEADER_OCTETS).length = TCP_HEADER_OCTETS := by
    rw [List.length_take, Nat.min_eq_left hlength]
  have hsplit : Buffer.remaining { buf := buf } = buf.take TCP_HEADER_OCTETS ++ _ :=
    (List.take_append_drop TCP_HEADER_OCTETS buf).symm
  have hbytes := Buffer.readNBytes_of_remaining hsplit
  rw [htake] at hbytes
  simpa only [Buffer.advance, Nat.zero_add] using hbytes

/-- **Parsing a buffer that holds the whole header.** -/
theorem deserialize_of_le {buf : List UInt8} (hlength : TCP_HEADER_OCTETS ≤ buf.length)
    (hhdr : hdrLength (buf.take TCP_HEADER_OCTETS) ≤ buf.length) :
    (deserialize buf c : TCPSegment Packet) =
      { parseHeader (buf.take TCP_HEADER_OCTETS) with
        headerOption := (parsed buf).1
        byteLength := buf.length
        payloadLength := buf.length - hdrLength (buf.take TCP_HEADER_OCTETS)
        byteArray := buf.drop (hdrLength (buf.take TCP_HEADER_OCTETS))
        bitError := (parsed buf).2.errorFound ∨
          field16 (buf.take TCP_HEADER_OCTETS) 16 ≠ 0 ∧ c.l3Addresses ≠ [] ∧
            TCPIPchecksum.checksum IP_PROT_TCP buf c.l3Addresses ≠ 0 } := by
  have hparsed : parseOptions (hdrLength (buf.take TCP_HEADER_OCTETS))
      { buf := buf, pos := TCP_HEADER_OCTETS } =
      ((parsed buf).1, { buf, pos := TCP_HEADER_OCTETS, errorFound := (parsed buf).2.errorFound }) :=
    Prod.ext rfl (parsed_snd buf)
  simp only [deserialize, readNBytes_tcphdr hlength, hparsed]
  generalize (parsed buf).2.errorFound = errorFound
  generalize hdrLength (buf.take TCP_HEADER_OCTETS) = hdrLength at hhdr ⊢
  have hseek : Buffer.seek { buf, pos := TCP_HEADER_OCTETS, errorFound } hdrLength =
      { buf, pos := hdrLength, errorFound } :=
    if_pos hhdr
  have hremaining : Buffer.getRemainingSize { buf, pos := hdrLength, errorFound } =
      buf.length - hdrLength := rfl
  have haccess : Buffer.accessNBytes { buf, pos := hdrLength, errorFound }
      (buf.length - hdrLength) =
        (some (buf.drop hdrLength), { buf, pos := buf.length, errorFound }) := by
    rw [Buffer.accessNBytes, if_pos (by simp only; omega), ← List.length_drop, List.take_length,
      List.length_drop, Nat.add_sub_cancel' hhdr]
  simp only [hseek, hremaining, haccess, Option.getD_some]

/-- **Parsing a header, canonical options and data.** -/
theorem deserialize_eq (hheader : header.length = TCP_HEADER_OCTETS) (h : ∀ o ∈ os, Canonical o)
    (hlength : hdrLength header = TCP_HEADER_OCTETS + (optionsBytes os).length) :
    (deserialize (header ++ (optionsBytes os ++ data)) c : TCPSegment Packet) =
      { parseHeader header with
        headerOption := os
        byteLength := hdrLength header + data.length
        payloadLength := data.length
        byteArray := data
        bitError := field16 header 16 ≠ 0 ∧ c.l3Addresses ≠ [] ∧
          TCPIPchecksum.checksum IP_PROT_TCP (header ++ (optionsBytes os ++ data)) c.l3Addresses
            ≠ 0 } := by
  let buf := header ++ (optionsBytes os ++ data)
  have hbuf : buf.length = hdrLength header + data.length := by
    simp only [buf, List.length_append]
    omega
  have htake : buf.take TCP_HEADER_OCTETS = header := by
    rw [← hheader]
    exact List.take_left
  have hparse : parsed buf = (os, { buf := buf, pos := TCP_HEADER_OCTETS }) := by
    rw [parsed, htake, parseOptions]
    split_ifs with hlt
    · have hsub : Buffer.sub { buf := buf, pos := TCP_HEADER_OCTETS }
          (hdrLength header - TCP_HEADER_OCTETS) = { buf := optionsBytes os } := by
        have hdrop : buf.drop TCP_HEADER_OCTETS = optionsBytes os ++ data := by
          rw [← hheader]
          exact List.drop_left
        rw [Buffer.sub, hdrop, hlength, Nat.add_sub_cancel_left, List.take_left]
      have hloop : deserializeOptions (Buffer.getRemainingSize { buf := optionsBytes os })
          { buf := optionsBytes os } = _ := deserializeOptions_canonical h rfl le_rfl
      simp only [hsub, hloop]
      rfl
    · have hzero : (optionsBytes os).length = 0 := by omega
      have hnil := (length_optionsBytes h).2
      rw [hzero, Nat.le_zero, List.length_eq_zero_iff] at hnil
      rw [hnil]
  have hdata : buf.drop (hdrLength header) = data := by
    have hsplit : hdrLength header = (header ++ optionsBytes os).length := by
      rw [List.length_append, hheader, hlength]
    rw [hsplit, show buf = header ++ optionsBytes os ++ data from (List.append_assoc _ _ _).symm,
      List.drop_left]
  show deserialize buf c = _
  have hparsed : (deserialize buf c : TCPSegment Packet) = _ :=
    deserialize_of_le (by omega) (by rw [htake]; omega)
  rw [hparsed, htake, hparse, hdata, hbuf, Nat.add_sub_cancel_left]
  simp only [Bool.false_eq_true, false_or]
  rfl

/-! ### The header -/

/-- The header of a segment can be written. -/
def HeaderFits (tcpseg : TCPSegment Packet) : Prop :=
  tcpseg.headerLength.toNat % 4 = 0 ∧ tcpseg.headerLength.toNat ≤ 60

theorem length_headerFront (tcpseg : TCPSegment Packet) : (headerFront tcpseg).length = 16 :=
  rfl

theorem hdrLength_headerFront (h : HeaderFits tcpseg) (rest : List UInt8) :
    hdrLength (headerFront tcpseg ++ rest) = tcpseg.headerLength.toNat := by
  obtain ⟨hmod, hle⟩ := h
  show (((tcpseg.headerLength / 4 % 16).toUInt8 <<< 4) >>> 4).toNat * 4 = _
  simp [Nat.shiftLeft_eq, Nat.shiftRight_eq_div_pow]
  omega

/-- The six flags are read as they were written. -/
theorem flags_bits (tcpseg : TCPSegment Packet) :
    decide ((0x3f &&& flags tcpseg) &&& 0x01 = 0x01) = tcpseg.finBit ∧
      decide ((0x3f &&& flags tcpseg) &&& 0x02 = 0x02) = tcpseg.synBit ∧
      decide ((0x3f &&& flags tcpseg) &&& 0x04 = 0x04) = tcpseg.rstBit ∧
      decide ((0x3f &&& flags tcpseg) &&& 0x08 = 0x08) = tcpseg.pshBit ∧
      decide ((0x3f &&& flags tcpseg) &&& 0x10 = 0x10) = tcpseg.ackBit ∧
      decide ((0x3f &&& flags tcpseg) &&& 0x20 = 0x20) = tcpseg.urgBit := by
  rw [flags]
  cases tcpseg.finBit <;> cases tcpseg.synBit <;> cases tcpseg.rstBit <;>
    cases tcpseg.pshBit <;> cases tcpseg.ackBit <;> cases tcpseg.urgBit <;> decide

/-- **A header is parsed** as it was written. -/
theorem parseHeader_headerFront (h : HeaderFits tcpseg) (x : UInt16) :
    (parseHeader (headerFront tcpseg ++ bytes16 x ++ bytes16 tcpseg.urgentPointer) :
        TCPSegment Packet) =
        { tcpseg with
          headerOption := []
          payloadLength := 0
          payloadList := []
          byteArray := []
          byteLength := 0
          bitError := false } ∧
      field16 (headerFront tcpseg ++ bytes16 x ++ bytes16 tcpseg.urgentPointer) 16 = x := by
  have hlength := hdrLength_headerFront h (bytes16 x ++ bytes16 tcpseg.urgentPointer)
  rw [← List.append_assoc] at hlength
  obtain ⟨hfin, hsyn, hrst, hpsh, hack, hurg⟩ := flags_bits tcpseg
  have hflags : (headerFront tcpseg ++ bytes16 x ++ bytes16 tcpseg.urgentPointer).getD 13 0 =
      0x3f &&& flags tcpseg := rfl
  refine ⟨?_, word16_bytes x⟩
  rw [parseHeader, hflags, hlength, UInt16.ofNat_toNat]
  simp only [hfin, hsyn, hrst, hpsh, hack, hurg]
  congr 1
  exacts [word16_bytes _, word16_bytes _, word32_bytes _, word32_bytes _, word16_bytes _,
    word16_bytes _]

/-! ### Writing -/

/-- A number of bytes, rounded up to a multiple of four. -/
def paddedLength (n : ℕ) : ℕ :=
  (n + 3) / 4 * 4

/-- The options of a segment, with `End` options for the padding. -/
def paddedOptions (os : List TCPOption) : List TCPOption :=
  os ++ List.replicate (paddedLength (optionsBytes os).length - (optionsBytes os).length) endOption

theorem optionsBytes_paddedOptions (os : List TCPOption) :
    optionsBytes (paddedOptions os) = optionsBytes os ++
        List.replicate (paddedLength (optionsBytes os).length - (optionsBytes os).length) 0 ∧
      (optionsBytes (paddedOptions os)).length = paddedLength (optionsBytes os).length := by
  have heq : optionsBytes (paddedOptions os) = optionsBytes os ++
      List.replicate (paddedLength (optionsBytes os).length - (optionsBytes os).length) 0 := by
    rw [← optionsBytes_replicate, optionsBytes, paddedOptions, List.flatMap_append]
    rfl
  refine ⟨heq, ?_⟩
  rw [heq, List.length_append, List.length_replicate, paddedLength]
  omega

theorem canonical_paddedOptions (h : ∀ o ∈ os, Canonical o) :
    ∀ o ∈ paddedOptions os, Canonical o := by
  rw [paddedOptions, List.forall_mem_append]
  exact ⟨h, fun o ho ↦ (List.eq_of_mem_replicate ho).symm ▸ canonical_endOption⟩

/-- A segment can be written: its options are canonical, its header is as long as they need, and its
bytes are all of its payload. -/
structure Writable (tcpseg : TCPSegment Packet) : Prop where
  canonical : ∀ o ∈ tcpseg.headerOption, Canonical o
  headerLength_eq : tcpseg.headerLength.toNat = TCP_HEADER_OCTETS +
    paddedLength (tcpseg.headerOption.map fun option ↦ option.length.toNat).sum
  headerLength_le : tcpseg.headerLength.toNat ≤ 60
  payloadLength_eq : tcpseg.payloadLength = tcpseg.byteArray.length
  byteLength_eq : tcpseg.byteLength = tcpseg.headerLength.toNat + tcpseg.payloadLength

theorem Writable.length_options (h : Writable tcpseg) : tcpseg.headerLength.toNat =
    TCP_HEADER_OCTETS + paddedLength (optionsBytes tcpseg.headerOption).length := by
  rw [(length_optionsBytes h.canonical).1]
  exact h.headerLength_eq

theorem Writable.headerFits (h : Writable tcpseg) : HeaderFits tcpseg := by
  refine ⟨?_, h.headerLength_le⟩
  rw [h.headerLength_eq, paddedLength, TCP_HEADER_OCTETS]
  omega

/-- What is behind the `tcphdr` structure. -/
def bodyBytes (tcpseg : TCPSegment Packet) : List UInt8 :=
  optionsBytes (paddedOptions tcpseg.headerOption) ++ tcpseg.byteArray

/-- The segment with a checksum. -/
def writtenBytes (tcpseg : TCPSegment Packet) (x : UInt16) : List UInt8 :=
  headerFront tcpseg ++ bytes16 x ++ bytes16 tcpseg.urgentPointer ++ bodyBytes tcpseg

theorem Writable.length_writtenBytes (h : Writable tcpseg) (x : UInt16) :
    (writtenBytes tcpseg x).length = tcpseg.byteLength := by
  have hheader : (headerFront tcpseg ++ bytes16 x ++ bytes16 tcpseg.urgentPointer).length =
      TCP_HEADER_OCTETS := rfl
  rw [writtenBytes, List.length_append, hheader, bodyBytes, List.length_append,
    (optionsBytes_paddedOptions _).2, h.byteLength_eq, h.length_options, h.payloadLength_eq]
  omega

/-- **Writing the options** and the padding. -/
theorem serializeOptions_eq (h : ∀ o ∈ os, Canonical o)
    (hroom : b.HasRoom (optionsBytes (paddedOptions os)).length) :
    serializeOptions os b = .ok (b.put (optionsBytes (paddedOptions os))) := by
  obtain ⟨heq, hpadded⟩ := optionsBytes_paddedOptions os
  have hsum := (length_optionsBytes h).1
  rw [heq, List.length_append] at hroom
  have hoptions : os.foldlM (fun b option ↦ serializeOption option b) b =
      .ok (b.put (optionsBytes os)) :=
    Buffer.foldlM_eq_put (fun b o ho ↦ serializeOption_canonical (h o ho))
      (hroom.mono (Nat.le_add_right _ _))
  rw [serializeOptions, hoptions]
  show Except.ok _ = _
  rw [← hsum, heq]
  refine congrArg Except.ok ?_
  split_ifs with hmod
  · have hpadding : paddedLength (optionsBytes os).length - (optionsBytes os).length =
        4 - (optionsBytes os).length % 4 := by
      rw [paddedLength]
      omega
    rw [hpadding] at hroom ⊢
    rw [Buffer.fillNBytes, Buffer.writeNBytes_eq_put (Buffer.hasRoom_put hroom),
      Buffer.put_put hroom]
  · have hpadding : paddedLength (optionsBytes os).length - (optionsBytes os).length = 0 := by
      rw [paddedLength]
      omega
    rw [hpadding, List.replicate_zero, List.append_nil]

/-- **Writing the data.** -/
theorem serializeData_eq (hlength : tcpseg.byteLength =
    tcpseg.headerLength.toNat + tcpseg.byteArray.length)
    (hroom : b.HasRoom tcpseg.byteArray.length) :
    serializeData tcpseg b = .ok (b.put tcpseg.byteArray) := by
  rw [serializeData]
  simp only [hlength, Nat.add_sub_cancel_left]
  split_ifs with hempty hdata
  · have hnil : tcpseg.byteArray = [] := List.eq_nil_of_length_eq_zero (by omega)
    rw [hnil, Buffer.put_nil]
  · rw [assert, if_pos trivial, Buffer.writeNBytes_eq_put hroom]
  · rw [not_not.1 hdata] at hempty
    exact absurd hempty (by simp)

/-- **Filling in the checksum** of what has been written from the beginning of the buffer on. -/
theorem writeChecksum_eq (hpos : b.pos = 0) {l : List UInt8} (hl : l.length = 16) (c : Context) :
    let b' := writeChecksum (b.put (l ++ [0, 0] ++ rest)) c
    b'.errorFound = b.errorFound ∧ b'.pos = (l ++ [0, 0] ++ rest).length ∧
      b'.buf.take b'.pos = l ++ bytes16 (TCPIPchecksum.checksum IP_PROT_TCP (l ++ [0, 0] ++ rest)
        c.l3Addresses) ++ rest := by
  have hbuf : (b.put (l ++ [0, 0] ++ rest)).buf =
      l ++ [0, 0] ++ (rest ++ b.buf.drop (l ++ [0, 0] ++ rest).length) := by
    simp only [Buffer.put, hpos, List.take_zero, List.nil_append, Nat.zero_add, List.append_assoc]
  have hwritten : (b.put (l ++ [0, 0] ++ rest)).buf.take (b.put (l ++ [0, 0] ++ rest)).pos =
      l ++ [0, 0] ++ rest := by
    rw [hbuf, ← List.append_assoc, Buffer.pos_put, hpos, Nat.zero_add, List.take_left]
  have hposition : (b.put (l ++ [0, 0] ++ rest)).pos = (l ++ [0, 0] ++ rest).length := by
    rw [Buffer.pos_put, hpos, Nat.zero_add]
  simp only [writeChecksum, hwritten]
  rw [← hl, Buffer.writeUint16To_eq hbuf]
  refine ⟨rfl, hposition, ?_⟩
  have hlength : (l ++ [0, 0] ++ rest).length = (l ++ bytes16 (TCPIPchecksum.checksum IP_PROT_TCP
      (l ++ [0, 0] ++ rest) c.l3Addresses) ++ rest).length := by
    simp [bytes16]
  show List.take (b.put (l ++ [0, 0] ++ rest)).pos _ = _
  rw [hposition, hlength, ← List.append_assoc, List.take_left]

/-- **Writing a segment.** -/
theorem Writable.serialize_eq (h : Writable tcpseg) (hpos : b.pos = 0)
    (hroom : b.HasRoom tcpseg.byteLength) (c : Context) :
    ∃ b', serialize tcpseg b c = .ok b' ∧ b'.errorFound = b.errorFound ∧
      b'.pos = tcpseg.byteLength ∧ b'.buf.take b'.pos =
        writtenBytes tcpseg (TCPIPchecksum.checksum IP_PROT_TCP (writtenBytes tcpseg 0)
          c.l3Addresses) := by
  have hsplit (x : UInt16) : writtenBytes tcpseg x = headerFront tcpseg ++ bytes16 x ++
      (bytes16 tcpseg.urgentPointer ++ bodyBytes tcpseg) := List.append_assoc _ _ _
  have hwritten : writtenBytes tcpseg 0 = headerBytes tcpseg ++
      (optionsBytes (paddedOptions tcpseg.headerOption) ++ tcpseg.byteArray) := rfl
  have hlength := h.length_writtenBytes 0
  rw [← hlength, hwritten, List.length_append] at hroom
  have hafter := Buffer.hasRoom_put hroom
  rw [List.length_append] at hafter
  have hoptions := serializeOptions_eq h.canonical (hafter.mono (Nat.le_add_right _ _))
  have hdata : serializeData tcpseg _ = _ :=
    serializeData_eq (by rw [h.byteLength_eq, h.payloadLength_eq]) (Buffer.hasRoom_put hafter)
  rw [Buffer.put_put hafter, Buffer.put_put hroom] at hdata
  have hcount : tcpseg.headerOption.take (tcpseg.headerOption.length % 2 ^ 16) =
      tcpseg.headerOption := by
    have hle := (length_optionsBytes h.canonical).2
    have hheader := h.length_options
    have hsixty := h.headerLength_le
    rw [paddedLength] at hheader
    rw [Nat.mod_eq_of_lt (by omega), List.take_length]
  have hmod : ¬ tcpseg.headerLength % 4 ≠ 0 := by
    rw [not_not, ← UInt16.toNat_inj, UInt16.toNat_mod]
    exact h.headerFits.1
  refine ⟨writeChecksum (b.put (writtenBytes tcpseg 0)) c, ?_, ?_⟩
  · rw [serialize, assert, if_pos hpos, hwritten]
    show (do
      if tcpseg.headerLength % 4 ≠ 0 then throw _
      let b ← serializeOptions _ (b.writeNBytes (headerBytes tcpseg))
      let b ← serializeData tcpseg b
      return writeChecksum b c) = _
    rw [if_neg hmod, hcount, Buffer.writeNBytes_eq_put (hroom.mono (Nat.le_add_right _ _)),
      hoptions]
    show (serializeData tcpseg _ >>= _) = _
    rw [hdata]
    rfl
  · rw [← hlength, hsplit, hsplit]
    exact writeChecksum_eq hpos (length_headerFront tcpseg) c

/-! ### The round trip -/

/-- A segment as it is parsed again. -/
def padded (tcpseg : TCPSegment Packet) : TCPSegment Packet :=
  { tcpseg with
    headerOption := paddedOptions tcpseg.headerOption
    payloadList := []
    bitError := false }

/-- **The checksum that is written verifies.** The length of a packet is an `int`. -/
theorem Writable.checksum_eq_zero (h : Writable tcpseg) (hint : tcpseg.byteLength < 2 ^ 31)
    (addr : List UInt8) :
    TCPIPchecksum.checksum IP_PROT_TCP (writtenBytes tcpseg
      (TCPIPchecksum.checksum IP_PROT_TCP (writtenBytes tcpseg 0) addr)) addr = 0 := by
  have hsplit (x : UInt16) : writtenBytes tcpseg x = headerFront tcpseg ++ bytes16 x ++
      (bytes16 tcpseg.urgentPointer ++ bodyBytes tcpseg) := List.append_assoc _ _ _
  rw [← h.length_writtenBytes 0, hsplit] at hint
  rw [hsplit, hsplit]
  exact TCPIPchecksum.checksum_of_written (by decide)
    (by rw [length_headerFront]; decide) hint

/-- **Parsing what is written of a segment.** -/
theorem Writable.deserialize_writtenBytes (h : Writable tcpseg)
    (hint : tcpseg.byteLength < 2 ^ 31) (c : Context) :
    deserialize (writtenBytes tcpseg (TCPIPchecksum.checksum IP_PROT_TCP (writtenBytes tcpseg 0)
      c.l3Addresses)) c = padded tcpseg := by
  have hzero := h.checksum_eq_zero hint c.l3Addresses
  generalize TCPIPchecksum.checksum IP_PROT_TCP (writtenBytes tcpseg 0) c.l3Addresses = x at hzero ⊢
  obtain ⟨hheader, -⟩ := parseHeader_headerFront h.headerFits x
  have hlength := hdrLength_headerFront h.headerFits (bytes16 x ++ bytes16 tcpseg.urgentPointer)
  rw [← List.append_assoc] at hlength
  rw [writtenBytes, bodyBytes] at hzero ⊢
  rw [deserialize_eq rfl (canonical_paddedOptions h.canonical)
    (by rw [hlength, h.length_options, (optionsBytes_paddedOptions _).2]), hzero, hlength, hheader,
    ← h.payloadLength_eq, ← h.byteLength_eq]
  simp only [ne_eq, not_true_eq_false, and_false, decide_false]
  rfl

/-- **The round trip.** A segment that is written into a buffer with room for it is parsed as it
was, with `End` options for the padding and without a bit error, and the checksum verifies. -/
theorem deserialize_serialize (h : Writable tcpseg) (hint : tcpseg.byteLength < 2 ^ 31)
    (hpos : b.pos = 0) (hroom : tcpseg.byteLength ≤ b.buf.length) (c : Context) :
    ∃ b', serialize tcpseg b c = .ok b' ∧ b'.errorFound = b.errorFound ∧
      b'.pos = tcpseg.byteLength ∧ deserialize (b'.buf.take b'.pos) c = padded tcpseg ∧
      TCPIPchecksum.checksum IP_PROT_TCP (b'.buf.take b'.pos) c.l3Addresses = 0 := by
  obtain ⟨b', hserialize, herror, hend, hwritten⟩ :=
    h.serialize_eq hpos (by rwa [Buffer.HasRoom, hpos, Nat.zero_add]) c
  refine ⟨b', hserialize, herror, hend, ?_⟩
  rw [hwritten]
  exact ⟨h.deserialize_writtenBytes hint c, h.checksum_eq_zero hint c.l3Addresses⟩

/-- A segment with two options, one byte of padding and one byte of data. -/
def small (windowScale : UInt16) : TCPSegment Unit where
  srcPort := 1000
  destPort := 80
  synBit := true
  headerLength := 28
  headerOption := [⟨3, 3, .windowScale windowScale⟩, ⟨2, 4, .maxSegmentSize 536⟩]
  payloadLength := 1
  byteArray := [7]
  byteLength := 29

theorem deserialize_serialize_small : ∃ b',
    serialize (small 7) ⟨List.replicate 29 0, 0, false⟩ {} = .ok b' ∧ b'.errorFound = false ∧
      b'.pos = 29 ∧ deserialize (b'.buf.take b'.pos) {} = padded (small 7) ∧
      TCPIPchecksum.checksum IP_PROT_TCP (b'.buf.take b'.pos) [] = 0 :=
  deserialize_serialize ⟨by simp [small, Canonical], rfl, by decide, rfl, rfl⟩ (by decide) rfl
    (by decide) {}

/-- **A window scale is written as one byte.** -/
theorem deserialize_serialize_windowScale : ∃ b',
    serialize (small 256) ⟨List.replicate 29 0, 0, false⟩ {} = .ok b' ∧
      (deserialize (b'.buf.take b'.pos) {} : TCPSegment Unit).headerOption.head? =
        some ⟨3, 3, .windowScale 0⟩ ∧
      (small 256).headerOption.head? = some ⟨3, 3, .windowScale 256⟩ :=
  ⟨_, rfl, by decide +kernel, rfl⟩

end Inet.Serializer.TCPSerializer
