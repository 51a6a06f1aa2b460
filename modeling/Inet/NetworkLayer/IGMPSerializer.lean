import Inet.Common.TCPIPchecksum
import Inet.Foundations.Fallible

/-!
# The IGMP serializer

`IGMPSerializer` writes the messages of the three versions of IGMP as bytes and parses them. The
bytes of a query do not tell its version: the parser takes a query with code 0 for one of version 1,
and a longer one with another code for one of version 3, whose source list it then writes to without
making room for it. `message_roundTrips_iff` says which messages come back as they were.
-/

namespace Inet.Serializer

/-- `GroupRecord`. -/
structure GroupRecord where
  recordType : UInt8
  groupAddress : IPv4Address
  sourceList : List IPv4Address := []
  deriving DecidableEq

/-- `IGMPv3Query`. -/
structure IGMPv3Query where
  groupAddress : IPv4Address
  maxRespCode : UInt8
  suppressRouterProc : Bool := false
  robustnessVariable : UInt8 := 0
  queryIntervalCode : UInt8 := 0
  sourceList : List IPv4Address := []
  deriving DecidableEq

/-- `IGMPMessage`. -/
inductive IGMPMessage
  | v1Query (groupAddress : IPv4Address)
  | v2Query (groupAddress : IPv4Address) (maxRespTime : UInt8)
  | v3Query (query : IGMPv3Query)
  | v1Report (groupAddress : IPv4Address)
  | v2Report (groupAddress : IPv4Address)
  | v2Leave (groupAddress : IPv4Address)
  | v3Report (groupRecord : List GroupRecord)
  deriving DecidableEq

/-- `IGMP_MEMBERSHIP_QUERY`. -/
abbrev IGMP_MEMBERSHIP_QUERY : UInt8 := 0x11

/-- `IGMPV1_MEMBERSHIP_REPORT`. -/
abbrev IGMPV1_MEMBERSHIP_REPORT : UInt8 := 0x12

/-- `IGMPV2_MEMBERSHIP_REPORT`. -/
abbrev IGMPV2_MEMBERSHIP_REPORT : UInt8 := 0x16

/-- `IGMPV2_LEAVE_GROUP`. -/
abbrev IGMPV2_LEAVE_GROUP : UInt8 := 0x17

/-- `IGMPV3_MEMBERSHIP_REPORT`. -/
abbrev IGMPV3_MEMBERSHIP_REPORT : UInt8 := 0x22

/-- `IGMPMessage::type`. -/
def IGMPMessage.type : IGMPMessage → UInt8
  | v1Query _ | v2Query .. | v3Query _ => IGMP_MEMBERSHIP_QUERY
  | v1Report _ => IGMPV1_MEMBERSHIP_REPORT
  | v2Report _ => IGMPV2_MEMBERSHIP_REPORT
  | v2Leave _ => IGMPV2_LEAVE_GROUP
  | v3Report _ => IGMPV3_MEMBERSHIP_REPORT

namespace IGMPSerializer

open Buffer

/-! ### Writing -/

/-- The head all messages but the report of version 3 begin with. -/
def writeHead (type : UInt8) (groupAddress : IPv4Address) (b : Buffer) : Buffer :=
  writeIPv4Address (((b.writeByte type).writeByte 0).writeUint16 0) groupAddress

/-- The byte with the S flag and the robustness variable. -/
def flagsByte (suppressRouterProc : Bool) (robustnessVariable : UInt8) : UInt8 :=
  (if suppressRouterProc then 0x8 else 0) ||| robustnessVariable

/-- One group record. -/
def writeGroupRecord (b : Buffer) (gr : GroupRecord) : Buffer :=
  gr.sourceList.foldl writeIPv4Address
    (writeIPv4Address
      (((b.writeByte gr.recordType).writeByte 0).writeUint16 (UInt16.ofNat gr.sourceList.length))
      gr.groupAddress)

/-- The `switch` of `serialize`. -/
def writeMessage (pkt : IGMPMessage) (b : Buffer) : Except SerializerError Buffer :=
  match pkt with
  | .v1Query groupAddress => .ok (writeHead IGMP_MEMBERSHIP_QUERY groupAddress b)
  | .v2Query groupAddress maxRespTime =>
    .ok ((writeHead IGMP_MEMBERSHIP_QUERY groupAddress b).writeByteTo 1 maxRespTime)
  | .v3Query q =>
    let b := (writeHead IGMP_MEMBERSHIP_QUERY q.groupAddress b).writeByteTo 1 q.maxRespCode
    assert (q.robustnessVariable ≤ 7)
      (q.sourceList.foldl writeIPv4Address
        (((b.writeByte (flagsByte q.suppressRouterProc q.robustnessVariable)).writeByte
          q.queryIntervalCode).writeUint16 (UInt16.ofNat q.sourceList.length)))
  | .v1Report groupAddress => .ok (writeHead IGMPV1_MEMBERSHIP_REPORT groupAddress b)
  | .v2Report groupAddress => .ok (writeHead IGMPV2_MEMBERSHIP_REPORT groupAddress b)
  | .v2Leave groupAddress => .ok (writeHead IGMPV2_LEAVE_GROUP groupAddress b)
  | .v3Report groupRecord =>
    .ok (groupRecord.foldl writeGroupRecord
      (((((b.writeByte IGMPV3_MEMBERSHIP_REPORT).writeByte 0).writeUint16 0).writeUint16
        0).writeUint16 (UInt16.ofNat groupRecord.length)))

/-- The bytes a message begins at, up to the position. -/
def written (startPos : ℕ) (b : Buffer) : List UInt8 :=
  (b.buf.take b.pos).drop startPos

/-- `IGMPSerializer::serialize`. -/
def serialize (pkt : IGMPMessage) (b : Buffer) : Except SerializerError Buffer :=
  (writeMessage pkt b).map fun b' ↦
    b'.writeUint16To 2 (TCPIPchecksum.plainChecksum (written b.pos b'))

/-! ### Parsing -/

/-- What stops a parser: a write outside a vector. -/
inductive ParserFault
  | outOfBounds
  deriving DecidableEq

/-- The loop over the sources of a query: each of them is written to a place of the vector, which
must have that place. The counter is `i`, and `n` is what is missing of the number of sources. -/
def fillSourceList : ℕ → ℕ → List IPv4Address → Buffer →
    Except ParserFault (List IPv4Address × Buffer)
  | 0, _, sourceList, b => .ok (sourceList, b)
  | n + 1, i, sourceList, b =>
    if b.errorFound then .ok (sourceList, b)
    else
      let (addr, b) := readIPv4Address b
      if i < sourceList.length then fillSourceList n (i + 1) (sourceList.set i addr) b
      else .error .outOfBounds

/-- The loop over the sources of a group record. -/
def readSourceList : ℕ → Buffer → List IPv4Address × Buffer
  | 0, b => ([], b)
  | n + 1, b =>
    if b.errorFound then ([], b)
    else
      let (addr, b) := readIPv4Address b
      let (addrs, b) := readSourceList n b
      (addr :: addrs, b)

/-- One group record. -/
def readGroupRecord (b : Buffer) : GroupRecord × Buffer :=
  let (recordType, b) := b.readByte
  let (words, b) := b.readByte
  let (gac, b) := b.readUint16
  let (groupAddress, b) := readIPv4Address b
  let (sourceList, b) := readSourceList gac.toNat b
  (⟨recordType, groupAddress, sourceList⟩, (b.accessNBytes (4 * words.toNat)).2)

/-- The loop over the group records. -/
def readGroupRecords : ℕ → Buffer → List GroupRecord × Buffer
  | 0, b => ([], b)
  | n + 1, b =>
    if b.errorFound then ([], b)
    else
      let (gr, b) := readGroupRecord b
      let (grs, b) := readGroupRecords n b
      (gr :: grs, b)

/-- What the `switch` of `deserialize` makes: the message with the buffer behind it and its byte
length. There is no message for a type that is not known. -/
structure Parsed where
  message : Option IGMPMessage
  b : Buffer
  byteLength : ℕ

/-- A message with the group address behind the head. -/
def parseGroup (make : IPv4Address → IGMPMessage) (b : Buffer) : Parsed :=
  let (groupAddress, b) := readIPv4Address b
  ⟨some (make groupAddress), b, 8⟩

/-- The third case of a query. -/
def parseV3Query (startPos : ℕ) (code : UInt8) (b : Buffer) : Except ParserFault Parsed :=
  let (groupAddress, b) := readIPv4Address b
  let (x, b) := b.readByte
  let (queryIntervalCode, b) := b.readByte
  let (vs, b) := b.readUint16
  (fillSourceList vs.toNat 0 [] b).map fun s ↦
    let query : IGMPv3Query :=
      { groupAddress := groupAddress
        maxRespCode := code
        suppressRouterProc := x &&& 0x8 ≠ 0
        robustnessVariable := x &&& 7
        queryIntervalCode := queryIntervalCode
        sourceList := s.1 }
    ⟨some (.v3Query query), s.2, s.2.pos - startPos⟩

/-- The case of a report of version 3. -/
def parseV3Report (startPos : ℕ) (b : Buffer) : Parsed :=
  let (_, b) := b.readUint16
  let (s, b) := b.readUint16
  let (groupRecord, b) := readGroupRecords s.toNat b
  ⟨some (.v3Report groupRecord), b, b.pos - startPos⟩

/-- The `switch` of `deserialize`. -/
def parse (startPos : ℕ) (type code : UInt8) (b : Buffer) : Except ParserFault Parsed :=
  if type = IGMP_MEMBERSHIP_QUERY then
    if code = 0 then .ok (parseGroup .v1Query b)
    else if b.buf.length - startPos = 8 then .ok (parseGroup (.v2Query · code) b)
    else parseV3Query startPos code b
  else if type = IGMPV1_MEMBERSHIP_REPORT then .ok (parseGroup .v1Report b)
  else if type = IGMPV2_MEMBERSHIP_REPORT then .ok (parseGroup .v2Report b)
  else if type = IGMPV2_LEAVE_GROUP then .ok (parseGroup .v2Leave b)
  else if type = IGMPV3_MEMBERSHIP_REPORT then .ok (parseV3Report startPos b)
  else .ok ⟨none, { b with pos := b.buf.length }, b.buf.length - startPos⟩

/-- `IGMPSerializer::deserialize`: the message, if the type is known (else the bytes as they are),
and whether there is a bit error. -/
def deserialize (b : Buffer) : Except ParserFault (Option IGMPMessage × Bool) :=
  let (type, b₁) := b.readByte
  let (code, b₂) := b₁.readByte
  let (_, b₃) := b₂.readUint16
  (parse b.pos type code b₃).map fun p ↦
    (p.message, p.message.isNone || p.b.errorFound ||
      TCPIPchecksum.plainChecksum ((b.buf.drop b.pos).take p.byteLength) ≠ 0)

/-! ### The format -/

/-- The bytes of a source list. -/
def addressBytes (sourceList : List IPv4Address) : List UInt8 :=
  sourceList.flatMap bytes32

/-- The bytes of a group record. -/
def recordBytes (gr : GroupRecord) : List UInt8 :=
  [gr.recordType] ++ [0] ++ bytes16 (UInt16.ofNat gr.sourceList.length) ++
    bytes32 gr.groupAddress ++ addressBytes gr.sourceList

/-- The code of a message. -/
def codeByte : IGMPMessage → UInt8
  | .v2Query _ maxRespTime => maxRespTime
  | .v3Query q => q.maxRespCode
  | _ => 0

/-- The bytes behind the checksum. -/
def bodyBytes : IGMPMessage → List UInt8
  | .v1Query groupAddress | .v2Query groupAddress _ | .v1Report groupAddress
  | .v2Report groupAddress | .v2Leave groupAddress => bytes32 groupAddress
  | .v3Query q =>
    bytes32 q.groupAddress ++ [flagsByte q.suppressRouterProc q.robustnessVariable] ++
      [q.queryIntervalCode] ++ bytes16 (UInt16.ofNat q.sourceList.length) ++
      addressBytes q.sourceList
  | .v3Report groupRecord =>
    bytes16 0 ++ bytes16 (UInt16.ofNat groupRecord.length) ++ groupRecord.flatMap recordBytes

/-- The bytes of a message with a checksum. -/
def messageBytes (pkt : IGMPMessage) (x : UInt16) : List UInt8 :=
  [pkt.type] ++ [codeByte pkt] ++ bytes16 x ++ bodyBytes pkt

/-- The size of a message. -/
def byteLength (pkt : IGMPMessage) : ℕ :=
  4 + (bodyBytes pkt).length

theorem length_messageBytes (pkt : IGMPMessage) (x : UInt16) :
    (messageBytes pkt x).length = byteLength pkt := by
  simp only [messageBytes, byteLength, bytes16, List.length_append, List.length_cons,
    List.length_nil]

/-- The messages that come back as they were. -/
def Faithful : IGMPMessage → Prop
  | .v2Query _ maxRespTime => maxRespTime ≠ 0
  | .v3Query q => q.maxRespCode ≠ 0 ∧ q.sourceList = [] ∧ q.robustnessVariable ≤ 7
  | .v3Report groupRecord =>
    groupRecord.length < 2 ^ 16 ∧ ∀ gr ∈ groupRecord, gr.sourceList.length < 2 ^ 16
  | _ => True

/-- A message that is written into a buffer of its size is parsed as it was, without a bit error. -/
def RoundTrips (pkt : IGMPMessage) : Prop :=
  ∀ b : Buffer, b.pos = 0 → b.buf.length = byteLength pkt →
    ∃ b', serialize pkt b = .ok b' ∧ deserialize { buf := b'.buf } = .ok (some pkt, false)

/-! ### What is written -/

variable {b : Buffer} {pkt : IGMPMessage} {rest : List UInt8}

theorem writes_sourceList (sourceList : List IPv4Address) :
    Writes (sourceList.foldl writeIPv4Address ·) (addressBytes sourceList) :=
  writes_foldl writes_writeIPv4Address sourceList

theorem writes_writeHead (type : UInt8) (groupAddress : IPv4Address) :
    Writes (writeHead type groupAddress) ([type] ++ [0] ++ bytes16 0 ++ bytes32 groupAddress) := by
  have hwrites := (((writes_writeByte type).seq (writes_writeByte 0)).seq
    (writes_writeUint16 0)).seq (writes_writeIPv4Address groupAddress)
  exact hwrites

theorem writes_writeGroupRecord (gr : GroupRecord) :
    Writes (writeGroupRecord · gr) (recordBytes gr) := by
  have hwrites := ((((writes_writeByte gr.recordType).seq (writes_writeByte 0)).seq
    (writes_writeUint16 (UInt16.ofNat gr.sourceList.length))).seq
      (writes_writeIPv4Address gr.groupAddress)).seq (writes_sourceList gr.sourceList)
  exact hwrites

/-- The code is filled in behind the type. -/
theorem writes_code {f : Buffer → Buffer} {type : UInt8} {l : List UInt8}
    (hf : Writes f ([type] ++ [0] ++ l)) (hpos : b.pos = 0)
    (hroom : b.HasRoom ([type] ++ [0] ++ l).length) (code : UInt8) :
    (f b).writeByteTo 1 code = b.put ([type] ++ [code] ++ l) := by
  have hbuf : (f b).buf = [type] ++ [0] ++ (l ++ b.buf.drop ([type] ++ [0] ++ l).length) := by
    rw [hf b hroom, put, hpos, List.take_zero, Nat.zero_add, List.nil_append, List.append_assoc]
  have hfilled := writeByteTo_eq (l := [type]) hbuf code
  rw [hf b hroom] at hfilled ⊢
  rw [List.length_singleton] at hfilled
  rw [hfilled]
  simp [put, hpos]

theorem writeMessage_eq (hpos : b.pos = 0) (hlength : b.buf.length = byteLength pkt)
    (hrobust : ∀ q, pkt = .v3Query q → q.robustnessVariable ≤ 7) :
    writeMessage pkt b = .ok { b with buf := messageBytes pkt 0, pos := byteLength pkt } := by
  have hput := put_eq_of_length hpos (hlength.trans (length_messageBytes pkt 0).symm)
  rw [length_messageBytes] at hput
  have hroom : b.HasRoom (messageBytes pkt 0).length := by
    rw [HasRoom, hpos, hlength, length_messageBytes, Nat.zero_add]
  rw [← hput]
  cases pkt with
  | v1Query groupAddress => exact congrArg Except.ok (writes_writeHead _ _ b hroom)
  | v2Query groupAddress maxRespTime =>
    exact congrArg Except.ok (writes_code (writes_writeHead _ groupAddress) hpos hroom _)
  | v3Query q =>
    have hsplit : messageBytes (.v3Query q) 0 =
        ([IGMP_MEMBERSHIP_QUERY] ++ [q.maxRespCode] ++ (bytes16 0 ++ bytes32 q.groupAddress)) ++
          ([flagsByte q.suppressRouterProc q.robustnessVariable] ++ [q.queryIntervalCode] ++
            bytes16 (UInt16.ofNat q.sourceList.length) ++ addressBytes q.sourceList) := by
      simp [messageBytes, bodyBytes, IGMPMessage.type, codeByte]
    have htail := (((writes_writeByte (flagsByte q.suppressRouterProc q.robustnessVariable)).seq
      (writes_writeByte q.queryIntervalCode)).seq
        (writes_writeUint16 (UInt16.ofNat q.sourceList.length))).seq
          (writes_sourceList q.sourceList)
    rw [hsplit, List.length_append] at hroom
    have hhead := writes_code (writes_writeHead IGMP_MEMBERSHIP_QUERY q.groupAddress) hpos
      (hroom.mono (Nat.le_add_right _ _)) q.maxRespCode
    rw [writeMessage, assert, if_pos (hrobust q rfl), hhead, hsplit, ← put_put hroom]
    exact congrArg Except.ok (htail _ (hasRoom_put hroom))
  | v1Report groupAddress => exact congrArg Except.ok (writes_writeHead _ _ b hroom)
  | v2Report groupAddress => exact congrArg Except.ok (writes_writeHead _ _ b hroom)
  | v2Leave groupAddress => exact congrArg Except.ok (writes_writeHead _ _ b hroom)
  | v3Report groupRecord =>
    refine congrArg Except.ok ?_
    have hwrites := (((((writes_writeByte IGMPV3_MEMBERSHIP_REPORT).seq (writes_writeByte 0)).seq
      (writes_writeUint16 0)).seq (writes_writeUint16 0)).seq
        (writes_writeUint16 (UInt16.ofNat groupRecord.length))).seq
          (writes_foldl writes_writeGroupRecord groupRecord)
    have hsplit : messageBytes (.v3Report groupRecord) 0 =
        [IGMPV3_MEMBERSHIP_REPORT] ++ [0] ++ bytes16 0 ++ bytes16 0 ++
          bytes16 (UInt16.ofNat groupRecord.length) ++ groupRecord.flatMap recordBytes := by
      simp [messageBytes, bodyBytes, IGMPMessage.type, codeByte]
    rw [hsplit] at hroom ⊢
    exact hwrites b hroom

/-- **Writing a message** into a buffer of its size. -/
theorem serialize_eq (hpos : b.pos = 0) (hlength : b.buf.length = byteLength pkt)
    (hrobust : ∀ q, pkt = .v3Query q → q.robustnessVariable ≤ 7) :
    ∃ b', serialize pkt b = .ok b' ∧
      b'.buf = messageBytes pkt (TCPIPchecksum.plainChecksum (messageBytes pkt 0)) := by
  rw [serialize, writeMessage_eq hpos hlength hrobust]
  refine ⟨_, rfl, ?_⟩
  have hwritten : written b.pos { b with buf := messageBytes pkt 0, pos := byteLength pkt } =
      messageBytes pkt 0 := by
    rw [written, hpos, List.drop_zero, ← length_messageBytes pkt 0, List.take_length]
  dsimp only
  rw [hwritten]
  exact congrArg Buffer.buf (writeUint16To_eq (l := [pkt.type] ++ [codeByte pkt])
    (b := { b with buf := messageBytes pkt 0, pos := byteLength pkt }) rfl _)

/-! ### What is parsed -/

theorem toNat_ofNat_length {α : Type} {l : List α} (h : l.length < 2 ^ 16) :
    (UInt16.ofNat l.length).toNat = l.length :=
  UInt16.toNat_ofNat_of_lt' h

theorem readSourceList_eq {sourceList : List IPv4Address}
    (h : b.remaining = addressBytes sourceList ++ rest) (herror : b.errorFound = false) :
    readSourceList sourceList.length b =
      (sourceList, b.advance (addressBytes sourceList).length) := by
  induction sourceList generalizing b with
  | nil => rfl
  | cons addr sourceList ih =>
    rw [addressBytes, List.flatMap_cons, ← addressBytes, List.append_assoc] at h
    have hrest := ih (b := b.advance 4) (remaining_advance (l := bytes32 addr) h) herror
    rw [List.length_cons, readSourceList, if_neg (by rw [herror]; exact Bool.false_ne_true),
      readIPv4Address, readUint32_of_remaining h]
    dsimp only
    rw [hrest, advance_advance, addressBytes, addressBytes, List.flatMap_cons, List.length_append]
    rfl

/-- Nothing is accessed behind some bytes that have been read. -/
theorem accessNBytes_zero {l : List UInt8} (h : b.remaining = l ++ rest) (hpos : 0 < l.length) :
    ((b.advance l.length).accessNBytes 0).2 = b.advance l.length := by
  have hlength := congrArg List.length h
  rw [length_remaining, getRemainingSize, List.length_append] at hlength
  rw [accessNBytes, if_pos (by show b.pos + l.length + 0 ≤ b.buf.length; omega)]
  rfl

theorem length_recordBytes (gr : GroupRecord) :
    (recordBytes gr).length = 8 + (addressBytes gr.sourceList).length := by
  simp only [recordBytes, bytes16, bytes32, List.length_append, List.length_cons, List.length_nil]

theorem readGroupRecord_eq {gr : GroupRecord} (hsources : gr.sourceList.length < 2 ^ 16)
    (h : b.remaining = recordBytes gr ++ rest) (herror : b.errorFound = false) :
    readGroupRecord b = (gr, b.advance (recordBytes gr).length) := by
  have haccess := accessNBytes_zero h (by rw [length_recordBytes]; omega)
  simp only [recordBytes, List.append_assoc] at h
  have h₁ : (b.advance 1).remaining = _ := remaining_advance h
  have h₂ : (b.advance 2).remaining = _ := remaining_advance h₁
  have h₄ : (b.advance 4).remaining = _ := remaining_advance h₂
  have h₈ : (b.advance 8).remaining = _ := remaining_advance h₄
  simp only [readGroupRecord, readIPv4Address, readByte_of_remaining h, readByte_of_remaining h₁,
    readUint16_of_remaining h₂, readUint32_of_remaining h₄, readSourceList_eq h₈ herror,
    advance_advance, Nat.reduceAdd, toNat_ofNat_length hsources]
  rw [length_recordBytes] at haccess ⊢
  exact congrArg _ haccess

/-- The loop over the group records, as far as the counts fit. -/
theorem readGroupRecords_eq {groupRecord : List GroupRecord}
    (hsources : ∀ gr ∈ groupRecord, gr.sourceList.length < 2 ^ 16)
    (h : b.remaining = groupRecord.flatMap recordBytes ++ rest) (herror : b.errorFound = false) :
    readGroupRecords groupRecord.length b =
      (groupRecord, b.advance (groupRecord.flatMap recordBytes).length) := by
  induction groupRecord generalizing b with
  | nil => rfl
  | cons gr groupRecord ih =>
    rw [List.flatMap_cons, List.append_assoc] at h
    have hfirst := readGroupRecord_eq (hsources gr List.mem_cons_self) h herror
    have hrest := ih (fun gr hgr ↦ hsources gr (List.mem_cons_of_mem _ hgr)) (remaining_advance h)
      herror
    rw [List.length_cons, readGroupRecords, if_neg (by rw [herror]; exact Bool.false_ne_true),
      hfirst]
    dsimp only
    rw [hrest, advance_advance, List.flatMap_cons, List.length_append]

theorem flagsByte_bits (suppressRouterProc : Bool) {robustnessVariable : UInt8}
    (h : robustnessVariable ≤ 7) :
    decide (flagsByte suppressRouterProc robustnessVariable &&& 0x8 ≠ 0) = suppressRouterProc ∧
      flagsByte suppressRouterProc robustnessVariable &&& 7 = robustnessVariable := by
  have hbits : ∀ n < 8, ∀ s, decide (flagsByte s (UInt8.ofNat n) &&& 0x8 ≠ 0) = s ∧
      flagsByte s (UInt8.ofNat n) &&& 7 = UInt8.ofNat n := by decide
  have hlt : robustnessVariable.toNat < 8 := by
    have := UInt8.le_iff_toNat_le.1 h
    exact Nat.lt_succ_of_le this
  have := hbits _ hlt suppressRouterProc
  rwa [UInt8.ofNat_toNat] at this

theorem parseV3Query_eq {q : IGMPv3Query} (hsources : q.sourceList = [])
    (hrobust : q.robustnessVariable ≤ 7) (h : b.remaining = bodyBytes (.v3Query q)) :
    parseV3Query 0 q.maxRespCode b =
      .ok ⟨some (.v3Query q), b.advance 8, (b.advance 8).pos⟩ := by
  obtain ⟨groupAddress, code, suppressRouterProc, robustnessVariable, interval, sourceList⟩ := q
  obtain rfl : sourceList = [] := hsources
  obtain ⟨hflag, hvariable⟩ := flagsByte_bits suppressRouterProc hrobust
  simp only [bodyBytes, List.append_assoc] at h
  have h₄ : (b.advance 4).remaining = _ := remaining_advance h
  have h₅ : (b.advance 5).remaining = _ := remaining_advance h₄
  have h₆ : (b.advance 6).remaining = _ := remaining_advance h₅
  simp only [parseV3Query, readIPv4Address, readUint32_of_remaining h, readByte_of_remaining h₄,
    readByte_of_remaining h₅, readUint16_of_remaining h₆, advance_advance, Nat.reduceAdd, hflag,
    hvariable]
  rfl

theorem parseV3Report_eq {groupRecord : List GroupRecord} (hcount : groupRecord.length < 2 ^ 16)
    (hsources : ∀ gr ∈ groupRecord, gr.sourceList.length < 2 ^ 16)
    (h : b.remaining = bodyBytes (.v3Report groupRecord)) (herror : b.errorFound = false) :
    parseV3Report 0 b = ⟨some (.v3Report groupRecord),
      b.advance (bodyBytes (.v3Report groupRecord)).length,
      (b.advance (bodyBytes (.v3Report groupRecord)).length).pos⟩ := by
  have hlength : (bodyBytes (.v3Report groupRecord)).length =
      4 + (groupRecord.flatMap recordBytes).length := by
    simp only [bodyBytes, bytes16, List.length_append, List.length_cons, List.length_nil]
  rw [hlength]
  simp only [bodyBytes, List.append_assoc] at h
  have h₂ : (b.advance 2).remaining = _ := remaining_advance h
  have h₄ : (b.advance 4).remaining = _ := remaining_advance h₂
  rw [← List.append_nil (groupRecord.flatMap recordBytes)] at h₄
  simp only [parseV3Report, readUint16_of_remaining h, readUint16_of_remaining h₂, advance_advance,
    Nat.reduceAdd, toNat_ofNat_length hcount, readGroupRecords_eq hsources h₄ herror, Nat.sub_zero]

/-- **Parsing a message** behind its checksum. -/
theorem parse_eq (hfaithful : Faithful pkt) (h : b.remaining = bodyBytes pkt)
    (herror : b.errorFound = false) (hpos : b.pos = 4) (hlength : b.buf.length = byteLength pkt) :
    ∃ b', parse 0 pkt.type (codeByte pkt) b = .ok ⟨some pkt, b', byteLength pkt⟩ ∧
      b'.errorFound = false := by
  have hgroup {groupAddress : IPv4Address} (hb : b.remaining = bytes32 groupAddress) :
      b.readUint32 = (groupAddress, b.advance 4) := by
    rw [← List.append_nil (bytes32 groupAddress)] at hb
    exact readUint32_of_remaining hb
  cases pkt with
  | v1Query groupAddress =>
    exact ⟨b.advance 4, by simp only [parse, parseGroup, readIPv4Address, hgroup h]; rfl, herror⟩
  | v2Query groupAddress maxRespTime =>
    refine ⟨b.advance 4, ?_, herror⟩
    rw [parse, IGMPMessage.type, if_pos rfl, codeByte, if_neg hfaithful,
      if_pos (show b.buf.length - 0 = 8 from hlength), parseGroup, readIPv4Address, hgroup h]
    rfl
  | v3Query q =>
    obtain ⟨hcode, hsources, hrobust⟩ := hfaithful
    have htwelve : byteLength (.v3Query q) = 12 := by
      rw [byteLength, bodyBytes, hsources]
      rfl
    refine ⟨b.advance 8, ?_, herror⟩
    rw [parse, IGMPMessage.type, if_pos rfl, codeByte, if_neg hcode,
      if_neg (by rw [hlength, htwelve]; decide), parseV3Query_eq hsources hrobust h, htwelve]
    simp only [advance, hpos]
  | v1Report groupAddress =>
    exact ⟨b.advance 4, by simp only [parse, parseGroup, readIPv4Address, hgroup h]; rfl, herror⟩
  | v2Report groupAddress =>
    exact ⟨b.advance 4, by simp only [parse, parseGroup, readIPv4Address, hgroup h]; rfl, herror⟩
  | v2Leave groupAddress =>
    exact ⟨b.advance 4, by simp only [parse, parseGroup, readIPv4Address, hgroup h]; rfl, herror⟩
  | v3Report groupRecord =>
    refine ⟨b.advance (bodyBytes (.v3Report groupRecord)).length, ?_, herror⟩
    have hparse := parseV3Report_eq hfaithful.1 hfaithful.2 h herror
    rw [parse, IGMPMessage.type, if_neg (by decide), if_neg (by decide), if_neg (by decide),
      if_neg (by decide), if_pos rfl, hparse, byteLength]
    simp only [advance, hpos]

/-- The checksum that is written verifies: the type is not zero. -/
theorem plainChecksum_messageBytes (pkt : IGMPMessage) :
    TCPIPchecksum.plainChecksum
      (messageBytes pkt (TCPIPchecksum.plainChecksum (messageBytes pkt 0))) = 0 := by
  refine TCPIPchecksum.plainChecksum_of_written (l := [pkt.type] ++ [codeByte pkt]) ⟨1, rfl⟩ ?_
  have htype : 0 < pkt.type.toNat := by
    cases pkt <;> exact Nat.succ_pos _
  show 0 < pkt.type.toNat * 2 ^ 8 + (codeByte pkt).toNat + _
  omega

/-- **Parsing** a message with a checksum that verifies. -/
theorem deserialize_eq {x : UInt16} (hfaithful : Faithful pkt) (hbuf : b.buf = messageBytes pkt x)
    (hpos : b.pos = 0) (herror : b.errorFound = false)
    (hzero : TCPIPchecksum.plainChecksum (messageBytes pkt x) = 0) :
    deserialize b = .ok (some pkt, false) := by
  have h : b.remaining = [pkt.type] ++ ([codeByte pkt] ++ (bytes16 x ++ bodyBytes pkt)) := by
    rw [remaining, hpos, hbuf, List.drop_zero, messageBytes, List.append_assoc, List.append_assoc]
  have h₁ : (b.advance 1).remaining = _ := remaining_advance h
  have h₂ : (b.advance 2).remaining = _ := remaining_advance h₁
  have h₄ : (b.advance 4).remaining = _ := remaining_advance h₂
  have hlength : b.buf.length = byteLength pkt := by rw [hbuf, length_messageBytes]
  obtain ⟨b', hparse, herror'⟩ := parse_eq (b := b.advance 4) hfaithful h₄ herror
    (by rw [advance, hpos]) hlength
  have hwhole : (b.buf.drop 0).take (byteLength pkt) = messageBytes pkt x := by
    rw [List.drop_zero, ← hlength, List.take_length, hbuf]
  simp only [deserialize, readByte_of_remaining h, readByte_of_remaining h₁,
    readUint16_of_remaining h₂, advance_advance, Nat.reduceAdd, hpos, hparse, Except.map, hwhole,
    hzero, herror']
  rfl

/-- A faithful message comes back. -/
theorem Faithful.roundTrips (h : Faithful pkt) : RoundTrips pkt := by
  intro b hpos hlength
  obtain ⟨b', hserialize, hbuf⟩ := serialize_eq hpos hlength (by
    rintro q rfl
    exact h.2.2)
  exact ⟨b', hserialize, deserialize_eq h hbuf rfl rfl (plainChecksum_messageBytes pkt)⟩

/-! ### What a parser can give -/

theorem length_readSourceList (n : ℕ) (b : Buffer) : (readSourceList n b).1.length ≤ n := by
  induction n generalizing b with
  | zero => exact le_rfl
  | succ n ih =>
    rw [readSourceList]
    split
    · exact Nat.zero_le _
    · exact Nat.succ_le_succ (ih _)

theorem length_sourceList_readGroupRecord (b : Buffer) :
    (readGroupRecord b).1.sourceList.length < 2 ^ 16 :=
  (length_readSourceList _ _).trans_lt (UInt16.toNat_lt _)

/-- There are not more group records than the count says, and not more sources in one. -/
theorem readGroupRecords_spec (n : ℕ) (b : Buffer) :
    (readGroupRecords n b).1.length ≤ n ∧
      ∀ gr ∈ (readGroupRecords n b).1, gr.sourceList.length < 2 ^ 16 := by
  induction n generalizing b with
  | zero => exact ⟨le_rfl, fun gr h ↦ absurd h List.not_mem_nil⟩
  | succ n ih =>
    rw [readGroupRecords]
    split
    · exact ⟨Nat.zero_le _, fun gr h ↦ absurd h List.not_mem_nil⟩
    · obtain ⟨hlength, hsources⟩ := ih (readGroupRecord b).2
      simp only [List.length_cons, List.forall_mem_cons]
      exact ⟨Nat.succ_le_succ hlength, length_sourceList_readGroupRecord b, hsources⟩

/-- The source list of a query has no places to write to. -/
theorem fillSourceList_nil {n : ℕ} {s : List IPv4Address × Buffer}
    (h : fillSourceList n 0 [] b = .ok s) : s.1 = [] := by
  cases n with
  | zero =>
    cases h
    rfl
  | succ n =>
    obtain herror | herror := b.errorFound.eq_false_or_eq_true <;>
      simp [fillSourceList, herror] at h
    rw [← h]

theorem and_seven_le (x : UInt8) : x &&& 7 ≤ 7 := by
  rw [UInt8.le_iff_toNat_le, UInt8.toNat_and]
  exact Nat.and_le_right

theorem faithful_of_parseV3Query {startPos : ℕ} {code : UInt8} {p : Parsed} (hcode : code ≠ 0)
    (h : parseV3Query startPos code b = .ok p) (hp : p.message = some pkt) : Faithful pkt := by
  obtain ⟨s, hs, rfl⟩ := exists_of_map_eq_ok h
  obtain rfl := Option.some_inj.1 hp
  exact ⟨hcode, fillSourceList_nil hs, and_seven_le _⟩

theorem faithful_of_parseV3Report {startPos : ℕ}
    (hp : (parseV3Report startPos b).message = some pkt) : Faithful pkt := by
  obtain rfl := Option.some_inj.1 hp
  obtain ⟨hcount, hsources⟩ := readGroupRecords_spec _ _
  exact ⟨hcount.trans_lt (UInt16.toNat_lt _), hsources⟩

/-- **What is parsed** is faithful: a query with a code is of version 2 or 3, and one of version 3
has no sources. -/
theorem faithful_of_parse {startPos : ℕ} {type code : UInt8} {p : Parsed}
    (h : parse startPos type code b = .ok p) (hp : p.message = some pkt) : Faithful pkt := by
  have hgroup {make : IPv4Address → IGMPMessage}
      (h : Except.ok (parseGroup make b) = (Except.ok p : Except ParserFault Parsed))
      (hmake : ∀ addr, Faithful (make addr)) : Faithful pkt := by
    obtain rfl := Except.ok.inj h
    obtain rfl := Option.some_inj.1 hp
    exact hmake _
  rw [parse] at h
  split_ifs at h with hquery hzero hsize hreport₁ hreport₂ hleave hreport₃
  · exact hgroup h fun addr ↦ trivial
  · exact hgroup h fun addr ↦ hzero
  · exact faithful_of_parseV3Query hzero h hp
  · exact hgroup h fun addr ↦ trivial
  · exact hgroup h fun addr ↦ trivial
  · exact hgroup h fun addr ↦ trivial
  · obtain rfl := Except.ok.inj h
    exact faithful_of_parseV3Report hp
  · obtain rfl := Except.ok.inj h
    cases hp

theorem faithful_of_deserialize {error : Bool}
    (h : deserialize b = .ok (some pkt, error)) : Faithful pkt := by
  obtain ⟨p, hparse, hp⟩ := exists_of_map_eq_ok h
  exact faithful_of_parse hparse (congrArg Prod.fst hp)

/-- **A message comes back** as it was, without a bit error, just if it is faithful. -/
theorem message_roundTrips_iff (pkt : IGMPMessage) : RoundTrips pkt ↔ Faithful pkt := by
  refine ⟨fun h ↦ ?_, Faithful.roundTrips⟩
  obtain ⟨b', -, hdeserialize⟩ :=
    h { buf := List.replicate (byteLength pkt) 0 } rfl List.length_replicate
  exact faithful_of_deserialize hdeserialize

/-- What comes back of a message. -/
def back (pkt : IGMPMessage) : Except SerializerError
    (Except ParserFault (Option IGMPMessage × Bool)) :=
  (serialize pkt { buf := List.replicate (byteLength pkt) 0 }).map fun b' ↦
    deserialize { buf := b'.buf }

/-- A query of version 2 with no response time comes back as one of version 1, and so does one of
version 3 with no code. For the source of a query of version 3 there is no place. -/
theorem not_roundTrips_query :
    back (.v2Query 0xE0000016 0) = .ok (.ok (some (.v1Query 0xE0000016), false)) ∧
      back (.v3Query { groupAddress := 0xE0000016, maxRespCode := 0 }) =
        .ok (.ok (some (.v1Query 0xE0000016), false)) ∧
      back (.v3Query { groupAddress := 0xE0000016, maxRespCode := 1, sourceList := [0x0A000001] }) =
        .ok (.error .outOfBounds) ∧
      ¬ RoundTrips (.v2Query 0xE0000016 0) := by
  have hback : back (.v2Query 0xE0000016 0) = .ok (.ok (some (.v1Query 0xE0000016), false)) := rfl
  refine ⟨hback, rfl, rfl, fun h ↦ ?_⟩
  obtain ⟨b', hserialize, hdeserialize⟩ :=
    h { buf := List.replicate (byteLength (.v2Query 0xE0000016 0)) 0 } rfl List.length_replicate
  rw [back, hserialize, Except.map, hdeserialize] at hback
  cases hback

end IGMPSerializer

end Inet.Serializer
