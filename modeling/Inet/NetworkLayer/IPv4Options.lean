import Inet.Common.TCPIPchecksum

/-!
# IPv4 options as bytes

`IPv4OptionDefaultSerializer` writes the options of a datagram one after the other and parses them
again. A timestamp option without addresses is written with its timestamps, but the loop that reads
timestamps runs over the addresses: it reads none, and what has been written of them is taken for
further options.

`Valid` options are those whose type, length and fields agree, and `Readable` ones come back as they
were. An option that is parsed without an error is always readable or a timestamp option without
addresses, and the bytes it has been parsed from are counted (`takes_deserializeOption`).
-/

namespace Inet.Serializer

/-- The fields of the classes of options. Timestamps are in milliseconds. -/
inductive IPv4OptionFields
  | endOfOptions
  | nop
  | streamId (streamId : UInt16)
  | timestamp (flag overflow nextIdx : ℕ) (recordAddress : List IPv4Address)
    (recordTimestamp : List UInt32)
  | recordRoute (nextAddressIdx : ℕ) (recordAddress : List IPv4Address)
  | raw (bytes : List UInt8)
  deriving DecidableEq

/-- `TLVOptionBase`. -/
structure TLVOption where
  type : ℕ
  length : ℕ
  fields : IPv4OptionFields
  deriving DecidableEq

/-- What stops a serialization of a datagram. -/
inductive IPv4SerializerError
  | assertionFailed
  | castFailed
  | indexOutOfRange
  | unknownOption (type : ℕ)
  | notEnoughForOptions
  | payload
  deriving DecidableEq

namespace IPv4Serializer

open Buffer

/-- A check, before going on. -/
def require {α : Type} (p : Prop) [Decidable p] (e : IPv4SerializerError) (a : α) :
    Except IPv4SerializerError α :=
  if p then .ok a else .error e

/-! ### Writing -/

/-- The size of a slot of a timestamp option. -/
def slotSize (flag : ℕ) : ℕ :=
  if flag = 0 then 4 else 8

/-- One slot with an address. -/
def writeSlot (b : Buffer) (slot : IPv4Address × UInt32) : Buffer :=
  (b.writeIPv4Address slot.1).writeUint32 slot.2

/-- The loop over the slots of a timestamp option. -/
def writeSlots (flag : ℕ) (recordAddress : List IPv4Address) (recordTimestamp : List UInt32)
    (b : Buffer) : Except IPv4SerializerError Buffer :=
  if flag = 0 then .ok (recordTimestamp.foldl writeUint32 b)
  else require (recordTimestamp.length ≤ recordAddress.length) .indexOutOfRange
    ((recordAddress.zip recordTimestamp).foldl writeSlot b)

/-- `IPv4OptionDefaultSerializer::serializeOption`. -/
def serializeOption (option : TLVOption) (b : Buffer) : Except IPv4SerializerError Buffer :=
  let b := b.writeByte (UInt8.ofNat option.type)
  let b := if 1 < option.length then b.writeByte (UInt8.ofNat option.length) else b
  match option.fields with
  | .raw bytes =>
    require (option.length = 2 + bytes.length) .assertionFailed (bytes.foldl writeByte b)
  | fields =>
    match option.type with
    | 0 =>
      match fields with
      | .endOfOptions => require (option.length = 1) .assertionFailed b
      | _ => .error .castFailed
    | 1 =>
      match fields with
      | .nop => require (option.length = 1) .assertionFailed b
      | _ => .error .castFailed
    | 8 =>
      match fields with
      | .streamId streamId => require (option.length = 4) .assertionFailed (b.writeUint16 streamId)
      | _ => .error .castFailed
    | 68 =>
      match fields with
      | .timestamp flag overflow nextIdx recordAddress recordTimestamp => do
        let b ← require (option.length = 4 + slotSize flag * recordTimestamp.length)
          .assertionFailed b
        let pointer := UInt8.ofNat (5 + nextIdx * slotSize flag)
        let flagbyte := UInt8.ofNat (overflow <<< 4 ||| flag)
        writeSlots flag recordAddress recordTimestamp ((b.writeByte pointer).writeByte flagbyte)
      | _ => .error .castFailed
    | 136 | 131 | 137 =>
      match fields with
      | .recordRoute nextAddressIdx recordAddress =>
        require (option.length = 3 + 4 * recordAddress.length) .assertionFailed
          (recordAddress.foldl writeIPv4Address
            (b.writeByte (UInt8.ofNat (4 + nextAddressIdx * 4))))
      | _ => .error .castFailed
    | type => .error (.unknownOption type)

/-! ### Parsing -/

/-- The end of `deserializeOption`: the option is read from its beginning, as raw bytes. -/
def readRaw (pos : ℕ) (b : Buffer) : TLVOption × Buffer :=
  let (type, b) := (b.seek pos).readByte
  let (length, b) := b.readByte
  let (bytes, b) := readNBytes (length.toNat - 2) b
  (⟨type.toNat, length.toNat, .raw bytes⟩, b)

/-- The loop over the addresses of a route. -/
def readAddresses : ℕ → Buffer → List IPv4Address × Buffer
  | 0, b => ([], b)
  | n + 1, b =>
    let (addr, b) := b.readIPv4Address
    let (addrs, b) := readAddresses n b
    (addr :: addrs, b)

/-- The loop over the slots of a timestamp option that has addresses. -/
def readSlots : ℕ → Buffer → List (IPv4Address × UInt32) × Buffer
  | 0, b => ([], b)
  | n + 1, b =>
    let (addr, b) := b.readIPv4Address
    let (timestamp, b) := b.readUint32
    let (slots, b) := readSlots n b
    ((addr, timestamp) :: slots, b)

/-- A stream identifier, behind its type. -/
def readStreamId (pos : ℕ) (b : Buffer) : TLVOption × Buffer :=
  let (length, b) := b.readByte
  if length = 4 then
    let (streamId, b) := b.readUint16
    (⟨8, 4, .streamId streamId⟩, b)
  else readRaw pos b

/-- The flag in a byte, if it is known. -/
def flagOf (flagbyte : UInt8) : Option ℕ :=
  match (flagbyte &&& 0x0f).toNat with
  | 0 => some 0
  | 1 => some 1
  | 3 => some 3
  | _ => none

/-- The slots of a timestamp option. There are as many addresses as timestamps, or none; the loop
runs over the addresses, and leaves a timestamp that it does not read zero. -/
def readTimestampSlots (flag n : ℕ) (b : Buffer) :
    (List IPv4Address × List UInt32) × Buffer :=
  if flag = 0 then (([], List.replicate n 0), b)
  else
    let (slots, b) := readSlots n b
    (slots.unzip, b)

/-- The conditions on a timestamp option. -/
def TimestampOk (length pointer flag : ℕ) : Prop :=
  4 < length ∧ (length - 4) % slotSize flag = 0 ∧ 5 ≤ pointer ∧ (pointer - 5) % slotSize flag = 0

instance (length pointer flag : ℕ) : Decidable (TimestampOk length pointer flag) :=
  inferInstanceAs (Decidable (_ ∧ _))

/-- A timestamp option, behind its type. -/
def readTimestamp (pos : ℕ) (b : Buffer) : TLVOption × Buffer :=
  let (length, b) := b.readByte
  let (pointer, b) := b.readByte
  let (flagbyte, b) := b.readByte
  match flagOf flagbyte with
  | some flag =>
    if TimestampOk length.toNat pointer.toNat flag then
      let (slots, b) := readTimestampSlots flag ((length.toNat - 4) / slotSize flag) b
      (⟨68, length.toNat, .timestamp flag (flagbyte >>> 4).toNat
        ((pointer.toNat - 5) / slotSize flag) slots.1 slots.2⟩, b)
    else readRaw pos b
  | none => readRaw pos b

/-- The conditions on a route. -/
def RouteOk (length pointer : ℕ) : Prop :=
  3 < length ∧ length % 4 = 3 ∧ 4 ≤ pointer ∧ pointer % 4 = 0

instance (length pointer : ℕ) : Decidable (RouteOk length pointer) :=
  inferInstanceAs (Decidable (_ ∧ _))

/-- A route of a type, behind that. -/
def readRecordRoute (pos type : ℕ) (b : Buffer) : TLVOption × Buffer :=
  let (length, b) := b.readByte
  let (pointer, b) := b.readByte
  if RouteOk length.toNat pointer.toNat then
    let (recordAddress, b) := readAddresses ((length.toNat - 3) / 4) b
    (⟨type, length.toNat, .recordRoute ((pointer.toNat - 4) / 4) recordAddress⟩, b)
  else readRaw pos b

/-- `IPv4OptionDefaultSerializer::deserializeOption`. -/
def deserializeOption (b : Buffer) : TLVOption × Buffer :=
  let pos := b.pos
  let (type, b) := b.readByte
  match type.toNat with
  | 0 => (⟨0, 1, .endOfOptions⟩, b)
  | 1 => (⟨1, 1, .nop⟩, b)
  | 8 => readStreamId pos b
  | 68 => readTimestamp pos b
  | 136 => readRecordRoute pos 136 b
  | 131 => readRecordRoute pos 131 b
  | 137 => readRecordRoute pos 137 b
  | _ => readRaw pos b.readByte.2

/-! ### The bytes of an option -/

/-- The bytes of a slot with an address. -/
def slotBytes (slot : IPv4Address × UInt32) : List UInt8 :=
  bytes32 slot.1 ++ bytes32 slot.2

/-- The bytes of the slots of a timestamp option. -/
def slotsBytes (flag : ℕ) (recordAddress : List IPv4Address) (recordTimestamp : List UInt32) :
    List UInt8 :=
  if flag = 0 then recordTimestamp.flatMap bytes32
  else (recordAddress.zip recordTimestamp).flatMap slotBytes

/-- The bytes behind the type and the length. -/
def fieldBytes : IPv4OptionFields → List UInt8
  | .endOfOptions => []
  | .nop => []
  | .streamId streamId => bytes16 streamId
  | .timestamp flag overflow nextIdx recordAddress recordTimestamp =>
    [UInt8.ofNat (5 + nextIdx * slotSize flag)] ++ [UInt8.ofNat (overflow <<< 4 ||| flag)] ++
      slotsBytes flag recordAddress recordTimestamp
  | .recordRoute nextAddressIdx recordAddress =>
    [UInt8.ofNat (4 + nextAddressIdx * 4)] ++ recordAddress.flatMap bytes32
  | .raw bytes => bytes

/-- What is written of an option. -/
def optionBytes (option : TLVOption) : List UInt8 :=
  [UInt8.ofNat option.type] ++
    ((if 1 < option.length then [UInt8.ofNat option.length] else []) ++ fieldBytes option.fields)

/-- The types of the options that have a class. -/
def IsParsedType (type : ℕ) : Prop :=
  type = 0 ∨ type = 1 ∨ type = 8 ∨ type = 68 ∨ type = 136 ∨ type = 131 ∨ type = 137

instance (type : ℕ) : Decidable (IsParsedType type) :=
  inferInstanceAs (Decidable (_ ∨ _))

/-- The options whose type and length agree with their fields. -/
def Valid : TLVOption → Prop
  | ⟨type, length, .endOfOptions⟩ => type = 0 ∧ length = 1
  | ⟨type, length, .nop⟩ => type = 1 ∧ length = 1
  | ⟨type, length, .streamId _⟩ => type = 8 ∧ length = 4
  | ⟨type, length, .timestamp flag _ _ recordAddress recordTimestamp⟩ =>
    type = 68 ∧ length = 4 + slotSize flag * recordTimestamp.length ∧ 0 < recordTimestamp.length ∧
      (flag = 0 ∧ recordAddress = [] ∨
        (flag = 1 ∨ flag = 3) ∧ recordAddress.length = recordTimestamp.length)
  | ⟨type, length, .recordRoute _ recordAddress⟩ =>
    (type = 136 ∨ type = 131 ∨ type = 137) ∧ length = 3 + 4 * recordAddress.length ∧
      0 < recordAddress.length
  | ⟨type, length, .raw bytes⟩ => ¬ IsParsedType type ∧ length = 2 + bytes.length

/-- The numbers of an option fit into their bits. -/
def Fits : TLVOption → Prop
  | ⟨_, _, .timestamp flag overflow nextIdx _ _⟩ => overflow < 16 ∧ 5 + nextIdx * slotSize flag < 256
  | ⟨_, _, .recordRoute nextAddressIdx _⟩ => 4 + nextAddressIdx * 4 < 256
  | ⟨type, _, .raw _⟩ => type < 256
  | _ => True

/-- A timestamp option without addresses. -/
def IsTimestampOnly : TLVOption → Prop
  | ⟨_, _, .timestamp flag _ _ _ _⟩ => flag = 0
  | _ => False

/-- The options that come back as they were. -/
def Readable (option : TLVOption) : Prop :=
  Fits option ∧ ¬ IsTimestampOnly option

variable {o : TLVOption} {b : Buffer} {rest : List UInt8}

theorem length_flatMap_of_const {α : Type} {f : α → List UInt8} {n : ℕ}
    (hf : ∀ a, (f a).length = n) (l : List α) : (l.flatMap f).length = n * l.length := by
  induction l with
  | nil => rfl
  | cons a l ih =>
    rw [List.flatMap_cons, List.length_append, hf, ih, List.length_cons, Nat.mul_succ, Nat.add_comm]

/-- A valid option is as long as its length says. -/
theorem length_optionBytes (h : Valid o) : (optionBytes o).length = o.length := by
  obtain ⟨type, length, fields⟩ := o
  rw [optionBytes]
  cases fields with
  | endOfOptions => simp [h.2, fieldBytes]
  | nop => simp [h.2, fieldBytes]
  | streamId streamId => simp [h.2, fieldBytes, bytes16]
  | timestamp flag overflow nextIdx recordAddress recordTimestamp =>
    obtain ⟨-, hlength, hpos, hslots⟩ := h
    have hbytes : (slotsBytes flag recordAddress recordTimestamp).length =
        slotSize flag * recordTimestamp.length := by
      rw [slotsBytes, slotSize]
      rcases hslots with ⟨rfl, -⟩ | ⟨hflag, haddress⟩
      · rw [if_pos rfl, if_pos rfl, length_flatMap_of_const (n := 4) (fun _ ↦ rfl)]
      · have hne : flag ≠ 0 := by omega
        rw [if_neg hne, if_neg hne, length_flatMap_of_const (n := 8) (fun _ ↦ rfl), List.length_zip,
          haddress, Nat.min_self]
    dsimp only at hlength ⊢
    have hone : 1 < length := by omega
    simp only [if_pos hone, fieldBytes, List.length_append, List.length_singleton, hbytes]
    omega
  | recordRoute nextAddressIdx recordAddress =>
    obtain ⟨-, hlength, hpos⟩ := h
    dsimp only at hlength ⊢
    have hone : 1 < length := by omega
    simp only [if_pos hone, fieldBytes, List.length_append, List.length_singleton,
      length_flatMap_of_const (f := bytes32) (n := 4) (fun _ ↦ rfl)]
    omega
  | raw bytes =>
    obtain ⟨-, hlength⟩ := h
    dsimp only at hlength ⊢
    have hone : 1 < length := by omega
    simp only [if_pos hone, fieldBytes, List.length_append, List.length_singleton]
    omega

theorem length_pos_of_valid (h : Valid o) : 0 < o.length := by
  rw [← length_optionBytes h, optionBytes, List.length_append, List.length_singleton]
  omega

/-! ### What is written -/

theorem writes_writeSlot (slot : IPv4Address × UInt32) :
    Writes (writeSlot · slot) (slotBytes slot) := by
  have h := (writes_writeIPv4Address slot.1).seq (writes_writeUint32 slot.2)
  exact h

theorem writes_writeNBytes_foldl (bytes : List UInt8) : Writes (bytes.foldl writeByte ·) bytes := by
  have h := writes_foldl writes_writeByte bytes
  rwa [List.flatMap_singleton'] at h

/-- The type and the length. -/
theorem writes_typeLength (type length : ℕ) :
    Writes (fun b ↦ if 1 < length
        then (b.writeByte (UInt8.ofNat type)).writeByte (UInt8.ofNat length)
        else b.writeByte (UInt8.ofNat type))
      ([UInt8.ofNat type] ++ if 1 < length then [UInt8.ofNat length] else []) := by
  intro b hroom
  split_ifs at hroom ⊢
  · exact (writes_writeByte (UInt8.ofNat type)).seq (writes_writeByte (UInt8.ofNat length)) b hroom
  · exact writes_writeByte (UInt8.ofNat type) b hroom

/-- **A valid option is written** as its bytes. -/
theorem serializeOption_eq (h : Valid o) (hroom : b.HasRoom (optionBytes o).length) :
    serializeOption o b = .ok (b.put (optionBytes o)) := by
  have hfields {f : Buffer → Buffer} (hf : Writes f (fieldBytes o.fields)) :=
    ((writes_typeLength o.type o.length).seq hf) b (by rwa [List.append_assoc])
  rw [List.append_assoc, ← optionBytes] at hfields
  obtain ⟨type, length, fields⟩ := o
  cases fields with
  | endOfOptions =>
    obtain ⟨rfl, rfl⟩ := h
    exact congrArg Except.ok (hfields fun b _ ↦ (b.put_nil).symm)
  | nop =>
    obtain ⟨rfl, rfl⟩ := h
    exact congrArg Except.ok (hfields fun b _ ↦ (b.put_nil).symm)
  | streamId streamId =>
    obtain ⟨rfl, rfl⟩ := h
    exact congrArg Except.ok (hfields (writes_writeUint16 streamId))
  | timestamp flag overflow nextIdx recordAddress recordTimestamp =>
    obtain ⟨rfl, hlength, -, hslots⟩ := h
    have hwrites := (writes_writeByte (UInt8.ofNat (5 + nextIdx * slotSize flag))).seq
      (writes_writeByte (UInt8.ofNat (overflow <<< 4 ||| flag)))
    have hrequire : serializeOption
        ⟨68, length, .timestamp flag overflow nextIdx recordAddress recordTimestamp⟩ b = _ :=
      congrArg (· >>= _) (if_pos hlength)
    rw [hrequire]
    rcases hslots with ⟨rfl, rfl⟩ | ⟨hflag, haddress⟩
    · have hall := hfields (hwrites.seq (writes_foldl writes_writeUint32 recordTimestamp))
      exact congrArg Except.ok hall
    · have hne : flag ≠ 0 := by omega
      have hslots : Writes ((recordAddress.zip recordTimestamp).foldl writeSlot ·)
          (slotsBytes flag recordAddress recordTimestamp) := by
        rw [slotsBytes, if_neg hne]
        exact writes_foldl writes_writeSlot _
      have hall := hfields (hwrites.seq hslots)
      exact (if_neg hne).trans ((if_pos haddress.ge).trans (congrArg Except.ok hall))
  | recordRoute nextAddressIdx recordAddress =>
    obtain ⟨htype, hlength, -⟩ := h
    have hwrites := hfields ((writes_writeByte (UInt8.ofNat (4 + nextAddressIdx * 4))).seq
      (writes_foldl writes_writeIPv4Address recordAddress))
    rcases htype with rfl | rfl | rfl <;>
      exact (if_pos hlength).trans (congrArg Except.ok hwrites)
  | raw bytes =>
    exact (if_pos h.2).trans (congrArg Except.ok (hfields (writes_writeNBytes_foldl bytes)))

/-! ### Parsing the bytes of an option -/

theorem toNat_ofNat {n : ℕ} (h : n < 256) : (UInt8.ofNat n).toNat = n :=
  UInt8.toNat_ofNat_of_lt' h

theorem readAddresses_eq {recordAddress : List IPv4Address}
    (h : b.remaining = recordAddress.flatMap bytes32 ++ rest) :
    readAddresses recordAddress.length b = (recordAddress, b.advance (4 * recordAddress.length)) := by
  induction recordAddress generalizing b with
  | nil => rfl
  | cons addr recordAddress ih =>
    rw [List.flatMap_cons, List.append_assoc] at h
    have h₄ : (b.advance 4).remaining = _ := remaining_advance h
    simp only [List.length_cons, readAddresses, readIPv4Address, readUint32_of_remaining h, ih h₄,
      advance_advance, Nat.mul_succ, Nat.add_comm 4]

theorem readSlots_eq {slots : List (IPv4Address × UInt32)}
    (h : b.remaining = slots.flatMap slotBytes ++ rest) :
    readSlots slots.length b = (slots, b.advance (8 * slots.length)) := by
  induction slots generalizing b with
  | nil => rfl
  | cons slot slots ih =>
    rw [List.flatMap_cons, slotBytes, List.append_assoc, List.append_assoc] at h
    have h₄ : (b.advance 4).remaining = _ := remaining_advance h
    have h₈ : (b.advance 8).remaining = _ := remaining_advance h₄
    simp only [List.length_cons, readSlots, readIPv4Address, readUint32_of_remaining h,
      readUint32_of_remaining h₄, ih h₈, advance_advance, Nat.reduceAdd, Nat.mul_succ, Nat.add_comm 8]

/-- **The option is read again** from its beginning. -/
theorem readRaw_eq {type length : UInt8} {bytes : List UInt8} {b' : Buffer}
    (hb' : b'.seek b.pos = b) (hlength : bytes.length = length.toNat - 2)
    (h : b.remaining = [type] ++ ([length] ++ (bytes ++ rest))) :
    readRaw b.pos b' = (⟨type.toNat, length.toNat, .raw bytes⟩, b.advance (2 + bytes.length)) := by
  have h₁ : (b.advance 1).remaining = _ := remaining_advance h
  have h₂ : (b.advance 2).remaining = _ := remaining_advance h₁
  simp only [readRaw, hb', readByte_of_remaining h, readByte_of_remaining h₁, advance_advance,
    Nat.reduceAdd, ← hlength, readNBytes_of_remaining h₂]

/-- The two halves of the byte with the overflow and the flag. -/
theorem flagbyte_halves {overflow flag : ℕ} (hoverflow : overflow < 16) (hflag : flag = 1 ∨ flag = 3) :
    flagOf (UInt8.ofNat (overflow <<< 4 ||| flag)) = some flag ∧
      (UInt8.ofNat (overflow <<< 4 ||| flag) >>> 4).toNat = overflow := by
  have hall : ∀ n < 16, (flagOf (UInt8.ofNat (n <<< 4 ||| 1)) = some 1 ∧
      (UInt8.ofNat (n <<< 4 ||| 1) >>> 4).toNat = n) ∧
      (flagOf (UInt8.ofNat (n <<< 4 ||| 3)) = some 3 ∧
        (UInt8.ofNat (n <<< 4 ||| 3) >>> 4).toNat = n) := by decide
  rcases hflag with rfl | rfl
  exacts [(hall overflow hoverflow).1, (hall overflow hoverflow).2]

/-- The buffer in front of an option that has been looked at. -/
theorem seek_pos {n : ℕ} (hpos : b.pos ≤ b.buf.length) : (b.advance n).seek b.pos = b :=
  if_pos hpos

theorem readRecordRoute_eq {pos type nextAddressIdx : ℕ} {recordAddress : List IPv4Address}
    (hcount : 0 < recordAddress.length) (hlength : 3 + 4 * recordAddress.length < 256)
    (hidx : 4 + nextAddressIdx * 4 < 256)
    (h : b.remaining = [UInt8.ofNat (3 + 4 * recordAddress.length)] ++
      ([UInt8.ofNat (4 + nextAddressIdx * 4)] ++ (recordAddress.flatMap bytes32 ++ rest))) :
    readRecordRoute pos type b =
      (⟨type, 3 + 4 * recordAddress.length, .recordRoute nextAddressIdx recordAddress⟩,
        b.advance (2 + 4 * recordAddress.length)) := by
  have h₁ : (b.advance 1).remaining = _ := remaining_advance h
  have h₂ : (b.advance 2).remaining = _ := remaining_advance h₁
  have hok : RouteOk (3 + 4 * recordAddress.length) (4 + nextAddressIdx * 4) := by
    rw [RouteOk]
    omega
  have hn : (3 + 4 * recordAddress.length - 3) / 4 = recordAddress.length := by omega
  have hnext : (4 + nextAddressIdx * 4 - 4) / 4 = nextAddressIdx := by omega
  simp only [readRecordRoute, readByte_of_remaining h, readByte_of_remaining h₁, advance_advance,
    Nat.reduceAdd, toNat_ofNat hlength, toNat_ofNat hidx, if_pos hok, hn, hnext,
    readAddresses_eq h₂]

theorem readTimestamp_eq {pos flag overflow nextIdx : ℕ} {recordAddress : List IPv4Address}
    {recordTimestamp : List UInt32} (hflag : flag = 1 ∨ flag = 3)
    (haddress : recordAddress.length = recordTimestamp.length) (hcount : 0 < recordTimestamp.length)
    (hlength : 4 + 8 * recordTimestamp.length < 256) (hoverflow : overflow < 16)
    (hidx : 5 + nextIdx * 8 < 256)
    (h : b.remaining = [UInt8.ofNat (4 + 8 * recordTimestamp.length)] ++
      ([UInt8.ofNat (5 + nextIdx * 8)] ++ ([UInt8.ofNat (overflow <<< 4 ||| flag)] ++
        ((recordAddress.zip recordTimestamp).flatMap slotBytes ++ rest)))) :
    readTimestamp pos b =
      (⟨68, 4 + 8 * recordTimestamp.length,
        .timestamp flag overflow nextIdx recordAddress recordTimestamp⟩,
        b.advance (3 + 8 * recordTimestamp.length)) := by
  have h₁ : (b.advance 1).remaining = _ := remaining_advance h
  have h₂ : (b.advance 2).remaining = _ := remaining_advance h₁
  have h₃ : (b.advance 3).remaining = _ := remaining_advance h₂
  obtain ⟨hflagOf, hupper⟩ := flagbyte_halves hoverflow hflag
  have hne : flag ≠ 0 := by omega
  have hsize : slotSize flag = 8 := if_neg hne
  have hok : TimestampOk (4 + 8 * recordTimestamp.length) (5 + nextIdx * 8) flag := by
    rw [TimestampOk, hsize]
    omega
  have hn : (4 + 8 * recordTimestamp.length - 4) / 8 =
      (recordAddress.zip recordTimestamp).length := by
    rw [List.length_zip, haddress, Nat.min_self]
    omega
  have hnext : (5 + nextIdx * 8 - 5) / 8 = nextIdx := by omega
  have hslots := readSlots_eq h₃
  have hunzip : (recordAddress.zip recordTimestamp).unzip = (recordAddress, recordTimestamp) :=
    List.unzip_zip haddress
  simp only [readTimestamp, readByte_of_remaining h, readByte_of_remaining h₁,
    readByte_of_remaining h₂, advance_advance, Nat.reduceAdd, toNat_ofNat hlength, toNat_ofNat hidx,
    hflagOf, if_pos hok, hsize, hn, hnext, hupper, readTimestampSlots, if_neg hne, hslots, hunzip]
  rw [← hn]
  congr 3
  omega

/-- **A readable option is parsed** as it was written. -/
theorem deserializeOption_eq (hvalid : Valid o) (hreadable : Readable o) (hlength : o.length < 256)
    (hpos : b.pos ≤ b.buf.length) (hb : b.remaining = optionBytes o ++ rest) :
    deserializeOption b = (o, b.advance o.length) := by
  obtain ⟨type, length, fields⟩ := o
  dsimp only at hlength
  rw [optionBytes] at hb
  cases fields with
  | endOfOptions =>
    obtain ⟨rfl, rfl⟩ := hvalid
    have hb : b.remaining = 0 :: rest := hb
    simp only [deserializeOption, readByte_of_remaining hb]
    rfl
  | nop =>
    obtain ⟨rfl, rfl⟩ := hvalid
    have hb : b.remaining = 1 :: rest := hb
    simp only [deserializeOption, readByte_of_remaining hb]
    rfl
  | streamId streamId =>
    obtain ⟨rfl, rfl⟩ := hvalid
    have hb : b.remaining = [8] ++ ([4] ++ (bytes16 streamId ++ rest)) := hb
    have h₁ : (b.advance 1).remaining = _ := remaining_advance hb
    have h₂ : (b.advance 2).remaining = _ := remaining_advance h₁
    simp only [deserializeOption, readByte_of_remaining hb, readStreamId,
      readByte_of_remaining h₁, readUint16_of_remaining h₂, advance_advance, Nat.reduceAdd]
    rfl
  | timestamp flag overflow nextIdx recordAddress recordTimestamp =>
    obtain ⟨rfl, rfl, hcount, hslots⟩ := hvalid
    obtain ⟨⟨hoverflow, hidx⟩, honly⟩ := hreadable
    obtain ⟨hflag, haddress⟩ := hslots.resolve_left fun h ↦ honly h.1
    have hne : flag ≠ 0 := by omega
    have hsize : slotSize flag = 8 := if_neg hne
    have hone : 1 < 4 + 8 * recordTimestamp.length := by omega
    rw [hsize] at hlength hidx
    dsimp only at hb
    rw [hsize, if_pos hone, fieldBytes, slotsBytes, if_neg hne, hsize] at hb
    simp only [List.append_assoc] at hb
    have h₁ : (b.advance 1).remaining = _ := remaining_advance hb
    have hread : readTimestamp b.pos (b.advance 1) = _ :=
      readTimestamp_eq hflag haddress hcount hlength hoverflow hidx h₁
    rw [hsize, deserializeOption, readByte_of_remaining hb]
    refine hread.trans ?_
    rw [advance_advance, ← Nat.add_assoc]
  | recordRoute nextAddressIdx recordAddress =>
    obtain ⟨htype, rfl, hcount⟩ := hvalid
    have hidx : 4 + nextAddressIdx * 4 < 256 := hreadable.1
    have hone : 1 < 3 + 4 * recordAddress.length := by omega
    dsimp only at hb
    rw [if_pos hone, fieldBytes] at hb
    simp only [List.append_assoc] at hb
    have h₁ : (b.advance 1).remaining = _ := remaining_advance hb
    have hread (type : ℕ) : readRecordRoute b.pos type (b.advance 1) = _ :=
      readRecordRoute_eq hcount hlength hidx h₁
    simp only [advance_advance, ← Nat.add_assoc, Nat.reduceAdd] at hread
    rw [deserializeOption, readByte_of_remaining hb]
    rcases htype with rfl | rfl | rfl
    exacts [hread 136, hread 131, hread 137]
  | raw bytes =>
    obtain ⟨htype, rfl⟩ := hvalid
    have hfits : type < 256 := hreadable.1
    have hone : 1 < 2 + bytes.length := by omega
    dsimp only at hb
    rw [if_pos hone, fieldBytes] at hb
    simp only [List.append_assoc] at hb
    have h₁ : (b.advance 1).remaining = _ := remaining_advance hb
    have hread : readRaw b.pos (b.advance 2) = _ :=
      readRaw_eq (seek_pos hpos) (by rw [toNat_ofNat hlength]; omega) hb
    rw [toNat_ofNat hfits, toNat_ofNat hlength] at hread
    rw [deserializeOption, readByte_of_remaining hb]
    dsimp only
    rw [toNat_ofNat hfits, readByte_of_remaining h₁, advance_advance]
    rw [IsParsedType] at htype
    split
    case h_8 => exact hread
    all_goals omega

/-! ### What a parser can give -/

/-- The position is not behind the end. -/
def InBounds (b : Buffer) : Prop :=
  b.pos ≤ b.buf.length

/-- Without an error so far, `k` bytes have been taken from a buffer. -/
def Reached (b₀ : Buffer) (k : ℕ) (b : Buffer) : Prop :=
  InBounds b ∧ (b.errorFound = false → b = b₀.advance k)

/-- Unless it marks an error, the read takes as many bytes as its result says, and the result is in
a set. -/
def Takes {α : Type} (n : α → ℕ) (P : α → Prop) (read : Buffer → α × Buffer) : Prop :=
  ∀ b, InBounds b → Reached b (n (read b).1) (read b).2 ∧ ((read b).2.errorFound = false → P (read b).1)

section Takes

variable {α β : Type} {k n : ℕ} {f : α → ℕ} {P : α → Prop} {read : Buffer → α × Buffer} {b₀ : Buffer}

theorem takes_of_reads (h : Reads n true read) : Takes (fun _ ↦ n) (fun _ ↦ True) read := by
  intro b hb
  rw [InBounds] at hb
  rcases Nat.lt_or_ge b.getRemainingSize n with hlt | hge
  · rw [h.exhausted_of_lt hb hlt]
    exact ⟨⟨le_rfl, fun herror ↦ by cases herror⟩, fun _ ↦ trivial⟩
  · have hbound : b.pos + n ≤ b.buf.length := by
      rw [getRemainingSize] at hge
      omega
    rw [h.enough b hge]
    exact ⟨⟨hbound, fun _ ↦ rfl⟩, fun _ ↦ trivial⟩

theorem Reached.errorFound (h : Reached b₀ k b) (herror : b.errorFound = false) :
    b₀.errorFound = false := by
  rw [h.2 herror] at herror
  exact herror

theorem Takes.reached (h : Takes f P read) (hb : Reached b₀ k b) :
    Reached b₀ (k + f (read b).1) (read b).2 ∧ ((read b).2.errorFound = false → P (read b).1) := by
  obtain ⟨⟨hbounds, htaken⟩, hP⟩ := h b hb.1
  refine ⟨⟨hbounds, fun herror ↦ ?_⟩, hP⟩
  rw [← advance_advance, ← hb.2 (Reached.errorFound ⟨hbounds, htaken⟩ herror)]
  exact htaken herror

theorem reached_self (hb : InBounds b) : Reached b 0 b :=
  ⟨hb, fun _ ↦ rfl⟩

/-- Going back to where the reading began. -/
theorem Reached.seek (h : Reached b₀ k b) : Reached b₀ 0 (b.seek b₀.pos) := by
  rw [Buffer.seek]
  split_ifs with hle
  · refine ⟨hle, fun herror ↦ ?_⟩
    rw [h.2 herror]
    rfl
  · exact ⟨le_rfl, fun herror ↦ by cases herror⟩

theorem takes_readByte : Takes (fun _ ↦ 1) (fun _ ↦ True) readByte :=
  takes_of_reads reads_readByte

theorem takes_readUint32 : Takes (fun _ ↦ 4) (fun _ ↦ True) readUint32 :=
  takes_of_reads reads_readUint32

end Takes

theorem length_readNBytes (n : ℕ) (b : Buffer) : (readNBytes n b).1.length = n := by
  induction n generalizing b with
  | zero => rfl
  | succ n ih => exact congrArg (· + 1) (ih _)

theorem takes_readAddresses (n : ℕ) :
    Takes (fun addrs ↦ 4 * addrs.length) (fun addrs ↦ addrs.length = n) (readAddresses n) := by
  induction n with
  | zero => exact fun b hb ↦ ⟨reached_self hb, fun _ ↦ rfl⟩
  | succ n ih =>
    intro b hb
    have hsucc : readAddresses (n + 1) b = (b.readUint32.1 :: (readAddresses n b.readUint32.2).1,
        (readAddresses n b.readUint32.2).2) := by
      simp only [readAddresses, readIPv4Address]
    obtain ⟨hrest, hlength⟩ := ih.reached (takes_readUint32.reached (reached_self hb)).1
    rw [hsucc]
    dsimp only at hrest hlength ⊢
    refine ⟨?_, fun herror ↦ ?_⟩
    · rwa [List.length_cons, Nat.mul_succ, Nat.add_comm, ← Nat.zero_add 4]
    · rw [List.length_cons, hlength herror]

theorem takes_readSlots (n : ℕ) :
    Takes (fun slots ↦ 8 * slots.length) (fun slots ↦ slots.length = n) (readSlots n) := by
  induction n with
  | zero => exact fun b hb ↦ ⟨reached_self hb, fun _ ↦ rfl⟩
  | succ n ih =>
    intro b hb
    have hsucc : readSlots (n + 1) b =
        ((b.readUint32.1, b.readUint32.2.readUint32.1) ::
          (readSlots n b.readUint32.2.readUint32.2).1,
        (readSlots n b.readUint32.2.readUint32.2).2) := by
      simp only [readSlots, readIPv4Address]
    have haddr := (takes_readUint32.reached (reached_self hb)).1
    obtain ⟨hrest, hlength⟩ := ih.reached (takes_readUint32.reached haddr).1
    rw [hsucc]
    dsimp only at hrest hlength ⊢
    refine ⟨?_, fun herror ↦ ?_⟩
    · rwa [List.length_cons, Nat.mul_succ, Nat.add_comm, ← Nat.zero_add 8]
    · rw [List.length_cons, hlength herror]

/-- The bytes that an option is parsed from. -/
def takenLength : TLVOption → ℕ
  | ⟨_, _, .endOfOptions⟩ => 1
  | ⟨_, _, .nop⟩ => 1
  | ⟨_, _, .streamId _⟩ => 4
  | ⟨_, _, .timestamp _ _ _ recordAddress _⟩ => 4 + 8 * recordAddress.length
  | ⟨_, _, .recordRoute _ recordAddress⟩ => 3 + 4 * recordAddress.length
  | ⟨_, _, .raw bytes⟩ => 2 + bytes.length

theorem takenLength_pos (o : TLVOption) : 0 < takenLength o := by
  obtain ⟨type, length, fields⟩ := o
  cases fields <;> simp only [takenLength] <;> omega

/-- A valid option takes all of its bytes, unless it is a timestamp option without addresses. -/
theorem takenLength_of_valid (h : Valid o) :
    takenLength o ≤ o.length ∧ (takenLength o = o.length → ¬ IsTimestampOnly o) := by
  obtain ⟨type, length, fields⟩ := o
  cases fields with
  | endOfOptions => exact ⟨h.2.ge, fun _ h ↦ h⟩
  | nop => exact ⟨h.2.ge, fun _ h ↦ h⟩
  | streamId streamId => exact ⟨h.2.ge, fun _ h ↦ h⟩
  | timestamp flag overflow nextIdx recordAddress recordTimestamp =>
    obtain ⟨-, hlength, hcount, ⟨rfl, rfl⟩ | ⟨hflag, haddress⟩⟩ := h
    · rw [slotSize, if_pos rfl] at hlength
      constructor
      · show 4 + 8 * 0 ≤ length
        omega
      · rintro (heq : 4 + 8 * 0 = length)
        omega
    · have hne : flag ≠ 0 := by omega
      rw [slotSize, if_neg hne, ← haddress] at hlength
      exact ⟨hlength.ge, fun _ ↦ hne⟩
  | recordRoute nextAddressIdx recordAddress => exact ⟨h.2.1.ge, fun _ h ↦ h⟩
  | raw bytes => exact ⟨h.2.ge, fun _ h ↦ h⟩

/-- What has been parsed of a buffer fits, and has been parsed from as many bytes as it takes. -/
def ParsedFrom (b₀ : Buffer) (r : TLVOption × Buffer) : Prop :=
  Reached b₀ (takenLength r.1) r.2 ∧ (r.2.errorFound = false → Fits r.1)

variable {b₀ : Buffer} {k : ℕ}

theorem parsedFrom_readRaw (h : Reached b₀ k b) :
    ParsedFrom b₀ (readRaw b₀.pos b) := by
  have hseek := h.seek
  have htype := (takes_readByte.reached hseek).1
  have hlength := (takes_readByte.reached htype).1
  have hbytes := ((takes_of_reads (reads_readNBytes
    ((b.seek b₀.pos).readByte.2.readByte.1.toNat - 2))).reached hlength).1
  refine ⟨?_, fun _ ↦ UInt8.toNat_lt _⟩
  have hcount : takenLength (readRaw b₀.pos b).1 = 2 + (readNBytes
    ((b.seek b₀.pos).readByte.2.readByte.1.toNat - 2) (b.seek b₀.pos).readByte.2.readByte.2).1.length :=
    rfl
  rw [hcount, length_readNBytes]
  exact hbytes

theorem parsedFrom_readStreamId (h : Reached b₀ 1 b) :
    ParsedFrom b₀ (readStreamId b₀.pos b) := by
  have hlength := (takes_readByte.reached h).1
  simp only [readStreamId]
  split_ifs
  · exact ⟨((takes_of_reads reads_readUint16).reached hlength).1, fun _ ↦ trivial⟩
  · exact parsedFrom_readRaw hlength

theorem parsedFrom_readRecordRoute (h : Reached b₀ 1 b) (type : ℕ) :
    ParsedFrom b₀ (readRecordRoute b₀.pos type b) := by
  have hlength := (takes_readByte.reached h).1
  have hpointer := (takes_readByte.reached hlength).1
  simp only [readRecordRoute]
  split_ifs with hok
  · refine ⟨((takes_readAddresses _).reached hpointer).1, fun _ ↦ ?_⟩
    have hlt := b.readByte.2.readByte.1.toNat_lt
    show 4 + (b.readByte.2.readByte.1.toNat - 4) / 4 * 4 < 256
    rw [RouteOk] at hok
    omega
  · exact parsedFrom_readRaw hpointer

theorem takes_readTimestampSlots (flag n : ℕ) :
    Takes (fun slots ↦ 8 * slots.1.length) (fun _ ↦ True) (readTimestampSlots flag n) := by
  intro b hb
  rw [readTimestampSlots]
  split_ifs
  · exact ⟨reached_self hb, fun _ ↦ trivial⟩
  · have hslots := (takes_readSlots n b hb).1
    refine ⟨?_, fun _ ↦ trivial⟩
    simp only [List.unzip_fst, List.length_map]
    exact hslots

theorem parsedFrom_readTimestamp (h : Reached b₀ 1 b) :
    ParsedFrom b₀ (readTimestamp b₀.pos b) := by
  have hlength := (takes_readByte.reached h).1
  have hpointer := (takes_readByte.reached hlength).1
  have hflagbyte := (takes_readByte.reached hpointer).1
  simp only [readTimestamp]
  split
  · rename_i flag _
    split_ifs with hok
    · refine ⟨((takes_readTimestampSlots _ _).reached hflagbyte).1, fun _ ↦ ⟨?_, ?_⟩⟩
      · have hlt := b.readByte.2.readByte.2.readByte.1.toNat_lt
        rw [UInt8.toNat_shiftRight]
        simp only [UInt8.reduceToNat, Nat.reduceMod, Nat.shiftRight_eq_div_pow]
        omega
      · have hlt := b.readByte.2.readByte.1.toNat_lt
        rw [TimestampOk] at hok
        show 5 + (b.readByte.2.readByte.1.toNat - 5) / slotSize flag * slotSize flag < 256
        rw [Nat.div_mul_cancel (Nat.dvd_of_mod_eq_zero hok.2.2.2)]
        omega
    · exact parsedFrom_readRaw hflagbyte
  · exact parsedFrom_readRaw hflagbyte

/-- **An option that is parsed fits**, and it has been parsed from as many bytes as it takes. -/
theorem takes_deserializeOption : Takes takenLength Fits deserializeOption := by
  intro b hb
  have htype := (takes_readByte.reached (reached_self hb)).1
  show ParsedFrom b (deserializeOption b)
  simp only [deserializeOption]
  split
  · exact ⟨htype, fun _ ↦ trivial⟩
  · exact ⟨htype, fun _ ↦ trivial⟩
  · exact parsedFrom_readStreamId htype
  · exact parsedFrom_readTimestamp htype
  · exact parsedFrom_readRecordRoute htype 136
  · exact parsedFrom_readRecordRoute htype 131
  · exact parsedFrom_readRecordRoute htype 137
  · exact parsedFrom_readRaw (takes_readByte.reached htype).1

end IPv4Serializer

end Inet.Serializer
