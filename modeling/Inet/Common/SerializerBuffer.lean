import Inet.NetworkLayer.IPv4Route
import Mathlib.Data.List.Basic
import Mathlib.Algebra.Order.Group.Nat

/-!
# The buffer of the serializers

`serializer::Buffer`: a block of memory with a position, from which numbers are read and to which
they are written in network byte order. What does not fit is cut off, and the buffer remembers that.

Where there is room, every write is a `put` of some bytes, and the puts of one writer after the
other are a single one (`put_put`). A read depends on the bytes that remain, and takes some of them
away (`readByte_of_remaining` and its like).
-/

namespace Inet.Serializer

/-- What stops a serialization. -/
inductive SerializerError
  | assertionFailed
  | castFailed
  | unknownTCPOption (kind : ℕ)
  | invalidTCPHeaderLength (headerLength : ℕ)
  deriving DecidableEq, Repr

/-- `ASSERT`, before going on. -/
def assert {α : Type} (p : Prop) [Decidable p] (a : α) : Except SerializerError α :=
  if p then .ok a else .error .assertionFailed

/-! ### Network byte order -/

/-- `htons`. -/
def bytes16 (x : UInt16) : List UInt8 :=
  [(x >>> 8).toUInt8, x.toUInt8]

/-- `htonl`. -/
def bytes32 (x : UInt32) : List UInt8 :=
  [(x >>> 24).toUInt8, (x >>> 16).toUInt8, (x >>> 8).toUInt8, x.toUInt8]

/-- `ntohs`. -/
def word16 (x₁ x₂ : UInt8) : UInt16 :=
  (x₁.toUInt16 <<< 8) + x₂.toUInt16

/-- `ntohl`. -/
def word32 (x₁ x₂ x₃ x₄ : UInt8) : UInt32 :=
  (x₁.toUInt32 <<< 24) + (x₂.toUInt32 <<< 16) + (x₃.toUInt32 <<< 8) + x₄.toUInt32

theorem word16_bytes (x : UInt16) : word16 (x >>> 8).toUInt8 x.toUInt8 = x := by
  have hlt := x.toNat_lt
  rw [word16, ← UInt16.toNat_inj]
  simp [Nat.shiftRight_eq_div_pow, Nat.shiftLeft_eq]
  omega

theorem bytes16_word (x₁ x₂ : UInt8) : bytes16 (word16 x₁ x₂) = [x₁, x₂] := by
  have h₁ := x₁.toNat_lt
  have h₂ := x₂.toNat_lt
  simp only [bytes16, word16, List.cons.injEq, and_true, ← UInt8.toNat_inj]
  constructor
  · simp [Nat.shiftRight_eq_div_pow, Nat.shiftLeft_eq]
    omega
  · simp [Nat.shiftLeft_eq]

theorem word32_bytes (x : UInt32) :
    word32 (x >>> 24).toUInt8 (x >>> 16).toUInt8 (x >>> 8).toUInt8 x.toUInt8 = x := by
  have hlt := x.toNat_lt
  rw [word32, ← UInt32.toNat_inj]
  simp [Nat.shiftRight_eq_div_pow, Nat.shiftLeft_eq]
  omega

theorem bytes32_word (x₁ x₂ x₃ x₄ : UInt8) :
    bytes32 (word32 x₁ x₂ x₃ x₄) = [x₁, x₂, x₃, x₄] := by
  have h₁ := x₁.toNat_lt
  have h₂ := x₂.toNat_lt
  have h₃ := x₃.toNat_lt
  have h₄ := x₄.toNat_lt
  simp only [bytes32, word32, List.cons.injEq, and_true, ← UInt8.toNat_inj]
  refine ⟨?_, ?_, ?_, ?_⟩ <;> (simp [Nat.shiftRight_eq_div_pow, Nat.shiftLeft_eq]; omega)

/-- `class Buffer`. -/
structure Buffer where
  buf : List UInt8
  pos : ℕ := 0
  errorFound : Bool := false
  deriving DecidableEq, Repr

namespace Buffer

/-- `Buffer::getRemainingSize`. -/
def getRemainingSize (b : Buffer) : ℕ :=
  b.buf.length - b.pos

/-- A buffer over the next bytes of another. -/
def sub (base : Buffer) (maxLength : ℕ) : Buffer where
  buf := (base.buf.drop base.pos).take maxLength

/-- `Buffer::seek`. -/
def seek (b : Buffer) (newpos : ℕ) : Buffer :=
  if newpos ≤ b.buf.length then { b with pos := newpos }
  else { b with pos := b.buf.length, errorFound := true }

/-! ### Reading -/

/-- The next byte, if there is one. -/
def nextByte (b : Buffer) : UInt8 × Buffer :=
  match b.buf[b.pos]? with
  | some x => (x, { b with pos := b.pos + 1 })
  | none => (0, b)

/-- `Buffer::readByte`. -/
def readByte (b : Buffer) : UInt8 × Buffer :=
  match b.buf[b.pos]? with
  | some x => (x, { b with pos := b.pos + 1 })
  | none => (0, { b with errorFound := true })

/-- `Buffer::readNBytes`. -/
def readNBytes : ℕ → Buffer → List UInt8 × Buffer
  | 0, b => ([], b)
  | length + 1, b =>
    let (x, b) := b.readByte
    let (xs, b) := readNBytes length b
    (x :: xs, b)

/-- `Buffer::readUint16`. -/
def readUint16 (b : Buffer) : UInt16 × Buffer :=
  let (x₁, b) := b.nextByte
  let (x₂, b) := b.readByte
  (word16 x₁ x₂, b)

/-- `Buffer::readUint32`. -/
def readUint32 (b : Buffer) : UInt32 × Buffer :=
  let (x₁, b) := b.nextByte
  let (x₂, b) := b.nextByte
  let (x₃, b) := b.nextByte
  let (x₄, b) := b.readByte
  (word32 x₁ x₂ x₃ x₄, b)

/-! ### Writing -/

/-- A byte is written, if there is room. -/
def putByte (b : Buffer) (data : UInt8) : Buffer :=
  if b.pos < b.buf.length then { b with buf := b.buf.set b.pos data, pos := b.pos + 1 } else b

/-- `Buffer::writeByte`. -/
def writeByte (b : Buffer) (data : UInt8) : Buffer :=
  if b.pos < b.buf.length then b.putByte data else { b with errorFound := true }

/-- `Buffer::writeNBytes`. -/
def writeNBytes (b : Buffer) : List UInt8 → Buffer
  | [] => b
  | x :: src =>
    if b.pos < b.buf.length then (b.putByte x).writeNBytes src else { b with errorFound := true }

/-- `Buffer::fillNBytes`. -/
def fillNBytes (b : Buffer) (length : ℕ) (data : UInt8) : Buffer :=
  b.writeNBytes (List.replicate length data)

/-- `Buffer::writeUint16`. -/
def writeUint16 (b : Buffer) (data : UInt16) : Buffer :=
  (b.putByte (data >>> 8).toUInt8).writeByte data.toUInt8

/-- `Buffer::writeUint16To`. -/
def writeUint16To (b : Buffer) (position : ℕ) (data : UInt16) : Buffer :=
  let buf := b.buf.set position (data >>> 8).toUInt8
  if position + 1 < buf.length then { b with buf := buf.set (position + 1) data.toUInt8 }
  else { b with buf, errorFound := true }

/-- `Buffer::writeByteTo`. -/
def writeByteTo (b : Buffer) (position : ℕ) (data : UInt8) : Buffer :=
  if position < b.buf.length then { b with buf := b.buf.set position data }
  else { b with errorFound := true }

/-- `Buffer::writeUint32`. -/
def writeUint32 (b : Buffer) (data : UInt32) : Buffer :=
  (((b.putByte (data >>> 24).toUInt8).putByte (data >>> 16).toUInt8).putByte
    (data >>> 8).toUInt8).writeByte data.toUInt8

/-- `Buffer::readIPv4Address`. -/
def readIPv4Address (b : Buffer) : IPv4Address × Buffer :=
  b.readUint32

/-- `Buffer::writeIPv4Address`. -/
def writeIPv4Address (b : Buffer) (addr : IPv4Address) : Buffer :=
  b.writeUint32 addr

/-- `Buffer::accessNBytes`: the bytes that the pointer points to. -/
def accessNBytes (b : Buffer) (length : ℕ) : Option (List UInt8) × Buffer :=
  if b.pos + length ≤ b.buf.length then
    (some ((b.buf.drop b.pos).take length), { b with pos := b.pos + length })
  else (none, { b with pos := b.buf.length, errorFound := true })

/-! ### What remains to be read -/

variable {b : Buffer} {rest l l' : List UInt8} {x : UInt8}

/-- The bytes that remain. -/
def remaining (b : Buffer) : List UInt8 :=
  b.buf.drop b.pos

/-- The position is moved. -/
def advance (b : Buffer) (n : ℕ) : Buffer :=
  { b with pos := b.pos + n }

theorem advance_advance (b : Buffer) (m n : ℕ) : (b.advance m).advance n = b.advance (m + n) := by
  rw [advance, advance, advance, Nat.add_assoc]

theorem remaining_advance (h : b.remaining = l ++ rest) : (b.advance l.length).remaining = rest := by
  rw [remaining, advance, ← List.drop_drop]
  show (b.remaining).drop l.length = rest
  rw [h, List.drop_left]

theorem length_remaining (b : Buffer) : b.remaining.length = b.getRemainingSize :=
  List.length_drop

theorem getElem?_of_remaining (h : b.remaining = x :: rest) : b.buf[b.pos]? = some x := by
  have hhead := congrArg List.head? h
  rwa [remaining, List.head?_drop, List.head?_cons] at hhead

theorem nextByte_of_remaining (h : b.remaining = x :: rest) : b.nextByte = (x, b.advance 1) := by
  rw [nextByte, getElem?_of_remaining h]
  rfl

theorem readByte_of_remaining (h : b.remaining = x :: rest) : b.readByte = (x, b.advance 1) := by
  rw [readByte, getElem?_of_remaining h]
  rfl

theorem remaining_tail (h : b.remaining = x :: rest) : (b.advance 1).remaining = rest :=
  remaining_advance (l := [x]) h

theorem readNBytes_of_remaining (h : b.remaining = l ++ rest) :
    readNBytes l.length b = (l, b.advance l.length) := by
  induction l generalizing b with
  | nil => rfl
  | cons x l ih =>
    rw [List.length_cons, readNBytes, readByte_of_remaining h]
    simp only [ih (remaining_tail h), advance_advance, Nat.add_comm 1]

theorem readUint16_of_remaining {data : UInt16} (h : b.remaining = bytes16 data ++ rest) :
    b.readUint16 = (data, b.advance 2) := by
  have h₂ := remaining_tail h
  simp only [readUint16, nextByte_of_remaining h, readByte_of_remaining h₂, word16_bytes,
    advance_advance]

theorem readUint32_of_remaining {data : UInt32} (h : b.remaining = bytes32 data ++ rest) :
    b.readUint32 = (data, b.advance 4) := by
  have h₂ := remaining_tail h
  have h₃ := remaining_tail h₂
  have h₄ := remaining_tail h₃
  simp only [readUint32, nextByte_of_remaining h, nextByte_of_remaining h₂,
    nextByte_of_remaining h₃, readByte_of_remaining h₄, word32_bytes]
  rfl

@[simp]
theorem buf_accessNBytes (b : Buffer) (length : ℕ) : (b.accessNBytes length).2.buf = b.buf := by
  rw [accessNBytes]
  split_ifs <;> rfl

/-- An error that has been found stays. -/
theorem errorFound_of_accessNBytes {length : ℕ} (h : (b.accessNBytes length).2.errorFound = false) :
    b.errorFound = false := by
  rw [accessNBytes] at h
  split_ifs at h
  exact h

/-! ### What is written -/

/-- Bytes are written at the position. -/
def put (b : Buffer) (l : List UInt8) : Buffer :=
  { b with buf := b.buf.take b.pos ++ l ++ b.buf.drop (b.pos + l.length), pos := b.pos + l.length }

/-- There is room for some more bytes. -/
def HasRoom (b : Buffer) (n : ℕ) : Prop :=
  b.pos + n ≤ b.buf.length

theorem HasRoom.mono {m n : ℕ} (h : b.HasRoom n) (hle : m ≤ n) : b.HasRoom m := by
  rw [HasRoom] at h ⊢
  omega

theorem put_nil (b : Buffer) : b.put [] = b := by
  rw [put, List.append_nil, List.length_nil, Nat.add_zero, List.take_append_drop]

@[simp]
theorem pos_put (b : Buffer) (l : List UInt8) : (b.put l).pos = b.pos + l.length :=
  rfl

theorem length_put (h : b.HasRoom l.length) : (b.put l).buf.length = b.buf.length := by
  rw [HasRoom] at h
  simp only [put, List.length_append, List.length_take, List.length_drop]
  omega

theorem hasRoom_put {m : ℕ} (h : b.HasRoom (l.length + m)) : (b.put l).HasRoom m := by
  rw [HasRoom] at h
  rw [HasRoom, length_put (by rw [HasRoom]; omega), pos_put]
  omega

/-- What is written one after the other is written at once. -/
theorem put_put (h : b.HasRoom (l.length + l'.length)) : (b.put l).put l' = b.put (l ++ l') := by
  rw [HasRoom] at h
  have hbefore : (b.buf.take b.pos ++ l).length = b.pos + l.length := by
    rw [List.length_append, List.length_take]
    omega
  have htake : (b.put l).buf.take (b.put l).pos = b.buf.take b.pos ++ l := by
    show (b.buf.take b.pos ++ l ++ _).take (b.pos + l.length) = _
    rw [List.take_append_of_le_length hbefore.ge, ← hbefore, List.take_length]
  have hdrop : (b.put l).buf.drop ((b.put l).pos + l'.length) =
      b.buf.drop (b.pos + (l ++ l').length) := by
    show (b.buf.take b.pos ++ l ++ _).drop (b.pos + l.length + l'.length) = _
    rw [← hbefore, List.drop_length_add_append, List.drop_drop, List.length_append]
    congr 1
    simp only [List.length_append] at hbefore ⊢
    omega
  rw [put, htake, hdrop, put]
  simp only [List.append_assoc, List.length_append, put, Nat.add_assoc]

theorem putByte_eq_put (h : b.HasRoom 1) (x : UInt8) : b.putByte x = b.put [x] := by
  rw [HasRoom] at h
  rw [putByte, if_pos (by omega), put, List.set_eq_take_append_cons_drop, if_pos (by omega)]
  simp

theorem writeByte_eq_put (h : b.HasRoom 1) (x : UInt8) : b.writeByte x = b.put [x] := by
  rw [writeByte, if_pos (by rw [HasRoom] at h; omega), putByte_eq_put h]

theorem writeNBytes_eq_put (h : b.HasRoom l.length) : b.writeNBytes l = b.put l := by
  induction l generalizing b with
  | nil => rw [writeNBytes, put_nil]
  | cons x l ih =>
    have hone : b.HasRoom 1 := h.mono (Nat.le_add_left 1 _)
    have hroom : b.HasRoom ([x].length + l.length) := by
      rw [List.length_singleton, Nat.add_comm]
      exact h
    rw [writeNBytes, if_pos (by rw [HasRoom] at hone; omega), putByte_eq_put hone,
      ih (hasRoom_put hroom), put_put hroom]
    rfl

/-- A loop that writes some bytes in every turn. -/
theorem foldl_eq_put {α : Type} {f : Buffer → α → Buffer} {g : α → List UInt8}
    (hf : ∀ b a, b.HasRoom (g a).length → f b a = b.put (g a)) {as : List α}
    (h : b.HasRoom (as.flatMap g).length) : as.foldl f b = b.put (as.flatMap g) := by
  induction as generalizing b with
  | nil => exact (put_nil b).symm
  | cons a as ih =>
    rw [List.flatMap_cons, List.length_append] at h
    have hroom : b.HasRoom (g a).length := h.mono (Nat.le_add_right _ _)
    rw [List.foldl_cons, hf b a hroom, ih (hasRoom_put h), put_put h, List.flatMap_cons]

/-- The same for a loop that may fail. -/
theorem foldlM_eq_put {α ε : Type} {f : Buffer → α → Except ε Buffer} {g : α → List UInt8}
    {as : List α} (hf : ∀ b, ∀ a ∈ as, b.HasRoom (g a).length → f b a = .ok (b.put (g a)))
    (h : b.HasRoom (as.flatMap g).length) : as.foldlM f b = .ok (b.put (as.flatMap g)) := by
  induction as generalizing b with
  | nil => exact congrArg Except.ok (put_nil b).symm
  | cons a as ih =>
    rw [List.flatMap_cons, List.length_append] at h
    have hroom : b.HasRoom (g a).length := h.mono (Nat.le_add_right _ _)
    rw [List.foldlM_cons, hf b a List.mem_cons_self hroom, List.flatMap_cons, ← put_put h]
    exact ih (fun b a ha ↦ hf b a (List.mem_cons_of_mem _ ha)) (hasRoom_put h)

theorem writeUint16_eq_put (h : b.HasRoom 2) (data : UInt16) :
    b.writeUint16 data = b.put (bytes16 data) := by
  rw [writeUint16, putByte_eq_put (h.mono (by omega)), writeByte_eq_put (hasRoom_put (l := [_]) h),
    put_put (show b.HasRoom ([_].length + [_].length) from h)]
  rfl

theorem writeUint32_eq_put (h : b.HasRoom 4) (data : UInt32) :
    b.writeUint32 data = b.put (bytes32 data) := by
  have hless (n : ℕ) (hn : n ≤ 4) : b.HasRoom n := h.mono hn
  rw [writeUint32, putByte_eq_put (hless 1 (by omega)),
    putByte_eq_put (hasRoom_put (l := [_]) (hless 2 (by omega))),
    put_put (show b.HasRoom ([_].length + [_].length) from hless 2 (by omega)),
    putByte_eq_put (hasRoom_put (l := [_] ++ [_]) (hless 3 (by omega))),
    put_put (show b.HasRoom (([_] ++ [_]).length + [_].length) from hless 3 (by omega)),
    writeByte_eq_put (hasRoom_put (l := [_] ++ [_] ++ [_]) h),
    put_put (show b.HasRoom (([_] ++ [_] ++ [_]).length + [_].length) from h)]
  rfl

/-- A byte that is filled in behind some bytes. -/
theorem writeByteTo_eq {x : UInt8} (h : b.buf = l ++ [x] ++ l') (data : UInt8) :
    b.writeByteTo l.length data = { b with buf := l ++ [data] ++ l' } := by
  have hlt : l.length < b.buf.length := by
    rw [h, List.length_append, List.length_append, List.length_singleton]
    omega
  have hset : b.buf.set l.length data = l ++ [data] ++ l' := by
    rw [h, List.append_assoc, List.set_append_right _ _ le_rfl, Nat.sub_self, List.append_assoc]
    rfl
  rw [writeByteTo, if_pos hlt, hset]

/-- A number that is filled in behind some bytes. -/
theorem writeUint16To_eq {x₁ x₂ : UInt8} (h : b.buf = l ++ [x₁, x₂] ++ l') (data : UInt16) :
    b.writeUint16To l.length data = { b with buf := l ++ bytes16 data ++ l' } := by
  have hset (y z : UInt8) (l' : List UInt8) : (l ++ y :: l').set l.length z = l ++ z :: l' := by
    rw [List.set_append_right _ _ le_rfl, Nat.sub_self]
    rfl
  have hset' (y z w : UInt8) (l' : List UInt8) :
      (l ++ y :: z :: l').set (l.length + 1) w = l ++ y :: w :: l' := by
    rw [List.set_append_right _ _ (by omega), Nat.add_sub_cancel_left]
    rfl
  have h' : b.buf = l ++ x₁ :: x₂ :: l' := by rw [h, List.append_assoc]; rfl
  rw [writeUint16To]
  simp only [h', hset, List.length_append, List.length_cons]
  rw [if_pos (by omega), hset', bytes16, List.append_assoc]
  rfl

/-- A byte that is filled in behind some of the bytes that have been written. -/
theorem writeByteTo_put (h : b.HasRoom (l.length + 1 + l'.length)) (x data : UInt8) :
    (b.put (l ++ [x] ++ l')).writeByteTo (b.pos + l.length) data = b.put (l ++ [data] ++ l') := by
  have hbuf : (b.put (l ++ [x] ++ l')).buf = (b.buf.take b.pos ++ l) ++ [x] ++
      (l' ++ b.buf.drop (b.pos + (l ++ [x] ++ l').length)) := by
    simp only [put, List.append_assoc]
  have hlength : (b.buf.take b.pos ++ l).length = b.pos + l.length := by
    rw [HasRoom] at h
    rw [List.length_append, List.length_take]
    omega
  have hfilled := writeByteTo_eq hbuf data
  rw [hlength] at hfilled
  rw [hfilled]
  simp only [put, List.append_assoc, List.length_append, List.length_singleton]

/-- A number that is filled in behind some of the bytes that have been written. -/
theorem writeUint16To_put (h : b.HasRoom (l.length + 2 + l'.length)) (x₁ x₂ : UInt8)
    (data : UInt16) :
    (b.put (l ++ [x₁, x₂] ++ l')).writeUint16To (b.pos + l.length) data =
      b.put (l ++ bytes16 data ++ l') := by
  have hbuf : (b.put (l ++ [x₁, x₂] ++ l')).buf = (b.buf.take b.pos ++ l) ++ [x₁, x₂] ++
      (l' ++ b.buf.drop (b.pos + (l ++ [x₁, x₂] ++ l').length)) := by
    simp only [put, List.append_assoc]
  have hlength : (b.buf.take b.pos ++ l).length = b.pos + l.length := by
    rw [HasRoom] at h
    rw [List.length_append, List.length_take]
    omega
  have hfilled := writeUint16To_eq hbuf data
  rw [hlength] at hfilled
  rw [hfilled]
  simp only [put, List.append_assoc, List.length_append, bytes16, List.length_cons, List.length_nil]

/-! ### Writers, one after the other -/

/-- Where there is room, all the writer does is to put these bytes. -/
def Writes (f : Buffer → Buffer) (l : List UInt8) : Prop :=
  ∀ b, b.HasRoom l.length → f b = b.put l

theorem Writes.seq {f g : Buffer → Buffer} (hf : Writes f l) (hg : Writes g l') :
    Writes (fun b ↦ g (f b)) (l ++ l') := by
  intro b h
  rw [List.length_append] at h
  show g (f b) = _
  rw [hf b (h.mono (Nat.le_add_right _ _)), hg _ (hasRoom_put h), put_put h]

theorem writes_writeByte (x : UInt8) : Writes (·.writeByte x) [x] :=
  fun _ h ↦ writeByte_eq_put h x

theorem writes_writeUint16 (data : UInt16) : Writes (·.writeUint16 data) (bytes16 data) :=
  fun _ h ↦ writeUint16_eq_put h data

theorem writes_writeUint32 (data : UInt32) : Writes (·.writeUint32 data) (bytes32 data) :=
  fun _ h ↦ writeUint32_eq_put h data

theorem writes_writeIPv4Address (addr : IPv4Address) :
    Writes (·.writeIPv4Address addr) (bytes32 addr) :=
  writes_writeUint32 addr

theorem writes_foldl {α : Type} {f : Buffer → α → Buffer} {g : α → List UInt8}
    (hf : ∀ a, Writes (f · a) (g a)) (as : List α) : Writes (as.foldl f ·) (as.flatMap g) :=
  fun _ h ↦ foldl_eq_put (fun b a ↦ hf a b) h

/-- A buffer that is filled from its beginning to its end. -/
theorem put_eq_of_length (hpos : b.pos = 0) (hlength : b.buf.length = l.length) :
    b.put l = { b with buf := l, pos := l.length } := by
  rw [put, hpos, Nat.zero_add, ← hlength, List.drop_length, List.take_zero, List.nil_append,
    List.append_nil]

/-! ### Reading too much -/

/-- All has been read, and more. -/
def exhausted (b : Buffer) : Buffer :=
  { b with pos := b.buf.length, errorFound := true }

/-- A read that takes `n` bytes, and the rest of the buffer where there are not as many. It marks
this as an error if `marks` is set. -/
structure Reads {α : Type} (n : ℕ) (marks : Bool) (read : Buffer → α × Buffer) : Prop where
  enough : ∀ b, n ≤ b.getRemainingSize → (read b).2 = b.advance n
  short : ∀ b, b.pos ≤ b.buf.length → b.getRemainingSize < n →
    (read b).2 = { b with pos := b.buf.length, errorFound := b.errorFound || marks }

variable {α β γ : Type} {m n : ℕ} {marks : Bool} {read : Buffer → α × Buffer}
  {read' : α → Buffer → β × Buffer} {f : α → β → γ} {b : Buffer}

theorem getRemainingSize_advance (b : Buffer) (n : ℕ) :
    (b.advance n).getRemainingSize = b.getRemainingSize - n :=
  (Nat.sub_sub _ _ _).symm

theorem Reads.exhausted_of_lt (h : Reads n true read) (hpos : b.pos ≤ b.buf.length)
    (hlt : b.getRemainingSize < n) : (read b).2 = b.exhausted := by
  rw [h.short b hpos hlt, Bool.or_true]
  rfl

/-- What has been exhausted stays so. -/
theorem Reads.of_exhausted (h : Reads n true read) (b : Buffer) :
    (read b.exhausted).2 = b.exhausted := by
  have hsize : b.exhausted.getRemainingSize = 0 := Nat.sub_self _
  rcases n.eq_zero_or_pos with rfl | hn
  · exact h.enough b.exhausted (Nat.zero_le _)
  · exact h.exhausted_of_lt le_rfl (by rwa [hsize])

/-- One read after the other. It is enough that the last marks an error, if it reads something. -/
theorem Reads.bind (h : Reads m marks read) (hn : marks = true ∨ 0 < n)
    (h' : ∀ a, Reads n true (read' a)) :
    Reads (m + n) true fun b ↦ (f (read b).1 (read' (read b).1 (read b).2).1,
      (read' (read b).1 (read b).2).2) where
  enough b hb := by
    have hsize := b.getRemainingSize_advance m
    rw [h.enough b (by omega), (h' _).enough _ (by omega), advance_advance]
  short b hpos hb := by
    rw [Bool.or_true]
    show _ = b.exhausted
    rcases Nat.lt_or_ge b.getRemainingSize m with hlt | hge
    · rw [h.short b hpos hlt]
      rcases hn with rfl | hn
      · rw [Bool.or_true]
        exact (h' _).of_exhausted b
      · exact (h' _).exhausted_of_lt le_rfl (by rwa [getRemainingSize, Nat.sub_self])
    · have hsize := b.getRemainingSize_advance m
      have hle : (b.advance m).pos ≤ (b.advance m).buf.length := by
        rw [getRemainingSize] at hge
        show b.pos + m ≤ b.buf.length
        omega
      rw [h.enough b hge]
      exact (h' _).exhausted_of_lt hle (by omega)

theorem Reads.map (h : Reads n marks read) (f : α → β) :
    Reads n marks fun b ↦ (f (read b).1, (read b).2) where
  enough := h.enough
  short := h.short

theorem Reads.ite {p : Prop} [Decidable p] {other : Buffer → α × Buffer}
    (h : p → Reads n marks read) (h' : Reads n marks other) :
    Reads n marks fun b ↦ if p then read b else other b := by
  split_ifs with hp
  exacts [h hp, h']

theorem getElem?_of_getRemainingSize (h : 0 < b.getRemainingSize) :
    ∃ x, b.buf[b.pos]? = some x := by
  rw [getRemainingSize] at h
  exact ⟨_, List.getElem?_eq_getElem (by omega)⟩

theorem getElem?_of_short (hpos : b.pos ≤ b.buf.length) (h : b.getRemainingSize < 1) :
    b.pos = b.buf.length ∧ b.buf[b.pos]? = none := by
  rw [getRemainingSize] at h
  exact ⟨by omega, List.getElem?_eq_none (by omega)⟩

theorem reads_nextByte : Reads 1 false nextByte where
  enough b hb := by
    obtain ⟨x, hx⟩ := getElem?_of_getRemainingSize hb
    rw [nextByte, hx]
    rfl
  short b hpos hb := by
    obtain ⟨heq, hx⟩ := getElem?_of_short hpos hb
    rw [nextByte, hx, ← heq, Bool.or_false]

theorem reads_readByte : Reads 1 true readByte where
  enough b hb := by
    obtain ⟨x, hx⟩ := getElem?_of_getRemainingSize hb
    rw [readByte, hx]
    rfl
  short b hpos hb := by
    obtain ⟨heq, hx⟩ := getElem?_of_short hpos hb
    rw [readByte, hx, ← heq, Bool.or_true]

theorem reads_zero (a : α) : Reads 0 true fun b ↦ (a, b) where
  enough _ _ := rfl
  short _ _ hb := absurd hb (Nat.not_lt_zero _)

theorem reads_readNBytes (n : ℕ) : Reads n true (readNBytes n) := by
  induction n with
  | zero => exact reads_zero []
  | succ n ih =>
    have h : Reads (1 + n) true (readNBytes (n + 1)) :=
      reads_readByte.bind (f := List.cons) (.inl rfl) fun _ ↦ ih
    rwa [Nat.add_comm] at h

theorem reads_readUint16 : Reads 2 true readUint16 :=
  reads_nextByte.bind (f := word16) (.inr Nat.one_pos) fun _ ↦ reads_readByte

theorem reads_readUint32 : Reads 4 true readUint32 :=
  reads_nextByte.bind (f := fun x₁ f ↦ f x₁) (.inr (Nat.succ_pos 2)) fun _ ↦
    reads_nextByte.bind (f := fun x₂ f x₁ ↦ f x₁ x₂) (.inr (Nat.succ_pos 1)) fun _ ↦
      reads_nextByte.bind (f := fun x₃ x₄ x₁ x₂ ↦ word32 x₁ x₂ x₃ x₄) (.inr Nat.one_pos) fun _ ↦
        reads_readByte

end Buffer

end Inet.Serializer
