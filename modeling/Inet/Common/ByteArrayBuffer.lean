import Mathlib.Data.List.Basic
import Mathlib.Algebra.Order.Group.Nat

/-!
# Byte arrays and buffers of byte arrays

The byte arrays of the TCP queues are filled at once, read and cut, so that their array size is the
number of their bytes: a byte array is a list. A `ByteArrayBuffer` holds a sequence of bytes as a
list of such arrays; `getBytesToBuffer` and `drop` read and cut the sequence, whatever its pieces
are (`getBytes_eq`, `flatten_dropBytes`).

A failed assertion is `none`.
-/

namespace Inet

namespace ByteArray

/-- `ByteArray::copyDataToBuffer`: the bytes that are copied. -/
def copyDataToBuffer (data : List UInt8) (length srcOffs : ℕ) : List UInt8 :=
  if data.length ≤ srcOffs then [] else (data.drop srcOffs).take length

/-- `ByteArray::truncateData`. -/
def truncateData (data : List UInt8) (truncleft truncright : ℕ) : Option (List UInt8) :=
  if truncleft + truncright ≤ data.length then
    some ((data.drop truncleft).take (data.length - (truncleft + truncright)))
  else none

theorem copyDataToBuffer_eq (data : List UInt8) (length srcOffs : ℕ) :
    copyDataToBuffer data length srcOffs = (data.drop srcOffs).take length := by
  unfold copyDataToBuffer
  split
  · rename_i hle
    rw [List.drop_eq_nil_of_le hle, List.take_nil]
  · rfl

end ByteArray

/-- `class ByteArrayBuffer`. -/
structure ByteArrayBuffer where
  dataLengthM : ℕ := 0
  dataListM : List (List UInt8) := []
  deriving DecidableEq, Repr

namespace ByteArrayBuffer

/-- `ByteArrayBuffer::push`. -/
def push (b : ByteArrayBuffer) (byteArrayP : List UInt8) : ByteArrayBuffer where
  dataLengthM := b.dataLengthM + byteArrayP.length
  dataListM := b.dataListM ++ [byteArrayP]

/-- The loop of `getBytesToBuffer`: `bufferLengthP` bytes are still to be copied. -/
def getBytes : List (List UInt8) → (bufferLengthP srcOffsP : ℕ) → List UInt8
  | [], _, _ => []
  | d :: ds, bufferLengthP, srcOffsP =>
    if bufferLengthP = 0 then []
    else
      let cbytes := ByteArray.copyDataToBuffer d bufferLengthP srcOffsP
      if cbytes.length ≠ 0 then cbytes ++ getBytes ds (bufferLengthP - cbytes.length) 0
      else getBytes ds bufferLengthP (srcOffsP - d.length)

/-- `ByteArrayBuffer::getBytesToBuffer`: the bytes that are copied. -/
def getBytesToBuffer (b : ByteArrayBuffer) (bufferLengthP srcOffsP : ℕ) : List UInt8 :=
  getBytes b.dataListM bufferLengthP srcOffsP

/-- The loop of `drop`: `length` bytes are still to be dropped. -/
def dropBytes : List (List UInt8) → (length : ℕ) → List (List UInt8)
  | [], _ => []
  | d :: ds, length =>
    if length = 0 then d :: ds
    else if d.length ≤ length then dropBytes ds (length - d.length)
    else d.drop length :: ds

/-- `ByteArrayBuffer::drop`. -/
def drop (b : ByteArrayBuffer) (lengthP : ℕ) : Option ByteArrayBuffer :=
  if lengthP ≤ b.dataLengthM then
    some { dataLengthM := b.dataLengthM - lengthP, dataListM := dropBytes b.dataListM lengthP }
  else none

/-- The bytes of a buffer, and that it knows how many they are. -/
structure Holds (b : ByteArrayBuffer) (bytes : List UInt8) : Prop where
  flatten_eq : b.dataListM.flatten = bytes
  dataLengthM_eq : b.dataLengthM = bytes.length

theorem getBytes_eq (ds : List (List UInt8)) (bufferLengthP srcOffsP : ℕ) :
    getBytes ds bufferLengthP srcOffsP = (ds.flatten.drop srcOffsP).take bufferLengthP := by
  induction ds generalizing bufferLengthP srcOffsP with
  | nil => simp [getBytes]
  | cons d ds ih =>
    rw [getBytes]
    simp only [ByteArray.copyDataToBuffer_eq]
    split_ifs with hzero hsome
    · rw [hzero, List.take_zero]
    · -- the array holds the offset, and the rest is copied from its start
      have hlt : srcOffsP < d.length := by
        by_contra hge
        rw [List.drop_eq_nil_of_le (not_lt.1 hge)] at hsome
        simp at hsome
      rw [ih, List.drop_zero, List.flatten_cons, List.drop_append_of_le_length hlt.le,
        List.take_append, List.length_take]
      congr 2
      omega
    · have hge : d.length ≤ srcOffsP := by
        by_contra hlt
        simp at hsome
        omega
      rw [ih, List.flatten_cons, List.drop_append, List.drop_eq_nil_of_le hge, List.nil_append]

theorem flatten_dropBytes (ds : List (List UInt8)) (length : ℕ) :
    (dropBytes ds length).flatten = ds.flatten.drop length := by
  induction ds generalizing length with
  | nil => simp [dropBytes]
  | cons d ds ih =>
    rw [dropBytes]
    split_ifs with hzero hle
    · rw [hzero, List.drop_zero]
    · rw [ih, List.flatten_cons, List.drop_append, List.drop_eq_nil_of_le hle, List.nil_append]
    · rw [List.flatten_cons, List.flatten_cons, List.drop_append_of_le_length (not_le.1 hle).le]

namespace Holds

variable {b : ByteArrayBuffer} {bytes : List UInt8}

theorem empty : Holds {} [] :=
  ⟨rfl, rfl⟩

theorem push (h : b.Holds bytes) (byteArrayP : List UInt8) :
    (b.push byteArrayP).Holds (bytes ++ byteArrayP) where
  flatten_eq := by rw [ByteArrayBuffer.push, List.flatten_append, h.flatten_eq]; simp
  dataLengthM_eq := by rw [ByteArrayBuffer.push, h.dataLengthM_eq, List.length_append]

theorem getBytesToBuffer_eq (h : b.Holds bytes) (bufferLengthP srcOffsP : ℕ) :
    b.getBytesToBuffer bufferLengthP srcOffsP = (bytes.drop srcOffsP).take bufferLengthP := by
  rw [getBytesToBuffer, getBytes_eq, h.flatten_eq]

theorem drop (h : b.Holds bytes) {lengthP : ℕ} {b' : ByteArrayBuffer}
    (hdrop : b.drop lengthP = some b') : b'.Holds (bytes.drop lengthP) := by
  unfold ByteArrayBuffer.drop at hdrop
  split at hdrop
  · cases hdrop
    exact ⟨by rw [flatten_dropBytes, h.flatten_eq], by simp [h.dataLengthM_eq]⟩
  · cases hdrop

end Holds

end ByteArrayBuffer

end Inet
