import Mathlib.Data.List.Basic
import Mathlib.Algebra.Order.Group.Nat

/-!
# Packets of raw bytes

A `ByteArray` that is written piece by piece: its memory and its array size are different things.
Memory that has been allocated and not been written holds no byte (`none`). `copyDataFromBuffer`
allocates more memory when a copy does not fit, and leaves the array size as it is
(`getElem?_copyDataFromBuffer`).
-/

namespace Inet.IPv4

/-- `class ByteArray`, with the memory behind its pointer. -/
structure ByteArray where
  data : List (Option UInt8)
  dataArraySize : ℕ
  size_le : dataArraySize ≤ data.length
  deriving DecidableEq

namespace ByteArray

/-- The bytes of an array. -/
def bytes (a : ByteArray) : List (Option UInt8) :=
  a.data.take a.dataArraySize

theorem length_bytes (a : ByteArray) : a.bytes.length = a.dataArraySize :=
  List.length_take_of_le a.size_le

/-- `ByteArray::setDataFromBuffer`, on an array without data. -/
def setDataFromBuffer (ptr : List (Option UInt8)) : ByteArray :=
  ⟨ptr, ptr.length, le_rfl⟩

@[simp]
theorem bytes_setDataFromBuffer (ptr : List (Option UInt8)) :
    (setDataFromBuffer ptr).bytes = ptr :=
  List.take_length

/-- The memory that `copyDataFromBuffer` writes to: more is allocated if need be, and what belongs
to the array is kept. -/
def reallocated (a : ByteArray) (nlength : ℕ) : List (Option UInt8) :=
  if a.dataArraySize < nlength then a.bytes ++ List.replicate (nlength - a.dataArraySize) none
  else a.data

theorem length_reallocated (a : ByteArray) (nlength : ℕ) :
    a.dataArraySize ≤ (a.reallocated nlength).length ∧ nlength ≤ (a.reallocated nlength).length := by
  have hle := a.size_le
  rw [reallocated]
  split_ifs with hlt
  · rw [List.length_append, length_bytes, List.length_replicate]
    omega
  · omega

/-- `memcpy`, into memory that is large enough. -/
def overwrite (cells : List (Option UInt8)) (destOffset : ℕ) (ptr : List (Option UInt8)) :
    List (Option UInt8) :=
  cells.take destOffset ++ ptr ++ cells.drop (destOffset + ptr.length)

variable {cells ptr : List (Option UInt8)} {destOffset : ℕ}

theorem length_overwrite (h : destOffset + ptr.length ≤ cells.length) :
    (overwrite cells destOffset ptr).length = cells.length := by
  rw [overwrite, List.length_append, List.length_append, List.length_take, List.length_drop]
  omega

theorem getElem?_overwrite (h : destOffset + ptr.length ≤ cells.length) (i : ℕ) :
    (overwrite cells destOffset ptr)[i]? =
      if destOffset ≤ i ∧ i < destOffset + ptr.length then ptr[i - destOffset]? else cells[i]? := by
  have hbefore : (cells.take destOffset).length = destOffset := List.length_take_of_le (by omega)
  rw [overwrite, List.append_assoc]
  rcases lt_or_ge i destOffset with hlt | hge
  · rw [List.getElem?_append_left (by omega), List.getElem?_take_of_lt hlt, if_neg (by omega)]
  · rw [List.getElem?_append_right (by omega), hbefore]
    rcases lt_or_ge i (destOffset + ptr.length) with hlt | hge'
    · rw [List.getElem?_append_left (by omega), if_pos ⟨hge, hlt⟩]
    · rw [List.getElem?_append_right (by omega), List.getElem?_drop, if_neg (by omega)]
      congr 1
      omega

/-- `ByteArray::copyDataFromBuffer`. -/
def copyDataFromBuffer (a : ByteArray) (destOffset : ℕ) (ptr : List (Option UInt8)) : ByteArray where
  data := overwrite (a.reallocated (destOffset + ptr.length)) destOffset ptr
  dataArraySize := a.dataArraySize
  size_le := by
    obtain ⟨hsize, hlength⟩ := a.length_reallocated (destOffset + ptr.length)
    rwa [length_overwrite hlength]

/-- What the array has at a position after the copy. -/
theorem getElem?_copyDataFromBuffer (a : ByteArray) {i : ℕ} (hi : i < a.dataArraySize) :
    (a.copyDataFromBuffer destOffset ptr).bytes[i]? =
      if destOffset ≤ i ∧ i < destOffset + ptr.length then ptr[i - destOffset]? else a.bytes[i]? := by
  obtain ⟨hsize, hlength⟩ := a.length_reallocated (destOffset + ptr.length)
  have hcells : (a.reallocated (destOffset + ptr.length))[i]? = a.bytes[i]? := by
    rw [reallocated]
    split_ifs
    · exact List.getElem?_append_left (by rwa [length_bytes])
    · exact (List.getElem?_take_of_lt hi).symm
  have htake : (a.copyDataFromBuffer destOffset ptr).bytes[i]? =
      (a.copyDataFromBuffer destOffset ptr).data[i]? := List.getElem?_take_of_lt hi
  rw [htake, copyDataFromBuffer, getElem?_overwrite hlength, hcells]

/-- `ByteArray::expandData`. The bytes that are added are not filled. -/
def expandData (a : ByteArray) (addleft addright : ℕ) : ByteArray :=
  if addleft ≠ 0 ∨ addright ≠ 0 then
    setDataFromBuffer (List.replicate addleft none ++ a.bytes ++ List.replicate addright none)
  else a

end ByteArray

/-- `packet RawPacket`. -/
structure RawPacket where
  byteArray : ByteArray
  byteLength : ℕ
  deriving DecidableEq

end Inet.IPv4
