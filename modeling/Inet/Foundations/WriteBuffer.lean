import Mathlib.Data.List.Basic
import Mathlib.Logic.Function.Basic

/-!
# Writing into a buffer

A buffer of which some positions have been written, as a function from positions to bytes. A writer
that goes forward, leaves single bytes open and fills them in later keeps the buffer equal to a list
whose open positions are `none` (`Represents`); each of its operations is an operation on that list.
-/

/-- The bytes written so far, by position. -/
abbrev WriteBuffer := ℕ → Option UInt8

namespace WriteBuffer

/-- Nothing is written. -/
def empty : WriteBuffer :=
  fun _ ↦ none

/-- `buffer[i] = b`, where `b` is cut to a byte. -/
def write (buffer : WriteBuffer) (i b : ℕ) : WriteBuffer :=
  Function.update buffer i (some (UInt8.ofNat b))

/-- Copying bytes to the positions from `i` on. -/
def writeAll (buffer : WriteBuffer) (i : ℕ) : List UInt8 → WriteBuffer
  | [] => buffer
  | b :: bs => writeAll (buffer.write i b.toNat) (i + 1) bs

/-- The first `n` positions. -/
def firstBytes (buffer : WriteBuffer) (n : ℕ) : List (Option UInt8) :=
  (List.range n).map buffer

/-- The buffer holds the list, whose open positions are `none`, and nothing else. -/
def Represents (buffer : WriteBuffer) (l : List (Option UInt8)) : Prop :=
  ∀ i, buffer i = l[i]?.join

variable {buffer : WriteBuffer} {l : List (Option UInt8)}

theorem represents_empty : empty.Represents [] := by
  intro i
  rfl

/-- An open position at the end changes nothing. -/
theorem Represents.skip (h : buffer.Represents l) : buffer.Represents (l ++ [none]) := by
  intro i
  rw [h i, List.getElem?_append]
  split
  · rfl
  · rename_i hlt
    rw [List.getElem?_eq_none (by omega)]
    cases hi : i - l.length <;> simp

/-- Writing behind the last position. -/
theorem Represents.write_end (h : buffer.Represents l) (b : ℕ) :
    (buffer.write l.length b).Represents (l ++ [some (UInt8.ofNat b)]) := by
  intro i
  rw [write, Function.update_apply]
  by_cases hi : i = l.length
  · simp [hi]
  · rw [if_neg hi, h i, List.getElem?_append]
    split
    · rfl
    · rw [List.getElem?_eq_none (by omega), List.getElem?_eq_none (by simp; omega)]

/-- Filling in an open position. -/
theorem Represents.fill {l₁ l₂ : List (Option UInt8)} (h : buffer.Represents (l₁ ++ none :: l₂))
    (b : ℕ) : (buffer.write l₁.length b).Represents (l₁ ++ some (UInt8.ofNat b) :: l₂) := by
  intro i
  rw [write, Function.update_apply]
  by_cases hi : i = l₁.length
  · simp [hi]
  · rw [if_neg hi, h i, List.getElem?_append, List.getElem?_append]
    split
    · rfl
    · -- past the filled position nothing has changed
      obtain ⟨j, hj⟩ : ∃ j, i - l₁.length = j + 1 := ⟨i - l₁.length - 1, by omega⟩
      rw [hj, List.getElem?_cons_succ, List.getElem?_cons_succ]

/-- Copying behind the last position. -/
theorem Represents.writeAll_end (h : buffer.Represents l) (bs : List UInt8) :
    (buffer.writeAll l.length bs).Represents (l ++ bs.map some) := by
  induction bs generalizing buffer l with
  | nil => simpa [writeAll] using h
  | cons b bs ih =>
    have hb := h.write_end b.toNat
    rw [UInt8.ofNat_toNat] at hb
    have hrest := ih hb
    rw [List.length_append, List.length_singleton, List.append_assoc] at hrest
    exact hrest

/-- A buffer with no open position reads as its list. -/
theorem Represents.firstBytes_eq {bytes : List UInt8} (h : buffer.Represents (bytes.map some)) :
    buffer.firstBytes bytes.length = bytes.map some := by
  refine List.ext_getElem (by simp [firstBytes]) fun i h₁ h₂ ↦ ?_
  simp only [firstBytes, List.getElem_map, List.getElem_range]
  rw [h i, List.getElem?_eq_getElem h₂, List.getElem_map, Option.join_some]

end WriteBuffer
