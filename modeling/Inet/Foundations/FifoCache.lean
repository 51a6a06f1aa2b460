import Mathlib.Data.List.DropRight
import Mathlib.Data.List.Nodup

/-!
# Bounded caches that evict the oldest key

The keys of a cache that holds `size` of them at most: a key that is stored stays where it is, a new
key goes to the end, and the key at the front makes room. `insert` is one insertion and `Tracks`
says what the cache holds after any number of them: the last `size` of the keys whose insertion
missed, oldest first, each once.
-/

namespace FifoCache

variable {α : Type*} {size : ℕ} {keys missed : List α} {key : α}

/-- Inserting a key. A cache of size zero stores nothing. -/
def insert [DecidableEq α] (size : ℕ) (keys : List α) (key : α) : List α :=
  if size = 0 ∨ key ∈ keys then keys
  else (if keys.length = size then keys.tail else keys) ++ [key]

/-- The cache holds the last of the keys that were missed, each once. -/
structure Tracks (size : ℕ) (missed keys : List α) : Prop where
  eq : keys = missed.rtake size
  nodup : keys.Nodup

theorem Tracks.nil : Tracks size ([] : List α) [] where
  eq := (List.rtake_nil size).symm
  nodup := List.nodup_nil

theorem Tracks.length_eq (h : Tracks size missed keys) :
    keys.length = min size missed.length := by
  rw [h.eq, List.rtake_eq_reverse_take_reverse, List.length_reverse, List.length_take,
    List.length_reverse]

theorem Tracks.length_le (h : Tracks size missed keys) : keys.length ≤ size := by
  rw [h.length_eq]
  exact min_le_left size _

/-- Making room, where it is needed, leaves one of the missed keys less. -/
theorem Tracks.room {n : ℕ} (h : Tracks (n + 1) missed keys) :
    (if keys.length = n + 1 then keys.tail else keys) = missed.rtake n := by
  have hlength := h.length_eq
  split
  · have hlast : missed.length - (n + 1) + 1 = missed.length - n := by omega
    rw [h.eq, List.rtake, List.rtake, List.tail_drop, hlast]
  · have hall : missed.length - (n + 1) = 0 ∧ missed.length - n = 0 := by omega
    rw [h.eq, List.rtake, List.rtake, hall.1, hall.2]

variable [DecidableEq α]

/-- **A key that is stored changes nothing.** -/
theorem Tracks.insert_of_mem (h : Tracks size missed keys) (hkey : key ∈ keys) :
    Tracks size missed (insert size keys key) := by
  rw [insert, if_pos (.inr hkey)]
  exact h

/-- **A key that is missed goes to the end.** -/
theorem Tracks.insert_of_notMem (h : Tracks size missed keys) (hkey : key ∉ keys) :
    Tracks size (missed ++ [key]) (insert size keys key) := by
  obtain - | n := size
  · rw [insert, if_pos (.inl rfl)]
    refine ⟨?_, h.nodup⟩
    rw [h.eq, List.rtake_zero, List.rtake_zero]
  · have hinsert : insert (n + 1) keys key = missed.rtake n ++ [key] := by
      rw [insert, if_neg (by simp [hkey]), h.room]
    refine ⟨by rw [hinsert, List.rtake_concat_succ], ?_⟩
    -- what was left is part of what was stored
    have hsub : (missed.rtake n).Sublist keys := by
      rw [← h.room]
      split
      · exact List.tail_sublist keys
      · exact List.Sublist.refl keys
    rw [hinsert]
    exact (hsub.nodup h.nodup).append (List.nodup_singleton key)
      (List.disjoint_singleton.2 fun hmem ↦ hkey (hsub.subset hmem))

end FifoCache
