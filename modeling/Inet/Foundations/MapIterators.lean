import Mathlib.Data.List.AList
import Mathlib.Data.List.Sort

/-!
# Iterators of an ordered map

A loop over an ordered map goes from an iterator to another one and meets the keys in their order.
An iterator is the key it points to, or `none` at the end of the map. A loop that erases what it
meets stops only if it meets the iterator it is to stop at: if that is behind it, or has been erased
itself, the loop runs past the end, and what follows is undefined (`eraseRange` is `none`).

What is left after such a loop is said by `lookup_of_eraseRange_none` and
`lookup_of_eraseRange_some`.
-/

namespace MapIterators

variable {κ ν : Type*} [LinearOrder κ] {m m' : AList fun _ : κ ↦ ν} {a k : κ} {l : List κ}

/-- The keys in their order. -/
def inOrder (m : AList fun _ : κ ↦ ν) : List κ :=
  m.keys.insertionSort (· ≤ ·)

/-- The first key that is not less than a given one. -/
def lowerBound (m : AList fun _ : κ ↦ ν) (a : κ) : Option κ :=
  (inOrder m).find? (a ≤ ·)

/-- The first key that is greater than a given one. -/
def upperBound (m : AList fun _ : κ ↦ ν) (a : κ) : Option κ :=
  (inOrder m).find? (a < ·)

/-- The keys from an iterator on. -/
def keysFrom (m : AList fun _ : κ ↦ ν) : Option κ → List κ
  | none => []
  | some k => (inOrder m).filter (k ≤ ·)

/-- Those of some keys that come before an iterator, unless they end without it. -/
def keysUntil : List κ → Option κ → Option (List κ)
  | [], none => some []
  | [], some _ => none
  | k :: l, last => if last = some k then some [] else (keysUntil l last).map (k :: ·)

/-- The entries of some keys are erased. -/
def eraseAll (m : AList fun _ : κ ↦ ν) (l : List κ) : AList fun _ : κ ↦ ν :=
  l.foldl (fun m k ↦ m.erase k) m

/-- `for (it = first; it != last; ) it = m.erase(it);` -/
def eraseRange (m : AList fun _ : κ ↦ ν) (first last : Option κ) :
    Option (AList fun _ : κ ↦ ν) :=
  (keysUntil (keysFrom m first) last).map (eraseAll m)

@[simp] theorem mem_inOrder : k ∈ inOrder m ↔ k ∈ m := by
  rw [inOrder, List.mem_insertionSort, AList.mem_keys]

theorem pairwise_inOrder (m : AList fun _ : κ ↦ ν) : (inOrder m).Pairwise (· < ·) := by
  have hle : (inOrder m).Pairwise (· ≤ ·) := List.pairwise_insertionSort _ _
  have hne : (inOrder m).Nodup := (List.perm_insertionSort _ _).nodup_iff.2 m.keys_nodup
  exact (hle.and hne).imp fun h ↦ lt_of_le_of_ne h.1 h.2

theorem lookup_eraseAll (m : AList fun _ : κ ↦ ν) (l : List κ) (k : κ) :
    (eraseAll m l).lookup k = if k ∈ l then none else m.lookup k := by
  induction l generalizing m with
  | nil => rfl
  | cons k' l ih =>
    rw [eraseAll, List.foldl_cons, ← eraseAll, ih]
    by_cases hk : k = k'
    · subst hk
      simp
    · simp [hk, AList.lookup_erase_ne hk]

theorem keysUntil_none (l : List κ) : keysUntil l none = some l := by
  induction l with
  | nil => rfl
  | cons k l ih =>
    rw [keysUntil, if_neg (by simp), ih]
    rfl

theorem keysUntil_some (hl : l.Pairwise (· < ·)) (h : k ∈ l) :
    keysUntil l (some k) = some (l.filter (· < k)) := by
  induction l with
  | nil => exact absurd h List.not_mem_nil
  | cons k' l ih =>
    obtain ⟨hfirst, hl⟩ := List.pairwise_cons.1 hl
    rw [keysUntil]
    rcases List.mem_cons.1 h with rfl | hmem
    · have hnone : l.filter (· < k) = [] :=
        List.filter_eq_nil_iff.2 fun y hy ↦ by simpa using (hfirst y hy).le
      simp [hnone]
    · have hlt := hfirst k hmem
      rw [if_neg (by simpa using hlt.ne'), ih hl hmem]
      simp [hlt]

theorem keysUntil_of_notMem (h : k ∉ l) : keysUntil l (some k) = none := by
  induction l with
  | nil => rfl
  | cons k' l ih =>
    rw [List.mem_cons, not_or] at h
    rw [keysUntil, if_neg (by simpa using h.1), ih h.2]
    rfl

/-! ### Where loops start and stop -/

/-- The first key with some property is the least one. -/
theorem find?_inOrder {p : κ → Bool} (h : (inOrder m).find? p = some k) :
    k ∈ m ∧ p k = true ∧ ∀ k' ∈ m, p k' = true → k ≤ k' := by
  obtain ⟨hp, before, after, heq, hbefore⟩ := List.find?_eq_some_iff_append.1 h
  have hsorted := pairwise_inOrder m
  rw [heq, List.pairwise_append, List.pairwise_cons] at hsorted
  have hmem : k ∈ inOrder m := by simp [heq]
  refine ⟨mem_inOrder.1 hmem, hp, fun k' hk' hpk' ↦ ?_⟩
  rw [← mem_inOrder, heq, List.mem_append, List.mem_cons] at hk'
  rcases hk' with hk' | rfl | hk'
  · exact absurd hpk' (by simpa using hbefore k' hk')
  · exact le_rfl
  · exact (hsorted.2.1.1 k' hk').le

theorem keysFrom_lowerBound (m : AList fun _ : κ ↦ ν) (a : κ) :
    keysFrom m (lowerBound m a) = (inOrder m).filter (a ≤ ·) := by
  rcases hfirst : lowerBound m a with _ | b
  · refine (List.filter_eq_nil_iff.2 fun k hk ↦ ?_).symm
    exact List.find?_eq_none.1 hfirst k hk
  · obtain ⟨-, hab, hleast⟩ := find?_inOrder hfirst
    refine List.filter_congr fun k hk ↦ ?_
    rw [decide_eq_true_eq] at hab
    refine decide_eq_decide.2 ⟨hab.trans, fun hak ↦ hleast k (mem_inOrder.1 hk) (by simpa using hak)⟩

theorem keysFrom_head? (m : AList fun _ : κ ↦ ν) : keysFrom m (inOrder m).head? = inOrder m := by
  have hsorted := pairwise_inOrder m
  rcases hl : inOrder m with _ | ⟨k, l⟩
  · rfl
  · rw [hl, List.pairwise_cons] at hsorted
    rw [List.head?_cons, keysFrom, hl]
    refine List.filter_eq_self.2 fun k' hk' ↦ ?_
    rcases List.mem_cons.1 hk' with rfl | hk'
    · simp
    · simpa using (hsorted.1 k' hk').le

variable {P : κ → Prop} [DecidablePred P] {first : Option κ}

/-- What is left by a loop to the end of the map. -/
theorem lookup_of_eraseRange_none (hfirst : keysFrom m first = (inOrder m).filter P) :
    ∃ m', eraseRange m first none = some m' ∧
      ∀ k, m'.lookup k = if P k then none else m.lookup k := by
  refine ⟨_, by rw [eraseRange, keysUntil_none]; rfl, fun k ↦ ?_⟩
  rw [lookup_eraseAll, hfirst]
  by_cases hk : k ∈ m
  · simp [hk]
  · simp [hk, AList.lookup_eq_none.2 hk]

/-- What is left by a loop to a key of the map. -/
theorem lookup_of_eraseRange_some (hfirst : keysFrom m first = (inOrder m).filter P) {b : κ}
    (hb : b ∈ m) (hP : P b) :
    ∃ m', eraseRange m first (some b) = some m' ∧
      ∀ k, m'.lookup k = if P k ∧ k < b then none else m.lookup k := by
  have hmem : b ∈ (inOrder m).filter P := by simpa using ⟨hb, hP⟩
  have hsorted : ((inOrder m).filter P).Pairwise (· < ·) :=
    (pairwise_inOrder m).sublist List.filter_sublist
  refine ⟨_, by rw [eraseRange, hfirst, keysUntil_some hsorted hmem]; rfl, fun k ↦ ?_⟩
  rw [lookup_eraseAll]
  by_cases hk : k ∈ m
  · simp [hk, and_comm]
  · simp [hk, AList.lookup_eq_none.2 hk]

/-- A loop to a key that is not there any more runs past the end. -/
theorem eraseRange_of_notMem {b : κ} (hb : b ∉ m) : eraseRange m first (some b) = none := by
  rw [eraseRange, keysUntil_of_notMem]
  · rfl
  · rcases first with _ | a
    · exact List.not_mem_nil
    · simpa [keysFrom] using fun h ↦ absurd h hb

end MapIterators
