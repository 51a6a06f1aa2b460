import Mathlib.Data.Finset.Card
import Mathlib.Data.Int.Order.Basic
import Inet.Foundations.OrderedMap

/-!
# Reference counts

Each of some users names a list of items. A map of reference counts has for each item the number of
the users that name it, and no entry for an item that nobody names (`Counts`). A user takes up an
item or gives it up by a change of one entry (`Counts.acquire`, `Counts.release`), and an item has
as many references as there are users exactly if all of them name it (`Counts.eq_card_iff`).
-/

namespace ReferenceCounts

variable {ι α : Type*} [LinearOrder α] {S : Finset ι} {f : ι → List α} {i : ι}
  {a b : α} {l : List α} {m : OrderedMap α ℤ}

/-- How many users name an item. -/
def count (S : Finset ι) (f : ι → List α) (a : α) : ℕ :=
  (S.filter fun i ↦ a ∈ f i).card

/-- The map has the counts of the items that are named. -/
def Counts (m : OrderedMap α ℤ) (S : Finset ι) (f : ι → List α) : Prop :=
  ∀ a, m.find a = if count S f a = 0 then none else some (count S f a : ℤ)

theorem count_eq_zero : count S f a = 0 ↔ ∀ i ∈ S, a ∉ f i := by
  rw [count, Finset.card_eq_zero, Finset.filter_eq_empty_iff]

/-- The other users count as before. -/
theorem count_update [DecidableEq ι] (hi : i ∈ S) (l : List α) (a : α) :
    count S (Function.update f i l) a = (if a ∈ l then 1 else 0) + count (S.erase i) f a := by
  have hothers : (S.erase i).filter (fun j ↦ a ∈ Function.update f i l j) =
      (S.erase i).filter fun j ↦ a ∈ f j := by
    refine Finset.filter_congr fun j hj ↦ ?_
    rw [Function.update_of_ne (Finset.ne_of_mem_erase hj)]
  rw [count, count, ← hothers, ← Finset.insert_erase hi, Finset.filter_insert,
    Finset.erase_insert_eq_erase, Finset.erase_idem, Function.update_self]
  split_ifs with ha
  · rw [Finset.card_insert_of_notMem, Nat.add_comm]
    exact fun hmem ↦ Finset.notMem_erase i S (Finset.mem_of_mem_filter i hmem)
  · rw [Nat.zero_add]

namespace Counts

theorem congr {g : ι → List α} (h : Counts m S f) (hmem : ∀ i a, a ∈ f i ↔ a ∈ g i) :
    Counts m S g := by
  intro a
  have hcount : count S g a = count S f a := by
    rw [count, count]
    congr 1
    exact Finset.filter_congr fun i _ ↦ (hmem i a).symm
  rw [hcount, h]

theorem nil : Counts (∅ : OrderedMap α ℤ) S fun _ : ι ↦ [] := by
  intro a
  rw [if_pos (count_eq_zero.2 fun _ _ ↦ List.not_mem_nil), OrderedMap.find_empty]

theorem mem_keys (h : Counts m S f) : a ∈ m.keys ↔ ∃ i ∈ S, a ∈ f i := by
  rw [OrderedMap.mem_keys, h]
  by_cases hzero : count S f a = 0
  · rw [if_pos hzero]
    rw [count_eq_zero] at hzero
    simpa using hzero
  · rw [if_neg hzero]
    rw [count_eq_zero] at hzero
    simpa using hzero

/-- A user who names nothing does not count. -/
theorem insert_user [DecidableEq ι] (h : Counts m S f) (hi : f i = []) : Counts m (insert i S) f := by
  have hcount (a : α) : count (insert i S) f a = count S f a := by
    rw [count, Finset.filter_insert, if_neg, count]
    rw [hi]
    exact List.not_mem_nil
  intro a
  rw [hcount, h]

/-- An item that a user names has a count. -/
theorem find_of_mem (h : Counts m S f) (hi : i ∈ S) (ha : a ∈ f i) :
    m.find a = some (count S f a : ℤ) := by
  rw [h, if_neg]
  rw [count_eq_zero]
  exact fun hnot ↦ hnot i hi ha

/-- **Giving up** an item. -/
theorem release [DecidableEq ι] (h : Counts m S (Function.update f i (a :: l))) (hi : i ∈ S) (ha : a ∉ l) :
    ∃ c, m.find a = some c ∧
      Counts (if c = 1 then m.erase a else m.insert a (c - 1)) S (Function.update f i l) := by
  have hcount : count S (Function.update f i (a :: l)) a =
      count S (Function.update f i l) a + 1 := by
    rw [count_update hi, count_update hi, if_pos List.mem_cons_self, if_neg ha]
    omega
  have hother (b : α) (hb : b ≠ a) :
      count S (Function.update f i l) b = count S (Function.update f i (a :: l)) b := by
    rw [count_update hi, count_update hi]
    simp [hb]
  refine ⟨_, h.find_of_mem hi (by rw [Function.update_self]; exact List.mem_cons_self), ?_⟩
  rw [hcount]
  intro b
  by_cases hb : b = a
  · subst hb
    by_cases hzero : count S (Function.update f i l) b = 0
    · rw [if_pos hzero, hzero, if_pos (by rfl), OrderedMap.find_erase, if_pos rfl]
    · rw [if_neg hzero, if_neg (by omega), OrderedMap.find_insert, if_pos rfl]
      congr 1
      omega
  · rw [hother b hb, ← h]
    split_ifs
    · rw [OrderedMap.find_erase, if_neg hb]
    · rw [OrderedMap.find_insert, if_neg hb]

/-- **Taking up** an item. -/
theorem acquire [DecidableEq ι] (h : Counts m S (Function.update f i l)) (hi : i ∈ S) (ha : a ∉ l) :
    Counts (m.insert a ((m.find a).getD 0 + 1)) S (Function.update f i (a :: l)) := by
  have hcount : count S (Function.update f i (a :: l)) a =
      count S (Function.update f i l) a + 1 := by
    rw [count_update hi, count_update hi, if_pos List.mem_cons_self, if_neg ha]
    omega
  intro b
  rw [OrderedMap.find_insert]
  by_cases hb : b = a
  · subst hb
    rw [if_pos rfl, hcount, if_neg (Nat.succ_ne_zero _), h]
    split_ifs with hzero
    · rw [hzero]
      rfl
    · simp
  · have hother : count S (Function.update f i (a :: l)) b = count S (Function.update f i l) b := by
      rw [count_update hi, count_update hi]
      simp [hb]
    rw [if_neg hb, h, hother]

/-- An item that all of some users name. -/
theorem eq_card_iff (h : Counts m S f) {T : Finset ι} (hT : T ⊆ S) (hne : T.Nonempty)
    (hf : ∀ i ∈ S, i ∉ T → f i = []) :
    m.find a = some (T.card : ℤ) ↔ ∀ i ∈ T, a ∈ f i := by
  have hsub : (S.filter fun i ↦ a ∈ f i) ⊆ T := by
    intro i hi
    rw [Finset.mem_filter] at hi
    by_contra hnot
    rw [hf i hi.1 hnot] at hi
    exact List.not_mem_nil hi.2
  rw [h]
  constructor
  · intro heq i hi
    split_ifs at heq
    have hcard : count S f a = T.card := Int.ofNat.inj (Option.some.inj heq)
    rw [← Finset.eq_of_subset_of_card_le hsub hcard.ge, Finset.mem_filter] at hi
    exact hi.2
  · intro hall
    have hfilter : (S.filter fun i ↦ a ∈ f i) = T :=
      hsub.antisymm fun i hi ↦ Finset.mem_filter.2 ⟨hT hi, hall i hi⟩
    rw [count, hfilter, if_neg hne.card_ne_zero]

end Counts

end ReferenceCounts
