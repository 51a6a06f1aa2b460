import Mathlib.Data.Set.Insert
import Mathlib.Order.Lattice

/-!
# The cheapest of several offers

Each offer has a cost and a set of choices. What is kept of some offers is the least cost, with the
choices of all offers that have it (`Cheapest`). A further offer is left out if it is dearer, adds
its choices if it costs the same, and replaces what was kept if it is cheaper.
-/

variable {ι κ η : Type*} [LinearOrder κ] {offers : Set ι} {cost : ι → κ} {choices : ι → Set η} {c : κ}
  {H : Set η} {i : ι}

/-- `c` is the least cost of the offers, and `H` has the choices of the offers of that cost. -/
structure Cheapest (offers : Set ι) (cost : ι → κ) (choices : ι → Set η) (c : κ) (H : Set η) : Prop where
  attained : ∃ i ∈ offers, cost i = c
  le : ∀ i ∈ offers, c ≤ cost i
  choices_eq : ∀ h, h ∈ H ↔ ∃ i ∈ offers, cost i = c ∧ h ∈ choices i

namespace Cheapest

theorem singleton (i : ι) : Cheapest {i} cost choices (cost i) (choices i) where
  attained := ⟨i, rfl, rfl⟩
  le := by simp
  choices_eq := by simp

/-- The same choices under another description. -/
theorem congr_choices {K : Set η} (h : Cheapest offers cost choices c H) (heq : ∀ x, x ∈ K ↔ x ∈ H) :
    Cheapest offers cost choices c K :=
  { h with choices_eq := fun x ↦ (heq x).trans (h.choices_eq x) }

/-- **A dearer offer** is left out. -/
theorem insert_of_lt (h : Cheapest offers cost choices c H) (hlt : c < cost i) :
    Cheapest (insert i offers) cost choices c H where
  attained := h.attained.imp fun _ hj ↦ ⟨.inr hj.1, hj.2⟩
  le := by
    rintro j (rfl | hj)
    · exact hlt.le
    · exact h.le j hj
  choices_eq x := by
    rw [h.choices_eq]
    constructor
    · exact fun ⟨j, hj, hx⟩ ↦ ⟨j, .inr hj, hx⟩
    · rintro ⟨j, rfl | hj, hc, hx⟩
      · exact absurd hc hlt.ne'
      · exact ⟨j, hj, hc, hx⟩

/-- **An offer of the same cost** adds its choices. -/
theorem insert_of_eq (h : Cheapest offers cost choices c H) (heq : cost i = c) :
    Cheapest (insert i offers) cost choices c (H ∪ choices i) where
  attained := ⟨i, .inl rfl, heq⟩
  le := by
    rintro j (rfl | hj)
    · exact heq.ge
    · exact h.le j hj
  choices_eq x := by
    rw [Set.mem_union, h.choices_eq]
    constructor
    · rintro (⟨j, hj, hx⟩ | hx)
      · exact ⟨j, .inr hj, hx⟩
      · exact ⟨i, .inl rfl, heq, hx⟩
    · rintro ⟨j, rfl | hj, hc, hx⟩
      · exact .inr hx
      · exact .inl ⟨j, hj, hc, hx⟩

/-- **A cheaper offer** replaces what was kept. -/
theorem insert_of_gt (h : Cheapest offers cost choices c H) (hlt : cost i < c) :
    Cheapest (insert i offers) cost choices (cost i) (choices i) where
  attained := ⟨i, .inl rfl, rfl⟩
  le := by
    rintro j (rfl | hj)
    · exact le_rfl
    · exact hlt.le.trans (h.le j hj)
  choices_eq x := by
    constructor
    · exact fun hx ↦ ⟨i, .inl rfl, rfl, hx⟩
    · rintro ⟨j, rfl | hj, hc, hx⟩
      · exact hx
      · exact absurd (h.le j hj) (not_le.2 (hc ▸ hlt))

end Cheapest
