import Mathlib.Data.Prod.Lex
import Mathlib.Order.Lattice

/-!
# Comparisons by an integer

A function that compares two elements by an integer returns a positive one if the first element is
the smaller one, and a negative one if it is the greater one (`Compares`). Comparisons one after the
other, of which each decides what the earlier ones have left open, compare lexicographically.
-/

variable {α β : Type*} [LinearOrder α] [LinearOrder β] {r r' : ℤ}

/-- An integer says how two elements compare. -/
structure Compares (r : ℤ) (a b : α) : Prop where
  pos_iff : 0 < r ↔ a < b
  neg_iff : r < 0 ↔ b < a

namespace Compares

variable {a b : α} {c d : β}

theorem eq_zero_iff (h : Compares r a b) : r = 0 ↔ a = b := by
  constructor
  · rintro rfl
    exact le_antisymm (not_lt.1 fun hlt ↦ lt_irrefl _ (h.neg_iff.2 hlt))
      (not_lt.1 fun hlt ↦ lt_irrefl _ (h.pos_iff.2 hlt))
  · rintro rfl
    exact le_antisymm (not_lt.1 fun hlt ↦ lt_irrefl a (h.pos_iff.1 hlt))
      (not_lt.1 fun hlt ↦ lt_irrefl a (h.neg_iff.1 hlt))

theorem le_iff (h : Compares r a b) : r ≤ 0 ↔ b ≤ a := by
  rw [← not_lt, h.pos_iff, not_lt]

section

variable {p q : Prop} [Decidable p] [Decidable q]

/-- **The usual comparison**, with another one for what is equal. -/
theorem ifs (hp : p ↔ a < b) (hq : q ↔ b < a) (h : Compares r c d) :
    Compares (if p then 1 else if q then -1 else r) (toLex (a, c)) (toLex (b, d)) := by
  constructor <;> rw [Prod.Lex.toLex_lt_toLex] <;> dsimp only <;> split_ifs with hab hba <;>
    rw [hp] at hab
  · exact iff_of_true (by decide) (.inl hab)
  · exact iff_of_false (by decide) fun hor ↦ hor.elim hab fun heq ↦ (hq.1 hba).ne heq.1.symm
  · rw [hq] at hba
    rw [h.pos_iff]
    exact ⟨fun hlt ↦ .inr ⟨le_antisymm (not_lt.1 hba) (not_lt.1 hab), hlt⟩, fun hor ↦
      (hor.resolve_left hab).2⟩
  · exact iff_of_false (by decide) fun hor ↦ hor.elim hab.asymm fun heq ↦ hab.ne heq.1.symm
  · exact iff_of_true (by decide) (.inl (hq.1 hba))
  · rw [hq] at hba
    rw [h.neg_iff]
    exact ⟨fun hlt ↦ .inr ⟨le_antisymm (not_lt.1 hab) (not_lt.1 hba), hlt⟩, fun hor ↦
      (hor.resolve_left hba).2⟩

/-- The usual comparison, of which nothing is left open. -/
theorem ifs_zero (hp : p ↔ a < b) (hq : q ↔ b < a) :
    Compares (if p then 1 else if q then -1 else 0) a b := by
  constructor <;> split_ifs with hab hba <;> rw [hp] at hab
  · exact iff_of_true (by decide) hab
  · exact iff_of_false (by decide) hab
  · exact iff_of_false (lt_irrefl 0) hab
  · exact iff_of_false (by decide) hab.asymm
  · exact iff_of_true (by decide) (hq.1 hba)
  · exact iff_of_false (lt_irrefl 0) fun hlt ↦ hba (hq.2 hlt)

end

/-- **A second comparison** decides what the first one leaves open. -/
theorem orElse (h : Compares r a b) (h' : Compares r' c d) :
    Compares (if r ≠ 0 then r else r') (toLex (a, c)) (toLex (b, d)) := by
  constructor <;> rw [Prod.Lex.toLex_lt_toLex] <;> dsimp only
  · split_ifs with hr
    · rw [h.pos_iff]
      exact ⟨.inl, fun hor ↦ hor.resolve_right fun heq ↦ hr (h.eq_zero_iff.2 heq.1)⟩
    · obtain rfl := h.eq_zero_iff.1 (not_not.1 hr)
      rw [h'.pos_iff]
      exact ⟨fun hlt ↦ .inr ⟨rfl, hlt⟩, fun hor ↦ (hor.resolve_left (lt_irrefl a)).2⟩
  · split_ifs with hr
    · rw [h.neg_iff]
      exact ⟨.inl, fun hor ↦ hor.resolve_right fun heq ↦ hr (h.eq_zero_iff.2 heq.1.symm)⟩
    · obtain rfl := h.eq_zero_iff.1 (not_not.1 hr)
      rw [h'.neg_iff]
      exact ⟨fun hlt ↦ .inr ⟨rfl, hlt⟩, fun hor ↦ (hor.resolve_left (lt_irrefl a)).2⟩

end Compares
