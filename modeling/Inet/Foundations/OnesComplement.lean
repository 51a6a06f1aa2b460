import Mathlib.Data.List.Induction
import Mathlib.Data.Nat.ModEq
import Mathlib.Algebra.BigOperators.Group.List.Basic
import Mathlib.Algebra.Order.Ring.Nat
import Mathlib.Tactic.Ring

/-!
# Sums in one's complement

A sum of words of `w` bits in which the carry out of the highest bit is added to the lowest: the sum
modulo `2 ^ w - 1`. Adding the carries until there are none (`fold`) keeps that residue, and gives
the word with all bits set for every positive multiple of `2 ^ w - 1` (`fold_eq_of_dvd`). So a sum
to which the complement of its word is added folds to that word (`dvd_add_complement`).
-/

namespace OnesComplement

variable {w n s : ℕ}

/-- The carry is added to the word, up to `n` times. -/
def foldLoop (w : ℕ) : ℕ → ℕ → ℕ
  | 0, s => s
  | n + 1, s => if s / 2 ^ w = 0 then s else foldLoop w n (s % 2 ^ w + s / 2 ^ w)

/-- The carries are added until there are none. -/
def fold (w s : ℕ) : ℕ :=
  foldLoop w s s

/-- Adding the carry keeps the residue, makes the sum smaller, and does not make it zero. -/
theorem carry (hw : 0 < w) (h : s / 2 ^ w ≠ 0) :
    s % 2 ^ w + s / 2 ^ w ≡ s [MOD 2 ^ w - 1] ∧ s % 2 ^ w + s / 2 ^ w < s ∧
      0 < s % 2 ^ w + s / 2 ^ w := by
  have hbase : 2 ≤ 2 ^ w := Nat.le_self_pow hw.ne' 2
  have hdiv := Nat.mod_add_div s (2 ^ w)
  have hpos := Nat.pos_of_ne_zero h
  have hsplit : 2 ^ w * (s / 2 ^ w) = s / 2 ^ w + (2 ^ w - 1) * (s / 2 ^ w) := by
    rw [Nat.sub_mul, Nat.one_mul]
    have hle : s / 2 ^ w ≤ 2 ^ w * (s / 2 ^ w) := Nat.le_mul_of_pos_left _ (by omega)
    omega
  refine ⟨?_, ?_, by omega⟩
  · have heq : s = s % 2 ^ w + s / 2 ^ w + (2 ^ w - 1) * (s / 2 ^ w) := by omega
    conv_rhs => rw [heq]
    exact (Nat.modEq_iff_dvd' (by omega)).2 ⟨s / 2 ^ w, by omega⟩
  · have hgrow : 1 * (s / 2 ^ w) ≤ (2 ^ w - 1) * (s / 2 ^ w) := Nat.mul_le_mul_right _ (by omega)
    omega

theorem foldLoop_spec (hw : 0 < w) (hn : s ≤ n) :
    foldLoop w n s < 2 ^ w ∧ foldLoop w n s ≡ s [MOD 2 ^ w - 1] ∧
      (0 < s → 0 < foldLoop w n s) := by
  induction n generalizing s with
  | zero =>
    obtain rfl := Nat.le_zero.1 hn
    exact ⟨Nat.two_pow_pos w, rfl, id⟩
  | succ n ih =>
    rw [foldLoop]
    split_ifs with hcarry
    · exact ⟨(Nat.div_eq_zero_iff_lt (Nat.two_pow_pos w)).1 hcarry, rfl, id⟩
    · obtain ⟨hmod, hlt, hpos⟩ := carry hw hcarry
      obtain ⟨hword, hmod', hpos'⟩ := ih (s := s % 2 ^ w + s / 2 ^ w) (by omega)
      exact ⟨hword, hmod'.trans hmod, fun _ ↦ hpos' hpos⟩

theorem fold_lt (hw : 0 < w) (s : ℕ) : fold w s < 2 ^ w :=
  (foldLoop_spec hw le_rfl).1

theorem fold_modEq (hw : 0 < w) (s : ℕ) : fold w s ≡ s [MOD 2 ^ w - 1] :=
  (foldLoop_spec hw le_rfl).2.1

theorem fold_pos (hw : 0 < w) (hpos : 0 < s) : 0 < fold w s :=
  (foldLoop_spec hw le_rfl).2.2 hpos

/-- **A positive multiple** of `2 ^ w - 1` is folded to the word with all bits set. -/
theorem fold_eq_of_dvd (hw : 0 < w) (hpos : 0 < s) (hdvd : 2 ^ w - 1 ∣ s) :
    fold w s = 2 ^ w - 1 := by
  have hlt := fold_lt hw s
  have hfold := fold_pos hw hpos
  have hdvd' : 2 ^ w - 1 ∣ fold w s := (Nat.ModEq.dvd_iff (fold_modEq hw s) dvd_rfl).2 hdvd
  have hle := Nat.le_of_dvd hfold hdvd'
  omega

/-- **The complement** of the word makes up a multiple. -/
theorem dvd_add_complement (hw : 0 < w) (s : ℕ) : 2 ^ w - 1 ∣ s + (2 ^ w - 1 - fold w s) := by
  have hlt := fold_lt hw s
  rw [← (Nat.ModEq.add_right (2 ^ w - 1 - fold w s) (fold_modEq hw s)).dvd_iff dvd_rfl]
  rw [show fold w s + (2 ^ w - 1 - fold w s) = 2 ^ w - 1 by omega]

/-! ### Adding words -/

/-- The sum of two words, with the carry added to it. -/
def add (w a b : ℕ) : ℕ :=
  (a + b) % 2 ^ w + (a + b) / 2 ^ w

/-- The sum of words. -/
def sum (w : ℕ) (ws : List ℕ) : ℕ :=
  ws.foldl (add w) 0

variable {a b : ℕ} {ws : List ℕ}

theorem add_spec (hw : 0 < w) (ha : a < 2 ^ w) (hb : b < 2 ^ w) :
    add w a b < 2 ^ w ∧ add w a b ≡ a + b [MOD 2 ^ w - 1] ∧ (0 < a + b → 0 < add w a b) := by
  rw [add]
  by_cases hcarry : (a + b) / 2 ^ w = 0
  · have hlt := (Nat.div_eq_zero_iff_lt (Nat.two_pow_pos w)).1 hcarry
    rw [hcarry, Nat.add_zero, Nat.mod_eq_of_lt hlt]
    exact ⟨hlt, rfl, id⟩
  · obtain ⟨hmod, -, hpos⟩ := carry hw hcarry
    refine ⟨?_, hmod, fun _ ↦ hpos⟩
    have hone : (a + b) / 2 ^ w ≤ 1 := by
      rw [← Nat.lt_succ_iff, Nat.div_lt_iff_lt_mul (Nat.two_pow_pos w)]
      omega
    have hcarries : (a + b) / 2 ^ w = 1 := le_antisymm hone (Nat.one_le_iff_ne_zero.2 hcarry)
    have hdiv := Nat.mod_add_div (a + b) (2 ^ w)
    rw [hcarries] at hdiv ⊢
    omega

/-- **The sum of words** is a word with their residue, and is zero only if all words are. -/
theorem sum_spec (hw : 0 < w) (h : ∀ x ∈ ws, x < 2 ^ w) :
    sum w ws < 2 ^ w ∧ sum w ws ≡ ws.sum [MOD 2 ^ w - 1] ∧ (0 < sum w ws ↔ 0 < ws.sum) := by
  induction ws using List.reverseRecOn with
  | nil => exact ⟨Nat.two_pow_pos w, rfl, Iff.rfl⟩
  | append_singleton ws x ih =>
    obtain ⟨hws, hx⟩ := List.forall_mem_append.1 h
    obtain ⟨hlt, hmod, hpos⟩ := ih hws
    obtain ⟨hlt', hmod', hpos'⟩ := add_spec hw hlt (hx x List.mem_cons_self)
    have hsum : sum w (ws ++ [x]) = add w (sum w ws) x := by
      rw [sum, List.foldl_append]
      rfl
    rw [hsum, List.sum_append, List.sum_singleton]
    refine ⟨hlt', hmod'.trans (hmod.add_right x), fun h ↦ ?_, fun h ↦ hpos' (by omega)⟩
    by_contra hzero
    have hnone : sum w ws = 0 ∧ x = 0 := by omega
    rw [hnone.1, hnone.2, add, Nat.add_zero, Nat.zero_mod, Nat.zero_div] at h
    omega

/-- A word is known from its residue when it is known whether it is zero. -/
theorem eq_of_modEq (hw : 0 < w) (ha : a < 2 ^ w) (hb : b < 2 ^ w) (hmod : a ≡ b [MOD 2 ^ w - 1])
    (hpos : 0 < a ↔ 0 < b) : a = b := by
  have hbase : 2 ≤ 2 ^ w := Nat.le_self_pow hw.ne' 2
  rcases Nat.eq_zero_or_pos a with rfl | ha'
  · omega
  have hb' := hpos.1 ha'
  wlog hle : a ≤ b generalizing a b
  · exact (this hb ha hmod.symm hpos.symm hb' ha' (Nat.le_of_not_le hle)).symm
  obtain ⟨k, hk⟩ := (Nat.modEq_iff_dvd' hle).1 hmod
  rcases Nat.eq_zero_or_pos k with rfl | hkpos
  · omega
  · have hgrow : (2 ^ w - 1) * 1 ≤ (2 ^ w - 1) * k := Nat.mul_le_mul_left _ hkpos
    omega

end OnesComplement
