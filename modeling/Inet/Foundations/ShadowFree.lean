import Mathlib.Data.List.Basic
import Mathlib.Data.List.Nodup

/-!
# Tables scanned for the first matching prefix

A table whose rows carry words, scanned from the front for the first row whose word is a prefix of
the word looked up. In general the first hit is not the longest one. It is in a table where no
row's word is a prefix of a later row's (`ShadowFree`): two words that are both prefixes of one
word are comparable, so of two hits the earlier cannot be the shorter.

`ShadowFree` also rules out repeated words, and it is kept by deleting rows, by rewriting rows
without touching their words, and by appending a row that no old row shadows.
-/

/-- No row's word is a prefix of a later row's word. -/
def ShadowFree {α β : Type*} (word : β → List α) (l : List β) : Prop :=
  l.Pairwise fun a b ↦ ¬ word a <+: word b

namespace ShadowFree

variable {α β : Type*} {word : β → List α} {l : List β}

theorem nil : ShadowFree word [] :=
  List.Pairwise.nil

/-- Deleting rows. -/
theorem sublist {l' : List β} (h : ShadowFree word l) (hl : l'.Sublist l) : ShadowFree word l' :=
  List.Pairwise.sublist hl h

/-- Only the words matter: rows may be rewritten as long as their words stay. -/
theorem of_map_eq {l' : List β} (h : ShadowFree word l) (hl : l'.map word = l.map word) :
    ShadowFree word l' := by
  rw [ShadowFree, ← List.pairwise_map (R := fun p q : List α ↦ ¬ p <+: q)] at h ⊢
  rwa [hl]

/-- Appending a row that no old row shadows. -/
theorem append_singleton {b : β} (h : ShadowFree word l) (hb : ∀ a ∈ l, ¬ word a <+: word b) :
    ShadowFree word (l ++ [b]) := by
  refine List.pairwise_append.2 ⟨h, List.pairwise_singleton _ _, fun a ha c hc ↦ ?_⟩
  rw [List.mem_singleton.1 hc]
  exact hb a ha

/-- The words of the rows are pairwise distinct. -/
theorem nodup_words (h : ShadowFree word l) : (l.map word).Nodup := by
  rw [List.Nodup, List.pairwise_map]
  refine h.imp fun {a b} hab heq ↦ hab ?_
  exact ⟨[], by rw [List.append_nil, heq]⟩

/-- **First match is longest match.** Every row that also matches has a word no longer than that of
the row found first. -/
theorem length_le_of_first {l₁ l₂ : List β} {b : β} {w : List α}
    (h : ShadowFree word (l₁ ++ b :: l₂)) (hfirst : ∀ a ∈ l₁, ¬ word a <+: w)
    (hb : word b <+: w) {c : β} (hc : c ∈ l₁ ++ b :: l₂) (hcw : word c <+: w) :
    (word c).length ≤ (word b).length := by
  rcases List.mem_append.1 hc with hc | hc
  · exact absurd hcw (hfirst c hc)
  · rcases List.mem_cons.1 hc with rfl | hc
    · exact Nat.le_refl _
    · obtain ⟨-, htail, -⟩ := List.pairwise_append.1 h
      have hbc : ¬ word b <+: word c := (List.pairwise_cons.1 htail).1 c hc
      rcases List.prefix_or_prefix_of_prefix hb hcw with h' | h'
      · exact absurd h' hbc
      · exact h'.length_le

end ShadowFree
