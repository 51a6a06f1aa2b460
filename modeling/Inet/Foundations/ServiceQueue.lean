import Mathlib.Data.List.DropRight
import Mathlib.Order.Lattice

/-!
# Queues that serve by class

A queue is to serve the elements of a higher class before those of a lower one, and the elements of
a class in the order of their numbers. A new element is put behind the last one that it does not
precede under a comparison of the queue's own (`insert`). A queue that is in order stays so exactly
if the new element passes the elements of lower classes and no others (`inOrder_insert_iff`), and
the first element of a queue that is in order is the one to serve (`InOrder.serves`).
-/

namespace ServiceQueue

variable {α κ : Type*} [LinearOrder κ] {cls : α → κ} {number : α → ℕ} {precedes : α → α → Bool}
  {l l₁ l₂ : List α} {x y : α}

/-- A new element is put behind the last one that it does not precede. -/
def insert (precedes : α → α → Bool) (x : α) (l : List α) : List α :=
  l.rdropWhile (precedes x) ++ x :: l.rtakeWhile (precedes x)

/-- One element is to be served before another one. -/
def ServedBefore (cls : α → κ) (number : α → ℕ) (x y : α) : Prop :=
  cls y < cls x ∨ cls x = cls y ∧ number x < number y

/-- The elements stand in the order in which they are to be served. -/
def InOrder (cls : α → κ) (number : α → ℕ) (l : List α) : Prop :=
  l.Pairwise (ServedBefore cls number)

theorem ServedBefore.asymm (h : ServedBefore cls number x y) : ¬ ServedBefore cls number y x := by
  rintro (h' | ⟨heq', h'⟩)
  · rcases h with h | ⟨heq, -⟩
    exacts [h.asymm h', h'.ne heq]
  · rcases h with h | ⟨-, h⟩
    exacts [h.ne heq', h.asymm h']

theorem mem_insert : y ∈ insert precedes x l ↔ y = x ∨ y ∈ l := by
  conv_rhs => rw [← List.rdropWhile_append_rtakeWhile (p := precedes x) (l := l)]
  rw [insert, List.mem_append, List.mem_cons, List.mem_append]
  tauto

/-- What has been in the queue keeps its order. -/
theorem sublist_insert (precedes : α → α → Bool) (x : α) (l : List α) :
    l.Sublist (insert precedes x l) := by
  conv_lhs => rw [← List.rdropWhile_append_rtakeWhile (p := precedes x) (l := l)]
  exact (List.Sublist.refl _).append (List.sublist_cons_self _ _)

theorem InOrder.sublist (h : InOrder cls number l₁) (hl : l₂.Sublist l₁) : InOrder cls number l₂ :=
  List.Pairwise.sublist hl h

/-- A new element in a queue that is in order. -/
theorem inOrder_append_cons_iff (h : InOrder cls number (l₁ ++ l₂))
    (hnew : ∀ y ∈ l₁ ++ l₂, number y < number x) :
    InOrder cls number (l₁ ++ x :: l₂) ↔ (∀ y ∈ l₁, cls x ≤ cls y) ∧ ∀ y ∈ l₂, cls y < cls x := by
  rw [InOrder, List.pairwise_append] at h
  rw [InOrder, List.pairwise_append, List.pairwise_cons]
  constructor
  · rintro ⟨-, ⟨hafter, -⟩, hbefore⟩
    refine ⟨fun y hy ↦ ?_, fun y hy ↦ ?_⟩
    · rcases hbefore y hy x List.mem_cons_self with hlt | ⟨heq, -⟩
      exacts [hlt.le, heq.ge]
    · rcases hafter y hy with hlt | ⟨-, hlt⟩
      · exact hlt
      · exact absurd hlt (hnew y (List.mem_append_right _ hy)).not_gt
  · rintro ⟨hbefore, hafter⟩
    refine ⟨h.1, ⟨fun y hy ↦ .inl (hafter y hy), h.2.1⟩, fun y hy z hz ↦ ?_⟩
    rcases List.mem_cons.1 hz with rfl | hz
    · rcases (hbefore y hy).lt_or_eq with hlt | heq
      exacts [.inl hlt, .inr ⟨heq.symm, hnew y (List.mem_append_left _ hy)⟩]
    · exact h.2.2 y hy z hz

theorem inOrder_insert_iff (h : InOrder cls number l) (hnew : ∀ y ∈ l, number y < number x) :
    InOrder cls number (insert precedes x l) ↔
      (∀ y ∈ l.rdropWhile (precedes x), cls x ≤ cls y) ∧
        ∀ y ∈ l.rtakeWhile (precedes x), cls y < cls x := by
  have hl := List.rdropWhile_append_rtakeWhile (p := precedes x) (l := l)
  exact inOrder_append_cons_iff (by rwa [hl]) (by rwa [hl])

/-- The first element has the highest class and is the oldest of that class. -/
theorem InOrder.serves (h : InOrder cls number (x :: l)) (hy : y ∈ l) :
    cls y ≤ cls x ∧ (cls y = cls x → number x < number y) := by
  rcases (List.pairwise_cons.1 h).1 y hy with hlt | ⟨heq, hlt⟩
  · exact ⟨hlt.le, fun heq ↦ absurd heq hlt.ne⟩
  · exact ⟨heq.ge, fun _ ↦ hlt⟩

end ServiceQueue
