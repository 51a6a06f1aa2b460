import Mathlib.Data.List.Induction

/-!
# Words between separators

The words of a list are the non-empty parts between its separators. A prefix of a list need not
consist of words of the list: its last word may be cut short. `words_isPrefix_iff` says that this is
the only way to fail, and that it happens exactly when the cut has no separator on either side.
-/

variable {α : Type*} {sep : α}

/-- The non-empty parts between separators. -/
def words [BEq α] (sep : α) (l : List α) : List (List α) :=
  (l.splitOn sep).filter (!·.isEmpty)

/-- The cut between `p` and `l` is next to a separator, or at an end of the whole list. -/
def CutBetweenWords (sep : α) (p l : List α) : Prop :=
  ∀ c ∈ p.getLast?, ∀ d ∈ l.head?, c = sep ∨ d = sep

/-- Splitting a concatenation joins the last part of one list to the first of the other. -/
theorem splitOn_append [BEq α] (sep : α) (p l : List α) :
    ∃ init last first rest, p.splitOn sep = init ++ [last] ∧ l.splitOn sep = first :: rest ∧
      (p ++ l).splitOn sep = init ++ (last ++ first) :: rest := by
  obtain ⟨first, rest, hl⟩ := List.exists_cons_of_ne_nil (List.splitOn_ne_nil sep l)
  induction p with
  | nil => exact ⟨[], [], first, rest, List.splitOn_nil sep, hl, hl⟩
  | cons c p ih =>
    obtain ⟨init, last, first', rest', hp, hl', hpl⟩ := ih
    rw [List.cons_append, List.splitOn_cons_eq_if_modifyHead, List.splitOn_cons_eq_if_modifyHead,
      hp, hpl]
    obtain hc | hc := Bool.eq_false_or_eq_true (c == sep)
    · rw [if_pos hc, if_pos hc]
      exact ⟨[] :: init, last, first', rest', rfl, hl', rfl⟩
    · rw [hc, if_neg Bool.false_ne_true, if_neg Bool.false_ne_true]
      cases init with
      | nil => exact ⟨[], c :: last, first', rest', rfl, hl', rfl⟩
      | cons w init => exact ⟨(c :: w) :: init, last, first', rest', rfl, hl', rfl⟩

variable [BEq α] [LawfulBEq α]

/-- The first part is empty when the list is, or starts with a separator. -/
theorem head_splitOn_eq_nil_iff {l : List α} {first : List α} {rest : List (List α)}
    (h : l.splitOn sep = first :: rest) : first = [] ↔ ∀ d ∈ l.head?, d = sep := by
  cases l with
  | nil =>
    rw [List.splitOn_nil] at h
    obtain ⟨rfl, -⟩ := List.cons.inj h
    simp
  | cons d l =>
    obtain ⟨w, ws, hl⟩ := List.exists_cons_of_ne_nil (List.splitOn_ne_nil sep l)
    rw [List.splitOn_cons_eq_if_modifyHead, hl] at h
    obtain hd | hd := Classical.em (d = sep)
    · rw [if_pos (beq_iff_eq.2 hd)] at h
      obtain ⟨rfl, -⟩ := List.cons.inj h
      simp [hd]
    · rw [if_neg (mt beq_iff_eq.1 hd)] at h
      obtain ⟨rfl, -⟩ := List.cons.inj h
      simp [hd]

/-- The last part is empty when the list is, or ends with a separator. -/
theorem getLast_splitOn_eq_nil_iff {p : List α} {init : List (List α)} {last : List α}
    (h : p.splitOn sep = init ++ [last]) : last = [] ↔ ∀ c ∈ p.getLast?, c = sep := by
  induction p using List.reverseRecOn generalizing init last with
  | nil =>
    rw [List.splitOn_nil] at h
    obtain ⟨-, rfl⟩ := List.append_singleton_inj.1 (show [] ++ [[]] = init ++ [last] from h)
    simp
  | append_singleton p c ih =>
    obtain ⟨init', last', first, rest, -, hc, hpc⟩ := splitOn_append sep p [c]
    rw [hpc] at h
    obtain hsep | hsep := Classical.em (c = sep)
    · have hsplit : [c].splitOn sep = [[], []] := by
        rw [List.splitOn_cons_eq_if_modifyHead, if_pos (beq_iff_eq.2 hsep), List.splitOn_nil]
      rw [hsplit] at hc
      obtain ⟨rfl, rfl⟩ := List.cons.inj hc
      have happ : (init' ++ [last' ++ []]) ++ [[]] = init ++ [last] := by simpa using h
      obtain ⟨-, rfl⟩ := List.append_singleton_inj.1 happ
      simp [hsep]
    · have hsplit : [c].splitOn sep = [[c]] := by
        rw [List.splitOn_cons_eq_if_modifyHead, if_neg (mt beq_iff_eq.1 hsep), List.splitOn_nil]
        rfl
      rw [hsplit] at hc
      obtain ⟨rfl, rfl⟩ := List.cons.inj hc
      obtain ⟨-, rfl⟩ := List.append_singleton_inj.1 h
      simp [hsep]

/-- **The words of a prefix.** They begin the words of the whole list exactly when the prefix is
cut off between words. -/
theorem words_isPrefix_iff (p l : List α) :
    words sep p <+: words sep (p ++ l) ↔ CutBetweenWords sep p l := by
  obtain ⟨init, last, first, rest, hp, hl, hpl⟩ := splitOn_append sep p l
  have hcut : CutBetweenWords sep p l ↔ last = [] ∨ first = [] := by
    rw [getLast_splitOn_eq_nil_iff hp, head_splitOn_eq_nil_iff hl, CutBetweenWords]
    grind
  rw [hcut, words, words, hp, hpl, List.filter_append, List.filter_append, List.prefix_append_right_inj]
  cases last with
  | nil => simp
  | cons c last =>
    -- the last word of the prefix is a word of the list when nothing is added to it
    simp [List.cons_prefix_cons]
