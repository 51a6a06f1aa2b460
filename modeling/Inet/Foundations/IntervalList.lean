import Mathlib.Data.List.Basic
import Mathlib.Order.Interval.Set.LinearOrder

/-!
# Lists of intervals

A set of points of a linear order, kept as a list of half-open intervals `[p.1, p.2)`. The list is
canonical when its intervals are not empty, ascend, and leave a gap between each other; then it is
determined by its points (`Canonical.eq_of_points_eq`).

`insertBack` adds an interval to a list given from its last interval to its first. It absorbs every
interval it meets or touches, the way a receive buffer takes in a segment. `removeTo` cuts off what
lies below a bound from the first interval. Both keep the list canonical, and do to the points what
their names say.
-/

namespace IntervalList

variable {α : Type*} [LinearOrder α] {p q seg : α × α} {l l' : List (α × α)} {x n : α}

/-- The points of the intervals. -/
def points (l : List (α × α)) : Set α :=
  {x | ∃ p ∈ l, x ∈ Set.Ico p.1 p.2}

/-- No interval is empty, they ascend, and no two of them touch. -/
structure Canonical (l : List (α × α)) : Prop where
  nonempty : ∀ p ∈ l, p.1 < p.2
  gaps : l.Pairwise fun p q ↦ p.2 < q.1

/-- The least interval around both. -/
def join (p q : α × α) : α × α :=
  (min p.1 q.1, max p.2 q.2)

/-- Adding an interval to a list that starts with the last interval. -/
def insertBack (seg : α × α) : List (α × α) → List (α × α)
  | [] => [seg]
  | p :: ps =>
    if p.2 < seg.1 then seg :: p :: ps
    else if seg.2 < p.1 then p :: insertBack seg ps
    else insertBack (join seg p) ps

/-- Cutting off what the first interval has below a bound. -/
def removeTo (n : α) : List (α × α) → List (α × α)
  | [] => []
  | p :: ps => if n ≤ p.1 then p :: ps else if p.2 ≤ n then ps else (n, p.2) :: ps

/-! ### Points -/

@[simp]
theorem points_nil : points ([] : List (α × α)) = ∅ := by
  simp [points]

theorem mem_points_cons : x ∈ points (p :: l) ↔ x ∈ Set.Ico p.1 p.2 ∨ x ∈ points l := by
  simp [points]

theorem points_cons : points (p :: l) = Set.Ico p.1 p.2 ∪ points l :=
  Set.ext fun _ ↦ mem_points_cons

theorem points_append : points (l ++ l') = points l ∪ points l' := by
  ext x
  simp [points, or_and_right, exists_or]

theorem points_reverse : points l.reverse = points l := by
  simp [points]

/-! ### Canonical lists -/

theorem canonical_nil : Canonical ([] : List (α × α)) :=
  ⟨by simp, List.Pairwise.nil⟩

theorem canonical_cons :
    Canonical (p :: l) ↔ p.1 < p.2 ∧ (∀ q ∈ l, p.2 < q.1) ∧ Canonical l := by
  constructor
  · rintro ⟨hne, hgaps⟩
    rw [List.forall_mem_cons] at hne
    rw [List.pairwise_cons] at hgaps
    exact ⟨hne.1, hgaps.1, hne.2, hgaps.2⟩
  · rintro ⟨hp, hgap, hl⟩
    exact ⟨List.forall_mem_cons.2 ⟨hp, hl.nonempty⟩, List.pairwise_cons.2 ⟨hgap, hl.gaps⟩⟩

theorem Canonical.tail (h : Canonical (p :: l)) : Canonical l :=
  (canonical_cons.1 h).2.2

/-- The points of the later intervals lie above the first. -/
theorem Canonical.lt_of_mem_points (h : Canonical (p :: l)) (hx : x ∈ points l) : p.2 < x := by
  obtain ⟨q, hq, hxq⟩ := hx
  exact ((canonical_cons.1 h).2.1 q hq).trans_le hxq.1

/-- The first interval has the least point. -/
theorem Canonical.le_of_mem_points (h : Canonical (p :: l)) (hx : x ∈ points (p :: l)) :
    p.1 ≤ x := by
  rcases mem_points_cons.1 hx with hx | hx
  · exact hx.1
  · exact ((canonical_cons.1 h).1.trans (h.lt_of_mem_points hx)).le

theorem Canonical.first_mem (h : Canonical (p :: l)) : p.1 ∈ points (p :: l) :=
  mem_points_cons.2 (.inl ⟨le_rfl, (canonical_cons.1 h).1⟩)

/-- The end of the first interval is in a gap. -/
theorem Canonical.end_notMem (h : Canonical (p :: l)) : p.2 ∉ points (p :: l) := by
  intro hmem
  rcases mem_points_cons.1 hmem with hmem | hmem
  · exact lt_irrefl _ hmem.2
  · exact lt_irrefl _ (h.lt_of_mem_points hmem)

/-- A point is in one interval only. -/
theorem Canonical.eq_of_mem (h : Canonical l) (hp : p ∈ l) (hq : q ∈ l) (hxp : x ∈ Set.Ico p.1 p.2)
    (hxq : x ∈ Set.Ico q.1 q.2) : p = q := by
  induction l with
  | nil => cases hp
  | cons r l ih =>
    have hlater {s : α × α} (hs : s ∈ l) (hxs : x ∈ Set.Ico s.1 s.2) : x ∉ Set.Ico r.1 r.2 :=
      fun hxr ↦ lt_asymm hxr.2 (h.lt_of_mem_points ⟨s, hs, hxs⟩)
    rcases List.mem_cons.1 hp with rfl | hp' <;> rcases List.mem_cons.1 hq with rfl | hq'
    · rfl
    · exact absurd hxp (hlater hq' hxq)
    · exact absurd hxq (hlater hp' hxp)
    · exact ih h.tail hp' hq'

/-- The end of an interval is in a gap. -/
theorem Canonical.end_notMem_of_mem (h : Canonical l) (hp : p ∈ l) : p.2 ∉ points l := by
  induction l with
  | nil => cases hp
  | cons r l ih =>
    rcases List.mem_cons.1 hp with rfl | hp'
    · exact h.end_notMem
    · rw [mem_points_cons, not_or]
      have hgap := (canonical_cons.1 h).2.1 p hp'
      exact ⟨fun hmem ↦ lt_asymm hmem.2 (hgap.trans (h.tail.nonempty p hp')), ih h.tail hp'⟩

/-- An interval of points lies in one interval of the list. -/
theorem Canonical.exists_of_Ico_subset (h : Canonical l) (hp : p.1 < p.2)
    (hsub : Set.Ico p.1 p.2 ⊆ points l) : ∃ q ∈ l, q.1 ≤ p.1 ∧ p.2 ≤ q.2 := by
  obtain ⟨q, hq, hmem⟩ := hsub ⟨le_rfl, hp⟩
  refine ⟨q, hq, hmem.1, not_lt.1 fun hlt ↦ ?_⟩
  exact h.end_notMem_of_mem hq (hsub ⟨hmem.2.le, hlt⟩)

/-- **A canonical list is determined by its points.** -/
theorem Canonical.eq_of_points_eq (h : Canonical l) (h' : Canonical l')
    (heq : points l = points l') : l = l' := by
  induction l generalizing l' with
  | nil =>
    cases l' with
    | nil => rfl
    | cons p' l' =>
      have hmem := h'.first_mem
      rw [← heq, points_nil] at hmem
      exact absurd hmem (Set.notMem_empty _)
  | cons p l ih =>
    cases l' with
    | nil =>
      have hmem := h.first_mem
      rw [heq, points_nil] at hmem
      exact absurd hmem (Set.notMem_empty _)
    | cons p' l' =>
      have hfst : p.1 = p'.1 :=
        le_antisymm (h.le_of_mem_points (heq ▸ h'.first_mem))
          (h'.le_of_mem_points (heq ▸ h.first_mem))
      have hp := (canonical_cons.1 h).1
      have hp' := (canonical_cons.1 h').1
      -- the smaller end would be a point of the other list
      have hsnd : p.2 = p'.2 := by
        rcases lt_trichotomy p.2 p'.2 with hlt | heq' | hlt
        · exact absurd (heq ▸ mem_points_cons.2 (.inl ⟨hfst ▸ hp.le, hlt⟩)) h.end_notMem
        · exact heq'
        · exact absurd (heq ▸ mem_points_cons.2 (.inl ⟨hfst ▸ hp'.le, hlt⟩)) h'.end_notMem
      have hpp' : p = p' := Prod.ext hfst hsnd
      subst hpp'
      have hrest : points l = points l' := by
        ext x
        have hiff : x ∈ points (p :: l) ↔ x ∈ points (p :: l') := by rw [heq]
        rw [mem_points_cons, mem_points_cons] at hiff
        constructor
        · intro hx
          have hlt := h.lt_of_mem_points hx
          exact (hiff.1 (.inr hx)).resolve_left fun hmem ↦ lt_asymm hlt hmem.2
        · intro hx
          have hlt := h'.lt_of_mem_points hx
          exact (hiff.2 (.inr hx)).resolve_left fun hmem ↦ lt_asymm hlt hmem.2
      rw [ih h.tail h'.tail hrest]

/-! ### Adding an interval -/

/-- A canonical list, from its last interval to its first. -/
structure Descending (l : List (α × α)) : Prop where
  nonempty : ∀ p ∈ l, p.1 < p.2
  gaps : l.Pairwise fun p q ↦ q.2 < p.1

theorem canonical_reverse : Canonical l.reverse ↔ Descending l := by
  constructor
  · rintro ⟨hne, hgaps⟩
    exact ⟨fun p hp ↦ hne p (List.mem_reverse.2 hp), List.pairwise_reverse.1 hgaps⟩
  · rintro ⟨hne, hgaps⟩
    exact ⟨fun p hp ↦ hne p (List.mem_reverse.1 hp), List.pairwise_reverse.2 hgaps⟩

theorem descending_cons :
    Descending (p :: l) ↔ p.1 < p.2 ∧ (∀ q ∈ l, q.2 < p.1) ∧ Descending l := by
  rw [← canonical_reverse, ← canonical_reverse]
  constructor
  · rintro ⟨hne, hgaps⟩
    rw [List.pairwise_reverse, List.pairwise_cons] at hgaps
    refine ⟨hne p (by simp), hgaps.1, fun q hq ↦ hne q (by simp_all), ?_⟩
    exact List.pairwise_reverse.2 hgaps.2
  · rintro ⟨hp, hgap, hl⟩
    refine ⟨fun q hq ↦ ?_, ?_⟩
    · rcases List.mem_cons.1 (List.mem_reverse.1 hq) with rfl | hq
      · exact hp
      · exact hl.nonempty q (List.mem_reverse.2 hq)
    · rw [List.pairwise_reverse, List.pairwise_cons]
      exact ⟨hgap, List.pairwise_reverse.1 hl.gaps⟩

/-- **The points of the new interval are added.** -/
theorem points_insertBack (seg : α × α) (l : List (α × α)) :
    points (insertBack seg l) = points l ∪ Set.Ico seg.1 seg.2 := by
  induction l generalizing seg with
  | nil => simp [insertBack, points_cons]
  | cons p l ih =>
    unfold insertBack
    split_ifs with hbefore hafter
    · rw [points_cons, Set.union_comm]
    · rw [points_cons, ih, points_cons, Set.union_assoc]
    · have hjoin : Set.Ico seg.1 seg.2 ∪ Set.Ico p.1 p.2 =
          Set.Ico (join seg p).1 (join seg p).2 :=
        Set.Ico_union_Ico' (not_lt.1 hafter) (not_lt.1 hbefore)
      rw [ih, ← hjoin, points_cons, Set.union_comm (Set.Ico p.1 p.2), Set.union_assoc,
        Set.union_comm (Set.Ico p.1 p.2)]

/-- An end in the new list is an old one or that of the new interval. -/
theorem end_of_mem_insertBack (h : q ∈ insertBack seg l) : q.2 = seg.2 ∨ ∃ p ∈ l, q.2 = p.2 := by
  induction l generalizing seg with
  | nil =>
    rw [insertBack, List.mem_singleton] at h
    exact .inl (h ▸ rfl)
  | cons p l ih =>
    unfold insertBack at h
    split_ifs at h with hbefore hafter
    · rcases List.mem_cons.1 h with rfl | h
      · exact .inl rfl
      · exact .inr ⟨q, h, rfl⟩
    · rcases List.mem_cons.1 h with rfl | h
      · exact .inr ⟨q, by simp, rfl⟩
      · rcases ih h with heq | ⟨r, hr, heq⟩
        · exact .inl heq
        · exact .inr ⟨r, List.mem_cons_of_mem _ hr, heq⟩
    · rcases ih h with heq | ⟨r, hr, heq⟩
      · rcases le_total p.2 seg.2 with hle | hle
        · exact .inl (heq.trans (max_eq_left hle))
        · exact .inr ⟨p, by simp, heq.trans (max_eq_right hle)⟩
      · exact .inr ⟨r, List.mem_cons_of_mem _ hr, heq⟩

/-- **Adding an interval that is not empty keeps the list canonical.** -/
theorem Descending.insertBack (h : Descending l) (hseg : seg.1 < seg.2) :
    Descending (insertBack seg l) := by
  induction l generalizing seg with
  | nil => exact descending_cons.2 ⟨hseg, by simp, ⟨by simp, List.Pairwise.nil⟩⟩
  | cons p l ih =>
    obtain ⟨hp, hgap, hl⟩ := descending_cons.1 h
    unfold IntervalList.insertBack
    split_ifs with hbefore hafter
    · refine descending_cons.2 ⟨hseg, fun q hq ↦ ?_, h⟩
      rcases List.mem_cons.1 hq with rfl | hq
      · exact hbefore
      · exact (hgap q hq).trans (hp.trans hbefore)
    · refine descending_cons.2 ⟨hp, fun q hq ↦ ?_, ih hl hseg⟩
      rcases end_of_mem_insertBack hq with heq | ⟨r, hr, heq⟩
      · exact heq ▸ hafter
      · exact heq ▸ hgap r hr
    · exact ih hl (lt_of_le_of_lt (min_le_left _ _) (hseg.trans_le (le_max_left _ _)))

/-! ### Cutting off the front -/

/-- **What lies above the bound stays**, when only the first interval can begin below it. -/
theorem points_removeTo (hgap : ∀ q ∈ l.tail, n ≤ q.1) :
    points (removeTo n l) = points l ∩ Set.Ici n := by
  cases l with
  | nil => simp [removeTo]
  | cons p l =>
    have hrest : points l ∩ Set.Ici n = points l := by
      refine Set.inter_eq_left.2 fun x hx ↦ ?_
      obtain ⟨q, hq, hxq⟩ := hx
      exact (hgap q hq).trans hxq.1
    rw [removeTo, points_cons, Set.union_inter_distrib_right, hrest]
    split_ifs with hle hend
    · have hall : Set.Ico p.1 p.2 ∩ Set.Ici n = Set.Ico p.1 p.2 :=
        Set.inter_eq_left.2 fun x hx ↦ hle.trans hx.1
      rw [hall, points_cons]
    · have hnone : Set.Ico p.1 p.2 ∩ Set.Ici n = ∅ :=
        Set.eq_empty_of_forall_notMem fun x hx ↦ (hx.1.2.trans_le hend).not_ge hx.2
      rw [hnone, Set.empty_union]
    · have hcut : Set.Ico p.1 p.2 ∩ Set.Ici n = Set.Ico n p.2 := by
        ext x
        simp only [Set.mem_inter_iff, Set.mem_Ico, Set.mem_Ici]
        exact ⟨fun hx ↦ ⟨hx.2, hx.1.2⟩, fun hx ↦ ⟨⟨(not_le.1 hle).le.trans hx.1, hx.2⟩, hx.1⟩⟩
      rw [hcut, points_cons]

/-- No end is new. -/
theorem end_of_mem_removeTo (h : q ∈ removeTo n l) : ∃ p ∈ l, q.2 = p.2 := by
  cases l with
  | nil => cases h
  | cons p l =>
    rw [removeTo] at h
    split_ifs at h with hle hend
    · exact ⟨q, h, rfl⟩
    · exact ⟨q, List.mem_cons_of_mem _ h, rfl⟩
    · rcases List.mem_cons.1 h with rfl | h
      · exact ⟨p, List.mem_cons_self, rfl⟩
      · exact ⟨q, List.mem_cons_of_mem _ h, rfl⟩

theorem Canonical.removeTo (h : Canonical l) (n : α) : Canonical (removeTo n l) := by
  cases l with
  | nil => exact h
  | cons p l =>
    obtain ⟨hp, hgap, hl⟩ := canonical_cons.1 h
    rw [IntervalList.removeTo]
    split_ifs with hle hend
    · exact h
    · exact hl
    · exact canonical_cons.2 ⟨not_le.1 hend, hgap, hl⟩

end IntervalList
