import Mathlib.Algebra.Order.Field.Basic
import Mathlib.Tactic.Abel
import Mathlib.Tactic.Linarith
import Inet.Foundations.TransitionSystem

/-!
# Token buckets

A bucket of a given size is refilled at a given rate and drawn from. What is drawn in an interval is
bounded by the size and what comes in during the interval, for any machine that keeps a reserve
which grows no faster (`TransitionSystem.Path.amountIn_le`).

A bucket that is full at the start and in which each draw finds a refill has, before a draw, the
least of what full buckets would have had that started at the earlier draws (`levelBefore_le` and
`levelBefore_eq`). So whether all draws can be made is a matter of the stretches of consecutive
draws alone (`covers_iff`).
-/

namespace TransitionSystem

variable {σ ι ω K : Type*} [Field K] [LinearOrder K] {T : TransitionSystem σ ι ω}

/-- What the transitions at times from `a` to `b` amount to. -/
def amountIn (time amount : Transition σ ι ω → K) (a b : K) (tr : List (Transition σ ι ω)) : K :=
  ((tr.filter fun x ↦ a ≤ time x ∧ time x ≤ b).map amount).sum

/-- A transition draws its amount from a reserve, which is never negative, grows at most at a rate
and is at most `burst` before the draw. The clock shows the time of the last transition. -/
structure Draws (time amount : Transition σ ι ω → K) (clock reserve : σ → K) (burst rate : K)
    (x : Transition σ ι ω) : Prop where
  clock_eq : clock x.post = time x
  clock_le : clock x.pre ≤ time x
  nonneg : 0 ≤ reserve x.post
  le_burst : reserve x.post + amount x ≤ burst
  le_refilled : reserve x.post + amount x ≤ reserve x.pre + rate * (time x - clock x.pre)

variable {time amount : Transition σ ι ω → K} {clock reserve : σ → K} {burst rate a b : K}
  {tr : List (Transition σ ι ω)} {s e : σ} {x : Transition σ ι ω}

theorem amountIn_cons_of_mem (ha : a ≤ time x) (hb : time x ≤ b) :
    amountIn time amount a b (x :: tr) = amount x + amountIn time amount a b tr := by
  rw [amountIn, List.filter_cons_of_pos (by simpa using ⟨ha, hb⟩), List.map_cons, List.sum_cons,
    ← amountIn]

theorem amountIn_cons_of_notMem (h : ¬(a ≤ time x ∧ time x ≤ b)) :
    amountIn time amount a b (x :: tr) = amountIn time amount a b tr := by
  rw [amountIn, List.filter_cons_of_neg (by simpa using h), ← amountIn]

/-- Time never goes back along a path. -/
theorem Path.clock_le (h : T.Path s tr e)
    (hdraws : ∀ x ∈ tr, Draws time amount clock reserve burst rate x) :
    ∀ x ∈ tr, clock s ≤ time x := by
  induction h with
  | nil => exact fun x hx ↦ absurd hx List.not_mem_nil
  | cons hs hp ih =>
    obtain ⟨hdraw, hdraws⟩ := List.forall_mem_cons.1 hdraws
    exact List.forall_mem_cons.2 ⟨hdraw.clock_le, fun x hx ↦
      (hdraw.clock_le.trans hdraw.clock_eq.ge).trans (ih hdraws x hx)⟩

variable [IsStrictOrderedRing K]

/-- From now on until `b`, no more can be drawn than there is and comes in. -/
theorem Path.amountIn_le_reserve (h : T.Path s tr e) (hrate : 0 ≤ rate)
    (hdraws : ∀ x ∈ tr, Draws time amount clock reserve burst rate x) (hs : 0 ≤ reserve s)
    (ha : a ≤ clock s) (hb : clock s ≤ b) :
    amountIn time amount a b tr ≤ reserve s + rate * (b - clock s) := by
  have hgrown : 0 ≤ rate * (b - clock s) := mul_nonneg hrate (sub_nonneg.2 hb)
  induction h with
  | nil => exact add_nonneg hs hgrown
  | @cons s s' e i o tr hstep hp ih =>
    obtain ⟨hdraw, hdraws⟩ := List.forall_mem_cons.1 hdraws
    have htime := hdraw.clock_eq
    have hclock := hdraw.clock_le
    simp only at htime hclock
    rcases le_or_gt (time ⟨s, i, o, s'⟩) b with hb' | hb'
    · have hrest := ih hdraws hdraw.nonneg (htime ▸ ha.trans hclock) (htime ▸ hb')
        (mul_nonneg hrate (sub_nonneg.2 (htime ▸ hb')))
      have hrefilled := hdraw.le_refilled
      rw [amountIn_cons_of_mem (ha.trans hclock) hb']
      simp only at hrefilled
      rw [htime, mul_sub] at hrest
      rw [mul_sub] at hrefilled ⊢
      linarith
    · have hnone : amountIn time amount a b (⟨s, i, o, s'⟩ :: tr) = 0 := by
        rw [amountIn, List.filter_eq_nil_iff.2, List.map_nil, List.sum_nil]
        intro x hx
        have hlater : b < time x := by
          rcases List.mem_cons.1 hx with rfl | hx
          · exact hb'
          · exact (htime ▸ hb').trans_le (hp.clock_le hdraws x hx)
        simp [hlater.not_ge]
      rw [hnone]
      exact add_nonneg hs hgrown

/-- **What is drawn in an interval** is bounded by the size of the bucket and what comes in during
the interval. -/
theorem Path.amountIn_le (h : T.Path s tr e) (hrate : 0 ≤ rate) (hburst : 0 ≤ burst)
    (hdraws : ∀ x ∈ tr, Draws time amount clock reserve burst rate x) (hab : a ≤ b) :
    amountIn time amount a b tr ≤ burst + rate * (b - a) := by
  induction h with
  | nil => exact add_nonneg hburst (mul_nonneg hrate (sub_nonneg.2 hab))
  | @cons s s' e i o tr hstep hp ih =>
    obtain ⟨hdraw, hdraws⟩ := List.forall_mem_cons.1 hdraws
    by_cases hmem : a ≤ time ⟨s, i, o, s'⟩ ∧ time ⟨s, i, o, s'⟩ ≤ b
    · -- the first draw of the interval finds at most a full bucket
      have htime := hdraw.clock_eq
      have hfull := hdraw.le_burst
      simp only at htime hfull
      have hrest := hp.amountIn_le_reserve hrate hdraws hdraw.nonneg (htime ▸ hmem.1)
        (htime ▸ hmem.2)
      have hless : rate * (b - clock s') ≤ rate * (b - a) :=
        mul_le_mul_of_nonneg_left (sub_le_sub_left (htime ▸ hmem.1) b) hrate
      rw [amountIn_cons_of_mem hmem.1 hmem.2]
      linarith
    · rw [amountIn_cons_of_notMem hmem]
      exact ih hdraws

theorem Run.amountIn_le (h : T.Run tr e) (hrate : 0 ≤ rate) (hburst : 0 ≤ burst)
    (hdraws : ∀ x ∈ tr, Draws time amount clock reserve burst rate x) (hab : a ≤ b) :
    amountIn time amount a b tr ≤ burst + rate * (b - a) := by
  obtain ⟨m, -, hp⟩ : ∃ m, T.Run [] m ∧ T.Path m tr e := Run.split h
  exact hp.amountIn_le hrate hburst hdraws hab

end TransitionSystem

namespace TokenBucket

/-- A refill, and what is drawn after it. -/
structure Draw (K : Type*) where
  refill : K
  amount : K

variable {K : Type*} [AddCommGroup K]

/-- The sum of the refills. -/
def refills (l : List (Draw K)) : K :=
  (l.map Draw.refill).sum

/-- The sum of the amounts. -/
def amounts (l : List (Draw K)) : K :=
  (l.map Draw.amount).sum

@[simp] theorem refills_nil : refills ([] : List (Draw K)) = 0 :=
  rfl

@[simp] theorem refills_cons (d : Draw K) (l : List (Draw K)) :
    refills (d :: l) = d.refill + refills l := by
  rw [refills, List.map_cons, List.sum_cons, ← refills]

@[simp] theorem refills_append (l l' : List (Draw K)) :
    refills (l ++ l') = refills l + refills l' := by
  rw [refills, List.map_append, List.sum_append, ← refills, ← refills]

@[simp] theorem amounts_nil : amounts ([] : List (Draw K)) = 0 :=
  rfl

@[simp] theorem amounts_cons (d : Draw K) (l : List (Draw K)) :
    amounts (d :: l) = d.amount + amounts l := by
  rw [amounts, List.map_cons, List.sum_cons, ← amounts]

@[simp] theorem amounts_append (l l' : List (Draw K)) :
    amounts (l ++ l') = amounts l + amounts l' := by
  rw [amounts, List.map_append, List.sum_append, ← amounts, ← amounts]

variable [LinearOrder K]

/-- What is in a bucket that was full before some draws. -/
def levelAfter (size : K) (l : List (Draw K)) : K :=
  l.foldl (fun level d ↦ min size (level + d.refill) - d.amount) size

/-- What is in it when it has been refilled once more. -/
def levelBefore (size : K) (l : List (Draw K)) (refill : K) : K :=
  min size (levelAfter size l + refill)

/-- Each draw finds what it takes. -/
def Covers (size : K) (l : List (Draw K)) : Prop :=
  ∀ l₁ d l₂, l = l₁ ++ d :: l₂ → d.amount ≤ levelBefore size l₁ d.refill

theorem levelAfter_concat (size : K) (l : List (Draw K)) (d : Draw K) :
    levelAfter size (l ++ [d]) = levelBefore size l d.refill - d.amount := by
  rw [levelAfter, List.foldl_append, ← levelAfter]
  rfl

theorem covers_concat {size : K} {l : List (Draw K)} {d : Draw K} :
    Covers size (l ++ [d]) ↔ Covers size l ∧ d.amount ≤ levelBefore size l d.refill := by
  constructor
  · refine fun h ↦ ⟨fun l₁ d' l₂ hl ↦ h l₁ d' (l₂ ++ [d]) ?_, h l d [] rfl⟩
    rw [hl, List.append_assoc, List.cons_append]
  · rintro ⟨hl, hd⟩ l₁ d' l₂ heq
    rcases List.eq_nil_or_concat' l₂ with rfl | ⟨l₂, d₂, rfl⟩
    · obtain ⟨rfl, hsingle⟩ := List.append_inj' heq rfl
      obtain rfl := List.singleton_inj.1 hsingle
      exact hd
    · rw [← List.cons_append, ← List.append_assoc] at heq
      obtain ⟨hinit, -⟩ := List.append_inj' heq rfl
      exact hl l₁ d' l₂ hinit

variable {size refill : K} {l : List (Draw K)}

theorem levelBefore_le_size : levelBefore size l refill ≤ size :=
  min_le_left _ _

variable [IsOrderedAddMonoid K]

/-- A bucket has at most what a full one would have had that started at an earlier draw. -/
theorem levelBefore_le (size refill : K) {d : Draw K} {l' : List (Draw K)} (h : d :: l' <:+ l) :
    levelBefore size l refill ≤ size - amounts (d :: l') + refills l' + refill := by
  induction l using List.reverseRecOn generalizing d l' refill with
  | nil => exact absurd h (by simp)
  | append_singleton l z ih =>
    refine (min_le_right _ _).trans (add_le_add_left ?_ refill)
    rw [levelAfter_concat]
    rcases List.eq_nil_or_concat' l' with rfl | ⟨l'', z', rfl⟩
    · obtain rfl : d = z := by
        obtain ⟨t, ht⟩ := h
        obtain ⟨-, hsingle⟩ := List.append_inj' ht rfl
        exact List.singleton_inj.1 hsingle
      simpa using sub_le_sub_right (levelBefore_le_size (l := l)) d.amount
    · obtain ⟨hsuffix, rfl⟩ : d :: l'' <:+ l ∧ z' = z := by
        obtain ⟨t, ht⟩ := h
        rw [← List.cons_append, ← List.append_assoc] at ht
        obtain ⟨hinit, hsingle⟩ := List.append_inj' ht rfl
        exact ⟨⟨t, hinit⟩, List.singleton_inj.1 hsingle⟩
      have hle := sub_le_sub_right (ih z'.refill hsuffix) z'.amount
      refine hle.trans (le_of_eq ?_)
      simp only [amounts_cons, amounts_append, refills_append, amounts_nil, refills_cons,
        refills_nil]
      abel

/-- And it has what one of them would have had. -/
theorem levelBefore_eq (size : K) (hrefills : ∀ d ∈ l, 0 ≤ d.refill) (hrefill : 0 ≤ refill) :
    levelBefore size l refill = size ∨ ∃ d l', d :: l' <:+ l ∧
      levelBefore size l refill = size - amounts (d :: l') + refills l' + refill := by
  induction l using List.reverseRecOn generalizing refill with
  | nil => exact .inl (min_eq_left (le_add_of_nonneg_right hrefill))
  | append_singleton l z ih =>
    rcases min_choice size (levelAfter size (l ++ [z]) + refill) with hfull | hless
    · exact .inl hfull
    · right
      rw [levelBefore, hless, levelAfter_concat]
      rcases ih (fun d hd ↦ hrefills d (List.mem_append_left _ hd))
        (hrefills z (by simp)) with hlevel | ⟨d, l', hsuffix, hlevel⟩
      · refine ⟨z, [], List.suffix_append l [z], ?_⟩
        rw [hlevel]
        simp
      · refine ⟨d, l' ++ [z], ?_, ?_⟩
        · obtain ⟨t, rfl⟩ := hsuffix
          exact ⟨t, by simp⟩
        · rw [hlevel]
          simp only [amounts_cons, amounts_append, refills_append, amounts_nil, refills_cons,
            refills_nil]
          abel

/-- So it has less than an amount exactly when a full bucket has, or one of them would have had. -/
theorem levelBefore_lt_iff {c : K} (hrefills : ∀ d ∈ l, 0 ≤ d.refill) (hrefill : 0 ≤ refill) :
    levelBefore size l refill < c ↔ size < c ∨ ∃ d l', d :: l' <:+ l ∧
      size - amounts (d :: l') + refills l' + refill < c := by
  constructor
  · intro h
    rcases levelBefore_eq size hrefills hrefill with hfull | ⟨d, l', hsuffix, hlevel⟩
    · exact .inl (hfull.symm.trans_lt h)
    · exact .inr ⟨d, l', hsuffix, hlevel.symm.trans_lt h⟩
  · rintro (h | ⟨d, l', hsuffix, h⟩)
    · exact levelBefore_le_size.trans_lt h
    · exact (levelBefore_le size refill hsuffix).trans_lt h

/-- **All draws can be made** exactly when no stretch of consecutive draws takes more than the size
and what comes in within the stretch. -/
theorem covers_iff (hrefills : ∀ d ∈ l, 0 ≤ d.refill) :
    Covers size l ↔ ∀ d l', d :: l' <:+: l → amounts (d :: l') ≤ size + refills l' := by
  constructor
  · rintro hcovers d l' ⟨before, after, rfl⟩
    rcases List.eq_nil_or_concat' l' with rfl | ⟨l', z, rfl⟩
    · have hd := hcovers before d after (by simp)
      simpa using hd.trans levelBefore_le_size
    · have hz := hcovers (before ++ d :: l') z after (by simp)
      have hle := hz.trans (levelBefore_le size _ (List.suffix_append before (d :: l')))
      simp only [amounts_cons, amounts_append, refills_append, amounts_nil, refills_cons,
        refills_nil, add_zero] at hle ⊢
      rw [sub_add_eq_add_sub, sub_add_eq_add_sub, le_sub_iff_add_le] at hle
      calc d.amount + (amounts l' + z.amount) = z.amount + (d.amount + amounts l') := by abel
        _ ≤ size + refills l' + z.refill := hle
        _ = size + (refills l' + z.refill) := add_assoc _ _ _
  · rintro h l₁ z l₂ rfl
    have hmem : ∀ d ∈ l₁, 0 ≤ d.refill := fun d hd ↦ hrefills d (List.mem_append_left _ hd)
    rcases levelBefore_eq size hmem (hrefills z (by simp)) with
      hlevel | ⟨d, l', ⟨before, rfl⟩, hlevel⟩
    · rw [hlevel]
      simpa using h z [] ⟨l₁, l₂, by simp⟩
    · have hle := h d (l' ++ [z]) ⟨before, l₂, by simp⟩
      rw [hlevel]
      simp only [amounts_cons, amounts_append, refills_append, amounts_nil, refills_cons,
        refills_nil, add_zero] at hle ⊢
      rw [sub_add_eq_add_sub, sub_add_eq_add_sub, le_sub_iff_add_le]
      calc z.amount + (d.amount + amounts l') = d.amount + (amounts l' + z.amount) := by abel
        _ ≤ size + (refills l' + z.refill) := hle
        _ = size + refills l' + z.refill := (add_assoc _ _ _).symm

end TokenBucket
