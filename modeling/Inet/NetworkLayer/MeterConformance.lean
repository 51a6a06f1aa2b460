import Mathlib.Algebra.Order.BigOperators.Group.List
import Inet.NetworkLayer.DiffservMeters

/-!
# Conforming traffic at the meters

Traffic conforms to a profile if it never has more than `CBS - 1 + CIR * (v - u)` bits in an
interval from `u` to `v`. A bucket that is refilled continuously has at least one token to spare for
each packet of such traffic.

The buckets of `TokenBucketMeter` and `SingleRateThreeColorMeter` are refilled with the whole tokens
of the time since the last packet, and the rest of a token is lost with every packet. What is lost
adds up, so that conforming traffic is marked down after some packets
(`not_neverMarkedDown_tenPackets`). It is not exactly where the whole tokens keep up with it
(`neverMarkedDown_iff`).
-/

namespace Inet

open Diffserv TokenBucket

/-- The committed bucket of a meter. -/
structure CommittedBucket (σ : Type) where
  CIR : ℚ
  CBS : ℤ
  /-- What is in the bucket. -/
  Tc : σ → ℤ
  /-- The time of the last packet. -/
  lastUpdateTime : σ → ℚ
  CIR_nonneg : 0 ≤ CIR
  CBS_lt : CBS < 2 ^ 31

namespace CommittedBucket

variable {σ : Type} (B : CommittedBucket σ)

/-- The time since the last packet. -/
def elapsedTime (x : Transition σ Arrival Color) : ℚ :=
  x.input.time - B.lastUpdateTime x.pre

/-- The whole tokens of that time. -/
def tokens (x : Transition σ Arrival Color) : ℤ :=
  numTokens B.CIR (B.elapsedTime x)

/-- What the bucket holds when a packet has come. -/
def before (x : Transition σ Arrival Color) : ℤ :=
  refill B.CBS (B.Tc x.pre) (B.tokens x)

/-- A packet at the bucket of the code. -/
def wholeDraw (x : Transition σ Arrival Color) : Draw ℤ :=
  ⟨B.tokens x, x.input.packet.bitLength⟩

/-- The same packet at a bucket that is refilled continuously. -/
def fluidDraw (x : Transition σ Arrival Color) : Draw ℚ :=
  ⟨B.CIR * B.elapsedTime x, x.input.packet.bitLength⟩

/-- What a bucket that is refilled continuously holds when a packet has come, if it has been drawn
from for all packets before. -/
def idealBefore (tr : List (Transition σ Arrival Color)) (x : Transition σ Arrival Color) : ℚ :=
  levelBefore (B.CBS : ℚ) (tr.map B.fluidDraw) (B.CIR * B.elapsedTime x)

/-- The bits of some packets. -/
def bits (tr : List (Transition σ Arrival Color)) : ℤ :=
  (tr.map fun x ↦ (x.input.packet.bitLength : ℤ)).sum

/-- The whole tokens that come in with some packets. -/
def tokensOf (tr : List (Transition σ Arrival Color)) : ℤ :=
  (tr.map B.tokens).sum

/-- No packet has been marked before, and no interval has more bits than the profile less one. -/
structure Conforms (tr : List (Transition σ Arrival Color)) : Prop where
  uncolored : ∀ x ∈ tr, x.input.packet.dscolor = none
  le_profile : ∀ u v, u ≤ v →
    TransitionSystem.amountIn (fun x ↦ x.input.time) (fun x ↦ (x.input.packet.bitLength : ℚ)) u v tr
      ≤ B.CBS - 1 + B.CIR * (v - u)

/-- Every packet is marked green, and what the bucket holds before a packet is within one token of
what it should hold. -/
structure NeverMarkedDown (tr : List (Transition σ Arrival Color)) : Prop where
  green : ∀ x ∈ tr, x.output = .GREEN
  close : ∀ tr₁ x tr₂, tr = tr₁ ++ x :: tr₂ → |(B.before x : ℚ) - B.idealBefore tr₁ x| < 1

/-- The whole tokens keep up with the packets: with a full bucket they are enough for every stretch
of packets, and from any packet `y` to a packet `x` they are as many as the bits, or they are less
than one token behind what comes in continuously from some packet `y'` to `x`. -/
structure KeepsUp (tr : List (Transition σ Arrival Color)) : Prop where
  covered : ∀ x l, x :: l <:+: tr → bits (x :: l) ≤ B.CBS + B.tokensOf l
  close : ∀ tr₁ x tr₂, tr = tr₁ ++ x :: tr₂ → ∀ y l, y :: l <:+ tr₁ →
    bits (y :: l) ≤ B.tokensOf (l ++ [x]) ∨ ∃ y' l', y' :: l' <:+ tr₁ ∧
      B.CIR * (x.input.time - y'.input.time) - bits (y' :: l') <
        B.tokensOf (l ++ [x]) - bits (y :: l) + 1

/-- A meter that works with a committed bucket. -/
structure IsBucketOf (T : TransitionSystem σ Arrival Color) : Prop where
  init : ∀ s, T.Init s → B.Tc s = B.CBS
  clock_le : ∀ s a color s', T.Step s a color s' → B.lastUpdateTime s ≤ a.time
  clock_eq : ∀ s a color s', T.Step s a color s' → B.lastUpdateTime s' = a.time
  green_iff : ∀ s a color s', T.Step s a color s' → a.packet.dscolor = none →
    a.packet.bitLength < 2 ^ 31 → (color = .GREEN ↔ a.packet.bitLength ≤ B.before ⟨s, a, color, s'⟩)
  Tc_of_green : ∀ s a s', T.Step s a .GREEN s' → a.packet.bitLength < 2 ^ 31 →
    B.Tc s' = B.before ⟨s, a, .GREEN, s'⟩ - a.packet.bitLength

variable {B} {T : TransitionSystem σ Arrival Color} {s : σ}
  {tr : List (Transition σ Arrival Color)} {x : Transition σ Arrival Color}

/-! ### The bucket of the code -/

@[simp] theorem bits_cons (x : Transition σ Arrival Color) (tr : List (Transition σ Arrival Color)) :
    bits (x :: tr) = x.input.packet.bitLength + bits tr := by
  simp [bits]

theorem tokensOf_concat (tr : List (Transition σ Arrival Color)) (x : Transition σ Arrival Color) :
    B.tokensOf (tr ++ [x]) = B.tokensOf tr + B.tokens x := by
  simp [tokensOf]

theorem amounts_wholeDraw (tr : List (Transition σ Arrival Color)) :
    amounts (tr.map B.wholeDraw) = bits tr := by
  rw [amounts, List.map_map, bits]
  rfl

theorem refills_wholeDraw (tr : List (Transition σ Arrival Color)) :
    refills (tr.map B.wholeDraw) = B.tokensOf tr := by
  rw [refills, List.map_map, tokensOf]
  rfl

theorem amounts_fluidDraw (tr : List (Transition σ Arrival Color)) :
    amounts (tr.map B.fluidDraw) = bits tr := by
  induction tr with
  | nil => rfl
  | cons x tr ih =>
    rw [List.map_cons, amounts_cons, ih, bits_cons, Int.cast_add]
    rfl

/-- A conforming packet has a length that is an `int`. -/
theorem Conforms.bitLength_lt (h : B.Conforms tr) (hx : x ∈ tr) :
    x.input.packet.bitLength < 2 ^ 31 := by
  have hle := h.le_profile x.input.time x.input.time le_rfl
  have hmem : x ∈ tr.filter fun y ↦ x.input.time ≤ y.input.time ∧ y.input.time ≤ x.input.time :=
    List.mem_filter.2 ⟨hx, by simp⟩
  have hsingle : (x.input.packet.bitLength : ℚ) ≤ TransitionSystem.amountIn (fun x ↦ x.input.time)
      (fun x ↦ (x.input.packet.bitLength : ℚ)) x.input.time x.input.time tr :=
    List.single_le_sum (List.forall_mem_map.2 fun _ _ ↦ Nat.cast_nonneg _) _
      (List.mem_map_of_mem hmem)
  rw [sub_self, mul_zero, add_zero] at hle
  have hlt : (x.input.packet.bitLength : ℤ) ≤ B.CBS - 1 := by exact_mod_cast hsingle.trans hle
  have hCBS := B.CBS_lt
  omega

/-- As long as all packets are green, the bucket is the one from which all have been drawn, and they
are green exactly if it has enough for each. -/
theorem IsBucketOf.green_iff_covers (hB : B.IsBucketOf T) (h : T.Run tr s)
    (huncolored : ∀ x ∈ tr, x.input.packet.dscolor = none)
    (hsize : ∀ x ∈ tr, x.input.packet.bitLength < 2 ^ 31) :
    ((∀ x ∈ tr, x.output = .GREEN) ↔ Covers B.CBS (tr.map B.wholeDraw)) ∧
      ((∀ x ∈ tr, x.output = .GREEN) → B.Tc s = levelAfter B.CBS (tr.map B.wholeDraw)) := by
  induction h with
  | nil hs =>
    refine ⟨⟨fun _ l₁ d l₂ hl ↦ absurd hl (by simp), fun _ ↦ by simp⟩, fun _ ↦ hB.init _ hs⟩
  | @snoc tr s s' a color hr hstep ih =>
    rw [List.forall_mem_append, List.forall_mem_singleton] at huncolored hsize
    obtain ⟨hiff, hlevel⟩ := ih huncolored.1 hsize.1
    have hgreen := hB.green_iff s a color s' hstep huncolored.2 hsize.2
    have hbefore (hall : ∀ x ∈ tr, x.output = .GREEN) : B.before ⟨s, a, color, s'⟩ =
        levelBefore B.CBS (tr.map B.wholeDraw) (B.tokens ⟨s, a, color, s'⟩) := by
      rw [before, refill_eq, hlevel hall]
      rfl
    rw [List.map_append, List.map_singleton, covers_concat, levelAfter_concat,
      List.forall_mem_append, List.forall_mem_singleton]
    constructor
    · rw [← hiff]
      refine and_congr_right fun hall ↦ ?_
      rw [hgreen, hbefore hall]
      rfl
    · rintro ⟨hall, rfl⟩
      rw [hB.Tc_of_green s a s' hstep hsize.2, hbefore hall]
      rfl

/-- What the bucket holds before a packet, as long as all packets are green. -/
theorem IsBucketOf.before_eq (hB : B.IsBucketOf T) {tr₁ tr₂ : List (Transition σ Arrival Color)}
    (h : T.Run (tr₁ ++ x :: tr₂) s) (hconf : B.Conforms (tr₁ ++ x :: tr₂))
    (hgreen : ∀ y ∈ tr₁, y.output = .GREEN) :
    B.before x = levelBefore B.CBS (tr₁.map B.wholeDraw) (B.tokens x) := by
  obtain ⟨m, hm, hp⟩ := h.split
  have hpre : m = x.pre := by
    cases hp with
    | cons => rfl
  obtain ⟨-, hlevel⟩ := hB.green_iff_covers hm
    (fun y hy ↦ hconf.uncolored y (List.mem_append_left _ hy))
    (fun y hy ↦ hconf.bitLength_lt (List.mem_append_left _ hy))
  rw [before, refill_eq, ← hpre, hlevel hgreen]
  rfl

/-! ### The bucket that is refilled continuously -/

theorem IsBucketOf.elapsedTime_nonneg (hB : B.IsBucketOf T) (h : T.Run tr s) (hx : x ∈ tr) :
    0 ≤ B.elapsedTime x :=
  sub_nonneg.2 (hB.clock_le _ _ _ _ (h.takes hx))

theorem IsBucketOf.tokens_nonneg (hB : B.IsBucketOf T) (h : T.Run tr s) (hx : x ∈ tr) :
    0 ≤ B.tokens x :=
  numTokens_nonneg B.CIR_nonneg (hB.elapsedTime_nonneg h hx)

/-- What comes in along a path. -/
theorem IsBucketOf.refills_fluidDraw (hB : B.IsBucketOf T) {e : σ} (h : T.Path s tr e) :
    refills (tr.map B.fluidDraw) = B.CIR * (B.lastUpdateTime e - B.lastUpdateTime s) := by
  induction h with
  | nil => simp
  | cons hs hp ih =>
    rw [List.map_cons, refills_cons, ih, hB.clock_eq _ _ _ _ hs]
    simp only [fluidDraw, elapsedTime]
    ring

theorem tokensOf_le_refills (tr : List (Transition σ Arrival Color)) :
    (B.tokensOf tr : ℚ) ≤ refills (tr.map B.fluidDraw) := by
  induction tr with
  | nil => simp [tokensOf]
  | cons x tr ih =>
    have hx : (B.tokens x : ℚ) ≤ (B.fluidDraw x).refill := numTokens_le _ _
    rw [List.map_cons, refills_cons, tokensOf, List.map_cons, List.sum_cons, ← tokensOf,
      Int.cast_add]
    exact add_le_add hx ih

/-- From a packet to a later one. -/
theorem IsBucketOf.refills_of_suffix (hB : B.IsBucketOf T)
    {tr₁ tr₂ l : List (Transition σ Arrival Color)} {y : Transition σ Arrival Color}
    (h : T.Run (tr₁ ++ x :: tr₂) s) (hsuffix : y :: l <:+ tr₁) :
    refills (l.map B.fluidDraw) + B.CIR * B.elapsedTime x =
      B.CIR * (x.input.time - y.input.time) := by
  obtain ⟨t, rfl⟩ := hsuffix
  have hall : T.Run (t ++ [y] ++ (l ++ [x]) ++ tr₂) s := by simpa using h
  obtain ⟨e, hfirst, -⟩ := hall.split
  obtain ⟨m, hm, hp⟩ := hfirst.split
  rw [← List.append_assoc] at hfirst
  obtain ⟨-, hy, rfl⟩ := hm.of_append_singleton
  obtain ⟨-, hx, rfl⟩ := hfirst.of_append_singleton
  have hsum := hB.refills_fluidDraw hp
  rw [hB.clock_eq _ _ _ _ hx, hB.clock_eq _ _ _ _ hy] at hsum
  simpa [fluidDraw] using hsum

/-- The ideal bucket holds less than an amount exactly if a full bucket would, or one that was full
at some packet before. -/
theorem IsBucketOf.idealBefore_lt_iff (hB : B.IsBucketOf T)
    {tr₁ tr₂ : List (Transition σ Arrival Color)} (h : T.Run (tr₁ ++ x :: tr₂) s) {c : ℚ} :
    B.idealBefore tr₁ x < c ↔ B.CBS < c ∨ ∃ y l, y :: l <:+ tr₁ ∧
      B.CBS - bits (y :: l) + B.CIR * (x.input.time - y.input.time) < c := by
  have hnonneg (y) (hy : y ∈ tr₁ ++ x :: tr₂) : 0 ≤ B.CIR * B.elapsedTime y :=
    mul_nonneg B.CIR_nonneg (hB.elapsedTime_nonneg h hy)
  rw [idealBefore, levelBefore_lt_iff (List.forall_mem_map.2 fun y hy ↦
    hnonneg y (List.mem_append_left _ hy)) (hnonneg x (by simp))]
  refine or_congr_right ⟨?_, ?_⟩
  · rintro ⟨d, l', hsuffix, hlt⟩
    obtain ⟨_ | ⟨y, l⟩, hl, heq⟩ := List.suffix_map_iff.1 hsuffix
    · simp at heq
    · obtain ⟨rfl, rfl⟩ := List.cons.inj heq
      rw [← List.map_cons, amounts_fluidDraw, add_assoc, hB.refills_of_suffix h hl] at hlt
      exact ⟨y, l, hl, hlt⟩
  · rintro ⟨y, l, hl, hlt⟩
    refine ⟨_, _, hl.map B.fluidDraw, ?_⟩
    rwa [← List.map_cons, amounts_fluidDraw, add_assoc, hB.refills_of_suffix h hl]

/-- The bucket of the code has more than an amount exactly if a full bucket would, and each one that
was full at some packet before. -/
theorem IsBucketOf.lt_before_iff (hB : B.IsBucketOf T)
    {tr₁ tr₂ : List (Transition σ Arrival Color)} (h : T.Run (tr₁ ++ x :: tr₂) s)
    (hconf : B.Conforms (tr₁ ++ x :: tr₂)) (hgreen : ∀ y ∈ tr₁, y.output = .GREEN) {c : ℚ} :
    c < B.before x + 1 ↔ c < B.CBS + 1 ∧ ∀ y l, y :: l <:+ tr₁ →
      c < B.CBS - bits (y :: l) + B.tokensOf (l ++ [x]) + 1 := by
  rw [hB.before_eq h hconf hgreen]
  constructor
  · refine fun hlt ↦ ⟨hlt.trans_le ?_, fun y l hl ↦ hlt.trans_le ?_⟩
    · have hle : levelBefore B.CBS (tr₁.map B.wholeDraw) (B.tokens x) ≤ B.CBS := levelBefore_le_size
      exact_mod_cast Int.add_le_add_right hle 1
    · have hle := levelBefore_le B.CBS (B.tokens x) (hl.map B.wholeDraw)
      rw [← List.map_cons, amounts_wholeDraw, refills_wholeDraw, add_assoc, ← tokensOf_concat] at hle
      exact_mod_cast Int.add_le_add_right hle 1
  · rintro ⟨hfull, hall⟩
    have hnonneg (y) (hy : y ∈ tr₁ ++ x :: tr₂) : 0 ≤ B.tokens y := hB.tokens_nonneg h hy
    have hrefills : ∀ d ∈ tr₁.map B.wholeDraw, 0 ≤ d.refill :=
      List.forall_mem_map.2 fun y hy ↦ hnonneg y (List.mem_append_left _ hy)
    rcases levelBefore_eq B.CBS hrefills (hnonneg x (by simp)) with
      hlevel | ⟨d, l', hsuffix, hlevel⟩
    · rwa [hlevel]
    · obtain ⟨_ | ⟨y, l⟩, hl, heq⟩ := List.suffix_map_iff.1 hsuffix
      · simp at heq
      · obtain ⟨rfl, rfl⟩ := List.cons.inj heq
        rw [hlevel, ← List.map_cons, amounts_wholeDraw, refills_wholeDraw, add_assoc,
          ← tokensOf_concat]
        exact_mod_cast hall y l hl

/-- The bucket of the code never holds more than the ideal one. -/
theorem IsBucketOf.before_le_idealBefore (hB : B.IsBucketOf T)
    {tr₁ tr₂ : List (Transition σ Arrival Color)} (h : T.Run (tr₁ ++ x :: tr₂) s)
    (hconf : B.Conforms (tr₁ ++ x :: tr₂)) (hgreen : ∀ y ∈ tr₁, y.output = .GREEN) :
    (B.before x : ℚ) ≤ B.idealBefore tr₁ x := by
  rw [← not_lt, hB.idealBefore_lt_iff h, hB.before_eq h hconf hgreen]
  rintro (hlt | ⟨y, l, hl, hlt⟩)
  · have hle : levelBefore B.CBS (tr₁.map B.wholeDraw) (B.tokens x) ≤ B.CBS := levelBefore_le_size
    have hlt' : B.CBS < levelBefore B.CBS (tr₁.map B.wholeDraw) (B.tokens x) := by
      exact_mod_cast hlt
    omega
  · have hle := levelBefore_le B.CBS (B.tokens x) (hl.map B.wholeDraw)
    have hx : (B.tokens x : ℚ) ≤ B.CIR * B.elapsedTime x := numTokens_le _ _
    have htokens : (B.tokensOf l : ℚ) ≤ refills (l.map B.fluidDraw) := tokensOf_le_refills l
    rw [← List.map_cons, amounts_wholeDraw, refills_wholeDraw] at hle
    have hcast : ((levelBefore B.CBS (tr₁.map B.wholeDraw) (B.tokens x) : ℤ) : ℚ) ≤
        B.CBS - bits (y :: l) + B.tokensOf l + B.tokens x := by exact_mod_cast hle
    have hsum := hB.refills_of_suffix h hl
    linarith

/-- Both buckets hold the least of what full buckets would hold, so that they can be compared one by
one. -/
theorem IsBucketOf.close_iff (hB : B.IsBucketOf T) {tr₁ tr₂ : List (Transition σ Arrival Color)}
    (h : T.Run (tr₁ ++ x :: tr₂) s) (hconf : B.Conforms (tr₁ ++ x :: tr₂))
    (hgreen : ∀ y ∈ tr₁, y.output = .GREEN) :
    |(B.before x : ℚ) - B.idealBefore tr₁ x| < 1 ↔ ∀ y l, y :: l <:+ tr₁ →
      bits (y :: l) ≤ B.tokensOf (l ++ [x]) ∨ ∃ y' l', y' :: l' <:+ tr₁ ∧
        B.CIR * (x.input.time - y'.input.time) - bits (y' :: l') <
          B.tokensOf (l ++ [x]) - bits (y :: l) + 1 := by
  have hfull : B.idealBefore tr₁ x < B.CBS + 1 :=
    lt_of_le_of_lt levelBefore_le_size (lt_add_one _)
  rw [abs_sub_comm, abs_of_nonneg (sub_nonneg.2 (hB.before_le_idealBefore h hconf hgreen)),
    sub_lt_iff_lt_add', hB.lt_before_iff h hconf hgreen, and_iff_right hfull]
  refine forall₃_congr fun y l _ ↦ ?_
  rw [hB.idealBefore_lt_iff h]
  refine or_congr ?_ (exists₂_congr fun y' l' ↦ and_congr_right fun _ ↦ ?_)
  · have hint : B.CBS < B.CBS - bits (y :: l) + B.tokensOf (l ++ [x]) + 1 ↔
        bits (y :: l) ≤ B.tokensOf (l ++ [x]) := by omega
    rw [← hint]
    exact_mod_cast Iff.rfl
  · constructor <;> intro hlt <;> linarith

/-- What it takes for a bucket that conforming packets are never marked down. -/
theorem IsBucketOf.neverMarkedDown_iff_keepsUp (hB : B.IsBucketOf T) (h : T.Run tr s)
    (hconf : B.Conforms tr) : B.NeverMarkedDown tr ↔ B.KeepsUp tr := by
  obtain ⟨hgreen, -⟩ := hB.green_iff_covers h hconf.uncolored fun _ hx ↦ hconf.bitLength_lt hx
  have hcovers : Covers B.CBS (tr.map B.wholeDraw) ↔
      ∀ x l, x :: l <:+: tr → bits (x :: l) ≤ B.CBS + B.tokensOf l := by
    rw [covers_iff (List.forall_mem_map.2 fun x hx ↦ hB.tokens_nonneg h hx)]
    constructor
    · intro hall x l hl
      have hle := hall _ _ (hl.map B.wholeDraw)
      rwa [← List.map_cons, amounts_wholeDraw, refills_wholeDraw] at hle
    · intro hall d l' hinfix
      obtain ⟨_ | ⟨x, l⟩, hl, heq⟩ := List.infix_map_iff.1 hinfix
      · simp at heq
      · obtain ⟨rfl, rfl⟩ := List.cons.inj heq
        rw [← List.map_cons, amounts_wholeDraw, refills_wholeDraw]
        exact hall x l hl
  have hclose (hall : ∀ x ∈ tr, x.output = .GREEN) (tr₁ x tr₂) (heq : tr = tr₁ ++ x :: tr₂) :=
    hB.close_iff (heq ▸ h) (heq ▸ hconf) fun y hy ↦ hall y (heq ▸ List.mem_append_left _ hy)
  constructor
  · rintro ⟨hall, hnear⟩
    exact ⟨hcovers.1 (hgreen.1 hall), fun tr₁ x tr₂ heq ↦
      (hclose hall tr₁ x tr₂ heq).1 (hnear tr₁ x tr₂ heq)⟩
  · rintro ⟨hcovered, hnear⟩
    have hall := hgreen.2 (hcovers.2 hcovered)
    exact ⟨hall, fun tr₁ x tr₂ heq ↦ (hclose hall tr₁ x tr₂ heq).2 (hnear tr₁ x tr₂ heq)⟩

theorem keepsUp_singleton (h : x.input.packet.bitLength ≤ B.CBS) : B.KeepsUp [x] where
  covered y l hl := by
    obtain rfl : l = [] := List.eq_nil_of_length_eq_zero (by simpa using hl.length_le)
    obtain rfl : y = x := List.mem_singleton.1 (hl.subset List.mem_cons_self)
    simpa [bits, tokensOf] using h
  close tr₁ y tr₂ heq z l hl := by
    have hlength := congrArg List.length heq
    have hle := hl.length_le
    simp only [List.length_append, List.length_cons, List.length_nil] at hlength hle
    omega

end CommittedBucket

/-! ### Both meters -/

theorem MeteredPacket.oldColor_of_uncolored {packet : MeteredPacket} (h : packet.dscolor = none)
    (colorAwareMode : Bool) : packet.oldColor colorAwareMode = -1 := by
  rw [oldColor, getColor, h]
  split_ifs <;> rfl

/-- The bucket of a `TokenBucketMeter`. -/
def TokenBucketMeter.committed (P : TokenBucketMeterParameters) :
    CommittedBucket TokenBucketMeter where
  CIR := P.CIR
  CBS := P.CBS
  Tc := Tc
  lastUpdateTime := lastUpdateTime
  CIR_nonneg := P.CIR_nonneg
  CBS_lt := P.CBS_lt

theorem TokenBucketMeter.meterPacket_green_iff {P : TokenBucketMeterParameters}
    {s s' : TokenBucketMeter} {a : Arrival} {color : Color} (h : s.meterPacket P a = (s', color))
    (huncolored : a.packet.dscolor = none) (hsize : a.packet.bitLength < 2 ^ 31) :
    color = .GREEN ↔ a.packet.bitLength ≤ s.refilled P a.time := by
  have hcolor : color = (s.meterPacket P a).2 := by rw [h]
  rw [hcolor, meterPacket, MeteredPacket.oldColor_of_uncolored huncolored, toInt_of_lt hsize]
  split_ifs with hgreen <;> simpa [Color.toInt] using hgreen

theorem TokenBucketMeter.committed_isBucketOf (P : TokenBucketMeterParameters) :
    (committed P).IsBucketOf (system P) where
  init _ hs := hs
  clock_le _ _ _ _ h := h.1
  clock_eq _ _ _ _ h := (meterPacket_cases h.2).1
  green_iff s a color s' h huncolored hsize := by
    rw [meterPacket_green_iff h.2 huncolored hsize]
    rfl
  Tc_of_green s a s' h hsize := by
    obtain ⟨-, ⟨-, hTc, -⟩ | ⟨hred, -⟩⟩ := meterPacket_cases h.2
    · rwa [toInt_of_lt hsize] at hTc
    · cases hred

/-- The first bucket of a `SingleRateThreeColorMeter`. -/
def SingleRateThreeColorMeter.committed (P : SingleRateThreeColorMeterParameters) :
    CommittedBucket SingleRateThreeColorMeter where
  CIR := P.CIR
  CBS := P.CBS
  Tc := Tc
  lastUpdateTime := lastUpdateTime
  CIR_nonneg := P.CIR_nonneg
  CBS_lt := P.CBS_lt

theorem SingleRateThreeColorMeter.meterPacket_green_iff {P : SingleRateThreeColorMeterParameters}
    {s s' : SingleRateThreeColorMeter} {a : Arrival} {color : Color}
    (h : s.meterPacket P a = (s', color)) (huncolored : a.packet.dscolor = none)
    (hsize : a.packet.bitLength < 2 ^ 31) :
    color = .GREEN ↔ a.packet.bitLength ≤ (s.refilled P a.time).1 := by
  have hcolor : color = (s.meterPacket P a).2 := by rw [h]
  simp only [hcolor, meterPacket, MeteredPacket.oldColor_of_uncolored huncolored,
    toInt_of_lt hsize]
  split_ifs with hgreen hyellow <;> simpa [Color.toInt] using hgreen

theorem SingleRateThreeColorMeter.before_committed (P : SingleRateThreeColorMeterParameters)
    (x : Transition SingleRateThreeColorMeter Arrival Color) :
    (committed P).before x = (x.pre.refilled P x.input.time).1 := by
  have hbefore : (committed P).before x =
      refill P.CBS x.pre.Tc (numTokens P.CIR (x.input.time - x.pre.lastUpdateTime)) := rfl
  rw [hbefore, refill, refilled]
  split_ifs with hroom <;> rfl

theorem SingleRateThreeColorMeter.committed_isBucketOf (P : SingleRateThreeColorMeterParameters) :
    (committed P).IsBucketOf (system P) where
  init _ hs := hs.1
  clock_le _ _ _ _ h := h.1
  clock_eq _ _ _ _ h := (meterPacket_cases h.2).1
  green_iff s a color s' h huncolored hsize := by
    rw [meterPacket_green_iff h.2 huncolored hsize, before_committed]
  Tc_of_green s a s' h hsize := by
    rw [before_committed]
    obtain ⟨-, ⟨-, hTc, -⟩ | ⟨hother, -⟩ | ⟨hother, -⟩⟩ := meterPacket_cases h.2
    · rwa [toInt_of_lt hsize] at hTc
    all_goals cases hother

section

variable {P : TokenBucketMeterParameters} {P' : SingleRateThreeColorMeterParameters}
  {s : TokenBucketMeter} {s' : SingleRateThreeColorMeter}
  {tr : List (Transition TokenBucketMeter Arrival Color)}
  {tr' : List (Transition SingleRateThreeColorMeter Arrival Color)}

/-- **Conforming traffic is never marked down** exactly where the whole tokens keep up with it. -/
theorem neverMarkedDown_iff (h : (TokenBucketMeter.system P).Run tr s)
    (h' : (SingleRateThreeColorMeter.system P').Run tr' s')
    (hconf : (TokenBucketMeter.committed P).Conforms tr)
    (hconf' : (SingleRateThreeColorMeter.committed P').Conforms tr') :
    ((TokenBucketMeter.committed P).NeverMarkedDown tr ↔
        (TokenBucketMeter.committed P).KeepsUp tr) ∧
      ((SingleRateThreeColorMeter.committed P').NeverMarkedDown tr' ↔
        (SingleRateThreeColorMeter.committed P').KeepsUp tr') :=
  ⟨(TokenBucketMeter.committed_isBucketOf P).neverMarkedDown_iff_keepsUp h hconf,
    (SingleRateThreeColorMeter.committed_isBucketOf P').neverMarkedDown_iff_keepsUp h' hconf'⟩

end

/-- A profile of 1599 bps with bursts of 21 bytes. -/
def TokenBucketMeterParameters.slow : TokenBucketMeterParameters where
  CIR := 1599
  CBS := 168
  colorAwareMode := false
  CIR_nonneg := by norm_num
  CBS_nonneg := by norm_num
  CBS_lt := by norm_num

/-- The same with no bursts beyond. -/
def SingleRateThreeColorMeterParameters.slow : SingleRateThreeColorMeterParameters where
  CIR := 1599
  CBS := 168
  EBS := 0
  colorAwareMode := false
  CIR_nonneg := by norm_num
  CBS_nonneg := by norm_num
  CBS_lt := by norm_num
  EBS_nonneg := by norm_num

/-- Some packets of 20 bytes, one in a tenth of a second. -/
def packetsEveryTenth (n : ℕ) : List Arrival :=
  (List.range n).map fun k ↦ ⟨1 + k / 10, 160, none⟩

/-- What the first meter does with them. -/
def TokenBucketMeter.everyTenth (n : ℕ) : List (Transition TokenBucketMeter Arrival Color) :=
  TransitionSystem.transitionsOf (meterPacket .slow) ⟨168, 0⟩ (packetsEveryTenth n)

/-- What the second meter does with them. -/
def SingleRateThreeColorMeter.everyTenth (n : ℕ) :
    List (Transition SingleRateThreeColorMeter Arrival Color) :=
  TransitionSystem.transitionsOf (meterPacket .slow) ⟨168, 0, 0⟩ (packetsEveryTenth n)

/-- A tenth of a token less is spared with each packet. -/
theorem conforms_of_tenths {σ : Type} {B : CommittedBucket σ} {T : TransitionSystem σ Arrival Color}
    {tr : List (Transition σ Arrival Color)} {s : σ} (h : T.Run tr s) (hCIR : B.CIR = 1599)
    (hCBS : B.CBS = 168) (hall : ∀ x ∈ tr, x.input.packet = ⟨160, none⟩ ∧
      B.lastUpdateTime x.post = x.input.time ∧ 1 ≤ x.input.time ∧
      B.lastUpdateTime x.pre + 1 / 10 ≤ x.input.time ∧ x.input.time ≤ 8) : B.Conforms tr where
  uncolored x hx := by rw [(hall x hx).1]
  le_profile u v huv := by
    have hdraws : ∀ x ∈ tr, TransitionSystem.Draws (fun x ↦ x.input.time)
        (fun x ↦ (x.input.packet.bitLength : ℚ)) B.lastUpdateTime
        (fun s ↦ 8 - B.lastUpdateTime s) 167 1599 x := by
      intro x hx
      obtain ⟨hpacket, hclock, hfirst, hgap, hlast⟩ := hall x hx
      refine ⟨hclock, by linarith, ?_, ?_, ?_⟩
      all_goals
        simp only [hpacket, hclock]
        push_cast
        linarith
    have hle := h.amountIn_le (by norm_num) (by norm_num) hdraws huv
    rw [hCIR, hCBS]
    exact hle.trans (by norm_num)

theorem TokenBucketMeter.run_everyTenth (n : ℕ)
    (h : ∀ x ∈ everyTenth n, x.pre.lastUpdateTime ≤ x.input.time) :
    (system .slow).Run (everyTenth n)
      (TransitionSystem.stateAfter (meterPacket .slow) ⟨168, 0⟩ (packetsEveryTenth n)) :=
  TransitionSystem.Run.ofInputs (T := system .slow) (C := fun s a ↦ s.lastUpdateTime ≤ a.time)
    (fun _ _ h ↦ ⟨h, rfl⟩) rfl h

theorem SingleRateThreeColorMeter.run_everyTenth (n : ℕ)
    (h : ∀ x ∈ everyTenth n, x.pre.lastUpdateTime ≤ x.input.time) :
    (system .slow).Run (everyTenth n)
      (TransitionSystem.stateAfter (meterPacket .slow) ⟨168, 0, 0⟩ (packetsEveryTenth n)) :=
  TransitionSystem.Run.ofInputs (T := system .slow) (C := fun s a ↦ s.lastUpdateTime ≤ a.time)
    (fun _ _ h ↦ ⟨h, rfl⟩) ⟨rfl, rfl⟩ h

theorem neverMarkedDown_onePacket :
    (TokenBucketMeter.committed .slow).NeverMarkedDown (TokenBucketMeter.everyTenth 1) ∧
      (SingleRateThreeColorMeter.committed .slow).NeverMarkedDown
        (SingleRateThreeColorMeter.everyTenth 1) :=
  have hrun := TokenBucketMeter.run_everyTenth 1 (by decide +kernel)
  have hrun' := SingleRateThreeColorMeter.run_everyTenth 1 (by decide +kernel)
  have hiff := neverMarkedDown_iff hrun hrun'
    (conforms_of_tenths hrun rfl rfl (by decide +kernel))
    (conforms_of_tenths hrun' rfl rfl (by decide +kernel))
  ⟨hiff.1.2 (CommittedBucket.keepsUp_singleton (by decide)),
    hiff.2.2 (CommittedBucket.keepsUp_singleton (by decide))⟩

/-- The tenth packet finds one token too few. -/
theorem not_neverMarkedDown_tenPackets :
    ¬ ∀ (P : TokenBucketMeterParameters) (tr : List (Transition TokenBucketMeter Arrival Color))
        (s : TokenBucketMeter), (TokenBucketMeter.system P).Run tr s →
      (TokenBucketMeter.committed P).Conforms tr →
      (TokenBucketMeter.committed P).NeverMarkedDown tr := by
  intro h
  have hrun := TokenBucketMeter.run_everyTenth 10 (by decide +kernel)
  have hdown := h _ _ _ hrun (conforms_of_tenths hrun rfl rfl (by decide +kernel))
  exact absurd hdown.green (by decide +kernel)

end Inet
