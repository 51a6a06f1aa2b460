import Mathlib.Algebra.Order.Ring.Rat
import Mathlib.Data.Rat.Floor
import Inet.Foundations.TokenBucket

/-!
# The meters of differentiated services

`TokenBucketMeter`, `SingleRateThreeColorMeter` and `TwoRateThreeColorMeter` keep buckets of whole
tokens, one for a bit. When a packet arrives, the tokens of the time since the last packet are added
up to the size of a bucket, and the packet is marked according to what the buckets hold.

The length of a packet is put into an `int`. For packets of less than 2³¹ bits that changes nothing,
and no more is marked green, or green and yellow, than the profile allows
(`meters_withinProfile`); a longer packet may count as negative.

Rates and times are rationals.
-/

namespace Inet

/-- `DiffservUtil::Color`. -/
inductive Color
  | GREEN
  | YELLOW
  | RED
  deriving DecidableEq, Repr

/-- The value of a color. -/
def Color.toInt : Color → ℤ
  | .GREEN => 0
  | .YELLOW => 1
  | .RED => 2

/-- A `cPacket` as a meter reads it: its length, and its color if it has been marked. -/
structure MeteredPacket where
  bitLength : ℕ
  dscolor : Option Color
  deriving DecidableEq, Repr

namespace MeteredPacket

/-- `cPacket::getByteLength`. -/
def getByteLength (packet : MeteredPacket) : ℕ :=
  (packet.bitLength + 7) / 8

/-- `DiffservUtil::getColor`. -/
def getColor (packet : MeteredPacket) : ℤ :=
  (packet.dscolor.map Color.toInt).getD (-1)

/-- `colorAwareMode ? getColor(packet) : -1`. -/
def oldColor (colorAwareMode : Bool) (packet : MeteredPacket) : ℤ :=
  if colorAwareMode then packet.getColor else -1

end MeteredPacket

/-- A packet that comes to a meter at some time. -/
structure Arrival where
  time : ℚ
  packet : MeteredPacket
  deriving DecidableEq, Repr

namespace Diffserv

/-- An `int64` that is assigned to an `int`. -/
def toInt (n : ℕ) : ℤ :=
  (Int32.ofNat n).toInt

/-- `(long)(elapsedTime * rate)`. -/
def numTokens (rate elapsedTime : ℚ) : ℤ :=
  ⌊elapsedTime * rate⌋

/-- Tokens are put into a bucket as far as there is room. -/
def refill (size level tokens : ℤ) : ℤ :=
  if level + tokens ≤ size then level + tokens else size

/-- The bits of a packet, if it gets one of some colors. -/
def bitsOf {σ : Type} (colors : List Color) (x : Transition σ Arrival Color) : ℤ :=
  if x.output ∈ colors then x.input.packet.bitLength else 0

/-- The bits of the packets that arrive from `u` to `v` and get one of some colors. -/
def bitsMarked {σ : Type} (colors : List Color) (u v : ℚ)
    (tr : List (Transition σ Arrival Color)) : ℚ :=
  TransitionSystem.amountIn (fun x ↦ x.input.time) (fun x ↦ (bitsOf colors x : ℚ)) u v tr

theorem toInt_of_lt {n : ℕ} (h : n < 2 ^ 31) : toInt n = n :=
  Int32.toInt_ofNat_of_lt h

theorem numTokens_nonneg {rate elapsedTime : ℚ} (hrate : 0 ≤ rate) (htime : 0 ≤ elapsedTime) :
    0 ≤ numTokens rate elapsedTime :=
  Int.floor_nonneg.2 (mul_nonneg htime hrate)

theorem numTokens_le (rate elapsedTime : ℚ) :
    (numTokens rate elapsedTime : ℚ) ≤ rate * elapsedTime := by
  rw [mul_comm]
  exact Int.floor_le _

theorem refill_eq (size level tokens : ℤ) : refill size level tokens = min size (level + tokens) := by
  rw [refill]
  split_ifs with h
  · exact (min_eq_right h).symm
  · exact (min_eq_left (not_le.1 h).le).symm

/-- A refilled bucket holds no more than its size and than what has come in. -/
theorem refill_bounds {size level tokens : ℤ} (hlevel : 0 ≤ level ∧ level ≤ size)
    (htokens : 0 ≤ tokens) :
    0 ≤ refill size level tokens ∧ refill size level tokens ≤ size ∧
      refill size level tokens ≤ level + tokens := by
  rw [refill_eq]
  omega

theorem bitsOf_of_mem {σ : Type} {colors : List Color} {s s' : σ} {a : Arrival} {color : Color}
    (h : color ∈ colors) : bitsOf colors ⟨s, a, color, s'⟩ = a.packet.bitLength :=
  if_pos h

theorem bitsOf_of_notMem {σ : Type} {colors : List Color} {s s' : σ} {a : Arrival} {color : Color}
    (h : color ∉ colors) : bitsOf colors ⟨s, a, color, s'⟩ = 0 :=
  if_neg h

/-- The bits of a packet that gets one of some colors are drawn from a reserve of whole tokens. -/
abbrev DrawsBits {σ : Type} (colors : List Color) (clock : σ → ℚ) (reserve : σ → ℤ) (burst : ℤ)
    (rate : ℚ) : Transition σ Arrival Color → Prop :=
  TransitionSystem.Draws (fun x ↦ x.input.time) (fun x ↦ (bitsOf colors x : ℚ)) clock
    (fun s ↦ (reserve s : ℚ)) burst rate

theorem drawsBits_of_tokens {σ : Type} {colors : List Color} {clock : σ → ℚ} {reserve : σ → ℤ}
    {burst tokens : ℤ} {rate : ℚ} {x : Transition σ Arrival Color}
    (hclock : clock x.post = x.input.time) (htime : clock x.pre ≤ x.input.time)
    (htokens : (tokens : ℚ) ≤ rate * (x.input.time - clock x.pre)) (hnonneg : 0 ≤ reserve x.post)
    (hburst : reserve x.post + bitsOf colors x ≤ burst)
    (hrefilled : reserve x.post + bitsOf colors x ≤ reserve x.pre + tokens) :
    DrawsBits colors clock reserve burst rate x where
  clock_eq := hclock
  clock_le := htime
  nonneg := by exact_mod_cast hnonneg
  le_burst := by exact_mod_cast hburst
  le_refilled := by
    have hcast : (reserve x.post : ℚ) + bitsOf colors x ≤ reserve x.pre + tokens := by
      exact_mod_cast hrefilled
    exact hcast.trans (add_le_add_right htokens _)

/-- What is marked is bounded by the burst and the rate. -/
theorem bitsMarked_le {σ : Type} {T : TransitionSystem σ Arrival Color} {colors : List Color}
    {clock : σ → ℚ} {reserve : σ → ℤ} {burst : ℤ} {rate u v : ℚ} {s : σ}
    {tr : List (Transition σ Arrival Color)} (h : T.Run tr s) (hrate : 0 ≤ rate)
    (hburst : 0 ≤ burst) (hdraws : ∀ x ∈ tr, DrawsBits colors clock reserve burst rate x)
    (huv : u ≤ v) : bitsMarked colors u v tr ≤ burst + rate * (v - u) :=
  h.amountIn_le hrate (by exact_mod_cast hburst) hdraws huv

end Diffserv

open Diffserv

/-! ### Single bucket -/

/-- The parameters of a `TokenBucketMeter`. The size is eight times an `int`, as an `int`. -/
structure TokenBucketMeterParameters where
  CIR : ℚ
  CBS : ℤ
  colorAwareMode : Bool
  CIR_nonneg : 0 ≤ CIR
  CBS_nonneg : 0 ≤ CBS
  CBS_lt : CBS < 2 ^ 31

/-- `class TokenBucketMeter`. -/
structure TokenBucketMeter where
  Tc : ℤ
  lastUpdateTime : ℚ
  deriving DecidableEq, Repr

namespace TokenBucketMeter

/-- The tokens of the time since the last packet come in. -/
def refilled (P : TokenBucketMeterParameters) (s : TokenBucketMeter) (time : ℚ) : ℤ :=
  refill P.CBS s.Tc (numTokens P.CIR (time - s.lastUpdateTime))

/-- `TokenBucketMeter::meterPacket`. -/
def meterPacket (P : TokenBucketMeterParameters) (s : TokenBucketMeter) (a : Arrival) :
    TokenBucketMeter × Color :=
  let Tc := s.refilled P a.time
  let packetSizeInBits := toInt a.packet.bitLength
  if a.packet.oldColor P.colorAwareMode ≤ Color.GREEN.toInt ∧ 0 ≤ Tc - packetSizeInBits then
    (⟨Tc - packetSizeInBits, a.time⟩, .GREEN)
  else (⟨Tc, a.time⟩, .RED)

/-- The meter from its initialization on. -/
def system (P : TokenBucketMeterParameters) : TransitionSystem TokenBucketMeter Arrival Color where
  Init s := s.Tc = P.CBS
  Step s a color s' := s.lastUpdateTime ≤ a.time ∧ s.meterPacket P a = (s', color)

variable {P : TokenBucketMeterParameters} {s s' : TokenBucketMeter} {a : Arrival} {color : Color}
  {tr : List (Transition TokenBucketMeter Arrival Color)}

/-- A packet is marked green only if the bucket holds enough for it. -/
theorem meterPacket_cases (h : s.meterPacket P a = (s', color)) :
    s'.lastUpdateTime = a.time ∧
      (color = .GREEN ∧ s'.Tc = s.refilled P a.time - toInt a.packet.bitLength ∧ 0 ≤ s'.Tc ∨
        color = .RED ∧ s'.Tc = s.refilled P a.time) := by
  simp only [meterPacket] at h
  split_ifs at h with hgreen
  · obtain ⟨rfl, rfl⟩ := Prod.mk.inj h
    exact ⟨rfl, .inl ⟨rfl, rfl, hgreen.2⟩⟩
  · obtain ⟨rfl, rfl⟩ := Prod.mk.inj h
    exact ⟨rfl, .inr ⟨rfl, rfl⟩⟩

/-- What is taken from the bucket. -/
theorem taken (h : s.meterPacket P a = (s', color)) (hsize : a.packet.bitLength < 2 ^ 31) :
    s'.Tc + bitsOf [.GREEN] ⟨s, a, color, s'⟩ = s.refilled P a.time ∧
      (0 ≤ s.refilled P a.time → 0 ≤ s'.Tc) ∧ s'.Tc ≤ s.refilled P a.time := by
  obtain ⟨-, ⟨rfl, hTc, hnonneg⟩ | ⟨rfl, hTc⟩⟩ := meterPacket_cases h
  · rw [toInt_of_lt hsize] at hTc
    rw [bitsOf_of_mem (by decide)]
    omega
  · rw [bitsOf_of_notMem (by decide)]
    omega

/-- One packet. -/
theorem draws_of_step (h : (system P).Step s a color s') (hTc : 0 ≤ s.Tc ∧ s.Tc ≤ P.CBS)
    (hsize : a.packet.bitLength < 2 ^ 31) :
    DrawsBits [.GREEN] lastUpdateTime Tc P.CBS P.CIR ⟨s, a, color, s'⟩ ∧
      0 ≤ s'.Tc ∧ s'.Tc ≤ P.CBS := by
  obtain ⟨htime, hmeter⟩ := h
  obtain ⟨hsum, hnonneg, hle⟩ := taken hmeter hsize
  obtain ⟨hrefilled, hCBS, hcredit⟩ :=
    refill_bounds hTc (numTokens_nonneg P.CIR_nonneg (sub_nonneg.2 htime))
  rw [← refilled] at hrefilled hCBS hcredit
  refine ⟨drawsBits_of_tokens (meterPacket_cases hmeter).1 htime (numTokens_le _ _)
    (hnonneg hrefilled) ?_ ?_, hnonneg hrefilled, hle.trans hCBS⟩
  · exact hsum.trans_le hCBS
  · exact hsum.trans_le hcredit

/-- The bits marked green are bounded by the profile, and so is the bucket. -/
structure WithinProfile (P : TokenBucketMeterParameters)
    (tr : List (Transition TokenBucketMeter Arrival Color)) (s : TokenBucketMeter) : Prop where
  green : ∀ u v, u ≤ v → bitsMarked [.GREEN] u v tr ≤ P.CBS + P.CIR * (v - u)
  Tc_nonneg : 0 ≤ s.Tc
  Tc_le : s.Tc ≤ P.CBS

theorem withinProfile (h : (system P).Run tr s)
    (hsize : ∀ x ∈ tr, x.input.packet.bitLength < 2 ^ 31) : WithinProfile P tr s := by
  obtain ⟨hdraws, hTc⟩ := h.forall_of_invariant
    (I := fun s ↦ 0 ≤ s.Tc ∧ s.Tc ≤ P.CBS) (C := fun x ↦ x.input.packet.bitLength < 2 ^ 31)
    (fun s (hs : s.Tc = P.CBS) ↦ ⟨hs ▸ P.CBS_nonneg, hs.le⟩)
    (fun _ _ _ _ hTc hstep hsize ↦ draws_of_step hstep hTc hsize) hsize
  exact ⟨fun u v huv ↦ bitsMarked_le h P.CIR_nonneg P.CBS_nonneg hdraws huv, hTc.1, hTc.2⟩

end TokenBucketMeter

/-! ### A bucket and one for what it cannot hold -/

/-- The parameters of a `SingleRateThreeColorMeter`. -/
structure SingleRateThreeColorMeterParameters where
  CIR : ℚ
  CBS : ℤ
  EBS : ℤ
  colorAwareMode : Bool
  CIR_nonneg : 0 ≤ CIR
  CBS_nonneg : 0 ≤ CBS
  CBS_lt : CBS < 2 ^ 31
  EBS_nonneg : 0 ≤ EBS

/-- `class SingleRateThreeColorMeter`. -/
structure SingleRateThreeColorMeter where
  Tc : ℤ
  Te : ℤ
  lastUpdateTime : ℚ
  deriving DecidableEq, Repr

namespace SingleRateThreeColorMeter

/-- The tokens of the time since the last packet come in; those for which there is no room in the
first bucket go to the second one. -/
def refilled (P : SingleRateThreeColorMeterParameters) (s : SingleRateThreeColorMeter) (time : ℚ) :
    ℤ × ℤ :=
  let tokens := numTokens P.CIR (time - s.lastUpdateTime)
  if s.Tc + tokens ≤ P.CBS then (s.Tc + tokens, s.Te)
  else (P.CBS, refill P.EBS s.Te (s.Tc + tokens - P.CBS))

/-- `SingleRateThreeColorMeter::meterPacket`. -/
def meterPacket (P : SingleRateThreeColorMeterParameters) (s : SingleRateThreeColorMeter)
    (a : Arrival) : SingleRateThreeColorMeter × Color :=
  let (Tc, Te) := s.refilled P a.time
  let oldColor := a.packet.oldColor P.colorAwareMode
  let packetSizeInBits := toInt a.packet.bitLength
  if oldColor ≤ Color.GREEN.toInt ∧ 0 ≤ Tc - packetSizeInBits then
    (⟨Tc - packetSizeInBits, Te, a.time⟩, .GREEN)
  else if oldColor ≤ Color.YELLOW.toInt ∧ 0 ≤ Te - packetSizeInBits then
    (⟨Tc, Te - packetSizeInBits, a.time⟩, .YELLOW)
  else (⟨Tc, Te, a.time⟩, .RED)

/-- The meter from its initialization on. -/
def system (P : SingleRateThreeColorMeterParameters) :
    TransitionSystem SingleRateThreeColorMeter Arrival Color where
  Init s := s.Tc = P.CBS ∧ s.Te = P.EBS
  Step s a color s' := s.lastUpdateTime ≤ a.time ∧ s.meterPacket P a = (s', color)

variable {P : SingleRateThreeColorMeterParameters} {s s' : SingleRateThreeColorMeter} {a : Arrival}
  {color : Color} {tr : List (Transition SingleRateThreeColorMeter Arrival Color)}

/-- The buckets hold no more than their sizes. -/
structure InBounds (P : SingleRateThreeColorMeterParameters) (s : SingleRateThreeColorMeter) :
    Prop where
  Tc_nonneg : 0 ≤ s.Tc
  Tc_le : s.Tc ≤ P.CBS
  Te_nonneg : 0 ≤ s.Te
  Te_le : s.Te ≤ P.EBS

/-- A packet is taken from the bucket of its color. -/
theorem meterPacket_cases (h : s.meterPacket P a = (s', color)) :
    s'.lastUpdateTime = a.time ∧
      (color = .GREEN ∧ s'.Tc = (s.refilled P a.time).1 - toInt a.packet.bitLength ∧ 0 ≤ s'.Tc ∧
          s'.Te = (s.refilled P a.time).2 ∨
        color = .YELLOW ∧ s'.Tc = (s.refilled P a.time).1 ∧
          s'.Te = (s.refilled P a.time).2 - toInt a.packet.bitLength ∧ 0 ≤ s'.Te ∨
        color = .RED ∧ s'.Tc = (s.refilled P a.time).1 ∧ s'.Te = (s.refilled P a.time).2) := by
  simp only [meterPacket] at h
  split_ifs at h with hgreen hyellow
  · obtain ⟨rfl, rfl⟩ := Prod.mk.inj h
    exact ⟨rfl, .inl ⟨rfl, rfl, hgreen.2, rfl⟩⟩
  · obtain ⟨rfl, rfl⟩ := Prod.mk.inj h
    exact ⟨rfl, .inr (.inl ⟨rfl, rfl, rfl, hyellow.2⟩)⟩
  · obtain ⟨rfl, rfl⟩ := Prod.mk.inj h
    exact ⟨rfl, .inr (.inr ⟨rfl, rfl, rfl⟩)⟩

/-- No token comes in twice. -/
theorem refilled_bounds (hs : InBounds P s) {time : ℚ} (htime : s.lastUpdateTime ≤ time) :
    0 ≤ (s.refilled P time).1 ∧ (s.refilled P time).1 ≤ P.CBS ∧ 0 ≤ (s.refilled P time).2 ∧
      (s.refilled P time).2 ≤ P.EBS ∧
      (s.refilled P time).1 ≤ s.Tc + numTokens P.CIR (time - s.lastUpdateTime) ∧
      (s.refilled P time).1 + (s.refilled P time).2 ≤
        s.Tc + s.Te + numTokens P.CIR (time - s.lastUpdateTime) := by
  have htokens := numTokens_nonneg P.CIR_nonneg (sub_nonneg.2 htime)
  obtain ⟨hTc, hTc', hTe, hTe'⟩ := hs
  have hCBS := P.CBS_nonneg
  simp only [refilled]
  split_ifs with hroom
  · simp only
    omega
  · obtain ⟨hnonneg, hle, hcredit⟩ := refill_bounds ⟨hTe, hTe'⟩
      (show 0 ≤ s.Tc + numTokens P.CIR (time - s.lastUpdateTime) - P.CBS by omega)
    simp only
    omega

/-- What is taken from the buckets. -/
theorem taken (h : s.meterPacket P a = (s', color)) (hsize : a.packet.bitLength < 2 ^ 31) :
    s'.Tc + bitsOf [.GREEN] ⟨s, a, color, s'⟩ = (s.refilled P a.time).1 ∧
      s'.Tc + s'.Te + bitsOf [.GREEN, .YELLOW] ⟨s, a, color, s'⟩ =
        (s.refilled P a.time).1 + (s.refilled P a.time).2 ∧
      (0 ≤ (s.refilled P a.time).1 → 0 ≤ s'.Tc) ∧ s'.Tc ≤ (s.refilled P a.time).1 ∧
      (0 ≤ (s.refilled P a.time).2 → 0 ≤ s'.Te) ∧ s'.Te ≤ (s.refilled P a.time).2 := by
  obtain ⟨-, ⟨rfl, hgreen, hnonneg, hsame⟩ | ⟨rfl, hsame, hyellow, hnonneg⟩ |
    ⟨rfl, hsame, hsame'⟩⟩ := meterPacket_cases h
  · rw [toInt_of_lt hsize] at hgreen
    rw [bitsOf_of_mem (by decide), bitsOf_of_mem (by decide)]
    omega
  · rw [toInt_of_lt hsize] at hyellow
    rw [bitsOf_of_notMem (by decide), bitsOf_of_mem (by decide)]
    omega
  · rw [bitsOf_of_notMem (by decide), bitsOf_of_notMem (by decide)]
    omega

/-- One packet. -/
theorem draws_of_step (h : (system P).Step s a color s') (hs : InBounds P s)
    (hsize : a.packet.bitLength < 2 ^ 31) :
    (DrawsBits [.GREEN] lastUpdateTime Tc P.CBS P.CIR ⟨s, a, color, s'⟩ ∧
      DrawsBits [.GREEN, .YELLOW] lastUpdateTime (fun s ↦ s.Tc + s.Te) (P.CBS + P.EBS) P.CIR
        ⟨s, a, color, s'⟩) ∧
      InBounds P s' := by
  obtain ⟨htime, hmeter⟩ := h
  obtain ⟨hgreen, hboth, hTc, hTc', hTe, hTe'⟩ := taken hmeter hsize
  obtain ⟨hc, hCBS, he, hEBS, hcredit, hcredits⟩ := refilled_bounds hs htime
  have hlast := (meterPacket_cases hmeter).1
  have htokens := numTokens_le P.CIR (a.time - s.lastUpdateTime)
  refine ⟨⟨drawsBits_of_tokens hlast htime htokens (hTc hc) ?_ ?_,
    drawsBits_of_tokens hlast htime htokens ?_ ?_ ?_⟩,
    ⟨hTc hc, hTc'.trans hCBS, hTe he, hTe'.trans hEBS⟩⟩
  · exact hgreen.trans_le hCBS
  · exact hgreen.trans_le hcredit
  · exact Int.add_nonneg (hTc hc) (hTe he)
  · exact hboth.trans_le (Int.add_le_add hCBS hEBS)
  · exact hboth.trans_le hcredits

/-- The bits marked green, and green or yellow, are bounded by the profile, and so are the buckets.
-/
structure WithinProfile (P : SingleRateThreeColorMeterParameters)
    (tr : List (Transition SingleRateThreeColorMeter Arrival Color)) (s : SingleRateThreeColorMeter) :
    Prop extends InBounds P s where
  green : ∀ u v, u ≤ v → bitsMarked [.GREEN] u v tr ≤ P.CBS + P.CIR * (v - u)
  yellow : ∀ u v, u ≤ v →
    bitsMarked [.GREEN, .YELLOW] u v tr ≤ P.CBS + P.EBS + P.CIR * (v - u)

theorem withinProfile (h : (system P).Run tr s)
    (hsize : ∀ x ∈ tr, x.input.packet.bitLength < 2 ^ 31) : WithinProfile P tr s := by
  obtain ⟨hdraws, hs⟩ := h.forall_of_invariant (I := InBounds P)
    (C := fun x ↦ x.input.packet.bitLength < 2 ^ 31)
    (fun s (hs : s.Tc = P.CBS ∧ s.Te = P.EBS) ↦
      ⟨hs.1 ▸ P.CBS_nonneg, hs.1.le, hs.2 ▸ P.EBS_nonneg, hs.2.le⟩)
    (D := fun x ↦ DrawsBits [.GREEN] lastUpdateTime Tc P.CBS P.CIR x ∧
      DrawsBits [.GREEN, .YELLOW] lastUpdateTime (fun s ↦ s.Tc + s.Te) (P.CBS + P.EBS) P.CIR x)
    (fun _ _ _ _ hs hstep hsize ↦ draws_of_step hstep hs hsize) hsize
  refine ⟨hs, fun u v huv ↦ ?_, fun u v huv ↦ ?_⟩
  · exact bitsMarked_le h P.CIR_nonneg P.CBS_nonneg (fun x hx ↦ (hdraws x hx).1) huv
  · have hle := bitsMarked_le h P.CIR_nonneg (Int.add_nonneg P.CBS_nonneg P.EBS_nonneg)
      (fun x hx ↦ (hdraws x hx).2) huv
    rwa [Int.cast_add] at hle

end SingleRateThreeColorMeter

/-! ### Two buckets with a rate each -/

/-- The parameters of a `TwoRateThreeColorMeter`. -/
structure TwoRateThreeColorMeterParameters where
  PIR : ℚ
  PBS : ℤ
  CIR : ℚ
  CBS : ℤ
  colorAwareMode : Bool
  PIR_nonneg : 0 ≤ PIR
  PBS_nonneg : 0 ≤ PBS
  CIR_nonneg : 0 ≤ CIR
  CBS_nonneg : 0 ≤ CBS

/-- `class TwoRateThreeColorMeter`. -/
structure TwoRateThreeColorMeter where
  Tp : ℤ
  Tc : ℤ
  lastUpdateTime : ℚ
  deriving DecidableEq, Repr

namespace TwoRateThreeColorMeter

/-- The tokens of the time since the last packet come in. -/
def refilled (P : TwoRateThreeColorMeterParameters) (s : TwoRateThreeColorMeter) (time : ℚ) :
    ℤ × ℤ :=
  let elapsedTime := time - s.lastUpdateTime
  (refill P.PBS s.Tp (numTokens P.PIR elapsedTime), refill P.CBS s.Tc (numTokens P.CIR elapsedTime))

/-- `TwoRateThreeColorMeter::meterPacket`. -/
def meterPacket (P : TwoRateThreeColorMeterParameters) (s : TwoRateThreeColorMeter) (a : Arrival) :
    TwoRateThreeColorMeter × Color :=
  let (Tp, Tc) := s.refilled P a.time
  let oldColor := a.packet.oldColor P.colorAwareMode
  let packetSizeInBits := toInt (8 * a.packet.getByteLength)
  if oldColor = Color.RED.toInt ∨ Tp - packetSizeInBits < 0 then (⟨Tp, Tc, a.time⟩, .RED)
  else if oldColor = Color.YELLOW.toInt ∨ Tc - packetSizeInBits < 0 then
    (⟨Tp - packetSizeInBits, Tc, a.time⟩, .YELLOW)
  else (⟨Tp - packetSizeInBits, Tc - packetSizeInBits, a.time⟩, .GREEN)

/-- The meter from its initialization on. -/
def system (P : TwoRateThreeColorMeterParameters) :
    TransitionSystem TwoRateThreeColorMeter Arrival Color where
  Init s := s.Tp = P.PBS ∧ s.Tc = P.CBS
  Step s a color s' := s.lastUpdateTime ≤ a.time ∧ s.meterPacket P a = (s', color)

variable {P : TwoRateThreeColorMeterParameters} {s s' : TwoRateThreeColorMeter} {a : Arrival}
  {color : Color} {tr : List (Transition TwoRateThreeColorMeter Arrival Color)}

/-- The buckets hold no more than their sizes. -/
structure InBounds (P : TwoRateThreeColorMeterParameters) (s : TwoRateThreeColorMeter) : Prop where
  Tp_nonneg : 0 ≤ s.Tp
  Tp_le : s.Tp ≤ P.PBS
  Tc_nonneg : 0 ≤ s.Tc
  Tc_le : s.Tc ≤ P.CBS

/-- What counts is not less than the length of the packet. -/
theorem le_byteLength (packet : MeteredPacket) :
    packet.bitLength ≤ 8 * packet.getByteLength := by
  rw [MeteredPacket.getByteLength]
  omega

/-- A green packet is taken from both buckets, a yellow one from the first. -/
theorem meterPacket_cases (h : s.meterPacket P a = (s', color)) :
    s'.lastUpdateTime = a.time ∧
      (color = .RED ∧ s'.Tp = (s.refilled P a.time).1 ∧ s'.Tc = (s.refilled P a.time).2 ∨
        color = .YELLOW ∧
          s'.Tp = (s.refilled P a.time).1 - toInt (8 * a.packet.getByteLength) ∧ 0 ≤ s'.Tp ∧
          s'.Tc = (s.refilled P a.time).2 ∨
        color = .GREEN ∧
          s'.Tp = (s.refilled P a.time).1 - toInt (8 * a.packet.getByteLength) ∧ 0 ≤ s'.Tp ∧
          s'.Tc = (s.refilled P a.time).2 - toInt (8 * a.packet.getByteLength) ∧ 0 ≤ s'.Tc) := by
  simp only [meterPacket] at h
  split_ifs at h with hred hyellow
  · obtain ⟨rfl, rfl⟩ := Prod.mk.inj h
    exact ⟨rfl, .inl ⟨rfl, rfl, rfl⟩⟩
  · obtain ⟨rfl, rfl⟩ := Prod.mk.inj h
    exact ⟨rfl, .inr (.inl ⟨rfl, rfl, not_lt.1 (not_or.1 hred).2, rfl⟩)⟩
  · obtain ⟨rfl, rfl⟩ := Prod.mk.inj h
    exact ⟨rfl, .inr (.inr ⟨rfl, rfl, not_lt.1 (not_or.1 hred).2, rfl,
      not_lt.1 (not_or.1 hyellow).2⟩)⟩

/-- What is taken from the buckets. -/
theorem taken (h : s.meterPacket P a = (s', color)) (hsize : 8 * a.packet.getByteLength < 2 ^ 31) :
    s'.Tc + bitsOf [.GREEN] ⟨s, a, color, s'⟩ ≤ (s.refilled P a.time).2 ∧
      s'.Tp + bitsOf [.GREEN, .YELLOW] ⟨s, a, color, s'⟩ ≤ (s.refilled P a.time).1 ∧
      (0 ≤ (s.refilled P a.time).1 → 0 ≤ s'.Tp) ∧ s'.Tp ≤ (s.refilled P a.time).1 ∧
      (0 ≤ (s.refilled P a.time).2 → 0 ≤ s'.Tc) ∧ s'.Tc ≤ (s.refilled P a.time).2 := by
  have hlength := le_byteLength a.packet
  obtain ⟨-, ⟨rfl, hpsame, hcsame⟩ | ⟨rfl, hpless, hpnonneg, hcsame⟩ |
    ⟨rfl, hpless, hpnonneg, hcless, hcnonneg⟩⟩ := meterPacket_cases h
  · rw [bitsOf_of_notMem (by decide), bitsOf_of_notMem (by decide)]
    omega
  · rw [toInt_of_lt hsize] at hpless
    rw [bitsOf_of_notMem (by decide), bitsOf_of_mem (by decide)]
    omega
  · rw [toInt_of_lt hsize] at hpless hcless
    rw [bitsOf_of_mem (by decide), bitsOf_of_mem (by decide)]
    omega

/-- One packet. -/
theorem draws_of_step (h : (system P).Step s a color s') (hs : InBounds P s)
    (hsize : 8 * a.packet.getByteLength < 2 ^ 31) :
    (DrawsBits [.GREEN] lastUpdateTime Tc P.CBS P.CIR ⟨s, a, color, s'⟩ ∧
      DrawsBits [.GREEN, .YELLOW] lastUpdateTime Tp P.PBS P.PIR ⟨s, a, color, s'⟩) ∧
      InBounds P s' := by
  obtain ⟨htime, hmeter⟩ := h
  obtain ⟨hgreen, hboth, hTp, hTp', hTc, hTc'⟩ := taken hmeter hsize
  have helapsed := sub_nonneg.2 htime
  obtain ⟨hp, hPBS, hpeak⟩ :=
    refill_bounds ⟨hs.Tp_nonneg, hs.Tp_le⟩ (numTokens_nonneg P.PIR_nonneg helapsed)
  obtain ⟨hc, hCBS, hcommitted⟩ :=
    refill_bounds ⟨hs.Tc_nonneg, hs.Tc_le⟩ (numTokens_nonneg P.CIR_nonneg helapsed)
  have hlast := (meterPacket_cases hmeter).1
  refine ⟨⟨drawsBits_of_tokens hlast htime (numTokens_le _ _) (hTc hc) ?_ ?_,
    drawsBits_of_tokens hlast htime (numTokens_le _ _) (hTp hp) ?_ ?_⟩,
    ⟨hTp hp, hTp'.trans hPBS, hTc hc, hTc'.trans hCBS⟩⟩
  · exact hgreen.trans hCBS
  · exact hgreen.trans hcommitted
  · exact hboth.trans hPBS
  · exact hboth.trans hpeak

/-- The bits marked green, and green or yellow, are bounded by the profile, and so are the buckets.
-/
structure WithinProfile (P : TwoRateThreeColorMeterParameters)
    (tr : List (Transition TwoRateThreeColorMeter Arrival Color)) (s : TwoRateThreeColorMeter) :
    Prop extends InBounds P s where
  green : ∀ u v, u ≤ v → bitsMarked [.GREEN] u v tr ≤ P.CBS + P.CIR * (v - u)
  yellow : ∀ u v, u ≤ v → bitsMarked [.GREEN, .YELLOW] u v tr ≤ P.PBS + P.PIR * (v - u)

theorem withinProfile (h : (system P).Run tr s)
    (hsize : ∀ x ∈ tr, 8 * x.input.packet.getByteLength < 2 ^ 31) : WithinProfile P tr s := by
  obtain ⟨hdraws, hs⟩ := h.forall_of_invariant (I := InBounds P)
    (C := fun x ↦ 8 * x.input.packet.getByteLength < 2 ^ 31)
    (fun s (hs : s.Tp = P.PBS ∧ s.Tc = P.CBS) ↦
      ⟨hs.1 ▸ P.PBS_nonneg, hs.1.le, hs.2 ▸ P.CBS_nonneg, hs.2.le⟩)
    (D := fun x ↦ DrawsBits [.GREEN] lastUpdateTime Tc P.CBS P.CIR x ∧
      DrawsBits [.GREEN, .YELLOW] lastUpdateTime Tp P.PBS P.PIR x)
    (fun _ _ _ _ hs hstep hsize ↦ draws_of_step hstep hs hsize) hsize
  refine ⟨hs, fun u v huv ↦ ?_, fun u v huv ↦ ?_⟩
  · exact bitsMarked_le h P.CIR_nonneg P.CBS_nonneg (fun x hx ↦ (hdraws x hx).1) huv
  · exact bitsMarked_le h P.PIR_nonneg P.PBS_nonneg (fun x hx ↦ (hdraws x hx).2) huv

end TwoRateThreeColorMeter

/-! ### All meters -/

section

variable {P : TokenBucketMeterParameters} {P' : SingleRateThreeColorMeterParameters}
  {P'' : TwoRateThreeColorMeterParameters} {s : TokenBucketMeter} {s' : SingleRateThreeColorMeter}
  {s'' : TwoRateThreeColorMeter} {tr : List (Transition TokenBucketMeter Arrival Color)}
  {tr' : List (Transition SingleRateThreeColorMeter Arrival Color)}
  {tr'' : List (Transition TwoRateThreeColorMeter Arrival Color)}

/-- **The meters let no more through than the profile** if the length of each packet is one of an
`int`. -/
theorem meters_withinProfile (h : (TokenBucketMeter.system P).Run tr s)
    (h' : (SingleRateThreeColorMeter.system P').Run tr' s')
    (h'' : (TwoRateThreeColorMeter.system P'').Run tr'' s'')
    (hsize : ∀ x ∈ tr, x.input.packet.bitLength < 2 ^ 31)
    (hsize' : ∀ x ∈ tr', x.input.packet.bitLength < 2 ^ 31)
    (hsize'' : ∀ x ∈ tr'', 8 * x.input.packet.getByteLength < 2 ^ 31) :
    TokenBucketMeter.WithinProfile P tr s ∧ SingleRateThreeColorMeter.WithinProfile P' tr' s' ∧
      TwoRateThreeColorMeter.WithinProfile P'' tr'' s'' :=
  ⟨TokenBucketMeter.withinProfile h hsize, SingleRateThreeColorMeter.withinProfile h' hsize',
    TwoRateThreeColorMeter.withinProfile h'' hsize''⟩

end

/-- A profile of 8 kbps with bursts of 1000 bytes. -/
def TokenBucketMeterParameters.eightKbps : TokenBucketMeterParameters where
  CIR := 8000
  CBS := 8000
  colorAwareMode := false
  CIR_nonneg := by norm_num
  CBS_nonneg := by norm_num
  CBS_lt := by norm_num

/-- The same with bursts of another 1000 bytes that are marked yellow. -/
def SingleRateThreeColorMeterParameters.eightKbps : SingleRateThreeColorMeterParameters where
  CIR := 8000
  CBS := 8000
  EBS := 8000
  colorAwareMode := true
  CIR_nonneg := by norm_num
  CBS_nonneg := by norm_num
  CBS_lt := by norm_num
  EBS_nonneg := by norm_num

/-- The same with a peak rate of 16 kbps. -/
def TwoRateThreeColorMeterParameters.eightKbps : TwoRateThreeColorMeterParameters where
  PIR := 16000
  PBS := 16000
  CIR := 8000
  CBS := 8000
  colorAwareMode := true
  PIR_nonneg := by norm_num
  PBS_nonneg := by norm_num
  CIR_nonneg := by norm_num
  CBS_nonneg := by norm_num

/-- A packet of 500 bytes that has not been marked. -/
def shortPacket : Arrival :=
  ⟨1, 4000, none⟩

/-- Its length as an `int` is negative. -/
def longPacket : Arrival :=
  ⟨1, 2 ^ 31, none⟩

theorem meters_withinProfile_shortPacket :
    TokenBucketMeter.WithinProfile .eightKbps [⟨⟨8000, 0⟩, shortPacket, .GREEN, ⟨4000, 1⟩⟩]
        ⟨4000, 1⟩ ∧
      SingleRateThreeColorMeter.WithinProfile .eightKbps
        [⟨⟨8000, 8000, 0⟩, shortPacket, .GREEN, ⟨4000, 8000, 1⟩⟩] ⟨4000, 8000, 1⟩ ∧
      TwoRateThreeColorMeter.WithinProfile .eightKbps
        [⟨⟨16000, 8000, 0⟩, shortPacket, .GREEN, ⟨12000, 4000, 1⟩⟩] ⟨12000, 4000, 1⟩ :=
  have h : (TokenBucketMeter.system .eightKbps).Run
      ([] ++ [⟨⟨8000, 0⟩, shortPacket, .GREEN, ⟨4000, 1⟩⟩]) ⟨4000, 1⟩ :=
    .snoc (.nil rfl) ⟨by decide, by decide +kernel⟩
  have h' : (SingleRateThreeColorMeter.system .eightKbps).Run
      ([] ++ [⟨⟨8000, 8000, 0⟩, shortPacket, .GREEN, ⟨4000, 8000, 1⟩⟩]) ⟨4000, 8000, 1⟩ :=
    .snoc (.nil (show _ ∧ _ from ⟨rfl, rfl⟩)) ⟨by decide, by decide +kernel⟩
  have h'' : (TwoRateThreeColorMeter.system .eightKbps).Run
      ([] ++ [⟨⟨16000, 8000, 0⟩, shortPacket, .GREEN, ⟨12000, 4000, 1⟩⟩]) ⟨12000, 4000, 1⟩ :=
    .snoc (.nil (show _ ∧ _ from ⟨rfl, rfl⟩)) ⟨by decide, by decide +kernel⟩
  meters_withinProfile h h' h'' (by decide) (by decide) (by decide)

/-- A packet of 2³¹ bits is marked green and fills the bucket above its size. -/
theorem not_withinProfile_longPacket :
    ¬ ∀ (P : TokenBucketMeterParameters) (tr : List (Transition TokenBucketMeter Arrival Color))
        (s : TokenBucketMeter), (TokenBucketMeter.system P).Run tr s →
      TokenBucketMeter.WithinProfile P tr s := by
  intro h
  have hrun : (TokenBucketMeter.system .eightKbps).Run
      ([] ++ [⟨⟨8000, 0⟩, longPacket, .GREEN, ⟨8000 + 2 ^ 31, 1⟩⟩]) ⟨8000 + 2 ^ 31, 1⟩ :=
    .snoc (.nil rfl) ⟨by decide, by decide +kernel⟩
  exact absurd (h _ _ _ hrun).Tc_le (by decide)

end Inet
