import Mathlib.Data.Prod.Lex
import Inet.Foundations.MapIterators
import Inet.LinkLayer.Fragmentation

/-!
# Purging fragments

`BasicReassembly::purge` is to remove the entries of a transmitter and TID with sequence numbers from
one to another, modulo 4096. As long as the interval does not wrap around, it does
(`purges_of_le`). Else it goes from the first number to the end of the map and from the beginning of
the map to the second number, through the entries of all other stations on its way, and the iterator
it is to stop at may be among those it has erased. What it takes that this does no harm is
`purges_iff`.
-/

namespace Inet

namespace BasicReassembly

open MapIterators

/-! ### The order of the keys -/

/-- Where a key stands among all keys. -/
def Key.rank (k : Key) : MACAddress ×ₗ ℕ ×ₗ ℕ :=
  toLex (k.macAddress, toLex (k.tid.toNat, k.seqNum))

theorem Key.rank_injective : Function.Injective Key.rank := by
  rintro ⟨a, t, n⟩ ⟨a', t', n'⟩ h
  obtain ⟨rfl, hrest⟩ := Prod.mk.inj (toLex.injective h)
  obtain ⟨htid, rfl⟩ := Prod.mk.inj (toLex.injective hrest)
  obtain rfl := UInt8.toNat_inj.1 htid
  rfl

instance : LinearOrder Key where
  le k k' := k.rank ≤ k'.rank
  le_refl k := le_refl k.rank
  le_trans _ _ _ := le_trans
  le_antisymm _ _ h h' := Key.rank_injective (le_antisymm h h')
  le_total k k' := le_total k.rank k'.rank
  toDecidableLE k k' := inferInstanceAs (Decidable (k.rank ≤ k'.rank))
  toDecidableEq := inferInstance

/-- `Key::operator<`. -/
theorem Key.lt_iff {k k' : Key} :
    k < k' ↔ k.macAddress < k'.macAddress ∨ k.macAddress = k'.macAddress ∧
      (k.tid < k'.tid ∨ k.tid = k'.tid ∧ k.seqNum < k'.seqNum) := by
  have hrank : k < k' ↔ k.rank < k'.rank := by
    rw [lt_iff_le_not_ge, lt_iff_le_not_ge]
    rfl
  simp only [hrank, rank, Prod.Lex.toLex_lt_toLex, UInt8.toNat_inj, UInt8.lt_iff_toNat_lt]

/-! ### The loops -/

/-- The key with some values of type `int`. -/
def keyOf (address : MACAddress) (tid seqNumber : ℤ) : Key where
  macAddress := address
  tid := UInt8.ofInt tid
  seqNum := (seqNumber % 2 ^ 16).toNat

/-- `BasicReassembly::purge`. There is no result if a loop runs past the end of the map. -/
def purge (fragmentsMap : FragmentsMap) (address : MACAddress) (tid startSeqNumber endSeqNumber : ℤ) :
    Option FragmentsMap :=
  let itStart := lowerBound fragmentsMap (keyOf address tid startSeqNumber)
  let itEnd := upperBound fragmentsMap (keyOf address tid endSeqNumber)
  if endSeqNumber < startSeqNumber then do
    let fragmentsMap ← eraseRange fragmentsMap itStart none
    -- `itEnd` may point to what has just been erased
    eraseRange fragmentsMap (inOrder fragmentsMap).head? itEnd
  else eraseRange fragmentsMap itStart itEnd

/-- A sequence number is in the interval from one to another, modulo 4096. -/
def InInterval (startSeqNumber endSeqNumber : ℤ) (seqNum : ℕ) : Prop :=
  startSeqNumber ≤ seqNum ∧ seqNum ≤ endSeqNumber ∨
    endSeqNumber < startSeqNumber ∧
      (startSeqNumber ≤ seqNum ∧ seqNum ≤ 4095 ∨ (seqNum : ℤ) ≤ endSeqNumber)

instance (startSeqNumber endSeqNumber : ℤ) (seqNum : ℕ) :
    Decidable (InInterval startSeqNumber endSeqNumber seqNum) :=
  inferInstanceAs (Decidable (_ ∧ _ ∨ _ ∧ (_ ∧ _ ∨ _)))

/-- The entry of a key is to be purged. -/
def Named (address : MACAddress) (tid startSeqNumber endSeqNumber : ℤ) (k : Key) : Prop :=
  k.macAddress = address ∧ k.tid = UInt8.ofInt tid ∧
    InInterval startSeqNumber endSeqNumber k.seqNum

instance (address : MACAddress) (tid startSeqNumber endSeqNumber : ℤ) :
    DecidablePred (Named address tid startSeqNumber endSeqNumber) :=
  fun _ ↦ inferInstanceAs (Decidable (_ ∧ _ ∧ _))

/-- Exactly the entries of the interval are removed. -/
def Purges (fragmentsMap : FragmentsMap) (address : MACAddress)
    (tid startSeqNumber endSeqNumber : ℤ) : Prop :=
  ∃ m, purge fragmentsMap address tid startSeqNumber endSeqNumber = some m ∧
    ∀ k, m.lookup k =
      if Named address tid startSeqNumber endSeqNumber k then none else fragmentsMap.lookup k

/-- The iterator that an interval that wraps around is to stop at is not erased before it is met:
there is nothing from the first key on, or it points to something before. -/
def Between (fragmentsMap : FragmentsMap) (startKey endKey : Key) : Prop :=
  (∀ k ∈ fragmentsMap, k < startKey) ∨ ∃ k ∈ fragmentsMap, endKey < k ∧ k < startKey

/-- What is in the map from the first number on and up to the second one is all of the transmitter
and TID, and the second loop stops. -/
structure WrapsWithin (fragmentsMap : FragmentsMap) (address : MACAddress)
    (tid startSeqNumber endSeqNumber : ℤ) : Prop where
  above : ∀ k ∈ fragmentsMap, keyOf address tid startSeqNumber ≤ k →
    k.macAddress = address ∧ k.tid = UInt8.ofInt tid ∧ k.seqNum ≤ 4095
  below : ∀ k ∈ fragmentsMap, k ≤ keyOf address tid endSeqNumber →
    k.macAddress = address ∧ k.tid = UInt8.ofInt tid
  between : Between fragmentsMap (keyOf address tid startSeqNumber) (keyOf address tid endSeqNumber)

variable {fragmentsMap : FragmentsMap} {address : MACAddress}
  {tid startSeqNumber endSeqNumber : ℤ} {k : Key}

theorem keyOf_le_iff (h : 0 ≤ startSeqNumber ∧ startSeqNumber < 4096)
    (hk : k.macAddress = address ∧ k.tid = UInt8.ofInt tid) :
    keyOf address tid startSeqNumber ≤ k ↔ startSeqNumber ≤ k.seqNum := by
  rw [← not_lt, Key.lt_iff, keyOf]
  simp only [hk, lt_irrefl, UInt8.lt_irrefl, true_and, false_or]
  omega

theorem lt_keyOf_iff (h : 0 ≤ endSeqNumber ∧ endSeqNumber < 4096)
    (hk : k.macAddress = address ∧ k.tid = UInt8.ofInt tid) :
    keyOf address tid endSeqNumber < k ↔ endSeqNumber < k.seqNum := by
  rw [Key.lt_iff, keyOf]
  simp only [hk, lt_irrefl, UInt8.lt_irrefl, true_and, false_or]
  omega

theorem le_keyOf_iff (h : 0 ≤ endSeqNumber ∧ endSeqNumber < 4096)
    (hk : k.macAddress = address ∧ k.tid = UInt8.ofInt tid) :
    k ≤ keyOf address tid endSeqNumber ↔ k.seqNum ≤ endSeqNumber := by
  rw [← not_lt, lt_keyOf_iff h hk, not_lt]

/-- What is between two keys of a transmitter and TID has these itself. -/
theorem eq_of_between (hstart : keyOf address tid startSeqNumber ≤ k)
    (hend : k ≤ keyOf address tid endSeqNumber) :
    k.macAddress = address ∧ k.tid = UInt8.ofInt tid := by
  rw [← not_lt, Key.lt_iff, keyOf] at hstart hend
  simp only [not_or, not_and, not_lt] at hstart hend
  obtain ⟨haddress, hrest⟩ := hstart
  obtain ⟨haddress', hrest'⟩ := hend
  have heq : k.macAddress = address := le_antisymm haddress' haddress
  exact ⟨heq, UInt8.le_antisymm (UInt8.not_lt.1 (hrest' heq.symm).1) (UInt8.not_lt.1 (hrest heq).1)⟩

/-- Whether the entries of the map are to be removed decides what is left of it. -/
theorem lookup_iff_of_mem {P Q : Key → Prop} [DecidablePred P] [DecidablePred Q] :
    (∀ k, (if P k then none else fragmentsMap.lookup k) =
        if Q k then none else fragmentsMap.lookup k) ↔ ∀ k ∈ fragmentsMap, P k ↔ Q k := by
  refine forall_congr' fun k ↦ ?_
  by_cases hk : k ∈ fragmentsMap
  · obtain ⟨v, hv⟩ := Option.ne_none_iff_exists'.1 fun h ↦ AList.lookup_eq_none.1 h hk
    by_cases hP : P k <;> by_cases hQ : Q k <;> simp [hk, hv, hP, hQ]
  · simp [hk, AList.lookup_eq_none.2 hk]

/-- An interval that does not wrap around. -/
theorem purges_of_le (hstart : 0 ≤ startSeqNumber ∧ startSeqNumber < 4096)
    (hend : 0 ≤ endSeqNumber ∧ endSeqNumber < 4096) (hle : startSeqNumber ≤ endSeqNumber) :
    Purges fragmentsMap address tid startSeqNumber endSeqNumber := by
  have hnamed (k : Key) : Named address tid startSeqNumber endSeqNumber k ↔
      keyOf address tid startSeqNumber ≤ k ∧ k ≤ keyOf address tid endSeqNumber := by
    constructor
    · rintro ⟨haddress, htid, hinterval⟩
      rw [keyOf_le_iff hstart ⟨haddress, htid⟩, le_keyOf_iff hend ⟨haddress, htid⟩]
      rw [InInterval] at hinterval
      omega
    · rintro ⟨hfrom, hto⟩
      have hk := eq_of_between hfrom hto
      rw [keyOf_le_iff hstart hk] at hfrom
      rw [le_keyOf_iff hend hk] at hto
      exact ⟨hk.1, hk.2, .inl ⟨hfrom, hto⟩⟩
  have hkeys : keyOf address tid startSeqNumber ≤ keyOf address tid endSeqNumber := by
    rw [keyOf_le_iff hstart (by exact ⟨rfl, rfl⟩)]
    simp only [keyOf]
    omega
  have hfirst := keysFrom_lowerBound fragmentsMap (keyOf address tid startSeqNumber)
  rw [Purges, purge]
  simp only [hle.not_gt, if_false]
  rcases hlast : upperBound fragmentsMap (keyOf address tid endSeqNumber) with _ | b
  · obtain ⟨m, hm, hlookup⟩ := lookup_of_eraseRange_none hfirst
    refine ⟨m, hm, fun k ↦ (hlookup k).trans (lookup_iff_of_mem.2 (fun k hk ↦ ?_) k)⟩
    have hto := List.find?_eq_none.1 hlast k (mem_inOrder.2 hk)
    rw [hnamed, iff_self_and]
    exact fun _ ↦ not_lt.1 (by simpa using hto)
  · obtain ⟨hb, hafter, hleast⟩ := find?_inOrder hlast
    rw [decide_eq_true_eq] at hafter
    obtain ⟨m, hm, hlookup⟩ := lookup_of_eraseRange_some hfirst hb (hkeys.trans hafter.le)
    refine ⟨m, hm, fun k ↦ (hlookup k).trans (lookup_iff_of_mem
      (P := fun k ↦ keyOf address tid startSeqNumber ≤ k ∧ k < b) |>.2 (fun k hk ↦ ?_) k)⟩
    rw [hnamed]
    refine and_congr_right fun _ ↦ ⟨fun hlt ↦ ?_, fun hto ↦ hto.trans_lt hafter⟩
    exact not_lt.1 fun hto ↦ (hleast k hk (by simpa using hto)).not_gt hlt

variable (fragmentsMap address tid) in
/-- The first loop of an interval that wraps around. -/
theorem purge_of_lt (hlt : endSeqNumber < startSeqNumber) :
    ∃ m, (∀ k, m.lookup k =
        if keyOf address tid startSeqNumber ≤ k then none else fragmentsMap.lookup k) ∧
      purge fragmentsMap address tid startSeqNumber endSeqNumber =
        eraseRange m (inOrder m).head? (upperBound fragmentsMap (keyOf address tid endSeqNumber)) := by
  obtain ⟨m, hm, hlookup⟩ :=
    lookup_of_eraseRange_none (keysFrom_lowerBound fragmentsMap (keyOf address tid startSeqNumber))
  refine ⟨m, hlookup, ?_⟩
  rw [purge, if_pos hlt, hm]
  rfl

/-- What is left if the second loop stops. -/
theorem purge_of_between (hlt : endSeqNumber < startSeqNumber)
    (hbetween : Between fragmentsMap (keyOf address tid startSeqNumber)
      (keyOf address tid endSeqNumber)) :
    ∃ m, purge fragmentsMap address tid startSeqNumber endSeqNumber = some m ∧ ∀ k, m.lookup k =
      if keyOf address tid startSeqNumber ≤ k ∨ k ≤ keyOf address tid endSeqNumber then none
      else fragmentsMap.lookup k := by
  obtain ⟨m₁, hfirst, hpurge⟩ := purge_of_lt fragmentsMap address tid hlt
  have hall : keysFrom m₁ (inOrder m₁).head? = (inOrder m₁).filter fun _ ↦ True := by
    rw [keysFrom_head?]
    simp
  rw [hpurge]
  rcases hlast : upperBound fragmentsMap (keyOf address tid endSeqNumber) with _ | b
  · obtain ⟨m, hm, hlookup⟩ := lookup_of_eraseRange_none hall
    refine ⟨m, hm, fun k ↦ ?_⟩
    rw [hlookup, if_pos trivial]
    split_ifs with h
    · rfl
    · have hk : k ∉ fragmentsMap := fun hk ↦ h (.inr (not_lt.1
        (by simpa using List.find?_eq_none.1 hlast k (mem_inOrder.2 hk))))
      rw [AList.lookup_eq_none.2 hk]
  · obtain ⟨hb, hafter, hleast⟩ := find?_inOrder hlast
    rw [decide_eq_true_eq] at hafter
    have hbefore : b < keyOf address tid startSeqNumber := by
      rcases hbetween with hall | ⟨k, hk, hk', hlt⟩
      · exact hall b hb
      · exact (hleast k hk (by simpa using hk')).trans_lt hlt
    have hb₁ : b ∈ m₁ := by
      by_contra hnot
      rw [← AList.lookup_eq_none, hfirst, if_neg hbefore.not_ge, AList.lookup_eq_none] at hnot
      exact hnot hb
    obtain ⟨m, hm, hlookup⟩ := lookup_of_eraseRange_some hall hb₁ trivial
    refine ⟨m, hm, fun k ↦ ?_⟩
    rw [hlookup, hfirst]
    by_cases hk : k ∈ fragmentsMap
    · have hto : k < b ↔ k ≤ keyOf address tid endSeqNumber :=
        ⟨fun hlt ↦ not_lt.1 fun hto ↦ (hleast k hk (by simpa using hto)).not_gt hlt,
          fun hto ↦ hto.trans_lt hafter⟩
      by_cases hfrom : keyOf address tid startSeqNumber ≤ k <;> simp [hfrom, hto]
    · simp [AList.lookup_eq_none.2 hk]

/-- The second loop runs past the end otherwise. -/
theorem purge_eq_none (hlt : endSeqNumber < startSeqNumber)
    (hkeys : keyOf address tid endSeqNumber < keyOf address tid startSeqNumber)
    (hbetween : ¬ Between fragmentsMap (keyOf address tid startSeqNumber)
      (keyOf address tid endSeqNumber)) :
    purge fragmentsMap address tid startSeqNumber endSeqNumber = none := by
  obtain ⟨m₁, hfirst, hpurge⟩ := purge_of_lt fragmentsMap address tid hlt
  rw [Between, not_or] at hbetween
  push Not at hbetween
  obtain ⟨⟨k, hk, hfrom⟩, hnone⟩ := hbetween
  rw [hpurge]
  rcases hlast : upperBound fragmentsMap (keyOf address tid endSeqNumber) with _ | b
  · have hto := List.find?_eq_none.1 hlast k (mem_inOrder.2 hk)
    exact absurd (hkeys.trans_le hfrom) (by simpa using hto)
  · obtain ⟨hb, hafter, -⟩ := find?_inOrder hlast
    refine eraseRange_of_notMem (AList.lookup_eq_none.1 ?_)
    rw [hfirst, if_pos (hnone b hb (by simpa using hafter))]

/-- An interval that wraps around. -/
theorem purges_iff_of_lt (hstart : 0 ≤ startSeqNumber ∧ startSeqNumber < 4096)
    (hend : 0 ≤ endSeqNumber ∧ endSeqNumber < 4096) (hlt : endSeqNumber < startSeqNumber) :
    Purges fragmentsMap address tid startSeqNumber endSeqNumber ↔
      WrapsWithin fragmentsMap address tid startSeqNumber endSeqNumber := by
  have hkeys : keyOf address tid endSeqNumber < keyOf address tid startSeqNumber := by
    rw [lt_keyOf_iff hend (by exact ⟨rfl, rfl⟩)]
    simp only [keyOf]
    omega
  constructor
  · rintro ⟨m, hm, hlookup⟩
    have hbetween : Between fragmentsMap (keyOf address tid startSeqNumber)
        (keyOf address tid endSeqNumber) := by
      by_contra hnot
      rw [purge_eq_none hlt hkeys hnot] at hm
      exact absurd hm (by simp)
    obtain ⟨m', hm', hlookup'⟩ := purge_of_between hlt hbetween
    obtain rfl := Option.some.inj (hm'.symm.trans hm)
    have hiff := lookup_iff_of_mem.1 fun k ↦ (hlookup' k).symm.trans (hlookup k)
    refine ⟨fun k hk hfrom ↦ ?_, fun k hk hto ↦ ?_, hbetween⟩
    · obtain ⟨haddress, htid, hinterval⟩ := (hiff k hk).1 (.inl hfrom)
      refine ⟨haddress, htid, ?_⟩
      rw [InInterval] at hinterval
      omega
    · obtain ⟨haddress, htid, -⟩ := (hiff k hk).1 (.inr hto)
      exact ⟨haddress, htid⟩
  · rintro ⟨habove, hbelow, hbetween⟩
    obtain ⟨m, hm, hlookup⟩ := purge_of_between hlt hbetween
    refine ⟨m, hm, fun k ↦ (hlookup k).trans (lookup_iff_of_mem (P := fun k ↦
      keyOf address tid startSeqNumber ≤ k ∨ k ≤ keyOf address tid endSeqNumber) |>.2
      (fun k hk ↦ ?_) k)⟩
    constructor
    · rintro (hfrom | hto)
      · obtain ⟨haddress, htid, hle⟩ := habove k hk hfrom
        rw [keyOf_le_iff hstart ⟨haddress, htid⟩] at hfrom
        exact ⟨haddress, htid, .inr ⟨hlt, .inl ⟨hfrom, hle⟩⟩⟩
      · obtain ⟨haddress, htid⟩ := hbelow k hk hto
        rw [le_keyOf_iff hend ⟨haddress, htid⟩] at hto
        exact ⟨haddress, htid, .inr ⟨hlt, .inr hto⟩⟩
    · rintro ⟨haddress, htid, hinterval⟩
      rw [keyOf_le_iff hstart ⟨haddress, htid⟩, le_keyOf_iff hend ⟨haddress, htid⟩]
      rw [InInterval] at hinterval
      omega

/-- **What `purge` removes** is exactly the interval if it does not wrap around, or goes through no
other entries where it does. -/
theorem purges_iff (hstart : 0 ≤ startSeqNumber ∧ startSeqNumber < 4096)
    (hend : 0 ≤ endSeqNumber ∧ endSeqNumber < 4096) :
    Purges fragmentsMap address tid startSeqNumber endSeqNumber ↔
      startSeqNumber ≤ endSeqNumber ∨
        WrapsWithin fragmentsMap address tid startSeqNumber endSeqNumber := by
  rcases le_or_gt startSeqNumber endSeqNumber with hle | hlt
  · exact iff_of_true (purges_of_le hstart hend hle) (.inl hle)
  · rw [purges_iff_of_lt hstart hend hlt, or_iff_right hlt.not_ge]

/-- Fragments of two frames of a station. -/
def oneStation : FragmentsMap :=
  (AList.insert ⟨⟨1⟩, 0, 5⟩ {} ∅).insert ⟨⟨1⟩, 0, 100⟩ {}

/-- And of a frame of another one. -/
def twoStations : FragmentsMap :=
  oneStation.insert ⟨⟨2⟩, 0, 7⟩ {}

theorem purges_oneStation : Purges oneStation ⟨1⟩ 0 4000 10 :=
  have habove : ∀ k ∈ oneStation.keys, keyOf ⟨1⟩ 0 4000 ≤ k →
      k.macAddress = ⟨1⟩ ∧ k.tid = 0 ∧ k.seqNum ≤ 4095 := by decide +kernel
  have hbelow : ∀ k ∈ oneStation.keys, k ≤ keyOf ⟨1⟩ 0 10 → k.macAddress = ⟨1⟩ ∧ k.tid = 0 := by
    decide +kernel
  have hbetween : ∃ k ∈ oneStation.keys, keyOf ⟨1⟩ 0 10 < k ∧ k < keyOf ⟨1⟩ 0 4000 := by
    decide +kernel
  (purges_iff (by decide) (by decide)).2 (.inr ⟨habove, hbelow, .inr hbetween⟩)

/-- The entry of the other station is removed. -/
theorem not_purges_twoStations :
    ¬ ∀ (fragmentsMap : FragmentsMap) (address : MACAddress) (tid startSeqNumber endSeqNumber : ℤ),
      0 ≤ startSeqNumber ∧ startSeqNumber < 4096 → 0 ≤ endSeqNumber ∧ endSeqNumber < 4096 →
      Purges fragmentsMap address tid startSeqNumber endSeqNumber := by
  intro h
  obtain ⟨m, hm, hlookup⟩ := h twoStations ⟨1⟩ 0 4000 10 (by decide) (by decide)
  have hgone : (purge twoStations ⟨1⟩ 0 4000 10).bind (AList.lookup ⟨⟨2⟩, 0, 7⟩) = none := by
    decide +kernel
  rw [hm, Option.bind_some, hlookup] at hgone
  exact absurd hgone (by decide +kernel)

end BasicReassembly

end Inet
