import Mathlib.Data.Set.Lattice
import Mathlib.Order.CompletePartialOrder
import Inet.Foundations.TransitionSystem
import Inet.TransportLayer.SCTPGapBlocks

/-!
# The gap lists refine sets of TSNs

The calls of an `SCTPGapList` in any order, beside the sets of the positions that have been received
as revokable and as not revokable. A list `Keeps` a set if its blocks are those of the set above the
cumulative position. As long as no call overlooks a block that starts at TSN 0, the three lists keep
their sets, and the cumulative TSN is the last one before the first that is missing
(`gapList_refines`).

Without that condition the lists go wrong: behind the block of TSN 0 the next TSN is lost
(`gapList_not_refines`).
-/

namespace Inet.Sctp

open SerialNumber IntervalList TransitionSystem

/-- The positions that have been received: all up to `base`, and two sets of them. -/
structure Received where
  base : ℕ
  revokable : Set ℕ
  nonRevokable : Set ℕ

namespace Received

/-- All that has been received. -/
def all (r : Received) : Set ℕ :=
  {y | y ≤ r.base} ∪ (r.revokable ∪ r.nonRevokable)

/-- The last position of those received without a gap. -/
def IsCum (r : Received) (cum : ℕ) : Prop :=
  (∀ y ≤ cum, y ∈ r.all) ∧ cum + 1 ∉ r.all

end Received

/-- A call of an `SCTPGapList`, for the TSN of a position. -/
inductive GapListCall where
  | updateGapList (x : ℕ) (newChunkReceived tsnIsRevokable : Bool)
  | removeFromGapList (x : ℕ)
  | tryToAdvanceCumAckTSN

namespace GapListCall

/-- The call on the lists. With the lists it leaves `newChunkReceived`, which only `updateGapList`
has. -/
def run (s : SCTPGapList) : GapListCall → Option (Bool × SCTPGapList)
  | updateGapList x newChunkReceived tsnIsRevokable =>
    (s.updateGapList (wrap x) newChunkReceived tsnIsRevokable).map fun r ↦ (r.2.1, r.2.2)
  | removeFromGapList x => (s.removeFromGapList (wrap x)).map fun s ↦ (false, s)
  | tryToAdvanceCumAckTSN => s.tryToAdvanceCumAckTSN.map fun s ↦ (false, s)

/-- What the call is to do to the sets. -/
def effect (r : Received) : GapListCall → Received
  | updateGapList x _ true => { r with revokable := insert x r.revokable }
  | updateGapList x _ false =>
    { r with revokable := r.revokable \ {x}, nonRevokable := insert x r.nonRevokable }
  | removeFromGapList x =>
    { r with revokable := r.revokable \ {x}, nonRevokable := r.nonRevokable \ {x} }
  | tryToAdvanceCumAckTSN => r

/-- The TSN of the call is in no list. -/
def IsNew (r : Received) : GapListCall → Prop
  | updateGapList x _ _ => x ∉ r.all
  | _ => False

/-- The position lies less than half the number space above the cumulative one. -/
def InWindow (r : Received) (x : ℕ) : Prop :=
  ∃ cum, r.IsCum cum ∧ cum < x ∧ x < cum + 2 ^ 31

/-- The calls in question: a TSN is new, or becomes not revokable, or is removed. -/
def Allowed (r : Received) : GapListCall → Prop
  | updateGapList x _ tsnIsRevokable =>
    InWindow r x ∧ (x ∉ r.all ∨ x ∈ r.revokable ∧ tsnIsRevokable = false)
  | removeFromGapList x => InWindow r x
  | tryToAdvanceCumAckTSN => True

/-- A list that the call updates overlooks a block that starts at TSN 0. -/
def Overlooks (s : SCTPGapList) : GapListCall → Prop
  | updateGapList x _ tsnIsRevokable =>
    (if tsnIsRevokable then s.RevokableGapList else s.NonRevokableGapList).Overlooks (wrap x)
        s.CumAckTSN ∨
      s.CombinedGapList.Overlooks (wrap x) s.CumAckTSN
  | _ => False

instance (s : SCTPGapList) : (call : GapListCall) → Decidable (call.Overlooks s)
  | updateGapList .. => inferInstanceAs (Decidable (_ ∨ _))
  | removeFromGapList _ => isFalse id
  | tryToAdvanceCumAckTSN => isFalse id

end GapListCall

/-- There is room for a block in each list. -/
def SCTPGapList.HasRoom (s : SCTPGapList) : Prop :=
  s.RevokableGapList.NumGaps < MAX_GAP_COUNT ∧ s.NonRevokableGapList.NumGaps < MAX_GAP_COUNT ∧
    s.CombinedGapList.NumGaps < MAX_GAP_COUNT

instance (s : SCTPGapList) : Decidable s.HasRoom :=
  inferInstanceAs (Decidable (_ ∧ _ ∧ _))

/-- The lists beside the sets. -/
structure GapListState where
  list : SCTPGapList
  received : Received

/-- A list with nothing above the initial TSN. -/
def GapListState.init (initialTSN : UInt32) : GapListState where
  list := { CumAckTSN := initialTSN }
  received := ⟨initialTSN.toNat, ∅, ∅⟩

/-- The lists and the sets after a call, with the `newChunkReceived` of the call, which is missing
if it has used an index outside the arrays. -/
def GapListState.after (s : GapListState) (call : GapListCall) : GapListState × Option Bool :=
  let r := call.run s.list
  (⟨(r.map Prod.snd).getD s.list, call.effect s.received⟩, r.map Prod.fst)

/-- The calls from an initial TSN on. -/
def gapListRuns (initialTSN : UInt32) :
    TransitionSystem GapListState GapListCall (Option Bool) where
  Init s := s = .init initialTSN
  Step s call out s' :=
    call.Allowed s.received ∧ s.list.HasRoom ∧ s.after call = (s', out)

/-- **The lists represent the sets.** -/
structure SCTPGapList.Represents (s : SCTPGapList) (r : Received) (cum : ℕ) : Prop where
  isCum : r.IsCum cum
  cumAckTSN : s.CumAckTSN = wrap cum
  check : s.check
  combined (tsn : UInt32) :
    s.CombinedGapList.tsnInGapList tsn ↔ ∃ y ∈ r.all, cum < y ∧ wrap y = tsn
  revokable (tsn : UInt32) :
    s.RevokableGapList.tsnInGapList tsn ↔ ∃ y ∈ r.revokable, cum < y ∧ wrap y = tsn
  nonRevokable (tsn : UInt32) :
    s.NonRevokableGapList.tsnInGapList tsn ↔ ∃ y ∈ r.nonRevokable, cum < y ∧ wrap y = tsn
  disjoint (tsn : UInt32) :
    ¬(s.RevokableGapList.tsnInGapList tsn ∧ s.NonRevokableGapList.tsnInGapList tsn)

/-! ### One list and one set -/

variable {g : SCTPSimpleGapList} {cum x y c : ℕ} {S : Set ℕ}

open SCTPSimpleGapList

/-- The blocks are those of a set, above the cumulative position. -/
def Keeps (g : SCTPSimpleGapList) (cum : ℕ) (S : Set ℕ) : Prop :=
  ∃ l, Holds g cum l ∧ ∀ y, cum < y → (y ∈ points l ↔ y ∈ S)

namespace Keeps

theorem empty (cum : ℕ) : Keeps {} cum ∅ :=
  ⟨[], ⟨⟨_, rfl⟩, List.length_replicate, rfl, canonical_nil, by simp, by simp⟩, by simp⟩

/-- Sets that agree above the cumulative position. -/
theorem congr {T : Set ℕ} (h : Keeps g cum S) (heq : ∀ y, cum < y → (y ∈ S ↔ y ∈ T)) : Keeps g cum T := by
  obtain ⟨l, hl, hpoints⟩ := h
  exact ⟨l, hl, fun y hy ↦ (hpoints y hy).trans (heq y hy)⟩

/-- The next position is missing. -/
theorem next_notMem (h : Keeps g cum S) : cum + 1 ∉ S := by
  obtain ⟨l, hl, hpoints⟩ := h
  rw [← hpoints (cum + 1) (Nat.lt_succ_self cum)]
  exact fun hmem ↦ lt_irrefl _ (hl.mem_points_bounds hmem).1

theorem check (h : Keeps g cum S) : g.check (wrap cum) := by
  obtain ⟨l, hl, -⟩ := h
  exact hl.check

theorem lt_of_mem (h : Keeps g cum S) (hx : cum < x) (hmem : x ∈ S) : x < cum + 2 ^ 31 := by
  obtain ⟨l, hl, hpoints⟩ := h
  exact (hl.mem_points_bounds ((hpoints x hx).2 hmem)).2

theorem tsnInGapList_iff (h : Keeps g cum S) (tsn : UInt32) :
    g.tsnInGapList tsn ↔ ∃ y ∈ S, cum < y ∧ wrap y = tsn := by
  obtain ⟨l, hl, hpoints⟩ := h
  rw [hl.tsnInGapList_iff]
  constructor
  · rintro ⟨y, hy, htsn⟩
    have hcum : cum < y := (Nat.lt_succ_self cum).trans (hl.mem_points_bounds hy).1
    exact ⟨y, (hpoints y hcum).1 hy, hcum, htsn⟩
  · rintro ⟨y, hy, hcum, htsn⟩
    exact ⟨y, (hpoints y hcum).2 hy, htsn⟩

/-- **A new TSN.** The cumulative position may go ahead, over positions that are there now. -/
theorem update_new (h : Keeps g cum S) (hroom : x ≠ cum + 1 → g.NumGaps < MAX_GAP_COUNT)
    (hx : cum < x) (hbelow : x < cum + 2 ^ 31) (hnew : x ∉ S) (b : Bool)
    (hover : ¬g.Overlooks (wrap x) (wrap cum)) :
    ∃ cum' g', g.updateGapList (wrap x) (wrap cum) b = some (received (wrap cum') g') ∧
      Keeps g' cum' (insert x S) ∧ cum ≤ cum' ∧ ∀ y, cum < y → y ≤ cum' → y ∈ insert x S := by
  obtain ⟨l, hl, hpoints⟩ := h
  have hout : x ∉ upTo cum l := by
    rintro (hle | hmem)
    · exact absurd hx (not_lt.2 hle)
    · exact hnew ((hpoints x hx).1 hmem)
  obtain ⟨u, hu, cum', l', hreceived, hl', hle, hupTo, -⟩ :=
    updateGapList_adds hl hroom hout hbelow b hover
  have hmem : ∀ y, cum < y → (y ∈ upTo cum' l' ↔ y ∈ insert x S) := by
    intro y hy
    rw [hupTo, Set.mem_insert_iff, Set.mem_insert_iff, upTo, Set.mem_union, ← hpoints y hy]
    exact or_congr_right (or_iff_right (not_le.2 hy))
  refine ⟨cum', u.list, hu.trans (congrArg some hreceived), ⟨l', hl', fun y hy ↦ ?_⟩, hle, fun y hy hy' ↦ ?_⟩
  · rw [← hmem y (hle.trans_lt hy)]
    exact (or_iff_right (not_le.2 hy)).symm
  · exact (hmem y hy).1 (.inl hy')

/-- **A TSN that is there** changes nothing. -/
theorem update_of_mem (h : Keeps g cum S) (hx : cum < x) (hmem : x ∈ S) (b : Bool)
    (hover : ¬g.Overlooks (wrap x) (wrap cum)) :
    g.updateGapList (wrap x) (wrap cum) b = some ⟨true, wrap cum, b, g⟩ := by
  obtain ⟨l, hl, hpoints⟩ := h
  exact updateGapList_of_mem hl ((hpoints x hx).2 hmem) b hover

/-- **A TSN is taken away.** -/
theorem remove (h : Keeps g cum S) (hroom : x ∈ S → g.NumGaps < MAX_GAP_COUNT) (hx : cum < x)
    (hbelow : x < cum + 2 ^ 31) :
    ∃ g', g.removeFromGapList (wrap x) = some g' ∧ Keeps g' cum (S \ {x}) := by
  obtain ⟨l, hl, hpoints⟩ := h
  obtain ⟨g', hg', l', hl', hpoints'⟩ :=
    removeFromGapList_spec hl (fun hmem ↦ hroom ((hpoints x hx).1 hmem)) ⟨hx, hbelow⟩
  refine ⟨g', hg', l', hl', fun y hy ↦ ?_⟩
  rw [hpoints', Set.mem_sdiff, Set.mem_sdiff, hpoints y hy]

/-- **The cumulative position has gone ahead**, over blocks or parts of the number space without
any. -/
theorem forward (h : Keeps g cum S) (hle : cum ≤ c) (hlt : c < cum + 2 ^ 31) (hnext : c + 1 ∉ S) :
    ∃ g', g.forwardCumAckTSN (wrap c) = some g' ∧ Keeps g' c S := by
  obtain ⟨l, hl, hpoints⟩ := h
  have hout : c + 1 ∉ points l := by
    rwa [hpoints _ (Nat.lt_succ_of_le hle)]
  obtain ⟨g', l', hg', hl', hpoints'⟩ := forwardCumAckTSN_spec hl ⟨hle, hlt⟩ hout
  exact ⟨g', hg', l', hl', fun y hy ↦ (hpoints' y hy).trans (hpoints y (hle.trans_lt hy))⟩

theorem tryToAdvance (h : Keeps g cum S) :
    g.tryToAdvanceCumAckTSN (wrap cum) = some (false, wrap cum, g) := by
  obtain ⟨l, hl, -⟩ := h
  exact tryToAdvanceCumAckTSN_eq hl

end Keeps

/-! ### The three lists -/

theorem Received.IsCum.eq {r : Received} {k : ℕ} (h : r.IsCum cum) (h' : r.IsCum k) : cum = k := by
  rcases lt_trichotomy cum k with hlt | heq | hlt
  · exact absurd (h'.1 _ hlt) h.2
  · exact heq
  · exact absurd (h.1 _ hlt) h'.2

/-- The lists keep their sets. -/
structure SCTPGapList.Follows (s : SCTPGapList) (r : Received) (cum : ℕ) : Prop where
  cumAckTSN : s.CumAckTSN = wrap cum
  base_le : r.base ≤ cum
  contiguous : ∀ y ≤ cum, y ∈ r.all
  combined : Keeps s.CombinedGapList cum r.all
  revokable : Keeps s.RevokableGapList cum r.revokable
  nonRevokable : Keeps s.NonRevokableGapList cum r.nonRevokable
  disjoint : Disjoint r.revokable r.nonRevokable

theorem Received.notMem_kinds {r : Received} (hnew : x ∉ r.all) :
    x ∉ r.revokable ∧ x ∉ r.nonRevokable := by
  rw [Received.all, Set.mem_union, Set.mem_union, not_or, not_or] at hnew
  exact hnew.2

namespace SCTPGapList

variable {s : SCTPGapList} {r : Received} {T A : Set ℕ} {k k' : ℕ}

/-- Positions up to `k` that are there do not reach the position that is missing. -/
theorem le_of_covered (h : Keeps g c A) (hle : cum ≤ c) (hcovered : ∀ y, cum < y → y ≤ k → y ∈ A) :
    k ≤ c :=
  not_lt.1 fun hlt ↦ h.next_notMem (hcovered (c + 1) (Nat.lt_succ_of_le hle) hlt)

theorem forwardKinds_spec (hcum : s.CumAckTSN = wrap c) (hS : Keeps s.RevokableGapList k S)
    (hT : Keeps s.NonRevokableGapList k' T) (hk : k ≤ c ∧ c < k + 2 ^ 31)
    (hk' : k' ≤ c ∧ c < k' + 2 ^ 31) (hnextS : c + 1 ∉ S) (hnextT : c + 1 ∉ T) :
    ∃ R N, s.forwardKinds = some { s with RevokableGapList := R, NonRevokableGapList := N } ∧
      Keeps R c S ∧ Keeps N c T := by
  obtain ⟨R, hR, hkeepsR⟩ := hS.forward hk.1 hk.2 hnextS
  obtain ⟨N, hN, hkeepsN⟩ := hT.forward hk'.1 hk'.2 hnextT
  refine ⟨R, N, ?_, hkeepsR, hkeepsN⟩
  rw [forwardKinds, hcum, hR, Option.bind_eq_bind, Option.bind_some, hN]
  rfl

/-- **The second half of `updateGapList`, for a new TSN.** The lists of the kinds follow the
cumulative TSN. -/
theorem updateCombined_new (hcum : s.CumAckTSN = wrap cum) (h : Keeps s.CombinedGapList cum A)
    (hroom : x ≠ cum + 1 → s.CombinedGapList.NumGaps < MAX_GAP_COUNT) (hx : cum < x)
    (hbelow : x < cum + 2 ^ 31) (hnew : x ∉ A) (b : Bool) (hover : ¬s.CombinedGapList.Overlooks (wrap x) (wrap cum))
    (hS : Keeps s.RevokableGapList k S) (hT : Keeps s.NonRevokableGapList k' T)
    (hk : cum ≤ k ∧ ∀ y, cum < y → y ≤ k → y ∈ insert x A)
    (hk' : cum ≤ k' ∧ ∀ y, cum < y → y ≤ k' → y ∈ insert x A)
    (hSA : S ⊆ insert x A) (hTA : T ⊆ insert x A) :
    ∃ c s', s.updateCombined (wrap x) b = some (true, true, s') ∧ s'.CumAckTSN = wrap c ∧ cum ≤ c ∧
      (∀ y, cum < y → y ≤ c → y ∈ insert x A) ∧ Keeps s'.CombinedGapList c (insert x A) ∧
      Keeps s'.RevokableGapList c S ∧ Keeps s'.NonRevokableGapList c T := by
  obtain ⟨c, g', hupdate, hkeeps, hle, hcovered⟩ := h.update_new hroom hx hbelow hnew b hover
  have hkc : k ≤ c := le_of_covered hkeeps hle hk.2
  have hkc' : k' ≤ c := le_of_covered hkeeps hle hk'.2
  have hlt : c < cum + 2 ^ 31 := by
    rcases hle.eq_or_lt with rfl | hcumlt
    · omega
    · rcases hcovered c hcumlt le_rfl with rfl | hmem
      · exact hbelow
      · exact h.lt_of_mem hcumlt hmem
  rw [updateCombined, hcum, hupdate, Option.bind_eq_bind, Option.bind_some]
  rcases hle.eq_or_lt with rfl | hcumlt
  · obtain rfl : k = cum := le_antisymm hkc hk.1
    obtain rfl : k' = k := le_antisymm hkc' hk'.1
    exact ⟨k', _, if_neg (not_not.2 rfl), rfl, le_rfl, hcovered, hkeeps, hS, hT⟩
  · have hne : wrap cum ≠ wrap c := by
      rw [ne_eq, wrap_inj (by omega) hlt]
      omega
    obtain ⟨R, N, hforward, hR, hN⟩ := forwardKinds_spec
      (s := { s with CumAckTSN := wrap c, CombinedGapList := g' }) rfl hS hT ⟨hkc, by omega⟩
      ⟨hkc', by omega⟩ (fun hmem ↦ hkeeps.next_notMem (hSA hmem))
      fun hmem ↦ hkeeps.next_notMem (hTA hmem)
    have hbind := congrArg (Option.bind · fun s ↦ some (true, true, s)) hforward
    exact ⟨c, ⟨wrap c, R, N, g'⟩, (if_pos hne).trans hbind, rfl, hle, hcovered, hkeeps, hR, hN⟩

/-- The two halves of `updateGapList`. -/
theorem updateGapList_of_kind {tsn : UInt32} {b b' tsnIsRevokable : Bool} {s' : SCTPGapList}
    (h : s.updateKind tsn b tsnIsRevokable = some (b', s')) :
    s.updateGapList tsn b tsnIsRevokable = s'.updateCombined tsn b' := by
  rw [updateGapList, h]
  rfl

/-- The first half, for a TSN that is added to those that are not revokable. -/
theorem updateKind_false {tsn cTsnAck : UInt32} {b : Bool} {R N : SCTPSimpleGapList}
    (hN : s.NonRevokableGapList.updateGapList tsn s.CumAckTSN b = some (received cTsnAck N))
    (hR : s.RevokableGapList.removeFromGapList tsn = some R) :
    s.updateKind tsn b false = some (true, { s with RevokableGapList := R, NonRevokableGapList := N }) := by
  rw [updateKind, if_neg Bool.false_ne_true, hN, Option.bind_eq_bind, Option.bind_some, if_pos (by rfl)]
  exact congrArg (Option.bind · _) hR

/-! ### One call -/

variable (h : s.Follows r cum)

include h

/-- **A new revokable TSN.** -/
theorem Follows.update_revokable (hroom : s.HasRoom) (hx : cum < x) (hbelow : x < cum + 2 ^ 31)
    (hnew : x ∉ r.all) (b : Bool) (hover : ¬(GapListCall.updateGapList x b true).Overlooks s) :
    ∃ c s', s.updateGapList (wrap x) b true = some (true, true, s') ∧
      s'.Follows (GapListCall.effect r (.updateGapList x b true)) c := by
  obtain ⟨hoverR, hoverC⟩ := not_or.1 hover
  rw [if_pos rfl] at hoverR
  rw [h.cumAckTSN] at hoverR hoverC
  have hall : (GapListCall.effect r (.updateGapList x b true)).all = insert x r.all := by
    simp only [GapListCall.effect, Received.all, Set.insert_union, Set.union_insert]
  have hsub : insert x r.revokable ⊆ insert x r.all :=
    Set.insert_subset_insert fun y hy ↦ .inr (.inl hy)
  obtain ⟨k, R, hupdate, hR, hk, hcovered⟩ :=
    h.revokable.update_new (fun _ ↦ hroom.1) hx hbelow (Received.notMem_kinds hnew).1 b hoverR
  obtain ⟨c, s', hcombined, hcum', hle, hcovered', hC', hR', hN'⟩ :=
    updateCombined_new (s := { s with RevokableGapList := R }) h.cumAckTSN h.combined
      (fun _ ↦ hroom.2.2) hx hbelow hnew true hoverC hR h.nonRevokable ⟨hk, fun y hy hyk ↦ hsub (hcovered y hy hyk)⟩
      ⟨le_rfl, fun y hy hyk ↦ absurd hyk (not_le.2 hy)⟩ hsub fun y hy ↦ .inr (.inr (.inr hy))
  refine ⟨c, s', ?_, hcum', h.base_le.trans hle, fun y hy ↦ ?_, ?_, hR', hN', ?_⟩
  · refine (updateGapList_of_kind ?_).trans hcombined
    rw [updateKind, if_pos rfl, h.cumAckTSN, hupdate]
    rfl
  · rw [hall]
    rcases le_or_gt y cum with hycum | hycum
    · exact .inr (h.contiguous y hycum)
    · exact hcovered' y hycum hy
  · rwa [hall]
  · exact Set.disjoint_insert_left.2 ⟨(Received.notMem_kinds hnew).2, h.disjoint⟩

/-- **A new TSN that is not revokable.** -/
theorem Follows.update_nonRevokable (hroom : x ≠ cum + 1 → s.HasRoom) (hx : cum < x)
    (hbelow : x < cum + 2 ^ 31) (hnew : x ∉ r.all) (b : Bool)
    (hover : ¬(GapListCall.updateGapList x b false).Overlooks s) :
    ∃ c s', s.updateGapList (wrap x) b false = some (true, true, s') ∧
      s'.Follows (GapListCall.effect r (.updateGapList x b false)) c := by
  obtain ⟨hoverN, hoverC⟩ := not_or.1 hover
  rw [if_neg Bool.false_ne_true] at hoverN
  rw [h.cumAckTSN] at hoverN hoverC
  have hkeep : r.revokable \ {x} = r.revokable :=
    Set.sdiff_singleton_eq_self (Received.notMem_kinds hnew).1
  have hall : (GapListCall.effect r (.updateGapList x b false)).all = insert x r.all := by
    simp only [GapListCall.effect, hkeep, Received.all, Set.union_insert]
  have hsub : insert x r.nonRevokable ⊆ insert x r.all :=
    Set.insert_subset_insert fun y hy ↦ .inr (.inr hy)
  obtain ⟨k, N, hupdate, hN, hk, hcovered⟩ :=
    h.nonRevokable.update_new (fun hne ↦ (hroom hne).2.1) hx hbelow (Received.notMem_kinds hnew).2
      b hoverN
  obtain ⟨R, hremove, hR⟩ := h.revokable.remove
    (fun hmem ↦ absurd hmem (Received.notMem_kinds hnew).1) hx hbelow
  rw [hkeep] at hR
  obtain ⟨c, s', hcombined, hcum', hle, hcovered', hC', hR', hN'⟩ :=
    updateCombined_new (s := { s with RevokableGapList := R, NonRevokableGapList := N }) h.cumAckTSN h.combined
      (fun hne ↦ (hroom hne).2.2) hx hbelow hnew true hoverC hR hN ⟨le_rfl, fun y hy hyk ↦ absurd hyk (not_le.2 hy)⟩
      ⟨hk, fun y hy hyk ↦ hsub (hcovered y hy hyk)⟩ (fun y hy ↦ .inr (.inr (.inl hy))) hsub
  rw [← hkeep] at hR'
  rw [← h.cumAckTSN] at hupdate
  refine ⟨c, s', (updateGapList_of_kind (updateKind_false hupdate hremove)).trans hcombined, hcum',
    h.base_le.trans hle, fun y hy ↦ ?_, ?_, hR', hN', ?_⟩
  · rw [hall]
    rcases le_or_gt y cum with hycum | hycum
    · exact .inr (h.contiguous y hycum)
    · exact hcovered' y hycum hy
  · rwa [hall]
  · simp only [GapListCall.effect, hkeep]
    exact Set.disjoint_insert_right.2 ⟨(Received.notMem_kinds hnew).1, h.disjoint⟩

/-- **A revokable TSN becomes not revokable.** -/
theorem Follows.update_moved (hroom : s.HasRoom) (hx : cum < x) (hbelow : x < cum + 2 ^ 31)
    (hmem : x ∈ r.revokable) (b : Bool) (hover : ¬(GapListCall.updateGapList x b false).Overlooks s) :
    ∃ s', s.updateGapList (wrap x) b false = some (true, true, s') ∧
      s'.Follows (GapListCall.effect r (.updateGapList x b false)) cum := by
  obtain ⟨hoverN, hoverC⟩ := not_or.1 hover
  rw [if_neg Bool.false_ne_true] at hoverN
  rw [h.cumAckTSN] at hoverN hoverC
  have hxall : x ∈ r.all := .inr (.inl hmem)
  have hall : (GapListCall.effect r (.updateGapList x b false)).all = r.all := by
    ext y
    have hy : y = x → y ∈ r.revokable := fun hy ↦ hy ▸ hmem
    simp only [GapListCall.effect, Received.all, Set.mem_union, Set.mem_sdiff, Set.mem_singleton_iff, Set.mem_insert_iff]
    tauto
  obtain ⟨k, N, hupdate, hN, hk, hcovered⟩ := h.nonRevokable.update_new (fun _ ↦ hroom.2.1) hx hbelow
    (Set.disjoint_left.1 h.disjoint hmem) b hoverN
  -- the next position is missing among all, so it is not filled here
  obtain rfl : k = cum := by
    refine le_antisymm (le_of_covered h.combined le_rfl fun y hy hyk ↦ ?_) hk
    rcases hcovered y hy hyk with rfl | hmem
    · exact hxall
    · exact .inr (.inr hmem)
  obtain ⟨R, hremove, hR⟩ := h.revokable.remove (fun _ ↦ hroom.1) hx hbelow
  have hcombined := h.combined.update_of_mem hx hxall true hoverC
  rw [← h.cumAckTSN] at hupdate
  have hkind := updateGapList_of_kind (updateKind_false hupdate hremove)
  refine ⟨{ s with RevokableGapList := R, NonRevokableGapList := N }, hkind.trans ?_, h.cumAckTSN, h.base_le,
    fun y hy ↦ ?_, ?_, hR, hN, ?_⟩
  · rw [updateCombined, h.cumAckTSN, hcombined, Option.bind_eq_bind, Option.bind_some]
    refine (if_neg (not_not.2 rfl)).trans ?_
    rw [← h.cumAckTSN]
    rfl
  · rw [hall]
    exact h.contiguous y hy
  · rw [hall]
    exact h.combined
  · exact Set.disjoint_insert_right.2 ⟨fun hx ↦ hx.2 rfl, h.disjoint.mono_left Set.sdiff_subset⟩

/-- **A TSN is removed.** -/
theorem Follows.remove (hroom : s.HasRoom) (hx : cum < x) (hbelow : x < cum + 2 ^ 31) :
    ∃ s', s.removeFromGapList (wrap x) = some s' ∧
      s'.Follows (GapListCall.effect r (.removeFromGapList x)) cum := by
  obtain ⟨R, hR, hkeepsR⟩ := h.revokable.remove (fun _ ↦ hroom.1) hx hbelow
  obtain ⟨N, hN, hkeepsN⟩ := h.nonRevokable.remove (fun _ ↦ hroom.2.1) hx hbelow
  obtain ⟨C, hC, hkeepsC⟩ := h.combined.remove (fun _ ↦ hroom.2.2) hx hbelow
  have hall (y : ℕ) : y ∈ (GapListCall.effect r (.removeFromGapList x)).all ↔ y ∈ r.all \ {x} := by
    have hbase : x ∉ {y | y ≤ r.base} := not_le.2 (h.base_le.trans_lt hx)
    simp only [GapListCall.effect, Received.all, Set.mem_union, Set.mem_sdiff, Set.mem_singleton_iff]
    have hy : y = x → y ∉ {y | y ≤ r.base} := fun hy ↦ hy ▸ hbase
    tauto
  refine ⟨⟨s.CumAckTSN, R, N, C⟩, ?_, h.cumAckTSN, h.base_le, fun y hy ↦ ?_, ?_, hkeepsR, hkeepsN, ?_⟩
  · rw [removeFromGapList, hR, hN, hC]
    rfl
  · rw [hall]
    exact ⟨h.contiguous y hy, (hy.trans_lt hx).ne⟩
  · exact hkeepsC.congr fun y _ ↦ (hall y).symm
  · exact h.disjoint.mono Set.sdiff_subset Set.sdiff_subset

theorem Follows.tryToAdvance : s.tryToAdvanceCumAckTSN = some s := by
  rw [tryToAdvanceCumAckTSN, h.cumAckTSN, h.combined.tryToAdvance, ← h.cumAckTSN]
  rfl

theorem Follows.represents : s.Represents r cum where
  isCum := ⟨h.contiguous, h.combined.next_notMem⟩
  cumAckTSN := h.cumAckTSN
  check := by
    rw [SCTPGapList.check, h.cumAckTSN]
    exact ⟨h.combined.check, h.revokable.check, h.nonRevokable.check⟩
  combined := h.combined.tsnInGapList_iff
  revokable := h.revokable.tsnInGapList_iff
  nonRevokable := h.nonRevokable.tsnInGapList_iff
  disjoint tsn := by
    rw [h.revokable.tsnInGapList_iff, h.nonRevokable.tsnInGapList_iff]
    rintro ⟨⟨y, hy, hcum, rfl⟩, ⟨z, hz, hcum', heq⟩⟩
    have hbelow := h.revokable.lt_of_mem hcum hy
    have hbelow' := h.nonRevokable.lt_of_mem hcum' hz
    obtain rfl := (wrap_inj (by omega) (by omega)).1 heq
    exact Set.disjoint_left.1 h.disjoint hy hz

end SCTPGapList

/-! ### Runs -/

variable {s s' : GapListState} {call : GapListCall} {out : Option Bool}

/-- **One call** that overlooks nothing. -/
theorem GapListState.after_follows {cum : ℕ} (h : s.list.Follows s.received cum) (hroom : s.list.HasRoom)
    (hallowed : call.Allowed s.received) (hover : ¬call.Overlooks s.list) :
    (∃ c, (s.after call).1.list.Follows (s.after call).1.received c) ∧ (s.after call).2 ≠ none ∧
      (call.IsNew s.received → (s.after call).2 = some true) := by
  have hcum : s.received.IsCum cum := h.represents.isCum
  have hafter {c : ℕ} {b : Bool} {list : SCTPGapList} (hrun : call.run s.list = some (b, list))
      (hfollows : list.Follows (call.effect s.received) c) (hnew : call.IsNew s.received → b = true) :
      (∃ c, (s.after call).1.list.Follows (s.after call).1.received c) ∧ (s.after call).2 ≠ none ∧
        (call.IsNew s.received → (s.after call).2 = some true) := by
    simp only [GapListState.after, hrun]
    exact ⟨⟨c, hfollows⟩, Option.some_ne_none b, fun h ↦ congrArg some (hnew h)⟩
  cases call with
  | updateGapList x b tsnIsRevokable =>
    obtain ⟨⟨k, hk, hx, hbelow⟩, hkind⟩ := hallowed
    obtain rfl := hcum.eq hk
    rcases hkind with hnew | ⟨hmem, rfl⟩
    · cases tsnIsRevokable with
      | true =>
        obtain ⟨c, list, hrun, hfollows⟩ := h.update_revokable hroom hx hbelow hnew b hover
        exact hafter (congrArg (Option.map _) hrun) hfollows fun _ ↦ rfl
      | false =>
        obtain ⟨c, list, hrun, hfollows⟩ := h.update_nonRevokable (fun _ ↦ hroom) hx hbelow hnew b hover
        exact hafter (congrArg (Option.map _) hrun) hfollows fun _ ↦ rfl
    · obtain ⟨list, hrun, hfollows⟩ := h.update_moved hroom hx hbelow hmem b hover
      exact hafter (congrArg (Option.map _) hrun) hfollows fun _ ↦ rfl
  | removeFromGapList x =>
    obtain ⟨k, hk, hx, hbelow⟩ := hallowed
    obtain rfl := hcum.eq hk
    obtain ⟨list, hrun, hfollows⟩ := h.remove hroom hx hbelow
    exact hafter (congrArg (Option.map _) hrun) hfollows False.elim
  | tryToAdvanceCumAckTSN =>
    exact hafter (congrArg (Option.map _) h.tryToAdvance) h False.elim

theorem GapListState.init_follows (initialTSN : UInt32) :
    (init initialTSN).list.Follows (init initialTSN).received initialTSN.toNat where
  cumAckTSN := (wrap_toNat initialTSN).symm
  base_le := le_rfl
  contiguous _ hy := .inl hy
  combined := (Keeps.empty _).congr fun y hy ↦ by
    simp [Received.all, init, hy]
  revokable := .empty _
  nonRevokable := .empty _
  disjoint := Set.disjoint_empty _

/-- **The gap lists refine the sets.** In every run in which no call overlooks a block that starts
at TSN 0, the lists represent the sets, no index outside the arrays is used, and `newChunkReceived`
is set by every call for a TSN that is in no list. -/
theorem gapList_refines (initialTSN : UInt32)
    {tr : List (Transition GapListState GapListCall (Option Bool))} {s : GapListState}
    (hrun : (gapListRuns initialTSN).Run tr s) (hover : ∀ t ∈ tr, ¬t.input.Overlooks t.pre.list) :
    (∃ cum, s.list.Represents s.received cum) ∧
      ∀ t ∈ tr, t.output ≠ none ∧ (t.input.IsNew t.pre.received → t.output = some true) := by
  have hinv : (∀ t ∈ tr, ¬t.input.Overlooks t.pre.list) → (∃ cum, s.list.Follows s.received cum) ∧
      ∀ t ∈ tr, t.output ≠ none ∧ (t.input.IsNew t.pre.received → t.output = some true) := by
    refine hrun.history (P := fun tr s ↦ (∀ t ∈ tr, ¬t.input.Overlooks t.pre.list) →
      (∃ cum, s.list.Follows s.received cum) ∧ ∀ t ∈ tr, t.output ≠ none ∧
        (t.input.IsNew t.pre.received → t.output = some true)) ?_ ?_
    · rintro s rfl -
      exact ⟨⟨_, GapListState.init_follows initialTSN⟩, by simp⟩
    · rintro tr s call out s' - ih ⟨hallowed, hroom, hstep⟩ hover
      rw [List.forall_mem_append, List.forall_mem_singleton] at hover ⊢
      obtain ⟨⟨cum, hfollows⟩, houts⟩ := ih hover.1
      obtain ⟨hnext, hout⟩ := GapListState.after_follows hfollows hroom hallowed hover.2
      rw [hstep] at hnext hout
      exact ⟨hnext, houts, hout⟩
  obtain ⟨⟨cum, hfollows⟩, houts⟩ := hinv hover
  exact ⟨⟨cum, hfollows.represents⟩, houts⟩

/-- Calls that are allowed make a run. -/
theorem GapListState.run_of_calls (initialTSN : UInt32) (calls : List GapListCall)
    (h : ∀ t ∈ transitionsOf after (init initialTSN) calls,
      t.input.Allowed t.pre.received ∧ t.pre.list.HasRoom) :
    (gapListRuns initialTSN).Run (transitionsOf after (init initialTSN) calls)
      (stateAfter after (init initialTSN) calls) :=
  Run.ofInputs (T := gapListRuns initialTSN)
    (C := fun s call ↦ call.Allowed s.received ∧ s.list.HasRoom) (fun _ _ h ↦ ⟨h.1, h.2, rfl⟩) rfl h

/-- TSN 1 arrives before 4294967295, which is the next, and 0. -/
def acrossZero : List GapListCall :=
  [.updateGapList 4294967297 false true, .updateGapList 4294967295 false false]

theorem gapList_refines_acrossZero :
    ∃ cum, (stateAfter GapListState.after (.init 4294967294) acrossZero).list.Represents
      (stateAfter GapListState.after (.init 4294967294) acrossZero).received cum := by
  refine (gapList_refines 4294967294 (GapListState.run_of_calls 4294967294 acrossZero ?_) ?_).1
  · simp only [acrossZero, transitionsOf, List.forall_mem_cons]
    refine ⟨⟨⟨⟨4294967294, ⟨fun y hy ↦ .inl hy, ?_⟩, ?_⟩, .inl ?_⟩, by decide +kernel⟩,
      ⟨⟨⟨4294967294, ⟨fun y hy ↦ .inl hy, ?_⟩, ?_⟩, .inl ?_⟩, by decide +kernel⟩, by simp⟩
    all_goals simp [GapListState.after, GapListState.init, GapListCall.effect, Received.all]
  · decide +kernel

/-- TSN 0 arrives before 4294967295. -/
def zeroFirst : List GapListCall :=
  [.updateGapList 4294967296 false true, .updateGapList 4294967295 false true]

/-- **A TSN may be lost.** The block of TSN 0 is passed over, and the TSN in front of it is not
entered. -/
theorem gapList_not_refines :
    ¬∀ initialTSN tr s, (gapListRuns initialTSN).Run tr s →
      (∃ cum, s.list.Represents s.received cum) ∧
        ∀ t ∈ tr, t.output ≠ none ∧ (t.input.IsNew t.pre.received → t.output = some true) := by
  intro hall
  have hrun := GapListState.run_of_calls 4294967293 zeroFirst ?_
  · have hlost := (hall _ _ _ hrun).2 ⟨_, _, _, _⟩ (.tail _ (.head _))
    have hnew := hlost.2 ?_
    · have hout : (GapListState.after (GapListState.after (.init 4294967293)
          (.updateGapList 4294967296 false true)).1 (.updateGapList 4294967295 false true)).2 =
          some false := by decide +kernel
      rw [hout] at hnew
      cases hnew
    · simp [GapListCall.IsNew, GapListState.after, GapListState.init, GapListCall.effect, Received.all]
  · simp only [zeroFirst, transitionsOf, List.forall_mem_cons]
    refine ⟨⟨⟨⟨4294967293, ⟨fun y hy ↦ .inl hy, ?_⟩, ?_⟩, .inl ?_⟩, by decide +kernel⟩,
      ⟨⟨⟨4294967293, ⟨fun y hy ↦ .inl hy, ?_⟩, ?_⟩, .inl ?_⟩, by decide +kernel⟩, by simp⟩
    all_goals simp [GapListState.after, GapListState.init, GapListCall.effect, Received.all]

end Inet.Sctp
