import Inet.Foundations.SerialNumber

/-!
# The gap lists of SCTP

`SCTPSimpleGapList` keeps the TSNs that have arrived above the cumulative one as blocks, in arrays
of a fixed size; an index outside the arrays stops the model (`none`). `SCTPGapList` has three such
lists: one of the TSNs that may be revoked, one of those that may not, and one of both.

A TSN is taken for a position modulo `2 ^ 32`, and a block for an interval of positions (`gapOf`).
The arrays are changed by moving entries up or down by one place, which `shiftUp_eq` and
`shiftDown_eq` say for lists that are given in parts.
-/

namespace Inet.Sctp

open SerialNumber

/-- `MAX_GAP_COUNT`. -/
abbrev MAX_GAP_COUNT : ℕ :=
  500

/-- `SCTP_UINT32_GT`. -/
def tsnGt (a b : UInt32) : Prop :=
  a < b ∧ 2 ^ 31 < b - a ∨ b < a ∧ a - b < 2 ^ 31

/-- `tsnGe`. -/
def tsnGe (a b : UInt32) : Prop :=
  tsnGt a b ∨ a = b

instance (a b : UInt32) : Decidable (tsnGt a b) :=
  inferInstanceAs (Decidable (_ ∨ _))

instance (a b : UInt32) : Decidable (tsnGe a b) :=
  inferInstanceAs (Decidable (_ ∨ _))

/-- `tsnLe`. -/
abbrev tsnLe (a b : UInt32) : Prop :=
  tsnGe b a

/-- `tsnBetween`. -/
abbrev tsnBetween (tsn1 midtsn tsn2 : UInt32) : Prop :=
  tsnGe midtsn tsn1 ∧ tsnGe tsn2 midtsn

/-- An entry of `GapStartList`, and that of `GapStopList`. -/
structure Gap where
  start : UInt32
  stop : UInt32
  deriving DecidableEq

/-- `SCTPSimpleGapList`. The two arrays are one of pairs. -/
structure SCTPSimpleGapList where
  NumGaps : ℕ := 0
  gaps : List Gap := List.replicate MAX_GAP_COUNT ⟨0xffff00ff, 0xffff0000⟩
  deriving DecidableEq

namespace SCTPSimpleGapList

/-! ### The arrays -/

/-- An entry of the arrays. -/
def get (g : SCTPSimpleGapList) (i : ℕ) : Option Gap :=
  g.gaps[i]?

/-- An entry of the arrays is written. -/
def set (g : SCTPSimpleGapList) (i : ℕ) (gap : Gap) : Option SCTPSimpleGapList :=
  if i < g.gaps.length then some { g with gaps := g.gaps.set i gap } else none

/-- An entry is copied. -/
def copy (g : SCTPSimpleGapList) (dst src : ℕ) : Option SCTPSimpleGapList := do
  g.set dst (← g.get src)

/-- The entries from `i` on are moved up by one: for `j` from `n` down to `i + 1`. -/
def shiftUp (i : ℕ) : ℕ → SCTPSimpleGapList → Option SCTPSimpleGapList
  | 0, g => some g
  | n + 1, g => if i < n + 1 then do shiftUp i n (← g.copy (n + 1) n) else some g

/-- `n` entries are moved down by `k`, to `j` and those behind. -/
def shiftDown (k : ℕ) : ℕ → ℕ → SCTPSimpleGapList → Option SCTPSimpleGapList
  | 0, _, g => some g
  | n + 1, j, g => do shiftDown k n (j + 1) (← g.copy j (j + k))

/-- `GapStopList` is changed at the index before `i`. -/
def setStopBefore (g : SCTPSimpleGapList) (i : ℕ) (stop : Gap → UInt32) :
    Option SCTPSimpleGapList :=
  match i with
  | 0 => none
  | j + 1 => do
    let gap ← g.get j
    g.set j { gap with stop := stop gap }

/-! ### The functions -/

/-- `check`, from a block on. -/
def checkFrom (tsn : UInt32) : List Gap → Prop
  | [] => True
  | gap :: gaps => tsnGt gap.start (tsn + 1) ∧ tsnLe gap.start gap.stop ∧ checkFrom gap.stop gaps

/-- `check`. -/
def check (g : SCTPSimpleGapList) (cTsnAck : UInt32) : Prop :=
  checkFrom cTsnAck (g.gaps.take g.NumGaps)

/-- `tsnInGapList`. -/
def tsnInGapList (g : SCTPSimpleGapList) (tsn : UInt32) : Prop :=
  ∃ gap ∈ g.gaps.take g.NumGaps, tsnBetween gap.start tsn gap.stop

/-- The number of blocks that `forwardCumAckTSN` takes away. -/
def advanceCount (cTsnAck : UInt32) : List Gap → ℕ
  | [] => 0
  | gap :: gaps => if tsnGe cTsnAck gap.start then advanceCount cTsnAck gaps + 1 else 0

/-- `forwardCumAckTSN`. -/
def forwardCumAckTSN (g : SCTPSimpleGapList) (cTsnAck : UInt32) : Option SCTPSimpleGapList :=
  let advance := advanceCount cTsnAck (g.gaps.take g.NumGaps)
  if 0 < advance then do
    let g ← shiftDown advance (g.NumGaps - advance) 0 g
    return { g with NumGaps := g.NumGaps - advance }
  else some g

/-- The loop of `tryToAdvanceCumAckTSN`. The number of blocks stays as it is. -/
def tryToAdvanceLoop : ℕ → UInt32 → Bool → SCTPSimpleGapList →
    Option (Bool × UInt32 × SCTPSimpleGapList)
  | 0, cTsnAck, progress, g => some (progress, cTsnAck, g)
  | n + 1, cTsnAck, progress, g => do
    let first ← g.get 0
    if cTsnAck + 1 = first.start then
      tryToAdvanceLoop n first.stop true (← shiftDown 1 (g.NumGaps - 1) 0 g)
    else tryToAdvanceLoop n cTsnAck progress g

/-- `tryToAdvanceCumAckTSN`. -/
def tryToAdvanceCumAckTSN (g : SCTPSimpleGapList) (cTsnAck : UInt32) :
    Option (Bool × UInt32 × SCTPSimpleGapList) :=
  tryToAdvanceLoop g.NumGaps cTsnAck false g

/-- A TSN is removed from its block, which may be split or vanish. -/
def removeAt (g : SCTPSimpleGapList) (i : ℕ) (gap : Gap) (removedTSN : UInt32) :
    Option SCTPSimpleGapList :=
  let gapsize := gap.stop - gap.start + 1
  -- the size is compared as an `int32`
  if 1 < gapsize ∧ gapsize < 2 ^ 31 then
    if gap.stop = removedTSN then g.set i { gap with stop := gap.stop - 1 }
    else if gap.start = removedTSN then g.set i { gap with start := gap.start + 1 }
    else do
      let NumGaps := min (g.NumGaps + 1) MAX_GAP_COUNT
      let g ← shiftUp i (NumGaps - 1) { g with NumGaps }
      let g ← g.set i { (← g.get i) with stop := removedTSN - 1 }
      if i + 1 < NumGaps then g.set (i + 1) { (← g.get (i + 1)) with start := removedTSN + 1 }
      else some g
  else do
    let initialNumGaps := g.NumGaps
    let g ← shiftDown 1 (initialNumGaps - i) i g
    let g ← g.set (initialNumGaps - 1) ⟨0, 0⟩
    return { g with NumGaps := initialNumGaps - 1 }

/-- The loop of `removeFromGapList`, over the first `n` blocks from the last to the first. -/
def removeLoop (removedTSN : UInt32) : ℕ → SCTPSimpleGapList → Option SCTPSimpleGapList
  | 0, g => some g
  | i + 1, g => do
    let gap ← g.get i
    if tsnBetween gap.start removedTSN gap.stop then g.removeAt i gap removedTSN
    else removeLoop removedTSN i g

/-- `removeFromGapList`. -/
def removeFromGapList (g : SCTPSimpleGapList) (removedTSN : UInt32) : Option SCTPSimpleGapList :=
  removeLoop removedTSN g.NumGaps g

/-- What `updateGapList` returns and leaves. -/
structure Update where
  result : Bool
  cTsnAck : UInt32
  newChunkReceived : Bool
  list : SCTPSimpleGapList

/-- A new chunk has been received. -/
def received (cTsnAck : UInt32) (g : SCTPSimpleGapList) : Update :=
  ⟨true, cTsnAck, true, g⟩

/-- Block `i` is taken away, as its TSNs have gone into the block before or into the cumulative TSN.
-/
def dropBlock (g : SCTPSimpleGapList) (i : ℕ) : Option SCTPSimpleGapList := do
  let g ← if i = g.NumGaps - 1 then g.set i ⟨0, 0⟩ else shiftDown 1 (g.NumGaps - 1 - i) i g
  return { g with NumGaps := g.NumGaps - 1 }

/-- A TSN is in the gap in front of block `i`, which starts at `lo`. -/
def fillGap (g : SCTPSimpleGapList) (receivedTSN cTsnAck lo : UInt32) (i : ℕ) (gap : Gap) :
    Option Update :=
  let hi := gap.start - 1
  if 1 < hi - lo + 1 then
    if receivedTSN = hi then (g.set i { gap with start := receivedTSN }).map (received cTsnAck)
    else if receivedTSN = lo then
      if receivedTSN = cTsnAck + 1 then some (received (cTsnAck + 1) g)
      else (g.setStopBefore i fun _ ↦ receivedTSN).map (received cTsnAck)
    else do
      let NumGaps := min (g.NumGaps + 1) MAX_GAP_COUNT
      let g ← shiftUp i (NumGaps - 1) { g with NumGaps }
      (g.set i ⟨receivedTSN, receivedTSN⟩).map (received cTsnAck)
  else if lo = cTsnAck + 1 then (g.dropBlock i).map (received gap.stop)
  else do
    let g ← g.setStopBefore i fun _ ↦ gap.stop
    (g.dropBlock i).map (received cTsnAck)

/-- Behind all blocks: if the TSN is new, the list is empty or the TSN does not touch the last
block. -/
def isNew (g : SCTPSimpleGapList) (receivedTSN : UInt32) : Option Bool :=
  if g.NumGaps = 0 then some true
  else (g.get (g.NumGaps - 1)).map fun gap ↦ decide (tsnGt receivedTSN (gap.stop + 1))

/-- The end of `updateGapList`, behind all blocks. -/
def appendTSN (g : SCTPSimpleGapList) (receivedTSN cTsnAck lo : UInt32) (newChunkReceived : Bool) :
    Option Update :=
  if receivedTSN = lo then
    if receivedTSN = cTsnAck + 1 then some (received receivedTSN g)
    else (g.setStopBefore g.NumGaps fun gap ↦ gap.stop + 1).map (received cTsnAck)
  else do
    if (← g.isNew receivedTSN) ∧ g.NumGaps < MAX_GAP_COUNT then
      let g' ← g.set g.NumGaps ⟨receivedTSN, receivedTSN⟩
      return received cTsnAck { g' with NumGaps := g.NumGaps + 1 }
    else return ⟨true, cTsnAck, newChunkReceived, g⟩

/-- The loop of `updateGapList`, with `n` blocks from block `i` on. A block that starts at 0 is
passed over. -/
def updateLoop (receivedTSN cTsnAck : UInt32) (newChunkReceived : Bool) :
    ℕ → ℕ → UInt32 → SCTPSimpleGapList → Option Update
  | 0, _, lo, g => g.appendTSN receivedTSN cTsnAck lo newChunkReceived
  | n + 1, i, lo, g => do
    let gap ← g.get i
    if 0 < gap.start then
      if tsnBetween lo receivedTSN (gap.start - 1) then g.fillGap receivedTSN cTsnAck lo i gap
      else updateLoop receivedTSN cTsnAck newChunkReceived n (i + 1) (gap.stop + 1) g
    else updateLoop receivedTSN cTsnAck newChunkReceived n (i + 1) lo g

/-- `updateGapList`. -/
def updateGapList (g : SCTPSimpleGapList) (receivedTSN cTsnAck : UInt32) (newChunkReceived : Bool) :
    Option Update :=
  if tsnLe receivedTSN cTsnAck then some ⟨false, cTsnAck, newChunkReceived, g⟩
  else updateLoop receivedTSN cTsnAck newChunkReceived g.NumGaps 0 (cTsnAck + 1) g

end SCTPSimpleGapList

/-- `SCTPGapList`. -/
structure SCTPGapList where
  CumAckTSN : UInt32
  RevokableGapList : SCTPSimpleGapList := {}
  NonRevokableGapList : SCTPSimpleGapList := {}
  CombinedGapList : SCTPSimpleGapList := {}
  deriving DecidableEq

namespace SCTPGapList

/-- `SCTPGapList::check`. -/
def check (s : SCTPGapList) : Prop :=
  s.CombinedGapList.check s.CumAckTSN ∧ s.RevokableGapList.check s.CumAckTSN ∧
    s.NonRevokableGapList.check s.CumAckTSN

/-- The two lists of one kind are told of a new `CumAckTSN`. -/
def forwardKinds (s : SCTPGapList) : Option SCTPGapList := do
  let RevokableGapList ← s.RevokableGapList.forwardCumAckTSN s.CumAckTSN
  let NonRevokableGapList ← s.NonRevokableGapList.forwardCumAckTSN s.CumAckTSN
  return { s with RevokableGapList, NonRevokableGapList }

/-- `SCTPGapList::tryToAdvanceCumAckTSN`. -/
def tryToAdvanceCumAckTSN (s : SCTPGapList) : Option SCTPGapList := do
  let (progress, CumAckTSN, CombinedGapList) ←
    s.CombinedGapList.tryToAdvanceCumAckTSN s.CumAckTSN
  let s := { s with CumAckTSN, CombinedGapList }
  if progress then s.forwardKinds else some s

/-- `SCTPGapList::removeFromGapList`. -/
def removeFromGapList (s : SCTPGapList) (removedTSN : UInt32) : Option SCTPGapList := do
  let RevokableGapList ← s.RevokableGapList.removeFromGapList removedTSN
  let NonRevokableGapList ← s.NonRevokableGapList.removeFromGapList removedTSN
  let CombinedGapList ← s.CombinedGapList.removeFromGapList removedTSN
  return { s with RevokableGapList, NonRevokableGapList, CombinedGapList }

/-- The first half of `SCTPGapList::updateGapList`: the list of the kind. A TSN that becomes not
revokable is not revokable any more. -/
def updateKind (s : SCTPGapList) (receivedTSN : UInt32) (newChunkReceived tsnIsRevokable : Bool) :
    Option (Bool × SCTPGapList) := do
  if tsnIsRevokable then
    let u ← s.RevokableGapList.updateGapList receivedTSN s.CumAckTSN newChunkReceived
    return (u.newChunkReceived, { s with RevokableGapList := u.list })
  else
    let u ← s.NonRevokableGapList.updateGapList receivedTSN s.CumAckTSN newChunkReceived
    let s := { s with NonRevokableGapList := u.list }
    if u.result then
      let RevokableGapList ← s.RevokableGapList.removeFromGapList receivedTSN
      return (u.newChunkReceived, { s with RevokableGapList })
    else return (u.newChunkReceived, s)

/-- The second half: the list of both kinds. -/
def updateCombined (s : SCTPGapList) (receivedTSN : UInt32) (newChunkReceived : Bool) :
    Option (Bool × Bool × SCTPGapList) := do
  let u ← s.CombinedGapList.updateGapList receivedTSN s.CumAckTSN newChunkReceived
  let s' := { s with CumAckTSN := u.cTsnAck, CombinedGapList := u.list }
  let s' ← if s.CumAckTSN ≠ u.cTsnAck then s'.forwardKinds else some s'
  return (u.result, u.newChunkReceived, s')

/-- `SCTPGapList::updateGapList`: the result, whether a new chunk has been received, and the lists.
-/
def updateGapList (s : SCTPGapList) (receivedTSN : UInt32) (newChunkReceived tsnIsRevokable : Bool) :
    Option (Bool × Bool × SCTPGapList) := do
  let (newChunkReceived, s) ← s.updateKind receivedTSN newChunkReceived tsnIsRevokable
  s.updateCombined receivedTSN newChunkReceived

end SCTPGapList

/-! ### Comparing TSNs -/

variable {m n : ℕ} {p : ℕ × ℕ}

/-- TSNs less than half the number space apart are compared as their positions. -/
theorem tsnGt_wrap (h₁ : m < n + 2 ^ 31) (h₂ : n < m + 2 ^ 31) :
    tsnGt (wrap m) (wrap n) ↔ n < m := by
  rw [tsnGt]
  simp only [UInt32.lt_iff_toNat_lt, UInt32.toNat_sub, toNat_wrap]
  have hhalf : (2 ^ 31 : UInt32).toNat = 2 ^ 31 := rfl
  rw [hhalf]
  omega

theorem tsnGe_wrap (h₁ : m < n + 2 ^ 31) (h₂ : n < m + 2 ^ 31) :
    tsnGe (wrap m) (wrap n) ↔ n ≤ m := by
  rw [tsnGe, tsnGt_wrap h₁ h₂, wrap_inj h₁ h₂]
  omega

theorem wrap_add_one (n : ℕ) : wrap n + 1 = wrap (n + 1) :=
  wrap_add_wrap n 1

theorem wrap_sub_one (h : 0 < n) : wrap n - 1 = wrap (n - 1) := by
  rw [← Nat.sub_add_cancel h, ← wrap_add_one, Nat.add_sub_cancel]
  exact UInt32.add_sub_cancel _ _

/-- The block of an interval. -/
def gapOf (p : ℕ × ℕ) : Gap :=
  ⟨wrap p.1, wrap (p.2 - 1)⟩

/-- Behind a block the next TSN is the end of its interval. -/
theorem stop_gapOf_add_one (h : p.1 < p.2) : (gapOf p).stop + 1 = wrap p.2 := by
  rw [gapOf, wrap_add_one, Nat.sub_add_cancel (by omega)]

namespace SCTPSimpleGapList

/-! ### Moving entries -/

variable {g : SCTPSimpleGapList} {pre suf rest del : List Gap} {a b : Gap}

theorem get_append (h : g.gaps = pre ++ a :: suf) : g.get pre.length = some a := by
  rw [get, h, List.getElem?_append_right le_rfl, Nat.sub_self]
  rfl

theorem set_append (h : g.gaps = pre ++ a :: suf) (b : Gap) :
    g.set pre.length b = some { g with gaps := pre ++ b :: suf } := by
  have hlt : pre.length < g.gaps.length := by
    rw [h, List.length_append, List.length_cons]
    omega
  rw [set, if_pos hlt, h, List.set_append_right _ _ le_rfl, Nat.sub_self]
  rfl

theorem setStopBefore_append (h : g.gaps = pre ++ a :: suf) (stop : Gap → UInt32) :
    g.setStopBefore (pre.length + 1) stop =
      some { g with gaps := pre ++ { a with stop := stop a } :: suf } := by
  rw [setStopBefore, get_append h]
  exact set_append h _

/-- An entry is copied to another place. -/
theorem copy_eq {i : ℕ} (hsrc : g.get i = some a) (h : g.gaps = pre ++ b :: suf) :
    g.copy pre.length i = some { g with gaps := pre ++ a :: suf } := by
  rw [copy, hsrc]
  exact set_append h a

theorem shiftUp_self (i : ℕ) (g : SCTPSimpleGapList) : shiftUp i i g = some g := by
  cases i with
  | zero => rfl
  | succ i => rw [shiftUp, if_neg (lt_irrefl _)]

/-- **The entries are moved up**: the first of them is there twice. -/
theorem shiftUp_eq (h : g.gaps = pre ++ a :: suf ++ b :: rest) :
    shiftUp pre.length (pre ++ a :: suf).length g =
      some { g with gaps := pre ++ a :: a :: suf ++ rest } := by
  induction suf using List.reverseRecOn generalizing g b rest with
  | nil =>
    have hget : g.get pre.length = some a := get_append (by rw [h, List.append_assoc]; rfl)
    have hcopy := copy_eq hget h
    rw [List.length_append, List.length_singleton] at hcopy ⊢
    rw [shiftUp, if_pos (Nat.lt_succ_self _), hcopy]
    refine (shiftUp_self _ _).trans ?_
    simp only [List.append_assoc, List.cons_append, List.nil_append]
  | append_singleton suf c ih =>
    have hsplit : pre ++ a :: (suf ++ [c]) ++ b :: rest = pre ++ a :: suf ++ c :: (b :: rest) := by
      simp only [List.append_assoc, List.cons_append, List.nil_append]
    have hget : g.get (pre ++ a :: suf).length = some c := get_append (by rw [h, hsplit])
    have hcopy := copy_eq hget h
    have hlength : (pre ++ a :: (suf ++ [c])).length = (pre ++ a :: suf).length + 1 := by
      simp only [List.length_append, List.length_cons, List.length_nil]
      omega
    have hlt : pre.length < (pre ++ a :: suf).length + 1 := by
      rw [List.length_append]
      omega
    rw [hlength] at hcopy ⊢
    rw [shiftUp, if_pos hlt, hcopy]
    have hrest : { g with gaps := pre ++ a :: (suf ++ [c]) ++ c :: rest }.gaps =
        pre ++ a :: suf ++ c :: (c :: rest) := by
      simp only [List.append_assoc, List.cons_append, List.nil_append]
    refine (ih hrest).trans ?_
    simp only [List.append_assoc, List.cons_append, List.nil_append]

/-- **The entries are moved down**, over some that are deleted. -/
theorem shiftDown_eq (h : g.gaps = pre ++ del ++ suf ++ rest) (hdel : 0 < del.length) :
    ∃ rest', shiftDown del.length suf.length pre.length g =
      some { g with gaps := pre ++ suf ++ rest' } ∧ rest'.length = del.length + rest.length := by
  induction suf generalizing g pre del with
  | nil =>
    refine ⟨del ++ rest, ?_, List.length_append⟩
    rw [List.append_nil, List.append_assoc] at h
    rw [List.length_nil, shiftDown, List.append_nil, ← h]
  | cons c suf ih =>
    obtain ⟨d, del, rfl⟩ := List.exists_cons_of_length_pos hdel
    have hget : g.get (pre.length + (d :: del).length) = some c := by
      rw [← List.length_append]
      exact get_append (by rw [h, List.append_assoc]; rfl)
    have hcopy := copy_eq hget (show g.gaps = pre ++ d :: (del ++ c :: suf ++ rest) by
      rw [h]
      simp only [List.append_assoc, List.cons_append])
    have hnext : { g with gaps := pre ++ c :: (del ++ c :: suf ++ rest) }.gaps =
        pre ++ [c] ++ (del ++ [c]) ++ suf ++ rest := by
      simp only [List.append_assoc, List.cons_append, List.nil_append]
    obtain ⟨rest', hshift, hlength⟩ := ih hnext (by rw [List.length_append]; exact Nat.succ_pos _)
    have hsame : (del ++ [c]).length = (d :: del).length := by simp
    rw [hsame, List.length_append, List.length_singleton] at hshift
    rw [hsame] at hlength
    refine ⟨rest', ?_, hlength⟩
    show shiftDown _ (suf.length + 1) _ _ = _
    rw [shiftDown, hcopy]
    refine hshift.trans ?_
    simp only [List.append_assoc, List.cons_append, List.nil_append]

theorem dropBlock_eq (h : g.gaps = pre ++ a :: suf ++ rest) (hnum : g.NumGaps = (pre ++ a :: suf).length) :
    ∃ rest', g.dropBlock pre.length =
      some { NumGaps := (pre ++ suf).length, gaps := pre ++ suf ++ rest' } ∧
        rest'.length = rest.length + 1 := by
  have hnum' : g.NumGaps - 1 = (pre ++ suf).length := by
    rw [hnum, List.length_append, List.length_cons, List.length_append]
    omega
  rw [dropBlock, hnum']
  split_ifs with hlast
  · have hnil : suf = [] := by
      rw [List.length_append] at hlast
      exact List.length_eq_zero_iff.1 (by omega)
    subst hnil
    rw [List.append_assoc] at h
    refine ⟨⟨0, 0⟩ :: rest, ?_, rfl⟩
    rw [List.append_nil] at hnum' ⊢
    rw [set_append h]
    simp only [Option.bind_eq_bind, Option.bind_some, Option.pure_def, hnum']
    rfl
  · have hsplit : g.gaps = pre ++ [a] ++ suf ++ rest := by
      rw [h, List.append_cons]
    have hcount : (pre ++ suf).length - pre.length = suf.length := by
      rw [List.length_append, Nat.add_sub_cancel_left]
    obtain ⟨rest', hshift, hlength⟩ := shiftDown_eq hsplit Nat.one_pos
    rw [hcount]
    refine ⟨rest', ?_, hlength.trans (Nat.add_comm _ _)⟩
    have hshift : shiftDown 1 suf.length pre.length g = _ := hshift
    rw [hshift]
    simp only [Option.bind_eq_bind, Option.bind_some, Option.pure_def, hnum']

/-- The entries are moved up, and one is written before them. -/
theorem insert_eq (h : g.gaps = pre ++ a :: suf ++ b :: rest)
    (hnum : g.NumGaps = (pre ++ a :: suf).length) (hroom : g.NumGaps < MAX_GAP_COUNT) (c : Gap) :
    ∃ g', shiftUp pre.length (min (g.NumGaps + 1) MAX_GAP_COUNT - 1)
        { g with NumGaps := min (g.NumGaps + 1) MAX_GAP_COUNT } = some g' ∧
      g'.set pre.length c =
        some { NumGaps := (pre ++ a :: suf).length + 1, gaps := pre ++ c :: a :: suf ++ rest } := by
  have hmin : min (g.NumGaps + 1) MAX_GAP_COUNT = (pre ++ a :: suf).length + 1 := by
    rw [← hnum]
    exact Nat.min_eq_left hroom
  rw [hmin, Nat.add_sub_cancel]
  have hshift := shiftUp_eq (g := { g with NumGaps := (pre ++ a :: suf).length + 1 }) h
  have hsplit : pre ++ a :: a :: suf ++ rest = pre ++ a :: (a :: suf ++ rest) := by
    simp only [List.append_assoc, List.cons_append]
  refine ⟨_, hshift, ?_⟩
  rw [set_append hsplit c]
  simp only [List.append_assoc, List.cons_append]

end SCTPSimpleGapList

end Inet.Sctp
