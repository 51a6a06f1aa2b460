import Inet.TransportLayer.TCPSACKRexmitQueue

/-!
# The scoreboard byte by byte

`Scoreboard` is what `TCPSACKRexmitQueue` stands for: two bits for every byte from the first one
that has not been acknowledged to the last one that has been sent. Its operations and queries are
given byte by byte.

Under the assertions the queue makes on entry, the bytes never span the whole number space, the
regions tile them (`Valid`), and every operation and query of the queue is that of the bytes
(`rexmitQueue_refines_bytes`). The exception is the length `checkSackBlock` returns. It is the rest
of a region, and the bytes do not say where a region ends (`checkSackBlock_not_of_bytes`).
-/

namespace Inet.Tcp

open SerialNumber Tiling

/-- What is known about a byte. -/
structure Flags where
  sacked : Bool := false
  rexmitted : Bool := false
  deriving DecidableEq, Repr

/-- The bytes from `begin` on. -/
structure Scoreboard where
  begin : UInt32
  bytes : List Flags
  deriving DecidableEq, Repr

namespace Scoreboard

variable (b : Scoreboard) (seqNum fromSeqNum toSeqNum : UInt32)

/-- Where a sequence number is among the bytes. -/
def offset : ℕ :=
  (seqNum - b.begin).toNat

/-- The bytes before `seqNum` are acknowledged. -/
def discardUpTo : Scoreboard :=
  ⟨seqNum, b.bytes.drop (b.offset seqNum)⟩

/-- What is sent again is retransmitted; what is behind the last byte is new. -/
def enqueueSentData : Scoreboard :=
  { b with
    bytes := modifyRange (b.offset fromSeqNum) (b.offset toSeqNum) ({ · with rexmitted := true })
        b.bytes ++ List.replicate (b.offset toSeqNum - b.bytes.length) {} }

/-- A range that starts before the first byte is cut. -/
def setSackedBit : Scoreboard :=
  let first := if seqLess fromSeqNum b.begin then 0 else b.offset fromSeqNum
  { b with
    bytes := modifyRange first (b.offset toSeqNum) ({ · with sacked := true }) b.bytes }

def resetSackedBit : Scoreboard :=
  { b with bytes := b.bytes.map ({ · with sacked := false }) }

def resetRexmittedBit : Scoreboard :=
  { b with bytes := b.bytes.map ({ · with rexmitted := false }) }

/-- The bit of a byte, `false` behind the last one. -/
def getSackedBit : Bool :=
  b.bytes[b.offset seqNum]?.any Flags.sacked

/-- The number behind the last byte with a bit, `begin` if there is none. -/
def getHighest (bit : Flags → Bool) (b : Scoreboard) : UInt32 :=
  b.begin + wrap (b.bytes.rdropWhile (! bit ·)).length

/-- How many bytes from `fromSeqNum` on are sacked or retransmitted without a gap. -/
def passedBytes : ℕ :=
  ((b.bytes.drop (b.offset fromSeqNum)).takeWhile fun x ↦ x.sacked || x.rexmitted).length

/-- How many bytes are sacked. -/
def getTotalAmountOfSackedBytes : ℕ :=
  b.bytes.countP Flags.sacked

/-- How many bytes from `fromSeqNum` on are sacked. -/
def getAmountOfSackedBytes : ℕ :=
  (b.bytes.drop (b.offset fromSeqNum)).countP Flags.sacked

/-- How many blocks of sacked bytes there are. -/
def sackedBlocks (prevSacked : Bool) : List Flags → ℕ
  | [] => 0
  | x :: xs => (if x.sacked && !prevSacked then 1 else 0) + sackedBlocks x.sacked xs

/-- How many blocks of sacked bytes there are from `fromSeqNum` on. -/
def getNumOfDiscontiguousSacks : ℕ :=
  sackedBlocks false (b.bytes.drop (b.offset fromSeqNum))

end Scoreboard

/-- How many bytes a region has, and their flags. -/
def RexmitRegion.run (r : RexmitRegion) : ℕ × Flags :=
  ((r.endSeqNum - r.beginSeqNum).toNat, ⟨r.sacked, r.rexmitted⟩)

/-- What the queue says about every byte. -/
def TCPSACKRexmitQueue.scoreboard (q : TCPSACKRexmitQueue) : Scoreboard :=
  ⟨q.begin, expand RexmitRegion.run q.rexmitQueue⟩

/-- The operations. -/
inductive ScoreboardCall
  | enqueueSentData (fromSeqNum toSeqNum : UInt32)
  | setSackedBit (fromSeqNum toSeqNum : UInt32)
  | discardUpTo (seqNum : UInt32)
  | resetSackedBit
  | resetRexmittedBit
  deriving DecidableEq, Repr

namespace TCPSACKRexmitQueue

/-- What an operation asserts on entry. -/
def Asserted (q : TCPSACKRexmitQueue) : ScoreboardCall → Prop
  | .enqueueSentData fromSeqNum toSeqNum =>
    seqLE q.begin fromSeqNum ∧ seqLE fromSeqNum q.stop ∧ seqLess fromSeqNum toSeqNum
  | .setSackedBit fromSeqNum toSeqNum =>
    seqLess (q.sackedFrom fromSeqNum) q.stop ∧ seqLess q.begin toSeqNum ∧ seqLE toSeqNum q.stop ∧
      seqLess (q.sackedFrom fromSeqNum) toSeqNum
  | .discardUpTo seqNum => seqLE q.begin seqNum ∧ seqLE seqNum q.stop
  | .resetSackedBit | .resetRexmittedBit => True

instance (q : TCPSACKRexmitQueue) : (c : ScoreboardCall) → Decidable (q.Asserted c)
  | .enqueueSentData _ _ | .setSackedBit _ _ | .discardUpTo _ => inferInstanceAs (Decidable (_ ∧ _))
  | .resetSackedBit | .resetRexmittedBit => inferInstanceAs (Decidable True)

/-- An operation on the queue. -/
def call (q : TCPSACKRexmitQueue) : ScoreboardCall → Except RuntimeError TCPSACKRexmitQueue
  | .enqueueSentData fromSeqNum toSeqNum => q.enqueueSentData fromSeqNum toSeqNum
  | .setSackedBit fromSeqNum toSeqNum => q.setSackedBit fromSeqNum toSeqNum
  | .discardUpTo seqNum => q.discardUpTo seqNum
  | .resetSackedBit => .ok q.resetSackedBit
  | .resetRexmittedBit => .ok q.resetRexmittedBit

/-- Operations, one after the other. -/
def run (q : TCPSACKRexmitQueue) : List ScoreboardCall → Except RuntimeError TCPSACKRexmitQueue
  | [] => .ok q
  | c :: cs => (q.call c).bind fun q' ↦ q'.run cs

/-- Each operation meets its assertions on entry. -/
def AllAsserted (q : TCPSACKRexmitQueue) : List ScoreboardCall → Prop
  | [] => True
  | c :: cs => q.Asserted c ∧ ∀ q' ∈ (q.call c).toOption, q'.AllAsserted cs

instance decidableAllAsserted (q : TCPSACKRexmitQueue) :
    (cs : List ScoreboardCall) → Decidable (q.AllAsserted cs)
  | [] => inferInstanceAs (Decidable True)
  | c :: cs =>
    have (q' : TCPSACKRexmitQueue) : Decidable (q'.AllAsserted cs) := decidableAllAsserted q' cs
    inferInstanceAs (Decidable (_ ∧ ∀ q' ∈ (q.call c).toOption, q'.AllAsserted cs))

end TCPSACKRexmitQueue

namespace Scoreboard

/-- An operation on the bytes. -/
def call (b : Scoreboard) : ScoreboardCall → Scoreboard
  | .enqueueSentData fromSeqNum toSeqNum => b.enqueueSentData fromSeqNum toSeqNum
  | .setSackedBit fromSeqNum toSeqNum => b.setSackedBit fromSeqNum toSeqNum
  | .discardUpTo seqNum => b.discardUpTo seqNum
  | .resetSackedBit => b.resetSackedBit
  | .resetRexmittedBit => b.resetRexmittedBit

/-- Operations, one after the other. -/
def run (b : Scoreboard) (cs : List ScoreboardCall) : Scoreboard :=
  cs.foldl call b

end Scoreboard

/-! ### Regions as intervals of positions -/

/-- The positions a region covers. Fewer than half the number space, so that its ends can be
compared. -/
structure RexmitRegion.At (r : RexmitRegion) (x y : ℕ) : Prop where
  begin_eq : r.beginSeqNum = wrap x
  end_eq : r.endSeqNum = wrap y
  le : x ≤ y
  lt : y < x + 2 ^ 31

/-- A position that can be compared with the ends of the regions of `[a, c)`. -/
structure Reaches (a c n : ℕ) : Prop where
  le : a ≤ n
  le_add : n ≤ a + 2 ^ 31
  lt_add : c < n + 2 ^ 31

/-- The regions tile the bytes, which do not span the whole number space. -/
structure TCPSACKRexmitQueue.Valid (q : TCPSACKRexmitQueue) (first last : ℕ) : Prop where
  begin_eq : q.begin = wrap first
  stop_eq : q.stop = wrap last
  tiles : Tiles RexmitRegion.At first last q.rexmitQueue
  lt : last < first + 2 ^ 32

variable {l : List RexmitRegion} {r : RexmitRegion} {a c m n x y : ℕ}

theorem RexmitRegion.At.run_eq (h : r.At x y) : r.run = (y - x, ⟨r.sacked, r.rexmitted⟩) := by
  have hlt := h.lt
  rw [RexmitRegion.run, h.begin_eq, h.end_eq, toNat_wrap_sub_wrap h.le (by omega)]

/-- The test of the loops that skip regions. -/
theorem Reaches.seqLE_iff (h : Reaches a c n) (hr : r.At x y) (hx : a ≤ x) (hlt : x < y)
    (hy : y ≤ c) : seqLE r.endSeqNum (wrap n) ↔ y ≤ n := by
  have hle := h.le_add
  have hlt' := h.lt_add
  rw [hr.end_eq, seqLE_wrap ⟨by omega, by omega⟩]

theorem length_expand_run (h : Tiles RexmitRegion.At a c l) :
    (expand RexmitRegion.run l).length = c - a :=
  h.length_expand fun r x y hr _ ↦ by rw [hr.run_eq]

namespace TCPSACKRexmitQueue

theorem checkRegions_of_tiles (h : Tiles RexmitRegion.At a c l) :
    checkRegions (wrap a) (wrap c) l = true := by
  induction h with
  | nil => simp [checkRegions]
  | cons hr hlt _ ih =>
    have hlt' := hr.lt
    have hless : seqLess (wrap _) (wrap _) := (seqLess_wrap ⟨by omega, by omega⟩).2 hlt
    simp [checkRegions, hr.begin_eq, hr.end_eq, hless, ih]

variable {q : TCPSACKRexmitQueue} {first last : ℕ} {seqNum : UInt32}

theorem Valid.checkQueue (h : q.Valid first last) : q.checkQueue = true := by
  rw [TCPSACKRexmitQueue.checkQueue, h.begin_eq, h.stop_eq]
  exact checkRegions_of_tiles h.tiles

theorem Valid.checked (h : q.Valid first last) : q.checked = .ok q :=
  if_pos h.checkQueue

theorem Valid.length_bytes (h : q.Valid first last) : q.scoreboard.bytes.length = last - first :=
  length_expand_run h.tiles

/-- The position of an argument between `begin` and `end`. -/
theorem Valid.position (h : q.Valid first last) (hge : seqLE q.begin seqNum)
    (hle : seqLE seqNum q.stop) :
    ∃ n, seqNum = wrap n ∧ q.scoreboard.offset seqNum = n - first ∧ Reaches first last n ∧
      n ≤ last ∧ n < first + 2 ^ 31 := by
  have hspan := h.lt
  have hfirst := h.tiles.le
  have hoffset : (seqNum - q.begin).toNat < 2 ^ 31 := hge
  have hseq : wrap (first + (seqNum - q.begin).toNat) = seqNum := by
    rw [h.begin_eq]
    exact wrap_add_sub first seqNum
  refine ⟨first + (seqNum - q.begin).toNat, hseq.symm, (Nat.add_sub_cancel_left ..).symm, ?_⟩
  generalize (seqNum - q.begin).toNat = offset at hoffset hseq
  subst hseq
  -- the distance to the end is less than half the number space one way or the other
  rw [h.stop_eq, seqLE, UInt32.toNat_sub, toNat_wrap, toNat_wrap] at hle
  exact ⟨⟨by omega, by omega, by omega⟩, by omega, by omega⟩

/-- The loops that skip the regions before a position stop at its region or at the end. -/
theorem skip_spec (h : Tiles RexmitRegion.At a c l) (hn : Reaches a c n) :
    ∃ before rest x, l.takeWhile (seqLE ·.endSeqNum (wrap n)) = before ∧
      l.dropWhile (seqLE ·.endSeqNum (wrap n)) = rest ∧ l = before ++ rest ∧ x ≤ n ∧
      Tiles RexmitRegion.At a x before ∧ (rest = [] ∧ x = c ∨ ∃ i rest' y, rest = i :: rest' ∧
        i.At x y ∧ n < y ∧ Tiles RexmitRegion.At y c rest') := by
  obtain ⟨x, hxn, htake, hdrop⟩ :=
    h.exists_cut (p := fun r ↦ seqLE r.endSeqNum (wrap n)) hn.le fun r x y hr hx hlt hy ↦ by
      rw [decide_eq_true_iff]
      exact hn.seqLE_iff hr hx hlt hy
  exact ⟨_, _, x, rfl, rfl, List.takeWhile_append_dropWhile.symm, hxn, htake, hdrop⟩

/-- The position of an argument that is not before `begin`, but before `end`. -/
theorem Valid.position_of_seqLess (h : q.Valid first last) (hless : seqLess seqNum q.stop)
    (hnot : ¬ seqLess seqNum q.begin) :
    ∃ n, seqNum = wrap n ∧ q.scoreboard.offset seqNum = n - first ∧ Reaches first last n ∧
      n < last := by
  have hspan := h.lt
  have hfirst := h.tiles.le
  have hseq : wrap (first + (seqNum - q.begin).toNat) = seqNum := by
    rw [h.begin_eq]
    exact wrap_add_sub first seqNum
  refine ⟨first + (seqNum - q.begin).toNat, hseq.symm, (Nat.add_sub_cancel_left ..).symm, ?_⟩
  have hoffset := (seqNum - q.begin).toNat_lt
  generalize (seqNum - q.begin).toNat = offset at hseq hoffset
  subst hseq
  rw [h.begin_eq, seqLess, UInt32.toNat_sub, toNat_wrap, toNat_wrap] at hnot
  have hne : first + offset ≠ last := fun heq ↦ hless.1 (by rw [heq, h.stop_eq])
  have hbegin : offset ≠ 0 → wrap (first + offset) ≠ wrap first := by
    intro hpos heq
    rw [← UInt32.toNat_inj, toNat_wrap, toNat_wrap] at heq
    omega
  have hlt := hless.2
  rw [h.stop_eq, UInt32.toNat_sub, toNat_wrap, toNat_wrap] at hlt
  by_cases hzero : offset = 0
  · exact ⟨⟨by omega, by omega, by omega⟩, by omega⟩
  · have hfar : ¬ (2 ^ 32 - (first + offset) % 2 ^ 32 + first % 2 ^ 32) % 2 ^ 32 < 2 ^ 31 :=
      fun hlt ↦ hnot ⟨hbegin hzero, hlt⟩
    exact ⟨⟨by omega, by omega, by omega⟩, by omega⟩

/-- **The search finds the region of a byte.** -/
theorem search_spec (h : Tiles RexmitRegion.At a c l) (hn : Reaches a c n) (hlt : n < c) :
    ∃ before i rest x y, search l (wrap n) = .ok (before, i, rest) ∧ l = before ++ i :: rest ∧
      l.dropWhile (seqLE ·.endSeqNum (wrap n)) = i :: rest ∧
      Tiles RexmitRegion.At a x before ∧ i.At x y ∧ x ≤ n ∧ n < y ∧
      Tiles RexmitRegion.At y c rest := by
  obtain ⟨before, tail, x, htake, hdrop, hl, hxn, hbefore,
    ⟨rfl, rfl⟩ | ⟨i, rest, y, rfl, hi, hny, hrest⟩⟩ := skip_spec h hn
  · exact absurd hlt (not_lt.2 hxn)
  · have hiy := hi.lt
    refine ⟨before, i, rest, x, y, ?_, hl, hdrop, hbefore, hi, hxn, hny, hrest⟩
    rw [search, hdrop, htake]
    refine if_pos ⟨?_, ?_⟩
    · rw [hi.begin_eq, seqLE_wrap ⟨by omega, by omega⟩]
      exact hxn
    · rw [hi.end_eq, seqLess_wrap ⟨by omega, by omega⟩]
      exact hny

/-- A region that is cut at a position. -/
theorem cut_region (h : r.At x y) (hx : x ≤ n) (hy : n ≤ y) :
    RexmitRegion.At { r with endSeqNum := wrap n } x n ∧
      RexmitRegion.At { r with beginSeqNum := wrap n } n y ∧
      ∀ l, expand RexmitRegion.run [{ r with endSeqNum := wrap n }] ++
        expand RexmitRegion.run ({ r with beginSeqNum := wrap n } :: l) =
          expand RexmitRegion.run (r :: l) := by
  have hlt := h.lt
  have hleft : RexmitRegion.At { r with endSeqNum := wrap n } x n := ⟨h.begin_eq, rfl, hx, by omega⟩
  have hright : RexmitRegion.At { r with beginSeqNum := wrap n } n y := ⟨rfl, h.end_eq, hy, by omega⟩
  refine ⟨hleft, hright, fun l ↦ ?_⟩
  have hsum : n - x + (y - n) = y - x := by omega
  rw [expand_singleton, expand_cons, expand_cons, hleft.run_eq, hright.run_eq, h.run_eq,
    ← List.append_assoc, List.replicate_append_replicate, hsum]

/-- **Chunking** makes a position a boundary and says the same of every byte. -/
theorem chunkAt_spec (h : Tiles RexmitRegion.At a c l) (hn : Reaches a c n) (hlt : n < c) :
    ∃ before rest, chunkAt l (wrap n) = .ok (before, rest) ∧ Tiles RexmitRegion.At a n before ∧
      Tiles RexmitRegion.At n c rest ∧
      expand RexmitRegion.run l = expand RexmitRegion.run before ++ expand RexmitRegion.run rest := by
  obtain ⟨before, i, rest, x, y, hsearch, rfl, -, hbefore, hi, hxn, hny, hrest⟩ :=
    search_spec h hn hlt
  have hiy := hi.lt
  rw [chunkAt, hsearch]
  rcases hxn.lt_or_eq with hlt' | rfl
  · have hne : i.beginSeqNum ≠ wrap n := by
      rw [hi.begin_eq, ne_eq, wrap_eq_wrap ⟨by omega, by omega⟩]
      omega
    obtain ⟨hleft, hright, hexpand⟩ := cut_region hi hxn hny.le
    refine ⟨_, _, if_pos hne, hbefore.append (.single hleft hlt'), .cons hright hny hrest, ?_⟩
    rw [expand_append, expand_append, List.append_assoc, hexpand]
  · have heq : ¬ i.beginSeqNum ≠ wrap x := not_not.2 hi.begin_eq
    exact ⟨_, _, if_neg heq, hbefore, .cons hi hny hrest, expand_append⟩

theorem endOfPassed_eq (h : Tiles RexmitRegion.At a c l) : endOfPassed l (wrap a) = wrap c := by
  rcases List.eq_nil_or_concat l with rfl | ⟨l, r, rfl⟩
  · rw [tiles_nil.1 h]
    rfl
  · rw [List.concat_eq_append] at h ⊢
    obtain ⟨b, -, hr, -⟩ := tiles_concat.1 h
    rw [endOfPassed, List.getLast?_append]
    exact hr.end_eq

/-- Marking regions marks their bytes. -/
theorem expand_marked {f : RexmitRegion → RexmitRegion} {g : Flags → Flags}
    (hf : ∀ r, (f r).run = (r.run.1, g r.run.2)) :
    expand RexmitRegion.run (l.map f) = (expand RexmitRegion.run l).map g :=
  expand_map fun r _ ↦ hf r

/-- **What is sent again is marked as retransmitted, and what is new is added.** -/
theorem markRexmitted_spec (h : Tiles RexmitRegion.At n c l) (hnt : n < m) (hm : m < n + 2 ^ 31)
    (hc : c < n + 2 ^ 31) :
    ∃ l' ys zs, markRexmitted l (wrap n) (wrap m) = .ok l' ∧
      Tiles RexmitRegion.At n (max c m) l' ∧ expand RexmitRegion.run l = ys ++ zs ∧
      ys.length ≤ m - n ∧ (zs = [] ∨ m - n ≤ ys.length) ∧
      expand RexmitRegion.run l' =
        ys.map ({ · with rexmitted := true }) ++ zs ++ List.replicate (m - c) ⟨false, false⟩ := by
  obtain ⟨passed, tail, x, htakeWhile, hdrop, rfl, hxm, htake, hrest⟩ :=
    skip_spec h ⟨hnt.le, by omega, by omega⟩
  have hnx := htake.le
  rw [markRexmitted, htakeWhile, hdrop, endOfPassed_eq htake]
  have hlength := length_expand_run htake
  have hmarked : Tiles RexmitRegion.At n x (passed.map ({ · with rexmitted := true })) :=
    htake.map fun r x y hr _ _ _ ↦ ⟨hr.begin_eq, hr.end_eq, hr.le, hr.lt⟩
  have hexpand : expand RexmitRegion.run (passed.map ({ · with rexmitted := true })) =
      (expand RexmitRegion.run passed).map ({ · with rexmitted := true }) :=
    expand_marked fun r ↦ rfl
  have hpassed : n < x → passed ≠ [] := by
    rintro hlt rfl
    exact hlt.ne (tiles_nil.1 htake)
  rcases hrest with ⟨rfl, rfl⟩ | ⟨i, rest, y, rfl, hi, hmy, hrest⟩
  · -- the end of the queue has been passed
    rw [List.append_nil]
    rcases hxm.lt_or_eq with hlt | rfl
    · have hne : wrap x ≠ wrap m := by
        rw [ne_eq, wrap_eq_wrap ⟨by omega, by omega⟩]
        omega
      have hnew : RexmitRegion.At ⟨wrap x, wrap m, false, false⟩ x m :=
        ⟨rfl, rfl, hxm, by omega⟩
      refine ⟨_, expand RexmitRegion.run passed, [], if_pos hne, ?_, expand_append,
        by omega, .inl rfl, ?_⟩
      · rw [max_eq_right hxm]
        exact hmarked.append (.single hnew hlt)
      · rw [expand_append, hexpand, expand_singleton, hnew.run_eq, List.append_nil]
    · refine ⟨_, expand RexmitRegion.run passed, [],
        (if_neg (not_not.2 rfl)).trans (if_neg (hpassed hnt)), ?_, expand_append,
        by omega, .inl rfl, ?_⟩
      · rw [max_self]
        exact hmarked
      · rw [hexpand, Nat.sub_self, List.replicate_zero, List.append_nil, List.append_nil]
  · have hyc := hrest.le
    have hiy := hi.lt
    have hmax : max c m = c := max_eq_left (by omega)
    have hzero : m - c = 0 := by omega
    rw [hmax, hzero, List.replicate_zero]
    simp only [List.append_nil]
    rcases hxm.lt_or_eq with hlt | rfl
    · -- the last region is cut
      have hne : wrap x ≠ wrap m := by
        rw [ne_eq, wrap_eq_wrap ⟨by omega, by omega⟩]
        omega
      have hless : seqLess i.beginSeqNum (wrap m) := by
        rw [hi.begin_eq, seqLess_wrap ⟨by omega, by omega⟩]
        exact hlt
      obtain ⟨hleft, hright, hcut⟩ := cut_region hi hxm hmy.le
      have hnew : RexmitRegion.At ⟨wrap x, wrap m, i.sacked, true⟩ x m := ⟨rfl, rfl, hxm, by omega⟩
      have hlength' := length_expand_run (.single hleft hlt)
      refine ⟨_,
        expand RexmitRegion.run passed ++ expand RexmitRegion.run [{ i with endSeqNum := wrap m }],
        expand RexmitRegion.run ({ i with beginSeqNum := wrap m } :: rest),
        (if_pos hne).trans (if_pos hless),
        hmarked.append (.cons hnew hlt (.cons hright hmy hrest)), ?_, ?_, .inr ?_, ?_⟩
      · rw [expand_append, List.append_assoc, hcut]
      · rw [List.length_append]
        omega
      · rw [List.length_append]
        omega
      · rw [expand_append, hexpand, expand_cons, expand_singleton, hnew.run_eq, hleft.run_eq,
          List.map_append, List.map_replicate, List.append_assoc]
    · refine ⟨_, expand RexmitRegion.run passed, expand RexmitRegion.run (i :: rest),
        (if_neg (not_not.2 rfl)).trans (if_neg (hpassed hnt)),
        hmarked.append (.cons hi hmy hrest), expand_append, by omega, .inr (by omega), ?_⟩
      rw [expand_append, hexpand]

/-- **What is sacked is marked.** -/
theorem markSacked_spec (h : Tiles RexmitRegion.At n c l) (hnt : n < m) (hm : m ≤ c)
    (hc : c < n + 2 ^ 31) :
    ∃ ys zs, Tiles RexmitRegion.At n c (markSacked l (wrap n) (wrap m)) ∧
      expand RexmitRegion.run l = ys ++ zs ∧ ys.length = m - n ∧
      expand RexmitRegion.run (markSacked l (wrap n) (wrap m)) =
        ys.map ({ · with sacked := true }) ++ zs := by
  obtain ⟨passed, tail, x, htakeWhile, hdrop, rfl, hxm, htake, hrest⟩ :=
    skip_spec h ⟨hnt.le, by omega, by omega⟩
  have hnx := htake.le
  have hmark : passed.map (fun i ↦
      if seqGE i.beginSeqNum (wrap n) then { i with sacked := true } else i) =
        passed.map ({ · with sacked := true }) := by
    refine List.map_congr_left fun r hr ↦ if_pos ?_
    obtain ⟨y, z, hat, hle, hlt, hle'⟩ := htake.exists_of_mem hr
    rw [hat.begin_eq, seqGE_wrap ⟨by omega, by omega⟩]
    exact hle
  rw [markSacked, htakeWhile, hdrop, hmark]
  have hlength := length_expand_run htake
  have hmarked : Tiles RexmitRegion.At n x (passed.map ({ · with sacked := true })) :=
    htake.map fun r x y hr _ _ _ ↦ ⟨hr.begin_eq, hr.end_eq, hr.le, hr.lt⟩
  have hexpand : expand RexmitRegion.run (passed.map ({ · with sacked := true })) =
      (expand RexmitRegion.run passed).map ({ · with sacked := true }) :=
    expand_marked fun r ↦ rfl
  rcases hrest with ⟨rfl, rfl⟩ | ⟨i, rest, y, rfl, hi, hmy, hrest⟩
  · obtain rfl : x = m := hxm.antisymm hm
    refine ⟨expand RexmitRegion.run passed, [], hmarked, ?_, hlength, ?_⟩
    · rw [List.append_nil, List.append_nil]
    · rw [hexpand, List.append_nil]
  · have hiy := hi.lt
    have hinside : seqLess i.beginSeqNum (wrap m) ∧ seqLess (wrap m) i.endSeqNum ↔ x < m := by
      rw [hi.begin_eq, hi.end_eq, seqLess_wrap ⟨by omega, by omega⟩,
        seqLess_wrap ⟨by omega, by omega⟩]
      exact and_iff_left hmy
    dsimp only
    rcases hxm.lt_or_eq with hlt | rfl
    · -- the last region is cut
      obtain ⟨hleft, hright, hcut⟩ := cut_region hi hxm hmy.le
      have hnew : RexmitRegion.At { i with endSeqNum := wrap m, sacked := true } x m :=
        ⟨hleft.begin_eq, rfl, hxm, hleft.lt⟩
      have hlength' := length_expand_run (.single hleft hlt)
      rw [if_pos (hinside.2 hlt)]
      refine ⟨
        expand RexmitRegion.run passed ++ expand RexmitRegion.run [{ i with endSeqNum := wrap m }],
        expand RexmitRegion.run ({ i with beginSeqNum := wrap m } :: rest),
        hmarked.append (.cons hnew hlt (.cons hright hmy hrest)), ?_, ?_, ?_⟩
      · rw [expand_append, List.append_assoc, hcut]
      · rw [List.length_append]
        omega
      · rw [expand_append, hexpand, expand_cons, expand_singleton, hnew.run_eq, hleft.run_eq,
          List.map_append, List.map_replicate, List.append_assoc]
    · rw [if_neg (mt hinside.1 (lt_irrefl x))]
      refine ⟨expand RexmitRegion.run passed, expand RexmitRegion.run (i :: rest),
        hmarked.append (.cons hi hmy hrest), expand_append, hlength, ?_⟩
      rw [expand_append, hexpand]

/-! ### Updates -/

/-- The ends of a queue are those of its regions. -/
theorem withRegions_eq (h : Tiles RexmitRegion.At a c l) (hlt : a < c) :
    q.withRegions l = .ok ⟨l, wrap a, wrap c⟩ := by
  have hcheck : checkRegions (wrap a) (wrap c) l = true := checkRegions_of_tiles h
  obtain ⟨r, l', rfl⟩ : ∃ r l', l = r :: l' := by
    cases h with
    | nil => exact absurd hlt (lt_irrefl _)
    | cons => exact ⟨_, _, rfl⟩
  obtain ⟨l'', r', hl⟩ := (List.eq_nil_or_concat (r :: l')).resolve_left (List.cons_ne_nil _ _)
  obtain ⟨b, hr, -⟩ := tiles_cons.1 h
  rw [List.concat_eq_append] at hl
  rw [hl] at h
  obtain ⟨b', -, hr', -⟩ := tiles_concat.1 h
  have hlast : (r :: l').getLast? = some r' := by rw [hl, List.getLast?_concat]
  rw [withRegions, List.head?_cons, hlast]
  dsimp only
  rw [hr.begin_eq, hr'.end_eq]
  exact if_pos hcheck

theorem Valid.discardUpTo (h : q.Valid first last) (hge : seqLE q.begin seqNum)
    (hle : seqLE seqNum q.stop) :
    ∃ q' first', q.discardUpTo seqNum = .ok q' ∧ q'.Valid first' last ∧
      q'.scoreboard = q.scoreboard.discardUpTo seqNum := by
  obtain ⟨n, hseq, hoffset, hn, hnlast, -⟩ := h.position hge hle
  obtain ⟨before, tail, x, -, hdrop, hl, hxn, hbefore, hrest⟩ := skip_spec h.tiles hn
  have hlt := h.lt
  have hfirst := hn.le
  have hlength := length_expand_run hbefore
  rw [TCPSACKRexmitQueue.discardUpTo, if_neg (not_not.2 ⟨hge, hle⟩)]
  rw [← hseq] at hdrop
  rcases hrest with ⟨rfl, rfl⟩ | ⟨i, rest, y, rfl, hi, hny, hrest⟩
  · obtain rfl : x = n := hxn.antisymm hnlast
    have hvalid : Valid { q with rexmitQueue := [], begin := seqNum } x x :=
      ⟨hseq, h.stop_eq, .nil x, by omega⟩
    refine ⟨_, x, ?_, hvalid, ?_⟩
    · rw [hdrop]
      exact hvalid.checked
    · rw [scoreboard, Scoreboard.discardUpTo, hoffset, scoreboard, hl, List.append_nil,
        List.drop_of_length_le hlength.le, expand_nil]
  · obtain ⟨hleft, hright, hcut⟩ := cut_region hi hxn hny.le
    have hiy := hi.lt
    have hvalid : Valid { q with
        rexmitQueue := { i with beginSeqNum := seqNum } :: rest, begin := seqNum } n last :=
      ⟨hseq, h.stop_eq, .cons (hseq ▸ hright) hny hrest, by omega⟩
    refine ⟨_, n, ?_, hvalid, ?_⟩
    · have hinside : seqLE i.beginSeqNum seqNum ∧ seqLess seqNum i.endSeqNum := by
        rw [hi.begin_eq, hi.end_eq, hseq, seqLE_wrap ⟨by omega, by omega⟩,
          seqLess_wrap ⟨by omega, by omega⟩]
        exact ⟨hxn, hny⟩
      rw [hdrop]
      exact (if_pos hinside).trans hvalid.checked
    · have hcutlength : (expand RexmitRegion.run before ++
          expand RexmitRegion.run [{ i with endSeqNum := wrap n }]).length = n - first := by
        rw [List.length_append, hlength, expand_singleton, List.length_replicate, hleft.run_eq]
        have := hbefore.le
        omega
      rw [scoreboard, Scoreboard.discardUpTo, hoffset, scoreboard, hl, expand_append, ← hcut,
        ← List.append_assoc, List.drop_left' hcutlength, ← hseq]

theorem Valid.enqueueSentData (h : q.Valid first last) {fromSeqNum toSeqNum : UInt32}
    (hge : seqLE q.begin fromSeqNum) (hle : seqLE fromSeqNum q.stop)
    (hless : seqLess fromSeqNum toSeqNum) :
    ∃ q' last', q.enqueueSentData fromSeqNum toSeqNum = .ok q' ∧ q'.Valid first last' ∧
      q'.scoreboard = q.scoreboard.enqueueSentData fromSeqNum toSeqNum := by
  obtain ⟨n, hfrom, hoffset, hn, hnlast, hnfirst⟩ := h.position hge hle
  have hfirst := hn.le
  have hlast := hn.lt_add
  -- the position of the end of the new data
  obtain ⟨m, hto, hnm, hmn⟩ : ∃ m, toSeqNum = wrap m ∧ n < m ∧ m < n + 2 ^ 31 := by
    obtain ⟨hne, hlt⟩ := hless
    rw [hfrom] at hne hlt
    refine ⟨n + (toSeqNum - wrap n).toNat, (wrap_add_sub n toSeqNum).symm, ?_, by omega⟩
    have hpos : (toSeqNum - wrap n).toNat ≠ 0 := fun hzero ↦ by
      have heq := wrap_add_sub n toSeqNum
      rw [hzero] at heq
      exact hne heq
    omega
  have hoffset' : q.scoreboard.offset toSeqNum = m - first := by
    rw [Scoreboard.offset, hto]
    show (wrap m - q.begin).toNat = _
    rw [h.begin_eq, toNat_wrap_sub_wrap (by omega) (by omega)]
  have hlength := h.length_bytes
  rw [TCPSACKRexmitQueue.enqueueSentData, if_neg (not_not.2 ⟨hge, hle, hless⟩)]
  -- what the new regions have to say
  have hfinish {l : List RexmitRegion} (xs ys zs : List Flags)
      (htiles : Tiles RexmitRegion.At first (max last m) l)
      (hbytes : expand RexmitRegion.run q.rexmitQueue = xs ++ ys ++ zs)
      (hxs : xs.length = n - first) (hys : ys.length ≤ m - n) (hzs : zs = [] ∨ m - n ≤ ys.length)
      (hexpand : expand RexmitRegion.run l = xs ++ ys.map ({ · with rexmitted := true }) ++ zs ++
        List.replicate (m - last) ⟨false, false⟩) :
      ∃ q' last', q.withRegions l = .ok q' ∧ q'.Valid first last' ∧
        q'.scoreboard = q.scoreboard.enqueueSentData fromSeqNum toSeqNum := by
    have hspan : max last m < first + 2 ^ 32 := max_lt h.lt (by omega)
    refine ⟨_, max last m, withRegions_eq htiles (by omega), ⟨rfl, rfl, htiles, hspan⟩, ?_⟩
    have hnew : m - first - q.scoreboard.bytes.length = m - last := by omega
    rw [scoreboard, Scoreboard.enqueueSentData, hoffset, hoffset', hnew, hexpand]
    have hmodify := modifyRange_append (f := ({ · with rexmitted := true })) hxs
      (show n - first + ys.length ≤ m - first by omega)
      (show zs = [] ∨ m - first ≤ n - first + ys.length from hzs.imp_right fun hle ↦ by omega)
    rw [← hbytes] at hmodify
    rw [scoreboard, hmodify, h.begin_eq]
  by_cases hend : q.rexmitQueue = [] ∨ q.stop = fromSeqNum
  · -- the data is new
    obtain rfl : n = last := by
      rcases hend with hnil | heq
      · have htiles := h.tiles
        rw [hnil, tiles_nil] at htiles
        omega
      · rw [h.stop_eq, hfrom, wrap_eq_wrap ⟨by omega, by omega⟩] at heq
        exact heq.symm
    rw [if_pos hend]
    have hnew : RexmitRegion.At ⟨fromSeqNum, toSeqNum, false, false⟩ n m :=
      ⟨hfrom, hto, hnm.le, hmn⟩
    refine hfinish (expand RexmitRegion.run q.rexmitQueue) [] [] ?_ ?_ hlength
      (Nat.zero_le _) (.inl rfl) ?_
    · rw [max_eq_right hnm.le]
      exact h.tiles.append (.single hnew hnm)
    · rw [List.append_nil, List.append_nil]
    · rw [expand_append, expand_singleton, hnew.run_eq, List.map_nil, List.append_nil,
        List.append_nil]
  · -- the data is in the queue already, or its first part
    have hlt : n < last := by
      refine lt_of_le_of_ne hnlast fun heq ↦ hend (.inr ?_)
      rw [h.stop_eq, hfrom, heq]
    obtain ⟨before, rest, hchunk, hbefore, hrest, hexpand⟩ := chunkAt_spec h.tiles hn hlt
    obtain ⟨l, ys, zs, hmark, hl, hsplit, hys, hzs, hexpand'⟩ :=
      markRexmitted_spec hrest hnm hmn (by omega)
    rw [if_neg hend, hfrom, hto, hchunk]
    show ∃ q' last', ((markRexmitted rest (wrap n) (wrap m)).bind fun regions ↦
      q.withRegions (before ++ regions)) = .ok q' ∧ _
    rw [hmark, ← hfrom, ← hto]
    refine hfinish _ _ _ (hbefore.append hl) ?_ (length_expand_run hbefore) hys hzs ?_
    · rw [hexpand, hsplit, List.append_assoc]
    · rw [expand_append, hexpand']
      simp only [List.append_assoc]

theorem Valid.setSackedBit (h : q.Valid first last) {fromSeqNum toSeqNum : UInt32}
    (hfrom : seqLess (q.sackedFrom fromSeqNum) q.stop) (hbegin : seqLess q.begin toSeqNum)
    (hto : seqLE toSeqNum q.stop) (hless : seqLess (q.sackedFrom fromSeqNum) toSeqNum) :
    ∃ q', q.setSackedBit fromSeqNum toSeqNum = .ok q' ∧ q'.Valid first last ∧
      q'.scoreboard = q.scoreboard.setSackedBit fromSeqNum toSeqNum := by
  have hspan := h.lt
  have hle := h.tiles.le
  obtain ⟨m, rfl, hoffset, hm, hmlast, hmfirst⟩ := h.position hbegin.2 hto
  -- the position of the first byte
  obtain ⟨n, hn, hoffset', hreach, hnlast⟩ : ∃ n, q.sackedFrom fromSeqNum = wrap n ∧
      (if seqLess fromSeqNum q.begin then 0 else q.scoreboard.offset fromSeqNum) = n - first ∧
      Reaches first last n ∧ n < last := by
    rw [sackedFrom] at hfrom ⊢
    split_ifs at hfrom ⊢ with hbefore
    · rw [h.begin_eq, h.stop_eq, seqLess, toNat_wrap_sub_wrap hle (by omega)] at hfrom
      have hne : first ≠ last := fun heq ↦ hfrom.1 (by rw [heq])
      exact ⟨first, h.begin_eq, (Nat.sub_self first).symm, ⟨le_rfl, by omega, by omega⟩, by omega⟩
    · exact h.position_of_seqLess hfrom hbefore
  have hlen := hreach.lt_add
  have hfirst := hreach.le
  rw [hn] at hless
  have hnm : n < m := by
    have hle' := hreach.le_add
    rw [h.begin_eq] at hbegin
    have hfirstm := (seqLess_wrap ⟨by have := hm.le; omega, hmfirst⟩).1 hbegin
    rwa [seqLess_wrap ⟨by omega, by omega⟩] at hless
  obtain ⟨before, rest, hchunk, hbefore, hrest, hexpand⟩ := chunkAt_spec h.tiles hreach hnlast
  obtain ⟨ys, zs, hl, hsplit, hys, hexpand'⟩ := markSacked_spec hrest hnm hmlast (by omega)
  have hvalid : Valid { q with rexmitQueue := before ++ markSacked rest (wrap n) (wrap m) }
      first last :=
    ⟨h.begin_eq, h.stop_eq, hbefore.append hl, h.lt⟩
  have hxs := length_expand_run hbefore
  refine ⟨_, ?_, hvalid, ?_⟩
  · have hnonempty : q.rexmitQueue ≠ [] := by
      intro hnil
      have htiles := h.tiles
      rw [hnil, tiles_nil] at htiles
      omega
    rw [TCPSACKRexmitQueue.setSackedBit, if_neg (not_not.2 ⟨hfrom, hbegin, hto, hn ▸ hless⟩),
      if_neg hnonempty, hn, hchunk]
    exact hvalid.checked
  · rw [scoreboard, Scoreboard.setSackedBit, hoffset]
    show Scoreboard.mk _ _ = ⟨_, modifyRange (if seqLess fromSeqNum q.begin then 0 else _) _ _ _⟩
    rw [hoffset']
    have hmodify := modifyRange_append (f := ({ · with sacked := true })) hxs
      (show n - first + ys.length ≤ m - first by omega)
      (show zs = [] ∨ m - first ≤ n - first + ys.length from .inr (by omega))
    rw [List.append_assoc, ← hsplit, ← hexpand] at hmodify
    rw [scoreboard, hmodify, expand_append, hexpand', List.append_assoc]

theorem Valid.resetSackedBit (h : q.Valid first last) :
    q.resetSackedBit.Valid first last ∧ q.resetSackedBit.scoreboard = q.scoreboard.resetSackedBit :=
  ⟨⟨h.begin_eq, h.stop_eq,
      h.tiles.map fun _ _ _ hr _ _ _ ↦ ⟨hr.begin_eq, hr.end_eq, hr.le, hr.lt⟩, h.lt⟩,
    congrArg (Scoreboard.mk q.begin) (expand_marked fun _ ↦ rfl)⟩

theorem Valid.resetRexmittedBit (h : q.Valid first last) :
    q.resetRexmittedBit.Valid first last ∧
      q.resetRexmittedBit.scoreboard = q.scoreboard.resetRexmittedBit :=
  ⟨⟨h.begin_eq, h.stop_eq,
      h.tiles.map fun _ _ _ hr _ _ _ ↦ ⟨hr.begin_eq, hr.end_eq, hr.le, hr.lt⟩, h.lt⟩,
    congrArg (Scoreboard.mk q.begin) (expand_marked fun _ ↦ rfl)⟩

/-- **Every operation is that of the bytes.** -/
theorem Valid.call (h : q.Valid first last) {c : ScoreboardCall} (hc : q.Asserted c) :
    ∃ q' first' last', q.call c = .ok q' ∧ q'.Valid first' last' ∧
      q'.scoreboard = q.scoreboard.call c := by
  cases c with
  | enqueueSentData fromSeqNum toSeqNum =>
    obtain ⟨q', last', hcall, hvalid, hboard⟩ := h.enqueueSentData hc.1 hc.2.1 hc.2.2
    exact ⟨q', first, last', hcall, hvalid, hboard⟩
  | setSackedBit fromSeqNum toSeqNum =>
    obtain ⟨q', hcall, hvalid, hboard⟩ := h.setSackedBit hc.1 hc.2.1 hc.2.2.1 hc.2.2.2
    exact ⟨q', first, last, hcall, hvalid, hboard⟩
  | discardUpTo seqNum =>
    obtain ⟨q', first', hcall, hvalid, hboard⟩ := h.discardUpTo hc.1 hc.2
    exact ⟨q', first', last, hcall, hvalid, hboard⟩
  | resetSackedBit => exact ⟨_, first, last, rfl, h.resetSackedBit⟩
  | resetRexmittedBit => exact ⟨_, first, last, rfl, h.resetRexmittedBit⟩

/-! ### Queries -/

/-- The bytes from a position on. -/
theorem drop_expand {before : List RexmitRegion} {i : RexmitRegion} (rest : List RexmitRegion)
    (hbefore : Tiles RexmitRegion.At a x before) (hi : i.At x y) (hxn : x ≤ n) (hny : n ≤ y) :
    (expand RexmitRegion.run (before ++ i :: rest)).drop (n - a) =
      List.replicate (y - n) ⟨i.sacked, i.rexmitted⟩ ++ expand RexmitRegion.run rest := by
  obtain ⟨hleft, hright, hcut⟩ := cut_region hi hxn hny
  have hlength : (expand RexmitRegion.run before ++
      expand RexmitRegion.run [{ i with endSeqNum := wrap n }]).length = n - a := by
    have hle := hbefore.le
    rw [List.length_append, length_expand_run hbefore, expand_singleton, List.length_replicate,
      hleft.run_eq]
    omega
  rw [expand_append, ← hcut, ← List.append_assoc, List.drop_left' hlength, expand_cons,
    hright.run_eq]

theorem Valid.getSackedBit (h : q.Valid first last) (hge : seqLE q.begin seqNum)
    (hle : seqLE seqNum q.stop) :
    q.getSackedBit seqNum = .ok (q.scoreboard.getSackedBit seqNum) := by
  obtain ⟨n, rfl, hoffset, hn, hnlast, -⟩ := h.position hge hle
  have hlast := hn.lt_add
  rw [TCPSACKRexmitQueue.getSackedBit, if_neg (not_not.2 ⟨hge, hle⟩), Scoreboard.getSackedBit,
    hoffset]
  have hstop : q.stop = wrap n ↔ last = n := by
    rw [h.stop_eq, wrap_eq_wrap ⟨by omega, by omega⟩]
  rcases hnlast.lt_or_eq with hlt | rfl
  · obtain ⟨before, i, rest, x, y, hsearch, hl, -, hbefore, hi, hxn, hny, -⟩ :=
      search_spec h.tiles hn hlt
    have hdrop := drop_expand rest hbefore hi hxn hny.le
    have hpos : y - n ≠ 0 := by omega
    rw [if_neg fun heq ↦ hlt.ne' (hstop.1 heq), hsearch, scoreboard, hl, ← List.head?_drop, hdrop,
      List.head?_append, List.head?_replicate, if_neg hpos]
    rfl
  · have hnone : q.scoreboard.bytes[n - first]? = none :=
      List.getElem?_eq_none h.length_bytes.le
    rw [if_pos (hstop.2 rfl), hnone]
    rfl

/-- The loop that looks for a bit from the back. -/
theorem highest_spec {bit : RexmitRegion → Bool} {bit' : Flags → Bool}
    (hbit : ∀ r, bit r = bit' r.run.2) (h : Tiles RexmitRegion.At a c l) :
    ((l.reverse.find? bit).map RexmitRegion.endSeqNum).getD (wrap a) =
      wrap (a + ((expand RexmitRegion.run l).rdropWhile (! bit' ·)).length) := by
  induction l using List.reverseRecOn generalizing c with
  | nil => rfl
  | append_singleton l r ih =>
    have hlength := length_expand_run h
    have hle := h.le
    obtain ⟨b, hl, hr, hlt⟩ := tiles_concat.1 h
    rw [expand_append, expand_singleton] at hlength ⊢
    rw [List.reverse_append, List.reverse_singleton, List.singleton_append, List.find?_cons]
    cases hr' : bit r with
    | true =>
      have hpos : 0 < r.run.1 := by
        rw [hr.run_eq]
        exact Nat.sub_pos_of_lt hlt
      have hnot : ¬ (! bit' r.run.2) = true := by simp [← hbit, hr']
      rw [rdropWhile_append_replicate_of_not (p := (! bit' ·)) hnot _ hpos, hlength,
        Nat.add_sub_cancel' hle]
      exact hr.end_eq
    | false =>
      have hpos : (! bit' r.run.2) = true := by simp [← hbit, hr']
      rw [rdropWhile_append_replicate (p := (! bit' ·)) hpos]
      exact ih hl

theorem Valid.getHighest (h : q.Valid first last) {bit : RexmitRegion → Bool} {bit' : Flags → Bool}
    (hbit : ∀ r, bit r = bit' r.run.2) :
    q.getHighest bit = q.scoreboard.getHighest bit' := by
  rw [TCPSACKRexmitQueue.getHighest, Scoreboard.getHighest, h.begin_eq, highest_spec hbit h.tiles,
    ← wrap_add_wrap, ← h.begin_eq]
  rfl

theorem sackedBytes_eq (l : List RexmitRegion) :
    sackedBytes l = wrap ((expand RexmitRegion.run l).countP Flags.sacked) := by
  induction l with
  | nil => rfl
  | cons r l ih =>
    rw [sackedBytes, ih, expand_cons, List.countP_append, ← wrap_add_wrap, List.countP_replicate,
      apply_ite wrap, RexmitRegion.run, wrap_toNat]
    rfl

/-- A count of bytes of the queue fits into a `uint32`. -/
theorem Valid.toNat_wrap (h : q.Valid first last) (hn : n ≤ q.scoreboard.bytes.length) :
    (wrap n).toNat = n := by
  have hspan := h.lt
  have hle := h.tiles.le
  rw [h.length_bytes] at hn
  rw [SerialNumber.toNat_wrap, Nat.mod_eq_of_lt (by omega)]

theorem Valid.getTotalAmountOfSackedBytes (h : q.Valid first last) :
    q.getTotalAmountOfSackedBytes.toNat = q.scoreboard.getTotalAmountOfSackedBytes := by
  rw [TCPSACKRexmitQueue.getTotalAmountOfSackedBytes, sackedBytes_eq]
  exact h.toNat_wrap List.countP_le_length

/-- The loop that adds up sacked bytes from the back. -/
theorem sackedBytesBack_spec (h : Tiles RexmitRegion.At a c l) (hn : Reaches a c n) (hnc : n ≤ c) :
    sackedBytesBack (wrap n) l.reverse =
      wrap (((expand RexmitRegion.run l).drop (n - a)).countP Flags.sacked) := by
  induction l using List.reverseRecOn generalizing c with
  | nil => simp [sackedBytesBack, expand, wrap]
  | append_singleton l r ih =>
    obtain ⟨b, hl, hr, hlt⟩ := tiles_concat.1 h
    have hrun := hr.run_eq
    have hb := hr.lt
    have hab := hl.le
    have hle := hn.le
    have hc := hn.lt_add
    have hlength := length_expand_run hl
    rw [List.reverse_append, List.reverse_singleton, List.singleton_append, sackedBytesBack]
    by_cases hnb : n ≤ b
    · -- the region counts as a whole
      have hskip : seqLE (wrap n) r.beginSeqNum := by
        rw [hr.begin_eq, seqLE_wrap ⟨by omega, by omega⟩]
        exact hnb
      rw [if_pos hskip, ih hl ⟨hle, hn.le_add, by omega⟩ hnb, expand_append,
        List.drop_append_of_le_length (by omega), List.countP_append, expand_singleton,
        List.countP_replicate, Nat.add_comm, ← wrap_add_wrap, apply_ite wrap, RexmitRegion.run,
        wrap_toNat]
      rfl
    · have hskip : ¬ seqLE (wrap n) r.beginSeqNum := by
        rw [hr.begin_eq, seqLE_wrap ⟨by omega, by omega⟩]
        exact hnb
      have hinside : seqLess r.beginSeqNum (wrap n) ∧ seqLess (wrap n) r.endSeqNum ∧ r.sacked = true ↔
          n < c ∧ r.sacked = true := by
        rw [hr.begin_eq, hr.end_eq, seqLess_wrap ⟨by omega, by omega⟩,
          seqLess_wrap ⟨by omega, by omega⟩]
        exact and_iff_right (not_le.1 hnb)
      have hdrop := drop_expand [] hl hr (not_le.1 hnb).le hnc
      rw [expand_nil, List.append_nil] at hdrop
      rw [if_neg hskip, hdrop, List.countP_replicate, apply_ite wrap]
      simp only [hinside]
      rcases hnc.lt_or_eq with hlt' | rfl
      · simp only [hlt', true_and]
        rw [hr.end_eq, ← wrap_toNat (wrap c - wrap n), toNat_wrap_sub_wrap hnc (by omega)]
        rfl
      · simp [wrap]

theorem Valid.getAmountOfSackedBytes (h : q.Valid first last) (hge : seqLE q.begin seqNum)
    (hle : seqLE seqNum q.stop) :
    (q.getAmountOfSackedBytes seqNum).map UInt32.toNat =
      .ok (q.scoreboard.getAmountOfSackedBytes seqNum) := by
  obtain ⟨n, rfl, hoffset, hn, hnlast, -⟩ := h.position hge hle
  rw [TCPSACKRexmitQueue.getAmountOfSackedBytes, if_neg (not_not.2 ⟨hge, hle⟩),
    Scoreboard.getAmountOfSackedBytes, hoffset, sackedBytesBack_spec h.tiles hn hnlast]
  refine congrArg Except.ok (h.toNat_wrap (List.countP_le_length.trans ?_))
  rw [List.length_drop]
  exact Nat.sub_le _ _

/-- A stretch of equal bytes is one block, or none. -/
theorem sackedBlocks_replicate (prevSacked : Bool) (flags : Flags) (bytes : List Flags)
    (hn : 0 < n) :
    Scoreboard.sackedBlocks prevSacked (List.replicate n flags ++ bytes) =
      (if flags.sacked && !prevSacked then 1 else 0) +
        Scoreboard.sackedBlocks flags.sacked bytes := by
  obtain ⟨k, rfl⟩ := Nat.exists_eq_succ_of_ne_zero hn.ne'
  rw [Nat.succ_eq_add_one, List.replicate_succ, List.cons_append, Scoreboard.sackedBlocks]
  congr 1
  clear hn
  induction k with
  | zero => rfl
  | succ k ih =>
    rw [List.replicate_succ, List.cons_append, Scoreboard.sackedBlocks, ih, Bool.and_not_self,
      if_neg Bool.false_ne_true, Nat.zero_add]

theorem sackedBlocks_spec (prevSacked : Bool) (h : Tiles RexmitRegion.At a c l) :
    sackedBlocks prevSacked l =
      wrap (Scoreboard.sackedBlocks prevSacked (expand RexmitRegion.run l)) := by
  induction h generalizing prevSacked with
  | nil => rfl
  | cons hr hlt _ ih =>
    rw [sackedBlocks, ih, expand_cons, hr.run_eq, sackedBlocks_replicate _ _ _ (by omega),
      ← wrap_add_wrap, apply_ite wrap]
    rfl

theorem sackedBlocks_le (prevSacked : Bool) (bytes : List Flags) :
    Scoreboard.sackedBlocks prevSacked bytes ≤ bytes.length := by
  induction bytes generalizing prevSacked with
  | nil => exact le_rfl
  | cons flags bytes ih =>
    have hrest := ih flags.sacked
    rw [Scoreboard.sackedBlocks, List.length_cons]
    split <;> omega

/-- An empty queue, or the end of a queue. -/
theorem Valid.empty_or_end (h : q.Valid first last) (hn : Reaches first last n) (hnlast : n ≤ last) :
    q.rexmitQueue = [] ∨ q.stop = wrap n ↔ n = last := by
  have hle := hn.le
  have hlt := hn.lt_add
  have hstop : q.stop = wrap n ↔ last = n := by
    rw [h.stop_eq, wrap_eq_wrap ⟨by omega, by omega⟩]
  rw [hstop]
  refine ⟨fun hend ↦ ?_, fun heq ↦ .inr heq.symm⟩
  rcases hend with hnil | heq
  · have htiles := h.tiles
    rw [hnil, tiles_nil] at htiles
    omega
  · exact heq.symm

theorem Valid.getNumOfDiscontiguousSacks (h : q.Valid first last) (hge : seqLE q.begin seqNum)
    (hle : seqLE seqNum q.stop) :
    (q.getNumOfDiscontiguousSacks seqNum).map UInt32.toNat =
      .ok (q.scoreboard.getNumOfDiscontiguousSacks seqNum) := by
  obtain ⟨n, rfl, hoffset, hn, hnlast, -⟩ := h.position hge hle
  have hend : (q.rexmitQueue = [] ∨ wrap n = q.stop) ↔ n = last := by
    rw [eq_comm (a := wrap n)]
    exact h.empty_or_end hn hnlast
  rw [TCPSACKRexmitQueue.getNumOfDiscontiguousSacks, if_neg (not_not.2 ⟨hge, hle⟩),
    Scoreboard.getNumOfDiscontiguousSacks, hoffset]
  rcases hnlast.lt_or_eq with hlt | rfl
  · obtain ⟨before, i, rest, x, y, -, hl, hskip, hbefore, hi, hxn, hny, hrest⟩ :=
      search_spec h.tiles hn hlt
    -- the rest of the first region counts as the whole of it
    have hblocks : Scoreboard.sackedBlocks false
        (q.scoreboard.bytes.drop (n - first)) =
          Scoreboard.sackedBlocks false (expand RexmitRegion.run (i :: rest)) := by
      rw [scoreboard, hl, drop_expand rest hbefore hi hxn hny.le, expand_cons, hi.run_eq,
        sackedBlocks_replicate _ _ _ (by omega), sackedBlocks_replicate _ _ _ (by omega)]
    have hle' := sackedBlocks_le false (q.scoreboard.bytes.drop (n - first))
    rw [if_neg (mt hend.1 hlt.ne), hskip,
      sackedBlocks_spec false (.cons hi (hxn.trans_lt hny) hrest), ← hblocks]
    refine congrArg Except.ok (h.toNat_wrap (hle'.trans ?_))
    rw [List.length_drop]
    exact Nat.sub_le _ _
  · rw [if_pos (hend.2 rfl), List.drop_of_length_le h.length_bytes.le]
    rfl

/-- The loop that passes sacked or retransmitted regions. -/
theorem passedBytes_spec (h : Tiles RexmitRegion.At a c l) :
    passedBytes (wrap a) l =
      .ok (wrap ((expand RexmitRegion.run l).takeWhile fun x ↦ x.sacked || x.rexmitted).length) := by
  induction h with
  | nil => rfl
  | @cons a b c r l hr hlt _ ih =>
    have hb := hr.lt
    rw [passedBytes, expand_cons, hr.run_eq, hr.begin_eq, hr.end_eq]
    by_cases hflags : r.sacked ∨ r.rexmitted
    · have hinside : seqLE (wrap a) (wrap a) ∧ seqLess (wrap a) (wrap b) :=
        ⟨(seqLE_wrap ⟨by omega, by omega⟩).2 le_rfl, (seqLess_wrap ⟨by omega, by omega⟩).2 hlt⟩
      rw [if_pos hflags, if_pos hinside, ih, takeWhile_replicate_append (by simpa using hflags),
        List.length_append, List.length_replicate, ← wrap_add_wrap,
        ← toNat_wrap_sub_wrap hlt.le (by omega), wrap_toNat]
      rfl
    · obtain ⟨k, hk⟩ := Nat.exists_eq_succ_of_ne_zero (Nat.sub_pos_of_lt hlt).ne'
      rw [if_neg hflags, hk, Nat.succ_eq_add_one, List.replicate_succ, List.cons_append,
        List.takeWhile_cons_of_neg (by simpa using hflags)]
      rfl

theorem Valid.checkRexmitQueueForSackedOrRexmittedSegments (h : q.Valid first last)
    (hge : seqLE q.begin seqNum) (hle : seqLE seqNum q.stop) :
    (q.checkRexmitQueueForSackedOrRexmittedSegments seqNum).map UInt32.toNat =
      .ok (q.scoreboard.passedBytes seqNum) := by
  obtain ⟨n, rfl, hoffset, hn, hnlast, -⟩ := h.position hge hle
  have hend := h.empty_or_end hn hnlast
  rw [TCPSACKRexmitQueue.checkRexmitQueueForSackedOrRexmittedSegments,
    if_neg (not_not.2 ⟨hge, hle⟩), Scoreboard.passedBytes, hoffset]
  rcases hnlast.lt_or_eq with hlt | rfl
  · obtain ⟨before, i, rest, x, y, -, hl, hskip, hbefore, hi, hxn, hny, hrest⟩ :=
      search_spec h.tiles hn hlt
    have hiy := hi.lt
    obtain ⟨-, hright, -⟩ := cut_region hi hxn hny.le
    -- the first region from `n` on, as far as the loop is concerned
    have hcut : passedBytes (wrap n) (i :: rest) =
        passedBytes (wrap n) ({ i with beginSeqNum := wrap n } :: rest) := by
      have hinside : seqLE i.beginSeqNum (wrap n) ∧ seqLess (wrap n) i.endSeqNum := by
        rw [hi.begin_eq, hi.end_eq, seqLE_wrap ⟨by omega, by omega⟩,
          seqLess_wrap ⟨by omega, by omega⟩]
        exact ⟨hxn, hny⟩
      have hself : seqLE (wrap n) (wrap n) := (seqLE_wrap ⟨by omega, by omega⟩).2 le_rfl
      simp only [passedBytes, if_pos hinside, if_pos (And.intro hself hinside.2)]
    rw [if_neg (mt hend.1 hlt.ne), hskip, hcut, passedBytes_spec (.cons hright hny hrest),
      expand_cons, hright.run_eq]
    have hbytes : q.scoreboard.bytes.drop (n - first) =
        List.replicate (y - n) ⟨i.sacked, i.rexmitted⟩ ++ expand RexmitRegion.run rest := by
      rw [scoreboard, hl]
      exact drop_expand rest hbefore hi hxn hny.le
    rw [← hbytes]
    refine congrArg Except.ok (h.toNat_wrap ((List.takeWhile_sublist _).length_le.trans ?_))
    rw [List.length_drop]
    exact Nat.sub_le _ _
  · rw [if_pos (hend.2 rfl), List.drop_of_length_le h.length_bytes.le]
    rfl

/-- **`checkSackBlock` returns a stretch of equal bytes.** -/
theorem Valid.checkSackBlock (h : q.Valid first last) (hge : seqLE q.begin seqNum)
    (hless : seqLess seqNum q.stop) :
    ∃ length flags, q.checkSackBlock seqNum = .ok (length, flags.sacked, flags.rexmitted) ∧
      0 < length.toNat ∧
      List.replicate length.toNat flags <+: q.scoreboard.bytes.drop (q.scoreboard.offset seqNum) := by
  obtain ⟨n, rfl, hoffset, hn, hnlast, -⟩ := h.position hge hless.2
  have hne : n ≠ last := fun heq ↦ hless.1 (by rw [heq, h.stop_eq])
  obtain ⟨before, i, rest, x, y, hsearch, hl, -, hbefore, hi, hxn, hny, -⟩ :=
    search_spec h.tiles hn (by omega)
  have hiy := hi.lt
  have hlength : (wrap y - wrap n).toNat = y - n := toNat_wrap_sub_wrap hny.le (by omega)
  refine ⟨wrap y - wrap n, ⟨i.sacked, i.rexmitted⟩, ?_, by omega, ?_⟩
  · rw [TCPSACKRexmitQueue.checkSackBlock, if_neg (not_not.2 ⟨hge, hless⟩), hsearch, ← hi.end_eq]
    rfl
  · rw [hoffset, hlength, scoreboard, hl, drop_expand rest hbefore hi hxn hny.le]
    exact List.prefix_append _ _

/-! ### Runs -/

theorem valid_init (startSeq : UInt32) :
    (init {} startSeq).Valid startSeq.toNat startSeq.toNat where
  begin_eq := (wrap_toNat startSeq).symm
  stop_eq := (wrap_toNat startSeq).symm
  tiles := .nil _
  lt := by omega

/-- **Every run is one of the bytes.** -/
theorem Valid.run (h : q.Valid first last) {calls : List ScoreboardCall}
    (hcalls : q.AllAsserted calls) :
    ∃ q' first' last', q.run calls = .ok q' ∧ q'.Valid first' last' ∧
      q'.scoreboard = q.scoreboard.run calls := by
  induction calls generalizing q first last with
  | nil => exact ⟨q, first, last, rfl, h, rfl⟩
  | cons c cs ih =>
    obtain ⟨hc, hcs⟩ := hcalls
    obtain ⟨q', first', last', hcall, hvalid, hboard⟩ := h.call hc
    rw [hcall] at hcs
    obtain ⟨q'', first'', last'', hrun, hvalid', hboard'⟩ := ih hvalid (hcs q' rfl)
    refine ⟨q'', first'', last'', ?_, hvalid', ?_⟩
    · rw [TCPSACKRexmitQueue.run, hcall]
      exact hrun
    · rw [hboard', hboard]
      rfl

end TCPSACKRexmitQueue

open TCPSACKRexmitQueue

/-- **The scoreboard refines a map of bytes.** After any operations that meet the assertions on
entry, none has failed, the regions are contiguous from `begin` to `end` and none is empty, they say
of every byte what the same operations say byte by byte, and the queries are those of the bytes.
`checkSackBlock` returns the bits of a byte, and a number of bytes from it on that have the same. -/
theorem rexmitQueue_refines_bytes (startSeq : UInt32) (calls : List ScoreboardCall)
    (h : (init {} startSeq).AllAsserted calls) :
    ∃ q, (init {} startSeq).run calls = .ok q ∧ q.checkQueue = true ∧
      q.scoreboard = (Scoreboard.mk startSeq []).run calls ∧
      q.scoreboard.bytes.length = (q.stop - q.begin).toNat ∧
      q.getHighestSackedSeqNum = q.scoreboard.getHighest Flags.sacked ∧
      q.getHighestRexmittedSeqNum = q.scoreboard.getHighest Flags.rexmitted ∧
      q.getTotalAmountOfSackedBytes.toNat = q.scoreboard.getTotalAmountOfSackedBytes ∧
      (∀ seqNum, seqLE q.begin seqNum → seqLE seqNum q.stop →
        q.getSackedBit seqNum = .ok (q.scoreboard.getSackedBit seqNum) ∧
        (q.checkRexmitQueueForSackedOrRexmittedSegments seqNum).map UInt32.toNat =
          .ok (q.scoreboard.passedBytes seqNum) ∧
        (q.getAmountOfSackedBytes seqNum).map UInt32.toNat =
          .ok (q.scoreboard.getAmountOfSackedBytes seqNum) ∧
        (q.getNumOfDiscontiguousSacks seqNum).map UInt32.toNat =
          .ok (q.scoreboard.getNumOfDiscontiguousSacks seqNum)) ∧
      ∀ seqNum, seqLE q.begin seqNum → seqLess seqNum q.stop →
        ∃ length flags, q.checkSackBlock seqNum = .ok (length, flags.sacked, flags.rexmitted) ∧
          0 < length.toNat ∧ List.replicate length.toNat flags <+:
            q.scoreboard.bytes.drop (q.scoreboard.offset seqNum) := by
  obtain ⟨q, first, last, hrun, hvalid, hboard⟩ := (valid_init startSeq).run h
  have hspan := hvalid.lt
  refine ⟨q, hrun, hvalid.checkQueue, hboard, ?_, hvalid.getHighest fun _ ↦ rfl,
    hvalid.getHighest fun _ ↦ rfl, hvalid.getTotalAmountOfSackedBytes, fun seqNum hge hle ↦
      ⟨hvalid.getSackedBit hge hle, hvalid.checkRexmitQueueForSackedOrRexmittedSegments hge hle,
        hvalid.getAmountOfSackedBytes hge hle, hvalid.getNumOfDiscontiguousSacks hge hle⟩,
    fun seqNum hge hless ↦ hvalid.checkSackBlock hge hless⟩
  rw [hvalid.length_bytes, hvalid.begin_eq, hvalid.stop_eq,
    toNat_wrap_sub_wrap hvalid.tiles.le (by omega)]

/-- Data across the wrap-around, sacked and sent again in ranges that split its regions. -/
def splitRegions : List ScoreboardCall :=
  [.enqueueSentData 4294967290 2, .enqueueSentData 2 10, .setSackedBit 4294967294 5,
    .enqueueSentData 4294967295 12, .discardUpTo 4294967293, .setSackedBit 4294967290 0,
    .resetRexmittedBit]

theorem rexmitQueue_refines_bytes_splitRegions :
    ∃ q, (init {} 4294967290).run splitRegions = .ok q ∧
      q.scoreboard = (Scoreboard.mk 4294967290 []).run splitRegions :=
  (rexmitQueue_refines_bytes 4294967290 splitRegions (by decide)).imp fun _ h ↦ ⟨h.1, h.2.2.1⟩

/-- **The bytes do not say where a region ends.** Two runs lead to the same bytes, and
`checkSackBlock` returns different lengths. -/
theorem checkSackBlock_not_of_bytes :
    ∃ calls calls' q q', (init {} 0).AllAsserted calls ∧ (init {} 0).AllAsserted calls' ∧
      (init {} 0).run calls = .ok q ∧ (init {} 0).run calls' = .ok q' ∧
      q.scoreboard = q'.scoreboard ∧
      q.checkSackBlock 0 = .ok (20, false, false) ∧ q'.checkSackBlock 0 = .ok (10, false, false) :=
  ⟨[.enqueueSentData 0 20], [.enqueueSentData 0 10, .enqueueSentData 10 20],
    ⟨[⟨0, 20, false, false⟩], 0, 20⟩, ⟨[⟨0, 10, false, false⟩, ⟨10, 20, false, false⟩], 0, 20⟩,
    by decide⟩

end Inet.Tcp
