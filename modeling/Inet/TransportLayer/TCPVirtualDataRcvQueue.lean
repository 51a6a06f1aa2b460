import Inet.Foundations.IntervalList
import Inet.TransportLayer.TCPSegment

/-!
# The receive queue

The queue of a receiver keeps the data that has arrived and not been handed out as a list of
regions. `mergeBack` takes in a new region from the back of the list, absorbing every region it
meets or touches; data is handed out from the front.

The operations are the same for a queue that counts bytes and for one that keeps them: the virtual
functions of the region are a class here, and the queue is generic over it.
-/

namespace Inet.Tcp

/-- The virtual functions of `Region`, and the one of the queue that creates it. -/
class Region (ρ : Type) where
  getBegin : ρ → UInt32
  getEnd : ρ → UInt32
  merge : ρ → ρ → Option ρ
  split : ρ → UInt32 → Except RuntimeError (ρ × ρ)
  createRegionFromSegment : {Packet : Type} → TCPSegment Packet → Except RuntimeError ρ

/-- `enum CompareStatus`. -/
inductive CompareStatus
  | before
  | beforeTouch
  | overlap
  | afterTouch
  | after
  deriving DecidableEq, Repr

/-- `TCPVirtualDataRcvQueue::Region`. -/
structure VirtualRegion where
  getBegin : UInt32
  getEnd : UInt32
  deriving DecidableEq, Repr

namespace VirtualRegion

/-- `Region::merge`; without a common or touching part there is nothing to merge. -/
def merge (self other : VirtualRegion) : Option VirtualRegion :=
  if seqLess self.getEnd other.getBegin ∨ seqLess other.getEnd self.getBegin then none
  else some {
    getBegin := if seqLess other.getBegin self.getBegin then other.getBegin else self.getBegin
    getEnd := if seqLess self.getEnd other.getEnd then other.getEnd else self.getEnd }

/-- `Region::split`: the part before `seq`, and the rest. -/
def split (self : VirtualRegion) (seq : UInt32) :
    Except RuntimeError (VirtualRegion × VirtualRegion) :=
  if seqGreater seq self.getBegin ∧ seqLess seq self.getEnd then
    .ok (⟨self.getBegin, seq⟩, { self with getBegin := seq })
  else .error .assertionFailed

instance : Region VirtualRegion where
  getBegin := getBegin
  getEnd := getEnd
  merge := merge
  split := split
  createRegionFromSegment tcpseg := .ok ⟨tcpseg.sequenceNo, tcpseg.endNo⟩

/-- `Region::getLength`. -/
def getLength (self : VirtualRegion) : UInt32 :=
  self.getEnd - self.getBegin

end VirtualRegion

/-- `TCPVirtualDataRcvQueue`, and the classes derived from it that differ in their regions. -/
structure TCPVirtualDataRcvQueue (ρ : Type) where
  rcvNxt : UInt32
  regionList : List ρ
  deriving DecidableEq, Repr

namespace TCPVirtualDataRcvQueue

open Region

variable {ρ : Type} [Region ρ] {Packet : Type}

/-- `Region::compare`. -/
def compare (self other : ρ) : CompareStatus :=
  if getEnd self = getBegin other then .beforeTouch
  else if getBegin self = getEnd other then .afterTouch
  else if seqLess (getEnd self) (getBegin other) then .before
  else if seqLess (getEnd other) (getBegin self) then .after
  else .overlap

/-- `TCPVirtualDataRcvQueue::init`. -/
def init (startSeq : UInt32) : TCPVirtualDataRcvQueue ρ :=
  ⟨startSeq, []⟩

/-- The loop of `merge`, on a list that starts with the last region. -/
def mergeBack (seg : ρ) : List ρ → Except RuntimeError (List ρ)
  | [] => .ok [seg]
  | i :: rest =>
    match compare i seg with
    | .before => .ok (seg :: i :: rest)
    | .after => (mergeBack seg rest).map (i :: ·)
    | _ =>
      match merge seg i with
      | some seg => mergeBack seg rest
      | none => .error (.mergeUnsuccessful (getBegin i) (getEnd i) (getBegin seg) (getEnd seg))

/-- `TCPVirtualDataRcvQueue::merge`. -/
def mergeRegion (regionList : List ρ) (seg : ρ) : Except RuntimeError (List ρ) :=
  (mergeBack seg regionList.reverse).map List.reverse

/-- The check of `insertBytesFromSegment` that is compiled in unless `NDEBUG` is set. -/
def checkRange (regionList : List ρ) (region : ρ) : Except RuntimeError Unit :=
  match regionList.head?, regionList.getLast? with
  | some front, some back =>
    let ob := getBegin front
    let oe := getEnd back
    let nb := getBegin region
    let ne := getEnd region
    let minb := seqMin ob nb
    let maxe := seqMax oe ne
    if seqGE minb oe ∨ seqGE minb ne ∨ seqGE ob maxe ∨ seqGE nb maxe then
      .error (.outOfAcceptableRange nb ne)
    else .ok ()
  | _, _ => .ok ()

/-- What `insertBytesFromSegment` does with the region of the segment. -/
def insertRegion (q : TCPVirtualDataRcvQueue ρ) (region : ρ) :
    Except RuntimeError (TCPVirtualDataRcvQueue ρ) := do
  checkRange q.regionList region
  let regionList ← mergeRegion q.regionList region
  match regionList with
  | [] => .error .assertionFailed
  | front :: _ =>
    let rcvNxt := if seqGE q.rcvNxt (getBegin front) then getEnd front else q.rcvNxt
    return { rcvNxt, regionList }

/-- `TCPVirtualDataRcvQueue::insertBytesFromSegment`. -/
def insertBytesFromSegment (q : TCPVirtualDataRcvQueue ρ) (tcpseg : TCPSegment Packet) :
    Except RuntimeError (TCPVirtualDataRcvQueue ρ) := do
  let region ← createRegionFromSegment tcpseg
  q.insertRegion region

/-- `TCPVirtualDataRcvQueue::extractTo`. The message of `extractBytesUpTo` is made from the region
alone. -/
def extractTo (q : TCPVirtualDataRcvQueue ρ) (seq : UInt32) :
    Except RuntimeError (Option ρ × TCPVirtualDataRcvQueue ρ) :=
  if ¬ seqLE seq q.rcvNxt then .error .assertionFailed
  else
    match q.regionList with
    | [] => .ok (none, q)
    | reg :: rest =>
      if seqLE seq (getBegin reg) then .ok (none, q)
      else if seqGE seq (getEnd reg) then .ok (some reg, { q with regionList := rest })
      else do
        let (reg, self) ← split reg seq
        return (some reg, { q with regionList := self :: rest })

/-- `TCPVirtualDataRcvQueue::getAmountOfBufferedBytes`. -/
def getAmountOfBufferedBytes (q : TCPVirtualDataRcvQueue ρ) : UInt32 :=
  q.regionList.foldl (fun bytes elem ↦ bytes + (getEnd elem - getBegin elem)) 0

/-- `TCPVirtualDataRcvQueue::getAmountOfFreeBytes`. -/
def getAmountOfFreeBytes (q : TCPVirtualDataRcvQueue ρ) (maxRcvBuffer : UInt32) : UInt32 :=
  if q.getAmountOfBufferedBytes < maxRcvBuffer then maxRcvBuffer - q.getAmountOfBufferedBytes else 0

/-- `TCPVirtualDataRcvQueue::getQueueLength`. -/
def getQueueLength (q : TCPVirtualDataRcvQueue ρ) : ℕ :=
  q.regionList.length

/-- `TCPVirtualDataRcvQueue::getLE`. -/
def getLE (q : TCPVirtualDataRcvQueue ρ) (fromSeqNum : UInt32) : UInt32 :=
  match q.regionList.find? fun i ↦
    seqLE (getBegin i) fromSeqNum ∧ seqLess fromSeqNum (getEnd i) with
  | some i => getBegin i
  | none => fromSeqNum

/-- `TCPVirtualDataRcvQueue::getRE`. -/
def getRE (q : TCPVirtualDataRcvQueue ρ) (toSeqNum : UInt32) : UInt32 :=
  match q.regionList.find? fun i ↦
    seqLess (getBegin i) toSeqNum ∧ seqLE toSeqNum (getEnd i) with
  | some i => getEnd i
  | none => toSeqNum

/-- `TCPVirtualDataRcvQueue::getFirstSeqNo`. -/
def getFirstSeqNo (q : TCPVirtualDataRcvQueue ρ) : UInt32 :=
  match q.regionList with
  | [] => q.rcvNxt
  | front :: _ => seqMin (getBegin front) q.rcvNxt

end TCPVirtualDataRcvQueue

/-! ### Regions as intervals of positions -/

open SerialNumber IntervalList

/-- A region that is not empty and lies in the half of the number space that starts at `first`. -/
structure Within (first : ℕ) (p : ℕ × ℕ) : Prop where
  le : first ≤ p.1
  nonempty : p.1 < p.2
  lt : p.2 < first + 2 ^ 31

/-- `At` says which interval of positions a region stands for. -/
class RegionAt {ρ : Type} [Region ρ] (At : ρ → ℕ × ℕ → Prop) : Prop where
  getBegin_eq {r : ρ} {p : ℕ × ℕ} : At r p → Region.getBegin r = wrap p.1
  getEnd_eq {r : ρ} {p : ℕ × ℕ} : At r p → Region.getEnd r = wrap p.2

/-- Regions merge and split as their intervals do, a merge as long as the absorbed region `Fits`. -/
class LawfulRegion {ρ : Type} [Region ρ] (At : ρ → ℕ × ℕ → Prop)
    (Fits : outParam (ℕ × ℕ → ℕ × ℕ → Prop)) : Prop extends RegionAt At where
  merge_eq {r s : ρ} {p q : ℕ × ℕ} {first : ℕ} : At r p → At s q → Within first p →
    Within first q → q.1 ≤ p.2 → p.1 ≤ q.2 → Fits p q →
      ∃ t, Region.merge r s = some t ∧ At t (join p q)
  split_eq {r : ρ} {p : ℕ × ℕ} {n : ℕ} : At r p → p.1 < n → n < p.2 → p.2 < p.1 + 2 ^ 31 →
    ∃ t u, Region.split r (wrap n) = .ok (t, u) ∧ At t (p.1, n) ∧ At u (n, p.2)
  fits_join {p q q' : ℕ × ℕ} : Fits p q' → q'.2 < q.1 → q.1 < q.2 → Fits (join p q) q'

namespace Within

variable {first m n : ℕ} {p q : ℕ × ℕ}

theorem join (hp : Within first p) (hq : Within first q) : Within first (join p q) where
  le := le_min hp.le hq.le
  nonempty := lt_of_le_of_lt (min_le_left _ _) (hp.nonempty.trans_le (le_max_left _ _))
  lt := max_lt hp.lt hq.lt

/-- Positions in one half of the number space can be compared. -/
theorem near_of_le (hm : first ≤ m) (hm' : m < first + 2 ^ 31) (hn : first ≤ n)
    (hn' : n < first + 2 ^ 31) : Near m n :=
  ⟨by omega, by omega⟩

theorem near_begin_begin (hp : Within first p) (hq : Within first q) : Near p.1 q.1 :=
  near_of_le hp.le (hp.nonempty.trans hp.lt) hq.le (hq.nonempty.trans hq.lt)

theorem near_end_begin (hp : Within first p) (hq : Within first q) : Near p.2 q.1 :=
  near_of_le (hp.le.trans hp.nonempty.le) hp.lt hq.le (hq.nonempty.trans hq.lt)

theorem near_end_end (hp : Within first p) (hq : Within first q) : Near p.2 q.2 :=
  near_of_le (hp.le.trans hp.nonempty.le) hp.lt (hq.le.trans hq.nonempty.le) hq.lt

end Within

namespace VirtualRegion

/-- The interval of a region that only counts bytes. -/
def At (r : VirtualRegion) (p : ℕ × ℕ) : Prop :=
  r = ⟨wrap p.1, wrap p.2⟩

instance : LawfulRegion At fun _ _ ↦ True where
  getBegin_eq h := by rw [h]; rfl
  getEnd_eq h := by rw [h]; rfl
  merge_eq {r s p q first} hr hs hp hq hle hle' _ := by
    subst hr hs
    refine ⟨_, if_neg ?_, ?_⟩
    · rw [seqLess_wrap (hp.near_end_begin hq), seqLess_wrap (hq.near_end_begin hp)]
      omega
    · simp only [seqLess_wrap (hq.near_begin_begin hp), seqLess_wrap (hp.near_end_end hq)]
      rw [At, IntervalList.join, min_comm, min_def_lt, max_def_lt, apply_ite wrap, apply_ite wrap]
  split_eq {r p n} hr hlt hlt' hnear := by
    subst hr
    refine ⟨_, _, if_pos ⟨?_, ?_⟩, rfl, rfl⟩
    · rw [seqGreater_wrap ⟨by omega, by omega⟩]
      exact hlt
    · rw [seqLess_wrap ⟨by omega, by omega⟩]
      exact hlt'
  fits_join _ _ _ := trivial

/-- Regions that only count bytes are determined by their intervals. -/
theorem eq_map_of_at {l : List VirtualRegion} {ps : List (ℕ × ℕ)} (h : List.Forall₂ At l ps) :
    l = ps.map fun p ↦ ⟨wrap p.1, wrap p.2⟩ := by
  induction h with
  | nil => rfl
  | cons hr _ ih => rw [List.map_cons, ← ih, hr]

end VirtualRegion

namespace TCPVirtualDataRcvQueue

open Region

variable {ρ : Type} [Region ρ] {At : ρ → ℕ × ℕ → Prop} {first : ℕ} {r s : ρ} {p q : ℕ × ℕ}

/-- The comparison of two regions is that of their intervals. -/
theorem compare_eq [RegionAt At] (hr : At r p) (hs : At s q) (hp : Within first p)
    (hq : Within first q) :
    compare r s =
      if p.2 = q.1 then .beforeTouch else if p.1 = q.2 then .afterTouch
      else if p.2 < q.1 then .before else if q.2 < p.1 then .after else .overlap := by
  have hpq := hp.near_end_begin hq
  have hqp := hq.near_end_begin hp
  simp only [compare, RegionAt.getBegin_eq hr, RegionAt.getEnd_eq hr, RegionAt.getBegin_eq hs,
    RegionAt.getEnd_eq hs, wrap_eq_wrap hpq, wrap_eq_wrap hqp.symm, seqLess_wrap hpq,
    seqLess_wrap hqp]

theorem insertRegion_eq {q : TCPVirtualDataRcvQueue ρ} {region front : ρ} {rest : List ρ}
    (hcheck : checkRange q.regionList region = .ok ())
    (hmerge : mergeRegion q.regionList region = .ok (front :: rest)) :
    q.insertRegion region =
      .ok ⟨if seqGE q.rcvNxt (getBegin front) then getEnd front else q.rcvNxt, front :: rest⟩ := by
  rw [insertRegion, hcheck, hmerge]
  rfl

/-- **The loop of `merge` is the insertion of an interval.** -/
theorem mergeBack_spec {Fits : ℕ × ℕ → ℕ × ℕ → Prop} [LawfulRegion At Fits] {l : List ρ}
    {ps : List (ℕ × ℕ)} (hr : At r p) (hl : List.Forall₂ At l ps) (hp : Within first p)
    (hps : ∀ q ∈ ps, Within first q) (hdesc : Descending ps) (hfits : ∀ q ∈ ps, Fits p q) :
    ∃ l', mergeBack r l = .ok l' ∧ List.Forall₂ At l' (insertBack p ps) := by
  induction hl generalizing r p with
  | nil => exact ⟨[r], rfl, .cons hr .nil⟩
  | @cons i q l ps hi hl ih =>
    rw [List.forall_mem_cons] at hps hfits
    obtain ⟨hq, hps⟩ := hps
    obtain ⟨hne, hgap, hdesc⟩ := descending_cons.1 hdesc
    have hcmp := compare_eq hi hr hq hp
    by_cases hbefore : q.2 < p.1
    · -- the region lies before the segment, and so do all the others
      have hb : compare i r = .before := by
        rw [hcmp, if_neg (by omega), if_neg (by have := hp.nonempty; omega), if_pos hbefore]
      refine ⟨r :: i :: l, by rw [mergeBack, hb], ?_⟩
      rw [insertBack, if_pos hbefore]
      exact .cons hr (.cons hi hl)
    · by_cases hafter : p.2 < q.1
      · have ha : compare i r = .after := by
          rw [hcmp, if_neg (by have := hp.nonempty; omega), if_neg (by omega), if_neg hbefore,
            if_pos hafter]
        obtain ⟨l', hl', hat⟩ := ih hr hp hps hdesc hfits.2
        refine ⟨i :: l', by rw [mergeBack, ha, hl']; rfl, ?_⟩
        rw [insertBack, if_neg hbefore, if_pos hafter]
        exact .cons hi hat
      · obtain ⟨t, ht, hat⟩ := LawfulRegion.merge_eq hr hi hp hq (not_lt.1 hafter)
          (not_lt.1 hbefore) hfits.1
        have hfits' : ∀ q' ∈ ps, Fits (join p q) q' := fun q' hq' ↦
          LawfulRegion.fits_join At (hfits.2 q' hq') (hgap q' hq') hne
        obtain ⟨l', hl', hat'⟩ := ih hat (hp.join hq) hps hdesc hfits'
        refine ⟨l', ?_, ?_⟩
        · have hmerge : mergeBack r (i :: l) = mergeBack t l := by
            rw [mergeBack, hcmp, if_neg hbefore, if_neg hafter]
            split_ifs <;> simp only [ht]
          rw [hmerge, hl']
        · rwa [insertBack, if_neg hbefore, if_neg hafter]

end TCPVirtualDataRcvQueue

end Inet.Tcp
