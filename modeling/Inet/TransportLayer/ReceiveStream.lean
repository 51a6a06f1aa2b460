import Mathlib.Order.Bounds.Basic
import Inet.TransportLayer.TCPVirtualDataRcvQueue

/-!
# The receive queue as a set of bytes

A receive queue stands for a set of positions of the stream: those that have arrived and have not
been handed out. `Stream` is that set, and `Stream.next` what an insertion and an extraction do to
it; sequence numbers are read as positions at or after the first one that has not been handed out.

As long as the first of these positions, the segments and the bounds of extractions lie in one half
of the number space (`Allowed`), the queue refines the stream (`Refines.insert`, `Refines.extract`):
its regions are the canonical list of intervals of the set, and `rcv_nxt` is the first position that
has not arrived. Since a set has one canonical list, the queue does not depend on how the bytes
came.
-/

namespace Inet.Tcp

open SerialNumber IntervalList

variable {Packet ρ : Type}

/-- The calls a connection makes. -/
inductive Call (Packet : Type)
  | insertBytesFromSegment (tcpseg : TCPSegment Packet)
  | extractBytesUpTo (seq : UInt32)

namespace TCPVirtualDataRcvQueue

open Region

variable [Region ρ]

/-- A call, without the message an extraction returns. -/
def call (q : TCPVirtualDataRcvQueue ρ) :
    Call Packet → Except RuntimeError (TCPVirtualDataRcvQueue ρ)
  | .insertBytesFromSegment tcpseg => q.insertBytesFromSegment tcpseg
  | .extractBytesUpTo seq => (q.extractTo seq).map Prod.snd

/-- Calls, one after the other. -/
def run (q : TCPVirtualDataRcvQueue ρ) :
    List (Call Packet) → Except RuntimeError (TCPVirtualDataRcvQueue ρ)
  | [] => .ok q
  | c :: cs => (q.call c).bind fun q' ↦ q'.run cs

/-- A segment brings data, starts at or after the first byte the queue may hold, and ends less than
half the number space behind it. An extraction is not asked to go beyond `rcv_nxt`, and its bound is
less than half the number space before the end of the queue. -/
def Allowed (q : TCPVirtualDataRcvQueue ρ) : Call Packet → Prop
  | .insertBytesFromSegment tcpseg =>
    0 < tcpseg.payloadLength ∧
      (tcpseg.sequenceNo - q.getFirstSeqNo).toNat + tcpseg.payloadLength < 2 ^ 31
  | .extractBytesUpTo seq => seqLE seq q.rcvNxt ∧ ∀ r ∈ q.regionList, seqLE seq (getEnd r)

instance (q : TCPVirtualDataRcvQueue ρ) : (c : Call Packet) → Decidable (q.Allowed c)
  | .insertBytesFromSegment _ => inferInstanceAs (Decidable (_ ∧ _))
  | .extractBytesUpTo _ => inferInstanceAs (Decidable (_ ∧ _))

/-- Each call is allowed in the state it is made in. -/
def AllAllowed (q : TCPVirtualDataRcvQueue ρ) : List (Call Packet) → Prop
  | [] => True
  | c :: cs => q.Allowed c ∧ ∀ q' ∈ (q.call c).toOption, q'.AllAllowed cs

instance decidableAllAllowed (q : TCPVirtualDataRcvQueue ρ) :
    (cs : List (Call Packet)) → Decidable (q.AllAllowed cs)
  | [] => inferInstanceAs (Decidable True)
  | c :: cs =>
    have (q' : TCPVirtualDataRcvQueue ρ) : Decidable (q'.AllAllowed cs) :=
      decidableAllAllowed q' cs
    inferInstanceAs (Decidable (_ ∧ ∀ q' ∈ (q.call c).toOption, q'.AllAllowed cs))

theorem run_append (q : TCPVirtualDataRcvQueue ρ) (cs cs' : List (Call Packet)) :
    q.run (cs ++ cs') = (q.run cs).bind fun q' ↦ q'.run cs' := by
  induction cs generalizing q with
  | nil => rfl
  | cons c cs ih =>
    rw [List.cons_append, run, run]
    cases q.call c with
    | error e => rfl
    | ok q' => exact ih q'

theorem allAllowed_append {q : TCPVirtualDataRcvQueue ρ} {cs cs' : List (Call Packet)} :
    q.AllAllowed (cs ++ cs') ↔
      q.AllAllowed cs ∧ ∀ q' ∈ (q.run cs).toOption, q'.AllAllowed cs' := by
  induction cs generalizing q with
  | nil => simp [AllAllowed, run, Except.toOption]
  | cons c cs ih =>
    rw [List.cons_append, AllAllowed, AllAllowed, run]
    cases q.call c with
    | error e => simp [Except.toOption, Except.bind]
    | ok q' => simp [Except.toOption, Except.bind, ih, and_assoc]

end TCPVirtualDataRcvQueue

/-! ### The stream -/

/-- The positions that have arrived at a receiver, and the first one that has not been handed out.
The receiver waits for bytes from `start` on. -/
structure Stream where
  start : ℕ
  received : Set ℕ
  first : ℕ

namespace Stream

/-- Nothing has arrived. -/
def init (start : ℕ) : Stream :=
  ⟨start, ∅, start⟩

/-- The position of a sequence number that is not before `first`. -/
def position (σ : Stream) (seq : UInt32) : ℕ :=
  σ.first + (seq - wrap σ.first).toNat

/-- A segment adds its bytes, an extraction hands out what lies before its bound. -/
def next (σ : Stream) : Call Packet → Stream
  | .insertBytesFromSegment tcpseg =>
    let begin := σ.position tcpseg.sequenceNo
    { σ with received := σ.received ∪ Set.Ico begin (begin + tcpseg.payloadLength) }
  | .extractBytesUpTo seq =>
    if seqLess (wrap σ.first) seq then { σ with first := σ.position seq } else σ

/-- The stream after some calls. -/
def after (σ : Stream) (calls : List (Call Packet)) : Stream :=
  calls.foldl next σ

theorem wrap_position (σ : Stream) (seq : UInt32) : wrap (σ.position seq) = seq :=
  wrap_add_sub σ.first seq

/-- A sequence number behind `first` belongs to a position behind `first`. -/
theorem position_of_seqLess {σ : Stream} {seq : UInt32} (h : seqLess (wrap σ.first) seq) :
    σ.first < σ.position seq ∧ σ.position seq < σ.first + 2 ^ 31 := by
  have hne : (seq - wrap σ.first).toNat ≠ 0 := by
    intro hzero
    have hpos := σ.wrap_position seq
    rw [position, hzero, Nat.add_zero] at hpos
    exact h.1 hpos
  have hlt := h.2
  rw [position]
  omega

/-- The first position that has not arrived. -/
def IsNext (σ : Stream) (n : ℕ) : Prop :=
  IsLeast {n | σ.start ≤ n ∧ n ∉ σ.received} n

end Stream

/-- The regions are the intervals of a canonical list of what has arrived and not been handed out,
and `rcv_nxt` is the first position that has not arrived. -/
structure Represents (At : ρ → ℕ × ℕ → Prop) (σ : Stream) (q : TCPVirtualDataRcvQueue ρ)
    (ps : List (ℕ × ℕ)) (next : ℕ) : Prop where
  regions : List.Forall₂ At q.regionList ps
  canonical : Canonical ps
  points_eq : points ps = σ.received ∩ Set.Ici σ.first
  rcvNxt_eq : q.rcvNxt = wrap next
  isNext : σ.IsNext next

/-- With the bounds that keep sequence numbers comparable. -/
structure Refines (At : ρ → ℕ × ℕ → Prop) (σ : Stream) (q : TCPVirtualDataRcvQueue ρ)
    (ps : List (ℕ × ℕ)) (next : ℕ) : Prop extends Represents At σ q ps next where
  start_le : σ.start ≤ σ.first
  first_le : σ.first ≤ next
  end_lt : ∀ p ∈ ps, p.2 < σ.first + 2 ^ 31

theorem exists_of_mem_right {α β : Type*} {R : α → β → Prop} {l : List α} {l' : List β} {b : β}
    (h : List.Forall₂ R l l') (hb : b ∈ l') : ∃ a ∈ l, R a b := by
  induction h with
  | nil => cases hb
  | @cons a b' l l' hr _ ih =>
    rcases List.mem_cons.1 hb with rfl | hb
    · exact ⟨a, List.mem_cons_self, hr⟩
    · obtain ⟨a', ha', hr'⟩ := ih hb
      exact ⟨a', List.mem_cons_of_mem _ ha', hr'⟩

theorem exists_of_head? {α β : Type*} {R : α → β → Prop} {l : List α} {l' : List β} {a : α}
    (h : List.Forall₂ R l l') (ha : l.head? = some a) : ∃ b, l'.head? = some b ∧ R a b := by
  cases h with
  | nil => cases ha
  | cons hr _ =>
    cases ha
    exact ⟨_, rfl, hr⟩

namespace Refines

variable {At : ρ → ℕ × ℕ → Prop} {σ : Stream} {q : TCPVirtualDataRcvQueue ρ} {ps : List (ℕ × ℕ)}
  {p : ℕ × ℕ} {next n : ℕ}

theorem init (start : ℕ) :
    Refines At (.init start) (.init (wrap start)) [] start where
  regions := .nil
  canonical := canonical_nil
  points_eq := by simp [Stream.init]
  rcvNxt_eq := rfl
  isNext := ⟨⟨le_rfl, Set.notMem_empty _⟩, fun _ hn ↦ hn.1⟩
  start_le := le_rfl
  first_le := le_rfl
  end_lt := by simp

theorem imp {At' : ρ → ℕ × ℕ → Prop} (h : Refines At σ q ps next)
    (himp : ∀ r p, At r p → At' r p) : Refines At' σ q ps next :=
  { h with regions := h.regions.imp fun {r p} ↦ himp r p }

theorem mem_points_iff (h : Refines At σ q ps next) :
    n ∈ points ps ↔ n ∈ σ.received ∧ σ.first ≤ n := by
  rw [h.points_eq]
  exact Iff.rfl

/-- What lies before `next` has arrived. -/
theorem received_of_lt (h : Refines At σ q ps next) (hle : σ.first ≤ n) (hlt : n < next) :
    n ∈ σ.received := by
  by_contra hn
  exact absurd (h.isNext.2 ⟨h.start_le.trans hle, hn⟩) (not_le.2 hlt)

theorem next_notMem (h : Refines At σ q ps next) : next ∉ points ps :=
  fun hmem ↦ h.isNext.1.2 (h.mem_points_iff.1 hmem).1

theorem within (h : Refines At σ q ps next) (hp : p ∈ ps) : Within σ.first p where
  le := (h.mem_points_iff.1 ⟨p, hp, le_rfl, h.canonical.nonempty p hp⟩).2
  nonempty := h.canonical.nonempty p hp
  lt := h.end_lt p hp

/-- The first region starts with the first byte that has not been handed out and ends at `next`, or
there is a gap before it and nothing to hand out. -/
theorem front (h : Refines At σ q (p :: ps) next) :
    p.1 = σ.first ∧ p.2 = next ∨ next = σ.first ∧ next < p.1 := by
  have hle := (h.within List.mem_cons_self).le
  rcases h.first_le.lt_or_eq with hlt | heq
  · have hfirst : σ.first ∈ points (p :: ps) :=
      h.mem_points_iff.2 ⟨h.received_of_lt le_rfl hlt, le_rfl⟩
    have hbegin : p.1 = σ.first := le_antisymm (h.canonical.le_of_mem_points hfirst) hle
    refine .inl ⟨hbegin, le_antisymm ?_ ?_⟩
    · by_contra hgt
      exact h.next_notMem (mem_points_cons.2 (.inl ⟨by omega, not_le.1 hgt⟩))
    · by_contra hgt
      have hp := h.canonical.nonempty p List.mem_cons_self
      refine h.canonical.end_notMem (h.mem_points_iff.2 ⟨h.received_of_lt ?_ (not_le.1 hgt), ?_⟩) <;>
        omega
  · refine .inr ⟨heq.symm, lt_of_le_of_ne (heq ▸ hle) fun hne ↦ ?_⟩
    exact h.next_notMem (hne ▸ h.canonical.first_mem)

theorem next_lt (h : Refines At σ q ps next) : next < σ.first + 2 ^ 31 := by
  rcases h.first_le.lt_or_eq with hlt | heq
  · obtain ⟨p, hp, hmem⟩ : next - 1 ∈ points ps :=
      h.mem_points_iff.2 ⟨h.received_of_lt (by omega) (by omega), by omega⟩
    have := h.end_lt p hp
    have := hmem.2
    omega
  · omega

/-! ### What the calls do -/

variable [Region ρ]

/-- `getFirstSeqNo` is the first byte that has not been handed out. -/
theorem getFirstSeqNo_eq [RegionAt At] (h : Refines At σ q ps next) :
    q.getFirstSeqNo = wrap σ.first := by
  obtain ⟨rcvNxt, regionList⟩ := q
  have hnext : rcvNxt = wrap next := h.rcvNxt_eq
  cases h.regions with
  | nil =>
    have heq : σ.first = next := by
      refine h.first_le.antisymm (not_lt.1 fun hlt ↦ ?_)
      have hmem := h.mem_points_iff.2 ⟨h.received_of_lt le_rfl hlt, le_rfl⟩
      rw [points_nil] at hmem
      exact hmem
    rw [heq]
    exact hnext
  | @cons r p l ps hr hl =>
    have hp := h.within (p := p) List.mem_cons_self
    have hlt := h.next_lt
    have hnear : Near p.1 next :=
      Within.near_of_le hp.le (hp.nonempty.trans hp.lt) h.first_le hlt
    have hmin : TCPVirtualDataRcvQueue.getFirstSeqNo ⟨rcvNxt, r :: l⟩ = wrap (min p.1 next) := by
      rw [← seqMin_wrap hnear, ← hnext, ← RegionAt.getBegin_eq hr]
      rfl
    rw [hmin]
    rcases h.front with ⟨hbegin, hend⟩ | ⟨heq, hgap⟩
    · rw [hbegin, min_eq_left h.first_le]
    · rw [min_eq_right hgap.le, heq]

/-- The check of the range passes. -/
theorem checkRange_eq [RegionAt At] (h : Refines At σ q ps next) {r : ρ} {seg : ℕ × ℕ}
    (hr : At r seg) (hseg : Within σ.first seg) :
    TCPVirtualDataRcvQueue.checkRange q.regionList r = .ok () := by
  unfold TCPVirtualDataRcvQueue.checkRange
  split
  · rename_i front back hfront hback
    obtain ⟨p, hp, hatp⟩ := exists_of_head? h.regions hfront
    obtain ⟨p', hp', hatp'⟩ := exists_of_head? (List.forall₂_reverse_iff.2 h.regions)
      (List.head?_reverse.trans hback)
    rw [List.head?_reverse] at hp'
    have hwp := h.within (List.mem_of_head? hp)
    have hwp' := h.within (List.mem_of_getLast? hp')
    have hle : p.1 ≤ p'.1 := by
      obtain ⟨ps', rfl⟩ := List.head?_eq_some_iff.1 hp
      exact h.canonical.le_of_mem_points ⟨p', List.mem_of_getLast? hp', le_rfl, hwp'.nonempty⟩
    -- everything lies in one half of the number space, so the code compares positions
    rw [if_neg]
    simp only [RegionAt.getBegin_eq hatp, RegionAt.getEnd_eq hatp', RegionAt.getBegin_eq hr,
      RegionAt.getEnd_eq hr, seqMin_wrap (hwp.near_begin_begin hseg),
      seqMax_wrap (hwp'.near_end_end hseg)]
    have hlow (n : ℕ) (hn : σ.first ≤ n) (hn' : n < σ.first + 2 ^ 31) :
        Near (min p.1 seg.1) n := Within.near_of_le (hwp.join hseg).le
      ((hwp.join hseg).nonempty.trans (hwp.join hseg).lt) hn hn'
    have hhigh (n : ℕ) (hn : σ.first ≤ n) (hn' : n < σ.first + 2 ^ 31) :
        Near n (max p'.2 seg.2) := Within.near_of_le hn hn'
      ((hwp'.join hseg).le.trans (hwp'.join hseg).nonempty.le) (hwp'.join hseg).lt
    have hp := hwp.nonempty
    have hp' := hwp'.nonempty
    have hs := hseg.nonempty
    rw [seqGE_wrap (hlow _ (hwp'.le.trans hp'.le) hwp'.lt),
      seqGE_wrap (hlow _ (hseg.le.trans hs.le) hseg.lt),
      seqGE_wrap (hhigh _ hwp.le (hp.trans hwp.lt)),
      seqGE_wrap (hhigh _ hseg.le (hs.trans hseg.lt))]
    omega
  · rfl

/-- **A segment adds its bytes.** -/
theorem insert {Fits : ℕ × ℕ → ℕ × ℕ → Prop} [LawfulRegion At Fits] (h : Refines At σ q ps next)
    {r : ρ} {seg : ℕ × ℕ} (hr : At r seg) (hseg : Within σ.first seg)
    (hfits : ∀ p ∈ ps, Fits seg p) :
    ∃ q' next', q.insertRegion r = .ok q' ∧ next ≤ next' ∧
      Refines At { σ with received := σ.received ∪ Set.Ico seg.1 seg.2 } q'
        (insertBack seg ps.reverse).reverse next' := by
  have hdesc : Descending ps.reverse := canonical_reverse.1 (by simpa using h.canonical)
  obtain ⟨l', hl', hat⟩ := TCPVirtualDataRcvQueue.mergeBack_spec hr
    (List.forall₂_reverse_iff.2 h.regions) hseg (fun p hp ↦ h.within (List.mem_reverse.1 hp)) hdesc
    (fun p hp ↦ hfits p (List.mem_reverse.1 hp))
  have hmerge : TCPVirtualDataRcvQueue.mergeRegion q.regionList r = .ok l'.reverse := by
    rw [TCPVirtualDataRcvQueue.mergeRegion, hl']
    rfl
  set ps' := (insertBack seg ps.reverse).reverse with hps'
  have hregions : List.Forall₂ At l'.reverse ps' := List.forall₂_reverse_iff.2 hat
  have hcanonical : Canonical ps' := canonical_reverse.2 (hdesc.insertBack hseg.nonempty)
  have hpoints : points ps' = (σ.received ∪ Set.Ico seg.1 seg.2) ∩ Set.Ici σ.first := by
    have hsub : Set.Ico seg.1 seg.2 ∩ Set.Ici σ.first = Set.Ico seg.1 seg.2 :=
      Set.inter_eq_left.2 fun x hx ↦ hseg.le.trans hx.1
    rw [hps', points_reverse, points_insertBack, points_reverse, h.points_eq,
      Set.union_inter_distrib_right, hsub]
  have hends : ∀ p ∈ ps', p.2 < σ.first + 2 ^ 31 := by
    intro p hp
    rcases end_of_mem_insertBack (List.mem_reverse.1 hp) with heq | ⟨p', hp', heq⟩
    · exact heq ▸ hseg.lt
    · exact heq ▸ h.end_lt p' (List.mem_reverse.1 hp')
  generalize l'.reverse = l at hmerge hregions
  generalize ps' = ps' at hregions hcanonical hpoints hends
  have hmem (n : ℕ) : n ∈ points ps' ↔ n ∈ σ.received ∪ Set.Ico seg.1 seg.2 ∧ σ.first ≤ n := by
    rw [hpoints]
    exact Iff.rfl
  cases hregions with
  | nil =>
    have hseg' := (hmem seg.1).2 ⟨.inr ⟨le_rfl, hseg.nonempty⟩, hseg.le⟩
    rw [points_nil] at hseg'
    exact absurd hseg' (Set.notMem_empty _)
  | @cons r' p l ps'' hr' hl =>
    have hp := hcanonical.nonempty p List.mem_cons_self
    have hle : σ.first ≤ p.1 := ((hmem p.1).1 hcanonical.first_mem).2
    have hnear : Near next p.1 := Within.near_of_le h.first_le h.next_lt hle
      (hp.trans (hends p List.mem_cons_self))
    have hinsert : q.insertRegion r =
        .ok ⟨if p.1 ≤ next then wrap p.2 else wrap next, r' :: l⟩ := by
      rw [TCPVirtualDataRcvQueue.insertRegion_eq (h.checkRange_eq hr hseg) hmerge]
      simp only [h.rcvNxt_eq, RegionAt.getBegin_eq hr', RegionAt.getEnd_eq hr', seqGE_wrap hnear]
    rw [← apply_ite wrap] at hinsert
    -- `next` was a gap, so a region that starts at or before it ends behind it
    have hnext : p.1 ≤ next → next ≤ p.2 := by
      intro hfront
      by_contra hgt
      have hend := hcanonical.end_notMem
      rw [hmem] at hend
      exact hend ⟨.inl (h.received_of_lt (hle.trans hp.le) (not_le.1 hgt)), hle.trans hp.le⟩
    refine ⟨_, if p.1 ≤ next then p.2 else next, hinsert, ?_, ?_⟩
    · split_ifs with hfront
      · exact hnext hfront
      · exact le_rfl
    · exact {
        regions := .cons hr' hl
        canonical := hcanonical
        points_eq := hpoints
        rcvNxt_eq := rfl
        isNext := by
          split_ifs with hfront
          · refine ⟨⟨h.start_le.trans (hle.trans hp.le), fun hin ↦ ?_⟩, fun n hn ↦ ?_⟩
            · exact hcanonical.end_notMem ((hmem p.2).2 ⟨hin, hle.trans hp.le⟩)
            · by_contra hlt
              rcases lt_or_ge n next with hn' | hn'
              · exact hn.2 (.inl (not_not.1 fun hnot ↦ not_le.2 hn' (h.isNext.2 ⟨hn.1, hnot⟩)))
              · exact hn.2 ((hmem n).1 (mem_points_cons.2 (.inl ⟨hfront.trans hn', not_le.1 hlt⟩))).1
          · refine ⟨⟨h.isNext.1.1, fun hin ↦ ?_⟩, fun n hn ↦ ?_⟩
            · exact hfront (hcanonical.le_of_mem_points ((hmem next).2 ⟨hin, h.first_le⟩))
            · exact h.isNext.2 ⟨hn.1, fun hnot ↦ hn.2 (.inl hnot)⟩
        start_le := h.start_le
        first_le := by
          split_ifs with hfront
          · exact hle.trans hp.le
          · exact h.first_le
        end_lt := hends }

/-- **An extraction hands out what lies before its bound.** -/
theorem extract_some {Fits : ℕ × ℕ → ℕ × ℕ → Prop} [LawfulRegion At Fits]
    (h : Refines At σ q ps next) {seq : UInt32} (hless : seqLess (wrap σ.first) seq)
    (hle : seqLE seq q.rcvNxt) :
    ∃ r q', q.extractTo seq = .ok (some r, q') ∧ At r (σ.first, σ.position seq) ∧
      Refines At { σ with first := σ.position seq } q' (removeTo (σ.position seq) ps) next := by
  obtain ⟨hlt, hlt'⟩ := Stream.position_of_seqLess hless
  have hseq := σ.wrap_position seq
  generalize σ.position seq = n at hlt hlt' hseq
  subst hseq
  have hnext := h.next_lt
  have hbound : n ≤ next := by
    rwa [h.rcvNxt_eq, seqLE_wrap (Within.near_of_le hlt.le hlt' h.first_le hnext)] at hle
  obtain ⟨rcvNxt, regionList⟩ := q
  rcases ps with _ | ⟨p, ps⟩
  · have hmem := h.mem_points_iff.2 ⟨h.received_of_lt le_rfl (hlt.trans_le hbound), le_rfl⟩
    rw [points_nil] at hmem
    exact absurd hmem (Set.notMem_empty _)
  · -- there is something to hand out, so the first region ends at `next`
    obtain ⟨hbegin, hend⟩ : p.1 = σ.first ∧ p.2 = next := by
      rcases h.front with hfront | ⟨heq, -⟩
      · exact hfront
      · omega
    have hwithin := h.within (p := p) List.mem_cons_self
    have hlater : ∀ q ∈ ps, next < q.1 := fun q hq ↦
      hend ▸ (canonical_cons.1 h.canonical).2.1 q hq
    have hrefines {l : List ρ} (hl : List.Forall₂ At l (removeTo n (p :: ps))) :
        Refines At { σ with first := n } ⟨rcvNxt, l⟩ (removeTo n (p :: ps)) next :=
      { regions := hl
        canonical := h.canonical.removeTo n
        points_eq := by
          have hgap : ∀ q ∈ (p :: ps).tail, n ≤ q.1 := fun q hq ↦ hbound.trans (hlater q hq).le
          rw [points_removeTo hgap, h.points_eq, Set.inter_assoc, Set.Ici_inter_Ici]
          exact congrArg (σ.received ∩ Set.Ici ·) (max_eq_right hlt.le)
        rcvNxt_eq := h.rcvNxt_eq
        isNext := h.isNext
        start_le := h.start_le.trans hlt.le
        first_le := hbound
        end_lt := by
          intro q hq
          have hold : ∃ q' ∈ p :: ps, q.2 = q'.2 := end_of_mem_removeTo hq
          obtain ⟨q', hq', heq⟩ := hold
          have := h.end_lt q' hq'
          show q.2 < n + 2 ^ 31
          omega }
    cases h.regions with
    | @cons r _ l _ hr hl =>
      have hnb : Near n p.1 := Within.near_of_le hlt.le hlt' hwithin.le
        (hwithin.nonempty.trans hwithin.lt)
      have hne : Near n p.2 := Within.near_of_le hlt.le hlt'
        (hwithin.le.trans hwithin.nonempty.le) hwithin.lt
      rw [TCPVirtualDataRcvQueue.extractTo, if_neg (not_not.2 hle)]
      have hfront : ¬ n ≤ p.1 := by omega
      simp only [RegionAt.getBegin_eq hr, RegionAt.getEnd_eq hr, seqLE_wrap hnb, seqGE_wrap hne,
        if_neg hfront]
      by_cases hall : p.2 ≤ n
      · have hn : n = p.2 := by omega
        refine ⟨r, ⟨rcvNxt, l⟩, if_pos hall, ?_, hrefines ?_⟩
        · rw [← hbegin, hn]
          exact hr
        · rwa [removeTo, if_neg (by omega), if_pos hall]
      · obtain ⟨t, u, hsplit, ht, hu⟩ := LawfulRegion.split_eq (n := n) hr (by omega)
          (by omega) (by have := hwithin.lt; omega)
        refine ⟨t, ⟨rcvNxt, u :: l⟩, ?_, hbegin ▸ ht, hrefines ?_⟩
        · rw [if_neg hall, hsplit]
          rfl
        · rw [removeTo, if_neg (by omega), if_neg hall]
          exact .cons hu hl

/-- Without such bytes nothing is handed out. -/
theorem extract_none [RegionAt At] (h : Refines At σ q ps next) {seq : UInt32}
    (hnot : ¬ seqLess (wrap σ.first) seq) (hle : seqLE seq q.rcvNxt)
    (hend : ∀ r ∈ q.regionList, seqLE seq (Region.getEnd r)) :
    q.extractTo seq = .ok (none, q) := by
  obtain ⟨rcvNxt, regionList⟩ := q
  rw [TCPVirtualDataRcvQueue.extractTo, if_neg (not_not.2 hle)]
  cases h.regions with
  | nil => rfl
  | @cons r p l ps hr hl =>
    have hwithin := h.within (p := p) List.mem_cons_self
    have hbegin : seqLE seq (Region.getBegin r) := by
      have hle' := hend r List.mem_cons_self
      rw [RegionAt.getEnd_eq hr] at hle'
      rw [RegionAt.getBegin_eq hr]
      exact seqLE_of_not_seqLess hnot hwithin.le hwithin.nonempty.le hwithin.lt hle'
    exact if_pos hbegin

/-- Up to a position that has been reached, all bytes are handed out. -/
theorem extract_upTo {Fits : ℕ × ℕ → ℕ × ℕ → Prop} [LawfulRegion At Fits]
    (h : Refines At σ q ps next) (hlt : σ.first < n) (hle : n ≤ next) :
    ∃ r q', q.extractTo (wrap n) = .ok (some r, q') ∧ At r (σ.first, n) ∧
      Refines At { σ with first := n } q' (removeTo n ps) next := by
  have hnext := h.next_lt
  have hless : seqLess (wrap σ.first) (wrap n) := by
    rw [seqLess_wrap ⟨by omega, by omega⟩]
    exact hlt
  have hbound : seqLE (wrap n) q.rcvNxt := by
    rw [h.rcvNxt_eq, seqLE_wrap ⟨by omega, by omega⟩]
    exact hle
  have hposition : σ.position (wrap n) = n := by
    rw [Stream.position, toNat_wrap_sub_wrap hlt.le (by omega)]
    omega
  have hextract := h.extract_some hless hbound
  rwa [hposition] at hextract

/-- Up to the first byte that has not been handed out there is none. -/
theorem extract_upTo_first [RegionAt At] (h : Refines At σ q ps next) :
    q.extractTo (wrap σ.first) = .ok (none, q) := by
  have hnext := h.next_lt
  have hfirst := h.first_le
  have hnot : ¬ seqLess (wrap σ.first) (wrap σ.first) := fun hless ↦ hless.1 rfl
  have hbound : seqLE (wrap σ.first) q.rcvNxt := by
    rw [h.rcvNxt_eq, seqLE_wrap ⟨by omega, by omega⟩]
    exact hfirst
  refine h.extract_none hnot hbound fun r hr ↦ ?_
  obtain ⟨p, hp, hat⟩ := exists_of_mem_right h.regions.flip hr
  have hw := h.within hp
  have hle := hw.le
  have hne := hw.nonempty
  have hlt := hw.lt
  rw [RegionAt.getEnd_eq hat, seqLE_wrap ⟨by omega, by omega⟩]
  omega

/-- **A queue that counts bytes refines the stream, call by call.** -/
theorem call {q : TCPVirtualDataRcvQueue VirtualRegion} (h : Refines VirtualRegion.At σ q ps next)
    {c : Call Packet} (hallowed : q.Allowed c) :
    ∃ q' ps' next', q.call c = .ok q' ∧ seqLE q.rcvNxt q'.rcvNxt ∧
      Refines VirtualRegion.At (σ.next c) q' ps' next' := by
  have hmono {q' : TCPVirtualDataRcvQueue VirtualRegion} {next' : ℕ} (hrcv : q'.rcvNxt = wrap next')
      (hle : next ≤ next') (hlt : next' < next + 2 ^ 31) : seqLE q.rcvNxt q'.rcvNxt := by
    rw [h.rcvNxt_eq, hrcv, seqLE_wrap ⟨by omega, by omega⟩]
    exact hle
  cases c with
  | insertBytesFromSegment tcpseg =>
    obtain ⟨hpos, hlt⟩ := hallowed
    rw [h.getFirstSeqNo_eq] at hlt
    have hseg : Within σ.first
        (σ.position tcpseg.sequenceNo, σ.position tcpseg.sequenceNo + tcpseg.payloadLength) := by
      refine ⟨Nat.le_add_right _ _, by simpa using hpos, ?_⟩
      show σ.position _ + _ < _
      rw [Stream.position]
      omega
    have hat : VirtualRegion.At ⟨tcpseg.sequenceNo, tcpseg.endNo⟩
        (σ.position tcpseg.sequenceNo, σ.position tcpseg.sequenceNo + tcpseg.payloadLength) := by
      rw [VirtualRegion.At, ← wrap_add_wrap, Stream.wrap_position]
      rfl
    obtain ⟨q', next', hinsert, hle, href⟩ := h.insert hat hseg fun _ _ ↦ trivial
    have hfirst := h.first_le
    have hnext : next' < σ.first + 2 ^ 31 := href.next_lt
    exact ⟨q', _, next', hinsert, hmono href.rcvNxt_eq hle (by omega), href⟩
  | extractBytesUpTo seq =>
    obtain ⟨hle, hend⟩ := hallowed
    by_cases hless : seqLess (wrap σ.first) seq
    · obtain ⟨r, q', hextract, -, href⟩ := h.extract_some hless hle
      refine ⟨q', removeTo (σ.position seq) ps, next, ?_,
        hmono href.rcvNxt_eq le_rfl (by omega), ?_⟩
      · rw [TCPVirtualDataRcvQueue.call, hextract]
        rfl
      · rw [Stream.next, if_pos hless]
        exact href
    · refine ⟨q, ps, next, ?_, hmono h.rcvNxt_eq le_rfl (by omega), ?_⟩
      · rw [TCPVirtualDataRcvQueue.call, h.extract_none hless hle hend]
        rfl
      · rwa [Stream.next, if_neg hless]

/-- **It refines the stream over every run of allowed calls.** -/
theorem run {q : TCPVirtualDataRcvQueue VirtualRegion} (h : Refines VirtualRegion.At σ q ps next)
    {calls : List (Call Packet)} (hallowed : q.AllAllowed calls) :
    ∃ q' ps' next', q.run calls = .ok q' ∧
      Refines VirtualRegion.At (σ.after calls) q' ps' next' := by
  induction calls generalizing σ q ps next with
  | nil => exact ⟨q, ps, next, rfl, h⟩
  | cons c cs ih =>
    obtain ⟨hc, hcs⟩ := hallowed
    obtain ⟨q', ps', next', hcall, -, href⟩ := h.call hc
    rw [hcall] at hcs
    obtain ⟨q'', ps'', next'', hrun, href'⟩ := ih href (hcs q' rfl)
    refine ⟨q'', ps'', next'', ?_, href'⟩
    rw [TCPVirtualDataRcvQueue.run, hcall]
    exact hrun

end Refines

/-- The stream a queue stands for determines the queue. -/
theorem Represents.queue_eq {σ σ' : Stream} {q q' : TCPVirtualDataRcvQueue VirtualRegion}
    {ps ps' : List (ℕ × ℕ)} {next next' : ℕ} (h : Represents VirtualRegion.At σ q ps next)
    (h' : Represents VirtualRegion.At σ' q' ps' next') (heq : σ = σ') : q = q' := by
  subst heq
  have hps : ps = ps' := h.canonical.eq_of_points_eq h'.canonical (h.points_eq.trans h'.points_eq.symm)
  have hnext : next = next' := h.isNext.unique h'.isNext
  subst hps hnext
  have hregions : q.regionList = q'.regionList := by
    rw [VirtualRegion.eq_map_of_at h.regions, VirtualRegion.eq_map_of_at h'.regions]
  cases q
  cases q'
  cases h.rcvNxt_eq.trans h'.rcvNxt_eq.symm
  cases hregions
  rfl

/-- The stream of a queue that waits for `startSeq`, after some calls. -/
def streamOf (startSeq : UInt32) (calls : List (Call Packet)) : Stream :=
  (Stream.init startSeq.toNat).after calls

open TCPVirtualDataRcvQueue

/-- The queue after some allowed calls. -/
theorem refines_of_allAllowed {startSeq : UInt32} {calls : List (Call Packet)}
    (h : (init (ρ := VirtualRegion) startSeq).AllAllowed calls) :
    ∃ q ps next, (init (ρ := VirtualRegion) startSeq).run calls = .ok q ∧
      Refines VirtualRegion.At (streamOf startSeq calls) q ps next := by
  have hinit : Refines VirtualRegion.At _ _ _ _ := .init startSeq.toNat
  rw [wrap_toNat] at hinit
  exact hinit.run h

/-- **The receive queue refines a set of positions.** After any allowed calls the queue represents
the bytes that have arrived and have not been handed out, `rcv_nxt` has not moved back, and another
run with the same bytes leads to the same queue. -/
theorem rcvQueue_refines_received (startSeq : UInt32) :
    (∀ calls : List (Call Packet), (init (ρ := VirtualRegion) startSeq).AllAllowed calls →
      ∃ q ps next, (init startSeq).run calls = .ok q ∧
        Represents VirtualRegion.At (streamOf startSeq calls) q ps next) ∧
    (∀ (calls : List (Call Packet)) (c : Call Packet),
      (init (ρ := VirtualRegion) startSeq).AllAllowed (calls ++ [c]) →
        ∃ q q' : TCPVirtualDataRcvQueue VirtualRegion, (init startSeq).run calls = .ok q ∧
          (init startSeq).run (calls ++ [c]) = .ok q' ∧ seqLE q.rcvNxt q'.rcvNxt) ∧
    ∀ calls calls' : List (Call Packet),
      (init (ρ := VirtualRegion) startSeq).AllAllowed calls →
      (init (ρ := VirtualRegion) startSeq).AllAllowed calls' →
      streamOf startSeq calls = streamOf startSeq calls' →
        (init (ρ := VirtualRegion) startSeq).run calls = (init startSeq).run calls' := by
  refine ⟨fun calls h ↦ ?_, fun calls c h ↦ ?_, fun calls calls' h h' heq ↦ ?_⟩
  · obtain ⟨q, ps, next, hrun, href⟩ := refines_of_allAllowed h
    exact ⟨q, ps, next, hrun, href.toRepresents⟩
  · obtain ⟨hcalls, hc⟩ := allAllowed_append.1 h
    obtain ⟨q, ps, next, hrun, href⟩ := refines_of_allAllowed hcalls
    rw [hrun] at hc
    obtain ⟨q', -, -, hcall, hle, -⟩ := href.call (hc q rfl).1
    refine ⟨q, q', hrun, ?_, hle⟩
    rw [run_append, hrun]
    show (q.call c).bind _ = _
    rw [hcall]
    rfl
  · obtain ⟨q, ps, next, hrun, href⟩ := refines_of_allAllowed h
    obtain ⟨q', ps', next', hrun', href'⟩ := refines_of_allAllowed h'
    rw [hrun, hrun', href.toRepresents.queue_eq href'.toRepresents heq]

/-- A segment that only counts its bytes. -/
def segment (sequenceNo : UInt32) (payloadLength : ℕ) : TCPSegment Unit :=
  { sequenceNo, payloadLength }

/-- Three segments across the wrap-around, the second one first, and an extraction in between. -/
def acrossZero : List (Call Unit) :=
  [.insertBytesFromSegment (segment 4294967200 100), .insertBytesFromSegment (segment 4294967000 250),
    .extractBytesUpTo 4294967100, .insertBytesFromSegment (segment 4294967290 16)]

theorem rcvQueue_refines_received_acrossZero :
    (init (ρ := VirtualRegion) 4294967000).AllAllowed acrossZero ∧
      ∃ q ps next, (init 4294967000).run acrossZero = .ok q ∧
        Represents VirtualRegion.At (streamOf 4294967000 acrossZero) q ps next :=
  ⟨by decide, (rcvQueue_refines_received 4294967000).1 acrossZero (by decide)⟩

/-- The queue after `[0, 2 ^ 30)`, all of it still there. -/
def halfFull : TCPVirtualDataRcvQueue VirtualRegion :=
  ⟨1073741824, [⟨0, 1073741824⟩]⟩

/-- The queue after ten bytes far behind `rcv_nxt`. -/
def farAhead : TCPVirtualDataRcvQueue VirtualRegion :=
  ⟨0, [⟨2147483628, 2147483638⟩]⟩

/-- Outside of the allowed calls the queue does not represent what has arrived. A segment without
data leaves an empty region. A segment less than half the number space behind `rcv_nxt`, but not
behind the first byte in the queue, is refused. An extraction up to an old number takes a region
from behind a gap. -/
theorem rcvQueue_outside :
    (init 0).run [.insertBytesFromSegment (segment 0 0)] = .ok ⟨0, [VirtualRegion.mk 0 0]⟩ ∧
    ((init 0).run [.insertBytesFromSegment (segment 0 1073741824)] = .ok halfFull ∧
      seqGE 2147483638 halfFull.getFirstSeqNo ∧ seqLE halfFull.rcvNxt 2147483638 ∧
      seqLE halfFull.rcvNxt (segment 2147483638 1073741734).endNo ∧
      halfFull.call (.insertBytesFromSegment (segment 2147483638 1073741734)) =
        .error (.outOfAcceptableRange 2147483638 3221225372)) ∧
    ((init 0).run [.insertBytesFromSegment (segment 2147483628 10)] = .ok farAhead ∧
      seqLE 4294967196 farAhead.rcvNxt ∧
      farAhead.call (.extractBytesUpTo 4294967196 : Call Unit) = .ok ⟨0, []⟩) := by
  decide

end Inet.Tcp
