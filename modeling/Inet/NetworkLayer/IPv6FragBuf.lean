import Mathlib
import Inet.Common.ReassemblyBuffer
import Inet.Foundations.TransitionSystem
import Inet.NetworkLayer.IPv6Fragmentation

/-!
# Reassembly of IPv6 datagrams

`IPv6FragBuf` keeps a reassembly buffer for every datagram of which fragments have arrived. If the
intervals of the fragments tile the payload, `addFragment` returns nothing until the last missing
fragment arrives, in whatever order and however often they come; then it returns the datagram as it
was sent, and the entry is gone (`Awaits.path`, `Awaits.completed`). Together with what the sender
does, this says when fragmentation and reassembly are inverse (`inverse_iff`).
-/

namespace Inet.IPv6

open Tiling

/-- `IPv6FragBuf::Key`. -/
structure IPv6FragBuf.Key where
  id : UInt32
  src : IPv6Address
  dest : IPv6Address
  deriving DecidableEq, Repr

/-- `IPv6Address::compare`. -/
def IPv6Address.compare : IPv6Address → IPv6Address → Ordering :=
  compareLex (compareOn d0) (compareLex (compareOn d1) (compareLex (compareOn d2) (compareOn d3)))

instance : Ord IPv6Address :=
  ⟨IPv6Address.compare⟩

instance : Std.TransOrd IPv6Address :=
  inferInstanceAs (Std.TransCmp (compareLex _ (compareLex _ (compareLex _ _))))

instance : Std.LawfulEqOrd IPv6Address where
  eq_of_compare {a b} h := by
    rw [compare, instOrdIPv6Address, IPv6Address.compare, compareLex_eq_eq, compareLex_eq_eq,
      compareLex_eq_eq] at h
    cases a
    cases b
    simpa [compareOn] using h

namespace IPv6FragBuf

/-- `Key::operator<`, as a comparison. -/
def Key.compare : Key → Key → Ordering :=
  compareLex (compareOn Key.id) (compareLex (compareOn Key.src) (compareOn Key.dest))

instance : Std.TransCmp Key.compare :=
  inferInstanceAs (Std.TransCmp (compareLex _ (compareLex _ _)))

instance : Std.LawfulEqCmp Key.compare where
  eq_of_compare {a b} h := by
    rw [Key.compare, compareLex_eq_eq, compareLex_eq_eq] at h
    cases a
    cases b
    simpa [compareOn] using h

/-- `IPv6FragBuf::DatagramBuffer`. -/
structure DatagramBuffer (α : Type) where
  buf : ReassemblyBuffer := {}
  datagram : Option (IPv6Datagram α) := none
  createdAt : ℤ
  deriving DecidableEq

end IPv6FragBuf

/-- `class IPv6FragBuf`. -/
structure IPv6FragBuf (α : Type) where
  bufs : Std.TreeMap IPv6FragBuf.Key (IPv6FragBuf.DatagramBuffer α) IPv6FragBuf.Key.compare := ∅

/-- What goes wrong in `addFragment`: `erase` is called with the end iterator, or a datagram is
complete that has no first fragment. -/
inductive ReassemblyError
  | eraseEnd
  | completedWithoutDatagram
  deriving DecidableEq, Repr

/-- What becomes of a datagram that arrives: nothing is returned, with or without a parameter
problem that is reported, or a datagram is. -/
inductive Answer (α : Type)
  | waiting
  | parameterProblem
  | complete (datagram : IPv6Datagram α)
  deriving DecidableEq

namespace IPv6Datagram

variable {α : Type}

/-- The datagram that is complete, made of its first fragment. -/
def reassembled (d : IPv6Datagram α) (totalLength : ℕ) : IPv6Datagram α :=
  let extensionHeaders := removeExtensionHeader IP_PROT_IPv6EXT_FRAGMENT d.extensionHeaders
  { d with
    extensionHeaders
    byteLength := IPv6_HEADER_BYTES + lengthOf (unfragmentable extensionHeaders) + totalLength }

/-- The key of the reassembly buffer. -/
def keyOf (d : IPv6Datagram α) (fh : IPv6FragmentHeader) : IPv6FragBuf.Key :=
  ⟨fh.identification, d.srcAddress, d.destAddress⟩

end IPv6Datagram

namespace IPv6FragBuf

variable {α : Type}

/-- The end of `addFragment`: what is done with the buffer for a key when the datagram is complete,
and when it is not. -/
def completeOrKeep (b : IPv6FragBuf α) (key : Key) (buf : DatagramBuffer α) (isComplete : Bool) :
    Except ReassemblyError (IPv6FragBuf α × Answer α) :=
  if isComplete then
    match buf.datagram with
    | none => .error .completedWithoutDatagram
    | some ret =>
      -- the iterator that is erased was looked up before the entry was made
      if b.bufs[key]?.isNone then .error .eraseEnd
      else .ok (⟨b.bufs.erase key⟩, .complete (ret.reassembled buf.buf.getTotalLength))
  else .ok (⟨b.bufs.insert key buf⟩, .waiting)

/-- `IPv6FragBuf::addFragment`. -/
def addFragment (b : IPv6FragBuf α) (d : IPv6Datagram α) (fh : IPv6FragmentHeader) (now : ℤ) :
    Except ReassemblyError (IPv6FragBuf α × Answer α) :=
  let key := d.keyOf fh
  let buf := b.bufs[key]?.getD { createdAt := now }
  let fragmentLength := d.calculateFragmentLength
  let offset := fh.fragmentOffset.toNat
  if fh.moreFragments = true ∧ fragmentLength % 8 ≠ 0 ∨ 65535 < offset + fragmentLength then
    .ok (⟨b.bufs.insert key buf⟩, .parameterProblem)
  else
    let added := buf.buf.addFragment offset ((offset + fragmentLength) % 2 ^ 16).toNat
      (!fh.moreFragments)
    let datagram := if offset = 0 then some d else buf.datagram
    b.completeOrKeep key { buf with buf := added.1, datagram } added.2

/-- `IPv6FragBuf::purgeStaleFragments`: the buffer, and the fragments that are reported. -/
def purgeStaleFragments (b : IPv6FragBuf α) (lastupdate : ℤ) :
    IPv6FragBuf α × List (IPv6Datagram α) :=
  (⟨b.bufs.filter fun _ buf ↦ ¬ buf.createdAt < lastupdate⟩,
    (b.bufs.toList.filter fun e ↦ e.2.createdAt < lastupdate).filterMap fun e ↦ e.2.datagram)

/-- The part of `IPv6::localDeliver` that concerns fragments. -/
def deliver (b : IPv6FragBuf α) (d : IPv6Datagram α) (now : ℤ) :
    Except ReassemblyError (IPv6FragBuf α × Answer α) :=
  match d.findFragmentHeader with
  | some fh => b.addFragment d fh now
  | none => .ok (b, .complete d)

end IPv6FragBuf

/-! ### The calls of a run -/

/-- A datagram arrives, or stale fragments are thrown away. -/
inductive FragBufCall (α : Type)
  | deliver (datagram : IPv6Datagram α) (now : ℤ)
  | purgeStaleFragments (lastupdate : ℤ)

/-- Whether a datagram is a fragment with a key. -/
def HasKey {α : Type} (k : IPv6FragBuf.Key) (d : IPv6Datagram α) : Prop :=
  d.findFragmentHeader.map d.keyOf = some k

instance {α : Type} (k : IPv6FragBuf.Key) (d : IPv6Datagram α) : Decidable (HasKey k d) :=
  inferInstanceAs (Decidable (_ = _))

/-- The fragments with a key that arrive. -/
def arrivals {α : Type} (k : IPv6FragBuf.Key)
    (tr : List (Transition (IPv6FragBuf α) (FragBufCall α) (Answer α))) :
    List (IPv6Datagram α) :=
  tr.flatMap fun t ↦
    match t.input with
    | .deliver d _ => if HasKey k d then [d] else []
    | .purgeStaleFragments _ => []

namespace IPv6FragBuf

open IPv6Datagram

variable {α : Type} {k : Key} {c : ℕ} {leaves as : List (IPv6Datagram α)} {b b' : IPv6FragBuf α}
  {f first : IPv6Datagram α} {now : ℤ}

/-- The buffers as a transition system. -/
def system (α : Type) : TransitionSystem (IPv6FragBuf α) (FragBufCall α) (Answer α) where
  Init b := b.bufs = ∅
  Step b call a b' :=
    match call with
    | .deliver d now => b.deliver d now = .ok (b', a)
    | .purgeStaleFragments lastupdate => b' = (b.purgeStaleFragments lastupdate).1 ∧ a = .waiting

/-- A call may deliver other datagrams, or one of our fragments, and does not purge our entry. -/
def Admits (k : Key) (leaves : List (IPv6Datagram α))
    (t : Transition (IPv6FragBuf α) (FragBufCall α) (Answer α)) : Prop :=
  match t.input with
  | .deliver d _ => HasKey k d → d ∈ leaves
  | .purgeStaleFragments lastupdate =>
    ∀ buf, t.pre.bufs[k]? = some buf → lastupdate ≤ buf.createdAt

/-- The interval of a fragment, as the reassembly buffer is told it. -/
def interval (f : IPv6Datagram α) : ℕ × ℕ :=
  (f.span.1.toNat, (f.span.2 % 2 ^ 16).toNat)

/-- The fragments into which a payload of `c` bytes has been cut, all with the key `k`. The first of
them carries the offset 0, and it is not the only one. -/
structure Leaves (k : Key) (c : ℕ) (first : IPv6Datagram α) (leaves : List (IPv6Datagram α)) : Prop where
  cut : ReassemblyBuffer.Cut interval lacksMoreFragments c leaves
  header : ∀ f ∈ leaves, ∃ fh, f.findFragmentHeader = some fh ∧ f.keyOf fh = k ∧
    (fh.moreFragments = true → f.calculateFragmentLength % 8 = 0)
  span_le : ∀ f ∈ leaves, f.span.2 ≤ 65535
  first_mem : first ∈ leaves
  eq_first_iff : ∀ f ∈ leaves, f.span.1 = 0 ↔ f = first
  part : ∀ f ∈ leaves, interval f ≠ (0, c)

/-- What is known of the entry for a key when `as` have arrived. -/
def Awaits (k : Key) (c : ℕ) (first : IPv6Datagram α) (leaves as : List (IPv6Datagram α))
    (b : IPv6FragBuf α) : Prop :=
  as ⊆ leaves ∧ if as = [] then b.bufs[k]? = none else
    ∃ buf, b.bufs[k]? = some buf ∧
      ReassemblyBuffer.Holds (ReassemblyBuffer.spansOf interval leaves)
        (ReassemblyBuffer.spansOf interval as) c buf.buf ∧
      (first ∈ as → buf.datagram = some first)

/-- Nothing has arrived. -/
theorem Awaits.nil (h : b.bufs[k]? = none) : Awaits k c first leaves [] b :=
  ⟨List.nil_subset _, by rwa [if_pos rfl]⟩

theorem completeOrKeep_of_ne {key : Key} {buf : DatagramBuffer α} {isComplete : Bool}
    {a : Answer α} (hne : key ≠ k)
    (h : b.completeOrKeep key buf isComplete = .ok (b', a)) : b'.bufs[k]? = b.bufs[k]? := by
  rw [completeOrKeep] at h
  split at h
  · split at h
    · cases h
    · split at h
      · cases h
      · cases h
        rw [Std.TreeMap.getElem?_erase, if_neg (by simpa using hne)]
  · cases h
    rw [Std.TreeMap.getElem?_insert, if_neg (by simpa using hne)]

/-- An entry is not touched by other datagrams. -/
theorem deliver_of_not {d : IPv6Datagram α} {a : Answer α} (hnot : ¬HasKey k d)
    (h : b.deliver d now = .ok (b', a)) : b'.bufs[k]? = b.bufs[k]? := by
  rw [deliver] at h
  cases hfh : d.findFragmentHeader with
  | none =>
    rw [hfh] at h
    cases h
    rfl
  | some fh =>
    have hne : d.keyOf fh ≠ k := by simpa [HasKey, hfh] using hnot
    simp only [hfh, addFragment] at h
    split at h
    · cases h
      rw [Std.TreeMap.getElem?_insert, if_neg (by simpa using hne)]
    · exact completeOrKeep_of_ne hne h

theorem span_eq {fh : IPv6FragmentHeader} (h : f.findFragmentHeader = some fh) :
    f.span = ((fh.fragmentOffset.toNat : ℤ),
      (fh.fragmentOffset.toNat : ℤ) + f.calculateFragmentLength) := by
  rw [span, h]
  rfl

/-- What `deliver` does with one of our fragments: the reassembly buffer is told its interval. -/
theorem Leaves.deliver_eq (h : Leaves k c first leaves) (hf : f ∈ leaves) (b : IPv6FragBuf α)
    (now : ℤ) :
    let buf := b.bufs[k]?.getD { createdAt := now }
    let added := buf.buf.addFragment (interval f).1 (interval f).2 f.lacksMoreFragments
    let datagram := if f.span.1 = 0 then some f else buf.datagram
    b.deliver f now = b.completeOrKeep k { buf with buf := added.1, datagram } added.2 := by
  intro buf added datagram
  obtain ⟨fh, hfh, hkey, hmultiple⟩ := h.header f hf
  have hspan := span_eq hfh
  have hle := h.span_le f hf
  rw [hspan] at hle
  have hfirst : (fh.fragmentOffset.toNat = 0) = (f.span.1 = 0) := by
    rw [hspan, Nat.cast_eq_zero]
  have hinterval : interval f = (fh.fragmentOffset.toNat,
      (((fh.fragmentOffset.toNat : ℤ) + f.calculateFragmentLength) % 2 ^ 16).toNat) := by
    rw [interval, hspan, Int.toNat_natCast]
  have hlast : f.lacksMoreFragments = !fh.moreFragments := by
    rw [lacksMoreFragments, hfh]
    rfl
  have hok : ¬(fh.moreFragments = true ∧ f.calculateFragmentLength % 8 ≠ 0 ∨
      (65535 : ℤ) < fh.fragmentOffset.toNat + f.calculateFragmentLength) := by
    rintro (⟨hmore, hne⟩ | hlt)
    · exact hne (hmultiple hmore)
    · exact hle.not_gt hlt
  simp only [deliver, hfh, addFragment, hkey, if_neg hok, hfirst]
  simp only [added, datagram, buf, hinterval, hlast]

/-- The reassembly buffer, before and after one of our fragments. -/
theorem Awaits.arrive (h : Awaits k c first leaves as b) (hleaves : Leaves k c first leaves)
    (hf : f ∈ leaves) (now : ℤ) {buf : ReassemblyBuffer}
    (hbuf : buf = (b.bufs[k]?.getD { createdAt := now }).buf) :
    ReassemblyBuffer.Holds (ReassemblyBuffer.spansOf interval leaves)
        (ReassemblyBuffer.spansOf interval (as ++ [f])) c
        (buf.addFragment (interval f).1 (interval f).2 f.lacksMoreFragments).1 ∧
      ((buf.addFragment (interval f).1 (interval f).2 f.lacksMoreFragments).2 = true ↔
        leaves ⊆ as ++ [f]) ∧
      ((buf.addFragment (interval f).1 (interval f).2 f.lacksMoreFragments).2 = true →
        (buf.addFragment (interval f).1 (interval f).2 f.lacksMoreFragments).1.getTotalLength =
          c) := by
  refine hleaves.cut.arrive h.1 ?_ hf
  have hentry := h.2
  split_ifs at hentry with hnil
  · rw [hbuf, hentry, hnil]
    exact hleaves.cut.holds_nil hf
  · obtain ⟨entry, hget, hholds, -⟩ := hentry
    rw [hbuf, hget]
    exact hholds

/-- The first fragment is kept, once it has arrived. -/
theorem Awaits.datagram_eq (h : Awaits k c first leaves as b) (hleaves : Leaves k c first leaves)
    (hf : f ∈ leaves) (hfirst : first ∈ as ++ [f]) (now : ℤ) :
    (if f.span.1 = 0 then some f else (b.bufs[k]?.getD { createdAt := now }).datagram) =
      some first := by
  split_ifs with hzero
  · rw [(hleaves.eq_first_iff f hf).1 hzero]
  · obtain hmem | hmem := List.mem_append.1 hfirst
    · have hentry := h.2
      rw [if_neg (List.ne_nil_of_mem hmem)] at hentry
      obtain ⟨entry, hget, -, hdatagram⟩ := hentry
      rw [hget]
      exact hdatagram hmem
    · exact absurd ((hleaves.eq_first_iff f hf).2 (List.mem_singleton.1 hmem).symm) hzero

/-- **A fragment that does not complete the datagram.** -/
theorem Awaits.next (h : Awaits k c first leaves as b) (hleaves : Leaves k c first leaves)
    (hf : f ∈ leaves) (hnot : ¬leaves ⊆ as ++ [f]) (now : ℤ) :
    ∃ b', b.deliver f now = .ok (b', .waiting) ∧ Awaits k c first leaves (as ++ [f]) b' := by
  obtain ⟨hholds, hiff, -⟩ := h.arrive hleaves hf now rfl
  have hdeliver := hleaves.deliver_eq hf b now
  simp only [completeOrKeep, if_neg fun hall ↦ hnot (hiff.1 hall)] at hdeliver
  refine ⟨_, hdeliver, by simpa using ⟨h.1, hf⟩, ?_⟩
  rw [if_neg (by simp)]
  exact ⟨_, Std.TreeMap.getElem?_insert_self, hholds, fun hfirst ↦ h.datagram_eq hleaves hf hfirst now⟩

/-- **The fragment that completes the datagram.** -/
theorem Awaits.completed (h : Awaits k c first leaves as b) (hleaves : Leaves k c first leaves)
    (hf : f ∈ leaves) (hall : leaves ⊆ as ++ [f]) (now : ℤ) :
    b.deliver f now = .ok (⟨b.bufs.erase k⟩, .complete (first.reassembled c)) := by
  obtain ⟨-, hiff, htotal⟩ := h.arrive hleaves hf now rfl
  have hdeliver := hleaves.deliver_eq hf b now
  have hdatagram := h.datagram_eq hleaves hf (hall hleaves.first_mem) now
  have hentry := h.2
  split_ifs at hentry with hnil
  · -- a single fragment is not all of the datagram
    rw [hnil] at hall
    exact absurd hall (hleaves.cut.not_subset_singleton hf (hleaves.part f hf))
  · obtain ⟨entry, hget, -⟩ := hentry
    have hcomplete := hiff.2 hall
    have htotal := htotal hcomplete
    simp only [completeOrKeep, hdatagram, if_pos hcomplete, htotal] at hdeliver
    rw [hdeliver, hget]
    rfl

/-- **A run in which not all fragments arrive.** -/
theorem Awaits.path {tr : List (Transition (IPv6FragBuf α) (FragBufCall α) (Answer α))}
    (hpath : (system α).Path b tr b') (hleaves : Leaves k c first leaves)
    (h : Awaits k c first leaves as b) (hadmits : ∀ t ∈ tr, Admits k leaves t)
    (hnot : ¬leaves ⊆ as ++ arrivals k tr) : Awaits k c first leaves (as ++ arrivals k tr) b' := by
  induction hpath generalizing as with
  | nil => rwa [arrivals, List.flatMap_nil, List.append_nil]
  | @cons b b₁ b' call a tr hstep _ ih =>
    rw [List.forall_mem_cons] at hadmits
    cases call with
    | deliver d now =>
      obtain hkey | hkey := Decidable.em (HasKey k d)
      · have harrivals : arrivals k (⟨b, .deliver d now, a, b₁⟩ :: tr) = d :: arrivals k tr := by
          simp [arrivals, hkey]
        rw [harrivals, List.append_cons] at hnot ⊢
        obtain ⟨b₂, heq, hnext⟩ := h.next hleaves (hadmits.1 hkey)
          (fun hall ↦ hnot (List.Subset.trans hall (List.subset_append_left _ _))) now
        cases (show b.deliver d now = .ok (b₁, a) from hstep).symm.trans heq
        exact ih hnext hadmits.2 hnot
      · have harrivals : arrivals k (⟨b, .deliver d now, a, b₁⟩ :: tr) = arrivals k tr := by
          simp [arrivals, hkey]
        have hframe := deliver_of_not hkey hstep
        rw [harrivals] at hnot ⊢
        exact ih ⟨h.1, by rw [hframe]; exact h.2⟩ hadmits.2 hnot
    | purgeStaleFragments lastupdate =>
      obtain ⟨rfl, rfl⟩ := hstep
      have harrivals : arrivals k (⟨b, .purgeStaleFragments lastupdate, .waiting,
          (b.purgeStaleFragments lastupdate).1⟩ :: tr) = arrivals k tr := rfl
      have hframe : (b.purgeStaleFragments lastupdate).1.bufs[k]? = b.bufs[k]? := by
        rw [purgeStaleFragments, Std.TreeMap.getElem?_filter']
        cases hget : b.bufs[k]? with
        | none => rfl
        | some buf => simpa using hadmits.1 buf hget
      rw [harrivals] at hnot ⊢
      exact ih ⟨h.1, by rw [hframe]; exact h.2⟩ hadmits.2 hnot

end IPv6FragBuf

/-! ### What the sender cuts is put together again -/

namespace IPv6Datagram

open IPv6FragBuf

variable {α : Type} {d : IPv6Datagram α} {id : UInt32} {mtu n offset : ℕ}

theorem Whole.interval_piece (h : d.Whole) (id : UInt32) (hzero : d.misplaced = 0)
    (hsize : d.payloadLength < 2 ^ 16) (hlt : offset < d.payloadLength) :
    interval (d.piece id n offset) = (offset, min (offset + n) d.payloadLength) := by
  have hmod : min (offset + n) d.payloadLength % 2 ^ 16 = min (offset + n) d.payloadLength :=
    Nat.mod_eq_of_lt ((min_le_right _ _).trans_lt hsize)
  rw [interval, h.span_piece_of_eq id hzero hsize hlt]
  refine Prod.ext (Int.toNat_natCast _) ?_
  show (((min (offset + n) d.payloadLength : ℕ) : ℤ) % 2 ^ 16).toNat = _
  omega

/-- The key of the fragments of a datagram. -/
def keyOfFragments (d : IPv6Datagram α) (id : UInt32) : Key :=
  ⟨id, d.srcAddress, d.destAddress⟩

/-- A fragment that is not the last one is as long as the sender means it to be. -/
theorem Whole.calculateFragmentLength_piece (h : d.Whole) (id : UInt32) (hzero : d.misplaced = 0)
    (hsize : d.payloadLength < 2 ^ 16) (hlt : offset + n < d.payloadLength) :
    (d.piece id n offset).calculateFragmentLength = n := by
  have hspan := span_eq (h.findFragmentHeader_piece id n offset)
  rw [h.span_piece_of_eq id hzero hsize (by omega), Prod.mk.injEq] at hspan
  omega

/-- **The fragments** of a datagram with no misplaced bytes are what a receiver awaits. -/
theorem Whole.leaves (h : d.Whole) (id : UInt32) (hlong : d.TooLong mtu)
    (hsize : d.payloadLength < 2 ^ 16) (hzero : d.misplaced = 0) :
    Leaves (d.keyOfFragments id) d.payloadLength (d.piece id (d.fragmentLength mtu) 0)
      (d.fragments id mtu) := by
  obtain ⟨hpos, hlt, -⟩ := hlong.fragmentLength_lt
  have hmultiple : d.fragmentLength mtu % 8 = 0 := Nat.mul_mod_left _ _
  have hpiece {f : IPv6Datagram α} (hf : f ∈ d.fragments id mtu) :
      ∃ offset < d.payloadLength, f = d.piece id (d.fragmentLength mtu) offset := by
    obtain ⟨offset, hoffset, rfl⟩ := List.mem_map.1 hf
    exact ⟨offset, mem_offsets hoffset, rfl⟩
  refine ⟨⟨?_, hsize, fun f hf ↦ ?_⟩, fun f hf ↦ ?_, fun f hf ↦ ?_, ?_, fun f hf ↦ ?_, fun f hf ↦ ?_⟩
  · have htiles := tiles_offsets (R := fun f x y ↦ interval f = (x, y)) hpos
      (fun offset hlt ↦ h.interval_piece id hzero hsize hlt) (Nat.zero_add d.payloadLength).ge
    rwa [Nat.zero_min] at htiles
  · obtain ⟨offset, hoffset, rfl⟩ := hpiece hf
    rw [h.lacksMoreFragments_piece, h.interval_piece id hzero hsize hoffset, decide_eq_true_iff]
    exact min_eq_right_iff.symm
  · obtain ⟨offset, hoffset, rfl⟩ := hpiece hf
    refine ⟨_, h.findFragmentHeader_piece id _ offset, rfl, fun hmore ↦ ?_⟩
    have hnext := not_le.1 (of_decide_eq_true hmore)
    rw [h.calculateFragmentLength_piece id hzero hsize hnext]
    omega
  · obtain ⟨offset, hoffset, rfl⟩ := hpiece hf
    rw [h.span_piece_of_eq id hzero hsize hoffset]
    show ((min _ d.payloadLength : ℕ) : ℤ) ≤ 65535
    omega
  · obtain ⟨rest, hrest⟩ := exists_offsets hpos hlt
    rw [fragments, hrest]
    exact List.mem_cons_self
  · obtain ⟨offset, hoffset, rfl⟩ := hpiece hf
    have hspan {offset : ℕ} (hoffset : offset < d.payloadLength) :
        (d.piece id (d.fragmentLength mtu) offset).span.1 = offset := by
      rw [h.span_piece_of_eq id hzero hsize hoffset]
    rw [hspan hoffset, Nat.cast_eq_zero]
    refine ⟨fun heq ↦ by rw [heq], fun heq ↦ ?_⟩
    have hfirst := hspan (hpos.trans hlt)
    rwa [← heq, hspan hoffset, Nat.cast_inj] at hfirst
  · obtain ⟨offset, hoffset, rfl⟩ := hpiece hf
    rw [h.interval_piece id hzero hsize hoffset, Ne, Prod.mk.injEq]
    omega

/-- **The first fragment** becomes the datagram again. -/
theorem Whole.reassembled_piece (h : d.Whole) (id : UInt32) (hlong : d.TooLong mtu) :
    (d.piece id n 0).reassembled d.payloadLength = d := by
  have hheaders : removeExtensionHeader IP_PROT_IPv6EXT_FRAGMENT
      (d.piece id n 0).extensionHeaders = d.extensionHeaders := by
    rw [piece, removeExtensionHeader_append h.notFragment_before rfl, before_append_after]
  have hlength : IPv6_HEADER_BYTES + lengthOf (unfragmentable d.extensionHeaders) +
      d.payloadLength = d.byteLength := by
    obtain ⟨hlt, hroom⟩ := hlong
    rw [payloadLength]
    rw [calculateUnfragmentableHeaderByteLength] at hroom ⊢
    omega
  simp only [reassembled, hheaders, hlength]
  rfl

/-- What it means that fragmentation and reassembly are inverse for a datagram that is sent. -/
def Inverse (d : IPv6Datagram α) (ie : IPv6Interface) (id : UInt32) : Prop :=
  let whole := d.fillSource ie
  let k := whole.keyOfFragments id
  ∃ fragments, d.fragmentAndSend ie true id = .ok (.sent fragments) ∧
    (∀ f ∈ fragments, f.byteLength ≤ ie.mtu) ∧
    Tiles (fun f x y ↦ f.span = (x, y)) 0 (d.payloadLength : ℤ) fragments ∧
    (∃ before last, fragments = before ++ [last] ∧ (∀ f ∈ before, f.lacksMoreFragments = false) ∧
      last.lacksMoreFragments = true) ∧
    ∀ b tr b', (system α).Path b tr b' → b.bufs[k]? = none → (∀ t ∈ tr, Admits k fragments t) →
      ¬fragments ⊆ arrivals k tr → ∀ f ∈ fragments, ∀ now,
        (fragments ⊆ arrivals k tr ++ [f] →
          b'.deliver f now = .ok (⟨b'.bufs.erase k⟩, .complete whole)) ∧
        (¬fragments ⊆ arrivals k tr ++ [f] → ∃ b'', b'.deliver f now = .ok (b'', .waiting))

theorem Whole.fillSource (h : d.Whole) (ie : IPv6Interface) : (d.fillSource ie).Whole := by
  rw [IPv6Datagram.fillSource]
  split
  · exact ⟨h.accepted, h.notFragment⟩
  · exact h

/-- The source address changes none of the lengths. -/
theorem fillSource_lengths (d : IPv6Datagram α) (ie : IPv6Interface) :
    (d.fillSource ie).byteLength = d.byteLength ∧
      (d.fillSource ie).extensionHeaders = d.extensionHeaders := by
  rw [IPv6Datagram.fillSource]
  split <;> exact ⟨rfl, rfl⟩

/-- **Fragmentation and reassembly are inverse** exactly when the header behind which the fragment
header is inserted, if there is one, is a routing or hop-by-hop header. -/
theorem inverse_iff (h : d.Whole) {ie : IPv6Interface} (hsend : d.Sendable ie)
    (hlong : d.TooLong ie.mtu) (hsize : d.payloadLength ≤ 65535) (id : UInt32) :
    d.Inverse ie id ↔ FragmentHeaderFollows d.extensionHeaders := by
  obtain ⟨hbytes, hheaders⟩ := d.fillSource_lengths ie
  have hfilled := h.fillSource ie
  have hunfragmentable : (d.fillSource ie).calculateUnfragmentableHeaderByteLength =
      d.calculateUnfragmentableHeaderByteLength := by
    rw [calculateUnfragmentableHeaderByteLength, hheaders, calculateUnfragmentableHeaderByteLength]
  have hpayload : (d.fillSource ie).payloadLength = d.payloadLength := by
    rw [payloadLength, hbytes, hunfragmentable, payloadLength]
  have hlong' : (d.fillSource ie).TooLong ie.mtu := by
    refine ⟨?_, ?_⟩
    · rw [hbytes]
      exact hlong.lt
    · rw [hunfragmentable]
      exact hlong.room
  have hsize' : (d.fillSource ie).payloadLength < 2 ^ 16 := by omega
  have htiles := hfilled.tiles_iff id hlong' hsize'
  have hsent := h.fragmentAndSend_eq hsend hlong id
  rw [hheaders, hpayload] at htiles
  constructor
  · rintro ⟨fragments, hfragments, -, htiling, -⟩
    cases hfragments.symm.trans hsent
    exact htiles.1 htiling
  · intro hfollows
    obtain ⟨hfit, hlast⟩ := hfilled.fragments_spec id hlong'
    have hzero : (d.fillSource ie).misplaced = 0 := by
      rwa [hfilled.misplaced_eq_zero_iff, hheaders]
    have hleaves := hfilled.leaves id hlong' hsize' hzero
    refine ⟨_, hsent, hfit, htiles.2 hfollows, hlast, ?_⟩
    intro b tr b' hpath hnone hadmits hnot f hf now
    have hend := (Awaits.nil hnone).path hpath hleaves hadmits hnot
    rw [List.nil_append] at hend
    constructor
    · intro hall
      rw [hend.completed hleaves hf hall now, hfilled.reassembled_piece id hlong']
    · intro hmissing
      obtain ⟨b'', hdeliver, -⟩ := hend.next hleaves hf hmissing now
      exact ⟨b'', hdeliver⟩

/-- An interface with an address. -/
def eth0 : IPv6Interface where
  preferredAddress := ⟨0x20010db8, 0, 0, 1⟩
  preferredIsTentative := false
  mtu := 1280

/-- A datagram of 2000 bytes that has no source address yet, with an extension header of 8 bytes. -/
def withHeader (extensionType : ℤ) (contents : ExtensionContents) : IPv6Datagram String where
  srcAddress := ⟨0, 0, 0, 0⟩
  destAddress := ⟨0x20010db8, 0, 0, 2⟩
  trafficClass := 0
  flowLabel := 0
  hopLimit := 32
  transportProtocol := 17
  extensionHeaders := [⟨extensionType, 8, contents⟩]
  byteLength := 2000
  encapsulatedPacket := some "ping"

theorem inverse_iff_routing :
    let d := withHeader IP_PROT_IPv6EXT_ROUTING (.routing 0 0 [])
    FragmentHeaderFollows d.extensionHeaders ∧ d.Inverse eth0 7 := by
  intro d
  have hfollows : FragmentHeaderFollows d.extensionHeaders := by decide
  exact ⟨hfollows, (inverse_iff ⟨⟨d.extensionHeaders, rfl⟩, by decide⟩ ⟨by decide, by decide⟩
    ⟨by decide, by decide⟩ (by decide) 7).2 hfollows⟩

/-- The header takes 8 bytes off every fragment. -/
theorem not_inverse_destinationOptions :
    let d := withHeader IP_PROT_IPv6EXT_DEST .destinationOptions
    d.Whole ∧ d.Sendable eth0 ∧ d.TooLong eth0.mtu ∧ d.payloadLength ≤ 65535 ∧
      ¬d.Inverse eth0 7 := by
  intro d
  have hwhole : d.Whole := ⟨⟨d.extensionHeaders, rfl⟩, by decide⟩
  have hsend : d.Sendable eth0 := ⟨by decide, by decide⟩
  have hlong : d.TooLong eth0.mtu := ⟨by decide, by decide⟩
  refine ⟨hwhole, hsend, hlong, by decide, ?_⟩
  rintro ⟨fragments, hfragments, -, htiles, -⟩
  cases hfragments.symm.trans (hwhole.fragmentAndSend_eq hsend hlong 7)
  have hlong' : (d.fillSource eth0).TooLong eth0.mtu := ⟨by decide, by decide⟩
  have hpayload : (d.fillSource eth0).payloadLength = d.payloadLength := by decide
  rw [← hpayload] at htiles
  have hfollows := ((hwhole.fillSource eth0).tiles_iff 7 hlong' (by decide)).1 htiles
  exact absurd hfollows (by decide)

end IPv6Datagram

end Inet.IPv6
