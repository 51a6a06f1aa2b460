import Mathlib
import Inet.Common.ReassemblyBuffer
import Inet.Foundations.TransitionSystem
import Inet.NetworkLayer.IPv4Fragmentation

/-!
# Reassembly of IPv4 datagrams

`IPv4FragBuf` keeps a reassembly buffer for every datagram of which fragments have arrived, under
its identification and its addresses. Whatever fragments of other datagrams come in between, and
however often a fragment comes, `addFragment` returns nothing until the last missing fragment
arrives; then it returns the datagram with its original length, and the entry is gone
(`reassembly`).

How raw bytes are turned into a packet of some protocol is given by the registered deserializers.
-/

namespace Inet.IPv4

open Tiling

/-- `IPv4FragBuf::Key`. -/
structure IPv4FragBuf.Key where
  id : UInt16
  src : UInt32
  dest : UInt32
  deriving DecidableEq, Repr

namespace IPv4FragBuf

/-- `Key::operator<`, as a comparison. -/
def Key.compare : Key → Key → Ordering :=
  compareLex (compareOn Key.id) (compareLex (compareOn Key.src) (compareOn Key.dest))

instance : Std.TransCmp Key.compare :=
  inferInstanceAs (Std.TransCmp (compareLex _ (compareLex _ _)))

instance : Std.LawfulEqCmp Key.compare where
  eq_of_compare {a b} h := by
    rw [Key.compare, compareLex_eq_eq, compareLex_eq_eq] at h
    cases a
    cases b
    simpa [compareOn] using h

/-- `IPv4FragBuf::DatagramBuffer`. -/
structure DatagramBuffer (α : Type) where
  buf : ReassemblyBuffer := {}
  datagram : Option (IPv4Datagram α) := none
  lastupdate : ℤ := 0
  deriving DecidableEq

end IPv4FragBuf

/-- `class IPv4FragBuf`. -/
structure IPv4FragBuf (α : Type) where
  bufs : Std.TreeMap IPv4FragBuf.Key (IPv4FragBuf.DatagramBuffer α) IPv4FragBuf.Key.compare := ∅

/-- What goes wrong in `addFragment`: `erase` is called with the end iterator, or an exception is
thrown. -/
inductive ReassemblyError
  | eraseEnd
  | lengthBecameNegative
  | deserializerError
  deriving DecidableEq, Repr

/-- A deserializer reads the bytes behind the header, with the addresses of the datagram as context.
It may return nothing. -/
abbrev Deserializer (α : Type) :=
  UInt32 → UInt32 → List (Option UInt8) → Except ReassemblyError (Option (EncapsulatedPacket α))

/-- The deserializers that are registered for IP protocols. -/
abbrev Serializers (α : Type) :=
  ℤ → Option (Deserializer α)

namespace Serializers

variable {α : Type}

/-- `ByteArraySerializer::deserialize`. -/
def byteArray (bytes : List (Option UInt8)) : EncapsulatedPacket α :=
  .raw ⟨.setDataFromBuffer bytes, bytes.length⟩

/-- `SerializerBase::lookupAndDeserialize`. -/
def lookupAndDeserialize (serializers : Serializers α) (src dest : UInt32) (id : ℤ)
    (bytes : List (Option UInt8)) : Except ReassemblyError (Option (EncapsulatedPacket α)) :=
  if bytes = [] then .ok none
  else
    match serializers id with
    | none => .ok (some (byteArray bytes))
    | some deserialize => (deserialize src dest bytes).map fun pkt ↦ some (pkt.getD (byteArray bytes))

end Serializers

namespace IPv4Datagram

variable {α : Type}

/-- The key of the reassembly buffer. -/
def key (d : IPv4Datagram α) : IPv4FragBuf.Key :=
  ⟨UInt16.ofInt d.identification, d.srcAddress, d.destAddress⟩

/-- Whether `reassembleAndDeliver` takes a datagram for a fragment. -/
def IsFragment (d : IPv4Datagram α) : Prop :=
  d.fragmentOffset ≠ 0 ∨ d.moreFragments = true

instance (d : IPv4Datagram α) : Decidable d.IsFragment :=
  inferInstanceAs (Decidable (_ ∨ _))

/-- Raw bytes are moved to their offset. The length of the packet is what `byteLength` makes of it.
-/
def moveRawBytes (d : IPv4Datagram α) (byteLength : RawPacket → ByteArray → ℕ) : IPv4Datagram α :=
  match d.encapsulatedPacket with
  | some (.raw rp) =>
    if d.fragmentOffset ≠ 0 then
      let byteArray := rp.byteArray.expandData d.fragmentOffset 0
      { d with encapsulatedPacket := some (.raw ⟨byteArray, byteLength rp byteArray⟩) }
    else d
  | _ => d

/-- The raw bytes of another fragment are merged in. -/
def mergeRawBytes (stored d : IPv4Datagram α) : IPv4Datagram α :=
  match stored.encapsulatedPacket, d.encapsulatedPacket with
  | some (.raw brp), some (.raw rp) =>
    { stored with
      encapsulatedPacket := some (.raw
        ⟨brp.byteArray.copyDataFromBuffer d.fragmentOffset rp.byteArray.bytes,
          rp.byteArray.dataArraySize⟩) }
  | _, _ => stored

/-- The datagram that is kept when a fragment arrives. -/
def storeFragment (stored : Option (IPv4Datagram α)) (d : IPv4Datagram α) : IPv4Datagram α :=
  match stored with
  | none => d.moveRawBytes fun rp _ ↦ rp.byteLength + d.fragmentOffset
  | some stored =>
    if stored.encapsulatedPacket = none ∧ d.encapsulatedPacket ≠ none then
      d.moveRawBytes fun _ byteArray ↦ byteArray.dataArraySize
    else stored.mergeRawBytes d

/-- The header of the datagram that is complete. -/
def complete (d : IPv4Datagram α) (totalLength : ℕ) : IPv4Datagram α :=
  { d with
    byteLength := d.headerLength + totalLength
    fragmentOffset := 0
    moreFragments := false }

/-- `decapsulate`, and `encapsulate` of another packet. -/
def exchangePacket (d : IPv4Datagram α) (old enc : EncapsulatedPacket α) :
    Except ReassemblyError (IPv4Datagram α) :=
  if 0 < d.byteLength ∧ d.byteLength < old.byteLength then .error .lengthBecameNegative
  else .ok { d with
    byteLength := d.byteLength - old.byteLength + enc.byteLength
    encapsulatedPacket := some enc }

/-- Raw bytes are turned into a packet of the protocol. -/
def deserializeRawBytes (serializers : Serializers α) (d : IPv4Datagram α) :
    Except ReassemblyError (IPv4Datagram α) :=
  match d.encapsulatedPacket with
  | some (.raw rp) => do
    match ← serializers.lookupAndDeserialize d.srcAddress d.destAddress d.transportProtocol
      rp.byteArray.bytes with
    | some enc => d.exchangePacket (.raw rp) enc
    | none => return d
  | _ => .ok d

end IPv4Datagram

namespace IPv4FragBuf

variable {α : Type}

/-- `IPv4FragBuf::addFragment`. -/
def addFragment (serializers : Serializers α) (b : IPv4FragBuf α) (d : IPv4Datagram α) (now : ℤ) :
    Except ReassemblyError (IPv4FragBuf α × Option (IPv4Datagram α)) :=
  let i := b.bufs[d.key]?
  let buf := i.getD {}
  let added := buf.buf.addFragment d.fragmentOffset (d.fragmentOffset + d.payloadLength)
    (!d.moreFragments)
  let datagram := IPv4Datagram.storeFragment buf.datagram d
  if added.2 then
    -- the iterator that is erased was looked up before the entry was made
    if i.isNone then .error .eraseEnd
    else ((datagram.complete added.1.getTotalLength).deserializeRawBytes serializers).map fun ret ↦
      (⟨b.bufs.erase d.key⟩, some ret)
  else .ok (⟨b.bufs.insert d.key ⟨added.1, some datagram, now⟩⟩, none)

/-- `IPv4FragBuf::purgeStaleFragments`: the buffer, and the fragments that are reported. -/
def purgeStaleFragments (b : IPv4FragBuf α) (lastupdate : ℤ) :
    IPv4FragBuf α × List (Option (IPv4Datagram α)) :=
  (⟨b.bufs.filter fun _ buf ↦ ¬ buf.lastupdate < lastupdate⟩,
    (b.bufs.toList.filter fun e ↦ e.2.lastupdate < lastupdate).map fun e ↦ e.2.datagram)

end IPv4FragBuf

/-! ### The fragments of one datagram -/

namespace IPv4Datagram

variable {α : Type} {k : IPv4FragBuf.Key} {c : ℕ} {leaves : List (IPv4Datagram α)}
  {f : IPv4Datagram α}

/-- The fragments into which a payload of `c` bytes has been cut, all with the key `k`. -/
structure Leaves (k : IPv4FragBuf.Key) (c : ℕ) (leaves : List (IPv4Datagram α)) : Prop where
  covers : Covers 0 c leaves
  lt : c < 2 ^ 16
  key_eq : ∀ f ∈ leaves, f.key = k
  moreFragments_iff : ∀ f ∈ leaves, (f.moreFragments = false ↔ f.span.2 = c)
  isFragment : ∀ f ∈ leaves, f.IsFragment

/-- The intervals of the fragments. -/
def spans (l : List (IPv4Datagram α)) : Set (ℕ × ℕ) :=
  {p | ∃ f ∈ l, f.span = p}

namespace Leaves

theorem cut (h : Leaves k c leaves) :
    ReassemblyBuffer.Cut span (fun f ↦ !f.moreFragments) c leaves where
  tiles := h.covers
  lt := h.lt
  isLast_iff f hf := by rw [← h.moreFragments_iff f hf, Bool.not_eq_true']

/-- A fragment is not all of the datagram. -/
theorem not_subset_singleton (h : Leaves k c leaves) (hf : f ∈ leaves) : ¬ leaves ⊆ [f] := by
  refine h.cut.not_subset_singleton hf fun hspan ↦ ?_
  rcases h.isFragment f hf with hoffset | hmore
  · exact hoffset (congrArg Prod.fst hspan)
  · have hlast := (h.moreFragments_iff f hf).2 (congrArg Prod.snd hspan)
    simp [hmore] at hlast

end Leaves

/-- The datagram that is kept after some fragments have arrived. -/
def stored (l : List (IPv4Datagram α)) : Option (IPv4Datagram α) :=
  l.foldl (fun s f ↦ some (storeFragment s f)) none

theorem stored_concat (l : List (IPv4Datagram α)) (f : IPv4Datagram α) :
    stored (l ++ [f]) = some (storeFragment (stored l) f) := by
  rw [stored, List.foldl_append]
  rfl

end IPv4Datagram

/-! ### The calls of a run -/

/-- A call: of `addFragment`, or of `purgeStaleFragments`. -/
inductive FragBufCall (α : Type)
  | addFragment (datagram : IPv4Datagram α) (now : ℤ)
  | purgeStaleFragments (lastupdate : ℤ)

/-- The fragments of the datagrams with a key that are added by some calls. -/
def arrivals {α : Type} (k : IPv4FragBuf.Key)
    (tr : List (Transition (IPv4FragBuf α) (FragBufCall α) (Option (IPv4Datagram α)))) :
    List (IPv4Datagram α) :=
  tr.flatMap fun t ↦
    match t.input with
    | .addFragment d _ => if d.key = k then [d] else []
    | .purgeStaleFragments _ => []

namespace IPv4FragBuf

open IPv4Datagram

variable {α : Type} {serializers : Serializers α} {k : Key} {c : ℕ}
  {leaves as : List (IPv4Datagram α)} {b b' : IPv4FragBuf α} {f : IPv4Datagram α} {now : ℤ}

/-- The buffers as a transition system. -/
def system (serializers : Serializers α) :
    TransitionSystem (IPv4FragBuf α) (FragBufCall α) (Option (IPv4Datagram α)) where
  Init b := b.bufs = ∅
  Step b call o b' :=
    match call with
    | .addFragment d now => b.addFragment serializers d now = .ok (b', o)
    | .purgeStaleFragments lastupdate => b' = (b.purgeStaleFragments lastupdate).1 ∧ o = none

/-- A call may add a fragment of another datagram, or one of ours, and does not purge our entry. -/
def Admits (k : Key) (leaves : List (IPv4Datagram α))
    (t : Transition (IPv4FragBuf α) (FragBufCall α) (Option (IPv4Datagram α))) : Prop :=
  match t.input with
  | .addFragment d _ => d.key = k → d ∈ leaves
  | .purgeStaleFragments lastupdate =>
    ∀ buf, t.pre.bufs[k]? = some buf → lastupdate ≤ buf.lastupdate

/-- What is known of the entry for a key when `as` have arrived. -/
def Awaits (k : Key) (c : ℕ) (leaves as : List (IPv4Datagram α)) (b : IPv4FragBuf α) : Prop :=
  as ⊆ leaves ∧ if as = [] then b.bufs[k]? = none else
    ∃ buf, b.bufs[k]? = some buf ∧ ReassemblyBuffer.Holds (spans leaves) (spans as) c buf.buf ∧
      buf.datagram = stored as

/-- An entry is not touched by fragments of other datagrams. -/
theorem addFragment_of_ne {d : IPv4Datagram α} {o : Option (IPv4Datagram α)} (hne : d.key ≠ k)
    (h : b.addFragment serializers d now = .ok (b', o)) : b'.bufs[k]? = b.bufs[k]? := by
  simp only [addFragment] at h
  split_ifs at h
  · obtain ⟨ret, -, heq⟩ := exists_of_map_eq_ok h
    cases heq
    rw [Std.TreeMap.getElem?_erase, if_neg (by simpa using hne)]
  · cases h
    rw [Std.TreeMap.getElem?_insert, if_neg (by simpa using hne)]

/-- Whether a fragment arrives for the first time or again, the buffer knows when all have. -/
theorem Awaits.added (h : Awaits k c leaves as b) (hleaves : Leaves k c leaves) (hf : f ∈ leaves)
    {buf : ReassemblyBuffer} (hbuf : buf = (b.bufs[k]?.getD {}).buf) :
    ReassemblyBuffer.Holds (spans leaves) (spans (as ++ [f])) c
        (buf.addFragment f.fragmentOffset (f.fragmentOffset + f.payloadLength)
          (!f.moreFragments)).1 ∧
      ((buf.addFragment f.fragmentOffset (f.fragmentOffset + f.payloadLength)
          (!f.moreFragments)).2 = true ↔ leaves ⊆ as ++ [f]) ∧
      ((buf.addFragment f.fragmentOffset (f.fragmentOffset + f.payloadLength)
          (!f.moreFragments)).2 = true →
        (buf.addFragment f.fragmentOffset (f.fragmentOffset + f.payloadLength)
          (!f.moreFragments)).1.getTotalLength = c) := by
  refine hleaves.cut.arrive h.1 ?_ hf
  have hentry := h.2
  split_ifs at hentry with hnil
  · rw [hbuf, hentry, hnil]
    exact hleaves.cut.holds_nil hf
  · obtain ⟨entry, hget, hholds, -⟩ := hentry
    rw [hbuf, hget]
    exact hholds

/-- **A fragment that does not complete the datagram.** -/
theorem Awaits.next (h : Awaits k c leaves as b) (hleaves : Leaves k c leaves) (hf : f ∈ leaves)
    (hnot : ¬ leaves ⊆ as ++ [f]) (serializers : Serializers α) (now : ℤ) :
    ∃ b', b.addFragment serializers f now = .ok (b', none) ∧ Awaits k c leaves (as ++ [f]) b' := by
  obtain ⟨hholds, hiff, -⟩ := h.added hleaves hf rfl
  have hkey := hleaves.key_eq f hf
  have hstored : (b.bufs[k]?.getD {}).datagram = stored as := by
    have hentry := h.2
    split_ifs at hentry with hnil
    · rw [hentry, hnil]
      rfl
    · obtain ⟨entry, hget, -, hstored⟩ := hentry
      rw [hget]
      exact hstored
  let added := ((b.bufs[k]?.getD {}).buf.addFragment f.fragmentOffset
    (f.fragmentOffset + f.payloadLength) (!f.moreFragments)).1
  refine ⟨⟨b.bufs.insert k ⟨added, some (storeFragment (stored as) f), now⟩⟩, ?_, ?_⟩
  · simp only [addFragment, hkey, hstored, if_neg fun hall ↦ hnot (hiff.1 hall)]
    rfl
  · refine ⟨by simpa using ⟨h.1, hf⟩, ?_⟩
    rw [if_neg (by simp)]
    exact ⟨_, Std.TreeMap.getElem?_insert_self, hholds, (stored_concat as f).symm⟩

/-- **The fragment that completes the datagram.** -/
theorem Awaits.completed (h : Awaits k c leaves as b) (hleaves : Leaves k c leaves)
    (hf : f ∈ leaves) (hall : leaves ⊆ as ++ [f]) (now : ℤ) :
    b.addFragment serializers f now =
      (((storeFragment (stored as) f).complete c).deserializeRawBytes serializers).map fun ret ↦
        (⟨b.bufs.erase k⟩, some ret) := by
  obtain ⟨-, hiff, htotal⟩ := h.added hleaves hf rfl
  have hkey := hleaves.key_eq f hf
  have hentry := h.2
  split_ifs at hentry with hnil
  · -- a single fragment is not all of the datagram
    rw [hnil] at hall
    exact absurd hall (hleaves.not_subset_singleton hf)
  · obtain ⟨entry, hget, -, hstored⟩ := hentry
    simp only [hget, Option.getD_some] at hiff htotal
    have hcomplete := hiff.2 hall
    simp only [addFragment, hkey, hget, Option.getD_some, if_pos hcomplete, htotal hcomplete,
      hstored, Option.isNone_some, Bool.false_eq_true, if_false]

/-- **A run in which not all fragments arrive.** -/
theorem Awaits.path {tr : List (Transition (IPv4FragBuf α) (FragBufCall α) (Option (IPv4Datagram α)))}
    (hpath : (system serializers).Path b tr b') (hleaves : Leaves k c leaves)
    (h : Awaits k c leaves as b) (hadmits : ∀ t ∈ tr, Admits k leaves t)
    (hnot : ¬ leaves ⊆ as ++ arrivals k tr) : Awaits k c leaves (as ++ arrivals k tr) b' := by
  induction hpath generalizing as with
  | nil => rwa [arrivals, List.flatMap_nil, List.append_nil]
  | @cons b b₁ b' call o tr hstep _ ih =>
    rw [List.forall_mem_cons] at hadmits
    cases call with
    | addFragment d now =>
      by_cases hkey : d.key = k
      · have harrivals : arrivals k (⟨b, .addFragment d now, o, b₁⟩ :: tr) =
            d :: arrivals k tr := by simp [arrivals, hkey]
        have hstep' : b.addFragment serializers d now = .ok (b₁, o) := hstep
        have hd : d ∈ leaves := hadmits.1 hkey
        rw [harrivals, List.append_cons] at hnot ⊢
        obtain ⟨b₂, heq, hnext⟩ := h.next hleaves hd
          (fun hall ↦ hnot (List.Subset.trans hall (List.subset_append_left _ _))) serializers now
        cases hstep'.symm.trans heq
        exact ih hnext hadmits.2 hnot
      · have harrivals : arrivals k (⟨b, .addFragment d now, o, b₁⟩ :: tr) = arrivals k tr := by
          simp [arrivals, hkey]
        have hframe := addFragment_of_ne hkey hstep
        rw [harrivals] at hnot ⊢
        exact ih ⟨h.1, by rw [hframe]; exact h.2⟩ hadmits.2 hnot
    | purgeStaleFragments lastupdate =>
      obtain ⟨rfl, rfl⟩ := hstep
      have harrivals : arrivals k (⟨b, .purgeStaleFragments lastupdate, none,
          (b.purgeStaleFragments lastupdate).1⟩ :: tr) = arrivals k tr := rfl
      have hframe : (b.purgeStaleFragments lastupdate).1.bufs[k]? = b.bufs[k]? := by
        rw [purgeStaleFragments, Std.TreeMap.getElem?_filter']
        cases hget : b.bufs[k]? with
        | none => rfl
        | some buf => simpa using hadmits.1 buf hget
      rw [harrivals] at hnot ⊢
      exact ih ⟨h.1, by rw [hframe]; exact h.2⟩ hadmits.2 hnot

/-- Of fragments that carry the same packet, not of raw bytes, the first is kept. -/
theorem exists_stored {packet : Option (EncapsulatedPacket α)} (hraw : ∀ rp, packet ≠ some (.raw rp))
    {l : List (IPv4Datagram α)} (hl : ∀ f ∈ l, f.encapsulatedPacket = packet) (hne : l ≠ []) :
    ∃ g ∈ l, stored l = some g := by
  induction l using List.reverseRecOn with
  | nil => exact absurd rfl hne
  | append_singleton l f ih =>
    rw [List.forall_mem_append, List.forall_mem_singleton] at hl
    rw [stored_concat]
    rcases List.eq_nil_or_concat l with rfl | ⟨l', g', heq⟩
    · refine ⟨f, by simp, ?_⟩
      have hmove : f.moveRawBytes (fun rp _ ↦ rp.byteLength + f.fragmentOffset) = f := by
        rw [moveRawBytes, hl.2]
        split
        · rename_i rp
          exact absurd rfl (hraw rp)
        · rfl
      exact congrArg some hmove
    · obtain ⟨g, hg, hstored⟩ := ih hl.1 (by rw [heq]; simp)
      refine ⟨g, List.mem_append_left _ hg, ?_⟩
      have hmerge : g.mergeRawBytes f = g := by
        rw [mergeRawBytes, hl.1 g hg]
        split
        · rename_i rp _ _
          exact absurd rfl (hraw rp)
        · rfl
      have hstay : ¬ (g.encapsulatedPacket = none ∧ f.encapsulatedPacket ≠ none) := by
        rw [hl.1 g hg, hl.2]
        exact fun h ↦ h.2 h.1
      rw [hstored, storeFragment]
      simp only [if_neg hstay, hmerge]

theorem deserializeRawBytes_of_not_raw (hraw : ∀ rp, f.encapsulatedPacket ≠ some (.raw rp)) :
    f.deserializeRawBytes serializers = .ok f := by
  rw [deserializeRawBytes]
  split
  · rename_i rp heq
    exact absurd heq (hraw rp)
  · rfl

/-- The fragments of a datagram that has been fragmented. -/
theorem leaves_of_fragments {d : IPv4Datagram α} (h : d.Fragments leaves) (hsrc : d.srcAddress ≠ 0)
    (hoffset : d.fragmentOffset = 0) (hlast : d.moreFragments = false)
    (hlength : d.payloadLength ≤ 65535 - d.headerLength) (hfragment : ∀ f ∈ leaves, f.IsFragment)
    (hf : f ∈ leaves) :
    Leaves d.key d.payloadLength leaves ∧ ∀ g ∈ leaves, d.PartOf g := by
  have hpos : 0 < d.payloadLength := by
    by_contra hzero
    obtain ⟨timeToLive, rfl⟩ :=
      h.of_payloadLength_eq_zero hsrc (Nat.eq_zero_of_not_pos hzero)
    rcases hfragment _ (List.mem_singleton_self _) with hne | hmore
    · exact hne hoffset
    · simp [hlast] at hmore
  obtain ⟨hcovers, hparts⟩ := h.covers hsrc hoffset hlast hpos
  refine ⟨⟨hcovers, by omega, fun g hg ↦ ?_, fun g hg ↦ (hparts g hg).moreFragments_iff,
    hfragment⟩, hparts⟩
  rw [key, (hparts g hg).identification, (hparts g hg).srcAddress, (hparts g hg).destAddress, key]

/-- **Fragmentation and reassembly are inverse.** The fragments make up the payload; when they reach
`addFragment`, in any order and any number of times, nothing is returned until the last missing one
arrives. Then the datagram is returned with its length, and its entry is gone. -/
theorem reassembly (serializers : Serializers α) {d : IPv4Datagram α} (h : d.Fragments leaves)
    (hsrc : d.srcAddress ≠ 0) (hoffset : d.fragmentOffset = 0) (hlast : d.moreFragments = false)
    (hlength : d.payloadLength ≤ 65535 - d.headerLength) :
    ((leaves.flatMap fun f ↦ List.range' f.fragmentOffset f.payloadLength) =
        List.range d.payloadLength ∧
      (∀ f ∈ leaves, 8 ∣ f.fragmentOffset) ∧
      ∃ before last, leaves = before ++ [last] ∧ (∀ f ∈ before, f.moreFragments = true) ∧
        last.moreFragments = false) ∧
    ((∀ f ∈ leaves, f.IsFragment) → (∀ rp, d.encapsulatedPacket ≠ some (.raw rp)) →
      ∀ b tr b', (system serializers).Path b tr b' → b.bufs[d.key]? = none →
        (∀ t ∈ tr, Admits d.key leaves t) → ¬ leaves ⊆ arrivals d.key tr →
        ∀ f ∈ leaves, ∀ now, ∃ b'' o, b'.addFragment serializers f now = .ok (b'', o) ∧
          (¬ leaves ⊆ arrivals d.key tr ++ [f] → o = none) ∧
          (leaves ⊆ arrivals d.key tr ++ [f] →
            (∃ ret, o = some ret ∧ ret.payloadLength = d.payloadLength ∧ ret.fragmentOffset = 0 ∧
              ret.moreFragments = false ∧ ret.key = d.key ∧
              ret.encapsulatedPacket = d.encapsulatedPacket) ∧ b''.bufs[d.key]? = none)) := by
  refine ⟨fragments_spec h hsrc hoffset hlast, ?_⟩
  intro hfragment hraw b tr b' hpath hnone hadmits hnot f hf now
  obtain ⟨hleaves, hparts⟩ := leaves_of_fragments h hsrc hoffset hlast hlength hfragment hf
  have hstart : Awaits d.key d.payloadLength leaves [] b := ⟨by simp, by rwa [if_pos rfl]⟩
  have hawaits := hstart.path hpath hleaves hadmits hnot
  rw [List.nil_append] at hawaits
  by_cases hall : leaves ⊆ arrivals d.key tr ++ [f]
  · have hsubset : ∀ g ∈ arrivals d.key tr ++ [f], g ∈ leaves := by
      simpa [or_imp, forall_and] using ⟨hawaits.1, hf⟩
    have hpacket : ∀ g ∈ arrivals d.key tr ++ [f], g.encapsulatedPacket = d.encapsulatedPacket :=
      fun g hg ↦ (hparts g (hsubset g hg)).encapsulatedPacket
    obtain ⟨g, hg, hstored⟩ := exists_stored hraw hpacket (by simp)
    rw [stored_concat] at hstored
    have hpart := hparts g (hsubset g hg)
    have hret : (g.complete d.payloadLength).deserializeRawBytes serializers = .ok _ :=
      deserializeRawBytes_of_not_raw (by
        show ∀ rp, g.encapsulatedPacket ≠ _
        rw [hpart.encapsulatedPacket]
        exact hraw)
    refine ⟨⟨b'.bufs.erase d.key⟩, some (g.complete d.payloadLength), ?_,
      fun hmissing ↦ absurd hall hmissing, fun _ ↦ ⟨⟨_, rfl, Nat.add_sub_cancel_left _ _, rfl, rfl,
        ?_, hpart.encapsulatedPacket⟩, ?_⟩⟩
    · rw [hawaits.completed hleaves hf hall now, Option.some.inj hstored, hret]
      rfl
    · exact hleaves.key_eq g (hsubset g hg)
    · exact Std.TreeMap.getElem?_erase_self
  · obtain ⟨b'', heq, -⟩ := hawaits.next hleaves hf hall serializers now
    exact ⟨b'', none, heq, fun _ ↦ rfl, fun hall' ↦ absurd hall' hall⟩

/-! ### An example, and what the claim leaves out -/

/-- A datagram with 16 bytes of payload. -/
def small (encapsulatedPacket : Option (EncapsulatedPacket Unit)) : IPv4Datagram Unit where
  srcAddress := 167772161
  destAddress := 167772162
  timeToLive := 32
  identification := 7
  byteLength := 36
  encapsulatedPacket

/-- Its two halves. -/
def halves (encapsulatedPacket : Option (EncapsulatedPacket Unit)) : List (IPv4Datagram Unit) :=
  [(small encapsulatedPacket).fragment 8 0, (small encapsulatedPacket).fragment 8 8]

theorem fragments_halves (encapsulatedPacket : Option (EncapsulatedPacket Unit)) :
    (small encapsulatedPacket).Fragments (halves encapsulatedPacket) := by
  have hsent : (small encapsulatedPacket).fragmentAndSend ⟨167772161, 28⟩ =
      .ok (.sent (halves encapsulatedPacket)) := by
    simp [fragmentAndSend, fillSource, small, halves, fragmentLoop, fragment, payloadLength]
  have hwhole : (small encapsulatedPacket).Fragments ([] ++ small encapsulatedPacket :: []) := .whole
  exact .send ⟨167772161, 28⟩ hwhole hsent

/-- The second half has arrived, and the first one comes. -/
theorem reassembly_halves : ∃ b b'' o,
    (system fun _ ↦ none).Path {} [⟨{}, .addFragment ((small none).fragment 8 8) 0, none, b⟩] b ∧
      b.addFragment (fun _ ↦ none) ((small none).fragment 8 0) 1 = .ok (b'', o) ∧
      ((∃ ret, o = some ret ∧ ret.payloadLength = (small none).payloadLength ∧
        ret.fragmentOffset = 0 ∧ ret.moreFragments = false ∧ ret.key = (small none).key ∧
        ret.encapsulatedPacket = (small none).encapsulatedPacket) ∧
        b''.bufs[(small none).key]? = none) := by
  obtain ⟨b, hstep⟩ : ∃ b, addFragment (fun _ ↦ none) {} ((small none).fragment 8 8) 0 =
      .ok (b, none) := ⟨_, rfl⟩
  have hpath : (system fun _ ↦ none).Path {}
      [⟨{}, .addFragment ((small none).fragment 8 8) 0, none, b⟩] b := .single hstep
  have harrivals : arrivals (small none).key [⟨{}, .addFragment ((small none).fragment 8 8) 0, none,
      b⟩] = [(small none).fragment 8 8] := rfl
  have hspec := (reassembly (fun _ ↦ none) (fragments_halves none) (by decide) rfl rfl
    (by decide)).2 (by decide) (by simp [small]) {} _ b hpath rfl (by simp [Admits, halves])
    (by rw [harrivals]; decide) ((small none).fragment 8 0) (by simp [halves]) 1
  obtain ⟨b'', o, hok, -, hall⟩ := hspec
  exact ⟨b, b'', o, hpath, hok, hall (by rw [harrivals]; decide)⟩

/-- **What the datagrams may not be.** The leaf of a datagram that fits into the MTU is erased where
there is no entry; a datagram that must not be fragmented is dropped where the MTU admits 8 bytes;
and of raw bytes, whose halves carry all 16 bytes, the datagram that is returned has 24 bytes of
payload when the second half arrives first. -/
theorem reassembly_limits :
    ((small none).fragmentAndSend ⟨167772161, 1500⟩ = .ok (.sent [small none]) ∧
      addFragment (fun _ ↦ none) {} (small none) 0 = .error .eraseEnd) ∧
    { small none with dontFragment := true }.fragmentAndSend ⟨167772161, 28⟩ =
      .ok (.dropped .fragmentationNeeded) ∧
    (let raw : EncapsulatedPacket Unit := .raw ⟨.setDataFromBuffer (List.replicate 16 (some 5)), 16⟩
     (do
        let (b, _) ← addFragment (fun _ ↦ none) {} ((small (some raw)).fragment 8 8) 0
        let (_, ret) ← addFragment (fun _ ↦ none) b ((small (some raw)).fragment 8 0) 0
        return ret.map payloadLength) = .ok (some 24)) := by
  refine ⟨⟨rfl, rfl⟩, rfl, ?_⟩
  decide +kernel

end IPv4FragBuf

end Inet.IPv4
