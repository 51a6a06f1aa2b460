import Inet.NetworkLayer.IPv4FragBuf

/-!
# Reassembly of raw bytes

The fragments of a datagram may carry raw bytes, each those of its own interval. `addFragment` moves
the bytes of the fragment that comes first to their offset and copies those of the others into them.
The array has then all the memory it needs, but its size is that of the first copy: what is returned
ends where the fragment that came first ends (`Holds.bytes_eq`). So the bytes are restored if and
only if the last fragment comes first (`reassembly_raw`).
-/

namespace Inet.IPv4

namespace IPv4Datagram

variable {α : Type} {k : IPv4FragBuf.Key} {protocol : ℤ} {payload : List UInt8}
  {leaves l : List (IPv4Datagram α)} {f g : IPv4Datagram α}

/-- A fragment carries the raw bytes of its interval. -/
structure Carries (payload : List UInt8) (f : IPv4Datagram α) (rp : RawPacket) : Prop where
  encapsulatedPacket : f.encapsulatedPacket = some (.raw rp)
  bytes : rp.byteArray.bytes = ((payload.drop f.fragmentOffset).take f.payloadLength).map some
  byteLength : rp.byteLength = f.payloadLength

/-- The fragments into which raw bytes have been cut. -/
structure RawLeaves (k : IPv4FragBuf.Key) (protocol : ℤ) (payload : List UInt8)
    (leaves : List (IPv4Datagram α)) : Prop where
  cut : Leaves k payload.length leaves
  transportProtocol : ∀ f ∈ leaves, f.transportProtocol = protocol
  carries : ∀ f ∈ leaves, ∃ rp, f.Carries payload rp

theorem RawLeaves.le (h : RawLeaves k protocol payload leaves) (hf : f ∈ leaves) :
    f.span.1 < f.span.2 ∧ f.span.2 ≤ payload.length :=
  (h.cut.cut.partitions.within _ ⟨f, hf, rfl⟩).2

/-- What the bytes of a fragment are. -/
theorem Carries.getElem? {rp : RawPacket} (h : f.Carries payload rp) {i : ℕ}
    (hbegin : f.span.1 ≤ i) (hend : i < f.span.2) :
    rp.byteArray.bytes[i - f.fragmentOffset]? = (payload.map some)[i]? := by
  rw [span] at hbegin hend
  simp only at hbegin hend
  rw [h.bytes, List.getElem?_map, List.getElem?_map, List.getElem?_take_of_lt (by omega),
    List.getElem?_drop, show f.fragmentOffset + (i - f.fragmentOffset) = i by omega]

theorem Carries.size {rp : RawPacket} (h : f.Carries payload rp)
    (hle : f.span.2 ≤ payload.length) : rp.byteArray.dataArraySize = f.payloadLength := by
  rw [span] at hle
  rw [← ByteArray.length_bytes, h.bytes, List.length_map, List.length_take, List.length_drop]
  simp only at hle
  omega

/-- The raw bytes that are kept: the array is as large as `n` says, and has the bytes of `l`. -/
structure Holds (payload : List UInt8) (n : ℕ) (l : List (IPv4Datagram α)) (brp : RawPacket) :
    Prop where
  size : brp.byteArray.dataArraySize = n
  bytes : ∀ f ∈ l, ∀ i, f.span.1 ≤ i → i < f.span.2 → i < n →
    brp.byteArray.bytes[i]? = (payload.map some)[i]?
  byteLength_le : brp.byteLength ≤ payload.length

/-- **The fragment that comes first** is moved to its offset. -/
theorem Holds.first (h : RawLeaves k protocol payload leaves) (hf : f ∈ leaves) :
    ∃ brp, storeFragment none f = { f with encapsulatedPacket := some (.raw brp) } ∧
      Holds payload f.span.2 [f] brp := by
  obtain ⟨rp, hrp⟩ := h.carries f hf
  have hle := (h.le hf).2
  have hsize := hrp.size hle
  by_cases hzero : f.fragmentOffset = 0
  · have hspan : f.span.2 = f.payloadLength := by rw [span, hzero, Nat.zero_add]
    refine ⟨rp, ?_, hsize.trans hspan.symm, ?_, ?_⟩
    · rw [storeFragment, moveRawBytes, hrp.encapsulatedPacket]
      simp only [if_neg (not_not.2 hzero)]
      rw [← hrp.encapsulatedPacket]
    · intro g hg i hbegin hend _
      rw [List.mem_singleton] at hg
      rw [hg] at hbegin hend
      simpa only [hzero, Nat.sub_zero] using hrp.getElem? hbegin hend
    · rwa [hrp.byteLength, ← hspan]
  · have hmoved : (rp.byteArray.expandData f.fragmentOffset 0).bytes =
        List.replicate f.fragmentOffset none ++ rp.byteArray.bytes := by
      rw [ByteArray.expandData, if_pos (.inl hzero), ByteArray.bytes_setDataFromBuffer,
        List.replicate_zero, List.append_nil]
    refine ⟨⟨rp.byteArray.expandData f.fragmentOffset 0, rp.byteLength + f.fragmentOffset⟩, ?_, ?_,
      ?_, ?_⟩
    · rw [storeFragment, moveRawBytes, hrp.encapsulatedPacket]
      simp only [ne_eq, hzero, not_false_eq_true, if_true]
    · show (rp.byteArray.expandData f.fragmentOffset 0).dataArraySize = f.span.2
      rw [← ByteArray.length_bytes, hmoved, List.length_append, List.length_replicate,
        ByteArray.length_bytes, hsize, span]
    · intro g hg i hbegin hend _
      rw [List.mem_singleton] at hg
      rw [hg] at hbegin hend
      rw [hmoved, List.getElem?_append_right (by rwa [List.length_replicate]),
        List.length_replicate]
      exact hrp.getElem? hbegin hend
    · show rp.byteLength + f.fragmentOffset ≤ payload.length
      rw [hrp.byteLength, Nat.add_comm]
      exact hle

/-- **Another fragment** is copied to its offset, as far as the array goes. -/
theorem Holds.next {brp : RawPacket} {n : ℕ} (hbrp : Holds payload n l brp)
    (h : RawLeaves k protocol payload leaves) (hf : f ∈ leaves) :
    ∃ brp', storeFragment (some { g with encapsulatedPacket := some (.raw brp) }) f =
        { g with encapsulatedPacket := some (.raw brp') } ∧ Holds payload n (l ++ [f]) brp' := by
  obtain ⟨rp, hrp⟩ := h.carries f hf
  have hle := (h.le hf).2
  have hsize := hrp.size hle
  have hlength : f.fragmentOffset + rp.byteArray.bytes.length = f.span.2 := by
    rw [ByteArray.length_bytes, hsize, span]
  refine ⟨⟨brp.byteArray.copyDataFromBuffer f.fragmentOffset rp.byteArray.bytes,
    rp.byteArray.dataArraySize⟩, ?_, hbrp.size, ?_, ?_⟩
  · simp only [storeFragment, mergeRawBytes, hrp.encapsulatedPacket, reduceCtorEq, false_and,
      if_false]
  · intro e he i hbegin hend hi
    rw [ByteArray.getElem?_copyDataFromBuffer _ (hbrp.size.symm ▸ hi), hlength]
    split_ifs with hin
    · exact hrp.getElem? hin.1 hin.2
    · rcases List.mem_append.1 he with he | he
      · exact hbrp.bytes e he i hbegin hend hi
      · rw [List.mem_singleton] at he
        rw [he] at hbegin hend
        exact absurd ⟨hbegin, hend⟩ hin
  · show rp.byteArray.dataArraySize ≤ payload.length
    rw [span] at hle
    simp only at hle
    omega

/-- What is kept of the fragments that have arrived: the header of the first, and their bytes up to
the end of the first. -/
theorem exists_holds (h : RawLeaves k protocol payload leaves) {first : IPv4Datagram α}
    (hfirst : first ∈ leaves) (hl : l ⊆ leaves) :
    ∃ brp, stored (first :: l) = some { first with encapsulatedPacket := some (.raw brp) } ∧
      Holds payload first.span.2 (first :: l) brp := by
  induction l using List.reverseRecOn with
  | nil =>
    obtain ⟨brp, heq, hholds⟩ := Holds.first h hfirst
    exact ⟨brp, congrArg some heq, hholds⟩
  | append_singleton l f ih =>
    obtain ⟨hl, hf⟩ := List.append_subset.1 hl
    obtain ⟨brp, heq, hholds⟩ := ih hl
    obtain ⟨brp', heq', hholds'⟩ := hholds.next (g := first) h (hf (List.mem_singleton_self f))
    refine ⟨brp', ?_, hholds'⟩
    rw [← List.cons_append, stored_concat, heq, heq']

/-- When all fragments have arrived, the bytes are those of the payload, as far as the array goes.
-/
theorem Holds.bytes_eq {brp : RawPacket} {n : ℕ} (hbrp : Holds payload n l brp)
    (h : RawLeaves k protocol payload leaves) (hall : leaves ⊆ l) (hn : n ≤ payload.length) :
    brp.byteArray.bytes = (payload.take n).map some := by
  refine List.ext_getElem? fun i ↦ ?_
  rcases lt_or_ge i n with hi | hi
  · obtain ⟨p, ⟨f, hf, rfl⟩, hbegin, hend⟩ :=
      h.cut.cut.partitions.cover i (Nat.zero_le i) (hi.trans_le hn)
    rw [hbrp.bytes f (hall hf) i hbegin hend hi, List.getElem?_map, List.getElem?_map,
      List.getElem?_take_of_lt hi]
  · rw [List.getElem?_eq_none (by rwa [ByteArray.length_bytes, hbrp.size]),
      List.getElem?_eq_none (by rw [List.length_map, List.length_take]; omega)]

/-- A datagram carries exactly these raw bytes. -/
def RestoresRaw (payload : List UInt8) (ret : IPv4Datagram α) : Prop :=
  ∃ rp, ret.encapsulatedPacket = some (.raw rp) ∧ rp.byteArray.bytes = payload.map some ∧
    rp.byteArray.dataArraySize = payload.length ∧ rp.byteLength = payload.length

end IPv4Datagram

namespace IPv4FragBuf

open IPv4Datagram

variable {α : Type} {serializers : Serializers α} {k : Key} {protocol : ℤ} {payload : List UInt8}
  {leaves : List (IPv4Datagram α)} {b b' : IPv4FragBuf α} {f : IPv4Datagram α}

/-- The completed datagram has raw bytes: the protocol has no deserializer, or the deserializer
makes nothing of them. -/
def StaysRaw (serializers : Serializers α) (protocol : ℤ) (payload : List UInt8) : Prop :=
  ∀ deserialize, serializers protocol = some deserialize →
    ∀ src dest n, deserialize src dest ((payload.take n).map some) = .ok none

theorem StaysRaw.lookupAndDeserialize (h : StaysRaw serializers protocol payload)
    (src dest : UInt32) {n : ℕ} (hne : (payload.take n).map some ≠ []) :
    serializers.lookupAndDeserialize src dest protocol ((payload.take n).map some) =
      .ok (some (Serializers.byteArray ((payload.take n).map some))) := by
  rw [Serializers.lookupAndDeserialize, if_neg hne]
  cases hget : serializers protocol with
  | none => rfl
  | some deserialize => simp only [h deserialize hget, Except.map, Option.getD_none]

/-- **Raw bytes are restored if and only if the last fragment comes first.** What is returned are
the bytes up to the end of the fragment that came first. -/
theorem reassembly_raw (serializers : Serializers α) (h : RawLeaves k protocol payload leaves)
    (hprotocol : StaysRaw serializers protocol payload)
    {tr : List (Transition (IPv4FragBuf α) (FragBufCall α) (Option (IPv4Datagram α)))}
    (hpath : (system serializers).Path b tr b') (hnone : b.bufs[k]? = none)
    (hadmits : ∀ t ∈ tr, Admits k leaves t) (hnot : ¬ leaves ⊆ arrivals k tr) (hf : f ∈ leaves)
    (hall : leaves ⊆ arrivals k tr ++ [f]) (now : ℤ) :
    ∃ b'' ret, b'.addFragment serializers f now = .ok (b'', some ret) ∧
      (ret.RestoresRaw payload ↔ ∃ first ∈ (arrivals k tr).head?, first.moreFragments = false) := by
  have hstart : Awaits k payload.length leaves [] b := ⟨by simp, by rwa [if_pos rfl]⟩
  have hawaits := hstart.path hpath h.cut hadmits hnot
  rw [List.nil_append] at hawaits
  rw [hawaits.completed h.cut hf hall now]
  cases harrivals : arrivals k tr with
  | nil =>
    -- a single fragment is not all of the datagram
    rw [harrivals] at hall
    exact absurd hall (h.cut.not_subset_singleton hf)
  | cons first rest =>
    rw [harrivals] at hawaits hall
    obtain ⟨hfirst, hrest⟩ := List.cons_subset.1 hawaits.1
    obtain ⟨brp, hstored, hholds⟩ := exists_holds h hfirst (l := rest ++ [f])
      (List.append_subset.2 ⟨hrest, by simpa using hf⟩)
    have hle := h.le hfirst
    have hbytes := hholds.bytes_eq h (by simpa using hall) hle.2
    rw [← List.cons_append, stored_concat, Option.some_inj] at hstored
    have hlength : ((payload.take first.span.2).map some).length = first.span.2 := by
      rw [List.length_map, List.length_take, min_eq_left hle.2]
    have hne : (payload.take first.span.2).map some ≠ [] :=
      List.ne_nil_of_length_pos (by omega)
    have henough : ¬ (0 < first.headerLength + payload.length ∧
        first.headerLength + payload.length < brp.byteLength) := by
      have := hholds.byteLength_le
      omega
    rw [hstored]
    simp only [complete, deserializeRawBytes, h.transportProtocol first hfirst, hbytes,
      hprotocol.lookupAndDeserialize _ _ hne, exchangePacket, EncapsulatedPacket.byteLength,
      if_neg henough]
    refine ⟨_, _, rfl, ?_⟩
    have hlast := h.cut.moreFragments_iff first hfirst
    simp only [RestoresRaw, Serializers.byteArray, Option.some.injEq,
      EncapsulatedPacket.raw.injEq, List.head?_cons, Option.mem_some_iff]
    constructor
    · rintro ⟨rp, rfl, -, -, hsize⟩
      exact ⟨first, rfl, hlast.2 (hlength.symm.trans hsize)⟩
    · rintro ⟨_, rfl, hclear⟩
      have hend := hlast.1 hclear
      refine ⟨_, rfl, ?_, ?_, hlength.trans hend⟩
      · rw [ByteArray.bytes_setDataFromBuffer, hend, List.take_length]
      · exact hlength.trans hend

/-! ### An example -/

/-- A fragment of nine bytes. -/
def nineBytes (fragmentOffset length : ℕ) (moreFragments : Bool) : IPv4Datagram Unit where
  srcAddress := 167772161
  destAddress := 167772162
  transportProtocol := 200
  timeToLive := 32
  identification := 7
  moreFragments
  fragmentOffset
  byteLength := 20 + length
  encapsulatedPacket := some (.raw ⟨.setDataFromBuffer
    ((([1, 2, 3, 4, 5, 6, 7, 8, 9] : List UInt8).drop fragmentOffset).take length |>.map some),
    length⟩)

/-- The last fragment has arrived, and the first one comes. -/
theorem reassembly_raw_last_first : ∃ (b b'' : IPv4FragBuf Unit) (ret : IPv4Datagram Unit),
    b.addFragment (fun _ ↦ none) (nineBytes 0 8 true) 1 = .ok (b'', some ret) ∧
      ret.RestoresRaw [1, 2, 3, 4, 5, 6, 7, 8, 9] := by
  have hleaves : RawLeaves (nineBytes 0 8 true).key 200 [1, 2, 3, 4, 5, 6, 7, 8, 9]
      [nineBytes 0 8 true, nineBytes 8 1 false] := by
    refine ⟨⟨.cons (b := 8) rfl (by decide) (.cons rfl (by decide) (.nil _)), by decide,
      by decide, by decide, by decide⟩, by decide, ?_⟩
    rw [List.forall_mem_cons, List.forall_mem_singleton]
    exact ⟨⟨_, rfl, by decide, rfl⟩, ⟨_, rfl, by decide, rfl⟩⟩
  obtain ⟨b, hstep⟩ : ∃ b, addFragment (fun _ ↦ none) {} (nineBytes 8 1 false) 0 = .ok (b, none) :=
    ⟨_, rfl⟩
  have hpath : (system fun _ ↦ none).Path {} [⟨{}, .addFragment (nineBytes 8 1 false) 0, none, b⟩]
    b := .single hstep
  have harrivals : arrivals (nineBytes 0 8 true).key
      [⟨{}, .addFragment (nineBytes 8 1 false) 0, none, b⟩] = [nineBytes 8 1 false] := rfl
  obtain ⟨b'', ret, hok, hiff⟩ := reassembly_raw (fun _ ↦ none) hleaves (by simp [StaysRaw])
    hpath rfl (by simp [Admits]) (by rw [harrivals]; decide) (f := nineBytes 0 8 true) (by simp)
    (by rw [harrivals]; decide) 1
  exact ⟨b, b'', ret, hok, hiff.2 (by rw [harrivals]; exact ⟨_, rfl, rfl⟩)⟩

/-- **In order**, the last byte is lost. -/
theorem reassembly_raw_in_order : ∃ (b b'' : IPv4FragBuf Unit) (ret : IPv4Datagram Unit),
    addFragment (fun _ ↦ none) {} (nineBytes 0 8 true) 0 = .ok (b, none) ∧
      b.addFragment (fun _ ↦ none) (nineBytes 8 1 false) 1 = .ok (b'', some ret) ∧
      ret.encapsulatedPacket =
        some (.raw ⟨.setDataFromBuffer ([1, 2, 3, 4, 5, 6, 7, 8].map some), 8⟩) ∧
      ¬ ret.RestoresRaw [1, 2, 3, 4, 5, 6, 7, 8, 9] := by
  refine ⟨_, _, _, rfl, rfl, by decide +kernel, ?_⟩
  rintro ⟨rp, heq, -, -, hlength⟩
  cases heq
  revert hlength
  decide +kernel

end IPv4FragBuf

end Inet.IPv4
