import Inet.TransportLayer.TCPSegmentRoundTrip

/-!
# Parsing arbitrary bytes as a TCP segment

Bytes that are not what a serializer has written are parsed as well. The option loop reads complete
options one after the other, until none is left or one goes on behind the end of the header
(`deserializeOptions_split`); the latter marks an error. An option whose length byte is 0 or 1 is
read as two bytes and marks none, but it cannot be written (`serializeOption_isStub`). So what has
been parsed without a bit error can be written, and is then parsed again as it was, if and only if
the data offset is not smaller than the header and no option has such a length (`reserializes_iff`).
-/

namespace Inet.Serializer

namespace TCPSerializer

open Tcp Buffer

variable {Packet : Type} {tcpseg : TCPSegment Packet} {os : List (List UInt8)} {b : Buffer}
  {buf rest tail o : List UInt8} {c : Context}

theorem reads_readSackItems (n : ℕ) : Reads (n * 8) true (readSackItems n) := by
  induction n with
  | zero => exact Nat.zero_mul 8 ▸ reads_zero []
  | succ n ih =>
    have hstop (start : UInt32) := reads_readUint32.bind
      (f := fun stop sackItem ↦ (⟨start, stop⟩ : Sack) :: sackItem) (.inl rfl) fun _ ↦ ih
    have h := reads_readUint32.bind (f := fun _ (sackItem : List Sack) ↦ sackItem) (.inl rfl) hstop
    have heq : readSackItems (n + 1) = fun b ↦
        (⟨b.readUint32.1, b.readUint32.2.readUint32.1⟩ ::
          (readSackItems n b.readUint32.2.readUint32.2).1,
          (readSackItems n b.readUint32.2.readUint32.2).2) := by
      funext b
      rw [readSackItems]
    rw [heq, show (n + 1) * 8 = 4 + (4 + n * 8) by omega]
    exact h

theorem reads_readUnknown (kind length : UInt8) :
    Reads (length.toNat - 2) true (readUnknown kind length) where
  enough := (reads_readNBytes _).enough
  short := (reads_readNBytes _).short

/-! ### The options in arbitrary bytes -/

/-- The bytes of an option that can be written. -/
def IsSound : List UInt8 → Prop
  | [kind] => kind ≤ 1
  | kind :: length :: data => 1 < kind ∧ data.length + 2 = length.toNat
  | [] => False

instance : DecidablePred IsSound
  | [_] | _ :: _ :: _ | [] => by
    unfold IsSound
    infer_instance

/-- An option whose length does not count the kind and the length itself. -/
def IsStub : List UInt8 → Prop
  | [kind, length] => 1 < kind ∧ length.toNat < 2
  | _ => False

/-- The beginning of an option. -/
def IsCut : List UInt8 → Prop
  | [kind] => 1 < kind
  | kind :: length :: data => 1 < kind ∧ data.length + 2 < length.toNat
  | [] => False

theorem length_pos (h : IsSound o ∨ IsStub o) : 0 < o.length := by
  cases o with
  | nil => exact h.elim False.elim False.elim
  | cons kind o => exact Nat.succ_pos _

theorem length_le_length_flatten (hos : ∀ o ∈ os, IsSound o ∨ IsStub o) :
    os.length ≤ os.flatten.length := by
  induction os with
  | nil => exact le_rfl
  | cons o os ih =>
    rw [List.forall_mem_cons] at hos
    have hpos := length_pos hos.1
    have hle := ih hos.2
    rw [List.length_cons, List.flatten_cons, List.length_append]
    omega

/-- **Any bytes are options**, and possibly the beginning of another. -/
theorem exists_options (l : List UInt8) : ∃ (os : List (List UInt8)) (tail : List UInt8),
    l = os.flatten ++ tail ∧ (∀ o ∈ os, IsSound o ∨ IsStub o) ∧ (tail = [] ∨ IsCut tail) := by
  induction hn : l.length using Nat.strong_induction_on generalizing l with
  | _ n ih =>
    have hcons {o rest : List UInt8} (hl : l = o ++ rest) (ho : IsSound o ∨ IsStub o) :
        ∃ (os : List (List UInt8)) (tail : List UInt8),
          l = os.flatten ++ tail ∧ (∀ o ∈ os, IsSound o ∨ IsStub o) ∧ (tail = [] ∨ IsCut tail) := by
      have hpos := length_pos ho
      obtain ⟨os, tail, rfl, hos, htail⟩ := ih rest.length
        (by rw [← hn, hl, List.length_append]; omega) rest rfl
      exact ⟨o :: os, tail, by rw [hl, List.flatten_cons, List.append_assoc],
        List.forall_mem_cons.2 ⟨ho, hos⟩, htail⟩
    match l with
    | [] => exact ⟨[], [], rfl, List.forall_mem_nil _, .inl rfl⟩
    | [kind] =>
      by_cases hlt : 1 < kind
      · exact ⟨[], [kind], rfl, List.forall_mem_nil _, .inr hlt⟩
      · exact hcons (o := [kind]) rfl (.inl (UInt8.not_lt.1 hlt))
    | kind :: length :: data =>
      by_cases hlt : 1 < kind
      · rcases Nat.lt_or_ge length.toNat 2 with hstub | hge
        · exact hcons (o := [kind, length]) rfl (.inr ⟨hlt, hstub⟩)
        · rcases Nat.lt_or_ge (data.length + 2) length.toNat with hcut | hsound
          · exact ⟨[], kind :: length :: data, rfl, List.forall_mem_nil _, .inr ⟨hlt, hcut⟩⟩
          · have hsplit : kind :: length :: data =
                (kind :: length :: data.take (length.toNat - 2)) ++ data.drop (length.toNat - 2) := by
              rw [List.cons_append, List.cons_append, List.take_append_drop]
            refine hcons hsplit (.inl ⟨hlt, ?_⟩)
            rw [List.length_take]
            omega
      · exact hcons (o := [kind]) rfl (.inl (UInt8.not_lt.1 hlt))

/-- Bytes that are a number of SACK items. -/
theorem exists_sackBytes (n : ℕ) (l : List UInt8) (h : l.length = n * 8) :
    ∃ sackItem : List Sack, sackItem.length = n ∧ fieldBytes (.sack sackItem) = l := by
  induction n generalizing l with
  | zero =>
    rw [Nat.zero_mul, List.length_eq_zero_iff] at h
    exact ⟨[], rfl, h.symm⟩
  | succ n ih =>
    match l with
    | x₁ :: x₂ :: x₃ :: x₄ :: y₁ :: y₂ :: y₃ :: y₄ :: l =>
      simp only [List.length_cons] at h
      obtain ⟨sackItem, hlength, hbytes⟩ := ih l (by omega)
      refine ⟨⟨word32 x₁ x₂ x₃ x₄, word32 y₁ y₂ y₃ y₄⟩ :: sackItem, congrArg _ hlength, ?_⟩
      rw [← hbytes, fieldBytes, List.flatMap_cons, bytes32_word, bytes32_word]
      rfl
    | [] | [_] | [_, _] | [_, _, _] | [_, _, _, _] | [_, _, _, _, _] | [_, _, _, _, _, _]
    | [_, _, _, _, _, _, _] =>
      simp only [List.length_cons, List.length_nil] at h
      omega

/-- **Sound bytes are those of a canonical option.** -/
theorem exists_canonical (h : IsSound o) : ∃ option, Canonical option ∧ optionBytes option = o := by
  match o with
  | [kind] =>
    have hkind : kind = 0 ∨ kind = 1 := by
      simp only [← UInt8.toNat_inj, UInt8.reduceToNat]
      have hle := UInt8.le_iff_toNat_le.1 h
      simp only [UInt8.reduceToNat] at hle
      omega
    rcases hkind with rfl | rfl
    · exact ⟨endOption, canonical_endOption, rfl⟩
    · exact ⟨⟨1, 1, .nop⟩, ⟨rfl, rfl⟩, rfl⟩
  | kind :: length :: data =>
    obtain ⟨hkind, hlength⟩ := h
    have hone := UInt8.lt_iff_toNat_lt.1 hkind
    simp only [UInt8.reduceToNat] at hone
    have hword (x : UInt8) : x.toUInt16 < 256 ∧ x.toUInt16.toUInt8 = x ∧
        x.toUInt16.toNat = x.toNat := by
      have hlt := x.toNat_lt
      refine ⟨UInt16.lt_iff_toNat_lt.2 (by simpa using hlt), ?_, UInt8.toNat_toUInt16 x⟩
      rw [← UInt8.toNat_inj, UInt16.toNat_toUInt8, UInt8.toNat_toUInt16, Nat.mod_eq_of_lt hlt]
    have heq {x : UInt8} {n : ℕ} (hx : x.toNat = n) : x = UInt8.ofNat n := by
      rw [← hx, UInt8.ofNat_toNat]
    by_cases hknown : IsKnown kind.toNat length.toNat
    · obtain hk | hk | ⟨hk, hl⟩ | ⟨hk, hl⟩ | ⟨hk, hl⟩ | ⟨hk, hl⟩ | ⟨hk, hl⟩ := hknown
      · omega
      · omega
      · rw [heq hk, heq hl]
        obtain ⟨x, y, rfl⟩ := List.length_eq_two.1 (show data.length = 2 by omega)
        exact ⟨⟨2, 4, .maxSegmentSize (word16 x y)⟩, ⟨rfl, rfl⟩,
          congrArg (2 :: 4 :: ·) (bytes16_word x y)⟩
      · rw [heq hk, heq hl]
        obtain ⟨x, rfl⟩ := List.length_eq_one_iff.1 (show data.length = 1 by omega)
        exact ⟨⟨3, 3, .windowScale x.toUInt16⟩, ⟨rfl, rfl, (hword x).1⟩,
          congrArg (fun x ↦ [3, 3, x]) (hword x).2.1⟩
      · rw [heq hk, heq hl]
        obtain rfl := List.length_eq_zero_iff.1 (show data.length = 0 by omega)
        exact ⟨⟨4, 2, .sackPermitted⟩, ⟨rfl, rfl⟩, rfl⟩
      · obtain ⟨sackItem, hitems, rfl⟩ := exists_sackBytes (length.toNat / 8) data (by omega)
        refine ⟨⟨5, length.toUInt16, .sack sackItem⟩, ⟨rfl, ?_, by omega, (hword length).1⟩, ?_⟩
        · rw [(hword length).2.2]
          omega
        · have hone' : 1 < length.toUInt16 := UInt16.lt_iff_toNat_lt.2 (by
            rw [(hword length).2.2, UInt16.toNat_one]
            omega)
          rw [optionBytes, if_pos hone', (hword length).2.1, heq hk]
          rfl
      · rw [heq hk, heq hl]
        obtain ⟨sackItem, hitems, rfl⟩ := exists_sackBytes 1 data (by omega)
        obtain ⟨si, rfl⟩ := List.length_eq_one_iff.1 hitems
        exact ⟨⟨8, 10, .timestamp si.start si.stop⟩, ⟨rfl, rfl⟩, rfl⟩
    · have hone' : 1 < length.toUInt16 := UInt16.lt_iff_toNat_lt.2 (by
        rw [(hword length).2.2, UInt16.toNat_one]
        omega)
      refine ⟨⟨kind.toUInt16, length.toUInt16, .unknown data⟩, ⟨(hword kind).1, ?_,
        (hword length).1, ?_⟩, ?_⟩
      · rw [(hword length).2.2]
        omega
      · rwa [(hword kind).2.2, (hword length).2.2]
      · rw [optionBytes, if_pos hone', (hword kind).2.1, (hword length).2.1]
        rfl

/-- A buffer that holds just some bytes. -/
theorem self_remaining (o : List UInt8) : Buffer.remaining { buf := o } = o ++ [] :=
  (List.append_nil o).symm

/-- The option that some bytes are parsed as. -/
def optionOf (o : List UInt8) : TCPOption :=
  (deserializeOption { buf := o }).1

theorem deserializeOption_isSound (h : IsSound o) (hb : b.remaining = o ++ rest) :
    deserializeOption b = (optionOf o, b.advance o.length) ∧ Canonical (optionOf o) ∧
      optionBytes (optionOf o) = o := by
  obtain ⟨option, hcanonical, rfl⟩ := exists_canonical h
  have heq : optionOf (optionBytes option) = option := by
    rw [optionOf, deserializeOption_canonical hcanonical (self_remaining _)]
  rw [heq, deserializeOption_canonical hcanonical hb, length_optionBytes hcanonical]
  exact ⟨rfl, hcanonical, rfl⟩

/-- **A stub is parsed** as an option without bytes. -/
theorem deserializeOption_isStub (h : IsStub o) (hb : b.remaining = o ++ rest) :
    deserializeOption b = (optionOf o, b.advance o.length) ∧
      (optionOf o).length.toNat < 2 ∧ (optionOf o).fields = .unknown [] := by
  match o with
  | [kind, length] =>
    obtain ⟨hkind, hlength⟩ := h
    have hone := UInt8.lt_iff_toNat_lt.1 hkind
    simp only [UInt8.reduceToNat] at hone
    have hnot : ¬ IsKnown kind.toNat length.toNat := by
      rw [IsKnown]
      omega
    have hparse {b : Buffer} {rest : List UInt8} (hb : b.remaining = [kind, length] ++ rest) :
        deserializeOption b = (⟨kind.toUInt16, length.toUInt16, .unknown []⟩, b.advance 2) :=
      deserializeOption_unknown hnot (by rw [List.length_nil]; omega) hb
    have heq : optionOf [kind, length] = ⟨kind.toUInt16, length.toUInt16, .unknown []⟩ := by
      rw [optionOf, hparse (self_remaining _)]
    rw [heq, hparse hb]
    exact ⟨rfl, by rwa [UInt8.toNat_toUInt16], rfl⟩

/-- What is read behind a kind that is followed by a length is as long as the length says. -/
theorem exists_reads_of_one_lt {kind : UInt8} (hone : 1 < kind.toNat) {b' : Buffer}
    (hread : b.readByte = (kind, b')) :
    ∃ read : UInt8 → Buffer → TCPOption × Buffer,
      (∀ length, Reads (length.toNat - 2) true (read length)) ∧
      deserializeOption b = read b'.readByte.1 b'.readByte.2 := by
  have hunknown (length : UInt8) := reads_readUnknown kind length
  simp only [deserializeOption, hread]
  split
  · omega
  · omega
  · refine ⟨fun length b ↦ if length = 4 then
      (⟨2, 4, .maxSegmentSize b.readUint16.1⟩, b.readUint16.2) else readUnknown kind length b,
      fun length ↦ .ite (fun hlength ↦ ?_) (hunknown length), rfl⟩
    rw [hlength]
    exact reads_readUint16.map fun x ↦ TCPOption.mk 2 4 (.maxSegmentSize x)
  · refine ⟨fun length b ↦ if length = 3 then
      (⟨3, 3, .windowScale b.readByte.1.toUInt16⟩, b.readByte.2) else readUnknown kind length b,
      fun length ↦ .ite (fun hlength ↦ ?_) (hunknown length), rfl⟩
    rw [hlength]
    exact reads_readByte.map fun x ↦ TCPOption.mk 3 3 (.windowScale x.toUInt16)
  · refine ⟨fun length b ↦ if length = 2 then (⟨4, 2, .sackPermitted⟩, b)
      else readUnknown kind length b, fun length ↦ .ite (fun hlength ↦ ?_) (hunknown length), rfl⟩
    rw [hlength]
    exact reads_zero _
  · refine ⟨fun length b ↦ if 2 < length ∧ length.toNat % 8 = 2 then
      (⟨5, length.toUInt16, .sack (readSackItems (length.toNat / 8) b).1⟩,
        (readSackItems (length.toNat / 8) b).2) else readUnknown kind length b,
      fun length ↦ .ite (fun hlength ↦ ?_) (hunknown length), rfl⟩
    rw [show length.toNat - 2 = length.toNat / 8 * 8 by omega]
    exact (reads_readSackItems _).map fun sackItem ↦
      TCPOption.mk 5 length.toUInt16 (.sack sackItem)
  · refine ⟨fun length b ↦ if length = 10 then
      (⟨8, 10, .timestamp b.readUint32.1 b.readUint32.2.readUint32.1⟩, b.readUint32.2.readUint32.2)
      else readUnknown kind length b,
      fun length ↦ .ite (fun hlength ↦ ?_) (hunknown length), rfl⟩
    rw [hlength]
    exact reads_readUint32.bind (f := fun x y ↦ TCPOption.mk 8 10 (.timestamp x y)) (.inl rfl) fun _ ↦
      reads_readUint32
  · exact ⟨readUnknown kind, hunknown, rfl⟩

/-- **An option that is cut off** exhausts the buffer. -/
theorem deserializeOption_isCut (h : IsCut tail) (hb : b.remaining = tail) :
    (deserializeOption b).2 = b.exhausted := by
  have hsize := b.length_remaining
  rw [hb, getRemainingSize] at hsize
  obtain - | ⟨kind, - | ⟨length, data⟩⟩ := tail
  · exact h.elim
  · have hone := UInt8.lt_iff_toNat_lt.1 h
    simp only [UInt8.reduceToNat] at hone
    rw [List.length_singleton] at hsize
    obtain ⟨read, hreads, heq⟩ := exists_reads_of_one_lt hone (readByte_of_remaining hb)
    have hshort : (b.advance 1).readByte = (0, b.exhausted) := by
      have hnone : (b.advance 1).buf[(b.advance 1).pos]? = none :=
        List.getElem?_eq_none (by show b.buf.length ≤ b.pos + 1; omega)
      rw [readByte, hnone, exhausted, show b.buf.length = b.pos + 1 by omega]
      rfl
    rw [heq, hshort]
    exact (hreads 0).of_exhausted b
  · obtain ⟨hkind, hcut⟩ := h
    have hone := UInt8.lt_iff_toNat_lt.1 hkind
    simp only [UInt8.reduceToNat] at hone
    rw [List.length_cons, List.length_cons] at hsize
    obtain ⟨read, hreads, heq⟩ := exists_reads_of_one_lt hone (readByte_of_remaining hb)
    rw [heq, readByte_of_remaining (remaining_tail hb), advance_advance]
    refine (hreads length).exhausted_of_lt ?_ ?_
    · show b.pos + 2 ≤ b.buf.length
      omega
    · show b.buf.length - (b.pos + 2) < _
      omega

/-- **The option loop ends**: at the end of the options, or exhausted. -/
theorem deserializeOptions_split (hos : ∀ o ∈ os, IsSound o ∨ IsStub o)
    (htail : tail = [] ∨ IsCut tail) (hb : b.remaining = os.flatten ++ tail) {n : ℕ}
    (hn : b.getRemainingSize ≤ n) :
    (tail = [] ∧ deserializeOptions n b = (os.map optionOf, b.advance os.flatten.length)) ∨
      (IsCut tail ∧ (deserializeOptions n b).2 = b.exhausted) := by
  have hsize := b.length_remaining
  rw [hb] at hsize
  induction os generalizing b n with
  | nil =>
    rcases htail with rfl | hcut
    · refine .inl ⟨rfl, ?_⟩
      cases n with
      | zero => rfl
      | succ n =>
        rw [deserializeOptions, if_neg (by rw [← hsize]; exact fun hne ↦ hne rfl)]
        rfl
    · refine .inr ⟨hcut, ?_⟩
      rw [List.flatten_nil, List.nil_append] at hb hsize
      have hpos : 0 < tail.length := by
        cases tail with
        | nil => exact hcut.elim
        | cons kind tail => exact Nat.succ_pos _
      have hexhausted := deserializeOption_isCut hcut hb
      have hend : b.exhausted.getRemainingSize = 0 := Nat.sub_self _
      cases n with
      | zero => omega
      | succ n =>
        rw [deserializeOptions, if_pos (by omega)]
        simp only [hexhausted]
        cases n with
        | zero => rfl
        | succ n => rw [deserializeOptions, if_neg (not_not.2 hend)]
  | cons o os ih =>
    rw [List.forall_mem_cons] at hos
    rw [List.flatten_cons, List.append_assoc] at hb hsize
    have hpos := length_pos hos.1
    have hparse : deserializeOption b = (optionOf o, b.advance o.length) :=
      hos.1.elim (fun h ↦ (deserializeOption_isSound h hb).1)
        fun h ↦ (deserializeOption_isStub h hb).1
    have hrest := remaining_advance hb
    have hsize' := (b.advance o.length).length_remaining
    rw [hrest] at hsize'
    rw [List.length_append] at hsize
    cases n with
    | zero => omega
    | succ n =>
      rw [deserializeOptions, if_pos (by omega)]
      simp only [hparse]
      obtain ⟨hnil, hloop⟩ | ⟨hcut, hloop⟩ := ih hos.2 hrest (n := n) (by omega) hsize'
      · refine .inl ⟨hnil, ?_⟩
        rw [hloop, List.map_cons, List.flatten_cons, List.length_append, advance_advance]
      · exact .inr ⟨hcut, hloop⟩

/-! ### The segment that is parsed -/

/-- The bytes of the options: those that the header has behind the first twenty. -/
def optionArea (buf : List UInt8) : List UInt8 :=
  (buf.drop TCP_HEADER_OCTETS).take
    (hdrLength (buf.take TCP_HEADER_OCTETS) - TCP_HEADER_OCTETS)

/-- The buffer of the option loop, when the loop is left. -/
def optionsEnd (buf : List UInt8) : Buffer :=
  let sb : Buffer := { buf := optionArea buf }
  (deserializeOptions sb.getRemainingSize sb).2

/-- The checksum is there, and is wrong. -/
def ChecksumFails (buf : List UInt8) (c : Context) : Prop :=
  field16 (buf.take TCP_HEADER_OCTETS) 16 ≠ 0 ∧ c.l3Addresses ≠ [] ∧
    TCPIPchecksum.checksum IP_PROT_TCP buf c.l3Addresses ≠ 0

/-- The last option goes on behind the end of the header. -/
def OptionsOverrun (buf : List UInt8) : Prop :=
  ∃ (os : List (List UInt8)) (tail : List UInt8), optionArea buf = os.flatten ++ tail ∧
    (∀ o ∈ os, IsSound o ∨ IsStub o) ∧ IsCut tail

/-- The header is not too small, and its options are sound. -/
def HasSoundOptions (buf : List UInt8) : Prop :=
  TCP_HEADER_OCTETS ≤ hdrLength (buf.take TCP_HEADER_OCTETS) ∧
    ∃ os : List (List UInt8), optionArea buf = os.flatten ∧ ∀ o ∈ os, IsSound o

theorem hdrLength_le (header : List UInt8) : hdrLength header ≤ 60 := by
  rw [hdrLength]
  generalize header.getD 12 0 = x
  have hlt := x.toNat_lt
  simp [Nat.shiftRight_eq_div_pow]
  omega

/-- What is parsed of options, and where the loop is left. -/
theorem parsed_of_split (hos : ∀ o ∈ os, IsSound o ∨ IsStub o) (htail : tail = [] ∨ IsCut tail)
    (harea : optionArea buf = os.flatten ++ tail) :
    (tail = [] ∧ parsed buf = (os.map optionOf, { buf, pos := TCP_HEADER_OCTETS }) ∨
        IsCut tail ∧ (parsed buf).2.errorFound = true) ∧
      (optionsEnd buf).getRemainingSize = 0 ∧
      (optionsEnd buf).pos ≤ hdrLength (buf.take TCP_HEADER_OCTETS) - TCP_HEADER_OCTETS := by
  have harealength : (optionArea buf).length ≤
      hdrLength (buf.take TCP_HEADER_OCTETS) - TCP_HEADER_OCTETS := List.length_take_le _ _
  have hloop := deserializeOptions_split (b := { buf := optionArea buf }) hos htail harea le_rfl
  have hsub : Buffer.sub { buf := buf, pos := TCP_HEADER_OCTETS }
      (hdrLength (buf.take TCP_HEADER_OCTETS) - TCP_HEADER_OCTETS) = { buf := optionArea buf } :=
    rfl
  constructor
  · rw [parsed, parseOptions]
    split_ifs with hlt
    · rw [hsub]
      rcases hloop with ⟨hnil, heq⟩ | ⟨hcut, heq⟩
      · refine .inl ⟨hnil, ?_⟩
        simp only [heq]
        rfl
      · refine .inr ⟨hcut, ?_⟩
        simp only [heq, exhausted, if_true]
    · have harea' : optionArea buf = [] :=
        List.eq_nil_of_length_eq_zero (by omega)
      rw [harea'] at harea
      obtain ⟨hflat, rfl⟩ := List.append_eq_nil_iff.1 harea.symm
      have hcount := length_le_length_flatten hos
      rw [hflat, List.length_nil, Nat.le_zero, List.length_eq_zero_iff] at hcount
      rw [hcount]
      exact .inl ⟨rfl, rfl⟩
  · obtain ⟨rfl, heq⟩ | ⟨hcut, heq⟩ := hloop
    · have hend : optionsEnd buf = Buffer.advance { buf := optionArea buf } os.flatten.length :=
        congrArg Prod.snd heq
      rw [List.append_nil] at harea
      rw [hend, getRemainingSize_advance, ← harea]
      exact ⟨Nat.sub_self _, by simpa only [advance, Nat.zero_add] using harealength⟩
    · have hend : optionsEnd buf = _ := heq
      rw [hend]
      exact ⟨Nat.sub_self _, harealength⟩

/-- An error of the buffer is a bit error of the segment. -/
theorem bitError_of_errorFound {header : List UInt8} {b : Buffer}
    (hread : Buffer.readNBytes TCP_HEADER_OCTETS { buf := buf } = (header, b))
    (h : ((parseOptions (hdrLength header) b).2.seek (hdrLength header)).errorFound = true) :
    (deserialize buf c : TCPSegment Packet).bitError = true := by
  have haccess (b : Buffer) (n : ℕ) (hb : b.errorFound = true) :
      (b.accessNBytes n).2.errorFound = true := by
    rw [accessNBytes]
    split_ifs
    exacts [hb, rfl]
  simp only [deserialize, hread, Bool.decide_or, Bool.or_eq_true, decide_eq_true_eq]
  exact .inl (haccess _ _ h)

theorem errorFound_parseOptions (h : b.errorFound = true) (hdrLength : ℕ) :
    (parseOptions hdrLength b).2.errorFound = true := by
  rw [parseOptions]
  split_ifs
  · simp only
    split_ifs
    exacts [rfl, h]
  · exact h

theorem errorFound_seek (newpos : ℕ) :
    (b.seek newpos).errorFound = true ↔ b.errorFound = true ∨ b.buf.length < newpos := by
  rw [seek]
  split_ifs with hle
  · simp only [Nat.not_lt.2 hle, or_false]
  · simp only [Nat.not_le.1 hle, or_true]

/-- **What is parsed with a bit error.** -/
theorem bitError_iff : (deserialize buf c : TCPSegment Packet).bitError = true ↔
    buf.length < TCP_HEADER_OCTETS ∨ buf.length < hdrLength (buf.take TCP_HEADER_OCTETS) ∨
      OptionsOverrun buf ∨ ChecksumFails buf c := by
  by_cases hlength : buf.length < TCP_HEADER_OCTETS
  · have hexhausted := (reads_readNBytes TCP_HEADER_OCTETS).exhausted_of_lt (b := { buf := buf })
      (Nat.zero_le _) hlength
    generalize hread : readNBytes TCP_HEADER_OCTETS { buf := buf } = read at hexhausted
    obtain ⟨header, b⟩ := read
    obtain rfl : b = _ := hexhausted
    have herror : (exhausted { buf := buf }).errorFound = true := rfl
    refine iff_of_true (bitError_of_errorFound hread ?_) (.inl hlength)
    exact (errorFound_seek _).2 (.inl (errorFound_parseOptions herror _))
  have hread := readNBytes_tcphdr (Nat.not_lt.1 hlength)
  by_cases hhdr : buf.length < hdrLength (buf.take TCP_HEADER_OCTETS)
  · refine iff_of_true (bitError_of_errorFound hread ?_) (.inr (.inl hhdr))
    refine (errorFound_seek _).2 (.inr ?_)
    have hparsed := congrArg Buffer.buf (parsed_snd buf)
    rw [parsed] at hparsed
    rwa [hparsed]
  rw [deserialize_of_le (Nat.not_lt.1 hlength) (Nat.not_lt.1 hhdr)]
  simp only [hlength, hhdr, false_or, Bool.decide_or, Bool.or_eq_true, decide_eq_true_eq]
  refine or_congr ?_ Iff.rfl
  constructor
  · intro herror
    obtain ⟨os, tail, harea, hos, htail⟩ := exists_options (optionArea buf)
    obtain ⟨-, heq⟩ | ⟨hcut, -⟩ := (parsed_of_split hos htail harea).1
    · rw [heq] at herror
      cases herror
    · exact ⟨os, tail, harea, hos, hcut⟩
  · rintro ⟨os, tail, harea, hos, hcut⟩
    obtain ⟨rfl, -⟩ | ⟨-, herror⟩ := (parsed_of_split hos (.inr hcut) harea).1
    · exact hcut.elim
    · exact herror

/-! ### Writing it again -/

/-- A segment is written into every buffer with room for it, and parsed as it was. -/
def Reserializes (tcpseg : TCPSegment Packet) (c : Context) : Prop :=
  ∀ b : Buffer, b.pos = 0 → tcpseg.byteLength ≤ b.buf.length → ∃ b', serialize tcpseg b c = .ok b' ∧
    b'.errorFound = b.errorFound ∧ deserialize (b'.buf.take b'.pos) c = tcpseg

/-- The options of a segment that is parsed without a bit error. -/
theorem exists_options_of_bitError
    (h : (deserialize buf c : TCPSegment Packet).bitError = false) :
    TCP_HEADER_OCTETS ≤ buf.length ∧ hdrLength (buf.take TCP_HEADER_OCTETS) ≤ buf.length ∧
      ∃ os : List (List UInt8), optionArea buf = os.flatten ∧ (∀ o ∈ os, IsSound o ∨ IsStub o) ∧
        parsed buf = (os.map optionOf, { buf, pos := TCP_HEADER_OCTETS }) := by
  have hunmarked := bitError_iff.not.1 (h.symm ▸ Bool.false_ne_true)
  rw [not_or, not_or, Nat.not_lt, Nat.not_lt, not_or] at hunmarked
  obtain ⟨hlength, hhdr, hoverrun, -⟩ := hunmarked
  obtain ⟨os, tail, harea, hos, htail⟩ := exists_options (optionArea buf)
  obtain ⟨rfl, hparsed⟩ | ⟨hcut, -⟩ := (parsed_of_split hos htail harea).1
  · exact ⟨hlength, hhdr, os, harea.trans (List.append_nil _), hos, hparsed⟩
  · exact absurd ⟨os, tail, harea, hos, hcut⟩ hoverrun

theorem optionsBytes_map_optionOf (hos : ∀ o ∈ os, IsSound o) :
    optionsBytes (os.map optionOf) = os.flatten ∧ ∀ o ∈ os.map optionOf, Canonical o := by
  have hself (o : List UInt8) (ho : o ∈ os) := deserializeOption_isSound (hos o ho)
    (self_remaining o)
  constructor
  · rw [optionsBytes, List.flatMap_map, List.flatMap_def]
    exact congrArg _ ((List.map_congr_left fun o ho ↦ (hself o ho).2.2).trans
      (List.map_id os))
  · simp only [List.forall_mem_map]
    exact fun o ho ↦ (hself o ho).2.1

/-- **Sound options** are written as they were. -/
theorem reserializes_of_isSound (hint : buf.length < 2 ^ 31) (hsound : HasSoundOptions buf)
    (h : (deserialize buf c : TCPSegment Packet).bitError = false) :
    Reserializes (deserialize buf c : TCPSegment Packet) c := by
  obtain ⟨hlength, hhdr, -⟩ := exists_options_of_bitError h
  obtain ⟨htwenty, os, harea, hos⟩ := hsound
  obtain ⟨⟨-, hparsed⟩ | ⟨hcut, -⟩, -⟩ := parsed_of_split (fun o ho ↦ .inl (hos o ho)) (.inl rfl)
    (harea.trans (List.append_nil _).symm)
  swap
  · exact hcut.elim
  obtain ⟨hbytes, hcanonical⟩ := optionsBytes_map_optionOf hos
  have hseg : (deserialize buf c : TCPSegment Packet) = _ := deserialize_of_le hlength hhdr
  rw [hparsed] at hseg
  have hfour : 4 ∣ hdrLength (buf.take TCP_HEADER_OCTETS) := ⟨_, Nat.mul_comm _ _⟩
  have hsixty := hdrLength_le (buf.take TCP_HEADER_OCTETS)
  have hareaLength : os.flatten.length =
      hdrLength (buf.take TCP_HEADER_OCTETS) - TCP_HEADER_OCTETS := by
    rw [← harea, optionArea, List.length_take, List.length_drop]
    omega
  generalize hhdrLength : hdrLength (buf.take TCP_HEADER_OCTETS) = hdrLength at *
  have hheaderLength : (deserialize buf c : TCPSegment Packet).headerLength.toNat = hdrLength := by
    rw [hseg]
    show (UInt16.ofNat (TCPSerializer.hdrLength (buf.take TCP_HEADER_OCTETS))).toNat = hdrLength
    rw [hhdrLength, UInt16.toNat_ofNat_of_lt' (by rw [UInt16.size]; omega)]
  have hheaderOption : (deserialize buf c : TCPSegment Packet).headerOption = os.map optionOf := by
    rw [hseg]
  have hbyteArray : (deserialize buf c : TCPSegment Packet).byteArray = buf.drop hdrLength := by
    rw [hseg]
  have hpadded : paddedLength os.flatten.length = os.flatten.length := by
    rw [paddedLength, hareaLength, TCP_HEADER_OCTETS]
    omega
  have hwritable : Writable (deserialize buf c : TCPSegment Packet) := by
    refine ⟨by rwa [hheaderOption], ?_, by rwa [hheaderLength], ?_, ?_⟩
    · rw [hheaderLength, hheaderOption, ← (length_optionsBytes hcanonical).1, hbytes, hpadded]
      omega
    · rw [hbyteArray, hseg, List.length_drop]
    · rw [hheaderLength, hseg]
      show buf.length = hdrLength + (buf.length - hdrLength)
      omega
  have hself : padded (deserialize buf c : TCPSegment Packet) = deserialize buf c := by
    have hoptions : paddedOptions (os.map optionOf) = os.map optionOf := by
      rw [paddedOptions, hbytes, hpadded, Nat.sub_self, List.replicate_zero, List.append_nil]
    rw [padded, hheaderOption, hoptions, ← h, hseg]
    rfl
  intro b hpos hroom
  obtain ⟨b', hserialize, herror, -, hparse, -⟩ := deserialize_serialize hwritable (by
    rw [hseg]
    exact hint) hpos hroom c
  exact ⟨b', hserialize, herror, hparse.trans hself⟩

/-- **A stub is not written.** -/
theorem serializeOption_isStub {option : TCPOption} (hlength : option.length.toNat < 2)
    (hfields : option.fields = .unknown []) (b b' : Buffer) :
    serializeOption option b ≠ .ok b' := by
  have hne : ¬ option.length.toNat = 2 + ([] : List UInt8).length := by
    rw [List.length_nil]
    omega
  rw [serializeOption, hfields]
  simp only [assert, if_neg hne]
  intro h
  cases h

/-- The steps of a serialization. -/
theorem exists_of_serialize_eq_ok {b' : Buffer} (h : serialize tcpseg b c = .ok b') :
    ∃ b₁ b₂, serializeOptions (tcpseg.headerOption.take (tcpseg.headerOption.length % 2 ^ 16))
        (b.writeNBytes (headerBytes tcpseg)) = .ok b₁ ∧
      serializeData tcpseg b₁ = .ok b₂ ∧ b' = writeChecksum b₂ c := by
  rw [serialize] at h
  obtain ⟨b₀, hpos, h⟩ := exists_of_bind_eq_ok h
  obtain rfl : b = b₀ := by
    rw [assert] at hpos
    split_ifs at hpos
    exact Except.ok.inj hpos
  split_ifs at h with hmod
  · obtain ⟨_, hthrow, -⟩ := exists_of_bind_eq_ok h
    cases hthrow
  · obtain ⟨b₁, hoptions, h⟩ := exists_of_bind_eq_ok h
    obtain ⟨b₂, hdata, h⟩ := exists_of_bind_eq_ok h
    exact ⟨b₁, b₂, hoptions, hdata, (Except.ok.inj h).symm⟩

/-- **A segment with a stub** is not written. -/
theorem not_reserializes_of_isStub (h : (deserialize buf c : TCPSegment Packet).bitError = false)
    (hsound : ¬ ∃ os : List (List UInt8), optionArea buf = os.flatten ∧ ∀ o ∈ os, IsSound o) :
    ¬ Reserializes (deserialize buf c : TCPSegment Packet) c := by
  obtain ⟨hlength, hhdr, os, harea, hos, hparsed⟩ := exists_options_of_bitError h
  have hstub : ∃ o ∈ os, IsStub o := by
    by_contra hnone
    push Not at hnone
    exact hsound ⟨os, harea, fun o ho ↦ (hos o ho).resolve_right (hnone o ho)⟩
  obtain ⟨o, ho, hstub⟩ := hstub
  have hheaderOption : (deserialize buf c : TCPSegment Packet).headerOption = os.map optionOf := by
    rw [deserialize_of_le hlength hhdr, hparsed]
  have hcount : os.length < 2 ^ 16 := by
    have hle : (optionArea buf).length ≤ _ := List.length_take_le _ _
    have hsixty := hdrLength_le (buf.take TCP_HEADER_OCTETS)
    have hcount := length_le_length_flatten hos
    rw [harea] at hle
    omega
  obtain ⟨-, hshort, hfields⟩ := deserializeOption_isStub hstub (self_remaining o)
  intro hreserializes
  obtain ⟨b', hserialize, -⟩ := hreserializes ⟨List.replicate buf.length 0, 0, false⟩ rfl
    (by rw [List.length_replicate, deserialize_of_le hlength hhdr])
  obtain ⟨b₁, -, hoptions, -⟩ := exists_of_serialize_eq_ok hserialize
  rw [hheaderOption, List.length_map, Nat.mod_eq_of_lt hcount, List.take_of_length_le
    (by rw [List.length_map]), serializeOptions] at hoptions
  obtain ⟨b₂, hfold, -⟩ := exists_of_bind_eq_ok hoptions
  obtain ⟨b₃, b₄, hwrite⟩ := exists_of_foldlM_eq_ok hfold _ (List.mem_map_of_mem ho)
  exact serializeOption_isStub hshort hfields b₃ b₄ hwrite

theorem writeChecksum_frame (b : Buffer) (c : Context) :
    (writeChecksum b c).pos = b.pos ∧ (writeChecksum b c).buf.length = b.buf.length := by
  rw [writeChecksum, writeUint16To]
  split_ifs <;> simp only [List.length_set, and_self]

/-- A segment without options. -/
theorem length_of_serialize_eq_ok (hoptions : tcpseg.headerOption = [])
    (hdata : tcpseg.byteLength = tcpseg.headerLength.toNat + tcpseg.byteArray.length)
    (hpos : b.pos = 0) (hroom : TCP_HEADER_OCTETS + tcpseg.byteArray.length ≤ b.buf.length)
    {b' : Buffer} (h : serialize tcpseg b c = .ok b') :
    (b'.buf.take b'.pos).length = TCP_HEADER_OCTETS + tcpseg.byteArray.length := by
  have hheader : (headerBytes tcpseg).length = TCP_HEADER_OCTETS := rfl
  have hroom' : b.HasRoom ((headerBytes tcpseg).length + tcpseg.byteArray.length) := by
    rw [HasRoom, hheader]
    omega
  obtain ⟨b₁, b₂, hnil, hwrite, rfl⟩ := exists_of_serialize_eq_ok h
  rw [hoptions, writeNBytes_eq_put (hroom'.mono (Nat.le_add_right _ _))] at hnil
  obtain rfl : b.put (headerBytes tcpseg) = b₁ := Except.ok.inj hnil
  rw [serializeData_eq hdata (hasRoom_put hroom'), put_put hroom'] at hwrite
  obtain rfl := Except.ok.inj hwrite
  obtain ⟨hend, hbuf⟩ := writeChecksum_frame (b.put (headerBytes tcpseg ++ tcpseg.byteArray)) c
  rw [List.length_take, hend, hbuf, length_put (by rwa [List.length_append]), pos_put,
    List.length_append, hheader, hpos]
  omega

theorem byteLength_deserialize (buf : List UInt8) (c : Context) :
    (deserialize buf c : TCPSegment Packet).byteLength = buf.length := by
  rw [deserialize]

/-- **A header that is too small** is written as a larger one. -/
theorem not_reserializes_of_lt (hoptions : tcpseg.headerOption = [])
    (hdata : tcpseg.byteLength = tcpseg.headerLength.toNat + tcpseg.byteArray.length)
    (hlt : tcpseg.headerLength.toNat < TCP_HEADER_OCTETS) : ¬ Reserializes tcpseg c := by
  intro hreserializes
  have hroom : TCP_HEADER_OCTETS + tcpseg.byteArray.length ≤
      (List.replicate (TCP_HEADER_OCTETS + tcpseg.byteLength) (0 : UInt8)).length := by
    rw [List.length_replicate]
    omega
  obtain ⟨b', hserialize, -, hparse⟩ := hreserializes
    ⟨List.replicate (TCP_HEADER_OCTETS + tcpseg.byteLength) 0, 0, false⟩ rfl
    (by rw [List.length_replicate]; exact Nat.le_add_left _ _)
  have hwritten := length_of_serialize_eq_ok hoptions hdata rfl hroom hserialize
  have hbyteLength := congrArg TCPSegment.byteLength hparse
  rw [byteLength_deserialize] at hbyteLength
  omega

theorem not_reserializes_of_hdrLength_lt
    (h : (deserialize buf c : TCPSegment Packet).bitError = false)
    (hhdr : hdrLength (buf.take TCP_HEADER_OCTETS) < TCP_HEADER_OCTETS) :
    ¬ Reserializes (deserialize buf c : TCPSegment Packet) c := by
  obtain ⟨hlength, hle, -⟩ := exists_options_of_bitError h
  have hparsed : parsed buf = ([], { buf, pos := TCP_HEADER_OCTETS }) := by
    rw [parsed, parseOptions, if_neg (Nat.not_lt.2 hhdr.le)]
  have hsixty := hdrLength_le (buf.take TCP_HEADER_OCTETS)
  have hheaderLength : (UInt16.ofNat (hdrLength (buf.take TCP_HEADER_OCTETS))).toNat =
      hdrLength (buf.take TCP_HEADER_OCTETS) :=
    UInt16.toNat_ofNat_of_lt' (by rw [UInt16.size]; omega)
  rw [deserialize_of_le hlength hle, hparsed]
  refine not_reserializes_of_lt rfl ?_ (hheaderLength.trans_lt hhdr)
  show buf.length = (UInt16.ofNat (hdrLength (buf.take TCP_HEADER_OCTETS))).toNat +
    (buf.drop (hdrLength (buf.take TCP_HEADER_OCTETS))).length
  rw [hheaderLength, List.length_drop]
  omega

/-- **Parsing and writing again.** For bytes as many as an `int` can count, the option loop ends
within the header; and what is parsed without a bit error can be written and is then parsed as it
was, if and only if the header is not too small and each option is as long as its length says. -/
theorem reserializes_iff (hint : buf.length < 2 ^ 31) :
    (optionsEnd buf).getRemainingSize = 0 ∧
      (optionsEnd buf).pos ≤ hdrLength (buf.take TCP_HEADER_OCTETS) - TCP_HEADER_OCTETS ∧
      ((deserialize buf c : TCPSegment Packet).bitError = true ∨
          Reserializes (deserialize buf c : TCPSegment Packet) c ↔
        buf.length < TCP_HEADER_OCTETS ∨ buf.length < hdrLength (buf.take TCP_HEADER_OCTETS) ∨
          OptionsOverrun buf ∨ ChecksumFails buf c ∨ HasSoundOptions buf) := by
  obtain ⟨os, tail, harea, hos, htail⟩ := exists_options (optionArea buf)
  obtain ⟨-, hend, hle⟩ := parsed_of_split hos htail harea
  refine ⟨hend, hle, ?_⟩
  have hassoc : (buf.length < TCP_HEADER_OCTETS ∨
      buf.length < hdrLength (buf.take TCP_HEADER_OCTETS) ∨ OptionsOverrun buf ∨
        ChecksumFails buf c ∨ HasSoundOptions buf) ↔
      (deserialize buf c : TCPSegment Packet).bitError = true ∨ HasSoundOptions buf := by
    rw [bitError_iff, or_assoc, or_assoc, or_assoc]
  rw [hassoc]
  cases h : (deserialize buf c : TCPSegment Packet).bitError with
  | true => exact iff_of_true (.inl rfl) (.inl rfl)
  | false =>
    refine or_congr Iff.rfl ⟨fun hreserializes ↦ ?_, fun hsound ↦
      reserializes_of_isSound hint hsound h⟩
    refine ⟨?_, ?_⟩
    · by_contra hlt
      exact not_reserializes_of_hdrLength_lt h (Nat.not_le.1 hlt) hreserializes
    · by_contra hnone
      exact not_reserializes_of_isStub h hnone hreserializes

/-- Twenty bytes, with a data offset, and options. -/
def headerOf (dataOffset : UInt8) (options : List UInt8) : List UInt8 :=
  List.replicate 12 (0 : UInt8) ++ [dataOffset <<< 4] ++ List.replicate 7 0 ++ options

theorem reserializes_iff_sound :
    (deserialize (headerOf 7 [2, 4, 5, 180, 3, 3, 7, 0]) {} : TCPSegment Unit).bitError = true ∨
      Reserializes (deserialize (headerOf 7 [2, 4, 5, 180, 3, 3, 7, 0]) {} : TCPSegment Unit) {} := by
  refine (reserializes_iff (by decide)).2.2.2 (.inr (.inr (.inr (.inr ⟨by decide, ?_⟩))))
  exact ⟨[[2, 4, 5, 180], [3, 3, 7], [0]], rfl, by decide⟩

/-- **An option with the length byte zero** is parsed without an error, and cannot be written. -/
theorem not_reserializes_stub :
    ¬ ((deserialize (headerOf 6 [2, 0, 1, 1]) {} : TCPSegment Unit).bitError = true ∨
      Reserializes (deserialize (headerOf 6 [2, 0, 1, 1]) {} : TCPSegment Unit) {}) := by
  rintro (herror | hreserializes)
  · exact absurd herror (by decide +kernel)
  · obtain ⟨b', hserialize, -⟩ := hreserializes ⟨List.replicate 24 0, 0, false⟩ rfl (by decide)
    have hfails : serialize (deserialize (headerOf 6 [2, 0, 1, 1]) {} : TCPSegment Unit)
        ⟨List.replicate 24 0, 0, false⟩ {} = .error .assertionFailed := by
      decide +kernel
    rw [hfails] at hserialize
    cases hserialize

end TCPSerializer

end Inet.Serializer
