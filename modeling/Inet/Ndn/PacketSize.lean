import Inet.Ndn.DataEncoding
import Inet.Ndn.InterestEncoding

/-!
# The size of a packet and the bytes that are written

`computeTlvPacketSize` is what the applications give the link layer as the length of a packet, and
what a buffer for `encodePacket` has to hold. The two traversals agree on the number of bytes for
every packet, and nothing is written behind it. They disagree on one byte: the encoder sums up the
size of the MetaInfo in an `unsigned char` and takes zero for "no MetaInfo", where the computation
asks whether a field was there. So the length byte of a MetaInfo stays unwritten when its size is a
multiple of 256.
-/

namespace Inet.Ndn.Tools

/-- The size of the MetaInfo fields of a Data, with the two bytes each has for type and length. -/
def metaInfoSize (data : Data) : ℕ :=
  (if data.contentType ≠ OMITTED then 4 + 2 else 0) +
    (if data.freshnessPeriod ≠ 0 then 4 + 2 else 0) +
    (if data.finalBlockId.length ≠ 0 then data.finalBlockId.length + 2 else 0)

theorem length_fieldBytes_metaInfoFields (data : Data) :
    (fieldBytes (metaInfoFields data)).length = metaInfoSize data := by
  unfold metaInfoFields metaInfoSize
  split_ifs <;> simp [fieldBytes]
  omega

/-- A packet without MetaInfo fields, or with fields whose size is not zero in a byte. -/
def MetaInfoSizeCounts : Packet → Prop
  | .interest _ => True
  | .data data => metaInfoSize data = 0 ∨ metaInfoSize data % 256 ≠ 0

/-- **The computed size is what is encoded**: the encoder returns it, writes every position below it
and none from it on. -/
def EncodesComputedSize (packet : Packet) : Prop :=
  (encodePacket packet .empty).1 = computeTlvPacketSize packet ∧
    ∀ i, ((encodePacket packet .empty).2 i).isSome ↔ i < computeTlvPacketSize packet

/-- A buffer is written up to the end of its list, and no further, if no position is open. -/
theorem isSome_iff_lt {tlv : WriteBuffer} {l : List (Option UInt8)} (h : tlv.Represents l) :
    (∀ i, (tlv i).isSome ↔ i < l.length) ↔ none ∉ l := by
  constructor
  · intro hall hnone
    obtain ⟨i, hi, hget⟩ := List.getElem_of_mem hnone
    have hsome := (hall i).2 hi
    rw [h i, List.getElem?_eq_getElem hi, hget] at hsome
    exact Bool.false_ne_true hsome
  · intro hnone i
    rw [h i]
    by_cases hi : i < l.length
    · rw [List.getElem?_eq_getElem hi, Option.join_some, Option.isSome_iff_ne_none]
      exact iff_of_true (fun hget ↦ hnone (hget ▸ List.getElem_mem hi)) hi
    · rw [List.getElem?_eq_none (not_lt.1 hi)]
      exact iff_of_false (by simp) hi

/-- The MetaInfo keeps an open position exactly when there is one whose size is zero in a byte. -/
theorem none_notMem_closedMetaInfo (data : Data) :
    none ∉ closedMetaInfo (metaInfoFields data) ↔ MetaInfoSizeCounts (.data data) := by
  rw [MetaInfoSizeCounts, closedMetaInfo, length_fieldBytes_metaInfoFields]
  by_cases hopen : metaInfoSize data % 256 = 0
  · rw [if_pos hopen, openMetaInfo]
    by_cases hf : metaInfoFields data = []
    · have hzero : metaInfoSize data = 0 := by
        rw [← length_fieldBytes_metaInfoFields, hf]
        rfl
      rw [if_pos hf]
      exact iff_of_true List.not_mem_nil (.inl hzero)
    · have hpos : metaInfoSize data ≠ 0 := by
        obtain ⟨f, fields, hcons⟩ := List.exists_cons_of_ne_nil hf
        rw [← length_fieldBytes_metaInfoFields, hcons]
        simp [fieldBytes]
      rw [if_neg hf]
      exact iff_of_false (fun h ↦ h (by simp)) fun h ↦ h.elim hpos fun hne ↦ hne hopen
  · rw [if_neg hopen]
    exact iff_of_true (by simp) (.inr hopen)

theorem none_notMem_dataWritten (data : Data) :
    none ∉ dataWritten data ↔ MetaInfoSizeCounts (.data data) := by
  rw [← none_notMem_closedMetaInfo]
  simp [dataWritten, written]

/-- **Size computation and encoder agree exactly when the size of the MetaInfo counts.** -/
theorem encodesComputedSize_iff (packet : Packet) :
    EncodesComputedSize packet ↔ MetaInfoSizeCounts packet := by
  cases packet with
  | interest interest =>
    obtain ⟨hsize, hrep⟩ := encodePacket_interest interest
    rw [← computeTlvPacketSize_interest] at hsize
    refine iff_of_true ⟨hsize, ?_⟩ trivial
    have hwritten := (isSome_iff_lt hrep).2 (by simp)
    rwa [List.length_map, ← computeTlvPacketSize_interest] at hwritten
  | data data =>
    obtain ⟨hsize, hrep⟩ := encodePacket_dataWritten data
    rw [← computeTlvPacketSize_data] at hsize
    rw [EncodesComputedSize, ← none_notMem_dataWritten, ← isSome_iff_lt hrep, length_dataWritten,
      ← computeTlvPacketSize_data]
    exact and_iff_right hsize

/-- A Data whose only MetaInfo field is a final block id of 254 bytes. -/
def longBlockId : Data :=
  { name := ['/'.toUInt8, 'a'.toUInt8]
    contentType := OMITTED
    finalBlockId := List.replicate 254 1 }

/-- The length byte of its MetaInfo is not written. -/
theorem not_encodesComputedSize :
    (encodePacket (.data longBlockId) .empty).2 8 = none ∧
      8 < computeTlvPacketSize (.data longBlockId) ∧ ¬ EncodesComputedSize (.data longBlockId) := by
  have hnone : (encodePacket (.data longBlockId) .empty).2 8 = none := by decide +kernel
  have hlt : 8 < computeTlvPacketSize (.data longBlockId) := by decide +kernel
  refine ⟨hnone, hlt, fun h ↦ ?_⟩
  have hsome := (h.2 8).2 hlt
  rw [hnone] at hsome
  exact Bool.false_ne_true hsome

end Inet.Ndn.Tools
