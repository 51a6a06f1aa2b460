import Inet.Ndn.Tools

/-!
# The encoding of a Data

The bytes `encodePacket` writes for a Data (`dataBytes`), and why they are never a well-formed
Data. The signature block is written with the type number of a MetaInfo, and the length it is given
starts from 3 although the SignatureType element that opens it has 6 bytes. So whatever fields a
Data has, a parser that accepts the bytes would have to take the signature block for a MetaInfo, and
then has three bytes left where a SignatureInfo should be (`not_wellFormed_dataBytes`).
-/

namespace Inet.Ndn.Tools

open TypeLengthValue

/-! ### The MetaInfo -/

/-- Elements with the given types and values. -/
def fieldBytes (fields : List (ℕ × List UInt8)) : List UInt8 :=
  fields.flatMap fun f ↦ element (UInt8.ofNat f.1) f.2

/-- A MetaInfo in progress, whose length byte is open; no fields, no MetaInfo. -/
def openMetaInfo (fields : List (ℕ × List UInt8)) : List (Option UInt8) :=
  if fields = [] then []
  else some (UInt8.ofNat META_INFO) :: none :: (fieldBytes fields).map some

/-- The MetaInfo with its length. -/
def metaInfoBytes (fields : List (ℕ × List UInt8)) : List UInt8 :=
  if fields = [] then [] else element (UInt8.ofNat META_INFO) (fieldBytes fields)

theorem fieldBytes_append (fields : List (ℕ × List UInt8)) (type : ℕ) (value : List UInt8) :
    fieldBytes (fields ++ [(type, value)]) =
      fieldBytes fields ++ element (UInt8.ofNat type) value := by
  simp [fieldBytes]

/-- The state of the encoder behind the list `l` and the fields written so far. -/
structure MetaWriter.Holds (m : MetaWriter) (l : List (Option UInt8))
    (fields : List (ℕ × List UInt8)) : Prop where
  writer : m.toWriter.Holds (l ++ openMetaInfo fields)
  metaInfoPos : m.metaInfoPos = if fields = [] then 0 else l.length
  metaInfoSize : m.metaInfoSize = UInt8.ofNat (fieldBytes fields).length

/-- The length byte of an element can be read back. -/
theorem Writer.Holds.length_byte {w : Writer} {l : List (Option UInt8)} (h : w.Holds l) (type : ℕ)
    (value : List UInt8) :
    (w.put type value).tlv (w.pos + 1) = some (UInt8.ofNat value.length) := by
  rw [(h.put type value).1, h.2, List.getElem?_append_right (by omega), written_eq]
  simp

/-- The MetaInfo is opened by its first field. -/
theorem MetaWriter.Holds.opened {m : MetaWriter} {l : List (Option UInt8)}
    {fields : List (ℕ × List UInt8)} (h : m.Holds l fields) (hl : l ≠ []) :
    let m' : MetaWriter :=
      if m.metaInfoPos = 0 then
        { m with metaInfoPos := m.pos, tlv := m.tlv.write m.pos META_INFO, pos := m.pos + 2 }
      else m
    m'.toWriter.Holds
        (l ++ some (UInt8.ofNat META_INFO) :: none :: (fieldBytes fields).map some) ∧
      m'.metaInfoPos = l.length ∧ m'.metaInfoSize = m.metaInfoSize := by
  obtain ⟨⟨hrep, hend⟩, hpos, -⟩ := h
  have hlen : l.length ≠ 0 := by simpa using hl
  by_cases hf : fields = []
  · subst hf
    rw [openMetaInfo, if_pos rfl, List.append_nil] at hrep hend
    rw [if_pos rfl] at hpos
    have hopened := (hrep.write_end META_INFO).skip
    rw [List.append_assoc] at hopened
    simp only [if_pos hpos, hend]
    exact ⟨⟨hopened, by simp [fieldBytes]⟩, trivial, trivial⟩
  · rw [openMetaInfo, if_neg hf] at hrep hend
    rw [if_neg hf] at hpos
    simp only [hpos, if_neg hlen]
    exact ⟨⟨hrep, hend⟩, trivial, trivial⟩

/-- One more field. -/
theorem MetaWriter.Holds.put {m : MetaWriter} {l : List (Option UInt8)}
    {fields : List (ℕ × List UInt8)} (h : m.Holds l fields) (hl : l ≠ []) (type : ℕ)
    (value : List UInt8) : (m.put type value).Holds l (fields ++ [(type, value)]) := by
  obtain ⟨hw, hpos, hsize⟩ := h.opened hl
  have hput := hw.put type value
  have hbyte := hw.length_byte type value
  refine ⟨?_, ?_, ?_⟩
  · -- the field stands behind those before it, the open length byte stays where it was
    have hlist : l ++ openMetaInfo (fields ++ [(type, value)]) =
        (l ++ some (UInt8.ofNat META_INFO) :: none :: (fieldBytes fields).map some) ++
          written type value := by
      rw [openMetaInfo, if_neg (by simp), fieldBytes_append]
      simp [written]
    rw [hlist]
    exact hput
  · rw [if_neg (by simp)]
    exact hpos
  · simp only [MetaWriter.put]
    rw [hbyte, hsize, h.metaInfoSize, fieldBytes_append]
    simp

theorem MetaWriter.Holds.put_if {m : MetaWriter} {l : List (Option UInt8)}
    {fields : List (ℕ × List UInt8)} (h : m.Holds l fields) (hl : l ≠ []) (c : Prop) [Decidable c]
    (type : ℕ) (value : List UInt8) :
    Holds (if c then m.put type value else m) l
      (fields ++ if c then [(type, value)] else []) := by
  split
  · exact h.put hl type value
  · rwa [List.append_nil]

/-- The MetaInfo as it is left. The encoder takes a size of zero for "no MetaInfo", so a MetaInfo
whose size is zero in a byte keeps its length byte open. -/
def closedMetaInfo (fields : List (ℕ × List UInt8)) : List (Option UInt8) :=
  if (fieldBytes fields).length % 256 = 0 then openMetaInfo fields
  else (metaInfoBytes fields).map some

theorem closedMetaInfo_of_lt {fields : List (ℕ × List UInt8)}
    (hshort : (fieldBytes fields).length < 256) :
    closedMetaInfo fields = (metaInfoBytes fields).map some := by
  by_cases hf : fields = []
  · subst hf
    rfl
  · have hpos : 0 < (fieldBytes fields).length := by
      obtain ⟨f, fields, rfl⟩ := List.exists_cons_of_ne_nil hf
      simp [fieldBytes]
    rw [closedMetaInfo, if_neg (by rw [Nat.mod_eq_of_lt hshort]; omega)]

@[simp]
theorem length_closedMetaInfo (fields : List (ℕ × List UInt8)) :
    (closedMetaInfo fields).length = (metaInfoBytes fields).length := by
  unfold closedMetaInfo openMetaInfo metaInfoBytes
  by_cases hf : fields = []
  · subst hf
    rfl
  · rw [if_neg hf, if_neg hf]
    split <;> simp

/-- What the encoder does with the length byte of the MetaInfo. -/
theorem MetaWriter.Holds.close {m : MetaWriter} {l : List (Option UInt8)}
    {fields : List (ℕ × List UInt8)} (h : m.Holds l fields) :
    Writer.Holds
      (if m.metaInfoSize ≠ 0 then
        ⟨m.tlv.write (m.metaInfoPos + 1) m.metaInfoSize.toNat, m.pos⟩ else m.toWriter)
      (l ++ closedMetaInfo fields) := by
  obtain ⟨⟨hrep, hend⟩, hpos, hsize⟩ := h
  have hzero : m.metaInfoSize = 0 ↔ (fieldBytes fields).length % 256 = 0 := by
    rw [hsize, ← UInt8.toNat_inj]
    simp
  by_cases hopen : (fieldBytes fields).length % 256 = 0
  · rw [if_neg (not_not.2 (hzero.2 hopen)), closedMetaInfo, if_pos hopen]
    exact ⟨hrep, hend⟩
  · have hf : fields ≠ [] := by
      rintro rfl
      exact hopen rfl
    rw [openMetaInfo, if_neg hf] at hrep hend
    rw [if_neg hf] at hpos
    rw [if_pos (mt hzero.1 hopen), closedMetaInfo, if_neg hopen, metaInfoBytes, if_neg hf]
    rw [List.append_cons] at hrep
    have hfill := hrep.fill m.metaInfoSize.toNat
    rw [List.length_append, List.length_singleton, UInt8.ofNat_toNat, hsize] at hfill
    refine ⟨?_, by simpa using hend⟩
    rw [hpos, hsize]
    simpa [element] using hfill

/-! ### The bytes -/

/-- The fields of the MetaInfo of a Data. -/
def metaInfoFields (data : Data) : List (ℕ × List UInt8) :=
  (((if data.contentType ≠ OMITTED then [(CONTENT_TYPE, unsignedBytes data.contentType)] else []) ++
    if data.freshnessPeriod ≠ 0 then
      [(FRESHNESS_PERIOD, unsignedBytes data.freshnessPeriod)] else []) ++
    if data.finalBlockId.length ≠ 0 then [(FINAL_BLOCK_ID, data.finalBlockId)] else [])

/-- The Content of a Data. -/
def contentBytes (data : Data) : List UInt8 :=
  if data.content.length ≠ 0 then element (UInt8.ofNat CONTENT) data.content else []

/-- What follows type and length of the signature block. -/
def signatureTail (data : Data) : List UInt8 :=
  element (UInt8.ofNat SIGNATURE_TYPE) (unsignedBytes data.signatureType) ++
    if data.keyLocator.length ≠ 0 then element (UInt8.ofNat KEY_LOCATOR) data.keyLocator else []

/-- The length the signature block is given. -/
def signatureInfoSize (data : Data) : UInt8 :=
  if data.keyLocator.length ≠ 0 then 3 + (UInt8.ofNat data.keyLocator.length + 2) else 3

/-- The signature block, with the type number of a MetaInfo. -/
def signatureBytes (data : Data) : List UInt8 :=
  UInt8.ofNat META_INFO :: signatureInfoSize data :: signatureTail data

/-- What follows type and length of a Data. -/
def dataValue (data : Data) : List UInt8 :=
  element (UInt8.ofNat NAME) (nameValue data.name) ++ metaInfoBytes (metaInfoFields data) ++
    contentBytes data ++ signatureBytes data

/-- The bytes of a Data. -/
def dataBytes (data : Data) : List UInt8 :=
  element (UInt8.ofNat DATA) (dataValue data)

theorem length_metaInfoBytes (fields : List (ℕ × List UInt8)) :
    (metaInfoBytes fields).length =
      if fields = [] then 0 else (fieldBytes fields).length + 2 := by
  unfold metaInfoBytes
  split <;> simp

/-- The computed size is the number of bytes. -/
theorem computeTlvPacketSize_data (data : Data) :
    computeTlvPacketSize (.data data) = (dataBytes data).length := by
  simp only [computeTlvPacketSize, computeTlvNameSize_eq, dataBytes, dataValue, contentBytes,
    signatureBytes, signatureTail, length_metaInfoBytes, length_element, List.length_append,
    List.length_cons, length_unsignedBytes]
  by_cases h₁ : data.contentType = OMITTED <;> by_cases h₂ : data.freshnessPeriod = 0 <;>
    by_cases h₃ : data.finalBlockId.length = 0 <;> by_cases h₄ : data.content.length = 0 <;>
      by_cases h₅ : data.keyLocator.length = 0 <;>
        simp [metaInfoFields, fieldBytes, h₁, h₂, h₃, h₄, h₅] <;> omega

/-- The signature block, from its header to its length. -/
theorem Writer.Holds.signature {w : Writer} {l : List (Option UInt8)} (h : w.Holds l)
    (data : Data) :
    let w₁ : Writer := ⟨w.tlv.write w.pos META_INFO, w.pos + 2⟩
    let w₂ := w₁.put SIGNATURE_TYPE (unsignedBytes data.signatureType)
    let r : Writer × UInt8 :=
      if data.keyLocator.length ≠ 0 then
        let w' := w₂.put KEY_LOCATOR data.keyLocator
        (w', (3 : UInt8) + ((w'.tlv (w₂.pos + 1)).getD 0 + 2))
      else (w₂, 3)
    Holds ⟨r.1.tlv.write (w.pos + 1) r.2.toNat, r.1.pos⟩
      (l ++ (signatureBytes data).map some) := by
  intro w₁ w₂ r
  obtain ⟨hrep, hend⟩ := h
  have h₁ : w₁.Holds (l ++ [some (UInt8.ofNat META_INFO)] ++ [none]) := by
    refine ⟨?_, by simp [w₁, hend]⟩
    show (w.tlv.write w.pos META_INFO).Represents _
    rw [hend]
    exact (hrep.write_end META_INFO).skip
  have h₂ := h₁.put SIGNATURE_TYPE (unsignedBytes data.signatureType)
  have hr : r.2 = signatureInfoSize data ∧
      r.1.Holds (l ++ [some (UInt8.ofNat META_INFO)] ++ none :: (signatureTail data).map some) := by
    by_cases hk : data.keyLocator.length = 0
    · simp only [r, signatureInfoSize, signatureTail, hk, ne_eq, not_true_eq_false, if_false]
      exact ⟨trivial, by simpa [written] using h₂⟩
    · have h₃ := h₂.put KEY_LOCATOR data.keyLocator
      have hbyte := h₂.length_byte KEY_LOCATOR data.keyLocator
      simp only [r, signatureInfoSize, signatureTail, hk, ne_eq, not_false_eq_true, if_true]
      exact ⟨by rw [hbyte, Option.getD_some], by simpa [written] using h₃⟩
  obtain ⟨hsize, hrep', hend'⟩ := hr
  have hfill := hrep'.fill r.2.toNat
  rw [UInt8.ofNat_toNat, List.length_append, List.length_singleton, ← hend] at hfill
  refine ⟨?_, by rw [hend']; simp [signatureBytes]⟩
  rw [hsize] at hfill ⊢
  simpa [signatureBytes] using hfill

/-- What is written for a Data, with the length byte of the MetaInfo as it is left. -/
def dataWritten (data : Data) : List (Option UInt8) :=
  [some (UInt8.ofNat DATA), some (UInt8.ofNat (dataValue data).length)] ++
    written NAME (nameValue data.name) ++ closedMetaInfo (metaInfoFields data) ++
    (contentBytes data).map some ++ (signatureBytes data).map some

@[simp]
theorem length_dataWritten (data : Data) : (dataWritten data).length = (dataBytes data).length := by
  simp only [dataWritten, dataBytes, dataValue, List.length_append, List.length_map,
    length_element, length_written, length_closedMetaInfo, List.length_cons, List.length_nil]
  omega

/-- **What is written for a Data**, and how many bytes the encoder says it is. -/
theorem encodePacket_dataWritten (data : Data) :
    (encodePacket (.data data) .empty).1 = (dataBytes data).length ∧
      (encodePacket (.data data) .empty).2.Represents (dataWritten data) := by
  have hstart := (WriteBuffer.represents_empty.write_end DATA).skip
  obtain ⟨hname, hnamePos⟩ := encodeName_spec data.name hstart
  have hm : MetaWriter.Holds
      { tlv := (encodeName data.name (WriteBuffer.empty.write 0 DATA) 2).2
        pos := (encodeName data.name (WriteBuffer.empty.write 0 DATA) 2).1 + 2 }
      ([some (UInt8.ofNat DATA), none] ++ written NAME (nameValue data.name)) [] := by
    refine ⟨⟨by simpa [openMetaInfo] using hname, ?_⟩, rfl, rfl⟩
    simpa [openMetaInfo] using hnamePos
  have hmeta := ((hm.put_if (by simp) (data.contentType ≠ OMITTED) CONTENT_TYPE
    (unsignedBytes data.contentType)).put_if (by simp) (data.freshnessPeriod ≠ 0) FRESHNESS_PERIOD
      (unsignedBytes data.freshnessPeriod)).put_if (by simp) (data.finalBlockId.length ≠ 0)
        FINAL_BLOCK_ID data.finalBlockId
  have hdone := (hmeta.close.put_if (data.content.length ≠ 0) CONTENT data.content).signature data
  obtain ⟨hrep, hend⟩ := hdone
  have hlist : [some (UInt8.ofNat DATA), none] ++ written NAME (nameValue data.name) ++
      closedMetaInfo (metaInfoFields data) ++
      (if data.content.length ≠ 0 then written CONTENT data.content else []) ++
      (signatureBytes data).map some =
      [some (UInt8.ofNat DATA)] ++ none :: (written NAME (nameValue data.name) ++
        closedMetaInfo (metaInfoFields data) ++ (contentBytes data).map some ++
        (signatureBytes data).map some) := by
    simp only [contentBytes, written]
    split <;> simp
  have hrep' := hlist ▸ hrep
  have hend' := hlist ▸ hend
  have hpos : (encodePacket (.data data) .empty).1 = (dataBytes data).length := by
    refine Eq.trans hend' ?_
    rw [← length_dataWritten, dataWritten]
    simp
  have hlen : (dataBytes data).length - 2 = (dataValue data).length := by simp [dataBytes]
  refine ⟨hpos, ?_⟩
  -- the length byte of the whole packet is filled in last
  have hfill : (encodePacket (.data data) .empty).2.Represents ([some (UInt8.ofNat DATA)] ++
      some (UInt8.ofNat ((encodePacket (.data data) .empty).1 - 2)) ::
        (written NAME (nameValue data.name) ++ closedMetaInfo (metaInfoFields data) ++
          (contentBytes data).map some ++ (signatureBytes data).map some)) := hrep'.fill _
  rw [hpos, hlen] at hfill
  simpa [dataWritten] using hfill

/-- When the MetaInfo is not too long for its length byte, the encoder writes exactly
`dataBytes`. -/
theorem encodePacket_data (data : Data)
    (hshort : (fieldBytes (metaInfoFields data)).length < 256) :
    (encodePacket (.data data) .empty).1 = (dataBytes data).length ∧
      (encodePacket (.data data) .empty).2.Represents ((dataBytes data).map some) := by
  obtain ⟨hlen, hrep⟩ := encodePacket_dataWritten data
  refine ⟨hlen, ?_⟩
  rw [dataWritten, closedMetaInfo_of_lt hshort] at hrep
  simpa [dataBytes, dataValue, element, written] using hrep

/-! ### Well-formed Data -/

/-- A Name: components, each of them an element. -/
def IsName (bytes : List UInt8) : Prop :=
  ∃ parts : List (List UInt8), IsElement (UInt8.ofNat NAME) parts.flatten bytes ∧
    ∀ p ∈ parts, ∃ value, IsElement (UInt8.ofNat GENERIC_NAME_COMPONENT) value p

/-- A MetaInfo: elements inside an element. -/
def IsMetaInfo (bytes : List UInt8) : Prop :=
  ∃ value, IsElement (UInt8.ofNat META_INFO) value bytes ∧ IsElements value

/-- A Content. -/
def IsContent (bytes : List UInt8) : Prop :=
  ∃ value, IsElement (UInt8.ofNat CONTENT) value bytes

/-- A SignatureInfo: elements inside an element. -/
def IsSignatureInfo (bytes : List UInt8) : Prop :=
  ∃ value, IsElement (UInt8.ofNat SIGNATURE_INFO) value bytes ∧ IsElements value

/-- A well-formed Data: a Name, perhaps a MetaInfo, perhaps a Content and a SignatureInfo, in this
order, the length of every element being the number of bytes of its value. -/
def WellFormedData (bytes : List UInt8) : Prop :=
  ∃ name metaInfo content signatureInfo,
    IsElement (UInt8.ofNat DATA) (name ++ (metaInfo ++ (content ++ signatureInfo))) bytes ∧
      IsName name ∧ (metaInfo = [] ∨ IsMetaInfo metaInfo) ∧ (content = [] ∨ IsContent content) ∧
      IsSignatureInfo signatureInfo

/-- A SignatureInfo does not have three bytes. -/
theorem IsSignatureInfo.length {bytes : List UInt8} (h : IsSignatureInfo bytes) :
    2 ≤ bytes.length ∧ bytes.length ≠ 3 := by
  obtain ⟨value, helem, hnested⟩ := h
  have hlen := helem.length_eq
  have hone := hnested.length_ne_one
  omega

/-- Bytes that start with another type are not a Content, if there is one, and a SignatureInfo. -/
theorem append_ne_of_head {bytes content signatureInfo : List UInt8} {type : UInt8}
    (hhead : bytes.head? = some type) (hcontent : type ≠ UInt8.ofNat CONTENT)
    (hsignature : type ≠ UInt8.ofNat SIGNATURE_INFO) (hc : content = [] ∨ IsContent content)
    (hs : IsSignatureInfo signatureInfo) : bytes ≠ content ++ signatureInfo := by
  rintro rfl
  rcases hc with rfl | ⟨value, hc⟩
  · obtain ⟨value, hs, -⟩ := hs
    have hs := hs.head?_append []
    rw [List.append_nil] at hs
    rw [List.nil_append, hs] at hhead
    exact hsignature (Option.some.inj hhead).symm
  · rw [hc.head?_append] at hhead
    exact hcontent (Option.some.inj hhead).symm

/-- Neither are the Content and the signature block. -/
theorem contentBytes_append_ne {data : Data} (hshort : data.content.length < 256)
    {content signatureInfo : List UInt8} (hc : content = [] ∨ IsContent content)
    (hs : IsSignatureInfo signatureInfo) :
    contentBytes data ++ signatureBytes data ≠ content ++ signatureInfo := by
  have hsignature : ∀ {content}, (content = [] ∨ IsContent content) →
      signatureBytes data ≠ content ++ signatureInfo := by
    intro content hc
    have hhead : (signatureBytes data).head? = some (UInt8.ofNat META_INFO) := rfl
    exact append_ne_of_head hhead (by decide) (by decide) hc hs
  unfold contentBytes
  split
  · intro heq
    have helem : IsElement (UInt8.ofNat CONTENT) _ _ := isElement_element hshort
    rcases hc with rfl | ⟨value, hc⟩
    · obtain ⟨value, hs, -⟩ := hs
      have hhead := helem.head?_append (signatureBytes data)
      have hs := hs.head?_append []
      rw [List.append_nil] at hs
      rw [heq, List.nil_append, hs] at hhead
      cases hhead
    · obtain ⟨-, -, -, hrest⟩ := helem.append_inj hc heq
      have hnone : ([] : List UInt8) = [] ∨ IsContent [] := .inl rfl
      exact hsignature hnone hrest
  · exact hsignature hc

/-- The length of the signature block is three bytes short: it starts from 3, but the element that
opens the block has 6 bytes. -/
theorem signatureInfoSize_toNat {data : Data} (hshort : (signatureTail data).length < 256) :
    (signatureInfoSize data).toNat + 3 = (signatureTail data).length := by
  unfold signatureTail at *
  unfold signatureInfoSize
  split
  · rename_i hk
    simp only [if_pos hk, List.length_append, length_element, length_unsignedBytes] at hshort ⊢
    rw [UInt8.toNat_add, UInt8.toNat_add, UInt8.toNat_ofNat']
    simp
    omega
  · rfl

/-- Read as a MetaInfo, the signature block leaves three bytes over. -/
theorem length_of_signatureBytes_eq {data : Data} {value metaInfo rest : List UInt8}
    (hm : IsElement (UInt8.ofNat META_INFO) value metaInfo)
    (hshort : (signatureTail data).length < 256)
    (heq : signatureBytes data = metaInfo ++ rest) : rest.length = 3 := by
  obtain ⟨len, rfl, hlen⟩ := hm
  simp only [signatureBytes, List.cons_append, List.cons.injEq, true_and] at heq
  obtain ⟨rfl, htail⟩ := heq
  have hlength := congrArg List.length htail
  have hsize := signatureInfoSize_toNat hshort
  rw [List.length_append, ← hlen] at hlength
  omega

/-- In a Data of at most 257 bytes every length fits in its byte. -/
theorem lengths_lt {data : Data} (hsize : (dataBytes data).length ≤ 257) :
    (nameValue data.name).length < 256 ∧ (fieldBytes (metaInfoFields data)).length < 256 ∧
      data.content.length < 256 ∧ (signatureTail data).length < 256 := by
  simp only [dataBytes, dataValue, contentBytes, signatureBytes, length_metaInfoBytes,
    length_element, List.length_append, List.length_cons] at hsize
  refine ⟨by omega, ?_, ?_, by omega⟩
  · by_cases hf : metaInfoFields data = []
    · simp [hf, fieldBytes]
    · rw [if_neg hf] at hsize
      omega
  · by_cases hc : data.content.length = 0
    · omega
    · rw [if_pos hc, length_element] at hsize
      omega

/-- What follows the Name cannot be read as a MetaInfo, a Content, if there are any, and a
SignatureInfo. -/
theorem metaInfoBytes_append_ne {data : Data} (hsize : (dataBytes data).length ≤ 257)
    {metaInfo content signatureInfo : List UInt8} (hm : metaInfo = [] ∨ IsMetaInfo metaInfo)
    (hc : content = [] ∨ IsContent content) (hs : IsSignatureInfo signatureInfo) :
    metaInfoBytes (metaInfoFields data) ++ (contentBytes data ++ signatureBytes data) ≠
      metaInfo ++ (content ++ signatureInfo) := by
  obtain ⟨-, hfields, hcontent, htail⟩ := lengths_lt hsize
  unfold metaInfoBytes
  intro heq
  split at heq
  · rw [List.nil_append] at heq
    rcases hm with rfl | ⟨value, hm, -⟩
    · exact contentBytes_append_ne hcontent hc hs heq
    · by_cases hempty : data.content.length = 0
      · -- the signature block would be the MetaInfo
        rw [contentBytes, if_neg (by simpa using hempty), List.nil_append] at heq
        have hthree := length_of_signatureBytes_eq hm htail heq
        have hsignature := hs.length
        rw [List.length_append] at hthree
        rcases hc with rfl | ⟨value, hc⟩
        · simp at hthree
          omega
        · have := hc.length_eq
          omega
      · have helem : IsElement (UInt8.ofNat CONTENT) _ _ := isElement_element hcontent
        have hhead := helem.head?_append (signatureBytes data)
        rw [contentBytes, if_pos hempty] at heq
        rw [heq, hm.head?_append] at hhead
        cases hhead
  · -- the MetaInfo is read as such, and the signature block would have to be what follows
    have helem : IsElement (UInt8.ofNat META_INFO) _ _ := isElement_element hfields
    rcases hm with rfl | ⟨value, hm, -⟩
    · exact append_ne_of_head (helem.head?_append _) (by decide) (by decide) hc hs heq
    · obtain ⟨-, -, -, hrest⟩ := helem.append_inj hm heq
      exact contentBytes_append_ne hcontent hc hs hrest

/-- **No Data is encoded as well-formed bytes.** -/
theorem not_wellFormed_dataBytes (data : Data) (hsize : (dataBytes data).length ≤ 257) :
    ¬ WellFormedData (dataBytes data) := by
  rintro ⟨name, metaInfo, content, signatureInfo, ⟨len, hdata, -⟩, ⟨parts, hname, -⟩, hm, hc, hs⟩
  have hvalue : dataValue data = name ++ (metaInfo ++ (content ++ signatureInfo)) :=
    (List.cons.inj (List.cons.inj hdata).2).2
  rw [dataValue, List.append_assoc, List.append_assoc] at hvalue
  obtain ⟨-, -, -, hrest⟩ := (isElement_element (lengths_lt hsize).1).append_inj hname hvalue
  exact metaInfoBytes_append_ne hsize hm hc hs hrest

/-- **The encoder never writes a well-formed Data.** For every Data of a computed size of at most
257 bytes, the encoder writes that many bytes, and they are not a well-formed Data. -/
theorem data_never_wellFormed (data : Data) (hsize : computeTlvPacketSize (.data data) ≤ 257) :
    ∃ bytes : List UInt8,
      (encodePacket (.data data) .empty).2.firstBytes (encodePacket (.data data) .empty).1 =
        bytes.map some ∧ ¬ WellFormedData bytes := by
  rw [computeTlvPacketSize_data] at hsize
  obtain ⟨hlen, hrep⟩ := encodePacket_data data (lengths_lt hsize).2.1
  refine ⟨dataBytes data, ?_, not_wellFormed_dataBytes data hsize⟩
  rw [hlen]
  exact hrep.firstBytes_eq

/-- A Data named `/a` with the default fields. -/
def slashA : Data :=
  { name := ['/'.toUInt8, 'a'.toUInt8] }

theorem data_never_wellFormed_slashA :
    computeTlvPacketSize (.data slashA) ≤ 257 ∧ ∃ bytes : List UInt8,
      (encodePacket (.data slashA) .empty).2.firstBytes (encodePacket (.data slashA) .empty).1 =
        bytes.map some ∧ ¬ WellFormedData bytes :=
  ⟨by decide, data_never_wellFormed slashA (by decide)⟩

/-- The 23 bytes of that Data. The last element but one is the MetaInfo; the block behind it has
the type of a MetaInfo again, and claims to have 3 bytes where 6 follow. -/
theorem slashA_malformed :
    (encodePacket (.data slashA) .empty).2.firstBytes (encodePacket (.data slashA) .empty).1 =
        [6, 21, 7, 3, 8, 1, 97, 20, 6, 24, 4, 0, 0, 0, 0, 20, 3, 27, 4, 0, 0, 0, 0].map some ∧
      ¬ WellFormedData
        [6, 21, 7, 3, 8, 1, 97, 20, 6, 24, 4, 0, 0, 0, 0, 20, 3, 27, 4, 0, 0, 0, 0] :=
  ⟨by decide, not_wellFormed_dataBytes slashA (by decide)⟩

end Inet.Ndn.Tools
