import Inet.Foundations.TypeLengthValue
import Inet.Foundations.WriteBuffer
import Inet.Ndn.Packets

/-!
# Encoding packets

`Tools::encodePacket` writes a packet into a buffer as nested type-length-value elements. Lengths
that are not known in advance are left open and filled in later, at remembered positions; the length
of a MetaInfo is summed up in an `unsigned char` from the length bytes already written.

The encoder here does the same writes in the same order, on a buffer that records which positions
were written. `encodeName_spec` and `Writer.Holds.put` say what its two building blocks add.
Positions are natural numbers; `unsigned` would wrap at four gigabytes.
-/

namespace Inet.Ndn.Tools

open TypeLengthValue

/-- `#define NAME 7`. -/
def NAME : ℕ := 7

/-- `#define GENERIC_NAME_COMPONENT 8`. -/
def GENERIC_NAME_COMPONENT : ℕ := 8

/-- `#define CAN_BE_PREFIX 33`. -/
def CAN_BE_PREFIX : ℕ := 33

/-- `#define MUST_BE_FRESH 18`. -/
def MUST_BE_FRESH : ℕ := 18

/-- `#define FORWARDING_HINT 30`. -/
def FORWARDING_HINT : ℕ := 30

/-- `#define NONCE 10`. -/
def NONCE : ℕ := 10

/-- `#define INTEREST_LIFETIME 12`. -/
def INTEREST_LIFETIME : ℕ := 12

/-- `#define HOP_LIMIT 34`. -/
def HOP_LIMIT : ℕ := 34

/-- `#define PARAMETERS 35`. -/
def PARAMETERS : ℕ := 35

/-- `#define META_INFO 20`. -/
def META_INFO : ℕ := 20

/-- `#define CONTENT 21`. -/
def CONTENT : ℕ := 21

/-- `#define SIGNATURE_INFO 22`. The encoder does not use it. -/
def SIGNATURE_INFO : ℕ := 22

/-- `#define CONTENT_TYPE 24`. -/
def CONTENT_TYPE : ℕ := 24

/-- `#define FRESHNESS_PERIOD 25`. -/
def FRESHNESS_PERIOD : ℕ := 25

/-- `#define FINAL_BLOCK_ID 26`. -/
def FINAL_BLOCK_ID : ℕ := 26

/-- `#define SIGNATURE_TYPE 27`. -/
def SIGNATURE_TYPE : ℕ := 27

/-- `#define KEY_LOCATOR 28`. -/
def KEY_LOCATOR : ℕ := 28

/-- `contentType::OMITTED`. -/
def OMITTED : UInt32 := 255

/-- The bytes of an `unsigned int` in memory, lowest first. -/
def unsignedBytes (n : UInt32) : List UInt8 :=
  [n.toUInt8, (n >>> 8).toUInt8, (n >>> 16).toUInt8, (n >>> 24).toUInt8]

@[simp] theorem length_unsignedBytes (n : UInt32) : (unsignedBytes n).length = 4 := rfl

/-- What `cStringTokenizer tokenizer(name, "/")` yields: the non-empty parts between slashes. -/
def components (name : CString) : List CString :=
  (name.splitOn '/'.toUInt8).filter (!·.isEmpty)

/-! ### The encoder -/

/-- One round of the loop of `encodeName`, which started at `base`. -/
def encodeComponent (base : ℕ) (w : ℕ × WriteBuffer) (component : CString) : ℕ × WriteBuffer :=
  let pos := w.1
  let tlv := (w.2.write (base + pos) GENERIC_NAME_COMPONENT).write (base + pos + 1) component.length
  (pos + 2 + component.length, tlv.writeAll (base + pos + 2) component)

/-- `Tools::encodeName(name, tlv + base)`. -/
def encodeName (name : CString) (tlv : WriteBuffer) (base : ℕ) : ℕ × WriteBuffer :=
  let tlv := tlv.write base NAME
  let (pos, tlv) := (components name).foldl (encodeComponent base) (2, tlv)
  (pos, tlv.write (base + 1) (pos - 2))

/-- The variables `tlv` and `pos` of `encodePacket`. -/
structure Writer where
  tlv : WriteBuffer
  pos : ℕ

/-- Type, length and value of an element without open positions. -/
def Writer.put (w : Writer) (type : ℕ) (value : List UInt8) : Writer where
  tlv := ((w.tlv.write w.pos type).write (w.pos + 1) value.length).writeAll (w.pos + 2) value
  pos := w.pos + 2 + value.length

/-- The variables of `encodePacket` while it writes the MetaInfo. -/
structure MetaWriter extends Writer where
  metaInfoSize : UInt8 := 0
  metaInfoPos : ℕ := 0

/-- One field of the MetaInfo, which the first field opens. The size grows by the length byte that
was just written. -/
def MetaWriter.put (m : MetaWriter) (type : ℕ) (value : List UInt8) : MetaWriter :=
  let m :=
    if m.metaInfoPos = 0 then
      { m with metaInfoPos := m.pos, tlv := m.tlv.write m.pos META_INFO, pos := m.pos + 2 }
    else m
  let w := m.toWriter.put type value
  { w with
    metaInfoPos := m.metaInfoPos
    metaInfoSize := m.metaInfoSize + ((w.tlv (m.pos + 1)).getD 0 + 2) }

/-- `Tools::encodePacket`: the number of bytes and the buffer. -/
def encodePacket (packet : Packet) (tlv : WriteBuffer) : ℕ × WriteBuffer :=
  match packet with
  | .interest interest =>
    let (n, tlv) := encodeName interest.name (tlv.write 0 INTEREST) 2
    let w : Writer := ⟨tlv, n + 2⟩
    let w := if interest.canBePrefix then w.put CAN_BE_PREFIX [] else w
    let w := if interest.mustBeFresh then w.put MUST_BE_FRESH [] else w
    let w := if interest.forwardingHint.length ≠ 0 then
      w.put FORWARDING_HINT interest.forwardingHint else w
    let w := if interest.nonce.length ≠ 0 then w.put NONCE interest.nonce else w
    let w := if interest.interestLifetimeMs ≠ 4000 then
      w.put INTEREST_LIFETIME (unsignedBytes interest.interestLifetimeMs) else w
    let w := if interest.hopLimit ≠ 256 then
      w.put HOP_LIMIT (unsignedBytes interest.hopLimit) else w
    let w := if interest.parameters.length ≠ 0 then w.put PARAMETERS interest.parameters else w
    (w.pos, w.tlv.write 1 (w.pos - 2))
  | .data data =>
    let (n, tlv) := encodeName data.name (tlv.write 0 DATA) 2
    let m : MetaWriter := { tlv, pos := n + 2 }
    let m := if data.contentType ≠ OMITTED then
      m.put CONTENT_TYPE (unsignedBytes data.contentType) else m
    let m := if data.freshnessPeriod ≠ 0 then
      m.put FRESHNESS_PERIOD (unsignedBytes data.freshnessPeriod) else m
    let m := if data.finalBlockId.length ≠ 0 then m.put FINAL_BLOCK_ID data.finalBlockId else m
    let w : Writer := if m.metaInfoSize ≠ 0 then
      ⟨m.tlv.write (m.metaInfoPos + 1) m.metaInfoSize.toNat, m.pos⟩ else m.toWriter
    let w := if data.content.length ≠ 0 then w.put CONTENT data.content else w
    let signatureInfoPos := w.pos
    let w : Writer := ⟨w.tlv.write signatureInfoPos META_INFO, w.pos + 2⟩
    let w := w.put SIGNATURE_TYPE (unsignedBytes data.signatureType)
    let (w, signatureInfoSize) :=
      if data.keyLocator.length ≠ 0 then
        let w' := w.put KEY_LOCATOR data.keyLocator
        (w', (3 : UInt8) + ((w'.tlv (w.pos + 1)).getD 0 + 2))
      else (w, 3)
    let tlv := w.tlv.write (signatureInfoPos + 1) signatureInfoSize.toNat
    (w.pos, tlv.write 1 (w.pos - 2))

/-- `Tools::computeTlvNameSize`. -/
def computeTlvNameSize (name : CString) : ℕ :=
  (components name).foldl (fun pos component ↦ pos + (component.length + 2)) 2

/-- `Tools::computeTlvPacketSize`. -/
def computeTlvPacketSize (packet : Packet) : ℕ :=
  match packet with
  | .interest interest =>
    let pos := 2 + computeTlvNameSize interest.name
    let pos := if interest.canBePrefix then pos + 2 else pos
    let pos := if interest.mustBeFresh then pos + 2 else pos
    let pos := if interest.forwardingHint.length ≠ 0 then
      pos + (interest.forwardingHint.length + 2) else pos
    let pos := if interest.nonce.length ≠ 0 then pos + (interest.nonce.length + 2) else pos
    let pos := if interest.interestLifetimeMs ≠ 4000 then pos + (4 + 2) else pos
    let pos := if interest.hopLimit ≠ 256 then pos + (4 + 2) else pos
    if interest.parameters.length ≠ 0 then pos + (interest.parameters.length + 2) else pos
  | .data data =>
    let pos := 2 + computeTlvNameSize data.name
    let pos := if data.contentType ≠ OMITTED then pos + (4 + 2) else pos
    let pos := if data.freshnessPeriod ≠ 0 then pos + (4 + 2) else pos
    let pos := if data.finalBlockId.length ≠ 0 then pos + (data.finalBlockId.length + 2) else pos
    let hasMetaInfo := data.contentType ≠ OMITTED ∨ data.freshnessPeriod ≠ 0 ∨
      data.finalBlockId.length ≠ 0
    let pos := if hasMetaInfo then pos + 2 else pos
    let pos := if data.content.length ≠ 0 then pos + (data.content.length + 2) else pos
    let pos := pos + 2 + (4 + 2)
    if data.keyLocator.length ≠ 0 then pos + (data.keyLocator.length + 2) else pos

/-! ### What the building blocks add -/

/-- The writer has written the list, but for its open positions, and stands behind it. -/
def Writer.Holds (w : Writer) (l : List (Option UInt8)) : Prop :=
  w.tlv.Represents l ∧ w.pos = l.length

/-- An element as it stands in a buffer. -/
def written (type : ℕ) (value : List UInt8) : List (Option UInt8) :=
  (element (UInt8.ofNat type) value).map some

@[simp]
theorem length_written (type : ℕ) (value : List UInt8) :
    (written type value).length = value.length + 2 := by
  simp [written]

theorem written_eq (type : ℕ) (value : List UInt8) :
    written type value =
      [some (UInt8.ofNat type)] ++ [some (UInt8.ofNat value.length)] ++ value.map some :=
  rfl

/-- Writing an element behind a list. -/
theorem represents_element {tlv : WriteBuffer} {l : List (Option UInt8)} (h : tlv.Represents l)
    (type : ℕ) (value : List UInt8) :
    (((tlv.write l.length type).write (l.length + 1) value.length).writeAll (l.length + 2)
      value).Represents (l ++ written type value) := by
  have h₁ := h.write_end type
  have h₂ := h₁.write_end value.length
  have h₃ := h₂.writeAll_end value
  simpa [written_eq] using h₃

theorem Writer.Holds.put {w : Writer} {l : List (Option UInt8)} (h : w.Holds l) (type : ℕ)
    (value : List UInt8) : (w.put type value).Holds (l ++ written type value) := by
  obtain ⟨hrep, hpos⟩ := h
  refine ⟨?_, ?_⟩
  · rw [Writer.put, hpos]
    exact represents_element hrep type value
  · rw [List.length_append, length_written, ← hpos]
    show w.pos + 2 + value.length = _
    omega

/-- An element that is written when a condition holds. -/
theorem Writer.Holds.put_if {w : Writer} {l : List (Option UInt8)} (h : w.Holds l) (c : Prop)
    [Decidable c] (type : ℕ) (value : List UInt8) :
    Holds (if c then w.put type value else w) (l ++ if c then written type value else []) := by
  split
  · exact h.put type value
  · rwa [List.append_nil]

/-- The value of a Name element. -/
def nameValue (name : CString) : List UInt8 :=
  (components name).flatMap fun c ↦ element (UInt8.ofNat GENERIC_NAME_COMPONENT) c

/-- The computed size of a name is the number of bytes of its element. -/
theorem computeTlvNameSize_eq (name : CString) :
    computeTlvNameSize name = (nameValue name).length + 2 := by
  have hfold : ∀ (cs : List CString) (pos : ℕ),
      cs.foldl (fun pos component ↦ pos + (component.length + 2)) pos =
        pos + (cs.flatMap fun c ↦ element (UInt8.ofNat GENERIC_NAME_COMPONENT) c).length := by
    intro cs
    induction cs with
    | nil => simp
    | cons c cs ih =>
      intro pos
      rw [List.foldl_cons, ih, List.flatMap_cons, List.length_append, length_element]
      omega
  rw [computeTlvNameSize, hfold, nameValue]
  omega

/-- The loop of `encodeName` adds an element for each component. -/
theorem foldl_encodeComponent (base : ℕ) (cs : List CString) (pos : ℕ) {tlv : WriteBuffer}
    {l : List (Option UInt8)} (h : tlv.Represents l) (hpos : base + pos = l.length) :
    let w := cs.foldl (encodeComponent base) (pos, tlv)
    let value := cs.flatMap fun c ↦ element (UInt8.ofNat GENERIC_NAME_COMPONENT) c
    w.2.Represents (l ++ value.map some) ∧ w.1 = pos + value.length := by
  induction cs generalizing tlv l pos with
  | nil => simpa using h
  | cons c cs ih =>
    have hc := represents_element h GENERIC_NAME_COMPONENT c
    rw [← hpos] at hc
    have hnext := ih (pos + 2 + c.length) hc (by simp; omega)
    simp only [List.foldl_cons, List.flatMap_cons, List.map_append, List.length_append,
      length_element]
    refine ⟨?_, ?_⟩
    · rw [← List.append_assoc]
      exact hnext.1
    · have hpos' := hnext.2
      simp only [encodeComponent] at hpos' ⊢
      omega

/-- **A name is written as a Name element.** -/
theorem encodeName_spec (name : CString) {tlv : WriteBuffer} {l : List (Option UInt8)}
    (h : tlv.Represents l) :
    (encodeName name tlv l.length).2.Represents (l ++ written NAME (nameValue name)) ∧
      (encodeName name tlv l.length).1 = (nameValue name).length + 2 := by
  have hopen := (h.write_end NAME).skip
  obtain ⟨hrep, hpos⟩ := foldl_encodeComponent l.length (components name) 2 hopen (by simp)
  generalize hw :
    (components name).foldl (encodeComponent l.length) (2, tlv.write l.length NAME) = w at hrep hpos
  have hname : encodeName name tlv l.length = (w.1, w.2.write (l.length + 1) (w.1 - 2)) := by
    rw [encodeName, hw]
  have hopened : (l ++ [some (UInt8.ofNat NAME)] ++ [none]) ++ (nameValue name).map some =
      (l ++ [some (UInt8.ofNat NAME)]) ++ none :: (nameValue name).map some := by simp
  rw [← nameValue, hopened] at hrep
  have hdone := hrep.fill (nameValue name).length
  rw [List.length_append, List.length_singleton] at hdone
  rw [hname, hpos, ← nameValue]
  refine ⟨?_, by omega⟩
  rw [show 2 + (nameValue name).length - 2 = (nameValue name).length by omega, written_eq]
  simpa using hdone

end Inet.Ndn.Tools
