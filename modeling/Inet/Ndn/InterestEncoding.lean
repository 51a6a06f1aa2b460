import Inet.Ndn.Tools

/-!
# The encoding of an Interest

The bytes `encodePacket` writes for an Interest (`interestBytes`), and why the Interest can be read
off from them. Behind the name stand the optional fields that differ from their default
(`interestFields`), each an element of a type of its own. Elements can be told from the string they
form, so equal bytes mean equal names and equal lists of fields, and a field of the Interest is
found in the list by its type or has its default.
-/

namespace Inet.Ndn.Tools

open TypeLengthValue

/-! ### The bytes -/

/-- A field that is written when a condition holds. -/
def field (c : Prop) [Decidable c] (type : ℕ) (value : List UInt8) : List (UInt8 × List UInt8) :=
  if c then [(UInt8.ofNat type, value)] else []

/-- The components of a name, as elements. -/
def nameFields (name : CString) : List (UInt8 × List UInt8) :=
  (components name).map fun c ↦ (UInt8.ofNat GENERIC_NAME_COMPONENT, c)

/-- The optional fields of an Interest that are not left out. -/
def interestFields (interest : Interest) : List (UInt8 × List UInt8) :=
  field interest.canBePrefix CAN_BE_PREFIX [] ++
  field interest.mustBeFresh MUST_BE_FRESH [] ++
  field (interest.forwardingHint.length ≠ 0) FORWARDING_HINT interest.forwardingHint ++
  field (interest.nonce.length ≠ 0) NONCE interest.nonce ++
  field (interest.interestLifetimeMs ≠ 4000) INTEREST_LIFETIME
    (unsignedBytes interest.interestLifetimeMs) ++
  field (interest.hopLimit ≠ 256) HOP_LIMIT (unsignedBytes interest.hopLimit) ++
  field (interest.parameters.length ≠ 0) PARAMETERS interest.parameters

/-- What follows type and length of an Interest. -/
def interestValue (interest : Interest) : List UInt8 :=
  element (UInt8.ofNat NAME) (nameValue interest.name) ++ elements (interestFields interest)

/-- The bytes of an Interest. -/
def interestBytes (interest : Interest) : List UInt8 :=
  element (UInt8.ofNat INTEREST) (interestValue interest)

theorem nameValue_eq_elements (name : CString) : nameValue name = elements (nameFields name) := by
  rw [nameValue, nameFields, elements, List.flatMap_map]

theorem length_elements_field (c : Prop) [Decidable c] (type : ℕ) (value : List UInt8) :
    (elements (field c type value)).length = if c then value.length + 2 else 0 := by
  unfold field
  split <;> simp

/-- The computed size is the number of bytes. -/
theorem computeTlvPacketSize_interest (interest : Interest) :
    computeTlvPacketSize (.interest interest) = (interestBytes interest).length := by
  have hadd (c : Prop) [Decidable c] (pos n : ℕ) :
      (if c then pos + n else pos) = pos + if c then n else 0 := by split <;> rfl
  simp only [computeTlvPacketSize, computeTlvNameSize_eq, interestBytes, interestValue,
    interestFields, elements_append, List.length_append, length_element, length_elements_field,
    length_unsignedBytes, List.length_nil, hadd]
  omega

/-- An optional field of the encoder, as elements. -/
theorem Writer.Holds.put_field {w : Writer} {l : List (Option UInt8)}
    {fields : List (UInt8 × List UInt8)} (h : w.Holds (l ++ (elements fields).map some)) (c : Prop)
    [Decidable c] (type : ℕ) (value : List UInt8) :
    Holds (if c then w.put type value else w)
      (l ++ (elements (fields ++ field c type value)).map some) := by
  have hput := h.put_if c type value
  have hlist : (if c then written type value else []) =
      (elements (field c type value)).map some := by
    unfold field
    split <;> simp [written]
  rwa [hlist, List.append_assoc, ← List.map_append, ← elements_append] at hput

/-- **What is written for an Interest.** The encoder writes exactly `interestBytes` and says how
many they are. -/
theorem encodePacket_interest (interest : Interest) :
    (encodePacket (.interest interest) .empty).1 = (interestBytes interest).length ∧
      (encodePacket (.interest interest) .empty).2.Represents
        ((interestBytes interest).map some) := by
  have hstart := (WriteBuffer.represents_empty.write_end INTEREST).skip
  obtain ⟨hname, hnamePos⟩ := encodeName_spec interest.name hstart
  have hw : Writer.Holds
      ⟨(encodeName interest.name (WriteBuffer.empty.write 0 INTEREST) 2).2,
        (encodeName interest.name (WriteBuffer.empty.write 0 INTEREST) 2).1 + 2⟩
      ([some (UInt8.ofNat INTEREST), none] ++ written NAME (nameValue interest.name) ++
        (elements []).map some) := by
    refine ⟨by simpa using hname, ?_⟩
    simpa using hnamePos
  obtain ⟨hrep, hend⟩ := ((((((hw.put_field interest.canBePrefix CAN_BE_PREFIX []).put_field
    interest.mustBeFresh MUST_BE_FRESH []).put_field (interest.forwardingHint.length ≠ 0)
    FORWARDING_HINT interest.forwardingHint).put_field (interest.nonce.length ≠ 0) NONCE
    interest.nonce).put_field (interest.interestLifetimeMs ≠ 4000) INTEREST_LIFETIME
    (unsignedBytes interest.interestLifetimeMs)).put_field (interest.hopLimit ≠ 256) HOP_LIMIT
    (unsignedBytes interest.hopLimit)).put_field (interest.parameters.length ≠ 0) PARAMETERS
    interest.parameters
  rw [List.nil_append] at hrep hend
  have hlist : [some (UInt8.ofNat INTEREST), none] ++ written NAME (nameValue interest.name) ++
      (elements (interestFields interest)).map some =
      [some (UInt8.ofNat INTEREST)] ++ none :: (interestValue interest).map some := by
    simp [interestValue, written]
  have hrep' := hlist ▸ hrep
  have hend' := hlist ▸ hend
  have hpos : (encodePacket (.interest interest) .empty).1 = (interestBytes interest).length := by
    refine Eq.trans hend' ?_
    simp [interestBytes]
  have hlen : (interestBytes interest).length - 2 = (interestValue interest).length := by
    simp [interestBytes]
  refine ⟨hpos, ?_⟩
  -- the length byte of the whole packet is filled in last
  have hfill : (encodePacket (.interest interest) .empty).2.Represents
      ([some (UInt8.ofNat INTEREST)] ++
        some (UInt8.ofNat ((encodePacket (.interest interest) .empty).1 - 2)) ::
          (interestValue interest).map some) := hrep'.fill _
  rw [hpos, hlen] at hfill
  exact hfill

/-! ### Reading the bytes -/

/-- The bytes are a Name inside an Interest, followed by its fields, and the length of every element
is the number of bytes of its value. -/
def IsInterest (interest : Interest) (bytes : List UInt8) : Prop :=
  ∃ (name : List UInt8) (parts fields : List (List UInt8)),
    IsElement (UInt8.ofNat INTEREST) (name ++ fields.flatten) bytes ∧
      IsElement (UInt8.ofNat NAME) parts.flatten name ∧
      List.Forall₂ (fun f p ↦ IsElement f.1 f.2 p) (nameFields interest.name) parts ∧
      List.Forall₂ (fun f p ↦ IsElement f.1 f.2 p) (interestFields interest) fields

/-- The same name, but for empty components, and the same fields. -/
structure SameContents (interest interest' : Interest) : Prop where
  components : components interest.name = components interest'.name
  canBePrefix : interest.canBePrefix = interest'.canBePrefix
  mustBeFresh : interest.mustBeFresh = interest'.mustBeFresh
  forwardingHint : interest.forwardingHint = interest'.forwardingHint
  nonce : interest.nonce = interest'.nonce
  interestLifetimeMs : interest.interestLifetimeMs = interest'.interestLifetimeMs
  hopLimit : interest.hopLimit = interest'.hopLimit
  parameters : interest.parameters = interest'.parameters

theorem unsignedBytes_injective : Function.Injective unsignedBytes := by
  intro m n h
  simp only [unsignedBytes, List.cons.injEq, ← UInt8.toNat_inj] at h
  rw [← UInt32.toNat_inj]
  have hm := m.toNat_lt
  have hn := n.toNat_lt
  simp [Nat.shiftRight_eq_div_pow] at h
  omega

theorem lookup_field (c : Prop) [Decidable c] (type : ℕ) (value : List UInt8) (key : UInt8) :
    (field c type value).lookup key = if key = UInt8.ofNat type ∧ c then some value else none := by
  unfold field
  by_cases hkey : key = UInt8.ofNat type
  · split <;> simp [*]
  · have hne : (key == UInt8.ofNat type) = false := by simpa using hkey
    split <;> simp [List.lookup_cons, hne, hkey]

/-- A value that is left out when it is the default is known from what was written. -/
theorem eq_of_ite_default {α β : Type*} [DecidableEq α] {encode : α → β}
    (hinj : Function.Injective encode) {default a b : α}
    (h : (if a = default then none else some (encode a)) =
      if b = default then none else some (encode b)) : a = b := by
  split at h <;> split at h
  · rename_i ha hb
    exact ha.trans hb.symm
  · cases h
  · cases h
  · exact hinj (Option.some.inj h)

/-- An Interest of at most 257 bytes has only elements that are not too long. -/
theorem interest_lengths_lt {interest : Interest} (h : (interestBytes interest).length ≤ 257) :
    (interestValue interest).length < 256 ∧ (nameValue interest.name).length < 256 ∧
      (∀ f ∈ nameFields interest.name, f.2.length < 256) ∧
      ∀ f ∈ interestFields interest, f.2.length < 256 := by
  rw [interestBytes, length_element] at h
  have hvalue := h
  rw [interestValue, List.length_append, length_element] at hvalue
  refine ⟨by omega, by omega, fun f hf ↦ ?_, fun f hf ↦ ?_⟩
  · have hle := length_le_elements hf
    rw [← nameValue_eq_elements] at hle
    omega
  · have hle := length_le_elements hf
    omega

/-- The fields of an Interest can be found in the list of those that were written. -/
theorem contents_of_fields {interest interest' : Interest}
    (hname : nameFields interest.name = nameFields interest'.name)
    (hfields : interestFields interest = interestFields interest') :
    SameContents interest interest' := by
  have hcomponents : components interest.name = components interest'.name :=
    List.map_injective_iff.2 (fun _ _ h ↦ (Prod.mk.inj h).2) hname
  have hlookup (type : ℕ) := congrArg (List.lookup (UInt8.ofNat type)) hfields
  simp only [interestFields, List.lookup_append, lookup_field] at hlookup
  -- the types differ, so a look-up finds the one field of its type
  have hpfx := hlookup CAN_BE_PREFIX
  have hfresh := hlookup MUST_BE_FRESH
  have hhint := hlookup FORWARDING_HINT
  have hnonce := hlookup NONCE
  have hlifetime := hlookup INTEREST_LIFETIME
  have hlimit := hlookup HOP_LIMIT
  have hparameters := hlookup PARAMETERS
  simp [CAN_BE_PREFIX, MUST_BE_FRESH, FORWARDING_HINT, NONCE, INTEREST_LIFETIME, HOP_LIMIT,
    PARAMETERS] at hpfx hfresh hhint hnonce hlifetime hlimit hparameters
  exact {
    components := hcomponents
    canBePrefix := by
      cases h : interest.canBePrefix <;> cases h' : interest'.canBePrefix <;> simp_all
    mustBeFresh := by
      cases h : interest.mustBeFresh <;> cases h' : interest'.mustBeFresh <;> simp_all
    forwardingHint := eq_of_ite_default Function.injective_id hhint
    nonce := eq_of_ite_default Function.injective_id hnonce
    interestLifetimeMs := eq_of_ite_default unsignedBytes_injective hlifetime
    hopLimit := eq_of_ite_default unsignedBytes_injective hlimit
    parameters := eq_of_ite_default Function.injective_id hparameters }

/-- The bytes of an Interest are elements of the right length throughout. -/
theorem isInterest_interestBytes {interest : Interest}
    (h : (interestBytes interest).length ≤ 257) : IsInterest interest (interestBytes interest) := by
  obtain ⟨hvalue, hname, hparts, hfields⟩ := interest_lengths_lt h
  refine ⟨element (UInt8.ofNat NAME) (nameValue interest.name),
    (nameFields interest.name).map fun f ↦ element f.1 f.2,
    (interestFields interest).map fun f ↦ element f.1 f.2, ?_, ?_, forall₂_isElement hparts,
    forall₂_isElement hfields⟩
  · rw [← elements_eq_flatten]
    exact isElement_element hvalue
  · rw [← elements_eq_flatten, ← nameValue_eq_elements]
    exact isElement_element hname

/-- Equal bytes are those of the same Interest. -/
theorem contents_of_interestBytes {interest interest' : Interest}
    (h : (interestBytes interest).length ≤ 257) (h' : (interestBytes interest').length ≤ 257)
    (heq : interestBytes interest = interestBytes interest') :
    SameContents interest interest' := by
  obtain ⟨-, hname, hparts, hfields⟩ := interest_lengths_lt h
  obtain ⟨-, hname', hparts', hfields'⟩ := interest_lengths_lt h'
  have hvalue : interestValue interest = interestValue interest' :=
    (List.cons.inj (List.cons.inj heq).2).2
  obtain ⟨-, hnames, -, hrest⟩ :=
    (isElement_element hname).append_inj (isElement_element hname') hvalue
  rw [nameValue_eq_elements, nameValue_eq_elements] at hnames
  exact contents_of_fields (elements_inj hparts hparts' hnames) (elements_inj hfields hfields' hrest)

/-- The bytes written for an Interest, as many as the encoder says. -/
def writtenBytes (interest : Interest) : List (Option UInt8) :=
  (encodePacket (.interest interest) .empty).2.firstBytes
    (encodePacket (.interest interest) .empty).1

theorem writtenBytes_eq (interest : Interest) :
    writtenBytes interest = (interestBytes interest).map some := by
  obtain ⟨hlen, hrep⟩ := encodePacket_interest interest
  rw [writtenBytes, hlen]
  exact hrep.firstBytes_eq

/-- **The encoding of an Interest loses nothing.** An Interest of a computed size of at most 257
bytes is written as elements of the right length, and two of them that are written alike have the
same contents. -/
theorem interest_encoding_lossless :
    (∀ interest : Interest, computeTlvPacketSize (.interest interest) ≤ 257 →
      ∃ bytes, writtenBytes interest = bytes.map some ∧ IsInterest interest bytes) ∧
    ∀ interest interest' : Interest, computeTlvPacketSize (.interest interest) ≤ 257 →
      computeTlvPacketSize (.interest interest') ≤ 257 →
        writtenBytes interest = writtenBytes interest' → SameContents interest interest' := by
  simp only [computeTlvPacketSize_interest, writtenBytes_eq]
  refine ⟨fun interest h ↦ ⟨_, rfl, isInterest_interestBytes h⟩, ?_⟩
  intro interest interest' h h' heq
  exact contents_of_interestBytes h h' (List.map_injective_iff.2 (Option.some_injective _) heq)

/-- An Interest for `/a` that can be satisfied by any Data below it. -/
def belowA : Interest :=
  { name := ['/'.toUInt8, 'a'.toUInt8], canBePrefix := true, nonce := [1, 2, 3, 4] }

/-- The same Interest under a name with an empty component. -/
def belowSlashA : Interest :=
  { belowA with name := ['/'.toUInt8, '/'.toUInt8, 'a'.toUInt8] }

theorem interest_encoding_lossless_belowA :
    (∃ bytes, writtenBytes belowA = bytes.map some ∧ IsInterest belowA bytes) ∧
      SameContents belowA belowSlashA :=
  ⟨interest_encoding_lossless.1 belowA (by decide),
    interest_encoding_lossless.2 belowA belowSlashA (by decide) (by decide) (by decide)⟩

end Inet.Ndn.Tools
