import Mathlib.Data.List.Forall2

/-!
# Type-length-value elements

Byte strings made of a type byte, a length byte and as many value bytes as the length says. The two
uses of the format are separate: `element` writes an element, truncating the length to a byte as a
writer does, and `IsElement` says that the length is right.

The format is uniquely decodable: two elements in front of two equal strings are the same element
(`IsElement.append_inj`), and so the elements of a string can be told from the string
(`elements_inj`). A value may itself be made of elements (`IsElements`); such a value never has
exactly one byte.
-/

namespace TypeLengthValue

/-- The element as a writer writes it: the length is cut to one byte. -/
def element (type : UInt8) (value : List UInt8) : List UInt8 :=
  type :: UInt8.ofNat value.length :: value

/-- Elements written one after the other, given by their types and values. -/
def elements (fields : List (UInt8 × List UInt8)) : List UInt8 :=
  fields.flatMap fun f ↦ element f.1 f.2

/-- The bytes are an element whose length byte is the number of bytes of its value. -/
def IsElement (type : UInt8) (value bytes : List UInt8) : Prop :=
  ∃ len : UInt8, bytes = type :: len :: value ∧ len.toNat = value.length

/-- The bytes are elements, one after the other. -/
def IsElements (bytes : List UInt8) : Prop :=
  ∃ parts : List (List UInt8), (∀ p ∈ parts, ∃ type value, IsElement type value p) ∧
    bytes = parts.flatten

variable {type type' : UInt8} {value value' bytes bytes' rest rest' : List UInt8}

@[simp]
theorem length_element (type : UInt8) (value : List UInt8) :
    (element type value).length = value.length + 2 :=
  rfl

/-- Short values are written correctly. -/
theorem isElement_element (h : value.length < 256) : IsElement type value (element type value) :=
  ⟨UInt8.ofNat value.length, rfl, by simpa using Nat.mod_eq_of_lt h⟩

theorem IsElement.length_eq (h : IsElement type value bytes) :
    bytes.length = value.length + 2 := by
  obtain ⟨len, rfl, -⟩ := h
  rfl

/-- An element starts with its type. -/
theorem IsElement.head?_append (h : IsElement type value bytes) (rest : List UInt8) :
    (bytes ++ rest).head? = some type := by
  obtain ⟨len, rfl, -⟩ := h
  rfl

/-- **Unique decoding.** Equal strings that start with an element start with the same one. -/
theorem IsElement.append_inj (h : IsElement type value bytes) (h' : IsElement type' value' bytes')
    (heq : bytes ++ rest = bytes' ++ rest') :
    type = type' ∧ value = value' ∧ bytes = bytes' ∧ rest = rest' := by
  obtain ⟨len, rfl, hlen⟩ := h
  obtain ⟨len', rfl, hlen'⟩ := h'
  simp only [List.cons_append, List.cons.injEq] at heq
  obtain ⟨rfl, rfl, heq⟩ := heq
  obtain ⟨rfl, rfl⟩ := List.append_inj heq (hlen.symm.trans hlen')
  exact ⟨rfl, rfl, rfl, rfl⟩

@[simp]
theorem elements_nil : elements [] = [] :=
  rfl

@[simp]
theorem elements_cons (f : UInt8 × List UInt8) (fields : List (UInt8 × List UInt8)) :
    elements (f :: fields) = element f.1 f.2 ++ elements fields :=
  rfl

@[simp]
theorem elements_append (fields fields' : List (UInt8 × List UInt8)) :
    elements (fields ++ fields') = elements fields ++ elements fields' := by
  simp [elements]

/-- A value is shorter than the elements it is one of. -/
theorem length_le_elements {fields : List (UInt8 × List UInt8)} {f : UInt8 × List UInt8}
    (h : f ∈ fields) : f.2.length + 2 ≤ (elements fields).length := by
  induction fields with
  | nil => cases h
  | cons g fields ih =>
    rw [elements_cons, List.length_append, length_element]
    rcases List.mem_cons.1 h with rfl | h
    · omega
    · have := ih h
      omega

/-- Elements that are not too long have the length of their value, each of them. -/
theorem forall₂_isElement {fields : List (UInt8 × List UInt8)}
    (h : ∀ f ∈ fields, f.2.length < 256) :
    List.Forall₂ (fun f p ↦ IsElement f.1 f.2 p) fields
      (fields.map fun f ↦ element f.1 f.2) := by
  rw [List.forall₂_map_right_iff, List.forall₂_same]
  exact fun f hf ↦ isElement_element (h f hf)

theorem elements_eq_flatten (fields : List (UInt8 × List UInt8)) :
    elements fields = (fields.map fun f ↦ element f.1 f.2).flatten :=
  List.flatMap_def ..

/-- **Elements can be told from the string they form.** -/
theorem elements_inj {fields fields' : List (UInt8 × List UInt8)}
    (h : ∀ f ∈ fields, f.2.length < 256) (h' : ∀ f ∈ fields', f.2.length < 256)
    (heq : elements fields = elements fields') : fields = fields' := by
  induction fields generalizing fields' with
  | nil =>
    cases fields' with
    | nil => rfl
    | cons f' fields' => cases heq
  | cons f fields ih =>
    cases fields' with
    | nil => cases heq
    | cons f' fields' =>
      rw [List.forall_mem_cons] at h h'
      obtain ⟨htype, hvalue, -, hrest⟩ :=
        (isElement_element h.1).append_inj (isElement_element h'.1) heq
      rw [Prod.ext htype hvalue, ih h.2 h'.2 hrest]

/-- One byte is not a sequence of elements. -/
theorem IsElements.length_ne_one (h : IsElements bytes) : bytes.length ≠ 1 := by
  obtain ⟨parts, hparts, rfl⟩ := h
  cases parts with
  | nil => simp
  | cons p parts =>
    obtain ⟨type, value, hp⟩ := hparts p (by simp)
    rw [List.flatten_cons, List.length_append, hp.length_eq]
    omega

end TypeLengthValue
