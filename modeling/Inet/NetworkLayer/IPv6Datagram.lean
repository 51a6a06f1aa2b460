import Mathlib.Algebra.BigOperators.Group.List.Basic
import Mathlib.Data.List.DropRight
import Mathlib.Algebra.Order.Group.Nat
import Mathlib.Algebra.Order.Ring.Nat
import Mathlib.Algebra.Order.BigOperators.Group.List
import Inet.Foundations.Fallible

/-!
# IPv6 datagrams

`IPv6Datagram` and its list of extension headers. `addExtensionHeader` keeps the list in the order
that the types of the headers prescribe, as far as it can: a header stands behind those with a lower
order (`InPlace`), a second destination options header counts as one of order 6, and a header of an
unknown type goes to the end. A list that has been made so is copied header by header without a
change (`Accepted.dup`).
-/

namespace Inet.IPv6

/-- `IPv6Address`, with the words of `d`. -/
structure IPv6Address where
  d0 : UInt32
  d1 : UInt32
  d2 : UInt32
  d3 : UInt32
  deriving DecidableEq, Repr

/-- `IPv6Address::isUnspecified`. -/
def IPv6Address.isUnspecified (addr : IPv6Address) : Bool :=
  (addr.d0 ||| addr.d1 ||| addr.d2 ||| addr.d3) == 0

/-- `IPv6Address::isSolicitedNodeMulticastAddress`: the prefix is FF02::1:FF00:0/104. -/
def IPv6Address.isSolicitedNodeMulticastAddress (addr : IPv6Address) : Bool :=
  ((addr.d0 ^^^ 0xff020000) ||| addr.d1 ||| (addr.d2 ^^^ 1) |||
    ((addr.d3 ^^^ 0xff000000) &&& 0xff000000)) == 0

/-- `IP_PROT_IPv6EXT_HOP`. -/
abbrev IP_PROT_IPv6EXT_HOP : ℤ := 0

/-- `IP_PROT_IPv6EXT_ROUTING`. -/
abbrev IP_PROT_IPv6EXT_ROUTING : ℤ := 43

/-- `IP_PROT_IPv6EXT_FRAGMENT`. -/
abbrev IP_PROT_IPv6EXT_FRAGMENT : ℤ := 44

/-- `IP_PROT_IPv6EXT_ESP`. -/
abbrev IP_PROT_IPv6EXT_ESP : ℤ := 50

/-- `IP_PROT_IPv6EXT_AUTH`. -/
abbrev IP_PROT_IPv6EXT_AUTH : ℤ := 51

/-- `IP_PROT_IPv6EXT_DEST`. -/
abbrev IP_PROT_IPv6EXT_DEST : ℤ := 60

/-- `IP_PROT_IPv6EXT_MOB`. -/
abbrev IP_PROT_IPv6EXT_MOB : ℤ := 135

/-- `IPv6_HEADER_BYTES`. -/
abbrev IPv6_HEADER_BYTES : ℕ := 40

/-- `IPv6_FRAGMENT_HEADER_LENGTH`. -/
abbrev IPv6_FRAGMENT_HEADER_LENGTH : ℕ := 8

/-- The fields of `IPv6FragmentHeader`. -/
structure IPv6FragmentHeader where
  fragmentOffset : UInt16
  identification : UInt32
  moreFragments : Bool
  deriving DecidableEq, Repr

/-- The subclasses of `IPv6ExtensionHeader`, with the fields that are used of them. -/
inductive ExtensionContents
  | hopByHopOptions
  | routing (routingType segmentsLeft : UInt8) (address : List IPv6Address)
  | fragment (header : IPv6FragmentHeader)
  | destinationOptions
  | authentication
  | encapsulatingSecurityPayload
  | other
  deriving DecidableEq, Repr

/-- `class IPv6ExtensionHeader`. -/
structure IPv6ExtensionHeader where
  extensionType : ℤ
  byteLength : ℕ
  contents : ExtensionContents
  deriving DecidableEq, Repr

/-- `packet IPv6Datagram`; `α` stands for the packets that it may carry. -/
structure IPv6Datagram (α : Type) where
  srcAddress : IPv6Address
  destAddress : IPv6Address
  trafficClass : UInt8
  flowLabel : UInt32
  hopLimit : ℤ
  transportProtocol : ℤ
  extensionHeaders : List IPv6ExtensionHeader := []
  byteLength : ℕ
  encapsulatedPacket : Option α
  deriving DecidableEq

/-- What is thrown when a header is added. -/
inductive ExtensionHeaderError
  | assertionFailed
  | duplicateExtensionHeader (extensionType : ℤ)
  deriving DecidableEq, Repr

/-- `getExtensionHeaderOrder`. -/
def getExtensionHeaderOrder (eh : IPv6ExtensionHeader) : ℤ :=
  if eh.extensionType = IP_PROT_IPv6EXT_HOP then 0
  else if eh.extensionType = IP_PROT_IPv6EXT_DEST then 1
  else if eh.extensionType = IP_PROT_IPv6EXT_ROUTING then 2
  else if eh.extensionType = IP_PROT_IPv6EXT_FRAGMENT then 3
  else if eh.extensionType = IP_PROT_IPv6EXT_AUTH then 4
  else if eh.extensionType = IP_PROT_IPv6EXT_ESP then 5
  else if eh.extensionType = IP_PROT_IPv6EXT_MOB then 7
  else -1

/-- The loop of `addExtensionHeader`, with the variable `thisOrder`, and the insertion. -/
def insertExtensionHeader (eh : IPv6ExtensionHeader) :
    ℤ → List IPv6ExtensionHeader → Except ExtensionHeaderError (List IPv6ExtensionHeader)
  | _, [] => .ok [eh]
  | thisOrder, that :: rest =>
    if thisOrder ≠ -1 ∧ thisOrder < getExtensionHeaderOrder that then .ok (eh :: that :: rest)
    else if thisOrder = getExtensionHeaderOrder that ∧ thisOrder = 1 then
      (insertExtensionHeader eh 6 rest).map (that :: ·)
    else if thisOrder = getExtensionHeaderOrder that ∧ thisOrder ≠ -1 then
      .error (.duplicateExtensionHeader eh.extensionType)
    else (insertExtensionHeader eh thisOrder rest).map (that :: ·)

/-- `addExtensionHeader`, on the list of extension headers. -/
def addExtensionHeader (l : List IPv6ExtensionHeader) (eh : IPv6ExtensionHeader) :
    Except ExtensionHeaderError (List IPv6ExtensionHeader) :=
  if 1 ≤ eh.byteLength ∧ eh.byteLength % 8 = 0 then
    insertExtensionHeader eh (getExtensionHeaderOrder eh) l
  else .error .assertionFailed

/-- The total length of some headers. -/
def lengthOf (l : List IPv6ExtensionHeader) : ℕ :=
  (l.map IPv6ExtensionHeader.byteLength).sum

/-- A routing or hop-by-hop header. -/
def IPv6ExtensionHeader.IsUnfragmentable (eh : IPv6ExtensionHeader) : Prop :=
  eh.extensionType = IP_PROT_IPv6EXT_ROUTING ∨ eh.extensionType = IP_PROT_IPv6EXT_HOP

instance (eh : IPv6ExtensionHeader) : Decidable eh.IsUnfragmentable :=
  inferInstanceAs (Decidable (_ ∨ _))

/-- The headers up to the last routing or hop-by-hop header. -/
def unfragmentable (l : List IPv6ExtensionHeader) : List IPv6ExtensionHeader :=
  l.rdropWhile fun eh ↦ !decide eh.IsUnfragmentable

/-- `removeExtensionHeader`: the list without the first header of a type. -/
def removeExtensionHeader (extensionType : ℤ) (l : List IPv6ExtensionHeader) :
    List IPv6ExtensionHeader :=
  l.eraseP (·.extensionType = extensionType)

namespace IPv6Datagram

variable {α : Type}

/-- The headers up to a fragment header, and this. -/
def upToFragmentHeader : List IPv6ExtensionHeader → List IPv6ExtensionHeader
  | [] => []
  | eh :: l =>
    if eh.extensionType = IP_PROT_IPv6EXT_FRAGMENT then [eh] else eh :: upToFragmentHeader l

/-- `calculateHeaderByteLength`. -/
def calculateHeaderByteLength (d : IPv6Datagram α) : ℕ :=
  IPv6_HEADER_BYTES + lengthOf d.extensionHeaders

/-- `calculateUnfragmentableHeaderByteLength`. -/
def calculateUnfragmentableHeaderByteLength (d : IPv6Datagram α) : ℕ :=
  IPv6_HEADER_BYTES + lengthOf (unfragmentable d.extensionHeaders)

/-- `calculateFragmentLength`, of a datagram with a fragment header. -/
def calculateFragmentLength (d : IPv6Datagram α) : ℤ :=
  d.byteLength - IPv6_HEADER_BYTES - lengthOf (upToFragmentHeader d.extensionHeaders)

/-- `findExtensionHeaderByType`, of a fragment header. -/
def findFragmentHeader (d : IPv6Datagram α) : Option IPv6FragmentHeader :=
  match d.extensionHeaders.find? (·.extensionType = IP_PROT_IPv6EXT_FRAGMENT) with
  | some ⟨_, _, .fragment header⟩ => some header
  | _ => none

/-- `dup`, which adds the headers of the original one by one. -/
def dup (d : IPv6Datagram α) : Except ExtensionHeaderError (IPv6Datagram α) :=
  (d.extensionHeaders.foldlM addExtensionHeader []).map fun l ↦ { d with extensionHeaders := l }

end IPv6Datagram

/-! ### The order of the headers -/

variable {eh eh' : IPv6ExtensionHeader} {l l' l₁ l₂ hs : List IPv6ExtensionHeader} {t : ℤ}

/-- There is an order 6 in the loop only. -/
theorem getExtensionHeaderOrder_range (eh : IPv6ExtensionHeader) :
    -1 ≤ getExtensionHeaderOrder eh ∧ getExtensionHeaderOrder eh ≤ 7 ∧
      getExtensionHeaderOrder eh ≠ 6 := by
  rw [getExtensionHeaderOrder]
  split_ifs <;> decide

theorem getExtensionHeaderOrder_eq_three_iff :
    getExtensionHeaderOrder eh = 3 ↔ eh.extensionType = IP_PROT_IPv6EXT_FRAGMENT := by
  rw [getExtensionHeaderOrder]
  unfold IP_PROT_IPv6EXT_HOP IP_PROT_IPv6EXT_DEST IP_PROT_IPv6EXT_ROUTING IP_PROT_IPv6EXT_FRAGMENT
    IP_PROT_IPv6EXT_AUTH IP_PROT_IPv6EXT_ESP IP_PROT_IPv6EXT_MOB
  split_ifs <;> simp_all

/-- The orders that may stand in front of a header lie below this. -/
def orderBound (before : List IPv6ExtensionHeader) (eh : IPv6ExtensionHeader) : ℤ :=
  if getExtensionHeaderOrder eh = -1 then 8
  else if getExtensionHeaderOrder eh = 1 ∧ ∃ x ∈ before, getExtensionHeaderOrder x = 1 then 7
  else getExtensionHeaderOrder eh

/-- A header may stand behind others. -/
def InPlace (before : List IPv6ExtensionHeader) (eh : IPv6ExtensionHeader) : Prop :=
  ∀ x ∈ before, getExtensionHeaderOrder x < orderBound before eh

/-- Every header stands where it may. -/
def IsOrdered (l : List IPv6ExtensionHeader) : Prop :=
  ∀ before eh after, l = before ++ eh :: after → InPlace before eh

theorem le_orderBound (before : List IPv6ExtensionHeader) (eh : IPv6ExtensionHeader) :
    getExtensionHeaderOrder eh ≤ orderBound before eh := by
  rw [orderBound]
  split_ifs <;> omega

theorem orderBound_mono (h : l ⊆ l') (eh : IPv6ExtensionHeader) :
    orderBound l eh ≤ orderBound l' eh := by
  rw [orderBound, orderBound]
  split_ifs with hnone hdest hdest'
  · exact le_rfl
  · exact le_rfl
  · obtain ⟨hone, x, hx, hx'⟩ := hdest
    exact absurd ⟨hone, x, h hx, hx'⟩ hdest'
  · rename_i hdest''
    rw [hdest''.1]
    decide
  · exact le_rfl

theorem IsOrdered.left (h : IsOrdered (l₁ ++ l₂)) : IsOrdered l₁ := by
  rintro before eh after rfl
  exact h before eh (after ++ l₂) (by rw [List.append_assoc, List.cons_append])

/-- The loop goes past what is in order, and stops in front of a higher order. -/
theorem insertExtensionHeader_append (h₁ : ∀ x ∈ l₁, t = -1 ∨ getExtensionHeaderOrder x < t)
    (h₂ : ∀ x ∈ l₂.head?, t ≠ -1 ∧ t < getExtensionHeaderOrder x) :
    insertExtensionHeader eh t (l₁ ++ l₂) = .ok (l₁ ++ eh :: l₂) := by
  induction l₁ with
  | nil =>
    cases l₂ with
    | nil => rfl
    | cons x l₂ =>
      rw [List.nil_append, insertExtensionHeader, if_pos (h₂ x rfl)]
      rfl
  | cons x l₁ ih =>
    rw [List.forall_mem_cons] at h₁
    have hrange := getExtensionHeaderOrder_range x
    rw [List.cons_append, insertExtensionHeader, if_neg (by omega), if_neg (by omega),
      if_neg (by omega), ih h₁.2]
    rfl

/-- Behind a destination options header another one is treated as if its order were 6. -/
theorem insertExtensionHeader_dest (h₁ : ∀ x ∈ l₁, getExtensionHeaderOrder x < 1)
    (hdest : getExtensionHeaderOrder eh' = 1) :
    insertExtensionHeader eh 1 (l₁ ++ eh' :: l₂) =
      (insertExtensionHeader eh 6 l₂).map (l₁ ++ eh' :: ·) := by
  induction l₁ with
  | nil =>
    rw [List.nil_append, insertExtensionHeader, hdest, if_neg (by omega), if_pos ⟨rfl, rfl⟩]
    rfl
  | cons x l₁ ih =>
    rw [List.forall_mem_cons] at h₁
    rw [List.cons_append, insertExtensionHeader, if_neg (by omega), if_neg (by omega),
      if_neg (by omega), ih h₁.2]
    cases insertExtensionHeader eh 6 l₂ <;> rfl

/-- **Where a header is inserted**: behind headers that may stand in front of it, and in front of
one with a higher order. -/
theorem exists_of_insertExtensionHeader (h : insertExtensionHeader eh t l = .ok l') :
    ∃ l₁ l₂, l = l₁ ++ l₂ ∧ l' = l₁ ++ eh :: l₂ ∧
      (∀ x ∈ l₂.head?, t ≠ -1 ∧ t < getExtensionHeaderOrder x) ∧
      ((∀ x ∈ l₁, t = -1 ∨ getExtensionHeaderOrder x < t) ∨
        t = 1 ∧ (∃ x ∈ l₁, getExtensionHeaderOrder x = 1) ∧
          ∀ x ∈ l₁, getExtensionHeaderOrder x < 7) := by
  induction l generalizing t l' with
  | nil =>
    obtain rfl := Except.ok.inj h
    exact ⟨[], [], rfl, rfl, by simp, .inl (by simp)⟩
  | cons that rest ih =>
    have hrange := getExtensionHeaderOrder_range that
    rw [insertExtensionHeader] at h
    split_ifs at h with hbreak hdest hduplicate
    · obtain rfl := Except.ok.inj h
      refine ⟨[], that :: rest, rfl, rfl, ?_, .inl (by simp)⟩
      rintro x ⟨⟩
      exact hbreak
    · obtain ⟨l'', hrest, rfl⟩ := exists_of_map_eq_ok h
      obtain ⟨l₁, l₂, rfl, rfl, hhead, hbefore⟩ := ih hrest
      refine ⟨that :: l₁, l₂, rfl, rfl, fun x hx ↦ ?_, .inr ⟨hdest.2, ⟨that, List.mem_cons_self,
        by omega⟩, List.forall_mem_cons.2 ⟨by omega, fun x hx ↦ ?_⟩⟩⟩
      · have hsix := hhead x hx
        omega
      · obtain hsix | ⟨hone, -, -⟩ := hbefore
        · have hlt := hsix x hx
          omega
        · omega
    · obtain ⟨l'', hrest, rfl⟩ := exists_of_map_eq_ok h
      obtain ⟨l₁, l₂, rfl, rfl, hhead, hbefore⟩ := ih hrest
      refine ⟨that :: l₁, l₂, rfl, rfl, hhead, ?_⟩
      obtain hbefore | ⟨hone, ⟨x, hx, hdest'⟩, hseven⟩ := hbefore
      · exact .inl (List.forall_mem_cons.2 ⟨by omega, hbefore⟩)
      · exact .inr ⟨hone, ⟨x, List.mem_cons_of_mem _ hx, hdest'⟩,
          List.forall_mem_cons.2 ⟨by omega, hseven⟩⟩

/-- **An insertion keeps the order.** -/
theorem IsOrdered.insert (h : IsOrdered l)
    (hinsert : insertExtensionHeader eh (getExtensionHeaderOrder eh) l = .ok l') :
    IsOrdered l' := by
  obtain ⟨l₁, l₂, rfl, rfl, hhead, hbefore⟩ := exists_of_insertExtensionHeader hinsert
  have hplace : InPlace l₁ eh := by
    intro x hx
    have hrange := getExtensionHeaderOrder_range x
    rw [orderBound]
    obtain hbefore | ⟨hone, hdest, hseven⟩ := hbefore
    · have hlt := hbefore x hx
      split_ifs <;> omega
    · rw [if_neg (by omega), if_pos ⟨hone, hdest⟩]
      exact hseven x hx
  intro before y after heq
  obtain ⟨m, hl₁, hrest⟩ | ⟨m, hl₁, hrest⟩ := List.append_eq_append_iff.1 heq
  · cases m with
    | nil =>
      obtain ⟨rfl, rfl⟩ := List.cons.inj hrest
      rwa [hl₁, List.append_nil]
    | cons eh' m =>
      -- behind the new header: its order is lower than that of the header it was put in front of
      obtain ⟨rfl, rfl⟩ := List.cons.inj hrest
      have hy := h (l₁ ++ m) y after (List.append_assoc _ _ _).symm
      have hbound : orderBound (l₁ ++ m) y ≤ orderBound before y :=
        orderBound_mono (by rw [hl₁]; grind) y
      have hnew : getExtensionHeaderOrder eh < orderBound before y := by
        cases m with
        | nil =>
          have hlt := hhead y rfl
          have hle := le_orderBound before y
          omega
        | cons z m =>
          have hlt := hhead z rfl
          have hz := hy z (by simp)
          omega
      intro x hx
      rw [hl₁, List.mem_append, List.mem_cons] at hx
      obtain hx | rfl | hx := hx
      · exact (hy x (List.mem_append_left _ hx)).trans_le hbound
      · exact hnew
      · exact (hy x (List.mem_append_right _ hx)).trans_le hbound
  · cases m with
    | nil =>
      obtain ⟨rfl, rfl⟩ := List.cons.inj hrest
      rw [List.append_nil] at hl₁
      exact hl₁ ▸ hplace
    | cons eh' m =>
      obtain ⟨rfl, rfl⟩ := List.cons.inj hrest
      exact h before y (m ++ l₂) (by rw [hl₁, List.append_assoc, List.cons_append])

/-- A header that may stand behind all others is added at the end. -/
theorem IsOrdered.insert_end (h : IsOrdered l) (hplace : InPlace l eh) :
    insertExtensionHeader eh (getExtensionHeaderOrder eh) l = .ok (l ++ [eh]) := by
  have hhead (t : ℤ) : ∀ x ∈ ([] : List IPv6ExtensionHeader).head?,
      t ≠ -1 ∧ t < getExtensionHeaderOrder x := by simp
  obtain hdest | hdest := Classical.em
    (getExtensionHeaderOrder eh = 1 ∧ ∃ x ∈ l, getExtensionHeaderOrder x = 1)
  · -- what stands in front of the first destination options header has a lower order than it
    obtain ⟨hone, x, hx, hx'⟩ := hdest
    obtain ⟨eh', before, after, hnone, heh', rfl, -⟩ :=
      List.exists_of_eraseP (p := fun x ↦ getExtensionHeaderOrder x = 1) hx (decide_eq_true hx')
    have hdest : getExtensionHeaderOrder eh' = 1 := of_decide_eq_true heh'
    have hnone' : ¬∃ x ∈ before, getExtensionHeaderOrder x = 1 :=
      fun ⟨x, hx, hx'⟩ ↦ hnone x hx (decide_eq_true hx')
    have hbefore : ∀ x ∈ before, getExtensionHeaderOrder x < 1 := by
      intro x hx
      have hlt := h before eh' after rfl x hx
      rwa [orderBound, if_neg (by omega), if_neg fun hdest' ↦ hnone' hdest'.2, hdest] at hlt
    have hafter : ∀ x ∈ after, (6 : ℤ) = -1 ∨ getExtensionHeaderOrder x < 6 := by
      intro x hx
      have hlt := hplace x (List.mem_append_right _ (List.mem_cons_of_mem _ hx))
      have hrange := getExtensionHeaderOrder_range x
      rw [orderBound, if_neg (by omega), if_pos ⟨hone, eh', by simp, hdest⟩] at hlt
      omega
    have hinsert : insertExtensionHeader eh 6 (after ++ []) = _ :=
      insertExtensionHeader_append hafter (hhead 6)
    rw [List.append_nil] at hinsert
    rw [hone, insertExtensionHeader_dest hbefore hdest, hinsert]
    show Except.ok _ = _
    rw [List.append_assoc, List.cons_append]
  · have hbefore : ∀ x ∈ l, getExtensionHeaderOrder eh = -1 ∨
        getExtensionHeaderOrder x < getExtensionHeaderOrder eh := by
      intro x hx
      have hlt := hplace x hx
      rw [orderBound] at hlt
      split_ifs at hlt with hnone
      exacts [.inl hnone, .inr hlt]
    have hinsert : insertExtensionHeader eh _ (l ++ []) = _ :=
      insertExtensionHeader_append hbefore (hhead _)
    rwa [List.append_nil] at hinsert

/-- What can be made of no headers with `addExtensionHeader`. -/
def Accepted (l : List IPv6ExtensionHeader) : Prop :=
  ∃ hs : List IPv6ExtensionHeader, hs.foldlM addExtensionHeader [] = .ok l

theorem IsOrdered.nil : IsOrdered [] := by
  intro before eh after h
  simp at h

/-- **Accepted headers** are in order, and their lengths are multiples of 8 bytes. -/
theorem Accepted.spec (h : Accepted l) :
    IsOrdered l ∧ ∀ eh ∈ l, 1 ≤ eh.byteLength ∧ eh.byteLength % 8 = 0 := by
  obtain ⟨hs, hadded⟩ := h
  refine Results.of_eq_ok (R := fun _ ↦ True)
    (Q := fun l ↦ IsOrdered l ∧ ∀ eh ∈ l, 1 ≤ eh.byteLength ∧ eh.byteLength % 8 = 0)
    (Results.foldlM ⟨.nil, List.forall_mem_nil _⟩ fun l eh _ hl ↦ ?_) hadded
  rw [addExtensionHeader]
  split_ifs with hlength
  · cases hinsert : insertExtensionHeader eh (getExtensionHeaderOrder eh) l with
    | error e => exact trivial
    | ok l' =>
      refine ⟨hl.1.insert hinsert, ?_⟩
      obtain ⟨l₁, l₂, rfl, rfl, -⟩ := exists_of_insertExtensionHeader hinsert
      rw [List.forall_mem_append] at hl
      exact List.forall_mem_append.2 ⟨hl.2.1, List.forall_mem_cons.2 ⟨hlength, hl.2.2⟩⟩
  · exact trivial

/-- Adding one header after the other to headers that are in order all together. -/
theorem foldlM_addExtensionHeader (hord : IsOrdered (l₁ ++ l₂))
    (hlength : ∀ eh ∈ l₂, 1 ≤ eh.byteLength ∧ eh.byteLength % 8 = 0) :
    l₂.foldlM addExtensionHeader l₁ = .ok (l₁ ++ l₂) := by
  induction l₂ generalizing l₁ with
  | nil => rw [List.append_nil]; rfl
  | cons eh l₂ ih =>
    rw [List.forall_mem_cons] at hlength
    rw [List.append_cons] at hord
    have hadd : addExtensionHeader l₁ eh = .ok (l₁ ++ [eh]) := by
      rw [addExtensionHeader, if_pos hlength.1]
      refine hord.left.left.insert_end (hord l₁ eh l₂ ?_)
      rw [List.append_assoc, List.singleton_append]
    rw [List.foldlM_cons, hadd, List.append_cons l₁ eh l₂]
    exact ih hord hlength.2

/-- **Accepted headers are copied** as they are. -/
theorem Accepted.dup {α : Type} {d : IPv6Datagram α} (h : Accepted d.extensionHeaders) :
    d.dup = .ok d := by
  obtain ⟨hord, hlength⟩ := h.spec
  have hord' : IsOrdered ([] ++ d.extensionHeaders) := hord
  have hcopy := foldlM_addExtensionHeader hord' hlength
  rw [IPv6Datagram.dup, hcopy]
  rfl

/-! ### The place of a fragment header -/

/-- The headers behind which a fragment header is inserted. -/
def beforeFragmentHeader (l : List IPv6ExtensionHeader) : List IPv6ExtensionHeader :=
  l.takeWhile fun eh ↦ getExtensionHeaderOrder eh ≤ 3

/-- The headers in front of which a fragment header is inserted. -/
def afterFragmentHeader (l : List IPv6ExtensionHeader) : List IPv6ExtensionHeader :=
  l.dropWhile fun eh ↦ getExtensionHeaderOrder eh ≤ 3

/-- A fragment header would follow a routing or hop-by-hop header, or be the first header. -/
def FragmentHeaderFollows (l : List IPv6ExtensionHeader) : Prop :=
  ∀ eh ∈ (beforeFragmentHeader l).getLast?, eh.IsUnfragmentable

instance (l : List IPv6ExtensionHeader) : Decidable (FragmentHeaderFollows l) :=
  inferInstanceAs (Decidable (∀ eh ∈ (beforeFragmentHeader l).getLast?, eh.IsUnfragmentable))

theorem before_append_after (l : List IPv6ExtensionHeader) :
    beforeFragmentHeader l ++ afterFragmentHeader l = l :=
  List.takeWhile_append_dropWhile

theorem lengthOf_append (l₁ l₂ : List IPv6ExtensionHeader) :
    lengthOf (l₁ ++ l₂) = lengthOf l₁ + lengthOf l₂ := by
  rw [lengthOf, List.map_append, List.sum_append, lengthOf, lengthOf]

/-- A fragment header is added between these headers. -/
theorem addExtensionHeader_fragment (hnone : ∀ x ∈ l, x.extensionType ≠ IP_PROT_IPv6EXT_FRAGMENT)
    (htype : eh.extensionType = IP_PROT_IPv6EXT_FRAGMENT) (hlength : eh.byteLength = 8) :
    addExtensionHeader l eh = .ok (beforeFragmentHeader l ++ eh :: afterFragmentHeader l) := by
  have horder : getExtensionHeaderOrder eh = 3 := getExtensionHeaderOrder_eq_three_iff.2 htype
  rw [addExtensionHeader, if_pos (by rw [hlength]; decide), horder]
  conv_lhs => rw [← before_append_after l]
  refine insertExtensionHeader_append (fun x hx ↦ .inr ?_) fun x hx ↦ ⟨by decide, ?_⟩
  · have hle : decide (getExtensionHeaderOrder x ≤ 3) = true :=
      List.mem_takeWhile_imp (p := fun eh ↦ decide (getExtensionHeaderOrder eh ≤ 3)) hx
    rw [decide_eq_true_eq] at hle
    have hne : getExtensionHeaderOrder x ≠ 3 := fun h ↦
      hnone x ((List.takeWhile_prefix _).subset hx) (getExtensionHeaderOrder_eq_three_iff.1 h)
    omega
  · have hhead := List.head?_dropWhile_not (fun eh ↦ decide (getExtensionHeaderOrder eh ≤ 3)) l
    rw [afterFragmentHeader] at hx
    rw [Option.mem_def.1 hx] at hhead
    exact not_le.1 (of_decide_eq_false hhead)

theorem upToFragmentHeader_append (hnone : ∀ x ∈ l₁, x.extensionType ≠ IP_PROT_IPv6EXT_FRAGMENT)
    (htype : eh.extensionType = IP_PROT_IPv6EXT_FRAGMENT) :
    IPv6Datagram.upToFragmentHeader (l₁ ++ eh :: l₂) = l₁ ++ [eh] := by
  induction l₁ with
  | nil => rw [List.nil_append, IPv6Datagram.upToFragmentHeader, if_pos htype, List.nil_append]
  | cons x l₁ ih =>
    rw [List.forall_mem_cons] at hnone
    rw [List.cons_append, IPv6Datagram.upToFragmentHeader, if_neg hnone.1, ih hnone.2,
      List.cons_append]

theorem removeExtensionHeader_append
    (hnone : ∀ x ∈ l₁, x.extensionType ≠ IP_PROT_IPv6EXT_FRAGMENT)
    (htype : eh.extensionType = IP_PROT_IPv6EXT_FRAGMENT) :
    removeExtensionHeader IP_PROT_IPv6EXT_FRAGMENT (l₁ ++ eh :: l₂) = l₁ ++ l₂ := by
  rw [removeExtensionHeader, List.eraseP_append_right _ fun x hx ↦ by simpa using hnone x hx,
    List.eraseP_cons_of_pos (by simpa using htype)]

/-- Routing and hop-by-hop headers stand in front of the place of a fragment header. -/
theorem IsOrdered.unfragmentable_eq (h : IsOrdered l) :
    unfragmentable l = unfragmentable (beforeFragmentHeader l) := by
  have hafter : ∀ x ∈ afterFragmentHeader l, ¬x.IsUnfragmentable := by
    intro x hx hunfragmentable
    have hlow : getExtensionHeaderOrder x = 0 ∨ getExtensionHeaderOrder x = 2 := by
      obtain htype | htype := hunfragmentable
      · exact .inr (by rw [getExtensionHeaderOrder, htype]; rfl)
      · exact .inl (by rw [getExtensionHeaderOrder, htype]; rfl)
    obtain ⟨z, rest, hcons⟩ := List.exists_cons_of_ne_nil (List.ne_nil_of_mem hx)
    have hz : 3 < getExtensionHeaderOrder z := by
      have hhead := List.head?_dropWhile_not (fun eh ↦ decide (getExtensionHeaderOrder eh ≤ 3)) l
      rw [afterFragmentHeader] at hcons
      rw [hcons, List.head?_cons] at hhead
      exact not_le.1 (of_decide_eq_false hhead)
    rw [hcons, List.mem_cons] at hx
    obtain rfl | hx := hx
    · omega
    · obtain ⟨m, m', rfl⟩ := List.append_of_mem hx
      have hplace := h (beforeFragmentHeader l ++ z :: m) x m'
        (by rw [List.append_assoc, List.cons_append, ← hcons, before_append_after])
      have hlt := hplace z (by simp)
      rw [orderBound, if_neg (by omega), if_neg (by omega)] at hlt
      omega
  conv_lhs => rw [← before_append_after l]
  rw [unfragmentable, List.rdropWhile, List.reverse_append, List.dropWhile_append_of_pos,
    ← List.rdropWhile, unfragmentable]
  intro x hx
  simpa using hafter x (List.mem_reverse.1 hx)

/-- **The unfragmentable headers** are those in front of the place of a fragment header exactly when
it follows a routing or hop-by-hop header, if any. -/
theorem lengthOf_unfragmentable_eq_iff (h : IsOrdered l) (hpos : ∀ eh ∈ l, 1 ≤ eh.byteLength) :
    lengthOf (unfragmentable l) = lengthOf (beforeFragmentHeader l) ↔ FragmentHeaderFollows l := by
  have hself : FragmentHeaderFollows l ↔
      unfragmentable (beforeFragmentHeader l) = beforeFragmentHeader l := by
    rw [unfragmentable, List.rdropWhile_eq_self_iff, FragmentHeaderFollows]
    refine ⟨fun hall hne ↦ ?_, fun hall eh heh ↦ ?_⟩
    · simpa using hall _ (List.getLast?_eq_some_getLast hne)
    · have hne : beforeFragmentHeader l ≠ [] := by
        rintro hnil
        rw [hnil] at heh
        cases heh
      have hlast := List.getLast?_eq_some_getLast hne
      rw [Option.mem_def, hlast, Option.some.injEq] at heh
      simpa [heh] using hall hne
  rw [h.unfragmentable_eq, hself]
  refine ⟨fun hlength ↦ ?_, fun heq ↦ by rw [heq]⟩
  obtain ⟨m, hm⟩ : unfragmentable (beforeFragmentHeader l) <+: beforeFragmentHeader l :=
    List.rdropWhile_prefix _ _
  have hsum := congrArg lengthOf hm
  rw [lengthOf_append, hlength, Nat.add_eq_left] at hsum
  cases m with
  | nil => rwa [List.append_nil] at hm
  | cons eh m =>
    -- a header behind the last routing or hop-by-hop header would have a length
    have hmem : eh ∈ beforeFragmentHeader l := hm ▸ List.mem_append_right _ List.mem_cons_self
    have hone := hpos eh ((List.takeWhile_prefix _).subset hmem)
    rw [lengthOf, List.map_cons, List.sum_cons] at hsum
    omega

end Inet.IPv6
