import Inet.Foundations.Tiling
import Inet.NetworkLayer.IPv6Datagram

/-!
# Fragmentation of IPv6 datagrams

`IPv6::fragmentAndSend`. The sender takes the headers up to the last routing or hop-by-hop header to
be unfragmentable, and cuts what follows into fragments. The receiver takes all headers up to the
fragment header to be unfragmentable, and that is inserted by its order. So the lengths agree
exactly when the place of the fragment header follows a routing or hop-by-hop header, if there are
any headers in front of it (`Whole.tiles_iff`).
-/

namespace Inet.IPv6

open Tiling

/-- What sending needs of an interface. -/
structure IPv6Interface where
  preferredAddress : IPv6Address
  preferredIsTentative : Bool
  mtu : ℕ
  deriving DecidableEq

/-- What is thrown. -/
inductive FragmentationError
  | assertionFailed
  | extensionHeader (error : ExtensionHeaderError)
  deriving DecidableEq, Repr

/-- The errors that are reported to the source. -/
inductive ICMPv6Error
  | timeExceeded
  | packetTooBig
  deriving DecidableEq, Repr

/-- What becomes of a datagram: it is sent, whole or in fragments, an error is reported, or it waits
for its source address to become valid. -/
inductive Sending (α : Type)
  | sent (fragments : List (IPv6Datagram α))
  | dropped (error : ICMPv6Error)
  | rescheduled (datagram : IPv6Datagram α)
  deriving DecidableEq

namespace IPv6Datagram

variable {α : Type}

/-- The length of what follows the unfragmentable headers. -/
def payloadLength (d : IPv6Datagram α) : ℕ :=
  d.byteLength - d.calculateUnfragmentableHeaderByteLength

/-- A fragment header. -/
def fragmentHeader (identification : UInt32) (offset : ℕ) (moreFragments : Bool) :
    IPv6ExtensionHeader where
  extensionType := IP_PROT_IPv6EXT_FRAGMENT
  byteLength := IPv6_FRAGMENT_HEADER_LENGTH
  contents := .fragment ⟨UInt16.ofNat offset, identification, moreFragments⟩

/-- The length of the fragment at an offset. -/
def thisFragmentLength (d : IPv6Datagram α) (fragmentLength offset : ℕ) : ℕ :=
  if d.payloadLength ≤ offset + fragmentLength then d.payloadLength - offset else fragmentLength

/-- One fragment. The first one carries the encapsulated packet. -/
def fragment (d : IPv6Datagram α) (identification : UInt32) (fragmentLength offset : ℕ) :
    Except ExtensionHeaderError (IPv6Datagram α) := do
  let lastFragment := d.payloadLength ≤ offset + fragmentLength
  let fragment ← d.dup
  let extensionHeaders ←
    addExtensionHeader fragment.extensionHeaders (fragmentHeader identification offset ¬lastFragment)
  return { fragment with
    extensionHeaders
    encapsulatedPacket := if offset = 0 then d.encapsulatedPacket else none
    byteLength := d.calculateUnfragmentableHeaderByteLength + IPv6_FRAGMENT_HEADER_LENGTH +
      d.thisFragmentLength fragmentLength offset }

/-- The loop of `fragmentAndSend`. It has no more turns than the payload has bytes. -/
def fragmentLoop (d : IPv6Datagram α) (identification : UInt32) (fragmentLength : ℕ) :
    ℕ → ℕ → Except ExtensionHeaderError (List (IPv6Datagram α))
  | 0, _ => .ok []
  | n + 1, offset =>
    if offset < d.payloadLength then do
      let fragment ← d.fragment identification fragmentLength offset
      let rest ← fragmentLoop d identification fragmentLength n (offset + fragmentLength)
      return fragment :: rest
    else .ok []

/-- The length of all fragments but the last. -/
def fragmentLength (d : IPv6Datagram α) (mtu : ℕ) : ℕ :=
  (mtu - d.calculateUnfragmentableHeaderByteLength - IPv6_FRAGMENT_HEADER_LENGTH) / 8 * 8

/-- The part of `fragmentAndSend` behind the checks. -/
def createFragments (d : IPv6Datagram α) (identification : UInt32) (mtu : ℕ) :
    Except FragmentationError (Sending α) :=
  if d.fragmentLength mtu = 0 then .error .assertionFailed
  else
    match d.fragmentLoop identification (d.fragmentLength mtu) d.payloadLength 0 with
    | .ok fragments => .ok (.sent fragments)
    | .error e => .error (.extensionHeader e)

/-- Whether the source address is to be filled in. -/
def NeedsSource (d : IPv6Datagram α) : Prop :=
  d.srcAddress.isUnspecified = true ∧ d.destAddress.isSolicitedNodeMulticastAddress = false

instance (d : IPv6Datagram α) : Decidable d.NeedsSource :=
  inferInstanceAs (Decidable (_ ∧ _))

/-- The part of `fragmentAndSend` behind the source address. -/
def sendOrFragment (d : IPv6Datagram α) (ie : IPv6Interface) (fromHL : Bool)
    (identification : UInt32) : Except FragmentationError (Sending α) :=
  if d.byteLength ≤ ie.mtu then .ok (.sent [d])
  else if fromHL = false then .ok (.dropped .packetTooBig)
  else d.createFragments identification ie.mtu

/-- `IPv6::fragmentAndSend`, with the value of `curFragmentId`. -/
def fragmentAndSend (d : IPv6Datagram α) (ie : IPv6Interface) (fromHL : Bool)
    (identification : UInt32) : Except FragmentationError (Sending α) :=
  if d.hopLimit ≤ 0 then .ok (.dropped .timeExceeded)
  else if fromHL = true ∧ d.NeedsSource then
    if ie.preferredAddress.isUnspecified then .error .assertionFailed
    else
      let d := { d with srcAddress := ie.preferredAddress }
      if ie.preferredIsTentative then .ok (.rescheduled d)
      else d.sendOrFragment ie fromHL identification
  else d.sendOrFragment ie fromHL identification

/-! ### The fragments -/

variable {d f : IPv6Datagram α} {l : List (IPv6Datagram α)} {id : UInt32} {n offset : ℕ}

/-- The fragment at an offset, when nothing goes wrong. -/
def piece (d : IPv6Datagram α) (identification : UInt32) (fragmentLength offset : ℕ) :
    IPv6Datagram α where
  srcAddress := d.srcAddress
  destAddress := d.destAddress
  trafficClass := d.trafficClass
  flowLabel := d.flowLabel
  hopLimit := d.hopLimit
  transportProtocol := d.transportProtocol
  extensionHeaders := beforeFragmentHeader d.extensionHeaders ++
    fragmentHeader identification offset (¬d.payloadLength ≤ offset + fragmentLength) ::
      afterFragmentHeader d.extensionHeaders
  byteLength := d.calculateUnfragmentableHeaderByteLength + IPv6_FRAGMENT_HEADER_LENGTH +
    d.thisFragmentLength fragmentLength offset
  encapsulatedPacket := if offset = 0 then d.encapsulatedPacket else none

/-- Headers that have been accepted, none of them a fragment header. -/
structure Whole (d : IPv6Datagram α) : Prop where
  accepted : Accepted d.extensionHeaders
  notFragment : ∀ eh ∈ d.extensionHeaders, eh.extensionType ≠ IP_PROT_IPv6EXT_FRAGMENT

theorem Whole.fragment_eq (h : d.Whole) (id : UInt32) (n offset : ℕ) :
    d.fragment id n offset = .ok (d.piece id n offset) := by
  rw [fragment, h.accepted.dup]
  show (addExtensionHeader _ _ >>= _) = _
  rw [addExtensionHeader_fragment h.notFragment rfl rfl]
  rfl

/-- The offsets of the fragments. -/
def offsets (payloadLength fragmentLength : ℕ) : ℕ → ℕ → List ℕ
  | 0, _ => []
  | n + 1, offset =>
    if offset < payloadLength then
      offset :: offsets payloadLength fragmentLength n (offset + fragmentLength)
    else []

theorem Whole.fragmentLoop_eq (h : d.Whole) (id : UInt32) (n m offset : ℕ) :
    d.fragmentLoop id n m offset =
      .ok ((offsets d.payloadLength n m offset).map (d.piece id n)) := by
  induction m generalizing offset with
  | zero => rfl
  | succ m ih =>
    rw [fragmentLoop, offsets]
    split_ifs with hlt
    · rw [h.fragment_eq, ih]
      rfl
    · rfl

/-- What `createFragments` sends. -/
def fragments (d : IPv6Datagram α) (identification : UInt32) (mtu : ℕ) : List (IPv6Datagram α) :=
  (offsets d.payloadLength (d.fragmentLength mtu) d.payloadLength 0).map
    (d.piece identification (d.fragmentLength mtu))

/-! ### The intervals -/

/-- The interval of a fragment, as the receiver computes it. -/
def span (f : IPv6Datagram α) : ℤ × ℤ :=
  let offset : ℤ := (f.findFragmentHeader.elim 0 (·.fragmentOffset)).toNat
  (offset, offset + f.calculateFragmentLength)

/-- The bytes in front of the place of the fragment header that the sender takes for payload. -/
def misplaced (d : IPv6Datagram α) : ℤ :=
  lengthOf (beforeFragmentHeader d.extensionHeaders) - lengthOf (unfragmentable d.extensionHeaders)

theorem Whole.notFragment_before (h : d.Whole) :
    ∀ eh ∈ beforeFragmentHeader d.extensionHeaders, eh.extensionType ≠ IP_PROT_IPv6EXT_FRAGMENT :=
  fun eh heh ↦ h.notFragment eh ((List.takeWhile_prefix _).subset heh)

/-- The fragment header of a fragment. -/
theorem Whole.findFragmentHeader_piece (h : d.Whole) (id : UInt32) (n offset : ℕ) :
    (d.piece id n offset).findFragmentHeader =
      some ⟨UInt16.ofNat offset, id, ¬d.payloadLength ≤ offset + n⟩ := by
  have hfind : (d.piece id n offset).extensionHeaders.find?
      (·.extensionType = IP_PROT_IPv6EXT_FRAGMENT) =
        some (fragmentHeader id offset ¬d.payloadLength ≤ offset + n) := by
    rw [piece, List.find?_append, List.find?_eq_none.2, Option.none_or, List.find?_cons_of_pos]
    · rfl
    · simpa using h.notFragment_before
  rw [findFragmentHeader, hfind]
  rfl

/-- **The interval of a fragment** is shorter than the sender means it to be by the misplaced bytes.
-/
theorem Whole.span_piece (h : d.Whole) (id : UInt32) (hoffset : offset < 2 ^ 16) :
    (d.piece id n offset).span =
      ((offset : ℤ), (offset : ℤ) + d.thisFragmentLength n offset - d.misplaced) := by
  have hlength : (d.piece id n offset).calculateFragmentLength =
      d.thisFragmentLength n offset - d.misplaced := by
    rw [calculateFragmentLength, piece, upToFragmentHeader_append h.notFragment_before rfl,
      lengthOf_append, misplaced, calculateUnfragmentableHeaderByteLength]
    have hone : lengthOf [fragmentHeader id offset ¬d.payloadLength ≤ offset + n] =
      IPv6_FRAGMENT_HEADER_LENGTH := rfl
    rw [hone]
    push_cast
    omega
  rw [span, h.findFragmentHeader_piece, hlength]
  simp only [Option.elim_some, UInt16.toNat_ofNat', Nat.mod_eq_of_lt hoffset, Prod.mk.injEq, true_and]
  omega

theorem Whole.misplaced_eq_zero_iff (h : d.Whole) :
    d.misplaced = 0 ↔ FragmentHeaderFollows d.extensionHeaders := by
  obtain ⟨hord, hlength⟩ := h.accepted.spec
  rw [← lengthOf_unfragmentable_eq_iff hord fun eh heh ↦ (hlength eh heh).1, misplaced]
  omega

/-- The pieces from an offset on. -/
theorem tiles_offsets {R : IPv6Datagram α → ℕ → ℕ → Prop} (hn : 0 < n)
    (hat : ∀ offset < d.payloadLength,
      R (d.piece id n offset) offset (min (offset + n) d.payloadLength))
    {m : ℕ} (hm : d.payloadLength ≤ offset + m) :
    Tiles R (min offset d.payloadLength) d.payloadLength
      ((offsets d.payloadLength n m offset).map (d.piece id n)) := by
  induction m generalizing offset with
  | zero =>
    rw [offsets, min_eq_right (by omega)]
    exact .nil _
  | succ m ih =>
    rw [offsets]
    split_ifs with hlt
    · rw [List.map_cons, min_eq_left hlt.le]
      exact .cons (hat offset hlt) (by omega) (ih (by omega))
    · rw [min_eq_right (not_lt.1 hlt)]
      exact .nil _

/-- The interval of a fragment, if no bytes are misplaced. -/
theorem Whole.span_piece_of_eq (h : d.Whole) (id : UInt32) (hzero : d.misplaced = 0)
    (hsize : d.payloadLength < 2 ^ 16) (hlt : offset < d.payloadLength) :
    (d.piece id n offset).span = ((offset : ℤ), ((min (offset + n) d.payloadLength : ℕ) : ℤ)) := by
  rw [h.span_piece id (hlt.trans hsize), hzero, thisFragmentLength, Prod.mk.injEq]
  refine ⟨rfl, ?_⟩
  split_ifs <;> omega

/-- There are at least two fragments of a datagram that is too long. -/
theorem exists_offsets (hn : 0 < n) (hlt : n < d.payloadLength) :
    ∃ rest, offsets d.payloadLength n d.payloadLength 0 = 0 :: n :: rest := by
  obtain ⟨m, hm⟩ : ∃ m, d.payloadLength = m + 2 := ⟨d.payloadLength - 2, by omega⟩
  have htwo (m : ℕ) : offsets d.payloadLength n (m + 2) 0 =
      0 :: n :: offsets d.payloadLength n m (n + n) := by
    rw [offsets, if_pos (by omega), offsets, Nat.zero_add, if_pos hlt]
  obtain hpayload := htwo m
  rw [← hm] at hpayload
  exact ⟨_, hpayload⟩

/-- A datagram that is too long for the MTU, which admits 8 bytes of payload in a fragment. -/
structure TooLong (d : IPv6Datagram α) (mtu : ℕ) : Prop where
  lt : mtu < d.byteLength
  room : d.calculateUnfragmentableHeaderByteLength + IPv6_FRAGMENT_HEADER_LENGTH + 8 ≤ mtu

theorem TooLong.fragmentLength_lt {mtu : ℕ} (h : d.TooLong mtu) :
    0 < d.fragmentLength mtu ∧ d.fragmentLength mtu < d.payloadLength ∧
      d.calculateUnfragmentableHeaderByteLength + IPv6_FRAGMENT_HEADER_LENGTH +
        d.fragmentLength mtu ≤ mtu := by
  obtain ⟨hlt, hroom⟩ := h
  rw [fragmentLength, payloadLength]
  omega

/-- **The intervals tile the payload** exactly when the fragment header follows a routing or
hop-by-hop header, if any. -/
theorem Whole.tiles_iff (h : d.Whole) (id : UInt32) {mtu : ℕ} (hlong : d.TooLong mtu)
    (hsize : d.payloadLength < 2 ^ 16) :
    Tiles (fun f x y ↦ f.span = (x, y)) 0 (d.payloadLength : ℤ) (d.fragments id mtu) ↔
      FragmentHeaderFollows d.extensionHeaders := by
  obtain ⟨hpos, hlt, -⟩ := hlong.fragmentLength_lt
  rw [← h.misplaced_eq_zero_iff]
  constructor
  · intro htiles
    obtain ⟨rest, hrest⟩ := exists_offsets hpos hlt
    rw [fragments] at htiles
    rw [hrest, List.map_cons, List.map_cons] at htiles
    obtain ⟨b, hfirst, -, htiles⟩ := tiles_cons.1 htiles
    obtain ⟨b', hsecond, -, -⟩ := tiles_cons.1 htiles
    -- the second fragment begins where the sender means the first to end
    rw [h.span_piece id (Nat.two_pow_pos 16), thisFragmentLength, if_neg (by omega), Prod.mk.injEq] at hfirst
    rw [h.span_piece id (hlt.trans hsize), Prod.mk.injEq] at hsecond
    omega
  · intro hzero
    have htiles := tiles_offsets (R := fun f x y ↦ f.span = ((x : ℤ), (y : ℤ))) hpos
      (fun offset hlt ↦ h.span_piece_of_eq id hzero hsize hlt) (Nat.zero_add d.payloadLength).ge
    rw [Nat.zero_min] at htiles
    exact htiles.mapPoints (g := fun x : ℕ ↦ (x : ℤ)) (fun _ _ hlt ↦ Int.ofNat_lt.2 hlt)
      fun _ _ _ _ hspan ↦ hspan

/-! ### What is sent -/

theorem mem_offsets {P m o : ℕ} (h : o ∈ offsets P n m offset) : o < P := by
  induction m generalizing offset with
  | zero => cases h
  | succ m ih =>
    rw [offsets] at h
    split_ifs at h with hlt
    · obtain rfl | h := List.mem_cons.1 h
      · exact hlt
      · exact ih h
    · cases h

/-- Only the last fragment reaches the end. -/
theorem offsets_concat {P m : ℕ} (hn : 0 < n) (hlt : offset < P) (hm : P ≤ offset + m) :
    ∃ before last, offsets P n m offset = before ++ [last] ∧ (∀ o ∈ before, o + n < P) ∧
      P ≤ last + n := by
  induction m generalizing offset with
  | zero => omega
  | succ m ih =>
    rw [offsets, if_pos hlt]
    obtain hnext | hnext := Nat.lt_or_ge (offset + n) P
    · obtain ⟨before, last, heq, hbefore, hlast⟩ := ih hnext (by omega)
      exact ⟨offset :: before, last, by rw [heq]; rfl, List.forall_mem_cons.2 ⟨hnext, hbefore⟩, hlast⟩
    · refine ⟨[], offset, ?_, List.forall_mem_nil _, hnext⟩
      cases m with
      | zero => rfl
      | succ m => rw [offsets, if_neg hnext.not_gt, List.nil_append]

/-- Whether a fragment lacks the more-fragments flag. -/
def lacksMoreFragments (f : IPv6Datagram α) : Bool :=
  f.findFragmentHeader.elim false (!·.moreFragments)

theorem Whole.lacksMoreFragments_piece (h : d.Whole) (id : UInt32) (n offset : ℕ) :
    (d.piece id n offset).lacksMoreFragments = decide (d.payloadLength ≤ offset + n) := by
  rw [lacksMoreFragments, h.findFragmentHeader_piece, Option.elim_some, decide_not, Bool.not_not]

/-- **The fragments** fit the MTU, and only the last lacks the more-fragments flag. -/
theorem Whole.fragments_spec (h : d.Whole) (id : UInt32) {mtu : ℕ} (hlong : d.TooLong mtu) :
    (∀ f ∈ d.fragments id mtu, f.byteLength ≤ mtu) ∧
      ∃ before last, d.fragments id mtu = before ++ [last] ∧
        (∀ f ∈ before, f.lacksMoreFragments = false) ∧ last.lacksMoreFragments = true := by
  obtain ⟨hpos, hlt, hmtu⟩ := hlong.fragmentLength_lt
  constructor
  · intro f hf
    obtain ⟨offset, -, rfl⟩ := List.mem_map.1 hf
    show _ + d.thisFragmentLength _ offset ≤ mtu
    rw [thisFragmentLength]
    split_ifs <;> omega
  · obtain ⟨before, last, heq, hbefore, hlast⟩ :=
      offsets_concat hpos (hpos.trans hlt) (Nat.zero_add d.payloadLength).ge
    refine ⟨before.map _, d.piece id _ last, by rw [fragments, heq, List.map_append]; rfl, ?_, ?_⟩
    · intro f hf
      obtain ⟨offset, hoffset, rfl⟩ := List.mem_map.1 hf
      rw [h.lacksMoreFragments_piece, decide_eq_false (hbefore offset hoffset).not_ge]
    · rw [h.lacksMoreFragments_piece, decide_eq_true hlast]

/-- The source address that a datagram is sent with. -/
def fillSource (d : IPv6Datagram α) (ie : IPv6Interface) : IPv6Datagram α :=
  if d.NeedsSource then { d with srcAddress := ie.preferredAddress } else d

/-- A datagram that can be sent: it may take a hop, and if it has no source address, the interface
has one that is not tentative. -/
structure Sendable (d : IPv6Datagram α) (ie : IPv6Interface) : Prop where
  hopLimit : 0 < d.hopLimit
  source : d.NeedsSource →
    ie.preferredAddress.isUnspecified = false ∧ ie.preferredIsTentative = false

/-- **What is sent** of a locally sent datagram that is too long. -/
theorem Whole.fragmentAndSend_eq (h : d.Whole) {ie : IPv6Interface} (hsend : d.Sendable ie)
    (hlong : d.TooLong ie.mtu) (id : UInt32) :
    d.fragmentAndSend ie true id = .ok (.sent ((d.fillSource ie).fragments id ie.mtu)) := by
  have hcreate (d : IPv6Datagram α) (h : d.Whole) (hlong : d.TooLong ie.mtu) :
      d.sendOrFragment ie true id = .ok (.sent (d.fragments id ie.mtu)) := by
    have hpos : d.fragmentLength ie.mtu ≠ 0 := hlong.fragmentLength_lt.1.ne'
    rw [sendOrFragment, if_neg hlong.lt.not_ge, if_neg Bool.noConfusion, createFragments]
    rw [if_neg hpos, h.fragmentLoop_eq]
    rfl
  rw [fragmentAndSend, if_neg hsend.hopLimit.not_ge, fillSource]
  obtain hneeds | hneeds := Decidable.em d.NeedsSource
  · obtain ⟨hspecified, htentative⟩ := hsend.source hneeds
    rw [if_pos ⟨rfl, hneeds⟩, if_pos hneeds, hspecified, htentative, if_neg Bool.noConfusion]
    exact hcreate _ ⟨h.accepted, h.notFragment⟩ ⟨hlong.lt, hlong.room⟩
  · rw [if_neg fun hboth ↦ hneeds hboth.2, if_neg hneeds]
    exact hcreate d h hlong

end IPv6Datagram

end Inet.IPv6
