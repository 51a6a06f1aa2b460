import Mathlib.Algebra.BigOperators.Group.List.Basic
import Mathlib.Data.List.AList
import Mathlib.Data.Nat.Bitwise
import Inet.LinkLayer.Ieee80211Frame

/-!
# Fragmentation and reassembly of 802.11 frames

A frame that is too long for the threshold is cut into fragments. The last of them has the whole
frame in it, and the others are dummies that have only their length; so `fragment` fixes what is
sent (`fragment_eq`), and what it comes to is said about the list of the fragments (`Fragments`).

The receiver keeps, for the key of a frame, the numbers of its fragments as a bit mask. The mask of
all numbers is known once the last fragment is there.
-/

namespace Inet

/-- `MAX_NUM_FRAGMENTS`. -/
def maxNumFragments : ℕ := 16

/-- What goes wrong with a frame. -/
inductive FragmentationError
  | noPayload
  | packetTooShort
  | tooLarge
  | assertionFailed
  deriving DecidableEq, Repr

/-- A frame with a packet of the higher layers. -/
abbrev PlainFrame := Ieee80211DataOrMgmtFrame UpperPacket

/-- A fragment: a frame that may have a frame in it. -/
abbrev FragmentFrame := Ieee80211DataOrMgmtFrame PlainFrame

/-! ### Fragmentation -/

namespace BasicFragmentation

/-- A fragment before the last one. -/
def dummyFragment (fragmentHeader : Ieee80211Header) (fragmentationThreshold : ℤ) (i : ℕ) :
    FragmentFrame :=
  { fragmentHeader with
    byteLength := fragmentationThreshold
    fragmentNumber := i
    moreFragments := true }

/-- The loop of `fragment`: the fragments before the last one, the number of the last one and the
length of its payload. Each turn takes some of the payload, so that its length bounds the turns. -/
def cutFragments (fragmentHeader : Ieee80211Header) (fragmentationThreshold headerLength : ℤ) :
    ℕ → ℕ → ℤ → List FragmentFrame × ℕ × ℤ
  | 0, i, payloadLength => ([], i, payloadLength)
  | turns + 1, i, payloadLength =>
    if headerLength + payloadLength > fragmentationThreshold then
      let rest := cutFragments fragmentHeader fragmentationThreshold headerLength turns (i + 1)
        (payloadLength - (fragmentationThreshold - headerLength))
      (dummyFragment fragmentHeader fragmentationThreshold i :: rest.1, rest.2)
    else ([], i, payloadLength)

/-- The last fragment: the frame as it is, under its header. -/
def lastFragment (fragmentHeader : Ieee80211Header) (headerLength : ℤ) (frame : PlainFrame) (i : ℕ)
    (payloadLength : ℤ) : FragmentFrame :=
  { ({ fragmentHeader with byteLength := headerLength } : FragmentFrame).encapsulate frame
      frame.byteLength with
    byteLength := headerLength + payloadLength
    fragmentNumber := i
    moreFragments := false }

/-- `BasicFragmentation::fragment`. -/
def fragment (frame : PlainFrame) (fragmentationThreshold : ℤ) :
    Except FragmentationError (List FragmentFrame) :=
  match frame.decapsulate fun packet ↦ packet.byteLength with
  | none => .error .packetTooShort
  | some (none, _) => .error .noPayload
  | some (some payload, fragmentHeader) =>
    let headerLength := fragmentHeader.byteLength
    let frame := fragmentHeader.encapsulate payload payload.byteLength
    if payload.byteLength ≥ (fragmentationThreshold - headerLength) * maxNumFragments then
      .error .tooLarge
    else
      let (fragments, i, payloadLength) :=
        cutFragments fragmentHeader.toIeee80211Header fragmentationThreshold headerLength
          payload.byteLength 0 payload.byteLength
      .ok (fragments ++
        [lastFragment fragmentHeader.toIeee80211Header headerLength frame i payloadLength])

/-! ### What the fragments are -/

variable {frame : PlainFrame} {threshold : ℤ}
  {headerLength payloadLength : ℕ}

/-- The loop leaves a last part that fits, and has taken a full part at each turn. -/
theorem cutFragments_eq (fragmentHeader : Ieee80211Header)
    (hthreshold : (headerLength : ℤ) < threshold) (turns i : ℕ) {p : ℤ}
    (hp : 0 ≤ p) (hturns : p ≤ turns) :
    ∃ (n : ℕ) (rest : ℤ), cutFragments fragmentHeader threshold headerLength turns i p =
        ((List.range n).map fun k ↦ dummyFragment fragmentHeader threshold (i + k), i + n, rest) ∧
      0 ≤ rest ∧ headerLength + rest ≤ threshold ∧ (0 < n → 0 < rest) ∧
      rest + n * (threshold - headerLength) = p := by
  induction turns generalizing i p with
  | zero => exact ⟨0, p, rfl, hp, by omega, fun h ↦ absurd h (lt_irrefl 0), by simp⟩
  | succ turns ih =>
    by_cases hlong : headerLength + p > threshold
    · obtain ⟨n, rest, heq, hrest, hfits, hpos, hsum⟩ :=
        ih (i + 1) (p := p - (threshold - headerLength)) (by omega) (by omega)
      refine ⟨n + 1, rest, ?_, hrest, hfits, fun _ ↦ ?_, ?_⟩
      · rw [cutFragments, if_pos hlong, heq, List.range_succ_eq_map, List.map_cons, List.map_map]
        simp only [Nat.add_zero, Prod.mk.injEq, List.cons.injEq, true_and]
        refine ⟨List.map_congr_left fun k _ ↦ ?_, by omega, trivial⟩
        show dummyFragment _ _ (i + 1 + k) = dummyFragment _ _ (i + (k + 1))
        rw [Nat.add_right_comm, Nat.add_assoc]
      · rcases n.eq_zero_or_pos with rfl | hn
        · simp only [Nat.cast_zero, zero_mul, add_zero] at hsum
          omega
        · exact hpos hn
      · rw [Nat.cast_add, Nat.cast_one, add_mul, one_mul]
        omega
    · exact ⟨0, p, if_neg hlong, hp, by omega, fun h ↦ absurd h (lt_irrefl 0), by simp⟩

/-- The lengths of the header and of the payload of a frame. -/
def HasLengths (frame : PlainFrame) (headerLength payloadLength : ℕ) : Prop :=
  ∃ payload : UpperPacket, frame.encapsulatedPacket = some payload ∧
    payload.byteLength = payloadLength ∧ frame.byteLength = headerLength + payloadLength

/-- The fragments of a frame: each has its number, and the last one has the frame in it. -/
structure Fragments (frame : PlainFrame) (fragments : List FragmentFrame) : Prop where
  pos : 0 < fragments.length
  le : fragments.length ≤ maxNumFragments
  header : ∀ k (hk : k < fragments.length), fragments[k].toIeee80211Header =
    { frame.toIeee80211Header with
      fragmentNumber := k
      moreFragments := decide (k + 1 < fragments.length) }
  packet : ∀ k (hk : k < fragments.length),
    fragments[k].encapsulatedPacket = if k + 1 < fragments.length then none else some frame

/-- The frame without its packet. -/
theorem HasLengths.decapsulate (h : HasLengths frame headerLength payloadLength) :
    ∃ payload : UpperPacket, payload.byteLength = payloadLength ∧
      frame.encapsulatedPacket = some payload ∧
      (frame.decapsulate fun packet ↦ packet.byteLength) =
        some (some payload, { frame with byteLength := headerLength, encapsulatedPacket := none }) := by
  obtain ⟨payload, hpacket, rfl, hlength⟩ := h
  refine ⟨payload, rfl, hpacket, ?_⟩
  have hheader : (if frame.byteLength > 0 then frame.byteLength - (payload.byteLength : ℤ)
      else frame.byteLength) = headerLength := by
    split_ifs <;> omega
  rw [Ieee80211DataOrMgmtFrame.decapsulate, hpacket]
  simp only [hheader]
  rw [if_neg (by omega)]

/-- Dummies up to the last fragment are the fragments of a frame. -/
theorem fragments_append (frame : PlainFrame) (threshold headerLength rest : ℤ) {n : ℕ}
    (hn : n < maxNumFragments) :
    Fragments frame (((List.range n).map fun k ↦
        dummyFragment frame.toIeee80211Header threshold (0 + k)) ++
      [lastFragment frame.toIeee80211Header headerLength frame (0 + n) rest]) := by
  have hlength : (((List.range n).map fun k ↦
        dummyFragment frame.toIeee80211Header threshold (0 + k)) ++
      [lastFragment frame.toIeee80211Header headerLength frame (0 + n) rest]).length = n + 1 := by
    rw [List.length_append, List.length_map, List.length_range, List.length_singleton]
  refine ⟨by omega, by omega, fun k hk ↦ ?_, fun k hk ↦ ?_⟩
  all_goals
    rw [hlength] at hk
    rcases Nat.lt_succ_iff_lt_or_eq.1 hk with hlt | rfl
  · rw [List.getElem_append_left (by simpa using hlt), List.getElem_map, List.getElem_range, hlength,
      decide_eq_true (Nat.succ_lt_succ hlt), Nat.zero_add]
    rfl
  · rw [List.getElem_append_right (by simp), List.getElem_singleton, hlength,
      decide_eq_false (lt_irrefl _), Nat.zero_add]
    rfl
  · rw [List.getElem_append_left (by simpa using hlt), List.getElem_map, List.getElem_range, hlength,
      if_pos (Nat.succ_lt_succ hlt)]
    rfl
  · rw [List.getElem_append_right (by simp), List.getElem_singleton, hlength, if_neg (lt_irrefl _)]
    rfl

/-- A frame whose payload is short enough is cut into its fragments, none longer than the threshold,
which share out the payload. -/
theorem fragment_eq (h : HasLengths frame headerLength payloadLength)
    (hthreshold : (headerLength : ℤ) < threshold)
    (hpayload : (payloadLength : ℤ) < 16 * (threshold - headerLength)) :
    ∃ fragments, fragment frame threshold = .ok fragments ∧ Fragments frame fragments ∧
      (∀ f ∈ fragments, f.byteLength ≤ threshold) ∧
      (fragments.map fun f ↦ f.byteLength - (headerLength : ℤ)).sum = payloadLength := by
  obtain ⟨payload, hlength, hpacket, hdecapsulate⟩ := h.decapsulate
  have hframe : ({ frame with byteLength := headerLength, encapsulatedPacket := none } :
      PlainFrame).encapsulate payload payload.byteLength = frame := by
    obtain ⟨payload', hpacket', hlength', htotal⟩ := h
    rw [Ieee80211DataOrMgmtFrame.encapsulate, hlength]
    simp only [← htotal, ← hpacket]
  obtain ⟨n, rest, hcut, hrest, hfits, hpos, hsum⟩ := cutFragments_eq
    frame.toIeee80211Header hthreshold payloadLength 0
    (p := payloadLength) (by omega) le_rfl
  have hn : n < maxNumFragments := by
    rcases n.eq_zero_or_pos with rfl | hn0
    · decide
    · have hlt : (n : ℤ) * (threshold - headerLength) < 16 * (threshold - headerLength) := by
        have := hpos hn0
        omega
      exact_mod_cast lt_of_mul_lt_mul_right hlt (by omega)
  have hshort : ¬ (payloadLength : ℤ) ≥ (threshold - headerLength) * maxNumFragments := by
    rw [maxNumFragments]
    omega
  have hfragment : fragment frame threshold = .ok (((List.range n).map fun k ↦
        dummyFragment frame.toIeee80211Header threshold (0 + k)) ++
      [lastFragment frame.toIeee80211Header headerLength frame (0 + n) rest]) := by
    rw [hlength] at hframe
    rw [fragment, hdecapsulate]
    simp only [hlength, hframe, hcut]
    exact if_neg hshort
  refine ⟨_, hfragment, fragments_append frame threshold headerLength rest hn, fun f hf ↦ ?_, ?_⟩
  · rcases List.mem_append.1 hf with hf | hf
    · obtain ⟨k, -, rfl⟩ := List.mem_map.1 hf
      exact le_rfl
    · obtain rfl := List.mem_singleton.1 hf
      exact hfits
  · rw [List.map_append, List.sum_append, List.map_map]
    have hdummies : (((List.range n).map ((fun f : FragmentFrame ↦ f.byteLength - (headerLength : ℤ)) ∘
        fun k ↦ dummyFragment frame.toIeee80211Header threshold (0 + k))).sum : ℤ) =
          n * (threshold - headerLength) := by
      show ((List.range n).map fun _ ↦ threshold - (headerLength : ℤ)).sum = _
      rw [List.map_const', List.length_range, List.sum_replicate, nsmul_eq_mul]
    have hlast : ([lastFragment frame.toIeee80211Header headerLength frame (0 + n) rest].map
        fun f ↦ f.byteLength - (headerLength : ℤ)).sum = rest := by
      show headerLength + rest - headerLength + 0 = rest
      omega
    rw [hdummies, hlast]
    omega

end BasicFragmentation

/-! ### Reassembly -/

namespace BasicReassembly

/-- `Key`. -/
structure Key where
  macAddress : MACAddress
  tid : UInt8
  seqNum : ℕ
  deriving DecidableEq

/-- `Value`. -/
structure Value where
  frame : Option PlainFrame := none
  receivedFragments : ℕ := 0
  allFragments : ℕ := 0
  deriving DecidableEq

/-- The key of a frame. A frame without a TID has -1 for it. -/
def key (header : Ieee80211Header) : Key where
  macAddress := header.transmitterAddress
  tid := if header.type = .dataWithQos then header.tid else -1
  seqNum := header.sequenceNumber

/-- What a fragment adds to the entry of its frame. -/
def updateEntry (fragNum : ℕ) (frame : FragmentFrame) (value : Value) :
    Except FragmentationError Value :=
  let fragmentBit := (1 <<< fragNum) % 2 ^ 16
  let value := { value with
    receivedFragments := value.receivedFragments ||| fragmentBit
    allFragments :=
      if frame.moreFragments then value.allFragments else ((fragmentBit <<< 1) - 1) % 2 ^ 16 }
  match value.frame with
  | some _ => .ok value
  | none =>
    -- the length of the fragment does not count the frame in it
    match ({ frame with byteLength := 0 } : FragmentFrame).decapsulate fun packet ↦ packet.byteLength with
    | none => .error .packetTooShort
    | some (packet, _) => .ok { value with frame := packet }

/-- The map of the entries. -/
abbrev FragmentsMap := AList fun _ : Key ↦ Value

/-- `BasicReassembly::addFragment`: the frame, if it is complete, and the entries. -/
def addFragment (fragmentsMap : FragmentsMap) (frame : FragmentFrame) :
    Except FragmentationError (Option PlainFrame × FragmentsMap) :=
  if 0 ≤ frame.fragmentNumber ∧ frame.fragmentNumber < maxNumFragments then do
    let k := key frame.toIeee80211Header
    let value ← updateEntry frame.fragmentNumber.toNat frame ((fragmentsMap.lookup k).getD {})
    if value.allFragments ≠ 0 ∧ value.allFragments = value.receivedFragments then
      return (value.frame, fragmentsMap.erase k)
    else return (none, fragmentsMap.insert k value)
  else .error .assertionFailed

end BasicReassembly

end Inet
