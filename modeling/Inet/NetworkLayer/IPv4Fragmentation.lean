import Inet.Common.RawPacket
import Inet.Foundations.Tiling

/-!
# Fragmentation of IPv4 datagrams

`IPv4Datagram`, as far as fragmentation and reassembly use it, and `IPv4::fragmentAndSend`. A
datagram that is on its way may be fragmented again; `Fragments d l` says that `l` is what such
calls have made of `d`. The payloads of `l` make up that of `d`, at offsets that are multiples of 8,
and the bit for more fragments is clear in the last one only (`fragments_spec`).

Packets that are not raw bytes stay as they are; `α` stands for their classes.
-/

namespace Inet.IPv4

open Tiling

/-- What a datagram may carry: raw bytes, or a packet of some other class. -/
inductive EncapsulatedPacket (α : Type)
  | raw (packet : RawPacket)
  | other (packet : α) (byteLength : ℕ)
  deriving DecidableEq

/-- `cPacket::getByteLength`. -/
def EncapsulatedPacket.byteLength {α : Type} : EncapsulatedPacket α → ℕ
  | raw packet => packet.byteLength
  | other _ byteLength => byteLength

/-- `packet IPv4Datagram`. -/
structure IPv4Datagram (α : Type) where
  srcAddress : UInt32
  destAddress : UInt32
  headerLength : ℕ := 20
  transportProtocol : ℤ := 0
  timeToLive : ℤ
  identification : ℤ
  moreFragments : Bool := false
  dontFragment : Bool := false
  fragmentOffset : ℕ := 0
  byteLength : ℕ
  encapsulatedPacket : Option (EncapsulatedPacket α)
  deriving DecidableEq

/-- What sending needs of an interface. An MTU of 0 is infinite. -/
structure IPv4Interface where
  ipAddress : UInt32
  mtu : ℕ
  deriving DecidableEq

/-- What is thrown. -/
inductive FragmentationError
  | cannotFragment (mtu headerLength : ℕ)
  deriving DecidableEq, Repr

/-- The errors that are reported to the source. -/
inductive ICMPError
  | timeExceeded
  | fragmentationNeeded
  deriving DecidableEq, Repr

/-- What becomes of a datagram: it is sent, whole or in fragments, or an error is reported. -/
inductive Sending (α : Type)
  | sent (fragments : List (IPv4Datagram α))
  | dropped (error : ICMPError)
  deriving DecidableEq

namespace IPv4Datagram

variable {α : Type}

/-- The length of the payload. -/
def payloadLength (d : IPv4Datagram α) : ℕ :=
  d.byteLength - d.headerLength

/-- The interval of the payload. -/
def span (d : IPv4Datagram α) : ℕ × ℕ :=
  (d.fragmentOffset, d.fragmentOffset + d.payloadLength)

/-- The source address is filled in. -/
def fillSource (d : IPv4Datagram α) (ie : IPv4Interface) : IPv4Datagram α :=
  if d.srcAddress = 0 then { d with srcAddress := ie.ipAddress } else d

/-- One fragment. The bit for more fragments is unchanged in the last one. -/
def fragment (d : IPv4Datagram α) (fragmentLength offset : ℕ) : IPv4Datagram α :=
  let lastFragment := d.payloadLength ≤ offset + fragmentLength
  { d with
    moreFragments := if lastFragment then d.moreFragments else true
    byteLength := d.headerLength + if lastFragment then d.payloadLength - offset else fragmentLength
    fragmentOffset := d.fragmentOffset + offset }

/-- The loop of `fragmentAndSend`. It has no more turns than the payload has bytes. -/
def fragmentLoop (d : IPv4Datagram α) (fragmentLength : ℕ) : ℕ → ℕ → List (IPv4Datagram α)
  | 0, _ => []
  | n + 1, offset =>
    if offset < d.payloadLength then
      d.fragment fragmentLength offset :: fragmentLoop d fragmentLength n (offset + fragmentLength)
    else []

/-- `IPv4::fragmentAndSend`. -/
def fragmentAndSend (d : IPv4Datagram α) (ie : IPv4Interface) :
    Except FragmentationError (Sending α) :=
  let d := d.fillSource ie
  if d.timeToLive ≤ 0 then .ok (.dropped .timeExceeded)
  else if ie.mtu = 0 ∨ d.byteLength ≤ ie.mtu then .ok (.sent [d])
  else if d.dontFragment then .ok (.dropped .fragmentationNeeded)
  else
    let fragmentLength := (ie.mtu - d.headerLength) / 8 * 8
    if fragmentLength = 0 then .error (.cannotFragment ie.mtu d.headerLength)
    else .ok (.sent (d.fragmentLoop fragmentLength d.payloadLength 0))

/-- What calls of `fragmentAndSend`, one after the other, have made of a datagram. Between two calls
the time to live may change. -/
inductive Fragments (d : IPv4Datagram α) : List (IPv4Datagram α) → Prop
  | whole : Fragments d [d]
  | send {before after sent : List (IPv4Datagram α)} {f : IPv4Datagram α} (ie : IPv4Interface) :
      Fragments d (before ++ f :: after) → f.fragmentAndSend ie = .ok (.sent sent) →
      Fragments d (before ++ sent ++ after)
  | forward {before after : List (IPv4Datagram α)} {f : IPv4Datagram α} (timeToLive : ℤ) :
      Fragments d (before ++ f :: after) →
      Fragments d (before ++ { f with timeToLive } :: after)

variable {d f : IPv4Datagram α} {l sent : List (IPv4Datagram α)} {ie : IPv4Interface} {a c : ℕ}

/-! ### One call -/

/-- What a fragment has in common with the datagram. -/
structure PartOf (d f : IPv4Datagram α) : Prop where
  srcAddress : f.srcAddress = d.srcAddress
  destAddress : f.destAddress = d.destAddress
  headerLength : f.headerLength = d.headerLength
  transportProtocol : f.transportProtocol = d.transportProtocol
  identification : f.identification = d.identification
  encapsulatedPacket : f.encapsulatedPacket = d.encapsulatedPacket
  header_le : f.headerLength ≤ f.byteLength
  dvd_offset : 8 ∣ f.fragmentOffset
  moreFragments_iff : f.moreFragments = false ↔ f.span.2 = d.payloadLength

/-- The pieces follow one another. -/
def Covers (a c : ℕ) (l : List (IPv4Datagram α)) : Prop :=
  Tiles (fun f x y ↦ f.span = (x, y)) a c l

theorem PartOf.fragment (h : d.PartOf f) {n offset : ℕ} (hoffset : 8 ∣ offset)
    (hlt : offset < f.payloadLength) (hle : f.span.2 ≤ d.payloadLength) :
    d.PartOf (f.fragment n offset) ∧ (f.fragment n offset).span =
      (f.fragmentOffset + offset, f.fragmentOffset + min (offset + n) f.payloadLength) := by
  have hlength : (f.fragment n offset).payloadLength =
      if f.payloadLength ≤ offset + n then f.payloadLength - offset else n :=
    Nat.add_sub_cancel_left f.headerLength _
  have hspan : (f.fragment n offset).span =
      (f.fragmentOffset + offset, f.fragmentOffset + min (offset + n) f.payloadLength) := by
    rw [span, hlength]
    refine Prod.ext rfl ?_
    show f.fragmentOffset + offset + _ = _
    split_ifs <;> omega
  refine ⟨⟨h.1, h.2, h.3, h.4, h.5, h.6, Nat.le_add_right _ _,
    (Nat.dvd_add_right h.dvd_offset).2 hoffset, ?_⟩, hspan⟩
  have hmore := h.moreFragments_iff
  rw [hspan]
  rw [span] at hle hmore
  show (if f.payloadLength ≤ offset + n then f.moreFragments else true) = false ↔ _
  split_ifs with hlast
  · rw [min_eq_right hlast, hmore]
  · simp only [false_iff]
    simp only at hle ⊢
    omega

/-- **The loop** breaks the payload from the offset on into fragments. -/
theorem fragmentLoop_spec (h : d.PartOf f) (hle : f.span.2 ≤ d.payloadLength) {n : ℕ} (hn : 8 ∣ n)
    (hpos : 0 < n) {m offset : ℕ} (hoffset : 8 ∣ offset) (hm : f.payloadLength ≤ offset + m) :
    Covers (f.fragmentOffset + min offset f.payloadLength) f.span.2 (f.fragmentLoop n m offset) ∧
      ∀ g ∈ f.fragmentLoop n m offset, d.PartOf g := by
  induction m generalizing offset with
  | zero =>
    rw [fragmentLoop, min_eq_right (by omega)]
    exact ⟨.nil _, by simp⟩
  | succ m ih =>
    rw [fragmentLoop]
    split_ifs with hlt
    · obtain ⟨hpart, hspan⟩ := h.fragment hoffset hlt hle (n := n)
      have hnext : 8 ∣ offset + n := (Nat.dvd_add_right hoffset).2 hn
      obtain ⟨htiles, hall⟩ := ih hnext (by omega)
      rw [min_eq_left hlt.le]
      exact ⟨.cons hspan (by omega) htiles, List.forall_mem_cons.2 ⟨hpart, hall⟩⟩
    · rw [min_eq_right (not_lt.1 hlt)]
      exact ⟨.nil _, by simp⟩

theorem fillSource_of_ne (h : f.srcAddress ≠ 0) (ie : IPv4Interface) : f.fillSource ie = f :=
  if_neg h

/-- **What one call makes of a fragment.** -/
theorem fragmentAndSend_spec (h : d.PartOf f) (hsrc : f.srcAddress ≠ 0)
    (hle : f.span.2 ≤ d.payloadLength) (hne : 0 < f.payloadLength)
    (hsent : f.fragmentAndSend ie = .ok (.sent sent)) :
    Covers f.span.1 f.span.2 sent ∧ ∀ g ∈ sent, d.PartOf g := by
  rw [fragmentAndSend, fillSource_of_ne hsrc] at hsent
  simp only at hsent
  split_ifs at hsent with httl hfits hdont hzero
  · cases hsent
  · obtain rfl : [f] = sent := by simpa using hsent
    exact ⟨.single rfl (by rw [span]; simpa using hne), by simpa using h⟩
  · cases hsent
  · obtain rfl : f.fragmentLoop _ _ _ = sent := by simpa using hsent
    have hzero' : f.fragmentOffset + min 0 f.payloadLength = f.span.1 := by
      rw [Nat.zero_min, Nat.add_zero, span]
    rw [← hzero']
    exact fragmentLoop_spec h hle (Nat.dvd_mul_left 8 _) (Nat.pos_of_ne_zero hzero) ⟨0, rfl⟩
      (Nat.zero_add _).ge

/-! ### All calls -/

/-- What is on the way is made up of parts of the datagram. -/
theorem Fragments.covers (h : d.Fragments l) (hsrc : d.srcAddress ≠ 0) (hoffset : d.fragmentOffset = 0)
    (hlast : d.moreFragments = false) (hpos : 0 < d.payloadLength) :
    Covers 0 d.payloadLength l ∧ ∀ f ∈ l, d.PartOf f := by
  induction h with
  | whole =>
    have hspan : d.span = (0, d.payloadLength) := by rw [span, hoffset, Nat.zero_add]
    refine ⟨.single hspan hpos, List.forall_mem_singleton.2 ⟨rfl, rfl, rfl, rfl, rfl, rfl, ?_, ?_, ?_⟩⟩
    · rw [payloadLength] at hpos
      omega
    · rw [hoffset]
      exact ⟨0, rfl⟩
    · simp [hspan, hlast]
  | @send before after sent f ie _ hsent ih =>
    obtain ⟨htiles, hall⟩ := ih
    obtain ⟨b, hbefore, htiles⟩ := tiles_append.1 htiles
    obtain ⟨b', hspan, hlt, hafter⟩ := tiles_cons.1 htiles
    simp only [List.forall_mem_append, List.forall_mem_cons] at hall ⊢
    have hspan' : f.span = (b, b') := hspan
    have hlength : f.payloadLength = b' - b := by
      have hfirst := congrArg Prod.fst hspan'
      have hsecond := congrArg Prod.snd hspan'
      simp only [span] at hfirst hsecond
      omega
    obtain ⟨hcovers, hparts⟩ := fragmentAndSend_spec hall.2.1
      (hall.2.1.srcAddress.trans_ne hsrc) (by rw [hspan']; exact hafter.le) (by omega) hsent
    rw [hspan'] at hcovers
    exact ⟨(hbefore.append hcovers).append hafter, ⟨hall.1, hparts⟩, hall.2.2⟩
  | @forward before after f timeToLive _ ih =>
    obtain ⟨htiles, hall⟩ := ih
    obtain ⟨b, hbefore, htiles⟩ := tiles_append.1 htiles
    obtain ⟨b', hspan, hlt, hafter⟩ := tiles_cons.1 htiles
    simp only [List.forall_mem_append, List.forall_mem_cons] at hall ⊢
    have hpart := hall.2.1
    exact ⟨hbefore.append (.cons hspan hlt hafter), hall.1,
      ⟨hpart.1, hpart.2, hpart.3, hpart.4, hpart.5, hpart.6, hpart.7, hpart.8, hpart.9⟩, hall.2.2⟩

/-- An empty payload is never fragmented. -/
theorem Fragments.of_payloadLength_eq_zero (h : d.Fragments l) (hsrc : d.srcAddress ≠ 0)
    (hzero : d.payloadLength = 0) : ∃ timeToLive, l = [{ d with timeToLive }] := by
  induction h with
  | whole => exact ⟨d.timeToLive, rfl⟩
  | @send before after sent f ie _ hsent ih =>
    obtain ⟨timeToLive, heq⟩ := ih
    obtain ⟨rfl, rfl, rfl⟩ : before = [] ∧ after = [] ∧ f = { d with timeToLive } := by
      cases before <;> simp_all
    have hsrc' : IPv4Datagram.srcAddress { d with timeToLive } ≠ 0 := hsrc
    rw [fragmentAndSend, fillSource_of_ne hsrc'] at hsent
    simp only at hsent
    split_ifs at hsent with httl hfits hdont hlength
    · cases hsent
    · exact ⟨timeToLive, by simpa using hsent.symm⟩
    · cases hsent
    · -- the MTU has room for more than the header
      rw [payloadLength] at hzero
      omega
  | @forward before after f timeToLive' _ ih =>
    obtain ⟨timeToLive, heq⟩ := ih
    obtain ⟨rfl, rfl, rfl⟩ : before = [] ∧ after = [] ∧ f = { d with timeToLive } := by
      cases before <;> simp_all
    exact ⟨timeToLive', rfl⟩

/-- The bytes of the pieces, one by one. -/
theorem Covers.flatMap_range' (h : Covers a c l) :
    (l.flatMap fun f ↦ List.range' f.fragmentOffset f.payloadLength) = List.range' a (c - a) := by
  induction h with
  | nil => simp
  | @cons a b c f l hspan hlt hl ih =>
    have hfirst : f.fragmentOffset = a := congrArg Prod.fst hspan
    have hsecond : f.fragmentOffset + f.payloadLength = b := congrArg Prod.snd hspan
    have hle := hl.le
    have hjoin : List.range' a (b - a) ++ List.range' (a + (b - a)) (c - b) = _ :=
      List.range'_append_1
    rw [show a + (b - a) = b by omega, show b - a + (c - b) = c - a by omega] at hjoin
    rw [List.flatMap_cons, ih, hfirst, show f.payloadLength = b - a by omega, hjoin]

/-- **The fragments of a datagram** make up its payload, at offsets that are multiples of 8, and
only the last has the bit for more fragments clear. -/
theorem fragments_spec (h : d.Fragments l) (hsrc : d.srcAddress ≠ 0) (hoffset : d.fragmentOffset = 0)
    (hlast : d.moreFragments = false) :
    (l.flatMap fun f ↦ List.range' f.fragmentOffset f.payloadLength) = List.range d.payloadLength ∧
      (∀ f ∈ l, 8 ∣ f.fragmentOffset) ∧
      ∃ before last, l = before ++ [last] ∧ (∀ f ∈ before, f.moreFragments = true) ∧
        last.moreFragments = false := by
  rcases Nat.eq_zero_or_pos d.payloadLength with hzero | hpos
  · obtain ⟨timeToLive, rfl⟩ := h.of_payloadLength_eq_zero hsrc hzero
    refine ⟨?_, ?_, [], _, rfl, by simp, hlast⟩
    · have hzero' : IPv4Datagram.payloadLength { d with timeToLive } = 0 := hzero
      simp [hzero', hzero]
    · simp [hoffset]
  · obtain ⟨hcovers, hparts⟩ := h.covers hsrc hoffset hlast hpos
    refine ⟨?_, fun f hf ↦ (hparts f hf).dvd_offset, ?_⟩
    · rw [hcovers.flatMap_range', List.range_eq_range', Nat.sub_zero]
    · rcases List.eq_nil_or_concat l with rfl | ⟨before, last, rfl⟩
      · exact absurd (tiles_nil.1 hcovers) hpos.ne
      · rw [List.concat_eq_append] at hcovers hparts ⊢
        obtain ⟨b, hbefore, hspan, hlt⟩ := tiles_concat.1 hcovers
        have hend : last.span.2 = d.payloadLength := congrArg Prod.snd hspan
        refine ⟨before, last, rfl, fun f hf ↦ ?_,
          (hparts last (by simp)).moreFragments_iff.2 hend⟩
        obtain ⟨x, y, hspan', -, -, hy⟩ := hbefore.exists_of_mem hf
        have hy' : f.span.2 = y := congrArg Prod.snd hspan'
        by_contra hmore
        have hstop := (hparts f (by simp [hf])).moreFragments_iff.1 (by simpa using hmore)
        omega

end IPv4Datagram

end Inet.IPv4
