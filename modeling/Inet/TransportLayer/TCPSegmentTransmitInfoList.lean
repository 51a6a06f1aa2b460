import Mathlib.Data.List.Chain
import Mathlib.Order.Bounds.Basic
import Inet.Common.SimTime
import Inet.Foundations.Tiling
import Inet.TransportLayer.TCPSegment

/-!
# When the bytes of a TCP connection have been sent

The congestion control of TCP Vegas and TCP Westwood keeps when a byte was sent first and last, and
how often. `TCPSegmentTransmitInfoList` keeps this for regions of sequence numbers, of which a
segment that is sent again changes some and splits others. Byte by byte it is the list of the times
at which the byte has been sent (`SendTimes`), and the regions say of this list what is asked for
(`get_refines`).

A byte is a position of the stream here; its sequence number is the position modulo `2 ^ 32`. What
is kept and what a call is about lie within less than `2 ^ 31` bytes (`InWindow`).
-/

namespace Inet.Tcp

open SerialNumber Tiling

/-- `TCPSegmentTransmitInfoList::Item`; `stop` is the field `end`. -/
structure TransmitItem where
  beg : UInt32
  stop : UInt32
  firstSentTime : SimTime
  lastSentTime : SimTime
  transmitCount : ℕ
  deriving DecidableEq, Repr

/-- What stops a call: an assertion, or the use of the end of a list as one of its items. -/
inductive TransmitInfoError
  | assertionFailed
  | endOfList
  deriving DecidableEq, Repr

namespace TransmitItem

/-- An item that is sent once more. -/
def sentAgain (i : TransmitItem) (sentTime : SimTime) : TransmitItem :=
  { i with
    firstSentTime := if i.firstSentTime > sentTime then sentTime else i.firstSentTime
    lastSentTime := if i.lastSentTime < sentTime then sentTime else i.lastSentTime
    transmitCount := i.transmitCount + 1 }

end TransmitItem

/-- `TCPSegmentTransmitInfoList`. -/
abbrev TCPSegmentTransmitInfoList :=
  List TransmitItem

namespace TCPSegmentTransmitInfoList

/-! ### The code -/

/-- What `set` does with the items from `beg` on. -/
def setFrom (beg stop : UInt32) (sentTime : SimTime) :
    List TransmitItem → Except TransmitInfoError (List TransmitItem)
  | [] => .ok (if beg ≠ stop then [⟨beg, stop, sentTime, sentTime, 1⟩] else [])
  | i :: rest =>
    if seqLE i.stop stop then
      if beg = i.beg then (setFrom i.stop stop sentTime rest).map (i.sentAgain sentTime :: ·)
      else .error .assertionFailed
    else if beg ≠ stop then
      if beg = i.beg then
        .ok (⟨beg, stop, min i.firstSentTime sentTime, max i.lastSentTime sentTime,
          i.transmitCount + 1⟩ :: { i with beg := stop } :: rest)
      else .error .assertionFailed
    else .ok (i :: rest)

/-- What `set` does with an interval inside the regions. -/
def setInside (regions : TCPSegmentTransmitInfoList) (beg stop : UInt32) (sentTime : SimTime) :
    Except TransmitInfoError TCPSegmentTransmitInfoList :=
  let before := regions.takeWhile (seqLE ·.stop beg)
  match regions.dropWhile (seqLE ·.stop beg) with
  | [] => .error .endOfList
  | i :: rest =>
    if ¬ seqLE i.beg beg then .error .assertionFailed
    else if beg ≠ i.beg then
      (setFrom beg stop sentTime ({ i with beg := beg } :: rest)).map
        (before ++ { i with stop := beg } :: ·)
    else (setFrom beg stop sentTime (i :: rest)).map (before ++ ·)

/-- The assertions at the beginning of `set`. -/
def EntryAssertions (regions : TCPSegmentTransmitInfoList) (beg stop : UInt32) : Prop :=
  seqLess beg stop ∧
    ∀ front ∈ regions.head?, ∀ back ∈ regions.getLast?, seqLE front.beg beg ∧ seqLE beg back.stop

instance (regions : TCPSegmentTransmitInfoList) (beg stop : UInt32) :
    Decidable (EntryAssertions regions beg stop) :=
  inferInstanceAs (Decidable (_ ∧ _))

/-- `TCPSegmentTransmitInfoList::set`. -/
def set (regions : TCPSegmentTransmitInfoList) (beg stop : UInt32) (sentTime : SimTime) :
    Except TransmitInfoError TCPSegmentTransmitInfoList :=
  if ¬ EntryAssertions regions beg stop then .error .assertionFailed
  else if regions = [] ∨ regions.getLast?.map TransmitItem.stop = some beg then
    .ok (regions ++ [⟨beg, stop, sentTime, sentTime, 1⟩])
  else if some stop = regions.head?.map TransmitItem.beg then
    .ok (⟨beg, stop, sentTime, sentTime, 1⟩ :: regions)
  else regions.setInside beg stop sentTime

/-- `TCPSegmentTransmitInfoList::get`. -/
def get : TCPSegmentTransmitInfoList → UInt32 → Option TransmitItem
  | [], _ => none
  | elem :: rest, seq =>
    if seqLess seq elem.beg then none
    else if seqLE elem.beg seq ∧ seqLess seq elem.stop then some elem
    else get rest seq

/-- `TCPSegmentTransmitInfoList::clearTo`. -/
def clearTo (regions : TCPSegmentTransmitInfoList) (endseq : UInt32) :
    TCPSegmentTransmitInfoList :=
  match regions.dropWhile (seqLE ·.stop endseq) with
  | [] => []
  | i :: rest => if seqLess i.beg endseq then { i with beg := endseq } :: rest else i :: rest

end TCPSegmentTransmitInfoList

/-! ### Byte by byte -/

/-- A call, with the bytes that it is about. -/
inductive TransmitCall
  | set (beg stop : ℕ) (sentTime : SimTime)
  | clearTo (endseq : ℕ)
  deriving DecidableEq, Repr

/-- The times at which a byte has been sent since it was last cleared. -/
abbrev SendTimes :=
  ℕ → List SimTime

namespace TransmitCall

/-- What a call does to the times of a byte. -/
def record (times : SendTimes) : TransmitCall → SendTimes
  | .set beg stop sentTime => fun q ↦
    if beg ≤ q ∧ q < stop then times q ++ [sentTime] else times q
  | .clearTo endseq => fun q ↦ if q < endseq then [] else times q

/-- The call to the code. -/
def apply (regions : TCPSegmentTransmitInfoList) :
    TransmitCall → Except TransmitInfoError TCPSegmentTransmitInfoList
  | .set beg stop sentTime => regions.set (wrap beg) (wrap stop) sentTime
  | .clearTo endseq => .ok (regions.clearTo (wrap endseq))

/-- The entry assertions of a call hold. -/
def Asserted (regions : TCPSegmentTransmitInfoList) : TransmitCall → Prop
  | .set beg stop _ => regions.EntryAssertions (wrap beg) (wrap stop)
  | .clearTo _ => True

/-- The positions that a call is about. -/
def positions : TransmitCall → List ℕ
  | .set beg stop _ => [beg, stop]
  | .clearTo endseq => [endseq]

/-- What is kept and what a call is about lie within less than `2 ^ 31` bytes. -/
def InWindow (times : SendTimes) (call : TransmitCall) : Prop :=
  ∃ w, (∀ p ∈ call.positions, w ≤ p ∧ p < w + 2 ^ 31) ∧
    ∀ q, times q ≠ [] → w ≤ q ∧ q + 1 < w + 2 ^ 31

/-- The times of all bytes after some calls. -/
def sendTimes (calls : List TransmitCall) : SendTimes :=
  calls.foldl record fun _ ↦ []

/-- The regions after some calls. -/
def regionsAfter (calls : List TransmitCall) :
    Except TransmitInfoError TCPSegmentTransmitInfoList :=
  calls.foldlM apply []

/-- Calls that meet the entry assertions, each within a window. -/
inductive Admissible : List TransmitCall → Prop
  | nil : Admissible []
  | snoc {calls : List TransmitCall} {call : TransmitCall} : Admissible calls →
      (∀ regions, regionsAfter calls = .ok regions → call.Asserted regions) →
      call.InWindow (sendTimes calls) → Admissible (calls ++ [call])

end TransmitCall

/-- An item says when a byte was sent first and last, and how often. -/
structure TransmitItem.Records (i : TransmitItem) (times : List SimTime) : Prop where
  firstSentTime : IsLeast {t | t ∈ times} i.firstSentTime
  lastSentTime : IsGreatest {t | t ∈ times} i.lastSentTime
  transmitCount : i.transmitCount = times.length

/-- The regions are not empty, and follow each other without gaps and in order. -/
structure TCPSegmentTransmitInfoList.WellFormed (regions : TCPSegmentTransmitInfoList) : Prop where
  nonempty : ∀ i ∈ regions, seqLess i.beg i.stop
  contiguous : regions.IsChain fun i j ↦ i.stop = j.beg
  sorted : regions.Pairwise fun i j ↦ seqLess i.beg j.beg ∧ seqLE i.stop j.beg

/-! ### Items -/

namespace TransmitItem

variable {i : TransmitItem} {times times' : SendTimes} {l : List SimTime} {t : SimTime}
  {x y n q : ℕ}

theorem Records.ne_nil (h : i.Records l) : l ≠ [] :=
  List.ne_nil_of_mem h.firstSentTime.1

/-- A byte that is sent once more. -/
theorem Records.concat (h : i.Records l) (beg stop : UInt32) (t : SimTime) :
    Records ⟨beg, stop, min i.firstSentTime t, max i.lastSentTime t, i.transmitCount + 1⟩
      (l ++ [t]) := by
  obtain ⟨hfirst, hlast, hcount⟩ := h
  refine ⟨⟨?_, fun u hu ↦ ?_⟩, ⟨?_, fun u hu ↦ ?_⟩, ?_⟩
  · rcases min_choice i.firstSentTime t with heq | heq
    · exact List.mem_append_left _ (heq.symm ▸ hfirst.1)
    · exact List.mem_append_right _ (List.mem_singleton.2 heq)
  · rcases List.mem_append.1 hu with hu | hu
    · exact (min_le_left _ _).trans (hfirst.2 hu)
    · exact (List.mem_singleton.1 hu).symm ▸ min_le_right _ _
  · rcases max_choice i.lastSentTime t with heq | heq
    · exact List.mem_append_left _ (heq.symm ▸ hlast.1)
    · exact List.mem_append_right _ (List.mem_singleton.2 heq)
  · rcases List.mem_append.1 hu with hu | hu
    · exact (hlast.2 hu).trans (le_max_left _ _)
    · exact (List.mem_singleton.1 hu).symm ▸ le_max_right _ _
  · rw [List.length_append, ← hcount]
    rfl

theorem sentAgain_eq (i : TransmitItem) (t : SimTime) :
    i.sentAgain t =
      ⟨i.beg, i.stop, min i.firstSentTime t, max i.lastSentTime t, i.transmitCount + 1⟩ := by
  rw [sentAgain, mk.injEq]
  refine ⟨rfl, rfl, ?_, ?_, rfl⟩
  · rcases lt_or_ge t i.firstSentTime with hlt | hle
    · rw [if_pos hlt, min_eq_right hlt.le]
    · rw [if_neg hle.not_gt, min_eq_left hle]
  · rcases lt_or_ge i.lastSentTime t with hlt | hle
    · rw [if_pos hlt, max_eq_right hlt.le]
    · rw [if_neg hle.not_gt, max_eq_left hle]

/-- A byte that is sent for the first time. -/
theorem records_single (beg stop : UInt32) (t : SimTime) : Records ⟨beg, stop, t, t, 1⟩ [t] := by
  refine ⟨⟨List.mem_singleton_self t, fun u hu ↦ ?_⟩, ⟨List.mem_singleton_self t, fun u hu ↦ ?_⟩,
    rfl⟩
  · exact (List.mem_singleton.1 hu).ge
  · exact (List.mem_singleton.1 hu).le

/-- An item is about the bytes from one position to another, and records their times. -/
structure At (times : SendTimes) (i : TransmitItem) (x y : ℕ) : Prop where
  beg : i.beg = wrap x
  stop : i.stop = wrap y
  records : ∀ q, x ≤ q → q < y → i.Records (times q)

/-- Part of an item. -/
theorem At.part (h : i.At times x y) {m : ℕ} (hx : x ≤ n) (hy : m ≤ y)
    (htimes : ∀ q, n ≤ q → q < m → times' q = times q) :
    At times' { i with beg := wrap n, stop := wrap m } n m :=
  ⟨rfl, rfl, fun q hn hm ↦ by
    rw [htimes q hn hm]
    have hrec := h.records q (hx.trans hn) (hm.trans_le hy)
    exact ⟨hrec.1, hrec.2, hrec.3⟩⟩

theorem At.congr (h : i.At times x y) (htimes : ∀ q, x ≤ q → q < y → times' q = times q) :
    i.At times' x y :=
  ⟨h.beg, h.stop, fun q hx hy ↦ by
    rw [htimes q hx hy]
    exact h.records q hx hy⟩

/-- An item that is sent once more. -/
theorem At.again (h : i.At times x y) {m : ℕ} (hm : m ≤ y)
    (htimes : ∀ q, x ≤ q → q < m → times' q = times q ++ [t]) :
    At times' ⟨wrap x, wrap m, min i.firstSentTime t, max i.lastSentTime t, i.transmitCount + 1⟩
      x m :=
  ⟨rfl, rfl, fun q hx hlt ↦ by
    rw [htimes q hx hlt]
    exact (h.records q hx (hlt.trans_le hm)).concat _ _ t⟩

/-- A new item. -/
theorem at_single (htimes : ∀ q, x ≤ q → q < y → times q = [t]) :
    At times ⟨wrap x, wrap y, t, t, 1⟩ x y :=
  ⟨rfl, rfl, fun q hx hy ↦ by
    rw [htimes q hx hy]
    exact records_single _ _ t⟩

end TransmitItem

/-! ### Calls -/

namespace TCPSegmentTransmitInfoList

variable {regions : TCPSegmentTransmitInfoList} {times times' : SendTimes} {lo hi m n q : ℕ}
  {t : SimTime}

/-- The regions tile the bytes from `lo` to `hi`, and record their times. -/
def Covers (times : SendTimes) (lo hi : ℕ) (regions : TCPSegmentTransmitInfoList) : Prop :=
  Tiles (TransmitItem.At times) lo hi regions

theorem Covers.congr (h : Covers times lo hi regions)
    (htimes : ∀ q, lo ≤ q → q < hi → times' q = times q) : Covers times' lo hi regions := by
  have hmap : Covers times' lo hi (regions.map id) := Tiles.map h fun i x y hi' hx _ hy ↦
    hi'.congr fun q hq hq' ↦ htimes q (hx.trans hq) (hq'.trans_le hy)
  rwa [List.map_id] at hmap

/-- **The items from the first byte on**: those that end in the interval are sent again, the one in
which it ends is split, and what lies behind all of them is new. -/
theorem setFrom_spec (h : Covers times m hi regions) (hn : m ≤ n) (hwindow : n < m + 2 ^ 31)
    (hwindow' : hi < m + 2 ^ 31) (hnew : ∀ q, hi ≤ q → times q = [])
    (htimes : ∀ q, m ≤ q → times' q = if q < n then times q ++ [t] else times q) :
    ∃ regions', setFrom (wrap m) (wrap n) t regions = .ok regions' ∧
      Covers times' m (max hi n) regions' := by
  induction h with
  | nil m =>
    rw [setFrom, max_eq_right hn]
    by_cases heq : m = n
    · refine ⟨[], ?_, heq ▸ .nil m⟩
      rw [heq, if_neg (not_not.2 rfl)]
    · have hlt : m < n := lt_of_le_of_ne hn heq
      refine ⟨_, rfl, ?_⟩
      rw [if_pos ((wrap_eq_wrap ⟨by omega, by omega⟩).not.2 heq)]
      refine .single (TransmitItem.at_single fun q hq hq' ↦ ?_) hlt
      rw [htimes q hq, if_pos hq', hnew q hq]
      rfl
  | @cons m d hi i rest hi' hlt hrest ih =>
    have hle := hrest.le
    rw [setFrom, hi'.beg, hi'.stop]
    by_cases hd : d ≤ n
    · -- the item lies in the interval
      obtain ⟨regions', heq, hcovers⟩ := ih hd (by omega) (by omega) hnew
        fun q hq ↦ htimes q (hlt.le.trans hq)
      refine ⟨i.sentAgain t :: regions', ?_, .cons ?_ hlt hcovers⟩
      · rw [if_pos ((seqLE_wrap ⟨by omega, by omega⟩).2 hd), if_pos rfl, heq]
        rfl
      · rw [TransmitItem.sentAgain_eq, hi'.beg, hi'.stop]
        refine hi'.again le_rfl fun q hq hq' ↦ ?_
        rw [htimes q hq, if_pos (hq'.trans_le hd)]
    · have hnd : n < d := not_le.1 hd
      rw [if_neg ((seqLE_wrap ⟨by omega, by omega⟩).not.2 hd), max_eq_left (hnd.le.trans hle)]
      have hbehind : Covers times' d hi rest := Covers.congr hrest fun q hq _ ↦ by
        rw [htimes q (by omega), if_neg (by omega)]
      by_cases heq : m = n
      · refine ⟨i :: rest, ?_, .cons (hi'.congr fun q hq hq' ↦ ?_) hlt hbehind⟩
        · rw [heq, if_neg (not_not.2 rfl)]
        · rw [htimes q hq, if_neg (by omega)]
      · -- the interval ends in the item
        have hmn : m < n := lt_of_le_of_ne hn heq
        refine ⟨_, ?_, .cons (hi'.again (t := t) hnd.le fun q hq hq' ↦ ?_) hmn
          (.cons (hi'.part hmn.le le_rfl fun q hq _ ↦ ?_) hnd hbehind)⟩
        · rw [if_pos ((wrap_eq_wrap ⟨by omega, by omega⟩).not.2 heq), if_pos rfl]
        · rw [htimes q hq, if_pos hq']
        · rw [htimes q (by omega), if_neg (by omega)]

/-- The items that end at or before a byte are passed. -/
theorem Covers.exists_cut (h : Covers times lo hi regions) (hn : lo ≤ n) (hlo : n < lo + 2 ^ 31)
    (hhi : hi < lo + 2 ^ 31) :
    ∃ b, b ≤ n ∧ Covers times lo b (regions.takeWhile (seqLE ·.stop (wrap n))) ∧
      (regions.dropWhile (seqLE ·.stop (wrap n)) = [] ∧ b = hi ∨
        ∃ i rest d, regions.dropWhile (seqLE ·.stop (wrap n)) = i :: rest ∧ i.At times b d ∧ n < d ∧
          Covers times d hi rest) := by
  refine Tiles.exists_cut h hn fun i x y hat hx hlt hy ↦ ?_
  rw [decide_eq_true_eq, hat.stop]
  exact seqLE_wrap ⟨by omega, by omega⟩

/-- **An interval inside the regions** is set. -/
theorem setInside_spec (h : Covers times lo hi regions) (hm : lo ≤ m) (hmhi : m < hi) (hmn : m ≤ n)
    (hwindow : n < lo + 2 ^ 31) (hwindow' : hi < lo + 2 ^ 31) (hnew : ∀ q, hi ≤ q → times q = [])
    (htimes : ∀ q, times' q = if m ≤ q ∧ q < n then times q ++ [t] else times q) :
    ∃ regions', regions.setInside (wrap m) (wrap n) t = .ok regions' ∧
      Covers times' lo (max hi n) regions' := by
  have hbehind : ∀ q, m ≤ q → times' q = if q < n then times q ++ [t] else times q := fun q hq ↦ by
    rw [htimes q]
    simp only [hq, true_and]
  obtain ⟨b, hb, hbefore, ⟨-, rfl⟩ | ⟨i, rest, d, hdrop, hat, hd, hrest⟩⟩ :=
    h.exists_cut hm (by omega) hwindow'
  · exact absurd hmhi hb.not_gt
  have hlob := hbefore.le
  have hdhi := hrest.le
  have hleft : Covers times' lo b (regions.takeWhile (seqLE ·.stop (wrap m))) :=
    hbefore.congr fun q _ hq ↦ by rw [htimes q, if_neg (by omega)]
  rw [setInside, hdrop]
  simp only
  rw [if_neg (not_not.2 (hat.beg ▸ (seqLE_wrap ⟨by omega, by omega⟩).2 hb)), hat.beg]
  rcases eq_or_ne m b with rfl | heq
  · -- the interval starts where the item does
    obtain ⟨regions', hset, hcovers⟩ := setFrom_spec (.cons hat hd hrest) hmn (by omega) (by omega)
      hnew hbehind
    refine ⟨_, ?_, Tiles.append hleft hcovers⟩
    rw [if_neg (not_not.2 rfl), hset]
    rfl
  · -- the item is split
    have hlt : b < m := lt_of_le_of_ne hb fun h ↦ heq h.symm
    obtain ⟨regions', hset, hcovers⟩ := setFrom_spec (m := m)
      (.cons (hat.part hb le_rfl fun _ _ _ ↦ rfl) hd hrest) hmn (by omega) (by omega) hnew hbehind
    have hpart : TransmitItem.At times' { i with beg := wrap b, stop := wrap m } b m :=
      hat.part le_rfl hd.le fun q _ hq ↦ by rw [htimes q, if_neg (by omega)]
    refine ⟨_, ?_, Tiles.append hleft (.cons hpart hlt hcovers)⟩
    rw [← hat.stop] at hset
    rw [if_pos ((wrap_eq_wrap ⟨by omega, by omega⟩).not.2 heq), hset]
    rfl

/-- What is covered has been sent. -/
theorem Covers.ne_nil (h : Covers times lo hi regions) (hlo : lo ≤ q) (hhi : q < hi) :
    times q ≠ [] := by
  induction h with
  | nil => omega
  | @cons m d hi i rest hat hlt hrest ih =>
    rcases Nat.lt_or_ge q d with hq | hq
    · exact (hat.records q hlo hq).ne_nil
    · exact ih hq hhi

theorem Covers.head? (h : Covers times lo hi regions) (hne : regions ≠ []) :
    ∃ front, regions.head? = some front ∧ front.beg = wrap lo := by
  cases h with
  | nil => exact absurd rfl hne
  | cons hat => exact ⟨_, rfl, hat.beg⟩

theorem Covers.getLast? (h : Covers times lo hi regions) (hne : regions ≠ []) :
    ∃ back, regions.getLast? = some back ∧ back.stop = wrap hi := by
  rcases List.eq_nil_or_concat' regions with rfl | ⟨l, back, rfl⟩
  · exact absurd rfl hne
  · obtain ⟨b, -, hat, -⟩ := tiles_concat.1 h
    exact ⟨back, List.getLast?_concat, hat.stop⟩

theorem Covers.lt (h : Covers times lo hi regions) (hne : regions ≠ []) : lo < hi := by
  cases h with
  | nil => exact absurd rfl hne
  | cons _ hlt hrest => exact hlt.trans_le (Tiles.le hrest)

/-- The regions record the times of all bytes, and there are less than `2 ^ 31` of them. -/
structure Holds (times : SendTimes) (lo hi : ℕ) (regions : TCPSegmentTransmitInfoList) : Prop where
  covers : Covers times lo hi regions
  window : hi < lo + 2 ^ 31
  outside : ∀ q, q < lo ∨ hi ≤ q → times q = []

/-- A window in which the regions lie. -/
theorem Holds.window_le (h : Holds times lo hi regions) (hne : regions ≠ []) {w : ℕ}
    (hkept : ∀ q, times q ≠ [] → w ≤ q ∧ q + 1 < w + 2 ^ 31) : w ≤ lo ∧ hi < w + 2 ^ 31 := by
  have hlt := h.covers.lt hne
  have hfirst := hkept lo (h.covers.ne_nil le_rfl hlt)
  have hlast := hkept (hi - 1) (h.covers.ne_nil (by omega) (by omega))
  omega

/-- **A call of `set`** that meets the entry assertions does not fail, and is recorded. -/
theorem Holds.set (h : Holds times lo hi regions)
    (hassert : regions.EntryAssertions (wrap m) (wrap n))
    (hin : (TransmitCall.set m n t).InWindow times) :
    ∃ regions' lo' hi', regions.set (wrap m) (wrap n) t = .ok regions' ∧
      Holds ((TransmitCall.set m n t).record times) lo' hi' regions' := by
  obtain ⟨w, hpositions, hkept⟩ := hin
  obtain ⟨hm, hn⟩ : (w ≤ m ∧ m < w + 2 ^ 31) ∧ w ≤ n ∧ n < w + 2 ^ 31 :=
    ⟨hpositions m (by simp [TransmitCall.positions]),
      hpositions n (by simp [TransmitCall.positions])⟩
  have hmn : m < n := (seqLess_wrap ⟨by omega, by omega⟩).1 hassert.1
  have hrecord (q : ℕ) : (TransmitCall.set m n t).record times q =
      if m ≤ q ∧ q < n then times q ++ [t] else times q := rfl
  rw [TCPSegmentTransmitInfoList.set, if_neg (not_not.2 hassert)]
  rcases eq_or_ne regions [] with rfl | hne
  · -- the first segment
    have heq : lo = hi := tiles_nil.1 h.covers
    have hnone (q : ℕ) : times q = [] := h.outside q (by omega)
    refine ⟨_, m, n, if_pos (.inl rfl), .single (TransmitItem.at_single fun q hq hq' ↦ ?_) hmn,
      by omega, fun q hq ↦ ?_⟩
    · rw [hrecord, if_pos ⟨hq, hq'⟩, hnone]
      rfl
    · rw [hrecord, if_neg (by omega), hnone]
  obtain ⟨hlo, hhi⟩ := h.window_le hne hkept
  have hlt := h.covers.lt hne
  obtain ⟨front, hfront, hbeg⟩ := h.covers.head? hne
  obtain ⟨back, hback, hstop⟩ := h.covers.getLast? hne
  obtain ⟨hfrom, hto⟩ := hassert.2 front hfront back hback
  rw [hbeg, seqLE_wrap ⟨by omega, by omega⟩] at hfrom
  rw [hstop, seqLE_wrap ⟨by omega, by omega⟩] at hto
  have houtside (q : ℕ) (hq : q < lo ∨ max hi n ≤ q) :
      (TransmitCall.set m n t).record times q = [] := by
    rw [hrecord, if_neg (by omega), h.outside q (by omega)]
  rw [hfront, hback, Option.map_some, Option.map_some, hstop, hbeg]
  rcases eq_or_ne hi m with rfl | hne'
  · -- the next segment
    refine ⟨_, lo, n, if_pos (.inr rfl), ?_, by omega, fun q hq ↦ houtside q (by omega)⟩
    refine Tiles.append (h.covers.congr fun q _ hq ↦ ?_)
      (.single (TransmitItem.at_single fun q hq hq' ↦ ?_) hmn)
    · rw [hrecord, if_neg (by omega)]
    · rw [hrecord, if_pos ⟨hq, hq'⟩, h.outside q (by omega)]
      rfl
  · -- a segment that is sent again
    have hlast : ¬ (regions = [] ∨ some (wrap hi) = some (wrap m)) := by
      rintro (hnil | hsome)
      exacts [hne hnil, hne' ((wrap_eq_wrap ⟨by omega, by omega⟩).1 (Option.some.inj hsome))]
    have hfirst : some (wrap n) ≠ some (wrap lo) := fun hsome ↦ by
      have := (wrap_eq_wrap ⟨by omega, by omega⟩).1 (Option.some.inj hsome)
      omega
    obtain ⟨regions', hset, hcovers⟩ := setInside_spec (t := t) h.covers hfrom (by omega) hmn.le
      (by omega) h.window (fun q hq ↦ h.outside q (.inr hq)) hrecord
    exact ⟨regions', lo, max hi n, by rw [if_neg hlast, if_neg hfirst, hset], hcovers, by omega,
      houtside⟩

/-- **A call of `clearTo`** is recorded. -/
theorem Holds.clearTo (h : Holds times lo hi regions)
    (hin : (TransmitCall.clearTo n).InWindow times) :
    ∃ lo' hi', Holds ((TransmitCall.clearTo n).record times) lo' hi'
      (regions.clearTo (wrap n)) := by
  obtain ⟨w, hpositions, hkept⟩ := hin
  have hn : w ≤ n ∧ n < w + 2 ^ 31 := hpositions n (by simp [TransmitCall.positions])
  have hrecord (q : ℕ) : (TransmitCall.clearTo n).record times q =
      if q < n then [] else times q := rfl
  rcases eq_or_ne regions [] with rfl | hne
  · have heq : lo = hi := tiles_nil.1 h.covers
    refine ⟨lo, hi, heq ▸ .nil lo, h.window, fun q hq ↦ ?_⟩
    rw [hrecord, h.outside q hq, ite_self]
  obtain ⟨hlo, hhi⟩ := h.window_le hne hkept
  rw [TCPSegmentTransmitInfoList.clearTo]
  rcases Nat.lt_or_ge n lo with hbefore | hafter
  · -- nothing is cleared
    obtain ⟨i, rest, rfl⟩ := List.exists_cons_of_ne_nil hne
    obtain ⟨d, hat, hlt, hrest⟩ := tiles_cons.1 h.covers
    have hdhi := hrest.le
    have hstop : ¬ seqLE i.stop (wrap n) := by
      rw [hat.stop, seqLE_wrap ⟨by omega, by omega⟩]
      omega
    have hbeg : ¬ seqLess i.beg (wrap n) := by
      rw [hat.beg, seqLess_wrap ⟨by omega, by omega⟩]
      omega
    refine ⟨lo, hi, ?_, h.window, fun q hq ↦ ?_⟩
    · rw [List.dropWhile_cons_of_neg (by simpa using hstop)]
      simp only [hbeg, if_false]
      exact h.covers.congr fun q hq _ ↦ by rw [hrecord, if_neg (by omega)]
    · rw [hrecord, h.outside q hq, ite_self]
  · obtain ⟨b, hb, hbefore, ⟨hdrop, rfl⟩ | ⟨i, rest, d, hdrop, hat, hd, hrest⟩⟩ :=
      h.covers.exists_cut hafter (by omega) h.window
    · -- everything is cleared
      rw [hdrop]
      refine ⟨b, b, .nil b, by omega, fun q _ ↦ ?_⟩
      rw [hrecord]
      split_ifs
      exacts [rfl, h.outside q (by omega)]
    · have hlob := hbefore.le
      have hdhi := hrest.le
      have hwindow := h.window
      have hbehind : Covers ((TransmitCall.clearTo n).record times) d hi rest :=
        Covers.congr hrest fun q hq _ ↦ by rw [hrecord, if_neg (by omega)]
      rw [hdrop]
      simp only [hat.beg, seqLess_wrap (show Near b n from ⟨by omega, by omega⟩)]
      refine ⟨n, hi, ?_, by omega, fun q hq ↦ ?_⟩
      · have hsame (q : ℕ) (hq : n ≤ q) (_ : q < d) :
            (TransmitCall.clearTo n).record times q = times q := by
          rw [hrecord, if_neg (by omega)]
        have hpart := hat.part hb le_rfl hsame
        rw [← hat.stop] at hpart
        rcases eq_or_ne b n with rfl | hne'
        · rw [if_neg (lt_irrefl b)]
          exact .cons (hat.congr fun q hq _ ↦ by rw [hrecord, if_neg (by omega)]) hd hbehind
        · rw [if_pos (lt_of_le_of_ne hb hne')]
          exact .cons hpart hd hbehind
      · rw [hrecord]
        split_ifs
        exacts [rfl, h.outside q (by omega)]

/-! ### Queries -/

/-- The item of a byte that has been sent. -/
theorem Covers.get (h : Covers times lo hi regions) (hwindow : hi < lo + 2 ^ 31) (hlo : lo ≤ q)
    (hhi : q < hi) : ∃ i, regions.get (wrap q) = some i ∧ i.Records (times q) := by
  induction h with
  | nil => omega
  | @cons m d hi i rest hat hlt hrest ih =>
    have hdhi := hrest.le
    have hin : seqLE (wrap m) (wrap q) ∧ seqLess (wrap q) (wrap d) ↔ m ≤ q ∧ q < d := by
      rw [seqLE_wrap ⟨by omega, by omega⟩, seqLess_wrap ⟨by omega, by omega⟩]
    rw [TCPSegmentTransmitInfoList.get, hat.beg, hat.stop,
      if_neg ((seqLess_wrap ⟨by omega, by omega⟩).not.2 (by omega))]
    rcases Nat.lt_or_ge q d with hq | hq
    · exact ⟨i, if_pos (hin.2 ⟨hlo, hq⟩), hat.records q hlo hq⟩
    · rw [if_neg (hin.not.2 (by omega))]
      exact ih (by omega) hq hhi

/-- A sequence number with an item is that of a byte that has been sent. -/
theorem Covers.exists_of_get (h : Covers times lo hi regions) (hwindow : hi < lo + 2 ^ 31)
    {seq : UInt32} {i : TransmitItem} (hget : regions.get seq = some i) :
    ∃ q, lo ≤ q ∧ q < hi ∧ wrap q = seq := by
  induction h with
  | nil => cases hget
  | @cons m d hi j rest hat hlt hrest ih =>
    have hdhi := hrest.le
    rw [TCPSegmentTransmitInfoList.get] at hget
    split_ifs at hget with hbefore hin
    · -- the position at or behind the beginning of the item
      have hseq := wrap_add_sub m seq
      have hle := hin.1
      rw [hat.beg, seqLE] at hle
      refine ⟨m + (seq - wrap m).toNat, by omega, ?_, hseq⟩
      have hlt' := hin.2
      rw [hat.stop, ← hseq, seqLess_wrap ⟨by omega, by omega⟩] at hlt'
      omega
    · obtain ⟨q, hq, hq', hwrap⟩ := ih (by omega) hget
      exact ⟨q, by omega, hq', hwrap⟩

/-- Regions that tile an interval are well formed. -/
theorem Covers.wellFormed (h : Covers times lo hi regions) (hwindow : hi < lo + 2 ^ 31) :
    regions.WellFormed := by
  induction h with
  | nil => exact ⟨List.forall_mem_nil _, .nil, .nil⟩
  | @cons m d hi i rest hat hlt hrest ih =>
    have hdhi := hrest.le
    obtain ⟨hnonempty, hcontiguous, hsorted⟩ := ih (by omega)
    refine ⟨List.forall_mem_cons.2 ⟨?_, hnonempty⟩, ?_,
      List.pairwise_cons.2 ⟨fun j hj ↦ ?_, hsorted⟩⟩
    · rw [hat.beg, hat.stop, seqLess_wrap ⟨by omega, by omega⟩]
      exact hlt
    · refine List.isChain_cons.2 ⟨fun j hj ↦ ?_, hcontiguous⟩
      obtain ⟨front, hfront, hbeg⟩ :=
        Covers.head? hrest (List.ne_nil_of_mem (List.mem_of_mem_head? hj))
      rw [hfront, Option.mem_some_iff] at hj
      rw [← hj, hat.stop, hbeg]
    · obtain ⟨x, y, hat', hx, hxy, hy⟩ := Tiles.exists_of_mem hrest hj
      rw [hat.beg, hat.stop, hat'.beg, seqLess_wrap ⟨by omega, by omega⟩,
        seqLE_wrap ⟨by omega, by omega⟩]
      omega

/-! ### Runs -/

theorem holds_nil : Holds (fun _ ↦ []) 0 0 [] :=
  ⟨.nil 0, by omega, fun _ _ ↦ rfl⟩

/-- **All calls** succeed, and are recorded. -/
theorem holds_of_admissible {calls : List TransmitCall} (h : TransmitCall.Admissible calls) :
    ∃ regions lo hi, TransmitCall.regionsAfter calls = .ok regions ∧
      Holds (TransmitCall.sendTimes calls) lo hi regions := by
  induction h with
  | nil => exact ⟨[], 0, 0, rfl, holds_nil⟩
  | @snoc calls call _ hassert hin ih =>
    obtain ⟨regions, lo, hi, heq, hholds⟩ := ih
    have hafter : TransmitCall.regionsAfter (calls ++ [call]) = call.apply regions := by
      rw [TransmitCall.regionsAfter, List.foldlM_append]
      rw [TransmitCall.regionsAfter] at heq
      rw [heq]
      show call.apply regions >>= pure = _
      exact bind_pure _
    have htimes : TransmitCall.sendTimes (calls ++ [call]) =
        call.record (TransmitCall.sendTimes calls) := List.foldl_concat _ _ _ _
    rw [hafter, htimes]
    rcases call with ⟨beg, stop, sentTime⟩ | endseq
    · obtain ⟨regions', lo', hi', hset, hholds'⟩ := hholds.set (hassert regions heq) hin
      exact ⟨regions', lo', hi', hset, hholds'⟩
    · obtain ⟨lo', hi', hholds'⟩ := hholds.clearTo hin
      exact ⟨_, lo', hi', rfl, hholds'⟩

/-- **The regions** of any admissible calls: no assertion fails, the regions are well formed, the
item of a byte that has been sent records its times, and there is no item for other numbers. -/
theorem get_refines {calls : List TransmitCall} (h : TransmitCall.Admissible calls) :
    ∃ regions, TransmitCall.regionsAfter calls = .ok regions ∧ regions.WellFormed ∧
      (∀ q, TransmitCall.sendTimes calls q ≠ [] →
        ∃ i, regions.get (wrap q) = some i ∧ i.Records (TransmitCall.sendTimes calls q)) ∧
      ∀ seq, (∀ q, wrap q = seq → TransmitCall.sendTimes calls q = []) →
        regions.get seq = none := by
  obtain ⟨regions, lo, hi, heq, hholds⟩ := holds_of_admissible h
  refine ⟨regions, heq, hholds.covers.wellFormed hholds.window, fun q hq ↦ ?_, fun seq hseq ↦ ?_⟩
  · have hin : lo ≤ q ∧ q < hi := by
      by_contra hout
      exact hq (hholds.outside q (by omega))
    exact hholds.covers.get hholds.window hin.1 hin.2
  · refine Option.eq_none_iff_forall_not_mem.2 fun i hi' ↦ ?_
    obtain ⟨q, hlo, hhi, hwrap⟩ := hholds.covers.exists_of_get hholds.window hi'
    exact hholds.covers.ne_nil hlo hhi (hseq q hwrap)

/-- A segment whose sequence numbers wrap around, and a part of it that is sent again. -/
def sentTwice : List TransmitCall :=
  [.set 4294967196 4294967396 1, .set 4294967246 4294967346 2]

theorem admissible_sentTwice : TransmitCall.Admissible sentTwice := by
  have hfirst : TransmitCall.Admissible ([] ++ [.set 4294967196 4294967396 1]) := by
    refine .snoc .nil (fun regions h ↦ ?_) ?_
    · obtain rfl := Except.ok.inj h
      show EntryAssertions _ _ _
      decide +kernel
    · exact ⟨4294967196, by simp [TransmitCall.positions], fun q h ↦ absurd rfl h⟩
  refine .snoc hfirst (fun regions h ↦ ?_) ?_
  · obtain rfl := Except.ok.inj h
    show EntryAssertions _ _ _
    decide +kernel
  · refine ⟨4294967196, by simp [TransmitCall.positions], fun q h ↦ ?_⟩
    have hq : 4294967196 ≤ q ∧ q < 4294967396 := by
      by_contra hout
      exact h (if_neg hout)
    omega

theorem get_refines_sentTwice :
    ∃ regions, TransmitCall.regionsAfter sentTwice = .ok regions ∧ ∃ i, regions.get 0 = some i ∧
      i.Records [1, 2] := by
  obtain ⟨regions, heq, -, hget, -⟩ := get_refines admissible_sentTwice
  exact ⟨regions, heq, hget 4294967296 (by decide +kernel)⟩

end TCPSegmentTransmitInfoList

end Inet.Tcp
