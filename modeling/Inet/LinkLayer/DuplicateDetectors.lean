import Inet.Foundations.OrderedMap
import Inet.LinkLayer.Ieee80211Frame
import Mathlib.Data.Prod.Lex

/-!
# Numbering frames and detecting duplicates

A detector numbers the frames that its station sends (`assignSequenceNumber`), and recognises the
copies of frames that its station receives (`isDuplicate`). `NonQoSDuplicateDetector` has one
counter, and one cache of what was last seen from a transmitter. `QoSDuplicateDetector` has a
counter and a cache for each TID as well.
-/

namespace Inet

/-- What is raised, and the use of an iterator that does not stand for an entry. -/
inductive DuplicateDetectorError
  | assertionFailed
  | endDereferenced
  deriving DecidableEq, Repr

/-- `SeqVal`. -/
structure SeqVal where
  seqNum : ℕ
  fragNum : ℤ
  deriving DecidableEq, Repr

/-- What is compared of a frame. -/
def Ieee80211Header.seqVal (frame : Ieee80211Header) : SeqVal where
  seqNum := frame.sequenceNumber
  fragNum := frame.fragmentNumber

/-- `LegacyDuplicateDetector`. -/
structure LegacyDuplicateDetector where
  lastSeenSeqNumCache : OrderedMap MACAddress SeqVal := ∅
  lastSeqNum : ℕ := 0

/-- A frame is what was seen last of its transmitter. -/
def LegacyDuplicateDetector.see (frame : Ieee80211Header) (d : LegacyDuplicateDetector) :
    LegacyDuplicateDetector :=
  { d with lastSeenSeqNumCache := d.lastSeenSeqNumCache.insert frame.transmitterAddress frame.seqVal }

/-- `LegacyDuplicateDetector::isDuplicate`. -/
def LegacyDuplicateDetector.isDuplicate (frame : Ieee80211Header) (d : LegacyDuplicateDetector) :
    Except DuplicateDetectorError (Bool × LegacyDuplicateDetector) :=
  if frame.type = .dataWithQos then .error .assertionFailed
  else
    match d.lastSeenSeqNumCache.find frame.transmitterAddress with
    | none => .ok (false, d.see frame)
    | some seqVal =>
      if seqVal = frame.seqVal ∧ frame.retry = true then .ok (true, d) else .ok (false, d.see frame)

/-- `NonQoSDuplicateDetector`. -/
structure NonQoSDuplicateDetector extends LegacyDuplicateDetector where
  lastSentSeqNums : OrderedMap MACAddress ℕ := ∅

/-- A number has been given to a frame for an address. -/
def NonQoSDuplicateDetector.give (lastSeqNum : ℕ) (address : MACAddress) (d : NonQoSDuplicateDetector) :
    NonQoSDuplicateDetector :=
  { d with
    lastSeqNum := lastSeqNum
    lastSentSeqNums := d.lastSentSeqNums.insert address lastSeqNum }

/-- `NonQoSDuplicateDetector::assignSequenceNumber`. -/
def NonQoSDuplicateDetector.assignSequenceNumber (frame : Ieee80211Header) (d : NonQoSDuplicateDetector) :
    Except DuplicateDetectorError (Ieee80211Header × NonQoSDuplicateDetector) :=
  if frame.type = .dataWithQos then .error .assertionFailed
  else
    let address := frame.receiverAddress
    let lastSeqNum := (d.lastSeqNum + 1) % 4096
    -- a number that is not the last one sent to the same address
    let lastSeqNum :=
      if d.lastSentSeqNums.find address = some lastSeqNum then (lastSeqNum + 1) % 4096 else lastSeqNum
    .ok ({ frame with sequenceNumber := lastSeqNum }, d.give lastSeqNum address)

/-- The detector goes on with what `isDuplicate` has seen. -/
def NonQoSDuplicateDetector.isDuplicate (frame : Ieee80211Header) (d : NonQoSDuplicateDetector) :
    Except DuplicateDetectorError (Bool × NonQoSDuplicateDetector) := do
  let (duplicate, seen) ← d.toLegacyDuplicateDetector.isDuplicate frame
  return (duplicate, { d with toLegacyDuplicateDetector := seen })

section

variable {frame : Ieee80211Header}

/-- What was last seen of the transmitter decides, and the frame is what is seen last then. -/
theorem LegacyDuplicateDetector.isDuplicate_spec (htype : frame.type ≠ .dataWithQos)
    (d : LegacyDuplicateDetector) :
    ∃ seen, d.isDuplicate frame = .ok (decide (d.lastSeenSeqNumCache.find frame.transmitterAddress =
        some frame.seqVal ∧ frame.retry = true), seen) ∧
      ∀ a, seen.lastSeenSeqNumCache.find a =
        if a = frame.transmitterAddress then some frame.seqVal else d.lastSeenSeqNumCache.find a := by
  rw [isDuplicate, if_neg htype]
  rcases hfind : d.lastSeenSeqNumCache.find frame.transmitterAddress with _ | seqVal
  · exact ⟨d.see frame, by simp, fun a ↦ OrderedMap.find_insert _ _ _ a⟩
  · by_cases hsame : seqVal = frame.seqVal ∧ frame.retry = true
    · obtain ⟨rfl, hretry⟩ := hsame
      refine ⟨d, by simp [hretry], fun a ↦ ?_⟩
      split_ifs with ha
      · rw [ha, hfind]
      · rfl
    · exact ⟨d.see frame, by simp [hsame], fun a ↦ OrderedMap.find_insert _ _ _ a⟩

namespace NonQoSDuplicateDetector

variable {d : NonQoSDuplicateDetector} {total : ℕ}

variable (frame) in
/-- The counter skips the number that was sent last to the same address. -/
theorem assignSequenceNumber_skip (htype : frame.type ≠ .dataWithQos)
    (htotal : d.lastSeqNum = total % 4096)
    (hsame : d.lastSentSeqNums.find frame.receiverAddress = some ((total + 1) % 4096)) :
    d.assignSequenceNumber frame = .ok ({ frame with sequenceNumber := (total + 2) % 4096 },
      d.give ((total + 2) % 4096) frame.receiverAddress) := by
  have hnext : (d.lastSeqNum + 1) % 4096 = (total + 1) % 4096 := by omega
  have hskip : ((total + 1) % 4096 + 1) % 4096 = (total + 2) % 4096 := by omega
  rw [assignSequenceNumber, if_neg htype]
  simp only [hnext, if_pos hsame, hskip]

variable (frame) in
theorem assignSequenceNumber_next (htype : frame.type ≠ .dataWithQos)
    (htotal : d.lastSeqNum = total % 4096)
    (hne : d.lastSentSeqNums.find frame.receiverAddress ≠ some ((total + 1) % 4096)) :
    d.assignSequenceNumber frame = .ok ({ frame with sequenceNumber := (total + 1) % 4096 },
      d.give ((total + 1) % 4096) frame.receiverAddress) := by
  have hnext : (d.lastSeqNum + 1) % 4096 = (total + 1) % 4096 := by omega
  rw [assignSequenceNumber, if_neg htype]
  simp only [hnext, if_neg hne]

/-- The counter is advanced by one or by two. -/
theorem assignSequenceNumber_spec (htype : frame.type ≠ .dataWithQos)
    (htotal : d.lastSeqNum = total % 4096) :
    ∃ advance, 1 ≤ advance ∧ advance ≤ 2 ∧ d.assignSequenceNumber frame =
      .ok ({ frame with sequenceNumber := (total + advance) % 4096 },
        d.give ((total + advance) % 4096) frame.receiverAddress) := by
  by_cases hsame : d.lastSentSeqNums.find frame.receiverAddress = some ((total + 1) % 4096)
  · exact ⟨2, one_le_two, le_rfl, assignSequenceNumber_skip frame htype htotal hsame⟩
  · exact ⟨1, le_rfl, one_le_two, assignSequenceNumber_next frame htype htotal hsame⟩

end NonQoSDuplicateDetector

end

/-- `QoSDuplicateDetector::CacheType`. -/
inductive CacheType
  | shared
  | timePriority
  | data
  deriving DecidableEq, Repr

/-- `QoSDuplicateDetector`. The caches are kept by transmitter, or by transmitter and TID. -/
structure QoSDuplicateDetector where
  lastSeenSeqNumCache : OrderedMap (MACAddress ×ₗ ℤ) SeqVal := ∅
  lastSeenSharedSeqNumCache : OrderedMap MACAddress SeqVal := ∅
  lastSentSeqNums : OrderedMap (MACAddress ×ₗ ℤ) ℕ := ∅
  lastSentSharedSeqNums : OrderedMap MACAddress ℕ := ∅
  lastSentSharedCounterSeqNum : ℕ := 0

namespace QoSDuplicateDetector

/-- The key of an address and the TID of a frame. -/
def key (address : MACAddress) (frame : Ieee80211Header) : MACAddress ×ₗ ℤ :=
  toLex (address, frame.tid.toInt8.toInt)

/-- `getCacheType`. No frame is taken for a time priority frame. -/
def getCacheType (frame : Ieee80211Header) (incoming : Bool) : CacheType :=
  let isTimePriorityFrame := false
  let address := if incoming then frame.transmitterAddress else frame.receiverAddress
  if isTimePriorityFrame then .timePriority
  else if frame.type ≠ .dataWithQos ∨ address.isMulticast then .shared
  else .data

/-- `assignSequenceNumber`. -/
def assignSequenceNumber (frame : Ieee80211Header) (d : QoSDuplicateDetector) :
    Except DuplicateDetectorError (Ieee80211Header × QoSDuplicateDetector) :=
  let address := frame.receiverAddress
  match getCacheType frame false with
  | .timePriority => .error .assertionFailed
  | .shared =>
    let counter := d.lastSentSharedCounterSeqNum
    let seqNum :=
      if d.lastSentSharedSeqNums.find address = some counter then (counter + 1) % 4096 else counter
    .ok ({ frame with sequenceNumber := seqNum },
      { d with
        lastSentSharedCounterSeqNum := seqNum
        lastSentSharedSeqNums := d.lastSentSharedSeqNums.insert address seqNum })
  | .data =>
    let seqNum :=
      match d.lastSentSeqNums.find (key address frame) with
      | none => 0
      | some last => (last + 1) % 4096
    .ok ({ frame with sequenceNumber := seqNum },
      { d with lastSentSeqNums := d.lastSentSeqNums.insert (key address frame) seqNum })

/-- What is done with the cache of a frame. A new entry does not change the iterator, which is used
then. -/
def checkCache {κ : Type} [LinearOrder κ] (frame : Ieee80211Header) (key : κ)
    (cache : OrderedMap κ SeqVal) : Except DuplicateDetectorError (Bool × OrderedMap κ SeqVal) :=
  match cache.find key with
  | none => .error .endDereferenced
  | some seqVal =>
    if seqVal = frame.seqVal ∧ frame.retry = true then .ok (true, cache)
    else .ok (false, cache.insert key frame.seqVal)

/-- `isDuplicate`. -/
def isDuplicate (frame : Ieee80211Header) (d : QoSDuplicateDetector) :
    Except DuplicateDetectorError (Bool × QoSDuplicateDetector) :=
  if frame.type = .management then do
    let (duplicate, cache) ← checkCache frame frame.transmitterAddress d.lastSeenSharedSeqNumCache
    return (duplicate, { d with lastSeenSharedSeqNumCache := cache })
  else do
    let (duplicate, cache) ←
      checkCache frame (key frame.transmitterAddress frame) d.lastSeenSeqNumCache
    return (duplicate, { d with lastSeenSeqNumCache := cache })

end QoSDuplicateDetector

end Inet
