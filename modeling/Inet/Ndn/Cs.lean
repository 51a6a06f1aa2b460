import Inet.Ndn.Packets

/-!
# The content store

`CsBase`: a list of Data, oldest first, matched by exact name. A full store evicts its first entry.
An entry is fresh while its freshness period lasts; the store's self-message marks it stale
afterwards, and a stale entry answers only Interests that do not ask for fresh Data.

The forwarder relies on one fact: what `lookup` returns carries the name it was asked for
(`name_of_lookup_eq_some`).
-/

namespace Inet.Ndn

/-- `ICs::CsEntry`. -/
structure CsEntry where
  data : Data
  fresh : Bool
  staleAt : SimTime
  deriving DecidableEq, Repr

namespace CsEntry

/-- The constructor `CsEntry(data)`, at time `now`. -/
def make (now : SimTime) (data : Data) : CsEntry where
  data := data
  fresh := data.freshnessPeriod ≠ 0
  staleAt := if data.freshnessPeriod ≠ 0 then now + SimTime.ms data.freshnessPeriod.toNat else 0

/-- The test of `lookup` and `add`. -/
def isFor (name : CString) (e : CsEntry) : Bool :=
  e.data.name == name

/-- What `add` does to an entry whose name comes in again. -/
def refresh (now : SimTime) (data : Data) (e : CsEntry) : CsEntry :=
  if data.freshnessPeriod ≠ 0 then
    { e with fresh := true, staleAt := now + SimTime.ms data.freshnessPeriod.toNat }
  else e

/-- The test of `cleanStaled`. -/
def isStale (now : SimTime) (e : CsEntry) : Bool :=
  0 < e.staleAt && e.staleAt ≤ now

end CsEntry

/-- `CsBase`, with the arrival time of its self-message `checkDataStale` while it is scheduled. -/
structure CsBase where
  entries : List CsEntry := []
  maxSize : ℕ
  checkDataStale : Option SimTime := none
  numHit : ℕ := 0
  numMiss : ℕ := 0
  numAdded : ℕ := 0
  numStale : ℕ := 0
  deriving DecidableEq, Repr

namespace CsBase

/-- `CsBase::lookup`. -/
def lookup (cs : CsBase) (interest : Interest) : Option Data × CsBase :=
  if cs.entries.isEmpty then (none, cs)
  else
    match cs.entries.find? (CsEntry.isFor interest.name) with
    | some e =>
      if interest.mustBeFresh then
        if e.fresh then (some e.data, { cs with numHit := cs.numHit + 1 })
        else (none, { cs with numMiss := cs.numMiss + 1 })
      else (some e.data, { cs with numHit := cs.numHit + 1 })
    | none => (none, { cs with numMiss := cs.numMiss + 1 })

/-- The timer is set by every successful `add`. -/
def armed (cs : CsBase) (now : SimTime) : CsBase :=
  { cs with
    checkDataStale :=
      if cs.checkDataStale.isNone then some (now + SimTime.ms 1000) else cs.checkDataStale }

/-- `CsBase::add`. -/
def add (cs : CsBase) (now : SimTime) (data : Data) : Bool × CsBase :=
  if cs.maxSize = 0 then (false, cs)
  else
    match cs.entries.findIdx? (CsEntry.isFor data.name) with
    | some index =>
      -- the Data that is stored stays; only its freshness is renewed
      (true, armed { cs with
        entries := cs.entries.modify index (CsEntry.refresh now data)
        numAdded := cs.numAdded + 1 } now)
    | none =>
      -- the oldest entry makes room
      let entries := if cs.entries.length = cs.maxSize then cs.entries.tail else cs.entries
      (true, armed { cs with
        entries := entries ++ [CsEntry.make now data]
        numAdded := cs.numAdded + 1 } now)

/-- `CsBase::cleanStaled`. -/
def cleanStaled (cs : CsBase) (now : SimTime) : CsBase :=
  { cs with
    entries := cs.entries.map fun e ↦ if e.isStale now then { e with fresh := false } else e
    numStale := cs.numStale + (cs.entries.filter (CsEntry.isStale now)).length }

/-- `CsBase::handleMessage` for the self-message. -/
def handleSelfMessage (cs : CsBase) (now : SimTime) : CsBase :=
  let cs := cs.cleanStaled now
  { cs with
    checkDataStale := if cs.entries.isEmpty then none else some (now + SimTime.ms 1000) }

/-- What a look-up returns is stored and has the name asked for. -/
theorem of_lookup_eq_some {cs : CsBase} {i : Interest} {d : Data}
    (h : (cs.lookup i).1 = some d) : ∃ e ∈ cs.entries, e.data = d ∧ d.name = i.name := by
  unfold lookup at h
  split at h
  · simp at h
  · split at h
    · rename_i e he
      have hname : e.data.name = i.name := by simpa [CsEntry.isFor] using List.find?_some he
      have hd : e.data = d := by
        split at h
        · split at h <;> simp_all
        · simpa using h
      exact ⟨e, List.mem_of_find?_eq_some he, hd, hd ▸ hname⟩
    · simp at h

/-- A cached Data answers Interests of its own name only. -/
theorem name_of_lookup_eq_some {cs : CsBase} {i : Interest} {d : Data}
    (h : (cs.lookup i).1 = some d) : d.name = i.name := by
  obtain ⟨-, -, -, hname⟩ := of_lookup_eq_some h
  exact hname

theorem lookup_entries (cs : CsBase) (i : Interest) : (cs.lookup i).2.entries = cs.entries := by
  unfold lookup
  split
  · rfl
  · split
    · split
      · split <;> rfl
      · rfl
    · rfl

theorem refresh_data (now : SimTime) (d : Data) (e : CsEntry) :
    (e.refresh now d).data = e.data := by
  unfold CsEntry.refresh
  split <;> rfl

/-- Adding a Data stores nothing else. -/
theorem data_of_mem_add {cs : CsBase} {now : SimTime} {d : Data} {e : CsEntry}
    (h : e ∈ (cs.add now d).2.entries) : e.data = d ∨ ∃ e' ∈ cs.entries, e.data = e'.data := by
  unfold add at h
  split at h
  · exact .inr ⟨e, h, rfl⟩
  · split at h
    · rename_i index _
      obtain ⟨n, hn, hget⟩ := List.mem_iff_getElem.1 h
      have hlen : n < cs.entries.length := by simpa [armed] using hn
      refine .inr ⟨cs.entries[n], List.getElem_mem hlen, ?_⟩
      rw [← hget]
      simp only [armed, List.getElem_modify]
      split
      · rw [refresh_data]
      · rfl
    · rcases List.mem_append.1 h with h | h
      · refine .inr ⟨e, ?_, rfl⟩
        split at h
        · exact List.mem_of_mem_tail h
        · exact h
      · rw [List.mem_singleton.1 h]
        exact .inl rfl

/-- Marking entries as stale changes no Data. -/
theorem data_of_mem_handleSelfMessage {cs : CsBase} {now : SimTime} {e : CsEntry}
    (h : e ∈ (cs.handleSelfMessage now).entries) : ∃ e' ∈ cs.entries, e.data = e'.data := by
  obtain ⟨e', he', rfl⟩ := List.mem_map.1 h
  refine ⟨e', he', ?_⟩
  split <;> rfl

end CsBase

end Inet.Ndn
