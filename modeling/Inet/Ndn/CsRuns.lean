import Inet.Foundations.FifoCache
import Inet.Foundations.TimedMachine
import Inet.Ndn.Cs

/-!
# What the content store keeps, and for how long

Two views of the runs of `CsBase`.

Which names are stored does not depend on time: `add` is an insertion into a bounded cache that
evicts the oldest name, whichever of its three branches it takes, and nothing else changes the names
(`Tracks.call`). The cache is that of `FifoCache`.

Which of them are fresh does: the flag is raised by an `add` with a freshness period and taken down
by the self-message, which sweeps once a second. A refresh without a period leaves the flag as it
was, and between the end of the period and the next sweep the flag is still up.
-/

namespace Inet.Ndn

namespace CsBase

open TransitionSystem (stateAfter transitionsOf)

/-- A call of the store. -/
inductive Op
  | add (data : Data)
  | lookup (interest : Interest)
  | cleanStaled
  deriving DecidableEq, Repr

/-- The store after a call at a time. -/
def call (cs : CsBase) (now : SimTime) : Op → CsBase
  | .add data => (cs.add now data).2
  | .lookup interest => (cs.lookup interest).2
  | .cleanStaled => cs.cleanStaled now

/-- The names of the stored Data, oldest first. -/
def names (cs : CsBase) : List CString :=
  cs.entries.map (·.data.name)

variable {cs : CsBase} {now : SimTime}

/-! ### The names -/

theorem mem_names {name : CString} : name ∈ cs.names ↔ ∃ e ∈ cs.entries, e.data.name = name :=
  List.mem_map

theorem isFor_iff {name : CString} {e : CsEntry} : e.isFor name = true ↔ e.data.name = name := by
  rw [CsEntry.isFor, beq_iff_eq]

theorem findIdx?_eq_none {name : CString} :
    cs.entries.findIdx? (CsEntry.isFor name) = none ↔ name ∉ cs.names := by
  rw [List.findIdx?_eq_none_iff, mem_names]
  simp only [← Bool.not_eq_true, isFor_iff, not_exists, not_and]

theorem names_refresh (data : Data) (index : ℕ) :
    (cs.entries.modify index (CsEntry.refresh now data)).map (·.data.name) = cs.names := by
  refine List.ext_getElem (by simp [names]) fun n h₁ h₂ ↦ ?_
  simp only [names, List.getElem_map, List.getElem_modify]
  split
  · rw [refresh_data]
  · rfl

/-- **Adding a Data is an insertion of its name.** -/
theorem names_add (data : Data) :
    (cs.add now data).2.names = FifoCache.insert cs.maxSize cs.names data.name := by
  rw [add, FifoCache.insert]
  by_cases hzero : cs.maxSize = 0
  · rw [if_pos hzero, if_pos (.inl hzero)]
  · rw [if_neg hzero]
    split
    · rename_i index hfound
      have hmem : data.name ∈ cs.names := by
        by_contra hnot
        rw [findIdx?_eq_none.2 hnot] at hfound
        exact absurd hfound.symm (Option.some_ne_none index)
      rw [if_pos (.inr hmem)]
      exact names_refresh data index
    · rename_i hfound
      have hnot : data.name ∉ cs.names := findIdx?_eq_none.1 hfound
      rw [if_neg (not_or.2 ⟨hzero, hnot⟩)]
      show ((if cs.entries.length = cs.maxSize then cs.entries.tail else cs.entries) ++
        [CsEntry.make now data]).map _ = _
      rw [List.map_append, apply_ite (List.map _), List.map_tail, names, List.length_map]
      rfl

theorem names_lookup (interest : Interest) : (cs.lookup interest).2.names = cs.names := by
  rw [names, lookup_entries, names]

theorem names_cleanStaled : (cs.cleanStaled now).names = cs.names := by
  rw [names, cleanStaled, List.map_map, names]
  refine List.map_congr_left fun e _ ↦ ?_
  rw [Function.comp_apply]
  split <;> rfl

/-- A look-up changes its counters only. -/
theorem lookup_spec (cs : CsBase) (interest : Interest) :
    ∃ numHit numMiss, (cs.lookup interest).2 = { cs with numHit, numMiss } := by
  rw [lookup]
  split
  · exact ⟨_, _, rfl⟩
  · split
    · split
      · split <;> exact ⟨_, _, rfl⟩
      · exact ⟨_, _, rfl⟩
    · exact ⟨_, _, rfl⟩

theorem call_maxSize (op : Op) : (cs.call now op).maxSize = cs.maxSize := by
  cases op with
  | add data =>
    rw [call, add]
    split
    · rfl
    · split <;> rfl
  | lookup interest =>
    obtain ⟨numHit, numMiss, h⟩ := lookup_spec cs interest
    rw [call, h]
  | cleanStaled => rfl

/-- The name a call finds absent: that of a Data to be added which is not stored. -/
def missedName (cs : CsBase) : Op → List CString
  | .add data => if data.name ∈ cs.names then [] else [data.name]
  | .lookup _ | .cleanStaled => []

/-- **A call keeps track.** -/
theorem tracks_call {missed : List CString} (h : FifoCache.Tracks cs.maxSize missed cs.names)
    (op : Op) : FifoCache.Tracks (cs.call now op).maxSize (missed ++ cs.missedName op)
      (cs.call now op).names := by
  rw [call_maxSize]
  cases op with
  | add data =>
    rw [call, names_add, missedName]
    split
    · rw [List.append_nil]
      exact h.insert_of_mem (by assumption)
    · exact h.insert_of_notMem (by assumption)
  | lookup interest =>
    rw [call, names_lookup, missedName, List.append_nil]
    exact h
  | cleanStaled =>
    rw [call, names_cleanStaled, missedName, List.append_nil]
    exact h

/-- The store after some calls, each at its time. -/
def afterCalls (cs : CsBase) (calls : List (SimTime × Op)) : CsBase :=
  calls.foldl (fun cs c ↦ cs.call c.1 c.2) cs

/-- The names that the calls which add a Data found absent, in their order. -/
def missedNames (cs : CsBase) : List (SimTime × Op) → List CString
  | [] => []
  | c :: calls => cs.missedName c.2 ++ missedNames (cs.call c.1 c.2) calls

/-- Any number of calls keep track. -/
theorem tracks_afterCalls {missed : List CString} (calls : List (SimTime × Op))
    (h : FifoCache.Tracks cs.maxSize missed cs.names) :
    FifoCache.Tracks (cs.afterCalls calls).maxSize (missed ++ cs.missedNames calls)
      (cs.afterCalls calls).names := by
  induction calls generalizing cs missed with
  | nil => rwa [missedNames, List.append_nil]
  | cons c calls ih =>
    rw [missedNames, ← List.append_assoc]
    exact ih (tracks_call h c.2)

theorem afterCalls_maxSize (calls : List (SimTime × Op)) :
    (cs.afterCalls calls).maxSize = cs.maxSize := by
  induction calls generalizing cs with
  | nil => rfl
  | cons c calls ih => exact ih.trans (call_maxSize c.2)

/-- A look-up that does not ask for fresh Data finds exactly the stored names. -/
theorem lookup_isSome_iff {interest : Interest} (h : interest.mustBeFresh = false) :
    (∃ data, (cs.lookup interest).1 = some data ∧ data.name = interest.name) ↔
      interest.name ∈ cs.names := by
  constructor
  · rintro ⟨data, hfound, -⟩
    obtain ⟨e, he, rfl, hname⟩ := of_lookup_eq_some hfound
    exact mem_names.2 ⟨e, he, hname⟩
  · intro hmem
    obtain ⟨e, he, hname⟩ := mem_names.1 hmem
    obtain ⟨e', hfound⟩ := List.find?_isSome.2 ⟨e, he, isFor_iff.2 hname⟩ |> Option.isSome_iff_exists.1
    have hlookup : (cs.lookup interest).1 = some e'.data := by
      rw [lookup, if_neg (by rw [List.isEmpty_iff]; exact List.ne_nil_of_mem he), hfound]
      dsimp only
      rw [h, if_neg Bool.false_ne_true]
    exact ⟨e'.data, hlookup, isFor_iff.1 (List.find?_some hfound)⟩

/-- **The content store is a bounded cache that evicts the oldest name.** After any calls, at any
times, the stored names are distinct, there are at most `maxSize` of them, they are the last
`maxSize` of the names that an `add` found absent, in the order they were added, and a look-up that
does not ask for fresh Data finds exactly them. -/
theorem refines_fifo (maxSize : ℕ) (calls : List (SimTime × Op)) :
    let cs := afterCalls { maxSize } calls
    let missed := missedNames { maxSize } calls
    cs.names.Nodup ∧ cs.names.length ≤ maxSize ∧
      cs.names = missed.drop (missed.length - min maxSize missed.length) ∧
      ∀ interest : Interest, interest.mustBeFresh = false →
        ((∃ data, (cs.lookup interest).1 = some data ∧ data.name = interest.name) ↔
          interest.name ∈ cs.names) := by
  intro cs missed
  have htracks : FifoCache.Tracks maxSize missed cs.names := by
    have hempty : FifoCache.Tracks (CsBase.maxSize { maxSize }) [] (names { maxSize }) := .nil
    have h := tracks_afterCalls calls hempty
    rwa [afterCalls_maxSize, List.nil_append] at h
  refine ⟨htracks.nodup, htracks.length_le, ?_, fun interest ↦ lookup_isSome_iff⟩
  rw [htracks.eq, List.rtake]
  congr 1
  omega

/-! ### Freshness -/

/-- The store and its self-message; `initialize()` leaves an empty store of any size. -/
def timed : TimedMachine CsBase Op where
  Init cs := ∃ maxSize, cs = { maxSize }
  call := call
  fire := handleSelfMessage
  timer := checkDataStale

/-- The last points of time the fresh entries are not yet stale. -/
def deadlines (cs : CsBase) : Set SimTime :=
  {d | ∃ e ∈ cs.entries, e.fresh = true ∧ e.staleAt = d + 1}

/-- Where an entry comes from that stands in the store after an `add`. Since the names are distinct,
an entry of another name is all that can be left of before. -/
inductive AddOutcome (cs : CsBase) (now : SimTime) (data : Data) (e : CsEntry) : Prop
  | other : e ∈ cs.entries →
      (∀ missed, FifoCache.Tracks cs.maxSize missed cs.names → e.data.name ≠ data.name) →
      AddOutcome cs now data e
  | kept : e ∈ cs.entries → data.freshnessPeriod = 0 → AddOutcome cs now data e
  | stale : e.fresh = false → AddOutcome cs now data e
  | renewed : e.data.name = data.name → data.freshnessPeriod ≠ 0 →
      e.staleAt = now + SimTime.ms data.freshnessPeriod.toNat → AddOutcome cs now data e

theorem add_outcome {data : Data} {e : CsEntry} (he : e ∈ (cs.add now data).2.entries) :
    AddOutcome cs now data e := by
  rw [add] at he
  split at he
  · rename_i hzero
    refine .other he fun missed h ↦ ?_
    have hempty : cs.names = [] := List.eq_nil_of_length_eq_zero (by have := h.length_le; omega)
    rw [List.map_eq_nil_iff.1 hempty] at he
    exact absurd he List.not_mem_nil
  · split at he
    · rename_i index hfound
      obtain ⟨hlt, hfor, -⟩ := List.findIdx?_eq_some_iff_getElem.1 hfound
      obtain ⟨n, hn, rfl⟩ := List.mem_iff_getElem.1 he
      have hlen : n < cs.entries.length := by simpa [armed] using hn
      simp only [armed, List.getElem_modify]
      split
      · rename_i hindex
        subst hindex
        rw [CsEntry.refresh]
        split
        · rename_i hperiod
          exact .renewed (isFor_iff.1 hfor) hperiod rfl
        · rename_i hperiod
          exact .kept (List.getElem_mem hlen) (not_not.1 hperiod)
      · rename_i hindex
        refine .other (List.getElem_mem hlen) fun missed h hname ↦ hindex ?_
        have hindex' : index < cs.names.length := by simpa [names] using hlt
        have hn' : n < cs.names.length := by simpa [names] using hlen
        have heq : cs.names[index] = cs.names[n] := by
          simp only [names, List.getElem_map]
          rw [hname, isFor_iff.1 hfor]
        exact (List.Nodup.getElem_inj_iff h.nodup).1 heq
    · rename_i hfound
      obtain hold | hnew := List.mem_append.1 he
      · have hmem : e ∈ cs.entries := by
          split at hold
          · exact List.mem_of_mem_tail hold
          · exact hold
        refine .other hmem fun _ _ hname ↦ findIdx?_eq_none.1 hfound ?_
        exact hname ▸ List.mem_map_of_mem hmem
      · rw [List.mem_singleton.1 hnew]
        by_cases hperiod : data.freshnessPeriod = 0
        · exact .stale (by simp [CsEntry.make, hperiod])
        · exact .renewed rfl hperiod (by simp [CsEntry.make, hperiod])

/-- A fresh entry after a sweep was there and its period is not over. -/
theorem fresh_of_mem_cleanStaled {e : CsEntry} (he : e ∈ (cs.cleanStaled now).entries)
    (hfresh : e.fresh = true) : e ∈ cs.entries ∧ (0 < e.staleAt → now < e.staleAt) := by
  obtain ⟨e', he', heq⟩ := List.mem_map.1 he
  split at heq
  · rw [← heq] at hfresh
    exact absurd hfresh Bool.false_ne_true
  · rename_i hstale
    subst heq
    refine ⟨he', fun hpos ↦ not_le.1 fun hle ↦ hstale ?_⟩
    rw [CsEntry.isStale, decide_eq_true hpos, decide_eq_true hle, Bool.and_self]

/-- A period that is not zero ends later than it starts. -/
theorem lt_add_period {f : UInt32} (hf : f ≠ 0) (t : SimTime) : t < t + SimTime.ms f.toNat := by
  have hpos : 0 < f.toNat := by
    rw [Nat.pos_iff_ne_zero]
    exact fun h ↦ hf (UInt32.toNat.inj h)
  exact Nat.lt_add_of_pos_right (Nat.mul_pos hpos (by decide))

/-- The names are tracked in every run. -/
theorem tracks_of_run {tr : List (Transition (TimedState CsBase) (TimedEvent Op) Unit)}
    {s : TimedState CsBase} (hrun : timed.system.Run tr s) :
    ∃ missed, FifoCache.Tracks s.state.maxSize missed s.state.names := by
  refine hrun.invariant (I := fun s ↦
    ∃ missed, FifoCache.Tracks s.state.maxSize missed s.state.names) ?_ ?_
  · rintro ⟨cs, now⟩ ⟨⟨maxSize, rfl⟩, -⟩
    exact ⟨[], FifoCache.Tracks.nil⟩
  · rintro s ⟨now, input⟩ o s' ⟨missed, h⟩ ⟨-, rfl⟩
    cases input with
    | call op => exact ⟨_, tracks_call h op⟩
    | fire =>
      refine ⟨missed, ?_⟩
      have hnames : (s.state.cleanStaled now).names = s.state.names := names_cleanStaled
      rw [← hnames] at h
      exact h
    | pass => exact ⟨missed, h⟩

/-- An event that adds a Data. -/
def addedData : TimedInput Op → Option Data
  | .call (.add data) => some data
  | .call (.lookup _) | .call .cleanStaled | .fire | .pass => none

/-- When a Data that counts was last added in a run, and with which freshness period. -/
def lastAdd (counts : Data → Bool)
    (tr : List (Transition (TimedState CsBase) (TimedEvent Op) Unit)) :
    Option (SimTime × UInt32) :=
  ((tr.reverse.filterMap fun t ↦ (addedData t.input.input).map (t.input.time, ·)).find?
    fun a ↦ counts a.2).map fun a ↦ (a.1, a.2.freshnessPeriod)

/-- The Data of a name that have a freshness period. -/
def renews (name : CString) (data : Data) : Bool :=
  data.name = name ∧ data.freshnessPeriod ≠ 0

variable {tr : List (Transition (TimedState CsBase) (TimedEvent Op) Unit)} {s s' : TimedState CsBase}

theorem lastAdd_concat_of_none {counts : Data → Bool} {event : TimedEvent Op}
    (h : ∀ data, addedData event.input = some data → counts data = false) :
    lastAdd counts (tr ++ [⟨s, event, (), s'⟩]) = lastAdd counts tr := by
  rw [lastAdd, List.reverse_append, List.reverse_singleton, List.singleton_append,
    List.filterMap_cons]
  obtain hnone | ⟨data, hdata⟩ := Option.eq_none_or_eq_some (addedData event.input)
  · rw [hnone]
    rfl
  · rw [hdata]
    show ((List.find? _ (_ :: _)).map _) = _
    rw [List.find?_cons_of_neg (by simp [h data hdata])]
    rfl

theorem lastAdd_concat_of_some {counts : Data → Bool} {now : SimTime} {data : Data}
    (h : counts data = true) :
    lastAdd counts (tr ++ [⟨s, ⟨now, .call (.add data)⟩, (), s'⟩]) =
      some (now, data.freshnessPeriod) := by
  rw [lastAdd, List.reverse_append, List.reverse_singleton, List.singleton_append,
    List.filterMap_cons]
  show ((List.find? _ (_ :: _)).map _) = _
  rw [List.find?_cons_of_pos (by simpa using h)]
  rfl

/-- The freshness period of an entry started with the last Data that renews its name, and the store
has not been swept since it ended. -/
def RenewedIn (tr : List (Transition (TimedState CsBase) (TimedEvent Op) Unit)) (e : CsEntry) :
    Prop :=
  ∃ t₀ f, lastAdd (renews e.data.name) tr = some (t₀, f) ∧ f ≠ 0 ∧
    e.staleAt = t₀ + SimTime.ms f.toNat ∧
    ∀ t ∈ tr, t.input.input = .fire → t.input.time < e.staleAt

theorem RenewedIn.staleAt_pos {e : CsEntry} (h : RenewedIn tr e) : 0 < e.staleAt := by
  obtain ⟨t₀, f, -, hf, hstale, -⟩ := h
  rw [hstale]
  exact (Nat.zero_le t₀).trans_lt (lt_add_period hf t₀)

/-- An event that neither renews the entry nor sweeps it away leaves its freshness alone. -/
theorem RenewedIn.concat {e : CsEntry} (h : RenewedIn tr e) {event : TimedEvent Op}
    (hadd : ∀ data, addedData event.input = some data → renews e.data.name data = false)
    (hfire : event.input = .fire → event.time < e.staleAt) :
    RenewedIn (tr ++ [⟨s, event, (), s'⟩]) e := by
  obtain ⟨t₀, f, hlast, hf, hstale, hswept⟩ := h
  refine ⟨t₀, f, (lastAdd_concat_of_none hadd).trans hlast, hf, hstale, ?_⟩
  rw [List.forall_mem_append, List.forall_mem_singleton]
  exact ⟨hswept, hfire⟩

/-- **One step keeps every fresh entry's period in the record.** -/
theorem renewedIn_step (hrun : timed.system.Run tr s)
    (h : ∀ e ∈ s.state.entries, e.fresh = true → RenewedIn tr e) {event : TimedEvent Op}
    (hallows : timed.Allows s event) :
    ∀ e ∈ (timed.next s event).state.entries, e.fresh = true →
      RenewedIn (tr ++ [⟨s, event, (), timed.next s event⟩]) e := by
  obtain ⟨now, input⟩ := event
  intro e he hfresh
  obtain ⟨⟨data⟩ | ⟨interest⟩ | _⟩ | _ | _ := input
  · obtain ⟨missed, htracks⟩ := tracks_of_run hrun
    cases add_outcome he with
    | other hold hname =>
      have hname := hname missed htracks
      refine (h e hold hfresh).concat (fun data' hdata ↦ ?_) (by simp)
      rw [← Option.some.inj hdata, renews, decide_eq_false fun hrenews ↦ hname hrenews.1.symm]
    | kept hold hperiod =>
      refine (h e hold hfresh).concat (fun data' hdata ↦ ?_) (by simp)
      rw [← Option.some.inj hdata, renews, decide_eq_false fun hrenews ↦ hrenews.2 hperiod]
    | stale hstale =>
      rw [hstale] at hfresh
      exact absurd hfresh Bool.false_ne_true
    | renewed hname hperiod hstale =>
      have hrenews : renews e.data.name data = true := decide_eq_true ⟨hname.symm, hperiod⟩
      refine ⟨now, data.freshnessPeriod, lastAdd_concat_of_some hrenews, hperiod, hstale, ?_⟩
      rw [List.forall_mem_append, List.forall_mem_singleton]
      refine ⟨fun t ht _ ↦ ?_, by simp⟩
      rw [hstale]
      exact ((TimedMachine.time_le_of_mem hrun ht).trans hallows.1).trans_lt
        (lt_add_period hperiod now)
  · have hold : e ∈ s.state.entries := lookup_entries s.state interest ▸ he
    exact (h e hold hfresh).concat (by simp [addedData]) (by simp)
  · obtain ⟨hold, -⟩ := fresh_of_mem_cleanStaled he hfresh
    exact (h e hold hfresh).concat (by simp [addedData]) (by simp)
  · obtain ⟨hold, hnot⟩ := fresh_of_mem_cleanStaled he hfresh
    have hrenewed := h e hold hfresh
    exact hrenewed.concat (by simp [addedData]) fun _ ↦ hnot hrenewed.staleAt_pos
  · exact (h e he hfresh).concat (by simp [addedData]) (by simp)

/-- What is fresh has its period in the record, in every run. -/
theorem renewedIn_of_run (hrun : timed.system.Run tr s) :
    ∀ e ∈ s.state.entries, e.fresh = true → RenewedIn tr e := by
  refine hrun.history (P := fun tr s ↦ ∀ e ∈ s.state.entries, e.fresh = true → RenewedIn tr e)
    ?_ ?_
  · rintro ⟨cs, now⟩ ⟨⟨maxSize, rfl⟩, -⟩ e he
    exact absurd he List.not_mem_nil
  · rintro tr s event ⟨⟩ s' hrun ih ⟨hallows, rfl⟩
    exact renewedIn_step hrun ih hallows

/-- An entry that is fresh after a call was so before, or its period starts now. -/
theorem fresh_of_mem_call {op : Op} {e : CsEntry} (he : e ∈ (cs.call now op).entries)
    (hfresh : e.fresh = true) :
    e ∈ cs.entries ∨ ∃ f : UInt32, f ≠ 0 ∧ e.staleAt = now + SimTime.ms f.toNat := by
  cases op with
  | add data =>
    cases add_outcome he with
    | other hold _ => exact .inl hold
    | kept hold _ => exact .inl hold
    | stale hstale =>
      rw [hstale] at hfresh
      exact absurd hfresh Bool.false_ne_true
    | renewed _ hperiod hstale => exact .inr ⟨_, hperiod, hstale⟩
  | lookup interest =>
    rw [call, lookup_entries] at he
    exact .inl he
  | cleanStaled => exact .inl (fresh_of_mem_cleanStaled he hfresh).1

/-- **The self-message sweeps the store**, once a second. -/
theorem timed_sweep : timed.Sweep (SimTime.ms 1000) deadlines where
  init := by
    rintro s ⟨maxSize, rfl⟩
    refine ⟨rfl, Set.eq_empty_iff_forall_notMem.2 ?_⟩
    rintro d ⟨e, he, -⟩
    exact List.not_mem_nil he
  deadline_call := by
    rintro s now op d ⟨e, he, hfresh, hstale⟩
    obtain hold | ⟨f, hf, hnew⟩ := fresh_of_mem_call he hfresh
    · exact .inl ⟨e, hold, hfresh, hstale⟩
    · have hlt := lt_add_period hf now
      rw [← hnew, hstale] at hlt
      exact .inr (Nat.lt_succ_iff.1 hlt)
  timer_call_some s now op c h := by
    show (s.call now op).checkDataStale = some c
    have h : s.checkDataStale = some c := h
    cases op with
    | add data =>
      rw [call, add]
      split
      · exact h
      · split <;> simp [armed, h]
    | lookup interest =>
      obtain ⟨numHit, numMiss, hspec⟩ := lookup_spec s interest
      rw [call, hspec]
      exact h
    | cleanStaled => exact h
  timer_call_none s now op h hempty := by
    have hkept (hstays : (s.call now op).checkDataStale = none)
        (hold : ∀ e ∈ (s.call now op).entries, e.fresh = true → e ∈ s.entries) :
        (s.call now op).checkDataStale = none ∧ deadlines (s.call now op) = ∅ := by
      refine ⟨hstays, Set.eq_empty_iff_forall_notMem.2 ?_⟩
      rintro d ⟨e, he, hfresh, hstale⟩
      have hd : d ∈ deadlines s := ⟨e, hold e he hfresh, hfresh, hstale⟩
      rw [hempty] at hd
      exact hd
    have h : s.checkDataStale = none := h
    show (s.call now op).checkDataStale = none ∧ _ ∨
      (s.call now op).checkDataStale = some (now + SimTime.ms 1000)
    cases op with
    | add data =>
      by_cases hzero : s.maxSize = 0
      · have hsame : s.call now (.add data) = s := by rw [call, add, if_pos hzero]
        refine .inl (hkept (by rw [hsame, h]) fun e he _ ↦ ?_)
        rwa [hsame] at he
      · refine .inr ?_
        rw [call, add, if_neg hzero]
        split <;> simp [armed, h]
    | lookup interest =>
      refine .inl (hkept ?_ fun e he _ ↦ lookup_entries s interest ▸ he)
      obtain ⟨numHit, numMiss, hspec⟩ := lookup_spec s interest
      rw [call, hspec]
      exact h
    | cleanStaled => exact .inl (hkept h fun e he hfresh ↦ (fresh_of_mem_cleanStaled he hfresh).1)
  deadline_fire := by
    rintro s now d ⟨e, he, hfresh, hstale⟩
    obtain ⟨-, hnot⟩ := fresh_of_mem_cleanStaled he hfresh
    rw [hstale] at hnot
    exact Nat.lt_succ_iff.1 (hnot (Nat.succ_pos d))
  timer_fire s now := by
    show (if (s.cleanStaled now).entries.isEmpty then none else _) = none ∧ _ ∨
      (if (s.cleanStaled now).entries.isEmpty then none else _) = _
    split
    · rename_i h
      refine .inl ⟨rfl, Set.eq_empty_iff_forall_notMem.2 ?_⟩
      rintro d ⟨e, he, -⟩
      have hmem : e ∈ (s.cleanStaled now).entries := he
      rw [List.isEmpty_iff.1 h] at hmem
      exact List.not_mem_nil hmem
    · exact .inr rfl

/-- What a look-up for fresh Data returns is that of a fresh entry. -/
theorem fresh_of_lookup {interest : Interest} {data : Data} (hfresh : interest.mustBeFresh = true)
    (h : (cs.lookup interest).1 = some data) :
    ∃ e ∈ cs.entries, e.fresh = true ∧ e.data.name = interest.name := by
  rw [lookup, hfresh] at h
  split at h
  · exact absurd h.symm (Option.some_ne_none data)
  · split at h
    · rename_i e hfound
      rw [if_pos rfl] at h
      split at h
      · rename_i hup
        exact ⟨e, List.mem_of_find?_eq_some hfound, hup, isFor_iff.1 (List.find?_some hfound)⟩
      · exact absurd h.symm (Option.some_ne_none data)
    · exact absurd h.symm (Option.some_ne_none data)

/-- **Fresh Data is fresh, but for the period of the sweep.** Where a look-up for fresh Data returns
something, a Data of the name with a freshness period was added, the period of the last one ended
less than a second ago if it ended at all, and the store has not been swept since then. -/
theorem fresh_until_swept (hrun : timed.system.Run tr s) {interest : Interest} {data : Data}
    (hfresh : interest.mustBeFresh = true) (hfound : (s.state.lookup interest).1 = some data) :
    ∃ t₀ f, lastAdd (renews interest.name) tr = some (t₀, f) ∧ f ≠ 0 ∧
      s.now < t₀ + SimTime.ms f.toNat + SimTime.ms 1000 ∧
      ∀ t ∈ tr, t.input.input = .fire → t.input.time < t₀ + SimTime.ms f.toNat := by
  obtain ⟨e, he, hup, hname⟩ := fresh_of_lookup hfresh hfound
  have hrenewed := renewedIn_of_run hrun e he hup
  obtain ⟨d, hd⟩ := Nat.exists_eq_succ_of_ne_zero hrenewed.staleAt_pos.ne'
  have hlag := (timed_sweep.watched_of_run hrun).now_le ⟨e, he, hup, hd⟩
  obtain ⟨t₀, f, hlast, hf, hstale, hswept⟩ := hrenewed
  refine ⟨t₀, f, hname ▸ hlast, hf, ?_, hstale ▸ hswept⟩
  rw [← hstale, hd, Nat.succ_add]
  exact Nat.lt_succ_of_le hlag

/-- A Data of the name /a that is fresh for half a second. -/
def halfSecond : Data := { name := [47, 97], freshnessPeriod := 500 }

/-- An Interest that asks for it fresh. -/
def asksFresh : Interest := { name := [47, 97], mustBeFresh := true }

/-- The Data is added at time 0, and 600 ms pass. -/
def addThenPass : List (TimedEvent Op) :=
  [⟨0, .call (.add halfSecond)⟩, ⟨SimTime.ms 600, .pass⟩]

/-- The store at the end. -/
def addedThenPassed : TimedState CsBase :=
  stateAfter (fun s event ↦ (timed.next s event, ())) ⟨{ maxSize := 50 }, 0⟩ addThenPass

theorem run_addThenPass :
    timed.system.Run (transitionsOf (fun s event ↦ (timed.next s event, ()))
      ⟨{ maxSize := 50 }, 0⟩ addThenPass) addedThenPassed :=
  TimedMachine.run_of_events _ addThenPass ⟨⟨50, rfl⟩, rfl⟩ (by decide +kernel)

theorem lookup_addedThenPassed :
    (addedThenPassed.state.lookup asksFresh).1 = some halfSecond := by decide +kernel

theorem fresh_until_swept_halfSecond :
    addedThenPassed.now < SimTime.ms 500 + SimTime.ms 1000 ∧
      ∃ t₀ f, lastAdd (renews asksFresh.name) (transitionsOf
          (fun s event ↦ (timed.next s event, ())) ⟨{ maxSize := 50 }, 0⟩ addThenPass) =
        some (t₀, f) ∧ f ≠ 0 ∧ addedThenPassed.now < t₀ + SimTime.ms f.toNat + SimTime.ms 1000 := by
  obtain ⟨t₀, f, hlast, hf, hlag, -⟩ :=
    fresh_until_swept run_addThenPass (by decide) lookup_addedThenPassed
  exact ⟨by decide +kernel, t₀, f, hlast, hf, hlag⟩

/-- A hundred milliseconds after its period the Data is still returned as fresh. -/
theorem not_fresh_within_period :
    ¬ ∀ (tr : List (Transition (TimedState CsBase) (TimedEvent Op) Unit)) (s : TimedState CsBase),
      timed.system.Run tr s → ∀ (interest : Interest) (data : Data),
        interest.mustBeFresh = true → (s.state.lookup interest).1 = some data →
          ∃ t₀ f, lastAdd (fun data ↦ data.name = interest.name) tr = some (t₀, f) ∧ f ≠ 0 ∧
            s.now < t₀ + SimTime.ms f.toNat := by
  intro hall
  obtain ⟨t₀, f, hlast, -, hlt⟩ :=
    hall _ _ run_addThenPass asksFresh halfSecond (by decide) lookup_addedThenPassed
  have hat : lastAdd (fun data ↦ data.name = asksFresh.name) (transitionsOf
      (fun s event ↦ (timed.next s event, ())) ⟨{ maxSize := 50 }, 0⟩ addThenPass) =
      some (0, 500) := by decide +kernel
  obtain ⟨rfl, rfl⟩ := Prod.mk.inj (Option.some.inj (hlast.symm.trans hat))
  exact absurd hlt (by decide +kernel)

end CsBase

end Inet.Ndn
