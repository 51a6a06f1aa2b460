import Inet.Foundations.ReferenceCounts
import Inet.Foundations.TransitionSystem
import Inet.NetworkLayer.IPv4InterfaceData

/-!
# The filter of an interface

Each socket of a host has a filter of its own for a group, which the interface is told about and
does not keep. What it keeps are reference counts, which have for each source and each filter mode
the number of the sockets (`EntryOk`), and its own filter is the merge of the filters of the sockets
(`IsMerge`).
-/

namespace Inet

open ReferenceCounts

variable {Address ι : Type} {f : ι → IPv4MulticastSourceList Address} {i : ι} {S : Finset ι}
  {old new v v' : IPv4MulticastSourceList Address}

/-- **The merge of the filters.** If a socket excludes sources, those are excluded that every such
socket excludes and no other socket includes; otherwise those are included that some socket
includes. -/
structure IsMerge [LinearOrder Address] (f : ι → IPv4MulticastSourceList Address)
    (v : IPv4MulticastSourceList Address) : Prop where
  sorted : v.sources.SortedLT
  excluding : (∃ i, (f i).filterMode = .excludeSources) → v.filterMode = .excludeSources ∧
    ∀ a, a ∈ v.sources ↔ (∀ i, (f i).filterMode = .excludeSources → a ∈ (f i).sources) ∧
      ∀ i, (f i).filterMode = .includeSources → a ∉ (f i).sources
  including : (¬ ∃ i, (f i).filterMode = .excludeSources) → v.filterMode = .includeSources ∧
    ∀ a, a ∈ v.sources ↔ ∃ i, a ∈ (f i).sources

/-! ### The counts of a group -/

/-- The sources that the sockets in a filter mode name. -/
def listsIn (mode : McastSourceFilterMode) (f : ι → IPv4MulticastSourceList Address) (i : ι) :
    List Address :=
  if (f i).filterMode = mode then (f i).sources else []

theorem mode_eq_include (h : v.filterMode ≠ .excludeSources) : v.filterMode = .includeSources := by
  cases hmode : v.filterMode with
  | includeSources => rfl
  | excludeSources => exact absurd hmode h

variable [DecidableEq ι]

theorem listsIn_update (mode : McastSourceFilterMode) (f : ι → IPv4MulticastSourceList Address)
    (i : ι) (new : IPv4MulticastSourceList Address) : listsIn mode (Function.update f i new) =
      Function.update (listsIn mode f) i (if new.filterMode = mode then new.sources else []) := by
  funext j
  by_cases hj : j = i
  · rw [hj, Function.update_self, listsIn, Function.update_self]
  · rw [Function.update_of_ne hj, listsIn, Function.update_of_ne hj, listsIn]

/-- One socket changes its filter mode. -/
theorem card_exclude_update (hi : i ∈ S) (new : IPv4MulticastSourceList Address) :
    ((S.filter fun j ↦ (Function.update f i new j).filterMode = .excludeSources).card : ℤ) =
      (S.filter fun j ↦ (f j).filterMode = .excludeSources).card +
        IPv4MulticastData.excludeModeChange (f i).filterMode new.filterMode := by
  -- a socket in EXCLUDE mode names one thing
  have hcount (f : ι → IPv4MulticastSourceList Address) :
      (S.filter fun j ↦ (f j).filterMode = .excludeSources).card =
        count S (fun j ↦ if (f j).filterMode = .excludeSources then [()] else []) () := by
    rw [count]
    congr 1
    refine Finset.filter_congr fun j _ ↦ ?_
    split_ifs with hj
    · exact iff_of_true hj (List.mem_singleton_self _)
    · exact iff_of_false hj List.not_mem_nil
  have hupdate : (fun j ↦ if (Function.update f i new j).filterMode = .excludeSources then [()]
      else []) = Function.update (fun j ↦ if (f j).filterMode = .excludeSources then [()] else []) i
        (if new.filterMode = .excludeSources then [()] else []) := by
    funext j
    by_cases hj : j = i
    · rw [hj, Function.update_self, Function.update_self]
    · rw [Function.update_of_ne hj, Function.update_of_ne hj]
  have hself := count_update (f := fun j ↦ if (f j).filterMode = .excludeSources then [()] else []) hi
    (if (f i).filterMode = .excludeSources then [()] else []) ()
  rw [Function.update_eq_self] at hself
  rw [hcount, hcount, hupdate, count_update hi, hself]
  cases (f i).filterMode <;> cases new.filterMode <;>
    simp [IPv4MulticastData.excludeModeChange] <;> omega

variable [LinearOrder Address] {entry : HostMulticastGroupData Address}

/-- The entry of a group counts the sockets, of which those outside `S` have never said anything. -/
structure EntryOk (S : Finset ι) (f : ι → IPv4MulticastSourceList Address)
    (entry : HostMulticastGroupData Address) : Prop where
  counts : ∀ mode, Counts (entry.counts mode) S (listsIn mode f)
  numOfExcludeModeSockets :
    entry.numOfExcludeModeSockets = (S.filter fun i ↦ (f i).filterMode = .excludeSources).card
  silent : ∀ i, i ∉ S → f i = {}
  sourceList : entry.sourceList = entry.updateSourceList.2.sourceList

theorem EntryOk.mem_of_exclude (h : EntryOk S f entry) (hi : (f i).filterMode = .excludeSources) :
    i ∈ S := by
  by_contra hS
  rw [h.silent i hS] at hi
  cases hi

theorem EntryOk.numOfExcludeModeSockets_eq_zero (h : EntryOk S f entry) :
    entry.numOfExcludeModeSockets = 0 ↔ ¬ ∃ i, (f i).filterMode = .excludeSources := by
  rw [h.numOfExcludeModeSockets, Int.natCast_eq_zero, Finset.card_eq_zero,
    Finset.filter_eq_empty_iff]
  constructor
  · rintro hnone ⟨i, hi⟩
    exact hnone (h.mem_of_exclude hi) hi
  · intro hnone i _ hi
    exact hnone ⟨i, hi⟩

/-- A source that is named in a filter mode. -/
theorem EntryOk.mem_keys (h : EntryOk S f entry) (mode : McastSourceFilterMode) (a : Address) :
    a ∈ (entry.counts mode).keys ↔ ∃ i, (f i).filterMode = mode ∧ a ∈ (f i).sources := by
  rw [(h.counts mode).mem_keys]
  constructor
  · rintro ⟨i, -, ha⟩
    rw [listsIn] at ha
    split_ifs at ha with hmode
    · exact ⟨i, hmode, ha⟩
    · cases ha
  · rintro ⟨i, hmode, ha⟩
    refine ⟨i, ?_, by rwa [listsIn, if_pos hmode]⟩
    by_contra hS
    rw [h.silent i hS] at ha
    cases ha

/-- **The interface's filter is the merge.** -/
theorem EntryOk.isMerge (h : EntryOk S f entry) : IsMerge f entry.sourceList := by
  have hinclude : entry.includeCounts = entry.counts .includeSources := rfl
  have hexclude : entry.excludeCounts = entry.counts .excludeSources := rfl
  rw [h.sourceList, HostMulticastGroupData.updateSourceList]
  by_cases hzero : entry.numOfExcludeModeSockets = 0
  · have hnone := h.numOfExcludeModeSockets_eq_zero.1 hzero
    simp only [hzero, if_true]
    refine ⟨entry.includeCounts.sorted_keys, fun hsome ↦ absurd hsome hnone, fun _ ↦ ⟨rfl, fun a ↦ ?_⟩⟩
    rw [hinclude, h.mem_keys]
    constructor
    · rintro ⟨i, -, ha⟩
      exact ⟨i, ha⟩
    · rintro ⟨i, ha⟩
      exact ⟨i, mode_eq_include fun hmode ↦ hnone ⟨i, hmode⟩, ha⟩
  · have hsome : ∃ i, (f i).filterMode = .excludeSources := by
      by_contra hnone
      exact hzero (h.numOfExcludeModeSockets_eq_zero.2 hnone)
    simp only [hzero, if_false]
    refine ⟨?_, fun _ ↦ ⟨rfl, fun a ↦ ?_⟩, fun hnone ↦ absurd hsome hnone⟩
    · have hkeys := List.sortedLT_iff_pairwise.1 entry.excludeCounts.sorted_keys
      exact List.sortedLT_iff_pairwise.2 (hkeys.sublist List.filter_sublist)
    · have hall : entry.excludeCounts.find a = some entry.numOfExcludeModeSockets ↔
          ∀ i, (f i).filterMode = .excludeSources → a ∈ (f i).sources := by
        have hne : (S.filter fun i ↦ (f i).filterMode = .excludeSources).Nonempty := by
          obtain ⟨i, hi⟩ := hsome
          exact ⟨i, Finset.mem_filter.2 ⟨h.mem_of_exclude hi, hi⟩⟩
        rw [h.numOfExcludeModeSockets, hexclude, (h.counts _).eq_card_iff (Finset.filter_subset _ _) hne]
        · constructor
          · intro hT i hi
            have ha := hT i (Finset.mem_filter.2 ⟨h.mem_of_exclude hi, hi⟩)
            rwa [listsIn, if_pos hi] at ha
          · intro hT i hi
            rw [listsIn, if_pos (Finset.mem_filter.1 hi).2]
            exact hT i (Finset.mem_filter.1 hi).2
        · intro i hi hnot
          rw [listsIn, if_neg]
          exact fun hmode ↦ hnot (Finset.mem_filter.2 ⟨hi, hmode⟩)
      have hnot : entry.includeCounts.find a = none ↔
          ∀ i, (f i).filterMode = .includeSources → a ∉ (f i).sources := by
        rw [OrderedMap.find_eq_none, hinclude, h.mem_keys]
        push Not
        rfl
      rw [List.mem_filter, decide_eq_true_iff, hall, hnot, hexclude, h.mem_keys]
      refine and_iff_right_of_imp fun hboth ↦ ?_
      obtain ⟨i, hi⟩ := hsome
      exact ⟨i, hi, hboth.1 i hi⟩

/-! ### A change -/

/-- The references to the old sources are given up, and none is missing. -/
theorem foldlM_releaseSource {g : ι → List Address} (hi : i ∈ S) (l : List Address)
    (m : OrderedMap Address ℤ) (h : Counts m S (Function.update g i l)) (hl : l.Nodup) :
    ∃ m', l.foldlM releaseSource m = .ok m' ∧ Counts m' S (Function.update g i []) := by
  induction l generalizing m with
  | nil => exact ⟨m, rfl, h⟩
  | cons a l ih =>
    rw [List.nodup_cons] at hl
    obtain ⟨c, hc, hreleased⟩ := h.release hi hl.1
    obtain ⟨m', hm', hrest⟩ := ih _ hreleased hl.2
    refine ⟨m', ?_, hrest⟩
    rw [List.foldlM_cons, releaseSource, hc]
    exact hm'

theorem acquireSource_eq (m : OrderedMap Address ℤ) (a : Address) :
    acquireSource m a = m.insert a ((m.find a).getD 0 + 1) := by
  rw [acquireSource]
  cases m.find a with
  | none => rfl
  | some count => rfl

/-- The references to the new sources are taken up. -/
theorem foldl_acquireSource {g : ι → List Address} (hi : i ∈ S) (l done : List Address)
    (m : OrderedMap Address ℤ) (h : Counts m S (Function.update g i done)) (hl : (l ++ done).Nodup) :
    Counts (l.foldl acquireSource m) S (Function.update g i (l ++ done)) := by
  induction l generalizing done m with
  | nil => exact h
  | cons a l ih =>
    have hperm : (l ++ a :: done).Perm (a :: l ++ done) := List.perm_middle
    rw [List.foldl_cons, acquireSource_eq]
    have hnot : a ∉ done := by
      rw [List.cons_append, List.nodup_cons, List.mem_append] at hl
      exact fun hmem ↦ hl.1 (.inr hmem)
    refine (ih (a :: done) _ (h.acquire hi hnot) (hperm.nodup_iff.2 hl)).congr fun j b ↦ ?_
    by_cases hj : j = i
    · rw [hj, Function.update_self, Function.update_self, hperm.mem_iff]
    · rw [Function.update_of_ne hj, Function.update_of_ne hj]

theorem counts_setCounts (entry : HostMulticastGroupData Address) (m : OrderedMap Address ℤ)
    (mode mode' : McastSourceFilterMode) :
    (entry.setCounts m mode).counts mode' = if mode = mode' then m else entry.counts mode' := by
  cases mode <;> cases mode' <;> rfl

theorem setCounts_numOfExcludeModeSockets (m : OrderedMap Address ℤ) (mode : McastSourceFilterMode) :
    (entry.setCounts m mode).numOfExcludeModeSockets = entry.numOfExcludeModeSockets := by
  cases mode <;> rfl

theorem setCounts_sourceList (m : OrderedMap Address ℤ) (mode : McastSourceFilterMode) :
    (entry.setCounts m mode).sourceList = entry.sourceList := by
  cases mode <;> rfl

/-- **What a call does to the entry.** -/
theorem EntryOk.changeEntry (h : EntryOk S f entry) (i : ι) (hold : (f i).sources.Nodup)
    (hnew : new.sources.Nodup) :
    ∃ changed entry', IPv4MulticastData.changeEntry (f i) new entry = .ok (changed, entry') ∧
      EntryOk (insert i S) (Function.update f i new) entry' ∧
      (changed = true ↔ entry'.sourceList ≠ entry.sourceList) := by
  have hi : i ∈ insert i S := Finset.mem_insert_self i S
  have hcounts (mode : McastSourceFilterMode) :
      Counts (entry.counts mode) (insert i S) (listsIn mode f) := by
    by_cases hiS : i ∈ S
    · rw [Finset.insert_eq_of_mem hiS]
      exact h.counts mode
    · refine (h.counts mode).insert_user ?_
      rw [listsIn, h.silent i hiS]
      split_ifs <;> rfl
  have hlist (mode : McastSourceFilterMode) : listsIn mode f =
      Function.update (listsIn mode f) i (if (f i).filterMode = mode then (f i).sources else []) := by
    rw [← listsIn_update, Function.update_eq_self]
  obtain ⟨released, hreleased, hreleasedCounts⟩ := foldlM_releaseSource hi (f i).sources
    (entry.counts (f i).filterMode) (g := listsIn (f i).filterMode f)
    (by
      have hlist := hlist (f i).filterMode
      rw [if_pos rfl] at hlist
      rw [← hlist]
      exact hcounts _) hold
  -- without the socket
  have hwithout (mode : McastSourceFilterMode) :
      Counts ((entry.setCounts released (f i).filterMode).counts mode) (insert i S)
        (Function.update (listsIn mode f) i []) := by
    rw [counts_setCounts]
    split_ifs with hmode
    · rw [← hmode]
      exact hreleasedCounts
    · have hlist := hlist mode
      rw [if_neg hmode] at hlist
      rw [← hlist]
      exact hcounts mode
  generalize hentry₁ : entry.setCounts released (f i).filterMode = entry₁ at hwithout
  have hacquired := foldl_acquireSource hi new.sources [] _ (hwithout new.filterMode)
    (by rwa [List.append_nil])
  rw [List.append_nil] at hacquired
  have hwith (mode : McastSourceFilterMode) :
      Counts ((entry₁.setCounts (new.sources.foldl acquireSource (entry₁.counts new.filterMode))
        new.filterMode).counts mode) (insert i S) (listsIn mode (Function.update f i new)) := by
    rw [counts_setCounts, listsIn_update]
    split_ifs with hmode
    · rw [← hmode]
      exact hacquired
    · exact hwithout mode
  generalize hentry₂ : entry₁.setCounts (new.sources.foldl acquireSource
    (entry₁.counts new.filterMode)) new.filterMode = entry₂ at hwith
  have hnum : entry₂.numOfExcludeModeSockets = entry.numOfExcludeModeSockets := by
    rw [← hentry₂, setCounts_numOfExcludeModeSockets, ← hentry₁, setCounts_numOfExcludeModeSockets]
  have hsource : entry₂.sourceList = entry.sourceList := by
    rw [← hentry₂, setCounts_sourceList, ← hentry₁, setCounts_sourceList]
  let entry₃ := { entry₂ with
    numOfExcludeModeSockets := entry₂.numOfExcludeModeSockets +
      IPv4MulticastData.excludeModeChange (f i).filterMode new.filterMode }
  refine ⟨entry₃.updateSourceList.1, entry₃.updateSourceList.2, ?_,
    ⟨hwith, ?_, fun j hj ↦ ?_, rfl⟩, ?_⟩
  · rw [IPv4MulticastData.changeEntry, hreleased]
    subst hentry₂ hentry₁
    rfl
  · show entry₂.numOfExcludeModeSockets + _ = _
    have hsilent : ((insert i S).filter fun j ↦ (f j).filterMode = .excludeSources).card =
        (S.filter fun j ↦ (f j).filterMode = .excludeSources).card := by
      by_cases hiS : i ∈ S
      · rw [Finset.insert_eq_of_mem hiS]
      · rw [Finset.filter_insert, if_neg]
        rw [h.silent i hiS]
        exact fun hmode ↦ by cases hmode
    rw [card_exclude_update hi, hsilent, hnum, h.numOfExcludeModeSockets]
  · rw [Finset.mem_insert, not_or] at hj
    rw [Function.update_of_ne hj.1]
    exact h.silent j hj.2
  · rw [← hsource, ne_comm]
    exact decide_eq_true_iff

/-! ### Sockets -/

/-- The interface, and the filters that the sockets have last told it. -/
structure MulticastSockets (ι Address : Type) [LinearOrder Address] where
  data : IPv4MulticastData Address := {}
  filters : ι → Address → IPv4MulticastSourceList Address := fun _ _ ↦ {}

/-- A socket changes its filter for a group. -/
structure MembershipChange (ι Address : Type) where
  socket : ι
  group : Address
  sourceList : IPv4MulticastSourceList Address

namespace MulticastSockets

variable {isMulticast : Address → Bool} {s s' : MulticastSockets ι Address} {g : Address}

/-- The sockets tell the interface. The output is whether there is a notification. -/
def system (ι : Type) [DecidableEq ι] (isMulticast : Address → Bool) :
    TransitionSystem (MulticastSockets ι Address) (MembershipChange ι Address) Bool where
  Init s := s = {}
  Step s change changed s' :=
    isMulticast change.group = true ∧ change.sourceList.sources.Nodup ∧
      s.data.changeMulticastGroupMembership isMulticast change.group
        (s.filters change.socket change.group) change.sourceList = .ok (changed, s'.data) ∧
      s'.filters = Function.update s.filters change.socket
        (Function.update (s.filters change.socket) change.group change.sourceList)

/-- The filter of the interface for a group. -/
def value (s : MulticastSockets ι Address) (g : Address) : IPv4MulticastSourceList Address :=
  ((s.data.findHostGroupData g).map HostMulticastGroupData.sourceList).getD {}

/-- The filters of the sockets for a group. -/
def filtersOf (s : MulticastSockets ι Address) (g : Address) (i : ι) :
    IPv4MulticastSourceList Address :=
  s.filters i g

/-- Every entry counts the sockets, and where there is none, no socket has said anything. -/
structure Counted (s : MulticastSockets ι Address) : Prop where
  nodup : ∀ i g, (s.filters i g).sources.Nodup
  entry : ∀ g entry, s.data.findHostGroupData g = some entry → ∃ S, EntryOk S (s.filtersOf g) entry
  absent : ∀ g, s.data.findHostGroupData g = none → ∀ i, s.filters i g = {}

omit [DecidableEq ι] in
theorem isMerge_silent (hf : ∀ i, f i = {}) : IsMerge f ({} : IPv4MulticastSourceList Address) where
  sorted := List.sortedLT_iff_pairwise.2 List.Pairwise.nil
  excluding := by
    rintro ⟨i, hi⟩
    rw [hf i] at hi
    cases hi
  including _ := by
    refine ⟨rfl, fun a ↦ iff_of_false List.not_mem_nil ?_⟩
    rintro ⟨i, hi⟩
    rw [hf i] at hi
    exact List.not_mem_nil hi

omit [DecidableEq ι] in
/-- An entry for a group of which nothing has been said. -/
theorem entryOk_new (hf : ∀ i, f i = {}) : EntryOk ∅ f ({} : HostMulticastGroupData Address) where
  counts mode := by
    have hlists : listsIn mode f = fun _ : ι ↦ [] := by
      funext i
      rw [listsIn, hf i]
      split_ifs <;> rfl
    rw [hlists]
    cases mode
    exacts [Counts.nil, Counts.nil]
  numOfExcludeModeSockets := rfl
  silent i _ := hf i
  sourceList := rfl

/-- **The filter of the interface is the merge of the filters of the sockets.** -/
theorem Counted.isMerge (h : Counted s) (g : Address) : IsMerge (s.filtersOf g) (s.value g) := by
  rw [value]
  cases hentry : s.data.findHostGroupData g with
  | none => exact isMerge_silent (h.absent g hentry)
  | some entry =>
    obtain ⟨S, hok⟩ := h.entry g entry hentry
    exact hok.isMerge

omit [DecidableEq ι] in
/-- If the merge is INCLUDE of nothing, then all sockets are. -/
theorem IsMerge.silent (h : IsMerge f v) (hv : v = {}) (i : ι) : f i = {} := by
  have hnone : ¬ ∃ i, (f i).filterMode = .excludeSources := by
    intro hsome
    have hmode := (h.excluding hsome).1
    rw [hv] at hmode
    cases hmode
  have hmode : (f i).filterMode = .includeSources := mode_eq_include fun hi ↦ hnone ⟨i, hi⟩
  have hsources : (f i).sources = [] := by
    refine List.eq_nil_iff_forall_not_mem.2 fun a ha ↦ ?_
    have hmem := ((h.including hnone).2 a).2 ⟨i, ha⟩
    rw [hv] at hmem
    exact List.not_mem_nil hmem
  cases hf : f i with
  | mk filterMode sources =>
    rw [hf] at hmode hsources
    rw [show filterMode = .includeSources from hmode, show sources = [] from hsources]

theorem filtersOf_update (i : ι) (g g' : Address) (v : IPv4MulticastSourceList Address)
    (data : IPv4MulticastData Address) :
    filtersOf ⟨data, Function.update s.filters i (Function.update (s.filters i) g v)⟩ g' =
      if g' = g then Function.update (s.filtersOf g) i v else s.filtersOf g' := by
  funext j
  show Function.update s.filters i (Function.update (s.filters i) g v) j g' = _
  by_cases hj : j = i
  · subst hj
    rw [Function.update_self]
    split_ifs with hg
    · rw [hg, Function.update_self, Function.update_self]
    · rw [Function.update_of_ne hg, filtersOf]
  · rw [Function.update_of_ne hj]
    split_ifs with hg
    · rw [hg, Function.update_of_ne hj, filtersOf]
    · rfl

/-- The result of a call. -/
structure Changed (s : MulticastSockets ι Address) (change : MembershipChange ι Address)
    (changed : Bool) (s' : MulticastSockets ι Address) : Prop where
  counted : Counted s'
  notified : changed = true ↔ s'.value change.group ≠ s.value change.group
  removed : changed = true → s'.value change.group = {} →
    s'.data.findHostGroupData change.group = none

/-- **A call succeeds**, and keeps the counts. -/
theorem Counted.change (h : Counted s) (change : MembershipChange ι Address)
    (hgroup : isMulticast change.group = true) (hnodup : change.sourceList.sources.Nodup) :
    ∃ changed s', (system ι isMulticast).Step s change changed s' ∧ Changed s change changed s' := by
  obtain ⟨i, g, new⟩ := change
  -- the entry that is found or made
  obtain ⟨entry, hentry, hvalue, S, hok⟩ : ∃ entry : HostMulticastGroupData Address,
      s.data.findOrCreateEntry g (s.filters i g) = .ok entry ∧
      entry.sourceList = s.value g ∧ ∃ S, EntryOk S (s.filtersOf g) entry := by
    rw [IPv4MulticastData.findOrCreateEntry, value]
    cases hfind : s.data.findHostGroupData g with
    | some entry => exact ⟨entry, rfl, rfl, h.entry g entry hfind⟩
    | none =>
      have hsilent := h.absent g hfind
      refine ⟨{}, ?_, rfl, ∅, entryOk_new hsilent⟩
      rw [hsilent i]
      rfl
  obtain ⟨changed, entry', hchange, hok', hchanged⟩ := hok.changeEntry i (h.nodup i g) hnodup
  have hdata : s.data.changeMulticastGroupMembership isMulticast g (s.filters i g) new =
      .ok (changed, s.data.storeEntry g changed entry') := by
    rw [IPv4MulticastData.changeMulticastGroupMembership, if_pos hgroup, hentry]
    show IPv4MulticastData.changeEntry (s.filtersOf g i) new entry >>= _ = _
    rw [hchange]
    rfl
  have hother (g' : Address) (hg : g' ≠ g) :
      (s.data.storeEntry g changed entry').findHostGroupData g' = s.data.findHostGroupData g' := by
    rw [IPv4MulticastData.storeEntry]
    split_ifs
    exacts [AList.lookup_erase_ne hg, AList.lookup_insert_ne hg]
  have hself : (s.data.storeEntry g changed entry').findHostGroupData g =
      if changed = true ∧ entry'.sourceList.isEmpty = true then none else some entry' := by
    rw [IPv4MulticastData.storeEntry]
    split_ifs
    exacts [AList.lookup_erase _ _, AList.lookup_insert _]
  have hempty : entry'.sourceList.isEmpty = true ↔ entry'.sourceList = {} := by
    cases entry'.sourceList with
    | mk filterMode sources => simp [IPv4MulticastSourceList.isEmpty]
  have hnewValue : value (ι := ι) ⟨s.data.storeEntry g changed entry',
      Function.update s.filters i (Function.update (s.filters i) g new)⟩ g = entry'.sourceList := by
    rw [value, hself]
    split_ifs with hremoved
    · exact (hempty.1 hremoved.2).symm
    · rfl
  refine ⟨changed, ⟨s.data.storeEntry g changed entry',
    Function.update s.filters i (Function.update (s.filters i) g new)⟩,
    ⟨hgroup, hnodup, hdata, rfl⟩, ⟨fun j g' ↦ ?_, fun g' entry₁ hfind ↦ ?_, fun g' hfind j ↦ ?_⟩, ?_,
    fun hch hv ↦ ?_⟩
  · have hfilters := congrFun (filtersOf_update (s := s) i g g' new
      (s.data.storeEntry g changed entry')) j
    rw [filtersOf] at hfilters
    rw [hfilters]
    split_ifs with hg
    · by_cases hj : j = i
      · rw [hj, Function.update_self]
        exact hnodup
      · rw [Function.update_of_ne hj]
        exact h.nodup j g
    · exact h.nodup j g'
  · rw [filtersOf_update]
    split_ifs with hg
    · rw [hg, hself] at hfind
      split_ifs at hfind
      obtain rfl := Option.some.inj hfind
      exact ⟨_, hok'⟩
    · rw [hother g' hg] at hfind
      exact h.entry g' entry₁ hfind
  · have hfilters := congrFun (filtersOf_update (s := s) i g g' new
      (s.data.storeEntry g changed entry')) j
    rw [filtersOf] at hfilters
    rw [hfilters]
    split_ifs with hg
    · rw [hg, hself] at hfind
      split_ifs at hfind with hremoved
      exact IsMerge.silent hok'.isMerge (hempty.1 hremoved.2) j
    · rw [hother g' hg] at hfind
      exact h.absent g' hfind j
  · rw [hnewValue, ← hvalue]
    exact hchanged
  · rw [hnewValue] at hv
    exact hself.trans (if_pos ⟨hch, hempty.2 hv⟩)

/-- In every run, the filter of the interface for each group is the merge of the filters of the
sockets; every further call succeeds; there is a notification exactly if a call changes the filter,
and a group whose filter has become INCLUDE of nothing is removed. -/
theorem filter_isMerge {tr : List (Transition (MulticastSockets ι Address) (MembershipChange ι Address) Bool)}
    (h : (system ι isMulticast).Run tr s) :
    (∀ g, IsMerge (s.filtersOf g) (s.value g)) ∧
    (∀ change, isMulticast change.group = true → change.sourceList.sources.Nodup →
      ∃ changed s', (system ι isMulticast).Step s change changed s') ∧
    ∀ t ∈ tr, (t.output = true ↔ t.post.value t.input.group ≠ t.pre.value t.input.group) ∧
      (t.output = true → t.post.value t.input.group = {} →
        t.post.data.findHostGroupData t.input.group = none) := by
  -- a step is the one that the call makes
  have hstep (s : MulticastSockets ι Address) (hs : Counted s) (change : MembershipChange ι Address)
      (changed : Bool) (s' : MulticastSockets ι Address)
      (hstep : (system ι isMulticast).Step s change changed s') : Changed s change changed s' := by
    obtain ⟨hgroup, hnodup, hdata, hfilters⟩ := hstep
    obtain ⟨changed', s'', ⟨-, -, hdata', hfilters'⟩, hresult⟩ := hs.change change hgroup hnodup
    have heq := Except.ok.inj (hdata.symm.trans hdata')
    obtain ⟨rfl, hd⟩ := Prod.ext_iff.1 heq
    have hs' : s' = s'' := by
      cases s'
      cases s''
      simp only at hd hfilters hfilters'
      rw [hd, hfilters, hfilters']
    rwa [hs']
  have hinv {tr : List (Transition (MulticastSockets ι Address) (MembershipChange ι Address) Bool)}
      {s : MulticastSockets ι Address} (h : (system ι isMulticast).Run tr s) : Counted s := by
    refine h.invariant (fun s hs ↦ ?_) fun s change changed s' hs hst ↦ (hstep s hs _ _ _ hst).counted
    obtain rfl := hs
    exact ⟨fun _ _ ↦ List.nodup_nil, fun g entry hentry ↦ (by cases hentry), fun _ _ _ ↦ rfl⟩
  refine ⟨(hinv h).isMerge, fun change hgroup hnodup ↦ ?_, fun t ht ↦ ?_⟩
  · obtain ⟨changed, s', hst, -⟩ : ∃ changed s', (system ι isMulticast).Step s change changed s' ∧
        Changed s change changed s' := (hinv h).change change hgroup hnodup
    exact ⟨changed, s', hst⟩
  · obtain ⟨tr₁, -, -, hpre, htakes, -⟩ := h.eq_append_of_mem ht
    have hresult := hstep _ (hinv hpre) _ _ _ htakes
    exact ⟨hresult.notified, hresult.removed⟩

/-- What a call that does not fail leads to. -/
def after (isMulticast : Address → Bool) (s : MulticastSockets ι Address)
    (change : MembershipChange ι Address) : MulticastSockets ι Address where
  data := ((s.data.changeMulticastGroupMembership isMulticast change.group
    (s.filters change.socket change.group) change.sourceList).toOption.map Prod.snd).getD s.data
  filters := Function.update s.filters change.socket
    (Function.update (s.filters change.socket) change.group change.sourceList)

/-- One socket excludes two sources, and another one includes one of them. -/
theorem filter_isMerge_twoSockets : ∃ s : MulticastSockets ℕ ℕ,
    s.value 5 = ⟨.excludeSources, [1]⟩ ∧ IsMerge (s.filtersOf 5) (s.value 5) := by
  let first : MembershipChange ℕ ℕ := ⟨0, 5, ⟨.excludeSources, [1, 2]⟩⟩
  let second : MembershipChange ℕ ℕ := ⟨1, 5, ⟨.includeSources, [2]⟩⟩
  have hfirst : (system ℕ fun _ ↦ true).Step {} first true (after (fun _ ↦ true) {} first) :=
    ⟨rfl, by decide, rfl, rfl⟩
  have hsecond : (system ℕ fun _ ↦ true).Step (after (fun _ ↦ true) {} first) second true
      (after (fun _ ↦ true) (after (fun _ ↦ true) {} first) second) := ⟨rfl, by decide, rfl, rfl⟩
  exact ⟨_, rfl, (filter_isMerge (((TransitionSystem.Run.nil rfl).snoc hfirst).snoc hsecond)).1 5⟩

end MulticastSockets

end Inet
