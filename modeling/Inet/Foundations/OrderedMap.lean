import Mathlib.Data.List.Sort

/-!
# Ordered maps

A map as a list of entries whose keys ascend, so that going through the map meets the keys in their
order and each of them once. What is found in a map after an insertion or an erasure is what
`find_insert` and `find_erase` say; the entries and the keys are described by what is found
(`mem_entries`, `mem_keys`).
-/

/-- A map with its entries in the order of their keys. -/
structure OrderedMap (κ : Type*) [LinearOrder κ] (ν : Type*) where
  entries : List (κ × ν)
  sorted : (entries.map Prod.fst).SortedLT

namespace OrderedMap

variable {κ ν : Type*} [LinearOrder κ] {m m' : OrderedMap κ ν} {k k' : κ} {v v' : ν}
  {l : List (κ × ν)}

/-- The keys, in their order. -/
def keys (m : OrderedMap κ ν) : List κ :=
  m.entries.map Prod.fst

/-- What there is for a key. -/
def find (m : OrderedMap κ ν) (k : κ) : Option ν :=
  m.entries.lookup k

/-- The map without entries. -/
def empty : OrderedMap κ ν :=
  ⟨[], List.sortedLT_iff_pairwise.2 List.Pairwise.nil⟩

instance : EmptyCollection (OrderedMap κ ν) :=
  ⟨empty⟩

@[simp] theorem find_empty (k : κ) : (∅ : OrderedMap κ ν).find k = none :=
  rfl

@[simp] theorem keys_empty : (∅ : OrderedMap κ ν).keys = [] :=
  rfl

theorem sorted_keys (m : OrderedMap κ ν) : m.keys.SortedLT :=
  m.sorted

/-! ### Looking up -/

theorem lookup_cons (e : κ × ν) (l : List (κ × ν)) (k : κ) :
    (e :: l).lookup k = if k = e.1 then some e.2 else l.lookup k := by
  rw [List.lookup_cons]
  split_ifs with h
  · rw [beq_iff_eq.2 h]
  · rw [beq_eq_false_iff_ne.2 h]

theorem mem_iff_lookup (hl : (l.map Prod.fst).SortedLT) : (k, v) ∈ l ↔ l.lookup k = some v := by
  induction l with
  | nil => simp
  | cons e l ih =>
    obtain ⟨k', v'⟩ := e
    rw [List.map_cons, List.sortedLT_iff_pairwise, List.pairwise_cons] at hl
    have ih := ih (List.sortedLT_iff_pairwise.2 hl.2)
    rw [List.mem_cons, lookup_cons]
    by_cases hk : k = k'
    · subst hk
      have hnot : (k, v) ∉ l := fun h ↦ lt_irrefl k (hl.1 k (List.mem_map_of_mem h))
      simp [hnot, eq_comm]
    · simp [hk, ih]

theorem mem_entries : (k, v) ∈ m.entries ↔ m.find k = some v :=
  mem_iff_lookup m.sorted

theorem mem_keys : k ∈ m.keys ↔ ∃ v, m.find k = some v := by
  rw [keys, List.mem_map]
  constructor
  · rintro ⟨⟨k', v⟩, hmem, rfl⟩
    exact ⟨v, mem_entries.1 hmem⟩
  · rintro ⟨v, hv⟩
    exact ⟨(k, v), mem_entries.2 hv, rfl⟩

theorem find_eq_none : m.find k = none ↔ k ∉ m.keys := by
  rw [mem_keys, ← Option.ne_none_iff_exists', not_not]

/-- Maps in which the same is found are the same. -/
theorem ext_find (h : ∀ k, m.find k = m'.find k) : m = m' := by
  have hmem (e : κ × ν) : e ∈ m.entries ↔ e ∈ m'.entries := by
    obtain ⟨k, v⟩ := e
    rw [mem_entries, mem_entries, h]
  have hirrefl : Std.Irrefl fun e e' : κ × ν ↦ e.1 < e'.1 := ⟨fun e ↦ lt_irrefl e.1⟩
  obtain ⟨l, hl⟩ := m
  obtain ⟨l', hl'⟩ := m'
  rw [List.sortedLT_iff_pairwise, List.pairwise_map] at hl hl'
  obtain rfl : l = l' := List.Pairwise.eq_of_mem_iff hl hl' fun e ↦ hmem e
  rfl

/-! ### Inserting -/

/-- Putting an entry in its place. -/
def insertEntry (k : κ) (v : ν) : List (κ × ν) → List (κ × ν)
  | [] => [(k, v)]
  | e :: l =>
    if k < e.1 then (k, v) :: e :: l
    else if k = e.1 then (k, v) :: l
    else e :: insertEntry k v l

theorem mem_map_fst_insertEntry : k' ∈ (insertEntry k v l).map Prod.fst ↔ k' = k ∨ k' ∈ l.map Prod.fst := by
  induction l with
  | nil => simp [insertEntry]
  | cons e l ih =>
    rw [insertEntry]
    split_ifs with hlt heq
    · simp
    · simp [heq]
    · rw [List.map_cons, List.mem_cons, ih, List.map_cons, List.mem_cons]
      tauto

theorem sorted_insertEntry (k : κ) (v : ν) (hl : (l.map Prod.fst).SortedLT) :
    ((insertEntry k v l).map Prod.fst).SortedLT := by
  induction l with
  | nil => exact List.sortedLT_iff_pairwise.2 (List.pairwise_singleton _ _)
  | cons e l ih =>
    have hcons := List.sortedLT_iff_pairwise.1 hl
    rw [List.map_cons, List.pairwise_cons] at hcons
    have hl' := List.sortedLT_iff_pairwise.2 hcons.2
    rw [insertEntry]
    split_ifs with hlt heq
    · rw [List.map_cons, List.sortedLT_iff_pairwise, List.pairwise_cons]
      refine ⟨fun k' hk' ↦ ?_, List.sortedLT_iff_pairwise.1 hl⟩
      rcases List.mem_cons.1 hk' with rfl | hk'
      exacts [hlt, hlt.trans (hcons.1 k' hk')]
    · rw [List.map_cons, List.sortedLT_iff_pairwise, List.pairwise_cons]
      exact ⟨heq ▸ hcons.1, hcons.2⟩
    · rw [List.map_cons, List.sortedLT_iff_pairwise, List.pairwise_cons]
      refine ⟨fun k' hk' ↦ ?_, List.sortedLT_iff_pairwise.1 (ih hl')⟩
      rcases mem_map_fst_insertEntry.1 hk' with rfl | hk'
      exacts [lt_of_le_of_ne (not_lt.1 hlt) (Ne.symm heq), hcons.1 k' hk']

/-- The map with an entry for a key. -/
def insert (m : OrderedMap κ ν) (k : κ) (v : ν) : OrderedMap κ ν :=
  ⟨insertEntry k v m.entries, sorted_insertEntry k v m.sorted⟩

theorem lookup_insertEntry :
    (insertEntry k v l).lookup k' = if k' = k then some v else l.lookup k' := by
  induction l with
  | nil => exact lookup_cons (k, v) [] k'
  | cons e l ih =>
    by_cases hk : k' = k
    · rw [if_pos hk, insertEntry]
      split_ifs with hlt heq
      · rw [lookup_cons, if_pos hk]
      · rw [lookup_cons, if_pos hk]
      · rw [lookup_cons, ih, if_neg (hk ▸ heq), if_pos hk]
    · rw [if_neg hk, insertEntry]
      split_ifs with hlt heq
      · rw [lookup_cons, if_neg hk]
      · rw [lookup_cons, if_neg hk, lookup_cons, if_neg (heq ▸ hk)]
      · rw [lookup_cons, ih, if_neg hk, lookup_cons]

theorem find_insert (m : OrderedMap κ ν) (k : κ) (v : ν) (k' : κ) :
    (m.insert k v).find k' = if k' = k then some v else m.find k' :=
  lookup_insertEntry

/-! ### Erasing -/

/-- The map without the entry of a key. -/
def erase (m : OrderedMap κ ν) (k : κ) : OrderedMap κ ν :=
  ⟨m.entries.filter fun e ↦ e.1 ≠ k, by
    have h := List.pairwise_map.1 (List.sortedLT_iff_pairwise.1 m.sorted)
    exact List.sortedLT_iff_pairwise.2 (List.pairwise_map.2 (h.sublist List.filter_sublist))⟩

theorem find_erase (m : OrderedMap κ ν) (k k' : κ) :
    (m.erase k).find k' = if k' = k then none else m.find k' := by
  refine Option.ext fun v ↦ ?_
  rw [← mem_entries, erase, List.mem_filter, mem_entries]
  by_cases hk : k' = k <;> simp [hk]

theorem erase_eq_self (h : m.find k = none) : m.erase k = m :=
  ext_find fun k' ↦ by
    rw [find_erase]
    split_ifs with hk
    · rw [hk, h]
    · rfl

/-! ### Changing all values -/

/-- The entries whose values satisfy a predicate. -/
def filterValues (m : OrderedMap κ ν) (p : ν → Bool) : OrderedMap κ ν :=
  ⟨m.entries.filter fun e ↦ p e.2, by
    have h := List.pairwise_map.1 (List.sortedLT_iff_pairwise.1 m.sorted)
    exact List.sortedLT_iff_pairwise.2 (List.pairwise_map.2 (h.sublist List.filter_sublist))⟩

theorem find_filterValues (m : OrderedMap κ ν) (p : ν → Bool) (k : κ) :
    (m.filterValues p).find k = (m.find k).filter p := by
  refine Option.ext fun v ↦ ?_
  rw [← mem_entries, filterValues, List.mem_filter, mem_entries, Option.filter_eq_some_iff]

/-- A function is applied to each value. -/
def mapValues {ν' : Type*} (m : OrderedMap κ ν) (f : ν → ν') : OrderedMap κ ν' :=
  ⟨m.entries.map fun e ↦ (e.1, f e.2), by
    rw [List.map_map]
    exact m.sorted⟩

theorem find_mapValues {ν' : Type*} (m : OrderedMap κ ν) (f : ν → ν') (k : κ) :
    (m.mapValues f).find k = (m.find k).map f := by
  refine Option.ext fun v ↦ ?_
  rw [← mem_entries, mapValues, List.mem_map, Option.map_eq_some_iff]
  constructor
  · rintro ⟨⟨k', v'⟩, hmem, heq⟩
    obtain ⟨rfl, rfl⟩ := Prod.ext_iff.1 heq
    exact ⟨v', mem_entries.1 hmem, rfl⟩
  · rintro ⟨v', hfind, rfl⟩
    exact ⟨(k, v'), mem_entries.2 hfind, rfl⟩

/-! ### The values in the order of their keys -/

/-- The values, in the order of their keys. -/
def values (m : OrderedMap κ ν) : List ν :=
  m.entries.map Prod.snd

theorem mem_values : v ∈ m.values ↔ ∃ k, m.find k = some v := by
  rw [values, List.mem_map]
  constructor
  · rintro ⟨⟨k, v⟩, hmem, rfl⟩
    exact ⟨k, mem_entries.1 hmem⟩
  · rintro ⟨k, hk⟩
    exact ⟨(k, v), mem_entries.2 hk, rfl⟩

theorem insertEntry_split (hl : (l.map Prod.fst).SortedLT) (hk : l.lookup k = none) :
    ∃ l₁ l₂, l = l₁ ++ l₂ ∧ insertEntry k v l = l₁ ++ (k, v) :: l₂ ∧ ∀ e ∈ l₂, k < e.1 := by
  induction l with
  | nil => exact ⟨[], [], rfl, rfl, fun e he ↦ absurd he List.not_mem_nil⟩
  | cons e l ih =>
    rw [lookup_cons] at hk
    rw [List.map_cons, List.sortedLT_iff_pairwise, List.pairwise_cons] at hl
    have hne : k ≠ e.1 := fun h ↦ by
      rw [if_pos h] at hk
      cases hk
    rw [insertEntry, if_neg hne]
    split_ifs with hlt
    · refine ⟨[], e :: l, rfl, rfl, fun e' he' ↦ ?_⟩
      rcases List.mem_cons.1 he' with rfl | he'
      exacts [hlt, hlt.trans (hl.1 e'.1 (List.mem_map_of_mem he'))]
    · obtain ⟨l₁, l₂, rfl, heq, hafter⟩ :=
        ih (List.sortedLT_iff_pairwise.2 hl.2) ((if_neg hne).symm.trans hk)
      exact ⟨e :: l₁, l₂, rfl, by rw [heq, List.cons_append], hafter⟩

/-- A new entry has its place among the others. -/
theorem insert_split (hk : m.find k = none) :
    ∃ l₁ l₂, m.entries = l₁ ++ l₂ ∧ (m.insert k v).entries = l₁ ++ (k, v) :: l₂ ∧
      ∀ e ∈ l₂, k < e.1 :=
  insertEntry_split m.sorted hk

theorem values_insert_perm (hk : m.find k = none) : (m.insert k v).values.Perm (v :: m.values) := by
  obtain ⟨l₁, l₂, heq, hinsert, -⟩ := m.insert_split (v := v) hk
  rw [values, values, heq, hinsert, List.map_append, List.map_append, List.map_cons]
  exact List.perm_middle

theorem filter_values_insert_of_neg {p : ν → Bool} (hk : m.find k = none) (hv : p v = false) :
    (m.insert k v).values.filter p = m.values.filter p := by
  obtain ⟨l₁, l₂, heq, hinsert, -⟩ := m.insert_split (v := v) hk
  rw [values, values, heq, hinsert, List.map_append, List.map_append, List.map_cons,
    List.filter_append, List.filter_append, List.filter_cons_of_neg (Bool.eq_false_iff.1 hv)]

/-- A value whose key is behind those of its kind is the last of them. -/
theorem filter_values_insert_of_last {p : ν → Bool} (hk : m.find k = none) (hv : p v = true)
    (hlast : ∀ k' v', m.find k' = some v' → p v' = true → k' < k) :
    (m.insert k v).values.filter p = m.values.filter p ++ [v] := by
  obtain ⟨l₁, l₂, heq, hinsert, hafter⟩ := m.insert_split (v := v) hk
  have hnone : (l₂.map Prod.snd).filter p = [] := by
    rw [List.filter_eq_nil_iff]
    intro v' hv' hp
    obtain ⟨⟨k', v'⟩, hmem, rfl⟩ := List.mem_map.1 hv'
    have hfind := mem_entries.1 (heq ▸ List.mem_append_right l₁ hmem)
    exact lt_asymm (hafter _ hmem) (hlast k' v' hfind hp)
  rw [values, values, heq, hinsert, List.map_append, List.map_append, List.map_cons,
    List.filter_append, List.filter_append, List.filter_cons_of_pos hv, hnone, List.append_nil]

theorem entries_erase_head {e : κ × ν} (h : m.entries = e :: l) : (m.erase e.1).entries = l := by
  have hsorted := List.sortedLT_iff_pairwise.1 m.sorted
  rw [h, List.map_cons, List.pairwise_cons] at hsorted
  show m.entries.filter _ = l
  rw [h, List.filter_cons_of_neg (by simp), List.filter_eq_self]
  intro e' he'
  exact decide_eq_true (hsorted.1 e'.1 (List.mem_map_of_mem he')).ne'

theorem length_erase_lt (h : m.find k = some v) :
    (m.erase k).entries.length < m.entries.length :=
  List.length_filter_lt_length_iff_exists.2 ⟨(k, v), mem_entries.2 h, by simp⟩

end OrderedMap
