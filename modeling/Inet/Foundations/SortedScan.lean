import Mathlib.Data.List.InsertIdx
import Mathlib.Order.Lattice
import Mathlib.Algebra.Order.Group.Nat
import Mathlib.Data.List.Pairwise
import Mathlib.Data.List.Sort

/-!
# Sorted tables that are scanned for the first match

The rows of a table are kept in the order of a key, and a new row is inserted behind those that do
not come after it, where a binary search finds the place (`upperBound_append`, `Ordered.insertRow`),
or the table is sorted anew (`ordered_stableSort`). The first row that matches is then one with the
least key among all that match (`Ordered.key_le_of_find?`).

What a scan has found may be remembered, and answers later scans as long as no row that could come
first begins to match (`Remembers`).
-/

namespace SortedScan

variable {α κ : Type*}

/-! ### Binary search -/

/-- The loop of `std::upper_bound` over the `len` rows from `first` on; `p` says which rows come
after the value that is looked for. It has no more turns than there are rows. -/
def upperBoundLoop (p : α → Bool) (l : List α) : ℕ → ℕ → ℕ → ℕ
  | 0, first, _ => first
  | n + 1, first, len =>
    if len = 0 then first
    else
      match l[first + len / 2]? with
      | some a =>
        if p a then upperBoundLoop p l n first (len / 2)
        else upperBoundLoop p l n (first + len / 2 + 1) (len - len / 2 - 1)
      | none => first

/-- `std::upper_bound`. -/
def upperBound (p : α → Bool) (l : List α) : ℕ :=
  upperBoundLoop p l l.length 0 l.length

variable {p : α → Bool} {l : List α}

/-- The loop ends at the point from which on the rows come after the value. -/
theorem upperBoundLoop_eq {k : ℕ} (hk : ∀ j a, l[j]? = some a → (p a = true ↔ k ≤ j))
    {n first len : ℕ} (hn : len ≤ n) (hlen : first + len ≤ l.length) (hfirst : first ≤ k)
    (hlast : k ≤ first + len) : upperBoundLoop p l n first len = k := by
  induction n generalizing first len with
  | zero =>
    rw [upperBoundLoop]
    omega
  | succ n ih =>
    rw [upperBoundLoop]
    split_ifs with hzero
    · omega
    cases hget : l[first + len / 2]? with
    | none =>
      rw [List.getElem?_eq_none_iff] at hget
      omega
    | some a =>
      have hiff := hk _ a hget
      simp only
      split_ifs with hafter
      · exact ih (by omega) (by omega) hfirst (hiff.1 hafter)
      · have hlt : ¬ k ≤ first + len / 2 := fun hle ↦ hafter (hiff.2 hle)
        exact ih (by omega) (by omega) (by omega) (by omega)

/-- In rows of which those that come after the value are the last ones. -/
theorem upperBound_append {l₁ l₂ : List α} (h₁ : ∀ a ∈ l₁, p a = false)
    (h₂ : ∀ a ∈ l₂, p a = true) : upperBound p (l₁ ++ l₂) = l₁.length := by
  refine upperBoundLoop_eq (fun j a hget ↦ ?_) le_rfl (Nat.zero_add _).le (Nat.zero_le _) ?_
  · rcases lt_or_ge j l₁.length with hlt | hge
    · rw [List.getElem?_append_left hlt] at hget
      simp [h₁ a (List.mem_of_getElem? hget), hlt]
    · rw [List.getElem?_append_right hge] at hget
      simp [h₂ a (List.mem_of_getElem? hget), hge]
  · rw [List.length_append]
    omega

/-! ### Insertion -/

variable [LinearOrder κ] {key : α → κ}

/-- The rows are in the order of their keys. -/
def Ordered (key : α → κ) (l : List α) : Prop :=
  l.Pairwise fun a b ↦ key a ≤ key b

/-- A row is inserted at its upper bound. -/
def insertRow (p : α → Bool) (a : α) (l : List α) : List α :=
  l.insertIdx (upperBound p l) a

/-- Ordered rows are split where those begin that come after the value. -/
theorem Ordered.exists_split (h : Ordered key l) {x : κ} (hp : ∀ a, p a = true ↔ x < key a) :
    ∃ l₁ l₂, l = l₁ ++ l₂ ∧ (∀ a ∈ l₁, p a = false) ∧ ∀ a ∈ l₂, p a = true := by
  induction l with
  | nil => exact ⟨[], [], rfl, by simp, by simp⟩
  | cons a l ih =>
    obtain ⟨hle, hl⟩ := List.pairwise_cons.1 h
    cases hpa : p a with
    | true =>
      refine ⟨[], a :: l, rfl, by simp, List.forall_mem_cons.2 ⟨hpa, fun b hb ↦ ?_⟩⟩
      exact (hp b).2 (((hp a).1 hpa).trans_le (hle b hb))
    | false =>
      obtain ⟨l₁, l₂, rfl, h₁, h₂⟩ := ih hl
      exact ⟨a :: l₁, l₂, rfl, List.forall_mem_cons.2 ⟨hpa, h₁⟩, h₂⟩

theorem insertRow_append (a : α) {l₁ l₂ : List α} (h₁ : ∀ b ∈ l₁, p b = false)
    (h₂ : ∀ b ∈ l₂, p b = true) : insertRow p a (l₁ ++ l₂) = l₁ ++ a :: l₂ := by
  rw [insertRow, upperBound_append h₁ h₂]
  induction l₁ with
  | nil => rfl
  | cons b l₁ ih => simpa using ih (fun c hc ↦ h₁ c (List.mem_cons_of_mem b hc))

/-- **An insertion** keeps the order, and adds the row. -/
theorem Ordered.insertRow {a : α} (h : Ordered key l) (hp : ∀ b, p b = true ↔ key a < key b) :
    Ordered key (insertRow p a l) ∧ (SortedScan.insertRow p a l).Perm (a :: l) := by
  obtain ⟨l₁, l₂, rfl, h₁, h₂⟩ := h.exists_split hp
  rw [insertRow_append a h₁ h₂]
  obtain ⟨hl₁, hl₂, hcross⟩ := List.pairwise_append.1 h
  refine ⟨List.pairwise_append.2 ⟨hl₁, List.pairwise_cons.2 ⟨fun b hb ↦ ?_, hl₂⟩, ?_⟩,
    List.perm_middle⟩
  · exact ((hp b).1 (h₂ b hb)).le
  · intro b hb c hc
    rcases List.mem_cons.1 hc with rfl | hc
    · refine not_lt.1 fun hlt ↦ ?_
      rw [← hp, h₁ b hb] at hlt
      cases hlt
    · exact hcross b hb c hc

theorem Ordered.sublist {l' : List α} (h : Ordered key l) (hl : l'.Sublist l) : Ordered key l' :=
  List.Pairwise.sublist hl h

/-- Rows may be changed as long as the order stays. -/
theorem Ordered.map {f : α → α} (h : Ordered key l) (hf : ∀ a ∈ l, key (f a) = key a) :
    Ordered key (l.map f) := by
  rw [Ordered, List.pairwise_map]
  refine List.Pairwise.imp_of_mem (fun {a b} ha hb hle ↦ ?_) h
  rwa [hf a ha, hf b hb]

/-! ### Sorting -/

/-- `std::stable_sort`: rows of which neither is less than the other stay in the order in which they
are. -/
def stableSort (less : α → α → Bool) (l : List α) : List α :=
  l.insertionSort fun a b ↦ less b a = false

/-- **Sorting** by a comparison of keys makes the order. -/
theorem ordered_stableSort {less : α → α → Bool}
    (hless : ∀ a b, less a b = true ↔ key a < key b) (l : List α) :
    Ordered key (stableSort less l) := by
  have hle (a b : α) : less b a = false ↔ key a ≤ key b := by
    rw [← not_lt, ← hless, Bool.not_eq_true]
  have : Std.Total fun a b ↦ less b a = false :=
    ⟨fun a b ↦ by rw [hle, hle]; exact le_total (key a) (key b)⟩
  have : IsTrans α fun a b ↦ less b a = false :=
    ⟨fun a b c hab hbc ↦ by rw [hle] at *; exact hab.trans hbc⟩
  exact (List.pairwise_insertionSort (fun a b ↦ less b a = false) l).imp fun h ↦ (hle _ _).1 h

/-! ### Scans -/

/-- **The first match is a best match.** -/
theorem Ordered.key_le_of_find? (h : Ordered key l) {m : α → Bool} {a : α}
    (hfind : l.find? m = some a) {b : α} (hb : b ∈ l) (hmatch : m b = true) : key a ≤ key b := by
  obtain ⟨-, l₁, l₂, rfl, hbefore⟩ := List.find?_eq_some_iff_append.1 hfind
  rcases List.mem_append.1 hb with hb | hb
  · simpa [hmatch] using hbefore b hb
  · rcases List.mem_cons.1 hb with rfl | hb
    · exact le_rfl
    · exact (List.pairwise_cons.1 (List.pairwise_append.1 h).2.1).1 b hb

/-- What has been found: no row, or one before which none matches. -/
def Remembers (m : α → Bool) (l : List α) : Option α → Prop
  | none => ∀ b ∈ l, m b = false
  | some a => ∃ l₁ l₂, l = l₁ ++ a :: l₂ ∧ ∀ b ∈ l₁, m b = false

theorem remembers_find? (m : α → Bool) (l : List α) : Remembers m l (l.find? m) := by
  cases hfind : l.find? m with
  | none => simpa [Remembers] using hfind
  | some a =>
    obtain ⟨-, l₁, l₂, rfl, hbefore⟩ := List.find?_eq_some_iff_append.1 hfind
    exact ⟨l₁, l₂, rfl, by simpa using hbefore⟩

/-- **What is remembered is what a scan finds**, if it still matches. -/
theorem Remembers.find? {m : α → Bool} {r : Option α} (h : Remembers m l r)
    (hr : ∀ a, r = some a → m a = true) : l.find? m = r := by
  cases r with
  | none => simpa [Remembers] using h
  | some a =>
    obtain ⟨l₁, l₂, rfl, hbefore⟩ := h
    exact List.find?_eq_some_iff_append.2 ⟨hr a rfl, l₁, l₂, rfl, by simpa using hbefore⟩

/-- It stays when rows are changed and none begins to match. -/
theorem Remembers.map {m : α → Bool} {r : Option α} (h : Remembers m l r) {f : α → α}
    (hf : ∀ a ∈ l, m (f a) = true → m a = true) : Remembers m (l.map f) (r.map f) := by
  have hstay : ∀ a ∈ l, m a = false → m (f a) = false := by
    intro a ha hfalse
    have himp := hf a ha
    rw [hfalse] at himp
    simpa using himp
  cases r with
  | none => simpa [Remembers] using fun a ha ↦ hstay a ha (h a ha)
  | some a =>
    obtain ⟨l₁, l₂, rfl, hbefore⟩ := h
    refine ⟨l₁.map f, l₂.map f, by simp, ?_⟩
    rw [List.forall_mem_map]
    exact fun b hb ↦ hstay b (List.mem_append_left _ hb) (hbefore b hb)

end SortedScan
