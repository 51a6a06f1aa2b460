import Mathlib.Data.Nat.Nth
import Mathlib.Data.Set.Function

/-!
# Matching responses to earlier requests

A list of events, some of which are requests and some responses, each carrying a key. When no
prefix of the list holds more responses than requests under any key (`KeyBalanced`), every response
can be assigned an earlier request with its own key, no request being assigned twice
(`KeyBalanced.exists_matching`).

The assignment is the first-come one: the response with `c` earlier responses under its key goes to
the request that `Nat.nth` counts as number `c` under that key. `Nat.count` and `Nat.nth` then do
all the work: balance puts that request before the response, and it is injective because
`Nat.count` is.

`KeyBalanced` is what a machine maintains step by step. `KeyBalanced.append` is the rule for that: a
block of new events is safe to add once all responses, old and new, are covered by the requests that
stood before the block.
-/

/-- How many events of the list carry the key `k` under `f`. -/
def keyCount {α κ : Type*} [DecidableEq κ] (f : α → Option κ) (k : κ) (l : List α) : ℕ :=
  l.countP fun a ↦ f a = some k

section KeyCount

variable {α κ : Type*} [DecidableEq κ] {f : α → Option κ} {k : κ}

@[simp]
theorem keyCount_nil : keyCount f k [] = 0 :=
  rfl

@[simp]
theorem keyCount_cons (a : α) (l : List α) :
    keyCount f k (a :: l) = (if f a = some k then 1 else 0) + keyCount f k l := by
  simp [keyCount, List.countP_cons, Nat.add_comm]

@[simp]
theorem keyCount_append (l₁ l₂ : List α) :
    keyCount f k (l₁ ++ l₂) = keyCount f k l₁ + keyCount f k l₂ := by
  simp [keyCount]

theorem keyCount_le_of_prefix {l₁ l₂ : List α} (h : l₁ <+: l₂) :
    keyCount f k l₁ ≤ keyCount f k l₂ :=
  h.sublist.countP_le

/-- A list none of whose events carries a key counts nothing. -/
theorem keyCount_eq_zero {l : List α} (h : ∀ a ∈ l, f a = none) : keyCount f k l = 0 := by
  rw [keyCount, List.countP_eq_zero]
  intro a ha
  simp [h a ha]

/-- Taking an event out of the list takes its key out of the count. -/
theorem keyCount_erase_add [DecidableEq α] {l : List α} {a : α} (h : a ∈ l) :
    keyCount f k (l.erase a) + keyCount f k [a] = keyCount f k l := by
  unfold keyCount
  rw [(List.perm_cons_erase h).countP_eq, List.countP_cons, List.countP_cons, List.countP_nil,
    Nat.zero_add]

/-- A key that is counted is carried by an event. -/
theorem exists_of_keyCount_pos {l : List α} (h : 0 < keyCount f k l) : ∃ a ∈ l, f a = some k := by
  obtain ⟨a, ha, hk⟩ := List.countP_pos_iff.1 h
  exact ⟨a, ha, by simpa using hk⟩

theorem keyCount_pos {l : List α} {a : α} (ha : a ∈ l) (hk : f a = some k) :
    0 < keyCount f k l :=
  List.countP_pos_iff.2 ⟨a, ha, by simpa using hk⟩

/-- Counting over a prefix is `Nat.count` over its positions. -/
theorem keyCount_take (l : List α) (n : ℕ) :
    keyCount f k (l.take n) = Nat.count (fun i ↦ l[i]?.bind f = some k) n := by
  induction n with
  | zero => simp
  | succ n ih =>
    rw [Nat.count_succ, List.take_add_one, keyCount_append, ih]
    cases h : l[n]? with
    | none => simp
    | some a => simp

end KeyCount

/-- No prefix holds more responses than requests under any key. -/
def KeyBalanced {α κ : Type*} [DecidableEq κ] (req resp : α → Option κ) (l : List α) : Prop :=
  ∀ l', l' <+: l → ∀ k, keyCount resp k l' ≤ keyCount req k l'

namespace KeyBalanced

variable {α κ : Type*} [DecidableEq κ] {req resp : α → Option κ}

theorem nil : KeyBalanced req resp [] := by
  intro l' h k
  rw [List.prefix_nil.1 h]
  simp

/-- Adding a block of events whose responses, together with the earlier ones, are covered by the
earlier requests. -/
theorem append {l b : List α} (h : KeyBalanced req resp l)
    (hcover : ∀ k, keyCount resp k (l ++ b) ≤ keyCount req k l) :
    KeyBalanced req resp (l ++ b) := by
  intro l' hl' k
  rcases List.prefix_or_prefix_of_prefix hl' (List.prefix_append l b) with hle | hle
  · exact h l' hle k
  · calc keyCount resp k l'
        ≤ keyCount resp k (l ++ b) := keyCount_le_of_prefix hl'
      _ ≤ keyCount req k l := hcover k
      _ ≤ keyCount req k l' := keyCount_le_of_prefix hle

/-- At a response, an unused request under its key stands strictly before it. -/
theorem count_lt_count {l : List α} (h : KeyBalanced req resp l)
    (hdisj : ∀ a ∈ l, resp a ≠ none → req a = none) {i : ℕ} {k : κ}
    (hi : l[i]?.bind resp = some k) :
    Nat.count (fun j ↦ l[j]?.bind resp = some k) i <
      Nat.count (fun j ↦ l[j]?.bind req = some k) i := by
  obtain ⟨a, ha, hak⟩ := Option.bind_eq_some_iff.1 hi
  have hreq : ¬ l[i]?.bind req = some k := by
    rw [ha, Option.bind_some, hdisj a (List.mem_of_getElem? ha) (by simp [hak])]
    simp
  have hle := h _ (List.take_prefix (i + 1) l) k
  rw [keyCount_take, keyCount_take, Nat.count_succ, Nat.count_succ, if_pos hi, if_neg hreq] at hle
  omega

/-- **Balance is a matching.** Every response has its own earlier request with the same key. -/
theorem exists_matching {l : List α} (h : KeyBalanced req resp l)
    (hdisj : ∀ a ∈ l, resp a ≠ none → req a = none) :
    ∃ m : ℕ → ℕ,
      (∀ i k, l[i]?.bind resp = some k → m i < i ∧ l[m i]?.bind req = some k) ∧
        Set.InjOn m {i | (l[i]?.bind resp).isSome} := by
  let P : κ → ℕ → Prop := fun k j ↦ l[j]?.bind req = some k
  let Q : κ → ℕ → Prop := fun k j ↦ l[j]?.bind resp = some k
  let m : ℕ → ℕ := fun i ↦
    match l[i]?.bind resp with
    | some k => Nat.nth (P k) (Nat.count (Q k) i)
    | none => 0
  have hm : ∀ i k, Q k i → m i = Nat.nth (P k) (Nat.count (Q k) i) := by
    intro i k hi
    simp only [m, show l[i]?.bind resp = some k from hi]
  -- enough requests under the key exist for `nth` to be one of them
  have hcard : ∀ i k, Q k i →
      ∀ hf : (Set.ofPred (P k)).Finite, Nat.count (Q k) i < hf.toFinset.card := by
    intro i k hi hf
    exact (h.count_lt_count hdisj hi).trans_le (Nat.count_le_card hf i)
  refine ⟨m, fun i k hi ↦ ?_, ?_⟩
  · rw [hm i k hi]
    exact ⟨Nat.nth_lt_of_lt_count (h.count_lt_count hdisj hi), Nat.nth_mem _ (hcard i k hi)⟩
  · intro i hi j hj hij
    obtain ⟨k, hik⟩ := Option.isSome_iff_exists.1 hi
    obtain ⟨k', hjk⟩ := Option.isSome_iff_exists.1 hj
    rw [hm i k hik, hm j k' hjk] at hij
    have hPi : P k (Nat.nth (P k) (Nat.count (Q k) i)) := Nat.nth_mem _ (hcard i k hik)
    have hPj : P k' (Nat.nth (P k') (Nat.count (Q k') j)) := Nat.nth_mem _ (hcard j k' hjk)
    -- the shared request has one key only
    obtain rfl : k = k' := by
      rw [← hij] at hPj
      exact Option.some.inj (hPi.symm.trans hPj)
    have hcount : Nat.count (Q k) i = Nat.count (Q k) j := by
      rw [← Nat.count_nth (hcard i k hik), hij, Nat.count_nth (hcard j k hjk)]
    exact Nat.count_injective hik hjk hcount

end KeyBalanced
