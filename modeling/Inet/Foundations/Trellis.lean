import Mathlib.Data.Set.Basic
import Mathlib.Data.List.Basic

/-!
# Cheapest paths through a trellis

A machine reads inputs one after the other, and each costs something that depends on the time, on
the state and on the input. The cheapest way to every state after `n + 1` inputs goes on from the
cheapest way to some state after `n` (`Optimal.succ`). A table that keeps the cheapest of the
candidates that it is shown, whatever it does with equal ones, has the cheapest of all
(`Cheapest.replace`, `Cheapest.keep`); and a path is found by going back from every state to the one
that it was reached from (`trace_spec`).
-/

namespace Trellis

section Paths

variable {σ ι : Type} (next : σ → ι → σ) (cost : ℕ → σ → ι → ℕ) (inputs : Set ι) (start : σ)

/-- What some inputs cost, from time `n` on. -/
def pathCost : ℕ → σ → List ι → ℕ
  | _, _, [] => 0
  | n, s, i :: is => cost n s i + pathCost (n + 1) (next s i) is

/-- Inputs that lead to a state at time `n`. -/
structure IsPath (n : ℕ) (s : σ) (is : List ι) : Prop where
  length_eq : is.length = n
  mem : ∀ i ∈ is, i ∈ inputs
  state : is.foldl next start = s

variable {next cost inputs start} {n : ℕ} {s t : σ} {i : ι} {is : List ι}

theorem pathCost_append (js : List ι) : pathCost next cost n s (is ++ js) =
    pathCost next cost n s is + pathCost next cost (n + is.length) (is.foldl next s) js := by
  induction is generalizing n s with
  | nil => simp [pathCost]
  | cons i is ih =>
    rw [List.cons_append, pathCost, pathCost, ih, List.foldl_cons, List.length_cons, Nat.add_assoc,
      Nat.add_assoc, Nat.add_comm 1]

theorem pathCost_concat :
    pathCost next cost 0 s (is ++ [i]) =
      pathCost next cost 0 s is + cost is.length (is.foldl next s) i := by
  rw [pathCost_append, Nat.zero_add, pathCost, pathCost, Nat.add_zero]

theorem IsPath.nil : IsPath next inputs start 0 start [] :=
  ⟨rfl, List.forall_mem_nil _, rfl⟩

theorem IsPath.concat (h : IsPath next inputs start n s is) (hi : i ∈ inputs) :
    IsPath next inputs start (n + 1) (next s i) (is ++ [i]) where
  length_eq := by rw [List.length_append, h.length_eq, List.length_singleton]
  mem := by
    rw [List.forall_mem_append]
    exact ⟨h.mem, List.forall_mem_singleton.2 hi⟩
  state := by rw [List.foldl_append, h.state, List.foldl_cons, List.foldl_nil]

/-- A path is one that is shorter by the last input. -/
theorem IsPath.exists_concat (h : IsPath next inputs start (n + 1) t is) :
    ∃ s js i, IsPath next inputs start n s js ∧ i ∈ inputs ∧ t = next s i ∧ is = js ++ [i] := by
  rcases List.eq_nil_or_concat is with rfl | ⟨js, i, rfl⟩
  · exact absurd h.length_eq (Nat.succ_ne_zero n).symm
  · obtain ⟨hlength, hmem, hstate⟩ := h
    rw [List.concat_eq_append] at *
    rw [List.forall_mem_append] at hmem
    rw [List.length_append] at hlength
    refine ⟨_, js, i, ⟨Nat.succ.inj hlength, hmem.1, rfl⟩, hmem.2 i (List.mem_singleton_self i), ?_, rfl⟩
    rw [← hstate, List.foldl_append, List.foldl_cons, List.foldl_nil]

variable (next cost inputs start) in
/-- `best` has the least cost of the paths to every state at time `n`, and nothing where there is
none. -/
structure Optimal (n : ℕ) (best : σ → Option ℕ) : Prop where
  attained : ∀ s c, best s = some c →
    ∃ is, IsPath next inputs start n s is ∧ pathCost next cost 0 start is = c
  least : ∀ s is, IsPath next inputs start n s is →
    ∃ c ≤ pathCost next cost 0 start is, best s = some c

variable {best best' : σ → Option ℕ}

theorem Optimal.zero (hstart : best start = some 0) (hother : ∀ s ≠ start, best s = none) :
    Optimal next cost inputs start 0 best where
  attained s c h := by
    have hs : s = start := by
      by_contra hne
      rw [hother s hne] at h
      cases h
    rw [hs, hstart] at h
    cases h
    exact ⟨[], hs ▸ .nil, rfl⟩
  least s is h := by
    obtain ⟨hlength, -, rfl⟩ := h
    obtain rfl := List.length_eq_zero_iff.1 hlength
    exact ⟨0, le_rfl, hstart⟩

/-- **The cheapest way goes on from a cheapest way.** -/
theorem Optimal.succ (h : Optimal next cost inputs start n best)
    (hattained : ∀ t d, best' t = some d →
      ∃ s c i, best s = some c ∧ i ∈ inputs ∧ next s i = t ∧ d = c + cost n s i)
    (hleast : ∀ s c i, best s = some c → i ∈ inputs →
      ∃ d ≤ c + cost n s i, best' (next s i) = some d) :
    Optimal next cost inputs start (n + 1) best' where
  attained t d ht := by
    obtain ⟨s, c, i, hs, hi, rfl, rfl⟩ := hattained t d ht
    obtain ⟨is, hpath, rfl⟩ := h.attained s c hs
    refine ⟨is ++ [i], hpath.concat hi, ?_⟩
    rw [pathCost_concat, hpath.length_eq, hpath.state]
  least t is ht := by
    obtain ⟨s, js, i, hpath, hi, rfl, rfl⟩ := ht.exists_concat
    obtain ⟨c, hle, hs⟩ := h.least s js hpath
    obtain ⟨d, hd, ht⟩ := hleast s c i hs hi
    refine ⟨d, ?_, ht⟩
    rw [pathCost_concat, hpath.length_eq, hpath.state]
    omega

/-! ### Going back -/

/-- The inputs on the way back from a state. -/
def trace (prev : ℕ → σ → σ) (symbol : ℕ → σ → ι) : ℕ → σ → List ι
  | 0, _ => []
  | n + 1, s => trace prev symbol n (prev (n + 1) s) ++ [symbol (n + 1) s]

/-- **The way back is a path**, and costs what the tables say. -/
theorem trace_spec {prev : ℕ → σ → σ} {symbol : ℕ → σ → ι} (best : ℕ → σ → Option ℕ)
    (hstart : ∀ s c, best 0 s = some c → s = start ∧ c = 0)
    (hback : ∀ m < n, ∀ s c, best (m + 1) s = some c → symbol (m + 1) s ∈ inputs ∧
      next (prev (m + 1) s) (symbol (m + 1) s) = s ∧ ∃ d, best m (prev (m + 1) s) = some d ∧
        c = d + cost m (prev (m + 1) s) (symbol (m + 1) s))
    {c : ℕ} (h : best n s = some c) :
    IsPath next inputs start n s (trace prev symbol n s) ∧
      pathCost next cost 0 start (trace prev symbol n s) = c := by
  induction n generalizing s c with
  | zero =>
    obtain ⟨rfl, rfl⟩ := hstart s c h
    exact ⟨.nil, rfl⟩
  | succ n ih =>
    obtain ⟨hsymbol, hnext, d, hd, rfl⟩ := hback n (Nat.lt_succ_self n) s c h
    obtain ⟨hpath, hcost⟩ := ih (fun m hm ↦ hback m (Nat.lt_succ_of_lt hm)) hd
    have hconcat := hpath.concat hsymbol
    rw [hnext] at hconcat
    refine ⟨hconcat, ?_⟩
    rw [trace, pathCost_concat, hpath.length_eq, hpath.state, hcost]

end Paths

/-! ### The cheapest candidates -/

section Candidates

variable {κ ν : Type} (dist : ν → ℕ)

/-- `table` has one of the cheapest candidates for every key. -/
structure Cheapest (candidates : List (κ × ν)) (table : κ → Option ν) : Prop where
  mem : ∀ k v, table k = some v → (k, v) ∈ candidates
  le : ∀ k v, (k, v) ∈ candidates → ∃ w, table k = some w ∧ dist w ≤ dist v

variable {dist} {candidates : List (κ × ν)} {table table' : κ → Option ν} {k : κ} {v : ν}

theorem Cheapest.nil (h : ∀ k, table k = none) : Cheapest dist [] table where
  mem k v hk := by
    rw [h k] at hk
    cases hk
  le _ _ hmem := absurd hmem List.not_mem_nil

/-- A candidate that is not more expensive replaces the one that is there. -/
theorem Cheapest.replace (h : Cheapest dist candidates table)
    (hle : ∀ w, table k = some w → dist v ≤ dist w) (hself : table' k = some v)
    (hother : ∀ l ≠ k, table' l = table l) : Cheapest dist (candidates ++ [(k, v)]) table' where
  mem l w hl := by
    by_cases hk : l = k
    · rw [hk, hself] at hl
      cases hl
      exact List.mem_append_right _ (hk ▸ List.mem_singleton_self _)
    · rw [hother l hk] at hl
      exact List.mem_append_left _ (h.mem l w hl)
  le l w hmem := by
    rcases List.mem_append.1 hmem with hmem | hmem
    · obtain ⟨u, hu, hw⟩ := h.le l w hmem
      by_cases hk : l = k
      · subst hk
        exact ⟨v, hself, (hle u hu).trans hw⟩
      · exact ⟨u, (hother l hk).trans hu, hw⟩
    · cases List.mem_singleton.1 hmem
      exact ⟨v, hself, le_rfl⟩

/-- A candidate that is not cheaper does not. -/
theorem Cheapest.keep (h : Cheapest dist candidates table) {w : ν} (hw : table k = some w)
    (hle : dist w ≤ dist v) : Cheapest dist (candidates ++ [(k, v)]) table where
  mem l u hl := List.mem_append_left _ (h.mem l u hl)
  le l u hmem := by
    rcases List.mem_append.1 hmem with hmem | hmem
    · exact h.le l u hmem
    · cases List.mem_singleton.1 hmem
      exact ⟨w, hw, hle⟩

end Candidates

end Trellis
