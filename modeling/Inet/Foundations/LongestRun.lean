import Mathlib.Algebra.Order.Group.Nat

/-!
# The longest run of places

A scan over the places from 0 on remembers where the current run of places with a property began,
and the longest run of at least `least` places that it has seen end. Whenever a run ends it is
compared with that one, so what is remembered after every step (`Scanned`) says at the end which run
is a longest one.
-/

namespace LongestRun

/-- The longest run that has ended, and where the current one began. -/
structure Scan where
  start : ℕ := 0
  stop : ℕ := 0
  beg : Option ℕ := none
  deriving DecidableEq, Repr

/-- One step of the scan, at the place `i`. -/
def step (p : ℕ → Bool) (least : ℕ) (g : Scan) (i : ℕ) : Scan :=
  match g.beg with
  | none => if p i then { g with beg := some i } else g
  | some beg =>
    if p i then g
    else if least ≤ i - beg ∧ g.stop - g.start < i - beg then ⟨beg, i, none⟩
    else { g with beg := none }

/-- All places from `i` to `j` have the property. -/
def IsRun (p : ℕ → Bool) (i j : ℕ) : Prop :=
  ∀ k, i ≤ k → k < j → p k = true

/-- A longest run below `n`, of at least `least` places. -/
structure IsLongest (p : ℕ → Bool) (least n start stop : ℕ) : Prop where
  length : least ≤ stop - start
  stop_le : stop ≤ n
  isRun : IsRun p start stop
  longest : ∀ i j, j ≤ n → IsRun p i j → j - i ≤ stop - start

/-- What is remembered after `n` steps. -/
structure Scanned (p : ℕ → Bool) (least n : ℕ) (g : Scan) : Prop where
  found : g.start = 0 ∧ g.stop = 0 ∨
    least ≤ g.stop - g.start ∧ g.stop ≤ n ∧ IsRun p g.start g.stop
  current : ∀ b, g.beg = some b → b < n ∧ IsRun p b n ∧ ∀ i, i + 1 = b → p i = false
  between : g.beg = none → ∀ i, i + 1 = n → p i = false
  longest : ∀ i j, j ≤ n → IsRun p i j → least ≤ j - i →
    j - i ≤ g.stop - g.start ∨ ∃ b, g.beg = some b ∧ b ≤ i

variable {p : ℕ → Bool} {least n i j : ℕ} {g : Scan}

theorem scanned_zero : Scanned p least 0 {} where
  found := .inl ⟨rfl, rfl⟩
  current b h := by cases h
  between _ i h := by omega
  longest i j hj _ _ := .inl (by omega)

/-- A run that goes beyond the last place has it. -/
theorem IsRun.last (h : IsRun p i j) (hj : j = n + 1) (hlt : i < j) : p n = true :=
  h n (by omega) (by omega)

/-- What has been found stays below the next place. -/
theorem Scanned.found_succ (h : Scanned p least n g) : g.start = 0 ∧ g.stop = 0 ∨
    least ≤ g.stop - g.start ∧ g.stop ≤ n + 1 ∧ IsRun p g.start g.stop :=
  h.found.imp id fun hrun ↦ ⟨hrun.1, Nat.le_succ_of_le hrun.2.1, hrun.2.2⟩

/-- A run begins. -/
theorem Scanned.begin (h : Scanned p least n g) (hbeg : g.beg = none)
    (hp : p n = true) : Scanned p least (n + 1) { g with beg := some n } where
  found := h.found_succ
  current b hb := by
    obtain rfl := Option.some.inj hb
    refine ⟨n.lt_succ_self, fun k hk hk' ↦ ?_, h.between hbeg⟩
    obtain rfl : k = n := by omega
    exact hp
  between hnone := by cases hnone
  longest i j hj hrun hlen := by
    rcases Nat.lt_or_ge n j with hlast | hlast
    · refine .inr ⟨n, rfl, ?_⟩
      by_contra hlt
      have hbefore := h.between hbeg (n - 1) (by omega)
      exact absurd (hrun (n - 1) (by omega) (by omega)) (by simp [hbefore])
    · rcases h.longest i j hlast hrun hlen with hle | ⟨b, hb, -⟩
      · exact .inl hle
      · rw [hbeg] at hb
        cases hb

/-- The current run goes on. -/
theorem Scanned.extend {b : ℕ} (h : Scanned p least n g) (hbeg : g.beg = some b)
    (hp : p n = true) : Scanned p least (n + 1) g where
  found := h.found_succ
  current b' hb' := by
    obtain ⟨hlt, hrun, hbefore⟩ := h.current b' hb'
    refine ⟨by omega, fun k hk hk' ↦ ?_, hbefore⟩
    rcases Nat.lt_or_ge k n with hkn | hkn
    · exact hrun k hk hkn
    · obtain rfl : k = n := by omega
      exact hp
  between hnone := by
    rw [hbeg] at hnone
    cases hnone
  longest i j hj hrun hlen := by
    rcases Nat.lt_or_ge n j with hlast | hlast
    · refine .inr ⟨b, hbeg, ?_⟩
      by_contra hlt
      have hbefore := (h.current b hbeg).2.2 (b - 1) (by omega)
      have hbn := (h.current b hbeg).1
      exact absurd (hrun (b - 1) (by omega) (by omega)) (by simp [hbefore])
    · exact h.longest i j hlast hrun hlen

/-- Between two runs. -/
theorem Scanned.skip (h : Scanned p least n g) (hleast : 0 < least) (hbeg : g.beg = none)
    (hp : p n = false) : Scanned p least (n + 1) g where
  found := h.found_succ
  current b hb := by
    rw [hbeg] at hb
    cases hb
  between _ i hi := by
    obtain rfl := Nat.succ.inj hi
    exact hp
  longest i j hj hrun hlen := by
    refine h.longest i j ?_ hrun hlen
    by_contra hlast
    rw [hrun.last (n := n) (by omega) (by omega)] at hp
    cases hp

/-- The current run ends. -/
theorem Scanned.close {b : ℕ} (h : Scanned p least n g) (hleast : 0 < least) (hbeg : g.beg = some b)
    (hp : p n = false) :
    Scanned p least (n + 1)
      (if least ≤ n - b ∧ g.stop - g.start < n - b then ⟨b, n, none⟩ else { g with beg := none }) := by
  obtain ⟨hlt, hrun, -⟩ := h.current b hbeg
  have hlongest : ∀ i j, j ≤ n + 1 → IsRun p i j → least ≤ j - i →
      j - i ≤ g.stop - g.start ∨ j - i ≤ n - b := by
    intro i j hj hij hlen
    have hjn : j ≤ n := by
      by_contra hlast
      rw [hij.last (n := n) (by omega) (by omega)] at hp
      cases hp
    refine (h.longest i j hjn hij hlen).imp id ?_
    rintro ⟨b', hb', hle⟩
    rw [hbeg] at hb'
    obtain rfl := Option.some.inj hb'
    omega
  have hbetween : ∀ i, i + 1 = n + 1 → p i = false := by
    intro i hi
    obtain rfl := Nat.succ.inj hi
    exact hp
  split_ifs with hlonger
  · refine ⟨.inr ⟨hlonger.1, n.le_succ, hrun⟩, fun b hb ↦ (by cases hb), fun _ ↦ hbetween, ?_⟩
    intro i j hj hij hlen
    have hle := hlongest i j hj hij hlen
    exact .inl (by show j - i ≤ n - b; omega)
  · refine ⟨h.found_succ,
      fun b hb ↦ (by cases hb), fun _ ↦ hbetween, ?_⟩
    intro i j hj hij hlen
    have hle := hlongest i j hj hij hlen
    exact .inl (by show j - i ≤ g.stop - g.start; omega)

/-- **A step** keeps what is remembered up to date. -/
theorem Scanned.step (h : Scanned p least n g) (hleast : 0 < least) :
    Scanned p least (n + 1) (step p least g n) := by
  rw [LongestRun.step]
  cases hbeg : g.beg with
  | none =>
    cases hp : p n with
    | true => exact h.begin hbeg hp
    | false => exact h.skip hleast hbeg hp
  | some b =>
    cases hp : p n with
    | true => exact h.extend hbeg hp
    | false => exact h.close hleast hbeg hp

/-- **A scan** of the places below `n`. -/
theorem scanned_foldl (hleast : 0 < least) (n : ℕ) :
    Scanned p least n ((List.range n).foldl (LongestRun.step p least) {}) := by
  induction n with
  | zero => exact scanned_zero
  | succ n ih =>
    rw [List.range_succ, List.foldl_append]
    exact ih.step hleast

/-- The current run is the longest one when it is longer than the one that has been found. -/
theorem Scanned.isLongest_current {b : ℕ} (h : Scanned p least n g) (hbeg : g.beg = some b)
    (hlength : least ≤ n - b) (hlonger : g.stop - g.start < n - b) : IsLongest p least n b n := by
  refine ⟨hlength, le_rfl, (h.current b hbeg).2.1, fun i j hj hrun ↦ ?_⟩
  rcases Nat.lt_or_ge (j - i) least with hlt | hle
  · omega
  · rcases h.longest i j hj hrun hle with hle | ⟨b', hb', hle⟩
    · omega
    · rw [hbeg] at hb'
      obtain rfl := Option.some.inj hb'
      omega

/-- What has been found is the longest run when the current one is not. -/
theorem Scanned.isLongest_found (h : Scanned p least n g)
    (hcurrent : ∀ b, g.beg = some b → n - b < least ∨ n - b ≤ g.stop - g.start)
    (hfound : least ≤ g.stop - g.start) (hleast : 0 < least) :
    IsLongest p least n g.start g.stop := by
  rcases h.found with ⟨hstart, hstop⟩ | ⟨-, hstop, hrun⟩
  · omega
  · refine ⟨hfound, hstop, hrun, fun i j hj hij ↦ ?_⟩
    rcases Nat.lt_or_ge (j - i) least with hlt | hle
    · omega
    · rcases h.longest i j hj hij hle with hle | ⟨b, hb, hle⟩
      · exact hle
      · have hb := hcurrent b hb
        omega

/-- There is no run when none has been found. -/
theorem Scanned.lt_least (h : Scanned p least n g)
    (hcurrent : ∀ b, g.beg = some b → n - b < least ∨ n - b ≤ g.stop - g.start)
    (hnone : g.stop - g.start < least) (hj : j ≤ n) (hrun : IsRun p i j) : j - i < least := by
  by_contra hle
  rcases h.longest i j hj hrun (Nat.not_lt.1 hle) with hle | ⟨b, hb, hle⟩
  · omega
  · have hb := hcurrent b hb
    omega

end LongestRun
