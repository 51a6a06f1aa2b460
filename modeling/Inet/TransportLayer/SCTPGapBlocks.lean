import Inet.Foundations.IntervalList
import Inet.TransportLayer.SCTPGapList
import Mathlib.Data.Set.Insert

/-!
# The blocks of a gap list

A list `Holds` some intervals of positions if its blocks are those intervals, with the TSNs taken
modulo `2 ^ 32`. `updateGapList` adds a position to the intervals or lets the cumulative TSN go
ahead (`Adds`), and `removeFromGapList` takes one away.

The loop of `updateGapList` passes over a block that begins at TSN 0 as if it were not there. What
has to be done at that block is then done elsewhere or not at all: such a call `overlooks` it.
-/

namespace Inet.Sctp.SCTPSimpleGapList

open SerialNumber IntervalList

variable {g g' : SCTPSimpleGapList} {cum x y k : ℕ} {p q : ℕ × ℕ} {l l' : List (ℕ × ℕ)} {rest : List Gap}

/-! ### The intervals of a list -/

/-- The blocks are some intervals above `cum + 1`, and less than half the number space away from it.
-/
structure Holds (g : SCTPSimpleGapList) (cum : ℕ) (l : List (ℕ × ℕ)) : Prop where
  arrays : ∃ rest, g.gaps = l.map gapOf ++ rest
  length : g.gaps.length = MAX_GAP_COUNT
  numGaps : g.NumGaps = l.length
  canonical : Canonical l
  above : ∀ p ∈ l, cum + 1 < p.1
  below : ∀ p ∈ l, p.2 ≤ cum + 2 ^ 31

theorem canonical_append :
    Canonical (l ++ l') ↔ Canonical l ∧ Canonical l' ∧ ∀ p ∈ l, ∀ q ∈ l', p.2 < q.1 := by
  constructor
  · rintro ⟨hne, hgaps⟩
    obtain ⟨hl, hl', hbetween⟩ := List.pairwise_append.1 hgaps
    exact ⟨⟨fun p hp ↦ hne p (List.mem_append_left _ hp), hl⟩,
      ⟨fun p hp ↦ hne p (List.mem_append_right _ hp), hl'⟩, hbetween⟩
  · rintro ⟨hl, hl', hbetween⟩
    refine ⟨fun p hp ↦ ?_, List.pairwise_append.2 ⟨hl.gaps, hl'.gaps, hbetween⟩⟩
    exact (List.mem_append.1 hp).elim (hl.nonempty p) (hl'.nonempty p)

/-- Blocks that ascend pass the check. -/
theorem checkFrom_map {n : ℕ} (hcanonical : Canonical l) (hfirst : ∀ p ∈ l, n + 1 < p.1)
    (hbelow : ∀ p ∈ l, p.2 ≤ cum + 2 ^ 31) (hn : cum ≤ n) : checkFrom (wrap n) (l.map gapOf) := by
  induction l generalizing n with
  | nil => trivial
  | cons p l ih =>
    obtain ⟨hp, hgap, hl⟩ := canonical_cons.1 hcanonical
    have hlo := hfirst p List.mem_cons_self
    have hhi := hbelow p List.mem_cons_self
    refine ⟨?_, ?_, ih hl (fun q hq ↦ ?_) (fun q hq ↦ hbelow q (List.mem_cons_of_mem _ hq)) ?_⟩
    · rw [wrap_add_one]
      exact (tsnGt_wrap (by omega) (by omega)).2 hlo
    · exact (tsnGe_wrap (by omega) (by omega)).2 (by omega)
    · have := hgap q hq
      omega
    · omega

/-- A TSN that is tested to be in a block is at most as far from its start as its end is. -/
theorem tsnBetween_gapOf {tsn : UInt32} (hne : p.1 < p.2) (hlt : p.2 < p.1 + 2 ^ 31)
    (h : tsnBetween (gapOf p).start tsn (gapOf p).stop) : (tsn - wrap p.1).toNat < p.2 - p.1 := by
  obtain ⟨hstart, hstop⟩ := h
  have htsn := tsn.toNat_lt
  have hhalf : (2 ^ 31 : UInt32).toNat = 2 ^ 31 := rfl
  simp only [gapOf, tsnGe, tsnGt, UInt32.lt_iff_toNat_lt, ← UInt32.toNat_inj, UInt32.toNat_sub, toNat_wrap,
    hhalf] at hstart hstop ⊢
  omega

/-- What has been received: all up to the cumulative position, and the intervals. -/
def upTo (cum : ℕ) (l : List (ℕ × ℕ)) : Set ℕ :=
  {y | y ≤ cum} ∪ points l

namespace Holds

variable (h : Holds g cum l)

include h

theorem take_gaps : g.gaps.take g.NumGaps = l.map gapOf := by
  obtain ⟨rest, harrays⟩ := h.arrays
  rw [harrays, h.numGaps, ← List.length_map gapOf, List.take_left]

theorem nonempty (hp : p ∈ l) : p.1 < p.2 :=
  h.canonical.nonempty p hp

theorem mem_points_bounds (hx : x ∈ points l) : cum + 1 < x ∧ x < cum + 2 ^ 31 := by
  obtain ⟨p, hp, hlo, hhi⟩ := hx
  exact ⟨(h.above p hp).trans_le hlo, hhi.trans_le (h.below p hp)⟩

/-- **The membership test** accepts the TSNs of the points and no others. -/
theorem tsnInGapList_iff (tsn : UInt32) : g.tsnInGapList tsn ↔ ∃ y ∈ points l, wrap y = tsn := by
  rw [tsnInGapList, h.take_gaps]
  constructor
  · rintro ⟨gap, hgap, hin⟩
    obtain ⟨p, hp, rfl⟩ := List.mem_map.1 hgap
    have hne := h.nonempty hp
    have habove := h.above p hp
    have hbelow := h.below p hp
    have hlt := tsnBetween_gapOf hne (by omega) hin
    exact ⟨_, ⟨p, hp, Nat.le_add_right _ _, by omega⟩, wrap_add_sub p.1 tsn⟩
  · rintro ⟨y, ⟨p, hp, hstart, hstop⟩, rfl⟩
    have hne := h.nonempty hp
    have habove := h.above p hp
    have hbelow := h.below p hp
    refine ⟨gapOf p, List.mem_map_of_mem hp, ?_, ?_⟩
    · exact (tsnGe_wrap (by omega) (by omega)).2 hstart
    · exact (tsnGe_wrap (by omega) (by omega)).2 (by omega)

theorem check : g.check (wrap cum) := by
  rw [SCTPSimpleGapList.check, h.take_gaps]
  exact checkFrom_map h.canonical h.above h.below le_rfl

end Holds

/-- Some intervals are replaced by others. -/
theorem Holds.splice {lpre m m' lsuf : List (ℕ × ℕ)} (h : Holds g cum (lpre ++ m ++ lsuf))
    (harrays : ∃ rest, g'.gaps = (lpre ++ m' ++ lsuf).map gapOf ++ rest)
    (hlength : g'.gaps.length = g.gaps.length) (hnum : g'.NumGaps = (lpre ++ m' ++ lsuf).length)
    (hcanonical : Canonical m') (hpre : ∀ p ∈ lpre, ∀ q ∈ m', p.2 < q.1)
    (hsuf : ∀ p ∈ m', ∀ q ∈ lsuf, p.2 < q.1) (habove : ∀ p ∈ m', cum + 1 < p.1)
    (hbelow : ∀ p ∈ m', p.2 ≤ cum + 2 ^ 31) : Holds g' cum (lpre ++ m' ++ lsuf) := by
  obtain ⟨hcpre, hcsuf, hbetween⟩ := canonical_append.1 h.canonical
  have hmem : ∀ p ∈ lpre ++ m' ++ lsuf, p ∈ m' ∨ p ∈ lpre ++ m ++ lsuf := by
    intro p hp
    simp only [List.mem_append] at hp ⊢
    tauto
  refine ⟨harrays, hlength.trans h.length, hnum, ?_, fun p hp ↦ ?_, fun p hp ↦ ?_⟩
  · refine canonical_append.2 ⟨canonical_append.2 ⟨(canonical_append.1 hcpre).1, hcanonical, hpre⟩, hcsuf, ?_⟩
    intro p hp q hq
    rcases List.mem_append.1 hp with hp | hp
    · exact hbetween p (List.mem_append_left _ hp) q hq
    · exact hsuf p hp q hq
  · exact (hmem p hp).elim (habove p) (h.above p)
  · exact (hmem p hp).elim (hbelow p) (h.below p)

/-! ### Adding a TSN -/

/-- The end of the last interval, or the position behind the cumulative one. -/
def lastEnd (cum : ℕ) (l : List (ℕ × ℕ)) : ℕ :=
  (l.getLast?.map Prod.snd).getD (cum + 1)

@[simp]
theorem lastEnd_nil (cum : ℕ) : lastEnd cum [] = cum + 1 :=
  rfl

@[simp]
theorem lastEnd_append_singleton (cum : ℕ) (l : List (ℕ × ℕ)) (p : ℕ × ℕ) :
    lastEnd cum (l ++ [p]) = p.2 := by
  rw [lastEnd, List.getLast?_concat]
  rfl

theorem le_lastEnd (h : Canonical l) (hp : p ∈ l) : p.2 ≤ lastEnd cum l := by
  obtain rfl | ⟨l, q, rfl⟩ := l.eq_nil_or_concat
  · cases hp
  rw [List.concat_eq_append] at h hp ⊢
  rw [lastEnd_append_singleton]
  rcases List.mem_append.1 hp with hp | hp
  · have hlt := (canonical_append.1 h).2.2 p hp q (List.mem_singleton_self q)
    have hne := h.nonempty q (List.mem_append_right _ (List.mem_singleton_self q))
    omega
  · rw [List.mem_singleton.1 hp]

/-- The position has been added to what has been received, and `u` says so. -/
def Adds (cum : ℕ) (l : List (ℕ × ℕ)) (x : ℕ) (u : Update) : Prop :=
  ∃ cum' l', u = received (wrap cum') u.list ∧ Holds u.list cum' l' ∧ cum ≤ cum' ∧
    upTo cum' l' = insert x (upTo cum l) ∧ l'.length ≤ l.length + 1

variable {lpre m lsuf : List (ℕ × ℕ)} {r : ℕ × ℕ}

/-- One interval with one more position takes the place of some. -/
theorem Holds.adds (h : Holds g cum (lpre ++ m ++ lsuf))
    (harrays : ∃ rest, g'.gaps = (lpre ++ [r] ++ lsuf).map gapOf ++ rest)
    (hlength : g'.gaps.length = g.gaps.length) (hnum : g'.NumGaps = (lpre ++ [r] ++ lsuf).length)
    (hne : r.1 < r.2) (hpre : ∀ p ∈ lpre, p.2 < r.1) (hsuf : ∀ q ∈ lsuf, r.2 < q.1)
    (habove : cum + 1 < r.1) (hbelow : r.2 ≤ cum + 2 ^ 31)
    (hpoints : ∀ y, y ∈ Set.Ico r.1 r.2 ↔ y = x ∨ y ∈ points m) :
    Adds cum (lpre ++ m ++ lsuf) x (received (wrap cum) g') := by
  refine ⟨cum, lpre ++ [r] ++ lsuf, rfl, h.splice harrays hlength hnum ?_ ?_ ?_ ?_ ?_, le_rfl, ?_, ?_⟩
  · exact canonical_cons.2 ⟨hne, by simp, canonical_nil⟩
  · simpa using hpre
  · simpa using hsuf
  · simpa using habove
  · simpa using hbelow
  · ext y
    have hmem : y ∈ points [r] ↔ y = x ∨ y ∈ points m := by
      rw [mem_points_cons, points_nil, ← hpoints]
      simp
    simp only [upTo, points_append, Set.mem_union, Set.mem_insert_iff, hmem]
    tauto
  · simp only [List.length_append, List.length_singleton]
    omega

/-- The block of an interval in the middle. -/
theorem Holds.arrays_cons (h : Holds g cum (lpre ++ q :: lsuf)) :
    ∃ rest, g.gaps = lpre.map gapOf ++ gapOf q :: (lsuf.map gapOf ++ rest) := by
  obtain ⟨rest, harrays⟩ := h.arrays
  refine ⟨rest, ?_⟩
  rw [harrays, List.map_append, List.map_cons, List.append_assoc, List.cons_append]

theorem Holds.lt_of_mem (h : Holds g cum (lpre ++ q :: lsuf)) :
    (∀ p ∈ lpre, p.2 < q.1) ∧ q.1 < q.2 ∧ (∀ r ∈ lsuf, q.2 < r.1) ∧ cum + 1 < q.1 ∧
      q.2 ≤ cum + 2 ^ 31 := by
  have hq : q ∈ lpre ++ q :: lsuf := List.mem_append_right _ List.mem_cons_self
  obtain ⟨-, hsuf, hbetween⟩ := canonical_append.1 h.canonical
  exact ⟨fun p hp ↦ hbetween p hp q List.mem_cons_self, h.nonempty hq, (canonical_cons.1 hsuf).2.1,
    h.above q hq, h.below q hq⟩

/-- A block becomes longer at its beginning. -/
theorem Holds.extendDown (h : Holds g cum (lpre ++ q :: lsuf)) (hx : x + 1 = q.1)
    (hlt : ∀ p ∈ lpre, p.2 < x) (habove : cum + 1 < x) :
    ∃ u, (g.set lpre.length { gapOf q with start := wrap x }).map (received (wrap cum)) = some u ∧
      Adds cum (lpre ++ q :: lsuf) x u := by
  obtain ⟨-, hq, hsuf, -, hbelow⟩ := h.lt_of_mem
  obtain ⟨rest, harrays⟩ := h.arrays_cons
  have hset := set_append harrays { gapOf q with start := wrap x }
  rw [List.length_map] at hset
  rw [List.append_cons] at h ⊢
  refine ⟨_, by rw [hset]; rfl, ?_⟩
  refine h.adds (r := (x, q.2)) ?_ ?_ ?_ ?_ hlt hsuf habove hbelow fun y ↦ ?_
  · exact ⟨rest, by simp [gapOf]⟩
  · simp [harrays]
  · simp [h.numGaps]
  · show x < q.2
    omega
  · simp only [mem_points_cons, points_nil, Set.mem_Ico, Set.mem_empty_iff_false, or_false]
    omega

/-- A block becomes longer at its end. -/
theorem Holds.extendUp (h : Holds g cum (lpre ++ p :: lsuf)) (hx : x = p.2)
    (hlt : ∀ q ∈ lsuf, x + 1 < q.1) (hbelow : x < cum + 2 ^ 31) {stop : Gap → UInt32}
    (hstop : stop (gapOf p) = wrap x) :
    ∃ u, (g.setStopBefore (lpre.length + 1) stop).map (received (wrap cum)) = some u ∧
      Adds cum (lpre ++ p :: lsuf) x u := by
  obtain ⟨hpre, hp, -, habove, -⟩ := h.lt_of_mem
  obtain ⟨rest, harrays⟩ := h.arrays_cons
  have hset := setStopBefore_append harrays stop
  rw [List.length_map, hstop] at hset
  rw [List.append_cons] at h ⊢
  refine ⟨_, by rw [hset]; rfl, ?_⟩
  refine h.adds (r := (p.1, x + 1)) ?_ ?_ ?_ ?_ hpre hlt habove hbelow fun y ↦ ?_
  · exact ⟨rest, by simp [gapOf]⟩
  · simp [harrays]
  · simp [h.numGaps]
  · show p.1 < x + 1
    omega
  · simp only [mem_points_cons, points_nil, Set.mem_Ico, Set.mem_empty_iff_false, or_false]
    omega

/-- Two blocks become one. -/
theorem Holds.merge (h : Holds g cum (lpre ++ p :: q :: lsuf)) (hx : x = p.2) (hnext : x + 1 = q.1) :
    ∃ u, ((g.setStopBefore (lpre.length + 1) fun _ ↦ (gapOf q).stop) >>= fun g ↦
      (g.dropBlock (lpre.length + 1)).map (received (wrap cum))) = some u ∧
      Adds cum (lpre ++ p :: q :: lsuf) x u := by
  obtain ⟨hpre, hp, -, habove, -⟩ := h.lt_of_mem
  obtain ⟨rest, harrays⟩ := h.arrays_cons
  have hq := (List.append_cons lpre p (q :: lsuf) ▸ h).lt_of_mem
  obtain ⟨-, hq, hsuf, -, hbelow⟩ := hq
  have hset := setStopBefore_append harrays fun _ ↦ (gapOf q).stop
  rw [List.length_map] at hset
  have harrays' : ({ g with gaps := lpre.map gapOf ++ { gapOf p with stop := (gapOf q).stop } ::
      ((q :: lsuf).map gapOf ++ rest) } : SCTPSimpleGapList).gaps =
      (lpre.map gapOf ++ [{ gapOf p with stop := (gapOf q).stop }]) ++ gapOf q :: lsuf.map gapOf ++ rest := by
    simp
  obtain ⟨rest', hdrop, hrest'⟩ := dropBlock_eq harrays' (by simp [h.numGaps])
  rw [List.length_append, List.length_map, List.length_singleton] at hdrop
  refine ⟨_, by rw [hset, Option.bind_eq_bind, Option.bind_some, hdrop]; rfl, ?_⟩
  have hsplit : lpre ++ p :: q :: lsuf = lpre ++ [p, q] ++ lsuf := by simp
  rw [hsplit] at h ⊢
  refine h.adds (r := (p.1, q.2)) ?_ ?_ ?_ ?_ hpre hsuf habove hbelow fun y ↦ ?_
  · exact ⟨rest', by simp [gapOf]⟩
  · simp [harrays, hrest']
    omega
  · simp
  · show p.1 < q.2
    omega
  · simp only [mem_points_cons, points_nil, Set.mem_Ico, Set.mem_empty_iff_false, or_false]
    omega

/-- There is an entry behind the blocks. -/
theorem Holds.arrays_room (h : Holds g cum (lpre ++ q :: lsuf)) (hroom : g.NumGaps < MAX_GAP_COUNT) :
    ∃ b rest, g.gaps = lpre.map gapOf ++ gapOf q :: (lsuf.map gapOf ++ b :: rest) := by
  obtain ⟨rest, harrays⟩ := h.arrays_cons
  have hlength := h.length
  rw [harrays] at hlength
  have hnum := h.numGaps
  obtain ⟨b, rest, rfl⟩ : ∃ b rest', rest = b :: rest' := by
    refine List.exists_cons_of_length_pos ?_
    simp only [List.length_append, List.length_map, List.length_cons] at hlength hnum
    omega
  exact ⟨b, rest, harrays⟩

/-- A block of one TSN is inserted. -/
theorem Holds.insert (h : Holds g cum (lpre ++ q :: lsuf)) (hlt : x + 1 < q.1)
    (hpre : ∀ p ∈ lpre, p.2 < x) (habove : cum + 1 < x) (hroom : g.NumGaps < MAX_GAP_COUNT) :
    ∃ u, (shiftUp lpre.length (min (g.NumGaps + 1) MAX_GAP_COUNT - 1)
      { g with NumGaps := min (g.NumGaps + 1) MAX_GAP_COUNT } >>= fun g ↦
        (g.set lpre.length ⟨wrap x, wrap x⟩).map (received (wrap cum))) = some u ∧
      Adds cum (lpre ++ q :: lsuf) x u := by
  obtain ⟨-, hq, hsuf, -, hbelow⟩ := h.lt_of_mem
  obtain ⟨b, rest, harrays⟩ := h.arrays_room hroom
  have hnum := h.numGaps
  have hsplit : lpre.map gapOf ++ gapOf q :: (lsuf.map gapOf ++ b :: rest) =
      lpre.map gapOf ++ gapOf q :: lsuf.map gapOf ++ b :: rest := by
    simp
  obtain ⟨g', hshift, hset⟩ :=
    insert_eq (harrays.trans hsplit) (by simp [hnum]) hroom ⟨wrap x, wrap x⟩
  rw [List.length_map] at hshift hset
  refine ⟨_, by rw [hshift, Option.bind_eq_bind, Option.bind_some, hset]; rfl, ?_⟩
  have hsplit : lpre ++ q :: lsuf = lpre ++ [] ++ q :: lsuf := by simp
  rw [hsplit] at h ⊢
  refine h.adds (r := (x, x + 1)) ?_ ?_ ?_ x.lt_succ_self hpre ?_ habove ?_ fun y ↦ ?_
  · exact ⟨rest, by simp [gapOf]⟩
  · simp [harrays]
    omega
  · simp [Nat.add_assoc]
  · intro r hr
    rcases List.mem_cons.1 hr with rfl | hr
    · exact hlt
    · exact (hlt.trans hq).trans (hsuf r hr)
  · omega
  · simp only [points_nil, Set.mem_Ico, Set.mem_empty_iff_false, or_false]
    omega

/-- A block goes into the cumulative TSN. -/
theorem Holds.swallow (h : Holds g cum (q :: lsuf)) (hx : x = cum + 1) (hnext : x + 1 = q.1) :
    ∃ u, (g.dropBlock 0).map (received (gapOf q).stop) = some u ∧ Adds cum (q :: lsuf) x u := by
  have hsplit : Holds g cum ([] ++ q :: lsuf) := h
  obtain ⟨-, hq, hsuf, -, hbelow⟩ := hsplit.lt_of_mem
  obtain ⟨rest, harrays⟩ := hsplit.arrays_cons
  have harrays : g.gaps = [] ++ gapOf q :: lsuf.map gapOf ++ rest := harrays
  obtain ⟨rest', hdrop, hrest'⟩ := dropBlock_eq harrays (by simp [h.numGaps])
  have hdrop : g.dropBlock 0 = _ := hdrop
  refine ⟨_, by rw [hdrop]; rfl, q.2 - 1, lsuf, rfl, ?_, by omega, ?_, ?_⟩
  · refine ⟨⟨rest', rfl⟩, ?_, List.length_map _, h.canonical.tail, fun p hp ↦ ?_, fun p hp ↦ ?_⟩
    · have hlength := h.length
      rw [harrays] at hlength
      simp only [received, List.length_append, List.length_cons, List.length_nil] at hlength ⊢
      omega
    · have := hsuf p hp
      omega
    · have := h.below p (List.mem_cons_of_mem q hp)
      omega
  · ext y
    simp only [upTo, mem_points_cons, Set.mem_union, Set.mem_ofPred_eq, Set.mem_insert_iff, Set.mem_Ico]
    constructor
    · rintro (hy | hy)
      · omega
      · tauto
    · rintro (hy | hy | hy | hy)
      · omega
      · omega
      · omega
      · tauto
  · rw [List.length_cons]
    omega

/-- The cumulative TSN goes ahead by one. -/
theorem Holds.next (h : Holds g cum l) (hfirst : ∀ p ∈ l, cum + 2 < p.1) :
    Adds cum l (cum + 1) (received (wrap cum + 1) g) := by
  refine ⟨cum + 1, l, by rw [wrap_add_one]; rfl, ?_, Nat.le_succ _, ?_, Nat.le_succ _⟩
  · exact { h with above := hfirst, below := fun p hp ↦ (h.below p hp).trans (by omega) }
  · ext y
    simp only [upTo, Set.mem_union, Set.mem_ofPred_eq, Set.mem_insert_iff, Nat.le_succ_iff]
    tauto

/-- A block of one TSN is put behind all others. -/
theorem Holds.append (h : Holds g cum l) (hpre : ∀ p ∈ l, p.2 < x) (habove : cum + 1 < x)
    (hbelow : x < cum + 2 ^ 31) (hroom : g.NumGaps < MAX_GAP_COUNT) :
    ∃ g', g.set g.NumGaps ⟨wrap x, wrap x⟩ = some g' ∧
      Adds cum l x (received (wrap cum) { g' with NumGaps := g.NumGaps + 1 }) := by
  obtain ⟨rest, harrays⟩ := h.arrays
  have hlength := h.length
  rw [harrays] at hlength
  have hnum := h.numGaps
  obtain ⟨b, rest, rfl⟩ : ∃ b rest', rest = b :: rest' := by
    refine List.exists_cons_of_length_pos ?_
    simp only [List.length_append, List.length_map] at hlength
    omega
  have hset := set_append harrays ⟨wrap x, wrap x⟩
  rw [List.length_map, ← hnum] at hset
  refine ⟨_, hset, ?_⟩
  have hsplit : l = l ++ [] ++ [] := by simp
  rw [hsplit] at h ⊢
  refine h.adds (r := (x, x + 1)) ?_ ?_ ?_ x.lt_succ_self hpre ?_ habove hbelow fun y ↦ ?_
  · exact ⟨rest, by simp [gapOf]⟩
  · simp [harrays]
  · simp [hnum]
  · simp
  · simp only [points_nil, Set.mem_Ico, Set.mem_empty_iff_false, or_false]
    omega

/-- What the code takes for the beginning of a gap: the end of the block before, or an earlier
position if the TSN lies further on. -/
structure IsLo (cum : ℕ) (lpre : List (ℕ × ℕ)) (x k : ℕ) : Prop where
  above : cum < k
  le : k ≤ lastEnd cum lpre
  exact : k = lastEnd cum lpre ∨ lastEnd cum lpre < x

theorem lt_of_lastEnd_lt (cum : ℕ) (h : Canonical l) (hlt : lastEnd cum l < x) : ∀ p ∈ l, p.2 < x :=
  fun _ hp ↦ (le_lastEnd h hp).trans_lt hlt

theorem eq_nil_of_lastEnd_le (h : Holds g cum (lpre ++ lsuf)) (hle : lastEnd cum lpre ≤ cum + 1) :
    lpre = [] := by
  refine List.eq_nil_iff_forall_not_mem.2 fun p hp ↦ ?_
  have hcanonical := (canonical_append.1 h.canonical).1
  have hend : p.2 ≤ lastEnd cum lpre := le_lastEnd hcanonical hp
  have habove := h.above p (List.mem_append_left _ hp)
  have hne := hcanonical.nonempty p hp
  omega

/-- The end of the last interval is not the position behind the cumulative one. -/
theorem exists_append_singleton (h : Holds g cum (lpre ++ lsuf)) (hne : lastEnd cum lpre ≠ cum + 1) :
    ∃ l p, lpre = l ++ [p] ∧ p.2 = lastEnd cum lpre := by
  obtain rfl | ⟨l, p, rfl⟩ := lpre.eq_nil_or_concat
  · exact absurd rfl hne
  · exact ⟨l, p, List.concat_eq_append .., by rw [List.concat_eq_append, lastEnd_append_singleton]⟩

theorem Holds.lastEnd_lt (h : Holds g cum (lpre ++ q :: lsuf)) : lastEnd cum lpre < q.1 := by
  obtain ⟨hpre, -, -, habove, -⟩ := h.lt_of_mem
  obtain rfl | ⟨l, p, rfl⟩ := lpre.eq_nil_or_concat
  · exact habove
  · rw [List.concat_eq_append, lastEnd_append_singleton]
    exact hpre p (by simp)

/-- **A TSN in a gap is added.** -/
theorem fillGap_spec (h : Holds g cum (lpre ++ q :: lsuf))
    (hroom : x ≠ cum + 1 → g.NumGaps < MAX_GAP_COUNT) (hk : IsLo cum lpre x k)
    (hle : lastEnd cum lpre ≤ x) (hlt : x < q.1) :
    ∃ u, g.fillGap (wrap x) (wrap cum) (wrap k) lpre.length (gapOf q) = some u ∧
      Adds cum (lpre ++ q :: lsuf) x u := by
  obtain ⟨hpre, hq, hsuf, habove, hbelow⟩ := h.lt_of_mem
  obtain ⟨hcum, hkle, hexact⟩ := hk
  have hcanonical := (canonical_append.1 h.canonical).1
  have hhi : (gapOf q).start - 1 = wrap (q.1 - 1) := wrap_sub_one (by omega)
  have hsize : 1 < wrap (q.1 - 1) - wrap k + 1 ↔ k + 1 < q.1 := by
    rw [UInt32.lt_iff_toNat_lt, UInt32.toNat_add, toNat_wrap_sub_wrap (by omega) (by omega)]
    have hone : (1 : UInt32).toNat = 1 := rfl
    rw [hone]
    omega
  have hxhi : wrap x = wrap (q.1 - 1) ↔ x + 1 = q.1 := by
    rw [wrap_inj (by omega) (by omega)]
    omega
  have hxlo : wrap x = wrap k ↔ x = k := wrap_inj (by omega) (by omega)
  have hxcum : wrap x = wrap cum + 1 ↔ x = cum + 1 := by
    rw [wrap_add_one, wrap_inj (by omega) (by omega)]
  have hkcum : wrap k = wrap cum + 1 ↔ k = cum + 1 := by
    rw [wrap_add_one, wrap_inj (by omega) (by omega)]
  simp only [fillGap, hhi, hsize, hxhi, hxlo, hxcum, hkcum]
  split_ifs with hgap hdown hup hfirst hfirst
  · exact h.extendDown hdown (lt_of_lastEnd_lt cum hcanonical (by omega)) (by omega)
  · have hnil := eq_nil_of_lastEnd_le h (by omega)
    subst hnil hfirst
    refine ⟨_, rfl, h.next fun p hp ↦ ?_⟩
    rcases List.mem_cons.1 hp with rfl | hp
    · omega
    · have := hsuf p hp
      omega
  · obtain ⟨lpre, p, rfl, hp⟩ := exists_append_singleton h (by omega)
    rw [List.append_assoc, List.singleton_append] at h ⊢
    rw [List.length_append, List.length_singleton]
    refine h.extendUp (by omega) (fun r hr ↦ ?_) (by omega) rfl
    rcases List.mem_cons.1 hr with rfl | hr
    · omega
    · have := hsuf r hr
      omega
  · obtain ⟨u, hu, hadds⟩ :=
      h.insert (x := x) (by omega) (lt_of_lastEnd_lt cum hcanonical (by omega)) (by omega)
        (hroom (by omega))
    exact ⟨u, hu, hadds⟩
  · have hnil := eq_nil_of_lastEnd_le h (by omega)
    subst hnil
    exact h.swallow (by omega) (by omega)
  · obtain ⟨lpre, p, rfl, hp⟩ := exists_append_singleton h (by omega)
    rw [List.append_assoc, List.singleton_append] at h ⊢
    rw [List.length_append, List.length_singleton]
    exact h.merge (by omega) (by omega)

/-- Behind all blocks a TSN is new if it is not next to the last one. -/
theorem isNew_eq (h : Holds g cum l) (habove : cum + 1 < x) (hbelow : x < cum + 2 ^ 31) :
    g.isNew (wrap x) = some (decide (lastEnd cum l < x)) := by
  rw [isNew]
  obtain rfl | ⟨l, p, rfl⟩ := l.eq_nil_or_concat
  · have hnum : g.NumGaps = 0 := h.numGaps
    rw [if_pos hnum, lastEnd_nil, decide_eq_true habove]
  · rw [List.concat_eq_append] at h ⊢
    obtain ⟨-, hp, -, hfirst, hlast⟩ := Holds.lt_of_mem h
    obtain ⟨rest, harrays⟩ := Holds.arrays_cons h
    have hnum : g.NumGaps = l.length + 1 := by simp [h.numGaps]
    have hget := get_append harrays
    rw [List.length_map] at hget
    rw [if_neg (by omega), hnum, Nat.add_sub_cancel, hget, Option.map_some, stop_gapOf_add_one hp,
      lastEnd_append_singleton]
    simp only [tsnGt_wrap (show x < p.2 + 2 ^ 31 by omega) (by omega)]

/-- **A TSN behind all blocks is added.** -/
theorem appendTSN_spec (h : Holds g cum l) (hroom : x ≠ cum + 1 → g.NumGaps < MAX_GAP_COUNT)
    (hk : IsLo cum l x k) (hle : lastEnd cum l ≤ x) (hbelow : x < cum + 2 ^ 31) (b : Bool) :
    ∃ u, g.appendTSN (wrap x) (wrap cum) (wrap k) b = some u ∧ Adds cum l x u := by
  obtain ⟨hcum, hkle, hexact⟩ := hk
  have hxlo : wrap x = wrap k ↔ x = k := wrap_inj (by omega) (by omega)
  have hxcum : wrap x = wrap cum + 1 ↔ x = cum + 1 := by
    rw [wrap_add_one, wrap_inj (by omega) (by omega)]
  rw [appendTSN]
  obtain hne | rfl := ne_or_eq x k
  · have hlast : lastEnd cum l < x := by omega
    have hroom := hroom (by omega)
    obtain ⟨g', hset, hadds⟩ :=
      h.append (lt_of_lastEnd_lt cum h.canonical hlast) (by omega) hbelow hroom
    rw [if_neg (mt hxlo.1 hne), isNew_eq h (by omega) hbelow, decide_eq_true hlast, Option.bind_eq_bind,
      Option.bind_some, if_pos ⟨rfl, hroom⟩, hset]
    exact ⟨_, rfl, hadds⟩
  rw [if_pos rfl]
  have hl : Holds g cum (l ++ []) := by rwa [List.append_nil]
  obtain hne | rfl := ne_or_eq x (cum + 1)
  · obtain ⟨l, p, rfl, hp⟩ := exists_append_singleton hl (by omega)
    obtain ⟨-, hp', -⟩ := Holds.lt_of_mem h
    rw [if_neg (mt hxcum.1 hne), h.numGaps, List.length_append, List.length_singleton]
    refine Holds.extendUp h (by omega) (by simp) hbelow ?_
    rw [stop_gapOf_add_one hp']
    congr 1
    omega
  · have hnil := eq_nil_of_lastEnd_le hl (by omega)
    subst hnil
    rw [if_pos (wrap_add_one cum).symm, ← wrap_add_one]
    exact ⟨_, rfl, h.next fun p hp ↦ absurd hp List.not_mem_nil⟩

/-- A TSN of a block is not added again. -/
theorem appendTSN_of_mem (h : Holds g cum l) (hx : x ∈ points l) (hk : x ≠ k) (hcum : cum < k)
    (hkbelow : k ≤ cum + 2 ^ 31) (b : Bool) :
    g.appendTSN (wrap x) (wrap cum) (wrap k) b = some ⟨true, wrap cum, b, g⟩ := by
  obtain ⟨habove, hbelow⟩ := h.mem_points_bounds hx
  have hxlo : wrap x = wrap k ↔ x = k := wrap_inj (by omega) (by omega)
  obtain ⟨p, hp, -, hlt⟩ := hx
  have hlast : ¬lastEnd cum l < x := fun hlast ↦
    absurd (lt_of_lastEnd_lt cum h.canonical hlast p hp) (not_lt.2 hlt.le)
  rw [appendTSN, if_neg (mt hxlo.1 hk), isNew_eq h habove hbelow, decide_eq_false hlast,
    Option.bind_eq_bind, Option.bind_some, if_neg (by simp)]
  rfl

/-! ### The loop -/

/-- The loop gets to a block that starts at TSN 0 while the place of the TSN is in front of that
block, in it or right behind it. Two cases do no harm: the cumulative TSN can go ahead without
taking the block in, or the TSN is in that block and the block is the last. -/
def overlooks (receivedTSN cTsnAck : UInt32) : UInt32 → List Gap → Prop
  | _, [] => False
  | lo, gap :: gaps =>
    if 0 < gap.start then
      ¬tsnBetween lo receivedTSN (gap.start - 1) ∧
        overlooks receivedTSN cTsnAck (gap.stop + 1) gaps
    else
      tsnBetween lo receivedTSN (gap.stop + 1) ∧
        ¬(receivedTSN = cTsnAck + 1 ∧ receivedTSN + 1 ≠ gap.start) ∧
        ¬(gaps = [] ∧ tsnBetween gap.start receivedTSN gap.stop)

instance overlooks.decidable (r c : UInt32) : ∀ lo gaps, Decidable (overlooks r c lo gaps)
  | _, [] => isFalse id
  | _, gap :: gaps =>
    have := overlooks.decidable r c (gap.stop + 1) gaps
    inferInstanceAs (Decidable (ite _ _ _))

theorem tsnBetween_wrap (cum : ℕ) {a b n : ℕ} (ha : cum < a ∧ a ≤ cum + 2 ^ 31)
    (hn : cum < n ∧ n ≤ cum + 2 ^ 31) (hb : cum < b ∧ b ≤ cum + 2 ^ 31) :
    tsnBetween (wrap a) (wrap n) (wrap b) ↔ a ≤ n ∧ n ≤ b := by
  rw [tsnBetween, tsnGe_wrap (by omega) (by omega), tsnGe_wrap (by omega) (by omega)]

theorem pos_wrap (n : ℕ) : 0 < wrap n ↔ n % 2 ^ 32 ≠ 0 := by
  rw [UInt32.lt_iff_toNat_lt, toNat_wrap]
  exact Nat.pos_iff_ne_zero

/-- Only one of the blocks starts at TSN 0. -/
theorem not_overlooks_of_zero (h : Holds g cum (lpre ++ q :: lsuf)) (hzero : ¬0 < wrap q.1)
    (r c lo : UInt32) : ¬overlooks r c lo (lsuf.map gapOf) := by
  obtain ⟨-, hq, hsuf, habove, -⟩ := h.lt_of_mem
  have hpos : ∀ p ∈ lsuf, 0 < wrap p.1 := by
    intro p hp
    have hlt := hsuf p hp
    have hmem : p ∈ lpre ++ q :: lsuf := List.mem_append_right _ (List.mem_cons_of_mem _ hp)
    have hp := h.nonempty hmem
    have hbelow := h.below p hmem
    rw [pos_wrap] at hzero ⊢
    omega
  clear * - hpos
  induction lsuf generalizing lo with
  | nil => exact id
  | cons p lsuf ih =>
    rw [List.forall_mem_cons] at hpos
    rw [List.map_cons, overlooks, gapOf, if_pos hpos.1]
    exact fun hover ↦ ih _ hpos.2 hover.2

theorem between_gap (h : Holds g cum (lpre ++ q :: lsuf)) (hk : cum < k ∧ k ≤ cum + 2 ^ 31)
    (hx : cum < x ∧ x < cum + 2 ^ 31) :
    tsnBetween (wrap k) (wrap x) ((gapOf q).start - 1) ↔ k ≤ x ∧ x < q.1 := by
  obtain ⟨-, hq, -, habove, hbelow⟩ := h.lt_of_mem
  rw [gapOf, wrap_sub_one (by omega), tsnBetween_wrap cum (by omega) (by omega) (by omega)]
  omega

/-- What is overlooked, in positions. -/
theorem overlooks_cons (h : Holds g cum (lpre ++ q :: lsuf)) (hk : cum < k ∧ k ≤ cum + 2 ^ 31)
    (hx : cum < x ∧ x < cum + 2 ^ 31) :
    overlooks (wrap x) (wrap cum) (wrap k) ((q :: lsuf).map gapOf) ↔
      if 0 < wrap q.1 then
        ¬(k ≤ x ∧ x < q.1) ∧ overlooks (wrap x) (wrap cum) (wrap q.2) (lsuf.map gapOf)
      else
        (k ≤ x ∧ x ≤ q.2) ∧ ¬(x = cum + 1 ∧ x + 1 ≠ q.1) ∧ ¬(lsuf = [] ∧ q.1 ≤ x ∧ x < q.2) := by
  obtain ⟨-, hq, -, habove, hbelow⟩ := h.lt_of_mem
  have hnear : tsnBetween (wrap k) (wrap x) (wrap q.2) ↔ k ≤ x ∧ x ≤ q.2 :=
    tsnBetween_wrap cum hk (by omega) (by omega)
  have hin : tsnBetween (wrap q.1) (wrap x) (wrap (q.2 - 1)) ↔ q.1 ≤ x ∧ x < q.2 := by
    rw [tsnBetween_wrap cum (by omega) (by omega) (by omega)]
    omega
  have hxcum : wrap x = wrap cum + 1 ↔ x = cum + 1 := by
    rw [wrap_add_one, wrap_inj (by omega) (by omega)]
  have hxstart : wrap x + 1 = wrap q.1 ↔ x + 1 = q.1 := by
    rw [wrap_add_one, wrap_inj (by omega) (by omega)]
  rw [List.map_cons, overlooks, between_gap h hk hx, stop_gapOf_add_one hq, hnear]
  simp only [gapOf, hin, hxcum, hxstart, ne_eq, List.map_eq_nil_iff]

/-- The loop at one block, in positions. -/
theorem updateLoop_cons (h : Holds g cum (lpre ++ q :: lsuf)) (hk : cum < k ∧ k ≤ cum + 2 ^ 31)
    (hx : cum < x ∧ x < cum + 2 ^ 31) (c : UInt32) (b : Bool) :
    updateLoop (wrap x) c b (q :: lsuf).length lpre.length (wrap k) g =
      if 0 < wrap q.1 then
        if k ≤ x ∧ x < q.1 then g.fillGap (wrap x) c (wrap k) lpre.length (gapOf q)
        else updateLoop (wrap x) c b lsuf.length (lpre ++ [q]).length (wrap q.2) g
      else updateLoop (wrap x) c b lsuf.length (lpre ++ [q]).length (wrap k) g := by
  obtain ⟨-, hq, -⟩ := h.lt_of_mem
  obtain ⟨rest, harrays⟩ := h.arrays_cons
  have hget := get_append harrays
  rw [List.length_map] at hget
  rw [List.length_cons, updateLoop, hget, Option.bind_eq_bind, Option.bind_some,
    stop_gapOf_add_one hq, List.length_append, List.length_singleton]
  simp only [between_gap h hk hx]
  rfl

theorem fillGap_next (hfirst : cum + 2 < q.1) (hq : q.1 < q.2) (hbelow : q.2 ≤ cum + 2 ^ 31) (i : ℕ) :
    g.fillGap (wrap (cum + 1)) (wrap cum) (wrap (cum + 1)) i (gapOf q) =
      some (received (wrap cum + 1) g) := by
  have hhi : (gapOf q).start - 1 = wrap (q.1 - 1) := wrap_sub_one (by omega)
  have hsize : 1 < wrap (q.1 - 1) - wrap (cum + 1) + 1 := by
    rw [UInt32.lt_iff_toNat_lt, UInt32.toNat_add, toNat_wrap_sub_wrap (by omega) (by omega)]
    have hone : (1 : UInt32).toNat = 1 := rfl
    rw [hone]
    omega
  have hne : wrap (cum + 1) ≠ wrap (q.1 - 1) := by
    rw [ne_eq, wrap_inj (by omega) (by omega)]
    omega
  rw [fillGap, hhi, if_pos hsize, if_neg hne, if_pos rfl, if_pos (wrap_add_one cum).symm]

/-- The cumulative TSN goes ahead, whatever blocks are passed over. -/
theorem updateLoop_next (h : Holds g cum (lpre ++ lsuf)) (hfirst : ∀ p ∈ lsuf, cum + 2 < p.1) (b : Bool) :
    updateLoop (wrap (cum + 1)) (wrap cum) b lsuf.length lpre.length (wrap (cum + 1)) g =
      some (received (wrap cum + 1) g) := by
  induction lsuf generalizing lpre with
  | nil =>
    rw [List.length_nil, updateLoop, appendTSN, if_pos rfl, if_pos (wrap_add_one cum).symm,
      wrap_add_one]
  | cons q lsuf ih =>
    obtain ⟨-, hq, -, -, hbelow⟩ := h.lt_of_mem
    rw [List.forall_mem_cons] at hfirst
    rw [updateLoop_cons h (by omega) (by omega)]
    obtain hpos | hzero := Classical.em (0 < wrap q.1)
    · rw [if_pos hpos, if_pos (by omega)]
      exact fillGap_next hfirst.1 hq hbelow _
    · rw [if_neg hzero]
      rw [List.append_cons] at h
      exact ih h hfirst.2

/-- **A new TSN is added by the loop**, unless a block is overlooked. -/
theorem updateLoop_adds (h : Holds g cum (lpre ++ lsuf))
    (hroom : x ≠ cum + 1 → g.NumGaps < MAX_GAP_COUNT) (hx : x ∉ points (lpre ++ lsuf))
    (hbelow : x < cum + 2 ^ 31) (hk : IsLo cum lpre x k) (hle : lastEnd cum lpre ≤ x) (b : Bool)
    (hover : ¬overlooks (wrap x) (wrap cum) (wrap k) (lsuf.map gapOf)) :
    ∃ u, updateLoop (wrap x) (wrap cum) b lsuf.length lpre.length (wrap k) g = some u ∧
      Adds cum (lpre ++ lsuf) x u := by
  induction lsuf generalizing lpre k with
  | nil =>
    rw [List.append_nil] at h ⊢
    exact appendTSN_spec h hroom hk hle hbelow b
  | cons q lsuf ih =>
    obtain ⟨hpre, hq, hsuf, habove, hqbelow⟩ := h.lt_of_mem
    have hlo := hk
    obtain ⟨hcum, hkle, hexact⟩ := hlo
    have hkx : k ≤ x := hkle.trans hle
    have hnext := List.append_cons lpre q lsuf ▸ h
    have hxnext := List.append_cons lpre q lsuf ▸ hx
    have hxq : x < q.1 ∨ q.2 ≤ x := by
      by_contra hmem
      exact hx ⟨q, List.mem_append_right _ List.mem_cons_self, by omega, by omega⟩
    rw [overlooks_cons h (by omega) (by omega)] at hover
    rw [updateLoop_cons h (by omega) (by omega)]
    obtain hpos | hzero := Classical.em (0 < wrap q.1)
    · rw [if_pos hpos] at hover ⊢
      rcases hxq with hlt | hge
      · rw [if_pos ⟨hkx, hlt⟩]
        exact fillGap_spec h hroom hk hle hlt
      · have hnot : ¬(k ≤ x ∧ x < q.1) := by omega
        rw [if_neg hnot, List.append_cons lpre q lsuf]
        refine ih hnext hxnext ⟨by omega, ?_, .inl ?_⟩ ?_ fun htail ↦ hover ⟨hnot, htail⟩
        all_goals rw [lastEnd_append_singleton]
        exact hge
    · rw [if_neg hzero] at hover ⊢
      rcases lt_or_ge q.2 x with hlt | hge
      · rw [List.append_cons lpre q lsuf]
        refine ih hnext hxnext ⟨hcum, ?_, .inr ?_⟩ ?_ (not_overlooks_of_zero h hzero _ _ _)
        all_goals rw [lastEnd_append_singleton]
        · exact hkle.trans (h.lastEnd_lt.trans hq).le
        · exact hlt
        · exact hlt.le
      · -- the place is at the block, so only the cumulative TSN can go ahead
        obtain ⟨rfl, hfar⟩ : x = cum + 1 ∧ x + 1 ≠ q.1 := by
          by_contra hno
          refine hover ⟨⟨hkx, hge⟩, hno, fun hlast ↦ ?_⟩
          omega
        obtain rfl : k = cum + 1 := by omega
        obtain rfl := eq_nil_of_lastEnd_le h hle
        have hfirst : ∀ p ∈ q :: lsuf, cum + 2 < p.1 := by
          refine List.forall_mem_cons.2 ⟨by omega, fun p hp ↦ ?_⟩
          have := hsuf p hp
          omega
        refine ⟨_, updateLoop_next hnext (fun p hp ↦ hfirst p (List.mem_cons_of_mem q hp)) b, ?_⟩
        exact h.next hfirst

/-- A TSN of a block is not between two blocks. -/
theorem Holds.lt_or_le (h : Holds g cum (lpre ++ q :: lsuf)) (hx : x ∈ points (lpre ++ q :: lsuf)) :
    ∀ r ∈ lsuf.head?, x < q.2 ∨ r.1 ≤ x := by
  intro r hr
  obtain ⟨lsuf, rfl⟩ : ∃ l, lsuf = r :: l := List.head?_eq_some_iff.1 hr
  obtain ⟨p, hp, hle, hlt⟩ := hx
  obtain ⟨hpre, hq, hsuf, -⟩ := h.lt_of_mem
  have hr := (canonical_append.1 h.canonical).2.1.tail
  rcases List.mem_append.1 hp with hp | hp
  · exact .inl ((hlt.trans (hpre p hp)).trans hq)
  rcases List.mem_cons.1 hp with rfl | hp
  · exact .inl hlt
  rcases List.mem_cons.1 hp with rfl | hp
  · exact .inr hle
  · exact .inr ((hr.nonempty r List.mem_cons_self).trans ((canonical_cons.1 hr).2.1 p hp) |>.le.trans hle)

/-- **A TSN that is in a block stays there**, and nothing is changed, unless a block is overlooked.
-/
theorem updateLoop_of_mem (h : Holds g cum (lpre ++ lsuf)) (hx : x ∈ points (lpre ++ lsuf))
    (hk : cum < k ∧ k ≤ cum + 2 ^ 31) (hne : x ≠ k) (b : Bool)
    (hhead : ∀ q ∈ lsuf.head?, x < k ∨ q.1 ≤ x)
    (hover : ¬overlooks (wrap x) (wrap cum) (wrap k) (lsuf.map gapOf)) :
    updateLoop (wrap x) (wrap cum) b lsuf.length lpre.length (wrap k) g =
      some ⟨true, wrap cum, b, g⟩ := by
  obtain ⟨hxabove, hxbelow⟩ := h.mem_points_bounds hx
  induction lsuf generalizing lpre k with
  | nil =>
    rw [List.append_nil] at h hx
    exact appendTSN_of_mem h hx hne hk.1 hk.2 b
  | cons q lsuf ih =>
    obtain ⟨hpre, hq, hsuf, habove, hqbelow⟩ := h.lt_of_mem
    have hlater := h.lt_or_le hx
    have hhead := hhead q rfl
    have hend : x ≠ q.2 := by
      rintro rfl
      exact h.canonical.end_notMem_of_mem (List.mem_append_right _ List.mem_cons_self) hx
    have hnext := List.append_cons lpre q lsuf ▸ h
    have hxnext := List.append_cons lpre q lsuf ▸ hx
    have hnot : ¬(k ≤ x ∧ x < q.1) := by omega
    rw [overlooks_cons h hk (by omega)] at hover
    rw [updateLoop_cons h hk (by omega)]
    obtain hpos | hzero := Classical.em (0 < wrap q.1)
    · rw [if_pos hpos] at hover ⊢
      rw [if_neg hnot]
      exact ih hnext hxnext (by omega) hend hlater fun htail ↦ hover ⟨hnot, htail⟩
    · rw [if_neg hzero] at hover ⊢
      refine ih hnext hxnext hk hne (fun r hr ↦ ?_) (not_overlooks_of_zero h hzero _ _ _)
      have hlast : lsuf ≠ [] := by
        rintro rfl
        cases hr
      have := hlater r hr
      by_contra hno
      refine hover ⟨by omega, by omega, fun hlast' ↦ hlast hlast'.1⟩

/-- `updateGapList` overlooks a block. -/
def Overlooks (g : SCTPSimpleGapList) (receivedTSN cTsnAck : UInt32) : Prop :=
  overlooks receivedTSN cTsnAck (cTsnAck + 1) (g.gaps.take g.NumGaps)

instance (g : SCTPSimpleGapList) (r c : UInt32) : Decidable (g.Overlooks r c) :=
  overlooks.decidable _ _ _ _

theorem updateGapList_eq (h : Holds g cum l) (hx : cum < x ∧ x < cum + 2 ^ 31) (b : Bool) :
    g.updateGapList (wrap x) (wrap cum) b =
      updateLoop (wrap x) (wrap cum) b l.length ([] : List (ℕ × ℕ)).length (wrap (cum + 1)) g := by
  have hnew : ¬tsnGe (wrap cum) (wrap x) := by
    rw [tsnGe_wrap (by omega) (by omega)]
    omega
  rw [updateGapList, if_neg hnew, h.numGaps, wrap_add_one]
  rfl

/-- **`updateGapList` adds a TSN that is not there.** -/
theorem updateGapList_adds (h : Holds g cum l) (hroom : x ≠ cum + 1 → g.NumGaps < MAX_GAP_COUNT)
    (hx : x ∉ upTo cum l) (hbelow : x < cum + 2 ^ 31) (b : Bool)
    (hover : ¬g.Overlooks (wrap x) (wrap cum)) :
    ∃ u, g.updateGapList (wrap x) (wrap cum) b = some u ∧ Adds cum l x u := by
  have hcum : cum < x := not_le.1 fun hle ↦ hx (.inl hle)
  rw [Overlooks, h.take_gaps, wrap_add_one] at hover
  rw [updateGapList_eq h ⟨hcum, hbelow⟩]
  have hlo : IsLo cum [] x (cum + 1) := ⟨Nat.lt_succ_self _, le_rfl, .inl rfl⟩
  have hsplit : Holds g cum ([] ++ l) := h
  exact updateLoop_adds hsplit hroom (fun hmem ↦ hx (.inr hmem)) hbelow hlo hcum b hover

/-- **`updateGapList` leaves a TSN that is there.** -/
theorem updateGapList_of_mem (h : Holds g cum l) (hx : x ∈ points l) (b : Bool)
    (hover : ¬g.Overlooks (wrap x) (wrap cum)) :
    g.updateGapList (wrap x) (wrap cum) b = some ⟨true, wrap cum, b, g⟩ := by
  obtain ⟨habove, hbelow⟩ := h.mem_points_bounds hx
  rw [Overlooks, h.take_gaps, wrap_add_one] at hover
  rw [updateGapList_eq h (by omega)]
  have hsplit : Holds g cum ([] ++ l) := h
  refine updateLoop_of_mem hsplit hx (by omega) (by omega) b (fun q hq ↦ .inr ?_) hover
  obtain ⟨l, rfl⟩ : ∃ l', l = q :: l' := List.head?_eq_some_iff.1 hq
  exact h.canonical.le_of_mem_points hx

/-! ### Removing a TSN -/

/-- A position has been taken away. -/
def Removes (cum : ℕ) (l : List (ℕ × ℕ)) (x : ℕ) (g' : SCTPSimpleGapList) : Prop :=
  ∃ l', Holds g' cum l' ∧ points l' = points l \ {x}

/-- The intervals that are left of one take its place. -/
theorem Holds.removes (h : Holds g cum (lpre ++ q :: lsuf)) (hx : x ∈ Set.Ico q.1 q.2)
    (m' : List (ℕ × ℕ)) (harrays : ∃ rest, g'.gaps = (lpre ++ m' ++ lsuf).map gapOf ++ rest)
    (hlength : g'.gaps.length = g.gaps.length) (hnum : g'.NumGaps = (lpre ++ m' ++ lsuf).length)
    (hcanonical : Canonical m') (hpoints : ∀ y, y ∈ points m' ↔ y ∈ Set.Ico q.1 q.2 ∧ y ≠ x) :
    Removes cum (lpre ++ q :: lsuf) x g' := by
  obtain ⟨hpre, hq, hsuf, habove, hbelow⟩ := h.lt_of_mem
  have hinside : ∀ p ∈ m', q.1 ≤ p.1 ∧ p.2 ≤ q.2 := by
    intro p hp
    have hne := hcanonical.nonempty p hp
    have hfirst := ((hpoints p.1).1 ⟨p, hp, le_rfl, hne⟩).1
    have hlast := ((hpoints (p.2 - 1)).1 ⟨p, hp, by omega, by omega⟩).1
    simp only [Set.mem_Ico] at hfirst hlast
    omega
  have hout : x ∉ points lpre ∧ x ∉ points lsuf := by
    constructor
    · rintro ⟨p, hp, -, hlt⟩
      exact absurd (hlt.trans (hpre p hp)) (not_lt.2 hx.1)
    · rintro ⟨p, hp, hle, -⟩
      exact absurd ((hx.2.trans (hsuf p hp)).trans_le hle) (lt_irrefl x)
  refine ⟨lpre ++ m' ++ lsuf, ?_, ?_⟩
  · rw [List.append_cons] at h
    refine h.splice harrays hlength hnum hcanonical (fun p hp r hr ↦ ?_) (fun p hp r hr ↦ ?_)
      (fun p hp ↦ ?_) fun p hp ↦ ?_
    · exact (hpre p hp).trans_le (hinside r hr).1
    · exact (hinside p hp).2.trans_lt (hsuf r hr)
    · exact habove.trans_le (hinside p hp).1
    · exact (hinside p hp).2.trans hbelow
  · ext y
    simp only [points_append, points_cons, Set.mem_union, Set.mem_sdiff, Set.mem_singleton_iff,
      hpoints]
    have hy : y = x → y ∉ points lpre ∧ y ∉ points lsuf := fun hy ↦ hy ▸ hout
    tauto

/-- A block becomes shorter. -/
theorem Holds.shorten (h : Holds g cum (lpre ++ q :: lsuf)) (hx : x ∈ Set.Ico q.1 q.2) (hr : r.1 < r.2)
    (hpoints : ∀ y, y ∈ Set.Ico r.1 r.2 ↔ y ∈ Set.Ico q.1 q.2 ∧ y ≠ x) :
    ∃ g', g.set lpre.length (gapOf r) = some g' ∧ Removes cum (lpre ++ q :: lsuf) x g' := by
  obtain ⟨rest, harrays⟩ := h.arrays_cons
  have hset := set_append harrays (gapOf r)
  rw [List.length_map] at hset
  refine ⟨_, hset, h.removes hx [r] ?_ ?_ ?_ ?_ fun y ↦ ?_⟩
  · exact ⟨rest, by simp⟩
  · simp [harrays]
  · simp [h.numGaps]
  · exact canonical_cons.2 ⟨hr, by simp, canonical_nil⟩
  · rw [mem_points_cons, points_nil, ← hpoints]
    simp

/-- A block of one TSN vanishes. -/
theorem Holds.vanish (h : Holds g cum (lpre ++ q :: lsuf)) (hroom : g.NumGaps < MAX_GAP_COUNT)
    (hx : x = q.1) (hone : q.2 = q.1 + 1) :
    ∃ g₁ g₂, shiftDown 1 (g.NumGaps - lpre.length) lpre.length g = some g₁ ∧
      g₁.set (g.NumGaps - 1) ⟨0, 0⟩ = some g₂ ∧
      Removes cum (lpre ++ q :: lsuf) x { g₂ with NumGaps := g.NumGaps - 1 } := by
  obtain ⟨b, rest, harrays⟩ := h.arrays_room hroom
  have hnum := h.numGaps
  have hsplit : g.gaps = lpre.map gapOf ++ [gapOf q] ++ (lsuf.map gapOf ++ [b]) ++ rest := by
    simp [harrays]
  obtain ⟨rest', hshift, hrest'⟩ := shiftDown_eq hsplit Nat.one_pos
  have hcount : g.NumGaps - lpre.length = (lsuf.map gapOf ++ [b]).length := by
    simp [hnum]
  have hsplit' : lpre.map gapOf ++ (lsuf.map gapOf ++ [b]) ++ rest' =
      (lpre ++ [] ++ lsuf).map gapOf ++ b :: rest' := by
    simp
  have hset := set_append (g := ⟨g.NumGaps, _⟩) hsplit' ⟨0, 0⟩
  have hlast : ((lpre ++ [] ++ lsuf).map gapOf).length = g.NumGaps - 1 := by
    simp [hnum]
  rw [List.length_map] at hshift
  rw [hlast] at hset
  refine ⟨_, _, by rw [hcount]; exact hshift, hset, ?_⟩
  refine h.removes (by simp [hx, hone]) [] ⟨⟨0, 0⟩ :: rest', rfl⟩ ?_ ?_ canonical_nil fun y ↦ ?_
  · simp only [harrays, List.length_append, List.length_cons, List.length_map, List.length_nil, hrest']
    omega
  · rw [← hlast, List.length_map]
  · simp only [points_nil, Set.mem_empty_iff_false, Set.mem_Ico, false_iff]
    omega

/-- A block is split. -/
theorem Holds.split (h : Holds g cum (lpre ++ q :: lsuf)) (hroom : g.NumGaps < MAX_GAP_COUNT)
    (hlo : q.1 < x) (hhi : x + 1 < q.2) :
    ∃ g₁ g₂ g₃, shiftUp lpre.length (min (g.NumGaps + 1) MAX_GAP_COUNT - 1)
        { g with NumGaps := min (g.NumGaps + 1) MAX_GAP_COUNT } = some g₁ ∧
      g₁.get lpre.length = some (gapOf q) ∧
      g₁.set lpre.length { gapOf q with stop := wrap x - 1 } = some g₂ ∧
      g₂.get (lpre.length + 1) = some (gapOf q) ∧
      g₂.set (lpre.length + 1) { gapOf q with start := wrap x + 1 } = some g₃ ∧
      Removes cum (lpre ++ q :: lsuf) x g₃ := by
  obtain ⟨b, rest, harrays⟩ := h.arrays_room hroom
  have hnum := h.numGaps
  have hmin : min (g.NumGaps + 1) MAX_GAP_COUNT = g.NumGaps + 1 := Nat.min_eq_left hroom
  have hfirst : { gapOf q with stop := wrap x - 1 } = gapOf (q.1, x) := by
    rw [wrap_sub_one (by omega)]
    rfl
  have hsecond : { gapOf q with start := wrap x + 1 } = gapOf (x + 1, q.2) := by
    rw [wrap_add_one]
    rfl
  have hsplit : { g with NumGaps := g.NumGaps + 1 }.gaps =
      lpre.map gapOf ++ gapOf q :: lsuf.map gapOf ++ b :: rest := by
    simp [harrays]
  have hshift := shiftUp_eq hsplit
  have hcount : (lpre.map gapOf ++ gapOf q :: lsuf.map gapOf).length = g.NumGaps := by
    simp [hnum]
  rw [List.length_map, hcount] at hshift
  rw [hmin, Nat.add_sub_cancel, hfirst, hsecond]
  have harrays₁ : lpre.map gapOf ++ gapOf q :: gapOf q :: lsuf.map gapOf ++ rest =
      lpre.map gapOf ++ gapOf q :: (gapOf q :: (lsuf.map gapOf ++ rest)) := by
    simp
  have harrays₂ : lpre.map gapOf ++ gapOf (q.1, x) :: (gapOf q :: (lsuf.map gapOf ++ rest)) =
      (lpre.map gapOf ++ [gapOf (q.1, x)]) ++ gapOf q :: (lsuf.map gapOf ++ rest) := by
    simp
  have hindex : (lpre.map gapOf ++ [gapOf (q.1, x)]).length = lpre.length + 1 := by simp
  have hget := get_append (g := ⟨g.NumGaps + 1, _⟩) harrays₁
  have hset := set_append (g := ⟨g.NumGaps + 1, _⟩) harrays₁ (gapOf (q.1, x))
  have hget' := get_append (g := ⟨g.NumGaps + 1, _⟩) harrays₂
  have hset' := set_append (g := ⟨g.NumGaps + 1, _⟩) harrays₂ (gapOf (x + 1, q.2))
  rw [List.length_map] at hget hset
  rw [hindex] at hget' hset'
  refine ⟨_, _, _, hshift, hget, hset, hget', hset', ?_⟩
  refine h.removes ⟨hlo.le, by omega⟩ [(q.1, x), (x + 1, q.2)] ?_ ?_ ?_ ?_ fun y ↦ ?_
  · exact ⟨rest, by simp⟩
  · simp [harrays]
    omega
  · simp [hnum]
    omega
  · refine canonical_cons.2 ⟨hlo, by simp, canonical_cons.2 ⟨hhi, by simp, canonical_nil⟩⟩
  · simp only [mem_points_cons, points_nil, Set.mem_Ico, Set.mem_empty_iff_false, or_false]
    omega

/-- **A TSN is removed from its block.** -/
theorem removeAt_spec (h : Holds g cum (lpre ++ q :: lsuf)) (hroom : g.NumGaps < MAX_GAP_COUNT)
    (hx : x ∈ Set.Ico q.1 q.2) :
    ∃ g', g.removeAt lpre.length (gapOf q) (wrap x) = some g' ∧ Removes cum (lpre ++ q :: lsuf) x g' := by
  obtain ⟨hle, hlt⟩ := hx
  obtain ⟨-, hq, -, habove, hbelow⟩ := h.lt_of_mem
  have hsize : 1 < (gapOf q).stop - (gapOf q).start + 1 ∧
      (gapOf q).stop - (gapOf q).start + 1 < 2 ^ 31 ↔ q.1 + 1 < q.2 := by
    simp only [gapOf, UInt32.lt_iff_toNat_lt, UInt32.toNat_add]
    rw [toNat_wrap_sub_wrap (by omega) (by omega)]
    have hone : (1 : UInt32).toNat = 1 := rfl
    have hhalf : (2 ^ 31 : UInt32).toNat = 2 ^ 31 := rfl
    rw [hone, hhalf]
    omega
  have hstop : (gapOf q).stop = wrap x ↔ x + 1 = q.2 := by
    rw [gapOf, wrap_inj (by omega) (by omega)]
    omega
  have hstart : (gapOf q).start = wrap x ↔ q.1 = x := wrap_inj (by omega) (by omega)
  simp only [removeAt, hsize, hstop, hstart]
  split_ifs with hmany hlast hfirst hroom'
  · have hspec := h.shorten (r := (q.1, q.2 - 1)) ⟨hle, hlt⟩ (Nat.lt_sub_of_add_lt hmany) fun y ↦ by
      simp only [Set.mem_Ico]
      omega
    have hgap : { gapOf q with stop := (gapOf q).stop - 1 } = gapOf (q.1, q.2 - 1) := by
      rw [gapOf, wrap_sub_one (by omega)]
      rfl
    rwa [← hgap] at hspec
  · have hspec := h.shorten (r := (q.1 + 1, q.2)) ⟨hle, hlt⟩ hmany fun y ↦ by
      simp only [Set.mem_Ico]
      omega
    have hgap : { gapOf q with start := (gapOf q).start + 1 } = gapOf (q.1 + 1, q.2) := by
      rw [gapOf, wrap_add_one]
      rfl
    rwa [← hgap] at hspec
  · obtain ⟨g₁, g₂, g₃, hshift, hget, hset, hget', hset', hspec⟩ :=
      h.split (x := x) hroom (by omega) (by omega)
    refine ⟨g₃, ?_, hspec⟩
    simp only [Option.bind_eq_bind, hshift, Option.bind_some, hget, hset, hget', hset']
  · have hnum := h.numGaps
    have hmin : min (g.NumGaps + 1) MAX_GAP_COUNT = g.NumGaps + 1 := Nat.min_eq_left hroom
    rw [hmin, hnum, List.length_append, List.length_cons] at hroom'
    omega
  · obtain ⟨g₁, g₂, hshift, hset, hspec⟩ := h.vanish (x := x) hroom (by omega) (by omega)
    refine ⟨_, ?_, hspec⟩
    rw [hshift, Option.bind_eq_bind, Option.bind_some, hset]
    rfl

/-- The TSN is removed by the loop, which has not found it in the last blocks. -/
theorem removeLoop_spec (h : Holds g cum (lpre ++ lsuf))
    (hroom : x ∈ points (lpre ++ lsuf) → g.NumGaps < MAX_GAP_COUNT)
    (hx : cum < x ∧ x < cum + 2 ^ 31) (hsuf : x ∉ points lsuf) :
    ∃ g', removeLoop (wrap x) lpre.length g = some g' ∧ Removes cum (lpre ++ lsuf) x g' := by
  induction lpre using List.reverseRecOn generalizing lsuf with
  | nil =>
    refine ⟨g, rfl, lsuf, h, ?_⟩
    exact (Set.sdiff_singleton_eq_self hsuf).symm
  | append_singleton lpre q ih =>
    rw [List.append_assoc, List.singleton_append] at h hroom ⊢
    obtain ⟨-, hq, -, habove, hbelow⟩ := h.lt_of_mem
    obtain ⟨rest, harrays⟩ := h.arrays_cons
    have hget := get_append harrays
    rw [List.length_map] at hget
    have hin : tsnBetween (gapOf q).start (wrap x) (gapOf q).stop ↔ q.1 ≤ x ∧ x < q.2 := by
      rw [gapOf, tsnBetween_wrap cum (by omega) (by omega) (by omega)]
      omega
    rw [List.length_append, List.length_singleton, removeLoop, hget, Option.bind_eq_bind,
      Option.bind_some]
    simp only [hin]
    obtain hmem | hmem := Classical.em (q.1 ≤ x ∧ x < q.2)
    · rw [if_pos hmem]
      exact removeAt_spec h (hroom ⟨q, List.mem_append_right _ List.mem_cons_self, hmem⟩) hmem
    · rw [if_neg hmem]
      refine ih h hroom ?_
      rw [mem_points_cons, not_or]
      exact ⟨hmem, hsuf⟩

/-- **`removeFromGapList` takes a TSN away.** -/
theorem removeFromGapList_spec (h : Holds g cum l)
    (hroom : x ∈ points l → g.NumGaps < MAX_GAP_COUNT) (hx : cum < x ∧ x < cum + 2 ^ 31) :
    ∃ g', g.removeFromGapList (wrap x) = some g' ∧ Removes cum l x g' := by
  rw [removeFromGapList, h.numGaps]
  have hl : Holds g cum (l ++ []) := by rwa [List.append_nil]
  have hspec := removeLoop_spec hl (by rwa [List.append_nil]) hx
    (by rw [points_nil]; exact Set.notMem_empty x)
  rwa [List.append_nil] at hspec

/-! ### Going ahead -/

/-- The blocks that are taken away are those that start at or before the new cumulative TSN. -/
theorem exists_advance (h : Holds g cum l) {c : ℕ} (hc : cum ≤ c ∧ c < cum + 2 ^ 31) :
    ∃ lpre lsuf, l = lpre ++ lsuf ∧ advanceCount (wrap c) (l.map gapOf) = lpre.length ∧
      (∀ p ∈ lpre, p.1 ≤ c) ∧ ∀ p ∈ lsuf, c < p.1 := by
  have hiff : ∀ p ∈ l, tsnGe (wrap c) (gapOf p).start ↔ p.1 ≤ c := by
    intro p hp
    have habove := h.above p hp
    have hne := h.nonempty hp
    have hbelow := h.below p hp
    exact tsnGe_wrap (by omega) (by omega)
  have hcanonical := h.canonical
  clear h
  induction l with
  | nil => exact ⟨[], [], rfl, rfl, by simp, by simp⟩
  | cons p l ih =>
    rw [List.forall_mem_cons] at hiff
    obtain ⟨hp, hlater, hl⟩ := canonical_cons.1 hcanonical
    rw [List.map_cons, advanceCount]
    simp only [hiff.1]
    split_ifs with hle
    · obtain ⟨lpre, lsuf, rfl, hcount, hpre, hsuf⟩ := ih hiff.2 hl
      exact ⟨p :: lpre, lsuf, rfl, by rw [hcount, List.length_cons],
        List.forall_mem_cons.2 ⟨hle, hpre⟩, hsuf⟩
    · refine ⟨[], p :: l, rfl, rfl, by simp, List.forall_mem_cons.2 ⟨not_le.1 hle, fun q hq ↦ ?_⟩⟩
      exact (not_le.1 hle).trans (hp.trans (hlater q hq))

/-- **Blocks up to a new cumulative TSN are taken away.** -/
theorem forwardCumAckTSN_spec (h : Holds g cum l) {c : ℕ} (hc : cum ≤ c ∧ c < cum + 2 ^ 31)
    (hnext : c + 1 ∉ points l) :
    ∃ g' l', g.forwardCumAckTSN (wrap c) = some g' ∧ Holds g' c l' ∧
      ∀ y, c < y → (y ∈ points l' ↔ y ∈ points l) := by
  rw [forwardCumAckTSN, h.take_gaps]
  obtain ⟨lpre, lsuf, rfl, hcount, hpre, hsuf⟩ := exists_advance h hc
  obtain ⟨rest, harrays⟩ := h.arrays
  rw [points_append, Set.mem_union, not_or] at hnext
  have hout : ∀ y, c < y → y ∉ points lpre := by
    rintro y hy ⟨p, hp, hle, hlt⟩
    exact hnext.1 ⟨p, hp, (hpre p hp).trans (Nat.le_succ c), by omega⟩
  have hpoints : ∀ y, c < y → (y ∈ points lsuf ↔ y ∈ points (lpre ++ lsuf)) := by
    intro y hy
    rw [points_append, Set.mem_union]
    exact (or_iff_right (hout y hy)).symm
  have hcanonical := (canonical_append.1 h.canonical).2.1
  have habove : ∀ p ∈ lsuf, c + 1 < p.1 := by
    intro p hp
    refine (Nat.succ_le_of_lt (hsuf p hp)).lt_of_ne fun heq ↦ hnext.2 ⟨p, hp, heq.ge, ?_⟩
    exact heq.le.trans_lt (hcanonical.nonempty p hp)
  have hbelow : ∀ p ∈ lsuf, p.2 ≤ c + 2 ^ 31 := by
    intro p hp
    have := h.below p (List.mem_append_right _ hp)
    omega
  simp only [hcount]
  rcases lpre.length.eq_zero_or_pos with hzero | hpos
  · obtain rfl := List.length_eq_zero_iff.1 hzero
    refine ⟨g, lsuf, if_neg (lt_irrefl 0), ?_, hpoints⟩
    exact ⟨⟨rest, harrays⟩, h.length, h.numGaps, hcanonical, habove, hbelow⟩
  · rw [if_pos hpos]
    have hsplit : g.gaps = [] ++ lpre.map gapOf ++ lsuf.map gapOf ++ rest := by
      simp [harrays]
    obtain ⟨rest', hshift, hrest'⟩ := shiftDown_eq hsplit (by simpa using hpos)
    have hleft : g.NumGaps - lpre.length = lsuf.length := by simp [h.numGaps]
    rw [List.length_map, List.length_map, ← hleft] at hshift
    refine ⟨_, lsuf, by rw [List.length_nil] at hshift; rw [hshift]; rfl, ?_, hpoints⟩
    refine ⟨⟨rest', rfl⟩, ?_, hleft, hcanonical, habove, hbelow⟩
    have hlength := h.length
    rw [harrays] at hlength
    simp only [List.length_append, List.length_map, List.length_nil] at hlength hrest' ⊢
    omega

/-- A first block that does not follow the cumulative TSN stays. -/
theorem tryToAdvanceLoop_eq (h : Holds g cum l) (hn : 0 < l.length) (n : ℕ) (progress : Bool) :
    tryToAdvanceLoop n (wrap cum) progress g = some (progress, wrap cum, g) := by
  obtain ⟨p, l, rfl⟩ := List.exists_cons_of_length_pos hn
  have hsplit : Holds g cum ([] ++ p :: l) := h
  obtain ⟨rest, harrays⟩ := hsplit.arrays_cons
  obtain ⟨-, hp, -, habove, hbelow⟩ := hsplit.lt_of_mem
  have hget : g.get 0 = some (gapOf p) := get_append harrays
  have hne : wrap cum + 1 ≠ (gapOf p).start := by
    rw [wrap_add_one, gapOf, ne_eq, wrap_inj (by omega) (by omega)]
    omega
  induction n with
  | zero => rfl
  | succ n ih => rw [tryToAdvanceLoop, hget, Option.bind_eq_bind, Option.bind_some, if_neg hne, ih]

/-- **The cumulative TSN is never advanced by `tryToAdvanceCumAckTSN`**, as `updateGapList` has done
so. -/
theorem tryToAdvanceCumAckTSN_eq (h : Holds g cum l) :
    g.tryToAdvanceCumAckTSN (wrap cum) = some (false, wrap cum, g) := by
  rw [tryToAdvanceCumAckTSN, h.numGaps]
  rcases l.length.eq_zero_or_pos with hzero | hpos
  · rw [hzero]
    rfl
  · exact tryToAdvanceLoop_eq h hpos _ _

end Inet.Sctp.SCTPSimpleGapList
