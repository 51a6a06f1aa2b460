import Mathlib
import Inet.Foundations.Tiling

/-!
# The reassembly buffer

`ReassemblyBuffer` knows which offsets of a datagram have arrived: a main region that is extended,
and the regions that do not touch it yet. When the fragments that arrive are the pieces of a
partition of `[0, c)`, in any order and any number of times, it is complete exactly when every piece
has arrived (`Holds.addFragment`).

A `ushort` is a natural number below `2 ^ 16`, into which the offsets are converted when a fragment
is added.
-/

namespace Inet

open Tiling

namespace ReassemblyBuffer

/-- `ReassemblyBuffer::Region`. -/
structure Region where
  beg : ℕ
  stop : ℕ
  islast : Bool
  deriving DecidableEq, Repr

end ReassemblyBuffer

/-- `class ReassemblyBuffer`. -/
structure ReassemblyBuffer where
  main : ReassemblyBuffer.Region := ⟨0, 0, false⟩
  fragments : Option (List ReassemblyBuffer.Region) := none
  deriving DecidableEq, Repr

namespace ReassemblyBuffer

/-- One turn of the loop of `mergeFragments`: the main region, the fragments that are left, and
whether any has been deleted. -/
def mergePass (main : Region) : List Region → Region × List Region × Bool
  | [] => (main, [], false)
  | frag :: frags =>
    if main.stop = frag.beg then
      let r := mergePass { main with stop := frag.stop, islast := main.islast || frag.islast } frags
      (r.1, r.2.1, true)
    else if main.beg = frag.stop then
      let r := mergePass { main with beg := frag.beg } frags
      (r.1, r.2.1, true)
    else if main.beg ≤ frag.beg ∧ frag.stop ≤ main.stop then
      let r := mergePass main frags
      (r.1, r.2.1, true)
    else
      let r := mergePass main frags
      (r.1, frag :: r.2.1, r.2.2)

/-- The loop of `mergeFragments`. Each turn but the last deletes a fragment. -/
def mergeLoop : ℕ → Region → List Region → Region × List Region
  | 0, main, frags => (main, frags)
  | n + 1, main, frags =>
    let r := mergePass main frags
    if r.2.2 then mergeLoop n r.1 r.2.1 else (r.1, r.2.1)

/-- `ReassemblyBuffer::mergeFragments`, called when there are any. -/
def mergeFragments (b : ReassemblyBuffer) : ReassemblyBuffer :=
  match b.fragments with
  | none => b
  | some frags =>
    let r := mergeLoop (frags.length + 1) b.main frags
    ⟨r.1, some r.2⟩

/-- `ReassemblyBuffer::merge`. -/
def merge (b : ReassemblyBuffer) (beg stop : ℕ) (islast : Bool) : ReassemblyBuffer :=
  if b.main.stop = beg then
    mergeFragments { b with main := { b.main with stop, islast := b.main.islast || islast } }
  else if b.main.beg = stop then mergeFragments { b with main := { b.main with beg } }
  else if b.main.stop < beg ∨ stop < b.main.beg then
    { b with fragments := some (b.fragments.getD [] ++ [⟨beg, stop, islast⟩]) }
  else b

/-- `ReassemblyBuffer::addFragment`: the buffer, and whether reassembly has completed. -/
def addFragment (b : ReassemblyBuffer) (beg stop : ℕ) (islast : Bool) : ReassemblyBuffer × Bool :=
  let b := b.merge (beg % 2 ^ 16) (stop % 2 ^ 16) islast
  (b, b.main.beg = 0 ∧ b.main.islast)

/-- `ReassemblyBuffer::getTotalLength`. -/
def getTotalLength (b : ReassemblyBuffer) : ℕ :=
  b.main.stop

/-! ### Which pieces have arrived -/

variable {pieces arrived : Set (ℕ × ℕ)} {c : ℕ} {p : ℕ × ℕ}

/-- The region of a piece. -/
def regionOf (c : ℕ) (p : ℕ × ℕ) : Region :=
  ⟨p.1, p.2, p.2 = c⟩

/-- Every piece that has arrived lies in the main region or among the fragments, and nothing else
does. -/
structure Merging (pieces arrived : Set (ℕ × ℕ)) (c : ℕ) (main : Region) (frags : List Region) :
    Prop where
  beg_eq : main.beg = 0
  stop_le : main.stop ≤ c
  islast_iff : main.islast = true ↔ main.stop = c
  cutPoint : CutPoint pieces main.stop
  below : ∀ p ∈ pieces, p.2 ≤ main.stop → p ∈ arrived
  kept : ∀ p ∈ arrived, p.2 ≤ main.stop ∨ regionOf c p ∈ frags
  fragment : ∀ r ∈ frags, ∃ p ∈ arrived, r = regionOf c p

/-- No fragment touches the main region. -/
def Settled (main : Region) (frags : List Region) : Prop :=
  ∀ r ∈ frags, main.stop ≠ r.beg

namespace Merging

variable {main : Region} {frag : Region} {before frags : List Region}

/-- A piece behind the main region extends it. -/
theorem extend (h : Merging pieces arrived c main frags) (hpieces : Partitions pieces 0 c)
    (hp : p ∈ pieces) (hbegin : main.stop = p.1) :
    Merging pieces (insert p arrived) c
      { main with stop := p.2, islast := main.islast || decide (p.2 = c) } frags where
  beg_eq := h.beg_eq
  stop_le := (hpieces.within p hp).2.2
  islast_iff := by
    have hne : ¬ main.islast = true := fun hlast ↦ by
      have heq := h.islast_iff.1 hlast
      have hlt := hpieces.within p hp
      omega
    simp [hne]
  cutPoint := hpieces.cutPoint_end hp
  below q hq hle := by
    rcases hpieces.eq_or_le_of_le hp hq hle with rfl | hle'
    · exact .inl rfl
    · exact .inr (h.below q hq (hbegin ▸ hle'))
  kept q hq := by
    rcases hq with rfl | hq
    · exact .inl le_rfl
    · have hlt := (hpieces.within p hp).2.1
      exact (h.kept q hq).imp_left fun hle ↦ hle.trans (hbegin ▸ hlt.le)
  fragment r hr := by
    obtain ⟨q, hq, heq⟩ := h.fragment r hr
    exact ⟨q, .inr hq, heq⟩

/-- A fragment that lies in the main region can be deleted. -/
theorem delete (h : Merging pieces arrived c main (before ++ frag :: frags))
    (hle : frag.stop ≤ main.stop) : Merging pieces arrived c main (before ++ frags) :=
  { h with
    kept := fun q hq ↦ by
      rcases h.kept q hq with hle' | hmem
      · exact .inl hle'
      · rcases List.mem_append.1 hmem with hmem | hmem
        · exact .inr (List.mem_append_left _ hmem)
        · rcases List.mem_cons.1 hmem with heq | hmem
          · rw [← heq] at hle
            exact .inl hle
          · exact .inr (List.mem_append_right _ hmem)
    fragment := fun r hr ↦ h.fragment r (by
      rcases List.mem_append.1 hr with hr | hr
      · exact List.mem_append_left _ hr
      · exact List.mem_append_right _ (List.mem_cons_of_mem _ hr)) }

/-- **One turn of the loop**, with the fragments before the iterator. -/
theorem mergePass (hpieces : Partitions pieces 0 c) (hsub : arrived ⊆ pieces) :
    ∀ {main : Region} {before : List Region}, Merging pieces arrived c main (before ++ frags) →
      Merging pieces arrived c (ReassemblyBuffer.mergePass main frags).1
        (before ++ (ReassemblyBuffer.mergePass main frags).2.1) := by
  induction frags with
  | nil => exact fun h ↦ h
  | cons frag frags ih =>
    intro main before h
    obtain ⟨p, hp, rfl⟩ := h.fragment frag (List.mem_append_right _ List.mem_cons_self)
    have hwithin := hpieces.within p (hsub hp)
    rw [ReassemblyBuffer.mergePass]
    split_ifs with hbegin hend hinside
    · have hext := h.extend hpieces (hsub hp) hbegin
      rw [Set.insert_eq_of_mem hp] at hext
      exact ih (hext.delete le_rfl)
    · -- nothing ends where the main region begins
      have hzero := h.beg_eq
      have hend' : main.beg = p.2 := hend
      omega
    · exact ih (h.delete hinside.2)
    · have h' : Merging pieces arrived c main ((before ++ [regionOf c p]) ++ frags) := by
        rwa [List.append_assoc]
      have hnext := ih h'
      rwa [List.append_assoc] at hnext

/-- The loop goes on only when a fragment has been deleted. -/
theorem length_mergePass (main : Region) (frags : List Region) :
    (ReassemblyBuffer.mergePass main frags).2.1.length ≤ frags.length ∧
      ((ReassemblyBuffer.mergePass main frags).2.2 = true →
        (ReassemblyBuffer.mergePass main frags).2.1.length < frags.length) := by
  induction frags generalizing main with
  | nil => exact ⟨le_rfl, fun h ↦ absurd h Bool.false_ne_true⟩
  | cons frag frags ih =>
    rw [ReassemblyBuffer.mergePass, List.length_cons]
    split_ifs with hbegin hend hinside
    · have hle := (ih { main with stop := frag.stop, islast := main.islast || frag.islast }).1
      exact ⟨Nat.le_succ_of_le hle, fun _ ↦ Nat.lt_succ_of_le hle⟩
    · have hle := (ih { main with beg := frag.beg }).1
      exact ⟨Nat.le_succ_of_le hle, fun _ ↦ Nat.lt_succ_of_le hle⟩
    · have hle := (ih main).1
      exact ⟨Nat.le_succ_of_le hle, fun _ ↦ Nat.lt_succ_of_le hle⟩
    · obtain ⟨hle, hlt⟩ := ih main
      exact ⟨Nat.succ_le_succ hle, fun h ↦ Nat.succ_lt_succ (hlt h)⟩

/-- When none has been deleted, none touches the main region. -/
theorem settled_mergePass (main : Region) (frags : List Region)
    (h : (ReassemblyBuffer.mergePass main frags).2.2 = false) :
    (ReassemblyBuffer.mergePass main frags).1 = main ∧
      (ReassemblyBuffer.mergePass main frags).2.1 = frags ∧ Settled main frags := by
  induction frags with
  | nil => exact ⟨rfl, rfl, by simp [Settled]⟩
  | cons frag frags ih =>
    rw [ReassemblyBuffer.mergePass] at h ⊢
    split_ifs at h ⊢ with hbegin hend hinside
    obtain ⟨hmain, hfrags, hsettled⟩ := ih h
    exact ⟨hmain, congrArg (frag :: ·) hfrags, List.forall_mem_cons.2 ⟨hbegin, hsettled⟩⟩

/-- **The loop** ends with fragments that do not touch the main region. -/
theorem mergeLoop (hpieces : Partitions pieces 0 c) (hsub : arrived ⊆ pieces) {n : ℕ}
    (h : Merging pieces arrived c main frags) (hn : frags.length < n) :
    Merging pieces arrived c (ReassemblyBuffer.mergeLoop n main frags).1
        (ReassemblyBuffer.mergeLoop n main frags).2 ∧
      Settled (ReassemblyBuffer.mergeLoop n main frags).1
        (ReassemblyBuffer.mergeLoop n main frags).2 := by
  induction n generalizing main frags with
  | zero => exact absurd hn (Nat.not_lt_zero _)
  | succ n ih =>
    have hpass : Merging pieces arrived c (ReassemblyBuffer.mergePass main frags).1
        (ReassemblyBuffer.mergePass main frags).2.1 :=
      @Merging.mergePass _ _ _ _ hpieces hsub _ [] h
    rw [ReassemblyBuffer.mergeLoop]
    split_ifs with hagain
    · have hlt := (length_mergePass main frags).2 hagain
      exact ih hpass (by omega)
    · obtain ⟨hmain, hfrags, hsettled⟩ := settled_mergePass main frags (Bool.eq_false_iff.2 hagain)
      rw [hmain, hfrags] at hpass ⊢
      exact ⟨hpass, hsettled⟩

end Merging

/-- What is known of a buffer between two fragments. -/
structure Holds (pieces arrived : Set (ℕ × ℕ)) (c : ℕ) (b : ReassemblyBuffer) : Prop where
  arrived_subset : arrived ⊆ pieces
  merging : Merging pieces arrived c b.main (b.fragments.getD [])
  settled : Settled b.main (b.fragments.getD [])

namespace Holds

variable {b : ReassemblyBuffer}

/-- Nothing has arrived. -/
theorem empty (hpieces : Partitions pieces 0 c) (hc : 0 < c) : Holds pieces ∅ c {} where
  arrived_subset := Set.empty_subset _
  merging := {
    beg_eq := rfl
    stop_le := Nat.zero_le c
    islast_iff := ⟨fun h ↦ absurd h Bool.false_ne_true, fun h ↦ absurd h hc.ne⟩
    cutPoint := hpieces.cutPoint_begin
    below := fun p hp hle ↦ by
      have hlt := hpieces.within p hp
      have hle' : p.2 ≤ 0 := hle
      omega
    kept := fun p hp ↦ hp.elim
    fragment := fun r hr ↦ absurd hr List.not_mem_nil }
  settled := fun r hr ↦ absurd hr List.not_mem_nil

theorem mergeFragments (hpieces : Partitions pieces 0 c) (hsub : arrived ⊆ pieces)
    (h : Merging pieces arrived c b.main (b.fragments.getD [])) :
    Holds pieces arrived c b.mergeFragments := by
  obtain ⟨main, fragments⟩ := b
  cases fragments with
  | none => exact ⟨hsub, h, fun r hr ↦ absurd hr List.not_mem_nil⟩
  | some frags =>
    obtain ⟨hmerging, hsettled⟩ := Merging.mergeLoop hpieces hsub h (Nat.lt_succ_self _)
    exact ⟨hsub, hmerging, hsettled⟩

/-- **A piece that arrives**, for the first time or again. -/
theorem merge (h : Holds pieces arrived c b) (hpieces : Partitions pieces 0 c) (hp : p ∈ pieces) :
    Holds pieces (insert p arrived) c (b.merge p.1 p.2 (p.2 = c)) := by
  have hsub : insert p arrived ⊆ pieces := Set.insert_subset hp h.arrived_subset
  have hwithin := hpieces.within p hp
  have hzero := h.merging.beg_eq
  rw [ReassemblyBuffer.merge]
  split_ifs with hbegin hend hapart
  · exact mergeFragments hpieces hsub (h.merging.extend hpieces hp hbegin)
  · omega
  · -- the piece lies behind the main region
    have hlt : b.main.stop < p.1 := hapart.resolve_right (by omega)
    refine ⟨hsub, ?_, ?_⟩
    · exact { h.merging with
        below := fun q hq hle ↦ .inr (h.merging.below q hq hle)
        kept := fun q hq ↦ by
          rcases hq with rfl | hq
          · exact .inr (List.mem_append_right _ (List.mem_singleton_self _))
          · exact (h.merging.kept q hq).imp_right (List.mem_append_left _)
        fragment := fun r hr ↦ by
          rcases List.mem_append.1 hr with hr | hr
          · obtain ⟨q, hq, heq⟩ := h.merging.fragment r hr
            exact ⟨q, .inr hq, heq⟩
          · exact ⟨p, .inl rfl, List.mem_singleton.1 hr⟩ }
    · intro r hr
      rcases List.mem_append.1 hr with hr | hr
      · exact h.settled r hr
      · rw [List.mem_singleton.1 hr]
        exact hlt.ne
  · -- the piece is there already
    have hle : p.2 ≤ b.main.stop := (h.merging.cutPoint p hp).resolve_right (by omega)
    rw [Set.insert_eq_of_mem (h.merging.below p hp hle)]
    exact h

/-- The main region is all of it exactly when all pieces have arrived. -/
theorem stop_eq_iff (h : Holds pieces arrived c b) (hpieces : Partitions pieces 0 c) :
    b.main.stop = c ↔ pieces ⊆ arrived := by
  constructor
  · intro heq p hp
    exact h.merging.below p hp (heq ▸ (hpieces.within p hp).2.2)
  · intro hall
    by_contra hne
    have hlt := lt_of_le_of_ne h.merging.stop_le hne
    obtain ⟨p, hp, hbegin⟩ :=
      hpieces.exists_of_cutPoint h.merging.cutPoint (Nat.zero_le _) hlt
    rcases h.merging.kept p (hall hp) with hle | hmem
    · have hwithin := hpieces.within p hp
      omega
    · exact h.settled _ hmem hbegin.symm

/-- **Reassembly has completed exactly when all pieces have arrived.** -/
theorem addFragment (h : Holds pieces arrived c b) (hpieces : Partitions pieces 0 c)
    (hc : c < 2 ^ 16) (hp : p ∈ pieces) :
    Holds pieces (insert p arrived) c (b.addFragment p.1 p.2 (p.2 = c)).1 ∧
      ((b.addFragment p.1 p.2 (p.2 = c)).2 = true ↔ pieces ⊆ insert p arrived) ∧
      ((b.addFragment p.1 p.2 (p.2 = c)).2 = true →
        (b.addFragment p.1 p.2 (p.2 = c)).1.getTotalLength = c) := by
  have hwithin := hpieces.within p hp
  have hmerge := h.merge hpieces hp
  have hiff := hmerge.stop_eq_iff hpieces
  rw [ReassemblyBuffer.addFragment, Nat.mod_eq_of_lt (by omega), Nat.mod_eq_of_lt (by omega)]
  have hcomplete : decide ((b.merge p.1 p.2 (p.2 = c)).main.beg = 0 ∧
      (b.merge p.1 p.2 (p.2 = c)).main.islast = true) = true ↔
        (b.merge p.1 p.2 (p.2 = c)).main.stop = c := by
    rw [decide_eq_true_iff, hmerge.merging.islast_iff]
    exact and_iff_right hmerge.merging.beg_eq
  exact ⟨hmerge, hcomplete.trans hiff, hcomplete.1⟩

end Holds

/-! ### The fragments of a datagram -/

section Fragments

variable {ρ : Type*} {span : ρ → ℕ × ℕ} {isLast : ρ → Bool} {c : ℕ} {leaves as : List ρ} {f g : ρ}

/-- The intervals of some fragments. -/
def spansOf (span : ρ → ℕ × ℕ) (l : List ρ) : Set (ℕ × ℕ) :=
  {p | ∃ f ∈ l, span f = p}

/-- The fragments into which a payload of `c` bytes has been cut. The last one is marked. -/
structure Cut (span : ρ → ℕ × ℕ) (isLast : ρ → Bool) (c : ℕ) (leaves : List ρ) : Prop where
  tiles : Tiles (fun f x y ↦ span f = (x, y)) 0 c leaves
  lt : c < 2 ^ 16
  isLast_iff : ∀ f ∈ leaves, isLast f = true ↔ (span f).2 = c

namespace Cut

theorem partitions (h : Cut span isLast c leaves) : Partitions (spansOf span leaves) 0 c :=
  h.tiles.partitions

theorem pos (h : Cut span isLast c leaves) (hf : f ∈ leaves) : 0 < c :=
  have hwithin := h.partitions.within _ ⟨f, hf, rfl⟩
  Nat.zero_lt_of_lt (hwithin.2.1.trans_le hwithin.2.2)

/-- A fragment is determined by its interval. -/
theorem eq_of_span_eq {a : ℕ} {l : List ρ} (h : Tiles (fun f x y ↦ span f = (x, y)) a c l)
    (hf : f ∈ l) (hg : g ∈ l) (heq : span f = span g) : f = g := by
  induction h with
  | nil => cases hf
  | @cons a b c e l hspan hlt hl ih =>
    have hafter {g : ρ} (hg : g ∈ l) : span g ≠ span e := fun heq ↦ by
      obtain ⟨x, y, hspan', hx, -, -⟩ := hl.exists_of_mem hg
      have hx' := congrArg Prod.fst (hspan'.symm.trans (heq.trans hspan))
      simp only at hx'
      omega
    rcases List.mem_cons.1 hf with rfl | hf' <;> rcases List.mem_cons.1 hg with rfl | hg'
    · rfl
    · exact absurd heq.symm (hafter hg')
    · exact absurd heq (hafter hf')
    · exact ih hf' hg'

/-- All fragments have arrived when all intervals have. -/
theorem spansOf_subset_iff (h : Cut span isLast c leaves) (has : as ⊆ leaves) :
    spansOf span leaves ⊆ spansOf span as ↔ leaves ⊆ as := by
  constructor
  · intro hall f hf
    obtain ⟨g, hg, heq⟩ := hall ⟨f, hf, rfl⟩
    exact eq_of_span_eq h.tiles (has hg) hf heq ▸ hg
  · rintro hall p ⟨f, hf, rfl⟩
    exact ⟨f, hall hf, rfl⟩

/-- A fragment that is not all of the payload is not the only one. -/
theorem not_subset_singleton (h : Cut span isLast c leaves) (hf : f ∈ leaves)
    (hpart : span f ≠ (0, c)) : ¬leaves ⊆ [f] := by
  intro hall
  have hspan : ∀ p ∈ spansOf span leaves, p = span f := by
    rintro p ⟨g, hg, rfl⟩
    rw [List.mem_singleton.1 (hall hg)]
  have hpos := h.pos hf
  obtain ⟨p, hp, hbegin, -⟩ := h.partitions.cover 0 le_rfl hpos
  obtain ⟨q, hq, -, hend⟩ := h.partitions.cover (c - 1) (Nat.zero_le _) (by omega)
  have hwithin := h.partitions.within q hq
  rw [hspan p hp] at hbegin
  rw [hspan q hq] at hend hwithin
  exact hpart (Prod.ext (Nat.le_zero.1 hbegin) (by omega))

/-- **A fragment that arrives**, for the first time or again. The buffer knows when all have. -/
theorem arrive (h : Cut span isLast c leaves) (has : as ⊆ leaves) {b : ReassemblyBuffer}
    (hholds : Holds (spansOf span leaves) (spansOf span as) c b) (hf : f ∈ leaves) :
    Holds (spansOf span leaves) (spansOf span (as ++ [f])) c
        (b.addFragment (span f).1 (span f).2 (isLast f)).1 ∧
      ((b.addFragment (span f).1 (span f).2 (isLast f)).2 = true ↔ leaves ⊆ as ++ [f]) ∧
      ((b.addFragment (span f).1 (span f).2 (isLast f)).2 = true →
        (b.addFragment (span f).1 (span f).2 (isLast f)).1.getTotalLength = c) := by
  have hlast : isLast f = decide ((span f).2 = c) := by
    rw [Bool.eq_iff_iff, h.isLast_iff f hf, decide_eq_true_iff]
  have hspans : spansOf span (as ++ [f]) = insert (span f) (spansOf span as) := by
    ext p
    simp [spansOf, or_comm, or_and_right, exists_or, eq_comm]
  have hsubset : as ++ [f] ⊆ leaves :=
    List.append_subset.2 ⟨has, by simpa using hf⟩
  obtain ⟨hnext, hiff, htotal⟩ := hholds.addFragment h.partitions h.lt ⟨f, hf, rfl⟩
  rw [hlast, ← h.spansOf_subset_iff hsubset, hspans]
  exact ⟨hnext, hiff, htotal⟩

/-- Nothing has arrived. -/
theorem holds_nil (h : Cut span isLast c leaves) (hf : f ∈ leaves) :
    Holds (spansOf span leaves) (spansOf span []) c {} := by
  have hempty : spansOf span ([] : List ρ) = ∅ := by simp [spansOf]
  rw [hempty]
  exact .empty h.partitions (h.pos hf)

end Cut

end Fragments

end ReassemblyBuffer

end Inet
