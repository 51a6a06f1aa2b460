import Mathlib.Data.List.DropRight
import Mathlib.Order.Lattice

/-!
# Pieces that tile an interval

A list of pieces, each of which covers an interval, tiles `[a, c)` when the first piece starts at
`a`, each of the others starts where the one before it ends, the last one ends at `c`, and none is
empty. `At r x y` says which interval a piece covers, so that pieces may be kept in any form.

A tiling is cut where its pieces pass a point (`Tiles.exists_cut`). In no order, the pieces are a
partition (`Tiles.partitions`), which is followed from cut point to cut point. Over the natural
numbers the pieces may carry a label; `expand` writes the label of every point, and `modifyRange`
changes the labels in a range point by point.
-/

namespace Tiling

variable {ρ σ α β : Type*} {l l₁ l₂ : List ρ} {r : ρ}

section Order

variable [LinearOrder α] {At : ρ → α → α → Prop} {a b c n : α}

/-- The pieces cover `[a, c)`, one after the other. -/
inductive Tiles (At : ρ → α → α → Prop) : α → α → List ρ → Prop
  | nil (a : α) : Tiles At a a []
  | cons {a b c : α} {r : ρ} {l : List ρ} : At r a b → a < b → Tiles At b c l → Tiles At a c (r :: l)

theorem tiles_nil : Tiles At a c [] ↔ a = c := by
  refine ⟨fun h ↦ ?_, fun h ↦ h ▸ .nil a⟩
  cases h
  rfl

theorem tiles_cons : Tiles At a c (r :: l) ↔ ∃ b, At r a b ∧ a < b ∧ Tiles At b c l := by
  constructor
  · rintro (_ | ⟨hr, hlt, hl⟩)
    exact ⟨_, hr, hlt, hl⟩
  · rintro ⟨b, hr, hlt, hl⟩
    exact .cons hr hlt hl

theorem Tiles.single (hr : At r a b) (hlt : a < b) : Tiles At a b [r] :=
  .cons hr hlt (.nil b)

theorem Tiles.le (h : Tiles At a c l) : a ≤ c := by
  induction h with
  | nil => exact le_rfl
  | cons _ hlt _ ih => exact hlt.le.trans ih

theorem Tiles.append (h₁ : Tiles At a b l₁) (h₂ : Tiles At b c l₂) : Tiles At a c (l₁ ++ l₂) := by
  induction h₁ with
  | nil => exact h₂
  | cons hr hlt _ ih => exact .cons hr hlt (ih h₂)

theorem tiles_append :
    Tiles At a c (l₁ ++ l₂) ↔ ∃ b, Tiles At a b l₁ ∧ Tiles At b c l₂ := by
  refine ⟨fun h ↦ ?_, fun ⟨b, h₁, h₂⟩ ↦ h₁.append h₂⟩
  induction l₁ generalizing a with
  | nil => exact ⟨a, .nil a, h⟩
  | cons r l₁ ih =>
    obtain ⟨b, hr, hlt, hl⟩ := tiles_cons.1 h
    obtain ⟨m, h₁, h₂⟩ := ih hl
    exact ⟨m, .cons hr hlt h₁, h₂⟩

theorem tiles_concat : Tiles At a c (l ++ [r]) ↔ ∃ b, Tiles At a b l ∧ At r b c ∧ b < c := by
  rw [tiles_append]
  refine exists_congr fun b ↦ and_congr_right fun _ ↦ ⟨fun h ↦ ?_, fun h ↦ .single h.1 h.2⟩
  obtain ⟨m, hr, hlt, hl⟩ := tiles_cons.1 h
  rw [tiles_nil] at hl
  exact hl ▸ ⟨hr, hlt⟩

/-- Changing the pieces and what they cover, inside the interval. -/
theorem Tiles.map {At' : σ → α → α → Prop} {f : ρ → σ} (h : Tiles At a c l)
    (hf : ∀ r x y, At r x y → a ≤ x → x < y → y ≤ c → At' (f r) x y) :
    Tiles At' a c (l.map f) := by
  induction h with
  | nil => exact .nil _
  | cons hr hlt hl ih =>
    exact .cons (hf _ _ _ hr le_rfl hlt hl.le) hlt
      (ih fun r x y hr hx ↦ hf r x y hr (hlt.le.trans hx))

/-- The same pieces over other points. -/
theorem Tiles.mapPoints [LinearOrder β] {g : α → β} {At' : ρ → β → β → Prop} (h : Tiles At a c l)
    (hg : StrictMono g) (hat : ∀ r ∈ l, ∀ x y, At r x y → At' r (g x) (g y)) :
    Tiles At' (g a) (g c) l := by
  induction h with
  | nil => exact .nil _
  | cons hr hlt hl ih =>
    rw [List.forall_mem_cons] at hat
    exact .cons (hat.1 _ _ hr) (hg hlt) (ih hat.2)

theorem Tiles.exists_of_mem (h : Tiles At a c l) (hr : r ∈ l) :
    ∃ x y, At r x y ∧ a ≤ x ∧ x < y ∧ y ≤ c := by
  induction h with
  | nil => cases hr
  | cons hat hlt hl ih =>
    rcases List.mem_cons.1 hr with rfl | hr
    · exact ⟨_, _, hat, le_rfl, hlt, hl.le⟩
    · obtain ⟨x, y, hat', hx, hy⟩ := ih hr
      exact ⟨x, y, hat', hlt.le.trans hx, hy⟩

/-- **Cutting a tiling** behind the pieces that end at or before a point. -/
theorem Tiles.exists_cut (h : Tiles At a c l) {p : ρ → Bool} (hn : a ≤ n)
    (hp : ∀ r x y, At r x y → a ≤ x → x < y → y ≤ c → (p r = true ↔ y ≤ n)) :
    ∃ b, b ≤ n ∧ Tiles At a b (l.takeWhile p) ∧ (l.dropWhile p = [] ∧ b = c ∨
      ∃ r l' d, l.dropWhile p = r :: l' ∧ At r b d ∧ n < d ∧ Tiles At d c l') := by
  induction h with
  | nil a => exact ⟨a, hn, .nil a, .inl ⟨rfl, rfl⟩⟩
  | @cons a b c r l hr hlt hl ih =>
    have hiff := hp r a b hr le_rfl hlt hl.le
    by_cases hb : b ≤ n
    · rw [List.takeWhile_cons_of_pos (hiff.2 hb), List.dropWhile_cons_of_pos (hiff.2 hb)]
      obtain ⟨d, hd, htake, hdrop⟩ := ih hb fun r x y hr hx ↦ hp r x y hr (hlt.le.trans hx)
      exact ⟨d, hd, .cons hr hlt htake, hdrop⟩
    · have hneg : ¬ p r = true := fun hpos ↦ hb (hiff.1 hpos)
      rw [List.takeWhile_cons_of_neg hneg, List.dropWhile_cons_of_neg hneg]
      exact ⟨a, hn, .nil a, .inr ⟨r, l, b, rfl, hr, not_le.1 hb, hl⟩⟩

/-- Intervals that are not empty, do not meet, and together make up `[a, c)`, in no order. -/
structure Partitions (pieces : Set (α × α)) (a c : α) : Prop where
  within : ∀ p ∈ pieces, a ≤ p.1 ∧ p.1 < p.2 ∧ p.2 ≤ c
  apart : ∀ p ∈ pieces, ∀ q ∈ pieces, p = q ∨ p.2 ≤ q.1 ∨ q.2 ≤ p.1
  cover : ∀ n, a ≤ n → n < c → ∃ p ∈ pieces, p.1 ≤ n ∧ n < p.2

/-- No piece goes on over `n`. -/
def CutPoint (pieces : Set (α × α)) (n : α) : Prop :=
  ∀ p ∈ pieces, p.2 ≤ n ∨ n ≤ p.1

namespace Partitions

variable {pieces : Set (α × α)} {p : α × α}

theorem cutPoint_begin (h : Partitions pieces a c) : CutPoint pieces a :=
  fun p hp ↦ .inr (h.within p hp).1

/-- A piece begins at every cut point but the last. -/
theorem exists_of_cutPoint (h : Partitions pieces a c) (hn : CutPoint pieces n) (hle : a ≤ n)
    (hlt : n < c) : ∃ p ∈ pieces, p.1 = n := by
  obtain ⟨p, hp, hbegin, hend⟩ := h.cover n hle hlt
  exact ⟨p, hp, hbegin.antisymm ((hn p hp).resolve_left hend.not_ge)⟩

/-- The end of a piece is a cut point. -/
theorem cutPoint_end (h : Partitions pieces a c) (hp : p ∈ pieces) : CutPoint pieces p.2 := by
  intro q hq
  rcases h.apart p hp q hq with rfl | hle | hle
  · exact .inl le_rfl
  · exact .inr hle
  · exact .inl (hle.trans (h.within p hp).2.1.le)

/-- What lies before the end of a piece is the piece, or lies before its beginning. -/
theorem eq_or_le_of_le (h : Partitions pieces a c) (hp : p ∈ pieces) {q : α × α} (hq : q ∈ pieces)
    (hle : q.2 ≤ p.2) : q = p ∨ q.2 ≤ p.1 := by
  rcases h.apart p hp q hq with rfl | hle' | hle'
  · exact .inl rfl
  · exact absurd (hle'.trans_lt (h.within q hq).2.1) hle.not_gt
  · exact .inr hle'

end Partitions

/-- A tiling is a partition. -/
theorem Tiles.partitions {span : ρ → α × α} (h : Tiles (fun r x y ↦ span r = (x, y)) a c l) :
    Partitions {p | ∃ r ∈ l, span r = p} a c := by
  induction h with
  | nil a => exact ⟨by simp, by simp, fun n hle hlt ↦ absurd hle hlt.not_ge⟩
  | @cons a b c r l hr hlt hl ih =>
    have hafter : ∀ s ∈ l, b ≤ (span s).1 := fun s hs ↦ (ih.within _ ⟨s, hs, rfl⟩).1
    have hfirst : span r = (a, b) := hr
    refine ⟨?_, ?_, fun n hle hlt' ↦ ?_⟩
    · rintro p ⟨s, hs, rfl⟩
      rcases List.mem_cons.1 hs with rfl | hs
      · rw [hfirst]
        exact ⟨le_rfl, hlt, hl.le⟩
      · obtain ⟨hle, hlt', hle'⟩ := ih.within _ ⟨s, hs, rfl⟩
        exact ⟨hlt.le.trans hle, hlt', hle'⟩
    · rintro p ⟨s, hs, rfl⟩ q ⟨t, ht, rfl⟩
      rcases List.mem_cons.1 hs with hs | hs <;> rcases List.mem_cons.1 ht with ht | ht
      · exact .inl (by rw [hs, ht])
      · exact .inr (.inl (by rw [hs, hfirst]; exact hafter t ht))
      · exact .inr (.inr (by rw [ht, hfirst]; exact hafter s hs))
      · exact ih.apart _ ⟨s, hs, rfl⟩ _ ⟨t, ht, rfl⟩
    · rcases lt_or_ge n b with hn | hn
      · exact ⟨span r, ⟨r, List.mem_cons_self, rfl⟩, by rw [hfirst]; exact ⟨hle, hn⟩⟩
      · obtain ⟨p, ⟨s, hs, rfl⟩, hp⟩ := ih.cover n hn hlt'
        exact ⟨_, ⟨s, List.mem_cons_of_mem r hs, rfl⟩, hp⟩

end Order

/-! ### Labels -/

section Labels

variable {run : ρ → ℕ × β} {At : ρ → ℕ → ℕ → Prop} {a b c : ℕ} {f : β → β}

/-- The labels of the points, one by one; `run` is how many points a piece has and their label. -/
def expand (run : ρ → ℕ × β) (l : List ρ) : List β :=
  l.flatMap fun r ↦ List.replicate (run r).1 (run r).2

theorem expand_nil : expand run [] = [] :=
  rfl

theorem expand_cons : expand run (r :: l) = List.replicate (run r).1 (run r).2 ++ expand run l :=
  List.flatMap_cons

theorem expand_append : expand run (l₁ ++ l₂) = expand run l₁ ++ expand run l₂ :=
  List.flatMap_append

theorem expand_singleton : expand run [r] = List.replicate (run r).1 (run r).2 := by
  rw [expand_cons, expand_nil, List.append_nil]

/-- Changing the label of every piece changes the label of every point. -/
theorem expand_map {g : ρ → ρ} (h : ∀ r ∈ l, run (g r) = ((run r).1, f (run r).2)) :
    expand run (l.map g) = (expand run l).map f := by
  induction l with
  | nil => rfl
  | cons r l ih =>
    rw [List.forall_mem_cons] at h
    rw [List.map_cons, expand_cons, expand_cons, List.map_append, ih h.2, h.1, List.map_replicate]

theorem Tiles.length_expand (h : Tiles At a c l)
    (hrun : ∀ r x y, At r x y → x < y → (run r).1 = y - x) :
    (expand run l).length = c - a := by
  induction h with
  | nil => rw [expand_nil, List.length_nil, Nat.sub_self]
  | cons hr hlt hl ih =>
    rw [expand_cons, List.length_append, List.length_replicate, hrun _ _ _ hr hlt, ih]
    have := hl.le
    omega

/-- Changing the labels at the positions from `a` to `b`. -/
def modifyRange (a b : ℕ) (f : β → β) (xs : List β) : List β :=
  xs.mapIdx fun i x ↦ if a ≤ i ∧ i < b then f x else x

@[simp] theorem length_modifyRange (a b : ℕ) (f : β → β) (xs : List β) :
    (modifyRange a b f xs).length = xs.length :=
  List.length_mapIdx

/-- A change that is the same at every position. -/
theorem mapIdx_eq_map {g : ℕ → β → β} {xs : List β} (h : ∀ i < xs.length, ∀ x, g i x = f x) :
    xs.mapIdx g = xs.map f := by
  refine List.ext_getElem (by rw [List.length_mapIdx, List.length_map]) fun i h₁ h₂ ↦ ?_
  rw [List.getElem_mapIdx, List.getElem_map]
  exact h i (by rwa [List.length_mapIdx] at h₁) _

/-- Part by part: what lies before the range, in it, and behind it. -/
theorem modifyRange_append {xs ys zs : List β} (hx : xs.length = a) (hy : a + ys.length ≤ b)
    (hz : zs = [] ∨ b ≤ a + ys.length) :
    modifyRange a b f (xs ++ ys ++ zs) = xs ++ ys.map f ++ zs := by
  have hbefore : xs.mapIdx (fun i x ↦ if a ≤ i ∧ i < b then f x else x) = xs.map id :=
    mapIdx_eq_map fun i hi x ↦ if_neg (by omega)
  have hin : ys.mapIdx (fun i x ↦ if a ≤ i + xs.length ∧ i + xs.length < b then f x else x) =
      ys.map f :=
    mapIdx_eq_map fun i hi x ↦ if_pos (by omega)
  have hbehind : zs.mapIdx (fun i x ↦ if a ≤ i + (xs ++ ys).length ∧ i + (xs ++ ys).length < b
      then f x else x) = zs.map id := by
    rcases hz with rfl | hz
    · rfl
    · exact mapIdx_eq_map fun i hi x ↦ if_neg (by rw [List.length_append]; omega)
  rw [modifyRange, List.mapIdx_append, List.mapIdx_append, hbefore, hin, hbehind, List.map_id,
    List.map_id]

theorem rdropWhile_append_replicate {p : β → Bool} {x : β} (h : p x = true) (xs : List β) (n : ℕ) :
    (xs ++ List.replicate n x).rdropWhile p = xs.rdropWhile p := by
  induction n with
  | zero => rw [List.replicate_zero, List.append_nil]
  | succ n ih =>
    rw [List.replicate_succ', ← List.append_assoc, List.rdropWhile_concat_pos _ _ _ h, ih]

theorem rdropWhile_append_replicate_of_not {p : β → Bool} {x : β} (h : ¬ p x = true) (xs : List β)
    {n : ℕ} (hn : 0 < n) :
    (xs ++ List.replicate n x).rdropWhile p = xs ++ List.replicate n x := by
  obtain ⟨n, rfl⟩ := Nat.exists_eq_succ_of_ne_zero hn.ne'
  rw [Nat.succ_eq_add_one, List.replicate_succ', ← List.append_assoc,
    List.rdropWhile_concat_neg _ _ _ h]

theorem takeWhile_replicate_append {p : β → Bool} {x : β} (h : p x = true) (xs : List β) (n : ℕ) :
    (List.replicate n x ++ xs).takeWhile p = List.replicate n x ++ xs.takeWhile p :=
  List.takeWhile_append_of_pos fun _ hy ↦ List.eq_of_mem_replicate hy ▸ h

end Labels

end Tiling
