import Mathlib.Data.List.DropRight
import Mathlib.Order.Lattice

/-!
# Lists with ascending keys

Lists of keyed entries in strictly ascending order of their keys. Dropping or taking entries at one
end while their keys are below or above a bound selects by the key (`mem_dropWhile`,
`mem_takeWhile`, `mem_rdropWhile`). Two ascending lists whose equal keys belong to equal entries are
merged into one ascending list with the entries of both (`ascending_mergeInto`, `mem_mergeInto`).

`Selects` says of an ascending list which entries of another list it has; the operations change the
condition.
-/

namespace AscendingKeys

variable {α κ : Type*} [LinearOrder κ] {key : α → κ} {l l' : List α} {x : α} {a : κ}

/-- The keys ascend strictly. -/
def Ascending (key : α → κ) (l : List α) : Prop :=
  l.Pairwise fun x y ↦ key x < key y

theorem Ascending.cons (h : Ascending key l) (hx : ∀ y ∈ l, key x < key y) :
    Ascending key (x :: l) :=
  List.pairwise_cons.2 ⟨hx, h⟩

theorem Ascending.lt_of_mem (h : Ascending key (x :: l)) {y : α} (hy : y ∈ l) : key x < key y :=
  (List.pairwise_cons.1 h).1 y hy

theorem Ascending.tail (h : Ascending key (x :: l)) : Ascending key l :=
  (List.pairwise_cons.1 h).2

theorem Ascending.dropWhile (h : Ascending key l) (p : α → Bool) :
    Ascending key (l.dropWhile p) :=
  List.Pairwise.sublist (List.dropWhile_sublist p) h

theorem Ascending.takeWhile (h : Ascending key l) (p : α → Bool) :
    Ascending key (l.takeWhile p) :=
  List.Pairwise.sublist (List.takeWhile_sublist p) h

theorem Ascending.rdropWhile (h : Ascending key l) (p : α → Bool) :
    Ascending key (l.rdropWhile p) :=
  List.Pairwise.sublist (List.rdropWhile_prefix p l).sublist h

/-- Dropping at the front selects what lies above a bound. -/
theorem mem_dropWhile (h : Ascending key l) :
    x ∈ l.dropWhile (key · ≤ a) ↔ x ∈ l ∧ a < key x := by
  induction l with
  | nil => simp
  | cons y l ih =>
    rw [List.dropWhile_cons]
    by_cases hy : key y ≤ a
    · rw [if_pos (by simpa using hy), ih h.tail, List.mem_cons]
      refine ⟨fun hx ↦ ⟨.inr hx.1, hx.2⟩, fun hx ↦ ⟨hx.1.resolve_left ?_, hx.2⟩⟩
      rintro rfl
      exact hx.2.not_ge hy
    · rw [if_neg (by simpa using hy)]
      refine ⟨fun hx ↦ ⟨hx, ?_⟩, fun hx ↦ hx.1⟩
      rcases List.mem_cons.1 hx with rfl | hx
      · exact not_le.1 hy
      · exact (not_le.1 hy).trans (h.lt_of_mem hx)

/-- Taking from the front selects what lies up to a bound. -/
theorem mem_takeWhile (h : Ascending key l) :
    x ∈ l.takeWhile (key · ≤ a) ↔ x ∈ l ∧ key x ≤ a := by
  induction l with
  | nil => simp
  | cons y l ih =>
    rw [List.takeWhile_cons]
    by_cases hy : key y ≤ a
    · rw [if_pos (by simpa using hy), List.mem_cons, ih h.tail, List.mem_cons]
      constructor
      · rintro (rfl | hx)
        · exact ⟨.inl rfl, hy⟩
        · exact ⟨.inr hx.1, hx.2⟩
      · rintro ⟨rfl | hx, hle⟩
        · exact .inl rfl
        · exact .inr ⟨hx, hle⟩
    · rw [if_neg (by simpa using hy)]
      refine ⟨fun hx ↦ (List.not_mem_nil hx).elim, fun ⟨hx, hle⟩ ↦ ?_⟩
      rcases List.mem_cons.1 hx with rfl | hx
      · exact (hy hle).elim
      · exact (hy ((h.lt_of_mem hx).le.trans hle)).elim

/-- Dropping at the back selects what lies up to a bound. -/
theorem mem_rdropWhile (h : Ascending key l) :
    x ∈ l.rdropWhile (a < key ·) ↔ x ∈ l ∧ key x ≤ a := by
  induction l using List.reverseRecOn with
  | nil => simp
  | append_singleton l y ih =>
    have hlt (z : α) (hz : z ∈ l) : key z < key y :=
      (List.pairwise_append.1 h).2.2 z hz y List.mem_cons_self
    by_cases hy : a < key y
    · rw [List.rdropWhile_concat_pos _ _ _ (by simpa using hy), ih (List.pairwise_append.1 h).1,
        List.mem_append, List.mem_singleton]
      refine ⟨fun hx ↦ ⟨.inl hx.1, hx.2⟩, fun hx ↦ ⟨hx.1.resolve_right ?_, hx.2⟩⟩
      rintro rfl
      exact hx.2.not_gt hy
    · rw [List.rdropWhile_concat_neg _ _ _ (by simpa using hy)]
      refine ⟨fun hx ↦ ⟨hx, ?_⟩, fun hx ↦ hx.1⟩
      rcases List.mem_append.1 hx with hx | hx
      · exact (hlt x hx).le.trans (not_lt.1 hy)
      · rw [List.mem_singleton.1 hx]
        exact not_lt.1 hy

/-- The next entry behind a bound is the last one up to its own key. -/
theorem takeWhile_of_next {l₁ l₂ : List α} (h : Ascending key (l₁ ++ x :: l₂))
    (hle : ∀ y ∈ l₁, key y ≤ a) (hlt : a < key x) :
    (l₁ ++ x :: l₂).takeWhile (key · ≤ a) = l₁ ∧
      (l₁ ++ x :: l₂).takeWhile (key · ≤ key x) = l₁ ++ [x] := by
  have hall (b : κ) (hb : ∀ y ∈ l₁, key y ≤ b) : ∀ y ∈ l₁, decide (key y ≤ b) = true := by
    simpa using hb
  have hafter := (List.pairwise_append.1 h).2.1
  constructor
  · rw [List.takeWhile_append_of_pos (hall a hle), List.takeWhile_cons_of_neg (by simpa using hlt),
      List.append_nil]
  · rw [List.takeWhile_append_of_pos (hall _ fun y hy ↦ (hle y hy).trans hlt.le),
      List.takeWhile_cons_of_pos (by simp)]
    cases l₂ with
    | nil => rfl
    | cons z l₂ =>
      rw [List.takeWhile_cons_of_neg]
      simpa using (List.pairwise_cons.1 hafter).1 z List.mem_cons_self

/-! ### Entries in another form -/

variable {β : Type*} {f : α → β} {p : β → Bool} {q : α → Bool}

/-- A condition on the other form that is a condition on the entries. -/
theorem dropWhile_map_eq (h : ∀ x ∈ l, p (f x) = q x) :
    (l.map f).dropWhile p = (l.dropWhile q).map f := by
  induction l with
  | nil => rfl
  | cons x l ih =>
    rw [List.forall_mem_cons] at h
    rw [List.map_cons, List.dropWhile_cons, List.dropWhile_cons, h.1, ih h.2]
    split <;> rfl

theorem takeWhile_map_eq (h : ∀ x ∈ l, p (f x) = q x) :
    (l.map f).takeWhile p = (l.takeWhile q).map f := by
  induction l with
  | nil => rfl
  | cons x l ih =>
    rw [List.forall_mem_cons] at h
    rw [List.map_cons, List.takeWhile_cons, List.takeWhile_cons, h.1, ih h.2]
    split <;> rfl

theorem rdropWhile_map_eq (h : ∀ x ∈ l, p (f x) = q x) :
    (l.map f).rdropWhile p = (l.rdropWhile q).map f := by
  rw [List.rdropWhile, List.rdropWhile, ← List.map_reverse,
    dropWhile_map_eq fun x hx ↦ h x (List.mem_reverse.1 hx), List.map_reverse]

/-! ### Merging -/

variable {done rest zs : List α}

/-- Merging `zs` into a list of which the entries in `done` have been passed. An entry whose key is
in the list already is left out. -/
def mergeInto (key : α → κ) (done rest : List α) : List α → List α
  | [] => done ++ rest
  | z :: zs =>
    let before := rest.takeWhile (key · < key z)
    let after := rest.dropWhile (key · < key z)
    if after.head?.map key = some (key z) then mergeInto key (done ++ before) after zs
    else mergeInto key (done ++ before) (z :: after) zs

/-- Entries with equal keys are equal. -/
def Consistent (key : α → κ) (l l' : List α) : Prop :=
  ∀ x ∈ l, ∀ y ∈ l', key x = key y → x = y

theorem forall_lt_takeWhile (l : List α) (a : κ) : ∀ y ∈ l.takeWhile (key · < a), key y < a :=
  fun _ hy ↦ by simpa using List.mem_takeWhile_imp hy

theorem le_of_mem_dropWhile_lt (h : Ascending key l) {y : α} (hy : y ∈ l.dropWhile (key · < a)) :
    a ≤ key y := by
  induction l with
  | nil => cases hy
  | cons z l ih =>
    rw [List.dropWhile_cons] at hy
    split at hy
    · exact ih h.tail hy
    · rename_i hz
      have hle : a ≤ key z := not_lt.1 (by simpa using hz)
      rcases List.mem_cons.1 hy with rfl | hy
      · exact hle
      · exact hle.trans (h.lt_of_mem hy).le

/-- One round: the entry is in the list behind the passed ones, or it is put there. -/
theorem mergeInto_round {z : α} (h : Ascending key (done ++ rest))
    (hdone : ∀ y ∈ done, key y < key z) :
    let before := rest.takeWhile (key · < key z)
    let after := rest.dropWhile (key · < key z)
    done ++ rest = done ++ before ++ after ∧ (∀ y ∈ done ++ before, key y < key z) ∧
      (after.head?.map key ≠ some (key z) → Ascending key (done ++ before ++ z :: after)) := by
  intro before after
  have hsplit : done ++ rest = done ++ before ++ after := by
    rw [List.append_assoc, List.takeWhile_append_dropWhile]
  have hbefore : ∀ y ∈ done ++ before, key y < key z := by
    intro y hy
    rcases List.mem_append.1 hy with hy | hy
    · exact hdone y hy
    · exact forall_lt_takeWhile rest _ y hy
  refine ⟨hsplit, hbefore, fun hne ↦ ?_⟩
  rw [hsplit] at h
  obtain ⟨hb, ha, hba⟩ := List.pairwise_append.1 h
  have hrest : Ascending key rest := (List.pairwise_append.1 (hsplit ▸ h)).2.1
  have hafter : ∀ y ∈ after, key z < key y := by
    intro y hy
    refine lt_of_le_of_ne (le_of_mem_dropWhile_lt hrest hy) fun heq ↦ ?_
    -- an entry with the key of `z` could only be the first one
    cases hlist : after with
    | nil => rw [hlist] at hy; cases hy
    | cons w after' =>
      rw [hlist] at hy ha hne
      have hw : key z ≤ key w :=
        le_of_mem_dropWhile_lt hrest (hlist ▸ List.mem_cons_self : w ∈ after)
      rcases List.mem_cons.1 hy with rfl | hy
      · exact hne (by simp [heq])
      · exact absurd heq (hw.trans_lt ((List.pairwise_cons.1 ha).1 y hy)).ne
  refine List.pairwise_append.2 ⟨hb, List.pairwise_cons.2 ⟨hafter, ha⟩, fun x hx y hy ↦ ?_⟩
  rcases List.mem_cons.1 hy with rfl | hy
  · exact hbefore x hx
  · exact hba x hx y hy

/-- **Merging keeps the keys ascending.** -/
theorem ascending_mergeInto (h : Ascending key (done ++ rest)) (hz : Ascending key zs)
    (hdone : ∀ y ∈ done, ∀ z ∈ zs, key y < key z) : Ascending key (mergeInto key done rest zs) := by
  induction zs generalizing done rest with
  | nil => exact h
  | cons z zs ih =>
    obtain ⟨hsplit, hbefore, hnew⟩ := mergeInto_round h fun y hy ↦ hdone y hy z List.mem_cons_self
    have hpassed : ∀ y ∈ done ++ rest.takeWhile (key · < key z), ∀ w ∈ zs, key y < key w :=
      fun y hy w hw ↦ (hbefore y hy).trans (hz.lt_of_mem hw)
    rw [mergeInto]
    split_ifs with heq
    · exact ih (hsplit ▸ h) hz.tail hpassed
    · exact ih (hnew heq) hz.tail hpassed

/-- **Merging keeps the entries of both lists and adds none.** -/
theorem mem_mergeInto (h : Ascending key (done ++ rest)) (hz : Ascending key zs)
    (hdone : ∀ y ∈ done, ∀ z ∈ zs, key y < key z) (hcons : Consistent key rest zs) :
    x ∈ mergeInto key done rest zs ↔ x ∈ done ++ rest ∨ x ∈ zs := by
  induction zs generalizing done rest with
  | nil => simp [mergeInto]
  | cons z zs ih =>
    obtain ⟨hsplit, hbefore, hnew⟩ := mergeInto_round h fun y hy ↦ hdone y hy z List.mem_cons_self
    have hpassed : ∀ y ∈ done ++ rest.takeWhile (key · < key z), ∀ w ∈ zs, key y < key w :=
      fun y hy w hw ↦ (hbefore y hy).trans (hz.lt_of_mem hw)
    have hcons' : Consistent key (rest.dropWhile (key · < key z)) zs := fun y hy w hw ↦
      hcons y (List.dropWhile_subset _ hy) w (List.mem_cons_of_mem _ hw)
    rw [mergeInto]
    split_ifs with heq
    · have hmem : z ∈ done ++ rest := by
        obtain ⟨w, hw, hkey⟩ := Option.map_eq_some_iff.1 heq
        have hw' : w ∈ rest.dropWhile (key · < key z) := List.mem_of_head? hw
        have hzw := hcons w (List.dropWhile_subset _ hw') z List.mem_cons_self hkey
        exact hzw ▸ List.mem_append_right _ (List.dropWhile_subset _ hw')
      rw [ih (hsplit ▸ h) hz.tail hpassed hcons', ← hsplit, List.mem_cons]
      constructor
      · rintro (hx | hx)
        · exact .inl hx
        · exact .inr (.inr hx)
      · rintro (hx | rfl | hx)
        · exact .inl hx
        · exact .inl hmem
        · exact .inr hx
    · have hcons'' : Consistent key (z :: rest.dropWhile (key · < key z)) zs := by
        intro y hy w hw hkey
        rcases List.mem_cons.1 hy with rfl | hy
        · exact absurd hkey (hz.lt_of_mem hw).ne
        · exact hcons' y hy w hw hkey
      rw [ih (hnew heq) hz.tail hpassed hcons'', hsplit]
      simp only [List.mem_append, List.mem_cons]
      tauto

/-! ### The entries a condition selects -/

/-- `xs` are the entries of `l` whose keys meet `P`, in ascending order. -/
structure Selects (key : α → κ) (l : List α) (P : κ → Prop) (xs : List α) : Prop where
  ascending : Ascending key xs
  mem_iff : ∀ x, x ∈ xs ↔ x ∈ l ∧ P (key x)

/-- An ascending list has one entry for each key. -/
theorem Ascending.eq_of_key_eq (h : Ascending key l) {y : α} (hx : x ∈ l) (hy : y ∈ l)
    (heq : key x = key y) : x = y := by
  induction l with
  | nil => cases hx
  | cons z l ih =>
    rcases List.mem_cons.1 hx with rfl | hx'
    · rcases List.mem_cons.1 hy with rfl | hy'
      · rfl
      · exact absurd heq (h.lt_of_mem hy').ne
    · rcases List.mem_cons.1 hy with rfl | hy'
      · exact absurd heq (h.lt_of_mem hx').ne'
      · exact ih h.tail hx' hy'

namespace Selects

variable {P Q : κ → Prop} {xs ys : List α}

theorem congr (h : Selects key l P xs) (hPQ : ∀ x ∈ l, P (key x) ↔ Q (key x)) :
    Selects key l Q xs where
  ascending := h.ascending
  mem_iff x := by
    rw [h.mem_iff]
    exact and_congr_right (hPQ x)

theorem nil (hP : ∀ x ∈ l, ¬ P (key x)) : Selects key l P [] where
  ascending := List.Pairwise.nil
  mem_iff x := ⟨fun hx ↦ (List.not_mem_nil hx).elim, fun hx ↦ (hP x hx.1 hx.2).elim⟩

theorem dropWhile (h : Selects key l P xs) (a : κ) :
    Selects key l (fun k ↦ P k ∧ a < k) (xs.dropWhile (key · ≤ a)) where
  ascending := h.ascending.dropWhile _
  mem_iff x := by rw [mem_dropWhile h.ascending, h.mem_iff, and_assoc]

theorem takeWhile (h : Selects key l P xs) (a : κ) :
    Selects key l (fun k ↦ P k ∧ k ≤ a) (xs.takeWhile (key · ≤ a)) where
  ascending := h.ascending.takeWhile _
  mem_iff x := by rw [mem_takeWhile h.ascending, h.mem_iff, and_assoc]

theorem rdropWhile (h : Selects key l P xs) (a : κ) :
    Selects key l (fun k ↦ P k ∧ k ≤ a) (xs.rdropWhile (a < key ·)) where
  ascending := h.ascending.rdropWhile _
  mem_iff x := by rw [mem_rdropWhile h.ascending, h.mem_iff, and_assoc]

theorem tail (h : Selects key l P (x :: xs)) :
    Selects key l (fun k ↦ P k ∧ key x < k) xs where
  ascending := h.ascending.tail
  mem_iff y := by
    constructor
    · intro hy
      have hmem := (h.mem_iff y).1 (List.mem_cons_of_mem x hy)
      exact ⟨hmem.1, hmem.2, h.ascending.lt_of_mem hy⟩
    · rintro ⟨hl, hP, hlt⟩
      rcases List.mem_cons.1 ((h.mem_iff y).2 ⟨hl, hP⟩) with rfl | hy
      · exact absurd hlt (lt_irrefl _)
      · exact hy

/-- Merging two selections. -/
theorem mergeInto (hl : Ascending key l) (hx : Selects key l P xs) (hy : Selects key l Q ys) :
    Selects key l (fun k ↦ P k ∨ Q k) (AscendingKeys.mergeInto key [] xs ys) where
  ascending := ascending_mergeInto hx.ascending hy.ascending (by simp)
  mem_iff x := by
    have hcons : Consistent key xs ys := fun x hx' y hy' ↦
      hl.eq_of_key_eq ((hx.mem_iff x).1 hx').1 ((hy.mem_iff y).1 hy').1
    rw [mem_mergeInto hx.ascending hy.ascending (by simp) hcons, List.nil_append, hx.mem_iff,
      hy.mem_iff, and_or_left]

/-- A new last entry that is selected. -/
theorem concat (h : Selects key l P xs) (hlt : ∀ y ∈ l, key y < key x) (hP : P (key x)) :
    Selects key (l ++ [x]) P (xs ++ [x]) where
  ascending := by
    refine List.pairwise_append.2 ⟨h.ascending, List.pairwise_singleton _ _, fun y hy z hz ↦ ?_⟩
    rw [List.mem_singleton.1 hz]
    exact hlt y ((h.mem_iff y).1 hy).1
  mem_iff y := by
    rw [List.mem_append, List.mem_append, h.mem_iff, List.mem_singleton, or_and_right]
    refine or_congr_right ⟨?_, And.left⟩
    rintro rfl
    exact ⟨rfl, hP⟩

/-- A new entry that is not selected. -/
theorem concat_of_not (h : Selects key l P xs) (hP : ¬ P (key x)) :
    Selects key (l ++ [x]) P xs where
  ascending := h.ascending
  mem_iff y := by
    rw [List.mem_append, h.mem_iff, List.mem_singleton, or_and_right]
    refine ⟨.inl, fun hy ↦ hy.resolve_right ?_⟩
    rintro ⟨rfl, hP'⟩
    exact hP hP'

end Selects

end AscendingKeys
