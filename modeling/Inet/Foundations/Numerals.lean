import Mathlib.Data.Nat.Digits.Lemmas

/-!
# Numerals in a text

A text is a list of characters. Digits denote a number (`value`), and every number has a numeral
without leading zeros that denotes it (`value_numeral`). What a scanner reads up to the first
character that is not a digit is found by `takeWhile_append` and `dropWhile_append`; fields with a
separator between them are put together by `join`.
-/

namespace Numerals

variable {α : Type*} {base : ℕ} {digit : α → ℕ} {s t : List α}

/-! ### Digits -/

/-- The number that digits denote, the first being the most significant. -/
def value (base : ℕ) (digit : α → ℕ) (s : List α) : ℕ :=
  s.foldl (fun n c ↦ base * n + digit c) 0

theorem foldl_eq (n : ℕ) :
    s.foldl (fun n c ↦ base * n + digit c) n = n * base ^ s.length + value base digit s := by
  induction s generalizing n with
  | nil => simp [value]
  | cons c s ih =>
    have hhead : value base digit (c :: s) = digit c * base ^ s.length + value base digit s := by
      rw [value, List.foldl_cons, Nat.mul_zero, Nat.zero_add, ih]
    rw [List.foldl_cons, ih, hhead, List.length_cons, pow_succ]
    ring

@[simp] theorem value_nil : value base digit [] = 0 :=
  rfl

theorem value_append : value base digit (s ++ t) =
    value base digit s * base ^ t.length + value base digit t := by
  rw [value, List.foldl_append]
  exact foldl_eq _

theorem value_concat (s : List α) (c : α) :
    value base digit (s ++ [c]) = base * value base digit s + digit c := by
  rw [value, List.foldl_append]
  rfl

theorem value_lt (h : ∀ c ∈ s, digit c < base) : value base digit s < base ^ s.length := by
  induction s using List.reverseRecOn with
  | nil => simp
  | append_singleton s c ih =>
    have hc : digit c < base := h c (by simp)
    have hs : value base digit s + 1 ≤ base ^ s.length := ih fun c' hc' ↦ h c' (by simp [hc'])
    rw [value_concat, List.length_append, List.length_singleton, pow_succ]
    calc base * value base digit s + digit c < base * (value base digit s + 1) := by
          rw [Nat.mul_add, Nat.mul_one]
          omega
      _ ≤ base * base ^ s.length := Nat.mul_le_mul_left _ hs
      _ = base ^ s.length * base := Nat.mul_comm _ _

/-- The digits in the middle of others are found by a division. -/
theorem value_div_mod {front back : List α} (hs : ∀ c ∈ s, digit c < base)
    (hback : ∀ c ∈ back, digit c < base) :
    value base digit (front ++ s ++ back) / base ^ back.length % base ^ s.length =
      value base digit s := by
  have hlt := value_lt hs
  have hlt' := value_lt hback
  rw [value_append, Nat.mul_comm, Nat.mul_add_div (Nat.zero_lt_of_lt hlt'),
    Nat.div_eq_of_lt hlt', Nat.add_zero, value_append, Nat.mul_comm, Nat.mul_add_mod,
    Nat.mod_eq_of_lt hlt]

/-! ### Numerals -/

/-- The numeral of a number, without leading zeros. -/
def numeral (base : ℕ) (char : ℕ → α) (n : ℕ) : List α :=
  if n = 0 then [char 0] else ((Nat.digits base n).map char).reverse

variable {char : ℕ → α} {n : ℕ}

theorem value_map_reverse (hchar : ∀ d < base, digit (char d) = d) {ds : List ℕ}
    (hds : ∀ d ∈ ds, d < base) :
    value base digit (ds.map char).reverse = Nat.ofDigits base ds := by
  induction ds with
  | nil => rfl
  | cons d ds ih =>
    obtain ⟨hd, hds⟩ := List.forall_mem_cons.1 hds
    rw [List.map_cons, List.reverse_cons, value_concat, ih hds, Nat.ofDigits_cons, hchar d hd]
    exact Nat.add_comm _ _

/-- **A numeral** denotes its number. -/
theorem value_numeral (digit : α → ℕ) (char : ℕ → α) (hbase : 1 < base)
    (hchar : ∀ d < base, digit (char d) = d) (n : ℕ) :
    value base digit (numeral base char n) = n := by
  rw [numeral]
  split_ifs with hzero
  · rw [hzero]
    show base * 0 + digit (char 0) = 0
    rw [hchar 0 (by omega), Nat.mul_zero]
  · rw [value_map_reverse hchar fun d hd ↦ Nat.digits_lt_base hbase hd, Nat.ofDigits_digits]

theorem numeral_ne_nil (n : ℕ) : numeral base char n ≠ [] := by
  rw [numeral]
  split_ifs with hzero
  · exact List.cons_ne_nil _ _
  · rw [Ne, List.reverse_eq_nil_iff, List.map_eq_nil_iff, Nat.digits_eq_nil_iff_eq_zero]
    exact hzero

theorem forall_mem_numeral {p : α → Prop} (hbase : 1 < base) (hp : ∀ d < base, p (char d)) :
    ∀ c ∈ numeral base char n, p c := by
  rw [numeral]
  split_ifs with hzero
  · exact List.forall_mem_singleton.2 (hp 0 (by omega))
  · intro c hc
    rw [List.mem_reverse, List.mem_map] at hc
    obtain ⟨d, hd, rfl⟩ := hc
    exact hp d (Nat.digits_lt_base hbase hd)

/-! ### Scanning -/

variable {p : α → Bool}

/-- What a scanner reads ends where the first character follows that it does not accept. -/
theorem takeWhile_append (hs : ∀ c ∈ s, p c = true) (ht : ∀ c, t.head? = some c → p c = false) :
    (s ++ t).takeWhile p = s := by
  rw [List.takeWhile_append_of_pos hs]
  cases t with
  | nil => simp
  | cons c t => rw [List.takeWhile_cons_of_neg (by simp [ht c rfl]), List.append_nil]

theorem dropWhile_append (hs : ∀ c ∈ s, p c = true) (ht : ∀ c, t.head? = some c → p c = false) :
    (s ++ t).dropWhile p = t := by
  rw [List.dropWhile_append_of_pos hs]
  cases t with
  | nil => rfl
  | cons c t => rw [List.dropWhile_cons_of_neg (by simp [ht c rfl])]

theorem head?_dropWhile_eq_false {c : α} (h : (s.dropWhile p).head? = some c) : p c = false := by
  have hnot := List.head?_dropWhile_not p s
  rw [h] at hnot
  simpa using hnot

/-! ### Fields -/

/-- Fields with a separator between them. -/
def join (sep : α) : List (List α) → List α
  | [] => []
  | [field] => field
  | field :: fields => field ++ sep :: join sep fields

variable {sep : α} {field : List α} {fields : List (List α)}

@[simp] theorem join_nil (sep : α) : join sep [] = [] :=
  rfl

@[simp] theorem join_singleton (sep : α) (field : List α) : join sep [field] = field :=
  rfl

theorem join_cons (h : fields ≠ []) : join sep (field :: fields) = field ++ sep :: join sep fields := by
  cases fields with
  | nil => exact absurd rfl h
  | cons field' fields => rfl

/-- Text behind the fields is text behind the last one. -/
theorem join_cons_append (h : fields ≠ []) (rest : List α) :
    join sep (field :: fields) ++ rest = field ++ sep :: (join sep fields ++ rest) := by
  rw [join_cons h, List.append_assoc, List.cons_append]

theorem forall_mem_join {q : α → Prop} (hsep : q sep) (hfields : ∀ field ∈ fields, ∀ c ∈ field, q c) :
    ∀ c ∈ join sep fields, q c := by
  induction fields with
  | nil => exact List.forall_mem_nil _
  | cons field fields ih =>
    obtain ⟨hfield, hfields⟩ := List.forall_mem_cons.1 hfields
    rcases eq_or_ne fields [] with rfl | hne
    · exact hfield
    · rw [join_cons hne]
      intro c hc
      rcases List.mem_append.1 hc with hc | hc
      · exact hfield c hc
      · rcases List.mem_cons.1 hc with rfl | hc
        · exact hsep
        · exact ih hfields c hc

/-- Fields without separators are found again. -/
theorem join_inj {fields' : List (List α)} (hlength : fields.length = fields'.length)
    (h : ∀ field ∈ fields, sep ∉ field) (h' : ∀ field ∈ fields', sep ∉ field)
    (hjoin : join sep fields = join sep fields') : fields = fields' := by
  classical
  induction fields generalizing fields' with
  | nil => exact (List.length_eq_zero_iff.1 hlength.symm).symm
  | cons field fields ih =>
    obtain ⟨field', fields', rfl⟩ := List.exists_cons_of_length_eq_add_one hlength.symm
    obtain ⟨hfield, hfields⟩ := List.forall_mem_cons.1 h
    obtain ⟨hfield', hfields'⟩ := List.forall_mem_cons.1 h'
    have hlength := Nat.succ.inj hlength
    rcases eq_or_ne fields [] with rfl | hne
    · obtain rfl := List.length_eq_zero_iff.1 hlength.symm
      exact congrArg (fun field ↦ [field]) hjoin
    · have hne' : fields' ≠ [] := by
        rintro rfl
        exact hne (List.length_eq_zero_iff.1 hlength)
      rw [join_cons hne, join_cons hne'] at hjoin
      have hinside {l : List α} (hl : sep ∉ l) : ∀ c ∈ l, (!decide (c = sep)) = true := by
        intro c hc
        simp only [Bool.not_eq_true', decide_eq_false_iff_not]
        rintro rfl
        exact hl hc
      have hstop {l : List α} : ∀ c, (sep :: l).head? = some c → (!decide (c = sep)) = false := by
        rintro c ⟨⟩
        simp
      have htake := congrArg (List.takeWhile fun c ↦ !decide (c = sep)) hjoin
      have hdrop := congrArg (List.dropWhile fun c ↦ !decide (c = sep)) hjoin
      rw [takeWhile_append (hinside hfield) hstop, takeWhile_append (hinside hfield') hstop] at htake
      rw [dropWhile_append (hinside hfield) hstop, dropWhile_append (hinside hfield') hstop] at hdrop
      rw [htake, ih hlength hfields hfields' (List.cons.inj hdrop).2]

/-! ### Two separators in a row -/

variable {x y : List α}

/-- A field that is not empty stands at the beginning, -/
theorem join_ne_cons (h : ∀ field ∈ fields, field ≠ [] ∧ sep ∉ field) : join sep fields ≠ sep :: y := by
  intro hjoin
  cases fields with
  | nil => cases hjoin
  | cons field fields =>
    obtain ⟨hne, hsep⟩ := h field List.mem_cons_self
    obtain ⟨c, field, rfl⟩ := List.exists_cons_of_ne_nil hne
    have hhead : c = sep := by
      rcases eq_or_ne fields [] with rfl | hfields
      · exact (List.cons.inj hjoin).1
      · rw [join_cons hfields] at hjoin
        exact (List.cons.inj hjoin).1
    exact hsep (by simp [hhead])

/-- and at the end. -/
theorem join_ne_concat (h : ∀ field ∈ fields, field ≠ [] ∧ sep ∉ field) :
    join sep fields ≠ x ++ [sep] := by
  induction fields generalizing x with
  | nil => simp
  | cons field fields ih =>
    obtain ⟨⟨hne, hsep⟩, h⟩ := List.forall_mem_cons.1 h
    rcases eq_or_ne fields [] with rfl | hfields
    · rintro rfl
      exact hsep (by simp)
    · intro hjoin
      rw [join_cons hfields] at hjoin
      have hnonempty : join sep fields ≠ [] := by
        obtain ⟨field', fields, rfl⟩ := List.exists_cons_of_ne_nil hfields
        obtain ⟨c, field', hfield'⟩ := List.exists_cons_of_ne_nil (h _ List.mem_cons_self).1
        rcases eq_or_ne fields [] with rfl | hfields
        · simp [hfield']
        · simp [join_cons hfields]
      obtain ⟨l, c, hl⟩ : ∃ l c, join sep fields = l ++ [c] :=
        ⟨_, _, (List.dropLast_append_getLast hnonempty).symm⟩
      rw [hl, ← List.cons_append, ← List.append_assoc] at hjoin
      obtain rfl : c = sep := by simpa using (List.append_inj' hjoin rfl).2
      exact ih h hl

/-- There are no two separators in a row between fields that are not empty. -/
theorem join_ne_append (h : ∀ field ∈ fields, field ≠ [] ∧ sep ∉ field) :
    join sep fields ≠ x ++ sep :: sep :: y := by
  induction fields generalizing x with
  | nil => simp
  | cons field fields ih =>
    obtain ⟨⟨-, hsep⟩, hrest⟩ := List.forall_mem_cons.1 h
    rcases eq_or_ne fields [] with rfl | hfields
    · rintro rfl
      exact hsep (by simp)
    · intro hjoin
      rw [join_cons hfields] at hjoin
      rcases List.append_eq_append_iff.1 hjoin with ⟨t, rfl, ht⟩ | ⟨t, rfl, ht⟩
      · cases t with
        | nil => exact join_ne_cons hrest (List.cons.inj ht).2
        | cons c t => exact ih hrest (List.cons.inj ht).2
      · cases t with
        | nil => exact join_ne_cons hrest (List.cons.inj ht).2.symm
        | cons c t => exact hsep (by simp [← (List.cons.inj ht).1])

/-- **Two separators in a row** are found where they have been put between joined fields. -/
theorem eq_of_join_append {fields' : List (List α)}
    (h : ∀ field ∈ fields, field ≠ [] ∧ sep ∉ field)
    (h' : ∀ field ∈ fields', field ≠ [] ∧ sep ∉ field)
    (heq : join sep fields ++ sep :: sep :: join sep fields' = x ++ sep :: sep :: y) :
    x = join sep fields := by
  rcases List.append_eq_append_iff.1 heq with ⟨t, rfl, ht⟩ | ⟨t, hjoin, ht⟩
  · match t, ht with
    | [], _ => exact List.append_nil _
    | [_], ht => exact absurd (List.cons.inj (List.cons.inj ht).2).2 (join_ne_cons h')
    | _ :: _ :: _, ht => exact absurd (List.cons.inj (List.cons.inj ht).2).2 (join_ne_append h')
  · match t, ht with
    | [], _ => rw [hjoin, List.append_nil]
    | [c], ht =>
      rw [← (List.cons.inj ht).1] at hjoin
      exact absurd hjoin (join_ne_concat h)
    | c :: c' :: _, ht =>
      rw [← (List.cons.inj ht).1, ← (List.cons.inj (List.cons.inj ht).2).1] at hjoin
      exact absurd hjoin (join_ne_append h)

end Numerals
