import Inet.TransportLayer.SCTPReceiveStream

/-!
# Reassembling the fragments of a message

A message is cut into fragments with consecutive TSNs, the B bit on the first and the E bit on the
last. `reassemble` is started at any one of them. If all of them are in the queue, the first becomes
the whole message and the others are gone; otherwise the queue stays as it is
(`Stored.exists_reassemble`).
-/

namespace Inet.SCTPDelivery

/-- A message in fragments. Each has data, all of it together has less than 2^32 bits, and none has
the last TSN of all. -/
structure Message where
  /-- The TSN of the first fragment. -/
  tsn : ℕ
  ssn : UInt16
  ordered : Bool
  fragments : List (List UInt8)
  fragments_ne_nil : fragments ≠ []
  ne_nil_of_mem : ∀ data ∈ fragments, data ≠ []
  tsn_lt : tsn + fragments.length < 2 ^ 32
  bits_lt : 8 * fragments.flatten.length < 2 ^ 32

namespace Message

open SCTPReceiveStream

variable {m : Message} {queue : SCTPQueue} {arrived : List ℕ} {i j n fuel t : ℕ}

/-- The number of fragments. -/
def size (m : Message) : ℕ :=
  m.fragments.length

/-- A chunk of the message, with its data. -/
def chunk (m : Message) (i : ℕ) (bbit ebit : Bool) (data : List UInt8) : SCTPDataVariables where
  tsn := UInt32.ofNat (m.tsn + i)
  ssn := m.ssn
  ordered := m.ordered
  bbit := bbit
  ebit := ebit
  len := UInt32.ofNat (8 * data.length)
  userData := ⟨data, UInt32.ofNat data.length, data.length⟩

/-- A fragment, as it is sent. -/
def fragment (m : Message) (i : ℕ) : SCTPDataVariables :=
  m.chunk i (i == 0) (i + 1 == m.size) (m.fragments.getD i [])

/-- The whole message in one chunk. -/
def whole (m : Message) : SCTPDataVariables :=
  m.chunk 0 true true m.fragments.flatten

/-- The first fragment with the data of the first `n`. -/
def joined (m : Message) (n : ℕ) : SCTPDataVariables :=
  m.chunk 0 true (m.size == 1) (m.fragments.take n).flatten

theorem size_pos (m : Message) : 0 < m.size :=
  List.length_pos_of_ne_nil m.fragments_ne_nil

theorem toNat_tsn (hi : i ≤ m.size) : (UInt32.ofNat (m.tsn + i)).toNat = m.tsn + i :=
  UInt32.toNat_ofNat_of_lt' (lt_of_le_of_lt (Nat.add_le_add_left hi _) m.tsn_lt)

theorem flatten_take_succ (fragments : List (List UInt8)) (n : ℕ) :
    (fragments.take (n + 1)).flatten = (fragments.take n).flatten ++ fragments.getD n [] := by
  rw [List.take_add_one, List.flatten_append, List.getD_eq_getElem?_getD]
  cases fragments[n]? <;> simp

theorem fragment_zero (m : Message) : m.fragment 0 = m.joined 1 := by
  rw [fragment, joined, flatten_take_succ, List.take_zero, List.flatten_nil, List.nil_append]
  have hsize : (0 + 1 == m.size) = (m.size == 1) := by
    rw [Nat.zero_add, Bool.beq_comm]
  rw [hsize]
  rfl

/-- With the E bit, the joined data of all fragments make the whole message. -/
theorem ebit_joined (m : Message) : { m.joined m.size with ebit := true } = m.whole := by
  rw [joined, size, List.take_length]
  rfl

/-- A message in one fragment is sent whole. -/
theorem fragment_eq_whole (h : m.size = 1) : m.fragment 0 = m.whole := by
  rw [← ebit_joined, fragment_zero, h, joined, h]
  rfl

/-! ### Adding a fragment -/

theorem copyData_eq (data src : List UInt8) (h : i ≤ src.length) :
    copyData (data ++ List.replicate src.length 0) src data.length i =
      some (data ++ (src.take i ++ List.replicate (src.length - i) 0)) := by
  induction i with
  | zero => rfl
  | succ i ih =>
    have hlt : i < src.length := h
    have hrest : src.length - i = src.length - (i + 1) + 1 := by omega
    have htake : (src.take i).length = i := List.length_take_of_le hlt.le
    rw [copyData, ih hlt.le, Option.bind_eq_bind, Option.bind_some, List.getElem?_eq_getElem hlt,
      Option.bind_eq_bind, Option.bind_some, if_pos (by simp; omega)]
    rw [List.set_append_right _ _ (by omega), Nat.add_sub_cancel,
      List.set_append_right _ _ (by omega), htake, Nat.sub_self, hrest, List.replicate_succ,
      List.set_cons_zero, List.take_add_one, List.getElem?_eq_getElem hlt, List.append_assoc]
    rfl

theorem toNat_len_div (m : Message) {bbit ebit : Bool} {data : List UInt8}
    (h : 8 * data.length < 2 ^ 32) :
    ((m.chunk i bbit ebit data).len / 8).toNat = data.length := by
  rw [UInt32.toNat_div]
  show (UInt32.ofNat (8 * data.length)).toNat / 8 = data.length
  rw [UInt32.toNat_ofNat_of_lt' h]
  omega

/-- The data of some fragments are no longer than all of it. -/
theorem length_joined_add_le (m : Message) (n : ℕ) :
    (m.fragments.take n).flatten.length + (m.fragments.getD n []).length ≤
      m.fragments.flatten.length := by
  rw [← List.length_append, ← flatten_take_succ]
  conv_rhs => rw [← List.take_append_drop (n + 1) m.fragments, List.flatten_append]
  rw [List.length_append]
  omega

theorem getD_length_pos (hn : n < m.size) : 0 < (m.fragments.getD n []).length := by
  rw [List.getD_eq_getElem?_getD, List.getElem?_eq_getElem hn, Option.getD_some]
  exact List.length_pos_of_ne_nil (m.ne_nil_of_mem _ (List.getElem_mem hn))

/-- **One more fragment.** Its data is appended. -/
theorem addFragment_joined (hpos : 0 < n) (hn : n < m.size) :
    (m.joined n).addFragment (m.fragment n) = some (m.joined (n + 1)) := by
  have hle := m.length_joined_add_le n
  have hbits := m.bits_lt
  have hsrc := getD_length_pos hn
  have hfirst : 0 < (m.fragments.take n).flatten.length := by
    obtain ⟨k, rfl⟩ := Nat.exists_eq_add_one.2 hpos
    have hlast := getD_length_pos (Nat.lt_of_succ_lt hn)
    rw [flatten_take_succ, List.length_append]
    omega
  rw [SCTPDataVariables.addFragment]
  show (if 0 < (m.fragments.take n).flatten.length ∧ 0 < (m.fragments.getD n []).length then _
    else _) = _
  rw [if_pos ⟨hfirst, hsrc⟩]
  rw [joined, fragment, toNat_len_div m (by omega), toNat_len_div m (by omega)]
  show (copyData ((m.fragments.take n).flatten ++
      List.replicate (m.fragments.getD n []).length 0) (m.fragments.getD n [])
      (m.fragments.take n).flatten.length (m.fragments.getD n []).length).bind _ = _
  rw [copyData_eq _ _ le_rfl, Option.bind_some, Nat.sub_self, List.replicate_zero,
    List.append_nil, List.take_length, joined, flatten_take_succ, chunk, chunk, chunk]
  simp only [List.length_append, Nat.mul_add, UInt32.ofNat_add]

/-! ### The fragments that have arrived -/

/-- The TSN is one of the message. -/
def Covers (m : Message) (t : ℕ) : Prop :=
  m.tsn ≤ t ∧ t < m.tsn + m.size

/-- All fragments have arrived. -/
def Complete (m : Message) (arrived : List ℕ) : Prop :=
  ∀ i < m.size, m.tsn + i ∈ arrived

instance (m : Message) (arrived : List ℕ) : Decidable (m.Complete arrived) :=
  inferInstanceAs (Decidable (∀ i < m.size, _))

/-- The fragments that have arrived are in the queue. -/
def Stored (m : Message) (queue : SCTPQueue) (arrived : List ℕ) : Prop :=
  ∀ i < m.size, queue.find (m.tsn + i) = if m.tsn + i ∈ arrived then some (m.fragment i) else none

/-- What is in the queue at the TSNs of the message, after `reassemble`. -/
def waiting (m : Message) (arrived : List ℕ) (i : ℕ) : Option SCTPDataVariables :=
  if m.Complete arrived then if i = 0 then some m.whole else none
  else if m.tsn + i ∈ arrived then some (m.fragment i) else none

theorem covers_add (hi : i < m.size) : m.Covers (m.tsn + i) :=
  ⟨Nat.le_add_right _ _, Nat.add_lt_add_left hi _⟩

theorem Covers.exists_add (h : m.Covers t) : ∃ i < m.size, t = m.tsn + i := by
  obtain ⟨i, rfl⟩ := Nat.exists_eq_add_of_le h.1
  exact ⟨i, Nat.lt_of_add_lt_add_left h.2, rfl⟩

theorem covers_tsn (m : Message) : m.Covers m.tsn :=
  covers_add m.size_pos

theorem find_insert_of_not_covers (ht : ¬m.Covers t) (hi : i < m.size) (queue : SCTPQueue)
    (chunk : SCTPDataVariables) : (queue.insert (m.tsn + i) chunk).find t = queue.find t := by
  rw [OrderedMap.find_insert, if_neg fun heq : t = _ ↦ ht (heq ▸ covers_add hi)]

theorem Stored.insert (h : m.Stored queue arrived) (i : ℕ) :
    m.Stored (queue.insert (m.tsn + i) (m.fragment i)) ((m.tsn + i) :: arrived) := by
  intro l hl
  rw [OrderedMap.find_insert]
  obtain rfl | hne := eq_or_ne l i
  · rw [if_pos rfl, if_pos List.mem_cons_self]
  · have hne' : m.tsn + l ≠ m.tsn + i := mt Nat.add_left_cancel hne
    simp only [hne', h l hl, List.mem_cons, false_or, if_false]

/-! ### The loops -/

theorem getChunk_eq (queue : SCTPQueue) (hi : i ≤ m.size) :
    queue.getChunk (UInt32.ofNat (m.tsn + i)) = queue.find (m.tsn + i) := by
  rw [SCTPQueue.getChunk, toNat_tsn hi]

theorem tsn_succ (m : Message) (i : ℕ) :
    UInt32.ofNat (m.tsn + (i + 1)) = UInt32.ofNat (m.tsn + i) + 1 := by
  rw [← Nat.add_assoc, UInt32.ofNat_add (m.tsn + i)]
  rfl

theorem exists_firstFragment (h : m.Stored queue arrived) (hi : i < m.size) (hfuel : i < fuel) :
    ∃ j ≤ i, firstFragment queue fuel (UInt32.ofNat (m.tsn + i)) =
      some (UInt32.ofNat (m.tsn + j)) ∧ (m.tsn + j ∉ arrived ∨ j = 0) := by
  induction i generalizing fuel with
  | zero =>
    obtain ⟨fuel, rfl⟩ := Nat.exists_eq_add_of_lt hfuel
    refine ⟨0, le_rfl, ?_, .inr rfl⟩
    rw [Nat.zero_add, firstFragment, getChunk_eq queue hi.le, h 0 hi]
    split_ifs <;> rfl
  | succ i ih =>
    obtain ⟨fuel, rfl⟩ : ∃ fuel', fuel = fuel' + 1 := ⟨fuel - 1, by omega⟩
    rw [firstFragment, getChunk_eq queue hi.le, h (i + 1) hi]
    split_ifs with hmem
    · obtain ⟨j, hj, heq, hend⟩ := ih (Nat.lt_of_succ_lt hi) (Nat.lt_of_succ_lt_succ hfuel)
      refine ⟨j, Nat.le_succ_of_le hj, ?_, hend⟩
      rw [← heq, ← UInt32.add_sub_cancel (UInt32.ofNat (m.tsn + i)) 1, ← m.tsn_succ]
      rfl
    · exact ⟨i + 1, le_rfl, rfl, .inl hmem⟩

theorem exists_lastFragment (h : m.Stored queue arrived) (hi : i < m.size)
    (hfuel : m.size - i ≤ fuel) :
    ∃ j, i ≤ j ∧ j < m.size ∧
      lastFragment queue fuel (UInt32.ofNat (m.tsn + i)) = some (UInt32.ofNat (m.tsn + j)) ∧
      (m.tsn + j ∉ arrived ∨ j + 1 = m.size ∧ ∀ l, i ≤ l → l ≤ j → m.tsn + l ∈ arrived) := by
  induction fuel generalizing i with
  | zero => omega
  | succ fuel ih =>
    rw [lastFragment, getChunk_eq queue hi.le, h i hi]
    split_ifs with hmem
    · show ∃ j, _ ∧ _ ∧ (if (i + 1 == m.size) = true then _ else _) = _ ∧ _
      by_cases hlast : i + 1 = m.size
      · refine ⟨i, le_rfl, hi, if_pos (beq_iff_eq.2 hlast), .inr ⟨hlast, fun l hil hli ↦ ?_⟩⟩
        rwa [Nat.le_antisymm hli hil]
      · obtain ⟨j, hij, hj, heq, hend⟩ := ih (i := i + 1) (by omega) (by omega)
        refine ⟨j, Nat.le_of_succ_le hij, hj, ?_, hend.imp_right fun hall ↦
          ⟨hall.1, fun l hil hlj ↦ ?_⟩⟩
        · rw [if_neg (mt beq_iff_eq.1 hlast), ← heq, m.tsn_succ]
        · obtain rfl | hne := eq_or_ne l i
          exacts [hmem, hall.2 l (by omega) hlj]
    · exact ⟨i, le_rfl, hi, rfl, .inl hmem⟩

theorem ofNat_tsn_le (hi : i ≤ m.size) (hj : j ≤ m.size) :
    UInt32.ofNat (m.tsn + i) ≤ UInt32.ofNat (m.tsn + j) ↔ i ≤ j := by
  rw [UInt32.le_iff_toNat_le, toNat_tsn hi, toNat_tsn hj, Nat.add_le_add_iff_left]

theorem exists_addFragments {k : ℕ} (hsize : n + k + 1 = m.size)
    (hqueue : ∀ l, n < l → l < m.size → queue.find (m.tsn + l) = some (m.fragment l))
    (hfuel : k < fuel) :
    ∃ queue', addFragments fuel (UInt32.ofNat (m.tsn + n)) (UInt32.ofNat (m.tsn + (n + k)))
        (m.joined (n + 1)) queue = some (m.joined m.size, queue') ∧
      ∀ t, queue'.find t =
        if m.tsn + n < t ∧ t < m.tsn + m.size then none else queue.find t := by
  induction k generalizing n queue fuel with
  | zero =>
    obtain ⟨fuel, rfl⟩ := Nat.exists_eq_add_of_lt hfuel
    refine ⟨queue, ?_, fun t ↦ (if_neg (by omega)).symm⟩
    rw [addFragments, ← m.tsn_succ,
      if_neg (mt (ofNat_tsn_le (by omega) (by omega)).1 (by omega)), ← hsize]
  | succ k ih =>
    obtain ⟨fuel, rfl⟩ : ∃ fuel', fuel = fuel' + 1 := ⟨fuel - 1, by omega⟩
    have hextract : queue.getAndExtractChunk (UInt32.ofNat (m.tsn + (n + 1))) =
        some (m.fragment (n + 1), queue.erase (m.tsn + (n + 1))) := by
      rw [SCTPQueue.getAndExtractChunk, getChunk_eq queue (by omega),
        hqueue (n + 1) (by omega) (by omega), Option.map_some, toNat_tsn (by omega)]
    have hrest (l : ℕ) (hnl : n + 1 < l) (hl : l < m.size) :
        (queue.erase (m.tsn + (n + 1))).find (m.tsn + l) = some (m.fragment l) := by
      rw [OrderedMap.find_erase, if_neg (by omega), hqueue l (by omega) hl]
    obtain ⟨queue', heq, hfind⟩ := ih (by omega) hrest (show k < fuel by omega)
    refine ⟨queue', ?_, fun t ↦ ?_⟩
    · rw [addFragments, ← m.tsn_succ,
        if_pos ((ofNat_tsn_le (by omega) (by omega)).2 (by omega)), hextract]
      show ((m.joined (n + 1)).addFragment (m.fragment (n + 1))).bind _ = _
      rw [addFragment_joined n.succ_pos (by omega), Option.bind_some, ← heq, Nat.add_right_comm,
        Nat.add_assoc]
    · rw [hfind, OrderedMap.find_erase]
      split_ifs <;> first | rfl | omega

/-! ### Reassembly -/

theorem size_lt_turns (m : Message) : m.size < turns :=
  lt_of_le_of_lt (Nat.le_add_left _ _) m.tsn_lt

/-- Not all fragments are there. -/
theorem Stored.reassemble_of_missing (h : m.Stored queue arrived) (hi : i < m.size)
    (hmissing : ¬m.Complete arrived) :
    reassemble queue (UInt32.ofNat (m.tsn + i)) = some (UInt32.ofNat (m.tsn + i), queue) := by
  obtain ⟨j, hji, hfirst, hend⟩ := exists_firstFragment h hi (hi.trans m.size_lt_turns)
  have hj : j < m.size := lt_of_le_of_lt hji hi
  rw [reassemble, hfirst, Option.bind_eq_bind, Option.bind_some, getChunk_eq queue hj.le, h j hj]
  split_ifs with hmem
  · obtain rfl := hend.resolve_left (not_not.2 hmem)
    obtain ⟨e, -, he, hlast, hend⟩ := exists_lastFragment h m.size_pos m.size_lt_turns.le
    show (lastFragment queue turns (UInt32.ofNat (m.tsn + 0))).bind _ = _
    rw [hlast, Option.bind_some, getChunk_eq queue he.le, h e he, if_neg (hend.resolve_right
      fun hall ↦ hmissing fun l hl ↦ hall.2 l l.zero_le (by omega))]
  · rfl

/-- All fragments are there. -/
theorem Stored.reassemble_of_complete (h : m.Stored queue arrived) (hi : i < m.size)
    (hall : m.Complete arrived) :
    ∃ queue', reassemble queue (UInt32.ofNat (m.tsn + i)) = some (UInt32.ofNat m.tsn, queue') ∧
      ∀ t, queue'.find t = if t = m.tsn then some m.whole
        else if m.tsn < t ∧ t < m.tsn + m.size then none else queue.find t := by
  have hfind (j : ℕ) (hj : j < m.size) : queue.find (m.tsn + j) = some (m.fragment j) :=
    (h j hj).trans (if_pos (hall j hj))
  obtain ⟨j, hji, hfirst, hend⟩ := exists_firstFragment h hi (hi.trans m.size_lt_turns)
  obtain rfl := hend.resolve_left (not_not.2 (hall j (lt_of_le_of_lt hji hi)))
  obtain ⟨e, -, he, hlast, hend⟩ := exists_lastFragment h m.size_pos m.size_lt_turns.le
  obtain ⟨hsize, -⟩ := hend.resolve_left (not_not.2 (hall e he))
  obtain ⟨queue', hadd, hfind'⟩ := exists_addFragments (n := 0) (k := e) (by omega)
    (fun l _ hl ↦ hfind l hl) (he.trans m.size_lt_turns)
  have htsn : (UInt32.ofNat (m.tsn + 0)).toNat = m.tsn := toNat_tsn m.size.zero_le
  refine ⟨queue'.insert m.tsn m.whole, ?_, fun t ↦ ?_⟩
  · rw [reassemble, hfirst, Option.bind_eq_bind, Option.bind_some,
      getChunk_eq queue m.size.zero_le, hfind 0 m.size_pos]
    show (lastFragment queue turns (UInt32.ofNat (m.tsn + 0))).bind _ = _
    rw [hlast, Option.bind_some, getChunk_eq queue he.le, hfind e he]
    show (addFragments _ _ _ (m.fragment 0) queue).bind _ = _
    rw [Nat.zero_add] at hadd
    rw [fragment_zero, hadd, Option.bind_some]
    show some (UInt32.ofNat m.tsn, queue'.insert (UInt32.ofNat (m.tsn + 0)).toNat
      { m.joined m.size with ebit := true }) = _
    rw [ebit_joined, htsn]
  · rw [OrderedMap.find_insert, hfind', Nat.add_zero]

/-- **What `reassemble` does.** With all fragments there the message is whole, and otherwise the
queue stays. -/
theorem Stored.exists_reassemble (h : m.Stored queue arrived) (hi : i < m.size) :
    ∃ queue', reassemble queue (UInt32.ofNat (m.tsn + i)) =
        some (UInt32.ofNat (if m.Complete arrived then m.tsn else m.tsn + i), queue') ∧
      (∀ t, ¬m.Covers t → queue'.find t = queue.find t) ∧
      ∀ l < m.size, queue'.find (m.tsn + l) = m.waiting arrived l := by
  by_cases hall : m.Complete arrived
  · obtain ⟨queue', heq, hfind⟩ := h.reassemble_of_complete hi hall
    refine ⟨queue', by rw [heq, if_pos hall], fun t ht ↦ ?_, fun l hl ↦ ?_⟩
    · rw [hfind, if_neg fun heq : t = _ ↦ ht (heq ▸ m.covers_tsn),
        if_neg fun hlt ↦ ht ⟨hlt.1.le, hlt.2⟩]
    · rw [hfind, waiting, if_pos hall]
      split_ifs <;> first | rfl | omega
  · refine ⟨queue, by rw [h.reassemble_of_missing hi hall, if_neg hall], fun _ _ ↦ rfl,
      fun l hl ↦ ?_⟩
    rw [h l hl, waiting, if_neg hall]

end Message

end Inet.SCTPDelivery
