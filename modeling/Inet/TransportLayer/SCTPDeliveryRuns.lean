import Inet.TransportLayer.SCTPDelivery

/-!
# The invariant of a receive stream

`Delivers` says what is in the queues of a receive stream, and what has been taken from it, when the
first `j` ordered messages have been released. The arrival of a chunk keeps it, with more messages
released (`Delivers.arrive_ordered`, `Delivers.arrive_unordered`), and so does what the application
takes; so it holds whatever happens (`exists_delivers`).
-/

namespace Inet.SCTPDelivery

theorem filterMap_perm_cons {α β : Type*} {f g : α → Option β} {l : List α} {a : α} {b : β}
    (hl : l.Nodup) (ha : a ∈ l) (hf : f a = none) (hg : g a = some b)
    (hfg : ∀ x ∈ l, x ≠ a → g x = f x) : (l.filterMap g).Perm (b :: l.filterMap f) := by
  obtain ⟨l₁, l₂, rfl⟩ := List.append_of_mem ha
  have hnot : a ∉ l₁ ++ l₂ := (List.nodup_middle.1 hl).notMem
  have hrest (l' : List α) (hl' : ∀ x ∈ l', x ∈ l₁ ++ l₂) : l'.filterMap g = l'.filterMap f :=
    List.filterMap_congr fun x hx ↦ hfg x
      (List.mem_append.2 ((List.mem_append.1 (hl' x hx)).imp_right (List.mem_cons_of_mem a)))
      fun heq ↦ hnot (heq ▸ hl' x hx)
  rw [List.filterMap_append, List.filterMap_append, List.filterMap_cons_some hg,
    List.filterMap_cons_none hf, hrest l₁ fun x hx ↦ List.mem_append_left l₂ hx,
    hrest l₂ fun x hx ↦ List.mem_append_right l₁ hx]
  exact List.perm_middle

/-! ### What a queue has of several messages -/

/-- A queue has, for each of the messages, what the function says of it, and nothing else. -/
structure SCTPQueue.Holds (queue : SCTPQueue) (ms : List Message)
    (f : Message → ℕ → Option SCTPDataVariables) : Prop where
  find : ∀ m ∈ ms, ∀ i < m.size, queue.find (m.tsn + i) = f m i
  covers : ∀ t chunk, queue.find t = some chunk → ∃ m ∈ ms, m.Covers t

namespace SCTPQueue.Holds

variable {queue queue' : SCTPQueue} {ms : List Message} {m : Message} {c : Conversation}
  {f f' : Message → ℕ → Option SCTPDataVariables}

theorem congr (h : queue.Holds ms f) (hf : ∀ m ∈ ms, ∀ i < m.size, f' m i = f m i) :
    queue.Holds ms f' where
  find m hm i hi := (h.find m hm i hi).trans (hf m hm i hi).symm
  covers := h.covers

theorem empty (hf : ∀ m i, f m i = none) : SCTPQueue.Holds ∅ ms f where
  find m _ i _ := (hf m i).symm
  covers _ chunk h := absurd h (Option.some_ne_none chunk).symm

/-- Only what the queue has of one message has changed. -/
theorem update (h : queue.Holds ms f) (hms : ∀ m ∈ ms, m ∈ c.messages) (hm : m ∈ ms)
    (hothers : ∀ m' ∈ ms, m' ≠ m → ∀ i < m'.size, f' m' i = f m' i)
    (hsame : ∀ t, ¬m.Covers t → queue'.find t = queue.find t)
    (hown : ∀ i < m.size, queue'.find (m.tsn + i) = f' m i) : queue'.Holds ms f' where
  find m' hm' i hi := by
    obtain rfl | hne := eq_or_ne m' m
    · exact hown i hi
    · rw [hothers m' hm' hne i hi, ← h.find m' hm' i hi]
      exact hsame _ fun hcovers ↦
        hne (c.eq_of_covers (hms m' hm') (hms m hm) (Message.covers_add hi) hcovers)
  covers t chunk hfind := by
    by_cases ht : m.Covers t
    · exact ⟨m, hm, ht⟩
    · exact h.covers t chunk ((hsame t ht).symm.trans hfind)

end SCTPQueue.Holds

/-! ### The steps of the receive stream -/

namespace SCTPReceiveStream

variable {rStream : SCTPReceiveStream} {m : Message} {arrived : List ℕ} {i : ℕ}

theorem checkAndInsertChunk_eq {queue : SCTPQueue} {key : UInt32}
    (h : queue.find key.toNat = none) (chunk : SCTPDataVariables) :
    queue.checkAndInsertChunk key chunk = (true, queue.insert key.toNat chunk) := by
  rw [SCTPQueue.checkAndInsertChunk, SCTPQueue.getChunk, h]

theorem checkAndInsertChunk_whole {queue : SCTPQueue} (h : queue.find m.tsn = none) :
    queue.checkAndInsertChunk m.whole.tsn m.whole = (true, queue.insert m.tsn m.whole) := by
  rw [← m.toNat_tsn_whole] at h ⊢
  exact checkAndInsertChunk_eq h m.whole

/-- **A chunk in `orderedQ`.** The last one makes its message whole. -/
theorem exists_enqueueOrdered (hi : i < m.size) (hnew : m.tsn + i ∉ arrived)
    (h : m.Stored rStream.orderedQ arrived) :
    ∃ delivery orderedQ, (delivery = 1 ∨ delivery = 3) ∧
      rStream.enqueueOrdered (m.fragment i) =
        (match deliverExpected { rStream with orderedQ } with
        | some (true, rStream) => some (2, rStream)
        | some (false, rStream) => some (delivery, rStream)
        | none => some (delivery, { rStream with orderedQ })) ∧
      (∀ t, ¬m.Covers t → orderedQ.find t = rStream.orderedQ.find t) ∧
      ∀ l < m.size, orderedQ.find (m.tsn + l) = m.waiting ((m.tsn + i) :: arrived) l := by
  have htsn : (m.fragment i).tsn.toNat = m.tsn + i := Message.toNat_tsn hi.le
  have hnone : rStream.orderedQ.find (m.tsn + i) = none := (h i hi).trans (if_neg hnew)
  have hinsert := checkAndInsertChunk_eq (htsn.symm ▸ hnone) (m.fragment i)
  rw [htsn] at hinsert
  have hq₁ := h.insert i
  by_cases hone : m.size = 1
  · obtain rfl : i = 0 := by omega
    refine ⟨1, rStream.orderedQ.insert (m.tsn + 0) (m.fragment 0), .inl rfl, ?_,
      fun t ht ↦ Message.find_insert_of_not_covers ht hi _ _, fun l hl ↦ ?_⟩
    · have hbits : (!(m.fragment 0).bbit || !(m.fragment 0).ebit) = false := by
        rw [Message.fragment_eq_whole hone]
        rfl
      rw [enqueueOrdered, hinsert]
      simp only [hbits]
      rfl
    · have hcomplete : m.Complete ((m.tsn + 0) :: arrived) :=
        Message.complete_of_size_eq_one hone arrived
      obtain rfl : l = 0 := by omega
      rw [hq₁ 0 hl, if_pos (hcomplete 0 hl), Message.waiting, if_pos hcomplete, if_pos rfl,
        Message.fragment_eq_whole hone]
  · obtain ⟨queue', heq, hsame, hfind⟩ := hq₁.exists_reassemble hi
    refine ⟨3, queue', .inr rfl, ?_,
      fun t ht ↦ (hsame t ht).trans (Message.find_insert_of_not_covers ht hi _ _), hfind⟩
    have hbits : (!(m.fragment i).bbit || !(m.fragment i).ebit) = true := by
      show (!(i == 0) || !(i + 1 == m.size)) = true
      rw [← Bool.not_and, Bool.not_eq_true', Bool.and_eq_false_iff, beq_eq_false_iff_ne,
        beq_eq_false_iff_ne]
      omega
    rw [enqueueOrdered, hinsert]
    simp only [hbits]
    show ((reassemble _ (UInt32.ofNat (m.tsn + i))).map _).bind _ = _
    rw [heq]
    rfl

/-- A fragment of an unordered message: what `reassemble` returns is delivered if it has the B
bit. -/
theorem enqueueUnordered_eq {dchunk chunk : SCTPDataVariables} {t : UInt32} {queue : SCTPQueue}
    (hbits : (dchunk.bbit && dchunk.ebit) = false)
    (hnew : rStream.unorderedQ.find dchunk.tsn.toNat = none)
    (hreassemble : reassemble (rStream.unorderedQ.insert dchunk.tsn.toNat dchunk) dchunk.tsn =
      some (t, queue))
    (hchunk : queue.find t.toNat = some chunk)
    (hfree : chunk.bbit = true → rStream.deliveryQ.find t.toNat = none) :
    rStream.enqueueUnordered dchunk =
      if chunk.bbit then
        some (2, { rStream with
          deliveryQ := rStream.deliveryQ.insert t.toNat chunk
          unorderedQ := queue.erase t.toNat })
      else some (3, { rStream with unorderedQ := queue }) := by
  have hget : queue.getChunk t = some chunk := hchunk
  rw [enqueueUnordered, if_neg (by rw [hbits]; exact Bool.false_ne_true),
    checkAndInsertChunk_eq hnew]
  show (reassemble _ dchunk.tsn).bind _ = _
  rw [hreassemble, Option.bind_some]
  show (queue.getChunk t).bind _ = _
  rw [hget, Option.bind_some, Bool.and_self]
  cases hbbit : chunk.bbit with
  | false => rfl
  | true =>
    show (queue.getAndExtractChunk t).bind _ = _
    rw [SCTPQueue.getAndExtractChunk, hget, Option.map_some, Option.bind_some]
    simp only [checkAndInsertChunk_eq (hfree hbbit)]
    rfl

/-- **The first fragment of an unordered message** is delivered, as what `reassemble` has made of
it. -/
theorem exists_enqueueUnordered_first (hnew : m.tsn ∉ arrived)
    (h : m.Stored rStream.unorderedQ arrived) (hfree : rStream.deliveryQ.find m.tsn = none) :
    ∃ unorderedQ chunk,
      rStream.enqueueUnordered (m.fragment 0) = some (2, { rStream with
        deliveryQ := rStream.deliveryQ.insert m.tsn chunk
        unorderedQ }) ∧
      (∀ t, ¬m.Covers t → unorderedQ.find t = rStream.unorderedQ.find t) ∧
      m.outcome (m.tsn :: arrived) = some chunk ∧
      ∀ l < m.size, unorderedQ.find (m.tsn + l) = m.remaining (m.tsn :: arrived) l := by
  have htsn : (UInt32.ofNat (m.tsn + 0)).toNat = m.tsn := Message.toNat_tsn m.size.zero_le
  have hnone : rStream.unorderedQ.find m.tsn = none := (h 0 m.size_pos).trans (if_neg hnew)
  by_cases hone : m.size = 1
  · have hcomplete := Message.complete_of_size_eq_one hone arrived
    refine ⟨rStream.unorderedQ, m.whole, ?_, fun t _ ↦ rfl, ?_, fun l hl ↦ ?_⟩
    · rw [Message.fragment_eq_whole hone, enqueueUnordered]
      show some (if (rStream.deliveryQ.checkAndInsertChunk m.whole.tsn m.whole).1 = true then 2
        else 0, { rStream with
          deliveryQ := (rStream.deliveryQ.checkAndInsertChunk m.whole.tsn m.whole).2 }) = _
      rw [checkAndInsertChunk_whole hfree]
      rfl
    · rw [Message.outcome_cons_self, Message.waiting, if_pos hcomplete, if_pos rfl]
    · obtain rfl : l = 0 := by omega
      rw [Message.remaining_cons_self, if_pos rfl]
      exact hnone
  · have hbits : ((m.fragment 0).bbit && (m.fragment 0).ebit) = false := by
      rw [Bool.and_eq_false_iff]
      exact .inr (beq_eq_false_iff_ne.2 (Ne.symm hone))
    obtain ⟨queue, heq, hsame, hfind⟩ := (h.insert 0).exists_reassemble m.size_pos
    obtain ⟨chunk, hbbit, hchunk⟩ : ∃ chunk : SCTPDataVariables, chunk.bbit = true ∧
        m.waiting ((m.tsn + 0) :: arrived) 0 = some chunk := by
      rw [Message.waiting, if_pos rfl, if_pos List.mem_cons_self]
      split_ifs
      exacts [⟨_, rfl, rfl⟩, ⟨_, rfl, rfl⟩]
    have hget : queue.find m.tsn = some chunk := (hfind 0 m.size_pos).trans hchunk
    refine ⟨queue.erase m.tsn, chunk, ?_, fun t ht ↦ ?_, ?_, fun l hl ↦ ?_⟩
    · have hfirst : reassemble (rStream.unorderedQ.insert (m.fragment 0).tsn.toNat (m.fragment 0))
          (m.fragment 0).tsn = some (UInt32.ofNat (m.tsn + 0), queue) := by
        rw [show (m.fragment 0).tsn.toNat = m.tsn + 0 from htsn]
        exact heq.trans (by rw [Nat.add_zero, ite_self])
      rw [enqueueUnordered_eq hbits (htsn.symm ▸ hnone) hfirst (htsn.symm ▸ hget)
        fun _ ↦ htsn.symm ▸ hfree, if_pos hbbit, htsn]
    · rw [OrderedMap.find_erase, if_neg fun heq : t = _ ↦ ht (heq ▸ m.covers_tsn), hsame t ht,
        Message.find_insert_of_not_covers ht m.size_pos]
    · rw [Message.outcome_cons_self]
      exact hchunk
    · rw [OrderedMap.find_erase, hfind l hl, Message.remaining_cons_self]
      simp only [Nat.add_eq_left, Nat.add_zero]

/-- A later fragment of an unordered message whose first one is not in `unorderedQ`. -/
theorem enqueueUnordered_later (hi : i < m.size) (hpos : 0 < i) (hnew : m.tsn + i ∉ arrived)
    (hfirst : m.tsn ∉ arrived) (h : m.Stored rStream.unorderedQ arrived) :
    rStream.enqueueUnordered (m.fragment i) = some (3, { rStream with
      unorderedQ := rStream.unorderedQ.insert (m.tsn + i) (m.fragment i) }) := by
  have htsn : (m.fragment i).tsn.toNat = m.tsn + i := Message.toNat_tsn hi.le
  have hbbit : (m.fragment i).bbit = false := beq_eq_false_iff_ne.2 hpos.ne'
  have hmissing : ¬m.Complete ((m.tsn + i) :: arrived) := fun hcomplete ↦
    hfirst ((List.mem_cons.1 (hcomplete 0 m.size_pos)).resolve_left (by omega))
  have hnone : rStream.unorderedQ.find (m.tsn + i) = none := (h i hi).trans (if_neg hnew)
  have heq := (h.insert i).reassemble_of_missing hi hmissing
  have hchunk := (h.insert i i hi).trans (if_pos List.mem_cons_self)
  rw [← htsn] at hchunk heq ⊢
  rw [UInt32.ofNat_toNat] at heq
  rw [enqueueUnordered_eq (Bool.and_eq_false_iff.2 (.inl hbbit)) (htsn.symm ▸ hnone) heq hchunk
    fun htrue ↦ ?_, hbbit]
  · rfl
  · rw [hbbit] at htrue
    cases htrue

/-! ### Dequeuing a message -/

theorem find_of_dequeue {queue queue' : SCTPQueue} {ssn : UInt16} {chunk : SCTPDataVariables}
    (h : queue.dequeueChunkBySSN ssn = some (chunk, queue')) :
    ∃ t, queue.find t = some chunk ∧ chunk.ssn = ssn ∧ chunk.bbit = true ∧ chunk.ebit = true ∧
      queue' = queue.erase t := by
  obtain ⟨⟨t, chunk⟩, hfind, heq⟩ := Option.map_eq_some_iff.1 h
  obtain ⟨rfl, rfl⟩ := Prod.ext_iff.1 heq
  have hmessage := List.find?_some hfind
  simp only [Bool.and_eq_true, beq_iff_eq] at hmessage
  exact ⟨t, OrderedMap.mem_entries.1 (List.mem_of_find?_eq_some hfind), hmessage.1.1,
    hmessage.1.2, hmessage.2, rfl⟩

theorem not_find_of_dequeue {queue : SCTPQueue} {ssn : UInt16}
    (h : queue.dequeueChunkBySSN ssn = none) {t : ℕ} {chunk : SCTPDataVariables}
    (hfind : queue.find t = some chunk) (hssn : chunk.ssn = ssn) (hbbit : chunk.bbit = true) :
    chunk.ebit = false := by
  have hnone := List.find?_eq_none.1 (Option.map_eq_none_iff.1 h) (t, chunk)
    (OrderedMap.mem_entries.2 hfind)
  simpa [hssn, hbbit] using hnone

end SCTPReceiveStream

/-! ### The invariant -/

/-- **A receive stream from which the first `j` ordered messages have been released.** -/
structure Delivers (c : Conversation) (arrived : List ℕ) (j : ℕ) (rStream : SCTPReceiveStream)
    (taken : List SCTPDataVariables) : Prop where
  le : j ≤ c.ordered.length
  complete : ∀ m ∈ c.ordered.take j, m.Complete arrived
  window : ∀ k m, c.ordered[k]? = some m → m.Complete arrived → k < j + 65536
  expected : rStream.expectedStreamSeqNum = j % 65536
  orderedQ : rStream.orderedQ.Holds (c.ordered.drop j) fun m ↦ m.waiting arrived
  unorderedQ : rStream.unorderedQ.Holds c.unordered fun m ↦ m.remaining arrived
  keys : ∀ t chunk, rStream.deliveryQ.find t = some chunk → chunk.tsn.toNat = t
  ordered : (taken ++ rStream.deliveryQ.values).filter (fun chunk ↦ chunk.ordered) =
    (c.ordered.take j).map Message.whole
  unordered : ((taken ++ rStream.deliveryQ.values).filter fun chunk ↦ !chunk.ordered).Perm
    (c.unordered.filterMap fun m ↦ m.outcome arrived)

namespace Delivers

variable {c : Conversation} {arrived : List ℕ} {j : ℕ} {rStream : SCTPReceiveStream}
  {taken : List SCTPDataVariables} {m m' : Message}

theorem start (c : Conversation) : Delivers c [] 0 .start [] where
  le := Nat.zero_le _
  complete m hm := absurd hm List.not_mem_nil
  window k m _ hm := absurd hm m.not_complete_nil
  expected := rfl
  orderedQ := .empty fun m i ↦ by rw [Message.waiting, if_neg m.not_complete_nil]; rfl
  unorderedQ := .empty fun m i ↦ ite_self none
  keys t chunk h := absurd h (Option.some_ne_none chunk).symm
  ordered := rfl
  unordered := by
    have hnone : (c.unordered.filterMap fun m ↦ m.outcome []) = [] :=
      List.filterMap_eq_nil_iff.2 fun m _ ↦ if_neg List.not_mem_nil
    rw [hnone]
    exact .nil

/-- The application takes a message. -/
theorem take (h : Delivers c arrived j rStream taken) {chunk : SCTPDataVariables}
    {deliveryQ : SCTPQueue} (heq : rStream.deliveryQ.extractMessage = some (chunk, deliveryQ)) :
    Delivers c arrived j { rStream with deliveryQ } (taken ++ [chunk]) := by
  obtain ⟨e, hhead, heq⟩ := Option.map_eq_some_iff.1 heq
  obtain ⟨rest, hentries⟩ := List.head?_eq_some_iff.1 hhead
  obtain ⟨rfl, rfl⟩ := Prod.ext_iff.1 heq
  have hvalues : (taken ++ [e.2]) ++ (rStream.deliveryQ.erase e.1).values =
      taken ++ rStream.deliveryQ.values := by
    rw [OrderedMap.values, OrderedMap.values, OrderedMap.entries_erase_head hentries, hentries,
      List.append_assoc]
    rfl
  exact {
    h with
    keys := fun t chunk hfind ↦ by
      rw [OrderedMap.find_erase] at hfind
      split_ifs at hfind
      exact h.keys t chunk hfind
    ordered := hvalues ▸ h.ordered
    unordered := hvalues ▸ h.unordered }

/-! ### An ordered chunk -/

theorem mem_drop (h : Delivers c arrived j rStream taken) (hm : m ∈ c.ordered)
    (hnot : ¬m.Complete arrived) : m ∈ c.ordered.drop j := by
  rw [← List.take_append_drop j c.ordered, List.mem_append] at hm
  exact hm.resolve_left fun hmem ↦ hnot (h.complete m hmem)

theorem mem_messages_of_mem_drop (hm : m ∈ c.ordered.drop j) : m ∈ c.messages :=
  c.mem_messages_of_ordered (List.mem_of_mem_drop hm)

theorem stored (h : Delivers c arrived j rStream taken) (hm : m ∈ c.ordered)
    (hnot : ¬m.Complete arrived) : m.Stored rStream.orderedQ arrived := by
  intro i hi
  rw [h.orderedQ.find m (h.mem_drop hm hnot) i hi, Message.waiting, if_neg hnot]

/-- **An ordered chunk is stored.** -/
theorem exists_store (h : Delivers c arrived j rStream taken) (hm : m ∈ c.ordered) {i : ℕ}
    (hi : i < m.size) (hnew : m.tsn + i ∉ arrived)
    (hwindow : ∀ k, c.ordered[k]? = some m → k < j + 65536) :
    ∃ delivery orderedQ, (delivery = 1 ∨ delivery = 3) ∧
      rStream.enqueueOrdered (m.fragment i) =
        (match SCTPReceiveStream.deliverExpected { rStream with orderedQ } with
        | some (true, rStream) => some (2, rStream)
        | some (false, rStream) => some (delivery, rStream)
        | none => some (delivery, { rStream with orderedQ })) ∧
      Delivers c ((m.tsn + i) :: arrived) j { rStream with orderedQ } taken := by
  have hnot : ¬m.Complete arrived := fun hcomplete ↦ hnew (hcomplete i hi)
  obtain ⟨delivery, orderedQ, hdelivery, henqueue, hsame, hown⟩ :=
    SCTPReceiveStream.exists_enqueueOrdered hi hnew (h.stored hm hnot)
  have hunordered (m' : Message) (hm' : m' ∈ c.unordered) : ¬m'.Covers (m.tsn + i) :=
    c.not_covers_of_unordered hm hm' (Message.covers_add hi)
  have hother (m' : Message) (hm' : m' ∈ c.ordered) (hne : m' ≠ m) : ¬m'.Covers (m.tsn + i) :=
    fun hcovers ↦ hne (c.eq_of_covers (c.mem_messages_of_ordered hm')
      (c.mem_messages_of_ordered hm) hcovers (Message.covers_add hi))
  refine ⟨delivery, orderedQ, hdelivery, henqueue, {
    h with
    complete := fun m' hm' ↦ (h.complete m' hm').cons _
    window := fun k m' hk hm' ↦ ?_
    orderedQ := h.orderedQ.update (fun _ ↦ mem_messages_of_mem_drop) (h.mem_drop hm hnot)
      (fun m' hm' hne _ ↦ Message.waiting_cons (hother m' (List.mem_of_mem_drop hm') hne)) hsame hown
    unorderedQ := h.unorderedQ.congr fun m' hm' _ ↦ Message.remaining_cons (hunordered m' hm')
    unordered := ?_ }⟩
  · obtain rfl | hne := eq_or_ne m' m
    · exact hwindow k hk
    · exact h.window k m' hk
        ((Message.complete_cons (hother m' (List.mem_of_getElem? hk) hne)).1 hm')
  · rw [List.filterMap_congr fun m' hm' ↦ Message.outcome_cons fun heq : m.tsn + i = _ ↦
      hunordered m' hm' (heq.symm ▸ m'.covers_tsn)]
    exact h.unordered

/-! ### Releasing a message -/

/-- What is in `deliveryQ` has come from an ordered message before the `j`-th or an unordered
one. -/
theorem cases_of_find (h : Delivers c arrived j rStream taken) {t : ℕ} {chunk : SCTPDataVariables}
    (hfind : rStream.deliveryQ.find t = some chunk) :
    (∃ k m, k < j ∧ c.ordered[k]? = some m ∧ m.tsn = t) ∨
      chunk.ordered = false ∧ ∃ m ∈ c.unordered, m.outcome arrived = some chunk ∧ m.tsn = t := by
  have hmem : chunk ∈ taken ++ rStream.deliveryQ.values :=
    List.mem_append_right _ (OrderedMap.mem_values.2 ⟨t, hfind⟩)
  have hkey := h.keys t chunk hfind
  cases hordered : chunk.ordered with
  | true =>
    have hwhole := List.mem_filter.2 ⟨hmem, hordered⟩
    rw [h.ordered, List.mem_map] at hwhole
    obtain ⟨m, hm, rfl⟩ := hwhole
    obtain ⟨k, hk⟩ := List.mem_iff_getElem?.1 hm
    rw [List.getElem?_take] at hk
    split_ifs at hk with hlt
    exact .inl ⟨k, m, hlt, hk, m.toNat_tsn_whole ▸ hkey⟩
  | false =>
    have houtcome := h.unordered.mem_iff.1
      (List.mem_filter.2 ⟨hmem, by rw [hordered]; rfl⟩)
    obtain ⟨m, hm, heq⟩ := List.mem_filterMap.1 houtcome
    exact .inr ⟨rfl, m, hm, heq, (Message.tsn_of_outcome heq).1 ▸ hkey⟩

theorem dequeue_cases (h : Delivers c arrived j rStream taken) :
    (rStream.orderedQ.dequeueChunkBySSN (UInt16.ofNat j) = none ∧
        ∀ m, c.ordered[j]? = some m → ¬m.Complete arrived) ∨
      ∃ m, c.ordered[j]? = some m ∧ m.Complete arrived ∧
        rStream.orderedQ.find m.tsn = some m.whole ∧
        rStream.orderedQ.dequeueChunkBySSN (UInt16.ofNat j) =
          some (m.whole, rStream.orderedQ.erase m.tsn) := by
  cases hdequeue : rStream.orderedQ.dequeueChunkBySSN (UInt16.ofNat j) with
  | none =>
    refine .inl ⟨rfl, fun m hj hcomplete ↦ ?_⟩
    have hdrop : m ∈ c.ordered.drop j :=
      List.mem_of_mem_head? (by rw [List.head?_drop, hj]; rfl)
    have hfind := h.orderedQ.find m hdrop 0 m.size_pos
    rw [Message.waiting, if_pos hcomplete, if_pos rfl] at hfind
    have hebit := SCTPReceiveStream.not_find_of_dequeue hdequeue hfind (c.ssn_eq j m hj) rfl
    cases hebit
  | some found =>
    obtain ⟨chunk, orderedQ⟩ := found
    obtain ⟨t, hfind, hchunk, hbbit, hebit, rfl⟩ := SCTPReceiveStream.find_of_dequeue hdequeue
    obtain ⟨m, hm, hcovers⟩ := h.orderedQ.covers t chunk hfind
    obtain ⟨i, hi, rfl⟩ := hcovers.exists_add
    obtain ⟨hcomplete, rfl, rfl⟩ := Message.eq_whole_of_waiting
      ((h.orderedQ.find m hm i hi).symm.trans hfind) hi hbbit hebit
    refine .inr ⟨m, ?_, hcomplete, hfind, rfl⟩
    -- no other message of the window has this SSN
    obtain ⟨l, hl⟩ := List.mem_iff_getElem?.1 hm
    rw [List.getElem?_drop] at hl
    have hlt := h.window _ m hl hcomplete
    have hnum : UInt16.ofNat (j + l) = UInt16.ofNat j := (c.ssn_eq _ m hl).symm.trans hchunk
    rw [← UInt16.toNat_inj, UInt16.toNat_ofNat', UInt16.toNat_ofNat'] at hnum
    obtain rfl : l = 0 := by omega
    exact hl

/-- The place of the next message in `deliveryQ` is free, and behind all ordered ones. -/
theorem behind (h : Delivers c arrived j rStream taken) (hj : c.ordered[j]? = some m) {t : ℕ}
    {chunk : SCTPDataVariables} (hfind : rStream.deliveryQ.find t = some chunk) :
    t ≠ m.tsn ∧ (chunk.ordered = true → t < m.tsn) := by
  obtain ⟨k, m', hk, hm', rfl⟩ | ⟨hunordered, m', hm', -, rfl⟩ := h.cases_of_find hfind
  · have htsn := c.tsn_lt_of_lt hm' hj hk
    exact ⟨htsn.ne, fun _ ↦ htsn⟩
  · refine ⟨fun heq ↦ ?_, fun hordered ↦ ?_⟩
    · exact c.not_covers_of_unordered (List.mem_of_getElem? hj) hm' (heq ▸ m.covers_tsn)
        m'.covers_tsn
    · rw [hunordered] at hordered
      cases hordered

theorem find_next (h : Delivers c arrived j rStream taken) (hj : c.ordered[j]? = some m) :
    rStream.deliveryQ.find m.tsn = none :=
  Option.eq_none_iff_forall_not_mem.2 fun _ hfind ↦ (h.behind hj hfind).1 rfl

/-- **The next message goes to `deliveryQ`.** -/
theorem next (h : Delivers c arrived j rStream taken) (hj : c.ordered[j]? = some m)
    (hcomplete : m.Complete arrived) :
    Delivers c arrived (j + 1)
      { rStream with
        expectedStreamSeqNum := (j + 1) % 65536
        deliveryQ := rStream.deliveryQ.insert m.tsn m.whole
        orderedQ := rStream.orderedQ.erase m.tsn } taken := by
  have hlt : j < c.ordered.length := (List.getElem?_eq_some_iff.1 hj).1
  have hmem := List.mem_of_getElem? hj
  have hordered : m.whole.ordered = true := c.ordered_of_mem m hmem
  have hdrop : c.ordered.drop j = m :: c.ordered.drop (j + 1) := by
    rw [List.drop_eq_getElem_cons hlt, (List.getElem?_eq_some_iff.1 hj).2]
  have htake : c.ordered.take (j + 1) = c.ordered.take j ++ [m] := by
    rw [List.take_add_one, hj]
    rfl
  refine {
    h with
    le := hlt
    complete := fun m' hm' ↦ ?_
    window := fun k m' hk hm' ↦ Nat.lt_of_lt_of_le (h.window k m' hk hm') (by omega)
    expected := rfl
    orderedQ := ⟨fun m' hm' i hi ↦ ?_, fun t chunk hfind ↦ ?_⟩
    keys := fun t chunk hfind ↦ ?_
    ordered := ?_
    unordered := ?_ }
  · rw [htake, List.mem_append, List.mem_singleton] at hm'
    obtain hm' | rfl := hm'
    exacts [h.complete m' hm', hcomplete]
  · rw [OrderedMap.find_erase, if_neg, h.orderedQ.find m' (hdrop ▸ .tail _ hm') i hi]
    obtain ⟨l, hl⟩ := List.mem_iff_getElem?.1 hm'
    rw [List.getElem?_drop] at hl
    have hgt := c.tsn_lt_of_lt hj hl (by omega)
    omega
  · rw [OrderedMap.find_erase] at hfind
    split_ifs at hfind with htsn
    obtain ⟨m', hm', hcovers⟩ := h.orderedQ.covers t chunk hfind
    rw [hdrop, List.mem_cons] at hm'
    obtain rfl | hm' := hm'
    · -- of the released message there was nothing else
      obtain ⟨i, hi, rfl⟩ := hcovers.exists_add
      rw [h.orderedQ.find m' (hdrop ▸ .head _) i hi, Message.waiting, if_pos hcomplete,
        if_neg (by omega)] at hfind
      cases hfind
    · exact ⟨m', hm', hcovers⟩
  · rw [OrderedMap.find_insert] at hfind
    split_ifs at hfind with htsn
    · obtain rfl := Option.some.inj hfind
      rw [m.toNat_tsn_whole, htsn]
    · exact h.keys t chunk hfind
  · rw [htake, List.map_append, ← h.ordered, List.filter_append,
      OrderedMap.filter_values_insert_of_last (h.find_next hj) hordered
        fun t chunk hfind ↦ (h.behind hj hfind).2,
      List.filter_append, List.append_assoc]
    rfl
  · rw [List.filter_append, OrderedMap.filter_values_insert_of_neg (h.find_next hj)
      (by rw [hordered]; rfl), ← List.filter_append]
    exact h.unordered

/-- **The next message is released**, if it is complete. -/
theorem release (h : Delivers c arrived j rStream taken) :
    (rStream.deliverExpected = none ∧ ∀ m, c.ordered[j]? = some m → ¬m.Complete arrived) ∨
      ∃ rStream', rStream.deliverExpected = some (true, rStream') ∧
        Delivers c arrived (j + 1) rStream' taken ∧
        rStream'.orderedQ.getQueueSize < rStream.orderedQ.getQueueSize := by
  have hssn : UInt16.ofNat (j % 65536) = UInt16.ofNat j := by
    rw [← UInt16.toNat_inj, UInt16.toNat_ofNat', UInt16.toNat_ofNat', Nat.mod_mod]
  rw [SCTPReceiveStream.deliverExpected, h.expected, hssn]
  obtain ⟨hnone, hnot⟩ | ⟨m, hj, hcomplete, hfind, hdequeue⟩ := h.dequeue_cases
  · rw [hnone]
    exact .inl ⟨rfl, hnot⟩
  · have hinsert := SCTPReceiveStream.checkAndInsertChunk_whole (h.find_next hj)
    have hnext : (if j % 65536 + 1 > 65535 then 0 else j % 65536 + 1) = (j + 1) % 65536 := by
      split_ifs <;> omega
    rw [hdequeue]
    refine .inr ⟨_, ?_, h.next hj hcomplete, OrderedMap.length_erase_lt hfind⟩
    simp only [hinsert, hnext]

/-- `putInDeliveryQ` goes on until the next message is not complete. -/
theorem exists_putInDeliveryQLoop {size : ℕ} (h : Delivers c arrived j rStream taken)
    (hsize : rStream.orderedQ.getQueueSize ≤ size) :
    ∃ j', Delivers c arrived j' (rStream.putInDeliveryQLoop size) taken ∧
      ∀ m, c.ordered[j']? = some m → ¬m.Complete arrived := by
  induction size generalizing j rStream with
  | zero =>
    obtain ⟨-, hnot⟩ | ⟨rStream', -, -, hlt⟩ := h.release
    · exact ⟨j, h, hnot⟩
    · omega
  | succ size ih =>
    rw [SCTPReceiveStream.putInDeliveryQLoop]
    obtain ⟨hnone, hnot⟩ | ⟨rStream', hsome, h', hlt⟩ := h.release
    · rw [hnone]
      exact ⟨j, h, hnot⟩
    · rw [hsome]
      exact ih h' (by omega)

/-- **An ordered chunk arrives.** -/
theorem arrive_ordered (h : Delivers c arrived j rStream taken) (hm : m ∈ c.ordered) {i : ℕ}
    (hi : i < m.size) (hnew : m.tsn + i ∉ arrived)
    (hwindow : ∀ k, c.ordered[k]? = some m → k < j + 65536) :
    ∃ j' rStream', rStream.processDataArrived (m.fragment i) = some rStream' ∧
      Delivers c ((m.tsn + i) :: arrived) j' rStream' taken ∧
      ∀ m', c.ordered[j']? = some m' → ¬m'.Complete ((m.tsn + i) :: arrived) := by
  obtain ⟨delivery, orderedQ, hdelivery, henqueue, h'⟩ := h.exists_store hm hi hnew hwindow
  have hordered : (!(m.fragment i).ordered) = false := by
    rw [Bool.not_eq_false']
    exact c.ordered_of_mem m hm
  rw [SCTPReceiveStream.processDataArrived, SCTPReceiveStream.enqueueNewDataChunk, hordered,
    if_neg Bool.false_ne_true, henqueue]
  obtain ⟨hnone, hnot⟩ | ⟨rStream', hsome, h'', -⟩ := h'.release
  · rw [hnone]
    obtain rfl | rfl := hdelivery
    · obtain ⟨j', hput, hnot⟩ := h'.exists_putInDeliveryQLoop le_rfl
      exact ⟨j', _, rfl, hput, hnot⟩
    · exact ⟨j, _, rfl, h', hnot⟩
  · rw [hsome]
    obtain ⟨j', hput, hnot⟩ := h''.exists_putInDeliveryQLoop le_rfl
    exact ⟨j', _, rfl, hput, hnot⟩

/-! ### An unordered chunk -/

theorem stored_unordered (h : Delivers c arrived j rStream taken) (hm : m ∈ c.unordered)
    (hnot : ¬m.FirstLast arrived) :
    m.Stored rStream.unorderedQ (arrived.filter fun t ↦ t != m.tsn) := by
  intro i hi
  rw [h.unorderedQ.find m hm i hi, Message.remaining]
  simp only [hnot, false_or, List.mem_filter, bne_iff_ne, ne_eq, Nat.add_eq_left]
  split_ifs <;> first | rfl | tauto

/-- The chunks of `unorderedQ` after a chunk of one message. -/
theorem holds_unordered (h : Delivers c arrived j rStream taken) (hm : m ∈ c.unordered)
    {queue : SCTPQueue} {i : ℕ} (hi : i < m.size)
    (hsame : ∀ t, ¬m.Covers t → queue.find t = rStream.unorderedQ.find t)
    (hown : ∀ l < m.size, queue.find (m.tsn + l) = m.remaining ((m.tsn + i) :: arrived) l) :
    queue.Holds c.unordered fun m' ↦ m'.remaining ((m.tsn + i) :: arrived) :=
  h.unorderedQ.update (fun _ ↦ c.mem_messages_of_unordered) hm
    (fun _ hm' hne _ ↦ Message.remaining_cons fun hcovers ↦
      hne (c.eq_of_covers (c.mem_messages_of_unordered hm') (c.mem_messages_of_unordered hm)
        hcovers (Message.covers_add hi))) hsame hown

/-- Nothing else changes for the ordered messages. -/
theorem cons_unordered (h : Delivers c arrived j rStream taken) (hm : m ∈ c.unordered) {i : ℕ}
    (hi : i < m.size) {deliveryQ unorderedQ : SCTPQueue}
    (hunorderedQ : unorderedQ.Holds c.unordered fun m' ↦ m'.remaining ((m.tsn + i) :: arrived))
    (hkeys : ∀ t chunk, deliveryQ.find t = some chunk → chunk.tsn.toNat = t)
    (hordered : (taken ++ deliveryQ.values).filter (fun chunk ↦ chunk.ordered) =
      (taken ++ rStream.deliveryQ.values).filter fun chunk ↦ chunk.ordered)
    (hunordered : ((taken ++ deliveryQ.values).filter fun chunk ↦ !chunk.ordered).Perm
      (c.unordered.filterMap fun m' ↦ m'.outcome ((m.tsn + i) :: arrived))) :
    Delivers c ((m.tsn + i) :: arrived) j { rStream with deliveryQ, unorderedQ } taken := by
  have hother (m' : Message) (hm' : m' ∈ c.ordered) : ¬m'.Covers (m.tsn + i) :=
    fun hcovers ↦ c.not_covers_of_unordered hm' hm hcovers (Message.covers_add hi)
  exact {
    h with
    complete := fun m' hm' ↦ (h.complete m' hm').cons _
    window := fun k m' hk hm' ↦ h.window k m' hk
      ((Message.complete_cons (hother m' (List.mem_of_getElem? hk))).1 hm')
    orderedQ := h.orderedQ.congr fun m' hm' _ ↦
      Message.waiting_cons (hother m' (List.mem_of_mem_drop hm'))
    unorderedQ := hunorderedQ
    keys := hkeys
    ordered := hordered.trans h.ordered
    unordered := hunordered }

theorem find_unordered (h : Delivers c arrived j rStream taken) (hm : m ∈ c.unordered)
    (hnew : m.tsn ∉ arrived) : rStream.deliveryQ.find m.tsn = none := by
  refine Option.eq_none_iff_forall_not_mem.2 fun chunk hfind ↦ ?_
  obtain ⟨k, m', -, hm', htsn⟩ | ⟨-, m', hm', houtcome, htsn⟩ := h.cases_of_find hfind
  · exact c.not_covers_of_unordered (List.mem_of_getElem? hm') hm m'.covers_tsn
      (htsn ▸ m.covers_tsn)
  · have heq := c.eq_of_covers (c.mem_messages_of_unordered hm') (c.mem_messages_of_unordered hm)
      m'.covers_tsn (htsn ▸ m.covers_tsn)
    rw [heq, Message.outcome, if_neg hnew] at houtcome
    cases houtcome

/-- **The first fragment of an unordered message is delivered**, with or without the others. -/
theorem arrive_first (h : Delivers c arrived j rStream taken) (hm : m ∈ c.unordered)
    (hnew : m.tsn ∉ arrived) :
    ∃ rStream', rStream.enqueueUnordered (m.fragment 0) = some (2, rStream') ∧
      Delivers c ((m.tsn + 0) :: arrived) j rStream' taken := by
  have hnot : ¬m.FirstLast arrived := fun hlast ↦ hnew (hlast.complete 0 m.size_pos)
  have hfree := h.find_unordered hm hnew
  have hstored := h.stored_unordered hm hnot
  rw [List.filter_eq_self.2 fun t ht ↦ bne_iff_ne.2 fun heq : t = m.tsn ↦ hnew (heq ▸ ht)]
    at hstored
  obtain ⟨unorderedQ, chunk, henqueue, hsame, houtcome, hown⟩ :=
    SCTPReceiveStream.exists_enqueueUnordered_first hnew hstored hfree
  obtain ⟨htsn, hordered⟩ := Message.tsn_of_outcome houtcome
  rw [c.unordered_of_mem m hm] at hordered
  refine ⟨_, henqueue, h.cons_unordered hm m.size_pos
    (h.holds_unordered hm m.size_pos hsame hown) (fun t chunk' hfind ↦ ?_) ?_ ?_⟩
  · rw [OrderedMap.find_insert] at hfind
    split_ifs at hfind with heq
    · obtain rfl := Option.some.inj hfind
      rw [htsn, heq]
    · exact h.keys t chunk' hfind
  · rw [List.filter_append, OrderedMap.filter_values_insert_of_neg hfree hordered,
      ← List.filter_append]
  · have hvalues : (taken ++ (rStream.deliveryQ.insert m.tsn chunk).values).Perm
        (chunk :: (taken ++ rStream.deliveryQ.values)) :=
      ((OrderedMap.values_insert_perm hfree).append_left taken).trans List.perm_middle
    have hfilter := hvalues.filter fun chunk ↦ !chunk.ordered
    rw [List.filter_cons_of_pos (by rw [hordered]; rfl)] at hfilter
    refine hfilter.trans ((h.unordered.cons chunk).trans (List.Perm.symm ?_))
    refine filterMap_perm_cons c.nodup_unordered hm (if_neg hnew) houtcome fun m' hm' hne ↦ ?_
    exact Message.outcome_cons fun heq ↦ hne (c.eq_of_covers (c.mem_messages_of_unordered hm')
      (c.mem_messages_of_unordered hm) m'.covers_tsn (heq ▸ m.covers_tsn))

/-- A later fragment of an unordered message waits. -/
theorem arrive_later (h : Delivers c arrived j rStream taken) (hm : m ∈ c.unordered) {i : ℕ}
    (hi : i < m.size) (hpos : 0 < i) (hnew : m.tsn + i ∉ arrived) :
    ∃ rStream', rStream.enqueueUnordered (m.fragment i) = some (3, rStream') ∧
      Delivers c ((m.tsn + i) :: arrived) j rStream' taken := by
  have hnot : ¬m.FirstLast arrived := fun hlast ↦ hnew (hlast.complete i hi)
  have hne : m.tsn + i ≠ m.tsn := by omega
  have hstored := h.stored_unordered hm hnot
  have hfirst : m.tsn ∉ arrived.filter fun t ↦ t != m.tsn :=
    fun hmem ↦ bne_iff_ne.1 (List.mem_filter.1 hmem).2 rfl
  have henqueue := SCTPReceiveStream.enqueueUnordered_later hi hpos
    (fun hmem ↦ hnew (List.mem_filter.1 hmem).1) hfirst hstored
  refine ⟨_, henqueue, h.cons_unordered hm hi (h.holds_unordered hm hi
    (fun t ht ↦ Message.find_insert_of_not_covers ht hi _ _) fun l hl ↦ ?_) h.keys rfl ?_⟩
  · rw [hstored.insert i l hl, Message.remaining]
    simp only [Message.firstLast_cons hne, hnot, false_or, List.mem_cons, List.mem_filter,
      bne_iff_ne, ne_eq, Nat.add_eq_left]
    split_ifs <;> first | rfl | omega | tauto
  · rw [List.filterMap_congr fun m' hm' ↦ Message.outcome_cons fun heq ↦ ?_]
    · exact h.unordered
    · have hcovers := Message.covers_add hi
      rw [heq] at hcovers
      obtain rfl := c.eq_of_covers (c.mem_messages_of_unordered hm)
        (c.mem_messages_of_unordered hm') hcovers m'.covers_tsn
      exact hne heq

/-- **An unordered chunk arrives.** -/
theorem arrive_unordered (h : Delivers c arrived j rStream taken)
    (hnot : ∀ m, c.ordered[j]? = some m → ¬m.Complete arrived) (hm : m ∈ c.unordered) {i : ℕ}
    (hi : i < m.size) (hnew : m.tsn + i ∉ arrived) :
    ∃ j' rStream', rStream.processDataArrived (m.fragment i) = some rStream' ∧
      Delivers c ((m.tsn + i) :: arrived) j' rStream' taken ∧
      ∀ m', c.ordered[j']? = some m' → ¬m'.Complete ((m.tsn + i) :: arrived) := by
  have hordered : (!(m.fragment i).ordered) = true := by
    rw [Bool.not_eq_true']
    exact c.unordered_of_mem m hm
  rw [SCTPReceiveStream.processDataArrived, SCTPReceiveStream.enqueueNewDataChunk, hordered,
    if_pos rfl]
  obtain rfl | hpos := i.eq_zero_or_pos
  · obtain ⟨rStream', henqueue, h'⟩ := h.arrive_first hm hnew
    obtain ⟨j', hput, hnot'⟩ := h'.exists_putInDeliveryQLoop le_rfl
    rw [henqueue]
    exact ⟨j', _, rfl, hput, hnot'⟩
  · obtain ⟨rStream', henqueue, h'⟩ := h.arrive_later hm hi hpos hnew
    rw [henqueue]
    refine ⟨j, _, rfl, h', fun m' hj ↦ ?_⟩
    rw [Message.complete_cons fun hcovers ↦ c.not_covers_of_unordered (List.mem_of_getElem? hj) hm
      hcovers (Message.covers_add hi)]
    exact hnot m' hj

theorem inOrder_eq (h : Delivers c arrived j rStream taken)
    (hnot : ∀ m, c.ordered[j]? = some m → ¬m.Complete arrived) : c.inOrder arrived = j :=
  c.inOrder_eq h.le h.complete hnot

/-- **A chunk arrives.** -/
theorem arrive (h : Delivers c arrived j rStream taken)
    (hnot : ∀ m, c.ordered[j]? = some m → ¬m.Complete arrived) (hm : m ∈ c.messages) {i : ℕ}
    (hi : i < m.size) (hnew : m.tsn + i ∉ arrived) (hwindow : c.InWindow arrived m) :
    ∃ j' rStream', rStream.processDataArrived (m.fragment i) = some rStream' ∧
      Delivers c ((m.tsn + i) :: arrived) j' rStream' taken ∧
      ∀ m', c.ordered[j']? = some m' → ¬m'.Complete ((m.tsn + i) :: arrived) := by
  rw [Conversation.InWindow, h.inOrder_eq hnot] at hwindow
  obtain hm | hm := List.mem_append.1 hm
  · exact h.arrive_ordered hm hi hnew hwindow
  · exact h.arrive_unordered hnot hm hi hnew

end Delivers

namespace Conversation

variable {c : Conversation} {arrived : List ℕ} {rStream : SCTPReceiveStream}
  {taken : List SCTPDataVariables}

/-- **The invariant holds whatever happens**, and no complete message is kept back. -/
theorem Reaches.exists_delivers (h : c.Reaches arrived rStream taken) :
    ∃ j, Delivers c arrived j rStream taken ∧
      ∀ m, c.ordered[j]? = some m → ¬m.Complete arrived := by
  induction h with
  | start =>
    exact ⟨0, .start c, fun m _ ↦ m.not_complete_nil⟩
  | arrive _ hm hi hnew hwindow heq ih =>
    obtain ⟨j, h, hnot⟩ := ih
    obtain ⟨j', rStream', heq', h', hnot'⟩ := h.arrive hnot hm hi hnew hwindow
    obtain rfl := Option.some.inj (heq.symm.trans heq')
    exact ⟨j', h', hnot'⟩
  | take _ heq ih =>
    obtain ⟨j, h, hnot⟩ := ih
    exact ⟨j, h.take heq, hnot⟩

theorem Reaches.delivers (h : c.Reaches arrived rStream taken) :
    Delivers c arrived (c.inOrder arrived) rStream taken := by
  obtain ⟨j, h', hnot⟩ := h.exists_delivers
  rwa [h'.inOrder_eq hnot]

theorem inWindow_of_length_le (h : c.ordered.length ≤ 65536) (arrived : List ℕ) (m : Message) :
    c.InWindow arrived m := by
  intro k hk
  have hlt := (List.getElem?_eq_some_iff.1 hk).1
  omega

/-- There is a next state for each chunk. -/
theorem Reaches.exists_arrive (h : c.Reaches arrived rStream taken) {m : Message}
    (hm : m ∈ c.messages) {i : ℕ} (hi : i < m.size) (hnew : m.tsn + i ∉ arrived)
    (hwindow : c.InWindow arrived m) :
    ∃ rStream', rStream.processDataArrived (m.fragment i) = some rStream' ∧
      c.Reaches ((m.tsn + i) :: arrived) rStream' taken := by
  obtain ⟨j, h', hnot⟩ := h.exists_delivers
  obtain ⟨-, rStream', heq, -⟩ := h'.arrive hnot hm hi hnew hwindow
  exact ⟨rStream', heq, h.arrive hm hi hnew hwindow heq⟩

/-- **Ordered messages are delivered whole, once and in their order**, as far as they have arrived
with all before them, and no chunk leads to undefined behaviour. -/
theorem ordered_of_reaches (h : c.Reaches arrived rStream taken) :
    (taken ++ rStream.deliveryQ.values).filter (fun chunk ↦ chunk.ordered) =
        (c.ordered.take (c.inOrder arrived)).map Message.whole ∧
      rStream.expectedStreamSeqNum = c.inOrder arrived % 65536 ∧
      ∀ m ∈ c.messages, ∀ i < m.size, m.tsn + i ∉ arrived → c.InWindow arrived m →
        ∃ rStream', rStream.processDataArrived (m.fragment i) = some rStream' := by
  refine ⟨h.delivers.ordered, h.delivers.expected, fun m hm i hi hnew hwindow ↦ ?_⟩
  obtain ⟨rStream', heq, -⟩ := h.exists_arrive hm hi hnew hwindow
  exact ⟨rStream', heq⟩

/-! Two ordered messages and an unordered one -/

/-- An ordered message in two fragments. -/
def inTwo : Message where
  tsn := 4
  ssn := 0
  ordered := true
  fragments := [[1], [2, 3]]
  fragments_ne_nil := by decide
  ne_nil_of_mem := by decide
  tsn_lt := by decide
  bits_lt := by decide

/-- An ordered message in one fragment. -/
def inOne : Message where
  tsn := 7
  ssn := 1
  ordered := true
  fragments := [[9]]
  fragments_ne_nil := by decide
  ne_nil_of_mem := by decide
  tsn_lt := by decide
  bits_lt := by decide

/-- An unordered message in two fragments. -/
def outOfOrder : Message where
  tsn := 10
  ssn := 0
  ordered := false
  fragments := [[5], [6]]
  fragments_ne_nil := by decide
  ne_nil_of_mem := by decide
  tsn_lt := by decide
  bits_lt := by decide

/-- Their conversation. -/
def threeMessages : Conversation where
  ordered := [inTwo, inOne]
  unordered := [outOfOrder]
  ordered_of_mem := by simp [inTwo, inOne]
  unordered_of_mem := by simp [outOfOrder]
  ssn_eq k m hk := by
    obtain rfl | rfl | ⟨k, rfl⟩ : k = 0 ∨ k = 1 ∨ ∃ k', k = k' + 2 := by
      obtain hlt | hle := Nat.lt_or_ge k 2
      · omega
      · exact .inr (.inr ⟨k - 2, by omega⟩)
    · exact Option.some.inj hk ▸ rfl
    · exact Option.some.inj hk ▸ rfl
    · cases hk
  ascending := by simp [inTwo, inOne]
  apart := by
    have hapart (m m' : Message) (h : m.tsn + m.size ≤ m'.tsn) (t : ℕ) (ht : m.Covers t) :
        ¬m'.Covers t := fun ht' ↦ absurd (h.trans ht'.1) ht.2.not_ge
    simp only [List.cons_append, List.nil_append, List.pairwise_cons, List.forall_mem_cons]
    refine ⟨⟨hapart _ _ (by decide), hapart _ _ (by decide), ?_⟩, ⟨hapart _ _ (by decide), ?_⟩,
      ?_, .nil⟩
    all_goals exact fun m hm ↦ absurd hm List.not_mem_nil

/-- The second message is there before the first, whose fragments arrive the last one first, and the
first fragment of the unordered one before the other. -/
theorem exists_reaches_threeMessages :
    ∃ rStream, threeMessages.Reaches [4, 10, 5, 7] rStream [] := by
  have hwindow := threeMessages.inWindow_of_length_le (by decide)
  have hone : inOne ∈ threeMessages.messages := .tail _ (.head _)
  have htwo : inTwo ∈ threeMessages.messages := .head _
  have hout : outOfOrder ∈ threeMessages.messages := .tail _ (.tail _ (.head _))
  obtain ⟨r₁, -, h₁⟩ :=
    Reaches.start.exists_arrive hone (by decide : 0 < _) (by decide) (hwindow _ _)
  obtain ⟨r₂, -, h₂⟩ := h₁.exists_arrive htwo (by decide : 1 < _) (by decide) (hwindow _ _)
  obtain ⟨r₃, -, h₃⟩ := h₂.exists_arrive hout (by decide : 0 < _) (by decide) (hwindow _ _)
  obtain ⟨r₄, -, h₄⟩ := h₃.exists_arrive htwo (by decide : 0 < _) (by decide) (hwindow _ _)
  exact ⟨r₄, h₄⟩

theorem ordered_of_reaches_threeMessages :
    ∃ rStream, threeMessages.Reaches [4, 10, 5, 7] rStream [] ∧
      rStream.deliveryQ.values.filter (fun chunk ↦ chunk.ordered) = [inTwo.whole, inOne.whole] := by
  obtain ⟨rStream, h⟩ := exists_reaches_threeMessages
  exact ⟨rStream, h, (ordered_of_reaches h).1⟩

/-- **Of an unordered message that is first delivered when its first fragment arrives**: the whole
message if all others have arrived before, and otherwise the first fragment, with the rest left
behind in `unorderedQ`. -/
theorem unordered_of_reaches (h : c.Reaches arrived rStream taken) :
    ((taken ++ rStream.deliveryQ.values).filter fun chunk ↦ !chunk.ordered).Perm
        (c.unordered.filterMap fun m ↦ m.outcome arrived) ∧
      rStream.unorderedQ.Holds c.unordered fun m ↦ m.remaining arrived :=
  ⟨h.delivers.unordered, h.delivers.unorderedQ⟩

/-- The first fragment is delivered alone. -/
theorem unordered_of_reaches_threeMessages :
    ∃ rStream, threeMessages.Reaches [4, 10, 5, 7] rStream [] ∧
      (rStream.deliveryQ.values.filter fun chunk ↦ !chunk.ordered).Perm
        [outOfOrder.fragment 0] := by
  obtain ⟨rStream, h⟩ := exists_reaches_threeMessages
  exact ⟨rStream, h, (unordered_of_reaches h).1⟩

end Conversation

end Inet.SCTPDelivery
