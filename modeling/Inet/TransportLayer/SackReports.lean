import Inet.Foundations.IntervalList
import Inet.TransportLayer.TCPConnection

/-!
# What `addSacks` reports

The entries of `sacks_array` stand for intervals of positions. When those that have been passed are
seen to be passed, and the others lie in the receive queue (`Reporting`), the assertions of
`addSacks` hold and the blocks it adds are sound (`Reporting.addSacks`): each is an interval of
bytes that have been received, all but the first lie above `rcv_nxt` in the queue, and apart from a
D-SACK no two of them meet. The options of the segment fit into the header whatever was there
before.
-/

namespace Inet.Tcp

open SerialNumber IntervalList

/-- The block of an interval of positions. -/
def sackAt (p : ℕ × ℕ) : Sack :=
  ⟨wrap p.1, wrap p.2⟩

/-- The position of a sequence number that is closest to a given one. -/
def nearest (n : ℕ) (seq : UInt32) : ℕ :=
  if (seq - wrap n).toNat < 2 ^ 31 then n + (seq - wrap n).toNat else n - (wrap n - seq).toNat

theorem nearest_wrap {m n : ℕ} (h : Near m n) : nearest n (wrap m) = m := by
  rw [nearest]
  split_ifs with hle
  · rw [sub_lt_iff_le h.2 h.1] at hle
    rw [toNat_wrap_sub_wrap hle (by have := h.1; omega)]
    omega
  · rw [sub_lt_iff_le h.2 h.1] at hle
    rw [toNat_wrap_sub_wrap (by omega) (by have := h.2; omega)]
    omega

/-! ### The loops of `addSacks` -/

/-- Two intervals without common points, in one order or the other. -/
def Apart (p q : ℕ × ℕ) : Prop :=
  p.2 ≤ q.1 ∨ q.2 ≤ p.1

/-- An interval whose ends can be compared with a position. -/
structure Entry (n : ℕ) (p : ℕ × ℕ) : Prop where
  nonempty : p.1 < p.2
  near_begin : Near p.1 n
  near_end : Near p.2 n

theorem Entry.ne {n : ℕ} {p : ℕ × ℕ} (h : Entry n p) : (sackAt p).start ≠ (sackAt p).stop := by
  intro heq
  have hne := h.nonempty
  have hbegin := h.near_begin.2
  have hend := h.near_end.1
  have hsub := toNat_wrap_sub_wrap hne.le (by omega)
  rw [show wrap p.1 = wrap p.2 from heq, UInt32.sub_self] at hsub
  have hzero : (0 : UInt32).toNat = 0 := rfl
  omega

theorem Within.entry {k n : ℕ} {p : ℕ × ℕ} (h : Within k p) (hk : k ≤ n) (hn : n < k + 2 ^ 31) :
    Entry n p := by
  have hle := h.le
  have hne := h.nonempty
  have hlt := h.lt
  exact ⟨hne, ⟨by omega, by omega⟩, ⟨by omega, by omega⟩⟩

namespace TCPConnection

variable {conn : TCPConnection} {k n : ℕ} {b e : ℕ × ℕ} {es ps : List (ℕ × ℕ)} {arrived : Set ℕ}

theorem not_empty_sackAt (h : Within k e) : ¬ (sackAt e).empty := by
  rintro ⟨hstart, hstop⟩
  have hle := h.le
  have hne := h.nonempty
  have hlt := h.lt
  have hsub := toNat_wrap_sub_wrap hne.le (by omega)
  rw [show wrap e.2 = 0 from hstop, show wrap e.1 = 0 from hstart] at hsub
  have hzero : ((0 : UInt32) - 0).toNat = 0 := rfl
  omega

/-- What an interval contains is deleted. -/
theorem contains_sackAt (hb : Within k b) (he : Within k e) :
    (sackAt b).contains (sackAt e) ↔ b.1 ≤ e.1 ∧ e.2 ≤ b.2 :=
  and_congr (seqLE_wrap (hb.near_begin_begin he)) (seqLE_wrap (he.near_end_end hb))

/-- **What has not been passed stays**, if what has been passed is seen to be. -/
theorem deleteOldSacks_spec (hpassed : ∀ e ∈ es, e.2 ≤ n → seqLE (wrap e.2) (wrap n))
    (habove : ∀ e ∈ es, n < e.2 → Within n e) :
    deleteOldSacks (wrap n) (es.map sackAt) = some ((es.filter (n < ·.2)).map sackAt) := by
  induction es with
  | nil => rfl
  | cons e es ih =>
    rw [List.forall_mem_cons] at hpassed habove
    have hrest := ih hpassed.2 habove.2
    rcases le_or_gt e.2 n with hle | hlt
    · have hold : seqLE (sackAt e).stop (wrap n) ∨ (sackAt e).empty := .inl (hpassed.1 hle)
      rw [List.map_cons, deleteOldSacks, if_pos hold, hrest,
        List.filter_cons_of_neg (by simpa using hle)]
    · have hwithin := habove.1 hlt
      have hle := hwithin.le
      have hne := hwithin.nonempty
      have hbound := hwithin.lt
      have hold : ¬ (seqLE (sackAt e).stop (wrap n) ∨ (sackAt e).empty) := by
        rintro (hle | hempty)
        · exact absurd ((seqLE_wrap ⟨by omega, by omega⟩).1 hle) (not_le.2 hlt)
        · exact not_empty_sackAt hwithin hempty
      have hassert : seqGE (sackAt e).start (wrap n) :=
        (seqGE_wrap ⟨by omega, by omega⟩).2 hle
      rw [List.map_cons, deleteOldSacks, if_neg hold, if_pos hassert, hrest,
        List.filter_cons_of_pos (by simpa using hlt)]
      rfl

/-- What stays is not contained in the first entry. -/
theorem deleteContained_cons (m : ℕ) (hb : ¬ (sackAt b).empty) :
    deleteContained (m + 1) (sackAt b :: es.map sackAt) =
      (deleteContained m ((es.filter fun e ↦ ¬ (sackAt b).contains (sackAt e)).map sackAt)).map
        (sackAt b :: ·) := by
  rw [deleteContained, if_neg hb, List.filter_map]
  rfl

/-- The loop does not fail, and only deletes. -/
theorem deleteContained_spec {m : ℕ} (hm : es.length ≤ m) (h : ∀ e ∈ es, ¬ (sackAt e).empty) :
    ∃ es' : List (ℕ × ℕ),
      deleteContained m (es.map sackAt) = some (es'.map sackAt) ∧ es'.Sublist es := by
  induction m generalizing es with
  | zero =>
    obtain rfl := List.eq_nil_of_length_eq_zero (Nat.le_zero.1 hm)
    exact ⟨[], rfl, .slnil⟩
  | succ m ih =>
    cases es with
    | nil => exact ⟨[], rfl, .slnil⟩
    | cons e es =>
      rw [List.forall_mem_cons] at h
      have hlen := (List.length_filter_le (fun f ↦ ¬ (sackAt e).contains (sackAt f)) es).trans
        (Nat.le_of_succ_le_succ hm)
      obtain ⟨es', heq, hsub⟩ := ih hlen fun f hf ↦ h.2 f (List.mem_of_mem_filter hf)
      refine ⟨e :: es', ?_, (hsub.trans List.filter_sublist).cons_cons e⟩
      rw [List.map_cons, deleteContained_cons m h.1, heq]
      rfl

/-! ### What `addSacks` reports -/

/-- An interval at or above `n`, inside one of the regions of the queue. -/
def LiesAbove (queue : List (ℕ × ℕ)) (n : ℕ) (p : ℕ × ℕ) : Prop :=
  n ≤ p.1 ∧ ∃ q ∈ queue, q.1 ≤ p.1 ∧ p.2 ≤ q.2

/-- Intervals of received bytes, no two of which meet. -/
structure Kept (arrived : Set ℕ) (n : ℕ) (es : List (ℕ × ℕ)) : Prop where
  entry : ∀ e ∈ es, Entry n e
  received : ∀ e ∈ es, Set.Ico e.1 e.2 ⊆ arrived
  apart : es.Pairwise Apart

/-- The intervals of a sound report. The first is that of a D-SACK, or of a segment that has filled
a gap, or it lies above `n` as the others do. -/
structure Reported (arrived : Set ℕ) (queue : List (ℕ × ℕ)) (n : ℕ) (dsack : Bool)
    (bs : List (ℕ × ℕ)) : Prop where
  entry : ∀ p ∈ bs, Entry n p
  received : ∀ p ∈ bs, Set.Ico p.1 p.2 ⊆ arrived
  above : ∀ p ∈ bs.tail, LiesAbove queue n p
  first : dsack = false → ∀ p ∈ bs.head?, p.2 ≤ n ∨ LiesAbove queue n p
  apart : (if dsack then bs.tail else bs).Pairwise Apart

/-- What is known when `addSacks` is called: `es` are the intervals of `sacks_array`, `n` is the
position of `rcv_nxt`, and everything in the queue and in a new entry that is not a D-SACK lies
within half the number space from `k` on. -/
structure Reporting (conn : TCPConnection) (arrived : Set ℕ) (queue : List (ℕ × ℕ)) (k n : ℕ)
    (es : List (ℕ × ℕ)) : Prop where
  rcvNxt_eq : conn.rcvNxt = wrap n
  sacksArray_eq : conn.sacksArray = es.map sackAt
  le : k ≤ n
  lt : n < k + 2 ^ 31
  canonical : Canonical queue
  ends : ∀ q ∈ queue, q.2 < k + 2 ^ 31
  nonempty : ∀ e ∈ es, e.1 < e.2
  received : ∀ e ∈ es, Set.Ico e.1 e.2 ⊆ arrived
  apart : es.Pairwise Apart
  passed : ∀ e ∈ es, e.2 ≤ n → seqLE (wrap e.2) (wrap n)
  above : ∀ e ∈ es, n < e.2 → LiesAbove queue n e
  new : conn.startSeqno ≠ conn.endSeqno → ∃ b, conn.newSack = sackAt b ∧
    Set.Ico b.1 b.2 ⊆ arrived ∧
      if conn.sndDsack then Entry n b else Within k b ∧ (b.2 ≤ n ∨ b ∈ queue ∧ n ≤ b.1)

theorem Reported.kept {dsack : Bool} {bs : List (ℕ × ℕ)}
    (h : Reported arrived ps n dsack bs) : Kept arrived n (if dsack then bs.tail else bs) where
  entry e he := h.entry e (by split_ifs at he; exacts [List.mem_of_mem_tail he, he])
  received e he := h.received e (by split_ifs at he; exacts [List.mem_of_mem_tail he, he])
  apart := h.apart

/-- The first blocks of a sound report are one. -/
theorem Reported.take {dsack : Bool} {bs : List (ℕ × ℕ)} (h : Reported arrived ps n dsack bs)
    (m : ℕ) : Reported arrived ps n dsack (bs.take m) where
  entry p hp := h.entry p (List.mem_of_mem_take hp)
  received p hp := h.received p (List.mem_of_mem_take hp)
  above p hp := h.above p ((List.take_sublist m bs).tail.subset hp)
  first hdsack p hp := by
    cases m with
    | zero => simp at hp
    | succ m =>
      rw [List.head?_take] at hp
      exact h.first hdsack p (by simpa using hp)
  apart := by
    have hsub := List.take_sublist m bs
    have hapart := h.apart
    split_ifs at hapart ⊢
    · exact hapart.sublist hsub.tail
    · exact hapart.sublist hsub

namespace Reporting

variable {queue : List (ℕ × ℕ)}

/-- What is left of the entries when the old ones have been deleted. -/
theorem kept (h : Reporting conn arrived queue k n es) :
    Kept arrived n (es.filter (n < ·.2)) ∧
      ∀ e ∈ es.filter (n < ·.2), Within n e ∧ Within k e ∧ LiesAbove queue n e := by
  have hwithin : ∀ e ∈ es.filter (n < ·.2), Within n e ∧ Within k e ∧ LiesAbove queue n e := by
    intro e he
    obtain ⟨hmem, hlt⟩ := List.mem_filter.1 he
    obtain ⟨hle, q, hq, hbegin, hend⟩ := h.above e hmem (by simpa using hlt)
    have hbound := h.ends q hq
    have hk := h.le
    exact ⟨⟨hle, h.nonempty e hmem, by omega⟩, ⟨hk.trans hle, h.nonempty e hmem, by omega⟩,
      hle, q, hq, hbegin, hend⟩
  refine ⟨⟨fun e he ↦ ?_, fun e he ↦ ?_, h.apart.sublist List.filter_sublist⟩, hwithin⟩
  · exact (hwithin e he).1.entry le_rfl (by omega)
  · exact h.received e (List.mem_of_mem_filter he)

/-- **The new entry goes well with the old ones.** -/
theorem insertSack (h : Reporting conn arrived queue k n es) :
    ∃ bs : List (ℕ × ℕ), conn.insertSack ((es.filter (n < ·.2)).map sackAt) =
        some (bs.map sackAt) ∧
      Reported arrived queue n conn.dsackInserted bs := by
  obtain ⟨hkept, hwithin⟩ := h.kept
  generalize es.filter (n < ·.2) = old at hkept hwithin
  have hold : ∀ e ∈ old, ¬ (sackAt e).empty := fun e he ↦ not_empty_sackAt (hwithin e he).2.1
  rw [TCPConnection.insertSack, TCPConnection.dsackInserted]
  by_cases heq : conn.startSeqno = conn.endSeqno
  · refine ⟨old, if_pos heq, hkept.entry, hkept.received, ?_, ?_, ?_⟩
    · exact fun p hp ↦ (hwithin p (List.mem_of_mem_tail hp)).2.2
    · exact fun _ p hp ↦ .inr (hwithin p (List.mem_of_head? hp)).2.2
    · simpa [heq] using hkept.apart
  · obtain ⟨b, hnew, hreceived, hb⟩ := h.new heq
    rw [if_neg heq, hnew]
    by_cases hdsack : conn.sndDsack = true
    · -- the D-SACK is in front of the others
      rw [if_pos hdsack] at hb
      obtain ⟨rest, hrest, hsub⟩ := deleteContained_spec (m := old.length) le_rfl hold
      refine ⟨b :: rest, ?_, ?_, ?_, ?_, ?_, ?_⟩
      · rw [if_pos hdsack, List.length_map, hrest]
        rfl
      · exact List.forall_mem_cons.2 ⟨hb, fun e he ↦ hkept.entry e (hsub.subset he)⟩
      · exact List.forall_mem_cons.2 ⟨hreceived, fun e he ↦ hkept.received e (hsub.subset he)⟩
      · exact fun p hp ↦ (hwithin p (hsub.subset hp)).2.2
      · simp [heq, hdsack]
      · simpa [heq, hdsack] using hkept.apart.sublist hsub
    · rw [if_neg hdsack] at hb
      obtain ⟨hbk, hb⟩ := hb
      obtain ⟨rest, hrest, hsub⟩ := deleteContained_spec (m := old.length)
        (List.length_filter_le (fun e ↦ ¬ (sackAt b).contains (sackAt e)) old)
        fun e he ↦ hold e (List.mem_of_mem_filter he)
      have hrest' : ∀ e ∈ rest, e ∈ old ∧ ¬ (b.1 ≤ e.1 ∧ e.2 ≤ b.2) := by
        intro e he
        obtain ⟨hmem, hnot⟩ := List.mem_filter.1 (hsub.subset he)
        refine ⟨hmem, ?_⟩
        rw [← contains_sackAt hbk (hwithin e hmem).2.1]
        simpa using hnot
      -- what is left is in other regions
      have hapart : ∀ e ∈ rest, Apart b e := by
        intro e he
        obtain ⟨hmem, hnot⟩ := hrest' e he
        obtain ⟨hwe, -, hle, q, hq, hqe⟩ := hwithin e hmem
        rcases hb with hb | ⟨hb, -⟩
        · exact .inl (hb.trans hle)
        · have hqb : q ≠ b := fun heq ↦ hnot (heq ▸ hqe)
          by_contra hmeet
          rw [Apart, not_or, not_le, not_le] at hmeet
          have hne := hwe.nonempty
          have hnb := hbk.nonempty
          exact hqb (h.canonical.eq_of_mem (x := max b.1 e.1) hq hb ⟨by omega, by omega⟩
            ⟨by omega, by omega⟩)
      have hbn := hbk.entry h.le h.lt
      refine ⟨b :: rest, ?_, ?_, ?_, ?_, ?_, ?_⟩
      · rw [if_neg hdsack, List.length_map, deleteContained_cons _ (not_empty_sackAt hbk), hrest]
        rfl
      · exact List.forall_mem_cons.2 ⟨hbn, fun e he ↦ hkept.entry e (hrest' e he).1⟩
      · exact List.forall_mem_cons.2 ⟨hreceived, fun e he ↦ hkept.received e (hrest' e he).1⟩
      · exact fun p hp ↦ (hwithin p (hrest' p hp).1).2.2
      · rintro - p hp
        obtain rfl : b = p := by simpa using hp
        rcases hb with hb | ⟨hb, hle⟩
        · exact .inl hb
        · exact .inr ⟨hle, b, hb, le_rfl, le_rfl⟩
      · have hcons : (b :: rest).Pairwise Apart := List.pairwise_cons.2
          ⟨hapart, hkept.apart.sublist (hsub.trans List.filter_sublist)⟩
        simpa [heq, hdsack] using hcons

end Reporting

/-! ### The options of a segment -/

theorem toNat_foldl_add (l : List UInt16) (init : UInt16)
    (h : init.toNat + (l.map UInt16.toNat).sum < 2 ^ 16) :
    (l.foldl (· + ·) init).toNat = init.toNat + (l.map UInt16.toNat).sum := by
  induction l generalizing init with
  | nil => rfl
  | cons x l ih =>
    rw [List.map_cons, List.sum_cons] at h ⊢
    have hadd : (init + x).toNat = init.toNat + x.toNat := by
      rw [UInt16.toNat_add]
      omega
    rw [List.foldl_cons, ih _ (by omega), hadd]
    omega

/-- Lengths add up as long as they fit. -/
theorem headerOptionArrayLength_add (tcpseg : TCPSegment Unit) (options : List TCPOption)
    (h : tcpseg.headerOptionArrayLength +
      ((options.map TCPOption.length).map UInt16.toNat).sum < 2 ^ 16) :
    (tcpseg.addHeaderOptions options).headerOptionArrayLength =
      tcpseg.headerOptionArrayLength + ((options.map TCPOption.length).map UInt16.toNat).sum := by
  rw [TCPSegment.headerOptionArrayLength, TCPSegment.addHeaderOptions, List.map_append,
    List.foldl_append]
  exact toNat_foldl_add _ _ h

theorem blocks_add (tcpseg : TCPSegment Unit) (options : List TCPOption) :
    (tcpseg.addHeaderOptions options).blocks =
      tcpseg.blocks ++ options.flatMap TCPOption.blocks := by
  rw [TCPSegment.blocks, TCPSegment.addHeaderOptions, List.flatMap_append]
  rfl

/-- The padding and the SACK option report the items of the option. -/
theorem blocks_sackOptions (m : ℕ) (sackItem : List Sack) :
    (List.replicate m TCPOption.nop ++ [TCPOption.sack sackItem]).flatMap TCPOption.blocks =
      sackItem := by
  rw [List.flatMap_append, List.flatMap_replicate]
  simp [TCPOption.blocks, TCPOption.nop, TCPOption.sack]

theorem length_sackOptions (m : ℕ) (sackItem : List Sack) (h : sackItem.length ≤ 4) :
    (((List.replicate m TCPOption.nop ++ [TCPOption.sack sackItem]).map TCPOption.length).map
      UInt16.toNat).sum = m + (8 * sackItem.length + 2) := by
  simp [TCPOption.nop, TCPOption.sack]
  omega

/-- The entries there is space for fill the option space at most. -/
theorem padded_le {used m : ℕ} (hused : used ≤ 30) (hm : m ≤ maxnode used) :
    used + paddingBefore used + 8 * m + 2 ≤ 40 ∧ m ≤ 4 := by
  rw [maxnode] at hm
  rw [paddingBefore]
  omega

/-- **What `addSacks` does.** Its assertions hold, and what it reports is sound. -/
theorem Reporting.addSacks {queue : List (ℕ × ℕ)} (h : Reporting conn arrived queue k n es)
    {tcpseg : TCPSegment Unit} (hlen : tcpseg.headerOptionArrayLength ≤ 40)
    (hblocks : tcpseg.blocks = []) :
    ∃ (es' bs : List (ℕ × ℕ)) (tcpseg' : TCPSegment Unit), conn.addSacks tcpseg =
        some ({ conn.resetFlags with sacksArray := es'.map sackAt }, tcpseg') ∧
      Kept arrived n es' ∧ Reported arrived queue n conn.dsackInserted bs ∧
      tcpseg'.blocks = bs.map sackAt ∧ tcpseg'.headerOptionArrayLength ≤ 40 := by
  have hold : deleteOldSacks conn.rcvNxt conn.sacksArray =
      some ((es.filter (n < ·.2)).map sackAt) := by
    rw [h.rcvNxt_eq, h.sacksArray_eq]
    exact deleteOldSacks_spec h.passed fun e he hlt ↦
      (h.kept.2 e (List.mem_filter.2 ⟨he, by simpa using hlt⟩)).1
  have hnone : Reported arrived queue n conn.dsackInserted [] :=
    ⟨by simp, by simp, by simp, by simp, by simp⟩
  rw [TCPConnection.addSacks, hold]
  rcases lt_or_ge 30 tcpseg.headerOptionArrayLength with hfull | hspace
  · exact ⟨_, [], tcpseg, if_pos hfull, h.kept.1, hnone, hblocks, hlen⟩
  · obtain ⟨bs, hinsert, hreported⟩ := h.insertSack
    set m := min (bs.map sackAt).length (maxnode tcpseg.headerOptionArrayLength) with hm
    have hrest : (if conn.dsackInserted = true then (bs.map sackAt).tail else bs.map sackAt) =
        (if conn.dsackInserted = true then bs.tail else bs).map sackAt := by
      rw [apply_ite (List.map sackAt), List.map_tail]
    obtain ⟨hfits, hfour⟩ := padded_le hspace (min_le_right (bs.map sackAt).length _)
    rw [← hm] at hfits hfour
    have hitems : ((bs.map sackAt).take m).length = m :=
      List.length_take_of_le (min_le_left _ _)
    have hne : ∀ it ∈ (bs.map sackAt).take m, it.start ≠ it.stop := by
      intro it hit
      obtain ⟨p, hp, rfl⟩ := List.mem_map.1 (List.mem_of_mem_take hit)
      exact (hreported.entry p hp).ne
    rw [Option.bind_eq_bind, Option.bind_some, if_neg (not_lt.2 hspace), hinsert,
      Option.bind_eq_bind, Option.bind_some, hrest, ← hm]
    by_cases hzero : m = 0
    · exact ⟨_, [], tcpseg, if_pos hzero, hreported.kept, hnone, hblocks, hlen⟩
    · refine ⟨_, bs.take m, tcpseg.addHeaderOptions
        (List.replicate (paddingBefore tcpseg.headerOptionArrayLength) TCPOption.nop ++
          [TCPOption.sack ((bs.map sackAt).take m)]), ?_, hreported.kept, hreported.take m, ?_, ?_⟩
      · simp only [if_neg hzero, guard, if_pos hne, if_pos hfits]
        rfl
      · rw [blocks_add, hblocks, blocks_sackOptions, List.nil_append, List.map_take]
      · have hlength := length_sackOptions (paddingBefore tcpseg.headerOptionArrayLength)
          ((bs.map sackAt).take m) (by omega)
        rw [headerOptionArrayLength_add _ _ (by omega), hlength]
        omega

/-! ### Answers -/

variable {conn' : TCPConnection} {reply : Reply} {time : UInt32}

theorem updateRcvWnd_ok {window : UInt16} (h : conn.updateRcvWnd = .ok (conn', window)) :
    ∃ rcvWnd rcvAdv, conn' = { conn with rcvWnd, rcvAdv } := by
  rw [updateRcvWnd] at h
  split_ifs at h
  cases h
  exact ⟨_, _, rfl⟩

theorem length_timestampOptions (conn : TCPConnection) (time : UInt32)
    (tcpseg : TCPSegment Unit) :
    (((conn.timestampOptions tcpseg time).map TCPOption.length).map UInt16.toNat).sum ≤ 12 := by
  rw [timestampOptions]
  split_ifs <;> simp [TCPOption.timestamp, TCPOption.nop]

theorem blocks_timestampOptions (tcpseg : TCPSegment Unit) :
    (conn.timestampOptions tcpseg time).flatMap TCPOption.blocks = [] := by
  rw [timestampOptions]
  split_ifs <;> rfl

/-- The header length does not change what is reported, when the options are not too long. -/
theorem closeOptions_of_le {tcpseg : TCPSegment Unit} (h : tcpseg.headerOptionArrayLength ≤ 40) :
    (closeOptions tcpseg).headerOption = tcpseg.headerOption := by
  rw [closeOptions]
  split_ifs <;> rfl

/-- The window does not matter for the report. -/
theorem Reporting.withWindow {queue : List (ℕ × ℕ)} (h : Reporting conn arrived queue k n es)
    (rcvWnd rcvAdv : UInt32) :
    Reporting { conn with rcvWnd, rcvAdv } arrived queue k n es :=
  ⟨h.1, h.2, h.3, h.4, h.5, h.6, h.7, h.8, h.9, h.10, h.11, h.12⟩

/-- The options that are written before the SACKs report nothing. -/
theorem timestamped (conn : TCPConnection) (time : UInt32) (tcpseg : TCPSegment Unit) (hnone : tcpseg.headerOption = []) :
    (tcpseg.addHeaderOptions (conn.timestampOptions tcpseg time)).headerOptionArrayLength ≤ 40 ∧
      (tcpseg.addHeaderOptions (conn.timestampOptions tcpseg time)).blocks = [] := by
  have hzero : tcpseg.headerOptionArrayLength = 0 := by
    rw [TCPSegment.headerOptionArrayLength, hnone]
    rfl
  have hlength := length_timestampOptions conn time tcpseg
  refine ⟨?_, ?_⟩
  · rw [headerOptionArrayLength_add _ _ (by omega)]
    omega
  · rw [blocks_add, blocks_timestampOptions, TCPSegment.blocks, hnone]
    rfl

theorem closed {tcpseg : TCPSegment Unit} (h : tcpseg.headerOptionArrayLength ≤ 40) :
    (closeOptions tcpseg).headerOptionArrayLength ≤ 40 ∧
      (closeOptions tcpseg).blocks = tcpseg.blocks := by
  have heq := closeOptions_of_le h
  rw [TCPSegment.headerOptionArrayLength, TCPSegment.blocks, heq]
  exact ⟨h, rfl⟩

/-- `addSacks` changes the entries, resets the flags, and adds options. -/
theorem addSacks_ok {tcpseg tcpseg' : TCPSegment Unit}
    (h : conn.addSacks tcpseg = some (conn', tcpseg')) :
    ∃ sacksArray options, conn' = { conn.resetFlags with sacksArray } ∧
      tcpseg' = tcpseg.addHeaderOptions options := by
  have hnone : tcpseg = tcpseg.addHeaderOptions [] := by
    rw [TCPSegment.addHeaderOptions, List.append_nil]
  obtain ⟨old, -, h⟩ := Option.bind_eq_some_iff.1 h
  by_cases hfull : 40 - 10 < tcpseg.headerOptionArrayLength
  · rw [if_pos hfull] at h
    cases h
    exact ⟨_, [], rfl, hnone⟩
  · rw [if_neg hfull] at h
    obtain ⟨sacksArray, -, h⟩ := Option.bind_eq_some_iff.1 h
    by_cases hzero : min sacksArray.length (maxnode tcpseg.headerOptionArrayLength) = 0
    · simp only [if_pos hzero] at h
      cases h
      exact ⟨_, [], rfl, hnone⟩
    · simp only [if_neg hzero] at h
      obtain ⟨-, -, h⟩ := Option.bind_eq_some_iff.1 h
      obtain ⟨-, -, h⟩ := Option.bind_eq_some_iff.1 h
      cases h
      exact ⟨_, _, rfl, rfl⟩

theorem rcvNxt_of_addSacks {tcpseg tcpseg' : TCPSegment Unit}
    (h : conn.addSacks tcpseg = some (conn', tcpseg')) : conn'.rcvNxt = conn.rcvNxt := by
  obtain ⟨sacksArray, -, rfl, -⟩ := addSacks_ok h
  rfl

/-- What `writeHeaderOptions` does: the entries and the flags may change, and the header takes up to
40 bytes of options. -/
theorem writeHeaderOptions_ok {tcpseg tcpseg' : TCPSegment Unit}
    (h : conn.writeHeaderOptions tcpseg time = some (conn', tcpseg'))
    (hlength : tcpseg.headerLength = 20) :
    (conn' = conn ∨ ∃ sacksArray, conn' = { conn.resetFlags with sacksArray }) ∧
      20 ≤ tcpseg'.headerLength.toNat ∧ tcpseg'.headerLength.toNat ≤ 60 := by
  have hclose (t : TCPSegment Unit) (ht : t.headerLength = 20) :
      20 ≤ (closeOptions t).headerLength.toNat ∧ (closeOptions t).headerLength.toNat ≤ 60 := by
    have htwenty : (20 : UInt16).toNat = 20 := rfl
    rw [closeOptions]
    split_ifs with hnone hshort
    · rw [ht, htwenty]
      omega
    · show 20 ≤ (20 + UInt16.ofNat t.headerOptionArrayLength).toNat ∧
        (20 + UInt16.ofNat t.headerOptionArrayLength).toNat ≤ 60
      rw [UInt16.toNat_add, UInt16.toNat_ofNat', htwenty]
      omega
    · show 20 ≤ (20 : UInt16).toNat ∧ (20 : UInt16).toNat ≤ 60
      rw [htwenty]
      omega
  rw [writeHeaderOptions] at h
  split_ifs at h with hwrites hadds
  · obtain ⟨⟨conn₂, tcpseg₂⟩, hsacks, heq⟩ := Option.map_eq_some_iff.1 h
    obtain ⟨sacksArray, options, rfl, rfl⟩ := addSacks_ok hsacks
    cases heq
    exact ⟨.inr ⟨sacksArray, rfl⟩, hclose _ hlength⟩
  · cases h
    exact ⟨.inl rfl, hclose _ hlength⟩
  · cases h
    exact ⟨.inl rfl, hclose _ hlength⟩

/-- An answer is sent unless the window cannot be offered. -/
theorem sendAck_eq {conn₁ : TCPConnection} {window : UInt16} {tcpseg : TCPSegment Unit}
    (hwindow : conn.updateRcvWnd = .ok (conn₁, window))
    (hwrite : conn₁.writeHeaderOptions { ackBit := true, ackNo := conn₁.rcvNxt, window } time =
      some (conn', tcpseg)) :
    conn.sendAck time =
      .ok ({ conn' with ackNow := false }, ⟨conn₁.AddsSacks, conn₁.dsackInserted, tcpseg⟩) := by
  simp only [sendAck, hwindow, orRuntime, bind, Except.bind, hwrite]
  rfl

theorem sendAck_of_error {e : RuntimeError} (hwindow : conn.updateRcvWnd = .error e) :
    conn.sendAck time = .error (.runtime e) := by
  rw [sendAck, hwindow]
  rfl

/-- Whether the assertions of `addSacks` hold or not, `rcv_nxt` stays. -/
theorem sendAck_cases (time : UInt32) (hadds : conn.AddsSacks) :
    (∃ e, conn.sendAck time = .error (.runtime e)) ∨
      (∃ c, conn.sendAck time = .error (.addSacks c) ∧ c.rcvNxt = conn.rcvNxt) ∨
      ∃ conn' reply, conn.sendAck time = .ok (conn', reply) ∧ conn'.rcvNxt = conn.rcvNxt ∧
        reply.sacksAdded = true := by
  cases hwindow : conn.updateRcvWnd with
  | error e => exact .inl ⟨e, sendAck_of_error hwindow⟩
  | ok r =>
    obtain ⟨conn₁, window⟩ := r
    obtain ⟨rcvWnd, rcvAdv, rfl⟩ := updateRcvWnd_ok hwindow
    have hadds' : AddsSacks { conn with rcvWnd, rcvAdv } := hadds
    cases hwrite : TCPConnection.writeHeaderOptions { conn with rcvWnd, rcvAdv }
        { ackBit := true, ackNo := conn.rcvNxt, window } time with
    | none =>
      refine .inr (.inl ⟨{ conn with rcvWnd, rcvAdv }, ?_, rfl⟩)
      simp only [TCPConnection.sendAck, hwindow, orRuntime, bind, Except.bind, hwrite]
    | some r =>
      obtain ⟨conn', tcpseg⟩ := r
      refine .inr (.inr ⟨_, _, sendAck_eq hwindow hwrite, ?_, decide_eq_true hadds'⟩)
      rw [writeHeaderOptions, if_pos hadds.1, if_pos hadds'] at hwrite
      obtain ⟨⟨conn₂, tcpseg₂⟩, hsacks, heq⟩ := Option.map_eq_some_iff.1 hwrite
      cases heq
      have hrcvNxt : conn₂.rcvNxt = _ := rcvNxt_of_addSacks hsacks
      exact hrcvNxt

/-- **An answer that calls `addSacks`.** -/
theorem Reporting.sendAck {queue : List (ℕ × ℕ)} (h : Reporting conn arrived queue k n es)
    (time : UInt32) (hadds : conn.AddsSacks) :
    (∃ e, conn.sendAck time = .error (.runtime e)) ∨
      ∃ (conn' : TCPConnection) (reply : Reply) (es' bs : List (ℕ × ℕ)) (rcvWnd rcvAdv : UInt32),
        conn.sendAck time = .ok (conn', reply) ∧
        conn' = { conn.resetFlags with
          sacksArray := es'.map sackAt, rcvWnd, rcvAdv, ackNow := false } ∧
        Kept arrived n es' ∧ Reported arrived queue n reply.dsack bs ∧
        reply.tcpseg.blocks = bs.map sackAt ∧ reply.tcpseg.headerOptionArrayLength ≤ 40 ∧
        reply.sacksAdded = true := by
  cases hwindow : conn.updateRcvWnd with
  | error e => exact .inl ⟨e, sendAck_of_error hwindow⟩
  | ok r =>
    obtain ⟨conn₁, window⟩ := r
    obtain ⟨rcvWnd, rcvAdv, rfl⟩ := updateRcvWnd_ok hwindow
    obtain ⟨hlen, hblocks⟩ := timestamped { conn with rcvWnd, rcvAdv } time
      { ackBit := true, ackNo := conn.rcvNxt, window } rfl
    obtain ⟨es', bs, tcpseg', hsacks, hkept, hreported, hblocks', hlen'⟩ :=
      (h.withWindow rcvWnd rcvAdv).addSacks hlen hblocks
    obtain ⟨hlen'', hblocks''⟩ := closed hlen'
    have hadds' : AddsSacks { conn with rcvWnd, rcvAdv } := hadds
    have hwrite : TCPConnection.writeHeaderOptions { conn with rcvWnd, rcvAdv }
        { ackBit := true, ackNo := conn.rcvNxt, window } time =
          some ({ TCPConnection.resetFlags { conn with rcvWnd, rcvAdv } with
            sacksArray := es'.map sackAt }, closeOptions tcpseg') := by
      rw [writeHeaderOptions, if_pos hadds.1]
      simp only [if_pos hadds', hsacks]
      rfl
    exact .inr ⟨_, _, es', bs, rcvWnd, rcvAdv, sendAck_eq hwindow hwrite, rfl, hkept, hreported,
      hblocks''.trans hblocks', hlen'', decide_eq_true hadds'⟩

/-- **An answer that does not.** -/
theorem sendAck_plain (time : UInt32) (hadds : ¬ conn.AddsSacks) :
    (∃ e, conn.sendAck time = .error (.runtime e)) ∨
      ∃ (conn' : TCPConnection) (reply : Reply) (rcvWnd rcvAdv : UInt32),
        conn.sendAck time = .ok (conn', reply) ∧
        conn' = { conn with rcvWnd, rcvAdv, ackNow := false } ∧
        reply.tcpseg.blocks = [] ∧ reply.tcpseg.headerOptionArrayLength ≤ 40 ∧
        reply.sacksAdded = false := by
  cases hwindow : conn.updateRcvWnd with
  | error e => exact .inl ⟨e, sendAck_of_error hwindow⟩
  | ok r =>
    obtain ⟨conn₁, window⟩ := r
    obtain ⟨rcvWnd, rcvAdv, rfl⟩ := updateRcvWnd_ok hwindow
    have hadds' : ¬ AddsSacks { conn with rcvWnd, rcvAdv } := hadds
    have hwrite : ∃ tcpseg : TCPSegment Unit,
        TCPConnection.writeHeaderOptions { conn with rcvWnd, rcvAdv }
          { ackBit := true, ackNo := conn.rcvNxt, window } time =
            some ({ conn with rcvWnd, rcvAdv }, closeOptions tcpseg) ∧
          tcpseg.headerOptionArrayLength ≤ 40 ∧ tcpseg.blocks = [] := by
      rw [writeHeaderOptions]
      split_ifs
      · exact ⟨_, rfl, timestamped _ time { ackBit := true, ackNo := conn.rcvNxt, window } rfl⟩
      · exact ⟨_, rfl, Nat.zero_le _, rfl⟩
    obtain ⟨tcpseg, hwrite, hlen, hblocks⟩ := hwrite
    obtain ⟨hlen', hblocks'⟩ := closed hlen
    exact .inr ⟨_, _, rcvWnd, rcvAdv, sendAck_eq hwindow hwrite, rfl, hblocks'.trans hblocks, hlen',
      decide_eq_false hadds'⟩

/-- An answer does not move `rcv_nxt`. -/
theorem rcvNxt_of_sendAck (h : conn.sendAck time = .ok (conn', reply)) :
    conn'.rcvNxt = conn.rcvNxt := by
  by_cases hadds : conn.AddsSacks
  · rcases sendAck_cases time hadds with ⟨e, heq⟩ | ⟨c, heq, -⟩ | ⟨c, r, heq, hrcvNxt, -⟩
    · cases heq.symm.trans h
    · cases heq.symm.trans h
    · cases heq.symm.trans h
      exact hrcvNxt
  · rcases sendAck_plain time hadds with ⟨e, heq⟩ | ⟨c, r, rcvWnd, rcvAdv, heq, rfl, -⟩
    · cases heq.symm.trans h
    · cases heq.symm.trans h
      rfl

end TCPConnection

end Inet.Tcp
