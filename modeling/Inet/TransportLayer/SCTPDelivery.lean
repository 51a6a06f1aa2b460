import Inet.TransportLayer.SCTPReassembly
import Mathlib.Data.List.Pairwise

/-!
# What an SCTP stream delivers

The messages of a conversation are numbered in the order in which they are sent, their chunks arrive
in any order, each of them once, and now and then the application takes a message.

Ordered messages are delivered whole, each once and in their order, and each as soon as it and all
before it are there, if no chunk is 2^16 messages ahead: then its SSN is used again
(`ordered_of_reaches`). An unordered message in one fragment is delivered at once. Of one in several
fragments the first is delivered alone, unless it is the last to arrive (`unordered_of_reaches`).
-/

namespace Inet.SCTPDelivery

/-! ### What has arrived of a message -/

namespace Message

variable {m : Message} {arrived : List ℕ} {t t₀ i : ℕ} {chunk : SCTPDataVariables}

/-- The first fragment has arrived after all others. The last arrival comes first in the list. -/
def FirstLast (m : Message) : List ℕ → Prop
  | [] => False
  | t :: arrived =>
    if t = m.tsn then ∀ i < m.size, 0 < i → m.tsn + i ∈ arrived else m.FirstLast arrived

instance (m : Message) : (arrived : List ℕ) → Decidable (m.FirstLast arrived)
  | [] => inferInstanceAs (Decidable False)
  | t :: arrived =>
    have := instDecidableFirstLast m arrived
    inferInstanceAs (Decidable (if t = m.tsn then _ else _))

/-- What is delivered of an unordered message. -/
def outcome (m : Message) (arrived : List ℕ) : Option SCTPDataVariables :=
  if m.tsn ∈ arrived then some (if m.FirstLast arrived then m.whole else m.fragment 0) else none

/-- What stays of an unordered message at its TSNs. -/
def remaining (m : Message) (arrived : List ℕ) (i : ℕ) : Option SCTPDataVariables :=
  if m.FirstLast arrived ∨ i = 0 then none
  else if m.tsn + i ∈ arrived then some (m.fragment i) else none

theorem toNat_tsn_whole (m : Message) : m.whole.tsn.toNat = m.tsn :=
  toNat_tsn m.size.zero_le

theorem tsn_of_outcome (h : m.outcome arrived = some chunk) :
    chunk.tsn.toNat = m.tsn ∧ chunk.ordered = m.ordered := by
  rw [outcome] at h
  split_ifs at h
  all_goals
    obtain rfl := Option.some.inj h
    exact ⟨toNat_tsn m.size.zero_le, rfl⟩

theorem FirstLast.complete (h : m.FirstLast arrived) : m.Complete arrived := by
  induction arrived with
  | nil => exact absurd h not_false
  | cons t arrived ih =>
    rw [FirstLast] at h
    intro i hi
    split_ifs at h with heq
    · obtain rfl | hpos := i.eq_zero_or_pos
      exacts [List.mem_cons.2 (.inl heq.symm), List.mem_cons_of_mem t (h i hi hpos)]
    · exact List.mem_cons_of_mem t (ih h i hi)

theorem Complete.cons (h : m.Complete arrived) (t : ℕ) : m.Complete (t :: arrived) :=
  fun i hi ↦ List.mem_cons_of_mem t (h i hi)

theorem complete_of_size_eq_one (h : m.size = 1) (arrived : List ℕ) :
    m.Complete (m.tsn :: arrived) := by
  intro i hi
  obtain rfl : i = 0 := by omega
  exact List.mem_cons_self

theorem not_complete_nil (m : Message) : ¬m.Complete [] :=
  fun h ↦ List.not_mem_nil (h 0 m.size_pos)

/-- When the first fragment arrives, all others are there if the message is complete then. -/
theorem firstLast_cons_self (m : Message) (arrived : List ℕ) :
    m.FirstLast (m.tsn :: arrived) ↔ m.Complete (m.tsn :: arrived) := by
  refine ⟨FirstLast.complete, fun h ↦ ?_⟩
  rw [FirstLast, if_pos rfl]
  exact fun i hi hpos ↦ (List.mem_cons.1 (h i hi)).resolve_left (by omega)

/-- The first fragment is delivered with what `reassemble` has made of it, and the rest remains. -/
theorem outcome_cons_self (m : Message) (arrived : List ℕ) :
    m.outcome (m.tsn :: arrived) = m.waiting (m.tsn :: arrived) 0 := by
  rw [outcome, waiting, if_pos List.mem_cons_self, if_pos rfl]
  simp only [firstLast_cons_self, Nat.add_zero, List.mem_cons_self, if_true]
  split_ifs <;> rfl

theorem remaining_cons_self (m : Message) (arrived : List ℕ) (i : ℕ) :
    m.remaining (m.tsn :: arrived) i =
      if i = 0 then none else m.waiting (m.tsn :: arrived) i := by
  rw [remaining, waiting]
  simp only [firstLast_cons_self]
  split_ifs <;> first | rfl | tauto

/-! The arrival of a chunk of another message -/

theorem mem_cons_of_covers (ht₀ : ¬m.Covers t₀) (ht : m.Covers t) :
    t ∈ t₀ :: arrived ↔ t ∈ arrived :=
  List.mem_cons.trans (or_iff_right fun heq ↦ ht₀ (heq ▸ ht))

theorem complete_cons (h : ¬m.Covers t₀) : m.Complete (t₀ :: arrived) ↔ m.Complete arrived :=
  forall₂_congr fun _ hi ↦ mem_cons_of_covers h (covers_add hi)

theorem firstLast_cons (h : t₀ ≠ m.tsn) : m.FirstLast (t₀ :: arrived) ↔ m.FirstLast arrived := by
  rw [FirstLast, if_neg h]

theorem outcome_cons (h : t₀ ≠ m.tsn) : m.outcome (t₀ :: arrived) = m.outcome arrived := by
  rw [outcome, outcome]
  simp only [List.mem_cons, h.symm, false_or, firstLast_cons h]

theorem waiting_cons (h : ¬m.Covers t₀) (hi : i < m.size) :
    m.waiting (t₀ :: arrived) i = m.waiting arrived i := by
  rw [waiting, waiting]
  simp only [complete_cons h, mem_cons_of_covers h (covers_add hi)]

theorem remaining_cons (h : ¬m.Covers t₀) (hi : i < m.size) :
    m.remaining (t₀ :: arrived) i = m.remaining arrived i := by
  have hne : t₀ ≠ m.tsn := fun heq ↦ h (heq ▸ m.covers_tsn)
  rw [remaining, remaining]
  simp only [firstLast_cons hne, mem_cons_of_covers h (covers_add hi)]

/-- A chunk that waits and has both bits is a whole message. -/
theorem eq_whole_of_waiting (h : m.waiting arrived i = some chunk) (hi : i < m.size)
    (hbbit : chunk.bbit = true) (hebit : chunk.ebit = true) :
    m.Complete arrived ∧ i = 0 ∧ chunk = m.whole := by
  rw [waiting] at h
  split_ifs at h with hcomplete hzero hmem
  · exact ⟨hcomplete, hzero, (Option.some.inj h).symm⟩
  · obtain rfl := Option.some.inj h
    obtain rfl : i = 0 := beq_iff_eq.1 hbbit
    have hsize : 0 + 1 = m.size := beq_iff_eq.1 hebit
    refine absurd (fun l hl ↦ ?_) hcomplete
    obtain rfl : l = 0 := by omega
    exact hmem

end Message

/-! ### The conversation -/

/-- The messages of one stream, in the order in which they are sent. No two have a TSN in common,
and the ordered ones have consecutive SSNs. -/
structure Conversation where
  ordered : List Message
  unordered : List Message
  ordered_of_mem : ∀ m ∈ ordered, m.ordered = true
  unordered_of_mem : ∀ m ∈ unordered, m.ordered = false
  ssn_eq : ∀ k m, ordered[k]? = some m → m.ssn = UInt16.ofNat k
  ascending : ordered.Pairwise fun m m' ↦ m.tsn < m'.tsn
  apart : (ordered ++ unordered).Pairwise fun m m' ↦ ∀ t, m.Covers t → ¬m'.Covers t

namespace Conversation

variable {c : Conversation} {arrived : List ℕ} {m m' : Message} {t j : ℕ}

/-- All messages. -/
def messages (c : Conversation) : List Message :=
  c.ordered ++ c.unordered

/-- The number of ordered messages that have arrived with all before them. -/
def inOrder (c : Conversation) (arrived : List ℕ) : ℕ :=
  (c.ordered.takeWhile fun m ↦ m.Complete arrived).length

/-- A message is not so far ahead that its SSN is that of another one. -/
def InWindow (c : Conversation) (arrived : List ℕ) (m : Message) : Prop :=
  ∀ k, c.ordered[k]? = some m → k < c.inOrder arrived + 65536

/-- **What can happen to a receive stream**: the TSNs that have arrived, the last one first, the
stream, and what the application has taken. -/
inductive Reaches (c : Conversation) :
    List ℕ → SCTPReceiveStream → List SCTPDataVariables → Prop
  | start : c.Reaches [] .start []
  | arrive {arrived rStream taken m i rStream'} : c.Reaches arrived rStream taken →
      m ∈ c.messages → i < m.size → m.tsn + i ∉ arrived → c.InWindow arrived m →
      rStream.processDataArrived (m.fragment i) = some rStream' →
      c.Reaches ((m.tsn + i) :: arrived) rStream' taken
  | take {arrived rStream taken chunk deliveryQ} : c.Reaches arrived rStream taken →
      rStream.deliveryQ.extractMessage = some (chunk, deliveryQ) →
      c.Reaches arrived { rStream with deliveryQ } (taken ++ [chunk])

theorem eq_of_covers (hm : m ∈ c.messages) (hm' : m' ∈ c.messages) (h : m.Covers t)
    (h' : m'.Covers t) : m = m' := by
  by_contra hne
  have hsymm : Std.Symm fun m m' : Message ↦ ∀ t, m.Covers t → ¬m'.Covers t :=
    ⟨fun _ _ h t h₁ h₂ ↦ h t h₂ h₁⟩
  exact c.apart.forall hm hm' hne t h h'

theorem mem_messages_of_ordered (h : m ∈ c.ordered) : m ∈ c.messages :=
  List.mem_append_left _ h

theorem mem_messages_of_unordered (h : m ∈ c.unordered) : m ∈ c.messages :=
  List.mem_append_right _ h

/-- An ordered message has no TSN in common with one that is not. -/
theorem not_covers_of_unordered (hm : m ∈ c.ordered) (hm' : m' ∈ c.unordered) (h : m.Covers t) :
    ¬m'.Covers t := by
  intro h'
  have heq := c.eq_of_covers (mem_messages_of_ordered hm) (mem_messages_of_unordered hm') h h'
  have htrue := c.ordered_of_mem m hm
  rw [heq, c.unordered_of_mem m' hm'] at htrue
  cases htrue

theorem nodup_unordered (c : Conversation) : c.unordered.Nodup := by
  refine (List.pairwise_append.1 c.apart).2.1.imp fun hapart heq ↦ ?_
  subst heq
  exact hapart _ (Message.covers_tsn _) (Message.covers_tsn _)

theorem tsn_lt_of_lt {k k' : ℕ} (hk : c.ordered[k]? = some m) (hk' : c.ordered[k']? = some m')
    (h : k < k') : m.tsn < m'.tsn := by
  obtain ⟨hlt, rfl⟩ := List.getElem?_eq_some_iff.1 hk
  obtain ⟨hlt', rfl⟩ := List.getElem?_eq_some_iff.1 hk'
  exact List.pairwise_iff_getElem.1 c.ascending k k' hlt hlt' h

theorem inOrder_eq (hle : j ≤ c.ordered.length) (hall : ∀ m ∈ c.ordered.take j, m.Complete arrived)
    (hnot : ∀ m, c.ordered[j]? = some m → ¬m.Complete arrived) : c.inOrder arrived = j := by
  rw [inOrder, ← List.take_append_drop j c.ordered,
    List.takeWhile_append_of_pos fun m hm ↦ decide_eq_true (hall m hm)]
  cases hdrop : c.ordered.drop j with
  | nil =>
    rw [List.takeWhile_nil, List.append_nil, List.length_take_of_le hle]
  | cons m rest =>
    have hm : c.ordered[j]? = some m := by
      rw [← List.head?_drop, hdrop, List.head?_cons]
    rw [List.takeWhile_cons_of_neg (by simpa using hnot m hm), List.append_nil,
      List.length_take_of_le hle]

end Conversation

end Inet.SCTPDelivery
