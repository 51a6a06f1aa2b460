import Inet.Foundations.Fallible
import Inet.Foundations.ServiceQueue
import Inet.Foundations.TransitionSystem
import Inet.LinkLayer.DuplicateDetectors
import Inet.LinkLayer.Fragmentation

/-!
# The transmission queue

`DcfUpperMac` puts frames into a queue while it exchanges one, and takes the first one out when it is
finished. With `prioritizeMulticast` management frames are to go first, then multicast frames, and
the others last.

The comparison of the queue looks for the kind of the new frame in place of the kind of the other
one. So a new management frame goes behind everything, and a multicast frame passes management
frames that are not multicast. What it takes that the queue is served in order all the same is
`servesByClass`; for which frames it is an order say `MacUtils.cmp_antisymm_iff` and
`MacUtils.cmp_trans_iff`.
-/

namespace Inet

open ServiceQueue

namespace Ieee80211Header

/-- `dynamic_cast<Ieee80211ManagementFrame *>(frame)`. -/
def isManagementFrame (frame : Ieee80211Header) : Bool :=
  frame.type = .management

/-- Management frames are served before multicast ones, and these before all others. -/
def serviceClass (frame : Ieee80211Header) : ℕ :=
  if frame.isManagementFrame then 2 else if frame.receiverAddress.isMulticast then 1 else 0

end Ieee80211Header

namespace MacUtils

/-- `MacUtils::cmpMgmtOverData`. -/
def cmpMgmtOverData (a b : Ieee80211Header) : ℤ :=
  let aPri := if a.isManagementFrame then 1 else 0
  let bPri := if b.isManagementFrame then 1 else 0
  bPri - aPri

/-- `MacUtils::cmpMgmtOverMulticastOverUnicast`. -/
def cmpMgmtOverMulticastOverUnicast (a b : Ieee80211Header) : ℤ :=
  let aPri := if a.isManagementFrame then 2 else if a.receiverAddress.isMulticast then 1 else 0
  let bPri := if a.isManagementFrame then 2 else if b.receiverAddress.isMulticast then 1 else 0
  bPri - aPri

end MacUtils

/-- A frame to be sent: a whole one, or a fragment. -/
inductive TxFrame
  | whole (frame : PlainFrame)
  | fragment (frame : FragmentFrame)
  deriving DecidableEq

/-- The header of either. -/
def TxFrame.header : TxFrame → Ieee80211Header
  | whole frame => frame.toIeee80211Header
  | fragment frame => frame.toIeee80211Header

/-- A frame with the number of the call of `enqueue` that it came with. -/
structure EnqueuedFrame where
  number : ℕ
  frame : TxFrame
  deriving DecidableEq

/-- The class of the frame. -/
def EnqueuedFrame.serviceClass (x : EnqueuedFrame) : ℕ :=
  x.frame.header.serviceClass

/-- The parameters of a `DcfUpperMac` that the queue depends on. -/
structure DcfParameters where
  address : MACAddress
  maxQueueSize : ℤ
  fragmentationThreshold : ℤ := 2346
  prioritizeMulticast : Bool

/-- What ends the simulation. -/
inductive DcfError
  | assertionFailed
  | duplicateDetection (error : DuplicateDetectorError)
  | fragmentation (error : FragmentationError)
  deriving DecidableEq, Repr

/-- `class DcfUpperMac`, with the number of calls of `enqueue`. -/
structure DcfUpperMac where
  frameExchange : Option EnqueuedFrame := none
  transmissionQueue : List EnqueuedFrame := []
  duplicateDetection : NonQoSDuplicateDetector := {}
  enqueued : ℕ := 0

/-- What happens to it. -/
inductive DcfEvent
  | upperFrameReceived (frame : PlainFrame)
  | frameExchangeFinished
  deriving DecidableEq

namespace DcfUpperMac

/-- The new element precedes the other one under the comparison of the queue. -/
def precedes (P : DcfParameters) (x y : EnqueuedFrame) : Bool :=
  let compare := if P.prioritizeMulticast then MacUtils.cmpMgmtOverMulticastOverUnicast
    else MacUtils.cmpMgmtOverData
  compare x.frame.header y.frame.header < 0

/-- `DcfUpperMac::enqueue`. -/
def enqueue (P : DcfParameters) (s : DcfUpperMac) (frame : TxFrame) : DcfUpperMac :=
  let x := ⟨s.enqueued, frame⟩
  if s.frameExchange.isSome then
    { s with
      transmissionQueue := insert (precedes P) x s.transmissionQueue
      enqueued := s.enqueued + 1 }
  else { s with frameExchange := some x, enqueued := s.enqueued + 1 }

/-- A data frame that finds the queue full. -/
def Drops (P : DcfParameters) (s : DcfUpperMac) (frame : PlainFrame) : Prop :=
  P.maxQueueSize > 0 ∧ (s.transmissionQueue.length : ℤ) ≥ P.maxQueueSize ∧
    frame.isManagementFrame = false

instance (P : DcfParameters) (s : DcfUpperMac) (frame : PlainFrame) : Decidable (s.Drops P frame) :=
  inferInstanceAs (Decidable (_ ∧ _ ∧ _))

/-- What is sent of a frame. -/
def toSend (P : DcfParameters) (frame : PlainFrame) : Except FragmentationError (List TxFrame) :=
  if frame.byteLength ≤ P.fragmentationThreshold then .ok [.whole frame]
  else do
    let fragments ← BasicFragmentation.fragment frame P.fragmentationThreshold
    return fragments.map .fragment

/-- `DcfUpperMac::upperFrameReceived`. -/
def upperFrameReceived (P : DcfParameters) (s : DcfUpperMac) (frame : PlainFrame) :
    Except DcfError DcfUpperMac :=
  if s.Drops P frame then .ok s
  else if frame.receiverAddress.address = 0 then .error .assertionFailed
  else do
    let frame := { frame with transmitterAddress := P.address }
    let (header, duplicateDetection) ←
      (s.duplicateDetection.assignSequenceNumber frame.toIeee80211Header).mapError
        .duplicateDetection
    let frames ← (toSend P { frame with toIeee80211Header := header }).mapError .fragmentation
    return frames.foldl (enqueue P) { s with duplicateDetection }

/-- `DcfUpperMac::frameExchangeFinished`, with the frame that is taken out of the queue. -/
def frameExchangeFinished (s : DcfUpperMac) : DcfUpperMac × Option EnqueuedFrame :=
  match s.transmissionQueue with
  | [] => ({ s with frameExchange := none }, none)
  | x :: queue => ({ s with frameExchange := some x, transmissionQueue := queue }, some x)

/-- The frames that come from above and the exchanges that finish, in any order. -/
def system (P : DcfParameters) : TransitionSystem DcfUpperMac DcfEvent (Option EnqueuedFrame) where
  Init s := s.frameExchange = none ∧ s.transmissionQueue = [] ∧ s.enqueued = 0
  Step s
    | .upperFrameReceived frame, popped, s' => popped = none ∧ s.upperFrameReceived P frame = .ok s'
    | .frameExchangeFinished, popped, s' =>
      s.frameExchange.isSome ∧ s.frameExchangeFinished = (s', popped)

/-! ### One frame -/

/-- The queue is in the order in which it is to be served. -/
def InOrder (queue : List EnqueuedFrame) : Prop :=
  ServiceQueue.InOrder EnqueuedFrame.serviceClass EnqueuedFrame.number queue

/-- A frame goes where it is to be served: before a management frame there is no data frame, and a
multicast frame meets another one before it meets a management frame that is not multicast. -/
def FitsIn (queue : List EnqueuedFrame) (frame : Ieee80211Header) : Prop :=
  if frame.isManagementFrame then ∀ y ∈ queue, y.frame.header.isManagementFrame
  else frame.receiverAddress.isMulticast →
    ∀ y ∈ queue, y.frame.header.isManagementFrame → ¬ y.frame.header.receiverAddress.isMulticast →
      ∃ z ∈ queue, z.frame.header.receiverAddress.isMulticast ∧
        ServedBefore EnqueuedFrame.serviceClass EnqueuedFrame.number y z

variable {P : DcfParameters} {s s' : DcfUpperMac} {x : EnqueuedFrame} {queue : List EnqueuedFrame}

theorem precedes_iff (hP : P.prioritizeMulticast = true) (x y : EnqueuedFrame) :
    precedes P x y = true ↔ ¬ x.frame.header.isManagementFrame ∧
      x.frame.header.receiverAddress.isMulticast ∧ ¬ y.frame.header.receiverAddress.isMulticast := by
  rw [precedes, hP, if_pos rfl, decide_eq_true_eq, MacUtils.cmpMgmtOverMulticastOverUnicast]
  by_cases hm : x.frame.header.isManagementFrame <;>
    by_cases hx : x.frame.header.receiverAddress.isMulticast <;>
    by_cases hy : y.frame.header.receiverAddress.isMulticast <;> simp [hm, hx, hy]

theorem le_serviceClass_iff {y : EnqueuedFrame} :
    2 ≤ y.serviceClass ↔ y.frame.header.isManagementFrame := by
  rw [EnqueuedFrame.serviceClass, Ieee80211Header.serviceClass]
  split_ifs with hm hx <;> simp [hm]

theorem one_le_serviceClass_iff {y : EnqueuedFrame} :
    1 ≤ y.serviceClass ↔
      y.frame.header.isManagementFrame ∨ y.frame.header.receiverAddress.isMulticast := by
  rw [EnqueuedFrame.serviceClass, Ieee80211Header.serviceClass]
  split_ifs with hm hx
  · simp [hm]
  · simp [hx]
  · simp [hm, hx]

/-- A frame that passes none. -/
theorem inOrder_insert_of_not_precedes (hqueue : InOrder queue)
    (hnew : ∀ y ∈ queue, y.number < x.number) (hnone : ∀ y, ¬ precedes P x y) :
    InOrder (insert (precedes P) x queue) ↔ ∀ y ∈ queue, x.serviceClass ≤ y.serviceClass := by
  have hdrop : queue.rdropWhile (precedes P x) = queue :=
    List.rdropWhile_eq_self_iff.2 fun _ ↦ hnone _
  have htake : queue.rtakeWhile (precedes P x) = [] :=
    List.rtakeWhile_eq_nil_iff.2 fun _ ↦ hnone _
  rw [InOrder, inOrder_insert_iff hqueue hnew, hdrop, htake]
  simp

/-- A multicast frame passes those that are not multicast. -/
theorem inOrder_insert_of_multicast (hP : P.prioritizeMulticast = true) (hqueue : InOrder queue)
    (hnew : ∀ y ∈ queue, y.number < x.number) (hdata : ¬ x.frame.header.isManagementFrame)
    (hmulticast : x.frame.header.receiverAddress.isMulticast) :
    InOrder (insert (precedes P) x queue) ↔ ∀ y ∈ queue, y.frame.header.isManagementFrame →
      ¬ y.frame.header.receiverAddress.isMulticast → ∃ z ∈ queue,
        z.frame.header.receiverAddress.isMulticast ∧
          ServedBefore EnqueuedFrame.serviceClass EnqueuedFrame.number y z := by
  have hpasses (y : EnqueuedFrame) :
      precedes P x y = true ↔ ¬ y.frame.header.receiverAddress.isMulticast := by
    rw [precedes_iff hP, and_iff_right hdata, and_iff_right hmulticast]
  have hclass : x.serviceClass = 1 := by
    rw [EnqueuedFrame.serviceClass, Ieee80211Header.serviceClass, if_neg hdata, if_pos hmulticast]
  have hsplit := List.rdropWhile_append_rtakeWhile (p := precedes P x) (l := queue)
  have hpairs : (queue.rdropWhile (precedes P x) ++ queue.rtakeWhile (precedes P x)).Pairwise
      (ServedBefore EnqueuedFrame.serviceClass EnqueuedFrame.number) := by rwa [hsplit]
  rw [List.pairwise_append] at hpairs
  -- the last frame that is not passed is multicast
  have hlast (y) (hy : y ∈ queue.rdropWhile (precedes P x))
      (hnot : ¬ y.frame.header.receiverAddress.isMulticast) :
      ∃ z ∈ queue.rdropWhile (precedes P x), z.frame.header.receiverAddress.isMulticast ∧
        ServedBefore EnqueuedFrame.serviceClass EnqueuedFrame.number y z := by
    have hne : queue.rdropWhile (precedes P x) ≠ [] := List.ne_nil_of_mem hy
    have hstop := List.rdropWhile_last_not (precedes P x) queue hne
    rw [hpasses, not_not] at hstop
    rw [← List.dropLast_append_getLast hne, List.mem_append, List.mem_singleton] at hy
    have hbefore := hpairs.1
    rw [← List.dropLast_append_getLast hne, List.pairwise_append] at hbefore
    rcases hy with hy | rfl
    · exact ⟨_, List.getLast_mem hne, hstop, hbefore.2.2 y hy _ (List.mem_singleton_self _)⟩
    · exact absurd hstop hnot
  have hfirst : ∀ y ∈ queue.rdropWhile (precedes P x), x.serviceClass ≤ y.serviceClass := by
    intro y hy
    rw [hclass]
    by_cases hy' : y.frame.header.receiverAddress.isMulticast
    · exact one_le_serviceClass_iff.2 (.inr hy')
    · obtain ⟨z, -, hz, hlt | ⟨heq, -⟩⟩ := hlast y hy hy'
      · exact (one_le_serviceClass_iff.2 (.inr hz)).trans hlt.le
      · exact (one_le_serviceClass_iff.2 (.inr hz)).trans heq.ge
  have hpassed (y) (hy : y ∈ queue.rtakeWhile (precedes P x)) :
      ¬ y.frame.header.receiverAddress.isMulticast := (hpasses y).1 (List.mem_rtakeWhile_imp hy)
  rw [InOrder, inOrder_insert_iff hqueue hnew, and_iff_right hfirst, hclass]
  constructor
  · intro hlower y hy hmgmt hnot
    rw [← hsplit, List.mem_append] at hy
    rcases hy with hy | hy
    · obtain ⟨z, hz, hz', hbefore⟩ := hlast y hy hnot
      exact ⟨z, hsplit ▸ List.mem_append_left _ hz, hz', hbefore⟩
    · exact absurd (one_le_serviceClass_iff.2 (.inl hmgmt)) (hlower y hy).not_ge
  · intro hfits y hy
    rw [← not_le, one_le_serviceClass_iff, not_or]
    refine ⟨fun hmgmt ↦ ?_, hpassed y hy⟩
    obtain ⟨z, hz, hz', hbefore⟩ :=
      hfits y (hsplit ▸ List.mem_append_right _ hy) hmgmt (hpassed y hy)
    rw [← hsplit, List.mem_append] at hz
    rcases hz with hz | hz
    · exact hbefore.asymm (hpairs.2.2 z hz y hy)
    · exact hpassed z hz hz'

/-- **A new frame keeps the order** exactly if it fits in. -/
theorem inOrder_insert_iff_fitsIn (hP : P.prioritizeMulticast = true) (hqueue : InOrder queue)
    (hnew : ∀ y ∈ queue, y.number < x.number) :
    InOrder (insert (precedes P) x queue) ↔ FitsIn queue x.frame.header := by
  rw [FitsIn]
  split_ifs with hmgmt
  · rw [inOrder_insert_of_not_precedes hqueue hnew fun y ↦ by simp [precedes_iff hP, hmgmt]]
    have hclass : x.serviceClass = 2 := by
      rw [EnqueuedFrame.serviceClass, Ieee80211Header.serviceClass, if_pos hmgmt]
    rw [hclass]
    exact forall₂_congr fun y _ ↦ le_serviceClass_iff
  · by_cases hmulticast : x.frame.header.receiverAddress.isMulticast
    · rw [inOrder_insert_of_multicast hP hqueue hnew hmgmt hmulticast, forall_prop_of_true hmulticast]
    · rw [inOrder_insert_of_not_precedes hqueue hnew fun y ↦ by simp [precedes_iff hP, hmulticast]]
      have hclass : x.serviceClass = 0 := by
        rw [EnqueuedFrame.serviceClass, Ieee80211Header.serviceClass, if_neg hmgmt,
          if_neg hmulticast]
      simp [hclass, hmulticast]

/-! ### The frames of a call -/

/-- What holds of the queue in any order: it is empty as long as nothing is sent, and the next
number is a new one. -/
structure Numbered (s : DcfUpperMac) : Prop where
  idle : s.frameExchange = none → s.transmissionQueue = []
  number_lt : ∀ y ∈ s.transmissionQueue, y.number < s.enqueued

/-- Frames of a kind go to the same place. -/
def SameKind (f g : Ieee80211Header) : Prop :=
  f.isManagementFrame = g.isManagementFrame ∧ f.receiverAddress = g.receiverAddress

theorem FitsIn.congr {f g : Ieee80211Header} (h : SameKind f g) :
    FitsIn queue f ↔ FitsIn queue g := by
  rw [FitsIn, FitsIn, h.1, h.2]

theorem enqueue_of_idle {frame : TxFrame} (h : s.frameExchange = none) :
    s.enqueue P frame =
      { s with frameExchange := some ⟨s.enqueued, frame⟩, enqueued := s.enqueued + 1 } := by
  rw [enqueue, h]
  rfl

theorem enqueue_of_busy {frame : TxFrame} (h : s.frameExchange.isSome) :
    s.enqueue P frame =
      { s with
        transmissionQueue := insert (precedes P) ⟨s.enqueued, frame⟩ s.transmissionQueue
        enqueued := s.enqueued + 1 } :=
  if_pos h

theorem Numbered.enqueue (hs : Numbered s) (P : DcfParameters) (frame : TxFrame) :
    Numbered (s.enqueue P frame) := by
  rcases hexchange : s.frameExchange with _ | x
  · rw [enqueue_of_idle hexchange]
    exact ⟨fun h ↦ absurd h (by simp), by simp [hs.idle hexchange]⟩
  · rw [enqueue_of_busy (by simp [hexchange])]
    refine ⟨fun h ↦ absurd h (by simp [hexchange]), fun y hy ↦ ?_⟩
    rcases mem_insert.1 hy with rfl | hy
    · exact Nat.lt_succ_self _
    · exact (hs.number_lt y hy).trans (Nat.lt_succ_self _)

theorem sublist_enqueue (P : DcfParameters) (s : DcfUpperMac) (frame : TxFrame) :
    s.transmissionQueue.Sublist (s.enqueue P frame).transmissionQueue := by
  rcases hexchange : s.frameExchange with _ | x
  · rw [enqueue_of_idle hexchange]
  · rw [enqueue_of_busy (by simp [hexchange])]
    exact sublist_insert _ _ _

theorem inOrder_enqueue_iff (hP : P.prioritizeMulticast = true) (hs : Numbered s)
    (hqueue : InOrder s.transmissionQueue) {frame : TxFrame} :
    InOrder (s.enqueue P frame).transmissionQueue ↔ FitsIn s.transmissionQueue frame.header := by
  rcases hexchange : s.frameExchange with _ | x
  · rw [enqueue_of_idle hexchange, hs.idle hexchange]
    refine iff_of_true List.Pairwise.nil ?_
    rw [FitsIn]
    split_ifs <;> simp
  · rw [enqueue_of_busy (by simp [hexchange])]
    exact inOrder_insert_iff_fitsIn hP hqueue hs.number_lt

/-- Behind a frame that fits in, others of its kind do. -/
theorem FitsIn.enqueue {f : TxFrame} {kind : Ieee80211Header}
    (hkind : SameKind f.header kind) (hfits : FitsIn s.transmissionQueue kind) :
    FitsIn (s.enqueue P f).transmissionQueue kind := by
  rw [← FitsIn.congr hkind] at hfits ⊢
  rcases hexchange : s.frameExchange with _ | x
  · rwa [enqueue_of_idle hexchange]
  · rw [enqueue_of_busy (by simp [hexchange])]
    rw [FitsIn] at hfits ⊢
    split_ifs at hfits ⊢ with hmgmt
    · intro y hy
      rcases mem_insert.1 hy with rfl | hy
      exacts [hmgmt, hfits y hy]
    · intro hmulticast y hy hmgmt' hnot
      rcases mem_insert.1 hy with rfl | hy
      · exact absurd hmgmt' hmgmt
      · obtain ⟨z, hz, hrest⟩ := hfits hmulticast y hy hmgmt' hnot
        exact ⟨z, mem_insert.2 (.inr hz), hrest⟩

theorem Numbered.foldl_enqueue (hs : Numbered s) (P : DcfParameters) (frames : List TxFrame) :
    Numbered (frames.foldl (DcfUpperMac.enqueue P) s) := by
  induction frames generalizing s with
  | nil => exact hs
  | cons f frames ih => exact ih (hs.enqueue P f)

theorem sublist_foldl_enqueue (P : DcfParameters) (s : DcfUpperMac) (frames : List TxFrame) :
    s.transmissionQueue.Sublist (frames.foldl (enqueue P) s).transmissionQueue := by
  induction frames generalizing s with
  | nil => exact List.Sublist.refl _
  | cons f frames ih => exact (sublist_enqueue P s f).trans (ih _)

theorem inOrder_foldl_enqueue (hP : P.prioritizeMulticast = true) (hs : Numbered s)
    (hqueue : InOrder s.transmissionQueue) {frames : List TxFrame} {kind : Ieee80211Header}
    (hkind : ∀ f ∈ frames, SameKind f.header kind) (hfits : FitsIn s.transmissionQueue kind) :
    InOrder (frames.foldl (enqueue P) s).transmissionQueue := by
  induction frames generalizing s with
  | nil => exact hqueue
  | cons f frames ih =>
    obtain ⟨hf, hkind⟩ := List.forall_mem_cons.1 hkind
    exact ih (hs.enqueue P f)
      ((inOrder_enqueue_iff hP hs hqueue).2 ((FitsIn.congr hf).2 hfits)) hkind (hfits.enqueue hf)

/-- The frames of a call, all of one kind. -/
theorem inOrder_foldl_enqueue_iff (hP : P.prioritizeMulticast = true) (hs : Numbered s)
    (hqueue : InOrder s.transmissionQueue) {frames : List TxFrame} {kind : Ieee80211Header}
    (hne : frames ≠ []) (hkind : ∀ f ∈ frames, SameKind f.header kind) :
    InOrder (frames.foldl (enqueue P) s).transmissionQueue ↔ FitsIn s.transmissionQueue kind := by
  refine ⟨fun horder ↦ ?_, inOrder_foldl_enqueue hP hs hqueue hkind⟩
  obtain ⟨f, frames, rfl⟩ := List.exists_cons_of_ne_nil hne
  -- what the first frame has spoilt is not put right by the others
  have hfirst : InOrder (s.enqueue P f).transmissionQueue :=
    horder.sublist (sublist_foldl_enqueue P _ frames)
  exact (FitsIn.congr (hkind f List.mem_cons_self)).1 ((inOrder_enqueue_iff hP hs hqueue).1 hfirst)

theorem sameKind_of_mem_cutFragments {header : Ieee80211Header} {threshold headerLength : ℤ}
    {f : FragmentFrame} (turns i : ℕ) {payloadLength : ℤ} (hf : f ∈
      (BasicFragmentation.cutFragments header threshold headerLength turns i payloadLength).1) :
    SameKind f.toIeee80211Header header := by
  induction turns generalizing i payloadLength with
  | zero => simp [BasicFragmentation.cutFragments] at hf
  | succ turns ih =>
    rw [BasicFragmentation.cutFragments] at hf
    split_ifs at hf
    · rcases List.mem_cons.1 hf with rfl | hf
      · exact ⟨rfl, rfl⟩
      · exact ih _ hf
    · simp at hf

theorem toIeee80211Header_of_decapsulate {frame header : PlainFrame}
    {packet : Option UpperPacket} {packetLength : UpperPacket → ℤ}
    (h : frame.decapsulate packetLength = some (packet, header)) :
    header.toIeee80211Header = frame.toIeee80211Header := by
  rw [Ieee80211DataOrMgmtFrame.decapsulate] at h
  rcases hpacket : frame.encapsulatedPacket with _ | p
  · simp only [hpacket] at h
    obtain ⟨-, rfl⟩ := Prod.mk.inj (Option.some.inj h)
    rfl
  · simp only [hpacket] at h
    split_ifs at h
    all_goals
      obtain ⟨-, rfl⟩ := Prod.mk.inj (Option.some.inj h)
      rfl

/-- What is sent of a frame is of its kind. -/
theorem sameKind_of_toSend {frame : PlainFrame} {frames : List TxFrame}
    (h : toSend P frame = .ok frames) :
    frames ≠ [] ∧ ∀ f ∈ frames, SameKind f.header frame.toIeee80211Header := by
  rw [toSend] at h
  split_ifs at h
  · obtain rfl := Except.ok.inj h
    exact ⟨by simp, by simp [TxFrame.header, SameKind]⟩
  · obtain ⟨fragments, hfragments, hmap⟩ := exists_of_bind_eq_ok h
    obtain rfl := Except.ok.inj hmap
    rw [BasicFragmentation.fragment] at hfragments
    rcases hheader : frame.decapsulate fun packet ↦ packet.byteLength with
      _ | ⟨_ | payload, fragmentHeader⟩
    · simp [hheader] at hfragments
    · simp [hheader] at hfragments
    · simp only [hheader] at hfragments
      split_ifs at hfragments
      obtain rfl := Except.ok.inj hfragments
      rw [← toIeee80211Header_of_decapsulate hheader]
      refine ⟨by simp, fun f hf ↦ ?_⟩
      obtain ⟨g, hg, rfl⟩ := List.mem_map.1 hf
      rcases List.mem_append.1 hg with hg | hg
      · exact sameKind_of_mem_cutFragments _ _ hg
      · obtain rfl := List.mem_singleton.1 hg
        exact ⟨rfl, rfl⟩

/-- A frame that is not dropped has a number and is sent. -/
theorem upperFrameReceived_of_ok {frame : PlainFrame}
    (h : s.upperFrameReceived P frame = .ok s') :
    s.Drops P frame ∧ s' = s ∨ ¬ s.Drops P frame ∧ ∃ duplicateDetection frames, frames ≠ [] ∧
      (∀ f ∈ frames, SameKind f.header frame.toIeee80211Header) ∧
      s' = frames.foldl (enqueue P) { s with duplicateDetection } := by
  rw [upperFrameReceived] at h
  split_ifs at h with hdrops
  · exact .inl ⟨hdrops, (Except.ok.inj h).symm⟩
  · refine .inr ⟨hdrops, ?_⟩
    obtain ⟨⟨header, duplicateDetection⟩, hheader, hrest⟩ := exists_of_bind_eq_ok h
    obtain ⟨frames, hframes, hfold⟩ := exists_of_bind_eq_ok hrest
    obtain rfl := Except.ok.inj hfold
    have hheader := eq_ok_of_mapError_eq_ok hheader
    rw [NonQoSDuplicateDetector.assignSequenceNumber] at hheader
    split_ifs at hheader
    obtain ⟨rfl, rfl⟩ := Prod.mk.inj (Except.ok.inj hheader)
    obtain ⟨hne, hkind⟩ := sameKind_of_toSend (eq_ok_of_mapError_eq_ok hframes)
    exact ⟨_, frames, hne, hkind, rfl⟩

/-! ### Runs -/

/-- A frame that comes from above fits in, unless it is dropped. -/
def Fits (P : DcfParameters) (t : Transition DcfUpperMac DcfEvent (Option EnqueuedFrame)) : Prop :=
  ∀ frame, t.input = .upperFrameReceived frame → ¬ t.pre.Drops P frame →
    FitsIn t.pre.transmissionQueue frame.toIeee80211Header

/-- A frame that is taken out of the queue is one of the highest class there, and the oldest of
that class. -/
def ServesFirst (t : Transition DcfUpperMac DcfEvent (Option EnqueuedFrame)) : Prop :=
  ∀ x, t.output = some x → x ∈ t.pre.transmissionQueue ∧ ∀ y ∈ t.pre.transmissionQueue,
    y.serviceClass ≤ x.serviceClass ∧ (y.serviceClass = x.serviceClass → x.number ≤ y.number)

variable {e : DcfEvent} {popped : Option EnqueuedFrame}
  {tr : List (Transition DcfUpperMac DcfEvent (Option EnqueuedFrame))}

theorem Numbered.step (hs : Numbered s) (h : (system P).Step s e popped s') : Numbered s' := by
  rcases e with frame | _
  · obtain ⟨-, h⟩ := h
    rcases upperFrameReceived_of_ok h with ⟨-, rfl⟩ | ⟨-, duplicateDetection, frames, -, -, rfl⟩
    · exact hs
    · exact Numbered.foldl_enqueue (s := { s with duplicateDetection }) ⟨hs.idle, hs.number_lt⟩ P frames
  · obtain ⟨-, h⟩ := h
    rw [frameExchangeFinished] at h
    rcases hqueue : s.transmissionQueue with _ | ⟨x, queue⟩
    · rw [hqueue] at h
      obtain ⟨rfl, -⟩ := Prod.mk.inj h
      exact ⟨fun _ ↦ rfl, by simp⟩
    · rw [hqueue] at h
      obtain ⟨rfl, -⟩ := Prod.mk.inj h
      exact ⟨fun h ↦ absurd h (by simp),
        fun y hy ↦ hs.number_lt y (hqueue ▸ List.mem_cons_of_mem x hy)⟩

theorem numbered_of_run (h : (system P).Run tr s) : Numbered s :=
  h.invariant (fun s hs ↦ ⟨fun _ ↦ hs.2.1, by simp [hs.2.1]⟩) fun _ _ _ _ hs hstep ↦ hs.step hstep

/-- One event. -/
theorem inOrder_step (hP : P.prioritizeMulticast = true) (hs : Numbered s)
    (hqueue : InOrder s.transmissionQueue) (h : (system P).Step s e popped s') :
    (InOrder s'.transmissionQueue ↔ Fits P ⟨s, e, popped, s'⟩) ∧
      ServesFirst ⟨s, e, popped, s'⟩ := by
  rcases e with frame | _
  · obtain ⟨rfl, h⟩ := h
    refine ⟨?_, fun x hx ↦ absurd hx (by simp)⟩
    have hfits : Fits P ⟨s, .upperFrameReceived frame, none, s'⟩ ↔
        (¬ s.Drops P frame → FitsIn s.transmissionQueue frame.toIeee80211Header) := by
      refine ⟨fun hfits ↦ hfits frame rfl, fun hfits frame' heq ↦ ?_⟩
      obtain rfl := DcfEvent.upperFrameReceived.inj heq
      exact hfits
    rw [hfits]
    rcases upperFrameReceived_of_ok h with
      ⟨hdrops, rfl⟩ | ⟨hdrops, duplicateDetection, frames, hne, hkind, rfl⟩
    · exact iff_of_true hqueue fun hnot ↦ absurd hdrops hnot
    · rw [forall_prop_of_true hdrops]
      exact inOrder_foldl_enqueue_iff (s := { s with duplicateDetection }) hP
        ⟨hs.idle, hs.number_lt⟩ hqueue hne hkind
  · obtain ⟨-, h⟩ := h
    have hfits : Fits P ⟨s, .frameExchangeFinished, popped, s'⟩ := fun frame heq ↦ by cases heq
    rw [iff_true_right hfits]
    rw [frameExchangeFinished] at h
    rcases hcons : s.transmissionQueue with _ | ⟨x, queue⟩
    · rw [hcons] at h
      obtain ⟨rfl, rfl⟩ := Prod.mk.inj h
      exact ⟨List.Pairwise.nil, fun x hx ↦ absurd hx (by simp)⟩
    · rw [hcons] at h hqueue
      obtain ⟨rfl, rfl⟩ := Prod.mk.inj h
      refine ⟨hqueue.sublist (List.sublist_cons_self _ _), fun x' hx' ↦ ?_⟩
      obtain rfl := Option.some.inj hx'
      show x ∈ s.transmissionQueue ∧ _
      rw [hcons]
      refine ⟨List.mem_cons_self, fun y hy ↦ ?_⟩
      rcases List.mem_cons.1 hy with rfl | hy
      · exact ⟨le_rfl, fun _ ↦ le_rfl⟩
      · exact ⟨(hqueue.serves hy).1, fun heq ↦ ((hqueue.serves hy).2 heq).le⟩

/-- The queue is in order all along exactly if each frame fits in. -/
theorem inOrder_iff_fits (hP : P.prioritizeMulticast = true) (h : (system P).Run tr s) :
    (∀ tr₁ m, tr₁ <+: tr → (system P).Run tr₁ m → InOrder m.transmissionQueue) ↔
      ∀ t ∈ tr, Fits P t :=
  h.forall_prefix_iff (P := fun _ s ↦ InOrder s.transmissionQueue)
    (fun s hs ↦ by rw [hs.2.1]; exact List.Pairwise.nil)
    fun _ _ _ _ _ hr hqueue hstep ↦ (inOrder_step hP (numbered_of_run hr) hqueue hstep).1

theorem servesFirst_of_fits (hP : P.prioritizeMulticast = true) (h : (system P).Run tr s)
    (hfits : ∀ t ∈ tr, Fits P t) : ∀ t ∈ tr, ServesFirst t := by
  refine (h.forall_of_invariant (I := fun s ↦ Numbered s ∧ InOrder s.transmissionQueue)
    (C := Fits P) (D := ServesFirst) (fun s hs ↦ ?_) (fun s e popped s' hs hstep hfits ↦ ?_) hfits).1
  · exact ⟨⟨fun _ ↦ hs.2.1, by simp [hs.2.1]⟩, by rw [hs.2.1]; exact List.Pairwise.nil⟩
  · obtain ⟨horder, hserves⟩ := inOrder_step hP hs.1 hs.2 hstep
    exact ⟨hserves, hs.1.step hstep, horder.2 hfits⟩

end DcfUpperMac

/-! ### The comparison -/

namespace MacUtils

/-- Comparing two frames both ways. -/
theorem cmp_antisymm_iff (a b : Ieee80211Header) :
    cmpMgmtOverMulticastOverUnicast a b = -cmpMgmtOverMulticastOverUnicast b a ↔
      a.isManagementFrame = b.isManagementFrame ∨
        a.receiverAddress.isMulticast = b.receiverAddress.isMulticast := by
  rw [cmpMgmtOverMulticastOverUnicast, cmpMgmtOverMulticastOverUnicast]
  rcases a.isManagementFrame <;> rcases b.isManagementFrame <;>
    rcases a.receiverAddress.isMulticast <;> rcases b.receiverAddress.isMulticast <;> decide

/-- Comparing through a third frame. -/
theorem cmp_trans_iff (a b c : Ieee80211Header) :
    (cmpMgmtOverMulticastOverUnicast a b ≤ 0 → cmpMgmtOverMulticastOverUnicast b c ≤ 0 →
        cmpMgmtOverMulticastOverUnicast a c ≤ 0) ↔
      ¬(¬ a.isManagementFrame ∧ ¬ a.receiverAddress.isMulticast ∧ b.isManagementFrame ∧
        ¬ b.receiverAddress.isMulticast ∧ c.receiverAddress.isMulticast) := by
  simp only [cmpMgmtOverMulticastOverUnicast]
  rcases a.isManagementFrame <;> rcases b.isManagementFrame <;>
    rcases a.receiverAddress.isMulticast <;> rcases b.receiverAddress.isMulticast <;>
    rcases c.receiverAddress.isMulticast <;> decide

end MacUtils

namespace DcfUpperMac

variable {P : DcfParameters} {s : DcfUpperMac}
  {tr : List (Transition DcfUpperMac DcfEvent (Option EnqueuedFrame))}

/-- **The queue serves by class** where each frame fits in, and the comparison is an order except
between a management frame and another one of the other kind of address. -/
theorem servesByClass (hP : P.prioritizeMulticast = true) (h : (system P).Run tr s) :
    ((∀ tr₁ m, tr₁ <+: tr → (system P).Run tr₁ m → InOrder m.transmissionQueue) ↔
        ∀ t ∈ tr, Fits P t) ∧
      ((∀ t ∈ tr, Fits P t) → ∀ t ∈ tr, ServesFirst t) ∧
      (∀ a b, MacUtils.cmpMgmtOverMulticastOverUnicast a b =
          -MacUtils.cmpMgmtOverMulticastOverUnicast b a ↔
        a.isManagementFrame = b.isManagementFrame ∨
          a.receiverAddress.isMulticast = b.receiverAddress.isMulticast) ∧
      ∀ a b c, (MacUtils.cmpMgmtOverMulticastOverUnicast a b ≤ 0 →
          MacUtils.cmpMgmtOverMulticastOverUnicast b c ≤ 0 →
          MacUtils.cmpMgmtOverMulticastOverUnicast a c ≤ 0) ↔
        ¬(¬ a.isManagementFrame ∧ ¬ a.receiverAddress.isMulticast ∧ b.isManagementFrame ∧
          ¬ b.receiverAddress.isMulticast ∧ c.receiverAddress.isMulticast) :=
  ⟨inOrder_iff_fits hP h, servesFirst_of_fits hP h, MacUtils.cmp_antisymm_iff,
    MacUtils.cmp_trans_iff⟩

/-- A station whose queue takes five frames. -/
def shortQueue : DcfParameters where
  address := ⟨1⟩
  maxQueueSize := 5
  prioritizeMulticast := true

/-- A short frame for a station. -/
def shortFrame (type : Ieee80211FrameType) : PlainFrame where
  type := type
  receiverAddress := ⟨2⟩
  transmitterAddress := ⟨1⟩
  byteLength := 100

/-- What a station does with what happens to it. -/
def after (s : DcfUpperMac) : DcfEvent → DcfUpperMac × Option EnqueuedFrame
  | .upperFrameReceived frame => ((s.upperFrameReceived shortQueue frame).toOption.getD s, none)
  | .frameExchangeFinished => s.frameExchangeFinished

/-- It may happen to it. -/
def mayHappen (s : DcfUpperMac) : DcfEvent → Bool
  | .upperFrameReceived frame => (s.upperFrameReceived shortQueue frame).toOption.isSome
  | .frameExchangeFinished => s.frameExchange.isSome

/-- What a station does from the beginning on. -/
def transitions (events : List DcfEvent) :
    List (Transition DcfUpperMac DcfEvent (Option EnqueuedFrame)) :=
  TransitionSystem.transitionsOf after {} events

theorem run_transitions (events : List DcfEvent)
    (h : ∀ t ∈ transitions events, mayHappen t.pre t.input = true) :
    (system shortQueue).Run (transitions events)
      (TransitionSystem.stateAfter after {} events) := by
  refine TransitionSystem.Run.ofInputs (T := system shortQueue)
    (C := fun s e ↦ mayHappen s e = true) (fun s e hs ↦ ?_) ⟨rfl, rfl, rfl⟩ h
  rcases e with frame | _
  · exact ⟨rfl, eq_ok_getD hs s⟩
  · exact ⟨hs, rfl⟩

/-- Two data frames. -/
def twoFrames : List DcfEvent :=
  [.upperFrameReceived (shortFrame .data), .upperFrameReceived (shortFrame .data),
    .frameExchangeFinished]

theorem servesByClass_twoFrames :
    (transitions twoFrames).length = 3 ∧ ∀ t ∈ transitions twoFrames, ServesFirst t :=
  have hinputs : ∀ t ∈ transitions twoFrames,
      t.input = .frameExchangeFinished ∨ t.pre.transmissionQueue = [] := by decide +kernel
  have hserves := (servesByClass rfl (run_transitions twoFrames (by decide +kernel))).2.1
    fun t ht frame heq _ ↦ by
      rcases hinputs t ht with hinput | hempty
      · rw [hinput] at heq
        cases heq
      · rw [hempty, FitsIn]
        split_ifs <;> simp
  ⟨rfl, hserves⟩

/-- A management frame behind a data frame. -/
def managementLast : List DcfEvent :=
  [.upperFrameReceived (shortFrame .data), .upperFrameReceived (shortFrame .data),
    .upperFrameReceived (shortFrame .management), .frameExchangeFinished]

/-- The data frame is taken out first. -/
theorem not_servesByClass_managementLast :
    ¬ ∀ (P : DcfParameters) (tr : List (Transition DcfUpperMac DcfEvent (Option EnqueuedFrame)))
        (s : DcfUpperMac), P.prioritizeMulticast = true → (system P).Run tr s →
      ∀ t ∈ tr, ServesFirst t := by
  intro h
  have hwrong : ∃ t ∈ transitions managementLast, ∃ x ∈ t.output.toList,
      ∃ y ∈ t.pre.transmissionQueue, x.serviceClass < y.serviceClass := by decide +kernel
  obtain ⟨t, ht, x, hx, y, hy, hlt⟩ := hwrong
  have hserves := h shortQueue _ _ rfl (run_transitions managementLast (by decide +kernel)) t ht
  exact ((hserves x (Option.mem_toList.1 hx)).2 y hy).1.not_gt hlt

end DcfUpperMac

end Inet
