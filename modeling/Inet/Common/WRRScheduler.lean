import Mathlib.Algebra.Order.Ring.Abs
import Mathlib.Algebra.Order.Ring.Nat
import Mathlib.Data.List.FinRange
import Mathlib.Tactic.Linarith
import Mathlib.Tactic.Ring
import Inet.Foundations.TransitionSystem

/-!
# Weighted round robin

A `WRRScheduler` takes packets from the `DropTailQueue`s at its inputs. Each input has a bucket, a
packet is taken from the first input that has one and a bucket that is not used up, and all buckets
are filled with the weights of their inputs once those of all inputs with packets are used up. The
packets that the queues send are on their way to the scheduler for some time.

What the scheduler counts is right as long as `clear` is not called while packets are on their way
(`accounted_iff`); then a request waits only if there is no packet, and no packet arrives without a
request (`serves_of_clearsIdle`). Inputs that have packets all along get their shares in any case
(`fair_of_path`).
-/

namespace Inet

/-- `DropTailQueue`. A capacity of zero is none. -/
structure DropTailQueue (Packet : Type) where
  frameCapacity : ℤ
  queue : List Packet := []
  packetRequested : ℕ := 0
  numQueueReceived : ℕ := 0
  numQueueDropped : ℕ := 0
  deriving DecidableEq

/-- The weights of a `WRRScheduler`. -/
structure WRRParameters (n : ℕ) where
  weights : Fin n → ℤ
  one_le : ∀ i, 1 ≤ weights i

/-- `WRRScheduler`, with its inputs and the packets that are on their way from them. -/
structure WRRScheduler (n : ℕ) (Packet : Type) where
  inputQueues : Fin n → DropTailQueue Packet
  buckets : Fin n → ℤ
  packetsRequestedFromUs : ℕ := 0
  packetsToBeRequestedFromInputs : ℕ := 0
  inFlight : List (Fin n × Packet) := []

/-- What happens to it. -/
inductive SchedulerEvent (n : ℕ) (Packet : Type)
  /-- A packet arrives at a queue. -/
  | packetArrived (i : Fin n) (msg : Packet)
  | requestPacket
  /-- A packet that was on its way arrives at the scheduler. -/
  | delivered (k : ℕ)
  | clear
  deriving DecidableEq

/-- What it does. -/
inductive SchedulerEffect (n : ℕ) (Packet : Type)
  /-- A queue sends a packet to the scheduler. -/
  | packetSent (i : Fin n) (msg : Packet)
  | sendOut (msg : Packet)
  | notifyListeners
  | assertionFailed
  deriving DecidableEq

namespace WRRScheduler

variable {n : ℕ} {Packet : Type}

/-- `PassiveQueueBase::requestPacket` of an input. -/
def requestFrom (s : WRRScheduler n Packet) (i : Fin n) :
    WRRScheduler n Packet × Option (SchedulerEffect n Packet) :=
  let q := s.inputQueues i
  match q.queue with
  | [] =>
    let q := { q with packetRequested := q.packetRequested + 1 }
    ({ s with inputQueues := Function.update s.inputQueues i q }, none)
  | msg :: queue =>
    ({ s with
      inputQueues := Function.update s.inputQueues i { q with queue := queue }
      inFlight := s.inFlight ++ [(i, msg)] }, some (.packetSent i msg))

/-- A packet is taken from the bucket of an input and requested from it. -/
def takeFrom (s : WRRScheduler n Packet) (i : Fin n) :
    WRRScheduler n Packet × Option (SchedulerEffect n Packet) :=
  { s with buckets := Function.update s.buckets i (s.buckets i - 1) }.requestFrom i

/-- `WRRScheduler::schedulePacket`, with what the input does. -/
def schedulePacket (W : WRRParameters n) (s : WRRScheduler n Packet) :
    (WRRScheduler n Packet × Option (SchedulerEffect n Packet)) × Bool :=
  match (List.finRange n).find? fun i ↦ !(s.inputQueues i).queue.isEmpty && 0 < s.buckets i with
  | some i => (s.takeFrom i, true)
  | none =>
    if ∀ i, (s.inputQueues i).queue.isEmpty then ((s, none), false)
    else
      let s := { s with buckets := W.weights }
      match (List.finRange n).find? fun i ↦ 0 < s.buckets i && !(s.inputQueues i).queue.isEmpty with
      | some i => (s.takeFrom i, true)
      | none => ((s, none), false)

/-- `bool success = schedulePacket(); if (success) packetsToBeRequestedFromInputs--;` -/
def serve (W : WRRParameters n) (s : WRRScheduler n Packet) :
    WRRScheduler n Packet × Option (SchedulerEffect n Packet) :=
  let ((s', effect), success) := s.schedulePacket W
  if success then
    ({ s' with packetsToBeRequestedFromInputs := s'.packetsToBeRequestedFromInputs - 1 }, effect)
  else (s', effect)

/-- `SchedulerBase::packetEnqueued`. -/
def packetEnqueued (W : WRRParameters n) (s : WRRScheduler n Packet) :
    WRRScheduler n Packet × Option (SchedulerEffect n Packet) :=
  if 0 < s.packetsToBeRequestedFromInputs then s.serve W
  else if s.packetsRequestedFromUs = 0 then (s, some .notifyListeners)
  else (s, none)

/-- A queue changes. -/
def setQueue (s : WRRScheduler n Packet) (i : Fin n) (q : DropTailQueue Packet) :
    WRRScheduler n Packet :=
  { s with inputQueues := Function.update s.inputQueues i q }

/-- `PassiveQueueBase::handleMessage` of an input. -/
def packetArrived (W : WRRParameters n) (s : WRRScheduler n Packet) (i : Fin n) (msg : Packet) :
    WRRScheduler n Packet × Option (SchedulerEffect n Packet) :=
  let q := { s.inputQueues i with numQueueReceived := (s.inputQueues i).numQueueReceived + 1 }
  if 0 < q.packetRequested then
    ({ s.setQueue i { q with packetRequested := q.packetRequested - 1 } with
      inFlight := s.inFlight ++ [(i, msg)] }, some (.packetSent i msg))
  else if q.frameCapacity ≠ 0 ∧ (q.queue.length : ℤ) ≥ q.frameCapacity then
    (s.setQueue i { q with numQueueDropped := q.numQueueDropped + 1 }, none)
  else (s.setQueue i { q with queue := q.queue ++ [msg] }).packetEnqueued W

/-- A request is counted. -/
def countRequest (s : WRRScheduler n Packet) : WRRScheduler n Packet :=
  { s with
    packetsRequestedFromUs := s.packetsRequestedFromUs + 1
    packetsToBeRequestedFromInputs := s.packetsToBeRequestedFromInputs + 1 }

/-- `SchedulerBase::requestPacket`. -/
def requestPacket (W : WRRParameters n) (s : WRRScheduler n Packet) :
    WRRScheduler n Packet × Option (SchedulerEffect n Packet) :=
  s.countRequest.serve W

/-- `SchedulerBase::handleMessage` for a packet that is not on its way any more. -/
def handleMessage (s : WRRScheduler n Packet) (msg : Packet) :
    WRRScheduler n Packet × Option (SchedulerEffect n Packet) :=
  if 0 < s.packetsRequestedFromUs then
    ({ s with packetsRequestedFromUs := s.packetsRequestedFromUs - 1 }, some (.sendOut msg))
  else (s, some .assertionFailed)

/-- `SchedulerBase::clear`. -/
def clear (s : WRRScheduler n Packet) : WRRScheduler n Packet :=
  { s with
    inputQueues := fun i ↦ { s.inputQueues i with queue := [], packetRequested := 0 }
    packetsRequestedFromUs := 0
    packetsToBeRequestedFromInputs := 0 }

/-- The scheduler with its inputs, from their initialization on. -/
def system (W : WRRParameters n) : TransitionSystem (WRRScheduler n Packet)
    (SchedulerEvent n Packet) (Option (SchedulerEffect n Packet)) where
  Init s := (∀ i, (s.inputQueues i).queue = [] ∧ (s.inputQueues i).packetRequested = 0) ∧
    s.buckets = W.weights ∧ s.packetsRequestedFromUs = 0 ∧
    s.packetsToBeRequestedFromInputs = 0 ∧ s.inFlight = []
  Step s
    | .packetArrived i msg, effect, s' => s.packetArrived W i msg = (s', effect)
    | .requestPacket, effect, s' => s.requestPacket W = (s', effect)
    | .delivered k, effect, s' => ∃ i msg, s.inFlight[k]? = some (i, msg) ∧
      { s with inFlight := s.inFlight.eraseIdx k }.handleMessage msg = (s', effect)
    | .clear, effect, s' => effect = none ∧ s' = s.clear

variable {W : WRRParameters n} {s s' : WRRScheduler n Packet} {e : SchedulerEvent n Packet}
  {effect : Option (SchedulerEffect n Packet)} {i : Fin n} {msg : Packet}

/-! ### What serving a request does -/

/-- An input has packets. -/
def Backlogged (s : WRRScheduler n Packet) (i : Fin n) : Prop :=
  (s.inputQueues i).queue ≠ []

/-- A packet of an input goes on its way. -/
structure Takes (W : WRRParameters n) (s : WRRScheduler n Packet) (i : Fin n) (msg : Packet)
    (refilled : Bool) (s' : WRRScheduler n Packet) : Prop where
  queue_eq : (s.inputQueues i).queue = msg :: (s'.inputQueues i).queue
  other : ∀ j, j ≠ i → s'.inputQueues j = s.inputQueues j
  packetRequested : (s'.inputQueues i).packetRequested = (s.inputQueues i).packetRequested
  /-- The buckets are filled only when those of all inputs with packets are used up. -/
  used_up : refilled = true → ∀ j, s.Backlogged j → s.buckets j ≤ 0
  pos : 0 < if refilled then W.weights i else s.buckets i
  buckets_eq : s'.buckets = Function.update (if refilled then W.weights else s.buckets) i
    ((if refilled then W.weights i else s.buckets i) - 1)
  inFlight_eq : s'.inFlight = s.inFlight ++ [(i, msg)]
  fromUs : s'.packetsRequestedFromUs = s.packetsRequestedFromUs
  fromInputs : s'.packetsToBeRequestedFromInputs = s.packetsToBeRequestedFromInputs - 1

/-- Taking a packet from an input that has one. -/
theorem takes_of_backlogged {refilled : Bool} (h : s.Backlogged i)
    (hused : refilled = true → ∀ j, s.Backlogged j → s.buckets j ≤ 0)
    (hpos : 0 < if refilled then W.weights i else s.buckets i) :
    ∃ msg s₁, { s with buckets := if refilled then W.weights else s.buckets }.takeFrom i =
        (s₁, some (.packetSent i msg)) ∧
      s.Takes W i msg refilled
        { s₁ with packetsToBeRequestedFromInputs := s₁.packetsToBeRequestedFromInputs - 1 } := by
  obtain ⟨msg, queue, hqueue⟩ := List.exists_cons_of_ne_nil h
  refine ⟨msg, { s with
    buckets := Function.update (if refilled then W.weights else s.buckets) i
      ((if refilled then W.weights i else s.buckets i) - 1)
    inputQueues := Function.update s.inputQueues i { s.inputQueues i with queue := queue }
    inFlight := s.inFlight ++ [(i, msg)] }, ?_, ?_⟩
  · rw [takeFrom, requestFrom]
    simp only [hqueue]
    cases refilled <;> rfl
  · refine ⟨by simpa using hqueue, fun j hj ↦ ?_, by simp, hused, hpos, rfl, rfl, rfl, rfl⟩
    exact Function.update_of_ne hj _ _

theorem isEmpty_iff : (s.inputQueues i).queue.isEmpty = true ↔ ¬ s.Backlogged i := by
  rw [Backlogged, not_not, List.isEmpty_iff]

theorem backlogged_and_pos_iff {b : ℤ} :
    (!(s.inputQueues i).queue.isEmpty && decide (0 < b)) = true ↔ s.Backlogged i ∧ 0 < b := by
  rw [Bool.and_eq_true, Bool.not_eq_true', decide_eq_true_eq, ← Bool.not_eq_true, isEmpty_iff,
    not_not]

/-- There is no packet, or one is requested from an input that has one. -/
theorem schedulePacket_cases (W : WRRParameters n) (s : WRRScheduler n Packet) :
    (∀ i, ¬ s.Backlogged i) ∧ s.schedulePacket W = ((s, none), false) ∨
      ∃ i, ∃ refilled : Bool, s.Backlogged i ∧
        (refilled = true → ∀ j, s.Backlogged j → s.buckets j ≤ 0) ∧
        (0 < if refilled then W.weights i else s.buckets i) ∧ s.schedulePacket W =
          ({ s with buckets := if refilled then W.weights else s.buckets }.takeFrom i, true) := by
  rw [schedulePacket]
  rcases hfirst : (List.finRange n).find? fun i ↦
      !(s.inputQueues i).queue.isEmpty && decide (0 < s.buckets i) with _ | i
  · have hused (j) (hj : s.Backlogged j) : s.buckets j ≤ 0 := by
      have hnot := List.find?_eq_none.1 hfirst j (List.mem_finRange j)
      rw [backlogged_and_pos_iff] at hnot
      exact not_lt.1 fun hpos ↦ hnot ⟨hj, hpos⟩
    by_cases hempty : ∀ i, (s.inputQueues i).queue.isEmpty
    · exact .inl ⟨fun i ↦ isEmpty_iff.1 (hempty i), by simp only [if_pos hempty]⟩
    · -- some input has a packet, and with a weight of at least one its bucket is full now
      right
      obtain ⟨j, hj⟩ := not_forall.1 hempty
      rw [isEmpty_iff, not_not] at hj
      rcases hsecond : (List.finRange n).find? fun i ↦
          decide (0 < W.weights i) && !(s.inputQueues i).queue.isEmpty with _ | i
      · have hnot := List.find?_eq_none.1 hsecond j (List.mem_finRange j)
        rw [Bool.and_comm, backlogged_and_pos_iff] at hnot
        exact absurd ⟨hj, W.one_le j⟩ hnot
      · have hi := List.find?_some hsecond
        rw [Bool.and_comm, backlogged_and_pos_iff] at hi
        exact ⟨i, true, hi.1, fun _ ↦ hused, hi.2, by simp only [if_neg hempty, hsecond]; rfl⟩
  · have hi := List.find?_some hfirst
    rw [backlogged_and_pos_iff] at hi
    exact .inr ⟨i, false, hi.1, fun h ↦ absurd h (by simp), hi.2, rfl⟩

/-- There is no packet, or one is taken. -/
theorem serve_cases (W : WRRParameters n) (s : WRRScheduler n Packet) :
    (∀ i, ¬ s.Backlogged i) ∧ s.serve W = (s, none) ∨
      ∃ i msg refilled s', s.Takes W i msg refilled s' ∧
        s.serve W = (s', some (.packetSent i msg)) := by
  rw [serve]
  rcases schedulePacket_cases W s with
    ⟨hempty, hnone⟩ | ⟨i, refilled, hi, hused, hpos, hschedule⟩
  · exact .inl ⟨hempty, by rw [hnone]; rfl⟩
  · obtain ⟨msg, s₁, htake, htakes⟩ := takes_of_backlogged hi hused hpos
    exact .inr ⟨i, msg, refilled, _, htakes, by rw [hschedule, htake]; rfl⟩

/-! ### One event -/

/-- The requests of an event. -/
def requestsOf : SchedulerEvent n Packet → ℕ
  | .requestPacket => 1
  | _ => 0

/-- The requests that wait for a packet and are taken back. -/
def cancelledOf (s : WRRScheduler n Packet) : SchedulerEvent n Packet → ℕ
  | .clear => s.packetsToBeRequestedFromInputs
  | _ => 0

/-- The packets that the inputs hand out. -/
def handedOutOf : Option (SchedulerEffect n Packet) → ℕ
  | some (.packetSent _ _) => 1
  | _ => 0

/-- Those of one input. -/
def takenOf (i : Fin n) : Option (SchedulerEffect n Packet) → ℤ
  | some (.packetSent j _) => if j = i then 1 else 0
  | _ => 0

/-- The packets that the scheduler sends. -/
def sentOutOf : Option (SchedulerEffect n Packet) → ℕ
  | some (.sendOut _) => 1
  | _ => 0

/-- What holds of the scheduler in any order of events: its inputs wait for nothing, its buckets are
in their bounds, and requests wait only if there is no packet. -/
structure WellFormed (W : WRRParameters n) (s : WRRScheduler n Packet) : Prop where
  packetRequested : ∀ i, (s.inputQueues i).packetRequested = 0
  bucket_nonneg : ∀ i, 0 ≤ s.buckets i
  bucket_le : ∀ i, s.buckets i ≤ W.weights i
  idle : 0 < s.packetsToBeRequestedFromInputs → ∀ i, ¬ s.Backlogged i

/-- The requests are those that wait for a packet and those whose packets are on their way. -/
def Accounted (s : WRRScheduler n Packet) : Prop :=
  s.packetsRequestedFromUs = s.packetsToBeRequestedFromInputs + s.inFlight.length

/-- What an event does to the counters, the buckets and the packets. -/
structure Keeps (W : WRRParameters n) (s : WRRScheduler n Packet) (e : SchedulerEvent n Packet)
    (effect : Option (SchedulerEffect n Packet)) (s' : WRRScheduler n Packet) : Prop where
  wellFormed : WellFormed W s'
  requests : requestsOf e + s.packetsToBeRequestedFromInputs =
    handedOutOf effect + s.cancelledOf e + s'.packetsToBeRequestedFromInputs
  /-- Every input with packets gets its weight the same number of times. -/
  buckets : ∃ rounds : ℤ, ∀ i, s.Backlogged i →
    takenOf i effect + s'.buckets i = s.buckets i + rounds * W.weights i
  accounted : s.Accounted → effect ≠ some .assertionFailed ∧
    handedOutOf effect + s.inFlight.length = sentOutOf effect + s'.inFlight.length ∧
    (s'.Accounted ↔ (e = .clear → s.inFlight = []))

variable {refilled : Bool}

theorem Takes.buckets_bounds (h : s.Takes W i msg refilled s')
    (hs : ∀ j, 0 ≤ s.buckets j ∧ s.buckets j ≤ W.weights j) (j : Fin n) :
    0 ≤ s'.buckets j ∧ s'.buckets j ≤ W.weights j := by
  have hpos := h.pos
  have hone := W.one_le j
  rw [h.buckets_eq]
  rcases eq_or_ne j i with rfl | hj
  · rw [Function.update_self]
    have hj := hs j
    split_ifs at hpos ⊢ <;> omega
  · rw [Function.update_of_ne hj]
    split_ifs
    · omega
    · exact hs j

/-- A round begins for all inputs with packets, or for none. -/
theorem Takes.rounds (h : s.Takes W i msg refilled s') (hs : ∀ j, 0 ≤ s.buckets j) :
    ∃ rounds : ℤ, ∀ j, s.Backlogged j →
      takenOf j (some (.packetSent i msg)) + s'.buckets j = s.buckets j + rounds * W.weights j := by
  refine ⟨if refilled then 1 else 0, fun j hj ↦ ?_⟩
  have hused : refilled = true → s.buckets j = 0 := fun hr ↦
    le_antisymm (h.used_up hr j hj) (hs j)
  rw [h.buckets_eq, takenOf]
  rcases eq_or_ne i j with rfl | hne
  · rw [Function.update_self, if_pos rfl]
    split_ifs with hr
    · rw [hused hr]
      ring
    · ring
  · rw [Function.update_of_ne hne.symm, if_neg hne]
    split_ifs with hr
    · rw [hused hr]
      ring
    · ring

theorem Takes.packetRequested_eq (h : s.Takes W i msg refilled s') (j : Fin n) :
    (s'.inputQueues j).packetRequested = (s.inputQueues j).packetRequested := by
  rcases eq_or_ne j i with rfl | hj
  · exact h.packetRequested
  · rw [h.other j hj]

theorem Takes.wellFormed (h : s.Takes W i msg refilled s')
    (hrequested : ∀ j, (s.inputQueues j).packetRequested = 0)
    (hs : ∀ j, 0 ≤ s.buckets j ∧ s.buckets j ≤ W.weights j)
    (hidle : 0 < s'.packetsToBeRequestedFromInputs → ∀ j, ¬ s'.Backlogged j) : WellFormed W s' where
  packetRequested j := (h.packetRequested_eq j).trans (hrequested j)
  bucket_nonneg j := (h.buckets_bounds hs j).1
  bucket_le j := (h.buckets_bounds hs j).2
  idle := hidle

theorem Takes.backlogged (h : s.Takes W i msg refilled s') : s.Backlogged i := by
  rw [Backlogged, h.queue_eq]
  exact List.cons_ne_nil _ _

theorem Takes.length_inFlight (h : s.Takes W i msg refilled s') :
    s'.inFlight.length = s.inFlight.length + 1 := by
  rw [h.inFlight_eq, List.length_append, List.length_singleton]

/-- A request is served at once if there is a packet. -/
theorem WellFormed.requestPacket (hs : WellFormed W s)
    (h : s.requestPacket W = (s', effect)) : Keeps W s .requestPacket effect s' := by
  rw [WRRScheduler.requestPacket] at h
  have hbuckets (j : Fin n) := And.intro (hs.bucket_nonneg j) (hs.bucket_le j)
  rcases serve_cases W s.countRequest with
    ⟨hempty, hserve⟩ | ⟨i, msg, refilled, s₁, htakes, hserve⟩
  · rw [hserve] at h
    obtain ⟨rfl, rfl⟩ := Prod.mk.inj h
    refine ⟨⟨hs.packetRequested, hs.bucket_nonneg, hs.bucket_le, fun _ ↦ hempty⟩, ?_,
      ⟨0, fun j hj ↦ absurd hj (hempty j)⟩, fun haccounted ↦ ⟨by simp, rfl, ?_⟩⟩
    · simp only [requestsOf, handedOutOf, cancelledOf, countRequest]
      omega
    · rw [Accounted] at haccounted ⊢
      simp only [countRequest, reduceCtorEq, false_imp_iff, iff_true]
      omega
  · rw [hserve] at h
    obtain ⟨rfl, rfl⟩ := Prod.mk.inj h
    have hfromInputs := htakes.fromInputs
    have hfromUs := htakes.fromUs
    have hinFlight := htakes.length_inFlight
    simp only [countRequest, Nat.add_sub_cancel] at hfromInputs hfromUs hinFlight
    refine ⟨htakes.wellFormed hs.packetRequested hbuckets fun hpos ↦ ?_, ?_,
      htakes.rounds hs.bucket_nonneg, fun haccounted ↦ ⟨by simp, ?_, ?_⟩⟩
    · exact absurd htakes.backlogged (hs.idle (hfromInputs ▸ hpos) i)
    · simp only [requestsOf, handedOutOf, cancelledOf]
      omega
    · simp only [handedOutOf, sentOutOf]
      omega
    · rw [Accounted] at haccounted ⊢
      simp only [reduceCtorEq, false_imp_iff, iff_true]
      omega

@[simp] theorem inputQueues_setQueue (s : WRRScheduler n Packet) (i : Fin n)
    (q : DropTailQueue Packet) :
    (s.setQueue i q).inputQueues = Function.update s.inputQueues i q :=
  rfl

theorem backlogged_setQueue {q : DropTailQueue Packet} {j : Fin n} :
    (s.setQueue i q).Backlogged j ↔ if j = i then q.queue ≠ [] else s.Backlogged j := by
  rw [Backlogged, inputQueues_setQueue]
  split_ifs with hj
  · rw [hj, Function.update_self]
  · rw [Function.update_of_ne hj, Backlogged]

theorem packetRequested_setQueue (hs : WellFormed W s) {q : DropTailQueue Packet}
    (hq : q.packetRequested = 0) (j : Fin n) :
    ((s.setQueue i q).inputQueues j).packetRequested = 0 := by
  rw [inputQueues_setQueue]
  rcases eq_or_ne j i with rfl | hj
  · rwa [Function.update_self]
  · rw [Function.update_of_ne hj]
    exact hs.packetRequested j

/-- Only a queue changes, and no request waits for it. -/
theorem WellFormed.setQueue (hs : WellFormed W s) {q : DropTailQueue Packet}
    (hq : q.packetRequested = 0) (hidle : 0 < s.packetsToBeRequestedFromInputs → q.queue = [])
    (heffect : effect = none ∨ effect = some .notifyListeners) :
    Keeps W s (.packetArrived i msg) effect (s.setQueue i q) := by
  refine ⟨⟨packetRequested_setQueue hs hq, hs.bucket_nonneg, hs.bucket_le, fun hpos j ↦ ?_⟩, ?_,
    ⟨0, fun j _ ↦ ?_⟩, fun haccounted ↦ ⟨?_, ?_, iff_of_true haccounted fun h ↦ by cases h⟩⟩
  · rw [backlogged_setQueue]
    split_ifs
    · exact not_not_intro (hidle hpos)
    · exact hs.idle hpos j
  all_goals
    rcases heffect with rfl | rfl <;>
      simp [requestsOf, handedOutOf, cancelledOf, sentOutOf, takenOf, WRRScheduler.setQueue]

/-- A packet that a request waits for is handed out at once. -/
theorem WellFormed.arrivedForRequest (hs : WellFormed W s) {q : DropTailQueue Packet}
    (hq : q.queue = (s.inputQueues i).queue ++ [msg]) (hrequested : q.packetRequested = 0)
    (hpos : 0 < s.packetsToBeRequestedFromInputs) (h : (s.setQueue i q).serve W = (s', effect)) :
    Keeps W s (.packetArrived i msg) effect s' := by
  have hempty := hs.idle hpos
  have hqueue : q.queue = [msg] := by simpa [hq, Backlogged] using hempty i
  rcases serve_cases W (s.setQueue i q) with ⟨hnone, -⟩ | ⟨j, msg', refilled, s₁, htakes, hserve⟩
  · exact absurd (backlogged_setQueue.2 (by simp [hqueue])) (hnone i)
  · rw [hserve] at h
    obtain ⟨rfl, rfl⟩ := Prod.mk.inj h
    -- no other input has a packet
    obtain rfl : j = i := by
      by_contra hj
      have hbacklogged := htakes.backlogged
      rw [backlogged_setQueue, if_neg hj] at hbacklogged
      exact hempty j hbacklogged
    have htaken := htakes.queue_eq
    rw [inputQueues_setQueue, Function.update_self, hqueue, List.cons.injEq] at htaken
    have hfromInputs := htakes.fromInputs
    have hfromUs := htakes.fromUs
    have hinFlight := htakes.length_inFlight
    simp only [WRRScheduler.setQueue] at hfromInputs hfromUs hinFlight
    refine ⟨htakes.wellFormed (packetRequested_setQueue hs hrequested)
      (fun k ↦ ⟨hs.bucket_nonneg k, hs.bucket_le k⟩) fun _ k ↦ ?_, ?_,
      ⟨0, fun k hk ↦ absurd hk (hempty k)⟩, fun haccounted ↦ ⟨by simp, ?_, ?_⟩⟩
    · rcases eq_or_ne k j with rfl | hk
      · rw [Backlogged, ← htaken.2]
        exact not_not_intro rfl
      · rw [Backlogged, htakes.other k hk, inputQueues_setQueue, Function.update_of_ne hk]
        exact hempty k
    · simp only [requestsOf, handedOutOf, cancelledOf]
      omega
    · simp only [handedOutOf, sentOutOf]
      omega
    · rw [Accounted] at haccounted ⊢
      simp only [reduceCtorEq, false_imp_iff, iff_true]
      omega

/-- A packet that arrives is handed out at once if a request waits for it. -/
theorem WellFormed.packetArrived (hs : WellFormed W s)
    (h : s.packetArrived W i msg = (s', effect)) : Keeps W s (.packetArrived i msg) effect s' := by
  rw [WRRScheduler.packetArrived] at h
  have hrequested := hs.packetRequested i
  simp only [hrequested, lt_irrefl, if_false] at h
  have hbuckets (j : Fin n) := And.intro (hs.bucket_nonneg j) (hs.bucket_le j)
  split_ifs at h with hdrop
  · -- the queue is full
    obtain ⟨rfl, rfl⟩ := Prod.mk.inj h
    refine hs.setQueue rfl (fun hpos ↦ ?_) (.inl rfl)
    simpa [Backlogged] using hs.idle hpos i
  · rw [packetEnqueued] at h
    split_ifs at h with hpos hnone
    · exact hs.arrivedForRequest rfl rfl hpos h
    · obtain ⟨rfl, rfl⟩ := Prod.mk.inj h
      exact hs.setQueue rfl (fun hpos' ↦ absurd hpos' hpos) (.inr rfl)
    · obtain ⟨rfl, rfl⟩ := Prod.mk.inj h
      exact hs.setQueue rfl (fun hpos' ↦ absurd hpos' hpos) (.inl rfl)

/-- A packet that arrives at the scheduler was requested. -/
theorem WellFormed.delivered (hs : WellFormed W s) {k : ℕ}
    (hk : s.inFlight[k]? = some (i, msg))
    (h : { s with inFlight := s.inFlight.eraseIdx k }.handleMessage msg = (s', effect)) :
    Keeps W s (.delivered k) effect s' := by
  rw [handleMessage] at h
  have hlt : k < s.inFlight.length := (List.getElem?_eq_some_iff.1 hk).1
  have hlength := List.length_eraseIdx_of_lt hlt
  split_ifs at h with hpos
  · obtain ⟨rfl, rfl⟩ := Prod.mk.inj h
    refine ⟨⟨hs.packetRequested, hs.bucket_nonneg, hs.bucket_le, hs.idle⟩, ?_,
      ⟨0, fun j _ ↦ ?_⟩, fun haccounted ↦ ⟨by simp, ?_, iff_of_true ?_ fun h ↦ by cases h⟩⟩
    · simp [requestsOf, handedOutOf, cancelledOf]
    · simp [takenOf]
    · simp only [handedOutOf, sentOutOf]
      omega
    · rw [Accounted] at haccounted ⊢
      simp only
      omega
  · obtain ⟨rfl, rfl⟩ := Prod.mk.inj h
    refine ⟨⟨hs.packetRequested, hs.bucket_nonneg, hs.bucket_le, hs.idle⟩, ?_,
      ⟨0, fun j _ ↦ ?_⟩, fun haccounted ↦ ?_⟩
    · simp [requestsOf, handedOutOf, cancelledOf]
    · simp [takenOf]
    · rw [Accounted] at haccounted
      simp only at hpos
      omega

theorem WellFormed.clear (hs : WellFormed W s) : Keeps W s .clear none s.clear where
  wellFormed := ⟨fun _ ↦ rfl, hs.bucket_nonneg, hs.bucket_le, fun h ↦ absurd h (lt_irrefl 0)⟩
  requests := by simp [requestsOf, handedOutOf, cancelledOf, WRRScheduler.clear]
  buckets := ⟨0, fun j _ ↦ by simp [takenOf, WRRScheduler.clear]⟩
  accounted _ := ⟨by simp, rfl, by
    rw [Accounted]
    simp [WRRScheduler.clear, eq_comm]⟩

theorem WellFormed.step (hs : WellFormed W s) (h : (system W).Step s e effect s') :
    Keeps W s e effect s' := by
  rcases e with ⟨i, msg⟩ | _ | k | _
  · exact hs.packetArrived h
  · exact hs.requestPacket h
  · obtain ⟨i, msg, hk, h⟩ := h
    exact hs.delivered hk h
  · obtain ⟨rfl, rfl⟩ := h
    exact hs.clear

/-! ### Runs -/

variable {tr : List (Transition (WRRScheduler n Packet) (SchedulerEvent n Packet)
  (Option (SchedulerEffect n Packet)))} {s₁ s₂ : WRRScheduler n Packet}

theorem wellFormed_of_init (hs : (system W).Init s) : WellFormed W s where
  packetRequested i := (hs.1 i).2
  bucket_nonneg i := by
    rw [hs.2.1]
    exact (Int.zero_lt_one.trans_le (W.one_le i)).le
  bucket_le i := by rw [hs.2.1]
  idle hpos := by
    rw [hs.2.2.2.1] at hpos
    exact absurd hpos (lt_irrefl 0)

theorem wellFormed_of_run (h : (system W).Run tr s) : WellFormed W s :=
  h.invariant (fun _ hs ↦ wellFormed_of_init hs)
    fun _ _ _ _ (hs : WellFormed W _) hstep ↦ (hs.step hstep).wellFormed

/-- No packet is on its way when the scheduler is cleared. -/
def ClearsIdle (t : Transition (WRRScheduler n Packet) (SchedulerEvent n Packet)
    (Option (SchedulerEffect n Packet))) : Prop :=
  t.input = .clear → t.pre.inFlight = []

theorem accounted_of_init (hs : (system W).Init s) : s.Accounted := by
  obtain ⟨-, -, hfromUs, hfromInputs, hinFlight⟩ := hs
  rw [Accounted, hfromUs, hfromInputs, hinFlight]
  rfl

/-- What the scheduler counts is right all along exactly if it is never cleared while packets are on
their way. -/
theorem accounted_iff (h : (system W).Run tr s) :
    (∀ tr₁ m, tr₁ <+: tr → (system W).Run tr₁ m → m.Accounted) ↔ ∀ t ∈ tr, ClearsIdle t :=
  h.forall_prefix_iff (P := fun _ s ↦ s.Accounted) (fun _ hs ↦ accounted_of_init hs)
    fun _ _ _ _ _ hr haccounted hstep ↦
      (((wellFormed_of_run hr).step hstep).accounted haccounted).2.2

/-- The number of requests. -/
def requests (tr : List (Transition (WRRScheduler n Packet) (SchedulerEvent n Packet)
    (Option (SchedulerEffect n Packet)))) : ℕ :=
  (tr.map fun t ↦ requestsOf t.input).sum

/-- The number of requests that are taken back before there is a packet. -/
def cancelled (tr : List (Transition (WRRScheduler n Packet) (SchedulerEvent n Packet)
    (Option (SchedulerEffect n Packet)))) : ℕ :=
  (tr.map fun t ↦ t.pre.cancelledOf t.input).sum

/-- The number of packets that the inputs hand out. -/
def handedOut (tr : List (Transition (WRRScheduler n Packet) (SchedulerEvent n Packet)
    (Option (SchedulerEffect n Packet)))) : ℕ :=
  (tr.map fun t ↦ handedOutOf t.output).sum

/-- The number of packets that the scheduler sends. -/
def sentOut (tr : List (Transition (WRRScheduler n Packet) (SchedulerEvent n Packet)
    (Option (SchedulerEffect n Packet)))) : ℕ :=
  (tr.map fun t ↦ sentOutOf t.output).sum

/-- The number of packets that an input hands out. -/
def taken (i : Fin n) (tr : List (Transition (WRRScheduler n Packet) (SchedulerEvent n Packet)
    (Option (SchedulerEffect n Packet)))) : ℤ :=
  (tr.map fun t ↦ takenOf i t.output).sum

/-- The scheduler lets no request wait while there is a packet and loses none: each request that
does not wait and has not been taken back has been served with a packet, which has been sent or is
on its way. -/
structure Serves (tr : List (Transition (WRRScheduler n Packet) (SchedulerEvent n Packet)
    (Option (SchedulerEffect n Packet)))) (s : WRRScheduler n Packet) : Prop where
  workConserving : 0 < s.packetsToBeRequestedFromInputs → ∀ i, ¬ s.Backlogged i
  inputs : ∀ i, (s.inputQueues i).packetRequested = 0
  requests_eq : requests tr = handedOut tr + cancelled tr + s.packetsToBeRequestedFromInputs
  handedOut_eq : handedOut tr = sentOut tr + s.inFlight.length
  accounted : s.Accounted
  assertion : ∀ t ∈ tr, t.output ≠ some .assertionFailed

theorem serves_of_clearsIdle (h : (system W).Run tr s) (hclear : ∀ t ∈ tr, ClearsIdle t) :
    Serves tr s := by
  induction h with
  | nil hs =>
    have haccounted := accounted_of_init hs
    have hwf := wellFormed_of_init hs
    refine ⟨hwf.idle, hwf.packetRequested, ?_, ?_, haccounted, by simp⟩
    · simp [requests, handedOut, cancelled, hs.2.2.2.1]
    · simp [handedOut, sentOut, hs.2.2.2.2]
  | @snoc tr s s' e effect hr hstep ih =>
    rw [List.forall_mem_append, List.forall_mem_singleton] at hclear
    have hserves := ih hclear.1
    have hkeeps := (wellFormed_of_run hr).step hstep
    obtain ⟨hassertion, hinFlight, hiff⟩ := hkeeps.accounted hserves.accounted
    have hrequests := hkeeps.requests
    have hbefore := hserves.requests_eq
    have hbefore' := hserves.handedOut_eq
    refine ⟨hkeeps.wellFormed.idle, hkeeps.wellFormed.packetRequested, ?_, ?_, hiff.2 hclear.2, ?_⟩
    · simp only [requests, handedOut, cancelled, List.map_append, List.sum_append, List.map_singleton,
        List.sum_singleton] at hbefore ⊢
      omega
    · simp only [handedOut, sentOut, List.map_append, List.sum_append, List.map_singleton,
        List.sum_singleton] at hbefore' ⊢
      omega
    · rw [List.forall_mem_append, List.forall_mem_singleton]
      exact ⟨hserves.assertion, hassertion⟩

/-- Along a path all inputs that have packets get their weights the same number of times. -/
theorem rounds_of_path (h : (system W).Path s₁ tr s₂) (hs : WellFormed W s₁) :
    WellFormed W s₂ ∧ ∃ rounds : ℤ, ∀ i, (∀ t ∈ tr, t.pre.Backlogged i) →
      taken i tr + s₂.buckets i = s₁.buckets i + rounds * W.weights i := by
  induction h with
  | nil s => exact ⟨hs, 0, fun i _ ↦ by simp [taken]⟩
  | cons hstep _ ih =>
    have hkeeps := hs.step hstep
    obtain ⟨rounds, hrounds⟩ := hkeeps.buckets
    obtain ⟨hwf, rounds', hrounds'⟩ := ih hkeeps.wellFormed
    refine ⟨hwf, rounds + rounds', fun i hi ↦ ?_⟩
    rw [List.forall_mem_cons] at hi
    have hfirst := hrounds i hi.1
    have hrest := hrounds' i hi.2
    rw [taken, List.map_cons, List.sum_cons, ← taken, add_mul]
    linarith

/-- **Inputs that have packets all along get their shares.** -/
theorem fair_of_path (h : (system W).Path s₁ tr s₂) (hs : WellFormed W s₁) {i j : Fin n}
    (hi : ∀ t ∈ tr, t.pre.Backlogged i) (hj : ∀ t ∈ tr, t.pre.Backlogged j) :
    |taken i tr * W.weights j - taken j tr * W.weights i| ≤ 2 * W.weights i * W.weights j := by
  obtain ⟨hwf, rounds, hrounds⟩ := rounds_of_path h hs
  have hi := hrounds i hi
  have hj := hrounds j hj
  have hchange (k : Fin n) : |s₁.buckets k - s₂.buckets k| ≤ W.weights k := by
    rw [abs_le]
    have hnonneg := hs.bucket_nonneg k
    have hle := hs.bucket_le k
    have hnonneg' := hwf.bucket_nonneg k
    have hle' := hwf.bucket_le k
    omega
  have hwi : 0 ≤ W.weights i := zero_le_one.trans (W.one_le i)
  have hwj : 0 ≤ W.weights j := zero_le_one.trans (W.one_le j)
  -- the rounds cancel out
  have hdifference : taken i tr * W.weights j - taken j tr * W.weights i =
      (s₁.buckets i - s₂.buckets i) * W.weights j - (s₁.buckets j - s₂.buckets j) * W.weights i := by
    rw [eq_sub_of_add_eq hi, eq_sub_of_add_eq hj]
    ring
  calc |taken i tr * W.weights j - taken j tr * W.weights i|
      ≤ |(s₁.buckets i - s₂.buckets i) * W.weights j| +
          |(s₁.buckets j - s₂.buckets j) * W.weights i| := by
        rw [hdifference]
        exact abs_sub _ _
    _ ≤ W.weights i * W.weights j + W.weights j * W.weights i := by
        rw [abs_mul, abs_mul, abs_of_nonneg hwi, abs_of_nonneg hwj]
        exact add_le_add (mul_le_mul_of_nonneg_right (hchange i) hwj)
          (mul_le_mul_of_nonneg_right (hchange j) hwi)
    _ = 2 * W.weights i * W.weights j := by ring

/-- **The scheduler is work-conserving, loses no request and is fair** as long as it is not cleared
while packets are on their way; fair it is in any case. -/
theorem servesFairly (h : (system W).Run tr s) :
    ((∀ tr₁ m, tr₁ <+: tr → (system W).Run tr₁ m → m.Accounted) ↔ ∀ t ∈ tr, ClearsIdle t) ∧
      ((∀ t ∈ tr, ClearsIdle t) → Serves tr s) ∧
      ∀ tr₁ tr₂ tr₃ i j, tr = tr₁ ++ tr₂ ++ tr₃ → (∀ t ∈ tr₂, t.pre.Backlogged i) →
        (∀ t ∈ tr₂, t.pre.Backlogged j) →
        |taken i tr₂ * W.weights j - taken j tr₂ * W.weights i| ≤
          2 * W.weights i * W.weights j := by
  refine ⟨accounted_iff h, serves_of_clearsIdle h, ?_⟩
  rintro tr₁ tr₂ tr₃ i j rfl hi hj
  obtain ⟨m, hm, -⟩ := h.split
  obtain ⟨m', hm', hpath⟩ := hm.split
  exact fair_of_path hpath (wellFormed_of_run hm') hi hj

/-- Two inputs, the second of which has twice the weight. -/
def oneAndTwo : WRRParameters 2 where
  weights i := (i : ℕ) + 1
  one_le i := by omega

/-- A scheduler without packets. -/
def start : WRRScheduler 2 ℕ where
  inputQueues _ := { frameCapacity := 0 }
  buckets := oneAndTwo.weights

/-- What the scheduler does with what happens to it. -/
def after (s : WRRScheduler 2 ℕ) :
    SchedulerEvent 2 ℕ → WRRScheduler 2 ℕ × Option (SchedulerEffect 2 ℕ)
  | .packetArrived i msg => s.packetArrived oneAndTwo i msg
  | .requestPacket => s.requestPacket oneAndTwo
  | .delivered k => { s with inFlight := s.inFlight.eraseIdx k }.handleMessage
      ((s.inFlight[k]?.map Prod.snd).getD 0)
  | .clear => (s.clear, none)

/-- It may happen to it. -/
def mayHappen (s : WRRScheduler 2 ℕ) : SchedulerEvent 2 ℕ → Bool
  | .delivered k => s.inFlight[k]?.isSome
  | _ => true

/-- What the scheduler does from the beginning on. -/
def transitions (events : List (SchedulerEvent 2 ℕ)) :
    List (Transition (WRRScheduler 2 ℕ) (SchedulerEvent 2 ℕ) (Option (SchedulerEffect 2 ℕ))) :=
  TransitionSystem.transitionsOf after start events

theorem run_transitions (events : List (SchedulerEvent 2 ℕ))
    (h : ∀ t ∈ transitions events, mayHappen t.pre t.input = true) :
    (system oneAndTwo).Run (transitions events)
      (TransitionSystem.stateAfter after start events) := by
  refine TransitionSystem.Run.ofInputs (T := system oneAndTwo)
    (C := fun s e ↦ mayHappen s e = true) (fun s e hs ↦ ?_)
    ⟨fun _ ↦ ⟨rfl, rfl⟩, rfl, rfl, rfl, rfl⟩ h
  rcases e with ⟨i, msg⟩ | _ | k | _
  · exact rfl
  · exact rfl
  · obtain ⟨⟨i, msg⟩, hk⟩ := Option.isSome_iff_exists.1 hs
    exact ⟨i, msg, hk, by rw [after, hk]; rfl⟩
  · exact ⟨rfl, rfl⟩

/-- A packet that is requested and delivered. -/
def onePacket : List (SchedulerEvent 2 ℕ) :=
  [.packetArrived 0 7, .requestPacket, .delivered 0]

theorem servesFairly_onePacket :
    Serves (transitions onePacket) (TransitionSystem.stateAfter after start onePacket) :=
  have hinputs : ∀ t ∈ transitions onePacket, t.input ≠ .clear := by decide +kernel
  (servesFairly (run_transitions onePacket (by decide +kernel))).2.1
    fun t ht hclear ↦ absurd hclear (hinputs t ht)

/-- The scheduler is cleared while a packet is on its way. -/
def clearedOnTheWay : List (SchedulerEvent 2 ℕ) :=
  [.packetArrived 0 7, .requestPacket, .clear, .delivered 0]

/-- When the packet arrives at the scheduler, the assertion fails. -/
theorem not_serves_clearedOnTheWay :
    ¬ ∀ (n : ℕ) (Packet : Type) (W : WRRParameters n)
        (tr : List (Transition (WRRScheduler n Packet) (SchedulerEvent n Packet)
          (Option (SchedulerEffect n Packet)))) (s : WRRScheduler n Packet),
      (system W).Run tr s → Serves tr s := by
  intro h
  have hserves := h 2 ℕ oneAndTwo _ _ (run_transitions clearedOnTheWay (by decide +kernel))
  have hfails : ∃ t ∈ transitions clearedOnTheWay, t.output = some .assertionFailed := by
    decide +kernel
  obtain ⟨t, ht, heq⟩ := hfails
  exact hserves.assertion t ht heq

end WRRScheduler

end Inet
