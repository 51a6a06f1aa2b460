import Inet.Foundations.TransitionSystem
import Inet.Ndn.Apps

/-!
# Runs of a consumer

`ConsumerAppBase` on its own: its timer fires when it is due, and packets come at any time and in
any order, Data and time-outs of any numbers.

Two questions are settled here. The first is whether the consumer ever takes the history slot of one
number for that of another. A slot belongs to the number it was last initialised for, which is read
off the record of the run (`lastInitialised`), and that is the last `HISTORY_SIZE` numbers
(`lastInitialised_eq_some_iff`); so the bookkeeping is isolated exactly in the runs whose packets
stay within the window. `onData` looks at the lower end of it and `onTimeout` at neither.

The second is how many Interests the consumer sends. The number of firings is counted twice, as the
number of the next Interest and as the number sent, and both count the same thing
(`newNumbers_eq_range`); the handler of the timer compares the count with `numInterests`, also where
`numInterests` is -1 and stands for no limit.
-/

namespace Inet.Ndn

namespace ConsumerAppBase

/-- What reaches a consumer. -/
inductive Event
  | timer (now : SimTime) (draw : Draw)
  | packet (now : SimTime) (packet : Packet)

/-- When. -/
def Event.now : Event → SimTime
  | .timer now _ => now
  | .packet now _ => now

/-- The handler of an event. -/
def handle (c : ConsumerAppBase) : Event → ConsumerAppBase × List AppEffect
  | .timer now draw => c.handleTimer now draw
  | .packet now packet => c.handlePacket now packet

/-- The timer fires when it is due. -/
def Allows (c : ConsumerAppBase) : Event → Prop
  | .timer now _ => c.expressInterestTimer = some now
  | .packet _ _ => True

instance (c : ConsumerAppBase) (event : Event) : Decidable (c.Allows event) :=
  match event with
  | .timer _ _ => inferInstanceAs (Decidable (_ = _))
  | .packet _ _ => inferInstanceAs (Decidable True)

/-- The runs of a consumer, from `initialize()` on. -/
def system (par : Params) : TransitionSystem ConsumerAppBase Event (List AppEffect) where
  Init c := c = initial par
  Step c event fx c' := c.Allows event ∧ c.handle event = (c', fx)

/-- A transition of a consumer. -/
abbrev Trans :=
  Transition ConsumerAppBase Event (List AppEffect)

variable {par : Params} {tr : List Trans} {c c' : ConsumerAppBase}

/-- Handling a packet changes no parameter. -/
theorem handlePacket_toParams (now : SimTime) (packet : Packet) :
    (c.handlePacket now packet).1.toParams = c.toParams := by
  unfold handlePacket
  split
  · cases packet with
    | interest i =>
      dsimp only [onTimeout]
      split <;> rfl
    | data d => rfl
  · cases packet <;> rfl

theorem handle_toParams (event : Event) : (c.handle event).1.toParams = c.toParams := by
  cases event with
  | timer now draw =>
    obtain ⟨timer, fx, heq, -⟩ := handleTimer_spec c now draw
    rw [handle, heq]
    rfl
  | packet now packet => exact handlePacket_toParams now packet

theorem toParams_of_run (hrun : (system par).Run tr c) : c.toParams = par := by
  refine hrun.invariant (I := fun c ↦ c.toParams = par) ?_ ?_
  · rintro c rfl
    obtain ⟨timer, fx, hschedule, -⟩ := scheduleNextInterest_spec { par with } 0 none
    unfold initial startApp
    split
    · rw [hschedule]
    · rfl
  · rintro c event fx c' ih ⟨-, heq⟩
    have h := handle_toParams (c := c) event
    rw [heq] at h
    exact h.trans ih

/-! ### Whose slot it is -/

/-- The number a slot is initialised for by an event, if it is. -/
def initialises (slot : ℕ) (t : Trans) : Option ℕ :=
  match t.input with
  | .timer _ _ => if t.pre.intSeqNo % HISTORY_SIZE = slot then some t.pre.intSeqNo else none
  | .packet _ _ => none

/-- The number a slot was last initialised for. -/
def lastInitialised (slot : ℕ) (tr : List Trans) : Option ℕ :=
  tr.reverse.findSome? (initialises slot)

theorem lastInitialised_concat (slot : ℕ) (t : Trans) :
    lastInitialised slot (tr ++ [t]) =
      (initialises slot t).or (lastInitialised slot tr) := by
  rw [lastInitialised, List.reverse_append, List.reverse_singleton, List.singleton_append,
    List.findSome?_cons]
  rcases initialises slot t <;> rfl

/-- The timer takes the next number. -/
theorem handle_timer_intSeqNo (now : SimTime) (draw : Draw) :
    (c.handle (.timer now draw)).1.intSeqNo = c.intSeqNo + 1 := by
  obtain ⟨timer, fx, heq, -⟩ := handleTimer_spec c now draw
  rw [handle, heq]

theorem handle_packet_intSeqNo (now : SimTime) (packet : Packet) :
    (c.handle (.packet now packet)).1.intSeqNo = c.intSeqNo :=
  handlePacket_intSeqNo c now packet

/-- **The slots belong to the last numbers.** A number owns its slot from its creation until
`HISTORY_SIZE` more numbers are created. -/
theorem lastInitialised_eq_some_iff (hrun : (system par).Run tr c) (q : ℕ) :
    lastInitialised (q % HISTORY_SIZE) tr = some q ↔
      q < c.intSeqNo ∧ c.intSeqNo ≤ q + HISTORY_SIZE := by
  refine hrun.history (P := fun tr c ↦ lastInitialised (q % HISTORY_SIZE) tr = some q ↔
    q < c.intSeqNo ∧ c.intSeqNo ≤ q + HISTORY_SIZE) ?_ ?_
  · rintro c rfl
    simp [lastInitialised]
  · rintro tr c event fx c' - ih ⟨-, heq⟩
    rw [lastInitialised_concat]
    cases event with
    | packet now packet =>
      have hnext := handle_packet_intSeqNo (c := c) now packet
      rw [heq] at hnext
      rw [hnext]
      exact ih
    | timer now draw =>
      have hnext := handle_timer_intSeqNo (c := c) now draw
      rw [heq] at hnext
      rw [hnext]
      show (if c.intSeqNo % HISTORY_SIZE = q % HISTORY_SIZE then some c.intSeqNo else none).or
        (lastInitialised (q % HISTORY_SIZE) tr) = some q ↔ _
      by_cases hslot : c.intSeqNo % HISTORY_SIZE = q % HISTORY_SIZE
      · rw [if_pos hslot, Option.some_or, Option.some.injEq]
        unfold HISTORY_SIZE at hslot ⊢
        omega
      · rw [if_neg hslot, Option.none_or, ih]
        unfold HISTORY_SIZE at *
        omega

/-- The number whose slot a handler reads, without taking it for a number out of the window. -/
def readNumber (c : ConsumerAppBase) : Event → Option ℕ
  | .timer _ _ => none
  | .packet _ (.interest i) => if i.kind = TIMEOUT_CODE then some i.seqNo else none
  | .packet _ (.data d) =>
    if d.kind = TIMEOUT_CODE ∨ (c.intSeqNo : ℤ) - d.seqNo > HISTORY_SIZE then none
    else some d.seqNo

/-- Whenever a handler reads the slot of a number, the slot was last initialised for that number. -/
def ReadsOwnSlots (tr : List Trans) : Prop :=
  ∀ tr₁ t tr₂, tr = tr₁ ++ t :: tr₂ → ∀ q, t.pre.readNumber t.input = some q →
    lastInitialised (q % HISTORY_SIZE) tr₁ = some q

/-- A time-out is that of one of the last `HISTORY_SIZE` Interests, and the number of a Data was
given to an Interest already. -/
def InWindow (c : ConsumerAppBase) : Event → Prop
  | .timer _ _ => True
  | .packet _ (.interest i) => i.kind = TIMEOUT_CODE →
      i.seqNo < c.intSeqNo ∧ c.intSeqNo ≤ i.seqNo + HISTORY_SIZE
  | .packet _ (.data d) => d.kind ≠ TIMEOUT_CODE → d.seqNo < c.intSeqNo

instance (c : ConsumerAppBase) (event : Event) : Decidable (c.InWindow event) :=
  match event with
  | .timer _ _ => inferInstanceAs (Decidable True)
  | .packet _ (.interest _) => inferInstanceAs (Decidable (_ → _ ∧ _))
  | .packet _ (.data _) => inferInstanceAs (Decidable (_ → _))

theorem inWindow_iff (event : Event) :
    c.InWindow event ↔ ∀ q, c.readNumber event = some q →
      q < c.intSeqNo ∧ c.intSeqNo ≤ q + HISTORY_SIZE := by
  obtain _ | ⟨now, i | d⟩ := event
  · simp [InWindow, readNumber]
  · by_cases hkind : i.kind = TIMEOUT_CODE <;> simp [InWindow, readNumber, hkind]
  · by_cases hread : d.kind = TIMEOUT_CODE ∨ (c.intSeqNo : ℤ) - d.seqNo > HISTORY_SIZE
    · have hnone : c.readNumber (.packet now (.data d)) = none := if_pos hread
      refine ⟨fun _ q hq ↦ absurd (hnone.symm.trans hq) (by simp), fun _ hkind ↦ ?_⟩
      have hold := hread.resolve_left hkind
      omega
    · have hsome : c.readNumber (.packet now (.data d)) = some d.seqNo := if_neg hread
      obtain ⟨hkind, hyoung⟩ := not_or.1 hread
      refine ⟨fun h q hq ↦ ?_, fun h _ ↦ (h _ hsome).1⟩
      obtain rfl := Option.some.inj (hsome.symm.trans hq)
      exact ⟨h hkind, by omega⟩

/-- **The slots are kept apart exactly within the window.** -/
theorem readsOwnSlots_iff (hrun : (system par).Run tr c) :
    ReadsOwnSlots tr ↔ ∀ t ∈ tr, t.pre.InWindow t.input := by
  constructor
  · intro hown t ht
    obtain ⟨tr₁, tr₂, rfl, hpre, -, -⟩ := hrun.eq_append_of_mem ht
    exact (inWindow_iff t.input).2 fun q hq ↦
      (lastInitialised_eq_some_iff hpre q).1 (hown tr₁ t tr₂ rfl q hq)
  · rintro hwin tr₁ t tr₂ rfl q hq
    obtain ⟨m, hpre, hpath⟩ := hrun.split
    obtain ⟨⟩ := hpath
    exact (lastInitialised_eq_some_iff hpre q).2
      ((inWindow_iff _).1 (hwin _ (List.mem_append_right _ List.mem_cons_self)) q hq)

/-! ### How often a number is sent again -/

/-- The times at which an Interest of a number is sent in a run. -/
def sentTimes (q : ℕ) (tr : List Trans) : List SimTime :=
  tr.flatMap fun t ↦ sendTimes q t.input.now t.output

/-- An event that is a packet. -/
def Event.isPacket : Event → Bool
  | .timer _ _ => false
  | .packet _ _ => true

/-- How often an Interest of a number is sent on behalf of a packet. -/
def retransmissions (q : ℕ) (tr : List Trans) : ℕ :=
  (sentTimes q (tr.filter (·.input.isPacket))).length

theorem sentTimes_concat (q : ℕ) (t : Trans) :
    sentTimes q (tr ++ [t]) = sentTimes q tr ++ sendTimes q t.input.now t.output := by
  rw [sentTimes, List.flatMap_append, List.flatMap_singleton]
  rfl

theorem retransmissions_concat_of_timer (q : ℕ) {t : Trans} (ht : t.input.isPacket = false) :
    retransmissions q (tr ++ [t]) = retransmissions q tr := by
  rw [retransmissions, List.filter_append, List.filter_singleton, ht, retransmissions]
  simp

theorem retransmissions_concat_of_packet (q : ℕ) {t : Trans} (ht : t.input.isPacket = true) :
    retransmissions q (tr ++ [t]) =
      retransmissions q tr + (sendTimes q t.input.now t.output).length := by
  rw [retransmissions, List.filter_append, List.filter_singleton, ht, cond_true, sentTimes_concat,
    List.length_append, retransmissions]

/-- A packet has a number sent again only as a time-out of that number whose count permits it. -/
theorem sendTimes_handlePacket (q : ℕ) (now : SimTime) (packet : Packet) :
    sendTimes q now (c.handlePacket now packet).2 = [] ∨
      sendTimes q now (c.handlePacket now packet).2 = [now] ∧
        ∃ i : Interest, packet = .interest i ∧ i.kind = TIMEOUT_CODE ∧ i.seqNo = q ∧
          c.numRetxHistory (q % HISTORY_SIZE) < c.interestReTx := by
  obtain i | d := packet
  · by_cases hkind : i.kind = TIMEOUT_CODE
    · have htimeout : c.handlePacket now (.interest i) = c.onTimeout now i := if_pos hkind
      rw [htimeout, onTimeout]
      split
      · rename_i hless
        by_cases hq : i.seqNo = q
        · exact .inr ⟨by simp [sendTimes, again, hq], i, rfl, hkind, hq, hq ▸ hless⟩
        · exact .inl (by simp [sendTimes, again, hq])
      · exact .inl rfl
    · have hdropped : c.handlePacket now (.interest i) = (c, []) := if_neg hkind
      rw [hdropped]
      exact .inl rfl
  · refine .inl ?_
    by_cases hkind : d.kind = TIMEOUT_CODE
    · have herror : c.handlePacket now (.data d) = (c, [.error]) := if_pos hkind
      rw [herror]
      rfl
    · rw [handlePacket_data c now hkind]
      rfl

/-- What is known of the retransmissions while the packets stay in the window: the counts in the
slots are those of the record, and none exceeds the limit. -/
structure Counted (par : Params) (tr : List Trans) (c : ConsumerAppBase) : Prop where
  remembers : c.Remembers fun q ↦ sentTimes q tr
  sent : ∀ q, (sentTimes q tr).length = (if q < c.intSeqNo then 1 else 0) + retransmissions q tr
  limited : ∀ q, retransmissions q tr ≤ par.interestReTx.toNat

/-- **One event keeps the counts right.** -/
theorem Counted.step (h : Counted par tr c) (hpar : c.toParams = par) {event : Event}
    (hwin : c.InWindow event) :
    Counted par (tr ++ [⟨c, event, (c.handle event).2, (c.handle event).1⟩])
      (c.handle event).1 := by
  cases event with
  | timer now draw =>
    refine ⟨?_, fun q ↦ ?_, fun q ↦ ?_⟩
    · simp only [sentTimes_concat]
      exact h.remembers.handleTimer now draw
    · rw [sentTimes_concat, retransmissions_concat_of_timer q rfl, List.length_append, h.sent q,
        handle_timer_intSeqNo]
      show _ + (sendTimes q now (c.handleTimer now draw).2).length = _
      rw [sendTimes_handleTimer]
      split_ifs <;> simp <;> omega
    · rw [retransmissions_concat_of_timer q rfl]
      exact h.limited q
  | packet now packet =>
    refine ⟨?_, fun q ↦ ?_, fun q ↦ ?_⟩
    · simp only [sentTimes_concat]
      refine h.remembers.handlePacket now fun i hi hkind ↦ ?_
      subst hi
      exact hwin hkind
    · rw [sentTimes_concat, retransmissions_concat_of_packet q rfl, List.length_append, h.sent q,
        handle_packet_intSeqNo, Nat.add_assoc]
    · rw [retransmissions_concat_of_packet q rfl]
      obtain hnone | ⟨hone, i, rfl, hkind, rfl, hless⟩ := sendTimes_handlePacket (c := c) q now packet
      · show _ + (sendTimes q now (c.handlePacket now packet).2).length ≤ _
        rw [hnone]
        exact h.limited q
      · -- the count in the slot is the number of retransmissions so far
        obtain ⟨hsent, hwin⟩ := hwin hkind
        obtain ⟨-, -, hcount⟩ := h.remembers.slot _ hsent hwin
        have htimes := h.sent i.seqNo
        rw [if_pos hsent] at htimes
        have hlimit : c.interestReTx = par.interestReTx := by rw [hpar]
        show _ + (sendTimes i.seqNo now (c.handlePacket now (.interest i)).2).length ≤ _
        rw [hone, List.length_singleton]
        omega

/-- Within the window the counts are right in every run. -/
theorem counted_of_run (hrun : (system par).Run tr c) (hwin : ∀ t ∈ tr, t.pre.InWindow t.input) :
    Counted par tr c := by
  revert hwin
  refine hrun.history (P := fun tr c ↦ (∀ t ∈ tr, t.pre.InWindow t.input) → Counted par tr c)
    ?_ ?_
  · rintro c rfl -
    exact ⟨remembers_initial par, by simp [sentTimes, retransmissions],
      by simp [sentTimes, retransmissions]⟩
  · rintro tr c event fx c' hrun ih ⟨-, heq⟩ hwin
    rw [List.forall_mem_append, List.forall_mem_singleton] at hwin
    have hstep := (ih hwin.1).step (toParams_of_run hrun) hwin.2
    rw [heq] at hstep
    exact hstep

/-- The largest `short`, the type of the counts in `numRetxHistory`. -/
def SHRT_MAX : ℤ := 32767

/-- **The bookkeeping of the Interests is isolated**: every slot that is read was last initialised
for the number it is read for, no number is sent again more often than `interestReTx` times, and the
count in the slot of a number is how often that number was sent again, which fits its type. -/
structure Isolated (par : Params) (tr : List Trans) (c : ConsumerAppBase) : Prop where
  own_slots : ReadsOwnSlots tr
  limited : ∀ q, retransmissions q tr ≤ par.interestReTx.toNat
  own_counts : ∀ q < c.intSeqNo, c.intSeqNo ≤ q + HISTORY_SIZE →
    c.numRetxHistory (q % HISTORY_SIZE) = retransmissions q tr ∧
      (retransmissions q tr : ℤ) ≤ SHRT_MAX

/-- **The bookkeeping is isolated exactly within the window.** -/
theorem isolated_iff (hshort : par.interestReTx ≤ SHRT_MAX) (hrun : (system par).Run tr c) :
    Isolated par tr c ↔ ∀ t ∈ tr, t.pre.InWindow t.input := by
  refine ⟨fun h ↦ (readsOwnSlots_iff hrun).1 h.own_slots, fun hwin ↦ ?_⟩
  have hcounted := counted_of_run hrun hwin
  refine ⟨(readsOwnSlots_iff hrun).2 hwin, hcounted.limited, fun q hq hold ↦ ⟨?_, ?_⟩⟩
  · obtain ⟨-, -, hcount⟩ := hcounted.remembers.slot q hq hold
    have hsent := hcounted.sent q
    rw [if_pos hq] at hsent
    omega
  · have hlimited := hcounted.limited q
    unfold SHRT_MAX at *
    omega

/-- A consumer that sends an Interest every second, with a lifetime in milliseconds, and sends each
one again once. -/
def everySecond (interestLifetime : UInt32) : Params :=
  { cPrefix := [47, 97], numInterests := 400, interestLifetime }

/-- The draws of its Interests. -/
def sameDraw : Draw :=
  ⟨.last _, .last _, (0, 0, 0, 0)⟩

/-- Some firings of its timer, from a second on. -/
def timers (second count : ℕ) : List Event :=
  (List.range count).map fun n ↦ .timer (SimTime.ms (1000 * (second + n))) sameDraw

/-- The time-out of its first Interest, at a second. -/
def firstTimeout (interestLifetime : UInt32) (second : ℕ) : Event :=
  .packet (SimTime.ms (1000 * second)) (.interest
    { ((initial (everySecond interestLifetime)).createNextInterest
        (SimTime.ms 1000) sameDraw).1 with kind := TIMEOUT_CODE })

/-- The transitions of a consumer on some events. -/
def runOf (par : Params) (events : List Event) : List Trans :=
  TransitionSystem.transitionsOf handle (initial par) events

/-- The consumer after some events. -/
def afterRunOf (par : Params) (events : List Event) : ConsumerAppBase :=
  TransitionSystem.stateAfter handle (initial par) events

theorem run_runOf {events : List Event} (h : ∀ t ∈ runOf par events, t.pre.Allows t.input) :
    (system par).Run (runOf par events) (afterRunOf par events) :=
  .ofInputs (T := system par) (C := Allows) (fun _ _ hallows ↦ ⟨hallows, rfl⟩) rfl h

/-- The first Interest times out when it is the oldest one in the window. -/
theorem isolated_iff_oldest :
    let par := everySecond 99000
    let events := timers 1 100 ++ [firstTimeout 99000 100]
    Isolated par (runOf par events) (afterRunOf par events) := by
  intro par events
  have hrun : (system par).Run (runOf par events) (afterRunOf par events) :=
    run_runOf (by decide +kernel)
  exact (isolated_iff (by decide) hrun).2 (by decide +kernel)

/-- With a lifetime of 150 s, the first Interest times out when its slot is that of number 100, and
again when it is that of number 300; it is sent again both times, where the limit is one. -/
theorem not_isolated :
    let par := everySecond 150000
    let events := timers 1 150 ++ firstTimeout 150000 151 :: timers 151 152 ++
      [firstTimeout 150000 302]
    (system par).Run (runOf par events) (afterRunOf par events) ∧
      ¬ ReadsOwnSlots (runOf par events) ∧
      par.interestReTx = 1 ∧ retransmissions 0 (runOf par events) = 2 := by
  intro par events
  have hrun : (system par).Run (runOf par events) (afterRunOf par events) :=
    run_runOf (by decide +kernel)
  exact ⟨hrun, fun h ↦ absurd ((readsOwnSlots_iff hrun).1 h) (by decide +kernel), rfl,
    by decide +kernel⟩

/-! ### How many Interests are sent -/

/-- The number of the Interest an effect sends, if it sends one. -/
def sentNumber : AppEffect → Option ℕ
  | .send (.interest i) => some i.seqNo
  | .send (.data _) | .scheduleAt _ | .collect _ _ _ _ | .error => none

/-- The numbers of the new Interests of a run: those that the timer sends. -/
def newNumbers (tr : List Trans) : List ℕ :=
  (tr.filter (!·.input.isPacket)).flatMap fun t ↦ t.output.filterMap sentNumber

theorem newNumbers_concat_of_packet {t : Trans} (ht : t.input.isPacket = true) :
    newNumbers (tr ++ [t]) = newNumbers tr := by
  rw [newNumbers, List.filter_append, List.filter_singleton, ht, newNumbers]
  simp

theorem newNumbers_concat_of_timer {t : Trans} (ht : t.input.isPacket = false) :
    newNumbers (tr ++ [t]) = newNumbers tr ++ t.output.filterMap sentNumber := by
  rw [newNumbers, List.filter_append, List.filter_singleton, ht, newNumbers]
  simp

/-- The timer sends the next number and nothing else. -/
theorem sentNumber_handleTimer (now : SimTime) (draw : Draw) :
    (c.handleTimer now draw).2.filterMap sentNumber = [c.intSeqNo] := by
  obtain ⟨timer, fx, heq, hfx⟩ := handleTimer_spec c now draw
  rw [heq]
  obtain rfl | ⟨time, rfl⟩ := hfx <;> simp [sentNumber]

/-- Without a stop time, the timer is scheduled again while the Interests sent are fewer than those
configured. -/
theorem handleTimer_expressInterestTimer (hstop : c.stopTime < 0) (now : SimTime) (draw : Draw) :
    (c.handleTimer now draw).1.expressInterestTimer =
      if (c.numIntSent : ℤ) + 1 < c.numInterests then some (now + c.sendInterval) else none := by
  rw [handleTimer]
  simp only [createNextInterest, expressInterest, scheduleNextInterest, Nat.cast_add, Nat.cast_one,
    hstop, true_or, if_true]
  split <;> rfl

theorem handlePacket_timer (now : SimTime) (packet : Packet) :
    (c.handlePacket now packet).1.expressInterestTimer = c.expressInterestTimer ∧
      (c.handlePacket now packet).1.numIntSent = c.numIntSent := by
  unfold handlePacket
  split
  · cases packet with
    | interest i =>
      dsimp only [onTimeout]
      split <;> exact ⟨rfl, rfl⟩
    | data d => exact ⟨rfl, rfl⟩
  · cases packet <;> exact ⟨rfl, rfl⟩

/-- The state `initialize()` leaves when there is no stop time. -/
theorem initial_expressInterestTimer (hstop : par.stopTime < 0) :
    (initial par).expressInterestTimer =
      if par.numInterests = -1 ∨ 0 < par.numInterests then some par.startTime else none := by
  rw [initial, startApp]
  simp only [scheduleNextInterest, Nat.zero_le, hstop, true_or, if_true, Nat.cast_zero]
  split <;> rfl

theorem initial_numIntSent (par : Params) : (initial par).numIntSent = 0 := by
  obtain ⟨timer, fx, hschedule, -⟩ := scheduleNextInterest_spec { par with } 0 none
  unfold initial startApp
  split
  · rw [hschedule]
  · rfl

theorem handle_timer_numIntSent (now : SimTime) (draw : Draw) :
    (c.handle (.timer now draw)).1.numIntSent = c.numIntSent + 1 := by
  obtain ⟨timer, fx, heq, -⟩ := handleTimer_spec c now draw
  rw [handle, heq]

/-- The numbers of the new Interests are the first ones, each once, and both counters count them. -/
theorem newNumbers_eq_range (hrun : (system par).Run tr c) :
    newNumbers tr = List.range c.intSeqNo ∧ c.numIntSent = c.intSeqNo := by
  refine hrun.history (P := fun tr c ↦ newNumbers tr = List.range c.intSeqNo ∧
    c.numIntSent = c.intSeqNo) ?_ ?_
  · rintro c rfl
    rw [initial_intSeqNo, initial_numIntSent]
    exact ⟨rfl, rfl⟩
  · rintro tr c event fx c' - ⟨hnumbers, hsent⟩ ⟨-, heq⟩
    obtain ⟨rfl, rfl⟩ := Prod.ext_iff.1 heq
    cases event with
    | packet now packet =>
      rw [newNumbers_concat_of_packet rfl, handle_packet_intSeqNo]
      exact ⟨hnumbers, (handlePacket_timer now packet).2.trans hsent⟩
    | timer now draw =>
      rw [newNumbers_concat_of_timer rfl, handle_timer_intSeqNo, handle_timer_numIntSent, hsent,
        hnumbers, List.range_succ]
      exact ⟨congrArg _ (sentNumber_handleTimer now draw), rfl⟩

/-- Without a stop time, and with a number of Interests that is not negative, the timer is scheduled
while fewer Interests than that were sent. -/
theorem timer_isSome_iff (hstop : par.stopTime < 0) (hcount : 0 ≤ par.numInterests)
    (hrun : (system par).Run tr c) :
    (c.expressInterestTimer = none ↔ (c.numIntSent : ℤ) = par.numInterests) ∧
      (c.numIntSent : ℤ) ≤ par.numInterests := by
  refine hrun.history (P := fun _ c ↦
    (c.expressInterestTimer = none ↔ (c.numIntSent : ℤ) = par.numInterests) ∧
      (c.numIntSent : ℤ) ≤ par.numInterests) ?_ ?_
  · rintro c rfl
    rw [initial_expressInterestTimer hstop, initial_numIntSent]
    split_ifs
    · simp only [false_iff]
      omega
    · simp only [true_iff]
      omega
  · rintro tr c event fx c' hrun ⟨hidle, hle⟩ ⟨hallows, heq⟩
    obtain ⟨rfl, rfl⟩ := Prod.ext_iff.1 heq
    cases event with
    | packet now packet =>
      obtain ⟨htimer, hsent⟩ := handlePacket_timer (c := c) now packet
      rw [handle, htimer, hsent]
      exact ⟨hidle, hle⟩
    | timer now draw =>
      have hpar := toParams_of_run hrun
      have hbusy : (c.numIntSent : ℤ) ≠ par.numInterests := fun h ↦
        Option.some_ne_none now ((hallows : c.expressInterestTimer = some now).symm.trans
          (hidle.2 h))
      have htimer := handleTimer_expressInterestTimer (c := c) (by rw [hpar]; exact hstop) now draw
      rw [handle_timer_numIntSent, handle, htimer, hpar, Nat.cast_succ]
      split_ifs
      · simp only [false_iff]
        omega
      · simp only [true_iff]
        omega

/-- A run goes on with a firing of the timer. -/
theorem run_timer (hrun : (system par).Run tr c) {now : SimTime}
    (hnow : c.expressInterestTimer = some now) (draw : Draw) :
    (system par).Run (tr ++ [⟨c, .timer now draw, (c.handle (.timer now draw)).2,
      (c.handle (.timer now draw)).1⟩]) (c.handle (.timer now draw)).1 :=
  hrun.snoc ⟨hnow, rfl⟩

/-- A run of a consumer with a number of Interests can be continued until all are sent. -/
theorem exists_run_sends_all (hstop : par.stopTime < 0) (hcount : 0 ≤ par.numInterests)
    (hrun : (system par).Run tr c) :
    ∃ tr' c', (system par).Run (tr ++ tr') c' ∧ c'.expressInterestTimer = none ∧
      newNumbers (tr ++ tr') = List.range par.numInterests.toNat := by
  -- by induction on the number of Interests that are left to be sent
  obtain ⟨left, hleft⟩ : ∃ left, left = par.numInterests.toNat - c.numIntSent := ⟨_, rfl⟩
  induction left generalizing tr c with
  | zero =>
    obtain ⟨hidle, hle⟩ := timer_isSome_iff hstop hcount hrun
    obtain ⟨hnumbers, hsent⟩ := newNumbers_eq_range hrun
    refine ⟨[], c, by rwa [List.append_nil], hidle.2 (by omega), ?_⟩
    rw [List.append_nil, hnumbers, ← hsent]
    congr 1
    omega
  | succ left ih =>
    obtain ⟨hidle, hle⟩ := timer_isSome_iff hstop hcount hrun
    obtain ⟨now, hnow⟩ := Option.ne_none_iff_exists'.1 (mt hidle.1 (by omega))
    obtain ⟨tr', c', hrun', hdone⟩ := ih (run_timer hrun hnow ⟨0, 0, (0, 0, 0, 0)⟩)
      (by rw [handle_timer_numIntSent]; omega)
    rw [List.append_assoc] at hrun' hdone
    exact ⟨_, c', hrun', hdone⟩

/-- **The consumer sends what it is configured to send.** With a number of Interests it has sent the
first numbers, at most so many, its timer is idle exactly when it has sent them all, and nothing
keeps it from getting there; without a limit its timer is scheduled after every Interest. -/
structure SendsConfigured (par : Params) (tr : List Trans) (c : ConsumerAppBase) : Prop where
  limited : 0 ≤ par.numInterests → ∃ k : ℕ, newNumbers tr = List.range k ∧
    (k : ℤ) ≤ par.numInterests ∧ (c.expressInterestTimer = none ↔ (k : ℤ) = par.numInterests)
  completes : 0 ≤ par.numInterests → ∃ tr' c', (system par).Run (tr ++ tr') c' ∧
    c'.expressInterestTimer = none ∧
      newNumbers (tr ++ tr') = List.range par.numInterests.toNat
  unlimited : par.numInterests = -1 →
    ∀ t ∈ tr, t.input.isPacket = false → t.post.expressInterestTimer ≠ none

/-- **The configured number is sent exactly when there is one.** Without a limit, the timer is idle
after the first Interest. -/
theorem sendsConfigured_iff (hstop : par.stopTime < 0)
    (hmode : par.numInterests = -1 ∨ 0 ≤ par.numInterests) :
    (∀ tr c, (system par).Run tr c → SendsConfigured par tr c) ↔ 0 ≤ par.numInterests := by
  constructor
  · intro hall
    refine hmode.resolve_left fun hunlimited ↦ ?_
    have hinit : (initial par).expressInterestTimer = some par.startTime := by
      rw [initial_expressInterestTimer hstop, if_pos (.inl hunlimited)]
    have hstart : (system par).Run [] (initial par) := .nil rfl
    have hrun := run_timer hstart hinit ⟨0, 0, (0, 0, 0, 0)⟩
    refine (hall _ _ hrun).unlimited hunlimited _ (List.mem_singleton_self _) rfl ?_
    have hpar : (initial par).toParams = par := toParams_of_run (.nil rfl)
    rw [handle, handleTimer_expressInterestTimer (by rw [hpar]; exact hstop), initial_numIntSent,
      hpar, hunlimited]
    rfl
  · intro hcount tr c hrun
    obtain ⟨hidle, hle⟩ := timer_isSome_iff hstop hcount hrun
    obtain ⟨hnumbers, hsent⟩ := newNumbers_eq_range hrun
    refine ⟨fun _ ↦ ⟨c.intSeqNo, hnumbers, hsent ▸ hle, hsent ▸ hidle⟩,
      fun _ ↦ exists_run_sends_all hstop hcount hrun, fun hunlimited ↦ ?_⟩
    rw [hunlimited] at hcount
    exact absurd hcount (by decide)

/-- Four hundred Interests are sent. -/
theorem sendsConfigured_iff_everySecond :
    (everySecond 4000).numInterests = 400 ∧
      ∀ tr c, (system (everySecond 4000)).Run tr c → SendsConfigured (everySecond 4000) tr c :=
  ⟨rfl, (sendsConfigured_iff (by decide) (.inr (by decide))).2 (by decide)⟩

/-- With the default parameters, which set no limit, one Interest is sent. -/
theorem not_sendsConfigured :
    let par : Params := { cPrefix := [47, 97] }
    let events := [.timer (SimTime.ms 1000) sameDraw]
    par.numInterests = -1 ∧ par.stopTime < 0 ∧
      (system par).Run (runOf par events) (afterRunOf par events) ∧
      (afterRunOf par events).expressInterestTimer = none ∧
      ¬ SendsConfigured par (runOf par events) (afterRunOf par events) := by
  intro par events
  have hrun : (system par).Run (runOf par events) (afterRunOf par events) :=
    run_runOf (by decide +kernel)
  exact ⟨rfl, by decide, hrun, by decide +kernel,
    fun h ↦ h.unlimited rfl _ (List.mem_singleton_self _) rfl (by decide +kernel)⟩

end ConsumerAppBase

end Inet.Ndn
