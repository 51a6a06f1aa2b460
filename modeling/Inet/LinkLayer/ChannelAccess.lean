import Inet.LinkLayer.Contention

/-!
# Channel access is not early

An observer of a contention notes since when the medium has been free and counts the whole slots of
the free periods, each after its own inter-frame space (`ObservedContention`). While the contention
waits, the time for which its transmission is scheduled leaves room for the slots that are left of
the backoff (`Waiting`), and what is no longer left has been counted; so there have been enough
slots whenever access is granted (`channelAccess_notEarly`).
-/

namespace Inet

/-- What happens to a contention. -/
inductive ContentionInput
  | advance (time : ℤ)
  | start (params : ContentionParams)
  | mediumStateChanged (mediumFree : Bool)
  | corruptedFrameReceived
  | channelReleased
  | startTx

/-- A contention with what an observer notes: since when the medium has been free, the last change
of the medium and the last return to IDLE, the number that was drawn, the beginning of the free
period that counts, and the slots of the free periods that are over. -/
structure ObservedContention where
  contention : Contention
  now : ℤ
  freeSince : Option ℤ := none
  lastChange : ℤ
  lastIdle : ℤ
  drawn : ℤ := 0
  periodStart : ℤ := 0
  slots : ℤ := 0
  deriving DecidableEq, Repr

namespace ObservedContention

/-- The whole slots of the current free period. -/
def wholeSlots (s : ObservedContention) : ℤ :=
  max 0 ((s.now - s.periodStart - s.contention.ifs) / s.contention.slotTime)

/-- What the observer notes when the contention has changed. -/
def observe (s : ObservedContention) (c : Contention) : ContentionInput → ObservedContention
  | .advance time => { s with contention := c, now := time }
  | .start params =>
    { s with
      contention := c
      drawn := params.backoffSlots
      slots := 0
      periodStart := if c.backoffOptimization then max s.lastChange s.lastIdle else s.now }
  | .mediumStateChanged true =>
    { s with
      contention := c
      lastChange := s.now
      freeSince := some (s.freeSince.getD s.now)
      periodStart := if s.freeSince.isSome then s.periodStart else s.now }
  | .mediumStateChanged false =>
    { s with
      contention := c
      lastChange := s.now
      freeSince := none
      slots := if s.freeSince.isSome then s.slots + s.wholeSlots else s.slots }
  | .corruptedFrameReceived | .startTx => { s with contention := c }
  | .channelReleased =>
    { s with
      contention := c
      lastIdle := if s.contention.fsm = .owning then s.now else s.lastIdle }

/-- What the contention does. -/
def react (s : ObservedContention) :
    ContentionInput → Except ContentionError (Contention × Option ContentionReport)
  | .advance _ => .ok (s.contention, none)
  | .start params => s.contention.startContention s.now params
  | .mediumStateChanged mediumFree => s.contention.mediumStateChanged s.now mediumFree
  | .corruptedFrameReceived => s.contention.handleWithFSM s.now .corruptedFrameReceived
  | .channelReleased => s.contention.handleWithFSM s.now .channelReleased
  | .startTx => s.contention.handleMessage s.now

/-- Time does not go back or past an event that is scheduled, and an event arrives at its time. -/
def Allowed (s : ObservedContention) : ContentionInput → Prop
  | .advance time => s.now ≤ time ∧ ∀ e ∈ s.contention.startTxEvent, time ≤ e
  | .startTx => s.contention.startTxEvent = some s.now
  | _ => True

instance (s : ObservedContention) : DecidablePred s.Allowed
  | .advance time =>
    inferInstanceAs (Decidable (s.now ≤ time ∧ ∀ e ∈ s.contention.startTxEvent, time ≤ e))
  | .startTx => inferInstanceAs (Decidable (s.contention.startTxEvent = some s.now))
  | .start _ | .mediumStateChanged _ | .corruptedFrameReceived | .channelReleased => .isTrue trivial

end ObservedContention

namespace Contention

open ObservedContention

/-- A contention when it is created. -/
def created (now : ℤ) (backoffOptimization initialChannelBusy : Bool) : ObservedContention where
  contention := initial now backoffOptimization initialChannelBusy
  now := now
  lastChange := (initial now backoffOptimization initialChannelBusy).lastChannelBusyTime
  lastIdle := (initial now backoffOptimization initialChannelBusy).lastIdleStartTime

/-- A contention from its creation on, with whatever happens to it. -/
def system (backoffOptimization initialChannelBusy : Bool) :
    TransitionSystem ObservedContention ContentionInput (Option ContentionReport) where
  Init s := ∃ now, 0 ≤ now ∧ s = created now backoffOptimization initialChannelBusy
  Step s i o s' := s.Allowed i ∧ ∃ c, s.react i = .ok (c, o) ∧ s' = s.observe c i

variable {now : ℤ} {s : Contention}

/-! ### The time of the transmission -/

/-- The time that is waited for is long enough, and it lasts until the extended space is over. -/
theorem waitInterval_spec (hslots : 0 ≤ s.backoffSlots) (heifs : s.endEifsTime ≤ now + s.eifs) :
    s.ifs + s.backoffSlots * s.slotTime ≤ s.waitInterval now ∧
      s.endEifsTime ≤ now + s.waitInterval now := by
  have hbackoff : 0 ≤ s.backoffSlots * s.slotTime := mul_nonneg hslots (Int.natCast_nonneg _)
  rw [waitInterval]
  split_ifs with huse <;> omega

/-- The time for which a transmission is scheduled. -/
theorem scheduleTransmissionRequest_spec (now : ℤ) (hfree : s.mediumFree = true)
    (hnone : s.startTxEvent = none) (hslots : 0 ≤ s.backoffSlots) (heifs : s.endEifsTime ≤ now + s.eifs)
    (hidle : s.fsm = .idle →
      s.endEifsTime ≤ now ∧ s.lastChannelBusyTime ≤ now ∧ s.lastIdleStartTime ≤ now) :
    ∃ delta time, s.scheduleTransmissionRequest now =
        .ok { s with
          backoffOptimizationDelta := delta
          scheduledTransmissionTime := time
          startTxEvent := some time } ∧
      now ≤ time ∧ s.endEifsTime ≤ time ∧
      (if s.backoffOptimization = true ∧ s.fsm = .idle then
        max s.lastChannelBusyTime s.lastIdleStartTime else now) +
        s.ifs + s.backoffSlots * s.slotTime ≤ time := by
  obtain ⟨hlong, hends⟩ := waitInterval_spec hslots heifs
  have hbackoff : 0 ≤ s.backoffSlots * s.slotTime := mul_nonneg hslots (Int.natCast_nonneg _)
  have hok (delta wait : ℤ) (hwait : 0 ≤ wait) :
      { s with
        backoffOptimizationDelta := delta
        scheduledTransmissionTime := now + wait
        }.scheduleTransmissionRequestFor now (now + wait) =
        .ok { s with
          backoffOptimizationDelta := delta
          scheduledTransmissionTime := now + wait
          startTxEvent := some (now + wait) } := by
    rw [scheduleTransmissionRequestFor, hnone, Option.isSome_none, if_neg Bool.false_ne_true,
      if_neg (by omega)]
  rw [scheduleTransmissionRequest, if_pos hfree]
  by_cases hopt : s.backoffOptimization = true ∧ s.fsm = .idle
  · obtain ⟨hendEifs, hchange, hlastIdle⟩ := hidle hopt.2
    have hdelta : s.optimizationDelta now ≤ s.waitInterval now ∧
        max s.lastChannelBusyTime s.lastIdleStartTime ≤ now - s.optimizationDelta now ∧
        0 ≤ s.optimizationDelta now := by
      rw [optimizationDelta]
      omega
    have hwait : (if (s.backoffOptimization = true ∧ s.fsm = .idle) ∧ s.optimizationDelta now > 0 then
        s.waitInterval now - s.optimizationDelta now else s.waitInterval now) =
          s.waitInterval now - s.optimizationDelta now := by
      split_ifs with hpos
      · rfl
      · have hzero : ¬ s.optimizationDelta now > 0 := fun h ↦ hpos ⟨hopt, h⟩
        omega
    simp only [if_pos hopt, hwait]
    exact ⟨_, _, hok _ _ (by omega), by omega, by omega, by omega⟩
  · simp only [if_neg hopt, if_neg fun h ↦ hopt (And.left h)]
    exact ⟨_, _, hok _ _ (by omega), by omega, by omega, by omega⟩

/-- The transition in which a contention starts to wait. -/
theorem handleWithFSM_free (hfree : s.mediumFree = true) :
    (s.fsm = .idle → s.handleWithFSM now .start =
      (s.scheduleTransmissionRequest now).map (goTo .ifsAndBackoff)) ∧
    (s.fsm = .defer → s.handleWithFSM now .mediumStateChanged =
      (s.scheduleTransmissionRequest now).map (goTo .ifsAndBackoff)) := by
  constructor <;> intro hfsm <;> rw [handleWithFSM.eq_def] <;> simp only [hfsm, hfree, if_true]

/-- The transition in which it stops to wait. -/
theorem handleWithFSM_busy (hbusy : s.mediumFree = false) (hfsm : s.fsm = .ifsAndBackoff) :
    s.handleWithFSM now .mediumStateChanged =
      .ok ((s.cancelTransmissionRequest.computeRemainingBackoffSlots now).goTo .defer) := by
  rw [handleWithFSM.eq_def]
  simp only [hfsm, hbusy, Bool.false_eq_true, if_false]

/-- The backoff that is left when the medium becomes busy. -/
theorem computeRemainingBackoffSlots_spec (now free : ℤ) (hslotTime : 0 < s.slotTime)
    (hnow : now ≤ s.scheduledTransmissionTime)
    (hwait : free + s.backoffSlots * s.slotTime ≤ s.scheduledTransmissionTime)
    (hslots : 0 ≤ s.backoffSlots) :
    ∃ slots, s.computeRemainingBackoffSlots now = { s with backoffSlots := slots } ∧ 0 ≤ slots ∧
      slots ≤ s.backoffSlots ∧ s.backoffSlots ≤ slots + max 0 ((now - free) / s.slotTime) := by
  have hpos : (0 : ℤ) < s.slotTime := Int.natCast_pos.2 hslotTime
  have hdiv : (s.scheduledTransmissionTime - now + s.slotTime - 1).tdiv s.slotTime =
      (s.scheduledTransmissionTime - now + s.slotTime - 1) / s.slotTime :=
    Int.tdiv_eq_ediv_of_nonneg (by omega)
  have hnonneg : 0 ≤ (s.scheduledTransmissionTime - now + s.slotTime - 1) / s.slotTime :=
    Int.ediv_nonneg (by omega) hpos.le
  rw [computeRemainingBackoffSlots]
  simp only [hdiv]
  split_ifs with hless
  · refine ⟨_, rfl, hnonneg, hless.le, ?_⟩
    -- the slots that are gone fit into the time that has passed
    have hceil : s.scheduledTransmissionTime - now + s.slotTime - 1 <
        ((s.scheduledTransmissionTime - now + s.slotTime - 1) / s.slotTime + 1) * s.slotTime :=
      Int.lt_ediv_add_one_mul_self _ hpos
    have hgone : s.backoffSlots - (s.scheduledTransmissionTime - now + s.slotTime - 1) / s.slotTime ≤
        (now - free) / s.slotTime := by
      rw [Int.le_ediv_iff_mul_le hpos, sub_mul]
      rw [add_mul, one_mul] at hceil
      omega
    omega
  · exact ⟨_, rfl, hslots, le_rfl, by omega⟩

end Contention

namespace ObservedContention

variable {s : ObservedContention} {c : Contention} {o : Option ContentionReport}

/-! ### What holds between the events -/

/-- The contention is in one of the states in which it waits for the channel. -/
def Contending (s : ObservedContention) : Prop :=
  s.contention.fsm = .defer ∨ s.contention.fsm = .ifsAndBackoff

/-- A transmission is scheduled, late enough for the space and for the slots that are left. -/
structure Waiting (s : ObservedContention) : Prop where
  scheduled : s.contention.startTxEvent = some s.contention.scheduledTransmissionTime
  now_le : s.now ≤ s.contention.scheduledTransmissionTime
  free : ∃ since, s.freeSince = some since ∧ since ≤ s.periodStart
  periodStart_le : s.periodStart ≤ s.now
  eifs : s.contention.endEifsTime ≤ s.now + s.contention.eifs
  long : s.periodStart + s.contention.ifs + s.contention.backoffSlots * s.contention.slotTime ≤
    s.contention.scheduledTransmissionTime
  endEifsTime_le : s.contention.endEifsTime ≤ s.contention.scheduledTransmissionTime

/-- The slots that are not left any more have been counted. -/
structure Counted (s : ObservedContention) : Prop where
  slotTime_pos : 0 < s.contention.slotTime
  nonneg : 0 ≤ s.contention.backoffSlots
  drawn_le : s.drawn ≤ s.slots + s.contention.backoffSlots

/-- The observer has noted what the contention knows, and each state has its own invariant. -/
structure Timed (s : ObservedContention) : Prop where
  lastChange_eq : s.contention.lastChannelBusyTime = s.lastChange
  lastIdle_eq : s.contention.lastIdleStartTime = s.lastIdle
  lastChange_le : s.lastChange ≤ s.now
  lastIdle_le : s.lastIdle ≤ s.now
  mediumFree : s.contention.mediumFree = s.freeSince.isSome
  freeSince_le : ∀ since, s.freeSince = some since → since ≤ s.lastChange
  stopped : ¬ s.Contending → s.contention.startTxEvent = none ∧ s.contention.endEifsTime ≤ s.now
  deferred : s.contention.fsm = .defer → s.contention.startTxEvent = none ∧
    s.freeSince = none ∧ s.contention.endEifsTime ≤ s.now + s.contention.eifs
  waiting : s.contention.fsm = .ifsAndBackoff → s.Waiting
  counted : s.Contending → s.Counted

/-- The medium has been free for the inter-frame space, and there have been enough slots. -/
def EnoughFree (s : ObservedContention) : Prop :=
  (∃ since, s.freeSince = some since ∧ since + s.contention.ifs ≤ s.now) ∧
    s.drawn ≤ s.slots + s.wholeSlots

/-- What a step leads to. -/
structure StepOk (s s' : ObservedContention) (o : Option ContentionReport) : Prop where
  timed : s'.Timed
  granted : o = some .channelAccessGranted → s.contention.fsm = .ifsAndBackoff ∧ s.EnoughFree
  backoff : s.Contending → 0 ≤ s.contention.backoffSlots ∧
    s'.contention.backoffSlots ≤ s.contention.backoffSlots ∧ 0 ≤ s'.contention.backoffSlots

/-- The transmission is due only after enough slots. -/
theorem Waiting.enoughFree (h : s.Waiting) (hcounted : s.Counted)
    (hdue : s.contention.scheduledTransmissionTime ≤ s.now) : s.EnoughFree := by
  have hpos : (0 : ℤ) < s.contention.slotTime := Int.natCast_pos.2 hcounted.slotTime_pos
  have hlong := h.long
  have hbackoff := mul_nonneg hcounted.nonneg hpos.le
  obtain ⟨since, hsince, hle⟩ := h.free
  refine ⟨⟨since, hsince, by omega⟩, ?_⟩
  have hslots : s.contention.backoffSlots ≤
      (s.now - s.periodStart - s.contention.ifs) / s.contention.slotTime := by
    rw [Int.le_ediv_iff_mul_le hpos]
    omega
  have hdrawn := hcounted.drawn_le
  rw [wholeSlots]
  omega

theorem StepOk.advance {time : ℤ} (h : s.Timed) (hallowed : s.Allowed (.advance time)) :
    s.StepOk (s.observe s.contention (.advance time)) none := by
  obtain ⟨hnow, hevent⟩ := hallowed
  refine ⟨?_, fun hgranted ↦ absurd hgranted (by decide), fun hc ↦
    ⟨(h.counted hc).nonneg, le_rfl, (h.counted hc).nonneg⟩⟩
  exact {
    lastChange_eq := h.lastChange_eq
    lastIdle_eq := h.lastIdle_eq
    lastChange_le := h.lastChange_le.trans hnow
    lastIdle_le := h.lastIdle_le.trans hnow
    mediumFree := h.mediumFree
    freeSince_le := h.freeSince_le
    stopped := fun hs ↦ ⟨(h.stopped hs).1, (h.stopped hs).2.trans hnow⟩
    deferred := fun hs ↦ ⟨(h.deferred hs).1, (h.deferred hs).2.1,
      (h.deferred hs).2.2.trans (add_le_add_left hnow _)⟩
    waiting := fun hs ↦ {
      scheduled := (h.waiting hs).scheduled
      now_le := hevent _ (h.waiting hs).scheduled
      free := (h.waiting hs).free
      periodStart_le := (h.waiting hs).periodStart_le.trans hnow
      eifs := (h.waiting hs).eifs.trans (add_le_add_left hnow _)
      long := (h.waiting hs).long
      endEifsTime_le := (h.waiting hs).endEifsTime_le }
    counted := fun hs ↦
      ⟨(h.counted hs).slotTime_pos, (h.counted hs).nonneg, (h.counted hs).drawn_le⟩ }

theorem StepOk.startTx (h : s.Timed) (hallowed : s.Allowed .startTx)
    (hreact : s.react .startTx = .ok (c, o)) : s.StepOk (s.observe c .startTx) o := by
  have hfsm : s.contention.fsm = .ifsAndBackoff := by
    by_contra hne
    have hnone : s.contention.startTxEvent = none := by
      by_cases hdefer : s.contention.fsm = .defer
      · exact (h.deferred hdefer).1
      · exact (h.stopped fun hc ↦ hc.elim hdefer hne).1
    cases hnone.symm.trans hallowed
  have hdue : s.contention.scheduledTransmissionTime = s.now :=
    Option.some.inj ((h.waiting hfsm).scheduled.symm.trans hallowed)
  have hok : s.react .startTx = .ok
      ({ s.contention with startTxEvent := none, fsm := .owning }, some .channelAccessGranted) := by
    rw [react, Contention.handleMessage, Contention.handleWithFSM.eq_def]
    simp only [hfsm]
  obtain ⟨rfl, rfl⟩ := Prod.mk.inj (Except.ok.inj (hok.symm.trans hreact))
  have hcounted := h.counted (.inr hfsm)
  refine ⟨?_, fun _ ↦ ⟨hfsm, (h.waiting hfsm).enoughFree hcounted hdue.le⟩,
    fun _ ↦ ⟨hcounted.nonneg, le_rfl, hcounted.nonneg⟩⟩
  exact {
    lastChange_eq := h.lastChange_eq
    lastIdle_eq := h.lastIdle_eq
    lastChange_le := h.lastChange_le
    lastIdle_le := h.lastIdle_le
    mediumFree := h.mediumFree
    freeSince_le := h.freeSince_le
    stopped := fun _ ↦ ⟨rfl, (h.waiting hfsm).endEifsTime_le.trans hdue.le⟩
    deferred := fun hs ↦ by cases hs
    waiting := fun hs ↦ by cases hs
    counted := fun hs ↦ by rcases hs with hs | hs <;> cases hs }

/-- A step that changes nothing. -/
theorem StepOk.refl (h : s.Timed) : s.StepOk s none :=
  ⟨h, fun hgranted ↦ absurd hgranted (by decide), fun hc ↦
    ⟨(h.counted hc).nonneg, le_rfl, (h.counted hc).nonneg⟩⟩

theorem StepOk.channelReleased (h : s.Timed) (hreact : s.react .channelReleased = .ok (c, o)) :
    s.StepOk (s.observe c .channelReleased) o := by
  rw [react, Contention.handleWithFSM.eq_def] at hreact
  rcases hfsm : s.contention.fsm
  · -- in IDLE there is nothing to release
    simp only [hfsm] at hreact
    obtain ⟨rfl, rfl⟩ := Prod.mk.inj (Except.ok.inj hreact)
    have heq : s.observe s.contention .channelReleased = s := by
      rw [observe, hfsm, if_neg (by decide)]
    rw [heq]
    exact .refl h
  · simp [hfsm] at hreact
  · simp [hfsm] at hreact
  · simp only [hfsm] at hreact
    obtain ⟨rfl, rfl⟩ := Prod.mk.inj (Except.ok.inj hreact)
    have hstopped := h.stopped fun hc ↦ by
      rw [Contending, hfsm] at hc
      rcases hc with hc | hc <;> cases hc
    refine ⟨?_, fun hgranted ↦ absurd hgranted (by decide), fun hc ↦ ?_⟩
    · exact {
        lastChange_eq := h.lastChange_eq
        lastIdle_eq := by rw [observe, hfsm, if_pos rfl]
        lastChange_le := h.lastChange_le
        lastIdle_le := by rw [observe, hfsm, if_pos rfl]
        mediumFree := h.mediumFree
        freeSince_le := h.freeSince_le
        stopped := fun _ ↦ hstopped
        deferred := fun hs ↦ by cases hs
        waiting := fun hs ↦ by cases hs
        counted := fun hs ↦ by rcases hs with hs | hs <;> cases hs }
    · rw [Contending, hfsm] at hc
      rcases hc with hc | hc <;> cases hc

/-- The request is scheduled anew while the medium stays free. -/
theorem StepOk.corruptedFrameReceived (h : s.Timed)
    (hreact : s.react .corruptedFrameReceived = .ok (c, o)) :
    s.StepOk (s.observe c .corruptedFrameReceived) o := by
  rw [react, Contention.handleWithFSM.eq_def] at hreact
  rcases hfsm : s.contention.fsm
  · simp only [hfsm] at hreact
    obtain ⟨rfl, rfl⟩ := Prod.mk.inj (Except.ok.inj hreact)
    exact .refl h
  · simp only [hfsm] at hreact
    obtain ⟨rfl, rfl⟩ := Prod.mk.inj (Except.ok.inj hreact)
    have hcounted := h.counted (.inl hfsm)
    refine ⟨?_, fun hgranted ↦ absurd hgranted (by decide), fun _ ↦
      ⟨hcounted.nonneg, le_rfl, hcounted.nonneg⟩⟩
    exact {
      lastChange_eq := h.lastChange_eq
      lastIdle_eq := h.lastIdle_eq
      lastChange_le := h.lastChange_le
      lastIdle_le := h.lastIdle_le
      mediumFree := h.mediumFree
      freeSince_le := h.freeSince_le
      stopped := fun hs ↦ absurd (.inl rfl) hs
      deferred := fun _ ↦ ⟨(h.deferred hfsm).1, (h.deferred hfsm).2.1, le_rfl⟩
      waiting := fun hs ↦ by cases hs
      counted := fun _ ↦ ⟨hcounted.slotTime_pos, hcounted.nonneg, hcounted.drawn_le⟩ }
  · simp only [hfsm] at hreact
    have hcounted := h.counted (.inr hfsm)
    have hwaiting := h.waiting hfsm
    obtain ⟨since, hsince, hle⟩ := hwaiting.free
    have hfree : s.contention.mediumFree = true := by rw [h.mediumFree, hsince]; rfl
    obtain ⟨delta, time, hok, hnow, hends, hlong⟩ :=
      Contention.scheduleTransmissionRequest_spec s.now
        (s := { s.contention with endEifsTime := s.now + s.contention.eifs, startTxEvent := none })
        hfree rfl hcounted.nonneg le_rfl fun hidle ↦ by cases hfsm.symm.trans hidle
    rw [if_neg fun hopt ↦ by cases hfsm.symm.trans (And.right hopt)] at hlong
    rw [Contention.switchToEifs, Contention.cancelTransmissionRequest, hok] at hreact
    obtain ⟨rfl, rfl⟩ := Prod.mk.inj (Except.ok.inj hreact)
    refine ⟨?_, fun hgranted ↦ absurd hgranted (by decide), fun _ ↦
      ⟨hcounted.nonneg, le_rfl, hcounted.nonneg⟩⟩
    exact {
      lastChange_eq := h.lastChange_eq
      lastIdle_eq := h.lastIdle_eq
      lastChange_le := h.lastChange_le
      lastIdle_le := h.lastIdle_le
      mediumFree := h.mediumFree
      freeSince_le := h.freeSince_le
      stopped := fun hs ↦ absurd (.inr rfl) hs
      deferred := fun hs ↦ by cases hs
      waiting := fun _ ↦ {
        scheduled := rfl
        now_le := hnow
        free := hwaiting.free
        periodStart_le := hwaiting.periodStart_le
        eifs := le_rfl
        long := le_trans (add_le_add_left (add_le_add_left hwaiting.periodStart_le _) _) hlong
        endEifsTime_le := hends }
      counted := fun _ ↦ ⟨hcounted.slotTime_pos, hcounted.nonneg, hcounted.drawn_le⟩ }
  · simp only [hfsm] at hreact
    obtain ⟨rfl, rfl⟩ := Prod.mk.inj (Except.ok.inj hreact)
    exact .refl h

/-- With the optimization, the first period begins with the last change of the medium or the last
return to IDLE. -/
theorem StepOk.start {params : ContentionParams} (h : s.Timed)
    (hreact : s.react (.start params) = .ok (c, o)) : s.StepOk (s.observe c (.start params)) o := by
  rw [react, Contention.startContention] at hreact
  split_ifs at hreact with hfsm
  have hnot : ¬ s.Contending := fun hc ↦ by
    rw [Contending, hfsm] at hc
    rcases hc with hc | hc <;> cases hc
  obtain ⟨hnone, hends⟩ := h.stopped hnot
  have hcounted : (0 : ℤ) ≤ params.backoffSlots := Int.natCast_nonneg _
  rcases hfree : s.contention.mediumFree
  · rw [Contention.handleWithFSM.eq_def] at hreact
    simp only [Contention.setParams, hfsm, hfree, Bool.false_eq_true, if_false] at hreact
    obtain ⟨rfl, rfl⟩ := Prod.mk.inj (Except.ok.inj hreact)
    refine ⟨?_, fun hgranted ↦ absurd hgranted (by decide), fun hc ↦ absurd hc hnot⟩
    exact {
      lastChange_eq := h.lastChange_eq
      lastIdle_eq := h.lastIdle_eq
      lastChange_le := h.lastChange_le
      lastIdle_le := h.lastIdle_le
      mediumFree := hfree.symm.trans h.mediumFree
      freeSince_le := h.freeSince_le
      stopped := fun hs ↦ absurd (.inl rfl) hs
      deferred := fun _ ↦ ⟨hnone, Option.isSome_eq_false_iff.1 (h.mediumFree.symm.trans hfree) |>
        Option.isNone_iff_eq_none.1, hends.trans (le_add_of_nonneg_right (Int.natCast_nonneg _))⟩
      waiting := fun hs ↦ by cases hs
      counted := fun _ ↦ ⟨params.slotTime_pos, hcounted, (zero_add _).ge⟩ }
  · have heifs : s.contention.endEifsTime ≤ s.now + params.eifs :=
      hends.trans (le_add_of_nonneg_right (Int.natCast_nonneg _))
    obtain ⟨delta, time, hok, hnow, hends', hlong⟩ :=
      Contention.scheduleTransmissionRequest_spec s.now
        (s := s.contention.setParams params) hfree hnone hcounted heifs
        fun _ ↦ ⟨hends, h.lastChange_eq.trans_le h.lastChange_le,
          h.lastIdle_eq.trans_le h.lastIdle_le⟩
    have hlong' : (if s.contention.backoffOptimization = true then max s.lastChange s.lastIdle
        else s.now) + params.ifs + params.backoffSlots * params.slotTime ≤ time := by
      rw [← h.lastChange_eq, ← h.lastIdle_eq]
      simpa [Contention.setParams, hfsm] using hlong
    rw [(Contention.handleWithFSM_free (s := s.contention.setParams params) hfree).1 hfsm, hok] at hreact
    obtain ⟨rfl, rfl⟩ := Prod.mk.inj (Except.ok.inj hreact)
    obtain ⟨since, hsince⟩ : ∃ since, s.freeSince = some since :=
      Option.isSome_iff_exists.1 (h.mediumFree.symm.trans hfree)
    have hstart : (if s.contention.backoffOptimization = true then max s.lastChange s.lastIdle
        else s.now) ≤ s.now ∧ since ≤ if s.contention.backoffOptimization = true then
          max s.lastChange s.lastIdle else s.now := by
      have := h.freeSince_le since hsince
      have := h.lastChange_le
      have := h.lastIdle_le
      split_ifs <;> omega
    refine ⟨?_, fun hgranted ↦ absurd hgranted (by decide), fun hc ↦ absurd hc hnot⟩
    exact {
      lastChange_eq := h.lastChange_eq
      lastIdle_eq := h.lastIdle_eq
      lastChange_le := h.lastChange_le
      lastIdle_le := h.lastIdle_le
      mediumFree := h.mediumFree
      freeSince_le := h.freeSince_le
      stopped := fun hs ↦ absurd (.inr rfl) hs
      deferred := fun hs ↦ by cases hs
      waiting := fun _ ↦ {
        scheduled := rfl
        now_le := hnow
        free := ⟨since, hsince, hstart.2⟩
        periodStart_le := hstart.1
        eifs := heifs
        long := hlong'
        endEifsTime_le := hends' }
      counted := fun _ ↦ ⟨params.slotTime_pos, hcounted, (zero_add _).ge⟩ }

/-- A change of the medium that the contention only notes. -/
theorem StepOk.noted (h : s.Timed) (hnot : ¬ s.Contending) (mediumFree : Bool) :
    s.StepOk (s.observe (s.contention.setMediumFree s.now mediumFree)
      (.mediumStateChanged mediumFree)) none := by
  refine ⟨?_, fun hgranted ↦ absurd hgranted (by decide), fun hc ↦ absurd hc hnot⟩
  rcases mediumFree
  · exact {
      lastChange_eq := rfl
      lastIdle_eq := h.lastIdle_eq
      lastChange_le := le_rfl
      lastIdle_le := h.lastIdle_le
      mediumFree := rfl
      freeSince_le := fun _ hs ↦ by cases hs
      stopped := fun _ ↦ h.stopped hnot
      deferred := fun hs ↦ absurd (.inl hs) hnot
      waiting := fun hs ↦ absurd (.inr hs) hnot
      counted := fun hs ↦ absurd hs hnot }
  · exact {
      lastChange_eq := rfl
      lastIdle_eq := h.lastIdle_eq
      lastChange_le := le_rfl
      lastIdle_le := h.lastIdle_le
      mediumFree := rfl
      freeSince_le := fun since hs ↦ by
        obtain rfl := Option.some.inj hs
        rcases hsince : s.freeSince with _ | since
        · exact le_rfl
        · exact (h.freeSince_le since hsince).trans h.lastChange_le
      stopped := fun _ ↦ h.stopped hnot
      deferred := fun hs ↦ absurd (.inl hs) hnot
      waiting := fun hs ↦ absurd (.inr hs) hnot
      counted := fun hs ↦ absurd hs hnot }

/-- When the medium becomes busy, the slots of the period that ends have been taken off the backoff.
-/
theorem StepOk.busy (h : s.Timed) (hfsm : s.contention.fsm = .ifsAndBackoff)
    (hreact : s.react (.mediumStateChanged false) = .ok (c, o)) :
    s.StepOk (s.observe c (.mediumStateChanged false)) o := by
  have hcounted := h.counted (.inr hfsm)
  have hwaiting := h.waiting hfsm
  obtain ⟨since, hsince, -⟩ := hwaiting.free
  obtain ⟨slots, hremaining, hnonneg, hle, hgone⟩ :=
    Contention.computeRemainingBackoffSlots_spec s.now (s.periodStart + s.contention.ifs)
      (s := (s.contention.setMediumFree s.now false).cancelTransmissionRequest)
      hcounted.slotTime_pos hwaiting.now_le hwaiting.long hcounted.nonneg
  rw [react, Contention.mediumStateChanged,
    Contention.handleWithFSM_busy (s := s.contention.setMediumFree s.now false) rfl hfsm,
    hremaining] at hreact
  obtain ⟨rfl, rfl⟩ := Prod.mk.inj (Except.ok.inj hreact)
  refine ⟨?_, fun hgranted ↦ absurd hgranted (by decide), fun _ ↦ ⟨hcounted.nonneg, hle, hnonneg⟩⟩
  exact {
    lastChange_eq := rfl
    lastIdle_eq := h.lastIdle_eq
    lastChange_le := le_rfl
    lastIdle_le := h.lastIdle_le
    mediumFree := rfl
    freeSince_le := fun _ hs ↦ by cases hs
    stopped := fun hs ↦ absurd (.inl rfl) hs
    deferred := fun _ ↦ ⟨rfl, rfl, hwaiting.eifs⟩
    waiting := fun hs ↦ by cases hs
    counted := fun _ ↦ ⟨hcounted.slotTime_pos, hnonneg, by
      have hdrawn := hcounted.drawn_le
      have hgone' : s.contention.backoffSlots ≤ slots +
        max 0 ((s.now - (s.periodStart + s.contention.ifs)) / s.contention.slotTime) := hgone
      show s.drawn ≤ (if s.freeSince.isSome then s.slots + s.wholeSlots else s.slots) + slots
      rw [hsince, Option.isSome_some, if_pos rfl, wholeSlots, sub_sub]
      omega⟩ }

theorem StepOk.free (h : s.Timed) (hfsm : s.contention.fsm = .defer)
    (hreact : s.react (.mediumStateChanged true) = .ok (c, o)) :
    s.StepOk (s.observe c (.mediumStateChanged true)) o := by
  have hcounted := h.counted (.inl hfsm)
  obtain ⟨hnone, hbusy, heifs⟩ := h.deferred hfsm
  obtain ⟨delta, time, hok, hnow, hends, hlong⟩ :=
    Contention.scheduleTransmissionRequest_spec s.now
      (s := s.contention.setMediumFree s.now true) rfl hnone hcounted.nonneg heifs
      fun hidle ↦ by cases hfsm.symm.trans hidle
  rw [if_neg fun hopt ↦ by cases hfsm.symm.trans (And.right hopt)] at hlong
  rw [react, Contention.mediumStateChanged,
    (Contention.handleWithFSM_free (s := s.contention.setMediumFree s.now true) rfl).2 hfsm,
    hok] at hreact
  obtain ⟨rfl, rfl⟩ := Prod.mk.inj (Except.ok.inj hreact)
  refine ⟨?_, fun hgranted ↦ absurd hgranted (by decide), fun _ ↦
    ⟨hcounted.nonneg, le_rfl, hcounted.nonneg⟩⟩
  exact {
    lastChange_eq := rfl
    lastIdle_eq := h.lastIdle_eq
    lastChange_le := le_rfl
    lastIdle_le := h.lastIdle_le
    mediumFree := rfl
    freeSince_le := fun since hs ↦ by
      obtain rfl := Option.some.inj hs
      rw [hbusy]
      exact le_rfl
    stopped := fun hs ↦ absurd (.inr rfl) hs
    deferred := fun hs ↦ by cases hs
    waiting := fun _ ↦ {
      scheduled := rfl
      now_le := hnow
      free := ⟨s.now, by rw [observe, hbusy, Option.getD_none], by
        rw [observe, hbusy, Option.isSome_none, if_neg Bool.false_ne_true]⟩
      periodStart_le := by rw [observe, hbusy, Option.isSome_none, if_neg Bool.false_ne_true]
      eifs := heifs
      long := by
        rw [observe, hbusy, Option.isSome_none, if_neg Bool.false_ne_true]
        exact hlong
      endEifsTime_le := hends }
    counted := fun _ ↦ ⟨hcounted.slotTime_pos, hcounted.nonneg, hcounted.drawn_le⟩ }

theorem StepOk.mediumStateChanged {mediumFree : Bool} (h : s.Timed)
    (hreact : s.react (.mediumStateChanged mediumFree) = .ok (c, o)) :
    s.StepOk (s.observe c (.mediumStateChanged mediumFree)) o := by
  by_cases hc : s.Contending
  · rcases hc with hfsm | hfsm
    · rcases mediumFree
      · rw [react, Contention.mediumStateChanged, Contention.handleWithFSM.eq_def] at hreact
        simp [Contention.setMediumFree, hfsm] at hreact
      · exact .free h hfsm hreact
    · rcases mediumFree
      · exact .busy h hfsm hreact
      · rw [react, Contention.mediumStateChanged, Contention.handleWithFSM.eq_def] at hreact
        simp [Contention.setMediumFree, hfsm] at hreact
  · have hok : s.react (.mediumStateChanged mediumFree) =
        .ok (s.contention.setMediumFree s.now mediumFree, none) := by
      rw [react, Contention.mediumStateChanged, Contention.handleWithFSM.eq_def]
      rcases hfsm : s.contention.fsm
      · simp only [Contention.setMediumFree, hfsm]
      · exact absurd (.inl hfsm) hc
      · exact absurd (.inr hfsm) hc
      · simp only [Contention.setMediumFree, hfsm]
    obtain ⟨rfl, rfl⟩ := Prod.mk.inj (Except.ok.inj (hok.symm.trans hreact))
    exact .noted h hc mediumFree

/-- Every step is as it should be. -/
theorem Timed.step {i : ContentionInput} (h : s.Timed) (hallowed : s.Allowed i)
    (hreact : s.react i = .ok (c, o)) : s.StepOk (s.observe c i) o := by
  rcases i with time | params | mediumFree | _ | _ | _
  · obtain ⟨rfl, rfl⟩ := Prod.mk.inj (Except.ok.inj hreact)
    exact .advance h hallowed
  · exact .start h hreact
  · exact .mediumStateChanged h hreact
  · exact .corruptedFrameReceived h hreact
  · exact .channelReleased h hreact
  · exact .startTx h hallowed hreact

end ObservedContention

namespace Contention

open ObservedContention

variable {backoffOptimization initialChannelBusy : Bool}
  {tr : List (Transition ObservedContention ContentionInput (Option ContentionReport))}
  {s : ObservedContention}

theorem timed (h : (system backoffOptimization initialChannelBusy).Run tr s) : s.Timed := by
  refine h.invariant (fun s hs ↦ ?_) fun s i o s' hs hstep ↦ ?_
  · obtain ⟨now, hnow, rfl⟩ := hs
    have hbefore : now - maxTime / 2 ≤ now := by
      rw [maxTime]
      omega
    have hchange : (if initialChannelBusy = false ∧ now = 0 then now - maxTime / 2 else 0) ≤ now := by
      split_ifs
      exacts [hbefore, hnow]
    exact {
      lastChange_eq := rfl
      lastIdle_eq := rfl
      lastChange_le := hchange
      lastIdle_le := hbefore
      mediumFree := rfl
      freeSince_le := fun _ hs ↦ by cases hs
      stopped := fun _ ↦ ⟨rfl, hnow⟩
      deferred := fun hs ↦ by cases hs
      waiting := fun hs ↦ by cases hs
      counted := fun hs ↦ by rcases hs with hs | hs <;> cases hs }
  · obtain ⟨hallowed, c, hreact, rfl⟩ := hstep
    exact (hs.step hallowed hreact).timed

/-- What an input that does not fail leads to. -/
def after (s : ObservedContention) (i : ContentionInput) : ObservedContention :=
  s.observe (((s.react i).toOption.map Prod.fst).getD s.contention) i

theorem step_after {i : ContentionInput} {o : Option ContentionReport} (hallowed : s.Allowed i)
    (hok : (s.react i).toOption.map Prod.snd = some o) :
    (system backoffOptimization initialChannelBusy).Step s i o (after s i) := by
  refine ⟨hallowed, ((s.react i).toOption.map Prod.fst).getD s.contention, ?_, rfl⟩
  rcases hreact : s.react i with e | ⟨c, o'⟩
  · rw [hreact] at hok
    cases hok
  · rw [hreact] at hok
    rw [← Option.some.inj hok]
    rfl

end Contention

end Inet
