import Inet.LinkLayer.ExchangeAttempts
import Inet.LinkLayer.FrameExchanges

/-!
# Unicast exchanges conclude

The exchange with an ACK has one stage in each attempt, and the exchange with RTS and CTS has two.
Both do what their stages say, so that they conclude. What differs is the number of attempts: the
exchange with an ACK compares the count of the next attempt with the limit, and the exchange with
RTS and CTS the count of the last one.
-/

namespace Inet

open StepBasedFrameExchange

/-- An exchange in one of its steps, between two operations. -/
def StepBasedFrameExchange.inStep {σ : Type} (m : σ) (step : ℤ) (tm : Option Bool) (g : ℤ)
    (channel : ChannelState) (sent : List SentFrame) : StepBasedFrameExchange σ where
  members := m
  step := step
  timeoutMsg := tm
  gotoTarget := g
  channel := channel
  sent := sent

theorem StepBasedFrameExchange.releaseChannel_inStep {σ : Type} {m : σ} {step : ℤ} {tm : Option Bool}
    {g : ℤ} {channel : ChannelState} {sent : List SentFrame} (hchannel : channel ≠ .contending) :
    releaseChannel (inStep m step tm g channel sent) = .ok (inStep m step tm g .idle sent) :=
  if_neg hchannel

/-- The frame with the data. -/
def StepBasedFrameExchange.SentFrame.isData : SentFrame → Bool
  | .data _ => true
  | .rts => false

namespace SendDataWithAckFrameExchange

variable (params : MacParameters)

/-- One stage in each attempt. -/
def stages : Stages Members where
  count := 1
  frame _ m := .data m.retryFlag
  reply _ := .ack
  fullTimeout := params.useFullAckTimeout
  retry _ m :=
    if m.retryCount + 1 < params.shortRetryLimit then
      .ok { m with retryFlag := true, retryCount := m.retryCount + 1 }
    else .error { m with linkBreak := true }

variable {params} {m : Members} {step : ℤ} {tm : Option Bool} {g : ℤ} {channel : ChannelState}
  {sent : List SentFrame}

/-- A failure leads to another attempt or to the end. -/
theorem goOn_retry (cause : Option ℕ) (phase : Phase) (htm : tm ≠ some true)
    (hchannel : channel ≠ .contending) :
    ∃ s', (retry params (inStep m step tm g channel sent) >>= goOn (steps params)) = .ok s' ∧
      (stages params).Shape ((stages params).failed cause ⟨phase, m, sent⟩) s' := by
  rw [retry, releaseChannel_inStep hchannel]
  by_cases hlimit : m.retryCount + 1 < params.shortRetryLimit
  · have hfailed : (stages params).failed cause ⟨phase, m, sent⟩ =
        ⟨.contending, { m with retryFlag := true, retryCount := m.retryCount + 1 }, sent⟩ := by
      rw [Stages.failed, stages]
      simp only [if_pos hlimit]
    rw [hfailed]
    refine ⟨_, ?_, .contending _ sent tm 0 htm⟩
    show (if m.retryCount + 1 < params.shortRetryLimit then _ else _) >>= _ = _
    rw [if_pos hlimit]
    rfl
  · have hfailed : (stages params).failed cause ⟨phase, m, sent⟩ =
        ⟨.ended false, { m with linkBreak := true }, sent⟩ := by
      rw [Stages.failed, stages]
      simp only [if_neg hlimit]
    rw [hfailed]
    refine ⟨_, ?_, .ended false _ sent step .fail (tm.map fun _ ↦ false) g⟩
    show (if m.retryCount + 1 < params.shortRetryLimit then _ else _) >>= _ = _
    rw [if_neg hlimit]
    rfl

theorem acknowledged (params : MacParameters) : Acknowledged (stages params) := by
  refine ⟨Nat.one_pos, fun k hk ↦ ?_⟩
  obtain rfl := Nat.lt_one_iff.1 hk
  exact iff_of_true rfl rfl

/-- The attempts that are left. -/
def attemptsLeft (params : MacParameters) (m : Members) : ℕ :=
  (params.shortRetryLimit - m.retryCount).toNat

theorem bounds (params : MacParameters) :
    Simulates.Bounds (stages params) (attemptsLeft params) := by
  intro cause m m' hretry
  dsimp only [stages] at hretry
  split_ifs at hretry with hlimit
  obtain rfl := Except.ok.inj hretry
  show (params.shortRetryLimit - (m.retryCount + 1)).toNat < (params.shortRetryLimit - m.retryCount).toNat
  omega

/-- A reaction that ends with a failure. -/
theorem react_failed {e : Event} {s : StepBasedFrameExchange Members} (cause : Option ℕ) {phase : Phase}
    (htm : tm ≠ some true) (hchannel : channel ≠ .contending) (hphase : phase ≠ .ended false)
    (hreact : s.react (steps params) e =
      (retry params (inStep m step tm g channel sent) >>= goOn (steps params)).map (.ignored, ·)) :
    ∃ s', s.react (steps params) e = .ok (.ignored, s') ∧
      (stages params).Shape ((stages params).failed cause ⟨phase, m, sent⟩) s' ∧
      ((stages params).failed cause ⟨phase, m, sent⟩ = ⟨phase, m, sent⟩ → s' = s) := by
  obtain ⟨s', hok, hshape⟩ := goOn_retry cause phase htm hchannel
  refine ⟨s', by rw [hreact, hok]; rfl, hshape, fun heq ↦ ?_⟩
  exact absurd heq (Simulates.failed_ne (bounds params) cause hphase)

/-- Waiting for the ACK. The time-out is handled at once where the whole reply had to be there. -/
theorem react_waiting {scheduled : Bool} {e : Event} {s : StepBasedFrameExchange Members}
    (hscheduled : scheduled = true ∨ params.useFullAckTimeout = false)
    (hshape : (stages params).Shape ⟨.waiting 0 scheduled, m, sent⟩ s) (hen : s.Enabled e) :
    ∃ s', s.react (steps params) e =
        .ok (((stages params).next ⟨.waiting 0 scheduled, m, sent⟩ e).1, s') ∧
      (stages params).Shape ((stages params).next ⟨.waiting 0 scheduled, m, sent⟩ e).2 s' ∧
      (((stages params).next ⟨.waiting 0 scheduled, m, sent⟩ e).2 = ⟨.waiting 0 scheduled, m, sent⟩ →
        s' = s) := by
  have hunset : some false ≠ some true := by decide
  have howning : ChannelState.owning ≠ .contending := by decide
  rcases params with ⟨shortLimit, longLimit, full⟩
  rcases hshape with ⟨⟩ | ⟨⟩ | ⟨_, _, _, _, g, hk, _⟩ | ⟨⟩
  rcases e with _ | _ | _ | frame | _ | reception
  · cases hen.2
  · cases hen.2
  · cases hen.2
  · rcases frame with _ | _ | _
    · rcases full
      · exact ⟨_, rfl, .ended true m sent 3 .succeed (some false) g, fun h ↦ by cases h⟩
      · exact ⟨_, rfl, .ended true m sent 3 .succeed (some false) g, fun h ↦ by cases h⟩
    all_goals
      rcases full
      · rcases scheduled
        · exact react_failed (e := .frameReceived _) (some 0) hunset howning (fun h ↦ by cases h) rfl
        · exact ⟨_, rfl, .waiting 0 true m sent g hk hscheduled, fun _ ↦ rfl⟩
      · exact ⟨_, rfl, .waiting 0 _ m sent g hk hscheduled, fun _ ↦ rfl⟩
  · rcases full
    · rcases scheduled
      · exact react_failed (e := .corruptedFrameReceived) (some 0) hunset howning (fun h ↦ by cases h) rfl
      · exact ⟨_, rfl, .waiting 0 true m sent g hk hscheduled, fun _ ↦ rfl⟩
    · exact ⟨_, rfl, .waiting 0 _ m sent g hk hscheduled, fun _ ↦ rfl⟩
  · obtain rfl := Option.some.inj hen.2
    rcases full
    · rcases reception
      · exact react_failed (e := .timeout false) (some 0) hunset howning (fun h ↦ by cases h) rfl
      · exact ⟨_, rfl, .waiting 0 false m sent g hk (.inr rfl), fun h ↦ by cases h⟩
    · exact react_failed (e := .timeout reception) (some 0) hunset howning (fun h ↦ by cases h) rfl

theorem simulates (params : MacParameters) : Simulates (steps params) (stages params) {} where
  start := ⟨_, rfl, .contending _ _ none 0 (by decide)⟩
  react {a s e} hshape hen := by
    rcases hshape with ⟨m, sent, tm, g, htm⟩ | ⟨k, m, sent, tm, g, hk, htm⟩ |
      ⟨k, scheduled, m, sent, g, hk, hscheduled⟩ | ⟨success, m, sent, step, operation, tm, g⟩
    · rcases e with _ | _ | _ | frame | _ | reception
      · exact ⟨_, rfl, .sending 0 m _ tm g Nat.one_pos htm, fun h ↦ by cases h⟩
      · exact react_failed (e := .internalCollision) none htm
          (show ChannelState.idle ≠ .contending by decide) (fun h ↦ by cases h) rfl
      · cases hen.2
      · exact ⟨_, rfl, .contending m sent tm g htm, fun _ ↦ rfl⟩
      · exact ⟨_, rfl, .contending m sent tm g htm, fun _ ↦ rfl⟩
      · exact absurd hen.2 htm
    · obtain rfl := Nat.lt_one_iff.1 hk
      rcases e with _ | _ | _ | frame | _ | reception
      · cases hen.2
      · cases hen.2
      · -- the message for the time-out is made once and then used again
        refine ⟨_, ?_, .waiting 0 true m sent g hk (.inl rfl), fun h ↦ by cases h⟩
        rcases params with ⟨shortLimit, longLimit, _ | _⟩
        all_goals
          rcases tm with _ | _ | _
          · rfl
          · rfl
          · exact absurd rfl htm
      · exact ⟨_, rfl, .sending 0 m sent tm g hk htm, fun _ ↦ rfl⟩
      · exact ⟨_, rfl, .sending 0 m sent tm g hk htm, fun _ ↦ rfl⟩
      · exact absurd hen.2 htm
    · obtain rfl := Nat.lt_one_iff.1 hk
      exact react_waiting hscheduled (.waiting 0 scheduled m sent g hk hscheduled) hen
    · rcases e with _ | _ | _ | _ | _ | _ <;> simp [Enabled] at hen

/-- Each frame has its own count, and the counts stay below the limit. -/
structure Counted (params : MacParameters) (a : Attempt Members) : Prop where
  retryCount_lt : a.members.retryCount < params.shortRetryLimit
  data_le : (a.sent.countP SentFrame.isData : ℤ) ≤
    a.members.retryCount + (if a.phase = .contending then 0 else 1)

theorem Counted.failed {a : Attempt Members} (h : Counted params a) (cause : Option ℕ) :
    Counted params ((stages params).failed cause a) := by
  obtain ⟨hlt, hle⟩ := h
  have hphase : (if a.phase = .contending then (0 : ℤ) else 1) ≤ 1 := by split_ifs <;> decide
  rw [Stages.failed, stages]
  by_cases hlimit : a.members.retryCount + 1 < params.shortRetryLimit
  · simp only [if_pos hlimit]
    refine ⟨hlimit, hle.trans ?_⟩
    show _ ≤ a.members.retryCount + 1 + 0
    omega
  · simp only [if_neg hlimit]
    refine ⟨hlt, hle.trans ?_⟩
    show _ ≤ a.members.retryCount + 1
    omega

/-- What an event does to the counts. -/
theorem Counted.next {a : Attempt Members} (h : Counted params a) (e : Event) :
    Counted params ((stages params).next a e).2 := by
  have hmoves := (stages params).moves a e
  generalize ((stages params).next a e).2 = a' at hmoves ⊢
  rcases hmoves with _ | hphase | hphase | ⟨k, hphase⟩ | ⟨k, scheduled, hphase⟩ |
    ⟨k, scheduled, hphase⟩ | ⟨k, scheduled, _, hphase, hmissed⟩
  · exact h
  · have hle := h.data_le
    rw [if_pos hphase, add_zero] at hle
    refine ⟨h.retryCount_lt, ?_⟩
    show ((a.sent ++ [SentFrame.data a.members.retryFlag]).countP SentFrame.isData : ℤ) ≤
      a.members.retryCount + 1
    rw [List.countP_append, Nat.cast_add]
    exact Int.add_le_add_right hle 1
  · exact h.failed none
  · exact ⟨h.retryCount_lt, by simpa [hphase] using h.data_le⟩
  · exact ⟨h.retryCount_lt, by simpa [hphase] using h.data_le⟩
  · have hover : (stages params).replied k a = { a with phase := .ended true } := if_neg (by
      show ¬ k + 1 < 1
      omega)
    rw [hover]
    exact ⟨h.retryCount_lt, by simpa [hphase] using h.data_le⟩
  · exact h.failed (some k)

end SendDataWithAckFrameExchange

namespace SendDataWithRtsCtsFrameExchange

variable (params : MacParameters)

/-- Two stages in each attempt. A missing ACK counts for itself, everything else counts for the RTS.
-/
def stages : Stages Members where
  count := 2
  frame k m := if k = 0 then .rts else .data m.retryFlag
  reply k := if k = 0 then .cts else .ack
  fullTimeout := false
  retry cause m :=
    if cause = some 1 then
      if m.longRetryCount < params.longRetryLimit then
        .ok { m with retryFlag := true, longRetryCount := m.longRetryCount + 1 }
      else .error m
    else if m.shortRetryCount < params.shortRetryLimit then
      .ok { m with shortRetryCount := m.shortRetryCount + 1 }
    else .error m

variable {params} {m : Members} {step : ℤ} {tm : Option Bool} {g : ℤ} {channel : ChannelState}
  {sent : List SentFrame}

/-- A failure without an RTS or a CTS leads to another attempt or to the end. -/
theorem goOn_retryRtsCts {cause : Option ℕ} (phase : Phase) (hcause : cause ≠ some 1)
    (htm : tm ≠ some true) (hchannel : channel ≠ .contending) :
    ∃ s', (retryRtsCts params (inStep m step tm g channel sent) >>= goOn (steps params)) = .ok s' ∧
      (stages params).Shape ((stages params).failed cause ⟨phase, m, sent⟩) s' := by
  rw [retryRtsCts, releaseChannel_inStep hchannel]
  by_cases hlimit : m.shortRetryCount < params.shortRetryLimit
  · have hfailed : (stages params).failed cause ⟨phase, m, sent⟩ =
        ⟨.contending, { m with shortRetryCount := m.shortRetryCount + 1 }, sent⟩ := by
      rw [Stages.failed, stages]
      simp only [if_neg hcause, if_pos hlimit]
    rw [hfailed]
    refine ⟨_, ?_, .contending _ sent tm 0 htm⟩
    show (if m.shortRetryCount < params.shortRetryLimit then _ else _) >>= _ = _
    rw [if_pos hlimit]
    rfl
  · have hfailed : (stages params).failed cause ⟨phase, m, sent⟩ = ⟨.ended false, m, sent⟩ := by
      rw [Stages.failed, stages]
      simp only [if_neg hcause, if_neg hlimit]
    rw [hfailed]
    refine ⟨_, ?_, .ended false m sent step .fail (tm.map fun _ ↦ false) g⟩
    show (if m.shortRetryCount < params.shortRetryLimit then _ else _) >>= _ = _
    rw [if_neg hlimit]
    rfl

/-- A failure without an ACK leads to another attempt or to the end. -/
theorem goOn_retryData (phase : Phase) (htm : tm ≠ some true) (hchannel : channel ≠ .contending) :
    ∃ s', (retryData params (inStep m step tm g channel sent) >>= goOn (steps params)) = .ok s' ∧
      (stages params).Shape ((stages params).failed (some 1) ⟨phase, m, sent⟩) s' := by
  rw [retryData, releaseChannel_inStep hchannel]
  by_cases hlimit : m.longRetryCount < params.longRetryLimit
  · have hfailed : (stages params).failed (some 1) ⟨phase, m, sent⟩ =
        ⟨.contending, { m with retryFlag := true, longRetryCount := m.longRetryCount + 1 }, sent⟩ := by
      rw [Stages.failed, stages]
      simp only [if_true, if_pos hlimit]
    rw [hfailed]
    refine ⟨_, ?_, .contending _ sent tm 0 htm⟩
    show (if m.longRetryCount < params.longRetryLimit then _ else _) >>= _ = _
    rw [if_pos hlimit]
    rfl
  · have hfailed : (stages params).failed (some 1) ⟨phase, m, sent⟩ = ⟨.ended false, m, sent⟩ := by
      rw [Stages.failed, stages]
      simp only [if_true, if_neg hlimit]
    rw [hfailed]
    refine ⟨_, ?_, .ended false m sent step .fail (tm.map fun _ ↦ false) g⟩
    show (if m.longRetryCount < params.longRetryLimit then _ else _) >>= _ = _
    rw [if_neg hlimit]
    rfl

theorem acknowledged (params : MacParameters) : Acknowledged (stages params) := by
  refine ⟨Nat.two_pos, fun k hk ↦ ?_⟩
  rcases k with _ | _ | k
  · exact iff_of_false (show ReceivedFrame.cts ≠ .ack by decide) (show 1 ≠ 2 by decide)
  · exact iff_of_true rfl rfl
  · exact absurd hk (by show ¬ k + 2 < 2; omega)

/-- The attempts that are left, of both kinds. -/
def attemptsLeft (params : MacParameters) (m : Members) : ℕ :=
  (params.shortRetryLimit - m.shortRetryCount).toNat + (params.longRetryLimit - m.longRetryCount).toNat

theorem bounds (params : MacParameters) :
    Simulates.Bounds (stages params) (attemptsLeft params) := by
  intro cause m m' hretry
  dsimp only [stages] at hretry
  split_ifs at hretry with hcause hlimit hlimit
  · obtain rfl := Except.ok.inj hretry
    show (params.shortRetryLimit - m.shortRetryCount).toNat +
      (params.longRetryLimit - (m.longRetryCount + 1)).toNat < attemptsLeft params m
    rw [attemptsLeft]
    omega
  · obtain rfl := Except.ok.inj hretry
    show (params.shortRetryLimit - (m.shortRetryCount + 1)).toNat +
      (params.longRetryLimit - m.longRetryCount).toNat < attemptsLeft params m
    rw [attemptsLeft]
    omega

/-- A reaction that ends with a failure without an RTS or a CTS. -/
theorem react_failedRtsCts {e : Event} {s : StepBasedFrameExchange Members} {cause : Option ℕ}
    {phase : Phase} (hcause : cause ≠ some 1) (htm : tm ≠ some true) (hchannel : channel ≠ .contending)
    (hphase : phase ≠ .ended false)
    (hreact : s.react (steps params) e =
      (retryRtsCts params (inStep m step tm g channel sent) >>= goOn (steps params)).map (.ignored, ·)) :
    ∃ s', s.react (steps params) e = .ok (.ignored, s') ∧
      (stages params).Shape ((stages params).failed cause ⟨phase, m, sent⟩) s' ∧
      ((stages params).failed cause ⟨phase, m, sent⟩ = ⟨phase, m, sent⟩ → s' = s) := by
  obtain ⟨s', hok, hshape⟩ := goOn_retryRtsCts phase hcause htm hchannel
  refine ⟨s', by rw [hreact, hok]; rfl, hshape, fun heq ↦ ?_⟩
  exact absurd heq (Simulates.failed_ne (bounds params) cause hphase)

/-- A reaction that ends with a failure without an ACK. -/
theorem react_failedData {e : Event} {s : StepBasedFrameExchange Members} {phase : Phase}
    (htm : tm ≠ some true) (hchannel : channel ≠ .contending) (hphase : phase ≠ .ended false)
    (hreact : s.react (steps params) e =
      (retryData params (inStep m step tm g channel sent) >>= goOn (steps params)).map (.ignored, ·)) :
    ∃ s', s.react (steps params) e = .ok (.ignored, s') ∧
      (stages params).Shape ((stages params).failed (some 1) ⟨phase, m, sent⟩) s' ∧
      ((stages params).failed (some 1) ⟨phase, m, sent⟩ = ⟨phase, m, sent⟩ → s' = s) := by
  obtain ⟨s', hok, hshape⟩ := goOn_retryData phase htm hchannel
  refine ⟨s', by rw [hreact, hok]; rfl, hshape, fun heq ↦ ?_⟩
  exact absurd heq (Simulates.failed_ne (bounds params) (some 1) hphase)

/-- Waiting for the CTS. -/
theorem react_waitingCts {scheduled : Bool} {e : Event} {s : StepBasedFrameExchange Members}
    (hshape : (stages params).Shape ⟨.waiting 0 scheduled, m, sent⟩ s) (hen : s.Enabled e) :
    ∃ s', s.react (steps params) e =
        .ok (((stages params).next ⟨.waiting 0 scheduled, m, sent⟩ e).1, s') ∧
      (stages params).Shape ((stages params).next ⟨.waiting 0 scheduled, m, sent⟩ e).2 s' ∧
      (((stages params).next ⟨.waiting 0 scheduled, m, sent⟩ e).2 = ⟨.waiting 0 scheduled, m, sent⟩ →
        s' = s) := by
  have hcause : some 0 ≠ some 1 := by decide
  have hunset : some false ≠ some true := by decide
  have howning : ChannelState.owning ≠ .contending := by decide
  rcases hshape with ⟨⟩ | ⟨⟩ | ⟨_, _, _, _, g, hk, hscheduled⟩ | ⟨⟩
  rcases e with _ | _ | _ | frame | _ | reception
  · cases hen.2
  · cases hen.2
  · cases hen.2
  · rcases frame with _ | _ | _
    · rcases scheduled
      · exact react_failedRtsCts (e := .frameReceived _) hcause hunset howning (fun h ↦ by cases h) rfl
      · exact ⟨_, rfl, .waiting 0 true m sent g hk hscheduled, fun _ ↦ rfl⟩
    · exact ⟨_, rfl, .sending 1 m _ (some false) g Nat.one_lt_two hunset, fun h ↦ by cases h⟩
    · rcases scheduled
      · exact react_failedRtsCts (e := .frameReceived _) hcause hunset howning (fun h ↦ by cases h) rfl
      · exact ⟨_, rfl, .waiting 0 true m sent g hk hscheduled, fun _ ↦ rfl⟩
  · rcases scheduled
    · exact react_failedRtsCts (e := .corruptedFrameReceived) hcause hunset howning
        (fun h ↦ by cases h) rfl
    · exact ⟨_, rfl, .waiting 0 true m sent g hk hscheduled, fun _ ↦ rfl⟩
  · obtain rfl := Option.some.inj hen.2
    rcases reception
    · exact react_failedRtsCts (e := .timeout false) hcause hunset howning (fun h ↦ by cases h) rfl
    · exact ⟨_, rfl, .waiting 0 false m sent g hk (.inr rfl), fun h ↦ by cases h⟩

/-- Waiting for the ACK. -/
theorem react_waitingAck {scheduled : Bool} {e : Event} {s : StepBasedFrameExchange Members}
    (hshape : (stages params).Shape ⟨.waiting 1 scheduled, m, sent⟩ s) (hen : s.Enabled e) :
    ∃ s', s.react (steps params) e =
        .ok (((stages params).next ⟨.waiting 1 scheduled, m, sent⟩ e).1, s') ∧
      (stages params).Shape ((stages params).next ⟨.waiting 1 scheduled, m, sent⟩ e).2 s' ∧
      (((stages params).next ⟨.waiting 1 scheduled, m, sent⟩ e).2 = ⟨.waiting 1 scheduled, m, sent⟩ →
        s' = s) := by
  have hunset : some false ≠ some true := by decide
  have howning : ChannelState.owning ≠ .contending := by decide
  rcases hshape with ⟨⟩ | ⟨⟩ | ⟨_, _, _, _, g, hk, hscheduled⟩ | ⟨⟩
  rcases e with _ | _ | _ | frame | _ | reception
  · cases hen.2
  · cases hen.2
  · cases hen.2
  · rcases frame with _ | _ | _
    · exact ⟨_, rfl, .ended true m sent 5 .succeed (some false) g, fun h ↦ by cases h⟩
    all_goals
      rcases scheduled
      · exact react_failedData (e := .frameReceived _) hunset howning (fun h ↦ by cases h) rfl
      · exact ⟨_, rfl, .waiting 1 true m sent g hk hscheduled, fun _ ↦ rfl⟩
  · rcases scheduled
    · exact react_failedData (e := .corruptedFrameReceived) hunset howning (fun h ↦ by cases h) rfl
    · exact ⟨_, rfl, .waiting 1 true m sent g hk hscheduled, fun _ ↦ rfl⟩
  · obtain rfl := Option.some.inj hen.2
    rcases reception
    · exact react_failedData (e := .timeout false) hunset howning (fun h ↦ by cases h) rfl
    · exact ⟨_, rfl, .waiting 1 false m sent g hk (.inr rfl), fun h ↦ by cases h⟩

theorem simulates (params : MacParameters) : Simulates (steps params) (stages params) {} where
  start := ⟨_, rfl, .contending _ _ none 0 (by decide)⟩
  react {a s e} hshape hen := by
    rcases hshape with ⟨m, sent, tm, g, htm⟩ | ⟨k, m, sent, tm, g, hk, htm⟩ |
      ⟨k, scheduled, m, sent, g, hk, hscheduled⟩ | ⟨success, m, sent, step, operation, tm, g⟩
    · rcases e with _ | _ | _ | frame | _ | reception
      · exact ⟨_, rfl, .sending 0 m _ tm g Nat.two_pos htm, fun h ↦ by cases h⟩
      · exact react_failedRtsCts (e := .internalCollision) (by decide) htm
          (show ChannelState.idle ≠ .contending by decide) (fun h ↦ by cases h) rfl
      · cases hen.2
      · exact ⟨_, rfl, .contending m sent tm g htm, fun _ ↦ rfl⟩
      · exact ⟨_, rfl, .contending m sent tm g htm, fun _ ↦ rfl⟩
      · exact absurd hen.2 htm
    · rcases e with _ | _ | _ | frame | _ | reception
      · cases hen.2
      · cases hen.2
      · refine ⟨_, ?_, .waiting k true m sent g hk (.inl rfl), fun h ↦ by cases h⟩
        rcases k with _ | _ | k
        · rcases tm with _ | _ | _
          · rfl
          · rfl
          · exact absurd rfl htm
        · rcases tm with _ | _ | _
          · rfl
          · rfl
          · exact absurd rfl htm
        · exact absurd hk (by show ¬ k + 2 < 2; omega)
      · exact ⟨_, rfl, .sending k m sent tm g hk htm, fun _ ↦ rfl⟩
      · exact ⟨_, rfl, .sending k m sent tm g hk htm, fun _ ↦ rfl⟩
      · exact absurd hen.2 htm
    · rcases k with _ | _ | k
      · exact react_waitingCts (.waiting 0 scheduled m sent g hk hscheduled) hen
      · exact react_waitingAck (.waiting 1 scheduled m sent g hk hscheduled) hen
      · exact absurd hk (by show ¬ k + 2 < 2; omega)
    · rcases e with _ | _ | _ | _ | _ | _ <;> simp [Enabled] at hen

/-- The CTS has not come, so that the RTS counts as unanswered. -/
def CtsMissed (s : StepBasedFrameExchange Members) (e : Event) : Prop :=
  s.step = 2 ∧ s.status = .inProgress ∧
    match e with
    | .timeout isReceptionInProgress => isReceptionInProgress = false
    | .corruptedFrameReceived => s.timeoutMsg = some false
    | .frameReceived frame => frame ≠ .cts ∧ s.timeoutMsg = some false
    | _ => False

/-- An event does not meet a count that has reached its limit: neither does the CTS stay away, nor
does it come for one more transmission of the data. -/
def WithinLimits (params : MacParameters) (s : StepBasedFrameExchange Members) (e : Event) : Prop :=
  (CtsMissed s e → s.members.shortRetryCount < params.shortRetryLimit) ∧
  (s.step = 2 → e = .frameReceived .cts → s.members.longRetryCount < params.longRetryLimit)

instance (s : StepBasedFrameExchange Members) : DecidablePred (CtsMissed s)
  | .timeout isReceptionInProgress =>
    inferInstanceAs (Decidable (_ ∧ _ ∧ isReceptionInProgress = false))
  | .corruptedFrameReceived => inferInstanceAs (Decidable (_ ∧ _ ∧ s.timeoutMsg = some false))
  | .frameReceived frame =>
    inferInstanceAs (Decidable (_ ∧ _ ∧ frame ≠ .cts ∧ s.timeoutMsg = some false))
  | .channelAccessGranted | .internalCollision | .transmissionComplete =>
    inferInstanceAs (Decidable (_ ∧ _ ∧ False))

instance (s : StepBasedFrameExchange Members) : DecidablePred (WithinLimits params s) := fun e ↦
  inferInstanceAs (Decidable ((CtsMissed s e → _) ∧ (_ → e = .frameReceived .cts → _)))

/-- How many RTS frames have been followed neither by the data nor are waiting for their CTS. -/
def unansweredRts (s : StepBasedFrameExchange Members) : ℤ :=
  s.sent.count .rts - s.sent.countP SentFrame.isData -
    (if s.status = .inProgress ∧ (s.step = 1 ∨ s.step = 2) then 1 else 0)

/-- The RTS frames of an attempt that have not been answered by a CTS so far. -/
def openRts (a : Attempt Members) : ℤ :=
  a.sent.count .rts - a.sent.countP SentFrame.isData

/-- The counts of the frames, as far as the attempt has come. -/
structure Counted (params : MacParameters) (a : Attempt Members) : Prop where
  shortRetryCount_le : a.members.shortRetryCount ≤ params.shortRetryLimit
  longRetryCount_le : a.members.longRetryCount ≤ params.longRetryLimit
  data_le : (a.sent.countP SentFrame.isData : ℤ) ≤
    match a.phase with
    | .contending | .sending 0 | .waiting 0 _ => a.members.longRetryCount
    | _ => min params.longRetryLimit (a.members.longRetryCount + 1)
  openRts_le : openRts a ≤
    match a.phase with
    | .sending 0 | .waiting 0 _ => a.members.shortRetryCount + 1
    | _ => a.members.shortRetryCount

theorem openRts_rts (phase phase' : Phase) (m : Members) (sent : List SentFrame) :
    openRts ⟨phase', m, sent ++ [.rts]⟩ = openRts ⟨phase, m, sent⟩ + 1 := by
  show ((sent ++ [SentFrame.rts]).count SentFrame.rts : ℤ) -
      (sent ++ [SentFrame.rts]).countP SentFrame.isData =
    sent.count SentFrame.rts - sent.countP SentFrame.isData + 1
  rw [List.count_append, List.countP_append, Nat.cast_add, Nat.cast_add]
  show _ + (1 : ℤ) - (_ + 0) = _
  omega

theorem openRts_data (phase phase' : Phase) (m : Members) (sent : List SentFrame) (retry : Bool) :
    openRts ⟨phase', m, sent ++ [.data retry]⟩ = openRts ⟨phase, m, sent⟩ - 1 := by
  show ((sent ++ [SentFrame.data retry]).count SentFrame.rts : ℤ) -
      (sent ++ [SentFrame.data retry]).countP SentFrame.isData =
    sent.count SentFrame.rts - sent.countP SentFrame.isData - 1
  rw [List.count_append, List.countP_append, Nat.cast_add, Nat.cast_add]
  show _ + (0 : ℤ) - (_ + 1) = _
  omega

variable {a : Attempt Members} {s : StepBasedFrameExchange Members}

/-- A missing CTS below the limit, and a collision. -/
theorem Counted.failedRtsCts {cause : Option ℕ} (hcause : cause ≠ some 1)
    (hshort : a.members.shortRetryCount ≤ params.shortRetryLimit)
    (hlong : a.members.longRetryCount ≤ params.longRetryLimit)
    (hdata : (a.sent.countP SentFrame.isData : ℤ) ≤ a.members.longRetryCount)
    (hrts : openRts a ≤ a.members.shortRetryCount ∨
      openRts a ≤ a.members.shortRetryCount + 1 ∧ a.members.shortRetryCount < params.shortRetryLimit) :
    Counted params ((stages params).failed cause a) := by
  rw [Stages.failed, stages]
  by_cases hlimit : a.members.shortRetryCount < params.shortRetryLimit
  · simp only [if_neg hcause, if_pos hlimit]
    refine ⟨hlimit, hlong, hdata, ?_⟩
    show openRts a ≤ a.members.shortRetryCount + 1
    omega
  · simp only [if_neg hcause, if_neg hlimit]
    refine ⟨hshort, hlong, hdata.trans ?_, ?_⟩
    · show a.members.longRetryCount ≤ min params.longRetryLimit (a.members.longRetryCount + 1)
      omega
    · show openRts a ≤ a.members.shortRetryCount
      omega

/-- A missing ACK. -/
theorem Counted.failedData {scheduled : Bool} (h : Counted params a)
    (hphase : a.phase = .waiting 1 scheduled) : Counted params ((stages params).failed (some 1) a) := by
  rcases a with ⟨phase, m, sent⟩
  obtain rfl : phase = .waiting 1 scheduled := hphase
  obtain ⟨hshort, hlong, hdata, hrts⟩ := h
  rw [Stages.failed, stages]
  by_cases hlimit : m.longRetryCount < params.longRetryLimit
  · simp only [if_true, if_pos hlimit]
    exact ⟨hshort, hlimit, hdata.trans (min_le_right _ _), hrts⟩
  · simp only [if_true, if_neg hlimit]
    exact ⟨hshort, hlong, hdata, hrts⟩

theorem ctsMissed_of_missed {scheduled : Bool} {e : Event} (hstep : s.step = 2)
    (hstatus : s.status = .inProgress) (htm : s.timeoutMsg = some scheduled)
    (hmissed : (stages params).Missed 0 scheduled e) : CtsMissed s e := by
  refine ⟨hstep, hstatus, ?_⟩
  rcases e with _ | _ | _ | frame | _ | reception
  · exact hmissed
  · exact hmissed
  · exact hmissed
  · obtain ⟨hframe, -, rfl⟩ := hmissed
    exact ⟨hframe, htm⟩
  · obtain ⟨-, rfl⟩ := hmissed
    exact htm
  · exact hmissed.resolve_left (show false ≠ true by decide)

/-- What an event does to the counts. -/
theorem Counted.next {e : Event} (h : Counted params a) (hshape : (stages params).Shape a s)
    (hwithin : WithinLimits params s e) : Counted params ((stages params).next a e).2 := by
  have hmoves := (stages params).moves a e
  rcases a with ⟨phase, m, sent⟩
  generalize ((stages params).next ⟨phase, m, sent⟩ e).2 = a' at hmoves ⊢
  rcases hmoves with _ | hphase | hphase | ⟨k, hphase⟩ | ⟨k, scheduled, hphase⟩ |
    ⟨k, scheduled, hphase⟩ | ⟨k, scheduled, _, hphase, hmissed⟩
  · exact h
  · obtain rfl : phase = .contending := hphase
    obtain ⟨hshort, hlong, hdata, hrts⟩ := h
    refine ⟨hshort, hlong, ?_, ?_⟩
    · show ((sent ++ [SentFrame.rts]).countP SentFrame.isData : ℤ) ≤ m.longRetryCount
      rw [List.countP_append, Nat.cast_add]
      exact (add_zero _).trans_le hdata
    · show openRts ⟨.sending 0, m, sent ++ [.rts]⟩ ≤ m.shortRetryCount + 1
      rw [openRts_rts .contending]
      exact Int.add_le_add_right hrts 1
  · obtain rfl : phase = .contending := hphase
    exact .failedRtsCts (by decide) h.shortRetryCount_le h.longRetryCount_le h.data_le (.inl h.openRts_le)
  · obtain rfl : phase = .sending k := hphase
    rcases k with _ | k
    · exact ⟨h.shortRetryCount_le, h.longRetryCount_le, h.data_le, h.openRts_le⟩
    · exact ⟨h.shortRetryCount_le, h.longRetryCount_le, h.data_le, h.openRts_le⟩
  · obtain rfl : phase = .waiting k scheduled := hphase
    rcases k with _ | k
    · exact ⟨h.shortRetryCount_le, h.longRetryCount_le, h.data_le, h.openRts_le⟩
    · exact ⟨h.shortRetryCount_le, h.longRetryCount_le, h.data_le, h.openRts_le⟩
  · obtain rfl : phase = .waiting k scheduled := hphase
    obtain ⟨hk, hmembers, hstep, -, -⟩ := hshape.of_waiting rfl
    rcases k with _ | _ | k
    · obtain ⟨hshort, hlong, hdata, hrts⟩ := h
      have hlt := hwithin.2 hstep rfl
      rw [hmembers] at hlt
      refine ⟨hshort, hlong, ?_, ?_⟩
      · show ((sent ++ [SentFrame.data m.retryFlag]).countP SentFrame.isData : ℤ) ≤
          min params.longRetryLimit (m.longRetryCount + 1)
        rw [List.countP_append, Nat.cast_add]
        exact le_min ((Int.add_le_add_right hdata 1).trans hlt) (Int.add_le_add_right hdata 1)
      · show openRts ⟨.sending 1, m, sent ++ [.data m.retryFlag]⟩ ≤ m.shortRetryCount
        rw [openRts_data (.waiting 0 scheduled)]
        exact sub_le_iff_le_add.2 hrts
    · exact ⟨h.shortRetryCount_le, h.longRetryCount_le, h.data_le, h.openRts_le⟩
    · exact absurd hk (by show ¬ k + 2 < 2; omega)
  · obtain rfl : phase = .waiting k scheduled := hphase
    obtain ⟨hk, hmembers, hstep, hstatus, htm⟩ := hshape.of_waiting rfl
    rcases k with _ | _ | k
    · have hlt := hwithin.1 (ctsMissed_of_missed hstep hstatus htm hmissed)
      rw [hmembers] at hlt
      exact .failedRtsCts (by decide) h.shortRetryCount_le h.longRetryCount_le h.data_le
        (.inr ⟨h.openRts_le, hlt⟩)
    · exact h.failedData rfl
    · exact absurd hk (by show ¬ k + 2 < 2; omega)

theorem Counted.unansweredRts_le (h : Counted params a) (hshape : (stages params).Shape a s) :
    unansweredRts s ≤ params.shortRetryLimit := by
  obtain ⟨hshort, hlong, hdata, hrts⟩ := h
  rcases hshape with ⟨m, sent, tm, g, htm⟩ | ⟨k, m, sent, tm, g, hk, htm⟩ |
    ⟨k, scheduled, m, sent, g, hk, hscheduled⟩ | ⟨success, m, sent, step, operation, tm, g⟩
  · rw [unansweredRts, if_neg (by simp)]
    exact (sub_zero _).trans_le (hrts.trans hshort)
  · rcases k with _ | k
    · rw [unansweredRts, if_pos (by simp)]
      exact (sub_le_iff_le_add.2 hrts).trans hshort
    · rw [unansweredRts, if_neg (by simp; omega)]
      exact (sub_zero _).trans_le (hrts.trans hshort)
  · rcases k with _ | k
    · rw [unansweredRts, if_pos (by simp)]
      exact (sub_le_iff_le_add.2 hrts).trans hshort
    · rw [unansweredRts, if_neg (by simp; omega)]
      exact (sub_zero _).trans_le (hrts.trans hshort)
  · have hover : ¬ ((if success then Status.succeeded else .failed) = .inProgress ∧
        (step = 1 ∨ step = 2)) := by
      rcases success <;> simp
    rw [unansweredRts, if_neg hover]
    exact (sub_zero _).trans_le (hrts.trans hshort)

theorem Counted.dataCount_le (h : Counted params a) :
    (a.sent.countP SentFrame.isData : ℤ) ≤ params.longRetryLimit := by
  refine h.data_le.trans ?_
  split
  · exact h.longRetryCount_le
  · exact h.longRetryCount_le
  · exact h.longRetryCount_le
  · exact min_le_left _ _

end SendDataWithRtsCtsFrameExchange

/-- Both exchanges start, raise no error and conclude, after a number of changes that the limits
bound. The exchange with an ACK sends the data at most `shortRetryLimit` times. The exchange with
RTS and CTS sends it at most `longRetryLimit` times and leaves at most `shortRetryLimit` RTS frames
unanswered, as long as no event meets a count that has reached its limit. -/
theorem unicastExchanges_conclude (params : MacParameters) (hshort : 1 ≤ params.shortRetryLimit)
    (hlong : 1 ≤ params.longRetryLimit) :
    ((∃ s, start (SendDataWithAckFrameExchange.steps params) { members := {} } = .ok s) ∧
      ∀ tr s, (system (SendDataWithAckFrameExchange.steps params) {}).Run tr s →
        Concludes (SendDataWithAckFrameExchange.steps params) tr s ∧
        tr.countP (fun t ↦ t.post ≠ t.pre) ≤ 5 * params.shortRetryLimit.toNat + 4 ∧
        (s.sent.countP SentFrame.isData : ℤ) ≤ params.shortRetryLimit) ∧
    ((∃ s, start (SendDataWithRtsCtsFrameExchange.steps params) { members := {} } = .ok s) ∧
      ∀ tr s, (system (SendDataWithRtsCtsFrameExchange.steps params) {}).Run tr s →
        Concludes (SendDataWithRtsCtsFrameExchange.steps params) tr s ∧
        tr.countP (fun t ↦ t.post ≠ t.pre) ≤
          8 * (params.shortRetryLimit.toNat + params.longRetryLimit.toNat) + 7 ∧
        ((∀ t ∈ tr, SendDataWithRtsCtsFrameExchange.WithinLimits params t.pre t.input) →
          (s.sent.countP SentFrame.isData : ℤ) ≤ params.longRetryLimit ∧
          SendDataWithRtsCtsFrameExchange.unansweredRts s ≤ params.shortRetryLimit)) := by
  refine ⟨⟨?_, fun tr s hrun ↦ ⟨?_, ?_, ?_⟩⟩, ⟨?_, fun tr s hrun ↦ ⟨?_, ?_, fun hwithin ↦ ?_⟩⟩⟩
  · obtain ⟨s, hs, -⟩ := (SendDataWithAckFrameExchange.simulates params).start
    exact ⟨s, hs⟩
  · exact (SendDataWithAckFrameExchange.simulates params).concludes
      (SendDataWithAckFrameExchange.acknowledged params) hrun
  · have hle := (SendDataWithAckFrameExchange.simulates params).countP_le
      (SendDataWithAckFrameExchange.bounds params) hrun
    have hleft : SendDataWithAckFrameExchange.attemptsLeft params {} = params.shortRetryLimit.toNat :=
      congrArg Int.toNat (sub_zero _)
    exact hle.trans_eq (by rw [← hleft]; rfl)
  · obtain ⟨a, hshape, hcounted⟩ := (SendDataWithAckFrameExchange.simulates params).history
      (I := fun _ a ↦ SendDataWithAckFrameExchange.Counted params a)
      ⟨hshort, le_rfl⟩ (fun _ _ _ e _ hI _ _ _ _ ↦ hI.next e) hrun
    have hle : (if a.phase = .contending then (0 : ℤ) else 1) ≤ 1 := by split_ifs <;> decide
    rw [hshape.sent_eq]
    have := hcounted.data_le
    have := hcounted.retryCount_lt
    omega
  · obtain ⟨s, hs, -⟩ := (SendDataWithRtsCtsFrameExchange.simulates params).start
    exact ⟨s, hs⟩
  · exact (SendDataWithRtsCtsFrameExchange.simulates params).concludes
      (SendDataWithRtsCtsFrameExchange.acknowledged params) hrun
  · have hle := (SendDataWithRtsCtsFrameExchange.simulates params).countP_le
      (SendDataWithRtsCtsFrameExchange.bounds params) hrun
    have hleft : SendDataWithRtsCtsFrameExchange.attemptsLeft params {} =
        params.shortRetryLimit.toNat + params.longRetryLimit.toNat :=
      congrArg₂ (fun m n : ℤ ↦ m.toNat + n.toNat) (sub_zero _) (sub_zero _)
    exact hle.trans_eq (by rw [← hleft]; rfl)
  · obtain ⟨a, hshape, hcounted⟩ := (SendDataWithRtsCtsFrameExchange.simulates params).history
      (I := fun tr a ↦ (∀ t ∈ tr, SendDataWithRtsCtsFrameExchange.WithinLimits params t.pre t.input) →
        SendDataWithRtsCtsFrameExchange.Counted params a)
      (fun _ ↦ ⟨zero_le_one.trans hshort, zero_le_one.trans hlong, le_rfl, le_rfl⟩)
      (fun tr a s e s' hI hshape _ _ _ hall ↦
        (hI fun t ht ↦ hall t (List.mem_append_left _ ht)).next hshape
          (hall _ (List.mem_append_right _ (List.mem_singleton.2 rfl)))) hrun
    exact ⟨hshape.sent_eq ▸ (hcounted hwithin).dataCount_le, (hcounted hwithin).unansweredRts_le hshape⟩

/-- An exchange with RTS and CTS in which an RTS and a data frame are lost. -/
theorem unicastExchanges_conclude_lost : ∃ tr s,
    (system (SendDataWithRtsCtsFrameExchange.steps ⟨2, 2, false⟩) {}).Run tr s ∧
    Concludes (SendDataWithRtsCtsFrameExchange.steps ⟨2, 2, false⟩) tr s ∧ s.reports = [true] ∧
    s.sent = [.rts, .rts, .data false, .rts, .data true] ∧
    SendDataWithRtsCtsFrameExchange.unansweredRts s ≤ 2 := by
  have hrun := system_run (SendDataWithRtsCtsFrameExchange.steps ⟨2, 2, false⟩) {}
    [.channelAccessGranted, .transmissionComplete, .timeout false, .channelAccessGranted,
      .transmissionComplete, .frameReceived .cts, .transmissionComplete, .timeout true,
      .corruptedFrameReceived, .channelAccessGranted, .transmissionComplete, .frameReceived .cts,
      .transmissionComplete, .frameReceived .ack] rfl (by decide)
  obtain ⟨hconcludes, -, hle⟩ :=
    (unicastExchanges_conclude ⟨2, 2, false⟩ (by decide) (by decide)).2.2 _ _ hrun
  exact ⟨_, _, hrun, hconcludes, by decide, by decide, (hle (by decide)).2⟩

/-- With limits of one, the data are sent twice, and two RTS frames stay unanswered. -/
theorem rtsCts_exceedsLimits :
    (∃ tr s, (system (SendDataWithRtsCtsFrameExchange.steps ⟨1, 1, false⟩) {}).Run tr s ∧
      s.sent.countP SentFrame.isData = 2) ∧
    ∃ tr s, (system (SendDataWithRtsCtsFrameExchange.steps ⟨1, 1, false⟩) {}).Run tr s ∧
      SendDataWithRtsCtsFrameExchange.unansweredRts s = 2 := by
  have hdata := system_run (SendDataWithRtsCtsFrameExchange.steps ⟨1, 1, false⟩) {}
    [.channelAccessGranted, .transmissionComplete, .frameReceived .cts, .transmissionComplete,
      .timeout false, .channelAccessGranted, .transmissionComplete, .frameReceived .cts] rfl (by decide)
  have hrts := system_run (SendDataWithRtsCtsFrameExchange.steps ⟨1, 1, false⟩) {}
    [.channelAccessGranted, .transmissionComplete, .timeout false, .channelAccessGranted,
      .transmissionComplete, .timeout false] rfl (by decide)
  exact ⟨⟨_, _, hdata, by decide⟩, ⟨_, _, hrts, by decide⟩⟩

end Inet
