import Inet.LinkLayer.FrameExchange

/-!
# Exchanges as attempts in stages

An exchange makes attempts. An attempt contends for the channel and then goes through stages, in
each of which a frame is sent and its reply is expected; a failure leads to another attempt or ends
the exchange. This is what an exchange is for (`Stages`, `Stages.next`), and `Simulates` says that
an exchange made of steps does it.

For an exchange that does, no event raises an error, the result is reported once, and it is a
success exactly if the last reply has been accepted (`Simulates.concludes`). Every attempt has an
end, and with a bound for the attempts there is one for the changes of a whole run
(`Simulates.countP_le`).
-/

namespace Inet

namespace StepBasedFrameExchange

variable {σ : Type}

/-- Where an attempt is. -/
inductive Phase
  | contending
  | sending (stage : ℕ)
  | waiting (stage : ℕ) (scheduled : Bool)
  | ended (success : Bool)
  deriving DecidableEq, Repr

/-- An attempt, with the members of the exchange and the frames that have been sent so far. -/
structure Attempt (σ : Type) where
  phase : Phase
  members : σ
  sent : List SentFrame

/-- The stages of the attempts, and the members after a failure, if there is another attempt (`ok`)
and if there is none (`error`). The cause of a failure is a collision or a stage without its reply.
-/
structure Stages (σ : Type) where
  count : ℕ
  frame : ℕ → σ → SentFrame
  reply : ℕ → ReceivedFrame
  fullTimeout : Bool
  retry : Option ℕ → σ → Except σ σ

/-- The contention and the transmitter show where an attempt is. -/
def Phase.surroundings : Phase → ChannelState × Bool
  | .contending => (.contending, false)
  | .sending _ => (.owning, true)
  | .waiting _ _ => (.owning, false)
  | .ended _ => (.idle, false)

namespace Stages

variable (D : Stages σ)

/-- A frame is sent. -/
def send (stage : ℕ) (a : Attempt σ) : Attempt σ :=
  { a with phase := .sending stage, sent := a.sent ++ [D.frame stage a.members] }

/-- What follows a failure. -/
def failed (cause : Option ℕ) (a : Attempt σ) : Attempt σ :=
  match D.retry cause a.members with
  | .ok m => { a with phase := .contending, members := m }
  | .error m => { a with phase := .ended false, members := m }

/-- What follows the reply of a stage. -/
def replied (stage : ℕ) (a : Attempt σ) : Attempt σ :=
  if stage + 1 < D.count then D.send (stage + 1) a else { a with phase := .ended true }

/-- What follows an event, and what becomes of a frame. -/
def next (a : Attempt σ) : Event → FrameProcessingResult × Attempt σ
  | .channelAccessGranted =>
    match a.phase with
    | .contending => (.ignored, D.send 0 a)
    | _ => (.ignored, a)
  | .internalCollision =>
    match a.phase with
    | .contending => (.ignored, D.failed none a)
    | _ => (.ignored, a)
  | .transmissionComplete =>
    match a.phase with
    | .sending stage => (.ignored, { a with phase := .waiting stage true })
    | _ => (.ignored, a)
  | .frameReceived frame =>
    match a.phase with
    | .waiting stage scheduled =>
      if frame = D.reply stage then (.processedDiscard, D.replied stage a)
      else if D.fullTimeout ∨ scheduled then (.ignored, a)
      else (.ignored, D.failed (some stage) a)
    | _ => (.ignored, a)
  | .corruptedFrameReceived =>
    match a.phase with
    | .waiting stage scheduled =>
      if D.fullTimeout ∨ scheduled then (.ignored, a) else (.ignored, D.failed (some stage) a)
    | _ => (.ignored, a)
  | .timeout isReceptionInProgress =>
    match a.phase with
    | .waiting stage _ =>
      if ¬ D.fullTimeout ∧ isReceptionInProgress then
        (.ignored, { a with phase := .waiting stage false })
      else (.ignored, D.failed (some stage) a)
    | _ => (.ignored, a)

/-- The events with which a stage is left without its reply. -/
def Missed (stage : ℕ) (scheduled : Bool) : Event → Prop
  | .timeout isReceptionInProgress => D.fullTimeout = true ∨ isReceptionInProgress = false
  | .corruptedFrameReceived => D.fullTimeout = false ∧ scheduled = false
  | .frameReceived frame => frame ≠ D.reply stage ∧ D.fullTimeout = false ∧ scheduled = false
  | _ => False

/-- The ways in which an attempt goes on. -/
inductive Moves (a : Attempt σ) : Event → Attempt σ → Prop
  | stays (e : Event) : Moves a e a
  | granted (hphase : a.phase = .contending) : Moves a .channelAccessGranted (D.send 0 a)
  | collided (hphase : a.phase = .contending) : Moves a .internalCollision (D.failed none a)
  | transmitted (stage : ℕ) (hphase : a.phase = .sending stage) :
    Moves a .transmissionComplete { a with phase := .waiting stage true }
  | receiving (stage : ℕ) (scheduled : Bool) (hphase : a.phase = .waiting stage scheduled) :
    Moves a (.timeout true) { a with phase := .waiting stage false }
  | replied (stage : ℕ) (scheduled : Bool) (hphase : a.phase = .waiting stage scheduled) :
    Moves a (.frameReceived (D.reply stage)) (D.replied stage a)
  | missed (stage : ℕ) (scheduled : Bool) (e : Event) (hphase : a.phase = .waiting stage scheduled)
      (hmissed : D.Missed stage scheduled e) : Moves a e (D.failed (some stage) a)

theorem moves (a : Attempt σ) (e : Event) : D.Moves a e (D.next a e).2 := by
  rcases a with ⟨phase, m, sent⟩
  rcases phase with _ | stage | ⟨stage, scheduled⟩ | success
  · rcases e with _ | _ | _ | frame | _ | reception
    · exact .granted rfl
    · exact .collided rfl
    all_goals exact .stays _
  · rcases e with _ | _ | _ | frame | _ | reception
    · exact .stays _
    · exact .stays _
    · exact .transmitted stage rfl
    all_goals exact .stays _
  · rcases e with _ | _ | _ | frame | _ | reception
    · exact .stays _
    · exact .stays _
    · exact .stays _
    · simp only [next]
      split_ifs with hreply hearly
      · rw [hreply]
        exact .replied stage scheduled rfl
      · exact .stays _
      · obtain ⟨hfull, hscheduled⟩ := not_or.1 hearly
        exact .missed stage scheduled _ rfl
          ⟨hreply, Bool.eq_false_of_not_eq_true hfull, Bool.eq_false_of_not_eq_true hscheduled⟩
    · simp only [next]
      split_ifs with hearly
      · exact .stays _
      · obtain ⟨hfull, hscheduled⟩ := not_or.1 hearly
        exact .missed stage scheduled _ rfl
          ⟨Bool.eq_false_of_not_eq_true hfull, Bool.eq_false_of_not_eq_true hscheduled⟩
    · simp only [next]
      split_ifs with hearly
      · obtain ⟨-, rfl⟩ := hearly
        exact .receiving stage scheduled rfl
      · rw [not_and_or, not_not, Bool.not_eq_true] at hearly
        exact .missed stage scheduled _ rfl hearly
  · rcases e with _ | _ | _ | frame | _ | reception
    all_goals exact .stays _

/-- The operation that waits for a reply. -/
def expectation : Operation :=
  if D.fullTimeout then .expectFullReply else .expectReplyRxStart

/-- The exchange of an attempt. A stage takes two steps. -/
inductive Shape : Attempt σ → StepBasedFrameExchange σ → Prop
  | contending (m : σ) (sent : List SentFrame) (tm : Option Bool) (g : ℤ) (htm : tm ≠ some true) :
    Shape ⟨.contending, m, sent⟩
      { members := m, operation := .startContention, timeoutMsg := tm, gotoTarget := g,
        channel := .contending, sent := sent }
  | sending (k : ℕ) (m : σ) (sent : List SentFrame) (tm : Option Bool) (g : ℤ) (hk : k < D.count)
      (htm : tm ≠ some true) :
    Shape ⟨.sending k, m, sent⟩
      { members := m, step := 2 * k + 1, operation := .transmitFrame, timeoutMsg := tm,
        gotoTarget := g, channel := .owning, transmitting := true, sent := sent }
  | waiting (k : ℕ) (scheduled : Bool) (m : σ) (sent : List SentFrame) (g : ℤ) (hk : k < D.count)
      (hscheduled : scheduled = true ∨ D.fullTimeout = false) :
    Shape ⟨.waiting k scheduled, m, sent⟩
      { members := m, step := 2 * k + 2, operation := D.expectation, timeoutMsg := some scheduled,
        gotoTarget := g, channel := .owning, sent := sent }
  | ended (success : Bool) (m : σ) (sent : List SentFrame) (step : ℤ) (operation : Operation)
      (tm : Option Bool) (g : ℤ) :
    Shape ⟨.ended success, m, sent⟩
      { members := m, step := step, operation := operation,
        status := if success then .succeeded else .failed, timeoutMsg := tm, gotoTarget := g,
        sent := sent, reports := [success] }

variable {D} {a : Attempt σ} {s : StepBasedFrameExchange σ}

theorem Shape.surroundings (h : D.Shape a s) : (s.channel, s.transmitting) = a.phase.surroundings := by
  cases h <;> rfl

theorem Shape.sent_eq (h : D.Shape a s) : s.sent = a.sent := by
  cases h <;> rfl

theorem Shape.of_waiting {k : ℕ} {scheduled : Bool} (h : D.Shape a s)
    (hphase : a.phase = .waiting k scheduled) :
    k < D.count ∧ s.members = a.members ∧ s.step = 2 * k + 2 ∧ s.status = .inProgress ∧
      s.timeoutMsg = some scheduled := by
  rcases h with ⟨⟩ | ⟨⟩ | ⟨_, _, m, sent, g, hk, hscheduled⟩ | ⟨⟩
  · cases hphase
  · cases hphase
  · cases hphase
    exact ⟨hk, rfl, rfl, rfl, rfl⟩
  · cases hphase

/-- After a failure the channel is not owned any more. -/
theorem surroundings_failed (cause : Option ℕ) (a : Attempt σ) :
    (D.failed cause a).phase.surroundings = (.contending, false) ∨
      (D.failed cause a).phase.surroundings = (.idle, false) := by
  rw [failed]
  rcases D.retry cause a.members with m | m
  · exact .inr rfl
  · exact .inl rfl

theorem phase_failed_ne (cause : Option ℕ) (a : Attempt σ) :
    (D.failed cause a).phase ≠ .ended true := by
  intro h
  rw [failed] at h
  rcases hretry : D.retry cause a.members with m | m <;> rw [hretry] at h <;> cases h

end Stages

/-- The ACK has been accepted in a run. -/
def AckAccepted (tr : List (Transition (StepBasedFrameExchange σ) Event FrameProcessingResult)) : Prop :=
  ∃ t ∈ tr, t.input = .frameReceived .ack ∧ t.output = .processedDiscard

/-- No event raises an error. While the exchange is in progress nothing has been reported, and an
event other than a reply can bring it further; when it is over, the channel is free and the result
has been reported once, as a success exactly if the ACK has been accepted. -/
structure Concludes (P : Steps σ)
    (tr : List (Transition (StepBasedFrameExchange σ) Event FrameProcessingResult))
    (s : StepBasedFrameExchange σ) : Prop where
  noError : ∀ e, s.Enabled e → ∃ o s', s.react P e = .ok (o, s')
  inProgress : s.status = .inProgress → s.reports = [] ∧
    ∃ e o s', (∀ frame, e ≠ .frameReceived frame) ∧ s.Enabled e ∧ s.react P e = .ok (o, s') ∧ s' ≠ s
  ended : s.status ≠ .inProgress → s.channel = .idle ∧ ∃ success, s.reports = [success] ∧
    (success = true ↔ AckAccepted tr)

/-- The ACK is the reply of the last stage, and of no other one. -/
def Acknowledged (D : Stages σ) : Prop :=
  0 < D.count ∧ ∀ k < D.count, D.reply k = .ack ↔ k + 1 = D.count

/-- The exchange does what its stages say, from its first members on. -/
structure Simulates (P : Steps σ) (D : Stages σ) (m₀ : σ) : Prop where
  start : ∃ s, start P { members := m₀ } = .ok s ∧ D.Shape ⟨.contending, m₀, []⟩ s
  react : ∀ {a s e}, D.Shape a s → s.Enabled e →
    ∃ s', s.react P e = .ok ((D.next a e).1, s') ∧ D.Shape (D.next a e).2 s' ∧
      ((D.next a e).2 = a → s' = s)

namespace Simulates

variable {P : Steps σ} {D : Stages σ} {m₀ : σ}
  {tr : List (Transition (StepBasedFrameExchange σ) Event FrameProcessingResult)}
  {s : StepBasedFrameExchange σ} {a : Attempt σ}

/-- What holds of the attempts of a run, by induction on the events. -/
theorem history (h : Simulates P D m₀)
    {I : List (Transition (StepBasedFrameExchange σ) Event FrameProcessingResult) → Attempt σ → Prop}
    (init : I [] ⟨.contending, m₀, []⟩)
    (step : ∀ tr a s e s', I tr a → D.Shape a s → s.Enabled e →
      s.react P e = .ok ((D.next a e).1, s') → ((D.next a e).2 = a → s' = s) →
      I (tr ++ [⟨s, e, (D.next a e).1, s'⟩]) (D.next a e).2)
    (hrun : (system P m₀).Run tr s) : ∃ a, D.Shape a s ∧ I tr a := by
  induction hrun with
  | nil hinit =>
    obtain ⟨s', hstart, hshape⟩ := h.start
    obtain rfl := Except.ok.inj (hinit.symm.trans hstart)
    exact ⟨_, hshape, init⟩
  | @snoc tr s s' e o _ hstep ih =>
    obtain ⟨a, hshape, hI⟩ := ih
    obtain ⟨henabled, hreact⟩ := hstep
    obtain ⟨s'', hreact', hshape', hsame⟩ := h.react hshape henabled
    obtain ⟨rfl, rfl⟩ := Prod.mk.inj (Except.ok.inj (hreact.symm.trans hreact'))
    exact ⟨_, hshape', step tr a s e s' hI hshape henabled hreact hsame⟩

/-! ### The end of an exchange -/

theorem ackAccepted_concat {t : Transition (StepBasedFrameExchange σ) Event FrameProcessingResult} :
    AckAccepted (tr ++ [t]) ↔
      AckAccepted tr ∨ t.input = .frameReceived .ack ∧ t.output = .processedDiscard := by
  simp only [AckAccepted, List.mem_append, List.mem_singleton, or_and_right, exists_or,
    exists_eq_left]

/-- The exchange succeeds exactly with the ACK. -/
theorem next_eq_ended (hack : Acknowledged D) {e : Event} (hshape : D.Shape a s) (hen : s.Enabled e) :
    (D.next a e).2.phase = .ended true ↔
      e = .frameReceived .ack ∧ (D.next a e).1 = .processedDiscard := by
  have hignored : FrameProcessingResult.ignored ≠ .processedDiscard := by decide
  rcases hshape with ⟨m, sent, tm, g, htm⟩ | ⟨k, m, sent, tm, g, hk, htm⟩ |
    ⟨k, scheduled, m, sent, g, hk, hscheduled⟩ | ⟨success, m, sent, step, operation, tm, g⟩
  · rcases e with _ | _ | _ | frame | _ | reception
    · simp [Stages.next, Stages.send]
    · simp [Stages.next, Stages.phase_failed_ne]
    all_goals simp [Stages.next]
  · rcases e with _ | _ | _ | frame | _ | reception
    all_goals simp [Stages.next]
  · rcases e with _ | _ | _ | frame | _ | reception
    · simp [Stages.next]
    · simp [Stages.next]
    · simp [Stages.next]
    · rw [Stages.next]
      by_cases hreply : frame = D.reply k
      · -- the reply of the last stage is the ACK, and the other replies are not
        subst hreply
        simp only [if_true, Event.frameReceived.injEq, and_true, hack.2 k hk, Stages.replied]
        by_cases hlast : k + 1 < D.count
        · simp [hlast, hlast.ne, Stages.send]
        · have hcount : k + 1 = D.count := Nat.le_antisymm hk (not_lt.1 hlast)
          simp [hcount]
      · simp only [hreply, if_false]
        split_ifs <;> simp [Stages.phase_failed_ne]
    · simp only [Stages.next]
      split_ifs <;> simp [Stages.phase_failed_ne]
    · simp only [Stages.next]
      split_ifs <;> simp [Stages.phase_failed_ne]
  · rcases e with _ | _ | _ | frame | _ | reception
    all_goals simp [Enabled] at hen

/-- While an attempt is under way, something other than a reply brings it further. -/
theorem exists_change (h : Simulates P D m₀) (hshape : D.Shape a s)
    (hphase : ∀ success, a.phase ≠ .ended success) :
    ∃ e o s', (∀ frame, e ≠ .frameReceived frame) ∧ s.Enabled e ∧ s.react P e = .ok (o, s') ∧
      s' ≠ s := by
  -- the surroundings show that the attempt is somewhere else afterwards
  have hchange (e : Event) (hreply : ∀ frame, e ≠ .frameReceived frame) (hen : s.Enabled e)
      (hmoves : (D.next a e).2.phase.surroundings ≠ a.phase.surroundings) :
      ∃ e o s', (∀ frame, e ≠ .frameReceived frame) ∧ s.Enabled e ∧ s.react P e = .ok (o, s') ∧
        s' ≠ s := by
    obtain ⟨s', hreact, hshape', -⟩ := h.react hshape hen
    refine ⟨e, _, s', hreply, hen, hreact, fun heq ↦ hmoves ?_⟩
    rw [← hshape.surroundings, ← hshape'.surroundings, heq]
  rcases hshape with ⟨m, sent, tm, g, htm⟩ | ⟨k, m, sent, tm, g, hk, htm⟩ |
    ⟨k, scheduled, m, sent, g, hk, hscheduled⟩ | ⟨success, m, sent, step, operation, tm, g⟩
  · exact hchange .channelAccessGranted (fun _ heq ↦ by cases heq) ⟨rfl, rfl⟩
      (show (ChannelState.owning, true) ≠ (.contending, false) by decide)
  · exact hchange .transmissionComplete (fun _ heq ↦ by cases heq) ⟨rfl, rfl⟩
      (show (ChannelState.owning, false) ≠ (.owning, true) by decide)
  · have howning (cause : Option ℕ) (a : Attempt σ) :
        (D.failed cause a).phase.surroundings ≠ (.owning, false) := by
      rcases D.surroundings_failed cause a with hf | hf <;> rw [hf] <;> decide
    rcases scheduled
    · refine hchange .corruptedFrameReceived (fun _ heq ↦ by cases heq) rfl ?_
      have hfull := hscheduled.resolve_left Bool.false_ne_true
      simp only [Stages.next, hfull, Bool.false_eq_true, or_self, if_false]
      exact howning _ _
    · refine hchange (.timeout false) (fun _ heq ↦ by cases heq) ⟨rfl, rfl⟩ ?_
      simp only [Stages.next, Bool.false_eq_true, and_false, if_false]
      exact howning _ _
  · exact absurd rfl (hphase success)

/-- Every run of an exchange in stages is as it should be. -/
theorem concludes (h : Simulates P D m₀) (hack : Acknowledged D) (hrun : (system P m₀).Run tr s) :
    Concludes P tr s := by
  have hstep (tr : List (Transition (StepBasedFrameExchange σ) Event FrameProcessingResult))
      (a : Attempt σ) (s : StepBasedFrameExchange σ) (e : Event) (s' : StepBasedFrameExchange σ)
      (hI : AckAccepted tr ↔ a.phase = .ended true) (hshape : D.Shape a s) (hen : s.Enabled e) :
      AckAccepted (tr ++ [⟨s, e, (D.next a e).1, s'⟩]) ↔ (D.next a e).2.phase = .ended true := by
    have hnot : ¬ AckAccepted tr := fun hin ↦ by
      have hover := hI.1 hin
      cases hshape with
      | ended => rcases e with _ | _ | _ | _ | _ | _ <;> simp [Enabled] at hen
      | _ => cases hover
    rw [ackAccepted_concat, next_eq_ended hack hshape hen]
    exact or_iff_right hnot
  obtain ⟨a, hshape, haccepted⟩ := h.history
    (I := fun tr a ↦ (AckAccepted tr ↔ a.phase = .ended true)) (by simp [AckAccepted])
    (fun tr a s e s' hI hshape hen _ _ ↦ hstep tr a s e s' hI hshape hen) hrun
  refine ⟨fun e hen ↦ ?_, fun hstatus ↦ ?_, fun hstatus ↦ ?_⟩
  · obtain ⟨s', hreact, -⟩ := h.react hshape hen
    exact ⟨_, _, hreact⟩
  · have hphase (success : Bool) : a.phase ≠ .ended success := fun hover ↦ by
      cases hshape with
      | ended success => rcases success <;> cases hstatus
      | _ => cases hover
    refine ⟨?_, h.exists_change hshape hphase⟩
    cases hshape with
    | ended success => exact absurd rfl (hphase success)
    | _ => rfl
  · cases hshape with
    | ended success m sent step operation tm g =>
      refine ⟨rfl, success, rfl, ?_⟩
      rw [haccepted, Phase.ended.injEq]
    | _ => exact absurd rfl hstatus

/-! ### The number of changes -/

/-- A further attempt lowers a bound for the attempts. -/
def Bounds (D : Stages σ) (rank : σ → ℕ) : Prop :=
  ∀ cause m m', D.retry cause m = .ok m' → rank m' < rank m

/-- What is left of the attempts that the bound allows. -/
def remaining (D : Stages σ) (rank : σ → ℕ) (a : Attempt σ) : ℕ :=
  match a.phase with
  | .contending => (3 * D.count + 2) * rank a.members + (3 * D.count + 1)
  | .sending k => (3 * D.count + 2) * rank a.members + 3 * (D.count - k)
  | .waiting k true => (3 * D.count + 2) * rank a.members + (3 * (D.count - k) - 1)
  | .waiting k false => (3 * D.count + 2) * rank a.members + (3 * (D.count - k) - 2)
  | .ended _ => 0

variable {rank : σ → ℕ}

theorem remaining_failed (hrank : Bounds D rank) (cause : Option ℕ) (a : Attempt σ) :
    remaining D rank (D.failed cause a) < (3 * D.count + 2) * rank a.members + 1 := by
  rw [Stages.failed]
  rcases hretry : D.retry cause a.members with m | m
  · exact Nat.succ_pos _
  · have hle := Nat.mul_le_mul_left (3 * D.count + 2) (hrank cause _ _ hretry)
    rw [Nat.mul_succ] at hle
    show (3 * D.count + 2) * rank m + (3 * D.count + 1) < _
    omega

/-- A failure does not leave an attempt as it is. -/
theorem failed_ne (hrank : Bounds D rank) (cause : Option ℕ) (hphase : a.phase ≠ .ended false) :
    D.failed cause a ≠ a := by
  intro heq
  rw [Stages.failed] at heq
  rcases hretry : D.retry cause a.members with m | m <;> rw [hretry] at heq
  · exact hphase (congrArg Attempt.phase heq).symm
  · have hlt := hrank cause _ _ hretry
    rw [show m = a.members from congrArg Attempt.members heq] at hlt
    exact lt_irrefl _ hlt

/-- An event leaves the attempt where it is, or less is left. -/
theorem remaining_next (hrank : Bounds D rank) (hshape : D.Shape a s) {e : Event} (hen : s.Enabled e) :
    (D.next a e).2 = a ∨ remaining D rank (D.next a e).2 < remaining D rank a := by
  rcases hshape with ⟨m, sent, tm, g, htm⟩ | ⟨k, m, sent, tm, g, hk, htm⟩ |
    ⟨k, scheduled, m, sent, g, hk, hscheduled⟩ | ⟨success, m, sent, step, operation, tm, g⟩
  · rcases e with _ | _ | _ | _ | _ | _
    · right
      show (3 * D.count + 2) * rank m + 3 * (D.count - 0) <
        (3 * D.count + 2) * rank m + (3 * D.count + 1)
      omega
    · exact .inr ((remaining_failed hrank none _).trans_le
        (Nat.add_le_add_left (Nat.le_add_left 1 (3 * D.count)) _))
    all_goals exact .inl rfl
  · rcases e with _ | _ | _ | _ | _ | _
    · exact .inl rfl
    · exact .inl rfl
    · right
      show (3 * D.count + 2) * rank m + (3 * (D.count - k) - 1) <
        (3 * D.count + 2) * rank m + 3 * (D.count - k)
      omega
    all_goals exact .inl rfl
  · -- there is always more left than after a failure
    have hleft : (3 * D.count + 2) * rank m + 1 + (if scheduled then 1 else 0) ≤
        remaining D rank ⟨.waiting k scheduled, m, sent⟩ := by
      rcases scheduled
      · show (3 * D.count + 2) * rank m + 1 + 0 ≤
          (3 * D.count + 2) * rank m + (3 * (D.count - k) - 2)
        omega
      · show (3 * D.count + 2) * rank m + 1 + 1 ≤
          (3 * D.count + 2) * rank m + (3 * (D.count - k) - 1)
        omega
    have hfailed : remaining D rank (D.failed (some k) ⟨.waiting k scheduled, m, sent⟩) <
        remaining D rank ⟨.waiting k scheduled, m, sent⟩ :=
      (remaining_failed hrank (some k) _).trans_le (by dsimp only; omega)
    rcases e with _ | _ | _ | frame | _ | reception
    · exact .inl rfl
    · exact .inl rfl
    · exact .inl rfl
    · simp only [Stages.next]
      split_ifs
      · right
        rw [Stages.replied]
        split_ifs with hnext
        · rcases scheduled
          · show (3 * D.count + 2) * rank m + 3 * (D.count - (k + 1)) <
              (3 * D.count + 2) * rank m + (3 * (D.count - k) - 2)
            omega
          · show (3 * D.count + 2) * rank m + 3 * (D.count - (k + 1)) <
              (3 * D.count + 2) * rank m + (3 * (D.count - k) - 1)
            omega
        · show 0 < _
          omega
      · exact .inl rfl
      · exact .inr hfailed
    · simp only [Stages.next]
      split_ifs
      · exact .inl rfl
      · exact .inr hfailed
    · simp only [Stages.next]
      split_ifs
      · rcases scheduled
        · exact .inl rfl
        · right
          show (3 * D.count + 2) * rank m + (3 * (D.count - k) - 2) <
            (3 * D.count + 2) * rank m + (3 * (D.count - k) - 1)
          omega
      · exact .inr hfailed
  · rcases e with _ | _ | _ | _ | _ | _ <;> simp [Enabled] at hen

/-- A run changes the exchange only so many times. -/
theorem countP_le [DecidableEq σ] (h : Simulates P D m₀) (hrank : Bounds D rank)
    (hrun : (system P m₀).Run tr s) :
    tr.countP (fun t ↦ t.post ≠ t.pre) ≤ remaining D rank ⟨.contending, m₀, []⟩ := by
  obtain ⟨a, -, hle⟩ := h.history
    (I := fun tr a ↦ tr.countP (fun t ↦ decide (t.post ≠ t.pre)) + remaining D rank a ≤
      remaining D rank ⟨.contending, m₀, []⟩) (by simp)
    (fun tr a s e s' hI hshape hen _ hsame ↦ by
      rw [List.countP_append, List.countP_singleton]
      rcases remaining_next hrank hshape hen with heq | hlt
      · rw [hsame heq, heq]
        simpa using hI
      · split_ifs <;> omega) hrun
  omega

end Simulates

end StepBasedFrameExchange

end Inet
