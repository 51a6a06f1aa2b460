import Inet.Routing.OSPFDatabaseExchange

/-!
# The database exchange goes on

A neighbour that waits for a database description has its retransmission timer scheduled in
`ExchangeStart`, and requests are repeated until they are answered; but a router that enters
`Exchange` as the master clears the timer there, and no event of `Exchange` starts it again.
`progresses_iff` says that this is the only way in which an exchange can come to a stand.

What an input does to the exchange is a `Turns`, `Sound` is the invariant, and `described` the
record of what has been described since the last negotiation.
-/

namespace Inet.OSPF

namespace NeighborState

/-- The states before `ExchangeStart`. -/
def Early (s : NeighborState) : Prop :=
  s.code < exchangeStart.code

instance (s : NeighborState) : Decidable s.Early :=
  inferInstanceAs (Decidable (_ < _))

theorem reachedExchange_iff {s : NeighborState} :
    s.ReachedExchange ↔ s = .exchange ∨ s = .loading ∨ s = .full := by
  cases s <;> decide

end NeighborState

namespace ExchangeNeighbor

variable {c : Surroundings} {n n' : ExchangeNeighbor}

/-! ### What has been described -/

/-- The headers in the database descriptions that are sent for the first time. -/
def headers (effects : List ExchangeEffect) : List OSPFLSAHeader :=
  effects.flatMap fun e ↦
    match e with
    | .databaseDescription _ packet => packet.lsaHeaders
    | _ => []

@[simp] theorem headers_nil : headers [] = [] := rfl

theorem headers_append (l l' : List ExchangeEffect) : headers (l ++ l') = headers l ++ headers l' :=
  List.flatMap_append

/-- A packet takes entries from the front of a list. -/
theorem fillPacket_append {β : Type} (maxPacketSize length packetSize : ℤ) (l : List β) :
    (fillPacket maxPacketSize length packetSize l).1 ++
      (fillPacket maxPacketSize length packetSize l).2 = l := by
  induction l generalizing packetSize with
  | nil => rfl
  | cons e l ih =>
    rw [fillPacket]
    split_ifs
    · exact congrArg (e :: ·) (ih _)
    · rfl

/-- The headers that a description takes from the list are those it sends. -/
theorem headers_sendDatabaseDescriptionPacket (c : Surroundings) (n : ExchangeNeighbor)
    (init : Bool) :
    headers (n.sendDatabaseDescriptionPacket c init).effects ++
      (n.sendDatabaseDescriptionPacket c init).databaseSummaryList =
        headers n.effects ++ n.databaseSummaryList := by
  rw [sendDatabaseDescriptionPacket, send]
  dsimp only
  rw [headers_append, List.append_assoc]
  refine congrArg (headers n.effects ++ ·) ?_
  rw [headers, List.flatMap_singleton]
  cases init
  · exact fillPacket_append ..
  · rfl

/-- Neither waiting for anything nor having anything to describe. -/
structure Idle (n : ExchangeNeighbor) : Prop where
  requests : n.linkStateRequestList = []
  summary : n.databaseSummaryList = []
  timer : n.requestRetransmissionTimer = false
  active : n.requestRetransmissionTimerActive = false

/-- What the exchange depends on, but for the retransmission timer of the descriptions. -/
def control (n : ExchangeNeighbor) :
    NeighborState × List OSPFLSAHeader × List OSPFLSAHeader × List OSPFLSAHeader × Bool × Bool ×
      Option DatabaseExchangeRelationshipType :=
  (n.state, n.linkStateRequestList, n.databaseSummaryList, headers n.effects,
    n.requestRetransmissionTimer, n.requestRetransmissionTimerActive,
    n.databaseExchangeRelationship)

/-- **What an input does to the exchange**. -/
inductive Turns (c : Surroundings) (n n' : ExchangeNeighbor) : Prop
  | stays (hcontrol : n'.control = n.control)
      (hdd : n.state = .exchangeStart → n'.ddRetransmissionTimer = n.ddRetransmissionTimer)
  | restarts (hidle : n'.Idle)
      (hstate : n'.state.Early ∨ n'.state = .exchangeStart ∧ n'.ddRetransmissionTimer = true)
  | refuses (hstate : n.state = .exchangeStart) (hstate' : n'.state = .exchangeStart)
      (hdd : n'.ddRetransmissionTimer = n.ddRetransmissionTimer)
      (hsummary : n'.databaseSummaryList = n.databaseSummaryList)
      (htimer : n'.requestRetransmissionTimer = n.requestRetransmissionTimer)
      (hactive : n'.requestRetransmissionTimerActive = n.requestRetransmissionTimerActive)
  | negotiates (hstate : n.state = .exchangeStart) (hstate' : n'.state = .exchange)
      (hslave : n'.databaseExchangeRelationship = some .slave)
      (hactive : n'.requestRetransmissionTimerActive = n'.requestRetransmissionTimer)
      (hrequests : n'.linkStateRequestList ≠ [] → n'.requestRetransmissionTimer = true)
      (hheaders : headers n'.effects ++ n'.databaseSummaryList = c.databaseSummary)
  | goesOn (hstate : n.state.ReachedExchange) (hstate' : n'.state.ReachedExchange)
      (hslave : n'.state = .exchange → n'.databaseExchangeRelationship = some .slave)
      (hactive : n'.requestRetransmissionTimerActive = n'.requestRetransmissionTimer)
      (hrequests : n'.state ≠ .full → n'.linkStateRequestList ≠ [] →
        n'.requestRetransmissionTimer = true)
      (hfull : n'.state = .full → n'.linkStateRequestList = [] ∧
        n'.requestRetransmissionTimer = false)
      (hsummary : n'.state ≠ .exchange → n'.databaseSummaryList = [])
      (hheaders : headers n'.effects ++ n'.databaseSummaryList = n.databaseSummaryList)

theorem Idle.congr (h : n.Idle) (hcontrol : n'.control = n.control) : n'.Idle := by
  simp only [control, Prod.mk.injEq] at hcontrol
  obtain ⟨-, hrequests, hsummary, -, htimer, hactive, -⟩ := hcontrol
  exact ⟨hrequests.trans h.requests, hsummary.trans h.summary, htimer.trans h.timer,
    hactive.trans h.active⟩

/-- A turn does not depend on what else changes. -/
theorem Turns.congr {m : ExchangeNeighbor} (h : Turns c n m) (hsame : n'.control = m.control ∧
    n'.ddRetransmissionTimer = m.ddRetransmissionTimer) : Turns c n n' := by
  obtain ⟨hcontrol, hdd⟩ := hsame
  have hparts := hcontrol
  simp only [control, Prod.mk.injEq] at hparts
  obtain ⟨hs, hr, hl, hh, ht, ha, hm⟩ := hparts
  cases h with
  | stays hcontrol' hdd' => exact .stays (hcontrol.trans hcontrol') fun hstart ↦ hdd.trans (hdd' hstart)
  | restarts hidle hstate =>
    refine .restarts (hidle.congr hcontrol) ?_
    rwa [hs, hdd]
  | refuses hstate hstate' hdd' hsummary htimer hactive =>
    exact .refuses hstate (hs.trans hstate') (hdd.trans hdd') (hl.trans hsummary)
      (ht.trans htimer) (ha.trans hactive)
  | negotiates hstate hstate' hslave hactive hrequests hheaders =>
    refine .negotiates hstate (hs.trans hstate') (hm.trans hslave) ?_ ?_ ?_
    · rwa [ha, ht]
    · rwa [hr, ht]
    · rwa [hh, hl]
  | goesOn hstate hstate' hslave hactive hrequests hfull hsummary hheaders =>
    refine .goesOn hstate (hs ▸ hstate') ?_ ?_ ?_ ?_ ?_ ?_
    · rwa [hs, hm]
    · rwa [ha, ht]
    · rwa [hs, hr, ht]
    · rwa [hs, hr, ht]
    · rwa [hs, hl]
    · rwa [hh, hl]

/-- **The invariant** of a neighbour that has not become the master in `Exchange`. -/
structure Sound (n : ExchangeNeighbor) : Prop where
  active : n.requestRetransmissionTimerActive = n.requestRetransmissionTimer
  early : n.state.Early → n.linkStateRequestList = []
  start : n.state = .exchangeStart → n.ddRetransmissionTimer = true
  slave : n.state = .exchange → n.databaseExchangeRelationship = some .slave
  full : n.state = .full → n.linkStateRequestList = []
  requests : n.state = .exchange ∨ n.state = .loading → n.linkStateRequestList ≠ [] →
    n.requestRetransmissionTimer = true
  summary : n.state ≠ .exchange → n.databaseSummaryList = []
  timer : n.requestRetransmissionTimer = true → n.state = .exchange ∨ n.state = .loading

namespace Sound

variable (h : n.Sound)

include h

theorem idle (hstate : n.state.Early) : n.Idle := by
  have htimer : n.requestRetransmissionTimer = false := by
    by_contra htrue
    rcases h.timer (Bool.eq_true_of_not_eq_false htrue) with heq | heq <;>
      simp [heq, NeighborState.Early, NeighborState.code] at hstate
  refine ⟨h.early hstate, h.summary ?_, htimer, h.active.trans htimer⟩
  rintro heq
  simp [heq, NeighborState.Early, NeighborState.code] at hstate

/-- **Every turn keeps the invariant**. -/
theorem turn (hturn : Turns c n n') : n'.Sound := by
  cases hturn with
  | stays hcontrol hdd =>
    simp only [control, Prod.mk.injEq] at hcontrol
    obtain ⟨hstate, hrequests, hsummary, -, htimer, hactive, hslave⟩ := hcontrol
    constructor
    · rw [hactive, htimer, h.active]
    · rw [hstate, hrequests]
      exact h.early
    · rw [hstate]
      exact fun hs ↦ (hdd hs).trans (h.start hs)
    · rw [hstate, hslave]
      exact h.slave
    · rw [hstate, hrequests]
      exact h.full
    · rw [hstate, hrequests, htimer]
      exact h.requests
    · rw [hstate, hsummary]
      exact h.summary
    · rw [hstate, htimer]
      exact h.timer
  | restarts hidle hstate =>
    have hne (s : NeighborState) (hs : ¬s.Early) (hs' : s ≠ .exchangeStart) : n'.state ≠ s := by
      rintro rfl
      rcases hstate with hearly | ⟨hstart, -⟩
      · exact hs hearly
      · exact hs' hstart
    constructor
    · rw [hidle.active, hidle.timer]
    · exact fun _ ↦ hidle.requests
    · intro hstart
      rcases hstate with hearly | ⟨-, hdd⟩
      · simp [hstart, NeighborState.Early] at hearly
      · exact hdd
    · exact fun heq ↦ absurd heq (hne _ (by decide) (by decide))
    · exact fun _ ↦ hidle.requests
    · exact fun _ hrequests ↦ absurd hidle.requests hrequests
    · exact fun _ ↦ hidle.summary
    · intro htimer
      simp [hidle.timer] at htimer
  | refuses hstate hstate' hdd hsummary htimer hactive =>
    constructor
    · rw [hactive, htimer, h.active]
    all_goals rw [hstate']
    · intro hearly
      simp [NeighborState.Early] at hearly
    · exact fun _ ↦ hdd.trans (h.start hstate)
    · simp
    · simp
    · simp
    · rw [hsummary]
      exact fun _ ↦ h.summary (by simp [hstate])
    · rw [htimer, ← hstate]
      exact h.timer
  | negotiates hstate hstate' hslave hactive hrequests hheaders =>
    constructor
    · exact hactive
    all_goals rw [hstate']
    · intro hearly
      simp [NeighborState.Early, NeighborState.code] at hearly
    · simp
    · exact fun _ ↦ hslave
    · simp
    · exact fun _ ↦ hrequests
    · simp
    · simp
  | goesOn hstate hstate' hslave hactive hrequests hfull hsummary hheaders =>
    have hcases := NeighborState.reachedExchange_iff.1 hstate'
    constructor
    · exact hactive
    · intro hearly
      rcases hcases with heq | heq | heq <;>
        simp [heq, NeighborState.Early, NeighborState.code] at hearly
    · intro hstart
      simp [hstart] at hcases
    · exact hslave
    · exact fun heq ↦ (hfull heq).1
    · rintro (heq | heq)
      · exact hrequests (by simp [heq])
      · exact hrequests (by simp [heq])
    · exact hsummary
    · intro htimer
      rcases hcases with heq | heq | heq
      · exact .inl heq
      · exact .inr heq
      · simp [(hfull heq).2] at htimer

end Sound

/-! ### Events -/

/-- The exchange ends in an early state. -/
theorem turns_early {s : NeighborState} (hs : s.Early) (hidle : n'.Idle) (hstate : n'.state = s) :
    Turns c n n' :=
  .restarts hidle (.inl (hstate ▸ hs))

theorem turns_killed (c : Surroundings) (n : ExchangeNeighbor) : Turns c n n.killed :=
  turns_early (s := .down) (by decide) ⟨rfl, rfl, rfl, rfl⟩ rfl

theorem turns_inactive (n m : ExchangeNeighbor) : Turns c n (m.inactive c) :=
  turns_early (s := .down) (by decide) ⟨rfl, rfl, rfl, rfl⟩ rfl

theorem turns_oneWay (c : Surroundings) (n : ExchangeNeighbor) : Turns c n n.oneWay :=
  turns_early (s := .init) (by decide) ⟨rfl, rfl, rfl, rfl⟩ rfl

theorem turns_restarted (n m : ExchangeNeighbor) : Turns c n (m.restarted c) :=
  .restarts ⟨rfl, rfl, rfl, rfl⟩ (.inr ⟨rfl, rfl⟩)

theorem turns_same (c : Surroundings) (n : ExchangeNeighbor) : Turns c n n :=
  .stays rfl fun _ ↦ rfl

theorem turns_greeted (c : Surroundings) (n : ExchangeNeighbor) : Turns c n n.greeted :=
  .stays rfl fun _ ↦ rfl

theorem turns_reconsidered (n : ExchangeNeighbor) : Turns c n (n.reconsidered c) := by
  rw [reconsidered]
  split_ifs
  · exact turns_same c n
  · exact turns_early (s := .twoWay) (by decide) ⟨rfl, rfl, rfl, rfl⟩ rfl

theorem turns_updateAgain (c : Surroundings) (n : ExchangeNeighbor) : Turns c n n.updateAgain := by
  refine .stays ?_ fun _ ↦ rfl
  simp [control, updateAgain, send, headers]

/-- An adjacency begins only where nothing is waited for. -/
theorem turns_adjoined (hidle : n.Idle) : Turns c n (n.adjoined c) := by
  refine .restarts ?_ (.inr ⟨rfl, rfl⟩)
  rw [adjoined]
  split_ifs
  · exact ⟨hidle.requests, hidle.summary, hidle.timer, hidle.active⟩
  · exact ⟨hidle.requests, hidle.summary, hidle.timer, hidle.active⟩

/-- **Events from outside** are turns. -/
theorem turns_processEvent (h : n.Sound) {event : NeighborEventType} (he : event.External) :
    Turns c n (n.processEvent c event) := by
  have hidle {s : NeighborState} (hs : s.Early) (hstate : n.state = s) : n.Idle :=
    h.idle (hstate ▸ hs)
  rw [processEvent]
  split <;> rename_i hstate
  · have hidle := hidle (by decide) hstate
    cases event with
    | start =>
      exact turns_early (s := .attempt) (by decide)
        ⟨hidle.requests, hidle.summary, hidle.timer, hidle.active⟩ rfl
    | helloReceived =>
      exact turns_early (s := .init) (by decide)
        ⟨hidle.requests, hidle.summary, hidle.timer, hidle.active⟩ rfl
    | pollTimer => exact he.elim
    | _ => exact turns_same c n
  · have hidle := hidle (by decide) hstate
    cases event with
    | killNeighbor => exact turns_killed c n
    | linkDown => exact turns_killed c n
    | inactivityTimer => exact turns_inactive n n
    | helloReceived =>
      exact turns_early (s := .init) (by decide)
        ⟨hidle.requests, hidle.summary, hidle.timer, hidle.active⟩ rfl
    | _ => exact turns_same c n
  · have hidle := hidle (by decide) hstate
    cases event with
    | killNeighbor => exact turns_killed c n
    | linkDown => exact turns_killed c n
    | inactivityTimer => exact turns_inactive n n
    | helloReceived => exact turns_greeted c n
    | twoWayReceived =>
      rw [processInit]
      split_ifs
      · exact turns_adjoined hidle
      · exact turns_early (s := .twoWay) (by decide)
          ⟨hidle.requests, hidle.summary, hidle.timer, hidle.active⟩ rfl
    | _ => exact turns_same c n
  · have hidle := hidle (by decide) hstate
    cases event with
    | killNeighbor => exact turns_killed c n
    | linkDown => exact turns_killed c n
    | inactivityTimer => exact turns_inactive n n
    | oneWayReceived => exact turns_oneWay c n
    | helloReceived => exact turns_greeted c n
    | isAdjacencyOk =>
      rw [processTwoWay]
      split_ifs
      · exact turns_adjoined hidle
      · exact turns_same c n
    | _ => exact turns_same c n
  · cases event with
    | killNeighbor => exact turns_killed c n
    | linkDown => exact turns_killed c n
    | inactivityTimer => exact turns_inactive n n
    | oneWayReceived => exact turns_oneWay c n
    | helloReceived => exact turns_greeted c n
    | isAdjacencyOk => exact turns_reconsidered n
    | ddRetransmissionTimer => exact he.elim
    | negotiationDone => exact he.elim
    | _ => exact turns_same c n
  · cases event with
    | killNeighbor => exact turns_killed c n
    | linkDown => exact turns_killed c n
    | inactivityTimer => exact turns_inactive n n
    | oneWayReceived => exact turns_oneWay c n
    | helloReceived => exact turns_greeted c n
    | isAdjacencyOk => exact turns_reconsidered n
    | sequenceNumberMismatch => exact turns_restarted n n
    | badLinkStateRequest => exact turns_restarted n n
    | exchangeDone => exact he.elim
    | updateRetransmissionTimer => exact turns_updateAgain c n
    | requestRetransmissionTimer => exact he.elim
    | _ => exact turns_same c n
  · cases event with
    | killNeighbor => exact turns_killed c n
    | linkDown => exact turns_killed c n
    | inactivityTimer => exact turns_inactive n n
    | oneWayReceived => exact turns_oneWay c n
    | helloReceived => exact turns_greeted c n
    | isAdjacencyOk => exact turns_reconsidered n
    | sequenceNumberMismatch => exact turns_restarted n n
    | badLinkStateRequest => exact turns_restarted n n
    | loadingDone => exact he.elim
    | updateRetransmissionTimer => exact turns_updateAgain c n
    | requestRetransmissionTimer => exact he.elim
    | ddRetransmissionTimer => exact he.elim
    | _ => exact turns_same c n
  · cases event with
    | killNeighbor => exact turns_killed c n
    | linkDown => exact turns_killed c n
    | inactivityTimer => exact turns_inactive n n
    | oneWayReceived => exact turns_oneWay c n
    | helloReceived => exact turns_greeted c n
    | isAdjacencyOk => exact turns_reconsidered n
    | sequenceNumberMismatch => exact turns_restarted n n
    | badLinkStateRequest => exact turns_restarted n n
    | updateRetransmissionTimer => exact turns_updateAgain c n
    | ddRetransmissionTimer => exact he.elim
    | _ => exact turns_same c n

theorem headers_retransmit (c : Surroundings) (n : ExchangeNeighbor) :
    headers (n.retransmitDatabaseDescriptionPacket c).1.effects = headers n.effects := by
  rw [retransmitDatabaseDescriptionPacket]
  split
  · simp [send, headers]
  · rfl

/-- A retransmission changes nothing. -/
theorem control_retransmitDatabaseDescription (c : Surroundings) (n : ExchangeNeighbor) :
    (n.retransmitDatabaseDescriptionPacket c).1.control = n.control ∧
      (n.retransmitDatabaseDescriptionPacket c).1.ddRetransmissionTimer =
        n.ddRetransmissionTimer := by
  rw [control, headers_retransmit, retransmitDatabaseDescriptionPacket]
  split <;> exact ⟨rfl, rfl⟩

theorem control_sendInit (c : Surroundings) (n : ExchangeNeighbor) :
    (n.sendDatabaseDescriptionPacket c true).control = n.control := by
  simp [control, sendDatabaseDescriptionPacket, send, headers]

/-- **Timers that fire** are turns. -/
theorem turns_timer (h : n.Sound) {event : NeighborEventType} (hs : n.Scheduled event) :
    Turns c n ((n.fired event).processEvent c event) := by
  cases event with
  | inactivityTimer =>
    rw [processEvent]
    split
    · exact .stays rfl fun _ ↦ rfl
    all_goals exact turns_inactive n _
  | pollTimer =>
    rw [processEvent]
    split
    · exact .stays (by simp [control, processDown, fired, send, headers]) fun _ ↦ rfl
    all_goals exact .stays rfl fun _ ↦ rfl
  | ddRetransmissionTimer =>
    have hother {s : NeighborState} (hstate : (n.fired .ddRetransmissionTimer).state = s)
        (hne : s ≠ .exchangeStart) {n' : ExchangeNeighbor} (hcontrol : n'.control = n.control) :
        Turns c n n' :=
      .stays hcontrol fun hstart ↦ absurd (hstate.symm.trans hstart) hne
    rw [processEvent]
    split <;> rename_i hstate
    · exact hother hstate (by decide) rfl
    · exact hother hstate (by decide) rfl
    · exact hother hstate (by decide) rfl
    · exact hother hstate (by decide) rfl
    · exact .stays (control_retransmitDatabaseDescription c _).1 fun hstart ↦ (h.start hstart).symm
    · exact hother hstate (by decide) rfl
    · exact hother hstate (by decide) rfl
    · exact hother hstate (by decide) rfl
  | updateRetransmissionTimer =>
    rw [processEvent]
    split
    all_goals first | exact turns_updateAgain c n | exact turns_same c n
  | requestRetransmissionTimer =>
    have hagain : Turns c n ((n.fired .requestRetransmissionTimer).requestAgain c) := by
      refine .stays ?_ fun _ ↦ rfl
      have hactive := h.active.trans hs
      have htimer : n.requestRetransmissionTimer = true := hs
      simp [control, requestAgain, startRequestRetransmissionTimer, sendLinkStateRequestPacket,
        send, fired, headers, hactive, htimer]
    have hstate : (n.fired .requestRetransmissionTimer).state = .exchange ∨
        (n.fired .requestRetransmissionTimer).state = .loading := h.timer hs
    rcases hstate with hstate | hstate
    · rw [processEvent, hstate]
      exact hagain
    · rw [processEvent, hstate]
      exact hagain
  | _ => exact hs.elim

/-! ### Floods -/

/-- A request is met. -/
theorem turns_removeFromRequestList (h : n.Sound) (hstate : n.state = .exchange ∨ n.state = .loading)
    (heffects : n.effects = []) (k : LSAKeyType) : Turns c n (n.removeFromRequestList c k) := by
  have hreached : n.state.ReachedExchange :=
    NeighborState.reachedExchange_iff.2 (hstate.imp_right .inl)
  have hheaders : headers n.effects ++ n.databaseSummaryList = n.databaseSummaryList := by
    rw [heffects, headers_nil, List.nil_append]
  rw [removeFromRequestList]
  dsimp only
  split_ifs with hdone
  · have hloading : n.state = .loading := hdone.1
    have hstate' : ({ n with toNeighbor := n.toNeighbor.dropRequest k } :
        ExchangeNeighbor).clearRequestRetransmissionTimer.state = .loading := hloading
    rw [processEvent, hstate']
    refine .goesOn hreached (NeighborState.reachedExchange_iff.2 (.inr (.inr rfl)))
      (fun heq ↦ by cases heq) rfl (fun hne ↦ absurd rfl hne) (fun _ ↦ ⟨hdone.2, rfl⟩)
      (fun _ ↦ h.summary (by simp [hloading])) hheaders
  · have hrequests (hne : (n.toNeighbor.dropRequest k).linkStateRequestList ≠ []) :
        n.linkStateRequestList ≠ [] :=
      fun hnil ↦ hne (by simp [Neighbor.dropRequest, hnil])
    refine .goesOn hreached hreached h.slave h.active
      (fun _ hne ↦ h.requests hstate (hrequests hne)) (fun heq ↦ ?_) h.summary hheaders
    have hfull : n.state = .full := heq
    simp [hfull] at hstate

/-- The retransmission list is nothing the exchange depends on. -/
theorem control_retransmit (n : ExchangeNeighbor) (lsa : OSPFLSA) (isSender : Bool) :
    (n.retransmit lsa isSender).control = n.control ∧
      (n.retransmit lsa isSender).ddRetransmissionTimer = n.ddRetransmissionTimer := by
  rw [retransmit]
  split_ifs
  · exact ⟨rfl, rfl⟩
  · rw [Neighbor.addToRetransmissionList]
    split <;> exact ⟨rfl, rfl⟩

/-- A neighbour to whom an LSA is offered. -/
theorem turns_offer (h : n.Sound) (heffects : n.effects = []) (lsa : OSPFLSA) (isSender : Bool) :
    Turns c n (n.offer c lsa isSender) := by
  rw [offer]
  split_ifs with hreached
  · split
    · exact (turns_same c n).congr (control_retransmit n lsa isSender)
    · rename_i requested hpending
      have hstate : n.state = .exchange ∨ n.state = .loading := by
        rcases NeighborState.reachedExchange_iff.1 hreached with heq | heq | heq
        · exact .inl heq
        · exact .inr heq
        · simp [Neighbor.pendingRequest, heq] at hpending
      have hremoved := turns_removeFromRequestList (c := c) h hstate heffects lsa.header.lsaKey
      split_ifs
      · exact turns_same c n
      · exact hremoved
      · exact hremoved.congr (control_retransmit _ lsa isSender)
  · exact turns_same c n

/-! ### Database descriptions -/

/-- More requests. -/
def requesting (n : ExchangeNeighbor) (requests : List OSPFLSAHeader) : ExchangeNeighbor :=
  { n with linkStateRequestList := n.linkStateRequestList ++ requests }

/-- What the loop over the headers does: it adds requests, and it stops at an error. -/
theorem exists_of_requestHeaders (c : Surroundings) (l : List OSPFLSAHeader)
    (n : ExchangeNeighbor) :
    ∃ requests,
      (∀ header ∈ l, c.Accepts header) ∧ requestHeaders c l n = (n.requesting requests, true) ∨
      (¬∀ header ∈ l, c.Accepts header) ∧
        requestHeaders c l n = ((n.requesting requests).processEvent c .sequenceNumberMismatch,
          false) := by
  induction l generalizing n with
  | nil =>
    refine ⟨[], .inl ⟨List.forall_mem_nil _, ?_⟩⟩
    simp [requestHeaders, requesting]
  | cons header l ih =>
    rw [requestHeaders]
    by_cases haccepts : c.Accepts header
    · rw [if_pos haccepts]
      by_cases hlacks : c.Lacks header
      · rw [if_pos hlacks]
        obtain ⟨requests, hall⟩ := ih (n.addToRequestList header)
        refine ⟨header :: requests, ?_⟩
        simpa [haccepts, requesting, addToRequestList] using hall
      · rw [if_neg hlacks]
        obtain ⟨requests, hall⟩ := ih n
        exact ⟨requests, by simpa [haccepts] using hall⟩
    · rw [if_neg haccepts]
      refine ⟨[], .inr ⟨by simp [haccepts], ?_⟩⟩
      simp [requesting]

/-- What starting the requests ensures. -/
theorem startRequests_spec (c : Surroundings) {m : ExchangeNeighbor}
    (hactive : m.requestRetransmissionTimerActive = m.requestRetransmissionTimer) :
    (m.startRequests c).state = m.state ∧
      (m.startRequests c).linkStateRequestList = m.linkStateRequestList ∧
      (m.startRequests c).databaseSummaryList = m.databaseSummaryList ∧
      headers (m.startRequests c).effects = headers m.effects ∧
      (m.startRequests c).databaseExchangeRelationship = m.databaseExchangeRelationship ∧
      (m.startRequests c).requestRetransmissionTimerActive =
        (m.startRequests c).requestRetransmissionTimer ∧
      ((m.startRequests c).linkStateRequestList ≠ [] →
        (m.startRequests c).requestRetransmissionTimer = true) ∧
      (m.linkStateRequestList = [] → m.startRequests c = m) := by
  rw [startRequests]
  split_ifs with hstart
  · refine ⟨rfl, rfl, rfl, ?_, rfl, rfl, fun _ ↦ rfl, fun hnil ↦ absurd hnil hstart.1⟩
    simp [startRequestRetransmissionTimer, clearRequestRetransmissionTimer,
      sendLinkStateRequestPacket, send, headers]
  · refine ⟨rfl, rfl, rfl, rfl, rfl, hactive, fun hne ↦ ?_, fun _ ↦ rfl⟩
    by_contra hfalse
    exact hstart ⟨hne, hactive.trans (Bool.eq_false_iff.2 hfalse)⟩

/-- In `ExchangeStart` nothing is described, and the exchange is not done. -/
theorem describeNext_start (hstate : n.state = .exchangeStart)
    (packet : OSPFDatabaseDescriptionPacket) :
    (n.describeNext c packet true).control = n.control ∧
      (n.describeNext c packet true).ddRetransmissionTimer = n.ddRetransmissionTimer := by
  have hdone {m : ExchangeNeighbor} (hm : m.control = n.control ∧
      m.ddRetransmissionTimer = n.ddRetransmissionTimer) :
      (m.processEvent c .exchangeDone).control = n.control ∧
        (m.processEvent c .exchangeDone).ddRetransmissionTimer = n.ddRetransmissionTimer := by
    have hs : m.state = .exchangeStart := (congrArg (·.1) hm.1).trans hstate
    rwa [processEvent, hs]
  simp only [describeNext, if_true]
  split_ifs
  · exact hdone ⟨rfl, rfl⟩
  · exact ⟨rfl, rfl⟩
  · exact hdone ⟨rfl, rfl⟩
  · exact ⟨rfl, rfl⟩

/-- The result of processing the first packet in `ExchangeStart`. -/
theorem processDDPacket_start (hstate : n.state = .exchangeStart)
    (packet : OSPFDatabaseDescriptionPacket) :
    ∃ requests,
      (n.processDDPacket c packet true).1.control = (n.requesting requests).control ∧
      (n.processDDPacket c packet true).1.ddRetransmissionTimer = n.ddRetransmissionTimer ∧
      ((n.processDDPacket c packet true).2 = true ↔ ∀ header ∈ packet.lsaHeaders, c.Accepts header) := by
  obtain ⟨requests, ⟨hall, heq⟩ | ⟨hno, heq⟩⟩ := exists_of_requestHeaders c packet.lsaHeaders n
  · have hstate' : (n.requesting requests).state = .exchangeStart := hstate
    obtain ⟨hcontrol, hdd⟩ := describeNext_start (c := c) hstate' packet
    refine ⟨requests, ?_, ?_, ?_⟩
    all_goals rw [processDDPacket, heq, if_pos rfl]
    · exact hcontrol
    · exact hdd
    · exact iff_of_true rfl hall
  · have hstate' : (n.requesting requests).state = .exchangeStart := hstate
    rw [processEvent, hstate'] at heq
    refine ⟨requests, ?_, ?_, ?_⟩
    all_goals rw [processDDPacket, heq, if_neg Bool.false_ne_true]
    · rfl
    · rfl
    · exact iff_of_false Bool.false_ne_true hno

/-- A packet that is refused in `ExchangeStart`. -/
theorem negotiate_refuses (hstate : n.state = .exchangeStart)
    {packet : OSPFDatabaseDescriptionPacket} (hno : ¬∀ header ∈ packet.lsaHeaders, c.Accepts header)
    (relationship : DatabaseExchangeRelationshipType) :
    (n.negotiate c packet relationship).state = .exchangeStart ∧
      (n.negotiate c packet relationship).ddRetransmissionTimer = n.ddRetransmissionTimer ∧
      (n.negotiate c packet relationship).databaseSummaryList = n.databaseSummaryList ∧
      (n.negotiate c packet relationship).requestRetransmissionTimer =
        n.requestRetransmissionTimer ∧
      (n.negotiate c packet relationship).requestRetransmissionTimerActive =
        n.requestRetransmissionTimerActive := by
  rw [negotiate]
  obtain ⟨requests, hcontrol, hdd, hall⟩ := processDDPacket_start (c := c) (n := { n with
    neighborOptions := packet.options
    databaseExchangeRelationship := some relationship
    lastReceivedDDPacket := packet.packetID }) hstate packet
  rw [if_neg (hall.not.2 hno)]
  simp only [control, Prod.mk.injEq] at hcontrol
  obtain ⟨hs, -, hl, -, ht, ha, -⟩ := hcontrol
  exact ⟨hs.trans hstate, hdd, hl, ht, ha⟩

/-- **The exchange begins**: the summary is created and the first part of it sent; the
retransmission timer is cleared. -/
theorem negotiate_begins (h : n.Sound) (hstate : n.state = .exchangeStart) (heffects : n.effects = [])
    {packet : OSPFDatabaseDescriptionPacket} (haccepts : ∀ header ∈ packet.lsaHeaders, c.Accepts header)
    (relationship : DatabaseExchangeRelationshipType) :
    (n.negotiate c packet relationship).state = .exchange ∧
      (n.negotiate c packet relationship).ddRetransmissionTimer = false ∧
      (n.negotiate c packet relationship).databaseExchangeRelationship = some relationship ∧
      (n.negotiate c packet relationship).requestRetransmissionTimerActive =
        (n.negotiate c packet relationship).requestRetransmissionTimer ∧
      ((n.negotiate c packet relationship).linkStateRequestList ≠ [] →
        (n.negotiate c packet relationship).requestRetransmissionTimer = true) ∧
      headers (n.negotiate c packet relationship).effects ++
        (n.negotiate c packet relationship).databaseSummaryList = c.databaseSummary := by
  rw [negotiate]
  obtain ⟨requests, hcontrol, hdd, hall⟩ := processDDPacket_start (c := c) (n := { n with
    neighborOptions := packet.options
    databaseExchangeRelationship := some relationship
    lastReceivedDDPacket := packet.packetID }) hstate packet
  rw [if_pos (hall.2 haccepts)]
  generalize (processDDPacket c _ packet true).1 = m at hcontrol ⊢
  simp only [control, Prod.mk.injEq] at hcontrol
  obtain ⟨hs, -, hl, hh, ht, ha, hm⟩ := hcontrol
  rw [processEvent, hs.trans hstate]
  have hactive : (m.processExchangeStart c .negotiationDone).requestRetransmissionTimerActive =
      (m.processExchangeStart c .negotiationDone).requestRetransmissionTimer :=
    ha.trans (h.active.trans ht.symm)
  obtain ⟨hs', -, hl', hh', hm', ha', hrequests, -⟩ := startRequests_spec c hactive
  have hdone : headers (m.processExchangeStart c .negotiationDone).effects ++
      (m.processExchangeStart c .negotiationDone).databaseSummaryList = c.databaseSummary := by
    have hnone : m.databaseSummaryList = [] := hl.trans (h.summary (by simp [hstate]))
    have hunsent : headers m.effects = [] := hh.trans (congrArg headers heffects)
    calc headers (m.processExchangeStart c .negotiationDone).effects ++
          (m.processExchangeStart c .negotiationDone).databaseSummaryList
        = headers m.effects ++ (m.databaseSummaryList ++ c.databaseSummary) :=
          headers_sendDatabaseDescriptionPacket c (m.createDatabaseSummary c) false
      _ = c.databaseSummary := by rw [hnone, hunsent, List.nil_append, List.nil_append]
  refine ⟨hs', ?_, hm'.trans hm, ha', hrequests, ?_⟩
  · rw [startRequests]
    split_ifs <;> rfl
  · rw [hh', hl', hdone]

/-- The slave answers the next packet of the exchange, and may be done then. -/
theorem describeNext_slave {m : ExchangeNeighbor} (hstate : m.state = .exchange)
    (hslave : m.databaseExchangeRelationship = some .slave)
    (hactive : m.requestRetransmissionTimerActive = m.requestRetransmissionTimer)
    (packet : OSPFDatabaseDescriptionPacket) :
    ((m.describeNext c packet false).state = .exchange ∨
        (m.describeNext c packet false).databaseSummaryList = [] ∧
          ((m.describeNext c packet false).state = .loading ∨
            (m.describeNext c packet false).state = .full ∧
              (m.describeNext c packet false).linkStateRequestList = [] ∧
              (m.describeNext c packet false).requestRetransmissionTimer = false)) ∧
      (m.describeNext c packet false).databaseExchangeRelationship = some .slave ∧
      (m.describeNext c packet false).requestRetransmissionTimerActive =
        (m.describeNext c packet false).requestRetransmissionTimer ∧
      headers (m.describeNext c packet false).effects ++
        (m.describeNext c packet false).databaseSummaryList =
          headers m.effects ++ m.databaseSummaryList := by
  have hsent := headers_sendDatabaseDescriptionPacket c
    { m with ddSequenceNumber := packet.ddSequenceNumber } false
  rw [describeNext, if_neg (by simp [hslave])]
  simp only [Bool.false_eq_true, if_false]
  split_ifs with hdone
  · have hstate' : (sendDatabaseDescriptionPacket c
        { m with ddSequenceNumber := packet.ddSequenceNumber } false).state = .exchange := hstate
    rw [processEvent, hstate', processExchange]
    dsimp only
    split_ifs with hnone
    · exact ⟨.inr ⟨hdone.2, .inr ⟨rfl, hnone, rfl⟩⟩, hslave, rfl, hsent⟩
    · exact ⟨.inr ⟨hdone.2, .inl rfl⟩, hslave, hactive, hsent⟩
  · exact ⟨.inl hstate, hslave, hactive, hsent⟩

/-- The slave receives the next packet of the exchange. -/
theorem turns_next (h : n.Sound) (hstate : n.state = .exchange) (heffects : n.effects = [])
    (packet : OSPFDatabaseDescriptionPacket) {n₁ : ExchangeNeighbor} (hn₁ : n₁.control = n.control) :
    Turns c n (if (n₁.processDDPacket c packet false).2 = true
      then (n₁.processDDPacket c packet false).1.startRequests c
      else (n₁.processDDPacket c packet false).1) := by
  have hslave := h.slave hstate
  simp only [control, Prod.mk.injEq] at hn₁
  obtain ⟨hs, hr, hl, hh, ht, ha, hm⟩ := hn₁
  obtain ⟨requests, ⟨-, heq⟩ | ⟨-, heq⟩⟩ := exists_of_requestHeaders c packet.lsaHeaders n₁
  · rw [processDDPacket, heq]
    simp only [if_true]
    obtain ⟨hstates, hslave', hactive, hsent⟩ :=
      describeNext_slave (c := c) (m := n₁.requesting requests) (hs.trans hstate)
        (hm.trans hslave) (ha.trans (h.active.trans ht.symm)) packet
    generalize (n₁.requesting requests).describeNext c packet false = m at *
    obtain ⟨hs', hr', hl', hh', hm', ha', hrequests, hstarted⟩ := startRequests_spec c hactive
    have hreached : m.state.ReachedExchange := by
      rw [NeighborState.reachedExchange_iff]
      rcases hstates with heq | ⟨-, heq | ⟨heq, -⟩⟩ <;> simp [heq]
    refine .goesOn (NeighborState.reachedExchange_iff.2 (.inl hstate)) (hs' ▸ hreached)
      (fun _ ↦ hm'.trans hslave') ha' (fun _ ↦ hrequests) (fun hfull ↦ ?_) (fun hne ↦ ?_) ?_
    · rcases hstates with heq | ⟨-, heq | ⟨-, hnone, hidle⟩⟩
      · simp [hs', heq] at hfull
      · simp [hs', heq] at hfull
      · rw [hstarted hnone]
        exact ⟨hnone, hidle⟩
    · rcases hstates with heq | ⟨hnone, -⟩
      · exact absurd (hs'.trans heq) hne
      · exact hl'.trans hnone
    · have hunsent : headers n₁.effects = [] := hh.trans (congrArg headers heffects)
      calc headers (m.startRequests c).effects ++ (m.startRequests c).databaseSummaryList
          = headers m.effects ++ m.databaseSummaryList := by rw [hh', hl']
        _ = headers n₁.effects ++ n₁.databaseSummaryList := hsent
        _ = n.databaseSummaryList := by rw [hunsent, hl, List.nil_append]
  · have hstate' : (n₁.requesting requests).state = .exchange := hs.trans hstate
    rw [processDDPacket, heq]
    simp only [Bool.false_eq_true, if_false]
    rw [processEvent, hstate']
    exact turns_restarted n _

/-- The reply of a slave that the router, as the master, takes up the exchange with. -/
def RepliesAsSlave (c : Surroundings) (n : ExchangeNeighbor)
    (packet : OSPFDatabaseDescriptionPacket) : Prop :=
  packet.ddOptions.I_Init = false ∧ packet.ddOptions.MS_MasterSlave = false ∧
    packet.ddSequenceNumber = n.ddSequenceNumber ∧ n.neighborID < c.router.routerID ∧
      ∀ header ∈ packet.lsaHeaders, c.Accepts header

/-- The router becomes the master of an exchange. -/
def BecomesMaster (n : ExchangeNeighbor) (c : Surroundings) : ExchangeInput → Prop
  | .databaseDescription packet =>
    n.state = .exchangeStart ∧ packet.interfaceMTU ≤ c.mtu ∧ n.RepliesAsSlave c packet
  | _ => False

theorem turns_processInExchangeStart (h : n.Sound) (hstate : n.state = .exchangeStart)
    (heffects : n.effects = []) {packet : OSPFDatabaseDescriptionPacket}
    (hmaster : ¬n.RepliesAsSlave c packet) : Turns c n (n.processInExchangeStart c packet) := by
  rw [processInExchangeStart]
  split_ifs with hinit hslave hreply
  · -- the slave
    have hsame : Turns c n { n with ddSequenceNumber := packet.ddSequenceNumber } :=
      .stays rfl fun _ ↦ rfl
    by_cases haccepts : ∀ header ∈ packet.lsaHeaders, c.Accepts header
    · obtain ⟨hs, -, hm, ha, hrequests, hsent⟩ :=
        negotiate_begins (c := c) (h.turn hsame) hstate heffects haccepts .slave
      exact .negotiates hstate hs hm ha hrequests hsent
    · obtain ⟨hs, hdd, hl, ht, ha⟩ := negotiate_refuses (c := c)
        (n := { n with ddSequenceNumber := packet.ddSequenceNumber }) hstate haccepts .slave
      exact .refuses hstate hs hdd hl ht ha
  · exact .stays (control_sendInit c n) fun _ ↦ rfl
  · obtain ⟨hs, hdd, hl, ht, ha⟩ := negotiate_refuses (c := c) hstate (fun haccepts ↦
      hmaster ⟨hreply.1, hreply.2.1, hreply.2.2.1, hreply.2.2.2, haccepts⟩) .master
    exact .refuses hstate hs hdd hl ht ha
  · exact turns_same c n

theorem turns_processInExchange (h : n.Sound) (hstate : n.state = .exchange)
    (heffects : n.effects = []) (packet : OSPFDatabaseDescriptionPacket) :
    Turns c n (n.processInExchange c packet) := by
  have hmismatch : Turns c n (n.processEvent c .sequenceNumberMismatch) := by
    rw [processEvent, hstate]
    exact turns_restarted n n
  rw [processInExchange]
  split_ifs with hnew hwrong hnext hdup
  · exact hmismatch
  · exact turns_next h hstate heffects packet rfl
  · exact hmismatch
  · exact (turns_same c n).congr (control_retransmitDatabaseDescription c n)
  · exact turns_same c n

theorem turns_processAfterExchange (hstate : n.state = .loading ∨ n.state = .full)
    (packet : OSPFDatabaseDescriptionPacket) :
    Turns c n (n.processAfterExchange c packet) := by
  have hmismatch (m : ExchangeNeighbor) (hm : m.state = n.state) :
      Turns c n (m.processEvent c .sequenceNumberMismatch) := by
    rcases hstate with heq | heq
    · rw [processEvent, hm.trans heq]
      exact turns_restarted n m
    · rw [processEvent, hm.trans heq]
      exact turns_restarted n m
  have hsame := control_retransmitDatabaseDescription c n
  rw [processAfterExchange]
  dsimp only
  split_ifs with hnew hdup hagain
  · exact hmismatch n rfl
  · exact (turns_same c n).congr hsame
  · exact hmismatch _ (congrArg (·.1) hsame.1)
  · exact turns_same c n

theorem turns_processPacket (h : n.Sound) (heffects : n.effects = [])
    {packet : OSPFDatabaseDescriptionPacket}
    (hmaster : ¬n.BecomesMaster c (.databaseDescription packet)) :
    Turns c n (n.processPacket c packet) := by
  rw [processPacket]
  split_ifs with hmtu
  · split <;> rename_i hstate
    · exact turns_processEvent h trivial
    · exact turns_processInExchangeStart h hstate heffects fun hreply ↦
        hmaster ⟨hstate, hmtu, hreply⟩
    · exact turns_processInExchange h hstate heffects packet
    · exact turns_processAfterExchange (.inl hstate) packet
    · exact turns_processAfterExchange (.inr hstate) packet
    all_goals exact turns_same c n
  · exact turns_same c n

theorem Sound.cleared (h : n.Sound) : Sound { n with effects := [] } :=
  ⟨h.active, h.early, h.start, h.slave, h.full, h.requests, h.summary, h.timer⟩

/-- **Every input is a turn**, but the one by which the router becomes the master. -/
theorem turns_step (h : n.Sound) {input : ExchangeInput} (hallows : n.Allows input)
    (hmaster : ¬n.BecomesMaster c input) : Turns c { n with effects := [] } (n.step c input) := by
  have hcleared := h.cleared
  cases input with
  | databaseDescription packet => exact turns_processPacket hcleared rfl hmaster
  | flood lsa isSender => exact turns_offer hcleared rfl lsa isSender
  | updateSent k => exact .stays rfl fun _ ↦ rfl
  | designatedRouters designated backup setUp => exact .stays rfl fun _ ↦ rfl
  | event event => exact turns_processEvent hcleared hallows
  | timer event =>
    refine turns_timer hcleared ?_
    cases event <;> exact hallows

/-! ### Runs -/

/-- A step of a run. -/
abbrev ExchangeTurn :=
  Transition ExchangeNeighbor (Surroundings × ExchangeInput) Unit

/-- The database summary of the last exchange, and what of it has been described. A retransmission
describes nothing. -/
def described (tr : List ExchangeTurn) : List OSPFLSAHeader × List OSPFLSAHeader :=
  tr.foldl (fun x t ↦
    if t.pre.state = .exchangeStart ∧ t.post.state = .exchange then
      (t.input.1.databaseSummary, headers t.post.effects)
    else (x.1, x.2 ++ headers t.post.effects)) ([], [])

theorem described_concat (tr : List ExchangeTurn) (t : ExchangeTurn) :
    described (tr ++ [t]) =
      if t.pre.state = .exchangeStart ∧ t.post.state = .exchange then
        (t.input.1.databaseSummary, headers t.post.effects)
      else ((described tr).1, (described tr).2 ++ headers t.post.effects) := by
  rw [described, List.foldl_append]
  rfl

/-- **An exchange goes on**: someone's timer is running for whatever is waited for, nothing is
waited for in `Full`, and the headers of the summary are described in order, each once. -/
structure Progresses (tr : List ExchangeTurn) (n : ExchangeNeighbor) : Prop where
  description : n.state = .exchangeStart ∨
      n.state = .exchange ∧ n.databaseExchangeRelationship = some .master →
    n.ddRetransmissionTimer = true
  requests : n.state = .exchange ∨ n.state = .loading → n.linkStateRequestList ≠ [] →
    n.requestRetransmissionTimer = true ∧ n.requestRetransmissionTimerActive = true
  full : n.state = .full → n.linkStateRequestList = []
  summary : n.state.ReachedExchange →
    (described tr).2 ++ n.databaseSummaryList = (described tr).1
  complete : n.state = .loading ∨ n.state = .full → n.databaseSummaryList = []

/-- What the invariant says of the states, and the record of the rest. -/
theorem Progresses.of_sound {tr : List ExchangeTurn} (h : n.Sound)
    (hsummary : n.state.ReachedExchange →
      (described tr).2 ++ n.databaseSummaryList = (described tr).1) : Progresses tr n where
  description := by
    rintro (hstart | ⟨hexchange, hmaster⟩)
    · exact h.start hstart
    · simp [h.slave hexchange] at hmaster
  requests hstate hne := by
    have htimer := h.requests hstate hne
    exact ⟨htimer, h.active.trans htimer⟩
  full := h.full
  summary := hsummary
  complete hstate := h.summary (by rcases hstate with heq | heq <;> simp [heq])

/-- The record after a turn. -/
theorem described_turn {tr : List ExchangeTurn} {input : ExchangeInput}
    (hturn : Turns c { n with effects := [] } n')
    (hsummary : n.state.ReachedExchange →
      (described tr).2 ++ n.databaseSummaryList = (described tr).1)
    (hreached : n'.state.ReachedExchange) :
    (described (tr ++ [⟨n, (c, input), (), n'⟩])).2 ++ n'.databaseSummaryList =
      (described (tr ++ [⟨n, (c, input), (), n'⟩])).1 := by
  have hunstarted {s : NeighborState} (hs : s.ReachedExchange) : s ≠ .exchangeStart := by
    rintro rfl
    revert hs
    decide
  have hon (hpre : n.state.ReachedExchange)
      (hheaders : headers n'.effects ++ n'.databaseSummaryList = n.databaseSummaryList) :
      (described (tr ++ [⟨n, (c, input), (), n'⟩])).2 ++ n'.databaseSummaryList =
        (described (tr ++ [⟨n, (c, input), (), n'⟩])).1 := by
    rw [described_concat, if_neg fun hboth ↦ hunstarted hpre hboth.1]
    dsimp only
    rw [List.append_assoc, hheaders, hsummary hpre]
  cases hturn with
  | stays hcontrol hdd =>
    simp only [control, Prod.mk.injEq] at hcontrol
    obtain ⟨hs, -, hl, hh, -⟩ := hcontrol
    exact hon (hs ▸ hreached) (by rw [hh, hl, headers_nil, List.nil_append])
  | restarts hidle hstate =>
    rcases hstate with hearly | ⟨hstart, -⟩
    · exact absurd hreached (by
        simp only [NeighborState.Early, NeighborState.ReachedExchange, NeighborState.code] at *
        omega)
    · exact absurd hstart (hunstarted hreached)
  | refuses hstart hstart' => exact absurd hstart' (hunstarted hreached)
  | negotiates hstart hexchange hslave hactive hrequests hheaders =>
    rw [described_concat, if_pos ⟨hstart, hexchange⟩]
    exact hheaders
  | goesOn hpre hpost hslave hactive hrequests hfull hl hheaders => exact hon hpre hheaders

/-- A router that becomes the master has no timer any more. -/
theorem not_progresses_of_becomesMaster {tr : List ExchangeTurn} (h : n.Sound)
    {input : ExchangeInput} (hmaster : n.BecomesMaster c input) :
    ¬Progresses tr (n.step c input) := by
  cases input with
  | databaseDescription packet =>
    obtain ⟨hstate, hmtu, hinit, hms, hnumber, hid, haccepts⟩ := hmaster
    have hstep : n.step c (.databaseDescription packet) =
        ({ n with effects := [] } : ExchangeNeighbor).negotiate c packet .master := by
      have hstate' : ({ n with effects := [] } : ExchangeNeighbor).state = .exchangeStart := hstate
      show processPacket c { n with effects := [] } packet = _
      rw [processPacket, if_pos hmtu, hstate']
      show processInExchangeStart c { n with effects := [] } packet = _
      rw [processInExchangeStart, if_neg (by simp [hinit]), if_pos ⟨hinit, hms, hnumber, hid⟩]
    obtain ⟨hs, hdd, hm, -⟩ :=
      negotiate_begins (c := c) h.cleared hstate rfl haccepts .master
    intro hprogress
    rw [hstep] at hprogress
    exact absurd (hprogress.description (.inr ⟨hs, hm⟩)) (by simp [hdd])
  | _ => exact hmaster.elim

/-- **When an exchange cannot stall**: in a run of a neighbour, the timers run and the headers are
described up to every point of it exactly if the router never becomes the master of an exchange. -/
theorem progresses_iff {tr : List ExchangeTurn} {n : ExchangeNeighbor}
    (hrun : exchangeSystem.Run tr n) :
    (∀ tr₁ m, tr₁ <+: tr → exchangeSystem.Run tr₁ m → Progresses tr₁ m) ↔
      ∀ t ∈ tr, ¬t.pre.BecomesMaster t.input.1 t.input.2 := by
  refine hrun.forall_prefix_iff_of_invariant (J := fun _ n ↦ n.Sound)
    (C := fun t ↦ ¬t.pre.BecomesMaster t.input.1 t.input.2) ?_ ?_
  · rintro n ⟨neighborID, neighborIPAddress, rfl⟩
    have hsound : Sound { neighborID, neighborIPAddress, state := .down } := by
      constructor <;> simp
    refine ⟨hsound, .of_sound hsound ?_⟩
    intro hreached
    exact absurd hreached (show ¬NeighborState.ReachedExchange .down by decide)
  · rintro tr n ⟨c, input⟩ - n' - hsound hprogress ⟨hallows, rfl⟩
    have hkeeps (hmaster : ¬n.BecomesMaster c input) := turns_step hsound hallows hmaster
    refine ⟨⟨fun hprogress' hmaster ↦ ?_, fun hmaster ↦ ?_⟩, fun hmaster ↦
      hsound.cleared.turn (hkeeps hmaster)⟩
    · exact not_progresses_of_becomesMaster hsound hmaster hprogress'
    · exact .of_sound (hsound.cleared.turn (hkeeps hmaster))
        (described_turn (hkeeps hmaster) hprogress.summary)

/-- The run of a neighbour on some inputs. -/
def runOn (n : ExchangeNeighbor) (inputs : List (Surroundings × ExchangeInput)) :
    List ExchangeTurn :=
  TransitionSystem.transitionsOf (fun n i ↦ (n.step i.1 i.2, ())) n inputs

/-- Its end. -/
def endOn (n : ExchangeNeighbor) (inputs : List (Surroundings × ExchangeInput)) :
    ExchangeNeighbor :=
  TransitionSystem.stateAfter (fun n i ↦ (n.step i.1 i.2, ())) n inputs

theorem run_runOn {inputs : List (Surroundings × ExchangeInput)}
    (hn : exchangeSystem.Init n) (hallows : ∀ t ∈ runOn n inputs, t.pre.Allows t.input.2) :
    exchangeSystem.Run (runOn n inputs) (endOn n inputs) :=
  .ofInputs (T := exchangeSystem) (C := fun n i ↦ n.Allows i.2) (fun _ _ h ↦ ⟨h, rfl⟩) hn hallows

/-- The surroundings of a neighbour on a point-to-point link of a router. -/
def pointToPointOf (routerID : IPv4Address) : Surroundings where
  router := { routerID }
  area := { areaID := 0 }
  intf := { interfaceType := .pointToPoint, state := .pointToPoint, ifIndex := 1, areaID := 0 }
  mtu := 1500
  uniqueULong := 0

/-- The router 2.2.2.2 is the master of its neighbour 1.1.1.1: as soon as the exchange has begun,
nothing would repeat its description. -/
theorem not_progresses_master :
    let n : ExchangeNeighbor := { neighborID := 0x01010101, neighborIPAddress := 0, state := .down }
    let c := pointToPointOf 0x02020202
    let inputs : List (Surroundings × ExchangeInput) :=
      [(c, .event .helloReceived), (c, .event .twoWayReceived),
        (c, .databaseDescription ⟨1500, {}, ⟨false, false, false⟩, 0, [], 32⟩)]
    exchangeSystem.Run (runOn n inputs) (endOn n inputs) ∧
      (endOn n inputs).state = .exchange ∧
      (endOn n inputs).databaseExchangeRelationship = some .master ∧
      (endOn n inputs).ddRetransmissionTimer = false ∧
      ¬Progresses (runOn n inputs) (endOn n inputs) := by
  intro n c inputs
  have hstate : (endOn n inputs).state = .exchange := by decide +kernel
  have hmaster : (endOn n inputs).databaseExchangeRelationship = some .master := by decide +kernel
  have hdd : (endOn n inputs).ddRetransmissionTimer = false := by decide +kernel
  refine ⟨run_runOn ⟨_, _, rfl⟩ ?_, hstate, hmaster, hdd, fun hprogress ↦ ?_⟩
  · simp only [runOn, inputs, TransitionSystem.transitionsOf, List.forall_mem_cons]
    exact ⟨trivial, trivial, trivial, List.forall_mem_nil _⟩
  · have htimer := hprogress.description (.inr ⟨hstate, hmaster⟩)
    simp [hdd] at htimer

/-- The router 1.1.1.1 is the slave of its neighbour 2.2.2.2. -/
theorem progresses_slave :
    let n : ExchangeNeighbor := { neighborID := 0x02020202, neighborIPAddress := 0, state := .down }
    let c := pointToPointOf 0x01010101
    let inputs : List (Surroundings × ExchangeInput) :=
      [(c, .event .helloReceived), (c, .event .twoWayReceived),
        (c, .databaseDescription ⟨1500, {}, ⟨true, true, true⟩, 7, [], 32⟩)]
    (endOn n inputs).state = .exchange ∧ Progresses (runOn n inputs) (endOn n inputs) := by
  intro n c inputs
  have hrun : exchangeSystem.Run (runOn n inputs) (endOn n inputs) := by
    refine run_runOn ⟨_, _, rfl⟩ ?_
    simp only [runOn, inputs, TransitionSystem.transitionsOf, List.forall_mem_cons]
    exact ⟨trivial, trivial, trivial, List.forall_mem_nil _⟩
  refine ⟨by decide +kernel, (progresses_iff hrun).2 ?_ _ _ List.prefix_rfl hrun⟩
  simp only [runOn, inputs, TransitionSystem.transitionsOf, List.forall_mem_cons]
  exact ⟨id, id, fun hmaster ↦ Bool.noConfusion hmaster.2.2.1, List.forall_mem_nil _⟩

end ExchangeNeighbor

end Inet.OSPF
