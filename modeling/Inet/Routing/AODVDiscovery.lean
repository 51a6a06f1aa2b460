import Inet.Routing.AODVRouting

/-!
# Waiting for Route Replies

While every request can be sent, a target with waiting datagrams has a timer, and every timer is
scheduled (`NoneStranded`). A request that is not sent, because too many have been sent in a second
or too often for the target, leaves a datagram or a timer behind that nothing takes up again: a step
keeps the state exactly if it can send what it has to (`noneStranded_iff`).
-/

namespace Inet

namespace AODVRouting

variable {P : AODVParameters} {s s' : AODVRouting} {target : L3Address} {datagram : INetworkDatagram}

/-! ### The functions -/

@[simp] theorem setTimer_self (timer : Option WaitForRREP) :
    (s.setTimer target timer).waitForRREPTimers target = timer :=
  Function.update_self _ _ _

theorem setTimer_of_ne (timer : Option WaitForRREP) {destAddr : L3Address} (h : destAddr ≠ target) :
    (s.setTimer target timer).waitForRREPTimers destAddr = s.waitForRREPTimers destAddr :=
  Function.update_of_ne h _ _

/-- A request has been sent: the target has a scheduled timer. -/
structure Sent (target : L3Address) (s s' : AODVRouting) : Prop where
  delayed : s'.targetAddressToDelayedPackets = s.targetAddressToDelayedPackets
  timer : ∃ timer, s'.waitForRREPTimers target = some timer ∧ timer.destAddr = target ∧
    timer.arrivalTime.isSome
  others : ∀ destAddr, destAddr ≠ target →
    s'.waitForRREPTimers destAddr = s.waitForRREPTimers destAddr

theorem nextTimer_destAddr {timeToLive : ℕ} {x : WaitForRREP × ℕ}
    (h : s.nextTimer P target timeToLive = .ok x) : x.1.destAddr = target := by
  rw [nextTimer] at h
  cases htimer : s.waitForRREPTimers target with
  | none =>
    rw [htimer] at h
    obtain rfl := Except.ok.inj h
    rfl
  | some rrepTimer =>
    rw [htimer] at h
    simp only at h
    split_ifs at h
    all_goals
      obtain rfl := Except.ok.inj h
      rfl

/-- **A request is sent** unless too many have been sent. -/
theorem sendRREQ_cases {rreq : AODVRREQ} {timeToLive : ℕ}
    (h : s.sendRREQ P rreq timeToLive = .ok s') :
    P.rreqRatelimit ≤ s.rreqCount ∧ s' = s ∨
      s.rreqCount < P.rreqRatelimit ∧ Sent rreq.destAddr s s' := by
  rw [sendRREQ] at h
  split_ifs at h with hlimit
  · exact .inl ⟨hlimit, (Except.ok.inj h).symm⟩
  · obtain ⟨x, hx, hsend⟩ := exists_of_bind_eq_ok h
    simp only [scheduleRREQ] at hsend
    split_ifs at hsend
    obtain rfl := Except.ok.inj hsend
    exact .inr ⟨Nat.lt_of_not_le hlimit, rfl, ⟨_, setTimer_self _, nextTimer_destAddr hx, rfl⟩,
      fun _ hne ↦ setTimer_of_ne _ hne⟩

theorem startRouteDiscovery_cases {timeToLive : ℕ}
    (h : s.startRouteDiscovery P target timeToLive = .ok s') :
    P.rreqRatelimit ≤ s.rreqCount ∧
        s'.targetAddressToDelayedPackets = s.targetAddressToDelayedPackets ∧
        s'.waitForRREPTimers = s.waitForRREPTimers ∨
      s.rreqCount < P.rreqRatelimit ∧ Sent target s s' := by
  rw [startRouteDiscovery] at h
  split_ifs at h
  rcases sendRREQ_cases h with ⟨hlimit, rfl⟩ | ⟨hlimit, hsent⟩
  · exact .inl ⟨hlimit, rfl, rfl⟩
  · exact .inr ⟨hlimit, hsent.delayed, hsent.timer, hsent.others⟩

/-- A datagram that has to wait for a route. -/
def IsQueued (P : AODVParameters) (s : AODVRouting) (datagram : INetworkDatagram) : Prop :=
  (P.isBroadcast datagram.destinationAddress || P.isLocalAddress datagram.destinationAddress ||
    P.isMulticast datagram.destinationAddress) = false ∧
  (s.routingTable datagram.destinationAddress).any isActiveRoute = false ∧
  (datagram.sourceAddress == 0 || P.isLocalAddress datagram.sourceAddress) = true

theorem ensureRouteForDatagram_cases (h : s.ensureRouteForDatagram P datagram = .ok s') :
    ¬ IsQueued P s datagram ∧
        s'.targetAddressToDelayedPackets = s.targetAddressToDelayedPackets ∧
        s'.waitForRREPTimers = s.waitForRREPTimers ∨
      IsQueued P s datagram ∧ s.hasOngoingRouteDiscovery datagram.destinationAddress = true ∧
        s' = s.delayDatagram datagram ∨
      IsQueued P s datagram ∧ s.hasOngoingRouteDiscovery datagram.destinationAddress = false ∧
        ∃ timeToLive, (s.delayDatagram datagram).startRouteDiscovery P datagram.destinationAddress
          timeToLive = .ok s' := by
  rw [ensureRouteForDatagram] at h
  simp only at h
  split_ifs at h with haddr hactive hsource hongoing
  · refine .inl ⟨fun hq ↦ ?_, ?_⟩
    · rw [hq.1] at haddr
      cases haddr
    · obtain rfl := Except.ok.inj h
      exact ⟨rfl, rfl⟩
  · refine .inl ⟨fun hq ↦ ?_, ?_⟩
    · rw [hq.2.1] at hactive
      cases hactive
    · obtain rfl := Except.ok.inj h
      exact ⟨rfl, rfl⟩
  · exact .inr (.inl ⟨⟨eq_false_of_ne_true haddr, eq_false_of_ne_true hactive, hsource⟩, hongoing,
      (Except.ok.inj h).symm⟩)
  · refine .inr (.inr ⟨⟨eq_false_of_ne_true haddr, eq_false_of_ne_true hactive, hsource⟩,
      eq_false_of_ne_true hongoing, ?_⟩)
    split at h
    · split_ifs at h
      exacts [⟨_, h⟩, ⟨_, h⟩]
    · exact ⟨_, h⟩
  · refine .inl ⟨fun hq ↦ hsource hq.2.2, ?_⟩
    obtain rfl := Except.ok.inj h
    exact ⟨rfl, rfl⟩

theorem handleWaitForRREP_cases {rrepTimer : WaitForRREP}
    (h : s.handleWaitForRREP P rrepTimer = .ok s') :
    s.addressToRreqRetries rrepTimer.destAddr = some P.rreqRetries ∧ s' = s ∨
      s.addressToRreqRetries rrepTimer.destAddr ≠ some P.rreqRetries ∧
        (P.rreqRatelimit ≤ s.rreqCount ∧
          s'.targetAddressToDelayedPackets = s.targetAddressToDelayedPackets ∧
          s'.waitForRREPTimers = s.waitForRREPTimers ∨
        s.rreqCount < P.rreqRatelimit ∧ Sent rrepTimer.destAddr s s') := by
  rw [handleWaitForRREP] at h
  cases hretries : s.addressToRreqRetries rrepTimer.destAddr with
  | none =>
    rw [hretries] at h
    cases h
  | some retries =>
    rw [hretries] at h
    simp only at h
    split_ifs at h with hlast hdiameter
    · exact .inl ⟨congrArg some hlast, (Except.ok.inj h).symm⟩
    · refine .inr ⟨fun heq ↦ hlast (Option.some.inj heq), ?_⟩
      rcases sendRREQ_cases h with ⟨hlimit, rfl⟩ | ⟨hlimit, hsent⟩
      · exact .inl ⟨hlimit, rfl, rfl⟩
      · exact .inr ⟨hlimit, hsent.delayed, hsent.timer, hsent.others⟩
    · refine .inr ⟨fun heq ↦ hlast (Option.some.inj heq), ?_⟩
      rcases sendRREQ_cases h with ⟨hlimit, rfl⟩ | ⟨hlimit, hsent⟩
      · exact .inl ⟨hlimit, rfl, rfl⟩
      · exact .inr ⟨hlimit, hsent.delayed, hsent.timer, hsent.others⟩

/-- A discovery has been completed: its datagrams have been put back, and its timer is gone. -/
structure Completed (target : L3Address) (s s' : AODVRouting) : Prop where
  actions : s'.actions = s.actions ++
    (s.targetAddressToDelayedPackets.filter fun datagram ↦
      datagram.destinationAddress = target).map AODVAction.reinjectQueuedDatagram
  delayed : s'.targetAddressToDelayedPackets =
    s.targetAddressToDelayedPackets.filter fun datagram ↦ datagram.destinationAddress ≠ target
  timer : s'.waitForRREPTimers target = none
  others : ∀ destAddr, destAddr ≠ target →
    s'.waitForRREPTimers destAddr = s.waitForRREPTimers destAddr

theorem handleRREP_cases {originatorAddr : L3Address}
    (h : s.handleRREP P originatorAddr target = .ok s') :
    ¬ (originatorAddr ≠ 0 ∧ P.selfIPAddress = originatorAddr ∧
        s.hasOngoingRouteDiscovery target = true) ∧ s' = s ∨
      Completed target s s' := by
  rw [handleRREP] at h
  split_ifs at h with hours
  · refine .inr ?_
    rw [completeRouteDiscovery, if_pos hours.2.2] at h
    obtain rfl := Except.ok.inj h
    exact ⟨rfl, rfl, setTimer_self _, fun _ hne ↦ setTimer_of_ne _ hne⟩
  · exact .inl ⟨hours, (Except.ok.inj h).symm⟩

/-! ### Steps -/

/-- Every target with waiting datagrams has a timer, and every timer is scheduled. -/
structure NoneStranded (s : AODVRouting) : Prop where
  waiting : ∀ datagram ∈ s.targetAddressToDelayedPackets,
    ∃ timer, s.waitForRREPTimers datagram.destinationAddress = some timer
  scheduled : ∀ target timer, s.waitForRREPTimers target = some timer →
    timer.destAddr = target ∧ timer.arrivalTime.isSome

/-- The request that an event asks for can be sent. -/
def CanSend (P : AODVParameters) (s : AODVRouting) : AODVEvent → Prop
  | .datagram datagram =>
    IsQueued P s datagram → s.hasOngoingRouteDiscovery datagram.destinationAddress = false →
      s.rreqCount < P.rreqRatelimit
  | .waitForRREP target =>
    s.addressToRreqRetries target ≠ some P.rreqRetries ∧ s.rreqCount < P.rreqRatelimit
  | _ => True

/-- A request for a target puts its timer in order. -/
theorem Sent.noneStranded (hsent : Sent target s s')
    (hwaiting : ∀ datagram ∈ s.targetAddressToDelayedPackets, datagram.destinationAddress ≠ target →
      ∃ timer, s.waitForRREPTimers datagram.destinationAddress = some timer)
    (hscheduled : ∀ destAddr timer, destAddr ≠ target →
      s.waitForRREPTimers destAddr = some timer →
        timer.destAddr = destAddr ∧ timer.arrivalTime.isSome) : NoneStranded s' := by
  obtain ⟨timer, htimer, hdest, harrival⟩ := hsent.timer
  refine ⟨fun datagram hmem ↦ ?_, fun destAddr timer' htimer' ↦ ?_⟩
  · rw [hsent.delayed] at hmem
    by_cases hne : datagram.destinationAddress = target
    · exact ⟨timer, hne ▸ htimer⟩
    · rw [hsent.others _ hne]
      exact hwaiting datagram hmem hne
  · by_cases hne : destAddr = target
    · rw [hne, htimer] at htimer'
      obtain rfl := Option.some.inj htimer'
      exact ⟨hdest.trans hne.symm, harrival⟩
    · rw [hsent.others _ hne] at htimer'
      exact hscheduled destAddr timer' hne htimer'

theorem NoneStranded.congr (h : NoneStranded s)
    (hdelayed : s'.targetAddressToDelayedPackets = s.targetAddressToDelayedPackets)
    (htimers : s'.waitForRREPTimers = s.waitForRREPTimers) : NoneStranded s' := by
  refine ⟨?_, ?_⟩
  · rw [hdelayed, htimers]
    exact h.waiting
  · rw [htimers]
    exact h.scheduled

/-- **A datagram** is to be sent. -/
theorem datagram_step (h : NoneStranded s) (hstep : s.ensureRouteForDatagram P datagram = .ok s') :
    NoneStranded s' ↔ CanSend P s (.datagram datagram) := by
  rcases ensureRouteForDatagram_cases hstep with ⟨hnot, hdelayed, htimers⟩ |
    ⟨hqueued, hongoing, rfl⟩ | ⟨hqueued, hongoing, timeToLive, hstart⟩
  · exact iff_of_true (h.congr hdelayed htimers) fun hqueued ↦ absurd hqueued hnot
  · refine iff_of_true ⟨fun d hd ↦ ?_, h.scheduled⟩ fun _ hnot ↦ ?_
    · rcases List.mem_append.1 hd with hd | hd
      · exact h.waiting d hd
      · rw [List.mem_singleton.1 hd]
        exact Option.isSome_iff_exists.1 hongoing
    · rw [hongoing] at hnot
      cases hnot
  · rcases startRouteDiscovery_cases hstart with ⟨hlimit, hdelayed, htimers⟩ | ⟨hlimit, hsent⟩
    · -- the datagram waits without a timer
      refine iff_of_false (fun hnone ↦ ?_) fun hcan ↦ ?_
      · obtain ⟨timer, htimer⟩ := hnone.waiting datagram (by
          rw [hdelayed]
          exact List.mem_append_right _ (List.mem_singleton_self _))
        rw [htimers] at htimer
        exact Bool.false_ne_true (hongoing.symm.trans (Option.isSome_iff_exists.2 ⟨timer, htimer⟩))
      · exact absurd (hcan hqueued hongoing) (Nat.not_lt.2 hlimit)
    · refine iff_of_true (hsent.noneStranded (fun d hd hne ↦ ?_)
        fun destAddr timer _ ↦ h.scheduled destAddr timer) fun _ _ ↦ hlimit
      rcases List.mem_append.1 hd with hd | hd
      · exact h.waiting d hd
      · exact absurd (congrArg _ (List.mem_singleton.1 hd)) hne

/-- **A timer** expires. -/
theorem waitForRREP_step {rrepTimer : WaitForRREP} (h : NoneStranded s)
    (htimer : s.waitForRREPTimers target = some rrepTimer)
    (hstep : (s.setTimer target (some { rrepTimer with arrivalTime := none })).handleWaitForRREP P
      rrepTimer = .ok s') :
    NoneStranded s' ↔ CanSend P s (.waitForRREP target) := by
  obtain rfl := (h.scheduled target rrepTimer htimer).1
  generalize hfired : s.setTimer rrepTimer.destAddr (some { rrepTimer with arrivalTime := none }) = s₁
    at hstep
  have hself : s₁.waitForRREPTimers rrepTimer.destAddr =
      some { rrepTimer with arrivalTime := none } := by
    rw [← hfired, setTimer_self]
  have hother (destAddr : L3Address) (hne : destAddr ≠ rrepTimer.destAddr) :
      s₁.waitForRREPTimers destAddr = s.waitForRREPTimers destAddr := by
    rw [← hfired, setTimer_of_ne _ hne]
  -- a timer that is not scheduled again is left behind
  have hleft (hs' : s'.waitForRREPTimers = s₁.waitForRREPTimers) : ¬ NoneStranded s' := by
    intro hnone
    have hscheduled := hnone.scheduled rrepTimer.destAddr
    rw [hs', hself] at hscheduled
    exact Bool.false_ne_true (hscheduled _ rfl).2
  have hretries : s₁.addressToRreqRetries = s.addressToRreqRetries := by
    rw [← hfired]
    rfl
  have hcount : s₁.rreqCount = s.rreqCount := by
    rw [← hfired]
    rfl
  have hdelayed : s₁.targetAddressToDelayedPackets = s.targetAddressToDelayedPackets := by
    rw [← hfired]
    rfl
  rcases handleWaitForRREP_cases hstep with ⟨hlast, rfl⟩ | ⟨hlast, ⟨hlimit, -, htimers⟩ |
    ⟨hlimit, hsent⟩⟩
  · refine iff_of_false (hleft rfl) fun hcan ↦ hcan.1 ?_
    rw [← hretries]
    exact hlast
  · refine iff_of_false (hleft htimers) fun hcan ↦ ?_
    rw [hcount] at hlimit
    exact absurd hcan.2 (Nat.not_lt.2 hlimit)
  · rw [hretries] at hlast
    rw [hcount] at hlimit
    refine iff_of_true (hsent.noneStranded (fun d hd hne ↦ ?_) fun destAddr timer hne ht ↦ ?_)
      ⟨hlast, hlimit⟩
    · rw [hdelayed] at hd
      rw [hother _ hne]
      exact h.waiting d hd
    · rw [hother _ hne] at ht
      exact h.scheduled destAddr timer ht

theorem Completed.noneStranded (h : NoneStranded s) (hcompleted : Completed target s s') :
    NoneStranded s' := by
  refine ⟨fun datagram hd ↦ ?_, fun destAddr timer ht ↦ ?_⟩
  · rw [hcompleted.delayed] at hd
    obtain ⟨hd, hne⟩ := List.mem_filter.1 hd
    rw [hcompleted.others _ (of_decide_eq_true hne)]
    exact h.waiting datagram hd
  · rw [hcompleted.others] at ht
    · exact h.scheduled destAddr timer ht
    · rintro rfl
      rw [hcompleted.timer] at ht
      cases ht

/-- **One step** keeps the state exactly if it can send what it has to. -/
theorem handle_step {event : AODVEvent} (h : NoneStranded s) (hstep : s.handle P event = .ok s') :
    NoneStranded s' ↔ CanSend P s event := by
  cases event with
  | advance t =>
    obtain rfl := Except.ok.inj hstep
    exact iff_of_true (h.congr rfl rfl) trivial
  | routesChanged routingTable =>
    obtain rfl := Except.ok.inj hstep
    exact iff_of_true (h.congr rfl rfl) trivial
  | datagram datagram => exact datagram_step h hstep
  | routeReply originatorAddr destAddr =>
    refine iff_of_true ?_ trivial
    rcases handleRREP_cases hstep with ⟨-, rfl⟩ | hcompleted
    exacts [h, hcompleted.noneStranded h]
  | waitForRREP target =>
    rw [handle] at hstep
    cases htimer : s.waitForRREPTimers target with
    | none =>
      rw [htimer] at hstep
      cases hstep
    | some rrepTimer =>
      rw [htimer] at hstep
      exact waitForRREP_step h htimer hstep
  | counterTimer =>
    obtain rfl := Except.ok.inj hstep
    exact iff_of_true (h.congr rfl rfl) trivial

/-! ### Runs -/

/-- In every run, no datagram is stranded up to the end exactly if every step can send what it has
to; and a reply to a request of this node completes the discovery. -/
theorem noneStranded_iff {tr : List (Transition AODVRouting AODVEvent (List AODVAction))}
    (h : (system P).Run tr s) :
    ((∀ tr₁ m, tr₁ <+: tr → (system P).Run tr₁ m → NoneStranded m) ↔
      ∀ t ∈ tr, CanSend P t.pre t.input) ∧
    ∀ t ∈ tr, ∀ originatorAddr target, t.input = .routeReply originatorAddr target →
      originatorAddr ≠ 0 → P.selfIPAddress = originatorAddr →
      t.pre.hasOngoingRouteDiscovery target = true →
        Completed target { t.pre with actions := [] } t.post := by
  constructor
  · refine TransitionSystem.Run.forall_prefix_iff (P := fun _ s ↦ NoneStranded s) ?_ ?_ h
    · rintro s ⟨now, routingTable, rfl⟩
      exact ⟨List.forall_mem_nil _, fun _ _ h ↦ by cases h⟩
    · rintro tr s event actions s' - hs ⟨-, hstep, -⟩
      have hcleared : NoneStranded { s with actions := [] } := hs.congr rfl rfl
      rw [handle_step hcleared hstep]
      cases event <;> exact Iff.rfl
  · intro t ht originatorAddr target hinput hne hself hongoing
    obtain ⟨-, hstep, -⟩ := h.takes ht
    rw [hinput] at hstep
    rcases handleRREP_cases hstep with ⟨hnot, -⟩ | hcompleted
    · exact absurd ⟨hne, hself, hongoing⟩ hnot
    · exact hcompleted

/-- A node that does not repeat its requests, and sends them at the largest TTL at once. -/
def withoutRetries : AODVParameters where
  second := 1000
  selfIPAddress := 1
  isLocalAddress a := a = 1
  isBroadcast a := a = 255
  isMulticast _ := false
  askGratuitousRREP := false
  rreqRetries := 0
  rreqRatelimit := 10
  ttlStart := 35
  ttlIncrement := 2
  ttlThreshold := 7
  netDiameter := 35
  nodeTraversalTime := 10
  timeoutBuffer := 2

/-- A datagram of the node to address 7. -/
def toSeven : INetworkDatagram :=
  ⟨0, 1, 7⟩

/-- The node at the start. -/
def idle : AODVRouting :=
  { counterTimer := 1000 }

theorem idle_init : (system withoutRetries).Init idle :=
  ⟨0, fun _ ↦ none, rfl⟩

/-- What an event that does not fail leads to. -/
def after (P : AODVParameters) (s : AODVRouting) (event : AODVEvent) : AODVRouting :=
  (({ s with actions := [] }.handle P event).toOption).getD s

theorem step_after (event : AODVEvent) (hallowed : s.Allowed event)
    (hok : ({ s with actions := [] }.handle P event).toOption.isSome = true) :
    (system P).Step s event (after P s event).actions (after P s event) := by
  refine ⟨hallowed, ?_⟩
  rw [after]
  cases h : { s with actions := [] }.handle P event with
  | error e =>
    rw [h] at hok
    cases hok
  | ok s' => exact ⟨rfl, rfl⟩

theorem noneStranded_iff_toSeven : NoneStranded (after withoutRetries idle (.datagram toSeven)) := by
  have hrun := (TransitionSystem.Run.nil idle_init).snoc
    (step_after (.datagram toSeven) trivial rfl)
  refine (noneStranded_iff hrun).1.2 ?_ _ _ List.prefix_rfl hrun
  exact List.forall_mem_singleton.2 fun _ _ ↦ by decide

/-- The reply does not come, and the request is not repeated. -/
theorem not_noneStranded_withoutReply :
    ¬ ∀ tr s, (system withoutRetries).Run tr s → NoneStranded s := by
  intro h
  have hqueued := step_after (P := withoutRetries) (s := idle) (.datagram toSeven) trivial rfl
  have htimers (target : L3Address) (timer : WaitForRREP)
      (htimer : (after withoutRetries idle (.datagram toSeven)).waitForRREPTimers target = some timer) :
      timer = ⟨7, 35, false, some 740⟩ := by
    by_cases htarget : target = 7
    · rw [htarget] at htimer
      exact (Option.some.inj htimer).symm
    · have hnone : (after withoutRetries idle (.datagram toSeven)).waitForRREPTimers target = none :=
        Function.update_of_ne htarget _ _
      rw [hnone] at htimer
      cases htimer
  have hseven : (after withoutRetries idle (.datagram toSeven)).waitForRREPTimers 7 =
      some ⟨7, 35, false, some 740⟩ := rfl
  have hnow : (after withoutRetries idle (.datagram toSeven)).now = 0 := rfl
  generalize hs₁ : after withoutRetries idle (.datagram toSeven) = s₁ at hqueued htimers hseven hnow
  have hwaited := step_after (P := withoutRetries) (s := s₁) (.advance 740) (by
    refine ⟨Nat.le_trans (Nat.le_of_eq hnow) (Nat.zero_le _), hs₁ ▸ (by decide), fun target timer htimer u hu ↦ ?_⟩
    rw [htimers target timer htimer] at hu
    exact Nat.le_of_eq (Option.some.inj hu)) rfl
  have hexpired := step_after (P := withoutRetries) (s := after withoutRetries s₁ (.advance 740))
    (.waitForRREP 7) ⟨_, hseven, rfl⟩ (by subst hs₁; rfl)
  have hnone := h _ _ ((((TransitionSystem.Run.nil idle_init).snoc hqueued).snoc hwaited).snoc hexpired)
  subst hs₁
  exact Bool.false_ne_true (hnone.scheduled 7 ⟨7, 35, false, none⟩ rfl).2

end AODVRouting

end Inet
