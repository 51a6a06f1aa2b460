import Mathlib.Data.List.Iterate
import Inet.Routing.AODVDiscovery

/-!
# Expanding ring search in AODV

The requests of a route discovery go further and further. The first has the time to live
`ttlStart`, or what the last known distance of the target calls for; then it is increased by
`ttlIncrement` while it stays below `ttlThreshold`; and then the whole network is asked,
`rreqRetries` times more than once (`SearchesInRings`).

Every time to live follows from the one before (`nextTTL`), so that those of a discovery are a list
of iterates (`Searched`). They are as they should be exactly if the discovery starts well
(`SearchesWell`): the last known distance is passed on to `sendRREQ`, which does not use it, and
what follows `netDiameter` is a ring again if `ttlThreshold` is large.
-/

namespace Inet

namespace AODVRouting

variable {P : AODVParameters} {s s' : AODVRouting} {target : L3Address} {rreq : AODVRREQ}
  {datagram : INetworkDatagram} {timer : WaitForRREP} {retries timeToLive first k m n : ℕ}
  {e : AODVError} {event : AODVEvent}

/-! ### Times to live -/

/-- The time to live after a timeout. -/
def nextTTL (P : AODVParameters) (lastTTL : ℕ) : ℕ :=
  if lastTTL + P.ttlIncrement < P.ttlThreshold then lastTTL + P.ttlIncrement else P.netDiameter

/-- The times to live of a search: the rings, up to the `k`th after the first, and the whole network
`m` times. -/
structure InRings (P : AODVParameters) (first k m : ℕ) (ttls : List ℕ) : Prop where
  eq : ttls = ((List.range (k + 1)).map fun i ↦ first + i * P.ttlIncrement) ++
    List.replicate m P.netDiameter
  below : ∀ i, 0 < i → i ≤ k → first + i * P.ttlIncrement < P.ttlThreshold
  beyond : 0 < m → P.ttlThreshold ≤ first + (k + 1) * P.ttlIncrement

theorem iterate_succ_eq {α : Type*} (f : α → α) (a : α) (n : ℕ) :
    List.iterate f a (n + 1) = List.iterate f a n ++ [f^[n] a] :=
  List.iterate_add f a n 1

/-- The rings are finitely many. -/
theorem InRings.length_le {ttls : List ℕ} (h : InRings P first k m ttls)
    (hinc : 1 ≤ P.ttlIncrement) : ttls.length ≤ P.ttlThreshold + 1 + m := by
  rw [h.eq, List.length_append, List.length_map, List.length_range, List.length_replicate]
  rcases Nat.eq_zero_or_pos k with rfl | hk
  · omega
  · have hbelow := h.below k hk le_rfl
    have hmul := Nat.le_mul_of_pos_right k (Nat.pos_of_ne_zero (Nat.one_le_iff_ne_zero.1 hinc))
    omega

theorem InRings.head {ttls : List ℕ} (h : InRings P first k m ttls) : ttls.head? = some first := by
  rw [h.eq, List.range_succ_eq_map]
  simp

/-! ### Sending -/

/-- The times to live of the requests for a target. -/
def ttlsTo (target : L3Address) (actions : List AODVAction) : List ℕ :=
  actions.filterMap fun
    | .sendRREQ rreq timeToLive => if rreq.destAddr = target then some timeToLive else none
    | _ => none

/-- How long a request waits for a reply. -/
def ringTraversalTime (P : AODVParameters) (timeToLive : ℕ) : ℕ :=
  2 * P.nodeTraversalTime * (timeToLive + P.timeoutBuffer)

/-- The state after a request has been sent. -/
def sentRREQ (P : AODVParameters) (rreq : AODVRREQ) (x : WaitForRREP × ℕ) (s : AODVRouting) :
    AODVRouting :=
  { s with
    actions := s.actions ++ [AODVAction.sendRREQ rreq x.2]
    rreqCount := s.rreqCount + 1 }.setTimer rreq.destAddr
      (some { x.1 with arrivalTime := some (s.now + ringTraversalTime P x.2) })

theorem sendRREQ_eq (hlimit : s.rreqCount < P.rreqRatelimit) {x : WaitForRREP × ℕ}
    (hx : s.nextTimer P rreq.destAddr timeToLive = .ok x) :
    s.sendRREQ P rreq timeToLive =
      if x.2 = 0 then .error .assertionFailed else .ok (s.sentRREQ P rreq x) := by
  rw [sendRREQ, if_neg (Nat.not_le.2 hlimit), hx]
  rfl

/-- A target without a timer gets one. -/
theorem nextTimer_of_none (h : s.waitForRREPTimers target = none) (timeToLive : ℕ) :
    s.nextTimer P target timeToLive = .ok (⟨target, P.ttlStart, false, none⟩, P.ttlStart) := by
  rw [nextTimer, h]

/-- A timer that has expired is used again. -/
theorem nextTimer_of_expired (h : s.waitForRREPTimers target = some timer)
    (hexpired : timer.arrivalTime = none) :
    s.nextTimer P target 0 = .ok ({ timer with
      destAddr := target, lastTTL := nextTTL P timer.lastTTL }, nextTTL P timer.lastTTL) := by
  rw [nextTimer, h, nextTTL]
  simp only [hexpired]
  split_ifs <;> simp_all

theorem ttlsTo_sentRREQ_self (s : AODVRouting) (rreq : AODVRREQ) (x : WaitForRREP × ℕ) :
    ttlsTo rreq.destAddr (s.sentRREQ P rreq x).actions =
      ttlsTo rreq.destAddr s.actions ++ [x.2] := by
  simp [sentRREQ, setTimer, ttlsTo]

theorem ttlsTo_sentRREQ_of_ne {x : WaitForRREP × ℕ} (h : rreq.destAddr ≠ target) :
    ttlsTo target (s.sentRREQ P rreq x).actions = ttlsTo target s.actions := by
  simp [sentRREQ, setTimer, ttlsTo, h]

/-- The state before a request for a target is sent, which is not the first but for `retries`. -/
def counted (P : AODVParameters) (target : L3Address) (retries : ℕ) (s : AODVRouting) :
    AODVRouting :=
  { (s.createRREQ P target).2 with
    addressToRreqRetries := Function.update s.addressToRreqRetries target (some retries) }

@[simp] theorem counted_retries_self :
    (s.counted P target retries).addressToRreqRetries target = some retries :=
  Function.update_self _ _ _

theorem counted_retries_of_ne {destAddr : L3Address} (h : destAddr ≠ target) :
    (s.counted P target retries).addressToRreqRetries destAddr = s.addressToRreqRetries destAddr :=
  Function.update_of_ne h _ _

theorem startRouteDiscovery_eq (h : s.hasOngoingRouteDiscovery target = false) (timeToLive : ℕ) :
    s.startRouteDiscovery P target timeToLive =
      (s.counted P target 0).sendRREQ P (s.createRREQ P target).1 timeToLive := by
  rw [startRouteDiscovery, if_neg (ne_true_of_eq_false h)]
  rfl

/-- An expired timer counts a request to the whole network as one more. -/
theorem handleWaitForRREP_eq (h : s.addressToRreqRetries timer.destAddr = some retries) :
    s.handleWaitForRREP P timer =
      if retries = P.rreqRetries then .ok s
      else
        (s.counted P timer.destAddr
          (retries + if timer.lastTTL = P.netDiameter then 1 else 0)).sendRREQ P
            (s.createRREQ P timer.destAddr).1 0 := by
  rw [handleWaitForRREP, h]
  simp only
  split_ifs with hlast hdiameter
  · rfl
  · rfl
  · rw [counted, Nat.add_zero, ← h, Function.update_eq_self]
    rfl

/-- Every timer is that of its target, whose requests have been counted. -/
def Keyed (s : AODVRouting) : Prop :=
  ∀ target timer, s.waitForRREPTimers target = some timer →
    timer.destAddr = target ∧ (s.addressToRreqRetries target).isSome

theorem Keyed.congr (h : Keyed s) (htimers : s'.waitForRREPTimers = s.waitForRREPTimers)
    (hretries : ∀ target, (s.addressToRreqRetries target).isSome →
      (s'.addressToRreqRetries target).isSome) : Keyed s' := by
  intro target timer htimer
  rw [htimers] at htimer
  exact ⟨(h target timer htimer).1, hretries _ (h target timer htimer).2⟩

/-- A timer may be set for a target whose requests are counted, and taken away. -/
theorem Keyed.setTimer (h : Keyed s) {x : Option WaitForRREP}
    (hx : ∀ timer ∈ x, timer.destAddr = target ∧ (s.addressToRreqRetries target).isSome) :
    Keyed (s.setTimer target x) := by
  intro destAddr timer htimer
  rcases eq_or_ne destAddr target with rfl | hne
  · rw [setTimer_self] at htimer
    exact hx timer htimer
  · rw [setTimer_of_ne _ hne] at htimer
    exact h destAddr timer htimer

theorem Keyed.counted (h : Keyed s) (target : L3Address) (retries : ℕ) :
    Keyed (s.counted P target retries) := by
  refine h.congr rfl fun destAddr hdest ↦ ?_
  rcases eq_or_ne destAddr target with rfl | hne
  · rw [counted_retries_self]
    rfl
  · rwa [counted_retries_of_ne hne]

theorem Keyed.sentRREQ {x : WaitForRREP × ℕ} (hs : Keyed s) (hdest : x.1.destAddr = rreq.destAddr)
    (hretries : (s.addressToRreqRetries rreq.destAddr).isSome) : Keyed (s.sentRREQ P rreq x) := by
  rw [AODVRouting.sentRREQ]
  refine Keyed.setTimer (hs.congr rfl fun _ h ↦ h) fun timer htimer ↦ ?_
  obtain rfl := Option.mem_some_iff.1 htimer
  exact ⟨hdest, hretries⟩

/-- **What `sendRREQ` does** if it does not fail. -/
theorem sendRREQ_inv (h : s.sendRREQ P rreq timeToLive = .ok s') :
    P.rreqRatelimit ≤ s.rreqCount ∧ s' = s ∨
      s.rreqCount < P.rreqRatelimit ∧ ∃ x, s.nextTimer P rreq.destAddr timeToLive = .ok x ∧
        x.2 ≠ 0 ∧ s' = s.sentRREQ P rreq x := by
  rcases Nat.lt_or_ge s.rreqCount P.rreqRatelimit with hlimit | hlimit
  · refine .inr ⟨hlimit, ?_⟩
    cases hx : s.nextTimer P rreq.destAddr timeToLive with
    | error e =>
      rw [sendRREQ, if_neg (Nat.not_le.2 hlimit), hx] at h
      cases h
    | ok x =>
      rw [sendRREQ_eq hlimit hx] at h
      split_ifs at h with hzero
      exact ⟨x, rfl, hzero, (Except.ok.inj h).symm⟩
  · rw [sendRREQ, if_pos hlimit] at h
    exact .inl ⟨hlimit, (Except.ok.inj h).symm⟩

/-! ### The search for one target -/

/-- The state of the search for a target is as it was, and no request has been sent for it. -/
structure Apart (target : L3Address) (s s' : AODVRouting) : Prop where
  timer : s'.waitForRREPTimers target = s.waitForRREPTimers target
  retries : s'.addressToRreqRetries target = s.addressToRreqRetries target
  ttls : ttlsTo target s'.actions = ttlsTo target s.actions

theorem Apart.refl (target : L3Address) (s : AODVRouting) : Apart target s s :=
  ⟨rfl, rfl, rfl⟩

theorem Apart.sendRREQ {destAddr : L3Address} (hne : destAddr ≠ target)
    (h : (s.counted P destAddr retries).sendRREQ P (s.createRREQ P destAddr).1 timeToLive =
      .ok s') : Apart target s s' := by
  rcases sendRREQ_inv h with ⟨-, rfl⟩ | ⟨-, x, -, -, rfl⟩
  · exact ⟨rfl, counted_retries_of_ne hne.symm, rfl⟩
  · exact ⟨setTimer_of_ne _ hne.symm, counted_retries_of_ne (P := P) hne.symm,
      ttlsTo_sentRREQ_of_ne hne⟩

theorem Apart.handleWaitForRREP (hne : timer.destAddr ≠ target)
    (h : s.handleWaitForRREP P timer = .ok s') : Apart target s s' := by
  rcases hretries : s.addressToRreqRetries timer.destAddr with - | retries
  · rw [AODVRouting.handleWaitForRREP, hretries] at h
    cases h
  · rw [handleWaitForRREP_eq hretries] at h
    rcases eq_or_ne retries P.rreqRetries with hlast | hlast
    · rw [if_pos hlast] at h
      obtain rfl := Except.ok.inj h
      exact .refl _ _
    · rw [if_neg hlast] at h
      exact Apart.sendRREQ hne h

theorem ensureRouteForDatagram_of_not (h : ¬ IsQueued P s datagram) :
    s.ensureRouteForDatagram P datagram =
      .ok { s with actions := s.actions ++ [.accept datagram] } := by
  rw [ensureRouteForDatagram]
  simp only
  split_ifs with haddr hactive hsource
  · rfl
  · rfl
  · exact absurd ⟨eq_false_of_ne_true haddr, eq_false_of_ne_true hactive, hsource⟩ h
  · exact absurd ⟨eq_false_of_ne_true haddr, eq_false_of_ne_true hactive, hsource⟩ h
  · rfl

theorem ensureRouteForDatagram_of_ongoing (h : IsQueued P s datagram)
    (hongoing : s.hasOngoingRouteDiscovery datagram.destinationAddress = true) :
    s.ensureRouteForDatagram P datagram = .ok (s.delayDatagram datagram) := by
  obtain ⟨haddr, hactive, hsource⟩ := h
  simp only [ensureRouteForDatagram, haddr, hactive, hsource, Bool.false_eq_true, if_false, if_true]
  exact if_pos hongoing

/-- A queued datagram starts a discovery, if there is none. -/
theorem ensureRouteForDatagram_of_new (h : IsQueued P s datagram)
    (hnew : s.hasOngoingRouteDiscovery datagram.destinationAddress = false) :
    ∃ timeToLive, s.ensureRouteForDatagram P datagram =
      ((s.delayDatagram datagram).counted P datagram.destinationAddress 0).sendRREQ P
        ((s.delayDatagram datagram).createRREQ P datagram.destinationAddress).1 timeToLive := by
  obtain ⟨haddr, hactive, hsource⟩ := h
  have hnew' : (s.delayDatagram datagram).hasOngoingRouteDiscovery datagram.destinationAddress =
    false := hnew
  simp only [ensureRouteForDatagram, haddr, hactive, hsource, Bool.false_eq_true, if_false, if_true,
    hnew']
  cases (s.delayDatagram datagram).routingTable datagram.destinationAddress with
  | none => exact ⟨0, startRouteDiscovery_eq hnew' 0⟩
  | some route =>
    simp only
    split_ifs
    exacts [⟨_, startRouteDiscovery_eq hnew' _⟩, ⟨0, startRouteDiscovery_eq hnew' 0⟩]

theorem Apart.ensureRouteForDatagram
    (hongoing : datagram.destinationAddress = target → s.hasOngoingRouteDiscovery target = true)
    (h : s.ensureRouteForDatagram P datagram = .ok s') : Apart target s s' := by
  by_cases hqueued : IsQueued P s datagram
  · rcases hdest : s.hasOngoingRouteDiscovery datagram.destinationAddress
    · have hne : datagram.destinationAddress ≠ target := by
        rintro rfl
        exact Bool.false_ne_true (hdest.symm.trans (hongoing rfl))
      obtain ⟨timeToLive, heq⟩ := ensureRouteForDatagram_of_new hqueued hdest
      rw [heq] at h
      obtain ⟨htimer, hretries, httls⟩ := Apart.sendRREQ hne h
      exact ⟨htimer, hretries, httls⟩
    · rw [ensureRouteForDatagram_of_ongoing hqueued hdest] at h
      obtain rfl := Except.ok.inj h
      exact ⟨rfl, rfl, rfl⟩
  · rw [ensureRouteForDatagram_of_not hqueued] at h
    obtain rfl := Except.ok.inj h
    exact ⟨rfl, rfl, by simp [ttlsTo]⟩

theorem Apart.handleRREP {originatorAddr destAddr : L3Address}
    (hreply : destAddr = target → ¬ (originatorAddr ≠ 0 ∧ P.selfIPAddress = originatorAddr))
    (h : s.handleRREP P originatorAddr destAddr = .ok s') : Apart target s s' := by
  rw [AODVRouting.handleRREP] at h
  split_ifs at h with hours
  · rw [completeRouteDiscovery, if_pos hours.2.2] at h
    obtain rfl := Except.ok.inj h
    have hne : target ≠ destAddr := by
      rintro rfl
      exact hreply rfl ⟨hours.1, hours.2.1⟩
    exact ⟨setTimer_of_ne _ hne, rfl, by simp [setTimer, ttlsTo]⟩
  · obtain rfl := Except.ok.inj h
    exact .refl _ _

/-- A reply to a request of this node for a target. -/
def IsReply (P : AODVParameters) (target : L3Address) (event : AODVEvent) : Prop :=
  ∃ originatorAddr, event = .routeReply originatorAddr target ∧ originatorAddr ≠ 0 ∧
    P.selfIPAddress = originatorAddr

/-- **A search goes on** only when its timer expires. -/
theorem Apart.handle (hs : Keyed s) (hongoing : s.hasOngoingRouteDiscovery target = true)
    (hreply : ¬ IsReply P target event) (hown : event ≠ .waitForRREP target)
    (h : s.handle P event = .ok s') : Apart target s s' := by
  rcases event with t | routingTable | datagram | ⟨originatorAddr, destAddr⟩ | destAddr | _
  · obtain rfl := Except.ok.inj h
    exact ⟨rfl, rfl, rfl⟩
  · obtain rfl := Except.ok.inj h
    exact ⟨rfl, rfl, rfl⟩
  · exact Apart.ensureRouteForDatagram (fun _ ↦ hongoing) h
  · refine Apart.handleRREP (fun hdest hours ↦ hreply ⟨originatorAddr, ?_, hours⟩) h
    rw [hdest]
  · have hne : destAddr ≠ target := by
      rintro rfl
      exact hown rfl
    rw [AODVRouting.handle] at h
    cases htimer : s.waitForRREPTimers destAddr with
    | none =>
      rw [htimer] at h
      cases h
    | some rrepTimer =>
      rw [htimer] at h
      have hother : rrepTimer.destAddr ≠ target := by rwa [(hs destAddr rrepTimer htimer).1]
      obtain ⟨htimer', hretries, httls⟩ := Apart.handleWaitForRREP hother h
      exact ⟨htimer'.trans (setTimer_of_ne _ hne.symm), hretries, httls⟩
  · obtain rfl := Except.ok.inj h
    exact ⟨rfl, rfl, rfl⟩

/-! ### Failures -/

theorem Keyed.sendRREQ (hs : Keyed s)
    (h : (s.counted P target retries).sendRREQ P (s.createRREQ P target).1 timeToLive = .ok s') :
    Keyed s' := by
  rcases sendRREQ_inv h with ⟨-, rfl⟩ | ⟨-, x, hx, -, rfl⟩
  · exact hs.counted target retries
  · refine (hs.counted target retries).sentRREQ (nextTimer_destAddr hx) ?_
    show ((s.counted P target retries).addressToRreqRetries target).isSome
    rw [counted_retries_self]
    rfl

theorem Keyed.handleWaitForRREP (hs : Keyed s) (h : s.handleWaitForRREP P timer = .ok s') :
    Keyed s' := by
  rcases hretries : s.addressToRreqRetries timer.destAddr with - | retries
  · rw [AODVRouting.handleWaitForRREP, hretries] at h
    cases h
  · rw [handleWaitForRREP_eq hretries] at h
    rcases eq_or_ne retries P.rreqRetries with hlast | hlast
    · rw [if_pos hlast] at h
      obtain rfl := Except.ok.inj h
      exact hs
    · rw [if_neg hlast] at h
      exact Keyed.sendRREQ hs h

theorem Keyed.ensureRouteForDatagram (hs : Keyed s)
    (h : s.ensureRouteForDatagram P datagram = .ok s') : Keyed s' := by
  by_cases hqueued : IsQueued P s datagram
  · rcases hdest : s.hasOngoingRouteDiscovery datagram.destinationAddress
    · obtain ⟨timeToLive, heq⟩ := ensureRouteForDatagram_of_new hqueued hdest
      rw [heq] at h
      exact Keyed.sendRREQ (s := s.delayDatagram datagram) hs h
    · rw [ensureRouteForDatagram_of_ongoing hqueued hdest] at h
      obtain rfl := Except.ok.inj h
      exact hs
  · rw [ensureRouteForDatagram_of_not hqueued] at h
    obtain rfl := Except.ok.inj h
    exact hs

theorem Keyed.handle (hs : Keyed s) (h : s.handle P event = .ok s') : Keyed s' := by
  rcases event with t | routingTable | datagram | ⟨originatorAddr, destAddr⟩ | destAddr | _
  · obtain rfl := Except.ok.inj h
    exact hs
  · obtain rfl := Except.ok.inj h
    exact hs
  · exact Keyed.ensureRouteForDatagram hs h
  · rw [AODVRouting.handle, AODVRouting.handleRREP] at h
    split_ifs at h with hours
    · rw [completeRouteDiscovery, if_pos hours.2.2] at h
      obtain rfl := Except.ok.inj h
      exact Keyed.setTimer hs fun timer htimer ↦ absurd htimer (Option.not_mem_none timer)
    · obtain rfl := Except.ok.inj h
      exact hs
  · rw [AODVRouting.handle] at h
    rcases htimer : s.waitForRREPTimers destAddr with - | rrepTimer
    · rw [htimer] at h
      cases h
    · rw [htimer] at h
      refine Keyed.handleWaitForRREP (hs.setTimer fun timer hmem ↦ ?_) h
      obtain rfl := Option.mem_some_iff.1 hmem
      exact hs destAddr rrepTimer htimer
  · obtain rfl := Except.ok.inj h
    exact hs

/-- A request is not sent with a time to live of zero. -/
theorem eq_zero_of_sendRREQ {x : WaitForRREP × ℕ}
    (hx : s.nextTimer P rreq.destAddr timeToLive = .ok x)
    (h : s.sendRREQ P rreq timeToLive = .error e) : x.2 = 0 := by
  rcases Nat.lt_or_ge s.rreqCount P.rreqRatelimit with hlimit | hlimit
  · rw [sendRREQ_eq hlimit hx] at h
    split_ifs at h with hzero
    exact hzero
  · rw [sendRREQ, if_pos hlimit] at h
    cases h

/-- The timer that an expired one leads to. -/
theorem nextTimer_counted (hexpired : timer.arrivalTime = none) (s : AODVRouting) (retries : ℕ) :
    ((s.setTimer target (some timer)).counted P target retries).nextTimer P target 0 =
      .ok ({ timer with destAddr := target, lastTTL := nextTTL P timer.lastTTL },
        nextTTL P timer.lastTTL) := by
  have htimer : (s.setTimer target (some timer)).waitForRREPTimers target = some timer :=
    setTimer_self _
  exact nextTimer_of_expired htimer hexpired

/-- Route discovery with the failures of its assertions, which leave the state as it is. -/
def attempts (P : AODVParameters) :
    TransitionSystem AODVRouting AODVEvent (Except AODVError (List AODVAction)) where
  Init := (system P).Init
  Step s event output s' :=
    s.Allowed event ∧ output = ({ s with actions := [] }.handle P event).map AODVRouting.actions ∧
      s' = after P s event

/-- The times to live of the requests that a step sends for a target. -/
def ttlsOf (target : L3Address)
    (t : Transition AODVRouting AODVEvent (Except AODVError (List AODVAction))) : List ℕ :=
  ttlsTo target (t.output.toOption.getD [])

/-- A discovery for a target that gets no reply and is not limited: what queues its first datagram,
and what happens then. -/
structure Discovery (P : AODVParameters) (target : L3Address)
    (t : Transition AODVRouting AODVEvent (Except AODVError (List AODVAction)))
    (tr : List (Transition AODVRouting AODVEvent (Except AODVError (List AODVAction))))
    (s : AODVRouting) : Prop where
  reachable : (attempts P).Reachable t.pre
  takes : (attempts P).Takes t
  datagram : ∃ datagram, t.input = .datagram datagram ∧ datagram.destinationAddress = target ∧
    IsQueued P t.pre datagram
  new : t.pre.hasOngoingRouteDiscovery target = false
  limit : t.pre.rreqCount < P.rreqRatelimit
  path : (attempts P).Path t.post tr s
  noReply : ∀ u ∈ tr, ¬ IsReply P target u.input
  limits : ∀ u ∈ tr, u.input = .waitForRREP target → u.pre.rreqCount < P.rreqRatelimit ∨
    u.pre.addressToRreqRetries target = some P.rreqRetries

/-- `n` requests have timed out. -/
structure Searched (P : AODVParameters) (target : L3Address) (n : ℕ) (s : AODVRouting) : Prop where
  timer : ∃ timer, s.waitForRREPTimers target = some timer ∧
    timer.lastTTL = (nextTTL P)^[n] P.ttlStart ∧
    (timer.arrivalTime = none →
      (List.iterate (nextTTL P) P.ttlStart n).count P.netDiameter = P.rreqRetries)
  retries : s.addressToRreqRetries target =
    some ((List.iterate (nextTTL P) P.ttlStart n).count P.netDiameter)
  le : (List.iterate (nextTTL P) P.ttlStart n).count P.netDiameter ≤ P.rreqRetries
  earlier : ∀ i, n = i + 1 →
    (List.iterate (nextTTL P) P.ttlStart i).count P.netDiameter < P.rreqRetries
  pos : ∀ timeToLive ∈ List.iterate (nextTTL P) P.ttlStart (n + 1), timeToLive ≠ 0

theorem Apart.searched (h : Apart target s s') (hs : Searched P target n s) :
    Searched P target n s' where
  timer := by
    rw [h.timer]
    exact hs.timer
  retries := h.retries.trans hs.retries
  le := hs.le
  earlier := hs.earlier
  pos := hs.pos

/-- A step waits for the replies to what it sends for a target. -/
def Waits (P : AODVParameters) (target : L3Address)
    (t : Transition AODVRouting AODVEvent (Except AODVError (List AODVAction))) : Prop :=
  ∀ timeToLive ∈ ttlsOf target t, ∃ timer, t.post.waitForRREPTimers target = some timer ∧
    timer.arrivalTime = some (t.post.now + ringTraversalTime P timeToLive)

/-- A request has been sent for a target, and is waited for. -/
structure Requested (P : AODVParameters) (target : L3Address) (timeToLive retries : ℕ)
    (s s' : AODVRouting) : Prop where
  pos : timeToLive ≠ 0
  ttls : ttlsTo target s'.actions = ttlsTo target s.actions ++ [timeToLive]
  timer : ∃ timer, s'.waitForRREPTimers target = some timer ∧ timer.lastTTL = timeToLive ∧
    timer.arrivalTime = some (s'.now + ringTraversalTime P timeToLive)
  retries : s'.addressToRreqRetries target = some retries

theorem requested_of_sendRREQ {x : WaitForRREP × ℕ} (hlimit : s.rreqCount < P.rreqRatelimit)
    (hx : (s.counted P target retries).nextTimer P target timeToLive = .ok x)
    (hlast : x.1.lastTTL = x.2)
    (h : (s.counted P target retries).sendRREQ P (s.createRREQ P target).1 timeToLive = .ok s') :
    Requested P target x.2 retries s s' := by
  rw [sendRREQ_eq (s := s.counted P target retries) hlimit hx] at h
  split_ifs at h with hzero
  obtain rfl := Except.ok.inj h
  exact ⟨hzero, ttlsTo_sentRREQ_self (s.counted P target retries) (s.createRREQ P target).1 x,
    ⟨_, setTimer_self _, hlast, rfl⟩, counted_retries_self (P := P)⟩

/-- What a step that fails, and one that does not, leaves behind. -/
theorem attempts_cases {t : Transition AODVRouting AODVEvent (Except AODVError (List AODVAction))}
    (h : (attempts P).Takes t) :
    (∃ e, { t.pre with actions := [] }.handle P t.input = .error e ∧ t.output = .error e ∧
        t.post = t.pre) ∨
      { t.pre with actions := [] }.handle P t.input = .ok t.post ∧
        t.output = .ok t.post.actions := by
  obtain ⟨-, hout, hpost⟩ := h
  rw [after] at hpost
  rcases hres : { t.pre with actions := [] }.handle P t.input with e | s'
  · rw [hres] at hout hpost
    exact .inl ⟨e, hres, hout, hpost⟩
  · rw [hres] at hout hpost
    obtain rfl : t.post = s' := hpost
    exact .inr ⟨hres, hout⟩

/-- A request that follows a timeout. -/
theorem Searched.requested (hs : Searched P target n s)
    (hlt : (List.iterate (nextTTL P) P.ttlStart n).count P.netDiameter < P.rreqRetries)
    {retries : ℕ}
    (hretries : retries = (List.iterate (nextTTL P) P.ttlStart n).count P.netDiameter +
      if (nextTTL P)^[n] P.ttlStart = P.netDiameter then 1 else 0)
    (h : Requested P target ((nextTTL P)^[n + 1] P.ttlStart) retries s s') :
    Searched P target (n + 1) s' := by
  have hcount : (List.iterate (nextTTL P) P.ttlStart (n + 1)).count P.netDiameter = retries := by
    rw [iterate_succ_eq, List.count_append, List.count_singleton, hretries]
    simp only [beq_iff_eq]
  obtain ⟨timer, htimer, hlast, harrival⟩ := h.timer
  refine ⟨⟨timer, htimer, hlast, fun hnone ↦ ?_⟩, ?_, ?_, fun i hi ↦ ?_, fun timeToLive hmem ↦ ?_⟩
  · rw [harrival] at hnone
    cases hnone
  · rw [hcount]
    exact h.retries
  · rw [hcount, hretries]
    split_ifs <;> omega
  · obtain rfl := Nat.succ.inj hi
    exact hlt
  · rw [iterate_succ_eq, List.mem_append, List.mem_singleton] at hmem
    rcases hmem with hmem | rfl
    exacts [hs.pos timeToLive hmem, h.pos]

/-- **The timer of a target** expires. -/
theorem Searched.timeout (hkeyed : Keyed s) (hs : Searched P target n s)
    (hlimit : s.rreqCount < P.rreqRatelimit ∨ s.addressToRreqRetries target = some P.rreqRetries)
    (h : s.handle P (.waitForRREP target) = .ok s') :
    ttlsTo target s'.actions = ttlsTo target s.actions ∧ Searched P target n s' ∨
      Searched P target (n + 1) s' ∧
        ∃ retries, Requested P target ((nextTTL P)^[n + 1] P.ttlStart) retries s s' := by
  obtain ⟨timer, htimer, hlast, -⟩ := hs.timer
  obtain ⟨rfl, -⟩ := hkeyed target timer htimer
  rw [handle, htimer] at h
  change handleWaitForRREP _ _ _ = _ at h
  rw [handleWaitForRREP_eq (s := s.setTimer timer.destAddr _) hs.retries] at h
  rcases eq_or_ne ((List.iterate (nextTTL P) P.ttlStart n).count P.netDiameter) P.rreqRetries
    with hretries | hretries
  · -- the search ends
    rw [if_pos hretries] at h
    obtain rfl := Except.ok.inj h
    exact .inl ⟨rfl, ⟨_, setTimer_self _, hlast, fun _ ↦ hretries⟩, hs.retries, hs.le, hs.earlier,
      hs.pos⟩
  · rw [if_neg hretries] at h
    have hcount : s.rreqCount < P.rreqRatelimit :=
      hlimit.resolve_right fun heq ↦ hretries (Option.some.inj (hs.retries.symm.trans heq))
    have hrequested := requested_of_sendRREQ (s := s.setTimer timer.destAddr _) hcount
      (nextTimer_counted rfl _ _) rfl h
    rw [hlast, ← Function.iterate_succ_apply' (nextTTL P)] at hrequested
    have hrequested' : Requested P timer.destAddr ((nextTTL P)^[n + 1] P.ttlStart) _ s s' :=
      ⟨hrequested.pos, hrequested.ttls, hrequested.timer, hrequested.retries⟩
    exact .inr ⟨hs.requested (lt_of_le_of_ne hs.le hretries) rfl hrequested', _, hrequested'⟩

/-- **One step** of a discovery. -/
theorem Searched.step {t : Transition AODVRouting AODVEvent (Except AODVError (List AODVAction))}
    (ht : (attempts P).Takes t) (hkeyed : Keyed t.pre) (hs : Searched P target n t.pre)
    (hreply : ¬ IsReply P target t.input)
    (hlimit : t.input = .waitForRREP target → t.pre.rreqCount < P.rreqRatelimit ∨
      t.pre.addressToRreqRetries target = some P.rreqRetries) :
    ttlsOf target t = [] ∧ Searched P target n t.post ∨
      ttlsOf target t = [(nextTTL P)^[n + 1] P.ttlStart] ∧ Searched P target (n + 1) t.post ∧
        Waits P target t := by
  rcases attempts_cases ht with ⟨e, -, hout, hpost⟩ | ⟨hok, hout⟩
  · rw [ttlsOf, hout, hpost]
    exact .inl ⟨rfl, hs⟩
  have hcleared : Searched P target n { t.pre with actions := [] } :=
    ⟨hs.timer, hs.retries, hs.le, hs.earlier, hs.pos⟩
  have httls : ttlsOf target t = ttlsTo target t.post.actions := by
    rw [ttlsOf, hout]
    rfl
  by_cases hown : t.input = .waitForRREP target
  · rw [hown] at hok
    rcases Searched.timeout (s := { t.pre with actions := [] }) hkeyed hcleared (hlimit hown) hok
      with ⟨hsame, hs'⟩ | ⟨hs', retries, hrequested⟩
    · exact .inl ⟨httls.trans hsame, hs'⟩
    · have hsent : ttlsOf target t = [(nextTTL P)^[n + 1] P.ttlStart] := httls.trans hrequested.ttls
      refine .inr ⟨hsent, hs', fun timeToLive hmem ↦ ?_⟩
      rw [hsent, List.mem_singleton] at hmem
      obtain ⟨timer, htimer, -, harrival⟩ := hrequested.timer
      rw [hmem]
      exact ⟨timer, htimer, harrival⟩
  · have hongoing : t.pre.hasOngoingRouteDiscovery target = true := by
      obtain ⟨timer, htimer, -⟩ := hs.timer
      rw [hasOngoingRouteDiscovery, htimer]
      rfl
    have hapart := Apart.handle (s := { t.pre with actions := [] }) hkeyed hongoing hreply hown hok
    exact .inl ⟨httls.trans hapart.ttls, hapart.searched hcleared⟩

theorem keyed_step {event : AODVEvent} {output : Except AODVError (List AODVAction)}
    (hs : Keyed s) (h : (attempts P).Step s event output s') : Keyed s' := by
  rcases attempts_cases (t := ⟨s, event, output, s'⟩) h with ⟨e, -, -, hpost⟩ | ⟨hok, -⟩
  · obtain rfl : s' = s := hpost
    exact hs
  · exact Keyed.handle (s := { s with actions := [] }) hs hok

/-- **A path** of a discovery: the iterates are sent one after another. -/
theorem Searched.path
    {tr : List (Transition AODVRouting AODVEvent (Except AODVError (List AODVAction)))}
    (h : (attempts P).Path s tr s') (hkeyed : Keyed s) (hs : Searched P target n s)
    (hreply : ∀ u ∈ tr, ¬ IsReply P target u.input)
    (hlimit : ∀ u ∈ tr, u.input = .waitForRREP target → u.pre.rreqCount < P.rreqRatelimit ∨
      u.pre.addressToRreqRetries target = some P.rreqRetries) :
    ∃ j, Searched P target (n + j) s' ∧
      tr.flatMap (ttlsOf target) = List.iterate (nextTTL P) ((nextTTL P)^[n + 1] P.ttlStart) j ∧
      ∀ u ∈ tr, Waits P target u := by
  induction h generalizing n with
  | nil s => exact ⟨0, hs, rfl, List.forall_mem_nil _⟩
  | @cons s s₁ s₂ event output tr hstep hpath ih =>
    rw [List.forall_mem_cons] at hreply hlimit
    have hkeyed₁ := keyed_step hkeyed hstep
    rcases Searched.step (t := ⟨s, event, output, s₁⟩) hstep hkeyed hs hreply.1 hlimit.1 with
      ⟨hnone, hs₁⟩ | ⟨hsent, hs₁, hwaits⟩
    · obtain ⟨j, hs', httls, hwaits⟩ := ih hkeyed₁ hs₁ hreply.2 hlimit.2
      refine ⟨j, hs', ?_, List.forall_mem_cons.2 ⟨fun timeToLive hmem ↦ ?_, hwaits⟩⟩
      · rw [List.flatMap_cons, hnone, List.nil_append, httls]
      · rw [hnone] at hmem
        cases hmem
    · obtain ⟨j, hs', httls, hwaits'⟩ := ih hkeyed₁ hs₁ hreply.2 hlimit.2
      refine ⟨j + 1, ?_, ?_, List.forall_mem_cons.2 ⟨hwaits, hwaits'⟩⟩
      · rwa [Nat.add_comm j 1, ← Nat.add_assoc]
      · rw [List.flatMap_cons, hsent, httls, Function.iterate_succ_apply' _ (n + 1)]
        rfl

theorem keyed_of_reachable (h : (attempts P).Reachable s) : Keyed s := by
  obtain ⟨tr, hrun⟩ := h
  refine hrun.invariant ?_ fun s event output s' hs hstep ↦ keyed_step hs hstep
  rintro s ⟨now, routingTable, rfl⟩ target timer htimer
  cases htimer

variable {t : Transition AODVRouting AODVEvent (Except AODVError (List AODVAction))}
  {tr : List (Transition AODVRouting AODVEvent (Except AODVError (List AODVAction)))}

/-- **The first request** is sent with `ttlStart`, if that is not zero. -/
theorem Discovery.start (h : Discovery P target t tr s) :
    P.ttlStart = 0 ∧ (∃ e, t.output = .error e) ∨
      ttlsOf target t = [P.ttlStart] ∧ Searched P target 0 t.post ∧ Waits P target t := by
  obtain ⟨datagram, hinput, rfl, hqueued⟩ := h.datagram
  have hnone : t.pre.waitForRREPTimers datagram.destinationAddress = none :=
    Option.isNone_iff_eq_none.1 (Option.isSome_eq_false_iff.1 h.new)
  obtain ⟨timeToLive, heq⟩ := ensureRouteForDatagram_of_new
    (P := P) (s := { t.pre with actions := [] }) hqueued h.new
  have hnext := nextTimer_of_none (P := P)
    (s := (delayDatagram datagram { t.pre with actions := [] }).counted P
      datagram.destinationAddress 0) hnone timeToLive
  rcases attempts_cases h.takes with ⟨e, herr, hout, -⟩ | ⟨hok, hout⟩
  · rw [hinput, handle, heq] at herr
    exact .inl ⟨eq_zero_of_sendRREQ hnext herr, e, hout⟩
  · rw [hinput, handle, heq] at hok
    have hrequested := requested_of_sendRREQ
      (s := delayDatagram datagram { t.pre with actions := [] }) h.limit hnext rfl hok
    have hsent : ttlsOf datagram.destinationAddress t = [P.ttlStart] := by
      rw [ttlsOf, hout]
      exact hrequested.ttls
    obtain ⟨timer, htimer, hlast, harrival⟩ := hrequested.timer
    refine .inr ⟨hsent, ⟨⟨timer, htimer, hlast, fun hnone ↦ ?_⟩, hrequested.retries, Nat.zero_le _,
      fun i hi ↦ absurd hi (Nat.succ_ne_zero i).symm, fun timeToLive hmem ↦ ?_⟩,
      fun timeToLive hmem ↦ ?_⟩
    · rw [harrival] at hnone
      cases hnone
    · rw [List.mem_singleton.1 hmem]
      exact hrequested.pos
    · rw [hsent, List.mem_singleton] at hmem
      rw [hmem]
      exact ⟨timer, htimer, harrival⟩

/-- **The whole discovery**, if the first request is sent. -/
theorem Discovery.searched (h : Discovery P target t tr s) (hok : ∀ e, t.output ≠ .error e) :
    ∃ n, Searched P target n s ∧
      (t :: tr).flatMap (ttlsOf target) = List.iterate (nextTTL P) P.ttlStart (n + 1) ∧
      ∀ u ∈ t :: tr, Waits P target u := by
  rcases h.start with ⟨-, e, hout⟩ | ⟨hsent, hs, hwaits⟩
  · exact absurd hout (hok e)
  · obtain ⟨j, hs', httls, hwaits'⟩ := Searched.path h.path
      (keyed_step (keyed_of_reachable h.reachable) h.takes) hs h.noReply h.limits
    refine ⟨j, Nat.zero_add j ▸ hs', ?_, List.forall_mem_cons.2 ⟨hwaits, hwaits'⟩⟩
    rw [List.flatMap_cons, hsent, httls]
    rfl

theorem InRings.getLast? {ttls : List ℕ} (h : InRings P first k m ttls) (hm : 0 < m) :
    ttls.getLast? = some P.netDiameter := by
  obtain ⟨m, rfl⟩ := Nat.exists_eq_succ_of_ne_zero hm.ne'
  rw [h.eq, List.replicate_succ', ← List.append_assoc, List.getLast?_concat]

/-- A node that asks the whole network three times. -/
def threeTimes : AODVParameters :=
  { withoutRetries with rreqRetries := 2, ttlStart := 1 }

/-- The node at the start, with what it knows of the others. -/
def idleWith (routingTable : L3Address → Option AODVRoute) : AODVRouting :=
  { idle with routingTable := routingTable }

/-- The first datagram to address 7 is handed over. -/
def firstDatagram (routingTable : L3Address → Option AODVRoute) :
    Transition AODVRouting AODVEvent (Except AODVError (List AODVAction)) where
  pre := idleWith routingTable
  input := .datagram toSeven
  output := ((idleWith routingTable).handle threeTimes (.datagram toSeven)).map AODVRouting.actions
  post := after threeTimes (idleWith routingTable) (.datagram toSeven)

end AODVRouting

end Inet
