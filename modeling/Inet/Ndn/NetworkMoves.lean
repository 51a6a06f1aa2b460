import Inet.Ndn.Tickets

/-!
# What a network does at the gate of a consumer

The record of a run at a gate (the new Interests sent from it, the Data delivered at it, the times
at which each number was sent), and everything one transition can do there (`PortMove`): the timer
of the consumer fires, a packet reaches it, or an event reaches the forwarder of its node. All else
happens elsewhere. `port_move` is the inversion of the step of a network that the invariants of the
next module are proved by.

Every packet in a network has the ordinary kind, registrations and the time-out notifications on
their way to an application apart (`Run.clean`). So an application that sees a notification has one
from its own forwarder.
-/

namespace Inet.Ndn

namespace Network

open ForwardingBase (Event)

variable {ι : Type*} [DecidableEq ι]

/-! ### The record of a run, at a gate -/

/-- The new Interests a transition sends from a gate. -/
def requestsOf (port : Port ι) (t : Trans ι) : List Packet :=
  match t.input.2, t.output with
  | .express port' _, .app _ fx => if port' = port then sentUp fx else []
  | _, _ => []

/-- The Data a transition delivers at a gate. -/
def answersOf (port : Port ι) (t : Trans ι) : List Data :=
  match t.input.2 with
  | .toApp port' (.data d) => if port' = port then [d] else []
  | _ => []

/-- The times at which a transition sends an Interest of a number from a gate, for the first time
or again. -/
def sendsOf (port : Port ι) (q : ℕ) (t : Trans ι) : List SimTime :=
  match t.output with
  | .app port' fx => if port' = port then ConsumerAppBase.sendTimes q t.input.1 fx else []
  | .forwarder _ _ => []

/-- The new Interests sent from a gate in a run. -/
def expressed (port : Port ι) (tr : List (Trans ι)) : List Packet :=
  tr.flatMap (requestsOf port)

/-- The Data delivered at a gate in a run. -/
def answered (port : Port ι) (tr : List (Trans ι)) : List Data :=
  tr.flatMap (answersOf port)

/-- The times at which an Interest of a number was sent from a gate in a run. -/
def timesSent (port : Port ι) (tr : List (Trans ι)) (q : ℕ) : List SimTime :=
  tr.flatMap (sendsOf port q)

section Snoc

variable (port : Port ι) (tr : List (Trans ι)) (t : Trans ι)

theorem expressed_snoc : expressed port (tr ++ [t]) = expressed port tr ++ requestsOf port t := by
  simp [expressed]

theorem answered_snoc : answered port (tr ++ [t]) = answered port tr ++ answersOf port t := by
  simp [answered]

theorem timesSent_snoc (q : ℕ) :
    timesSent port (tr ++ [t]) q = timesSent port tr q ++ sendsOf port q t := by
  simp [timesSent]

end Snoc

/-! ### What a transition does at a gate -/

/-- What a transition does at the gate of a consumer `c`. -/
inductive PortMove (port : Port ι) (t : Trans ι) (c : ConsumerAppBase) : ConsumerAppBase → Prop
  /-- The timer of the consumer fires. -/
  | express {draw : ConsumerAppBase.Draw} (hact : t.input.2 = .express port draw)
      (hout : t.output = .app port (c.handleTimer t.input.1 draw).2)
      (hup : t.post.up port = t.pre.up port ++ sentUp (c.handleTimer t.input.1 draw).2)
      (hdown : t.post.down port = t.pre.down port)
      (hfwd : t.post.forwarder port.1 = t.pre.forwarder port.1) :
      PortMove port t c (c.handleTimer t.input.1 draw).1
  /-- A packet reaches the consumer. -/
  | deliver {p : Packet} (hact : t.input.2 = .toApp port p) (hp : p ∈ t.pre.down port)
      (hout : t.output = .app port (c.handlePacket t.input.1 p).2)
      (hup : t.post.up port = t.pre.up port ++ sentUp (c.handlePacket t.input.1 p).2)
      (hdown : t.post.down port = (t.pre.down port).erase p)
      (hfwd : t.post.forwarder port.1 = t.pre.forwarder port.1) :
      PortMove port t c (c.handlePacket t.input.1 p).1
  /-- An event reaches the forwarder of the node, perhaps a request from this gate. -/
  | serve {ev : Event} {fx : List Effect} (hact : t.input.2.event = some (port.1, ev))
      (hout : t.output = .forwarder port.1 fx)
      (hstep : ∀ par, (ForwardingBase.events par).Step (t.pre.forwarder port.1) (t.input.1, ev) fx
        (t.post.forwarder port.1))
      (hup : ∀ k, keyCount requested k (t.post.up port) + keyCount (requestedAt port.2) k [ev] =
        keyCount requested k (t.pre.up port))
      (hdown : t.post.down port = t.pre.down port ++ sentDown port.2 fx) : PortMove port t c c
  /-- Nothing happens here. -/
  | elsewhere (hrequests : requestsOf port t = []) (hanswers : answersOf port t = [])
      (hsends : ∀ q, sendsOf port q t = []) (hup : t.post.up port = t.pre.up port)
      (hdown : t.post.down port = t.pre.down port)
      (hfwd : t.post.forwarder port.1 = t.pre.forwarder port.1) : PortMove port t c c

/-- An event at the forwarder of a gate, at the gate. Before, a request may have left the packets
on their way up. -/
theorem serve_of_atForwarder {port : Port ι} {s s₁ : Network ι} {now : SimTime} {a : Action ι}
    {ev : Event} (c : ConsumerAppBase) (hact : a.event = some (port.1, ev))
    (hev : (s.forwarder port.1).Enabled ev) (hfwd : s₁.forwarder = s.forwarder)
    (hdown : s₁.down = s.down)
    (hup : ∀ k, keyCount requested k (s₁.up port) + keyCount (requestedAt port.2) k [ev] =
      keyCount requested k (s.up port)) :
    PortMove port ⟨s, (now, a), (s₁.atForwarder now port.1 ev).2, (s₁.atForwarder now port.1 ev).1⟩
      c c := by
  have hstep : ∀ par, (ForwardingBase.events par).Step (s.forwarder port.1) (now, ev)
      ((s₁.forwarder port.1).handleMessage now ev).2
      ((s₁.atForwarder now port.1 ev).1.forwarder port.1) := by
    refine fun par ↦ ⟨hev, ?_⟩
    rw [atForwarder_forwarder, if_pos rfl, hfwd]
  have hsent : (s₁.atForwarder now port.1 ev).1.down port =
      s.down port ++ sentDown port.2 ((s₁.forwarder port.1).handleMessage now ev).2 := by
    simp [atForwarder, hdown]
  exact .serve hact rfl hstep hup hsent

/-- An event at another node is nothing here. -/
theorem elsewhere_of_atForwarder {port : Port ι} {s s₁ : Network ι} {now : SimTime} {a : Action ι}
    {n : ι} {ev : Event} (c : ConsumerAppBase) (hact : a.event = some (n, ev)) (hn : port.1 ≠ n)
    (hfwd : s₁.forwarder = s.forwarder) (hdown : s₁.down = s.down)
    (hup : s₁.up port = s.up port) :
    PortMove port ⟨s, (now, a), (s₁.atForwarder now n ev).2, (s₁.atForwarder now n ev).1⟩ c c := by
  refine .elsewhere ?_ ?_ (fun _ ↦ rfl) hup (by simp [atForwarder, hn, hdown]) ?_
  · cases a <;> rfl
  · cases a with
    | toApp => cases hact
    | _ => rfl
  · show (s₁.atForwarder now n ev).1.forwarder port.1 = _
    rw [atForwarder_forwarder, if_neg hn, hfwd]

/-- An event at a forwarder that no application sent it is seen at the gates of its node only. -/
theorem move_of_event {port : Port ι} {s : Network ι} {now : SimTime} {a : Action ι} {n : ι}
    {ev : Event} (c : ConsumerAppBase) (hact : a.event = some (n, ev))
    (hev : (s.forwarder n).Enabled ev) (hquiet : requestedAt port.2 ev = none) :
    PortMove port ⟨s, (now, a), (s.atForwarder now n ev).2, (s.atForwarder now n ev).1⟩ c c := by
  by_cases hn : port.1 = n
  · subst hn
    exact serve_of_atForwarder c hact hev rfl rfl (by simp [hquiet])
  · exact elsewhere_of_atForwarder c hact hn rfl rfl rfl

/-- What the application at another gate does is nothing here. -/
theorem elsewhere_of_atApp {port port' : Port ι} {s s₁ : Network ι} {now : SimTime} {a : Action ι}
    {r : App × List AppEffect} (c : ConsumerAppBase) (hport : port' ≠ port)
    (hact : (∃ draw, a = .express port' draw) ∨ ∃ p, a = .toApp port' p)
    (hfwd : s₁.forwarder = s.forwarder) (hup : s₁.up = s.up) (hdown : s₁.down port = s.down port) :
    PortMove port ⟨s, (now, a), (s₁.atApp now port' r).2, (s₁.atApp now port' r).1⟩ c c := by
  refine .elsewhere ?_ ?_ (fun q ↦ by simp [sendsOf, atApp, hport])
    (by simp [atApp, Ne.symm hport, hup]) hdown (congrFun hfwd port.1)
  · rcases hact with ⟨draw, rfl⟩ | ⟨p, rfl⟩
    · simp [requestsOf, atApp, hport]
    · rfl
  · rcases hact with ⟨draw, rfl⟩ | ⟨p, rfl⟩
    · rfl
    · cases p <;> simp [answersOf, hport]

theorem arriving_of_isSelf {ev : Event} (h : isSelf ev = true) : Broker.arriving ev = none := by
  cases ev with
  | packet => cases h
  | _ => rfl

theorem requestedAt_of_isSelf {face : ℕ} {ev : Event} (h : isSelf ev = true) :
    requestedAt face ev = none := by
  cases ev with
  | packet => cases h
  | _ => rfl

theorem requested_arriveOn (p : Packet) (gate : Gate) :
    requested (p.arriveOn gate) = requested p := by
  cases p <;> rfl

/-- The timer of the application at a gate fires. -/
theorem express_move {s : Network ι} {now : SimTime} {port port' : Port ι}
    {draw : ConsumerAppBase.Draw} (hen : s.Enabled (.express port' draw)) {c' : ConsumerAppBase}
    (hc' : (s.handle now (.express port' draw)).1.app port = some (.consumer c')) :
    ∃ c, s.app port = some (.consumer c) ∧
      PortMove port ⟨s, (now, .express port' draw), (s.handle now (.express port' draw)).2,
        (s.handle now (.express port' draw)).1⟩ c c' := by
  have htimer : ((s.app port').bind App.expressInterestTimer).isSome = true := hen
  -- only a consumer has a timer
  obtain ⟨c, hc⟩ : ∃ c, s.app port' = some (.consumer c) := by
    cases happ : s.app port' with
    | none => simp [happ] at htimer
    | some app =>
      cases app with
      | consumer c => exact ⟨c, rfl⟩
      | producer p => simp [happ, App.expressInterestTimer] at htimer
  simp only [handle, hc] at hc' ⊢
  by_cases hp : port = port'
  · subst hp
    obtain rfl : (c.handleTimer now draw).1 = c' := by simpa [atApp] using hc'
    exact ⟨c, hc, .express rfl rfl (by simp [atApp]) rfl rfl⟩
  · exact ⟨c', by simpa [atApp, hp] using hc',
      elsewhere_of_atApp c' (Ne.symm hp) (.inl ⟨draw, rfl⟩) rfl rfl rfl⟩

/-- A packet reaches the application at a gate. -/
theorem toApp_move {s : Network ι} {now : SimTime} {port port' : Port ι} {p : Packet}
    (hen : s.Enabled (.toApp port' p)) {c' : ConsumerAppBase}
    (hc' : (s.handle now (.toApp port' p)).1.app port = some (.consumer c')) :
    ∃ c, s.app port = some (.consumer c) ∧
      PortMove port ⟨s, (now, .toApp port' p), (s.handle now (.toApp port' p)).2,
        (s.handle now (.toApp port' p)).1⟩ c c' := by
  cases happ : s.app port' with
  | none =>
    simp only [handle, happ] at hc' ⊢
    have hp : port' ≠ port := by
      rintro rfl
      cases happ.symm.trans hc'
    have hanswers : ∀ o s', answersOf port ⟨s, (now, .toApp port' p), o, s'⟩ = [] := by
      intro o s'
      cases p <;> simp [answersOf, hp]
    exact ⟨c', hc', .elsewhere rfl (hanswers _ _) (fun q ↦ by simp [sendsOf, hp]) rfl
      (by simp [Ne.symm hp]) rfl⟩
  | some app =>
    simp only [handle, happ] at hc' ⊢
    by_cases hp : port = port'
    · subst hp
      have hc' : (app.handlePacket now p).1 = .consumer c' := by simpa [atApp] using hc'
      cases app with
      | producer q => cases hc'
      | consumer c =>
        obtain rfl := App.consumer.inj hc'
        exact ⟨c, happ, .deliver rfl hen rfl (by simp [atApp, App.handlePacket])
          (by simp [atApp]) rfl⟩
    · exact ⟨c', by simpa [atApp, hp] using hc',
        elsewhere_of_atApp c' (Ne.symm hp) (.inr ⟨p, rfl⟩) rfl rfl (by simp [hp])⟩

/-- A packet of the application at a gate reaches its forwarder. -/
theorem toForwarder_move {s : Network ι} {now : SimTime} {port port' : Port ι} {p : Packet}
    {delay : SimTime} (hen : s.Enabled (.toForwarder port' p delay)) (c : ConsumerAppBase) :
    PortMove port ⟨s, (now, .toForwarder port' p delay),
      (s.handle now (.toForwarder port' p delay)).2,
      (s.handle now (.toForwarder port' p delay)).1⟩ c c := by
  by_cases hn : port.1 = port'.1
  · -- the packet leaves those on their way up and becomes the event
    have hact : (Action.toForwarder port' p delay).event =
        some (port.1, fromApp port' p delay) := by
      rw [hn]
      rfl
    simp only [handle, ← hn]
    refine serve_of_atForwarder c hact trivial rfl rfl fun k ↦ ?_
    by_cases hp : port = port'
    · subst hp
      have hcount := keyCount_erase_add (f := requested) (k := k) hen
      simpa [requestedAt, fromApp, requested_arriveOn] using hcount
    · -- another application of the same node
      have hface : port'.2 ≠ port.2 := fun hface ↦ hp (Prod.ext hn hface.symm)
      simp [requestedAt, fromApp, hface, hp]
  · have hp : port ≠ port' := fun hp ↦ hn (congrArg Prod.fst hp)
    exact elsewhere_of_atForwarder c rfl hn rfl rfl (by simp [hp])

/-- **What a step does at the gate of a consumer.** A gate with a consumer had one before. -/
theorem port_move {setup : Setup ι} {s s' : Network ι} {now : SimTime} {a : Action ι}
    {o : Outcome ι} (h : (actions setup).Step s (now, a) o s') {port : Port ι}
    {c' : ConsumerAppBase} (hc' : s'.app port = some (.consumer c')) :
    ∃ c, s.app port = some (.consumer c) ∧ PortMove port ⟨s, (now, a), o, s'⟩ c c' := by
  obtain ⟨-, hen, heq⟩ := h
  obtain rfl : s' = (s.handle now a).1 := congrArg Prod.fst heq
  obtain rfl : o = (s.handle now a).2 := congrArg Prod.snd heq
  clear heq
  cases a with
  | express port' draw => exact express_move hen hc'
  | toForwarder port' p delay => exact ⟨c', hc', toForwarder_move hen c'⟩
  | toApp port' p => exact toApp_move hen hc'
  | link n face frame delay =>
    exact ⟨c', hc', move_of_event c' rfl trivial (by simp [requestedAt, fromLink])⟩
  | self n ev =>
    exact ⟨c', hc', move_of_event c' rfl hen.2 (requestedAt_of_isSelf hen.1)⟩

/-! ### Packets are told apart by their kind -/

@[simp] theorem sentUp_send (p : Packet) : sentUp [.send p] = [p] := rfl

/-- The one new Interest of a timer. -/
theorem sentUp_handleTimer (c : ConsumerAppBase) (now : SimTime) (draw : ConsumerAppBase.Draw) :
    sentUp (c.handleTimer now draw).2 = [.interest (c.createNextInterest now draw).1] := by
  obtain ⟨timer, fx, heq, hfx⟩ := c.handleTimer_spec now draw
  rw [heq]
  rcases hfx with rfl | ⟨time, rfl⟩ <;> rfl

/-- A consumer sends the Interest of a time-out again, or nothing. -/
theorem sentUp_handlePacket (c : ConsumerAppBase) (now : SimTime) (p : Packet) :
    sentUp (c.handlePacket now p).2 = [] ∨
      ∃ i, p = .interest i ∧ i.kind = TIMEOUT_CODE ∧
        sentUp (c.handlePacket now p).2 = [.interest (ConsumerAppBase.again i)] := by
  unfold ConsumerAppBase.handlePacket
  split
  · rename_i hkind
    cases p with
    | interest i =>
      dsimp only [ConsumerAppBase.onTimeout]
      split
      · exact .inr ⟨i, rfl, hkind, rfl⟩
      · exact .inl rfl
    | data d => exact .inl rfl
  · cases p <;> exact .inl rfl

/-- What an application sends is of the ordinary kind. -/
theorem kind_of_mem_sentUp {app : App} {now : SimTime} {p q : Packet}
    (h : q ∈ sentUp (app.handlePacket now p).2) : q.kind = 0 := by
  cases app with
  | consumer c =>
    rcases sentUp_handlePacket c now p with hnil | ⟨i, -, -, hone⟩
    · rw [App.handlePacket, hnil] at h
      cases h
    · rw [App.handlePacket, hone] at h
      rw [List.mem_singleton.1 h]
      rfl
  | producer r =>
    cases p with
    | data d => cases h
    | interest i =>
      simp only [App.handlePacket, ProducerAppBase.processInterest] at h
      split at h
      · have h : q ∈ sentUp [.send (.data (r.dataFor i))] := h
        rw [sentUp_send] at h
        rw [List.mem_singleton.1 h]
        rfl
      · cases h

/-- Only the time-out notifications on their way to the applications have the kind of one. -/
structure Clean (s : Network ι) : Prop where
  up : ∀ port, ∀ p ∈ s.up port, p.kind ≠ TIMEOUT_CODE
  air : ∀ frame ∈ s.air, frame.1.kind ≠ TIMEOUT_CODE
  forwarder : ∀ node, (s.forwarder node).Carries fun p ↦ p.kind ≠ TIMEOUT_CODE
  down : ∀ port d, .data d ∈ s.down port → d.kind ≠ TIMEOUT_CODE

omit [DecidableEq ι] in
theorem clean_initial (setup : Setup ι) : (initial setup).Clean where
  up port p hp := by
    cases happ : setup.app port with
    | none => simp [initial, happ] at hp
    | some par =>
      cases par with
      | consumer par => simp [initial, happ, App.initial, sentUp] at hp
      | producer par =>
        simp only [initial, happ, App.initial, ProducerAppBase.initial, Option.map_some,
          Option.getD_some] at hp
        split at hp
        · rw [ProducerAppBase.registerPrefix, sentUp_send] at hp
          rw [List.mem_singleton.1 hp]
          exact (by decide : REGISTER_PREFIX_CODE ≠ TIMEOUT_CODE)
        · cases hp
  air := by simp [initial]
  forwarder _ := ForwardingBase.carries_initial ..
  down := by simp [initial]

omit [DecidableEq ι] in
/-- What reaches a forwarder is no time-out notification. -/
theorem Clean.arriving {s : Network ι} (h : s.Clean) {a : Action ι} (hen : s.Enabled a) {n : ι}
    {ev : Event} (hact : a.event = some (n, ev)) {p : Packet}
    (hp : Broker.arriving ev = some p) : p.kind ≠ TIMEOUT_CODE := by
  cases a with
  | express => cases hact
  | toForwarder port q delay =>
    obtain ⟨rfl, rfl⟩ := Prod.mk.inj (Option.some.inj hact)
    obtain rfl := Option.some.inj hp
    rw [Packet.kind_arriveOn]
    exact h.up port q hen
  | toApp => cases hact
  | link m face frame delay =>
    obtain ⟨rfl, rfl⟩ := Prod.mk.inj (Option.some.inj hact)
    obtain rfl := Option.some.inj hp
    rw [Packet.kind_arriveOn]
    exact h.air frame hen
  | self m ev =>
    obtain ⟨rfl, rfl⟩ := Prod.mk.inj (Option.some.inj hact)
    rw [arriving_of_isSelf hen.1] at hp
    cases hp

theorem Clean.atForwarder {s : Network ι} (h : s.Clean) {now : SimTime} {n : ι} {ev : Event}
    {par : ForwardingBase.Params} (hreach : (ForwardingBase.events par).Reachable (s.forwarder n))
    (hen : (s.forwarder n).Enabled ev)
    (hin : ∀ p, Broker.arriving ev = some p → p.kind ≠ TIMEOUT_CODE) :
    (s.atForwarder now n ev).1.Clean := by
  have hhop : ∀ p : Packet, p.kind ≠ TIMEOUT_CODE → p.hop.kind ≠ TIMEOUT_CODE := by
    intro p hp
    cases p <;> exact hp
  have hstep : (ForwardingBase.events par).Step (s.forwarder n) (now, ev)
      ((s.forwarder n).handleMessage now ev).2 ((s.forwarder n).handleMessage now ev).1 :=
    ⟨hen, rfl⟩
  obtain ⟨hcarries, hsent⟩ := (h.forwarder n).step hhop hreach hstep hin
  constructor
  · exact h.up
  · intro frame hframe
    rcases List.mem_append.1 hframe with hframe | hframe
    · exact h.air frame hframe
    · obtain ⟨mac, face, hf⟩ := mem_sentOut.1 hframe
      rcases hsent _ hf _ rfl with hp | ⟨e, -, face, hp⟩
      · exact hp
      · cases hp
  · intro node
    rw [atForwarder_forwarder]
    split
    · exact hcarries
    · exact h.forwarder node
  · intro port d hd
    rcases List.mem_append.1 hd with hd | hd
    · exact h.down port d hd
    · split at hd
      · rcases hsent _ (mem_sentDown.1 hd) _ rfl with hp | ⟨e, -, face, hp⟩
        · exact hp
        · cases hp
      · cases hd

/-- An application has sent packets of the ordinary kind. -/
theorem Clean.atApp {s : Network ι} (h : s.Clean) {now : SimTime} {port : Port ι}
    {r : App × List AppEffect} (hsent : ∀ q ∈ sentUp r.2, q.kind = 0) :
    (s.atApp now port r).1.Clean := by
  refine ⟨fun port' p hp ↦ ?_, h.air, h.forwarder, h.down⟩
  by_cases hport : port' = port
  · subst hport
    have hp : p ∈ s.up port' ++ sentUp r.2 := by simpa [Network.atApp] using hp
    rcases List.mem_append.1 hp with hp | hp
    · exact h.up port' p hp
    · rw [hsent p hp]
      decide
  · exact h.up port' p (by simpa [Network.atApp, hport] using hp)

/-- Every reachable network is clean. -/
theorem Run.clean {setup : Setup ι} {tr : List (Trans ι)} {s : Network ι}
    (h : (actions setup).Run tr s) : s.Clean := by
  refine h.history (P := fun _ s ↦ s.Clean) ?_ ?_
  · rintro s rfl
    exact clean_initial setup
  · rintro tr s ⟨now, a⟩ o s' hrun hs ⟨-, hen, heq⟩
    obtain rfl : s' = (s.handle now a).1 := congrArg Prod.fst heq
    clear heq
    have hreach := fun n ↦ forwarder_reachable hrun n
    cases a with
    | express port draw =>
      simp only [handle]
      split
      · refine hs.atApp ?_
        simp [sentUp_handleTimer]
      · exact ⟨hs.up, hs.air, hs.forwarder, hs.down⟩
    | toForwarder port p delay =>
      have hs₁ : Clean { s with up := Function.update s.up port ((s.up port).erase p) } := by
        refine ⟨fun port' q hq ↦ ?_, hs.air, hs.forwarder, hs.down⟩
        by_cases hport : port' = port
        · subst hport
          exact hs.up port' q (List.mem_of_mem_erase (by simpa using hq))
        · exact hs.up port' q (by simpa [hport] using hq)
      exact hs₁.atForwarder (hreach port.1) trivial fun q hq ↦ hs.arriving hen rfl hq
    | toApp port p =>
      have hs₁ : Clean { s with down := Function.update s.down port ((s.down port).erase p) } := by
        refine ⟨hs.up, hs.air, hs.forwarder, fun port' d hd ↦ ?_⟩
        by_cases hport : port' = port
        · subst hport
          exact hs.down port' d (List.mem_of_mem_erase (by simpa using hd))
        · exact hs.down port' d (by simpa [hport] using hd)
      simp only [handle]
      split
      · exact hs₁.atApp fun q hq ↦ kind_of_mem_sentUp hq
      · exact ⟨hs₁.up, hs₁.air, hs₁.forwarder, hs₁.down⟩
    | link n face frame delay =>
      exact hs.atForwarder (hreach n) trivial fun q hq ↦ hs.arriving hen rfl hq
    | self n ev =>
      exact hs.atForwarder (hreach n) hen.2 fun q hq ↦ hs.arriving hen rfl hq

end Network

end Inet.Ndn
