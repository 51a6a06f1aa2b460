import Inet.Foundations.TransitionSystem
import Inet.Ndn.Apps
import Inet.Ndn.PendingRequests

/-!
# Networks of forwarders and applications

Any number of nodes, each with a forwarder and with applications at its upper gates, joined by a
link. A packet that was sent is in flight until it is delivered. Between an application and its
forwarder each packet is delivered once; on the link a packet may reach any gate of any node any
number of times, or none. Deliveries come in any order, so transmission delays and the delays of
`sendDelayed` need no place in the state; the clock only does not run backwards.

Each forwarder of a network takes the steps of `ForwardingBase.events`, so everything proved about a
single forwarder holds of it (`forwarder_reachable`).
-/

namespace Inet.Ndn

/-- An application at an upper gate. -/
inductive App
  | consumer (c : ConsumerAppBase)
  | producer (p : ProducerAppBase)

/-- The parameters of an application. -/
inductive App.Params
  | consumer (par : ConsumerAppBase.Params)
  | producer (par : ProducerAppBase.Params)

namespace App

/-- An application and the calls it makes when it is set up. -/
def initial : Params → App × List AppEffect
  | .consumer par => (.consumer (.initial par), [])
  | .producer par => (.producer (ProducerAppBase.initial par).1, (ProducerAppBase.initial par).2)

/-- A packet reaches an application. -/
def handlePacket (now : SimTime) (packet : Packet) : App → App × List AppEffect
  | .consumer c => (.consumer (c.handlePacket now packet).1, (c.handlePacket now packet).2)
  | .producer p => (.producer (p.processInterest now packet).1, (p.processInterest now packet).2)

/-- The timer of a consumer. -/
def expressInterestTimer : App → Option SimTime
  | .consumer c => c.expressInterestTimer
  | .producer _ => none

/-- The number of the next Interest of a consumer. -/
def intSeqNo : App → Option ℕ
  | .consumer c => some c.intSeqNo
  | .producer _ => none

end App

/-- The packets an application sends. -/
def sentUp (fx : List AppEffect) : List Packet :=
  fx.filterMap fun
    | .send packet => some packet
    | _ => none

/-- The packets a forwarder sends to one of its upper gates. -/
def sentDown (face : ℕ) (fx : List Effect) : List Packet :=
  fx.filterMap fun
    | .sendUpper packet face' => if face' = face then some packet else none
    | _ => none

/-- The packets a forwarder sends to the link, with their control information. -/
def sentOut (fx : List Effect) : List (Packet × Ieee802Ctrl) :=
  fx.filterMap fun
    | .sendLower packet _ ctrl _ => some (packet, ctrl)
    | _ => none

/-- An upper gate of a node. -/
abbrev Port (ι : Type*) := ι × ℕ

/-- The state of a network with nodes `ι`. -/
structure Network (ι : Type*) where
  /-- The time of the last event. -/
  now : SimTime
  forwarder : ι → ForwardingBase
  /-- The application at a gate, if it is connected. -/
  app : Port ι → Option App
  /-- The packets on their way from an application to its forwarder. -/
  up : Port ι → List Packet
  /-- The packets on their way from a forwarder to an application. -/
  down : Port ι → List Packet
  /-- The packets ever sent to the link. -/
  air : List (Packet × Ieee802Ctrl)

namespace Network

open ForwardingBase (Event)

/-- What can happen in a network. -/
inductive Action (ι : Type*)
  /-- The timer of the consumer at a gate fires. -/
  | express (port : Port ι) (draw : ConsumerAppBase.Draw)
  /-- A packet of the application at a gate reaches the forwarder. -/
  | toForwarder (port : Port ι) (packet : Packet) (delay : SimTime)
  /-- A packet of the forwarder reaches the application at a gate. -/
  | toApp (port : Port ι) (packet : Packet)
  /-- A packet from the link reaches a forwarder. -/
  | link (node : ι) (face : ℕ) (frame : Packet × Ieee802Ctrl) (delay : SimTime)
  /-- A self-message of a forwarder or of its tables fires. -/
  | self (node : ι) (event : Event)

/-- What an action made a forwarder or an application do. -/
inductive Outcome (ι : Type*)
  | forwarder (node : ι) (fx : List Effect)
  | app (port : Port ι) (fx : List AppEffect)

/-- The event is not the arrival of a packet. -/
def isSelf : Event → Bool
  | .packet _ _ _ => false
  | _ => true

variable {ι : Type*} [DecidableEq ι]

/-- A timer fires only while it is scheduled, and only packets in flight are delivered. -/
def Enabled (s : Network ι) : Action ι → Prop
  | .express port _ => ((s.app port).bind App.expressInterestTimer).isSome
  | .toForwarder port packet _ => packet ∈ s.up port
  | .toApp port packet => packet ∈ s.down port
  | .link _ _ frame _ => frame ∈ s.air
  | .self node event => isSelf event ∧ (s.forwarder node).Enabled event

instance (s : Network ι) (a : Action ι) : Decidable (s.Enabled a) := by
  cases a <;> unfold Enabled <;> infer_instance

/-- A forwarder reacts to an event. -/
def atForwarder (s : Network ι) (now : SimTime) (node : ι) (event : Event) :
    Network ι × Outcome ι :=
  let (f, fx) := (s.forwarder node).handleMessage now event
  ({ s with
      now
      forwarder := Function.update s.forwarder node f
      down := fun port ↦ s.down port ++ if port.1 = node then sentDown port.2 fx else []
      air := s.air ++ sentOut fx }, .forwarder node fx)

/-- An application has done what it had to do. -/
def atApp (s : Network ι) (now : SimTime) (port : Port ι) (r : App × List AppEffect) :
    Network ι × Outcome ι :=
  ({ s with
      now
      app := Function.update s.app port (some r.1)
      up := Function.update s.up port (s.up port ++ sentUp r.2) }, .app port r.2)

/-- The packet event of a delivery from an application; there is no link address to read. -/
def fromApp (port : Port ι) (packet : Packet) (delay : SimTime) : Event :=
  .packet (packet.arriveOn (.upperLayerIn port.2)) ⟨0⟩ delay

/-- The packet event of a delivery from the link. -/
def fromLink (face : ℕ) (frame : Packet × Ieee802Ctrl) (delay : SimTime) : Event :=
  .packet (frame.1.arriveOn (.lowerLayerIn face)) frame.2.src delay

/-- The event an action brings to a forwarder. -/
def Action.event : Action ι → Option (ι × Event)
  | .toForwarder port packet delay => some (port.1, fromApp port packet delay)
  | .link node face frame delay => some (node, fromLink face frame delay)
  | .self node event => some (node, event)
  | _ => none

/-- The reaction to an action at time `now`. -/
def handle (s : Network ι) (now : SimTime) : Action ι → Network ι × Outcome ι
  | .express port draw =>
    match s.app port with
    | some (.consumer c) =>
      s.atApp now port (.consumer (c.handleTimer now draw).1, (c.handleTimer now draw).2)
    | _ => ({ s with now }, .app port [])
  | .toForwarder port packet delay =>
    { s with up := Function.update s.up port ((s.up port).erase packet) }.atForwarder now port.1
      (fromApp port packet delay)
  | .toApp port packet =>
    let s := { s with down := Function.update s.down port ((s.down port).erase packet) }
    match s.app port with
    | some app => s.atApp now port (app.handlePacket now packet)
    | none => ({ s with now }, .app port [])
  | .link node face frame delay => s.atForwarder now node (fromLink face frame delay)
  | .self node event => s.atForwarder now node event

/-- The parameters of a network. -/
structure Setup (ι : Type*) where
  forwarder : ι → ForwardingBase.Params
  app : Port ι → Option App.Params

/-- The network at time 0, with the registrations of the producers in flight. -/
def initial (setup : Setup ι) : Network ι where
  now := 0
  forwarder node := .initial (setup.forwarder node)
  app port := (setup.app port).map fun par ↦ (App.initial par).1
  up port := ((setup.app port).map fun par ↦ sentUp (App.initial par).2).getD []
  down _ := []
  air := []

/-- The network as a transition system: an input is an action and its time. -/
def actions (setup : Setup ι) : TransitionSystem (Network ι) (SimTime × Action ι) (Outcome ι) where
  Init s := s = initial setup
  Step s i o s' := s.now ≤ i.1 ∧ s.Enabled i.2 ∧ (s', o) = s.handle i.1 i.2

/-- A transition of a network. -/
abbrev Trans (ι : Type*) := Transition (Network ι) (SimTime × Action ι) (Outcome ι)

/-- The transitions of a network on a list of actions. -/
def trace (setup : Setup ι) (is : List (SimTime × Action ι)) : List (Trans ι) :=
  TransitionSystem.transitionsOf (fun s i ↦ s.handle i.1 i.2) (initial setup) is

/-- The network a list of actions leads to. -/
def stateAfter (setup : Setup ι) (is : List (SimTime × Action ι)) : Network ι :=
  TransitionSystem.stateAfter (fun s i ↦ s.handle i.1 i.2) (initial setup) is

/-- Actions that are enabled when they are taken make a run. -/
theorem run_trace {setup : Setup ι} {is : List (SimTime × Action ι)}
    (h : ∀ t ∈ trace setup is, t.pre.now ≤ t.input.1 ∧ t.pre.Enabled t.input.2) :
    (actions setup).Run (trace setup is) (stateAfter setup is) := by
  have hstep : ∀ (s : Network ι) (i : SimTime × Action ι), s.now ≤ i.1 ∧ s.Enabled i.2 →
      (actions setup).Step s i (s.handle i.1 i.2).2 (s.handle i.1 i.2).1 :=
    fun _ _ he ↦ ⟨he.1, he.2, rfl⟩
  exact .ofInputs hstep rfl h

/-! ### Forwarders in a network -/

variable {setup : Setup ι} {s s' : Network ι} {now : SimTime} {a : Action ι} {o : Outcome ι}

theorem atForwarder_forwarder (s : Network ι) (now : SimTime) (node : ι) (ev : Event) (n : ι) :
    (s.atForwarder now node ev).1.forwarder n =
      if n = node then ((s.forwarder node).handleMessage now ev).1 else s.forwarder n := by
  by_cases hn : n = node
  · subst hn
    simp [atForwarder]
  · simp [atForwarder, hn]

/-- An action that brings no event to a forwarder leaves it alone; any other is a step of the
forwarder. -/
theorem forwarder_of_step (h : (actions setup).Step s (now, a) o s') (node : ι) :
    (s'.forwarder node = s.forwarder node ∧ ∀ ev, a.event ≠ some (node, ev)) ∨
      ∃ ev fx, a.event = some (node, ev) ∧ o = .forwarder node fx ∧
        ∀ par, (ForwardingBase.events par).Step (s.forwarder node) (now, ev) fx
          (s'.forwarder node) := by
  obtain ⟨-, hen, heq⟩ := h
  obtain rfl : s' = (s.handle now a).1 := congrArg Prod.fst heq
  obtain rfl : o = (s.handle now a).2 := congrArg Prod.snd heq
  clear heq
  have hrun : ∀ (s : Network ι) (n : ι) (ev : Event), (s.forwarder n).Enabled ev →
      ((s.atForwarder now n ev).1.forwarder node = s.forwarder node ∧
        ∀ ev', some (n, ev) ≠ some (node, ev')) ∨
      ∃ ev' fx, some (n, ev) = some (node, ev') ∧ (s.atForwarder now n ev).2 = .forwarder node fx ∧
        ∀ par, (ForwardingBase.events par).Step (s.forwarder node) (now, ev') fx
          ((s.atForwarder now n ev).1.forwarder node) := by
    intro s n ev hev
    by_cases hn : n = node
    · subst hn
      refine .inr ⟨ev, ((s.forwarder n).handleMessage now ev).2, rfl, rfl, fun par ↦ ⟨hev, ?_⟩⟩
      rw [atForwarder_forwarder, if_pos rfl]
    · refine .inl ⟨?_, ?_⟩
      · rw [atForwarder_forwarder, if_neg (Ne.symm hn)]
      · rintro ev' heq
        exact hn (congrArg Prod.fst (Option.some.inj heq))
  cases a with
  | express port draw =>
    refine .inl ⟨?_, by simp [Action.event]⟩
    simp only [handle]
    split <;> rfl
  | toForwarder port p delay => exact hrun _ _ _ trivial
  | toApp port p =>
    refine .inl ⟨?_, by simp [Action.event]⟩
    simp only [handle]
    split <;> rfl
  | link n face frame delay => exact hrun _ _ _ trivial
  | self n ev => exact hrun _ _ _ hen.2

/-- **A forwarder in a network is a forwarder**: its state is reachable by events of its own. -/
theorem forwarder_reachable {tr : List (Trans ι)} (h : (actions setup).Run tr s) (node : ι) :
    (ForwardingBase.events (setup.forwarder node)).Reachable (s.forwarder node) := by
  refine h.invariant (I := fun s ↦
    (ForwardingBase.events (setup.forwarder node)).Reachable (s.forwarder node)) ?_ ?_
  · rintro s rfl
    exact ⟨[], .nil rfl⟩
  · rintro s ⟨now, a⟩ o s' ⟨tr, hrun⟩ hstep
    rcases forwarder_of_step hstep node with ⟨heq, -⟩ | ⟨ev, fx, -, -, hfwd⟩
    · rw [heq]
      exact ⟨tr, hrun⟩
    · exact ⟨_, hrun.snoc (hfwd _)⟩

end Network

end Inet.Ndn
