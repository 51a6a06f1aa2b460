import Inet.Foundations.WeightedWalks
import Inet.LinkLayer.STPRoles

/-!
# A network of bridges

Bridges that send to each other over wires between their ports. A message that has been sent may
arrive at any time, more than once or never. Bridges start and stop, and tick by clocks of their
own.

A bridge never invents a root: what it knows is the id of some bridge of the network, with the costs
of the ports along a walk from it (`root_heard`). So the bridge with the best id is root as long as
it runs, whatever is lost or late.
-/

namespace Inet

open TransitionSystem WeightedWalks

namespace STP

variable {P : STPParameters} {s s' : STP} {i : ℕ}

/-! ### What a bridge says -/

/-- What a bridge knows about roots, and says about them, is justified. -/
structure Justified (P : STPParameters) (J : ℕ ×ₗ MACAddress → UInt32 → Prop) (linkCost : ℕ → UInt32)
    (s : STP) : Prop where
  port : ∀ i < P.numPorts, J (s.port i).rootId (s.port i).rootPathCost
  linkCost : ∀ i < P.numPorts, (s.port i).linkCost = linkCost i
  sent : ∀ x ∈ s.sent, x.1.bpduType = CONFIG_BDPU →
    J (bridgeId x.1.rootPriority x.1.rootAddress) x.1.rootPathCost

variable {J : ℕ ×ₗ MACAddress → UInt32 → Prop} {linkCost : ℕ → UInt32}

/-- What a bridge knows about its root is known at a port, or is the bridge itself. -/
theorem Elects.root_justified (h : s.Elects P)
    (hport : ∀ i < P.numPorts, J (s.port i).rootId (s.port i).rootPathCost)
    (hown : J (ownId P) 0) : J s.rootId s.rootPathCost := by
  rcases hroot : s.isRoot with - | -
  · have hfollows := h.rootPort hroot
    rw [hfollows.rootId_eq, hfollows.rootPathCost]
    exact hport _ hfollows.lt
  · obtain ⟨hpriority, haddress, hcost, -⟩ := h.root hroot
    rw [rootId, hpriority, haddress, hcost]
    exact hown

namespace Justified

theorem of_sameRoles (hj : s.Justified P J linkCost) (hroot : J s.rootId s.rootPathCost)
    (hsame : SameRoles (P := P) s s') : s'.Justified P J linkCost where
  port i hi := by
    obtain ⟨_, _, _, hport⟩ := hsame.port i
    rw [hport]
    exact hj.port i hi
  linkCost i hi := by
    obtain ⟨_, _, _, hport⟩ := hsame.port i
    rw [hport]
    exact hj.linkCost i hi
  sent x hx hconfig := by
    rcases hsame.sent x hx with hbefore | htold
    · exact hj.sent x hbefore hconfig
    · obtain ⟨hpriority, haddress, hcost⟩ := htold hconfig
      rw [hpriority, haddress, hcost]
      exact hroot

theorem of_relabels (hj : s.Justified P J linkCost) (hrelabels : Relabels s s')
    (hsent : s'.sent = s.sent) : s'.Justified P J linkCost where
  port i hi := by
    obtain ⟨_, hrole⟩ := hrelabels i
    rw [hrole]
    exact hj.port i hi
  linkCost i hi := by
    obtain ⟨_, hrole⟩ := hrelabels i
    rw [hrole]
    exact hj.linkCost i hi
  sent := hsent ▸ hj.sent

/-- One port is changed. -/
theorem setPort (hj : s.Justified P J linkCost) (j : ℕ) {f : PortInfo → PortInfo}
    (hport : j < P.numPorts → J (f (s.port j)).rootId (f (s.port j)).rootPathCost)
    (hcost : (f (s.port j)).linkCost = (s.port j).linkCost) :
    (s.setPort j f).Justified P J linkCost where
  port i hi := by
    show J (Function.update s.port j _ i).rootId (Function.update s.port j _ i).rootPathCost
    obtain rfl | hne := eq_or_ne i j
    · rw [Function.update_self]
      exact hport hi
    · rw [Function.update_of_ne hne]
      exact hj.port i hi
  linkCost i hi := by
    show (Function.update s.port j _ i).linkCost = _
    obtain rfl | hne := eq_or_ne i j
    · rw [Function.update_self, hcost]
      exact hj.linkCost i hi
    · rw [Function.update_of_ne hne]
      exact hj.linkCost i hi
  sent := hj.sent

theorem tryRoot (hj : s.Justified P J linkCost) : (s.tryRoot P).Justified P J linkCost := by
  refine hj.of_relabels (relabels_tryRoot s) ?_
  have hdesignated (s : STP) : (s.setAllDesignated P).sent = s.sent :=
    forPorts_induction (motive := fun s' ↦ s'.sent = s.sent) (fun s' i h ↦ by
      split_ifs
      exacts [h, h]) rfl
  rw [STP.tryRoot]
  split_ifs
  · exact hdesignated s
  · rw [selectDesignatedPorts_eq, selectRootPort, clearRoles_eq]
    rfl

theorem checkAge (hj : s.Justified P J linkCost) (hown : J (ownId P) 0) :
    (s.checkAge P i).Justified P J linkCost := by
  have hinit : (s.initInterfacedata P i).Justified P J linkCost :=
    hj.setPort i (fun _ ↦ hown) rfl
  rw [STP.checkAge]
  split_ifs
  · exact tryRoot (s := { s.initInterfacedata P i with topologyChangeNotification := true })
      ⟨hinit.port, hinit.linkCost, hinit.sent⟩
  · refine hinit.of_relabels (selectDesignatedPorts_info _) ?_
    rw [lostAlternate, selectDesignatedPorts_eq]
    rfl
  · exact hj

theorem handleTick (hj : s.Justified P J linkCost) (helects : s.Elects P) (hown : J (ownId P) 0) :
    (s.handleTick P).Justified P J linkCost := by
  have hcounted := hj.of_sameRoles (helects.root_justified hj.port hown) (sameRoles_counters s)
  obtain ⟨haged, hj'⟩ := forPorts_induction_lt (f := STP.checkAge P)
    (motive := fun s ↦ s.Elects P ∧ s.Justified P J linkCost)
    (fun _ i hi h ↦ ⟨h.1.checkAge hi, h.2.checkAge hown⟩)
    ⟨helects.of_sameRoles (sameRoles_counters s), hcounted⟩
  exact hj'.of_sameRoles (haged.root_justified hj'.port hown) haged.sameRoles_states

/-- **A message** may be stored, with the cost of the port. -/
theorem handleBPDU (hj : s.Justified P J linkCost) (helects : s.Elects P) (hown : J (ownId P) 0)
    {controlInfo : Ieee802Ctrl} {bpdu : BPDU} (hbpdu : controlInfo.switchPort < P.numPorts →
      J (bridgeId bpdu.rootPriority bpdu.rootAddress)
        (bpdu.rootPathCost + linkCost controlInfo.switchPort)) :
    (s.handleBPDU P controlInfo bpdu).Justified P J linkCost := by
  obtain ⟨p', s', hreceives, hsame, -, heq⟩ := handleBPDU_eq (P := P) s controlInfo bpdu
  have hreceived := hj.setPort controlInfo.switchPort (f := fun _ ↦ p') (fun hlt ↦ ?_)
    hreceives.linkCost
  · rw [heq]
    exact (hreceived.of_sameRoles (helects.root_justified hj.port hown) hsame).tryRoot
  · rcases hreceives.info with ⟨_, _, hinfo⟩ | hstores
    · rw [hinfo]
      exact hj.port _ hlt
    · rw [PortInfo.rootId, hstores.rootPriority, hstores.rootAddress, hstores.rootPathCost,
        hj.linkCost _ hlt]
      exact hbpdu hlt

end Justified

/-- Between two events the costs of the ports are as they have been, and what a running bridge knows
is justified. -/
structure Kept (P : STPParameters) (J : ℕ ×ₗ MACAddress → UInt32 → Prop) (linkCost : ℕ → UInt32)
    (s : STP) : Prop where
  linkCost : ∀ i < P.numPorts, (s.port i).linkCost = linkCost i
  elects : s.Running → s.Elects P
  port : s.Running → ∀ i < P.numPorts, J (s.port i).rootId (s.port i).rootPathCost

/-- **One event** of a bridge. What it sends is justified. -/
theorem Kept.step (h : s.Kept P J linkCost) (hown : J (ownId P) 0) {event : STPEvent}
    {output : Output} (hstep : (system P).Step s event output s')
    (hmessage : ∀ controlInfo bpdu, event = .message controlInfo bpdu → bpdu.bpduType = CONFIG_BDPU →
      J (bridgeId bpdu.rootPriority bpdu.rootAddress)
        (bpdu.rootPathCost + linkCost controlInfo.switchPort)) :
    s'.Kept P J linkCost ∧ ∀ x ∈ output.sent, x.1.bpduType = CONFIG_BDPU →
      J (bridgeId x.1.rootPriority x.1.rootAddress) x.1.rootPathCost := by
  have helects (hrunning : s'.Running) : s'.Elects P := elects_step h.elects hstep hrunning
  obtain ⟨hallowed, rfl, rfl⟩ := hstep
  have hallowed' : { s with sent := [], hellos := [] }.Allowed P event := by
    cases event <;> exact hallowed
  by_cases hactive : { s with sent := [], hellos := [] }.Active event
  · have hstarts := start_eq (P := P) { s with sent := [], hellos := [] }
    obtain ⟨_, heq, hstart, -, hport, hsent⟩ := hstarts
    have hj := handle_induction (P := P) (s := { s with sent := [], hellos := [] })
      (M := fun s ↦ s.Elects P ∧ s.Justified P J linkCost)
      (fun _ _ h hsame ↦ ⟨h.1.of_sameRoles hsame,
        h.2.of_sameRoles (h.1.root_justified h.2.port hown) hsame⟩)
      (fun h ↦ ⟨h.1.handleTick, h.2.handleTick h.1 hown⟩)
      (fun controlInfo bpdu hevent hconfig h ↦ ⟨(h.1.handleBPDU controlInfo bpdu).1,
        h.2.handleBPDU h.1 hown fun _ ↦ hmessage controlInfo bpdu hevent hconfig⟩)
      ?_ (fun hrunning ↦ ⟨(h.elects hrunning).of_sameRoles (.cleared s), h.port hrunning, h.linkCost,
        fun _ hx ↦ absurd hx List.not_mem_nil⟩) hactive
    · exact ⟨⟨hj.2.linkCost, helects, fun _ ↦ hj.2.port⟩, hj.2.sent⟩
    · rw [heq]
      refine ⟨hstart, fun i hi ↦ ?_, fun i hi ↦ ?_, ?_⟩
      · rw [hport i hi]
        exact hown
      · rw [hport i hi]
        exact h.linkCost i hi
      · rw [hsent]
        exact fun _ hx ↦ absurd hx List.not_mem_nil
  · obtain ⟨hport, hsent⟩ := handle_of_not_active hallowed' hactive
    refine ⟨⟨fun i hi ↦ ?_, helects, fun hrunning ↦ ?_⟩, fun x hx ↦ ?_⟩
    · rw [hport]
      exact h.linkCost i hi
    · exact absurd (active_of_running hallowed' hrunning) hactive
    · rw [hsent] at hx
      cases hx

end STP

/-! ### The network -/

/-- The bridges, and the messages that have been sent, with their senders. -/
structure STPNetwork (ρ : Type) where
  bridges : ρ → STP
  air : List (ρ × BPDU × Ieee802Ctrl) := []

namespace STPNetwork

section

variable {ρ : Type} [DecidableEq ρ] (P : ρ → STPParameters) (linkCost : ρ → ℕ → UInt32)
  (Wire : ρ → ℕ → ρ → ℕ → Prop)

/-- A message comes from a port to which the port is wired at which it arrives. -/
def Delivers (net : STPNetwork ρ) (m : ρ) : STPEvent → Prop
  | .message controlInfo bpdu => ∃ n sentInfo, (n, bpdu, sentInfo) ∈ net.air ∧
      Wire n sentInfo.switchPort m controlInfo.switchPort
  | _ => True

/-- The network as a machine: one bridge handles one event. The costs of the ports are arbitrary. -/
def system : TransitionSystem (STPNetwork ρ) (ρ × STPEvent) STP.Output where
  Init net := net.air = [] ∧ ∀ m, (STP.system (P m)).Init (net.bridges m) ∧
    ∀ i, ((net.bridges m).port i).linkCost = linkCost m i
  Step net event output net' := net.Delivers Wire event.1 event.2 ∧ ∃ s,
    (STP.system (P event.1)).Step (net.bridges event.1) event.2 output s ∧
      net' = { bridges := Function.update net.bridges event.1 s
               air := net.air ++ output.sent.map (Prod.mk event.1) }

/-- A hop to a bridge costs what the port costs at which it receives. -/
def Hop (n m : ρ) (cost : ℕ) : Prop :=
  ∃ i j, Wire n i m j ∧ cost = (linkCost m j).toNat

/-- A bridge knows itself, for nothing. -/
def Own (m : ρ) (id : ℕ ×ₗ MACAddress) (cost : ℕ) : Prop :=
  id = STP.ownId (P m) ∧ cost = 0

/-- A root is known with the costs of the ports along a walk from it, modulo `2 ^ 32`. -/
def HeardRoot (m : ρ) (id : ℕ ×ₗ MACAddress) (rootPathCost : UInt32) : Prop :=
  ∃ cost, Heard (Hop linkCost Wire) (Own P) m id cost ∧ rootPathCost = UInt32.ofNat cost

end

variable {ρ : Type} [DecidableEq ρ] {P : ρ → STPParameters} {linkCost : ρ → ℕ → UInt32}
  {Wire : ρ → ℕ → ρ → ℕ → Prop} {net net' : STPNetwork ρ}

omit [DecidableEq ρ] in
theorem heardRoot_own (m : ρ) : HeardRoot P linkCost Wire m (STP.ownId (P m)) 0 :=
  ⟨0, heard_of_own ⟨rfl, rfl⟩, rfl⟩

omit [DecidableEq ρ] in
/-- A root is heard of at the next bridge. -/
theorem HeardRoot.across {n m : ρ} {id : ℕ ×ₗ MACAddress} {rootPathCost : UInt32} {i j : ℕ}
    (h : HeardRoot P linkCost Wire n id rootPathCost) (hwire : Wire n i m j) :
    HeardRoot P linkCost Wire m id (rootPathCost + linkCost m j) := by
  obtain ⟨cost, hheard, rfl⟩ := h
  refine ⟨_, hheard.across ⟨i, j, hwire, rfl⟩, ?_⟩
  rw [UInt32.ofNat_add, UInt32.ofNat_toNat]

omit [DecidableEq ρ] in
/-- The root that is heard of is a bridge of the network. -/
theorem HeardRoot.exists_bridge {m : ρ} {id : ℕ ×ₗ MACAddress} {rootPathCost : UInt32}
    (h : HeardRoot P linkCost Wire m id rootPathCost) : ∃ n, id = STP.ownId (P n) := by
  obtain ⟨_, ⟨n, _, _, hown, -⟩, -⟩ := h
  exact ⟨n, hown.1⟩

/-- What the bridges know and what is in the air has been heard along hops. -/
structure Sound (P : ρ → STPParameters) (linkCost : ρ → ℕ → UInt32) (Wire : ρ → ℕ → ρ → ℕ → Prop)
    (net : STPNetwork ρ) : Prop where
  bridges : ∀ m, (net.bridges m).Kept (P m) (HeardRoot P linkCost Wire m) (linkCost m)
  air : ∀ x ∈ net.air, x.2.1.bpduType = CONFIG_BDPU → HeardRoot P linkCost Wire x.1
    (bridgeId x.2.1.rootPriority x.2.1.rootAddress) x.2.1.rootPathCost

theorem sound_init (h : (system P linkCost Wire).Init net) : net.Sound P linkCost Wire where
  bridges m := by
    obtain ⟨port, now, heq⟩ := (h.2 m).1
    have hnot : ¬(net.bridges m).Running := by
      rw [heq]
      simp [STP.Running]
    exact ⟨fun i _ ↦ (h.2 m).2 i, fun hrunning ↦ absurd hrunning hnot,
      fun hrunning ↦ absurd hrunning hnot⟩
  air := by
    rw [h.1]
    exact List.forall_mem_nil _

theorem sound_step (h : net.Sound P linkCost Wire) {event : ρ × STPEvent} {output : STP.Output}
    (hstep : (system P linkCost Wire).Step net event output net') : net'.Sound P linkCost Wire := by
  obtain ⟨m, event⟩ := event
  obtain ⟨hdelivers, s, hstep, rfl⟩ := hstep
  obtain ⟨hkept, hsent⟩ := (h.bridges m).step (heardRoot_own m) hstep fun controlInfo bpdu hevent
      hconfig ↦ by
    subst hevent
    obtain ⟨n, sentInfo, hair, hwire⟩ := hdelivers
    exact (h.air _ hair hconfig).across hwire
  refine ⟨fun m' ↦ ?_, List.forall_mem_append.2 ⟨h.air, List.forall_mem_map.2 hsent⟩⟩
  show (Function.update net.bridges m s m').Kept _ _ _
  obtain rfl | hne := eq_or_ne m' m
  · rw [Function.update_self]
    exact hkept
  · rw [Function.update_of_ne hne]
    exact h.bridges m'

/-- **No root is invented.** In every run of the network, whatever is lost, late or repeated, a
running bridge knows as its root, and at each port, the id of a bridge with the costs of the ports
along a walk from it, and says so in its messages; so it knows of no better root than the best
bridge, and the best bridge is root as long as it runs. -/
theorem root_heard {tr : List (Transition (STPNetwork ρ) (ρ × STPEvent) STP.Output)}
    (h : (system P linkCost Wire).Run tr net) :
    (∀ m, (net.bridges m).isOperational = true →
      HeardRoot P linkCost Wire m (net.bridges m).rootId (net.bridges m).rootPathCost ∧
      (∀ i < (P m).numPorts, HeardRoot P linkCost Wire m ((net.bridges m).port i).rootId
        ((net.bridges m).port i).rootPathCost) ∧
      ((∀ n, STP.ownId (P m) ≤ STP.ownId (P n)) → (net.bridges m).isRoot = true)) ∧
    ∀ x ∈ net.air, x.2.1.bpduType = CONFIG_BDPU → HeardRoot P linkCost Wire x.1
      (bridgeId x.2.1.rootPriority x.2.1.rootAddress) x.2.1.rootPathCost := by
  have hsound : net.Sound P linkCost Wire :=
    h.invariant (fun _ hinit ↦ sound_init hinit) fun _ _ _ _ hI hstep ↦ sound_step hI hstep
  refine ⟨fun m hop ↦ ?_, hsound.air⟩
  have helects := (hsound.bridges m).elects (.inr hop)
  have hport := (hsound.bridges m).port (.inr hop)
  refine ⟨?_, hport, fun hbest ↦ helects.isRoot.2 fun i hi ↦ ?_⟩
  · exact helects.root_justified hport (heardRoot_own m)
  · obtain ⟨n, hid⟩ := (hport i hi).exists_bridge
    rw [hid]
    exact hbest n

/-! Two bridges with one port each, and a wire between them. -/

/-- The one has the better address. -/
def twoBridges : Bool → STPParameters
  | false => STP.defaultParameters
  | true => { STP.defaultParameters with bridgeAddress := ⟨0x0AAA00000002⟩ }

/-- The network after an event. -/
def next (P : ρ → STPParameters) (net : STPNetwork ρ) (event : ρ × STPEvent) :
    STPNetwork ρ × STP.Output :=
  let x := STP.after (P event.1) (net.bridges event.1) event.2
  ({ bridges := Function.update net.bridges event.1 x.1
     air := net.air ++ x.2.sent.map (Prod.mk event.1) }, x.2)

theorem step_next (net : STPNetwork ρ) (event : ρ × STPEvent)
    (h : net.Delivers Wire event.1 event.2 ∧ (net.bridges event.1).Allowed (P event.1) event.2) :
    (system P linkCost Wire).Step net event (next P net event).2 (next P net event).1 :=
  ⟨h.1, _, STP.step_after _ _ h.2, rfl⟩

/-- The message with which the better bridge says hello at its first tick. -/
def hello : BPDU where
  tcFlag := true
  rootAddress := ⟨0x0AAA00000001⟩
  rootPriority := 32768
  bridgeAddress := ⟨0x0AAA00000001⟩
  bridgePriority := 32768
  maxAge := SimTime.ms 20000
  forwardDelay := SimTime.ms 15000

/-- Both start, the one says hello, and the other one hears it. -/
def firstHello : List (Bool × STPEvent) :=
  [(false, .start), (true, .start), (false, .advance STP.tickInterval), (false, .tick),
    (true, .message { switchPort := 0 } hello)]

theorem root_heard_firstHello :
    HeardRoot twoBridges (fun _ _ ↦ 1) (fun n _ m _ ↦ n ≠ m) true (STP.ownId (twoBridges false)) 1 := by
  generalize hnet : stateAfter (next twoBridges) { bridges := fun _ ↦ { port := fun _ ↦ {} } }
    firstHello = net
  have hrun : (system twoBridges (fun _ _ ↦ 1) fun n _ m _ ↦ n ≠ m).Run
      (transitionsOf (next twoBridges) { bridges := fun _ ↦ { port := fun _ ↦ {} } } firstHello)
      net := by
    subst hnet
    refine .ofInputs (fun net event h ↦ step_next net event h)
      ⟨rfl, fun m ↦ ⟨⟨_, 0, rfl⟩, fun i ↦ rfl⟩⟩ ?_
    simp only [firstHello, transitionsOf, List.forall_mem_cons]
    refine ⟨⟨trivial, rfl⟩, ⟨trivial, rfl⟩, ⟨trivial, Nat.zero_le _, fun u hu ↦ ?_⟩,
      ⟨trivial, rfl⟩, ⟨⟨false, ⟨⟨0⟩, .STP_MULTICAST_ADDRESS, 0⟩, ?_, Bool.false_ne_true⟩,
        Nat.one_pos⟩, List.forall_mem_nil _⟩
    · exact (Option.some.inj hu).le
    · decide +kernel
  have hroot : (net.bridges true).isOperational = true ∧
      (net.bridges true).rootId = STP.ownId (twoBridges false) ∧
      (net.bridges true).rootPathCost = 1 := by
    subst hnet
    decide +kernel
  have hheard := ((root_heard hrun).1 true hroot.1).1
  rwa [hroot.2.1, hroot.2.2] at hheard

end STPNetwork

end Inet
