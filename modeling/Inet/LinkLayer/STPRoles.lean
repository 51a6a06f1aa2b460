import Inet.LinkLayer.STPElection

/-!
# The roles of the ports

Apart from the elections, what happens in the module leaves the roles alone, and a message that it
sends says what it knows about the root (`SameRoles`). So the roles are those that the stored
vectors imply whenever an event is over (`elects_step`).

In a root bridge all ports are designated (`roles_of_run`), unless somebody offers the bridge itself
as a root that costs nothing: then the information about a port of a root bridge can grow old, and
what `lostAlternate` selects makes ports of the root bridge alternate.
-/

namespace Inet

namespace STP

open TransitionSystem

variable {P : STPParameters} {s s' : STP} {i j : ℕ}

/-! ### What leaves the roles alone -/

/-- A message says what the bridge knows about the root. -/
def SaysRoot (s : STP) (bpdu : BPDU) : Prop :=
  bpdu.rootPriority = s.rootPriority ∧ bpdu.rootAddress = s.rootAddress ∧
    bpdu.rootPathCost = s.rootPathCost

/-- Messages may have been sent, and the timers and the states of the ports changed. The information
about a designated port does not age. -/
structure SameRoles (s s' : STP) : Prop where
  isRoot : s'.isRoot = s.isRoot
  rootPort : s'.rootPort = s.rootPort
  desPorts : s'.desPorts = s.desPorts
  rootPriority : s'.rootPriority = s.rootPriority
  rootAddress : s'.rootAddress = s.rootAddress
  rootPathCost : s'.rootPathCost = s.rootPathCost
  parameters : s.isRoot = true →
    s.currentMaxAge = P.maxAge ∧ s.currentFwdDelay = P.forwardDelay →
    s'.currentMaxAge = P.maxAge ∧ s'.currentFwdDelay = P.forwardDelay
  bridgePriority : s'.currentBridgePriority = s.currentBridgePriority
  port : ∀ i, ∃ state age fdWhile,
    s'.port i = { s.port i with state := state, age := age, fdWhile := fdWhile }
  age : ∀ i, (s.port i).role = .designated → (s'.port i).age = (s.port i).age
  sent : ∀ x ∈ s'.sent, x ∈ s.sent ∨ (x.1.bpduType = CONFIG_BDPU → s.SaysRoot x.1)

namespace SameRoles

variable {s'' : STP}

theorem refl (s : STP) : SameRoles (P := P) s s :=
  ⟨rfl, rfl, rfl, rfl, rfl, rfl, fun _ h ↦ h, rfl, fun _ ↦ ⟨_, _, _, rfl⟩, fun _ _ ↦ rfl,
    fun _ hx ↦ .inl hx⟩

theorem trans (h : SameRoles (P := P) s s') (h' : SameRoles (P := P) s' s'') :
    SameRoles (P := P) s s'' where
  isRoot := h'.isRoot.trans h.isRoot
  rootPort := h'.rootPort.trans h.rootPort
  desPorts := h'.desPorts.trans h.desPorts
  rootPriority := h'.rootPriority.trans h.rootPriority
  rootAddress := h'.rootAddress.trans h.rootAddress
  rootPathCost := h'.rootPathCost.trans h.rootPathCost
  parameters hroot hage := h'.parameters (h.isRoot.trans hroot) (h.parameters hroot hage)
  bridgePriority := h'.bridgePriority.trans h.bridgePriority
  port i := by
    obtain ⟨state, age, fdWhile, hport⟩ := h.port i
    obtain ⟨state', age', fdWhile', hport'⟩ := h'.port i
    exact ⟨state', age', fdWhile', by rw [hport', hport]⟩
  age i hrole := by
    obtain ⟨_, _, _, hport⟩ := h.port i
    have hrole' : (s'.port i).role = .designated := by
      rw [hport]
      exact hrole
    exact (h'.age i hrole').trans (h.age i hrole)
  sent x hx := by
    rcases h'.sent x hx with hx | htold
    · exact h.sent x hx
    · refine .inr fun hconfig ↦ ?_
      obtain ⟨hpriority, haddress, hcost⟩ := htold hconfig
      exact ⟨hpriority.trans h.rootPriority, haddress.trans h.rootAddress,
        hcost.trans h.rootPathCost⟩

theorem setPort (s : STP) (i : ℕ) (f : PortInfo → PortInfo) (hf : ∃ state age fdWhile,
    f (s.port i) = { s.port i with state := state, age := age, fdWhile := fdWhile })
    (hage : (s.port i).role = .designated → (f (s.port i)).age = (s.port i).age) :
    SameRoles (P := P) s (s.setPort i f) := by
  refine ⟨rfl, rfl, rfl, rfl, rfl, rfl, fun _ h ↦ h, rfl, fun j ↦ ?_, fun j hrole ↦ ?_,
    fun _ hx ↦ .inl hx⟩
  · obtain rfl | hne := eq_or_ne j i
    · obtain ⟨state, age, fdWhile, heq⟩ := hf
      exact ⟨state, age, fdWhile, (Function.update_self _ _ _).trans heq⟩
    · exact ⟨_, _, _, Function.update_of_ne hne _ _⟩
  · obtain rfl | hne := eq_or_ne j i
    · exact (congrArg PortInfo.age (Function.update_self _ _ _)).trans (hage hrole)
    · exact congrArg PortInfo.age (Function.update_of_ne hne _ _)

theorem sendAll (s : STP) (msgs : List (BPDU × Ieee802Ctrl))
    (h : ∀ x ∈ msgs, x.1.bpduType = CONFIG_BDPU → s.SaysRoot x.1) :
    SameRoles (P := P) s (s.sendAll msgs) :=
  { refl s with sent := fun x hx ↦ (List.mem_append.1 hx).imp_right (h x) }

theorem generateBPDU (s : STP) (port : ℕ) (address : MACAddress) (tcFlag tcaFlag : Bool) :
    SameRoles (P := P) s (s.generateBPDU P port address tcFlag tcaFlag) := by
  refine sendAll s _ (List.forall_mem_singleton.2 fun _ ↦ ?_)
  dsimp only
  split_ifs
  all_goals exact ⟨rfl, rfl, rfl⟩

theorem foldl {α : Type} {f : STP → α → STP} (hf : ∀ s a, SameRoles (P := P) s (f s a)) (l : List α)
    (s : STP) : SameRoles (P := P) s (l.foldl f s) := by
  induction l generalizing s with
  | nil => exact refl s
  | cons a l ih => exact (hf s a).trans (ih _)

theorem countTick (s : STP) :
    SameRoles (P := P) s (forPorts P (fun s i ↦ s.setPort i STP.countTick) s) :=
  foldl (fun s i ↦ by
    refine setPort s i _ ?_ fun hrole ↦ ?_
    · by_cases hdisabled : (s.port i).role = .disabled
      · rw [STP.countTick, if_pos hdisabled]
        exact ⟨_, _, _, rfl⟩
      · rw [STP.countTick, if_neg hdisabled]
        exact ⟨_, _, _, rfl⟩
    · rw [STP.countTick, hrole]
      rfl) _ s

theorem checkHelloTimer (s : STP) : SameRoles (P := P) s (s.checkHelloTimer P) := by
  have hhello : SameRoles (P := P) s (forPorts P (fun s i ↦ s.generateConfigBPDU P i) s) :=
    foldl (fun s i ↦ generateBPDU s i _ _ _) _ s
  rw [STP.checkHelloTimer]
  split_ifs
  · exact { hhello with }
  · exact { refl _ with }
  · exact refl s

theorem checkFdWhile (s : STP) : SameRoles (P := P) s (forPorts P STP.checkFdWhile s) :=
  foldl (fun s i ↦ by
    rw [STP.checkFdWhile]
    split_ifs
    · split
      all_goals exact setPort s i _ ⟨_, _, _, rfl⟩ fun _ ↦ rfl
    · exact refl s
    · exact setPort s i _ ⟨_, _, _, rfl⟩ fun _ ↦ rfl) _ s

theorem generateTCN (s : STP) : SameRoles (P := P) s s.generateTCN := by
  have hnotified : SameRoles (P := P) s { s with topologyChangeNotification := false } :=
    { refl _ with }
  rw [STP.generateTCN]
  split_ifs
  · exact hnotified.trans (sendAll _ _ (List.forall_mem_singleton.2 fun h ↦
      absurd h (show TCN_BPDU ≠ CONFIG_BDPU by decide)))
  · exact refl s

/-! What depends on the stored information and the roles is the same -/

theorem vector (h : SameRoles (P := P) s s') (i : ℕ) : (s'.port i).vector = (s.port i).vector := by
  obtain ⟨_, _, _, hport⟩ := h.port i
  rw [hport]
  rfl

theorem rootId (h : SameRoles (P := P) s s') (i : ℕ) : (s'.port i).rootId = (s.port i).rootId :=
  congrArg (fun v ↦ (ofLex v).1) (h.vector i)

theorem role (h : SameRoles (P := P) s s') (i : ℕ) : (s'.port i).role = (s.port i).role := by
  obtain ⟨_, _, _, hport⟩ := h.port i
  rw [hport]

theorem portKey (h : SameRoles (P := P) s s') : s'.portKey = s.portKey := by
  funext i
  obtain ⟨_, _, _, hport⟩ := h.port i
  rw [STP.portKey, hport]
  rfl

theorem offeredRole (h : SameRoles (P := P) s s') (i : ℕ) (role : PortRole) :
    offeredRole P s' i role = offeredRole P s i role := by
  obtain ⟨_, _, _, hport⟩ := h.port i
  rw [STP.offeredRole, STP.offeredRole, offer, offer, hport, h.rootPriority, h.rootAddress,
    h.rootPathCost]
  rfl

end SameRoles

theorem FollowsRootPort.of_sameRoles (h : s.FollowsRootPort P) (hsame : SameRoles (P := P) s s') :
    s'.FollowsRootPort P := by
  obtain ⟨_, _, _, hport⟩ := hsame.port s.rootPort
  constructor
  · rw [hsame.rootPort, hsame.portKey]
    exact h.best
  · rw [hsame.rootPort, hsame.rootId]
    exact h.better
  · rw [hsame.rootPort, hport, hsame.rootPriority]
    exact h.rootPriority
  · rw [hsame.rootPort, hport, hsame.rootAddress]
    exact h.rootAddress
  · rw [hsame.rootPort, hport, hsame.rootPathCost]
    exact h.rootPathCost
  · rw [hsame.rootPort, hsame.role]
    exact h.root
  · intro i hi hne
    rw [hsame.role, hsame.offeredRole]
    exact h.roles i hi (hsame.rootPort ▸ hne)
  · rw [hsame.desPorts, h.desPorts]
    simp only [hsame.role]

theorem Elects.of_sameRoles (h : s.Elects P) (hsame : SameRoles (P := P) s s') : s'.Elects P := by
  refine ⟨hsame.bridgePriority.trans h.bridgePriority, ?_, fun hroot ↦ ?_, fun hroot i hi ↦ ?_,
    fun hroot ↦ (h.rootPort (hsame.isRoot ▸ hroot)).of_sameRoles hsame⟩
  · rw [hsame.isRoot, h.isRoot]
    simp only [hsame.rootId]
  · rw [hsame.isRoot] at hroot
    obtain ⟨hpriority, haddress, hcost, hage⟩ := h.root hroot
    exact ⟨hsame.rootPriority.trans hpriority, hsame.rootAddress.trans haddress,
      hsame.rootPathCost.trans hcost, hsame.parameters hroot hage⟩
  · rw [hsame.isRoot] at hroot
    rw [hsame.role]
    exact h.noRoot hroot i hi

theorem AllDesignated.of_sameRoles (h : s.AllDesignated P) (hsame : SameRoles (P := P) s s') :
    s'.AllDesignated P where
  role i hi := (hsame.role i).trans (h.role i hi)
  desPorts := hsame.desPorts.trans h.desPorts

/-! ### Steps -/

theorem initInterfacedata_ne_disabled (h : ∀ j < P.numPorts, (s.port j).role ≠ .disabled) :
    ∀ j < P.numPorts, ((s.initInterfacedata P i).port j).role ≠ .disabled := by
  intro j hj
  obtain rfl | hne := eq_or_ne j i
  · rw [(initInterfacedata_port_self s j).2]
    exact PortRole.noConfusion
  · rw [initInterfacedata_port_of_ne s hne]
    exact h j hj

/-- The age of the information about one port is checked. -/
theorem Elects.checkAge (h : s.Elects P) (hi : i < P.numPorts) : (s.checkAge P i).Elects P := by
  rw [STP.checkAge]
  split_ifs with hage hrole
  · exact (tryRoot_elects { s.initInterfacedata P i with topologyChangeNotification := true }
      h.bridgePriority (initInterfacedata_ne_disabled fun j ↦ h.ne_disabled)).1
  · exact lostAlternate_elects h hi hrole
  · exact h

theorem Elects.checkParametersChange (h : s.Elects P) :
    SameRoles (P := P) s (s.checkParametersChange P) := by
  have hcopied : SameRoles (P := P) s (if s.isRoot then s.copyParameters P else s) := by
    split_ifs
    · exact { SameRoles.refl (P := P) s with parameters := fun _ _ ↦ ⟨rfl, rfl⟩ }
    · exact .refl s
  rw [STP.checkParametersChange]
  have hpriority := hcopied.bridgePriority.trans h.bridgePriority
  rw [if_neg (not_not.2 hpriority)]
  exact hcopied

theorem forPorts_induction_lt {f : STP → ℕ → STP} {motive : STP → Prop}
    (hf : ∀ s, ∀ i < P.numPorts, motive s → motive (f s i)) (h : motive s) :
    motive (forPorts P f s) := by
  have hloop (l : List ℕ) (hl : ∀ i ∈ l, i < P.numPorts) (s : STP) (h : motive s) :
      motive (l.foldl f s) := by
    induction l generalizing s with
    | nil => exact h
    | cons i l ih =>
      rw [List.forall_mem_cons] at hl
      exact ih hl.2 _ (hf s i hl.1 h)
  exact hloop _ (fun _ hi ↦ List.mem_range.1 hi) s h

/-- The counters are advanced at a tick, and the hello timer is checked. -/
theorem sameRoles_counters (s : STP) : SameRoles (P := P) s
    ((forPorts P (fun s i ↦ s.setPort i STP.countTick)
      (if s.isRoot then { s with helloTime := s.helloTime + tickInterval }
        else { s with helloTime := 0 })).checkHelloTimer P) := by
  have hhello : SameRoles (P := P) s (if s.isRoot then { s with helloTime := s.helloTime + tickInterval }
      else { s with helloTime := 0 }) := by
    split_ifs
    all_goals exact { SameRoles.refl _ with }
  exact hhello.trans ((SameRoles.countTick _).trans (.checkHelloTimer _))

/-- At the end of a tick the states of the ports are changed, and the topology change is
notified. -/
theorem Elects.sameRoles_states (h : s.Elects P) : SameRoles (P := P) s
    (((forPorts P STP.checkFdWhile s).checkParametersChange P).generateTCN) := by
  have htimed := SameRoles.checkFdWhile (P := P) s
  exact (htimed.trans (h.of_sameRoles htimed).checkParametersChange).trans (.generateTCN _)

theorem Elects.handleTick (h : s.Elects P) : (s.handleTick P).Elects P := by
  have haged := forPorts_induction_lt (f := STP.checkAge P) (motive := Elects P)
    (fun _ i hi h ↦ h.checkAge hi) (h.of_sameRoles (sameRoles_counters s))
  exact haged.of_sameRoles haged.sameRoles_states

/-- What is known about the root when a message has been compared, and the message passed on. -/
theorem sameRoles_answerBPDU (s : STP) (arrivalGate : ℕ) (bpdu : BPDU) (superior : Bool) :
    SameRoles (P := P) s (s.answerBPDU P arrivalGate bpdu superior) := by
  have haging (s : STP) (agingTime : Option SimTime) :
      SameRoles (P := P) s { s with agingTime := agingTime } :=
    { SameRoles.refl _ with }
  rw [answerBPDU]
  split_ifs
  · exact .generateBPDU s _ _ _ _
  · exact .refl s
  · exact (haging s _).trans (.foldl (fun s elem ↦ .generateBPDU s elem _ _ _) _ _)
  · exact (haging s _).trans (.foldl (fun s elem ↦ .generateBPDU s elem _ _ _) _ _)
  · exact .refl s

theorem answerBPDU_port (s : STP) (arrivalGate : ℕ) (bpdu : BPDU) (superior : Bool) :
    (s.answerBPDU P arrivalGate bpdu superior).port = s.port := by
  have hloop {f : STP → ℕ → STP} (hf : ∀ s i, (f s i).port = s.port) (l : List ℕ) (s : STP) :
      (l.foldl f s).port = s.port := by
    induction l generalizing s with
    | nil => rfl
    | cons i l ih => exact (ih _).trans (hf s i)
  rw [answerBPDU]
  split_ifs
  · rfl
  · rfl
  · exact hloop (f := fun s elem ↦ s.generateBPDU P elem .STP_MULTICAST_ADDRESS true false)
      (fun _ _ ↦ rfl) _ _
  · exact hloop (f := fun s elem ↦ s.generateConfigBPDU P elem) (fun _ _ ↦ rfl) _ _
  · rfl

/-- What a message says about the network of a port. -/
structure Stores (bpdu : BPDU) (p p' : PortInfo) : Prop where
  vector_le : p'.vector ≤ p.vector
  rootPriority : p'.rootPriority = bpdu.rootPriority
  rootAddress : p'.rootAddress = bpdu.rootAddress
  rootPathCost : p'.rootPathCost = bpdu.rootPathCost + p.linkCost

/-- What happens to a port when a message is compared with what is stored about it. -/
structure Receives (bpdu : BPDU) (p p' : PortInfo) : Prop where
  role : p'.role = p.role
  linkCost : p'.linkCost = p.linkCost
  state : p'.state = .discarding ∨ p'.state = p.state ∧ p'.fdWhile = p.fdWhile
  info : (∃ state fdWhile, p' = { p with state := state, fdWhile := fdWhile }) ∨ Stores bpdu p p'

/-- **A message** is stored if it is not worse than what is stored, and not out of date. -/
theorem isSuperiorBPDU_snd (s : STP) (portNum : ℕ) (bpdu : BPDU) :
    ∃ p', (s.isSuperiorBPDU portNum bpdu).2 = s.setPort portNum (fun _ ↦ p') ∧
      Receives bpdu (s.port portNum) p' := by
  have hkeep : s = s.setPort portNum fun _ ↦ s.port portNum := by
    rw [setPort, Function.update_eq_self]
  have hset₂ (f g : PortInfo → PortInfo) : (s.setPort portNum f).setPort portNum g =
      s.setPort portNum fun _ ↦ g (f (s.port portNum)) := by
    rw [setPort, setPort, setPort]
    dsimp only
    rw [Function.update_self, Function.update_idem]
  have hcompares := compares_ports (s.port portNum)
    { rootPriority := bpdu.rootPriority, rootAddress := bpdu.rootAddress
      rootPathCost := bpdu.rootPathCost + (s.port portNum).linkCost
      bridgePriority := bpdu.bridgePriority, bridgeAddress := bpdu.bridgeAddress
      portPriority := bpdu.portPriority, portNum := bpdu.portNum }
  rw [isSuperiorBPDU]
  split_ifs with hpos hneg
  · exact ⟨s.port portNum, hkeep, rfl, rfl, .inr ⟨rfl, rfl⟩, .inl ⟨_, _, rfl⟩⟩
  all_goals
    have hle := hcompares.le_iff.1 (not_lt.1 hpos)
    rw [setSuperiorBPDU]
    split_ifs
  · exact ⟨_, rfl, rfl, rfl, .inl rfl, .inl ⟨_, _, rfl⟩⟩
  · rw [hset₂]
    exact ⟨_, rfl, rfl, rfl, .inl rfl, .inr ⟨hle, rfl, rfl, rfl⟩⟩
  · exact ⟨s.port portNum, hkeep, rfl, rfl, .inr ⟨rfl, rfl⟩, .inl ⟨_, _, rfl⟩⟩
  · exact ⟨_, rfl, rfl, rfl, .inr ⟨rfl, rfl⟩, .inr ⟨hle, rfl, rfl, rfl⟩⟩

/-- Before `tryRoot` a message has changed what is stored about its port, at most. -/
theorem handleBPDU_eq (s : STP) (controlInfo : Ieee802Ctrl) (bpdu : BPDU) : ∃ p' s',
    Receives bpdu (s.port controlInfo.switchPort) p' ∧
      SameRoles (P := P) (s.setPort controlInfo.switchPort fun _ ↦ p') s' ∧
      s'.port = (s.setPort controlInfo.switchPort fun _ ↦ p').port ∧
      s.handleBPDU P controlInfo bpdu = s'.tryRoot P := by
  have hchecked : ∃ topologyChangeRecvd topologyChangeNotification, s.checkTca bpdu =
      { s with topologyChangeRecvd := topologyChangeRecvd
               topologyChangeNotification := topologyChangeNotification } := by
    rw [checkTca]
    split_ifs
    exacts [⟨_, _, rfl⟩, ⟨_, _, rfl⟩]
  obtain ⟨_, _, hchecked⟩ := hchecked
  obtain ⟨p', heq, hreceives⟩ :=
    isSuperiorBPDU_snd (s.checkTca bpdu) controlInfo.switchPort bpdu
  rw [hchecked] at hreceives
  refine ⟨p', _, hreceives, SameRoles.trans ?_ (sameRoles_answerBPDU _ _ _ _), ?_, rfl⟩
  rotate_left
  · rw [answerBPDU_port, heq, hchecked]
    rfl
  rw [heq, hchecked]
  exact { SameRoles.refl _ with }

theorem Elects.handleBPDU (h : s.Elects P) (controlInfo : Ieee802Ctrl) (bpdu : BPDU) :
    (s.handleBPDU P controlInfo bpdu).Elects P ∧
      ((s.handleBPDU P controlInfo bpdu).isRoot = true →
        (s.handleBPDU P controlInfo bpdu).AllDesignated P) := by
  obtain ⟨p', s', hreceives, hsame, -, heq⟩ := handleBPDU_eq (P := P) s controlInfo bpdu
  rw [heq]
  refine tryRoot_elects s' (hsame.bridgePriority.trans h.bridgePriority) fun i hi ↦ ?_
  rw [hsame.role]
  show (Function.update s.port controlInfo.switchPort p' i).role ≠ .disabled
  obtain rfl | hne := eq_or_ne i controlInfo.switchPort
  · rw [Function.update_self, hreceives.role]
    exact h.ne_disabled hi
  · rw [Function.update_of_ne hne]
    exact h.ne_disabled hi

theorem sameRoles_handleTCN (s : STP) (controlInfo : Ieee802Ctrl) {tcn : BPDU}
    (htcn : tcn.bpduType ≠ CONFIG_BDPU) :
    SameRoles (P := P) s (s.handleTCN P controlInfo tcn) := by
  have hnotified : SameRoles (P := P) s { s with topologyChangeNotification := true } :=
    { SameRoles.refl _ with }
  have hanswered := hnotified.trans (.generateBPDU _ controlInfo.switchPort controlInfo.src false true)
  rw [handleTCN]
  split_ifs
  · exact hanswered
  · exact hanswered.trans (.sendAll _ _ (List.forall_mem_singleton.2 fun h ↦ absurd h htcn))

/-- A port about which nothing is known. -/
def freshPort (P : STPParameters) (p : PortInfo) : PortInfo :=
  { p with
    role := .notassigned, state := .discarding, rootPriority := P.bridgePriority
    rootAddress := P.bridgeAddress, rootPathCost := 0, age := 0
    bridgePriority := P.bridgePriority, bridgeAddress := P.bridgeAddress
    portPriority := -1, portNum := -1, lostBPDU := 0 }

/-- **A bridge starts** as root, and knows nothing. -/
theorem start_eq (s : STP) : ∃ s', s.start P = s' ∧ s'.Elects P ∧ s'.AllDesignated P ∧
    (∀ i < P.numPorts, s'.port i = (freshPort P (s.port i)).setRole .designated) ∧
    s'.sent = s.sent := by
  have htable : { s with isOperational := true }.initPortTable P =
      { s with isOperational := true }.setPorts
        (fun i ↦ if i < P.numPorts then freshPort P (s.port i) else s.port i) s.desPorts := by
    refine (forPorts_eq (s := { s with isOperational := true }) (fun i ↦ freshPort P (s.port i))
      (fun _ ↦ false) s.desPorts ?_).trans ?_
    · intro ports des i _ hport
      rw [initInterfacedata, setPort_setPorts, hport, if_neg Bool.false_ne_true, List.append_nil]
      rfl
    · rw [List.filter_false, List.append_nil]
  have hport {i : ℕ} (hi : i < P.numPorts) (q : PortInfo) :
      (if i < P.numPorts then (if i < P.numPorts then freshPort P (s.port i)
        else s.port i).setRole .designated else q) = (freshPort P (s.port i)).setRole .designated := by
    rw [if_pos hi, if_pos hi]
  rw [start, htable]
  dsimp only
  rw [setAllDesignated_eq]
  · refine ⟨_, rfl, ⟨rfl, iff_of_true rfl fun i hi ↦ ?_, fun _ ↦ ⟨rfl, rfl, rfl, rfl, rfl⟩,
      fun _ i hi ↦ ?_, fun h ↦ absurd h.symm Bool.false_ne_true⟩, ⟨fun i hi ↦ ?_, rfl⟩,
      fun i hi ↦ hport hi _, rfl⟩
    · exact (congrArg PortInfo.rootId (hport hi _)).ge
    · refine ⟨fun h ↦ ?_, fun h ↦ ?_⟩
      all_goals cases (congrArg PortInfo.role (hport hi _)).symm.trans h
    · exact congrArg PortInfo.role (hport hi _)
  · intro i hi h
    exact PortRole.noConfusion ((congrArg PortInfo.role (if_pos hi).symm).trans h)

/-! ### What can be known about the bridge itself -/

/-- What is known about a port is not worse than what the bridge says by itself. If it is that the
bridge is root, then it is not older than the port. -/
structure KnownPort (P : STPParameters) (p : PortInfo) : Prop where
  vector_le : p.vector ≤ (freshPort P p).vector
  age : p.rootId = ownId P → p.age = 0

theorem KnownPort.congr {p p' : PortInfo} (h : KnownPort P p) (hvector : p'.vector = p.vector)
    (hage : p'.age = p.age) : KnownPort P p' where
  vector_le := hvector.le.trans h.vector_le
  age hroot := hage.trans (h.age ((congrArg (fun v ↦ (ofLex v).1) hvector).symm.trans hroot))

theorem KnownPort.rootId_le {p : PortInfo} (h : KnownPort P p) : p.rootId ≤ ownId P :=
  Prod.Lex.monotone_fst _ _ h.vector_le

theorem knownPort_fresh (p : PortInfo) : KnownPort P (freshPort P p) :=
  ⟨le_rfl, fun _ ↦ rfl⟩

/-- The roles are settled, also those of a root bridge. -/
structure Settled (P : STPParameters) (s : STP) : Prop where
  elects : s.Elects P
  allDesignated : s.isRoot = true → s.AllDesignated P
  known : ∀ i < P.numPorts, KnownPort P (s.port i)

/-- A port that knows no better root than the bridge is designated. -/
theorem Settled.designated (h : s.Settled P) (hi : i < P.numPorts)
    (hroot : (s.port i).rootId = ownId P) : (s.port i).role = .designated := by
  rcases hisRoot : s.isRoot with - | -
  · have hfollows := h.elects.rootPort hisRoot
    have hlt : s.rootId < (s.port i).rootId := by
      rw [hfollows.rootId_eq, hroot]
      exact hfollows.better
    have hne : i ≠ s.rootPort := by
      rintro rfl
      exact hlt.ne hfollows.rootId_eq
    rw [hfollows.roles i hi hne]
    exact offeredRole_eq_designated_iff.2 (offer_lt_of_rootId_lt hlt)
  · exact (h.allDesignated hisRoot).role i hi

theorem KnownPort.of_sameRoles (h : KnownPort P (s.port i)) (hsame : SameRoles (P := P) s s')
    (hdesignated : (s.port i).rootId = ownId P → (s.port i).role = .designated) :
    KnownPort P (s'.port i) := by
  refine ⟨(hsame.vector i).le.trans h.vector_le, fun hroot ↦ ?_⟩
  have hown : (s.port i).rootId = ownId P := (hsame.rootId i).symm.trans hroot
  rw [hsame.age i (hdesignated hown)]
  exact h.age hown

theorem Settled.of_sameRoles (h : s.Settled P) (hsame : SameRoles (P := P) s s') : s'.Settled P where
  elects := h.elects.of_sameRoles hsame
  allDesignated hroot := (h.allDesignated (hsame.isRoot ▸ hroot)).of_sameRoles hsame
  known i hi := (h.known i hi).of_sameRoles hsame (h.designated hi)

/-- Apart from the roles the ports stay as they are in an election. -/
def Relabels (s s' : STP) : Prop :=
  ∀ i, ∃ role, s'.port i = (s.port i).setRole role

theorem Relabels.trans {s'' : STP} (h : Relabels s s') (h' : Relabels s' s'') : Relabels s s'' := by
  intro i
  obtain ⟨role, hrole⟩ := h i
  obtain ⟨role', hrole'⟩ := h' i
  exact ⟨role', by rw [hrole', hrole]; rfl⟩

theorem relabels_setRole (s : STP) (j : ℕ) (role : PortRole) :
    Relabels s (s.setPort j (PortInfo.setRole role)) := by
  intro i
  obtain rfl | hne := eq_or_ne i j
  · exact ⟨role, Function.update_self _ _ _⟩
  · exact ⟨(s.port i).role, Function.update_of_ne hne _ _⟩

theorem relabels_forPorts {f : STP → ℕ → STP} (hf : ∀ s i, Relabels s (f s i)) (s : STP) :
    Relabels s (forPorts P f s) :=
  forPorts_induction (fun s' i h ↦ Relabels.trans h (hf s' i)) fun i ↦ ⟨(s.port i).role, rfl⟩

theorem relabels_tryRoot (s : STP) : Relabels s (s.tryRoot P) := by
  rw [tryRoot]
  split_ifs
  · refine relabels_forPorts (fun s i ↦ ?_) { s with desPorts := [] }
    split_ifs
    · exact fun j ↦ ⟨(s.port j).role, rfl⟩
    · exact relabels_setRole s i .designated
  · have hcleared : Relabels s ({ s with isRoot := false }.clearRoles P) :=
      relabels_forPorts (fun s i ↦ relabels_setRole s i .notassigned) _
    exact (hcleared.trans (relabels_setRole _ _ .root)).trans (selectDesignatedPorts_info _)

theorem Relabels.known (h : Relabels s s') (hknown : ∀ i < P.numPorts, KnownPort P (s.port i)) :
    ∀ i < P.numPorts, KnownPort P (s'.port i) := by
  intro i hi
  obtain ⟨role, hrole⟩ := h i
  rw [hrole]
  exact (hknown i hi).congr rfl rfl

/-- **No information grows old in a root bridge**, as the bridge itself is all that it knows. -/
theorem Settled.checkAge (hmaxAge : 0 < P.maxAge) (h : s.Settled P) (hi : i < P.numPorts) :
    (s.checkAge P i).Settled P := by
  have helects := h.elects.checkAge hi
  have hinit : ∀ j < P.numPorts, KnownPort P ((s.initInterfacedata P i).port j) := by
    intro j hj
    show KnownPort P (Function.update s.port i _ j)
    obtain rfl | hne := eq_or_ne j i
    · rw [Function.update_self]
      exact knownPort_fresh (s.port j)
    · rw [Function.update_of_ne hne]
      exact h.known j hj
  have hfollows (hage : s.currentMaxAge ≤ (s.port i).age) : s.isRoot = false := by
    refine Bool.eq_false_iff.2 fun hroot ↦ ?_
    -- the information is about a better root, as it has an age
    have hne : (s.port i).rootId ≠ ownId P := fun heq ↦ by
      rw [(h.known i hi).age heq, (h.elects.root hroot).2.2.2.1] at hage
      exact absurd hmaxAge (not_lt.2 hage)
    exact absurd ((h.known i hi).rootId_le.lt_of_ne hne) (not_lt.2 (h.elects.isRoot.1 hroot i hi))
  rw [STP.checkAge] at helects ⊢
  split_ifs with hage hrole
  · rw [if_pos hage, if_pos hrole] at helects
    refine ⟨helects, ?_, (relabels_tryRoot _).known hinit⟩
    refine (tryRoot_elects { s.initInterfacedata P i with topologyChangeNotification := true }
      h.elects.bridgePriority (initInterfacedata_ne_disabled fun j ↦ h.elects.ne_disabled)).2
  · rw [if_pos hage, if_neg hrole] at helects
    refine ⟨helects, fun hroot ↦ ?_, Relabels.known (selectDesignatedPorts_info _) hinit⟩
    rw [lostAlternate, selectDesignatedPorts_eq] at hroot
    exact absurd hroot (Bool.eq_false_iff.1 (hfollows hage))
  · exact h

theorem Settled.handleTick (hmaxAge : 0 < P.maxAge) (h : s.Settled P) :
    (s.handleTick P).Settled P := by
  have haged := forPorts_induction_lt (f := STP.checkAge P) (motive := Settled P)
    (fun _ i hi h ↦ h.checkAge hmaxAge hi) (h.of_sameRoles (sameRoles_counters s))
  exact haged.of_sameRoles haged.elects.sameRoles_states

/-- A message that is stored does not say that the bridge is root, if it costs something to reach
it.
-/
theorem Stores.knownPort {bpdu : BPDU} {p p' : PortInfo} (h : Stores bpdu p p') (hp : KnownPort P p)
    (hcredible : bridgeId bpdu.rootPriority bpdu.rootAddress = ownId P →
      bpdu.rootPathCost + p.linkCost ≠ 0) : KnownPort P p' ∧ p'.rootId ≠ ownId P := by
  have hle : p'.vector ≤ (freshPort P p').vector := h.vector_le.trans hp.vector_le
  have hne : p'.rootId ≠ ownId P := by
    intro hroot
    have hcost : p'.rootPathCost ≠ 0 := by
      rw [h.rootPathCost]
      refine hcredible ?_
      rw [← h.rootPriority, ← h.rootAddress]
      exact hroot
    -- nothing is cheaper than the bridge itself
    have hlt : (freshPort P p').vector < p'.vector := by
      refine Prod.Lex.toLex_lt_toLex.2 (.inr ⟨hroot.symm, Prod.Lex.toLex_lt_toLex.2 (.inl ?_)⟩)
      exact Nat.pos_of_ne_zero fun hzero ↦ hcost (UInt32.toNat_inj.1 hzero)
    exact absurd hle (not_le.2 hlt)
  exact ⟨⟨hle, fun hroot ↦ absurd hroot hne⟩, hne⟩

theorem Settled.handleBPDU (h : s.Settled P) (controlInfo : Ieee802Ctrl) (bpdu : BPDU)
    (hcredible : bridgeId bpdu.rootPriority bpdu.rootAddress = ownId P →
      bpdu.rootPathCost + (s.port controlInfo.switchPort).linkCost ≠ 0) :
    (s.handleBPDU P controlInfo bpdu).Settled P := by
  obtain ⟨helects, hall⟩ := h.elects.handleBPDU controlInfo bpdu
  obtain ⟨p', s', hreceives, hsame, -, heq⟩ := handleBPDU_eq (P := P) s controlInfo bpdu
  refine ⟨helects, hall, ?_⟩
  rw [heq]
  refine (relabels_tryRoot s').known fun i hi ↦ ?_
  have hport : KnownPort P ((s.setPort controlInfo.switchPort fun _ ↦ p').port i) ∧
      (((s.setPort controlInfo.switchPort fun _ ↦ p').port i).rootId = ownId P →
        ((s.setPort controlInfo.switchPort fun _ ↦ p').port i).role = .designated) := by
    show KnownPort P (Function.update s.port controlInfo.switchPort p' i) ∧
      ((Function.update s.port controlInfo.switchPort p' i).rootId = ownId P →
        (Function.update s.port controlInfo.switchPort p' i).role = .designated)
    obtain rfl | hne := eq_or_ne i controlInfo.switchPort
    · rw [Function.update_self]
      rcases hreceives.info with ⟨_, _, hinfo⟩ | hstores
      · rw [hinfo]
        exact ⟨(h.known _ hi).congr rfl rfl, h.designated hi⟩
      · obtain ⟨hknown, hroot⟩ := hstores.knownPort (h.known _ hi) hcredible
        exact ⟨hknown, fun hown ↦ absurd hown hroot⟩
    · rw [Function.update_of_ne hne]
      exact ⟨h.known i hi, h.designated hi⟩
  exact hport.1.of_sameRoles hsame hport.2

/-! ### Runs -/

/-- A configuration message does not offer the bridge itself as a root that costs nothing. -/
def Credible (P : STPParameters) (s : STP) : STPEvent → Prop
  | .message controlInfo bpdu => bpdu.bpduType = CONFIG_BDPU →
      bridgeId bpdu.rootPriority bpdu.rootAddress = ownId P →
        bpdu.rootPathCost + (s.port controlInfo.switchPort).linkCost ≠ 0
  | _ => True

/-- The module is running. -/
def Running (s : STP) : Prop :=
  s.tick.isSome = true ∨ s.isOperational = true

/-- The module runs, or starts, and does not stop. -/
def Active (s : STP) (event : STPEvent) : Prop :=
  (s.Running ∨ event = .start) ∧ event ≠ .stop

theorem active_of_running {event : STPEvent} (hallowed : s.Allowed P event)
    (h : (s.handle P event).Running) : s.Active event := by
  rcases event with t | - | ⟨controlInfo, bpdu⟩ | - | -
  · exact ⟨.inl h, STPEvent.noConfusion⟩
  · have hticks : s.tick = some s.now := hallowed
    exact ⟨.inl (.inl (by rw [hticks]; rfl)), STPEvent.noConfusion⟩
  · refine ⟨.inl ?_, STPEvent.noConfusion⟩
    rw [STP.handle] at h
    split_ifs at h with hop
    · exact h
    all_goals exact .inr (by simpa using hop)
  · exact ⟨.inr rfl, STPEvent.noConfusion⟩
  · exact absurd h (by simp [Running, STP.handle, stop])

/-- A module that does not run ignores what happens. -/
theorem handle_of_not_active {event : STPEvent} (hallowed : s.Allowed P event)
    (h : ¬s.Active event) :
    (s.handle P event).port = s.port ∧ (s.handle P event).sent = s.sent := by
  rcases event with t | - | ⟨controlInfo, bpdu⟩ | - | -
  · exact ⟨rfl, rfl⟩
  · have hticks : s.tick = some s.now := hallowed
    exact absurd ⟨.inl (.inl (by rw [hticks]; rfl)), STPEvent.noConfusion⟩ h
  · rw [STP.handle]
    split_ifs with hop
    · exact ⟨rfl, rfl⟩
    all_goals exact absurd ⟨.inl (.inr (by simpa using hop)), STPEvent.noConfusion⟩ h
  · exact absurd ⟨.inr rfl, STPEvent.noConfusion⟩ h
  · exact ⟨rfl, rfl⟩

/-- What holds of a running module is kept by every event, if it is by those that change the
roles. -/
theorem handle_induction {M : STP → Prop} {event : STPEvent}
    (hsame : ∀ s s', M s → SameRoles (P := P) s s' → M s') (htick : M s → M (s.handleTick P))
    (hmessage : ∀ controlInfo bpdu, event = .message controlInfo bpdu → bpdu.bpduType = CONFIG_BDPU →
      M s → M (s.handleBPDU P controlInfo bpdu))
    (hstart : M (s.start P)) (h : s.Running → M s) (hactive : s.Active event) :
    M (s.handle P event) := by
  rcases event with t | - | ⟨controlInfo, bpdu⟩ | - | -
  · exact hsame s _ (h (hactive.1.resolve_right STPEvent.noConfusion)) { SameRoles.refl _ with }
  · exact hsame _ _ (htick (h (hactive.1.resolve_right STPEvent.noConfusion))) { SameRoles.refl _ with }
  · have hs := h (hactive.1.resolve_right STPEvent.noConfusion)
    rw [STP.handle]
    split_ifs with hop hconfig htcn
    · exact hs
    · exact hmessage controlInfo bpdu rfl hconfig hs
    · exact hsame _ _ hs (sameRoles_handleTCN s controlInfo hconfig)
    · exact hs
  · exact hstart
  · exact absurd rfl hactive.2

theorem SameRoles.cleared (s : STP) : SameRoles (P := P) s { s with sent := [], hellos := [] } :=
  ⟨rfl, rfl, rfl, rfl, rfl, rfl, fun _ h ↦ h, rfl, fun _ ↦ ⟨_, _, _, rfl⟩, fun _ _ ↦ rfl,
    fun _ hx ↦ absurd hx List.not_mem_nil⟩

/-- **One step** keeps the election of a running bridge, whatever has been received. -/
theorem elects_step {event : STPEvent} {output : Output} (h : s.Running → s.Elects P)
    (hstep : (system P).Step s event output s') (hrunning : s'.Running) : s'.Elects P := by
  obtain ⟨hallowed, rfl, -⟩ := hstep
  obtain ⟨_, heq, hstart, -, -, -⟩ := start_eq (P := P) { s with sent := [], hellos := [] }
  exact handle_induction (M := Elects P) (fun _ _ h hsame ↦ h.of_sameRoles hsame) Elects.handleTick
    (fun controlInfo bpdu _ _ h ↦ (h.handleBPDU controlInfo bpdu).1) (heq ▸ hstart)
    (fun hrunning ↦ (h hrunning).of_sameRoles (.cleared s))
    (active_of_running (by cases event <;> exact hallowed) hrunning)

/-- **One step** keeps the roles of a running bridge. -/
theorem settled_step (hmaxAge : 0 < P.maxAge) {event : STPEvent} {output : Output}
    (h : s.Running → s.Settled P) (hstep : (system P).Step s event output s')
    (hcredible : s.Credible P event) (hrunning : s'.Running) : s'.Settled P := by
  obtain ⟨hallowed, rfl, -⟩ := hstep
  obtain ⟨_, heq, helects, hall, hport, -⟩ := start_eq (P := P) { s with sent := [], hellos := [] }
  refine handle_induction (M := Settled P) (fun _ _ h hsame ↦ h.of_sameRoles hsame)
    (Settled.handleTick hmaxAge) (fun controlInfo bpdu hevent hconfig h ↦ ?_) ?_
    (fun hrunning ↦ (h hrunning).of_sameRoles (.cleared s))
    (active_of_running (by cases event <;> exact hallowed) hrunning)
  · subst hevent
    exact h.handleBPDU controlInfo bpdu (hcredible hconfig)
  · rw [heq]
    refine ⟨helects, fun _ ↦ hall, fun i hi ↦ ?_⟩
    rw [hport i hi]
    exact (knownPort_fresh (s.port i)).congr rfl rfl

/-- **The roles are those that the stored vectors imply**, in every run of messages that do not
offer the bridge itself for nothing: a bridge is root exactly if no port knows a better root, and
then all its ports are designated. Otherwise the first of the best ports is the root port, from
which the bridge has its root and its cost, and each other port is designated or alternate as the
bridge or the port has the better offer. -/
theorem roles_of_run (hmaxAge : 0 < P.maxAge) {tr : List (Transition STP STPEvent Output)}
    (h : (system P).Run tr s) (hcredible : ∀ t ∈ tr, t.pre.Credible P t.input)
    (hop : s.isOperational = true) :
    (s.isRoot = true ↔ ∀ i < P.numPorts, ownId P ≤ (s.port i).rootId) ∧
      (s.isRoot = true → s.AllDesignated P) ∧ (s.isRoot = false → s.FollowsRootPort P) := by
  have hinv := h.forall_of_invariant (I := fun s ↦ s.Running → s.Settled P)
    (C := fun t ↦ t.pre.Credible P t.input) (D := fun _ ↦ True) ?_
    (fun s event output s' hI hstep hC ↦
      ⟨trivial, fun hrunning ↦ settled_step hmaxAge hI hstep hC hrunning⟩) hcredible
  · have hsettled := hinv.2 (.inr hop)
    exact ⟨hsettled.elects.isRoot, hsettled.allDesignated, hsettled.elects.rootPort⟩
  · rintro s ⟨port, now, rfl⟩ hrunning
    exact absurd hrunning (by simp [Running])

/-- A bridge with two ports. -/
def twoPorts : STPParameters :=
  { defaultParameters with numPorts := 2, numPorts_pos := Nat.two_pos }

/-- The bridge starts, and hears at its second port of a root with a better address. -/
def betterRoot : List STPEvent :=
  [.start, .message { switchPort := 1 }
    { rootPriority := 32768, rootAddress := ⟨1⟩, rootPathCost := 5, bridgePriority := 32768
      bridgeAddress := ⟨2⟩, maxAge := SimTime.ms 20000, forwardDelay := SimTime.ms 15000 }]

theorem roles_of_run_betterRoot :
    (stateAfter (after twoPorts) { port := fun _ ↦ {} } betterRoot).FollowsRootPort twoPorts := by
  have hrun : (system twoPorts).Run (transitionsOf (after twoPorts) { port := fun _ ↦ {} } betterRoot)
      (stateAfter (after twoPorts) { port := fun _ ↦ {} } betterRoot) := by
    refine .ofInputs (fun s event h ↦ step_after s event h) ⟨_, 0, rfl⟩ ?_
    show ∀ t ∈ [_, _], _
    rw [List.forall_mem_cons, List.forall_mem_singleton]
    exact ⟨rfl, Nat.one_lt_two⟩
  refine (roles_of_run (by decide) hrun ?_ (by decide +kernel)).2.2 (by decide +kernel)
  show ∀ t ∈ [_, _], _
  rw [List.forall_mem_cons, List.forall_mem_singleton]
  exact ⟨trivial, fun _ hroot ↦ absurd hroot (by decide)⟩

end STP

end Inet
