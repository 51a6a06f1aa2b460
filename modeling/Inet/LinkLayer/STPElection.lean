import Inet.Foundations.ThreeWay
import Inet.LinkLayer.STPHello
import Mathlib.Data.List.MinMax

/-!
# The election of the ports

`comparePorts` orders what is stored about the ports, and what the bridge says about itself,
lexicographically (`compares_ports`). Every loop over the ports changes each port by itself
(`forPorts_eq`), so that each of them is an equation.

An election leaves the roles that the stored vectors imply (`tryRoot_elects`): the bridge is root
exactly if no port knows a better root; otherwise the root port is the first of the best ports
(`bestPort_mem_argmin`), and every other port is designated or alternate as the bridge or the port
has the better offer for its network. The roles still are the right ones when another port has lost
its information (`lostAlternate_elects`), although no election is held then.
-/

namespace Inet

/-! ### Vectors -/

/-- A bridge id. The smaller one is the better one. -/
def bridgeId (priority : UInt32) (address : MACAddress) : ℕ ×ₗ MACAddress :=
  toLex (priority.toNat, address)

/-- The id of the root that is known at the port. -/
def PortInfo.rootId (p : PortInfo) : ℕ ×ₗ MACAddress :=
  bridgeId p.rootPriority p.rootAddress

/-- What is compared of a port. -/
def PortInfo.vector (p : PortInfo) :
    (ℕ ×ₗ MACAddress) ×ₗ ℕ ×ₗ (ℕ ×ₗ MACAddress) ×ₗ ℕ ×ₗ ℕ :=
  toLex (p.rootId, toLex (p.rootPathCost.toNat,
    toLex (bridgeId p.bridgePriority p.bridgeAddress, toLex (p.portPriority.toNat,
      p.portNum.toNat))))

/-- `setRole`. -/
def PortInfo.setRole (role : PortRole) (p : PortInfo) : PortInfo :=
  { p with role := role }

namespace STP

variable {P : STPParameters} {s s' : STP} {i j : ℕ}

theorem compares_bridgeIDs (aPriority : UInt32) (aAddress : MACAddress) (bPriority : UInt32)
    (bAddress : MACAddress) : Compares (compareBridgeIDs aPriority aAddress bPriority bAddress)
      (bridgeId aPriority aAddress) (bridgeId bPriority bAddress) :=
  .ifs UInt32.lt_iff_toNat_lt UInt32.lt_iff_toNat_lt (.ifs_zero Iff.rfl Iff.rfl)

theorem compares_portIDs (aPriority aNum bPriority bNum : UInt32) :
    Compares (comparePortIDs aPriority aNum bPriority bNum)
      (toLex (aPriority.toNat, aNum.toNat)) (toLex (bPriority.toNat, bNum.toNat)) :=
  .ifs UInt32.lt_iff_toNat_lt UInt32.lt_iff_toNat_lt
    (.ifs_zero UInt32.lt_iff_toNat_lt UInt32.lt_iff_toNat_lt)

/-- **The ports are compared** by their vectors. -/
theorem compares_ports (portA portB : PortInfo) :
    Compares (comparePorts portA portB) portA.vector portB.vector :=
  .orElse (compares_bridgeIDs _ _ _ _) (.ifs UInt32.lt_iff_toNat_lt UInt32.lt_iff_toNat_lt
    (.orElse (compares_bridgeIDs _ _ _ _) (compares_portIDs _ _ _ _)))

/-! ### Loops over the ports -/

/-- The data of the ports are replaced, and the list of the designated ports. -/
def setPorts (ports : ℕ → PortInfo) (des : List ℕ) (s : STP) : STP :=
  { s with port := ports, desPorts := des }

theorem setPort_setPorts (s : STP) (ports : ℕ → PortInfo) (des : List ℕ) (i : ℕ)
    (f : PortInfo → PortInfo) : (s.setPorts ports des).setPort i f =
      s.setPorts (Function.update ports i (f (ports i))) des :=
  rfl

/-- **A loop over the ports** that changes each port by itself, and may add it to the designated
ports.
-/
theorem forPorts_eq {f : STP → ℕ → STP} (g : ℕ → PortInfo) (d : ℕ → Bool) (des₀ : List ℕ)
    (hf : ∀ ports des, ∀ i < P.numPorts, ports i = s.port i → f (s.setPorts ports des) i =
      s.setPorts (Function.update ports i (g i)) (des ++ if d i then [i] else [])) :
    forPorts P f (s.setPorts s.port des₀) =
      s.setPorts (fun i ↦ if i < P.numPorts then g i else s.port i)
        (des₀ ++ (List.range P.numPorts).filter d) := by
  have hloop : ∀ k ≤ P.numPorts, (List.range k).foldl f (s.setPorts s.port des₀) =
      s.setPorts (fun i ↦ if i < k then g i else s.port i)
        (des₀ ++ (List.range k).filter d) := by
    intro k hk
    induction k with
    | zero =>
      rw [List.range_zero, List.filter_nil, List.append_nil]
      rfl
    | succ k ih =>
      rw [List.range_succ, List.foldl_append, ih (by omega), List.foldl_cons, List.foldl_nil,
        hf _ _ k hk (if_neg (lt_irrefl k)), List.filter_append, List.append_assoc]
      congr 1
      · funext i
        obtain rfl | hne := eq_or_ne i k
        · rw [Function.update_self, if_pos (Nat.lt_succ_self i)]
        · rw [Function.update_of_ne hne]
          exact if_congr (by omega) rfl rfl
      · rw [List.filter_singleton, cond_eq_ite]
  exact hloop _ le_rfl

theorem clearRoles_eq (s : STP) : s.clearRoles P = s.setPorts
    (fun i ↦ if i < P.numPorts then (s.port i).setRole .notassigned else s.port i) [] := by
  refine (forPorts_eq (fun i ↦ (s.port i).setRole .notassigned) (fun _ ↦ false) [] ?_).trans ?_
  · intro ports des i _ hport
    rw [setPort_setPorts, hport, if_neg Bool.false_ne_true, List.append_nil]
    rfl
  · rw [List.filter_false, List.append_nil]

theorem setAllDesignated_eq (s : STP) (h : ∀ i < P.numPorts, (s.port i).role ≠ .disabled) :
    s.setAllDesignated P = s.setPorts
      (fun i ↦ if i < P.numPorts then (s.port i).setRole .designated else s.port i)
      (List.range P.numPorts) := by
  refine (forPorts_eq (fun i ↦ (s.port i).setRole .designated) (fun _ ↦ true) [] ?_).trans ?_
  · intro ports des i hi hport
    show (if (ports i).role = .disabled then _ else _) = _
    rw [hport, if_neg (h i hi), setPort_setPorts, hport]
    rfl
  · rw [List.filter_true, List.nil_append]

/-- `bridgeGlobal` in `selectDesignatedPorts`: what the bridge offers in the network of a port. -/
def offer (P : STPParameters) (s : STP) (i : ℕ) : PortInfo :=
  { bridgePriority := P.bridgePriority, bridgeAddress := P.bridgeAddress
    rootAddress := s.rootAddress, rootPriority := s.rootPriority
    portPriority := (s.port i).priority, portNum := UInt32.ofNat i
    rootPathCost := s.rootPathCost + (s.port i).linkCost }

/-- The role of a port that is not the root port. A port that has the offer of the bridge itself
keeps its role. -/
def offeredRole (P : STPParameters) (s : STP) (i : ℕ) (role : PortRole) : PortRole :=
  if (offer P s i).vector < (s.port i).vector then .designated
  else if (s.port i).vector < (offer P s i).vector then .alternate
  else role

/-- The role that `selectDesignatedPorts` gives to a port. -/
def selectedRole (P : STPParameters) (s : STP) (i : ℕ) : PortRole :=
  if (s.port i).role = .root ∨ (s.port i).role = .disabled then (s.port i).role
  else offeredRole P s i (s.port i).role

theorem selectedRole_eq (hroot : (s.port i).role ≠ .root) (hdisabled : (s.port i).role ≠ .disabled) :
    selectedRole P s i = offeredRole P s i (s.port i).role :=
  if_neg fun h ↦ h.elim hroot hdisabled

theorem selectDesignatedPorts_eq (s : STP) : s.selectDesignatedPorts P = s.setPorts
    (fun i ↦ if i < P.numPorts then (s.port i).setRole (selectedRole P s i) else s.port i)
    ((List.range P.numPorts).filter fun i ↦ (s.port i).role ≠ .root ∧ (s.port i).role ≠ .disabled ∧
      (offer P s i).vector < (s.port i).vector) := by
  refine forPorts_eq (fun i ↦ (s.port i).setRole (selectedRole P s i)) _ [] ?_
  intro ports des i _ hport
  have hcompares := compares_ports (offer P s i) (s.port i)
  have hoffer : offer P (s.setPorts ports des) i = offer P s i := by
    rw [offer, offer, ← hport]
    rfl
  have hsame : Function.update ports i ((s.port i).setRole (s.port i).role) = ports := by
    show Function.update ports i (s.port i) = ports
    rw [← hport, Function.update_eq_self]
  show (if (ports i).role = .root ∨ (ports i).role = .disabled then s.setPorts ports des else
    if 0 < comparePorts (offer P (s.setPorts ports des) i) (ports i) then
      s.setPorts (Function.update ports i ((ports i).setRole .designated)) (des ++ [i])
    else if comparePorts (offer P (s.setPorts ports des) i) (ports i) < 0 then
      s.setPorts (Function.update ports i ((ports i).setRole .alternate)) des
    else s.setPorts ports des) = _
  rw [hoffer, hport, selectedRole, offeredRole]
  simp only [hcompares.pos_iff, hcompares.neg_iff, decide_eq_true_eq]
  by_cases hfixed : (s.port i).role = .root ∨ (s.port i).role = .disabled
  · rw [if_pos hfixed, if_pos hfixed, hsame, if_neg fun h ↦ hfixed.elim h.1 h.2.1, List.append_nil]
  rw [if_neg hfixed, if_neg hfixed]
  by_cases hlt : (offer P s i).vector < (s.port i).vector
  · rw [if_pos hlt, if_pos hlt, if_pos ⟨fun h ↦ hfixed (.inl h), fun h ↦ hfixed (.inr h), hlt⟩]
  have hnot : ¬((s.port i).role ≠ .root ∧ (s.port i).role ≠ .disabled ∧
      (offer P s i).vector < (s.port i).vector) := fun h ↦ hlt h.2.2
  rw [if_neg hlt, if_neg hlt, if_neg hnot, List.append_nil]
  split_ifs
  · rfl
  · rw [hsame]

theorem selectDesignatedPorts_port (s : STP) (hi : i < P.numPorts) :
    (s.selectDesignatedPorts P).port i = (s.port i).setRole (selectedRole P s i) := by
  rw [selectDesignatedPorts_eq]
  exact if_pos hi

/-- Apart from the roles the ports stay as they are. -/
theorem selectDesignatedPorts_info (s : STP) (i : ℕ) :
    ∃ role, (s.selectDesignatedPorts P).port i = (s.port i).setRole role := by
  by_cases hi : i < P.numPorts
  · exact ⟨_, selectDesignatedPorts_port s hi⟩
  · rw [selectDesignatedPorts_eq]
    exact ⟨(s.port i).role, if_neg hi⟩

/-! ### The best port -/

/-- How good what is stored about a port is. Among equal ports the priority of the port decides. -/
def portKey (s : STP) (i : ℕ) :
    ((ℕ ×ₗ MACAddress) ×ₗ ℕ ×ₗ (ℕ ×ₗ MACAddress) ×ₗ ℕ ×ₗ ℕ) ×ₗ ℕ :=
  toLex ((s.port i).vector, (s.port i).priority.toNat)

/-- **The best port** is the first one of those with the best key. -/
theorem bestPort_mem_argmin (s : STP) :
    s.bestPort P ∈ (List.range P.numPorts).argmin s.portKey := by
  have hstep (best i : ℕ) : (if 0 < comparePorts (s.port i) (s.port best) then i
      else if comparePorts (s.port i) (s.port best) < 0 then best
      else if (s.port i).priority < (s.port best).priority then i else best) =
      if s.portKey i < s.portKey best then i else best := by
    have hcompares := compares_ports (s.port i) (s.port best)
    rw [portKey, portKey]
    simp only [hcompares.pos_iff, hcompares.neg_iff, Prod.Lex.toLex_lt_toLex,
      UInt32.lt_iff_toNat_lt]
    rcases lt_trichotomy (s.port i).vector (s.port best).vector with hlt | heq | hlt
    · rw [if_pos hlt, if_pos (.inl hlt)]
    · simp only [heq, lt_irrefl, if_false, false_or, true_and]
    · rw [if_neg hlt.asymm, if_pos hlt, if_neg fun hor ↦ hor.elim hlt.asymm fun h ↦ hlt.ne h.1.symm]
  have hloop (l : List ℕ) (best : ℕ) :
      l.foldl (List.argAux fun i best ↦ s.portKey i < s.portKey best) (some best) =
        some (l.foldl (fun best i ↦ if s.portKey i < s.portKey best then i else best) best) := by
    induction l generalizing best with
    | nil => rfl
    | cons i l ih =>
      rw [List.foldl_cons, List.foldl_cons, ← ih, List.argAux]
      congr 1
      dsimp only
      split_ifs <;> rfl
  obtain ⟨n, hn⟩ := Nat.exists_eq_succ_of_ne_zero P.numPorts_pos.ne'
  rw [bestPort]
  dsimp only
  simp only [hstep]
  rw [hn, List.range_succ_eq_map, List.argmin, List.foldl_cons, List.foldl_cons,
    if_neg (lt_irrefl _)]
  exact hloop _ 0

/-! ### What the vectors imply -/

/-- The id of the bridge itself. -/
def ownId (P : STPParameters) : ℕ ×ₗ MACAddress :=
  bridgeId P.bridgePriority P.bridgeAddress

/-- The id of the root as the bridge knows it. -/
def rootId (s : STP) : ℕ ×ₗ MACAddress :=
  bridgeId s.rootPriority s.rootAddress

/-- A bridge that is not root has the first of the best ports as its root port, and passes on what
is stored there. -/
structure FollowsRootPort (P : STPParameters) (s : STP) : Prop where
  best : s.rootPort ∈ (List.range P.numPorts).argmin s.portKey
  better : (s.port s.rootPort).rootId < ownId P
  rootPriority : s.rootPriority = (s.port s.rootPort).rootPriority
  rootAddress : s.rootAddress = (s.port s.rootPort).rootAddress
  rootPathCost : s.rootPathCost = (s.port s.rootPort).rootPathCost
  root : (s.port s.rootPort).role = .root
  roles : ∀ i < P.numPorts, i ≠ s.rootPort → (s.port i).role = offeredRole P s i .notassigned
  desPorts : s.desPorts = (List.range P.numPorts).filter fun i ↦ (s.port i).role = .designated

/-- A bridge is root exactly if no better root is known at a port. -/
structure Elects (P : STPParameters) (s : STP) : Prop where
  bridgePriority : s.currentBridgePriority = P.bridgePriority
  isRoot : s.isRoot = true ↔ ∀ i < P.numPorts, ownId P ≤ (s.port i).rootId
  root : s.isRoot = true → s.rootPriority = P.bridgePriority ∧ s.rootAddress = P.bridgeAddress ∧
    s.rootPathCost = 0 ∧ s.currentMaxAge = P.maxAge ∧ s.currentFwdDelay = P.forwardDelay
  noRoot : s.isRoot = true → ∀ i < P.numPorts, (s.port i).role ≠ .root ∧ (s.port i).role ≠ .disabled
  rootPort : s.isRoot = false → FollowsRootPort P s

/-- All ports are designated. -/
structure AllDesignated (P : STPParameters) (s : STP) : Prop where
  role : ∀ i < P.numPorts, (s.port i).role = .designated
  desPorts : s.desPorts = List.range P.numPorts

theorem FollowsRootPort.lt (h : FollowsRootPort P s) : s.rootPort < P.numPorts :=
  List.mem_range.1 (List.argmin_mem h.best)

theorem offeredRole_ne_root {role : PortRole} (h : role ≠ .root) : offeredRole P s i role ≠ .root := by
  rw [offeredRole]
  split_ifs
  exacts [PortRole.noConfusion, PortRole.noConfusion, h]

theorem offeredRole_ne_disabled {role : PortRole} (h : role ≠ .disabled) :
    offeredRole P s i role ≠ .disabled := by
  rw [offeredRole]
  split_ifs
  exacts [PortRole.noConfusion, PortRole.noConfusion, h]

theorem offeredRole_eq_designated_iff :
    offeredRole P s i .notassigned = .designated ↔ (offer P s i).vector < (s.port i).vector := by
  rw [offeredRole]
  split_ifs with hlt
  · exact iff_of_true rfl hlt
  · exact iff_of_false not_false hlt
  · exact iff_of_false not_false hlt

theorem rootId_le_of_portKey_le (h : s.portKey i ≤ s'.portKey j) :
    (s.port i).rootId ≤ (s'.port j).rootId :=
  Prod.Lex.monotone_fst _ _ (Prod.Lex.monotone_fst _ _ h)

/-- What a port is offered does not depend on the roles. -/
theorem selectDesignatedPorts_offeredRole (s : STP) (i : ℕ) (role : PortRole) :
    offeredRole P (s.selectDesignatedPorts P) i role = offeredRole P s i role := by
  obtain ⟨role', hrole⟩ := selectDesignatedPorts_info (P := P) s i
  rw [offeredRole, offeredRole, offer, offer, hrole, selectDesignatedPorts_eq]
  rfl

theorem Elects.ne_disabled (h : s.Elects P) (hi : i < P.numPorts) :
    (s.port i).role ≠ .disabled := by
  rcases hroot : s.isRoot with - | -
  · have hfollows := h.rootPort hroot
    obtain rfl | hne := eq_or_ne i s.rootPort
    · rw [hfollows.root]
      exact PortRole.noConfusion
    · rw [hfollows.roles i hi hne]
      exact offeredRole_ne_disabled PortRole.noConfusion
  · exact (h.noRoot hroot i hi).2

/-! ### The election -/

theorem checkRootEligibility_iff :
    s.checkRootEligibility P = true ↔ ∀ i < P.numPorts, ownId P ≤ (s.port i).rootId := by
  rw [checkRootEligibility, List.all_eq_true]
  refine forall_congr' fun i ↦ ?_
  rw [List.mem_range, decide_eq_true_eq]
  exact imp_congr_right fun _ ↦ (compares_bridgeIDs _ _ _ _).le_iff

/-- The designated ports are listed, if those that have been designated before have a better
offer. -/
theorem selectDesignatedPorts_desPorts (s : STP) (h : ∀ i < P.numPorts,
    (s.port i).role = .designated → (offer P s i).vector < (s.port i).vector) :
    (s.selectDesignatedPorts P).desPorts = (List.range P.numPorts).filter fun i ↦
      ((s.selectDesignatedPorts P).port i).role = .designated := by
  have hlist : (s.selectDesignatedPorts P).desPorts = (List.range P.numPorts).filter fun i ↦
      (s.port i).role ≠ .root ∧ (s.port i).role ≠ .disabled ∧
        (offer P s i).vector < (s.port i).vector := by
    rw [selectDesignatedPorts_eq]
    rfl
  rw [hlist]
  refine List.filter_congr fun i hi ↦ ?_
  rw [List.mem_range] at hi
  rw [selectDesignatedPorts_port s hi, decide_eq_decide]
  show _ ↔ selectedRole P s i = _
  rw [selectedRole]
  split_ifs with hfixed
  · refine iff_of_false (fun hdes ↦ hfixed.elim hdes.1 hdes.2.1) ?_
    rcases hfixed with hfixed | hfixed <;> rw [hfixed] <;> exact PortRole.noConfusion
  · rw [not_or] at hfixed
    rw [offeredRole]
    split_ifs with hlt hgt
    · exact iff_of_true ⟨hfixed.1, hfixed.2, hlt⟩ rfl
    · exact iff_of_false (fun hdes ↦ hlt hdes.2.2) not_false
    · exact iff_of_false (fun hdes ↦ hlt hdes.2.2) fun hrole ↦ hlt (h i hi hrole)

/-- **A bridge that is root** designates all its ports. -/
theorem becomeRoot_elects (s : STP) (hpriority : s.currentBridgePriority = P.bridgePriority)
    (h : ∀ i < P.numPorts, (s.port i).role ≠ .disabled)
    (heligible : ∀ i < P.numPorts, ownId P ≤ (s.port i).rootId) :
    ((s.setAllDesignated P).becomeRoot P).Elects P ∧
      ((s.setAllDesignated P).becomeRoot P).AllDesignated P := by
  rw [setAllDesignated_eq s h]
  have hport {i : ℕ} (hi : i < P.numPorts) : (((s.setPorts
      (fun i ↦ if i < P.numPorts then (s.port i).setRole .designated else s.port i)
      (List.range P.numPorts)).becomeRoot P).port i) = (s.port i).setRole .designated :=
    if_pos hi
  refine ⟨⟨hpriority, iff_of_true rfl fun i hi ↦ ?_, fun _ ↦ ⟨rfl, rfl, rfl, rfl, rfl⟩,
    fun _ i hi ↦ ?_, fun h ↦ absurd h.symm Bool.false_ne_true⟩, fun i hi ↦ ?_, rfl⟩
  · rw [hport hi]
    exact heligible i hi
  · rw [hport hi]
    exact ⟨PortRole.noConfusion, PortRole.noConfusion⟩
  · rw [hport hi]
    rfl

/-- **A bridge that is not root** selects its root port and its designated ports. -/
theorem selectPorts_follows (s : STP)
    (hbetter : ∃ i < P.numPorts, (s.port i).rootId < ownId P) :
    ((s.selectRootPort P).selectDesignatedPorts P).FollowsRootPort P := by
  generalize hc : s.clearRoles P = c
  have hbest := bestPort_mem_argmin (P := P) c
  rw [selectRootPort, hc]
  generalize c.bestPort P = b at hbest
  have hb : b < P.numPorts := List.mem_range.1 (List.argmin_mem hbest)
  have hcleared {i : ℕ} (hi : i < P.numPorts) : c.port i = (s.port i).setRole .notassigned := by
    rw [← hc, clearRoles_eq]
    exact if_pos hi
  have hother {i : ℕ} (hne : i ≠ b) : (c.setRootPort b).port i = c.port i :=
    Function.update_of_ne hne _ _
  have hroot : (c.setRootPort b).port b = (c.port b).setRole .root :=
    Function.update_self _ _ _
  have hselected {i : ℕ} (hi : i < P.numPorts) (hne : i ≠ b) :
      selectedRole P (c.setRootPort b) i = offeredRole P (c.setRootPort b) i .notassigned := by
    rw [selectedRole, hother hne, hcleared hi]
    exact if_neg (by simp [PortInfo.setRole])
  have hdesPorts := selectDesignatedPorts_desPorts (P := P) (c.setRootPort b) fun i hi hdes ↦ by
    obtain rfl | hne := eq_or_ne i b
    · rw [hroot] at hdes
      cases hdes
    · rw [hother hne, hcleared hi] at hdes
      cases hdes
  have hinfo (i : ℕ) : ∃ role,
      ((c.setRootPort b).selectDesignatedPorts P).port i = (c.port i).setRole role := by
    obtain ⟨role, hrole⟩ := selectDesignatedPorts_info (P := P) (c.setRootPort b) i
    obtain rfl | hne := eq_or_ne i b
    · exact ⟨role, by rw [hrole, hroot]; rfl⟩
    · exact ⟨role, by rw [hrole, hother hne]⟩
  obtain ⟨role, hinfob⟩ := hinfo b
  have hkey : ((c.setRootPort b).selectDesignatedPorts P).portKey = c.portKey := by
    funext i
    obtain ⟨role, hrole⟩ := hinfo i
    rw [portKey, hrole]
    rfl
  have hrootPort : ((c.setRootPort b).selectDesignatedPorts P).rootPort = b := by
    rw [selectDesignatedPorts_eq]
    rfl
  constructor
  · rw [hrootPort, hkey]
    exact hbest
  · obtain ⟨i, hi, hlt⟩ := hbetter
    have hle : (c.port b).rootId ≤ (c.port i).rootId :=
      rootId_le_of_portKey_le (List.le_of_mem_argmin (List.mem_range.2 hi) hbest)
    rw [hcleared hi] at hle
    rw [hrootPort, hinfob]
    exact hle.trans_lt hlt
  · rw [hrootPort, hinfob, selectDesignatedPorts_eq]
    rfl
  · rw [hrootPort, hinfob, selectDesignatedPorts_eq]
    rfl
  · rw [hrootPort, hinfob, selectDesignatedPorts_eq]
    rfl
  · have hkept : selectedRole P (c.setRootPort b) b = .root := by
      rw [selectedRole, hroot]
      exact if_pos (Or.inl rfl)
    rw [hrootPort, selectDesignatedPorts_port _ hb, hkept]
    rfl
  · intro i hi hne
    rw [hrootPort] at hne
    rw [selectDesignatedPorts_port _ hi, selectDesignatedPorts_offeredRole]
    exact hselected hi hne
  · exact hdesPorts

theorem tryRoot_elects (s : STP) (hpriority : s.currentBridgePriority = P.bridgePriority)
    (h : ∀ i < P.numPorts, (s.port i).role ≠ .disabled) :
    (s.tryRoot P).Elects P ∧ ((s.tryRoot P).isRoot = true → (s.tryRoot P).AllDesignated P) := by
  rw [tryRoot]
  split_ifs with heligible
  · obtain ⟨helects, hall⟩ := becomeRoot_elects s hpriority h (checkRootEligibility_iff.1 heligible)
    exact ⟨helects, fun _ ↦ hall⟩
  · rw [checkRootEligibility_iff] at heligible
    simp only [not_forall, not_le, exists_prop] at heligible
    have hfollows := selectPorts_follows (P := P) { s with isRoot := false } heligible
    have hsame : (({ s with isRoot := false }.selectRootPort P).selectDesignatedPorts P).isRoot =
        false ∧ (({ s with isRoot := false }.selectRootPort P).selectDesignatedPorts
          P).currentBridgePriority = s.currentBridgePriority := by
      rw [selectDesignatedPorts_eq, selectRootPort, clearRoles_eq]
      exact ⟨rfl, rfl⟩
    have hnot : ¬(({ s with isRoot := false }.selectRootPort P).selectDesignatedPorts P).isRoot =
        true := by
      rw [hsame.1]
      exact Bool.false_ne_true
    refine ⟨⟨hsame.2.trans hpriority, iff_of_false hnot fun hall ↦ ?_,
      fun hroot ↦ absurd hroot hnot, fun hroot ↦ absurd hroot hnot, fun _ ↦ hfollows⟩,
      fun hroot ↦ absurd hroot hnot⟩
    exact absurd hfollows.better (not_lt.2 (hall _ hfollows.lt))

/-! ### The age of the information -/

theorem portKey_lt_of_rootId_lt (h : (s.port i).rootId < (s'.port j).rootId) :
    s.portKey i < s'.portKey j :=
  Prod.Lex.toLex_lt_toLex.2 (.inl (Prod.Lex.toLex_lt_toLex.2 (.inl h)))

theorem offer_lt_of_rootId_lt (h : s.rootId < (s.port i).rootId) :
    (offer P s i).vector < (s.port i).vector :=
  Prod.Lex.toLex_lt_toLex.2 (.inl h)

theorem offeredRole_offeredRole (role : PortRole) :
    offeredRole P s i (offeredRole P s i role) = offeredRole P s i role := by
  rw [offeredRole, offeredRole]
  split_ifs <;> rfl

theorem FollowsRootPort.rootId_eq (h : FollowsRootPort P s) :
    s.rootId = (s.port s.rootPort).rootId := by
  rw [rootId, h.rootPriority, h.rootAddress]
  rfl

/-- What is stored about the root port stays the best, if what is stored about another port is given
up.
-/
theorem FollowsRootPort.initInterfacedata_best (h : FollowsRootPort P s) (hne : i ≠ s.rootPort)
    (hkeys : ∀ j ≠ i, s'.portKey j = s.portKey j) (hinit : (s'.port i).rootId = ownId P) :
    s.rootPort ∈ (List.range P.numPorts).argmin s'.portKey := by
  have hbest := List.mem_argmin_iff.1 h.best
  have hlt : s.portKey s.rootPort < s'.portKey i :=
    portKey_lt_of_rootId_lt (hinit ▸ h.better)
  rw [List.mem_argmin_iff, hkeys _ hne.symm]
  refine ⟨hbest.1, fun j hj ↦ ?_, fun j hj hle ↦ ?_⟩
  · obtain rfl | hji := eq_or_ne j i
    · exact hlt.le
    · rw [hkeys j hji]
      exact hbest.2.1 j hj
  · obtain rfl | hji := eq_or_ne j i
    · exact absurd hlt (not_lt.2 hle)
    · rw [hkeys j hji] at hle
      exact hbest.2.2 j hj hle

/-! ### A port that is not the root port has lost its information -/

theorem initInterfacedata_port_of_ne (s : STP) (hne : j ≠ i) :
    (s.initInterfacedata P i).port j = s.port j :=
  Function.update_of_ne hne _ _

theorem initInterfacedata_port_self (s : STP) (i : ℕ) :
    ((s.initInterfacedata P i).port i).rootId = ownId P ∧
      ((s.initInterfacedata P i).port i).role = .notassigned := by
  rw [initInterfacedata, setPort]
  dsimp only
  rw [Function.update_self]
  exact ⟨rfl, rfl⟩

theorem initInterfacedata_offeredRole (s : STP) (hne : j ≠ i) (role : PortRole) :
    offeredRole P (s.initInterfacedata P i) j role = offeredRole P s j role := by
  rw [offeredRole, offeredRole, offer, offer, initInterfacedata_port_of_ne s hne]
  rfl

theorem lostAlternate_eq (s : STP) (i : ℕ) : ∃ ports des,
    (s.initInterfacedata P i).lostAlternate P =
        { s with port := ports, desPorts := des, topologyChangeNotification := true } ∧
      ∀ j < P.numPorts, ports j = ((s.initInterfacedata P i).port j).setRole
        (selectedRole P (s.initInterfacedata P i) j) := by
  rw [lostAlternate, selectDesignatedPorts_eq]
  exact ⟨_, _, rfl, fun j hj ↦ if_pos hj⟩

/-- The root port stays, and the other ports have the roles that they are offered. -/
theorem lostAlternate_follows (h : s.FollowsRootPort P) (hi : i < P.numPorts)
    (hne : i ≠ s.rootPort) : ((s.initInterfacedata P i).lostAlternate P).FollowsRootPort P := by
  have hinit := initInterfacedata_port_self (P := P) s i
  have hother {j : ℕ} (hji : j ≠ i) := initInterfacedata_port_of_ne (P := P) s hji
  have hoffered (j : ℕ) : offeredRole P ((s.initInterfacedata P i).lostAlternate P) j .notassigned =
      offeredRole P (s.initInterfacedata P i) j .notassigned :=
    selectDesignatedPorts_offeredRole _ j _
  have hinfo (j : ℕ) : ∃ role, ((s.initInterfacedata P i).lostAlternate P).port j =
      ((s.initInterfacedata P i).port j).setRole role :=
    selectDesignatedPorts_info _ j
  have hdesPorts : ((s.initInterfacedata P i).lostAlternate P).desPorts =
      (List.range P.numPorts).filter fun j ↦
        (((s.initInterfacedata P i).lostAlternate P).port j).role = .designated := by
    refine selectDesignatedPorts_desPorts _ fun j hj hdes ↦ ?_
    obtain rfl | hji := eq_or_ne j i
    · rw [hinit.2] at hdes
      cases hdes
    · -- what a designated port is offered has not changed
      rw [hother hji] at hdes
      have hjb : j ≠ s.rootPort := by
        rintro rfl
        rw [h.root] at hdes
        cases hdes
      rw [h.roles j hj hjb, ← initInterfacedata_offeredRole s hji] at hdes
      exact offeredRole_eq_designated_iff.1 hdes
  obtain ⟨ports, des, heq, hports⟩ := lostAlternate_eq (P := P) s i
  rw [heq] at hoffered hinfo hdesPorts ⊢
  have hb : ports s.rootPort = (s.port s.rootPort).setRole .root := by
    rw [hports _ h.lt, hother hne.symm, selectedRole, hother hne.symm, h.root]
    rfl
  have hrole {j : ℕ} (hj : j < P.numPorts) (hjb : j ≠ s.rootPort) :
      (ports j).role = offeredRole P (s.initInterfacedata P i) j .notassigned := by
    rw [hports j hj]
    show selectedRole P _ j = _
    obtain rfl | hji := eq_or_ne j i
    · rw [selectedRole, hinit.2]
      rfl
    · rw [selectedRole, hother hji, h.roles j hj hjb, initInterfacedata_offeredRole s hji,
        initInterfacedata_offeredRole s hji, offeredRole_offeredRole]
      exact if_neg fun hor ↦ hor.elim (offeredRole_ne_root PortRole.noConfusion)
        (offeredRole_ne_disabled PortRole.noConfusion)
  constructor
  · refine h.initInterfacedata_best hne (fun j hj ↦ ?_) ?_
    · obtain ⟨role, hinfo⟩ := hinfo j
      rw [portKey, hinfo, hother hj]
      rfl
    · show (ports i).rootId = ownId P
      rw [hports i hi]
      exact hinit.1
  · show (ports s.rootPort).rootId < ownId P
    rw [hb]
    exact h.better
  · show s.rootPriority = (ports s.rootPort).rootPriority
    rw [hb]
    exact h.rootPriority
  · show s.rootAddress = (ports s.rootPort).rootAddress
    rw [hb]
    exact h.rootAddress
  · show s.rootPathCost = (ports s.rootPort).rootPathCost
    rw [hb]
    exact h.rootPathCost
  · show (ports s.rootPort).role = .root
    rw [hb]
    rfl
  · exact fun j hj hjb ↦ (hrole hj hjb).trans (hoffered j).symm
  · exact hdesPorts

/-- **Another port than the root port** has lost its information. -/
theorem lostAlternate_elects (h : s.Elects P) (hi : i < P.numPorts) (hrole : (s.port i).role ≠ .root) :
    ((s.initInterfacedata P i).lostAlternate P).Elects P := by
  have hne (hroot : s.isRoot = false) : i ≠ s.rootPort := by
    rintro rfl
    exact hrole (h.rootPort hroot).root
  have hfollows (hroot : s.isRoot = false) := lostAlternate_follows (h.rootPort hroot) hi (hne hroot)
  obtain ⟨ports, des, heq, hports⟩ := lostAlternate_eq (P := P) s i
  rw [heq] at hfollows ⊢
  have hinit := initInterfacedata_port_self (P := P) s i
  have hother {j : ℕ} (hji : j ≠ i) := initInterfacedata_port_of_ne (P := P) s hji
  refine ⟨h.bridgePriority, ?_, h.root, fun hroot j hj ↦ ?_, hfollows⟩
  · show s.isRoot = true ↔ ∀ j < P.numPorts, ownId P ≤ (ports j).rootId
    rcases hroot : s.isRoot with - | -
    · exact iff_of_false Bool.false_ne_true fun hall ↦
        absurd (hfollows hroot).better (not_lt.2 (hall _ (h.rootPort hroot).lt))
    · refine iff_of_true rfl fun j hj ↦ ?_
      rw [hports j hj]
      obtain rfl | hji := eq_or_ne j i
      · exact hinit.1.ge
      · rw [hother hji]
        exact h.isRoot.1 hroot j hj
  · have hbefore : ((s.initInterfacedata P i).port j).role ≠ .root ∧
        ((s.initInterfacedata P i).port j).role ≠ .disabled := by
      obtain rfl | hji := eq_or_ne j i
      · rw [hinit.2]
        exact ⟨PortRole.noConfusion, PortRole.noConfusion⟩
      · rw [hother hji]
        exact h.noRoot hroot j hj
    show (ports j).role ≠ .root ∧ (ports j).role ≠ .disabled
    rw [hports j hj, selectedRole_eq hbefore.1 hbefore.2]
    exact ⟨offeredRole_ne_root hbefore.1, offeredRole_ne_disabled hbefore.2⟩

end STP

end Inet
