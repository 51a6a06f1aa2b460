import Inet.LinkLayer.STP

/-!
# The hello interval of a root bridge

`currentHelloTime` is meant to be the hello time of the root. A bridge that becomes root copies its
`helloTime` there, which is the running counter and not the parameter, and the counter is zero
whenever an event is over (`Quiet`). So the counter reaches its mark at every tick, and what a root
bridge sends at every tick announces the hello time zero (`Quiet.handleTick`).
-/

namespace Inet

namespace STP

variable {P : STPParameters} {s s' : STP} {counter : SimTime}
  {hellos : List (List (BPDU × Ieee802Ctrl))} {i : ℕ}

theorem forPorts_induction {f : STP → ℕ → STP} {motive : STP → Prop}
    (hf : ∀ s i, motive s → motive (f s i)) (h : motive s) : motive (forPorts P f s) := by
  have hloop (l : List ℕ) (s : STP) (h : motive s) : motive (l.foldl f s) := by
    induction l generalizing s with
    | nil => exact h
    | cons i l ih => exact ih _ (hf s i h)
  exact hloop _ s h

/-! ### Between the ticks -/

/-- The counter and the recorded calls, and what a root bridge announces. -/
structure Quiet (P : STPParameters) (counter : SimTime)
    (hellos : List (List (BPDU × Ieee802Ctrl))) (s : STP) : Prop where
  helloTime : s.helloTime = counter
  hellos : s.hellos = hellos
  root : s.isRoot = true → s.currentHelloTime = 0 ∧ s.currentMaxAge = P.maxAge ∧
    s.currentFwdDelay = P.forwardDelay

namespace Quiet

theorem setPort (h : Quiet P counter hellos s) (i : ℕ) (f : PortInfo → PortInfo) :
    Quiet P counter hellos (s.setPort i f) :=
  ⟨h.helloTime, h.hellos, h.root⟩

theorem generateBPDU (h : Quiet P counter hellos s) (port : ℕ) (address : MACAddress)
    (tcFlag tcaFlag : Bool) : Quiet P counter hellos (s.generateBPDU P port address tcFlag tcaFlag) :=
  ⟨h.helloTime, h.hellos, h.root⟩

theorem generateTCN (h : Quiet P counter hellos s) : Quiet P counter hellos s.generateTCN := by
  rw [STP.generateTCN]
  split_ifs
  exacts [⟨h.helloTime, h.hellos, h.root⟩, h]

theorem initInterfacedata (h : Quiet P counter hellos s) (i : ℕ) :
    Quiet P counter hellos (s.initInterfacedata P i) :=
  h.setPort i _

theorem initPortTable (h : Quiet P counter hellos s) : Quiet P counter hellos (s.initPortTable P) :=
  forPorts_induction (fun _ i h ↦ h.initInterfacedata i) h

theorem setAllDesignated (h : Quiet P counter hellos s) :
    Quiet P counter hellos (s.setAllDesignated P) := by
  refine forPorts_induction (motive := Quiet P counter hellos) (fun s i h ↦ ?_)
    ⟨h.helloTime, h.hellos, h.root⟩
  split_ifs
  exacts [h, ⟨h.helloTime, h.hellos, h.root⟩]

theorem selectDesignatedPorts (h : Quiet P counter hellos s) :
    Quiet P counter hellos (s.selectDesignatedPorts P) := by
  refine forPorts_induction (motive := Quiet P counter hellos) (fun s i h ↦ ?_)
    ⟨h.helloTime, h.hellos, h.root⟩
  simp only
  split_ifs
  exacts [h, ⟨h.helloTime, h.hellos, h.root⟩, h.setPort i _, h]

/-- A bridge that is not root announces what it has been told. -/
theorem selectRootPort (h : Quiet P counter hellos s) (hroot : s.isRoot = false) :
    Quiet P counter hellos (s.selectRootPort P) := by
  obtain ⟨hcleared, hroot'⟩ : Quiet P counter hellos (s.clearRoles P) ∧
      (s.clearRoles P).isRoot = false :=
    forPorts_induction (motive := fun s ↦ Quiet P counter hellos s ∧ s.isRoot = false)
      (fun s i h ↦ ⟨h.1.setPort i _, h.2⟩) ⟨⟨h.helloTime, h.hellos, h.root⟩, hroot⟩
  exact ⟨hcleared.helloTime, hcleared.hellos, fun h ↦ absurd (hroot'.symm.trans h) (by decide)⟩

/-- **The parameters are copied** when the counter is zero. -/
theorem copyParameters (h : Quiet P 0 hellos s) : Quiet P 0 hellos (s.copyParameters P) :=
  ⟨h.helloTime, h.hellos, fun _ ↦ ⟨h.helloTime, rfl, rfl⟩⟩

theorem becomeRoot (h : Quiet P 0 hellos s) : Quiet P 0 hellos (s.becomeRoot P) :=
  ⟨h.helloTime, h.hellos, fun _ ↦ ⟨h.helloTime, rfl, rfl⟩⟩

theorem tryRoot (h : Quiet P 0 hellos s) : Quiet P 0 hellos (s.tryRoot P) := by
  rw [STP.tryRoot]
  split_ifs
  · exact h.setAllDesignated.becomeRoot
  · refine (Quiet.selectRootPort ?_ rfl).selectDesignatedPorts
    exact ⟨h.helloTime, h.hellos, fun h ↦ by cases h⟩

theorem lostRoot (h : Quiet P 0 hellos s) : Quiet P 0 hellos (s.lostRoot P) := by
  refine Quiet.tryRoot ?_
  exact ⟨h.helloTime, h.hellos, h.root⟩

theorem lostAlternate (h : Quiet P counter hellos s) :
    Quiet P counter hellos (s.lostAlternate P) :=
  ⟨h.selectDesignatedPorts.helloTime, h.selectDesignatedPorts.hellos, h.selectDesignatedPorts.root⟩

/-! ### Messages -/

theorem setSuperiorBPDU (h : Quiet P counter hellos s) (portNum : ℕ) (bpdu : BPDU) :
    Quiet P counter hellos (s.setSuperiorBPDU portNum bpdu) := by
  rw [STP.setSuperiorBPDU]
  split_ifs
  exacts [h, h.setPort _ _]

theorem isSuperiorBPDU (h : Quiet P counter hellos s) (portNum : ℕ) (bpdu : BPDU) :
    Quiet P counter hellos (s.isSuperiorBPDU portNum bpdu).2 := by
  rw [STP.isSuperiorBPDU]
  split_ifs
  exacts [h, (h.setPort _ _).setSuperiorBPDU _ _, h.setSuperiorBPDU _ _]

theorem foldl_generateBPDU (tcFlag : Bool) (ports : List ℕ) (h : Quiet P counter hellos s) :
    Quiet P counter hellos (ports.foldl (fun s elem ↦
      s.generateBPDU P elem .STP_MULTICAST_ADDRESS tcFlag false) s) := by
  induction ports generalizing s with
  | nil => exact h
  | cons elem ports ih => exact ih (h.generateBPDU elem _ _ _)

theorem checkTca (h : Quiet P counter hellos s) (bpdu : BPDU) :
    Quiet P counter hellos (s.checkTca bpdu) := by
  rw [STP.checkTca]
  split_ifs
  exacts [⟨h.helloTime, h.hellos, h.root⟩, h]

theorem answerBPDU (h : Quiet P counter hellos s) (arrivalGate : ℕ) (bpdu : BPDU) (superior : Bool) :
    Quiet P counter hellos (s.answerBPDU P arrivalGate bpdu superior) := by
  have haging (agingTime : Option SimTime) :
      Quiet P counter hellos { s with agingTime := agingTime } :=
    ⟨h.helloTime, h.hellos, h.root⟩
  rw [STP.answerBPDU]
  split_ifs
  exacts [h.generateBPDU _ _ _ _, h, foldl_generateBPDU true _ (haging _),
    foldl_generateBPDU false _ (haging _), h]

theorem handleBPDU (h : Quiet P 0 hellos s) (controlInfo : Ieee802Ctrl) (bpdu : BPDU) :
    Quiet P 0 hellos (s.handleBPDU P controlInfo bpdu) :=
  (((h.checkTca bpdu).isSuperiorBPDU _ bpdu).answerBPDU _ bpdu _).tryRoot

theorem handleTCN (h : Quiet P counter hellos s) (controlInfo : Ieee802Ctrl) (tcn : BPDU) :
    Quiet P counter hellos (s.handleTCN P controlInfo tcn) := by
  have hnotified : Quiet P counter hellos { s with topologyChangeNotification := true } :=
    ⟨h.helloTime, h.hellos, h.root⟩
  have hack := hnotified.generateBPDU controlInfo.switchPort controlInfo.src false true
  rw [STP.handleTCN]
  split_ifs
  exacts [hack, ⟨hack.helloTime, hack.hellos, hack.root⟩]

theorem start (h : Quiet P 0 hellos s) : Quiet P 0 hellos (s.start P) := by
  have hoperational : Quiet P 0 hellos { s with isOperational := true } :=
    ⟨h.helloTime, h.hellos, h.root⟩
  have hports := hoperational.initPortTable
  rw [STP.start]
  generalize STP.initPortTable P { s with isOperational := true } = s₁ at hports
  have hroot := Quiet.becomeRoot (P := P) (s := { s₁ with
    currentBridgePriority := P.bridgePriority, topologyChangeNotification := true
    topologyChangeRecvd := true, rootPort := 0 }) ⟨hports.helloTime, hports.hellos, hports.root⟩
  have hdesignated := Quiet.setAllDesignated (P := P) (s := { STP.becomeRoot P { s₁ with
    currentBridgePriority := P.bridgePriority, topologyChangeNotification := true
    topologyChangeRecvd := true, rootPort := 0 } with helloTime := 0 })
    ⟨rfl, hroot.hellos, hroot.root⟩
  exact ⟨hdesignated.helloTime, hdesignated.hellos, hdesignated.root⟩

/-! ### Ticks -/

theorem checkAge (h : Quiet P 0 hellos s) (i : ℕ) : Quiet P 0 hellos (s.checkAge P i) := by
  rw [STP.checkAge]
  split_ifs
  exacts [(h.initInterfacedata i).lostRoot, (h.initInterfacedata i).lostAlternate, h]

theorem checkFdWhile (h : Quiet P counter hellos s) (i : ℕ) :
    Quiet P counter hellos (s.checkFdWhile i) := by
  rw [STP.checkFdWhile]
  split_ifs
  · cases (s.port i).state with
    | discarding => exact h.setPort i _
    | learning => exact h.setPort i _
    | forwarding => exact h.setPort i _
  · exact h
  · exact h.setPort i _

theorem checkParametersChange (h : Quiet P 0 hellos s) :
    Quiet P 0 hellos (s.checkParametersChange P) := by
  have hcopied : Quiet P 0 hellos (if s.isRoot then s.copyParameters P else s) := by
    split_ifs
    exacts [h.copyParameters, h]
  rw [STP.checkParametersChange]
  generalize (if s.isRoot then s.copyParameters P else s) = s₁ at hcopied
  split_ifs
  · refine Quiet.setAllDesignated (Quiet.becomeRoot ?_)
    exact ⟨hcopied.helloTime, hcopied.hellos, hcopied.root⟩
  · exact hcopied

end Quiet

/-- What `generateHelloBDPUs` sends in a root bridge. -/
structure IsHello (P : STPParameters) (s : STP) (hello : List (BPDU × Ieee802Ctrl)) : Prop where
  length : hello.length = P.numPorts
  carried : ∀ x ∈ hello, x.1.helloTime = s.currentHelloTime ∧ x.1.maxAge = s.currentMaxAge ∧
    x.1.forwardDelay = s.currentFwdDelay

theorem generateBPDU_eq (port : ℕ) (address : MACAddress) (tcFlag tcaFlag : Bool) (s : STP) :
    ∃ x : BPDU × Ieee802Ctrl, s.generateBPDU P port address tcFlag tcaFlag = s.sendAll [x] ∧
      x.1.helloTime = s.currentHelloTime ∧ x.1.maxAge = s.currentMaxAge ∧
      x.1.forwardDelay = s.currentFwdDelay := by
  refine ⟨_, rfl, ?_⟩
  simp only
  split_ifs
  all_goals exact ⟨rfl, rfl, rfl⟩

theorem generateHelloBDPUs_eq (s : STP) : ∃ hello, IsHello P s hello ∧
    s.generateHelloBDPUs P = { s.sendAll hello with hellos := s.hellos ++ [hello] } := by
  have hloop (ports : List ℕ) (s : STP) : ∃ hello : List (BPDU × Ieee802Ctrl),
      ports.foldl (fun s i ↦ s.generateConfigBPDU P i) s = s.sendAll hello ∧
      hello.length = ports.length ∧ ∀ x ∈ hello, x.1.helloTime = s.currentHelloTime ∧
        x.1.maxAge = s.currentMaxAge ∧ x.1.forwardDelay = s.currentFwdDelay := by
    induction ports generalizing s with
    | nil =>
      refine ⟨[], ?_, rfl, List.forall_mem_nil _⟩
      rw [sendAll, List.append_nil]
      rfl
    | cons i ports ih =>
      obtain ⟨x, hx, hcarried⟩ := generateBPDU_eq (P := P) i .STP_MULTICAST_ADDRESS false false s
      obtain ⟨hello, hrest, hlength, hall⟩ := ih (s.sendAll [x])
      refine ⟨x :: hello, ?_, congrArg (· + 1) hlength, List.forall_mem_cons.2 ⟨hcarried, hall⟩⟩
      rw [List.foldl_cons, generateConfigBPDU, hx, hrest]
      simp only [sendAll, List.append_assoc, List.singleton_append]
  obtain ⟨hello, hsent, hlength, hcarried⟩ := hloop (List.range P.numPorts) s
  refine ⟨hello, ⟨hlength.trans List.length_range, hcarried⟩, ?_⟩
  rw [generateHelloBDPUs, forPorts, hsent]
  simp only [sendAll, List.drop_left]

/-- The rest of a tick. -/
theorem Quiet.checkTimersAndParameters (h : Quiet P 0 hellos s) :
    Quiet P 0 hellos (((forPorts P STP.checkFdWhile
      (forPorts P (STP.checkAge P) s)).checkParametersChange P).generateTCN) := by
  have hages : Quiet P 0 hellos (forPorts P (STP.checkAge P) s) :=
    forPorts_induction (fun _ i h ↦ h.checkAge i) h
  have hforward : Quiet P 0 hellos (forPorts P STP.checkFdWhile (forPorts P (STP.checkAge P) s)) :=
    forPorts_induction (fun _ i h ↦ h.checkFdWhile i) hages
  exact hforward.checkParametersChange.generateTCN

/-- **A tick.** A root bridge says hello, whatever its parameter is, and announces the hello time
zero. -/
theorem Quiet.handleTick (h : Quiet P 0 hellos s) : ∃ calls,
    Quiet P 0 (hellos ++ calls) (s.handleTick P) ∧
      (s.isRoot = true → ∃ hello, calls = [hello] ∧ hello.length = P.numPorts ∧ ∀ x ∈ hello,
        x.1.helloTime = 0 ∧ x.1.maxAge = P.maxAge ∧ x.1.forwardDelay = P.forwardDelay) := by
  by_cases hroot : s.isRoot = true
  · have hcounted : Quiet P tickInterval hellos
          (forPorts P (fun s i ↦ s.setPort i countTick)
            { s with helloTime := s.helloTime + tickInterval }) ∧
        (forPorts P (fun s i ↦ s.setPort i countTick)
            { s with helloTime := s.helloTime + tickInterval }).isRoot = true :=
      forPorts_induction (motive := fun s ↦ Quiet P tickInterval hellos s ∧ s.isRoot = true)
        (fun s i h ↦ ⟨h.1.setPort i _, h.2⟩)
        ⟨⟨by rw [h.helloTime, Nat.zero_add], h.hellos, h.root⟩, hroot⟩
    rw [STP.handleTick]
    simp only [if_pos hroot]
    generalize forPorts P (fun s i ↦ s.setPort i countTick)
      { s with helloTime := s.helloTime + tickInterval } = s₁ at hcounted
    obtain ⟨hquiet, hroot₁⟩ := hcounted
    obtain ⟨hhello, hmaxAge, hfwdDelay⟩ := hquiet.root hroot₁
    obtain ⟨hello, hhellos, hgenerate⟩ := generateHelloBDPUs_eq (P := P) s₁
    refine ⟨[hello], ?_, fun _ ↦ ⟨hello, rfl, hhellos.length, fun x hx ↦ ?_⟩⟩
    · rw [checkTimers, checkHelloTimer, hhello, if_pos (Nat.zero_le _), if_pos hroot₁, hgenerate]
      refine Quiet.checkTimersAndParameters ⟨rfl, ?_, hquiet.root⟩
      show s₁.hellos ++ [hello] = _
      rw [hquiet.hellos]
    · rw [← hhello, ← hmaxAge, ← hfwdDelay]
      exact hhellos.carried x hx
  · have hcounted : Quiet P 0 hellos (forPorts P (fun s i ↦ s.setPort i countTick)
          { s with helloTime := 0 }) ∧
        ¬ (forPorts P (fun s i ↦ s.setPort i countTick) { s with helloTime := 0 }).isRoot = true :=
      forPorts_induction (motive := fun s ↦ Quiet P 0 hellos s ∧ ¬ s.isRoot = true)
        (fun s i h ↦ ⟨h.1.setPort i _, h.2⟩) ⟨⟨rfl, h.hellos, h.root⟩, hroot⟩
    rw [STP.handleTick]
    simp only [if_neg hroot]
    generalize forPorts P (fun s i ↦ s.setPort i countTick) { s with helloTime := 0 } = s₁
      at hcounted
    obtain ⟨hquiet, hroot₁⟩ := hcounted
    refine ⟨[], ?_, fun h ↦ absurd h hroot⟩
    rw [checkTimers, checkHelloTimer, if_neg hroot₁, List.append_nil]
    refine Quiet.checkTimersAndParameters ?_
    split_ifs
    exacts [⟨rfl, hquiet.hellos, hquiet.root⟩, hquiet]

/-! ### Runs -/

/-- The other events call nothing. -/
theorem Quiet.handle {event : STPEvent} (h : Quiet P 0 hellos s) (hevent : event ≠ .tick) :
    Quiet P 0 hellos (s.handle P event) := by
  cases event with
  | advance t => exact ⟨h.helloTime, h.hellos, h.root⟩
  | tick => exact absurd rfl hevent
  | message controlInfo bpdu =>
    rw [STP.handle]
    split_ifs
    exacts [h, h.handleBPDU controlInfo bpdu, h.handleTCN controlInfo bpdu, h]
  | start => exact h.start
  | stop => exact ⟨h.helloTime, h.hellos, fun h ↦ by cases h⟩

/-- **Every state** between two events. -/
theorem quiet_of_run {tr : List (Transition STP STPEvent Output)} (hrun : (system P).Run tr s) :
    Quiet P 0 s.hellos s := by
  refine hrun.invariant (I := fun s ↦ Quiet P 0 s.hellos s) ?_ fun s event output s' h hstep ↦ ?_
  · rintro s ⟨port, now, rfl⟩
    exact ⟨rfl, rfl, fun h ↦ by cases h⟩
  · obtain ⟨-, hhandle, -⟩ := hstep
    have hcleared : Quiet P 0 [] { s with sent := [], hellos := [] } := ⟨h.helloTime, rfl, h.root⟩
    by_cases hevent : event = .tick
    · obtain ⟨calls, hticked, -⟩ := hcleared.handleTick
      rw [← hhandle, hevent]
      exact ⟨hticked.helloTime, rfl, hticked.root⟩
    · have hquiet := hcleared.handle hevent
      rw [hhandle] at hquiet
      exact ⟨hquiet.helloTime, rfl, hquiet.root⟩

/-- The hello time of the parameters, in ticks. -/
def helloTicks (P : STPParameters) : ℕ :=
  (P.helloTime + tickInterval - 1) / tickInterval

/-- **The root keeps the hello interval**: from some time on, `generateHelloBDPUs` is called at the
ticks that come after a multiple of the hello time, and what it sends carries the parameters. -/
structure KeepsHelloInterval (P : STPParameters) (tr : List (Transition STP STPEvent Output)) :
    Prop where
  called : ∃ start : ℤ, ∀ t ∈ tr, t.output.hellos.length =
    if t.input = .tick ∧ ((helloTicks P * tickInterval : ℕ) : ℤ) ∣ t.pre.now - start then 1 else 0
  carried : ∀ t ∈ tr, ∀ hello ∈ t.output.hellos, ∀ x ∈ hello,
    x.1.helloTime = P.helloTime ∧ x.1.maxAge = P.maxAge ∧ x.1.forwardDelay = P.forwardDelay

/-- A bridge that stays root keeps the hello interval as long as it does not tick, and no longer. -/
theorem keepsHelloInterval_iff {before tr : List (Transition STP STPEvent Output)}
    (hrun : (system P).Run before s) (hpath : (system P).Path s tr s')
    (hroot : ∀ t ∈ tr, t.pre.isRoot = true ∧ t.post.isRoot = true)
    (hhelloTime : tickInterval ≤ P.helloTime) :
    KeepsHelloInterval P tr ↔ ∀ t ∈ tr, t.input ≠ .tick := by
  have htake (t : Transition STP STPEvent Output) (ht : t ∈ tr) :
      (system P).Takes t ∧ Quiet P 0 [] { t.pre with sent := [], hellos := [] } := by
    have htr := List.mem_append_right before ht
    obtain ⟨tr₁, hpre⟩ := (hrun.append hpath).reachable_pre htr
    have hquiet := quiet_of_run hpre
    exact ⟨(hrun.append hpath).takes htr, hquiet.helloTime, rfl, hquiet.root⟩
  constructor
  · intro hkeeps t ht htick
    obtain ⟨⟨-, hhandle, houtput⟩, hquiet⟩ := htake t ht
    obtain ⟨calls, hticked, hsaid⟩ := hquiet.handleTick
    obtain ⟨hello, rfl, hlength, hcarried⟩ := hsaid (hroot t ht).1
    -- the first of the messages announces another hello time
    obtain ⟨x, hx⟩ := List.exists_mem_of_length_pos (hlength.symm ▸ P.numPorts_pos)
    have hmem : hello ∈ t.output.hellos := by
      rw [houtput, ← hhandle, htick]
      show hello ∈ ({ t.pre with sent := [], hellos := [] }.handleTick P).hellos
      rw [hticked.hellos]
      exact List.mem_singleton_self hello
    have hzero := (hcarried x hx).1.symm.trans (hkeeps.carried t ht hello hmem x hx).1
    rw [← hzero] at hhelloTime
    exact absurd hhelloTime (by decide)
  · intro hnone
    have hsilent (t : Transition STP STPEvent Output) (ht : t ∈ tr) : t.output.hellos = [] := by
      obtain ⟨⟨-, hhandle, houtput⟩, hquiet⟩ := htake t ht
      rw [houtput, ← hhandle]
      exact (hquiet.handle (hnone t ht)).hellos
    refine ⟨⟨0, fun t ht ↦ ?_⟩, fun t ht hello hhello ↦ ?_⟩
    · rw [hsilent t ht, if_neg fun h ↦ hnone t ht h.1]
      rfl
    · rw [hsilent t ht] at hhello
      cases hhello

/-- A bridge with one port and the default parameters. -/
def defaultParameters : STPParameters where
  numPorts := 1
  bridgePriority := 32768
  bridgeAddress := ⟨0x0AAA00000001⟩
  maxAge := SimTime.ms 20000
  helloTime := SimTime.ms 2000
  forwardDelay := SimTime.ms 15000
  numPorts_pos := Nat.one_pos

/-- What an event leads to. -/
def after (P : STPParameters) (s : STP) (event : STPEvent) : STP × Output :=
  let s' := { s with sent := [], hellos := [] }.handle P event
  (s', ⟨s'.sent, s'.hellos⟩)

theorem step_after (s : STP) (event : STPEvent) (h : s.Allowed P event) :
    (system P).Step s event (after P s event).2 (after P s event).1 :=
  ⟨h, rfl, rfl⟩

/-- The bridge has started. -/
def started : STP :=
  (after defaultParameters { port := fun _ ↦ {} } .start).1

theorem started_run : (system defaultParameters).Run
    [⟨{ port := fun _ ↦ {} }, .start, (after defaultParameters { port := fun _ ↦ {} } .start).2,
      started⟩] started := by
  have hinit : (system defaultParameters).Run [] { port := fun _ ↦ {} } := .nil ⟨_, 0, rfl⟩
  exact hinit.snoc (step_after _ .start rfl)

/-- Before its first tick the bridge says nothing. -/
theorem keepsHelloInterval_advance : KeepsHelloInterval defaultParameters
    [⟨started, .advance tickInterval, (after defaultParameters started (.advance tickInterval)).2,
      (after defaultParameters started (.advance tickInterval)).1⟩] := by
  refine (keepsHelloInterval_iff started_run (.single (step_after _ _ ?_)) ?_ (by decide)).2 ?_
  · exact ⟨Nat.zero_le _, fun u hu ↦ (Option.some.inj hu).le⟩
  · exact List.forall_mem_singleton.2 ⟨rfl, rfl⟩
  · exact List.forall_mem_singleton.2 fun h ↦ by cases h

/-- At its first tick, after one second, the bridge announces the hello time zero. -/
theorem not_keepsHelloInterval_tick :
    ¬ ∀ (P : STPParameters) (before tr : List (Transition STP STPEvent Output)) (s s' : STP),
      (system P).Run before s → (system P).Path s tr s' →
        (∀ t ∈ tr, t.pre.isRoot = true ∧ t.post.isRoot = true) → tickInterval ≤ P.helloTime →
          KeepsHelloInterval P tr := by
  intro h
  have hadvance := step_after (P := defaultParameters) started (.advance tickInterval)
    ⟨Nat.zero_le _, fun u hu ↦ (Option.some.inj hu).le⟩
  have htick := step_after (P := defaultParameters)
    (after defaultParameters started (.advance tickInterval)).1 .tick rfl
  have hkeeps := h _ _ _ _ _ started_run (.cons hadvance (.single htick))
    (List.forall_mem_cons.2 ⟨⟨rfl, rfl⟩, List.forall_mem_singleton.2 ⟨rfl, rfl⟩⟩) (by decide)
  have hcarried := hkeeps.carried _ (List.mem_cons_of_mem _ List.mem_cons_self) _
    List.mem_cons_self _ List.mem_cons_self
  exact absurd hcarried.1 (by decide)

end STP

end Inet
