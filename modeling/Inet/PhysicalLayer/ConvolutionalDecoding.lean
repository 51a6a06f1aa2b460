import Inet.PhysicalLayer.ConvolutionalEncoding

/-!
# Decoding as a search for the cheapest path

After every symbol the trellis graph has, for every state that a path leads to, the last step of a
cheapest one (`Survivors`): a turn of the decoder shows the table every step that goes on from a
state that has been reached, and the table keeps the cheapest, whatever it draws at a tie
(`survivors_updateTrellisGraph`). Going back from the cheapest state that is allowed gives a string
that is encoded closest to what has been received (`decodesBest_iff`), as long as the first input
has a register. Otherwise the numbers of the states are wrong, and the decoder leaves its tables.
-/

namespace Inet.ConvolutionalCoder

open BitVector Trellis

variable {c : ConvolutionalCoder} {dblrand : ℕ → ℚ} {isPunctured full : List Bool}
  {s p d n m time : ℕ} {g : TrellisGraph} {u : Update}

/-- What it costs to reach a node. -/
def TrellisGraphNode.cost (node : TrellisGraphNode) : ℕ :=
  if node.comulativeHammingDistance ≠ INT32_MAX then node.comulativeHammingDistance else 0

theorem TrellisGraphNode.cost_le_distance (node : TrellisGraphNode) :
    node.cost ≤ node.comulativeHammingDistance := by
  rw [cost]
  split_ifs
  exacts [le_rfl, Nat.zero_le _]

/-- The states that have been reached, with the costs. -/
def best (g : TrellisGraph) (n s : ℕ) : Option ℕ :=
  if (g s n).state.isSome then some (g s n).cost else none

theorem best_eq_some {k : ℕ} : best g n s = some k ↔ (g s n).state.isSome ∧ (g s n).cost = k := by
  rw [best]
  split_ifs with h
  · simp only [Option.some.injEq, h, true_and]
  · simp only [reduceCtorEq, h, false_and]

/-- The node of a state that has been reached by a step of the cheapest path. -/
structure IsStep (c : ConvolutionalCoder) (isPunctured full : List Bool) (g : TrellisGraph)
    (n s : ℕ) (node : TrellisGraphNode) (p d : ℕ) : Prop where
  prevState : node.prevState = some p
  symbol : node.symbol = some d
  depth : node.depth = n + 1
  state : node.state = some s
  next_eq : c.next p d = s
  mem : d ∈ c.inputs
  prev_lt : p < c.numberOfStates
  reached : (g p n).state.isSome
  distance : node.comulativeHammingDistance = (g p n).cost + c.stepCost isPunctured full n p d

/-- The cost is what is stored, as there are not as many bits. -/
theorem IsStep.cost_eq {node : TrellisGraphNode} (h : IsStep c isPunctured full g n s node p d)
    (hcost : (g p n).cost ≤ n * c.codeRateParamaterN)
    (hlength : (n + 1) * c.codeRateParamaterN ≤ isPunctured.length)
    (hfull : full.length = isPunctured.length) (hfit : isPunctured.length < INT32_MAX) :
    node.cost = (g p n).cost + c.stepCost isPunctured full n p d := by
  have hbound := stepCost_le h.prev_lt h.mem hlength hfull
  rw [Nat.succ_mul] at hlength
  rw [← h.distance, TrellisGraphNode.cost, if_pos]
  rw [h.distance]
  omega

/-- The trellis graph after `n` symbols. -/
structure Survivors (c : ConvolutionalCoder) (isPunctured full : List Bool) (n : ℕ)
    (g : TrellisGraph) : Prop where
  start : g 0 0 = { state := some 0 }
  other : ∀ s ≠ 0, g s 0 = {}
  unreached : ∀ s m, (g s m).state = none → g s m = {}
  later : ∀ s m, n < m → g s m = {}
  step : ∀ s, ∀ m < n, (g s (m + 1)).state.isSome →
    ∃ p d, IsStep c isPunctured full g m s (g s (m + 1)) p d
  optimal : ∀ m ≤ n, Optimal c.next (c.stepCost isPunctured full) c.inputs 0 m (best g m)

namespace Survivors

theorem lt_numberOfStates (h : Survivors c isPunctured full n g) (hfirst : c.HasFirstRegister)
    (hs : (g s m).state.isSome) : s < c.numberOfStates := by
  rcases Nat.lt_or_ge n m with hlt | hle
  · rw [h.later s m hlt] at hs
    cases hs
  · cases m with
    | zero =>
      by_cases hzero : s = 0
      · rw [hzero]
        exact numberOfStates_pos
      · rw [h.other s hzero] at hs
        cases hs
    | succ m =>
      obtain ⟨p, d, hstep⟩ := h.step s m hle hs
      rw [← hstep.next_eq]
      exact (stateTransitions_eq_next hfirst hstep.prev_lt hstep.mem).2

/-- A node knows how many symbols there are before it. -/
theorem depth_eq (h : Survivors c isPunctured full n g) (hm : m ≤ n) (hs : (g s m).state.isSome) :
    (g s m).depth = m := by
  cases m with
  | zero =>
    by_cases hzero : s = 0
    · rw [hzero, h.start]
    · rw [h.other s hzero] at hs
      cases hs
  | succ m =>
    obtain ⟨p, d, hstep⟩ := h.step s m hm hs
    exact hstep.depth

/-- The cost of a node is at most the number of the bits. -/
theorem cost_le (h : Survivors c isPunctured full n g)
    (hlength : n * c.codeRateParamaterN ≤ isPunctured.length)
    (hfull : full.length = isPunctured.length) (hle : m ≤ n) (hs : (g s m).state.isSome) :
    (g s m).cost ≤ m * c.codeRateParamaterN := by
  induction m generalizing s with
  | zero =>
    by_cases hzero : s = 0
    · rw [hzero, h.start]
      exact Nat.zero_le _
    · rw [h.other s hzero] at hs
      cases hs
  | succ m ih =>
    obtain ⟨p, d, hstep⟩ := h.step s m hle hs
    have hprev := ih (Nat.le_of_succ_le hle) hstep.reached
    have hchunk : (m + 1) * c.codeRateParamaterN ≤ isPunctured.length :=
      (Nat.mul_le_mul_right _ hle).trans hlength
    have hcost := stepCost_le hstep.prev_lt hstep.mem hchunk hfull
    have hself := (g s (m + 1)).cost_le_distance
    rw [hstep.distance] at hself
    rw [Nat.succ_mul]
    omega

/-- **Before the first symbol** only the zero state has been reached. -/
theorem initial : Survivors c isPunctured full 0 initialGraph where
  start := rfl
  other s hs := if_neg fun h ↦ hs h.1
  unreached s m h := by
    rw [initialGraph] at h ⊢
    split_ifs at h ⊢
    rfl
  later s m hm := if_neg fun h ↦ hm.ne' h.2
  step s m hm := absurd hm (Nat.not_lt_zero m)
  optimal m hm := by
    obtain rfl := Nat.le_zero.1 hm
    refine .zero rfl fun s hs ↦ ?_
    have hempty : initialGraph s 0 = {} := if_neg fun h ↦ hs h.1
    rw [best, hempty]
    rfl

end Survivors

/-! ### One symbol -/

/-- The node that a step leads to. -/
def stepNode (g : TrellisGraph) (n p hammingDistance d newState : ℕ) : TrellisGraphNode where
  symbol := some d
  state := some newState
  prevState := some p
  comulativeHammingDistance := hammingDistance + (g p n).cost
  numberOfErrors := (g p n).numberOfErrors + if 0 < hammingDistance then 1 else 0
  depth := (g p n).depth + 1

/-- The nodes that have been reached by now, at time `n + 1`. -/
def table (u : Update) (n s : ℕ) : Option TrellisGraphNode :=
  if (u.trellisGraph s (n + 1)).state.isSome then some (u.trellisGraph s (n + 1)) else none

/-- After some of the steps that go on from `g`. -/
structure Updating (g : TrellisGraph) (n : ℕ) (candidates : List (ℕ × TrellisGraphNode))
    (u : Update) : Prop where
  frame : ∀ s m, m ≠ n + 1 → u.trellisGraph s m = g s m
  unreached : ∀ s, (u.trellisGraph s (n + 1)).state = none → u.trellisGraph s (n + 1) = {}
  cheapest : Cheapest (fun node : TrellisGraphNode ↦ node.comulativeHammingDistance) candidates
    (table u n)

variable {candidates : List (ℕ × TrellisGraphNode)} {k newState : ℕ}

/-- The node is written. -/
theorem Updating.replace (h : Updating g n candidates u) (tieBreakingCounter draws : ℕ)
    (hle : k + (g p n).cost ≤ (u.trellisGraph newState (n + 1)).comulativeHammingDistance) :
    Updating g n (candidates ++ [(newState, stepNode g n p k d newState)])
      ⟨Function.update u.trellisGraph newState (Function.update (u.trellisGraph newState) (n + 1)
        (stepNode g n p k d newState)), tieBreakingCounter, draws⟩ where
  frame s m hm := by
    by_cases hs : s = newState
    · rw [hs]
      simp only [Function.update_self, Function.update_of_ne hm]
      exact h.frame newState m hm
    · simp only [Function.update_of_ne hs]
      exact h.frame s m hm
  unreached s hs := by
    by_cases heq : s = newState
    · rw [heq] at hs
      simp only [Function.update_self] at hs
      cases hs
    · simp only [Function.update_of_ne heq] at hs ⊢
      exact h.unreached s hs
  cheapest := by
    refine h.cheapest.replace (fun w hw ↦ ?_) ?_ fun s hs ↦ ?_
    · rw [table] at hw
      split_ifs at hw
      rw [← Option.some.inj hw]
      exact hle
    · simp only [table, Function.update_self, stepNode, Option.isSome_some, if_true]
    · simp only [table, Function.update_of_ne hs]

/-- **A step is shown to the table.** -/
theorem Updating.relax (h : Updating g n candidates u) (hlt : k + (g p n).cost < INT32_MAX) :
    Updating g n (candidates ++ [(newState, stepNode g n p k d newState)])
      (relax dblrand n p k d newState u) := by
  have hnode : u.trellisGraph p n = g p n := h.frame p n (Nat.lt_succ_self n).ne
  have hreached (hle : (u.trellisGraph newState (n + 1)).comulativeHammingDistance ≤
      k + (g p n).cost) : table u n newState = some (u.trellisGraph newState (n + 1)) := by
    refine if_pos (Option.isSome_iff_ne_none.2 fun hnone ↦ ?_)
    rw [h.unreached newState hnone] at hle
    exact absurd hle (Nat.not_le.2 hlt)
  let replaced : TrellisGraph := Function.update u.trellisGraph newState
    (Function.update (u.trellisGraph newState) (n + 1) (stepNode g n p k d newState))
  have hrelax : ConvolutionalCoder.relax dblrand n p k d newState u =
      if k + (g p n).cost = (u.trellisGraph newState (n + 1)).comulativeHammingDistance then
        if dblrand u.draws < 1 / ((u.tieBreakingCounter + 1 : ℕ) : ℚ) then
          ⟨replaced, u.tieBreakingCounter + 1, u.draws + 1⟩
        else ⟨u.trellisGraph, u.tieBreakingCounter + 1, u.draws + 1⟩
      else if k + (g p n).cost < (u.trellisGraph newState (n + 1)).comulativeHammingDistance then
        ⟨replaced, 0, u.draws⟩
      else u := by
    rw [ConvolutionalCoder.relax, hnode]
    rfl
  rw [hrelax]
  split_ifs with heq htie hless
  · exact h.replace _ _ heq.le
  · exact ⟨h.frame, h.unreached, h.cheapest.keep (hreached heq.ge) heq.ge⟩
  · exact h.replace _ _ hless.le
  · exact ⟨h.frame, h.unreached, h.cheapest.keep (hreached (Nat.not_lt.1 hless))
      (Nat.not_lt.1 hless)⟩

/-! ### All the steps -/

/-- The step of an output symbol. -/
def candidate (c : ConvolutionalCoder) (isPunctured full : List Bool) (g : TrellisGraph) (n p j : ℕ) :
    Option (ℕ × TrellisGraphNode) :=
  (c.inputSymbols (p, j)).map fun d ↦
    (c.next p d, stepNode g n p (c.stepCost isPunctured full n p d) d (c.next p d))

/-- The steps that go on from a state. -/
def candidatesOf (c : ConvolutionalCoder) (isPunctured full : List Bool) (g : TrellisGraph)
    (n p : ℕ) : List (ℕ × TrellisGraphNode) :=
  if (g p n).state.isSome then
    (List.range c.numberOfOutputSymbols).filterMap (c.candidate isPunctured full g n p)
  else []

/-- What the tables have for an output symbol. -/
theorem inputSymbols_spec {j : ℕ} (hp : p < c.numberOfStates)
    (h : c.inputSymbols (p, j) = some d) :
    d ∈ c.inputs ∧ c.decimalToOutputSymbol j = c.outputSymbols (p, d) := by
  obtain ⟨state, hstate, rfl⟩ := exists_reverseToDecimal hp
  obtain ⟨inputSymbol, hinput, rfl, rfl⟩ := exists_of_inputSymbols hstate h
  rw [outputSymbols_eq hstate hinput, decimalToOutputSymbol,
    ← length_inputSymbolToOutputSymbol state inputSymbol, decimalToSymbol_eq]
  refine ⟨?_, rfl⟩
  have hlt := reverseToDecimal_lt inputSymbol
  rwa [hinput] at hlt

/-- Every input symbol has an output symbol. -/
theorem exists_inputSymbols (h : c.Distinguishes) (hp : p < c.numberOfStates) (hd : d ∈ c.inputs) :
    ∃ j < c.numberOfOutputSymbols, c.inputSymbols (p, j) = some d := by
  obtain ⟨state, hstate, rfl⟩ := exists_reverseToDecimal hp
  obtain ⟨inputSymbol, hinput, rfl⟩ := exists_reverseToDecimal hd
  refine ⟨_, ?_, inputSymbols_eq h hstate hinput⟩
  have hlt := reverseToDecimal_lt (c.inputSymbolToOutputSymbol state inputSymbol)
  rwa [length_inputSymbolToOutputSymbol] at hlt

section

variable (hfirst : c.HasFirstRegister) (hlength : (n + 1) * c.codeRateParamaterN ≤ isPunctured.length)
  (hfull : full.length = isPunctured.length) (hfit : isPunctured.length < INT32_MAX)

include hfirst hlength hfull hfit

theorem exists_updateState (hg : Survivors c isPunctured full n g)
    (h : Updating g n candidates u) (hp : p < c.numberOfStates) :
    ∃ u', c.updateState dblrand n (c.chunk n full) ((c.chunk n isPunctured).map not) u p = .ok u' ∧
      Updating g n (candidates ++ c.candidatesOf isPunctured full g n p) u' := by
  have hnode : u.trellisGraph p n = g p n := h.frame p n (Nat.lt_succ_self n).ne
  rw [updateState, candidatesOf, hnode]
  split_ifs with hreached
  · refine exists_foldlM_eq_ok (fun js u ↦ Updating g n
      (candidates ++ js.filterMap (c.candidate isPunctured full g n p)) u) ?_ fun js j u _ hu ↦ ?_
    · rwa [List.filterMap_nil, List.append_nil]
    · rw [List.filterMap_append, ← List.append_assoc]
      cases hj : c.inputSymbols (p, j) with
      | none =>
        have hnone : c.candidate isPunctured full g n p j = none := by rw [candidate, hj]; rfl
        refine ⟨u, rfl, ?_⟩
        rwa [List.filterMap_cons_none hnone, List.filterMap_nil, List.append_nil]
      | some d =>
        obtain ⟨hd, houtput⟩ := inputSymbols_spec hp hj
        obtain ⟨hnext, hlt⟩ := stateTransitions_eq_next hfirst hp hd
        have hcost := hg.cost_le (by rw [Nat.succ_mul] at hlength; omega) hfull le_rfl hreached
        have hstep := stepCost_le hp hd hlength hfull
        have hbound : c.stepCost isPunctured full n p d + (g p n).cost < INT32_MAX := by
          rw [Nat.succ_mul] at hlength
          omega
        have hsome : c.candidate isPunctured full g n p j = some (c.next p d,
            stepNode g n p (c.stepCost isPunctured full n p d) d (c.next p d)) := by
          rw [candidate, hj, Option.map_some]
        refine ⟨ConvolutionalCoder.relax dblrand n p (c.stepCost isPunctured full n p d) d
          (c.next p d) u, ?_, ?_⟩
        · show (c.checkState (c.stateTransitions (p, d)) >>= _) = _
          rw [hnext, checkState_of_lt hlt, houtput]
          rfl
        · rw [List.filterMap_cons_some hsome, List.filterMap_nil]
          exact hu.relax hbound
  · refine ⟨u, rfl, ?_⟩
    rwa [List.append_nil]

variable (dblrand) in
/-- **All steps are shown to the table.** -/
theorem exists_updateTrellisGraph (hg : Survivors c isPunctured full n u.trellisGraph) :
    ∃ u', c.updateTrellisGraph dblrand n (c.chunk n full) ((c.chunk n isPunctured).map not) u =
        .ok u' ∧ Updating u.trellisGraph n ((List.range c.numberOfStates).flatMap
          (c.candidatesOf isPunctured full u.trellisGraph n)) u' := by
  refine exists_foldlM_eq_ok (fun ps u' ↦ Updating u.trellisGraph n
    (ps.flatMap (c.candidatesOf isPunctured full u.trellisGraph n)) u') ?_ fun ps p u' hp hu ↦ ?_
  · refine ⟨fun _ _ _ ↦ rfl, fun s _ ↦ hg.later s (n + 1) (Nat.lt_succ_self n), .nil fun s ↦ ?_⟩
    refine if_neg ?_
    show ¬ (u.trellisGraph s (n + 1)).state.isSome
    rw [hg.later s (n + 1) (Nat.lt_succ_self n)]
    exact Bool.false_ne_true
  · rw [List.flatMap_append, List.flatMap_singleton]
    exact exists_updateState hfirst hlength hfull hfit hg hu (List.mem_range.1 hp)

end

/-- What has been shown to the table. -/
theorem mem_candidates {t : ℕ} {node : TrellisGraphNode} :
    (t, node) ∈ (List.range c.numberOfStates).flatMap (c.candidatesOf isPunctured full g n) ↔
      ∃ p < c.numberOfStates, (g p n).state.isSome ∧ ∃ j < c.numberOfOutputSymbols, ∃ d,
        c.inputSymbols (p, j) = some d ∧ c.next p d = t ∧
          stepNode g n p (c.stepCost isPunctured full n p d) d t = node := by
  rw [List.mem_flatMap]
  constructor
  · rintro ⟨p, hp, hmem⟩
    rw [candidatesOf] at hmem
    split_ifs at hmem with hreached
    · obtain ⟨j, hj, hcandidate⟩ := List.mem_filterMap.1 hmem
      obtain ⟨d, hd, heq⟩ := Option.map_eq_some_iff.1 hcandidate
      rw [Prod.mk.injEq] at heq
      obtain ⟨rfl, rfl⟩ := heq
      exact ⟨p, List.mem_range.1 hp, hreached, j, List.mem_range.1 hj, d, hd, rfl, rfl⟩
    · cases hmem
  · rintro ⟨p, hp, hreached, j, hj, d, hd, rfl, rfl⟩
    refine ⟨p, List.mem_range.2 hp, ?_⟩
    rw [candidatesOf, if_pos hreached]
    exact List.mem_filterMap.2 ⟨j, List.mem_range.2 hj, by rw [candidate, hd, Option.map_some]⟩

theorem table_eq_some {node : TrellisGraphNode} : table u n s = some node ↔
    (u.trellisGraph s (n + 1)).state.isSome ∧ u.trellisGraph s (n + 1) = node := by
  rw [table]
  split_ifs with h
  · simp only [Option.some.injEq, h, true_and]
  · simp only [reduceCtorEq, h, false_and]

variable (dblrand) in
/-- **One more symbol.** -/
theorem survivors_updateTrellisGraph (hfirst : c.HasFirstRegister) (hdistinct : c.Distinguishes)
    (hlength : (n + 1) * c.codeRateParamaterN ≤ isPunctured.length)
    (hfull : full.length = isPunctured.length) (hfit : isPunctured.length < INT32_MAX)
    (hg : Survivors c isPunctured full n u.trellisGraph) :
    ∃ u', c.updateTrellisGraph dblrand n (c.chunk n full) ((c.chunk n isPunctured).map not) u =
        .ok u' ∧ Survivors c isPunctured full (n + 1) u'.trellisGraph := by
  obtain ⟨u', heq, hu⟩ := exists_updateTrellisGraph dblrand hfirst hlength hfull hfit hg
  have hframe (s m : ℕ) (hm : m ≤ n) : u'.trellisGraph s m = u.trellisGraph s m :=
    hu.frame s m (by omega)
  have hbest (m : ℕ) (hm : m ≤ n) : best u'.trellisGraph m = best u.trellisGraph m := by
    funext s
    rw [best, best, hframe s m hm]
  -- every node that has been written is a step from a state that has been reached
  have hstep (s : ℕ) (hs : (u'.trellisGraph s (n + 1)).state.isSome) :
      ∃ p d, IsStep c isPunctured full u'.trellisGraph n s (u'.trellisGraph s (n + 1)) p d := by
    obtain ⟨p, hp, hreached, j, hj, d, hd, hnext, hnode⟩ :=
      mem_candidates.1 (hu.cheapest.mem s _ (table_eq_some.2 ⟨hs, rfl⟩))
    have hdepth := hg.depth_eq le_rfl hreached
    refine ⟨p, d, ?_⟩
    rw [← hnode]
    refine ⟨rfl, rfl, congrArg (· + 1) hdepth, rfl, hnext, (inputSymbols_spec hp hd).1, hp, ?_, ?_⟩
    · rwa [hframe p n le_rfl]
    · rw [hframe p n le_rfl]
      exact Nat.add_comm _ _
  refine ⟨u', heq, ?_, ?_, ?_, ?_, ?_, ?_⟩
  · rw [hframe 0 0 (Nat.zero_le n), hg.start]
  · intro s hs
    rw [hframe s 0 (Nat.zero_le n), hg.other s hs]
  · intro s m hnone
    by_cases hm : m = n + 1
    · subst hm
      exact hu.unreached s hnone
    · rw [hu.frame s m hm] at hnone ⊢
      exact hg.unreached s m hnone
  · intro s m hm
    rw [hu.frame s m hm.ne', hg.later s m (by omega)]
  · intro s m hm hs
    rcases Nat.lt_succ_iff_lt_or_eq.1 hm with hlt | rfl
    · rw [hframe s (m + 1) hlt] at hs ⊢
      obtain ⟨p, d, hold⟩ := hg.step s m hlt hs
      refine ⟨p, d, hold.prevState, hold.symbol, hold.depth, hold.state, hold.next_eq, hold.mem,
        hold.prev_lt, ?_, ?_⟩
      · rw [hframe p m (by omega)]
        exact hold.reached
      · rw [hframe p m (by omega)]
        exact hold.distance
    · exact hstep s hs
  · intro m hm
    rcases Nat.le_succ_iff.1 hm with hle | rfl
    · rw [hbest m hle]
      exact hg.optimal m hle
    · have hoptimal := hg.optimal n le_rfl
      refine hoptimal.succ (fun t k ht ↦ ?_) fun s k i hs hi ↦ ?_
      · obtain ⟨hreached, rfl⟩ := best_eq_some.1 ht
        obtain ⟨p, d, hpd⟩ := hstep t hreached
        have hp := hpd.reached
        rw [hframe p n le_rfl] at hp
        have hcost := hg.cost_le (by rw [Nat.succ_mul] at hlength; omega) hfull le_rfl hp
        rw [← hframe p n le_rfl] at hcost hp
        refine ⟨p, _, d, ?_, hpd.mem, hpd.next_eq, hpd.cost_eq hcost hlength hfull hfit⟩
        rw [← hbest n le_rfl]
        exact best_eq_some.2 ⟨hp, rfl⟩
      · obtain ⟨hreached, rfl⟩ := best_eq_some.1 hs
        have hlt := hg.lt_numberOfStates hfirst hreached
        obtain ⟨j, hj, hi'⟩ := exists_inputSymbols hdistinct hlt hi
        obtain ⟨w, hw, hle⟩ := hu.cheapest.le _ _
          (mem_candidates.2 ⟨s, hlt, hreached, j, hj, i, hi', rfl, rfl⟩)
        obtain ⟨hreached', rfl⟩ := table_eq_some.1 hw
        refine ⟨_, ?_, best_eq_some.2 ⟨hreached', rfl⟩⟩
        refine (TrellisGraphNode.cost_le_distance _).trans (hle.trans ?_)
        exact (Nat.add_comm _ _).le

/-! ### The run -/

theorem giveNextOutputSymbol_eq (h : (n + 1) * c.codeRateParamaterN ≤ full.length) :
    c.giveNextOutputSymbol full isPunctured n = (c.chunk n full, (c.chunk n isPunctured).map not) :=
  if_neg (Nat.not_lt.2 h)

variable (dblrand) in
/-- **The loop ends** after the last symbol. -/
theorem exists_decodeLoop (hfirst : c.HasFirstRegister) (hdistinct : c.Distinguishes) {t : ℕ}
    (hlength : isPunctured.length = t * c.codeRateParamaterN)
    (hfull : full.length = isPunctured.length) (hfit : isPunctured.length < INT32_MAX) {fuel : ℕ}
    (hfuel : t < n + fuel) (hn : n ≤ t) (hg : Survivors c isPunctured full n u.trellisGraph) :
    ∃ u', c.decodeLoop dblrand full isPunctured fuel n u = .ok (t, u') ∧
      Survivors c isPunctured full t u'.trellisGraph := by
  have hpos := c.codeRateParamaterN_pos
  induction fuel generalizing n u with
  | zero => omega
  | succ fuel ih =>
    rw [decodeLoop]
    rcases hn.lt_or_eq with hlt | rfl
    · have hchunk : (n + 1) * c.codeRateParamaterN ≤ isPunctured.length := by
        rw [hlength]
        exact Nat.mul_le_mul_right _ hlt
      obtain ⟨u', hupdate, hg'⟩ := survivors_updateTrellisGraph dblrand hfirst hdistinct
        hchunk hfull hfit hg
      obtain ⟨u'', hloop, hg''⟩ := ih (by omega) hlt hg'
      refine ⟨u'', ?_, hg''⟩
      have hne : ¬ (c.chunk n full).isEmpty = true := by
        rw [List.isEmpty_iff_length_eq_zero, length_chunk (by rwa [hfull])]
        omega
      rw [giveNextOutputSymbol_eq (by rwa [hfull])]
      simp only [if_neg hne, hupdate]
      exact hloop
    · have hend : c.giveNextOutputSymbol full isPunctured n =
          ([], List.replicate c.codeRateParamaterN true) := by
        refine if_pos ?_
        rw [hfull, hlength, Nat.succ_mul]
        omega
      rw [hend]
      exact ⟨u, rfl, hg⟩

/-! ### Going back -/

/-- The state before, and the input symbol, of the last step to a state. -/
def prev (g : TrellisGraph) (m s : ℕ) : ℕ :=
  (g s m).prevState.getD 0

def symbol (g : TrellisGraph) (m s : ℕ) : ℕ :=
  (g s m).symbol.getD 0

namespace Survivors

variable (h : Survivors c isPunctured full n g)

include h

/-- **Going back** from a state gives the bits of a cheapest path to it, the last first. -/
theorem goBack_eq (hs : (g s n).state.isSome) :
    c.goBack g (g s n).depth (g s n) =
      .ok (c.bitsOf (trace (prev g) (symbol g) n s)).reverse := by
  rw [h.depth_eq le_rfl hs]
  have hback (m : ℕ) (hm : m ≤ n) (s : ℕ) (hs : (g s m).state.isSome) :
      c.goBack g m (g s m) = .ok (c.bitsOf (trace (prev g) (symbol g) m s)).reverse := by
    induction m generalizing s with
    | zero => rfl
    | succ m ih =>
      obtain ⟨p, d, hstep⟩ := h.step s m hm hs
      have hprev : prev g (m + 1) s = p := by rw [prev, hstep.prevState, Option.getD_some]
      have hsymbol : symbol g (m + 1) s = d := by rw [symbol, hstep.symbol, Option.getD_some]
      rw [goBack, trace, hprev, hsymbol, hstep.prevState, hstep.symbol]
      simp only [checkState_of_lt hstep.prev_lt]
      show (c.goBack g m (g p m) >>= _) = _
      rw [ih (Nat.le_of_succ_le hm) p hstep.reached, bitsOf, bitsOf, List.flatMap_append,
        List.flatMap_singleton, List.reverse_append]
      rfl
  exact hback n le_rfl s hs

/-- **The path is a cheapest one** to its end. -/
theorem trace_spec (hlength : n * c.codeRateParamaterN ≤ isPunctured.length)
    (hfull : full.length = isPunctured.length) (hfit : isPunctured.length < INT32_MAX)
    (hs : (g s n).state.isSome) :
    IsPath c.next c.inputs 0 n s (trace (prev g) (symbol g) n s) ∧
      pathCost c.next (c.stepCost isPunctured full) 0 0 (trace (prev g) (symbol g) n s) =
        (g s n).cost := by
  refine Trellis.trace_spec (best g) (fun s k hk ↦ ?_) (fun m hm s k hk ↦ ?_)
    (best_eq_some.2 ⟨hs, rfl⟩)
  · obtain ⟨hreached, rfl⟩ := best_eq_some.1 hk
    by_cases hzero : s = 0
    · rw [hzero, h.start]
      exact ⟨rfl, rfl⟩
    · rw [h.other s hzero] at hreached
      cases hreached
  · obtain ⟨hreached, rfl⟩ := best_eq_some.1 hk
    obtain ⟨p, d, hstep⟩ := h.step s m hm hreached
    have hprev : prev g (m + 1) s = p := by rw [prev, hstep.prevState, Option.getD_some]
    have hsymbol : symbol g (m + 1) s = d := by rw [symbol, hstep.symbol, Option.getD_some]
    have hchunk : (m + 1) * c.codeRateParamaterN ≤ isPunctured.length :=
      (Nat.mul_le_mul_right _ hm).trans hlength
    have hcost := h.cost_le hlength hfull (Nat.le_of_succ_le hm) hstep.reached
    rw [hprev, hsymbol]
    exact ⟨hstep.mem, hstep.next_eq, _, best_eq_some.2 ⟨hstep.reached, rfl⟩,
      hstep.cost_eq hcost hchunk hfull hfit⟩

end Survivors

/-! ### The end of the path -/

/-- Zeros lead to the zero state. -/
theorem isPath_zeros (hfirst : c.HasFirstRegister) (n : ℕ) :
    IsPath c.next c.inputs 0 n 0 (List.replicate n 0) where
  length_eq := List.length_replicate
  mem d hd := by
    rw [List.eq_of_mem_replicate hd]
    exact zero_mem_inputs
  state := by
    induction n with
    | zero => rfl
    | succ n ih => rw [List.replicate_succ, List.foldl_cons, next_zero hfirst, ih]

namespace Survivors

theorem reached_zero (h : Survivors c isPunctured full n g) (hfirst : c.HasFirstRegister) :
    (g 0 n).state.isSome := by
  obtain ⟨k, -, hk⟩ := (h.optimal n le_rfl).least 0 _ (isPath_zeros hfirst n)
  exact (best_eq_some.1 hk).1

theorem cost_eq (h : Survivors c isPunctured full (n + 1) g)
    (hlength : (n + 1) * c.codeRateParamaterN ≤ isPunctured.length)
    (hfull : full.length = isPunctured.length) (hfit : isPunctured.length < INT32_MAX)
    (hs : (g s (n + 1)).state.isSome) :
    (g s (n + 1)).cost = (g s (n + 1)).comulativeHammingDistance := by
  obtain ⟨p, d, hstep⟩ := h.step s n (Nat.lt_succ_self n) hs
  rw [hstep.distance]
  exact hstep.cost_eq (h.cost_le hlength hfull (Nat.le_succ n) hstep.reached) hlength hfull hfit

/-- A node that has been reached has an input symbol. -/
theorem symbol_isSome (h : Survivors c isPunctured full (n + 1) g) :
    (g s (n + 1)).symbol.isSome ↔ (g s (n + 1)).state.isSome := by
  constructor
  · intro hsymbol
    refine Option.isSome_iff_ne_none.2 fun hnone ↦ ?_
    rw [h.unreached s _ hnone] at hsymbol
    cases hsymbol
  · intro hs
    obtain ⟨p, d, hstep⟩ := h.step s n (Nat.lt_succ_self n) hs
    rw [hstep.symbol]
    rfl

/-- The loop that chooses the end of the path. -/
theorem foldl_best (g : TrellisGraph) (time : ℕ) (is : List ℕ) (s : ℕ)
    (hs : (g s time).symbol.isSome) :
    ∃ t, is.foldl (fun best i ↦
        let currentNode := g i time
        if currentNode.symbol.isSome ∧
          currentNode.comulativeHammingDistance < best.comulativeHammingDistance then currentNode
        else best) (g s time) = g t time ∧ (g t time).symbol.isSome ∧
      ∀ i, i = s ∨ i ∈ is → (g i time).symbol.isSome →
        (g t time).comulativeHammingDistance ≤ (g i time).comulativeHammingDistance := by
  induction is generalizing s with
  | nil =>
    refine ⟨s, rfl, hs, fun i hi _ ↦ ?_⟩
    obtain rfl := hi.resolve_right List.not_mem_nil
    exact le_rfl
  | cons j is ih =>
    rw [List.foldl_cons]
    simp only
    split_ifs with hless
    · obtain ⟨t, heq, ht, hle⟩ := ih j hless.1
      refine ⟨t, heq, ht, fun i hi hsymbol ↦ ?_⟩
      rcases hi with rfl | hi
      · exact (hle j (.inl rfl) hless.1).trans hless.2.le
      · exact hle i (List.mem_cons.1 hi) hsymbol
    · obtain ⟨t, heq, ht, hle⟩ := ih s hs
      refine ⟨t, heq, ht, fun i hi hsymbol ↦ ?_⟩
      rcases hi with rfl | hi
      · exact hle i (.inl rfl) hsymbol
      · rcases List.mem_cons.1 hi with rfl | hi
        · refine (hle s (.inl rfl) hs).trans (Nat.not_lt.1 fun hlt ↦ hless ⟨hsymbol, hlt⟩)
        · exact hle i (.inr hi) hsymbol

/-- **The end that is chosen** is the zero state, or the cheapest one. -/
theorem exists_bestNode (h : Survivors c isPunctured full (n + 1) g) (hfirst : c.HasFirstRegister) :
    ∃ s, c.bestNode g (n + 1) = g s (n + 1) ∧ (g s (n + 1)).state.isSome ∧
      (c.mode = .terminated → s = 0) ∧ (c.mode = .truncated → ∀ i, (g i (n + 1)).state.isSome →
        (g s (n + 1)).comulativeHammingDistance ≤ (g i (n + 1)).comulativeHammingDistance) := by
  have hzero := h.reached_zero hfirst
  rw [bestNode]
  cases hmode : c.mode with
  | terminated => exact ⟨0, rfl, hzero, fun _ ↦ rfl, fun h ↦ absurd h (by decide)⟩
  | truncated =>
    obtain ⟨s, heq, hs, hle⟩ := foldl_best g (n + 1) (List.range c.numberOfStates).tail 0
      (h.symbol_isSome.2 hzero)
    refine ⟨s, heq, h.symbol_isSome.1 hs, fun h ↦ absurd h (by decide), fun _ i hi ↦ ?_⟩
    refine hle i ?_ (h.symbol_isSome.2 hi)
    have hlt := h.lt_numberOfStates hfirst hi
    obtain ⟨k, hk⟩ : ∃ k, c.numberOfStates = k + 1 := ⟨_, (Nat.succ_pred_eq_of_pos (by omega)).symm⟩
    rw [hk] at hlt ⊢
    rw [List.range_succ_eq_map, List.tail_cons]
    cases i with
    | zero => exact .inl rfl
    | succ i => exact .inr (List.mem_map_of_mem (List.mem_range.2 (Nat.lt_of_succ_lt_succ hlt)))

end Survivors

/-! ### Decoding -/

/-- The strings of `n` symbols among which the decoder chooses. -/
structure IsCandidate (c : ConvolutionalCoder) (n : ℕ) (bits : List Bool) : Prop where
  length_eq : bits.length = c.codeRateParamaterK * n
  terminated : c.mode = .terminated → c.endState n (some 0) bits = some 0

/-- Bits that can be depunctured. -/
structure Admissible (c : ConvolutionalCoder) (received : List Bool) : Prop where
  mod_eq : received.length % c.codeRatePuncturingN = 0
  length_eq : received.length = (c.getPuncturedIndices
    (c.decodedSymbols received.length * c.codeRateParamaterN)).count false

/-- What is decoded is encoded closest to what has been received, among all candidates; and as it
was, if it has been encoded and nothing else has the same code. -/
def DecodesBest (c : ConvolutionalCoder) (dblrand : ℕ → ℚ) (received : List Bool) : Prop :=
  let n := c.decodedSymbols received.length
  ∃ bits found codeword, c.decode dblrand received = .ok (bits, found) ∧ c.IsCandidate n bits ∧
    c.encode bits = .ok codeword ∧ codeword.length = received.length ∧
    (∀ other otherword, c.IsCandidate n other → c.encode other = .ok otherword →
      otherword.length = received.length ∧
        computeHammingDistance codeword received ≤ computeHammingDistance otherword received) ∧
    ∀ sent, c.IsCandidate n sent → c.encode sent = .ok received → codeword = received ∧
      ((∀ other, c.IsCandidate n other → c.encode other = .ok received → other = sent) → bits = sent)

variable {received : List Bool}

theorem computeHammingDistance_self (bits : List Bool) : computeHammingDistance bits bits = 0 := by
  induction bits with
  | nil => rfl
  | cons bit bits ih =>
    rw [computeHammingDistance] at ih ⊢
    rw [List.zipWith_cons_cons, bne_self_eq_false, List.count_cons_of_ne (by decide), ih]

theorem eq_of_computeHammingDistance {u v : List Bool} (hlength : u.length = v.length)
    (h : computeHammingDistance u v = 0) : u = v := by
  induction u generalizing v with
  | nil => exact (List.eq_nil_of_length_eq_zero hlength.symm).symm
  | cons x u ih =>
    match v with
    | y :: v =>
      rw [computeHammingDistance, List.zipWith_cons_cons, List.count_cons] at h
      have hrest := ih (Nat.succ.inj hlength) (Nat.eq_zero_of_add_eq_zero_right h)
      have hfirst := Nat.eq_zero_of_add_eq_zero_left h
      rw [hrest]
      cases x <;> cases y <;> first | rfl | cases hfirst

/-- The second part follows from the first. -/
theorem decodesBest_of {bits codeword : List Bool} {found : Bool}
    (hdecode : c.decode dblrand received = .ok (bits, found))
    (hbits : c.IsCandidate (c.decodedSymbols received.length) bits)
    (hencode : c.encode bits = .ok codeword) (hlength : codeword.length = received.length)
    (hleast : ∀ other otherword, c.IsCandidate (c.decodedSymbols received.length) other →
      c.encode other = .ok otherword → otherword.length = received.length ∧
        computeHammingDistance codeword received ≤ computeHammingDistance otherword received) :
    c.DecodesBest dblrand received := by
  refine ⟨bits, found, codeword, hdecode, hbits, hencode, hlength, hleast, fun sent hsent hword ↦ ?_⟩
  have hle := (hleast sent received hsent hword).2
  rw [computeHammingDistance_self, Nat.le_zero] at hle
  have heq := eq_of_computeHammingDistance hlength hle
  refine ⟨heq, fun hunique ↦ hunique bits hbits ?_⟩
  rw [hencode, heq]

theorem length_getPuncturedIndices (length : ℕ) :
    (c.getPuncturedIndices length).length = length := by
  rw [getPuncturedIndices, List.length_map, List.length_range]

theorem Admissible.depuncturing_eq (h : c.Admissible received)
    (hfill : fillPunctured (c.getPuncturedIndices
      (c.decodedSymbols received.length * c.codeRateParamaterN)) received = .ok full) :
    c.depuncturing received = .ok (full, c.getPuncturedIndices
      (c.decodedSymbols received.length * c.codeRateParamaterN)) := by
  rw [depuncturing, if_neg (not_not.2 h.mod_eq)]
  show (fillPunctured _ received >>= _) = _
  rw [hfill]
  rfl

/-- **Decoding**, if the first input has a register. -/
theorem decodesBest_of_hasFirstRegister (hfirst : c.HasFirstRegister)
    (hdistinct : c.Distinguishes) (hadmissible : c.Admissible received)
    (hfit : c.decodedSymbols received.length * c.codeRateParamaterN < INT32_MAX)
    (hpos : 0 < c.decodedSymbols received.length) : c.DecodesBest dblrand received := by
  obtain ⟨full, hfill, hfull, hdistance⟩ :=
    exists_fillPunctured _ received hadmissible.length_eq
  have hdepuncturing := hadmissible.depuncturing_eq hfill
  have hlength := length_getPuncturedIndices (c := c)
    (c.decodedSymbols received.length * c.codeRateParamaterN)
  obtain ⟨n, hn⟩ : ∃ n, c.decodedSymbols received.length = n + 1 :=
    ⟨_, (Nat.succ_pred_eq_of_pos hpos).symm⟩
  rw [hn] at hfit hlength hfull hdepuncturing hdistance
  obtain ⟨isPunctured, hisPunctured⟩ :
    ∃ P, P = c.getPuncturedIndices ((n + 1) * c.codeRateParamaterN) := ⟨_, rfl⟩
  rw [← hisPunctured] at hlength hfull hdepuncturing hdistance
  rw [← hlength] at hfit
  -- what is encoded, and how far it is from what has been received
  have hword (other : List Bool) (hother : c.IsCandidate (n + 1) other) :
      ∃ otherword, c.encode other = .ok otherword ∧ otherword.length = received.length ∧
        computeHammingDistance otherword received =
          pathCost c.next (c.stepCost isPunctured full) 0 0 (c.symbolsOf (n + 1) other) := by
    have hmem := symbolsOf_mem hother.length_eq
    have hcount := length_symbolsOf (c := c) (n + 1) other
    have hsum : isPunctured.length =
        (0 + (c.symbolsOf (n + 1) other).length) * c.codeRateParamaterN := by
      rw [hlength, hcount, Nat.zero_add]
    have hcost := pathCost_eq hfirst numberOfStates_pos hmem hsum hfull
    obtain ⟨hdrop, heq⟩ := hdistance (c.outputsAlong 0 (c.symbolsOf (n + 1) other)) (by
      rw [length_outputsAlong hfirst numberOfStates_pos hmem, hcount, hlength])
    refine ⟨_, encode_eq hfirst hother.length_eq, ?_, ?_⟩
    · rwa [← hisPunctured]
    · rw [hcost, Nat.zero_mul, List.drop_zero, List.drop_zero, ← heq, hisPunctured]
  have hpath (other : List Bool) (hother : c.IsCandidate (n + 1) other) :
      IsPath c.next c.inputs 0 (n + 1) ((c.symbolsOf (n + 1) other).foldl c.next 0)
        (c.symbolsOf (n + 1) other) :=
    ⟨length_symbolsOf (n + 1) other, symbolsOf_mem hother.length_eq, rfl⟩
  -- the run of the decoder
  have hfuel : n + 1 < 0 + (full.length + 1) := by
    have hle := Nat.le_mul_of_pos_right (n + 1) c.codeRateParamaterN_pos
    omega
  have hinitial : Survivors c isPunctured full 0
    ({ trellisGraph := initialGraph } : Update).trellisGraph := .initial
  obtain ⟨u, hloop, hg⟩ := exists_decodeLoop dblrand hfirst hdistinct hlength hfull hfit hfuel
    (Nat.zero_le _) hinitial
  obtain ⟨s, hbest, hs, hterminated, htruncated⟩ := hg.exists_bestNode hfirst
  obtain ⟨htrace, hcost⟩ := hg.trace_spec hlength.ge hfull hfit hs
  obtain ⟨hsymbols, hbitsLength⟩ := symbolsOf_bitsOf htrace.mem
  have hback := hg.goBack_eq hs
  generalize trace (prev u.trellisGraph) (symbol u.trellisGraph) (n + 1) s = ds at *
  rw [htrace.length_eq] at hsymbols hbitsLength
  have hdecode : c.decode dblrand received = .ok (c.bitsOf ds, true) := by
    have hsymbol : ¬ (c.mode = .terminated ∧ (u.trellisGraph s (n + 1)).symbol = none) := by
      rintro ⟨-, hnone⟩
      have hsome := hg.symbol_isSome.2 hs
      rw [hnone] at hsome
      cases hsome
    rw [decode, hdepuncturing]
    show (c.decodeLoop dblrand full isPunctured (full.length + 1) 0 { trellisGraph := initialGraph }
      >>= _) = _
    rw [hloop]
    show c.traversePath (c.bestNode u.trellisGraph (n + 1)) u.trellisGraph = _
    rw [hbest, traversePath, if_neg hsymbol, hback]
    show Except.ok ((c.bitsOf ds).reverse.reverse, true) = _
    rw [List.reverse_reverse]
  have hcandidate : c.IsCandidate (n + 1) (c.bitsOf ds) := by
    refine ⟨hbitsLength, fun hmode ↦ ?_⟩
    rw [(encodeSymbols_eq hfirst numberOfStates_pos hbitsLength).2, hsymbols, htrace.state,
      hterminated hmode]
  obtain ⟨codeword, hencode, hcodeword, hcodewordCost⟩ := hword _ hcandidate
  rw [hsymbols, hcost] at hcodewordCost
  refine decodesBest_of hdecode (by rwa [hn]) hencode hcodeword ?_
  rw [hn]
  intro other otherword hother hotherword
  obtain ⟨word, hword, hlengthWord, hdistanceWord⟩ := hword other hother
  obtain rfl : word = otherword := Except.ok.inj (hword.symm.trans hotherword)
  refine ⟨hlengthWord, ?_⟩
  obtain ⟨k, hk, hleast⟩ := (hg.optimal (n + 1) le_rfl).least _ _ (hpath other hother)
  obtain ⟨hreached, rfl⟩ := best_eq_some.1 hleast
  rw [hcodewordCost, hdistanceWord]
  refine le_trans ?_ hk
  cases hmode : c.mode with
  | terminated =>
    have hend := hother.terminated hmode
    rw [(encodeSymbols_eq hfirst numberOfStates_pos hother.length_eq).2] at hend
    rw [hterminated hmode, Option.some.inj hend]
  | truncated =>
    rw [hg.cost_eq hlength.ge hfull hfit hs, hg.cost_eq hlength.ge hfull hfit hreached]
    exact htruncated hmode _ hreached

/-- The truncated coder finds only nodes without a symbol. -/
theorem foldl_initialGraph (is : List ℕ) (time : ℕ) (node : TrellisGraphNode) :
    is.foldl (fun best i ↦
        let currentNode := initialGraph i time
        if currentNode.symbol.isSome ∧
          currentNode.comulativeHammingDistance < best.comulativeHammingDistance then currentNode
        else best) node = node := by
  induction is with
  | nil => rfl
  | cons i is ih =>
    have hnone : (initialGraph i time).symbol = none := by
      rw [initialGraph]
      split_ifs <;> rfl
    rw [List.foldl_cons]
    simp only [hnone, Option.isSome_none, Bool.false_eq_true, false_and, if_false]
    exact ih

/-- Nothing is received, and nothing is decoded. -/
theorem decodesBest_nil : c.DecodesBest dblrand [] := by
  have hpos := c.codeRateParamaterN_pos
  have hsymbols : c.decodedSymbols ([] : List Bool).length = 0 := by
    rw [List.length_nil, decodedSymbols, Nat.zero_div, Nat.zero_mul, Nat.zero_div]
  have hdepuncturing : c.depuncturing [] = .ok ([], []) := by
    have hmod : ¬ ([] : List Bool).length % c.codeRatePuncturingN ≠ 0 :=
      not_not.2 (Nat.zero_mod _)
    rw [depuncturing, hsymbols, Nat.zero_mul, if_neg hmod]
    rfl
  have hnext : c.giveNextOutputSymbol [] [] 0 = ([], List.replicate c.codeRateParamaterN true) :=
    if_pos (by rwa [List.length_nil, Nat.zero_add, Nat.one_mul])
  have hloop : c.decodeLoop dblrand [] [] 1 0 { trellisGraph := initialGraph } =
      .ok (0, { trellisGraph := initialGraph }) := by
    rw [decodeLoop, hnext]
    rfl
  have hbest : c.bestNode initialGraph 0 = { state := some 0 } := by
    rw [bestNode]
    cases c.mode with
    | terminated => rfl
    | truncated => exact foldl_initialGraph _ 0 _
  obtain ⟨found, htraverse⟩ : ∃ found,
      c.traversePath { state := some 0 } initialGraph = .ok ([], found) := by
    rw [traversePath]
    split_ifs
    exacts [⟨false, rfl⟩, ⟨true, rfl⟩]
  have hdecode : c.decode dblrand [] = .ok ([], found) := by
    rw [decode, hdepuncturing]
    show (c.decodeLoop dblrand [] [] 1 0 { trellisGraph := initialGraph } >>= _) = _
    rw [hloop]
    show c.traversePath (c.bestNode initialGraph 0) initialGraph = _
    rw [hbest, htraverse]
  have hencode : c.encode [] = .ok [] := by
    have hmod : ¬ ([] : List Bool).length % c.codeRateParamaterK ≠ 0 :=
      not_not.2 (Nat.zero_mod _)
    rw [encode, if_neg hmod, List.length_nil, Nat.zero_div]
    rfl
  refine decodesBest_of hdecode ?_ hencode rfl ?_
  · rw [hsymbols]
    exact ⟨rfl, fun _ ↦ rfl⟩
  · intro other otherword hother hotherword
    have hnil : other = [] := by
      refine List.eq_nil_of_length_eq_zero ?_
      rw [hother.length_eq, hsymbols, Nat.mul_zero]
    rw [hnil, hencode] at hotherword
    rw [← Except.ok.inj hotherword]
    exact ⟨rfl, le_rfl⟩

/-- **Without a first register** an input of ones leaves the states. -/
theorem checkState_ones (hfirst : ¬ c.HasFirstRegister) (hp : p < c.numberOfStates) :
    c.checkState (c.stateTransitions
      (p, reverseToDecimal (List.replicate c.codeRateParamaterK true))) = .error .outOfRange := by
  obtain ⟨state, hstate, rfl⟩ := exists_reverseToDecimal hp
  rw [stateTransitions_eq hstate List.length_replicate, checkState]
  exact if_neg (Nat.not_lt.2 (numberOfStates_le_nextState hfirst state))

/-- A state that has been reached stops the loop over the output symbols. -/
theorem updateState_of_not_hasFirstRegister (hfirst : ¬ c.HasFirstRegister)
    (hdistinct : c.Distinguishes) (hp : p < c.numberOfStates)
    (hreached : (u.trellisGraph p time).state.isSome) (outputSymbol counts : List Bool)
    (u' : Update) : c.updateState dblrand time outputSymbol counts u p ≠ .ok u' := by
  intro h
  have hones : reverseToDecimal (List.replicate c.codeRateParamaterK true) ∈ c.inputs := by
    have hlt := reverseToDecimal_lt (List.replicate c.codeRateParamaterK true)
    rwa [List.length_replicate] at hlt
  obtain ⟨j, hj, hinput⟩ := exists_inputSymbols hdistinct hp hones
  rw [updateState, if_pos hreached] at h
  obtain ⟨s₁, s₂, hturn⟩ := exists_of_foldlM_eq_ok h j (List.mem_range.2 hj)
  simp only [hinput, checkState_ones hfirst hp] at hturn
  cases hturn

/-- The decoder leaves its tables at the first symbol. -/
theorem decode_of_not_hasFirstRegister (hfirst : ¬ c.HasFirstRegister)
    (hdistinct : c.Distinguishes) (hadmissible : c.Admissible received)
    (hpos : 0 < c.decodedSymbols received.length) (x : List Bool × Bool) :
    c.decode dblrand received ≠ .ok x := by
  intro h
  obtain ⟨full, hfill, hfull, -⟩ := exists_fillPunctured _ received hadmissible.length_eq
  have hlength := length_getPuncturedIndices (c := c)
    (c.decodedSymbols received.length * c.codeRateParamaterN)
  have hchunk : (0 + 1) * c.codeRateParamaterN ≤ full.length := by
    rw [hfull, hlength]
    exact Nat.mul_le_mul_right _ hpos
  have hne : ¬ (c.chunk 0 full).isEmpty = true := by
    rw [List.isEmpty_iff_length_eq_zero, length_chunk hchunk]
    exact c.codeRateParamaterN_pos.ne'
  rw [decode, hadmissible.depuncturing_eq hfill] at h
  change (c.decodeLoop dblrand full _ (full.length + 1) 0 { trellisGraph := initialGraph } >>= _) = _
    at h
  obtain ⟨loop, hloop, -⟩ := exists_of_bind_eq_ok h
  simp only [decodeLoop, giveNextOutputSymbol_eq hchunk, if_neg hne] at hloop
  obtain ⟨u, hupdate, -⟩ := exists_of_bind_eq_ok hloop
  -- the zero state comes first
  obtain ⟨k, hk⟩ : ∃ k, c.numberOfStates = k + 1 :=
    ⟨_, (Nat.succ_pred_eq_of_pos numberOfStates_pos).symm⟩
  rw [updateTrellisGraph, hk, List.range_succ_eq_map, List.foldlM_cons] at hupdate
  obtain ⟨u', hstate, -⟩ := exists_of_bind_eq_ok hupdate
  exact updateState_of_not_hasFirstRegister hfirst hdistinct numberOfStates_pos rfl _ _ u' hstate

/-- **Maximum likelihood.** What has been received and can be depunctured is decoded as the closest
string, whatever is drawn at ties, if and only if the first input has a register or nothing has been
received. -/
theorem decodesBest_iff (hdistinct : c.Distinguishes) (hadmissible : c.Admissible received)
    (hfit : c.decodedSymbols received.length * c.codeRateParamaterN < INT32_MAX) :
    c.DecodesBest dblrand received ↔ c.HasFirstRegister ∨ received = [] := by
  rcases eq_or_ne received [] with rfl | hne
  · exact iff_of_true decodesBest_nil (.inr rfl)
  · have hpos : 0 < c.decodedSymbols received.length := by
      refine Nat.pos_of_ne_zero fun hzero ↦ hne ?_
      have hlength := hadmissible.length_eq
      rw [hzero, Nat.zero_mul] at hlength
      exact List.eq_nil_of_length_eq_zero hlength
    refine ⟨fun h ↦ .inl ?_, fun h ↦ decodesBest_of_hasFirstRegister (h.resolve_right hne) hdistinct
      hadmissible hfit hpos⟩
    by_contra hfirst
    obtain ⟨bits, found, -, hdecode, -⟩ := h
    exact decode_of_not_hasFirstRegister hfirst hdistinct hadmissible hpos _ hdecode

/-- Two bits for every bit, a third of which are left out. -/
def rateThreeQuarters : ConvolutionalCoder where
  mode := .truncated
  codeRatePuncturingK := 3
  codeRatePuncturingN := 4
  codeRateParamaterN := 2
  constraintLengths := [3]
  transferFunctionMatrix := [[[true, true, true], [true, false, true]]]
  puncturingMatrix := [[true, true, false], [true, false, true]]
  puncturingMatrixSize := 3
  codeRateParamaterN_pos := by decide
  codeRateParamaterN_le := by decide
  codeRatePuncturingN_pos := by decide
  puncturingMatrixSize_pos := by decide
  constraintLengths_ne_nil := by decide
  constraintLengths_le := by decide
  constraintLengths_pos := by decide
  memorySizeSum_le := by decide
  transferFunctionMatrix_row := .cons (by decide) .nil
  puncturingMatrix_length := rfl
  puncturingMatrix_row := by decide

theorem distinguishes_rateThreeQuarters : rateThreeQuarters.Distinguishes := by
  intro state inputSymbol inputSymbol' hstate hinput hinput'
  obtain ⟨x, y, rfl⟩ := List.length_eq_two.1 hstate
  obtain ⟨b, rfl⟩ := List.length_eq_one_iff.1 hinput
  obtain ⟨b', rfl⟩ := List.length_eq_one_iff.1 hinput'
  revert x y b b'
  decide

theorem decodesBest_rateThreeQuarters :
    rateThreeQuarters.DecodesBest (fun _ ↦ 1 / 2) [true, true, false, true] :=
  (decodesBest_iff distinguishes_rateThreeQuarters ⟨by decide, by decide⟩ (by decide)).2
    (.inl (by unfold HasFirstRegister; decide))

/-- One bit for every bit, without a register. -/
def withoutRegisters : ConvolutionalCoder where
  mode := .truncated
  codeRatePuncturingK := 1
  codeRatePuncturingN := 1
  codeRateParamaterN := 1
  constraintLengths := [1]
  transferFunctionMatrix := [[[true]]]
  puncturingMatrix := [[true]]
  puncturingMatrixSize := 1
  codeRateParamaterN_pos := by decide
  codeRateParamaterN_le := by decide
  codeRatePuncturingN_pos := by decide
  puncturingMatrixSize_pos := by decide
  constraintLengths_ne_nil := by decide
  constraintLengths_le := by decide
  constraintLengths_pos := by decide
  memorySizeSum_le := by decide
  transferFunctionMatrix_row := .cons (by decide) .nil
  puncturingMatrix_length := rfl
  puncturingMatrix_row := by decide

theorem distinguishes_withoutRegisters : withoutRegisters.Distinguishes := by
  intro state inputSymbol inputSymbol' hstate hinput hinput'
  obtain rfl := List.length_eq_zero_iff.1 hstate
  obtain ⟨b, rfl⟩ := List.length_eq_one_iff.1 hinput
  obtain ⟨b', rfl⟩ := List.length_eq_one_iff.1 hinput'
  revert b b'
  decide

/-- Without a register nothing is decoded. -/
theorem not_decodesBest_withoutRegisters : withoutRegisters.Distinguishes ∧
    withoutRegisters.Admissible [true] ∧ ¬ withoutRegisters.DecodesBest (fun _ ↦ 1 / 2) [true] := by
  have hadmissible : withoutRegisters.Admissible [true] := ⟨by decide, by decide⟩
  have hfirst : ¬ withoutRegisters.HasFirstRegister := fun h ↦ absurd (h 1 rfl) (by decide)
  refine ⟨distinguishes_withoutRegisters, hadmissible, ?_⟩
  rintro ⟨bits, found, -, hdecode, -⟩
  exact decode_of_not_hasFirstRegister hfirst distinguishes_withoutRegisters hadmissible
    (by decide) _ hdecode

end Inet.ConvolutionalCoder
