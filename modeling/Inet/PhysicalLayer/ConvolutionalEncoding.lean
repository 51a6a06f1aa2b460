import Inet.Foundations.Trellis
import Inet.PhysicalLayer.ConvolutionalTables

/-!
# Encoding as a path

The bits that are encoded are a path of input symbols through the states of the coder, and what is
encoded is what the path puts out (`encode_eq`). The distance of what is encoded to what has been
received, over the bits that are not punctured, is the cost of the path
(`computeHammingDistance_puncturing`, `pathCost_eq`), where a step costs what the decoder looks up
for it (`hammingDistance_eq`).
-/

namespace Inet.ConvolutionalCoder

open BitVector Trellis

variable {c : ConvolutionalCoder} {bits : List Bool} {s d n : ℕ} {ds : List ℕ}

/-! ### The machine -/

/-- The next state, by the numbers of the state and of the input symbol. -/
def next (c : ConvolutionalCoder) (state d : ℕ) : ℕ :=
  (c.stateTransitions (state, d)).getD 0

/-- The input symbols. -/
def inputs (c : ConvolutionalCoder) : Set ℕ :=
  {d | d < c.numberOfInputSymbols}

/-- **A step of the coder.** -/
theorem stateTransitions_eq_next (h : c.HasFirstRegister) (hs : s < c.numberOfStates)
    (hd : d ∈ c.inputs) :
    c.stateTransitions (s, d) = some (c.next s d) ∧ c.next s d < c.numberOfStates := by
  obtain ⟨state, hstate, rfl⟩ := exists_reverseToDecimal hs
  obtain ⟨inputSymbol, hinput, rfl⟩ := exists_reverseToDecimal hd
  have heq := stateTransitions_eq hstate hinput
  rw [next, heq, Option.getD_some]
  refine ⟨rfl, ?_⟩
  have hlt := reverseToDecimal_lt (c.nextState state inputSymbol)
  rwa [length_nextState h hstate hinput] at hlt

theorem checkState_of_lt (hs : s < c.numberOfStates) : c.checkState (some s) = .ok s :=
  if_pos hs

theorem zero_mem_inputs : 0 ∈ c.inputs :=
  Nat.two_pow_pos _

theorem numberOfStates_pos : 0 < c.numberOfStates :=
  Nat.two_pow_pos _

theorem next_zero (h : c.HasFirstRegister) : c.next 0 0 = 0 := by
  have hstate : (List.replicate c.memorySizeSum false).length = c.memorySizeSum :=
    List.length_replicate
  have hinput : (List.replicate c.codeRateParamaterK false).length = c.codeRateParamaterK :=
    List.length_replicate
  have heq := stateTransitions_eq hstate hinput
  rw [nextState_zeros h, reverseToDecimal_replicate_false, reverseToDecimal_replicate_false] at heq
  rw [next, heq, Option.getD_some]

theorem length_outputSymbols (hs : s < c.numberOfStates) (hd : d ∈ c.inputs) :
    (c.outputSymbols (s, d)).length = c.codeRateParamaterN := by
  obtain ⟨state, hstate, rfl⟩ := exists_reverseToDecimal hs
  obtain ⟨inputSymbol, hinput, rfl⟩ := exists_reverseToDecimal hd
  rw [outputSymbols_eq hstate hinput, length_inputSymbolToOutputSymbol]

/-! ### Bits and symbols -/

/-- The input symbols in some bits. -/
def symbolsOf (c : ConvolutionalCoder) : ℕ → List Bool → List ℕ
  | 0, _ => []
  | n + 1, bits =>
    reverseToDecimal (bits.take c.codeRateParamaterK) ::
      symbolsOf c n (bits.drop c.codeRateParamaterK)

/-- The bits of some input symbols. -/
def bitsOf (c : ConvolutionalCoder) (ds : List ℕ) : List Bool :=
  ds.flatMap c.decimalToInputSymbol

theorem length_symbolsOf (n : ℕ) (bits : List Bool) : (c.symbolsOf n bits).length = n := by
  induction n generalizing bits with
  | zero => rfl
  | succ n ih => rw [symbolsOf, List.length_cons, ih]

theorem symbolsOf_mem (h : bits.length = c.codeRateParamaterK * n) :
    ∀ d ∈ c.symbolsOf n bits, d ∈ c.inputs := by
  induction n generalizing bits with
  | zero => exact List.forall_mem_nil _
  | succ n ih =>
    rw [Nat.mul_succ] at h
    refine List.forall_mem_cons.2 ⟨?_, ih (by rw [List.length_drop]; omega)⟩
    have hlt := reverseToDecimal_lt (bits.take c.codeRateParamaterK)
    rwa [List.length_take, Nat.min_eq_left (by omega)] at hlt

/-- A symbol is its bits. -/
theorem exists_inputSymbol (hd : d ∈ c.inputs) : ∃ inputSymbol : List Bool,
    inputSymbol.length = c.codeRateParamaterK ∧ reverseToDecimal inputSymbol = d ∧
      c.decimalToInputSymbol d = inputSymbol := by
  obtain ⟨inputSymbol, hinput, rfl⟩ := exists_reverseToDecimal hd
  exact ⟨inputSymbol, hinput, rfl, decimalToInputSymbol_eq hinput⟩

theorem symbolsOf_bitsOf (h : ∀ d ∈ ds, d ∈ c.inputs) :
    c.symbolsOf ds.length (c.bitsOf ds) = ds ∧
      (c.bitsOf ds).length = c.codeRateParamaterK * ds.length := by
  induction ds with
  | nil => exact ⟨rfl, rfl⟩
  | cons d ds ih =>
    rw [List.forall_mem_cons] at h
    obtain ⟨inputSymbol, hinput, hd, hbits⟩ := exists_inputSymbol h.1
    obtain ⟨hsymbols, hlength⟩ := ih h.2
    have hcons : c.bitsOf (d :: ds) = inputSymbol ++ c.bitsOf ds := by
      rw [bitsOf, List.flatMap_cons, hbits, bitsOf]
    rw [hcons]
    constructor
    · rw [List.length_cons, symbolsOf, ← hinput, List.take_left, List.drop_left, hd, hsymbols]
    · rw [List.length_append, hinput, hlength, List.length_cons, Nat.mul_succ, Nat.add_comm]

/-! ### What is encoded -/

/-- What a path puts out. -/
def outputsAlong (c : ConvolutionalCoder) : ℕ → List ℕ → List Bool
  | _, [] => []
  | s, d :: ds => c.outputSymbols (s, d) ++ outputsAlong c (c.next s d) ds

theorem length_outputsAlong (h : c.HasFirstRegister) (hs : s < c.numberOfStates)
    (hds : ∀ d ∈ ds, d ∈ c.inputs) :
    (c.outputsAlong s ds).length = ds.length * c.codeRateParamaterN := by
  induction ds generalizing s with
  | nil => exact (Nat.zero_mul _).symm
  | cons d ds ih =>
    rw [List.forall_mem_cons] at hds
    rw [outputsAlong, List.length_append, length_outputSymbols hs hds.1,
      ih (stateTransitions_eq_next h hs hds.1).2 hds.2, List.length_cons, Nat.succ_mul, Nat.add_comm]

/-- The state after some bits, by the table. -/
def endState (c : ConvolutionalCoder) : ℕ → Option ℕ → List Bool → Option ℕ
  | 0, state, _ => state
  | n + 1, state, bits =>
    endState c n (state.bind fun s ↦
        c.stateTransitions (s, reverseToDecimal (bits.take c.codeRateParamaterK)))
      (bits.drop c.codeRateParamaterK)

theorem encodeSymbols_eq (h : c.HasFirstRegister) (hs : s < c.numberOfStates)
    (hlength : bits.length = c.codeRateParamaterK * n) :
    c.encodeSymbols n (some s) bits = .ok (c.outputsAlong s (c.symbolsOf n bits)) ∧
      c.endState n (some s) bits = some ((c.symbolsOf n bits).foldl c.next s) := by
  induction n generalizing s bits with
  | zero => exact ⟨rfl, rfl⟩
  | succ n ih =>
    have hmem := symbolsOf_mem hlength
    rw [symbolsOf, List.forall_mem_cons] at hmem
    rw [Nat.mul_succ] at hlength
    obtain ⟨hnext, hlt⟩ := stateTransitions_eq_next h hs hmem.1
    have hrest : (bits.drop c.codeRateParamaterK).length = c.codeRateParamaterK * n := by
      rw [List.length_drop]
      omega
    obtain ⟨hencode, hend⟩ := ih hlt hrest
    constructor
    · rw [encodeSymbols, checkState_of_lt hs]
      show (c.encodeSymbols n (c.stateTransitions _) _ >>= _) = _
      rw [hnext, hencode]
      rfl
    · rw [endState, Option.bind_some, hnext, hend, symbolsOf, List.foldl_cons]

theorem codeRateParamaterK_pos : 0 < c.codeRateParamaterK :=
  List.length_pos_iff.2 c.constraintLengths_ne_nil

/-- **What is encoded** is what the path puts out. -/
theorem encode_eq (h : c.HasFirstRegister) (hlength : bits.length = c.codeRateParamaterK * n) :
    c.encode bits = .ok (dropPunctured (c.getPuncturedIndices (n * c.codeRateParamaterN))
      (c.outputsAlong 0 (c.symbolsOf n bits))) := by
  have hmod : ¬ bits.length % c.codeRateParamaterK ≠ 0 := by
    rw [hlength, Nat.mul_mod_right]
    exact fun hne ↦ hne rfl
  have hdiv : bits.length / c.codeRateParamaterK = n := by
    rw [hlength, Nat.mul_div_cancel_left _ codeRateParamaterK_pos]
  rw [encode, if_neg hmod, hdiv]
  show (c.encodeSymbols n (some 0) bits >>= _) = _
  rw [(encodeSymbols_eq h numberOfStates_pos hlength).1]
  show Except.ok (c.puncturing _) = _
  rw [puncturing, length_outputsAlong h numberOfStates_pos (symbolsOf_mem hlength), length_symbolsOf]

/-! ### Distances -/

/-- The bits that differ and are not punctured. -/
def countedDistance : List Bool → List Bool → List Bool → ℕ
  | p :: isPunctured, u :: us, v :: vs =>
    (if p = false ∧ u ≠ v then 1 else 0) + countedDistance isPunctured us vs
  | _, _, _ => 0

theorem countedDistance_append {p p' u u' v v' : List Bool} (hu : u.length = p.length)
    (hv : v.length = p.length) : countedDistance (p ++ p') (u ++ u') (v ++ v') =
      countedDistance p u v + countedDistance p' u' v' := by
  induction p generalizing u v with
  | nil =>
    rw [List.eq_nil_of_length_eq_zero hu, List.eq_nil_of_length_eq_zero hv]
    exact (Nat.zero_add _).symm
  | cons x p ih =>
    match u, v with
    | y :: u, z :: v =>
      have hsum := ih (Nat.succ.inj hu) (Nat.succ.inj hv)
      simp only [List.cons_append, countedDistance, hsum, Nat.add_assoc]

/-- **The distance of the bits that are not punctured.** -/
theorem exists_fillPunctured (isPunctured received : List Bool)
    (h : received.length = isPunctured.count false) :
    ∃ full, fillPunctured isPunctured received = .ok full ∧ full.length = isPunctured.length ∧
      ∀ encoded : List Bool, encoded.length = isPunctured.length →
        (dropPunctured isPunctured encoded).length = received.length ∧
        computeHammingDistance (dropPunctured isPunctured encoded) received =
          countedDistance isPunctured encoded full := by
  induction isPunctured generalizing received with
  | nil =>
    obtain rfl := List.eq_nil_of_length_eq_zero h
    refine ⟨[], rfl, rfl, fun encoded hencoded ↦ ?_⟩
    obtain rfl := List.eq_nil_of_length_eq_zero hencoded
    exact ⟨rfl, rfl⟩
  | cons p isPunctured ih =>
    cases p with
    | true =>
      rw [List.count_cons_of_ne (by decide)] at h
      obtain ⟨full, hfill, hlength, hdistance⟩ := ih received h
      refine ⟨false :: full, by rw [fillPunctured, hfill]; rfl, congrArg Nat.succ hlength,
        fun encoded hencoded ↦ ?_⟩
      match encoded with
      | u :: encoded =>
        obtain ⟨hdrop, heq⟩ := hdistance encoded (Nat.succ.inj hencoded)
        have htail : dropPunctured (true :: isPunctured) (u :: encoded) =
            dropPunctured isPunctured encoded := rfl
        rw [htail, countedDistance, if_neg (by simp), Nat.zero_add]
        exact ⟨hdrop, heq⟩
    | false =>
      rw [List.count_cons_self] at h
      match received with
      | v :: received =>
        obtain ⟨full, hfill, hlength, hdistance⟩ := ih received (Nat.succ.inj h)
        refine ⟨v :: full, by rw [fillPunctured, hfill]; rfl, congrArg Nat.succ hlength,
          fun encoded hencoded ↦ ?_⟩
        match encoded with
        | u :: encoded =>
          obtain ⟨hdrop, heq⟩ := hdistance encoded (Nat.succ.inj hencoded)
          have htail : dropPunctured (false :: isPunctured) (u :: encoded) =
              u :: dropPunctured isPunctured encoded := rfl
          rw [htail, countedDistance, ← heq, computeHammingDistance, computeHammingDistance,
            List.zipWith_cons_cons, List.count_cons, Nat.add_comm]
          refine ⟨congrArg Nat.succ hdrop, ?_⟩
          cases u <;> cases v <;> rfl

theorem setBits_eq {u counts w : List Bool} (hu : u.length = w.length)
    (hcounts : counts.length = w.length) {k : ℕ} (hk : w.length ≤ k) :
    SetBits.setBits k ((toDecimal u ^^^ toDecimal w) &&& toDecimal counts) =
      countedDistance (counts.map not) w u := by
  induction w generalizing u counts k with
  | nil =>
    rw [List.eq_nil_of_length_eq_zero hu, List.eq_nil_of_length_eq_zero hcounts]
    exact SetBits.setBits_zero k
  | cons y w ih =>
    match u, counts, k with
    | x :: u, z :: counts, k + 1 =>
      have hrest := ih (Nat.succ.inj hu) (Nat.succ.inj hcounts) (Nat.le_of_succ_le_succ hk)
      rw [toDecimal_cons, toDecimal_cons, toDecimal_cons, Nat.xor_bit, Nat.land_bit,
        SetBits.setBits, Nat.bit_mod_two, Nat.bit_div_two, hrest, List.map_cons, countedDistance]
      cases x <;> cases y <;> cases z <;> rfl

/-- **What is looked up** for a symbol. -/
theorem hammingDistance_eq {u p w : List Bool} (hu : u.length = w.length)
    (hp : p.length = w.length) (hle : w.length ≤ 32) :
    hammingDistance u (p.map not) w = countedDistance p w u := by
  have hlt : (toDecimal u ^^^ toDecimal w) &&& toDecimal (p.map not) < 2 ^ 32 := by
    refine (Nat.and_le_right.trans_lt (toDecimal_lt _)).trans_le ?_
    rw [List.length_map, hp]
    exact Nat.pow_le_pow_right (by omega) hle
  rw [hammingDistance, SetBits.countBits_eq hlt, setBits_eq hu (by rwa [List.length_map]) hle,
    List.map_map, show not ∘ not = id from funext Bool.not_not, List.map_id]

/-- The bits of a symbol. -/
def chunk (c : ConvolutionalCoder) (n : ℕ) (bits : List Bool) : List Bool :=
  (bits.drop (n * c.codeRateParamaterN)).take c.codeRateParamaterN

/-- What a step of the decoder costs. -/
def stepCost (c : ConvolutionalCoder) (isPunctured full : List Bool) (n s d : ℕ) : ℕ :=
  hammingDistance (c.chunk n full) ((c.chunk n isPunctured).map not) (c.outputSymbols (s, d))

theorem length_chunk (h : (n + 1) * c.codeRateParamaterN ≤ bits.length) :
    (c.chunk n bits).length = c.codeRateParamaterN := by
  rw [Nat.succ_mul] at h
  rw [chunk, List.length_take, List.length_drop]
  omega

theorem chunk_append (n : ℕ) (bits : List Bool) :
    c.chunk n bits ++ bits.drop ((n + 1) * c.codeRateParamaterN) =
      bits.drop (n * c.codeRateParamaterN) := by
  rw [chunk, Nat.succ_mul, ← List.drop_drop, List.take_append_drop]

theorem stepCost_eq {isPunctured full : List Bool} (hs : s < c.numberOfStates) (hd : d ∈ c.inputs)
    (hlength : (n + 1) * c.codeRateParamaterN ≤ isPunctured.length)
    (hfull : full.length = isPunctured.length) : c.stepCost isPunctured full n s d =
      countedDistance (c.chunk n isPunctured) (c.outputSymbols (s, d)) (c.chunk n full) := by
  have houtput := length_outputSymbols hs hd
  have hle := c.codeRateParamaterN_le
  refine hammingDistance_eq ?_ ?_ (by omega)
  · rw [houtput, length_chunk (by rwa [hfull])]
  · rw [houtput, length_chunk hlength]

theorem countedDistance_le (p u v : List Bool) : countedDistance p u v ≤ p.length := by
  induction p generalizing u v with
  | nil => exact le_rfl
  | cons x p ih =>
    match u, v with
    | y :: u, z :: v =>
      have hle := ih u v
      rw [countedDistance, List.length_cons]
      split_ifs <;> omega
    | [], _ | _ :: _, [] => exact Nat.zero_le _

theorem stepCost_le {isPunctured full : List Bool} (hs : s < c.numberOfStates) (hd : d ∈ c.inputs)
    (hlength : (n + 1) * c.codeRateParamaterN ≤ isPunctured.length)
    (hfull : full.length = isPunctured.length) :
    c.stepCost isPunctured full n s d ≤ c.codeRateParamaterN := by
  have hle := countedDistance_le (c.chunk n isPunctured) (c.outputSymbols (s, d)) (c.chunk n full)
  rwa [← stepCost_eq hs hd hlength hfull, length_chunk hlength] at hle

/-- **The cost of a path** is the distance of what it puts out. -/
theorem pathCost_eq {isPunctured full : List Bool} (h : c.HasFirstRegister)
    (hs : s < c.numberOfStates) (hds : ∀ d ∈ ds, d ∈ c.inputs)
    (hlength : isPunctured.length = (n + ds.length) * c.codeRateParamaterN)
    (hfull : full.length = isPunctured.length) :
    pathCost c.next (c.stepCost isPunctured full) n s ds =
      countedDistance (isPunctured.drop (n * c.codeRateParamaterN)) (c.outputsAlong s ds)
        (full.drop (n * c.codeRateParamaterN)) := by
  induction ds generalizing n s with
  | nil =>
    rw [outputsAlong, pathCost]
    cases isPunctured.drop (n * c.codeRateParamaterN) <;> rfl
  | cons d ds ih =>
    rw [List.forall_mem_cons] at hds
    have hsucc : n + (ds.length + 1) = n + 1 + ds.length := by omega
    rw [List.length_cons, hsucc] at hlength
    have hchunk : (n + 1) * c.codeRateParamaterN ≤ isPunctured.length := by
      rw [hlength]
      exact Nat.mul_le_mul_right _ (Nat.le_add_right _ _)
    have hrest := ih (stateTransitions_eq_next h hs hds.1).2 hds.2 hlength
    rw [pathCost, hrest, stepCost_eq hs hds.1 hchunk hfull, outputsAlong,
      ← chunk_append n isPunctured, ← chunk_append n full, countedDistance_append]
    · rw [length_outputSymbols hs hds.1, length_chunk hchunk]
    · rw [length_chunk hchunk, length_chunk (by rwa [hfull])]

end Inet.ConvolutionalCoder
