import Inet.PhysicalLayer.ConvolutionalCoder

/-!
# The tables of the convolutional coder

What the loops of the constructor write into the tables: the output and the next state of every
state and input (`outputSymbols_eq`, `stateTransitions_eq`), and the input of every output that a
state can have (`exists_of_inputSymbols`, `inputSymbols_eq`).

The next state has a register for every bit, as long as the first input has a register at all
(`length_nextState`). If it has none, then the bit of this input is appended to the registers, and
the number of the next state is too large (`numberOfStates_le_nextState`).
-/

namespace Inet

namespace BitVector

variable {bits bits' : List Bool} {n size pos : ℕ} {value : Bool}

theorem length_ofDecimal (n size : ℕ) : (ofDecimal n size).length = size := by
  rw [ofDecimal, List.length_map, List.length_range]

theorem toDecimal_cons (bit : Bool) (bits : List Bool) :
    toDecimal (bit :: bits) = Nat.bit bit (toDecimal bits) :=
  rfl

theorem toDecimal_concat (bits : List Bool) (bit : Bool) :
    toDecimal (bits ++ [bit]) = toDecimal bits + 2 ^ bits.length * bit.toNat := by
  induction bits with
  | nil =>
    rw [List.nil_append, toDecimal_cons, Nat.bit_val]
    show 2 * 0 + bit.toNat = 0 + 2 ^ 0 * bit.toNat
    omega
  | cons b bits ih =>
    rw [List.cons_append, toDecimal_cons, ih, toDecimal_cons, Nat.bit_val, Nat.bit_val,
      List.length_cons, Nat.pow_succ']
    ring

theorem ofDecimal_succ (n size : ℕ) :
    ofDecimal n (size + 1) = n.testBit 0 :: ofDecimal (n / 2) size := by
  rw [ofDecimal, List.range_succ_eq_map, List.map_cons, List.map_map, ofDecimal]
  refine congrArg _ (List.map_congr_left fun i _ ↦ ?_)
  exact Nat.testBit_succ n i

theorem toDecimal_lt (bits : List Bool) : toDecimal bits < 2 ^ bits.length := by
  induction bits with
  | nil => exact Nat.one_pos
  | cons bit bits ih =>
    rw [toDecimal_cons, List.length_cons, Nat.pow_succ', Nat.bit_val]
    cases bit <;> simp only [Bool.toNat_false, Bool.toNat_true] <;> omega

theorem toDecimal_ofDecimal (h : n < 2 ^ size) : toDecimal (ofDecimal n size) = n := by
  induction size generalizing n with
  | zero =>
    rw [pow_zero, Nat.lt_one_iff] at h
    rw [h]
    rfl
  | succ size ih =>
    rw [Nat.pow_succ'] at h
    rw [ofDecimal_succ, toDecimal_cons, ih (by omega)]
    exact Nat.bit_testBit_zero_shiftRight_one n

theorem ofDecimal_toDecimal (bits : List Bool) : ofDecimal (toDecimal bits) bits.length = bits := by
  induction bits with
  | nil => rfl
  | cons bit bits ih =>
    rw [toDecimal_cons, List.length_cons, ofDecimal_succ, Nat.testBit_bit_zero, Nat.bit_div_two, ih]

theorem reverseToDecimal_lt (bits : List Bool) : reverseToDecimal bits < 2 ^ bits.length := by
  have h := toDecimal_lt bits.reverse
  rwa [List.length_reverse] at h

/-- The number of a string has the string, if its length is known. -/
theorem eq_of_reverseToDecimal (hlength : bits.length = bits'.length)
    (h : reverseToDecimal bits = reverseToDecimal bits') : bits = bits' := by
  have hbits := ofDecimal_toDecimal bits.reverse
  have hbits' := ofDecimal_toDecimal bits'.reverse
  rw [reverseToDecimal, reverseToDecimal] at h
  rw [h, List.length_reverse, hlength, ← List.length_reverse, hbits'] at hbits
  exact (List.reverse_injective hbits).symm

/-- The string of a number. -/
theorem exists_reverseToDecimal (h : n < 2 ^ size) :
    ∃ bits : List Bool, bits.length = size ∧ reverseToDecimal bits = n :=
  ⟨(ofDecimal n size).reverse, by rw [List.length_reverse, length_ofDecimal],
    by rw [reverseToDecimal, List.reverse_reverse, toDecimal_ofDecimal h]⟩

theorem length_leftShift (bits : List Bool) : (leftShift bits).length = bits.length := by
  rw [leftShift, List.length_take, List.length_cons, Nat.min_eq_left (Nat.le_succ _)]

theorem length_setBit (h : pos < bits.length) : (setBit bits pos value).length = bits.length := by
  rw [setBit, if_pos h, List.length_set]

/-- The first bit of a string weighs most. -/
theorem le_reverseToDecimal (h : bits.head? = some true) (hlength : size < bits.length) :
    2 ^ size ≤ reverseToDecimal bits := by
  cases bits with
  | nil => cases h
  | cons bit bits =>
    obtain rfl := Option.some.inj h
    rw [List.length_cons] at hlength
    rw [reverseToDecimal, List.reverse_cons, toDecimal_concat, List.length_reverse, Bool.toNat_true,
      Nat.mul_one]
    exact (Nat.pow_le_pow_right (by omega) (by omega)).trans (Nat.le_add_left _ _)

end BitVector

open BitVector

theorem mem_of_tabulate {κ α : Type} [DecidableEq κ] {empty : α} {writes : List (κ × α)} {k : κ}
    (h : tabulate empty writes k ≠ empty) : (k, tabulate empty writes k) ∈ writes := by
  induction writes using List.reverseRecOn with
  | nil => exact absurd rfl h
  | append_singleton writes w ih =>
    rw [tabulate, List.foldl_append, List.foldl_cons, List.foldl_nil, ← tabulate] at h ⊢
    by_cases hk : k = w.1
    · subst hk
      rw [Function.update_self]
      exact List.mem_append_right _ (List.mem_singleton_self w)
    · rw [Function.update_of_ne hk] at h ⊢
      exact List.mem_append_left _ (ih h)

namespace ConvolutionalCoder

variable {c : ConvolutionalCoder} {state inputSymbol bits : List Bool} {size : ℕ}

/-! ### States and symbols -/

theorem mem_symbols : bits ∈ symbols size ↔ bits.length = size := by
  rw [symbols, List.mem_map]
  constructor
  · rintro ⟨i, -, rfl⟩
    exact length_ofDecimal i size
  · rintro rfl
    exact ⟨toDecimal bits, List.mem_range.2 (toDecimal_lt bits), ofDecimal_toDecimal bits⟩

theorem mem_states : state ∈ c.states ↔ state.length = c.memorySizeSum :=
  mem_symbols

theorem decimalToSymbol_eq (bits : List Bool) :
    decimalToSymbol bits.length (reverseToDecimal bits) = bits := by
  refine tabulate_of_mem (List.mem_map.2 ⟨bits, mem_symbols.2 rfl, rfl⟩) fun w hw ↦ ?_
  obtain ⟨bits', hbits', heq⟩ := List.mem_map.1 hw
  rw [Prod.mk.injEq] at heq
  rw [← heq.2]
  exact eq_of_reverseToDecimal (mem_symbols.1 hbits') heq.1

theorem decimalToInputSymbol_eq (hinput : inputSymbol.length = c.codeRateParamaterK) :
    c.decimalToInputSymbol (reverseToDecimal inputSymbol) = inputSymbol := by
  rw [decimalToInputSymbol, ← hinput, decimalToSymbol_eq]

theorem mem_statesAndInputs {x : List Bool × ℕ} : x ∈ c.statesAndInputs ↔
    x.1.length = c.memorySizeSum ∧ ∃ inputSymbol : List Bool,
      inputSymbol.length = c.codeRateParamaterK ∧ x.2 = reverseToDecimal inputSymbol := by
  simp only [statesAndInputs, List.mem_flatMap, List.mem_map, List.mem_range, mem_states]
  constructor
  · rintro ⟨state, hstate, i, hi, rfl⟩
    obtain ⟨inputSymbol, hinput, rfl⟩ := exists_reverseToDecimal hi
    exact ⟨hstate, inputSymbol, hinput, rfl⟩
  · rintro ⟨hstate, inputSymbol, hinput, hx⟩
    refine ⟨x.1, hstate, x.2, ?_, rfl⟩
    rw [hx, numberOfInputSymbols, ← hinput]
    exact reverseToDecimal_lt inputSymbol

theorem outputSymbols_eq (hstate : state.length = c.memorySizeSum)
    (hinput : inputSymbol.length = c.codeRateParamaterK) :
    c.outputSymbols (reverseToDecimal state, reverseToDecimal inputSymbol) =
      c.inputSymbolToOutputSymbol state inputSymbol := by
  refine tabulate_of_mem (List.mem_map.2 ⟨(state, reverseToDecimal inputSymbol),
    mem_statesAndInputs.2 ⟨hstate, inputSymbol, hinput, rfl⟩, ?_⟩) fun w hw ↦ ?_
  · rw [decimalToInputSymbol_eq hinput]
  · obtain ⟨x, hx, heq⟩ := List.mem_map.1 hw
    obtain ⟨hlength, -⟩ := mem_statesAndInputs.1 hx
    rw [Prod.mk.injEq, Prod.mk.injEq] at heq
    rw [← heq.2, heq.1.2, eq_of_reverseToDecimal (hlength.trans hstate.symm) heq.1.1,
      decimalToInputSymbol_eq hinput]

theorem stateTransitions_eq (hstate : state.length = c.memorySizeSum)
    (hinput : inputSymbol.length = c.codeRateParamaterK) :
    c.stateTransitions (reverseToDecimal state, reverseToDecimal inputSymbol) =
      some (reverseToDecimal (c.nextState state inputSymbol)) := by
  refine tabulate_of_mem (List.mem_flatMap.2 ⟨state, mem_states.2 hstate, List.mem_map.2
    ⟨inputSymbol, mem_symbols.2 hinput, rfl⟩⟩) fun w hw ↦ ?_
  obtain ⟨state', hstate', hw⟩ := List.mem_flatMap.1 hw
  obtain ⟨inputSymbol', hinput', heq⟩ := List.mem_map.1 hw
  rw [Prod.mk.injEq, Prod.mk.injEq] at heq
  rw [← heq.2, eq_of_reverseToDecimal ((mem_states.1 hstate').trans hstate.symm) heq.1.1,
    eq_of_reverseToDecimal ((mem_symbols.1 hinput').trans hinput.symm) heq.1.2]

/-- In every state, different inputs have different outputs. -/
def Distinguishes (c : ConvolutionalCoder) : Prop :=
  ∀ state inputSymbol inputSymbol' : List Bool, state.length = c.memorySizeSum →
    inputSymbol.length = c.codeRateParamaterK → inputSymbol'.length = c.codeRateParamaterK →
    c.inputSymbolToOutputSymbol state inputSymbol = c.inputSymbolToOutputSymbol state inputSymbol' →
    inputSymbol = inputSymbol'

/-! ### Outputs -/

theorem length_row {row : List (List Bool)} (hrow : row ∈ c.transferFunctionMatrix) :
    row.length = c.codeRateParamaterN := by
  obtain ⟨-, hrows⟩ := List.forall₂_iff_zip.1 c.transferFunctionMatrix_row
  obtain ⟨i, hi, rfl⟩ := List.mem_iff_getElem.1 hrow
  have hlength := c.transferFunctionMatrix_row.length_eq
  have hi' : i < (c.transferFunctionMatrix.zip c.constraintLengths).length := by
    rw [List.length_zip]
    omega
  exact (hrows (List.getElem_zip (h := hi') ▸ List.getElem_mem hi')).1

theorem length_addRows (rows : List (Bool × ℕ × List (List Bool)))
    (hrows : ∀ x ∈ rows, x.2.2.length = size) (shift : ℕ) (outputSymbol : List Bool)
    (hlength : outputSymbol.length = size) :
    (addRows state rows shift outputSymbol).length = size := by
  induction rows generalizing shift outputSymbol with
  | nil => exact hlength
  | cons x rows ih =>
    rw [List.forall_mem_cons] at hrows
    obtain ⟨bit, memorySize, row⟩ := x
    obtain ⟨hrow, hrest⟩ := hrows
    rw [addRows]
    refine ih hrest _ _ ?_
    rw [List.length_zipWith, hlength, hrow, Nat.min_self]

theorem length_inputSymbolToOutputSymbol (state inputSymbol : List Bool) :
    (c.inputSymbolToOutputSymbol state inputSymbol).length = c.codeRateParamaterN := by
  refine length_addRows _ (fun x hx ↦ ?_) 0 _ List.length_replicate
  have hx := List.of_mem_zip (List.mem_reverse.1 hx)
  exact length_row (List.of_mem_zip hx.2).2

/-- An output symbol that a state can have. -/
theorem exists_of_inputSymbols {j d : ℕ} (hstate : state.length = c.memorySizeSum)
    (h : c.inputSymbols (reverseToDecimal state, j) = some d) :
    ∃ inputSymbol : List Bool, inputSymbol.length = c.codeRateParamaterK ∧
      d = reverseToDecimal inputSymbol ∧
      j = reverseToDecimal (c.inputSymbolToOutputSymbol state inputSymbol) := by
  have hmem := mem_of_tabulate (h.trans_ne (Option.some_ne_none d))
  rw [← inputSymbols, h] at hmem
  obtain ⟨x, hx, heq⟩ := List.mem_map.1 hmem
  obtain ⟨hlength, inputSymbol, hinput, hsymbol⟩ := mem_statesAndInputs.1 hx
  rw [Prod.mk.injEq, Prod.mk.injEq, Option.some.injEq, hsymbol, decimalToInputSymbol_eq hinput,
    eq_of_reverseToDecimal (hlength.trans hstate.symm) heq.1.1] at heq
  exact ⟨inputSymbol, hinput, heq.2.symm, heq.1.2.symm⟩

theorem inputSymbols_eq (h : c.Distinguishes) (hstate : state.length = c.memorySizeSum)
    (hinput : inputSymbol.length = c.codeRateParamaterK) :
    c.inputSymbols (reverseToDecimal state,
        reverseToDecimal (c.inputSymbolToOutputSymbol state inputSymbol)) =
      some (reverseToDecimal inputSymbol) := by
  refine tabulate_of_mem (List.mem_map.2 ⟨(state, reverseToDecimal inputSymbol),
    mem_statesAndInputs.2 ⟨hstate, inputSymbol, hinput, rfl⟩, ?_⟩) fun w hw ↦ ?_
  · rw [decimalToInputSymbol_eq hinput]
  · obtain ⟨x, hx, heq⟩ := List.mem_map.1 hw
    obtain ⟨hlength, inputSymbol', hinput', hsymbol⟩ := mem_statesAndInputs.1 hx
    rw [Prod.mk.injEq, Prod.mk.injEq, hsymbol, decimalToInputSymbol_eq hinput',
      eq_of_reverseToDecimal (hlength.trans hstate.symm) heq.1.1] at heq
    have houtput := eq_of_reverseToDecimal (by
      rw [length_inputSymbolToOutputSymbol, length_inputSymbolToOutputSymbol]) heq.1.2
    rw [← heq.2, h state _ _ hstate hinput' hinput houtput]

/-! ### Next states -/

/-- A bit that is shifted in has a place, if the last has a register. -/
theorem shift_lt {x : Bool × ℕ} {rest : List (Bool × ℕ)} {shift : ℕ}
    (hsum : shift + ((x :: rest).map Prod.snd).sum ≤ size)
    (hlast : ∀ y ∈ (x :: rest).getLast?, 0 < y.2) :
    shift < size ∧ shift + x.2 + (rest.map Prod.snd).sum ≤ size ∧
      ∀ y ∈ rest.getLast?, 0 < y.2 := by
  rw [List.map_cons, List.sum_cons] at hsum
  refine ⟨?_, by omega, fun y hy ↦ hlast y ?_⟩
  · cases rest with
    | nil =>
      have hpos : 0 < x.2 := hlast _ rfl
      omega
    | cons z rest =>
      have hmem := List.getLast_mem (List.cons_ne_nil z rest)
      have hpos := hlast ((z :: rest).getLast (List.cons_ne_nil z rest)) (by
        rw [List.getLast?_cons_cons, List.getLast?_eq_some_getLast (List.cons_ne_nil z rest)]
        rfl)
      have hle := List.single_le_sum (fun _ _ ↦ Nat.zero_le _) _
        (List.mem_map_of_mem hmem : _ ∈ (z :: rest).map Prod.snd)
      omega
  · cases rest with
    | nil => cases hy
    | cons z rest => rwa [List.getLast?_cons_cons]

theorem length_shiftIn (rest : List (Bool × ℕ)) (shift : ℕ)
    (hsum : shift + (rest.map Prod.snd).sum ≤ bits.length)
    (hlast : ∀ x ∈ rest.getLast?, 0 < x.2) : (shiftIn rest shift bits).length = bits.length := by
  induction rest generalizing shift bits with
  | nil => rfl
  | cons x rest ih =>
    obtain ⟨hlt, hsum', hlast'⟩ := shift_lt hsum hlast
    have hlength : (setBit bits shift x.1).length = bits.length := length_setBit hlt
    exact (ih _ (by rwa [hlength]) hlast').trans hlength

/-- The first input has a register. -/
def HasFirstRegister (c : ConvolutionalCoder) : Prop :=
  ∀ l ∈ c.constraintLengths.head?, 2 ≤ l

theorem zip_memorySizes (hinput : inputSymbol.length = c.codeRateParamaterK) :
    (inputSymbol.zip c.memorySizes).map Prod.snd = c.memorySizes := by
  refine List.map_snd_zip ?_
  rw [hinput, memorySizes, List.length_map, codeRateParamaterK]

theorem sum_zip_memorySizes (hinput : inputSymbol.length = c.codeRateParamaterK) :
    ((inputSymbol.zip c.memorySizes).reverse.map Prod.snd).sum = c.memorySizeSum := by
  rw [List.map_reverse, List.sum_reverse, zip_memorySizes hinput, memorySizeSum]

/-- The bit of the first input comes last. -/
theorem getLast?_zip_memorySizes (hinput : inputSymbol.length = c.codeRateParamaterK) :
    ∃ bit l, (inputSymbol.zip c.memorySizes).reverse.getLast? = some (bit, l - 1) ∧
      c.constraintLengths.head? = some l := by
  rw [List.getLast?_reverse]
  have hne := c.constraintLengths_ne_nil
  rw [codeRateParamaterK] at hinput
  rw [memorySizes]
  generalize c.constraintLengths = lengths at hinput hne
  match inputSymbol, lengths with
  | bit :: _, l :: _ => exact ⟨bit, l, rfl, rfl⟩
  | [], [] => exact absurd rfl hne

theorem HasFirstRegister.getLast? (h : c.HasFirstRegister)
    (hinput : inputSymbol.length = c.codeRateParamaterK) :
    ∀ x ∈ (inputSymbol.zip c.memorySizes).reverse.getLast?, 0 < x.2 := by
  obtain ⟨bit, l, hlast, hhead⟩ := getLast?_zip_memorySizes hinput
  intro x hx
  rw [hlast] at hx
  obtain rfl := Option.some.inj hx
  have htwo := h l hhead
  show 0 < l - 1
  omega

/-- **The next state has a register for every bit.** -/
theorem length_nextState (h : c.HasFirstRegister) (hstate : state.length = c.memorySizeSum)
    (hinput : inputSymbol.length = c.codeRateParamaterK) :
    (c.nextState state inputSymbol).length = c.memorySizeSum := by
  have hlength := length_leftShift state
  refine (length_shiftIn _ 0 ?_ (h.getLast? hinput)).trans (hlength.trans hstate)
  rw [sum_zip_memorySizes hinput, hlength, hstate, Nat.zero_add]

theorem reverseToDecimal_replicate_false (n : ℕ) :
    reverseToDecimal (List.replicate n false) = 0 := by
  rw [reverseToDecimal, List.reverse_replicate]
  induction n with
  | zero => rfl
  | succ n ih =>
    rw [List.replicate_succ, toDecimal_cons, ih]
    rfl

theorem setBit_replicate {n pos : ℕ} (h : pos < n) (value : Bool) :
    setBit (List.replicate n value) pos value = List.replicate n value := by
  rw [setBit, if_pos (by rwa [List.length_replicate])]
  refine List.ext_getElem (by rw [List.length_set]) fun i hi _ ↦ ?_
  rw [List.getElem_set]
  simp only [List.getElem_replicate, ite_self]

theorem shiftIn_zeros (rest : List (Bool × ℕ)) (shift : ℕ) (hzeros : ∀ x ∈ rest, x.1 = false)
    (hsum : shift + (rest.map Prod.snd).sum ≤ size) (hlast : ∀ x ∈ rest.getLast?, 0 < x.2) :
    shiftIn rest shift (List.replicate size false) = List.replicate size false := by
  induction rest generalizing shift with
  | nil => rfl
  | cons x rest ih =>
    obtain ⟨hlt, hsum', hlast'⟩ := shift_lt hsum hlast
    obtain ⟨bit, memorySize⟩ := x
    rw [List.forall_mem_cons] at hzeros
    obtain ⟨rfl, hzeros'⟩ := hzeros
    rw [shiftIn, setBit_replicate hlt]
    exact ih _ hzeros' hsum' hlast'

/-- **Zeros keep the coder in the zero state.** -/
theorem nextState_zeros (h : c.HasFirstRegister) :
    c.nextState (List.replicate c.memorySizeSum false) (List.replicate c.codeRateParamaterK false) =
      List.replicate c.memorySizeSum false := by
  have hinput : (List.replicate c.codeRateParamaterK false).length = c.codeRateParamaterK :=
    List.length_replicate
  have hshift : leftShift (List.replicate c.memorySizeSum false) =
      List.replicate c.memorySizeSum false := by
    rw [leftShift, ← List.replicate_succ, List.take_replicate, List.length_replicate,
      Nat.min_eq_left (Nat.le_succ _)]
  rw [nextState, hshift]
  refine shiftIn_zeros _ 0 (fun x hx ↦ ?_) ?_ (h.getLast? hinput)
  · exact List.eq_of_mem_replicate (List.of_mem_zip (List.mem_reverse.1 hx)).1
  · rw [sum_zip_memorySizes hinput, Nat.zero_add]

/-! ### Without a first register -/

theorem lt_length_setBit (bits : List Bool) (pos : ℕ) (value : Bool) :
    pos < (setBit bits pos value).length ∧ bits.length ≤ (setBit bits pos value).length := by
  rw [setBit]
  split_ifs with h
  · rw [List.length_set]
    exact ⟨h, le_rfl⟩
  · simp only [List.length_append, List.length_replicate, List.length_singleton]
    omega

theorem head?_setBit (h : bits.head? = some true) (pos : ℕ) :
    (setBit bits pos true).head? = some true := by
  cases bits with
  | nil => cases h
  | cons bit bits =>
    rw [setBit]
    split_ifs with hlt
    · cases pos with
      | zero => rfl
      | succ pos => exact h
    · exact h

/-- The last bit is appended. -/
theorem lt_length_shiftIn (rest : List (Bool × ℕ)) (shift : ℕ) (hones : ∀ x ∈ rest, x.1 = true)
    (hhead : bits.head? = some true ∨ shift = 0)
    (hlast : ∃ bit, rest.getLast? = some (bit, 0)) :
    shift + (rest.map Prod.snd).sum < (shiftIn rest shift bits).length ∧
      (shiftIn rest shift bits).head? = some true := by
  induction rest generalizing shift bits with
  | nil =>
    obtain ⟨bit, hlast⟩ := hlast
    cases hlast
  | cons x rest ih =>
    obtain ⟨bit, memorySize⟩ := x
    rw [List.forall_mem_cons] at hones
    obtain ⟨rfl, hones'⟩ := hones
    have hhead' : (setBit bits shift true).head? = some true := by
      rcases hhead with hhead | rfl
      · exact head?_setBit hhead shift
      · cases bits with
        | nil => rfl
        | cons bit bits => rfl
    rw [shiftIn, List.map_cons, List.sum_cons, ← Nat.add_assoc]
    cases rest with
    | nil =>
      obtain ⟨bit, hlast⟩ := hlast
      obtain rfl : memorySize = 0 := congrArg Prod.snd (Option.some.inj hlast)
      exact ⟨(lt_length_setBit bits shift true).1, hhead'⟩
    | cons y rest =>
      rw [List.getLast?_cons_cons] at hlast
      exact ih _ hones' (.inl hhead') hlast

/-- **The next state is too large** for some input, if the first input has no register. -/
theorem numberOfStates_le_nextState (h : ¬ c.HasFirstRegister)
    (state : List Bool) : c.numberOfStates ≤
      reverseToDecimal (c.nextState state (List.replicate c.codeRateParamaterK true)) := by
  have hinput : (List.replicate c.codeRateParamaterK true).length = c.codeRateParamaterK :=
    List.length_replicate
  obtain ⟨bit, l, hlast, hhead⟩ := getLast?_zip_memorySizes hinput
  have hone : l - 1 = 0 := by
    by_contra hne
    refine h fun l' hl' ↦ ?_
    rw [hhead] at hl'
    obtain rfl := Option.some.inj hl'
    omega
  rw [hone] at hlast
  have hones : ∀ x ∈ ((List.replicate c.codeRateParamaterK true).zip c.memorySizes).reverse,
      x.1 = true := fun x hx ↦
    List.eq_of_mem_replicate (List.of_mem_zip (List.mem_reverse.1 hx)).1
  obtain ⟨hlength, hhead'⟩ := @lt_length_shiftIn (leftShift state) _ 0 hones (.inr rfl)
    ⟨bit, hlast⟩
  rw [sum_zip_memorySizes hinput, Nat.zero_add] at hlength
  exact le_reverseToDecimal hhead' hlength

end ConvolutionalCoder

end Inet
