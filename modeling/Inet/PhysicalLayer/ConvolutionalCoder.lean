import Mathlib
import Inet.Foundations.SetBits
import Inet.Foundations.Fallible

/-!
# The convolutional coder

`ConvolutionalCoder` encodes bits with shift registers, leaves some of the encoded bits out, and
decodes with Viterbi's algorithm. A coder is what its constructor makes of a `ConvolutionalCode`:
the generator polynomials are there as bits, and fit the constraint lengths.

The tables of the coder are written in loops over states and symbols. This module has the code and
what is in the tables; that the decoder finds a string that is encoded closest to what it has
received is in `ConvolutionalDecoding`.
-/

namespace Inet

/-! ### Bits -/

namespace BitVector

/-- `ShortBitVector(bits, size)`. -/
def ofDecimal (bits size : ℕ) : List Bool :=
  (List.range size).map bits.testBit

/-- `toDecimal`. -/
def toDecimal (bits : List Bool) : ℕ :=
  bits.foldr Nat.bit 0

/-- `reverseToDecimal`. -/
def reverseToDecimal (bits : List Bool) : ℕ :=
  toDecimal bits.reverse

/-- `leftShift(1)`. -/
def leftShift (bits : List Bool) : List Bool :=
  (false :: bits).take bits.length

/-- `setBit`. -/
def setBit (bits : List Bool) (pos : ℕ) (value : Bool) : List Bool :=
  if pos < bits.length then bits.set pos value
  else bits ++ List.replicate (pos - bits.length) false ++ [value]

/-- `computeHammingDistance`. -/
def computeHammingDistance (u v : List Bool) : ℕ :=
  (List.zipWith bne u v).count true

end BitVector

open BitVector

/-- A table into whose entries some values are written, one after the other. -/
def tabulate {κ α : Type} [DecidableEq κ] (empty : α) (writes : List (κ × α)) : κ → α :=
  writes.foldl (fun table w ↦ Function.update table w.1 w.2) fun _ ↦ empty

/-- What is in the table, if all that is written into an entry is the same. -/
theorem tabulate_of_mem {κ α : Type} [DecidableEq κ] {empty : α} {writes : List (κ × α)} {k : κ}
    {v : α} (hmem : (k, v) ∈ writes) (hsame : ∀ w, (k, w) ∈ writes → w = v) :
    tabulate empty writes k = v := by
  induction writes using List.reverseRecOn with
  | nil => exact absurd hmem List.not_mem_nil
  | append_singleton writes w ih =>
    rw [tabulate, List.foldl_append, List.foldl_cons, List.foldl_nil, ← tabulate]
    by_cases hk : k = w.1
    · subst hk
      rw [Function.update_self]
      exact hsame _ (List.mem_append_right _ (List.mem_singleton_self w))
    · rw [Function.update_of_ne hk]
      rcases List.mem_append.1 hmem with hmem | hmem
      · exact ih hmem fun w hw ↦ hsame w (List.mem_append_left _ hw)
      · exact absurd (congrArg Prod.fst (List.mem_singleton.1 hmem)) hk

/-! ### The coder -/

/-- What stops the coder. -/
inductive CoderError
  | assertionFailed
  | outOfRange
  | invalidLength
  deriving DecidableEq, Repr

/-- The `mode` of a coder. -/
inductive CoderMode
  | terminated
  | truncated
  deriving DecidableEq, Repr

/-- `INT32_MAX`. -/
def INT32_MAX : ℕ :=
  2 ^ 31 - 1

/-- The parameters of a coder, as its constructor checks them. The numbers of symbols and of states
are `int`s, and a constraint length counts the input itself. -/
structure ConvolutionalCoder where
  mode : CoderMode
  codeRatePuncturingK : ℕ
  codeRatePuncturingN : ℕ
  codeRateParamaterN : ℕ
  constraintLengths : List ℕ
  transferFunctionMatrix : List (List (List Bool))
  puncturingMatrix : List (List Bool)
  puncturingMatrixSize : ℕ
  codeRateParamaterN_pos : 0 < codeRateParamaterN
  codeRateParamaterN_le : codeRateParamaterN ≤ 30
  codeRatePuncturingN_pos : 0 < codeRatePuncturingN
  puncturingMatrixSize_pos : 0 < puncturingMatrixSize
  constraintLengths_ne_nil : constraintLengths ≠ []
  constraintLengths_le : constraintLengths.length ≤ 30
  constraintLengths_pos : ∀ l ∈ constraintLengths, 0 < l
  memorySizeSum_le : (constraintLengths.map fun l ↦ l - 1).sum ≤ 30
  transferFunctionMatrix_row : List.Forall₂ (fun row l ↦ row.length = codeRateParamaterN ∧
    ∀ generatorPolynomial ∈ row, generatorPolynomial.length = l) transferFunctionMatrix constraintLengths
  puncturingMatrix_length : puncturingMatrix.length = codeRateParamaterN
  puncturingMatrix_row : ∀ row ∈ puncturingMatrix, row.length = puncturingMatrixSize

namespace ConvolutionalCoder

variable (c : ConvolutionalCoder)

/-- `codeRateParamaterK`. -/
def codeRateParamaterK : ℕ :=
  c.constraintLengths.length

/-- `computeMemorySizes`. -/
def memorySizes : List ℕ :=
  c.constraintLengths.map fun l ↦ l - 1

/-- `computeMemorySizeSum`. -/
def memorySizeSum : ℕ :=
  c.memorySizes.sum

/-- `computeNumberOfStates`. -/
def numberOfStates : ℕ :=
  2 ^ c.memorySizeSum

/-- `numberOfInputSymbols`. -/
def numberOfInputSymbols : ℕ :=
  2 ^ c.codeRateParamaterK

/-- `numberOfOutputSymbols`. -/
def numberOfOutputSymbols : ℕ :=
  2 ^ c.codeRateParamaterN

/-! ### The tables -/

/-- `ConvolutionalCoder::modulo2Adder`. -/
def modulo2Adder (shiftRegisters generatorPolynomial : List Bool) : Bool :=
  (generatorPolynomial.zip shiftRegisters).foldl
    (fun sum x ↦ if x.1 then sum != x.2 else sum) false

/-- The loop of `inputSymbolToOutputSymbol`, over the bits of the input with their memory sizes and
polynomials. -/
def addRows (state : List Bool) :
    List (Bool × ℕ × List (List Bool)) → ℕ → List Bool → List Bool
  | [], _, outputSymbol => outputSymbol
  | (bit, memorySize, row) :: rest, shift, outputSymbol =>
    let shiftRegisters := bit :: (List.range memorySize).map fun k ↦ state.getD (shift + k) false
    addRows state rest (shift + memorySize)
      (List.zipWith (fun sum generatorPolynomial ↦
        sum != modulo2Adder shiftRegisters generatorPolynomial) outputSymbol row)

/-- `ConvolutionalCoder::inputSymbolToOutputSymbol`: the last bit of the input comes first. -/
def inputSymbolToOutputSymbol (state inputSymbol : List Bool) : List Bool :=
  addRows state (inputSymbol.zip (c.memorySizes.zip c.transferFunctionMatrix)).reverse 0
    (List.replicate c.codeRateParamaterN false)

/-- The inner loop of `computeStateTransitions`. -/
def shiftIn : List (Bool × ℕ) → ℕ → List Bool → List Bool
  | [], _, nextState => nextState
  | (bit, memorySize) :: rest, shift, nextState =>
    shiftIn rest (shift + memorySize) (setBit nextState shift bit)

/-- The state after an input. -/
def nextState (state inputSymbol : List Bool) : List Bool :=
  shiftIn (inputSymbol.zip c.memorySizes).reverse 0 (leftShift state)

/-- The states, and the input symbols, in the order of the loops. -/
def states : List (List Bool) :=
  (List.range c.numberOfStates).map fun decState ↦ ofDecimal decState c.memorySizeSum

def symbols (size : ℕ) : List (List Bool) :=
  (List.range (2 ^ size)).map fun i ↦ ofDecimal i size

/-- `decimalToInputSymbol` and `decimalToOutputSymbol`. -/
def decimalToSymbol (size : ℕ) : ℕ → List Bool :=
  tabulate [] ((symbols size).map fun symbol ↦ (reverseToDecimal symbol, symbol))

/-- `decimalToInputSymbol`. -/
def decimalToInputSymbol : ℕ → List Bool :=
  decimalToSymbol c.codeRateParamaterK

/-- `computeDecimalToOutputSymbolVector`. -/
def decimalToOutputSymbol : ℕ → List Bool :=
  decimalToSymbol c.codeRateParamaterN

/-- The turns of the loops of `computeOutputAndInputSymbols`. -/
def statesAndInputs : List (List Bool × ℕ) :=
  c.states.flatMap fun state ↦ (List.range c.numberOfInputSymbols).map fun decInputSymbol ↦
    (state, decInputSymbol)

/-- `outputSymbols`, by state and input symbol. -/
def outputSymbols : ℕ × ℕ → List Bool :=
  tabulate [] (c.statesAndInputs.map fun x ↦ ((reverseToDecimal x.1, x.2),
    c.inputSymbolToOutputSymbol x.1 (c.decimalToInputSymbol x.2)))

/-- `inputSymbols`, by state and output symbol; `none` stands for `-1`. -/
def inputSymbols : ℕ × ℕ → Option ℕ :=
  tabulate none (c.statesAndInputs.map fun x ↦ ((reverseToDecimal x.1, reverseToDecimal
    (c.inputSymbolToOutputSymbol x.1 (c.decimalToInputSymbol x.2))), some x.2))

/-- `computeStateTransitions`: `stateTransitions`, by state and input symbol. -/
def stateTransitions : ℕ × ℕ → Option ℕ :=
  tabulate none (c.states.flatMap fun state ↦ (symbols c.codeRateParamaterK).map fun inputSymbol ↦
    ((reverseToDecimal state, reverseToDecimal inputSymbol),
      some (reverseToDecimal (c.nextState state inputSymbol))))

/-- An index into the tables and the trellis graph. -/
def checkState : Option ℕ → Except CoderError ℕ
  | some state => if state < c.numberOfStates then .ok state else .error .outOfRange
  | none => .error .outOfRange

/-! ### Encoding -/

/-- `ConvolutionalCoder::getPuncturedIndices`: the bit at `codeRateParamaterN * j + i` is in row `i`
of the puncturing matrix. -/
def getPuncturedIndices (length : ℕ) : List Bool :=
  (List.range length).map fun p ↦ !((c.puncturingMatrix.getD (p % c.codeRateParamaterN) []).getD
    (p / c.codeRateParamaterN % c.puncturingMatrixSize) false)

/-- The bits that are not punctured. -/
def dropPunctured (isPunctured informationBits : List Bool) : List Bool :=
  ((informationBits.zip isPunctured).filter fun x ↦ !x.2).map Prod.fst

/-- `ConvolutionalCoder::puncturing`. -/
def puncturing (informationBits : List Bool) : List Bool :=
  dropPunctured (c.getPuncturedIndices informationBits.length) informationBits

/-- The loop of `encode`. -/
def encodeSymbols : ℕ → Option ℕ → List Bool → Except CoderError (List Bool)
  | 0, _, _ => .ok []
  | n + 1, state, informationBits => do
    let inputSymbolDec := reverseToDecimal (informationBits.take c.codeRateParamaterK)
    let state ← c.checkState state
    let encodedSymbol := c.outputSymbols (state, inputSymbolDec)
    let encodedInformationBits ← encodeSymbols n (c.stateTransitions (state, inputSymbolDec))
      (informationBits.drop c.codeRateParamaterK)
    return encodedSymbol ++ encodedInformationBits

/-- `ConvolutionalCoder::encode`. -/
def encode (informationBits : List Bool) : Except CoderError (List Bool) := do
  if informationBits.length % c.codeRateParamaterK ≠ 0 then
    throw .invalidLength
  let encodedInformationBits ← c.encodeSymbols (informationBits.length / c.codeRateParamaterK)
    (some 0) informationBits
  return c.puncturing encodedInformationBits

/-! ### Decoding -/

/-- The bits that have been left out are taken for zeros. -/
def fillPunctured : List Bool → List Bool → Except CoderError (List Bool)
  | [], _ => .ok []
  | true :: isPunctured, decodedBits => return false :: (← fillPunctured isPunctured decodedBits)
  | false :: isPunctured, bit :: decodedBits => return bit :: (← fillPunctured isPunctured decodedBits)
  | false :: _, [] => .error .outOfRange

/-- The number of symbols that are decoded. -/
def decodedSymbols (length : ℕ) : ℕ :=
  length / c.codeRatePuncturingN * c.codeRatePuncturingK / c.codeRateParamaterK

/-- `ConvolutionalCoder::depuncturing`: the bits, and which of them are punctured. -/
def depuncturing (decodedBits : List Bool) : Except CoderError (List Bool × List Bool) := do
  if decodedBits.length % c.codeRatePuncturingN ≠ 0 then
    throw .assertionFailed
  let isPunctured :=
    c.getPuncturedIndices (c.decodedSymbols decodedBits.length * c.codeRateParamaterN)
  return (← fillPunctured isPunctured decodedBits, isPunctured)

/-- `TrellisGraphNode`; `none` stands for `-1`. -/
structure TrellisGraphNode where
  symbol : Option ℕ := none
  state : Option ℕ := none
  prevState : Option ℕ := none
  comulativeHammingDistance : ℕ := INT32_MAX
  numberOfErrors : ℕ := 0
  depth : ℕ := 0
  deriving DecidableEq, Repr

/-- The trellis graph, by state and time. -/
abbrev TrellisGraph :=
  ℕ → ℕ → TrellisGraphNode

/-- What a turn of the loops of `updateTrellisGraph` changes: the graph, and the counter and the
random numbers of the ties. -/
structure Update where
  trellisGraph : TrellisGraph
  tieBreakingCounter : ℕ := 0
  draws : ℕ := 0

/-- An entry of `hammingDistanceLookupTable`. -/
def hammingDistance (u counts w : List Bool) : ℕ :=
  SetBits.countBits ((toDecimal u ^^^ toDecimal w) &&& toDecimal counts)

/-- One path goes on from `prevState` at `time`. -/
def relax (dblrand : ℕ → ℚ) (time prevState : ℕ) (hammingDistance feasibleDecodedSymbol newState : ℕ)
    (u : Update) : Update :=
  let node := u.trellisGraph prevState time
  let best := u.trellisGraph newState (time + 1)
  let cumulativeHammingDistance := hammingDistance +
    if node.comulativeHammingDistance ≠ INT32_MAX then node.comulativeHammingDistance else 0
  let replaced : TrellisGraph := Function.update u.trellisGraph newState
    (Function.update (u.trellisGraph newState) (time + 1)
      { symbol := some feasibleDecodedSymbol
        state := some newState
        prevState := some prevState
        comulativeHammingDistance := cumulativeHammingDistance
        numberOfErrors := node.numberOfErrors + if 0 < hammingDistance then 1 else 0
        depth := node.depth + 1 })
  if cumulativeHammingDistance = best.comulativeHammingDistance then
    let tieBreakingCounter := u.tieBreakingCounter + 1
    if dblrand u.draws < 1 / tieBreakingCounter then ⟨replaced, tieBreakingCounter, u.draws + 1⟩
    else ⟨u.trellisGraph, tieBreakingCounter, u.draws + 1⟩
  else if cumulativeHammingDistance < best.comulativeHammingDistance then ⟨replaced, 0, u.draws⟩
  else u

/-- The inner loop of `updateTrellisGraph`. -/
def updateState (dblrand : ℕ → ℚ) (time : ℕ) (outputSymbol counts : List Bool) (u : Update)
    (prevState : ℕ) : Except CoderError Update :=
  if (u.trellisGraph prevState time).state.isSome then
    (List.range c.numberOfOutputSymbols).foldlM (fun u j ↦
      match c.inputSymbols (prevState, j) with
      | some feasibleDecodedSymbol => do
        let newState ← c.checkState (c.stateTransitions (prevState, feasibleDecodedSymbol))
        return relax dblrand time prevState
          (hammingDistance outputSymbol counts (c.decimalToOutputSymbol j)) feasibleDecodedSymbol
          newState u
      | none => .ok u) u
  else .ok u

/-- `ConvolutionalCoder::updateTrellisGraph`. -/
def updateTrellisGraph (dblrand : ℕ → ℚ) (time : ℕ) (outputSymbol counts : List Bool)
    (u : Update) : Except CoderError Update :=
  (List.range c.numberOfStates).foldlM (c.updateState dblrand time outputSymbol counts)
    { u with tieBreakingCounter := 0 }

/-- `ConvolutionalCoder::giveNextOutputSymbol`: the symbol, and which of its bits count. -/
def giveNextOutputSymbol (encodedBits isPunctured : List Bool) (time : ℕ) : List Bool × List Bool :=
  if encodedBits.length < (time + 1) * c.codeRateParamaterN then
    ([], List.replicate c.codeRateParamaterN true)
  else
    ((encodedBits.drop (time * c.codeRateParamaterN)).take c.codeRateParamaterN,
      ((isPunctured.drop (time * c.codeRateParamaterN)).take c.codeRateParamaterN).map not)

/-- The loop of `decode`, for up to `n` symbols. -/
def decodeLoop (dblrand : ℕ → ℚ) (encodedBits isPunctured : List Bool) :
    ℕ → ℕ → Update → Except CoderError (ℕ × Update)
  | 0, time, u => .ok (time, u)
  | n + 1, time, u =>
    let (outputSymbol, counts) := c.giveNextOutputSymbol encodedBits isPunctured time
    if outputSymbol.isEmpty then .ok (time, u)
    else do
      let u ← c.updateTrellisGraph dblrand time outputSymbol counts u
      decodeLoop dblrand encodedBits isPunctured n (time + 1) u

/-- The node at the end of the path that is chosen. -/
def bestNode (trellisGraph : TrellisGraph) (time : ℕ) : TrellisGraphNode :=
  match c.mode with
  | .terminated => trellisGraph 0 time
  | .truncated => (List.range c.numberOfStates).tail.foldl (fun best i ↦
      let currentNode := trellisGraph i time
      if currentNode.symbol.isSome ∧
        currentNode.comulativeHammingDistance < best.comulativeHammingDistance then currentNode
      else best) (trellisGraph 0 time)

/-- The bits on the way back from a node, the last first. -/
def goBack (trellisGraph : TrellisGraph) : ℕ → TrellisGraphNode → Except CoderError (List Bool)
  | 0, _ => .ok []
  | depth + 1, path => do
    let some symbol := path.symbol | throw .outOfRange
    let prevState ← c.checkState path.prevState
    let reverseDecodedBits ← goBack trellisGraph depth (trellisGraph prevState depth)
    return (c.decimalToInputSymbol symbol).reverse ++ reverseDecodedBits

/-- `ConvolutionalCoder::traversePath`. -/
def traversePath (bestNode : TrellisGraphNode) (trellisGraph : TrellisGraph) :
    Except CoderError (List Bool × Bool) :=
  if c.mode = .terminated ∧ bestNode.symbol = none then .ok ([], false)
  else do
    let reverseDecodedBits ← c.goBack trellisGraph bestNode.depth bestNode
    return (reverseDecodedBits.reverse, true)

/-- The trellis graph before the first symbol. -/
def initialGraph : TrellisGraph := fun state time ↦
  if state = 0 ∧ time = 0 then { state := some 0 } else {}

/-- `ConvolutionalCoder::decode`. -/
def decode (dblrand : ℕ → ℚ) (encodedBits : List Bool) : Except CoderError (List Bool × Bool) := do
  let (depuncturedEncodedBits, isPunctured) ← c.depuncturing encodedBits
  let (time, u) ← c.decodeLoop dblrand depuncturedEncodedBits isPunctured
    (depuncturedEncodedBits.length + 1) 0 { trellisGraph := initialGraph }
  c.traversePath (c.bestNode u.trellisGraph time) u.trellisGraph

end ConvolutionalCoder

end Inet
