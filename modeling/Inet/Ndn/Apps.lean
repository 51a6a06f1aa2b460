import Inet.Ndn.Tools
import Mathlib.Logic.Function.Basic

/-!
# Consumers and producers

The two applications above a forwarder. `ConsumerAppBase` numbers its Interests, sends one per
firing of its timer, sends an Interest again when the forwarder reports that it timed out, and
records a round-trip time for each Data. `ProducerAppBase` answers each Interest that reaches it
with a Data of the same name and number.

What the consumer knows about an Interest it has sent is kept in arrays of `HISTORY_SIZE` slots, and
number `q` owns slot `q % HISTORY_SIZE` until `HISTORY_SIZE` more Interests were created.
`onData` does not read the slot of an older number; `onTimeout` does not look.

The node is up: with the node down, `handleMessage` of either application stops the simulation. The
random draws of `createNextInterest` are inputs. `intSeqNo` and the counters are natural numbers,
so a run has fewer than 2³¹ Interests per consumer.
-/

namespace Inet.Ndn

/-- `#define HISTORY_SIZE 100`. -/
def HISTORY_SIZE : ℕ := 100

/-- `#define NUM_L1_COMPONENT 5`. -/
def NUM_L1_COMPONENT : ℕ := 5

/-- `#define NUM_L2_COMPONENT 30`. -/
def NUM_L2_COMPONENT : ℕ := 30

/-- A call of an application on the outside. -/
inductive AppEffect
  /-- `send` or `sendDelayed` to the forwarder. -/
  | send (packet : Packet)
  /-- `scheduleAt(time, expressInterestTimer)`. -/
  | scheduleAt (time : SimTime)
  /-- The four statistics of a Data, the round-trip times before they are scaled to milliseconds. -/
  | collect (allRtt lastRtt : SimTime) (numRetx : ℤ) (hopCount : ℕ)
  /-- The simulation stops. -/
  | error
  deriving DecidableEq, Repr

/-- `std::to_string` of a number that is not negative. -/
def toDecimal (n : ℕ) : CString :=
  (Nat.toDigits 10 n).map Char.toUInt8

/-! ### The consumer -/

/-- The parameters of a consumer. A negative `stopTime` stands for none. -/
structure ConsumerAppBase.Params where
  startTime : SimTime := SimTime.ms 1000
  stopTime : ℤ := -1
  cPrefix : CString
  numInterests : ℤ := -1
  interestReTx : ℤ := 1
  interestLifetime : UInt32 := 4000
  sendInterval : SimTime := SimTime.ms 1000

/-- `ConsumerAppBase`, with the arrival time of its timer while it is scheduled. -/
structure ConsumerAppBase extends ConsumerAppBase.Params where
  expressInterestTimer : Option SimTime := none
  firstSendTimeHistory : ℕ → SimTime := fun _ ↦ 0
  lastSendTimeHistory : ℕ → SimTime := fun _ ↦ 0
  numRetxHistory : ℕ → ℤ := fun _ ↦ 0
  numIntSent : ℕ := 0
  numDataReceived : ℕ := 0
  numUnsatisfied : ℕ := 0
  intSeqNo : ℕ := 0

namespace ConsumerAppBase

/-- What `createNextInterest` draws: the two `intuniform` components and the nonce. -/
structure Draw where
  l1 : Fin (NUM_L1_COMPONENT + 1)
  l2 : Fin (NUM_L2_COMPONENT + 1)
  nonce : UInt8 × UInt8 × UInt8 × UInt8
  deriving DecidableEq, Repr

/-- `createNextInterest`. -/
def createNextInterest (c : ConsumerAppBase) (now : SimTime) (draw : Draw) :
    Interest × ConsumerAppBase :=
  let l1_comp := toDecimal (draw.l1 + 1)
  let interest : Interest :=
    { name := c.cPrefix ++ ['/'.toUInt8] ++ l1_comp ++ ['/'.toUInt8] ++ toDecimal draw.l2
      prefixLength := c.cPrefix.length + l1_comp.length + 1
      kind := 0
      hopCount := 0
      seqNo := c.intSeqNo
      flood := c.intSeqNo = 0
      canBePrefix := false
      mustBeFresh := true
      interestLifetimeMs := c.interestLifetime
      nonce := [draw.nonce.1, draw.nonce.2.1, draw.nonce.2.2.1, draw.nonce.2.2.2] }
  let slot := c.intSeqNo % HISTORY_SIZE
  ({ interest with byteLength := Tools.computeTlvPacketSize (.interest interest) },
    { c with
      firstSendTimeHistory := Function.update c.firstSendTimeHistory slot now
      lastSendTimeHistory := Function.update c.lastSendTimeHistory slot now
      numRetxHistory := Function.update c.numRetxHistory slot 0 })

/-- `expressInterest`. -/
def expressInterest (c : ConsumerAppBase) (interest : Interest) :
    ConsumerAppBase × List AppEffect :=
  ({ c with intSeqNo := c.intSeqNo + 1, numIntSent := c.numIntSent + 1 },
    [.send (.interest interest)])

/-- `scheduleNextInterest`; no previous time is written `-1` in the source. -/
def scheduleNextInterest (c : ConsumerAppBase) (now : SimTime) (previous : Option SimTime) :
    ConsumerAppBase × List AppEffect :=
  let next : SimTime :=
    match previous with
    | none => if now ≤ c.startTime then c.startTime else now
    | some previous => previous + c.sendInterval
  if c.stopTime < 0 ∨ (next : ℤ) < c.stopTime then
    ({ c with expressInterestTimer := some next }, [.scheduleAt next])
  else (c, [])

/-- `startApp`, at time 0. -/
def startApp (c : ConsumerAppBase) : ConsumerAppBase × List AppEffect :=
  if c.numInterests = -1 ∨ (c.intSeqNo : ℤ) < c.numInterests then
    c.scheduleNextInterest 0 none
  else (c, [])

/-- The state `initialize()` leaves. -/
def initial (par : Params) : ConsumerAppBase :=
  (startApp { par with }).1

/-- `onData`. -/
def onData (c : ConsumerAppBase) (now : SimTime) (data : Data) :
    ConsumerAppBase × List AppEffect :=
  let old : Bool := (c.intSeqNo : ℤ) - data.seqNo > HISTORY_SIZE
  let slot := data.seqNo % HISTORY_SIZE
  let allRtt := if old then 0 else now - c.firstSendTimeHistory slot
  let lastRtt := if old then 0 else now - c.lastSendTimeHistory slot
  let numRetx := if old then 0 else c.numRetxHistory slot
  ({ c with numDataReceived := c.numDataReceived + 1 },
    [.collect allRtt lastRtt numRetx data.hopCount])

/-- The Interest as it is sent once more. -/
def again (interest : Interest) : Interest :=
  { interest with hopCount := 0, kind := 0, flood := true }

/-- `onTimeout`. -/
def onTimeout (c : ConsumerAppBase) (now : SimTime) (interest : Interest) :
    ConsumerAppBase × List AppEffect :=
  let slot := interest.seqNo % HISTORY_SIZE
  if c.numRetxHistory slot < c.interestReTx then
    ({ c with
        lastSendTimeHistory := Function.update c.lastSendTimeHistory slot now
        numRetxHistory := Function.update c.numRetxHistory slot (c.numRetxHistory slot + 1) },
      [.send (.interest (again interest))])
  else ({ c with numUnsatisfied := c.numUnsatisfied + 1 }, [])

/-- The branch of `handleMessage` for `expressInterestTimer`, which the kernel has just taken off
the schedule. -/
def handleTimer (c : ConsumerAppBase) (now : SimTime) (draw : Draw) :
    ConsumerAppBase × List AppEffect :=
  let c := { c with expressInterestTimer := none }
  let (interest, c) := c.createNextInterest now draw
  let (c, fx) := c.expressInterest interest
  if (c.numIntSent : ℤ) < c.numInterests then
    let (c, fx') := c.scheduleNextInterest now (some now)
    (c, fx ++ fx')
  else (c, fx)

/-- The branch of `handleMessage` for packets. -/
def handlePacket (c : ConsumerAppBase) (now : SimTime) (packet : Packet) :
    ConsumerAppBase × List AppEffect :=
  if packet.kind = TIMEOUT_CODE then
    match packet with
    | .interest interest => c.onTimeout now interest
    | .data _ => (c, [.error])
  else
    match packet with
    | .data data => c.onData now data
    | .interest _ => (c, [])

/-! ### What the handlers of the consumer do -/

@[simp]
theorem createNextInterest_seqNo (c : ConsumerAppBase) (now : SimTime) (draw : Draw) :
    (c.createNextInterest now draw).1.seqNo = c.intSeqNo :=
  rfl

@[simp]
theorem createNextInterest_kind (c : ConsumerAppBase) (now : SimTime) (draw : Draw) :
    (c.createNextInterest now draw).1.kind = 0 :=
  rfl

/-- Scheduling changes the timer only. -/
theorem scheduleNextInterest_spec (c : ConsumerAppBase) (now : SimTime)
    (previous : Option SimTime) :
    ∃ timer fx,
      c.scheduleNextInterest now previous = ({ c with expressInterestTimer := timer }, fx) ∧
      (fx = [] ∨ ∃ time, fx = [.scheduleAt time]) := by
  have hdone : ∀ next : SimTime, ∃ timer fx,
      (if c.stopTime < 0 ∨ (next : ℤ) < c.stopTime then
        ({ c with expressInterestTimer := some next }, [.scheduleAt next])
      else (c, [])) = ({ c with expressInterestTimer := timer }, fx) ∧
        (fx = [] ∨ ∃ time, fx = [AppEffect.scheduleAt time]) := by
    intro next
    split
    · exact ⟨_, _, rfl, .inr ⟨_, rfl⟩⟩
    · exact ⟨c.expressInterestTimer, [], rfl, .inl rfl⟩
  exact hdone _

/-- The timer sends one new Interest and perhaps schedules itself again. -/
theorem handleTimer_spec (c : ConsumerAppBase) (now : SimTime) (draw : Draw) :
    ∃ timer fx, c.handleTimer now draw =
      ({ (c.createNextInterest now draw).2 with
          expressInterestTimer := timer
          intSeqNo := c.intSeqNo + 1
          numIntSent := c.numIntSent + 1 },
        .send (.interest (c.createNextInterest now draw).1) :: fx) ∧
      (fx = [] ∨ ∃ time, fx = [.scheduleAt time]) := by
  obtain ⟨timer, fx, hschedule, hfx⟩ := scheduleNextInterest_spec
    { (c.createNextInterest now draw).2 with
      expressInterestTimer := none
      intSeqNo := c.intSeqNo + 1
      numIntSent := c.numIntSent + 1 } now (some now)
  unfold handleTimer
  dsimp only
  split
  · refine ⟨timer, fx, ?_, hfx⟩
    exact congrArg (fun r : ConsumerAppBase × List AppEffect ↦
      (r.1, AppEffect.send (.interest (c.createNextInterest now draw).1) :: r.2)) hschedule
  · exact ⟨none, [], rfl, .inl rfl⟩

/-- A packet does not change the number of the next Interest. -/
theorem handlePacket_intSeqNo (c : ConsumerAppBase) (now : SimTime) (packet : Packet) :
    (c.handlePacket now packet).1.intSeqNo = c.intSeqNo := by
  unfold handlePacket
  split
  · cases packet with
    | interest i =>
      dsimp only [onTimeout]
      split <;> rfl
    | data d => rfl
  · cases packet <;> rfl

theorem handlePacket_data (c : ConsumerAppBase) (now : SimTime) {d : Data}
    (hkind : d.kind ≠ TIMEOUT_CODE) : c.handlePacket now (.data d) = c.onData now d :=
  if_neg hkind

/-! ### What the consumer remembers -/

/-- The times at which an Interest of a number is sent by the calls of one event. -/
def sendTimes (q : ℕ) (now : SimTime) (fx : List AppEffect) : List SimTime :=
  fx.filterMap fun
    | .send (.interest i) => if i.seqNo = q then some now else none
    | _ => none

/-- Two numbers in the window do not share a slot. -/
theorem slot_ne {size next q r : ℕ} (hq : q < next) (hq' : next ≤ q + size) (hr : r < next)
    (hr' : next ≤ r + size) (hne : q ≠ r) : q % size ≠ r % size := by
  intro heq
  rcases Nat.lt_or_gt_of_ne hne with hlt | hlt
  · have hzero := Nat.sub_mod_eq_zero_of_mod_eq heq.symm
    rw [Nat.mod_eq_of_lt (by omega)] at hzero
    omega
  · have hzero := Nat.sub_mod_eq_zero_of_mod_eq heq
    rw [Nat.mod_eq_of_lt (by omega)] at hzero
    omega

/-- The slot of a number tells when it was sent first and last, and how often again. -/
def SlotHolds (c : ConsumerAppBase) (q : ℕ) (times : List SimTime) : Prop :=
  times.head? = some (c.firstSendTimeHistory (q % HISTORY_SIZE)) ∧
    times.getLast? = some (c.lastSendTimeHistory (q % HISTORY_SIZE)) ∧
      (times.length : ℤ) = c.numRetxHistory (q % HISTORY_SIZE) + 1

/-- The slots of the last `HISTORY_SIZE` numbers hold what happened to them, `times q` being the
times at which number `q` was sent. -/
structure Remembers (c : ConsumerAppBase) (times : ℕ → List SimTime) : Prop where
  unsent : ∀ q, c.intSeqNo ≤ q → times q = []
  slot : ∀ q < c.intSeqNo, c.intSeqNo ≤ q + HISTORY_SIZE → c.SlotHolds q (times q)

/-- A number that is not sent keeps its slot. -/
theorem SlotHolds.congr {c c' : ConsumerAppBase} {q : ℕ} {times : List SimTime}
    (h : c.SlotHolds q times)
    (hfirst : c'.firstSendTimeHistory (q % HISTORY_SIZE) =
      c.firstSendTimeHistory (q % HISTORY_SIZE))
    (hlast : c'.lastSendTimeHistory (q % HISTORY_SIZE) = c.lastSendTimeHistory (q % HISTORY_SIZE))
    (hretx : c'.numRetxHistory (q % HISTORY_SIZE) = c.numRetxHistory (q % HISTORY_SIZE)) :
    c'.SlotHolds q times :=
  ⟨hfirst ▸ h.1, hlast ▸ h.2.1, hretx ▸ h.2.2⟩

@[simp]
theorem initial_intSeqNo (par : Params) : (initial par).intSeqNo = 0 := by
  obtain ⟨timer, fx, hschedule, -⟩ := scheduleNextInterest_spec { par with } 0 none
  unfold initial startApp
  split
  · rw [hschedule]
  · rfl

theorem remembers_initial (par : Params) : (initial par).Remembers fun _ ↦ [] :=
  ⟨fun _ _ ↦ rfl, fun q hq ↦ absurd hq (by simp)⟩

/-- The timer sends the next number, once. -/
theorem sendTimes_handleTimer (c : ConsumerAppBase) (now : SimTime) (draw : Draw) (q : ℕ) :
    sendTimes q now (c.handleTimer now draw).2 = if q = c.intSeqNo then [now] else [] := by
  obtain ⟨timer, fx, heq, hfx⟩ := handleTimer_spec c now draw
  rw [heq]
  rcases hfx with rfl | ⟨time, rfl⟩ <;> by_cases hq : q = c.intSeqNo <;>
    simp [sendTimes, hq, eq_comm]

/-- A new Interest takes the slot of its number. -/
theorem Remembers.handleTimer {c : ConsumerAppBase} {times : ℕ → List SimTime}
    (h : c.Remembers times) (now : SimTime) (draw : Draw) :
    (c.handleTimer now draw).1.Remembers fun q ↦
      times q ++ sendTimes q now (c.handleTimer now draw).2 := by
  obtain ⟨timer, fx, heq, -⟩ := handleTimer_spec c now draw
  simp only [sendTimes_handleTimer]
  rw [heq]
  constructor
  · intro q hq
    have hq : c.intSeqNo < q := hq
    rw [h.unsent q (by omega), if_neg (by omega), List.append_nil]
  · intro q hq hwin
    have hq : q < c.intSeqNo + 1 := hq
    have hwin : c.intSeqNo + 1 ≤ q + HISTORY_SIZE := hwin
    -- the new Interest takes over the slot of a number that has left the window
    by_cases hnew : q = c.intSeqNo
    · subst hnew
      rw [h.unsent _ le_rfl, if_pos rfl]
      exact ⟨by simp [createNextInterest], by simp [createNextInterest],
        by simp [createNextInterest]⟩
    · have hslot : q % HISTORY_SIZE ≠ c.intSeqNo % HISTORY_SIZE :=
        slot_ne hq hwin (Nat.lt_succ_self _) (by simp [HISTORY_SIZE]) hnew
      rw [if_neg hnew, List.append_nil]
      exact (h.slot q (by omega) (by omega)).congr (Function.update_of_ne hslot ..)
        (Function.update_of_ne hslot ..) (Function.update_of_ne hslot ..)

/-- A time-out of a number in the window changes no other slot. -/
theorem Remembers.onTimeout {c : ConsumerAppBase} {times : ℕ → List SimTime}
    (h : c.Remembers times) (now : SimTime) {i : Interest} (hsent : i.seqNo < c.intSeqNo)
    (hwin : c.intSeqNo ≤ i.seqNo + HISTORY_SIZE) :
    (c.onTimeout now i).1.Remembers fun q ↦
      times q ++ sendTimes q now (c.onTimeout now i).2 := by
  unfold ConsumerAppBase.onTimeout
  dsimp only
  split
  · have hsend : ∀ q, sendTimes q now [.send (.interest (again i))] =
        if q = i.seqNo then [now] else [] := by
      intro q
      by_cases hq : q = i.seqNo <;> simp [sendTimes, again, hq, eq_comm]
    simp only [hsend]
    constructor
    · intro q hq
      have hq : c.intSeqNo ≤ q := hq
      rw [h.unsent q hq, if_neg (by omega), List.append_nil]
    · intro q hq hq'
      by_cases hsame : q = i.seqNo
      · subst hsame
        obtain ⟨hfirst, -, hretx⟩ := h.slot _ hsent hwin
        have hne : times i.seqNo ≠ [] := by
          rintro hnil
          simp [hnil] at hfirst
        rw [if_pos rfl]
        exact ⟨by rw [List.head?_append_of_ne_nil _ hne, hfirst], by simp, by simp [hretx]⟩
      · have hslot : q % HISTORY_SIZE ≠ i.seqNo % HISTORY_SIZE := slot_ne hq hq' hsent hwin hsame
        rw [if_neg hsame, List.append_nil]
        exact (h.slot q hq hq').congr rfl (Function.update_of_ne hslot ..)
          (Function.update_of_ne hslot ..)
  · simpa [sendTimes] using ⟨h.unsent, h.slot⟩

/-- A packet keeps the slots right, unless it is a time-out of a number out of the window. -/
theorem Remembers.handlePacket {c : ConsumerAppBase} {times : ℕ → List SimTime}
    (h : c.Remembers times) (now : SimTime) {p : Packet}
    (hwin : ∀ i, p = .interest i → i.kind = TIMEOUT_CODE →
      i.seqNo < c.intSeqNo ∧ c.intSeqNo ≤ i.seqNo + HISTORY_SIZE) :
    (c.handlePacket now p).1.Remembers fun q ↦
      times q ++ sendTimes q now (c.handlePacket now p).2 := by
  unfold ConsumerAppBase.handlePacket
  split
  · rename_i hkind
    cases p with
    | interest i =>
      obtain ⟨hsent, hwin⟩ := hwin i rfl hkind
      exact h.onTimeout now hsent hwin
    | data d => simpa [sendTimes] using ⟨h.unsent, h.slot⟩
  · cases p with
    | interest i => simpa [sendTimes] using ⟨h.unsent, h.slot⟩
    | data d => simpa [sendTimes, ConsumerAppBase.onData] using ⟨h.unsent, h.slot⟩

/-- **What `onData` records belongs to the number of the Data**, while that number is in the
window. -/
theorem Remembers.onData {c : ConsumerAppBase} {times : ℕ → List SimTime} (h : c.Remembers times)
    (now : SimTime) {d : Data} (hsent : d.seqNo < c.intSeqNo)
    (hwin : c.intSeqNo ≤ d.seqNo + HISTORY_SIZE) :
    ∃ first last, (times d.seqNo).head? = some first ∧ (times d.seqNo).getLast? = some last ∧
      (c.onData now d).2 =
        [.collect (now - first) (now - last) ((times d.seqNo).length - 1) d.hopCount] := by
  obtain ⟨hfirst, hlast, hretx⟩ := h.slot _ hsent hwin
  have hold : ¬ (c.intSeqNo : ℤ) - d.seqNo > HISTORY_SIZE := by omega
  refine ⟨_, _, hfirst, hlast, ?_⟩
  simp only [ConsumerAppBase.onData, hold, decide_false, hretx]
  simp

end ConsumerAppBase

/-! ### The producer -/

/-- The parameters of a producer. A negative `stopTime` stands for none. -/
structure ProducerAppBase.Params where
  startTime : SimTime := 0
  stopTime : ℤ := -1
  pPrefix : CString
  dataFreshness : UInt32 := 0
  deriving DecidableEq, Repr

/-- `ProducerAppBase`. -/
structure ProducerAppBase extends ProducerAppBase.Params where
  numIntReceived : ℕ := 0
  numDataSent : ℕ := 0
  deriving DecidableEq, Repr

namespace ProducerAppBase

/-- `registerPrefix`. -/
def registerPrefix (p : ProducerAppBase) : List AppEffect :=
  [.send (.interest { name := p.pPrefix, kind := REGISTER_PREFIX_CODE })]

/-- What `initialize()` does: a prefix that starts with a slash is registered. -/
def initial (par : Params) : ProducerAppBase × List AppEffect :=
  let p : ProducerAppBase := { par with }
  (p, if p.pPrefix.take 1 = ['/'.toUInt8] then p.registerPrefix else [])

/-- The Data that answers an Interest. -/
def dataFor (p : ProducerAppBase) (interest : Interest) : Data :=
  let data : Data :=
    { name := interest.name
      seqNo := interest.seqNo
      prefixLength := p.pPrefix.length
      hopCount := 0
      freshnessPeriod := p.dataFreshness }
  { data with byteLength := Tools.computeTlvPacketSize (.data data) }

/-- `processInterest`, which is all that `handleMessage` does with a packet. -/
def processInterest (p : ProducerAppBase) (now : SimTime) (packet : Packet) :
    ProducerAppBase × List AppEffect :=
  match packet with
  | .interest interest =>
    let p := { p with numIntReceived := p.numIntReceived + 1 }
    if p.startTime ≤ now ∧ (p.stopTime < 0 ∨ (now : ℤ) < p.stopTime) then
      ({ p with numDataSent := p.numDataSent + 1 }, [.send (.data (p.dataFor interest))])
    else (p, [])
  | .data _ => (p, [])

end ProducerAppBase

end Inet.Ndn
