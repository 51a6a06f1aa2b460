import Inet.Ndn.Cs
import Inet.Ndn.Fib
import Inet.Ndn.Pit

/-!
# The forwarder

`ForwardingBase` with its three tables. A handler maps the state to the next state and the list of
calls it made on the outside: packets sent, operations on the delayed-send message, entries added to
the PIT. Where the simulation kernel or the language would stop the simulation (a self-message
scheduled twice, a dangling packet pointer, a malformed address text, a failed cast) the list
carries an `error`; that this never happens is a theorem of a later module, not an assumption.

Two things the handlers read are inputs of an event: the time, and the random delay that
`computeInterestRandomDelay` and `computeDataRandomDelay` draw.

The packet pointer inside `sendDelayedPacket` is `some` exactly while it points to a packet the
forwarder owns; after `delete` the source leaves it dangling and it is `none` here.

`events` is the forwarder as a transition system. Self-messages fire only while they are scheduled;
otherwise any event may come at any time, which includes every order the kernel can produce.
-/

namespace Inet.Ndn

/-- `message SendDelayed`. -/
structure SendDelayed where
  delayedPacket : Option Packet := none
  type : ℕ := 0
  face : ℕ := 0
  macDest : CString := []
  macSrc : CString := []
  deriving DecidableEq, Repr

/-- The statistics of the forwarder. -/
structure RouterStat where
  numIntReceived : ℕ := 0
  numIntFwd : ℕ := 0
  numIntCanceled : ℕ := 0
  numIntDuplicated : ℕ := 0
  numDataCanceled : ℕ := 0
  numDataReceived : ℕ := 0
  numDataUnsolicited : ℕ := 0
  numDataFwd : ℕ := 0
  deriving DecidableEq, Repr

/-- What stops a simulation. -/
inductive RuntimeError
  | alreadyScheduled
  | danglingPacket
  | wrongAddressSyntax
  | failedCast
  deriving DecidableEq, Repr

/-- A call of the forwarder on the outside. -/
inductive Effect
  /-- `ndnToMacMapping(packet, macDest)` attached `ctrl`, then
  `send(packet, "lowerLayerOut", face)`. -/
  | sendLower (packet : Packet) (macDest : MACAddress) (ctrl : Ieee802Ctrl) (face : ℕ)
  /-- `send(packet, "upperLayerOut", face)`. -/
  | sendUpper (packet : Packet) (face : ℕ)
  /-- `PitBase::create` added the entry. -/
  | pitCreate (entry : PitEntry)
  /-- `sendDelayedPacket->setDelayedPacket(packet)`. -/
  | setDelayedPacket (packet : Packet)
  /-- `delete sendDelayedPacket->getDelayedPacket()`. -/
  | deleteDelayedPacket (packet : Packet)
  /-- `scheduleAt(time, sendDelayedPacket)`. -/
  | scheduleAt (time : SimTime)
  /-- `cancelEvent(sendDelayedPacket)`. -/
  | cancelEvent
  /-- The simulation stops. -/
  | error (e : RuntimeError)
  deriving DecidableEq, Repr

/-- `IB_DB`: Interest broadcast, Data broadcast. -/
def IB_DB : ℤ := 11

/-- `IB_DU`: Interest broadcast, Data unicast. -/
def IB_DU : ℤ := 12

/-- `IU_DB`: Interest unicast, Data broadcast. -/
def IU_DB : ℤ := 13

/-- `#define DEFAULT_MAC_IF 0`. -/
def DEFAULT_MAC_IF : ℕ := 0

/-- `ForwardingBase`: its parameters, its address, the delayed-send message with its arrival time
while it is scheduled, and its tables. -/
structure ForwardingBase where
  ndnMacMapping : ℤ
  forwarding : Bool
  cacheUnsolicited : Bool
  myMacAddress : MACAddress
  sendDelayedPacket : SendDelayed := {}
  scheduled : Option SimTime := none
  waiting : Bool := false
  pit : PitBase
  fib : FibBase
  cs : CsBase
  stat : RouterStat := {}
  deriving DecidableEq, Repr

namespace ForwardingBase

/-! ### Sending -/

/-- `ndnToMacMapping`: the control information attached to a packet for the link. -/
def ndnToMacMapping (s : ForwardingBase) (ndnPacket : Packet) (macDest : MACAddress) :
    Ieee802Ctrl where
  src := s.myMacAddress
  dest :=
    match ndnPacket with
    | .interest _ =>
      if s.ndnMacMapping = IB_DB ∨ s.ndnMacMapping = IB_DU then MACAddress.BROADCAST_ADDRESS
      else macDest
    | .data _ =>
      if s.ndnMacMapping = IB_DB ∨ s.ndnMacMapping = IU_DB then MACAddress.BROADCAST_ADDRESS
      else macDest

def forwardInterestToRemote (s : ForwardingBase) (now : SimTime) (interest : Interest) (face : ℕ)
    (macSrc macDest : MACAddress) : ForwardingBase × List Effect :=
  match s.pit.create now interest macSrc with
  | (true, pit) =>
    ({ s with pit },
      [.pitCreate (PitEntry.make now interest interest.arrivalGate macSrc),
        .sendLower (.interest interest) macDest (s.ndnToMacMapping (.interest interest) macDest)
          face])
  | (false, pit) => ({ s with pit }, [])

def forwardInterestToLocal (s : ForwardingBase) (now : SimTime) (interest : Interest) (face : ℕ)
    (macSrc : MACAddress) : ForwardingBase × List Effect :=
  match s.pit.create now interest macSrc with
  | (true, pit) =>
    ({ s with pit },
      [.pitCreate (PitEntry.make now interest interest.arrivalGate macSrc),
        .sendUpper (.interest interest) face])
  | (false, pit) => ({ s with pit }, [])

def forwardDataToRemote (s : ForwardingBase) (data : Data) (face : ℕ) (macDest : MACAddress) :
    List Effect :=
  [.sendLower (.data data) macDest (s.ndnToMacMapping (.data data) macDest) face]

def forwardDataToLocal (data : Data) (face : ℕ) : List Effect :=
  [.sendUpper (.data data) face]

/-! ### The delayed-send slot -/

/-- `delete sendDelayedPacket->getDelayedPacket()`. -/
def deleteDelayed (sd : SendDelayed) : List Effect :=
  match sd.delayedPacket with
  | some packet => [.deleteDelayedPacket packet]
  | none => [.error .danglingPacket]

/-- The common end of `processLLInterest` and `processLLData`: drop a packet that is already
waiting, fill in the message, schedule it. The kernel refuses a message that is scheduled. -/
def delayPacket (s : ForwardingBase) (packet : Packet) (sd : SendDelayed) (time : SimTime) :
    ForwardingBase × List Effect :=
  let fx := if s.waiting then deleteDelayed s.sendDelayedPacket else []
  let s := { s with sendDelayedPacket := { sd with delayedPacket := some packet } }
  match s.scheduled with
  | some _ => (s, fx ++ [.setDelayedPacket packet, .error .alreadyScheduled])
  | none =>
    ({ s with scheduled := some time, waiting := true },
      fx ++ [.setDelayedPacket packet, .scheduleAt time])

/-! ### The four handlers of packets -/

def processLLInterest (s : ForwardingBase) (now delay : SimTime) (interest : Interest)
    (macSrc : MACAddress) : ForwardingBase × List Effect :=
  let s := { s with stat := { s.stat with numIntReceived := s.stat.numIntReceived + 1 } }
  match s.cs.lookup interest with
  | (some cachedData, cs) =>
    let s := { s with cs }
    (s, s.forwardDataToRemote cachedData interest.arrivalGate.index macSrc)
  | (none, cs) =>
    let s := { s with cs }
    match s.pit.lookup interest.name with
    | (none, pit) =>
      let s := { s with pit }
      let (fe, fib) := s.fib.lookup interest.name
      let s := { s with fib }
      let hopped := { interest with hopCount := interest.hopCount + 1 }
      match fe with
      | some fe =>
        match fe.face with
        | .lowerLayerIn face =>
          if s.forwarding then
            let (s, fx) := s.forwardInterestToRemote now hopped face macSrc fe.macDest
            -- counted also when the PIT refused the Interest
            ({ s with stat := { s.stat with numIntFwd := s.stat.numIntFwd + 1 } }, fx)
          else (s, [])
        | .upperLayerIn face => s.forwardInterestToLocal now hopped face macSrc
      | none =>
        if interest.flood ∧ s.forwarding then
          s.delayPacket (.interest hopped)
            { s.sendDelayedPacket with
              type := INTEREST
              face := DEFAULT_MAC_IF
              macDest := MACAddress.broadcastText
              macSrc := macSrc.str } (now + delay)
        else (s, [])
    | (some _, pit) =>
      ({ s with
          pit
          stat := { s.stat with numIntDuplicated := s.stat.numIntDuplicated + 1 } }, [])

def processLLData (s : ForwardingBase) (now delay : SimTime) (data : Data) (macSrc : MACAddress) :
    ForwardingBase × List Effect :=
  match s.pit.lookup data.name with
  | (some pe, pit) =>
    let s := { s with
      pit
      stat := { s.stat with numDataReceived := s.stat.numDataReceived + 1 }
      fib := (s.fib.create now data.name data.prefixLength data.arrivalGate macSrc).2 }
    let hopped := { data with hopCount := data.hopCount + 1 }
    -- the Data that reaches the store is the one whose hop count was raised, if it was
    let (s, fx, stored) :=
      match pe.face with
      | .lowerLayerIn face =>
        if s.forwarding then
          let (s, fx) := s.delayPacket (.data hopped)
            { s.sendDelayedPacket with
              type := DATA
              face := face
              macDest := pe.macSrc.str } (now + delay)
          (s, fx, hopped)
        else (s, [], data)
      | .upperLayerIn face => (s, forwardDataToLocal hopped face, hopped)
    ({ s with pit := (s.pit.remove data.name).2, cs := (s.cs.add now stored).2 }, fx)
  | (none, pit) =>
    ({ s with
        pit
        cs := if s.cacheUnsolicited then (s.cs.add now data).2 else s.cs
        stat := { s.stat with numDataUnsolicited := s.stat.numDataUnsolicited + 1 } }, [])

def processHLInterest (s : ForwardingBase) (now : SimTime) (interest : Interest) :
    ForwardingBase × List Effect :=
  match s.cs.lookup interest with
  | (some cachedData, cs) =>
    ({ s with cs }, forwardDataToLocal cachedData interest.arrivalGate.index)
  | (none, cs) =>
    let s := { s with cs }
    match s.pit.lookup interest.name with
    | (none, pit) =>
      let s := { s with pit }
      let (fe, fib) := s.fib.lookup interest.name
      let s := { s with fib }
      match fe with
      | some fe =>
        match fe.face with
        | .lowerLayerIn face =>
          s.forwardInterestToRemote now interest face s.myMacAddress fe.macDest
        | .upperLayerIn face => s.forwardInterestToLocal now interest face s.myMacAddress
      | none =>
        s.forwardInterestToRemote now interest DEFAULT_MAC_IF s.myMacAddress
          MACAddress.BROADCAST_ADDRESS
    | (some _, pit) =>
      ({ s with
          pit
          stat := { s.stat with numIntDuplicated := s.stat.numIntDuplicated + 1 } }, [])

def processHLData (s : ForwardingBase) (now : SimTime) (data : Data) :
    ForwardingBase × List Effect :=
  match s.pit.lookup data.name with
  | (some pe, pit) =>
    let s := { s with pit }
    let fx :=
      match pe.face with
      | .lowerLayerIn face => s.forwardDataToRemote data face pe.macSrc
      | .upperLayerIn face => forwardDataToLocal data face
    ({ s with pit := (s.pit.remove data.name).2, cs := (s.cs.add now data).2 }, fx)
  | (none, pit) =>
    ({ s with pit, cs := if s.cacheUnsolicited then (s.cs.add now data).2 else s.cs }, [])

/-! ### Dispatch -/

/-- `dispatchPacket`. `src` is the source address in the control information of a packet from the
link; the other control information is not read. -/
def dispatchPacket (s : ForwardingBase) (now delay : SimTime) (packet : Packet)
    (src : MACAddress) : ForwardingBase × List Effect :=
  match packet.arrivalGate, packet with
  | .lowerLayerIn _, .interest interest => s.processLLInterest now delay interest src
  | .lowerLayerIn _, .data data => s.processLLData now delay data src
  | .upperLayerIn _, .interest interest => s.processHLInterest now interest
  | .upperLayerIn _, .data data => s.processHLData now data

/-- The branch of `handleMessage` for `sendDelayedPacket`, which the kernel has just taken off the
schedule. The duplicate is forwarded and the packet itself deleted. -/
def handleDelayed (s : ForwardingBase) (now : SimTime) : ForwardingBase × List Effect :=
  let s := { s with scheduled := none }
  let sd := s.sendDelayedPacket
  let (s, fx) :=
    if sd.type = INTEREST then
      match sd.delayedPacket, MACAddress.tryParse sd.macSrc, MACAddress.tryParse sd.macDest with
      | some (.interest interest), some macSrc, some macDest =>
        let (s, fx) := s.forwardInterestToRemote now interest sd.face macSrc macDest
        ({ s with stat := { s.stat with numIntFwd := s.stat.numIntFwd + 1 } }, fx)
      | some (.interest _), _, _ => (s, [.error .wrongAddressSyntax])
      | some (.data _), _, _ => (s, [.error .failedCast])
      | none, _, _ => (s, [.error .danglingPacket])
    else
      match sd.delayedPacket, MACAddress.tryParse sd.macDest with
      | some (.data data), some macDest =>
        ({ s with stat := { s.stat with numDataFwd := s.stat.numDataFwd + 1 } },
          s.forwardDataToRemote data sd.face macDest)
      | some (.data _), none => (s, [.error .wrongAddressSyntax])
      | some (.interest _), _ => (s, [.error .failedCast])
      | none, _ => (s, [.error .danglingPacket])
  ({ s with
      sendDelayedPacket := { s.sendDelayedPacket with delayedPacket := none }
      waiting := false }, fx ++ deleteDelayed sd)

/-- The branch of `handleMessage` for a packet that arrives while another one waits: a packet of the
same name cancels the delayed transmission, and the arriving packet is dropped in any case. -/
def handleWhileWaiting (s : ForwardingBase) (ndnPacket : Packet) : ForwardingBase × List Effect :=
  match s.sendDelayedPacket.delayedPacket with
  | none => (s, [.error .danglingPacket])
  | some delayed =>
    -- names are compared, types are not
    if ndnPacket.name = delayed.name then
      ({ s with
          scheduled := none
          sendDelayedPacket := { s.sendDelayedPacket with delayedPacket := none }
          waiting := false
          -- the counter goes by the type of the packet that arrives
          stat :=
            if ndnPacket.getType = INTEREST then
              { s.stat with numIntCanceled := s.stat.numIntCanceled + 1 }
            else
              { s.stat with numDataCanceled := s.stat.numDataCanceled + 1 } },
        [.cancelEvent, .deleteDelayedPacket delayed])
    else (s, [])

/-- The branch of `handleMessage` for packets. -/
def handlePacket (s : ForwardingBase) (now delay : SimTime) (packet : Packet) (src : MACAddress) :
    ForwardingBase × List Effect :=
  if packet.kind = REGISTER_PREFIX_CODE then
    ({ s with fib := (s.fib.registerPrefix now packet.name packet.arrivalGate s.myMacAddress).2 },
      [])
  else if s.waiting then s.handleWhileWaiting packet
  else s.dispatchPacket now delay packet src

/-- `receiveSignal` for `interestTimeoutSignal`. -/
def receiveSignal (notification : PitNotification) : List Effect :=
  match notification.face with
  | .upperLayerIn index =>
    [.sendUpper (.interest { notification.interest with kind := TIMEOUT_CODE }) index]
  | .lowerLayerIn _ => []

/-! ### Events -/

/-- What can happen to a forwarder and its tables. -/
inductive Event
  /-- A packet arrives, with the source address of its control information and the delay that will
  be drawn if the packet is to be sent later. -/
  | packet (packet : Packet) (src : MACAddress) (delay : SimTime)
  /-- A message that is not a packet arrives and is deleted. -/
  | other
  /-- The delayed-send message fires. -/
  | sendDelayedPacket
  /-- The self-message of the PIT fires. -/
  | checkTimeout
  /-- The self-message of the FIB fires. -/
  | checkExpired
  /-- The self-message of the CS fires. -/
  | checkDataStale
  deriving DecidableEq, Repr

/-- A self-message fires only while it is scheduled. -/
def Enabled (s : ForwardingBase) : Event → Prop
  | .packet _ _ _ => True
  | .other => True
  | .sendDelayedPacket => s.scheduled.isSome
  | .checkTimeout => s.pit.checkTimeout.isSome
  | .checkExpired => s.fib.checkExpired.isSome
  | .checkDataStale => s.cs.checkDataStale.isSome

instance (s : ForwardingBase) (e : Event) : Decidable (s.Enabled e) := by
  cases e <;> unfold Enabled <;> infer_instance

/-- The reaction to an event at time `now`. -/
def handleMessage (s : ForwardingBase) (now : SimTime) : Event → ForwardingBase × List Effect
  | .packet packet src delay => s.handlePacket now delay packet src
  | .other => (s, [])
  | .sendDelayedPacket => s.handleDelayed now
  | .checkTimeout =>
    let (notes, pit) := s.pit.handleSelfMessage now
    ({ s with pit }, notes.flatMap receiveSignal)
  | .checkExpired => ({ s with fib := s.fib.handleSelfMessage now }, [])
  | .checkDataStale => ({ s with cs := s.cs.handleSelfMessage now }, [])

/-- The parameters of the forwarder and of its tables. -/
structure Params where
  ndnMacMapping : ℤ := 11
  forwarding : Bool
  cacheUnsolicited : Bool := false
  myMacAddress : MACAddress
  pitMaxSize : ℕ := 100
  fibMaxSize : ℕ := 50
  entryLifetime : ℕ := 10000
  csMaxSize : ℕ := 50
  deriving DecidableEq, Repr

/-- The state `initialize()` leaves. -/
def initial (par : Params) : ForwardingBase where
  ndnMacMapping := par.ndnMacMapping
  forwarding := par.forwarding
  cacheUnsolicited := par.cacheUnsolicited
  myMacAddress := par.myMacAddress
  pit := { maxSize := par.pitMaxSize }
  fib := { maxSize := par.fibMaxSize, entryLifetime := par.entryLifetime }
  cs := { maxSize := par.csMaxSize }

/-- The forwarder as a transition system: an input is an event and its time. -/
def events (par : Params) : TransitionSystem ForwardingBase (SimTime × Event) (List Effect) where
  Init s := s = initial par
  Step s i fx s' := s.Enabled i.2 ∧ (s', fx) = s.handleMessage i.1 i.2

/-- The transitions of a forwarder on a list of events. -/
def trace (par : Params) (is : List (SimTime × Event)) :
    List (Transition ForwardingBase (SimTime × Event) (List Effect)) :=
  TransitionSystem.transitionsOf (fun s i ↦ s.handleMessage i.1 i.2) (initial par) is

/-- The state a list of events leads to. -/
def stateAfter (par : Params) (is : List (SimTime × Event)) : ForwardingBase :=
  TransitionSystem.stateAfter (fun s i ↦ s.handleMessage i.1 i.2) (initial par) is

/-- Events whose self-messages are scheduled when they fire make a run. -/
theorem run_trace {par : Params} {is : List (SimTime × Event)}
    (h : ∀ t ∈ trace par is, t.pre.Enabled t.input.2) :
    (events par).Run (trace par is) (stateAfter par is) := by
  have hstep : ∀ (s : ForwardingBase) (i : SimTime × Event), s.Enabled i.2 →
      (events par).Step s i (s.handleMessage i.1 i.2).2 (s.handleMessage i.1 i.2).1 :=
    fun _ _ he ↦ ⟨he, rfl⟩
  exact .ofInputs hstep rfl h

end ForwardingBase

end Inet.Ndn
