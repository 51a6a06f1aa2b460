import Inet.LinkLayer.MACAddressTable
import Inet.LinkLayer.STP

/-!
# The relay of a switch

`Ieee8021dRelay` learns the source address of a frame and sends the frame on to the port where its
destination has been seen, or else to all other ports. With an STP module it also asks for the
states of the ports. The address table is dropped whenever the relay is started or stopped.

The data of the ports are changed by others at any time. The statistics are left out.
-/

namespace Inet

/-- What an `EtherFrame` encapsulates. -/
inductive EtherPayload
  | bpdu (bpdu : BPDU)
  | data (bytes : List UInt8)
  deriving DecidableEq, Repr

/-- `EtherFrame`, as far as the relay uses it. -/
structure EtherFrame where
  src : MACAddress
  dest : MACAddress
  payload : EtherPayload
  deriving DecidableEq, Repr

/-- `Ieee8021dInterfaceData::isLearning`. -/
def PortInfo.isLearning (portData : PortInfo) : Bool :=
  portData.state = .learning ∨ portData.state = .forwarding

/-- `Ieee8021dInterfaceData::isForwarding`. -/
def PortInfo.isForwarding (portData : PortInfo) : Bool :=
  portData.state = .forwarding

namespace Ieee8021dRelay

/-- `InterfaceEntry`, as far as the relay uses it. -/
structure InterfaceEntry where
  isLoopback : Bool
  macAddress : MACAddress
  deriving DecidableEq, Repr

end Ieee8021dRelay

/-- What does not change in the relay: whether `stpIn` is connected, the size of the gate vectors,
and the interface table. -/
structure RelayParameters where
  isStpAware : Bool
  portCount : ℕ
  interfaceTable : List Ieee8021dRelay.InterfaceEntry
  portCount_lt : portCount < 2 ^ 31

/-- The exceptions of the relay. -/
inductive RelayError
  | noInterface
  | noInterfaceData (portNum : ℕ)
  | noOutputPort (portNum : ℕ)
  | notABPDU
  | addressTable (e : MACAddressTableError)
  deriving DecidableEq

/-- `class Ieee8021dRelay`, its address table and the data of its ports. The last two are what the
current event has sent through `ifOut` and through `stpOut`. -/
structure Ieee8021dRelay where
  isOperational : Bool
  bridgeAddress : MACAddress := ⟨0⟩
  macTable : MACAddressTable
  port : ℕ → PortInfo
  now : SimTime := 0
  sent : List (EtherFrame × ℕ) := []
  delivered : List (BPDU × Ieee802Ctrl) := []

namespace Ieee8021dRelay

variable (P : RelayParameters)

/-- `Ieee8021dRelay::chooseInterface`. -/
def chooseInterface : Option InterfaceEntry :=
  P.interfaceTable.find? fun current ↦ !current.isLoopback

/-- `Ieee8021dRelay::initialize`. -/
def initialized (isUp : Bool) (port : ℕ → PortInfo) (macTable : MACAddressTable) :
    Except RelayError Ieee8021dRelay :=
  if isUp then
    match chooseInterface P with
    | some ie => .ok { isOperational := true, bridgeAddress := ie.macAddress, macTable, port }
    | none => .error .noInterface
  else .ok { isOperational := false, macTable, port }

/-- `Ieee8021dRelay::getPortInterfaceData`. -/
def getPortInterfaceData (portNum : ℕ) (s : Ieee8021dRelay) : Except RelayError (Option PortInfo) :=
  if P.isStpAware then
    if portNum < P.portCount then .ok (some (s.port portNum)) else .error (.noInterfaceData portNum)
  else .ok none

/-- The states of the ports do not count without an STP module. -/
def isForwarding (portData : Option PortInfo) : Bool :=
  !P.isStpAware || portData.any PortInfo.isForwarding

/-- `Ieee8021dRelay::dispatch`. -/
def dispatch (frame : EtherFrame) (portNum : ℕ) (s : Ieee8021dRelay) :
    Except RelayError Ieee8021dRelay :=
  if P.portCount ≤ portNum then .error (.noOutputPort portNum)
  else .ok { s with sent := s.sent ++ [(frame, portNum)] }

/-- The frame is sent out if the port is forwarding. -/
def dispatchIfForwarding (frame : EtherFrame) (portNum : ℕ) (s : Ieee8021dRelay) :
    Except RelayError Ieee8021dRelay := do
  let portData ← s.getPortInterfaceData P portNum
  if isForwarding P portData then s.dispatch P frame portNum else .ok s

/-- `Ieee8021dRelay::broadcast`. -/
def broadcast (arrivalGate : ℕ) (frame : EtherFrame) (s : Ieee8021dRelay) :
    Except RelayError Ieee8021dRelay :=
  (List.range P.portCount).foldlM
    (fun s i ↦ if i ≠ arrivalGate then s.dispatchIfForwarding P frame i else .ok s) s

/-- The address table is told about a source address, in `learn`. -/
def learnAddress (arrivalGate : ℕ) (src : MACAddress) (s : Ieee8021dRelay) :
    Except RelayError Ieee8021dRelay :=
  match s.macTable.updateTableWithAddress s.now arrivalGate src 0 with
  | .ok (_, macTable) => .ok { s with macTable }
  | .error e => .error (.addressTable e)

/-- `Ieee8021dRelay::learn`. -/
def learn (arrivalGate : ℕ) (frame : EtherFrame) (s : Ieee8021dRelay) :
    Except RelayError Ieee8021dRelay := do
  let port ← s.getPortInterfaceData P arrivalGate
  if !P.isStpAware || port.any PortInfo.isLearning then s.learnAddress arrivalGate frame.src
  else .ok s

/-- `Ieee8021dRelay::deliverBPDU`. -/
def deliverBPDU (arrivalGate : ℕ) (frame : EtherFrame) (s : Ieee8021dRelay) :
    Except RelayError Ieee8021dRelay :=
  match frame.payload with
  | .bpdu bpdu =>
    .ok { s with
      delivered := s.delivered ++
        [(bpdu, { src := frame.src, switchPort := arrivalGate, dest := frame.dest })] }
  | .data _ => .error .notABPDU

/-- A port number is converted to `unsigned int`. -/
def toUnsigned (i : ℤ) : ℕ :=
  (i % 2 ^ 32).toNat

/-- A frame is sent where its destination is, in `handleAndDispatchFrame`. -/
def forwardTo (arrivalGate : ℕ) (frame : EtherFrame) (outGate : ℤ) (s : Ieee8021dRelay) :
    Except RelayError Ieee8021dRelay :=
  if outGate = -1 then s.broadcast P arrivalGate frame
  else if outGate ≠ arrivalGate then s.dispatchIfForwarding P frame (toUnsigned outGate)
  else .ok s

/-- The destination is looked up, in `handleAndDispatchFrame`. -/
def lookUpAndForward (arrivalGate : ℕ) (frame : EtherFrame) (s : Ieee8021dRelay) :
    Except RelayError Ieee8021dRelay :=
  match s.macTable.getPortForAddress s.now frame.dest 0 with
  | .ok (outGate, macTable) => { s with macTable }.forwardTo P arrivalGate frame outGate
  | .error e => .error (.addressTable e)

/-- What is taken for a BPDU, in `handleAndDispatchFrame`. -/
def isForBridge (arrivalPortData : Option PortInfo) (frame : EtherFrame) (s : Ieee8021dRelay) :
    Bool :=
  P.isStpAware ∧ (frame.dest = .STP_MULTICAST_ADDRESS ∨ frame.dest = s.bridgeAddress) ∧
    arrivalPortData.any fun portData ↦ portData.role ≠ .disabled

/-- `Ieee8021dRelay::handleAndDispatchFrame`, after the source address has been learned. -/
def dispatchFrame (arrivalGate : ℕ) (arrivalPortData : Option PortInfo) (frame : EtherFrame)
    (s : Ieee8021dRelay) : Except RelayError Ieee8021dRelay :=
  if s.isForBridge P arrivalPortData frame then s.deliverBPDU arrivalGate frame
  else if !isForwarding P arrivalPortData then .ok s
  else if frame.dest = .BROADCAST_ADDRESS then s.broadcast P arrivalGate frame
  else s.lookUpAndForward P arrivalGate frame

/-- `Ieee8021dRelay::handleAndDispatchFrame`. -/
def handleAndDispatchFrame (arrivalGate : ℕ) (frame : EtherFrame) (s : Ieee8021dRelay) :
    Except RelayError Ieee8021dRelay := do
  let arrivalPortData ← s.getPortInterfaceData P arrivalGate
  let s ← s.learn P arrivalGate frame
  s.dispatchFrame P arrivalGate arrivalPortData frame

/-- `Ieee8021dRelay::dispatchBPDU`. -/
def dispatchBPDU (bpdu : BPDU) (controlInfo : Ieee802Ctrl) (s : Ieee8021dRelay) :
    Except RelayError Ieee8021dRelay :=
  if P.portCount ≤ controlInfo.switchPort then .error (.noOutputPort controlInfo.switchPort)
  else
    let frame : EtherFrame :=
      { src := s.bridgeAddress, dest := controlInfo.dest, payload := .bpdu bpdu }
    .ok { s with sent := s.sent ++ [(frame, controlInfo.switchPort)] }

/-- `Ieee8021dRelay::start`. -/
def start (s : Ieee8021dRelay) : Except RelayError Ieee8021dRelay :=
  match chooseInterface P with
  | some ie =>
    .ok { s with
      isOperational := true, bridgeAddress := ie.macAddress, macTable := s.macTable.clearTable }
  | none => .error .noInterface

/-- `Ieee8021dRelay::stop`. -/
def stop (s : Ieee8021dRelay) : Ieee8021dRelay :=
  { s with isOperational := false, macTable := s.macTable.clearTable }

end Ieee8021dRelay

/-- What happens to the relay. -/
inductive RelayEvent
  | advance (t : SimTime)
  | ifIn (arrivalGate : ℕ) (frame : EtherFrame)
  | stpIn (bpdu : BPDU) (controlInfo : Ieee802Ctrl)
  | changePorts (port : ℕ → PortInfo)
  | start
  | stop

namespace Ieee8021dRelay

variable (P : RelayParameters)

/-- What the relay does, `Ieee8021dRelay::handleMessage` for the messages. -/
def handle (s : Ieee8021dRelay) : RelayEvent → Except RelayError Ieee8021dRelay
  | .advance t => .ok { s with now := t }
  | .ifIn arrivalGate frame =>
    if !s.isOperational then .ok s else s.handleAndDispatchFrame P arrivalGate frame
  | .stpIn bpdu controlInfo => if !s.isOperational then .ok s else s.dispatchBPDU P bpdu controlInfo
  | .changePorts port => .ok { s with port }
  | .start => s.start P
  | .stop => .ok s.stop

/-- When an event can happen. -/
def Allowed (s : Ieee8021dRelay) : RelayEvent → Prop
  | .advance t => s.now ≤ t
  | .ifIn arrivalGate _ => arrivalGate < P.portCount
  | _ => True

/-- Nothing has been sent yet. -/
def quiet (s : Ieee8021dRelay) : Ieee8021dRelay :=
  { s with sent := [], delivered := [] }

/-- The relay as a machine. -/
def system (agingTime : SimTime) (addressTableFile : List (ℕ × MACAddress × ℤ)) :
    TransitionSystem Ieee8021dRelay RelayEvent Unit where
  Init s := ∃ isUp port macTable,
    MACAddressTable.initialized agingTime addressTableFile = .ok macTable ∧
      initialized P isUp port macTable = .ok s
  Step s event _ s' := s.Allowed P event ∧ s.quiet.handle P event = .ok s'

end Ieee8021dRelay

end Inet
