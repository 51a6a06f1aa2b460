import Inet.Common.SimTime
import Inet.Foundations.TransitionSystem
import Inet.LinkLayer.MACAddress
import Mathlib.Data.UInt

/-!
# The Spanning Tree Protocol

`STP` keeps what it knows about a port in the interface data of the port, and elects a root port and
designated ports from it whenever it changes. A tick comes every second. The class has a member
`helloTime` of its own, which hides the parameter of that name in `STPBase`.

The addresses and priorities of the ports are set from outside before the module starts, so that the
interface data are arbitrary at the start. The interface of the bridge and its address do not
change.
-/

namespace Inet

/-- `Ieee8021dInterfaceData::PortRole`. -/
inductive PortRole
  | alternate
  | notassigned
  | disabled
  | designated
  | backup
  | root
  deriving DecidableEq, Repr

/-- `Ieee8021dInterfaceData::PortState`. -/
inductive PortState
  | discarding
  | learning
  | forwarding
  deriving DecidableEq, Repr

/-- `Ieee8021dInterfaceData::PortInfo`, as far as `STP` uses it. -/
structure PortInfo where
  priority : UInt32 := 0
  linkCost : UInt32 := 1
  state : PortState := .forwarding
  role : PortRole := .notassigned
  rootPriority : UInt32 := 0
  rootAddress : MACAddress := ⟨0⟩
  rootPathCost : UInt32 := 0
  bridgePriority : UInt32 := 0
  bridgeAddress : MACAddress := ⟨0⟩
  portPriority : UInt32 := 0
  portNum : UInt32 := -1
  age : SimTime := 0
  maxAge : SimTime := 0
  fdWhile : SimTime := 0
  fwdDelay : SimTime := 0
  helloTime : SimTime := 0
  lostBPDU : UInt32 := 0
  deriving DecidableEq, Repr

/-- `BPDU`. -/
structure BPDU where
  bpduType : UInt32 := 0
  tcaFlag : Bool := false
  tcFlag : Bool := false
  rootAddress : MACAddress := ⟨0⟩
  rootPriority : UInt32 := 0
  rootPathCost : UInt32 := 0
  bridgeAddress : MACAddress := ⟨0⟩
  bridgePriority : UInt32 := 0
  portNum : UInt32 := 0
  portPriority : UInt32 := 0
  messageAge : SimTime := 0
  maxAge : SimTime := 0
  helloTime : SimTime := 0
  forwardDelay : SimTime := 0
  deriving DecidableEq, Repr

/-- `CONFIG_BDPU`. -/
def CONFIG_BDPU : UInt32 :=
  0

/-- `TCN_BPDU`. -/
def TCN_BPDU : UInt32 :=
  1

/-- `MACAddress::STP_MULTICAST_ADDRESS`. -/
def MACAddress.STP_MULTICAST_ADDRESS : MACAddress :=
  ⟨0x0180C2000000⟩

/-- `Ieee802Ctrl`, as far as `STP` uses it. -/
structure Ieee802Ctrl where
  src : MACAddress := ⟨0⟩
  dest : MACAddress := ⟨0⟩
  switchPort : ℕ
  deriving DecidableEq, Repr

/-- The parameters of `STPBase`. The module asks for its port 0 at the first tick. -/
structure STPParameters where
  numPorts : ℕ
  bridgePriority : UInt32
  bridgeAddress : MACAddress
  maxAge : SimTime
  helloTime : SimTime
  forwardDelay : SimTime
  numPorts_pos : 0 < numPorts

/-- `class STP`, the data of its ports, and the ageing time that it has set in the address table
(`none` for the default). The last two are what the current event has sent, and what each call of
`generateHelloBDPUs` in it has sent. -/
structure STP where
  isOperational : Bool := false
  isRoot : Bool := false
  rootPort : ℕ := 0
  desPorts : List ℕ := []
  rootPathCost : UInt32 := 0
  rootPriority : UInt32 := 0
  rootAddress : MACAddress := ⟨0⟩
  currentMaxAge : SimTime := 0
  currentFwdDelay : SimTime := 0
  currentHelloTime : SimTime := 0
  helloTime : SimTime := 0
  currentBridgePriority : UInt32 := 0
  topologyChangeNotification : Bool := false
  topologyChangeRecvd : Bool := false
  tick : Option SimTime := none
  port : ℕ → PortInfo
  agingTime : Option SimTime := none
  now : SimTime := 0
  sent : List (BPDU × Ieee802Ctrl) := []
  hellos : List (List (BPDU × Ieee802Ctrl)) := []

namespace STP

variable (P : STPParameters)

/-- `tickInterval`. -/
def tickInterval : SimTime :=
  SimTime.ms 1000

/-- The data of a port are changed. -/
def setPort (i : ℕ) (f : PortInfo → PortInfo) (s : STP) : STP :=
  { s with port := Function.update s.port i (f (s.port i)) }

/-- A loop over the ports. -/
def forPorts (f : STP → ℕ → STP) (s : STP) : STP :=
  (List.range P.numPorts).foldl f s

/-! ### Comparing -/

/-- `STP::compareBridgeIDs`. -/
def compareBridgeIDs (aPriority : UInt32) (aAddress : MACAddress) (bPriority : UInt32)
    (bAddress : MACAddress) : ℤ :=
  if aPriority < bPriority then 1
  else if bPriority < aPriority then -1
  else if aAddress < bAddress then 1
  else if bAddress < aAddress then -1
  else 0

/-- `STP::comparePortIDs`. -/
def comparePortIDs (aPriority aNum bPriority bNum : UInt32) : ℤ :=
  if aPriority < bPriority then 1
  else if bPriority < aPriority then -1
  else if aNum < bNum then 1
  else if bNum < aNum then -1
  else 0

/-- `STP::comparePorts`. -/
def comparePorts (portA portB : PortInfo) : ℤ :=
  let result := compareBridgeIDs portA.rootPriority portA.rootAddress portB.rootPriority
    portB.rootAddress
  if result ≠ 0 then result
  else if portA.rootPathCost < portB.rootPathCost then 1
  else if portB.rootPathCost < portA.rootPathCost then -1
  else
    let result := compareBridgeIDs portA.bridgePriority portA.bridgeAddress portB.bridgePriority
      portB.bridgeAddress
    if result ≠ 0 then result
    else comparePortIDs portA.portPriority portA.portNum portB.portPriority portB.portNum

/-! ### Sending -/

/-- Messages leave through `relayOut`. -/
def sendAll (msgs : List (BPDU × Ieee802Ctrl)) (s : STP) : STP :=
  { s with sent := s.sent ++ msgs }

/-- `STP::generateBPDU`. -/
def generateBPDU (port : ℕ) (address : MACAddress) (tcFlag tcaFlag : Bool) (s : STP) : STP :=
  let bpdu : BPDU :=
    { bpduType := CONFIG_BDPU, bridgeAddress := P.bridgeAddress, bridgePriority := P.bridgePriority
      rootPathCost := s.rootPathCost, rootAddress := s.rootAddress, rootPriority := s.rootPriority
      portNum := UInt32.ofNat port, portPriority := (s.port port).priority, messageAge := 0
      maxAge := s.currentMaxAge, helloTime := s.currentHelloTime
      forwardDelay := s.currentFwdDelay }
  let bpdu :=
    if s.topologyChangeNotification then
      if s.isRoot || tcFlag then { bpdu with tcFlag := true, tcaFlag := false }
      else if tcaFlag then { bpdu with tcFlag := false, tcaFlag := true }
      else bpdu
    else bpdu
  s.sendAll [(bpdu, { dest := address, switchPort := port })]

/-- `generateBPDU` with the default arguments. -/
def generateConfigBPDU (port : ℕ) (s : STP) : STP :=
  s.generateBPDU P port .STP_MULTICAST_ADDRESS false false

/-- `STP::generateTCN`. -/
def generateTCN (s : STP) : STP :=
  if (s.topologyChangeNotification || !s.topologyChangeRecvd) = true ∧
      (s.port s.rootPort).role = .root then
    { s with topologyChangeNotification := false }.sendAll
      [({ bpduType := TCN_BPDU }, { dest := .STP_MULTICAST_ADDRESS, switchPort := s.rootPort })]
  else s

/-- `STP::generateHelloBDPUs`. -/
def generateHelloBDPUs (s : STP) : STP :=
  let s' := forPorts P (fun s i ↦ s.generateConfigBPDU P i) s
  { s' with hellos := s'.hellos ++ [s'.sent.drop s.sent.length] }

/-! ### Roles -/

/-- `STP::initInterfacedata`. -/
def initInterfacedata (portNum : ℕ) (s : STP) : STP :=
  s.setPort portNum fun ifd ↦
    { ifd with
      role := .notassigned, state := .discarding, rootPriority := P.bridgePriority
      rootAddress := P.bridgeAddress, rootPathCost := 0, age := 0
      bridgePriority := P.bridgePriority, bridgeAddress := P.bridgeAddress
      portPriority := -1, portNum := -1, lostBPDU := 0 }

/-- `STP::initPortTable`. -/
def initPortTable (s : STP) : STP :=
  forPorts P (fun s i ↦ s.initInterfacedata P i) s

/-- `STP::setAllDesignated`. -/
def setAllDesignated (s : STP) : STP :=
  forPorts P (fun s i ↦
    if (s.port i).role = .disabled then s
    else
      { s.setPort i fun port ↦ { port with role := .designated } with
        desPorts := s.desPorts ++ [i] }) { s with desPorts := [] }

/-- The best of the ports, in the loop of `selectRootPort`. -/
def bestPort (s : STP) : ℕ :=
  (List.range P.numPorts).foldl (fun best i ↦
    let result := comparePorts (s.port i) (s.port best)
    if 0 < result then i
    else if result < 0 then best
    else if (s.port i).priority < (s.port best).priority then i
    else best) 0

/-- The roles of all ports are given up, in the loop of `selectRootPort`. -/
def clearRoles (s : STP) : STP :=
  forPorts P (fun s i ↦ s.setPort i fun port ↦ { port with role := .notassigned })
    { s with desPorts := [] }

/-- A port becomes the root port, at the end of `selectRootPort`. -/
def setRootPort (xRootPort : ℕ) (s : STP) : STP :=
  let best := s.port xRootPort
  { s.setPort xRootPort fun port ↦ { port with role := .root } with
    topologyChangeNotification :=
      if s.rootPort ≠ xRootPort then true else s.topologyChangeNotification
    rootPort := xRootPort
    rootPathCost := best.rootPathCost
    rootAddress := best.rootAddress
    rootPriority := best.rootPriority
    currentMaxAge := best.maxAge
    currentFwdDelay := best.fwdDelay
    currentHelloTime := best.helloTime }

/-- `STP::selectRootPort`. -/
def selectRootPort (s : STP) : STP :=
  (s.clearRoles P).setRootPort ((s.clearRoles P).bestPort P)

/-- `STP::selectDesignatedPorts`. -/
def selectDesignatedPorts (s : STP) : STP :=
  forPorts P (fun s i ↦
    let port := s.port i
    if port.role = .root ∨ port.role = .disabled then s
    else
      let bridgeGlobal : PortInfo :=
        { bridgePriority := P.bridgePriority, bridgeAddress := P.bridgeAddress
          rootAddress := s.rootAddress, rootPriority := s.rootPriority
          portPriority := port.priority, portNum := UInt32.ofNat i
          rootPathCost := s.rootPathCost + port.linkCost }
      let result := comparePorts bridgeGlobal port
      if 0 < result then
        { s.setPort i fun port ↦ { port with role := .designated } with
          desPorts := s.desPorts ++ [i] }
      else if result < 0 then s.setPort i fun port ↦ { port with role := .alternate }
      else s) { s with desPorts := [] }

/-- `STP::checkRootEligibility`. -/
def checkRootEligibility (s : STP) : Bool :=
  (List.range P.numPorts).all fun i ↦
    compareBridgeIDs (s.port i).rootPriority (s.port i).rootAddress P.bridgePriority P.bridgeAddress ≤ 0

/-- What a root bridge announces. -/
def copyParameters (s : STP) : STP :=
  { s with
    currentHelloTime := s.helloTime, currentMaxAge := P.maxAge, currentFwdDelay := P.forwardDelay }

/-- What `tryRoot`, `reset` and `start` set in a root bridge. -/
def becomeRoot (s : STP) : STP :=
  { s.copyParameters P with
    isRoot := true, rootPriority := P.bridgePriority, rootAddress := P.bridgeAddress
    rootPathCost := 0 }

/-- `STP::tryRoot`. -/
def tryRoot (s : STP) : STP :=
  if s.checkRootEligibility P then (s.setAllDesignated P).becomeRoot P
  else ({ s with isRoot := false }.selectRootPort P).selectDesignatedPorts P

/-- `STP::lostRoot`. -/
def lostRoot (s : STP) : STP :=
  { s with topologyChangeNotification := true }.tryRoot P

/-- `STP::lostAlternate`. -/
def lostAlternate (s : STP) : STP :=
  { s.selectDesignatedPorts P with topologyChangeNotification := true }

/-- `STP::reset`. -/
def reset (s : STP) : STP :=
  (s.becomeRoot P).setAllDesignated P

/-! ### Received messages -/

/-- `STP::setSuperiorBPDU`. -/
def setSuperiorBPDU (portNum : ℕ) (bpdu : BPDU) (s : STP) : STP :=
  if bpdu.maxAge ≤ bpdu.messageAge then s
  else
    s.setPort portNum fun portData ↦
      { portData with
        rootPriority := bpdu.rootPriority
        rootAddress := bpdu.rootAddress
        rootPathCost := bpdu.rootPathCost + portData.linkCost
        bridgePriority := bpdu.bridgePriority
        bridgeAddress := bpdu.bridgeAddress
        portPriority := bpdu.portPriority
        portNum := bpdu.portNum
        maxAge := bpdu.maxAge
        fwdDelay := bpdu.forwardDelay
        helloTime := bpdu.helloTime
        age := 0 }

/-- `STP::isSuperiorBPDU`. -/
def isSuperiorBPDU (portNum : ℕ) (bpdu : BPDU) (s : STP) : Bool × STP :=
  let xBpdu : PortInfo :=
    { rootPriority := bpdu.rootPriority, rootAddress := bpdu.rootAddress
      rootPathCost := bpdu.rootPathCost + (s.port portNum).linkCost
      bridgePriority := bpdu.bridgePriority, bridgeAddress := bpdu.bridgeAddress
      portPriority := bpdu.portPriority, portNum := bpdu.portNum }
  let result := comparePorts (s.port portNum) xBpdu
  if 0 < result then (false, s)
  else if result < 0 then
    (true, (s.setPort portNum fun port ↦
      { port with fdWhile := 0, state := .discarding }).setSuperiorBPDU portNum bpdu)
  else (true, s.setSuperiorBPDU portNum bpdu)

/-- The acknowledgement of a topology change, in `handleBPDU`. -/
def checkTca (bpdu : BPDU) (s : STP) : STP :=
  if bpdu.tcaFlag then { s with topologyChangeRecvd := true, topologyChangeNotification := false }
  else s

/-- What `handleBPDU` sends: a superior message is passed on if it comes from the root, an inferior
one is answered by a designated port. -/
def answerBPDU (arrivalGate : ℕ) (bpdu : BPDU) (superior : Bool) (s : STP) : STP :=
  if !superior then
    if (s.port arrivalGate).role = .designated then s.generateConfigBPDU P arrivalGate else s
  else if (s.port arrivalGate).role = .root then
    if bpdu.tcFlag then
      s.desPorts.foldl (fun s elem ↦ s.generateBPDU P elem .STP_MULTICAST_ADDRESS true false)
        { s with agingTime := some s.currentFwdDelay }
    else s.desPorts.foldl (fun s elem ↦ s.generateConfigBPDU P elem) { s with agingTime := none }
  else s

/-- `STP::handleBPDU`. -/
def handleBPDU (controlInfo : Ieee802Ctrl) (bpdu : BPDU) (s : STP) : STP :=
  let x := (s.checkTca bpdu).isSuperiorBPDU controlInfo.switchPort bpdu
  (x.2.answerBPDU P controlInfo.switchPort bpdu x.1).tryRoot P

/-- `STP::handleTCN`. -/
def handleTCN (controlInfo : Ieee802Ctrl) (tcn : BPDU) (s : STP) : STP :=
  let s := { s with topologyChangeNotification := true }.generateBPDU P controlInfo.switchPort
    controlInfo.src false true
  if s.isRoot then s else s.sendAll [(tcn, { controlInfo with switchPort := s.rootPort })]

/-! ### Ticks -/

/-- The hello timer, in `checkTimers`. -/
def checkHelloTimer (s : STP) : STP :=
  if s.currentHelloTime ≤ s.helloTime then
    { if s.isRoot then s.generateHelloBDPUs P else s with helloTime := 0 }
  else s

/-- The age of the information about a port, in `checkTimers`. -/
def checkAge (s : STP) (i : ℕ) : STP :=
  if s.currentMaxAge ≤ (s.port i).age then
    if (s.port i).role = .root then (s.initInterfacedata P i).lostRoot P
    else (s.initInterfacedata P i).lostAlternate P
  else s

/-- The forward timer of a port, in `checkTimers`. -/
def checkFdWhile (s : STP) (i : ℕ) : STP :=
  if (s.port i).role = .root ∨ (s.port i).role = .designated then
    if s.currentFwdDelay ≤ (s.port i).fdWhile then
      match (s.port i).state with
      | .discarding => s.setPort i fun port ↦ { port with state := .learning, fdWhile := 0 }
      | .learning => s.setPort i fun port ↦ { port with state := .forwarding, fdWhile := 0 }
      | .forwarding => s.setPort i fun port ↦ { port with fdWhile := 0 }
    else s
  else s.setPort i fun port ↦ { port with fdWhile := 0, state := .discarding }

/-- `STP::checkTimers`. -/
def checkTimers (s : STP) : STP :=
  forPorts P checkFdWhile (forPorts P (checkAge P) (s.checkHelloTimer P))

/-- `STP::checkParametersChange`. -/
def checkParametersChange (s : STP) : STP :=
  let s := if s.isRoot then s.copyParameters P else s
  if s.currentBridgePriority ≠ P.bridgePriority then
    { s with currentBridgePriority := P.bridgePriority }.reset P
  else s

/-- The timers of a port, in `handleTick`. -/
def countTick (port : PortInfo) : PortInfo :=
  if port.role = .disabled then port
  else
    { port with
      age := if port.role ≠ .designated then port.age + tickInterval else port.age
      fdWhile :=
        if port.role = .root ∨ port.role = .designated then port.fdWhile + tickInterval
        else port.fdWhile }

/-- `STP::handleTick`. -/
def handleTick (s : STP) : STP :=
  let s :=
    if s.isRoot then { s with helloTime := s.helloTime + tickInterval } else { s with helloTime := 0 }
  (((forPorts P (fun s i ↦ s.setPort i countTick) s).checkTimers P).checkParametersChange P).generateTCN

/-! ### Starting and stopping -/

/-- `STP::start`. -/
def start (s : STP) : STP :=
  let s := { s with isOperational := true }.initPortTable P
  let s :=
    { s with
      currentBridgePriority := P.bridgePriority
      topologyChangeNotification := true
      topologyChangeRecvd := true
      rootPort := 0 }
  { { s.becomeRoot P with helloTime := 0 }.setAllDesignated P with tick := some (s.now + tickInterval) }

/-- `STP::stop`. -/
def stop (s : STP) : STP :=
  { s with
    isOperational := false, isRoot := false, topologyChangeNotification := true, tick := none }

end STP

/-- What happens to the module. -/
inductive STPEvent
  | advance (t : SimTime)
  | tick
  | message (controlInfo : Ieee802Ctrl) (bpdu : BPDU)
  | start
  | stop
  deriving DecidableEq

namespace STP

variable (P : STPParameters)

/-- What the module does. -/
def handle (s : STP) : STPEvent → STP
  | .advance t => { s with now := t }
  | .tick => { s.handleTick P with tick := some (s.now + tickInterval) }
  | .message controlInfo bpdu =>
    if !s.isOperational then s
    else if bpdu.bpduType = CONFIG_BDPU then s.handleBPDU P controlInfo bpdu
    else if bpdu.bpduType = TCN_BPDU then s.handleTCN P controlInfo bpdu
    else s
  | .start => s.start P
  | .stop => s.stop

/-- When an event can happen. -/
def Allowed (s : STP) : STPEvent → Prop
  | .advance t => s.now ≤ t ∧ ∀ u ∈ s.tick, t ≤ u
  | .tick => s.tick = some s.now
  | .message controlInfo _ => controlInfo.switchPort < P.numPorts
  | .start => s.isOperational = false
  | .stop => s.isOperational = true

/-- What an event sends, and what the calls of `generateHelloBDPUs` send. -/
structure Output where
  sent : List (BPDU × Ieee802Ctrl)
  hellos : List (List (BPDU × Ieee802Ctrl))

/-- The module as a machine. It has been constructed at the start, and the data of the ports are
arbitrary. -/
def system : TransitionSystem STP STPEvent Output where
  Init s := ∃ port now, s = { port := port, now := now }
  Step s event output s' :=
    s.Allowed P event ∧ { s with sent := [], hellos := [] }.handle P event = s' ∧
      output = ⟨s'.sent, s'.hellos⟩

end STP

end Inet
