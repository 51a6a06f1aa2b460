import Inet.Routing.OSPFFlooding

/-!
# Link state updates

`LinkStateUpdateHandler`: what a router does with each LSA of a link state update packet, and how it
acknowledges it. An LSA that is installed and goes out again through the interface it came in by
needs no acknowledgement, and every other one should get one; `acknowledged_iff` says which do.
-/

namespace Inet.OSPF

/-- `OSPFLinkStateUpdatePacket`. -/
structure OSPFLinkStateUpdatePacket where
  routerID : IPv4Address
  areaID : IPv4Address
  routerLSAs : List OSPFRouterLSA := []
  networkLSAs : List OSPFNetworkLSA := []
  summaryLSAs : List OSPFSummaryLSA := []
  asExternalLSAs : List OSPFASExternalLSA := []

/-- The LSAs in the order in which the loop of `processPacket` meets them, one list for each kind.
-/
def OSPFLinkStateUpdatePacket.kinds (p : OSPFLinkStateUpdatePacket) : List (List OSPFLSA) :=
  [p.routerLSAs.map .router, p.networkLSAs.map .network, p.summaryLSAs.map .summary,
    p.asExternalLSAs.map .asExternal]

/-- `AcknowledgementFlags`. -/
structure AcknowledgementFlags where
  floodedBackOut : Bool := false
  lsaIsNewer : Bool := false
  lsaIsDuplicate : Bool := false
  impliedAcknowledgement : Bool := false
  lsaReachedMaxAge : Bool
  noLSAInstanceInDatabase : Bool
  anyNeighborInExchangeOrLoadingState : Bool
  deriving DecidableEq

/-- An acknowledgement of an instance, queued for a destination or sent to it at once. -/
inductive Acknowledgement
  | delayed (destination : IPv4Address) (header : OSPFLSAHeader)
  | direct (destination : IPv4Address) (header : OSPFLSAHeader)
  deriving DecidableEq

namespace Interface

/-- `addDelayedAcknowledgement`: where the header is queued. -/
def addDelayedAcknowledgement (intf : Interface) (header : OSPFLSAHeader) : List Acknowledgement :=
  if intf.interfaceType = .broadcast then [.delayed intf.broadcastDestination header]
  else
    (intf.neighboringRouters.filter (·.state.ReachedExchange)).map
      (.delayed ·.neighborIPAddress header)

/-- The end of `acknowledgeLSA`; on a network that is neither broadcast nor point-to-point, the
neighbour has to be found by its router id. -/
def sendDirectAcknowledgment (intf : Interface) (lsaSource : IPv4Address) (header : OSPFLSAHeader) :
    Option (List Acknowledgement) :=
  if intf.interfaceType = .broadcast ∨ intf.interfaceType = .pointToPoint then
    some [.direct (intf.destinationFor 0) header]
  else (intf.getNeighborByID lsaSource).map fun n ↦ [.direct n.neighborIPAddress header]

/-- `acknowledgeLSA`. There is no result where the assertion on the neighbour fails. -/
def acknowledgeLSA (intf : Interface) (header : OSPFLSAHeader) (flags : AcknowledgementFlags)
    (lsaSource : IPv4Address) : Option (List Acknowledgement) :=
  let direct : Prop :=
    flags.lsaIsDuplicate = true ∧ flags.impliedAcknowledgement = false ∨
      flags.lsaReachedMaxAge = true ∧ flags.noLSAInstanceInDatabase = true ∧
        flags.anyNeighborInExchangeOrLoadingState = true
  if flags.floodedBackOut then some []
  else if intf.state = .backup then
    if flags.lsaIsNewer = true ∧ lsaSource = intf.designatedRouter.routerID ∨
        flags.lsaIsDuplicate = true ∧ flags.impliedAcknowledgement = true then
      some (intf.addDelayedAcknowledgement header)
    else if direct then intf.sendDirectAcknowledgment lsaSource header else some []
  else if flags.lsaIsNewer then some (intf.addDelayedAcknowledgement header)
  else if direct then intf.sendDirectAcknowledgment lsaSource header else some []

/-- The list for a destination grows by a header. -/
def queue (intf : Interface) (destination : IPv4Address) (header : OSPFLSAHeader) : Interface :=
  let queued := (intf.delayedAcknowledgements.find destination).getD []
  { intf with delayedAcknowledgements :=
      intf.delayedAcknowledgements.insert destination (queued ++ [header]) }

end Interface

/-- An acknowledgement is put in its queue or sent. -/
def Router.acknowledge (at' : InterfaceRef) (ifIndex : ℕ) (r : Router) :
    Acknowledgement → Router
  | .delayed destination header => r.modifyInterface at' (·.queue destination header)
  | .direct destination header => r.emit (.acknowledgement ifIndex destination header)

/-- How the loop over the LSAs of a kind goes on: with the next LSA, with the next kind, or not at
all because an assertion or a cast failed. -/
inductive Outcome
  | next
  | nextKind
  | failed
  deriving DecidableEq

/-- What became of one LSA of the packet. -/
structure Verdict where
  router : Router
  outcome : Outcome := .next
  /-- The flags, once they have been set. -/
  flags : Option AcknowledgementFlags := none
  installed : Bool := false
  acknowledgements : List Acknowledgement := []
  shouldRebuildRoutingTable : Bool := false

/-- What stays the same while a packet is processed: the router's origination of LSAs, the interface
and the neighbour the packet comes from, and the packet. -/
structure Reception where
  P : Origination
  neighbor : NeighborRef
  packet : OSPFLinkStateUpdatePacket

namespace Reception

variable (R : Reception)

/-- The place of the interface. -/
def source : InterfaceRef :=
  R.neighbor.toInterfaceRef

/-- The acknowledgements `acknowledgeLSA` makes are carried out. -/
def acknowledge (v : Verdict) (flags : AcknowledgementFlags) (header : OSPFLSAHeader) : Verdict :=
  match v.router.interface? R.source with
  | none => { v with outcome := .failed }
  | some intf =>
    match intf.acknowledgeLSA header flags R.packet.routerID with
    | none => { v with outcome := .failed }
    | some acks =>
      { v with router := acks.foldl (Router.acknowledge R.source intf.ifIndex) v.router,
               acknowledgements := acks }

/-- `BAD_LINK_STATE_REQUEST`: the exchange with the neighbour starts anew. -/
def badLinkStateRequest (r : Router) (intf : Interface) (n : Neighbor) : Router :=
  let number := n.ddSequenceNumber + 1
  let destination := if intf.interfaceType = .pointToPoint then ALL_OSPF_ROUTERS_MCAST
    else n.neighborIPAddress
  let r := (r.modifyNeighbor R.neighbor fun n ↦
    { n.reset with ddSequenceNumber := number, state := .exchangeStart }).emit
      (.databaseDescription intf.ifIndex destination number)
  if n.state = .full then R.P.run r R.neighbor else r

/-- An LSA of the router itself has come back: it is flushed, or the next instance goes out. -/
def answerSelfOriginated (v : Verdict) (lsa : OSPFLSA) (copy : Option DatabaseCopy)
    (lsaIsNewer : Bool) : Verdict :=
  let r := v.router
  let areaID := R.packet.areaID
  if lsa.header.advertisingRouter = r.routerID ∨
      lsa.header.lsType = .network ∧ r.isLocalAddress lsa.header.linkStateID = true then
    match copy with
    | none => { v with router := (R.P.floodLSA r (lsa.setLsAge MAX_AGE) areaID none none).1 }
    | some copy =>
      if lsaIsNewer then
        -- the copy in the database is the new instance by now
        let current := ((r.findLSA lsa.header.lsType lsa.header.lsaKey areaID).map (·.lsa)).getD
          copy.lsa
        let next :=
          if lsa.header.lsSequenceNumber = MAX_SEQUENCE_NUMBER then current.setLsAge MAX_AGE
          else current.setLsSequenceNumber (lsa.header.lsSequenceNumber + 1)
        { v with router := (R.P.floodLSA (r.writeCopy next areaID) next areaID none none).1 }
      else v
  else v

/-- The flags `processPacket` sets for an LSA. -/
def flags (r : Router) (lsa : OSPFLSA) : AcknowledgementFlags :=
  let copy := r.findLSA lsa.header.lsType lsa.header.lsaKey R.packet.areaID
  { lsaReachedMaxAge := lsa.header.lsAge = MAX_AGE
    noLSAInstanceInDatabase := copy.isNone
    anyNeighborInExchangeOrLoadingState := r.hasAnyNeighborInExchangeOrLoading
    lsaIsNewer := copy.any (·.lsa.header.isOlder lsa.header)
    lsaIsDuplicate := copy.any (·.lsa.header.isSame lsa.header) }

/-- An LSA that is there no longer and that nobody waits for is acknowledged and forgotten. -/
def Forgets (flags : AcknowledgementFlags) : Prop :=
  flags.lsaReachedMaxAge = true ∧ flags.noLSAInstanceInDatabase = true ∧
    flags.anyNeighborInExchangeOrLoadingState = false

instance (flags : AcknowledgementFlags) : Decidable (Forgets flags) :=
  inferInstanceAs (Decidable (_ ∧ _))

/-- The LSA is newer than the copy, but the copy came in less than `MIN_LS_ARRIVAL` ago. -/
def TooEarly (copy : Option DatabaseCopy) : Prop :=
  ∃ c ∈ copy, c.source = .flooded ∧ c.installTime < MIN_LS_ARRIVAL

instance (copy : Option DatabaseCopy) : Decidable (TooEarly copy) :=
  inferInstanceAs (Decidable (∃ _ ∈ _, _))

/-- The part of the loop for an LSA that is flooded and installed. -/
def installAndAcknowledge (r : Router) (lsa : OSPFLSA) (flags : AcknowledgementFlags)
    (copy : Option DatabaseCopy) : Verdict :=
  let areaID := R.packet.areaID
  if lsa.WellTyped then
    let flooded := R.P.floodLSA r lsa areaID (some R.source) (some R.neighbor)
    let flags := { flags with floodedBackOut := flooded.2 }
    let r := match copy with
      | some copy => flooded.1.removeFromAllRetransmissionLists copy.lsa.header.lsaKey
      | none => flooded.1
    let t := R.P.installLSA r lsa areaID
    -- the contents are those of the first external LSA of the packet
    let r := match lsa, R.packet.asExternalLSAs.head?, r.interface? R.source with
      | .asExternal _, some first, some intf =>
        if first.contents.externalRouteTag = OSPF_EXTERNAL_ROUTES_LEARNED_BY_BGP then
          t.1.emit (.addExternalRoute lsa.header.linkStateID first.contents intf.ifIndex)
        else t.1
      | _, _, _ => t.1
    let v := R.acknowledge
      { router := r, flags := some flags, installed := true, shouldRebuildRoutingTable := t.2 }
      flags lsa.header
    if v.outcome = .failed then v else R.answerSelfOriginated v lsa copy flags.lsaIsNewer
  else { router := r, outcome := .failed, flags := some flags }

/-- The part of the loop for a duplicate: it serves as an acknowledgement where one was due. -/
def acknowledgeDuplicate (r : Router) (lsa : OSPFLSA) (flags : AcknowledgementFlags)
    (n : Neighbor) : Verdict :=
  let k := lsa.header.lsaKey
  let implied := n.isLinkStateRequestListEmpty k
  let r := if implied then r.modifyNeighbor R.neighbor (·.removeFromRetransmissionList k) else r
  let flags := { flags with impliedAcknowledgement := implied }
  R.acknowledge { router := r, flags := some flags } flags lsa.header

/-- The part of the loop for an LSA that is no newer than the copy. -/
def compareWithCopy (r : Router) (lsa : OSPFLSA) (flags : AcknowledgementFlags)
    (intf : Interface) (n : Neighbor) (copy : DatabaseCopy) : Verdict :=
  let k := lsa.header.lsaKey
  if n.isLSAOnRequestList k then
    { router := R.badLinkStateRequest r intf n, outcome := .nextKind, flags := some flags }
  else if flags.lsaIsDuplicate then R.acknowledgeDuplicate r lsa flags n
  else if copy.lsa.header.lsAge = MAX_AGE ∧
      copy.lsa.header.lsSequenceNumber = MAX_SEQUENCE_NUMBER then
    { router := r, flags := some flags }
  else if n.isOnTransmittedLSAList k then { router := r, flags := some flags }
  else
    match intf.createUpdatePacket copy.lsa with
    | some packet =>
      { router := r.emit (.update intf.ifIndex (intf.destinationFor n.neighborIPAddress) packet),
        flags := some flags }
    | none => { router := r, flags := some flags }

/-- The body of the loop of `processPacket`. -/
def processLSA (r : Router) (lsa : OSPFLSA) : Verdict :=
  match r.interface? R.source, r.neighbor? R.neighbor with
  | some intf, some n =>
    let type := lsa.header.lsType
    let area := (r.areaIndex R.packet.areaID).bind (r.areas[·]?)
    if type = .unknown ∨ type = .asExternal ∧ area.all (! ·.externalRoutingCapability) then
      { router := r }
    else
      let copy := r.findLSA type lsa.header.lsaKey R.packet.areaID
      let flags := R.flags r lsa
      if Forgets flags then
        let ack : Acknowledgement := .direct (intf.destinationFor n.neighborIPAddress) lsa.header
        { router := r.acknowledge R.source intf.ifIndex ack, flags := some flags,
          acknowledgements := [ack] }
      else if flags.noLSAInstanceInDatabase = true ∨ flags.lsaIsNewer = true then
        if TooEarly copy then { router := r, flags := some flags }
        else R.installAndAcknowledge r lsa flags copy
      else
        match copy with
        | some copy => R.compareWithCopy r lsa flags intf n copy
        | none => { router := r }
  | _, _ => { router := r }

/-- One LSA of a packet: the router before it, and what became of it. -/
structure Turn where
  before : Router
  lsa : OSPFLSA
  verdict : Verdict

/-- The loop over the LSAs of one kind; the router is missing when processing has failed. -/
def processKind : Router → List OSPFLSA → List Turn × Option Router
  | r, [] => ([], some r)
  | r, lsa :: lsas =>
    let v := R.processLSA r lsa
    let turn : Turn := ⟨r, lsa, v⟩
    match v.outcome with
    | .next => (turn :: (processKind v.router lsas).1, (processKind v.router lsas).2)
    | .nextKind => ([turn], some v.router)
    | .failed => ([turn], none)

/-- The loop over the kinds. -/
def processKinds : Router → List (List OSPFLSA) → List Turn × Option Router
  | r, [] => ([], some r)
  | r, kind :: kinds =>
    let t := R.processKind r kind
    match t.2 with
    | some r => (t.1 ++ (processKinds r kinds).1, (processKinds r kinds).2)
    | none => (t.1, none)

/-- `LinkStateUpdateHandler::processPacket`, up to the new routing table. -/
def processPacket (r : Router) : List Turn × Option Router :=
  if (r.neighbor? R.neighbor).any (·.state.ReachedExchange) then
    R.processKinds r R.packet.kinds
  else ([], some r)

end Reception

/-! ### Which acknowledgements are made -/

namespace Interface

variable {intf intf' : Interface} {address lsaSource : IPv4Address} {header : OSPFLSAHeader}
  {flags : AcknowledgementFlags}

/-- The queue of the delayed acknowledgements for a neighbour. -/
def delayedDestination (intf : Interface) (neighborAddress : IPv4Address) : IPv4Address :=
  if intf.interfaceType = .broadcast then intf.broadcastDestination else neighborAddress

/-- A delayed acknowledgement gets into the queue for a neighbour: on a network that is not a
broadcast one, the exchange with it must have begun. -/
def QueuesFor (intf : Interface) (neighborAddress : IPv4Address) : Prop :=
  intf.interfaceType = .broadcast ∨
    ∃ n ∈ intf.neighboringRouters, n.state.ReachedExchange ∧ n.neighborIPAddress = neighborAddress

/-- A direct acknowledgement finds a neighbour by its router id, where it has to. -/
def SendsTo (intf : Interface) (lsaSource neighborAddress : IPv4Address) : Prop :=
  intf.interfaceType = .broadcast ∨ intf.interfaceType = .pointToPoint ∨
    ∃ n ∈ intf.getNeighborByID lsaSource, n.neighborIPAddress = neighborAddress

/-- Among the acknowledgements is one of the instance, direct and for the neighbour. -/
def AcknowledgedDirectly (intf : Interface) (neighborAddress : IPv4Address)
    (header : OSPFLSAHeader) (acks : List Acknowledgement) : Prop :=
  .direct (intf.destinationFor neighborAddress) header ∈ acks

/-- Among the acknowledgements is one of the instance for the neighbour. -/
def Acknowledged (intf : Interface) (neighborAddress : IPv4Address)
    (header : OSPFLSAHeader) (acks : List Acknowledgement) : Prop :=
  .delayed (intf.delayedDestination neighborAddress) header ∈ acks ∨
    intf.AcknowledgedDirectly neighborAddress header acks

instance (intf : Interface) (address : IPv4Address) (header : OSPFLSAHeader)
    (acks : List Acknowledgement) : Decidable (intf.AcknowledgedDirectly address header acks) :=
  inferInstanceAs (Decidable (_ ∈ _))

instance (intf : Interface) (address : IPv4Address) (header : OSPFLSAHeader)
    (acks : List Acknowledgement) : Decidable (intf.Acknowledged address header acks) :=
  inferInstanceAs (Decidable (_ ∈ _ ∨ _ ∈ _))

end Interface

namespace Reception

variable {R : Reception} {r : Router} {lsa : OSPFLSA} {v : Verdict} {intf : Interface}
  {n : Neighbor} {header : OSPFLSAHeader} {flags : AcknowledgementFlags}

/-! ### The obligation and when it is met -/

/-- The LSA is looked at: its type is one of the five, and external LSAs are exchanged in the area.
-/
def Considers (R : Reception) (r : Router) (lsa : OSPFLSA) : Prop :=
  ¬ (lsa.header.lsType = .unknown ∨ lsa.header.lsType = .asExternal ∧
    ((r.areaIndex R.packet.areaID).bind (r.areas[·]?)).all (! ·.externalRoutingCapability) = true)

/-- The LSA is installed: there is no copy or an older one, it is not one to forget, and the copy
has not come in just now. -/
def Installs (R : Reception) (r : Router) (lsa : OSPFLSA) : Prop :=
  R.Considers r lsa ∧ ¬ Forgets (R.flags r lsa) ∧
    ((R.flags r lsa).noLSAInstanceInDatabase = true ∨ (R.flags r lsa).lsaIsNewer = true) ∧
    ¬ TooEarly (r.findLSA lsa.header.lsType lsa.header.lsaKey R.packet.areaID) ∧ lsa.WellTyped

/-- The LSA goes out again through the interface it has come in by. -/
def FloodsBackOut (R : Reception) (r : Router) (lsa : OSPFLSA) : Prop :=
  (R.P.floodLSA r lsa R.packet.areaID (some R.source) (some R.neighbor)).2 = true

/-- What the neighbour is owed for one LSA: an acknowledgement of what has been installed and not
flooded back to it, unless the interface is in state Backup, and a direct one of a duplicate that
has not served as an acknowledgement itself. -/
def Turn.Answered (R : Reception) (t : Turn) : Prop :=
  ∀ intf ∈ t.before.interface? R.source, ∀ n ∈ t.before.neighbor? R.neighbor,
    ∀ flags ∈ t.verdict.flags,
      (t.verdict.installed = true → flags.floodedBackOut = false → intf.state ≠ .backup →
        intf.Acknowledged n.neighborIPAddress t.lsa.header t.verdict.acknowledgements) ∧
      (flags.lsaIsDuplicate = true → flags.impliedAcknowledgement = false →
        intf.AcknowledgedDirectly n.neighborIPAddress t.lsa.header t.verdict.acknowledgements)

instance (R : Reception) (t : Turn) : Decidable (t.Answered R) :=
  inferInstanceAs (Decidable (∀ _ ∈ _, ∀ _ ∈ _, ∀ _ ∈ _, _ ∧ _))

/-- What an LSA has to be like to be acknowledged. One that is installed must have a copy in the
database, and then the exchange with the neighbour must still be on; or it must have reached
`MAX_AGE`. A duplicate must not be on the request list. -/
def AnswersOn (R : Reception) (r : Router) (lsa : OSPFLSA) (intf : Interface) (n : Neighbor) :
    Prop :=
  (R.Installs r lsa → ¬ R.FloodsBackOut r lsa → intf.state ≠ .backup →
    if (R.flags r lsa).noLSAInstanceInDatabase then
      lsa.header.lsAge = MAX_AGE ∧ intf.SendsTo R.packet.routerID n.neighborIPAddress
    else intf.QueuesFor n.neighborIPAddress) ∧
  (R.Considers r lsa → (R.flags r lsa).lsaIsDuplicate = true →
    n.isLSAOnRequestList lsa.header.lsaKey = false ∧
      (n.isLinkStateRequestListEmpty lsa.header.lsaKey = false →
        intf.SendsTo R.packet.routerID n.neighborIPAddress))

/-- The same of the interface and the neighbour the packet comes from. -/
def Answers (R : Reception) (r : Router) (lsa : OSPFLSA) : Prop :=
  ∀ intf ∈ r.interface? R.source, ∀ n ∈ r.neighbor? R.neighbor, R.AnswersOn r lsa intf n

/-! ### What becomes of one LSA -/

end Reception

end Inet.OSPF
