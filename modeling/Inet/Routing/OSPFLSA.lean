import Inet.Foundations.OrderedMap
import Inet.NetworkLayer.IPv4Route

/-!
# OSPF link state advertisements

The LSAs of `ospf`: the header all kinds share, what each kind carries, and which of two instances
is the newer one. An LSA of the database also records where it came from and for how long it has
been there, and `LSATable` is one vector of LSAs of the database with its map by id.
-/

namespace Inet.OSPF

/-- `LS_REFRESH_TIME`. -/
def LS_REFRESH_TIME : ℕ := 1800

/-- `MIN_LS_ARRIVAL`. -/
def MIN_LS_ARRIVAL : ℕ := 1

/-- `MAX_AGE`. -/
def MAX_AGE : ℕ := 3600

/-- `MAX_AGE_DIFF`. -/
def MAX_AGE_DIFF : ℕ := 900

/-- `LS_INFINITY`. -/
def LS_INFINITY : ℕ := 16777215

/-- `INITIAL_SEQUENCE_NUMBER`. -/
def INITIAL_SEQUENCE_NUMBER : ℤ := -2147483647

/-- `MAX_SEQUENCE_NUMBER`. -/
def MAX_SEQUENCE_NUMBER : ℤ := 2147483647

/-- `OSPF_EXTERNAL_ROUTES_LEARNED_BY_BGP`. -/
def OSPF_EXTERNAL_ROUTES_LEARNED_BY_BGP : ℤ := 179

/-- `NULL_IPV4ADDRESS`, `NULL_ROUTERID`, `BACKBONE_AREAID`: the address `0.0.0.0`. -/
def NULL_IPV4ADDRESS : IPv4Address := 0

/-- `LSAType`; `unknown` is any other value of the field. -/
inductive LSAType
  | router
  | network
  | summaryNetworks
  | summaryASBoundaryRouters
  | asExternal
  | unknown
  deriving DecidableEq

/-- The bits of `OSPFOptions` that its `operator==` compares. -/
structure OSPFOptions where
  E_ExternalRoutingCapability : Bool := false
  MC_MulticastForwarding : Bool := false
  NP_Type7LSA : Bool := false
  EA_ForwardExternalLSAs : Bool := false
  DC_DemandCircuits : Bool := false
  deriving DecidableEq

/-- `OSPFLSAHeader`. -/
structure OSPFLSAHeader where
  lsAge : ℕ := 0
  lsOptions : OSPFOptions := {}
  lsType : LSAType := .router
  linkStateID : IPv4Address
  advertisingRouter : IPv4Address
  lsSequenceNumber : ℤ := 0
  lsaLength : ℕ := 0
  deriving DecidableEq

/-- `LSAKeyType`. -/
structure LSAKeyType where
  linkStateID : IPv4Address
  advertisingRouter : IPv4Address
  deriving DecidableEq

namespace LSAKeyType

/-- The fields as a pair in the order of `LSAKeyType_Less`. -/
def toPair (k : LSAKeyType) : IPv4Address ×ₗ IPv4Address :=
  toLex (k.linkStateID, k.advertisingRouter)

theorem toPair_injective : Function.Injective toPair := by
  rintro ⟨i, r⟩ ⟨j, t⟩ h
  obtain ⟨rfl, rfl⟩ := Prod.mk.inj (toLex.injective h)
  rfl

/-- `LSAKeyType_Less`. -/
instance : LinearOrder LSAKeyType :=
  LinearOrder.lift' toPair toPair_injective

end LSAKeyType

namespace OSPFLSAHeader

/-- The key of an LSA. -/
def lsaKey (h : OSPFLSAHeader) : LSAKeyType :=
  ⟨h.linkStateID, h.advertisingRouter⟩

/-- `operator<` on headers: the left instance is older. -/
def isOlder (left right : OSPFLSAHeader) : Bool :=
  if left.lsSequenceNumber < right.lsSequenceNumber then true
  else if left.lsSequenceNumber = right.lsSequenceNumber then
    if left.lsAge ≠ MAX_AGE ∧ right.lsAge = MAX_AGE then true
    else if left.lsAge = MAX_AGE ∧ right.lsAge ≠ MAX_AGE then false
    else MAX_AGE_DIFF < Int.natAbs ((left.lsAge : ℤ) - right.lsAge) ∧ right.lsAge < left.lsAge
  else false

/-- `operator==` on headers: both are the same instance. -/
def isSame (left right : OSPFLSAHeader) : Bool :=
  left.lsSequenceNumber = right.lsSequenceNumber ∧
    (left.lsAge = MAX_AGE ∧ right.lsAge = MAX_AGE ∨
      left.lsAge ≠ MAX_AGE ∧ right.lsAge ≠ MAX_AGE ∧
        Int.natAbs ((left.lsAge : ℤ) - right.lsAge) ≤ MAX_AGE_DIFF)

end OSPFLSAHeader

/-! ### What the kinds of LSAs carry -/

/-- `TOSData`. -/
structure TOSData where
  tos : UInt8
  tosMetric : Vector UInt8 3
  deriving DecidableEq

/-- `LinkType`; `unknown` is any other value of the field. -/
inductive LinkType
  | pointToPoint
  | transit
  | stub
  | virtual
  | unknown
  deriving DecidableEq

/-- `Link`. -/
structure Link where
  linkID : IPv4Address
  linkData : ℕ := 0
  type : LinkType := .pointToPoint
  numberOfTOS : UInt8 := 0
  linkCost : ℕ := 1
  tosData : List TOSData := []
  deriving DecidableEq

/-- What an `OSPFRouterLSA` adds to the header. -/
structure RouterContents where
  V_VirtualLinkEndpoint : Bool := false
  E_ASBoundaryRouter : Bool := false
  B_AreaBorderRouter : Bool := false
  numberOfLinks : ℕ := 0
  links : List Link := []
  deriving DecidableEq

/-- What an `OSPFNetworkLSA` adds to the header. -/
structure NetworkContents where
  networkMask : IPv4Address
  attachedRouters : List IPv4Address := []
  deriving DecidableEq

/-- What an `OSPFSummaryLSA` adds to the header. -/
structure SummaryContents where
  networkMask : IPv4Address
  routeCost : ℕ := 1
  tosData : List TOSData := []
  deriving DecidableEq

/-- `ExternalTOSInfo`. -/
structure ExternalTOSInfo where
  tosData : TOSData
  E_ExternalMetricType : Bool
  forwardingAddress : IPv4Address
  externalRouteTag : ℤ
  deriving DecidableEq

/-- `OSPFASExternalLSAContents`. -/
structure OSPFASExternalLSAContents where
  networkMask : IPv4Address
  E_ExternalMetricType : Bool := false
  routeCost : ℕ := 1
  forwardingAddress : IPv4Address
  externalRouteTag : ℤ := 0
  externalTOSInfo : List ExternalTOSInfo := []
  deriving DecidableEq

/-- An LSA of a kind that carries `β`. -/
structure LSA (β : Type) where
  header : OSPFLSAHeader
  contents : β
  deriving DecidableEq

/-- `OSPFRouterLSA`. -/
abbrev OSPFRouterLSA :=
  LSA RouterContents

/-- `OSPFNetworkLSA`. -/
abbrev OSPFNetworkLSA :=
  LSA NetworkContents

/-- `OSPFSummaryLSA`. -/
abbrev OSPFSummaryLSA :=
  LSA SummaryContents

/-- `OSPFASExternalLSA`. -/
abbrev OSPFASExternalLSA :=
  LSA OSPFASExternalLSAContents

/-- What an `OSPFLSA *` points to. -/
inductive OSPFLSA
  | router (lsa : OSPFRouterLSA)
  | network (lsa : OSPFNetworkLSA)
  | summary (lsa : OSPFSummaryLSA)
  | asExternal (lsa : OSPFASExternalLSA)
  deriving DecidableEq

namespace OSPFLSA

/-- `getHeader`. -/
def header : OSPFLSA → OSPFLSAHeader
  | router lsa => lsa.header
  | network lsa => lsa.header
  | summary lsa => lsa.header
  | asExternal lsa => lsa.header

/-- The LSA with another header. -/
def withHeader (h : OSPFLSAHeader) : OSPFLSA → OSPFLSA
  | router lsa => router { lsa with header := h }
  | network lsa => network { lsa with header := h }
  | summary lsa => summary { lsa with header := h }
  | asExternal lsa => asExternal { lsa with header := h }

/-- `getHeader().setLsAge`. -/
def setLsAge (age : ℕ) (lsa : OSPFLSA) : OSPFLSA :=
  lsa.withHeader { lsa.header with lsAge := age }

/-- `getHeader().setLsSequenceNumber`. -/
def setLsSequenceNumber (number : ℤ) (lsa : OSPFLSA) : OSPFLSA :=
  lsa.withHeader { lsa.header with lsSequenceNumber := number }

/-- The kind of the object is the one its header names. -/
def WellTyped : OSPFLSA → Prop
  | router lsa => lsa.header.lsType = .router
  | network lsa => lsa.header.lsType = .network
  | summary lsa =>
    lsa.header.lsType = .summaryNetworks ∨ lsa.header.lsType = .summaryASBoundaryRouters
  | asExternal lsa => lsa.header.lsType = .asExternal

instance : (lsa : OSPFLSA) → Decidable lsa.WellTyped
  | router _ => inferInstanceAs (Decidable (_ = _))
  | network _ => inferInstanceAs (Decidable (_ = _))
  | summary _ => inferInstanceAs (Decidable (_ ∨ _))
  | asExternal _ => inferInstanceAs (Decidable (_ = _))

end OSPFLSA

/-! ### LSAs of the database -/

/-- `LSATrackingInfo::InstallSource`. -/
inductive InstallSource
  | originated
  | flooded
  deriving DecidableEq

/-- `RouterLSA`, `NetworkLSA`, `SummaryLSA`, `ASExternalLSA`: an LSA with its `LSATrackingInfo`. -/
structure TrackedLSA (β : Type) where
  lsa : LSA β
  source : InstallSource := .flooded
  installTime : ℕ := 0

namespace TrackedLSA

variable {β : Type}

/-- `getHeader`. -/
def header (t : TrackedLSA β) : OSPFLSAHeader :=
  t.lsa.header

/-- `getHeader().setLsAge`. -/
def setLsAge (age : ℕ) (t : TrackedLSA β) : TrackedLSA β :=
  { t with lsa := { t.lsa with header := { t.lsa.header with lsAge := age } } }

/-- `getHeader().setLsSequenceNumber`. -/
def setLsSequenceNumber (number : ℤ) (t : TrackedLSA β) : TrackedLSA β :=
  { t with lsa := { t.lsa with header := { t.lsa.header with lsSequenceNumber := number } } }

/-- `incrementInstallTime`. -/
def incrementInstallTime (t : TrackedLSA β) : TrackedLSA β :=
  { t with installTime := t.installTime + 1 }

/-- `differsFrom` of the four kinds: the bodies are compared only where the headers agree. -/
def differsFrom [DecidableEq β] (t : TrackedLSA β) (lsa : LSA β) : Bool :=
  t.header.lsOptions ≠ lsa.header.lsOptions ∨
    t.header.lsAge = MAX_AGE ∧ lsa.header.lsAge ≠ MAX_AGE ∨
    t.header.lsAge ≠ MAX_AGE ∧ lsa.header.lsAge = MAX_AGE ∨
    t.header.lsaLength ≠ lsa.header.lsaLength ∨ t.lsa.contents ≠ lsa.contents

/-- `update` of the four kinds: the install source stays. -/
def update (t : TrackedLSA β) (lsa : LSA β) : TrackedLSA β :=
  { t with lsa := lsa, installTime := 0 }

end TrackedLSA

/-- A vector of pointers to LSAs with what they point to, and the map by id to the same objects. -/
structure LSATable (κ : Type) [LinearOrder κ] (β : Type) where
  lsas : List (ℕ × TrackedLSA β) := []
  byID : OrderedMap κ ℕ := ∅
  /-- How many objects have been created. -/
  created : ℕ := 0

namespace LSATable

variable {κ β : Type} [LinearOrder κ] {T : LSATable κ β}

/-- The object at an address. -/
def deref (T : LSATable κ β) (p : ℕ) : Option (TrackedLSA β) :=
  T.lsas.lookup p

/-- `find…LSA`. -/
def find (T : LSATable κ β) (k : κ) : Option (TrackedLSA β) :=
  (T.byID.find k).bind T.deref

/-- Writing to the object at an address. -/
def modifyAt (T : LSATable κ β) (p : ℕ) (f : TrackedLSA β → TrackedLSA β) : LSATable κ β :=
  { T with lsas := T.lsas.map fun o ↦ if o.1 = p then (p, f o.2) else o }

/-- Writing to the object with an id. -/
def modify (T : LSATable κ β) (k : κ) (f : TrackedLSA β → TrackedLSA β) : LSATable κ β :=
  match T.byID.find k with
  | some p => T.modifyAt p f
  | none => T

/-- A new object at the end of the vector and in the map. -/
def insertNew (T : LSATable κ β) (k : κ) (t : TrackedLSA β) : LSATable κ β :=
  { lsas := T.lsas ++ [(T.created, t)], byID := T.byID.insert k T.created,
    created := T.created + 1 }

/-- `installRouterLSA`, `installNetworkLSA`, `installSummaryLSA`, the end of `installASExternalLSA`:
the object with the id is updated, or a new one is made. The result says whether the LSA differs. -/
def install [DecidableEq β] (T : LSATable κ β) (k : κ) (lsa : LSA β) : LSATable κ β × Bool :=
  match T.find k with
  | some t => (T.modify k (·.update lsa), t.differsFrom lsa)
  | none => (T.insertNew k { lsa }, true)

end LSATable

end Inet.OSPF
