import Mathlib.Data.List.AList
import Inet.Foundations.Fallible
import Inet.Foundations.OrderedMap

/-!
# The multicast data of an IPv4 interface

For each group that a socket of the host has joined, the interface counts the sockets that include
or exclude a source, and computes its own filter from the counts; when the filter changes, there is
a notification. For the groups that have listeners on the link, a router keeps a list of sources.

The order of the groups in their vectors is not used, so that they are kept under their addresses.
The functions take any type of addresses with an order.
-/

namespace Inet

/-- `McastSourceFilterMode`. -/
inductive McastSourceFilterMode
  | includeSources
  | excludeSources
  deriving DecidableEq, Repr

/-- `IPv4MulticastSourceList`. The default constructor gives INCLUDE of nothing. -/
structure IPv4MulticastSourceList (Address : Type) where
  filterMode : McastSourceFilterMode := .includeSources
  sources : List Address := []
  deriving DecidableEq, Repr

namespace IPv4MulticastSourceList

variable {Address : Type} [DecidableEq Address]

/-- `isEmpty`. -/
def isEmpty (sourceList : IPv4MulticastSourceList Address) : Bool :=
  sourceList.filterMode = .includeSources ∧ sourceList.sources = []

/-- `contains`. -/
def contains (sourceList : IPv4MulticastSourceList Address) (source : Address) : Bool :=
  sourceList.filterMode = .includeSources ∧ source ∈ sourceList.sources ∨
    sourceList.filterMode = .excludeSources ∧ source ∉ sourceList.sources

end IPv4MulticastSourceList

/-- `HostMulticastGroupData`. -/
structure HostMulticastGroupData (Address : Type) [LinearOrder Address] where
  includeCounts : OrderedMap Address ℤ := ∅
  excludeCounts : OrderedMap Address ℤ := ∅
  numOfExcludeModeSockets : ℤ := 0
  sourceList : IPv4MulticastSourceList Address := {}

/-- The groups of an `IPv4InterfaceData`: `HostMulticastData` and `RouterMulticastData`. -/
structure IPv4MulticastData (Address : Type) [LinearOrder Address] where
  joinedMulticastGroups : AList (fun _ : Address ↦ HostMulticastGroupData Address) := ∅
  reportedMulticastGroups : AList (fun _ : Address ↦ IPv4MulticastSourceList Address) := ∅

/-- The errors of the interface. -/
inductive IPv4InterfaceDataError
  | multicastAddressExpected
  | assertionFailed
  | inconsistentReferenceCounts
  deriving DecidableEq, Repr

variable {Address : Type} [LinearOrder Address]

/-! ### Hosts -/

namespace HostMulticastGroupData

/-- `updateSourceList`, and whether it has changed anything. -/
def updateSourceList (entry : HostMulticastGroupData Address) :
    Bool × HostMulticastGroupData Address :=
  let filterMode : McastSourceFilterMode :=
    if entry.numOfExcludeModeSockets = 0 then .includeSources else .excludeSources
  let sources :=
    if entry.numOfExcludeModeSockets = 0 then entry.includeCounts.keys
    else entry.excludeCounts.keys.filter fun source ↦
      entry.excludeCounts.find source = some entry.numOfExcludeModeSockets ∧
        entry.includeCounts.find source = none
  (decide (entry.sourceList ≠ ⟨filterMode, sources⟩), { entry with sourceList := ⟨filterMode, sources⟩ })

/-- The counts for a filter mode. -/
def counts (entry : HostMulticastGroupData Address) :
    McastSourceFilterMode → OrderedMap Address ℤ
  | .includeSources => entry.includeCounts
  | .excludeSources => entry.excludeCounts

/-- The entry with other counts for a filter mode. -/
def setCounts (entry : HostMulticastGroupData Address) (counts : OrderedMap Address ℤ) :
    McastSourceFilterMode → HostMulticastGroupData Address
  | .includeSources => { entry with includeCounts := counts }
  | .excludeSources => { entry with excludeCounts := counts }

end HostMulticastGroupData

/-- A reference to a source is given up. -/
def releaseSource (counts : OrderedMap Address ℤ) (source : Address) :
    Except IPv4InterfaceDataError (OrderedMap Address ℤ) :=
  match counts.find source with
  | none => .error .inconsistentReferenceCounts
  | some count => .ok (if count = 1 then counts.erase source else counts.insert source (count - 1))

/-- A reference to a source is taken up. -/
def acquireSource (counts : OrderedMap Address ℤ) (source : Address) : OrderedMap Address ℤ :=
  match counts.find source with
  | none => counts.insert source 1
  | some count => counts.insert source (count + 1)

namespace IPv4MulticastData

/-- `findHostGroupData`. -/
def findHostGroupData (data : IPv4MulticastData Address) (multicastAddress : Address) :
    Option (HostMulticastGroupData Address) :=
  data.joinedMulticastGroups.lookup multicastAddress

/-- The change of the number of sockets in EXCLUDE mode. -/
def excludeModeChange : McastSourceFilterMode → McastSourceFilterMode → ℤ
  | .includeSources, .excludeSources => 1
  | .excludeSources, .includeSources => -1
  | _, _ => 0

/-- What `changeMulticastGroupMembership` does to the entry of the group. -/
def changeEntry (old new : IPv4MulticastSourceList Address) (entry : HostMulticastGroupData Address) :
    Except IPv4InterfaceDataError (Bool × HostMulticastGroupData Address) := do
  let released ← old.sources.foldlM releaseSource (entry.counts old.filterMode)
  let entry := entry.setCounts released old.filterMode
  let entry := entry.setCounts (new.sources.foldl acquireSource (entry.counts new.filterMode))
    new.filterMode
  return { entry with
    numOfExcludeModeSockets :=
      entry.numOfExcludeModeSockets + excludeModeChange old.filterMode new.filterMode
    }.updateSourceList

/-- The entry is kept, or removed when it has become INCLUDE of nothing. -/
def storeEntry (multicastAddress : Address) (changed : Bool) (entry : HostMulticastGroupData Address)
    (data : IPv4MulticastData Address) : IPv4MulticastData Address :=
  if changed = true ∧ entry.sourceList.isEmpty = true then
    { data with joinedMulticastGroups := data.joinedMulticastGroups.erase multicastAddress }
  else
    { data with joinedMulticastGroups := data.joinedMulticastGroups.insert multicastAddress entry }

/-- The entry of a group, which is made if there is none. -/
def findOrCreateEntry (multicastAddress : Address) (old : IPv4MulticastSourceList Address)
    (data : IPv4MulticastData Address) :
    Except IPv4InterfaceDataError (HostMulticastGroupData Address) :=
  match data.findHostGroupData multicastAddress with
  | some entry => .ok entry
  | none => if old.isEmpty then .ok {} else .error .assertionFailed

/-- `changeMulticastGroupMembership`, and whether there is a notification of a change. -/
def changeMulticastGroupMembership (isMulticast : Address → Bool) (multicastAddress : Address)
    (old new : IPv4MulticastSourceList Address) (data : IPv4MulticastData Address) :
    Except IPv4InterfaceDataError (Bool × IPv4MulticastData Address) :=
  if isMulticast multicastAddress then do
    let entry ← data.findOrCreateEntry multicastAddress old
    let (changed, entry) ← changeEntry old new entry
    return (changed, data.storeEntry multicastAddress changed entry)
  else .error .multicastAddressExpected

/-! ### Routers -/

/-- `hasMulticastListener(multicastAddress, sourceAddress)`. -/
def hasMulticastListener (data : IPv4MulticastData Address) (multicastAddress sourceAddress : Address) :
    Bool :=
  match data.reportedMulticastGroups.lookup multicastAddress with
  | some sourceList => !sourceList.contains sourceAddress
  | none => false

/-- `removeMulticastListener(multicastAddress)`. -/
def removeMulticastListener (multicastAddress : Address) (data : IPv4MulticastData Address) :
    IPv4MulticastData Address :=
  { data with reportedMulticastGroups := data.reportedMulticastGroups.erase multicastAddress }

/-- `setMulticastListeners`, for a multicast address. A new entry is INCLUDE of nothing at first. -/
def setMulticastListeners (multicastAddress : Address) (filterMode : McastSourceFilterMode)
    (sourceList : List Address) (data : IPv4MulticastData Address) : IPv4MulticastData Address :=
  let groupData := (data.reportedMulticastGroups.lookup multicastAddress).getD {}
  if groupData ≠ ⟨filterMode, sourceList⟩ then
    if filterMode ≠ .includeSources ∨ sourceList ≠ [] then
      { data with
        reportedMulticastGroups :=
          data.reportedMulticastGroups.insert multicastAddress ⟨filterMode, sourceList⟩ }
    else data.removeMulticastListener multicastAddress
  else
    { data with
      reportedMulticastGroups := data.reportedMulticastGroups.insert multicastAddress groupData }

end IPv4MulticastData

end Inet
