import Inet.Ndn.Packets

/-!
# The pending interest table

`PitBase`: a list of entries, each a copy of an Interest with the gate it arrived on and the MAC
address it came from. Entries leave the table by `remove`, which takes the first live entry of a
name, or by `cleanTimedout`, which the table's self-message runs.

`cleanTimedout` notifies the forwarder of each entry that timed out while it walks the table, and
erases the marked entries in a second loop. The notifications are returned here in the order of the
walk; the forwarder's listener does not touch the table, so nothing can intervene.
-/

namespace Inet.Ndn

/-- `IPit::PitEntry`. -/
structure PitEntry where
  macSrc : MACAddress
  interest : Interest
  face : Gate
  erased : Bool
  expireAt : SimTime
  deriving DecidableEq, Repr

namespace PitEntry

/-- The constructor `PitEntry(interest, face, src)`, at time `now`. -/
def make (now : SimTime) (interest : Interest) (face : Gate) (src : MACAddress) : PitEntry where
  macSrc := src
  interest := interest
  face := face
  erased := false
  expireAt := now + SimTime.ms interest.interestLifetimeMs.toNat

/-- The test of `lookup` and `remove`: a live entry of the name. -/
def isFor (name : CString) (e : PitEntry) : Bool :=
  !e.erased && e.interest.name == name

/-- The test of `cleanTimedout`: a live entry whose time is over. -/
def isTimedout (now : SimTime) (e : PitEntry) : Bool :=
  !e.erased && e.expireAt ≤ now

theorem isFor_iff {name : CString} {e : PitEntry} :
    e.isFor name = true ↔ e.erased = false ∧ e.interest.name = name := by
  simp [isFor]

@[simp] theorem make_erased (now : SimTime) (i : Interest) (g : Gate) (src : MACAddress) :
    (make now i g src).erased = false := rfl

@[simp] theorem make_interest (now : SimTime) (i : Interest) (g : Gate) (src : MACAddress) :
    (make now i g src).interest = i := rfl

@[simp] theorem make_face (now : SimTime) (i : Interest) (g : Gate) (src : MACAddress) :
    (make now i g src).face = g := rfl

@[simp] theorem make_macSrc (now : SimTime) (i : Interest) (g : Gate) (src : MACAddress) :
    (make now i g src).macSrc = src := rfl

end PitEntry

/-- `IPit::Notification`: what the time-out signal carries. -/
structure PitNotification where
  interest : Interest
  face : Gate
  macSrc : MACAddress
  deriving DecidableEq, Repr

/-- The notification of an entry. -/
def PitEntry.notification (e : PitEntry) : PitNotification :=
  ⟨e.interest, e.face, e.macSrc⟩

/-- `PitBase`, with the arrival time of its self-message `checkTimeout` while it is scheduled. -/
structure PitBase where
  entries : List PitEntry := []
  maxSize : ℕ
  checkTimeout : Option SimTime := none
  numAdded : ℕ := 0
  numRemoved : ℕ := 0
  numMatched : ℕ := 0
  numMissed : ℕ := 0
  numTimeout : ℕ := 0
  deriving DecidableEq, Repr

namespace PitBase

/-- `PitBase::create`. -/
def create (pit : PitBase) (now : SimTime) (interest : Interest) (src : MACAddress) :
    Bool × PitBase :=
  if pit.entries.length = pit.maxSize then (false, pit)
  else
    (true,
      { pit with
        entries := pit.entries ++ [PitEntry.make now interest interest.arrivalGate src]
        numAdded := pit.numAdded + 1
        checkTimeout :=
          if pit.checkTimeout.isNone then some (now + SimTime.ms 1000) else pit.checkTimeout })

/-- `PitBase::remove`. -/
def remove (pit : PitBase) (name : CString) : Bool × PitBase :=
  if pit.entries.any (PitEntry.isFor name) then
    (true,
      { pit with
        entries := pit.entries.eraseP (PitEntry.isFor name)
        numRemoved := pit.numRemoved + 1 })
  else (false, pit)

/-- `PitBase::lookup`. An empty table is not counted as a miss. -/
def lookup (pit : PitBase) (name : CString) : Option PitEntry × PitBase :=
  if pit.entries.isEmpty then (none, pit)
  else
    match pit.entries.find? (PitEntry.isFor name) with
    | some e => (some e, { pit with numMatched := pit.numMatched + 1 })
    | none => (none, { pit with numMissed := pit.numMissed + 1 })

/-- `PitBase::cleanTimedout`, with the notifications it emits. -/
def cleanTimedout (pit : PitBase) (now : SimTime) : List PitNotification × PitBase :=
  -- the first loop marks, the second deletes what is marked
  let timedout := pit.entries.filter (PitEntry.isTimedout now)
  let marked := pit.entries.map fun e ↦ if e.isTimedout now then { e with erased := true } else e
  (timedout.map PitEntry.notification,
    { pit with
      entries := marked.filter fun e ↦ !e.erased
      numTimeout := pit.numTimeout + timedout.length
      numRemoved := pit.numRemoved + (marked.filter (·.erased)).length })

/-- `PitBase::handleMessage` for the self-message. -/
def handleSelfMessage (pit : PitBase) (now : SimTime) : List PitNotification × PitBase :=
  let (notes, pit) := pit.cleanTimedout now
  (notes,
    { pit with
      checkTimeout := if pit.entries.isEmpty then none else some (now + SimTime.ms 1000) })

/-! ### What the operations do to the entries -/

variable (pit : PitBase)

@[simp]
theorem lookup_entries (name : CString) : (pit.lookup name).2.entries = pit.entries := by
  unfold lookup
  split
  · rfl
  · split <;> rfl

@[simp]
theorem lookup_maxSize (name : CString) : (pit.lookup name).2.maxSize = pit.maxSize := by
  unfold lookup
  split
  · rfl
  · split <;> rfl

theorem lookup_fst (name : CString) :
    (pit.lookup name).1 = pit.entries.find? (PitEntry.isFor name) := by
  unfold lookup
  split
  · rename_i h
    rw [List.isEmpty_iff.1 h]
    rfl
  · split <;> simp [*]

/-- A hit is a live entry of the name. -/
theorem of_lookup_eq_some {name : CString} {e : PitEntry} (h : (pit.lookup name).1 = some e) :
    e ∈ pit.entries ∧ e.erased = false ∧ e.interest.name = name := by
  rw [lookup_fst] at h
  have hfor := PitEntry.isFor_iff.1 (List.find?_some h)
  exact ⟨List.mem_of_find?_eq_some h, hfor.1, hfor.2⟩

/-- After a miss no live entry has the name. -/
theorem of_lookup_eq_none {name : CString} (h : (pit.lookup name).1 = none) {e : PitEntry}
    (he : e ∈ pit.entries) (hlive : e.erased = false) : e.interest.name ≠ name := by
  rw [lookup_fst] at h
  intro hname
  exact List.find?_eq_none.1 h e he (PitEntry.isFor_iff.2 ⟨hlive, hname⟩)

theorem remove_entries (name : CString) :
    (pit.remove name).2.entries = pit.entries.eraseP (PitEntry.isFor name) := by
  unfold remove
  split
  · rfl
  · rename_i h
    rw [List.eraseP_of_forall_not]
    intro e he
    simpa using fun hfor ↦ h (List.any_eq_true.2 ⟨e, he, hfor⟩)

@[simp]
theorem remove_maxSize (name : CString) : (pit.remove name).2.maxSize = pit.maxSize := by
  unfold remove
  split <;> rfl

theorem create_of_full (now : SimTime) (i : Interest) (src : MACAddress)
    (h : pit.entries.length = pit.maxSize) : pit.create now i src = (false, pit) := by
  rw [create, if_pos h]

theorem create_of_room (now : SimTime) (i : Interest) (src : MACAddress)
    (h : pit.entries.length ≠ pit.maxSize) :
    pit.create now i src = (true, (pit.create now i src).2) := by
  rw [create, if_neg h]

theorem create_entries_of_room {now : SimTime} {i : Interest} {src : MACAddress}
    (h : pit.entries.length ≠ pit.maxSize) :
    (pit.create now i src).2.entries =
      pit.entries ++ [PitEntry.make now i i.arrivalGate src] := by
  rw [create, if_neg h]

@[simp]
theorem create_maxSize (now : SimTime) (i : Interest) (src : MACAddress) :
    (pit.create now i src).2.maxSize = pit.maxSize := by
  unfold create
  split <;> rfl

/-- The clean-up keeps exactly the entries that are live and not timed out. -/
theorem handleSelfMessage_entries (now : SimTime) :
    (pit.handleSelfMessage now).2.entries =
      pit.entries.filter fun e ↦ !e.erased && !e.isTimedout now := by
  show (pit.entries.map fun e ↦ if e.isTimedout now then { e with erased := true } else e).filter
    (fun e ↦ !e.erased) = _
  induction pit.entries with
  | nil => rfl
  | cons e l ih =>
    rw [List.map_cons, List.filter_cons, List.filter_cons, ih]
    by_cases ht : e.isTimedout now = true <;> simp [ht]

/-- The clean-up notifies of exactly the entries it times out. -/
theorem handleSelfMessage_notifications (now : SimTime) :
    (pit.handleSelfMessage now).1 =
      (pit.entries.filter (PitEntry.isTimedout now)).map PitEntry.notification :=
  rfl

@[simp]
theorem handleSelfMessage_maxSize (now : SimTime) :
    (pit.handleSelfMessage now).2.maxSize = pit.maxSize :=
  rfl

end PitBase

end Inet.Ndn
