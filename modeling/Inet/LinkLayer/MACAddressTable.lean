import Inet.Common.SimTime
import Inet.Foundations.Fallible
import Inet.Foundations.OrderedMap
import Inet.LinkLayer.MACAddress

/-!
# The address table of a switch

`MACAddressTable` keeps a table for each VLAN. The tables are allocated one by one; the one of VLAN
0 is also known by a pointer of its own, which has to be kept in step with the map of the tables
when they are dropped and created again.

What the table knows is an entry for a VLAN and an address (`lookup`). The operations do not reach a
table that has been deleted, and the lemmas say what they do to the entries.
-/

namespace Inet

/-- `MACAddressTable::AddressEntry`. -/
structure AddressEntry where
  vid : ℕ
  portno : ℤ
  insertionTime : SimTime
  deriving DecidableEq, Repr

/-- `MACAddressTable::AddressTable`. -/
abbrev AddressTable :=
  OrderedMap MACAddress AddressEntry

/-- What goes wrong when a table has been deleted. -/
inductive MACAddressTableError
  | danglingPointer
  deriving DecidableEq, Repr

/-- `class MACAddressTable`, and the tables that have been allocated. -/
structure MACAddressTable where
  agingTime : SimTime
  lastPurge : SimTime
  addressTable : Option ℕ
  vlanAddressTable : OrderedMap ℕ ℕ
  heap : ℕ → Option AddressTable
  next : ℕ

namespace MACAddressTable

variable (now : SimTime)

/-- A pointer is followed. -/
def deref (p : ℕ) (s : MACAddressTable) : Except MACAddressTableError AddressTable :=
  match s.heap p with
  | some table => .ok table
  | none => .error .danglingPointer

/-- The table behind a pointer is changed. -/
def assign (p : ℕ) (table : AddressTable) (s : MACAddressTable) : MACAddressTable :=
  { s with heap := Function.update s.heap p (some table) }

/-- A new table in the map. -/
def allocate (vid : ℕ) (s : MACAddressTable) : MACAddressTable :=
  { s with
    vlanAddressTable := s.vlanAddressTable.insert vid s.next
    heap := Function.update s.heap s.next (some ∅)
    next := s.next + 1 }

/-- A new table for a VLAN, in `updateTableWithAddress`. -/
def newTable (vid : ℕ) (s : MACAddressTable) : MACAddressTable :=
  { s.allocate vid with addressTable := if vid = 0 then some s.next else s.addressTable }

/-- `MACAddressTable::getTableForVid`. -/
def getTableForVid (vid : ℕ) (s : MACAddressTable) : Option ℕ :=
  if vid = 0 then s.addressTable else s.vlanAddressTable.find vid

/-- An entry that is not used any more. -/
def isAged (s : MACAddressTable) (entry : AddressEntry) : Bool :=
  entry.insertionTime + s.agingTime ≤ now

/-- A loop over all tables. -/
def forTables (f : AddressTable → AddressTable) (s : MACAddressTable) :
    Except MACAddressTableError MACAddressTable :=
  s.vlanAddressTable.entries.foldlM (fun s elem ↦ do
    let table ← s.deref elem.2
    return s.assign elem.2 (f table)) s

/-- What is found in a table, in `getPortForAddress`. Aged entries are not used, and thrown out. -/
def useEntry (p : ℕ) (address : MACAddress) (table : AddressTable) (s : MACAddressTable) :
    ℤ × MACAddressTable :=
  match table.find address with
  | none => (-1, s)
  | some entry =>
    if s.isAged now entry then (-1, s.assign p (table.erase address)) else (entry.portno, s)

/-- `MACAddressTable::getPortForAddress`. -/
def getPortForAddress (address : MACAddress) (vid : ℕ) (s : MACAddressTable) :
    Except MACAddressTableError (ℤ × MACAddressTable) :=
  match s.getTableForVid vid with
  | none => .ok (-1, s)
  | some p => do
    let table ← s.deref p
    return s.useEntry now p address table

/-- `MACAddressTable::removeAgedEntriesFromAllVlans`. -/
def removeAgedEntriesFromAllVlans (s : MACAddressTable) :
    Except MACAddressTableError MACAddressTable :=
  s.forTables fun table ↦ table.filterValues fun entry ↦ !s.isAged now entry

/-- `MACAddressTable::removeAgedEntriesIfNeeded`. -/
def removeAgedEntriesIfNeeded (s : MACAddressTable) :
    Except MACAddressTableError MACAddressTable := do
  let s ← if s.lastPurge + SimTime.ms 1000 ≤ now then s.removeAgedEntriesFromAllVlans now else .ok s
  return { s with lastPurge := now }

/-- A new entry, in `updateTableWithAddress`. -/
def addEntry (p : ℕ) (portno : ℤ) (address : MACAddress) (vid : ℕ) (s : MACAddressTable) :
    Except MACAddressTableError (Bool × MACAddressTable) := do
  let s ← s.removeAgedEntriesIfNeeded now
  let table ← s.deref p
  return (false, s.assign p (table.insert address ⟨vid, portno, now⟩))

/-- An entry that may be there already, in `updateTableWithAddress`. -/
def updateEntry (p : ℕ) (portno : ℤ) (address : MACAddress) (vid : ℕ) (table : AddressTable)
    (s : MACAddressTable) : Except MACAddressTableError (Bool × MACAddressTable) :=
  match table.find address with
  | none => s.addEntry now p portno address vid
  | some entry =>
    .ok (true, s.assign p
      (table.insert address { entry with insertionTime := now, portno := portno }))

/-- `MACAddressTable::updateTableWithAddress`. -/
def updateTableWithAddress (portno : ℤ) (address : MACAddress) (vid : ℕ) (s : MACAddressTable) :
    Except MACAddressTableError (Bool × MACAddressTable) :=
  if address = .BROADCAST_ADDRESS then .ok (false, s)
  else
    match s.getTableForVid vid with
    | none => (s.newTable vid).addEntry now s.next portno address vid
    | some p => do
      let table ← s.deref p
      s.updateEntry now p portno address vid table

/-- `MACAddressTable::flush`. -/
def flush (portno : ℤ) (s : MACAddressTable) : Except MACAddressTableError MACAddressTable :=
  s.forTables fun table ↦ table.filterValues fun entry ↦ entry.portno ≠ portno

/-- `MACAddressTable::copyTable`. -/
def copyTable (portA portB : ℤ) (s : MACAddressTable) :
    Except MACAddressTableError MACAddressTable :=
  s.forTables fun table ↦ table.mapValues fun entry ↦
    if entry.portno = portA then { entry with portno := portB } else entry

/-- `MACAddressTable::clearTable`. -/
def clearTable (s : MACAddressTable) : MACAddressTable :=
  { s with
    heap :=
      s.vlanAddressTable.entries.foldl (fun heap elem ↦ Function.update heap elem.2 none) s.heap
    vlanAddressTable := ∅
    addressTable := none }

/-- The table after its constructor. -/
def constructed (agingTime : SimTime) : MACAddressTable where
  agingTime := agingTime
  lastPurge := 0
  addressTable := some 0
  vlanAddressTable := (∅ : OrderedMap ℕ ℕ).insert 0 0
  heap := Function.update (fun _ ↦ none) 0 (some ∅)
  next := 1

/-- An entry is written without further ado, in `readAddressTable`. -/
def writeEntry (p : ℕ) (address : MACAddress) (entry : AddressEntry) (s : MACAddressTable) :
    Except MACAddressTableError MACAddressTable := do
  let table ← s.deref p
  return s.assign p (table.insert address entry)

/-- `MACAddressTable::readAddressTable`, for one line. -/
def readEntry (line : ℕ × MACAddress × ℤ) (s : MACAddressTable) :
    Except MACAddressTableError MACAddressTable :=
  match s.getTableForVid line.1 with
  | none => (s.allocate line.1).writeEntry s.next line.2.1 ⟨line.1, line.2.2, 0⟩
  | some p => s.writeEntry p line.2.1 ⟨line.1, line.2.2, 0⟩

/-- `MACAddressTable::initialize`, with the lines of the address table file. -/
def initialized (agingTime : SimTime) (addressTableFile : List (ℕ × MACAddress × ℤ)) :
    Except MACAddressTableError MACAddressTable :=
  addressTableFile.foldlM (fun s line ↦ s.readEntry line) (constructed agingTime)

/-! ### Entries -/

/-- No pointer dangles, and the table of VLAN 0 is the one in the map. -/
structure Valid (s : MACAddressTable) : Prop where
  cached : s.addressTable = s.vlanAddressTable.find 0
  allocated : ∀ vid p, s.vlanAddressTable.find vid = some p →
    p < s.next ∧ ∃ table, s.heap p = some table
  inj : ∀ vid vid' p, s.vlanAddressTable.find vid = some p → s.vlanAddressTable.find vid' = some p →
    vid = vid'

/-- The table of a VLAN. -/
def view (s : MACAddressTable) (vid : ℕ) : Option AddressTable :=
  (s.vlanAddressTable.find vid).bind s.heap

/-- The entry for an address. -/
def lookup (s : MACAddressTable) (vid : ℕ) (address : MACAddress) : Option AddressEntry :=
  (s.view vid).bind fun table ↦ table.find address

variable {now : SimTime} {s s' s'' : MACAddressTable} {vid p : ℕ} {table : AddressTable}
  {address : MACAddress} {portno : ℤ}

theorem lookup_of_view (h : s.view vid = some table) :
    s.lookup vid address = table.find address := by
  rw [lookup, h, Option.bind_some]

namespace Valid

theorem getTableForVid (h : Valid s) (vid : ℕ) :
    s.getTableForVid vid = s.vlanAddressTable.find vid := by
  rw [MACAddressTable.getTableForVid]
  split_ifs with hvid
  · rw [h.cached, hvid]
  · rfl

theorem deref (h : Valid s) (hfind : s.vlanAddressTable.find vid = some p) :
    ∃ table, s.deref p = .ok table ∧ s.view vid = some table := by
  obtain ⟨-, table, htable⟩ := h.allocated vid p hfind
  refine ⟨table, ?_, ?_⟩
  · rw [MACAddressTable.deref, htable]
  · rw [view, hfind, Option.bind_some, htable]

theorem view_eq_none (hfind : s.vlanAddressTable.find vid = none) : s.view vid = none := by
  rw [view, hfind, Option.bind_none]

/-- The table of one VLAN is changed. -/
theorem assign (h : Valid s) (hfind : s.vlanAddressTable.find vid = some p) (table : AddressTable) :
    Valid (s.assign p table) ∧
      ∀ vid', (s.assign p table).view vid' = if vid' = vid then some table else s.view vid' := by
  refine ⟨⟨h.cached, fun vid' p' hfind' ↦ ?_, h.inj⟩, fun vid' ↦ ?_⟩
  · obtain ⟨hlt, table', htable'⟩ := h.allocated vid' p' hfind'
    refine ⟨hlt, ?_⟩
    by_cases hp : p' = p
    · exact ⟨table, by rw [hp]; exact Function.update_self _ _ _⟩
    · exact ⟨table', (Function.update_of_ne hp _ _).trans htable'⟩
  · show (s.vlanAddressTable.find vid').bind (Function.update s.heap p (some table)) = _
    split_ifs with hvid
    · rw [hvid, hfind, Option.bind_some, Function.update_self]
    · rw [view]
      cases hfind' : s.vlanAddressTable.find vid' with
      | none => rfl
      | some p' =>
        refine Function.update_of_ne ?_ _ _
        rintro rfl
        exact hvid (h.inj vid' vid p' hfind' hfind)

theorem newTable (h : Valid s) (vid : ℕ) :
    Valid (s.newTable vid) ∧ (s.newTable vid).vlanAddressTable.find vid = some s.next ∧
      ∀ vid', (s.newTable vid).view vid' = if vid' = vid then some ∅ else s.view vid' := by
  have hnew (vid' : ℕ) : (s.newTable vid).vlanAddressTable.find vid' =
      if vid' = vid then some s.next else s.vlanAddressTable.find vid' :=
    OrderedMap.find_insert _ _ _ _
  have hold (vid' p' : ℕ) (hfind' : s.vlanAddressTable.find vid' = some p') : p' ≠ s.next :=
    (h.allocated vid' p' hfind').1.ne
  refine ⟨⟨?_, fun vid' p' hfind' ↦ ?_, fun vid' vid'' p' h' h'' ↦ ?_⟩, ?_, fun vid' ↦ ?_⟩
  · rw [hnew]
    show (if vid = 0 then some s.next else s.addressTable) = _
    simp only [eq_comm (a := vid), h.cached]
  · rw [hnew] at hfind'
    split_ifs at hfind' with hvid
    · obtain rfl := Option.some.inj hfind'
      exact ⟨Nat.lt_succ_self _, ∅, Function.update_self _ _ _⟩
    · obtain ⟨hlt, table, htable⟩ := h.allocated vid' p' hfind'
      exact ⟨hlt.trans (Nat.lt_succ_self _), table,
        (Function.update_of_ne (hold vid' p' hfind') _ _).trans htable⟩
  · rw [hnew] at h' h''
    split_ifs at h' h'' with hvid hvid' hvid'
    · rw [hvid, hvid']
    · exact absurd (Option.some.inj h').symm (hold vid'' p' h'')
    · exact absurd (Option.some.inj h'').symm (hold vid' p' h')
    · exact h.inj vid' vid'' p' h' h''
  · rw [hnew, if_pos rfl]
  · rw [view, hnew]
    split_ifs with hvid
    · exact Function.update_self _ _ _
    · rw [view]
      cases hfind' : s.vlanAddressTable.find vid' with
      | none => rfl
      | some p' => exact Function.update_of_ne (hold vid' p' hfind') _ _

/-- **A loop over all tables** changes each of them once. -/
theorem forTables (h : Valid s) (f : AddressTable → AddressTable) :
    ∃ heap, s.forTables f = .ok { s with heap := heap } ∧ Valid { s with heap := heap } ∧
      ∀ vid, view { s with heap := heap } vid = (s.view vid).map f := by
  have hloop (l : List (ℕ × ℕ)) (s : MACAddressTable) (hl : (l.map Prod.snd).Nodup)
      (halloc : ∀ elem ∈ l, ∃ table, s.heap elem.2 = some table) :
      l.foldlM (fun s elem ↦ do
        let table ← s.deref elem.2
        return s.assign elem.2 (f table)) s =
          Except.ok (ε := MACAddressTableError) { s with
            heap := fun p ↦ if p ∈ l.map Prod.snd then (s.heap p).map f else s.heap p } := by
    induction l generalizing s with
    | nil => rfl
    | cons elem l ih =>
      rw [List.map_cons, List.nodup_cons] at hl
      rw [List.forall_mem_cons] at halloc
      obtain ⟨⟨table, htable⟩, halloc⟩ := halloc
      have hother (p : ℕ) (hp : p ≠ elem.2) : (s.assign elem.2 (f table)).heap p = s.heap p :=
        Function.update_of_ne hp _ _
      rw [List.foldlM_cons, MACAddressTable.deref, htable]
      refine (ih (s.assign elem.2 (f table)) hl.2 fun elem' helem' ↦ ?_).trans ?_
      · obtain ⟨table', htable'⟩ := halloc elem' helem'
        refine ⟨table', (hother elem'.2 fun heq ↦ hl.1 ?_).trans htable'⟩
        exact heq ▸ List.mem_map_of_mem helem'
      · refine congrArg Except.ok ?_
        show ({ s with heap := _ } : MACAddressTable) = { s with heap := _ }
        congr 1
        funext p
        by_cases hp : p = elem.2
        · rw [hp, if_neg hl.1, List.map_cons, if_pos List.mem_cons_self, htable]
          exact Function.update_self _ _ _
        · simp only [hother p hp, List.map_cons, List.mem_cons, hp, false_or]
  have hnodup : (s.vlanAddressTable.entries.map Prod.snd).Nodup := by
    refine List.Nodup.map_on (fun e he e' he' heq ↦ ?_)
      (List.Nodup.of_map Prod.fst s.vlanAddressTable.sorted.nodup)
    have hfind := OrderedMap.mem_entries.1 he
    rw [heq] at hfind
    exact Prod.ext (h.inj _ _ _ hfind (OrderedMap.mem_entries.1 he')) heq
  have hmem (vid p : ℕ) (hfind : s.vlanAddressTable.find vid = some p) :
      p ∈ s.vlanAddressTable.entries.map Prod.snd :=
    List.mem_map_of_mem (f := Prod.snd) (OrderedMap.mem_entries.2 hfind)
  refine ⟨_, hloop _ s hnodup fun elem helem ↦ ?_, ⟨h.cached, fun vid p hfind ↦ ?_, h.inj⟩,
    fun vid ↦ ?_⟩
  · exact (h.allocated elem.1 elem.2 (OrderedMap.mem_entries.1 helem)).2
  · obtain ⟨hlt, table, htable⟩ := h.allocated vid p hfind
    refine ⟨hlt, f table, ?_⟩
    show (if p ∈ _ then _ else _) = _
    rw [if_pos (hmem vid p hfind), htable]
    rfl
  · rw [view, view]
    show (s.vlanAddressTable.find vid).bind _ = _
    cases hfind : s.vlanAddressTable.find vid with
    | none => rfl
    | some p => exact if_pos (hmem vid p hfind)

end Valid

/-! ### What the operations do to the entries -/

/-- The entries are the same, except that some are missing that have aged. -/
structure Thins (now : SimTime) (s s' : MACAddressTable) : Prop where
  agingTime : s'.agingTime = s.agingTime
  entry : ∀ vid address, s'.lookup vid address = s.lookup vid address ∨
    s'.lookup vid address = none ∧
      ∃ entry, s.lookup vid address = some entry ∧ s.isAged now entry = true

theorem Thins.refl (now : SimTime) (s : MACAddressTable) : Thins now s s :=
  ⟨rfl, fun _ _ ↦ .inl rfl⟩

theorem Thins.of_lookup (hagingTime : s'.agingTime = s.agingTime)
    (h : ∀ vid address, s'.lookup vid address = s.lookup vid address) : Thins now s s' :=
  ⟨hagingTime, fun vid address ↦ .inl (h vid address)⟩

theorem Thins.lookup_eq_some {entry : AddressEntry} (h : Thins now s s')
    (hentry : s'.lookup vid address = some entry) : s.lookup vid address = some entry := by
  rcases h.entry vid address with heq | ⟨hnone, -⟩
  · exact heq ▸ hentry
  · rw [hnone] at hentry
    cases hentry

/-- The port of an entry that has not aged. -/
def portOf (s : MACAddressTable) (now : SimTime) (vid : ℕ) (address : MACAddress) : ℤ :=
  match s.lookup vid address with
  | none => -1
  | some entry => if s.isAged now entry then -1 else entry.portno

/-- **A look-up** finds the entry and throws it out if it has aged. -/
theorem Valid.getPortForAddress (h : Valid s) (now : SimTime) (address : MACAddress) (vid : ℕ) :
    ∃ s', s.getPortForAddress now address vid = .ok (s.portOf now vid address, s') ∧ Valid s' ∧
      Thins now s s' ∧ s'.lastPurge = s.lastPurge := by
  rw [MACAddressTable.getPortForAddress, h.getTableForVid, portOf]
  cases hfind : s.vlanAddressTable.find vid with
  | none =>
    rw [lookup, Valid.view_eq_none hfind]
    exact ⟨s, rfl, h, .refl now s, rfl⟩
  | some p =>
    obtain ⟨table, hderef, hview⟩ := h.deref hfind
    rw [lookup_of_view hview]
    simp only [hderef]
    show ∃ s', Except.ok (s.useEntry now p address table) = _ ∧ _
    rw [useEntry]
    cases hentry : table.find address with
    | none => exact ⟨s, rfl, h, .refl now s, rfl⟩
    | some entry =>
      simp only
      split_ifs with haged
      · obtain ⟨hvalid, hview'⟩ := h.assign hfind (table.erase address)
        refine ⟨s.assign p (table.erase address), rfl, hvalid, ⟨rfl, fun vid' address' ↦ ?_⟩, rfl⟩
        by_cases hvid : vid' = vid
        · rw [hvid, lookup_of_view ((hview' vid).trans (if_pos rfl)), lookup_of_view hview,
            OrderedMap.find_erase]
          split_ifs with haddress
          · exact .inr ⟨rfl, entry, haddress ▸ hentry, haged⟩
          · exact .inl rfl
        · refine .inl ?_
          rw [lookup, hview', if_neg hvid, lookup]
      · exact ⟨s, rfl, h, .refl now s, rfl⟩

/-- All tables are changed in the same way. -/
theorem Valid.forTables_lookup (h : Valid s) {f : AddressTable → AddressTable}
    {g : Option AddressEntry → Option AddressEntry} (hnone : g none = none)
    (hf : ∀ table address, (f table).find address = g (table.find address)) :
    ∃ heap, s.forTables f = .ok { s with heap := heap } ∧ Valid { s with heap := heap } ∧
      ∀ vid address, lookup { s with heap := heap } vid address = g (s.lookup vid address) := by
  obtain ⟨heap, hok, hvalid, hview⟩ := h.forTables f
  refine ⟨heap, hok, hvalid, fun vid address ↦ ?_⟩
  rw [lookup, hview, lookup]
  cases s.view vid with
  | none => exact hnone.symm
  | some table => exact hf table address

/-- **Aged entries** are removed from all tables. -/
theorem Valid.removeAgedEntriesFromAllVlans (h : Valid s) (now : SimTime) :
    ∃ s', s.removeAgedEntriesFromAllVlans now = .ok s' ∧ Valid s' ∧ Thins now s s' ∧
      s'.vlanAddressTable = s.vlanAddressTable ∧ ∀ vid address entry,
        s'.lookup vid address = some entry → s.isAged now entry = false := by
  obtain ⟨heap, hok, hvalid, hlookup⟩ := h.forTables_lookup
    (f := fun table ↦ table.filterValues fun entry ↦ !s.isAged now entry)
    (g := Option.filter fun entry ↦ !s.isAged now entry) rfl
    fun table address ↦ OrderedMap.find_filterValues table _ address
  refine ⟨{ s with heap := heap }, hok, hvalid, ⟨rfl, fun vid address ↦ ?_⟩, rfl,
    fun vid address entry hentry ↦ ?_⟩
  · rw [hlookup]
    cases hentry : s.lookup vid address with
    | none => exact .inl rfl
    | some entry =>
      cases haged : s.isAged now entry with
      | false => exact .inl (by simp [haged])
      | true => exact .inr ⟨by simp [haged], entry, rfl, haged⟩
  · have hfiltered := hlookup vid address
    rw [hentry] at hfiltered
    simpa using (Option.filter_eq_some_iff.1 hfiltered.symm).2

/-- What there is after a rate-limited removal of aged entries. -/
structure Limited (now : SimTime) (s s' : MACAddressTable) : Prop where
  valid : Valid s'
  thins : Thins now s s'
  vlanAddressTable : s'.vlanAddressTable = s.vlanAddressTable
  lastPurge : s'.lastPurge = now
  fresh : s.lastPurge + SimTime.ms 1000 ≤ now → ∀ vid address entry,
    s'.lookup vid address = some entry → s.isAged now entry = false

theorem Valid.removeAgedEntriesIfNeeded (h : Valid s) (now : SimTime) :
    ∃ s', s.removeAgedEntriesIfNeeded now = .ok s' ∧ Limited now s s' := by
  rw [MACAddressTable.removeAgedEntriesIfNeeded]
  split_ifs with hdue
  · obtain ⟨s₁, hok, hvalid, hthins, hvlan, hfresh⟩ := h.removeAgedEntriesFromAllVlans now
    rw [hok]
    exact ⟨{ s₁ with lastPurge := now }, rfl, ⟨hvalid.cached, hvalid.allocated, hvalid.inj⟩,
      ⟨hthins.agingTime, hthins.entry⟩, hvlan, rfl, fun _ ↦ hfresh⟩
  · exact ⟨{ s with lastPurge := now }, rfl, ⟨h.cached, h.allocated, h.inj⟩,
      .of_lookup rfl fun _ _ ↦ rfl, rfl, rfl, fun hdue' ↦ absurd hdue' hdue⟩

/-- An address has been seen at a port: its entry is the new one, and the others are the old ones.
-/
structure Seen (now : SimTime) (portno : ℤ) (address : MACAddress) (vid : ℕ)
    (s s' : MACAddressTable) : Prop where
  valid : Valid s'
  agingTime : s'.agingTime = s.agingTime
  entry : ∃ entry, s'.lookup vid address = some entry ∧ entry.portno = portno ∧
    entry.insertionTime = now
  other : ∀ vid' address', (vid', address') ≠ (vid, address) →
    s'.lookup vid' address' = s.lookup vid' address' ∨ s'.lookup vid' address' = none ∧
      ∃ entry, s.lookup vid' address' = some entry ∧ s.isAged now entry = true

/-- What a new entry does besides. -/
structure Inserted (now : SimTime) (address : MACAddress) (vid : ℕ) (s s' : MACAddressTable) :
    Prop where
  lastPurge : s'.lastPurge = now
  fresh : s.lastPurge + SimTime.ms 1000 ≤ now → ∀ vid' address' entry,
    (vid', address') ≠ (vid, address) → s'.lookup vid' address' = some entry →
      s.isAged now entry = false

/-- One entry is written. -/
theorem Valid.lookup_assign (h : Valid s) (hfind : s.vlanAddressTable.find vid = some p)
    (hview : s.view vid = some table) (address : MACAddress) (entry : AddressEntry) (vid' : ℕ)
    (address' : MACAddress) : (s.assign p (table.insert address entry)).lookup vid' address' =
      if (vid', address') = (vid, address) then some entry else s.lookup vid' address' := by
  have hview' := (h.assign hfind (table.insert address entry)).2
  by_cases hvid : vid' = vid
  · rw [hvid, lookup_of_view ((hview' vid).trans (if_pos rfl)), lookup_of_view hview,
      OrderedMap.find_insert]
    simp only [Prod.mk.injEq, true_and]
  · rw [lookup, hview', if_neg hvid, if_neg fun heq ↦ hvid (Prod.ext_iff.1 heq).1, lookup]

theorem Valid.lookup_newTable (h : Valid s) (hfind : s.vlanAddressTable.find vid = none) (vid' : ℕ)
    (address : MACAddress) : (s.newTable vid).lookup vid' address = s.lookup vid' address := by
  rw [lookup, (h.newTable vid).2.2, lookup]
  split_ifs with hvid
  · rw [hvid, Valid.view_eq_none hfind]
    rfl
  · rfl

theorem Valid.addEntry (h : Valid s) (now : SimTime) (portno : ℤ) (address : MACAddress)
    (hfind : s.vlanAddressTable.find vid = some p) :
    ∃ s', s.addEntry now p portno address vid = .ok (false, s') ∧
      Seen now portno address vid s s' ∧ Inserted now address vid s s' := by
  obtain ⟨s₁, hok, h₁⟩ := h.removeAgedEntriesIfNeeded now
  have hfind₁ : s₁.vlanAddressTable.find vid = some p := by
    rw [h₁.vlanAddressTable]
    exact hfind
  obtain ⟨table, hderef, hview⟩ := h₁.valid.deref hfind₁
  have hlookup := h₁.valid.lookup_assign hfind₁ hview address ⟨vid, portno, now⟩
  refine ⟨s₁.assign p (table.insert address ⟨vid, portno, now⟩), ?_,
    ⟨(h₁.valid.assign hfind₁ _).1, h₁.thins.agingTime, ⟨⟨vid, portno, now⟩, ?_, rfl, rfl⟩,
      fun vid' address' hne ↦ ?_⟩,
    h₁.lastPurge, fun hdue vid' address' entry hne hentry ↦ ?_⟩
  · rw [MACAddressTable.addEntry, hok]
    show (s₁.deref p >>= fun table ↦ _) = _
    rw [hderef]
    rfl
  · rw [hlookup, if_pos rfl]
  · rw [hlookup, if_neg hne]
    exact h₁.thins.entry vid' address'
  · rw [hlookup, if_neg hne] at hentry
    exact h₁.fresh hdue vid' address' entry hentry

/-- **An address that has been seen.** The answer tells whether there was an entry for it. -/
theorem Valid.updateTableWithAddress (h : Valid s) (now : SimTime) (portno : ℤ) (vid : ℕ)
    (haddress : address ≠ .BROADCAST_ADDRESS) :
    ∃ s', s.updateTableWithAddress now portno address vid =
        .ok ((s.lookup vid address).isSome, s') ∧ Seen now portno address vid s s' ∧
      (s.lookup vid address = none → Inserted now address vid s s') ∧
      (s.lookup vid address ≠ none → s'.lastPurge = s.lastPurge) := by
  rw [MACAddressTable.updateTableWithAddress, if_neg haddress, h.getTableForVid]
  cases hfind : s.vlanAddressTable.find vid with
  | none =>
    have hnone : s.lookup vid address = none := by
      rw [lookup, Valid.view_eq_none hfind]
      rfl
    obtain ⟨hvalid, hfind', -⟩ := h.newTable vid
    have hlookup := h.lookup_newTable hfind
    obtain ⟨s', hok, hseen, hinserted⟩ := hvalid.addEntry now portno address hfind'
    refine ⟨s', by rw [hnone]; exact hok, ⟨hseen.valid, hseen.agingTime, hseen.entry,
      fun vid' address' hne ↦ ?_⟩, fun _ ↦ ⟨hinserted.lastPurge, hinserted.fresh⟩,
      fun hsome ↦ absurd hnone hsome⟩
    rw [← hlookup]
    exact hseen.other vid' address' hne
  | some p =>
    obtain ⟨table, hderef, hview⟩ := h.deref hfind
    simp only [hderef]
    show ∃ s', s.updateEntry now p portno address vid table = _ ∧ _
    rw [lookup_of_view hview, updateEntry]
    cases hentry : table.find address with
    | none =>
      obtain ⟨s', hok, hseen, hinserted⟩ := h.addEntry now portno address hfind
      exact ⟨s', hok, hseen, fun _ ↦ hinserted, fun hsome ↦ absurd rfl hsome⟩
    | some entry =>
      have hlookup := h.lookup_assign hfind hview address
        { entry with insertionTime := now, portno := portno }
      refine ⟨_, rfl, ⟨(h.assign hfind _).1, rfl,
        ⟨{ entry with insertionTime := now, portno := portno }, ?_, rfl, rfl⟩,
        fun vid' address' hne ↦ .inl ?_⟩, fun hnone ↦ (by cases hnone), fun _ ↦ rfl⟩
      · rw [hlookup, if_pos rfl]
      · rw [hlookup, if_neg hne]

/-- Broadcast addresses are not learned. -/
theorem updateTableWithAddress_broadcast (s : MACAddressTable) (now : SimTime) (portno : ℤ)
    (vid : ℕ) :
    s.updateTableWithAddress now portno .BROADCAST_ADDRESS vid = .ok (false, s) :=
  if_pos rfl

theorem Valid.flush (h : Valid s) (portno : ℤ) : ∃ heap,
    s.flush portno = .ok { s with heap := heap } ∧ Valid { s with heap := heap } ∧
      ∀ vid address, lookup { s with heap := heap } vid address =
        (s.lookup vid address).filter fun entry ↦ entry.portno ≠ portno :=
  h.forTables_lookup (g := Option.filter fun entry ↦ entry.portno ≠ portno) rfl
    fun table address ↦ OrderedMap.find_filterValues table _ address

theorem Valid.copyTable (h : Valid s) (portA portB : ℤ) : ∃ heap,
    s.copyTable portA portB = .ok { s with heap := heap } ∧ Valid { s with heap := heap } ∧
      ∀ vid address, lookup { s with heap := heap } vid address =
        (s.lookup vid address).map fun entry ↦
          if entry.portno = portA then { entry with portno := portB } else entry :=
  h.forTables_lookup (g := Option.map _) rfl
    fun table address ↦ OrderedMap.find_mapValues table _ address

/-- **All tables are dropped**, and the pointer with them. -/
theorem valid_clearTable (s : MACAddressTable) : Valid s.clearTable ∧
    ∀ vid address, s.clearTable.lookup vid address = none :=
  ⟨⟨rfl, fun _ _ h ↦ (by cases h), fun _ _ _ h ↦ by cases h⟩, fun _ _ ↦ rfl⟩

theorem valid_constructed (agingTime : SimTime) : Valid (constructed agingTime) ∧
    ∀ vid address, (constructed agingTime).lookup vid address = none := by
  have hfind (vid : ℕ) : (constructed agingTime).vlanAddressTable.find vid =
      if vid = 0 then some 0 else none := OrderedMap.find_insert _ _ _ _
  refine ⟨⟨?_, fun vid p h ↦ ?_, fun vid vid' p h h' ↦ ?_⟩, fun vid address ↦ ?_⟩
  · rw [hfind, if_pos rfl]
    rfl
  · rw [hfind] at h
    split_ifs at h
    obtain rfl := Option.some.inj h
    refine ⟨Nat.one_pos, ∅, ?_⟩
    show Function.update (fun _ ↦ none) 0 (some (∅ : AddressTable)) 0 = _
    exact Function.update_self _ _ _
  · rw [hfind] at h h'
    split_ifs at h h' with hvid hvid'
    rw [hvid, hvid']
  · rw [lookup, view, hfind]
    split_ifs
    · show (Function.update (fun _ ↦ none) 0 (some (∅ : AddressTable)) 0).bind _ = none
      rw [Function.update_self]
      rfl
    · rfl

theorem Valid.writeEntry (h : Valid s) (hfind : s.vlanAddressTable.find vid = some p)
    (address : MACAddress) (entry : AddressEntry) :
    ∃ s', s.writeEntry p address entry = .ok s' ∧ Valid s' ∧ s'.agingTime = s.agingTime ∧
      s'.lastPurge = s.lastPurge ∧ s'.addressTable = s.addressTable ∧
      ∀ vid' address', s'.lookup vid' address' =
        if (vid', address') = (vid, address) then some entry else s.lookup vid' address' := by
  obtain ⟨table, hderef, hview⟩ := h.deref hfind
  refine ⟨s.assign p (table.insert address entry), ?_, (h.assign hfind _).1, rfl, rfl, rfl,
    h.lookup_assign hfind hview address entry⟩
  rw [MACAddressTable.writeEntry, hderef]
  rfl

/-- **A line of the file** is an address that has been seen at time zero. -/
theorem Valid.readEntry (h : Valid s) (h0 : s.addressTable ≠ none) (line : ℕ × MACAddress × ℤ) :
    ∃ s', s.readEntry line = .ok s' ∧ Valid s' ∧ s'.agingTime = s.agingTime ∧
      s'.lastPurge = s.lastPurge ∧ s'.addressTable ≠ none ∧ ∀ vid address, s'.lookup vid address =
        if (vid, address) = (line.1, line.2.1) then some ⟨line.1, line.2.2, 0⟩
        else s.lookup vid address := by
  rw [MACAddressTable.readEntry, h.getTableForVid]
  cases hfind : s.vlanAddressTable.find line.1 with
  | some p =>
    obtain ⟨s', hok, hvalid, haging, hpurge, haddress, hlookup⟩ := h.writeEntry hfind line.2.1
      ⟨line.1, line.2.2, 0⟩
    exact ⟨s', hok, hvalid, haging, hpurge, haddress ▸ h0, hlookup⟩
  | none =>
    have hvid : line.1 ≠ 0 := fun hvid ↦ h0 (by rw [h.cached, ← hvid, hfind])
    have hnew : s.newTable line.1 = s.allocate line.1 := by
      rw [MACAddressTable.newTable, if_neg hvid]
      rfl
    obtain ⟨hvalid, hfind', -⟩ := h.newTable line.1
    have hlookup := h.lookup_newTable hfind
    rw [hnew] at hvalid hfind' hlookup
    obtain ⟨s', hok, hvalid', haging, hpurge, haddress, hlookup'⟩ :=
      hvalid.writeEntry hfind' line.2.1 ⟨line.1, line.2.2, 0⟩
    refine ⟨s', hok, hvalid', haging, hpurge, haddress ▸ h0,
      fun vid address ↦ ?_⟩
    rw [hlookup', hlookup]

/-- The last line of the file for an address of a VLAN. -/
def fileEntry (addressTableFile : List (ℕ × MACAddress × ℤ)) (vid : ℕ) (address : MACAddress) :
    Option AddressEntry :=
  (addressTableFile.reverse.find? fun line ↦ line.1 = vid ∧ line.2.1 = address).map
    fun line ↦ ⟨line.1, line.2.2, 0⟩

theorem fileEntry_append (addressTableFile : List (ℕ × MACAddress × ℤ))
    (line : ℕ × MACAddress × ℤ) (vid : ℕ) (address : MACAddress) :
    fileEntry (addressTableFile ++ [line]) vid address =
      if (vid, address) = (line.1, line.2.1) then some ⟨line.1, line.2.2, 0⟩
      else fileEntry addressTableFile vid address := by
  rw [fileEntry, List.reverse_append, List.reverse_singleton, List.singleton_append,
    List.find?_cons, fileEntry]
  by_cases h : line.1 = vid ∧ line.2.1 = address
  · rw [decide_eq_true h, if_pos (by rw [h.1, h.2])]
    rfl
  · rw [decide_eq_false h, if_neg fun heq ↦ h (Prod.ext_iff.1 heq.symm)]

/-- **The table at the start** holds what the file says. -/
theorem initialized_ok (agingTime : SimTime) (addressTableFile : List (ℕ × MACAddress × ℤ)) :
    ∃ s, initialized agingTime addressTableFile = .ok s ∧ Valid s ∧ s.agingTime = agingTime ∧
      s.lastPurge = 0 ∧ s.addressTable ≠ none ∧
      ∀ vid address, s.lookup vid address = fileEntry addressTableFile vid address := by
  rw [initialized]
  induction addressTableFile using List.reverseRecOn with
  | nil =>
    obtain ⟨hvalid, hlookup⟩ := valid_constructed agingTime
    exact ⟨_, rfl, hvalid, rfl, rfl, Option.some_ne_none 0, hlookup⟩
  | append_singleton l line ih =>
    obtain ⟨s, hok, hvalid, haging, hpurge, h0, hlookup⟩ := ih
    obtain ⟨s', hok', hvalid', haging', hpurge', h0', hlookup'⟩ := hvalid.readEntry h0 line
    refine ⟨s', ?_, hvalid', haging'.trans haging, hpurge'.trans hpurge, h0', fun vid address ↦ ?_⟩
    · rw [List.foldlM_append, hok]
      show (s.readEntry line >>= fun s ↦ pure s) = _
      rw [hok']
      rfl
    · rw [hlookup', hlookup, fileEntry_append]

end MACAddressTable

end Inet
