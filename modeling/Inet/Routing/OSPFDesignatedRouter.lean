import Mathlib.Data.List.MinMax
import Mathlib.Data.Prod.Lex
import Inet.Routing.OSPFFlooding

/-!
# The designated router of an OSPF network

On a network with many routers one is the Designated Router and one its backup. Every router works
out for itself which they are, from the priorities and the router ids of its neighbours and from
what they declare themselves to be (`rfcElection`, section 9.4 of RFC 2328). A router that finds a
role of its own changed works it out once more, with its new role.

`calculateDesignatedRouter` does so with running maxima over the neighbours. The routers that are
considered as backup when none declares itself so are left out when this router cannot be elected,
and when it declares itself Designated Router; what that costs is `elects_iff`.
-/

namespace Inet.OSPF

/-- `NULL_ROUTERID`. -/
def NULL_ROUTERID : IPv4Address := 0

/-- `Neighbor`, as far as the election reads it. -/
structure ElectionNeighbor where
  neighborID : IPv4Address
  neighborPriority : UInt8
  neighborIPAddress : IPv4Address
  state : NeighborState
  neighborsDesignatedRouter : DesignatedRouterID := NULL_DESIGNATEDROUTERID
  neighborsBackupDesignatedRouter : DesignatedRouterID := NULL_DESIGNATEDROUTERID
  deriving DecidableEq

/-- `Interface`, as far as the election reads it, with the id of its router. -/
structure ElectionInterface where
  routerID : IPv4Address
  routerPriority : UInt8
  address : IPv4Address
  designatedRouter : DesignatedRouterID := NULL_DESIGNATEDROUTERID
  backupDesignatedRouter : DesignatedRouterID := NULL_DESIGNATEDROUTERID
  neighboringRouters : List ElectionNeighbor := []
  deriving DecidableEq

/-- Routers are compared by their priorities, and then by their ids. -/
abbrev Rank :=
  ℕ ×ₗ IPv4Address

/-- A router, as it takes part in the comparison. -/
structure Leader where
  router : DesignatedRouterID := NULL_DESIGNATEDROUTERID
  priority : UInt8 := 0
  id : IPv4Address := NULL_ROUTERID
  deriving DecidableEq

namespace Leader

/-- Another router is higher than this one. -/
def IsBelow (l other : Leader) : Prop :=
  l.priority < other.priority ∨ other.priority = l.priority ∧ l.id < other.id

instance (l other : Leader) : Decidable (l.IsBelow other) :=
  inferInstanceAs (Decidable (_ ∨ _))

/-- The rank of a router. -/
def rank (l : Leader) : Rank :=
  toLex (l.priority.toNat, l.id)

end Leader

/-- The election of the backup on its way: the highest that declares itself backup, and the highest
at all as long as none does. -/
structure BackupElection where
  declaredBackup : Leader := {}
  backupDeclared : Bool := false
  highestRouter : Leader := {}

namespace BackupElection

/-- A router declares itself backup. -/
def declare (b : BackupElection) (l : Leader) : BackupElection :=
  if b.declaredBackup.IsBelow l then { b with declaredBackup := l, backupDeclared := true } else b

/-- A router is there, whatever it declares itself. -/
def note (b : BackupElection) (l : Leader) : BackupElection :=
  if b.backupDeclared = false ∧ b.highestRouter.IsBelow l then { b with highestRouter := l } else b

end BackupElection

/-- The election of the Designated Router on its way. -/
structure DesignatedElection where
  declaredDesignatedRouter : Leader := {}
  designatedRouterDeclared : Bool := false

/-- A router declares itself Designated Router. -/
def DesignatedElection.declare (d : DesignatedElection) (l : Leader) : DesignatedElection :=
  if d.declaredDesignatedRouter.IsBelow l then ⟨l, true⟩ else d

namespace ElectionInterface

variable (intf : ElectionInterface)

/-! ### The code -/

/-- A neighbour in the election of the backup. -/
def considerBackup (b : BackupElection) (neighbor : ElectionNeighbor) : BackupElection :=
  if neighbor.state.code < NeighborState.twoWay.code then b
  else if neighbor.neighborPriority = 0 then b
  else if neighbor.neighborsDesignatedRouter.routerID ≠ neighbor.neighborID then
    (if neighbor.neighborsBackupDesignatedRouter.routerID = neighbor.neighborID then
      b.declare ⟨neighbor.neighborsBackupDesignatedRouter, neighbor.neighborPriority,
        neighbor.neighborID⟩
    else b).note ⟨⟨neighbor.neighborID, neighbor.neighborIPAddress⟩, neighbor.neighborPriority,
      neighbor.neighborID⟩
  else b

/-- The router itself, as it takes part. -/
def self : Leader :=
  ⟨⟨intf.routerID, intf.address⟩, intf.routerPriority, intf.routerID⟩

/-- The router itself in the election of the backup. -/
def considerSelfBackup (currentDesignatedRouter currentBackupRouter : DesignatedRouterID)
    (b : BackupElection) : Leader :=
  if 0 < intf.routerPriority ∧ currentDesignatedRouter.routerID ≠ intf.routerID then
    let b := if currentBackupRouter.routerID = intf.routerID then b.declare intf.self else b
    if b.backupDeclared = false then
      if b.highestRouter.IsBelow intf.self then intf.self else b.highestRouter
    else b.declaredBackup
  else b.declaredBackup

/-- A neighbour in the election of the Designated Router. -/
def considerDesignated (d : DesignatedElection) (neighbor : ElectionNeighbor) :
    DesignatedElection :=
  if neighbor.state.code < NeighborState.twoWay.code then d
  else if neighbor.neighborPriority = 0 then d
  else if neighbor.neighborsDesignatedRouter.routerID = neighbor.neighborID then
    d.declare ⟨neighbor.neighborsDesignatedRouter, neighbor.neighborPriority, neighbor.neighborID⟩
  else d

/-- The router itself in the election of the Designated Router. -/
def considerSelfDesignated (currentDesignatedRouter : DesignatedRouterID) (d : DesignatedElection) :
    DesignatedElection :=
  if 0 < intf.routerPriority ∧ currentDesignatedRouter.routerID = intf.routerID then
    d.declare intf.self
  else d

/-- One turn of the loop: the Designated Router and its backup. -/
def electionTurn (currentDesignatedRouter currentBackupRouter : DesignatedRouterID) :
    DesignatedRouterID × DesignatedRouterID :=
  let declaredBackup := intf.considerSelfBackup currentDesignatedRouter currentBackupRouter
    (intf.neighboringRouters.foldl considerBackup {})
  let d := intf.considerSelfDesignated currentDesignatedRouter
    (intf.neighboringRouters.foldl considerDesignated {})
  (if d.designatedRouterDeclared then d.declaredDesignatedRouter.router else declaredBackup.router,
    declaredBackup.router)

/-- A role of the router itself has changed. -/
def OwnRoleChanges (current declared : DesignatedRouterID) : Prop :=
  declared.routerID ≠ NULL_ROUTERID ∧
    (current.routerID = intf.routerID ∧ declared.routerID ≠ intf.routerID ∨
      current.routerID ≠ intf.routerID ∧ declared.routerID = intf.routerID)

instance (current declared : DesignatedRouterID) :
    Decidable (intf.OwnRoleChanges current declared) :=
  inferInstanceAs (Decidable (_ ∧ _))

/-- `InterfaceState::calculateDesignatedRouter`, up to the new state of the interface. The second
turn is the last one. -/
def calculateDesignatedRouter : ElectionInterface :=
  let declared := intf.electionTurn intf.designatedRouter intf.backupDesignatedRouter
  let declared :=
    if intf.OwnRoleChanges intf.designatedRouter declared.1 ∨
        intf.OwnRoleChanges intf.backupDesignatedRouter declared.2 then
      intf.electionTurn declared.1 declared.2
    else declared
  { intf with designatedRouter := declared.1, backupDesignatedRouter := declared.2 }

end ElectionInterface

/-! ### The election of RFC 2328 -/

/-- A router that can be elected, and what it declares itself to be. -/
structure Candidate where
  rank : Rank
  isDesignated : Bool
  isBackup : Bool

/-- The highest candidate, if there is one. -/
def highest (l : List Candidate) : WithBot Rank :=
  (l.map Candidate.rank).maximum

/-- The backup: the highest of those that declare themselves backup, or the highest of all, but not
of those that declare themselves Designated Router. -/
def rfcBackup (l : List Candidate) : WithBot Rank :=
  let others := l.filter fun c ↦ !c.isDesignated
  if others.any Candidate.isBackup then highest (others.filter Candidate.isBackup)
  else highest others

/-- The Designated Router: the highest of those that declare themselves so, or else the backup. -/
def rfcDesignated (l : List Candidate) : WithBot Rank :=
  if l.any Candidate.isDesignated then highest (l.filter Candidate.isDesignated) else rfcBackup l

/-- The id of an elected router. -/
def electedID : WithBot Rank → IPv4Address
  | ⊥ => NULL_ROUTERID
  | (r : Rank) => (ofLex r).2

/-- A neighbour can be elected: the communication is bidirectional, and it has a priority. -/
def ElectionNeighbor.IsEligible (neighbor : ElectionNeighbor) : Prop :=
  NeighborState.twoWay.code ≤ neighbor.state.code ∧ neighbor.neighborPriority ≠ 0

instance (neighbor : ElectionNeighbor) : Decidable neighbor.IsEligible :=
  inferInstanceAs (Decidable (_ ∧ _))

/-- A neighbour, as a candidate. -/
def ElectionNeighbor.candidate (neighbor : ElectionNeighbor) : Candidate where
  rank := toLex (neighbor.neighborPriority.toNat, neighbor.neighborID)
  isDesignated := neighbor.neighborsDesignatedRouter.routerID = neighbor.neighborID
  isBackup := neighbor.neighborsBackupDesignatedRouter.routerID = neighbor.neighborID

namespace ElectionInterface

variable (intf : ElectionInterface)

/-- The neighbours that can be elected. -/
def neighborCandidates : List Candidate :=
  (intf.neighboringRouters.filter fun neighbor ↦ neighbor.IsEligible).map ElectionNeighbor.candidate

/-- The routers that can be elected, when this one has the given roles. -/
def candidates (isDesignated isBackup : Bool) : List Candidate :=
  if 0 < intf.routerPriority then
    ⟨intf.self.rank, isDesignated, isBackup⟩ :: intf.neighborCandidates
  else intf.neighborCandidates

/-- One election, by the ids of the elected routers. -/
def rfcTurn (isDesignated isBackup : Bool) : IPv4Address × IPv4Address :=
  (electedID (rfcDesignated (intf.candidates isDesignated isBackup)),
    electedID (rfcBackup (intf.candidates isDesignated isBackup)))

/-- The election, which is repeated if a role of this router has changed. -/
def rfcElection : IPv4Address × IPv4Address :=
  let wasDesignated : Bool := intf.designatedRouter.routerID = intf.routerID
  let wasBackup : Bool := intf.backupDesignatedRouter.routerID = intf.routerID
  let elected := intf.rfcTurn wasDesignated wasBackup
  let isDesignated : Bool := elected.1 = intf.routerID
  let isBackup : Bool := elected.2 = intf.routerID
  if isDesignated ≠ wasDesignated ∨ isBackup ≠ wasBackup then intf.rfcTurn isDesignated isBackup
  else elected

/-- `calculateDesignatedRouter` ends with the routers that RFC 2328 elects. -/
def Elects : Prop :=
  intf.calculateDesignatedRouter.designatedRouter.routerID = intf.rfcElection.1 ∧
    intf.calculateDesignatedRouter.backupDesignatedRouter.routerID = intf.rfcElection.2

end ElectionInterface

/-! ### Leaders -/

/-- A leader is the highest of some routers, or there are none. -/
structure Leads (l : Leader) (m : WithBot Rank) : Prop where
  router : l.router.routerID = l.id
  rank : m = ⊥ ∧ l = {} ∨ m = l.rank

variable {l l' : Leader} {m m' : WithBot Rank}

theorem leads_empty : Leads {} ⊥ :=
  ⟨rfl, .inl ⟨rfl, rfl⟩⟩

theorem Leads.routerID_eq (h : Leads l m) : l.router.routerID = electedID m := by
  rcases h.rank with ⟨rfl, rfl⟩ | rfl
  · rfl
  · exact h.router

theorem Leads.isBelow_iff (h : Leads l m) (hpriority : l'.priority ≠ 0) :
    l.IsBelow l' ↔ m < l'.rank := by
  rcases h.rank with ⟨rfl, rfl⟩ | rfl
  · exact iff_of_true (.inl (UInt8.pos_iff_ne_zero.2 hpriority)) (WithBot.bot_lt_coe _)
  · rw [WithBot.coe_lt_coe, Leader.rank, Leader.rank, Prod.Lex.toLex_lt_toLex, Leader.IsBelow,
      UInt8.lt_iff_toNat_lt, ← UInt8.toNat_inj, eq_comm (a := l'.priority.toNat)]

/-- A router that is higher takes the lead. -/
theorem Leads.update (h : Leads l m) (hpriority : l'.priority ≠ 0)
    (hrouter : l'.router.routerID = l'.id) :
    Leads (if l.IsBelow l' then l' else l) (max m l'.rank) := by
  split_ifs with hbelow
  · rw [max_eq_right ((h.isBelow_iff hpriority).1 hbelow).le]
    exact ⟨hrouter, .inr rfl⟩
  · rw [max_eq_left (not_lt.1 fun hlt ↦ hbelow ((h.isBelow_iff hpriority).2 hlt))]
    exact h

theorem max_coe_ne_bot (m : WithBot Rank) (r : Rank) : max m r ≠ ⊥ :=
  fun h ↦ WithBot.coe_ne_bot (max_eq_bot.1 h).2

/-- The election of the backup has seen some routers: the highest that declares itself backup, and
the highest of all. -/
structure BackupElection.Tallies (b : BackupElection) (m m' : WithBot Rank) : Prop where
  declaredBackup : Leads b.declaredBackup m
  backupDeclared : b.backupDeclared = true ↔ m ≠ ⊥
  highestRouter : b.backupDeclared = false → Leads b.highestRouter m'

namespace BackupElection.Tallies

variable {b : BackupElection}

theorem empty : ({} : BackupElection).Tallies ⊥ ⊥ :=
  ⟨leads_empty, by simp, fun _ ↦ leads_empty⟩

theorem declare (h : b.Tallies m m') (hpriority : l.priority ≠ 0)
    (hrouter : l.router.routerID = l.id) : (b.declare l).Tallies (max m l.rank) m' := by
  have hupdate := h.declaredBackup.update hpriority hrouter
  rw [BackupElection.declare]
  split_ifs at hupdate ⊢ with hbelow
  · exact ⟨hupdate, iff_of_true rfl (max_coe_ne_bot _ _), fun hfalse ↦ by cases hfalse⟩
  · have hle : (l.rank : WithBot Rank) ≤ m :=
      not_lt.1 fun hlt ↦ hbelow ((h.declaredBackup.isBelow_iff hpriority).2 hlt)
    rw [max_eq_left hle]
    exact h

theorem note (h : b.Tallies m m') (hpriority : l.priority ≠ 0)
    (hrouter : l.router.routerID = l.id) : (b.note l).Tallies m (max m' l.rank) := by
  rw [BackupElection.note]
  rcases hdeclared : b.backupDeclared with - | -
  · have hupdate := (h.highestRouter hdeclared).update hpriority hrouter
    simp only [true_and]
    split_ifs at hupdate ⊢ with hbelow
    · exact ⟨h.declaredBackup, hdeclared ▸ h.backupDeclared, fun _ ↦ hupdate⟩
    · exact ⟨h.declaredBackup, h.backupDeclared, fun _ ↦ hupdate⟩
  · simp only [Bool.true_eq_false, false_and, if_false]
    refine ⟨h.declaredBackup, h.backupDeclared, fun hfalse ↦ ?_⟩
    rw [hdeclared] at hfalse
    cases hfalse

end BackupElection.Tallies

/-- The election of the Designated Router has seen some routers. -/
structure DesignatedElection.Tallies (d : DesignatedElection) (m : WithBot Rank) : Prop where
  declaredDesignatedRouter : Leads d.declaredDesignatedRouter m
  designatedRouterDeclared : d.designatedRouterDeclared = true ↔ m ≠ ⊥

theorem DesignatedElection.Tallies.declare {d : DesignatedElection} (h : d.Tallies m)
    (hpriority : l.priority ≠ 0) (hrouter : l.router.routerID = l.id) :
    (d.declare l).Tallies (max m l.rank) := by
  have hupdate := h.declaredDesignatedRouter.update hpriority hrouter
  rw [DesignatedElection.declare]
  split_ifs at hupdate ⊢ with hbelow
  · exact ⟨hupdate, iff_of_true rfl (max_coe_ne_bot _ _)⟩
  · have hle : (l.rank : WithBot Rank) ≤ m :=
      not_lt.1 fun hlt ↦ hbelow ((h.declaredDesignatedRouter.isBelow_iff hpriority).2 hlt)
    rw [max_eq_left hle]
    exact h

/-! ### Tallies of the neighbours -/

theorem highest_concat (l : List Candidate) (c : Candidate) :
    highest (l ++ [c]) = max (highest l) c.rank := by
  rw [highest, List.map_append, List.map_singleton, List.maximum_concat]
  rfl

theorem highest_cons (l : List Candidate) (c : Candidate) :
    highest (c :: l) = max (c.rank : WithBot Rank) (highest l) :=
  List.maximum_cons _ _

theorem highest_eq_bot {l : List Candidate} : highest l = ⊥ ↔ l = [] := by
  rw [highest, List.maximum_eq_bot, List.map_eq_nil_iff]

theorem any_iff_highest {l : List Candidate} {q : Candidate → Bool} :
    l.any q = true ↔ highest (l.filter q) ≠ ⊥ := by
  rw [Ne, highest_eq_bot, List.filter_eq_nil_iff, List.any_eq_true]
  push Not
  rfl

/-- The neighbours with a property. -/
def neighborsWith (q : Candidate → Bool) (neighbors : List ElectionNeighbor) : List Candidate :=
  ((neighbors.filter fun neighbor ↦ neighbor.IsEligible).map ElectionNeighbor.candidate).filter q

theorem neighborsWith_concat (q : Candidate → Bool) (neighbors : List ElectionNeighbor)
    (neighbor : ElectionNeighbor) :
    neighborsWith q (neighbors ++ [neighbor]) =
      neighborsWith q neighbors ++
        if neighbor.IsEligible ∧ q neighbor.candidate = true then [neighbor.candidate] else [] := by
  rw [neighborsWith, List.filter_append, List.map_append, List.filter_append]
  congr 1
  by_cases helig : neighbor.IsEligible <;> by_cases hq : q neighbor.candidate = true <;>
    simp [helig, hq]

/-- The highest of the neighbours with a property. -/
def highestWith (q : Candidate → Bool) (neighbors : List ElectionNeighbor) : WithBot Rank :=
  highest (neighborsWith q neighbors)

/-- A candidate that does not declare itself Designated Router. -/
def Candidate.isOther (c : Candidate) : Bool :=
  !c.isDesignated

/-- One of these that declares itself backup. -/
def Candidate.isOtherBackup (c : Candidate) : Bool :=
  c.isBackup && !c.isDesignated

variable {q : Candidate → Bool} {neighbors : List ElectionNeighbor} {neighbor : ElectionNeighbor}

theorem highestWith_concat (h : neighbor.IsEligible) (hq : q neighbor.candidate = true) :
    highestWith q (neighbors ++ [neighbor]) =
      max (highestWith q neighbors) neighbor.candidate.rank := by
  rw [highestWith, neighborsWith_concat, if_pos ⟨h, hq⟩, highest_concat]
  rfl

theorem highestWith_concat_of_not (h : ¬ (neighbor.IsEligible ∧ q neighbor.candidate = true)) :
    highestWith q (neighbors ++ [neighbor]) = highestWith q neighbors := by
  rw [highestWith, neighborsWith_concat, if_neg h, List.append_nil]
  rfl

/-- The first of two results, if there is one. -/
def orElse (m m' : WithBot Rank) : WithBot Rank :=
  if m = ⊥ then m' else m

@[simp] theorem orElse_bot (m : WithBot Rank) : orElse ⊥ m = m :=
  if_pos rfl

theorem orElse_of_ne_bot (h : m ≠ ⊥) (m' : WithBot Rank) : orElse m m' = m :=
  if_neg h

theorem orElse_ne_bot (m : WithBot Rank) (h : m' ≠ ⊥) : orElse m m' ≠ ⊥ := by
  rw [orElse]
  split_ifs with hbot
  exacts [h, hbot]

/-- What decides an election: the router itself, if it can be elected, and of its neighbours the
highest that declare themselves Designated Router, backup, and not Designated Router. -/
structure Tally where
  own : WithBot Rank
  designated : WithBot Rank
  backup : WithBot Rank
  others : WithBot Rank

namespace Tally

variable (T : Tally)

/-- The backup of RFC 2328. -/
def rfcBackup (isDesignated isBackup : Bool) : WithBot Rank :=
  if isDesignated then orElse T.backup T.others
  else orElse (if isBackup then max T.own T.backup else T.backup) (max T.own T.others)

/-- The Designated Router, when the backup is known. -/
def designatedRouter (isDesignated : Bool) (backup : WithBot Rank) : WithBot Rank :=
  orElse (if isDesignated then max T.own T.designated else T.designated) backup

/-- The backup of the code: the others are left out when this router does not take part. -/
def codeBackup (isDesignated isBackup : Bool) : WithBot Rank :=
  if T.own = ⊥ ∨ isDesignated = true then T.backup else T.rfcBackup isDesignated isBackup

/-- A turn of RFC 2328, by the ids of the elected routers. -/
def rfcTurn (isDesignated isBackup : Bool) : IPv4Address × IPv4Address :=
  (electedID (T.designatedRouter isDesignated (T.rfcBackup isDesignated isBackup)),
    electedID (T.rfcBackup isDesignated isBackup))

/-- A turn of the code, by the ids of the elected routers. -/
def codeTurn (isDesignated isBackup : Bool) : IPv4Address × IPv4Address :=
  (electedID (T.designatedRouter isDesignated (T.codeBackup isDesignated isBackup)),
    electedID (T.codeBackup isDesignated isBackup))

end Tally

namespace ElectionInterface

variable {intf : ElectionInterface} {b : BackupElection} {d : DesignatedElection}

/-- **A neighbour** is considered as backup. -/
theorem tallies_considerBackup
    (h : b.Tallies (highestWith Candidate.isOtherBackup neighbors)
      (highestWith Candidate.isOther neighbors)) (neighbor : ElectionNeighbor) :
    (considerBackup b neighbor).Tallies
      (highestWith Candidate.isOtherBackup (neighbors ++ [neighbor]))
      (highestWith Candidate.isOther (neighbors ++ [neighbor])) := by
  have hleft (hnot : ¬ (neighbor.IsEligible ∧ neighbor.candidate.isOther = true)) :
      b.Tallies (highestWith Candidate.isOtherBackup (neighbors ++ [neighbor]))
        (highestWith Candidate.isOther (neighbors ++ [neighbor])) := by
    rw [highestWith_concat_of_not hnot, highestWith_concat_of_not]
    · exact h
    · rintro ⟨helig, hboth⟩
      exact hnot ⟨helig, (Bool.and_eq_true_iff.1 hboth).2⟩
  rw [considerBackup]
  split_ifs with hstate hpriority hother hbackup
  · exact hleft fun hnot ↦ not_lt.2 hnot.1.1 hstate
  · exact hleft fun hnot ↦ hnot.1.2 hpriority
  · have hisOther : neighbor.candidate.isOther = true := by
      simpa [Candidate.isOther, ElectionNeighbor.candidate] using hother
    have hboth : neighbor.candidate.isOtherBackup = true :=
      Bool.and_eq_true_iff.2 ⟨decide_eq_true hbackup, hisOther⟩
    rw [highestWith_concat ⟨not_lt.1 hstate, hpriority⟩ hisOther,
      highestWith_concat ⟨not_lt.1 hstate, hpriority⟩ hboth]
    exact (h.declare hpriority hbackup).note hpriority rfl
  · have hisOther : neighbor.candidate.isOther = true := by
      simpa [Candidate.isOther, ElectionNeighbor.candidate] using hother
    rw [highestWith_concat ⟨not_lt.1 hstate, hpriority⟩ hisOther, highestWith_concat_of_not]
    · exact h.note hpriority rfl
    · rintro ⟨-, hboth⟩
      exact hbackup (of_decide_eq_true (Bool.and_eq_true_iff.1 hboth).1)
  · refine hleft fun hnot ↦ hother ?_
    simpa [Candidate.isOther, ElectionNeighbor.candidate] using hnot.2

/-- **A neighbour** is considered as Designated Router. -/
theorem tallies_considerDesignated (h : d.Tallies (highestWith Candidate.isDesignated neighbors))
    (neighbor : ElectionNeighbor) :
    (considerDesignated d neighbor).Tallies
      (highestWith Candidate.isDesignated (neighbors ++ [neighbor])) := by
  rw [considerDesignated]
  split_ifs with hstate hpriority hdesignated
  · rw [highestWith_concat_of_not fun hnot ↦ not_lt.2 hnot.1.1 hstate]
    exact h
  · rw [highestWith_concat_of_not fun hnot ↦ hnot.1.2 hpriority]
    exact h
  · rw [highestWith_concat ⟨not_lt.1 hstate, hpriority⟩ (decide_eq_true hdesignated)]
    exact h.declare hpriority hdesignated
  · rw [highestWith_concat_of_not fun hnot ↦ hdesignated (of_decide_eq_true hnot.2)]
    exact h

theorem tallies_neighbors (neighbors : List ElectionNeighbor) :
    (neighbors.foldl considerBackup {}).Tallies (highestWith Candidate.isOtherBackup neighbors)
        (highestWith Candidate.isOther neighbors) ∧
      (neighbors.foldl considerDesignated {}).Tallies
        (highestWith Candidate.isDesignated neighbors) := by
  induction neighbors using List.reverseRecOn with
  | nil => exact ⟨.empty, leads_empty, by simp [highestWith, neighborsWith, highest]⟩
  | append_singleton neighbors neighbor ih =>
    rw [List.foldl_concat, List.foldl_concat]
    exact ⟨tallies_considerBackup ih.1 neighbor, tallies_considerDesignated ih.2 neighbor⟩

variable (intf) in
/-- What decides the elections of an interface. -/
def tally : Tally where
  own := if 0 < intf.routerPriority then (intf.self.rank : WithBot Rank) else ⊥
  designated := highestWith Candidate.isDesignated intf.neighboringRouters
  backup := highestWith Candidate.isOtherBackup intf.neighboringRouters
  others := highestWith Candidate.isOther intf.neighboringRouters

theorem own_eq (h : 0 < intf.routerPriority) : intf.tally.own = intf.self.rank :=
  if_pos h

theorem own_eq_bot (h : ¬ 0 < intf.routerPriority) : intf.tally.own = ⊥ :=
  if_neg h

theorem own_eq_bot_iff : intf.tally.own = ⊥ ↔ ¬ 0 < intf.routerPriority := by
  by_cases h : 0 < intf.routerPriority
  · rw [own_eq h]
    exact iff_of_false WithBot.coe_ne_bot (not_not.2 h)
  · exact iff_of_true (own_eq_bot h) h

theorem self_priority_ne_zero (h : 0 < intf.routerPriority) : intf.self.priority ≠ 0 :=
  UInt8.pos_iff_ne_zero.1 h

/-- **The router itself** is considered as backup. -/
theorem leads_considerSelfBackup (current backup : DesignatedRouterID)
    (h : b.Tallies intf.tally.backup intf.tally.others) :
    Leads (intf.considerSelfBackup current backup b)
      (intf.tally.codeBackup (current.routerID = intf.routerID)
        (backup.routerID = intf.routerID)) := by
  rw [considerSelfBackup, Tally.codeBackup]
  by_cases htakes : 0 < intf.routerPriority ∧ current.routerID ≠ intf.routerID
  · obtain ⟨hpos, hne⟩ := htakes
    have hpriority := self_priority_ne_zero hpos
    have htakes : ¬ (intf.tally.own = ⊥ ∨ decide (current.routerID = intf.routerID) = true) := by
      rw [own_eq_bot_iff, decide_eq_true_eq]
      tauto
    rw [if_pos ⟨hpos, hne⟩, if_neg htakes, Tally.rfcBackup, decide_eq_false hne, own_eq hpos]
    by_cases hisBackup : backup.routerID = intf.routerID
    · have hdeclare := h.declare hpriority (l := intf.self) rfl
      have hne_bot := max_coe_ne_bot intf.tally.backup intf.self.rank
      simp only [hisBackup, if_true, decide_true, Bool.false_eq_true, if_false]
      rw [if_neg (ne_false_of_eq_true (hdeclare.backupDeclared.2 hne_bot)),
        max_comm, orElse_of_ne_bot hne_bot]
      exact hdeclare.declaredBackup
    · simp only [hisBackup, if_false, decide_false, Bool.false_eq_true]
      rcases hdeclared : b.backupDeclared with - | -
      · -- nobody declares itself backup, and all the others are compared
        have hnone : intf.tally.backup = ⊥ := by
          by_contra hne
          rw [h.backupDeclared.2 hne] at hdeclared
          cases hdeclared
        rw [if_pos rfl, hnone, orElse_bot, max_comm]
        exact (h.highestRouter hdeclared).update hpriority rfl
      · rw [if_neg (Bool.noConfusion ·), orElse_of_ne_bot (h.backupDeclared.1 hdeclared)]
        exact h.declaredBackup
  · have hleft : intf.tally.own = ⊥ ∨ decide (current.routerID = intf.routerID) = true := by
      rw [own_eq_bot_iff, decide_eq_true_eq]
      tauto
    rw [if_neg htakes, if_pos hleft]
    exact h.declaredBackup

/-- **The router itself** is considered as Designated Router. -/
theorem tallies_considerSelfDesignated (current : DesignatedRouterID)
    (h : d.Tallies intf.tally.designated) :
    (intf.considerSelfDesignated current d).Tallies
      (if decide (current.routerID = intf.routerID) = true then
        max intf.tally.own intf.tally.designated
      else intf.tally.designated) := by
  rw [considerSelfDesignated]
  by_cases hdesignated : current.routerID = intf.routerID
  · rw [if_pos (decide_eq_true hdesignated)]
    by_cases hpos : 0 < intf.routerPriority
    · rw [if_pos ⟨hpos, hdesignated⟩, own_eq hpos, max_comm]
      exact h.declare (self_priority_ne_zero hpos) rfl
    · rw [if_neg fun hboth ↦ hpos hboth.1, own_eq_bot hpos, max_eq_right bot_le]
      exact h
  · rw [if_neg fun hboth ↦ hdesignated hboth.2, if_neg (by simpa using hdesignated)]
    exact h

/-- **The code** elects what its tallies say. -/
theorem electionTurn_eq (intf : ElectionInterface) (current backup : DesignatedRouterID) :
    ((intf.electionTurn current backup).1.routerID,
        (intf.electionTurn current backup).2.routerID) =
      intf.tally.codeTurn (current.routerID = intf.routerID) (backup.routerID = intf.routerID) := by
  obtain ⟨hbackup, hdesignated⟩ := tallies_neighbors intf.neighboringRouters
  have hlead : Leads _ (intf.tally.codeBackup _ _) := leads_considerSelfBackup current backup hbackup
  have hself := tallies_considerSelfDesignated current hdesignated
  refine Prod.ext ?_ hlead.routerID_eq
  rw [electionTurn, Tally.codeTurn, Tally.designatedRouter]
  simp only
  generalize (if decide (current.routerID = intf.routerID) = true then
    max intf.tally.own intf.tally.designated else intf.tally.designated) = m at hself ⊢
  rw [orElse]
  split_ifs with hdeclared hbot hbot
  · exact absurd hbot (hself.designatedRouterDeclared.1 hdeclared)
  · exact hself.declaredDesignatedRouter.routerID_eq
  · exact hlead.routerID_eq
  · exact absurd (hself.designatedRouterDeclared.2 hbot) hdeclared

/-! ### The election of RFC 2328, by its tallies -/

theorem rfcBackup_eq (l : List Candidate) :
    rfcBackup l = orElse (highest (l.filter Candidate.isOtherBackup))
      (highest (l.filter Candidate.isOther)) := by
  have hboth : l.filter Candidate.isOtherBackup =
      (l.filter fun c ↦ !c.isDesignated).filter Candidate.isBackup := by
    rw [List.filter_filter]
    rfl
  rw [rfcBackup, orElse, hboth]
  simp only [any_iff_highest, ite_not]
  rfl

theorem rfcDesignated_eq (l : List Candidate) :
    rfcDesignated l = orElse (highest (l.filter Candidate.isDesignated)) (rfcBackup l) := by
  rw [rfcDesignated, orElse]
  simp only [any_iff_highest, ite_not]

/-- The router itself is one of the candidates. -/
theorem highest_candidates (q : Candidate → Bool) (isDesignated isBackup : Bool) :
    highest ((intf.candidates isDesignated isBackup).filter q) =
      if q ⟨intf.self.rank, isDesignated, isBackup⟩ = true then
        max intf.tally.own (highestWith q intf.neighboringRouters)
      else highestWith q intf.neighboringRouters := by
  rw [candidates]
  by_cases hpos : 0 < intf.routerPriority
  · rw [if_pos hpos, own_eq hpos, List.filter_cons]
    split_ifs with hq
    · rw [highest_cons]
      rfl
    · rfl
  · rw [if_neg hpos, own_eq_bot hpos, max_eq_right bot_le, ite_self]
    rfl

/-- **RFC 2328** elects what the tallies say. -/
theorem rfcTurn_eq (isDesignated isBackup : Bool) :
    intf.rfcTurn isDesignated isBackup = intf.tally.rfcTurn isDesignated isBackup := by
  have hbackup : rfcBackup (intf.candidates isDesignated isBackup) =
      intf.tally.rfcBackup isDesignated isBackup := by
    rw [rfcBackup_eq, highest_candidates, highest_candidates, Tally.rfcBackup]
    cases isDesignated <;> cases isBackup <;> rfl
  have hdesignated : rfcDesignated (intf.candidates isDesignated isBackup) =
      intf.tally.designatedRouter isDesignated (intf.tally.rfcBackup isDesignated isBackup) := by
    rw [rfcDesignated_eq, highest_candidates, hbackup]
    rfl
  rw [rfcTurn, Tally.rfcTurn, hbackup, hdesignated]

end ElectionInterface

/-! ### The difference -/

/-- An elected router has an id. -/
def HasID (m : WithBot Rank) : Prop :=
  m ≠ ⊥ → electedID m ≠ NULL_ROUTERID

theorem HasID.max (h : HasID m) (h' : HasID m') : HasID (max m m') := by
  rcases max_choice m m' with heq | heq
  · rwa [heq]
  · rwa [heq]

theorem HasID.orElse (h : HasID m) (h' : HasID m') : HasID (orElse m m') := by
  rw [OSPF.orElse]
  split_ifs
  exacts [h', h]

theorem HasID.ite {p : Prop} [Decidable p] (h : HasID m) (h' : HasID m') :
    HasID (if p then m else m') := by
  split_ifs
  exacts [h, h']

namespace Tally

variable (T : Tally) (routerID : IPv4Address)

/-- The routers of a tally have ids, and the router itself has the given one. -/
structure Named : Prop where
  routerID_ne : routerID ≠ NULL_ROUTERID
  own : T.own ≠ ⊥ → electedID T.own = routerID
  designated : HasID T.designated
  backup : HasID T.backup
  others : HasID T.others

/-- No router is left for the code to elect as backup but those that do not declare themselves. -/
def NeedsOthers : Prop :=
  T.backup = ⊥ ∧ T.others ≠ ⊥

/-- The roles of this router after a turn. -/
def roles (elected : IPv4Address × IPv4Address) : Bool × Bool :=
  (elected.1 = routerID, elected.2 = routerID)

/-- The election of the code, from its turns. -/
def codeElection (isDesignated isBackup : Bool) : IPv4Address × IPv4Address :=
  let elected := T.codeTurn isDesignated isBackup
  let roles := roles routerID elected
  if elected.1 ≠ NULL_ROUTERID ∧ isDesignated ≠ roles.1 ∨
      elected.2 ≠ NULL_ROUTERID ∧ isBackup ≠ roles.2 then
    T.codeTurn roles.1 roles.2
  else elected

/-- The election of RFC 2328, from its turns. Repeating a turn with the same roles changes
nothing. -/
def rfcElection (isDesignated isBackup : Bool) : IPv4Address × IPv4Address :=
  let roles := roles routerID (T.rfcTurn isDesignated isBackup)
  T.rfcTurn roles.1 roles.2

variable {T routerID} {x y : Bool}

theorem codeBackup_eq (h : T.own = ⊥ ∨ x = true) : T.codeBackup x y = T.backup :=
  if_pos h

theorem codeTurn_eq_rfcTurn (h : T.own ≠ ⊥) (y : Bool) :
    T.codeTurn false y = T.rfcTurn false y := by
  rw [codeTurn, rfcTurn, codeBackup, if_neg (by simpa using h)]

/-- If no others are needed, the code takes the turns of RFC 2328. -/
theorem codeTurn_eq_of_not (h : ¬ T.NeedsOthers) (x y : Bool) : T.codeTurn x y = T.rfcTurn x y := by
  have hbackup : T.codeBackup x y = T.rfcBackup x y := by
    have horElse : orElse T.backup T.others = T.backup := by
      rw [orElse]
      split_ifs with hbackup
      · rw [hbackup]
        exact not_not.1 fun hothers ↦ h ⟨hbackup, hothers⟩
      · rfl
    rw [codeBackup]
    split_ifs with hleft
    · rcases hleft with hown | rfl
      · rw [rfcBackup, hown, max_eq_right bot_le, max_eq_right bot_le, ite_self, ite_self, horElse]
      · exact horElse.symm
    · rfl
  rw [codeTurn, rfcTurn, hbackup]

theorem rfcTurn_of_own (h : T.own = ⊥) (x y x' y' : Bool) : T.rfcTurn x y = T.rfcTurn x' y' := by
  have hbackup (x y : Bool) : T.rfcBackup x y = orElse T.backup T.others := by
    rw [rfcBackup, h, max_eq_right bot_le, max_eq_right bot_le, ite_self, ite_self]
  have hdesignated (x : Bool) (m : WithBot Rank) :
      T.designatedRouter x m = orElse T.designated m := by
    rw [designatedRouter, h, max_eq_right bot_le, ite_self]
  rw [rfcTurn, rfcTurn, hbackup, hbackup, hdesignated, hdesignated]

theorem max_own_ne_bot (h : T.own ≠ ⊥) (m : WithBot Rank) : max T.own m ≠ ⊥ :=
  fun hbot ↦ h (max_eq_bot.1 hbot).1

theorem Named.hasID_own (h : T.Named routerID) : HasID T.own := fun hown ↦ by
  rw [h.own hown]
  exact h.routerID_ne

theorem Named.hasID_rfcBackup (h : T.Named routerID) (x y : Bool) : HasID (T.rfcBackup x y) :=
  .ite (h.backup.orElse h.others)
    ((HasID.ite (h.hasID_own.max h.backup) h.backup).orElse (h.hasID_own.max h.others))

/-- A router that takes part finds a backup. -/
theorem Named.rfcTurn_snd_ne (h : T.Named routerID) (hown : T.own ≠ ⊥) (y : Bool) :
    (T.rfcTurn false y).2 ≠ NULL_ROUTERID := by
  refine h.hasID_rfcBackup false y ?_
  rw [rfcBackup, if_neg Bool.false_ne_true]
  exact orElse_ne_bot _ (max_own_ne_bot hown _)

/-- A router that can be elected finds a Designated Router. -/
theorem Named.rfcTurn_fst_ne (h : T.Named routerID) (hown : T.own ≠ ⊥) (x y : Bool) :
    (T.rfcTurn x y).1 ≠ NULL_ROUTERID := by
  rcases x with - | -
  · rw [rfcTurn, designatedRouter, if_neg Bool.false_ne_true, orElse]
    split_ifs with hbot
    · exact h.rfcTurn_snd_ne hown y
    · exact h.designated hbot
  · rw [rfcTurn, designatedRouter, if_pos rfl, orElse_of_ne_bot (max_own_ne_bot hown _)]
    exact (h.hasID_own.max h.designated) (max_own_ne_bot hown _)

/-- Without need of others, the repeated turn is the same if the code does not take it. -/
theorem codeElection_of_not (h : T.Named routerID) (hothers : ¬ T.NeedsOthers) (x y : Bool) :
    T.codeElection routerID x y = T.rfcElection routerID x y := by
  rw [codeElection, rfcElection]
  simp only [codeTurn_eq_of_not hothers]
  split_ifs with hrepeat
  · rfl
  · push Not at hrepeat
    obtain ⟨hfst, hsnd⟩ := hrepeat
    by_cases hown : T.own = ⊥
    · exact rfcTurn_of_own hown _ _ _ _
    · have hx := hfst (h.rfcTurn_fst_ne hown x y)
      rw [← hx]
      by_cases hnull : (T.rfcTurn x y).2 = NULL_ROUTERID
      · -- only a Designated Router finds no backup, and its other role does not matter
        rcases x with - | -
        · exact absurd hnull (h.rfcTurn_snd_ne hown y)
        · rfl
      · rw [← hsnd hnull]

theorem rfcTurn_true_snd (h : T.NeedsOthers) (y : Bool) :
    (T.rfcTurn true y).2 = electedID T.others := by
  rw [rfcTurn, rfcBackup, if_pos rfl, h.1, orElse_bot]

theorem codeTurn_true_snd (h : T.NeedsOthers) (y : Bool) :
    (T.codeTurn true y).2 = NULL_ROUTERID := by
  rw [codeTurn, codeBackup_eq (.inr rfl), h.1]
  rfl

theorem codeTurn_true_fst (hown : T.own ≠ ⊥) (y : Bool) :
    (T.codeTurn true y).1 = (T.rfcTurn true y).1 := by
  rw [codeTurn, rfcTurn, designatedRouter, designatedRouter, if_pos rfl,
    orElse_of_ne_bot (max_own_ne_bot hown _), orElse_of_ne_bot (max_own_ne_bot hown _)]

/-- A router that has lost the role of Designated Router finds the same backup whether or not it had
been elected backup at once. -/
theorem rfcTurn_false_eq (h : T.Named routerID) (hothers : T.NeedsOthers) (hown : T.own ≠ ⊥)
    {y : Bool} (hlost : (T.rfcTurn true y).1 ≠ routerID) :
    T.rfcTurn false (electedID T.others = routerID) = T.rfcTurn false false := by
  by_cases heq : electedID T.others = routerID
  · have hdesignated : T.designated ≠ ⊥ := by
      intro hbot
      rw [rfcTurn, designatedRouter, if_pos rfl, hbot, max_eq_left bot_le,
        orElse_of_ne_bot hown] at hlost
      exact hlost (h.own hown)
    have hbackup (y : Bool) : electedID (T.rfcBackup false y) = routerID := by
      rw [rfcBackup, if_neg Bool.false_ne_true, hothers.1, max_eq_left bot_le]
      rcases y with - | -
      · rw [if_neg Bool.false_ne_true, orElse_bot]
        rcases max_choice T.own T.others with hmax | hmax
        · rw [hmax, h.own hown]
        · rw [hmax, heq]
      · rw [if_pos rfl, orElse_of_ne_bot hown, h.own hown]
    simp only [rfcTurn, designatedRouter, hbackup, Bool.false_eq_true, if_false,
      orElse_of_ne_bot hdesignated]
  · rw [decide_eq_false heq]

/-- **Where others are needed**, the code is right exactly if this router can be elected and is not
the Designated Router of the first turn. -/
theorem codeElection_eq_iff_of_needsOthers (h : T.Named routerID) (hothers : T.NeedsOthers)
    (x y : Bool) :
    T.codeElection routerID x y = T.rfcElection routerID x y ↔
      T.own ≠ ⊥ ∧ (T.rfcTurn x y).1 ≠ routerID := by
  have hne : NULL_ROUTERID ≠ electedID T.others := (h.others hothers.2).symm
  by_cases hown : T.own = ⊥
  · -- a router that cannot be elected leaves the others out
    refine iff_of_false (fun heq ↦ hne ?_) fun hboth ↦ hboth.1 hown
    have hcode : ∀ x y, (T.codeTurn x y).2 = NULL_ROUTERID := fun x y ↦ by
      rw [codeTurn, codeBackup_eq (.inl hown), hothers.1]
      rfl
    have hsnd := congrArg Prod.snd heq
    rw [codeElection, rfcElection, rfcTurn_of_own hown _ _ true true,
      rfcTurn_true_snd hothers] at hsnd
    rw [← hsnd]
    split_ifs
    exacts [(hcode _ _).symm, (hcode _ _).symm]
  rw [codeElection, rfcElection]
  rcases x with - | -
  · -- the first turn is that of RFC 2328, and the second one is unless this router leads
    rw [codeTurn_eq_rfcTurn hown]
    have hcode : (if (T.rfcTurn false y).1 ≠ NULL_ROUTERID ∧
          false ≠ (roles routerID (T.rfcTurn false y)).1 ∨
        (T.rfcTurn false y).2 ≠ NULL_ROUTERID ∧ y ≠ (roles routerID (T.rfcTurn false y)).2 then
          T.codeTurn (roles routerID (T.rfcTurn false y)).1 (roles routerID (T.rfcTurn false y)).2
        else T.rfcTurn false y) =
        T.codeTurn (roles routerID (T.rfcTurn false y)).1
          (roles routerID (T.rfcTurn false y)).2 := by
      split_ifs with hrepeat
      · rfl
      · push Not at hrepeat
        rw [← hrepeat.1 (h.rfcTurn_fst_ne hown false y), ← hrepeat.2 (h.rfcTurn_snd_ne hown y),
          codeTurn_eq_rfcTurn hown]
    refine (Eq.congr_left hcode).trans ?_
    by_cases hlead : (T.rfcTurn false y).1 = routerID
    · have hrole : (roles routerID (T.rfcTurn false y)).1 = true := decide_eq_true hlead
      rw [hrole]
      refine iff_of_false (fun heq ↦ hne ?_) fun hboth ↦ hboth.2 hlead
      rw [← rfcTurn_true_snd hothers _, ← heq, codeTurn_true_snd hothers]
    · have hrole : (roles routerID (T.rfcTurn false y)).1 = false := decide_eq_false hlead
      rw [hrole]
      exact iff_of_true (codeTurn_eq_rfcTurn hown _) ⟨hown, hlead⟩
  · have hfst := codeTurn_true_fst hown y
    have hsnd := codeTurn_true_snd hothers y
    by_cases hlead : (T.rfcTurn true y).1 = routerID
    · -- this router stays Designated Router, without a backup
      have hrole : (roles routerID (T.codeTurn true y)).1 = true :=
        decide_eq_true (hfst.trans hlead)
      have hrole' : (roles routerID (T.rfcTurn true y)).1 = true := decide_eq_true hlead
      simp only [hrole, hrole', hsnd, ne_eq, not_true_eq_false, and_false, false_and, or_self,
        if_false]
      refine iff_of_false (fun heq ↦ hne ?_) fun hboth ↦ hboth.2 hlead
      rw [← rfcTurn_true_snd hothers _, ← heq, hsnd]
    · have hrole : (roles routerID (T.codeTurn true y)).1 = false :=
        decide_eq_false fun heq ↦ hlead (hfst.symm.trans heq)
      have hrole' : (roles routerID (T.rfcTurn true y)).1 = false := decide_eq_false hlead
      have hbackup : (roles routerID (T.codeTurn true y)).2 = false :=
        decide_eq_false fun heq ↦ h.routerID_ne (heq.symm.trans hsnd)
      have hbackup' : (roles routerID (T.rfcTurn true y)).2 =
          decide (electedID T.others = routerID) := by
        rw [roles, rfcTurn_true_snd hothers]
      refine iff_of_true ?_ ⟨hown, hlead⟩
      have hrepeat : (T.codeTurn true y).1 ≠ NULL_ROUTERID :=
        hfst ▸ h.rfcTurn_fst_ne hown true y
      simp only [hrole, hrole', hbackup, hbackup']
      rw [if_pos (.inl ⟨hrepeat, Bool.noConfusion⟩), codeTurn_eq_rfcTurn hown,
        rfcTurn_false_eq h hothers hown hlead]

end Tally

namespace ElectionInterface

variable {intf : ElectionInterface}

/-- Nobody declares itself backup, but there are routers that can be elected and do not declare
themselves Designated Router either. -/
def NeedsOthers (intf : ElectionInterface) : Prop :=
  (∃ c ∈ intf.neighborCandidates, c.isDesignated = false) ∧
    ∀ c ∈ intf.neighborCandidates, c.isDesignated = false → c.isBackup = false

/-- A neighbour becomes Designated Router in the first turn: it is the highest of those that declare
themselves so; or there are none, this router does not declare itself backup, and the neighbour is
the highest of all. -/
def NeighborLeads (intf : ElectionInterface) : Prop :=
  ∃ c ∈ intf.neighborCandidates, electedID c.rank ≠ intf.routerID ∧
    (c.isDesignated = true ∧
        (∀ c' ∈ intf.neighborCandidates, c'.isDesignated = true → c'.rank ≤ c.rank) ∧
        (intf.designatedRouter.routerID = intf.routerID → intf.self.rank < c.rank) ∨
      (∀ c' ∈ intf.neighborCandidates, c'.isDesignated = false ∧ c'.rank ≤ c.rank) ∧
        intf.designatedRouter.routerID ≠ intf.routerID ∧
        intf.backupDesignatedRouter.routerID ≠ intf.routerID ∧ intf.self.rank < c.rank)

theorem highestWith_eq_bot_iff {q : Candidate → Bool} :
    highestWith q intf.neighboringRouters = ⊥ ↔
      ∀ c ∈ intf.neighborCandidates, ¬ q c = true := by
  rw [highestWith, highest_eq_bot]
  exact List.filter_eq_nil_iff

theorem highestWith_eq_coe_iff {q : Candidate → Bool} {r : Rank} :
    highestWith q intf.neighboringRouters = r ↔
      (∃ c ∈ intf.neighborCandidates, q c = true ∧ c.rank = r) ∧
        ∀ c ∈ intf.neighborCandidates, q c = true → c.rank ≤ r := by
  show (List.map Candidate.rank (intf.neighborCandidates.filter q)).maximum = r ↔ _
  simp only [List.maximum_eq_coe_iff, List.mem_map, List.mem_filter, forall_exists_index, and_imp,
    and_assoc]
  refine and_congr_right' ⟨fun h c hc hq ↦ h _ c hc hq rfl, fun h a c hc hq heq ↦ ?_⟩
  rw [← heq]
  exact h c hc hq

theorem needsOthers_iff : intf.tally.NeedsOthers ↔ intf.NeedsOthers := by
  show highestWith _ _ = ⊥ ∧ ¬ highestWith _ _ = ⊥ ↔ _
  rw [highestWith_eq_bot_iff, highestWith_eq_bot_iff, NeedsOthers]
  simp only [Candidate.isOther, Candidate.isOtherBackup, Bool.and_eq_true, Bool.not_eq_true',
    not_and, not_forall, not_not, exists_prop]
  refine and_comm.trans (and_congr_right' (forall₂_congr fun c _ ↦ ⟨fun h hother ↦ ?_, ?_⟩))
  · exact Bool.eq_false_iff.2 fun hbackup ↦ h hbackup hother
  · exact fun h hbackup hother ↦ absurd (h hother) (ne_false_of_eq_true hbackup)

theorem named_tally (hself : intf.routerID ≠ NULL_ROUTERID)
    (hneighbors : ∀ neighbor ∈ intf.neighboringRouters, neighbor.neighborID ≠ NULL_ROUTERID) :
    intf.tally.Named intf.routerID := by
  have hID (q : Candidate → Bool) : HasID (highestWith q intf.neighboringRouters) := by
    intro hbot
    obtain ⟨r, hr⟩ := WithBot.ne_bot_iff_exists.1 hbot
    obtain ⟨⟨c, hc, -, hrank⟩, -⟩ := highestWith_eq_coe_iff.1 hr.symm
    obtain ⟨neighbor, hmem, rfl⟩ := List.mem_map.1 hc
    rw [← hr, ← hrank]
    exact hneighbors neighbor (List.mem_filter.1 hmem).1
  refine ⟨hself, fun hown ↦ ?_, hID _, hID _, hID _⟩
  rw [own_eq (not_not.1 fun hpos ↦ hown (own_eq_bot hpos))]
  rfl

/-- A router wins against this one only if it is higher and has another id. -/
theorem electedID_max_ne_iff {own m : WithBot Rank} {routerID : IPv4Address}
    (hown : electedID own = routerID) :
    electedID (max own m) ≠ routerID ↔ own < m ∧ electedID m ≠ routerID := by
  rcases lt_or_ge own m with hlt | hle
  · rw [max_eq_right hlt.le]
    exact (and_iff_right hlt).symm
  · rw [max_eq_left hle]
    exact iff_of_false (not_not.2 hown) fun hboth ↦ hle.not_gt hboth.1

/-- The highest of some neighbours has another id than this router, and is higher if need be. -/
theorem exists_highestWith_iff {q : Candidate → Bool} {p : Prop} :
    (highestWith q intf.neighboringRouters ≠ ⊥ ∧
        electedID (highestWith q intf.neighboringRouters) ≠ intf.routerID ∧
        (p → (intf.self.rank : WithBot Rank) < highestWith q intf.neighboringRouters)) ↔
      ∃ c ∈ intf.neighborCandidates, electedID c.rank ≠ intf.routerID ∧ q c = true ∧
        (∀ c' ∈ intf.neighborCandidates, q c' = true → c'.rank ≤ c.rank) ∧
        (p → intf.self.rank < c.rank) := by
  constructor
  · rintro ⟨hbot, hid, hlt⟩
    obtain ⟨r, hr⟩ := WithBot.ne_bot_iff_exists.1 hbot
    obtain ⟨⟨c, hc, hq, rfl⟩, hle⟩ := highestWith_eq_coe_iff.1 hr.symm
    rw [← hr] at hid hlt
    exact ⟨c, hc, hid, hq, hle, fun hp ↦ WithBot.coe_lt_coe.1 (hlt hp)⟩
  · rintro ⟨c, hc, hid, hq, hle, hlt⟩
    rw [highestWith_eq_coe_iff.2 ⟨⟨c, hc, hq, rfl⟩, hle⟩]
    exact ⟨WithBot.coe_ne_bot, hid, fun hp ↦ WithBot.coe_lt_coe.2 (hlt hp)⟩

/-- **The first turn** where others are needed, by what the routers declare. -/
theorem rfcTurn_fst_ne_iff (hothers : intf.tally.NeedsOthers) (hpos : 0 < intf.routerPriority) :
    (intf.tally.rfcTurn (intf.designatedRouter.routerID = intf.routerID)
        (intf.backupDesignatedRouter.routerID = intf.routerID)).1 ≠ intf.routerID ↔
      intf.NeighborLeads := by
  have hown : electedID intf.tally.own = intf.routerID := by
    rw [own_eq hpos]
    rfl
  have hownBot : intf.tally.own ≠ ⊥ := fun hbot ↦ own_eq_bot_iff.1 hbot hpos
  rw [Tally.rfcTurn, Tally.designatedRouter]
  by_cases hdesignated : intf.designatedRouter.routerID = intf.routerID
  · -- this router declares itself Designated Router, and a neighbour has to be higher
    rw [if_pos (decide_eq_true hdesignated), orElse_of_ne_bot (Tally.max_own_ne_bot hownBot _),
      electedID_max_ne_iff hown, own_eq hpos]
    refine Iff.trans
      ⟨fun h ↦ ⟨ne_bot_of_gt h.1, h.2, fun _ ↦ h.1⟩, fun h ↦ ⟨h.2.2 hdesignated, h.2.1⟩⟩
      (exists_highestWith_iff.trans (exists_congr fun c ↦ and_congr_right' (and_congr_right' ?_)))
    exact ⟨.inl, fun h ↦ h.resolve_right fun hnone ↦ hnone.2.1 hdesignated⟩
  · rw [if_neg (by simpa using hdesignated)]
    rcases eq_or_ne intf.tally.designated ⊥ with hnone | hsome
    · have hother := highestWith_eq_bot_iff.1 hnone
      rw [hnone, orElse_bot, Tally.rfcBackup, if_neg (by simpa using hdesignated), hothers.1]
      by_cases hbackup : intf.backupDesignatedRouter.routerID = intf.routerID
      · -- this router is the only one that declares itself backup
        rw [if_pos (decide_eq_true hbackup), max_eq_left bot_le, orElse_of_ne_bot hownBot]
        refine iff_of_false (not_not.2 hown) ?_
        rintro ⟨c, hc, -, ⟨hc', -⟩ | ⟨-, -, hnot, -⟩⟩
        exacts [hother c hc hc', hnot hbackup]
      · rw [if_neg (by simpa using hbackup), orElse_bot, electedID_max_ne_iff hown, own_eq hpos]
        refine Iff.trans ⟨fun h ↦ ⟨hothers.2, h.2, fun _ ↦ h.1⟩, fun h ↦ ⟨h.2.2 hbackup, h.2.1⟩⟩
          (exists_highestWith_iff.trans (exists_congr fun c ↦ and_congr_right fun hc ↦
            and_congr_right' ⟨?_, ?_⟩))
        · rintro ⟨-, hle, hlt⟩
          exact .inr ⟨fun c' hc' ↦ ⟨Bool.eq_false_iff.2 (hother c' hc'), hle c' hc'
            (by simpa [Candidate.isOther] using hother c' hc')⟩, hdesignated, hbackup, hlt hbackup⟩
        · rintro (⟨hc', -⟩ | ⟨hall, -, -, hlt⟩)
          · exact absurd hc' (hother c hc)
          · exact ⟨by simpa [Candidate.isOther] using hother c hc, fun c' hc' _ ↦ (hall c' hc').2,
              fun _ ↦ hlt⟩
    · -- a neighbour declares itself Designated Router
      rw [orElse_of_ne_bot hsome]
      refine Iff.trans ⟨fun h ↦ ⟨hsome, h, fun hp ↦ absurd hp hdesignated⟩, fun h ↦ h.2.1⟩
        (exists_highestWith_iff.trans (exists_congr fun c ↦ and_congr_right' (and_congr_right'
          ⟨.inl, fun h ↦ h.resolve_right fun hnone ↦ hsome ?_⟩)))
      exact highestWith_eq_bot_iff.2 fun c' hc' ↦ Bool.eq_false_iff.1 (hnone.1 c' hc').1

theorem ownRoleChanges_iff {current declared : DesignatedRouterID} :
    intf.OwnRoleChanges current declared ↔ declared.routerID ≠ NULL_ROUTERID ∧
      decide (current.routerID = intf.routerID) ≠ decide (declared.routerID = intf.routerID) := by
  simp only [OwnRoleChanges, ne_eq, decide_eq_decide]
  tauto

/-- The code's election, by its tallies. -/
theorem calculateDesignatedRouter_eq :
    (intf.calculateDesignatedRouter.designatedRouter.routerID,
        intf.calculateDesignatedRouter.backupDesignatedRouter.routerID) =
      intf.tally.codeElection intf.routerID (intf.designatedRouter.routerID = intf.routerID)
        (intf.backupDesignatedRouter.routerID = intf.routerID) := by
  have hfirst := electionTurn_eq intf intf.designatedRouter intf.backupDesignatedRouter
  simp only [calculateDesignatedRouter, Tally.codeElection, ← hfirst, Tally.roles]
  by_cases hrepeat : intf.OwnRoleChanges intf.designatedRouter
      (intf.electionTurn intf.designatedRouter intf.backupDesignatedRouter).1 ∨
    intf.OwnRoleChanges intf.backupDesignatedRouter
      (intf.electionTurn intf.designatedRouter intf.backupDesignatedRouter).2
  · rw [if_pos hrepeat, if_pos (by simpa only [ownRoleChanges_iff] using hrepeat)]
    exact electionTurn_eq intf _ _
  · rw [if_neg hrepeat, if_neg (by simpa only [ownRoleChanges_iff] using hrepeat)]

/-- RFC 2328's election, by its tallies. -/
theorem rfcElection_eq :
    intf.rfcElection =
      intf.tally.rfcElection intf.routerID (intf.designatedRouter.routerID = intf.routerID)
        (intf.backupDesignatedRouter.routerID = intf.routerID) := by
  rw [rfcElection, Tally.rfcElection]
  simp only [rfcTurn_eq, Tally.roles]
  split_ifs with hchanges
  · rfl
  · push Not at hchanges
    rw [hchanges.1, hchanges.2]

/-- **The election** ends with the Designated Router and the backup of RFC 2328 exactly if no others
are needed, or this router can be elected and a neighbour becomes Designated Router. -/
theorem elects_iff (hself : intf.routerID ≠ NULL_ROUTERID)
    (hneighbors : ∀ neighbor ∈ intf.neighboringRouters, neighbor.neighborID ≠ NULL_ROUTERID) :
    intf.Elects ↔ (intf.NeedsOthers → 0 < intf.routerPriority ∧ intf.NeighborLeads) := by
  have hnamed := named_tally hself hneighbors
  have helects : intf.Elects ↔
      intf.tally.codeElection intf.routerID (intf.designatedRouter.routerID = intf.routerID)
          (intf.backupDesignatedRouter.routerID = intf.routerID) =
        intf.tally.rfcElection intf.routerID (intf.designatedRouter.routerID = intf.routerID)
          (intf.backupDesignatedRouter.routerID = intf.routerID) := by
    rw [← calculateDesignatedRouter_eq, ← rfcElection_eq, Elects, Prod.ext_iff]
  rw [helects]
  by_cases hothers : intf.NeedsOthers
  · have htally := needsOthers_iff.2 hothers
    rw [Tally.codeElection_eq_iff_of_needsOthers hnamed htally, Ne, own_eq_bot_iff, not_not]
    simp only [hothers, true_imp_iff]
    exact and_congr_right fun hpos ↦ rfcTurn_fst_ne_iff htally hpos
  · exact iff_of_true (Tally.codeElection_of_not hnamed (fun h ↦ hothers (needsOthers_iff.1 h)) _ _)
      fun h ↦ absurd h hothers

/-- A neighbour with priority 1, with which the communication is bidirectional. -/
def peer (neighborID designated backup : IPv4Address) : ElectionNeighbor where
  neighborID := neighborID
  neighborPriority := 1
  neighborIPAddress := neighborID
  state := .twoWay
  neighborsDesignatedRouter := ⟨designated, designated⟩
  neighborsBackupDesignatedRouter := ⟨backup, backup⟩

/-- A router that comes to a network with a Designated Router and a backup. -/
def newcomer : ElectionInterface where
  routerID := 1
  routerPriority := 1
  address := 1
  neighboringRouters := [peer 2 2 3, peer 3 2 3]

theorem elects_iff_newcomer : newcomer.Elects :=
  have hmem : (peer 3 2 3).candidate ∈ newcomer.neighborCandidates :=
    List.mem_map_of_mem (List.mem_filter.2 ⟨by decide, by decide⟩)
  (elects_iff (by decide) (by decide)).2 fun hothers ↦
    absurd (hothers.2 _ hmem (by decide)) (by decide)

/-- Two routers that have just met. -/
def firstOfTwo : ElectionInterface where
  routerID := 2
  routerPriority := 1
  address := 2
  neighboringRouters := [peer 1 0 0]

/-- The router with the higher id becomes Designated Router, and leaves the other one out. -/
theorem not_elects_firstOfTwo : ¬ ∀ intf : ElectionInterface, intf.Elects := fun h ↦
  absurd (h firstOfTwo).2 (by decide +kernel)

end ElectionInterface

end Inet.OSPF
