import Inet.Foundations.TransitionSystem
import Inet.LinkLayer.Ieee8021dRelay

/-!
# A switch forwards by the last place an address was seen

The rule for a frame is stated over what has been seen in the run (`lastSeenRule`); the address
table is not mentioned there. The table agrees with it after any events (`knows_of_run`), although
an entry that has aged may be missing from the table or still be there.
-/

namespace Inet

namespace Ieee8021dRelay

variable (P : RelayParameters)

/-! ### Where an address has been seen -/

/-- A frame from an address has come in. -/
structure Sighting where
  src : MACAddress
  port : ℕ
  time : SimTime
  deriving DecidableEq, Repr

/-- The port is forwarding. -/
def forwardsOn (s : Ieee8021dRelay) (i : ℕ) : Bool :=
  !P.isStpAware || (s.port i).isForwarding

/-- The port is learning. -/
def learnsOn (s : Ieee8021dRelay) (i : ℕ) : Bool :=
  !P.isStpAware || (s.port i).isLearning

/-- What has been seen after an event, newest first. -/
def sight (seen : List Sighting) (s : Ieee8021dRelay) : RelayEvent → List Sighting
  | .ifIn arrivalGate frame =>
    if s.isOperational && s.learnsOn P arrivalGate then ⟨frame.src, arrivalGate, s.now⟩ :: seen
    else seen
  | .start | .stop => []
  | _ => seen

/-- The lines of the file count as seen at time zero. -/
def fileSightings (addressTableFile : List (ℕ × MACAddress × ℤ)) : List Sighting :=
  (addressTableFile.reverse.filter fun line ↦ line.1 = 0).map
    fun line ↦ ⟨line.2.1, line.2.2.toNat, 0⟩

/-- What has been seen in a run since the last start or stop. -/
def sightings (addressTableFile : List (ℕ × MACAddress × ℤ))
    (tr : List (Transition Ieee8021dRelay RelayEvent Unit)) : List Sighting :=
  tr.foldl (fun seen t ↦ sight P seen t.pre t.input) (fileSightings addressTableFile)

/-- The frame goes to all ports that are forwarding, but not back. -/
def flood (s : Ieee8021dRelay) (arrivalGate : ℕ) (frame : EtherFrame) : List (EtherFrame × ℕ) :=
  ((List.range P.portCount).filter fun i ↦ i ≠ arrivalGate ∧ s.forwardsOn P i).map
    fun i ↦ (frame, i)

/-- **The rule**: a frame goes to the port where its destination was seen last, but not back and not
to a port that is not forwarding. It goes everywhere if that was too long ago. -/
def lastSeenRule (agingTime : SimTime) (seen : List Sighting) (s : Ieee8021dRelay)
    (arrivalGate : ℕ) (frame : EtherFrame) : List (EtherFrame × ℕ) :=
  match seen.find? fun x ↦ x.src = frame.dest with
  | none => s.flood P arrivalGate frame
  | some x =>
    if s.now < x.time + agingTime then
      if x.port ≠ arrivalGate ∧ s.forwardsOn P x.port then [(frame, x.port)] else []
    else s.flood P arrivalGate frame

variable {P} {agingTime now : SimTime} {addressTableFile : List (ℕ × MACAddress × ℤ)}
  {seen : List Sighting} {s s' : Ieee8021dRelay} {table table' : MACAddressTable}
  {arrivalGate i : ℕ} {frame : EtherFrame}

/-! ### What the table knows -/

/-- The entry for an address is what has been seen last, unless that has aged. -/
def Agrees (agingTime now : SimTime) : Option AddressEntry → Option Sighting → Prop
  | none, none => True
  | none, some x => x.time + agingTime ≤ now
  | some entry, some x => entry.portno = x.port ∧ entry.insertionTime = x.time
  | some _, none => False

/-- What the address table knows, after some sightings. -/
structure Knows (P : RelayParameters) (agingTime : SimTime) (seen : List Sighting) (now : SimTime)
    (table : MACAddressTable) : Prop where
  valid : table.Valid
  aging : table.agingTime = agingTime
  port_lt : ∀ x ∈ seen, x.port < P.portCount
  agrees : ∀ address, address ≠ .BROADCAST_ADDRESS →
    Agrees agingTime now (table.lookup 0 address) (seen.find? fun x ↦ x.src = address)

theorem Agrees.advance {entry : Option AddressEntry} {x : Option Sighting} {t : SimTime}
    (h : Agrees agingTime now entry x) (ht : now ≤ t) : Agrees agingTime t entry x := by
  cases entry <;> cases x
  case none.some x => exact le_trans h ht
  all_goals exact h

theorem Knows.advance {t : SimTime} (h : Knows P agingTime seen now table) (ht : now ≤ t) :
    Knows P agingTime seen t table :=
  ⟨h.valid, h.aging, h.port_lt, fun address haddress ↦ (h.agrees address haddress).advance ht⟩

/-- An entry that has aged does not matter. -/
theorem Agrees.of_aged {entry : AddressEntry} {x : Option Sighting}
    (h : Agrees agingTime now (some entry) x) (haged : entry.insertionTime + agingTime ≤ now) :
    Agrees agingTime now none x := by
  cases x with
  | none => exact h.elim
  | some x =>
    show x.time + agingTime ≤ now
    rw [← h.2]
    exact haged

theorem Knows.of_lookup_or (h : Knows P agingTime seen now table) (address : MACAddress)
    (haddress : address ≠ .BROADCAST_ADDRESS)
    (hlookup : table'.lookup 0 address = table.lookup 0 address ∨ table'.lookup 0 address = none ∧
      ∃ entry, table.lookup 0 address = some entry ∧ table.isAged now entry = true) :
    Agrees agingTime now (table'.lookup 0 address) (seen.find? fun x ↦ x.src = address) := by
  have hagrees := h.agrees address haddress
  rcases hlookup with heq | ⟨hnone, entry, hentry, haged⟩
  · rwa [heq]
  · rw [hentry] at hagrees
    rw [hnone]
    refine hagrees.of_aged ?_
    rw [← h.aging]
    exact of_decide_eq_true haged

/-- Throwing aged entries out changes nothing. -/
theorem Knows.thin (h : Knows P agingTime seen now table) (hvalid : table'.Valid)
    (hthins : MACAddressTable.Thins now table table') : Knows P agingTime seen now table' :=
  ⟨hvalid, hthins.agingTime.trans h.aging, h.port_lt, fun address haddress ↦
    h.of_lookup_or address haddress (hthins.entry 0 address)⟩

/-- The answer of the table. -/
theorem Knows.portOf (h : Knows P agingTime seen now table) {address : MACAddress}
    (haddress : address ≠ .BROADCAST_ADDRESS) : table.portOf now 0 address =
      match seen.find? fun x ↦ x.src = address with
      | none => -1
      | some x => if now < x.time + agingTime then (x.port : ℤ) else -1 := by
  have hagrees := h.agrees address haddress
  rw [MACAddressTable.portOf]
  cases hentry : table.lookup 0 address with
  | none =>
    rw [hentry] at hagrees
    cases hfind : seen.find? fun x ↦ x.src = address with
    | none => rfl
    | some x =>
      rw [hfind] at hagrees
      exact (if_neg (not_lt.2 hagrees)).symm
  | some entry =>
    rw [hentry] at hagrees
    cases hfind : seen.find? fun x ↦ x.src = address with
    | none =>
      rw [hfind] at hagrees
      exact hagrees.elim
    | some x =>
      rw [hfind] at hagrees
      obtain ⟨hport, htime⟩ := hagrees
      simp only [MACAddressTable.isAged, decide_eq_true_eq, htime, hport, h.aging]
      by_cases hlt : now < x.time + agingTime
      · rw [if_neg (not_le.2 hlt), if_pos hlt]
      · rw [if_pos (not_lt.1 hlt), if_neg hlt]

/-- An address has been seen at a port. -/
theorem Knows.learnAddress (h : Knows P agingTime seen s.now s.macTable)
    (hgate : arrivalGate < P.portCount) (src : MACAddress) :
    ∃ table, s.learnAddress arrivalGate src = .ok { s with macTable := table } ∧
      Knows P agingTime (⟨src, arrivalGate, s.now⟩ :: seen) s.now table := by
  have hports : ∀ x ∈ (⟨src, arrivalGate, s.now⟩ : Sighting) :: seen, x.port < P.portCount :=
    List.forall_mem_cons.2 ⟨hgate, h.port_lt⟩
  have hother (address : MACAddress) (hne : address ≠ src) :
      ((⟨src, arrivalGate, s.now⟩ : Sighting) :: seen).find? (fun x ↦ x.src = address) =
        seen.find? fun x ↦ x.src = address := by
    rw [List.find?_cons, decide_eq_false fun heq ↦ hne heq.symm]
  rw [Ieee8021dRelay.learnAddress]
  by_cases hsrc : src = .BROADCAST_ADDRESS
  · rw [hsrc, MACAddressTable.updateTableWithAddress_broadcast]
    refine ⟨s.macTable, rfl, h.valid, h.aging, hsrc ▸ hports, fun address haddress ↦ ?_⟩
    rw [← hsrc, hother address (hsrc ▸ haddress)]
    exact h.agrees address haddress
  · obtain ⟨table, hok, hseen, -, -⟩ := h.valid.updateTableWithAddress s.now arrivalGate 0 hsrc
    refine ⟨table, by rw [hok], hseen.valid, hseen.agingTime.trans h.aging, hports,
      fun address haddress ↦ ?_⟩
    by_cases hne : address = src
    · obtain ⟨entry, hentry, hport, htime⟩ := hseen.entry
      rw [hne, hentry, List.find?_cons, decide_eq_true rfl]
      exact ⟨hport, htime⟩
    · rw [hother address hne]
      exact h.of_lookup_or address haddress
        (hseen.other 0 address fun heq ↦ hne (Prod.ext_iff.1 heq).2)

/-! ### What is sent -/

/-- The data of a port, where the relay asks for them. -/
def portData (P : RelayParameters) (s : Ieee8021dRelay) (i : ℕ) : Option PortInfo :=
  if P.isStpAware then some (s.port i) else none

theorem getPortInterfaceData_eq (hi : i < P.portCount) :
    s.getPortInterfaceData P i = .ok (s.portData P i) := by
  rw [getPortInterfaceData, portData]
  split_ifs <;> rfl

theorem isForwarding_portData : isForwarding P (s.portData P i) = s.forwardsOn P i := by
  rw [isForwarding, portData, forwardsOn]
  cases P.isStpAware <;> rfl

/-- The state with more frames sent. -/
def sending (s : Ieee8021dRelay) (frames : List (EtherFrame × ℕ)) : Ieee8021dRelay :=
  { s with sent := s.sent ++ frames }

theorem sending_nil (s : Ieee8021dRelay) : s.sending [] = s := by
  rw [sending, List.append_nil]

theorem sending_sending (s : Ieee8021dRelay) (frames frames' : List (EtherFrame × ℕ)) :
    (s.sending frames).sending frames' = s.sending (frames ++ frames') := by
  rw [sending, sending, sending, List.append_assoc]

theorem dispatchIfForwarding_eq (hi : i < P.portCount) (frame : EtherFrame) :
    s.dispatchIfForwarding P frame i =
      .ok (s.sending (if s.forwardsOn P i then [(frame, i)] else [])) := by
  rw [dispatchIfForwarding, getPortInterfaceData_eq hi]
  show (if isForwarding P (s.portData P i) then s.dispatch P frame i else .ok s) = _
  rw [isForwarding_portData, dispatch, if_neg (not_le.2 hi)]
  split_ifs
  · rfl
  · rw [sending_nil]

/-- **Broadcasting** a frame floods it. -/
theorem broadcast_eq (s : Ieee8021dRelay) (arrivalGate : ℕ) (frame : EtherFrame) :
    s.broadcast P arrivalGate frame = .ok (s.sending (s.flood P arrivalGate frame)) := by
  have hloop (l : List ℕ) (hl : ∀ i ∈ l, i < P.portCount) (s : Ieee8021dRelay) :
      l.foldlM (fun s i ↦
        if i ≠ arrivalGate then s.dispatchIfForwarding P frame i else .ok s) s =
          Except.ok (s.sending ((l.filter fun i ↦ i ≠ arrivalGate ∧ s.forwardsOn P i).map
            fun i ↦ (frame, i))) := by
    induction l generalizing s with
    | nil => exact congrArg Except.ok s.sending_nil.symm
    | cons i l ih =>
      rw [List.forall_mem_cons] at hl
      have hturn : (if i ≠ arrivalGate then s.dispatchIfForwarding P frame i else .ok s) =
          .ok (s.sending (if i ≠ arrivalGate ∧ s.forwardsOn P i then [(frame, i)] else [])) := by
        rw [dispatchIfForwarding_eq hl.1]
        by_cases hgate : i = arrivalGate
        · rw [if_neg (not_not.2 hgate), if_neg fun h ↦ h.1 hgate, sending_nil]
        · simp only [ne_eq, hgate, not_false_eq_true, if_true, true_and]
      rw [List.foldlM_cons, hturn]
      refine (ih hl.2 _).trans ?_
      rw [sending_sending, List.filter_cons]
      simp only [decide_eq_true_eq]
      split_ifs <;> rfl
  exact hloop _ (fun i hi ↦ List.mem_range.1 hi) s

theorem toUnsigned_natCast (hi : i < P.portCount) : toUnsigned (i : ℤ) = i := by
  have hlt := P.portCount_lt
  rw [toUnsigned, Int.emod_eq_of_lt (Int.natCast_nonneg i) (by omega)]
  exact Int.toNat_natCast i

/-- **A frame is sent by the rule** where its destination is looked up. -/
theorem Knows.lookUpAndForward (h : Knows P agingTime seen s.now s.macTable)
    (hdest : frame.dest ≠ .BROADCAST_ADDRESS) (arrivalGate : ℕ) :
    ∃ table, s.lookUpAndForward P arrivalGate frame =
        .ok (sending { s with macTable := table }
          (s.lastSeenRule P agingTime seen arrivalGate frame)) ∧
      Knows P agingTime seen s.now table := by
  obtain ⟨table, hok, hvalid, hthins, -⟩ := h.valid.getPortForAddress s.now frame.dest 0
  refine ⟨table, ?_, h.thin hvalid hthins⟩
  rw [Ieee8021dRelay.lookUpAndForward, hok]
  show forwardTo P arrivalGate frame (s.macTable.portOf s.now 0 frame.dest)
    { s with macTable := table } = _
  rw [h.portOf hdest, lastSeenRule]
  cases hfind : seen.find? fun x ↦ x.src = frame.dest with
  | none => exact broadcast_eq _ _ _
  | some x =>
    have hport : x.port < P.portCount := h.port_lt x (List.mem_of_find?_eq_some hfind)
    simp only
    split_ifs with hlt hsend
    · rw [forwardTo, if_neg (by omega), if_pos (by exact_mod_cast hsend.1),
        toUnsigned_natCast hport, dispatchIfForwarding_eq hport]
      exact congrArg (fun frames ↦ Except.ok (sending { s with macTable := table } frames))
        (if_pos hsend.2)
    · rw [forwardTo, if_neg (by omega), sending_nil]
      by_cases hgate : x.port = arrivalGate
      · rw [if_neg (not_not.2 (by rw [hgate]))]
      · rw [if_pos (by exact_mod_cast hgate), toUnsigned_natCast hport,
          dispatchIfForwarding_eq hport]
        refine congrArg Except.ok ((congrArg _ (if_neg fun hforwards ↦ ?_)).trans (sending_nil _))
        exact hsend ⟨hgate, hforwards⟩
    · rw [forwardTo, if_pos rfl]
      exact broadcast_eq _ _ _

/-! ### Frames -/

theorem isLearning_portData :
    (!P.isStpAware || (s.portData P i).any PortInfo.isLearning) = s.learnsOn P i := by
  rw [portData, learnsOn]
  cases P.isStpAware <;> rfl

/-- A frame that comes in while the relay is up is a sighting if its port is learning. -/
theorem Knows.learn (h : Knows P agingTime seen s.now s.macTable)
    (hgate : arrivalGate < P.portCount) (hup : s.isOperational = true) (frame : EtherFrame) :
    ∃ table, s.learn P arrivalGate frame = .ok { s with macTable := table } ∧
      Knows P agingTime (sight P seen s (.ifIn arrivalGate frame)) s.now table := by
  have hsight : sight P seen s (.ifIn arrivalGate frame) =
      if s.learnsOn P arrivalGate then ⟨frame.src, arrivalGate, s.now⟩ :: seen else seen := by
    rw [sight, hup]
    rfl
  rw [Ieee8021dRelay.learn, getPortInterfaceData_eq hgate, hsight]
  show ∃ table, (if (!P.isStpAware || (s.portData P arrivalGate).any PortInfo.isLearning) = true
    then _ else _) = _ ∧ _
  rw [isLearning_portData]
  split_ifs
  · exact h.learnAddress hgate frame.src
  · exact ⟨s.macTable, rfl, h⟩

/-- The relay takes the frame for a BPDU. -/
def TakenForBPDU (P : RelayParameters) (s : Ieee8021dRelay) (arrivalGate : ℕ) (frame : EtherFrame) :
    Prop :=
  P.isStpAware = true ∧ (frame.dest = .STP_MULTICAST_ADDRESS ∨ frame.dest = s.bridgeAddress) ∧
    (s.port arrivalGate).role ≠ .disabled

theorem isForBridge_portData :
    s.isForBridge P (s.portData P i) frame = true ↔ TakenForBPDU P s i frame := by
  rw [isForBridge, decide_eq_true_eq, TakenForBPDU, portData]
  refine and_congr_right fun haware ↦ and_congr_right fun _ ↦ ?_
  rw [if_pos haware, Option.any_some, decide_eq_true_eq]

/-- What has been learned, and what is done then. -/
theorem Knows.handleAndDispatchFrame (h : Knows P agingTime seen s.now s.macTable)
    (hgate : arrivalGate < P.portCount) (hup : s.isOperational = true) (frame : EtherFrame) :
    ∃ table, s.handleAndDispatchFrame P arrivalGate frame =
        dispatchFrame P arrivalGate (s.portData P arrivalGate) frame { s with macTable := table } ∧
      Knows P agingTime (sight P seen s (.ifIn arrivalGate frame)) s.now table := by
  obtain ⟨table, hok, hknows⟩ := h.learn hgate hup frame
  refine ⟨table, ?_, hknows⟩
  rw [Ieee8021dRelay.handleAndDispatchFrame, getPortInterfaceData_eq hgate]
  show (s.learn P arrivalGate frame >>= _) = _
  rw [hok]
  rfl

/-- What a frame leaves alone. -/
structure FrameKeeps (P : RelayParameters) (agingTime : SimTime) (seen : List Sighting)
    (s s' : Ieee8021dRelay) : Prop where
  now : s'.now = s.now
  knows : Knows P agingTime seen s.now s'.macTable

theorem Knows.dispatchFrame (h : Knows P agingTime seen s.now s.macTable)
    (hok : s.dispatchFrame P arrivalGate (s.portData P arrivalGate) frame = .ok s') :
    FrameKeeps P agingTime seen s s' := by
  rw [Ieee8021dRelay.dispatchFrame] at hok
  split_ifs at hok with hbridge hforwards hbroadcast
  · rw [deliverBPDU] at hok
    split at hok
    · obtain rfl := Except.ok.inj hok
      exact ⟨rfl, h⟩
    · cases hok
  · obtain rfl := Except.ok.inj hok
    exact ⟨rfl, h⟩
  · rw [broadcast_eq] at hok
    obtain rfl := Except.ok.inj hok
    exact ⟨rfl, h⟩
  · obtain ⟨table, hok', hknows⟩ := h.lookUpAndForward hbroadcast arrivalGate
    obtain rfl := Except.ok.inj (hok'.symm.trans hok)
    exact ⟨rfl, hknows⟩

/-! ### Runs -/

/-- **One event** keeps what the table knows. -/
theorem Knows.handle {event : RelayEvent} (h : Knows P agingTime seen s.now s.macTable)
    (hallowed : s.Allowed P event) (hok : s.quiet.handle P event = .ok s') :
    Knows P agingTime (sight P seen s event) s'.now s'.macTable := by
  have hcleared : Knows P agingTime [] s.now s.macTable.clearTable := by
    obtain ⟨hvalid, hnone⟩ := MACAddressTable.valid_clearTable s.macTable
    refine ⟨hvalid, h.aging, fun x hx ↦ (by cases hx), fun address _ ↦ ?_⟩
    rw [hnone]
    trivial
  cases event with
  | advance t =>
    obtain rfl := Except.ok.inj hok
    exact h.advance hallowed
  | ifIn arrivalGate frame =>
    cases hup : s.isOperational with
    | false =>
      have hdown : s.quiet.handle P (.ifIn arrivalGate frame) = .ok s.quiet := by
        rw [Ieee8021dRelay.handle, if_pos]
        show (!s.isOperational) = true
        rw [hup]
        rfl
      obtain rfl := Except.ok.inj (hdown.symm.trans hok)
      rw [sight, hup]
      exact h
    | true =>
      have hdispatch : s.quiet.handle P (.ifIn arrivalGate frame) =
          s.quiet.handleAndDispatchFrame P arrivalGate frame := by
        rw [Ieee8021dRelay.handle, if_neg]
        show ¬ (!s.isOperational) = true
        rw [hup]
        exact Bool.false_ne_true
      have hquiet : Knows P agingTime seen s.quiet.now s.quiet.macTable := h
      obtain ⟨table, hframe, hknows⟩ := hquiet.handleAndDispatchFrame hallowed hup frame
      rw [hdispatch, hframe] at hok
      have hkeeps := Knows.dispatchFrame (s := { s.quiet with macTable := table }) hknows hok
      rw [hkeeps.now]
      exact hkeeps.knows
  | stpIn bpdu controlInfo =>
    rw [Ieee8021dRelay.handle, dispatchBPDU] at hok
    split_ifs at hok <;> obtain rfl := Except.ok.inj hok <;> exact h
  | changePorts port =>
    obtain rfl := Except.ok.inj hok
    exact h
  | start =>
    rw [Ieee8021dRelay.handle, start] at hok
    split at hok
    · obtain rfl := Except.ok.inj hok
      exact hcleared
    · cases hok
  | stop =>
    obtain rfl := Except.ok.inj hok
    exact hcleared

/-- The lines of the file are for ports that exist. -/
def FileFits (P : RelayParameters) (addressTableFile : List (ℕ × MACAddress × ℤ)) : Prop :=
  ∀ line ∈ addressTableFile, line.1 = 0 → 0 ≤ line.2.2 ∧ line.2.2 < P.portCount

/-- The file makes the table and the sightings agree at the start. -/
theorem knows_initialized (hfile : FileFits P addressTableFile)
    (hok : MACAddressTable.initialized agingTime addressTableFile = .ok table) :
    Knows P agingTime (fileSightings addressTableFile) 0 table := by
  obtain ⟨table', hok', hvalid, haging, -, -, hlookup⟩ :=
    MACAddressTable.initialized_ok agingTime addressTableFile
  obtain rfl := Except.ok.inj (hok'.symm.trans hok)
  refine ⟨hvalid, haging, fun x hx ↦ ?_, fun address _ ↦ ?_⟩
  · obtain ⟨line, hline, rfl⟩ := List.mem_map.1 hx
    rw [List.mem_filter, List.mem_reverse, decide_eq_true_eq] at hline
    have hrange := hfile line hline.1 hline.2
    show line.2.2.toNat < P.portCount
    omega
  · rw [hlookup, MACAddressTable.fileEntry, fileSightings, List.find?_map, List.find?_filter]
    simp only [Function.comp_apply, decide_eq_true_eq]
    cases hfind : addressTableFile.reverse.find? fun line ↦ line.1 = 0 ∧ line.2.1 = address with
    | none => trivial
    | some line =>
      have hline : line.1 = 0 ∧ line.2.1 = address := by simpa using List.find?_some hfind
      have hmem := List.mem_reverse.1 (List.mem_of_find?_eq_some hfind)
      exact ⟨(Int.toNat_of_nonneg (hfile line hmem hline.1).1).symm, rfl⟩

/-- **The table agrees with what has been seen**, after any events. -/
theorem knows_of_run {tr : List (Transition Ieee8021dRelay RelayEvent Unit)}
    (h : (system P agingTime addressTableFile).Run tr s) (hfile : FileFits P addressTableFile) :
    Knows P agingTime (sightings P addressTableFile tr) s.now s.macTable := by
  refine h.history (P := fun tr s ↦
    Knows P agingTime (sightings P addressTableFile tr) s.now s.macTable) (fun s hinit ↦ ?_)
    fun tr s event _ s' _ hs hstep ↦ ?_
  · obtain ⟨isUp, port, table, htable, hinit⟩ := hinit
    have hknows := knows_initialized hfile htable
    rw [initialized] at hinit
    split_ifs at hinit
    · split at hinit
      · obtain rfl := Except.ok.inj hinit
        exact hknows
      · cases hinit
    · obtain rfl := Except.ok.inj hinit
      exact hknows
  · rw [sightings, List.foldl_append]
    exact hs.handle hstep.1 hstep.2

/-- A frame for an address goes by the rule, whatever has happened before. What counts is what has
been seen since the last start or stop, the frame itself included. -/
theorem sent_eq_lastSeenRule {tr : List (Transition Ieee8021dRelay RelayEvent Unit)}
    (h : (system P agingTime addressTableFile).Run tr s) (hfile : FileFits P addressTableFile)
    (hgate : arrivalGate < P.portCount) (hup : s.isOperational = true)
    (hdest : frame.dest ≠ .BROADCAST_ADDRESS) (hbpdu : ¬ TakenForBPDU P s arrivalGate frame)
    (hforwards : s.forwardsOn P arrivalGate = true) :
    ∃ s', (system P agingTime addressTableFile).Step s (.ifIn arrivalGate frame) () s' ∧
      s'.delivered = [] ∧ s'.sent = s.lastSeenRule P agingTime
        (sight P (sightings P addressTableFile tr) s (.ifIn arrivalGate frame)) arrivalGate
          frame := by
  have hknows : Knows P agingTime (sightings P addressTableFile tr) s.now s.macTable :=
    knows_of_run h hfile
  obtain ⟨table, hframe, hlearned⟩ :=
    Knows.handleAndDispatchFrame (s := s.quiet) hknows hgate hup frame
  obtain ⟨table', hok, -⟩ := Knows.lookUpAndForward (s := { s.quiet with macTable := table })
    hlearned hdest arrivalGate
  refine ⟨sending { s.quiet with macTable := table' } (s.lastSeenRule P agingTime
    (sight P (sightings P addressTableFile tr) s (.ifIn arrivalGate frame)) arrivalGate frame),
    ⟨hgate, ?_⟩, rfl, rfl⟩
  have hdown : ¬ (!s.quiet.isOperational) = true := by
    show ¬ (!s.isOperational) = true
    rw [hup]
    exact Bool.false_ne_true
  have hnotForBridge : ¬ isForBridge P (s.portData P arrivalGate) frame
      { s.quiet with macTable := table } = true := fun h ↦ hbpdu (isForBridge_portData.1 h)
  have hforwards' : ¬ (!isForwarding P (s.portData P arrivalGate)) = true := by
    rw [isForwarding_portData, hforwards]
    exact Bool.false_ne_true
  rw [handle, if_neg hdown, hframe]
  show dispatchFrame P arrivalGate (s.portData P arrivalGate) frame _ = _
  rw [dispatchFrame, if_neg hnotForBridge, if_neg hforwards', if_neg hdest]
  exact hok

/-! ### A small switch -/

/-- A switch with three ports and without an STP module. -/
def smallSwitch : RelayParameters where
  isStpAware := false
  portCount := 3
  interfaceTable := [⟨false, ⟨0x0AAA00000001⟩⟩]
  portCount_lt := by decide

/-- The switch at the start. -/
def switchedOn : Ieee8021dRelay where
  isOperational := true
  bridgeAddress := ⟨0x0AAA00000001⟩
  macTable := .constructed (SimTime.ms 120000)
  port := fun _ ↦ {}

/-- An event in the small switch. -/
def smallStep (s : Ieee8021dRelay) (event : RelayEvent) : Except RelayError Ieee8021dRelay :=
  s.quiet.handle smallSwitch event

instance (s : Ieee8021dRelay) : DecidablePred (s.Allowed P)
  | .advance t => inferInstanceAs (Decidable (s.now ≤ t))
  | .ifIn arrivalGate _ => inferInstanceAs (Decidable (arrivalGate < P.portCount))
  | .stpIn _ _ | .changePorts _ | .start | .stop => inferInstanceAs (Decidable True)

/-- What events do to the small switch. -/
def trace (events : List RelayEvent) : List (Transition Ieee8021dRelay RelayEvent Unit) :=
  TransitionSystem.transitionsOf (TransitionSystem.orStay smallStep) switchedOn events

/-- The small switch after some events. -/
def after (events : List RelayEvent) : Ieee8021dRelay :=
  TransitionSystem.stateAfter (TransitionSystem.orStay smallStep) switchedOn events

theorem run_trace (events : List RelayEvent)
    (h : ∀ t ∈ trace events, t.pre.Allowed smallSwitch t.input ∧
      (smallStep t.pre t.input).toOption.isSome) :
    (system smallSwitch (SimTime.ms 120000) []).Run (trace events) (after events) :=
  .ofFallible (C := fun s event ↦ s.Allowed smallSwitch event) ⟨true, fun _ ↦ {}, _, rfl, rfl⟩
    (fun _ _ _ hallowed hok ↦ ⟨hallowed, hok⟩) fun t ht ↦ ⟨(h t ht).1, eq_ok_getD (h t ht).2 _⟩

/-- A frame and the answer to it. -/
def hello : EtherFrame :=
  ⟨⟨10⟩, ⟨11⟩, .data []⟩

/-- The answer. -/
def answer : EtherFrame :=
  ⟨⟨11⟩, ⟨10⟩, .data []⟩

/-- The answer goes to the port where the frame came from. -/
theorem sent_eq_lastSeenRule_answer : ∃ s', (system smallSwitch (SimTime.ms 120000) []).Step
    (after [.ifIn 1 hello]) (.ifIn 0 answer) () s' ∧ s'.delivered = [] ∧
      s'.sent = [(answer, 1)] := by
  have hdest : answer.dest ≠ .BROADCAST_ADDRESS := by decide
  obtain ⟨s', hstep, hdelivered, hsent⟩ := sent_eq_lastSeenRule
    (run_trace [.ifIn 1 hello] (by decide +kernel)) (fun _ h ↦ by cases h) (Nat.zero_lt_succ 2)
    (by decide +kernel) hdest (fun h ↦ by cases h.1) (by decide +kernel)
  refine ⟨s', hstep, hdelivered, hsent.trans ?_⟩
  decide +kernel

/-- What has been seen in a run, whether or not the relay has been stopped and started since. -/
def everSeen (P : RelayParameters) (tr : List (Transition Ieee8021dRelay RelayEvent Unit)) :
    List Sighting :=
  tr.foldl (fun seen t ↦
    match t.input with
    | .ifIn arrivalGate frame => sight P seen t.pre (.ifIn arrivalGate frame)
    | _ => seen) []

/-- After a stop and a start the answer is flooded. -/
theorem not_sent_eq_lastSeenRule_restarted :
    ¬ ∀ (P : RelayParameters) (agingTime : SimTime)
      (tr : List (Transition Ieee8021dRelay RelayEvent Unit)) (s : Ieee8021dRelay) (arrivalGate : ℕ)
      (frame : EtherFrame), (system P agingTime []).Run tr s → arrivalGate < P.portCount →
        s.isOperational = true → frame.dest ≠ .BROADCAST_ADDRESS →
          ¬ TakenForBPDU P s arrivalGate frame → s.forwardsOn P arrivalGate = true →
            ∃ s', (system P agingTime []).Step s (.ifIn arrivalGate frame) () s' ∧
              s'.delivered = [] ∧ s'.sent = s.lastSeenRule P agingTime
                (sight P (everSeen P tr) s (.ifIn arrivalGate frame)) arrivalGate frame := by
  intro h
  obtain ⟨s', ⟨-, hok⟩, -, hsent⟩ := h smallSwitch (SimTime.ms 120000)
    (trace [.ifIn 1 hello, .stop, .start]) (after [.ifIn 1 hello, .stop, .start]) 0 answer
    (run_trace _ (by decide +kernel)) (by decide) (by decide +kernel) (by decide)
    (fun h ↦ by cases h.1) (by decide +kernel)
  have hflooded : (smallStep (after [.ifIn 1 hello, .stop, .start]) (.ifIn 0 answer)).toOption.map
      sent = some [(answer, 1), (answer, 2)] := by decide +kernel
  rw [smallStep, hok] at hflooded
  have hone := hsent.symm.trans (Option.some.inj hflooded)
  revert hone
  decide +kernel

end Ieee8021dRelay

end Inet
