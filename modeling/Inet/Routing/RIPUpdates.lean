import Inet.Routing.RIPOwnRoutes

/-!
# What an update lists

`sendRoutes` walks over the vector of the routes and checks each of them. A route whose time has
come is erased from the vector meanwhile; the walk goes on to the next position and to the old end,
so that it misses the route that has moved up, and at last reads what stands behind the new end.
Only the last route can be erased without harm (`exactUpdate_iff`).
-/

namespace Inet

namespace RIPRouting

variable {P : RIPParameters} {address : L3Address} {port : ℕ} {ripInterface : RIPInterfaceEntry}
  {changedOnly : Bool} {s s' s'' : RIPRouting} {p q r : ℕ} {packet packet' packet'' : List RIPEntry}

/-! ### Time -/

/-- A learned route that is not valid any more. -/
def IsExpired (P : RIPParameters) (s : RIPRouting) (p : ℕ) : Prop :=
  (s.ripRoute p).type = .rte ∧ (s.ripRoute p).lastUpdateTime + P.routeExpiryTime ≤ s.now

/-- A learned route that is to be forgotten. -/
def IsPurgeable (P : RIPParameters) (s : RIPRouting) (p : ℕ) : Prop :=
  (s.ripRoute p).type = .rte ∧
    (s.ripRoute p).lastUpdateTime + P.routeExpiryTime + P.routePurgeTime ≤ s.now

instance : Decidable (IsExpired P s p) :=
  inferInstanceAs (Decidable (_ ∧ _))

instance : Decidable (IsPurgeable P s p) :=
  inferInstanceAs (Decidable (_ ∧ _))

theorem IsPurgeable.isExpired (h : IsPurgeable P s p) : IsExpired P s p :=
  ⟨h.1, (Nat.le_add_right _ _).trans h.2⟩

theorem checkRouteIsExpired_eq (p : ℕ) (s : RIPRouting) : s.checkRouteIsExpired P p =
    if IsPurgeable P s p then (false, s.purgeRoute P p)
    else if IsExpired P s p then (false, s.invalidateRoute P p)
    else (true, s) := by
  rw [checkRouteIsExpired]
  simp only [IsPurgeable, IsExpired]
  by_cases htype : (s.ripRoute p).type = .rte
  · simp only [htype, if_true, true_and]
  · simp only [htype, if_false, false_and]

/-- A learned route that loses its link takes no other with it. -/
theorem unlinkRoute_of_rte (h : Sound s) (htype : (s.ripRoute p).type = .rte) :
    Sound (s.unlinkRoute P p) ∧ (s.unlinkRoute P p).now = s.now ∧
      (s.unlinkRoute P p).sent = s.sent ∧
      ∀ q, q ≠ p → (s.unlinkRoute P p).ripRoute q = s.ripRoute q := by
  refine ⟨h.unlinkRoute p, ?_⟩
  rw [unlinkRoute]
  cases hr : (s.ripRoute p).route with
  | none => exact ⟨rfl, rfl, fun _ _ ↦ rfl⟩
  | some r =>
    have hfades := fades_deleteRoute (P := P) r (s.setRipRoute p fun x ↦ { x with route := none })
    refine ⟨hfades.now, hfades.sent, fun q hq ↦ ?_⟩
    rw [deleteRoute_ripRoute, setRipRoute_of_ne _ _ hq, if_neg]
    rintro ⟨-, -, e, he, hsource⟩
    exact hsource ((h.own p r htype hr).2 e he)

/-! ### Packets -/

/-- A response that the module sends. -/
def response (P : RIPParameters) (address : L3Address) (port : ℕ) (ripInterface : RIPInterfaceEntry)
    (entry : List RIPEntry) : RIPPacket :=
  ⟨.response, entry, address, port, if P.isMulticast address then some ripInterface.ie else none⟩

/-- Some packets have been sent, none of which is empty or too long. With what is in the packet that
is being filled, they list the given entries. -/
def Lists (P : RIPParameters) (address : L3Address) (port : ℕ) (ripInterface : RIPInterfaceEntry)
    (packet : List RIPEntry) (s : RIPRouting) (entries packet' : List RIPEntry) (s' : RIPRouting) :
    Prop :=
  ∃ packets : List (List RIPEntry),
    s'.sent = s.sent ++ packets.map (response P address port ripInterface) ∧
      packets.flatten ++ packet' = packet ++ entries ∧
      ∀ x ∈ packets, 1 ≤ x.length ∧ x.length ≤ maxEntries P ripInterface.ie

theorem Lists.of_sent (h : s'.sent = s.sent) :
    Lists P address port ripInterface packet s [] packet s' := by
  refine ⟨[], ?_, ?_, List.forall_mem_nil _⟩
  · rw [h, List.map_nil, List.append_nil]
  · rw [List.flatten_nil, List.nil_append, List.append_nil]

theorem Lists.trans {entries entries' : List RIPEntry}
    (h : Lists P address port ripInterface packet s entries packet' s')
    (h' : Lists P address port ripInterface packet' s' entries' packet'' s'') :
    Lists P address port ripInterface packet s (entries ++ entries') packet'' s'' := by
  obtain ⟨packets, hsent, hlisted, hlength⟩ := h
  obtain ⟨packets', hsent', hlisted', hlength'⟩ := h'
  refine ⟨packets ++ packets', ?_, ?_, fun x hx ↦ ?_⟩
  · rw [hsent', hsent, List.map_append, List.append_assoc]
  · rw [List.flatten_append, List.append_assoc, hlisted', ← List.append_assoc, hlisted,
      List.append_assoc]
  · exact (List.mem_append.1 hx).elim (hlength x) (hlength' x)

/-- The entry of a route, unless the route is left out or expired. -/
def listed (P : RIPParameters) (ripInterface : RIPInterfaceEntry) (changedOnly : Bool)
    (s : RIPRouting) (p : ℕ) : Option RIPEntry :=
  if IsExpired P s p then none else routeEntry ripInterface changedOnly (s.ripRoute p)

/-! ### A turn of the loop -/

/-- What the loop of `sendRoutes` does with a route. -/
def sendTurn (P : RIPParameters) (address : L3Address) (port : ℕ) (ripInterface : RIPInterfaceEntry)
    (changedOnly : Bool) (p : ℕ) (packet : List RIPEntry) (s : RIPRouting) :
    Except RIPError (List RIPEntry × RIPRouting) :=
  let s' := (s.checkRouteIsExpired P p).2
  if (s.checkRouteIsExpired P p).1 then
    match routeEntry ripInterface changedOnly (s'.ripRoute p) with
    | some e => s'.fillEntry P address port ripInterface.ie packet e
    | none => .ok (packet, s')
  else .ok (packet, s')

theorem sendLoop_succ (n i : ℕ) (behind : List ℕ) (packet : List RIPEntry) (s : RIPRouting) :
    s.sendLoop P address port ripInterface changedOnly (n + 1) i behind packet =
      match (s.ripRoutes ++ behind)[i]? with
      | none => .error .danglingPointer
      | some p =>
        if p ∈ s.ripRoutes then do
          let x ← s.sendTurn P address port ripInterface changedOnly p packet
          x.2.sendLoop P address port ripInterface changedOnly n (i + 1)
            (s.ripRoutes.drop (s.checkRouteIsExpired P p).2.ripRoutes.length ++ behind) x.1
        else .error .danglingPointer := by
  rw [sendLoop]
  cases (s.ripRoutes ++ behind)[i]? with
  | none => rfl
  | some p =>
    simp only [sendTurn]
    split_ifs
    · cases routeEntry ripInterface changedOnly ((s.checkRouteIsExpired P p).2.ripRoute p) with
      | none => rfl
      | some e => rfl
    · rfl
    · rfl

/-- What the loop of `sendRoutes` reads: the route at each position, and whether the position is one
of the vector. -/
def sendReads (P : RIPParameters) (address : L3Address) (port : ℕ) (ripInterface : RIPInterfaceEntry)
    (changedOnly : Bool) : ℕ → ℕ → List ℕ → List RIPEntry → RIPRouting → List (ℕ × Bool)
  | 0, _, _, _, _ => []
  | n + 1, i, behind, packet, s =>
    match (s.ripRoutes ++ behind)[i]? with
    | none => []
    | some p =>
      (p, decide (i < s.ripRoutes.length)) ::
        if p ∈ s.ripRoutes then
          match s.sendTurn P address port ripInterface changedOnly p packet with
          | .ok x => sendReads P address port ripInterface changedOnly n (i + 1)
              (s.ripRoutes.drop (s.checkRouteIsExpired P p).2.ripRoutes.length ++ behind) x.1 x.2
          | .error _ => []
        else []

/-- What a turn leaves. -/
structure Turned (P : RIPParameters) (address : L3Address) (port : ℕ)
    (ripInterface : RIPInterfaceEntry) (changedOnly : Bool) (p : ℕ) (packet : List RIPEntry)
    (s : RIPRouting) (x : List RIPEntry × RIPRouting) : Prop where
  sound : Sound x.2
  now : x.2.now = s.now
  ripRoutes : x.2.ripRoutes = if IsPurgeable P s p then s.ripRoutes.erase p else s.ripRoutes
  checked : (s.checkRouteIsExpired P p).2.ripRoutes = x.2.ripRoutes
  ripRoute : ∀ q, q ≠ p → x.2.ripRoute q = s.ripRoute q
  lists : Lists P address port ripInterface packet s
    (listed P ripInterface changedOnly s p).toList x.1 x.2
  length_lt : x.1.length < maxEntries P ripInterface.ie

theorem fillEntry_lists (address : L3Address) (port : ℕ) (s : RIPRouting) (e : RIPEntry)
    (hlt : packet.length < maxEntries P ripInterface.ie) :
    ∃ packet' sent, s.fillEntry P address port ripInterface.ie packet e =
        .ok (packet', { s with sent := sent }) ∧
      Lists P address port ripInterface packet s [e] packet' { s with sent := sent } ∧
      packet'.length < maxEntries P ripInterface.ie := by
  have hpos := Nat.zero_lt_of_lt hlt
  have hadded : (packet ++ [e]).length = packet.length + 1 := by
    rw [List.length_append, List.length_singleton]
  rw [fillEntry, if_neg hpos.ne']
  split_ifs with hfull
  · refine ⟨[], _, rfl, ⟨[packet ++ [e]], rfl, ?_, fun x hx ↦ ?_⟩, hpos⟩
    · rw [List.flatten_singleton, List.append_nil]
    · rw [List.mem_singleton.1 hx, hadded]
      exact ⟨Nat.le_add_left _ _, hlt⟩
  · refine ⟨packet ++ [e], s.sent, rfl, ⟨[], ?_, rfl, List.forall_mem_nil _⟩, ?_⟩
    · rw [List.map_nil, List.append_nil]
    · rw [hadded]
      exact not_le.1 hfull

/-- **One turn.** -/
theorem sendTurn_spec (address : L3Address) (port : ℕ) (changedOnly : Bool) (p : ℕ) (h : Sound s)
    (hlt : packet.length < maxEntries P ripInterface.ie) :
    ∃ x, s.sendTurn P address port ripInterface changedOnly p packet = .ok x ∧
      Turned P address port ripInterface changedOnly p packet s x := by
  have hcheck := checkRouteIsExpired_eq (P := P) p s
  rw [sendTurn]
  by_cases hexpired : IsExpired P s p
  · have hlisted : listed P ripInterface changedOnly s p = none := if_pos hexpired
    obtain ⟨hsound, hnow, hsent, hother⟩ := unlinkRoute_of_rte (P := P) h hexpired.1
    by_cases hpurgeable : IsPurgeable P s p
    · rw [if_pos hpurgeable] at hcheck
      rw [hcheck]
      refine ⟨_, rfl, h.purgeRoute p, hnow, ?_, ?_, hother, ?_, hlt⟩
      · rw [if_pos hpurgeable]
        exact congrArg (List.erase · p) (unlinkRoute_ripRoutes p s)
      · rw [hcheck]
      · rw [hlisted]
        exact .of_sent hsent
    · rw [if_neg hpurgeable, if_pos hexpired] at hcheck
      rw [hcheck]
      have hfades := fades_invalidateUnlinked (P := P) p (s.unlinkRoute P p)
      refine ⟨_, rfl, h.invalidateRoute p, hfades.now.trans hnow, ?_, ?_, fun q hq ↦ ?_, ?_, hlt⟩
      · rw [if_neg hpurgeable]
        exact invalidateRoute_ripRoutes p s
      · rw [hcheck]
      · show (RIPRouting.invalidateUnlinked P p _).ripRoute q = _
        rw [invalidateUnlinked_ripRoute, Function.update_of_ne hq]
        exact hother q hq
      · rw [hlisted]
        exact .of_sent (hfades.sent.trans hsent)
  · have hpurgeable : ¬ IsPurgeable P s p := fun hp ↦ hexpired hp.isExpired
    have hlisted : listed P ripInterface changedOnly s p =
        routeEntry ripInterface changedOnly (s.ripRoute p) := if_neg hexpired
    rw [if_neg hpurgeable, if_neg hexpired] at hcheck
    rw [hcheck]
    simp only [if_true]
    cases he : routeEntry ripInterface changedOnly (s.ripRoute p) with
    | none =>
      refine ⟨_, rfl, h, rfl, (if_neg hpurgeable).symm, ?_, fun _ _ ↦ rfl, ?_, hlt⟩
      · rw [hcheck]
      · rw [hlisted, he]
        exact .of_sent rfl
    | some e =>
      obtain ⟨packet', sent, hfill, hlists, hlt'⟩ :=
        fillEntry_lists address port s e hlt
      refine ⟨_, hfill, h.congr rfl rfl rfl rfl rfl, rfl, (if_neg hpurgeable).symm, ?_,
        fun _ _ ↦ rfl, ?_, hlt'⟩
      · rw [hcheck]
      · rw [hlisted, he]
        exact hlists

/-! ### The loop -/

theorem Turned.listed_eq {x : List RIPEntry × RIPRouting}
    (h : Turned P address port ripInterface changedOnly p packet s x) (hq : q ≠ p) :
    listed P ripInterface changedOnly x.2 q = listed P ripInterface changedOnly s q := by
  have hexpired : IsExpired P x.2 q ↔ IsExpired P s q := by
    rw [IsExpired, IsExpired, h.ripRoute q hq, h.now]
  rw [listed, listed, h.ripRoute q hq]
  exact if_congr hexpired rfl rfl

theorem Turned.isPurgeable_iff {x : List RIPEntry × RIPRouting}
    (h : Turned P address port ripInterface changedOnly p packet s x) (hq : q ≠ p) :
    IsPurgeable P x.2 q ↔ IsPurgeable P s q := by
  rw [IsPurgeable, IsPurgeable, h.ripRoute q hq, h.now]

/-- The position at which the loop is. -/
theorem getElem?_of_drop {l todo : List ℕ} {i : ℕ} (h : l.drop i = p :: todo) :
    l[i]? = some p ∧ l.drop (i + 1) = todo ∧ i < l.length := by
  have hget : l[i]? = some p := by
    rw [← Nat.add_zero i, ← List.getElem?_drop, h]
    rfl
  refine ⟨hget, ?_, (List.getElem?_eq_some_iff.1 hget).1⟩
  rw [← List.tail_drop, h]
  rfl

/-- **The loop** from position `i` on, if at most the last route is erased. -/
theorem sendLoop_spec (address : L3Address) (port : ℕ) (changedOnly : Bool) (packet : List RIPEntry)
    {todo : List ℕ} {i : ℕ} (h : Sound s)
    (hlt : packet.length < maxEntries P ripInterface.ie) (htodo : s.ripRoutes.drop i = todo)
    (hlive : ∀ p ∈ todo.dropLast, ¬ IsPurgeable P s p) :
    ∃ x, s.sendLoop P address port ripInterface changedOnly todo.length i [] packet = .ok x ∧
      Lists P address port ripInterface packet s
        (todo.filterMap (listed P ripInterface changedOnly s)) x.1 x.2 ∧
      x.1.length < maxEntries P ripInterface.ie ∧
      s.sendReads P address port ripInterface changedOnly todo.length i [] packet =
        todo.map fun p ↦ (p, true) := by
  induction todo generalizing i packet s with
  | nil => exact ⟨(packet, s), rfl, .of_sent rfl, hlt, rfl⟩
  | cons p todo ih =>
    obtain ⟨hget, hrest, hi⟩ := getElem?_of_drop htodo
    have hp : p ∈ s.ripRoutes := List.mem_of_getElem? hget
    have hfresh : p ∉ todo := by
      have hnodup := h.nodup.sublist (List.drop_sublist i s.ripRoutes)
      rw [htodo] at hnodup
      exact (List.nodup_cons.1 hnodup).1
    obtain ⟨x, hturn, hx⟩ := sendTurn_spec address port changedOnly p h hlt
    have hother (q : ℕ) (hq : q ∈ todo) : q ≠ p := ne_of_mem_of_not_mem hq hfresh
    rw [List.length_cons, sendLoop_succ, sendReads, List.append_nil, hget]
    simp only [if_pos hp, hturn, decide_eq_true hi, List.map_cons, List.append_nil]
    -- the rest of the walk is that of a table of the same length
    have hwalk : ∃ y, x.2.sendLoop P address port ripInterface changedOnly todo.length (i + 1)
          (s.ripRoutes.drop (s.checkRouteIsExpired P p).2.ripRoutes.length) x.1 = .ok y ∧
        Lists P address port ripInterface x.1 x.2
          (todo.filterMap (listed P ripInterface changedOnly x.2)) y.1 y.2 ∧
        y.1.length < maxEntries P ripInterface.ie ∧
        x.2.sendReads P address port ripInterface changedOnly todo.length (i + 1)
          (s.ripRoutes.drop (s.checkRouteIsExpired P p).2.ripRoutes.length) x.1 =
            todo.map fun p ↦ (p, true) := by
      cases todo with
      | nil => exact ⟨x, rfl, .of_sent rfl, hx.length_lt, rfl⟩
      | cons p' todo =>
        have hkept : ¬ IsPurgeable P s p := hlive p List.mem_cons_self
        have hroutes : x.2.ripRoutes = s.ripRoutes := hx.ripRoutes.trans (if_neg hkept)
        rw [hx.checked, hroutes, List.drop_length]
        refine ih _ hx.sound hx.length_lt (hroutes ▸ hrest) fun q hq ↦ ?_
        rw [hx.isPurgeable_iff (hother q ((List.dropLast_sublist _).subset hq))]
        exact hlive q (List.mem_cons_of_mem _ hq)
    obtain ⟨y, hloop, hlists, hlength, hreads⟩ := hwalk
    refine ⟨y, hloop, ?_, hlength, congrArg _ hreads⟩
    rw [List.filterMap_congr fun q hq ↦ hx.listed_eq (hother q hq)] at hlists
    have htogether := hx.lists.trans hlists
    cases hlisted : listed P ripInterface changedOnly s p with
    | none =>
      rw [hlisted] at htogether
      rwa [List.filterMap_cons_none hlisted]
    | some e =>
      rw [hlisted] at htogether
      rwa [List.filterMap_cons_some hlisted]

/-- The vector does not grow. -/
theorem Turned.length_le {x : List RIPEntry × RIPRouting}
    (h : Turned P address port ripInterface changedOnly p packet s x) :
    x.2.ripRoutes.length ≤ s.ripRoutes.length := by
  rw [h.ripRoutes]
  split_ifs
  exacts [List.length_erase_le, le_rfl]

/-- The first thing that is read. -/
theorem sendReads_eq_cons {n i : ℕ} {behind : List ℕ} {rest : List (ℕ × Bool)} (h : Sound s)
    (hlt : packet.length < maxEntries P ripInterface.ie)
    (hreads : s.sendReads P address port ripInterface changedOnly (n + 1) i behind packet =
      (p, true) :: rest) :
    i < s.ripRoutes.length ∧ ∃ x, Turned P address port ripInterface changedOnly p packet s x ∧
      (rest = [] ∨ rest = x.2.sendReads P address port ripInterface changedOnly n (i + 1)
        (s.ripRoutes.drop (s.checkRouteIsExpired P p).2.ripRoutes.length ++ behind) x.1) := by
  rw [sendReads] at hreads
  cases hget : (s.ripRoutes ++ behind)[i]? with
  | none =>
    rw [hget] at hreads
    cases hreads
  | some p' =>
    rw [hget] at hreads
    obtain ⟨hhead, htail⟩ := List.cons_eq_cons.1 hreads
    obtain ⟨rfl, hinside⟩ := Prod.ext_iff.1 hhead
    obtain ⟨x, hturn, hx⟩ := sendTurn_spec address port changedOnly p' h hlt
    refine ⟨of_decide_eq_true hinside, x, hx, ?_⟩
    rw [hturn] at htail
    simp only at htail
    split_ifs at htail
    exacts [.inr htail.symm, .inl htail.symm]

/-- The last position that is read is one of the vector, if all are. -/
theorem lt_length_of_sendReads {n i : ℕ} {behind todo : List ℕ} (h : Sound s)
    (hlt : packet.length < maxEntries P ripInterface.ie) (htodo : todo.length = n + 1)
    (hreads : s.sendReads P address port ripInterface changedOnly (n + 1) i behind packet =
      todo.map fun p ↦ (p, true)) : i + n < s.ripRoutes.length := by
  induction n generalizing i behind todo packet s with
  | zero =>
    obtain ⟨p, rfl⟩ := List.length_eq_one_iff.1 htodo
    exact (sendReads_eq_cons h hlt hreads).1
  | succ n ih =>
    obtain ⟨p, todo, rfl⟩ := List.exists_cons_of_length_eq_add_one htodo
    obtain ⟨-, x, hx, hrest⟩ := sendReads_eq_cons h hlt hreads
    have hlength : todo.length = n + 1 := Nat.succ.inj htodo
    rcases hrest with hrest | hrest
    · rw [List.map_eq_nil_iff.1 hrest] at hlength
      cases hlength
    · have hlast := ih hx.sound hx.length_lt hlength hrest.symm
      have hle := hx.length_le
      omega

/-- A route that is not the last is not erased if the walk stays in the vector. -/
theorem not_isPurgeable_of_sendReads (packet : List RIPEntry) {todo : List ℕ} {i : ℕ} (h : Sound s)
    (hlt : packet.length < maxEntries P ripInterface.ie) (htodo : s.ripRoutes.drop i = todo)
    (hreads : s.sendReads P address port ripInterface changedOnly todo.length i [] packet =
      todo.map fun p ↦ (p, true)) : ∀ p ∈ todo.dropLast, ¬ IsPurgeable P s p := by
  induction todo generalizing i packet s with
  | nil => exact List.forall_mem_nil _
  | cons p todo ih =>
    cases todo with
    | nil => exact List.forall_mem_nil _
    | cons p' todo =>
      obtain ⟨hget, hrest, hi⟩ := getElem?_of_drop htodo
      have hp : p ∈ s.ripRoutes := List.mem_of_getElem? hget
      have hlength : s.ripRoutes.length = i + (todo.length + 2) := by
        have hdrop := congrArg List.length htodo
        rw [List.length_drop, List.length_cons, List.length_cons] at hdrop
        omega
      obtain ⟨-, x, hx, hnext⟩ := sendReads_eq_cons h hlt hreads
      replace hnext := hnext.resolve_left (by simp)
      have hlive : ¬ IsPurgeable P s p := by
        intro hpurgeable
        -- the vector has become too short for the last position
        have hlast := lt_length_of_sendReads hx.sound hx.length_lt rfl hnext.symm
        rw [hx.ripRoutes, if_pos hpurgeable, List.length_erase_of_mem hp, hlength] at hlast
        omega
      have hroutes : x.2.ripRoutes = s.ripRoutes := hx.ripRoutes.trans (if_neg hlive)
      rw [hx.checked, hroutes, List.drop_length, List.append_nil] at hnext
      rw [List.dropLast_cons_cons, List.forall_mem_cons]
      refine ⟨hlive, fun q hq ↦ ?_⟩
      have hnodup := h.nodup.sublist (List.drop_sublist i s.ripRoutes)
      rw [htodo] at hnodup
      have hother : q ≠ p := ne_of_mem_of_not_mem ((List.dropLast_sublist _).subset hq)
        (List.nodup_cons.1 hnodup).1
      rw [← hx.isPurgeable_iff hother]
      exact ih _ hx.sound hx.length_lt (hroutes ▸ hrest) hnext.symm q hq

/-! ### One call -/

/-- The states in which `sendRoutes` is called: in an event, or after it has been called for other
interfaces. -/
inductive Sending (P : RIPParameters) : RIPRouting → Prop
  | event {tr : List (Transition RIPRouting RIPEvent (List RIPPacket))} {s : RIPRouting}
      (updateTimer triggeredUpdateTimer : Option ℕ) (sent : List RIPPacket) :
      (system P).Run tr s → Sending P { s with
        updateTimer := updateTimer, triggeredUpdateTimer := triggeredUpdateTimer, sent := sent }
  | next {s s' : RIPRouting} {address : L3Address} {port : ℕ} {ripInterface : RIPInterfaceEntry}
      {changedOnly : Bool} : Sending P s →
      s.sendRoutes P address port ripInterface changedOnly = .ok s' → Sending P s'

theorem Sending.sound (h : Sending P s) : Sound s := by
  induction h with
  | event updateTimer triggeredUpdateTimer sent hrun =>
    exact (Sound.of_run hrun).congr rfl rfl rfl rfl rfl
  | next _ hsend ih => exact (ih.sendRoutes _ _ _ _).of_eq_ok hsend

/-- **An update lists the table exactly.** The packets that are sent contain the routes that are not
expired, and the loop reads each route once and nothing else. -/
structure ExactUpdate (P : RIPParameters) (address : L3Address) (port : ℕ)
    (ripInterface : RIPInterfaceEntry) (changedOnly : Bool) (s : RIPRouting) : Prop where
  sends : ∃ s', s.sendRoutes P address port ripInterface changedOnly = .ok s' ∧
    ∃ packets : List (List RIPEntry),
      s'.sent = s.sent ++ packets.map (response P address port ripInterface) ∧
      packets.flatten = s.ripRoutes.filterMap (listed P ripInterface changedOnly s) ∧
      ∀ packet ∈ packets, 1 ≤ packet.length ∧ packet.length ≤ maxEntries P ripInterface.ie
  reads : s.sendReads P address port ripInterface changedOnly s.ripRoutes.length 0 [] [] =
    s.ripRoutes.map fun p ↦ (p, true)

/-- An update lists the table exactly if and only if no route but the last one is to be forgotten.
-/
theorem exactUpdate_iff (address : L3Address) (port : ℕ) (changedOnly : Bool) (hs : Sending P s)
    (hpos : 1 ≤ maxEntries P ripInterface.ie) :
    ExactUpdate P address port ripInterface changedOnly s ↔
      ∀ p ∈ s.ripRoutes.dropLast, ¬ IsPurgeable P s p := by
  have h := hs.sound
  refine ⟨fun hexact ↦ ?_, fun hlive ↦ ?_⟩
  · exact not_isPurgeable_of_sendReads [] h hpos List.drop_zero hexact.reads
  obtain ⟨⟨packet, s'⟩, hloop, ⟨packets, hsent, hlisted, hlength⟩, hlt, hreads⟩ :=
    sendLoop_spec address port changedOnly [] h hpos List.drop_zero hlive
  refine ⟨?_, hreads⟩
  rw [List.nil_append] at hlisted
  rw [sendRoutes, hloop]
  by_cases hempty : packet = []
  · refine ⟨s', congrArg Except.ok (if_pos hempty), packets, hsent, ?_, hlength⟩
    rw [hempty, List.append_nil] at hlisted
    exact hlisted
  · refine ⟨_, congrArg Except.ok (if_neg hempty), packets ++ [packet], ?_, ?_, fun x hx ↦ ?_⟩
    · rw [List.map_append, ← List.append_assoc, ← hsent]
      rfl
    · rw [List.flatten_append, List.flatten_singleton]
      exact hlisted
    · rcases List.mem_append.1 hx with hx | hx
      · exact hlength x hx
      · rw [List.mem_singleton.1 hx]
        exact ⟨List.length_pos_of_ne_nil hempty, hlt.le⟩

/-- The first update of a router that has learned nothing. -/
theorem exactUpdate_twoNetworks :
    ExactUpdate RIPv2Parameters 1000 520 (defaultInterface 0) false twoNetworks := by
  have hsending : Sending RIPv2Parameters twoNetworks :=
    Sending.event (s := twoNetworks) _ _ _ (.nil twoNetworks_starts)
  exact (exactUpdate_iff 1000 520 false hsending (by decide)).2 (by decide)

instance (t : ℕ) : Decidable (s.Allowed (.advance t)) :=
  inferInstanceAs (Decidable (s.now ≤ t ∧ (∀ u ∈ s.updateTimer, t ≤ u) ∧
    ∀ u ∈ s.triggeredUpdateTimer, t ≤ u))

/-- Routes are soon forgotten. -/
def shortLivedParameters : RIPParameters :=
  { RIPv2Parameters with routeExpiryTime := 10, routePurgeTime := 10 }

/-- Network 30 is learned at the start, networks 40 and 50 just before the next regular update. -/
def forgottenInUpdate : List RIPEvent :=
  [neighbourHasRoute 30 3, .advance 3, .triggeredUpdateTimer, .advance 28,
    neighbourHasRoute 40 3, neighbourHasRoute 50 3, .advance 30]

/-- The route to network 30 is erased in the update: that to network 40 is skipped. -/
theorem not_exactUpdate_forgottenInUpdate :
    ¬ ∀ (P : RIPParameters) (s : RIPRouting) (address : L3Address) (port : ℕ)
        (ripInterface : RIPInterfaceEntry) (changedOnly : Bool), Sending P s →
      1 ≤ maxEntries P ripInterface.ie → ExactUpdate P address port ripInterface changedOnly s := by
  intro h
  have hrun : (system shortLivedParameters).Run
      (TransitionSystem.transitionsOf (after shortLivedParameters) twoNetworks forgottenInUpdate)
      (TransitionSystem.stateAfter (after shortLivedParameters) twoNetworks forgottenInUpdate) := by
    refine .ofInputs (C := fun s event ↦ s.Allowed event ∧
      ({ s with sent := [] }.handle shortLivedParameters event).toOption.isSome = true)
      (fun s event h ↦ step_after s event h.1 h.2) ⟨0, _, _, 2, rfl, by decide⟩ ?_
    simp only [forgottenInUpdate, TransitionSystem.transitionsOf, List.forall_mem_cons]
    refine ⟨⟨trivial, rfl⟩, ⟨by decide, rfl⟩, ⟨rfl, rfl⟩, ⟨by decide, rfl⟩, ⟨trivial, rfl⟩,
      ⟨trivial, rfl⟩, ⟨by decide, rfl⟩, List.forall_mem_nil _⟩
  have hexact := h shortLivedParameters _ 1000 520 (defaultInterface 0) false
    (Sending.event none none [] hrun) (by decide)
  exact absurd hexact.reads (by decide +kernel)

end RIPRouting

end Inet
