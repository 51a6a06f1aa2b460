import Inet.Ndn.ReversePath
import Inet.Ndn.Network
import Inet.Ndn.Provenance

/-!
# Requests of an application, inside a forwarder

An Interest of an application is a ticket with a number and a name. The forwarder keeps the ticket
as a PIT entry and gives it back as a Data or as a time-out notification; `Move.tickets` says that
it never gives back more than it was given, provided every Data it answers an application with
carries the number of the Interest it answers (`AnswersOwn`). That proviso can fail: a Data is
matched with an Interest by name alone, in the content store and in the PIT.
-/

namespace Inet.Ndn

open ForwardingBase (Event receiveSignal)

/-- The number and the name of a packet for an application, when it settles a request. -/
def settled : Packet → Option (ℕ × CString)
  | .data d => some (d.seqNo, d.name)
  | .interest i => if i.kind = TIMEOUT_CODE then some (i.seqNo, i.name) else none

/-- The number and the name of a packet from an application, when it is a request. -/
def requested : Packet → Option (ℕ × CString)
  | .interest i => if i.kind = REGISTER_PREFIX_CODE then none else some (i.seqNo, i.name)
  | .data _ => none

/-- The request of the application at a gate that an entry of the PIT stands for. -/
def ticket (face : ℕ) (e : PitEntry) : Option (ℕ × CString) :=
  if e.face = .upperLayerIn face then some (e.interest.seqNo, e.interest.name) else none

/-- The request an event brings from the application at a gate. -/
def requestedAt (face : ℕ) : Event → Option (ℕ × CString)
  | .packet packet _ _ => if packet.arrivalGate = .upperLayerIn face then requested packet else none
  | _ => none

theorem sentDown_append (face : ℕ) (fx fx' : List Effect) :
    sentDown face (fx ++ fx') = sentDown face fx ++ sentDown face fx' :=
  List.filterMap_append ..

theorem mem_sentDown {face : ℕ} {fx : List Effect} {p : Packet} :
    p ∈ sentDown face fx ↔ Effect.sendUpper p face ∈ fx := by
  unfold sentDown
  rw [List.mem_filterMap]
  constructor
  · rintro ⟨f, hf, hp⟩
    cases f with
    | sendUpper q face' =>
      by_cases hface : face' = face
      · simp only [if_pos hface, Option.some.injEq] at hp
        rwa [← hp, ← hface]
      · simp [hface] at hp
    | _ => cases hp
  · intro h
    exact ⟨_, h, by simp⟩

theorem mem_sentOut {fx : List Effect} {frame : Packet × Ieee802Ctrl} :
    frame ∈ sentOut fx ↔ ∃ mac face, Effect.sendLower frame.1 mac frame.2 face ∈ fx := by
  unfold sentOut
  rw [List.mem_filterMap]
  constructor
  · rintro ⟨f, hf, hp⟩
    cases f with
    | sendLower q mac ctrl face =>
      obtain rfl := Option.some.inj hp
      exact ⟨mac, face, hf⟩
    | _ => cases hp
  · rintro ⟨mac, face, h⟩
    exact ⟨_, h, rfl⟩

/-- A Data goes to the application whose Interest it answers. -/
theorem sentDown_answer (face : ℕ) (gate : Gate) (mac : MACAddress) (ctrl : Ieee802Ctrl)
    (d : Data) :
    sentDown face [.answer gate mac ctrl d] =
      if gate = .upperLayerIn face then [.data d] else [] := by
  cases gate with
  | lowerLayerIn index => simp [sentDown, Effect.answer]
  | upperLayerIn index => by_cases hindex : index = face <;> simp [sentDown, Effect.answer, hindex]

/-- An Interest that is sent on settles nothing, if it does not read as a notification. -/
theorem settled_of_forwards {send : Effect} {i : Interest} (h : send.Forwards i)
    (hkind : i.kind ≠ TIMEOUT_CODE) (face : ℕ) (k : ℕ × CString) (e : PitEntry) :
    keyCount settled k (sentDown face [.pitCreate e, send]) = 0 := by
  refine keyCount_eq_zero fun p hp ↦ ?_
  rcases List.mem_pair.1 (mem_sentDown.1 hp) with hp | hp
  · cases hp
  · have hsent := Effect.sent_of_forwards h
    rw [← hp] at hsent
    obtain rfl := Option.some.inj hsent
    simp [settled, hkind]

namespace Broker

variable {toLink : Interest → Bool} {v v' : Broker} {now : SimTime} {ev : Event}
  {fx : List Effect}

/-- The ticket of the entry a look-up finds, told apart from the others. -/
theorem tickets_of_find? {name : CString} {e : PitEntry}
    (h : v.pending.find? (PitEntry.isFor name) = some e) (face : ℕ) (k : ℕ × CString) :
    keyCount (ticket face) k v.pending =
      keyCount (ticket face) k (v.pending.eraseP (PitEntry.isFor name)) +
        if ticket face e = some k then 1 else 0 := by
  unfold keyCount
  rw [countP_pending_of_find? h]
  simp

/-- The notifications give back the tickets of the entries. -/
theorem settled_notifications (face : ℕ) (k : ℕ × CString) (l : List PitEntry) :
    keyCount settled k (sentDown face (l.flatMap fun e ↦ receiveSignal e.notification)) =
      keyCount (ticket face) k l := by
  induction l with
  | nil => rfl
  | cons e l ih =>
    rw [List.flatMap_cons, sentDown_append, keyCount_append, ih, keyCount_cons]
    congr 1
    cases hface : e.face with
    | upperLayerIn index =>
      by_cases hindex : index = face <;>
        simp [receiveSignal, PitEntry.notification, sentDown, settled, ticket, hface, hindex]
    | lowerLayerIn index =>
      simp [receiveSignal, PitEntry.notification, sentDown, ticket, hface]

/-- **Tickets are conserved.** What a move gives back to an application and keeps for it is covered
by what it kept before and the request it received, if every Data has the number of the Interest it
answers. -/
theorem Move.tickets (hmove : Move toLink v now ev fx v') (hv : v.Valid) (face : ℕ)
    (k : ℕ × CString)
    (hkind : ∀ i, arriving ev = some (.interest i) → i.kind ≠ TIMEOUT_CODE)
    (hcached : ∀ i d, arriving ev = some (.interest i) → i.arrivalGate.isLower = false →
      .sendUpper (.data d) face ∈ fx → d.seqNo = i.seqNo)
    (hpending : ∀ d e, arriving ev = some (.data d) → v.held = none →
      d.kind ≠ REGISTER_PREFIX_CODE → v.pending.find? (PitEntry.isFor d.name) = some e →
        e.face.isLower = false → d.seqNo = e.interest.seqNo) :
    keyCount settled k (sentDown face fx) + keyCount (ticket face) k v'.pending ≤
      keyCount (ticket face) k v.pending + keyCount (requestedAt face) k [ev] := by
  cases hmove with
  | quiet => simp [sentDown]
  | duplicate => simp [sentDown]
  | @cached i src delay d ctrl hreg hfree hname =>
    rw [sentDown_answer]
    by_cases hgate : i.arrivalGate = .upperLayerIn face
    · have hnum := hcached i d rfl (by rw [hgate]; rfl) (by simp [Effect.answer, hgate])
      simp [settled, requestedAt, requested, hgate, hreg, hname, hnum, Nat.add_comm]
    · simp [hgate]
  | @accept i src mac delay send hreg hfree hfresh hroom hmac hsend =>
    rw [settled_of_forwards hsend (by simpa using hkind i rfl)]
    by_cases hgate : i.arrivalGate = .upperLayerIn face <;>
      simp [ticket, requestedAt, requested, hgate, hreg]
  | refuse => simp [sentDown]
  | holdRequest => simp [sentDown]
  | @reply d d' src delay e ctrl hreg hfree hfind hdata hlocal =>
    have hname := (of_find? hfind).2.2
    rw [sentDown_answer, tickets_of_find? hfind]
    by_cases hface : e.face = .upperLayerIn face
    · have hnum := hpending d e rfl hfree hreg hfind (by rw [hface]; rfl)
      rcases hdata with rfl | rfl <;>
        simp [settled, ticket, hface, hname, hnum] <;> omega
    · simp only [if_neg hface, keyCount_nil]
      omega
  | holdReply hreg hfree hforwarding hgate hfind hface =>
    rw [tickets_of_find? hfind]
    simp [sentDown, ticket, hface]
  | discard hreg hfree hforwarding hgate hfind hface =>
    rw [tickets_of_find? hfind]
    simp only [sentDown, List.filterMap_nil, keyCount_nil]
    omega
  | cancel => simp [sentDown]
  | @sendRequest i index macSrc macDest ctrl hheld =>
    -- a held Interest came from the link, so its entry is no ticket
    have hlower := hv.held_lower _ _ _ _ hheld
    have hgate : i.arrivalGate ≠ .upperLayerIn face := by
      intro hgate
      rw [hgate] at hlower
      cases hlower
    simp [sentDown, ticket, hgate]
  | refuseRequest => simp [sentDown]
  | sendReply => simp [sentDown]
  | expire =>
    -- each entry is notified of or stays
    have hsplit := List.countP_eq_countP_filter_add v.pending
      (fun e ↦ ticket face e = some k) (PitEntry.isTimedout now)
    rw [settled_notifications]
    simp only [keyCount] at hsplit ⊢
    omega

end Broker

namespace ForwardingBase

/-- A Data that answers an Interest of an application carries the number of this Interest: the one
the content store would answer with now, and the one that has arrived while the Interest is
pending. -/
def AnswersOwn (s : ForwardingBase) : Event → Prop
  | .packet (.interest i) _ _ =>
    s.waiting = false → i.kind ≠ REGISTER_PREFIX_CODE → i.arrivalGate.isLower = false →
      ∀ d ∈ (s.cs.lookup i).1, d.seqNo = i.seqNo
  | .packet (.data d) _ _ =>
    s.waiting = false → d.kind ≠ REGISTER_PREFIX_CODE →
      ∀ e ∈ (s.pit.lookup d.name).1, e.face.isLower = false → d.seqNo = e.interest.seqNo
  | _ => True

instance (s : ForwardingBase) (ev : Event) : Decidable (s.AnswersOwn ev) := by
  unfold AnswersOwn
  split <;> infer_instance

variable {par : Params} {s s' : ForwardingBase} {now : SimTime} {ev : Event} {fx : List Effect}

/-- The same for a step of a forwarder. -/
theorem step_tickets (hs : (events par).Reachable s)
    (hstep : (events par).Step s (now, ev) fx s') (hown : s.AnswersOwn ev)
    (hkind : ∀ i, Broker.arriving ev = some (.interest i) → i.kind ≠ TIMEOUT_CODE) (face : ℕ)
    (k : ℕ × CString) :
    keyCount settled k (sentDown face fx) + keyCount (ticket face) k s'.pit.entries ≤
      keyCount (ticket face) k s.pit.entries + keyCount (requestedAt face) k [ev] := by
  have hmove := Reachable.move hs hstep
  have hsound := Reachable.sound hs
  refine hmove.tickets (Reachable.valid hs).1 face k hkind ?_ ?_
  · intro i d harr hgate hd
    cases ev with
    | packet p src delay =>
      obtain rfl := Option.some.inj harr
      obtain ⟨-, rfl⟩ := Prod.mk.inj hstep.2
      obtain ⟨hwaiting, hreg, hstored⟩ := stored_of_answered hd rfl
      exact hown hwaiting hreg hgate d hstored
    | _ => cases harr
  · intro d e harr hheld hreg hfind hface
    cases ev with
    | packet p src delay =>
      obtain rfl := Option.some.inj harr
      have hwaiting : s.waiting = false := by
        by_contra hw
        obtain ⟨h, hh⟩ := hsound.exists_held (by simpa using hw)
        rw [hheld] at hh
        cases hh
      refine hown hwaiting hreg e ?_ hface
      rw [PitBase.lookup_fst]
      exact hfind
    | _ => cases harr

end ForwardingBase

end Inet.Ndn
