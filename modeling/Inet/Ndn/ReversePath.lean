import Inet.Foundations.KeyedMatching
import Inet.Ndn.PendingRequests

/-!
# The reverse path

Every Data a forwarder sends answers an Interest it received: same name, same side, same gate index
and, on the link, the address the Interest came from. No Interest is answered twice.

The argument is one of conservation. The broker **owes** an answer for each pending request and for
the packet in its slot (`Broker.owed`). A move may take on one debt for the Interest it received,
pass a debt from the table to the slot or back, drop it, or pay it by sending one Data with its key
(`Broker.Move.owed`). So Data sent plus debts never exceed Interests received, key by key, and
`KeyBalanced.exists_matching` turns the inequality into an assignment.
-/

namespace Inet.Ndn

/-- Where an Interest came from and its Data must go: a face of the link with the address of the
neighbour, or an application. -/
inductive Origin
  | link (face : ℕ) (mac : MACAddress)
  | app (face : ℕ)
  deriving DecidableEq, Repr

/-- The origin of a packet that arrived on the gate. The link-layer address of a packet from an
application means nothing. -/
def Gate.origin (mac : MACAddress) : Gate → Origin
  | .lowerLayerIn face => .link face mac
  | .upperLayerIn face => .app face

/-- A name together with an origin. -/
abbrev Key := CString × Origin

namespace Broker

open ForwardingBase (Event receiveSignal)

/-- The Interest an event brings in. Prefix registrations are not Interests. -/
def received : Event → Option Key
  | .packet (.interest i) src _ =>
    if i.kind = REGISTER_PREFIX_CODE then none else some (i.name, i.arrivalGate.origin src)
  | _ => none

/-- The Data an effect sends, with where it goes: the gate and, on the link side, the destination
handed to `ndnToMacMapping`. -/
def dataSent : Effect → Option Key
  | .sendLower (.data d) macDest _ face => some (d.name, .link face macDest)
  | .sendUpper (.data d) face => some (d.name, .app face)
  | _ => none

/-- The answer a pending request waits for. -/
def entryKey (e : PitEntry) : Key :=
  (e.interest.name, e.face.origin e.macSrc)

/-- The answer a held packet stands for. -/
def heldKey : Held → Key
  | .request i _ macSrc _ => (i.name, i.arrivalGate.origin macSrc)
  | .reply d face macDest => (d.name, .link face macDest)

/-- The answers the broker still owes. -/
def owed (v : Broker) : List Key :=
  v.pending.map entryKey ++ (v.held.map heldKey).toList

theorem dataSent_answer (gate : Gate) (mac : MACAddress) (ctrl : Ieee802Ctrl) (d : Data) :
    dataSent (.answer gate mac ctrl d) = some (d.name, gate.origin mac) := by
  cases gate <;> rfl

@[simp] theorem dataSent_pitCreate (e : PitEntry) : dataSent (.pitCreate e) = none := rfl

theorem dataSent_of_forwards {fx : Effect} {i : Interest} (h : fx.Forwards i) :
    dataSent fx = none := by
  rcases h with ⟨macDest, ctrl, face, rfl⟩ | ⟨face, rfl⟩ <;> rfl

variable {toLink : Interest → Bool} {v v' : Broker} {now : SimTime} {ev : Event}
  {fx : List Effect}

theorem count_owed (v : Broker) (k : Key) :
    v.owed.count k = (v.pending.map entryKey).count k + (v.held.map heldKey).toList.count k :=
  List.count_append

/-- The debt of the entry a look-up finds, told apart from the others. -/
theorem count_pending_of_find? {name : CString} {e : PitEntry}
    (h : v.pending.find? (PitEntry.isFor name) = some e) (k : Key) :
    (v.pending.map entryKey).count k =
      ((v.pending.eraseP (PitEntry.isFor name)).map entryKey).count k +
        if entryKey e = k then 1 else 0 := by
  rw [List.count, List.countP_map, List.countP_map, countP_pending_of_find? h]
  simp

/-- An Interest that came from the link keeps the address it came from; for one from an application
the address does not matter. -/
theorem origin_eq {gate : Gate} {mac src : MACAddress} (h : gate.isLower = true → mac = src) :
    gate.origin mac = gate.origin src := by
  cases gate with
  | upperLayerIn face => rfl
  | lowerLayerIn face => rw [h rfl]

/-- **Debts are conserved.** The Data a move sends and the debts it leaves are covered by the debts
before and the Interest it received. -/
theorem Move.owed (hmove : Move toLink v now ev fx v') (k : Key) :
    keyCount dataSent k fx + v'.owed.count k ≤ v.owed.count k + keyCount received k [ev] := by
  simp only [count_owed]
  cases hmove with
  | quiet => simp
  | duplicate => simp
  | cached hkind hfree hname => simp [received, dataSent_answer, hkind, hname, Nat.add_comm]
  | accept hkind hfree hfresh hroom hmac hsend =>
    simp [received, hkind, entryKey, dataSent_of_forwards hsend, origin_eq hmac, List.count_cons,
      Nat.add_right_comm]
  | refuse => simp
  | holdRequest hkind hfree hforwarding hgate hfresh =>
    simp [received, hkind, hfree, heldKey, dataSent, List.count_cons]
  | reply hkind hfree hfind hdata =>
    rw [count_pending_of_find? hfind]
    have hname := (of_find? hfind).2.2
    rcases hdata with rfl | rfl <;> simp [dataSent_answer, entryKey, hname, received] <;> omega
  | holdReply hkind hfree hforwarding hgate hfind hface =>
    rw [count_pending_of_find? hfind]
    have hname := (of_find? hfind).2.2
    simp [hfree, dataSent, heldKey, entryKey, hname, hface, Gate.origin, List.count_cons]
  | discard hkind hfree hforwarding hgate hfind hface =>
    rw [count_pending_of_find? hfind]
    simp
    omega
  | cancel => simp [dataSent]; omega
  | sendRequest hheld hroom => simp [hheld, dataSent, heldKey, entryKey, List.count_cons]
  | refuseRequest => simp [dataSent]; omega
  | sendReply hheld => simp [hheld, dataSent, heldKey, List.count_cons]; omega
  | expire =>
    have hzero : keyCount dataSent k ((v.pending.filter (PitEntry.isTimedout now)).flatMap
        fun e ↦ receiveSignal e.notification) = 0 := by
      refine keyCount_eq_zero fun f hf ↦ ?_
      obtain ⟨e, -, index, rfl⟩ := of_mem_notifications hf
      rfl
    have hle := ((List.filter_sublist (l := v.pending)
      (p := fun e ↦ !e.isTimedout now)).map entryKey).count_le k
    rw [hzero]
    dsimp only
    omega

end Broker

namespace ForwardingBase

open Broker (received dataSent)

/-! ### What crosses the border of a forwarder -/

/-- An event, or one of the effects it had. -/
inductive Occurrence
  | event (e : Event)
  | effect (fx : Effect)

/-- The Interest that comes in. -/
def Occurrence.interestIn : Occurrence → Option Key
  | .event e => received e
  | .effect _ => none

/-- The Data that goes out. -/
def Occurrence.dataOut : Occurrence → Option Key
  | .event _ => none
  | .effect fx => dataSent fx

/-- Everything a transition lets cross the border, in order. -/
def crossings (t : Trans) : List Occurrence :=
  .event t.input.2 :: t.output.map .effect

/-- Everything that crosses the border during a run, in order. -/
def occurrences (tr : List Trans) : List Occurrence :=
  tr.flatMap crossings

theorem keyCount_map_effect {f : Occurrence → Option Key} {g : Effect → Option Key}
    (h : ∀ fx, f (.effect fx) = g fx) (k : Key) (l : List Effect) :
    keyCount f k (l.map .effect) = keyCount g k l := by
  induction l with
  | nil => rfl
  | cons fx l ih => rw [List.map_cons, keyCount_cons, keyCount_cons, ih, h]

/-- At every point of a run the Interests received cover the Data sent and the Data owed. -/
theorem run_balanced {par : Params} {s : ForwardingBase} {tr : List Trans}
    (h : (events par).Run tr s) :
    KeyBalanced Occurrence.interestIn Occurrence.dataOut (occurrences tr) ∧
      ∀ k, keyCount Occurrence.dataOut k (occurrences tr) + s.view.owed.count k ≤
        keyCount Occurrence.interestIn k (occurrences tr) := by
  refine run_broker_history (P := fun tr v ↦
    KeyBalanced Occurrence.interestIn Occurrence.dataOut (occurrences tr) ∧
      ∀ k, keyCount Occurrence.dataOut k (occurrences tr) + v.owed.count k ≤
        keyCount Occurrence.interestIn k (occurrences tr)) ?_ ?_ h
  · exact ⟨.nil, by simp [occurrences, Broker.owed, view, initial, SendDelayed.held]⟩
  · rintro tr t v v' - - ⟨hbal, hcover⟩ hmove
    have hocc : occurrences (tr ++ [t]) =
        (occurrences tr ++ [.event t.input.2]) ++ t.output.map .effect := by
      simp [occurrences, crossings]
    have hin : ∀ k, keyCount Occurrence.interestIn k (t.output.map .effect) = 0 := by
      intro k
      rw [keyCount_map_effect (g := fun _ ↦ none) (fun _ ↦ rfl)]
      exact keyCount_eq_zero (by simp)
    have hout : ∀ k, keyCount Occurrence.dataOut k (t.output.map .effect) =
        keyCount dataSent k t.output := fun k ↦ keyCount_map_effect (fun _ ↦ rfl) k _
    have hinEvent : ∀ k, keyCount Occurrence.interestIn k [.event t.input.2] =
        keyCount received k [t.input.2] := fun _ ↦ rfl
    have houtEvent : ∀ k, keyCount Occurrence.dataOut k [.event t.input.2] = 0 := fun _ ↦ rfl
    rw [hocc]
    -- two blocks, the event and its effects: the Data sent now may answer the Interest received now
    refine ⟨(hbal.append fun k ↦ ?_).append fun k ↦ ?_, fun k ↦ ?_⟩
    all_goals
      have hk := hcover k
      have hstep := hmove.owed k
      simp only [keyCount_append, hin, hout, hinEvent, houtEvent]
      omega

/-- **The reverse path.** In every run, every Data sent can be assigned an Interest received earlier
with its name, its side, its gate index and, on the link, its destination as the source; and no
Interest is assigned to two Data. -/
theorem data_follows_reverse_path {par : Params} {s : ForwardingBase} {tr : List Trans}
    (h : (events par).Run tr s) :
    ∃ m : ℕ → ℕ,
      (∀ j k, (occurrences tr)[j]?.bind Occurrence.dataOut = some k →
        m j < j ∧ (occurrences tr)[m j]?.bind Occurrence.interestIn = some k) ∧
      Set.InjOn m {j | ((occurrences tr)[j]?.bind Occurrence.dataOut).isSome} := by
  refine (run_balanced h).1.exists_matching fun o _ ho ↦ ?_
  cases o with
  | event e => exact absurd rfl ho
  | effect fx => rfl

/-- An Interest and its Data are both delayed: the Data leaves towards the address the Interest came
from, which travelled through the message as text. -/
theorem data_follows_reverse_path_delayed :
    let i : Interest := { name := [47, 97], arrivalGate := .lowerLayerIn 0, flood := true }
    let d : Data := { name := [47, 97], arrivalGate := .lowerLayerIn 0 }
    let tr := trace { forwarding := true, myMacAddress := ⟨1⟩ }
      [(0, .packet (.interest i) ⟨2⟩ 5), (5, .sendDelayedPacket), (9, .packet (.data d) ⟨3⟩ 4),
        (13, .sendDelayedPacket)]
    (occurrences tr)[11]?.bind Occurrence.dataOut = some ([47, 97], .link 0 ⟨2⟩) ∧
      ∃ m : ℕ → ℕ, m 11 < 11 ∧
        (occurrences tr)[m 11]?.bind Occurrence.interestIn = some ([47, 97], .link 0 ⟨2⟩) := by
  intro i d tr
  have hsent : (occurrences tr)[11]?.bind Occurrence.dataOut = some ([47, 97], .link 0 ⟨2⟩) := by
    decide
  have henabled : ∀ t ∈ tr, t.pre.Enabled t.input.2 := by decide
  obtain ⟨m, hm, -⟩ := data_follows_reverse_path (run_trace henabled)
  exact ⟨hsent, m, hm 11 _ hsent⟩

end ForwardingBase

end Inet.Ndn
