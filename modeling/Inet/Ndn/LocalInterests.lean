import Inet.Ndn.ReversePath

/-!
# Interests of the applications

What a forwarder does for the applications above it: what becomes of an Interest when it arrives
(`local_interest_outcome`), and what becomes of it once it is recorded (`recorded_accounted`).

A recorded Interest leaves the PIT in one of two ways, and each sends the application exactly one
packet: a matching Data, or the notification that its time is over. For each move this is an
equation between the entry recorded, the packet sent and the entries that stay
(`Broker.Move.accounts`); the equation for runs is its sum.
-/

namespace Inet.Ndn

namespace Effect

/-- An entry of an application is recorded. -/
def records (index : ℕ) : Effect → Bool
  | .pitCreate e => e.face == .upperLayerIn index
  | _ => false

/-- A Data goes to an application. -/
def isDataTo (index : ℕ) : Effect → Bool
  | .sendUpper (.data _) face => face == index
  | _ => false

/-- A Data of the name goes to an application. -/
def isDataFor (name : CString) (index : ℕ) : Effect → Bool
  | .sendUpper (.data d) face => d.name == name && face == index
  | _ => false

/-- A packet is sent. -/
def isSend : Effect → Bool
  | .sendLower _ _ _ _ => true
  | .sendUpper _ _ => true
  | _ => false

/-- A packet that reads as a time-out notification goes to an application. -/
def isTimeoutTo (index : ℕ) : Effect → Bool
  | .sendUpper (.interest i) face => i.kind == TIMEOUT_CODE && face == index
  | _ => false

end Effect

namespace Broker

open ForwardingBase (Event receiveSignal)

/-- A Data arrives. -/
def isDataEvent : Event → Bool
  | .packet (.data _) _ _ => true
  | _ => false

/-- The PIT is cleaned up. -/
def isCleanUp : Event → Bool
  | .checkTimeout => true
  | _ => false

/-- An Interest arrives that reads as a time-out notification. -/
def isTimeoutEvent : Event → Bool
  | .packet (.interest i) _ _ => i.kind == TIMEOUT_CODE
  | _ => false

/-- The pending requests of an application. -/
def pendingOf (v : Broker) (index : ℕ) : ℕ :=
  v.pending.countP fun e ↦ e.face == .upperLayerIn index

variable {toLink : Interest → Bool} {v v' : Broker} {now : SimTime} {ev : Event}
  {fx : List Effect}

/-- Each entry of an application that times out notifies it once. -/
theorem countP_notifications (index : ℕ) (l : List PitEntry) :
    (l.flatMap fun e ↦ receiveSignal e.notification).countP (Effect.isTimeoutTo index) =
      l.countP fun e ↦ e.face == .upperLayerIn index := by
  induction l with
  | nil => rfl
  | cons e l ih =>
    rw [List.flatMap_cons, List.countP_append, ih, List.countP_cons, Nat.add_comm]
    congr 1
    cases hface : e.face <;> simp [receiveSignal, PitEntry.notification, hface, Effect.isTimeoutTo]

theorem countP_records_notifications (index : ℕ) (l : List PitEntry) :
    (l.flatMap fun e ↦ receiveSignal e.notification).countP (Effect.records index) = 0 := by
  rw [List.countP_eq_zero]
  intro f hf
  obtain ⟨e, -, face, rfl⟩ := of_mem_notifications hf
  simp [Effect.records]

/-- **Entries are accounted for.** What an application had pending and what is recorded for it are
what it is sent and what stays pending. -/
theorem Move.accounts (hmove : Move toLink v now ev fx v') (index : ℕ) :
    v.pendingOf index + fx.countP (Effect.records index) =
      (effectsOn isDataEvent ev fx).countP (Effect.isDataTo index) +
        (effectsOn isCleanUp ev fx).countP (Effect.isTimeoutTo index) + v'.pendingOf index := by
  unfold pendingOf effectsOn
  cases hmove with
  | quiet => simp
  | duplicate => simp
  | @cached i =>
    cases hgate : i.arrivalGate <;> simp [isDataEvent, isCleanUp, Effect.answer, Effect.records]
  | accept hkind hfree hfresh hroom hmac hsend =>
    rcases hsend with ⟨macDest, ctrl, face, rfl⟩ | ⟨face, rfl⟩ <;>
      simp [isDataEvent, isCleanUp, Effect.records, List.countP_cons]
  | refuse => simp
  | holdRequest => simp [isDataEvent, isCleanUp, Effect.records]
  | @reply d d' src delay e ctrl hkind hfree hfind hdata hlocal =>
    rw [countP_pending_of_find? hfind]
    cases hface : e.face with
    | upperLayerIn face =>
      simp [isDataEvent, isCleanUp, Effect.answer, Effect.records, Effect.isDataTo]
      omega
    | lowerLayerIn face =>
      simp [isDataEvent, isCleanUp, Effect.answer, Effect.records, Effect.isDataTo]
  | holdReply hkind hfree hforwarding hgate hfind hface =>
    rw [countP_pending_of_find? hfind]
    simp [isDataEvent, isCleanUp, Effect.records, Effect.isDataTo, hface]
  | @discard d src delay e hkind hfree hforwarding hgate hfind hface =>
    rw [countP_pending_of_find? hfind]
    cases hface' : e.face with
    | upperLayerIn face => simp [hface', Gate.isLower] at hface
    | lowerLayerIn face => simp [isDataEvent, isCleanUp]
  | @cancel p => cases p <;> simp [isDataEvent, isCleanUp, Effect.records, Effect.isDataTo]
  | sendRequest => simp [isDataEvent, isCleanUp, Effect.records, List.countP_cons]
  | refuseRequest => simp [isDataEvent, isCleanUp, Effect.records]
  | sendReply => simp [isDataEvent, isCleanUp, Effect.records]
  | expire =>
    have hsplit := List.countP_eq_countP_filter_add v.pending
      (fun e ↦ e.face == .upperLayerIn index) (PitEntry.isTimedout now)
    simp only [isDataEvent, isCleanUp, countP_records_notifications, if_true, countP_notifications]
    simpa using hsplit

/-- Unless an Interest comes in that reads as a time-out notification, the clean-up is what sends
the notifications. -/
theorem Move.timeouts (hmove : Move toLink v now ev fx v') (index : ℕ)
    (hev : isTimeoutEvent ev = false) :
    fx.countP (Effect.isTimeoutTo index) =
      (effectsOn isCleanUp ev fx).countP (Effect.isTimeoutTo index) := by
  unfold effectsOn
  cases hmove with
  | quiet => simp
  | duplicate => simp
  | @cached i =>
    cases hgate : i.arrivalGate <;> simp [isCleanUp, Effect.answer, Effect.isTimeoutTo]
  | @accept i src mac delay send hkind hfree hfresh hroom hmac hsend =>
    have htimeout : i.kind ≠ TIMEOUT_CODE := by simpa [isTimeoutEvent] using hev
    rcases hsend with ⟨macDest, ctrl, face, rfl⟩ | ⟨face, rfl⟩ <;>
      simp [isCleanUp, Effect.isTimeoutTo, htimeout]
  | refuse => simp
  | holdRequest => simp [isCleanUp, Effect.isTimeoutTo]
  | @reply d d' src delay e =>
    cases hface : e.face <;> simp [isCleanUp, Effect.answer, Effect.isTimeoutTo]
  | holdReply => simp [isCleanUp, Effect.isTimeoutTo]
  | discard => simp
  | cancel => simp [isCleanUp, Effect.isTimeoutTo]
  | sendRequest => simp [isCleanUp, Effect.isTimeoutTo]
  | refuseRequest => simp [isCleanUp, Effect.isTimeoutTo]
  | sendReply => simp [isCleanUp, Effect.isTimeoutTo]
  | expire => rfl

end Broker

namespace ForwardingBase

open Broker (isDataEvent isCleanUp isTimeoutEvent)

variable {par : Params} {s : ForwardingBase} {tr : List Trans}

/-! ### What becomes of an arriving Interest -/

/-- The application is answered, or has an entry to be answered or timed out. -/
def Served (s : ForwardingBase) (fx : List Effect) (name : CString) (index : ℕ) : Prop :=
  (∃ f ∈ fx, f.isDataFor name index = true) ∨
    ∃ e ∈ s.pit.entries, e.erased = false ∧ e.interest.name = name ∧ e.face = .upperLayerIn index

instance (s : ForwardingBase) (fx : List Effect) (name : CString) (index : ℕ) :
    Decidable (s.Served fx name index) := by
  unfold Served
  infer_instance

/-- **What becomes of an application's Interest.** While a packet waits in the slot the Interest is
dropped. Otherwise the application is served, unless the name is pending for another face, which is
counted as a duplicate, or the PIT is full; in these two cases nothing is sent. -/
theorem local_interest_outcome (h : (events par).Reachable s) {now delay : SimTime} {i : Interest}
    {src : MACAddress} {fx : List Effect} {s' : ForwardingBase} {index : ℕ}
    (hkind : i.kind ≠ REGISTER_PREFIX_CODE) (hgate : i.arrivalGate = .upperLayerIn index)
    (hstep : (events par).Step s (now, .packet (.interest i) src delay) fx s') :
    (s.waiting = true ∧ (∀ f ∈ fx, f.isSend = false) ∧ s'.pit.entries = s.pit.entries) ∨
      s.waiting = false ∧
        (s'.Served fx i.name index ∨
          (fx = [] ∧ s'.pit.entries = s.pit.entries ∧
            s'.stat.numIntDuplicated = s.stat.numIntDuplicated + 1 ∧
            ∃ e ∈ s.pit.entries, e.erased = false ∧ e.interest.name = i.name ∧
              e.face ≠ .upperLayerIn index) ∨
          fx = [] ∧ s'.pit.entries = s.pit.entries ∧ s.pit.entries.length = par.pitMaxSize) := by
  have hsound := Reachable.sound h
  obtain ⟨hv, -, hcap⟩ := Reachable.valid h
  have hmove := Reachable.move h hstep
  have hupper : i.arrivalGate.isLower = false := by rw [hgate]; rfl
  have hwaiting : s.waiting = s.view.held.isSome := hsound.held_iff
  rw [hwaiting]
  -- the statement is about the broker only
  show (_ ∧ _ ∧ s'.view.pending = s.view.pending) ∨ _ ∧
    (((∃ f ∈ fx, f.isDataFor i.name index = true) ∨ ∃ e ∈ s'.view.pending, _) ∨
      (_ ∧ s'.view.pending = s.view.pending ∧
        s'.view.numIntDuplicated = s.view.numIntDuplicated + 1 ∧ ∃ e ∈ s.view.pending, _) ∨
      _ ∧ s'.view.pending = s.view.pending ∧ s.view.pending.length = par.pitMaxSize)
  rw [← hcap]
  clear hstep hwaiting hsound
  generalize s.view = v at *
  generalize s'.view = v' at *
  cases hmove with
  | quiet hq =>
    cases hq with
    | registration hreg => exact absurd hreg hkind
    | busy _ hheld => exact .inl ⟨by rw [hheld]; rfl, by simp, rfl⟩
    | unrouted _ _ hlower => simp [hupper] at hlower
  | duplicate _ hfree hpending =>
    obtain ⟨e, he, hname⟩ := hpending
    refine .inr ⟨by rw [hfree]; rfl, ?_⟩
    by_cases hface : e.face = .upperLayerIn index
    · exact .inl (.inr ⟨e, he, hv.live e he, hname, hface⟩)
    · exact .inr (.inl ⟨rfl, rfl, rfl, e, he, hv.live e he, hname, hface⟩)
  | cached _ hfree hname =>
    refine .inr ⟨by rw [hfree]; rfl, .inl (.inl ⟨_, List.mem_singleton_self _, ?_⟩)⟩
    simp [hgate, Effect.answer, Effect.isDataFor, hname]
  | accept _ hfree =>
    exact .inr ⟨by rw [hfree]; rfl, .inl (.inr ⟨_, List.mem_append_right _
      (List.mem_singleton_self _), rfl, i.forwarded_name, hgate⟩)⟩
  | refuse _ hfree _ hfull => exact .inr ⟨by rw [hfree]; rfl, .inr (.inr ⟨rfl, rfl, hfull⟩)⟩
  | holdRequest _ _ _ hlower => simp [hupper] at hlower
  | cancel _ hheld => exact .inl ⟨by rw [hheld]; rfl, by simp [Effect.isSend], rfl⟩

/-- The first Interest of an application, in a state where nothing waits, is recorded. -/
theorem local_interest_outcome_first :
    let par : Params := { forwarding := true, myMacAddress := ⟨1⟩ }
    let i : Interest := { name := [47, 97], arrivalGate := .upperLayerIn 0 }
    let r := (initial par).handleMessage 9 (.packet (.interest i) ⟨2⟩ 0)
    r.1.Served r.2 [47, 97] 0 ∧ r.1.pit.entries.length = 1 := by
  intro par i r
  refine ⟨?_, by decide⟩
  have hreach : (events par).Reachable (initial par) := ⟨[], .nil rfl⟩
  have hout := local_interest_outcome hreach (i := i) (by decide) rfl
    ⟨trivial, show r = (initial par).handleMessage 9 (.packet (.interest i) ⟨2⟩ 0) from rfl⟩
  rcases hout with ⟨hw, -⟩ | ⟨-, hserved | ⟨-, -, hdup, -⟩ | ⟨-, -, hfull⟩⟩
  · exact absurd hw (by decide)
  · exact hserved
  · exact absurd hdup (by decide)
  · exact absurd hfull (by decide)

/-- Three ways to be dropped: another packet waits in the slot, the name is pending for another
application, the PIT is full. -/
theorem local_interest_dropped :
    let i : Interest := { name := [47, 97], arrivalGate := .upperLayerIn 0 }
    let flooded : Interest := { name := [47, 98], arrivalGate := .lowerLayerIn 0, flood := true }
    let elsewhere : Interest := { name := [47, 97], arrivalGate := .upperLayerIn 1 }
    let other : Interest := { name := [47, 99], arrivalGate := .upperLayerIn 0 }
    ∀ c ∈ [(100, flooded), (100, elsewhere), (1, other)],
      let par : Params := { forwarding := true, myMacAddress := ⟨1⟩, pitMaxSize := c.1 }
      let s := stateAfter par [(0, .packet (.interest c.2) ⟨2⟩ 50)]
      (events par).Reachable s ∧
        ∃ fx s', (events par).Step s (9, .packet (.interest i) ⟨2⟩ 0) fx s' ∧
          ¬ s'.Served fx [47, 97] 0 := by
  intro i flooded elsewhere other c hc
  have hkinds : ∀ c ∈ [(100, flooded), (100, elsewhere), (1, other)],
      let par : Params := { forwarding := true, myMacAddress := ⟨1⟩, pitMaxSize := c.1 }
      let r := (stateAfter par [(0, .packet (.interest c.2) ⟨2⟩ 50)]).handleMessage 9
        (.packet (.interest i) ⟨2⟩ 0)
      ¬ r.1.Served r.2 [47, 97] 0 := by decide
  intro par s
  exact ⟨⟨_, run_trace (by simp [trace, TransitionSystem.transitionsOf, Enabled])⟩, _, _,
    ⟨trivial, rfl⟩, hkinds c hc⟩

/-! ### What becomes of a recorded Interest -/

/-- The live entries of an application. -/
def liveOf (s : ForwardingBase) (index : ℕ) : ℕ :=
  s.pit.entries.countP fun e ↦ !e.erased && e.face == .upperLayerIn index

theorem Sound.liveOf_eq (h : s.Sound) (index : ℕ) : s.liveOf index = s.view.pendingOf index := by
  refine List.countP_congr fun e he ↦ ?_
  simp [h.live e he]

/-- The entries recorded for an application are the matching Data it was sent, the notifications of
the clean-up and the entries still live. -/
theorem recorded_eq (h : (events par).Run tr s) (index : ℕ) :
    (effects tr).countP (Effect.records index) =
      (effectsWhen isDataEvent tr).countP (Effect.isDataTo index) +
        (effectsWhen isCleanUp tr).countP (Effect.isTimeoutTo index) + s.liveOf index := by
  rw [(Reachable.sound ⟨tr, h⟩).liveOf_eq]
  refine run_broker_history (P := fun tr v ↦ (effects tr).countP (Effect.records index) =
    (effectsWhen isDataEvent tr).countP (Effect.isDataTo index) +
      (effectsWhen isCleanUp tr).countP (Effect.isTimeoutTo index) + v.pendingOf index) rfl ?_ h
  intro tr t v v' _ _ ih hmove
  have hstep := hmove.accounts index
  rw [countP_effects_snoc, countP_effectsWhen_snoc, countP_effectsWhen_snoc]
  omega

/-- When no Interest comes in that reads as a time-out notification, every time-out notification an
application is sent comes from the clean-up. -/
theorem timeouts_eq (h : (events par).Run tr s) (index : ℕ)
    (hin : ∀ t ∈ tr, isTimeoutEvent t.input.2 = false) :
    (effects tr).countP (Effect.isTimeoutTo index) =
      (effectsWhen isCleanUp tr).countP (Effect.isTimeoutTo index) := by
  revert hin
  refine run_broker_history (P := fun tr _ ↦ (∀ t ∈ tr, isTimeoutEvent t.input.2 = false) →
    (effects tr).countP (Effect.isTimeoutTo index) =
      (effectsWhen isCleanUp tr).countP (Effect.isTimeoutTo index)) (fun _ ↦ rfl) ?_ h
  intro tr t v v' _ _ ih hmove hin
  have hstep := hmove.timeouts index (hin t (by simp))
  have hprev := ih fun u hu ↦ hin u (List.mem_append_left _ hu)
  rw [countP_effects_snoc, countP_effectsWhen_snoc]
  omega

/-- **One answer for each recorded Interest.** Over every run, the PIT entries recorded for an
application are exactly the Data it was sent out of a PIT match, the notifications of the PIT
clean-up and the entries still live; and when no received Interest reads as a time-out notification
itself, those notifications are all the Interests of kind `TIMEOUT_CODE` it was sent. -/
theorem recorded_accounted (h : (events par).Run tr s) (index : ℕ) :
    (effects tr).countP (Effect.records index) =
        (effectsWhen isDataEvent tr).countP (Effect.isDataTo index) +
          (effectsWhen isCleanUp tr).countP (Effect.isTimeoutTo index) + s.liveOf index ∧
      ((∀ t ∈ tr, isTimeoutEvent t.input.2 = false) →
        (effects tr).countP (Effect.records index) =
          (effectsWhen isDataEvent tr).countP (Effect.isDataTo index) +
            (effects tr).countP (Effect.isTimeoutTo index) + s.liveOf index) := by
  refine ⟨recorded_eq h index, fun hin ↦ ?_⟩
  rw [timeouts_eq h index hin]
  exact recorded_eq h index

/-- An Interest recorded for application 0 is timed out by the clean-up, another is answered. -/
theorem recorded_accounted_both_ways :
    let i : Interest := { name := [47, 97], arrivalGate := .upperLayerIn 0 }
    let j : Interest := { name := [47, 98], arrivalGate := .upperLayerIn 0 }
    let d : Data := { name := [47, 98], arrivalGate := .lowerLayerIn 0 }
    let par : Params := { forwarding := true, myMacAddress := ⟨1⟩ }
    let is := [(0, .packet (.interest i) ⟨2⟩ 0), (0, .packet (.interest j) ⟨2⟩ 0),
      (5, .packet (.data d) ⟨3⟩ 4), (SimTime.ms 5000, .checkTimeout)]
    (effects (trace par is)).countP (Effect.records 0) = 2 ∧
      (effects (trace par is)).countP (Effect.records 0) =
        (effectsWhen isDataEvent (trace par is)).countP (Effect.isDataTo 0) +
          (effects (trace par is)).countP (Effect.isTimeoutTo 0) +
            (stateAfter par is).liveOf 0 := by
  intro i j d par is
  have henabled : ∀ t ∈ trace par is, t.pre.Enabled t.input.2 := by decide
  exact ⟨by decide, (recorded_accounted (run_trace henabled) 0).2 (by decide)⟩

/-- An Interest of kind `TIMEOUT_CODE` that is routed to an application reads as a time-out
notification of an entry the application never had. -/
theorem recorded_accounted_fails_on_timeout_kind :
    let i : Interest :=
      { name := [47, 97], kind := TIMEOUT_CODE, arrivalGate := .upperLayerIn 0 }
    let r : Interest :=
      { name := [47, 97], kind := REGISTER_PREFIX_CODE, arrivalGate := .upperLayerIn 1 }
    let par : Params := { forwarding := true, myMacAddress := ⟨1⟩ }
    let is := [(0, .packet (.interest r) ⟨2⟩ 0), (1, .packet (.interest i) ⟨2⟩ 0)]
    (events par).Run (trace par is) (stateAfter par is) ∧
      (effects (trace par is)).countP (Effect.records 1) ≠
        (effectsWhen isDataEvent (trace par is)).countP (Effect.isDataTo 1) +
          (effects (trace par is)).countP (Effect.isTimeoutTo 1) +
            (stateAfter par is).liveOf 1 := by
  intro i r par is
  exact ⟨run_trace (by decide), by decide⟩

end ForwardingBase

end Inet.Ndn
