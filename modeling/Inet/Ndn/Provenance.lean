import Inet.Ndn.PendingRequests

/-!
# Where packets come from

A forwarder makes up no packets. What it stores, holds and sends are packets it has received, with
a hop counted or not; the time-out notifications it sends to applications are Interests it has
recorded, with another kind. So a property of packets that does not depend on the hop count and that
all packets on the input have is a property of everything a forwarder keeps and sends
(`Carries.step`).
-/

namespace Inet.Ndn

/-- The packet after one more hop. -/
def Packet.hop : Packet → Packet
  | .interest i => .interest i.hop
  | .data d => .data d.hop

/-- The packet an effect sends, to either side. -/
def Effect.sent : Effect → Option Packet
  | .sendLower packet _ _ _ => some packet
  | .sendUpper packet _ => some packet
  | _ => none

@[simp]
theorem Effect.sent_answer (gate : Gate) (mac : MACAddress) (ctrl : Ieee802Ctrl) (d : Data) :
    (answer gate mac ctrl d).sent = some (.data d) := by
  cases gate <;> rfl

theorem Effect.sent_of_forwards {fx : Effect} {i : Interest} (h : fx.Forwards i) :
    fx.sent = some (.interest i) := by
  rcases h with ⟨macDest, ctrl, face, rfl⟩ | ⟨face, rfl⟩ <;> rfl

namespace ForwardingBase

variable {s : ForwardingBase} {now delay : SimTime}

/-! ### What the store takes in -/

theorem forwardInterestToRemote_cs (i : Interest) (face : ℕ) (macSrc macDest : MACAddress) :
    (s.forwardInterestToRemote now i face macSrc macDest).1.cs = s.cs := by
  unfold forwardInterestToRemote
  split <;> rfl

theorem forwardInterestToLocal_cs (i : Interest) (face : ℕ) (macSrc : MACAddress) :
    (s.forwardInterestToLocal now i face macSrc).1.cs = s.cs := by
  unfold forwardInterestToLocal
  split <;> rfl

theorem delayPacket_cs (p : Packet) (sd : SendDelayed) (time : SimTime) :
    (s.delayPacket p sd time).1.cs = s.cs := by
  unfold delayPacket
  dsimp only
  split <;> rfl

theorem processLLInterest_cs (i : Interest) (src : MACAddress) :
    (s.processLLInterest now delay i src).1.cs = (s.cs.lookup i).2 := by
  unfold processLLInterest
  dsimp only
  split
  · rename_i h
    rw [h]
  · rename_i cs h
    have hcs : (s.cs.lookup i).2 = cs := congrArg Prod.snd h
    rw [hcs]
    split
    · split
      · split
        · split
          · exact forwardInterestToRemote_cs ..
          · rfl
        · exact forwardInterestToLocal_cs ..
      · split
        · exact delayPacket_cs ..
        · rfl
    · rfl

theorem processHLInterest_cs (i : Interest) :
    (s.processHLInterest now i).1.cs = (s.cs.lookup i).2 := by
  unfold processHLInterest
  split
  · rename_i h
    rw [h]
  · rename_i cs h
    have hcs : (s.cs.lookup i).2 = cs := congrArg Prod.snd h
    rw [hcs]
    dsimp only
    split
    · split
      · split
        · exact forwardInterestToRemote_cs ..
        · exact forwardInterestToLocal_cs ..
      · exact forwardInterestToRemote_cs ..
    · rfl

theorem processLLData_cs (d : Data) (src : MACAddress) :
    (s.processLLData now delay d src).1.cs = s.cs ∨
      ∃ d', (d' = d ∨ d' = d.hop) ∧
        (s.processLLData now delay d src).1.cs = (s.cs.add now d').2 := by
  unfold processLLData
  split
  · dsimp only
    split
    · split
      · exact .inr ⟨_, .inr rfl, by rw [delayPacket_cs]; rfl⟩
      · exact .inr ⟨_, .inl rfl, rfl⟩
    · exact .inr ⟨_, .inr rfl, rfl⟩
  · dsimp only
    split
    · exact .inr ⟨_, .inl rfl, rfl⟩
    · exact .inl rfl

theorem processHLData_cs (d : Data) :
    (s.processHLData now d).1.cs = s.cs ∨
      (s.processHLData now d).1.cs = (s.cs.add now d).2 := by
  unfold processHLData
  split
  · exact .inr rfl
  · dsimp only
    split
    · exact .inr rfl
    · exact .inl rfl

theorem handleWhileWaiting_cs (p : Packet) : (s.handleWhileWaiting p).1.cs = s.cs := by
  unfold handleWhileWaiting
  split
  · rfl
  · split <;> rfl

theorem handleDelayed_cs : (s.handleDelayed now).1.cs = s.cs := by
  unfold handleDelayed
  dsimp only
  split
  · split
    · exact forwardInterestToRemote_cs ..
    · rfl
    · rfl
    · rfl
  · split <;> rfl

/-- What a packet leaves in the store was there before or is the packet. -/
theorem data_of_mem_handlePacket {p : Packet} {src : MACAddress} {e : CsEntry}
    (h : e ∈ (s.handlePacket now delay p src).1.cs.entries) :
    (∃ e' ∈ s.cs.entries, e.data = e'.data) ∨ ∃ d, p = .data d ∧ (e.data = d ∨ e.data = d.hop) := by
  unfold handlePacket at h
  split at h
  · exact .inl ⟨e, h, rfl⟩
  split at h
  · rw [handleWhileWaiting_cs] at h
    exact .inl ⟨e, h, rfl⟩
  cases p with
  | interest i =>
    refine .inl ⟨e, ?_, rfl⟩
    rw [← CsBase.lookup_entries s.cs i]
    unfold dispatchPacket at h
    cases hg : (Packet.interest i).arrivalGate <;> simp only [hg] at h
    · rwa [processHLInterest_cs] at h
    · rwa [processLLInterest_cs] at h
  | data d =>
    -- the store takes the Data as it arrived or one hop older
    have hcs : (s.dispatchPacket now delay (.data d) src).1.cs = s.cs ∨
        ∃ d', (d' = d ∨ d' = d.hop) ∧
          (s.dispatchPacket now delay (.data d) src).1.cs = (s.cs.add now d').2 := by
      unfold dispatchPacket
      cases (Packet.data d).arrivalGate with
      | upperLayerIn face => exact (processHLData_cs d).imp id fun h ↦ ⟨d, .inl rfl, h⟩
      | lowerLayerIn face => exact processLLData_cs d src
    rcases hcs with hcs | ⟨d', hd, hcs⟩ <;> rw [hcs] at h
    · exact .inl ⟨e, h, rfl⟩
    · rcases CsBase.data_of_mem_add h with he | he
      · exact .inr ⟨d, rfl, he ▸ hd⟩
      · exact .inl he

/-! ### What an Interest is answered with -/

theorem forwardInterestToRemote_sent {i : Interest} {face : ℕ} {macSrc macDest : MACAddress}
    {f : Effect} (hf : f ∈ (s.forwardInterestToRemote now i face macSrc macDest).2) (d : Data) :
    f.sent ≠ some (.data d) := by
  unfold forwardInterestToRemote at hf
  split at hf
  · rcases List.mem_pair.1 hf with rfl | rfl <;> simp [Effect.sent]
  · cases hf

theorem forwardInterestToLocal_sent {i : Interest} {face : ℕ} {macSrc : MACAddress} {f : Effect}
    (hf : f ∈ (s.forwardInterestToLocal now i face macSrc).2) (d : Data) :
    f.sent ≠ some (.data d) := by
  unfold forwardInterestToLocal at hf
  split at hf
  · rcases List.mem_pair.1 hf with rfl | rfl <;> simp [Effect.sent]
  · cases hf

theorem delayPacket_sent {p : Packet} {sd : SendDelayed} {time : SimTime} {f : Effect}
    (hf : f ∈ (s.delayPacket p sd time).2) : f.sent = none := by
  have hdropped : ∀ f ∈ if s.waiting then deleteDelayed s.sendDelayedPacket else [],
      f.sent = none := by
    unfold deleteDelayed
    split
    · split <;> simp [Effect.sent]
    · simp
  unfold delayPacket at hf
  dsimp only at hf
  split at hf <;> rcases List.mem_append.1 hf with hf | hf
  · exact hdropped f hf
  · rcases List.mem_pair.1 hf with rfl | rfl <;> rfl
  · exact hdropped f hf
  · rcases List.mem_pair.1 hf with rfl | rfl <;> rfl

theorem processLLInterest_sent {i : Interest} {src : MACAddress} {f : Effect} {d : Data}
    (hf : f ∈ (s.processLLInterest now delay i src).2) (hsent : f.sent = some (.data d)) :
    (s.cs.lookup i).1 = some d := by
  unfold processLLInterest at hf
  dsimp only at hf
  split at hf
  · rename_i h
    rw [List.mem_singleton.1 hf] at hsent
    rw [h, Packet.data.inj (Option.some.inj hsent)]
  · exfalso
    split at hf
    · split at hf
      · split at hf
        · split at hf
          · exact forwardInterestToRemote_sent hf d hsent
          · cases hf
        · exact forwardInterestToLocal_sent hf d hsent
      · split at hf
        · rw [delayPacket_sent hf] at hsent
          cases hsent
        · cases hf
    · cases hf

theorem processHLInterest_sent {i : Interest} {f : Effect} {d : Data}
    (hf : f ∈ (s.processHLInterest now i).2) (hsent : f.sent = some (.data d)) :
    (s.cs.lookup i).1 = some d := by
  unfold processHLInterest at hf
  split at hf
  · rename_i h
    rw [List.mem_singleton.1 hf] at hsent
    rw [h, Packet.data.inj (Option.some.inj hsent)]
  · exfalso
    dsimp only at hf
    split at hf
    · split at hf
      · split at hf
        · exact forwardInterestToRemote_sent hf d hsent
        · exact forwardInterestToLocal_sent hf d hsent
      · exact forwardInterestToRemote_sent hf d hsent
    · cases hf

/-- **An Interest is answered from the store only.** -/
theorem stored_of_answered {i : Interest} {src : MACAddress} {f : Effect} {d : Data}
    (hf : f ∈ (s.handlePacket now delay (.interest i) src).2)
    (hsent : f.sent = some (.data d)) :
    s.waiting = false ∧ i.kind ≠ REGISTER_PREFIX_CODE ∧ (s.cs.lookup i).1 = some d := by
  unfold handlePacket at hf
  split at hf
  · cases hf
  rename_i hkind
  split at hf
  · unfold handleWhileWaiting at hf
    split at hf
    · rw [List.mem_singleton.1 hf] at hsent
      cases hsent
    · split at hf
      · rcases List.mem_pair.1 hf with rfl | rfl <;> cases hsent
      · cases hf
  · rename_i hwaiting
    refine ⟨by simpa using hwaiting, hkind, ?_⟩
    unfold dispatchPacket at hf
    cases hg : (Packet.interest i).arrivalGate <;> simp only [hg] at hf
    · exact processHLInterest_sent hf hsent
    · exact processLLInterest_sent hf hsent

end ForwardingBase

/-! ### What a forwarder keeps and sends -/

namespace Broker

open ForwardingBase (Event)

variable {toLink : Interest → Bool} {v v' : Broker} {now : SimTime} {ev : Event}
  {fx : List Effect}

/-- A packet on the input of an event. -/
def arriving : Event → Option Packet
  | .packet packet _ _ => some packet
  | _ => none

/-- What a move holds was held before or has just arrived. -/
theorem Move.held (hmove : Move toLink v now ev fx v') {h : Held} (hh : v'.held = some h) :
    v.held = some h ∨ ∃ p, arriving ev = some p ∧ h.packet = p.hop := by
  cases hmove with
  | holdRequest =>
    obtain rfl := Option.some.inj hh
    exact .inr ⟨_, rfl, rfl⟩
  | holdReply =>
    obtain rfl := Option.some.inj hh
    exact .inr ⟨_, rfl, rfl⟩
  | cancel => cases hh
  | sendRequest => cases hh
  | refuseRequest => cases hh
  | sendReply => cases hh
  | _ => exact .inl hh

/-- What a move sends: the packet that has arrived, the packet that was held, a time-out
notification for a pending request, or a Data for an Interest that has arrived. -/
theorem Move.sent (hmove : Move toLink v now ev fx v') {f : Effect} (hf : f ∈ fx) {p : Packet}
    (hsent : f.sent = some p) :
    (∃ q, arriving ev = some q ∧ (p = q ∨ p = q.hop)) ∨
      (∃ h, v.held = some h ∧ p = h.packet) ∨
        (∃ e ∈ v.pending, ∃ face,
          f = .sendUpper (.interest { e.interest with kind := TIMEOUT_CODE }) face) ∨
          ∃ i d, arriving ev = some (.interest i) ∧ p = .data d := by
  cases hmove with
  | quiet => cases hf
  | duplicate => cases hf
  | @cached i src delay d ctrl =>
    rw [List.mem_singleton.1 hf, Effect.sent_answer] at hsent
    exact .inr (.inr (.inr ⟨i, d, rfl, (Option.some.inj hsent).symm⟩))
  | @accept i src mac delay send hkind hfree hfresh hroom hmac hsend =>
    rcases List.mem_pair.1 hf with rfl | rfl
    · cases hsent
    · rw [Effect.sent_of_forwards hsend] at hsent
      obtain rfl := Option.some.inj hsent
      refine .inl ⟨.interest i, rfl, ?_⟩
      unfold Interest.forwarded
      split
      · exact .inr rfl
      · exact .inl rfl
  | refuse => cases hf
  | holdRequest => rcases List.mem_pair.1 hf with rfl | rfl <;> cases hsent
  | @reply d d' src delay e ctrl hkind hfree hfind hdata =>
    rw [List.mem_singleton.1 hf, Effect.sent_answer] at hsent
    obtain rfl := Option.some.inj hsent
    exact .inl ⟨.data d, rfl, hdata.imp (congrArg _) (congrArg _)⟩
  | holdReply => rcases List.mem_pair.1 hf with rfl | rfl <;> cases hsent
  | discard => cases hf
  | cancel => rcases List.mem_pair.1 hf with rfl | rfl <;> cases hsent
  | sendRequest hheld =>
    simp only [List.mem_cons, List.not_mem_nil, or_false] at hf
    rcases hf with rfl | rfl | rfl
    · cases hsent
    · exact .inr (.inl ⟨_, hheld, (Option.some.inj hsent).symm⟩)
    · cases hsent
  | refuseRequest =>
    rw [List.mem_singleton.1 hf] at hsent
    cases hsent
  | sendReply hheld =>
    rcases List.mem_pair.1 hf with rfl | rfl
    · exact .inr (.inl ⟨_, hheld, (Option.some.inj hsent).symm⟩)
    · cases hsent
  | expire =>
    obtain ⟨e, he, hf⟩ := of_mem_notifications hf
    exact .inr (.inr (.inl ⟨e, List.mem_of_mem_filter he, hf⟩))

end Broker

namespace ForwardingBase

variable {par : Params} {s s' : ForwardingBase} {now : SimTime} {ev : Event} {fx : List Effect}
  {P : Packet → Prop}

/-- Every packet the forwarder stores or holds has the property. -/
structure Carries (P : Packet → Prop) (s : ForwardingBase) : Prop where
  stored : ∀ e ∈ s.cs.entries, P (.data e.data)
  held : ∀ h, s.view.held = some h → P h.packet

theorem carries_initial (P : Packet → Prop) (par : Params) : (initial par).Carries P where
  stored := by simp [initial]
  held := by simp [view, initial, SendDelayed.held]

/-- The store takes in what arrives. -/
theorem Carries.stored_of_step (h : s.Carries P) (hhop : ∀ p, P p → P p.hop)
    (hin : ∀ p, Broker.arriving ev = some p → P p) :
    ∀ e ∈ (s.handleMessage now ev).1.cs.entries, P (.data e.data) := by
  have hkeep : ∀ {e : CsEntry}, (∃ e' ∈ s.cs.entries, e.data = e'.data) → P (.data e.data) := by
    rintro e ⟨e', he', heq⟩
    rw [heq]
    exact h.stored e' he'
  intro e he
  cases ev with
  | packet p src delay =>
    rcases data_of_mem_handlePacket he with he | ⟨d, rfl, he | he⟩
    · exact hkeep he
    · rw [he]
      exact hin _ rfl
    · rw [he]
      exact hhop _ (hin _ rfl)
  | other => exact h.stored e he
  | sendDelayedPacket =>
    have he : e ∈ (s.handleDelayed now).1.cs.entries := he
    rw [handleDelayed_cs] at he
    exact h.stored e he
  | checkTimeout => exact h.stored e he
  | checkExpired => exact h.stored e he
  | checkDataStale => exact hkeep (CsBase.data_of_mem_handleSelfMessage he)

/-- **A forwarder makes up no packets.** A property that does not depend on the hop count, and that
every packet on the input and every packet kept has, is kept by a step, and whatever the step sends
has it, time-out notifications apart. -/
theorem Carries.step (h : s.Carries P) (hhop : ∀ p, P p → P p.hop) (hs : (events par).Reachable s)
    (hstep : (events par).Step s (now, ev) fx s') (hin : ∀ p, Broker.arriving ev = some p → P p) :
    s'.Carries P ∧ ∀ f ∈ fx, ∀ p, f.sent = some p → P p ∨
      ∃ e ∈ s.view.pending, ∃ face,
        f = .sendUpper (.interest { e.interest with kind := TIMEOUT_CODE }) face := by
  have hmove := Reachable.move hs hstep
  obtain ⟨rfl, rfl⟩ := Prod.mk.inj hstep.2
  refine ⟨⟨h.stored_of_step hhop hin, fun q hq ↦ ?_⟩, fun f hf p hp ↦ ?_⟩
  · rcases hmove.held hq with hq | ⟨p, hp, hq⟩
    · exact h.held q hq
    · rw [hq]
      exact hhop p (hin p hp)
  · rcases hmove.sent hf hp with ⟨q, hq, rfl | rfl⟩ | ⟨q, hq, rfl⟩ | he | ⟨i, d, harr, rfl⟩
    · exact .inl (hin p hq)
    · exact .inl (hhop q (hin q hq))
    · exact .inl (h.held q hq)
    · exact .inr he
    · cases ev with
      | packet q src delay =>
        obtain rfl := Option.some.inj harr
        obtain ⟨-, -, hd⟩ := stored_of_answered hf hp
        obtain ⟨e, he, rfl, -⟩ := CsBase.of_lookup_eq_some hd
        exact .inl (h.stored e he)
      | _ => cases harr

end ForwardingBase

end Inet.Ndn
