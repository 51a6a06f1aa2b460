import Inet.Ndn.PendingRequests

/-!
# The delayed-send slot

One packet can wait for a random delay before it is sent. Three pieces of state describe it: the
flag `waiting`, the schedule of the self-message and the packet the message points to. `Sound` says
that they agree; here is what happens to a packet from the moment it is put into the slot.

`Broker.SlotUse` lists what a move can do to the slot: leave it alone, fill it when it is empty, let
the timer take the packet, or cancel. From this follows what a run can do (`held_path`): the packet
stays until a first transition takes it, which the timer or a packet of the same name does.

Two results are read off. `slot_used_safely` is the discipline of the slot. `reply_not_lost` is what
it means for a Data that has used up a PIT entry: the Data is sent, or cancelled by a Data of its
name, in exactly those runs in which no Interest of its name arrives while it waits. The cancelling
test compares names only, so such an Interest discards the Data.
-/

namespace Inet.Ndn

/-- The effects that concern the slot, and the errors its misuse would cause. -/
def Effect.isSlot : Effect → Bool
  | .setDelayedPacket _ => true
  | .deleteDelayedPacket _ => true
  | .scheduleAt _ => true
  | .cancelEvent => true
  | .error _ => true
  | _ => false

namespace Broker

open ForwardingBase (Event)

/-- What the timer sends for a held packet: the packet, unless it is an Interest that cannot be
recorded. -/
def Transmits (v : Broker) (sent : List Effect) : Held → Prop
  | .request i face _ macDest =>
    (∃ e ctrl, sent = [.pitCreate e, .sendLower (.interest i) macDest ctrl face]) ∨
      sent = [] ∧ v.Full
  | .reply d face macDest => ∃ ctrl, sent = [.sendLower (.data d) macDest ctrl face]

/-- What a move can do to the slot. -/
inductive SlotUse (v : Broker) (ev : Event) (fx : List Effect) (v' : Broker) : Prop
  | keep (hheld : v'.held = v.held) (hfx : ∀ f ∈ fx, f.isSlot = false)
  | fill {h : Held} {time : SimTime} (hfree : v.held = none) (hheld : v'.held = some h)
      (hfx : fx = [.setDelayedPacket h.packet, .scheduleAt time])
  | fire {h : Held} {sent : List Effect} (hev : ev = .sendDelayedPacket) (hheld : v.held = some h)
      (hfree : v'.held = none) (hfx : fx = sent ++ [.deleteDelayedPacket h.packet])
      (hsent : v.Transmits sent h)
  | cancel {h : Held} {p : Packet} {src : MACAddress} {delay : SimTime}
      (hev : ev = .packet p src delay) (hkind : p.kind ≠ REGISTER_PREFIX_CODE)
      (hheld : v.held = some h) (hname : p.name = h.packet.name) (hfree : v'.held = none)
      (hfx : fx = [.cancelEvent, .deleteDelayedPacket h.packet])

variable {toLink : Interest → Bool} {v v' : Broker} {now : SimTime} {ev : Event}
  {fx : List Effect}

theorem isSlot_answer (gate : Gate) (mac : MACAddress) (ctrl : Ieee802Ctrl) (d : Data) :
    (Effect.answer gate mac ctrl d).isSlot = false := by
  cases gate <;> rfl

theorem isSlot_of_forwards {f : Effect} {i : Interest} (h : f.Forwards i) : f.isSlot = false := by
  rcases h with ⟨macDest, ctrl, face, rfl⟩ | ⟨face, rfl⟩ <;> rfl

theorem Transmits.isSlot {sent : List Effect} {h : Held} (hsent : v.Transmits sent h) :
    ∀ f ∈ sent, f.isSlot = false := by
  cases h with
  | request i face macSrc macDest =>
    rcases hsent with ⟨e, ctrl, rfl⟩ | ⟨rfl, -⟩ <;> simp [Effect.isSlot]
  | reply d face macDest =>
    obtain ⟨ctrl, rfl⟩ := hsent
    simp [Effect.isSlot]

/-- Every move uses the slot in one of the four ways. -/
theorem Move.slotUse (hmove : Move toLink v now ev fx v') : v.SlotUse ev fx v' := by
  cases hmove with
  | quiet => exact .keep rfl (by simp)
  | duplicate => exact .keep rfl (by simp)
  | cached => exact .keep rfl (by simp [isSlot_answer])
  | accept _ _ _ _ _ hsend =>
    exact .keep rfl (List.forall_mem_cons.2
      ⟨rfl, List.forall_mem_singleton.2 (isSlot_of_forwards hsend)⟩)
  | refuse => exact .keep rfl (by simp)
  | holdRequest _ hfree => exact .fill hfree rfl rfl
  | reply => exact .keep rfl (by simp [isSlot_answer])
  | holdReply _ hfree => exact .fill hfree rfl rfl
  | discard => exact .keep rfl (by simp)
  | cancel hkind hheld hname => exact .cancel rfl hkind hheld hname rfl rfl
  | sendRequest hheld => exact .fire rfl hheld rfl rfl (.inl ⟨_, _, rfl⟩)
  | refuseRequest hheld hfull => exact .fire rfl hheld rfl rfl (.inr ⟨rfl, hfull⟩)
  | sendReply hheld => exact .fire rfl hheld rfl rfl ⟨_, rfl⟩
  | expire =>
    refine .keep rfl fun f hf ↦ ?_
    obtain ⟨e, -, index, rfl⟩ := of_mem_notifications hf
    rfl

/-- The slot's effects come with a change of the slot: the message is filled in and scheduled when
it was free, deleted or cancelled when it was not. -/
theorem SlotUse.of_isSlot (huse : v.SlotUse ev fx v') {f : Effect} (hf : f ∈ fx)
    (hslot : f.isSlot = true) :
    (∃ h time, v.held = none ∧ v'.held = some h ∧
        (f = .setDelayedPacket h.packet ∨ f = .scheduleAt time)) ∨
      ∃ h, v.held = some h ∧ v'.held = none ∧
        (f = .deleteDelayedPacket h.packet ∨ f = .cancelEvent) := by
  cases huse with
  | keep _ hfx => simp [hfx f hf] at hslot
  | @fill h time hfree hheld hfx =>
    rw [hfx] at hf
    exact .inl ⟨h, time, hfree, hheld, by simpa using hf⟩
  | @fire h sent _ hheld hfree hfx hsent =>
    rw [hfx] at hf
    rcases List.mem_append.1 hf with hf | hf
    · simp [hsent.isSlot f hf] at hslot
    · exact .inr ⟨h, hheld, hfree, .inl (List.mem_singleton.1 hf)⟩
  | @cancel h _ _ _ _ _ hheld _ hfree hfx =>
    rw [hfx] at hf
    exact .inr ⟨h, hheld, hfree, by simpa [or_comm] using hf⟩

end Broker

namespace ForwardingBase

variable {par : Params} {s e : ForwardingBase} {tr : List Trans}

/-- The packet the message points to is the one that is held. -/
theorem Sound.delayedPacket_eq (h : s.Sound) :
    s.sendDelayedPacket.delayedPacket = s.view.held.map Held.packet := by
  have hagree := h.owned_iff.symm.trans h.held_iff
  cases hheld : s.sendDelayedPacket.held with
  | none =>
    rw [hheld] at hagree
    simpa [view, hheld] using hagree
  | some p => rw [SendDelayed.delayedPacket_of_held hheld, view, hheld, Option.map_some]

/-- Every transition of a run uses the slot in one of the four ways. -/
theorem slotUse_of_mem (h : (events par).Run tr e) {t : Trans} (ht : t ∈ tr) :
    t.pre.view.SlotUse t.input.2 t.output t.post.view :=
  (Reachable.move (h.reachable_pre ht) (h.takes ht)).slotUse

/-- Along the transition the packet stays in the slot. -/
def Keeps (h : Held) (t : Trans) : Prop :=
  t.pre.view.held = some h ∧ t.post.view.held = some h ∧ ∀ f ∈ t.output, f.isSlot = false

/-- The timer takes the packet out of the slot. -/
def TimerTakes (h : Held) (t : Trans) : Prop :=
  t.input.2 = .sendDelayedPacket ∧ t.pre.view.held = some h ∧ t.post.view.held = none ∧
    ∃ sent, t.output = sent ++ [.deleteDelayedPacket h.packet] ∧ t.pre.view.Transmits sent h

/-- An arriving packet of the same name cancels the one in the slot. -/
def CancelTakes (h : Held) (t : Trans) : Prop :=
  (∃ p src delay, t.input.2 = .packet p src delay ∧ p.kind ≠ REGISTER_PREFIX_CODE ∧
      p.name = h.packet.name) ∧
    t.pre.view.held = some h ∧ t.post.view.held = none ∧
    t.output = [.cancelEvent, .deleteDelayedPacket h.packet]

/-- **The life of a held packet.** It stays, or there is a first transition that takes it. -/
theorem held_path (hr : (events par).Run tr s) {rest : List Trans}
    (hp : (events par).Path s rest e) {h : Held} (hheld : s.view.held = some h) :
    (e.view.held = some h ∧ ∀ t ∈ rest, Keeps h t) ∨
      ∃ mid u after, rest = mid ++ u :: after ∧ (∀ t ∈ mid, Keeps h t) ∧
        (TimerTakes h u ∨ CancelTakes h u) := by
  have huse : ∀ t ∈ rest, t.pre.view.SlotUse t.input.2 t.output t.post.view :=
    fun t ht ↦ slotUse_of_mem (hr.append hp) (List.mem_append_right _ ht)
  have hkeep : ∀ t ∈ rest, t.pre.view.held = some h → t.post.view.held = some h → Keeps h t := by
    intro t ht hpre hpost
    refine ⟨hpre, hpost, ?_⟩
    cases huse t ht with
    | keep _ hfx => exact hfx
    | fill hfree => simp [hpre] at hfree
    | fire _ _ hfree => simp [hpost] at hfree
    | cancel _ _ _ _ hfree => simp [hpost] at hfree
  rcases hp.persists_or_exits (P := fun s ↦ s.view.held = some h) hheld with
    ⟨he, hall⟩ | ⟨mid, u, after, rfl, hall, -, -, hpre, hpost⟩
  · exact .inl ⟨he, fun t ht ↦ hkeep t ht (hall t ht).1 (hall t ht).2⟩
  · refine .inr ⟨mid, u, after, rfl, fun t ht ↦
      hkeep t (List.mem_append_left _ ht) (hall t ht).1 (hall t ht).2, ?_⟩
    -- how the first transition without the packet used the slot says how it left
    cases huse u (by simp) with
    | keep hsame => exact absurd (hsame.trans hpre) hpost
    | fill hfree => simp [hpre] at hfree
    | fire hev hheld' hfree hfx hsent =>
      obtain rfl := Option.some.inj (hheld'.symm.trans hpre)
      exact .inl ⟨hev, hpre, hfree, _, hfx, hsent⟩
    | cancel hev hkind hheld' hname hfree hfx =>
      obtain rfl := Option.some.inj (hheld'.symm.trans hpre)
      exact .inr ⟨⟨_, _, _, hev, hkind, hname⟩, hpre, hfree, hfx⟩

/-! ### The discipline of the slot -/

/-- The transition leaves the packet in the slot. -/
def Stays (p : Packet) (t : Trans) : Prop :=
  t.pre.sendDelayedPacket.delayedPacket = some p ∧
    t.post.sendDelayedPacket.delayedPacket = some p ∧ ∀ f ∈ t.output, f.isSlot = false

/-- The packet leaves by the timer: it is transmitted and then deleted, or it is an Interest that a
full PIT refuses and only deleted. -/
def LeavesByTimer (p : Packet) (t : Trans) : Prop :=
  t.input.2 = .sendDelayedPacket ∧ t.post.sendDelayedPacket.delayedPacket = none ∧
    ∃ sent, t.output = sent ++ [.deleteDelayedPacket p] ∧ (∀ f ∈ sent, f.isSlot = false) ∧
      ((∃ macDest ctrl face, .sendLower p macDest ctrl face ∈ sent) ∨
        sent = [] ∧ p.getType = INTEREST ∧ t.pre.pit.entries.length = t.pre.pit.maxSize)

/-- The packet leaves by a cancellation, which a packet of its name causes. -/
def LeavesByCancel (p : Packet) (t : Trans) : Prop :=
  (∃ q src delay, t.input.2 = .packet q src delay ∧ q.name = p.name) ∧
    t.post.sendDelayedPacket.delayedPacket = none ∧
    t.output = [.cancelEvent, .deleteDelayedPacket p]

theorem sound_of_mem (h : (events par).Run tr e) {t : Trans} (ht : t ∈ tr) :
    t.pre.Sound ∧ t.post.Sound := by
  obtain ⟨before, after, -, hr, hs, -⟩ := h.eq_append_of_mem ht
  exact ⟨Reachable.sound ⟨_, hr⟩, Reachable.sound ⟨_, hr.snoc hs⟩⟩

theorem Keeps.stays {h : Held} {t : Trans} (ht : Keeps h t) (hs : t.pre.Sound ∧ t.post.Sound) :
    Stays h.packet t := by
  obtain ⟨hpre, hpost, hfx⟩ := ht
  refine ⟨?_, ?_, hfx⟩
  · rw [hs.1.delayedPacket_eq, hpre, Option.map_some]
  · rw [hs.2.delayedPacket_eq, hpost, Option.map_some]

theorem TimerTakes.leaves {h : Held} {t : Trans} (ht : TimerTakes h t) (hs : t.post.Sound) :
    LeavesByTimer h.packet t := by
  obtain ⟨hev, -, hpost, sent, hfx, hsent⟩ := ht
  refine ⟨hev, by rw [hs.delayedPacket_eq, hpost, Option.map_none], sent, hfx, hsent.isSlot, ?_⟩
  cases h with
  | request i face macSrc macDest =>
    rcases hsent with ⟨e, ctrl, rfl⟩ | ⟨rfl, hfull⟩
    · exact .inl ⟨macDest, ctrl, face, by simp⟩
    · exact .inr ⟨rfl, rfl, hfull⟩
  | reply d face macDest =>
    obtain ⟨ctrl, rfl⟩ := hsent
    exact .inl ⟨macDest, ctrl, face, by simp⟩

theorem CancelTakes.leaves {h : Held} {t : Trans} (ht : CancelTakes h t) (hs : t.post.Sound) :
    LeavesByCancel h.packet t := by
  obtain ⟨⟨p, src, delay, hev, -, hname⟩, -, hpost, hfx⟩ := ht
  exact ⟨⟨p, src, delay, hev, hname⟩, by rw [hs.delayedPacket_eq, hpost, Option.map_none], hfx⟩

/-- **The slot is used safely.** The flag, the timer and the packet agree in every reachable state;
no step of a run causes an error, schedules the message twice or overwrites a packet; and every
packet put into the slot stays there until it leaves once, by the timer or by a cancellation. -/
theorem slot_used_safely (h : (events par).Run tr s) :
    (s.waiting = s.scheduled.isSome ∧ s.waiting = s.sendDelayedPacket.delayedPacket.isSome) ∧
      (∀ t ∈ tr, (∀ err, .error err ∉ t.output) ∧
        (∀ time, .scheduleAt time ∈ t.output → t.pre.scheduled = none) ∧
        ∀ p, .setDelayedPacket p ∈ t.output → t.pre.sendDelayedPacket.delayedPacket = none) ∧
      ∀ before t after p, tr = before ++ t :: after → .setDelayedPacket p ∈ t.output →
        (s.sendDelayedPacket.delayedPacket = some p ∧ ∀ u ∈ after, Stays p u) ∨
          ∃ mid u rest, after = mid ++ u :: rest ∧ (∀ w ∈ mid, Stays p w) ∧
            (LeavesByTimer p u ∨ LeavesByCancel p u) := by
  have hsound := Reachable.sound ⟨tr, h⟩
  refine ⟨⟨hsound.scheduled_iff, hsound.owned_iff⟩, fun t ht ↦ ?_, ?_⟩
  · have hpre := (sound_of_mem h ht).1
    have huse := slotUse_of_mem h ht
    refine ⟨fun err he ↦ ?_, fun time hs ↦ ?_, fun p hp ↦ ?_⟩
    · rcases huse.of_isSlot he rfl with ⟨_, _, -, -, he | he⟩ | ⟨_, -, -, he | he⟩ <;> cases he
    · rcases huse.of_isSlot hs rfl with ⟨_, _, hfree, -⟩ | ⟨_, -, -, he | he⟩
      · refine hpre.scheduled_of_not_waiting ?_
        rw [hpre.held_iff]
        exact congrArg Option.isSome hfree
      · cases he
      · cases he
    · rcases huse.of_isSlot hp rfl with ⟨_, _, hfree, -⟩ | ⟨_, -, -, he | he⟩
      · rw [hpre.delayedPacket_eq, hfree, Option.map_none]
      · cases he
      · cases he
  · rintro before t after p rfl hp
    obtain ⟨m, hm, hpath⟩ := h.split
    cases hpath with
    | @cons s₀ s₁ _ i o _ hstep hpath =>
      have hmem : ∀ u ∈ after, u ∈ before ++ ⟨m, i, o, s₁⟩ :: after := by simp_all
      have huse := slotUse_of_mem h (t := ⟨m, i, o, s₁⟩) (by simp)
      obtain ⟨held, hheld, rfl⟩ : ∃ held, s₁.view.held = some held ∧ p = held.packet := by
        rcases huse.of_isSlot hp rfl with ⟨held, _, -, hheld, he | he⟩ | ⟨_, -, -, he | he⟩
        · exact ⟨held, hheld, by simpa using he⟩
        all_goals cases he
      rcases held_path (hm.snoc hstep) hpath hheld with
        ⟨hend, hall⟩ | ⟨mid, u, rest, rfl, hall, hleave⟩
      · refine .inl ⟨by rw [hsound.delayedPacket_eq, hend, Option.map_some], fun u hu ↦ ?_⟩
        exact (hall u hu).stays (sound_of_mem h (hmem u hu))
      · have hpost := (sound_of_mem h (hmem u (by simp))).2
        refine .inr ⟨mid, u, rest, rfl, fun w hw ↦ ?_, ?_⟩
        · exact (hall w hw).stays (sound_of_mem h (hmem w (by simp [hw])))
        · exact hleave.imp (fun ht ↦ ht.leaves hpost) (fun hc ↦ hc.leaves hpost)

/-- A delayed Interest that is transmitted, followed in the slot by its Data, which is cancelled. -/
theorem slot_used_safely_twice :
    let i : Interest := { name := [47, 97], arrivalGate := .lowerLayerIn 0, flood := true }
    let d : Data := { name := [47, 97], arrivalGate := .lowerLayerIn 0 }
    let par : Params := { forwarding := true, myMacAddress := ⟨1⟩ }
    let is := [(0, .packet (.interest i) ⟨2⟩ 5), (5, .sendDelayedPacket),
      (9, .packet (.data d) ⟨3⟩ 4), (10, .packet (.data d) ⟨3⟩ 4)]
    (∃ t ∈ trace par is, .setDelayedPacket (.data d.hop) ∈ t.output) ∧
      (stateAfter par is).waiting = (stateAfter par is).scheduled.isSome ∧
      ∀ t ∈ trace par is, ∀ err, .error err ∉ t.output := by
  intro i d par is
  have henabled : ∀ t ∈ trace par is, t.pre.Enabled t.input.2 := by decide
  obtain ⟨hstate, hsteps, -⟩ := slot_used_safely (run_trace henabled)
  exact ⟨by decide, hstate.1, fun t ht ↦ (hsteps t ht).1⟩

/-- With a full PIT, a delayed Interest leaves the slot by the timer without being transmitted, and
not by a cancellation. -/
theorem slot_interest_refused :
    let other : Interest := { name := [47, 98], arrivalGate := .upperLayerIn 0 }
    let i : Interest := { name := [47, 97], arrivalGate := .lowerLayerIn 0, flood := true }
    let par : Params := { forwarding := true, myMacAddress := ⟨1⟩, pitMaxSize := 1 }
    let is := [(0, .packet (.interest other) ⟨2⟩ 0), (1, .packet (.interest i) ⟨2⟩ 4),
      (5, .sendDelayedPacket)]
    (events par).Run (trace par is) (stateAfter par is) ∧
      (trace par is).map (·.output) =
        [((trace par is).map (·.output)).headD [],
          [.setDelayedPacket (.interest i.hop), .scheduleAt 5],
          [.deleteDelayedPacket (.interest i.hop)]] ∧
      (stateAfter par is).waiting = false := by
  intro other i par is
  exact ⟨run_trace (by decide), by decide, by decide⟩

/-! ### A Data that has used up a PIT entry -/

/-- `processLLData` takes the entry out of the PIT for the Data, and its face is one of the link. -/
def UsesUp (t : Trans) (d : Data) (e : PitEntry) (face : ℕ) : Prop :=
  (∃ src delay, t.input.2 = .packet (.data d) src delay) ∧ d.kind ≠ REGISTER_PREFIX_CODE ∧
    d.arrivalGate.isLower = true ∧ t.pre.waiting = false ∧
    (t.pre.pit.lookup d.name).1 = some e ∧ e.face = .lowerLayerIn face

/-- The Data is sent on the face to the address the entry names. -/
def SendsReply (d : Data) (e : PitEntry) (face : ℕ) (t : Trans) : Prop :=
  t.input.2 = .sendDelayedPacket ∧ ∃ ctrl, .sendLower (.data d) e.macSrc ctrl face ∈ t.output

/-- The Data is cancelled because another Data of its name is overheard. -/
def OverheardReply (d : Data) (t : Trans) : Prop :=
  (∃ d' src delay, t.input.2 = .packet (.data d') src delay ∧ d'.name = d.name) ∧
    t.output = [.cancelEvent, .deleteDelayedPacket (.data d)]

/-- The Data waits in the slot, and leaves it in one of these two ways or is still there at the end
of the run. -/
def ReplyKept (d : Data) (e : PitEntry) (face : ℕ) (after : List Trans) : Prop :=
  (∀ u ∈ after, Stays (.data d) u) ∨
    ∃ mid u rest, after = mid ++ u :: rest ∧ (∀ w ∈ mid, Stays (.data d) w) ∧
      (SendsReply d e face u ∨ OverheardReply d u)

/-- No Interest arrives that has the name of a Data in the slot. -/
def NoInterestMeetsReply (t : Trans) : Prop :=
  match t.input.2, t.pre.sendDelayedPacket.delayedPacket with
  | .packet (.interest i) _ _, some (.data d) => i.kind ≠ REGISTER_PREFIX_CODE → i.name ≠ d.name
  | _, _ => True

instance (t : Trans) : Decidable (NoInterestMeetsReply t) := by
  unfold NoInterestMeetsReply
  split <;> infer_instance

theorem noInterestMeetsReply_iff {t : Trans} :
    NoInterestMeetsReply t ↔
      ∀ i src delay d, t.input.2 = .packet (.interest i) src delay →
        i.kind ≠ REGISTER_PREFIX_CODE →
          t.pre.sendDelayedPacket.delayedPacket = some (.data d) → i.name ≠ d.name := by
  unfold NoInterestMeetsReply
  split
  · rename_i i src delay d hev hslot
    refine ⟨fun hne i' src' delay' d' hev' hkind hslot' ↦ ?_,
      fun h hkind ↦ h i src delay d hev hkind hslot⟩
    cases hev.symm.trans hev'
    cases hslot.symm.trans hslot'
    exact hne hkind
  · rename_i hne
    exact ⟨fun _ i src delay d hev _ hslot ↦ (hne i src delay d hev hslot).elim, fun _ ↦ trivial⟩

/-- Using up an entry fills the slot with the Data, one hop older, for the face and the address of
the entry. -/
theorem held_of_usesUp (h : (events par).Run tr s) (hfwd : par.forwarding = true) {t : Trans}
    (ht : t ∈ tr) {d : Data} {e : PitEntry} {face : ℕ} (huse : UsesUp t d e face) :
    t.post.view.held = some (.reply d.hop face e.macSrc) := by
  obtain ⟨⟨src, delay, hev⟩, hkind, hlower, hw, hlook, hface⟩ := huse
  have hreach := h.reachable_pre ht
  have hmove := Reachable.move hreach (h.takes ht)
  obtain ⟨hv, hfwd', -⟩ := Reachable.valid hreach
  have hfree := (Reachable.sound hreach).held_of_not_waiting hw
  have hfind : t.pre.view.pending.find? (PitEntry.isFor d.name) = some e := by
    rw [← hlook, PitBase.lookup_fst]
    rfl
  have hmem := Broker.of_find? hfind
  rw [hev] at hmove
  rw [hfwd] at hfwd'
  generalize t.pre.view = v at *
  generalize t.post.view = v' at *
  generalize t.output = fx at *
  cases hmove with
  | quiet hq =>
    cases hq with
    | registration hreg => exact absurd hreg hkind
    | busy _ hheld => simp [hfree] at hheld
    | unsolicited _ _ hfresh => exact absurd hmem.2.2 (hfresh e hmem.1)
  | reply _ _ hfind' _ hlocal =>
    obtain rfl := Option.some.inj (hfind'.symm.trans hfind)
    have := hlocal hlower
    simp [hface, Gate.isLower] at this
  | holdReply _ _ _ _ hfind' hface' =>
    obtain rfl := Option.some.inj (hfind'.symm.trans hfind)
    rw [hface] at hface'
    cases hface'
    rfl
  | discard _ _ hno => simp [hfwd'] at hno
  | cancel _ hheld => simp [hfree] at hheld

/-- A packet that arrives with the name of the one in the slot empties the slot, whatever the types
of the two. -/
theorem held_eq_none_of_same_name {toLink : Interest → Bool} {v v' : Broker} {now : SimTime}
    {fx : List Effect} {p : Packet} {src : MACAddress} {delay : SimTime} {h : Held}
    (hmove : Broker.Move toLink v now (.packet p src delay) fx v')
    (hkind : p.kind ≠ REGISTER_PREFIX_CODE) (hheld : v.held = some h)
    (hname : p.name = h.packet.name) : v'.held = none := by
  cases hmove with
  | quiet hq =>
    cases hq with
    | registration hreg => exact absurd hreg hkind
    | busy _ hheld' hne =>
      obtain rfl := Option.some.inj (hheld'.symm.trans hheld)
      exact absurd hname hne
    | unrouted _ hfree => simp [hheld] at hfree
    | unsolicited _ hfree => simp [hheld] at hfree
  | duplicate _ hfree => simp [hheld] at hfree
  | cached _ hfree => simp [hheld] at hfree
  | accept _ hfree => simp [hheld] at hfree
  | refuse _ hfree => simp [hheld] at hfree
  | holdRequest _ hfree => simp [hheld] at hfree
  | reply _ hfree => simp [hheld] at hfree
  | holdReply _ hfree => simp [hheld] at hfree
  | discard _ hfree => simp [hheld] at hfree
  | cancel => rfl

/-- The Data a used-up entry was given to is kept, when no Interest of its name meets it. -/
theorem replyKept_of_usesUp {before after : List Trans} {t : Trans}
    (h : (events par).Run (before ++ t :: after) s) (hfwd : par.forwarding = true)
    (hno : ∀ u ∈ before ++ t :: after, NoInterestMeetsReply u) {d : Data} {e : PitEntry} {face : ℕ}
    (huse : UsesUp t d e face) : ReplyKept d.hop e face after := by
  have hheld := held_of_usesUp h hfwd (by simp) huse
  have hmem : ∀ u ∈ after, u ∈ before ++ t :: after := by simp_all
  obtain ⟨m, hm, hpath⟩ := h.split
  cases hpath with
  | cons hstep hpath =>
    rcases held_path (hm.snoc hstep) hpath hheld with
      ⟨-, hall⟩ | ⟨mid, u, rest, rfl, hall, hleave⟩
    · exact .inl fun u hu ↦ (hall u hu).stays (sound_of_mem h (hmem u hu))
    · refine .inr ⟨mid, u, rest, rfl,
        fun w hw ↦ (hall w hw).stays (sound_of_mem h (hmem w (by simp [hw]))), ?_⟩
      have hu := hmem u (by simp)
      rcases hleave with ⟨hev, -, -, sent, hfx, hsent⟩ | ⟨⟨p, src, delay, hev, hkind, hname⟩, hpre,
        -, hfx⟩
      · obtain ⟨ctrl, rfl⟩ := hsent
        exact .inl ⟨hev, ctrl, by simp [hfx]⟩
      · refine .inr ⟨?_, hfx⟩
        cases p with
        | data d' => exact ⟨d', src, delay, hev, hname⟩
        | interest i =>
          -- only names are compared: an Interest would have done the same
          have hslot := (sound_of_mem h hu).1.delayedPacket_eq
          rw [hpre, Option.map_some] at hslot
          exact absurd hname
            (noInterestMeetsReply_iff.1 (hno u hu) i src delay d.hop hev hkind hslot)

/-- **When a Data that used up a PIT entry is not lost.** In a run with forwarding enabled, every
Data that takes an entry of the link out of the PIT is sent on the entry's face or cancelled by an
overheard Data of its name (unless the run ends while it waits), and no arriving Interest discards a
Data that waits, if and only if no Interest ever arrives that has the name of the Data in the
slot. -/
theorem reply_not_lost (h : (events par).Run tr s) (hfwd : par.forwarding = true) :
    ((∀ before t after d e face, tr = before ++ t :: after → UsesUp t d e face →
        ReplyKept d.hop e face after) ∧
      ∀ t ∈ tr, ∀ i src delay d, t.input.2 = .packet (.interest i) src delay →
        t.pre.sendDelayedPacket.delayedPacket = some (.data d) →
          t.post.sendDelayedPacket.delayedPacket = some (.data d)) ↔
      ∀ t ∈ tr, NoInterestMeetsReply t := by
  constructor
  · rintro ⟨-, hkeep⟩ t ht
    refine noInterestMeetsReply_iff.2 fun i src delay d hev hkind hslot hname ↦ ?_
    have hpre := (sound_of_mem h ht).1.delayedPacket_eq
    have hpost := (sound_of_mem h ht).2.delayedPacket_eq
    rw [hslot] at hpre
    obtain ⟨held, hheld, hpacket⟩ := Option.map_eq_some_iff.1 hpre.symm
    have hmove := Reachable.move (h.reachable_pre ht) (h.takes ht)
    rw [hev] at hmove
    have hnone := held_eq_none_of_same_name hmove hkind hheld (by rw [hpacket]; exact hname)
    rw [hnone, hkeep t ht i src delay d hev hslot] at hpost
    cases hpost
  · intro hno
    refine ⟨?_, fun t ht i src delay d hev hslot ↦ ?_⟩
    · rintro before t after d e face rfl huse
      exact replyKept_of_usesUp h hfwd hno huse
    · have hpre := (sound_of_mem h ht).1.delayedPacket_eq
      rw [hslot] at hpre
      obtain ⟨held, hheld, hpacket⟩ := Option.map_eq_some_iff.1 hpre.symm
      rw [(sound_of_mem h ht).2.delayedPacket_eq]
      cases slotUse_of_mem h ht with
      | keep hsame => rw [hsame, hheld, Option.map_some, hpacket]
      | fill hfree => simp [hheld] at hfree
      | fire hev' => simp [hev] at hev'
      | cancel hev' hkind hheld' hname =>
        obtain rfl := Option.some.inj (hheld'.symm.trans hheld)
        rw [hev] at hev'
        cases hev'
        rw [hpacket] at hname
        exact absurd hname (noInterestMeetsReply_iff.1 (hno t ht) i src delay d hev hkind hslot)

/-- The Data of a delayed Interest takes its entry out of the PIT and waits; what follows keeps
it. -/
theorem reply_not_lost_sent :
    let i : Interest := { name := [47, 97], arrivalGate := .lowerLayerIn 0, flood := true }
    let d : Data := { name := [47, 97], arrivalGate := .lowerLayerIn 0 }
    let par : Params := { forwarding := true, myMacAddress := ⟨1⟩ }
    let is := [(0, .packet (.interest i) ⟨2⟩ 5), (5, .sendDelayedPacket),
      (9, .packet (.data d) ⟨3⟩ 4), (13, .sendDelayedPacket)]
    (∃ t ∈ trace par is, ∃ e, UsesUp t d e 0) ∧
      ∀ before t after d e face, trace par is = before ++ t :: after → UsesUp t d e face →
        ReplyKept d.hop e face after := by
  intro i d par is
  have henabled : ∀ t ∈ trace par is, t.pre.Enabled t.input.2 := by decide
  refine ⟨⟨(trace par is)[2], List.getElem_mem _, PitEntry.make 5 i.hop (.lowerLayerIn 0) ⟨2⟩,
    ⟨⟨3⟩, 4, rfl⟩, by decide, rfl, by decide, by decide, rfl⟩, ?_⟩
  exact ((reply_not_lost (run_trace henabled) rfl).2 (by decide)).1

/-- A neighbour that asks again while the Data waits makes it disappear: the PIT entry is gone, the
slot is empty and no Data was sent. -/
theorem reply_lost_to_retransmission :
    let i : Interest := { name := [47, 97], arrivalGate := .lowerLayerIn 0, flood := true }
    let d : Data := { name := [47, 97], arrivalGate := .lowerLayerIn 0 }
    let par : Params := { forwarding := true, myMacAddress := ⟨1⟩ }
    let is := [(0, .packet (.interest i) ⟨2⟩ 5), (5, .sendDelayedPacket),
      (9, .packet (.data d) ⟨3⟩ 4), (11, .packet (.interest i) ⟨2⟩ 5)]
    (events par).Run (trace par is) (stateAfter par is) ∧
      (∃ before t after e, trace par is = before ++ t :: after ∧ UsesUp t d e 0 ∧
        ¬ ReplyKept d.hop e 0 after) ∧
      (∃ t ∈ trace par is, t.input.2 = .packet (.interest i) ⟨2⟩ 5 ∧
        t.pre.sendDelayedPacket.delayedPacket = some (.data d.hop) ∧
        t.post.sendDelayedPacket.delayedPacket = none) ∧
      (stateAfter par is).pit.entries = [] := by
  intro i d par is
  have hpost : (trace par is)[3].post.sendDelayedPacket.delayedPacket = none := by decide
  have hlast : (trace par is).drop 3 = [(trace par is)[3]] := rfl
  refine ⟨run_trace (by decide),
    ⟨(trace par is).take 2, (trace par is)[2], (trace par is).drop 3,
      PitEntry.make 5 i.hop (.lowerLayerIn 0) ⟨2⟩, rfl,
      ⟨⟨⟨3⟩, 4, rfl⟩, by decide, rfl, by decide, by decide, rfl⟩, ?_⟩,
    ⟨(trace par is)[3], List.getElem_mem _, rfl, by decide, hpost⟩, by decide⟩
  rw [hlast]
  rintro (hall | ⟨mid, u, rest, heq, -, hleave⟩)
  · have hstays := (hall _ (List.mem_singleton_self _)).2.1
    rw [hpost] at hstays
    cases hstays
  · obtain ⟨rfl, hu⟩ : mid = [] ∧ (trace par is)[3] = u := by
      cases mid with
      | nil => exact ⟨rfl, (List.cons.inj heq).1⟩
      | cons w mid => simp at heq
    subst hu
    rcases hleave with ⟨hev, -⟩ | ⟨⟨d', src, delay, hev, -⟩, -⟩ <;> cases hev

end ForwardingBase

end Inet.Ndn
