import Inet.Ndn.DelaySlot

/-!
# The statistics of the forwarder

The laws the counters are meant to obey (`StatisticsBalanced`), and exactly when they do.

Two counters are bumped far from the event they count. `numIntFwd` is bumped by the callers of
`forwardInterestToRemote`, also when the full PIT made it do nothing. `numIntCanceled` and
`numDataCanceled` are told apart by the type of the packet that arrives, not of the one that is
cancelled. A step is `Counted` when neither goes wrong. `Move.increments` says that the counters
of one move then grow as they should, `Move.counted` that otherwise they do not;
`statistics_balanced_iff` is the same for runs.
-/

namespace Inet.Ndn

namespace Effect

/-- A packet of the type goes into the slot. -/
def places (type : ℕ) : Effect → Bool
  | .setDelayedPacket p => p.getType == type
  | _ => false

/-- A packet of the type that was in the slot is deleted. -/
def deletes (type : ℕ) : Effect → Bool
  | .deleteDelayedPacket p => p.getType == type
  | _ => false

/-- A packet of the type is sent to the link. -/
def sendsLower (type : ℕ) : Effect → Bool
  | .sendLower p _ _ _ => p.getType == type
  | _ => false

end Effect

namespace Broker

open ForwardingBase (Event receiveSignal)

/-- The delayed-send timer fires. -/
def isTimer : Event → Bool
  | .sendDelayedPacket => true
  | _ => false

/-- A packet arrives. -/
def isArrival : Event → Bool
  | .packet _ _ _ => true
  | _ => false

/-- One if a packet of the type is held. -/
def holds (v : Broker) (type : ℕ) : ℕ :=
  v.held.toList.countP fun h ↦ h.packet.getType == type

/-- What the event does is counted correctly: an Interest that is to go to the link finds room in
the PIT, and a packet that cancels another is of its type. -/
def Counted (toLink : Interest → Bool) (v : Broker) : Event → Prop
  | .sendDelayedPacket =>
    match v.held with
    | some (.request _ _ _ _) => ¬ v.Full
    | _ => True
  | .packet p _ _ => p.kind ≠ REGISTER_PREFIX_CODE →
    match v.held, p with
    | some h, _ => p.name = h.packet.name → p.getType = h.packet.getType
    | none, .interest i => toLink i = true → ¬ v.Full
    | none, .data _ => True
  | _ => True

instance (v : Broker) : Decidable v.Full := by
  unfold Full
  infer_instance

instance (toLink : Interest → Bool) (v : Broker) : (ev : Event) → Decidable (v.Counted toLink ev)
  | .sendDelayedPacket =>
    match h : v.held with
    | some (.request _ _ _ _) => decidable_of_iff (¬ v.Full) (by simp [Counted, h])
    | some (.reply _ _ _) => .isTrue (by simp [Counted, h])
    | none => .isTrue (by simp [Counted, h])
  | .packet p _ _ =>
    match h : v.held with
    | some held =>
      decidable_of_iff (p.kind ≠ REGISTER_PREFIX_CODE → p.name = held.packet.name →
        p.getType = held.packet.getType) (by simp [Counted, h])
    | none =>
      match p with
      | .interest i =>
        decidable_of_iff (i.kind ≠ REGISTER_PREFIX_CODE → toLink i = true → ¬ v.Full)
          (by simp [Counted, h])
      | .data _ => .isTrue (by simp [Counted, h])
  | .other => .isTrue trivial
  | .checkTimeout => .isTrue trivial
  | .checkExpired => .isTrue trivial
  | .checkDataStale => .isTrue trivial

/-- The counters grow by what the effects say. -/
structure Increments (v : Broker) (ev : Event) (fx : List Effect) (v' : Broker) : Prop where
  intFwd : v'.numIntFwd = v.numIntFwd + fx.countP Effect.isLinkInterest
  dataFwd : v'.numDataFwd =
    v.numDataFwd + (effectsOn isTimer ev fx).countP (Effect.sendsLower DATA)
  intCanceled : v'.numIntCanceled =
    v.numIntCanceled + (effectsOn isArrival ev fx).countP (Effect.deletes INTEREST)
  dataCanceled : v'.numDataCanceled =
    v.numDataCanceled + (effectsOn isArrival ev fx).countP (Effect.deletes DATA)
  slot : ∀ type, v.holds type + fx.countP (Effect.places type) =
    (effectsOn isTimer ev fx).countP (Effect.sendsLower type) +
      (effectsOn isArrival ev fx).countP (Effect.deletes type) + v'.holds type

variable {toLink : Interest → Bool} {v v' : Broker} {now : SimTime} {ev : Event}
  {fx : List Effect}

/-- Effects none of which concerns the slot, of an event that is not the timer, change no counter
but that of the forwarded Interests. -/
theorem Increments.of_keep (hheld : v'.held = v.held) (hslot : ∀ f ∈ fx, f.isSlot = false)
    (htimer : isTimer ev = false)
    (hintFwd : v'.numIntFwd = v.numIntFwd + fx.countP Effect.isLinkInterest)
    (hrest : v'.numDataFwd = v.numDataFwd ∧ v'.numIntCanceled = v.numIntCanceled ∧
      v'.numDataCanceled = v.numDataCanceled) : v.Increments ev fx v' := by
  have hplaces : ∀ type, fx.countP (Effect.places type) = 0 := by
    intro type
    rw [List.countP_eq_zero]
    intro f hf
    have hf := hslot f hf
    cases f <;> simp_all [Effect.places, Effect.isSlot]
  have hdeletes : ∀ type, (effectsOn isArrival ev fx).countP (Effect.deletes type) = 0 := by
    intro type
    unfold effectsOn
    split
    · rw [List.countP_eq_zero]
      intro f hf
      have hf := hslot f hf
      cases f <;> simp_all [Effect.deletes, Effect.isSlot]
    · rfl
  have hsends : effectsOn isTimer ev fx = [] := by simp [effectsOn, htimer]
  constructor
  · exact hintFwd
  · rw [hsends, hrest.1, List.countP_nil, Nat.add_zero]
  · rw [hdeletes, hrest.2.1, Nat.add_zero]
  · rw [hdeletes, hrest.2.2, Nat.add_zero]
  · intro type
    rw [hplaces, hdeletes, hsends, List.countP_nil, holds, holds, hheld]
    omega

theorem isLinkInterest_answer (gate : Gate) (mac : MACAddress) (ctrl : Ieee802Ctrl) (d : Data) :
    (Effect.answer gate mac ctrl d).isLinkInterest = false := by
  cases gate <;> rfl

/-- Putting a packet into the free slot is counted. -/
theorem Increments.of_fill {h : Held} {time : SimTime} (hfree : v.held = none)
    (hheld : v'.held = some h) (hev : isTimer ev = false)
    (hrest : v'.numIntFwd = v.numIntFwd ∧ v'.numDataFwd = v.numDataFwd ∧
      v'.numIntCanceled = v.numIntCanceled ∧ v'.numDataCanceled = v.numDataCanceled) :
    v.Increments ev [.setDelayedPacket h.packet, .scheduleAt time] v' := by
  obtain ⟨hintFwd, hdataFwd, hintCanceled, hdataCanceled⟩ := hrest
  have hsends : effectsOn isTimer ev [.setDelayedPacket h.packet, .scheduleAt time] = [] := by
    simp [effectsOn, hev]
  have hdeletes : ∀ type, (effectsOn isArrival ev
      [.setDelayedPacket h.packet, .scheduleAt time]).countP (Effect.deletes type) = 0 := by
    intro type
    unfold effectsOn
    split <;> rfl
  constructor
  · rw [hintFwd]; rfl
  · rw [hsends, hdataFwd]; rfl
  · rw [hdeletes, hintCanceled, Nat.add_zero]
  · rw [hdeletes, hdataCanceled, Nat.add_zero]
  · intro type
    rw [hdeletes, hsends, holds, holds, hfree, hheld]
    simp [Effect.places, List.countP_cons]

/-- An Interest that finds the slot free. -/
theorem counted_interest {i : Interest} {src : MACAddress} {delay : SimTime} (hfree : v.held = none)
    (hlink : toLink i = true → ¬ v.Full) :
    v.Counted toLink (.packet (.interest i) src delay) := by
  simpa [Counted, hfree] using fun _ ↦ hlink

theorem counted_data {d : Data} {src : MACAddress} {delay : SimTime} (hfree : v.held = none) :
    v.Counted toLink (.packet (.data d) src delay) := by
  simp [Counted, hfree]

theorem counted_held {p : Packet} {src : MACAddress} {delay : SimTime} {h : Held}
    (hheld : v.held = some h) (htype : p.name = h.packet.name → p.getType = h.packet.getType) :
    v.Counted toLink (.packet p src delay) := by
  simpa [Counted, hheld] using fun _ ↦ htype

/-- **Counted steps are counted correctly.** -/
theorem Move.increments (hmove : Move toLink v now ev fx v') (hv : v.Valid)
    (hc : v.Counted toLink ev) : v.Increments ev fx v' := by
  cases hmove with
  | quiet => constructor <;> simp [effectsOn]
  | duplicate => constructor <;> simp [effectsOn, holds]
  | cached =>
    exact .of_keep rfl (by simp [isSlot_answer]) rfl (by simp [isLinkInterest_answer])
      ⟨rfl, rfl, rfl⟩
  | accept _ _ _ _ _ hsend =>
    refine .of_keep rfl (List.forall_mem_cons.2
      ⟨rfl, List.forall_mem_singleton.2 (isSlot_of_forwards hsend)⟩) rfl ?_ ⟨rfl, rfl, rfl⟩
    rfl
  | @refuse i src delay hkind hfree hfresh hfull =>
    have hlink : toLink i = false := by
      simp only [Counted, hfree] at hc
      exact Bool.eq_false_iff.2 fun hlink ↦ hc hkind hlink hfull
    constructor <;> simp [effectsOn, holds, hlink]
  | holdRequest _ hfree => exact .of_fill (h := .request ..) hfree rfl rfl ⟨rfl, rfl, rfl, rfl⟩
  | reply =>
    exact .of_keep rfl (by simp [isSlot_answer]) rfl (by simp [isLinkInterest_answer])
      ⟨rfl, rfl, rfl⟩
  | holdReply _ hfree => exact .of_fill (h := .reply ..) hfree rfl rfl ⟨rfl, rfl, rfl, rfl⟩
  | discard => constructor <;> simp [effectsOn, holds]
  | @cancel p src delay h hkind hheld hname =>
    simp only [Counted, hheld] at hc
    have htype := hc hkind hname
    cases h <;> simp only [Held.packet, Packet.getType_interest, Packet.getType_data] at htype <;>
      constructor <;>
        simp [effectsOn, isTimer, isArrival, holds, hheld, htype, Effect.isLinkInterest,
          Effect.places, Effect.deletes, List.countP_cons, INTEREST, DATA]
  | sendRequest hheld =>
    have hlower := hv.held_lower _ _ _ _ hheld
    constructor <;>
      simp [effectsOn, isTimer, isArrival, holds, hheld, hlower, Effect.isLinkInterest,
        Effect.places, Effect.sendsLower, List.countP_cons, INTEREST, DATA]
  | refuseRequest hheld hfull =>
    simp only [Counted, hheld] at hc
    exact absurd hfull hc
  | sendReply hheld =>
    constructor <;>
      simp [effectsOn, isTimer, isArrival, holds, hheld, Effect.isLinkInterest, Effect.places,
        Effect.sendsLower, List.countP_cons, INTEREST, DATA]
  | expire =>
    have hnotes : ∀ f ∈ (v.pending.filter (PitEntry.isTimedout now)).flatMap
        fun e ↦ receiveSignal e.notification, f.isSlot = false ∧ f.isLinkInterest = false := by
      intro f hf
      obtain ⟨e, -, index, rfl⟩ := of_mem_notifications hf
      exact ⟨rfl, rfl⟩
    refine .of_keep rfl (fun f hf ↦ (hnotes f hf).1) rfl ?_ ⟨rfl, rfl, rfl⟩
    rw [List.countP_eq_zero.2 fun f hf ↦ by simp [(hnotes f hf).2], Nat.add_zero]

theorem Quiet.counted (hq : v.Quiet toLink ev) : v.Counted toLink ev := by
  cases hq with
  | other => trivial
  | checkExpired => trivial
  | checkDataStale => trivial
  | registration hreg => exact fun hkind ↦ absurd hreg hkind
  | busy _ hheld hname =>
    exact counted_held hheld fun hname' ↦ absurd hname' hname
  | unrouted _ hfree _ _ hlink => exact counted_interest hfree (by simp [hlink])
  | unsolicited _ hfree => exact counted_data hfree

/-- When the counters grow as they should, the step was counted correctly: a refused Interest would
have raised `numIntFwd`, a cancellation across types the wrong one of its two counters. -/
theorem Move.counted (hmove : Move toLink v now ev fx v')
    (hintFwd : v'.numIntFwd = v.numIntFwd + fx.countP Effect.isLinkInterest)
    (hintCanceled : v'.numIntCanceled =
      v.numIntCanceled + (effectsOn isArrival ev fx).countP (Effect.deletes INTEREST)) :
    v.Counted toLink ev := by
  cases hmove with
  | quiet hq => exact hq.counted
  | duplicate _ hfree _ hlink => exact counted_interest hfree (by simp [hlink])
  | cached _ hfree _ hlink => exact counted_interest hfree (by simp [hlink])
  | accept _ hfree _ hroom => exact counted_interest hfree fun _ ↦ hroom
  | refuse _ hfree =>
    refine counted_interest hfree fun hlink ↦ ?_
    simp [hlink] at hintFwd
  | holdRequest _ hfree _ _ _ hlink => exact counted_interest hfree (by simp [hlink])
  | reply _ hfree => exact counted_data hfree
  | holdReply _ hfree => exact counted_data hfree
  | discard _ hfree => exact counted_data hfree
  | @cancel p src delay h _ hheld =>
    -- four pairs of types, two of which raise the wrong counter
    refine counted_held hheld fun _ ↦ ?_
    cases p <;> cases h <;>
      simp [effectsOn, isArrival, Effect.deletes, INTEREST, DATA] at hintCanceled ⊢
  | sendRequest hheld hroom => simpa [Counted, hheld] using hroom
  | refuseRequest =>
    simp [Effect.isLinkInterest] at hintFwd
  | sendReply hheld => simp [Counted, hheld]
  | expire => trivial

end Broker

namespace ForwardingBase

open Broker (isTimer isArrival)

variable {par : Params} {s e : ForwardingBase} {tr : List Trans}

/-- One if a packet of the type waits in the slot. -/
def waitingOf (s : ForwardingBase) (type : ℕ) : ℕ :=
  s.sendDelayedPacket.delayedPacket.toList.countP fun p ↦ p.getType == type

/-- How many packets of the type the timer sent. -/
def sentByTimer (type : ℕ) (tr : List Trans) : ℕ :=
  (effectsWhen isTimer tr).countP (Effect.sendsLower type)

/-- How many delayed packets of the type were cancelled. -/
def cancelled (type : ℕ) (tr : List Trans) : ℕ :=
  (effectsWhen isArrival tr).countP (Effect.deletes type)

/-- How many packets of the type were put into the slot. -/
def placed (type : ℕ) (tr : List Trans) : ℕ :=
  (effects tr).countP (Effect.places type)

/-- The laws of the statistics, after a run. -/
structure StatisticsBalanced (tr : List Trans) (s : ForwardingBase) : Prop where
  /-- Interests from the link that were sent to the link. -/
  numIntFwd : s.stat.numIntFwd = (effects tr).countP Effect.isLinkInterest
  /-- Delayed Data that were sent. -/
  numDataFwd : s.stat.numDataFwd = sentByTimer DATA tr
  numIntCanceled : s.stat.numIntCanceled = cancelled INTEREST tr
  numDataCanceled : s.stat.numDataCanceled = cancelled DATA tr
  /-- Interests put into the slot are sent by the timer, cancelled or still there. -/
  interests : placed INTEREST tr =
    sentByTimer INTEREST tr + s.stat.numIntCanceled + s.waitingOf INTEREST
  /-- Data put into the slot are sent by the timer, cancelled or still there. -/
  data : placed DATA tr = sentByTimer DATA tr + s.stat.numDataCanceled + s.waitingOf DATA

/-- The step is counted correctly. -/
def Counted (t : Trans) : Prop :=
  t.pre.view.Counted t.pre.routesToLink t.input.2

instance (t : Trans) : Decidable (Counted t) := by
  unfold Counted
  infer_instance

theorem Sound.waitingOf_eq (h : s.Sound) (type : ℕ) : s.waitingOf type = s.view.holds type := by
  rw [waitingOf, h.delayedPacket_eq, Broker.holds]
  cases s.view.held <;> rfl

/-- The laws survive a step whose counters grow as the effects say. -/
theorem StatisticsBalanced.snoc {t : Trans} (hbal : StatisticsBalanced tr t.pre)
    (hpre : t.pre.Sound) (hpost : t.post.Sound)
    (hinc : t.pre.view.Increments t.input.2 t.output t.post.view) :
    StatisticsBalanced (tr ++ [t]) t.post := by
  obtain ⟨hintFwd, hdataFwd, hintCanceled, hdataCanceled, hslot⟩ := hinc
  have hint := hslot INTEREST
  have hdata := hslot DATA
  rw [← hpre.waitingOf_eq, ← hpost.waitingOf_eq] at hint hdata
  obtain ⟨h₁, h₂, h₃, h₄, h₅, h₆⟩ := hbal
  simp only [view] at hintFwd hdataFwd hintCanceled hdataCanceled
  unfold sentByTimer cancelled placed at *
  constructor <;>
    simp only [sentByTimer, cancelled, placed, countP_effects_snoc, countP_effectsWhen_snoc] <;>
    omega

/-- If the laws hold before and after a step, the step was counted correctly. -/
theorem StatisticsBalanced.counted {t : Trans} (hbal : StatisticsBalanced tr t.pre)
    (hbal' : StatisticsBalanced (tr ++ [t]) t.post)
    (hmove : Broker.Move t.pre.routesToLink t.pre.view t.input.1 t.input.2 t.output t.post.view) :
    Counted t := by
  have hintFwd := hbal'.numIntFwd
  have hintCanceled := hbal'.numIntCanceled
  rw [countP_effects_snoc, ← hbal.numIntFwd] at hintFwd
  rw [cancelled, countP_effectsWhen_snoc, ← cancelled, ← hbal.numIntCanceled] at hintCanceled
  exact hmove.counted hintFwd hintCanceled

/-- **When the statistics balance.** The laws hold at every point of a run if and only if every step
of the run is counted correctly. -/
theorem statistics_balanced_iff (h : (events par).Run tr e) :
    (∀ tr₁ s, tr₁ <+: tr → (events par).Run tr₁ s → StatisticsBalanced tr₁ s) ↔
      ∀ t ∈ tr, Counted t := by
  refine h.forall_prefix_iff ?_ ?_
  · rintro s rfl
    constructor <;> rfl
  · rintro tr s ⟨now, ev⟩ fx s' hrun hbal hstep
    have hreach : (events par).Reachable s := ⟨tr, hrun⟩
    have hmove := Reachable.move hreach hstep
    have hpost := Reachable.sound ⟨_, hrun.snoc hstep⟩
    exact ⟨fun hbal' ↦ hbal.counted hbal' hmove, fun hc ↦
      hbal.snoc (Reachable.sound hreach) hpost
        (hmove.increments (Reachable.valid hreach).1 hc)⟩

/-- A delayed Interest and its delayed Data are both sent, and counted. -/
theorem statistics_balanced_both_sent :
    let i : Interest := { name := [47, 97], arrivalGate := .lowerLayerIn 0, flood := true }
    let d : Data := { name := [47, 97], arrivalGate := .lowerLayerIn 0 }
    let par : Params := { forwarding := true, myMacAddress := ⟨1⟩ }
    let is := [(0, .packet (.interest i) ⟨2⟩ 5), (5, .sendDelayedPacket),
      (9, .packet (.data d) ⟨3⟩ 4), (13, .sendDelayedPacket)]
    (stateAfter par is).stat.numIntFwd = 1 ∧ (stateAfter par is).stat.numDataFwd = 1 ∧
      StatisticsBalanced (trace par is) (stateAfter par is) := by
  intro i d par is
  have hrun : (events par).Run (trace par is) (stateAfter par is) := run_trace (by decide)
  exact ⟨by decide, by decide,
    (statistics_balanced_iff hrun).2 (by decide) _ _ List.prefix_rfl hrun⟩

/-- An Interest that a full PIT refuses is counted as forwarded, and a Data that an Interest cancels
as a cancelled Interest. -/
theorem statistics_out_of_balance :
    let other : Interest := { name := [47, 98], arrivalGate := .upperLayerIn 0 }
    let i : Interest := { name := [47, 97], arrivalGate := .lowerLayerIn 0, flood := true }
    let d : Data := { name := [47, 97], arrivalGate := .lowerLayerIn 0 }
    let small : Params := { forwarding := true, myMacAddress := ⟨1⟩, pitMaxSize := 1 }
    let refused := [(0, .packet (.interest other) ⟨2⟩ 0), (1, .packet (.interest i) ⟨2⟩ 4),
      (5, .sendDelayedPacket)]
    let par : Params := { forwarding := true, myMacAddress := ⟨1⟩ }
    let crossed := [(0, .packet (.interest i) ⟨2⟩ 5), (5, .sendDelayedPacket),
      (9, .packet (.data d) ⟨3⟩ 4), (11, .packet (.interest i) ⟨2⟩ 5)]
    ((events small).Run (trace small refused) (stateAfter small refused) ∧
        (stateAfter small refused).stat.numIntFwd = 1 ∧
        ¬ StatisticsBalanced (trace small refused) (stateAfter small refused)) ∧
      (events par).Run (trace par crossed) (stateAfter par crossed) ∧
        (stateAfter par crossed).stat.numIntCanceled = 1 ∧
        ¬ StatisticsBalanced (trace par crossed) (stateAfter par crossed) := by
  intro other i d small refused par crossed
  exact ⟨⟨run_trace (by decide), by decide, fun h ↦ absurd h.numIntFwd (by decide)⟩,
    run_trace (by decide), by decide, fun h ↦ absurd h.numIntCanceled (by decide)⟩

end ForwardingBase

end Inet.Ndn
