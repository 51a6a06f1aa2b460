import Inet.Ndn.ForwardingMoves

/-!
# Pending requests

The invariant of the broker (`Broker.Valid`) and what it says about the PIT: no two live entries
carry one name, and there are never more entries than the table may hold.

`PitBase::create` does not look for the name it adds. Each caller has looked it up before; on the
delayed path the look-up is long past when the timer fires, but while a packet waits the forwarder
takes in nothing else, so the name of a held request stays fresh. That is the field `held_fresh`.
-/

namespace Inet.Ndn

namespace Broker

open ForwardingBase (Event)

/-- The invariant of the broker. -/
structure Valid (v : Broker) : Prop where
  /-- Pending requests are live. -/
  live : ∀ e ∈ v.pending, e.erased = false
  /-- No more are pending than the capacity. -/
  bounded : v.pending.length ≤ v.capacity
  /-- No name is pending twice. -/
  distinct : (v.pending.map (·.interest.name)).Nodup
  /-- The name of a held request is not pending. -/
  held_fresh : ∀ i face macSrc macDest, v.held = some (.request i face macSrc macDest) →
    v.Fresh i.name
  /-- A held request came from the link. -/
  held_lower : ∀ i face macSrc macDest, v.held = some (.request i face macSrc macDest) →
    i.arrivalGate.isLower = true

variable {toLink : Interest → Bool} {v v' : Broker} {now : SimTime} {ev : Event}
  {fx : List Effect}

/-- The first entry the PIT finds is pending, live and has the name. -/
theorem of_find? {name : CString} {e : PitEntry}
    (h : v.pending.find? (PitEntry.isFor name) = some e) :
    e ∈ v.pending ∧ e.erased = false ∧ e.interest.name = name :=
  ⟨List.mem_of_find?_eq_some h, PitEntry.isFor_iff.1 (List.find?_some h)⟩

/-- The entry the PIT finds, told apart from those its removal leaves. -/
theorem countP_pending_of_find? {name : CString} {e : PitEntry}
    (h : v.pending.find? (PitEntry.isFor name) = some e) (q : PitEntry → Bool) :
    v.pending.countP q =
      (v.pending.eraseP (PitEntry.isFor name)).countP q + if q e then 1 else 0 := by
  obtain ⟨hfor, l₁, l₂, heq, hbefore⟩ := List.find?_eq_some_iff_append.1 h
  have hnone : ∀ a ∈ l₁, ¬ PitEntry.isFor name a = true := by simpa using hbefore
  rw [heq, List.eraseP_append_right _ hnone, List.eraseP_cons_of_pos hfor]
  simp only [List.countP_append, List.countP_cons]
  omega

/-- A shorter list of requests, with nothing held that is not fresh, is valid. -/
theorem Valid.of_sublist (h : v.Valid) (hsub : v'.pending.Sublist v.pending)
    (hcap : v'.capacity = v.capacity)
    (hheld : ∀ i face macSrc macDest, v'.held = some (.request i face macSrc macDest) →
      v.Fresh i.name ∧ i.arrivalGate.isLower = true) : v'.Valid where
  live e he := h.live e (hsub.subset he)
  bounded := hcap ▸ hsub.length_le.trans h.bounded
  distinct := h.distinct.sublist (hsub.map _)
  held_fresh i face macSrc macDest hi e he :=
    (hheld i face macSrc macDest hi).1 e (hsub.subset he)
  held_lower i face macSrc macDest hi := (hheld i face macSrc macDest hi).2

/-- Recording a request of a fresh name in a table that is not full, the slot being empty. -/
theorem Valid.record (h : v.Valid) {e : PitEntry} (hlive : e.erased = false)
    (hfresh : v.Fresh e.interest.name) (hroom : ¬ v.Full)
    (hpending : v'.pending = v.pending ++ [e]) (hcap : v'.capacity = v.capacity)
    (hheld : v'.held = none) : v'.Valid where
  live := by
    rw [hpending]
    intro a ha
    rcases List.mem_append.1 ha with ha | ha
    · exact h.live a ha
    · rwa [List.mem_singleton.1 ha]
  bounded := by
    have hlt := lt_of_le_of_ne h.bounded hroom
    rw [hpending, hcap, List.length_append, List.length_singleton]
    omega
  distinct := by
    rw [hpending, List.map_append, List.nodup_append]
    refine ⟨h.distinct, List.nodup_singleton _, ?_⟩
    intro n hn m hm
    obtain ⟨a, ha, rfl⟩ := List.mem_map.1 hn
    rw [List.mem_singleton.1 hm]
    exact hfresh a ha
  held_fresh := by simp [hheld]
  held_lower := by simp [hheld]

/-- **Every move keeps the invariant.** -/
theorem Move.valid (hmove : Move toLink v now ev fx v') (h : v.Valid) : v'.Valid := by
  have hkeep : ∀ i face macSrc macDest, v.held = some (.request i face macSrc macDest) →
      v.Fresh i.name ∧ i.arrivalGate.isLower = true := fun i face macSrc macDest hi ↦
    ⟨h.held_fresh i face macSrc macDest hi, h.held_lower i face macSrc macDest hi⟩
  cases hmove with
  | quiet => exact h
  | duplicate => exact h.of_sublist (List.Sublist.refl _) rfl hkeep
  | cached => exact h
  | accept hkind hfree hfresh hroom =>
    exact h.record (PitEntry.make_erased ..) (by simpa using hfresh) hroom rfl rfl hfree
  | refuse => exact h.of_sublist (List.Sublist.refl _) rfl hkeep
  | holdRequest hkind hfree hforwarding hgate hfresh =>
    -- the name was looked up just now
    refine h.of_sublist (List.Sublist.refl _) rfl fun i face macSrc macDest hi ↦ ?_
    simp only [Option.some.injEq, Held.request.injEq] at hi
    obtain ⟨rfl, -⟩ := hi
    exact ⟨hfresh, hgate⟩
  | reply => exact h.of_sublist List.eraseP_sublist rfl hkeep
  | holdReply => exact h.of_sublist List.eraseP_sublist rfl (by simp)
  | discard => exact h.of_sublist List.eraseP_sublist rfl hkeep
  | cancel => exact h.of_sublist (List.Sublist.refl _) rfl (by simp)
  | sendRequest hheld hroom =>
    -- the name was looked up when the slot was filled
    exact h.record (PitEntry.make_erased ..) (h.held_fresh _ _ _ _ hheld) hroom rfl rfl rfl
  | refuseRequest => exact h.of_sublist (List.Sublist.refl _) rfl (by simp)
  | sendReply => exact h.of_sublist (List.Sublist.refl _) rfl (by simp)
  | expire => exact h.of_sublist List.filter_sublist rfl hkeep

/-- The effects, when the event is of a kind. -/
def effectsOn (p : Event → Bool) (ev : Event) (fx : List Effect) : List Effect :=
  if p ev then fx else []

/-- The two parameters of the broker never change. -/
theorem Move.parameters (hmove : Move toLink v now ev fx v') :
    v'.forwarding = v.forwarding ∧ v'.capacity = v.capacity := by
  cases hmove <;> exact ⟨rfl, rfl⟩

end Broker

namespace ForwardingBase

variable {par : Params} {s : ForwardingBase}

/-- A transition of a forwarder. -/
abbrev Trans := Transition ForwardingBase (SimTime × Event) (List Effect)

/-- All effects of a run. -/
def effects (tr : List Trans) : List Effect :=
  tr.flatMap (·.output)

/-- The effects of the events of a kind. -/
def effectsWhen (p : Event → Bool) (tr : List Trans) : List Effect :=
  tr.flatMap fun t ↦ Broker.effectsOn p t.input.2 t.output

theorem countP_effects_snoc (q : Effect → Bool) (tr : List Trans) (t : Trans) :
    (effects (tr ++ [t])).countP q = (effects tr).countP q + t.output.countP q := by
  simp [effects]

theorem countP_effectsWhen_snoc (p : Event → Bool) (q : Effect → Bool) (tr : List Trans)
    (t : Trans) :
    (effectsWhen p (tr ++ [t])).countP q =
      (effectsWhen p tr).countP q + (Broker.effectsOn p t.input.2 t.output).countP q := by
  simp [effectsWhen]

theorem valid_initial (par : Params) : (initial par).view.Valid := by
  constructor <;> simp [view, initial, SendDelayed.held]

/-- The induction rule for runs, in the broker's terms: a property of the record and the broker that
every move from a valid broker keeps holds of every run. -/
theorem run_broker_history {P : List Trans → Broker → Prop} (init : P [] (initial par).view)
    (step : ∀ tr (t : Trans) v v', t.pre.view = v → v.Valid → P tr v →
      Broker.Move t.pre.routesToLink v t.input.1 t.input.2 t.output v' → P (tr ++ [t]) v')
    {tr : List Trans} (h : (events par).Run tr s) : P tr s.view := by
  have hboth : s.view.Valid ∧ P tr s.view := by
    refine h.history (P := fun tr s ↦ s.view.Valid ∧ P tr s.view) ?_ ?_
    · rintro s rfl
      exact ⟨valid_initial par, init⟩
    · rintro tr s ⟨now, e⟩ fx s' hrun ⟨hv, hP⟩ hstep
      have hmove := Reachable.move ⟨tr, hrun⟩ hstep
      exact ⟨hmove.valid hv, step tr ⟨s, (now, e), fx, s'⟩ _ _ rfl hv hP hmove⟩
  exact hboth.2

/-- Every reachable forwarder is a valid broker with the parameters it was given. -/
theorem Reachable.valid (h : (events par).Reachable s) :
    s.view.Valid ∧ s.view.forwarding = par.forwarding ∧ s.view.capacity = par.pitMaxSize := by
  obtain ⟨tr, hrun⟩ := h
  refine run_broker_history (P := fun _ v ↦ v.Valid ∧ v.forwarding = par.forwarding ∧
    v.capacity = par.pitMaxSize) ?_ ?_ hrun
  · exact ⟨valid_initial par, rfl, rfl⟩
  · rintro - t v v' - hv ⟨-, hfwd, hcap⟩ hmove
    exact ⟨hmove.valid hv, hmove.parameters.1.trans hfwd, hmove.parameters.2.trans hcap⟩

/-- **No name is pending twice**, and the PIT keeps to its size. In particular the entry recorded
when the delayed-send timer fires duplicates no live entry. -/
theorem pit_names_unique (h : (events par).Reachable s) :
    ((s.pit.entries.filter (!·.erased)).map (·.interest.name)).Nodup ∧
      s.pit.entries.length ≤ par.pitMaxSize ∧
      ∀ now fx s', (events par).Step s (now, .sendDelayedPacket) fx s' →
        ∀ e, Effect.pitCreate e ∈ fx →
          ∀ e' ∈ s.pit.entries, e'.erased = false → e'.interest.name ≠ e.interest.name := by
  obtain ⟨hv, -, hcap⟩ := Reachable.valid h
  refine ⟨hv.distinct.sublist (List.filter_sublist.map _), ?_, ?_⟩
  · have hbounded := hv.bounded
    rwa [hcap] at hbounded
  · intro now fx s' hstep e he e' he' _
    have hmove := Reachable.move h hstep
    have hpending : s.view.pending = s.pit.entries := rfl
    rw [← hpending] at he'
    generalize s.view = v at *
    generalize s'.view = v' at hmove
    cases hmove with
    | quiet h => cases h
    | sendRequest hheld =>
      obtain rfl : e = _ := by simpa using he
      exact hv.held_fresh _ _ _ _ hheld e' he'
    | refuseRequest => simp at he
    | sendReply => simp at he

/-- A flooded Interest is delayed and recorded when the timer fires; a second one of its name is
then a duplicate. -/
theorem pit_names_unique_flooded :
    let i : Interest := { name := [47, 97], arrivalGate := .lowerLayerIn 0, flood := true }
    let s := stateAfter { forwarding := true, myMacAddress := ⟨1⟩ }
      [(0, .packet (.interest i) ⟨2⟩ 5), (5, .sendDelayedPacket), (6, .packet (.interest i) ⟨3⟩ 5)]
    s.pit.entries.length = 1 ∧ s.stat.numIntDuplicated = 1 ∧
      ((s.pit.entries.filter (!·.erased)).map (·.interest.name)).Nodup := by
  intro i s
  refine ⟨by decide, by decide, (pit_names_unique ⟨_, run_trace ?_⟩).1⟩
  decide

end ForwardingBase

end Inet.Ndn
