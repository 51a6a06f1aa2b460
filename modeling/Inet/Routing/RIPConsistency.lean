import Inet.Routing.RIPTable
import Mathlib.Data.Set.Insert

/-!
# The two tables of RIP

A route of `RIPRouting` whose metric is finite is linked to a route of the host, and the routes that
have been learned agree with what they are linked to (`RouteOk`). The operations keep this, and no
two routes for the same prefix (`Consistent`). What does not keep it is a notification about a route
of another source that is imported although there is a route for its prefix, or that takes the place
of a default route of this module: of that one it is not told anything (`Undisturbed`).

In the middle of an operation there is one route that is not in order, and the lemmas say of which
routes they speak.
-/

namespace Inet

namespace RIPRouting

variable {P : RIPParameters} {s s' : RIPRouting} {p q r : ℕ} {X : Set ℕ}

/-- A learned route agrees with the route of the host. -/
structure Agrees (x : RIPRoute) (e : IRoute) : Prop where
  dest : e.dest = x.dest
  prefixLength : e.prefixLength = x.prefixLength
  ie : e.ie = x.ie
  nextHop : e.nextHop = x.nextHop
  metric : e.metric = x.metric

/-- A route is in order. -/
structure RouteOk (s : RIPRouting) (x : RIPRoute) : Prop where
  metric_pos : 1 ≤ x.metric
  metric_le : x.metric ≤ RIP_INFINITE_METRIC
  unlinked : x.route = none → x.metric = RIP_INFINITE_METRIC
  linked : ∀ r, x.route = some r → x.metric < RIP_INFINITE_METRIC ∧ ∃ e, s.entry r = some e ∧
    (x.type = .rte → e.source = .rip) ∧ (e.source = .rip → Agrees x e)

theorem RouteOk.congr {x : RIPRoute} (h : RouteOk s x)
    (hentry : ∀ r, x.route = some r → s'.entry r = s.entry r) : RouteOk s' x where
  metric_pos := h.metric_pos
  metric_le := h.metric_le
  unlinked := h.unlinked
  linked r hr := by
    rw [hentry r hr]
    exact h.linked r hr

theorem RouteOk.invalidated (s : RIPRouting) (x : RIPRoute) : RouteOk s x.invalidated :=
  ⟨show 1 ≤ RIP_INFINITE_METRIC by decide, le_rfl, fun _ ↦ rfl, fun _ h ↦ by cases h⟩

/-- What is not compared. -/
theorem RouteOk.touch {x : RIPRoute} (h : RouteOk s x) (changed : Bool) (lastUpdateTime : ℕ) :
    RouteOk s { x with changed := changed, lastUpdateTime := lastUpdateTime } := by
  refine ⟨h.metric_pos, h.metric_le, h.unlinked, fun r hr ↦ ?_⟩
  obtain ⟨hlt, e, he, htype, hagrees⟩ := h.linked r hr
  refine ⟨hlt, e, he, htype, fun hrip ↦ ?_⟩
  obtain ⟨hdest, hpfx, hie, hnext, hmetric⟩ := hagrees hrip
  exact ⟨hdest, hpfx, hie, hnext, hmetric⟩

/-- The prefix of a route. -/
def key (s : RIPRouting) (p : ℕ) : L3Address × ℤ :=
  ((s.ripRoute p).dest, (s.ripRoute p).prefixLength)

/-- The tables are consistent, apart from the routes in `X`. -/
structure ConsistentOff (P : RIPParameters) (X : Set ℕ) (s : RIPRouting) : Prop where
  nodup : s.ripRoutes.Nodup
  lt_nextRipRoute : ∀ p ∈ s.ripRoutes, p < s.nextRipRoute
  lt_nextRoute : ∀ r e, s.entry r = some e → r < s.nextRoute
  accepted : ∀ r e, s.entry r = some e → e.source = .rip →
    P.acceptsRoute e.dest e.prefixLength = true
  inj : ∀ p ∈ s.ripRoutes, ∀ q ∈ s.ripRoutes, s.key p = s.key q → p = q
  ok : ∀ p ∈ s.ripRoutes, p ∉ X → s.RouteOk (s.ripRoute p)

/-- The tables are consistent. -/
abbrev Consistent (P : RIPParameters) (s : RIPRouting) : Prop :=
  ConsistentOff P ∅ s

theorem Fades.key (h : Fades s s') (p : ℕ) : s'.key p = s.key p := by
  rw [RIPRouting.key, RIPRouting.key]
  rcases h.ripRoute p with h | h <;> rw [h]
  rfl

namespace ConsistentOff

theorem mono {Y : Set ℕ} (h : ConsistentOff P X s) (hXY : X ⊆ Y) : ConsistentOff P Y s :=
  { h with ok := fun p hp hY ↦ h.ok p hp fun hX ↦ hY (hXY hX) }

/-- The last route has been put in order. -/
theorem complete (h : ConsistentOff P {p} s) (hp : s.RouteOk (s.ripRoute p)) : Consistent P s :=
  { h with
    ok := fun q hq _ ↦ by
      by_cases heq : q = p
      · rw [heq]
        exact hp
      · exact h.ok q hq heq }

/-- Two routes are not linked to the same route of this module. -/
theorem eq_of_link (h : ConsistentOff P X s) {e : IRoute} (hp : p ∈ s.ripRoutes)
    (hq : q ∈ s.ripRoutes) (hpX : p ∉ X) (hqX : q ∉ X) (hpr : (s.ripRoute p).route = some r)
    (hqr : (s.ripRoute q).route = some r) (he : s.entry r = some e) (hrip : e.source = .rip) :
    p = q := by
  obtain ⟨-, e₁, he₁, -, h₁⟩ := (h.ok p hp hpX).linked r hpr
  obtain ⟨-, e₂, he₂, -, h₂⟩ := (h.ok q hq hqX).linked r hqr
  obtain rfl := Option.some.inj (he.symm.trans he₁)
  obtain rfl := Option.some.inj (he.symm.trans he₂)
  refine h.inj p hp q hq ?_
  rw [key, key, ← (h₁ hrip).dest, ← (h₁ hrip).prefixLength, (h₂ hrip).dest, (h₂ hrip).prefixLength]

/-- Fading keeps the tables consistent if no route loses its link unnoticed. -/
theorem fades (h : ConsistentOff P X s) (hfades : Fades s s')
    (hentry : ∀ p ∈ s.ripRoutes, p ∉ X → s'.ripRoute p = s.ripRoute p →
      ∀ r, (s.ripRoute p).route = some r → s'.entry r = s.entry r) : ConsistentOff P X s' where
  nodup := by
    rw [hfades.ripRoutes]
    exact h.nodup
  lt_nextRipRoute := by
    rw [hfades.ripRoutes, hfades.nextRipRoute]
    exact h.lt_nextRipRoute
  lt_nextRoute r e he := by
    rw [hfades.nextRoute]
    exact h.lt_nextRoute r e (hfades.entry r e he)
  accepted r e he := h.accepted r e (hfades.entry r e he)
  inj p hp q hq heq := by
    rw [hfades.ripRoutes] at hp hq
    rw [hfades.key, hfades.key] at heq
    exact h.inj p hp q hq heq
  ok p hp hX := by
    rw [hfades.ripRoutes] at hp
    rcases hfades.ripRoute p with heq | heq
    · rw [heq]
      exact (h.ok p hp hX).congr (hentry p hp hX heq)
    · rw [heq]
      exact .invalidated _ _

theorem triggerUpdate (h : ConsistentOff P X s) : ConsistentOff P X (s.triggerUpdate P) :=
  h.fades (fades_triggerUpdate s) fun _ _ _ _ _ _ ↦ triggerUpdate_entry

theorem invalidateUnlinked (h : ConsistentOff P {p} s) :
    Consistent P (s.invalidateUnlinked P p) := by
  refine (h.fades (fades_invalidateUnlinked p s) fun _ _ _ _ _ _ ↦
    invalidateUnlinked_entry).complete ?_
  rw [invalidateUnlinked_ripRoute, Function.update_self]
  exact .invalidated _ _

/-- Deleting a route that is of another source, or that nothing is linked to. -/
theorem deleteRoute (h : ConsistentOff P X s) (hr : ∀ e, s.entry r = some e → e.source = .rip →
    ∀ p ∈ s.ripRoutes, p ∉ X → (s.ripRoute p).route ≠ some r) :
    ConsistentOff P X (s.deleteRoute P r) := by
  refine h.fades (fades_deleteRoute r s) fun p hp hX hsame r' hr' ↦ ?_
  rw [deleteRoute_entry]
  refine if_neg ?_
  rintro rfl
  obtain ⟨-, e, he, -⟩ := (h.ok p hp hX).linked r' hr'
  have hrip : e.source ≠ .rip := fun hrip ↦ hr e he hrip p hp hX hr'
  rw [deleteRoute_ripRoute, if_pos ⟨hp, hr', e, he, hrip⟩] at hsame
  rw [← hsame] at hr'
  cases hr'

/-- A change of a route that is not in order yet. -/
theorem setRipRoute (h : ConsistentOff P X s) (f : RIPRoute → RIPRoute) (hX : p ∈ X)
    (hkey : (f (s.ripRoute p)).dest = (s.ripRoute p).dest ∧
      (f (s.ripRoute p)).prefixLength = (s.ripRoute p).prefixLength) :
    ConsistentOff P X (s.setRipRoute p f) := by
  have hkey' (q : ℕ) : (s.setRipRoute p f).key q = s.key q := by
    by_cases hq : q = p
    · rw [hq, key, setRipRoute_self, hkey.1, hkey.2, ← key]
    · rw [key, setRipRoute_of_ne _ _ hq, ← key]
  refine ⟨h.nodup, h.lt_nextRipRoute, h.lt_nextRoute, h.accepted, fun q hq q' hq' heq ↦ ?_,
    fun q hq hqX ↦ ?_⟩
  · rw [hkey', hkey'] at heq
    exact h.inj q hq q' hq' heq
  · rw [setRipRoute_of_ne _ _ (ne_of_mem_of_not_mem hX hqX).symm]
    exact (h.ok q hq hqX).congr fun _ _ ↦ rfl

/-- A change of a route to one that is in order. -/
theorem setRipRoute_of_ok (h : Consistent P s) (f : RIPRoute → RIPRoute)
    (hok : s.RouteOk (f (s.ripRoute p))) (hkey : ∀ q ∈ s.ripRoutes, q ≠ p →
      s.key q ≠ ((f (s.ripRoute p)).dest, (f (s.ripRoute p)).prefixLength)) :
    Consistent P (s.setRipRoute p f) := by
  have hself : (s.setRipRoute p f).key p =
      ((f (s.ripRoute p)).dest, (f (s.ripRoute p)).prefixLength) := by
    rw [key, setRipRoute_self]
  have hother (q : ℕ) (hq : q ≠ p) : (s.setRipRoute p f).key q = s.key q := by
    rw [key, setRipRoute_of_ne _ _ hq, ← key]
  refine ⟨h.nodup, h.lt_nextRipRoute, h.lt_nextRoute, h.accepted, fun q hq q' hq' heq ↦ ?_,
    fun q hq _ ↦ ?_⟩
  · by_cases hqp : q = p <;> by_cases hqp' : q' = p
    · rw [hqp, hqp']
    · rw [hqp, hself, hother q' hqp'] at heq
      exact absurd heq.symm (hkey q' hq' hqp')
    · rw [hqp', hself, hother q hqp] at heq
      exact absurd heq (hkey q hq hqp)
    · rw [hother q hqp, hother q' hqp'] at heq
      exact h.inj q hq q' hq' heq
  · by_cases hqp : q = p
    · rw [hqp, setRipRoute_self]
      exact hok.congr fun _ _ ↦ rfl
    · rw [setRipRoute_of_ne _ _ hqp]
      exact (h.ok q hq (Set.notMem_empty q)).congr fun _ _ ↦ rfl

/-- A route is forgotten. -/
theorem of_sublist (h : ConsistentOff P X s) {ps : List ℕ} (hsub : ps.Sublist s.ripRoutes)
    (hX : ∀ p ∈ ps, p ∉ X) : Consistent P { s with ripRoutes := ps } where
  nodup := h.nodup.sublist hsub
  lt_nextRipRoute p hp := h.lt_nextRipRoute p (hsub.subset hp)
  lt_nextRoute := h.lt_nextRoute
  accepted := h.accepted
  inj p hp q hq := h.inj p (hsub.subset hp) q (hsub.subset hq)
  ok p hp _ := (h.ok p (hsub.subset hp) (hX p hp)).congr fun _ _ ↦ rfl

end ConsistentOff

/-! ### Invalidating and purging -/

/-- **A route that loses its link**, if it does not share it. -/
theorem ConsistentOff.unlinkRoute (h : ConsistentOff P {p} s)
    (hunshared : ∀ r, (s.ripRoute p).route = some r → ∀ e, s.entry r = some e → e.source = .rip →
      ∀ q ∈ s.ripRoutes, q ≠ p → (s.ripRoute q).route ≠ some r) :
    ConsistentOff P {p} (s.unlinkRoute P p) := by
  rw [RIPRouting.unlinkRoute]
  cases hr : (s.ripRoute p).route with
  | none => exact h
  | some r =>
    have hoff : ConsistentOff P {p} (s.setRipRoute p fun x ↦ { x with route := none }) :=
      h.setRipRoute _ rfl ⟨rfl, rfl⟩
    refine hoff.deleteRoute fun e he hrip q hq hqp ↦ ?_
    rw [setRipRoute_of_ne _ _ hqp]
    exact hunshared r hr e he hrip q hq hqp

theorem Consistent.unlinkRoute (h : Consistent P s) (hp : p ∈ s.ripRoutes) :
    ConsistentOff P {p} (s.unlinkRoute P p) :=
  (h.mono (Set.empty_subset _)).unlinkRoute fun _ hr _ he hrip _ hq hqp hqr ↦
    hqp (h.eq_of_link hq hp (Set.notMem_empty _) (Set.notMem_empty _) hqr hr he hrip)

theorem Consistent.invalidateRoute (h : Consistent P s) (hp : p ∈ s.ripRoutes) :
    Consistent P (s.invalidateRoute P p) :=
  (h.unlinkRoute hp).invalidateUnlinked

theorem unlinkRoute_ripRoutes (p : ℕ) (s : RIPRouting) :
    (s.unlinkRoute P p).ripRoutes = s.ripRoutes := by
  rw [unlinkRoute]
  cases (s.ripRoute p).route with
  | none => rfl
  | some r => exact (fades_deleteRoute r _).ripRoutes

theorem unlinkRoute_self (p : ℕ) (s : RIPRouting) :
    (s.unlinkRoute P p).ripRoute p = { s.ripRoute p with route := none } := by
  rw [unlinkRoute]
  cases hr : (s.ripRoute p).route with
  | none =>
    simp only
    rw [← hr]
  | some r =>
    simp only
    rw [deleteRoute_ripRoute, setRipRoute_self, if_neg]
    rintro ⟨-, h, -⟩
    cases h

theorem invalidateRoute_ripRoutes (p : ℕ) (s : RIPRouting) :
    (s.invalidateRoute P p).ripRoutes = s.ripRoutes :=
  (fades_invalidateUnlinked p _).ripRoutes.trans (unlinkRoute_ripRoutes p s)

theorem Consistent.purgeRoute (h : Consistent P s) (hp : p ∈ s.ripRoutes) :
    Consistent P (s.purgeRoute P p) := by
  have hoff := h.unlinkRoute hp
  refine hoff.of_sublist List.erase_sublist fun q hq hqp ↦ ?_
  rw [Set.mem_singleton_iff.1 hqp] at hq
  exact hoff.nodup.not_mem_erase hq

theorem Consistent.invalidateRoutes (h : Consistent P s) (ie : ℕ) :
    Consistent P (s.invalidateRoutes P ie) := by
  have hloop (ps : List ℕ) (s : RIPRouting) (h : Consistent P s) (hps : ∀ p ∈ ps, p ∈ s.ripRoutes) :
      Consistent P (ps.foldl (fun s p ↦
        if (s.ripRoute p).ie = some ie then s.invalidateRoute P p else s) s) := by
    induction ps generalizing s with
    | nil => exact h
    | cons p ps ih =>
      rw [List.foldl_cons]
      rw [List.forall_mem_cons] at hps
      split_ifs
      · refine ih _ (h.invalidateRoute hps.1) ?_
        rw [invalidateRoute_ripRoutes]
        exact hps.2
      · exact ih s h hps.2
  exact hloop s.ripRoutes s h fun _ hp ↦ hp

/-! ### Adding routes -/

/-- No route of this module loses its link to the default route that is replaced. -/
def KeepsDefault (P : RIPParameters) (prefixLength : ℤ) (X : Set ℕ) (s : RIPRouting) : Prop :=
  ∀ r e, s.oldDefaultRoute P prefixLength = some r → s.entry r = some e → e.source = .rip →
    ∀ p ∈ s.ripRoutes, p ∉ X → (s.ripRoute p).route ≠ some r

theorem fades_replaceDefaultRoute (prefixLength : ℤ) (s : RIPRouting) :
    Fades s (s.replaceDefaultRoute P prefixLength) := by
  rw [replaceDefaultRoute]
  cases s.oldDefaultRoute P prefixLength with
  | none => exact .refl s
  | some r => exact fades_deleteRoute r s

theorem ConsistentOff.replaceDefaultRoute {prefixLength : ℤ} (h : ConsistentOff P X s)
    (hkeeps : KeepsDefault P prefixLength X s) :
    ConsistentOff P X (s.replaceDefaultRoute P prefixLength) := by
  rw [RIPRouting.replaceDefaultRoute]
  cases hr : s.oldDefaultRoute P prefixLength with
  | none => exact h
  | some r => exact h.deleteRoute fun e he hrip ↦ hkeeps r e hr he hrip

/-- A route that is not linked does not fade. -/
theorem replaceDefaultRoute_ripRoute {prefixLength : ℤ} (h : (s.ripRoute p).route = none) :
    (s.replaceDefaultRoute P prefixLength).ripRoute p = s.ripRoute p := by
  rw [replaceDefaultRoute]
  cases s.oldDefaultRoute P prefixLength with
  | none => rfl
  | some r =>
    simp only
    rw [deleteRoute_ripRoute, if_neg]
    rw [h]
    rintro ⟨-, h, -⟩
    cases h

/-- What there is in the table after a route has been added. -/
structure Added (P : RIPParameters) (X : Set ℕ) (route : IRoute) (s : RIPRouting)
    (x : ℕ × RIPRouting) : Prop where
  consistent : ConsistentOff P X x.2
  entry : x.2.entry x.1 = some route
  accepts : P.acceptsRoute route.dest route.prefixLength = true
  ripRoutes : x.2.ripRoutes = s.ripRoutes
  nextRipRoute : x.2.nextRipRoute = s.nextRipRoute
  now : x.2.now = s.now
  key : ∀ p, x.2.key p = s.key p
  faded : ∀ p, x.2.ripRoute p = s.ripRoute p ∨ x.2.ripRoute p = (s.ripRoute p).invalidated
  ripRoute : ∀ p, (s.ripRoute p).route = none → x.2.ripRoute p = s.ripRoute p

theorem ConsistentOff.addIRoute {route : IRoute} (h : ConsistentOff P X s)
    (hkeeps : P.acceptsRoute route.dest route.prefixLength = true →
      KeepsDefault P route.prefixLength X s) :
    Results (Added P X route s) (· ≠ .assertionFailed) (s.addIRoute P route) := by
  rw [RIPRouting.addIRoute]
  split_ifs with haccepts
  · have hfades := fades_replaceDefaultRoute (P := P) route.prefixLength s
    have h' := h.replaceDefaultRoute (hkeeps haccepts)
    generalize hs' : s.replaceDefaultRoute P route.prefixLength = s' at h' hfades
    have hentry (r : ℕ) : ({ s'.insertEntry s'.nextRoute route with
        nextRoute := s'.nextRoute + 1 } : RIPRouting).entry r =
        if r = s'.nextRoute then some route else s'.entry r :=
      insertEntry_entry s' _ _ _
    have hold (r : ℕ) (e : IRoute) (he : s'.entry r = some e) : ({ s'.insertEntry s'.nextRoute route with
        nextRoute := s'.nextRoute + 1 } : RIPRouting).entry r = some e := by
      rw [hentry, if_neg (h'.lt_nextRoute r e he).ne, he]
    refine ⟨⟨h'.nodup, h'.lt_nextRipRoute, fun r e he ↦ ?_, fun r e he ↦ ?_, h'.inj,
      fun p hp hX ↦ ?_⟩, ?_, haccepts, hfades.ripRoutes, hfades.nextRipRoute, hfades.now,
      hfades.key, hfades.ripRoute, fun p hp ↦ ?_⟩
    · rw [hentry] at he
      split_ifs at he with hr
      · rw [hr]
        exact Nat.lt_succ_self _
      · exact (h'.lt_nextRoute r e he).trans (Nat.lt_succ_self _)
    · rw [hentry] at he
      split_ifs at he with hr
      · obtain rfl := Option.some.inj he
        exact fun _ ↦ haccepts
      · exact h'.accepted r e he
    · refine (h'.ok p hp hX).congr fun r hr ↦ ?_
      obtain ⟨-, e, he, -⟩ := (h'.ok p hp hX).linked r hr
      rw [he]
      exact hold r e he
    · rw [hentry, if_pos rfl]
    · show s'.ripRoute p = _
      rw [← hs', replaceDefaultRoute_ripRoute hp]
  · show RIPError.badRoute ≠ .assertionFailed
    decide

/-- **A default route of this module is replaced** only for a route with the same prefix. -/
theorem ConsistentOff.keepsDefault {dest : L3Address} {prefixLength : ℤ} (h : ConsistentOff P X s)
    (hkey : ∀ q ∈ s.ripRoutes, q ∉ X → s.key q ≠ (dest, prefixLength))
    (haccepts : P.acceptsRoute dest prefixLength = true) : KeepsDefault P prefixLength X s := by
  intro r e hr he hrip q hq hqX hqr
  obtain ⟨-, e', he', -, hagrees⟩ := (h.ok q hq hqX).linked r hqr
  obtain rfl := Option.some.inj (he.symm.trans he')
  rw [oldDefaultRoute] at hr
  split_ifs at hr with hmode
  obtain ⟨x, hx, rfl⟩ := Option.map_eq_some_iff.1 hr
  have hdefault : x.2.prefixLength = 0 := by simpa using List.find?_some hx
  have hlookup : s.entry x.1 = some x.2 :=
    AList.mem_lookup_iff.2 (List.mem_of_find?_eq_some hx)
  obtain rfl := Option.some.inj (he.symm.trans hlookup)
  have hzero := P.eq_zero_of_acceptsRoute hmode.1
  have haccepted := h.accepted _ _ he hrip
  rw [hdefault] at haccepted
  refine hkey q hq hqX ?_
  rw [hmode.2] at haccepts ⊢
  rw [key, ← (hagrees hrip).dest, ← (hagrees hrip).prefixLength, hdefault, hzero _ haccepts,
    hzero _ haccepted]

/-- A route for a new prefix. -/
theorem Consistent.pushRoute {x : RIPRoute} (h : Consistent P s) (hx : s.RouteOk x)
    (hkey : ∀ q ∈ s.ripRoutes, s.key q ≠ (x.dest, x.prefixLength)) :
    Consistent P (s.pushRoute x) := by
  have hold (q : ℕ) (hq : q ∈ s.ripRoutes) : (s.pushRoute x).ripRoute q = s.ripRoute q :=
    pushRoute_of_ne x (h.lt_nextRipRoute q hq).ne
  have hnew := pushRoute_self s x
  have hfresh : s.nextRipRoute ∉ s.ripRoutes := fun hmem ↦ (h.lt_nextRipRoute _ hmem).ne rfl
  have hmem (q : ℕ) : q ∈ (s.pushRoute x).ripRoutes ↔ q ∈ s.ripRoutes ∨ q = s.nextRipRoute := by
    rw [RIPRouting.pushRoute, List.mem_append, List.mem_singleton]
  refine ⟨?_, fun q hq ↦ ?_, h.lt_nextRoute, h.accepted, fun q hq q' hq' heq ↦ ?_, fun q hq _ ↦ ?_⟩
  · refine List.nodup_append.2 ⟨h.nodup, List.nodup_singleton _, fun a ha b hb ↦ ?_⟩
    rw [List.mem_singleton.1 hb]
    exact ne_of_mem_of_not_mem ha hfresh
  · rcases (hmem q).1 hq with hq | rfl
    exacts [(h.lt_nextRipRoute q hq).trans (Nat.lt_succ_self _), Nat.lt_succ_self _]
  · rw [key, key] at heq
    rcases (hmem q).1 hq with hq | rfl <;> rcases (hmem q').1 hq' with hq' | rfl
    · rw [hold q hq, hold q' hq'] at heq
      exact h.inj q hq q' hq' heq
    · rw [hold q hq, hnew] at heq
      exact absurd heq (hkey q hq)
    · rw [hold q' hq', hnew] at heq
      exact absurd heq.symm (hkey q' hq')
    · rfl
  · rcases (hmem q).1 hq with hq | rfl
    · rw [hold q hq]
      exact (h.ok q hq (Set.notMem_empty q)).congr fun _ _ ↦ rfl
    · rw [hnew]
      exact hx.congr fun _ _ ↦ rfl

/-- A state that an operation leads to from `s` with the same routes. -/
def SameRoutes (P : RIPParameters) (X : Set ℕ) (s s' : RIPRouting) : Prop :=
  ConsistentOff P X s' ∧ s'.ripRoutes = s.ripRoutes

/-- **A new link.** -/
theorem ConsistentOff.relink {ie : ℕ} {nextHop : L3Address} {metric : ℕ}
    (h : ConsistentOff P {p} s) (hp : p ∈ s.ripRoutes) (hnone : (s.ripRoute p).route = none)
    (hie : (s.ripRoute p).ie = some ie) (hnextHop : (s.ripRoute p).nextHop = nextHop)
    (hmetric : (s.ripRoute p).metric = metric) (hpos : 1 ≤ metric)
    (hlt : metric < RIP_INFINITE_METRIC) :
    Results (SameRoutes P ∅ s) (· ≠ .assertionFailed) (s.relink P p ie nextHop metric) := by
  refine (h.addIRoute fun haccepts ↦ h.keepsDefault (fun q hq hqp heq ↦ ?_) haccepts).bind
    fun x hx ↦ ?_
  · exact hqp (h.inj q hq p hp heq)
  · have hroute := hx.ripRoute p hnone
    refine ⟨(hx.consistent.setRipRoute _ rfl ⟨rfl, rfl⟩).complete ?_, hx.ripRoutes⟩
    rw [setRipRoute_self, hroute]
    refine ⟨hmetric ▸ hpos, hmetric ▸ hlt.le, (by cases ·), fun r hr ↦ ?_⟩
    obtain rfl := Option.some.inj hr
    exact ⟨hmetric ▸ hlt, _, hx.entry, fun _ ↦ rfl,
      fun _ ↦ ⟨rfl, rfl, hie.symm, hnextHop.symm, hmetric.symm⟩⟩

theorem Consistent.addRoute {dest : L3Address} {prefixLength : ℤ} {ie : ℕ} {nextHop : L3Address}
    {metric routeTag : ℕ} {fromAddr : L3Address} (h : Consistent P s)
    (hkey : ∀ q ∈ s.ripRoutes, s.key q ≠ (dest, prefixLength)) (hpos : 1 ≤ metric)
    (hlt : metric < RIP_INFINITE_METRIC) :
    Results (Consistent P) (· ≠ .assertionFailed)
      (s.addRoute P dest prefixLength ie nextHop metric routeTag fromAddr) := by
  refine (h.addIRoute fun haccepts ↦ h.keepsDefault (fun q hq _ ↦ hkey q hq) haccepts).bind
    fun x hx ↦ ?_
  refine ConsistentOff.triggerUpdate (Consistent.pushRoute hx.consistent ?_ fun q hq ↦ ?_)
  · refine ⟨hpos, hlt.le, (by cases ·), fun r hr ↦ ?_⟩
    obtain rfl := Option.some.inj hr
    exact ⟨hlt, _, hx.entry, fun _ ↦ rfl, fun _ ↦ ⟨rfl, rfl, rfl, rfl, rfl⟩⟩
  · rw [hx.key]
    rw [hx.ripRoutes] at hq
    exact hkey q hq

/-! ### Updating routes -/

/-- A route of the host is changed to which no route is linked that is in order. -/
theorem ConsistentOff.insertEntry {e e' : IRoute} (h : ConsistentOff P X s)
    (he : s.entry r = some e)
    (haccepted : e'.source = .rip → P.acceptsRoute e'.dest e'.prefixLength = true)
    (hr : ∀ q ∈ s.ripRoutes, q ∉ X → (s.ripRoute q).route ≠ some r) :
    ConsistentOff P X (s.insertEntry r e') := by
  refine ⟨h.nodup, h.lt_nextRipRoute, fun r' e₁ he₁ ↦ ?_, fun r' e₁ he₁ ↦ ?_, h.inj,
    fun q hq hqX ↦ (h.ok q hq hqX).congr fun r' hr' ↦ ?_⟩
  · rw [insertEntry_entry] at he₁
    split_ifs at he₁ with heq
    · exact heq ▸ h.lt_nextRoute r e he
    · exact h.lt_nextRoute r' e₁ he₁
  · rw [insertEntry_entry] at he₁
    split_ifs at he₁ with heq
    · obtain rfl := Option.some.inj he₁
      exact haccepted
    · exact h.accepted r' e₁ he₁
  · rw [insertEntry_entry, if_neg]
    rintro rfl
    exact hr q hq hqX hr'

/-- What `adopt` leaves to be done. -/
structure Adopted (P : RIPParameters) (p ie metric : ℕ) (s s' : RIPRouting) : Prop where
  consistent : ConsistentOff P {p} s'
  ripRoutes : s'.ripRoutes = s.ripRoutes
  ie : (s'.ripRoute p).ie = some ie
  metric : (s'.ripRoute p).metric = metric
  route : (s'.ripRoute p).route = (s.ripRoute p).route
  unshared : ∀ r, (s.ripRoute p).route = some r → ∀ e, s'.entry r = some e → e.source = .rip →
    ∀ q ∈ s'.ripRoutes, q ≠ p → (s'.ripRoute q).route ≠ some r

theorem Consistent.adopt {ie metric routeTag : ℕ} {fromAddr : L3Address} (h : Consistent P s)
    (hp : p ∈ s.ripRoutes) : Results (Adopted P p ie metric s) (· ≠ .assertionFailed)
      (s.adopt p ie metric routeTag fromAddr) := by
  have hoff : ConsistentOff P {p} (s.setRipRoute p fun x ↦
      { x with ie := some ie, metric := metric, fromAddr := fromAddr, tag := routeTag }) :=
    (h.mono (Set.empty_subset _)).setRipRoute _ rfl ⟨rfl, rfl⟩
  have hself := setRipRoute_self s p fun x ↦
    { x with ie := some ie, metric := metric, fromAddr := fromAddr, tag := routeTag }
  have hother (q : ℕ) (hq : q ≠ p) := setRipRoute_of_ne s (fun x ↦
    { x with ie := some ie, metric := metric, fromAddr := fromAddr, tag := routeTag }) hq
  have hunshared (r : ℕ) (hr : (s.ripRoute p).route = some r) (e : IRoute)
      (he : s.entry r = some e) (hrip : e.source = .rip) (q : ℕ) (hq : q ∈ s.ripRoutes)
      (hqp : q ≠ p) : (s.ripRoute q).route ≠ some r := fun hqr ↦
    hqp (h.eq_of_link hq hp (Set.notMem_empty _) (Set.notMem_empty _) hqr hr he hrip)
  have hdone : Adopted P p ie metric s (s.setRipRoute p fun x ↦
      { x with ie := some ie, metric := metric, fromAddr := fromAddr, tag := routeTag }) := by
    refine ⟨hoff, rfl, ?_, ?_, ?_, fun r hr e he hrip q hq hqp ↦ ?_⟩
    · rw [hself]
    · rw [hself]
    · rw [hself]
    · rw [hother q hqp]
      exact hunshared r hr e he hrip q hq hqp
  rw [RIPRouting.adopt]
  cases htype : (s.ripRoute p).type with
  | rte =>
    cases hroute : (s.ripRoute p).route with
    | none => exact hdone
    | some r =>
      obtain ⟨-, e, he, hrip, -⟩ := (h.ok p hp (Set.notMem_empty p)).linked r hroute
      have hrip := hrip htype
      simp only [he]
      have hkeep := hdone.unshared r hroute e he hrip
      refine ⟨hoff.insertEntry he (fun _ ↦ h.accepted r e he hrip) hkeep, rfl, hdone.ie,
        hdone.metric, hdone.route, fun r' hr' e' _ _ q hq hqp ↦ ?_⟩
      obtain rfl := Option.some.inj (hroute.symm.trans hr')
      exact hkeep q hq hqp
  | static => exact hdone
  | default => exact hdone
  | redistribute => exact hdone
  | interface => exact hdone

/-- A change of what is not compared. -/
theorem Consistent.touch (h : Consistent P s) (p : ℕ) (changed : RIPRoute → Bool)
    (lastUpdateTime : RIPRoute → ℕ) : Consistent P (s.setRipRoute p fun x ↦
      { x with changed := changed x, lastUpdateTime := lastUpdateTime x }) := by
  have hoff : ConsistentOff P {p} (s.setRipRoute p fun x ↦
      { x with changed := changed x, lastUpdateTime := lastUpdateTime x }) :=
    (h.mono (Set.empty_subset _)).setRipRoute _ rfl ⟨rfl, rfl⟩
  refine { hoff with ok := fun q hq _ ↦ ?_ }
  by_cases hqp : q = p
  · rw [hqp] at hq ⊢
    rw [setRipRoute_self]
    exact ((h.ok p hq (Set.notMem_empty p)).touch _ _).congr fun _ _ ↦ rfl
  · exact hoff.ok q hq hqp

/-- The new link of an adopted route. -/
theorem Adopted.updateLink {ie metric : ℕ} {nextHop : L3Address} (h : Consistent P s)
    (hp : p ∈ s.ripRoutes) (hs' : Adopted P p ie metric s s') (hpos : 1 ≤ metric)
    (hle : metric ≤ RIP_INFINITE_METRIC) : Results (SameRoutes P ∅ s') (· ≠ .assertionFailed)
      (s'.updateLink P p ie nextHop metric (s.ripRoute p).metric) := by
  have hok := h.ok p hp (Set.notMem_empty p)
  have hp' : p ∈ s'.ripRoutes := by rwa [hs'.ripRoutes]
  -- a route without a link may have the infinite metric
  have hdone (s₂ : RIPRouting) (h₂ : ConsistentOff P {p} s₂)
      (hnone : (s₂.ripRoute p).route = none) (hmetric : (s₂.ripRoute p).metric = metric)
      (hlt : ¬ metric < RIP_INFINITE_METRIC) : Consistent P s₂ := by
    refine h₂.complete ⟨hmetric ▸ hpos, hmetric ▸ hle, fun _ ↦ ?_, fun r hr ↦ ?_⟩
    · rw [hmetric]
      exact Nat.le_antisymm hle (Nat.not_lt.1 hlt)
    · rw [hnone] at hr
      cases hr
  rw [RIPRouting.updateLink]
  by_cases hold : (s.ripRoute p).metric = RIP_INFINITE_METRIC
  · rw [if_pos hold]
    have hnone : (s'.ripRoute p).route = none := by
      rw [hs'.route]
      refine Option.eq_none_iff_forall_ne_some.2 fun r hr ↦ ?_
      exact (hok.linked r hr).1.ne hold
    split_ifs with hlt
    · have hself := setRipRoute_self s' p fun x ↦ { x with type := .rte, nextHop := nextHop }
      refine ConsistentOff.relink (hs'.consistent.setRipRoute _ rfl ⟨rfl, rfl⟩) hp' ?_ ?_ ?_ ?_
        hpos hlt
      · rw [hself]
        exact hnone
      · rw [hself]
        exact hs'.ie
      · rw [hself]
      · rw [hself]
        exact hs'.metric
    · exact ⟨hdone s' hs'.consistent hnone hs'.metric hlt, rfl⟩
  · rw [if_neg hold]
    have hsome : (s'.ripRoute p).route ≠ none := by
      rw [hs'.route]
      exact fun hnone ↦ hold (hok.unlinked hnone)
    rw [if_neg hsome]
    have hoff : ConsistentOff P {p} ((s'.unlinkRoute P p).setRipRoute p fun x ↦
        { x with nextHop := nextHop }) := by
      refine (hs'.consistent.unlinkRoute fun r hr ↦ ?_).setRipRoute _ rfl ⟨rfl, rfl⟩
      rw [hs'.route] at hr
      exact hs'.unshared r hr
    have hself : ((s'.unlinkRoute P p).setRipRoute p fun x ↦
        { x with nextHop := nextHop }).ripRoute p =
          { s'.ripRoute p with route := none, nextHop := nextHop } := by
      rw [setRipRoute_self, unlinkRoute_self]
    have hroutes : ((s'.unlinkRoute P p).setRipRoute p fun x ↦
        { x with nextHop := nextHop }).ripRoutes = s'.ripRoutes := unlinkRoute_ripRoutes p s'
    simp only
    split_ifs with hlt
    · refine (ConsistentOff.relink hoff (by rwa [hroutes]) ?_ ?_ ?_ ?_ hpos hlt).mono
        fun s₂ h₂ ↦ ⟨h₂.1, h₂.2.trans hroutes⟩
      · rw [hself]
      · rw [hself]
        exact hs'.ie
      · rw [hself]
      · rw [hself]
        exact hs'.metric
    · refine ⟨hdone _ hoff ?_ ?_ hlt, hroutes⟩
      · rw [hself]
      · rw [hself]
        exact hs'.metric

/-- **A route is updated.** -/
theorem Consistent.updateRoute {ie : ℕ} {nextHop : L3Address} {metric routeTag : ℕ}
    {fromAddr : L3Address} (h : Consistent P s) (hp : p ∈ s.ripRoutes) (hpos : 1 ≤ metric)
    (hle : metric ≤ RIP_INFINITE_METRIC) : Results (Consistent P) (· ≠ .assertionFailed)
      (s.updateRoute P p ie nextHop metric routeTag fromAddr) := by
  refine (h.adopt hp).bind fun s₁ hs₁ ↦ ?_
  refine (hs₁.updateLink h hp hpos hle).bind fun s₂ hs₂ ↦ ?_
  have hchanged : Consistent P ((s₂.setRipRoute p fun x ↦ { x with changed := true }).triggerUpdate P) :=
    (Consistent.touch hs₂.1 p (fun _ ↦ true) RIPRoute.lastUpdateTime).triggerUpdate
  show Consistent P (if _ then _ else _)
  split_ifs
  · refine hchanged.invalidateRoute ?_
    rw [triggerUpdate_ripRoutes, setRipRoute_ripRoutes, hs₂.2, hs₁.ripRoutes]
    exact hp
  · exact hchanged.touch p RIPRoute.changed fun _ ↦ _

end RIPRouting

end Inet
