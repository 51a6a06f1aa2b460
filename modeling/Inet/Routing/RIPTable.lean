import Inet.Routing.RIPRouting

/-!
# What the operations of RIP change

A route of the table fades when it loses its link: its metric becomes infinite and it is marked as
changed. Deleting a route of the host lets every route that is linked to it fade, and nothing else
(`deleteRoute_ripRoute`); most of the operations do no more than that (`Fades`).
-/

namespace Inet

/-- A route that has been invalidated. -/
def RIPRoute.invalidated (x : RIPRoute) : RIPRoute :=
  { x with route := none, metric := RIP_INFINITE_METRIC, changed := true }

namespace RIPRouting

variable {P : RIPParameters} {s s' s'' : RIPRouting} {p q r r' : ℕ} {e : IRoute}

/-! ### One route -/

theorem setRipRoute_self (s : RIPRouting) (p : ℕ) (f : RIPRoute → RIPRoute) :
    (s.setRipRoute p f).ripRoute p = f (s.ripRoute p) :=
  Function.update_self _ _ _

theorem setRipRoute_of_ne (s : RIPRouting) (f : RIPRoute → RIPRoute) (h : q ≠ p) :
    (s.setRipRoute p f).ripRoute q = s.ripRoute q :=
  Function.update_of_ne h _ _

@[simp] theorem setRipRoute_ripRoutes (f : RIPRoute → RIPRoute) :
    (s.setRipRoute p f).ripRoutes = s.ripRoutes :=
  rfl

@[simp] theorem setRipRoute_entry (f : RIPRoute → RIPRoute) :
    (s.setRipRoute p f).entry r = s.entry r :=
  rfl

theorem pushRoute_self (s : RIPRouting) (x : RIPRoute) :
    (s.pushRoute x).ripRoute s.nextRipRoute = x :=
  Function.update_self _ _ _

theorem pushRoute_of_ne (x : RIPRoute) (h : q ≠ s.nextRipRoute) :
    (s.pushRoute x).ripRoute q = s.ripRoute q :=
  Function.update_of_ne h _ _

/-- Scheduling an update changes the timers only. -/
theorem triggerUpdate_eq (s : RIPRouting) : s.triggerUpdate P =
    { s with
      triggeredUpdateTimer := (s.triggerUpdate P).triggeredUpdateTimer
      draws := (s.triggerUpdate P).draws } := by
  rw [triggerUpdate]
  cases h : s.triggeredUpdateTimer with
  | some t => simp only
  | none =>
    simp only
    split_ifs
    · rfl
    · simp only [← h]

@[simp] theorem triggerUpdate_ripRoutes : (s.triggerUpdate P).ripRoutes = s.ripRoutes := by
  rw [triggerUpdate_eq]

@[simp] theorem triggerUpdate_ripRoute : (s.triggerUpdate P).ripRoute = s.ripRoute := by
  rw [triggerUpdate_eq]

@[simp] theorem triggerUpdate_entry : (s.triggerUpdate P).entry r = s.entry r := by
  rw [triggerUpdate_eq]
  rfl

/-! ### Fading -/

/-- All that has happened is that some routes have been invalidated, and some routes of the host
deleted. -/
structure Fades (s s' : RIPRouting) : Prop where
  now : s'.now = s.now
  ripInterfaces : s'.ripInterfaces = s.ripInterfaces
  ripRoutes : s'.ripRoutes = s.ripRoutes
  updateTimer : s'.updateTimer = s.updateTimer
  sent : s'.sent = s.sent
  nextRipRoute : s'.nextRipRoute = s.nextRipRoute
  nextRoute : s'.nextRoute = s.nextRoute
  ripRoute : ∀ p, s'.ripRoute p = s.ripRoute p ∨ s'.ripRoute p = (s.ripRoute p).invalidated
  entry : ∀ r e, s'.entry r = some e → s.entry r = some e

namespace Fades

theorem refl (s : RIPRouting) : Fades s s :=
  ⟨rfl, rfl, rfl, rfl, rfl, rfl, rfl, fun _ ↦ .inl rfl, fun _ _ h ↦ h⟩

theorem trans (h : Fades s s') (h' : Fades s' s'') : Fades s s'' where
  now := h'.now.trans h.now
  ripInterfaces := h'.ripInterfaces.trans h.ripInterfaces
  ripRoutes := h'.ripRoutes.trans h.ripRoutes
  updateTimer := h'.updateTimer.trans h.updateTimer
  sent := h'.sent.trans h.sent
  nextRipRoute := h'.nextRipRoute.trans h.nextRipRoute
  nextRoute := h'.nextRoute.trans h.nextRoute
  ripRoute p := by
    rcases h'.ripRoute p with h' | h' <;> rcases h.ripRoute p with h | h
    · exact .inl (h'.trans h)
    · exact .inr (h'.trans h)
    · exact .inr (by rw [h', h])
    · exact .inr (by rw [h', h]; rfl)
  entry r e he := h.entry r e (h'.entry r e he)

theorem foldl {α : Type} {f : RIPRouting → α → RIPRouting} (hf : ∀ s a, Fades s (f s a)) (l : List α)
    (s : RIPRouting) : Fades s (l.foldl f s) := by
  induction l generalizing s with
  | nil => exact .refl s
  | cons a l ih => exact (hf s a).trans (ih _)

end Fades

theorem fades_triggerUpdate (s : RIPRouting) : Fades s (s.triggerUpdate P) := by
  rw [triggerUpdate_eq]
  exact ⟨rfl, rfl, rfl, rfl, rfl, rfl, rfl, fun _ ↦ .inl rfl, fun _ _ h ↦ h⟩

theorem invalidateUnlinked_ripRoute (s : RIPRouting) :
    (s.invalidateUnlinked P p).ripRoute =
      Function.update s.ripRoute p (s.ripRoute p).invalidated := by
  rw [invalidateUnlinked, triggerUpdate_ripRoute]
  rfl

theorem fades_invalidateUnlinked (p : ℕ) (s : RIPRouting) : Fades s (s.invalidateUnlinked P p) := by
  refine Fades.trans ?_ (fades_triggerUpdate _)
  refine ⟨rfl, rfl, rfl, rfl, rfl, rfl, rfl, fun q ↦ ?_, fun _ _ h ↦ h⟩
  by_cases hq : q = p
  · rw [hq]
    exact .inr (setRipRoute_self _ _ _)
  · exact .inl (setRipRoute_of_ne _ _ hq)

@[simp] theorem invalidateUnlinked_entry :
    (s.invalidateUnlinked P p).entry r = s.entry r :=
  triggerUpdate_entry

/-- What the loop over the routes does to each of them. -/
theorem foldl_handleRouteDeleted (r : ℕ) (ps : List ℕ) (s : RIPRouting) :
    let s' := ps.foldl (fun s p ↦
      if (s.ripRoute p).route = some r then s.invalidateUnlinked P p else s) s
    (∀ r', s'.entry r' = s.entry r') ∧ ∀ p, s'.ripRoute p =
      if p ∈ ps ∧ (s.ripRoute p).route = some r then (s.ripRoute p).invalidated
      else s.ripRoute p := by
  induction ps generalizing s with
  | nil => exact ⟨fun _ ↦ rfl, fun p ↦ (if_neg fun h ↦ absurd h.1 List.not_mem_nil).symm⟩
  | cons q ps ih =>
    rw [List.foldl_cons]
    split_ifs with hq
    · obtain ⟨hentry, hroute⟩ := ih (s.invalidateUnlinked P q)
      refine ⟨fun r' ↦ (hentry r').trans invalidateUnlinked_entry, fun p ↦ ?_⟩
      rw [hroute, invalidateUnlinked_ripRoute]
      by_cases hp : p = q
      · subst hp
        simp only [Function.update_self, RIPRoute.invalidated, reduceCtorEq, and_false, if_false,
          List.mem_cons, true_or, true_and, hq, if_true]
      · simp only [Function.update_of_ne hp, List.mem_cons, hp, false_or]
    · obtain ⟨hentry, hroute⟩ := ih s
      refine ⟨hentry, fun p ↦ ?_⟩
      rw [hroute]
      by_cases hp : p = q
      · subst hp
        simp only [hq, and_false]
      · simp only [List.mem_cons, hp, false_or]

theorem fades_handleRouteDeleted (r : ℕ) (s : RIPRouting) : Fades s (s.handleRouteDeleted P r) := by
  refine Fades.foldl (fun s p ↦ ?_) _ s
  split_ifs
  exacts [fades_invalidateUnlinked p s, .refl s]

/-! ### Deleting a route of the host -/

theorem eraseEntry_entry (s : RIPRouting) (r r' : ℕ) :
    (s.eraseEntry r).entry r' = if r' = r then none else s.entry r' := by
  split_ifs with h
  · rw [h]
    exact AList.lookup_erase _ _
  · exact AList.lookup_erase_ne h

theorem insertEntry_entry (s : RIPRouting) (r : ℕ) (e : IRoute) (r' : ℕ) :
    (s.insertEntry r e).entry r' = if r' = r then some e else s.entry r' := by
  split_ifs with h
  · rw [h]
    exact AList.lookup_insert _
  · exact AList.lookup_insert_ne h

theorem fades_eraseEntry (r : ℕ) (s : RIPRouting) : Fades s (s.eraseEntry r) := by
  refine ⟨rfl, rfl, rfl, rfl, rfl, rfl, rfl, fun _ ↦ .inl rfl, fun r' e h ↦ ?_⟩
  rw [eraseEntry_entry] at h
  split_ifs at h
  exact h

theorem fades_deleteRoute (r : ℕ) (s : RIPRouting) : Fades s (s.deleteRoute P r) := by
  rw [deleteRoute]
  cases s.entry r with
  | none => exact .refl s
  | some e =>
    simp only
    split_ifs
    exacts [fades_eraseEntry r s, (fades_eraseEntry r s).trans (fades_handleRouteDeleted r _)]

theorem deleteRoute_entry (s : RIPRouting) (r r' : ℕ) :
    (s.deleteRoute P r).entry r' = if r' = r then none else s.entry r' := by
  rw [deleteRoute]
  cases he : s.entry r with
  | none =>
    by_cases h : r' = r
    · rw [if_pos h, h, he]
    · rw [if_neg h]
  | some e =>
    simp only
    by_cases hrip : e.source = .rip
    · rw [if_pos hrip, eraseEntry_entry]
    · rw [if_neg hrip, ← eraseEntry_entry]
      exact (foldl_handleRouteDeleted r _ _).1 r'

/-- **The routes that fade** are those that are linked to the route, unless it is one of this
module. -/
theorem deleteRoute_ripRoute (s : RIPRouting) (r p : ℕ) : (s.deleteRoute P r).ripRoute p =
    if p ∈ s.ripRoutes ∧ (s.ripRoute p).route = some r ∧ ∃ e ∈ s.entry r, e.source ≠ .rip then
      (s.ripRoute p).invalidated
    else s.ripRoute p := by
  rw [deleteRoute]
  cases he : s.entry r with
  | none => simp
  | some e =>
    simp only [Option.mem_def, Option.some.injEq, exists_eq_left']
    by_cases hrip : e.source = .rip
    · rw [if_pos hrip, if_neg fun h ↦ h.2.2 hrip]
      rfl
    · rw [if_neg hrip]
      simp only [ne_eq, hrip, not_false_eq_true, and_true]
      exact (foldl_handleRouteDeleted r _ _).2 p

end RIPRouting

end Inet
