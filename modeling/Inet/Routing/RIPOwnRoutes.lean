import Inet.Routing.RIPReachable

/-!
# The routes of the host that RIP owns

A learned route is linked to a route of the host that `RIPRouting` has added itself, whatever the
other modules do to the routing table: `Sound` holds in every run, with no assumption about what the
other modules tell (`Sound.of_run`).
-/

namespace Inet

namespace RIPRouting

variable {P : RIPParameters} {s s' : RIPRouting} {p r : ℕ}

/-! ### Learned routes in every run -/

/-- A route of the host, or its address if it is no more, is one of this module. -/
def IsOwn (s : RIPRouting) (r : ℕ) : Prop :=
  r < s.nextRoute ∧ ∀ e, s.entry r = some e → e.source = .rip

/-- What holds in every state. -/
structure Sound (s : RIPRouting) : Prop where
  nodup : s.ripRoutes.Nodup
  lt_nextRipRoute : ∀ p ∈ s.ripRoutes, p < s.nextRipRoute
  lt_nextRoute : ∀ r e, s.entry r = some e → r < s.nextRoute
  own : ∀ p r, (s.ripRoute p).type = .rte → (s.ripRoute p).route = some r → s.IsOwn r

namespace Sound

theorem congr (h : Sound s) (hroutes : s'.ripRoutes = s.ripRoutes) (hroute : s'.ripRoute = s.ripRoute)
    (hnext : s'.nextRipRoute = s.nextRipRoute) (hrt : s'.rt = s.rt)
    (hnextRoute : s'.nextRoute = s.nextRoute) : Sound s' := by
  have hentry (r : ℕ) : s'.entry r = s.entry r := congrArg (AList.lookup r) hrt
  refine ⟨hroutes ▸ h.nodup, ?_, fun r e he ↦ ?_, fun p r htype hr ↦ ?_⟩
  · rw [hroutes, hnext]
    exact h.lt_nextRipRoute
  · rw [hentry] at he
    exact hnextRoute ▸ h.lt_nextRoute r e he
  · rw [hroute] at htype hr
    obtain ⟨hlt, hsource⟩ := h.own p r htype hr
    refine ⟨hnextRoute ▸ hlt, fun e he ↦ ?_⟩
    rw [hentry] at he
    exact hsource e he

theorem fades (h : Sound s) (hfades : Fades s s') : Sound s' := by
  refine ⟨hfades.ripRoutes ▸ h.nodup, ?_, fun r e he ↦ ?_, fun p r htype hr ↦ ?_⟩
  · rw [hfades.ripRoutes, hfades.nextRipRoute]
    exact h.lt_nextRipRoute
  · exact hfades.nextRoute ▸ h.lt_nextRoute r e (hfades.entry r e he)
  · rcases hfades.ripRoute p with heq | heq
    · rw [heq] at htype hr
      obtain ⟨hlt, hsource⟩ := h.own p r htype hr
      exact ⟨hfades.nextRoute ▸ hlt, fun e he ↦ hsource e (hfades.entry r e he)⟩
    · rw [heq] at hr
      cases hr

theorem triggerUpdate (h : Sound s) : Sound (s.triggerUpdate P) :=
  h.fades (fades_triggerUpdate s)

/-- A route is changed so that, if it is a learned one, its link is one of this module. -/
theorem setRipRoute (h : Sound s) (f : RIPRoute → RIPRoute)
    (hf : ∀ r, (f (s.ripRoute p)).type = .rte → (f (s.ripRoute p)).route = some r → s.IsOwn r) :
    Sound (s.setRipRoute p f) := by
  refine ⟨h.nodup, h.lt_nextRipRoute, h.lt_nextRoute, fun q r htype hr ↦ ?_⟩
  by_cases hq : q = p
  · rw [hq, setRipRoute_self] at htype hr
    exact hf r htype hr
  · rw [setRipRoute_of_ne _ _ hq] at htype hr
    exact h.own q r htype hr

/-- A change that leaves the type and the link as they are. -/
theorem touch (h : Sound s) (p : ℕ) (f : RIPRoute → RIPRoute) (htype : ∀ x, (f x).type = x.type)
    (hroute : ∀ x, (f x).route = x.route) : Sound (s.setRipRoute p f) := by
  refine h.setRipRoute f fun r hrte hr ↦ ?_
  rw [htype] at hrte
  rw [hroute] at hr
  exact h.own p r hrte hr

/-- The link is removed. -/
theorem unlink (h : Sound s) (p : ℕ) (f : RIPRoute → RIPRoute) (hroute : ∀ x, (f x).route = none) :
    Sound (s.setRipRoute p f) := by
  refine h.setRipRoute f fun r _ hr ↦ ?_
  rw [hroute] at hr
  cases hr

theorem pushRoute {x : RIPRoute} (h : Sound s)
    (hx : ∀ r, x.type = .rte → x.route = some r → s.IsOwn r) : Sound (s.pushRoute x) := by
  have hfresh : s.nextRipRoute ∉ s.ripRoutes := fun hmem ↦ (h.lt_nextRipRoute _ hmem).ne rfl
  refine ⟨?_, fun q hq ↦ ?_, h.lt_nextRoute, fun q r htype hr ↦ ?_⟩
  · refine List.nodup_append.2 ⟨h.nodup, List.nodup_singleton _, fun a ha b hb ↦ ?_⟩
    rw [List.mem_singleton.1 hb]
    exact ne_of_mem_of_not_mem ha hfresh
  · show q < s.nextRipRoute + 1
    rcases List.mem_append.1 hq with hq | hq
    · exact (h.lt_nextRipRoute q hq).trans (Nat.lt_succ_self _)
    · exact (List.mem_singleton.1 hq).symm ▸ Nat.lt_succ_self _
  · by_cases hq : q = s.nextRipRoute
    · rw [hq, pushRoute_self] at htype hr
      exact hx r htype hr
    · rw [pushRoute_of_ne _ hq] at htype hr
      exact h.own q r htype hr

theorem of_sublist (h : Sound s) {ps : List ℕ} (hsub : ps.Sublist s.ripRoutes) :
    Sound { s with ripRoutes := ps } :=
  ⟨h.nodup.sublist hsub, fun p hp ↦ h.lt_nextRipRoute p (hsub.subset hp), h.lt_nextRoute, h.own⟩

/-- A route of the host is changed, but not its source. -/
theorem insertEntry {e e' : IRoute} (h : Sound s) (he : s.entry r = some e)
    (hsource : e'.source = e.source) : Sound (s.insertEntry r e') := by
  refine ⟨h.nodup, h.lt_nextRipRoute, fun r' e₁ he₁ ↦ ?_, fun q r' htype hr ↦ ?_⟩
  · rw [insertEntry_entry] at he₁
    split_ifs at he₁ with heq
    · exact heq ▸ h.lt_nextRoute r e he
    · exact h.lt_nextRoute r' e₁ he₁
  · obtain ⟨hlt, hown⟩ := h.own q r' htype hr
    refine ⟨hlt, fun e₁ he₁ ↦ ?_⟩
    rw [insertEntry_entry] at he₁
    split_ifs at he₁ with heq
    · rw [← Option.some.inj he₁, hsource]
      exact hown e (heq ▸ he)
    · exact hown e₁ he₁

/-! ### Operations -/

theorem unlinkRoute (h : Sound s) (p : ℕ) : Sound (s.unlinkRoute P p) := by
  rw [RIPRouting.unlinkRoute]
  cases (s.ripRoute p).route with
  | none => exact h
  | some r => exact (h.unlink p _ fun _ ↦ rfl).fades (fades_deleteRoute r _)

theorem invalidateRoute (h : Sound s) (p : ℕ) : Sound (s.invalidateRoute P p) :=
  (h.unlinkRoute p).fades (fades_invalidateUnlinked p _)

theorem purgeRoute (h : Sound s) (p : ℕ) : Sound (s.purgeRoute P p) :=
  (h.unlinkRoute p).of_sublist List.erase_sublist

theorem checkRouteIsExpired (h : Sound s) (p : ℕ) : Sound (s.checkRouteIsExpired P p).2 := by
  rw [RIPRouting.checkRouteIsExpired]
  split_ifs
  exacts [h.purgeRoute p, h.invalidateRoute p, h, h]

end Sound

/-- What there is after a route has been added. -/
structure SoundAdded (route : IRoute) (s : RIPRouting) (x : ℕ × RIPRouting) : Prop where
  sound : Sound x.2
  entry : x.2.entry x.1 = some route
  faded : ∀ p, x.2.ripRoute p = s.ripRoute p ∨ x.2.ripRoute p = (s.ripRoute p).invalidated

theorem SoundAdded.isOwn {route : IRoute} {x : ℕ × RIPRouting} (h : SoundAdded route s x)
    (hsource : route.source = .rip) : x.2.IsOwn x.1 := by
  refine ⟨h.sound.lt_nextRoute _ _ h.entry, fun e he ↦ ?_⟩
  rw [h.entry] at he
  exact Option.some.inj he ▸ hsource

namespace Sound

theorem addIRoute {route : IRoute} (h : Sound s) :
    Results (SoundAdded route s) (fun _ ↦ True) (s.addIRoute P route) := by
  rw [RIPRouting.addIRoute]
  split_ifs
  · have hfades := fades_replaceDefaultRoute (P := P) route.prefixLength s
    have h' := h.fades hfades
    generalize s.replaceDefaultRoute P route.prefixLength = s' at h' hfades
    have hentry (r : ℕ) : ({ s'.insertEntry s'.nextRoute route with
        nextRoute := s'.nextRoute + 1 } : RIPRouting).entry r =
        if r = s'.nextRoute then some route else s'.entry r :=
      insertEntry_entry s' _ _ _
    refine ⟨⟨h'.nodup, h'.lt_nextRipRoute, fun r e he ↦ ?_, fun q r htype hr ↦ ?_⟩, ?_,
      hfades.ripRoute⟩
    · rw [hentry] at he
      split_ifs at he with hr
      · exact hr ▸ Nat.lt_succ_self _
      · exact (h'.lt_nextRoute r e he).trans (Nat.lt_succ_self _)
    · obtain ⟨hlt, hown⟩ := h'.own q r htype hr
      refine ⟨hlt.trans (Nat.lt_succ_self _), fun e he ↦ ?_⟩
      rw [hentry, if_neg hlt.ne] at he
      exact hown e he
    · rw [hentry, if_pos rfl]
  · trivial

theorem changeIRoute {e route : IRoute} (h : Sound s) (he : s.entry r = some e)
    (hsource : route.source = e.source) :
    Results Sound (fun _ ↦ True) (s.changeIRoute P r route) := by
  rw [RIPRouting.changeIRoute, he]
  simp only
  split_ifs
  · exact h.insertEntry he hsource
  · -- between the two, the route is not there
    have hfades : Fades s ((s.eraseEntry r).replaceDefaultRoute P route.prefixLength) :=
      (fades_eraseEntry r s).trans (fades_replaceDefaultRoute _ _)
    have h' := h.fades hfades
    generalize (s.eraseEntry r).replaceDefaultRoute P route.prefixLength = s' at h' hfades
    refine ⟨h'.nodup, h'.lt_nextRipRoute, fun r' e₁ he₁ ↦ ?_, fun q r' htype hr ↦ ?_⟩
    · rw [insertEntry_entry] at he₁
      split_ifs at he₁ with heq
      · rw [heq]
        exact hfades.nextRoute.symm ▸ h.lt_nextRoute r e he
      · exact h'.lt_nextRoute r' e₁ he₁
    · obtain ⟨hlt, hown⟩ := h'.own q r' htype hr
      refine ⟨hlt, fun e₁ he₁ ↦ ?_⟩
      rw [insertEntry_entry] at he₁
      split_ifs at he₁ with heq
      · rw [← Option.some.inj he₁, hsource]
        have hlink : (s'.ripRoute q).route = some r' := hr
        rcases hfades.ripRoute q with hq | hq
        · rw [hq] at hlink
          exact (h.own q r' (hq ▸ htype) hlink).2 e (heq ▸ he)
        · rw [hq] at hlink
          cases hlink
      · exact hown e₁ he₁
  · trivial

theorem relink {ie : ℕ} {nextHop : L3Address} {metric : ℕ} (h : Sound s) :
    Results Sound (fun _ ↦ True) (s.relink P p ie nextHop metric) := by
  refine h.addIRoute.bind fun x hx ↦ hx.sound.setRipRoute _ fun r _ hr ↦ ?_
  exact Option.some.inj hr ▸ hx.isOwn rfl

theorem addRoute {dest : L3Address} {prefixLength : ℤ} {ie : ℕ} {nextHop : L3Address}
    {metric routeTag : ℕ} {fromAddr : L3Address} (h : Sound s) : Results Sound (fun _ ↦ True)
      (s.addRoute P dest prefixLength ie nextHop metric routeTag fromAddr) := by
  refine h.addIRoute.bind fun x hx ↦ Sound.triggerUpdate (hx.sound.pushRoute fun r _ hr ↦ ?_)
  exact Option.some.inj hr ▸ hx.isOwn rfl

theorem adopt {ie metric routeTag : ℕ} {fromAddr : L3Address} (h : Sound s) :
    Results Sound (fun _ ↦ True) (s.adopt p ie metric routeTag fromAddr) := by
  have hset := h.touch p (fun x ↦
    { x with ie := some ie, metric := metric, fromAddr := fromAddr, tag := routeTag })
    (fun _ ↦ rfl) fun _ ↦ rfl
  rw [RIPRouting.adopt.eq_def]
  split
  · rename_i r _ _
    cases he : s.entry r with
    | none => trivial
    | some e => exact hset.insertEntry (s := s.setRipRoute p _) he rfl
  · exact hset

theorem updateLink {ie : ℕ} {nextHop : L3Address} {metric oldMetric : ℕ} (h : Sound s) :
    Results Sound (fun _ ↦ True) (s.updateLink P p ie nextHop metric oldMetric) := by
  have hunlinked : Sound ((s.unlinkRoute P p).setRipRoute p fun x ↦ { x with nextHop := nextHop }) :=
    (h.unlinkRoute p).touch p _ (fun _ ↦ rfl) fun _ ↦ rfl
  rw [RIPRouting.updateLink]
  simp only
  split_ifs with _ _ hnone
  · refine (h.setRipRoute _ fun r _ hr ↦ ?_).relink
    rw [show (s.ripRoute p).route = some r from hr] at hnone
    cases hnone
  · trivial
  · exact h
  · trivial
  · exact hunlinked.relink
  · exact hunlinked

theorem updateRoute {ie : ℕ} {nextHop : L3Address} {metric routeTag : ℕ} {fromAddr : L3Address}
    (h : Sound s) : Results Sound (fun _ ↦ True)
      (s.updateRoute P p ie nextHop metric routeTag fromAddr) := by
  refine h.adopt.bind fun s₁ h₁ ↦ h₁.updateLink.bind fun s₂ h₂ ↦ ?_
  have hchanged : Sound ((s₂.setRipRoute p fun x ↦ { x with changed := true }).triggerUpdate P) :=
    (h₂.touch p (fun x ↦ { x with changed := true }) (fun _ ↦ rfl) fun _ ↦ rfl).triggerUpdate
  show Sound (if _ then _ else _)
  split_ifs
  · exact hchanged.invalidateRoute p
  · exact hchanged.touch p _ (fun _ ↦ rfl) fun _ ↦ rfl

theorem processEntry (h : Sound s) (incomingIe : RIPInterfaceEntry) (srcAddr : L3Address)
    (e : RIPEntry) : Results Sound (fun _ ↦ True) (processEntry P incomingIe srcAddr s e) := by
  rw [RIPRouting.processEntry]
  simp only
  generalize (if e.nextHop = 0 then srcAddr else e.nextHop) = nextHop
  cases s.findRoute e.address e.prefixLength with
  | none =>
    simp only
    split_ifs
    exacts [h.addRoute, h]
  | some p =>
    have htouched : Sound (s.setRipRoute p fun x ↦ { x with lastUpdateTime := s.now }) :=
      h.touch p _ (fun _ ↦ rfl) fun _ ↦ rfl
    simp only
    split_ifs
    exacts [h, htouched.updateRoute, h.updateRoute, htouched, h]

theorem sendRoutes (h : Sound s) (address : L3Address) (port : ℕ) (ripInterface : RIPInterfaceEntry)
    (changedOnly : Bool) : Results Sound (· ≠ .assertionFailed)
      (s.sendRoutes P address port ripInterface changedOnly) :=
  results_sendRoutes (motive := fun _ s ↦ Sound s) (fun _ _ p h _ ↦ h.checkRouteIsExpired p)
    (fun _ _ _ _ h _ _ _ ↦ h) (fun _ _ h ↦ h.congr rfl rfl rfl rfl rfl) s h

/-- A loop over the routes. -/
theorem foldl {f : RIPRouting → ℕ → RIPRouting} (hf : ∀ s p, Sound s → Sound (f s p)) (ps : List ℕ)
    (h : Sound s) : Sound (ps.foldl f s) := by
  induction ps generalizing s with
  | nil => exact h
  | cons p ps ih => exact ih (hf s p h)

theorem processUpdate (h : Sound s) (triggered : Bool) :
    Results Sound (· ≠ .assertionFailed) (s.processUpdate P triggered) := by
  refine (Results.foldlM (Q := Sound) h fun s elem _ h ↦ ?_).bind fun s' h' ↦ ?_
  · split_ifs
    exacts [h.sendRoutes _ _ _ _, h]
  · exact Sound.foldl (fun s p h ↦ h.touch p (fun x ↦ { x with changed := false }) (fun _ ↦ rfl)
      fun _ ↦ rfl) _ h'

theorem processRequest (h : Sound s) {ctrlInfo : UDPDataIndication} {entry : List RIPEntry}
    (hok : s.processRequest P ctrlInfo entry = .ok s') : Sound s' := by
  have hanswer (entry : List RIPEntry) : Sound (s.sendAnswer ctrlInfo entry) :=
    h.congr rfl rfl rfl rfl rfl
  rw [RIPRouting.processRequest.eq_def] at hok
  split at hok
  · exact Except.ok.inj hok ▸ h
  · split_ifs at hok
    · split at hok
      · exact (h.sendRoutes _ _ _ _).of_eq_ok hok
      · exact Except.ok.inj hok ▸ h
    · obtain ⟨answer, -, hanswered⟩ := exists_of_bind_eq_ok hok
      exact Except.ok.inj hanswered ▸ hanswer _
  · obtain ⟨answers, -, hanswered⟩ := exists_of_bind_eq_ok hok
    exact Except.ok.inj hanswered ▸ hanswer _

theorem processResponse (h : Sound s) (ctrlInfo : UDPDataIndication) (entry : List RIPEntry) :
    Results Sound (fun _ ↦ True) (s.processResponse P ctrlInfo entry) := by
  rw [RIPRouting.processResponse]
  split_ifs
  · cases s.findInterfaceById ctrlInfo.interfaceId with
    | none => exact h
    | some incomingIe => exact Results.foldlM h fun s e _ h ↦ h.processEntry incomingIe _ e
  · exact h

theorem deleteInterface (h : Sound s) (ie : ℕ) : Sound (s.deleteInterface P ie) := by
  have hfades := Fades.foldl (fun s (e : (_ : ℕ) × IRoute) ↦ fades_deleteRoute (P := P) e.1 s)
    (s.rt.entries.filter fun e ↦ e.2.ie = some ie) s
  have hfiltered := (h.fades hfades).of_sublist
    (List.filter_sublist (p := fun p ↦ decide ((((s.rt.entries.filter fun e ↦
      e.2.ie = some ie).foldl (fun s e ↦ s.deleteRoute P e.1) s).ripRoute p).ie ≠ some ie)))
  exact hfiltered.congr rfl rfl rfl rfl rfl

theorem handleInterfaceUp (h : Sound s) (ie : ℕ) : Sound (s.handleInterfaceUp P ie) := by
  rw [RIPRouting.handleInterfaceUp]
  cases s.findInterfaceById ie with
  | none => exact h
  | some ripInterface =>
    simp only
    split_ifs
    exacts [h.congr rfl rfl rfl rfl rfl, h]

theorem invalidateRoutes (h : Sound s) (ie : ℕ) : Sound (s.invalidateRoutes P ie) := by
  refine Sound.foldl (fun s p h ↦ ?_) s.ripRoutes h
  split_ifs
  exacts [h.invalidateRoute p, h]

theorem handleRouteAdded (h : Sound s) (r : ℕ) (route : IRoute) :
    Sound (s.handleRouteAdded P r route) := by
  rw [RIPRouting.handleRouteAdded.eq_def]
  split
  · rename_i ie _
    cases hfind : s.findRouteByInterface ie .interface with
    | some p =>
      refine Sound.triggerUpdate (h.setRipRoute _ fun r' hrte _ ↦ ?_)
      have hinterface := (mem_of_findRouteByInterface hfind).2
      rw [show (s.ripRoute p).type = .rte from hrte] at hinterface
      cases hinterface
    | none => exact h.pushRoute fun r' hrte _ ↦ by cases hrte
  · exact h

theorem handleRouteChanged (h : Sound s) (r : ℕ) (route : IRoute) :
    Sound (s.handleRouteChanged P r route) := by
  rw [RIPRouting.handleRouteChanged]
  cases s.findRouteByLink r with
  | none => exact h
  | some p =>
    have hset := h.touch p (fun x ↦
      { x with
        dest := route.dest, prefixLength := route.prefixLength, nextHop := route.nextHop
        ie := route.ie }) (fun _ ↦ rfl) fun _ ↦ rfl
    simp only
    split_ifs
    exacts [(hset.touch p (fun x ↦ { x with changed := true }) (fun _ ↦ rfl)
      fun _ ↦ rfl).triggerUpdate, hset]

/-- **One step.** -/
theorem handle (h : Sound s) {event : RIPEvent} (hallowed : s.Allowed event)
    (hok : s.handle P event = .ok s') : Sound s' := by
  cases event with
  | advance t => exact Except.ok.inj hok ▸ h.congr rfl rfl rfl rfl rfl
  | updateTimer =>
    have hcleared : Sound { s with updateTimer := none } := h.congr rfl rfl rfl rfl rfl
    obtain ⟨s₁, hsent, hset⟩ := exists_of_bind_eq_ok hok
    refine Except.ok.inj hset ▸ Sound.congr ((hcleared.processUpdate false).of_eq_ok hsent) rfl rfl rfl
      rfl rfl
  | triggeredUpdateTimer =>
    have hcleared : Sound { s with triggeredUpdateTimer := none } := h.congr rfl rfl rfl rfl rfl
    exact (hcleared.processUpdate true).of_eq_ok hok
  | request ctrlInfo entry => exact h.processRequest hok
  | response ctrlInfo entry => exact (h.processResponse ctrlInfo entry).of_eq_ok hok
  | interfaceCreated ripInterface => exact Except.ok.inj hok ▸ h.congr rfl rfl rfl rfl rfl
  | interfaceDeleted ie => exact Except.ok.inj hok ▸ h.deleteInterface ie
  | interfaceUp ie => exact Except.ok.inj hok ▸ h.handleInterfaceUp ie
  | interfaceDown ie => exact Except.ok.inj hok ▸ h.invalidateRoutes ie
  | routeAdded route =>
    obtain ⟨x, hadded, hhandled⟩ := exists_of_bind_eq_ok hok
    exact Except.ok.inj hhandled ▸ (h.addIRoute.of_eq_ok hadded).sound.handleRouteAdded x.1 route
  | routeDeleted r => exact Except.ok.inj hok ▸ h.fades (fades_deleteRoute r s)
  | routeChanged r route =>
    obtain ⟨e, he, -, hsource⟩ := hallowed
    obtain ⟨s₁, hchanged, hhandled⟩ := exists_of_bind_eq_ok hok
    exact Except.ok.inj hhandled ▸ ((h.changeIRoute he hsource).of_eq_ok hchanged).handleRouteChanged
      r route

theorem of_starts (h : Starts P s) : Sound s := by
  obtain ⟨now, ripInterfaces, rt, nextRoute, rfl, hrt⟩ := h
  have hempty : Sound
      { now := now, ripInterfaces := ripInterfaces, rt := rt, nextRoute := nextRoute } := by
    refine ⟨List.nodup_nil, List.forall_mem_nil _, fun r e he ↦ ?_, fun p r _ hr ↦ by cases hr⟩
    exact (hrt ⟨r, e⟩ (AList.mem_lookup_iff.1 he)).1
  have himported (es : List ((_ : ℕ) × IRoute)) (s : RIPRouting) (h : Sound s) :
      Sound (es.foldl (configureInitialRoute P) s) := by
    induction es generalizing s with
    | nil => exact h
    | cons e es ih =>
      refine ih _ ?_
      rcases configureInitialRoute_eq s e with heq | ⟨-, type, metric, htype, -, -, heq⟩
      · rwa [heq]
      · rw [heq]
        exact h.pushRoute fun r hrte _ ↦ absurd hrte htype
  have hstarted := himported rt.entries _ hempty
  rw [startRIPRouting]
  generalize rt.entries.foldl (configureInitialRoute P) _ = s at hstarted
  obtain ⟨sent, hsent⟩ := foldl_sendRIPRequest (P := P)
    (s.ripInterfaces.filter fun elem ↦ elem.mode ≠ .noRIP) s
  simp only [hsent]
  exact hstarted.congr rfl rfl rfl rfl rfl

/-- **Every run.** -/
theorem of_run {tr : List (Transition RIPRouting RIPEvent (List RIPPacket))}
    (hrun : (system P).Run tr s) : Sound s := by
  refine hrun.invariant (fun s ↦ of_starts) fun s event sent s' h hstep ↦ ?_
  obtain ⟨hallowed, hhandle, -⟩ := hstep
  have hcleared : Sound { s with sent := [] } := h.congr rfl rfl rfl rfl rfl
  refine hcleared.handle ?_ hhandle
  cases event <;> exact hallowed

end Sound

end RIPRouting

end Inet
