import Inet.Routing.RIPOwnRoutes

/-!
# What a response does to the routes of others

The link of an imported route leads to a route of another module, and `updateRoute` deletes what it
finds there without asking whose it is. An IPv4 table also gives up its default route for a new one.
The module says which routes of the host an entry of a response takes away (`Replaces`): these and
no others are missing afterwards (`drops_processEntry`).
-/

namespace Inet

namespace RIPRouting

variable {P : RIPParameters} {s s' s'' : RIPRouting} {p r : ℕ} {R R' : ℕ → Prop}

/-! ### What is missing afterwards -/

/-- Of the routes of others, those in `R` and no others are missing in `s'`. -/
def Drops (R : ℕ → Prop) (s s' : RIPRouting) : Prop :=
  ∀ r e, e.source ≠ .rip → (s'.entry r = some e ↔ s.entry r = some e ∧ ¬ R r)

/-- The routes of others stay as they are. -/
def KeepsForeign (s s' : RIPRouting) : Prop :=
  ∀ r e, s.entry r = some e → e.source ≠ .rip → s'.entry r = some e

namespace Drops

theorem of_entry (h : ∀ r, s'.entry r = s.entry r) (hR : ∀ r, ¬ R r) : Drops R s s' := fun r e _ ↦ by
  rw [h]
  exact (and_iff_left (hR r)).symm

theorem trans (h : Drops R s s') (h' : Drops R' s' s'') : Drops (fun r ↦ R r ∨ R' r) s s'' :=
  fun r e he ↦ by rw [h' r e he, h r e he, not_or, and_assoc]

theorem congr (h : Drops R s s') (hR : ∀ r, R r ↔ R' r) : Drops R' s s' := fun r e he ↦ by
  rw [h r e he, hR]

theorem of_entry_left (h : Drops R s' s'') (hentry : ∀ r, s'.entry r = s.entry r) :
    Drops R s s'' := fun r e he ↦ by
  rw [h r e he, hentry]

theorem of_entry_right (h : Drops R s s') (hentry : ∀ r, s''.entry r = s'.entry r) :
    Drops R s s'' := fun r e he ↦ by
  rw [hentry, h r e he]

theorem keepsForeign_iff (h : Drops R s s') :
    KeepsForeign s s' ↔ ∀ r, R r → ∀ e, s.entry r = some e → e.source = .rip := by
  constructor
  · intro hkeeps r hr e he
    by_contra hsource
    exact ((h r e hsource).1 (hkeeps r e he hsource)).2 hr
  · intro hR r e he hsource
    exact (h r e hsource).2 ⟨he, fun hr ↦ hsource (hR r hr e he)⟩

end Drops

/-! ### The operations -/

theorem drops_deleteRoute (r : ℕ) (s : RIPRouting) : Drops (fun r' ↦ r = r') s (s.deleteRoute P r) := by
  intro r' e _
  rw [deleteRoute_entry]
  split_ifs with h
  · exact ⟨fun he ↦ (by cases he), fun he ↦ absurd h.symm he.2⟩
  · exact (and_iff_left (Ne.symm h)).symm

theorem drops_unlinkRoute (p : ℕ) (s : RIPRouting) :
    Drops (fun r ↦ (s.ripRoute p).route = some r) s (s.unlinkRoute P p) := by
  rw [unlinkRoute]
  cases (s.ripRoute p).route with
  | none => exact .of_entry (fun _ ↦ rfl) fun r hr ↦ by cases hr
  | some r =>
    refine Drops.congr (R := fun r' ↦ r = r') ?_ fun r' ↦ Option.some_inj.symm
    exact (drops_deleteRoute r _).of_entry_left fun _ ↦ rfl

theorem drops_replaceDefaultRoute (prefixLength : ℤ) (s : RIPRouting) :
    Drops (fun r ↦ s.oldDefaultRoute P prefixLength = some r) s
      (s.replaceDefaultRoute P prefixLength) := by
  rw [replaceDefaultRoute]
  cases s.oldDefaultRoute P prefixLength with
  | none => exact .of_entry (fun _ ↦ rfl) fun r hr ↦ by cases hr
  | some r => exact (drops_deleteRoute r s).congr fun r' ↦ Option.some_inj.symm

/-- A route of this module is not among the routes of others. -/
theorem drops_insertEntry {e : IRoute} (hsource : e.source = .rip)
    (hold : ∀ e', s.entry r = some e' → e'.source = .rip) :
    Drops (fun _ ↦ False) s (s.insertEntry r e) := by
  intro r' e₁ he₁
  rw [insertEntry_entry, and_iff_left not_false]
  split_ifs with h
  · constructor
    · intro heq
      exact absurd (Option.some.inj heq ▸ hsource) he₁
    · intro heq
      exact absurd (hold e₁ (h ▸ heq)) he₁
  · rfl

theorem drops_addOwnRoute {dest nextHop : L3Address} {prefixLength : ℤ} {ie metric : ℕ}
    {x : ℕ × RIPRouting} (h : Sound s)
    (hok : s.addOwnRoute P dest prefixLength ie nextHop metric = .ok x) :
    Drops (fun r ↦ s.oldDefaultRoute P prefixLength = some r) s x.2 := by
  rw [addOwnRoute, addIRoute] at hok
  split_ifs at hok
  rw [← Except.ok.inj hok]
  simp only
  have h' := h.fades (fades_replaceDefaultRoute (P := P) prefixLength s)
  refine ((drops_replaceDefaultRoute prefixLength s).trans (drops_insertEntry rfl
    fun e' he' ↦ absurd (h'.lt_nextRoute _ e' he') (lt_irrefl _))).congr fun r ↦ ?_
  rw [or_false]

theorem drops_relink {ie : ℕ} {nextHop : L3Address} {metric : ℕ} (h : Sound s)
    (hok : s.relink P p ie nextHop metric = .ok s') :
    Drops (fun r ↦ s.oldDefaultRoute P (s.ripRoute p).prefixLength = some r) s s' := by
  obtain ⟨x, hadded, hset⟩ := exists_of_bind_eq_ok hok
  rw [← Except.ok.inj hset]
  exact (drops_addOwnRoute h hadded).of_entry_right fun _ ↦ rfl

theorem drops_addRoute {dest : L3Address} {prefixLength : ℤ} {ie : ℕ} {nextHop : L3Address}
    {metric routeTag : ℕ} {fromAddr : L3Address} (h : Sound s)
    (hok : s.addRoute P dest prefixLength ie nextHop metric routeTag fromAddr = .ok s') :
    Drops (fun r ↦ s.oldDefaultRoute P prefixLength = some r) s s' := by
  obtain ⟨x, hadded, hset⟩ := exists_of_bind_eq_ok hok
  rw [← Except.ok.inj hset]
  exact (drops_addOwnRoute h hadded).of_entry_right fun _ ↦ triggerUpdate_entry

theorem drops_invalidateRoute (p : ℕ) (s : RIPRouting) :
    Drops (fun r ↦ (s.ripRoute p).route = some r) s (s.invalidateRoute P p) :=
  (drops_unlinkRoute p s).of_entry_right fun _ ↦ invalidateUnlinked_entry

/-! ### Updating a route -/

/-- The routing table without what a route is linked to. -/
def withoutLink (p : ℕ) (s : RIPRouting) : RIPRouting :=
  match (s.ripRoute p).route with
  | some r => s.eraseEntry r
  | none => s

theorem oldDefaultRoute_congr (hrt : s'.rt = s.rt) (prefixLength : ℤ) :
    s'.oldDefaultRoute P prefixLength = s.oldDefaultRoute P prefixLength := by
  rw [oldDefaultRoute, oldDefaultRoute, hrt]

theorem withoutLink_rt (hroute : (s'.ripRoute p).route = (s.ripRoute p).route)
    (hrt : ∀ r, s'.rt.erase r = s.rt.erase r) (hnone : (s.ripRoute p).route = none → s'.rt = s.rt) :
    (s'.withoutLink p).rt = (s.withoutLink p).rt := by
  rw [withoutLink, withoutLink, hroute]
  cases hlink : (s.ripRoute p).route with
  | none => exact hnone hlink
  | some r => exact hrt r

theorem foldl_handleRouteDeleted_rt (r : ℕ) (ps : List ℕ) (s : RIPRouting) :
    (ps.foldl (fun s p ↦
      if (s.ripRoute p).route = some r then s.invalidateUnlinked P p else s) s).rt = s.rt := by
  induction ps generalizing s with
  | nil => rfl
  | cons p ps ih =>
    rw [List.foldl_cons, ih]
    split_ifs
    · rw [invalidateUnlinked, triggerUpdate_eq]
      rfl
    · rfl

theorem deleteRoute_rt (r : ℕ) (s : RIPRouting) : (s.deleteRoute P r).rt = s.rt.erase r := by
  rw [deleteRoute]
  cases he : s.entry r with
  | none =>
    refine AList.ext (List.kerase_of_notMem_keys fun hr ↦ ?_).symm
    exact absurd (AList.lookup_eq_none.1 he) (not_not.2 (AList.mem_keys.1 hr))
  | some e =>
    simp only
    split_ifs
    · rfl
    · exact foldl_handleRouteDeleted_rt r _ _

theorem unlinkRoute_rt (p : ℕ) (s : RIPRouting) :
    (s.unlinkRoute P p).rt = (s.withoutLink p).rt := by
  rw [unlinkRoute, withoutLink]
  cases (s.ripRoute p).route with
  | none => rfl
  | some r => exact deleteRoute_rt r _

theorem insertEntry_erase (s : RIPRouting) (r : ℕ) (e : IRoute) :
    (s.insertEntry r e).rt.erase r = s.rt.erase r := by
  refine AList.ext ?_
  show List.kerase r (⟨r, e⟩ :: List.kerase r s.rt.entries) = List.kerase r s.rt.entries
  exact List.kerase_cons_eq rfl

/-- What `adopt` leaves as it is. -/
structure AdoptedForeign (p : ℕ) (s s' : RIPRouting) : Prop where
  sound : Sound s'
  drops : Drops (fun _ ↦ False) s s'
  route : (s'.ripRoute p).route = (s.ripRoute p).route
  prefixLength : (s'.ripRoute p).prefixLength = (s.ripRoute p).prefixLength
  withoutLink : (s'.withoutLink p).rt = (s.withoutLink p).rt

theorem adoptedForeign {ie metric routeTag : ℕ} {fromAddr : L3Address} (h : Sound s)
    (hok : s.adopt p ie metric routeTag fromAddr = .ok s') : AdoptedForeign p s s' := by
  have hself := setRipRoute_self s p fun x ↦
    { x with ie := some ie, metric := metric, fromAddr := fromAddr, tag := routeTag }
  have hsound := h.adopt.of_eq_ok hok
  rw [adopt.eq_def] at hok
  generalize hs₁ : (s.setRipRoute p fun x ↦
    { x with ie := some ie, metric := metric, fromAddr := fromAddr, tag := routeTag }) = s₁ at hok hself
  have hentry (r : ℕ) : s₁.entry r = s.entry r := hs₁ ▸ rfl
  have hrt : s₁.rt = s.rt := hs₁ ▸ rfl
  split at hok
  · rename_i r htype hr
    cases he : s.entry r with
    | none =>
      rw [he] at hok
      cases hok
    | some e =>
      rw [he] at hok
      have hown := (h.own p r htype hr).2
      obtain rfl := Except.ok.inj hok
      have hself' (e' : IRoute) : (s₁.insertEntry r e').ripRoute p = s₁.ripRoute p := rfl
      refine ⟨hsound, ?_, ?_, ?_, ?_⟩
      · refine Drops.of_entry_left (drops_insertEntry (hown e he) fun e' he' ↦ ?_) hentry
        exact hown e' (hentry r ▸ he')
      · rw [hself', hself]
      · rw [hself', hself]
      · rw [RIPRouting.withoutLink, RIPRouting.withoutLink, hself', hself, hr]
        exact (insertEntry_erase s₁ r _).trans (congrArg (AList.erase r) hrt)
  · obtain rfl := Except.ok.inj hok
    refine ⟨hsound, .of_entry hentry fun _ ↦ not_false, ?_, ?_, ?_⟩
    · rw [hself]
    · rw [hself]
    · refine withoutLink_rt ?_ (fun r ↦ congrArg (AList.erase r) hrt) fun _ ↦ hrt
      rw [hself]

/-- What `updateLink` takes out of the routing table. -/
def Unlinks (P : RIPParameters) (p metric : ℕ) (s : RIPRouting) (r : ℕ) : Prop :=
  (s.ripRoute p).route = some r ∨ metric < RIP_INFINITE_METRIC ∧
    (s.withoutLink p).oldDefaultRoute P (s.ripRoute p).prefixLength = some r

/-- **The new link.** The metric is a new one. -/
theorem drops_updateLink {ie : ℕ} {nextHop : L3Address} {metric oldMetric : ℕ} (h : Sound s)
    (hle : metric ≤ RIP_INFINITE_METRIC) (hne : oldMetric ≠ metric)
    (hok : s.updateLink P p ie nextHop metric oldMetric = .ok s') :
    Drops (Unlinks P p metric s) s s' ∧
      (metric = RIP_INFINITE_METRIC → (s'.ripRoute p).route = none) := by
  have hunlinkedDrops : Drops (fun r ↦ (s.ripRoute p).route = some r) s
      ((s.unlinkRoute P p).setRipRoute p fun x ↦ { x with nextHop := nextHop }) :=
    (drops_unlinkRoute p s).of_entry_right fun _ ↦ rfl
  have hunlinked : Sound ((s.unlinkRoute P p).setRipRoute p fun x ↦ { x with nextHop := nextHop }) :=
    (h.unlinkRoute p).touch p _ (fun _ ↦ rfl) fun _ ↦ rfl
  have hself : ((s.unlinkRoute P p).setRipRoute p fun x ↦ { x with nextHop := nextHop }).ripRoute p =
      { s.ripRoute p with route := none, nextHop := nextHop } := by
    rw [setRipRoute_self, unlinkRoute_self]
  have hrt : ((s.unlinkRoute P p).setRipRoute p fun x ↦ { x with nextHop := nextHop }).rt =
      (s.withoutLink p).rt := unlinkRoute_rt p s
  rw [updateLink] at hok
  simp only at hok
  generalize (s.unlinkRoute P p).setRipRoute p (fun x ↦ { x with nextHop := nextHop }) = s₁
    at hok hunlinkedDrops hunlinked hself hrt
  split_ifs at hok with hold hlt hnone hnone hlt
  · -- there is no link to be removed
    have hset := setRipRoute_self s p fun x ↦ { x with type := .rte, nextHop := nextHop }
    have hsound : Sound (s.setRipRoute p fun x ↦ { x with type := .rte, nextHop := nextHop }) := by
      refine h.setRipRoute _ fun r _ hr ↦ ?_
      rw [show (s.ripRoute p).route = some r from hr] at hnone
      cases hnone
    refine ⟨((drops_relink hsound hok).of_entry_left fun _ ↦ rfl).congr fun r ↦ ?_,
      fun hinfinite ↦ absurd hinfinite hlt.ne⟩
    rw [Unlinks, hset, withoutLink, hnone, and_iff_right hlt, or_iff_right (by simp)]
    exact Iff.rfl
  · exact absurd (hold.trans (hle.antisymm (not_lt.1 hlt)).symm) hne
  · refine ⟨(hunlinkedDrops.trans (drops_relink hunlinked hok)).congr fun r ↦ ?_,
      fun hinfinite ↦ absurd hinfinite hlt.ne⟩
    rw [Unlinks, hself, and_iff_right hlt, oldDefaultRoute_congr hrt]
  · obtain rfl := Except.ok.inj hok
    refine ⟨hunlinkedDrops.congr fun r ↦ ?_, fun _ ↦ by rw [hself]⟩
    rw [Unlinks, or_iff_left fun hr ↦ hlt hr.1]

theorem drops_updateRoute {ie : ℕ} {nextHop : L3Address} {metric routeTag : ℕ}
    {fromAddr : L3Address} (h : Sound s) (hle : metric ≤ RIP_INFINITE_METRIC)
    (hne : (s.ripRoute p).metric ≠ metric)
    (hok : s.updateRoute P p ie nextHop metric routeTag fromAddr = .ok s') :
    Drops (Unlinks P p metric s) s s' := by
  obtain ⟨s₁, hadopt, hrest⟩ := exists_of_bind_eq_ok hok
  obtain ⟨s₂, hlink, hend⟩ := exists_of_bind_eq_ok hrest
  have h₁ := adoptedForeign h hadopt
  obtain ⟨h₂, hnone⟩ := drops_updateLink h₁.sound hle hne hlink
  have hdrops : Drops (Unlinks P p metric s) s s₂ := by
    refine (h₁.drops.trans h₂).congr fun r ↦ ?_
    rw [false_or, Unlinks, Unlinks, h₁.route, h₁.prefixLength, oldDefaultRoute_congr h₁.withoutLink]
  generalize hs₃ : (s₂.setRipRoute p fun x ↦ { x with changed := true }).triggerUpdate P = s₃ at hend
  have hentry (r : ℕ) : s₃.entry r = s₂.entry r := by
    rw [← hs₃, triggerUpdate_entry, setRipRoute_entry]
  have hroute : (s₃.ripRoute p).route = (s₂.ripRoute p).route := by
    rw [← hs₃, triggerUpdate_ripRoute, setRipRoute_self]
  rw [← Except.ok.inj hend]
  have hdrops' := hdrops.of_entry_right hentry
  split_ifs with hinfinite
  · -- there is nothing left to delete
    refine (hdrops'.trans (drops_invalidateRoute p s₃)).congr fun r ↦ or_iff_left ?_
    rw [hroute, hnone hinfinite.1]
    exact fun hr ↦ by cases hr
  · exact hdrops'.of_entry_right fun _ ↦ rfl

/-! ### Responses -/

/-- The metric that an entry of a response offers. -/
def offeredMetric (incomingIe : RIPInterfaceEntry) (e : RIPEntry) : ℕ :=
  min (e.metric + incomingIe.metric) RIP_INFINITE_METRIC

/-- The tests before a route is updated. -/
def IsUpdated (incomingIe : RIPInterfaceEntry) (srcAddr : L3Address) (route : RIPRoute)
    (e : RIPEntry) : Prop :=
  ¬ ((route.type = .static ∨ route.type = .default) ∧ route.metric ≠ RIP_INFINITE_METRIC) ∧
    (route.fromAddr = srcAddr ∧ route.metric ≠ offeredMetric incomingIe e ∨
      offeredMetric incomingIe e < route.metric)

/-- An entry of a response takes a route out of the routing table: what an updated route is linked
to, or the default route for which there is a new one. -/
def Replaces (P : RIPParameters) (incomingIe : RIPInterfaceEntry) (srcAddr : L3Address)
    (s : RIPRouting) (e : RIPEntry) (r : ℕ) : Prop :=
  match s.findRoute e.address e.prefixLength with
  | some p => IsUpdated incomingIe srcAddr (s.ripRoute p) e ∧
    ((s.ripRoute p).route = some r ∨ offeredMetric incomingIe e < RIP_INFINITE_METRIC ∧
      (s.withoutLink p).oldDefaultRoute P e.prefixLength = some r)
  | none => offeredMetric incomingIe e < RIP_INFINITE_METRIC ∧
    s.oldDefaultRoute P e.prefixLength = some r

/-- A route whose time has been taken anew. -/
structure Touched (p : ℕ) (s s' : RIPRouting) : Prop where
  sound : Sound s'
  entry : ∀ r, s'.entry r = s.entry r
  metric : (s'.ripRoute p).metric = (s.ripRoute p).metric
  route : (s'.ripRoute p).route = (s.ripRoute p).route
  prefixLength : (s'.ripRoute p).prefixLength = (s.ripRoute p).prefixLength
  withoutLink : (s'.withoutLink p).rt = (s.withoutLink p).rt

theorem touched_of_eq {C : Prop} [Decidable C] {now : ℕ} (h : Sound s)
    (heq : (if C then s.setRipRoute p fun x ↦ { x with lastUpdateTime := now } else s) = s') :
    Touched p s s' := by
  have hself := setRipRoute_self s p fun x ↦ { x with lastUpdateTime := now }
  split_ifs at heq
  · have hsound : Sound (s.setRipRoute p fun x ↦ { x with lastUpdateTime := now }) :=
      h.touch p _ (fun _ ↦ rfl) fun _ ↦ rfl
    have hrt : (s.setRipRoute p fun x ↦ { x with lastUpdateTime := now }).rt = s.rt := rfl
    have hentry (r : ℕ) :
        (s.setRipRoute p fun x ↦ { x with lastUpdateTime := now }).entry r = s.entry r := rfl
    rw [heq] at hself hsound hrt hentry
    refine ⟨hsound, hentry, ?_, ?_, ?_, withoutLink_rt ?_ (fun r ↦ congrArg (AList.erase r) hrt)
      fun _ ↦ hrt⟩
    all_goals rw [hself]
  · exact heq ▸ ⟨h, fun _ ↦ rfl, rfl, rfl, rfl, rfl⟩

/-- **One entry.** -/
theorem drops_processEntry {incomingIe : RIPInterfaceEntry} {srcAddr : L3Address} {e : RIPEntry}
    (h : Sound s) (hok : processEntry P incomingIe srcAddr s e = .ok s') :
    Drops (Replaces P incomingIe srcAddr s e) s s' := by
  have hle : offeredMetric incomingIe e ≤ RIP_INFINITE_METRIC := min_le_right _ _
  rw [processEntry] at hok
  simp only at hok
  generalize (if e.nextHop = 0 then srcAddr else e.nextHop) = nextHop at hok
  rw [← offeredMetric] at hok
  cases hfind : s.findRoute e.address e.prefixLength with
  | none =>
    have hreplaces (r : ℕ) : Replaces P incomingIe srcAddr s e r ↔
        offeredMetric incomingIe e < RIP_INFINITE_METRIC ∧
          s.oldDefaultRoute P e.prefixLength = some r := by
      rw [Replaces, hfind]
    rw [hfind] at hok
    simp only at hok
    split_ifs at hok with hmetric
    · refine (drops_addRoute h hok).congr fun r ↦ ?_
      rw [hreplaces, and_iff_right (hle.lt_of_ne hmetric)]
    · obtain rfl := Except.ok.inj hok
      refine .of_entry (fun _ ↦ rfl) fun r hr ↦ ?_
      exact hmetric ((hreplaces r).1 hr).1.ne
  | some p =>
    have hpfx : (s.ripRoute p).prefixLength = e.prefixLength :=
      (Prod.ext_iff.1 (mem_of_findRoute hfind).2).2
    have hreplaces (r : ℕ) : Replaces P incomingIe srcAddr s e r ↔
        IsUpdated incomingIe srcAddr (s.ripRoute p) e ∧
          Unlinks P p (offeredMetric incomingIe e) s r := by
      rw [Replaces, hfind, Unlinks, hpfx]
    rw [hfind] at hok
    simp only at hok
    generalize hs₀ : (if (s.ripRoute p).fromAddr = srcAddr then
      s.setRipRoute p fun x ↦ { x with lastUpdateTime := s.now } else s) = s₀ at hok
    have htouched := touched_of_eq h hs₀
    split_ifs at hok with hkept hupdated
    · obtain rfl := Except.ok.inj hok
      exact .of_entry (fun _ ↦ rfl) fun r hr ↦ ((hreplaces r).1 hr).1.1 hkept
    · have hne : (s.ripRoute p).metric ≠ offeredMetric incomingIe e := by
        rcases hupdated with ⟨-, hne⟩ | hlt
        exacts [hne, hlt.ne']
      refine ((drops_updateRoute htouched.sound hle (htouched.metric ▸ hne) hok).of_entry_left
        htouched.entry).congr fun r ↦ ?_
      rw [hreplaces, Unlinks, Unlinks, htouched.route, htouched.prefixLength,
        oldDefaultRoute_congr htouched.withoutLink]
      exact (and_iff_right ⟨hkept, hupdated⟩).symm
    · obtain rfl := Except.ok.inj hok
      exact .of_entry htouched.entry fun r hr ↦ hupdated ((hreplaces r).1 hr).1.2

/-! ### A response -/

/-- An entry of a response spares the routes of others. -/
def Spares (P : RIPParameters) (incomingIe : RIPInterfaceEntry) (srcAddr : L3Address)
    (s : RIPRouting) (e : RIPEntry) : Prop :=
  ∀ r, Replaces P incomingIe srcAddr s e r → ∀ f, s.entry r = some f → f.source = .rip

/-- What a response leaves of the routes of others was there before. -/
theorem subset_processEntries {incomingIe : RIPInterfaceEntry} {srcAddr : L3Address}
    {entry : List RIPEntry} (h : Sound s)
    (hok : entry.foldlM (processEntry P incomingIe srcAddr) s = .ok s') (r : ℕ) (f : IRoute)
    (hsource : f.source ≠ .rip) (hf : s'.entry r = some f) : s.entry r = some f := by
  induction entry generalizing s with
  | nil => exact Except.ok.inj hok ▸ hf
  | cons e entry ih =>
    rw [List.foldlM_cons] at hok
    obtain ⟨s₁, hfirst, hrest⟩ := exists_of_bind_eq_ok hok
    have hs₁ := ih ((h.processEntry incomingIe srcAddr e).of_eq_ok hfirst) hrest
    exact ((drops_processEntry h hfirst r f hsource).1 hs₁).1

/-- **A loop over entries** keeps the routes of others if and only if each entry spares them. -/
theorem processEntries_keepsForeign_iff {incomingIe : RIPInterfaceEntry} {srcAddr : L3Address}
    {entry : List RIPEntry} (h : Sound s)
    (hok : entry.foldlM (processEntry P incomingIe srcAddr) s = .ok s') :
    KeepsForeign s s' ↔ ∀ done e rest s₁, entry = done ++ e :: rest →
      done.foldlM (processEntry P incomingIe srcAddr) s = .ok s₁ →
        Spares P incomingIe srcAddr s₁ e := by
  induction entry generalizing s with
  | nil =>
    obtain rfl := Except.ok.inj hok
    refine iff_of_true (fun r e he _ ↦ he) fun done e rest s₁ hentry _ ↦ ?_
    cases done <;> cases hentry
  | cons e₀ entry ih =>
    rw [List.foldlM_cons] at hok
    obtain ⟨s₀, hfirst, hrest⟩ := exists_of_bind_eq_ok hok
    have h₀ := (h.processEntry incomingIe srcAddr e₀).of_eq_ok hfirst
    have hstep := (drops_processEntry h hfirst).keepsForeign_iff
    constructor
    · intro hkeeps done e rest s₁ hentry hdone
      cases done with
      | nil =>
        obtain ⟨rfl, rfl⟩ := List.cons_eq_cons.1 hentry
        obtain rfl := Except.ok.inj hdone
        refine hstep.1 fun r f hf hsource ↦ ?_
        exact subset_processEntries h₀ hrest r f hsource (hkeeps r f hf hsource)
      | cons e' done =>
        obtain ⟨rfl, htail⟩ := List.cons_eq_cons.1 hentry
        rw [List.foldlM_cons, hfirst] at hdone
        refine (ih h₀ hrest).1 (fun r f hf hsource ↦ ?_) done e rest s₁ htail hdone
        exact hkeeps r f ((drops_processEntry h hfirst r f hsource).1 hf).1 hsource
    · intro hspares r f hf hsource
      have hkept := hstep.2 (hspares [] e₀ entry s rfl rfl)
      refine (ih h₀ hrest).2 (fun done e rest s₁ hentry hdone ↦ ?_) r f (hkept r f hf hsource) hsource
      refine hspares (e₀ :: done) e rest s₁ (by rw [hentry]; rfl) ?_
      rw [List.foldlM_cons, hfirst]
      exact hdone

/-- **A response** to which the module listens keeps the routes of others if and only if each of its
entries spares them when it is processed. -/
theorem processResponse_keepsForeign_iff
    {tr : List (Transition RIPRouting RIPEvent (List RIPPacket))} {ctrlInfo : UDPDataIndication}
    {entry : List RIPEntry} (hrun : (system P).Run tr s)
    (hok : s.processResponse P ctrlInfo entry = .ok s') :
    KeepsForeign s s' ↔ (isValidResponse P ctrlInfo entry = true →
      ∀ incomingIe, s.findInterfaceById ctrlInfo.interfaceId = some incomingIe →
        ∀ done e rest s₁, entry = done ++ e :: rest →
          done.foldlM (processEntry P incomingIe ctrlInfo.srcAddr) s = .ok s₁ →
            Spares P incomingIe ctrlInfo.srcAddr s₁ e) := by
  rw [processResponse] at hok
  have hkept : s = s' → KeepsForeign s s' := fun heq ↦ heq ▸ fun r f hf _ ↦ hf
  split_ifs at hok with hvalid
  · cases hfind : s.findInterfaceById ctrlInfo.interfaceId with
    | none =>
      rw [hfind] at hok
      exact iff_of_true (hkept (Except.ok.inj hok)) fun _ incomingIe h ↦ by cases h
    | some incomingIe =>
      rw [hfind] at hok
      rw [processEntries_keepsForeign_iff (Sound.of_run hrun) hok]
      refine ⟨fun hspares _ ie hie ↦ ?_, fun hspares ↦ hspares hvalid incomingIe rfl⟩
      obtain rfl := Option.some.inj hie
      exact hspares
  · exact iff_of_true (hkept (Except.ok.inj hok)) fun h ↦ absurd h hvalid

/-- The neighbour's route to another network takes nothing away. -/
theorem keepsForeign_neighbourHasRoute :
    KeepsForeign twoNetworks (after RIPv2Parameters twoNetworks (neighbourHasRoute 30 3)).1 := by
  refine (processResponse_keepsForeign_iff (P := RIPv2Parameters) (.nil twoNetworks_starts)
    (rfl : processResponse RIPv2Parameters ⟨21, 520, 1, 1, false, true⟩
      [⟨RIP_AF_INET, 0, 30, 24, 0, 3⟩] twoNetworks = _)).2 ?_
  intro _ incomingIe _ done e rest s₁ hentry hdone r hreplaces
  cases done with
  | nil =>
    obtain ⟨rfl, -⟩ := List.cons_eq_cons.1 hentry
    obtain rfl := Except.ok.inj hdone
    -- there is no route for the network, and it is not the default one
    have hnone : twoNetworks.findRoute 30 24 = none := by decide
    rw [Replaces, hnone] at hreplaces
    cases hreplaces.2
  | cons e' done =>
    obtain ⟨-, htail⟩ := List.cons_eq_cons.1 hentry
    cases done <;> cases htail

/-- A router with two networks, the way into the first of which is costly. -/
def costlyNetwork : RIPRouting :=
  startRIPRouting RIPv2Parameters 0
    [⟨0, 5, .splitHorizonPoisonedReverse, by decide, by decide⟩, defaultInterface 1]
    ((AList.insert 0 (interfaceRoute 0 10) ∅).insert 1 (interfaceRoute 1 20)) 2

/-- The neighbour is in the costly network, too: the route of the interface is replaced by the
detour. -/
theorem not_keepsForeign_costlyNetwork :
    ¬ ∀ (P : RIPParameters) (tr : List (Transition RIPRouting RIPEvent (List RIPPacket)))
        (s s' : RIPRouting) (ctrlInfo : UDPDataIndication) (entry : List RIPEntry),
      (system P).Run tr s → isValidResponse P ctrlInfo entry = true →
        s.processResponse P ctrlInfo entry = .ok s' → KeepsForeign s s' := by
  intro h
  have hkeeps := h RIPv2Parameters [] costlyNetwork _ ⟨21, 520, 1, 1, false, true⟩
    [⟨RIP_AF_INET, 0, 10, 24, 0, 1⟩] (.nil ⟨0, _, _, 2, rfl, by decide⟩) (by decide)
    (eq_ok_getD rfl costlyNetwork)
  have hroute := hkeeps 0 (interfaceRoute 0 10) rfl (by decide)
  revert hroute
  decide

end RIPRouting

end Inet
