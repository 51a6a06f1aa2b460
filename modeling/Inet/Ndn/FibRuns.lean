import Inet.Ndn.FibLookup

/-!
# Runs of the forwarding information base

Two properties of whole runs. The next hop of an entry, its face together with its destination,
should come from one call; `create` breaks this when it refreshes an entry it finds, since it
replaces the destination and keeps the face (`nextHop_of_run`). And an entry should not outlive its
lifetime by more than one period of the clean-up timer; `registerPrefix` breaks this, since it does
not start the timer (`timely_of_run`).

Both rest on `Op.origin`, which says where the entries of a table after a call come from.
-/

namespace Inet.Ndn

/-- The prefix and the next hop of an entry. -/
def FibEntry.route (e : FibEntry) : CString × Gate × MACAddress :=
  (e.stringPrefix, e.face, e.macDest)

namespace FibBase

open TransitionSystem

variable {fib : FibBase} {op : Op} {e e' : FibEntry}

/-- Where an entry of the table after a call comes from. -/
inductive Origin (fib : FibBase) : Op → FibEntry → Prop
  | kept {op : Op} {e : FibEntry} : e ∈ fib.entries → Origin fib op e
  | registered {now : SimTime} {p : CString} {face : Gate} {dest : MACAddress} :
      (fib.registerPrefix now p face dest).1 = true →
      Origin fib (.registerPrefix now p face dest) (.make now p face dest 100000)
  | refreshed {now : SimTime} {name : CString} {length : ℕ} {face : Gate} {dest : MACAddress}
      {index : ℕ} {e : FibEntry} : fib.matchIndex name = some index →
      fib.entries[index]? = some e →
      Origin fib (.create now name length face dest) (fib.refreshed now dest e)
  | inserted {now : SimTime} {name : CString} {length : ℕ} {face : Gate} {dest : MACAddress} :
      fib.matchIndex name = none → (fib.create now name length face dest).1 = true →
      Origin fib (.create now name length face dest)
        (.make now (name.take length) face dest fib.entryLifetime)
  | expired {now : SimTime} {e : FibEntry} : e ∈ fib.entries →
      Origin fib (.cleanExpired now) { e with erased := true }

/-- An entry of a list with one entry replaced is an entry of the list or the new one. -/
theorem mem_modify {l : List FibEntry} {i : ℕ} {f : FibEntry → FibEntry} (h : e ∈ l.modify i f) :
    e ∈ l ∨ ∃ e', l[i]? = some e' ∧ e = f e' := by
  obtain ⟨j, hj⟩ := List.mem_iff_getElem?.1 h
  rw [List.getElem?_modify] at hj
  obtain hij | hij := eq_or_ne i j
  · obtain ⟨e', he', heq⟩ := Option.map_eq_some_iff.1 hj
    rw [if_pos hij] at heq
    exact .inr ⟨e', hij ▸ he', heq.symm⟩
  · simp only [if_neg hij, id_map'] at hj
    exact .inl (List.mem_of_getElem? hj)

/-- **Every entry has an origin.** -/
theorem Op.origin (h : e ∈ (op.apply fib).entries) : Origin fib op e := by
  cases op with
  | registerPrefix now p face dest =>
    rw [Op.apply, FibBase.registerPrefix] at h
    split_ifs at h with hroom
    · obtain he | he := List.mem_append.1 h
      · exact .kept he
      · rw [List.mem_singleton.1 he]
        exact .registered (by rw [FibBase.registerPrefix, if_pos hroom])
    · exact .kept h
  | create now name length face dest =>
    obtain hm | ⟨index, hm⟩ := Option.eq_none_or_eq_some (fib.matchIndex name)
    · obtain hroom | hfull := lt_or_ge fib.entries.length fib.maxSize
      · have hok := (lookup_create_of_miss hm hroom now length face dest).1
        rw [Op.apply, FibBase.create, hm] at h
        simp only [if_neg hroom.not_ge] at h
        obtain he | he := List.mem_append.1 h
        · exact .kept he
        · rw [List.mem_singleton.1 he]
          exact .inserted hm hok
      · rw [Op.apply, FibBase.create, hm] at h
        simp only [if_pos hfull] at h
        exact .kept h
    · rw [Op.apply, FibBase.create, hm] at h
      obtain he | ⟨e', hget, rfl⟩ := mem_modify h
      · exact .kept he
      · exact .refreshed hm hget
  | remove p =>
    rw [Op.apply, FibBase.remove] at h
    split_ifs at h
    · exact .kept (List.mem_of_mem_eraseP h)
    · exact .kept h
  | cleanExpired now =>
    obtain ⟨e', he', heq⟩ := List.mem_map.1 h
    split_ifs at heq
    · exact heq ▸ .expired he'
    · exact heq ▸ .kept he'

/-! ### Next hops -/

/-- A successful call that gave the table the next hop of `e`, for a name that the prefix of `e`
matches. -/
def Grants (e : FibEntry) (t : Transition FibBase Op Unit) : Prop :=
  match t.input with
  | .registerPrefix now p face dest =>
    (t.pre.registerPrefix now p face dest).1 = true ∧ p = e.stringPrefix ∧ face = e.face ∧
      dest = e.macDest
  | .create now name length face dest =>
    (t.pre.create now name length face dest).1 = true ∧ e.stringPrefix <+: name ∧
      face = e.face ∧ dest = e.macDest
  | _ => False

/-- A `create` that finds an entry comes from the entry's face, or brings no new destination. -/
def Op.KeepsFace (fib : FibBase) : Op → Prop
  | .create _ name _ face dest =>
    ∀ e, fib.IsLongestMatch name e → e.face = face ∨ e.macDest = dest
  | _ => True

theorem Grants.congr {t : Transition FibBase Op Unit} (h : Grants e t) (heq : e'.route = e.route) :
    Grants e' t := by
  obtain ⟨hpfx, hrest⟩ := Prod.mk.inj heq
  obtain ⟨hface, hdest⟩ := Prod.mk.inj hrest
  rwa [Grants, hpfx, hface, hdest]

/-- **One call.** An entry after a call that keeps the face has the route of an entry before it, or
the call grants its next hop. -/
theorem Op.route_or_grants (hord : fib.Ordered) (hkeeps : op.KeepsFace fib)
    (he : e ∈ (op.apply fib).entries) :
    (∃ e' ∈ fib.entries, e'.route = e.route) ∨ Grants e ⟨fib, op, (), op.apply fib⟩ := by
  cases Op.origin he with
  | kept he => exact .inl ⟨e, he, rfl⟩
  | registered hok => exact .inr ⟨hok, rfl, rfl, rfl⟩
  | @refreshed now name length face dest index e' hm hget =>
    have hlongest : fib.IsLongestMatch name e' := (isLongestMatch_iff hord).2 ⟨index, hm, hget⟩
    obtain hface | hdest := hkeeps e' hlongest
    · exact .inr ⟨(lookup_create_of_hit hm hget now length face dest).1, hlongest.hit, hface.symm, rfl⟩
    · refine .inl ⟨e', hlongest.mem, ?_⟩
      show (e'.stringPrefix, e'.face, e'.macDest) = (e'.stringPrefix, e'.face, dest)
      rw [hdest]
  | @inserted now name length face dest hm hok =>
    exact .inr ⟨hok, List.take_prefix length name, rfl, rfl⟩
  | expired hmem => exact .inl ⟨_, hmem, rfl⟩

/-- An entry with another face is left alone by a `create` that keeps the face. -/
theorem route_kept_of_create (hord : fib.Ordered) {now : SimTime} {name : CString} {length : ℕ}
    {face : Gate} {dest : MACAddress} (hkeeps : (Op.create now name length face dest).KeepsFace fib)
    (he : e ∈ fib.entries) (hface : e.face ≠ face) :
    ∃ e' ∈ (fib.create now name length face dest).2.entries, e'.route = e.route := by
  obtain hm | ⟨index, hm⟩ := Option.eq_none_or_eq_some (fib.matchIndex name)
  · refine ⟨e, ?_, rfl⟩
    rw [create, hm]
    dsimp only
    obtain hfull | hroom := le_or_gt fib.maxSize fib.entries.length
    · rw [if_pos hfull]
      exact he
    · rw [if_neg hroom.not_ge]
      exact List.mem_append_left _ he
  · obtain ⟨j, hj⟩ := List.mem_iff_getElem?.1 he
    rw [create, hm]
    dsimp only
    refine ⟨if index = j then fib.refreshed now dest e else e, List.mem_of_getElem? (i := j) ?_, ?_⟩
    · rw [List.getElem?_modify, hj]
      split_ifs <;> rfl
    · split_ifs with hindex
      · -- the entry that is refreshed brings no new destination
        subst hindex
        have hdest := (hkeeps e ((isLongestMatch_iff hord).2 ⟨index, hm, hj⟩)).resolve_left hface
        show (e.stringPrefix, e.face, dest) = (e.stringPrefix, e.face, e.macDest)
        rw [hdest]
      · rfl

/-- The calls as a machine. -/
def step (fib : FibBase) (op : Op) : FibBase × Unit :=
  (op.apply fib, ())

/-- Calls with arguments in range make a run. -/
theorem run_of_calls {fib₀ : FibBase} (h₀ : IsInitial fib₀) {ops : List Op}
    (hops : ∀ op ∈ ops, op.InRange) :
    calls.Run (transitionsOf step fib₀ ops) (ops.foldl Op.apply fib₀) := by
  refine Run.ofInputs (T := calls) (C := fun _ op ↦ op.InRange) (fun _ _ h ↦ ⟨h, rfl⟩) h₀ ?_
  generalize fib₀ = fib
  clear h₀
  induction ops generalizing fib with
  | nil => exact fun t ht ↦ absurd ht List.not_mem_nil
  | cons op ops ih =>
    rw [List.forall_mem_cons] at hops
    rw [transitionsOf, List.forall_mem_cons]
    exact ⟨hops.1, ih hops.2 _⟩

/-- **Next hops come from one call.** In every run whose `create` calls keep the face of the entry
they find, the next hop of each entry was given by one call; a `create` leaves no entry with its
destination and another face, and no entry of another face, such as that of a local producer, is
redirected. -/
theorem nextHop_of_run {tr : List (Transition FibBase Op Unit)} (hrun : calls.Run tr fib)
    (hkeeps : ∀ t ∈ tr, t.input.KeepsFace t.pre) :
    (∀ e ∈ fib.entries, ∃ t ∈ tr, Grants e t) ∧
      ∀ t ∈ tr, ∀ now name length face dest, t.input = .create now name length face dest →
        (∀ e ∈ t.post.entries, (∃ e' ∈ t.pre.entries, e'.route = e.route) ∨
          e.face = face ∧ e.macDest = dest) ∧
        ∀ e ∈ t.pre.entries, e.face ≠ face → ∃ e' ∈ t.post.entries, e'.route = e.route := by
  refine ⟨?_, fun t ht now name length face dest hinput ↦ ?_⟩
  · revert hkeeps
    refine hrun.history (P := fun tr fib ↦ (∀ t ∈ tr, t.input.KeepsFace t.pre) →
      ∀ e ∈ fib.entries, ∃ t ∈ tr, Grants e t) ?_ ?_
    · rintro s ⟨maxSize, entryLifetime, rfl⟩ - e he
      exact absurd he List.not_mem_nil
    · rintro tr s op o s' hrun ih ⟨-, rfl⟩ hkeeps e he
      rw [List.forall_mem_append, List.forall_mem_singleton] at hkeeps
      obtain ⟨e', he', heq⟩ | hgrants :=
        Op.route_or_grants (ordered_of_reachable ⟨tr, hrun⟩) hkeeps.2 he
      · obtain ⟨t, ht, hgrants⟩ := ih hkeeps.1 e' he'
        exact ⟨t, List.mem_append_left _ ht, hgrants.congr heq.symm⟩
      · exact ⟨_, List.mem_append_right _ List.mem_cons_self, hgrants⟩
  · have hord := ordered_of_reachable (hrun.reachable_pre ht)
    have hkeep := hkeeps t ht
    have hpost := (hrun.takes ht).2
    rw [hinput] at hkeep hpost
    rw [hpost]
    refine ⟨fun e he ↦ ?_, fun e he hface ↦ route_kept_of_create hord hkeep he hface⟩
    obtain hold | ⟨-, -, hface, hdest⟩ := Op.route_or_grants hord hkeep he
    · exact .inl hold
    · exact .inr ⟨hface.symm, hdest.symm⟩

/-- A prefix is learned and refreshed through one face, from two neighbours. -/
theorem nextHop_of_run_oneFace :
    let fib : FibBase := { maxSize := 50, entryLifetime := 10000 }
    let ops := [Op.create 0 [47, 97] 2 (.lowerLayerIn 0) ⟨1⟩,
      Op.create 5 [47, 97] 2 (.lowerLayerIn 0) ⟨2⟩]
    ∀ e ∈ (ops.foldl Op.apply fib).entries,
      ∃ t ∈ transitionsOf step fib ops, Grants e t := by
  intro fib ops
  have hrun : calls.Run (transitionsOf step fib ops) (ops.foldl Op.apply fib) :=
    run_of_calls ⟨50, 10000, rfl⟩ (by simp [ops, Op.InRange])
  refine (nextHop_of_run hrun ?_).1
  simp only [ops, transitionsOf, List.forall_mem_cons]
  refine ⟨fun e he ↦ absurd he.mem List.not_mem_nil, fun e he ↦ .inl ?_, by simp⟩
  have hmem : e ∈ [FibEntry.make 0 [47, 97] (.lowerLayerIn 0) ⟨1⟩ 10000] := he.mem
  rw [List.mem_singleton.1 hmem]
  rfl

/-- A prefix is learned through one face and refreshed through another. -/
theorem nextHop_not_of_run :
    let fib : FibBase := { maxSize := 50, entryLifetime := 10000 }
    let ops := [Op.create 0 [47, 97] 2 (.lowerLayerIn 0) ⟨1⟩,
      Op.create 5 [47, 97] 2 (.lowerLayerIn 1) ⟨2⟩]
    calls.Run (transitionsOf step fib ops) (ops.foldl Op.apply fib) ∧
      ∃ e ∈ (ops.foldl Op.apply fib).entries, ∀ t ∈ transitionsOf step fib ops, ¬Grants e t := by
  intro fib ops
  refine ⟨run_of_calls ⟨50, 10000, rfl⟩ (by simp [ops, Op.InRange]), ?_⟩
  refine ⟨_, List.mem_cons_self, ?_⟩
  simp only [ops, transitionsOf, List.forall_mem_cons]
  refine ⟨?_, ?_, by simp⟩
  · rintro ⟨-, -, -, hdest⟩
    exact absurd hdest (by decide)
  · rintro ⟨-, -, hface, -⟩
    exact absurd hface (by decide)

/-! ### Expiry -/

/-- A table with the time. -/
structure Clocked where
  fib : FibBase
  now : SimTime

/-- What happens to a table: a call, the clean-up timer fires, or time passes. -/
inductive ClockedEvent
  | call (op : Op)
  | checkExpired
  | pass

/-- The time a call is made, where it depends on it. -/
def Op.At (t : SimTime) : Op → Prop
  | .registerPrefix now _ _ _ => now = t
  | .create now _ _ _ _ => now = t
  | .remove _ => True
  | .cleanExpired now => now = t

/-- The runs over time: the kernel delivers `checkExpired` at the time it is scheduled for, before
the clock goes any further. -/
def clocked : TransitionSystem Clocked ClockedEvent Unit where
  Init s := IsInitial s.fib
  Step s event _ s' :=
    s.now ≤ s'.now ∧ (∀ c, s.fib.checkExpired = some c → s'.now ≤ c) ∧
      match event with
      | .call op => op.InRange ∧ op.At s'.now ∧ s'.fib = op.apply s.fib
      | .checkExpired =>
        s.fib.checkExpired = some s'.now ∧ s'.fib = s.fib.handleSelfMessage s'.now
      | .pass => s'.fib = s.fib

/-- No live entry is more than one clean-up period past its lifetime. -/
def Clocked.Timely (s : Clocked) : Prop :=
  ∀ e ∈ s.fib.entries, e.erased = false → s.now ≤ e.expireAt + SimTime.ms 1000

/-- The call is not a registration, or it is refused, or the timer is scheduled. -/
def ClockedEvent.FindsTimer (fib : FibBase) : ClockedEvent → Prop
  | .call (.registerPrefix now p face dest) =>
    (fib.registerPrefix now p face dest).1 = true → fib.checkExpired.isSome = true
  | _ => True

/-- The timer is scheduled at most one period ahead, and by then no live entry will be more than one
period past its lifetime; if it is not scheduled, there are no entries. -/
def Clocked.Watched (s : Clocked) : Prop :=
  match s.fib.checkExpired with
  | some c => s.now ≤ c ∧ c ≤ s.now + SimTime.ms 1000 ∧
      ∀ e ∈ s.fib.entries, e.erased = false → c ≤ e.expireAt + SimTime.ms 1000
  | none => s.fib.entries = []

variable {s s' : Clocked}

theorem Clocked.Watched.timely (h : s.Watched) : s.Timely := by
  intro e he hlive
  rw [Watched] at h
  split at h
  · exact h.1.trans (h.2.2 e he hlive)
  · rw [h] at he
    exact absurd he List.not_mem_nil

/-- The expiry time of an entry that is live after a call: as before the call, or not before it. -/
theorem Op.expireAt_or_le {t : SimTime} (hat : op.At t) (he : e ∈ (op.apply fib).entries)
    (hlive : e.erased = false) : e ∈ fib.entries ∨ t ≤ e.expireAt := by
  cases Op.origin he with
  | kept he => exact .inl he
  | registered => exact .inr (hat ▸ Nat.le_add_right _ _)
  | refreshed => exact .inr (hat ▸ Nat.le_add_right _ _)
  | inserted => exact .inr (hat ▸ Nat.le_add_right _ _)
  | expired => exact absurd hlive.symm Bool.false_ne_true

/-- A call leaves a scheduled timer alone. -/
theorem Op.checkExpired_of_some {c : SimTime} (h : fib.checkExpired = some c) :
    (op.apply fib).checkExpired = some c := by
  cases op with
  | registerPrefix now p face dest =>
    rw [Op.apply, FibBase.registerPrefix]
    split_ifs <;> exact h
  | create now name length face dest =>
    rw [Op.apply, FibBase.create]
    split
    · exact h
    · split_ifs with _ hnone
      · exact h
      · rw [h] at hnone
        exact absurd hnone Bool.false_ne_true
      · exact h
  | remove p =>
    rw [Op.apply, FibBase.remove]
    split_ifs <;> exact h
  | cleanExpired now => exact h

/-- A call on an empty table whose timer is not scheduled: nothing is inserted, or the timer is
started. -/
theorem Op.checkExpired_of_none {t : SimTime} (hat : op.At t)
    (hfinds : (ClockedEvent.call op).FindsTimer fib) (h : fib.checkExpired = none)
    (hempty : fib.entries = []) :
    (op.apply fib).checkExpired = none ∧ (op.apply fib).entries = [] ∨
      (op.apply fib).checkExpired = some (t + SimTime.ms 1000) := by
  cases op with
  | registerPrefix now p face dest =>
    refine .inl ?_
    rw [Op.apply, FibBase.registerPrefix]
    split_ifs with hroom
    · have hsome := hfinds (by rw [FibBase.registerPrefix, if_pos hroom])
      rw [h] at hsome
      exact absurd hsome Bool.false_ne_true
    · exact ⟨h, hempty⟩
  | create now name length face dest =>
    have hm : fib.matchIndex name = none := by
      rw [matchIndex, hempty, List.findIdx?_nil]
    obtain rfl : now = t := hat
    rw [Op.apply, FibBase.create, hm]
    dsimp only
    split_ifs with hfull hnone
    · exact .inl ⟨h, hempty⟩
    · exact .inr rfl
    · rw [h] at hnone
      exact absurd rfl hnone
  | remove p =>
    refine .inl ?_
    rw [Op.apply, FibBase.remove, hempty]
    exact ⟨h, hempty⟩
  | cleanExpired now =>
    refine .inl ⟨h, ?_⟩
    show fib.entries.map _ = []
    rw [hempty, List.map_nil]

/-- What the clean-up leaves live has not reached the end of its lifetime. -/
theorem lt_expireAt_of_cleanExpired {now : SimTime} (he : e ∈ (fib.cleanExpired now).entries)
    (hlive : e.erased = false) : now < e.expireAt := by
  obtain ⟨e', -, heq⟩ := List.mem_map.1 he
  split_ifs at heq with hexpired
  · rw [← heq] at hlive
    exact absurd hlive.symm Bool.false_ne_true
  · subst heq
    simp only [isExpired, hlive, Bool.not_false, Bool.true_and, decide_eq_true_eq] at hexpired
    exact not_le.1 hexpired

/-- **One step keeps watch.** -/
theorem Clocked.Watched.step {event : ClockedEvent} {o : Unit} (h : s.Watched)
    (hfinds : event.FindsTimer s.fib) (hstep : clocked.Step s event o s') : s'.Watched := by
  obtain ⟨hle, hdue, hevent⟩ := hstep
  cases event with
  | call op =>
    obtain ⟨-, hat, hfib⟩ := hevent
    obtain hc | ⟨c, hc⟩ := Option.eq_none_or_eq_some s.fib.checkExpired
    · simp only [Watched, hc] at h
      obtain ⟨hnone, hempty⟩ | hsome := Op.checkExpired_of_none hat hfinds hc h
      · simp only [Watched, hfib, hnone]
        exact hempty
      · simp only [Watched, hfib, hsome]
        refine ⟨Nat.le_add_right _ _, le_rfl, fun e he hlive ↦ ?_⟩
        obtain hold | hnew := Op.expireAt_or_le hat he hlive
        · rw [h] at hold
          exact absurd hold List.not_mem_nil
        · exact Nat.add_le_add_right hnew _
    · simp only [Watched, hc] at h
      simp only [Watched, hfib, Op.checkExpired_of_some hc]
      refine ⟨hdue c hc, h.2.1.trans (Nat.add_le_add_right hle _), fun e he hlive ↦ ?_⟩
      obtain hold | hnew := Op.expireAt_or_le hat he hlive
      · exact h.2.2 e hold hlive
      · exact h.2.1.trans (Nat.add_le_add_right (hle.trans hnew) _)
  | checkExpired =>
    obtain ⟨-, hfib⟩ := hevent
    rw [Watched, hfib, handleSelfMessage]
    dsimp only
    obtain hempty | hne := Bool.eq_false_or_eq_true (s.fib.cleanExpired s'.now).entries.isEmpty
    · rw [hempty, if_pos rfl]
      exact List.isEmpty_iff.1 hempty
    · rw [hne, if_neg Bool.false_ne_true]
      refine ⟨Nat.le_add_right _ _, le_rfl, fun e he hlive ↦ ?_⟩
      exact Nat.add_le_add_right (lt_expireAt_of_cleanExpired he hlive).le _
  | pass =>
    obtain hc | ⟨c, hc⟩ := Option.eq_none_or_eq_some s.fib.checkExpired
    · simp only [Watched, hc] at h
      simp only [Watched, hevent, hc]
      exact h
    · simp only [Watched, hc] at h
      simp only [Watched, hevent, hc]
      exact ⟨hdue c hc, h.2.1.trans (Nat.add_le_add_right hle _), h.2.2⟩

/-- **Expiry is timely.** In every run whose registrations find the timer scheduled, no live entry
ever is more than one clean-up period past its lifetime. -/
theorem timely_of_run {tr : List (Transition Clocked ClockedEvent Unit)}
    (hrun : clocked.Run tr s) (hfinds : ∀ t ∈ tr, t.input.FindsTimer t.pre.fib) :
    s.Timely := by
  suffices hwatched : s.Watched from hwatched.timely
  revert hfinds
  refine hrun.history (P := fun tr s ↦ (∀ t ∈ tr, t.input.FindsTimer t.pre.fib) → s.Watched) ?_ ?_
  · rintro s ⟨maxSize, entryLifetime, hs⟩ -
    rw [Clocked.Watched, hs]
  · intro tr s event o s' _ ih hstep hfinds
    rw [List.forall_mem_append, List.forall_mem_singleton] at hfinds
    exact (ih hfinds.1).step hfinds.2 hstep

/-- A prefix is learned, which starts the timer, and another one is registered. -/
theorem timely_of_run_learned :
    let fib : FibBase := { maxSize := 50, entryLifetime := 10000 }
    let create := Op.create 0 [47, 97] 2 (.lowerLayerIn 0) ⟨1⟩
    let register := Op.registerPrefix 5 [47, 98] (.upperLayerIn 0) ⟨2⟩
    Clocked.Timely ⟨register.apply (create.apply fib), 5⟩ := by
  intro fib create register
  have h₀ : clocked.Init ⟨fib, 0⟩ := ⟨50, 10000, rfl⟩
  have h₁ : clocked.Step ⟨fib, 0⟩ (.call create) () ⟨create.apply fib, 0⟩ :=
    ⟨le_rfl, fun c hc ↦ Nat.zero_le c, (le_rfl : 2 ≤ 2), rfl, rfl⟩
  have h₂ : clocked.Step ⟨create.apply fib, 0⟩ (.call register) ()
      ⟨register.apply (create.apply fib), 5⟩ := by
    refine ⟨Nat.zero_le 5, fun c hc ↦ ?_, trivial, rfl, rfl⟩
    rw [← Option.some.inj (hc : some (0 + SimTime.ms 1000) = some c)]
    decide
  refine timely_of_run (((TransitionSystem.Run.nil h₀).snoc h₁).snoc h₂) ?_
  rw [List.forall_mem_append, List.nil_append, List.forall_mem_singleton,
    List.forall_mem_singleton]
  exact ⟨trivial, fun _ ↦ rfl⟩

/-- A prefix is registered, and nothing else happens. -/
theorem not_timely_of_run :
    let fib : FibBase := { maxSize := 50, entryLifetime := 10000 }
    let register := Op.registerPrefix 0 [47, 97] (.upperLayerIn 0) ⟨1⟩
    let s : Clocked := ⟨register.apply fib, SimTime.ms 101001⟩
    (∃ tr, clocked.Run tr s) ∧ ¬s.Timely := by
  intro fib register s
  have h₀ : clocked.Init ⟨fib, 0⟩ := ⟨50, 10000, rfl⟩
  have h₁ : clocked.Step ⟨fib, 0⟩ (.call register) () ⟨register.apply fib, 0⟩ :=
    ⟨le_rfl, fun c hc ↦ Nat.zero_le c, trivial, rfl, rfl⟩
  have h₂ : clocked.Step ⟨register.apply fib, 0⟩ .pass () s :=
    ⟨Nat.zero_le _, fun c hc ↦ absurd hc.symm (Option.some_ne_none c), rfl⟩
  refine ⟨⟨_, ((TransitionSystem.Run.nil h₀).snoc h₁).snoc h₂⟩, fun htimely ↦ ?_⟩
  have hmem : FibEntry.make 0 [47, 97] (.upperLayerIn 0) ⟨1⟩ 100000 ∈ s.fib.entries := by decide
  exact absurd (htimely _ hmem rfl) (by decide)

/-- The condition cannot be weakened to one that admits another step: where a registration does not
find the timer scheduled, time alone makes its entry overdue. -/
theorem exists_not_timely_of_not_findsTimer {event : ClockedEvent} {o : Unit}
    (hstep : clocked.Step s event o s') (h : ¬event.FindsTimer s.fib) :
    ∃ s'', clocked.Step s' .pass () s'' ∧ ¬s''.Timely := by
  obtain ⟨-, -, hevent⟩ := hstep
  obtain ⟨⟨now, p, face, dest⟩ | _ | _ | _⟩ | _ | _ := event
  · obtain ⟨hok, hidle⟩ := not_forall.1 h
    obtain ⟨-, -, hfib⟩ := hevent
    have hnone : s'.fib.checkExpired = none := by
      rw [hfib, Op.apply, FibBase.registerPrefix]
      split_ifs <;> exact Option.not_isSome_iff_eq_none.1 hidle
    have hmem : FibEntry.make now p face dest 100000 ∈ s'.fib.entries := by
      rw [FibBase.registerPrefix] at hok
      rw [hfib, Op.apply, FibBase.registerPrefix]
      split_ifs at hok ⊢ with hroom
      exact List.mem_append_right _ List.mem_cons_self
    obtain ⟨late, hlate⟩ : ∃ late, late = now + SimTime.ms 100000 + SimTime.ms 1000 := ⟨_, rfl⟩
    refine ⟨⟨s'.fib, s'.now + (late + 1)⟩, ⟨Nat.le_add_right _ _, fun c hc ↦ ?_, rfl⟩,
      fun htimely ↦ ?_⟩
    · rw [hnone] at hc
      exact absurd hc.symm (Option.some_ne_none c)
    · have hle : s'.now + (late + 1) ≤ late := hlate ▸ htimely _ hmem rfl
      exact absurd (hle.trans_lt (Nat.lt_succ_self late)) (Nat.le_add_left _ _).not_gt
  all_goals exact absurd trivial h

end FibBase

end Inet.Ndn
