import Mathlib.Data.Set.Basic
import Mathlib.Order.Basic
import Inet.Foundations.TransitionSystem

/-!
# Machines with a clock and a timer

A machine that is called at times its environment chooses, and that has one timer which it sets for
a point of time. The environment may let time pass, but not past the point the timer is set for: the
timer fires first. Calls that come at that very point may come before the firing or after it.

Many such timers sweep: what the machine holds has deadlines, the timer fires once a period while
anything is held, and a firing drops what is overdue. `Sweep` states the laws of such a timer, and
`Sweep.watched_of_run` is what they give: nothing held is ever more than a period past its deadline.
-/

/-- A machine with a timer. Times are natural numbers. -/
structure TimedMachine (σ ι : Type*) where
  /-- The states a run may start in. -/
  Init : σ → Prop
  /-- A call, at a time. -/
  call : σ → ℕ → ι → σ
  /-- The firing of the timer, at a time. -/
  fire : σ → ℕ → σ
  /-- What the timer is set for. -/
  timer : σ → Option ℕ

/-- A state at a point of time. -/
structure TimedState (σ : Type*) where
  state : σ
  now : ℕ
  deriving DecidableEq, Repr

/-- What can happen to a machine with a timer. -/
inductive TimedInput (ι : Type*)
  | call (op : ι)
  | fire
  | pass
  deriving DecidableEq, Repr

/-- What happens, and when. -/
structure TimedEvent (ι : Type*) where
  time : ℕ
  input : TimedInput ι
  deriving DecidableEq, Repr

namespace TimedMachine

variable {σ ι : Type*} (M : TimedMachine σ ι)

/-- The state an input leads to at a time. -/
def react (s : σ) (now : ℕ) : TimedInput ι → σ
  | .call op => M.call s now op
  | .fire => M.fire s now
  | .pass => s

/-- The state an event leads to. -/
def next (s : TimedState σ) (event : TimedEvent ι) : TimedState σ where
  state := M.react s.state event.time event.input
  now := event.time

/-- Time does not go back and does not pass what the timer is set for; the timer fires when it is
due. -/
def Allows (s : TimedState σ) (event : TimedEvent ι) : Prop :=
  s.now ≤ event.time ∧ (∀ c ∈ M.timer s.state, event.time ≤ c) ∧
    (event.input = .fire → M.timer s.state = some event.time)

instance [DecidableEq ι] (s : TimedState σ) (event : TimedEvent ι) :
    Decidable (M.Allows s event) :=
  inferInstanceAs (Decidable (_ ∧ _ ∧ _))

/-- The runs of the machine, from time 0. -/
def system : TransitionSystem (TimedState σ) (TimedEvent ι) Unit where
  Init s := M.Init s.state ∧ s.now = 0
  Step s event _ s' := M.Allows s event ∧ s' = M.next s event

variable {M}

/-- The run some events make, each of which the machine allows when it comes. -/
theorem run_of_events (s : TimedState σ) (events : List (TimedEvent ι)) (hs : M.system.Init s)
    (h : ∀ t ∈ TransitionSystem.transitionsOf (fun s event ↦ (M.next s event, ())) s events,
      M.Allows t.pre t.input) :
    M.system.Run (TransitionSystem.transitionsOf (fun s event ↦ (M.next s event, ())) s events)
      (TransitionSystem.stateAfter (fun s event ↦ (M.next s event, ())) s events) :=
  .ofInputs (T := M.system) (C := M.Allows) (fun _ _ hallows ↦ ⟨hallows, rfl⟩) hs h

/-- Time goes forward along a run. -/
theorem time_le_of_mem {tr : List (Transition (TimedState σ) (TimedEvent ι) Unit)}
    {s : TimedState σ} (hrun : M.system.Run tr s) {t : Transition _ _ _} (ht : t ∈ tr) :
    t.input.time ≤ s.now := by
  refine hrun.history (P := fun tr s ↦ ∀ t ∈ tr, t.input.time ≤ s.now) (fun _ _ ↦ by simp) ?_ t ht
  rintro tr s event o s' - ih ⟨hallows, rfl⟩
  rw [List.forall_mem_append, List.forall_mem_singleton]
  exact ⟨fun t ht ↦ (ih t ht).trans hallows.1, le_rfl⟩

/-! ### Timers that sweep -/

/-- **The laws of a sweeping timer.** `deadlines` are those of what the machine holds. A call holds
nothing new that is overdue already, leaves a timer that is set alone, and sets it for a period
ahead when it was not set and something is held. A firing drops what is overdue, and sets the timer
again unless nothing is left. -/
structure Sweep (M : TimedMachine σ ι) (period : ℕ) (deadlines : σ → Set ℕ) : Prop where
  init : ∀ s, M.Init s → M.timer s = none ∧ deadlines s = ∅
  deadline_call : ∀ s now op, ∀ d ∈ deadlines (M.call s now op), d ∈ deadlines s ∨ now ≤ d
  timer_call_some : ∀ s now op c, M.timer s = some c → M.timer (M.call s now op) = some c
  timer_call_none : ∀ s now op, M.timer s = none → deadlines s = ∅ →
    M.timer (M.call s now op) = none ∧ deadlines (M.call s now op) = ∅ ∨
      M.timer (M.call s now op) = some (now + period)
  deadline_fire : ∀ s now, ∀ d ∈ deadlines (M.fire s now), now ≤ d
  timer_fire : ∀ s now, M.timer (M.fire s now) = none ∧ deadlines (M.fire s now) = ∅ ∨
    M.timer (M.fire s now) = some (now + period)

/-- The timer watches over what is held: it is due within a period, and for nothing later than a
period after a deadline. -/
def Watched (M : TimedMachine σ ι) (period : ℕ) (deadlines : σ → Set ℕ) (s : TimedState σ) : Prop :=
  match M.timer s.state with
  | some c => s.now ≤ c ∧ c ≤ s.now + period ∧ ∀ d ∈ deadlines s.state, c ≤ d + period
  | none => deadlines s.state = ∅

variable {period : ℕ} {deadlines : σ → Set ℕ} {s : TimedState σ}

theorem watched_of_none (h : M.timer s.state = none) (hempty : deadlines s.state = ∅) :
    M.Watched period deadlines s := by
  rw [Watched, h]
  exact hempty

theorem watched_of_some {c : ℕ} (h : M.timer s.state = some c) (hle : s.now ≤ c)
    (hsoon : c ≤ s.now + period) (hheld : ∀ d ∈ deadlines s.state, c ≤ d + period) :
    M.Watched period deadlines s := by
  rw [Watched, h]
  exact ⟨hle, hsoon, hheld⟩

/-- A timer set a moment ago watches over deadlines that lie ahead. -/
theorem watched_of_set (h : M.timer s.state = some (s.now + period))
    (hheld : ∀ d ∈ deadlines s.state, s.now ≤ d) : M.Watched period deadlines s :=
  watched_of_some h (Nat.le_add_right _ _) le_rfl fun d hd ↦ Nat.add_le_add_right (hheld d hd) _

/-- **One step keeps watch.** -/
theorem Sweep.step (S : M.Sweep period deadlines) {event : TimedEvent ι}
    (h : M.Watched period deadlines s) (hallows : M.Allows s event) :
    M.Watched period deadlines (M.next s event) := by
  obtain ⟨hle, hdue, -⟩ := hallows
  obtain ⟨now, input⟩ := event
  rw [Watched] at h
  cases input with
  | call op =>
    obtain hc | ⟨c, hc⟩ := Option.eq_none_or_eq_some (M.timer s.state)
    · rw [hc] at h
      obtain ⟨hnone, hempty⟩ | hsome := S.timer_call_none _ now op hc h
      · exact watched_of_none hnone hempty
      · refine watched_of_set hsome fun d hd ↦ ?_
        obtain hold | hnew := S.deadline_call _ _ op d hd
        · rw [show deadlines s.state = ∅ from h] at hold
          exact absurd hold (Set.notMem_empty d)
        · exact hnew
    · rw [hc] at h
      refine watched_of_some (S.timer_call_some _ now op c hc) (hdue c hc)
        (h.2.1.trans (Nat.add_le_add_right hle _)) fun d hd ↦ ?_
      obtain hold | hnew := S.deadline_call _ _ op d hd
      · exact h.2.2 d hold
      · exact h.2.1.trans (Nat.add_le_add_right (hle.trans hnew) _)
  | fire =>
    obtain ⟨hnone, hempty⟩ | hsome := S.timer_fire s.state now
    · exact watched_of_none hnone hempty
    · exact watched_of_set hsome fun d hd ↦ S.deadline_fire s.state _ d hd
  | pass =>
    obtain hc | ⟨c, hc⟩ := Option.eq_none_or_eq_some (M.timer s.state)
    · rw [hc] at h
      exact watched_of_none hc h
    · rw [hc] at h
      exact watched_of_some hc (hdue c hc) (h.2.1.trans (Nat.add_le_add_right hle _)) h.2.2

/-- **A sweeping timer watches over every run.** -/
theorem Sweep.watched_of_run (S : M.Sweep period deadlines)
    {tr : List (Transition (TimedState σ) (TimedEvent ι) Unit)} (hrun : M.system.Run tr s) :
    M.Watched period deadlines s := by
  refine hrun.invariant ?_ ?_
  · rintro s ⟨hinit, -⟩
    exact watched_of_none (S.init _ hinit).1 (S.init _ hinit).2
  · rintro s event o s' h ⟨hallows, rfl⟩
    exact S.step h hallows

/-- While something is held, the timer is set for within a period. -/
theorem Watched.exists_timer (h : M.Watched period deadlines s) {d : ℕ}
    (hd : d ∈ deadlines s.state) :
    ∃ c, M.timer s.state = some c ∧ s.now ≤ c ∧ c ≤ s.now + period := by
  rw [Watched] at h
  split at h
  · rename_i c hc
    exact ⟨c, hc, h.1, h.2.1⟩
  · rw [h] at hd
    exact absurd hd (Set.notMem_empty d)

/-- Nothing held is more than a period past its deadline. -/
theorem Watched.now_le (h : M.Watched period deadlines s) {d : ℕ} (hd : d ∈ deadlines s.state) :
    s.now ≤ d + period := by
  rw [Watched] at h
  split at h
  · exact h.1.trans (h.2.2 d hd)
  · rw [h] at hd
    exact absurd hd (Set.notMem_empty d)

end TimedMachine
