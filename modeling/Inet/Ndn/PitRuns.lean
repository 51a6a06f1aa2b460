import Inet.Foundations.TimedMachine
import Inet.Ndn.Pit

/-!
# How late an Interest may expire

The runs of `PitBase`: its three calls, at any times and in any order, and its self-message. The
self-message is the timer of a `TimedMachine`, and a timer that sweeps: it is scheduled by the
`create` that finds it idle, it is left alone by every other call (also by the `remove` that empties
the table), and it schedules itself again while entries are left.

So nothing about the order of the calls is needed beyond the laws of `TimedMachine.Sweep`: an entry
is created with an expiry that is not in the past, and what a sweep leaves has not expired yet.
-/

namespace Inet.Ndn

namespace PitBase

/-- A call of the table. -/
inductive Op
  | create (interest : Interest) (src : MACAddress)
  | remove (name : CString)
  | lookup (name : CString)
  deriving DecidableEq, Repr

/-- The table after a call at a time. -/
def call (pit : PitBase) (now : SimTime) : Op → PitBase
  | .create interest src => (pit.create now interest src).2
  | .remove name => (pit.remove name).2
  | .lookup name => (pit.lookup name).2

/-- The table and its self-message; `initialize()` leaves an empty table of any size. -/
def timed : TimedMachine PitBase Op where
  Init pit := ∃ maxSize, pit = { maxSize }
  call := call
  fire pit now := (pit.handleSelfMessage now).2
  timer := checkTimeout

/-- The points of time the entries expire at. -/
def deadlines (pit : PitBase) : Set SimTime :=
  {d | ∃ e ∈ pit.entries, e.expireAt = d}

variable {pit : PitBase}

theorem deadlines_eq_empty : pit.deadlines = ∅ ↔ pit.entries = [] := by
  rw [Set.eq_empty_iff_forall_notMem, List.eq_nil_iff_forall_not_mem]
  refine ⟨fun h e he ↦ h e.expireAt ⟨e, he, rfl⟩, fun h d ↦ ?_⟩
  rintro ⟨e, he, -⟩
  exact h e he

theorem lookup_checkTimeout (name : CString) :
    (pit.lookup name).2.checkTimeout = pit.checkTimeout := by
  unfold lookup
  split
  · rfl
  · split <;> rfl

theorem remove_checkTimeout (name : CString) :
    (pit.remove name).2.checkTimeout = pit.checkTimeout := by
  unfold remove
  split <;> rfl

/-- An entry that stands in the table after a call stood there before, or expires at the time of the
call or later. -/
theorem mem_or_le_of_mem_call {now : SimTime} {op : Op} {e : PitEntry}
    (he : e ∈ (pit.call now op).entries) : e ∈ pit.entries ∨ now ≤ e.expireAt := by
  cases op with
  | create interest src =>
    by_cases hfull : pit.entries.length = pit.maxSize
    · rw [call, create_of_full _ _ _ _ hfull] at he
      exact .inl he
    · rw [call, create_entries_of_room _ hfull, List.mem_append, List.mem_singleton] at he
      refine he.imp_right fun hnew ↦ ?_
      rw [hnew]
      exact Nat.le_add_right _ _
  | remove name =>
    rw [call, remove_entries] at he
    exact .inl (List.mem_of_mem_eraseP he)
  | lookup name =>
    rw [call, lookup_entries] at he
    exact .inl he

/-- A call leaves a scheduled self-message alone. -/
theorem call_checkTimeout_of_some {now c : SimTime} (op : Op) (h : pit.checkTimeout = some c) :
    (pit.call now op).checkTimeout = some c := by
  cases op with
  | create interest src =>
    rw [call, create]
    split_ifs with _ hidle
    · exact h
    · rw [h] at hidle
      exact absurd hidle Bool.false_ne_true
    · exact h
  | remove name => exact (remove_checkTimeout name).trans h
  | lookup name => exact (lookup_checkTimeout name).trans h

/-- A call on an empty table whose self-message is idle leaves both so, or schedules it. -/
theorem call_checkTimeout_of_none {now : SimTime} (op : Op) (h : pit.checkTimeout = none)
    (hempty : pit.entries = []) :
    (pit.call now op).checkTimeout = none ∧ (pit.call now op).entries = [] ∨
      (pit.call now op).checkTimeout = some (now + SimTime.ms 1000) := by
  cases op with
  | create interest src =>
    by_cases hfull : pit.entries.length = pit.maxSize
    · rw [call, create_of_full _ _ _ _ hfull]
      exact .inl ⟨h, hempty⟩
    · rw [call, create, if_neg hfull, h]
      exact .inr rfl
  | remove name =>
    rw [call, remove_checkTimeout, remove_entries, hempty]
    exact .inl ⟨h, rfl⟩
  | lookup name =>
    rw [call, lookup_checkTimeout, lookup_entries]
    exact .inl ⟨h, hempty⟩

/-- What a clean-up leaves has not expired. -/
theorem lt_expireAt_of_mem_handleSelfMessage {now : SimTime} {e : PitEntry}
    (he : e ∈ (pit.handleSelfMessage now).2.entries) : now < e.expireAt := by
  rw [handleSelfMessage_entries, List.mem_filter] at he
  obtain ⟨-, hkept⟩ := he
  simp only [PitEntry.isTimedout, Bool.and_eq_true, Bool.not_eq_true'] at hkept
  obtain ⟨hlive, hkept⟩ := hkept
  rw [hlive, Bool.not_false, Bool.true_and] at hkept
  exact not_le.1 (of_decide_eq_false hkept)

/-- **The self-message sweeps the table**, once a second. -/
theorem timed_sweep : timed.Sweep (SimTime.ms 1000) deadlines where
  init := by
    rintro s ⟨maxSize, rfl⟩
    exact ⟨rfl, deadlines_eq_empty.2 rfl⟩
  deadline_call := by
    rintro s now op d ⟨e, he, rfl⟩
    exact (mem_or_le_of_mem_call he).imp_left fun he ↦ ⟨e, he, rfl⟩
  timer_call_some s now op c h := call_checkTimeout_of_some op h
  timer_call_none s now op h hempty := by
    rw [deadlines_eq_empty] at hempty ⊢
    exact call_checkTimeout_of_none op h hempty
  deadline_fire := by
    rintro s now d ⟨e, he, rfl⟩
    exact (lt_expireAt_of_mem_handleSelfMessage he).le
  timer_fire s now := by
    rw [deadlines_eq_empty]
    show (if (s.handleSelfMessage now).2.entries.isEmpty then none else _) = none ∧ _ ∨
      (if (s.handleSelfMessage now).2.entries.isEmpty then none else _) = _
    split
    · rename_i h
      exact .inl ⟨rfl, List.isEmpty_iff.1 h⟩
    · exact .inr rfl

/-- **Expiry is late by a second at most.** In every run, while the table holds an entry its
self-message is due within a second; no live entry is more than a second past its expiry; and so no
look-up finds one that is. -/
theorem expiry_lag_bounded {tr : List (Transition (TimedState PitBase) (TimedEvent Op) Unit)}
    {s : TimedState PitBase} (hrun : timed.system.Run tr s) :
    (s.state.entries ≠ [] →
      ∃ c, s.state.checkTimeout = some c ∧ s.now ≤ c ∧ c ≤ s.now + SimTime.ms 1000) ∧
    (∀ e ∈ s.state.entries, e.erased = false → s.now ≤ e.expireAt + SimTime.ms 1000) ∧
    ∀ name e, (s.state.lookup name).1 = some e → s.now ≤ e.expireAt + SimTime.ms 1000 := by
  have hwatched := timed_sweep.watched_of_run hrun
  have hlag : ∀ e ∈ s.state.entries, s.now ≤ e.expireAt + SimTime.ms 1000 :=
    fun e he ↦ hwatched.now_le ⟨e, he, rfl⟩
  refine ⟨fun hne ↦ ?_, fun e he _ ↦ hlag e he, fun name e hfound ↦ ?_⟩
  · obtain ⟨e, he⟩ := List.exists_mem_of_ne_nil _ hne
    exact hwatched.exists_timer ⟨e, he, rfl⟩
  · exact hlag e (of_lookup_eq_some _ hfound).1

/-- The first of two Interests is answered and leaves the table empty with its self-message
scheduled; the second one, which has no lifetime, is found up to the instant of the clean-up. -/
theorem expiry_lag_bounded_late :
    let first : Interest := { name := [47, 97] }
    let second : Interest := { name := [47, 98], interestLifetimeMs := 0 }
    let events : List (TimedEvent Op) :=
      [⟨0, .call (.create first ⟨1⟩)⟩, ⟨0, .call (.remove [47, 97])⟩,
        ⟨SimTime.ms 400, .call (.create second ⟨2⟩)⟩, ⟨SimTime.ms 1000, .pass⟩]
    let s := TransitionSystem.stateAfter (fun s event ↦ (timed.next s event, ()))
      ⟨{ maxSize := 100 }, 0⟩ events
    s.state.checkTimeout = some (SimTime.ms 1000) ∧
      ∃ e, (s.state.lookup [47, 98]).1 = some e ∧ e.expireAt = SimTime.ms 400 ∧
        s.now ≤ e.expireAt + SimTime.ms 1000 := by
  intro first second events s
  have hinit : timed.system.Init ⟨{ maxSize := 100 }, 0⟩ := ⟨⟨100, rfl⟩, rfl⟩
  have hrun := TimedMachine.run_of_events _ events hinit (by decide +kernel)
  have hfound : (s.state.lookup [47, 98]).1 =
      some (PitEntry.make (SimTime.ms 400) second (.upperLayerIn 0) ⟨2⟩) := by decide +kernel
  exact ⟨by decide +kernel, _, hfound, by decide +kernel, (expiry_lag_bounded hrun).2.2 _ _ hfound⟩

end PitBase

end Inet.Ndn
