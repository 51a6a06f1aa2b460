import Mathlib.Data.List.Basic
import Inet.Foundations.Fallible

/-!
# Transition systems with recorded runs

A machine that reads an input, changes its state and produces an output. A **run** is recorded as
the list of its transitions, oldest first, each with the state before and the state after, so that
a statement about a run can speak of the states it passed through as well as of its inputs and
outputs.

Nothing here depends on a particular machine. What the rest of the development uses is:

* `Run.invariant` and `Run.history`, the two induction rules (for a property of the state, and for
  a property of the state together with the record of the run), and `Run.forall_of_invariant` for
  runs whose steps meet a condition;
* `Run.eq_append_of_mem`, which opens a run at any of its transitions;
* `Path.persists_or_exits`, the rule behind the "stays until" statements: along a path either a
  property of the start still holds at the end, or there is a first transition that gives it up;
* `Run.forall_prefix_iff`, which turns a step-by-step condition into an equivalence over
  whole runs;
* `Run.ofInputs` and `Run.ofFallible`, which run a machine given by a function on a list of inputs.
-/

/-- A state machine with inputs and outputs. `Step s i o s'` says that from `s`, on input `i`, the
machine may produce `o` and move to `s'`. -/
structure TransitionSystem (σ ι ω : Type*) where
  /-- The initial states. -/
  Init : σ → Prop
  /-- The step relation. -/
  Step : σ → ι → ω → σ → Prop

/-- One transition of a run, with the states on both sides. -/
structure Transition (σ ι ω : Type*) where
  /-- The state before. -/
  pre : σ
  /-- The input read. -/
  input : ι
  /-- The output produced. -/
  output : ω
  /-- The state after. -/
  post : σ

namespace TransitionSystem

variable {σ ι ω : Type*} (T : TransitionSystem σ ι ω)

/-- A transition is one of the system's own. -/
def Takes (t : Transition σ ι ω) : Prop :=
  T.Step t.pre t.input t.output t.post

/-- The runs from an initial state, oldest transition first, with the state they end in. -/
inductive Run : List (Transition σ ι ω) → σ → Prop
  | nil {s : σ} : T.Init s → Run [] s
  | snoc {tr : List (Transition σ ι ω)} {s s' : σ} {i : ι} {o : ω} :
      Run tr s → T.Step s i o s' → Run (tr ++ [⟨s, i, o, s'⟩]) s'

/-- The paths from an arbitrary state, with the state they end in. -/
inductive Path : σ → List (Transition σ ι ω) → σ → Prop
  | nil (s : σ) : Path s [] s
  | cons {s s' s'' : σ} {i : ι} {o : ω} {tr : List (Transition σ ι ω)} :
      T.Step s i o s' → Path s' tr s'' → Path s (⟨s, i, o, s'⟩ :: tr) s''

/-- A state some run ends in. -/
def Reachable (s : σ) : Prop :=
  ∃ tr, T.Run tr s

variable {T}

/-! ### Induction over runs -/

/-- A property of the state and the record that holds at the start and is kept by every step from a
reachable state holds of every run. -/
theorem Run.history {P : List (Transition σ ι ω) → σ → Prop} (init : ∀ s, T.Init s → P [] s)
    (step : ∀ tr s i o s', T.Run tr s → P tr s → T.Step s i o s' →
      P (tr ++ [⟨s, i, o, s'⟩]) s')
    {tr : List (Transition σ ι ω)} {s : σ} (h : T.Run tr s) : P tr s := by
  induction h with
  | nil h => exact init _ h
  | snoc hr hs ih => exact step _ _ _ _ _ hr ih hs

/-- A property of the state that holds at the start and is kept by every step holds in every
reachable state. -/
theorem Run.invariant {I : σ → Prop} (init : ∀ s, T.Init s → I s)
    (step : ∀ s i o s', I s → T.Step s i o s' → I s')
    {tr : List (Transition σ ι ω)} {s : σ} (h : T.Run tr s) : I s :=
  h.history (P := fun _ s ↦ I s) init fun _ s i o s' _ hI hs ↦ step s i o s' hI hs

/-- What every step gives that meets a condition and starts with an invariant, every transition of a
run gives whose steps meet the condition. -/
theorem Run.forall_of_invariant {I : σ → Prop} {C D : Transition σ ι ω → Prop}
    (init : ∀ s, T.Init s → I s)
    (step : ∀ s i o s', I s → T.Step s i o s' → C ⟨s, i, o, s'⟩ → D ⟨s, i, o, s'⟩ ∧ I s')
    {tr : List (Transition σ ι ω)} {s : σ} (h : T.Run tr s) (hC : ∀ t ∈ tr, C t) :
    (∀ t ∈ tr, D t) ∧ I s := by
  induction h with
  | nil h => exact ⟨by simp, init _ h⟩
  | snoc hr hs ih =>
    rw [List.forall_mem_append, List.forall_mem_singleton] at hC
    obtain ⟨hD, hI⟩ := ih hC.1
    obtain ⟨hlast, hI'⟩ := step _ _ _ _ hI hs hC.2
    exact ⟨List.forall_mem_append.2 ⟨hD, List.forall_mem_singleton.2 hlast⟩, hI'⟩

/-! ### Cutting and joining -/

theorem Path.append {s m e : σ} {tr₁ tr₂ : List (Transition σ ι ω)} (h₁ : T.Path s tr₁ m)
    (h₂ : T.Path m tr₂ e) : T.Path s (tr₁ ++ tr₂) e := by
  induction h₁ with
  | nil => exact h₂
  | cons hs _ ih => exact .cons hs (ih h₂)

theorem Path.single {s s' : σ} {i : ι} {o : ω} (h : T.Step s i o s') :
    T.Path s [⟨s, i, o, s'⟩] s' :=
  .cons h (.nil s')

/-- A path continues a run. -/
theorem Run.append {tr₁ tr₂ : List (Transition σ ι ω)} {m e : σ} (h₁ : T.Run tr₁ m)
    (h₂ : T.Path m tr₂ e) : T.Run (tr₁ ++ tr₂) e := by
  induction h₂ generalizing tr₁ with
  | nil => rwa [List.append_nil]
  | cons hs _ ih =>
    rw [List.append_cons]
    exact ih (h₁.snoc hs)

/-- A run without transitions ends where it started. -/
theorem Run.init_of_nil {s : σ} (h : T.Run [] s) : T.Init s := by
  generalize hl : ([] : List (Transition σ ι ω)) = l at h
  cases h with
  | nil h => exact h
  | snoc => simp at hl

/-- The last transition of a run, read off its record. -/
theorem Run.of_append_singleton {tr : List (Transition σ ι ω)} {t : Transition σ ι ω} {e : σ}
    (h : T.Run (tr ++ [t]) e) : T.Run tr t.pre ∧ T.Takes t ∧ t.post = e := by
  generalize hl : tr ++ [t] = l at h
  cases h with
  | nil => simp at hl
  | snoc hr hs =>
    obtain ⟨rfl, ht⟩ := List.append_inj' hl rfl
    obtain rfl := List.singleton_inj.1 ht
    exact ⟨hr, hs, rfl⟩

/-- A run splits at any point of its record. -/
theorem Run.split {tr₁ tr₂ : List (Transition σ ι ω)} {e : σ} (h : T.Run (tr₁ ++ tr₂) e) :
    ∃ m, T.Run tr₁ m ∧ T.Path m tr₂ e := by
  induction tr₂ using List.reverseRecOn generalizing e with
  | nil => exact ⟨e, by rwa [List.append_nil] at h, .nil e⟩
  | append_singleton tr t ih =>
    rw [← List.append_assoc] at h
    obtain ⟨hr, hs, rfl⟩ := h.of_append_singleton
    obtain ⟨m, hm, hp⟩ := ih hr
    exact ⟨m, hm, hp.append (.single hs)⟩

/-- Opening a run at one of its transitions. -/
theorem Run.eq_append_of_mem {tr : List (Transition σ ι ω)} {e : σ} (h : T.Run tr e)
    {t : Transition σ ι ω} (ht : t ∈ tr) :
    ∃ tr₁ tr₂, tr = tr₁ ++ t :: tr₂ ∧ T.Run tr₁ t.pre ∧ T.Takes t ∧ T.Path t.post tr₂ e := by
  obtain ⟨tr₁, tr₂, rfl⟩ := List.append_of_mem ht
  obtain ⟨m, hm, hp⟩ := h.split
  cases hp with
  | cons hs hp => exact ⟨tr₁, tr₂, rfl, hm, hs, hp⟩

/-- Every transition of a run starts from a reachable state. -/
theorem Run.reachable_pre {tr : List (Transition σ ι ω)} {e : σ} (h : T.Run tr e)
    {t : Transition σ ι ω} (ht : t ∈ tr) : T.Reachable t.pre := by
  obtain ⟨tr₁, -, -, hr, -, -⟩ := h.eq_append_of_mem ht
  exact ⟨tr₁, hr⟩

/-- Every transition of a run is a step of the system. -/
theorem Run.takes {tr : List (Transition σ ι ω)} {e : σ} (h : T.Run tr e)
    {t : Transition σ ι ω} (ht : t ∈ tr) : T.Takes t := by
  obtain ⟨-, -, -, -, hs, -⟩ := h.eq_append_of_mem ht
  exact hs

/-! ### Staying until, and first failures -/

/-- Along a path from a state with `P`, either `P` holds of every state up to the end, or there is
a first transition that leaves `P`. -/
theorem Path.persists_or_exits {P : σ → Prop} {s e : σ} {tr : List (Transition σ ι ω)}
    (h : T.Path s tr e) (hs : P s) :
    (P e ∧ ∀ t ∈ tr, P t.pre ∧ P t.post) ∨
      ∃ tr₁ t tr₂, tr = tr₁ ++ t :: tr₂ ∧ (∀ u ∈ tr₁, P u.pre ∧ P u.post) ∧
        T.Path s tr₁ t.pre ∧ T.Takes t ∧ P t.pre ∧ ¬ P t.post := by
  induction h with
  | nil => exact .inl ⟨hs, by simp⟩
  | @cons s s' s'' i o tr hstep hp ih =>
    by_cases hs' : P s'
    · rcases ih hs' with ⟨he, hall⟩ | ⟨tr₁, t, tr₂, rfl, hall, hpath, htk, hpre, hpost⟩
      · exact .inl ⟨he, by simpa using ⟨⟨hs, hs'⟩, hall⟩⟩
      · refine .inr ⟨⟨s, i, o, s'⟩ :: tr₁, t, tr₂, rfl, ?_, .cons hstep hpath, htk, hpre, hpost⟩
        simpa using ⟨⟨hs, hs'⟩, hall⟩
    · exact .inr ⟨[], ⟨s, i, o, s'⟩, tr, rfl, by simp, .nil s, hstep, hs, hs'⟩

/-- Let `P` hold at the start of every run, and let a step from a run with `P` keep `P` exactly
when the step meets `C`. Then `P` holds at every point of a run exactly when every transition of
the run meets `C`. -/
theorem Run.forall_prefix_iff {P : List (Transition σ ι ω) → σ → Prop}
    {C : Transition σ ι ω → Prop} (init : ∀ s, T.Init s → P [] s)
    (step : ∀ tr s i o s', T.Run tr s → P tr s → T.Step s i o s' →
      (P (tr ++ [⟨s, i, o, s'⟩]) s' ↔ C ⟨s, i, o, s'⟩))
    {tr : List (Transition σ ι ω)} {e : σ} (h : T.Run tr e) :
    (∀ tr₁ m, tr₁ <+: tr → T.Run tr₁ m → P tr₁ m) ↔ ∀ t ∈ tr, C t := by
  induction h with
  | nil =>
    refine ⟨by simp, fun _ tr₁ m hpre hr ↦ ?_⟩
    obtain rfl := List.prefix_nil.1 hpre
    exact init m hr.init_of_nil
  | @snoc tr s s' i o hr hs ih =>
    -- the points of the longer run are those of the shorter one and its end
    constructor
    · intro hall t ht
      have hpref : ∀ t ∈ tr, C t := ih.1 fun tr₁ m hpre hr₁ ↦
        hall tr₁ m (hpre.trans (List.prefix_append _ _)) hr₁
      rcases List.mem_append.1 ht with ht | ht
      · exact hpref t ht
      · obtain rfl := List.mem_singleton.1 ht
        have hP : P tr s := hall tr s (List.prefix_append _ _) hr
        exact (step tr s i o s' hr hP hs).1 (hall _ s' List.prefix_rfl (hr.snoc hs))
    · intro hC tr₁ m hpre hr₁
      have hall := ih.2 fun t ht ↦ hC t (List.mem_append_left _ ht)
      rcases List.prefix_concat_iff.1 hpre with rfl | hpre
      · obtain ⟨-, -, rfl⟩ := hr₁.of_append_singleton
        exact (step tr s i o s' hr (hall tr s List.prefix_rfl hr) hs).2 (hC _ (by simp))
      · exact hall tr₁ m hpre hr₁

/-- The same where an invariant of the runs that meet `C` is needed to see what a step does to `P`.
-/
theorem Run.forall_prefix_iff_of_invariant {J P : List (Transition σ ι ω) → σ → Prop}
    {C : Transition σ ι ω → Prop} (init : ∀ s, T.Init s → J [] s ∧ P [] s)
    (step : ∀ tr s i o s', T.Run tr s → J tr s → P tr s → T.Step s i o s' →
      (P (tr ++ [⟨s, i, o, s'⟩]) s' ↔ C ⟨s, i, o, s'⟩) ∧
      (C ⟨s, i, o, s'⟩ → J (tr ++ [⟨s, i, o, s'⟩]) s'))
    {tr : List (Transition σ ι ω)} {e : σ} (h : T.Run tr e) :
    (∀ tr₁ m, tr₁ <+: tr → T.Run tr₁ m → P tr₁ m) ↔ ∀ t ∈ tr, C t := by
  have hboth {tr : List (Transition σ ι ω)} {e : σ} (h : T.Run tr e) :
      (∀ tr₁ m, tr₁ <+: tr → T.Run tr₁ m → J tr₁ m ∧ P tr₁ m) ↔ ∀ t ∈ tr, C t := by
    refine h.forall_prefix_iff (P := fun tr s ↦ J tr s ∧ P tr s) init fun tr s i o s' hr hs hstep ↦ ?_
    obtain ⟨hiff, hkeeps⟩ := step tr s i o s' hr hs.1 hs.2 hstep
    exact ⟨fun hs' ↦ hiff.1 hs'.2, fun hC ↦ ⟨hkeeps hC, hiff.2 hC⟩⟩
  refine ⟨fun hall ↦ ?_, fun hC tr₁ m hpre hr ↦ ((hboth h).2 hC tr₁ m hpre hr).2⟩
  induction h with
  | nil => simp
  | @snoc tr s s' i o hr hs ih =>
    have hC : ∀ t ∈ tr, C t := ih fun tr₁ m hpre hr₁ ↦
      hall tr₁ m (hpre.trans (List.prefix_append _ _)) hr₁
    -- the conditions so far give the invariant, and with it the condition of the last step
    have hJ : J tr s := ((hboth hr).2 hC tr s List.prefix_rfl hr).1
    have hP : P tr s := hall tr s (List.prefix_append _ _) hr
    intro t ht
    rcases List.mem_append.1 ht with ht | ht
    · exact hC t ht
    · obtain rfl := List.mem_singleton.1 ht
      exact (step tr s i o s' hr hJ hP hs).1.1 (hall _ s' List.prefix_rfl (hr.snoc hs))

/-! ### Machines given by a function -/

/-- The transitions a machine takes on a list of inputs. -/
def transitionsOf (f : σ → ι → σ × ω) : σ → List ι → List (Transition σ ι ω)
  | _, [] => []
  | s, i :: is => ⟨s, i, (f s i).2, (f s i).1⟩ :: transitionsOf f (f s i).1 is

/-- The state a list of inputs leads to. -/
def stateAfter (f : σ → ι → σ × ω) (s : σ) (is : List ι) : σ :=
  is.foldl (fun s i ↦ (f s i).1) s

/-- A list of inputs, each of which the machine may take where it takes it, makes a path. -/
theorem Path.ofInputs {f : σ → ι → σ × ω} {C : σ → ι → Prop}
    (hstep : ∀ s i, C s i → T.Step s i (f s i).2 (f s i).1) {s : σ} {is : List ι}
    (hC : ∀ t ∈ transitionsOf f s is, C t.pre t.input) :
    T.Path s (transitionsOf f s is) (stateAfter f s is) := by
  induction is generalizing s with
  | nil => exact .nil s
  | cons i is ih =>
    rw [transitionsOf, List.forall_mem_cons] at hC
    exact .cons (hstep s i hC.1) (ih hC.2)

/-- The same from an initial state. -/
theorem Run.ofInputs {f : σ → ι → σ × ω} {C : σ → ι → Prop}
    (hstep : ∀ s i, C s i → T.Step s i (f s i).2 (f s i).1) {s : σ} {is : List ι}
    (hs : T.Init s) (hC : ∀ t ∈ transitionsOf f s is, C t.pre t.input) :
    T.Run (transitionsOf f s is) (stateAfter f s is) :=
  Run.append (.nil hs) (.ofInputs hstep hC)

/-- The step of a machine that may fail. A failure leaves the state as it is. -/
def orStay {ε : Type*} (step : σ → ι → Except ε σ) (s : σ) (i : ι) : σ × Unit :=
  ((step s i).toOption.getD s, ())

/-- Inputs that are allowed and do not fail make a run of a machine that may fail. -/
theorem Run.ofFallible {ε : Type*} {step : σ → ι → Except ε σ} {C : σ → ι → Prop}
    {T : TransitionSystem σ ι Unit} {s : σ} {is : List ι} (hs : T.Init s)
    (hstep : ∀ s i s', C s i → step s i = .ok s' → T.Step s i () s')
    (h : ∀ t ∈ transitionsOf (orStay step) s is,
      C t.pre t.input ∧ step t.pre t.input = .ok (orStay step t.pre t.input).1) :
    T.Run (transitionsOf (orStay step) s is) (stateAfter (orStay step) s is) :=
  .ofInputs (C := fun s i ↦ C s i ∧ step s i = .ok (orStay step s i).1)
    (fun s i h ↦ hstep s i _ h.1 h.2) hs h

end TransitionSystem
