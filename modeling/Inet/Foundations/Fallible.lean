import Mathlib.Data.List.Induction

/-!
# Computations that may fail

What the success of a computation says about its parts, and when a loop succeeds.
-/

/-- What a function of a result that may have failed has been applied to. -/
theorem exists_of_map_eq_ok {ε α β : Type*} {x : Except ε α} {f : α → β} {y : β}
    (h : x.map f = .ok y) : ∃ a, x = .ok a ∧ f a = y := by
  cases x with
  | error e => cases h
  | ok a => exact ⟨a, rfl, Except.ok.inj h⟩

/-- A function of a result does not fail by itself. -/
theorem eq_error_of_map_eq_error {ε α β : Type*} {x : Except ε α} {f : α → β} {e : ε}
    (h : x.map f = .error e) : x = .error e := by
  cases x with
  | error e' => exact congrArg Except.error (Except.error.inj h)
  | ok a => cases h

/-- What succeeds with another error does so as it is. -/
theorem eq_ok_of_mapError_eq_ok {ε ε' α : Type*} {x : Except ε α} {f : ε → ε'} {a : α}
    (h : x.mapError f = .ok a) : x = .ok a := by
  cases x with
  | error e => cases h
  | ok b => exact congrArg Except.ok (Except.ok.inj h)

/-- What is taken from a result in any case, where it is one. -/
theorem eq_ok_getD {ε α : Type*} {x : Except ε α} (h : x.toOption.isSome = true) (a : α) :
    x = .ok (x.toOption.getD a) := by
  cases x with
  | error e => cases h
  | ok a => rfl

/-- A computation that goes on has not stopped before. -/
theorem exists_of_bind_eq_ok {ε α β : Type} {x : Except ε α} {f : α → Except ε β} {b : β}
    (h : x >>= f = .ok b) : ∃ a, x = .ok a ∧ f a = .ok b := by
  cases x with
  | error e => cases h
  | ok a => exact ⟨a, rfl, h⟩

/-- A loop succeeds only if each of its turns does. -/
theorem exists_of_foldlM_eq_ok {ε α σ : Type} {f : σ → α → Except ε σ} {l : List α} {s t : σ}
    (h : l.foldlM f s = .ok t) : ∀ a ∈ l, ∃ s₁ s₂, f s₁ a = .ok s₂ := by
  induction l generalizing s with
  | nil => exact List.forall_mem_nil _
  | cons a l ih =>
    rw [List.foldlM_cons] at h
    obtain ⟨s₁, hfirst, hrest⟩ := exists_of_bind_eq_ok h
    exact List.forall_mem_cons.2 ⟨⟨s, s₁, hfirst⟩, ih hrest⟩

/-- A loop whose turns succeed, each with what has been reached by those before it. -/
theorem exists_foldlM_eq_ok {ε α σ : Type} {f : σ → α → Except ε σ} {l : List α} {s : σ}
    (motive : List α → σ → Prop) (hstart : motive [] s)
    (hturn : ∀ done a t, a ∈ l → motive done t →
      ∃ t', f t a = .ok t' ∧ motive (done ++ [a]) t') :
    ∃ t, l.foldlM f s = .ok t ∧ motive l t := by
  induction l using List.reverseRecOn with
  | nil => exact ⟨s, rfl, hstart⟩
  | append_singleton l a ih =>
    obtain ⟨t, hloop, ht⟩ := ih fun done b t hb ↦ hturn done b t (List.mem_append_left _ hb)
    obtain ⟨t', hlast, ht'⟩ :=
      hturn l a t (List.mem_append_right _ (List.mem_singleton_self a)) ht
    refine ⟨t', ?_, ht'⟩
    rw [List.foldlM_append, hloop]
    show f t a >>= pure = _
    rw [hlast]
    rfl

/-- A computation that ends well with a result in `Q`, or fails with an error in `R`. -/
def Results {ε α : Type} (Q : α → Prop) (R : ε → Prop) : Except ε α → Prop
  | .ok a => Q a
  | .error e => R e

namespace Results

variable {ε α β σ : Type} {Q Q' : α → Prop} {R : ε → Prop}

theorem mono {x : Except ε α} (h : Results Q R x) (hQ : ∀ a, Q a → Q' a) : Results Q' R x := by
  cases x with
  | error e => exact h
  | ok a => exact hQ a h

theorem weaken {R' : ε → Prop} {x : Except ε α} (h : Results Q R x) (hR : ∀ e, R e → R' e) :
    Results Q R' x := by
  cases x with
  | error e => exact hR e h
  | ok a => exact h

theorem of_eq_ok {x : Except ε α} {a : α} (h : Results Q R x) (heq : x = .ok a) : Q a := by
  rw [heq] at h
  exact h

theorem bind {Q' : β → Prop} {x : Except ε α} {f : α → Except ε β} (h : Results Q R x)
    (hf : ∀ a, Q a → Results Q' R (f a)) : Results Q' R (x >>= f) := by
  cases x with
  | error e => exact h
  | ok a => exact hf a h

/-- What each turn of a loop preserves. -/
theorem foldlM {Q : σ → Prop} {f : σ → α → Except ε σ} {l : List α} {s : σ} (hs : Q s)
    (hf : ∀ s a, a ∈ l → Q s → Results Q R (f s a)) : Results Q R (l.foldlM f s) := by
  induction l generalizing s with
  | nil => exact hs
  | cons a l ih =>
    rw [List.foldlM_cons]
    exact (hf s a List.mem_cons_self hs).bind fun t ht ↦
      ih ht fun s b hb ↦ hf s b (List.mem_cons_of_mem _ hb)

end Results
