import Mathlib.Data.Set.Basic
import Mathlib.Order.Lattice.Nat

/-!
# Walks with costs

A relation says between which nodes there is a hop, and what it costs. The cost of a walk is the sum
of those of its hops. What has been heard of a destination along hops bounds the distance to it from
above (`Heard.distance_le`), as in a distance vector protocol.
-/

namespace WeightedWalks

variable {ν : Type*} {hop : ν → ν → ℕ → Prop} {a b c : ν} {k l : ℕ}

/-- There is a walk from `a` to a node with a cost. -/
inductive Walk (hop : ν → ν → ℕ → Prop) (a : ν) : ν → ℕ → Prop
  | nil : Walk hop a a 0
  | snoc {b c : ν} {k l : ℕ} : Walk hop a b k → hop b c l → Walk hop a c (k + l)

/-! ### What is heard along hops -/

/-- A cost to a destination that is known at a node has come to it along a walk from one that has
known it first. -/
def Heard {δ : Type*} (hop : ν → ν → ℕ → Prop) (own : ν → δ → ℕ → Prop) (n : ν) (d : δ) (m : ℕ) :
    Prop :=
  ∃ origin k l, own origin d k ∧ Walk hop origin n l ∧ m = k + l

variable {δ : Type*} {own : ν → δ → ℕ → Prop} {n n' : ν} {d : δ} {m : ℕ}

theorem heard_of_own (h : own n d m) : Heard hop own n d m :=
  ⟨n, m, 0, h, .nil, rfl⟩

theorem Heard.across (h : Heard hop own n d m) (hhop : hop n n' l) :
    Heard hop own n' d (m + l) := by
  obtain ⟨origin, k, j, hown, hwalk, rfl⟩ := h
  exact ⟨origin, k, j + l, hown, hwalk.snoc hhop, Nat.add_assoc _ _ _⟩

/-- The smallest cost at which a destination can be known. -/
noncomputable def distance (hop : ν → ν → ℕ → Prop) (own : ν → δ → ℕ → Prop) (n : ν) (d : δ) : ℕ :=
  sInf {m | Heard hop own n d m}

theorem Heard.distance_le (h : Heard hop own n d m) : distance hop own n d ≤ m :=
  Nat.sInf_le h

end WeightedWalks
