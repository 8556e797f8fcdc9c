/-
# Fixed arrays

An array of `n` slots is a function on `Fin n`.  `position` is the first index whose slot meets a
condition, and a slot is replaced with `Function.update`.
-/
import Mathlib.Data.List.FinRange
import Mathlib.Algebra.BigOperators.Fin

namespace Lib

section Slots

variable {n : Nat} {α : Type} {p : α → Bool} {xs : Fin n → α}

/-- `xs.iter().position(p)`. -/
def position (p : α → Bool) (xs : Fin n → α) : Option (Fin n) :=
  (List.finRange n).find? fun i => p (xs i)

theorem position_some {i : Fin n} (h : position p xs = some i) : p (xs i) = true := by
  have h1 := List.find?_some h
  exact h1

theorem position_none : position p xs = none ↔ ∀ i, p (xs i) = false := by
  rw [position, List.find?_eq_none]
  constructor
  · intro h i
    exact Bool.eq_false_iff.mpr (h i (List.mem_finRange i))
  · intro h i _
    rw [h i]
    exact Bool.false_ne_true

/-- The only slot that meets the condition is found. -/
theorem position_unique {i : Fin n} (h : p (xs i) = true) (hu : ∀ j, p (xs j) = true → j = i) :
    position p xs = some i := by
  cases hp : position p xs with
  | none =>
    rw [position_none] at hp
    rw [hp i] at h
    cases h
  | some j => rw [hu j (position_some hp)]

/-- Replacing a slot replaces its share of a sum. -/
theorem sum_update (f : α → Nat) (xs : Fin n → α) (i : Fin n) (x : α) :
    (∑ j, f (Function.update xs i x j)) + f (xs i) = (∑ j, f (xs j)) + f x := by
  have h1 := Fintype.sum_eq_add_sum_compl i fun j => f (Function.update xs i x j)
  have h2 := Fintype.sum_eq_add_sum_compl i fun j => f (xs j)
  have h3 : ∑ j ∈ ({i} : Finset (Fin n))ᶜ, f (Function.update xs i x j) =
      ∑ j ∈ ({i} : Finset (Fin n))ᶜ, f (xs j) := by
    apply Finset.sum_congr rfl
    intro j hj
    have hne : j ≠ i := by
      rw [Finset.mem_compl, Finset.mem_singleton] at hj
      exact hj
    rw [Function.update_of_ne hne]
  rw [Function.update_self, h3] at h1
  omega

end Slots

end Lib
