/-
# The entropy of a distribution

Over a finite set on which all probabilities are positive.  Mathlib has the function
`negMulLog` and that it is strictly concave; Jensen's inequality does the rest: the entropy in bits
is at most the logarithm of the number of outcomes (`bits_le`), which only the uniform distribution
attains (`bits_eq_iff`), and it is 0 for a single outcome alone (`bits_eq_zero_iff`).
-/
import Mathlib.Analysis.Convex.Jensen
import Mathlib.Analysis.SpecialFunctions.Log.Base
import Mathlib.Analysis.SpecialFunctions.Log.NegMulLog

namespace Lib

open Real

/-- The entropy in bits. -/
noncomputable def bits {α : Type} (s : Finset α) (p : α → ℝ) : ℝ :=
  (∑ i ∈ s, negMulLog (p i)) / log 2

/-- The part that one outcome has in it. -/
noncomputable def bitsTerm (p : ℝ) : ℝ := negMulLog p / log 2

theorem bits_eq_sum {α : Type} (s : Finset α) (p : α → ℝ) : bits s p = ∑ i ∈ s, bitsTerm (p i) :=
  Finset.sum_div s _ _

/-- A distribution whose outcomes are just those of a set. -/
structure Distribution {α : Type} (s : Finset α) (p : α → ℝ) : Prop where
  pos : ∀ i ∈ s, 0 < p i
  total : ∑ i ∈ s, p i = 1

section Distribution

variable {α : Type} {s : Finset α} {p : α → ℝ}

theorem log_two_pos : 0 < log 2 := Real.log_pos one_lt_two

theorem Distribution.nonempty (h : Distribution s p) : s.Nonempty := by
  rw [Finset.nonempty_iff_ne_empty]
  rintro rfl
  exact zero_ne_one h.total

theorem Distribution.le_one (h : Distribution s p) : ∀ i ∈ s, p i ≤ 1 := by
  intro i hi
  rw [← h.total]
  exact Finset.single_le_sum (fun j hj => (h.pos j hj).le) hi

theorem Distribution.negMulLog_nonneg (h : Distribution s p) : ∀ i ∈ s, 0 ≤ negMulLog (p i) :=
  fun i hi => Real.negMulLog_nonneg (h.pos i hi).le (h.le_one i hi)

theorem bits_nonneg (h : Distribution s p) : 0 ≤ bits s p :=
  div_nonneg (Finset.sum_nonneg h.negMulLog_nonneg) log_two_pos.le

/-- **Entropy 0** is for a single outcome. -/
theorem bits_eq_zero_iff (h : Distribution s p) : bits s p = 0 ↔ s.card = 1 := by
  have hsum : bits s p = 0 ↔ ∀ i ∈ s, negMulLog (p i) = 0 := by
    rw [bits, div_eq_zero_iff, or_iff_left log_two_pos.ne',
      Finset.sum_eq_zero_iff_of_nonneg h.negMulLog_nonneg]
  have hone : ∀ i ∈ s, negMulLog (p i) = 0 → p i = 1 := by
    intro i hi hzero
    by_contra hne
    have hlog : log (p i) < 0 := Real.log_neg (h.pos i hi) (lt_of_le_of_ne (h.le_one i hi) hne)
    rw [negMulLog, neg_mul, neg_eq_zero] at hzero
    rcases mul_eq_zero.mp hzero with hp | hl
    · exact (h.pos i hi).ne' hp
    · exact hlog.ne hl
  rw [hsum]
  constructor
  · intro hzero
    have hcard : (s.card : ℝ) = 1 := by
      rw [← h.total, Finset.sum_congr rfl fun i hi => hone i hi (hzero i hi), Finset.sum_const,
        nsmul_eq_mul, mul_one]
    exact_mod_cast hcard
  · intro hcard i hi
    obtain ⟨j, rfl⟩ := Finset.card_eq_one.mp hcard
    have htotal := h.total
    rw [Finset.sum_singleton] at htotal
    rw [Finset.mem_singleton.mp hi, htotal, negMulLog_one]

/-! ## Jensen's inequality -/

theorem Distribution.card_pos (h : Distribution s p) : (0 : ℝ) < s.card :=
  Nat.cast_pos.mpr h.nonempty.card_pos

/-- The mean of a function over the set. -/
theorem sum_equal_weights (f : α → ℝ) :
    ∑ i ∈ s, (s.card : ℝ)⁻¹ • f i = (∑ i ∈ s, f i) / s.card := by
  rw [← Finset.smul_sum, smul_eq_mul, mul_comm, div_eq_mul_inv]

theorem Distribution.weights (h : Distribution s p) : ∑ _i ∈ s, (s.card : ℝ)⁻¹ = 1 := by
  rw [Finset.sum_const, nsmul_eq_mul, mul_inv_cancel₀ h.card_pos.ne']

/-- What the function is at the mean. -/
theorem Distribution.negMulLog_mean (h : Distribution s p) :
    negMulLog (∑ i ∈ s, (s.card : ℝ)⁻¹ • p i) = logb 2 s.card * log 2 / s.card := by
  rw [sum_equal_weights, h.total, negMulLog, one_div, log_inv, Real.logb,
    div_mul_cancel₀ _ log_two_pos.ne']
  ring

/-- **At most the logarithm of the number of outcomes.** -/
theorem bits_le (h : Distribution s p) : bits s p ≤ logb 2 s.card := by
  have hjensen := concaveOn_negMulLog.le_map_sum (p := p)
    (fun i (_ : i ∈ s) => (inv_pos.mpr h.card_pos).le) h.weights
    fun i hi => Set.mem_Ici.mpr (h.pos i hi).le
  rw [h.negMulLog_mean, sum_equal_weights fun i => negMulLog (p i),
    div_le_div_iff_of_pos_right h.card_pos] at hjensen
  rw [bits, div_le_iff₀ log_two_pos]
  exact hjensen

/-- **Only the uniform distribution** attains it. -/
theorem bits_eq_iff (h : Distribution s p) :
    bits s p = logb 2 s.card ↔ ∀ i ∈ s, ∀ j ∈ s, p i = p j := by
  have hjensen := strictConcaveOn_negMulLog.map_sum_eq_iff_of_pos (p := p)
    (fun i (_ : i ∈ s) => inv_pos.mpr h.card_pos) h.weights
    fun i hi => Set.mem_Ici.mpr (h.pos i hi).le
  rw [h.negMulLog_mean, sum_equal_weights fun i => negMulLog (p i), div_left_inj' h.card_pos.ne']
    at hjensen
  rw [bits, div_eq_iff log_two_pos.ne', eq_comm, hjensen]

end Distribution

end Lib
