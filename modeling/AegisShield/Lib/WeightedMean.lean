/-
# Weighted sums of named values

A score adds up the values of some names, each times its weight.  With weights that are not
negative, the sum grows with every value (`weightedSum_mono`), lies between 0 and the sum of the
weights when the values are fractions (`weightedSum_nonneg`, `weightedSum_le`), and falls short of
that by the weight of a name whose value is 0 (`weightedSum_add_le`).
-/
import Mathlib.Algebra.Order.Field.Basic
import Mathlib.Data.List.Basic
import Mathlib.Tactic.Linarith

namespace Lib

/-- A number between 0 and 1. -/
def Fraction {K : Type} [Zero K] [One K] [LE K] (x : K) : Prop := 0 ≤ x ∧ x ≤ 1

section WeightedSum

variable {K α : Type} [Field K] [LinearOrder K] [IsStrictOrderedRing K]

/-- The sum of the values times their weights. -/
def weightedSum (value : α → K) (weights : List (α × K)) : K :=
  (weights.map fun w => value w.1 * w.2).sum

/-- The sum of the weights. -/
def totalWeight (weights : List (α × K)) : K := (weights.map Prod.snd).sum

variable {value value' : α → K}

theorem totalWeight_nonneg : ∀ {weights : List (α × K)}, (∀ w ∈ weights, 0 ≤ w.2) →
    0 ≤ totalWeight weights
  | [], _ => le_refl 0
  | w :: ws, h => by
    have ih : 0 ≤ totalWeight ws := totalWeight_nonneg fun u hu => h u (List.mem_cons_of_mem _ hu)
    exact add_nonneg (h w List.mem_cons_self) ih

/-- **Larger values, a larger sum.** -/
theorem weightedSum_mono (hvalue : ∀ a, value a ≤ value' a) : ∀ {weights : List (α × K)},
    (∀ w ∈ weights, 0 ≤ w.2) → weightedSum value weights ≤ weightedSum value' weights
  | [], _ => le_refl 0
  | w :: ws, h => by
    have ih : weightedSum value ws ≤ weightedSum value' ws :=
      weightedSum_mono hvalue fun u hu => h u (List.mem_cons_of_mem _ hu)
    have hhead : value w.1 * w.2 ≤ value' w.1 * w.2 :=
      mul_le_mul_of_nonneg_right (hvalue w.1) (h w List.mem_cons_self)
    exact add_le_add hhead ih

omit [LinearOrder K] [IsStrictOrderedRing K] in
theorem weightedSum_zero : ∀ weights : List (α × K), weightedSum (fun _ => 0) weights = 0
  | [] => rfl
  | w :: ws => by
    have ih : weightedSum (fun _ => (0 : K)) ws = 0 := weightedSum_zero ws
    rw [weightedSum, List.map_cons, List.sum_cons, zero_mul, zero_add]
    exact ih

omit [LinearOrder K] [IsStrictOrderedRing K] in
theorem weightedSum_one : ∀ weights : List (α × K),
    weightedSum (fun _ => 1) weights = totalWeight weights
  | [] => rfl
  | w :: ws => by
    have ih : weightedSum (fun _ => (1 : K)) ws = totalWeight ws := weightedSum_one ws
    rw [weightedSum, List.map_cons, List.sum_cons, one_mul, totalWeight, List.map_cons,
      List.sum_cons]
    exact congrArg (w.2 + ·) ih

variable {weights : List (α × K)}

theorem weightedSum_nonneg (hvalue : ∀ a, 0 ≤ value a) (h : ∀ w ∈ weights, 0 ≤ w.2) :
    0 ≤ weightedSum value weights := by
  have hmono := weightedSum_mono hvalue h
  rwa [weightedSum_zero] at hmono

theorem weightedSum_le (hvalue : ∀ a, value a ≤ 1) (h : ∀ w ∈ weights, 0 ≤ w.2) :
    weightedSum value weights ≤ totalWeight weights := by
  have hmono := weightedSum_mono hvalue h
  rwa [weightedSum_one] at hmono

/-- **A name whose value is 0** leaves its weight out. -/
theorem weightedSum_add_le [BEq α] [LawfulBEq α] {name : α} (hzero : value name = 0)
    (hvalue : ∀ a, value a ≤ 1) : ∀ {weights : List (α × K)}, (∀ w ∈ weights, 0 ≤ w.2) →
      weightedSum value weights + (weights.lookup name).getD 0 ≤ totalWeight weights
  | [], _ => by simp [weightedSum, totalWeight]
  | w :: ws, h => by
    have hws : ∀ u ∈ ws, 0 ≤ u.2 := fun u hu => h u (List.mem_cons_of_mem _ hu)
    have hw := h w List.mem_cons_self
    have hsum : weightedSum value (w :: ws) = value w.1 * w.2 + weightedSum value ws := rfl
    have htotal : totalWeight (w :: ws) = w.2 + totalWeight ws := rfl
    rw [hsum, htotal, List.lookup_cons]
    by_cases hname : name == w.1
    · have hw0 : value w.1 = 0 := by rw [← eq_of_beq hname, hzero]
      have hrest := weightedSum_le hvalue hws
      simp only [hname, Option.getD_some, hw0, zero_mul]
      linarith
    · have ih := weightedSum_add_le hzero hvalue hws
      have hhead : value w.1 * w.2 ≤ 1 * w.2 := mul_le_mul_of_nonneg_right (hvalue w.1) hw
      simp only [hname]
      linarith

/-- **Names whose values are 0**: only the weights of the others count. -/
theorem weightedSum_le_filter {p : α → Bool} (hzero : ∀ a, p a = false → value a ≤ 0)
    (hvalue : ∀ a, value a ≤ 1) : ∀ {weights : List (α × K)}, (∀ w ∈ weights, 0 ≤ w.2) →
      weightedSum value weights ≤ totalWeight (weights.filter fun w => p w.1)
  | [], _ => le_refl 0
  | w :: ws, h => by
    have ih := weightedSum_le_filter hzero hvalue fun u hu => h u (List.mem_cons_of_mem _ hu)
    have hw := h w List.mem_cons_self
    have hsum : weightedSum value (w :: ws) = value w.1 * w.2 + weightedSum value ws := rfl
    rw [hsum, List.filter_cons]
    cases hp : p w.1 with
    | true =>
      have hhead : value w.1 * w.2 ≤ 1 * w.2 := mul_le_mul_of_nonneg_right (hvalue w.1) hw
      have htotal : totalWeight (w :: ws.filter fun w => p w.1) =
        w.2 + totalWeight (ws.filter fun w => p w.1) := rfl
      rw [if_pos rfl, htotal]
      linarith
    | false =>
      have hhead : value w.1 * w.2 ≤ 0 := mul_nonpos_of_nonpos_of_nonneg (hzero w.1 hp) hw
      rw [if_neg Bool.false_ne_true]
      linarith

/-- A weighted sum over the sum of the weights, or over 1 if that is 0. -/
theorem fraction_weightedMean (hvalue : ∀ a, Fraction (value a)) (h : ∀ w ∈ weights, 0 ≤ w.2) :
    Fraction (weightedSum value weights /
      (if totalWeight weights = 0 then 1 else totalWeight weights)) := by
  have hnonneg := weightedSum_nonneg (fun a => (hvalue a).1) h
  have hle := weightedSum_le (fun a => (hvalue a).2) h
  have htotal := totalWeight_nonneg h
  split
  · rename_i hzero
    rw [div_one]
    exact ⟨hnonneg, by linarith⟩
  · rename_i hne
    have hpos : 0 < totalWeight weights := lt_of_le_of_ne htotal (Ne.symm hne)
    exact ⟨div_nonneg hnonneg htotal, (div_le_one hpos).mpr hle⟩

omit [IsStrictOrderedRing K] in
/-- Two tables with the same names, the values of one at most those of the other. -/
theorem lookup_mono [BEq α] {name : α} : ∀ {xs ys : List (α × K)},
    List.Forall₂ (fun x y => x.1 = y.1 ∧ x.2 ≤ y.2) xs ys →
      (xs.lookup name).getD 0 ≤ (ys.lookup name).getD 0
  | [], [], _ => le_refl 0
  | (k, x) :: xs, (l, y) :: ys, h => by
    obtain ⟨⟨rfl, hxy⟩, hrest⟩ := List.forall₂_cons.mp h
    rw [List.lookup_cons, List.lookup_cons]
    cases name == k with
    | true => exact hxy
    | false => exact lookup_mono hrest

end WeightedSum

end Lib
