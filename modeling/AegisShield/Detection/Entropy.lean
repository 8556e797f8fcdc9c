/-
# The range of the entropy (`core/entropy.py`)

Over the real numbers.  `shannon_entropy` is the entropy of the byte values that occur, so its
bounds are those of any distribution (`shannonEntropy_range`): 0 for one value alone, 8 if all 256
values are equally frequent, and never more than the logarithm of the number of values that occur.
-/
import AegisShield.Detection.Features
import AegisShield.Lib.Entropy

namespace AegisShield

open Lib

/-- The real numbers. -/
noncomputable instance : Arith ℝ where
  ofRat q := q
  add x y := x + y
  sub x y := x - y
  mul x y := x * y
  div x y := x / y
  sum xs := xs.sum
  le x y := decide (x ≤ y)
  lt x y := decide (x < y)

/-! ## 1. Bytes -/

/-- How frequent a byte value is. -/
noncomputable def frequency (data : Bytes) (b : UInt8) : ℝ := data.count b / data.length

theorem distribution_frequency {data : Bytes} (h : data ≠ []) :
    Distribution data.toFinset (frequency data) := by
  have hlen : (0 : ℝ) < data.length := Nat.cast_pos.mpr (List.length_pos_iff.mpr h)
  refine ⟨fun b hb => ?_, ?_⟩
  · have hcount := List.count_pos_iff.mpr (List.mem_toFinset.mp hb)
    exact div_pos (Nat.cast_pos.mpr hcount) hlen
  · have hsum : ((∑ b ∈ data.toFinset, data.count b : Nat) : ℝ) = data.length :=
      congrArg Nat.cast (List.sum_toFinset_count_eq_length data)
    unfold frequency
    rw [← Finset.sum_div, ← Nat.cast_sum, hsum, div_self hlen.ne']

/-- The term of a count in the loop. -/
noncomputable def entropyTerm (length count : Nat) : ℝ := bitsTerm (count / length)

theorem entropyTerm_zero (length : Nat) : entropyTerm length 0 = 0 := by
  rw [entropyTerm, bitsTerm, Nat.cast_zero, zero_div, Real.negMulLog_zero, zero_div]

/-- The loop adds the terms up. -/
theorem foldl_entropyTerm (length : Nat) (counts : List Nat) (x : ℝ) :
    (counts.map fun n : Nat => (n : ℚ)).foldl (fun entropy count =>
      if count = 0 then entropy
      else
        let probability : ℝ := Arith.ofRat (count / length)
        Arith.sub entropy (Arith.mul probability (Real.logb 2 probability))) x =
      x + (counts.map (entropyTerm length)).sum := by
  induction counts generalizing x with
  | nil => exact (add_zero x).symm
  | cons count counts ih =>
    rw [List.map_cons, List.foldl_cons, ih, List.map_cons, List.sum_cons, ← add_assoc]
    congr 1
    by_cases hzero : count = 0
    · rw [if_pos (by exact_mod_cast hzero), hzero, entropyTerm_zero, add_zero]
    · rw [if_neg (by exact_mod_cast hzero)]
      change x - ((count / length : ℚ) : ℝ) * Real.logb 2 ((count / length : ℚ) : ℝ) = _
      push_cast
      rw [entropyTerm, bitsTerm, Real.negMulLog, Real.logb]
      ring

/-- Summing over the table of counts or over the values that occur. -/
theorem sum_table {data : Bytes} {f : Nat → ℝ} (hzero : f 0 = 0) :
    (((List.range 256).map fun byte => data.count (UInt8.ofNat byte)).map f).sum =
      ∑ b ∈ data.toFinset, f (data.count b) := by
  have htable : (((List.range 256).map fun byte => data.count (UInt8.ofNat byte)).map f).sum =
      ∑ i ∈ Finset.range 256, f (data.count (UInt8.ofNat i)) := by
    rw [List.map_map]
    rfl
  have himage : ∑ i ∈ data.toFinset.image UInt8.toNat, f (data.count (UInt8.ofNat i)) =
      ∑ b ∈ data.toFinset, f (data.count b) := by
    rw [Finset.sum_image fun b _ c _ h => UInt8.toNat_inj.mp h]
    exact Finset.sum_congr rfl fun b _ => by rw [UInt8.ofNat_toNat]
  rw [htable, ← himage]
  refine (Finset.sum_subset ?_ ?_).symm
  · intro i hi
    obtain ⟨b, -, rfl⟩ := Finset.mem_image.mp hi
    exact Finset.mem_range.mpr b.toNat_lt
  · intro i hi habsent
    have hnone : UInt8.ofNat i ∉ data := by
      intro hmem
      refine habsent (Finset.mem_image.mpr ⟨_, List.mem_toFinset.mpr hmem, ?_⟩)
      rw [UInt8.toNat_ofNat', Nat.mod_eq_of_lt (Finset.mem_range.mp hi)]
    rw [List.count_eq_zero_of_not_mem hnone, hzero]

/-- **`shannon_entropy` is the entropy of the values that occur.** -/
theorem shannonEntropy_eq_bits (data : Bytes) :
    shannonEntropy (Real.logb 2) data = bits data.toFinset (frequency data) := by
  by_cases h : data = []
  · subst h
    rw [bits, List.toFinset_nil, Finset.sum_empty, zero_div]
    exact Rat.cast_zero
  · have hloop : shannonEntropy (Real.logb 2) data = ((0 : ℚ) : ℝ) +
        (((List.range 256).map fun byte => data.count (UInt8.ofNat byte)).map
          (entropyTerm data.length)).sum := by
      rw [← foldl_entropyTerm, shannonEntropy, if_neg h]
      generalize (List.range 256).map (fun byte => data.count (UInt8.ofNat byte)) = counts
      rw [List.map_eq_flatMap]
      rfl
    rw [hloop, Rat.cast_zero, zero_add, sum_table (entropyTerm_zero _), bits_eq_sum]
    rfl

/-! ## 2. The values that occur -/

/-- The number of byte values that occur. -/
def distinct (data : Bytes) : Nat := data.toFinset.card

/-- The numbers of the byte values that occur. -/
theorem image_toNat_subset (data : Bytes) :
    data.toFinset.image UInt8.toNat ⊆ Finset.range 256 := by
  intro i hi
  obtain ⟨b, -, rfl⟩ := Finset.mem_image.mp hi
  exact Finset.mem_range.mpr b.toNat_lt

theorem card_image_toNat (data : Bytes) : (data.toFinset.image UInt8.toNat).card = distinct data :=
  Finset.card_image_of_injective _ fun _ _ h => UInt8.toNat_inj.mp h

theorem distinct_le (data : Bytes) : distinct data ≤ 256 := by
  have hcard := Finset.card_le_card (image_toNat_subset data)
  rwa [card_image_toNat, Finset.card_range] at hcard

/-- All values occur if there are 256 of them. -/
theorem distinct_eq_iff (data : Bytes) : distinct data = 256 ↔ ∀ b, b ∈ data := by
  constructor
  · intro hcard b
    have heq := Finset.eq_of_subset_of_card_le (image_toNat_subset data)
      (by rw [card_image_toNat, hcard, Finset.card_range])
    have hb : b.toNat ∈ data.toFinset.image UInt8.toNat := by
      rw [heq]
      exact Finset.mem_range.mpr b.toNat_lt
    obtain ⟨c, hc, hcb⟩ := Finset.mem_image.mp hb
    rw [← UInt8.toNat_inj.mp hcb]
    exact List.mem_toFinset.mp hc
  · intro hall
    have heq : data.toFinset.image UInt8.toNat = Finset.range 256 := by
      refine Finset.Subset.antisymm (image_toNat_subset data) fun i hi => ?_
      refine Finset.mem_image.mpr ⟨UInt8.ofNat i, List.mem_toFinset.mpr (hall _), ?_⟩
      rw [UInt8.toNat_ofNat', Nat.mod_eq_of_lt (Finset.mem_range.mp hi)]
    rw [← card_image_toNat, heq, Finset.card_range]

/-- Values that are equally frequent are frequent equally often. -/
theorem frequency_eq_iff {data : Bytes} (h : data ≠ []) (b c : UInt8) :
    frequency data b = frequency data c ↔ data.count b = data.count c := by
  have hlen : (data.length : ℝ) ≠ 0 :=
    Nat.cast_ne_zero.mpr (List.length_pos_iff.mpr h).ne'
  rw [frequency, frequency, div_left_inj' hlen, Nat.cast_inj]

theorem logb_two_256 : Real.logb 2 (256 : Nat) = 8 := by
  have hpow : ((256 : Nat) : ℝ) = 2 ^ 8 := by norm_num
  rw [hpow, Real.logb_pow, Real.logb_self_eq_one one_lt_two]
  norm_num

/-- The logarithm of a number of values. -/
theorem logb_distinct_le {data : Bytes} (h : data ≠ []) {n : Nat} (hn : distinct data ≤ n) :
    Real.logb 2 (distinct data) ≤ Real.logb 2 n := by
  have hpos : (0 : ℝ) < distinct data := (distribution_frequency h).card_pos
  exact Real.logb_le_logb_of_le one_lt_two hpos (Nat.cast_le.mpr hn)

/-- **At most the logarithm of the number of values.** -/
theorem shannonEntropy_le (data : Bytes) :
    shannonEntropy (Real.logb 2) data ≤ Real.logb 2 (distinct data) := by
  rw [shannonEntropy_eq_bits]
  by_cases h : data = []
  · subst h
    rw [bits, distinct, List.toFinset_nil, Finset.sum_empty, zero_div, Finset.card_empty,
      Nat.cast_zero, Real.logb_zero]
  · exact bits_le (distribution_frequency h)

/-- Every value occurs equally often if all occur, and none more often than another. -/
theorem count_of_uniform {data : Bytes} (hall : ∀ b, b ∈ data)
    (hequal : ∀ b ∈ data, ∀ c ∈ data, data.count b = data.count c) (b : UInt8) :
    256 * data.count b = data.length := by
  have hsum : ∑ c ∈ data.toFinset, data.count c = data.length :=
    List.sum_toFinset_count_eq_length data
  rw [Finset.sum_congr rfl fun c _ => hequal c (hall c) b (hall b), Finset.sum_const,
    smul_eq_mul] at hsum
  rw [← (distinct_eq_iff data).mpr hall]
  exact hsum

/-! ## 3. Main result -/

/-- **The range of `shannon_entropy`**: the interval from 0 to 8, with 0 for one value alone, 8 for
all of them equally often, and in between no more than the number of values allows. -/
theorem shannonEntropy_range (data : Bytes) :
    0 ≤ shannonEntropy (Real.logb 2) data ∧ shannonEntropy (Real.logb 2) data ≤ 8 ∧
      (shannonEntropy (Real.logb 2) data = 0 ↔ ∀ b ∈ data, ∀ c ∈ data, b = c) ∧
      (shannonEntropy (Real.logb 2) data = 8 ↔
        data ≠ [] ∧ ∀ b, 256 * data.count b = data.length) ∧
      shannonEntropy (Real.logb 2) data ≤ Real.logb 2 (distinct data) ∧
      (shannonEntropy (Real.logb 2) data = Real.logb 2 (distinct data) ↔
        ∀ b ∈ data, ∀ c ∈ data, data.count b = data.count c) := by
  by_cases h : data = []
  · subst h
    have hzero : shannonEntropy (Real.logb 2) ([] : Bytes) = 0 := Rat.cast_zero
    have hcard : ((distinct [] : Nat) : ℝ) = 0 := Nat.cast_zero
    rw [hzero, hcard, Real.logb_zero]
    refine ⟨le_refl 0, by norm_num, ?_, ?_, le_refl 0, ?_⟩
    · exact iff_of_true rfl fun b hb => absurd hb List.not_mem_nil
    · exact iff_of_false (by norm_num) fun hne => hne.1 rfl
    · exact iff_of_true rfl fun b hb => absurd hb List.not_mem_nil
  have hdistribution := distribution_frequency h
  have hle := shannonEntropy_le data
  have htop := logb_distinct_le h (distinct_le data)
  rw [logb_two_256] at htop
  have huniform : shannonEntropy (Real.logb 2) data = Real.logb 2 (distinct data) ↔
      ∀ b ∈ data, ∀ c ∈ data, data.count b = data.count c := by
    rw [shannonEntropy_eq_bits, distinct, bits_eq_iff hdistribution]
    simp only [List.mem_toFinset, frequency_eq_iff h]
  refine ⟨?_, le_trans hle htop, ?_, ?_, hle, huniform⟩
  · rw [shannonEntropy_eq_bits]
    exact bits_nonneg hdistribution
  · rw [shannonEntropy_eq_bits, bits_eq_zero_iff hdistribution]
    constructor
    · intro hone b hb c hc
      obtain ⟨a, ha⟩ := Finset.card_eq_one.mp hone
      have hmem : ∀ x ∈ data, x = a := fun x hx =>
        Finset.mem_singleton.mp (ha ▸ List.mem_toFinset.mpr hx)
      rw [hmem b hb, hmem c hc]
    · intro hsame
      have hmost : data.toFinset.card ≤ 1 := Finset.card_le_one.mpr fun b hb c hc =>
        hsame b (List.mem_toFinset.mp hb) c (List.mem_toFinset.mp hc)
      exact le_antisymm hmost hdistribution.nonempty.card_pos
  · constructor
    · intro h8
      -- nothing less than 256 values leaves room for 8 bits
      have hfull : distinct data = 256 := by
        have hlog : Real.logb 2 (256 : Nat) ≤ Real.logb 2 (distinct data) := by
          rw [logb_two_256, ← h8]
          exact hle
        have hcast := (Real.logb_le_logb one_lt_two (by norm_num) hdistribution.card_pos).mp hlog
        exact le_antisymm (distinct_le data) (Nat.cast_le.mp hcast)
      have hequal := huniform.mp (by rw [h8, hfull, logb_two_256])
      exact ⟨h, count_of_uniform ((distinct_eq_iff data).mp hfull) hequal⟩
    · rintro ⟨-, hcount⟩
      have hlen := List.length_pos_iff.mpr h
      have hfull : distinct data = 256 := (distinct_eq_iff data).mpr fun b =>
        List.count_pos_iff.mp (by have := hcount b; omega)
      rw [huniform.mpr fun b _ c _ => by have hb := hcount b; have hc := hcount c; omega, hfull,
        logb_two_256]

end AegisShield
