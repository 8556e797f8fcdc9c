/-
# Words and the numbers they stand for

Three ways to stay within a word: a checked product has no value where the exact one does not fit, a
saturating sum stops at the greatest word, and a bound on a sum is checked on a difference.  The
first and the last are exact.  The second is not: it cannot tell a sum that fits from one that does
not where it is compared with the greatest word (`saturatingAdd_le`).
-/
import Mathlib.Algebra.Group.Nat.Defs

namespace Lib

variable {w : Nat} {a b c : BitVec w}

/-! ## 1. Products -/

/-- `a.checked_mul(b)`. -/
def checkedMul (a b : BitVec w) : Option (BitVec w) :=
  if a.umulOverflow b then none else some (a * b)

/-- A checked product is exact. -/
theorem checkedMul_eq_some : checkedMul a b = some c ↔ c.toNat = a.toNat * b.toNat := by
  unfold checkedMul
  split
  · rename_i h
    have hge : 2 ^ w ≤ a.toNat * b.toNat := by simpa [BitVec.umulOverflow] using h
    have hlt := c.isLt
    exact ⟨nofun, fun hc => by omega⟩
  · rename_i h
    have hmul := BitVec.toNat_mul_of_not_umulOverflow h
    rw [Option.some.injEq, ← hmul]
    exact ⟨fun hc => hc ▸ rfl, fun hc => BitVec.eq_of_toNat_eq hc.symm⟩

/-- The product of two words fits twice the width. -/
theorem checkedMul_widened {v : Nat} (h : w + w ≤ v) (a b : BitVec w) :
    ∃ c, checkedMul (a.setWidth v) (b.setWidth v) = some c ∧ c.toNat = a.toNat * b.toNat := by
  have hpow : 2 ^ w * 2 ^ w ≤ 2 ^ v := by
    rw [← Nat.pow_add]
    exact Nat.pow_le_pow_right Nat.two_pos h
  have hprod : a.toNat * b.toNat < 2 ^ v :=
    Nat.lt_of_lt_of_le (Nat.mul_lt_mul'' a.isLt b.isLt) hpow
  have hwide : ∀ x : BitVec w, (x.setWidth v).toNat = x.toNat := fun x =>
    BitVec.toNat_setWidth_of_le (by omega)
  refine ⟨BitVec.ofNatLT (a.toNat * b.toNat) hprod, ?_, BitVec.toNat_ofNatLT _ hprod⟩
  rw [checkedMul_eq_some, hwide, hwide]
  exact BitVec.toNat_ofNatLT _ hprod

/-! ## 2. Sums -/

/-- `a.saturating_add(b)`. -/
def saturatingAdd (a b : BitVec w) : BitVec w :=
  if a.uaddOverflow b then BitVec.allOnes w else a + b

theorem toNat_saturatingAdd (a b : BitVec w) :
    (saturatingAdd a b).toNat = min (a.toNat + b.toNat) (2 ^ w - 1) := by
  unfold saturatingAdd
  split
  · rename_i h
    have hge : 2 ^ w ≤ a.toNat + b.toNat := by simpa [BitVec.uaddOverflow] using h
    rw [BitVec.toNat_allOnes]
    omega
  · rename_i h
    have hlt : a.toNat + b.toNat < 2 ^ w := by simpa [BitVec.uaddOverflow] using h
    rw [BitVec.toNat_add_of_not_uaddOverflow h]
    omega

/-- **What a saturating sum can bound**: the exact sum, or nothing. -/
theorem saturatingAdd_le :
    saturatingAdd a b ≤ c ↔ a.toNat + b.toNat ≤ c.toNat ∨ c = BitVec.allOnes w := by
  have hc := c.isLt
  rw [BitVec.le_def, toNat_saturatingAdd, ← BitVec.toNat_inj, BitVec.toNat_allOnes]
  omega

/-! ## 3. Differences -/

/-- A bound on a difference is one on the sum. -/
theorem le_sub_iff (h : a ≤ c) : b ≤ c - a ↔ a.toNat + b.toNat ≤ c.toNat := by
  have hle : a.toNat ≤ c.toNat := h
  rw [BitVec.le_def, BitVec.toNat_sub_of_le h]
  omega

end Lib
