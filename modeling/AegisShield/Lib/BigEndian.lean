/-
# Numbers in network order

A number in a fixed number of bytes, the most significant byte first, and back.  Writing a number
that fits and reading it gives the number (`ofBigEndian_bigEndian`); reading bytes and writing the
number gives the bytes (`bigEndian_ofBigEndian`).  So a fixed-width number and its bytes say the
same.
-/
import AegisShield.Lib.Text
import Mathlib.Algebra.Group.Nat.Defs
import Mathlib.Data.List.Induction

namespace Lib

/-- The last `n` bytes of `v` in base 256, the most significant one first. -/
def bigEndian : Nat → Nat → Bytes
  | 0, _ => []
  | n + 1, v => bigEndian n (v / 256) ++ [UInt8.ofNat (v % 256)]

/-- The number that the bytes stand for. -/
def ofBigEndian (bs : Bytes) : Nat := bs.foldl (fun v b => v * 256 + b.toNat) 0

@[simp] theorem length_bigEndian : ∀ n v : Nat, (bigEndian n v).length = n
  | 0, _ => rfl
  | n + 1, v => by simp [bigEndian, length_bigEndian n]

@[simp] theorem ofBigEndian_nil : ofBigEndian [] = 0 := rfl

@[simp] theorem ofBigEndian_concat (bs : Bytes) (b : UInt8) :
    ofBigEndian (bs ++ [b]) = ofBigEndian bs * 256 + b.toNat := by
  simp [ofBigEndian]

/-- The bytes bound the number. -/
theorem ofBigEndian_lt (bs : Bytes) : ofBigEndian bs < 256 ^ bs.length := by
  induction bs using List.reverseRecOn with
  | nil => simp
  | append_singleton bs b ih =>
    have hb : b.toNat < 256 := b.toNat_lt
    rw [ofBigEndian_concat, List.length_append, List.length_singleton, Nat.pow_succ]
    omega

/-- A number that fits is read back. -/
theorem ofBigEndian_bigEndian : ∀ {n v : Nat}, v < 256 ^ n → ofBigEndian (bigEndian n v) = v
  | 0, v, h => by
    have hv : v = 0 := by simpa using h
    simp [bigEndian, hv]
  | n + 1, v, h => by
    have hhigh : v / 256 < 256 ^ n := by
      rw [Nat.pow_succ] at h
      exact Nat.div_lt_of_lt_mul (by rwa [Nat.mul_comm] at h)
    have hlow : (UInt8.ofNat (v % 256)).toNat = v % 256 := by
      simp
    rw [bigEndian, ofBigEndian_concat, ofBigEndian_bigEndian hhigh, hlow]
    omega

/-- Two numbers that fit and have the same bytes are the same. -/
theorem bigEndian_inj {n v w : Nat} (hv : v < 256 ^ n) (hw : w < 256 ^ n)
    (h : bigEndian n v = bigEndian n w) : v = w := by
  rw [← ofBigEndian_bigEndian hv, h, ofBigEndian_bigEndian hw]

/-- Bytes are written back as they were read. -/
theorem bigEndian_ofBigEndian (bs : Bytes) : bigEndian bs.length (ofBigEndian bs) = bs := by
  induction bs using List.reverseRecOn with
  | nil => rfl
  | append_singleton bs b ih =>
    have hb : b.toNat < 256 := b.toNat_lt
    have hhigh : (ofBigEndian bs * 256 + b.toNat) / 256 = ofBigEndian bs := by omega
    have hlow : (ofBigEndian bs * 256 + b.toNat) % 256 = b.toNat := by omega
    rw [ofBigEndian_concat, List.length_append, List.length_singleton, bigEndian, hhigh, hlow, ih,
      UInt8.ofNat_toNat]

/-! ## Words -/

/-- `to_be_bytes`. -/
def toBeBytes {w : Nat} (x : BitVec w) : Bytes := bigEndian (w / 8) x.toNat

@[simp] theorem length_toBeBytes {w : Nat} (x : BitVec w) : (toBeBytes x).length = w / 8 :=
  length_bigEndian _ _

theorem toBeBytes_inj {w : Nat} (hw : w % 8 = 0) {x y : BitVec w} (h : toBeBytes x = toBeBytes y) :
    x = y := by
  have hpow : 256 ^ (w / 8) = 2 ^ w := by
    have h256 : 256 = 2 ^ 8 := rfl
    rw [h256, ← Nat.pow_mul, Nat.mul_div_cancel' (Nat.dvd_of_mod_eq_zero hw)]
  have hfits : ∀ z : BitVec w, z.toNat < 256 ^ (w / 8) := by
    intro z
    rw [hpow]
    exact z.isLt
  exact BitVec.eq_of_toNat_eq (bigEndian_inj (hfits x) (hfits y) h)

end Lib
