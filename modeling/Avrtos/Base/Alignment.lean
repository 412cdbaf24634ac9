import Mathlib

/-! # Rounding an address up to a multiple

    `alignUp a x` is the first multiple of `a` from `x` on; on words it is an addition and a
    mask. -/

namespace Alignment

open BitVec

def alignUp (a x : Nat) : Nat := (x + (a - 1)) / a * a

variable {a x : Nat}

theorem dvd_alignUp (a x : Nat) : a ∣ alignUp a x := Nat.dvd_mul_left _ _

theorem le_alignUp (ha : 0 < a) (x : Nat) : x ≤ alignUp a x := by
  have hdiv := Nat.div_add_mod (x + (a - 1)) a
  have hmod := Nat.mod_lt (x + (a - 1)) ha
  rw [Nat.mul_comm] at hdiv
  rw [alignUp]
  omega

theorem alignUp_le (ha : 0 < a) {y : Nat} (hxy : x ≤ y) (hy : a ∣ y) : alignUp a x ≤ y := by
  obtain ⟨q, rfl⟩ := hy
  have hq : (x + (a - 1)) / a ≤ q := by
    rw [Nat.div_le_iff_le_mul_add_pred ha]
    omega
  rw [alignUp, Nat.mul_comm]
  exact Nat.mul_le_mul_left a hq

theorem isLeast_alignUp (ha : 0 < a) (x : Nat) : IsLeast {y | x ≤ y ∧ a ∣ y} (alignUp a x) :=
  ⟨⟨le_alignUp ha x, dvd_alignUp a x⟩, fun _ hy => alignUp_le ha hy.1 hy.2⟩

variable {w : Nat}

theorem and_not_mask (y k : Nat) :
    BitVec.ofNat w y &&& ~~~ BitVec.ofNat w (2 ^ k - 1) = BitVec.ofNat w (y / 2 ^ k * 2 ^ k) := by
  apply eq_of_getLsbD_eq
  intro i hi
  rw [getLsbD_and, getLsbD_not, getLsbD_ofNat, getLsbD_ofNat,
    getLsbD_ofNat, Nat.testBit_two_pow_sub_one, ← Nat.shiftRight_eq_div_pow,
    ← Nat.shiftLeft_eq, Nat.testBit_shiftLeft, Nat.testBit_shiftRight]
  by_cases hik : k ≤ i
  · simp [hi, hik, Nat.add_sub_cancel' hik, Nat.not_lt.mpr hik]
  · simp [hi, hik, Nat.lt_of_not_le hik]

theorem add_mask_and_not_mask (x k : Nat) :
    (BitVec.ofNat w x + BitVec.ofNat w (2 ^ k - 1)) &&& ~~~ BitVec.ofNat w (2 ^ k - 1) =
      BitVec.ofNat w (alignUp (2 ^ k) x) := by
  rw [← ofNat_add, and_not_mask, alignUp]

end Alignment
