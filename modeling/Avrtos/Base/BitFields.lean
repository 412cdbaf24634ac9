import Mathlib

/-! # Bit fields of a register

    Masks, shifts and the joining of fields are turned into arithmetic. -/

namespace BitFields

open BitVec

variable {w : Nat}

def field (n lo len : Nat) : Nat := n / 2 ^ lo % 2 ^ len

theorem field_lt (n lo len : Nat) : field n lo len < 2 ^ len := Nat.mod_lt _ (Nat.two_pow_pos len)

theorem field_field (n lo len lo' len' : Nat) (h : lo' + len' ≤ len) :
    field (field n lo len) lo' len' = field n (lo + lo') len' := by
  simp only [field]
  rw [show len = lo' + (len - lo') by omega, pow_add, Nat.mod_mul_right_div_self,
    Nat.div_div_eq_div_mul, ← pow_add,
    Nat.mod_mod_of_dvd _ (Nat.pow_dvd_pow 2 (show len' ≤ len - lo' by omega))]

theorem field_add (n lo a b : Nat) :
    field n lo (a + b) = field n (lo + a) b * 2 ^ a + field n lo a := by
  simp only [field]
  rw [pow_add 2 lo, ← Nat.div_div_eq_div_mul, pow_add, Nat.mod_mul, Nat.add_comm,
    Nat.mul_comm (2 ^ a)]

theorem toNat_and_low (a : BitVec w) (m : Nat) (hm : m ≤ w) :
    (a &&& BitVec.ofNat w (2 ^ m - 1)).toNat = field a.toNat 0 m := by
  have hlt : 2 ^ m - 1 < 2 ^ w := lt_of_lt_of_le (Nat.sub_lt (Nat.two_pow_pos m) Nat.one_pos)
      (Nat.pow_le_pow_right (by decide) hm)
  rw [toNat_and, toNat_ofNat, Nat.mod_eq_of_lt hlt, Nat.and_two_pow_sub_one_eq_mod,
    field, pow_zero, Nat.div_one]

theorem toNat_shift_and (a : BitVec w) (lo m : Nat) (hm : m ≤ w) :
    (a >>> lo &&& BitVec.ofNat w (2 ^ m - 1)).toNat = field a.toNat lo m := by
  rw [toNat_and_low _ m hm, toNat_ushiftRight, Nat.shiftRight_eq_div_pow, field, pow_zero,
    Nat.div_one, field]

theorem toNat_shiftLeft (a : BitVec w) (k : Nat) (h : a.toNat * 2 ^ k < 2 ^ w) :
    (a <<< k).toNat = a.toNat * 2 ^ k := by
  rw [BitVec.toNat_shiftLeft, Nat.shiftLeft_eq, Nat.mod_eq_of_lt h]

theorem toNat_or (a b : BitVec w) (k n : Nat) (ha : a.toNat = n * 2 ^ k) (hb : b.toNat < 2 ^ k) :
    (a ||| b).toNat = n * 2 ^ k + b.toNat := by
  rw [BitVec.toNat_or, ha, Nat.mul_comm, Nat.two_pow_add_eq_or_of_lt hb]

theorem toNat_append {a b : BitVec w} {n lo k len : Nat} (ha : a.toNat = field n (lo + k) len)
    (hb : b.toNat = field n lo k) (hw : len + k ≤ w) :
    (a <<< k ||| b).toNat = field n lo (k + len) := by
  have hlt : a.toNat * 2 ^ k < 2 ^ w := by
    calc a.toNat * 2 ^ k < 2 ^ len * 2 ^ k := by
          rw [ha]
          exact Nat.mul_lt_mul_of_pos_right (field_lt _ _ _) (Nat.two_pow_pos k)
      _ ≤ 2 ^ w := by
          rw [← pow_add]
          exact Nat.pow_le_pow_right (by decide) hw
  rw [toNat_or _ _ k a.toNat (toNat_shiftLeft a k hlt) (by rw [hb]; exact field_lt _ _ _), ha, hb,
    field_add]

theorem shiftLeft_and_shiftLeft (a b : BitVec w) (i j : Nat) :
    a <<< i &&& b <<< (i + j) = (a >>> j &&& b) <<< (i + j) := by
  apply eq_of_getLsbD_eq
  intro k hk
  simp only [getLsbD_and, getLsbD_shiftLeft, getLsbD_ushiftRight, hk,
    decide_true, Bool.true_and]
  by_cases hij : k < i + j
  · simp [hij]
  · have hi : ¬ k < i := by omega
    simp [hij, hi, show j + (k - (i + j)) = k - i by omega]

theorem toNat_shift_narrow (a : BitVec w) (lo v : Nat) :
    ((a >>> lo).setWidth v).toNat = field a.toNat lo v := by
  rw [toNat_setWidth, toNat_ushiftRight, Nat.shiftRight_eq_div_pow, field]

theorem toNat_narrow (a : BitVec w) (v : Nat) : (a.setWidth v).toNat = field a.toNat 0 v := by
  rw [toNat_setWidth, field, pow_zero, Nat.div_one]

theorem toNat_widen (a : BitVec w) {v : Nat} (h : w ≤ v) : (a.setWidth v).toNat = a.toNat := by
  rw [toNat_setWidth,
    Nat.mod_eq_of_lt (lt_of_lt_of_le a.isLt (Nat.pow_le_pow_right (by decide) h))]

end BitFields
