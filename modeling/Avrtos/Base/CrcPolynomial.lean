import Avrtos.Base.Crc

/-! # Cyclic redundancy checks as polynomials

    The register works in the ring of remainders, where a shift multiplies by `X`. -/

namespace Crc

open Polynomial

def coefficient (bit : Bool) : ZMod 2 := if bit then 1 else 0

theorem coefficient_xor (a b : Bool) : coefficient (a ^^ b) = coefficient a + coefficient b := by
  cases a <;> cases b <;> decide

noncomputable def wordPoly {n : Nat} (x : BitVec n) : (ZMod 2)[X] :=
  ∑ i ∈ Finset.range n, C (coefficient (x.getLsbD i)) * X ^ i

noncomputable def messagePoly : List Bool → (ZMod 2)[X]
  | [] => 0
  | bit :: message => C (coefficient bit) * X ^ message.length + messagePoly message

noncomputable def generatorPoly {w : Nat} (g : BitVec w) : (ZMod 2)[X] := X ^ w + wordPoly g

variable {n w : Nat}

theorem coeff_wordPoly (x : BitVec n) (k : Nat) :
    (wordPoly x).coeff k = coefficient (x.getLsbD k) := by
  rw [wordPoly, finsetSum_coeff]
  simp only [coeff_C_mul_X_pow]
  by_cases hk : k < n
  · rw [Finset.sum_eq_single k]
    · rw [if_pos rfl]
    · exact fun i _ hi => if_neg (Ne.symm hi)
    · exact fun hnot => (hnot (Finset.mem_range.mpr hk)).elim
  · rw [BitVec.getLsbD_of_ge x k (by omega)]
    refine Finset.sum_eq_zero fun i hi => if_neg ?_
    have := Finset.mem_range.mp hi
    omega

theorem wordPoly_xor (a b : BitVec n) : wordPoly (a ^^^ b) = wordPoly a + wordPoly b := by
  ext k
  rw [coeff_add, coeff_wordPoly, coeff_wordPoly, coeff_wordPoly, BitVec.getLsbD_xor,
    coefficient_xor]

theorem wordPoly_zero : wordPoly 0#n = 0 := by
  ext k
  rw [coeff_wordPoly, BitVec.getLsbD_zero, coeff_zero]
  rfl

theorem wordPoly_setWidth (x : BitVec n) (h : n ≤ w) : wordPoly (x.setWidth w) = wordPoly x := by
  ext k
  rw [coeff_wordPoly, coeff_wordPoly, BitVec.getLsbD_setWidth]
  by_cases hk : k < n
  · rw [decide_eq_true (by omega), Bool.true_and]
  · rw [BitVec.getLsbD_of_ge x k (by omega), Bool.and_false]

theorem wordPoly_unit (hw : 0 < w) (bit : Bool) : wordPoly (unit w bit) = C (coefficient bit) := by
  ext k
  rw [coeff_wordPoly, coeff_C, unit, BitVec.getLsbD_setWidth]
  cases k with
  | zero => simp [hw]
  | succ k => simp [coefficient]

theorem degree_wordPoly_lt (x : BitVec n) : (wordPoly x).degree < n := by
  rw [degree_lt_iff_coeff_zero]
  intro k hk
  rw [coeff_wordPoly, BitVec.getLsbD_of_ge x k hk]
  rfl

theorem wordPoly_shiftLeft_one (hw : 0 < w) (x : BitVec w) :
    wordPoly (x <<< 1) + C (coefficient x.msb) * X ^ w = X * wordPoly x := by
  ext k
  rw [coeff_add, coeff_wordPoly, coeff_C_mul_X_pow, BitVec.getLsbD_shiftLeft]
  cases k with
  | zero =>
    rw [if_neg (by omega), mul_comm, coeff_mul_X_zero]
    simp [coefficient]
  | succ k =>
    rw [coeff_X_mul, coeff_wordPoly, Nat.add_sub_cancel]
    by_cases hk : k + 1 = w
    · have hmsb : x.msb = x.getLsbD k := by
        rw [BitVec.msb_eq_getLsbD_last]
        congr 1
        omega
      rw [if_pos hk, hmsb, decide_eq_false (by omega)]
      simp [coefficient]
    · rw [if_neg hk, add_zero]
      by_cases hlt : k + 1 < w
      · simp [hlt]
      · rw [BitVec.getLsbD_of_ge x k (by omega), Bool.and_false]

variable (g : BitVec w)

theorem generatorPoly_monic : (generatorPoly g).Monic := monic_X_pow_add (degree_wordPoly_lt g)

theorem degree_generatorPoly : (generatorPoly g).degree = w := by
  rw [generatorPoly, degree_add_eq_left_of_degree_lt, degree_X_pow]
  rw [degree_X_pow]
  exact degree_wordPoly_lt g

noncomputable def residue (reg : BitVec w) : AdjoinRoot (generatorPoly g) :=
  AdjoinRoot.mk (generatorPoly g) (wordPoly reg)

theorem residue_xor (a b : BitVec w) : residue g (a ^^^ b) = residue g a + residue g b := by
  rw [residue, wordPoly_xor, map_add]
  rfl

theorem residue_shift (hw : 0 < w) (reg : BitVec w) :
    residue g (shift g reg) = AdjoinRoot.mk (generatorPoly g) X * residue g reg := by
  have hout : AdjoinRoot.mk (generatorPoly g) (X ^ w) + residue g g = 0 := by
    rw [residue, ← map_add, ← generatorPoly, AdjoinRoot.mk_self]
  have hself : residue g (0#w) = 0 := by rw [residue, wordPoly_zero, map_zero]
  have hlost := congrArg (AdjoinRoot.mk (generatorPoly g)) (wordPoly_shiftLeft_one hw reg)
  rw [map_add, map_mul, map_mul] at hlost
  rw [shift, residue_xor]
  change residue g (reg <<< 1) + _ = _ * residue g reg at hlost
  rw [← hlost]
  refine congrArg _ ?_
  cases reg.msb with
  | false =>
    rw [if_neg Bool.false_ne_true, hself, coefficient, if_neg Bool.false_ne_true, map_zero,
      map_zero, zero_mul]
  | true =>
    have htwo : residue g g + residue g g = 0 := by rw [← residue_xor, BitVec.xor_self, hself]
    rw [if_pos rfl, coefficient, if_pos rfl, map_one, map_one, one_mul]
    exact add_right_cancel (htwo.trans hout.symm)

theorem residue_iterate_shift (hw : 0 < w) (k : Nat) (reg : BitVec w) :
    residue g ((shift g)^[k] reg) = AdjoinRoot.mk (generatorPoly g) (X ^ k) * residue g reg := by
  induction k with
  | zero => rw [pow_zero, map_one, one_mul]; rfl
  | succ k ih =>
    rw [Function.iterate_succ_apply', residue_shift g hw, ih, pow_succ', map_mul, mul_assoc]

theorem residue_foldl_feed (hw : 0 < w) (message : List Bool) (reg : BitVec w) :
    residue g (message.foldl (feed g) reg) = AdjoinRoot.mk (generatorPoly g)
        (wordPoly reg * X ^ message.length + messagePoly message) := by
  induction message generalizing reg with
  | nil => simp [messagePoly, residue]
  | cons bit message ih =>
    have hstep : AdjoinRoot.mk (generatorPoly g) (wordPoly (feed g reg bit)) =
        AdjoinRoot.mk (generatorPoly g) (X * wordPoly reg + C (coefficient bit)) := by
      have hfeed := residue_xor g (shift g reg) (unit w bit)
      rw [residue_shift g hw, ← feed, residue, residue, residue, wordPoly_unit hw] at hfeed
      rw [hfeed, map_add, map_mul]
    rw [List.foldl_cons, ih, map_add, map_mul, hstep, ← map_mul, ← map_add, messagePoly,
      List.length_cons, pow_succ]
    refine congrArg _ ?_
    ring

/-- **THE CIRCUIT**. -/
theorem residue_foldl_clock (hw : 0 < w) (message : List Bool) (reg : BitVec w) :
    residue g (message.foldl (clock g) reg) = AdjoinRoot.mk (generatorPoly g)
      (messagePoly message * X ^ w + wordPoly reg * X ^ message.length) := by
  induction message generalizing reg with
  | nil => simp [messagePoly, residue]
  | cons bit message ih =>
    have hclock : clock g reg bit = shift g reg ^^^ (shift g)^[w] (unit w bit) := by
      rw [iterate_shift_unit g hw, clock, shift, ite_xor, BitVec.xor_assoc]
    have hstep : AdjoinRoot.mk (generatorPoly g) (wordPoly (clock g reg bit)) =
        AdjoinRoot.mk (generatorPoly g) (X * wordPoly reg + X ^ w * C (coefficient bit)) := by
      have hxor := residue_xor g (shift g reg) ((shift g)^[w] (unit w bit))
      rw [residue_shift g hw, residue_iterate_shift g hw, ← hclock, residue, residue, residue,
        wordPoly_unit hw] at hxor
      rw [hxor, map_add, map_mul, map_mul]
    rw [List.foldl_cons, ih, map_add, map_mul _ (wordPoly _), hstep, ← map_mul, ← map_add,
      messagePoly, List.length_cons, pow_succ]
    refine congrArg _ ?_
    ring

variable {g}

theorem wordPoly_eq_modByMonic {reg : BitVec w} {p : (ZMod 2)[X]}
    (h : residue g reg = AdjoinRoot.mk (generatorPoly g) p) :
    wordPoly reg = p %ₘ generatorPoly g := by
  have hmonic := generatorPoly_monic g
  have hreg : wordPoly reg %ₘ generatorPoly g = wordPoly reg := by
    rw [modByMonic_eq_self_iff hmonic, degree_generatorPoly]
    exact degree_wordPoly_lt reg
  rw [← hreg]
  exact modByMonic_eq_of_dvd_sub hmonic (AdjoinRoot.mk_eq_mk.mp h)

theorem wordPoly_remainder (hw : 0 < w) (message : List Bool) :
    wordPoly (remainder g message) = messagePoly message %ₘ generatorPoly g := by
  refine wordPoly_eq_modByMonic ?_
  rw [remainder, residue_foldl_feed g hw, wordPoly_zero, zero_mul, zero_add]

theorem wordPoly_foldl_clock (hw : 0 < w) (message : List Bool) (reg : BitVec w) :
    wordPoly (message.foldl (clock g) reg) =
      (messagePoly message * X ^ w + wordPoly reg * X ^ message.length) %ₘ generatorPoly g :=
  wordPoly_eq_modByMonic (residue_foldl_clock g hw message reg)

end Crc
