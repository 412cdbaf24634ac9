import Avrtos.Base.CrcPolynomial
import Avrtos.Sd

/-! # The checksums as remainders of polynomials

    The loops of `crc.c` and the frames of `sd_cmd_prep` against division of polynomials. -/

namespace AvrtosCrcRemainders

open List Polynomial Crc AvrtosCrc AvrtosSd

noncomputable def bytesPoly (data : List (BitVec 8)) : (ZMod 2)[X] :=
  messagePoly (data.flatMap bits)

theorem length_flatMap_bits (data : List (BitVec 8)) :
    (data.flatMap bits).length = 8 * data.length := by
  induction data with
  | nil => rfl
  | cons byte data ih =>
    rw [flatMap_cons, length_append, length_bits, ih, length_cons]
    omega

theorem generatorPoly_crc7 : generatorPoly crc7Poly = X ^ 7 + X ^ 3 + 1 := by
  have hword : wordPoly crc7Poly = X ^ 3 + 1 := by
    simp [wordPoly, crc7Poly, coefficient, Finset.sum_range_succ, add_comm]
  rw [generatorPoly, hword, add_assoc]

theorem generatorPoly_crc8 : generatorPoly crc8Poly = X ^ 8 + X ^ 5 + X ^ 4 + 1 := by
  have hword : wordPoly crc8Poly = X ^ 5 + X ^ 4 + 1 := by
    simp [wordPoly, crc8Poly, coefficient, Finset.sum_range_succ]
    ring
  rw [generatorPoly, hword, ← add_assoc, ← add_assoc]

theorem wordPoly_crc7 (data : List (BitVec 8)) :
    wordPoly (crc7 data) = (bytesPoly data * X ^ 7) %ₘ (X ^ 7 + X ^ 3 + 1) := by
  rw [crc7_eq_checksum, wordPoly_setWidth _ (by decide), checksum,
    wordPoly_foldl_clock (by decide), wordPoly_zero, zero_mul, add_zero, generatorPoly_crc7]
  rfl

theorem wordPoly_crc8 (buf : List (BitVec 8)) : wordPoly (crc8 buf) =
      (bytesPoly buf * X ^ 8 + wordPoly (0xFF : BitVec 8) * X ^ (8 * buf.length)) %ₘ
        (X ^ 8 + X ^ 5 + X ^ 4 + 1) := by
  rw [crc8_eq_foldl_clock, wordPoly_foldl_clock (by decide), length_flatMap_bits,
    generatorPoly_crc8]
  rfl

theorem take_bits_sdCmdPrep (index : BitVec 8) (arg : BitVec 32) :
    ∃ front, ((sdCmdPrep index arg).flatMap bits).take 47 =
      front.flatMap bits ++ (bits (crc7 front <<< 1 ||| 0x01)).take 7 := by
  refine ⟨(0x40 ||| (index &&& 0x3F)) :: be32 arg, ?_⟩
  have hlen : (((0x40 ||| (index &&& 0x3F)) :: be32 arg).flatMap bits).length = 40 :=
    length_flatMap_bits _
  rw [sdCmdPrep, flatMap_append, take_append, hlen,
    take_of_length_le (by rw [hlen]; decide), flatMap_singleton]

/-- **CHECKSUMS ARE REMAINDERS** for every message, and every command of an SD card is,
    but for its end bit, a multiple of the generator. -/
theorem crc_remainders (m : List (BitVec 8)) (index : BitVec 8) (arg : BitVec 32) :
    wordPoly (crc7 m) = (bytesPoly m * X ^ 7) %ₘ (X ^ 7 + X ^ 3 + 1) ∧
    wordPoly (crc8 m) =
      (bytesPoly m * X ^ 8 + wordPoly (0xFF : BitVec 8) * X ^ (8 * m.length)) %ₘ
        (X ^ 8 + X ^ 5 + X ^ 4 + 1) ∧
    X ^ 7 + X ^ 3 + 1 ∣ messagePoly (((sdCmdPrep index arg).flatMap bits).take 47) := by
  refine ⟨wordPoly_crc7 m, wordPoly_crc8 m, ?_⟩
  obtain ⟨front, hbits⟩ := take_bits_sdCmdPrep index arg
  have hzero := wordPoly_remainder (g := crc7Poly) (by decide)
    (front.flatMap bits ++ (bits (crc7 front <<< 1 ||| 0x01)).take 7)
  rw [remainder_frame, wordPoly_zero] at hzero
  rw [hbits, ← generatorPoly_crc7]
  exact (modByMonic_eq_zero_iff_dvd (generatorPoly_monic crc7Poly)).mp hzero.symm

end AvrtosCrcRemainders
