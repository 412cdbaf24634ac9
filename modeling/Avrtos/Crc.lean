import Avrtos.Base.Crc

/-! # Checksums (`subsystems/crc.c`)

    The loops over bits are those of the circuit of `Crc`, one register place further up for
    `crc7`. -/

namespace AvrtosCrc

open BitVec List Crc

def crc7Shift (crc : BitVec 8) : BitVec 8 :=
  if crc &&& 0x80 ≠ 0 then
    (crc.setWidth 16 <<< 1 ^^^ 0x89 <<< 1 : BitVec 16).setWidth 8
  else crc <<< 1

def crc7Byte (crc byte : BitVec 8) : BitVec 8 := crc7Shift^[8] (crc ^^^ byte)

/-- `crc7`. -/
def crc7 (data : List (BitVec 8)) : BitVec 8 := data.foldl crc7Byte 0 >>> 1

def crc8Shift (crc : BitVec 8) : BitVec 8 :=
  if crc &&& 0x80 ≠ 0 then (crc.setWidth 16 <<< 1 ^^^ 0x31 : BitVec 16).setWidth 8
  else crc <<< 1

def crc8Byte (crc byte : BitVec 8) : BitVec 8 := crc8Shift^[8] (crc ^^^ byte)

/-- `crc8`. -/
def crc8 (buf : List (BitVec 8)) : BitVec 8 := buf.foldl crc8Byte 0xFF

/-- The generator `x^7 + x^3 + 1`. -/
def crc7Poly : BitVec 7 := 0x09

def aligned (reg : BitVec 7) : BitVec 8 := reg.setWidth 8 <<< 1

theorem crc7Shift_eq (crc : BitVec 8) :
    crc7Shift crc = crc <<< 1 ^^^ aligned (if crc.msb then crc7Poly else 0#7) := by
  revert crc
  decide +kernel

theorem aligned_xor (a b : BitVec 7) : aligned (a ^^^ b) = aligned a ^^^ aligned b := by
  rw [aligned, setWidth_xor, shiftLeft_xor_distrib]
  rfl

theorem aligned_shiftLeft (reg : BitVec 7) : aligned (reg <<< 1) = aligned reg <<< 1 := by
  revert reg
  decide

theorem msb_aligned (reg : BitVec 7) : (aligned reg).msb = reg.msb := by
  revert reg
  decide

theorem crc7Shift_aligned (reg : BitVec 7) (byte : BitVec 8) (i : Nat) :
    crc7Shift (aligned reg ^^^ byte <<< i) =
      aligned (clock crc7Poly reg (byte.getMsbD i)) ^^^ byte <<< (i + 1) := by
  have hmsb : (byte <<< i).msb = byte.getMsbD i := by
    rw [msb_eq_getMsbD_zero, getMsbD_shiftLeft, Nat.zero_add]
  rw [crc7Shift_eq, msb_xor, msb_aligned, hmsb, clock, aligned_xor, aligned_shiftLeft,
    shiftLeft_xor_distrib, shiftLeft_add]
  ac_rfl

theorem crc7Byte_aligned (reg : BitVec 7) (byte : BitVec 8) :
    crc7Byte (aligned reg) byte = aligned ((bits byte).foldl (clock crc7Poly) reg) := by
  have hsteps : ∀ i ≤ 8, crc7Shift^[i] (aligned reg ^^^ byte) =
      aligned (((range i).map byte.getMsbD).foldl (clock crc7Poly) reg) ^^^ byte <<< i := by
    intro i hi
    induction i with
    | zero => simp
    | succ i ih =>
      rw [Function.iterate_succ_apply', ih (by omega), crc7Shift_aligned,
        range_succ, map_append, foldl_append]
      rfl
  rw [crc7Byte, hsteps 8 (Nat.le_refl 8), shiftLeft_eq_zero (Nat.le_refl 8),
    xor_zero, bits]

theorem crc7_eq_checksum (data : List (BitVec 8)) :
    crc7 data = (checksum crc7Poly (data.flatMap bits)).setWidth 8 := by
  have hrun : ∀ reg, data.foldl crc7Byte (aligned reg) =
      aligned ((data.flatMap bits).foldl (clock crc7Poly) reg) := by
    induction data with
    | nil => exact fun _ => rfl
    | cons byte data ih =>
      intro reg
      rw [foldl_cons, crc7Byte_aligned, ih, flatMap_cons, foldl_append]
  have hback : ∀ reg : BitVec 7, aligned reg >>> 1 = reg.setWidth 8 := by decide
  have hzero : aligned 0#7 = 0 := by decide
  rw [crc7, ← hzero, hrun, hback, checksum]

theorem remainder_frame (data : List (BitVec 8)) : remainder crc7Poly
      (data.flatMap bits ++ (bits (crc7 data <<< 1 ||| 0x01)).take 7) = 0#7 := by
  have hlast : ∀ reg : BitVec 7, (bits (reg.setWidth 8 <<< 1 ||| 0x01)).take 7 = bits reg := by
    decide +kernel
  rw [crc7_eq_checksum, hlast, remainder_append_checksum crc7Poly (by decide)]

def crc8Poly : BitVec 8 := 0x31

theorem crc8Shift_eq : crc8Shift = shift crc8Poly := by
  funext crc
  revert crc
  decide +kernel

/-- **THE CHECKSUM**. -/
theorem crc8_eq_foldl_clock (buf : List (BitVec 8)) :
    crc8 buf = (buf.flatMap bits).foldl (clock crc8Poly) 0xFF := by
  have hrun : ∀ crc, buf.foldl crc8Byte crc = (buf.flatMap bits).foldl (clock crc8Poly) crc := by
    induction buf with
    | nil => exact fun _ => rfl
    | cons byte buf ih =>
      intro crc
      rw [foldl_cons, flatMap_cons, foldl_append, ih, crc8Byte, crc8Shift_eq,
        foldl_clock_bits crc8Poly (by decide)]
  exact hrun 0xFF

end AvrtosCrc
