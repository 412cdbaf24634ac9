import Mathlib

/-! # Cyclic redundancy checks

    Long division and the circuit without the trailing zeros leave the same remainder. -/

namespace Crc

open Function BitVec List

variable {w : Nat} (g : BitVec w)

/-- The register moves one place. -/
def shift (reg : BitVec w) : BitVec w := reg <<< 1 ^^^ if reg.msb then g else 0#w

/-- A bit as a register. -/
def unit (w : Nat) (bit : Bool) : BitVec w := (BitVec.ofBool bit).setWidth w

def feed (reg : BitVec w) (bit : Bool) : BitVec w := shift g reg ^^^ unit w bit

/-- The remainder of a message. -/
def remainder (message : List Bool) : BitVec w := message.foldl (feed g) 0#w

def clock (reg : BitVec w) (bit : Bool) : BitVec w :=
  reg <<< 1 ^^^ if reg.msb ^^ bit then g else 0#w

/-- The checksum of a message. -/
def checksum (message : List Bool) : BitVec w := message.foldl (clock g) 0#w

def bits {n : Nat} (x : BitVec n) : List Bool := (range n).map x.getMsbD

theorem length_bits {n : Nat} (x : BitVec n) : (bits x).length = n := by
  rw [bits, length_map, length_range]

theorem ite_xor (c c' : Bool) :
    (if c ^^ c' then g else 0#w) = (if c then g else 0#w) ^^^ (if c' then g else 0#w) := by
  cases c <;> cases c' <;> simp

theorem shift_xor (a b : BitVec w) : shift g (a ^^^ b) = shift g a ^^^ shift g b := by
  unfold shift
  rw [msb_xor, shiftLeft_xor_distrib, ite_xor]
  ac_rfl

theorem iterate_shift_xor (n : Nat) (a b : BitVec w) :
    (shift g)^[n] (a ^^^ b) = (shift g)^[n] a ^^^ (shift g)^[n] b := by
  induction n generalizing a b with
  | zero => rfl
  | succ n ih => rw [iterate_succ_apply, shift_xor, ih]; rfl

theorem shift_zero : shift g 0#w = 0#w := by
  simp [shift]

/-- What is in the register at first only adds its shifts. -/
theorem foldl_feed (message : List Bool) (reg : BitVec w) : message.foldl (feed g) reg =
      (shift g)^[message.length] reg ^^^ remainder g message := by
  induction message generalizing reg with
  | nil => simp [remainder]
  | cons bit message ih =>
    have hfirst : remainder g (bit :: message) =
        (shift g)^[message.length] (unit w bit) ^^^ remainder g message := by
      rw [remainder, foldl_cons, ih, feed, shift_zero, zero_xor]
    rw [foldl_cons, ih, hfirst, feed, iterate_shift_xor, length_cons,
      iterate_succ_apply, xor_assoc]

theorem remainder_take_bits (c : BitVec w) {n : Nat} (hn : n ≤ w) :
    remainder g ((range n).map c.getMsbD) = c >>> (w - n) := by
  induction n with
  | zero => rw [Nat.sub_zero, ushiftRight_eq_zero (Nat.le_refl w)]; rfl
  | succ n ih =>
    have hmsb : (c >>> (w - n)).msb = false := by
      rw [msb_ushiftRight, decide_eq_true (by omega)]
      rfl
    rw [remainder, range_succ, map_append, foldl_append]
    rw [remainder] at ih
    rw [ih (by omega)]
    simp only [map_cons, map_nil, foldl_cons, foldl_nil, feed, shift, hmsb]
    apply eq_of_getLsbD_eq
    intro i hi
    cases i with
    | zero =>
      have hbit : c.getMsbD n = c.getLsbD (w - (n + 1)) := by
        rw [getMsbD_eq_getLsbD, decide_eq_true (by omega), Bool.true_and]
        congr 1
        omega
      simp [unit, hi, hbit]
    | succ i =>
      have hplace : w - n + i = w - (n + 1) + (i + 1) := by omega
      simp [unit, hi, hplace]

theorem remainder_bits (c : BitVec w) : remainder g (bits c) = c := by
  rw [bits, remainder_take_bits g c (Nat.le_refl w), Nat.sub_self]
  exact ushiftRight_zero c

theorem iterate_shift_one_of_lt {n : Nat} (hn : n < w) : (shift g)^[n] 1#w = twoPow w n := by
  induction n with
  | zero => exact twoPow_zero.symm
  | succ n ih =>
    have hmsb : (twoPow w n).msb = false := by
      rw [msb_twoPow, Bool.and_eq_false_iff]
      exact Or.inr (decide_eq_false (by omega))
    rw [iterate_succ_apply', ih (by omega), shift, hmsb, if_neg Bool.false_ne_true,
      xor_zero, twoPow_eq, twoPow_eq, shiftLeft_add]

theorem iterate_shift_one (hw : 0 < w) : (shift g)^[w] 1#w = g := by
  obtain ⟨n, hn⟩ : ∃ n, w = n + 1 := ⟨w - 1, by omega⟩
  have hmsb : (twoPow w n).msb = true := by
    rw [msb_twoPow, decide_eq_true (by omega), decide_eq_true (by omega)]
    rfl
  have hout : twoPow w n <<< 1 = 0#w := by
    rw [twoPow_eq, ← shiftLeft_add]
    exact shiftLeft_eq_zero (by omega)
  have hsteps : (shift g)^[w] 1#w = shift g ((shift g)^[n] 1#w) := by
    rw [← iterate_succ_apply' (shift g) n, Nat.succ_eq_add_one, ← hn]
  rw [hsteps, iterate_shift_one_of_lt g (by omega), shift, hmsb, if_pos rfl, hout, zero_xor]

theorem iterate_shift_unit (hw : 0 < w) (bit : Bool) :
    (shift g)^[w] (unit w bit) = if bit then g else 0#w := by
  cases bit with
  | false =>
    have hzero : unit w false = 0#w := by simp [unit]
    rw [hzero, iterate_fixed (shift_zero g)]
    rfl
  | true =>
    have hone : unit w true = 1#w := by
      apply eq_of_toNat_eq
      simp [unit]
    rw [hone, iterate_shift_one g hw]
    rfl

/-- **ONE BIT**. -/
theorem iterate_shift_feed (hw : 0 < w) (reg : BitVec w) (bit : Bool) :
    (shift g)^[w] (feed g reg bit) = clock g ((shift g)^[w] reg) bit := by
  rw [feed, iterate_shift_xor, iterate_shift_unit g hw, ← iterate_succ_apply,
    iterate_succ_apply', shift, clock, ite_xor, xor_assoc]

theorem iterate_shift_remainder (hw : 0 < w) (message : List Bool) :
    (shift g)^[w] (remainder g message) = checksum g message := by
  have hrun : ∀ reg, (shift g)^[w] (message.foldl (feed g) reg) =
      message.foldl (clock g) ((shift g)^[w] reg) := by
    induction message with
    | nil => exact fun _ => rfl
    | cons bit message ih =>
      intro reg
      rw [foldl_cons, foldl_cons, ih, iterate_shift_feed g hw]
  rw [remainder, hrun, iterate_fixed (shift_zero g), checksum]

theorem foldl_clock (message : List Bool) (reg : BitVec w) :
    message.foldl (clock g) reg = (shift g)^[message.length] reg ^^^ checksum g message := by
  induction message generalizing reg with
  | nil => simp [checksum]
  | cons bit message ih =>
    have hclock : clock g reg bit = shift g reg ^^^ clock g 0#w bit := by
      rw [clock, clock, shift, ite_xor, msb_zero, Bool.false_xor, zero_shiftLeft,
        zero_xor, xor_assoc]
    have hfirst : checksum g (bit :: message) =
        (shift g)^[message.length] (clock g 0#w bit) ^^^ checksum g message := by
      rw [checksum, foldl_cons, ih]
    rw [foldl_cons, ih, hfirst, hclock, iterate_shift_xor, length_cons,
      iterate_succ_apply, xor_assoc]

/-- **A WORD AT A TIME**. -/
theorem foldl_clock_bits (hw : 0 < w) (reg c : BitVec w) :
    (bits c).foldl (clock g) reg = (shift g)^[w] (reg ^^^ c) := by
  rw [foldl_clock, length_bits, ← iterate_shift_remainder g hw, remainder_bits, iterate_shift_xor]

theorem remainder_append_checksum (hw : 0 < w) (message : List Bool) :
    remainder g (message ++ bits (checksum g message)) = 0#w := by
  rw [remainder, foldl_append, foldl_feed, length_bits, remainder_bits, ← remainder,
    iterate_shift_remainder g hw, BitVec.xor_self]

end Crc
