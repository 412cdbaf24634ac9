import Avrtos.Base.Lfsr

/-! # The pseudo-random generator (prng.c)

    The periods of the two registers are coprime. -/

namespace AvrtosPrng

open Function Lfsr

/-- `struct k_prng`. -/
structure Prng where
  lfsr32 : BitVec 32
  lfsr31 : BitVec 32
  deriving DecidableEq, Repr

def K_PRNG_POLY_MASK_32 : BitVec 32 := 0xB4BCD35C
def K_PRNG_POLY_MASK_31 : BitVec 32 := 0x7A5BC2E3

def zShiftLfsr (lfsr polyMask : BitVec 32) : BitVec 32 :=
  let feedback := lfsr &&& 1
  let lfsr := lfsr >>> 1
  if feedback ≠ 0 then lfsr ^^^ polyMask else lfsr

/-- `k_prng_get`. -/
def kPrngGet (prng : Prng) : Prng × BitVec 16 :=
  let lfsr32 := zShiftLfsr prng.lfsr32 K_PRNG_POLY_MASK_32
  let lfsr32 := zShiftLfsr lfsr32 K_PRNG_POLY_MASK_32
  let lfsr31 := zShiftLfsr prng.lfsr31 K_PRNG_POLY_MASK_31
  (⟨lfsr32, lfsr31⟩, lfsr32.setWidth 16 ^^^ lfsr31.setWidth 16)

/-- The state after a call. -/
def next (prng : Prng) : Prng := (kPrngGet prng).1

def Running (prng : Prng) : Prop :=
  prng.lfsr32 ≠ 0 ∧ 0 < prng.lfsr31.toNat ∧ prng.lfsr31.toNat < 2 ^ 31

theorem zShiftLfsr_eq (lfsr polyMask : BitVec 32) :
    zShiftLfsr lfsr polyMask = shift polyMask lfsr := by
  have hbit : lfsr &&& 1 ≠ 0 ↔ lfsr.getLsbD 0 = true := by
    have hone : (1 : BitVec 32) = BitVec.twoPow 32 0 := rfl
    rw [hone, BitVec.and_twoPow]
    cases lfsr.getLsbD 0 <;> decide
  rw [zShiftLfsr, shift]
  exact if_congr hbit rfl rfl

theorem prime_dvd_32 {p : Nat} (hp : p.Prime) (h : p ∣ 2 ^ 32 - 1) :
    p = 3 ∨ p = 5 ∨ p = 17 ∨ p = 257 ∨ p = 65537 := by
  have hfactors : 2 ^ 32 - 1 = 3 * (5 * (17 * (257 * 65537))) := by norm_num
  rw [hfactors, hp.dvd_mul, hp.dvd_mul, hp.dvd_mul, hp.dvd_mul] at h
  have hprime : ∀ q, q.Prime → p ∣ q → p = q := fun q hq => (Nat.prime_dvd_prime_iff_eq hp hq).mp
  rcases h with h | h | h | h | h
  · exact Or.inl (hprime 3 (by norm_num) h)
  · exact Or.inr (Or.inl (hprime 5 (by norm_num) h))
  · exact Or.inr (Or.inr (Or.inl (hprime 17 (by norm_num) h)))
  · exact Or.inr (Or.inr (Or.inr (Or.inl (hprime 257 (by norm_num) h))))
  · exact Or.inr (Or.inr (Or.inr (Or.inr (hprime 65537 (by norm_num) h))))

theorem minimalPeriod_32 {v : BitVec 32} (hv : v ∈ States 32 31) :
    minimalPeriod (shift K_PRNG_POLY_MASK_32) v = 2 ^ 32 - 1 := by
  refine minimalPeriod_shift (by decide) (by decide) (by decide) (by decide +kernel) ?_ hv
  intro p hp hdvd
  rcases prime_dvd_32 hp hdvd with rfl | rfl | rfl | rfl | rfl <;> decide +kernel

theorem prime_31 : (2 ^ 31 - 1).Prime := lucas_lehmer_sufficiency 31 (by norm_num) (by norm_num)

theorem minimalPeriod_31 {v : BitVec 32} (hv : v ∈ States 32 30) :
    minimalPeriod (shift K_PRNG_POLY_MASK_31) v = 2 ^ 31 - 1 := by
  refine minimalPeriod_shift (by decide) (by decide) (by decide) (by decide +kernel) ?_ hv
  intro p hp hdvd
  obtain rfl : p = 2 ^ 31 - 1 := (Nat.prime_dvd_prime_iff_eq hp prime_31).mp hdvd
  decide +kernel

def registers (prng : Prng) : BitVec 32 × BitVec 32 := (prng.lfsr32, prng.lfsr31)

theorem registers_injective : Injective registers := by
  rintro ⟨a, b⟩ ⟨c, d⟩ h
  obtain ⟨rfl, rfl⟩ := Prod.mk.inj h
  rfl

theorem registers_next (prng : Prng) : registers (next prng) =
      Prod.map (shift K_PRNG_POLY_MASK_32)^[2] (shift K_PRNG_POLY_MASK_31) (registers prng) := by
  rw [next, kPrngGet, zShiftLfsr_eq, zShiftLfsr_eq, zShiftLfsr_eq]
  rfl

theorem semiconj_next : Semiconj registers next
    (Prod.map (shift K_PRNG_POLY_MASK_32)^[2] (shift K_PRNG_POLY_MASK_31)) :=
  registers_next

theorem running_iff (prng : Prng) :
    Running prng ↔ prng.lfsr32 ∈ States 32 31 ∧ prng.lfsr31 ∈ States 32 30 := by
  have hpos : 0 < prng.lfsr31.toNat ↔ prng.lfsr31 ≠ 0#32 := by
    rw [Nat.pos_iff_ne_zero, ne_eq, ne_eq, BitVec.toNat_eq]
    rfl
  rw [Running, hpos]
  exact and_congr_left' ⟨fun h => ⟨h, prng.lfsr32.isLt⟩, fun h => h.1⟩

theorem running_next {prng : Prng} (h : Running prng) : Running (next prng) := by
  rw [running_iff] at h ⊢
  have hnext := registers_next prng
  obtain ⟨h32, h31⟩ := Prod.mk.inj hnext
  rw [h32, h31]
  refine ⟨?_, shift_mem_states (by decide) (by decide) h.2⟩
  exact shift_mem_states (by decide) (by decide) (shift_mem_states (by decide) (by decide) h.1)

theorem minimalPeriod_next {prng : Prng} (h : Running prng) :
    minimalPeriod next prng = (2 ^ 32 - 1) * (2 ^ 31 - 1) := by
  obtain ⟨h32, h31⟩ := (running_iff prng).mp h
  -- the period of the pair, since the pair is the state
  have hpair : minimalPeriod next prng =
      minimalPeriod (Prod.map (shift K_PRNG_POLY_MASK_32)^[2] (shift K_PRNG_POLY_MASK_31))
        (registers prng) := by
    refine minimalPeriod_eq_minimalPeriod_iff.mpr fun n => ?_
    rw [IsPeriodicPt, IsPeriodicPt, IsFixedPt, IsFixedPt, ← semiconj_next.iterate_right n prng]
    exact registers_injective.eq_iff.symm
  -- two shifts in a call: 2 does not divide the period
  have htwice : minimalPeriod (shift K_PRNG_POLY_MASK_32)^[2] prng.lfsr32 = 2 ^ 32 - 1 := by
    rw [minimalPeriod_iterate_eq_div_gcd two_ne_zero, minimalPeriod_32 h32]
    norm_num
  rw [hpair, minimalPeriod_prodMap]
  refine Eq.trans (congrArg₂ Nat.lcm htwice (minimalPeriod_31 h31)) ?_
  exact Nat.Coprime.lcm_eq_mul (by norm_num)

/-- **THE PERIOD OF THE GENERATOR** is the product of the periods of its registers. -/
theorem prng_period (prng : Prng) (h : Running prng) :
    Running (kPrngGet prng).1 ∧
    ∀ i j, next^[i] prng = next^[j] prng ↔ i ≡ j [MOD (2 ^ 32 - 1) * (2 ^ 31 - 1)] := by
  refine ⟨running_next h, fun i j => ?_⟩
  have hperiod := minimalPeriod_next h
  rw [← hperiod]
  refine iterate_eq_iterate_iff ?_ i j
  rw [hperiod]
  norm_num

def K_PRNG_DEFAULT_LFSR32 : BitVec 32 := 0x000ABCDE
def K_PRNG_DEFAULT_LFSR31 : BitVec 32 := 0x23456789

/-- The default seeds. -/
def seeds : Prng := ⟨K_PRNG_DEFAULT_LFSR32, K_PRNG_DEFAULT_LFSR31⟩

theorem prng_period_seeds :
    Running seeds ∧ Running (kPrngGet seeds).1 ∧
    ∀ i j, next^[i] seeds = next^[j] seeds ↔ i ≡ j [MOD (2 ^ 32 - 1) * (2 ^ 31 - 1)] := by
  have hseeds : Running seeds := ⟨by decide, by decide, by decide⟩
  exact ⟨hseeds, prng_period seeds hseeds⟩

end AvrtosPrng
