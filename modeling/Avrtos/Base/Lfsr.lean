import Mathlib

/-! # Linear feedback shift registers

    Shifting is linear, so states multiply and the period follows from few powers. -/

namespace Lfsr

open Function BitVec

section Period

variable {σ : Type} {f : σ → σ} {x : σ} {n : Nat}

theorem minimalPeriod_eq_of_prime (h : f^[n] x = x)
    (hp : ∀ p, p.Prime → p ∣ n → f^[n / p] x ≠ x) : minimalPeriod f x = n := by
  have hdvd : minimalPeriod f x ∣ n := IsPeriodicPt.minimalPeriod_dvd h
  obtain ⟨c, hc⟩ := hdvd
  by_cases hc1 : c = 1
  · rw [hc, hc1, Nat.mul_one]
  · obtain ⟨p, hprime, d, rfl⟩ := Nat.exists_prime_and_dvd hc1
    refine absurd ?_ (hp p hprime ⟨minimalPeriod f x * d, by rw [hc]; ring⟩)
    have hquot : n / p = minimalPeriod f x * d := by
      rw [hc, Nat.mul_left_comm]
      exact Nat.mul_div_cancel_left _ hprime.pos
    rw [hquot]
    exact (isPeriodicPt_minimalPeriod f x).mul_const d

/-- **A CYCLE THROUGH ALL STATES**. -/
theorem minimalPeriod_eq_of_ncard {S : Set σ} {y : σ} (hS : Set.MapsTo f S S) (hx : x ∈ S)
    (hcard : S.ncard = minimalPeriod f x) (hpos : 0 < minimalPeriod f x) (hy : y ∈ S) :
    minimalPeriod f y = minimalPeriod f x := by
  -- the states of the cycle are different, so they are all there are
  have hsub : (fun i => f^[i] x) '' Set.Iio (minimalPeriod f x) ⊆ S := by
    rintro _ ⟨i, -, rfl⟩
    exact hS.iterate i hx
  have hfin : S.Finite := Set.finite_of_ncard_pos (hcard ▸ hpos)
  have hcycle : ((fun i => f^[i] x) '' Set.Iio (minimalPeriod f x)).ncard = S.ncard := by
    rw [Set.InjOn.ncard_image iterate_injOn_Iio_minimalPeriod, hcard]
    simp [Set.ncard_eq_toFinset_card']
  rw [← Set.eq_of_subset_of_ncard_le hsub hcycle.ge hfin] at hy
  obtain ⟨i, -, rfl⟩ := hy
  exact minimalPeriod_apply_iterate (minimalPeriod_pos_iff_mem_periodicPts.mp hpos) i

theorem iterate_eq_iterate_iff (hpos : 0 < minimalPeriod f x) (i j : Nat) :
    f^[i] x = f^[j] x ↔ i ≡ j [MOD minimalPeriod f x] := by
  rw [← iterate_mod_minimalPeriod_eq (n := i), ← iterate_mod_minimalPeriod_eq (n := j),
    iterate_eq_iterate_iff_of_lt_minimalPeriod (Nat.mod_lt _ hpos) (Nat.mod_lt _ hpos)]
  rfl

end Period

variable {w : Nat} {mask u v : BitVec w} {n : Nat}

/-- One shift of the register. -/
def shift (mask v : BitVec w) : BitVec w :=
  if v.getLsbD 0 then v >>> 1 ^^^ mask else v >>> 1

def tap (mask : BitVec w) (b : Bool) : BitVec w := if b then mask else 0#w

theorem tap_xor (b c : Bool) : tap mask (b ^^ c) = tap mask b ^^^ tap mask c := by
  cases b <;> cases c <;> simp [tap]

theorem shift_eq (mask v : BitVec w) : shift mask v = v >>> 1 ^^^ tap mask (v.getLsbD 0) := by
  rw [shift, tap]
  by_cases h : v.getLsbD 0 = true
  · rw [if_pos h, if_pos h]
  · rw [if_neg h, if_neg h, xor_zero]

theorem shift_xor (u v : BitVec w) : shift mask (u ^^^ v) = shift mask u ^^^ shift mask v := by
  rw [shift_eq, shift_eq, shift_eq, getLsbD_xor, tap_xor, ushiftRight_xor_distrib]
  ac_rfl

theorem shift_zero : shift mask 0#w = 0#w := by
  simp [shift]

theorem iterate_shift_xor (k : Nat) (u v : BitVec w) :
    (shift mask)^[k] (u ^^^ v) = (shift mask)^[k] u ^^^ (shift mask)^[k] v := by
  induction k generalizing u v with
  | zero => rfl
  | succ k ih => rw [iterate_succ_apply, shift_xor, ih, iterate_succ_apply, iterate_succ_apply]

theorem iterate_shift_zero (k : Nat) : (shift mask)^[k] 0#w = 0#w :=
  iterate_fixed shift_zero k

def mul (mask : BitVec w) : Nat → BitVec w → BitVec w → BitVec w
  | 0, _, _ => 0#w
  | k + 1, u, v => (if u.getLsbD k then v else 0#w) ^^^ mul mask k u (shift mask v)

theorem iterate_shift_mul (k j : Nat) (u v : BitVec w) :
    (shift mask)^[j] (mul mask k u v) = mul mask k u ((shift mask)^[j] v) := by
  induction k generalizing v with
  | zero => exact iterate_shift_zero j
  | succ k ih =>
    rw [mul, mul, iterate_shift_xor, ih, ← iterate_succ_apply, iterate_succ_apply']
    by_cases h : u.getLsbD k = true
    · rw [if_pos h, if_pos h]
    · rw [if_neg h, if_neg h, iterate_shift_zero]

theorem shift_twoPow {k : Nat} (hk : k + 1 < w) :
    shift mask (twoPow w (k + 1)) = twoPow w k := by
  have hlow : (twoPow w (k + 1)).getLsbD 0 = false := by
    simp [getLsbD_twoPow]
  rw [shift_eq, hlow]
  refine eq_of_getLsbD_eq fun i hi => ?_
  simp only [tap, Bool.false_eq_true, if_false, xor_zero, getLsbD_ushiftRight,
    getLsbD_twoPow]
  grind

/-- The bits below `k`. -/
def low (k : Nat) (u : BitVec w) : BitVec w := (u.setWidth k).setWidth w

theorem getLsbD_low (k i : Nat) (u : BitVec w) :
    (low k u).getLsbD i = (decide (i < k) && u.getLsbD i) := by
  simp only [low, getLsbD_setWidth]
  by_cases hi : i < w
  · simp [hi]
  · simp [hi, getLsbD_of_ge u i (Nat.le_of_not_lt hi)]

theorem low_eq (h : u.toNat < 2 ^ n) : low n u = u := by
  refine eq_of_getLsbD_eq fun i _ => ?_
  rw [getLsbD_low]
  by_cases hi : i < n
  · rw [decide_eq_true hi, Bool.true_and]
  · have hbit : u.getLsbD i = false := by
      rw [BitVec.getLsbD, Nat.testBit_lt_two_pow]
      exact Nat.lt_of_lt_of_le h (Nat.pow_le_pow_right Nat.two_pos (Nat.le_of_not_lt hi))
    rw [hbit, Bool.and_false]

theorem mul_twoPow {k : Nat} (hk : k < w) (u : BitVec w) :
    mul mask (k + 1) u (twoPow w k) = low (k + 1) u := by
  induction k with
  | zero =>
    rw [mul, mul, xor_zero]
    refine eq_of_getLsbD_eq fun i hi => ?_
    rw [getLsbD_low]
    by_cases hbit : u.getLsbD 0 = true
    · rw [if_pos hbit, getLsbD_twoPow]
      grind
    · rw [if_neg hbit]
      grind
  | succ k ih =>
    rw [mul, shift_twoPow hk, ih (Nat.lt_of_succ_lt hk)]
    refine eq_of_getLsbD_eq fun i hi => ?_
    rw [getLsbD_xor, getLsbD_low, getLsbD_low]
    by_cases hbit : u.getLsbD (k + 1) = true
    · rw [if_pos hbit, getLsbD_twoPow]
      grind
    · rw [if_neg hbit]
      grind

theorem toNat_shift_lt (hmask : mask.toNat < 2 ^ n) (hv : v.toNat < 2 ^ n) :
    (shift mask v).toNat < 2 ^ n := by
  have hhalf : (v >>> 1).toNat < 2 ^ n := by
    rw [toNat_ushiftRight, Nat.shiftRight_eq_div_pow]
    exact Nat.lt_of_le_of_lt (Nat.div_le_self _ _) hv
  rw [shift]
  split
  · rw [toNat_xor]
    exact Nat.xor_lt_two_pow hhalf hmask
  · exact hhalf

theorem toNat_iterate_shift_lt (hmask : mask.toNat < 2 ^ n) (hv : v.toNat < 2 ^ n) (i : Nat) :
    ((shift mask)^[i] v).toNat < 2 ^ n := by
  induction i generalizing v with
  | zero => exact hv
  | succ i ih => exact ih (toNat_shift_lt hmask hv)

theorem toNat_twoPow_lt (hn : n < w) : (twoPow w n).toNat < 2 ^ (n + 1) := by
  rw [toNat_twoPow_of_lt hn]
  exact Nat.pow_lt_pow_right Nat.one_lt_two (Nat.lt_succ_self n)

theorem iterate_add_top (hn : n < w) (hmask : mask.toNat < 2 ^ (n + 1)) (i j : Nat) :
    (shift mask)^[i + j] (twoPow w n) =
      mul mask (n + 1) ((shift mask)^[i] (twoPow w n))
        ((shift mask)^[j] (twoPow w n)) := by
  have hlt := toNat_iterate_shift_lt hmask (toNat_twoPow_lt hn) i
  rw [← iterate_shift_mul, mul_twoPow hn, low_eq hlt, ← iterate_add_apply, Nat.add_comm]

def power (mask : BitVec w) (n : Nat) : Nat → Nat → BitVec w
  | 0, _ => twoPow w n
  | k + 1, i =>
      let half := power mask n k (i / 2)
      let square := mul mask (n + 1) half half
      if i % 2 = 1 then shift mask square else square

theorem power_eq (hn : n < w) (hmask : mask.toNat < 2 ^ (n + 1)) {k i : Nat} (hi : i < 2 ^ k) :
    power mask n k i = (shift mask)^[i] (twoPow w n) := by
  induction k generalizing i with
  | zero =>
    obtain rfl : i = 0 := Nat.lt_one_iff.mp hi
    rfl
  | succ k ih =>
    have hhalf : i / 2 < 2 ^ k := by
      rw [Nat.pow_succ] at hi
      omega
    have hsquare : mul mask (n + 1) (power mask n k (i / 2)) (power mask n k (i / 2)) =
        (shift mask)^[i / 2 + i / 2] (twoPow w n) := by
      rw [ih hhalf, ← iterate_add_top hn hmask]
    rw [power, hsquare]
    by_cases hodd : i % 2 = 1
    · rw [if_pos hodd, ← iterate_succ_apply' (shift mask)]
      congr 1
      have heq : (i / 2 + i / 2).succ = i := by omega
      rw [heq]
    · rw [if_neg hodd]
      have heq : i / 2 + i / 2 = i := by omega
      rw [heq]

def States (w n : Nat) : Set (BitVec w) := {v | v ≠ 0#w ∧ v.toNat < 2 ^ (n + 1)}

theorem ncard_states (hn : n < w) : (States w n).ncard = 2 ^ (n + 1) - 1 := by
  have himage : BitVec.toNat '' States w n = (Finset.Ioo 0 (2 ^ (n + 1)) : Set Nat) := by
    ext i
    rw [Finset.coe_Ioo]
    constructor
    · rintro ⟨v, ⟨hne, hlt⟩, rfl⟩
      refine ⟨Nat.pos_of_ne_zero fun h => hne ?_, hlt⟩
      exact eq_of_toNat_eq h
    · rintro ⟨hpos, hlt⟩
      have hw : i < 2 ^ w := Nat.lt_of_lt_of_le hlt (Nat.pow_le_pow_right Nat.two_pos hn)
      have hi : (BitVec.ofNat w i).toNat = i := by
        rw [toNat_ofNat, Nat.mod_eq_of_lt hw]
      refine ⟨BitVec.ofNat w i, ⟨?_, ?_⟩, hi⟩
      · intro h
        rw [h] at hi
        exact Nat.ne_of_lt hpos (toNat_zero.symm.trans hi)
      · rw [hi]
        exact hlt
  have hinj : Set.InjOn BitVec.toNat (States w n) := fun u _ v _ h => eq_of_toNat_eq h
  rw [← hinj.ncard_image, himage, Set.ncard_coe_finset, Nat.card_Ioo]
  rfl

theorem shift_mem_states (hmask : mask.toNat < 2 ^ (n + 1)) (htop : mask.getLsbD n = true)
    (hv : v ∈ States w n) : shift mask v ∈ States w n := by
  obtain ⟨hne, hlt⟩ := hv
  refine ⟨?_, toNat_shift_lt hmask hlt⟩
  intro hzero
  by_cases hbit : v.getLsbD 0 = true
  · -- the tap of the highest bit is seen
    rw [shift, if_pos hbit] at hzero
    have hn := congrArg (fun x : BitVec w => x.getLsbD n) hzero
    have hv : v.getLsbD (1 + n) = false := by
      rw [BitVec.getLsbD, Nat.testBit_lt_two_pow]
      rw [Nat.add_comm]
      exact hlt
    simp [getLsbD_ushiftRight, hv, htop] at hn
  · rw [shift, if_neg hbit] at hzero
    have hhalf := congrArg BitVec.toNat hzero
    rw [toNat_ushiftRight, Nat.shiftRight_eq_div_pow, toNat_zero] at hhalf
    refine hne (eq_of_toNat_eq ?_)
    have hodd : v.toNat % 2 ≠ 1 := by
      intro h
      refine hbit ?_
      rw [BitVec.getLsbD, Nat.testBit_zero, h]
      rfl
    rw [toNat_zero]
    omega

theorem minimalPeriod_shift (hn : n < w) (hmask : mask.toNat < 2 ^ (n + 1))
    (htop : mask.getLsbD n = true)
    (hperiod : power mask n (n + 1) (2 ^ (n + 1) - 1) = twoPow w n)
    (hprime : ∀ p, p.Prime → p ∣ 2 ^ (n + 1) - 1 →
      power mask n (n + 1) ((2 ^ (n + 1) - 1) / p) ≠ twoPow w n)
    (hv : v ∈ States w n) : minimalPeriod (shift mask) v = 2 ^ (n + 1) - 1 := by
  have hpos : 0 < 2 ^ (n + 1) - 1 := by
    have : 2 ≤ 2 ^ (n + 1) := Nat.le_self_pow (Nat.succ_ne_zero n) 2
    omega
  have hlt : ∀ i, i ≤ 2 ^ (n + 1) - 1 → i < 2 ^ (n + 1) := by
    intro i hi
    omega
  have htopPeriod : minimalPeriod (shift mask) (twoPow w n) = 2 ^ (n + 1) - 1 := by
    refine minimalPeriod_eq_of_prime ?_ ?_
    · rw [← power_eq hn hmask (hlt _ (Nat.le_refl _)), hperiod]
    · intro p hp hdvd
      rw [← power_eq hn hmask (hlt _ (Nat.div_le_self _ p))]
      exact hprime p hp hdvd
  have hmem : twoPow w n ∈ States w n := by
    refine ⟨?_, toNat_twoPow_lt hn⟩
    intro h
    have hbit : (twoPow w n).getLsbD n = true := by simp [hn]
    rw [h] at hbit
    simp at hbit
  rw [minimalPeriod_eq_of_ncard (fun v hv => shift_mem_states hmask htop hv) hmem ?_ ?_ hv,
    htopPeriod]
  · rw [htopPeriod, ncard_states hn]
  · rw [htopPeriod]
    exact hpos

end Lfsr
