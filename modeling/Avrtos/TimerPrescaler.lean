import Avrtos.Defines

/-! # Prescaler selection of the hardware timers (`drivers/timer.c`)

    The loop finds the smallest prescaler that fits, while the product fits in 32 bits. -/

namespace AvrtosTimerPrescaler

open BitVec List AvrtosDefines

/-- `TIMER_INDEX_EXISTS`. -/
def timerIndexExists (timersCount timIdx : Nat) : Prop := timIdx < timersCount

/-- `TIMER_INDEX_IS_16BITS`. -/
def is16bits (timIdx : Nat) : Bool := timIdx == 1 || timIdx == 3 || timIdx == 4 || timIdx == 5

/-- `timer_get_prescaler_value`. -/
def timerGetPrescalerValue : Nat → Int
  | 1 => 1
  | 2 => 8
  | 3 => 64
  | 4 => 256
  | 5 => 1024
  | _ => -EINVAL

/-- `timer2_get_presc_value`. -/
def timer2GetPrescValue : Nat → Int
  | 1 => 1
  | 2 => 8
  | 3 => 32
  | 4 => 64
  | 5 => 128
  | 6 => 256
  | 7 => 1024
  | _ => -EINVAL

/-- `TIMER_CALC_COUNTER_VALUE`, in the `unsigned long` arithmetic of the source. -/
def timerCalcCounterValue (fCpu periodUs : BitVec 32) (prescaler : Int) : BitVec 32 :=
  fCpu / 1000000 * periodUs / BitVec.ofInt 32 prescaler - 1

structure Selection where
  ret : Int
  counter : Option (BitVec 16)
deriving DecidableEq, Repr

def calcLoop (value : Nat → Int) (counterOf : Int → BitVec 32) (maxCounter : BitVec 16) :
    Nat → Nat → Option Selection
  | 0, _ => none
  | n + 1, prescalerId =>
      let prescalerVal := value (prescalerId + 1)
      if prescalerVal < 0 then
        some ⟨-ENOTSUP, none⟩
      else
        let calcCounter := counterOf prescalerVal
        if calcCounter > maxCounter.setWidth 32 then
          calcLoop value counterOf maxCounter n (prescalerId + 1)
        else
          some ⟨int8 (prescalerId + 1), some (calcCounter.setWidth 16)⟩

/-- `timer_calc_prescaler`. -/
def timerCalcPrescaler (fCpu : BitVec 32) (timerIndex : Nat) (periodUs : BitVec 32) :
    Option Selection :=
  calcLoop (if timerIndex = 2 then timer2GetPrescValue else timerGetPrescalerValue)
    (timerCalcCounterValue fCpu periodUs) (if is16bits timerIndex then 0xFFFF else 0xFF) 256 0

def supported (timerIndex : Nat) : List (Nat × Nat) :=
  if timerIndex = 2 then [(1, 1), (2, 8), (3, 32), (4, 64), (5, 128), (6, 256), (7, 1024)]
  else [(1, 1), (2, 8), (3, 64), (4, 256), (5, 1024)]

def maxCount (timerIndex : Nat) : Nat :=
  if timerIndex = 0 ∨ timerIndex = 2 then 255 else 65535

def Fits (timerIndex clocks p : Nat) : Prop :=
  1 ≤ clocks / p ∧ clocks / p ≤ maxCount timerIndex + 1
deriving Decidable

def NoneFits (timerIndex clocks : Nat) : Prop :=
  ∀ e ∈ supported timerIndex, ¬ Fits timerIndex clocks e.2

structure Selects (timerIndex clocks : Nat) (r : Selection) : Prop where
  smallest : ∀ e ∈ supported timerIndex, Fits timerIndex clocks e.2 →
    (∀ e' ∈ supported timerIndex, Fits timerIndex clocks e'.2 → e.2 ≤ e'.2) →
    r.ret = e.1 ∧ r.counter.map BitVec.toNat = some (clocks / e.2 - 1)
  unsupported : r.ret = -ENOTSUP ↔ NoneFits timerIndex clocks

def clocks (fCpu periodUs : BitVec 32) : Nat := fCpu.toNat / 1000000 * periodUs.toNat

def found (clocks : Nat) : Option (Nat × Nat) → Selection
  | some e => ⟨e.1, some (BitVec.ofNat 16 (clocks / e.2 - 1))⟩
  | none => ⟨-ENOTSUP, none⟩

def Tabulates (value : Nat → Int) : List (Nat × Nat) → Nat → Prop
  | [], id => value (id + 1) < 0
  | e :: es, id => e.1 = id + 1 ∧ value (id + 1) = e.2 ∧ e.2 < 2 ^ 32 ∧
      Tabulates value es (id + 1)

theorem calcCounter_gt_iff {timerIndex y p : Nat} {m : BitVec 16}
    (hm : m.toNat = maxCount timerIndex) (hy : y < 2 ^ 32) (hp : p < 2 ^ 32) :
    BitVec.ofNat 32 y / BitVec.ofNat 32 p - 1 > m.setWidth 32 ↔ ¬ Fits timerIndex y p := by
  have hq : y / p ≤ y := Nat.div_le_self y p
  have hm' := m.isLt
  have hone : (1 : BitVec 32).toNat = 1 := rfl
  rw [gt_iff_lt, lt_def, toNat_sub, toNat_udiv, toNat_setWidth,
    toNat_ofNat, toNat_ofNat, Nat.mod_eq_of_lt hy, Nat.mod_eq_of_lt hp, hone,
    Fits, ← hm]
  generalize y / p = q at hq ⊢
  omega

theorem setWidth_calcCounter {timerIndex y p : Nat} (hy : y < 2 ^ 32) (hp : p < 2 ^ 32)
    (hfits : Fits timerIndex y p) :
    (BitVec.ofNat 32 y / BitVec.ofNat 32 p - 1).setWidth 16 = BitVec.ofNat 16 (y / p - 1) := by
  have hq : y / p ≤ y := Nat.div_le_self y p
  have hone : (1 : BitVec 32).toNat = 1 := rfl
  apply eq_of_toNat_eq
  rw [toNat_setWidth, toNat_sub, toNat_udiv, toNat_ofNat,
    toNat_ofNat, toNat_ofNat, Nat.mod_eq_of_lt hy, Nat.mod_eq_of_lt hp, hone]
  have hone_le := hfits.1
  generalize y / p = q at hq hone_le ⊢
  omega

theorem calcLoop_eq {value : Nat → Int} {counterOf : Int → BitVec 32} {timerIndex y : Nat}
    {m : BitVec 16} (hm : m.toNat = maxCount timerIndex)
    (hcalc : ∀ p : Nat, counterOf p = BitVec.ofNat 32 y / BitVec.ofNat 32 p - 1)
    (hy : y < 2 ^ 32) (table : List (Nat × Nat)) :
    ∀ n id, table.length < n → id + table.length < 128 → Tabulates value table id →
      calcLoop value counterOf m n id =
        some (found y (table.find? fun e => decide (Fits timerIndex y e.2))) := by
  induction table with
  | nil =>
    intro n id hn hid htab
    obtain ⟨n, rfl⟩ : ∃ k, n = k + 1 := ⟨n - 1, by simp at hn; omega⟩
    simp only [calcLoop, show value (id + 1) < 0 from htab, if_true, List.find?_nil, found]
  | cons e es ih =>
    intro n id hn hid htab
    obtain ⟨hid', hval, hlt, hrest⟩ := htab
    obtain ⟨n, rfl⟩ : ∃ k, n = k + 1 := ⟨n - 1, by simp at hn; omega⟩
    have hnonneg : ¬ (e.2 : Int) < 0 := by omega
    simp only [length_cons] at hn hid
    simp only [calcLoop, hval, hnonneg, if_false, hcalc, calcCounter_gt_iff hm hy hlt]
    by_cases hfits : Fits timerIndex y e.2
    · simp only [hfits, not_true_eq_false, if_false, decide_true, List.find?_cons_of_pos, found,
        hid', int8_of_lt (show id + 1 < 128 by omega), setWidth_calcCounter hy hlt hfits]
    · simp only [hfits, not_false_eq_true, if_true, decide_false, Bool.false_eq_true,
        List.find?_cons_of_neg]
      exact ih n (id + 1) (by omega) (by omega) hrest

theorem timerCalcCounterValue_eq (fCpu periodUs : BitVec 32) (p : Nat) :
    timerCalcCounterValue fCpu periodUs p =
      BitVec.ofNat 32 (clocks fCpu periodUs % 2 ^ 32) / BitVec.ofNat 32 p - 1 := by
  have hproduct : fCpu / 1000000 * periodUs = BitVec.ofNat 32 (clocks fCpu periodUs % 2 ^ 32) := by
    apply eq_of_toNat_eq
    rw [toNat_mul, toNat_udiv, toNat_ofNat, Nat.mod_mod]
    rfl
  rw [timerCalcCounterValue, hproduct, ofInt_natCast]

theorem timerCalcPrescaler_eq {timersCount timerIndex : Nat} (hcount : timersCount ≤ 6)
    (hidx : timerIndexExists timersCount timerIndex) (fCpu periodUs : BitVec 32) :
    timerCalcPrescaler fCpu timerIndex periodUs =
      some (found (clocks fCpu periodUs % 2 ^ 32) ((supported timerIndex).find? fun e =>
        decide (Fits timerIndex (clocks fCpu periodUs % 2 ^ 32) e.2))) := by
  have hidx' : timerIndex < 6 := lt_of_lt_of_le hidx hcount
  apply calcLoop_eq
  · interval_cases timerIndex <;> rfl
  · exact timerCalcCounterValue_eq fCpu periodUs
  · exact Nat.mod_lt _ (by decide)
  · unfold supported; split <;> decide
  · unfold supported; split <;> decide
  · unfold supported
    split <;> simp [Tabulates, timer2GetPrescValue, timerGetPrescalerValue, EINVAL]

theorem supported_sorted (timerIndex : Nat) :
    (supported timerIndex).Pairwise fun e e' => e.2 < e'.2 := by
  unfold supported
  split <;> decide

theorem id_ne_enotsup (id : Nat) : (id : Int) ≠ -ENOTSUP := by
  rw [ENOTSUP]
  omega

theorem maxCount_lt (timerIndex : Nat) : maxCount timerIndex < 2 ^ 16 := by
  unfold maxCount
  split <;> decide

theorem selects_found (timerIndex y : Nat) : Selects timerIndex y
      (found y ((supported timerIndex).find? fun e => decide (Fits timerIndex y e.2))) := by
  rcases hfind : (supported timerIndex).find? fun e => decide (Fits timerIndex y e.2) with _ | e <;>
    rw [hfind]
  · have hnone : NoneFits timerIndex y := by simpa [NoneFits] using hfind
    exact ⟨fun e he hfits => absurd hfits (hnone e he), fun _ => hnone, fun _ => rfl⟩
  · obtain ⟨hfits, before, after, hsplit, hbefore⟩ := List.find?_eq_some_iff_append.mp hfind
    have hmem : e ∈ supported timerIndex := mem_of_find?_eq_some hfind
    have hfits : Fits timerIndex y e.2 := of_decide_eq_true hfits
    refine ⟨fun e' he' hfits' hleast => ?_, fun hret => ?_, fun hnone => ?_⟩
    · -- the first hit is the smallest, since the prescalers grow along the table
      have hsorted := supported_sorted timerIndex
      rw [hsplit] at hsorted he'
      have heq : e' = e := by
        rcases mem_append.mp he' with h | h
        · exact absurd hfits' (by simpa using hbefore e' h)
        · rcases mem_cons.mp h with h | h
          · exact h
          · have hlt := (pairwise_cons.mp (pairwise_append.mp hsorted).2.1).1 e' h
            exact absurd (hleast e hmem hfits) (by omega)
      subst heq
      have hbound := hfits'.2
      have hmax := maxCount_lt timerIndex
      refine ⟨rfl, ?_⟩
      simp only [found, Option.map_some, toNat_ofNat, Option.some.injEq]
      omega
    · exact absurd hret (id_ne_enotsup e.1)
    · exact absurd hfits (hnone e hmem)

theorem noneFits_of_le {timerIndex y : Nat} (hy : 2 ^ 32 ≤ y) : NoneFits timerIndex y := by
  intro e he hfits
  have hp : 0 < e.2 ∧ e.2 ≤ 1024 := by
    revert e
    unfold supported
    split <;> simp
  have hmax := maxCount_lt timerIndex
  have hge : 2 ^ 22 ≤ y / e.2 := (Nat.le_div_iff_mul_le hp.1).mpr (by omega)
  have := hfits.2
  omega

/-- **PRESCALER SELECTION** is right exactly when the product has not wrapped or its wrapped
    value fits with no prescaler either. -/
theorem timerCalcPrescaler_selects_iff (fCpu periodUs : BitVec 32) (timersCount timerIndex : Nat)
    (hcount : timersCount ≤ 6) (hidx : timerIndexExists timersCount timerIndex) :
    (∃ r, timerCalcPrescaler fCpu timerIndex periodUs = some r ∧
        Selects timerIndex (clocks fCpu periodUs) r) ↔
      clocks fCpu periodUs < 2 ^ 32 ∨
        NoneFits timerIndex (clocks fCpu periodUs % 2 ^ 32) := by
  have hsearch := timerCalcPrescaler_eq hcount hidx fCpu periodUs
  have hexact := selects_found timerIndex (clocks fCpu periodUs % 2 ^ 32)
  by_cases hlt : clocks fCpu periodUs < 2 ^ 32
  · rw [Nat.mod_eq_of_lt hlt] at hsearch hexact ⊢
    exact ⟨fun _ => Or.inl hlt, fun _ => ⟨_, hsearch, hexact⟩⟩
  · have hnone : NoneFits timerIndex (clocks fCpu periodUs) := noneFits_of_le (by omega)
    constructor
    · rintro ⟨r, hr, hsel⟩
      rw [hsearch] at hr
      rw [← Option.some.inj hr] at hsel
      exact Or.inr (hexact.unsupported.mp (hsel.unsupported.mpr hnone))
    · rintro (h | h)
      · exact absurd h hlt
      · exact ⟨_, hsearch, fun e he hfits => absurd hfits (hnone e he),
          fun _ => hnone, fun _ => hexact.unsupported.mpr h⟩

/-- One second on timer 1 of a 16 MHz device: prescaler 256, counter 62499. -/
theorem timerCalcPrescaler_selects_iff_second :
    (1 < 6 ∧ clocks 16000000 1000000 = 16000000) ∧
      ((∃ r, timerCalcPrescaler 16000000 1 1000000 = some r ∧
          Selects 1 (clocks 16000000 1000000) r) ↔
        clocks 16000000 1000000 < 2 ^ 32 ∨ NoneFits 1 (clocks 16000000 1000000 % 2 ^ 32)) :=
  ⟨⟨by decide, by decide⟩, timerCalcPrescaler_selects_iff 16000000 1000000 6 1 (by decide)
    (show 1 < 6 by decide)⟩

/-- A period of 268 seconds and one millisecond on the same timer: the product
    wraps to 16000, and the call selects a period of one millisecond. -/
theorem timerCalcPrescaler_wraps :
    timerCalcPrescaler 16000000 1 (2 ^ 28 + 1000) = some ⟨1, some 15999⟩ ∧
      NoneFits 1 (clocks 16000000 (2 ^ 28 + 1000)) ∧
      ¬ ∃ r, timerCalcPrescaler 16000000 1 (2 ^ 28 + 1000) = some r ∧
        Selects 1 (clocks 16000000 (2 ^ 28 + 1000)) r := by
  have hrun : timerCalcPrescaler 16000000 1 (2 ^ 28 + 1000) = some ⟨1, some 15999⟩ := by
    decide +kernel
  have hnone : NoneFits 1 (clocks 16000000 (2 ^ 28 + 1000)) := noneFits_of_le (by decide)
  refine ⟨hrun, hnone, ?_⟩
  rintro ⟨r, hr, hsel⟩
  rw [hrun] at hr
  have hret := hsel.unsupported.mpr hnone
  rw [← Option.some.inj hr] at hret
  exact absurd hret (by decide)

end AvrtosTimerPrescaler
