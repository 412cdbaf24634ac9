import Avrtos.Defines

/-! # The configuration of a USART (`drivers/usart.c`)

    `usart_init` against how the hardware reads the registers. -/

namespace AvrtosUsart

open BitVec AvrtosDefines

structure UartDevice where
  ucsrnA : BitVec 8
  ucsrnB : BitVec 8
  ucsrnC : BitVec 8
  ubrrnL : BitVec 8
  ubrrnH : BitVec 8
deriving DecidableEq, Repr

def USART_MODE_ASYNCHRONOUS : BitVec 2 := 0
def USART_PARITY_NONE : BitVec 2 := 0
def USART_PARITY_EVEN : BitVec 2 := 2
def USART_PARITY_ODD : BitVec 2 := 3
def USART_STOP_BITS_2 : BitVec 1 := 1
def USART_DATA_BITS_5 : BitVec 3 := 0
def USART_DATA_BITS_6 : BitVec 3 := 1
def USART_DATA_BITS_7 : BitVec 3 := 2
def USART_DATA_BITS_8 : BitVec 3 := 3
def USART_DATA_BITS_9 : BitVec 3 := 7
def USART_SPEED_MODE_NORMAL : BitVec 1 := 0
def USART_SPEED_MODE_DOUBLE : BitVec 1 := 1

/-- `struct usart_config`. -/
structure UsartConfig where
  baudrate : BitVec 32
  receiver : BitVec 1
  transmitter : BitVec 1
  mode : BitVec 2
  parity : BitVec 2
  stopbits : BitVec 1
  databits : BitVec 3
  speedMode : BitVec 1
deriving DecidableEq, Repr

def U2Xn : Nat := 1
def RXENn : Nat := 4
def TXENn : Nat := 3
def UCSZn2 : Nat := 2
def UMSELn1 : Nat := 7
def UMSELn0 : Nat := 6
def UPMn1 : Nat := 5
def UPMn0 : Nat := 4
def USBSn : Nat := 3
def UCSZn1 : Nat := 2
def UCSZn0 : Nat := 1

/-- `calculate_ubrr`, with `CONFIG_USART_BAUDRATE_CALC_ROUNDING`. -/
def calculateUbrr (fCpu : Nat) (baudrate : BitVec 32) (speedMode : Bool) : BitVec 16 :=
  let q := if speedMode then 2 else 3
  let div := BitVec.ofNat 16 ((fCpu >>> q) / baudrate.toNat)
  let div := if div &&& 1 ≠ 0 then div + 2 else div
  (div >>> 1) - 1

/-- `set_baudrate`. -/
def setBaudrate (fCpu : Nat) (dev : UartDevice) (baudrate : BitVec 32) (speedMode : Bool) :
    UartDevice :=
  let ubrr := calculateUbrr fCpu baudrate speedMode
  { dev with ubrrnH := (ubrr >>> 8).setWidth 8, ubrrnL := ubrr.setWidth 8 }

/-- `UCSRnB` as `ll_usart_init` builds it. -/
def ucsrB (transmitter receiver : BitVec 1) : BitVec 8 :=
  let ucsrnb := 0#8
  let ucsrnb := if transmitter ≠ 0 then ucsrnb ||| (1 <<< TXENn) else ucsrnb
  if receiver ≠ 0 then ucsrnb ||| (1 <<< RXENn) else ucsrnb

/-- `UCSRnC` as `ll_usart_init` builds it. -/
def ucsrC (parity : BitVec 2) (stopbits : BitVec 1) (databits : BitVec 3) : BitVec 8 :=
  let ucsrc := 0#8
  let ucsrc := ucsrc ||| ((0 <<< UMSELn0) ||| (0 <<< UMSELn1))
  let ucsrc := ucsrc ||| (parity.setWidth 8 <<< UPMn0)
  let ucsrc := ucsrc ||| (stopbits.setWidth 8 <<< USBSn)
  ucsrc ||| (databits.setWidth 8 <<< UCSZn0)

/-- `ll_usart_init`. -/
def llUsartInit (fCpu : Nat) (dev : UartDevice) (config : UsartConfig) : UartDevice :=
  let dev := setBaudrate fCpu dev config.baudrate (config.speedMode ≠ 0)
  { dev with
    ucsrnB := ucsrB config.transmitter config.receiver
    ucsrnC := ucsrC config.parity config.stopbits config.databits }

/-- `usart_init`. -/
def usartInit (fCpu : Nat) (dev : UartDevice) (config : UsartConfig) : Int × UartDevice :=
  if config.mode ≠ USART_MODE_ASYNCHRONOUS then (-EINVAL, dev)
  else if config.parity = 1 then (-EINVAL, dev)
  else if config.databits &&& 0x4 ≠ 0 ∧ config.databits ≠ USART_DATA_BITS_9 then (-EINVAL, dev)
  else (0, llUsartInit fCpu dev config)

inductive Parity
  | none
  | even
  | odd
deriving DecidableEq, Repr

structure Settings where
  asynchronous : Bool
  dataBits : Option Nat
  parity : Option Parity
  stopBits : Nat
  receiver : Bool
  transmitter : Bool
  doubleSpeed : Bool
deriving DecidableEq, Repr

/-- `UCSZn2:0`. -/
def characterSize : Bool → Bool → Bool → Option Nat
  | false, false, false => some 5
  | false, false, true => some 6
  | false, true, false => some 7
  | false, true, true => some 8
  | true, true, true => some 9
  | _, _, _ => none

/-- `UPMn1:0`. -/
def parityMode : Bool → Bool → Option Parity
  | false, false => some .none
  | false, true => none
  | true, false => some .even
  | true, true => some .odd

/-- What the registers specify. -/
def UartDevice.settings (dev : UartDevice) : Settings where
  asynchronous := !dev.ucsrnC.getLsbD UMSELn1 && !dev.ucsrnC.getLsbD UMSELn0
  dataBits := characterSize (dev.ucsrnB.getLsbD UCSZn2) (dev.ucsrnC.getLsbD UCSZn1)
    (dev.ucsrnC.getLsbD UCSZn0)
  parity := parityMode (dev.ucsrnC.getLsbD UPMn1) (dev.ucsrnC.getLsbD UPMn0)
  stopBits := if dev.ucsrnC.getLsbD USBSn then 2 else 1
  receiver := dev.ucsrnB.getLsbD RXENn
  transmitter := dev.ucsrnB.getLsbD TXENn
  doubleSpeed := dev.ucsrnA.getLsbD U2Xn

/-- `UBRRn`, of 12 bits. -/
def UartDevice.ubrr (dev : UartDevice) : Nat :=
  (dev.ubrrnH &&& 0x0F).toNat * 256 + dev.ubrrnL.toNat

def UsartConfig.settings (config : UsartConfig) : Settings where
  asynchronous := config.mode = USART_MODE_ASYNCHRONOUS
  dataBits :=
    if config.databits = USART_DATA_BITS_5 then some 5
    else if config.databits = USART_DATA_BITS_6 then some 6
    else if config.databits = USART_DATA_BITS_7 then some 7
    else if config.databits = USART_DATA_BITS_8 then some 8
    else if config.databits = USART_DATA_BITS_9 then some 9
    else none
  parity :=
    if config.parity = USART_PARITY_NONE then some .none
    else if config.parity = USART_PARITY_EVEN then some .even
    else if config.parity = USART_PARITY_ODD then some .odd
    else none
  stopBits := if config.stopbits = USART_STOP_BITS_2 then 2 else 1
  receiver := config.receiver = 1
  transmitter := config.transmitter = 1
  doubleSpeed := config.speedMode = USART_SPEED_MODE_DOUBLE

def UsartConfig.divisor (fCpu : Nat) (config : UsartConfig) : Int :=
  round ((fCpu : ℚ) / ((if config.speedMode = USART_SPEED_MODE_DOUBLE then 8 else 16) *
    config.baudrate.toNat))

theorem round_div_two_mul (n k b : Nat) :
    round ((n : ℚ) / ((2 * k : Nat) * b)) = ((n / k / b + 1) / 2 : Nat) := by
  have htwice : 2 * ((n : ℚ) / ((2 * k : Nat) * b)) = (n : ℚ) / (k * b : Nat) := by
    push_cast
    rw [mul_assoc 2, ← mul_div_assoc, mul_div_mul_left _ _ two_ne_zero]
  rw [round_eq_div, htwice, Rat.floor_natCast_div_natCast, Nat.div_div_eq_div_mul]
  norm_cast

theorem roundUp_toNat {n : Nat} (hn : n ≤ 8192) (hpos : 1 ≤ (n + 1) / 2) :
    (((if BitVec.ofNat 16 n &&& 1 ≠ 0 then BitVec.ofNat 16 n + 2 else BitVec.ofNat 16 n) >>> 1) - 1
      : BitVec 16).toNat + 1 = (n + 1) / 2 := by
  have hand : (BitVec.ofNat 16 n &&& 1).toNat = n % 2 := by
    rw [toNat_and, toNat_ofNat]
    show n % 2 ^ 16 &&& 1 = n % 2
    rw [Nat.and_one_is_mod]
    omega
  have hodd : BitVec.ofNat 16 n &&& 1 ≠ 0 ↔ n % 2 = 1 := by
    rw [← toNat_ne_iff_ne, hand]
    show n % 2 ≠ 0 ↔ n % 2 = 1
    omega
  by_cases h : n % 2 = 1
  · rw [if_pos (hodd.mpr h)]
    bv_omega
  · rw [if_neg (fun hc => h (hodd.mp hc))]
    bv_omega

def quotient (fCpu : Nat) (config : UsartConfig) : Nat :=
  (fCpu >>> (if config.speedMode ≠ 0 then 2 else 3)) / config.baudrate.toNat

theorem divisor_eq (fCpu : Nat) (config : UsartConfig) :
    config.divisor fCpu = ((quotient fCpu config + 1) / 2 : Nat) := by
  have hspeed : ∀ s : BitVec 1, s = USART_SPEED_MODE_DOUBLE ↔ s ≠ 0 := by decide
  unfold UsartConfig.divisor quotient
  by_cases h : config.speedMode ≠ 0
  · rw [if_pos ((hspeed _).mpr h), if_pos h, Nat.shiftRight_eq_div_pow]
    exact round_div_two_mul fCpu 4 config.baudrate.toNat
  · rw [if_neg (fun hc => h ((hspeed _).mp hc)), if_neg h, Nat.shiftRight_eq_div_pow]
    exact round_div_two_mul fCpu 8 config.baudrate.toNat

theorem ubrr_setBaudrate (fCpu : Nat) (dev : UartDevice) (baudrate : BitVec 32) (speedMode : Bool)
    (h : (calculateUbrr fCpu baudrate speedMode).toNat < 4096) :
    (setBaudrate fCpu dev baudrate speedMode).ubrr =
      (calculateUbrr fCpu baudrate speedMode).toNat := by
  generalize hu : calculateUbrr fCpu baudrate speedMode = u at h
  have hhigh : ((u >>> 8).setWidth 8 &&& 0x0F : BitVec 8).toNat = u.toNat / 256 := by
    rw [toNat_and, toNat_setWidth, toNat_ushiftRight,
      Nat.shiftRight_eq_div_pow]
    have hmask := Nat.and_two_pow_sub_one_eq_mod (u.toNat / 2 ^ 8 % 2 ^ 8) 4
    refine hmask.trans ?_
    omega
  have hlow : (u.setWidth 8 : BitVec 8).toNat = u.toNat % 256 := toNat_setWidth 8 u
  simp only [setBaudrate, UartDevice.ubrr, hu]
  rw [hhigh, hlow]
  omega

theorem ubrr_llUsartInit (fCpu : Nat) (dev : UartDevice) (config : UsartConfig)
    (hpos : 1 ≤ config.divisor fCpu) (hle : config.divisor fCpu ≤ 4096) :
    ((llUsartInit fCpu dev config).ubrr : Int) + 1 = config.divisor fCpu := by
  rw [divisor_eq] at hpos hle ⊢
  have hubrr : (calculateUbrr fCpu config.baudrate (config.speedMode ≠ 0)).toNat + 1 =
      (quotient fCpu config + 1) / 2 := by
    have hround := roundUp_toNat (n := quotient fCpu config) (by omega) (by omega)
    simp only [calculateUbrr, decide_eq_true_eq]
    exact hround
  have hdev : (llUsartInit fCpu dev config).ubrr =
      (setBaudrate fCpu dev config.baudrate (config.speedMode ≠ 0)).ubrr := rfl
  rw [hdev, ubrr_setBaudrate _ _ _ _ (by omega)]
  omega

/-- All registers zero. -/
def UartDevice.zero : UartDevice := ⟨0, 0, 0, 0, 0⟩

theorem usartInit_accepted {fCpu : Nat} {dev : UartDevice} {config : UsartConfig}
    (h : (usartInit fCpu dev config).1 = 0) :
    config.mode = USART_MODE_ASYNCHRONOUS ∧ config.parity ≠ 1 ∧
      ¬ (config.databits &&& 0x4 ≠ 0 ∧ config.databits ≠ USART_DATA_BITS_9) ∧
      (usartInit fCpu dev config).2 = llUsartInit fCpu dev config := by
  have hfails : (-EINVAL : Int) ≠ 0 := by decide
  unfold usartInit at h ⊢
  split at h
  · exact (hfails h).elim
  · rename_i hmode
    split at h
    · exact (hfails h).elim
    · rename_i hparity
      split at h
      · exact (hfails h).elim
      · rename_i hdata
        rw [if_neg hmode, if_neg hparity, if_neg hdata]
        exact ⟨not_not.mp hmode, hparity, hdata, rfl⟩

theorem settings_ucsr_iff : ∀ (receiver transmitter : BitVec 1) (parity : BitVec 2)
    (stopbits : BitVec 1) (databits : BitVec 3), parity ≠ 1 →
    ¬ (databits &&& 0x4 ≠ 0 ∧ databits ≠ USART_DATA_BITS_9) →
    (UartDevice.settings ⟨0, ucsrB transmitter receiver, ucsrC parity stopbits databits, 0, 0⟩ =
      UsartConfig.settings ⟨0, receiver, transmitter, USART_MODE_ASYNCHRONOUS, parity, stopbits,
        databits, USART_SPEED_MODE_NORMAL⟩ ↔
      databits ≠ USART_DATA_BITS_9) := by
  decide +kernel

theorem doubleSpeed_llUsartInit (fCpu : Nat) (dev : UartDevice) (config : UsartConfig) :
    (llUsartInit fCpu dev config).settings.doubleSpeed = dev.ucsrnA.getLsbD U2Xn := rfl

theorem settings_llUsartInit_iff (fCpu : Nat) {config : UsartConfig}
    (hmode : config.mode = USART_MODE_ASYNCHRONOUS) (hparity : config.parity ≠ 1)
    (hdata : ¬ (config.databits &&& 0x4 ≠ 0 ∧ config.databits ≠ USART_DATA_BITS_9)) :
    (llUsartInit fCpu .zero config).settings = config.settings ↔
      config.speedMode = USART_SPEED_MODE_NORMAL ∧ config.databits ≠ USART_DATA_BITS_9 := by
  obtain ⟨baudrate, receiver, transmitter, mode, parity, stopbits, databits, speedMode⟩ := config
  have hformat := settings_ucsr_iff receiver transmitter parity stopbits databits hparity hdata
  have hspeed : ∀ s : BitVec 1, UartDevice.zero.ucsrnA.getLsbD U2Xn =
      decide (s = USART_SPEED_MODE_DOUBLE) ↔ s = USART_SPEED_MODE_NORMAL := by decide
  obtain rfl : mode = USART_MODE_ASYNCHRONOUS := hmode
  refine ⟨fun h => ?_, ?_⟩
  · have hdouble := congrArg Settings.doubleSpeed h
    rw [doubleSpeed_llUsartInit] at hdouble
    obtain rfl := (hspeed speedMode).mp hdouble
    exact ⟨rfl, hformat.mp h⟩
  · rintro ⟨rfl, h⟩
    exact hformat.mpr h

/-- **A CONFIGURATION IS PROGRAMMED** as asked for, unless for double speed or 9 data bits. -/
theorem usart_init_decodes_iff (fCpu : Nat) (config : UsartConfig)
    (haccepted : (usartInit fCpu .zero config).1 = 0)
    (hpos : 1 ≤ config.divisor fCpu) (hle : config.divisor fCpu ≤ 4096) :
    let dev := (usartInit fCpu .zero config).2
    (dev.settings = config.settings ∧ (dev.ubrr : Int) + 1 = config.divisor fCpu) ↔
      config.speedMode = USART_SPEED_MODE_NORMAL ∧ config.databits ≠ USART_DATA_BITS_9 := by
  obtain ⟨hmode, hparity, hdata, hdev⟩ := usartInit_accepted haccepted
  have hubrr := ubrr_llUsartInit fCpu .zero config hpos hle
  show (_ ∧ _) ↔ _
  rw [hdev, ← settings_llUsartInit_iff fCpu hmode hparity hdata]
  exact ⟨And.left, fun h => ⟨h, hubrr⟩⟩

def config115200 : UsartConfig := ⟨115200, 1, 1, 0, USART_PARITY_EVEN, 1, USART_DATA_BITS_8, 0⟩

theorem usart_init_decodes_115200 :
    let dev := (usartInit 16000000 .zero config115200).2
    dev.settings = config115200.settings ∧
      (dev.ubrr : Int) + 1 = config115200.divisor 16000000 := by
  have hdivisor : config115200.divisor 16000000 = 9 := by
    rw [divisor_eq]
    decide +kernel
  refine (usart_init_decodes_iff 16000000 config115200 (by decide +kernel) ?_ ?_).mpr
    ⟨rfl, by decide⟩
  · rw [hdivisor]
    decide
  · rw [hdivisor]
    decide

/-- 9 data bits and 1 stop bit come out as 8 and 2, and with double speed `U2Xn` is not set. -/
theorem usart_init_misprograms :
    let nine : UsartConfig := { config115200 with stopbits := 0, databits := USART_DATA_BITS_9 }
    let double : UsartConfig := { config115200 with speedMode := USART_SPEED_MODE_DOUBLE }
    let dev := (usartInit 16000000 .zero nine).2
    let dev' := (usartInit 16000000 .zero double).2
    ((usartInit 16000000 .zero nine).1 = 0 ∧ nine.divisor 16000000 = 9 ∧
      nine.settings.dataBits = some 9 ∧ dev.settings.dataBits = some 8 ∧
      nine.settings.stopBits = 1 ∧ dev.settings.stopBits = 2) ∧
    (usartInit 16000000 .zero double).1 = 0 ∧ double.divisor 16000000 = 17 ∧
      (dev'.ubrr : Int) + 1 = 17 ∧ dev'.settings.doubleSpeed = false := by
  refine ⟨⟨?_, ?_, ?_⟩, ?_, ?_, ?_⟩
  · decide +kernel
  · rw [divisor_eq]
    decide +kernel
  · decide +kernel
  · decide +kernel
  · rw [divisor_eq]
    decide +kernel
  · decide +kernel

end AvrtosUsart
