import Avrtos.Base.SpiBus
import Avrtos.Defines

/-! # Transfers to a slave (`drivers/spi.c`)

    The trace of a transfer is framed by the level that selects the slave. -/

namespace AvrtosSpi

open List AvrtosDefines
open SpiBus (Byte Device)

/-- `struct spi_slave`. -/
structure SpiSlave where
  csPin : BitVec 3
  activeState : BitVec 1
deriving DecidableEq, Repr

def SpiSlave.active (slave : SpiSlave) : Bool := slave.activeState = 1

/-- What is seen on the wires. -/
inductive Event
  | level (high : Bool)
  | byte (tx rx : Byte)
deriving DecidableEq, Repr

structure Bus (σ : Type) where
  device : σ
  port : Byte
  mem : Nat → Byte
  trace : List Event

variable {σ : Type} (d : Device σ) (slave : SpiSlave)

/-- The slave is selected. -/
def selected (b : Bus σ) : Bool := b.port.getLsbD slave.csPin.toNat == slave.active

def GPIO_LOW : Byte := 0
def GPIO_HIGH : Byte := 1

/-- `gpiol_pin_write_state`. -/
def gpiolPinWriteState (port : Byte) (pin : BitVec 3) (state : Byte) : Byte :=
  (port &&& ~~~(1#8 <<< pin.toNat)) ||| ((state &&& 1) <<< pin.toNat)

/-- `gpio_pin_write_state` on the chip select. -/
def gpioPinWriteState (state : Byte) (b : Bus σ) : Bus σ :=
  let port := gpiolPinWriteState b.port slave.csPin state
  let level := port.getLsbD slave.csPin.toNat
  { b with device := d.select b.device (level == slave.active), port,
           trace := .level level :: b.trace }

/-- `spi_transceive`. -/
def spiTransceive (tx : Byte) (b : Bus σ) : Byte × Bus σ :=
  let r := d.exchange b.device (selected slave b) tx
  (r.1, { b with device := r.2, trace := .byte tx r.1 :: b.trace })

/-- `*p = spi_transceive(*p)`. -/
def transceiveAt (p : Nat) (b : Bus σ) : Bus σ :=
  let r := spiTransceive d slave (b.mem p) b
  { r.2 with mem := Function.update r.2.mem p r.1 }

def spiTransceiveBuf : Nat → Nat → Bus σ → Bus σ
  | _, 0, b => b
  | rxtx, len + 1, b => spiTransceiveBuf (rxtx + 1) len (transceiveAt d slave rxtx b)

/-- `spi_slave_select`. -/
def spiSlaveSelect : Bus σ → Bus σ :=
  gpioPinWriteState d slave (slave.activeState.setWidth 8)

/-- `spi_slave_unselect`. -/
def spiSlaveUnselect : Bus σ → Bus σ :=
  gpioPinWriteState d slave (1 - slave.activeState.setWidth 8)

/-- `spi_slave_transceive`. -/
def spiSlaveTransceive (tx : Byte) (b : Bus σ) : Byte × Bus σ :=
  let r := spiTransceive d slave tx (spiSlaveSelect d slave b)
  (r.1, spiSlaveUnselect d slave r.2)

/-- `spi_slave_transceive_buf`. -/
def spiSlaveTransceiveBuf (rxtx : Nat) (len : Byte) (b : Bus σ) : Bus σ :=
  let b := gpioPinWriteState d slave (if slave.activeState ≠ 0 then GPIO_LOW else GPIO_HIGH) b
  let b := spiTransceiveBuf d slave rxtx len.toNat b
  gpioPinWriteState d slave (if slave.activeState ≠ 0 then GPIO_HIGH else GPIO_LOW) b

def framed (rxtx len : Nat) (b : Bus σ) : Bus σ :=
  spiSlaveUnselect d slave
    ((range len).foldl (fun b i => transceiveAt d slave (rxtx + i) b)
      (spiSlaveSelect d slave b))

theorem getLsbD_gpiolPinWriteState (port : Byte) (pin : BitVec 3) (state : Byte) :
    (gpiolPinWriteState port pin state).getLsbD pin.toNat = state.getLsbD 0 := by
  have hpin : pin.toNat < 8 := pin.isLt
  simp [gpiolPinWriteState, hpin]

theorem gpioPinWriteState_level (state : Byte) (b : Bus σ) :
    (gpioPinWriteState d slave state b).trace = .level (state.getLsbD 0) :: b.trace ∧
      selected slave (gpioPinWriteState d slave state b) = (state.getLsbD 0 == slave.active) := by
  have hlevel := getLsbD_gpiolPinWriteState b.port slave.csPin state
  refine ⟨?_, ?_⟩
  · exact congrArg (fun level => Event.level level :: b.trace) hlevel
  · exact congrArg (· == slave.active) hlevel

theorem activeState_levels (a : BitVec 1) : (a.setWidth 8 : Byte).getLsbD 0 = decide (a = 1) ∧
      (1 - a.setWidth 8 : Byte).getLsbD 0 = !decide (a = 1) := by
  revert a
  decide

theorem transceiveBuf_levels (a : BitVec 1) :
    (if a ≠ 0 then GPIO_LOW else GPIO_HIGH) = 1 - a.setWidth 8 ∧
      (if a ≠ 0 then GPIO_HIGH else GPIO_LOW) = a.setWidth 8 := by
  revert a
  decide

theorem spiSlaveSelect_level (b : Bus σ) :
    (spiSlaveSelect d slave b).trace = .level slave.active :: b.trace ∧
      selected slave (spiSlaveSelect d slave b) = true := by
  have h := gpioPinWriteState_level d slave (slave.activeState.setWidth 8) b
  rw [(activeState_levels slave.activeState).1] at h
  exact ⟨h.1, h.2.trans (beq_self_eq_true slave.active)⟩

theorem spiSlaveUnselect_level (b : Bus σ) :
    (spiSlaveUnselect d slave b).trace = .level (!slave.active) :: b.trace ∧
      selected slave (spiSlaveUnselect d slave b) = false := by
  have h := gpioPinWriteState_level d slave (1 - slave.activeState.setWidth 8) b
  rw [(activeState_levels slave.activeState).2] at h
  exact ⟨h.1, h.2.trans (Bool.not_beq_self slave.active)⟩

/-- **THE LOOP** exchanges the bytes of the buffer in order. -/
theorem spiTransceiveBuf_eq_foldl (rxtx len : Nat) (b : Bus σ) :
    spiTransceiveBuf d slave rxtx len b =
      (range len).foldl (fun b i => transceiveAt d slave (rxtx + i) b) b := by
  induction len generalizing rxtx b with
  | zero => rfl
  | succ len ih =>
    rw [spiTransceiveBuf, ih, range_succ_eq_map, foldl_cons, foldl_map]
    refine congrArg (fun f => List.foldl f _ (range len)) ?_
    funext b i
    rw [Nat.add_right_comm, Nat.add_assoc]

theorem spiSlaveTransceiveBuf_eq (rxtx : Nat) (len : Byte) (b : Bus σ) :
    spiSlaveTransceiveBuf d slave rxtx len b = spiSlaveSelect d slave
        ((range len.toNat).foldl (fun b i => transceiveAt d slave (rxtx + i) b)
          (spiSlaveUnselect d slave b)) := by
  obtain ⟨hlow, hhigh⟩ := transceiveBuf_levels slave.activeState
  rw [spiSlaveTransceiveBuf, hlow, hhigh, spiTransceiveBuf_eq_foldl]
  rfl

/-- **BUFFERS GO TO THE SLAVE UNSELECTED**, for every slave and buffer; `spi_slave_transceive`
    frames its byte. -/
theorem spi_slave_transceive_buf_framed_iff (rxtx : Nat) (len : Byte) (b : Bus σ) :
    let r := spiSlaveTransceiveBuf d slave rxtx len b
    let f := framed d slave rxtx len.toNat b
    ((r.trace = f.trace ∧ ∀ i < len.toNat, r.mem (rxtx + i) = f.mem (rxtx + i)) ↔ False) ∧
      r = spiSlaveSelect d slave
        ((range len.toNat).foldl (fun b i => transceiveAt d slave (rxtx + i) b)
          (spiSlaveUnselect d slave b)) ∧
      selected slave r = true ∧ selected slave f = false ∧
      (len = 1 → (spiSlaveTransceive d slave (b.mem rxtx) b).1 = f.mem rxtx ∧
        (spiSlaveTransceive d slave (b.mem rxtx) b).2.trace = f.trace) := by
  intro r f
  have hr : r = _ := spiSlaveTransceiveBuf_eq d slave rxtx len b
  refine ⟨⟨?_, False.elim⟩, hr, ?_, (spiSlaveUnselect_level d slave _).2, ?_⟩
  · -- the last level seen is another one
    rintro ⟨htrace, -⟩
    rw [hr, (spiSlaveSelect_level d slave _).1] at htrace
    have hlast := htrace.trans (spiSlaveUnselect_level d slave _).1
    have hlevel := Event.level.inj (List.cons.inj hlast).1
    exact Bool.not_ne_self slave.active hlevel.symm
  · rw [hr]
    exact (spiSlaveSelect_level d slave _).2
  · rintro rfl
    have hmem : f.mem =
        Function.update b.mem rxtx (spiSlaveTransceive d slave (b.mem rxtx) b).1 := rfl
    rw [hmem, Function.update_self]
    exact ⟨rfl, rfl⟩

def responder (answer : List Byte → Byte) : Device (List Byte) where
  exchange := fun received active tx =>
    if active then (answer received, received ++ [tx]) else (0xFF, received)
  select := fun received _ => received

/-- The chip select is pin 2, active when low, and high at first; the slave answers 0x42
    and the buffer is the byte 0x10. -/
theorem spi_slave_transceive_buf_unselected :
    let slave : SpiSlave := ⟨2, 0⟩
    let d := responder fun _ => 0x42
    let b : Bus (List Byte) := ⟨[], 0x04, fun _ => 0x10, []⟩
    let r := spiSlaveTransceiveBuf d slave 0 1 b
    let f := framed d slave 0 1 b
    selected slave b = false ∧
      f.trace.reverse = [.level false, .byte 0x10 0x42, .level true] ∧ f.mem 0 = 0x42 ∧
      r.trace.reverse = [.level true, .byte 0x10 0xFF, .level false] ∧ r.mem 0 = 0xFF ∧
      r.device = [] ∧ selected slave r = true := by
  decide

end AvrtosSpi
