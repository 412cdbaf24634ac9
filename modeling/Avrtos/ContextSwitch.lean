import Avrtos.Base.Avr
import Avrtos.Base.Runs

/-! # `arch/thread_switch_preempt.S`: context switches

    `SwitchInv` says that every thread's stack holds what it was left with; each switch keeps it. -/

namespace AvrtosContextSwitch

open Function List Avr Avr.Machine Runs

structure Config where
  /-- `__AVR_3_BYTE_PC__` -/
  wide : Bool
  /-- `CONFIG_KERNEL_TICKS_COUNTER` -/
  ticksCounter : Bool
  /-- `CONFIG_CONFIG_KERNEL_TICKS_COUNTER_40BITS` -/
  ticks40 : Bool
  /-- `Z_KERNEL_TIME_SLICE_MULTIPLE_TICKS` -/
  multipleTicks : Bool
  /-- `CONFIG_KERNEL_COOPERATIVE_THREADS` -/
  cooperativeThreads : Bool
  /-- `CONFIG_KERNEL_SCHEDULER_COMPARE_THREADS_BEFORE_SWITCH` -/
  compareThreads : Bool

/-- The size of a program counter. -/
def Config.pcSize (c : Config) : Nat := if c.wide then 3 else 2

/-- `CONFIG_KERNEL_TICKS_COUNTER_SIZE`. -/
def Config.ticksSize (c : Config) : Nat :=
  if c.ticksCounter then if c.ticks40 then 5 else 4 else 0

structure Layout (c : Config) (T : Type) where
  zKer : Addr
  thread : T → Addr
  bot : T → Nat
  top : T → Nat
  intctxRestore : Fin (256 ^ c.pcSize)
  bot_ram : ∀ t, 0x5F < bot t
  stack_apart : ∀ t u, t ≠ u → top t < bot u ∨ top u < bot t
  ker_ram : ∀ i < 8, IsRam (zKer + BitVec.ofNat 16 i)
  ker_off : ∀ i < 8, ∀ t, (zKer + BitVec.ofNat 16 i).toNat < bot t ∨
    top t < (zKer + BitVec.ofNat 16 i).toNat
  sp_ram : ∀ t, ∀ i < 2, IsRam (thread t + BitVec.ofNat 16 i)
  sp_off : ∀ t, ∀ i < 2, ∀ u, (thread t + BitVec.ofNat 16 i).toNat < bot u ∨
    top u < (thread t + BitVec.ofNat 16 i).toNat
  sp_ker : ∀ t, ∀ i < 2, ∀ j < 8, thread t + BitVec.ofNat 16 i ≠ zKer + BitVec.ofNat 16 j
  sp_sp : ∀ t u, t ≠ u → ∀ i < 2, ∀ j < 2,
    thread t + BitVec.ofNat 16 i ≠ thread u + BitVec.ofNat 16 j

variable {c : Config} {T : Type} {l : Layout c T}

/-- `__intctx_restore` lies in the low 64K words. -/
def Layout.RestoreLow (l : Layout c T) : Prop := (l.intctxRestore : Nat) < 2 ^ 16
deriving Decidable

/-- The address `z_ker + i`. -/
def Layout.ker (l : Layout c T) (i : Nat) : Addr := l.zKer + BitVec.ofNat 16 i

/-- The bytes of the field `sp`. -/
def Layout.spByte (l : Layout c T) (t : T) (i : Nat) : Addr := l.thread t + BitVec.ofNat 16 i

def Layout.savedSp (l : Layout c T) (mem : Addr → Byte) (t : T) : Addr :=
  join (mem (l.spByte t 1)) (mem (l.spByte t 0))

/-- `z_ker.current`. -/
def Layout.current (l : Layout c T) (mem : Addr → Byte) : Addr :=
  join (mem (l.ker 1)) (mem (l.ker 0))

section Code

variable {w : Nat}

def intctxRestoreMinimal (m : Machine w) : Machine w :=
  m |> pop 18
    |> pop 0
    |> sts SREG 0
    |> pop 0
    |> pop 1
    |> reti

/-- `__intctx_restore`, which `__exit_kernel_int` falls through to. -/
def intctxRestore (m : Machine w) : Machine w :=
  m |> popAll [31, 30, 27, 26, 25, 24, 23, 22, 21, 20, 19]
    |> intctxRestoreMinimal

def saveContext (m : Machine w) : Machine w :=
  m |> pushAll [2, 3, 4, 5, 6, 7, 8, 9, 10, 11, 12, 13, 14, 15, 16, 17, 28, 29]
    |> lds 17 SREG
    |> push 17
    |> lds 20 SPL
    |> lds 21 SPH
    |> stX 20
    |> stX 21

def restoreContext (m : Machine w) : Machine w :=
  m |> ldZ 20
    |> ldZ 21
    |> sts SPL 20
    |> sts SPH 21
    |> pop 17
    |> sts SREG 17
    |> popAll [29, 28, 17]
    |> popAll [16, 15, 14, 13, 12, 11, 10, 9, 8, 7, 6, 5, 4, 3, 2]
    |> ret

def zThreadSwitch (m : Machine w) : Machine w := m |> saveContext |> restoreContext

end Code

def loadThreads (l : Layout c T) (m : Machine c.pcSize) : Machine c.pcSize :=
  m |> movw 26 24
    |> lds 30 (l.ker 0)
    |> lds 31 (l.ker 1)

/-- `z_yield`, entered with the return address on the stack. -/
def zYield (l : Layout c T) (zScheduler : Machine c.pcSize → Machine c.pcSize)
    (m : Machine c.pcSize) : Machine c.pcSize :=
  let m := m |> zScheduler |> loadThreads l
  if c.compareThreads then
    let m := m |> cp 26 30
    if !zeroFlag m.sreg then zThreadSwitch m
    else
      let m := m |> cp 27 31
      if !zeroFlag m.sreg then zThreadSwitch m else m.ret
  else zThreadSwitch m

def goOn (l : Layout c T) (m : Machine c.pcSize) : Machine c.pcSize :=
  if m.pc = l.intctxRestore then intctxRestore m else m

def addCarry (l : Layout c T) (i : Nat) (m : Machine c.pcSize) : Machine c.pcSize :=
  m |> lds 0 (l.ker i)
    |> adc 0 1
    |> sts (l.ker i) 0

def countTick (l : Layout c T) (m : Machine c.pcSize) : Machine c.pcSize :=
  let m := m
    |> ldi 18 0x01
    |> lds 0 (l.ker 2)
    |> add 0 18
    |> sts (l.ker 2) 0
    |> addCarry l 3
    |> addCarry l 4
    |> addCarry l 5
  if c.ticks40 then m |> addCarry l 6 else m

/-- `TIMERn_COMPA_vect` up to the slice countdown. -/
def timerEntry (l : Layout c T) (m : Machine c.pcSize) : Machine c.pcSize :=
  let m := m.interrupt
    |> push 1
    |> push 0
    |> lds 0 SREG
    |> push 0
    |> eor 1 1
    |> push 18
  if c.ticksCounter then countTick l m else m

def countSlice (l : Layout c T) (m : Machine c.pcSize) : Machine c.pcSize :=
  m |> lds 18 (l.ker (2 + c.ticksSize))
    |> subi 18 0x01
    |> sts (l.ker (2 + c.ticksSize)) 18

def atSlice (l : Layout c T) (m : Machine c.pcSize) : Machine c.pcSize :=
  let m := timerEntry l m
  if c.multipleTicks then countSlice l m else m

def atSchedEnter (l : Layout c T) (m : Machine c.pcSize) : Machine c.pcSize :=
  atSlice l m |> pushAll [19, 20, 21, 22, 23, 24, 25, 26, 27, 30, 31]

def lockedMask : Byte := 0x14

def testLocked (l : Layout c T) (m : Machine c.pcSize) : Machine c.pcSize :=
  m |> lds 30 (l.ker 0)
    |> lds 31 (l.ker 1)
    |> lddZ 18 2
    |> andi 18 lockedMask

def pushRestore (l : Layout c T) (m : Machine c.pcSize) : Machine c.pcSize :=
  let m := m
    |> ldi 24 (BitVec.ofNat 8 l.intctxRestore)
    |> ldi 25 (BitVec.ofNat 8 (l.intctxRestore / 256))
    |> push 24
    |> push 25
  if c.wide then m.push 1 else m

/-- `TIMERn_COMPA_vect`. -/
def timerCompaVect (l : Layout c T) (zSchedEnter zScheduler : Machine c.pcSize → Machine c.pcSize)
    (m : Machine c.pcSize) : Machine c.pcSize :=
  if c.multipleTicks && !zeroFlag (atSlice l m).sreg then intctxRestoreMinimal (atSlice l m)
  else
    let m := atSchedEnter l m |> zSchedEnter
    if c.cooperativeThreads then
      let m := testLocked l m
      if !zeroFlag m.sreg then intctxRestore m
      else m |> pushRestore l |> zYield l zScheduler |> goOn l
    else intctxRestore m

inductive Frame (w : Nat)
  | call (m : Machine w)
  | tick (m : Machine w)

namespace Frame

variable {w : Nat}

def origin : Frame w → Machine w
  | call m => m
  | tick m => m

def irq : Frame w → Bool
  | call m => irqFlag m.sreg
  | tick _ => false

end Frame

structure Resumption (w : Nat) where
  frame : Frame w
  back : Machine w

def Resumption.Right {w : Nat} : Resumption w → Prop
  | ⟨.call m, b⟩ => b.pc = m.pc ∧ b.sp = m.sp ∧ (∀ r ∈ callSaved, b.reg r = m.reg r) ∧
      irqFlag b.sreg = irqFlag m.sreg
  | ⟨.tick m, b⟩ => b.pc = m.pc ∧ b.sp = m.sp ∧ b.reg = m.reg ∧ b.sreg = m.sreg

structure Sys (c : Config) (T : Type) where
  cpu : Machine c.pcSize
  running : T
  frame : T → Frame c.pcSize
  log : List (Resumption c.pcSize)

/-- What happens. -/
inductive Op (c : Config) (T : Type)
  | code (m : Machine c.pcSize)
  | yield (zScheduler : Machine c.pcSize → Machine c.pcSize) (next : T)
  | tick (zSchedEnter zScheduler : Machine c.pcSize → Machine c.pcSize) (next : T)

def Layout.InContext (l : Layout c T) (mem : Addr → Byte) (t : T) (fr : Frame c.pcSize)
    (a : Addr) : Prop :=
  a = l.spByte t 0 ∨ a = l.spByte t 1 ∨
    (l.savedSp mem t).toNat < a.toNat ∧ a.toNat ≤ fr.origin.sp.toNat

section Steps

variable [DecidableEq T]

namespace Sys

def goTo (s : Sys c T) (fr : Frame c.pcSize) (next : T) (m : Machine c.pcSize) : Sys c T :=
  { cpu := m
    running := next
    frame := update s.frame s.running fr
    log := s.log ++ [⟨update s.frame s.running fr next, m⟩] }

def after (l : Layout c T) (s : Sys c T) : Op c T → Machine c.pcSize
  | .code m => m
  | .yield zScheduler _ => s.cpu.pushPc s.cpu.pc |> zYield l zScheduler |> goOn l
  | .tick zSchedEnter zScheduler _ => timerCompaVect l zSchedEnter zScheduler s.cpu

def step (l : Layout c T) (s : Sys c T) (op : Op c T) : Sys c T :=
  match op with
  | .code m => { s with cpu := m }
  | .yield _ next => s.goTo (.call s.cpu) next (s.after l op)
  | .tick _ _ next => s.goTo (.tick s.cpu) next (s.after l op)

def Held (l : Layout c T) (s : Sys c T) (a : Addr) : Prop :=
  ∃ u, u ≠ s.running ∧ l.InContext s.cpu.mem u (s.frame u) a

def Kept (l : Layout c T) (s : Sys c T) (a : Addr) : Prop :=
  s.Held l a ∨ a = l.ker 0 ∨ a = l.ker 1

def Space (l : Layout c T) (s : Sys c T) (n : Nat) : Prop :=
  l.bot s.running + n ≤ s.cpu.sp.toNat + 1 ∧ s.cpu.sp.toNat ≤ l.top s.running
deriving Decidable

/-- `z_scheduler` follows the calling convention when it is called in the state
    `m`, writes to no context and returns the previous thread. -/
def Schedules (l : Layout c T) (s : Sys c T) (zScheduler : Machine c.pcSize → Machine c.pcSize)
    (m : Machine c.pcSize) : Prop :=
  Called (s.Held l) s.cpu.sp m (zScheduler m) ∧ (zScheduler m).word 24 = l.current m.mem

/-- What an operation may do. -/
def Allowed (l : Layout c T) (s : Sys c T) (op : Op c T) : Prop :=
  match op with
  | .code m => ∀ a, s.Kept l a → m.mem a = s.cpu.mem a
  | .yield zScheduler next =>
      s.cpu.pc ≠ l.intctxRestore ∧ s.Space l (c.pcSize + 19) ∧
      s.Schedules l zScheduler (s.cpu.pushPc s.cpu.pc) ∧
      l.current (s.after l op).mem = l.thread next
  | .tick zSchedEnter zScheduler next =>
      irqFlag s.cpu.sreg = true ∧ s.Space l (2 * c.pcSize + 34) ∧
      Called (s.Kept l) s.cpu.sp (atSchedEnter l s.cpu) (zSchedEnter (atSchedEnter l s.cpu)) ∧
      s.Schedules l zScheduler
        (atSchedEnter l s.cpu |> zSchedEnter |> testLocked l |> pushRestore l) ∧
      l.current (s.after l op).mem = l.thread next

end Sys

end Steps

def entryBytes {w : Nat} (m : Machine w) : List Byte :=
  m.reg 18 :: (m.sreg &&& 0x7F#8) :: m.reg 0 :: m.reg 1 :: pcStack m.pc

def tickBytes {w : Nat} (m : Machine w) : List Byte :=
  [31, 30, 27, 26, 25, 24, 23, 22, 21, 20, 19].map m.reg ++ entryBytes m

namespace Frame

def rest (l : Layout c T) : Frame c.pcSize → List Byte
  | call m => pcStack m.pc
  | tick m => pcStack l.intctxRestore ++ tickBytes m

def bytes (l : Layout c T) (z : Byte) (fr : Frame c.pcSize) : List Byte :=
  z :: (callSaved.reverse.map fr.origin.reg ++ fr.rest l)

def Returns (l : Layout c T) : Frame c.pcSize → Prop
  | call m => m.pc ≠ l.intctxRestore
  | tick m => irqFlag m.sreg = true

end Frame

structure Suspended (l : Layout c T) (mem : Addr → Byte) (t : T) (fr : Frame c.pcSize) : Prop where
  returns : fr.Returns l
  stacked : ∃ z, irqFlag z = fr.irq ∧ Stacked mem (l.savedSp mem t) (fr.bytes l z) ∧
    (l.savedSp mem t).toNat + (fr.bytes l z).length = fr.origin.sp.toNat
  bot : l.bot t ≤ (l.savedSp mem t).toNat + 1
  top : fr.origin.sp.toNat ≤ l.top t

namespace Sys

def Start (l : Layout c T) (s : Sys c T) : Prop :=
  s.log = [] ∧ l.current s.cpu.mem = l.thread s.running ∧
    ∀ u, u ≠ s.running → Suspended l s.cpu.mem u (s.frame u)

end Sys

/-- The states of all runs. -/
def SwitchReach [DecidableEq T] (l : Layout c T) : Sys c T → Prop :=
  Reach (Sys.Start l) (Sys.Allowed l) (Sys.step l)

section Restore

variable {w : Nat} {e m : Machine w}

@[simp] theorem length_entryBytes : (entryBytes e).length = w + 4 := by
  simp [entryBytes]

@[simp] theorem length_tickBytes : (tickBytes e).length = w + 15 := by
  rw [tickBytes, length_append, length_entryBytes, length_map]
  exact Nat.add_comm 11 (w + 4)

@[simp] theorem intctxRestoreMinimal_mem (m : Machine w) :
    (intctxRestoreMinimal m).mem = m.mem := by
  simp [intctxRestoreMinimal, pop, sts, reti, ret]

@[simp] theorem intctxRestore_mem (m : Machine w) : (intctxRestore m).mem = m.mem := by
  rw [intctxRestore, intctxRestoreMinimal_mem, popAll_mem]

@[simp] theorem restoreContext_mem (m : Machine w) : (restoreContext m).mem = m.mem := by
  simp [restoreContext, pop, sts, ret, ldZ, setWord]

theorem intctxRestoreMinimal_right (h : Stacked m.mem m.sp (entryBytes e))
    (hsp : m.sp.toNat + (w + 4) = e.sp.toNat) (hirq : irqFlag e.sreg = true)
    (hregs : ∀ r, r ∉ [18, 0, 1] → m.reg r = e.reg r) :
    Resumption.Right ⟨.tick e, intctxRestoreMinimal m⟩ := by
  simp only [entryBytes, stacked_cons] at h
  obtain ⟨h18, hsreg, h0, h1, hpc⟩ := h
  have hpc' : Stacked m.mem (m.sp + 1#16 + 1#16 + 1#16 + 1#16) (pcStack e.pc ++ []) := by
    rwa [append_nil]
  have hm : intctxRestoreMinimal m = reti { m with
        reg := update (update (update (update m.reg 18
          (e.reg 18)) 0 (e.sreg &&& 0x7F#8)) 0 (e.reg 0)) 1 (e.reg 1)
        sreg := e.sreg &&& 0x7F#8
        sp := m.sp + 1#16 + 1#16 + 1#16 + 1#16 } := by
    simp [intctxRestoreMinimal, pop, sts, setReg, h18, hsreg, h0, h1]
  rw [hm]
  refine ⟨ret_pc hpc', ?_, ?_, set_clear_irq hirq⟩
  · show m.sp + 1#16 + 1#16 + 1#16 + 1#16 + BitVec.ofNat 16 w = e.sp
    rw [← add_ofNat_eq hsp, Nat.add_comm, BitVec.ofNat_add]
    bv_omega
  · funext r
    show update (update (update (update m.reg 18
      (e.reg 18)) 0 (e.sreg &&& 0x7F#8)) 0 (e.reg 0)) 1 (e.reg 1) r = e.reg r
    simp only [update_apply]
    split_ifs with h1 h0 h18
    · rw [h1]
    · rw [h0]
    · rw [h18]
    · refine hregs r ?_
      simp only [mem_cons, not_mem_nil, or_false, not_or]
      exact ⟨h18, h0, h1⟩

theorem intctxRestore_right (h : Stacked m.mem m.sp (tickBytes e))
    (hsp : m.sp.toNat + (w + 15) = e.sp.toNat) (hirq : irqFlag e.sreg = true)
    (hsaved : ∀ r ∈ callSaved, m.reg r = e.reg r) :
    Resumption.Right ⟨.tick e, intctxRestore m⟩ := by
  have hlt := e.sp.isLt
  have hall : ∀ r : Reg, r ∉ [18, 0, 1] →
      r ∉ [31, 30, 27, 26, 25, 24, 23, 22, 21, 20, 19] → r ∈ callSaved := by decide
  refine intctxRestoreMinimal_right
    (m := popAll [31, 30, 27, 26, 25, 24, 23, 22, 21, 20, 19] m) h.popAll ?_ hirq ?_
  · rw [popAll_sp, toNat_add_ofNat]
    all_goals
      simp only [length_cons, length_nil]
      omega
  · intro r hr
    rw [popAll_reg h]
    split_ifs with hmem
    · rfl
    · exact hsaved r (hall r hr hmem)

theorem loadSp_spec (hram : IsRam (m.word 30)) (hram' : IsRam (m.word 30 + 1#16)) :
    (m |> ldZ 20 |> ldZ 21 |> sts SPL 20 |> sts SPH 21).mem = m.mem ∧
    (m |> ldZ 20 |> ldZ 21 |> sts SPL 20 |> sts SPH 21).sp =
      join (m.mem (m.word 30 + 1#16)) (m.mem (m.word 30)) := by
  have hfst : (ldZ 20 m).word 30 = m.word 30 + 1#16 := word_setWord _ _ _
  have h20 : (ldZ 21 (ldZ 20 m)).reg 20 = m.mem (m.word 30) := by
    rw [ldZ, setWord_of_ne (by decide) (by decide), setReg_of_ne (by decide), ldZ,
      setWord_of_ne (by decide) (by decide), setReg_self, read_of_isRam hram]
  have h21 : (ldZ 21 (ldZ 20 m)).reg 21 = m.mem (m.word 30 + 1#16) := by
    rw [ldZ, setWord_of_ne (by decide) (by decide), setReg_self, hfst, read_of_isRam hram']
    rfl
  simp only [sts, write_SPL, write_SPH, h20, h21, lo_join, and_true]
  rfl

theorem restoreContext_spec {f : Reg → Byte} {z : Byte} {bs : List Byte}
    (hram : IsRam (m.word 30)) (hram' : IsRam (m.word 30 + 1#16))
    (h : Stacked m.mem (join (m.mem (m.word 30 + 1#16)) (m.mem (m.word 30)))
      (z :: (callSaved.reverse.map f ++ bs))) :
    ∃ m' : Machine w, restoreContext m = m'.ret ∧ m'.mem = m.mem ∧ m'.sreg = z ∧
      (∀ r ∈ callSaved, m'.reg r = f r) ∧ Stacked m'.mem m'.sp bs ∧
      m'.sp = join (m.mem (m.word 30 + 1#16)) (m.mem (m.word 30)) + 19#16 := by
  obtain ⟨hmem, hsp⟩ := loadSp_spec hram hram'
  have hm : restoreContext m = ret (popAll callSaved.reverse
      (m |> ldZ 20 |> ldZ 21 |> sts SPL 20 |> sts SPH 21 |> pop 17 |> sts SREG 17)) := rfl
  rw [← hsp] at h ⊢
  rw [hm]
  generalize (m |> ldZ 20 |> ldZ 21 |> sts SPL 20 |> sts SPH 21) = m1 at *
  rw [← hmem, stacked_cons] at h
  have hsts : sts SREG 17 (pop 17 m1) = { pop 17 m1 with sreg := z } := by
    rw [sts, write_SREG, pop, setReg_self, h.1]
  rw [hsts]
  refine ⟨_, rfl, ?_, popAll_sreg, ?_, Stacked.popAll h.2, ?_⟩
  · rw [popAll_mem]
    exact hmem
  · intro r hr
    rw [popAll_reg h.2, if_pos (mem_reverse.mpr hr)]
  · rw [popAll_sp]
    show m1.sp + 1#16 + 18#16 = m1.sp + 19#16
    rw [BitVec.add_assoc]
    rfl

end Restore

@[simp] theorem goOn_mem (l : Layout c T) (m : Machine c.pcSize) : (goOn l m).mem = m.mem := by
  rw [goOn]
  split_ifs
  · exact intctxRestore_mem m
  · rfl

theorem Frame.resume {fr : Frame c.pcSize} {m : Machine c.pcSize} (hret : fr.Returns l)
    (h : Stacked m.mem m.sp (fr.rest l))
    (hsp : m.sp.toNat + (fr.rest l).length = fr.origin.sp.toNat)
    (hsaved : ∀ r ∈ callSaved, m.reg r = fr.origin.reg r) (hirq : irqFlag m.sreg = fr.irq) :
    Resumption.Right ⟨fr, goOn l m.ret⟩ := by
  cases fr with
  | call e =>
    have hpc : m.ret.pc = e.pc := by
      have hstack : Stacked m.mem m.sp (pcStack e.pc ++ []) := by
        rw [append_nil]
        exact h
      exact ret_pc hstack
    rw [Frame.rest, length_pcStack] at hsp
    rw [goOn, hpc, if_neg hret]
    exact ⟨hpc, add_ofNat_eq hsp, hsaved, hirq⟩
  | tick e =>
    have hlt := e.sp.isLt
    rw [Frame.rest, length_append, length_pcStack, length_tickBytes] at hsp
    have hlow := (stacked_append.mp h).2
    rw [length_pcStack] at hlow
    rw [goOn, if_pos (ret_pc h)]
    refine intctxRestore_right hlow ?_ hret hsaved
    show (m.sp + BitVec.ofNat 16 c.pcSize).toNat + (c.pcSize + 15) = e.sp.toNat
    simp only [Frame.origin] at hsp
    rw [toNat_add_ofNat (by omega)]
    omega

section Save

variable {w n : Nat} {keep : Addr → Prop} {e m : Machine w} {bs : List Byte}

@[simp] theorem length_saved (f : Reg → Byte) : (callSaved.reverse.map f).length = 18 := rfl

structure Takes (keep : Addr → Prop) (e : Machine w) (n : Nat) (a : Addr) : Prop where
  ram : IsRam a
  free : ¬ keep a
  out : a.toNat + n ≤ e.sp.toNat ∨ e.sp.toNat < a.toNat

theorem Takes.write {a : Addr} {v : Byte} {rs : List Reg} (ha : Takes keep e n a)
    (h : Pushed keep rs e m bs) (hn : bs.length ≤ n) : Pushed keep rs e (m.write a v) bs := by
  have hsp := h.sp
  refine h.write ha.ram ha.free ?_
  rcases ha.out with ho | ho
  · left
    omega
  · exact .inr ho

theorem stX_spec {r : Reg} (h : Pushed keep [] e m bs) (hn : bs.length ≤ n)
    (hx : Takes keep e n (m.word 26)) :
    Pushed keep [] e (stX r m) bs ∧
      (stX r m).mem = update m.mem (m.word 26) (m.reg r) ∧ (stX r m).sp = m.sp ∧
      (stX r m).word 26 = m.word 26 + 1#16 ∧
      ∀ q, q ≠ 26 → q ≠ 27 → (stX r m).reg q = m.reg q := by
  refine ⟨(hx.write h hn).setWord _ not_mem_nil not_mem_nil, ?_⟩
  rw [stX, write_of_isRam hx.ram]
  refine ⟨rfl, rfl, word_setWord _ _ _, ?_⟩
  intro q h26 h27
  rw [setWord_of_ne h26 h27]

theorem storeSp_spec (h : Pushed keep [] e m bs) (hn : bs.length ≤ n)
    (h0 : Takes keep e n (m.word 26)) (h1 : Takes keep e n (m.word 26 + 1#16)) :
    Pushed keep [] e (m |> lds 20 SPL |> lds 21 SPH |> stX 20 |> stX 21) bs ∧
    (m |> lds 20 SPL |> lds 21 SPH |> stX 20 |> stX 21).mem =
      update (update m.mem (m.word 26) (lo m.sp)) (m.word 26 + 1#16) (hi m.sp) ∧
    (m |> lds 20 SPL |> lds 21 SPH |> stX 20 |> stX 21).sp = m.sp ∧
    (m |> lds 20 SPL |> lds 21 SPH |> stX 20 |> stX 21).word 30 = m.word 30 := by
  have hlds : lds 21 SPH (lds 20 SPL m) = (m.setReg 20 (lo m.sp)).setReg 21 (hi m.sp) := by
    rw [lds, lds, read_SPL, read_SPH]
    rfl
  have hp : Pushed keep [] e (lds 21 SPH (lds 20 SPL m)) bs := by
    rw [hlds]
    exact (h.setReg _ not_mem_nil).setReg _ not_mem_nil
  have hreg : ∀ q, q ≠ 20 → q ≠ 21 → (lds 21 SPH (lds 20 SPL m)).reg q = m.reg q := by
    intro q h20 h21
    rw [hlds, setReg_of_ne h21, setReg_of_ne h20]
  have hlo : (lds 21 SPH (lds 20 SPL m)).reg 20 = lo m.sp := by
    rw [hlds, setReg_of_ne (by decide), setReg_self]
  have hhi : (lds 21 SPH (lds 20 SPL m)).reg 21 = hi m.sp := by
    rw [hlds, setReg_self]
  have hx : (lds 21 SPH (lds 20 SPL m)).word 26 = m.word 26 := by
    rw [word, hreg _ (by decide) (by decide), hreg _ (by decide) (by decide), word]
  rw [← hx] at h0 h1
  obtain ⟨hp', hmem', hsp', hx', hreg'⟩ := stX_spec (r := 20) hp hn h0
  rw [← hx'] at h1
  obtain ⟨hp2, hmem2, hsp2, -, hreg2⟩ := stX_spec (r := 21) hp' hn h1
  refine ⟨hp2, ?_, hsp2.trans hsp', ?_⟩
  · show (stX 21 (stX 20 (lds 21 SPH (lds 20 SPL m)))).mem = _
    rw [hmem2, hmem', hx', hx, hlo, hreg' _ (by decide) (by decide), hhi]
    rfl
  · show (stX 21 (stX 20 (lds 21 SPH (lds 20 SPL m)))).word 30 = _
    rw [word, word]
    simp only [hreg2 _ (by decide : (30 : Reg) ≠ 26) (by decide),
      hreg2 _ (by decide : (30 : Reg) + 1#5 ≠ 26) (by decide),
      hreg' _ (by decide : (30 : Reg) ≠ 26) (by decide),
      hreg' _ (by decide : (30 : Reg) + 1#5 ≠ 26) (by decide),
      hreg _ (by decide : (30 : Reg) ≠ 20) (by decide),
      hreg _ (by decide : (30 : Reg) + 1#5 ≠ 20) (by decide)]

theorem saveContext_spec (h : Pushed keep callSaved e m bs) (hroom : Room keep e.sp n)
    (hn : 19 + bs.length ≤ n) (h0 : Takes keep e n (m.word 26))
    (h1 : Takes keep e n (m.word 26 + 1#16)) :
    Pushed keep [] e (saveContext m) (m.sreg :: (callSaved.reverse.map e.reg ++ bs)) ∧
    join ((saveContext m).mem (m.word 26 + 1#16)) ((saveContext m).mem (m.word 26)) =
      (saveContext m).sp ∧
    (saveContext m).word 30 = m.word 30 := by
  have hall := h.pushAll callSaved hroom (by
    show 18 + bs.length ≤ n
    omega) (List.Subset.refl callSaved)
  have hlds : lds 17 SREG (m.pushAll callSaved) = (m.pushAll callSaved).setReg 17 m.sreg := by
    rw [lds, read_SREG, pushAll_sreg]
  have hpush : Pushed keep [] e (push 17 (lds 17 SREG (m.pushAll callSaved)))
      (m.sreg :: (callSaved.reverse.map e.reg ++ bs)) := by
    rw [hlds]
    refine ((hall.mono (fun _ ha => ha) (nil_subset _)).setReg _ not_mem_nil).push hroom
      ?_ (setReg_self _ _ _)
    rw [length_append, length_saved]
    omega
  have hreg : ∀ q, q ≠ 17 → (push 17 (lds 17 SREG (m.pushAll callSaved))).reg q = m.reg q := by
    intro q hq
    rw [hlds]
    show ((m.pushAll callSaved).setReg 17 m.sreg).reg q = m.reg q
    rw [setReg_of_ne hq, pushAll_reg]
  have hx : (push 17 (lds 17 SREG (m.pushAll callSaved))).word 26 = m.word 26 := by
    rw [word, hreg _ (by decide), hreg _ (by decide), word]
  have hz : (push 17 (lds 17 SREG (m.pushAll callSaved))).word 30 = m.word 30 := by
    rw [word, hreg _ (by decide), hreg _ (by decide), word]
  rw [← hx] at h0 h1
  obtain ⟨hp, hmem, hsp, hz'⟩ := storeSp_spec hpush (by
    rw [length_cons, length_append, length_saved]
    omega) h0 h1
  have hsave : saveContext m = (push 17 (lds 17 SREG (m.pushAll callSaved)) |> lds 20 SPL
      |> lds 21 SPH |> stX 20 |> stX 21) := rfl
  have hne : m.word 26 ≠ m.word 26 + 1#16 := by bv_omega
  rw [hsave]
  refine ⟨hp, ?_, hz'.trans hz⟩
  rw [hmem, hsp, hx, update_self, update_of_ne hne, update_self,
    join_hi_lo]

end Save

theorem Layout.spByte_zero (l : Layout c T) (t : T) : l.spByte t 0 = l.thread t := BitVec.add_zero _

theorem Layout.thread_inj (l : Layout c T) {t u : T} (h : l.thread t = l.thread u) : t = u := by
  by_contra hne
  refine l.sp_sp t u hne 0 (by decide) 0 (by decide) ?_
  rw [h]

theorem Layout.current_congr {mem mem' : Addr → Byte} (h0 : mem' (l.ker 0) = mem (l.ker 0))
    (h1 : mem' (l.ker 1) = mem (l.ker 1)) : l.current mem' = l.current mem := by
  rw [current, current, h0, h1]

theorem Layout.ker_ne {i j : Nat} (hi : i < 8) (hj : j < 8) (h : i ≠ j) : l.ker i ≠ l.ker j := by
  intro heq
  have h' := congrArg BitVec.toNat ((BitVec.add_right_inj _).mp heq)
  rw [BitVec.toNat_ofNat, BitVec.toNat_ofNat] at h'
  omega

namespace Suspended

variable {mem mem' : Addr → Byte} {t u : T} {fr : Frame c.pcSize} {a : Addr}

theorem congr (h : Suspended l mem t fr)
    (hmem : ∀ a, l.InContext mem t fr a → mem' a = mem a) : Suspended l mem' t fr := by
  have hsp : l.savedSp mem' t = l.savedSp mem t := by
    rw [Layout.savedSp, hmem _ (.inl rfl), hmem _ (.inr (.inl rfl)), Layout.savedSp]
  obtain ⟨z, hz, hst, hlen⟩ := h.stacked
  have hlt := fr.origin.sp.isLt
  refine ⟨h.returns, ⟨z, hz, ?_, by rwa [hsp]⟩, by rw [hsp]; exact h.bot, h.top⟩
  rw [hsp]
  refine hst.congr (by omega) ?_
  intro a h1 h2
  exact hmem a (.inr (.inr ⟨h1, by omega⟩))

theorem inContext (h : Suspended l mem t fr) (ha : l.InContext mem t fr a) :
    (∃ i < 2, a = l.spByte t i) ∨ l.bot t ≤ a.toNat ∧ a.toNat ≤ l.top t := by
  have hbot := h.bot
  have htop := h.top
  rcases ha with ha | ha | ha
  · exact .inl ⟨0, by decide, ha⟩
  · exact .inl ⟨1, by decide, ha⟩
  · right
    omega

end Suspended

theorem Sys.Space.out {s : Sys c T} {n : Nat} (h : s.Space l n) {a : Addr}
    (ha : a.toNat < l.bot s.running ∨ l.top s.running < a.toNat) :
    a.toNat + n ≤ s.cpu.sp.toNat ∨ s.cpu.sp.toNat < a.toNat := by
  obtain ⟨h1, h2⟩ := h
  omega

structure SwitchInv (l : Layout c T) (s : Sys c T) : Prop where
  current : l.current s.cpu.mem = l.thread s.running
  suspended : ∀ u, u ≠ s.running → Suspended l s.cpu.mem u (s.frame u)
  right : ∀ e ∈ s.log, e.Right

namespace SwitchInv

variable {s : Sys c T} {n : Nat}

theorem not_kept (h : SwitchInv l s) {a : Addr}
    (hsp : ∀ u, u ≠ s.running → ∀ i < 2, a ≠ l.spByte u i)
    (hstack : ∀ u, u ≠ s.running → a.toNat < l.bot u ∨ l.top u < a.toNat)
    (hker : a ≠ l.ker 0 ∧ a ≠ l.ker 1) : ¬ s.Kept l a := by
  rintro (⟨u, hu, ha⟩ | ha | ha)
  · rcases (h.suspended u hu).inContext ha with ⟨i, hi, ha'⟩ | ha'
    · exact hsp u hu i hi ha'
    · rcases hstack u hu with ho | ho <;> omega
  · exact hker.1 ha
  · exact hker.2 ha

theorem room (h : SwitchInv l s) (hs : s.Space l n) : Room (s.Kept l) s.cpu.sp n := by
  obtain ⟨h1, h2⟩ := hs
  have hbot := l.bot_ram s.running
  refine ⟨by omega, ?_⟩
  intro a ha1 ha2
  -- the bytes below the stack pointer are bytes of the running thread's stack
  have hoff : ∀ b : Addr, b.toNat < l.bot s.running ∨ l.top s.running < b.toNat → a ≠ b := by
    rintro b ho rfl
    omega
  refine h.not_kept ?_ ?_ ⟨hoff _ (l.ker_off 0 (by decide) _), hoff _ (l.ker_off 1 (by decide) _)⟩
  · intro u _ i hi
    exact hoff _ (l.sp_off u i hi s.running)
  · intro u hu
    rcases l.stack_apart u s.running hu with ho | ho
    · right
      omega
    · left
      omega

theorem takes_sp (h : SwitchInv l s) (hs : s.Space l n) {e : Machine c.pcSize}
    (he : e.sp = s.cpu.sp) {i : Nat} (hi : i < 2) :
    Takes (s.Kept l) e n (l.spByte s.running i) := by
  refine ⟨l.sp_ram _ i hi, ?_, ?_⟩
  · refine h.not_kept ?_ ?_ ⟨?_, ?_⟩
    · intro u hu j hj
      exact l.sp_sp s.running u hu.symm i hi j hj
    · intro u _
      exact l.sp_off s.running i hi u
    · exact l.sp_ker s.running i hi 0 (by decide)
    · exact l.sp_ker s.running i hi 1 (by decide)
  · rw [he]
    exact hs.out (l.sp_off s.running i hi s.running)

theorem takes_ker (h : SwitchInv l s) (hs : s.Space l n) {e : Machine c.pcSize}
    (he : e.sp = s.cpu.sp) {i : Nat} (h2 : 2 ≤ i) (h8 : i < 8) :
    Takes (s.Kept l) e n (l.ker i) := by
  refine ⟨l.ker_ram i h8, ?_, ?_⟩
  · refine h.not_kept ?_ ?_ ⟨?_, ?_⟩
    · intro u _ j hj
      exact (l.sp_ker u j hj i h8).symm
    · intro u _
      exact l.ker_off i h8 u
    · exact Layout.ker_ne h8 (by decide) (by omega)
    · exact Layout.ker_ne h8 (by decide) (by omega)
  · rw [he]
    exact hs.out (l.ker_off i h8 s.running)

end SwitchInv

section Yield

variable {s : Sys c T} {m : Machine c.pcSize} {next : T}

theorem loadThreads_eq (l : Layout c T) (m : Machine c.pcSize) :
    loadThreads l m = ((m.setWord 26 (m.word 24)).setReg 30 (m.mem (l.ker 0))).setReg 31
      (m.mem (l.ker 1)) := by
  have h0 : IsRam (l.ker 0) := l.ker_ram 0 (by decide)
  have h1 : IsRam (l.ker 1) := l.ker_ram 1 (by decide)
  rw [loadThreads, lds, lds, movw, read_of_isRam h0, read_of_isRam h1]
  rfl

theorem loadThreads_prev (l : Layout c T) (m : Machine c.pcSize) :
    (loadThreads l m).word 26 = m.word 24 := by
  rw [loadThreads_eq, word, setReg_of_ne (by decide), setReg_of_ne (by decide),
    setReg_of_ne (by decide), setReg_of_ne (by decide)]
  exact word_setWord m 26 (m.word 24)

theorem loadThreads_current (l : Layout c T) (m : Machine c.pcSize) :
    (loadThreads l m).word 30 = l.current m.mem := by
  have h31 : (30 : Reg) + 1#5 = 31 := by decide
  rw [loadThreads_eq, word, h31, setReg_self, setReg_of_ne (by decide), setReg_self, Layout.current]

theorem loadThreads_pushed {keep : Addr → Prop} {e : Machine c.pcSize} {bs : List Byte}
    (h : Pushed keep callSaved e m bs) : Pushed keep callSaved e (loadThreads l m) bs := by
  rw [loadThreads_eq]
  exact ((h.setWord _ (by decide) (by decide)).setReg _ (by decide)).setReg _ (by decide)

theorem zeroFlag_cp {w : Nat} {d r : Reg} {m : Machine w}
    (h : zeroFlag (cp d r m).sreg = true) : m.reg d = m.reg r := by
  rw [cp, subFlags, zeroFlag_withFlags, beq_iff_eq] at h
  bv_omega

theorem zYield_mem {keep : Addr → Prop} {e : Machine c.pcSize} {bs : List Byte} {n : Nat}
    {zScheduler : Machine c.pcSize → Machine c.pcSize} (h : Pushed keep callSaved e m bs)
    (hroom : Room keep e.sp n) (hn : 19 + bs.length ≤ n)
    (hsch : Called keep e.sp m (zScheduler m))
    (h0 : Takes keep e n ((zScheduler m).word 24))
    (h1 : Takes keep e n ((zScheduler m).word 24 + 1#16)) {a : Addr} (ha : keep a) :
    (zYield l zScheduler m).mem a = e.mem a := by
  have hp : Pushed keep callSaved e (loadThreads l (zScheduler m)) bs :=
    loadThreads_pushed (h.called hsch)
  rw [← loadThreads_prev l] at h0 h1
  have hswitch : ∀ m', Pushed keep callSaved e m' bs →
      m'.word 26 = (loadThreads l (zScheduler m)).word 26 →
      (zThreadSwitch m').mem a = e.mem a := by
    intro m' hm' hx
    rw [← hx] at h0 h1
    rw [zThreadSwitch, restoreContext_mem]
    exact (saveContext_spec hm' hroom hn h0 h1).1.mem a ha
  have hcp : ∀ d r m', Pushed keep callSaved e m' bs → Pushed keep callSaved e (cp d r m') bs :=
    fun d r m' hm' => hm'.setSreg (irqFlag_withFlags ..)
  rw [zYield]
  simp only
  split_ifs
  · exact hswitch _ (hcp _ _ _ hp) rfl
  · exact hswitch _ (hcp _ _ _ (hcp _ _ _ hp)) rfl
  · exact hp.mem a ha
  · exact hswitch _ hp rfl

variable [DecidableEq T] {fr : Frame c.pcSize} {n : Nat} {z : Byte} {mem : Addr → Byte}

theorem SwitchInv.goTo (h : SwitchInv l s) (hcur : l.current m.mem = l.thread next)
    (hall : ∀ u, u ≠ next → Suspended l m.mem u (update s.frame s.running fr u))
    (hright : Resumption.Right ⟨update s.frame s.running fr next, m⟩) :
    SwitchInv l (s.goTo fr next m) := by
  refine ⟨hcur, hall, ?_⟩
  intro e he
  rcases mem_append.mp he with he | he
  · exact h.right e he
  · rw [mem_singleton.mp he]
    exact hright

theorem SwitchInv.goTo_running (h : SwitchInv l s) (hright : Resumption.Right ⟨fr, m⟩)
    (hmem : ∀ a, s.Kept l a → m.mem a = s.cpu.mem a) (hcur : l.current m.mem = l.thread next) :
    SwitchInv l (s.goTo fr next m) := by
  have hsame : l.current m.mem = l.current s.cpu.mem :=
    Layout.current_congr (hmem _ (.inr (.inl rfl))) (hmem _ (.inr (.inr rfl)))
  obtain rfl : next = s.running := by
    refine l.thread_inj ?_
    rw [← hcur, hsame, h.current]
  refine h.goTo hcur ?_ (by rwa [update_self])
  intro u hu
  rw [update_of_ne hu]
  exact (h.suspended u hu).congr fun a ha => hmem a (.inl ⟨u, hu, ha⟩)

structure Chosen (l : Layout c T) (s : Sys c T) (fr : Frame c.pcSize) (n : Nat)
    (z : Byte) (mem : Addr → Byte) (m : Machine c.pcSize) : Prop where
  origin : fr.origin = s.cpu
  returns : fr.Returns l
  irq : irqFlag z = fr.irq
  space : s.Space l n
  len : 19 + (fr.rest l).length ≤ n
  held : ∀ a, s.Held l a → mem a = s.cpu.mem a
  pushed : Pushed (s.Kept l) callSaved { s.cpu with sreg := z, mem := mem } m (fr.rest l)
  prev : m.word 26 = l.thread s.running
  chosen : m.word 30 = l.current mem

omit [DecidableEq T] in
theorem Chosen.cp (hc : Chosen l s fr n z mem m) (d r : Reg) : Chosen l s fr n z mem (cp d r m) :=
  { hc with pushed := hc.pushed.setSreg (irqFlag_withFlags ..) }

theorem Chosen.others (hc : Chosen l s fr n z mem m) (h : SwitchInv l s) {mem' : Addr → Byte}
    (hmem : ∀ a, s.Kept l a → mem' a = mem a) {u : T} (hu : u ≠ s.running) :
    Suspended l mem' u (update s.frame s.running fr u) := by
  rw [update_of_ne hu]
  refine (h.suspended u hu).congr ?_
  intro a ha
  have hheld : s.Held l a := ⟨u, hu, ha⟩
  rw [hmem a (.inl hheld), hc.held a hheld]

theorem Chosen.saved (hc : Chosen l s fr n z mem m) (h : SwitchInv l s) :
    (∀ u, Suspended l (saveContext m).mem u (update s.frame s.running fr u)) ∧
      l.current (saveContext m).mem = l.current mem ∧
      (saveContext m).word 30 = l.current mem := by
  have ht0 : Takes (s.Kept l) { s.cpu with sreg := z, mem := mem } n (m.word 26) := by
    rw [hc.prev, ← l.spByte_zero]
    refine h.takes_sp hc.space ?_ (by decide)
    rfl
  have ht1 : Takes (s.Kept l) { s.cpu with sreg := z, mem := mem } n (m.word 26 + 1#16) := by
    rw [hc.prev]
    refine h.takes_sp hc.space ?_ (i := 1) (by decide)
    rfl
  obtain ⟨hp, hsp, hz⟩ := saveContext_spec hc.pushed (h.room hc.space) hc.len ht0 ht1
  refine ⟨?_, ?_, hz.trans hc.chosen⟩
  · intro u
    by_cases hu : u = s.running
    · subst hu
      rw [update_self]
      have hsaved : l.savedSp (saveContext m).mem s.running = (saveContext m).sp := by
        rw [hc.prev] at hsp
        rw [← hsp, Layout.savedSp, l.spByte_zero]
        rfl
      have hlen := hp.sp
      have hspace := hc.space
      have hn := hc.len
      rw [length_cons, length_append, length_saved] at hlen
      refine ⟨hc.returns, ⟨m.sreg, hc.pushed.irq.trans hc.irq, ?_, ?_⟩, ?_, ?_⟩
      · rw [hsaved, Frame.bytes, hc.origin]
        exact hp.stacked
      · rw [hsaved, Frame.bytes, hc.origin]
        exact hp.sp
      · have hbot := hspace.1
        simp only at hlen
        rw [hsaved]
        omega
      · rw [hc.origin]
        exact hspace.2
    · exact hc.others h hp.mem hu
  · exact Layout.current_congr (hp.mem _ (.inr (.inl rfl))) (hp.mem _ (.inr (.inr rfl)))

theorem Chosen.switched (hc : Chosen l s fr n z mem m) (h : SwitchInv l s)
    (hnext : l.current (goOn l (zThreadSwitch m)).mem = l.thread next) :
    SwitchInv l (s.goTo fr next (goOn l (zThreadSwitch m))) := by
  obtain ⟨hall, hcur, hz⟩ := hc.saved h
  have hmem : (goOn l (zThreadSwitch m)).mem = (saveContext m).mem := by
    rw [goOn_mem, zThreadSwitch, restoreContext_mem]
  have hnext' := hnext
  rw [hmem, hcur] at hnext'
  rw [hnext'] at hz
  obtain ⟨z', hz', hst, hlen⟩ := (hall next).stacked
  have hsp : l.savedSp (saveContext m).mem next =
      join ((saveContext m).mem ((saveContext m).word 30 + 1#16))
        ((saveContext m).mem ((saveContext m).word 30)) := by
    rw [hz, Layout.savedSp, l.spByte_zero]
    rfl
  have hram : IsRam ((saveContext m).word 30) := by
    rw [hz, ← l.spByte_zero]
    exact l.sp_ram next 0 (by decide)
  have hram' : IsRam ((saveContext m).word 30 + 1#16) := by
    rw [hz]
    exact l.sp_ram next 1 (by decide)
  have hstart := hst
  rw [hsp, Frame.bytes] at hstart
  obtain ⟨m', hm', -, hsreg, hsaved, hrest, hsp'⟩ := restoreContext_spec hram hram' hstart
  rw [← hsp] at hsp'
  rw [Frame.bytes, length_cons, length_append, length_saved] at hlen
  refine h.goTo hnext ?_ ?_
  · intro u _
    rw [hmem]
    exact hall u
  · rw [zThreadSwitch, hm']
    refine Frame.resume (hall next).returns hrest ?_ hsaved ?_
    · have hlt := (update s.frame s.running fr next).origin.sp.isLt
      have hadd : (l.savedSp (saveContext m).mem next + BitVec.ofNat 16 19).toNat =
          (l.savedSp (saveContext m).mem next).toNat + 19 := toNat_add_ofNat (by omega)
      rw [hsp', hadd]
      omega
    · rw [hsreg]
      exact hz'

theorem Chosen.returned (hc : Chosen l s fr n z mem m) (h : SwitchInv l s)
    (hsame : m.word 26 = m.word 30)
    (hnext : l.current (goOn l m.ret).mem = l.thread next) :
    SwitchInv l (s.goTo fr next (goOn l m.ret)) := by
  have hmem : (goOn l m.ret).mem = m.mem := by
    rw [goOn_mem]
    rfl
  obtain rfl : next = s.running := by
    refine l.thread_inj ?_
    rw [← hnext, ← hc.prev, hsame, hc.chosen, hmem]
    exact Layout.current_congr (hc.pushed.mem _ (.inr (.inl rfl)))
      (hc.pushed.mem _ (.inr (.inr rfl)))
  refine h.goTo hnext ?_ ?_
  · intro u hu
    rw [hmem]
    exact hc.others h hc.pushed.mem hu
  · rw [update_self]
    refine Frame.resume hc.returns hc.pushed.stacked ?_ ?_ (hc.pushed.irq.trans hc.irq)
    · rw [hc.origin]
      exact hc.pushed.sp
    · rw [hc.origin]
      exact hc.pushed.regs

/-- **YIELDING**. -/
theorem SwitchInv.yielded {zScheduler : Machine c.pcSize → Machine c.pcSize}
    (h : SwitchInv l s) (horigin : fr.origin = s.cpu) (hreturns : fr.Returns l)
    (hirq : irqFlag z = fr.irq) (hspace : s.Space l n) (hlen : 19 + (fr.rest l).length ≤ n)
    (hp : Pushed (s.Kept l) callSaved { s.cpu with sreg := z } m (fr.rest l))
    (hsch : s.Schedules l zScheduler m)
    (hnext : l.current (goOn l (zYield l zScheduler m)).mem = l.thread next) :
    SwitchInv l (s.goTo fr next (goOn l (zYield l zScheduler m))) := by
  have hheld := (hp.mono (fun _ ha => .inl ha) (List.Subset.refl _)).called hsch.1
  have hbase : Pushed (s.Kept l) callSaved { s.cpu with sreg := z, mem := (zScheduler m).mem }
      (zScheduler m) (fr.rest l) :=
    ⟨hheld.stacked, hheld.sp, fun _ _ => rfl, hheld.regs, hheld.irq⟩
  have hprev : (zScheduler m).word 24 = l.thread s.running := by
    rw [hsch.2, ← h.current]
    exact Layout.current_congr (hp.mem _ (.inr (.inl rfl))) (hp.mem _ (.inr (.inr rfl)))
  have hc : Chosen l s fr n z (zScheduler m).mem (loadThreads l (zScheduler m)) :=
    { origin := horigin
      returns := hreturns
      irq := hirq
      space := hspace
      len := hlen
      held := hheld.mem
      pushed := loadThreads_pushed hbase
      prev := (loadThreads_prev l _).trans hprev
      chosen := loadThreads_current l _ }
  rw [zYield] at hnext ⊢
  simp only at hnext ⊢
  generalize loadThreads l (zScheduler m) = m₂ at hc hnext ⊢
  split_ifs at hnext ⊢ with hcmp hlo hhi
  · exact (hc.cp 26 30).switched h hnext
  · exact ((hc.cp 26 30).cp 27 31).switched h hnext
  · refine ((hc.cp 26 30).cp 27 31).returned h ?_ hnext
    have hlo' : m₂.reg 26 = m₂.reg 30 := zeroFlag_cp (by simpa using hlo)
    have hhi' : m₂.reg 27 = m₂.reg 31 := zeroFlag_cp (m := cp 26 30 m₂) (by simpa using hhi)
    show join (m₂.reg 27) (m₂.reg 26) = join (m₂.reg 31) (m₂.reg 30)
    rw [hlo', hhi']
  · exact hc.switched h hnext

end Yield

section Timer

variable {keep : Addr → Prop} {rs : List Reg} {e m : Machine c.pcSize} {bs : List Byte}
variable {n i : Nat}

def tickKept : List Reg :=
  [2, 3, 4, 5, 6, 7, 8, 9, 10, 11, 12, 13, 14, 15, 16, 17, 19, 20, 21, 22, 23, 24, 25, 26, 27, 28,
    29, 30, 31]

theorem addCarry_pushed (h : Pushed keep rs e m bs) (ht : Takes keep e n (l.ker i))
    (hn : bs.length ≤ n) (h0 : 0 ∉ rs) : Pushed keep rs e (addCarry l i m) bs :=
  ht.write (((h.setReg _ h0).setReg _ h0).setSreg (irqFlag_withFlags ..)) hn

theorem addCarry_reg {q : Reg} (hq : q ≠ 0) : (addCarry l i m).reg q = m.reg q := by
  rw [addCarry, sts, write_reg, adc, lds]
  simp only [setReg_of_ne hq]

theorem countTick_pushed (h : Pushed keep tickKept e m bs) (hn : bs.length ≤ n)
    (ht : ∀ i, 2 ≤ i → i < 8 → Takes keep e n (l.ker i)) :
    Pushed keep tickKept e (countTick l m) bs := by
  have h0 : (0 : Reg) ∉ tickKept := by decide
  have h18 : (18 : Reg) ∉ tickKept := by decide
  have hadd : Pushed keep tickKept e
      (m |> ldi 18 0x01 |> lds 0 (l.ker 2) |> add 0 18 |> sts (l.ker 2) 0) bs :=
    (ht 2 (by decide) (by decide)).write
      ((((h.setReg _ h18).setReg _ h0).setReg _ h0).setSreg (irqFlag_withFlags ..)) hn
  have h3 := addCarry_pushed hadd (ht 3 (by decide) (by decide)) hn h0
  have h4 := addCarry_pushed h3 (ht 4 (by decide) (by decide)) hn h0
  have h5 := addCarry_pushed h4 (ht 5 (by decide) (by decide)) hn h0
  rw [countTick]
  split_ifs
  · exact addCarry_pushed h5 (ht 6 (by decide) (by decide)) hn h0
  · exact h5

theorem countTick_zero : (countTick l m).reg 1 = m.reg 1 := by
  have h1 : (1 : Reg) ≠ 0 := by decide
  rw [countTick]
  split_ifs
  all_goals
    simp only [addCarry_reg h1]
    rw [sts, write_reg, add, lds, ldi]
    simp only [setReg_of_ne h1, setReg_of_ne (by decide : (1 : Reg) ≠ 18)]

theorem entry_pushed (hroom : Room keep e.sp n) (hn : c.pcSize + 4 ≤ n)
    (he : e = { m with sreg := m.sreg &&& 0x7F#8 }) :
    Pushed keep tickKept e
      (m.interrupt |> push 1 |> push 0 |> lds 0 SREG |> push 0 |> eor 1 1 |> push 18)
      (entryBytes m) := by
  have h0 : (0 : Reg) ∉ tickKept := by decide
  have h1 : (1 : Reg) ∉ tickKept := by decide
  have hint : m.interrupt = e.pushPc m.pc := by rw [he, interrupt]
  have hreg : (e.pushPc m.pc).reg = m.reg := by rw [pushPc, pushBytes_reg, he]
  have hsreg : (e.pushPc m.pc).sreg = m.sreg &&& 0x7F#8 := by rw [pushPc, pushBytes_sreg, he]
  have hpc := (Pushed.refl keep tickKept e).pushPc m.pc hroom (by
    rw [length_nil]
    omega)
  rw [append_nil] at hpc
  have hr1 := hpc.push (r := 1) hroom (by rw [length_pcStack]; omega) (congrFun hreg 1)
  have hr0 := hr1.push (r := 0) hroom (by rw [length_cons, length_pcStack]; omega)
    (congrFun hreg 0)
  have hlds : lds 0 SREG (push 0 (push 1 (e.pushPc m.pc))) =
      (push 0 (push 1 (e.pushPc m.pc))).setReg 0 (m.sreg &&& 0x7F#8) := by
    rw [lds, read_SREG, ← hsreg]
    rfl
  have hsr := (hr0.setReg (m.sreg &&& 0x7F#8) h0).push (r := 0) hroom
    (by simp only [length_cons, length_pcStack]; omega) (setReg_self _ _ _)
  rw [← hlds] at hsr
  have heor : Pushed keep tickKept e
      (eor 1 1 (push 0 (lds 0 SREG (push 0 (push 1 (e.pushPc m.pc))))))
      ((m.sreg &&& 0x7F#8) :: m.reg 0 :: m.reg 1 :: pcStack m.pc) :=
    (hsr.setReg _ h1).setSreg (irqFlag_withFlags ..)
  have hr18 : (eor 1 1 (push 0 (lds 0 SREG (push 0 (push 1 (e.pushPc m.pc)))))).reg 18 =
      m.reg 18 := by
    rw [eor_of_ne (by decide), push_reg, hlds, setReg_of_ne (by decide), push_reg, push_reg, hreg]
  rw [hint]
  exact heor.push hroom (by simp only [length_cons, length_pcStack]; omega) hr18

theorem timerEntry_pushed (hroom : Room keep e.sp n) (hn : c.pcSize + 4 ≤ n)
    (he : e = { m with sreg := m.sreg &&& 0x7F#8 })
    (ht : ∀ i, 2 ≤ i → i < 8 → Takes keep e n (l.ker i)) :
    Pushed keep tickKept e (timerEntry l m) (entryBytes m) := by
  have h := entry_pushed hroom hn he
  rw [timerEntry]
  split_ifs
  · exact countTick_pushed h (by rwa [length_entryBytes]) ht
  · exact h

theorem timerEntry_zero : (timerEntry l m).reg 1 = 0 := by
  have h : (m.interrupt |> push 1 |> push 0 |> lds 0 SREG |> push 0 |> eor 1 1
      |> push 18).reg 1 = 0 := eor_self 1 _
  rw [timerEntry]
  split_ifs
  · rw [countTick_zero]
    exact h
  · exact h

theorem ticksSize_lt : 2 + c.ticksSize < 8 := by
  rw [Config.ticksSize]
  split_ifs <;> decide

theorem countSlice_pushed (h : Pushed keep tickKept e m bs) (hn : bs.length ≤ n)
    (ht : Takes keep e n (l.ker (2 + c.ticksSize))) :
    Pushed keep tickKept e (countSlice l m) bs := by
  have h18 : (18 : Reg) ∉ tickKept := by decide
  exact ht.write (((h.setReg _ h18).setReg _ h18).setSreg (irqFlag_withFlags ..)) hn

theorem atSlice_pushed (h : Pushed keep tickKept e (timerEntry l m) bs) (hn : bs.length ≤ n)
    (ht : Takes keep e n (l.ker (2 + c.ticksSize))) :
    Pushed keep tickKept e (atSlice l m) bs := by
  rw [atSlice]
  split_ifs
  · exact countSlice_pushed h hn ht
  · exact h

theorem atSlice_zero : (atSlice l m).reg 1 = 0 := by
  have h1 : (1 : Reg) ≠ 18 := by decide
  rw [atSlice]
  split_ifs
  · rw [countSlice, sts, write_reg, subi, lds]
    simp only [setReg_of_ne h1]
    exact timerEntry_zero
  · exact timerEntry_zero

theorem atSchedEnter_pushed (h : Pushed keep tickKept e (atSlice l m) (entryBytes m))
    (hroom : Room keep e.sp n) (hn : c.pcSize + 15 ≤ n) (hreg : e.reg = m.reg) :
    Pushed keep callSaved e (atSchedEnter l m) (tickBytes m) := by
  have h' := h.pushAll [19, 20, 21, 22, 23, 24, 25, 26, 27, 30, 31] hroom ?_ (by decide)
  · rw [hreg] at h'
    exact h'.mono (fun _ ha => ha) (by decide)
  · rw [length_entryBytes]
    show 11 + (c.pcSize + 4) ≤ n
    omega

theorem testLocked_pushed (h : Pushed keep callSaved e m bs) :
    Pushed keep callSaved e (testLocked l m) bs :=
  ((((h.setReg _ (by decide)).setReg _ (by decide)).setReg _ (by decide)).setReg _
    (by decide)).setSreg (irqFlag_withFlags ..)

theorem testLocked_zero : (testLocked l m).reg 1 = m.reg 1 := by
  rw [testLocked, andi, lddZ, lds, lds]
  simp only [setReg_of_ne (by decide : (1 : Reg) ≠ 18), setReg_of_ne (by decide : (1 : Reg) ≠ 30),
    setReg_of_ne (by decide : (1 : Reg) ≠ 31)]

def restoreBytes (l : Layout c T) : List Byte :=
  (if c.wide then [0] else []) ++
    [BitVec.ofNat 8 (l.intctxRestore / 256), BitVec.ofNat 8 l.intctxRestore]

theorem length_restoreBytes : (restoreBytes l).length = c.pcSize := by
  cases hwide : c.wide <;> simp [restoreBytes, Config.pcSize, hwide]

theorem pcStack_intctxRestore (hlow : l.RestoreLow) :
    pcStack l.intctxRestore = restoreBytes l := by
  have hpc : ∀ k, pcBytes c.pcSize k = if c.wide then pcBytes 3 k else pcBytes 2 k := by
    intro k
    rw [Config.pcSize]
    split_ifs <;> rfl
  have hzero : (l.intctxRestore : Nat) / 256 / 256 = 0 := by
    rw [Layout.RestoreLow] at hlow
    omega
  rw [pcStack, hpc, restoreBytes]
  split_ifs
  · simp only [pcBytes, hzero]
    rfl
  · rfl

theorem pushRestore_pushed (h : Pushed keep callSaved e m bs) (hroom : Room keep e.sp n)
    (hn : c.pcSize + bs.length ≤ n) (hzero : m.reg 1 = 0) :
    Pushed keep callSaved e (pushRestore l m) (restoreBytes l ++ bs) := by
  have hsize : 2 ≤ c.pcSize ∧ (c.wide = true → c.pcSize = 3) := by
    rw [Config.pcSize]
    split_ifs with hw <;> simp [hw]
  have hldi := (h.setReg (BitVec.ofNat 8 l.intctxRestore) (r := 24) (by decide)).setReg
    (BitVec.ofNat 8 (l.intctxRestore / 256)) (r := 25) (by decide)
  have h24 := hldi.push (r := 24) hroom (by omega) ((setReg_of_ne (by decide) _ _).trans
    (setReg_self _ _ _))
  have h25 := h24.push (r := 25) hroom (by rw [length_cons]; omega)
    ((congrFun (push_reg _ _) 25).trans (setReg_self _ _ _))
  rw [pushRestore, restoreBytes]
  split_ifs with hw
  · refine h25.push hroom ?_ ?_
    · have := hsize.2 hw
      simp only [length_cons]
      omega
    · rw [push_reg, push_reg, setReg_of_ne (by decide), setReg_of_ne (by decide), hzero]
  · exact h25

structure TickPushed (l : Layout c T) (keep : Addr → Prop) (e m : Machine c.pcSize)
    (zSchedEnter : Machine c.pcSize → Machine c.pcSize) : Prop where
  slice : Pushed keep tickKept e (atSlice l m) (entryBytes m)
  entered : Pushed keep callSaved e (zSchedEnter (atSchedEnter l m)) (tickBytes m)
  locked : Pushed keep callSaved e (testLocked l (zSchedEnter (atSchedEnter l m))) (tickBytes m)
  yields : Pushed keep callSaved e
    (pushRestore l (testLocked l (zSchedEnter (atSchedEnter l m))))
    (restoreBytes l ++ tickBytes m)

/-- **THE INTERRUPT**. -/
theorem tickPushed {zSchedEnter : Machine c.pcSize → Machine c.pcSize}
    (hentry : Pushed keep tickKept e (timerEntry l m) (entryBytes m)) (hreg : e.reg = m.reg)
    (hroom : Room keep e.sp n) (hn : 2 * c.pcSize + 15 ≤ n)
    (ht : Takes keep e n (l.ker (2 + c.ticksSize)))
    (henter : Called keep e.sp (atSchedEnter l m) (zSchedEnter (atSchedEnter l m))) :
    TickPushed l keep e m zSchedEnter := by
  have hslice := atSlice_pushed hentry (by rw [length_entryBytes]; omega) ht
  have hentered := (atSchedEnter_pushed hslice hroom (by omega) hreg).called henter
  refine ⟨hslice, hentered, testLocked_pushed hentered, ?_⟩
  refine pushRestore_pushed (testLocked_pushed hentered) hroom ?_ ?_
  · rw [length_tickBytes]
    omega
  · rw [testLocked_zero]
    refine henter.zero ?_
    rw [atSchedEnter, pushAll_reg]
    exact atSlice_zero

end Timer

namespace SwitchInv

variable [DecidableEq T] {s : Sys c T} {next : T}

theorem code {m : Machine c.pcSize} (h : SwitchInv l s)
    (hok : s.Allowed l (.code m)) : SwitchInv l (s.step l (.code m)) := by
  refine ⟨?_, ?_, h.right⟩
  · refine Eq.trans ?_ h.current
    exact Layout.current_congr (hok _ (.inr (.inl rfl))) (hok _ (.inr (.inr rfl)))
  · intro u hu
    exact (h.suspended u hu).congr fun a ha => hok a (.inl ⟨u, hu, ha⟩)

theorem yield {zScheduler : Machine c.pcSize → Machine c.pcSize} (h : SwitchInv l s)
    (hok : s.Allowed l (.yield zScheduler next)) :
    SwitchInv l (s.step l (.yield zScheduler next)) := by
  obtain ⟨hpc, hspace, hsch, hnext⟩ := hok
  have hp := (Pushed.refl (s.Kept l) callSaved s.cpu).pushPc s.cpu.pc (h.room hspace) (by
    rw [length_nil]
    omega)
  rw [append_nil] at hp
  refine h.yielded (rfl : (Frame.call s.cpu).origin = s.cpu) hpc rfl hspace ?_ hp hsch hnext
  rw [Frame.rest, length_pcStack]
  omega

omit [DecidableEq T] in
theorem entryPushed (h : SwitchInv l s) (hspace : s.Space l (2 * c.pcSize + 34)) :
    Pushed (s.Kept l) tickKept { s.cpu with sreg := s.cpu.sreg &&& 0x7F#8 }
      (timerEntry l s.cpu) (entryBytes s.cpu) := by
  refine timerEntry_pushed (h.room hspace) (by omega) rfl ?_
  intro i h2 h8
  refine h.takes_ker hspace ?_ h2 h8
  rfl

omit [DecidableEq T] in
theorem tickPushed {zSchedEnter : Machine c.pcSize → Machine c.pcSize} (h : SwitchInv l s)
    (hspace : s.Space l (2 * c.pcSize + 34))
    (henter : Called (s.Kept l) s.cpu.sp (atSchedEnter l s.cpu)
      (zSchedEnter (atSchedEnter l s.cpu))) :
    TickPushed l (s.Kept l) { s.cpu with sreg := s.cpu.sreg &&& 0x7F#8 } s.cpu zSchedEnter := by
  refine AvrtosContextSwitch.tickPushed (h.entryPushed hspace) rfl (h.room hspace) (by omega) ?_
    henter
  refine h.takes_ker hspace ?_ (Nat.le_add_right 2 _) ticksSize_lt
  rfl

/-- The sysclock interrupt, on each of its ways out. -/
theorem tick {zSchedEnter zScheduler : Machine c.pcSize → Machine c.pcSize} (h : SwitchInv l s)
    (hlow : l.RestoreLow) (hok : s.Allowed l (.tick zSchedEnter zScheduler next)) :
    SwitchInv l (s.step l (.tick zSchedEnter zScheduler next)) := by
  obtain ⟨hirq, hspace, henter, hsch, hnext⟩ := hok
  obtain ⟨hslice, hentered, htested, hyields⟩ := h.tickPushed hspace henter
  have hlong : ∀ m, Pushed (s.Kept l) callSaved { s.cpu with sreg := s.cpu.sreg &&& 0x7F#8 } m
      (tickBytes s.cpu) → l.current (intctxRestore m).mem = l.thread next →
      SwitchInv l (s.goTo (.tick s.cpu) next (intctxRestore m)) := by
    intro m hp hcur
    have hsp := hp.sp
    rw [length_tickBytes] at hsp
    refine h.goTo_running (intctxRestore_right hp.stacked hsp hirq hp.regs) ?_ hcur
    rw [intctxRestore_mem]
    exact hp.mem
  rw [Sys.after, timerCompaVect] at hnext
  rw [Sys.step, Sys.after, timerCompaVect]
  simp only at hnext ⊢
  split_ifs at hnext ⊢ with hearly hcoop hlocked
  · have hsp := hslice.sp
    rw [length_entryBytes] at hsp
    refine h.goTo_running (intctxRestoreMinimal_right hslice.stacked hsp hirq ?_) ?_ hnext
    · have hall : ∀ r : Reg, r ∉ [18, 0, 1] → r ∈ tickKept := by decide
      intro r hr
      exact hslice.regs r (hall r hr)
    · rw [intctxRestoreMinimal_mem]
      exact hslice.mem
  · exact hlong _ htested hnext
  · rw [← pcStack_intctxRestore hlow] at hyields
    refine h.yielded (rfl : (Frame.tick s.cpu).origin = s.cpu) hirq (irqFlag_clear _) hspace
      ?_ hyields hsch hnext
    rw [Frame.rest, length_append, length_pcStack, length_tickBytes]
    omega
  · exact hlong _ hentered hnext

theorem step (h : SwitchInv l s) (hlow : l.RestoreLow) {op : Op c T} (hok : s.Allowed l op) :
    SwitchInv l (s.step l op) := by
  cases op with
  | code m => exact h.code hok
  | yield zScheduler next => exact h.yield hok
  | tick zSchedEnter zScheduler next => exact h.tick hlow hok

end SwitchInv

/-- The invariant holds in every state of every run. -/
theorem SwitchReach.inv [DecidableEq T] {s : Sys c T} (h : SwitchReach l s)
    (hlow : l.RestoreLow) : SwitchInv l s := by
  refine h.invariant ?_ ?_
  · rintro s ⟨hlog, hcur, hsus⟩
    refine ⟨hcur, hsus, ?_⟩
    rw [hlog]
    exact fun e he => absurd he not_mem_nil
  · intro s op hs hok
    exact hs.step hlow hok

/-- **CONTEXT SWITCHES ARE TRANSPARENT**, if `__intctx_restore` lies in the low 64K words: a
    thread goes on with what its call saves, and an interrupted one with all it had. -/
theorem context_switch_transparent [DecidableEq T] (s : Sys c T) (h : SwitchReach l s)
    (hlow : l.RestoreLow) : ∀ e ∈ s.log, e.Right :=
  (h.inv hlow).right

def choose (l : Layout c T) (next : T) (m : Machine c.pcSize) : Machine c.pcSize :=
  { m with
    mem := update (update m.mem (l.ker 0) (lo (l.thread next)))
      (l.ker 1) (hi (l.thread next)) }.setWord 24 (l.current m.mem)

theorem SwitchInv.choose_schedules {s : Sys c T} {n : Nat} {m : Machine c.pcSize}
    (h : SwitchInv l s) (hspace : s.Space l n) (hm : s.cpu.sp.toNat < m.sp.toNat + n) (next : T) :
    s.Schedules l (choose l next) m := by
  have hker : ∀ a : Addr, a ≠ l.ker 0 → a ≠ l.ker 1 → (choose l next m).mem a = m.mem a := by
    intro a h0 h1
    exact (update_of_ne h1 _ _).trans (update_of_ne h0 _ _)
  have hreg : ∀ r, r ≠ 24 → r ≠ 25 → (choose l next m).reg r = m.reg r := by
    intro r h24 h25
    rw [choose, setWord_of_ne h24 h25]
  have hne : ∀ r ∈ callSaved, r ≠ 24 ∧ r ≠ 25 := by decide
  refine ⟨⟨rfl, ?_, ?_, rfl, ?_, ?_⟩, word_setWord _ _ _⟩
  · intro r hr
    exact hreg r (hne r hr).1 (hne r hr).2
  · intro h1
    rw [hreg 1 (by decide) (by decide), h1]
  · rintro a ⟨u, hu, ha⟩
    have hoff : ∀ i < 8, a ≠ l.ker i := by
      rintro i hi rfl
      rcases (h.suspended u hu).inContext ha with ⟨j, hj, hsp⟩ | hst
      · exact l.sp_ker u j hj i hi hsp.symm
      · have := l.ker_off i hi u
        rw [Layout.ker] at hst
        omega
    exact hker a (hoff 0 (by decide)) (hoff 1 (by decide))
  · intro a h1 h2
    obtain ⟨hs1, hs2⟩ := hspace
    have hoff : ∀ i < 8, a ≠ l.ker i := by
      rintro i hi rfl
      have := l.ker_off i hi s.running
      rw [Layout.ker] at h1 h2
      omega
    exact hker a (hoff 0 (by decide)) (hoff 1 (by decide))

/-- With it, a tick may be taken. -/
theorem SwitchInv.allowed_tick [DecidableEq T] {s : Sys c T} {next : T} (h : SwitchInv l s)
    (hirq : irqFlag s.cpu.sreg = true) (hspace : s.Space l (2 * c.pcSize + 34))
    (hsp : s.cpu.sp.toNat <
      (atSchedEnter l s.cpu |> id |> testLocked l |> pushRestore l).sp.toNat + (2 * c.pcSize + 34))
    (hnext : l.current (s.after l (.tick id (choose l next) next)).mem = l.thread next) :
    s.Allowed l (.tick id (choose l next) next) := by
  refine ⟨hirq, hspace, ?_, h.choose_schedules hspace hsp next, hnext⟩
  rw [id]
  exact Called.refl _ _ _

def allOptions : Config := ⟨false, true, true, true, true, true⟩

def twoThreads : Layout allOptions Bool where
  zKer := 0x100
  thread t := if t then 0x110 else 0x120
  bot t := if t then 0x200 else 0x300
  top t := if t then 0x27F else 0x37F
  intctxRestore := ⟨0x80, by decide⟩
  bot_ram := by decide
  stack_apart := by decide
  ker_ram := by decide
  ker_off := by decide
  sp_ram := by decide
  sp_off := by decide
  sp_ker := by decide
  sp_sp := by decide

def startMem (a : Addr) : Byte :=
  if a = 0x100 then 0x10 else if a = 0x101 then 0x01 else if a = 0x107 then 0x01
  else if a = 0x120 then 0x6A else if a = 0x121 then 0x03 else if a = 0x36B then 0x80
  else if a = 0x37F then 0x40 else 0

def startSys : Sys allOptions Bool where
  cpu := ⟨fun _ => 0, 0x80, 0x27F, ⟨0x50, by decide⟩, startMem⟩
  running := true
  frame _ := .call ⟨fun _ => 0, 0x80, 0x37F, ⟨0x40, by decide⟩, startMem⟩
  log := []

theorem startSys_start : startSys.Start twoThreads := by
  refine ⟨rfl, by decide, ?_⟩
  intro u hu
  cases u with
  | true => exact absurd rfl hu
  | false =>
    refine ⟨?_, ⟨0x80, ?_⟩, ?_, ?_⟩
    · show (⟨0x40, by decide⟩ : Fin (256 ^ allOptions.pcSize)) ≠ ⟨0x80, by decide⟩
      decide
    · decide +kernel
    · decide +kernel
    · decide +kernel

theorem startSys_inv : SwitchInv twoThreads startSys :=
  ⟨startSys_start.2.1, startSys_start.2.2, fun _ he => absurd he not_mem_nil⟩

def yieldTo (next : Bool) : Op allOptions Bool := .yield (choose twoThreads next) next

def tickTo (next : Bool) : Op allOptions Bool := .tick id (choose twoThreads next) next

theorem startSys_yieldTo (next : Bool) : startSys.Allowed twoThreads (yieldTo next) := by
  have hspace : startSys.Space twoThreads 21 := by decide +kernel
  refine ⟨by decide +kernel, hspace, ?_, ?_⟩
  · exact startSys_inv.choose_schedules hspace (by decide +kernel) next
  · revert next
    decide +kernel

theorem startSys_tickTo :
    (startSys.step twoThreads (yieldTo false)).Allowed twoThreads (tickTo true) := by
  refine (startSys_inv.yield (startSys_yieldTo false)).allowed_tick ?_ ?_ ?_ ?_
  all_goals decide +kernel

def yieldAndTick : Sys allOptions Bool :=
  (startSys.step twoThreads (yieldTo false)).step twoThreads (tickTo true)

theorem yieldAndTick_reach : SwitchReach twoThreads yieldAndTick :=
  ((Reach.start startSys_start).step _ (startSys_yieldTo false)).step _ startSys_tickTo

/-- Both resumptions of this run are right. -/
theorem context_switch_transparent_back :
    yieldAndTick.log.length = 2 ∧ ∀ e ∈ yieldAndTick.log, e.Right :=
  ⟨rfl, context_switch_transparent _ yieldAndTick_reach (by decide)⟩

/-- After a yield to the same thread the zero flag is that of the comparison of the threads. -/
theorem yield_changes_flags :
    ∃ s, SwitchReach twoThreads s ∧ ∃ m b, ⟨.call m, b⟩ ∈ s.log ∧ zeroFlag m.sreg = false ∧
      zeroFlag b.sreg = true := by
  refine ⟨_, (Reach.start startSys_start).step _ (startSys_yieldTo true), startSys.cpu, _,
    mem_singleton.mpr rfl, ?_, ?_⟩
  · decide
  · decide +kernel

def highRestore : Layout { allOptions with wide := true } Unit where
  zKer := 0x100
  thread _ := 0x110
  bot _ := 0x200
  top _ := 0x27F
  intctxRestore := ⟨0x10080, by decide⟩
  bot_ram := by decide
  stack_apart := by decide
  ker_ram := by decide
  ker_off := by decide
  sp_ram := by decide
  sp_off := by decide
  sp_ker := by decide
  sp_sp := by decide

def highSys : Sys { allOptions with wide := true } Unit where
  cpu := ⟨fun _ => 0, 0x80, 0x27F, ⟨0x50, by decide⟩, startMem⟩
  running := ()
  frame _ := .call ⟨fun _ => 0, 0x80, 0x27F, ⟨0x50, by decide⟩, startMem⟩
  log := []

theorem high_restore_not_right :
    ¬ highRestore.RestoreLow ∧
      ∃ s, SwitchReach highRestore s ∧ ∃ e ∈ s.log, ¬ e.Right := by
  have hstart : highSys.Start highRestore := ⟨rfl, by decide, fun u hu => absurd rfl hu⟩
  have hinv : SwitchInv highRestore highSys :=
    ⟨hstart.2.1, hstart.2.2, fun _ he => absurd he not_mem_nil⟩
  have htick : highSys.Allowed highRestore (.tick id (choose highRestore ()) ()) := by
    refine hinv.allowed_tick ?_ ?_ ?_ ?_
    all_goals decide +kernel
  refine ⟨by decide, _, (Reach.start hstart).step _ htick, _, mem_singleton.mpr rfl, ?_⟩
  intro hright
  exact absurd hright.1 (by decide +kernel)

end AvrtosContextSwitch
