import Avrtos.Base.AvrInterrupts
import Avrtos.Base.AvrShared

/-! # Atomic operations on a byte (arch_atomic.S, atomic.c)

    Each routine has a `Shape`, so in any interleaving of contexts it takes effect at one
    instant. -/

namespace AvrtosAtomic

open Avr hiding Instr
open Function BitVec List Avr.Machine AvrShared Linear Runs

variable {w : Nat} {a : Addr} {m : Machine w}

def atomicGet : List Instr := [.movw 26 24, .ld 24, .ret]

def atomicBlindClear : List Instr := [.movw 26 24, .st 1, .ret]

def readModifyWrite (modify : List Instr) (r : Reg) : List Instr :=
  .movw 26 24 :: .lds 18 SREG :: .cli :: .ld 24 :: modify.append [.sts SREG 18, .st r, .ret]

def atomicClear : List Instr := readModifyWrite [] 1
def atomicOr : List Instr := readModifyWrite [.or 22 24] 22
def atomicXor : List Instr := readModifyWrite [.eor 22 24] 22
def atomicAnd : List Instr := readModifyWrite [.and 22 24] 22
def atomicInc : List Instr := readModifyWrite [.inc 24] 24
def atomicDec : List Instr := readModifyWrite [.dec 24] 24

/-- What a function returns. -/
inductive Answer
  | nothing
  | value (v : Byte)
  | bool (b : Bool)
  deriving DecidableEq, Repr

/-- A call of a routine. -/
structure Invocation where
  routine : List Instr
  value : Option Byte
  answer : Byte → Answer

def BIT (b : Byte) : BitVec 64 := 1#64 <<< b.toNat

/-- `BIT(bit)` as an `atomic_val_t`. -/
def mask (bit : Byte) : Byte := (BIT bit).setWidth 8

def atomicClearBit (bit : Byte) : Invocation :=
  ⟨atomicAnd, some ((~~~BIT bit).setWidth 8), fun _ => .nothing⟩

def atomicSetBit (bit : Byte) : Invocation := ⟨atomicOr, some (mask bit), fun _ => .nothing⟩

def atomicSetBitTo (bit : Byte) (val : Bool) : Invocation :=
  if val then ⟨atomicOr, some (mask bit), fun _ => .nothing⟩
  else ⟨atomicAnd, some ((~~~BIT bit).setWidth 8), fun _ => .nothing⟩

def atomicToggleBit (bit : Byte) : Invocation := ⟨atomicXor, some (mask bit), fun _ => .nothing⟩

def atomicTestBit (bit : Byte) : Invocation :=
  ⟨atomicGet, none, fun old => .bool (old &&& mask bit != 0)⟩

def atomicTestAndClearBit (bit : Byte) : Invocation :=
  ⟨atomicAnd, some (~~~mask bit), fun old => .bool (old &&& mask bit != 0)⟩

def atomicTestAndSetBit (bit : Byte) : Invocation :=
  ⟨atomicOr, some (mask bit), fun old => .bool (old &&& mask bit != 0)⟩

/-- The calls that contexts make. -/
inductive AtomicCall
  | get
  | blindClear
  | clear
  | or (value : Byte)
  | xor (value : Byte)
  | and (value : Byte)
  | inc
  | dec
  | clearBit (bit : Byte)
  | setBit (bit : Byte)
  | setBitTo (bit : Byte) (val : Bool)
  | toggleBit (bit : Byte)
  | testBit (bit : Byte)
  | testAndClearBit (bit : Byte)
  | testAndSetBit (bit : Byte)
  deriving DecidableEq, Repr

def AtomicCall.invocation : AtomicCall → Invocation
  | .get => ⟨atomicGet, none, .value⟩
  | .blindClear => ⟨atomicBlindClear, none, fun _ => .nothing⟩
  | .clear => ⟨atomicClear, none, .value⟩
  | .or value => ⟨atomicOr, some value, .value⟩
  | .xor value => ⟨atomicXor, some value, .value⟩
  | .and value => ⟨atomicAnd, some value, .value⟩
  | .inc => ⟨atomicInc, none, .value⟩
  | .dec => ⟨atomicDec, none, .value⟩
  | .clearBit bit => atomicClearBit bit
  | .setBit bit => atomicSetBit bit
  | .setBitTo bit val => atomicSetBitTo bit val
  | .toggleBit bit => atomicToggleBit bit
  | .testBit bit => atomicTestBit bit
  | .testAndClearBit bit => atomicTestAndClearBit bit
  | .testAndSetBit bit => atomicTestAndSetBit bit

def sequential : AtomicCall → Byte → Byte × Answer
  | .get, b => (b, .value b)
  | .blindClear, _ => (0, .nothing)
  | .clear, b => (0, .value b)
  | .or v, b => (b ||| v, .value b)
  | .xor v, b => (b ^^^ v, .value b)
  | .and v, b => (b &&& v, .value b)
  | .inc, b => (b + 1, .value (b + 1))
  | .dec, b => (b - 1, .value (b - 1))
  | .clearBit bit, b => (b &&& ~~~twoPow 8 bit.toNat, .nothing)
  | .setBit bit, b => (b ||| twoPow 8 bit.toNat, .nothing)
  | .setBitTo bit true, b => (b ||| twoPow 8 bit.toNat, .nothing)
  | .setBitTo bit false, b => (b &&& ~~~twoPow 8 bit.toNat, .nothing)
  | .toggleBit bit, b => (b ^^^ twoPow 8 bit.toNat, .nothing)
  | .testBit bit, b => (b, .bool (b.getLsbD bit.toNat))
  | .testAndClearBit bit, b =>
      (b &&& ~~~twoPow 8 bit.toNat, .bool (b.getLsbD bit.toNat))
  | .testAndSetBit bit, b => (b ||| twoPow 8 bit.toNat, .bool (b.getLsbD bit.toNat))

def atomics (a : Addr) : Object AtomicCall Answer where
  code c := c.invocation.routine
  entry c reg := join (reg 25) (reg 24) = a ∧ (∀ v ∈ c.invocation.value, reg 22 = v) ∧ reg 1 = 0
  result c r24 := c.invocation.answer r24
  apply := sequential
  pre _ _ := True

theorem ne_of_not_callClobbered {q r : Reg} (hq : ¬ CallClobbered q) (hr : CallClobbered r) :
    q ≠ r := by
  rintro rfl
  exact hq hr

structure Section (a : Addr) (m m' : Machine w) : Prop where
  x : m'.word 26 = a
  saved : m'.reg 18 = m.sreg
  mem : m'.mem = m.mem
  kept : ∀ r, ¬ CallClobbered r → m'.reg r = m.reg r

theorem Section.modify {r : Reg} {v sreg : Byte} {m' : Machine w} (h : Section a m m')
    (hr : CallClobbered r) (h18 : r ≠ 18) (h26 : r ≠ 26) (h27 : r ≠ 27) :
    Section a m ⟨(m'.setReg r v).reg, sreg, m'.sp, m'.pc, m'.mem⟩ := by
  refine ⟨?_, ?_, h.mem, ?_⟩
  · exact (word_of_reg rfl 26).trans ((word_setReg h26 h27 m' v).trans h.x)
  · exact (setReg_of_ne h18.symm m' v).trans h.saved
  · intro q hq
    exact (setReg_of_ne (ne_of_not_callClobbered hq hr) m' v).trans (h.kept q hq)

theorem Section.read {m' : Machine w} (h : Section a m m') (ha : IsRam a) :
    m'.read (m'.word 26) = m.mem a := by
  rw [h.x, read_of_isRam ha, h.mem]

theorem Section.store {m' : Machine w} (h : Section a m m') (ha : IsRam a) (r : Reg) :
    exec (.st r) m' = ⟨m'.reg, m'.sreg, m'.sp, m'.pc, update m.mem a (m'.reg r)⟩ := by
  rw [exec, h.x, write_of_isRam ha, h.mem]

theorem word_movw (hword : m.word 24 = a) : (exec (.movw 26 24) m).word 26 = a :=
  (word_setWord m 26 _).trans hword

theorem reg_movw {r : Reg} (h26 : r ≠ 26) (h27 : r ≠ 27) : (exec (.movw 26 24) m).reg r = m.reg r :=
  setWord_of_ne h26 h27 m _

def entered (m : Machine w) : Machine w :=
  exec .cli (exec (.lds 18 SREG) (exec (.movw 26 24) m))

theorem reg_entered {r : Reg} (h18 : r ≠ 18) (h26 : r ≠ 26) (h27 : r ≠ 27) :
    (entered m).reg r = m.reg r :=
  (setReg_of_ne h18 _ _).trans (reg_movw h26 h27)

theorem section_entered (hword : m.word 24 = a) : Section a m (entered m) where
  x := by rw [entered, word_exec (by decide), word_exec (by decide), word_movw hword]
  saved := (setReg_self (exec (.movw 26 24) m) 18 _).trans (read_SREG _)
  mem := rfl
  kept r hr := reg_entered (ne_of_not_callClobbered hr (by decide))
    (ne_of_not_callClobbered hr (by decide)) (ne_of_not_callClobbered hr (by decide))

def loaded (m : Machine w) : Machine w := exec (.ld 24) (entered m)

theorem section_loaded (hword : m.word 24 = a) : Section a m (loaded m) :=
  (section_entered hword).modify (by decide) (by decide) (by decide) (by decide)

theorem reg_22_loaded : (loaded m).reg 22 = m.reg 22 :=
  (setReg_of_ne (by decide) _ _).trans (reg_entered (by decide) (by decide) (by decide))

theorem reg_24_loaded (hword : m.word 24 = a) (ha : IsRam a) : (loaded m).reg 24 = m.mem a :=
  (setReg_self _ _ _).trans ((section_entered hword).read ha)

theorem solo_store {r : Reg} {m' : Machine w} (ha : IsRam a) (h : Section a m m') :
    solo 0 [.sts SREG 18, .st r, .ret] m' =
      ⟨m'.reg, m.sreg, m'.sp, m'.pc, update m.mem a (m'.reg r)⟩ := by
  have hsts : exec (.sts SREG 18) m' = ⟨m'.reg, m.sreg, m'.sp, m'.pc, m.mem⟩ := by
    rw [exec, sts, write_SREG, h.saved, h.mem]
  have hrestored : Section a m ⟨m'.reg, m.sreg, m'.sp, m'.pc, m.mem⟩ := ⟨h.x, h.saved, rfl, h.kept⟩
  calc solo 0 [.sts SREG 18, .st r, .ret] m' = exec (.st r) (exec (.sts SREG 18) m') := rfl
    _ = exec (.st r) ⟨m'.reg, m.sreg, m'.sp, m'.pc, m.mem⟩ := congrArg (exec (.st r)) hsts
    _ = ⟨m'.reg, m.sreg, m'.sp, m'.pc, update m.mem a (m'.reg r)⟩ := hrestored.store ha r

theorem solo_readModifyWrite {modify : List Instr} {r : Reg} {m' : Machine w} (ha : IsRam a)
    (hplain : ∀ j ∈ modify, j.Plain) (hmodify : solo 0 modify (loaded m) = m')
    (h : Section a m m') :
    solo 0 (readModifyWrite modify r) m =
      ⟨m'.reg, m.sreg, m'.sp, m'.pc, update m.mem a (m'.reg r)⟩ := by
  have hload : solo 0 (readModifyWrite modify r) m =
      solo 0 (modify ++ [.sts SREG 18, .st r, .ret]) (loaded m) := rfl
  rw [hload, solo_append hplain, hmodify, solo_store ha h]

structure Does (a : Addr) (m m' : Machine w) (byte r24 : Byte) : Prop where
  byte : m'.mem a = byte
  r24 : m'.reg 24 = r24
  kept : Kept m m'

theorem Section.does {modify : List Instr} {r : Reg} {m' : Machine w} (ha : IsRam a)
    (h : Section a m m') (hplain : ∀ j ∈ modify, j.Plain)
    (hmodify : solo 0 modify (loaded m) = m') :
    Does a m (solo 0 (readModifyWrite modify r) m) (m'.reg r) (m'.reg 24) := by
  rw [solo_readModifyWrite ha hplain hmodify h]
  exact ⟨update_self a _ _, rfl, rfl, h.kept⟩

section Routines

variable (hword : m.word 24 = a) (ha : IsRam a)
include hword ha

theorem does_atomicGet : Does a m (solo 0 atomicGet m) (m.mem a) (m.mem a) := by
  refine ⟨rfl, ?_, rfl, ?_⟩
  · refine (setReg_self _ _ _).trans ?_
    rw [word_movw hword, read_of_isRam ha]
    rfl
  · intro r hr
    have hne : ∀ q, CallClobbered q → r ≠ q := fun q => ne_of_not_callClobbered hr
    exact (setReg_of_ne (hne 24 (by decide)) _ _).trans
      (reg_movw (hne 26 (by decide)) (hne 27 (by decide)))

theorem does_atomicBlindClear (hzero : m.reg 1 = 0) :
    Does a m (solo 0 atomicBlindClear m) 0 (m.reg 24) := by
  have hend : solo 0 atomicBlindClear m = (exec (.movw 26 24) m).write a 0 := by
    have hone : (exec (.movw 26 24) m).reg 1 = 0 := (reg_movw (by decide) (by decide)).trans hzero
    rw [← hone, ← word_movw hword]
    rfl
  rw [hend, write_of_isRam ha]
  refine ⟨update_self a _ _, reg_movw (r := 24) (by decide) (by decide), rfl, ?_⟩
  intro r hr
  exact reg_movw (ne_of_not_callClobbered hr (by decide)) (ne_of_not_callClobbered hr (by decide))

theorem does_atomicClear (hzero : m.reg 1 = 0) : Does a m (solo 0 atomicClear m) 0 (m.mem a) := by
  have hdoes : Does a m (solo 0 atomicClear m) _ _ :=
    (section_loaded hword).does ha (fun _ hj => absurd hj not_mem_nil) rfl
  have hone : (loaded m).reg 1 = 0 :=
    ((setReg_of_ne (by decide) _ _).trans (reg_entered (by decide) (by decide) (by decide))).trans
      hzero
  rw [hone, reg_24_loaded hword ha] at hdoes
  exact hdoes

theorem does_logic {i : Instr} {v sreg : Byte} (hplain : i.Plain) (hi : exec i (loaded m) =
      ⟨((loaded m).setReg 22 v).reg, sreg, (loaded m).sp, (loaded m).pc, (loaded m).mem⟩) :
    Does a m (solo 0 (readModifyWrite [i] 22) m) v (m.mem a) := by
  have hsolo : solo 0 [i] (loaded m) = exec i (loaded m) := solo_cons (skip_of_plain hplain _) []
  have hdoes : Does a m (solo 0 (readModifyWrite [i] 22) m) _ _ :=
    ((section_loaded hword).modify (by decide) (by decide) (by decide) (by decide)).does ha
      (fun j hj => mem_singleton.mp hj ▸ hplain) (hsolo.trans hi)
  have h22 : ((loaded m).setReg 22 v).reg 22 = v := setReg_self _ _ _
  have h24 : ((loaded m).setReg 22 v).reg 24 = m.mem a :=
    (setReg_of_ne (by decide) _ _).trans (reg_24_loaded hword ha)
  rw [h22, h24] at hdoes
  exact hdoes

theorem does_count {i : Instr} {v sreg : Byte} (hplain : i.Plain) (hi : exec i (loaded m) =
      ⟨((loaded m).setReg 24 v).reg, sreg, (loaded m).sp, (loaded m).pc, (loaded m).mem⟩) :
    Does a m (solo 0 (readModifyWrite [i] 24) m) v v := by
  have hsolo : solo 0 [i] (loaded m) = exec i (loaded m) := solo_cons (skip_of_plain hplain _) []
  have hdoes : Does a m (solo 0 (readModifyWrite [i] 24) m) _ _ :=
    ((section_loaded hword).modify (by decide) (by decide) (by decide) (by decide)).does ha
      (fun j hj => mem_singleton.mp hj ▸ hplain) (hsolo.trans hi)
  have h24 : ((loaded m).setReg 24 v).reg 24 = v := setReg_self _ _ _
  rw [h24] at hdoes
  exact hdoes

theorem does_atomicOr : Does a m (solo 0 atomicOr m) (m.mem a ||| m.reg 22) (m.mem a) := by
  have hdoes : Does a m (solo 0 atomicOr m) ((loaded m).reg 22 ||| (loaded m).reg 24) _ :=
    does_logic hword ha trivial rfl
  rw [reg_22_loaded, reg_24_loaded hword ha, BitVec.or_comm] at hdoes
  exact hdoes

theorem does_atomicXor : Does a m (solo 0 atomicXor m) (m.mem a ^^^ m.reg 22) (m.mem a) := by
  have hdoes : Does a m (solo 0 atomicXor m) ((loaded m).reg 22 ^^^ (loaded m).reg 24) _ :=
    does_logic hword ha trivial rfl
  rw [reg_22_loaded, reg_24_loaded hword ha, BitVec.xor_comm] at hdoes
  exact hdoes

theorem does_atomicAnd : Does a m (solo 0 atomicAnd m) (m.mem a &&& m.reg 22) (m.mem a) := by
  have hdoes : Does a m (solo 0 atomicAnd m) ((loaded m).reg 22 &&& (loaded m).reg 24) _ :=
    does_logic hword ha trivial rfl
  rw [reg_22_loaded, reg_24_loaded hword ha, BitVec.and_comm] at hdoes
  exact hdoes

theorem does_atomicInc : Does a m (solo 0 atomicInc m) (m.mem a + 1) (m.mem a + 1) := by
  have hdoes : Does a m (solo 0 atomicInc m) ((loaded m).reg 24 + 1) _ :=
    does_count hword ha trivial rfl
  rw [reg_24_loaded hword ha] at hdoes
  exact hdoes

theorem does_atomicDec : Does a m (solo 0 atomicDec m) (m.mem a - 1) (m.mem a - 1) := by
  have hdoes : Does a m (solo 0 atomicDec m) ((loaded m).reg 24 - 1) _ :=
    does_count hword ha trivial rfl
  rw [reg_24_loaded hword ha] at hdoes
  exact hdoes

end Routines

theorem mask_eq (bit : Byte) : mask bit = twoPow 8 bit.toNat := by
  refine eq_of_getLsbD_eq fun i hi => ?_
  rw [mask, BIT, ← twoPow_eq, getLsbD_setWidth, getLsbD_twoPow,
    getLsbD_twoPow]
  by_cases hbit : bit.toNat = i
  · have hi64 : i < 64 := by omega
    simp [hbit, hi, hi64]
  · simp [hbit]

theorem setWidth_not_BIT (bit : Byte) : (~~~BIT bit).setWidth 8 = ~~~twoPow 8 bit.toNat := by
  rw [setWidth_not (by decide), ← mask_eq]
  rfl

theorem and_mask_bne (b bit : Byte) : (b &&& mask bit != 0) = b.getLsbD bit.toNat := by
  rw [mask_eq, and_twoPow]
  cases hbit : b.getLsbD bit.toNat with
  | false => rfl
  | true =>
    have hlt : bit.toNat < 8 := lt_of_getLsbD hbit
    rw [if_pos rfl, bne_iff_ne]
    intro hzero
    have hset : (twoPow 8 bit.toNat).getLsbD bit.toNat = true := by simp [hlt]
    rw [hzero] at hset
    exact absurd hset (by simp)

theorem Does.done {m' : Machine w} {c : AtomicCall} {byte r24 : Byte} (h : Does a m m' byte r24)
    (hseq : sequential c (m.mem a) = (byte, c.invocation.answer r24)) :
    Done a (atomics a) c m (m.mem a) m' where
  byte := h.byte.trans (congrArg Prod.fst hseq).symm
  result := (congrArg c.invocation.answer h.r24).trans (congrArg Prod.snd hseq).symm
  kept := h.kept

theorem done (c : AtomicCall) (ha : IsRam a) (hentry : (atomics a).entry c m.reg) :
    Done a (atomics a) c m (m.mem a) (solo 0 ((atomics a).code c) m) := by
  obtain ⟨hword, hvalue, hzero⟩ := hentry
  cases c with
  | get => exact (does_atomicGet hword ha).done rfl
  | blindClear => exact (does_atomicBlindClear hword ha hzero).done rfl
  | clear => exact (does_atomicClear hword ha hzero).done rfl
  | or v =>
    refine (does_atomicOr hword ha).done ?_
    rw [hvalue v rfl]
    rfl
  | xor v =>
    refine (does_atomicXor hword ha).done ?_
    rw [hvalue v rfl]
    rfl
  | and v =>
    refine (does_atomicAnd hword ha).done ?_
    rw [hvalue v rfl]
    rfl
  | inc => exact (does_atomicInc hword ha).done rfl
  | dec => exact (does_atomicDec hword ha).done rfl
  | clearBit bit =>
    refine (does_atomicAnd hword ha).done ?_
    rw [hvalue _ rfl, setWidth_not_BIT]
    rfl
  | setBit bit =>
    refine (does_atomicOr hword ha).done ?_
    rw [hvalue _ rfl, mask_eq]
    rfl
  | setBitTo bit val =>
    cases val with
    | true =>
      refine (does_atomicOr hword ha).done ?_
      rw [hvalue _ rfl, mask_eq]
      rfl
    | false =>
      refine (does_atomicAnd hword ha).done ?_
      rw [hvalue _ rfl, setWidth_not_BIT]
      rfl
  | toggleBit bit =>
    refine (does_atomicXor hword ha).done ?_
    rw [hvalue _ rfl, mask_eq]
    rfl
  | testBit bit =>
    refine (does_atomicGet hword ha).done ?_
    rw [sequential, ← and_mask_bne]
    rfl
  | testAndClearBit bit =>
    refine (does_atomicAnd hword ha).done ?_
    rw [hvalue _ rfl, sequential, ← and_mask_bne, ← mask_eq]
    rfl
  | testAndSetBit bit =>
    refine (does_atomicOr hword ha).done ?_
    rw [hvalue _ rfl, sequential, ← and_mask_bne, ← mask_eq]
    rfl

theorem shape_readModifyWrite {modify : List Instr} {r : Reg} (h : Inside modify) (free : Prop) :
    ∃ body, readModifyWrite modify r = .movw 26 24 :: body ∧ Shape free body := by
  have hload : (Instr.ld 24).KeepsX := by decide
  have hcritical : Shape free (.cli :: ((.ld 24 :: modify) ++ .sts SREG 18 :: .st r :: [.ret])) :=
    .critical ⟨hload, h⟩ trivial (by decide)
  exact ⟨_, rfl, .quiet (i := .lds 18 SREG) rfl (by decide) hcritical⟩

theorem shape_invocation (c : AtomicCall) :
    ∃ body, c.invocation.routine = .movw 26 24 :: body ∧ Shape True body := by
  cases c with
  | get | testBit => exact ⟨_, rfl, .access trivial trivial (by decide)⟩
  | blindClear => exact ⟨_, rfl, .access trivial trivial (by decide)⟩
  | clear | or | xor | and | inc | dec | clearBit | setBit | toggleBit | testAndClearBit
  | testAndSetBit => exact shape_readModifyWrite (by decide) True
  | setBitTo bit val => cases val <;> exact shape_readModifyWrite (by decide) True

theorem atomic_atomics (w : Nat) (ha : IsRam a) : Atomic a (atomics a) w where
  ram := ha
  target _ _ hentry := hentry.1
  shape c := by
    obtain ⟨body, hbody, hshape⟩ := shape_invocation c
    have hfree : (∀ b, (atomics a).pre c b) = True := eq_true fun _ => trivial
    rw [hfree]
    exact ⟨body, hbody, hshape⟩
  done c _ hentry _ := done c ha hentry

/-- **ATOMIC OPERATIONS ARE LINEARIZABLE**: in every run, each call takes effect at one instant
    between its call and its return, and keeps the status register. -/
theorem atomic_linearizable {κ : Type} [DecidableEq κ] {b₀ : Byte}
    {s : Sys κ AtomicCall Answer w} (ha : IsRam a)
    (h : Reach (Initial a b₀) (AvrShared.Allowed a (atomics a)) (step (atomics a)) s) :
    (∃ l b, Order sequential b₀ b s.now s.past s.Pending l ∧
      ((s.ctx s.cur).active = none → s.mem a = b)) ∧
    ∀ r ∈ s.history, r.exit.sreg = r.entry.sreg ∧
      ∀ q, ¬ CallClobbered q → r.exit.reg q = r.entry.reg q := by
  obtain ⟨l, b, hinv⟩ := exists_inv (atomic_atomics w ha) h
  refine ⟨⟨l, b, hinv.order, fun hidle => (hinv.byte hidle).symm⟩, ?_⟩
  intro r hr
  exact ⟨(hinv.kept r hr).sreg, (hinv.kept r hr).reg⟩

instance (a : Addr) (c : AtomicCall) (b : Byte) : Decidable ((atomics a).pre c b) :=
  isTrue trivial

instance (a : Addr) (c : AtomicCall) (reg : Reg → Byte) : Decidable ((atomics a).entry c reg) :=
  inferInstanceAs (Decidable (_ ∧ _ ∧ _))

def caller (sreg : Byte) (mem : Addr → Byte) : Machine 2 :=
  ⟨update (fun _ => 0#8) 25 1#8, sreg, 0x8F0#16, ⟨0, Nat.le_of_ble_eq_true rfl⟩, mem⟩

def four : Addr → Byte := update (fun _ => 0#8) 0x100#16 4#8

def idle : Sys Bool AtomicCall Answer 2 :=
  ⟨fun _ => ⟨caller 0x80#8 four, none⟩, false, four, 0, []⟩

def interruption : List (Event Bool AtomicCall 2) :=
  .call .inc (caller 0x80#8 four) :: .instr :: .instr :: .switch true four ::
    .call (.testAndSetBit 0#8) ((caller 0x00#8 four).setReg 22 1#8) ::
    (replicate 8 .instr).append
      (.switch false (update four 0x100#16 5#8) :: replicate 6 .instr)

theorem atomic_linearizable_interrupted :
    let s := interruption.foldl (step (atomics 0x100#16)) idle
    (s.past.map Return.result = [.bool false, .value 6] ∧ s.mem 0x100#16 = 6) ∧
    (∃ l b, Order sequential 4 b s.now s.past s.Pending l ∧
      ((s.ctx s.cur).active = none → s.mem 0x100#16 = b)) ∧
    ∀ r ∈ s.history, r.exit.sreg = r.entry.sreg ∧
      ∀ q, ¬ CallClobbered q → r.exit.reg q = r.entry.reg q := by
  have hinit : Initial 0x100#16 4 idle := ⟨fun _ => rfl, rfl, rfl⟩
  have hreach : Reach (Initial 0x100#16 4) (AvrShared.Allowed 0x100#16 (atomics 0x100#16))
      (step (atomics 0x100#16)) (interruption.foldl (step (atomics 0x100#16)) idle) :=
    (Reach.start hinit).foldl (by decide +kernel)
  exact ⟨by decide +kernel, atomic_linearizable (by decide) hreach⟩

end AvrtosAtomic
