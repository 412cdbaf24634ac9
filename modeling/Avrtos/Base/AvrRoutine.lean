import Avrtos.Base.Avr

/-! # Routines that access one byte

    A routine with one window of accesses has a `Shape`; run alone it is a function on the byte. -/

namespace AvrShared

open List Avr Machine

inductive Instr
  | movw (d r : Reg)
  | lds (r : Reg) (a : Addr)
  | sts (a : Addr) (r : Reg)
  | ldi (r : Reg) (k : Byte)
  | cli
  | ld (r : Reg)
  | st (r : Reg)
  | or (d r : Reg)
  | eor (d r : Reg)
  | and (d r : Reg)
  | inc (r : Reg)
  | dec (r : Reg)
  | cpse (d r : Reg)
  | jmp (n : Nat)
  | ret
  deriving DecidableEq, Repr

variable {w : Nat}

/-- A machine with another memory. -/
def withMem (m : Machine w) (mem : Addr → Byte) : Machine w :=
  ⟨m.reg, m.sreg, m.sp, m.pc, mem⟩

def stepFlags (sreg v : Byte) (overflow : Bool) : Byte :=
  withFlags sreg (sreg.getLsbD 5) overflow v.msb (v == 0) (carryFlag sreg)

def exec : Instr → Machine w → Machine w
  | .movw d r, m => m.movw d r
  | .lds r a, m => m.lds r a
  | .sts a r, m => m.sts a r
  | .ldi r k, m => m.ldi r k
  | .cli, m => { m with sreg := m.sreg &&& 0x7F#8 }
  | .ld r, m => m.setReg r (m.read (m.word 26))
  | .st r, m => m.write (m.word 26) (m.reg r)
  | .or d r, m =>
      { m.setReg d (m.reg d ||| m.reg r) with sreg := logicFlags m.sreg (m.reg d ||| m.reg r) }
  | .eor d r, m => m.eor d r
  | .and d r, m =>
      { m.setReg d (m.reg d &&& m.reg r) with sreg := logicFlags m.sreg (m.reg d &&& m.reg r) }
  | .inc r, m =>
      { m.setReg r (m.reg r + 1) with sreg := stepFlags m.sreg (m.reg r + 1) (m.reg r == 0x7F) }
  | .dec r, m =>
      { m.setReg r (m.reg r - 1) with sreg := stepFlags m.sreg (m.reg r - 1) (m.reg r == 0x80) }
  | .cpse _ _, m => m
  | .jmp _, m => m
  | .ret, m => m

def skip : Instr → Machine w → Nat
  | .cpse d r, m => if m.reg d = m.reg r then 1 else 0
  | .jmp n, _ => n
  | _, _ => 0

def solo : Nat → List Instr → Machine w → Machine w
  | _, [], m => m
  | 0, i :: is, m => solo (skip i m) is (exec i m)
  | k + 1, _ :: is, m => solo k is m

theorem solo_drop (k : Nat) (is : List Instr) (m : Machine w) :
    solo k is m = solo 0 (is.drop k) m := by
  induction is generalizing k with
  | nil => rw [drop_nil, solo, solo]
  | cons i is ih =>
    cases k with
    | zero => rfl
    | succ k => exact ih k

theorem solo_cons {i : Instr} {m : Machine w} (h : skip i m = 0) (is : List Instr) :
    solo 0 (i :: is) m = solo 0 is (exec i m) := by
  rw [solo, h]

namespace Instr

def Quiet : Instr → Prop
  | .movw _ _ => True
  | .lds _ a => a = SREG
  | .ldi _ _ => True
  | .ret => True
  | _ => False

def KeepsX : Instr → Prop
  | .movw d _ => d ≠ 26 ∧ d + 1#5 ≠ 26 ∧ d ≠ 27 ∧ d + 1#5 ≠ 27
  | .lds r _ => r ≠ 26 ∧ r ≠ 27
  | .ldi r _ => r ≠ 26 ∧ r ≠ 27
  | .ld r => r ≠ 26 ∧ r ≠ 27
  | .or d _ => d ≠ 26 ∧ d ≠ 27
  | .eor d _ => d ≠ 26 ∧ d ≠ 27
  | .and d _ => d ≠ 26 ∧ d ≠ 27
  | .inc r => r ≠ 26 ∧ r ≠ 27
  | .dec r => r ≠ 26 ∧ r ≠ 27
  | _ => True

def Inner (n : Nat) : Instr → Prop
  | .sts _ _ => False
  | .cli => False
  | .ret => False
  | .cpse _ _ => 1 ≤ n
  | .jmp k => k ≤ n
  | i => i.KeepsX

def Plain : Instr → Prop
  | .cpse _ _ => False
  | .jmp _ => False
  | _ => True

instance (i : Instr) : Decidable i.Quiet :=
  match i with
  | .movw _ _ | .ldi _ _ | .ret => isTrue trivial
  | .lds _ _ => inferInstanceAs (Decidable (_ = _))
  | .sts _ _ | .cli | .ld _ | .st _ | .or _ _ | .eor _ _ | .and _ _ | .inc _ | .dec _
  | .cpse _ _ | .jmp _ => isFalse id

instance (i : Instr) : Decidable i.KeepsX :=
  match i with
  | .movw _ _ => inferInstanceAs (Decidable (_ ∧ _))
  | .lds _ _ | .ldi _ _ | .ld _ | .or _ _ | .eor _ _ | .and _ _ | .inc _ | .dec _ =>
      inferInstanceAs (Decidable (_ ∧ _))
  | .sts _ _ | .cli | .st _ | .cpse _ _ | .jmp _ | .ret => isTrue trivial

instance (n : Nat) (i : Instr) : Decidable (i.Inner n) :=
  match i with
  | .sts _ _ | .cli | .ret => isFalse id
  | .cpse _ _ | .jmp _ => inferInstanceAs (Decidable (_ ≤ _))
  | .movw d r => inferInstanceAs (Decidable (Instr.movw d r).KeepsX)
  | .lds r a => inferInstanceAs (Decidable (Instr.lds r a).KeepsX)
  | .ldi r k => inferInstanceAs (Decidable (Instr.ldi r k).KeepsX)
  | .ld r => inferInstanceAs (Decidable (Instr.ld r).KeepsX)
  | .st r => inferInstanceAs (Decidable (Instr.st r).KeepsX)
  | .or d r => inferInstanceAs (Decidable (Instr.or d r).KeepsX)
  | .eor d r => inferInstanceAs (Decidable (Instr.eor d r).KeepsX)
  | .and d r => inferInstanceAs (Decidable (Instr.and d r).KeepsX)
  | .inc r => inferInstanceAs (Decidable (Instr.inc r).KeepsX)
  | .dec r => inferInstanceAs (Decidable (Instr.dec r).KeepsX)

end Instr

def Inside : List Instr → Prop
  | [] => True
  | i :: is => i.Inner is.length ∧ Inside is

instance Inside.decidable : (is : List Instr) → Decidable (Inside is)
  | [] => isTrue trivial
  | _ :: is =>
      haveI := Inside.decidable is
      inferInstanceAs (Decidable (_ ∧ _))

inductive Shape (free : Prop) : List Instr → Prop
  | quiet {i : Instr} {is : List Instr} : i.Quiet → i.KeepsX → Shape free is → Shape free (i :: is)
  | access {i : Instr} {tail : List Instr} : free → i.Plain → (∀ j ∈ tail, j.Quiet) →
      Shape free (i :: tail)
  | critical {left : List Instr} {r : Reg} {last : Instr} {tail : List Instr} : Inside left →
      last.Plain → (∀ j ∈ tail, j.Quiet) →
      Shape free (.cli :: (left ++ .sts SREG r :: last :: tail))

variable {i : Instr} {m : Machine w}

theorem exec_mem_of_quiet (h : i.Quiet) (m : Machine w) (mem : Addr → Byte) :
    exec i (withMem m mem) = withMem (exec i m) mem := by
  cases i with
  | movw d r => rfl
  | lds r a =>
    obtain rfl : a = SREG := h
    rw [exec, exec, Machine.lds, Machine.lds, read_SREG, read_SREG]
    rfl
  | ldi r k => rfl
  | ret => rfl
  | sts | cli | ld | st | or | eor | and | inc | dec | cpse | jmp => exact h.elim

theorem skip_of_quiet (h : i.Quiet) (m : Machine w) : skip i m = 0 := by
  cases i with
  | movw | lds | ldi | ret => rfl
  | sts | cli | ld | st | or | eor | and | inc | dec | cpse | jmp => exact h.elim

theorem skip_of_plain (h : i.Plain) (m : Machine w) : skip i m = 0 := by
  cases i with
  | cpse | jmp => exact h.elim
  | _ => rfl

theorem solo_append {is : List Instr} (h : ∀ j ∈ is, j.Plain) (js : List Instr) (m : Machine w) :
    solo 0 (is ++ js) m = solo 0 js (solo 0 is m) := by
  induction is generalizing m with
  | nil => rfl
  | cons i is ih =>
    have hskip := skip_of_plain (h i mem_cons_self) m
    rw [cons_append, solo_cons hskip, solo_cons hskip]
    exact ih (fun j hj => h j (mem_cons_of_mem i hj)) _

theorem mem_of_quiet (h : i.Quiet) (m : Machine w) : (exec i m).mem = m.mem := by
  have heq : exec i m = withMem (exec i m) m.mem := exec_mem_of_quiet h m m.mem
  rw [heq]
  rfl

theorem withMem_exec (h : i.Quiet) (m : Machine w) (mem mem' : Addr → Byte) :
    withMem (exec i (withMem m mem)) mem' = exec i (withMem m mem') := by
  rw [exec_mem_of_quiet h, exec_mem_of_quiet h]
  rfl

theorem solo_mem_of_quiet {is : List Instr} (h : ∀ j ∈ is, j.Quiet) (m : Machine w)
    (mem : Addr → Byte) : solo 0 is (withMem m mem) = withMem (solo 0 is m) mem := by
  induction is generalizing m with
  | nil => rfl
  | cons i is ih =>
    have hi := h i mem_cons_self
    rw [solo, solo, skip_of_quiet hi, skip_of_quiet hi, exec_mem_of_quiet hi]
    exact ih (fun j hj => h j (mem_cons_of_mem i hj)) _

theorem mem_solo_of_quiet {is : List Instr} (h : ∀ j ∈ is, j.Quiet) (m : Machine w) :
    (solo 0 is m).mem = m.mem := by
  have heq : solo 0 is m = withMem (solo 0 is m) m.mem := solo_mem_of_quiet h m m.mem
  rw [heq]
  rfl

theorem word_setReg {d r : Reg} (h : d ≠ r) (h' : d ≠ r + 1#5) (m : Machine w) (v : Byte) :
    (m.setReg d v).word r = m.word r := by
  rw [word, word, setReg_of_ne h.symm, setReg_of_ne h'.symm]

theorem word_of_reg {m m' : Machine w} (h : m'.reg = m.reg) (r : Reg) : m'.word r = m.word r := by
  rw [word, word, h]

theorem word_exec (h : i.KeepsX) (m : Machine w) : (exec i m).word 26 = m.word 26 := by
  cases i with
  | movw d r =>
    obtain ⟨h1, h2, h3, h4⟩ := h
    exact (word_setReg h2 h4 _ _).trans (word_setReg h1 h3 m _)
  | lds r a => exact word_setReg h.1 h.2 m _
  | ldi r k => exact word_setReg h.1 h.2 m _
  | ld r => exact word_setReg h.1 h.2 m _
  | or d r => exact word_setReg h.1 h.2 m _
  | eor d r => exact word_setReg h.1 h.2 m _
  | and d r => exact word_setReg h.1 h.2 m _
  | inc r => exact word_setReg h.1 h.2 m _
  | dec r => exact word_setReg h.1 h.2 m _
  | sts a r => exact word_of_reg (write_reg m a _) 26
  | st r => exact word_of_reg (write_reg m _ _) 26
  | cli | cpse | jmp | ret => rfl

theorem irqFlag_of_inner {n : Nat} (h : i.Inner n) (hx : IsRam (m.word 26)) :
    irqFlag (exec i m).sreg = irqFlag m.sreg := by
  cases i with
  | st r => rw [exec, write_of_isRam hx]
  | or | eor | and | inc | dec => exact irqFlag_withFlags _ _ _ _ _ _
  | sts | cli | ret => exact h.elim
  | movw | lds | ldi | ld | cpse | jmp => rfl

theorem keepsX_of_inner {n : Nat} (h : i.Inner n) : i.KeepsX := by
  cases i with
  | sts | cli | ret => exact h.elim
  | st | cpse | jmp => trivial
  | movw | lds | ldi | ld | or | eor | and | inc | dec => exact h

theorem skip_of_inner {n : Nat} (h : i.Inner n) (m : Machine w) : skip i m ≤ n := by
  cases i with
  | cpse d r =>
    rw [skip]
    split
    · exact h
    · exact Nat.zero_le n
  | jmp k => exact h
  | sts | cli | ret => exact h.elim
  | movw | lds | ldi | ld | st | or | eor | and | inc | dec => exact Nat.zero_le n

theorem Inside.drop {is : List Instr} (h : Inside is) (k : Nat) : Inside (is.drop k) := by
  induction is generalizing k with
  | nil => rw [drop_nil]; trivial
  | cons i is ih =>
    cases k with
    | zero => exact h
    | succ k => exact ih h.2 k

theorem Shape.ne_nil {free : Prop} {is : List Instr} (h : Shape free is) : is ≠ [] := by
  cases h with
  | quiet | access | critical => exact cons_ne_nil _ _

end AvrShared
