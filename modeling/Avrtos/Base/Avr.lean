import Mathlib

/-! # An AVR core

    Instructions are functions on machines; code is followed by composing them. -/

namespace Avr

open Function List

abbrev Byte := BitVec 8
abbrev Addr := BitVec 16
abbrev Reg := BitVec 5

/-- The state of the core. -/
structure Machine (w : Nat) where
  reg : Reg → Byte
  sreg : Byte
  sp : Addr
  pc : Fin (256 ^ w)
  mem : Addr → Byte

def lo (a : Addr) : Byte := BitVec.ofNat 8 a.toNat
def hi (a : Addr) : Byte := BitVec.ofNat 8 (a.toNat / 256)
def join (h l : Byte) : Addr := BitVec.ofNat 16 (256 * h.toNat + l.toNat)

theorem toNat_join (h l : Byte) : (join h l).toNat = 256 * h.toNat + l.toNat := by
  have hh := h.isLt
  have hl := l.isLt
  rw [join, BitVec.toNat_ofNat, Nat.mod_eq_of_lt (by omega)]

@[simp] theorem join_hi_lo (a : Addr) : join (hi a) (lo a) = a := by
  have ha := a.isLt
  refine BitVec.eq_of_toNat_eq ?_
  rw [toNat_join, hi, lo, BitVec.toNat_ofNat, BitVec.toNat_ofNat]
  omega

@[simp] theorem lo_join (h l : Byte) : lo (join h l) = l := by
  have hl := l.isLt
  refine BitVec.eq_of_toNat_eq ?_
  rw [lo, BitVec.toNat_ofNat, toNat_join]
  omega

@[simp] theorem hi_join (h l : Byte) : hi (join h l) = h := by
  have hh := h.isLt
  have hl := l.isLt
  refine BitVec.eq_of_toNat_eq ?_
  rw [hi, BitVec.toNat_ofNat, toNat_join]
  omega

def carryFlag (sreg : Byte) : Bool := sreg.getLsbD 0
def zeroFlag (sreg : Byte) : Bool := sreg.getLsbD 1
def irqFlag (sreg : Byte) : Bool := sreg.getLsbD 7

def withFlags (sreg : Byte) (h v n z c : Bool) : Byte :=
  BitVec.ofBoolListLE [c, z, n, v, n ^^ v, h, sreg.getLsbD 6, sreg.getLsbD 7]

@[simp] theorem irqFlag_withFlags (sreg : Byte) (h v n z c : Bool) :
    irqFlag (withFlags sreg h v n z c) = irqFlag sreg :=
  BitVec.getLsbD_ofBoolListLE

@[simp] theorem zeroFlag_withFlags (sreg : Byte) (h v n z c : Bool) :
    zeroFlag (withFlags sreg h v n z c) = z :=
  BitVec.getLsbD_ofBoolListLE

@[simp] theorem carryFlag_withFlags (sreg : Byte) (h v n z c : Bool) :
    carryFlag (withFlags sreg h v n z c) = c :=
  BitVec.getLsbD_ofBoolListLE

theorem set_clear_irq {sreg : Byte} (h : irqFlag sreg = true) :
    (sreg &&& 0x7F#8) ||| 0x80#8 = sreg := by
  revert h sreg
  decide

@[simp] theorem irqFlag_clear (sreg : Byte) : irqFlag (sreg &&& 0x7F#8) = false := by
  simp [irqFlag]

namespace Machine

variable {w : Nat}

def setReg (m : Machine w) (r : Reg) (v : Byte) : Machine w :=
  { m with reg := update m.reg r v }

@[simp] theorem setReg_self (m : Machine w) (r : Reg) (v : Byte) : (m.setReg r v).reg r = v := by
  simp [setReg]

@[simp] theorem setReg_of_ne {q r : Reg} (h : q ≠ r) (m : Machine w) (v : Byte) :
    (m.setReg r v).reg q = m.reg q := by
  simp [setReg, h]

@[simp] theorem setReg_sreg (m : Machine w) (r : Reg) (v : Byte) :
    (m.setReg r v).sreg = m.sreg := rfl

@[simp] theorem setReg_sp (m : Machine w) (r : Reg) (v : Byte) : (m.setReg r v).sp = m.sp := rfl

@[simp] theorem setReg_pc (m : Machine w) (r : Reg) (v : Byte) : (m.setReg r v).pc = m.pc := rfl

@[simp] theorem setReg_mem (m : Machine w) (r : Reg) (v : Byte) : (m.setReg r v).mem = m.mem := rfl

def word (m : Machine w) (r : Reg) : Addr := join (m.reg (r + 1#5)) (m.reg r)

def setWord (m : Machine w) (r : Reg) (a : Addr) : Machine w :=
  (m.setReg r (lo a)).setReg (r + 1#5) (hi a)

@[simp] theorem word_setWord (m : Machine w) (r : Reg) (a : Addr) : (m.setWord r a).word r = a := by
  have hne : r ≠ r + 1#5 := by
    revert r
    decide
  rw [word, setWord, setReg_self, setReg_of_ne hne, setReg_self, join_hi_lo]

theorem setWord_of_ne {q r : Reg} (h : q ≠ r) (h' : q ≠ r + 1#5) (m : Machine w) (a : Addr) :
    (m.setWord r a).reg q = m.reg q := by
  rw [setWord, setReg_of_ne h', setReg_of_ne h]

theorem word_setWord_of_ne {q r : Reg} (h : q ≠ r) (h' : q ≠ r + 1#5) (hs : q + 1#5 ≠ r)
    (hs' : q + 1#5 ≠ r + 1#5) (m : Machine w) (a : Addr) : (m.setWord r a).word q = m.word q := by
  rw [word, setWord_of_ne hs hs', setWord_of_ne h h', word]

def SPL : Addr := 0x5D#16
def SPH : Addr := 0x5E#16
def SREG : Addr := 0x5F#16

/-- Reading a data address. -/
def read (m : Machine w) (a : Addr) : Byte :=
  if a = SREG then m.sreg
  else if a = SPL then lo m.sp
  else if a = SPH then hi m.sp
  else m.mem a

/-- Writing a data address. -/
def write (m : Machine w) (a : Addr) (v : Byte) : Machine w :=
  if a = SREG then { m with sreg := v }
  else if a = SPL then { m with sp := join (hi m.sp) v }
  else if a = SPH then { m with sp := join v (lo m.sp) }
  else { m with mem := update m.mem a v }

@[simp] theorem read_SREG (m : Machine w) : m.read SREG = m.sreg := if_pos rfl

@[simp] theorem read_SPL (m : Machine w) : m.read SPL = lo m.sp := by
  rw [read, if_neg (by decide), if_pos rfl]

@[simp] theorem read_SPH (m : Machine w) : m.read SPH = hi m.sp := by
  rw [read, if_neg (by decide), if_neg (by decide), if_pos rfl]

@[simp] theorem write_SREG (m : Machine w) (v : Byte) :
    m.write SREG v = { m with sreg := v } := if_pos rfl

@[simp] theorem write_SPL (m : Machine w) (v : Byte) :
    m.write SPL v = { m with sp := join (hi m.sp) v } := by
  rw [write, if_neg (by decide), if_pos rfl]

@[simp] theorem write_SPH (m : Machine w) (v : Byte) :
    m.write SPH v = { m with sp := join v (lo m.sp) } := by
  rw [write, if_neg (by decide), if_neg (by decide), if_pos rfl]

@[simp] theorem write_reg (m : Machine w) (a : Addr) (v : Byte) : (m.write a v).reg = m.reg := by
  rw [write]
  split_ifs <;> rfl

def IsRam (a : Addr) : Prop := 0x5F < a.toNat
deriving Decidable

theorem IsRam.ne {a b : Addr} (h : IsRam a) (hb : b.toNat ≤ 0x5F) : a ≠ b := by
  rintro rfl
  exact Nat.not_le.mpr h hb

theorem read_of_isRam {m : Machine w} {a : Addr} (h : IsRam a) : m.read a = m.mem a := by
  rw [read, if_neg (h.ne (by decide)), if_neg (h.ne (by decide)), if_neg (h.ne (by decide))]

theorem write_of_isRam {m : Machine w} {a : Addr} {v : Byte} (h : IsRam a) :
    m.write a v = { m with mem := update m.mem a v } := by
  rw [write, if_neg (h.ne (by decide)), if_neg (h.ne (by decide)), if_neg (h.ne (by decide))]

def lds (r : Reg) (a : Addr) (m : Machine w) : Machine w := m.setReg r (m.read a)
def sts (a : Addr) (r : Reg) (m : Machine w) : Machine w := m.write a (m.reg r)
def ldi (r : Reg) (k : Byte) (m : Machine w) : Machine w := m.setReg r k
def movw (d r : Reg) (m : Machine w) : Machine w := m.setWord d (m.word r)

/-- `ldd r, Z + q`. -/
def lddZ (r : Reg) (q : Addr) (m : Machine w) : Machine w :=
  m.setReg r (m.read (m.word 30 + q))

/-- `ld r, Z+`. -/
def ldZ (r : Reg) (m : Machine w) : Machine w :=
  (m.setReg r (m.read (m.word 30))).setWord 30 (m.word 30 + 1#16)

/-- `st X+, r`. -/
def stX (r : Reg) (m : Machine w) : Machine w :=
  (m.write (m.word 26) (m.reg r)).setWord 26 (m.word 26 + 1#16)

def logicFlags (sreg v : Byte) : Byte :=
  withFlags sreg (sreg.getLsbD 5) false v.msb (v == 0) (carryFlag sreg)

def eor (d r : Reg) (m : Machine w) : Machine w :=
  { m.setReg d (m.reg d ^^^ m.reg r) with
    sreg := logicFlags m.sreg (m.reg d ^^^ m.reg r) }

def andi (d : Reg) (k : Byte) (m : Machine w) : Machine w :=
  { m.setReg d (m.reg d &&& k) with sreg := logicFlags m.sreg (m.reg d &&& k) }

theorem eor_of_ne {d r q : Reg} (h : q ≠ d) (m : Machine w) : (eor d r m).reg q = m.reg q :=
  setReg_of_ne h m _

theorem eor_self (d : Reg) (m : Machine w) : (eor d d m).reg d = 0 :=
  (setReg_self m d _).trans BitVec.xor_self

def carryOut (i : Nat) (a b v : Byte) : Bool :=
  a.getLsbD i && b.getLsbD i || b.getLsbD i && !v.getLsbD i || !v.getLsbD i && a.getLsbD i

def borrowOut (i : Nat) (a b v : Byte) : Bool :=
  !a.getLsbD i && b.getLsbD i || b.getLsbD i && v.getLsbD i || v.getLsbD i && !a.getLsbD i

def addFlags (sreg a b v : Byte) : Byte :=
  withFlags sreg (carryOut 3 a b v)
    (a.msb && b.msb && !v.msb || !a.msb && !b.msb && v.msb) v.msb (v == 0)
    (carryOut 7 a b v)

def subFlags (sreg a b v : Byte) : Byte :=
  withFlags sreg (borrowOut 3 a b v)
    (a.msb && !b.msb && !v.msb || !a.msb && b.msb && v.msb) v.msb (v == 0)
    (borrowOut 7 a b v)

def add (d r : Reg) (m : Machine w) : Machine w :=
  { m.setReg d (m.reg d + m.reg r) with
    sreg := addFlags m.sreg (m.reg d) (m.reg r) (m.reg d + m.reg r) }

def adc (d r : Reg) (m : Machine w) : Machine w :=
  let v := m.reg d + m.reg r + (BitVec.ofBool (carryFlag m.sreg)).setWidth 8
  { m.setReg d v with sreg := addFlags m.sreg (m.reg d) (m.reg r) v }

def subi (d : Reg) (k : Byte) (m : Machine w) : Machine w :=
  { m.setReg d (m.reg d - k) with sreg := subFlags m.sreg (m.reg d) k (m.reg d - k) }

def cp (d r : Reg) (m : Machine w) : Machine w :=
  { m with sreg := subFlags m.sreg (m.reg d) (m.reg r) (m.reg d - m.reg r) }

def pushByte (b : Byte) (m : Machine w) : Machine w :=
  { m with mem := update m.mem m.sp b, sp := m.sp - 1#16 }

def push (r : Reg) (m : Machine w) : Machine w := m.pushByte (m.reg r)

def pop (r : Reg) (m : Machine w) : Machine w :=
  { m.setReg r (m.mem (m.sp + 1#16)) with sp := m.sp + 1#16 }

def pushBytes (bs : List Byte) (m : Machine w) : Machine w :=
  bs.foldl (fun m b => m.pushByte b) m

def pushAll (rs : List Reg) (m : Machine w) : Machine w := rs.foldl (fun m r => m.push r) m

def popAll (rs : List Reg) (m : Machine w) : Machine w := rs.foldl (fun m r => m.pop r) m

def pcBytes : Nat → Nat → List Byte
  | 0, _ => []
  | n + 1, pc => BitVec.ofNat 8 pc :: pcBytes n (pc / 256)

def ofBytes : List Byte → Nat
  | [] => 0
  | b :: bs => b.toNat + 256 * ofBytes bs

def topBytes (mem : Addr → Byte) : Addr → Nat → List Byte
  | _, 0 => []
  | sp, n + 1 => mem (sp + 1#16) :: topBytes mem (sp + 1#16) n

def pushPc (pc : Fin (256 ^ w)) (m : Machine w) : Machine w := m.pushBytes (pcBytes w pc)

def ret (m : Machine w) : Machine w :=
  { m with
    pc := ⟨ofBytes (topBytes m.mem m.sp w).reverse % 256 ^ w, Nat.mod_lt _ (by positivity)⟩
    sp := m.sp + BitVec.ofNat 16 w }

def reti (m : Machine w) : Machine w := { m.ret with sreg := m.sreg ||| 0x80#8 }

def ijmp (m : Machine w) : Machine w :=
  { m with pc := ⟨(m.word 30).toNat % 256 ^ w, Nat.mod_lt _ (by positivity)⟩ }

def icall (next : Fin (256 ^ w)) (m : Machine w) : Machine w := ijmp (m.pushPc next)

def interrupt (m : Machine w) : Machine w :=
  { m with sreg := m.sreg &&& 0x7F#8 }.pushPc m.pc

def Stacked (mem : Addr → Byte) (sp : Addr) (bs : List Byte) : Prop :=
  topBytes mem sp bs.length = bs
deriving Decidable

variable {m : Machine w} {mem mem' : Addr → Byte} {sp : Addr} {b : Byte} {bs cs : List Byte}

@[simp] theorem stacked_nil : Stacked mem sp [] := rfl

@[simp] theorem stacked_cons :
    Stacked mem sp (b :: bs) ↔ mem (sp + 1#16) = b ∧ Stacked mem (sp + 1#16) bs := by
  simp [Stacked, topBytes]

theorem stacked_append : Stacked mem sp (bs ++ cs) ↔
      Stacked mem sp bs ∧ Stacked mem (sp + BitVec.ofNat 16 bs.length) cs := by
  induction bs generalizing sp with
  | nil => simp
  | cons b bs ih =>
    have hsp : sp + 1#16 + BitVec.ofNat 16 bs.length = sp + BitVec.ofNat 16 (b :: bs).length := by
      rw [length_cons, Nat.add_comm, BitVec.ofNat_add, BitVec.add_assoc]
    rw [cons_append, stacked_cons, stacked_cons, ih, hsp, and_assoc]

theorem toNat_add_ofNat {n : Nat} (h : sp.toNat + n < 2 ^ 16) :
    (sp + BitVec.ofNat 16 n).toNat = sp.toNat + n := by
  rw [BitVec.toNat_add, BitVec.toNat_ofNat, Nat.add_mod_mod, Nat.mod_eq_of_lt h]

theorem add_ofNat_eq {sp' : Addr} {n : Nat} (h : sp.toNat + n = sp'.toNat) :
    sp + BitVec.ofNat 16 n = sp' := by
  have hlt := sp'.isLt
  refine BitVec.eq_of_toNat_eq ?_
  rw [toNat_add_ofNat (by omega), h]

theorem toNat_sub_one (h : 0 < sp.toNat) : (sp - 1#16).toNat = sp.toNat - 1 := by
  have := sp.isLt
  rw [BitVec.toNat_sub, BitVec.toNat_ofNat]
  omega

theorem Stacked.congr (h : Stacked mem sp bs) (hlen : sp.toNat + bs.length < 2 ^ 16)
    (hmem : ∀ a : Addr, sp.toNat < a.toNat → a.toNat ≤ sp.toNat + bs.length →
      mem' a = mem a) : Stacked mem' sp bs := by
  induction bs generalizing sp with
  | nil => exact stacked_nil
  | cons b bs ih =>
    rw [length_cons] at hlen hmem
    have hsp : (sp + 1#16).toNat = sp.toNat + 1 := toNat_add_ofNat (by omega)
    rw [stacked_cons] at h ⊢
    refine ⟨?_, ih h.2 (by omega) ?_⟩
    · rw [hmem _ (by omega) (by omega), h.1]
    · intro a h1 h2
      exact hmem a (by omega) (by omega)

@[simp] theorem length_pcBytes (n pc : Nat) : (pcBytes n pc).length = n := by
  induction n generalizing pc with
  | zero => rfl
  | succ n ih => rw [pcBytes, length_cons, ih]

theorem ofBytes_pcBytes (n pc : Nat) : ofBytes (pcBytes n pc) = pc % 256 ^ n := by
  induction n generalizing pc with
  | zero => rw [pcBytes, ofBytes, Nat.pow_zero, Nat.mod_one]
  | succ n ih =>
    have hmul : pc % 256 ^ (n + 1) = pc % 256 + 256 * (pc / 256 % 256 ^ n) := by
      rw [Nat.pow_succ', Nat.mod_mul]
    rw [pcBytes, ofBytes, ih, BitVec.toNat_ofNat, hmul]

theorem ofBytes_append (bs cs : List Byte) :
    ofBytes (bs ++ cs) = ofBytes bs + 256 ^ bs.length * ofBytes cs := by
  induction bs with
  | nil => simp [ofBytes]
  | cons b bs ih =>
    rw [cons_append, ofBytes, ih, ofBytes, length_cons, Nat.pow_succ']
    ring

def pcStack (pc : Fin (256 ^ w)) : List Byte := (pcBytes w pc).reverse

@[simp] theorem length_pcStack (pc : Fin (256 ^ w)) : (pcStack pc).length = w := by
  rw [pcStack, length_reverse, length_pcBytes]

theorem ret_pc {pc : Fin (256 ^ w)} (h : Stacked m.mem m.sp (pcStack pc ++ bs)) :
    m.ret.pc = pc := by
  have htop := (stacked_append.mp h).1
  rw [Stacked, length_pcStack, pcStack] at htop
  refine Fin.ext ?_
  show ofBytes (topBytes m.mem m.sp w).reverse % 256 ^ w = pc
  rw [htop, reverse_reverse, ofBytes_pcBytes, Nat.mod_mod, Nat.mod_eq_of_lt pc.isLt]

section PopAll

variable {rs : List Reg}

theorem popAll_cons (r : Reg) : popAll (r :: rs) m = popAll rs (m.pop r) := rfl

@[simp] theorem popAll_mem : (popAll rs m).mem = m.mem := by
  induction rs generalizing m with
  | nil => rfl
  | cons r rs ih => exact ih

@[simp] theorem popAll_sreg : (popAll rs m).sreg = m.sreg := by
  induction rs generalizing m with
  | nil => rfl
  | cons r rs ih => exact ih

theorem popAll_sp : (popAll rs m).sp = m.sp + BitVec.ofNat 16 rs.length := by
  induction rs generalizing m with
  | nil => exact (BitVec.add_zero _).symm
  | cons r rs ih =>
    rw [popAll_cons, ih, pop, length_cons, Nat.add_comm, BitVec.ofNat_add, BitVec.add_assoc]

theorem popAll_reg {f : Reg → Byte} (h : Stacked m.mem m.sp (rs.map f ++ bs)) (r : Reg) :
    (popAll rs m).reg r = if r ∈ rs then f r else m.reg r := by
  induction rs generalizing m with
  | nil => rfl
  | cons q rs ih =>
    rw [map_cons, cons_append, stacked_cons] at h
    rw [popAll_cons, ih h.2]
    by_cases hr : r ∈ rs
    · rw [if_pos hr, if_pos (mem_cons_of_mem q hr)]
    by_cases hq : r = q
    · subst hq
      rw [if_neg hr, if_pos mem_cons_self, ← h.1]
      exact setReg_self m r _
    · rw [if_neg hr, if_neg (not_mem_cons_of_ne_of_not_mem hq hr)]
      exact setReg_of_ne hq m _

theorem Stacked.popAll {f : Reg → Byte} (h : Stacked m.mem m.sp (rs.map f ++ bs)) :
    Stacked (m.popAll rs).mem (m.popAll rs).sp bs := by
  have hrest := (stacked_append.mp h).2
  rw [length_map] at hrest
  rwa [popAll_mem, popAll_sp]

end PopAll

@[simp] theorem push_reg (r : Reg) (m : Machine w) : (push r m).reg = m.reg := rfl

@[simp] theorem pushBytes_reg : (m.pushBytes bs).reg = m.reg := by
  induction bs generalizing m with
  | nil => rfl
  | cons b bs ih => exact ih

@[simp] theorem pushBytes_sreg : (m.pushBytes bs).sreg = m.sreg := by
  induction bs generalizing m with
  | nil => rfl
  | cons b bs ih => exact ih

theorem pushAll_eq (rs : List Reg) (m : Machine w) : m.pushAll rs = m.pushBytes (rs.map m.reg) := by
  induction rs generalizing m with
  | nil => rfl
  | cons r rs ih => exact ih (m.push r)

@[simp] theorem pushAll_reg (rs : List Reg) (m : Machine w) : (m.pushAll rs).reg = m.reg := by
  rw [pushAll_eq, pushBytes_reg]

@[simp] theorem pushAll_sreg (rs : List Reg) (m : Machine w) : (m.pushAll rs).sreg = m.sreg := by
  rw [pushAll_eq, pushBytes_sreg]

def callSaved : List Reg := [2, 3, 4, 5, 6, 7, 8, 9, 10, 11, 12, 13, 14, 15, 16, 17, 28, 29]

structure Pushed (keep : Addr → Prop) (rs : List Reg) (e m : Machine w) (bs : List Byte) :
    Prop where
  stacked : Stacked m.mem m.sp bs
  sp : m.sp.toNat + bs.length = e.sp.toNat
  mem : ∀ a, keep a → m.mem a = e.mem a
  regs : ∀ r ∈ rs, m.reg r = e.reg r
  irq : irqFlag m.sreg = irqFlag e.sreg

structure Room (keep : Addr → Prop) (sp : Addr) (n : Nat) : Prop where
  le : n ≤ sp.toNat
  free : ∀ a : Addr, a.toNat ≤ sp.toNat → sp.toNat < a.toNat + n → ¬ keep a

structure Called (keep : Addr → Prop) (base : Addr) (m m' : Machine w) : Prop where
  sp : m'.sp = m.sp
  saved : ∀ r ∈ callSaved, m'.reg r = m.reg r
  zero : m.reg 1 = 0 → m'.reg 1 = 0
  irq : irqFlag m'.sreg = irqFlag m.sreg
  mem : ∀ a, keep a → m'.mem a = m.mem a
  own : ∀ a : Addr, m.sp.toNat < a.toNat → a.toNat ≤ base.toNat → m'.mem a = m.mem a

theorem Called.refl (keep : Addr → Prop) (base : Addr) (m : Machine w) : Called keep base m m :=
  ⟨rfl, fun _ _ => rfl, fun h => h, rfl, fun _ _ => rfl, fun _ _ _ => rfl⟩

namespace Pushed

variable {keep keep' : Addr → Prop} {rs rs' : List Reg} {e m m' : Machine w}
variable {bs : List Byte} {n : Nat}

theorem refl (keep : Addr → Prop) (rs : List Reg) (e : Machine w) : Pushed keep rs e e [] :=
  ⟨stacked_nil, rfl, fun _ _ => rfl, fun _ _ => rfl, rfl⟩

theorem mono (h : Pushed keep rs e m bs) (hk : ∀ a, keep' a → keep a) (hr : rs' ⊆ rs) :
    Pushed keep' rs' e m bs :=
  { h with
    mem := fun a ha => h.mem a (hk a ha)
    regs := fun r hm => h.regs r (hr hm) }

theorem setReg {r : Reg} (h : Pushed keep rs e m bs) (v : Byte) (hr : r ∉ rs) :
    Pushed keep rs e (m.setReg r v) bs := by
  refine ⟨h.stacked, h.sp, h.mem, ?_, h.irq⟩
  intro q hq
  have hne : q ≠ r := by
    rintro rfl
    exact hr hq
  rw [setReg_of_ne hne]
  exact h.regs q hq

theorem setWord {r : Reg} (h : Pushed keep rs e m bs) (a : Addr) (hr : r ∉ rs)
    (hr' : r + 1#5 ∉ rs) : Pushed keep rs e (m.setWord r a) bs :=
  (h.setReg _ hr).setReg _ hr'

theorem setSreg {s : Byte} (h : Pushed keep rs e m bs) (hs : irqFlag s = irqFlag m.sreg) :
    Pushed keep rs e { m with sreg := s } bs :=
  ⟨h.stacked, h.sp, h.mem, h.regs, hs.trans h.irq⟩

theorem pushByte (h : Pushed keep rs e m bs) (hroom : Room keep e.sp n) (hn : bs.length < n)
    (b : Byte) : Pushed keep rs e (m.pushByte b) (b :: bs) := by
  have hsp := h.sp
  have hle := hroom.le
  have hlt := e.sp.isLt
  have hsub : (m.sp - 1#16).toNat = m.sp.toNat - 1 := toNat_sub_one (by omega)
  refine ⟨?_, ?_, ?_, h.regs, h.irq⟩
  · have hback : m.sp - 1#16 + 1#16 = m.sp := BitVec.sub_add_cancel _ _
    show Stacked (update m.mem m.sp b) (m.sp - 1#16) (b :: bs)
    rw [stacked_cons, hback, update_self]
    refine ⟨rfl, h.stacked.congr (by omega) ?_⟩
    intro a h1 h2
    refine update_of_ne ?_ _ _
    rintro rfl
    exact Nat.lt_irrefl _ h1
  · show (m.sp - 1#16).toNat + (bs.length + 1) = e.sp.toNat
    omega
  · intro a ha
    have hne : a ≠ m.sp := by
      rintro rfl
      exact hroom.free m.sp (by omega) (by omega) ha
    exact (update_of_ne hne _ _).trans (h.mem a ha)

theorem pushBytes {cs : List Byte} (h : Pushed keep rs e m bs) (hroom : Room keep e.sp n)
    (hn : cs.length + bs.length ≤ n) :
    Pushed keep rs e (m.pushBytes cs) (cs.reverse ++ bs) := by
  induction cs generalizing m bs with
  | nil => exact h
  | cons c cs ih =>
    rw [length_cons] at hn
    rw [reverse_cons, append_assoc]
    exact ih (h.pushByte hroom (by omega) c) (by
      show cs.length + (bs.length + 1) ≤ n
      omega)

theorem push {r : Reg} {b : Byte} (h : Pushed keep rs e m bs) (hroom : Room keep e.sp n)
    (hn : bs.length < n) (hb : m.reg r = b) : Pushed keep rs e (m.push r) (b :: bs) := by
  rw [Machine.push, hb]
  exact h.pushByte hroom hn b

theorem pushPc (h : Pushed keep rs e m bs) (pc : Fin (256 ^ w)) (hroom : Room keep e.sp n)
    (hn : w + bs.length ≤ n) : Pushed keep rs e (m.pushPc pc) (pcStack pc ++ bs) :=
  h.pushBytes hroom (by rwa [length_pcBytes])

theorem pushAll (h : Pushed keep rs e m bs) (qs : List Reg) (hroom : Room keep e.sp n)
    (hn : qs.length + bs.length ≤ n) (hq : qs ⊆ rs) :
    Pushed keep rs e (m.pushAll qs) (qs.reverse.map e.reg ++ bs) := by
  have hmap : qs.map m.reg = qs.map e.reg := map_congr_left fun r hr => h.regs r (hq hr)
  rw [pushAll_eq, hmap, map_reverse]
  exact h.pushBytes hroom (by rwa [length_map])

theorem write {a : Addr} {v : Byte} (h : Pushed keep rs e m bs) (hram : IsRam a)
    (ha : ¬ keep a) (hout : a.toNat ≤ m.sp.toNat ∨ e.sp.toNat < a.toNat) :
    Pushed keep rs e (m.write a v) bs := by
  have hsp := h.sp
  have hlt := e.sp.isLt
  rw [write_of_isRam hram]
  refine ⟨h.stacked.congr (by omega) ?_, h.sp, ?_, h.regs, h.irq⟩
  · intro b h1 h2
    refine update_of_ne ?_ _ _
    rintro rfl
    omega
  · intro b hb
    refine (update_of_ne ?_ _ _).trans (h.mem b hb)
    rintro rfl
    exact ha hb

theorem called (h : Pushed keep callSaved e m bs) (hc : Called keep e.sp m m') :
    Pushed keep callSaved e m' bs := by
  have hsp := h.sp
  have hlt := e.sp.isLt
  refine ⟨?_, ?_, ?_, ?_, hc.irq.trans h.irq⟩
  · rw [hc.sp]
    refine h.stacked.congr (by omega) ?_
    intro a h1 h2
    exact hc.own a h1 (by omega)
  · rw [hc.sp]
    exact h.sp
  · intro a ha
    rw [hc.mem a ha, h.mem a ha]
  · intro r hr
    rw [hc.saved r hr, h.regs r hr]

end Pushed

end Machine

end Avr
