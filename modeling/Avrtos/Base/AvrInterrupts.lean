import Avrtos.Base.Avr
import Avrtos.Base.Runs

/-! # Code that interrupts are taken in

    Code is followed instruction by instruction, with interrupts between any two where they are
    enabled. -/

namespace Avr

open List Machine Runs

variable {w : Nat}

inductive Instr
  | lds (r : Reg) (a : Addr)
  | ldi (r : Reg) (k : Byte)
  | sts (a : Addr) (r : Reg)
  | cli
  | ret
  deriving DecidableEq, Repr

namespace Instr

def exec : Instr → Machine w → Machine w
  | .lds r a, m => m.lds r a
  | .ldi r k, m => m.ldi r k
  | .sts a r, m => m.sts a r
  | .cli, m => { m with sreg := m.sreg &&& 0x7F#8 }
  | .ret, m => m.ret

/-- Code without interrupts. -/
def execAll (is : List Instr) (m : Machine w) : Machine w := is.foldl (fun m i => i.exec m) m

def Loads (r : Reg) : Instr → Prop
  | .lds q _ => q ≠ r
  | .ldi q _ => q ≠ r
  | _ => False

def Immediate : Instr → Prop
  | .ldi _ _ => True
  | .ret => True
  | _ => False

instance (r : Reg) (i : Instr) : Decidable (i.Loads r) :=
  match i with
  | .lds _ _ => inferInstanceAs (Decidable (_ ≠ _))
  | .ldi _ _ => inferInstanceAs (Decidable (_ ≠ _))
  | .sts _ _ => isFalse id
  | .cli => isFalse id
  | .ret => isFalse id

instance (i : Instr) : Decidable i.Immediate :=
  match i with
  | .lds _ _ => isFalse id
  | .ldi _ _ => isTrue trivial
  | .sts _ _ => isFalse id
  | .cli => isFalse id
  | .ret => isTrue trivial

variable {i : Instr} {is : List Instr} {r : Reg} {m m' : Machine w}

theorem Loads.exec (h : i.Loads r) (m : Machine w) :
    (i.exec m).sreg = m.sreg ∧ (i.exec m).reg r = m.reg r := by
  cases i with
  | lds q a => exact ⟨rfl, setReg_of_ne (Ne.symm h) m _⟩
  | ldi q k => exact ⟨rfl, setReg_of_ne (Ne.symm h) m _⟩
  | sts a q => exact h.elim
  | cli => exact h.elim
  | ret => exact h.elim

theorem Immediate.sreg (h : i.Immediate) (m : Machine w) : (i.exec m).sreg = m.sreg := by
  cases i with
  | ldi q k => rfl
  | ret => rfl
  | lds q a => exact h.elim
  | sts a q => exact h.elim
  | cli => exact h.elim

theorem Immediate.reg (h : i.Immediate) (hreg : m'.reg = m.reg) :
    (i.exec m').reg = (i.exec m).reg := by
  cases i with
  | ldi q k => exact congrArg (Function.update · q k) hreg
  | ret => exact hreg
  | lds q a => exact h.elim
  | sts a q => exact h.elim
  | cli => exact h.elim

theorem execAll_reg (h : ∀ i ∈ is, i.Immediate) (hreg : m'.reg = m.reg) :
    (execAll is m').reg = (execAll is m).reg := by
  induction is generalizing m m' with
  | nil => exact hreg
  | cons i is ih =>
    refine ih (fun j hj => h j (mem_cons_of_mem i hj)) ?_
    exact (h i mem_cons_self).reg hreg

end Instr

/-- Code in execution. -/
structure Code (w : Nat) where
  m : Machine w
  rest : List Instr
  held : Bool
  seen : List (Machine w)

inductive Event (w : Nat)
  | instr
  | interrupt (m : Machine w)

namespace Code

/-- The code is called. -/
def Called (is : List Instr) (m : Machine w) (st : Code w) : Prop := st = ⟨m, is, false, [m]⟩

def step (st : Code w) : Event w → Code w
  | .instr =>
      match st.rest with
      | [] => st
      | i :: is =>
          { m := i.exec st.m
            rest := is
            held := !irqFlag st.m.sreg && irqFlag (i.exec st.m).sreg
            seen := st.seen ++ [i.exec st.m] }
  | .interrupt m => { st with m := m, seen := st.seen ++ [m] }

def Allowed (st : Code w) : Event w → Prop
  | .instr => st.rest ≠ []
  | .interrupt m => irqFlag st.m.sreg = true ∧ st.held = false ∧ m.reg = st.m.reg ∧
      m.sreg = st.m.sreg ∧ m.sp = st.m.sp ∧ m.pc = st.m.pc

def Runs (is : List Instr) (m : Machine w) : Code w → Prop := Reach (Called is m) Allowed step

end Code

section Critical

variable {r : Reg} {crit tail : List Instr} {last : Instr} {m : Machine w} {st : Code w}

def critical (r : Reg) (crit : List Instr) (last : Instr) (tail : List Instr) : List Instr :=
  .lds r SREG :: .cli :: (crit ++ .sts SREG r :: last :: tail)

def Snapshot (r : Reg) (crit : List Instr) (last : Instr) (tail : List Instr) (st : Code w) :
    Prop :=
  ∃ e ∈ st.seen, (Instr.execAll st.rest st.m).reg =
    (Instr.execAll (crit ++ .sts SREG r :: last :: tail) e).reg

/-- The states of such a function. -/
inductive Phase (r : Reg) (crit : List Instr) (last : Instr) (tail : List Instr)
    (sreg : Byte) (st : Code w) : Prop
  | entry (hrest : st.rest = critical r crit last tail) (hsreg : st.m.sreg = sreg)
  | saved (hrest : st.rest = .cli :: (crit ++ .sts SREG r :: last :: tail))
      (hsreg : st.m.sreg = sreg) (hr : st.m.reg r = sreg)
  | inside (left : List Instr) (hrest : st.rest = left ++ .sts SREG r :: last :: tail)
      (hleft : ∀ i ∈ left, i.Loads r) (hirq : irqFlag st.m.sreg = false) (hr : st.m.reg r = sreg)
      (hsnap : Snapshot r crit last tail st)
  | restored (hrest : st.rest = last :: tail) (hsreg : st.m.sreg = sreg)
      (hheld : irqFlag sreg = true → st.held = true) (hsnap : Snapshot r crit last tail st)
  | tail (hrest : ∀ i ∈ st.rest, i.Immediate) (hsreg : st.m.sreg = sreg)
      (hsnap : Snapshot r crit last tail st)

theorem Code.step_instr {i : Instr} {is : List Instr} (h : st.rest = i :: is) : st.step .instr =
      { m := i.exec st.m
        rest := is
        held := !irqFlag st.m.sreg && irqFlag (i.exec st.m).sreg
        seen := st.seen ++ [i.exec st.m] } := by
  rw [Code.step, h]

theorem Code.Runs.finishes {is : List Instr} (h : Code.Runs is m st) :
    ∃ st', Code.Runs is m st' ∧ st'.rest = [] := by
  obtain ⟨n, hn⟩ : ∃ n, st.rest.length = n := ⟨_, rfl⟩
  induction n generalizing st with
  | zero => exact ⟨st, h, length_eq_zero_iff.mp hn⟩
  | succ n ih =>
    obtain ⟨i, left, hrest⟩ := exists_cons_of_length_eq_add_one hn
    refine ih (h.step .instr ?_) ?_
    · show st.rest ≠ []
      rw [hrest]
      exact cons_ne_nil i left
    · rw [Code.step_instr hrest]
      rw [hrest, length_cons] at hn
      exact Nat.succ.inj hn

theorem Snapshot.instr {i : Instr} {is : List Instr} (h : Snapshot r crit last tail st)
    (hrest : st.rest = i :: is) : Snapshot r crit last tail (st.step .instr) := by
  obtain ⟨e, he, heq⟩ := h
  rw [hrest] at heq
  rw [Code.step_instr hrest]
  exact ⟨e, mem_append_left _ he, heq⟩

variable {sreg : Byte}

theorem Phase.instr (h : Phase r crit last tail sreg st) (hcrit : ∀ i ∈ crit, i.Loads r)
    (hlast : last.Loads r) (htail : ∀ i ∈ tail, i.Immediate) (hne : st.rest ≠ []) :
    Phase r crit last tail sreg (st.step .instr) := by
  cases h with
  | entry hrest hsreg =>
    rw [Code.step_instr hrest]
    refine .saved rfl hsreg ?_
    exact (setReg_self _ _ _).trans ((read_SREG _).trans hsreg)
  | saved hrest hsreg hr =>
    rw [Code.step_instr hrest]
    refine .inside crit rfl hcrit (irqFlag_clear _) hr ?_
    exact ⟨_, mem_append_right _ mem_cons_self, rfl⟩
  | inside left hrest hleft hirq hr hsnap =>
    cases left with
    | nil =>
      have hs := hsnap.instr hrest
      rw [Code.step_instr hrest] at hs ⊢
      have hsreg : (Instr.exec (.sts SREG r) st.m).sreg = sreg := by
        rw [Instr.exec, Machine.sts, write_SREG]
        exact hr
      refine .restored rfl hsreg ?_ hs
      intro hon
      rw [hsreg, hirq, hon]
      rfl
    | cons i left =>
      have hs := hsnap.instr hrest
      have hi := (hleft i mem_cons_self).exec st.m
      rw [Code.step_instr hrest] at hs ⊢
      refine .inside left rfl (fun j hj => hleft j (mem_cons_of_mem i hj)) ?_ ?_ hs
      · rw [hi.1]
        exact hirq
      · rw [hi.2]
        exact hr
  | restored hrest hsreg hheld hsnap =>
    have hs := hsnap.instr hrest
    rw [Code.step_instr hrest] at hs ⊢
    exact .tail htail ((hlast.exec st.m).1.trans hsreg) hs
  | tail hrest hsreg hsnap =>
    obtain ⟨i, is, heq⟩ := exists_cons_of_ne_nil hne
    have hs := hsnap.instr heq
    rw [heq] at hrest
    rw [Code.step_instr heq] at hs ⊢
    refine .tail (fun j hj => hrest j (mem_cons_of_mem i hj)) ?_ hs
    exact ((hrest i mem_cons_self).sreg st.m).trans hsreg

theorem Phase.interrupt {m : Machine w} (h : Phase r crit last tail sreg st)
    (hok : st.Allowed (.interrupt m)) :
    Phase r crit last tail sreg (st.step (.interrupt m)) := by
  obtain ⟨hirq, hheld, hreg, hs, -, -⟩ := hok
  cases h with
  | entry hrest hsreg => exact .entry hrest (hs.trans hsreg)
  | saved hrest hsreg hr => exact .saved hrest (hs.trans hsreg) ((congrFun hreg r).trans hr)
  | inside left hrest hleft hoff hr hsnap =>
    rw [hirq] at hoff
    exact Bool.noConfusion hoff
  | restored hrest hsreg hh hsnap =>
    rw [hsreg] at hirq
    rw [hh hirq] at hheld
    exact Bool.noConfusion hheld
  | tail hrest hsreg hsnap =>
    obtain ⟨e, he, heq⟩ := hsnap
    refine .tail hrest (hs.trans hsreg) ⟨e, mem_append_left _ he, ?_⟩
    exact (Instr.execAll_reg hrest hreg).trans heq

theorem snapshot (hcrit : ∀ i ∈ crit, i.Loads r) (hlast : last.Loads r)
    (htail : ∀ i ∈ tail, i.Immediate) (h : Code.Runs (critical r crit last tail) m st)
    (hend : st.rest = []) :
    (∃ e ∈ st.seen, st.m.reg =
      (Instr.execAll (crit ++ .sts SREG r :: last :: tail) e).reg) ∧ st.m.sreg = m.sreg := by
  have hphase := h.invariant (P := Phase r crit last tail m.sreg) ?_ ?_
  · cases hphase with
    | entry hrest => exact absurd (hrest.symm.trans hend) (cons_ne_nil _ _)
    | saved hrest => exact absurd (hrest.symm.trans hend) (cons_ne_nil _ _)
    | inside left hrest =>
      exact absurd (hrest.symm.trans hend) (append_ne_nil_of_right_ne_nil _
        (cons_ne_nil _ _))
    | restored hrest => exact absurd (hrest.symm.trans hend) (cons_ne_nil _ _)
    | tail _ hsreg hsnap =>
      obtain ⟨e, he, heq⟩ := hsnap
      rw [hend] at heq
      exact ⟨⟨e, he, heq⟩, hsreg⟩
  · rintro _ rfl
    exact .entry rfl rfl
  · intro st ev hst hok
    cases ev with
    | instr => exact hst.instr hcrit hlast htail hok
    | interrupt m => exact hst.interrupt hok

end Critical

end Avr
