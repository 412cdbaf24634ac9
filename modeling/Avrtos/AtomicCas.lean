import Avrtos.Atomic

/-! # Compare-and-swap (arch_atomic.S, atomic.c)

    `atomic_cas` compares the default result with `cmp`; runs are followed where this happens to
    be right. -/

namespace AvrtosAtomicCas

open Avr hiding Instr
open Function List Avr.Machine AvrShared Linear Runs AvrtosAtomic

variable {w : Nat} {a : Addr} {m : Machine w}

def atomicCas : List Instr :=
  [.movw 26 24, .lds 18 SREG, .cli, .ldi 24 0, .ld 25, .cpse 24 22, .jmp 2, .ldi 24 1, .st 20,
    .sts SREG 18, .ret]

/-- What C code works on. -/
structure CState where
  mem : Addr → Byte
  sreg : Byte

def irqLock (s : CState) : Byte × CState := (s.sreg, { s with sreg := s.sreg &&& 0x7F#8 })

def irqUnlock (key : Byte) (s : CState) : CState := { s with sreg := key }

def atomicCas2 (target : Addr) (cmd val : Byte) (s : CState) : Bool × CState :=
  let (key, s) := irqLock s
  let (ret, s) :=
    if s.mem target = cmd then (true, { s with mem := update s.mem target val })
    else (false, s)
  (ret, irqUnlock key s)

/-- A `bool` in a register. -/
def ofBool (b : Bool) : Byte := if b then 1 else 0

def compared (m : Machine w) : Machine w := exec (.ld 25) (exec (.ldi 24 0) (entered m))

theorem section_compared (hword : m.word 24 = a) : Section a m (compared m) :=
  ((section_entered hword).modify (r := 24) (v := 0) (by decide) (by decide) (by decide)
    (by decide)).modify (by decide) (by decide) (by decide) (by decide)

theorem reg_compared {r : Reg} (h25 : r ≠ 25) (h24 : r ≠ 24) (h18 : r ≠ 18) (h26 : r ≠ 26)
    (h27 : r ≠ 27) : (compared m).reg r = m.reg r :=
  (setReg_of_ne h25 _ _).trans ((setReg_of_ne h24 _ _).trans (reg_entered h18 h26 h27))

theorem reg_24_compared : (compared m).reg 24 = 0 :=
  (setReg_of_ne (by decide) _ _).trans (setReg_self _ _ _)

theorem solo_restore {m' : Machine w} (h : m'.reg 18 = m.sreg) :
    solo 0 [.sts SREG 18, .ret] m' = ⟨m'.reg, m.sreg, m'.sp, m'.pc, m'.mem⟩ := by
  have hsts : solo 0 [.sts SREG 18, .ret] m' = m'.write SREG (m'.reg 18) := rfl
  rw [hsts, write_SREG, h]

theorem solo_atomicCas_of_ne (hword : m.word 24 = a) (hcmd : m.reg 22 ≠ 0) : solo 0 atomicCas m =
      ⟨(compared m).reg, m.sreg, (compared m).sp, (compared m).pc, m.mem⟩ := by
  have hsection := section_compared hword
  have hskip : skip (.cpse 24 22) (compared m) = 0 := by
    refine if_neg ?_
    rw [reg_24_compared, reg_compared (by decide) (by decide) (by decide) (by decide) (by decide)]
    exact hcmd.symm
  calc solo 0 atomicCas m = solo (skip (.cpse 24 22) (compared m))
          [.jmp 2, .ldi 24 1, .st 20, .sts SREG 18, .ret] (compared m) := rfl
    _ = solo 0 [.sts SREG 18, .ret] (compared m) := by
        rw [hskip]
        rfl
    _ = ⟨(compared m).reg, m.sreg, (compared m).sp, (compared m).pc, m.mem⟩ := by
        rw [solo_restore hsection.saved, hsection.mem]

theorem solo_atomicCas_of_eq (hword : m.word 24 = a) (ha : IsRam a) (hcmd : m.reg 22 = 0) :
    solo 0 atomicCas m = ⟨((compared m).setReg 24 1).reg, m.sreg, (compared m).sp, (compared m).pc,
        update m.mem a (m.reg 20)⟩ := by
  have hsection : Section a m (exec (.ldi 24 1) (compared m)) :=
    (section_compared hword).modify (by decide) (by decide) (by decide) (by decide)
  have hskip : skip (.cpse 24 22) (compared m) = 1 := by
    refine if_pos ?_
    rw [reg_24_compared, reg_compared (by decide) (by decide) (by decide) (by decide) (by decide)]
    exact hcmd.symm
  have hval : (exec (.ldi 24 1) (compared m)).reg 20 = m.reg 20 :=
    (setReg_of_ne (by decide) _ _).trans
      (reg_compared (by decide) (by decide) (by decide) (by decide) (by decide))
  have hstore : exec (.st 20) (exec (.ldi 24 1) (compared m)) =
      ⟨((compared m).setReg 24 1).reg, (compared m).sreg, (compared m).sp, (compared m).pc,
        update m.mem a (m.reg 20)⟩ := by
    rw [hsection.store ha, hval]
    rfl
  calc solo 0 atomicCas m = solo (skip (.cpse 24 22) (compared m))
          [.jmp 2, .ldi 24 1, .st 20, .sts SREG 18, .ret] (compared m) := rfl
    _ = solo 0 [.sts SREG 18, .ret] (exec (.st 20) (exec (.ldi 24 1) (compared m))) := by
        rw [hskip]
        rfl
    _ = _ := (congrArg (solo 0 [.sts SREG 18, .ret]) hstore).trans (solo_restore hsection.saved)

theorem solo_atomicCas (hword : m.word 24 = a) (ha : IsRam a) : (solo 0 atomicCas m).mem =
        (if m.reg 22 = 0 then update m.mem a (m.reg 20) else m.mem) ∧
      (solo 0 atomicCas m).reg 24 = ofBool (m.reg 22 = 0) ∧
      Kept m (solo 0 atomicCas m) := by
  by_cases hcmd : m.reg 22 = 0
  · have hsection : Section a m (exec (.ldi 24 1) (compared m)) :=
      (section_compared hword).modify (by decide) (by decide) (by decide) (by decide)
    rw [solo_atomicCas_of_eq hword ha hcmd, if_pos hcmd, decide_eq_true hcmd]
    exact ⟨rfl, setReg_self (compared m) 24 1, rfl, hsection.kept⟩
  · rw [solo_atomicCas_of_ne hword hcmd, if_neg hcmd, decide_eq_false hcmd]
    exact ⟨rfl, reg_24_compared (m := m), rfl, (section_compared hword).kept⟩

theorem atomicCas2_eq (target : Addr) (cmd val : Byte) (s : CState) : atomicCas2 target cmd val s =
      (decide (s.mem target = cmd),
        ⟨if s.mem target = cmd then update s.mem target val else s.mem, s.sreg⟩) := by
  by_cases h : s.mem target = cmd
  · simp [atomicCas2, irqLock, irqUnlock, h]
  · simp [atomicCas2, irqLock, irqUnlock, h]

def Agrees (target : Addr) (m : Machine w) : Prop :=
  let r := atomicCas2 target (m.reg 22) (m.reg 20) ⟨m.mem, m.sreg⟩
  (solo 0 atomicCas m).mem = r.2.mem ∧ (solo 0 atomicCas m).reg 24 = ofBool r.1

theorem ofBool_inj {b c : Bool} : ofBool b = ofBool c ↔ b = c := by
  revert b c
  decide

theorem agrees_iff (hword : m.word 24 = a) (ha : IsRam a) :
    Agrees a m ↔ (m.reg 22 = 0 ↔ m.mem a = m.reg 22) := by
  obtain ⟨hmem, hresult, -⟩ := solo_atomicCas hword ha
  rw [Agrees, atomicCas2_eq, hmem, hresult, ofBool_inj, decide_eq_decide]
  constructor
  · exact fun h => h.2
  · intro hiff
    exact ⟨if_congr hiff rfl rfl, hiff⟩

/-- The calls of the loop. -/
inductive CasCall
  | get
  | cas (cmd val : Byte)
  deriving DecidableEq, Repr

def casObject (a : Addr) : Object CasCall Byte where
  code
    | .get => atomicGet
    | .cas _ _ => atomicCas
  entry
    | .get, reg => join (reg 25) (reg 24) = a
    | .cas cmd val, reg => join (reg 25) (reg 24) = a ∧ reg 22 = cmd ∧ reg 20 = val
  result _ r24 := r24
  apply
    | .get, b => (b, b)
    | .cas cmd val, b => if b = cmd then (val, 1) else (b, 0)
  pre
    | .get, _ => True
    | .cas cmd _, b => cmd = 0 ↔ b = cmd

theorem done_cas (hword : m.word 24 = a) (ha : IsRam a) (hiff : m.reg 22 = 0 ↔ m.mem a = m.reg 22) :
    Done a (casObject a) (.cas (m.reg 22) (m.reg 20)) m (m.mem a) (solo 0 atomicCas m) := by
  obtain ⟨hmem, hresult, hkept⟩ := solo_atomicCas hword ha
  by_cases hcmd : m.reg 22 = 0
  · have happly : (casObject a).apply (.cas (m.reg 22) (m.reg 20)) (m.mem a) =
        (m.reg 20, 1) := if_pos (hiff.mp hcmd)
    rw [if_pos hcmd] at hmem
    rw [decide_eq_true hcmd] at hresult
    refine ⟨?_, ?_, hkept⟩
    · rw [happly, hmem, update_self]
    · rw [happly]
      exact hresult
  · have happly : (casObject a).apply (.cas (m.reg 22) (m.reg 20)) (m.mem a) =
        (m.mem a, 0) := if_neg (fun h => hcmd (hiff.mpr h))
    rw [if_neg hcmd] at hmem
    rw [decide_eq_false hcmd] at hresult
    refine ⟨?_, ?_, hkept⟩
    · rw [happly, hmem]
    · rw [happly]
      exact hresult

theorem atomic_casObject (w : Nat) (ha : IsRam a) : Atomic a (casObject a) w where
  ram := ha
  target op m hentry := by
    cases op with
    | get => exact hentry
    | cas cmd val => exact hentry.1
  shape op := by
    cases op with
    | get => exact ⟨_, rfl, .access (fun _ => trivial) trivial (by decide)⟩
    | cas cmd val =>
      have hcritical : Shape (∀ b, (casObject a).pre (.cas cmd val) b) (.cli ::
          ([.ldi 24 0, .ld 25, .cpse 24 22, .jmp 2, .ldi 24 1, .st 20] ++
            .sts SREG 18 :: .ret :: [])) :=
        .critical (by decide) trivial (by decide)
      exact ⟨_, rfl, .quiet (i := .lds 18 SREG) rfl (by decide) hcritical⟩
  done op m hentry hpre := by
    cases op with
    | get =>
      have hdoes := does_atomicGet hentry ha
      exact ⟨hdoes.byte, hdoes.r24, hdoes.kept⟩
    | cas cmd val =>
      obtain ⟨hword, rfl, rfl⟩ := hentry
      exact done_cas hword ha hpre

variable {κ : Type} [DecidableEq κ] {b₀ b : Byte} {s : Sys κ CasCall Byte w}

def old (s : Sys κ CasCall Byte w) (k : κ) : Option Byte :=
  (s.history.filter fun r => r.ctx = k).getLast?.bind fun r =>
    if r.call.op = .get then some r.result else none

def RetryLoop (s : Sys κ CasCall Byte w) : Event κ CasCall w → Prop
  | .call .get _ => old s s.cur = none
  | .call (.cas cmd val) _ => old s s.cur = some cmd ∧ val = cmd + 1
  | _ => True

def Increment (c : Call CasCall × Byte) : Bool := c.1.op ≠ .get ∧ c.2 = 1

def completed (s : Sys κ CasCall Byte w) : Nat :=
  (s.past.map fun r => (r.call, r.result)).countP Increment

/-- The operations of the loop. -/
def Steps : CasCall → Prop
  | .get => True
  | .cas cmd val => val = cmd + 1

theorem legal_increments {l : List (Effect CasCall Byte)}
    (h : Legal (casObject a).apply b₀ l b) (hsteps : ∀ e ∈ l, Steps e.call.op) :
    b = b₀ + BitVec.ofNat 8 ((l.map fun e => (e.call, e.result)).countP Increment) := by
  induction l generalizing b₀ with
  | nil =>
    obtain rfl : b₀ = b := h
    simp
  | cons e l ih =>
    obtain ⟨⟨op, time⟩, result, instant⟩ := e
    obtain ⟨hresult, hlegal⟩ := h
    have hrest := ih hlegal fun e he => hsteps e (mem_cons_of_mem _ he)
    have hstep : Steps op := hsteps _ mem_cons_self
    rw [map_cons, countP_cons]
    cases op with
    | get => exact hrest
    | cas cmd val =>
      obtain rfl : val = cmd + 1 := hstep
      by_cases hcmd : b₀ = cmd
      · -- the swap succeeds
        have happly : (casObject a).apply (.cas cmd (cmd + 1)) b₀ = (cmd + 1, 1) := if_pos hcmd
        dsimp only at hresult hrest
        rw [happly] at hresult hrest
        have hinc : Increment (⟨.cas cmd (cmd + 1), time⟩, 1) = true := rfl
        rw [hrest, ← hresult, hcmd, hinc, if_pos rfl, BitVec.ofNat_add, BitVec.add_assoc,
          BitVec.add_comm (1 : Byte)]
        rfl
      · have happly : (casObject a).apply (.cas cmd (cmd + 1)) b₀ = (b₀, 0) := if_neg hcmd
        dsimp only at hresult hrest
        rw [happly] at hresult hrest
        have hinc : Increment (⟨.cas cmd (cmd + 1), time⟩, 0) = false := rfl
        rw [hrest, ← hresult, hinc]
        rfl

theorem steps_of_called {c : Call CasCall}
    (h : Reach (Initial a b₀) (fun s ev => AvrShared.Allowed a (casObject a) s ev ∧ RetryLoop s ev)
      (step (casObject a)) s) (hc : s.Called c) : Steps c.op := by
  refine h.invariant (P := fun s => ∀ c, s.Called c → Steps c.op) ?_ ?_ c hc
  · rintro s ⟨hidle, -, hhistory⟩ c (⟨k, act, hact, -⟩ | hc)
    · rw [hidle k] at hact
      exact absurd hact (Option.some_ne_none act).symm
    · rw [Sys.past, hhistory] at hc
      exact absurd hc not_mem_nil
  · intro s ev ih hok c hc
    rcases called_step hc with hc | ⟨op, m, rfl, hop⟩
    · exact ih c hc
    · rw [hop]
      cases op with
      | get => trivial
      | cas cmd val => exact hok.2.2

theorem byte_eq_completed (ha : IsRam a)
    (h : Reach (Initial a b₀) (fun s ev => AvrShared.Allowed a (casObject a) s ev ∧ RetryLoop s ev)
      (step (casObject a)) s) (hidle : ∀ k, (s.ctx k).active = none) :
    s.mem a = b₀ + BitVec.ofNat 8 (completed s) := by
  obtain ⟨l, b, hinv⟩ := exists_inv (atomic_casObject w ha) (h.mono fun _ _ hok => hok.1)
  have hnone : ∀ c, ¬ s.Pending c := by
    rintro c ⟨k, act, hact, -⟩
    rw [hidle k] at hact
    exact absurd hact (Option.some_ne_none act).symm
  have hsteps : ∀ e ∈ l, Steps e.call.op := by
    intro e he
    obtain ⟨r, hr, hcall⟩ := (hinv.order.known e he).resolve_right (hnone e.call)
    exact steps_of_called h (Or.inr (mem_map.mpr ⟨r, hr, hcall⟩))
  rw [← hinv.byte (hidle s.cur), legal_increments hinv.order.legal hsteps, completed,
    (hinv.order.perm hnone).countP_eq]

/-- **WHERE `atomic_cas` IS A COMPARE-AND-SWAP**: exactly when the value to compare is 0 just
    when the byte has it. -/
theorem atomic_cas_correct_iff (w : Nat) (a : Addr) (ha : IsRam a) :
    (∀ m : Machine w, m.word 24 = a →
      (Agrees a m ↔ (m.reg 22 = 0 ↔ m.mem a = m.reg 22))) ∧
    ∀ (κ : Type) (_ : DecidableEq κ) (b₀ : Byte) (s : Sys κ CasCall Byte w),
      Reach (Initial a b₀) (fun s ev => AvrShared.Allowed a (casObject a) s ev ∧ RetryLoop s ev)
        (step (casObject a)) s →
      (∀ k, (s.ctx k).active = none) → s.mem a = b₀ + BitVec.ofNat 8 (completed s) :=
  ⟨fun _ hword => agrees_iff hword ha, fun _ _ _ _ h hidle => byte_eq_completed ha h hidle⟩

instance (a : Addr) (c : CasCall) (b : Byte) : Decidable ((casObject a).pre c b) :=
  match c with
  | .get => isTrue trivial
  | .cas _ _ => inferInstanceAs (Decidable (_ ↔ _))

instance (a : Addr) (c : CasCall) (reg : Reg → Byte) : Decidable ((casObject a).entry c reg) :=
  match c with
  | .get => inferInstanceAs (Decidable (_ = _))
  | .cas _ _ => inferInstanceAs (Decidable (_ ∧ _ ∧ _))

instance (s : Sys κ CasCall Byte w) (ev : Event κ CasCall w) : Decidable (RetryLoop s ev) :=
  match ev with
  | .call .get _ => inferInstanceAs (Decidable (_ = _))
  | .call (.cas _ _) _ => inferInstanceAs (Decidable (_ ∧ _))
  | .instr | .switch _ _ => isTrue trivial

def memory (b : Byte) : Addr → Byte := update (fun _ => 0#8) 0x100#16 b

def swapper (b cmd val : Byte) : Machine 2 :=
  let m := caller 0x80#8 (memory b)
  ⟨update (update m.reg 22 cmd) 20 val, m.sreg, m.sp, m.pc, m.mem⟩

/-- Two contexts and the byte 0. -/
def zero : Sys Bool CasCall Byte 2 :=
  ⟨fun _ => ⟨caller 0x80#8 (memory 0), none⟩, false, memory 0, 0, []⟩

/-- A context reads the byte 0. -/
def readZero : List (Event Bool CasCall 2) :=
  .call .get (caller 0x80#8 (memory 0)) :: replicate 3 .instr

def replaceZero (b : Byte) : List (Event Bool CasCall 2) :=
  .call (.cas 0 1) (swapper b 0 1) :: replicate 10 .instr

/-- An increment of the byte 0: the functions agree, and the increment is counted. -/
theorem atomic_cas_correct_iff_zero :
    (Agrees 0x100#16 (swapper 0 0 1) ↔ ((0 : Byte) = 0 ↔ (0 : Byte) = 0)) ∧
    ((readZero ++ replaceZero 0).foldl (step (casObject 0x100#16)) zero).mem 0x100#16 =
      0 + BitVec.ofNat 8 (completed
        ((readZero ++ replaceZero 0).foldl (step (casObject 0x100#16)) zero)) := by
  have hinit : Initial 0x100#16 0 zero := ⟨fun _ => rfl, rfl, rfl⟩
  obtain ⟨hagrees, hcounts⟩ := atomic_cas_correct_iff 2 0x100#16 (by decide)
  refine ⟨hagrees (swapper 0 0 1) (by decide), ?_⟩
  exact hcounts Bool _ 0 _ ((Reach.start hinit).foldl (by decide +kernel)) (by decide +kernel)

def anyCas (a : Addr) : Object CasCall Byte := { casObject a with pre := fun _ _ => True }

instance (a : Addr) (c : CasCall) (b : Byte) : Decidable ((anyCas a).pre c b) := isTrue trivial

instance (a : Addr) (c : CasCall) (reg : Reg → Byte) : Decidable ((anyCas a).entry c reg) :=
  inferInstanceAs (Decidable ((casObject a).entry c reg))

def lostUpdate : List (Event Bool CasCall 2) :=
  readZero ++ [.switch true (memory 0)] ++ readZero ++ replaceZero 0 ++
    [.switch false (memory 1)] ++ replaceZero 1

/-- The byte 5 is not replaced by 6 although 5 is the value to compare; and one of
    two complete increments is lost. -/
theorem atomic_cas_wrong :
    ((solo 0 atomicCas (swapper 5 5 6)).mem 0x100#16 = 5 ∧
      (solo 0 atomicCas (swapper 5 5 6)).reg 24 = 0 ∧
      (atomicCas2 0x100#16 5 6 ⟨memory 5, 0x80⟩).1 = true ∧
      (atomicCas2 0x100#16 5 6 ⟨memory 5, 0x80⟩).2.mem 0x100#16 = 6) ∧
    let s := lostUpdate.foldl (step (anyCas 0x100#16)) zero
    Runs.Allowed (fun s ev => AvrShared.Allowed 0x100#16 (anyCas 0x100#16) s ev ∧ RetryLoop s ev)
      (step (anyCas 0x100#16)) zero lostUpdate ∧
    (∀ k, (s.ctx k).active = none) ∧ completed s = 2 ∧ s.mem 0x100#16 = 1 := by
  refine ⟨by decide, ?_, ?_, ?_, ?_⟩ <;> decide +kernel

end AvrtosAtomicCas
