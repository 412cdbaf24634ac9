import Avrtos.Base.AvrRoutine
import Avrtos.Base.Linear
import Avrtos.Base.Runs

/-! # Routines on a byte that several contexts share

    Contexts share the memory; a call of a routine with a `Shape` takes effect at one step of the
    run. -/

namespace AvrShared

open Function List Avr Machine Linear Runs

variable {w : Nat} {i : Instr} {m : Machine w}

/-- An operation in a context. -/
structure Active (ο : Type) (w : Nat) where
  call : Call ο
  entry : Machine w
  rest : List Instr
  held : Bool

/-- A context. -/
structure Ctx (ο : Type) (w : Nat) where
  m : Machine w
  active : Option (Active ο w)

/-- A call that has returned. -/
structure Returned (κ ο ρ : Type) (w : Nat) extends Return ο ρ where
  ctx : κ
  entry : Machine w
  exit : Machine w

structure Sys (κ ο ρ : Type) (w : Nat) where
  ctx : κ → Ctx ο w
  cur : κ
  mem : Addr → Byte
  now : Nat
  history : List (Returned κ ο ρ w)

/-- Operations on a byte. -/
structure Object (ο ρ : Type) where
  code : ο → List Instr
  entry : ο → (Reg → Byte) → Prop
  result : ο → Byte → ρ
  apply : ο → Byte → Byte × ρ
  pre : ο → Byte → Prop

inductive Event (κ ο : Type) (w : Nat)
  | instr
  | call (op : ο) (m : Machine w)
  | switch (k : κ) (mem : Addr → Byte)

section System

variable {κ ο ρ : Type} [DecidableEq κ] (a : Addr) (obj : Object ο ρ)

def Sys.goes (s : Sys κ ο ρ w) (m : Machine w) (act : Active ο w) : Sys κ ο ρ w where
  ctx := update s.ctx s.cur ⟨m, some act⟩
  cur := s.cur
  mem := m.mem
  now := s.now + 1
  history := s.history

def Sys.returns (s : Sys κ ο ρ w) (m : Machine w) (act : Active ο w) : Sys κ ο ρ w where
  ctx := update s.ctx s.cur ⟨m, none⟩
  cur := s.cur
  mem := m.mem
  now := s.now + 1
  history := s.history ++
    [⟨⟨act.call, obj.result act.call.op (m.reg 24), s.now⟩, s.cur, act.entry, m⟩]

def Sys.machine (s : Sys κ ο ρ w) : Machine w := withMem (s.ctx s.cur).m s.mem

def Sys.leaves (s : Sys κ ο ρ w) (act : Active ο w) (m : Machine w) (rest : List Instr) :
    Sys κ ο ρ w :=
  if rest = [] then s.returns obj m act
  else s.goes m ⟨act.call, act.entry, rest, !irqFlag s.machine.sreg && irqFlag m.sreg⟩

def step (s : Sys κ ο ρ w) : Event κ ο w → Sys κ ο ρ w
  | .instr =>
      match (s.ctx s.cur).active with
      | none => s
      | some act =>
          match act.rest with
          | [] => s
          | i :: is => s.leaves obj act (exec i s.machine) (is.drop (skip i s.machine))
  | .call op m => s.goes m ⟨⟨op, s.now⟩, m, obj.code op, false⟩
  | .switch k mem => ⟨s.ctx, k, mem, s.now + 1, s.history⟩

def Ctx.Switchable (c : Ctx ο w) : Prop :=
  ∀ act, c.active = some act → irqFlag c.m.sreg = true ∧ act.held = false

def Allowed (s : Sys κ ο ρ w) : Event κ ο w → Prop
  | .instr => ∃ act i is, (s.ctx s.cur).active = some act ∧ act.rest = i :: is ∧
      (i = .cli → obj.pre act.call.op (s.mem a))
  | .call op m => (s.ctx s.cur).active = none ∧ obj.entry op m.reg ∧ m.mem a = s.mem a
  | .switch _ mem => (s.ctx s.cur).Switchable ∧ mem a = s.mem a

instance (c : Ctx ο w) : Decidable c.Switchable :=
  match h : c.active with
  | none => isTrue fun act hact => absurd (h.symm.trans hact) (Option.some_ne_none act).symm
  | some act =>
      decidable_of_iff (irqFlag c.m.sreg = true ∧ act.held = false)
        ⟨fun hfree _ hact => Option.some.inj (h.symm.trans hact) ▸ hfree, fun hfree => hfree act h⟩

instance [∀ op b, Decidable (obj.pre op b)] [∀ op reg, Decidable (obj.entry op reg)]
    (s : Sys κ ο ρ w) (ev : Event κ ο w) : Decidable (Allowed a obj s ev) :=
  match ev with
  | .instr =>
      match hact : (s.ctx s.cur).active with
      | none => isFalse fun ⟨act, _, _, h, _⟩ =>
          absurd (hact.symm.trans h) (Option.some_ne_none act).symm
      | some act =>
          match hrest : act.rest with
          | [] => isFalse fun ⟨act', i, is, h, h', _⟩ => by
              rw [hact] at h
              rw [← Option.some.inj h, hrest] at h'
              exact cons_ne_nil i is h'.symm
          | i :: is =>
              decidable_of_iff (i = .cli → obj.pre act.call.op (s.mem a))
                ⟨fun hpre => ⟨act, i, is, hact, hrest, hpre⟩, fun ⟨act', i', is', h, h', hpre⟩ => by
                  rw [hact] at h
                  rw [← Option.some.inj h] at h' hpre
                  rw [hrest] at h'
                  rw [(List.cons.inj h').1]
                  exact hpre⟩
  | .call _ _ => decidable_of_iff (_ ∧ _ ∧ _) Iff.rfl
  | .switch _ _ => inferInstanceAs (Decidable (_ ∧ _))

def Initial (b₀ : Byte) (s : Sys κ ο ρ w) : Prop :=
  (∀ k, (s.ctx k).active = none) ∧ s.mem a = b₀ ∧ s.history = []

def CallClobbered (r : Reg) : Prop :=
  r ∈ ([0, 18, 19, 20, 21, 22, 23, 24, 25, 26, 27, 30, 31] : List Reg)
deriving Decidable

structure Kept (entry m : Machine w) : Prop where
  sreg : m.sreg = entry.sreg
  reg : ∀ r, ¬ CallClobbered r → m.reg r = entry.reg r

structure Done (op : ο) (entry : Machine w) (b : Byte) (m : Machine w) : Prop where
  byte : m.mem a = (obj.apply op b).1
  result : obj.result op (m.reg 24) = (obj.apply op b).2
  kept : Kept entry m

structure Atomic (w : Nat) : Prop where
  ram : IsRam a
  target : ∀ op (m : Machine w), obj.entry op m.reg → m.word 24 = a
  shape : ∀ op, ∃ body, obj.code op = .movw 26 24 :: body ∧ Shape (∀ b, obj.pre op b) body
  done : ∀ op (m : Machine w), obj.entry op m.reg → obj.pre op (m.mem a) →
    Done a obj op m (m.mem a) (solo 0 (obj.code op) m)

inductive Open (l : List (Effect ο ρ)) (m : Machine w) (act : Active ο w) : Prop
  | called (hfresh : act.call ∉ l.map Effect.call) (hrest : act.rest = obj.code act.call.op)
      (hentry : obj.entry act.call.op act.entry.reg)
      (hm : ∀ mem, withMem m mem = withMem act.entry mem)
  | before (hfresh : act.call ∉ l.map Effect.call)
      (hshape : Shape (∀ b, obj.pre act.call.op b) act.rest) (hx : m.word 26 = a)
      (hdone : ∀ mem, obj.pre act.call.op (mem a) →
        Done a obj act.call.op act.entry (mem a) (solo 0 act.rest (withMem m mem)))
  | after (e : Effect ο ρ) (he : e ∈ l) (hcall : e.call = act.call)
      (htime : e.call.time < e.instant) (hquiet : ∀ j ∈ act.rest, j.Quiet)
      (hresult : obj.result act.call.op ((solo 0 act.rest m).reg 24) = e.result)
      (hkept : Kept act.entry (solo 0 act.rest m))

inductive Shut (l : List (Effect ο ρ)) (b : Byte) (mem : Addr → Byte) (m : Machine w)
    (act : Active ο w) : Prop
  | inside (left : List Instr) (r : Reg) (last : Instr) (tail : List Instr)
      (hfresh : act.call ∉ l.map Effect.call)
      (hrest : act.rest = left ++ .sts SREG r :: last :: tail) (hleft : Inside left)
      (hlast : last.Plain) (htail : ∀ j ∈ tail, j.Quiet) (hirq : irqFlag m.sreg = false)
      (hx : m.word 26 = a)
      (hdone : Done a obj act.call.op act.entry b (solo 0 act.rest (withMem m mem)))
  | restored (last : Instr) (tail : List Instr) (hfresh : act.call ∉ l.map Effect.call)
      (hrest : act.rest = last :: tail) (hlast : last.Plain) (htail : ∀ j ∈ tail, j.Quiet)
      (hheld : irqFlag m.sreg = true → act.held = true)
      (hdone : Done a obj act.call.op act.entry b (solo 0 act.rest (withMem m mem)))

/-- What has been returned. -/
def Sys.past (s : Sys κ ο ρ w) : List (Return ο ρ) := s.history.map Returned.toReturn

/-- Calls that have not returned. -/
def Sys.Pending (s : Sys κ ο ρ w) (c : Call ο) : Prop :=
  ∃ k act, (s.ctx k).active = some act ∧ act.call = c

/-- Calls that have been made. -/
def Sys.Called (s : Sys κ ο ρ w) (c : Call ο) : Prop := s.Pending c ∨ c ∈ s.past.map Return.call

/-- The invariant. -/
structure Inv (b₀ : Byte) (s : Sys κ ο ρ w) (l : List (Effect ο ρ)) (b : Byte) : Prop where
  order : Order obj.apply b₀ b s.now s.past s.Pending l
  kept : ∀ r ∈ s.history, Kept r.entry r.exit
  older : ∀ c, s.Called c → c.time < s.now
  gone : ∀ c, s.Pending c → c ∉ s.past.map Return.call
  apart : ∀ k k' act act', (s.ctx k).active = some act → (s.ctx k').active = some act' →
    act.call = act'.call → k = k'
  others : ∀ k ≠ s.cur, ∀ act, (s.ctx k).active = some act → Open a obj l (s.ctx k).m act
  current : (b = s.mem a ∧ ∀ act, (s.ctx s.cur).active = some act →
      Open a obj l (s.ctx s.cur).m act) ∨
    ∃ act, (s.ctx s.cur).active = some act ∧ Shut a obj l b s.mem (s.ctx s.cur).m act

variable {a obj} {b₀ b b' : Byte} {s : Sys κ ο ρ w} {l l' : List (Effect ο ρ)} {act : Active ο w}

theorem ctx_goes_self : (s.goes m act).ctx s.cur = ⟨m, some act⟩ :=
  update_self s.cur _ s.ctx

theorem ctx_goes_of_ne {k : κ} (h : k ≠ s.cur) : (s.goes m act).ctx k = s.ctx k :=
  update_of_ne h _ s.ctx

theorem ctx_returns_self : (s.returns obj m act).ctx s.cur = ⟨m, none⟩ :=
  update_self s.cur _ s.ctx

theorem ctx_returns_of_ne {k : κ} (h : k ≠ s.cur) : (s.returns obj m act).ctx k = s.ctx k :=
  update_of_ne h _ s.ctx

theorem active_of_returns {k : κ} {act' : Active ο w}
    (h : ((s.returns obj m act).ctx k).active = some act') :
    k ≠ s.cur ∧ (s.ctx k).active = some act' := by
  by_cases hcur : k = s.cur
  · rw [hcur, ctx_returns_self] at h
    exact absurd h (Option.some_ne_none act').symm
  · rw [ctx_returns_of_ne hcur] at h
    exact ⟨hcur, h⟩

theorem pending_goes {c : Call ο} (h : s.Pending c)
    (hcall : ∀ act', (s.ctx s.cur).active = some act' → act'.call = act.call) :
    (s.goes m act).Pending c := by
  obtain ⟨k, act', hk, rfl⟩ := h
  by_cases hcur : k = s.cur
  · subst hcur
    exact ⟨s.cur, act, congrArg Ctx.active ctx_goes_self, (hcall act' hk).symm⟩
  · exact ⟨k, act', (congrArg Ctx.active (ctx_goes_of_ne hcur)).trans hk, rfl⟩

theorem of_pending_goes {c : Call ο} (h : (s.goes m act).Pending c) :
    c = act.call ∨ s.Pending c := by
  obtain ⟨k, act', hk, rfl⟩ := h
  by_cases hcur : k = s.cur
  · subst hcur
    rw [ctx_goes_self] at hk
    exact Or.inl (congrArg Active.call (Option.some.inj hk)).symm
  · rw [ctx_goes_of_ne hcur] at hk
    exact Or.inr ⟨k, act', hk, rfl⟩

theorem pending_returns {c : Call ο} (h : s.Pending c)
    (hact : (s.ctx s.cur).active = some act) : c = act.call ∨ (s.returns obj m act).Pending c := by
  obtain ⟨k, act', hk, rfl⟩ := h
  by_cases hcur : k = s.cur
  · subst hcur
    rw [hact] at hk
    exact Or.inl (congrArg Active.call (Option.some.inj hk)).symm
  · exact Or.inr ⟨k, act', (congrArg Ctx.active (ctx_returns_of_ne hcur)).trans hk, rfl⟩

theorem past_returns : (s.returns obj m act).past =
    s.past ++ [⟨act.call, obj.result act.call.op (m.reg 24), s.now⟩] :=
  map_append

theorem called_leaves {rest : List Instr} {c : Call ο} (hact : (s.ctx s.cur).active = some act)
    (h : (s.leaves obj act m rest).Called c) : s.Called c := by
  have hpend : s.Called act.call := Or.inl ⟨s.cur, act, hact, rfl⟩
  rw [Sys.leaves] at h
  by_cases hrest : rest = []
  · rw [if_pos hrest] at h
    rcases h with ⟨k, act', hk, hc⟩ | h
    · exact Or.inl ⟨k, act', (active_of_returns hk).2, hc⟩
    · rw [past_returns, map_append, mem_append] at h
      rcases h with h | h
      · exact Or.inr h
      · rw [mem_singleton.mp h]
        exact hpend
  · rw [if_neg hrest] at h
    rcases h with h | h
    · rcases of_pending_goes h with rfl | h
      · exact hpend
      · exact Or.inl h
    · exact Or.inr h

/-- Calls are made by the event `call` only. -/
theorem called_step {ev : Event κ ο w} {c : Call ο} (h : (step obj s ev).Called c) :
    s.Called c ∨ ∃ op m, ev = .call op m ∧ c.op = op := by
  cases ev with
  | instr =>
    left
    rw [step] at h
    cases hact : (s.ctx s.cur).active with
    | none =>
      rw [hact] at h
      exact h
    | some act =>
      cases hrest : act.rest with
      | nil =>
        simp only [hact, hrest] at h
        exact h
      | cons i is =>
        simp only [hact, hrest] at h
        exact called_leaves hact h
  | call op m =>
    rcases h with h | h
    · rcases of_pending_goes h with rfl | h
      · exact Or.inr ⟨op, m, rfl, rfl⟩
      · exact Or.inl (Or.inl h)
    · exact Or.inl (Or.inr h)
  | switch k mem => exact Or.inl h

theorem Open.effect {c : Call ο} {r : ρ} {n : Nat} (h : Open a obj l m act) (hne : act.call ≠ c) :
    Open a obj (l ++ [⟨c, r, n⟩]) m act := by
  have hfresh : act.call ∉ l.map Effect.call →
      act.call ∉ (l ++ [(⟨c, r, n⟩ : Effect ο ρ)]).map Effect.call := by
    intro hl
    rw [map_append, map_singleton, mem_append, mem_singleton]
    rintro (hc | hc)
    · exact hl hc
    · exact hne hc
  cases h with
  | called hl hrest hentry hm => exact .called (hfresh hl) hrest hentry hm
  | before hl hshape hx hdone => exact .before (hfresh hl) hshape hx hdone
  | after e he hcall htime hquiet hresult hkept =>
    exact .after e (mem_append_left _ he) hcall htime hquiet hresult hkept

namespace Inv

theorem goes (h : Inv a obj b₀ s l b)
    (horder : Order obj.apply b₀ b' (s.now + 1) s.past (s.goes m act).Pending l')
    (hold : act.call.time ≤ s.now) (hnew : act.call ∉ s.past.map Return.call)
    (hne : ∀ k ≠ s.cur, ∀ act', (s.ctx k).active = some act' → act'.call ≠ act.call)
    (hothers : ∀ k ≠ s.cur, ∀ act', (s.ctx k).active = some act' → Open a obj l' (s.ctx k).m act')
    (hcur : (b' = m.mem a ∧ Open a obj l' m act) ∨ Shut a obj l' b' m.mem m act) :
    Inv a obj b₀ (s.goes m act) l' b' where
  order := horder
  kept := h.kept
  older := by
    intro c hc
    rcases hc with hc | hc
    · rcases of_pending_goes hc with rfl | hc
      · exact Nat.lt_succ_of_le hold
      · exact Nat.lt_succ_of_lt (h.older c (Or.inl hc))
    · exact Nat.lt_succ_of_lt (h.older c (Or.inr hc))
  gone := by
    intro c hc
    rcases of_pending_goes hc with rfl | hc
    · exact hnew
    · exact h.gone c hc
  apart := by
    intro k k' act₁ act₂ h₁ h₂ heq
    by_cases hk : k = s.cur <;> by_cases hk' : k' = s.cur
    · rw [hk, hk']
    · subst hk
      rw [ctx_goes_self] at h₁
      rw [ctx_goes_of_ne hk'] at h₂
      rw [← Option.some.inj h₁] at heq
      exact absurd heq.symm (hne k' hk' act₂ h₂)
    · subst hk'
      rw [ctx_goes_self] at h₂
      rw [ctx_goes_of_ne hk] at h₁
      rw [← Option.some.inj h₂] at heq
      exact absurd heq (hne k hk act₁ h₁)
    · rw [ctx_goes_of_ne hk] at h₁
      rw [ctx_goes_of_ne hk'] at h₂
      exact h.apart k k' act₁ act₂ h₁ h₂ heq
  others := by
    intro k hk act' hact
    have hctx : (s.goes m act).ctx k = s.ctx k := ctx_goes_of_ne hk
    rw [hctx] at hact ⊢
    exact hothers k hk act' hact
  current := by
    have hself : (s.goes m act).ctx (s.goes m act).cur = ⟨m, some act⟩ := ctx_goes_self
    rw [hself]
    rcases hcur with ⟨hb, hopen⟩ | hshut
    · refine Or.inl ⟨hb, ?_⟩
      intro act' hact
      rw [← Option.some.inj hact]
      exact hopen
    · exact Or.inr ⟨act, rfl, hshut⟩

theorem returns {e : Effect ο ρ} (h : Inv a obj b₀ s l b)
    (hact : (s.ctx s.cur).active = some act)
    (horder : Order obj.apply b₀ b' (s.now + 1) s.past s.Pending l')
    (hothers : ∀ k ≠ s.cur, ∀ act', (s.ctx k).active = some act' → Open a obj l' (s.ctx k).m act')
    (hb : b' = m.mem a) (he : e ∈ l') (hcall : e.call = act.call) (htime : e.call.time < e.instant)
    (hresult : obj.result act.call.op (m.reg 24) = e.result) (hkept : Kept act.entry m) :
    Inv a obj b₀ (s.returns obj m act) l' b' where
  order := by
    have hpend : s.Pending act.call := ⟨s.cur, act, hact, rfl⟩
    have hret : Order obj.apply b₀ b' (s.now + 1) (s.past ++ [⟨e.call, e.result, s.now⟩])
        (s.returns obj m act).Pending l' :=
      horder.return he htime (Nat.le_of_lt_succ (horder.past e he)) (hcall ▸ h.gone _ hpend)
        (fun c hc => hcall ▸ pending_returns hc hact)
    rw [past_returns, hresult, ← hcall]
    exact hret
  kept := by
    intro r hr
    rcases mem_append.mp hr with hr | hr
    · exact h.kept r hr
    · rw [mem_singleton.mp hr]
      exact hkept
  older := by
    intro c hc
    refine Nat.lt_succ_of_lt (h.older c ?_)
    rcases hc with hc | hc
    · obtain ⟨k, act', hk, hcall'⟩ := hc
      exact Or.inl ⟨k, act', (active_of_returns hk).2, hcall'⟩
    · rw [past_returns, map_append, mem_append] at hc
      rcases hc with hc | hc
      · exact Or.inr hc
      · exact Or.inl ⟨s.cur, act, hact, (mem_singleton.mp hc).symm⟩
  gone := by
    intro c hc hmem
    obtain ⟨k, act', hret, rfl⟩ := hc
    obtain ⟨hk, hact'⟩ := active_of_returns hret
    rw [past_returns, map_append, mem_append] at hmem
    rcases hmem with hmem | hmem
    · exact h.gone _ ⟨k, act', hact', rfl⟩ hmem
    · exact hk (h.apart k s.cur act' act hact' hact (mem_singleton.mp hmem))
  apart := by
    intro k k' act₁ act₂ h₁ h₂ heq
    exact h.apart k k' act₁ act₂ (active_of_returns h₁).2 (active_of_returns h₂).2 heq
  others := by
    intro k hk act' hact'
    have hctx : (s.returns obj m act).ctx k = s.ctx k := ctx_returns_of_ne hk
    rw [hctx] at hact' ⊢
    exact hothers k hk act' hact'
  current := by
    have hself : (s.returns obj m act).ctx (s.returns obj m act).cur = ⟨m, none⟩ := ctx_returns_self
    rw [hself]
    exact Or.inl ⟨hb, fun act' hact' => absurd hact' (Option.some_ne_none act').symm⟩

theorem proceeds {act' : Active ο w} (h : Inv a obj b₀ s l b)
    (hact : (s.ctx s.cur).active = some act) (hcall : act'.call = act.call)
    (horder : Order obj.apply b₀ b' (s.now + 1) s.past s.Pending l')
    (hothers : ∀ k ≠ s.cur, ∀ act', (s.ctx k).active = some act' → Open a obj l' (s.ctx k).m act')
    (hcur : (b' = m.mem a ∧ Open a obj l' m act') ∨ Shut a obj l' b' m.mem m act') :
    Inv a obj b₀ (s.goes m act') l' b' := by
  have hpend : s.Pending act'.call := ⟨s.cur, act, hact, hcall.symm⟩
  have hsame : ∀ act'', (s.ctx s.cur).active = some act'' → act''.call = act'.call := by
    intro act'' hact''
    rw [hact] at hact''
    rw [← Option.some.inj hact'', hcall]
  refine h.goes (horder.mono fun c hc => pending_goes hc hsame)
    (Nat.le_of_lt (h.older _ (Or.inl hpend))) (h.gone _ hpend) ?_ hothers hcur
  intro k hk act'' hact'' heq
  exact hk (h.apart k s.cur act'' act hact'' hact (heq.trans hcall))

theorem settles {e : Effect ο ρ} {rest : List Instr} (h : Inv a obj b₀ s l b)
    (hact : (s.ctx s.cur).active = some act)
    (horder : Order obj.apply b₀ b' (s.now + 1) s.past s.Pending l')
    (hothers : ∀ k ≠ s.cur, ∀ act', (s.ctx k).active = some act' → Open a obj l' (s.ctx k).m act')
    (hb : b' = m.mem a) (he : e ∈ l') (hcall : e.call = act.call) (htime : e.call.time < e.instant)
    (hquiet : ∀ j ∈ rest, j.Quiet)
    (hresult : obj.result act.call.op ((solo 0 rest m).reg 24) = e.result)
    (hkept : Kept act.entry (solo 0 rest m)) :
    Inv a obj b₀ (s.leaves obj act m rest) l' b' := by
  rw [Sys.leaves]
  by_cases hrest : rest = []
  · rw [if_pos hrest]
    rw [hrest] at hresult hkept
    exact h.returns hact horder hothers hb he hcall htime hresult hkept
  · rw [if_neg hrest]
    exact h.proceeds hact rfl horder hothers
      (Or.inl ⟨hb, .after e he hcall htime hquiet hresult hkept⟩)

theorem effects {tail : List Instr} (h : Inv a obj b₀ s l b)
    (hact : (s.ctx s.cur).active = some act) (hfresh : act.call ∉ l.map Effect.call)
    (htail : ∀ j ∈ tail, j.Quiet)
    (hdone : Done a obj act.call.op act.entry b (solo 0 tail m)) :
    Inv a obj b₀ (s.leaves obj act m tail)
      (l ++ [⟨act.call, (obj.apply act.call.op b).2, s.now⟩]) (m.mem a) := by
  have hpend : s.Pending act.call := ⟨s.cur, act, hact, rfl⟩
  have hbyte : (obj.apply act.call.op b).1 = m.mem a := by
    rw [← hdone.byte, mem_solo_of_quiet htail]
  have horder := h.order.effect hfresh hpend (Prod.ext hbyte rfl)
  refine h.settles hact horder ?_ rfl (mem_append_right _ mem_cons_self) rfl
    (h.older _ (Or.inl hpend)) htail hdone.result hdone.kept
  intro k hk act' hact'
  refine (h.others k hk act' hact').effect ?_
  exact fun heq => hk (h.apart k s.cur act' act hact' hact heq)

theorem approaches {rest : List Instr} (h : Inv a obj b₀ s l b) (hb : b = s.mem a)
    (hact : (s.ctx s.cur).active = some act) (hmem : m.mem = s.mem)
    (hfresh : act.call ∉ l.map Effect.call)
    (hshape : Shape (∀ b, obj.pre act.call.op b) rest) (hx : m.word 26 = a)
    (hdone : ∀ mem, obj.pre act.call.op (mem a) →
      Done a obj act.call.op act.entry (mem a) (solo 0 rest (withMem m mem))) :
    Inv a obj b₀ (s.leaves obj act m rest) l b := by
  rw [Sys.leaves, if_neg hshape.ne_nil]
  exact h.proceeds hact rfl h.order.wait h.others
    (Or.inl ⟨hb.trans (congrFun hmem a).symm, .before hfresh hshape hx hdone⟩)

theorem encloses {left tail : List Instr} {r : Reg} {last : Instr} (h : Inv a obj b₀ s l b)
    (hact : (s.ctx s.cur).active = some act) (hfresh : act.call ∉ l.map Effect.call)
    (hleft : Inside left) (hlast : last.Plain) (htail : ∀ j ∈ tail, j.Quiet)
    (hirq : irqFlag m.sreg = false) (hx : m.word 26 = a)
    (hdone : Done a obj act.call.op act.entry b (solo 0 (left ++ .sts SREG r :: last :: tail) m)) :
    Inv a obj b₀ (s.leaves obj act m (left ++ .sts SREG r :: last :: tail)) l b := by
  rw [Sys.leaves, if_neg (append_ne_nil_of_right_ne_nil _ (cons_ne_nil _ _))]
  exact h.proceeds hact rfl h.order.wait h.others
    (Or.inr (.inside left r last tail hfresh rfl hleft hlast htail hirq hx hdone))

theorem restores {last : Instr} {tail : List Instr} (h : Inv a obj b₀ s l b)
    (hact : (s.ctx s.cur).active = some act) (hfresh : act.call ∉ l.map Effect.call)
    (hlast : last.Plain) (htail : ∀ j ∈ tail, j.Quiet) (hirq : irqFlag s.machine.sreg = false)
    (hdone : Done a obj act.call.op act.entry b (solo 0 (last :: tail) m)) :
    Inv a obj b₀ (s.leaves obj act m (last :: tail)) l b := by
  rw [Sys.leaves, if_neg (cons_ne_nil _ _)]
  refine h.proceeds hact rfl h.order.wait h.others (Or.inr ?_)
  refine .restored last tail hfresh rfl hlast htail ?_ hdone
  intro hon
  rw [hirq, hon]
  rfl

end Inv

theorem step_instr {i : Instr} {is : List Instr} (hact : (s.ctx s.cur).active = some act)
    (hrest : act.rest = i :: is) : step obj s .instr =
      s.leaves obj act (exec i s.machine) (is.drop (skip i s.machine)) := by
  simp only [step, hact, hrest]

namespace Inv

theorem instr_open {is : List Instr} (hat : Atomic a obj w) (h : Inv a obj b₀ s l b)
    (hb : b = s.mem a) (hact : (s.ctx s.cur).active = some act)
    (hopen : Open a obj l (s.ctx s.cur).m act) (hrest : act.rest = i :: is)
    (hpre : i = .cli → obj.pre act.call.op (s.mem a)) :
    ∃ l' b', Inv a obj b₀
      (s.leaves obj act (exec i s.machine) (is.drop (skip i s.machine))) l' b' := by
  cases hopen with
  | called hfresh hcode hentry hm =>
    obtain ⟨body, hbody, hshape⟩ := hat.shape act.call.op
    obtain ⟨rfl, rfl⟩ : i = .movw 26 24 ∧ is = body := by
      rw [← List.cons.injEq, ← hrest, hcode, hbody]
    have hword : s.machine.word 24 = a := by
      rw [Sys.machine, hm s.mem]
      exact hat.target _ _ hentry
    refine ⟨l, b, h.approaches hb hact rfl hfresh hshape ?_ ?_⟩
    · exact (word_setWord s.machine 26 _).trans hword
    · intro mem hpre
      have hdone := hat.done act.call.op (withMem act.entry mem) hentry hpre
      have hend : solo 0 (obj.code act.call.op) (withMem act.entry mem) =
          solo 0 is (exec (.movw 26 24) (withMem (s.ctx s.cur).m mem)) := by
        rw [hbody, hm mem]
        rfl
      rw [hend] at hdone
      have hquiet : (Instr.movw 26 24).Quiet := trivial
      rw [Sys.machine, withMem_exec hquiet]
      exact ⟨hdone.byte, hdone.result, ⟨hdone.kept.sreg, hdone.kept.reg⟩⟩
  | before hfresh hshape hx hdone =>
    rw [hrest] at hshape hdone
    cases hshape with
    | quiet hquiet hkeeps hshape =>
      rw [skip_of_quiet hquiet]
      refine ⟨l, b, h.approaches hb hact (mem_of_quiet hquiet _) hfresh hshape ?_ ?_⟩
      · exact (word_exec hkeeps _).trans hx
      · intro mem hpre
        have hdone := hdone mem hpre
        rw [solo, skip_of_quiet hquiet] at hdone
        rw [Sys.machine, withMem_exec hquiet]
        exact hdone
    | access hfree hplain htail =>
      rw [skip_of_plain hplain]
      have hdone := hdone s.mem (hfree _)
      rw [solo, skip_of_plain hplain, ← hb] at hdone
      exact ⟨_, _, h.effects hact hfresh htail hdone⟩
    | critical hleft hlast htail =>
      have hdone := hdone s.mem (hpre rfl)
      rw [← hb] at hdone
      exact ⟨l, b, h.encloses hact hfresh hleft hlast htail (irqFlag_clear _) hx hdone⟩
  | after e he hcall htime hquiet hresult hkept =>
    rw [hrest] at hquiet hresult hkept
    have hi : i.Quiet := hquiet i mem_cons_self
    have his : ∀ j ∈ is, j.Quiet := fun j hj => hquiet j (mem_cons_of_mem i hj)
    rw [solo, skip_of_quiet hi] at hresult hkept
    -- the registers at the end do not depend on the memory
    have hend : solo 0 is (exec i s.machine) =
        withMem (solo 0 is (exec i (s.ctx s.cur).m)) s.mem := by
      rw [Sys.machine, exec_mem_of_quiet hi, solo_mem_of_quiet his]
    rw [skip_of_quiet hi]
    refine ⟨l, b, h.settles hact h.order.wait h.others ?_ he hcall htime his ?_ ?_⟩
    · rw [hb, mem_of_quiet hi]
      rfl
    · rw [drop_zero, hend]
      exact hresult
    · rw [drop_zero, hend]
      exact ⟨hkept.sreg, hkept.reg⟩

theorem instr_shut {is : List Instr} (hat : Atomic a obj w) (h : Inv a obj b₀ s l b)
    (hact : (s.ctx s.cur).active = some act)
    (hshut : Shut a obj l b s.mem (s.ctx s.cur).m act) (hrest : act.rest = i :: is) :
    ∃ l' b', Inv a obj b₀
      (s.leaves obj act (exec i s.machine) (is.drop (skip i s.machine))) l' b' := by
  cases hshut with
  | inside left r last tail hfresh hsplit hleft hlast htail hirq hx hdone =>
    rw [hrest] at hsplit hdone
    cases left with
    | nil =>
      obtain ⟨rfl, rfl⟩ : i = .sts SREG r ∧ is = last :: tail := by
        rw [← List.cons.injEq]
        exact hsplit
      exact ⟨l, b, h.restores hact hfresh hlast htail hirq hdone⟩
    | cons j left =>
      obtain ⟨rfl, rfl⟩ : i = j ∧ is = left ++ .sts SREG r :: last :: tail := by
        rw [← List.cons.injEq]
        exact hsplit
      obtain ⟨hinner, hleft⟩ := hleft
      have hword : s.machine.word 26 = a := hx
      rw [solo, solo_drop] at hdone
      change Done a obj act.call.op act.entry b (solo 0
        (List.drop (skip i s.machine) _) (exec i s.machine)) at hdone
      rw [drop_append_of_le_length (skip_of_inner hinner s.machine)] at hdone ⊢
      refine ⟨l, b, h.encloses hact hfresh (hleft.drop _) hlast htail ?_ ?_ hdone⟩
      · rw [irqFlag_of_inner hinner (hword ▸ hat.ram)]
        exact hirq
      · rw [word_exec (keepsX_of_inner hinner)]
        exact hx
  | restored last tail hfresh hsplit hlast htail hheld hdone =>
    rw [hrest] at hsplit hdone
    obtain ⟨rfl, rfl⟩ : i = last ∧ is = tail := by
      rw [← List.cons.injEq]
      exact hsplit
    rw [solo, skip_of_plain hlast] at hdone
    rw [skip_of_plain hlast]
    exact ⟨_, _, h.effects hact hfresh htail hdone⟩

theorem switch {k : κ} {mem : Addr → Byte} (h : Inv a obj b₀ s l b)
    (hswitch : (s.ctx s.cur).Switchable) (hmem : mem a = s.mem a) :
    Inv a obj b₀ ⟨s.ctx, k, mem, s.now + 1, s.history⟩ l b := by
  obtain ⟨hb, hopen⟩ : b = s.mem a ∧ ∀ act, (s.ctx s.cur).active = some act →
      Open a obj l (s.ctx s.cur).m act := by
    rcases h.current with hcur | ⟨act, hact, hshut⟩
    · exact hcur
    · obtain ⟨hon, hfree⟩ := hswitch act hact
      cases hshut with
      | inside _ _ _ _ _ _ _ _ _ hirq =>
        rw [hon] at hirq
        exact absurd hirq Bool.true_eq_false_eq_False
      | restored _ _ _ _ _ _ hheld =>
        rw [hheld hon] at hfree
        exact absurd hfree Bool.true_eq_false_eq_False
  have hall : ∀ k act, (s.ctx k).active = some act → Open a obj l (s.ctx k).m act := by
    intro k act hact
    by_cases hk : k = s.cur
    · subst hk
      exact hopen act hact
    · exact h.others k hk act hact
  exact
    { order := h.order.wait
      kept := h.kept
      older := fun c hc => Nat.lt_succ_of_lt (h.older c hc)
      gone := h.gone
      apart := h.apart
      others := fun k _ act hact => hall k act hact
      current := Or.inl ⟨hb.trans hmem.symm, hall k⟩ }

omit [DecidableEq κ] in
theorem byte (h : Inv a obj b₀ s l b) (hidle : (s.ctx s.cur).active = none) : b = s.mem a := by
  rcases h.current with hcur | ⟨act, hact, -⟩
  · exact hcur.1
  · rw [hidle] at hact
    exact absurd hact (Option.some_ne_none act).symm

theorem call {op : ο} (h : Inv a obj b₀ s l b) (hidle : (s.ctx s.cur).active = none)
    (hentry : obj.entry op m.reg) (hmem : m.mem a = s.mem a) :
    Inv a obj b₀ (s.goes m ⟨⟨op, s.now⟩, m, obj.code op, false⟩) l b := by
  have hb : b = s.mem a := h.byte hidle
  -- the time of the call is new
  have hnew : ∀ c : Call ο, s.Called c → c ≠ ⟨op, s.now⟩ := by
    rintro c hc rfl
    exact Nat.lt_irrefl _ (h.older _ hc)
  have hfresh : (⟨op, s.now⟩ : Call ο) ∉ l.map Effect.call := by
    intro hmem
    obtain ⟨e, he, hcall⟩ := mem_map.mp hmem
    refine hnew e.call ?_ hcall
    rcases h.order.known e he with ⟨r, hr, heq⟩ | hp
    · exact Or.inr (mem_map.mpr ⟨r, hr, heq⟩)
    · exact Or.inl hp
  refine h.goes (h.order.wait.mono fun c hc => pending_goes hc ?_) (Nat.le_refl _)
    (fun hc => hnew _ (Or.inr hc) rfl) ?_ h.others
    (Or.inl ⟨hb.trans hmem.symm, .called hfresh rfl hentry fun _ => rfl⟩)
  · intro act hact
    rw [hidle] at hact
    exact absurd hact (Option.some_ne_none act).symm
  · intro k hk act hact
    exact hnew _ (Or.inl ⟨k, act, hact, rfl⟩)

/-- **THE STEP LEMMA**. -/
theorem step {ev : Event κ ο w} (hat : Atomic a obj w) (h : Inv a obj b₀ s l b)
    (hok : Allowed a obj s ev) : ∃ l' b', Inv a obj b₀ (step obj s ev) l' b' := by
  cases ev with
  | instr =>
    obtain ⟨act, i, is, hact, hrest, hpre⟩ := hok
    rw [step_instr hact hrest]
    rcases h.current with ⟨hb, hopen⟩ | ⟨act', hact', hshut⟩
    · exact h.instr_open hat hb hact (hopen act hact) hrest hpre
    · rw [hact] at hact'
      rw [← Option.some.inj hact'] at hshut
      exact h.instr_shut hat hact hshut hrest
  | call op m => exact ⟨l, b, h.call hok.1 hok.2.1 hok.2.2⟩
  | switch k mem => exact ⟨l, b, h.switch hok.1 hok.2⟩

end Inv

theorem exists_inv (hat : Atomic a obj w)
    (h : Reach (Initial a b₀) (Allowed a obj) (step obj) s) : ∃ l b, Inv a obj b₀ s l b := by
  refine h.invariant (P := fun s => ∃ l b, Inv a obj b₀ s l b) ?_ ?_
  · rintro s ⟨hidle, hmem, hhistory⟩
    have hnone : ∀ k act, (s.ctx k).active = some act → False := by
      intro k act hact
      rw [hidle k] at hact
      exact absurd hact (Option.some_ne_none act).symm
    have hpast : s.past = [] := by rw [Sys.past, hhistory, map_nil]
    refine ⟨[], b₀, ?_⟩
    exact
      { order := by
          rw [hpast]
          exact Order.start b₀ s.now s.Pending
        kept := by
          intro r hr
          rw [hhistory] at hr
          exact absurd hr not_mem_nil
        older := by
          rintro c (⟨k, act, hact, -⟩ | hc)
          · exact (hnone k act hact).elim
          · rw [hpast] at hc
            exact absurd hc not_mem_nil
        gone := fun c ⟨k, act, hact, _⟩ => (hnone k act hact).elim
        apart := fun k _ act _ hact => (hnone k act hact).elim
        others := fun k _ act hact => (hnone k act hact).elim
        current := Or.inl ⟨hmem.symm, fun act hact => (hnone _ act hact).elim⟩ }
  · rintro s ev ⟨l, b, hinv⟩ hok
    exact hinv.step hat hok

end System

end AvrShared
