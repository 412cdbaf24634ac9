import Avrtos.Event

/-! # Events fire once or are cancelled

    `outstanding` reads from a history what it owes an event; every call keeps queue and history
    in step. -/

namespace AvrtosEvent

open List AvrtosDefines AvrtosTqueue Cells LinkedChain DeltaList Runs

variable {w : Nat} {α : Type} [DecidableEq α]

/-- What can happen to events. -/
inductive Entry (w : Nat) (α : Type) where
  /-- `k_event_schedule` returned 0 -/
  | scheduled (event : α) (timeout : BitVec w)
  /-- `k_event_schedule` returned `-EAGAIN` -/
  | scheduleRefused (event : α)
  | rescheduled (event : α) (timeout : BitVec w)
  /-- `k_event_cancel` returned 0 -/
  | cancelled (event : α)
  /-- `k_event_cancel` returned `-EAGAIN` -/
  | cancelRefused (event : α)
  /-- `z_event_q_process` lets a period pass -/
  | shifted
  /-- and calls the handler of an event -/
  | called (event : α)
  /-- and returns -/
  | processed
deriving DecidableEq

def Entry.owed (period : Nat) (e : α) (before : Option (Nat × Nat)) :
    Entry w α → Option (Nat × Nat)
  | .scheduled x timeout | .rescheduled x timeout =>
      if x = e then some (timeout.toNat, 0) else before
  | .cancelled x | .called x => if x = e then none else before
  | .shifted => before.map fun p => (p.1, p.2 + period)
  | .scheduleRefused _ | .cancelRefused _ | .processed => before

def outstanding (period : Nat) : List (Entry w α) → α → Option (Nat × Nat)
  | [], _ => none
  | entry :: past, e => entry.owed period e (outstanding period past e)

def processing : List (Entry w α) → Bool
  | [] => false
  | .shifted :: _ => true
  | .processed :: _ => false
  | _ :: past => processing past

def Entry.Right (period : Nat) (past : List (Entry w α)) : Entry w α → Prop
  | .scheduled e _ | .cancelRefused e => outstanding period past e = none
  | .scheduleRefused e | .rescheduled e _ | .cancelled e => outstanding period past e ≠ none
  | .shifted => processing past = false
  | .called e => processing past = true
      ∧ ∃ timeout passed, outstanding period past e = some (timeout, passed)
        ∧ timeout ≤ passed ∧ (passed < timeout + period ∨ passed = period)
  | .processed => processing past = true
      ∧ ∀ e timeout passed, outstanding period past e = some (timeout, passed) →
        passed < timeout

def Lawful (period : Nat) : List (Entry w α) → Prop
  | [] => True
  | entry :: past => entry.Right period past ∧ Lawful period past

def Entry.schedules (e : α) : Entry w α → Bool
  | .scheduled x _ => x = e
  | _ => false

theorem Lawful.conserved {period : Nat} {log : List (Entry w α)} (h : Lawful period log) (e : α) :
    log.countP (Entry.schedules e) = log.count (.called e) + log.count (.cancelled e)
        + (outstanding period log e).isSome.toNat := by
  induction log with
  | nil => rfl
  | cons entry past ih =>
    obtain ⟨hright, hpast⟩ := h
    have hi := ih hpast
    rw [outstanding, countP_cons, count_cons, count_cons]
    cases entry with
    | scheduled x timeout =>
      have hx : outstanding period past x = none := hright
      by_cases hxe : x = e
      · subst hxe
        rw [hx] at hi
        simp [Entry.owed, Entry.schedules, hi]
      · simp [Entry.owed, Entry.schedules, hxe, hi]
    | rescheduled x timeout =>
      have hx : outstanding period past x ≠ none := hright
      by_cases hxe : x = e
      · subst hxe
        rw [Option.isSome_iff_ne_none.mpr hx] at hi
        simp [Entry.owed, Entry.schedules, hi]
      · simp [Entry.owed, Entry.schedules, hxe, hi]
    | cancelled x =>
      have hx : outstanding period past x ≠ none := hright
      by_cases hxe : x = e
      · subst hxe
        rw [Option.isSome_iff_ne_none.mpr hx] at hi
        simp [Entry.owed, Entry.schedules, hi]
        omega
      · simp [Entry.owed, Entry.schedules, hxe, hi]
    | called x =>
      obtain ⟨-, timeout, passed, hx, -⟩ := hright
      by_cases hxe : x = e
      · subst hxe
        rw [hx] at hi
        simp [Entry.owed, Entry.schedules, hi]
        omega
      · simp [Entry.owed, Entry.schedules, hxe, hi]
    | shifted => simp [Entry.owed, Entry.schedules, hi]
    | scheduleRefused x => simp [Entry.owed, Entry.schedules, hi]
    | cancelRefused x => simp [Entry.owed, Entry.schedules, hi]
    | processed => simp [Entry.owed, Entry.schedules, hi]

variable [Fintype α]

abbrev EventLog (w : Nat) (α : Type) : Type := Events α (List (Entry w α))

/-- Add to the history. -/
def Events.note (ev : EventLog w α) (entry : Entry w α) : EventLog w α :=
  { ev with world := entry :: ev.world }

inductive EventCall (w : Nat) (α : Type) where
  | schedule (event : α) (timeout : BitVec w)
  | cancel (event : α)

/-- Timeouts are not `K_NO_WAIT`. -/
def EventCall.Allowed : EventCall w α → Prop
  | .schedule _ timeout => timeout ≠ 0
  | .cancel _ => True

instance : (c : EventCall w α) → Decidable c.Allowed
  | .schedule _ _ => inferInstanceAs (Decidable (_ ≠ _))
  | .cancel _ => isTrue trivial

variable (cfg : EventConfig w)

def EventCall.run (ev : EventLog w α) : EventCall w α → EventLog w α
  | .schedule event timeout =>
      let r := kEventSchedule cfg id ev event timeout
      Events.note r.1
        (if r.2 = 0 then .scheduled event timeout else .scheduleRefused event)
  | .cancel event =>
      let r := kEventCancel cfg ev event
      Events.note r.1 (if r.2 = 0 then .cancelled event else .cancelRefused event)

def scripted (script : Nat → α → List (EventCall w α)) (n : Nat) (event : α)
    (ev : EventLog w α) : EventLog w α :=
  (script n event).foldl (EventCall.run cfg) (ev.note (.called event))

/-- The operations of a run. -/
inductive EventOp (w : Nat) (α : Type) where
  | call (c : EventCall w α)
  | reschedule (event : α) (timeout : BitVec w)
  | process (script : Nat → α → List (EventCall w α))

def EventOp.Allowed (ev : EventLog w α) : EventOp w α → Prop
  | .call c => c.Allowed
  | .reschedule event _ => ev.scheduled event = true
  | .process script => ∀ n < Fintype.card α, ∀ event, ∀ c ∈ script n event, c.Allowed

instance (ev : EventLog w α) : (op : EventOp w α) → Decidable (op.Allowed ev)
  | .call c => inferInstanceAs (Decidable c.Allowed)
  | .reschedule _ _ => inferInstanceAs (Decidable (_ = _))
  | .process script =>
      inferInstanceAs
        (Decidable (∀ n < Fintype.card α, ∀ event, ∀ c ∈ script n event, c.Allowed))

/-- The state after an operation. -/
def EventOp.run (ev : EventLog w α) : EventOp w α → EventLog w α
  | .call c => c.run cfg ev
  | .reschedule event timeout =>
      Events.note (zEventReschedule cfg ev event timeout) (.rescheduled event timeout)
  | .process script =>
      let r := zEventQProcess cfg (scripted cfg script) (ev.note .shifted)
      if r.2 then r.1.note .processed else r.1

/-- No event is scheduled. -/
structure EventsBoot (ev : EventLog w α) : Prop where
  root : ev.queue.root = none
  wrapped : ev.queue.wrapped = false
  stuck : ev.queue.stuck = false
  scheduled : ∀ e, ev.scheduled e = false
  log : ev.world = []

def EventReach : EventLog w α → Prop :=
  Reach EventsBoot (fun ev (op : EventOp w α) => op.Allowed ev) (EventOp.run cfg)

/-- The state between operations. -/
structure EventsOk (ev : EventLog w α) : Prop where
  /-- the queue is a list that holds an event once if its flag is set, and not at
      all otherwise -/
  linked : ∃ l, Chain (nextItem ev.queue.mem) ev.queue.root l
    ∧ ∀ e, l.count e = if ev.scheduled e then 1 else 0
  /-- calls, cancellations and refusals came when they should -/
  lawful : Lawful cfg.periodTicks.toNat ev.world
  /-- every `z_event_q_process` has returned -/
  ended : processing ev.world = false
  /-- an event is scheduled when a call is outstanding -/
  flag : ∀ e, ev.scheduled e = true ↔ outstanding cfg.periodTicks.toNat ev.world e ≠ none
  /-- `k_event_cancel` refuses when none is -/
  cancel : ∀ e, (kEventCancel cfg ev e).2 = -EAGAIN
    ↔ outstanding cfg.periodTicks.toNat ev.world e = none
  /-- schedules, calls and cancellations balance -/
  conserved : ∀ e, ev.world.countP (Entry.schedules e)
    = ev.world.count (.called e) + ev.world.count (.cancelled e)
      + (ev.scheduled e).toNat

structure EventsInv (period window : Nat) (ev : EventLog w α) (l : List (α × Nat)) :
    Prop where
  rep : EventsRep w ev l
  left : ∀ e r, (e, r) ∈ deadlines l ↔
    ∃ timeout passed, outstanding period ev.world e = some (timeout, passed)
      ∧ r = timeout - passed
  fresh : ∀ e timeout passed, outstanding period ev.world e = some (timeout, passed) →
    passed < timeout + window ∨ passed = window
  lawful : Lawful period ev.world

section Inv

variable {cfg} {period window : Nat} {ev : EventLog w α} {l : List (α × Nat)} {e : α}

omit [Fintype α] in
theorem EventsInv.flag (h : EventsInv period window ev l) (e : α) :
    ev.scheduled e = true ↔ outstanding period ev.world e ≠ none := by
  rw [h.rep.flag, mem_map_fst_iff]
  constructor
  · rintro ⟨r, hr⟩
    obtain ⟨timeout, passed, ho, -⟩ := (h.left e r).mp hr
    rw [ho]
    exact Option.some_ne_none _
  · intro ho
    obtain ⟨⟨timeout, passed⟩, ho'⟩ := Option.ne_none_iff_exists'.mp ho
    exact ⟨timeout - passed, (h.left e _).mpr ⟨timeout, passed, ho', rfl⟩⟩

omit [Fintype α] in
theorem EventsInv.idle_iff (h : EventsInv period window ev l) (e : α) :
    ev.scheduled e = false ↔ outstanding period ev.world e = none := by
  rw [← Bool.not_eq_true, h.flag, not_not]

omit [Fintype α] in
theorem EventsInv.note (h : EventsInv period window ev l) {entry : Entry w α}
    (hright : entry.Right period ev.world)
    (hsame : ∀ e before, entry.owed period e before = before) :
    EventsInv period window (ev.note entry) l := by
  have hout : ∀ x, outstanding period (ev.note entry).world x
      = outstanding period ev.world x := fun x => hsame x _
  refine ⟨h.rep.setWorld _, ?_, ?_, hright, h.lawful⟩
  · intro x r
    rw [hout]
    exact h.left x r
  · intro x
    rw [hout]
    exact h.fresh x

omit [Fintype α] in
theorem EventsInv.insert (h : EventsInv period window ev l) {ev' : EventLog w α}
    {l' : List (α × Nat)} {entry : Entry w α} {timeout : BitVec w}
    (hrep : EventsRep w ev' (insertDelta e timeout.toNat l')) (hw : ev'.world = ev.world)
    (he : e ∉ l'.map Prod.fst)
    (hother : ∀ x, x ≠ e → ∀ r, (x, r) ∈ deadlines l' ↔ (x, r) ∈ deadlines l)
    (hright : entry.Right period ev.world)
    (howed : ∀ x before, entry.owed period x before
      = if e = x then some (timeout.toNat, 0) else before)
    (ht : timeout ≠ 0 ∨ window = 0) :
    EventsInv period window (ev'.note entry) (insertDelta e timeout.toNat l') := by
  have hout : ∀ x, outstanding period (ev'.note entry).world x
      = if e = x then some (timeout.toNat, 0) else outstanding period ev.world x := by
    intro x
    show entry.owed period x (outstanding period ev'.world x) = _
    rw [howed, hw]
  refine ⟨hrep.setWorld _, ?_, ?_, ?_⟩
  · intro x r
    rw [mem_deadlines_insertDelta, hout]
    by_cases hx : e = x
    · subst hx
      rw [if_pos rfl]
      constructor
      · rintro (hr | hr)
        · obtain ⟨-, rfl⟩ := Prod.mk.inj hr
          exact ⟨timeout.toNat, 0, rfl, rfl⟩
        · exact absurd (mem_map_fst_iff.mpr ⟨r, hr⟩) he
      · rintro ⟨t, passed, ho, rfl⟩
        obtain ⟨rfl, rfl⟩ := Prod.mk.inj (Option.some.inj ho)
        exact Or.inl rfl
    · rw [if_neg hx, ← h.left x r, hother x (Ne.symm hx)]
      refine ⟨fun hc => hc.resolve_left ?_, Or.inr⟩
      intro hc
      exact hx (Prod.mk.inj hc).1.symm
  · intro x t passed ho
    rw [hout] at ho
    by_cases hx : e = x
    · rw [if_pos hx] at ho
      obtain ⟨rfl, rfl⟩ := Prod.mk.inj (Option.some.inj ho)
      rcases ht with ht | ht
      · left
        have hpos : 0 < timeout.toNat :=
          Nat.pos_of_ne_zero fun hc => ht (BitVec.eq_of_toNat_eq (by rw [hc]; rfl))
        omega
      · exact Or.inr ht.symm
    · rw [if_neg hx] at ho
      exact h.fresh x t passed ho
  · show entry.Right period ev'.world ∧ Lawful period ev'.world
    rw [hw]
    exact ⟨hright, h.lawful⟩

omit [Fintype α] in
theorem EventsInv.drop (h : EventsInv period window ev l) {ev' : EventLog w α}
    {l' : List (α × Nat)} {entry : Entry w α}
    (hrep : EventsRep w ev' l') (hw : ev'.world = ev.world)
    (hmem : ∀ x r, (x, r) ∈ deadlines l' ↔ x ≠ e ∧ (x, r) ∈ deadlines l)
    (hright : entry.Right period ev.world)
    (howed : ∀ x before, entry.owed period x before = if e = x then none else before) :
    EventsInv period window (ev'.note entry) l' := by
  have hout : ∀ x, outstanding period (ev'.note entry).world x
      = if e = x then none else outstanding period ev.world x := by
    intro x
    show entry.owed period x (outstanding period ev'.world x) = _
    rw [howed, hw]
  refine ⟨hrep.setWorld _, ?_, ?_, ?_⟩
  · intro x r
    rw [hmem, hout]
    by_cases hx : e = x
    · rw [if_pos hx]
      refine ⟨fun hc => absurd hx.symm hc.1, ?_⟩
      rintro ⟨t, passed, ho, -⟩
      exact absurd ho.symm (Option.some_ne_none _)
    · rw [if_neg hx, ← h.left x r]
      exact ⟨fun hc => hc.2, fun hc => ⟨Ne.symm hx, hc⟩⟩
  · intro x t passed ho
    rw [hout] at ho
    by_cases hx : e = x
    · rw [if_pos hx] at ho
      exact absurd ho.symm (Option.some_ne_none _)
    · rw [if_neg hx] at ho
      exact h.fresh x t passed ho
  · show entry.Right period ev'.world ∧ Lawful period ev'.world
    rw [hw]
    exact ⟨hright, h.lawful⟩

omit [Fintype α] in
theorem EventsInv.mem_removed (h : EventsInv period window ev l) (x : α) (r : Nat) :
    (x, r) ∈ deadlines (removeDelta e l) ↔ x ≠ e ∧ (x, r) ∈ deadlines l := by
  rw [deadlines_removeDelta e h.rep.queue.rep.chain.nodup, mem_filter]
  simp [and_comm]

end Inv

section Calls

variable {cfg} {window : Nat} {ev : EventLog w α} {l : List (α × Nat)} {e : α}

theorem kEventSchedule_of_ne (handler : EventLog w α → EventLog w α) (ev : EventLog w α)
    (e : α) {timeout : BitVec w} (ht : timeout ≠ 0) :
    kEventSchedule cfg handler ev e timeout
      = if ev.scheduled e then (ev, -EAGAIN) else (zEventSchedule ev e timeout, 0) := by
  have hu : zUser cfg.argsChecks (decide (timeout ≠ 0)) = true := by
    rw [decide_eq_true ht, zUser]
    split_ifs <;> rfl
  simp only [kEventSchedule, hu, Bool.not_true, Bool.and_false, Bool.false_eq_true, if_false,
    decide_eq_false ht]

/-- **ONE CALL** keeps the invariant, and makes no event due. -/
theorem EventsInv.call (h : EventsInv cfg.periodTicks.toNat window ev l)
    {c : EventCall w α} (hc : c.Allowed) :
    ∃ l', EventsInv cfg.periodTicks.toNat window (c.run cfg ev) l'
      ∧ dueCount l' ≤ dueCount l ∧ processing (c.run cfg ev).world = processing ev.world := by
  cases c with
  | schedule e timeout =>
    have ht : timeout ≠ 0 := hc
    by_cases he : ev.scheduled e = true
    · have hrun : (EventCall.schedule e timeout).run cfg ev = ev.note (.scheduleRefused e) := by
        simp only [EventCall.run, kEventSchedule_of_ne id ev e ht, if_pos he]
        rfl
      rw [hrun]
      refine ⟨l, h.note ?_ fun _ _ => rfl, Nat.le_refl _, rfl⟩
      exact (h.flag e).mp he
    · have he' : ev.scheduled e = false := Bool.not_eq_true _ ▸ he
      have hrun : (EventCall.schedule e timeout).run cfg ev
          = (zEventSchedule ev e timeout).note (.scheduled e timeout) := by
        simp only [EventCall.run, kEventSchedule_of_ne id ev e ht, if_neg he]
        rfl
      rw [hrun]
      refine ⟨_, h.insert (h.rep.schedule he' timeout) rfl (h.rep.notMem he')
        (fun _ _ _ => Iff.rfl) ((h.idle_iff e).mp he') (fun _ _ => rfl) (Or.inl ht), ?_,
        rfl⟩
      refine Nat.le_of_eq (dueCount_insertDelta fun hz => ht ?_)
      exact BitVec.eq_of_toNat_eq (by rw [hz]; rfl)
  | cancel e =>
    by_cases he : ev.scheduled e = true
    · obtain ⟨hret, hrep, hworld⟩ := h.rep.cancel cfg he
      have hrun : (EventCall.cancel e).run cfg ev
          = (kEventCancel cfg ev e).1.note (.cancelled e) := by
        simp only [EventCall.run, hret, if_true]
      rw [hrun]
      refine ⟨_, h.drop hrep hworld h.mem_removed ((h.flag e).mp he) fun _ _ => rfl,
        dueCount_removeDelta_le h.rep.queue.rep.chain.nodup, ?_⟩
      show processing (kEventCancel cfg ev e).1.world = _
      rw [hworld]
    · have he' : ev.scheduled e = false := Bool.not_eq_true _ ▸ he
      have hrun : (EventCall.cancel e).run cfg ev = ev.note (.cancelRefused e) := by
        simp only [EventCall.run, kEventCancel_idle cfg he']
        rfl
      rw [hrun]
      exact ⟨l, h.note ((h.idle_iff e).mp he') fun _ _ => rfl, Nat.le_refl _, rfl⟩

/-- **A HANDLER**. -/
theorem EventsInv.calls (h : EventsInv cfg.periodTicks.toNat window ev l)
    {calls : List (EventCall w α)} (hc : ∀ c ∈ calls, c.Allowed) :
    ∃ l', EventsInv cfg.periodTicks.toNat window (calls.foldl (EventCall.run cfg) ev) l'
      ∧ dueCount l' ≤ dueCount l
      ∧ processing (calls.foldl (EventCall.run cfg) ev).world = processing ev.world := by
  induction calls generalizing ev l with
  | nil => exact ⟨l, h, Nat.le_refl _, rfl⟩
  | cons c calls ih =>
    obtain ⟨l₁, h₁, hdue₁, hproc₁⟩ := h.call (hc c mem_cons_self)
    obtain ⟨l₂, h₂, hdue₂, hproc₂⟩ := ih h₁ fun c' hc' => hc c' (mem_cons_of_mem _ hc')
    exact ⟨l₂, h₂, hdue₂.trans hdue₁, hproc₂.trans hproc₁⟩

theorem EventsInv.pop (h : EventsInv cfg.periodTicks.toNat cfg.periodTicks.toNat ev
      ((e, 0) :: l)) (hp : processing ev.world = true) :
    (tqueuePop ev.queue).2 = some e ∧ EventsInv cfg.periodTicks.toNat cfg.periodTicks.toNat
          (Events.note { ev with
            queue := (tqueuePop ev.queue).1
            scheduled := Function.update ev.scheduled e false } (.called e)) l := by
  obtain ⟨hpop, hrep⟩ := h.rep.pop
  have hel : e ∉ l.map Prod.fst := (nodup_cons.mp h.rep.queue.rep.chain.nodup).1
  have hhead : (e, 0) ∈ deadlines ((e, 0) :: l) := mem_cons_self ..
  obtain ⟨timeout, passed, ho, hz⟩ := (h.left e 0).mp hhead
  have hfresh := h.fresh e timeout passed ho
  refine ⟨hpop, h.drop hrep rfl ?_ ⟨hp, timeout, passed, ho, by omega, hfresh⟩ fun _ _ => rfl⟩
  intro x r
  have hcons : (x, r) ∈ deadlines ((e, 0) :: l) ↔ (x, r) = (e, 0) ∨ (x, r) ∈ deadlines l :=
    mem_cons
  rw [hcons]
  constructor
  · intro hr
    refine ⟨?_, Or.inr hr⟩
    rintro rfl
    exact hel (mem_map_fst_iff.mpr ⟨r, hr⟩)
  · rintro ⟨hx, hr⟩
    exact hr.resolve_left fun hc => hx (Prod.mk.inj hc).1

theorem EventsInv.loop {script : Nat → α → List (EventCall w α)} {fuel : Nat}
    (h : EventsInv cfg.periodTicks.toNat cfg.periodTicks.toNat ev l)
    (hp : processing ev.world = true) (hdue : dueCount l ≤ fuel)
    (hs : ∀ n < fuel, ∀ event, ∀ c ∈ script n event, c.Allowed) :
    (zEventQLoop (scripted cfg script) fuel ev).2 = true
      ∧ processing (zEventQLoop (scripted cfg script) fuel ev).1.world = true
      ∧ ∃ l', EventsInv cfg.periodTicks.toNat cfg.periodTicks.toNat
            (zEventQLoop (scripted cfg script) fuel ev).1 l'
          ∧ ∀ x ∈ deadlines l', 0 < x.2 := by
  induction fuel generalizing ev l with
  | zero =>
    have hl : ∀ a l', l ≠ (a, 0) :: l' := by
      rintro a l' rfl
      rw [dueCount_cons_zero] at hdue
      exact absurd hdue (Nat.not_succ_le_zero _)
    simp only [zEventQLoop, h.rep.pop_none hl]
    exact ⟨trivial, hp, l, h, pos_of_not_due hl⟩
  | succ fuel ih =>
    by_cases hl : ∃ a l', l = (a, 0) :: l'
    · obtain ⟨a, l', rfl⟩ := hl
      obtain ⟨hpop, hinv⟩ := h.pop hp
      rw [dueCount_cons_zero] at hdue
      obtain ⟨l₁, h₁, hdue₁, hproc₁⟩ := hinv.calls (hs fuel (Nat.lt_succ_self _) a)
      simp only [zEventQLoop, hpop]
      refine ih h₁ (hproc₁.trans hp) (by omega) ?_
      exact fun n hn => hs n (Nat.lt_succ_of_lt hn)
    · have hl' : ∀ a l', l ≠ (a, 0) :: l' := fun a l' hc => hl ⟨a, l', hc⟩
      simp only [zEventQLoop, h.rep.pop_none hl']
      exact ⟨trivial, hp, l, h, pos_of_not_due hl'⟩

theorem EventsInv.shift (h : EventsInv cfg.periodTicks.toNat 0 ev l)
    (hp : processing ev.world = false) :
    EventsInv cfg.periodTicks.toNat cfg.periodTicks.toNat
      (zEventQShift cfg (ev.note .shifted)) (shiftDelta cfg.periodTicks.toNat l) := by
  have hout : ∀ x, outstanding cfg.periodTicks.toNat (zEventQShift cfg (ev.note .shifted)).world x
      = (outstanding cfg.periodTicks.toNat ev.world x).map fun p =>
          (p.1, p.2 + cfg.periodTicks.toNat) := fun x => rfl
  refine ⟨(h.rep.setWorld _).shift, ?_, ?_, hp, h.lawful⟩
  · intro x r
    rw [deadlines_shiftDelta, hout]
    constructor
    · intro hr
      obtain ⟨⟨y, r'⟩, hy, heq⟩ := mem_map.mp hr
      obtain ⟨rfl, rfl⟩ := Prod.mk.inj heq
      obtain ⟨timeout, passed, ho, rfl⟩ := (h.left y r').mp hy
      refine ⟨timeout, passed + cfg.periodTicks.toNat, ?_, by omega⟩
      rw [ho]
      rfl
    · rintro ⟨timeout, passed, ho, rfl⟩
      obtain ⟨⟨t, p⟩, ho', heq⟩ := Option.map_eq_some_iff.mp ho
      obtain ⟨rfl, rfl⟩ := Prod.mk.inj heq
      refine mem_map.mpr ⟨(x, t - p), (h.left x _).mpr ⟨t, p, ho', rfl⟩, ?_⟩
      exact congrArg (Prod.mk x) (by show t - p - _ = t - (p + _); omega)
  · intro x timeout passed ho
    rw [hout] at ho
    obtain ⟨⟨t, p⟩, ho', heq⟩ := Option.map_eq_some_iff.mp ho
    obtain ⟨rfl, rfl⟩ := Prod.mk.inj heq
    have hf := h.fresh x t p ho'
    show p + _ < t + _ ∨ p + _ = _
    omega

theorem EventsInv.process (h : EventsInv cfg.periodTicks.toNat 0 ev l)
    (hp : processing ev.world = false) {script : Nat → α → List (EventCall w α)}
    (hs : ∀ n < Fintype.card α, ∀ event, ∀ c ∈ script n event, c.Allowed) :
    ∃ l', EventsInv cfg.periodTicks.toNat 0 ((EventOp.process script).run cfg ev) l'
      ∧ processing ((EventOp.process script).run cfg ev).world = false := by
  have hshift := h.shift hp
  have hdue : dueCount (shiftDelta cfg.periodTicks.toNat l) ≤ Fintype.card α := by
    refine Nat.le_trans (dueCount_le_length _) ?_
    exact hshift.rep.queue.length_le
  obtain ⟨hend, hproc, l', h', hpos⟩ := hshift.loop rfl hdue hs
  have hrun : (EventOp.process script).run cfg ev
      = (zEventQProcess cfg (scripted cfg script) (ev.note .shifted)).1.note .processed := by
    simp only [EventOp.run]
    exact if_pos hend
  -- an event that is still owed a call has time left
  have hleft : ∀ x timeout passed, outstanding cfg.periodTicks.toNat
      (zEventQProcess cfg (scripted cfg script) (ev.note .shifted)).1.world x
        = some (timeout, passed) → passed < timeout := by
    intro x timeout passed ho
    have hr := hpos _ ((h'.left x _).mpr ⟨timeout, passed, ho, rfl⟩)
    exact Nat.lt_of_sub_pos hr
  rw [hrun]
  have hright : Entry.processed.Right cfg.periodTicks.toNat
      (zEventQProcess cfg (scripted cfg script) (ev.note .shifted)).1.world := ⟨hproc, hleft⟩
  have hn := h'.note hright fun _ _ => rfl
  refine ⟨l', ⟨hn.rep, hn.left, ?_, hn.lawful⟩, rfl⟩
  exact fun x timeout passed ho => Or.inl (hleft x timeout passed ho)

/-- **ONE OPERATION** keeps the invariant. -/
theorem EventsInv.step (h : EventsInv cfg.periodTicks.toNat 0 ev l)
    (hp : processing ev.world = false) {op : EventOp w α} (ha : op.Allowed ev) :
    ∃ l', EventsInv cfg.periodTicks.toNat 0 (op.run cfg ev) l'
      ∧ processing (op.run cfg ev).world = false := by
  cases op with
  | call c =>
    obtain ⟨l', h', -, hp'⟩ := h.call ha
    exact ⟨l', h', hp'.trans hp⟩
  | reschedule e timeout =>
    have he : ev.scheduled e = true := ha
    refine ⟨_, h.insert (h.rep.reschedule he timeout) rfl ?_ ?_ ((h.flag e).mp he)
      (fun _ _ => rfl) (Or.inr rfl), hp⟩
    · exact fun hc => (h.rep.mem_removeDelta.mp hc).1 rfl
    · intro x hx r
      rw [h.mem_removed]
      exact ⟨fun hc => hc.2, fun hc => ⟨hx, hc⟩⟩
  | process script => exact h.process hp ha

omit [Fintype α] in
theorem EventsBoot.inv (h : EventsBoot ev) : EventsInv cfg.periodTicks.toNat 0 ev [] := by
  refine ⟨⟨⟨⟨h.root, fun e he => absurd he not_mem_nil⟩, Nat.two_pow_pos w,
    h.wrapped, h.stuck⟩, ?_⟩, ?_, ?_, ?_⟩
  · intro e
    rw [h.scheduled]
    exact ⟨fun hc => absurd hc Bool.false_ne_true, fun hc => absurd hc not_mem_nil⟩
  · intro e r
    rw [h.log]
    refine ⟨fun hc => absurd hc not_mem_nil, ?_⟩
    rintro ⟨timeout, passed, ho, -⟩
    exact absurd ho.symm (Option.some_ne_none _)
  · intro e timeout passed ho
    rw [h.log] at ho
    exact absurd ho.symm (Option.some_ne_none _)
  · rw [h.log]
    trivial

theorem EventsInv.ok (h : EventsInv cfg.periodTicks.toNat 0 ev l)
    (hp : processing ev.world = false) : EventsOk cfg ev := by
  refine ⟨⟨l.map Prod.fst, h.rep.queue.rep.chain, ?_⟩, h.lawful, hp, h.flag, ?_, ?_⟩
  · intro e
    by_cases he : ev.scheduled e = true
    · rw [if_pos he]
      exact count_eq_one_of_mem h.rep.queue.rep.chain.nodup ((h.rep.flag e).mp he)
    · rw [if_neg he]
      exact count_eq_zero_of_not_mem fun hc => he ((h.rep.flag e).mpr hc)
  · intro e
    rw [← h.idle_iff]
    cases he : ev.scheduled e with
    | false =>
      rw [kEventCancel_idle cfg he]
      exact ⟨fun _ => rfl, fun _ => rfl⟩
    | true =>
      rw [(h.rep.cancel cfg he).1]
      exact ⟨fun hc => absurd hc (by decide), fun hc => absurd hc.symm Bool.false_ne_true⟩
  · intro e
    rw [h.lawful.conserved e]
    congr 2
    rw [Bool.eq_iff_iff, Option.isSome_iff_ne_none]
    exact (h.flag e).symm

end Calls

/-- **EVENTS FIRE ONCE OR ARE CANCELLED**: the queue holds exactly the scheduled events, and the
    history is lawful. -/
theorem events_fire_once {ev : EventLog w α} (h : EventReach cfg ev) : EventsOk cfg ev := by
  suffices hinv : ∃ l, EventsInv cfg.periodTicks.toNat 0 ev l
      ∧ processing ev.world = false by
    obtain ⟨l, hl, hp⟩ := hinv
    exact hl.ok hp
  refine Reach.invariant (P := fun ev : EventLog w α =>
    ∃ l, EventsInv cfg.periodTicks.toNat 0 ev l ∧ processing ev.world = false) h ?_ ?_
  · intro ev hb
    refine ⟨[], hb.inv, ?_⟩
    rw [hb.log]
    rfl
  · rintro ev op ⟨l, hl, hp⟩ ha
    exact hl.step hp ha

def eventsConfig : EventConfig 16 where
  periodTicks := 2
  argsChecks := true
  allowNoWait := true

def eventsBoot : EventLog 16 (Fin 2) where
  queue := ⟨fun _ => ⟨0, none⟩, none, false, false⟩
  scheduled := fun _ => false
  world := []

def rescheduledByHandler : EventLog 16 (Fin 2) :=
  ([.call (.schedule 0 3), .call (.schedule 1 4), .process fun _ _ => [],
    .process fun _ _ => [.schedule 0 1, .cancel 1]] : List (EventOp 16 (Fin 2))).foldl
      (EventOp.run eventsConfig) eventsBoot

theorem events_fire_once_rescheduled :
    EventReach eventsConfig rescheduledByHandler
      ∧ EventsOk eventsConfig rescheduledByHandler
      ∧ rescheduledByHandler.world
        = [.processed, .cancelled 1, .scheduled 0 1, .called 0, .shifted, .processed,
          .shifted, .scheduled 1 4, .scheduled 0 3]
      ∧ remaining rescheduledByHandler.queue = [(0, 1)] := by
  have hreach : EventReach eventsConfig rescheduledByHandler :=
    Reach.foldl (.start ⟨rfl, rfl, rfl, fun _ => rfl, rfl⟩) (by decide)
  exact ⟨hreach, events_fire_once eventsConfig hreach, by decide, by decide⟩

end AvrtosEvent
