import Avrtos.Timer

/-! # Timers are exact

    Each queued timer is due at its next multiple of the period; every tick keeps this. -/

namespace AvrtosTimer

open Function List AvrtosDefines AvrtosTqueue Cells LinkedChain DeltaList Runs

variable {w : Nat} {α : Type}

def Due (k d p n : Nat) : Prop := ∃ i, n = k + max d 1 + i * p

def NextRun (k d p now r : Nat) : Prop :=
  k ≤ now ∧ ∃ i, now + max r 1 = k + max d 1 + i * p ∧ (i = 0 ∨ max r 1 ≤ p)

section Progression

variable {k d p now r : Nat}

theorem NextRun.start (k d p : Nat) : NextRun k d p k d := ⟨Nat.le_refl k, 0, by omega, Or.inl rfl⟩

theorem NextRun.due_iff (h : NextRun k d p now r) : Due k d p (now + 1) ↔ r ≤ 1 := by
  obtain ⟨-, i, hi, hfirst⟩ := h
  constructor
  · rintro ⟨j, hj⟩
    by_contra hr
    -- the schedule has two ticks less than a period apart
    have hlt : j < i := by
      by_contra hc
      have := Nat.mul_le_mul_right p (Nat.le_of_not_lt hc)
      omega
    have hstep : (j + 1) * p ≤ i * p := Nat.mul_le_mul_right p hlt
    rw [Nat.succ_mul] at hstep
    rcases hfirst with rfl | hle
    · exact absurd hlt (Nat.not_lt_zero j)
    · omega
  · intro hr
    exact ⟨i, by omega⟩

theorem NextRun.later (h : NextRun k d p now r) (hr : 1 < r) : NextRun k d p (now + 1) (r - 1) := by
  obtain ⟨hk, i, hi, hfirst⟩ := h
  exact ⟨by omega, i, by omega, hfirst.imp_right fun hle => by omega⟩

theorem NextRun.again (h : NextRun k d p now r) (hr : r ≤ 1) (hp : 0 < p) :
    NextRun k d p (now + 1) p := by
  obtain ⟨hk, i, hi, -⟩ := h
  refine ⟨by omega, i + 1, ?_, Or.inr (by omega)⟩
  rw [Nat.succ_mul]
  omega

end Progression

structure Timeline (w : Nat) (α : Type) where
  tm : Timers w α
  /-- ticks so far -/
  now : Nat
  /-- the period that the timer was given -/
  period : α → Nat
  /-- the tick after which the timer was started, and the delay -/
  since : α → Option (Nat × Nat)
  /-- the delay with which the timer was last queued -/
  delay : α → Nat
  /-- the order in which timers were last queued -/
  stamp : α → Nat
  clock : Nat
  /-- the calls of handlers -/
  log : List (Nat × α)

inductive TimelineOp (w : Nat) (α : Type) where
  | call (c : TimerCall w α)
  | tick (ret : α → Int)

variable [DecidableEq α] [Fintype α]

def Timeline.starts (argsChecks : Bool) (g : Timeline w α) : TimerCall w α → Option (α × Nat)
  | .init timer handler timeout startingDelay =>
      if (argsChecks = true → handler ≠ 0) ∧ timeout ≠ 0 then some (timer, startingDelay.toNat)
      else none
  | .start timer startingDelay =>
      if g.since timer = none ∧ startingDelay ≠ BitVec.allOnes w then
        some (timer, startingDelay.toNat)
      else none
  | .stop _ => none

def Timeline.given (argsChecks : Bool) (g : Timeline w α) : TimerCall w α → α → Nat
  | .init timer handler timeout _ =>
      if (argsChecks = true → handler ≠ 0) ∧ timeout ≠ 0 then
        update g.period timer timeout.toNat
      else g.period
  | _ => g.period

/-- The timer that a call stops. -/
def TimerCall.stops : TimerCall w α → Option α
  | .stop timer => some timer
  | _ => none

/-- The record of a start. -/
def Timeline.started (g : Timeline w α) (timer : α) (d : Nat) : Timeline w α :=
  { g with
    since := update g.since timer (some (g.now, d))
    delay := update g.delay timer d
    stamp := update g.stamp timer g.clock
    clock := g.clock + 1 }

/-- The record of a call. -/
def Timeline.called (argsChecks : Bool) (g : Timeline w α) (c : TimerCall w α) :
    Timeline w α :=
  let after := { g with tm := (c.run argsChecks g.tm).1, period := g.given argsChecks c }
  match g.starts argsChecks c, c.stops with
  | some (timer, d), _ => after.started timer d
  | none, some timer => { after with since := update g.since timer none }
  | none, none => after

/-- `z_timers_process` at the next tick. -/
def Timeline.process (g : Timeline w α) (ret : α → Int) : Timers w α × List α × Bool :=
  zTimersProcess 1 (fun _ tm timer => (tm, ret timer)) (Fintype.card α) g.tm

def Timeline.ticked (g : Timeline w α) (ret : α → Int) : Timeline w α :=
  let ran := (g.process ret).2.1
  { tm := (g.process ret).1
    now := g.now + 1
    period := g.period
    since := fun t => if t ∈ ran ∧ ret t ≠ 0 then none else g.since t
    delay := fun t => if t ∈ ran ∧ ret t = 0 then g.period t else g.delay t
    stamp := fun t => if t ∈ ran then g.clock + ran.idxOf t else g.stamp t
    clock := g.clock + ran.length
    log := g.log ++ ran.map (g.now + 1, ·) }

def Timeline.run (argsChecks : Bool) (g : Timeline w α) : TimelineOp w α → Timeline w α
  | .call c => g.called argsChecks c
  | .tick ret => g.ticked ret

def Timeline.Ok (g : Timeline w α) : TimelineOp w α → Prop
  | .call c => c.Allowed g.tm ∧
      match c with
      | .init _ _ timeout startingDelay =>
          timeout ≠ BitVec.allOnes w ∧ startingDelay ≠ BitVec.allOnes w
      | _ => True
  | .tick _ => True

def FinitePeriods (tm : Timers w α) : Prop :=
  ∀ t, tm.initialised t = true → tm.timeout t ≠ 0 ∧ tm.timeout t ≠ BitVec.allOnes w

def Timeline.PeriodsKept (g : Timeline w α) : Prop :=
  ∀ t, g.tm.initialised t = true → (g.tm.timeout t).toNat = g.period t

/-- No timer is started. -/
structure TimelineBoot (g : Timeline w α) : Prop where
  timers : TimersBoot g.tm
  periods : FinitePeriods g.tm
  kept : g.PeriodsKept
  since : ∀ t, g.since t = none
  log : g.log = []

def TimelineReach (argsChecks : Bool) : Timeline w α → Prop :=
  Reach TimelineBoot Timeline.Ok (Timeline.run argsChecks)

def OnSchedule (g : Timeline w α) : Prop :=
  ∀ t k d, g.since t = some (k, d) → ∀ n, k < n →
    (n ≤ g.now ∧ Due k d (g.period t) n → g.log.count (n, t) = 1)
      ∧ (¬ (n ≤ g.now ∧ Due k d (g.period t) n) → g.log.count (n, t) = 0)

/-- The next tick. -/
structure NextTick (g : Timeline w α) (ret : α → Int) : Prop where
  /-- the loop ends, and so do the walks of the queue -/
  terminates : (g.process ret).2.2 = true ∧ (g.process ret).1.queue.stuck = false
  once : (g.process ret).2.1.Nodup
  due : ∀ t, t ∈ (g.process ret).2.1 ↔
    ∃ k d, g.since t = some (k, d) ∧ Due k d (g.period t) (g.now + 1)
  order : (g.process ret).2.1.Pairwise fun a b =>
    1 ≤ g.delay a → 1 ≤ g.delay b → g.stamp a < g.stamp b

section Loop

variable {tm : Timers w α} {l : List (α × Nat)} {t : α} {ret : α → Int}

theorem zTimerReschedule_fields (tm : Timers w α) (t : α) (ret : Int) :
    (zTimerReschedule tm t ret).timeout = tm.timeout
      ∧ (zTimerReschedule tm t ret).initialised = tm.initialised := by
  by_cases h0 : ret ≠ 0
  · simp only [zTimerReschedule, if_pos h0]
    split_ifs <;> exact ⟨rfl, rfl⟩
  · simp only [zTimerReschedule, if_neg h0]
    split_ifs <;> exact ⟨rfl, rfl⟩

theorem kTimerStop_fields (argsChecks : Bool) (tm : Timers w α) (t : α) :
    (kTimerStop argsChecks tm t).1.timeout = tm.timeout
      ∧ (kTimerStop argsChecks tm t).1.initialised = tm.initialised := by
  rw [kTimerStop]
  split_ifs <;> exact ⟨rfl, rfl⟩

omit [DecidableEq α] [Fintype α] in
theorem FinitePeriods.pos (hp : FinitePeriods tm) (ht : tm.initialised t = true) :
    0 < (tm.timeout t).toNat := by
  refine Nat.pos_of_ne_zero fun hc => (hp t ht).1 (BitVec.eq_of_toNat_eq ?_)
  rw [hc]
  exact BitVec.toNat_zero.symm

theorem TimersInv.round (h : TimersInv tm (fun _ => False) ((t, 0) :: l))
    (hw : 0 < kTimerStopped w) (hp : FinitePeriods tm) (ret : Int) :
    (tqueuePop tm.queue).2 = some t
      ∧ TimersInv (zTimerReschedule { tm with queue := (tqueuePop tm.queue).1 } t ret)
          (fun _ => False)
          (if decide (ret = 0) then insertDelta t (tm.timeout t).toNat l else l) := by
  obtain ⟨hpop, hinv⟩ := h.pop
  have hmem : (tqueuePop tm.queue).1.mem = tm.queue.mem := by
    rw [(tqueuePop_spec h.queue.rep).1]
  have hzero : delayShift (tqueuePop tm.queue).1.mem t ≠ kTimerStopped w := by
    rw [hmem, h.queue.rep.delay (t, 0) mem_cons_self]
    exact Nat.ne_of_lt hw
  have hfin := (hp t (h.known t mem_cons_self)).2
  have hcareful : CarefulReturn { tm with queue := (tqueuePop tm.queue).1 } t ret :=
    fun hc => absurd hc hfin
  have hr := hinv.reschedule hcareful
  refine ⟨hpop, ?_⟩
  by_cases h0 : ret = 0
  · rw [if_neg (not_or.mpr ⟨not_not.mpr h0, hzero⟩)] at hr
    rw [if_pos (decide_eq_true h0)]
    exact hr
  · rw [if_pos (Or.inl h0)] at hr
    rw [if_neg (by simpa using h0)]
    exact hr

theorem TimersInv.expire (ret : α → Int) {zs : List α} {fuel : Nat}
    (h : TimersInv tm (fun _ => False) (zs.map (·, 0) ++ l)) (hw : 0 < kTimerStopped w)
    (hp : FinitePeriods tm) (hl : ∀ e ∈ deadlines l, 0 < e.2) (hfuel : zs.length ≤ fuel) :
    ∃ tm', zTimersLoop (fun _ tm timer => (tm, ret timer)) fuel tm = (tm', zs, true)
      ∧ TimersInv tm' (fun _ => False)
          (insertAll (fun t => (tm.timeout t).toNat) (fun t => decide (ret t = 0)) zs l)
      ∧ tm'.timeout = tm.timeout ∧ tm'.initialised = tm.initialised := by
  induction zs generalizing tm l fuel with
  | nil =>
    have hne : ∀ a l', l ≠ (a, 0) :: l' := by
      rintro a l' rfl
      exact absurd (hl (a, 0) mem_cons_self) (Nat.lt_irrefl 0)
    have hpop := h.pop_none hne
    refine ⟨tm, ?_, h, rfl, rfl⟩
    cases fuel <;> simp only [zTimersLoop, hpop]
  | cons z zs ih =>
    obtain ⟨fuel, rfl, hfuel'⟩ := exists_fuel hfuel
    rw [map_cons, cons_append] at h
    obtain ⟨hpop, hinv⟩ := h.round hw hp (ret z)
    have hfields := zTimerReschedule_fields { tm with queue := (tqueuePop tm.queue).1 } z
      (ret z)
    have hsplit : (if decide (ret z = 0) then
          insertDelta z (tm.timeout z).toNat (zs.map (·, 0) ++ l) else zs.map (·, 0) ++ l)
        = zs.map (·, 0)
          ++ (if decide (ret z = 0) then insertDelta z (tm.timeout z).toNat l else l) := by
      split_ifs
      · exact insertDelta_zeros_append z _ zs l
      · rfl
    rw [hsplit] at hinv
    have hp' : FinitePeriods
        (zTimerReschedule { tm with queue := (tqueuePop tm.queue).1 } z (ret z)) := by
      intro x hx
      rw [hfields.2] at hx
      rw [hfields.1]
      exact hp x hx
    have hl' : ∀ e ∈ deadlines
        (if decide (ret z = 0) then insertDelta z (tm.timeout z).toNat l else l),
        0 < e.2 := by
      intro e he
      split_ifs at he with h0
      · rcases mem_deadlines_insertDelta.mp he with rfl | he
        · exact hp.pos (h.known z mem_cons_self)
        · exact hl e he
      · exact hl e he
    obtain ⟨tm', hloop, hinv', htimeout, hinit⟩ := ih hinv hp' hl' hfuel'
    refine ⟨tm', ?_, ?_, htimeout.trans hfields.1, hinit.trans hfields.2⟩
    · simp only [zTimersLoop, hpop, hloop]
    · rw [hfields.1] at hinv'
      rw [insertAll_cons]
      exact hinv'

end Loop

structure TimelineInv (g : Timeline w α) (l : List (α × Nat)) : Prop where
  timers : TimersInv g.tm (fun _ => False) l
  periods : FinitePeriods g.tm
  kept : g.PeriodsKept
  since : ∀ t, t ∈ l.map Prod.fst ↔ ∃ k d, g.since t = some (k, d)
  next : ∀ e ∈ deadlines l, ∀ k d, g.since e.1 = some (k, d) →
    NextRun k d (g.period e.1) g.now e.2
  /-- only timers queued with no delay have no time left between ticks -/
  zero : ∀ e ∈ deadlines l, e.2 = 0 → g.delay e.1 = 0
  stamped : Stamped g.stamp g.clock l
  past : ∀ e ∈ g.log, e.1 ≤ g.now
  schedule : OnSchedule g

omit [Fintype α] in
theorem map_idxOf_eq_range' {zs : List α} (hnd : zs.Nodup) (c : Nat) :
    zs.map (fun t => c + zs.idxOf t) = range' c zs.length := by
  refine ext_getElem (by simp) ?_
  intro i h1 h2
  rw [length_map] at h1
  rw [getElem_map, getElem_range', hnd.idxOf_getElem i h1, Nat.one_mul]

section Step

variable {g : Timeline w α} {l : List (α × Nat)} {ret : α → Int} {argsChecks : Bool}

/-- A tick. -/
structure Expiry (g : Timeline w α) (ret : α → Int) (l due later rest : List (α × Nat)) :
    Prop where
  split : deadlines l = due ++ later
  rest_eq : deadlines rest = later.map (fun e => (e.1, e.2 - 1))
  le_one : ∀ e ∈ due, e.2 ≤ 1
  one_lt : ∀ e ∈ later, 1 < e.2
  nodup : ((due ++ later).map Prod.fst).Nodup
  ran : (g.process ret).2.1 = due.map Prod.fst
  ends : (g.process ret).2.2 = true
  queue : TimersInv (g.process ret).1 (fun _ => False)
    (insertAll (fun t => (g.tm.timeout t).toNat) (fun t => decide (ret t = 0))
      (due.map Prod.fst) rest)
  timeout : (g.process ret).1.timeout = g.tm.timeout
  initialised : (g.process ret).1.initialised = g.tm.initialised

theorem TimelineInv.expiry (h : TimelineInv g l) (hw : 0 < w) (ret : α → Int) :
    ∃ due later rest, Expiry g ret l due later rest := by
  have h2 : 2 ^ 1 ≤ 2 ^ w := Nat.pow_le_pow_right (by decide) hw
  have hpos : 0 < kTimerStopped w := by
    rw [kTimerStopped]
    omega
  have hone : (1 : BitVec w).toNat = 1 := Nat.mod_eq_of_lt (show 1 < 2 ^ w by omega)
  have hshift := h.timers.shift 1
  obtain ⟨due, later, rest, hl, hs, hrest, hdue, hlater⟩ := shiftDelta_expired 1 l
  rw [hone, hs] at hshift
  have hfst : (due ++ later).map Prod.fst = l.map Prod.fst := by
    rw [← hl, map_fst_deadlines]
  have hlen : (due.map Prod.fst).length ≤ Fintype.card α := by
    have hle := h.timers.queue.length_le
    have heq := congrArg List.length hfst
    rw [length_map, length_map, length_append] at heq
    rw [length_map]
    omega
  have hrest' : ∀ e ∈ deadlines rest, 0 < e.2 := by
    intro e he
    rw [hrest] at he
    obtain ⟨e', he', rfl⟩ := mem_map.mp he
    exact Nat.sub_pos_of_lt (hlater e' he')
  obtain ⟨tm', hloop, hinv, htimeout, hinit⟩ :=
    TimersInv.expire ret hshift hpos h.periods hrest' hlen
  have hproc : g.process ret = (tm', due.map Prod.fst, true) := hloop
  refine ⟨due, later, rest, hl, hrest, hdue, hlater, ?_, ?_, ?_, ?_, ?_, ?_⟩
  · rw [hfst]
    exact h.timers.queue.rep.chain.nodup
  all_goals rw [hproc]
  · exact hinv
  · exact htimeout
  · exact hinit

variable {due later rest : List (α × Nat)}

theorem Expiry.mem_due (x : Expiry g ret l due later rest) {e : α × Nat} (he : e ∈ due) :
    e ∈ deadlines l := by
  rw [x.split]
  exact mem_append_left _ he

theorem Expiry.mem_later (x : Expiry g ret l due later rest) {e : α × Nat}
    (he : e ∈ later) : e ∈ deadlines l := by
  rw [x.split]
  exact mem_append_right _ he

theorem Expiry.later_notMem (x : Expiry g ret l due later rest) {e : α × Nat}
    (he : e ∈ later) : e.1 ∉ due.map Prod.fst := by
  have hnd := x.nodup
  rw [map_append] at hnd
  exact fun hc => (nodup_append.mp hnd).2.2 e.1 hc e.1 (mem_map_of_mem he) rfl

theorem Expiry.nodup_due (x : Expiry g ret l due later rest) : (due.map Prod.fst).Nodup := by
  have hnd := x.nodup
  rw [map_append] at hnd
  exact hnd.of_append_left

theorem Expiry.mem_ran_iff (x : Expiry g ret l due later rest) (h : TimelineInv g l) {t : α} :
    t ∈ due.map Prod.fst ↔
      ∃ k d, g.since t = some (k, d) ∧ Due k d (g.period t) (g.now + 1) := by
  constructor
  · intro ht
    obtain ⟨e, he, rfl⟩ := mem_map.mp ht
    have hmem := x.mem_due he
    obtain ⟨k, d, hsince⟩ := (h.since e.1).mp (mem_map_fst_iff.mpr ⟨e.2, hmem⟩)
    exact ⟨k, d, hsince, (h.next e hmem k d hsince).due_iff.mpr (x.le_one e he)⟩
  · rintro ⟨k, d, hsince, hd⟩
    obtain ⟨r, hr⟩ := mem_map_fst_iff.mp ((h.since t).mpr ⟨k, d, hsince⟩)
    have hle := (h.next (t, r) hr k d hsince).due_iff.mp hd
    rw [x.split] at hr
    rcases mem_append.mp hr with hr | hr
    · exact mem_map_of_mem hr
    · exact absurd (x.one_lt (t, r) hr) (Nat.not_lt.mpr hle)

theorem TimelineInv.nextTick (h : TimelineInv g l) (hw : 0 < w) (ret : α → Int) :
    NextTick g ret := by
  obtain ⟨due, later, rest, x⟩ := h.expiry hw ret
  refine ⟨⟨x.ends, x.queue.queue.stuck⟩, ?_, ?_, ?_⟩
  · rw [x.ran]
    exact x.nodup_due
  · intro t
    rw [x.ran]
    exact x.mem_ran_iff h
  · have horder := h.stamped.order
    rw [x.split] at horder
    rw [x.ran]
    refine pairwise_map.mpr ((pairwise_append.mp horder).1.imp_of_mem ?_)
    intro a b ha hb hab hda hdb
    -- both have exactly one tick left
    have hone : ∀ e ∈ due, 1 ≤ g.delay e.1 → e.2 = 1 := by
      intro e he hd
      have hle := x.le_one e he
      have hne : e.2 ≠ 0 := fun hc => by
        have := h.zero e (x.mem_due he) hc
        omega
      omega
    exact hab ((hone a ha hda).trans (hone b hb hdb).symm)

omit [Fintype α] in
theorem count_log {zs : List α} (hnd : zs.Nodup) (n m : Nat) (t : α) :
    (zs.map (m, ·)).count (n, t) = if n = m ∧ t ∈ zs then 1 else 0 := by
  by_cases hn : n = m
  · subst hn
    have hinj : Injective fun t : α => (n, t) := fun a b hab => (Prod.ext_iff.mp hab).2
    rw [count_map_of_injective zs _ hinj]
    by_cases ht : t ∈ zs
    · rw [if_pos ⟨rfl, ht⟩, count_eq_one_of_mem hnd ht]
    · rw [if_neg fun hc => ht hc.2, count_eq_zero_of_not_mem ht]
  · rw [if_neg fun hc => hn hc.1]
    refine count_eq_zero_of_not_mem fun hc => ?_
    obtain ⟨x, -, hx⟩ := mem_map.mp hc
    exact hn (Prod.ext_iff.mp hx).1.symm

theorem Timeline.since_of_ticked {t : α} {k d : Nat}
    (h : (g.ticked ret).since t = some (k, d)) : g.since t = some (k, d) := by
  replace h : (if t ∈ (g.process ret).2.1 ∧ ret t ≠ 0 then none else g.since t) = some (k, d) := h
  split_ifs at h
  exact h

theorem Expiry.onSchedule (x : Expiry g ret l due later rest) (h : TimelineInv g l) :
    OnSchedule (g.ticked ret) := by
  intro t k d hsince n hn
  have hg := Timeline.since_of_ticked hsince
  have hold := h.schedule t k d hg n hn
  have hlog : (g.ticked ret).log = g.log ++ (due.map Prod.fst).map (g.now + 1, ·) := by
    rw [← x.ran]
    rfl
  have hnow : (g.ticked ret).now = g.now + 1 := rfl
  have hperiod : (g.ticked ret).period = g.period := rfl
  rw [hperiod, hlog, hnow, count_append, count_log x.nodup_due]
  by_cases hlast : n = g.now + 1
  · subst hlast
    -- the tick itself: nothing was logged for it before
    have h0 : g.log.count (g.now + 1, t) = 0 :=
      hold.2 fun hc => absurd hc.1 (Nat.not_succ_le_self g.now)
    have hdue : t ∈ due.map Prod.fst ↔ Due k d (g.period t) (g.now + 1) := by
      rw [x.mem_ran_iff h]
      constructor
      · rintro ⟨k', d', hs, hd⟩
        rw [hg, Option.some.injEq, Prod.mk.injEq] at hs
        rw [hs.1, hs.2]
        exact hd
      · exact fun hd => ⟨k, d, hg, hd⟩
    rw [h0, Nat.zero_add]
    refine ⟨fun hd => if_pos ⟨rfl, hdue.mpr hd.2⟩, fun hd => if_neg fun hc => hd ?_⟩
    exact ⟨Nat.le_refl _, hdue.mp hc.2⟩
  · rw [if_neg fun hc => hlast hc.1, Nat.add_zero]
    have hle : n ≤ g.now + 1 ↔ n ≤ g.now := by omega
    rw [hle]
    exact hold

theorem Expiry.mem_after (x : Expiry g ret l due later rest) {t : α} {r : Nat} :
    (t, r) ∈ deadlines (insertAll (fun t => (g.tm.timeout t).toNat)
        (fun t => decide (ret t = 0)) (due.map Prod.fst) rest) ↔
      (t, r + 1) ∈ later ∨ (t ∈ due.map Prod.fst ∧ ret t = 0 ∧ r = (g.tm.timeout t).toNat) := by
  rw [mem_deadlines_insertAll, x.rest_eq, mem_map, decide_eq_true_iff]
  refine or_congr_left ?_
  constructor
  · rintro ⟨e, he, heq⟩
    obtain ⟨rfl, rfl⟩ := Prod.mk.inj heq
    rw [Nat.sub_add_cancel (Nat.le_of_lt (x.one_lt e he))]
    exact he
  · exact fun he => ⟨(t, r + 1), he, rfl⟩

theorem Expiry.stamped (x : Expiry g ret l due later rest) (h : TimelineInv g l) :
    Stamped (g.ticked ret).stamp (g.ticked ret).clock
      (insertAll (fun t => (g.tm.timeout t).toNat) (fun t => decide (ret t = 0))
        (due.map Prod.fst) rest) := by
  have hstamp : (g.ticked ret).stamp = fun t => if t ∈ due.map Prod.fst then
      g.clock + (due.map Prod.fst).idxOf t else g.stamp t := by
    rw [← x.ran]
    rfl
  have hclock : (g.ticked ret).clock = g.clock + (due.map Prod.fst).length := by
    rw [← x.ran]
    rfl
  have hlater : ∀ e ∈ later, (g.ticked ret).stamp e.1 = g.stamp e.1 := by
    intro e he
    rw [hstamp]
    exact if_neg (x.later_notMem he)
  rw [hclock]
  refine Stamped.insertAll ⟨?_, ?_⟩ ?_
  · have horder := h.stamped.order
    rw [x.split] at horder
    rw [x.rest_eq]
    refine pairwise_map.mpr ((pairwise_append.mp horder).2.1.imp_of_mem ?_)
    intro a b ha hb hab heq
    have ha1 := x.one_lt a ha
    have hb1 := x.one_lt b hb
    replace heq : a.2 - 1 = b.2 - 1 := heq
    show (g.ticked ret).stamp a.1 < (g.ticked ret).stamp b.1
    rw [hlater a ha, hlater b hb]
    exact hab (by omega)
  · intro e he
    rw [x.rest_eq] at he
    obtain ⟨e', he', rfl⟩ := mem_map.mp he
    show (g.ticked ret).stamp e'.1 < _
    rw [hlater e' he']
    exact h.stamped.lt e' (x.mem_later he')
  · rw [← map_idxOf_eq_range' x.nodup_due]
    refine map_congr_left fun t ht => ?_
    rw [hstamp]
    exact if_pos ht

/-- **A TICK** keeps the invariant. -/
theorem TimelineInv.ticked (h : TimelineInv g l) (hw : 0 < w) (ret : α → Int) :
    ∃ l', TimelineInv (g.ticked ret) l' := by
  obtain ⟨due, later, rest, x⟩ := h.expiry hw ret
  have htimeout : (g.ticked ret).tm.timeout = g.tm.timeout := x.timeout
  have hsince : ∀ t, (g.ticked ret).since t
      = if t ∈ due.map Prod.fst ∧ ret t ≠ 0 then none else g.since t := by
    intro t
    rw [← x.ran]
    rfl
  have hpos : ∀ e ∈ deadlines l, 0 < (g.tm.timeout e.1).toNat := fun e he =>
    h.periods.pos (h.timers.known e.1 (mem_map_fst_iff.mpr ⟨e.2, he⟩))
  have hkept : ∀ e ∈ deadlines l, (g.tm.timeout e.1).toNat = g.period e.1 := fun e he =>
    h.kept e.1 (h.timers.known e.1 (mem_map_fst_iff.mpr ⟨e.2, he⟩))
  refine ⟨_, x.queue, ?_, ?_, ?_, ?_, ?_, x.stamped h, ?_, x.onSchedule h⟩
  · intro t ht
    rw [htimeout]
    exact h.periods t (x.initialised ▸ ht)
  · intro t ht
    rw [htimeout]
    exact h.kept t (x.initialised ▸ ht)
  · intro t
    rw [mem_map_fst_iff, hsince]
    constructor
    · rintro ⟨r, hr⟩
      rcases x.mem_after.mp hr with hr | ⟨ht, h0, -⟩
      · rw [if_neg fun hc => x.later_notMem hr hc.1]
        exact (h.since t).mp (mem_map_fst_iff.mpr ⟨r + 1, x.mem_later hr⟩)
      · rw [if_neg fun hc => hc.2 h0]
        obtain ⟨e, he, rfl⟩ := mem_map.mp ht
        exact (h.since e.1).mp (mem_map_fst_iff.mpr ⟨e.2, x.mem_due he⟩)
    · rintro ⟨k, d, hs⟩
      split_ifs at hs with hran
      obtain ⟨r, hr⟩ := mem_map_fst_iff.mp ((h.since t).mpr ⟨k, d, hs⟩)
      rw [x.split] at hr
      rcases mem_append.mp hr with hr | hr
      · have ht : t ∈ due.map Prod.fst := mem_map_of_mem hr
        have h0 : ret t = 0 := not_not.mp fun hc => hran ⟨ht, hc⟩
        exact ⟨_, x.mem_after.mpr (Or.inr ⟨ht, h0, rfl⟩)⟩
      · have hlt := x.one_lt (t, r) hr
        refine ⟨r - 1, x.mem_after.mpr (Or.inl ?_)⟩
        rw [Nat.sub_add_cancel (Nat.le_of_lt hlt)]
        exact hr
  · rintro ⟨t, r⟩ he k d hs
    have hg := Timeline.since_of_ticked hs
    rcases x.mem_after.mp he with hr | ⟨ht, -, rfl⟩
    · exact (h.next (t, r + 1) (x.mem_later hr) k d hg).later (x.one_lt _ hr)
    · obtain ⟨e, hdue, rfl⟩ := mem_map.mp ht
      have hmem := x.mem_due hdue
      have hp := hpos e hmem
      rw [hkept e hmem] at hp ⊢
      exact (h.next e hmem k d hg).again (x.le_one e hdue) hp
  · rintro ⟨t, r⟩ he h0
    -- no time left after a tick is impossible
    rcases x.mem_after.mp he with hr | ⟨ht, -, rfl⟩
    · have hlt := x.one_lt _ hr
      replace h0 : r = 0 := h0
      replace hlt : 1 < r + 1 := hlt
      omega
    · obtain ⟨e, hdue, rfl⟩ := mem_map.mp ht
      have := hpos e (x.mem_due hdue)
      replace h0 : (g.tm.timeout e.1).toNat = 0 := h0
      omega
  · intro e he
    show e.1 ≤ g.now + 1
    rcases mem_append.mp he with he | he
    · exact Nat.le_succ_of_le (h.past e he)
    · obtain ⟨t, -, rfl⟩ := mem_map.mp he
      exact Nat.le_refl _

omit [Fintype α] in
theorem TimelineInv.started {tm' : Timers w α} {period : α → Nat} {t : α} {d : Nat}
    (h : TimelineInv g l) (ht : t ∉ l.map Prod.fst)
    (hinv : TimersInv tm' (fun _ => False) (insertDelta t d l)) (hp : FinitePeriods tm')
    (hkept : Timeline.PeriodsKept { g with tm := tm', period := period })
    (hframe : ∀ x, x ≠ t → period x = g.period x) :
    TimelineInv ({ g with tm := tm', period := period }.started t d) (insertDelta t d l) := by
  have hne : ∀ e ∈ deadlines l, e.1 ≠ t := by
    rintro e he rfl
    exact ht (mem_map_fst_iff.mpr ⟨e.2, he⟩)
  have hsince : ({ g with tm := tm', period := period }.started t d).since
      = update g.since t (some (g.now, d)) := rfl
  refine ⟨hinv, hp, hkept, ?_, ?_, ?_, ?_, h.past, ?_⟩
  · intro x
    rw [mem_insertDelta, hsince]
    by_cases hx : x = t
    · subst hx
      rw [update_self]
      exact ⟨fun _ => ⟨g.now, d, rfl⟩, fun _ => Or.inl rfl⟩
    · rw [update_of_ne hx, or_iff_right hx]
      exact h.since x
  · intro e he k d' hs
    rw [hsince] at hs
    rcases mem_deadlines_insertDelta.mp he with rfl | he
    · rw [update_self, Option.some.injEq, Prod.mk.injEq] at hs
      obtain ⟨rfl, rfl⟩ := hs
      exact NextRun.start ..
    · rw [update_of_ne (hne e he)] at hs
      show NextRun k d' (period e.1) g.now e.2
      rw [hframe e.1 (hne e he)]
      exact h.next e he k d' hs
  · intro e he h0
    show update g.delay t d e.1 = 0
    rcases mem_deadlines_insertDelta.mp he with rfl | he
    · rw [update_self]
      exact h0
    · rw [update_of_ne (hne e he)]
      exact h.zero e he h0
  · have hs : Stamped (update g.stamp t g.clock) g.clock l :=
      h.stamped.congr fun e he => update_of_ne (hne e he) ..
    exact hs.insertDelta (update_self ..)
  · intro x k d' hs n hn
    rw [hsince] at hs
    by_cases hx : x = t
    · subst hx
      rw [update_self, Option.some.injEq, Prod.mk.injEq] at hs
      obtain ⟨rfl, rfl⟩ := hs
      -- the schedule lies ahead
      refine ⟨fun hc => absurd hc.1 (Nat.not_le.mpr hn), fun _ => ?_⟩
      exact count_eq_zero_of_not_mem fun hc => Nat.not_le.mpr hn (h.past _ hc)
    · rw [update_of_ne hx] at hs
      have hpx : ({ g with tm := tm', period := period }.started t d).period x = g.period x :=
        hframe x hx
      rw [hpx]
      exact h.schedule x k d' hs n hn

omit [Fintype α] in
theorem TimelineInv.stopped {tm' : Timers w α} {t : α} (h : TimelineInv g l)
    (hinv : TimersInv tm' (fun _ => False) (removeDelta t l))
    (hinit : tm'.initialised = g.tm.initialised) (htimeout : tm'.timeout = g.tm.timeout) :
    TimelineInv { g with tm := tm', since := update g.since t none }
      (removeDelta t l) := by
  have hnd := h.timers.queue.rep.chain.nodup
  have hmem : ∀ e, e ∈ deadlines (removeDelta t l) → e ∈ deadlines l ∧ e.1 ≠ t := by
    intro e he
    rw [deadlines_removeDelta t hnd, mem_filter] at he
    exact ⟨he.1, by simpa using he.2⟩
  refine ⟨hinv, ?_, ?_, ?_, ?_, ?_, ⟨?_, ?_⟩, h.past, ?_⟩
  · intro x hx
    show tm'.timeout x ≠ 0 ∧ tm'.timeout x ≠ BitVec.allOnes w
    rw [htimeout]
    exact h.periods x (hinit ▸ hx)
  · intro x hx
    show (tm'.timeout x).toNat = g.period x
    rw [htimeout]
    exact h.kept x (hinit ▸ hx)
  · intro x
    rw [map_fst_removeDelta, hnd.mem_erase_iff, h.since x]
    show _ ↔ ∃ k d, update g.since t none x = some (k, d)
    by_cases hx : x = t
    · subst hx
      rw [update_self]
      exact ⟨fun hc => absurd rfl hc.1, fun ⟨_, _, hc⟩ => nomatch hc⟩
    · rw [update_of_ne hx, and_iff_right hx]
  · intro e he k d hs
    obtain ⟨he, hne⟩ := hmem e he
    replace hs : update g.since t none e.1 = some (k, d) := hs
    rw [update_of_ne hne] at hs
    exact h.next e he k d hs
  · exact fun e he => h.zero e (hmem e he).1
  · rw [deadlines_removeDelta t hnd]
    exact h.stamped.order.filter _
  · exact fun e he => h.stamped.lt e (hmem e he).1
  · intro x k d hs n hn
    replace hs : update g.since t none x = some (k, d) := hs
    have hx : x ≠ t := by
      rintro rfl
      rw [update_self] at hs
      exact nomatch hs
    rw [update_of_ne hx] at hs
    exact h.schedule x k d hs n hn

theorem kTimerInit_finite (argsChecks : Bool) (tm : Timers w α) (t : α) (handler : Nat)
    {timeout : BitVec w} (d : BitVec w) (hp : timeout ≠ BitVec.allOnes w) :
    kTimerInit argsChecks tm t handler timeout d =
      if (argsChecks = true → handler ≠ 0) ∧ timeout ≠ 0 then
        (zTimerStart { tm with
            handler := update tm.handler t handler
            timeout := update tm.timeout t timeout
            initialised := update tm.initialised t true } t d, 0)
      else (tm, -EINVAL) := by
  have huser : (!zUser argsChecks (handler ≠ 0)) = true ↔ ¬ (argsChecks = true → handler ≠ 0) := by
    cases argsChecks <;> simp [zUser]
  rw [kTimerInit]
  by_cases hh : argsChecks = true → handler ≠ 0
  · rw [if_neg fun hc => huser.mp hc hh]
    by_cases h0 : timeout = 0
    · rw [if_pos h0, if_neg fun hc => hc.2 h0]
    · rw [if_neg h0, if_pos hp, if_pos ⟨hh, h0⟩]
  · rw [if_pos (huser.mpr hh), if_neg fun hc => hh hc.1]

omit [Fintype α] in
theorem TimelineInv.started_iff (h : TimelineInv g l) {t : α} (hk : g.tm.initialised t = true) :
    kTimerStarted g.tm t = true ↔ g.since t ≠ none := by
  have hmem : t ∈ l.map Prod.fst ↔ g.since t ≠ none := by
    rw [h.since, Option.ne_none_iff_exists']
    exact ⟨fun ⟨k, d, hs⟩ => ⟨(k, d), hs⟩, fun ⟨⟨k, d⟩, hs⟩ => ⟨k, d, hs⟩⟩
  rw [← hmem, kTimerStarted, decide_eq_true_iff]
  constructor
  · exact fun hs => not_not.mp fun hc => hs (h.timers.stopped t hk not_false hc)
  · exact h.timers.delay_ne

/-- **A CALL** keeps the invariant. -/
theorem TimelineInv.called (h : TimelineInv g l) (c : TimerCall w α)
    (hok : g.Ok (.call c)) : ∃ l', TimelineInv (g.called argsChecks c) l' := by
  obtain ⟨hallowed, hfin⟩ := hok
  cases c with
  | init t handler timeout d =>
    obtain ⟨hp, hd⟩ := hfin
    have ht : t ∉ l.map Prod.fst := fun hc => hallowed (h.timers.queued_iff.mpr hc)
    have hr := kTimerInit_finite argsChecks g.tm t handler d hp
    by_cases hgiven : (argsChecks = true → handler ≠ 0) ∧ timeout ≠ 0
    · rw [if_pos hgiven] at hr
      simp only [Timeline.called, TimerCall.run, Timeline.starts, Timeline.given, TimerCall.stops,
        hr, if_pos hgiven]
      refine ⟨_, h.started ht (h.timers.initStart ht id hd) ?_ ?_ ?_⟩
      · intro x hx
        show update g.tm.timeout t timeout x ≠ 0
          ∧ update g.tm.timeout t timeout x ≠ BitVec.allOnes w
        by_cases hxt : x = t
        · rw [hxt, update_self]
          exact ⟨hgiven.2, hp⟩
        · replace hx : update g.tm.initialised t true x = true := hx
          rw [update_of_ne hxt] at hx ⊢
          exact h.periods x hx
      · intro x hx
        show (update g.tm.timeout t timeout x).toNat = update g.period t timeout.toNat x
        by_cases hxt : x = t
        · rw [hxt, update_self, update_self]
        · replace hx : update g.tm.initialised t true x = true := hx
          rw [update_of_ne hxt] at hx
          rw [update_of_ne hxt, update_of_ne hxt]
          exact h.kept x hx
      · exact fun x hx => update_of_ne hx ..
    · rw [if_neg hgiven] at hr
      refine ⟨l, ?_⟩
      simp only [Timeline.called, TimerCall.run, Timeline.starts, Timeline.given, TimerCall.stops,
        hr, if_neg hgiven]
      exact h
  | start t d =>
    have hinv := h.timers.start hallowed d False.elim
    have hs := h.started_iff hallowed
    by_cases hstart : g.since t = none ∧ d ≠ BitVec.allOnes w
    · have hnot : ¬ kTimerStarted g.tm t = true := fun hc => hs.mp hc hstart.1
      rw [if_neg (not_or.mpr ⟨hnot, hstart.2⟩)] at hinv
      have ht : t ∉ l.map Prod.fst := by
        rw [h.since]
        rintro ⟨k, d', hc⟩
        exact Option.some_ne_none _ (hc.symm.trans hstart.1)
      simp only [Timeline.called, TimerCall.run, Timeline.starts, Timeline.given, TimerCall.stops,
        if_pos hstart]
      refine ⟨_, h.started ht hinv ?_ ?_ fun _ _ => rfl⟩
      · rw [kTimerStart, if_neg hnot, if_neg hstart.2]
        exact h.periods
      · rw [kTimerStart, if_neg hnot, if_neg hstart.2]
        exact h.kept
    · -- it is running already, or it is asked to wait for ever
      refine ⟨l, ?_⟩
      have hsame : (kTimerStart g.tm t d).1 = g.tm := by
        rw [kTimerStart]
        by_cases hrun : kTimerStarted g.tm t = true
        · rw [if_pos hrun]
        · have hsince : g.since t = none := not_not.mp fun hc => hrun (hs.mpr hc)
          rw [if_neg hrun, if_pos (not_not.mp fun hc => hstart ⟨hsince, hc⟩)]
      simp only [Timeline.called, TimerCall.run, Timeline.starts, Timeline.given, TimerCall.stops,
        if_neg hstart, hsame]
      exact h
  | stop t =>
    have hinv : TimersInv (kTimerStop argsChecks g.tm t).1 (fun _ => False)
        (removeDelta t l) := h.timers.stop
    have hfields := kTimerStop_fields argsChecks g.tm t
    exact ⟨_, h.stopped hinv hfields.2 hfields.1⟩

end Step

variable {g : Timeline w α} {argsChecks : Bool}

/-- **EXACT TIMERS**: a timer started after tick `k` with delay `d` runs once at each tick `k +
    max d 1 + i * p` and at no other, and timers due together in queue order. -/
theorem timers_exact (hw : 0 < w) (h : TimelineReach argsChecks g) :
    OnSchedule g ∧ ∀ ret, NextTick g ret := by
  have hpos : 0 < kTimerStopped w := by
    have h2 : 2 ^ 1 ≤ 2 ^ w := Nat.pow_le_pow_right (by decide) hw
    rw [kTimerStopped]
    omega
  obtain ⟨l, hinv⟩ : ∃ l, TimelineInv g l := by
    refine Reach.invariant (P := fun g : Timeline w α => ∃ l, TimelineInv g l) h ?_ ?_
    · intro g hb
      have hnil : ∀ {P : α × Nat → Prop}, ∀ e ∈ ([] : List (α × Nat)), P e :=
        fun e he => absurd he not_mem_nil
      refine ⟨[], hb.timers.inv hpos, hb.periods, hb.kept, ?_, hnil, hnil,
        ⟨List.Pairwise.nil, hnil⟩, ?_, ?_⟩
      · intro t
        rw [hb.since t]
        constructor
        · intro hc
          cases hc
        · rintro ⟨_, _, hc⟩
          cases hc
      · intro e he
        rw [hb.log] at he
        cases he
      · intro t k d hs
        rw [hb.since t] at hs
        cases hs
    · rintro g op ⟨l, hl⟩ hok
      cases op with
      | call c => exact hl.called c hok
      | tick ret => exact hl.ticked hw ret
  exact ⟨hinv.schedule, hinv.nextTick hw⟩

instance (g : Timeline w α) : (op : TimelineOp w α) → Decidable (g.Ok op)
  | .call (.init ..) => inferInstanceAs (Decidable (_ ∧ _ ∧ _))
  | .call (.start ..) => inferInstanceAs (Decidable (_ ∧ True))
  | .call (.stop _) => inferInstanceAs (Decidable (_ ∧ True))
  | .tick _ => isTrue trivial

def timelineBoot : Timeline 16 (Fin 2) where
  tm := timersBoot
  now := 0
  period := fun _ => 0
  since := fun _ => none
  delay := fun _ => 0
  stamp := fun _ => 0
  clock := 0
  log := []

theorem timelineBoot_boot : TimelineBoot timelineBoot :=
  ⟨timersBoot_boot, fun _ hc => (nomatch hc), fun _ hc => (nomatch hc), fun _ => rfl, rfl⟩

def startedAgain : Timeline 16 (Fin 2) :=
  ([.call (.init 0 1 2 1), .call (.init 1 1 3 3), .tick fun _ => 0, .call (.start 1 1),
    .tick fun _ => 0, .call (.stop 0), .call (.start 0 0), .tick fun _ => 0,
    .tick fun _ => 0] : List (TimelineOp 16 (Fin 2))).foldl (Timeline.run true) timelineBoot

theorem timers_exact_startedAgain :
    (OnSchedule startedAgain ∧ ∀ ret, NextTick startedAgain ret)
      ∧ startedAgain.since 0 = some (2, 0) ∧ startedAgain.period 0 = 2
      ∧ startedAgain.log = [(1, 0), (3, 0), (3, 1)] := by
  have hreach : TimelineReach true startedAgain :=
    Reach.foldl (.start timelineBoot_boot) (by decide)
  exact ⟨timers_exact (by decide) hreach, by decide, by decide, by decide⟩

end AvrtosTimer
