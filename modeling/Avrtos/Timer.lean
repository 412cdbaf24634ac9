import Avrtos.TqueueDeadlines

/-! # `timer.c`: software timers

    `TimersInv`: a timer is in the queue or stopped, or its handler runs. Each call keeps it. -/

namespace AvrtosTimer

open Function BitVec List AvrtosDefines AvrtosTqueue Cells LinkedChain DeltaList Runs

/-- The timers and their queue. -/
structure Timers (w : Nat) (α : Type) where
  /-- `z_timers_runqueue`, with the `tie` of every timer -/
  queue : TQueue (α → TItem α) α
  timeout : α → BitVec w
  handler : α → Nat
  initialised : α → Bool

variable {w : Nat} {α : Type}

/-- `K_TIMER_STOPPED`. -/
def kTimerStopped (w : Nat) : Nat := 2 ^ w - 1

/-- `timer->tie.timeout = value`. -/
def Timers.setTie (tm : Timers w α) [DecidableEq α] (timer : α) (value : Nat) :
    Timers w α :=
  { tm with queue := { tm.queue with mem := setDelayShift tm.queue.mem timer value } }

variable [DecidableEq α] [Fintype α]

/-- `z_timer_start`. -/
def zTimerStart (tm : Timers w α) (timer : α) (startingDelay : BitVec w) : Timers w α :=
  { tm with
    queue := tqueueSchedule w (Fintype.card α) tm.queue (some timer) startingDelay.toNat }

/-- `k_timer_init`. -/
def kTimerInit (argsChecks : Bool) (tm : Timers w α) (timer : α) (handler : Nat)
    (timeout startingDelay : BitVec w) : Timers w α × Int :=
  if !zUser argsChecks (handler ≠ 0) then (tm, -EINVAL)
  else if timeout = 0 then (tm, -EINVAL)
  else
    let tm := { tm with
      handler := update tm.handler timer handler
      timeout := update tm.timeout timer timeout
      initialised := update tm.initialised timer true }
    if timeout ≠ allOnes w then (zTimerStart tm timer startingDelay, 0)
    else (tm.setTie timer (allOnes w).toNat, 0)

/-- `k_timer_started`. -/
def kTimerStarted (tm : Timers w α) (timer : α) : Bool :=
  delayShift tm.queue.mem timer ≠ kTimerStopped w

/-- `k_timer_stop`. -/
def kTimerStop (argsChecks : Bool) (tm : Timers w α) (timer : α) : Timers w α × Int :=
  if delayShift tm.queue.mem timer = kTimerStopped w then (tm, 0)
  else
    let tm := { tm with
      queue := (tqueueRemove argsChecks w (Fintype.card α) tm.queue (some timer)).1 }
    (tm.setTie timer (kTimerStopped w), 0)

/-- `k_timer_start`. -/
def kTimerStart (tm : Timers w α) (timer : α) (startingDelay : BitVec w) :
    Timers w α × Int :=
  if kTimerStarted tm timer then (tm, 0)
  else if startingDelay = allOnes w then (tm, -EINVAL)
  else (zTimerStart tm timer startingDelay, 0)

def zTimerReschedule (tm : Timers w α) (timer : α) (ret : Int) : Timers w α :=
  -- stop the timer if the handler returns a non-zero value
  let tm := if ret ≠ 0 then tm.setTie timer (kTimerStopped w) else tm
  -- reschedule the timer if it is not stopped
  if delayShift tm.queue.mem timer ≠ kTimerStopped w then
    let queue := { tm.queue with mem := setNextItem tm.queue.mem timer none }
    let queue := { queue with
      mem := setDelayShift queue.mem timer (tm.timeout timer).toNat }
    { tm with queue := zTqueueSchedule w (Fintype.card α) queue timer }
  else tm

def zTimersLoop (handler : Nat → Timers w α → α → Timers w α × Int) :
    Nat → Timers w α → Timers w α × List α × Bool
  | 0, tm =>
      let r := tqueuePop tm.queue
      match r.2 with
      | none => ({ tm with queue := r.1 }, [], true)
      | some _ => (tm, [], false)
  | fuel + 1, tm =>
      let r := tqueuePop tm.queue
      let tm := { tm with queue := r.1 }
      match r.2 with
      | none => (tm, [], true)
      | some timer =>
          let h := handler fuel tm timer
          let rest := zTimersLoop handler fuel (zTimerReschedule h.1 timer h.2)
          (rest.1, timer :: rest.2.1, rest.2.2)

def zTimersShift (ticks : BitVec w) (tm : Timers w α) : Timers w α :=
  { tm with queue := tqueueShift w (Fintype.card α) tm.queue ticks.toNat }

/-- `z_timers_process`. -/
def zTimersProcess (ticks : BitVec w)
    (handler : Nat → Timers w α → α → Timers w α × Int) (fuel : Nat) (tm : Timers w α) :
    Timers w α × List α × Bool :=
  zTimersLoop handler fuel (zTimersShift ticks tm)

inductive TimerCall (w : Nat) (α : Type) where
  | init (timer : α) (handler : Nat) (timeout startingDelay : BitVec w)
  | start (timer : α) (startingDelay : BitVec w)
  | stop (timer : α)

def TimerCall.run (argsChecks : Bool) (tm : Timers w α) :
    TimerCall w α → Timers w α × Int
  | .init timer handler timeout startingDelay =>
      kTimerInit argsChecks tm timer handler timeout startingDelay
  | .start timer startingDelay => kTimerStart tm timer startingDelay
  | .stop timer => kTimerStop argsChecks tm timer

/-- What a handler does. -/
structure Script (w : Nat) (α : Type) where
  calls : List (TimerCall w α)
  ret : Int

/-- Carrying out a script. -/
def Script.run (argsChecks : Bool) (s : Script w α) (tm : Timers w α) : Timers w α × Int :=
  (s.calls.foldl (fun tm call => (call.run argsChecks tm).1) tm, s.ret)

/-- The operations of a run. -/
inductive TimerOp (w : Nat) (α : Type) where
  | call (c : TimerCall w α)
  | process (fuel : Nat) (script : Nat → α → Script w α)

/-- The state after an operation. -/
def TimerOp.run (argsChecks : Bool) (ticks : BitVec w) (tm : Timers w α) :
    TimerOp w α → Timers w α
  | .call c => (c.run argsChecks tm).1
  | .process fuel script =>
      (zTimersProcess ticks (fun n tm timer => (script n timer).run argsChecks tm) fuel tm).1

/-- The timer is in the queue. -/
def Queued (tm : Timers w α) (timer : α) : Prop :=
  timer ∈ (remaining tm.queue).map Prod.fst
deriving Decidable

def TimerCall.Allowed (tm : Timers w α) : TimerCall w α → Prop
  | .init timer _ _ _ => ¬ Queued tm timer
  | .start timer _ | .stop timer => tm.initialised timer = true

structure Cond (w : Nat) (α : Type) where
  call : Option α → Timers w α → TimerCall w α → Prop
  ret : Timers w α → α → Int → Prop

def HandlersOk (argsChecks : Bool) (cond : Cond w α) (script : Nat → α → Script w α) :
    Nat → Timers w α → Prop
  | 0, tm => (tqueuePop tm.queue).2 = none
  | fuel + 1, tm =>
      ∀ timer ∈ (tqueuePop tm.queue).2,
        let popped := { tm with queue := (tqueuePop tm.queue).1 }
        let h := (script fuel timer).run argsChecks popped
        Allowed (fun tm (c : TimerCall w α) => c.Allowed tm ∧ cond.call (some timer) tm c)
            (fun tm c => (c.run argsChecks tm).1) popped (script fuel timer).calls
          ∧ cond.ret h.1 timer h.2
          ∧ HandlersOk argsChecks cond script fuel (zTimerReschedule h.1 timer h.2)

/-- An operation is in order. -/
def TimerOp.Ok (argsChecks : Bool) (ticks : BitVec w) (cond : Cond w α)
    (tm : Timers w α) : TimerOp w α → Prop
  | .call c => c.Allowed tm ∧ cond.call none tm c
  | .process fuel script =>
      HandlersOk argsChecks cond script fuel (zTimersShift ticks tm)

/-- Nothing is queued. -/
structure TimersBoot (tm : Timers w α) : Prop where
  root : tm.queue.root = none
  wrapped : tm.queue.wrapped = false
  stuck : tm.queue.stuck = false
  stopped : ∀ t, tm.initialised t = true → delayShift tm.queue.mem t = kTimerStopped w

def TimerReach (argsChecks : Bool) (ticks : BitVec w) (cond : Cond w α) :
    Timers w α → Prop :=
  Reach TimersBoot (fun tm (op : TimerOp w α) => op.Ok argsChecks ticks cond tm)
    (TimerOp.run argsChecks ticks)

def TimerCall.Careful (running : Option α) (tm : Timers w α) : TimerCall w α → Prop
  | .init timer _ timeout startingDelay =>
      running ≠ some timer
        ∧ (timeout ≠ allOnes w → startingDelay ≠ allOnes w)
  | .start timer _ => running = some timer → kTimerStarted tm timer = true
  | .stop _ => True

def CarefulReturn (tm : Timers w α) (timer : α) (ret : Int) : Prop :=
  tm.timeout timer = allOnes w →
    ret ≠ 0 ∨ delayShift tm.queue.mem timer = kTimerStopped w
deriving Decidable

/-- Careful handlers and threads. -/
def careful : Cond w α := ⟨TimerCall.Careful, CarefulReturn⟩

section Decidable

variable (argsChecks : Bool) (ticks : BitVec w)

instance (tm : Timers w α) : (c : TimerCall w α) → Decidable (c.Allowed tm)
  | .init _ _ _ _ => inferInstanceAs (Decidable (¬ _))
  | .start _ _ => inferInstanceAs (Decidable (_ = true))
  | .stop _ => inferInstanceAs (Decidable (_ = true))

instance (running : Option α) (tm : Timers w α) :
    (c : TimerCall w α) → Decidable (c.Careful running tm)
  | .init _ _ _ _ => inferInstanceAs (Decidable (_ ∧ (_ → _)))
  | .start _ _ => inferInstanceAs (Decidable (_ → _))
  | .stop _ => isTrue trivial

instance HandlersOk.decidable (cond : Cond w α)
    [∀ running tm c, Decidable (cond.call running tm c)]
    [∀ tm timer ret, Decidable (cond.ret tm timer ret)] (script : Nat → α → Script w α) :
    (fuel : Nat) → (tm : Timers w α) → Decidable (HandlersOk argsChecks cond script fuel tm)
  | 0, _ => inferInstanceAs (Decidable (_ = none))
  | fuel + 1, tm =>
      haveI := HandlersOk.decidable cond script fuel
      Option.decidableForallMem (tqueuePop tm.queue).2

instance (cond : Cond w α) [∀ running tm c, Decidable (cond.call running tm c)]
    [∀ tm timer ret, Decidable (cond.ret tm timer ret)] (tm : Timers w α) :
    (op : TimerOp w α) → Decidable (op.Ok argsChecks ticks cond tm)
  | .call _ => inferInstanceAs (Decidable (_ ∧ _))
  | .process fuel script => HandlersOk.decidable argsChecks cond script fuel _

instance (running : Option α) (tm : Timers w α) (c : TimerCall w α) :
    Decidable (careful.call running tm c) := inferInstanceAs (Decidable (c.Careful running tm))

instance (tm : Timers w α) (timer : α) (ret : Int) :
    Decidable (careful.ret tm timer ret) :=
  inferInstanceAs (Decidable (CarefulReturn tm timer ret))

end Decidable

def StartedIffQueued (tm : Timers w α) : Prop :=
  ∃ l, Chain (nextItem tm.queue.mem) tm.queue.root l ∧ l.Nodup
    ∧ (∀ t ∈ l, tm.initialised t = true)
    ∧ ∀ t, tm.initialised t = true → l.count t = if kTimerStarted tm t then 1 else 0

structure TimersInv (tm : Timers w α) (busy : α → Prop) (l : List (α × Nat)) : Prop where
  queue : TqInv w tm.queue l
  span_lt : span l < kTimerStopped w
  stopped : ∀ t, tm.initialised t = true → ¬ busy t → t ∉ l.map Prod.fst →
    delayShift tm.queue.mem t = kTimerStopped w
  known : ∀ t ∈ l.map Prod.fst, tm.initialised t = true
  busy : ∀ t, busy t → t ∉ l.map Prod.fst ∧ tm.initialised t = true

section Inv

variable {tm : Timers w α} {busy busy' : α → Prop} {l : List (α × Nat)} {t : α}
variable {argsChecks : Bool} {ticks : BitVec w}

omit [Fintype α] in
theorem TimersInv.delay_ne (h : TimersInv tm busy l) (ht : t ∈ l.map Prod.fst) :
    delayShift tm.queue.mem t ≠ kTimerStopped w := by
  obtain ⟨e, he, rfl⟩ := mem_map.mp ht
  have hd := h.queue.rep.delay e he
  have hle := le_span_of_mem he
  have hlt := h.span_lt
  omega

theorem TimersInv.queued_iff (h : TimersInv tm busy l) :
    Queued tm t ↔ t ∈ l.map Prod.fst := h.queue.mem_remaining

theorem toNat_lt_stopped {d : BitVec w} (hd : d ≠ allOnes w) :
    d.toNat < kTimerStopped w := by
  have hlt := d.isLt
  have hne : d.toNat ≠ 2 ^ w - 1 := by
    intro hc
    refine hd (eq_of_toNat_eq ?_)
    rw [toNat_allOnes]
    exact hc
  rw [kTimerStopped]
  omega

theorem TimersInv.schedule (h : TimersInv tm busy l) (ht : t ∉ l.map Prod.fst)
    (hk : tm.initialised t = true) {d : BitVec w} (hd : d ≠ allOnes w)
    (hb : ∀ x, busy' x ↔ x ≠ t ∧ busy x) :
    TimersInv (zTimerStart tm t d) busy' (insertDelta t d.toNat l) := by
  obtain ⟨hinv, -⟩ := h.queue.schedule ht d
  obtain ⟨-, hframe⟩ := tqueueSchedule_spec h.queue.rep ht h.queue.length_le d.isLt h.queue.span_lt
  refine ⟨hinv, ?_, ?_, ?_, ?_⟩
  · rw [span_insertDelta]
    exact Nat.max_lt.mpr ⟨toNat_lt_stopped hd, h.span_lt⟩
  · intro x hx hbx hxl
    rw [mem_insertDelta] at hxl
    obtain ⟨hxt, hxl⟩ := not_or.mp hxl
    refine Eq.trans (hframe.delay x ?_) (h.stopped x hx (fun hc => hbx ((hb x).mpr ⟨hxt, hc⟩)) hxl)
    intro hc
    exact (mem_cons.mp hc).elim hxt hxl
  · intro x hx
    rcases mem_insertDelta.mp hx with rfl | hxl
    · exact hk
    · exact h.known x hxl
  · intro x hx
    obtain ⟨hxt, hbx⟩ := (hb x).mp hx
    obtain ⟨hxl, hxk⟩ := h.busy x hbx
    exact ⟨fun hc => (mem_insertDelta.mp hc).elim hxt hxl, hxk⟩

omit [Fintype α] in
theorem TimersInv.setStopped (h : TimersInv tm busy l) (ht : t ∉ l.map Prod.fst)
    (hb : ∀ x, busy' x → busy x) (hb' : ∀ x, x ≠ t → busy x → busy' x) :
    TimersInv (tm.setTie t (kTimerStopped w)) busy' l := by
  refine ⟨⟨h.queue.rep.setDelayShift ht, h.queue.span_lt, h.queue.wrapped, h.queue.stuck⟩,
    h.span_lt, ?_, h.known, fun x hx => h.busy x (hb x hx)⟩
  intro x hx hbx hxl
  show delayShift (setDelayShift tm.queue.mem t (kTimerStopped w)) x = kTimerStopped w
  rw [delayShift_setDelayShift]
  by_cases hxt : x = t
  · rw [hxt, update_self]
  · rw [update_of_ne hxt]
    exact h.stopped x hx (fun hc => hbx (hb' x hxt hc)) hxl

theorem TimersInv.remove (h : TimersInv tm busy l) (argsChecks : Bool) (ht : t ∈ l.map Prod.fst) :
    TimersInv { tm with
        queue := (tqueueRemove argsChecks w (Fintype.card α) tm.queue (some t)).1 }
      (fun x => x = t ∨ busy x) (removeDelta t l) := by
  obtain ⟨hinv, -, -⟩ := h.queue.remove argsChecks ht
  obtain ⟨-, -, hframe⟩ := tqueueRemove_spec argsChecks h.queue.rep ht h.queue.length_le
    h.queue.span_lt
  have hmem : ∀ x, x ∈ (removeDelta t l).map Prod.fst ↔ x ≠ t ∧ x ∈ l.map Prod.fst := by
    intro x
    rw [map_fst_removeDelta]
    exact h.queue.rep.chain.nodup.mem_erase_iff
  refine ⟨hinv, Nat.lt_of_le_of_lt (span_removeDelta_le t l) h.span_lt, ?_, ?_, ?_⟩
  · intro x hx hbx hxl
    obtain ⟨hxt, hbx⟩ := not_or.mp hbx
    have hxl' : x ∉ l.map Prod.fst := fun hc => hxl ((hmem x).mpr ⟨hxt, hc⟩)
    exact (hframe.delay x hxl').trans (h.stopped x hx hbx hxl')
  · exact fun x hx => h.known x ((hmem x).mp hx).2
  · rintro x (rfl | hx)
    · exact ⟨fun hc => ((hmem x).mp hc).1 rfl, h.known x ht⟩
    · obtain ⟨hxl, hxk⟩ := h.busy x hx
      exact ⟨fun hc => hxl ((hmem x).mp hc).2, hxk⟩

theorem TimersInv.stop (h : TimersInv tm busy l) :
    TimersInv (kTimerStop argsChecks tm t).1 busy (removeDelta t l) := by
  rw [kTimerStop]
  by_cases hs : delayShift tm.queue.mem t = kTimerStopped w
  · rw [if_pos hs, removeDelta_of_notMem fun hc => h.delay_ne hc hs]
    exact h
  · rw [if_neg hs]
    by_cases ht : t ∈ l.map Prod.fst
    · have h1 := h.remove argsChecks ht
      refine h1.setStopped (h1.busy t (Or.inl rfl)).1 (fun x hx => Or.inr hx) ?_
      exact fun x hxt hx => hx.resolve_left hxt
    · rw [tqueueRemove_absent argsChecks h.queue.rep ht h.queue.length_le, removeDelta_of_notMem ht]
      exact h.setStopped ht (fun _ hx => hx) (fun _ _ hx => hx)

theorem TimersInv.start (h : TimersInv tm busy l) (hk : tm.initialised t = true)
    (d : BitVec w) (hb : busy t → kTimerStarted tm t = true) :
    TimersInv (kTimerStart tm t d).1 busy
      (if kTimerStarted tm t = true ∨ d = allOnes w then l
        else insertDelta t d.toNat l) := by
  rw [kTimerStart]
  by_cases hs : kTimerStarted tm t = true
  · rw [if_pos hs, if_pos (Or.inl hs)]
    exact h
  · rw [if_neg hs]
    by_cases hd : d = allOnes w
    · rw [if_pos hd, if_pos (Or.inr hd)]
      exact h
    · rw [if_neg hd, if_neg (not_or.mpr ⟨hs, hd⟩)]
      have ht : t ∉ l.map Prod.fst := by
        intro hc
        refine hs ?_
        simpa [kTimerStarted] using h.delay_ne hc
      refine h.schedule ht hk hd ?_
      intro x
      refine ⟨fun hx => ⟨?_, hx⟩, fun hx => hx.2⟩
      rintro rfl
      exact hs (hb hx)

omit [Fintype α] in
theorem TimersInv.initialise (h : TimersInv tm busy l) (ht : t ∉ l.map Prod.fst)
    (handler : α → Nat) (timeout : α → BitVec w) :
    TimersInv { tm with
        handler := handler, timeout := timeout
        initialised := update tm.initialised t true }
      (fun x => x = t ∨ busy x) l := by
  have hk : ∀ x, tm.initialised x = true → update tm.initialised t true x = true := by
    intro x hx
    rw [update_apply]
    split_ifs
    · rfl
    · exact hx
  refine ⟨h.queue, h.span_lt, ?_, fun x hx => hk x (h.known x hx), ?_⟩
  · intro x hx hbx hxl
    obtain ⟨hxt, hbx⟩ := not_or.mp hbx
    replace hx : update tm.initialised t true x = true := hx
    rw [update_of_ne hxt] at hx
    exact h.stopped x hx hbx hxl
  · rintro x (rfl | hx)
    · exact ⟨ht, update_self ..⟩
    · obtain ⟨hxl, hxk⟩ := h.busy x hx
      exact ⟨hxl, hk x hxk⟩

/-- `k_timer_init` with a finite period queues the timer. -/
theorem TimersInv.initStart (h : TimersInv tm busy l) (ht : t ∉ l.map Prod.fst)
    (hb : ¬ busy t) {handler : α → Nat} {timeout : α → BitVec w} {d : BitVec w}
    (hd : d ≠ allOnes w) :
    TimersInv (zTimerStart { tm with
        handler := handler, timeout := timeout
        initialised := update tm.initialised t true } t d) busy
      (insertDelta t d.toNat l) := by
  refine (h.initialise ht _ _).schedule ht (update_self ..) hd ?_
  intro x
  refine ⟨fun hx => ⟨?_, Or.inr hx⟩, fun hx => hx.2.resolve_left hx.1⟩
  rintro rfl
  exact hb hx

theorem TimersInv.init (h : TimersInv tm busy l) (ht : t ∉ l.map Prod.fst) (hb : ¬ busy t)
    (handler : Nat) (timeout d : BitVec w)
    (hd : timeout ≠ allOnes w → d ≠ allOnes w) :
    ∃ l', TimersInv (kTimerInit argsChecks tm t handler timeout d).1 busy l' := by
  rw [kTimerInit]
  split_ifs with hz h0 hf
  · exact ⟨l, h⟩
  · exact ⟨l, h⟩
  · exact ⟨_, h.initStart ht hb (hd hf)⟩
  · refine ⟨l, ?_⟩
    have hall : (allOnes w).toNat = kTimerStopped w := toNat_allOnes
    simp only [hall]
    exact (h.initialise ht _ _).setStopped ht (fun x hx => Or.inr hx)
      fun x hxt hx => hx.resolve_left hxt

theorem TimersInv.call {running : Option α}
    (h : TimersInv tm (fun x => running = some x) l) (argsChecks : Bool)
    (c : TimerCall w α) (ha : c.Allowed tm) (hc : c.Careful running tm) :
    ∃ l', TimersInv (c.run argsChecks tm).1 (fun x => running = some x) l' := by
  cases c with
  | init timer handler timeout startingDelay =>
    exact h.init (fun hq => ha (h.queued_iff.mpr hq)) hc.1 handler timeout startingDelay hc.2
  | start timer startingDelay => exact ⟨_, h.start ha startingDelay hc⟩
  | stop timer => exact ⟨_, h.stop⟩

theorem TimersInv.shift (h : TimersInv tm busy l) (ticks : BitVec w) :
    TimersInv (zTimersShift ticks tm) busy (shiftDelta ticks.toNat l) := by
  obtain ⟨hrep, hframe⟩ := tqueueShift_spec h.queue.rep h.queue.length_le ticks.isLt h.queue.span_lt
  have hspan := span_shiftDelta_le ticks.toNat l
  refine ⟨h.queue.of_frame hrep hframe (Nat.lt_of_le_of_lt hspan h.queue.span_lt),
    Nat.lt_of_le_of_lt hspan h.span_lt, ?_, ?_, ?_⟩
  · intro x hx hbx hxl
    rw [map_fst_shiftDelta] at hxl
    exact (hframe.delay x hxl).trans (h.stopped x hx hbx hxl)
  · intro x hx
    rw [map_fst_shiftDelta] at hx
    exact h.known x hx
  · intro x hx
    rw [map_fst_shiftDelta]
    exact h.busy x hx

theorem TimersInv.pop (h : TimersInv tm (fun _ => False) ((t, 0) :: l)) :
    (tqueuePop tm.queue).2 = some t
      ∧ TimersInv { tm with queue := (tqueuePop tm.queue).1 } (fun x => some t = some x)
          l := by
  obtain ⟨hpop, hinv, -⟩ := h.queue.pop
  have ht : t ∉ l.map Prod.fst := (nodup_cons.mp h.queue.rep.chain.nodup).1
  have hmem : (tqueuePop tm.queue).1.mem = tm.queue.mem := by
    rw [(tqueuePop_spec h.queue.rep).1]
  have hlt := h.span_lt
  have hspan : span ((t, 0) :: l) = 0 + span l := rfl
  refine ⟨hpop, hinv, by omega, ?_, ?_, ?_⟩
  · intro x hx hbx hxl
    have hxt : x ≠ t := fun hc => hbx (by rw [hc])
    show delayShift (tqueuePop tm.queue).1.mem x = _
    rw [hmem]
    exact h.stopped x hx id fun hc => (mem_cons.mp hc).elim hxt hxl
  · exact fun x hx => h.known x (mem_cons_of_mem t hx)
  · intro x hx
    injection hx with hx
    subst hx
    exact ⟨ht, h.known t mem_cons_self⟩

theorem TimersInv.pop_none (h : TimersInv tm busy l) (hl : ∀ a l', l ≠ (a, 0) :: l') :
    tqueuePop tm.queue = (tm.queue, none) := (h.queue.pop_none hl).1

theorem TimersInv.reschedule (h : TimersInv tm (fun x => some t = some x) l) {ret : Int}
    (hr : CarefulReturn tm t ret) :
    TimersInv (zTimerReschedule tm t ret) (fun _ => False)
      (if ret ≠ 0 ∨ delayShift tm.queue.mem t = kTimerStopped w then l
        else insertDelta t (tm.timeout t).toNat l) := by
  obtain ⟨ht, hk⟩ := h.busy t rfl
  have hne : ∀ x, x ≠ t → some t ≠ some x := fun x hx hc => hx (Option.some.inj hc).symm
  have hstop : TimersInv (tm.setTie t (kTimerStopped w)) (fun _ => False) l :=
    h.setStopped ht (fun _ hx => hx.elim) fun x hxt hx => absurd hx (hne x hxt)
  by_cases h0 : ret ≠ 0
  · have hset : zTimerReschedule tm t ret = tm.setTie t (kTimerStopped w) := by
      have hd : delayShift (tm.setTie t (kTimerStopped w)).queue.mem t = kTimerStopped w := by
        show delayShift (setDelayShift tm.queue.mem t (kTimerStopped w)) t = _
        rw [delayShift_setDelayShift, update_self]
      simp only [zTimerReschedule, if_pos h0, hd, ne_eq, not_true_eq_false, if_false]
    rw [hset, if_pos (Or.inl h0)]
    exact hstop
  · by_cases hs : delayShift tm.queue.mem t = kTimerStopped w
    · have hset : zTimerReschedule tm t ret = tm := by
        simp only [zTimerReschedule, if_neg h0, hs, ne_eq, not_true_eq_false, if_false]
      rw [hset, if_pos (Or.inr hs)]
      refine ⟨h.queue, h.span_lt, ?_, h.known, fun _ hx => hx.elim⟩
      intro x hx _ hxl
      by_cases hxt : x = t
      · rw [hxt]
        exact hs
      · exact h.stopped x hx (hne x hxt) hxl
    · have hset : zTimerReschedule tm t ret = zTimerStart tm t (tm.timeout t) := by
        simp only [zTimerReschedule, if_neg h0, if_pos hs]
        rfl
      have hd : tm.timeout t ≠ allOnes w := by
        intro hc
        exact (hr hc).elim h0 hs
      rw [hset, if_neg (not_or.mpr ⟨h0, hs⟩)]
      refine h.schedule ht hk hd fun x => ⟨fun hx => hx.elim, ?_⟩
      rintro ⟨hxt, hx⟩
      exact absurd hx (hne x hxt)

/-- **A HANDLER**. -/
theorem TimersInv.script (h : TimersInv tm (fun x => some t = some x) l)
    {calls : List (TimerCall w α)}
    (hc : Allowed (fun tm (c : TimerCall w α) => c.Allowed tm ∧ c.Careful (some t) tm)
      (fun tm c => (c.run argsChecks tm).1) tm calls) :
    ∃ l', TimersInv (calls.foldl (fun tm c => (c.run argsChecks tm).1) tm)
      (fun x => some t = some x) l' := by
  induction calls generalizing tm l with
  | nil => exact ⟨l, h⟩
  | cons c calls ih =>
    obtain ⟨⟨ha, hcare⟩, hrest⟩ := hc
    obtain ⟨l', h'⟩ := h.call argsChecks c ha hcare
    exact ih h' hrest

theorem TimersInv.loop {script : Nat → α → Script w α} {fuel : Nat}
    (h : TimersInv tm (fun _ => False) l)
    (hok : HandlersOk argsChecks careful script fuel tm) :
    ∃ l', TimersInv (zTimersLoop (fun n tm timer => (script n timer).run argsChecks tm)
      fuel tm).1 (fun _ => False) l' := by
  induction fuel generalizing tm l with
  | zero =>
    have hnone : (tqueuePop tm.queue).2 = none := hok
    have hl : ∀ a l', l ≠ (a, 0) :: l' := by
      rintro a l' rfl
      rw [h.pop.1] at hnone
      exact nomatch hnone
    simp only [zTimersLoop, h.pop_none hl]
    exact ⟨l, h⟩
  | succ fuel ih =>
    by_cases hl : ∃ a l', l = (a, 0) :: l'
    · obtain ⟨a, l', rfl⟩ := hl
      obtain ⟨hpop, hinv⟩ := h.pop
      obtain ⟨hcalls, hret, hrest⟩ := hok a hpop
      obtain ⟨l₁, h₁⟩ := hinv.script hcalls
      simp only [zTimersLoop, hpop]
      exact ih (h₁.reschedule hret) hrest
    · have hl' : ∀ a l', l ≠ (a, 0) :: l' := fun a l' hc => hl ⟨a, l', hc⟩
      simp only [zTimersLoop, h.pop_none hl']
      exact ⟨l, h⟩

/-- **ONE OPERATION** keeps the invariant. -/
theorem TimersInv.step (h : TimersInv tm (fun _ => False) l) (op : TimerOp w α)
    (hok : op.Ok argsChecks ticks careful tm) :
    ∃ l', TimersInv (op.run argsChecks ticks tm) (fun _ => False) l' := by
  cases op with
  | call c =>
    have hb : (fun _ : α => False) = fun x => (none : Option α) = some x := by
      funext x
      exact propext ⟨fun hc => hc.elim, fun hc => nomatch hc⟩
    rw [hb] at h ⊢
    exact h.call argsChecks c hok.1 hok.2
  | process fuel script => exact (h.shift ticks).loop hok

omit [Fintype α] in
theorem TimersBoot.inv (h : TimersBoot tm) (hw : 0 < kTimerStopped w) :
    TimersInv tm (fun _ => False) [] := by
  refine ⟨⟨⟨h.root, fun e he => nomatch he⟩, Nat.two_pow_pos w, h.wrapped, h.stuck⟩, hw,
    fun t ht _ _ => h.stopped t ht, fun t ht => (nomatch ht), fun t ht => ht.elim⟩

omit [Fintype α] in
theorem TimersInv.startedIffQueued (h : TimersInv tm (fun _ => False) l) : StartedIffQueued tm := by
  refine ⟨l.map Prod.fst, h.queue.rep.chain, h.queue.rep.chain.nodup, h.known, ?_⟩
  intro t ht
  by_cases hmem : t ∈ l.map Prod.fst
  · have hs : kTimerStarted tm t = true := by
      simpa [kTimerStarted] using h.delay_ne hmem
    rw [if_pos hs]
    exact count_eq_one_of_mem h.queue.rep.chain.nodup hmem
  · have hs : kTimerStarted tm t = false := by
      simpa [kTimerStarted] using h.stopped t ht id hmem
    rw [hs, count_eq_zero_of_not_mem hmem]
    rfl

/-- **STARTED MEANS QUEUED**: in a careful run a timer is in the queue exactly if
    `k_timer_started` returns true. -/
theorem timers_started_iff_queued (hw : 0 < w)
    (h : TimerReach argsChecks ticks careful tm) : StartedIffQueued tm := by
  have hpos : 0 < kTimerStopped w := by
    have h2 : 2 ^ 1 ≤ 2 ^ w := Nat.pow_le_pow_right (by decide) hw
    rw [kTimerStopped]
    omega
  suffices hinv : ∃ l, TimersInv tm (fun _ => False) l by
    obtain ⟨l, hl⟩ := hinv
    exact hl.startedIffQueued
  refine Reach.invariant
    (P := fun tm : Timers w α => ∃ l, TimersInv tm (fun _ => False) l) h ?_ ?_
  · exact fun tm hb => ⟨[], hb.inv hpos⟩
  · rintro tm op ⟨l, hl⟩ hok
    exact hl.step op hok

def timersBoot : Timers 16 (Fin 2) where
  queue := ⟨fun _ => ⟨0, none⟩, none, false, false⟩
  timeout := fun _ => 0
  handler := fun _ => 0
  initialised := fun _ => false

theorem timersBoot_boot : TimersBoot timersBoot := ⟨rfl, rfl, rfl, fun _ hc => nomatch hc⟩

def stoppedByOther : Timers 16 (Fin 2) :=
  ([.call (.init 0 1 2 1), .call (.init 1 1 (allOnes 16) 0), .call (.start 1 3),
    .process 2 fun _ _ => ⟨[.stop 1], 0⟩] : List (TimerOp 16 (Fin 2))).foldl
      (TimerOp.run true 1) timersBoot

theorem timers_started_iff_queued_stoppedByOther :
    StartedIffQueued stoppedByOther ∧ remaining stoppedByOther.queue = [(0, 2)] := by
  have hreach : TimerReach true 1 careful stoppedByOther :=
    Reach.foldl (.start timersBoot_boot) (by decide)
  exact ⟨timers_started_iff_queued (by decide) hreach, by decide⟩

/-- No condition. -/
def anyCond : Cond w α := ⟨fun _ _ _ => True, fun _ _ _ => True⟩

instance (running : Option α) (tm : Timers w α) (c : TimerCall w α) :
    Decidable (anyCond.call running tm c) := isTrue trivial

instance (tm : Timers w α) (timer : α) (ret : Int) :
    Decidable (anyCond.ret tm timer ret) := isTrue trivial

def dueNever : Timers 16 (Fin 2) :=
  ([.call (.init 0 1 2 (allOnes 16))] : List (TimerOp 16 (Fin 2))).foldl
    (TimerOp.run true 1) timersBoot

def queuedTwice : Timers 16 (Fin 2) :=
  ([.call (.init 0 1 2 1), .call (.init 1 1 5 4),
    .process 2 fun _ _ => ⟨[.stop 0, .start 0 3], 0⟩] : List (TimerOp 16 (Fin 2))).foldl
      (TimerOp.run true 1) timersBoot

omit [DecidableEq α] [Fintype α] in
theorem not_chain_of_cycle {next : α → Option α} {a b : α} {l : List α}
    (ha : next a = some b) (hb : next b = some a) : ¬ Chain next (some a) l := by
  intro h
  have hnd := h.nodup
  obtain ⟨u, rfl, hu⟩ := h.exists_cons
  rw [ha] at hu
  obtain ⟨v, rfl, hv⟩ := hu.exists_cons
  rw [hb] at hv
  obtain ⟨x, rfl, -⟩ := hv.exists_cons
  simp at hnd

/-- **QUEUED AND STOPPED, QUEUED TWICE**: `k_timer_started` denies timer 0; then it is queued
    before and behind timer 1. -/
theorem timers_started_and_not_queued :
    TimerReach true 1 anyCond dueNever ∧ dueNever.queue.root = some 0
      ∧ kTimerStarted dueNever 0 = false ∧ ¬ StartedIffQueued dueNever
      ∧ TimerReach true 1 anyCond queuedTwice ∧ queuedTwice.queue.root = some 0
      ∧ nextItem queuedTwice.queue.mem (0 : Fin 2) = some 1
      ∧ nextItem queuedTwice.queue.mem (1 : Fin 2) = some 0 ∧ ¬ StartedIffQueued queuedTwice := by
  have h1 : TimerReach true 1 anyCond dueNever :=
    Reach.foldl (.start timersBoot_boot) (by decide)
  have h2 : TimerReach true 1 anyCond queuedTwice :=
    Reach.foldl (.start timersBoot_boot) (by decide)
  refine ⟨h1, by decide, by decide, ?_, h2, by decide, by decide, by decide, ?_⟩
  · rintro ⟨l, hchain, -, -, hcount⟩
    have hend : nextItem dueNever.queue.mem (0 : Fin 2) = none := by decide
    have hl : l = [0] := hchain.unique (v := [0]) ⟨by decide, hend⟩
    have h0 := hcount 0 (by decide)
    rw [hl] at h0
    exact absurd h0 (by decide)
  · rintro ⟨l, hchain, -⟩
    have hroot : queuedTwice.queue.root = some 0 := by decide
    rw [hroot] at hchain
    exact not_chain_of_cycle (b := 1) (by decide) (by decide) hchain

end Inv

end AvrtosTimer
