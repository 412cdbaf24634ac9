import Avrtos.TqueueDeadlines

/-! # `event.c`: one-shot events

    The functions on the time queue, and the invariant `EventsRep` that they keep. -/

namespace AvrtosEvent

open Function AvrtosDefines AvrtosTqueue Cells LinkedChain DeltaList

structure EventConfig (w : Nat) where
  /-- `Z_EVENTS_PERIOD_TICKS` -/
  periodTicks : BitVec w
  /-- `CONFIG_KERNEL_ARGS_CHECKS` -/
  argsChecks : Bool
  /-- `CONFIG_KERNEL_EVENTS_ALLOW_NO_WAIT` -/
  allowNoWait : Bool

structure Events (α ω : Type) where
  /-- `z_event_q.first`, with the `tie` of every event -/
  queue : TQueue (α → TItem α) α
  scheduled : α → Bool
  world : ω

variable {w : Nat} {α ω : Type} [DecidableEq α] [Fintype α]

/-- `z_event_schedule`. -/
def zEventSchedule (ev : Events α ω) (event : α) (timeout : BitVec w) : Events α ω :=
  { ev with
    scheduled := update ev.scheduled event true
    queue := tqueueSchedule w (Fintype.card α) ev.queue (some event) timeout.toNat }

variable (cfg : EventConfig w)

/-- `z_event_reschedule`. -/
def zEventReschedule (ev : Events α ω) (event : α) (timeout : BitVec w) : Events α ω :=
  { ev with
    queue := (tqueueReschedule cfg.argsChecks w (Fintype.card α) ev.queue (some event)
      timeout.toNat).1 }

/-- `k_event_schedule`. -/
def kEventSchedule (handler : Events α ω → Events α ω) (ev : Events α ω) (event : α)
    (timeout : BitVec w) : Events α ω × Int :=
  if !cfg.allowNoWait && !zUser cfg.argsChecks (timeout ≠ 0) then (ev, -EINVAL)
  else if ev.scheduled event then (ev, -EAGAIN)
  else if cfg.allowNoWait && timeout = 0 then (handler ev, 0)
  else (zEventSchedule ev event timeout, 0)

/-- `k_event_cancel`. -/
def kEventCancel (ev : Events α ω) (event : α) : Events α ω × Int :=
  if !ev.scheduled event then (ev, -EAGAIN)
  else
    let ev := { ev with
      queue := (tqueueRemove cfg.argsChecks w (Fintype.card α) ev.queue (some event)).1 }
    ({ ev with scheduled := update ev.scheduled event false }, 0)

def zEventQShift (ev : Events α ω) : Events α ω :=
  { ev with queue := tqueueShift w (Fintype.card α) ev.queue cfg.periodTicks.toNat }

def zEventQLoop (handler : Nat → α → Events α ω → Events α ω) :
    Nat → Events α ω → Events α ω × Bool
  | 0, ev =>
      let r := tqueuePop ev.queue
      match r.2 with
      | none => ({ ev with queue := r.1 }, true)
      | some _ => (ev, false)
  | fuel + 1, ev =>
      let r := tqueuePop ev.queue
      let ev := { ev with queue := r.1 }
      match r.2 with
      | none => (ev, true)
      | some event =>
          -- clear the scheduled flag to allow rescheduling from the handler
          let ev := { ev with scheduled := update ev.scheduled event false }
          zEventQLoop handler fuel (handler fuel event ev)

/-- `z_event_q_process`. -/
def zEventQProcess (handler : Nat → α → Events α ω → Events α ω) (ev : Events α ω) :
    Events α ω × Bool :=
  zEventQLoop handler (Fintype.card α) (zEventQShift cfg ev)

structure EventsRep (w : Nat) (ev : Events α ω) (l : List (α × Nat)) : Prop where
  queue : TqInv w ev.queue l
  flag : ∀ e, ev.scheduled e = true ↔ e ∈ l.map Prod.fst

section Rep

variable {cfg} {ev : Events α ω} {l : List (α × Nat)} {e x : α}

omit [Fintype α] in
theorem EventsRep.notMem (h : EventsRep w ev l) (he : ev.scheduled e = false) :
    e ∉ l.map Prod.fst := by
  rw [← h.flag, he]
  exact Bool.false_ne_true

omit [Fintype α] in
theorem EventsRep.setWorld {ω' : Type} (h : EventsRep w ev l) (world : ω') :
    EventsRep w (⟨ev.queue, ev.scheduled, world⟩ : Events α ω') l := ⟨h.queue, h.flag⟩

omit [Fintype α] in
theorem update_flag_iff {flag : α → Bool} {b : Bool} {S S' : α → Prop}
    (h : ∀ x, flag x = true ↔ S x) (hb : b = true ↔ S' e)
    (hS : ∀ x, x ≠ e → (S' x ↔ S x)) (x : α) :
    update flag e b x = true ↔ S' x := by
  by_cases hx : x = e
  · rw [hx, update_self]
    exact hb
  · rw [update_of_ne hx, h, hS x hx]

omit [Fintype α] in
theorem EventsRep.mem_removeDelta (h : EventsRep w ev l) :
    x ∈ (removeDelta e l).map Prod.fst ↔ x ≠ e ∧ x ∈ l.map Prod.fst := by
  rw [map_fst_removeDelta]
  exact h.queue.rep.chain.nodup.mem_erase_iff

theorem EventsRep.schedule (h : EventsRep w ev l) (he : ev.scheduled e = false)
    (timeout : BitVec w) :
    EventsRep w (zEventSchedule ev e timeout) (insertDelta e timeout.toNat l) := by
  refine ⟨(h.queue.schedule (h.notMem he) timeout).1, ?_⟩
  refine update_flag_iff h.flag ?_ ?_
  · exact ⟨fun _ => mem_insertDelta.mpr (Or.inl rfl), fun _ => rfl⟩
  · intro x hx
    rw [mem_insertDelta]
    exact ⟨fun hc => hc.resolve_left hx, Or.inr⟩

theorem EventsRep.reschedule (h : EventsRep w ev l) (he : ev.scheduled e = true)
    (timeout : BitVec w) :
    EventsRep w (zEventReschedule cfg ev e timeout)
      (insertDelta e timeout.toNat (removeDelta e l)) := by
  have hmem := (h.flag e).mp he
  obtain ⟨hinv, hret, -⟩ := h.queue.remove cfg.argsChecks hmem
  have hout : e ∉ (removeDelta e l).map Prod.fst := fun hc => (h.mem_removeDelta.mp hc).1 rfl
  have hq : (zEventReschedule cfg ev e timeout).queue = tqueueSchedule w (Fintype.card α)
          (tqueueRemove cfg.argsChecks w (Fintype.card α) ev.queue (some e)).1 (some e)
          timeout.toNat := by
    simp only [zEventReschedule, tqueueReschedule, hret, ne_eq, not_true_eq_false, if_false]
  refine ⟨?_, ?_⟩
  · rw [hq]
    exact (hinv.schedule hout timeout).1
  · intro x
    show ev.scheduled x = true ↔ _
    rw [h.flag, mem_insertDelta, h.mem_removeDelta]
    by_cases hx : x = e
    · rw [hx]
      exact ⟨fun _ => Or.inl rfl, fun _ => hmem⟩
    · exact ⟨fun hc => Or.inr ⟨hx, hc⟩, fun hc => (hc.resolve_left hx).2⟩

theorem EventsRep.cancel (h : EventsRep w ev l) (cfg : EventConfig w) (he : ev.scheduled e = true) :
    (kEventCancel cfg ev e).2 = 0 ∧ EventsRep w (kEventCancel cfg ev e).1 (removeDelta e l)
      ∧ (kEventCancel cfg ev e).1.world = ev.world := by
  have hmem := (h.flag e).mp he
  obtain ⟨hinv, -, -⟩ := h.queue.remove cfg.argsChecks hmem
  simp only [kEventCancel, he, Bool.not_true, Bool.false_eq_true, if_false]
  refine ⟨trivial, ⟨hinv, ?_⟩, trivial⟩
  refine update_flag_iff h.flag ?_ ?_
  · exact ⟨fun hc => absurd hc Bool.false_ne_true, fun hc => absurd rfl (h.mem_removeDelta.mp hc).1⟩
  · intro x hx
    rw [h.mem_removeDelta]
    exact ⟨fun hc => hc.2, fun hc => ⟨hx, hc⟩⟩

theorem kEventCancel_idle (cfg : EventConfig w) (he : ev.scheduled e = false) :
    kEventCancel cfg ev e = (ev, -EAGAIN) := by
  simp only [kEventCancel, he, Bool.not_false, if_true]

theorem EventsRep.shift (h : EventsRep w ev l) :
    EventsRep w (zEventQShift cfg ev) (shiftDelta cfg.periodTicks.toNat l) := by
  obtain ⟨hrep, hframe⟩ := tqueueShift_spec h.queue.rep h.queue.length_le
    cfg.periodTicks.isLt h.queue.span_lt
  refine ⟨h.queue.of_frame hrep hframe ?_, ?_⟩
  · exact Nat.lt_of_le_of_lt (span_shiftDelta_le _ l) h.queue.span_lt
  · intro x
    rw [map_fst_shiftDelta]
    exact h.flag x

theorem EventsRep.pop (h : EventsRep w ev ((e, 0) :: l)) : (tqueuePop ev.queue).2 = some e
      ∧ EventsRep w { ev with
          queue := (tqueuePop ev.queue).1
          scheduled := update ev.scheduled e false } l := by
  obtain ⟨hpop, hinv, -⟩ := h.queue.pop
  have hel : e ∉ l.map Prod.fst := (List.nodup_cons.mp h.queue.rep.chain.nodup).1
  refine ⟨hpop, hinv, ?_⟩
  refine update_flag_iff h.flag ?_ ?_
  · exact ⟨fun hc => absurd hc Bool.false_ne_true, fun hc => absurd hc hel⟩
  · intro x hx
    rw [List.map_cons, List.mem_cons]
    exact ⟨Or.inr, fun hc => hc.resolve_left hx⟩

theorem EventsRep.pop_none (h : EventsRep w ev l) (hl : ∀ a l', l ≠ (a, 0) :: l') :
    tqueuePop ev.queue = (ev.queue, none) := (h.queue.pop_none hl).1

end Rep

end AvrtosEvent
