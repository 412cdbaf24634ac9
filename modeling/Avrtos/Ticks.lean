import Avrtos.Boot
import Avrtos.Event
import Avrtos.Timer

/-! # The tick interrupt

    The slice counts down, `z_sched_enter` runs, and the vector may jump to `z_yield`. -/

namespace AvrtosTicks

open Function List AvrtosDefines AvrtosDlist AvrtosTqueue AvrtosKernel AvrtosTimer AvrtosEvent
open Cells LinkedRing LinkedChain DeltaList

variable {Tid Qid Pid D τ ε : Type} [Threads Tid]
variable [DecidableEq Qid] [DecidableEq Pid] [DecidableEq τ] [Fintype τ]
variable [DecidableEq ε] [Fintype ε]

structure TickConfig (Tid Qid : Type) [Fintype Tid] extends Config Tid Qid where
  /-- `Z_KERNEL_TIME_SLICE_MULTIPLE_TICKS` -/
  multipleTicks : Bool
  /-- `CONFIG_KERNEL_COOPERATIVE_THREADS` -/
  coopThreads : Bool
  slice_pos : 0 < sliceTicks.toNat
  slice_lt : sliceTicks.toNat < 256
  single : multipleTicks = false → sliceTicks.toNat = 1

section Countdown

variable (cfg : TickConfig Tid Qid)

/-- `sched_ticks_remaining` after a tick, and whether the slice is over. -/
def countTick (remaining : BitVec 8) : BitVec 8 × Bool :=
  if cfg.multipleTicks then (remaining - 1, remaining - 1 = 0) else (remaining, true)

/-- `sched_ticks_remaining` after `z_sched_enter`. -/
def reload (remaining : BitVec 8) : BitVec 8 :=
  if cfg.multipleTicks then cfg.sliceTicks.setWidth 8 else remaining

def ticksLeft (remaining : BitVec 8) : Nat :=
  if cfg.multipleTicks then remaining.toNat else 1

variable {cfg} {remaining : BitVec 8}

omit [DecidableEq Qid] in
theorem countTick_within (h : 1 < ticksLeft cfg remaining) : (countTick cfg remaining).2 = false
      ∧ ticksLeft cfg (countTick cfg remaining).1 + 1 = ticksLeft cfg remaining := by
  unfold ticksLeft at h
  unfold countTick ticksLeft
  split_ifs at h ⊢ with hm
  · have hsub : (remaining - 1).toNat + 1 = remaining.toNat := by bv_omega
    refine ⟨decide_eq_false fun hc => ?_, hsub⟩
    rw [hc] at hsub
    exact absurd (hsub.trans_gt h) (by decide)
  · exact absurd h (Nat.lt_irrefl 1)

omit [DecidableEq Qid] in
theorem countTick_last (h : ticksLeft cfg remaining = 1) : (countTick cfg remaining).2 = true := by
  unfold ticksLeft at h
  unfold countTick
  split_ifs at h ⊢ with hm
  · exact decide_eq_true (by bv_omega)
  · rfl

omit [DecidableEq Qid] in
theorem ticksLeft_reload : ticksLeft cfg (reload cfg remaining) = cfg.sliceTicks.toNat := by
  unfold ticksLeft reload
  split_ifs with hm
  · rw [BitVec.toNat_setWidth]
    exact Nat.mod_eq_of_lt cfg.slice_lt
  · exact (cfg.single (Bool.eq_false_iff.mpr hm)).symm

end Countdown

structure TickSys (Pid D τ ε : Type) (cfg : TickConfig Tid Qid) where
  ker : Kernel Tid Qid Pid D
  remaining : BitVec 8
  /-- `Z_THREAD_PRIO_COOP` -/
  coop : Tid → Bool
  /-- `Z_THREAD_SCHED_LOCKED_MSK` -/
  locked : Tid → Bool
  timers : Timers cfg.deltaBits τ
  events : Events ε Unit

structure Handlers (w : Nat) (τ ε : Type) where
  timer : Nat → Timers w τ → τ → Timers w τ × Int
  event : Nat → ε → Events ε Unit → Events ε Unit
  fuel : Nat

variable {cfg : TickConfig Tid Qid}

def TickConfig.events (cfg : TickConfig Tid Qid) : EventConfig cfg.deltaBits where
  periodTicks := cfg.sliceTicks
  argsChecks := cfg.argsChecks
  allowNoWait := false

/-- `z_sched_enter` with the timers and the events. -/
def TickSys.schedEnter (hd : Handlers cfg.deltaBits τ ε) (s : TickSys Pid D τ ε cfg) :
    TickSys Pid D τ ε cfg :=
  { s with
    ker := zSchedEnter cfg.toConfig s.ker
    remaining := reload cfg s.remaining
    timers := (zTimersProcess cfg.sliceTicks hd.timer hd.fuel s.timers).1
    events := (zEventQProcess cfg.events hd.event s.events).1 }

def TickSys.slice (hd : Handlers cfg.deltaBits τ ε) (s : TickSys Pid D τ ε cfg) :
    TickSys Pid D τ ε cfg :=
  let s := s.schedEnter hd
  if cfg.coopThreads then
    -- the scheduler is locked: do not switch thread
    if s.coop s.ker.current || s.locked s.ker.current then s
    else { s with ker := zScheduler s.ker }
  else s

/-- `TIMERn_COMPA_vect`. -/
def TickSys.tick (hd : Handlers cfg.deltaBits τ ε) (s : TickSys Pid D τ ε cfg) :
    TickSys Pid D τ ε cfg :=
  let r := countTick cfg s.remaining
  let s := { s with remaining := r.1 }
  if r.2 then s.slice hd else s

section Quiet

theorem tqueueShift_of_empty {α : Type} {q : TQueue (α → TItem α) α} [DecidableEq α]
    (w fuel t : Nat) (h : q.root = none) : tqueueShift w fuel q t = q := by
  have hderef : q.deref .root = none := h
  cases fuel with
  | zero => simp only [tqueueShift, tqueueShiftLoop, hderef]
  | succ fuel => simp only [tqueueShift, tqueueShiftLoop, hderef]

theorem tqueuePop_of_empty {α : Type} {q : TQueue (α → TItem α) α} [DecidableEq α]
    (h : q.root = none) : tqueuePop q = (q, none) := by
  simp only [tqueuePop, h]

theorem zSchedEnter_quiet {cfg : Config Tid Qid} {k : Kernel Tid Qid Pid D}
    {ring : List Tid} (h : SchedRep cfg k ring []) : zSchedEnter cfg k = k := by
  have hroot : k.timeoutsQueue = none := h.timeouts.chain
  have hshift : tqueueShift cfg.deltaBits (Fintype.card Tid) k.timeouts
      cfg.sliceTicks.toNat = k.timeouts := by
    have hderef : k.timeouts.deref .root = none := hroot
    cases Fintype.card Tid with
    | zero => simp only [tqueueShift, tqueueShiftLoop, hderef]
    | succ fuel => simp only [tqueueShift, tqueueShiftLoop, hderef]
  have hpop := tqueuePop_nil h.timeouts
  have hset : k.setTimeouts k.timeouts = k := rfl
  rw [zSchedEnter, hshift, hset]
  cases Fintype.card Tid with
  | zero => simp only [zSchedEnterLoop, hpop, hset]
  | succ n => simp only [zSchedEnterLoop, hpop, hset]

theorem zTimersProcess_quiet {w : Nat} {tm : Timers w τ} (ticks : BitVec w)
    (handler : Nat → Timers w τ → τ → Timers w τ × Int) (fuel : Nat)
    (h : tm.queue.root = none) : (zTimersProcess ticks handler fuel tm).1 = tm := by
  have hshift : zTimersShift ticks tm = tm := by
    rw [zTimersShift, tqueueShift_of_empty _ _ _ h]
  rw [zTimersProcess, hshift]
  cases fuel with
  | zero => simp only [zTimersLoop, tqueuePop_of_empty h]
  | succ fuel => simp only [zTimersLoop, tqueuePop_of_empty h]

theorem zEventQProcess_quiet {w : Nat} {ev : Events ε Unit} (cfg : EventConfig w)
    (handler : Nat → ε → Events ε Unit → Events ε Unit) (h : ev.queue.root = none) :
    (zEventQProcess cfg handler ev).1 = ev := by
  have hshift : zEventQShift cfg ev = ev := by
    rw [zEventQShift, tqueueShift_of_empty _ _ _ h]
  rw [zEventQProcess, hshift]
  cases Fintype.card ε with
  | zero => simp only [zEventQLoop, tqueuePop_of_empty h]
  | succ n => simp only [zEventQLoop, tqueuePop_of_empty h]

end Quiet

/-- A slice begins. -/
structure SliceStart (s : TickSys Pid D τ ε cfg) (ring : List Tid) : Prop where
  sched : SchedRep cfg.toConfig s.ker ring []
  current : ring.head? = some s.ker.current
  ready : ∀ t ∈ ring, (s.ker.thread t).state = .ready
  preemptive : ∀ t ∈ ring, s.coop t = false ∧ s.locked t = false
  timers : s.timers.queue.root = none
  events : s.events.queue.root = none
  remaining : ticksLeft cfg s.remaining = cfg.sliceTicks.toNat

section Slices

variable (hd : Handlers cfg.deltaBits τ ε) {s : TickSys Pid D τ ε cfg} {ring : List Tid}

def afterSlices (cfg : TickConfig Tid Qid) (n : Nat) (ring : List Tid) : List Tid :=
  if cfg.coopThreads then ring.rotate n else ring

/-- A tick within the slice only counts. -/
theorem TickSys.tick_within (h : 1 < ticksLeft cfg s.remaining) :
    s.tick hd = { s with remaining := (countTick cfg s.remaining).1 } := by
  simp only [TickSys.tick, (countTick_within h).1, Bool.false_eq_true, if_false]

theorem TickSys.ticks_within {j : Nat} (hj : j < ticksLeft cfg s.remaining) :
    ∃ remaining, (TickSys.tick hd)^[j] s = { s with remaining := remaining }
      ∧ ticksLeft cfg remaining + j = ticksLeft cfg s.remaining := by
  induction j with
  | zero => exact ⟨s.remaining, rfl, rfl⟩
  | succ j ih =>
    obtain ⟨remaining, hs, hleft⟩ := ih (Nat.lt_of_succ_lt hj)
    have hone : 1 < ticksLeft cfg remaining := by omega
    have hcount := (countTick_within hone).2
    refine ⟨(countTick cfg remaining).1, ?_, by omega⟩
    rw [iterate_succ_apply', hs]
    exact TickSys.tick_within hd hone

omit [DecidableEq Qid] [DecidableEq Pid] [DecidableEq τ] [Fintype τ] [DecidableEq ε] [Fintype ε] in
theorem SliceStart.mem_current (h : SliceStart s ring) : s.ker.current ∈ ring :=
  mem_of_mem_head? (Option.mem_def.mpr h.current)

theorem SliceStart.slice (h : SliceStart s ring) (remaining : BitVec 8) :
    SliceStart (TickSys.slice hd { s with remaining := remaining }) (afterSlices cfg 1 ring) := by
  have hker := zSchedEnter_quiet h.sched
  have htimers := zTimersProcess_quiet cfg.sliceTicks hd.timer hd.fuel h.timers
  have hevents := zEventQProcess_quiet cfg.events hd.event h.events
  have henter : TickSys.schedEnter hd { s with remaining := remaining }
      = { s with remaining := reload cfg remaining } := by
    simp only [TickSys.schedEnter, hker, htimers, hevents]
  obtain ⟨hcoop, hlocked⟩ := h.preemptive _ h.mem_current
  rw [TickSys.slice, henter, afterSlices]
  cases hc : cfg.coopThreads with
  | false => exact ⟨h.sched, h.current, h.ready, h.preemptive, h.timers, h.events, ticksLeft_reload⟩
  | true =>
    simp only [hcoop, hlocked, Bool.or_self, Bool.false_eq_true, if_false, if_true]
    have hr := h.ready _ h.mem_current
    obtain ⟨hsched, hcur⟩ := zScheduler_sched h.sched (fun _ => ne_nil_of_mem h.mem_current)
    rw [if_pos hr] at hsched
    refine ⟨hsched, ?_, ?_, ?_, h.timers, h.events, ticksLeft_reload⟩
    · have hne : ring.rotate 1 ≠ [] := by
        rw [Ne, rotate_eq_nil_iff]
        exact ne_nil_of_mem h.mem_current
      show _ = some (zScheduler s.ker).current
      rw [hcur, hsched.runQueue]
      obtain ⟨a, l, hl⟩ := exists_cons_of_ne_nil hne
      rw [hl]
      rfl
    · intro t ht
      show ((zScheduler s.ker).thread t).state = .ready
      rw [zScheduler_thread, update_apply]
      split_ifs with hx
      · exact hr
      · exact h.ready t (mem_rotate.mp ht)
    · exact fun t ht => h.preemptive t (mem_rotate.mp ht)

theorem SliceStart.ticks (h : SliceStart s ring) :
    SliceStart ((TickSys.tick hd)^[cfg.sliceTicks.toNat] s) (afterSlices cfg 1 ring) := by
  obtain ⟨n, hn⟩ : ∃ n, cfg.sliceTicks.toNat = n + 1 :=
    Nat.exists_eq_succ_of_ne_zero (Nat.pos_iff_ne_zero.mp cfg.slice_pos)
  obtain ⟨remaining, hs, hleft⟩ := TickSys.ticks_within hd (s := s) (j := n)
    (by rw [h.remaining]; omega)
  have hlast : ticksLeft cfg remaining = 1 := by
    rw [h.remaining] at hleft
    omega
  rw [hn, iterate_succ_apply', hs, TickSys.tick]
  simp only [countTick_last hlast, if_true]
  exact h.slice hd _

theorem SliceStart.slices (h : SliceStart s ring) (n : Nat) :
    SliceStart ((TickSys.tick hd)^[cfg.sliceTicks.toNat * n] s) (afterSlices cfg n ring) := by
  induction n with
  | zero =>
    have hring : afterSlices cfg 0 ring = ring := by
      unfold afterSlices
      split_ifs
      · exact rotate_zero ring
      · rfl
    rw [hring]
    exact h
  | succ n ih =>
    have hring : afterSlices cfg (n + 1) ring = afterSlices cfg 1 (afterSlices cfg n ring) := by
      unfold afterSlices
      split_ifs
      · exact (rotate_rotate ring n 1).symm
      · rfl
    rw [hring, Nat.mul_succ, Nat.add_comm, iterate_add_apply]
    exact ih.ticks hd

theorem SliceStart.running (h : SliceStart s ring) (m : Nat) :
    (afterSlices cfg (m / cfg.sliceTicks.toNat) ring).head?
      = some ((TickSys.tick hd)^[m] s).ker.current := by
  have hstart := h.slices hd (m / cfg.sliceTicks.toNat)
  have hm : m = m % cfg.sliceTicks.toNat
      + cfg.sliceTicks.toNat * (m / cfg.sliceTicks.toNat) := (Nat.mod_add_div m _).symm
  obtain ⟨remaining, hs, -⟩ := TickSys.ticks_within hd (j := m % cfg.sliceTicks.toNat)
    (by rw [hstart.remaining]; exact Nat.mod_lt m cfg.slice_pos)
  conv_rhs => rw [hm, iterate_add_apply, hs]
  exact hstart.current

/-- **TIME SLICING** rotates through the READY threads exactly when threads can be
    cooperative, or when there is only one thread. -/
theorem time_slices_rotate_iff (h : SliceStart s ring) :
    (∀ m, ring[m / cfg.sliceTicks.toNat % ring.length]?
        = some ((TickSys.tick hd)^[m] s).ker.current)
      ↔ cfg.coopThreads = true ∨ ring.length = 1 := by
  have hpos : 0 < ring.length := length_pos_of_mem h.mem_current
  have hrun := h.running hd
  constructor
  · intro hall
    by_contra hc
    obtain ⟨hcoop, hlen⟩ := not_or.mp hc
    -- the second thread should run in the second slice
    have h1 := hall cfg.sliceTicks.toNat
    have h2 := hrun cfg.sliceTicks.toNat
    rw [Nat.div_self cfg.slice_pos] at h1 h2
    rw [← h2, afterSlices, if_neg hcoop, List.head?_eq_getElem?,
      Nat.mod_eq_of_lt (by omega)] at h1
    exact absurd ((List.getElem?_inj (by omega) h.sched.nodup).mp h1) (by decide)
  · rintro (hcoop | hlen) m
    · rw [← hrun m, afterSlices, if_pos hcoop, ← rotate_mod,
        List.head?_rotate (Nat.mod_lt _ hpos)]
    · have hring : afterSlices cfg (m / cfg.sliceTicks.toNat) ring = ring := by
        obtain ⟨a, rfl⟩ := length_eq_one_iff.mp hlen
        unfold afterSlices
        split_ifs
        · exact rotate_singleton a _
        · rfl
      rw [← hrun m, hring, hlen, Nat.mod_one, List.head?_eq_getElem?]

end Slices

def sliceConfig (coopThreads : Bool) : TickConfig (Fin 4) Unit where
  toConfig := { smallConfig Unit with sliceTicks := 2 }
  multipleTicks := true
  coopThreads := coopThreads
  slice_pos := by decide
  slice_lt := by decide
  single := fun h => Bool.noConfusion h

def sliceBoot (coopThreads : Bool) :
    TickSys Empty Unit Unit Unit (sliceConfig coopThreads) where
  ker := smallBoot Unit Empty Unit
  remaining := 2
  coop := fun _ => false
  locked := fun _ => false
  timers :=
    { queue := ⟨fun _ => ⟨0, none⟩, none, false, false⟩
      timeout := fun _ => 0
      handler := fun _ => 0
      initialised := fun _ => false }
  events :=
    { queue := ⟨fun _ => ⟨0, none⟩, none, false, false⟩
      scheduled := fun _ => false
      world := () }

theorem sliceBoot_start (coopThreads : Bool) : SliceStart (sliceBoot coopThreads) [0, 1, 2] := by
  have hk := (smallBoot_boot : ColdBoot _ (smallBoot Unit Empty Unit) _).kinv
  refine ⟨?_, rfl, ?_, fun _ _ => ⟨rfl, rfl⟩, rfl, rfl, rfl⟩
  · exact ⟨hk.sched.ringed, hk.sched.runQueue, hk.sched.count, hk.sched.timeouts,
      hk.sched.span_lt, hk.sched.disjoint, hk.sched.fault⟩
  · exact fun t ht => (hk.ready t).mp ht

def noHandlers (w : Nat) : Handlers w Unit Unit where
  timer := fun _ tm _ => (tm, 0)
  event := fun _ _ ev => ev
  fuel := 0

theorem time_slices_rotate_iff_two :
    SliceStart (sliceBoot true) [0, 1, 2]
      ∧ ∀ m, ([0, 1, 2] : List (Fin 4))[m / 2 % 3]?
          = some ((TickSys.tick (noHandlers 16))^[m] (sliceBoot true)).ker.current := by
  refine ⟨sliceBoot_start true, fun m => ?_⟩
  have hslice : (sliceConfig true).sliceTicks.toNat = 2 := rfl
  have hm := (time_slices_rotate_iff (noHandlers 16) (sliceBoot_start true)).mpr
    (Or.inl rfl) m
  rw [hslice] at hm
  exact hm

/-- **NO PREEMPTION**: without cooperative threads, thread 0 still runs after its
    slice of two ticks, where thread 1 should. -/
theorem time_slices_stuck :
    SliceStart (sliceBoot false) [0, 1, 2]
      ∧ ([0, 1, 2] : List (Fin 4))[2 / 2 % 3]? = some 1
      ∧ ((TickSys.tick (noHandlers 16))^[2] (sliceBoot false)).ker.current = 0 :=
  ⟨sliceBoot_start false, rfl, by decide⟩

end AvrtosTicks
