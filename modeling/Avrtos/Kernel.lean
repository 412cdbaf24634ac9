import Avrtos.Dlist
import Avrtos.Tqueue

/-! # `kernel.c`: threads, run queue, timeouts and wait queues

    The state and the private functions; a thread's `tie` is a union of two links. -/

namespace AvrtosKernel

open AvrtosDefines AvrtosDlist AvrtosTqueue Cells LinkedRing

inductive ThreadState where
  | stopped
  | ready
  | pending
  | idle
deriving DecidableEq, Repr

structure Thread (D : Type) where
  state : ThreadState
  timerExpired : Bool
  pendCanceled : Bool
  wakeupSched : Bool
  swapData : Option D
deriving DecidableEq, Repr

/-- The union `tie` of a thread. -/
inductive Tie (Tid : Type) where
  | runqueue (node : DNode Tid)
  | event (item : TItem Tid)
deriving DecidableEq, Repr

class Layout (Tid : Type) where
  asRunqueue : TItem Tid → DNode Tid
  asEvent : DNode Tid → TItem Tid

/-- The names of the threads. -/
class Threads (Tid : Type) extends Layout Tid where
  [decEq : DecidableEq Tid]
  [fintype : Fintype Tid]

attribute [reducible, instance] Threads.decEq Threads.fintype

/-- A node of a wait queue. -/
inductive WNode (Tid Qid Pid : Type) where
  | queue (q : Qid)
  | handle (t : Tid)
  | poll (p : Pid)
deriving DecidableEq, Repr

/-- `struct k_pollfd`. -/
structure Pollfd (Tid : Type) where
  ready : Bool
  err : Bool
  thread : Tid
deriving DecidableEq, Repr

def Thread.clearFlags {D : Type} (th : Thread D) : Thread D :=
  { th with timerExpired := false, pendCanceled := false }

section Ties

variable {Tid : Type} [DecidableEq Tid] [Layout Tid]

/-- `thread->tie.runqueue`. -/
instance runqueueStore : CellStore (Tid → Tie Tid) Tid (DNode Tid) where
  load := fun m t =>
    match m t with
    | .runqueue node => node
    | .event item => Layout.asRunqueue item
  store := fun m t node x => if x = t then .runqueue node else m x
  load_store_self := fun m t node => by simp
  load_store_of_ne := fun m t node x hx => by simp [hx]

/-- `thread->tie.event`. -/
instance eventStore : CellStore (Tid → Tie Tid) Tid (TItem Tid) where
  load := fun m t =>
    match m t with
    | .event item => item
    | .runqueue node => Layout.asEvent node
  store := fun m t item x => if x = t then .event item else m x
  load_store_self := fun m t item => by simp
  load_store_of_ne := fun m t item x hx => by simp [hx]

instance : Overlay (Tid → Tie Tid) Tid (DNode Tid) (TItem Tid) where
  load_store_of_ne := fun m a b x hx => by
    simp [CellStore.load, CellStore.store, hx]

instance : Overlay (Tid → Tie Tid) Tid (TItem Tid) (DNode Tid) where
  load_store_of_ne := fun m a b x hx => by
    simp [CellStore.load, CellStore.store, hx]

end Ties

structure Config (Tid Qid : Type) [Fintype Tid] where
  /-- `z_thread_idle` -/
  idle : Tid
  /-- bits of `ready_count` -/
  readyBits : Nat
  /-- the counter counts all threads -/
  threads_lt : Fintype.card Tid < 2 ^ readyBits
  /-- bits of `k_delta_t` -/
  deltaBits : Nat
  /-- `Z_KERNEL_TIME_SLICE_TICKS` -/
  sliceTicks : BitVec deltaBits
  /-- `CONFIG_KERNEL_ARGS_CHECKS` -/
  argsChecks : Bool
  /-- `join_waitqueue`, when `CONFIG_THREAD_JOIN` is set -/
  joinWaitqueue : Option (Tid → Qid)

/-- `k_timeout_t`. -/
abbrev Config.Timeout {Tid Qid : Type} [Fintype Tid] (cfg : Config Tid Qid) : Type :=
  BitVec cfg.deltaBits

/-- `z_ker` with the memory of the threads, wait queues and poll descriptors. -/
structure Kernel (Tid Qid Pid D : Type) where
  thread : Tid → Thread D
  tie : Tid → Tie Tid
  wait : WNode Tid Qid Pid → DNode (WNode Tid Qid Pid)
  pollfd : Pid → Pollfd Tid
  current : Tid
  readyCount : Nat
  runQueue : Tid
  timeoutsQueue : Option Tid
  fault : Bool

variable {Tid Qid Pid D : Type} [Threads Tid]

def Kernel.modThread (k : Kernel Tid Qid Pid D) (t : Tid)
    (f : Thread D → Thread D) : Kernel Tid Qid Pid D :=
  { k with thread := Function.update k.thread t (f (k.thread t)) }

/-- `z_set_thread_state`. -/
def zSetThreadState (k : Kernel Tid Qid Pid D) (t : Tid) (s : ThreadState) :
    Kernel Tid Qid Pid D :=
  k.modThread t fun th => { th with state := s }

def Kernel.timeouts (k : Kernel Tid Qid Pid D) : TQueue (Tid → Tie Tid) Tid :=
  { mem := k.tie, root := k.timeoutsQueue, wrapped := false, stuck := k.fault }

def Kernel.setTimeouts (k : Kernel Tid Qid Pid D)
    (q : TQueue (Tid → Tie Tid) Tid) : Kernel Tid Qid Pid D :=
  { k with tie := q.mem, timeoutsQueue := q.root, fault := q.stuck }

variable (cfg : Config Tid Qid)

/-- `z_schedule`. -/
def zSchedule (k : Kernel Tid Qid Pid D) (t : Tid) : Kernel Tid Qid Pid D :=
  -- mark this thread as READY
  let k := zSetThreadState k t .ready
  let k :=
    if k.readyCount = 0 then
      -- resume from IDLE
      { k with tie := dlistInit k.tie t, runQueue := t }
    else { k with tie := dlistPrepend k.tie k.runQueue t }
  { k with readyCount := (k.readyCount + 1) % 2 ^ cfg.readyBits }

variable {cfg} in
theorem zSchedule_of_zero {k : Kernel Tid Qid Pid D} {t : Tid} (h : k.readyCount = 0) :
    zSchedule cfg k t = { zSetThreadState k t .ready with
      tie := dlistInit k.tie t, runQueue := t,
      readyCount := (0 + 1) % 2 ^ cfg.readyBits } := by
  simp only [zSchedule, zSetThreadState, Kernel.modThread, h, if_true]

variable {cfg} in
theorem zSchedule_of_ne {k : Kernel Tid Qid Pid D} {t : Tid} (h : k.readyCount ≠ 0) :
    zSchedule cfg k t = { zSetThreadState k t .ready with
      tie := dlistPrepend k.tie k.runQueue t,
      readyCount := (k.readyCount + 1) % 2 ^ cfg.readyBits } := by
  simp only [zSchedule, zSetThreadState, Kernel.modThread, h, if_false]

/-- `K_NO_WAIT`. -/
def kNoWait : cfg.Timeout := 0

/-- `K_FOREVER`. -/
def kForever : cfg.Timeout := BitVec.allOnes cfg.deltaBits

/-- `z_cancel_scheduled_wake_up`. -/
def zCancelScheduledWakeUp (k : Kernel Tid Qid Pid D) (t : Tid) :
    Kernel Tid Qid Pid D :=
  if (k.thread t).wakeupSched then
    let k := k.modThread t fun th => { th with wakeupSched := false }
    k.setTimeouts (tqueueRemove cfg.argsChecks cfg.deltaBits (Fintype.card Tid)
      k.timeouts (some t)).1
  else k

/-- `z_suspend`. -/
def zSuspend (k : Kernel Tid Qid Pid D) (t : Tid) : Kernel Tid Qid Pid D :=
  if (k.thread t).state = .pending then zCancelScheduledWakeUp cfg k t
  else
    -- remove thread from the runqueue
    let k := { k with tie := dlistRemove k.tie t }
    let k := { k with
      readyCount := (k.readyCount + 2 ^ cfg.readyBits - 1) % 2 ^ cfg.readyBits }
    if k.readyCount = 0 then
      -- switch to the IDLE thread
      { k with runQueue := cfg.idle }
    else if t = k.current then
      { k with runQueue := prev k.tie (next k.tie t) }
    else k

/-- `z_schedule_wake_up`. -/
def zScheduleWakeUp (k : Kernel Tid Qid Pid D) (timeout : cfg.Timeout) :
    Kernel Tid Qid Pid D :=
  if timeout ≠ kForever cfg then
    let k := k.modThread k.current fun th => { th with wakeupSched := true }
    let k := { k with tie := setDelayShift k.tie k.current timeout.toNat }
    let k := { k with tie := setNextItem k.tie k.current none }
    k.setTimeouts (zTqueueSchedule cfg.deltaBits (Fintype.card Tid) k.timeouts
      k.current)
  else k

/-- `z_scheduler`. -/
def zScheduler (k : Kernel Tid Qid Pid D) : Kernel Tid Qid Pid D :=
  -- reset flags
  let k := k.modThread k.current Thread.clearFlags
  let k :=
    if (k.thread k.current).state = .ready then
      -- rotate the runqueue, set the next thread to the first position
      { k with runQueue := next k.tie k.runQueue }
    else k
  { k with current := k.runQueue }

theorem zScheduler_of_ready {k : Kernel Tid Qid Pid D} (h : (k.thread k.current).state = .ready) :
    zScheduler k = { k.modThread k.current Thread.clearFlags with
      runQueue := next k.tie k.runQueue, current := next k.tie k.runQueue } := by
  simp [zScheduler, Kernel.modThread, Thread.clearFlags, h]

theorem zScheduler_of_not_ready {k : Kernel Tid Qid Pid D}
    (h : (k.thread k.current).state ≠ .ready) :
    zScheduler k = { k.modThread k.current Thread.clearFlags with
      current := k.runQueue } := by
  simp [zScheduler, Kernel.modThread, Thread.clearFlags, h]

/-- `z_pend_current`, up to the switch to the next thread. -/
def zPendCurrent (k : Kernel Tid Qid Pid D) (timeout : cfg.Timeout) :
    Kernel Tid Qid Pid D :=
  let k := zSuspend cfg k k.current
  let k := zScheduleWakeUp cfg k timeout
  let k := zSetThreadState k k.current .pending
  zScheduler k

/-- `z_wake_up`. -/
def zWakeUp (k : Kernel Tid Qid Pid D) (t : Tid) : Kernel Tid Qid Pid D :=
  zSchedule cfg (zCancelScheduledWakeUp cfg k t) t

variable [DecidableEq Qid] [DecidableEq Pid]

/-- `z_pend_current_on`. -/
def zPendCurrentOn (k : Kernel Tid Qid Pid D) (waitqueue : Option Qid)
    (timeout : cfg.Timeout) : Kernel Tid Qid Pid D × Option Int :=
  if timeout = kNoWait cfg then (k, some (-EAGAIN))
  else
    let k :=
      match waitqueue with
      | some q =>
          -- queue the thread to the pending queue of the object
          { k with
            wait := dlistAppend k.wait (.queue q : WNode Tid Qid Pid)
              (.handle k.current) }
      | none => k
    (zPendCurrent cfg k timeout, none)

def zPendResult (th : Thread D) : Int :=
  if th.timerExpired then -ETIMEDOUT
  else if th.pendCanceled then -ECANCELED
  else 0

/-- `z_unpend_first_thread`. -/
def zUnpendFirstThread (k : Kernel Tid Qid Pid D) (q : Qid) :
    Kernel Tid Qid Pid D × Option Tid :=
  let r := dlistGet k.wait (.queue q : WNode Tid Qid Pid)
  let k := { k with wait := r.1 }
  if r.2 = .queue q then (k, none)
  else
    match r.2 with
    | .poll p =>
        -- mark the object as ready
        let k := { k with
          pollfd := Function.update k.pollfd p { k.pollfd p with ready := true } }
        let t := (k.pollfd p).thread
        let k := { k with wait := dlistInit k.wait (.handle t : WNode Tid Qid Pid) }
        -- the polling thread still needs to take the object
        (zWakeUp cfg k t, none)
    | .handle t =>
        let k := { k with wait := dlistInit k.wait (.handle t : WNode Tid Qid Pid) }
        (zWakeUp cfg k t, some t)
    | .queue _ => ({ k with fault := true }, none)

/-- `z_unpend_first_and_swap`. -/
def zUnpendFirstAndSwap (k : Kernel Tid Qid Pid D) (q : Qid) (data : Option D) :
    Kernel Tid Qid Pid D × Option Tid :=
  let r := zUnpendFirstThread cfg k q
  match r.2 with
  | some t => (r.1.modThread t fun th => { th with swapData := data }, some t)
  | none => r

/-- `z_cancel_first_pending`. -/
def zCancelFirstPending (k : Kernel Tid Qid Pid D) (q : Qid) : Kernel Tid Qid Pid D :=
  let r := zUnpendFirstThread cfg k q
  match r.2 with
  | some t => r.1.modThread t fun th => { th with pendCanceled := true }
  | none => r.1

def zUnpendAllLoop (q : Qid) (mark : Thread D → Thread D) :
    Nat → Kernel Tid Qid Pid D → Nat → Kernel Tid Qid Pid D × Nat
  | 0, k, count =>
      let r := zUnpendFirstThread cfg k q
      match r.2 with
      | none => (r.1, count)
      | some _ => ({ r.1 with fault := true }, count)
  | fuel + 1, k, count =>
      let r := zUnpendFirstThread cfg k q
      match r.2 with
      | none => (r.1, count)
      | some t =>
          zUnpendAllLoop q mark fuel (r.1.modThread t mark) ((count + 1) % 256)

/-- `z_cancel_all_pending`. -/
def zCancelAllPending (k : Kernel Tid Qid Pid D) (q : Qid) :
    Kernel Tid Qid Pid D × Nat :=
  zUnpendAllLoop cfg q (fun th => { th with pendCanceled := true })
    (Fintype.card Tid) k 0

def zUnpendAll (k : Kernel Tid Qid Pid D) (q : Qid) :
    Kernel Tid Qid Pid D × Nat :=
  zUnpendAllLoop cfg q id (Fintype.card Tid) k 0

def zExpire (k : Kernel Tid Qid Pid D) (t : Tid) : Kernel Tid Qid Pid D :=
  let k := k.modThread t fun th => { th with timerExpired := true }
  let k := k.modThread t fun th => { th with wakeupSched := false }
  let k := { k with wait := dlistRemove k.wait (.handle t : WNode Tid Qid Pid) }
  zSchedule cfg k t

/-- The loop of `z_sched_enter`. -/
def zSchedEnterLoop : Nat → Kernel Tid Qid Pid D → Kernel Tid Qid Pid D
  | 0, k =>
      let r := tqueuePop k.timeouts
      match r.2 with
      | none => k.setTimeouts r.1
      | some _ => { k.setTimeouts r.1 with fault := true }
  | fuel + 1, k =>
      let r := tqueuePop k.timeouts
      let k := k.setTimeouts r.1
      match r.2 with
      | none => k
      | some t => zSchedEnterLoop fuel (zExpire cfg k t)

/-- `z_sched_enter`. -/
def zSchedEnter (k : Kernel Tid Qid Pid D) : Kernel Tid Qid Pid D :=
  let k := k.setTimeouts (tqueueShift cfg.deltaBits (Fintype.card Tid) k.timeouts
    cfg.sliceTicks.toNat)
  zSchedEnterLoop cfg (Fintype.card Tid) k

/-- `k_thread_start`. -/
def kThreadStart (k : Kernel Tid Qid Pid D) (t : Tid) :
    Kernel Tid Qid Pid D × Int :=
  if (k.thread t).state ≠ .stopped then (k, -EAGAIN)
  else (zSchedule cfg k t, 0)

/-- `k_thread_abort`, up to the switch when a thread aborts itself. -/
def kThreadAbort (k : Kernel Tid Qid Pid D) (t : Tid) :
    Kernel Tid Qid Pid D × Int :=
  if (k.thread t).state = .stopped then (k, -EINVAL)
  else
    let k := zSuspend cfg k t
    let k := zSetThreadState k t .stopped
    let k :=
      match cfg.joinWaitqueue with
      | some join => (zUnpendAll cfg k (join t)).1
      | none => k
    if t = k.current then (zScheduler k, 0) else (k, 0)

/-- `k_sleep`, up to the switch to the next thread. -/
def kSleep (k : Kernel Tid Qid Pid D) (timeout : cfg.Timeout) :
    Kernel Tid Qid Pid D :=
  zPendCurrent cfg k timeout

end AvrtosKernel
