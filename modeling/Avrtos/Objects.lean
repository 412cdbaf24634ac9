import Avrtos.Mutex

/-! # `mem_slab.c`, `signal.c` and `condvar.c`

    `k_mem_slab_*`, signals and condition variables, as far as the kernel is concerned. -/

namespace AvrtosObjects

open AvrtosDefines AvrtosKernel AvrtosMutex

variable {Tid Qid Pid D : Type} [Threads Tid]
variable [DecidableEq Qid] [DecidableEq Pid]

/-- `struct slab_allocator`. -/
structure Slab where
  buffer : Nat
  blockSize : Nat
  count : Nat
  freeList : Option Nat
deriving DecidableEq, Repr

/-- `slab_alloc`. -/
def slabAlloc (next : Nat → Option Nat) (a : Slab) : Slab × Option Nat :=
  match a.freeList with
  | none => (a, none)
  | some mem => ({ a with freeList := next mem }, some mem)

/-- `slab_free`. -/
def slabFree (next : Nat → Option Nat) (a : Slab) (ptr : Nat) :
    (Nat → Option Nat) × Slab :=
  (Function.update next ptr a.freeList, { a with freeList := some ptr })

/-- `slab_available`. -/
def slabAvailable (a : Slab) : Int := if a.freeList ≠ none then 0 else -ENOMEM

/-- `k_mem_slab_alloc`. -/
def kMemSlabAlloc (cfg : Config Tid Qid) (k : Kernel Tid Qid Pid Nat)
    (next : Nat → Option Nat) (slab : Slab) (q : Qid) (timeout : cfg.Timeout) :
    Kernel Tid Qid Pid Nat × Slab × Option Nat × Option Int :=
  let a := slabAlloc next slab
  match a.2 with
  | some ptr => (k, a.1, some ptr, some 0)
  | none =>
      if timeout = kNoWait cfg then (k, a.1, none, some (-ENOMEM))
      else
        let r := zPendCurrentOn cfg k (some q) timeout
        (r.1, a.1, none, r.2)

def kMemSlabAllocEnd (th : Thread Nat) : Option Nat :=
  if zPendResult th = 0 then th.swapData else none

/-- `k_mem_slab_free`. -/
def kMemSlabFree (cfg : Config Tid Qid) (k : Kernel Tid Qid Pid Nat)
    (next : Nat → Option Nat) (slab : Slab) (q : Qid) (mem : Nat) :
    Kernel Tid Qid Pid Nat × (Nat → Option Nat) × Slab × Option Tid :=
  if mem = 0 then (k, next, slab, none)
  else
    -- if a thread is pending, give the block directly to the thread
    let r := zUnpendFirstAndSwap cfg k q (some mem)
    match r.2 with
    | some t => (r.1, next, slab, some t)
    | none =>
        let a := slabFree next slab mem
        (r.1, a.1, a.2, none)

structure Signal where
  signal : BitVec 8
  flags : BitVec 8
deriving DecidableEq, Repr

/-- `K_POLL_STATE_NOT_READY`. -/
def NOT_READY : BitVec 8 := 0x00

/-- `K_POLL_STATE_SIGNALED`. -/
def SIGNALED : BitVec 8 := 0x01

/-- `k_signal_init`. -/
def kSignalInit : Signal := { signal := 0, flags := NOT_READY }

/-- `k_signal_raise`. -/
def kSignalRaise (cfg : Config Tid Qid) (k : Kernel Tid Qid Pid D) (sig : Signal)
    (q : Qid) (value : BitVec 8) : Kernel Tid Qid Pid D × Signal × Int :=
  let sig := { sig with signal := value }
  let sig := { sig with flags := sig.flags ||| SIGNALED }
  -- wake up all threads waiting on the signal
  let r := zUnpendAll cfg k q
  (r.1, sig, int8 r.2)

/-- `k_poll_signal`. -/
def kPollSignal (cfg : Config Tid Qid) (k : Kernel Tid Qid Pid D) (sig : Signal)
    (q : Qid) (timeout : cfg.Timeout) : Kernel Tid Qid Pid D × Option Int :=
  if sig.flags &&& SIGNALED ≠ 0 then (k, some 0)
  else zPendCurrentOn cfg k (some q) timeout

/-- `k_poll_cancel_wait`. -/
def kPollCancelWait (cfg : Config Tid Qid) (k : Kernel Tid Qid Pid D) (q : Qid) :
    Kernel Tid Qid Pid D × Int :=
  let r := zCancelAllPending cfg k q
  (r.1, int8 r.2)

/-- `k_condvar_broadcast`. -/
def kCondvarBroadcast (cfg : Config Tid Qid) (k : Kernel Tid Qid Pid D) (q : Qid) :
    Kernel Tid Qid Pid D × Nat :=
  zUnpendAll cfg k q

/-- `k_condvar_wait`, up to the end of its critical section. -/
def kCondvarWait (cfg : Config Tid Qid) (reentrancy : Bool) (k : Kernel Tid Qid Pid D)
    (mutex : Mutex Tid) (q m : Qid) (timeout : cfg.Timeout) :
    Kernel Tid Qid Pid D × Mutex Tid × Option Int :=
  let u := kMutexUnlock cfg reentrancy k mutex m
  let r := zPendCurrentOn cfg u.1 (some q) timeout
  (r.1, u.2.1, r.2)

end AvrtosObjects
