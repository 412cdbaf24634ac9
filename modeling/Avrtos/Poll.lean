import Avrtos.Fifo
import Avrtos.Msgq
import Avrtos.Objects
import Avrtos.Semaphore

/-! # `poll.c`: waiting for several objects

    `k_poll` links descriptors into the queues of objects and blocks in none itself. -/

namespace AvrtosPoll

open AvrtosDefines AvrtosDlist AvrtosKernel AvrtosSemaphore AvrtosMutex AvrtosFifo
open AvrtosMsgq AvrtosObjects Cells LinkedRing

variable {Tid Qid Pid : Type} [Threads Tid]
variable [DecidableEq Qid] [DecidableEq Pid]

/-- `k_poll_type_t`. -/
inductive PollType where
  | sem
  | mutex
  | msgqPut
  | msgqGet
  | fifo
  | memSlab
  | other
deriving DecidableEq, Repr

/-- An element of the array. -/
structure PollItem (Pid Qid : Type) where
  pfd : Pid
  type : PollType
  obj : Qid
deriving DecidableEq, Repr

structure Obj (Tid : Type) where
  sem : Sem
  mutex : Mutex Tid
  fifo : Slist Nat
  msgq : Msgq
  slab : Slab

structure Objs (Tid Qid : Type) where
  obj : Qid → Obj Tid
  next : Nat → Option Nat
  ram : Nat → UInt8

def pollWaits (o : Objs Tid Qid) (item : PollItem Pid Qid) : Option Bool :=
  let obj := o.obj item.obj
  match item.type with
  | .sem => some (obj.sem.count = 0)
  | .mutex => some (obj.mutex.lock ≠ 0)
  | .fifo => some (slistPeekHead obj.fifo = none)
  | .msgqGet => some (obj.msgq.usedMsgs = 0)
  | .msgqPut => some (obj.msgq.usedMsgs = obj.msgq.maxMsgs)
  | .memSlab => some (slabAvailable obj.slab ≠ 0)
  | .other => none

/-- Update one descriptor. -/
def modPollfd (k : Kernel Tid Qid Pid Nat) (p : Pid) (f : Pollfd Tid → Pollfd Tid) :
    Kernel Tid Qid Pid Nat :=
  { k with pollfd := Function.update k.pollfd p (f (k.pollfd p)) }

def kPollSetup (o : Objs Tid Qid) :
    List (PollItem Pid Qid) → Kernel Tid Qid Pid Nat → BitVec 8 →
      Kernel Tid Qid Pid Nat × BitVec 8
  | [], k, ret => (k, ret)
  | item :: pfds, k, ret =>
      match pollWaits o item with
      | none =>
          kPollSetup o pfds (modPollfd k item.pfd fun p => { p with err := true })
            (BitVec.ofInt 8 (-EINVAL))
      | some true =>
          let k := modPollfd k item.pfd fun _ => ⟨false, false, k.current⟩
          kPollSetup o pfds
            { k with
              wait := dlistAppend k.wait (.queue item.obj : WNode Tid Qid Pid)
                (.poll item.pfd) } ret
      | some false =>
          kPollSetup o pfds (modPollfd k item.pfd fun p => { p with ready := true })
            (ret + 1)

/-- The second loop of `k_poll`. -/
def kPollCleanup : List (PollItem Pid Qid) → Kernel Tid Qid Pid Nat → Kernel Tid Qid Pid Nat
  | [], k => k
  | item :: pfds, k =>
      -- ready, or on error: already removed from the wait queue
      if (k.pollfd item.pfd).ready ∨ (k.pollfd item.pfd).err then kPollCleanup pfds k
      else if item.type = .other then kPollCleanup pfds k
      else
        kPollCleanup pfds
          { k with wait := dlistRemove k.wait (.poll item.pfd : WNode Tid Qid Pid) }

/-- `k_poll`. -/
def kPoll (cfg : Config Tid Qid) (k : Kernel Tid Qid Pid Nat) (o : Objs Tid Qid)
    (pfds : List (PollItem Pid Qid)) (timeout : cfg.Timeout) :
    Kernel Tid Qid Pid Nat × Option Int :=
  if !zUser cfg.argsChecks (!pfds.isEmpty) then (k, some (-EINVAL))
  else
    let r := kPollSetup o pfds k 0
    if r.2 = 0 then
      let p := zPendCurrentOn cfg r.1 none timeout
      match p.2 with
      | some ret => (kPollCleanup pfds p.1, some ret)
      | none => (p.1, none)
    else (kPollCleanup pfds r.1, some r.2.toInt)

inductive Resource where
  | unit
  | mutex
  | item
  | message
  | slot
  | block
deriving DecidableEq, Repr

instance : Fintype Resource :=
  ⟨{.unit, .mutex, .item, .message, .slot, .block}, by intro r; cases r <;> decide⟩

inductive PollCall (Pid Qid : Type) where
  | wait (r : Resource) (q : Qid)
  | sleep
  | poll (pfds : List (PollItem Pid Qid))
deriving DecidableEq, Repr

structure Pollers (Tid Qid Pid : Type) where
  ker : Kernel Tid Qid Pid Nat
  call : Tid → Option (PollCall Pid Qid)

def Pollers.resume (c : Pollers Tid Qid Pid) : Pollers Tid Qid Pid where
  ker := match c.call c.ker.current with
    | some (.poll pfds) => kPollCleanup pfds c.ker
    | _ => c.ker
  call := Function.update c.call c.ker.current none

def Pollers.leave (c : Pollers Tid Qid Pid) (call : PollCall Pid Qid)
    (k' : Kernel Tid Qid Pid Nat) : Pollers Tid Qid Pid :=
  ⟨k', Function.update c.call c.ker.current (some call)⟩

def Pollers.called {β : Type} (c : Pollers Tid Qid Pid) (call : PollCall Pid Qid)
    (k' : Kernel Tid Qid Pid Nat) : Option β → Pollers Tid Qid Pid
  | some _ => { c with ker := k' }
  | none => (c.leave call k').resume

def Pollers.Blocked (c : Pollers Tid Qid Pid) (t : Tid) (r : Resource) (q : Qid) : Prop :=
  (c.ker.thread t).state = .pending ∧ c.call t = some (.wait r q)

instance (c : Pollers Tid Qid Pid) (t : Tid) (r : Resource) (q : Qid) :
    Decidable (c.Blocked t r q) := inferInstanceAs (Decidable (_ ∧ _))

def Open (p : Pollfd Tid) : Prop := p.ready = false ∧ p.err = false

def Unused (c : Pollers Tid Qid Pid) (p : Pid) : Prop :=
  ∀ t pfds, c.call t = some (.poll pfds) → p ∉ pfds.map PollItem.pfd

def arrayOf : Option (PollCall Pid Qid) → List (PollItem Pid Qid)
  | some (.poll pfds) => pfds
  | _ => []

instance (c : Pollers Tid Qid Pid) (p : Pid) : Decidable (Unused c p) :=
  decidable_of_iff (∀ t, p ∉ (arrayOf (c.call t)).map PollItem.pfd) <| by
  refine forall_congr' fun t => ?_
  rcases c.call t with _ | _ | _ | pfds
  · simp [arrayOf]
  · simp [arrayOf]
  · simp [arrayOf]
  · simp [arrayOf]

end AvrtosPoll
