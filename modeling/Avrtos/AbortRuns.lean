import Avrtos.CallsSteps
import Avrtos.Fifo
import Avrtos.Flags
import Avrtos.Msgq
import Avrtos.Objects
import Avrtos.Semaphore

/-! # Aborting threads, with all kernel objects

    A system with all kernel objects in which threads are aborted: each function `Keeps` the
    calls, and a run keeps the invariant as long as nobody aborts a waiter. -/

namespace AvrtosAbort

open Function List AvrtosDefines AvrtosDlist AvrtosKernel AvrtosTqueue AvrtosSemaphore AvrtosMutex
open AvrtosFifo AvrtosMsgq AvrtosFlags AvrtosObjects Cells LinkedRing LinkedChain Runs

variable {Tid Qid : Type} [Threads Tid]
variable [DecidableEq Qid]

inductive ObjCall where
  | semTake
  | mutexLock
  | fifoGet
  | msgqPut
  | msgqGet
  | slabAlloc
  | flagsPoll
  | signalPoll
  | condvarWait
deriving DecidableEq, Repr

structure ObjSys (Tid Qid : Type) where
  calls : Calls Tid Qid Nat ObjCall
  ram : Nat → UInt8
  next : Nat → Option Nat
  sem : Qid → Sem
  mutex : Qid → Mutex Tid
  fifo : Qid → Slist Nat
  msgq : Qid → Msgq
  slab : Qid → Slab
  flags : Qid → Flags
  signal : Qid → Signal

def ObjSys.finish (st : ObjSys Tid Qid) : ObjSys Tid Qid :=
  let cur := st.calls.ker.current
  { st with
    calls := st.calls.resume
    mutex := match st.calls.frame cur with
      | some ⟨q, _, .mutexLock⟩ =>
          update st.mutex q
            (kMutexLockEnd (st.mutex q) cur (zPendResult (st.calls.ker.thread cur)))
      | _ => st.mutex }

def ObjSys.called {β : Type} (st : ObjSys Tid Qid) (q : Qid) (call : ObjCall)
    (k' : Kernel Tid Qid Empty Nat) : Option β → ObjSys Tid Qid
  | some _ => { st with calls := { st.calls with ker := k' } }
  | none => { st with calls := st.calls.leave k' q call }.finish

/-- A call that does not switch. -/
def ObjSys.setKer (st : ObjSys Tid Qid) (k' : Kernel Tid Qid Empty Nat) :
    ObjSys Tid Qid :=
  { st with calls := { st.calls with ker := k' } }

/-- The operations of a run. -/
inductive ObjOp (cfg : Config Tid Qid) where
  | semTake (q : Qid) (timeout : cfg.Timeout)
  | semGive (q : Qid)
  | semCancelWait (q : Qid)
  | mutexLock (q : Qid) (timeout : cfg.Timeout)
  | mutexUnlock (q : Qid)
  | mutexCancelWait (q : Qid)
  | fifoPut (q : Qid) (item : Nat)
  | fifoGet (q : Qid) (timeout : cfg.Timeout)
  | fifoCancelWait (q : Qid)
  | msgqPut (q : Qid) (data : Nat) (timeout : cfg.Timeout)
  | msgqGet (q : Qid) (data : Nat) (timeout : cfg.Timeout)
  | msgqPurge (q : Qid)
  | slabAlloc (q : Qid) (timeout : cfg.Timeout)
  | slabFree (q : Qid) (mem : Nat)
  | flagsPoll (q : Qid) (mask options : BitVec 8) (timeout : cfg.Timeout)
  | flagsNotify (q : Qid) (notify options : BitVec 8)
  | flagsReset (q : Qid)
  | signalPoll (q : Qid) (timeout : cfg.Timeout)
  | signalRaise (q : Qid) (value : BitVec 8)
  | signalCancelWait (q : Qid)
  | condvarWait (q m : Qid) (timeout : cfg.Timeout)
  | condvarBroadcast (q : Qid)
  | sleep (timeout : cfg.Timeout)
  | schedEnter
  | yield
  | start (t : Tid)
  | abort (t : Tid)

def ObjOp.timeout? {cfg : Config Tid Qid} : ObjOp cfg → Option (cfg.Timeout)
  | .semTake _ timeout | .mutexLock _ timeout | .fifoGet _ timeout
  | .msgqPut _ _ timeout | .msgqGet _ _ timeout | .slabAlloc _ timeout
  | .flagsPoll _ _ _ timeout | .signalPoll _ timeout | .condvarWait _ _ timeout =>
      some timeout
  | _ => none

/-- The timeout of a sleep. -/
def ObjOp.sleep? {cfg : Config Tid Qid} : ObjOp cfg → Option (cfg.Timeout)
  | .sleep timeout => some timeout
  | _ => none

/-- The thread that is aborted. -/
def ObjOp.abort? {cfg : Config Tid Qid} : ObjOp cfg → Option Tid
  | .abort t => some t
  | _ => none

def ObjOp.Allowed {cfg : Config Tid Qid} (st : ObjSys Tid Qid) (op : ObjOp cfg) : Prop :=
  (∀ timeout ∈ op.timeout?, timeout ≠ kNoWait cfg → st.calls.ker.current ≠ cfg.idle)
    ∧ (∀ _timeout ∈ op.sleep?, st.calls.ker.current ≠ cfg.idle)
    ∧ ∀ t ∈ op.abort?, t ≠ cfg.idle

def ObjSys.Blocked (st : ObjSys Tid Qid) (t : Tid) : Prop :=
  (st.calls.ker.thread t).state = .pending ∧ (st.calls.frame t).isSome = true
deriving Decidable

def ObjOp.Careful {cfg : Config Tid Qid} (st : ObjSys Tid Qid) (op : ObjOp cfg) : Prop :=
  (∀ t ∈ op.abort?, ¬ st.Blocked t ∧ Suspendable cfg st.calls.ker t)
    ∧ ∀ timeout ∈ op.sleep?, timeout ≠ kForever cfg →
      SelfLinked st.calls.ker.wait (.handle st.calls.ker.current)

instance {cfg : Config Tid Qid} (st : ObjSys Tid Qid) (op : ObjOp cfg) :
    Decidable (op.Allowed st) :=
  -- not by trying all timeouts
  @instDecidableAnd _ _ (Option.decidableForallMem op.timeout?)
    (@instDecidableAnd _ _ (Option.decidableForallMem op.sleep?)
      (Option.decidableForallMem op.abort?))

instance {cfg : Config Tid Qid} (st : ObjSys Tid Qid) (op : ObjOp cfg) :
    Decidable (op.Careful st) :=
  @instDecidableAnd _ _ (Option.decidableForallMem op.abort?)
    (Option.decidableForallMem op.sleep?)

variable (reentrancy : Bool)

def ObjOp.run {cfg : Config Tid Qid} (st : ObjSys Tid Qid) : ObjOp cfg → ObjSys Tid Qid
  | .semTake q timeout =>
      let r := kSemTake cfg st.calls.ker (st.sem q) q timeout
      { st with sem := update st.sem q r.2.1 }.called q .semTake r.1 r.2.2
  | .semGive q =>
      let r := kSemGive cfg st.calls.ker (st.sem q) q
      { st with sem := update st.sem q r.2.1 }.setKer r.1
  | .semCancelWait q => st.setKer (kSemCancelWait cfg st.calls.ker q).1
  | .mutexLock q timeout =>
      let r := kMutexLock cfg reentrancy st.calls.ker (st.mutex q) q timeout
      { st with mutex := update st.mutex q r.2.1 }.called q .mutexLock r.1 r.2.2
  | .mutexUnlock q =>
      let r := kMutexUnlock cfg reentrancy st.calls.ker (st.mutex q) q
      { st with mutex := update st.mutex q r.2.1 }.setKer r.1
  | .mutexCancelWait q => st.setKer (kMutexCancelWait cfg st.calls.ker q).1
  | .fifoPut q item =>
      let r := zFifoPut cfg st.calls.ker st.next (st.fifo q) q item
      { st with next := r.2.1, fifo := update st.fifo q r.2.2.1 }.setKer r.1
  | .fifoGet q timeout =>
      let r := kFifoGet cfg st.calls.ker st.next (st.fifo q) q timeout
      { st with fifo := update st.fifo q r.2.1 }.called q .fifoGet r.1 r.2.2
  | .fifoCancelWait q => st.setKer (kFifoCancelWait cfg st.calls.ker q).1
  | .msgqPut q data timeout =>
      let r := kMsgqPut cfg st.calls.ker st.ram (st.msgq q) q data timeout
      { st with ram := r.2.1, msgq := update st.msgq q r.2.2.1 }.called q .msgqPut
        r.1 r.2.2.2
  | .msgqGet q data timeout =>
      let r := kMsgqGet cfg st.calls.ker st.ram (st.msgq q) q data timeout
      { st with ram := r.2.1, msgq := update st.msgq q r.2.2.1 }.called q .msgqGet
        r.1 r.2.2.2
  | .msgqPurge q =>
      let r := kMsgqPurge cfg st.calls.ker (st.msgq q) q
      { st with msgq := update st.msgq q r.2.1 }.setKer r.1
  | .slabAlloc q timeout =>
      let r := kMemSlabAlloc cfg st.calls.ker st.next (st.slab q) q timeout
      { st with slab := update st.slab q r.2.1 }.called q .slabAlloc r.1 r.2.2.2
  | .slabFree q mem =>
      let r := kMemSlabFree cfg st.calls.ker st.next (st.slab q) q mem
      { st with next := r.2.1, slab := update st.slab q r.2.2.1 }.setKer r.1
  | .flagsPoll q mask options timeout =>
      let r := kFlagsPoll cfg st.calls.ker (st.flags q) q mask options timeout
      { st with flags := update st.flags q r.2.1 }.called q .flagsPoll r.1 r.2.2.2
  | .flagsNotify q notify options =>
      let r := kFlagsNotify cfg st.calls.ker (st.flags q) q notify options
      ({ st with flags := update st.flags q r.2.1 }.setKer r.1).finish
  | .flagsReset q =>
      let r := kFlagsReset cfg st.calls.ker (st.flags q) q
      { st with flags := update st.flags q r.2.1 }.setKer r.1
  | .signalPoll q timeout =>
      let r := kPollSignal cfg st.calls.ker (st.signal q) q timeout
      st.called q .signalPoll r.1 r.2
  | .signalRaise q value =>
      let r := kSignalRaise cfg st.calls.ker (st.signal q) q value
      { st with signal := update st.signal q r.2.1 }.setKer r.1
  | .signalCancelWait q => st.setKer (kPollCancelWait cfg st.calls.ker q).1
  | .condvarWait q m timeout =>
      let r := kCondvarWait cfg reentrancy st.calls.ker (st.mutex m) q m timeout
      { st with mutex := update st.mutex m r.2.1 }.called q .condvarWait r.1 r.2.2
  | .condvarBroadcast q => st.setKer (kCondvarBroadcast cfg st.calls.ker q).1
  | .sleep timeout => (st.setKer (kSleep cfg st.calls.ker timeout)).finish
  | .schedEnter => st.setKer (zSchedEnter cfg st.calls.ker)
  | .yield => (st.setKer (zScheduler st.calls.ker)).finish
  | .start t => st.setKer (kThreadStart cfg st.calls.ker t).1
  | .abort t => (st.setKer (kThreadAbort cfg st.calls.ker t).1).finish

def ObjReach (cfg : Config Tid Qid) (ok : ObjSys Tid Qid → ObjOp cfg → Prop) :
    ObjSys Tid Qid → Prop :=
  Reach (fun st => ∃ k ring, ColdBoot cfg k ring ∧ st.calls = callsBoot k)
    (fun st (op : ObjOp cfg) => op.Allowed st ∧ ok st op) (ObjOp.run reentrancy)

/-- The thread is in no queue. -/
structure Removed (k : Kernel Tid Qid Empty Nat) (t : Tid) : Prop where
  waitQueues : ∀ q n, (next k.wait)^[n] (.queue q : WNode Tid Qid Empty)
    ≠ .handle t
  runQueue : k.readyCount ≠ 0 → ∀ n, (next k.tie)^[n] k.runQueue ≠ t
  running : k.runQueue ≠ t ∧ k.current ≠ t
  timeouts : ∀ l, Chain (nextItem k.tie) k.timeoutsQueue l → t ∉ l

variable {reentrancy} {cfg : Config Tid Qid} {st : ObjSys Tid Qid}
variable {w : Qid → List Tid} {t : Tid}

theorem KInv.removed {k : Kernel Tid Qid Empty Nat} {s : Shape Tid Qid Empty}
    (h : KInv cfg k s) (ht : (k.thread t).state = .stopped) : Removed k t := by
  have hring : t ∉ s.ring := by
    intro hc
    have hr := (h.ready t).mp hc
    rw [ht] at hr
    exact nomatch hr
  have hidle : t ≠ cfg.idle := by
    rintro rfl
    rw [(h.idle _).mpr rfl] at ht
    exact nomatch ht
  refine ⟨?_, ?_, ⟨?_, ?_⟩, ?_⟩
  · intro q n hc
    have hmem := (h.wait.ringed q).iterate_mem mem_cons_self n
    rw [hc] at hmem
    have hq : .handle t ∈ s.waitq q := (mem_cons.mp hmem).resolve_left fun hc' => nomatch hc'
    have hp := h.waiting q t hq
    rw [ht] at hp
    exact nomatch hp
  · intro hne n hc
    have hnil : s.ring ≠ [] := by
      intro hnil
      rw [h.sched.count, hnil] at hne
      exact hne rfl
    obtain ⟨a, l, hal⟩ := exists_cons_of_ne_nil hnil
    have hrun : k.runQueue ∈ s.ring := by
      rw [h.sched.runQueue, hal]
      exact mem_cons_self
    have hmem := (h.sched.ringed hnil).iterate_mem hrun n
    rw [hc] at hmem
    exact hring hmem
  · rw [h.sched.runQueue]
    intro hc
    cases hr : s.ring with
    | nil =>
      rw [hr] at hc
      exact hidle hc.symm
    | cons a l =>
      rw [hr] at hc hring
      exact hring (hc ▸ mem_cons_self ..)
  · intro hc
    rcases h.current with hi | hh
    · exact hidle (hc ▸ hi)
    · exact hring (hc ▸ mem_of_mem_head? hh)
  · intro l hl hmem
    have heq := hl.unique h.sched.timeouts.chain
    rw [heq] at hmem
    have hp := h.wakeup t ((h.timed t).mp hmem)
    rw [ht] at hp
    exact nomatch hp

theorem ObjSys.called_calls {β : Type} (st : ObjSys Tid Qid) (q : Qid) (call : ObjCall)
    (k' : Kernel Tid Qid Empty Nat) (ret : Option β) :
    (st.called q call k' ret).calls = st.calls.called q call k' ret := by
  cases ret with
  | none => rfl
  | some r => rfl

section Functions

variable {c : Calls Tid Qid Nat ObjCall} (h : CallsInv cfg c w) {q : Qid} {call : ObjCall}
variable {timeout : cfg.Timeout}
variable (hidle : timeout ≠ kNoWait cfg → c.ker.current ≠ cfg.idle)

section Blocking

include h hidle

theorem keeps_semTake (sem : Sem) :
    Keeps cfg c (c.called q call (kSemTake cfg c.ker sem q timeout).1
      (kSemTake cfg c.ker sem q timeout).2.2) := by
  rw [kSemTake]
  split_ifs
  · exact h.keeps_refl
  · exact h.keeps_pendOn q call timeout hidle

theorem keeps_mutexLock (mutex : Mutex Tid) :
    Keeps cfg c (c.called q call (kMutexLock cfg reentrancy c.ker mutex q timeout).1
      (kMutexLock cfg reentrancy c.ker mutex q timeout).2.2) := by
  rw [kMutexLock]
  split_ifs
  · exact h.keeps_refl
  · exact h.keeps_refl
  · exact h.keeps_refl
  · exact h.keeps_pendOn q call timeout hidle

theorem keeps_fifoGet (next : Nat → Option Nat) (list : Slist Nat) :
    Keeps cfg c (c.called q call (kFifoGet cfg c.ker next list q timeout).1
      (kFifoGet cfg c.ker next list q timeout).2.2) := by
  have hpend := h.keeps_pendOn q call timeout hidle
  rw [kFifoGet]
  cases hg : (slistGet next list).2 with
  | some item => exact h.keeps_refl
  | none =>
    simp only
    cases hr : (zPendCurrentOn cfg c.ker (some q) timeout).2 with
    | none =>
      rw [hr] at hpend
      exact hpend
    | some ret =>
      rw [hr] at hpend
      exact hpend

/-- Both kinds of calls on a message queue block in the same way. -/
theorem keeps_swapPendOn (data : Nat) : Keeps cfg c (c.called q call
      (zPendCurrentOn cfg (c.ker.modThread c.ker.current
        fun th => { th with swapData := some data }) (some q) timeout).1
      (zPendCurrentOn cfg (c.ker.modThread c.ker.current
        fun th => { th with swapData := some data }) (some q) timeout).2) := by
  refine (h.keeps_swap (some data)).trans ?_
  have hpend := (h.swap c.ker.current (some data)).keeps_pendOn q call timeout hidle
  have hcur : (c.ker.modThread c.ker.current
    fun th => { th with swapData := some data }).current = c.ker.current := rfl
  rw [Calls.called_setKer hcur] at hpend
  exact hpend

theorem keeps_msgqPut (ram : Nat → UInt8) (m : Msgq) (data : Nat) :
    Keeps cfg c (c.called q call (kMsgqPut cfg c.ker ram m q data timeout).1
      (kMsgqPut cfg c.ker ram m q data timeout).2.2.2) := by
  have hunpend := h.keeps_unpend q
  rw [kMsgqPut]
  split_ifs
  · exact h.keeps_refl
  · simp only
    cases (zUnpendFirstThread cfg c.ker q).2 with
    | none => exact hunpend
    | some t => exact hunpend
  · exact h.keeps_refl
  · exact keeps_swapPendOn h hidle data

theorem keeps_msgqGet (ram : Nat → UInt8) (m : Msgq) (data : Nat) :
    Keeps cfg c (c.called q call (kMsgqGet cfg c.ker ram m q data timeout).1
      (kMsgqGet cfg c.ker ram m q data timeout).2.2.2) := by
  have hunpend := h.keeps_unpend q
  rw [kMsgqGet]
  split_ifs
  · exact h.keeps_refl
  · simp only
    cases (zUnpendFirstThread cfg c.ker q).2 with
    | none => exact hunpend
    | some t => exact hunpend
  · exact h.keeps_refl
  · exact keeps_swapPendOn h hidle data

theorem keeps_slabAlloc (next : Nat → Option Nat) (slab : Slab) :
    Keeps cfg c (c.called q call (kMemSlabAlloc cfg c.ker next slab q timeout).1
      (kMemSlabAlloc cfg c.ker next slab q timeout).2.2.2) := by
  rw [kMemSlabAlloc]
  cases hg : (slabAlloc next slab).2 with
  | some ptr => exact h.keeps_refl
  | none =>
    simp only
    split_ifs
    · exact h.keeps_refl
    · exact h.keeps_pendOn q call timeout hidle

theorem keeps_flagsPoll (fl : Flags) (mask options : BitVec 8) :
    Keeps cfg c (c.called q call (kFlagsPoll cfg c.ker fl q mask options timeout).1
      (kFlagsPoll cfg c.ker fl q mask options timeout).2.2.2) := by
  rcases kFlagsPoll_cases c.ker fl q mask options timeout with ⟨fl', trig, ret, hr⟩ | hr
  · rw [hr]
    exact h.keeps_refl
  · rw [hr]
    exact keeps_swapPendOn h hidle (optAndMask options mask)

theorem keeps_signalPoll (sig : Signal) :
    Keeps cfg c (c.called q call (kPollSignal cfg c.ker sig q timeout).1
      (kPollSignal cfg c.ker sig q timeout).2) := by
  rw [kPollSignal]
  split_ifs
  · exact h.keeps_refl
  · exact h.keeps_pendOn q call timeout hidle

end Blocking

section Releasing

include h

theorem keeps_semGive (sem : Sem) : Keeps cfg c { c with ker := (kSemGive cfg c.ker sem q).1 } := by
  have hunpend := h.keeps_unpend q
  rw [kSemGive]
  cases (zUnpendFirstThread cfg c.ker q).2 with
  | none => split_ifs <;> exact hunpend
  | some t => exact hunpend

theorem keeps_mutexUnlock (mutex : Mutex Tid) :
    Keeps cfg c { c with ker := (kMutexUnlock cfg reentrancy c.ker mutex q).1 } := by
  have hunpend := h.keeps_unpend q
  rw [kMutexUnlock]
  split_ifs
  · exact h.keeps_refl
  · exact h.keeps_refl
  · simp only
    cases (zUnpendFirstThread cfg c.ker q).2 with
    | none => exact hunpend
    | some t => exact hunpend

theorem keeps_fifoPut (next : Nat → Option Nat) (list : Slist Nat) (item : Nat) :
    Keeps cfg c { c with ker := (zFifoPut cfg c.ker next list q item).1 } := by
  have hunpend := h.keeps_unpendAndSwap q (some item)
  rw [zFifoPut]
  simp only
  cases (zUnpendFirstAndSwap cfg c.ker q (some item)).2 with
  | none => exact hunpend
  | some t => exact hunpend

theorem keeps_slabFree (next : Nat → Option Nat) (slab : Slab) (mem : Nat) :
    Keeps cfg c { c with ker := (kMemSlabFree cfg c.ker next slab q mem).1 } := by
  have hunpend := h.keeps_unpendAndSwap q (some mem)
  rw [kMemSlabFree]
  split_ifs
  · exact h.keeps_refl
  · simp only
    cases (zUnpendFirstAndSwap cfg c.ker q (some mem)).2 with
    | none => exact hunpend
    | some t => exact hunpend

theorem keeps_flagsNotify (fl : Flags) (notify options : BitVec 8) :
    Keeps cfg c ({ c with ker := (kFlagsNotify cfg c.ker fl q notify options).1 } :
      Calls Tid Qid Nat ObjCall).resume := by
  obtain ⟨N, hN, hbase, hth⟩ := CallsInv.notify h fl q notify options
  refine ⟨⟨_, hbase.resume⟩, ?_⟩
  intro t ht
  refine hth t ?_ ?_
  · intro hmem
    have hp := h.pending_of_mem (hN hmem)
    rw [ht] at hp
    exact nomatch hp
  · rintro rfl
    exact h.current_not_stopped ht

end Releasing

include h hidle

/-- `k_condvar_wait` unlocks first. -/
theorem keeps_condvarWait (mutex : Mutex Tid) (m : Qid) :
    Keeps cfg c (c.called q call (kCondvarWait cfg reentrancy c.ker mutex q m timeout).1
      (kCondvarWait cfg reentrancy c.ker mutex q m timeout).2.2) := by
  have hcur : (kMutexUnlock cfg reentrancy c.ker mutex m).1.current = c.ker.current := by
    obtain ⟨-, -, -, hcur⟩ := h.unpend m
    rw [kMutexUnlock]
    split_ifs
    · rfl
    · rfl
    · simp only
      cases (zUnpendFirstThread cfg c.ker m).2 with
      | none => exact hcur
      | some t => exact hcur
  have hunlock : Keeps cfg c { c with ker := (kMutexUnlock cfg reentrancy c.ker mutex m).1 } :=
    keeps_mutexUnlock h mutex
  obtain ⟨w', hi'⟩ := hunlock.inv
  refine hunlock.trans ?_
  have hpend := hi'.keeps_pendOn q call timeout (by
    intro hn
    show (kMutexUnlock cfg reentrancy c.ker mutex m).1.current ≠ _
    rw [hcur]
    exact hidle hn)
  rw [Calls.called_setKer hcur] at hpend
  exact hpend

end Functions

theorem ObjOp.step (hi : CallsInv cfg st.calls w) (op : ObjOp cfg) (ha : op.Allowed st)
    (hc : op.Careful st) :
    (∃ w', CallsInv cfg (op.run reentrancy st).calls w')
      ∧ ∀ t, (st.calls.ker.thread t).state = .stopped → op ≠ .start t →
          (op.run reentrancy st).calls.ker.thread t = st.calls.ker.thread t := by
  have hkeeps : Keeps cfg st.calls (op.run reentrancy st).calls →
      (∃ w', CallsInv cfg (op.run reentrancy st).calls w')
        ∧ ∀ t, (st.calls.ker.thread t).state = .stopped → op ≠ .start t →
          (op.run reentrancy st).calls.ker.thread t = st.calls.ker.thread t :=
    fun h => ⟨h.inv, fun t ht _ => h.stopped t ht⟩
  cases op with
  | semTake q timeout =>
    refine hkeeps ?_
    rw [ObjOp.run, ObjSys.called_calls]
    exact keeps_semTake hi (ha.1 timeout rfl) _
  | semGive q => exact hkeeps (keeps_semGive hi _)
  | semCancelWait q => exact hkeeps (hi.keeps_unpendAll marks_cancel q)
  | mutexLock q timeout =>
    refine hkeeps ?_
    rw [ObjOp.run, ObjSys.called_calls]
    exact keeps_mutexLock hi (ha.1 timeout rfl) _
  | mutexUnlock q => exact hkeeps (keeps_mutexUnlock hi _)
  | mutexCancelWait q => exact hkeeps (hi.keeps_unpendAll marks_cancel q)
  | fifoPut q item => exact hkeeps (keeps_fifoPut hi _ _ item)
  | fifoGet q timeout =>
    refine hkeeps ?_
    rw [ObjOp.run, ObjSys.called_calls]
    exact keeps_fifoGet hi (ha.1 timeout rfl) _ _
  | fifoCancelWait q => exact hkeeps (hi.keeps_unpendAll marks_cancel q)
  | msgqPut q data timeout =>
    refine hkeeps ?_
    rw [ObjOp.run, ObjSys.called_calls]
    exact keeps_msgqPut hi (ha.1 timeout rfl) _ _ data
  | msgqGet q data timeout =>
    refine hkeeps ?_
    rw [ObjOp.run, ObjSys.called_calls]
    exact keeps_msgqGet hi (ha.1 timeout rfl) _ _ data
  | msgqPurge q => exact hkeeps (hi.keeps_unpendAll marks_cancel q)
  | slabAlloc q timeout =>
    refine hkeeps ?_
    rw [ObjOp.run, ObjSys.called_calls]
    exact keeps_slabAlloc hi (ha.1 timeout rfl) _ _
  | slabFree q mem => exact hkeeps (keeps_slabFree hi _ _ mem)
  | flagsPoll q mask options timeout =>
    refine hkeeps ?_
    rw [ObjOp.run, ObjSys.called_calls]
    exact keeps_flagsPoll hi (ha.1 timeout rfl) _ mask options
  | flagsNotify q notify options => exact hkeeps (keeps_flagsNotify hi _ notify options)
  | flagsReset q => exact hkeeps (hi.keeps_unpendAll marks_cancel q)
  | signalPoll q timeout =>
    refine hkeeps ?_
    rw [ObjOp.run, ObjSys.called_calls]
    exact keeps_signalPoll hi (ha.1 timeout rfl) _
  | signalRaise q value => exact hkeeps (hi.keeps_unpendAll marks_id q)
  | signalCancelWait q => exact hkeeps (hi.keeps_unpendAll marks_cancel q)
  | condvarWait q m timeout =>
    refine hkeeps ?_
    rw [ObjOp.run, ObjSys.called_calls]
    exact keeps_condvarWait hi (ha.1 timeout rfl) _ m
  | condvarBroadcast q => exact hkeeps (hi.keeps_unpendAll marks_id q)
  | sleep timeout =>
    exact hkeeps (hi.keeps_sleep (ha.2.1 timeout rfl) timeout (hc.2 timeout rfl))
  | schedEnter => exact hkeeps hi.keeps_schedEnter
  | yield => exact hkeeps hi.keeps_yield
  | start t =>
    obtain ⟨hinv, hth⟩ := hi.start t
    refine ⟨⟨w, hinv⟩, ?_⟩
    intro x _ hx
    exact hth x fun hc' => hx (by rw [hc'])
  | abort t =>
    obtain ⟨hb, hsusp⟩ := hc.1 t rfl
    by_cases hs : (st.calls.ker.thread t).state = .stopped
    · have hk : kThreadAbort cfg st.calls.ker t = (st.calls.ker, -EINVAL) := by
        rw [kThreadAbort, if_pos hs]
      refine ⟨⟨w, ?_⟩, ?_⟩
      · show CallsInv cfg ({ st.calls with
          ker := (kThreadAbort cfg st.calls.ker t).1 } :
            Calls Tid Qid Nat ObjCall).resume w
        rw [hk]
        exact hi.toCallsBase.resume
      · intro x _ _
        show (kThreadAbort cfg st.calls.ker t).1.thread x = _
        rw [hk]
    · obtain ⟨hbase, -, -, hth, -⟩ := hi.abort (ha.2.2 t rfl) hs (fun q hw => hb ⟨hw.1, by
        obtain ⟨f, hf, -⟩ := Option.map_eq_some_iff.mp hw.2
        rw [hf]
        rfl⟩) hsusp
      refine ⟨⟨_, hbase.resume⟩, ?_⟩
      intro x hx _
      have hne : x ≠ t := by
        rintro rfl
        exact hs hx
      have hj : x ∉ joinersOf cfg w t := by
        intro hj
        have hp := hi.joiner_pending hj
        rw [hx] at hp
        exact nomatch hp
      exact (hth x).trans (by rw [if_neg hne, if_neg hj])

theorem ObjReach.inv (h : ObjReach reentrancy cfg (fun st op => op.Careful st) st) :
    ∃ w, CallsInv cfg st.calls w := by
  refine Reach.invariant (P := fun st : ObjSys Tid Qid => ∃ w, CallsInv cfg st.calls w) h ?_ ?_
  · rintro st ⟨k, ring, hboot, hcalls⟩
    refine ⟨fun _ => [], ?_⟩
    rw [hcalls]
    exact hboot.callsInv
  · rintro st op ⟨w, hi⟩ hok
    exact (ObjOp.step hi op hok.1 hok.2).1

theorem ObjReach.removed (h : ObjReach reentrancy cfg (fun st op => op.Careful st) st)
    (ht : (st.calls.ker.thread t).state = .stopped) : Removed st.calls.ker t := by
  obtain ⟨w, hi⟩ := h.inv
  obtain ⟨ring, timeq, hk⟩ := hi.kernel
  exact KInv.removed hk ht

/-- **ABORTED MEANS GONE**: in a careful run an aborted thread is in no queue, and nothing but
    its start changes its record. -/
theorem abort_removes (h : ObjReach reentrancy cfg (fun st op => op.Careful st) st) :
    (∀ t, (st.calls.ker.thread t).state ≠ .stopped →
        (ObjOp.abort t : ObjOp cfg).Allowed st → (ObjOp.abort t : ObjOp cfg).Careful st →
        (kThreadAbort cfg st.calls.ker t).2 = 0
          ∧ ((kThreadAbort cfg st.calls.ker t).1.thread t).state = .stopped
          ∧ Removed (kThreadAbort cfg st.calls.ker t).1 t)
      ∧ ∀ t, (st.calls.ker.thread t).state = .stopped →
        Removed st.calls.ker t
          ∧ ∀ op : ObjOp cfg, op.Allowed st → op.Careful st → op ≠ .start t →
            (op.run reentrancy st).calls.ker.thread t = st.calls.ker.thread t := by
  obtain ⟨w, hi⟩ := h.inv
  refine ⟨?_, ?_⟩
  · intro t hs ha hc
    obtain ⟨hb, hsusp⟩ := hc.1 t rfl
    obtain ⟨hbase, hret, hstop, -⟩ := hi.abort (ha.2.2 t rfl) hs (fun q hw => hb ⟨hw.1, by
      obtain ⟨f, hf, -⟩ := Option.map_eq_some_iff.mp hw.2
      rw [hf]
      rfl⟩) hsusp
    obtain ⟨ring, timeq, hk⟩ := hbase.kernel
    exact ⟨hret, hstop, KInv.removed hk hstop⟩
  · intro t ht
    refine ⟨h.removed ht, ?_⟩
    intro op ha hc hop
    exact (ObjOp.step hi op ha hc).2 t ht hop

def objBoot (k : Kernel Tid Qid Empty Nat) : ObjSys Tid Qid where
  calls := callsBoot k
  ram := fun _ => 0
  next := fun _ => none
  sem := fun _ => ⟨0, 1⟩
  mutex := fun _ => kMutexInit
  fifo := fun _ => slistInit
  msgq := fun _ => ⟨0, 0, 0, 0, 0, 0, 0⟩
  slab := fun _ => ⟨0, 0, 0, none⟩
  flags := fun _ => kFlagsInit 0
  signal := fun _ => kSignalInit

def asleep : ObjSys (Fin 4) Unit :=
  ([.sleep 2, .semGive (), .semTake () (kForever _)] :
    List (ObjOp (smallConfig Unit))).foldl (ObjOp.run false)
      (objBoot (smallBoot Unit Empty Nat))

theorem abort_removes_asleep :
    ObjReach false (smallConfig Unit) (fun st op => op.Careful st) asleep
      ∧ (asleep.calls.ker.thread 0).state = .pending
      ∧ (kThreadAbort (smallConfig Unit) asleep.calls.ker 0).2 = 0
      ∧ Removed (kThreadAbort (smallConfig Unit) asleep.calls.ker 0).1 0 := by
  have hreach : ObjReach false (smallConfig Unit) (fun st op => op.Careful st) asleep :=
    Reach.foldl (.start ⟨_, _, smallBoot_boot, rfl⟩) (by decide)
  obtain ⟨hret, -, hrem⟩ :=
    (abort_removes hreach).1 0 (by decide) (by decide) (by decide)
  exact ⟨hreach, by decide, hret, hrem⟩

def abortedWaiter : ObjSys (Fin 4) Unit :=
  ([.semTake () (kForever _), .abort 0] : List (ObjOp (smallConfig Unit))).foldl
    (ObjOp.run false) (objBoot (smallBoot Unit Empty Nat))

/-- **A STOPPED THREAD WAKES UP**: thread 0 is STOPPED and still in the wait
    queue, and the next give makes it READY. -/
theorem abort_leaves_waiter :
    ObjReach false (smallConfig Unit) (fun _ _ => True) abortedWaiter
      ∧ (abortedWaiter.calls.ker.thread 0).state = .stopped
      ∧ ¬ Removed abortedWaiter.calls.ker 0
      ∧ (((.semGive () : ObjOp (smallConfig Unit)).run false abortedWaiter).calls.ker.thread
          0).state = .ready := by
  have hreach : ObjReach false (smallConfig Unit) (fun _ _ => True) abortedWaiter :=
    Reach.foldl (.start ⟨_, _, smallBoot_boot, rfl⟩) (by decide)
  refine ⟨hreach, by decide, ?_, by decide⟩
  intro h
  exact h.waitQueues () 1 (by decide)

end AvrtosAbort
