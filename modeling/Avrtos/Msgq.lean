import Avrtos.Base.Bytes
import Avrtos.Base.Window
import Avrtos.Calls

/-! # `msgq.c`

    The functions, and a system of queues with a record of what was accepted and delivered. -/

namespace AvrtosMsgq

open Function AvrtosDefines AvrtosKernel Bytes Window Runs

structure Msgq where
  msgSize : Nat
  maxMsgs : Nat
  usedMsgs : Nat
  bufStart : Nat
  bufEnd : Nat
  readCursor : Nat
  writeCursor : Nat
deriving DecidableEq, Repr

/-- `k_msgq_init`. -/
def kMsgqInit (argsChecks : Bool) (q : Msgq) (buffer msgSize : Nat)
    (maxMsgs : BitVec 8) : Msgq × Int :=
  if !zUser argsChecks (buffer ≠ 0 ∧ msgSize ≠ 0 ∧ maxMsgs ≠ 0) then (q, -EINVAL)
  else
    ({ maxMsgs := maxMsgs.toNat, msgSize := msgSize, usedMsgs := 0,
       bufStart := buffer, bufEnd := buffer + msgSize * maxMsgs.toNat,
       readCursor := buffer, writeCursor := buffer }, 0)

def nextSlot (q : Msgq) (cursor : Nat) : Nat :=
  if cursor + q.msgSize = q.bufEnd then q.bufStart else cursor + q.msgSize

variable {Tid Mid Pid : Type} [Threads Tid]
variable [DecidableEq Mid] [DecidableEq Pid]

/-- `swap_data` of a thread, as an address. -/
def swapAddr (k : Kernel Tid Mid Pid Nat) (t : Tid) : Nat :=
  (k.thread t).swapData.getD 0

/-- `k_msgq_put`. -/
def kMsgqPut (cfg : Config Tid Mid) (k : Kernel Tid Mid Pid Nat) (ram : Nat → UInt8)
    (q : Msgq) (m : Mid) (data : Nat) (timeout : cfg.Timeout) :
    Kernel Tid Mid Pid Nat × (Nat → UInt8) × Msgq × Option Int :=
  if !zUser cfg.argsChecks (data ≠ 0) then (k, ram, q, some (-EINVAL))
  else if q.usedMsgs < q.maxMsgs then
    let r := zUnpendFirstThread cfg k m
    match r.2 with
    | some t =>
        -- write directly to the buffer of the consumer
        (r.1, memcpy ram (swapAddr r.1 t) data q.msgSize, q, some 0)
    | none =>
        (r.1, memcpy ram q.writeCursor data q.msgSize,
          { q with
            writeCursor := nextSlot q q.writeCursor
            usedMsgs := (q.usedMsgs + 1) % 256 }, some 0)
  else if timeout = kNoWait cfg then (k, ram, q, some (-ENOMEM))
  else
    let k := k.modThread k.current fun th => { th with swapData := some data }
    let r := zPendCurrentOn cfg k (some m) timeout
    (r.1, ram, q, r.2)

/-- `k_msgq_get`. -/
def kMsgqGet (cfg : Config Tid Mid) (k : Kernel Tid Mid Pid Nat) (ram : Nat → UInt8)
    (q : Msgq) (m : Mid) (data : Nat) (timeout : cfg.Timeout) :
    Kernel Tid Mid Pid Nat × (Nat → UInt8) × Msgq × Option Int :=
  if !zUser cfg.argsChecks (data ≠ 0) then (k, ram, q, some (-EINVAL))
  else if 0 < q.usedMsgs then
    let ram := memcpy ram data q.readCursor q.msgSize
    let q := { q with readCursor := nextSlot q q.readCursor }
    let r := zUnpendFirstThread cfg k m
    match r.2 with
    | some t =>
        -- refill from the buffer of the producer
        (r.1, memcpy ram q.writeCursor (swapAddr r.1 t) q.msgSize,
          { q with writeCursor := nextSlot q q.writeCursor }, some 0)
    | none => (r.1, ram, { q with usedMsgs := q.usedMsgs - 1 }, some 0)
  else if timeout = kNoWait cfg then (k, ram, q, some (-ENOMSG))
  else
    let k := k.modThread k.current fun th => { th with swapData := some data }
    let r := zPendCurrentOn cfg k (some m) timeout
    (r.1, ram, q, r.2)

/-- `k_msgq_purge`. -/
def kMsgqPurge (cfg : Config Tid Mid) (k : Kernel Tid Mid Pid Nat) (q : Msgq)
    (m : Mid) : Kernel Tid Mid Pid Nat × Msgq × Int :=
  let r := zCancelAllPending cfg k m
  (r.1, { q with writeCursor := q.readCursor, usedMsgs := 0 }, int8 r.2)

/-- `k_msgq_peek`. -/
def kMsgqPeek (ram : Nat → UInt8) (q : Msgq) (data : Nat) : (Nat → UInt8) × Int :=
  if 0 < q.usedMsgs then (memcpy ram data q.readCursor q.msgSize, 0)
  else (ram, -ENOMSG)

/-- Which call a thread is in. -/
inductive Role where
  | put
  | get
deriving DecidableEq, Repr

structure MsgCall where
  role : Role
  issued : List UInt8
deriving DecidableEq, Repr

structure CallEnd (Mid : Type) where
  queue : Mid
  role : Role
  ret : Int
  moved : Bool

structure MsgSys (Tid Mid : Type) where
  calls : Calls Tid Mid Nat MsgCall
  ram : Nat → UInt8
  msgq : Mid → Msgq
  /-- when each put was issued, and its message at that time; in the order in
      which the messages were taken over -/
  accepted : Mid → List (Nat × List UInt8)
  /-- the messages as they stand in the buffers of the gets, in the order of
      the grants -/
  delivered : Mid → List (List UInt8)
  /-- a message was moved in the call the thread is in -/
  moved : Tid → Bool
  log : List (CallEnd Mid)

def MsgSys.addr (st : MsgSys Tid Mid) (t : Tid) : Nat := swapAddr st.calls.ker t

def MsgSys.issued (st : MsgSys Tid Mid) (t : Tid) : List UInt8 :=
  ((st.calls.frame t).map fun f => f.call.issued).getD []

def MsgSys.finish (st : MsgSys Tid Mid) : MsgSys Tid Mid :=
  let cur := st.calls.ker.current
  match st.calls.frame cur with
  | none => st
  | some f =>
      { st with
        calls := st.calls.resume
        log := ⟨f.queue, f.call.role, zPendResult (st.calls.ker.thread cur),
          st.moved cur⟩ :: st.log }

/-- The operations of a run. -/
inductive MsgOp (cfg : Config Tid Mid) where
  | put (m : Mid) (data : Nat) (timeout : cfg.Timeout)
  | get (m : Mid) (data : Nat) (timeout : cfg.Timeout)
  | peek (m : Mid) (data : Nat)
  | purge (m : Mid)
  | write (a : Nat) (v : UInt8)
  | schedEnter
  | yield

def UserBuf (msgq : Mid → Msgq) (a n : Nat) : Prop :=
  ∀ m, Apart a n (msgq m).bufStart ((msgq m).msgSize * (msgq m).maxMsgs)

def MsgSys.Untouched (st : MsgSys Tid Mid) (u : Option Tid) (a n : Nat) : Prop :=
  ∀ m t, st.calls.Waiting m t → u ≠ some t → Apart a n (st.addr t) (st.msgq m).msgSize

instance [Fintype Mid] (msgq : Mid → Msgq) (a n : Nat) : Decidable (UserBuf msgq a n) :=
  inferInstanceAs (Decidable (∀ _, _))

instance [Fintype Mid] (st : MsgSys Tid Mid) (u : Option Tid) (a n : Nat) :
    Decidable (st.Untouched u a n) :=
  inferInstanceAs (Decidable (∀ _ _, _ → _ → _))

def MsgOp.Allowed {cfg : Config Tid Mid} (st : MsgSys Tid Mid) : MsgOp cfg → Prop
  | .put m data timeout =>
      (timeout ≠ kNoWait cfg → st.calls.ker.current ≠ cfg.idle)
        ∧ UserBuf st.msgq data (st.msgq m).msgSize
        ∧ ((st.msgq m).usedMsgs < (st.msgq m).maxMsgs →
          ∀ t, (zUnpendFirstThread cfg st.calls.ker m).2 = some t →
            Apart (st.addr t) (st.msgq m).msgSize data (st.msgq m).msgSize
              ∧ st.Untouched (some t) (st.addr t) (st.msgq m).msgSize)
  | .get m data timeout =>
      (timeout ≠ kNoWait cfg → st.calls.ker.current ≠ cfg.idle)
        ∧ UserBuf st.msgq data (st.msgq m).msgSize
        ∧ (0 < (st.msgq m).usedMsgs → st.Untouched none data (st.msgq m).msgSize)
  | .peek m data =>
      UserBuf st.msgq data (st.msgq m).msgSize
        ∧ (0 < (st.msgq m).usedMsgs → st.Untouched none data (st.msgq m).msgSize)
  | .write a _ => UserBuf st.msgq a 1 ∧ st.Untouched none a 1
  | _ => True

instance [Fintype Mid] {cfg : Config Tid Mid} (st : MsgSys Tid Mid) :
    (op : MsgOp cfg) → Decidable (op.Allowed st)
  | .put _ _ _ => inferInstanceAs (Decidable (_ ∧ _ ∧ (_ → ∀ _, _ → _)))
  | .get _ _ _ => inferInstanceAs (Decidable (_ ∧ _ ∧ _))
  | .peek _ _ => inferInstanceAs (Decidable (_ ∧ _))
  | .write _ _ => inferInstanceAs (Decidable (_ ∧ _))
  | .purge _ | .schedEnter | .yield => isTrue trivial

def snoc {β : Type} (f : Mid → List β) (m : Mid) (x : β) : Mid → List β :=
  update f m (f m ++ [x])

def MsgSys.block (st : MsgSys Tid Mid) (k' : Kernel Tid Mid Empty Nat) (m : Mid)
    (role : Role) (data : Nat) : MsgSys Tid Mid :=
  { st with
    calls := st.calls.leave k' m ⟨role, bytes st.ram data (st.msgq m).msgSize⟩
    moved := update st.moved st.calls.ker.current false }.finish

def MsgSys.done (st : MsgSys Tid Mid) (k' : Kernel Tid Mid Empty Nat)
    (t : Option Tid) : MsgSys Tid Mid :=
  { st with
    calls := { st.calls with ker := k', clock := st.calls.clock + 1 }
    moved := match t with
      | some t => update st.moved t true
      | none => st.moved }

/-- The state after an operation. -/
def MsgOp.run {cfg : Config Tid Mid} (st : MsgSys Tid Mid) :
    MsgOp cfg → MsgSys Tid Mid
  | .put m data timeout =>
      let size := (st.msgq m).msgSize
      let r := kMsgqPut cfg st.calls.ker st.ram (st.msgq m) m data timeout
      let st' := { st with ram := r.2.1, msgq := update st.msgq m r.2.2.1 }
      match r.2.2.2 with
      | none => st'.block r.1 m .put data
      | some ret =>
          if ret = 0 then
            let t := (zUnpendFirstThread cfg st.calls.ker m).2
            { st'.done r.1 t with
              accepted := snoc st.accepted m (st.calls.clock, bytes st.ram data size)
              delivered := match t with
                | some t => snoc st.delivered m (bytes r.2.1 (st.addr t) size)
                | none => st.delivered }
          else st'.done r.1 none
  | .get m data timeout =>
      let size := (st.msgq m).msgSize
      let r := kMsgqGet cfg st.calls.ker st.ram (st.msgq m) m data timeout
      let st' := { st with ram := r.2.1, msgq := update st.msgq m r.2.2.1 }
      match r.2.2.2 with
      | none => st'.block r.1 m .get data
      | some ret =>
          if ret = 0 then
            let t := (zUnpendFirstThread cfg st.calls.ker m).2
            { st'.done r.1 t with
              accepted := match t with
                | some t => snoc st.accepted m (st.calls.stamp t, st.issued t)
                | none => st.accepted
              delivered := snoc st.delivered m (bytes r.2.1 data size) }
          else st'.done r.1 none
  | .peek m data => { st with ram := (kMsgqPeek st.ram (st.msgq m) data).1 }
  | .purge m =>
      let r := kMsgqPurge cfg st.calls.ker (st.msgq m) m
      { st with
        calls := { st.calls with ker := r.1 }
        msgq := update st.msgq m r.2.1
        accepted := update st.accepted m []
        delivered := update st.delivered m [] }
  | .write a v => { st with ram := update st.ram a v }
  | .schedEnter =>
      { st with calls := { st.calls with ker := zSchedEnter cfg st.calls.ker } }
  | .yield =>
      { st with calls := { st.calls with ker := zScheduler st.calls.ker } }.finish

def msgBoot (k : Kernel Tid Mid Empty Nat) (ram : Nat → UInt8) (init : Mid → Msgq) :
    MsgSys Tid Mid where
  calls := callsBoot k
  ram := ram
  msgq := init
  accepted := fun _ => []
  delivered := fun _ => []
  moved := fun _ => false
  log := []

def MsgReach (cfg : Config Tid Mid) (init : Mid → Msgq) : MsgSys Tid Mid → Prop :=
  Reach (fun st => ∃ k ring ram, ColdBoot cfg k ring ∧ st = msgBoot k ram init)
    (fun st (op : MsgOp cfg) => op.Allowed st) MsgOp.run

def Initialised (q : Msgq) : Prop :=
  ∃ argsChecks old buffer msgSize maxMsgs, msgSize ≠ 0 ∧ maxMsgs ≠ 0
    ∧ kMsgqInit argsChecks old buffer msgSize maxMsgs = (q, 0)

def Separate (init : Mid → Msgq) : Prop :=
  ∀ m m', m ≠ m' → Apart (init m).bufStart ((init m).msgSize * (init m).maxMsgs)
    (init m').bufStart ((init m').msgSize * (init m').maxMsgs)

end AvrtosMsgq
