import Avrtos.Fifo

/-! # `workqueue.c`

    An item whose link is `NULL` is taken to be free; the last one of a list looks so too. -/

namespace AvrtosWorkqueue

open AvrtosDefines AvrtosKernel AvrtosFifo Runs

variable {Tid Wid : Type} [Threads Tid]
variable [DecidableEq Wid]

/-- `z_work_submittable`. -/
def zWorkSubmittable (next : Wid → Option Wid) (work : Wid) : Bool :=
  next work = none

/-- `k_work_submit`, on the only workqueue. -/
def kWorkSubmit (cfg : Config Tid Unit) (k : Kernel Tid Unit Empty Wid)
    (next : Wid → Option Wid) (queue : Slist Wid) (work : Wid) :
    Kernel Tid Unit Empty Wid × (Wid → Option Wid) × Slist Wid × Bool :=
  if zWorkSubmittable next work then
    let r := zFifoPut cfg k next queue () work
    (r.1, r.2.1, r.2.2.1, true)
  else (k, next, queue, false)

inductive WorkerPc (Wid : Type) where
  /-- in front of `k_fifo_get`, or blocked in it -/
  | get
  /-- behind `k_fifo_get` -/
  | got (work : Wid)
  /-- behind the reset of the link -/
  | reset (work : Wid)
  /-- in the handler -/
  | handler (work : Wid)
deriving DecidableEq, Repr

structure WorkSys (Tid Wid : Type) where
  calls : Calls Tid Unit Wid Unit
  next : Wid → Option Wid
  queue : Slist Wid
  pc : WorkerPc Wid
  submitted : List Wid
  started : List Wid
  executed : List Wid

def WorkSys.finish (st : WorkSys Tid Wid) : WorkSys Tid Wid :=
  let cur := st.calls.ker.current
  match st.calls.frame cur with
  | none => st
  | some _ =>
      { st with
        calls := st.calls.resume
        pc := match kFifoGetEnd (st.calls.ker.thread cur) with
          | some work => .got work
          | none => .get }

/-- The next step of the worker. -/
def WorkSys.work (cfg : Config Tid Unit) (st : WorkSys Tid Wid) : WorkSys Tid Wid :=
  match st.pc with
  | .get =>
      let r := kFifoGet cfg st.calls.ker st.next st.queue () (kForever cfg)
      match r.2.2 with
      | none => { st with calls := st.calls.leave r.1 () (), queue := r.2.1 }.finish
      | some none => { st with calls := { st.calls with ker := r.1 }, queue := r.2.1 }
      | some (some work) =>
          { st with
            calls := { st.calls with ker := r.1 }, queue := r.2.1, pc := .got work }
  | .got work =>
      -- mark the work item as submittable again
      { st with
        next := Function.update st.next work none
        started := st.started ++ [work]
        pc := .reset work }
  | .reset work => { st with executed := st.executed ++ [work], pc := .handler work }
  | .handler _ => { st with pc := .get }

/-- The operations of a run. -/
inductive WorkOp (Wid : Type) where
  | submit (work : Wid)
  | step
  | schedEnter
  | yield

variable (worker : Tid)

def WorkOp.Allowed (st : WorkSys Tid Wid) : WorkOp Wid → Prop
  | .step => st.calls.ker.current = worker
  | _ => True

instance (st : WorkSys Tid Wid) : (op : WorkOp Wid) → Decidable (op.Allowed worker st)
  | .step => inferInstanceAs (Decidable (_ = _))
  | .submit _ | .schedEnter | .yield => isTrue trivial

/-- The state after an operation. -/
def WorkOp.run (cfg : Config Tid Unit) (st : WorkSys Tid Wid) :
    WorkOp Wid → WorkSys Tid Wid
  | .submit work =>
      let r := kWorkSubmit cfg st.calls.ker st.next st.queue work
      { st with
        calls := { st.calls with ker := r.1 }
        next := r.2.1
        queue := r.2.2.1
        submitted := if r.2.2.2 then st.submitted ++ [work] else st.submitted }
  | .step => st.work cfg
  | .schedEnter =>
      { st with calls := { st.calls with ker := zSchedEnter cfg st.calls.ker } }
  | .yield =>
      { st with calls := { st.calls with ker := zScheduler st.calls.ker } }.finish

def workBoot (k : Kernel Tid Unit Empty Wid) : WorkSys Tid Wid where
  calls := callsBoot k
  next := fun _ => none
  queue := slistInit
  pc := .get
  submitted := []
  started := []
  executed := []

def WorkSys.handed (st : WorkSys Tid Wid) : Option Wid :=
  if st.calls.Granted () worker then (st.calls.ker.thread worker).swapData else none

def WorkSys.inHand (st : WorkSys Tid Wid) : Option Wid :=
  match st.pc with
  | .get => st.handed worker
  | .got work => some work
  | _ => none

def WorkOp.Careful (st : WorkSys Tid Wid) : WorkOp Wid → Prop
  | .submit work => st.queue.tail ≠ some work
      ∧ (st.inHand worker = some work → st.next work ≠ none)
  | _ => True

instance (st : WorkSys Tid Wid) : (op : WorkOp Wid) → Decidable (op.Careful worker st)
  | .submit _ => inferInstanceAs (Decidable (_ ∧ _))
  | .step | .schedEnter | .yield => isTrue trivial

def WorkReach (cfg : Config Tid Unit) (ok : WorkSys Tid Wid → WorkOp Wid → Prop) :
    WorkSys Tid Wid → Prop :=
  Reach (fun st => ∃ k ring, ColdBoot cfg k ring ∧ st = workBoot k)
    (fun st (op : WorkOp Wid) => op.Allowed worker st ∧ ok st op) (WorkOp.run cfg)

def WorkSys.due (st : WorkSys Tid Wid) : Option Wid :=
  match st.pc with
  | .reset work => some work
  | _ => none

def WorkSys.Drained (st : WorkSys Tid Wid) : Prop :=
  st.queue.head = none ∧ st.inHand worker = none ∧ st.due = none
deriving Decidable

structure WorkBase (cfg : Config Tid Unit) (st : WorkSys Tid Wid) (w : Unit → List Tid)
    (l : List Wid) : Prop where
  calls : CallsBase cfg st.calls w
  rep : SlistRep st.next st.queue l
  account : st.submitted = st.started ++ (st.inHand worker).toList ++ l
  started : st.started = st.executed ++ st.due.toList
  /-- the links of all other items are `NULL` -/
  free : ∀ x, x ∉ l → st.inHand worker ≠ some x → st.next x = none
  apart : ∀ x, st.inHand worker = some x → x ∉ l
  frame : ∀ t f, st.calls.frame t = some f → t = worker ∧ st.pc = .get
  empty : st.calls.Waiting () worker → l = []

def WorkInv (cfg : Config Tid Unit) (st : WorkSys Tid Wid) : Prop :=
  ∃ w l, WorkBase worker cfg st w l ∧ CallsInv cfg st.calls w

end AvrtosWorkqueue
