import Avrtos.PollSteps
import Avrtos.SchedulerRuns

/-! # Polling over whole runs

    Every operation keeps the invariant while a poller that was woken is not released again. -/

namespace AvrtosPoll

open Function AvrtosDefines AvrtosDlist AvrtosKernel AvrtosSemaphore AvrtosMutex AvrtosFifo
open AvrtosMsgq AvrtosObjects Cells LinkedRing Runs

variable {Tid Qid Pid : Type} [Threads Tid]
variable [DecidableEq Qid] [DecidableEq Pid]

structure PollSys (Tid Qid Pid : Type) where
  polls : Pollers Tid Qid Pid
  objs : Objs Tid Qid

def PollSys.finish (st : PollSys Tid Qid Pid) : PollSys Tid Qid Pid :=
  let cur := st.polls.ker.current
  { polls := st.polls.resume
    objs := { st.objs with
      obj := match st.polls.call cur with
        | some (.wait .mutex q) =>
            update st.objs.obj q { st.objs.obj q with
              mutex := kMutexLockEnd (st.objs.obj q).mutex cur
                (zPendResult (st.polls.ker.thread cur)) }
        | _ => st.objs.obj } }

def PollSys.setObj (st : PollSys Tid Qid Pid) (q : Qid) (obj : Obj Tid) :
    PollSys Tid Qid Pid :=
  { st with objs := { st.objs with obj := update st.objs.obj q obj } }

def PollSys.called {β : Type} (st : PollSys Tid Qid Pid) (call : PollCall Pid Qid)
    (k' : Kernel Tid Qid Pid Nat) : Option β → PollSys Tid Qid Pid
  | some _ => { st with polls := { st.polls with ker := k' } }
  | none => { st with polls := st.polls.leave call k' }.finish

/-- A call that does not switch. -/
def PollSys.setKer (st : PollSys Tid Qid Pid) (k' : Kernel Tid Qid Pid Nat) :
    PollSys Tid Qid Pid :=
  { st with polls := { st.polls with ker := k' } }

/-- The operations of a run. -/
inductive PollOp (Pid : Type) (cfg : Config Tid Qid) where
  | semTake (q : Qid) (timeout : cfg.Timeout)
  | semGive (q : Qid)
  | mutexLock (q : Qid) (timeout : cfg.Timeout)
  | mutexUnlock (q : Qid)
  | fifoPut (q : Qid) (item : Nat)
  | fifoGet (q : Qid) (timeout : cfg.Timeout)
  | msgqPut (q : Qid) (data : Nat) (timeout : cfg.Timeout)
  | msgqGet (q : Qid) (data : Nat) (timeout : cfg.Timeout)
  | slabAlloc (q : Qid) (timeout : cfg.Timeout)
  | slabFree (q : Qid) (mem : Nat)
  | poll (pfds : List (PollItem Pid Qid)) (timeout : cfg.Timeout)
  | sleep (timeout : cfg.Timeout)
  | schedEnter
  | yield
  | start (t : Tid)

def PollOp.timeout? {cfg : Config Tid Qid} :
    PollOp Pid cfg → Option (cfg.Timeout)
  | .semTake _ timeout | .mutexLock _ timeout | .fifoGet _ timeout
  | .msgqPut _ _ timeout | .msgqGet _ _ timeout | .slabAlloc _ timeout
  | .poll _ timeout => if timeout = kNoWait cfg then none else some timeout
  | .sleep timeout => some timeout
  | _ => none

def PollOp.aside? {cfg : Config Tid Qid} :
    PollOp Pid cfg → Option (cfg.Timeout)
  | .poll _ timeout => if timeout = kNoWait cfg then none else some timeout
  | .sleep timeout => some timeout
  | _ => none

def PollOp.array {cfg : Config Tid Qid} : PollOp Pid cfg → List (PollItem Pid Qid)
  | .poll pfds _ => pfds
  | _ => []

def PollOp.Allowed {cfg : Config Tid Qid} (st : PollSys Tid Qid Pid)
    (op : PollOp Pid cfg) : Prop :=
  (∀ _timeout ∈ op.timeout?, st.polls.ker.current ≠ cfg.idle)
    ∧ (op.array.map PollItem.pfd).Nodup

instance {cfg : Config Tid Qid} (st : PollSys Tid Qid Pid) (op : PollOp Pid cfg) :
    Decidable (op.Allowed st) :=
  @instDecidableAnd _ _ (Option.decidableForallMem op.timeout?)
    (inferInstanceAs (Decidable (List.Nodup _)))

variable (reentrancy : Bool)

def PollOp.unpends? {cfg : Config Tid Qid} (st : PollSys Tid Qid Pid) :
    PollOp Pid cfg → Option Qid
  | .semGive q | .fifoPut q _ => some q
  | .mutexUnlock q =>
      let mutex := (st.objs.obj q).mutex
      if mutex.owner = some st.polls.ker.current ∧ ¬ (reentrancy = true ∧ 1 < mutex.lock)
      then some q else none
  | .msgqPut q data _ =>
      let m := (st.objs.obj q).msgq
      if zUser cfg.argsChecks (data ≠ 0) = true ∧ m.usedMsgs < m.maxMsgs then some q else none
  | .msgqGet q data _ =>
      if zUser cfg.argsChecks (data ≠ 0) = true ∧ 0 < (st.objs.obj q).msgq.usedMsgs
      then some q else none
  | .slabFree q mem => if mem = 0 then none else some q
  | _ => none

def PollOp.Careful {cfg : Config Tid Qid} (st : PollSys Tid Qid Pid)
    (op : PollOp Pid cfg) : Prop :=
  (∀ q ∈ op.unpends? reentrancy st, PollerPending st.polls.ker q)
    ∧ (∀ item ∈ op.array, Unused st.polls item.pfd)
    ∧ ∀ timeout ∈ op.aside?, timeout ≠ kForever cfg →
      SelfLinked st.polls.ker.wait (.handle st.polls.ker.current)

instance {cfg : Config Tid Qid} (st : PollSys Tid Qid Pid) (op : PollOp Pid cfg) :
    Decidable (op.Careful reentrancy st) :=
  @instDecidableAnd _ _ (Option.decidableForallMem (op.unpends? reentrancy st))
    (@instDecidableAnd _ _ (List.decidableBAll _ op.array)
      (Option.decidableForallMem op.aside?))

def PollOp.run {cfg : Config Tid Qid} (st : PollSys Tid Qid Pid) :
    PollOp Pid cfg → PollSys Tid Qid Pid
  | .semTake q timeout =>
      let obj := st.objs.obj q
      let r := kSemTake cfg st.polls.ker obj.sem q timeout
      (st.setObj q { obj with sem := r.2.1 }).called (.wait .unit q) r.1 r.2.2
  | .semGive q =>
      let obj := st.objs.obj q
      let r := kSemGive cfg st.polls.ker obj.sem q
      (st.setObj q { obj with sem := r.2.1 }).setKer r.1
  | .mutexLock q timeout =>
      let obj := st.objs.obj q
      let r := kMutexLock cfg reentrancy st.polls.ker obj.mutex q timeout
      (st.setObj q { obj with mutex := r.2.1 }).called (.wait .mutex q) r.1 r.2.2
  | .mutexUnlock q =>
      let obj := st.objs.obj q
      let r := kMutexUnlock cfg reentrancy st.polls.ker obj.mutex q
      (st.setObj q { obj with mutex := r.2.1 }).setKer r.1
  | .fifoPut q item =>
      let obj := st.objs.obj q
      let r := zFifoPut cfg st.polls.ker st.objs.next obj.fifo q item
      ({ st with objs := { st.objs with next := r.2.1 } }.setObj q
        { obj with fifo := r.2.2.1 }).setKer r.1
  | .fifoGet q timeout =>
      let obj := st.objs.obj q
      let r := kFifoGet cfg st.polls.ker st.objs.next obj.fifo q timeout
      (st.setObj q { obj with fifo := r.2.1 }).called (.wait .item q) r.1 r.2.2
  | .msgqPut q data timeout =>
      let obj := st.objs.obj q
      let r := kMsgqPut cfg st.polls.ker st.objs.ram obj.msgq q data timeout
      ({ st with objs := { st.objs with ram := r.2.1 } }.setObj q
        { obj with msgq := r.2.2.1 }).called (.wait .slot q) r.1 r.2.2.2
  | .msgqGet q data timeout =>
      let obj := st.objs.obj q
      let r := kMsgqGet cfg st.polls.ker st.objs.ram obj.msgq q data timeout
      ({ st with objs := { st.objs with ram := r.2.1 } }.setObj q
        { obj with msgq := r.2.2.1 }).called (.wait .message q) r.1 r.2.2.2
  | .slabAlloc q timeout =>
      let obj := st.objs.obj q
      let r := kMemSlabAlloc cfg st.polls.ker st.objs.next obj.slab q timeout
      (st.setObj q { obj with slab := r.2.1 }).called (.wait .block q) r.1 r.2.2.2
  | .slabFree q mem =>
      let obj := st.objs.obj q
      let r := kMemSlabFree cfg st.polls.ker st.objs.next obj.slab q mem
      ({ st with objs := { st.objs with next := r.2.1 } }.setObj q
        { obj with slab := r.2.2.1 }).setKer r.1
  | .poll pfds timeout =>
      let r := kPoll cfg st.polls.ker st.objs pfds timeout
      st.called (.poll pfds) r.1 r.2
  | .sleep timeout =>
      { st with polls := st.polls.leave .sleep (kSleep cfg st.polls.ker timeout) }.finish
  | .schedEnter => st.setKer (zSchedEnter cfg st.polls.ker)
  | .yield => (st.setKer (zScheduler st.polls.ker)).finish
  | .start t => st.setKer (kThreadStart cfg st.polls.ker t).1

def PollReach (cfg : Config Tid Qid)
    (ok : PollSys Tid Qid Pid → PollOp Pid cfg → Prop) : PollSys Tid Qid Pid → Prop :=
  Reach (fun st => ∃ ring, ColdBoot cfg st.polls.ker ring ∧ st.polls.call = fun _ => none)
    (fun st (op : PollOp Pid cfg) => op.Allowed st ∧ ok st op) (PollOp.run reentrancy)

variable {reentrancy} {cfg : Config Tid Qid} {st : PollSys Tid Qid Pid}
variable {s : Shape Tid Qid Pid}

/-- The resource is not available. -/
def Unavailable (obj : Obj Tid) : Resource → Prop
  | .unit => obj.sem.count = 0
  | .mutex => obj.mutex.lock ≠ 0
  | .item => slistPeekHead obj.fifo = none
  | .message => obj.msgq.usedMsgs = 0
  | .slot => obj.msgq.maxMsgs ≤ obj.msgq.usedMsgs
  | .block => obj.slab.freeList = none

/-- The mutex that is locked. -/
def PollOp.locks? {cfg : Config Tid Qid} : PollOp Pid cfg → Option Qid
  | .mutexLock q _ => some q
  | _ => none

def PollOp.Served (reentrancy : Bool) {cfg : Config Tid Qid} (st : PollSys Tid Qid Pid)
    (op : PollOp Pid cfg) : Prop :=
  (∀ q ∈ op.unpends? reentrancy st, (firstPolled st.polls.ker q).isSome = true →
      ∀ t r, ¬ st.polls.Blocked t r q)
    ∧ ∀ q ∈ op.locks?, reentrancy = true →
      (st.objs.obj q).mutex.owner = some st.polls.ker.current →
      (st.objs.obj q).mutex.lock < 255

instance {cfg : Config Tid Qid} (st : PollSys Tid Qid Pid) (op : PollOp Pid cfg) :
    Decidable (op.Served reentrancy st) :=
  @instDecidableAnd _ _ (Option.decidableForallMem (op.unpends? reentrancy st))
    (Option.decidableForallMem op.locks?)

/-- What an operation does. -/
structure StepOk (cfg : Config Tid Qid) (st st' : PollSys Tid Qid Pid) (served : Prop) :
    Prop where
  inv : ∃ s', PollInv cfg st'.polls s'
  kept : served → ∀ t r q, st'.polls.Blocked t r q →
    (st.polls.Blocked t r q → Unavailable (st.objs.obj q) r) →
    Unavailable (st'.objs.obj q) r

section Effects

variable {o' : Objs Tid Qid} {served : Prop} {q : Qid} {r : Resource}

theorem PollSys.finish_unavailable (st : PollSys Tid Qid Pid) (r : Resource) (q : Qid) :
    Unavailable (st.finish.objs.obj q) r ↔ Unavailable (st.objs.obj q) r := by
  simp only [PollSys.finish]
  rcases st.polls.call st.polls.ker.current with _ | ⟨r', q'⟩ | _ | _
  · exact Iff.rfl
  · cases r' with
    | mutex =>
      simp only
      by_cases hq : q = q'
      · subst hq
        rw [update_self]
        cases r with
        | mutex =>
          show (kMutexLockEnd _ _ _).lock ≠ 0 ↔ _
          rw [kMutexLockEnd]
          split_ifs <;> exact Iff.rfl
        | unit => exact Iff.rfl
        | item => exact Iff.rfl
        | message => exact Iff.rfl
        | slot => exact Iff.rfl
        | block => exact Iff.rfl
      · rw [update_of_ne hq]
    | unit => exact Iff.rfl
    | item => exact Iff.rfl
    | message => exact Iff.rfl
    | slot => exact Iff.rfl
    | block => exact Iff.rfl
  · exact Iff.rfl
  · exact Iff.rfl

theorem StepOk.objects (h : PollInv cfg st.polls s)
    (hmono : ∀ r q, Unavailable (st.objs.obj q) r → Unavailable (o'.obj q) r) :
    StepOk cfg st ⟨st.polls, o'⟩ served :=
  ⟨⟨s, h⟩, fun _ _ r q hb hu => hmono r q (hu hb)⟩

theorem StepOk.kernel {c' : Pollers Tid Qid Pid} (hinv : ∃ s', PollInv cfg c' s')
    (hsub : ∀ t r q, c'.Blocked t r q → st.polls.Blocked t r q)
    (ho : ∀ r q, Unavailable (st.objs.obj q) r → Unavailable (o'.obj q) r) :
    StepOk cfg st ⟨c', o'⟩ served :=
  ⟨hinv, fun _ t r q hb hu => ho r q (hu (hsub t r q hb))⟩

theorem StepOk.release (h : PollInv cfg st.polls s) (hp : PollerPending st.polls.ker q)
    (hserved : served → (firstPolled st.polls.ker q).isSome = true →
      ∀ t r, ¬ st.polls.Blocked t r q) {k' : Kernel Tid Qid Pid Nat}
    (hk : k' = (zUnpendFirstThread cfg st.polls.ker q).1
      ∨ ∃ data, k' = (zUnpendFirstAndSwap cfg st.polls.ker q data).1)
    (hsome : ∀ t, (zUnpendFirstThread cfg st.polls.ker q).2 = some t →
      ∀ r q', Unavailable (st.objs.obj q') r → Unavailable (o'.obj q') r)
    (hother : ∀ q', q' ≠ q → o'.obj q' = st.objs.obj q') :
    StepOk cfg st ⟨{ st.polls with ker := k' }, o'⟩ served := by
  obtain ⟨s', hinv, hun, -⟩ := h.unpend q hp
  -- writing `swap_data` changes nothing that matters here
  have hswap : (∃ s', PollInv cfg { st.polls with ker := k' } s') ∧ ∀ x, (k'.thread x).state
        = ((zUnpendFirstThread cfg st.polls.ker q).1.thread x).state := by
    rcases hk with rfl | ⟨data, rfl⟩
    · exact ⟨⟨s', hinv⟩, fun _ => rfl⟩
    · rw [zUnpendFirstAndSwap]
      cases (zUnpendFirstThread cfg st.polls.ker q).2 with
      | none => exact ⟨⟨s', hinv⟩, fun _ => rfl⟩
      | some t =>
        exact ⟨⟨s', hinv.swap t data⟩, swap_state _ t data⟩
  obtain ⟨hinv', hstate⟩ := hswap
  have hsub : ∀ x r q', ({ st.polls with ker := k' } : Pollers Tid Qid Pid).Blocked x r q' →
      st.polls.Blocked x r q' := by
    rintro x r q' ⟨hx, hr⟩
    rw [hstate] at hx
    replace hr : st.polls.call x = some (.wait r q') := hr
    refine ⟨hun.pending (fun pfds hc => ?_) hx, hr⟩
    rw [hr] at hc
    cases hc
  refine ⟨hinv', ?_⟩
  intro hs t r q' hb hu
  have hb' := hsub t r q' hb
  by_cases hq : q' = q
  · cases hr : (zUnpendFirstThread cfg st.polls.ker q).2 with
    | some x => exact hsome x hr r q' (hu hb')
    | none =>
      rw [hr] at hun
      cases hun with
      | nobody hfirst _ _ =>
        subst hq
        rcases hfirst with hnil | hpoll
        · have hmem := (h.waits q' t).mpr ⟨r, hb'⟩
          rw [hnil] at hmem
          cases hmem
        · exact absurd hb' (hserved hs hpoll t r)
  · show Unavailable (o'.obj q') r
    rw [hother q' hq]
    exact hu hb'

theorem StepOk.block {β : Type} {k₀ : Kernel Tid Qid Pid Nat}
    (h₀ : PollInv cfg { st.polls with ker := k₀ } s)
    (hcur : k₀.current = st.polls.ker.current)
    (hst : ∀ x, (k₀.thread x).state = (st.polls.ker.thread x).state)
    (timeout : cfg.Timeout)
    (hidle : timeout ≠ kNoWait cfg → st.polls.ker.current ≠ cfg.idle)
    (hu : Unavailable (st.objs.obj q) r)
    (hmono : ∀ r q, Unavailable (st.objs.obj q) r → Unavailable (o'.obj q) r) {ret : Option β}
    (hret : ret = none ↔ (zPendCurrentOn cfg k₀ (some q) timeout).2 = none) :
    StepOk cfg st ((⟨st.polls, o'⟩ : PollSys Tid Qid Pid).called (.wait r q)
        (zPendCurrentOn cfg k₀ (some q) timeout).1 ret) served := by
  by_cases hn : timeout = kNoWait cfg
  · have hpend : zPendCurrentOn cfg k₀ (some q) timeout = (k₀, some (-EAGAIN)) := by
      rw [zPendCurrentOn, if_pos hn]
    rw [hpend] at hret ⊢
    obtain ⟨v, rfl⟩ := Option.ne_none_iff_exists'.mp fun hc =>
      absurd (hret.mp hc) (Option.some_ne_none _)
    refine StepOk.kernel ⟨s, h₀⟩ ?_ hmono
    rintro t r q ⟨ht, hr⟩
    replace ht : (k₀.thread t).state = .pending := ht
    rw [hst] at ht
    exact ⟨ht, hr⟩
  · obtain ⟨hnone, s', hinv, hthread, -, -⟩ := h₀.block (by
      show k₀.current ≠ _
      rw [hcur]
      exact hidle hn) r q hn
    obtain rfl := hret.mpr hnone
    replace hinv : PollInv cfg (st.polls.leave (.wait r q)
        (zPendCurrentOn cfg k₀ (some q) timeout).1).resume s' := by
      rw [Pollers.leave, ← hcur]
      exact hinv
    replace hthread : (st.polls.leave (.wait r q)
        (zPendCurrentOn cfg k₀ (some q) timeout).1).resume.ker.thread
          = update k₀.thread k₀.current ((k₀.thread k₀.current).blocked
            (decide (timeout ≠ kForever cfg))) := by
      rw [Pollers.leave, ← hcur]
      exact hthread
    refine ⟨⟨s', hinv⟩, ?_⟩
    intro _ t r' q' hb hb'
    refine (PollSys.finish_unavailable ⟨st.polls.leave (.wait r q) _, o'⟩ r' q').mpr
      (hmono r' q' ?_)
    obtain ⟨hpend, hcall⟩ := hb
    replace hcall : update
      (update st.polls.call st.polls.ker.current (some (.wait r q)))
      (zPendCurrentOn cfg k₀ (some q) timeout).1.current none t = some (.wait r' q') := hcall
    by_cases htn : t = (zPendCurrentOn cfg k₀ (some q) timeout).1.current
    · rw [htn, update_self] at hcall
      cases hcall
    · rw [update_of_ne htn] at hcall
      by_cases htc : t = st.polls.ker.current
      · rw [htc, update_self] at hcall
        injection hcall with hcall
        injection hcall with hr hq
        rw [← hr, ← hq]
        exact hu
      · rw [update_of_ne htc] at hcall
        refine hb' ⟨?_, hcall⟩
        replace hpend : ((st.polls.leave (.wait r q)
          (zPendCurrentOn cfg k₀ (some q) timeout).1).resume.ker.thread t).state = .pending := hpend
        rw [hthread] at hpend
        rw [← hst]
        rw [update_of_ne (hcur ▸ htc)] at hpend
        exact hpend

omit [Threads Tid] in
theorem unavailable_update {o : Qid → Obj Tid} {v : Obj Tid}
    (hv : ∀ r, Unavailable (o q) r → Unavailable v r) (r : Resource) (q' : Qid)
    (hu : Unavailable (o q') r) : Unavailable (update o q v q') r := by
  by_cases hq : q' = q
  · subst hq
    rw [update_self]
    exact hv r hu
  · rw [update_of_ne hq]
    exact hu

end Effects

section Operations

variable {obj : Obj Tid} {served : Prop} {q : Qid} {timeout : cfg.Timeout}

omit [Threads Tid] in
theorem Unavailable.withSem {sem : Sem} (hv : obj.sem.count = 0 → sem.count = 0)
    (r : Resource) (hu : Unavailable obj r) : Unavailable { obj with sem := sem } r := by
  cases r with
  | unit => exact hv hu
  | _ => exact hu

omit [Threads Tid] in
theorem Unavailable.withMutex {mutex : Mutex Tid}
    (hv : obj.mutex.lock ≠ 0 → mutex.lock ≠ 0) (r : Resource) (hu : Unavailable obj r) :
    Unavailable { obj with mutex := mutex } r := by
  cases r with
  | mutex => exact hv hu
  | _ => exact hu

omit [Threads Tid] in
theorem Unavailable.withFifo {fifo : Slist Nat}
    (hv : slistPeekHead obj.fifo = none → slistPeekHead fifo = none) (r : Resource)
    (hu : Unavailable obj r) : Unavailable { obj with fifo := fifo } r := by
  cases r with
  | item => exact hv hu
  | _ => exact hu

omit [Threads Tid] in
theorem Unavailable.withMsgq {msgq : Msgq} (hm : obj.msgq.usedMsgs = 0 → msgq.usedMsgs = 0)
    (hs : obj.msgq.maxMsgs ≤ obj.msgq.usedMsgs → msgq.maxMsgs ≤ msgq.usedMsgs)
    (r : Resource) (hu : Unavailable obj r) : Unavailable { obj with msgq := msgq } r := by
  cases r with
  | message => exact hm hu
  | slot => exact hs hu
  | _ => exact hu

omit [Threads Tid] in
theorem Unavailable.withSlab {slab : Slab}
    (hv : obj.slab.freeList = none → slab.freeList = none) (r : Resource)
    (hu : Unavailable obj r) : Unavailable { obj with slab := slab } r := by
  cases r with
  | block => exact hv hu
  | _ => exact hu

section Blocking

variable (h : PollInv cfg st.polls s)
variable (hidle : timeout ≠ kNoWait cfg → st.polls.ker.current ≠ cfg.idle)
include h hidle

theorem step_semTake : StepOk cfg st ((PollOp.semTake q timeout : PollOp Pid cfg).run reentrancy st)
      served := by
  simp only [PollOp.run, kSemTake]
  by_cases hc : 0 < (st.objs.obj q).sem.count
  · simp only [if_pos hc]
    refine StepOk.objects h (unavailable_update (Unavailable.withSem fun hz => ?_))
    exact absurd hz (Nat.ne_of_gt hc)
  · simp only [if_neg hc]
    exact StepOk.block (r := .unit) (q := q) h rfl (fun _ => rfl) timeout hidle
      (Nat.eq_zero_of_not_pos hc) (unavailable_update fun r hu => hu) Iff.rfl

theorem step_mutexLock (hwrap : served → reentrancy = true →
      (st.objs.obj q).mutex.owner = some st.polls.ker.current →
      (st.objs.obj q).mutex.lock < 255) :
    StepOk cfg st ((PollOp.mutexLock q timeout : PollOp Pid cfg).run reentrancy st)
      served := by
  simp only [PollOp.run, kMutexLock]
  by_cases hl : (st.objs.obj q).mutex.lock = 0
  · simp only [if_pos hl]
    exact StepOk.objects h (unavailable_update (Unavailable.withMutex fun hz => absurd hl hz))
  · simp only [if_neg hl]
    by_cases ho : (st.objs.obj q).mutex.owner = some st.polls.ker.current
    · simp only [if_pos ho]
      cases reentrancy with
      | false => exact StepOk.objects h (unavailable_update fun r hu => hu)
      | true =>
        refine ⟨⟨s, h⟩, fun hs t r q' hb hu => ?_⟩
        refine unavailable_update (Unavailable.withMutex fun _ => ?_) r q' (hu hb)
        have hlt := hwrap hs rfl ho
        show ((st.objs.obj q).mutex.lock + 1) % 256 ≠ 0
        omega
    · simp only [if_neg ho]
      exact StepOk.block (r := .mutex) (q := q) h rfl (fun _ => rfl) timeout hidle hl
        (unavailable_update fun r hu => hu) Iff.rfl

theorem step_fifoGet : StepOk cfg st ((PollOp.fifoGet q timeout : PollOp Pid cfg).run reentrancy st)
      served := by
  simp only [PollOp.run, kFifoGet]
  cases hh : (st.objs.obj q).fifo.head with
  | some item =>
    have hg : (slistGet st.objs.next (st.objs.obj q).fifo).2 = some item := by
      simp only [slistGet, hh]
    simp only [hg]
    refine StepOk.objects h (unavailable_update (Unavailable.withFifo fun hz => ?_))
    rw [slistPeekHead, hh] at hz
    cases hz
  | none =>
    have hg : slistGet st.objs.next (st.objs.obj q).fifo = ((st.objs.obj q).fifo, none) := by
      simp only [slistGet, hh]
    simp only [hg]
    exact StepOk.block (r := .item) (q := q) h rfl (fun _ => rfl) timeout hidle hh
      (unavailable_update fun r hu => hu) Option.map_eq_none_iff

theorem step_slabAlloc :
    StepOk cfg st ((PollOp.slabAlloc q timeout : PollOp Pid cfg).run reentrancy st)
      served := by
  simp only [PollOp.run, kMemSlabAlloc]
  cases hh : (st.objs.obj q).slab.freeList with
  | some mem =>
    have hg : (slabAlloc st.objs.next (st.objs.obj q).slab).2 = some mem := by
      simp only [slabAlloc, hh]
    simp only [hg]
    refine StepOk.objects h (unavailable_update (Unavailable.withSlab fun hz => ?_))
    rw [hh] at hz
    exact nomatch hz
  | none =>
    have hg : slabAlloc st.objs.next (st.objs.obj q).slab = ((st.objs.obj q).slab, none) := by
      simp only [slabAlloc, hh]
    simp only [hg]
    by_cases hn : timeout = kNoWait cfg
    · simp only [if_pos hn]
      exact StepOk.objects h (unavailable_update fun r hu => hu)
    · simp only [if_neg hn]
      exact StepOk.block (r := .block) (q := q) h rfl (fun _ => rfl) timeout hidle hh
        (unavailable_update fun r hu => hu) Iff.rfl

end Blocking

section Releasing

variable (h : PollInv cfg st.polls s) (hp : PollerPending st.polls.ker q)
variable (hserved : served → (firstPolled st.polls.ker q).isSome = true →
  ∀ t r, ¬ st.polls.Blocked t r q)
include h hp hserved

theorem step_semGive :
    StepOk cfg st ((PollOp.semGive q : PollOp Pid cfg).run reentrancy st) served := by
  have hk : (kSemGive cfg st.polls.ker (st.objs.obj q).sem q).1
      = (zUnpendFirstThread cfg st.polls.ker q).1 := by
    rw [kSemGive]
    cases (zUnpendFirstThread cfg st.polls.ker q).2 with
    | some t => rfl
    | none => split_ifs <;> rfl
  refine StepOk.release h hp hserved (Or.inl hk) ?_ fun q' hq => update_of_ne hq ..
  intro t ht
  refine unavailable_update (Unavailable.withSem fun hz => ?_)
  simp only [kSemGive, ht]
  exact hz

theorem step_mutexUnlock (ho : (st.objs.obj q).mutex.owner = some st.polls.ker.current)
    (hl : ¬ (reentrancy = true ∧ 1 < (st.objs.obj q).mutex.lock)) :
    StepOk cfg st ((PollOp.mutexUnlock q : PollOp Pid cfg).run reentrancy st) served := by
  have hk : (kMutexUnlock cfg reentrancy st.polls.ker (st.objs.obj q).mutex q).1
      = (zUnpendFirstThread cfg st.polls.ker q).1 := by
    simp only [kMutexUnlock, if_neg (not_not_intro ho), if_neg hl]
    cases (zUnpendFirstThread cfg st.polls.ker q).2 with
    | some t => rfl
    | none => rfl
  refine StepOk.release h hp hserved (Or.inl hk) ?_ fun q' hq => update_of_ne hq ..
  intro t ht
  refine unavailable_update (Unavailable.withMutex fun hz => ?_)
  simp only [kMutexUnlock, if_neg (not_not_intro ho), if_neg hl, ht]
  exact hz

theorem step_fifoPut (item : Nat) :
    StepOk cfg st ((PollOp.fifoPut q item : PollOp Pid cfg).run reentrancy st) served := by
  have hret := zUnpendFirstAndSwap_ret cfg st.polls.ker q (some item)
  have hk : (zFifoPut cfg st.polls.ker st.objs.next (st.objs.obj q).fifo q item).1
      = (zUnpendFirstAndSwap cfg st.polls.ker q (some item)).1 := by
    rw [zFifoPut]
    cases (zUnpendFirstAndSwap cfg st.polls.ker q (some item)).2 with
    | some t => rfl
    | none => rfl
  refine StepOk.release h hp hserved (Or.inr ⟨_, hk⟩) ?_ fun q' hq => update_of_ne hq ..
  intro t ht
  refine unavailable_update (Unavailable.withFifo fun hz => ?_)
  simp only [zFifoPut, hret, ht]
  exact hz

theorem step_slabFree {mem : Nat} (hm : mem ≠ 0) :
    StepOk cfg st ((PollOp.slabFree q mem : PollOp Pid cfg).run reentrancy st) served := by
  have hret := zUnpendFirstAndSwap_ret cfg st.polls.ker q (some mem)
  have hk : (kMemSlabFree cfg st.polls.ker st.objs.next (st.objs.obj q).slab q mem).1
      = (zUnpendFirstAndSwap cfg st.polls.ker q (some mem)).1 := by
    simp only [kMemSlabFree, if_neg hm]
    cases (zUnpendFirstAndSwap cfg st.polls.ker q (some mem)).2 with
    | some t => rfl
    | none => rfl
  refine StepOk.release h hp hserved (Or.inr ⟨_, hk⟩) ?_ fun q' hq => update_of_ne hq ..
  intro t ht
  refine unavailable_update (Unavailable.withSlab fun hz => ?_)
  simp only [kMemSlabFree, if_neg hm, hret, ht]
  exact hz

end Releasing

section Messages

variable (h : PollInv cfg st.polls s) {data : Nat}
variable (hidle : timeout ≠ kNoWait cfg → st.polls.ker.current ≠ cfg.idle)
include h hidle

theorem step_msgqPut (hp : zUser cfg.argsChecks (data ≠ 0) = true →
      (st.objs.obj q).msgq.usedMsgs < (st.objs.obj q).msgq.maxMsgs →
      PollerPending st.polls.ker q ∧ (served → (firstPolled st.polls.ker q).isSome = true →
        ∀ t r, ¬ st.polls.Blocked t r q)) :
    StepOk cfg st ((PollOp.msgqPut q data timeout : PollOp Pid cfg).run reentrancy st)
      served := by
  cases hz : zUser cfg.argsChecks (data ≠ 0) with
  | false =>
    simp only [PollOp.run, kMsgqPut, hz, Bool.not_false, if_true]
    exact StepOk.objects h (unavailable_update fun r hu => hu)
  | true =>
    by_cases hu : (st.objs.obj q).msgq.usedMsgs < (st.objs.obj q).msgq.maxMsgs
    · obtain ⟨hpend, hserved⟩ := hp hz hu
      have hret : (kMsgqPut cfg st.polls.ker st.objs.ram (st.objs.obj q).msgq q data
          timeout).2.2.2 = some 0 := by
        simp only [kMsgqPut, hz, Bool.not_true, Bool.false_eq_true, if_false, if_pos hu]
        cases (zUnpendFirstThread cfg st.polls.ker q).2 with
        | some t => rfl
        | none => rfl
      have hk : (kMsgqPut cfg st.polls.ker st.objs.ram (st.objs.obj q).msgq q data
          timeout).1 = (zUnpendFirstThread cfg st.polls.ker q).1 := by
        simp only [kMsgqPut, hz, Bool.not_true, Bool.false_eq_true, if_false, if_pos hu]
        cases (zUnpendFirstThread cfg st.polls.ker q).2 with
        | some t => rfl
        | none => rfl
      simp only [PollOp.run, hret]
      refine StepOk.release h hpend hserved (Or.inl hk) ?_ fun q' hq => update_of_ne hq ..
      intro t ht
      refine unavailable_update fun r hr => ?_
      simp only [kMsgqPut, hz, Bool.not_true, Bool.false_eq_true, if_false, if_pos hu, ht]
      exact hr
    · simp only [PollOp.run, kMsgqPut, hz, Bool.not_true, Bool.false_eq_true, if_false, if_neg hu]
      by_cases hn : timeout = kNoWait cfg
      · simp only [if_pos hn]
        exact StepOk.objects h (unavailable_update fun r hu => hu)
      · simp only [if_neg hn]
        exact StepOk.block (r := .slot) (q := q) (h.swap _ _) rfl (swap_state _ _ _)
          timeout hidle (Nat.le_of_not_lt hu) (unavailable_update fun r hu => hu) Iff.rfl

theorem step_msgqGet
    (hp : zUser cfg.argsChecks (data ≠ 0) = true → 0 < (st.objs.obj q).msgq.usedMsgs →
      PollerPending st.polls.ker q ∧ (served → (firstPolled st.polls.ker q).isSome = true →
        ∀ t r, ¬ st.polls.Blocked t r q)) :
    StepOk cfg st ((PollOp.msgqGet q data timeout : PollOp Pid cfg).run reentrancy st)
      served := by
  cases hz : zUser cfg.argsChecks (data ≠ 0) with
  | false =>
    simp only [PollOp.run, kMsgqGet, hz, Bool.not_false, if_true]
    exact StepOk.objects h (unavailable_update fun r hu => hu)
  | true =>
    by_cases hu : 0 < (st.objs.obj q).msgq.usedMsgs
    · obtain ⟨hpend, hserved⟩ := hp hz hu
      have hret : (kMsgqGet cfg st.polls.ker st.objs.ram (st.objs.obj q).msgq q data
          timeout).2.2.2 = some 0 := by
        simp only [kMsgqGet, hz, Bool.not_true, Bool.false_eq_true, if_false, if_pos hu]
        cases (zUnpendFirstThread cfg st.polls.ker q).2 with
        | some t => rfl
        | none => rfl
      have hk : (kMsgqGet cfg st.polls.ker st.objs.ram (st.objs.obj q).msgq q data
          timeout).1 = (zUnpendFirstThread cfg st.polls.ker q).1 := by
        simp only [kMsgqGet, hz, Bool.not_true, Bool.false_eq_true, if_false, if_pos hu]
        cases (zUnpendFirstThread cfg st.polls.ker q).2 with
        | some t => rfl
        | none => rfl
      simp only [PollOp.run, hret]
      refine StepOk.release h hpend hserved (Or.inl hk) ?_ fun q' hq => update_of_ne hq ..
      intro t ht
      refine unavailable_update fun r hr => ?_
      simp only [kMsgqGet, hz, Bool.not_true, Bool.false_eq_true, if_false, if_pos hu, ht]
      exact Unavailable.withMsgq id id r hr
    · simp only [PollOp.run, kMsgqGet, hz, Bool.not_true, Bool.false_eq_true, if_false, if_neg hu]
      by_cases hn : timeout = kNoWait cfg
      · simp only [if_pos hn]
        exact StepOk.objects h (unavailable_update fun r hu => hu)
      · simp only [if_neg hn]
        exact StepOk.block (r := .message) (q := q) (h.swap _ _) rfl (swap_state _ _ _)
          timeout hidle (Nat.eq_zero_of_not_pos hu) (unavailable_update fun r hu => hu)
          Iff.rfl

end Messages

section Switching

variable (h : PollInv cfg st.polls s)

theorem StepOk.switch {call : PollCall Pid Qid} (hcall : ∀ r q, call ≠ .wait r q)
    {k' : Kernel Tid Qid Pid Nat}
    (hinv : ∃ s', PollInv cfg (st.polls.leave call k').resume s')
    (hstate : ∀ x, x ≠ st.polls.ker.current →
      ((st.polls.leave call k').resume.ker.thread x).state = (st.polls.ker.thread x).state) :
    StepOk cfg st (PollSys.finish { st with polls := st.polls.leave call k' }) served := by
  refine ⟨hinv, ?_⟩
  rintro - t r q ⟨hpend, hr⟩ hu
  refine (PollSys.finish_unavailable _ r q).mpr (hu ?_)
  replace hr : update (update st.polls.call st.polls.ker.current
    (some call)) k'.current none t = some (.wait r q) := hr
  by_cases htn : t = k'.current
  · rw [htn, update_self] at hr
    exact nomatch hr
  · rw [update_of_ne htn] at hr
    by_cases htc : t = st.polls.ker.current
    · rw [htc, update_self] at hr
      injection hr with hr
      exact absurd hr (hcall r q)
    · rw [update_of_ne htc] at hr
      exact ⟨(hstate t htc).symm.trans hpend, hr⟩

include h

theorem step_sleep (hc : st.polls.ker.current ≠ cfg.idle) (hself : timeout ≠ kForever cfg →
      SelfLinked st.polls.ker.wait (.handle st.polls.ker.current)) :
    StepOk cfg st ((PollOp.sleep timeout : PollOp Pid cfg).run reentrancy st) served := by
  obtain ⟨s', hinv, hthread, -⟩ := h.sleep hc timeout hself
  refine StepOk.switch ?_ ⟨s', hinv⟩ ?_
  · exact fun _ _ hc => nomatch hc
  intro x hx
  rw [hthread, update_of_ne hx]

theorem step_poll {pfds : List (PollItem Pid Qid)} (hnd : (pfds.map PollItem.pfd).Nodup)
    (hp : ∀ item ∈ pfds, Unused st.polls item.pfd)
    (hidle : timeout ≠ kNoWait cfg → st.polls.ker.current ≠ cfg.idle)
    (hself : timeout ≠ kNoWait cfg → timeout ≠ kForever cfg →
      SelfLinked st.polls.ker.wait (.handle st.polls.ker.current)) :
    StepOk cfg st ((PollOp.poll pfds timeout : PollOp Pid cfg).run reentrancy st)
      served := by
  obtain ⟨s', hinv, -, hthread⟩ := h.poll st.objs hnd hp timeout hidle hself
  simp only [PollOp.run]
  generalize (kPoll cfg st.polls.ker st.objs pfds timeout).2 = ret at *
  generalize (kPoll cfg st.polls.ker st.objs pfds timeout).1 = k' at *
  cases ret with
  | some v =>
    refine StepOk.kernel ⟨s', hinv⟩ ?_ fun _ _ hu => hu
    rintro t r q ⟨ht, hr⟩
    refine ⟨?_, hr⟩
    rcases hthread with ⟨hth, -⟩ | ⟨-, hc⟩
    · rw [← hth]
      exact ht
    · exact nomatch hc
  | none =>
    refine StepOk.switch ?_ ⟨s', hinv⟩ ?_
    · exact fun _ _ hc => nomatch hc
    intro x hx
    rcases hthread with ⟨-, hc⟩ | ⟨hth, -⟩
    · exact nomatch hc
    · replace hth : (st.polls.leave (.poll pfds) k').resume.ker.thread = _ := hth
      rw [hth, update_of_ne hx]

theorem step_yield : StepOk cfg st ((PollOp.yield : PollOp Pid cfg).run reentrancy st) served := by
  obtain ⟨s', hinv, hthread, -⟩ := h.yield
  refine ⟨⟨s', hinv⟩, ?_⟩
  rintro - t r q ⟨hpend, hr⟩ hu
  refine (PollSys.finish_unavailable _ r q).mpr (hu ⟨?_, ?_⟩)
  · replace hpend : ((Pollers.resume { st.polls with
      ker := zScheduler st.polls.ker }).ker.thread t).state = .pending := hpend
    rw [hthread] at hpend
    by_cases ht : t = st.polls.ker.current
    · rw [ht, update_self] at hpend
      rw [ht]
      exact hpend
    · rw [update_of_ne ht] at hpend
      exact hpend
  · replace hr : update st.polls.call (zScheduler st.polls.ker).current none t
      = some (.wait r q) := hr
    by_cases ht : t = (zScheduler st.polls.ker).current
    · rw [ht, update_self] at hr
      exact nomatch hr
    · rw [update_of_ne ht] at hr
      exact hr

theorem step_schedEnter :
    StepOk cfg st ((PollOp.schedEnter : PollOp Pid cfg).run reentrancy st) served := by
  obtain ⟨s', E, hinv, hE⟩ := h.schedEnter
  refine StepOk.kernel ⟨s', hinv⟩ ?_ fun _ _ hu => hu
  rintro t r q ⟨hpend, hr⟩
  refine ⟨?_, hr⟩
  replace hpend : ((zSchedEnter cfg st.polls.ker).thread t).state = .pending := hpend
  rw [hE.thread] at hpend
  by_cases ht : t ∈ E
  · rw [if_pos ht] at hpend
    exact nomatch hpend
  · rw [if_neg ht] at hpend
    exact hpend

theorem step_start (t : Tid) :
    StepOk cfg st ((PollOp.start t : PollOp Pid cfg).run reentrancy st) served := by
  refine StepOk.kernel (h.start t) ?_ fun _ _ hu => hu
  rintro x r q ⟨hpend, hr⟩
  refine ⟨?_, hr⟩
  replace hpend : ((kThreadStart cfg st.polls.ker t).1.thread x).state = .pending := hpend
  rw [kThreadStart] at hpend
  split_ifs at hpend with hs
  · exact hpend
  · rw [zSchedule_thread] at hpend
    by_cases hx : x = t
    · rw [hx, update_self] at hpend
      cases hpend
    · rw [update_of_ne hx] at hpend
      exact hpend

end Switching

end Operations

theorem PollOp.step (h : PollInv cfg st.polls s) (op : PollOp Pid cfg) (ha : op.Allowed st)
    (hc : op.Careful reentrancy st) :
    StepOk cfg st (op.run reentrancy st) (op.Served reentrancy st) := by
  have hidle : ∀ timeout, op.timeout? = (if timeout = kNoWait cfg then none
      else some timeout) → timeout ≠ kNoWait cfg → st.polls.ker.current ≠ cfg.idle := by
    intro timeout ht hn
    rw [if_neg hn] at ht
    exact ha.1 timeout ht
  cases op with
  | semTake q timeout => exact step_semTake h (hidle timeout rfl)
  | semGive q => exact step_semGive h (hc.1 q rfl) fun hs => hs.1 q rfl
  | mutexLock q timeout =>
    exact step_mutexLock h (hidle timeout rfl) fun hs => hs.2 q rfl
  | mutexUnlock q =>
    by_cases ho : (st.objs.obj q).mutex.owner = some st.polls.ker.current
    · by_cases hl : reentrancy = true ∧ 1 < (st.objs.obj q).mutex.lock
      · have hk : (PollOp.mutexUnlock q : PollOp Pid cfg).run reentrancy st
            = st.setObj q { st.objs.obj q with
              mutex := { (st.objs.obj q).mutex with
                lock := (st.objs.obj q).mutex.lock - 1 } } := by
          simp only [PollOp.run, kMutexUnlock, if_neg (not_not_intro ho), if_pos hl]
          rfl
        rw [hk]
        refine StepOk.objects h (unavailable_update (Unavailable.withMutex fun _ => ?_))
        show (st.objs.obj q).mutex.lock - 1 ≠ 0
        have := hl.2
        omega
      · have hq : (PollOp.mutexUnlock q : PollOp Pid cfg).unpends? reentrancy st
            = some q := if_pos ⟨ho, hl⟩
        exact step_mutexUnlock h (hc.1 q hq) (fun hs => hs.1 q hq) ho hl
    · have hk : (PollOp.mutexUnlock q : PollOp Pid cfg).run reentrancy st
          = st.setObj q (st.objs.obj q) := by
        simp only [PollOp.run, kMutexUnlock, if_pos ho]
        rfl
      rw [hk]
      exact StepOk.objects h (unavailable_update fun r hu => hu)
  | fifoPut q item => exact step_fifoPut h (hc.1 q rfl) (fun hs => hs.1 q rfl) item
  | fifoGet q timeout => exact step_fifoGet h (hidle timeout rfl)
  | msgqPut q data timeout =>
    refine step_msgqPut h (hidle timeout rfl) fun hz hu => ?_
    have hq : (PollOp.msgqPut q data timeout : PollOp Pid cfg).unpends? reentrancy st
        = some q := if_pos ⟨hz, hu⟩
    exact ⟨hc.1 q hq, fun hs => hs.1 q hq⟩
  | msgqGet q data timeout =>
    refine step_msgqGet h (hidle timeout rfl) fun hz hu => ?_
    have hq : (PollOp.msgqGet q data timeout : PollOp Pid cfg).unpends? reentrancy st
        = some q := if_pos ⟨hz, hu⟩
    exact ⟨hc.1 q hq, fun hs => hs.1 q hq⟩
  | slabAlloc q timeout => exact step_slabAlloc h (hidle timeout rfl)
  | slabFree q mem =>
    by_cases hm : mem = 0
    · have hk : (PollOp.slabFree q mem : PollOp Pid cfg).run reentrancy st
          = st.setObj q (st.objs.obj q) := by
        simp only [PollOp.run, kMemSlabFree, if_pos hm]
        rfl
      rw [hk]
      exact StepOk.objects h (unavailable_update fun r hu => hu)
    · have hq : (PollOp.slabFree q mem : PollOp Pid cfg).unpends? reentrancy st
          = some q := if_neg hm
      exact step_slabFree h (hc.1 q hq) (fun hs => hs.1 q hq) hm
  | poll pfds timeout =>
    refine step_poll h ha.2 hc.2.1 (hidle timeout rfl) fun hn hf => hc.2.2 timeout ?_ hf
    exact if_neg hn
  | sleep timeout => exact step_sleep h (ha.1 timeout rfl) (hc.2.2 timeout rfl)
  | schedEnter => exact step_schedEnter h
  | yield => exact step_yield h
  | start t => exact step_start h t

theorem pollInv_boot {ring : List Tid} (hboot : ColdBoot cfg st.polls.ker ring)
    (hcall : st.polls.call = fun _ => none) : ∃ s, PollInv cfg st.polls s := by
  refine ⟨⟨ring, [], fun _ => []⟩, ⟨hboot.kinv, ?_, ?_, ?_, ?_⟩, ?_⟩
  · intro q t
    refine ⟨fun hc => (nomatch hc), ?_⟩
    rintro ⟨r, -, hr⟩
    rw [hcall] at hr
    exact nomatch hr
  · exact fun q p hp => nomatch hp
  · intro t pfds ht
    rw [hcall] at ht
    exact nomatch ht
  · intro t pfds ht
    rw [hcall] at ht
    exact nomatch ht
  · rw [hcall]

theorem PollReach.inv (h : PollReach reentrancy cfg
    (fun st op => op.Careful reentrancy st) st) : ∃ s, PollInv cfg st.polls s := by
  refine Reach.invariant (P := fun st : PollSys Tid Qid Pid => ∃ s, PollInv cfg st.polls s) h ?_ ?_
  · rintro st ⟨ring, hboot, hcall⟩
    exact pollInv_boot hboot hcall
  · rintro st op ⟨s, hi⟩ hok
    exact (PollOp.step hi op hok.1 hok.2).inv

/-- **WOKEN ONCE**: where a thread in `k_poll` is released only while it is PENDING, the ring
    visits each READY thread once. -/
theorem poll_wakes_once (h : PollReach reentrancy cfg
    (fun st op => op.Careful reentrancy st) st) : SchedulerOk cfg st.polls.ker := by
  obtain ⟨s, hi⟩ := h.inv
  exact hi.kernel.schedulerOk

def pollBoot (k : Kernel Tid Qid Pid Nat) : PollSys Tid Qid Pid where
  polls := ⟨k, fun _ => none⟩
  objs :=
    { obj := fun _ => ⟨⟨0, 1⟩, kMutexInit, slistInit, ⟨0, 0, 0, 0, 0, 0, 0⟩, ⟨0, 0, 0, none⟩⟩
      next := fun _ => none
      ram := fun _ => 0 }

def pollBoth : PollOp (Fin 2) (smallConfig (Fin 2)) :=
  .poll [⟨0, .sem, 0⟩, ⟨1, .sem, 1⟩] (kForever _)

def polledOnce : PollSys (Fin 4) (Fin 2) (Fin 2) :=
  [pollBoth, .semGive 1, .yield].foldl (PollOp.run false)
    (pollBoot (smallBoot (Fin 2) (Fin 2) Nat))

theorem poll_wakes_once_polledOnce :
    PollReach false (smallConfig (Fin 2)) (fun st op => op.Careful false st) polledOnce
      ∧ polledOnce.polls.ker.current = 0
      ∧ (polledOnce.polls.ker.pollfd 1).ready = true
      ∧ SchedulerOk (smallConfig (Fin 2)) polledOnce.polls.ker := by
  have hreach : PollReach false (smallConfig (Fin 2)) (fun st op => op.Careful false st)
      polledOnce := Reach.foldl (.start ⟨_, smallBoot_boot, rfl⟩) (by decide)
  exact ⟨hreach, by decide, by decide, poll_wakes_once hreach⟩

def polledTwice : PollSys (Fin 4) (Fin 2) (Fin 2) :=
  [pollBoth, .semGive 0, .semGive 1].foldl (PollOp.run false)
    (pollBoot (smallBoot (Fin 2) (Fin 2) Nat))

/-- **WOKEN TWICE**: `ready_count` is four with three threads READY, and thread
    0 is its own successor in the ring. -/
theorem poll_wakes_twice :
    PollReach false (smallConfig (Fin 2)) (fun _ _ => True) polledTwice
      ∧ ¬ SchedulerOk (smallConfig (Fin 2)) polledTwice.polls.ker
      ∧ polledTwice.polls.ker.readyCount = 4
      ∧ next polledTwice.polls.ker.tie (0 : Fin 4) = 0 := by
  have hreach : PollReach false (smallConfig (Fin 2)) (fun _ _ => True) polledTwice :=
    Reach.foldl (.start ⟨_, smallBoot_boot, rfl⟩) (by decide)
  refine ⟨hreach, fun h => ?_, by decide, by decide⟩
  exact absurd h.ready_count (by decide)

/-- **NOTHING AVAILABLE**: where a release that finds a poller first finds no blocked thread,
    nobody is blocked on what is available. -/
theorem blocked_unavailable (h : PollReach reentrancy cfg
    (fun st op => op.Careful reentrancy st ∧ op.Served reentrancy st) st) {t : Tid}
    {r : Resource} {q : Qid} (hb : st.polls.Blocked t r q) :
    Unavailable (st.objs.obj q) r := by
  suffices hall : (∃ s, PollInv cfg st.polls s) ∧ ∀ t r q, st.polls.Blocked t r q →
      Unavailable (st.objs.obj q) r from hall.2 t r q hb
  refine Reach.invariant (P := fun st : PollSys Tid Qid Pid =>
    (∃ s, PollInv cfg st.polls s) ∧ ∀ t r q, st.polls.Blocked t r q →
      Unavailable (st.objs.obj q) r) h ?_ ?_
  · rintro st ⟨ring, hboot, hcall⟩
    refine ⟨pollInv_boot hboot hcall, ?_⟩
    rintro t r q ⟨-, hr⟩
    rw [hcall] at hr
    exact nomatch hr
  · rintro st op ⟨⟨s, hi⟩, hold⟩ ⟨ha, hc, hs⟩
    have hstep := PollOp.step hi op ha hc
    exact ⟨hstep.inv, fun t r q hb => hstep.kept hs t r q hb (hold t r q)⟩

/-- A thread polls semaphore 0. -/
def pollOne : PollOp (Fin 2) (smallConfig (Fin 2)) := .poll [⟨0, .sem, 0⟩] (kForever _)

def pollerBehind : PollSys (Fin 4) (Fin 2) (Fin 2) :=
  [.semTake 0 (kForever _), .semTake 0 (kForever _), pollOne, .semGive 0].foldl
    (PollOp.run false) (pollBoot (smallBoot (Fin 2) (Fin 2) Nat))

theorem blocked_unavailable_pollerBehind :
    pollerBehind.polls.Blocked 2 .unit 0
      ∧ Unavailable (pollerBehind.objs.obj 0) .unit := by
  have hb : pollerBehind.polls.Blocked 2 .unit 0 := by decide
  have hreach : PollReach false (smallConfig (Fin 2))
      (fun st op => op.Careful false st ∧ op.Served false st) pollerBehind :=
    Reach.foldl (.start ⟨_, smallBoot_boot, rfl⟩) (by decide)
  exact ⟨hb, blocked_unavailable hreach hb⟩

def pollerFirst : PollSys (Fin 4) (Fin 2) (Fin 2) :=
  [pollOne, .semTake 0 (kForever _), .semGive 0].foldl (PollOp.run false)
    (pollBoot (smallBoot (Fin 2) (Fin 2) Nat))

/-- **STAYS BLOCKED**: the unit is stored for the poller, and the thread behind
    it stays blocked although the semaphore has a unit. -/
theorem blocked_available :
    PollReach false (smallConfig (Fin 2))
        (fun st op => op.Careful false st ∧ op.array.length ≤ 1) pollerFirst
      ∧ pollerFirst.polls.Blocked 2 .unit 0
      ∧ (pollerFirst.objs.obj 0).sem.count = 1 := by
  have hreach : PollReach false (smallConfig (Fin 2))
      (fun st op => op.Careful false st ∧ op.array.length ≤ 1) pollerFirst :=
    Reach.foldl (.start ⟨_, smallBoot_boot, rfl⟩) (by decide)
  exact ⟨hreach, by decide, by decide⟩

end AvrtosPoll
