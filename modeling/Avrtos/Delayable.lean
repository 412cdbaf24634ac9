import Avrtos.Event
import Avrtos.WorkPool

/-! # Delayable work

    An item is in `z_event_q`, in a workqueue or at rest; `DelayInv` is kept by every call. -/

namespace AvrtosDelayable

open Function List AvrtosDefines AvrtosKernel AvrtosTqueue AvrtosEvent AvrtosFifo AvrtosWorkqueue
open AvrtosPool DeltaList Runs

/-- Work items, delayable or not. -/
inductive Item (Did Wid : Type) where
  | delayable (d : Did)
  | plain (x : Wid)
deriving DecidableEq, Repr

structure Works (Tid Qid Did Wid : Type) where
  pool : Pool Tid Qid (Item Did Wid)
  workqueue : Did → Option Qid
  quiet : Did → Bool
  cancelling : List Did
  starts : List (Did × Bool)

abbrev DelaySys (Tid Qid Did Wid : Type) := Events Did (Works Tid Qid Did Wid)

variable {Tid Qid Did Wid : Type} [Threads Tid]
variable [DecidableEq Qid] [DecidableEq Did] [Fintype Did] [DecidableEq Wid]

def eventConfig (cfg : Config Tid Qid) : EventConfig cfg.deltaBits where
  periodTicks := cfg.sliceTicks
  argsChecks := cfg.argsChecks
  allowNoWait := true

section Functions

variable (cfg : Config Tid Qid) (st : DelaySys Tid Qid Did Wid)

def setPool (pool : Pool Tid Qid (Item Did Wid)) : DelaySys Tid Qid Did Wid :=
  { st with world := { st.world with pool := pool } }

/-- `z_delayable_work_trigger`. -/
def zDelayableWorkTrigger (dwork : Did) : DelaySys Tid Qid Did Wid :=
  match st.world.workqueue dwork with
  | none => st
  | some q => setPool st (zWorkSubmit cfg st.world.pool q (.delayable dwork))

/-- `z_work_delayable_schedule`. -/
def zWorkDelayableSchedule (workqueue : Qid) (dwork : Did)
    (timeout : cfg.Timeout) : DelaySys Tid Qid Did Wid :=
  let st := { st with world := { st.world with
    workqueue := update st.world.workqueue dwork (some workqueue) } }
  if timeout = kNoWait cfg then
    setPool st (zWorkSubmit cfg st.world.pool workqueue (.delayable dwork))
  else zEventSchedule st dwork timeout

/-- `k_work_delayable_schedule`. -/
def kWorkDelayableSchedule (workqueue : Qid) (dwork : Did)
    (timeout : cfg.Timeout) : DelaySys Tid Qid Did Wid × Int :=
  if st.scheduled dwork || !zWorkSubmittable st.world.pool.next (.delayable dwork) then
    (st, -EBUSY)
  else (zWorkDelayableSchedule cfg st workqueue dwork timeout, 0)

/-- `k_work_delayable_reschedule`. -/
def kWorkDelayableReschedule (workqueue : Qid) (dwork : Did)
    (timeout : cfg.Timeout) : DelaySys Tid Qid Did Wid × Int :=
  if !zWorkSubmittable st.world.pool.next (.delayable dwork) then (st, -EBUSY)
  else if st.scheduled dwork then
    (zEventReschedule (eventConfig cfg) st dwork timeout, 0)
  else (zWorkDelayableSchedule cfg st workqueue dwork timeout, 1)

/-- `k_work_delayable_cancel` up to its own critical section, and what it returns
    unless it gets there. -/
def kWorkDelayableCancel (dwork : Did) : DelaySys Tid Qid Did Wid × Option Int :=
  let r := kEventCancel (eventConfig cfg) st dwork
  (r.1, if r.2 ≠ -EAGAIN then some r.2 else none)

def kWorkDelayableCancelEnd (dwork : Did) : Int :=
  if !zWorkSubmittable st.world.pool.next (.delayable dwork) then -EBUSY else -EAGAIN

def zEventQRound : DelaySys Tid Qid Did Wid :=
  let r := tqueuePop st.queue
  match r.2 with
  | none => st
  | some event =>
      zDelayableWorkTrigger cfg
        { st with
          queue := r.1
          scheduled := update st.scheduled event false } event

end Functions

/-- The operations of a run. -/
inductive DelayOp (cfg : Config Tid Qid) (Did Wid : Type) where
  | schedule (q : Qid) (d : Did) (timeout : cfg.Timeout)
  | reschedule (q : Qid) (d : Did) (timeout : cfg.Timeout)
  | cancel (d : Did)
  | cancelEnd (d : Did)
  /-- `k_work_submit` of another item -/
  | submit (q : Qid) (x : Wid)
  /-- `z_event_q_process` lets time pass -/
  | shift
  | expire
  | step (q : Qid)
  | schedEnter
  | yield

def DelayOp.Allowed (cfg : PoolConfig Tid Qid) (st : DelaySys Tid Qid Did Wid) :
    DelayOp cfg.toConfig Did Wid → Prop
  | .step q => st.world.pool.calls.ker.current = cfg.worker q
  | .cancelEnd d => d ∈ st.world.cancelling
  | _ => True

instance decDelayAllowed (cfg : PoolConfig Tid Qid) (st : DelaySys Tid Qid Did Wid) :
    (op : DelayOp cfg.toConfig Did Wid) → Decidable (op.Allowed cfg st)
  | .step _ => inferInstanceAs (Decidable (_ = _))
  | .cancelEnd _ => inferInstanceAs (Decidable (_ ∈ _))
  | .schedule _ _ _ | .reschedule _ _ _ | .cancel _ | .submit _ _ | .shift | .expire
  | .schedEnter | .yield => isTrue trivial

def DelayOp.Careful (cfg : PoolConfig Tid Qid) (st : DelaySys Tid Qid Did Wid) :
    DelayOp cfg.toConfig Did Wid → Prop
  | .schedule _ d _ | .reschedule _ d _ => ¬ st.world.pool.Loose cfg (.delayable d)
  | .submit _ x => ¬ st.world.pool.Loose cfg (.plain x)
  | .cancel d => st.scheduled d = true → ¬ st.world.pool.Due (.delayable d)
  | .cancelEnd d => st.world.pool.next (.delayable d) = none → st.scheduled d = false
      ∧ ¬ st.world.pool.Loose cfg (.delayable d) ∧ ¬ st.world.pool.Due (.delayable d)
  | _ => True

instance decDelayCareful [Fintype Qid] (cfg : PoolConfig Tid Qid)
    (st : DelaySys Tid Qid Did Wid) :
    (op : DelayOp cfg.toConfig Did Wid) → Decidable (op.Careful cfg st)
  | .schedule _ _ _ => inferInstanceAs (Decidable (¬ _))
  | .reschedule _ _ _ => inferInstanceAs (Decidable (¬ _))
  | .submit _ _ => inferInstanceAs (Decidable (¬ _))
  | .cancel _ => inferInstanceAs (Decidable (_ → ¬ _))
  | .cancelEnd _ => inferInstanceAs (Decidable (_ → _ ∧ ¬ _ ∧ ¬ _))
  | .shift | .expire | .step _ | .schedEnter | .yield => isTrue trivial

def setQuiet (st : DelaySys Tid Qid Did Wid) (d : Did) (b : Bool) :
    DelaySys Tid Qid Did Wid :=
  { st with world := { st.world with quiet := update st.world.quiet d b } }

def startsOf (st : DelaySys Tid Qid Did Wid) (q : Qid) : List (Did × Bool) :=
  match st.world.pool.pc q with
  | .reset (.delayable d) => [(d, st.world.quiet d)]
  | _ => []

/-- The state after an operation. -/
def DelayOp.run {cfg : Config Tid Qid} (st : DelaySys Tid Qid Did Wid) :
    DelayOp cfg Did Wid → DelaySys Tid Qid Did Wid
  | .schedule q d timeout =>
      let r := kWorkDelayableSchedule cfg st q d timeout
      if 0 ≤ r.2 then setQuiet r.1 d false else r.1
  | .reschedule q d timeout =>
      let r := kWorkDelayableReschedule cfg st q d timeout
      if 0 ≤ r.2 then setQuiet r.1 d false else r.1
  | .cancel d =>
      let r := kWorkDelayableCancel cfg st d
      match r.2 with
      | some _ => setQuiet r.1 d true
      | none =>
          { r.1 with world := { r.1.world with cancelling := d :: r.1.world.cancelling } }
  | .cancelEnd d =>
      let st' := { st with
        world := { st.world with cancelling := st.world.cancelling.erase d } }
      if kWorkDelayableCancelEnd st d = -EAGAIN then setQuiet st' d true else st'
  | .submit q x => setPool st (kWorkSubmit cfg st.world.pool q (.plain x)).1
  | .shift => zEventQShift (eventConfig cfg) st
  | .expire => zEventQRound cfg st
  | .step q =>
      { st with world := { st.world with
        pool := st.world.pool.work cfg q
        starts := st.world.starts ++ startsOf st q } }
  | .schedEnter => setPool st (st.world.pool.schedEnter cfg)
  | .yield => setPool st st.world.pool.yield

def delayBoot (k : Kernel Tid Qid Empty (Item Did Wid)) (tie : Did → TItem Did) :
    DelaySys Tid Qid Did Wid where
  queue := ⟨tie, none, false, false⟩
  scheduled := fun _ => false
  world := ⟨poolBoot k, fun _ => none, fun _ => false, [], []⟩

def DelayReach (cfg : PoolConfig Tid Qid)
    (ok : DelaySys Tid Qid Did Wid → DelayOp cfg.toConfig Did Wid → Prop) :
    DelaySys Tid Qid Did Wid → Prop :=
  Reach (fun st => ∃ k ring tie, ColdBoot cfg.toConfig k ring ∧ st = delayBoot k tie)
    (fun st (op : DelayOp cfg.toConfig Did Wid) => op.Allowed cfg st ∧ ok st op)
    DelayOp.run

section Process

variable {cfg : Config Tid Qid} {st : DelaySys Tid Qid Did Wid}

omit [Threads Tid] [DecidableEq Qid] [Fintype Did] [DecidableEq Wid] in
theorem pop_queue_of_none (h : (tqueuePop st.queue).2 = none) :
    { st with queue := (tqueuePop st.queue).1 } = st := by
  have hq : (tqueuePop st.queue).1 = st.queue := by
    unfold tqueuePop at h ⊢
    split at h
    · rfl
    · split_ifs at h ⊢
      rfl
  rw [hq]

omit [Fintype Did] in
theorem zEventQRound_of_none (h : (tqueuePop st.queue).2 = none) : zEventQRound cfg st = st := by
  simp only [zEventQRound, h]

omit [Fintype Did] in
theorem zEventQLoop_eq (n : Nat) :
    (zEventQLoop (fun _ d st => zDelayableWorkTrigger cfg st d) n st).1
      = (zEventQRound cfg)^[n] st := by
  induction n generalizing st with
  | zero =>
    cases hp : (tqueuePop st.queue).2 with
    | none =>
      simp only [zEventQLoop, hp]
      exact pop_queue_of_none hp
    | some e =>
      simp only [zEventQLoop, hp]
      rfl
  | succ n ih =>
    rw [iterate_succ_apply]
    cases hp : (tqueuePop st.queue).2 with
    | none =>
      have hfix : Function.IsFixedPt (zEventQRound cfg) st := zEventQRound_of_none hp
      rw [hfix.eq, hfix.iterate n]
      simp only [zEventQLoop, hp]
      exact pop_queue_of_none hp
    | some e =>
      rw [← ih]
      simp only [zEventQLoop, zEventQRound, hp]

/-- **`z_event_q_process` IS A RUN**. -/
theorem zEventQProcess_eq_run :
    (zEventQProcess (eventConfig cfg) (fun _ d st => zDelayableWorkTrigger cfg st d) st).1
      = (DelayOp.shift :: replicate (Fintype.card Did) DelayOp.expire :
          List (DelayOp cfg Did Wid)).foldl DelayOp.run st := by
  rw [zEventQProcess, zEventQLoop_eq, foldl_cons]
  show _ = List.foldl _ (zEventQShift (eventConfig cfg) st) _
  generalize zEventQShift (eventConfig cfg) st = st'
  induction Fintype.card Did generalizing st' with
  | zero => rfl
  | succ n ih =>
    rw [iterate_succ_apply, replicate_succ, foldl_cons]
    exact ih _

end Process

section LifeCycle

variable [Fintype Qid] (cfg : PoolConfig Tid Qid) (st : DelaySys Tid Qid Did Wid)
variable (l : Qid → List (Item Did Wid))

def queued (d : Did) : Nat := ∑ q, (st.world.pool.stock cfg q l).count (.delayable d)

def places (d : Did) : Nat :=
  ((remaining st.queue).map Prod.fst).count d + queued cfg st l d

structure LifeCycle : Prop where
  lists : ∀ q, SlistRep st.world.pool.next (st.world.pool.queue q) (l q)
  once : ∀ d, places cfg st l d ≤ 1
  schedule : ∀ q d timeout,
    (DelayOp.schedule q d timeout : DelayOp cfg.toConfig Did Wid).Careful cfg st →
    (kWorkDelayableSchedule cfg.toConfig st q d timeout).2
      = if places cfg st l d = 0 then 0 else -EBUSY
  reschedule : ∀ q d timeout,
    (DelayOp.reschedule q d timeout : DelayOp cfg.toConfig Did Wid).Careful cfg st →
    queued cfg st l d ≠ 0 →
    (kWorkDelayableReschedule cfg.toConfig st q d timeout).2 = -EBUSY
  cancel : ∀ d, queued cfg st l d ≠ 0 → (kWorkDelayableCancel cfg.toConfig st d).2 = none
  cancelEnd : ∀ d,
    (DelayOp.cancelEnd d : DelayOp cfg.toConfig Did Wid).Careful cfg st →
    queued cfg st l d ≠ 0 → kWorkDelayableCancelEnd st d = -EBUSY
  starts : ∀ s ∈ st.world.starts, s.2 = false

end LifeCycle

def oneWorker : PoolConfig (Fin 4) Unit where
  toConfig := smallConfig Unit
  worker := fun _ => 1
  worker_inj := fun _ _ _ => rfl
  worker_ne_idle := fun _ => by decide

def delayRun (ops : List (DelayOp oneWorker.toConfig Unit Unit)) :
    DelaySys (Fin 4) Unit Unit Unit :=
  ops.foldl DelayOp.run
    (delayBoot (smallBoot Unit Empty (Item Unit Unit)) fun _ => ⟨0, none⟩)

def queuedAlone : List (DelayOp oneWorker.toConfig Unit Unit) := [.schedule () () 0]

def cancelledInVain : List (DelayOp oneWorker.toConfig Unit Unit) :=
  queuedAlone ++ [.cancel (), .cancelEnd (), .yield, .step (), .step (), .step ()]

/-- **MISJUDGED**: the cancellation returns `-EAGAIN`, and the handler is called nevertheless. -/
theorem delayable_misjudged :
    DelayReach oneWorker (fun _ _ => True) (delayRun queuedAlone)
      ∧ ((delayRun queuedAlone).world.pool.queue ()).head = some (.delayable ())
      ∧ (kWorkDelayableSchedule oneWorker.toConfig (delayRun queuedAlone) () () 1).2 = 0
      ∧ kWorkDelayableCancelEnd (delayRun queuedAlone) () = -EAGAIN
      ∧ DelayReach oneWorker (fun _ _ => True) (delayRun cancelledInVain)
      ∧ (delayRun cancelledInVain).world.starts = [((), true)] := by
  have hstart : DelayReach oneWorker (fun _ _ => True) (delayRun []) :=
    .start ⟨_, _, _, smallBoot_boot, rfl⟩
  exact ⟨Reach.foldl hstart (by decide), by decide, by decide, by decide,
    Reach.foldl hstart (by decide), by decide⟩

section Invariant

variable {cfg : PoolConfig Tid Qid} {st st' : DelaySys Tid Qid Did Wid}
variable {home home' : Item Did Wid → Option Qid} {l : Qid → List (Item Did Wid)}
variable {q : Qid} {d : Did}

structure DelayOk (st : DelaySys Tid Qid Did Wid) (home : Item Did Wid → Option Qid) :
    Prop where
  apart : ∀ d, st.scheduled d = true → home (.delayable d) = none
  assigned : ∀ d, st.scheduled d = true → st.world.workqueue d ≠ none
  quiet : ∀ d, st.world.quiet d = true → st.scheduled d = false
    ∧ home (.delayable d) = none ∧ ¬ st.world.pool.Due (.delayable d)
  starts : ∀ s ∈ st.world.starts, s.2 = false

def DelayInv (cfg : PoolConfig Tid Qid) (st : DelaySys Tid Qid Did Wid) : Prop :=
  ∃ events l home, EventsRep cfg.deltaBits st events
    ∧ PoolInv cfg st.world.pool l home ∧ DelayOk st home

omit [Threads Tid] [DecidableEq Qid] [Fintype Did] [DecidableEq Wid] in
theorem DelayOk.setItem (h : DelayOk st home)
    (hscheduled : ∀ x, x ≠ d → st'.scheduled x = st.scheduled x)
    (hworkqueue : ∀ x, x ≠ d → st'.world.workqueue x = st.world.workqueue x)
    (hquiet : ∀ x, x ≠ d → st'.world.quiet x = st.world.quiet x)
    (hpc : ∀ x, st'.world.pool.Due x → st.world.pool.Due x)
    (hhome : ∀ x, x ≠ d → home' (.delayable x) = home (.delayable x))
    (hstarts : st'.world.starts = st.world.starts)
    (hself : st'.scheduled d = true → home' (.delayable d) = none ∧ st'.world.workqueue d ≠ none)
    (hstill : st'.world.quiet d = true → st'.scheduled d = false
      ∧ home' (.delayable d) = none ∧ ¬ st'.world.pool.Due (.delayable d)) :
    DelayOk st' home' := by
  refine ⟨?_, ?_, ?_, ?_⟩
  · intro x hx
    by_cases hxd : x = d
    · subst hxd
      exact (hself hx).1
    · rw [hhome x hxd]
      exact h.apart x ((hscheduled x hxd).symm.trans hx)
  · intro x hx
    by_cases hxd : x = d
    · subst hxd
      exact (hself hx).2
    · rw [hworkqueue x hxd]
      exact h.assigned x ((hscheduled x hxd).symm.trans hx)
  · intro x hx
    by_cases hxd : x = d
    · subst hxd
      exact hstill hx
    · obtain ⟨hs, hn, hdue⟩ := h.quiet x ((hquiet x hxd).symm.trans hx)
      rw [hscheduled x hxd, hhome x hxd]
      exact ⟨hs, hn, fun hc => hdue (hpc _ hc)⟩
  · rw [hstarts]
    exact h.starts

omit [Threads Tid] [DecidableEq Qid] [DecidableEq Did] [Fintype Did] [DecidableEq Wid] in
theorem DelayOk.setPool {pool : Pool Tid Qid (Item Did Wid)} (h : DelayOk st home)
    (hpc : ∀ x, pool.Due x → st.world.pool.Due x)
    (hhome : ∀ x, home' (.delayable x) = home (.delayable x)) :
    DelayOk (setPool st pool) home' := by
  refine ⟨?_, h.assigned, ?_, h.starts⟩
  · intro x hx
    rw [hhome]
    exact h.apart x hx
  · intro x hx
    obtain ⟨hs, hn, hdue⟩ := h.quiet x hx
    rw [hhome]
    exact ⟨hs, hn, fun hc => hdue (hpc _ hc)⟩

omit [DecidableEq Qid] [Fintype Did] in
theorem update_delayable {x : Did} {v : Option Qid} (hx : x ≠ d) :
    update home (.delayable d) v (.delayable x) = home (.delayable x) := by
  refine update_of_ne ?_ _ _
  intro hc
  cases hc
  exact hx rfl

theorem DelayInv.schedule (h : DelayInv cfg st) (hs : st.scheduled d = false)
    (hnext : st.world.pool.next (.delayable d) = none)
    (hloose : ¬ st.world.pool.Loose cfg (.delayable d)) (q : Qid)
    (timeout : cfg.Timeout) :
    DelayInv cfg (setQuiet (zWorkDelayableSchedule cfg.toConfig st q d timeout) d false) := by
  obtain ⟨events, l, home, hev, hpool, hok⟩ := h
  have hhome := hpool.home_of_submittable hnext hloose
  by_cases hno : timeout = kNoWait cfg.toConfig
  · obtain ⟨l', hput, -⟩ := hpool.put q hhome
    have hrun : zWorkDelayableSchedule cfg.toConfig st q d timeout
        = AvrtosDelayable.setPool { st with world := { st.world with
            workqueue := update st.world.workqueue d (some q) } }
          (zWorkSubmit cfg.toConfig st.world.pool q (.delayable d)) := if_pos hno
    rw [hrun]
    refine ⟨events, l', _, hev.setWorld _, hput, hok.setItem (d := d) ?_ ?_ ?_ ?_ ?_ rfl ?_ ?_⟩
    · exact fun _ _ => rfl
    · exact fun x hx => update_of_ne hx _ _
    · exact fun x hx => update_of_ne hx _ _
    · exact fun x hx => hx
    · exact fun x hx => update_delayable hx
    · exact fun hc => absurd (hs.symm.trans hc) Bool.false_ne_true
    · intro hc
      have hq : update st.world.quiet d false d = true := hc
      rw [update_self] at hq
      exact absurd hq Bool.false_ne_true
  · have hrun : zWorkDelayableSchedule cfg.toConfig st q d timeout
        = zEventSchedule { st with world := { st.world with
            workqueue := update st.world.workqueue d (some q) } } d timeout :=
      if_neg hno
    rw [hrun]
    refine ⟨_, l, home, ((hev.setWorld _).schedule hs timeout).setWorld _, hpool,
      hok.setItem (d := d) ?_ ?_ ?_ ?_ ?_ rfl ?_ ?_⟩
    · exact fun x hx => update_of_ne hx _ _
    · exact fun x hx => update_of_ne hx _ _
    · exact fun x hx => update_of_ne hx _ _
    · exact fun x hx => hx
    · exact fun _ _ => rfl
    · intro _
      refine ⟨hhome, ?_⟩
      show update st.world.workqueue d (some q) d ≠ none
      rw [update_self]
      exact Option.some_ne_none q
    · intro hc
      have hq : update st.world.quiet d false d = true := hc
      rw [update_self] at hq
      exact absurd hq Bool.false_ne_true

omit [DecidableEq Did] [Fintype Did] [DecidableEq Wid] in
theorem submittable_iff {next : Item Did Wid → Option (Item Did Wid)}
    {x : Item Did Wid} : zWorkSubmittable next x = true ↔ next x = none :=
  decide_eq_true_iff

/-- **`k_work_delayable_schedule`**. -/
theorem DelayInv.run_schedule (h : DelayInv cfg st) {timeout : cfg.Timeout}
    (hc : (DelayOp.schedule q d timeout : DelayOp cfg.toConfig Did Wid).Careful cfg st) :
    DelayInv cfg (DelayOp.run st
      (DelayOp.schedule q d timeout : DelayOp cfg.toConfig Did Wid)) := by
  have hbusy : ¬ (0 : Int) ≤ -EBUSY := by decide
  cases hs : st.scheduled d with
  | true =>
    simp only [DelayOp.run, kWorkDelayableSchedule, hs, Bool.true_or, if_true, if_neg hbusy]
    exact h
  | false =>
    cases hn : zWorkSubmittable st.world.pool.next (.delayable d) with
    | false =>
      simp only [DelayOp.run, kWorkDelayableSchedule, hs, hn, Bool.not_false,
        Bool.or_true, if_true, if_neg hbusy]
      exact h
    | true =>
      simp only [DelayOp.run, kWorkDelayableSchedule, hs, hn, Bool.not_true,
        Bool.or_false, Bool.false_eq_true, if_false, le_refl, if_true]
      exact h.schedule hs (submittable_iff.mp hn) hc q timeout

/-- **`k_work_delayable_reschedule`**. -/
theorem DelayInv.run_reschedule (h : DelayInv cfg st) {timeout : cfg.Timeout}
    (hc : (DelayOp.reschedule q d timeout : DelayOp cfg.toConfig Did Wid).Careful cfg st) :
    DelayInv cfg (DelayOp.run st
      (DelayOp.reschedule q d timeout : DelayOp cfg.toConfig Did Wid)) := by
  have hbusy : ¬ (0 : Int) ≤ -EBUSY := by decide
  cases hn : zWorkSubmittable st.world.pool.next (.delayable d) with
  | false =>
    simp only [DelayOp.run, kWorkDelayableReschedule, hn, Bool.not_false, if_true, if_neg hbusy]
    exact h
  | true =>
    cases hs : st.scheduled d with
    | false =>
      have hone : (0 : Int) ≤ 1 := by decide
      simp only [DelayOp.run, kWorkDelayableReschedule, hs, hn, Bool.not_true,
        Bool.false_eq_true, if_false, if_pos hone]
      exact h.schedule hs (submittable_iff.mp hn) hc q timeout
    | true =>
      simp only [DelayOp.run, kWorkDelayableReschedule, hs, hn, Bool.not_true,
        Bool.false_eq_true, if_false, le_refl, if_true]
      obtain ⟨events, l, home, hev, hpool, hok⟩ := h
      refine ⟨_, l, home, (hev.reschedule hs timeout).setWorld _, hpool,
        hok.setItem (d := d) (fun _ _ => rfl) (fun _ _ => rfl) ?_ (fun x hx => hx)
          (fun _ _ => rfl) rfl ?_ ?_⟩
      · exact fun x hx => update_of_ne hx _ _
      · exact fun _ => ⟨hok.apart d hs, hok.assigned d hs⟩
      · intro hq
        have hq' : update st.world.quiet d false d = true := hq
        rw [update_self] at hq'
        exact absurd hq' Bool.false_ne_true

/-- **`k_work_delayable_cancel`**, first critical section. -/
theorem DelayInv.run_cancel (h : DelayInv cfg st)
    (hc : (DelayOp.cancel d : DelayOp cfg.toConfig Did Wid).Careful cfg st) :
    DelayInv cfg (DelayOp.run st (DelayOp.cancel d : DelayOp cfg.toConfig Did Wid)) := by
  obtain ⟨events, l, home, hev, hpool, hok⟩ := h
  cases hs : st.scheduled d with
  | false =>
    have hcancel : kWorkDelayableCancel cfg.toConfig st d = (st, none) := by
      simp only [kWorkDelayableCancel, kEventCancel_idle _ hs, ne_eq, not_true_eq_false, if_false]
    simp only [DelayOp.run, hcancel]
    exact ⟨events, l, home, hev.setWorld _, hpool, hok.apart, hok.assigned, hok.quiet, hok.starts⟩
  | true =>
    obtain ⟨hret, hrep, hworld⟩ := hev.cancel (eventConfig cfg.toConfig) hs
    have hne : (0 : Int) ≠ -EAGAIN := by decide
    have hcancel : kWorkDelayableCancel cfg.toConfig st d
        = ((kEventCancel (eventConfig cfg.toConfig) st d).1, some 0) := by
      simp only [kWorkDelayableCancel, hret, if_pos hne]
    have hflag : (kEventCancel (eventConfig cfg.toConfig) st d).1.scheduled
        = update st.scheduled d false := by
      simp only [kEventCancel, hs, Bool.not_true, Bool.false_eq_true, if_false]
    simp only [DelayOp.run, hcancel]
    generalize (kEventCancel (eventConfig cfg.toConfig) st d).1 = st' at *
    have hnow : st'.scheduled d = false := by
      rw [hflag]
      exact update_self ..
    refine ⟨_, l, home, hrep.setWorld _, ?_, hok.setItem (d := d) ?_ ?_ ?_ ?_
      (fun _ _ => rfl) ?_ ?_ ?_⟩
    · rw [← hworld] at hpool
      exact hpool
    · intro x hx
      show st'.scheduled x = _
      rw [hflag]
      exact update_of_ne hx _ _
    · intro x _
      show st'.world.workqueue x = _
      rw [hworld]
    · intro x hx
      show update st'.world.quiet d true x = _
      rw [hworld]
      exact update_of_ne hx _ _
    · intro x hx
      rw [← hworld]
      exact hx
    · show st'.world.starts = _
      rw [hworld]
    · exact fun hc => absurd (hnow.symm.trans hc) Bool.false_ne_true
    · intro _
      refine ⟨hnow, hok.apart d hs, ?_⟩
      show ¬ st'.world.pool.Due _
      rw [hworld]
      exact hc hs

/-- **`k_work_delayable_cancel`**, second critical section. -/
theorem DelayInv.run_cancelEnd (h : DelayInv cfg st)
    (hc : (DelayOp.cancelEnd d : DelayOp cfg.toConfig Did Wid).Careful cfg st) :
    DelayInv cfg (DelayOp.run st (DelayOp.cancelEnd d : DelayOp cfg.toConfig Did Wid)) := by
  obtain ⟨events, l, home, hev, hpool, hok⟩ := h
  cases hn : zWorkSubmittable st.world.pool.next (.delayable d) with
  | false =>
    have hne : ¬ -EBUSY = -EAGAIN := by decide
    simp only [DelayOp.run, kWorkDelayableCancelEnd, hn, Bool.not_false, if_true, if_neg hne]
    exact ⟨events, l, home, hev.setWorld _, hpool, hok.apart, hok.assigned, hok.quiet, hok.starts⟩
  | true =>
    simp only [DelayOp.run, kWorkDelayableCancelEnd, hn, Bool.not_true,
      Bool.false_eq_true, if_false, if_true]
    obtain ⟨hs, hloose, hdue⟩ := hc (submittable_iff.mp hn)
    have hhome := hpool.home_of_submittable (submittable_iff.mp hn) hloose
    refine ⟨events, l, home, hev.setWorld _, hpool, hok.setItem (d := d) (fun _ _ => rfl)
      (fun _ _ => rfl) ?_ (fun x hx => hx) (fun _ _ => rfl) rfl ?_ ?_⟩
    · exact fun x hx => update_of_ne hx _ _
    · exact fun hc => absurd (hs.symm.trans hc) Bool.false_ne_true
    · exact fun _ => ⟨hs, hhome, hdue⟩

/-- **`k_work_submit`** of another item. -/
theorem DelayInv.run_submit (h : DelayInv cfg st) {x : Wid}
    (hc : (DelayOp.submit q x : DelayOp cfg.toConfig Did Wid).Careful cfg st) :
    DelayInv cfg (DelayOp.run st (DelayOp.submit q x : DelayOp cfg.toConfig Did Wid)) := by
  obtain ⟨events, l, home, hev, hpool, hok⟩ := h
  cases hn : zWorkSubmittable st.world.pool.next (.plain x) with
  | false =>
    simp only [DelayOp.run, AvrtosPool.kWorkSubmit, hn, Bool.false_eq_true, if_false]
    exact ⟨events, l, home, hev.setWorld _, hpool, hok⟩
  | true =>
    have hhome := hpool.home_of_submittable (submittable_iff.mp hn) hc
    obtain ⟨l', hput, -⟩ := hpool.put q hhome
    simp only [DelayOp.run, AvrtosPool.kWorkSubmit, hn, if_true]
    refine ⟨events, l', _, hev.setWorld _, hput, hok.setPool (fun x hx => hx) ?_⟩
    intro d
    refine update_of_ne ?_ _ _
    intro hc
    cases hc

/-- **EXPIRY**. -/
theorem DelayInv.run_expire (h : DelayInv cfg st) :
    DelayInv cfg (zEventQRound cfg.toConfig st) := by
  have ⟨events, l, home, hev, hpool, hok⟩ := h
  by_cases hdue : ∃ e rest, events = (e, 0) :: rest
  · obtain ⟨e, rest, rfl⟩ := hdue
    obtain ⟨hpop, hrep⟩ := hev.pop
    have hs : st.scheduled e = true := (hev.flag e).mpr mem_cons_self
    obtain ⟨q, hq⟩ := Option.ne_none_iff_exists'.mp (hok.assigned e hs)
    have hrun : zEventQRound cfg.toConfig st = setPool { st with
          queue := (tqueuePop st.queue).1
          scheduled := update st.scheduled e false }
        (zWorkSubmit cfg.toConfig st.world.pool q (.delayable e)) := by
      simp only [zEventQRound, hpop, zDelayableWorkTrigger, hq]
    have hself : update st.scheduled e false e = false := update_self ..
    obtain ⟨l', hput, -⟩ := hpool.put q (hok.apart e hs)
    rw [hrun]
    refine ⟨rest, l', _, hrep.setWorld _, hput, hok.setItem (d := e) ?_ (fun _ _ => rfl)
      (fun _ _ => rfl) (fun x hx => hx) (fun x hx => update_delayable hx) rfl ?_ ?_⟩
    · exact fun x hx => update_of_ne hx _ _
    · exact fun hc => absurd (hself.symm.trans hc) Bool.false_ne_true
    · intro hc
      exact absurd (hs.symm.trans (hok.quiet e hc).1) (Ne.symm Bool.false_ne_true)
  · have hnone : (tqueuePop st.queue).2 = none := by
      rw [hev.pop_none fun a l' hc => hdue ⟨a, l', hc⟩]
    rw [zEventQRound_of_none hnone]
    exact h

/-- **A STEP OF A WORKER**. -/
theorem DelayInv.run_step (h : DelayInv cfg st)
    (ha : (DelayOp.step q : DelayOp cfg.toConfig Did Wid).Allowed cfg st) :
    DelayInv cfg (DelayOp.run st (DelayOp.step q : DelayOp cfg.toConfig Did Wid)) := by
  obtain ⟨events, l, home, hev, hpool, hok⟩ := h
  have hstarts : ∀ s ∈ st.world.starts ++ startsOf st q, s.2 = false := by
    intro s hs
    rcases mem_append.mp hs with hs | hs
    · exact hok.starts s hs
    · unfold startsOf at hs
      split at hs
      · rename_i d hpc
        rw [mem_singleton.mp hs]
        cases hq : st.world.quiet d with
        | false => rfl
        | true => exact absurd ⟨q, hpc⟩ (hok.quiet d hq).2.2
      · exact absurd hs not_mem_nil
  by_cases hgot : ∃ x, st.world.pool.pc q = .got x
  · obtain ⟨x, hx⟩ := hgot
    obtain ⟨hnew, -⟩ := hpool.work_got hx
    have hhome : home x = some q := by
      obtain ⟨w, hb, -⟩ := hpool
      exact hb.home_of_inHand (Pool.inHand_of_got hx)
    refine ⟨events, l, _, hev.setWorld _, hnew, ⟨?_, hok.assigned, ?_, hstarts⟩⟩
    · intro d hd
      have hdx : Item.delayable d ≠ x := by
        rintro rfl
        exact absurd (hhome.symm.trans (hok.apart d hd)) (Option.some_ne_none q)
      rw [update_of_ne hdx]
      exact hok.apart d hd
    · intro d hd
      obtain ⟨hs, hn, hdue⟩ := hok.quiet d hd
      have hdx : Item.delayable d ≠ x := by
        rintro rfl
        exact absurd (hhome.symm.trans hn) (Option.some_ne_none q)
      rw [update_of_ne hdx]
      refine ⟨hs, hn, ?_⟩
      rintro ⟨q', hq'⟩
      rcases Pool.work_pc hq' with hq' | hq'
      · exact hdue ⟨q', hq'⟩
      · rw [hx] at hq'
        cases hq'
        exact hdx rfl
  · obtain ⟨l', hnew, -⟩ := hpool.work_keep ha fun x hx => hgot ⟨x, hx⟩
    refine ⟨events, l', home, hev.setWorld _, hnew, ⟨hok.apart, hok.assigned, ?_, hstarts⟩⟩
    intro d hd
    obtain ⟨hs, hn, hdue⟩ := hok.quiet d hd
    refine ⟨hs, hn, ?_⟩
    rintro ⟨q', hq'⟩
    rcases Pool.work_pc hq' with hq' | hq'
    · exact hdue ⟨q', hq'⟩
    · exact hgot ⟨_, hq'⟩

/-- **ONE OPERATION** of a careful run keeps the invariant. -/
theorem DelayInv.run (h : DelayInv cfg st) (op : DelayOp cfg.toConfig Did Wid)
    (ha : op.Allowed cfg st) (hc : op.Careful cfg st) : DelayInv cfg (op.run st) := by
  cases op with
  | schedule q d timeout => exact h.run_schedule hc
  | reschedule q d timeout => exact h.run_reschedule hc
  | cancel d => exact h.run_cancel hc
  | cancelEnd d => exact h.run_cancelEnd hc
  | submit q x => exact h.run_submit hc
  | shift =>
    obtain ⟨events, l, home, hev, hpool, hok⟩ := h
    exact ⟨_, l, home, hev.shift, hpool, hok.apart, hok.assigned, hok.quiet, hok.starts⟩
  | expire => exact h.run_expire
  | step q => exact h.run_step ha
  | schedEnter =>
    obtain ⟨events, l, home, hev, hpool, hok⟩ := h
    exact ⟨events, l, home, hev.setWorld _, hpool.schedEnter.1,
      hok.setPool (fun x hx => hx) fun _ => rfl⟩
  | yield =>
    obtain ⟨events, l, home, hev, hpool, hok⟩ := h
    refine ⟨events, l, home, hev.setWorld _, hpool.yield.1, hok.setPool ?_ fun _ => rfl⟩
    rintro x ⟨q, hq⟩
    exact ⟨q, Pool.finish_pc hq rfl⟩

omit [DecidableEq Qid] [Fintype Did] [DecidableEq Wid] in
theorem delayBoot_events (k : Kernel Tid Qid Empty (Item Did Wid)) (tie : Did → TItem Did) :
    EventsRep cfg.deltaBits (delayBoot k tie) [] := by
  refine ⟨⟨⟨rfl, fun e he => absurd he not_mem_nil⟩, Nat.two_pow_pos _, rfl, rfl⟩, ?_⟩
  exact fun e => ⟨fun hc => absurd hc Bool.false_ne_true, fun hc => absurd hc not_mem_nil⟩

theorem DelayReach.inv (h : DelayReach cfg (fun st op => op.Careful cfg st) st) :
    DelayInv cfg st := by
  refine Reach.invariant h ?_ fun _ op ih ha => ih.run op ha.1 ha.2
  rintro st ⟨k, ring, tie, hboot, rfl⟩
  refine ⟨[], _, _, delayBoot_events k tie, poolBoot_inv hboot, ⟨?_, ?_, ?_, ?_⟩⟩
  · exact fun d hd => absurd hd Bool.false_ne_true
  · exact fun d hd => absurd hd Bool.false_ne_true
  · exact fun d hd => absurd hd Bool.false_ne_true
  · exact fun s hs => absurd hs not_mem_nil

omit [DecidableEq Qid] [DecidableEq Wid] in
theorem count_remaining {events : List (Did × Nat)} (h : EventsRep cfg.deltaBits st events)
    (d : Did) : ((remaining st.queue).map Prod.fst).count d = (st.scheduled d).toNat := by
  rw [h.queue.remaining_eq, map_fst_deadlines, h.queue.rep.chain.nodup.count]
  cases hs : st.scheduled d with
  | true => exact if_pos ((h.flag d).mp hs)
  | false => exact if_neg (h.notMem hs)

omit [Fintype Did] in
omit [DecidableEq Did] [DecidableEq Wid] in
theorem next_eq_none_iff {l : Qid → List (Item Did Wid)} (h : PoolInv cfg st.world.pool l home)
    (hloose : ¬ st.world.pool.Loose cfg (.delayable d)) :
    st.world.pool.next (.delayable d) = none ↔ home (.delayable d) = none := by
  refine ⟨fun hn => h.home_of_submittable hn hloose, ?_⟩
  obtain ⟨w, hb, -⟩ := h
  exact hb.free _

variable [Fintype Qid]

omit [Fintype Did] in
theorem queued_eq {l : Qid → List (Item Did Wid)} (h : PoolInv cfg st.world.pool l home)
    (d : Did) : queued cfg st l d = (home (.delayable d)).isSome.toNat :=
  h.sum_count (.delayable d)

omit [Fintype Did] in
theorem home_of_queued {l : Qid → List (Item Did Wid)}
    (h : PoolInv cfg st.world.pool l home) (hq : queued cfg st l d ≠ 0) :
    home (.delayable d) ≠ none := by
  intro hc
  rw [queued_eq h, hc] at hq
  exact hq rfl

theorem DelayOk.lifeCycle {events : List (Did × Nat)} (hok : DelayOk st home)
    (hev : EventsRep cfg.deltaBits st events) (hpool : PoolInv cfg st.world.pool l home) :
    LifeCycle cfg st l := by
  have hplaces : ∀ d, places cfg st l d
      = (st.scheduled d).toNat + (home (.delayable d)).isSome.toNat := by
    intro d
    rw [places, count_remaining hev, queued_eq hpool]
  refine ⟨?_, ?_, ?_, ?_, ?_, ?_, hok.starts⟩
  · obtain ⟨w, hb, -⟩ := hpool
    exact hb.rep
  · intro d
    rw [hplaces]
    cases hs : st.scheduled d with
    | true =>
      rw [hok.apart d hs]
      exact Nat.le_refl 1
    | false =>
      rw [Bool.toNat_false, Nat.zero_add]
      exact Bool.toNat_le _
  · intro q d timeout hc
    have hnext := next_eq_none_iff hpool hc
    rw [hplaces]
    cases hs : st.scheduled d with
    | true =>
      have hpos : ¬ true.toNat + (home (.delayable d)).isSome.toNat = 0 := by
        rw [Bool.toNat_true]
        omega
      simp only [kWorkDelayableSchedule, hs, Bool.true_or, if_true, if_neg hpos]
    | false =>
      cases hh : home (.delayable d) with
      | none =>
        have hn := submittable_iff.mpr (hnext.mpr hh)
        simp only [kWorkDelayableSchedule, hs, hn, Bool.not_true, Bool.or_false,
          Bool.false_eq_true, if_false]
        rfl
      | some q' =>
        have hn : zWorkSubmittable st.world.pool.next (.delayable d) = false := by
          refine decide_eq_false fun hc => ?_
          exact absurd (hh.symm.trans (hnext.mp hc)) (Option.some_ne_none q')
        simp only [kWorkDelayableSchedule, hs, hn, Bool.not_false, Bool.or_true, if_true]
        rfl
  · intro q d timeout hc hq
    have hn : zWorkSubmittable st.world.pool.next (.delayable d) = false :=
      decide_eq_false fun hn => home_of_queued hpool hq ((next_eq_none_iff hpool hc).mp hn)
    simp only [kWorkDelayableReschedule, hn, Bool.not_false, if_true]
  · intro d hq
    have hs : st.scheduled d = false := by
      cases hs : st.scheduled d with
      | false => rfl
      | true => exact absurd (hok.apart d hs) (home_of_queued hpool hq)
    simp only [kWorkDelayableCancel, kEventCancel_idle _ hs, ne_eq, not_true_eq_false, if_false]
  · intro d hc hq
    have hn : zWorkSubmittable st.world.pool.next (.delayable d) = false :=
      decide_eq_false fun hn =>
        home_of_queued hpool hq (hpool.home_of_submittable hn (hc hn).2.1)
    simp only [kWorkDelayableCancelEnd, hn, Bool.not_false, if_true]

/-- **THE LIFE CYCLE** of delayable work in every state of a careful run. -/
theorem delayable_life_cycle (h : DelayReach cfg (fun st op => op.Careful cfg st) st) :
    ∃ l, LifeCycle cfg st l := by
  obtain ⟨events, l, home, hev, hpool, hok⟩ := h.inv
  exact ⟨l, hok.lifeCycle hev hpool⟩

end Invariant

def scheduledAndServed : List (DelayOp oneWorker.toConfig Unit Unit) :=
  [.schedule () () 2, .schedule () () 1, .reschedule () () 1, .shift, .expire, .expire,
    .submit () (), .schedule () () 0, .cancel (), .cancelEnd (), .yield, .step (),
    .step (), .step ()]

theorem delayable_life_cycle_served :
    DelayReach oneWorker (fun st op => op.Careful oneWorker st) (delayRun scheduledAndServed)
      ∧ (∃ l, LifeCycle oneWorker (delayRun scheduledAndServed) l)
      ∧ (delayRun scheduledAndServed).world.starts = [((), false)] := by
  have hstart : DelayReach oneWorker (fun st op => op.Careful oneWorker st) (delayRun []) :=
    .start ⟨_, _, _, smallBoot_boot, rfl⟩
  have hreach : DelayReach oneWorker (fun st op => op.Careful oneWorker st)
      (delayRun scheduledAndServed) := Reach.foldl hstart (by decide +kernel)
  exact ⟨hreach, delayable_life_cycle hreach, by decide +kernel⟩

end AvrtosDelayable
