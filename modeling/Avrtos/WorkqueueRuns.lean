import Avrtos.WorkPool

/-! # Work is executed once, and in order

    One queue of the pool; what is added is the order of the submissions. -/

namespace AvrtosWorkqueue

open List AvrtosDefines AvrtosKernel AvrtosFifo AvrtosPool LinkedChain Runs

variable {Tid Wid : Type} [Threads Tid]
variable [DecidableEq Wid]

def WorkSys.pool (st : WorkSys Tid Wid) : Pool Tid Unit Wid where
  calls := st.calls
  next := st.next
  queue := fun _ => st.queue
  pc := fun _ => st.pc

def poolConfig {cfg : Config Tid Unit} {worker : Tid} (hidle : worker ≠ cfg.idle) :
    PoolConfig Tid Unit where
  toConfig := cfg
  worker := fun _ => worker
  worker_inj := Function.injective_of_subsingleton _
  worker_ne_idle := fun _ => hidle

variable {worker : Tid} {cfg : Config Tid Unit} {st : WorkSys Tid Wid}
variable {w : Unit → List Tid} {l : List Wid} {x : Wid}

theorem update_unit {β : Type} (f : Unit → β) (u : Unit) (b : β) :
    Function.update f u b = fun _ => b :=
  Function.update_eq_const_of_subsingleton u b f

omit [DecidableEq Wid] in
theorem pool_finish (st : WorkSys Tid Wid) : st.finish.pool = st.pool.finish := by
  cases hf : st.calls.frame st.calls.ker.current with
  | none => simp only [WorkSys.finish, Pool.finish, WorkSys.pool, hf]
  | some f =>
    cases hend : kFifoGetEnd (st.calls.ker.thread st.calls.ker.current) <;>
      simp only [WorkSys.finish, Pool.finish, WorkSys.pool, hf, hend, update_unit]

theorem pool_work (st : WorkSys Tid Wid) : (st.work cfg).pool = st.pool.work cfg () := by
  cases hpc : st.pc with
  | get =>
    simp only [WorkSys.work, Pool.work, WorkSys.pool, hpc, update_unit]
    cases hr : (kFifoGet cfg st.calls.ker st.next st.queue () (kForever cfg)).2.2 with
    | none => exact pool_finish { st with
        calls := st.calls.leave _ () ()
        queue := (kFifoGet cfg st.calls.ker st.next st.queue () (kForever cfg)).2.1
        pc := .get }
    | some o => cases o <;> rfl
  | got y => simp only [WorkSys.work, Pool.work, WorkSys.pool, hpc, update_unit]
  | reset y => simp only [WorkSys.work, Pool.work, WorkSys.pool, hpc, update_unit]
  | handler y => simp only [WorkSys.work, Pool.work, WorkSys.pool, hpc, update_unit]

theorem pool_submit (cfg : Config Tid Unit) (hn : st.next x = none) :
    ((WorkOp.submit x).run cfg st).pool = zWorkSubmit cfg st.pool () x
      ∧ ((WorkOp.submit x).run cfg st).submitted = st.submitted ++ [x] := by
  have hs : zWorkSubmittable st.next x = true := decide_eq_true hn
  simp only [WorkOp.run, kWorkSubmit, hs, if_true, zWorkSubmit, WorkSys.pool, update_unit, and_self]

theorem submit_refused (hn : st.next x ≠ none) : (WorkOp.submit x).run cfg st = st := by
  have hs : zWorkSubmittable st.next x = false := decide_eq_false hn
  simp only [WorkOp.run, kWorkSubmit, hs, Bool.false_eq_true, if_false]

def Ordered (hidle : worker ≠ cfg.idle) (st : WorkSys Tid Wid) : Prop :=
  ∃ l home, PoolInv (poolConfig hidle) st.pool l home
    ∧ st.submitted = st.started ++ st.pool.stock (poolConfig hidle) () l
    ∧ st.started = st.executed ++ st.due.toList

section Steps

variable {hidle : worker ≠ cfg.idle} {st' : WorkSys Tid Wid}

def WorkSys.record (st : WorkSys Tid Wid) : List Wid × List Wid × List Wid :=
  (st.submitted, st.started, st.executed ++ st.due.toList)

omit [DecidableEq Wid] in
theorem Ordered.keep (h : Ordered hidle st) (hrec : st'.record = st.record)
    (hpool : ∀ l home, PoolInv (poolConfig hidle) st.pool l home →
      ∃ l', PoolInv (poolConfig hidle) st'.pool l' home ∧
        ∀ q, st'.pool.stock (poolConfig hidle) q l' = st.pool.stock (poolConfig hidle) q l) :
    Ordered hidle st' := by
  obtain ⟨l, home, hinv, hsub, hst⟩ := h
  obtain ⟨l', hinv', hstock⟩ := hpool l home hinv
  obtain ⟨hsub', hrest⟩ := Prod.mk.inj hrec
  obtain ⟨hst', hdone⟩ := Prod.mk.inj hrest
  refine ⟨l', home, hinv', ?_, ?_⟩
  · rw [hsub', hst', hstock, hsub]
  · rw [hst', hdone, hst]

omit [DecidableEq Wid] in
theorem record_finish (st : WorkSys Tid Wid)
    (h : ∀ f, st.calls.frame st.calls.ker.current = some f → st.pc = .get) :
    st.finish.record = st.record := by
  cases hf : st.calls.frame st.calls.ker.current with
  | none => simp only [WorkSys.finish, hf]
  | some f =>
    cases hend : kFifoGetEnd (st.calls.ker.thread st.calls.ker.current) <;>
      simp only [WorkSys.finish, hf, hend, WorkSys.record, WorkSys.due, h f hf]

theorem record_work (cfg : Config Tid Unit) (hgot : ∀ x, st.pc ≠ .got x) :
    (st.work cfg).record = st.record := by
  cases hpc : st.pc with
  | get =>
    simp only [WorkSys.work, hpc]
    split
    · exact (record_finish _ fun _ _ => rfl).trans (by simp only [WorkSys.record, WorkSys.due, hpc])
    · simp only [WorkSys.record, WorkSys.due, hpc]
    · simp only [WorkSys.record, WorkSys.due, hpc]
  | got x => exact absurd hpc (hgot x)
  | reset x => simp [WorkSys.work, WorkSys.record, WorkSys.due, hpc]
  | handler x => simp only [WorkSys.work, WorkSys.record, WorkSys.due, hpc]

/-- A step of the worker. -/
theorem Ordered.work (h : Ordered hidle st) (hcur : st.calls.ker.current = worker) :
    Ordered hidle (st.work cfg) := by
  by_cases hgot : ∃ x, st.pc = .got x
  · obtain ⟨x, hpc⟩ := hgot
    obtain ⟨l, home, hpool, hsub, hst⟩ := h
    obtain ⟨hinv, hstock⟩ := hpool.work_got (q := ()) (x := x) hpc
    rw [show st.pool.work (poolConfig hidle).toConfig () = (st.work cfg).pool from
      (pool_work st).symm] at hinv hstock
    refine ⟨l, _, hinv, ?_, ?_⟩
    · have hwork : (st.work cfg).submitted = st.submitted
          ∧ (st.work cfg).started = st.started ++ [x] := by
        simp only [WorkSys.work, hpc, and_self]
      rw [hwork.1, hwork.2, hsub, hstock, append_assoc, singleton_append]
    · rw [WorkSys.due, hpc] at hst
      simp only [WorkSys.work, hpc, WorkSys.due]
      rw [hst, Option.toList_none, append_nil, Option.toList_some]
  · have hkeep : ∀ x, st.pc ≠ .got x := fun x hpc => hgot ⟨x, hpc⟩
    refine h.keep (record_work cfg hkeep) fun l home hpool => ?_
    rw [pool_work]
    exact hpool.work_keep (q := ()) hcur hkeep

theorem Ordered.submit (h : Ordered hidle st) (hc : (WorkOp.submit x).Careful worker st) :
    Ordered hidle ((WorkOp.submit x).run cfg st) := by
  by_cases hn : st.next x = none
  · obtain ⟨l, home, hpool, hsub, hst⟩ := h
    have hhome : home x = none := by
      refine hpool.home_of_submittable hn ?_
      rintro (⟨u, htail⟩ | ⟨-, u, hhand⟩)
      · exact hc.1 htail
      · exact hc.2 hhand hn
    obtain ⟨l', hinv, hstock⟩ := hpool.put () hhome
    obtain ⟨hrun, hsub'⟩ := pool_submit cfg hn
    refine ⟨l', _, hrun ▸ hinv, ?_, hst⟩
    rw [hsub', hrun]
    refine Eq.trans ?_ (congrArg (st.started ++ ·) hstock.symm)
    rw [hsub, append_assoc]
  · rw [submit_refused hn]
    exact h

/-- **ONE OPERATION** keeps the order in a careful run. -/
theorem Ordered.run (h : Ordered hidle st) (op : WorkOp Wid) (ha : op.Allowed worker st)
    (hc : op.Careful worker st) : Ordered hidle (op.run cfg st) := by
  cases op with
  | submit x => exact h.submit hc
  | step => exact h.work ha
  | schedEnter => exact h.keep rfl fun l home hpool => ⟨l, hpool.schedEnter⟩
  | yield =>
    have ⟨_, _, ⟨_, hb, _⟩, _⟩ := h
    refine h.keep (record_finish _ fun f hf => (hb.frame _ f hf).2) fun l home hpool => ⟨l, ?_⟩
    rw [WorkOp.run, pool_finish]
    exact hpool.yield

end Steps

omit [DecidableEq Wid] in
/-- An ordered system satisfies the invariant. -/
theorem Ordered.inv {hidle : worker ≠ cfg.idle} (h : Ordered hidle st) : WorkInv worker cfg st := by
  obtain ⟨l, home, ⟨w, hb, hi⟩, hsub, hst⟩ := h
  have hhand : st.pool.inHand (poolConfig hidle) () = st.inHand worker := rfl
  have hstock : st.pool.stock (poolConfig hidle) () l = (st.inHand worker).toList ++ l () := rfl
  refine ⟨w, l (), ⟨hb.calls, hb.rep (), ?_, hst, ?_, ?_, ?_, hb.empty ()⟩, hi⟩
  · rw [hsub, hstock, append_assoc]
  · intro x hx hne
    refine hb.free x ?_
    cases hhome : home x with
    | none => rfl
    | some u =>
      rcases mem_append.mp ((hb.stock u x).mpr hhome) with hc | hc
      · exact absurd (Option.mem_toList.mp hc) hne
      · exact absurd hc hx
  · intro x hx hmem
    have hnd := hb.nodup ()
    rw [hstock, hx] at hnd
    exact (nodup_cons.mp hnd).1 hmem
  · exact fun t f hf => hb.frame t f hf

theorem WorkReach.inv (hidle : worker ≠ cfg.idle)
    (h : WorkReach worker cfg (fun st op => op.Careful worker st) st) :
    WorkInv worker cfg st := by
  refine Ordered.inv (Reach.invariant (P := Ordered hidle) h ?_ fun _ op ih ha =>
    ih.run op ha.1 ha.2)
  rintro st ⟨k, ring, hboot, rfl⟩
  have hnone : (workBoot k : WorkSys Tid Wid).inHand worker = none :=
    if_neg (Calls.not_granted_of_none rfl)
  refine ⟨_, _, (poolBoot_inv hboot : PoolInv (poolConfig hidle) _ _ _), ?_, rfl⟩
  show [] = [] ++ (((workBoot k : WorkSys Tid Wid).inHand worker).toList ++ [])
  rw [hnone]
  rfl

omit [DecidableEq Wid] in
theorem WorkBase.submittable (h : WorkBase worker cfg st w l)
    (hc : (WorkOp.submit x).Careful worker st) (hn : st.next x = none) :
    x ∉ l ∧ st.inHand worker ≠ some x := by
  refine ⟨?_, fun hx => hc.2 hx hn⟩
  intro hx
  have hlast := (h.rep.chain.next_eq_none hx).mp hn
  rw [← h.rep.tail] at hlast
  exact hc.1 hlast

/-- **EXACTLY ONCE AND IN ORDER**: in a careful run the handlers were called for the first ones
    of the accepted submissions. -/
theorem work_exactly_once (hidle : worker ≠ cfg.idle)
    (h : WorkReach worker cfg (fun st op => op.Careful worker st) st) :
    st.executed <+: st.submitted
      ∧ (st.Drained worker → st.executed = st.submitted)
      ∧ ∀ x, (WorkOp.submit x).Careful worker st →
          st.started.count x < st.submitted.count x →
          (kWorkSubmit cfg st.calls.ker st.next st.queue x).2.2.2 = false := by
  obtain ⟨w, l, hb, -⟩ := h.inv hidle
  have hall : st.submitted
      = st.executed ++ (st.due.toList ++ (st.inHand worker).toList ++ l) := by
    rw [hb.account, hb.started]
    simp
  refine ⟨?_, ?_, ?_⟩
  · rw [hall]
    exact prefix_append _ _
  · rintro ⟨hhead, hhand, hdue⟩
    have hl : l = [] := by
      cases l with
      | nil => rfl
      | cons a l =>
        have ha := hb.rep.chain.1
        rw [hhead] at ha
        exact nomatch ha
    rw [hall, hdue, hhand, hl]
    simp
  · intro x hc hcount
    rw [kWorkSubmit]
    have hs : zWorkSubmittable st.next x = false := by
      refine decide_eq_false ?_
      intro hn
      -- a submittable item is neither in the list nor in the worker's hand
      obtain ⟨hx, hhand⟩ := hb.submittable hc hn
      have hzero : ((st.inHand worker).toList ++ l).count x = 0 := by
        refine count_eq_zero.mpr ?_
        rw [mem_append, not_or, Option.mem_toList]
        exact ⟨hhand, hx⟩
      rw [hb.account, append_assoc, count_append, hzero] at hcount
      exact absurd hcount (Nat.lt_irrefl _)
    rw [hs]
    rfl

def served : WorkSys (Fin 4) (Fin 2) :=
  ([.submit 0, .submit 1, .submit 0, .yield, .step, .step, .step, .step, .step, .step,
    .step, .step, .step] : List (WorkOp (Fin 2))).foldl (WorkOp.run (smallConfig Unit))
      (workBoot (smallBoot Unit Empty (Fin 2)))

theorem work_exactly_once_served :
    (1 : Fin 4) ≠ (smallConfig Unit).idle
      ∧ WorkReach 1 (smallConfig Unit) (fun st op => op.Careful 1 st) served
      ∧ served.executed = served.submitted ∧ served.submitted = [0, 1] := by
  have hidle : (1 : Fin 4) ≠ (smallConfig Unit).idle := by decide
  have hreach : WorkReach 1 (smallConfig Unit) (fun st op => op.Careful 1 st) served :=
    Reach.foldl (.start ⟨_, _, smallBoot_boot, rfl⟩) (by decide)
  exact ⟨hidle, hreach, (work_exactly_once hidle hreach).2.1 (by decide), by decide⟩

def queuedOnce : WorkSys (Fin 4) (Fin 2) :=
  ([.submit 0] : List (WorkOp (Fin 2))).foldl (WorkOp.run (smallConfig Unit))
    (workBoot (smallBoot Unit Empty (Fin 2)))

def overtaken : WorkSys (Fin 4) (Fin 2) :=
  ([.submit 0, .submit 1, .yield, .step, .step, .step, .step, .step, .step, .step, .step,
    .step] : List (WorkOp (Fin 2))).foldl (WorkOp.run (smallConfig Unit)) queuedOnce

/-- **A SUBMISSION IS LOST**: the second submission of item 0 returns `true`, and it is not
    executed. -/
theorem work_submission_lost :
    WorkReach 1 (smallConfig Unit) (fun _ _ => True) queuedOnce
      ∧ queuedOnce.started.count 0 < queuedOnce.submitted.count 0
      ∧ (kWorkSubmit (smallConfig Unit) queuedOnce.calls.ker queuedOnce.next
          queuedOnce.queue 0).2.2.2 = true
      ∧ WorkReach 1 (smallConfig Unit) (fun _ _ => True) overtaken
      ∧ overtaken.Drained 1 ∧ overtaken.submitted = [0, 0, 1]
      ∧ overtaken.executed = [0, 1] := by
  have hreach : WorkReach 1 (smallConfig Unit) (fun _ _ => True) queuedOnce :=
    Reach.foldl (.start ⟨_, _, smallBoot_boot, rfl⟩) (by decide)
  exact ⟨hreach, by decide, by decide, Reach.foldl hreach (by decide), by decide,
    by decide, by decide⟩

end AvrtosWorkqueue
