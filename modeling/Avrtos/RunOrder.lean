import Avrtos.Boot

/-! # Which thread runs next

    A yield turns the ring by one; a thread that leaves hands over to its predecessor. -/

namespace AvrtosKernel

open List AvrtosDefines AvrtosDlist AvrtosTqueue Cells LinkedRing LinkedChain DeltaList

variable {Tid Qid Pid D : Type} [Threads Tid]
variable [DecidableEq Qid] [DecidableEq Pid]

variable {cfg : Config Tid Qid} {k : Kernel Tid Qid Pid D} {t : Tid} {q : Qid}

def NoJoiner (cfg : Config Tid Qid) (k : Kernel Tid Qid Pid D) (t : Tid) : Prop :=
  ∀ join, cfg.joinWaitqueue = some join →
    next k.wait (.queue (join t) : WNode Tid Qid Pid) = .queue (join t)

omit [DecidableEq Qid] [DecidableEq Pid] in
theorem zSuspend_wait (k : Kernel Tid Qid Pid D) (t : Tid) : (zSuspend cfg k t).wait = k.wait := by
  by_cases hp : (k.thread t).state = .pending
  · rw [zSuspend, if_pos hp, zCancelScheduledWakeUp_wait]
  · exact (zSuspend_ready_thread cfg hp).2.2.1

omit [DecidableEq Qid] [DecidableEq Pid] in
theorem zSuspend_current (k : Kernel Tid Qid Pid D) (t : Tid) :
    (zSuspend cfg k t).current = k.current := by
  by_cases hp : (k.thread t).state = .pending
  · rw [zSuspend, if_pos hp, zCancelScheduledWakeUp_current]
  · exact (zSuspend_ready_thread cfg hp).2.1

theorem zUnpendAll_empty (hq : next k.wait (.queue q : WNode Tid Qid Pid) = .queue q) :
    (zUnpendAll cfg k q).1
      = { k with wait := dlistRemove k.wait (.queue q : WNode Tid Qid Pid) } := by
  have hfirst : zUnpendFirstThread cfg k q
      = ({ k with wait := dlistRemove k.wait (.queue q : WNode Tid Qid Pid) }, none) := by
    simp only [zUnpendFirstThread, dlistGet, hq, if_true]
  rw [zUnpendAll]
  cases Fintype.card Tid with
  | zero => simp only [zUnpendAllLoop, hfirst]
  | succ n => simp only [zUnpendAllLoop, hfirst]

theorem kThreadAbort_noJoiner (hs : (k.thread t).state ≠ .stopped) (hj : NoJoiner cfg k t) :
    ∃ wait', kThreadAbort cfg k t = if t = k.current then
          (zScheduler { zSetThreadState (zSuspend cfg k t) t .stopped with
            wait := wait' }, 0)
        else ({ zSetThreadState (zSuspend cfg k t) t .stopped with wait := wait' }, 0) := by
  have hcur : (zSetThreadState (zSuspend cfg k t) t .stopped).current = k.current :=
    zSuspend_current k t
  rw [kThreadAbort, if_neg hs, ← hcur]
  cases hc : cfg.joinWaitqueue with
  | none => exact ⟨(zSetThreadState (zSuspend cfg k t) t .stopped).wait, rfl⟩
  | some join =>
    have hempty : next (zSetThreadState (zSuspend cfg k t) t .stopped).wait
        (.queue (join t) : WNode Tid Qid Pid) = .queue (join t) := by
      show next (zSuspend cfg k t).wait (.queue (join t) : WNode Tid Qid Pid) = _
      rw [zSuspend_wait]
      exact hj join hc
    refine ⟨dlistRemove (zSetThreadState (zSuspend cfg k t) t .stopped).wait
      (.queue (join t) : WNode Tid Qid Pid), ?_⟩
    simp only [zUnpendAll_empty hempty]

theorem kThreadAbort_sched {l : List Tid} {timeq : List (Tid × Nat)}
    (h : SchedRep cfg k (k.current :: l) timeq)
    (hs : (k.thread k.current).state = .ready) (hj : NoJoiner cfg k k.current) :
    SchedRep cfg (kThreadAbort cfg k k.current).1 (lastFirst l) timeq
      ∧ (kThreadAbort cfg k k.current).1.current = (lastFirst l).headD cfg.idle := by
  have hnp : (k.thread k.current).state ≠ .pending := by
    rw [hs]
    exact fun hc => nomatch hc
  obtain ⟨wait', hk⟩ := kThreadAbort_noJoiner (t := k.current)
    (by rw [hs]; exact fun hc => nomatch hc) hj
  rw [hk, if_pos rfl]
  refine zScheduler_switch
    (((zSuspend_first h hnp (Or.inl rfl)).modThread k.current _).setWait wait') ?_
  show ((zSetThreadState (zSuspend cfg k k.current) k.current .stopped).thread
    (zSuspend cfg k k.current).current).state ≠ .ready
  rw [zSuspend_current]
  simp [zSetThreadState, Kernel.modThread]

structure RunsFirst (k : Kernel Tid Qid Pid D) (ring : List Tid) : Prop where
  current : ring.head? = some k.current
  runQueue : k.runQueue = k.current
  ringed : Ring (next k.tie) (prev k.tie) ring

omit [DecidableEq Qid] [DecidableEq Pid] in
/-- What a scheduler that has read the ring from `a` on runs. -/
theorem SchedRep.runsFirst {a : Tid} {l : List Tid} {timeq : List (Tid × Nat)}
    (h : SchedRep cfg k (a :: l) timeq) (hc : k.current = a) : RunsFirst k (a :: l) := by
  refine ⟨?_, ?_, h.ringed (cons_ne_nil a l)⟩
  · rw [hc]
    rfl
  · rw [hc]
    exact h.runQueue

omit [DecidableEq Qid] [DecidableEq Pid] in
theorem runsFirst_lastFirst_iff {t₁ : Tid} {l : List Tid} {timeq : List (Tid × Nat)}
    (h : SchedRep cfg k (lastFirst (t₁ :: l)) timeq)
    (hc : k.current = (lastFirst (t₁ :: l)).headD cfg.idle) :
    RunsFirst k (t₁ :: l) ↔ l = [] := by
  rcases eq_nil_or_concat l with rfl | ⟨u, z, rfl⟩
  · exact ⟨fun _ => rfl, fun _ => h.runsFirst hc⟩
  · rw [concat_eq_append] at h hc ⊢
    have hz : lastFirst (t₁ :: (u ++ [z])) = z :: t₁ :: u := lastFirst_append (t₁ :: u) z
    rw [hz] at h hc
    refine ⟨?_, fun hnil => absurd hnil (by simp)⟩
    intro hr
    have hcur := hr.current
    injection hcur with hcur
    have hne : z ≠ t₁ := by
      rintro rfl
      exact (nodup_cons.mp h.nodup).1 mem_cons_self
    exact absurd (hc.symm.trans hcur.symm) hne

/-- **THE NEXT THREAD** after a yield is the successor; after a thread that leaves, exactly if
    the ring has two threads. -/
theorem leaving_runs_successor_iff {t₁ : Tid} {l : List Tid} {timeq : List (Tid × Nat)}
    (h : SchedRep cfg k (k.current :: t₁ :: l) timeq)
    (hs : (k.thread k.current).state = .ready) (hj : NoJoiner cfg k k.current)
    (timeout : cfg.Timeout) :
    RunsFirst (zScheduler k) (t₁ :: l ++ [k.current])
      ∧ (RunsFirst (zPendCurrent cfg k timeout) (t₁ :: l) ↔ l = [])
      ∧ (RunsFirst (kThreadAbort cfg k k.current).1 (t₁ :: l) ↔ l = []) := by
  refine ⟨?_, ?_, ?_⟩
  · obtain ⟨hsch, hrun⟩ := zScheduler_sched h (fun _ => cons_ne_nil _ _)
    rw [if_pos hs, rotate_cons_succ, rotate_zero] at hsch
    exact hsch.runsFirst (hrun.trans hsch.runQueue)
  · obtain ⟨hsch, hrun⟩ := zPendCurrent_sched h hs timeout
    exact runsFirst_lastFirst_iff hsch hrun
  · obtain ⟨hsch, hrun⟩ := kThreadAbort_sched h hs hj
    exact runsFirst_lastFirst_iff hsch hrun

def twoReady : Kernel (Fin 4) Unit Empty Unit :=
  (kThreadStart (smallConfig Unit) (bootKernel (smallConfig Unit) 0) 1).1

theorem leaving_runs_successor_iff_two :
    SchedRep (smallConfig Unit) twoReady [0, 1] []
      ∧ RunsFirst (zPendCurrent (smallConfig Unit) twoReady 1) [1]
      ∧ RunsFirst (kThreadAbort (smallConfig Unit) twoReady 0).1 [1] := by
  have hboot : Boot (smallConfig Unit) twoReady [0, 1] :=
    (bootKernel_boot (by show (0 : Fin 4) ≠ 3; decide)).start rfl
  have hrep : SchedRep (smallConfig Unit) twoReady [0, 1] [] := hboot.kinv.sched
  obtain ⟨-, hpend, habort⟩ := leaving_runs_successor_iff (k := twoReady) (l := []) hrep rfl
    (fun _ hc => nomatch hc) 1
  exact ⟨hrep, hpend.mpr rfl, habort.mpr rfl⟩

/-- **THE LAST ONE FIRST**: of three READY threads, thread 1 comes after
    thread 0; when thread 0 sleeps or aborts itself, thread 2 runs. -/
theorem leaving_runs_predecessor :
    SchedRep (smallConfig Unit) (smallBoot Unit Empty Unit) [0, 1, 2] []
      ∧ (zScheduler (smallBoot Unit Empty Unit)).current = 1
      ∧ (kSleep (smallConfig Unit) (smallBoot Unit Empty Unit) 1).current = 2
      ∧ (kSleep (smallConfig Unit) (smallBoot Unit Empty Unit) 1).runQueue = 2
      ∧ (kThreadAbort (smallConfig Unit) (smallBoot Unit Empty Unit) 0).1.current = 2 := by
  refine ⟨?_, by decide, by decide, by decide, by decide⟩
  have hboot : ColdBoot (smallConfig Unit) (smallBoot Unit Empty Unit) [0, 1, 2] :=
    smallBoot_boot
  exact hboot.kinv.sched

end AvrtosKernel
