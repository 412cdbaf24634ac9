import Avrtos.Boot

/-! # The scheduler over whole runs

    Any run of scheduler calls keeps `KInv` with empty wait queues. -/

namespace AvrtosKernel

open List hiding next prev
open AvrtosDefines AvrtosDlist AvrtosTqueue Cells LinkedRing LinkedChain DeltaList
open Runs

variable {Tid Qid Pid D : Type} [Threads Tid]
variable [DecidableEq Qid] [DecidableEq Pid]

/-- The operations of a run. -/
inductive SchedOp (cfg : Config Tid Qid) where
  | start (t : Tid)
  | yield
  | sleep (timeout : cfg.Timeout)
  | abort (t : Tid)
  | wakeUp (t : Tid)
  | schedEnter

def SchedOp.Allowed {cfg : Config Tid Qid} (k : Kernel Tid Qid Pid D) :
    SchedOp cfg → Prop
  | .start t => (k.thread t).state = .stopped
  | .yield => True
  | .sleep _ => k.current ≠ cfg.idle
  | .abort t => t ≠ cfg.idle ∧ (k.thread k.current).state = .ready
  | .wakeUp t => (k.thread t).state = .pending
  | .schedEnter => True

instance {cfg : Config Tid Qid} (k : Kernel Tid Qid Pid D) :
    (op : SchedOp cfg) → Decidable (op.Allowed k)
  | .start _ => inferInstanceAs (Decidable (_ = _))
  | .sleep _ => inferInstanceAs (Decidable (_ ≠ _))
  | .abort _ => inferInstanceAs (Decidable (_ ∧ _))
  | .wakeUp _ => inferInstanceAs (Decidable (_ = _))
  | .yield | .schedEnter => isTrue trivial

/-- The state after an operation. -/
def SchedOp.run {cfg : Config Tid Qid} (k : Kernel Tid Qid Pid D) :
    SchedOp cfg → Kernel Tid Qid Pid D
  | .start t => (kThreadStart cfg k t).1
  | .yield => zScheduler k
  | .sleep timeout => kSleep cfg k timeout
  | .abort t => (kThreadAbort cfg k t).1
  | .wakeUp t => zWakeUp cfg k t
  | .schedEnter => zSchedEnter cfg k

def SchedReach (cfg : Config Tid Qid) : Kernel Tid Qid Pid D → Prop :=
  Reach (fun k => ∃ ring, Boot cfg k ring) (fun k (op : SchedOp cfg) => op.Allowed k)
    SchedOp.run

def visited (link : Tid → Tid) (start : Tid) (n : Nat) : List Tid :=
  List.iterate link start n

structure SchedulerOk (cfg : Config Tid Qid) (k : Kernel Tid Qid Pid D) : Prop where
  ready_count : k.readyCount
    = (Finset.univ.filter fun t => (k.thread t).state = .ready).card
  run_queue : k.readyCount ≠ 0 → ∀ link, (link = next k.tie ∨ link = prev k.tie) →
    (visited link k.runQueue k.readyCount).Nodup
      ∧ (∀ t, t ∈ visited link k.runQueue k.readyCount ↔ (k.thread t).state = .ready)
      ∧ link^[k.readyCount] k.runQueue = k.runQueue
  run_queue_idle : k.readyCount = 0 → k.runQueue = cfg.idle
  timeouts : ∃ l, Chain (nextItem k.tie) k.timeoutsQueue l ∧ l.Nodup
    ∧ (∀ t, t ∈ l ↔ (k.thread t).state = .pending ∧ (k.thread t).wakeupSched = true)
    ∧ ∀ t ∈ l, t ∉ visited (next k.tie) k.runQueue k.readyCount
  current : (k.thread k.current).state = .ready ∧ k.current = k.runQueue
    ∨ k.current = cfg.idle
  fault : k.fault = false

variable {cfg : Config Tid Qid} {k : Kernel Tid Qid Pid D}
variable {s : Shape Tid Qid Pid}

theorem KBase.visited_ring {a : Tid} {l : List Tid} (h : KBase cfg k s)
    (hr : s.ring = a :: l) (link : Tid → Tid)
    (hlink : link = next k.tie ∨ link = prev k.tie) :
    ∃ l', (a :: l').Perm s.ring ∧ visited link k.runQueue k.readyCount = a :: l'
      ∧ link^[k.readyCount] k.runQueue = k.runQueue := by
  have hring := h.sched.ringed (by rw [hr]; exact cons_ne_nil a l)
  have hrun := h.sched.runQueue
  have hcount := h.sched.count
  rw [hr] at hring hrun hcount
  rw [visited, hrun, hcount, hr]
  rcases hlink with rfl | rfl
  · exact ⟨l, List.Perm.refl _, hring.iterate_nx, hring.iterate_length⟩
  · have hflip := hring.flip
    have hlen : (a :: l).length = (a :: l.reverse).length := by simp
    refine ⟨l.reverse, (reverse_perm l).cons a, ?_, ?_⟩
    · rw [hlen]
      exact hflip.iterate_nx
    · rw [hlen]
      exact hflip.iterate_length

theorem KInv.schedulerOk (h : KInv cfg k s) : SchedulerOk cfg k := by
  have hcard : k.readyCount = (Finset.univ.filter fun t => (k.thread t).state = .ready).card := by
    rw [h.sched.count, ← toFinset_card_of_nodup h.sched.nodup]
    congr 1
    ext t
    simp [h.ready]
  have hpos : k.readyCount ≠ 0 → ∃ a l, s.ring = a :: l := by
    intro hne
    refine exists_cons_of_ne_nil ?_
    rintro hnil
    rw [h.sched.count, hnil] at hne
    exact hne rfl
  refine ⟨hcard, ?_, ?_, ⟨s.timeq.map Prod.fst, h.sched.timeouts.chain, h.timeq_nodup,
    ?_, ?_⟩, ?_, h.sched.fault⟩
  · intro hne link hlink
    obtain ⟨a, l, hr⟩ := hpos hne
    obtain ⟨l', hperm, hvis, hclose⟩ := h.toKBase.visited_ring hr link hlink
    rw [hvis]
    refine ⟨hperm.nodup_iff.mpr h.sched.nodup, ?_, hclose⟩
    intro t
    rw [hperm.mem_iff]
    exact h.ready t
  · intro hz
    have hnil : s.ring = [] := length_eq_zero_iff.mp (h.sched.count ▸ hz)
    rw [h.sched.runQueue, hnil]
    rfl
  · intro t
    rw [h.timed]
    exact ⟨fun hw => ⟨h.wakeup t hw, hw⟩, fun hw => hw.2⟩
  · intro t ht hvis
    by_cases hz : k.readyCount = 0
    · rw [visited, hz] at hvis
      exact nomatch hvis
    · obtain ⟨a, l, hr⟩ := hpos hz
      obtain ⟨l', hperm, hv, -⟩ := h.toKBase.visited_ring hr _ (Or.inl rfl)
      rw [hv, hperm.mem_iff] at hvis
      exact h.sched.disjoint t hvis ht
  · by_cases hc : k.current = cfg.idle
    · exact Or.inr hc
    · obtain ⟨hs, l, hl⟩ := h.current_ready hc
      refine Or.inl ⟨hs, ?_⟩
      rw [h.sched.runQueue, hl]
      rfl

def Unlinked (cfg : Config Tid Qid) (k : Kernel Tid Qid Pid D) : Prop :=
  ∃ ring timeq, KInv cfg k ⟨ring, timeq, fun _ => []⟩
    ∧ ∀ t, SelfLinked k.wait (.handle t)

/-- **ONE STEP** of a run keeps the invariant. -/
theorem Unlinked.step (h : Unlinked cfg k) (op : SchedOp cfg) (ha : op.Allowed k) :
    Unlinked cfg (op.run k) := by
  obtain ⟨ring, timeq, hinv, hself⟩ := h
  have hun : ∀ n : WNode Tid Qid Pid, Unqueued (fun _ : Qid => []) n := fun n q hc => nomatch hc
  cases op with
  | start t =>
    obtain ⟨hinv', -, hwait, -, -⟩ := hinv.start ha
    refine ⟨_, _, hinv', ?_⟩
    show ∀ x, SelfLinked (kThreadStart cfg k t).1.wait (.handle x)
    rw [hwait]
    exact hself
  | yield =>
    refine ⟨_, _, hinv.yield, ?_⟩
    show ∀ x, SelfLinked (zScheduler k).wait (.handle x)
    rw [zScheduler_wait]
    exact hself
  | sleep timeout =>
    obtain ⟨hinv', -, hwait, -⟩ := hinv.sleep ha timeout fun _ => hself k.current
    refine ⟨_, _, hinv', ?_⟩
    show ∀ x, SelfLinked (kSleep cfg k timeout).wait (.handle x)
    rw [hwait]
    exact hself
  | abort t =>
    obtain ⟨hidle, hcur⟩ := ha
    by_cases hs : (k.thread t).state = .stopped
    · have hk : (SchedOp.abort t : SchedOp cfg).run k = k := by
        show (kThreadAbort cfg k t).1 = k
        rw [kThreadAbort, if_pos hs]
      rw [hk]
      exact ⟨ring, timeq, hinv, hself⟩
    · have hi : (k.thread t).state ≠ .idle := fun hc => hidle ((hinv.idle t).mp hc)
      have hctx : Suspendable cfg k t := by
        intro hc
        rw [(hinv.idle _).mpr hc] at hcur
        exact nomatch hcur
      have hj : Joiners cfg (⟨ring, timeq, fun _ => []⟩ : Shape Tid Qid Pid) t [] := by
        unfold Joiners
        cases cfg.joinWaitqueue with
        | none => rfl
        | some join => rfl
      obtain ⟨ring', timeq', hinv', -, -, -, hlink⟩ := hinv.abort hi hs (hun _) hctx hj
      refine ⟨ring', timeq', ?_, fun x => hlink x (Or.inr ⟨hun _, hself x⟩)⟩
      have hempty : afterJoin cfg (fun _ => ([] : List (WNode Tid Qid Pid))) t = fun _ => [] := by
        unfold afterJoin
        cases cfg.joinWaitqueue with
        | none => rfl
        | some join => exact Function.update_eq_self_iff.mpr rfl
      rw [hempty] at hinv'
      exact hinv'
  | wakeUp t =>
    refine ⟨_, _, ⟨hinv.toKBase.wakeUp ha (hun _), ?_⟩, ?_⟩
    · show (zWakeUp cfg k t).current = cfg.idle ∨ _ = some (zWakeUp cfg k t).current
      rw [zWakeUp_current]
      exact hinv.current_insertReady t
    · show ∀ x, SelfLinked (zWakeUp cfg k t).wait (.handle x)
      rw [zWakeUp_wait]
      exact hself
  | schedEnter =>
    obtain ⟨⟨ring', timeq', waitq'⟩, E, hinv', hE⟩ := hinv.schedEnter
    have hempty : waitq' = fun _ => [] := hE.waitq
    rw [hempty] at hinv'
    exact ⟨ring', timeq', hinv', fun x => hE.selfLinked x (hun _) (hself x)⟩

theorem SchedReach.unlinked (h : SchedReach cfg k) : Unlinked cfg k := by
  refine Reach.invariant h ?_ fun _ op ih ha => ih.step op ha
  rintro k₀ ⟨ring, hb⟩
  exact ⟨ring, [], hb.kinv, fun t => hb.handles _⟩

/-- **THE SCHEDULER'S BOOKKEEPING**: count, ring, timeouts queue and running thread agree with
    the states in every reachable state. -/
theorem scheduler_state_invariant (h : SchedReach cfg k) : SchedulerOk cfg k := by
  obtain ⟨ring, timeq, hinv, -⟩ := h.unlinked
  exact hinv.schedulerOk

def aborted : Kernel (Fin 4) Unit Empty Unit :=
  ([.sleep 2, .abort 0, .schedEnter] : List (SchedOp (smallConfig Unit))).foldl SchedOp.run
    (smallBoot Unit Empty Unit)

theorem scheduler_state_invariant_aborted :
    SchedReach (smallConfig Unit) aborted ∧ SchedulerOk (smallConfig Unit) aborted
      ∧ (aborted.thread 0).state = .stopped ∧ aborted.readyCount = 2 := by
  have hreach : SchedReach (smallConfig Unit) aborted :=
    Reach.foldl (.start ⟨_, smallBoot_linked⟩) (by decide)
  exact ⟨hreach, scheduler_state_invariant hreach, by decide, by decide⟩

end AvrtosKernel
