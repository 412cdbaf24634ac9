import Avrtos.AbortRuns
import Avrtos.RunOrder
import Avrtos.SchedulerRuns

/-! # `k_thread_start` and `k_thread_abort` in any context

    Aborting from the idle thread, and the critical sections of both calls. -/

namespace AvrtosStartAbort

open Function List AvrtosDefines AvrtosDlist AvrtosKernel AvrtosAbort Cells LinkedRing Runs

variable {Tid Qid Pid D : Type} [Threads Tid]
variable [DecidableEq Qid] [DecidableEq Pid]

variable {cfg : Config Tid Qid} {k : Kernel Tid Qid Pid D}
variable {s : Shape Tid Qid Pid} {t : Tid}

/-- `run_queue` is the node of a READY thread in the ring of all READY threads,
    or the idle thread's if there is none. -/
def RunQueueValid (cfg : Config Tid Qid) (k : Kernel Tid Qid Pid D) : Prop :=
  (∃ ring, Ring (next k.tie) (prev k.tie) ring ∧ k.runQueue ∈ ring
      ∧ ∀ t, t ∈ ring ↔ (k.thread t).state = .ready)
    ∨ (∀ t, (k.thread t).state ≠ .ready) ∧ k.runQueue = cfg.idle

theorem KBase.runQueueValid (h : KBase cfg k s) : RunQueueValid cfg k := by
  have hrun := h.sched.runQueue
  cases hr : s.ring with
  | nil =>
    rw [hr] at hrun
    refine Or.inr ⟨fun t ht => ?_, hrun⟩
    have hmem := (h.ready t).mpr ht
    rw [hr] at hmem
    exact nomatch hmem
  | cons a l =>
    rw [hr] at hrun
    refine Or.inl ⟨s.ring, h.sched.ringed (by rw [hr]; exact cons_ne_nil a l), ?_, h.ready⟩
    rw [hr, hrun]
    exact mem_cons_self

theorem KInv.current_not_stopped (h : KInv cfg k s) : (k.thread k.current).state ≠ .stopped := by
  by_cases hc : k.current = cfg.idle
  · rw [(h.idle _).mpr hc]
    exact fun hc => nomatch hc
  · rw [(h.current_ready hc).1]
    exact fun hc => nomatch hc

omit [DecidableEq Qid] [DecidableEq Pid] in
theorem zScheduler_state (k : Kernel Tid Qid Pid D) (t : Tid) :
    ((zScheduler k).thread t).state = (k.thread t).state := by
  rw [zScheduler_thread, update_apply]
  by_cases ht : t = k.current
  · rw [if_pos ht, ht]
    rfl
  · rw [if_neg ht]

theorem NoJoiner.joiners (hj : NoJoiner cfg k t) (h : KBase cfg k s) : Joiners cfg s t [] := by
  unfold Joiners
  cases hc : cfg.joinWaitqueue with
  | none => rfl
  | some join =>
    have hring := h.wait.ringed (join t)
    have hnext := hj join hc
    cases hq : s.waitq (join t) with
    | nil => exact hq
    | cons n rest =>
      rw [hq] at hring
      rw [hring.next_head] at hnext
      exact absurd hnext (h.wait.node (join t) n (by
        rw [hq]
        exact mem_cons_self ..) (join t))

theorem abort_keeps_runQueue (hs : (k.thread t).state = .ready) (hj : NoJoiner cfg k t)
    (hcur : t ≠ k.current) (hrun : t = k.runQueue)
    (hcount : (k.readyCount + 2 ^ cfg.readyBits - 1) % 2 ^ cfg.readyBits ≠ 0) :
    (kThreadAbort cfg k t).1.runQueue = t
      ∧ ((kThreadAbort cfg k t).1.thread t).state = .stopped := by
  have hnp : (k.thread t).state ≠ .pending := by
    rw [hs]
    exact fun hc => nomatch hc
  obtain ⟨wait', hk⟩ := kThreadAbort_noJoiner (t := t)
    (by rw [hs]; exact fun hc => nomatch hc) hj
  rw [hk, if_neg hcur]
  refine ⟨?_, ?_⟩
  · show (zSuspend cfg k t).runQueue = t
    simp only [zSuspend, if_neg hnp, if_neg hcount, if_neg hcur]
    exact hrun.symm
  · show ((zSetThreadState (zSuspend cfg k t) t .stopped).thread t).state = .stopped
    simp [zSetThreadState, Kernel.modThread]

theorem KInv.runQueueValid_abort_iff (h : KInv cfg k s) (hs : (k.thread t).state = .ready)
    (hj : NoJoiner cfg k t) :
    RunQueueValid cfg (kThreadAbort cfg k t).1 ∧ ((zScheduler (kThreadAbort cfg k t).1).thread
            (zScheduler (kThreadAbort cfg k t).1).current).state ≠ .stopped
      ↔ Suspendable cfg k t := by
  constructor
  · rintro ⟨hvalid, -⟩ hc hrun
    by_contra hne
    have hcur : t ≠ k.current := by
      rintro rfl
      rw [(h.idle _).mpr hc] at hs
      exact nomatch hs
    have hlt := length_lt_of_nodup cfg h.sched.nodup
    have hpos : 0 < s.ring.length := length_pos_of_mem ((h.ready t).mpr hs)
    have hcount : (k.readyCount + 2 ^ cfg.readyBits - 1) % 2 ^ cfg.readyBits ≠ 0 := by
      rw [h.sched.count] at hne ⊢
      have h1 : s.ring.length + 2 ^ cfg.readyBits - 1
          = s.ring.length - 1 + 2 ^ cfg.readyBits := by omega
      rw [h1, Nat.add_mod_right, Nat.mod_eq_of_lt (by omega)]
      omega
    obtain ⟨hq, hstop⟩ := abort_keeps_runQueue hs hj hcur hrun hcount
    rcases hvalid with ⟨ring, -, hmem, hready⟩ | ⟨-, hidle⟩
    · have hr := (hready _).mp hmem
      rw [hq, hstop] at hr
      exact nomatch hr
    · rw [hq] at hidle
      rw [(h.idle t).mpr hidle] at hs
      exact nomatch hs
  · intro hc
    have hu := h.unqueued (t := t) (by rw [hs]; exact fun hc => nomatch hc)
    obtain ⟨ring, timeq, hinv, -⟩ := h.abort (by rw [hs]; exact fun hc => nomatch hc)
      (by rw [hs]; exact fun hc => nomatch hc) hu hc (NoJoiner.joiners hj h.toKBase)
    exact ⟨KBase.runQueueValid hinv.toKBase, KInv.current_not_stopped hinv.yield⟩

section Runs

variable {st : ObjSys Tid Qid} {reentrancy : Bool}

/-- **ABORT FROM ANY CONTEXT** leaves `run_queue` on a READY thread, or on the idle one, exactly
    if the thread is not the first of several while the idle thread runs. -/
theorem abort_runQueue_iff
    (h : ObjReach reentrancy cfg (fun st op => op.Careful st) st)
    (hs : (st.calls.ker.thread t).state = .ready) (hj : NoJoiner cfg st.calls.ker t) :
    RunQueueValid cfg (kThreadAbort cfg st.calls.ker t).1
        ∧ ((zScheduler (kThreadAbort cfg st.calls.ker t).1).thread
            (zScheduler (kThreadAbort cfg st.calls.ker t).1).current).state ≠ .stopped
      ↔ Suspendable cfg st.calls.ker t := by
  obtain ⟨w, hi⟩ := h.inv
  obtain ⟨ring, timeq, hk⟩ := hi.kernel
  exact KInv.runQueueValid_abort_iff hk hs hj

def oneAsleep : ObjSys (Fin 4) Unit :=
  ([.sleep 2] : List (ObjOp (smallConfig Unit))).foldl (ObjOp.run false)
    (objBoot (smallBoot Unit Empty Nat))

theorem abort_runQueue_iff_oneAsleep :
    ObjReach false (smallConfig Unit) (fun st op => op.Careful st) oneAsleep
      ∧ oneAsleep.calls.ker.current = 2
      ∧ RunQueueValid (smallConfig Unit)
          (kThreadAbort (smallConfig Unit) oneAsleep.calls.ker 1).1 := by
  have hreach : ObjReach false (smallConfig Unit) (fun st op => op.Careful st) oneAsleep :=
    Reach.foldl (.start ⟨_, _, smallBoot_boot, rfl⟩) (by decide)
  have hiff := abort_runQueue_iff (t := 1) hreach (by decide) (fun _ hc => nomatch hc)
  exact ⟨hreach, by decide, (hiff.mpr (by decide)).1⟩

def allAwake : ObjSys (Fin 4) Unit :=
  ([.sleep 1, .sleep 1, .sleep 1, .schedEnter] : List (ObjOp (smallConfig Unit))).foldl
    (ObjOp.run false) (objBoot (smallBoot Unit Empty Nat))

/-- **A STOPPED THREAD IS SELECTED**: in the same interrupt, thread 0 is aborted;
    `run_queue` stays on it, and the scheduler switches to it. -/
theorem abort_selects_stopped :
    ObjReach false (smallConfig Unit) (fun st op => op.Careful st) allAwake
      ∧ allAwake.calls.ker.current = 3
      ∧ (allAwake.calls.ker.thread 0).state = .ready
      ∧ (kThreadAbort (smallConfig Unit) allAwake.calls.ker 0).1.runQueue = 0
      ∧ ((zScheduler (kThreadAbort (smallConfig Unit) allAwake.calls.ker 0).1).thread
          (zScheduler (kThreadAbort (smallConfig Unit) allAwake.calls.ker 0).1).current).state
        = .stopped := by
  have hreach : ObjReach false (smallConfig Unit) (fun st op => op.Careful st) allAwake :=
    Reach.foldl (.start ⟨_, _, smallBoot_boot, rfl⟩) (by decide)
  have hrun : (kThreadAbort (smallConfig Unit) allAwake.calls.ker 0).1.runQueue = 0 := by
    decide
  have hidle : ((kThreadAbort (smallConfig Unit) allAwake.calls.ker 0).1.thread
      (kThreadAbort (smallConfig Unit) allAwake.calls.ker 0).1.current).state ≠ .ready := by
    decide
  refine ⟨hreach, by decide, by decide, hrun, ?_⟩
  rw [zScheduler_state, zScheduler_of_not_ready hidle, hrun]
  decide

end Runs

/-- The two calls. -/
inductive LifeCall where
  | start
  | abort
deriving DecidableEq, Repr

/-- The complete call. -/
def LifeCall.run (cfg : Config Tid Qid) (k : Kernel Tid Qid Pid D) (t : Tid) :
    LifeCall → Kernel Tid Qid Pid D × Int
  | .start => kThreadStart cfg k t
  | .abort => kThreadAbort cfg k t

def LifeCall.passes (k : Kernel Tid Qid Pid D) (t : Tid) : LifeCall → Bool
  | .start => (k.thread t).state = .stopped
  | .abort => (k.thread t).state ≠ .stopped

def LifeCall.locked (cfg : Config Tid Qid) (k : Kernel Tid Qid Pid D) (t : Tid) :
    LifeCall → Kernel Tid Qid Pid D
  | .start => zSchedule cfg k t
  | .abort =>
      let k := zSuspend cfg k t
      let k := zSetThreadState k t .stopped
      let k :=
        match cfg.joinWaitqueue with
        | some join => (zUnpendAll cfg k (join t)).1
        | none => k
      if t = k.current then zScheduler k else k

def LifeCall.error : LifeCall → Int
  | .start => -EAGAIN
  | .abort => -EINVAL

/-- Test, lock, work. -/
theorem LifeCall.run_eq (call : LifeCall) (k : Kernel Tid Qid Pid D) (t : Tid) : call.run cfg k t
      = if call.passes k t then (call.locked cfg k t, 0) else (k, call.error) := by
  cases call with
  | start =>
    simp only [LifeCall.run, kThreadStart, LifeCall.passes, decide_eq_true_eq, ite_not]
    rfl
  | abort =>
    simp only [LifeCall.run, kThreadAbort, LifeCall.passes, decide_eq_true_eq, ite_not,
      LifeCall.locked]
    by_cases hs : (k.thread t).state = .stopped
    · rw [if_pos hs, if_pos hs]
      rfl
    · rw [if_neg hs, if_neg hs]
      cases cfg.joinWaitqueue with
      | none => simp only [apply_ite (fun k' : Kernel Tid Qid Pid D => (k', (0 : Int)))]
      | some join => simp only [apply_ite (fun k' : Kernel Tid Qid Pid D => (k', (0 : Int)))]

omit [Threads Tid] [DecidableEq Qid] [DecidableEq Pid] in
theorem LifeCall.passes_congr {k' : Kernel Tid Qid Pid D} (call : LifeCall)
    (h : (k'.thread t).state = (k.thread t).state) : call.passes k' t = call.passes k t := by
  cases call with
  | start => simp only [LifeCall.passes, h]
  | abort => simp only [LifeCall.passes, h]

omit [Threads Tid] [DecidableEq Qid] [DecidableEq Pid] in
theorem LifeCall.passes_of_ne {outer inner : LifeCall} (hne : outer ≠ inner)
    (h : outer.passes k t = true) : inner.passes k t = false := by
  cases outer with
  | start =>
    cases inner with
    | start => exact absurd rfl hne
    | abort => simpa [LifeCall.passes] using h
  | abort =>
    cases inner with
    | start => simpa [LifeCall.passes] using h
    | abort => exact absurd rfl hne

inductive Point where
  | entry
  | checked
  | exit
deriving DecidableEq, Repr

def interrupt (cfg : Config Tid Qid) (before after : Nat) (call : LifeCall) (t : Tid)
    (k : Kernel Tid Qid Pid D) : Kernel Tid Qid Pid D × Int :=
  let r := call.run cfg (zScheduler^[before] k) t
  (zScheduler^[after] r.1, r.2)

def interrupted (cfg : Config Tid Qid) (before after : Nat) (outer inner : LifeCall)
    (t : Tid) (k : Kernel Tid Qid Pid D) : Point → Kernel Tid Qid Pid D × Int × Int
  | .entry =>
      let r := interrupt cfg before after inner t k
      let o := outer.run cfg r.1 t
      (o.1, o.2, r.2)
  | .checked =>
      let pass := outer.passes k t
      let r := interrupt cfg before after inner t k
      if pass then (outer.locked cfg r.1 t, 0, r.2) else (r.1, outer.error, r.2)
  | .exit =>
      let o := outer.run cfg k t
      let r := interrupt cfg before after inner t o.1
      (r.1, o.2, r.2)

def Serial (cfg : Config Tid Qid) (before after : Nat) (outer inner : LifeCall) (t : Tid)
    (k : Kernel Tid Qid Pid D) (p : Point) : Prop :=
  interrupted cfg before after outer inner t k p
      = interrupted cfg before after outer inner t k .entry
    ∨ interrupted cfg before after outer inner t k p
      = interrupted cfg before after outer inner t k .exit

section Interrupted

variable {before after : Nat} {outer inner : LifeCall} {p : Point}

omit [DecidableEq Qid] [DecidableEq Pid] in
theorem zScheduler_iterate_state (n : Nat) (k : Kernel Tid Qid Pid D) (t : Tid) :
    ((zScheduler^[n] k).thread t).state = (k.thread t).state := by
  induction n generalizing k with
  | zero => rfl
  | succ n ih => rw [iterate_succ_apply, ih, zScheduler_state]

omit [DecidableEq Qid] [DecidableEq Pid] in
theorem zScheduler_iterate_wait (n : Nat) (k : Kernel Tid Qid Pid D) :
    (zScheduler^[n] k).wait = k.wait := by
  induction n generalizing k with
  | zero => rfl
  | succ n ih => rw [iterate_succ_apply, ih, zScheduler_wait]

theorem interrupt_of_not_passes (h : inner.passes k t = false) :
    (interrupt cfg before after inner t k).2 = inner.error
      ∧ (((interrupt cfg before after inner t k).1.thread t).state = (k.thread t).state) := by
  have hk : inner.run cfg (zScheduler^[before] k) t = (zScheduler^[before] k, inner.error) := by
    rw [LifeCall.run_eq, inner.passes_congr (zScheduler_iterate_state before k t), h]
    rfl
  rw [interrupt, hk]
  exact ⟨rfl, by rw [zScheduler_iterate_state, zScheduler_iterate_state]⟩

theorem interrupt_of_passes (h : inner.passes k t = true) :
    (interrupt cfg before after inner t k).2 = 0
      ∧ (((interrupt cfg before after inner t k).1.thread t).state
        = ((inner.locked cfg (zScheduler^[before] k) t).thread t).state) := by
  have hk : inner.run cfg (zScheduler^[before] k) t
      = (inner.locked cfg (zScheduler^[before] k) t, 0) := by
    rw [LifeCall.run_eq, inner.passes_congr (zScheduler_iterate_state before k t), h]
    rfl
  rw [interrupt, hk]
  exact ⟨rfl, by rw [zScheduler_iterate_state]⟩

theorem serial_of_fresh (h : p = .checked → outer.passes k t = true →
    outer.passes (interrupt cfg before after inner t k).1 t = true) :
    Serial cfg before after outer inner t k p := by
  cases p with
  | entry => exact Or.inl rfl
  | exit => exact Or.inr rfl
  | checked =>
    by_cases hp : outer.passes k t = true
    · refine Or.inl ?_
      simp only [interrupted, hp, if_true, LifeCall.run_eq outer, h rfl hp]
    · refine Or.inr ?_
      simp only [interrupted, hp, LifeCall.run_eq outer]
      rfl

theorem not_serial_of_stale (hp : outer.passes k t = true)
    (hin : outer.passes (interrupt cfg before after outer t k).1 t = false)
    (hout : outer.passes (outer.locked cfg k t) t = false) :
    ¬ Serial cfg before after outer outer t k .checked := by
  have herr : outer.error ≠ 0 := by
    cases outer with
    | start => decide
    | abort => decide
  have hret : (interrupted cfg before after outer outer t k .checked).2 = (0, 0) := by
    simp only [interrupted, hp, if_true, (interrupt_of_passes hp).1]
  rintro (heq | heq)
  · have h1 : (interrupted cfg before after outer outer t k .entry).2.1 = outer.error := by
      simp only [interrupted, LifeCall.run_eq outer, hin]
      rfl
    rw [← heq, hret] at h1
    exact herr h1.symm
  · have h1 : (interrupted cfg before after outer outer t k .exit).2.2 = outer.error := by
      simp only [interrupted, LifeCall.run_eq outer _ t, hp, if_true]
      exact (interrupt_of_not_passes hout).1
    rw [← heq, hret] at h1
    exact herr h1.symm

end Interrupted

section Joined

variable {waitq : Qid → List (WNode Tid Qid Pid)} {q : Qid}

theorem zUnpendAllLoop_state {joiners : List Tid} {fuel : Nat} (count : Nat)
    (hf : joiners.length ≤ fuel) (hw : WaitRep k.wait waitq)
    (hq : waitq q = joiners.map .handle) :
    ((zUnpendAllLoop cfg q id fuel k count).1.thread t).state
      = if t ∈ joiners then .ready else (k.thread t).state := by
  induction joiners generalizing fuel k waitq count with
  | nil =>
    have hnone : zUnpendFirstThread cfg k q
        = ({ k with wait := (dlistGet k.wait (WNode.queue q : WNode Tid Qid Pid)).1 },
            none) := by
      simp only [zUnpendFirstThread, (hw.get_nil hq).1, if_true]
    cases fuel with
    | zero => simp [zUnpendAllLoop, hnone]
    | succ fuel => simp [zUnpendAllLoop, hnone]
  | cons x l ih =>
    obtain ⟨fuel, rfl⟩ : ∃ n, fuel = n + 1 := by
      refine ⟨fuel - 1, ?_⟩
      rw [length_cons] at hf
      omega
    obtain ⟨hget, hrep⟩ := hw.get_cons hq
    have hu := hw.unqueued_head hq
    obtain ⟨hrep', -⟩ := hrep.init (n := .handle x) (fun _ => by simp) hu
    have hsome : zUnpendFirstThread cfg k q = (zWakeUp cfg { k with
        wait := dlistInit (dlistRemove k.wait (.handle x : WNode Tid Qid Pid))
          (.handle x : WNode Tid Qid Pid) } x, some x) := by
      simp only [zUnpendFirstThread, hget]
      rw [if_neg (by simp)]
    simp only [zUnpendAllLoop, hsome]
    have hih := ih (k := (zWakeUp cfg { k with
        wait := dlistInit (dlistRemove k.wait (.handle x : WNode Tid Qid Pid))
          (.handle x : WNode Tid Qid Pid) } x).modThread x id) ((count + 1) % 256)
      (Nat.le_of_succ_le_succ hf) (by
        show WaitRep (zWakeUp cfg _ x).wait _
        rw [zWakeUp_wait]
        exact hrep') (update_self ..)
    rw [hih]
    by_cases htx : t = x
    · subst htx
      simp [Kernel.modThread]
    · simp [Kernel.modThread, htx]

theorem locked_abort_state (hw : WaitRep k.wait s.waitq) {joiners : List Tid}
    (hj : Joiners cfg s t joiners) :
    ((LifeCall.abort.locked cfg k t).thread t).state
      = if t ∈ joiners then .ready else .stopped := by
  have hstop : ((zSetThreadState (zSuspend cfg k t) t .stopped).thread t).state = .stopped := by
    simp [zSetThreadState, Kernel.modThread]
  have hlocked : ∀ k' : Kernel Tid Qid Pid D,
      ((if t = k'.current then zScheduler k' else k').thread t).state = (k'.thread t).state := by
    intro k'
    by_cases hc : t = k'.current
    · rw [if_pos hc, zScheduler_state]
    · rw [if_neg hc]
  simp only [LifeCall.locked]
  rw [hlocked]
  unfold Joiners at hj
  cases hc : cfg.joinWaitqueue with
  | none =>
    rw [hc] at hj
    simp only [hj, hstop]
    rfl
  | some join =>
    rw [hc] at hj
    have hw' : WaitRep (zSetThreadState (zSuspend cfg k t) t .stopped).wait s.waitq := by
      show WaitRep (zSuspend cfg k t).wait s.waitq
      rw [zSuspend_wait]
      exact hw
    simp only [zUnpendAll]
    rw [zUnpendAllLoop_state 0 (hw.length_le hj) hw' hj, hstop]

end Joined

structure Settled (cfg : Config Tid Qid) (k : Kernel Tid Qid Pid D) (t : Tid)
    (s : Shape Tid Qid Pid) (joiners : List Tid) : Prop where
  kernel : KInv cfg k s
  unqueued : Unqueued s.waitq (.handle t)
  joiners : Joiners cfg s t joiners
  not_idle : t ≠ cfg.idle
  suspendable : Suspendable cfg k t

section Settled

variable {joiners : List Tid}

theorem KInv.suspendable_of_stopped (h : KInv cfg k s) (hs : (k.thread t).state = .stopped) :
    Suspendable cfg k t := by
  intro _ hrun
  rcases KBase.runQueueValid h.toKBase with ⟨ring, -, hmem, hready⟩ | ⟨-, hidle⟩
  · have hr := (hready _).mp hmem
    rw [← hrun, hs] at hr
    exact nomatch hr
  · rw [(h.idle t).mpr (hrun.trans hidle)] at hs
    exact nomatch hs

theorem Settled.start (h : Settled cfg k t s joiners) :
    ∃ s', Settled cfg (kThreadStart cfg k t).1 t s' joiners := by
  by_cases hs : (k.thread t).state = .stopped
  · obtain ⟨hinv, -, -, hcur, -⟩ := h.kernel.start hs
    refine ⟨_, hinv, h.unqueued, h.joiners, h.not_idle, ?_⟩
    intro hc hrun
    rw [hinv.sched.runQueue] at hrun
    rw [hinv.sched.count]
    have hr : t ∉ s.ring := h.kernel.notMem_ring (by rw [hs]; exact fun hc => nomatch hc)
    cases hring : s.ring with
    | nil => rfl
    | cons a l =>
      rw [hring] at hrun hr
      exact absurd hrun fun hc => hr (hc ▸ mem_cons_self ..)
  · rw [kThreadStart, if_pos hs]
    exact ⟨s, h⟩

theorem Settled.abort (h : Settled cfg k t s joiners) :
    ∃ s' joiners', Settled cfg (kThreadAbort cfg k t).1 t s' joiners' := by
  by_cases hs : (k.thread t).state = .stopped
  · rw [kThreadAbort, if_pos hs]
    exact ⟨s, joiners, h⟩
  · have hi : (k.thread t).state ≠ .idle := fun hc => h.not_idle ((h.kernel.idle t).mp hc)
    obtain ⟨ring, timeq, hinv, -, hth, -⟩ := h.kernel.abort hi hs h.unqueued h.suspendable h.joiners
    have hstop : ((kThreadAbort cfg k t).1.thread t).state = .stopped := by
      rw [hth, if_pos rfl]
      split_ifs <;> rfl
    refine ⟨_, [], hinv, ?_, ?_, h.not_idle, KInv.suspendable_of_stopped hinv hstop⟩
    · exact hinv.unqueued (by rw [hstop]; exact ThreadState.noConfusion)
    · unfold Joiners afterJoin
      cases cfg.joinWaitqueue with
      | none => rfl
      | some join => exact update_self ..

theorem Settled.run (h : Settled cfg k t s joiners) (call : LifeCall) :
    ∃ s' joiners', Settled cfg (call.run cfg k t).1 t s' joiners' := by
  cases call with
  | start =>
    obtain ⟨s', h'⟩ := h.start
    exact ⟨s', joiners, h'⟩
  | abort => exact h.abort

theorem Settled.switch (h : Settled cfg k t s joiners) :
    ∃ s', Settled cfg (zScheduler k) t s' joiners := by
  refine ⟨_, h.kernel.yield, h.unqueued, h.joiners, h.not_idle, ?_⟩
  intro hc hrun
  have hcur : (zScheduler k).current = (zScheduler k).runQueue := rfl
  exact absurd (hrun.trans (hcur.symm.trans hc)) h.not_idle

theorem Settled.switches (h : Settled cfg k t s joiners) (n : Nat) :
    ∃ s', Settled cfg (zScheduler^[n] k) t s' joiners := by
  induction n generalizing k s with
  | zero => exact ⟨s, h⟩
  | succ n ih =>
    obtain ⟨s', h'⟩ := h.switch
    exact ih h'

theorem Settled.interrupt (h : Settled cfg k t s joiners) (before after : Nat)
    (call : LifeCall) :
    ∃ s' joiners', Settled cfg (interrupt cfg before after call t k).1 t s' joiners' := by
  obtain ⟨s₁, h₁⟩ := h.switches before
  obtain ⟨s₂, joiners₂, h₂⟩ := h₁.run call
  obtain ⟨s₃, h₃⟩ := h₂.switches after
  exact ⟨s₃, joiners₂, h₃⟩

theorem Settled.schedulerOk (h : Settled cfg k t s joiners) {before after : Nat}
    {outer inner : LifeCall} {p : Point}
    (hserial : Serial cfg before after outer inner t k p) :
    SchedulerOk cfg (interrupted cfg before after outer inner t k p).1 := by
  rcases hserial with heq | heq
  · rw [heq]
    obtain ⟨s₁, joiners₁, h₁⟩ := h.interrupt before after inner
    obtain ⟨s₂, joiners₂, h₂⟩ := h₁.run outer
    exact h₂.kernel.schedulerOk
  · rw [heq]
    obtain ⟨s₁, joiners₁, h₁⟩ := h.run outer
    obtain ⟨s₂, joiners₂, h₂⟩ := h₁.interrupt before after inner
    exact h₂.kernel.schedulerOk

end Settled

section Atomicity

variable {joiners : List Tid}

theorem LifeCall.locked_not_passes (hw : WaitRep k.wait s.waitq)
    (hj : Joiners cfg s t joiners) (call : LifeCall)
    (hn : ¬ (call = .abort ∧ t ∈ joiners)) :
    call.passes (call.locked cfg k t) t = false := by
  cases call with
  | start =>
    simp only [LifeCall.passes, LifeCall.locked, zSchedule_thread, update_self]
    rfl
  | abort =>
    have htj : t ∉ joiners := fun hc => hn ⟨rfl, hc⟩
    simp only [LifeCall.passes, locked_abort_state hw hj, if_neg htj]
    rfl

/-- **ATOMICITY**: an interrupted call has the outcome of one of the two orders, unless the
    interruption falls between test and lock, both calls are of the same kind and the test was
    passed. -/
theorem start_abort_atomic_iff (h : KInv cfg k s) (hj : Joiners cfg s t joiners)
    (before after : Nat) (outer inner : LifeCall) (p : Point) :
    (Serial cfg before after outer inner t k p
        ↔ (p = .checked → outer = inner → outer.passes k t = true →
            outer = .abort ∧ t ∈ joiners))
      ∧ (Serial cfg before after outer inner t k p → t ≠ cfg.idle →
          Unqueued s.waitq (.handle t) → Suspendable cfg k t →
          SchedulerOk cfg (interrupted cfg before after outer inner t k p).1) := by
  have hw : ∀ n, WaitRep (zScheduler^[n] k).wait s.waitq := by
    intro n
    rw [zScheduler_iterate_wait]
    exact h.wait
  refine ⟨⟨?_, ?_⟩, ?_⟩
  · rintro hserial rfl rfl hp
    by_contra hn
    refine not_serial_of_stale hp ?_ (LifeCall.locked_not_passes h.wait hj outer hn) hserial
    rw [outer.passes_congr (interrupt_of_passes hp).2]
    exact LifeCall.locked_not_passes (hw before) hj outer hn
  · intro hcond
    refine serial_of_fresh ?_
    intro hpt hp
    by_cases hoi : outer = inner
    · subst hoi
      obtain ⟨rfl, htj⟩ := hcond hpt rfl hp
      rw [LifeCall.passes_congr _ (interrupt_of_passes hp).2]
      simp only [LifeCall.passes, locked_abort_state (hw before) hj, if_pos htj]
      rfl
    · rw [outer.passes_congr
        (interrupt_of_not_passes (LifeCall.passes_of_ne hoi hp)).2]
      exact hp
  · intro hserial hidle hu hc
    exact Settled.schedulerOk ⟨h, hu, hj, hidle, hc⟩ hserial

/-- A thread is started while another thread aborts it. -/
theorem start_abort_atomic_iff_abort :
    Serial (smallConfig Unit) 1 1 .start .abort 1 twoReady .checked
      ∧ SchedulerOk (smallConfig Unit)
        (interrupted (smallConfig Unit) 1 1 .start .abort 1 twoReady .checked).1 := by
  have hboot : Boot (smallConfig Unit) twoReady [0, 1] :=
    (bootKernel_boot (by show (0 : Fin 4) ≠ 3; decide)).start rfl
  obtain ⟨hiff, hok⟩ := start_abort_atomic_iff (t := 1) hboot.kinv rfl 1 1 .start .abort
    .checked
  have hserial := hiff.mpr fun _ hc => nomatch hc
  exact ⟨hserial, hok hserial (by decide) (fun _ hc => nomatch hc) (by decide)⟩

/-- **STALE TESTS**: two starts, then two aborts are interleaved. Both calls return 0, and
    `ready_count` is wrong. -/
theorem start_abort_not_atomic :
    ¬ Serial (smallConfig Unit) 0 0 .start .start 1
        (bootKernel (smallConfig Unit) 0 : Kernel (Fin 4) Unit Empty Unit) .checked
      ∧ (interrupted (smallConfig Unit) 0 0 .start .start 1
          (bootKernel (smallConfig Unit) 0 : Kernel (Fin 4) Unit Empty Unit)
          .checked).1.readyCount = 3
      ∧ ¬ Serial (smallConfig Unit) 0 0 .abort .abort 1 twoReady .checked
      ∧ (interrupted (smallConfig Unit) 0 0 .abort .abort 1 twoReady .checked).1.readyCount
        = 0 := by
  refine ⟨?_, by decide, ?_, by decide⟩
  · exact not_serial_of_stale (by decide) (by decide) (by decide)
  · exact not_serial_of_stale (by decide) (by decide) (by decide)

end Atomicity

end AvrtosStartAbort
