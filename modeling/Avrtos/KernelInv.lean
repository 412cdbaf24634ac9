import Avrtos.RunQueue

/-! # The invariant of the kernel

    `KBase` ties rings and queues to thread states; `KInv` adds the running thread. -/

namespace AvrtosKernel

open Function List AvrtosDefines AvrtosDlist AvrtosTqueue Cells LinkedRing LinkedChain DeltaList

variable {Tid Qid Pid D : Type} [Threads Tid]
variable [DecidableEq Qid] [DecidableEq Pid]

structure Shape (Tid Qid Pid : Type) where
  ring : List Tid
  timeq : List (Tid × Nat)
  waitq : Qid → List (WNode Tid Qid Pid)

structure KBase (cfg : Config Tid Qid) (k : Kernel Tid Qid Pid D)
    (s : Shape Tid Qid Pid) : Prop where
  sched : SchedRep cfg k s.ring s.timeq
  wait : WaitRep k.wait s.waitq
  ready : ∀ t, t ∈ s.ring ↔ (k.thread t).state = .ready
  timed : ∀ t, t ∈ s.timeq.map Prod.fst ↔ (k.thread t).wakeupSched = true
  wakeup : ∀ t, (k.thread t).wakeupSched = true → (k.thread t).state = .pending
  idle : ∀ t, (k.thread t).state = .idle ↔ t = cfg.idle
  waiting : ∀ q t, .handle t ∈ s.waitq q → (k.thread t).state = .pending
  clean : ∀ t, (k.thread t).wakeupSched = true →
    Unqueued s.waitq (.handle t) → SelfLinked k.wait (.handle t)
  flags : ∀ t, (k.thread t).state = .pending →
    (k.thread t).timerExpired = false ∧ (k.thread t).pendCanceled = false

structure KInv (cfg : Config Tid Qid) (k : Kernel Tid Qid Pid D)
    (s : Shape Tid Qid Pid) : Prop extends KBase cfg k s where
  current : k.current = cfg.idle ∨ s.ring.head? = some k.current

variable {cfg : Config Tid Qid} {k : Kernel Tid Qid Pid D}
variable {s : Shape Tid Qid Pid} {t : Tid} {q : Qid}

def Thread.woken (th : Thread D) : Thread D :=
  { th with state := .ready, wakeupSched := false }

def Thread.expired (th : Thread D) : Thread D :=
  { th with state := .ready, timerExpired := true, wakeupSched := false }

section Records

variable (th : Thread D)

@[simp] theorem Thread.woken_state : th.woken.state = .ready := rfl

@[simp] theorem Thread.woken_wakeupSched : th.woken.wakeupSched = false := rfl

@[simp] theorem Thread.expired_state : th.expired.state = .ready := rfl

@[simp] theorem Thread.expired_wakeupSched : th.expired.wakeupSched = false := rfl

end Records

section Facts

theorem KBase.unqueued (h : KBase cfg k s) (ht : (k.thread t).state ≠ .pending) :
    Unqueued s.waitq (.handle t) := fun q hq => ht (h.waiting q t hq)

theorem KInv.current_ready (h : KInv cfg k s) (hc : k.current ≠ cfg.idle) :
    (k.thread k.current).state = .ready ∧ ∃ l, s.ring = k.current :: l := by
  have hhead := h.current.resolve_left hc
  obtain ⟨l, hl⟩ := List.head?_eq_some_iff.mp hhead
  refine ⟨(h.ready _).mp ?_, l, hl⟩
  rw [hl]
  exact mem_cons_self

theorem KBase.not_timed (h : KBase cfg k s) (ht : (k.thread t).state ≠ .pending) :
    (k.thread t).wakeupSched = false ∧ t ∉ s.timeq.map Prod.fst := by
  have hw : (k.thread t).wakeupSched ≠ true := fun hc => ht (h.wakeup t hc)
  exact ⟨Bool.not_eq_true _ ▸ hw, fun hc => hw ((h.timed t).mp hc)⟩

theorem KBase.idle_notMem (h : KBase cfg k s) : cfg.idle ∉ s.ring := by
  intro hc
  have h1 := (h.ready _).mp hc
  rw [(h.idle _).mpr rfl] at h1
  exact nomatch h1

theorem KBase.change {k' : Kernel Tid Qid Pid D} {s' : Shape Tid Qid Pid}
    {th : Thread D} (h : KBase cfg k s)
    (hthread : k'.thread = update k.thread t th)
    (hsched : SchedRep cfg k' s'.ring s'.timeq)
    (hwait : WaitRep k'.wait s'.waitq)
    (hring : ∀ x, x ∈ s'.ring ↔ if x = t then th.state = .ready else x ∈ s.ring)
    (htime : ∀ x, x ∈ s'.timeq.map Prod.fst ↔
      if x = t then th.wakeupSched = true else x ∈ s.timeq.map Prod.fst)
    (hwakeup : th.wakeupSched = true → th.state = .pending)
    (hidle : th.state = .idle ↔ t = cfg.idle)
    (hqueue : ∀ q x, .handle x ∈ s'.waitq q →
      if x = t then th.state = .pending else .handle x ∈ s.waitq q)
    (hclean : ∀ x, (if x = t then th.wakeupSched else (k.thread x).wakeupSched) = true →
      Unqueued s'.waitq (.handle x) → SelfLinked k'.wait (.handle x))
    (hflags : th.state = .pending → th.timerExpired = false ∧ th.pendCanceled = false) :
    KBase cfg k' s' := by
  have hthread' : ∀ x, k'.thread x = if x = t then th else k.thread x := by
    intro x
    rw [hthread, update_apply]
  refine ⟨hsched, hwait, ?_, ?_, ?_, ?_, ?_, ?_, ?_⟩
  · intro x
    rw [hring, hthread']
    by_cases hx : x = t
    · rw [if_pos hx, if_pos hx]
    · rw [if_neg hx, if_neg hx, h.ready]
  · intro x
    rw [htime, hthread']
    by_cases hx : x = t
    · rw [if_pos hx, if_pos hx]
    · rw [if_neg hx, if_neg hx, h.timed]
  · intro x
    rw [hthread']
    by_cases hx : x = t
    · rw [if_pos hx]
      exact hwakeup
    · rw [if_neg hx]
      exact h.wakeup x
  · intro x
    rw [hthread']
    by_cases hx : x = t
    · rw [if_pos hx, hx]
      exact hidle
    · rw [if_neg hx]
      exact h.idle x
  · intro q x hq
    have hq' := hqueue q x hq
    rw [hthread']
    by_cases hx : x = t
    · rw [if_pos hx] at hq' ⊢
      exact hq'
    · rw [if_neg hx] at hq' ⊢
      exact h.waiting q x hq'
  · intro x hw hu
    refine hclean x ?_ hu
    rw [hthread'] at hw
    by_cases hx : x = t
    · rw [if_pos hx] at hw ⊢
      exact hw
    · rw [if_neg hx] at hw ⊢
      exact hw
  · intro x
    rw [hthread']
    by_cases hx : x = t
    · rw [if_pos hx]
      exact hflags
    · rw [if_neg hx]
      exact h.flags x

theorem KBase.modThread (h : KBase cfg k s) (f : Thread D → Thread D)
    (hs : (f (k.thread t)).state = (k.thread t).state)
    (hw : (f (k.thread t)).wakeupSched = (k.thread t).wakeupSched)
    (hf : (k.thread t).state = .pending →
      (f (k.thread t)).timerExpired = false ∧ (f (k.thread t)).pendCanceled = false) :
    KBase cfg (k.modThread t f) s := by
  refine h.change (t := t) rfl (h.sched.modThread t f) h.wait ?_ ?_ ?_ ?_ ?_ ?_ ?_
  · intro x
    by_cases hx : x = t
    · rw [if_pos hx, hx, hs, h.ready]
    · rw [if_neg hx]
  · intro x
    by_cases hx : x = t
    · rw [if_pos hx, hx, hw, h.timed]
    · rw [if_neg hx]
  · rw [hw, hs]
    exact h.wakeup t
  · rw [hs]
    exact h.idle t
  · intro q x hx
    by_cases hxt : x = t
    · rw [if_pos hxt, hs, ← hxt]
      exact h.waiting q x hx
    · rw [if_neg hxt]
      exact hx
  · intro x hwx hx
    refine h.clean x ?_ hx
    by_cases hxt : x = t
    · rw [if_pos hxt, hw, ← hxt] at hwx
      exact hwx
    · rw [if_neg hxt] at hwx
      exact hwx
  · rw [hs]
    exact hf

theorem KBase.timeq_nodup (h : KBase cfg k s) : (s.timeq.map Prod.fst).Nodup :=
  h.sched.timeouts.chain.nodup

theorem KBase.notMem_ring (h : KBase cfg k s) (ht : (k.thread t).state ≠ .ready) :
    t ∉ s.ring := fun hc => ht ((h.ready t).mp hc)

theorem KBase.not_idle (h : KBase cfg k s) (ht : (k.thread t).state ≠ .idle) :
    t ≠ cfg.idle := fun hc => ht ((h.idle t).mpr hc)

theorem KInv.current_insertReady (h : KInv cfg k s) (t : Tid) :
    k.current = cfg.idle ∨ (insertReady t s.ring).head? = some k.current := by
  refine h.current.imp_right ?_
  intro hc
  obtain ⟨l, hl⟩ := List.head?_eq_some_iff.mp hc
  rw [hl]
  rfl

omit [DecidableEq Qid] [DecidableEq Pid] in
theorem mem_insertReady_iff {ring : List Tid} {x : Tid} :
    x ∈ insertReady t ring ↔ if x = t then True else x ∈ ring := by
  rw [mem_insertReady]
  by_cases hx : x = t
  · simp [hx]
  · simp [hx]

end Facts

section Effects

omit [DecidableEq Qid] [DecidableEq Pid]

variable (cfg k t)

@[simp] theorem zSchedule_thread : (zSchedule cfg k t).thread
    = update k.thread t { k.thread t with state := .ready } := by
  by_cases h : k.readyCount = 0
  · rw [zSchedule_of_zero h]
    rfl
  · rw [zSchedule_of_ne h]
    rfl

@[simp] theorem zSchedule_current : (zSchedule cfg k t).current = k.current := by
  by_cases h : k.readyCount = 0
  · rw [zSchedule_of_zero h]
    rfl
  · rw [zSchedule_of_ne h]
    rfl

@[simp] theorem zSchedule_wait : (zSchedule cfg k t).wait = k.wait := by
  by_cases h : k.readyCount = 0
  · rw [zSchedule_of_zero h]
    rfl
  · rw [zSchedule_of_ne h]
    rfl

@[simp] theorem zSchedule_pollfd : (zSchedule cfg k t).pollfd = k.pollfd := by
  by_cases h : k.readyCount = 0
  · rw [zSchedule_of_zero h]
    rfl
  · rw [zSchedule_of_ne h]
    rfl

@[simp] theorem zCancelScheduledWakeUp_thread : (zCancelScheduledWakeUp cfg k t).thread
      = update k.thread t { k.thread t with wakeupSched := false } := by
  unfold zCancelScheduledWakeUp
  split
  · rfl
  · rename_i hw
    refine (update_eq_self_iff.mpr ?_).symm
    cases hth : k.thread t with
    | mk state timerExpired pendCanceled wakeupSched swapData =>
        rw [hth] at hw
        have hw' : wakeupSched = false := Bool.not_eq_true _ ▸ hw
        rw [hw']

@[simp] theorem zCancelScheduledWakeUp_current :
    (zCancelScheduledWakeUp cfg k t).current = k.current := by
  unfold zCancelScheduledWakeUp
  split <;> rfl

@[simp] theorem zCancelScheduledWakeUp_wait : (zCancelScheduledWakeUp cfg k t).wait = k.wait := by
  unfold zCancelScheduledWakeUp
  split <;> rfl

@[simp] theorem zCancelScheduledWakeUp_pollfd :
    (zCancelScheduledWakeUp cfg k t).pollfd = k.pollfd := by
  unfold zCancelScheduledWakeUp
  split <;> rfl

@[simp] theorem zWakeUp_thread : (zWakeUp cfg k t).thread
    = update k.thread t (k.thread t).woken := by
  rw [zWakeUp, zSchedule_thread, zCancelScheduledWakeUp_thread,
    update_self, update_idem]
  rfl

@[simp] theorem zWakeUp_current : (zWakeUp cfg k t).current = k.current := by
  rw [zWakeUp, zSchedule_current, zCancelScheduledWakeUp_current]

@[simp] theorem zWakeUp_wait : (zWakeUp cfg k t).wait = k.wait := by
  rw [zWakeUp, zSchedule_wait, zCancelScheduledWakeUp_wait]

@[simp] theorem zWakeUp_pollfd : (zWakeUp cfg k t).pollfd = k.pollfd := by
  rw [zWakeUp, zSchedule_pollfd, zCancelScheduledWakeUp_pollfd]

@[simp] theorem zScheduler_thread : (zScheduler k).thread
    = update k.thread k.current (k.thread k.current).clearFlags := by
  by_cases h : (k.thread k.current).state = .ready
  · rw [zScheduler_of_ready h]
    rfl
  · rw [zScheduler_of_not_ready h]
    rfl

@[simp] theorem zScheduler_wait : (zScheduler k).wait = k.wait := by
  by_cases h : (k.thread k.current).state = .ready
  · rw [zScheduler_of_ready h]
    rfl
  · rw [zScheduler_of_not_ready h]
    rfl

@[simp] theorem zScheduler_pollfd : (zScheduler k).pollfd = k.pollfd := by
  by_cases h : (k.thread k.current).state = .ready
  · rw [zScheduler_of_ready h]
    rfl
  · rw [zScheduler_of_not_ready h]
    rfl

end Effects

section WakeUp

theorem KBase.toReady {k' : Kernel Tid Qid Pid D} {th : Thread D}
    {timeq : List (Tid × Nat)} {waitq : Qid → List (WNode Tid Qid Pid)}
    (h : KBase cfg k s) (hp : (k.thread t).state = .pending)
    (hthread : k'.thread = update k.thread t th)
    (hs : th.state = .ready) (hw : th.wakeupSched = false)
    (hsched : SchedRep cfg k' (insertReady t s.ring) timeq)
    (htime : ∀ x, x ∈ timeq.map Prod.fst ↔ if x = t then False else x ∈ s.timeq.map Prod.fst)
    (hwait : WaitRep k'.wait waitq)
    (hqueue : ∀ q x, .handle x ∈ waitq q → x ≠ t ∧ .handle x ∈ s.waitq q)
    (hclean : ∀ x, x ≠ t → (k.thread x).wakeupSched = true →
      Unqueued waitq (.handle x) → SelfLinked k'.wait (.handle x)) :
    KBase cfg k' ⟨insertReady t s.ring, timeq, waitq⟩ := by
  have hidle : t ≠ cfg.idle := h.not_idle (by rw [hp]; exact fun hc => nomatch hc)
  refine h.change hthread hsched hwait ?_ ?_ ?_ ?_ ?_ ?_ ?_
  · intro x
    rw [mem_insertReady_iff, hs]
    simp
  · intro x
    rw [htime, hw]
    simp
  · rw [hw]
    exact fun hc => nomatch hc
  · rw [hs]
    exact ⟨fun hc => (nomatch hc), fun hc => absurd hc hidle⟩
  · intro q x hx
    obtain ⟨hxt, hmem⟩ := hqueue q x hx
    rw [if_neg hxt]
    exact hmem
  · intro x hwx hx
    by_cases hxt : x = t
    · rw [if_pos hxt, hw] at hwx
      exact nomatch hwx
    · rw [if_neg hxt] at hwx
      exact hclean x hxt hwx hx
  · rw [hs]
    exact fun hc => nomatch hc

theorem KBase.mem_removeDelta (h : KBase cfg k s) {x : Tid} :
    x ∈ (removeDelta t s.timeq).map Prod.fst
      ↔ if x = t then False else x ∈ s.timeq.map Prod.fst := by
  rw [map_fst_removeDelta, h.timeq_nodup.mem_erase_iff]
  by_cases hx : x = t
  · simp [hx]
  · simp [hx]

theorem KBase.wakeUp_sched (h : KBase cfg k s) (hp : (k.thread t).state = .pending) :
    SchedRep cfg (zWakeUp cfg k t) (insertReady t s.ring) (removeDelta t s.timeq) := by
  have hr : t ∉ s.ring := h.notMem_ring (by rw [hp]; exact fun hc => nomatch hc)
  refine zSchedule_sched (zCancelScheduledWakeUp_sched h.sched (h.timed t).symm) hr ?_
  intro hc
  have h1 := h.mem_removeDelta.mp hc
  rw [if_pos rfl] at h1
  exact h1

theorem KBase.wakeUp (h : KBase cfg k s) (hp : (k.thread t).state = .pending)
    (hu : Unqueued s.waitq (.handle t)) :
    KBase cfg (zWakeUp cfg k t)
      { s with ring := insertReady t s.ring, timeq := removeDelta t s.timeq } := by
  refine h.toReady hp (zWakeUp_thread cfg k t) rfl rfl (h.wakeUp_sched hp)
    (fun _ => h.mem_removeDelta) ?_ ?_ ?_
  · rw [zWakeUp_wait]
    exact h.wait
  · intro q x hx
    refine ⟨?_, hx⟩
    rintro rfl
    exact hu q hx
  · intro x _ hwx hx
    rw [zWakeUp_wait]
    exact h.clean x hwx hx

end WakeUp

section Unpend

variable {n : WNode Tid Qid Pid} {rest : List (WNode Tid Qid Pid)}

theorem KBase.unpend_nil (h : KBase cfg k s) (hq : s.waitq q = []) :
    (zUnpendFirstThread cfg k q).2 = none ∧ KBase cfg (zUnpendFirstThread cfg k q).1 s
      ∧ (zUnpendFirstThread cfg k q).1.thread = k.thread
      ∧ (zUnpendFirstThread cfg k q).1.current = k.current
      ∧ (zUnpendFirstThread cfg k q).1.pollfd = k.pollfd
      ∧ (∀ n, SelfLinked k.wait n → SelfLinked (zUnpendFirstThread cfg k q).1.wait n) := by
  obtain ⟨hnode, hnx, hpv⟩ := h.wait.get_nil hq
  have hk : zUnpendFirstThread cfg k q
      = ({ k with wait := (dlistGet k.wait (WNode.queue q : WNode Tid Qid Pid)).1 }, none) := by
    simp only [zUnpendFirstThread, hnode, if_true]
  have hlink : ∀ n, SelfLinked k.wait n → SelfLinked
      (dlistGet k.wait (WNode.queue q : WNode Tid Qid Pid)).1 n := by
    intro n hn
    exact ⟨by rw [hnx]; exact hn.1, by rw [hpv]; exact hn.2⟩
  rw [hk]
  refine ⟨rfl, ⟨h.sched.setWait _, h.wait.congr hnx hpv, h.ready, h.timed, h.wakeup,
    h.idle, h.waiting, ?_, h.flags⟩, rfl, rfl, rfl, hlink⟩
  intro x hw hx
  exact hlink _ (h.clean x hw hx)

theorem KBase.relink {wait' : WaitMem Tid Qid Pid}
    {waitq' : Qid → List (WNode Tid Qid Pid)} (h : KBase cfg k s)
    (hrep : WaitRep wait' waitq')
    (hsub : ∀ q t, .handle t ∈ waitq' q → .handle t ∈ s.waitq q)
    (hclean : ∀ t, (k.thread t).wakeupSched = true → Unqueued waitq' (.handle t) →
      SelfLinked wait' (.handle t)) :
    KBase cfg { k with wait := wait' } { s with waitq := waitq' } :=
  ⟨h.sched.setWait _, hrep, h.ready, h.timed, h.wakeup, h.idle,
    fun q t ht => h.waiting q t (hsub q t ht), hclean, h.flags⟩

theorem KBase.relink_head (h : KBase cfg k s) (hq : s.waitq q = n :: rest)
    (hu : Unqueued (update s.waitq q rest) (.handle t))
    (hn : ∀ x, n = .handle x → x = t) :
    KBase cfg { k with
          wait := dlistInit (dlistRemove k.wait n) (.handle t : WNode Tid Qid Pid) }
        { s with waitq := update s.waitq q rest }
      ∧ ∀ x, (x = t ∨ Unqueued s.waitq (.handle x) ∧ SelfLinked k.wait (.handle x)) →
          SelfLinked (dlistInit (dlistRemove k.wait n) (.handle t : WNode Tid Qid Pid))
            (.handle x) := by
  obtain ⟨-, hrep⟩ := h.wait.get_cons hq
  have hmem : n ∈ s.waitq q := by
    rw [hq]
    exact mem_cons_self
  have hnq : Unqueued s.waitq n → SelfLinked k.wait n := fun hc =>
    absurd hmem (hc q)
  obtain ⟨hrep', hself⟩ := hrep.init (n := .handle t) (fun _ hc => nomatch hc) hu
  have hsub : ∀ q' x, WNode.handle x ∈ update s.waitq q rest q' →
      WNode.handle x ∈ s.waitq q' := by
    intro q' x hx
    by_cases hqq : q' = q
    · subst hqq
      rw [update_self] at hx
      rw [hq]
      exact mem_cons_of_mem n hx
    · rw [update_of_ne hqq] at hx
      exact hx
  have hlinks : ∀ x, (x = t ∨ Unqueued s.waitq (.handle x) ∧ SelfLinked k.wait (.handle x)) →
      SelfLinked (dlistInit (dlistRemove k.wait n) (.handle t : WNode Tid Qid Pid))
        (.handle x) := by
    intro x hx
    by_cases hxt : x = t
    · subst hxt
      exact hself
    · obtain ⟨hux, hsx⟩ := hx.resolve_left hxt
      refine SelfLinked.init ?_ (fun hc => hxt (by injection hc))
      exact hsx.drop h.wait (fun _ hc => nomatch hc) hux hnq
  refine ⟨h.relink hrep' hsub ?_, hlinks⟩
  intro x hw hx
  by_cases hxt : x = t
  · exact hlinks x (Or.inl hxt)
  · -- another thread: it was in no queue before
    have hux : Unqueued s.waitq (.handle x) := by
      intro q' hq'
      by_cases hqq : q' = q
      · subst hqq
        rw [hq] at hq'
        rcases mem_cons.mp hq' with heq | hmem'
        · exact hxt (hn x heq.symm)
        · refine hx q' ?_
          rw [update_self]
          exact hmem'
      · refine hx q' ?_
        rw [update_of_ne hqq]
        exact hq'
    exact hlinks x (Or.inr ⟨hux, h.clean x hw hux⟩)

theorem KBase.unqueued_head (h : KBase cfg k s) (hq : s.waitq q = n :: rest) :
    Unqueued (update s.waitq q rest) n := h.wait.unqueued_head hq

omit [Threads Tid] [DecidableEq Pid] in
theorem Unqueued.update {waitq : Qid → List (WNode Tid Qid Pid)}
    {x : WNode Tid Qid Pid} (hx : Unqueued waitq x) (hq : waitq q = n :: rest) :
    Unqueued (update waitq q rest) x := by
  intro q' hq'
  refine hx q' ?_
  by_cases hqq : q' = q
  · subst hqq
    rw [update_self] at hq'
    rw [hq]
    exact mem_cons_of_mem n hq'
  · rw [update_of_ne hqq] at hq'
    exact hq'

theorem KBase.unpend_handle (h : KBase cfg k s) (hq : s.waitq q = .handle t :: rest) :
    (zUnpendFirstThread cfg k q).2 = some t ∧ KBase cfg (zUnpendFirstThread cfg k q).1
          { ring := insertReady t s.ring, timeq := removeDelta t s.timeq,
            waitq := update s.waitq q rest }
      ∧ (zUnpendFirstThread cfg k q).1.thread = update k.thread t (k.thread t).woken
      ∧ (zUnpendFirstThread cfg k q).1.current = k.current
      ∧ (zUnpendFirstThread cfg k q).1.pollfd = k.pollfd
      ∧ ∀ x, (x = t ∨ Unqueued s.waitq (.handle x) ∧ SelfLinked k.wait (.handle x)) →
          SelfLinked (zUnpendFirstThread cfg k q).1.wait (.handle x) := by
  have hget := (h.wait.get_cons hq).1
  have hp : (k.thread t).state = .pending := by
    refine h.waiting q t ?_
    rw [hq]
    exact mem_cons_self
  have hun := h.unqueued_head hq
  obtain ⟨hinv, hself⟩ := h.relink_head hq hun (by rintro x hx; injection hx with hx; exact hx.symm)
  have hk : zUnpendFirstThread cfg k q = (zWakeUp cfg { k with
      wait := dlistInit (dlistRemove k.wait (.handle t : WNode Tid Qid Pid))
        (.handle t : WNode Tid Qid Pid) } t, some t) := by
    simp only [zUnpendFirstThread, hget]
    rw [if_neg (fun hc => nomatch hc)]
  rw [hk]
  refine ⟨rfl, hinv.wakeUp hp hun, ?_, ?_, ?_, ?_⟩
  · rw [zWakeUp_thread]
  · rw [zWakeUp_current]
  · rw [zWakeUp_pollfd]
  · rw [zWakeUp_wait]
    exact hself

theorem KBase.unpend_poll {p : Pid} (h : KBase cfg k s) (hq : s.waitq q = .poll p :: rest)
    (hp : (k.thread (k.pollfd p).thread).state = .pending)
    (hu : Unqueued s.waitq (.handle (k.pollfd p).thread)) :
    (zUnpendFirstThread cfg k q).2 = none ∧ KBase cfg (zUnpendFirstThread cfg k q).1
          { ring := insertReady (k.pollfd p).thread s.ring,
            timeq := removeDelta (k.pollfd p).thread s.timeq,
            waitq := update s.waitq q rest }
      ∧ (zUnpendFirstThread cfg k q).1.thread = update k.thread (k.pollfd p).thread
            (k.thread (k.pollfd p).thread).woken
      ∧ (zUnpendFirstThread cfg k q).1.current = k.current
      ∧ (zUnpendFirstThread cfg k q).1.pollfd
          = update k.pollfd p { k.pollfd p with ready := true } := by
  have hget := (h.wait.get_cons hq).1
  have hun : Unqueued (update s.waitq q rest) (.handle (k.pollfd p).thread) := hu.update hq
  obtain ⟨hinv, -⟩ := h.relink_head hq hun (fun x hx => nomatch hx)
  have hk : zUnpendFirstThread cfg k q = (zWakeUp cfg { k with
      pollfd := update k.pollfd p { k.pollfd p with ready := true }
      wait := dlistInit (dlistRemove k.wait (.poll p : WNode Tid Qid Pid))
        (.handle (k.pollfd p).thread : WNode Tid Qid Pid) }
        (k.pollfd p).thread, none) := by
    simp only [zUnpendFirstThread, hget, update_self]
    rw [if_neg (fun hc => nomatch hc)]
  have hinv' : KBase cfg { k with
      pollfd := update k.pollfd p { k.pollfd p with ready := true }
      wait := dlistInit (dlistRemove k.wait (.poll p : WNode Tid Qid Pid))
        (.handle (k.pollfd p).thread : WNode Tid Qid Pid) }
      { s with waitq := update s.waitq q rest } :=
    ⟨hinv.sched.setPollfd _, hinv.wait, hinv.ready, hinv.timed, hinv.wakeup,
      hinv.idle, hinv.waiting, hinv.clean, hinv.flags⟩
  rw [hk]
  refine ⟨rfl, hinv'.wakeUp hp hun, ?_, ?_, ?_⟩
  · rw [zWakeUp_thread]
  · rw [zWakeUp_current]
  · rw [zWakeUp_pollfd]

end Unpend

section Expire

variable {rest : List (Tid × Nat)}

theorem zExpire_thread (k : Kernel Tid Qid Pid D) : (zExpire cfg k t).thread
    = update k.thread t (k.thread t).expired := by
  simp [zExpire, Kernel.modThread, Thread.expired]

theorem zExpire_wait (k : Kernel Tid Qid Pid D) : (zExpire cfg k t).wait
    = dlistRemove k.wait (.handle t : WNode Tid Qid Pid) := by
  simp [zExpire, Kernel.modThread]

theorem zExpire_current (k : Kernel Tid Qid Pid D) : (zExpire cfg k t).current = k.current := by
  simp [zExpire, Kernel.modThread]

theorem zExpire_pollfd (k : Kernel Tid Qid Pid D) : (zExpire cfg k t).pollfd = k.pollfd := by
  simp [zExpire, Kernel.modThread]

theorem mem_dropNode {waitq : Qid → List (WNode Tid Qid Pid)}
    {n x : WNode Tid Qid Pid} (hx : x ≠ n) :
    x ∈ dropNode waitq n q ↔ x ∈ waitq q := mem_erase_of_ne hx

theorem KBase.drop_handle (h : KBase cfg k s)
    (hn : Unqueued s.waitq (.handle t) → SelfLinked k.wait (.handle t)) :
    WaitRep (dlistRemove k.wait (.handle t : WNode Tid Qid Pid)) (dropNode s.waitq (.handle t))
      ∧ (∀ q x, .handle x ∈ dropNode s.waitq (.handle t) q → x ≠ t ∧ .handle x ∈ s.waitq q)
      ∧ ∀ x, x ≠ t → (k.thread x).wakeupSched = true →
          Unqueued (dropNode s.waitq (.handle t)) (.handle x) →
          SelfLinked (dlistRemove k.wait (.handle t : WNode Tid Qid Pid)) (.handle x) := by
  refine ⟨h.wait.drop hn, ?_, ?_⟩
  · intro q x hx
    refine ⟨?_, mem_of_mem_erase hx⟩
    rintro rfl
    exact (h.wait.nodup q).not_mem_erase hx
  · intro x hxt hwx hx
    have hne : (WNode.handle x : WNode Tid Qid Pid) ≠ .handle t := fun hc => hxt (by injection hc)
    have hux : Unqueued s.waitq (.handle x) := fun q hc =>
      hx q ((mem_dropNode hne).mpr hc)
    exact (h.clean x hwx hux).drop h.wait (fun _ hc => nomatch hc) hux hn

theorem KInv.expire (h : KInv cfg k s) (hq : s.timeq = (t, 0) :: rest) :
    KInv cfg (zExpire cfg (k.setTimeouts (tqueuePop k.timeouts).1) t)
      { ring := insertReady t s.ring, timeq := rest,
        waitq := dropNode s.waitq (.handle t) } := by
  have hsched := h.sched
  rw [hq] at hsched
  obtain ⟨-, hpop⟩ := tqueuePop_sched hsched
  have hw : (k.thread t).wakeupSched = true := by
    rw [← h.timed, hq]
    exact mem_cons_self
  have hp : (k.thread t).state = .pending := h.wakeup t hw
  have hr : t ∉ s.ring := h.notMem_ring (by rw [hp]; exact fun hc => nomatch hc)
  have hnd := h.timeq_nodup
  rw [hq] at hnd
  have htr : t ∉ rest.map Prod.fst := (nodup_cons.mp hnd).1
  have hwait : (zExpire cfg (k.setTimeouts (tqueuePop k.timeouts).1) t).wait
      = dlistRemove k.wait (.handle t : WNode Tid Qid Pid) := zExpire_wait _
  obtain ⟨hrep, hsub, hclean⟩ := h.drop_handle (h.clean t hw)
  rw [← hwait] at hrep hclean
  refine ⟨h.toReady hp (zExpire_thread _) rfl rfl ?_ ?_ hrep hsub hclean, ?_⟩
  · exact zSchedule_sched (((hpop.modThread t _).modThread t _).setWait _) hr htr
  · intro x
    by_cases hx : x = t
    · subst hx
      simp [htr]
    · rw [hq, if_neg hx, map_cons, mem_cons]
      simp [hx]
  · rw [zExpire_current]
    exact h.current_insertReady t

end Expire

end AvrtosKernel
