import Avrtos.KernelRelease

/-! # Switching threads

    Each function that switches threads keeps `KInv` and changes few records. -/

namespace AvrtosKernel

open Function List AvrtosDefines AvrtosDlist AvrtosTqueue Cells LinkedRing LinkedChain DeltaList

variable {Tid Qid Pid D : Type} [Threads Tid]
variable [DecidableEq Qid] [DecidableEq Pid]

variable {cfg : Config Tid Qid} {k : Kernel Tid Qid Pid D}
variable {s : Shape Tid Qid Pid} {t : Tid} {q : Qid}

section Pend

variable {wait' : WaitMem Tid Qid Pid} {waitq' : Qid → List (WNode Tid Qid Pid)}

def Thread.blocked (timed : Bool) (th : Thread D) : Thread D :=
  { th with
    state := .pending, timerExpired := false, pendCanceled := false,
    wakeupSched := timed }

def pendTimeq (cfg : Config Tid Qid) (c : Tid) (timeout : cfg.Timeout)
    (timeq : List (Tid × Nat)) : List (Tid × Nat) :=
  if timeout ≠ kForever cfg then insertDelta c timeout.toNat timeq else timeq

variable (cfg) in
omit [DecidableEq Qid] [DecidableEq Pid] in
theorem zSuspend_ready_thread (hs : (k.thread t).state ≠ .pending) :
    (zSuspend cfg k t).thread = k.thread ∧ (zSuspend cfg k t).current = k.current
      ∧ (zSuspend cfg k t).wait = k.wait ∧ (zSuspend cfg k t).pollfd = k.pollfd := by
  rw [zSuspend, if_neg hs]
  simp only
  split_ifs <;> exact ⟨rfl, rfl, rfl, rfl⟩

variable (cfg) in
omit [DecidableEq Qid] [DecidableEq Pid] in
theorem zScheduleWakeUp_thread (k : Kernel Tid Qid Pid D)
    (timeout : cfg.Timeout) :
    (zScheduleWakeUp cfg k timeout).thread = update k.thread k.current
        { k.thread k.current with
          wakeupSched := (k.thread k.current).wakeupSched
            || decide (timeout ≠ kForever cfg) }
      ∧ (zScheduleWakeUp cfg k timeout).current = k.current
      ∧ (zScheduleWakeUp cfg k timeout).wait = k.wait
      ∧ (zScheduleWakeUp cfg k timeout).pollfd = k.pollfd := by
  rw [zScheduleWakeUp]
  by_cases hf : timeout ≠ kForever cfg
  · rw [if_pos hf, decide_eq_true hf, Bool.or_true]
    exact ⟨rfl, rfl, rfl, rfl⟩
  · rw [if_neg hf, decide_eq_false hf, Bool.or_false]
    exact ⟨(update_eq_self_iff.mpr rfl).symm, rfl, rfl, rfl⟩

omit [DecidableEq Qid] [DecidableEq Pid] in
theorem zPendCurrent_sched {l : List Tid} {timeq : List (Tid × Nat)}
    (h : SchedRep cfg k (k.current :: l) timeq)
    (hs : (k.thread k.current).state = .ready) (timeout : cfg.Timeout) :
    SchedRep cfg (zPendCurrent cfg k timeout) (lastFirst l)
        (pendTimeq cfg k.current timeout timeq)
      ∧ (zPendCurrent cfg k timeout).current = (lastFirst l).headD cfg.idle := by
  have hnp : (k.thread k.current).state ≠ .pending := by
    rw [hs]
    exact fun hc => nomatch hc
  have htq := h.disjoint k.current mem_cons_self
  have hsus := zSuspend_first h hnp (Or.inl rfl)
  obtain ⟨-, hsc, -, -⟩ := zSuspend_ready_thread cfg hnp
  obtain ⟨-, hwc, -, -⟩ := zScheduleWakeUp_thread cfg (zSuspend cfg k k.current) timeout
  have hcl : k.current ∉ lastFirst l := by
    rw [mem_lastFirst]
    exact (nodup_cons.mp h.nodup).1
  have hwake : SchedRep cfg (zScheduleWakeUp cfg (zSuspend cfg k k.current) timeout)
      (lastFirst l) (pendTimeq cfg k.current timeout timeq) := by
    unfold pendTimeq
    by_cases hf : timeout ≠ kForever cfg
    · have h1 := zScheduleWakeUp_sched hsus timeout hf (by rw [hsc]; exact hcl)
        (by rw [hsc]; exact htq)
      rw [if_pos hf]
      rw [hsc] at h1
      exact h1
    · rw [if_neg hf, zScheduleWakeUp, if_neg hf]
      exact hsus
  -- the thread is PENDING when the scheduler runs, so the ring is not turned
  refine zScheduler_switch (hwake.modThread _ _) ?_
  show ((zSetThreadState (zScheduleWakeUp cfg (zSuspend cfg k k.current) timeout) _
    .pending).thread _).state ≠ .ready
  simp [zSetThreadState, Kernel.modThread]

omit [DecidableEq Qid] [DecidableEq Pid] in
theorem zPendCurrent_spec {l : List Tid} {timeq : List (Tid × Nat)}
    (h : SchedRep cfg k (k.current :: l) timeq)
    (hs : (k.thread k.current).state = .ready)
    (hw : (k.thread k.current).wakeupSched = false) (timeout : cfg.Timeout) :
    (zPendCurrent cfg k timeout).thread = update k.thread k.current
        ((k.thread k.current).blocked (decide (timeout ≠ kForever cfg)))
      ∧ (zPendCurrent cfg k timeout).wait = k.wait
      ∧ (zPendCurrent cfg k timeout).pollfd = k.pollfd
      ∧ SchedRep cfg (zPendCurrent cfg k timeout) (lastFirst l)
          (pendTimeq cfg k.current timeout timeq)
      ∧ (zPendCurrent cfg k timeout).current = (lastFirst l).headD cfg.idle := by
  have hnp : (k.thread k.current).state ≠ .pending := by
    rw [hs]
    exact fun hc => nomatch hc
  obtain ⟨hsch, hrun⟩ := zPendCurrent_sched h hs timeout
  obtain ⟨hst, hsc, hsw, hsp⟩ := zSuspend_ready_thread cfg hnp
  obtain ⟨hwt, hwc, hww, hwp⟩ := zScheduleWakeUp_thread cfg (zSuspend cfg k k.current) timeout
  have hk : zPendCurrent cfg k timeout = zScheduler (zSetThreadState
      (zScheduleWakeUp cfg (zSuspend cfg k k.current) timeout) k.current
      .pending) := by
    simp only [zPendCurrent, hwc, hsc]
  refine ⟨?_, ?_, ?_, hsch, hrun⟩
  · have hcur : (zSetThreadState (zScheduleWakeUp cfg (zSuspend cfg k k.current) timeout)
        k.current .pending).current = k.current := hwc.trans hsc
    rw [hk, zScheduler_thread, hcur]
    simp only [zSetThreadState, Kernel.modThread, update_self,
      update_idem, hwt, hst, hsc, Thread.clearFlags, Thread.blocked, hw,
      Bool.false_or]
  · rw [hk, zScheduler_wait]
    exact hww.trans hsw
  · rw [hk, zScheduler_pollfd]
    exact hwp.trans hsp

omit [DecidableEq Qid] in
theorem mem_pendTimeq {c x : Tid} {timeout : cfg.Timeout}
    {timeq : List (Tid × Nat)} (hc : c ∉ timeq.map Prod.fst) :
    x ∈ (pendTimeq cfg c timeout timeq).map Prod.fst ↔
      if x = c then decide (timeout ≠ kForever cfg) = true
      else x ∈ timeq.map Prod.fst := by
  unfold pendTimeq
  by_cases hf : timeout ≠ kForever cfg
  · rw [if_pos hf, (insertDelta_perm c timeq timeout.toNat).mem_iff, mem_cons]
    by_cases hx : x = c
    · simp [hx, hf]
    · simp [hx]
  · rw [if_neg hf]
    by_cases hx : x = c
    · subst hx
      simp [hc, hf]
    · simp [hx]

theorem KInv.pend (h : KInv cfg k s) (hc : k.current ≠ cfg.idle)
    (timeout : cfg.Timeout) (hrep : WaitRep wait' waitq')
    (hqueue : ∀ q x, .handle x ∈ waitq' q → x ≠ k.current → .handle x ∈ s.waitq q)
    (hclean : ∀ x, x ≠ k.current → (k.thread x).wakeupSched = true →
      Unqueued waitq' (.handle x) → SelfLinked wait' (.handle x))
    (hcur : timeout ≠ kForever cfg → Unqueued waitq' (.handle k.current) →
      SelfLinked wait' (.handle k.current)) :
    KInv cfg (zPendCurrent cfg { k with wait := wait' } timeout)
        { ring := lastFirst s.ring.tail,
          timeq := pendTimeq cfg k.current timeout s.timeq, waitq := waitq' }
      ∧ (zPendCurrent cfg { k with wait := wait' } timeout).thread
          = update k.thread k.current
            ((k.thread k.current).blocked (decide (timeout ≠ kForever cfg)))
      ∧ (zPendCurrent cfg { k with wait := wait' } timeout).wait = wait'
      ∧ (zPendCurrent cfg { k with wait := wait' } timeout).pollfd = k.pollfd := by
  obtain ⟨hs, l, hl⟩ := h.current_ready hc
  have hnp : (k.thread k.current).state ≠ .pending := by
    rw [hs]
    exact fun hc => nomatch hc
  obtain ⟨hw, htq⟩ := h.not_timed hnp
  have hsched := h.sched
  rw [hl] at hsched ⊢
  have hcl : k.current ∉ l := (nodup_cons.mp hsched.nodup).1
  obtain ⟨hthread, hwait, hpoll, hsch, hrun⟩ := zPendCurrent_spec
    (hsched.setWait wait') hs hw timeout
  refine ⟨⟨h.toKBase.change hthread hsch ?_ ?_ ?_ ?_ ?_ ?_ ?_ ?_, ?_⟩, hthread, hwait, hpoll⟩
  · rw [hwait]
    exact hrep
  · intro x
    rw [tail_cons, mem_lastFirst, hl]
    by_cases hx : x = k.current
    · subst hx
      simp [hcl, Thread.blocked]
    · simp [hx]
  · intro x
    rw [mem_pendTimeq htq]
    rfl
  · intro _
    rfl
  · exact ⟨fun hc => (nomatch hc), fun hc' => absurd hc' hc⟩
  · intro q x hx
    by_cases hxc : x = k.current
    · rw [if_pos hxc]
      rfl
    · rw [if_neg hxc]
      exact hqueue q x hx hxc
  · intro x hwx hx
    rw [hwait]
    by_cases hxc : x = k.current
    · subst hxc
      rw [if_pos rfl] at hwx
      exact hcur (of_decide_eq_true hwx) hx
    · rw [if_neg hxc] at hwx
      exact hclean x hxc hwx hx
  · intro _
    exact ⟨rfl, rfl⟩
  · rw [hrun, tail_cons]
    cases hlf : lastFirst l with
    | nil => exact Or.inl rfl
    | cons a l' => exact Or.inr rfl

theorem KInv.pendOn (h : KInv cfg k s) (hc : k.current ≠ cfg.idle) (q : Qid)
    (timeout : cfg.Timeout) (hne : timeout ≠ kNoWait cfg) :
    (zPendCurrentOn cfg k (some q) timeout).2 = none
      ∧ KInv cfg (zPendCurrentOn cfg k (some q) timeout).1
        { ring := lastFirst s.ring.tail,
          timeq := pendTimeq cfg k.current timeout s.timeq,
          waitq := update s.waitq q (s.waitq q ++ [.handle k.current]) }
      ∧ (zPendCurrentOn cfg k (some q) timeout).1.thread = update k.thread k.current
            ((k.thread k.current).blocked (decide (timeout ≠ kForever cfg)))
      ∧ (zPendCurrentOn cfg k (some q) timeout).1.pollfd = k.pollfd := by
  have hnp : (k.thread k.current).state ≠ .pending := by
    rw [(h.current_ready hc).1]
    exact fun hc => nomatch hc
  have hu := h.unqueued hnp
  have hnode : ∀ q', (WNode.handle k.current : WNode Tid Qid Pid) ≠ .queue q' :=
    fun _ hc => nomatch hc
  have hrep := h.wait.append q hnode hu
  have hk : zPendCurrentOn cfg k (some q) timeout = (zPendCurrent cfg { k with
      wait := dlistAppend k.wait (.queue q : WNode Tid Qid Pid)
        (.handle k.current) } timeout, none) := by
    rw [zPendCurrentOn, if_neg hne]
  have hqueue : ∀ q' x, WNode.handle x ∈
      update s.waitq q (s.waitq q ++ [.handle k.current]) q' →
      x ≠ k.current → .handle x ∈ s.waitq q' := by
    intro q' x hx hxc
    by_cases hqq : q' = q
    · subst hqq
      rw [update_self] at hx
      rcases mem_append.mp hx with hmem | hmem
      · exact hmem
      · rw [mem_singleton] at hmem
        injection hmem with hmem
        exact absurd hmem hxc
    · rw [update_of_ne hqq] at hx
      exact hx
  have hclean : ∀ x, x ≠ k.current → (k.thread x).wakeupSched = true →
      Unqueued (update s.waitq q (s.waitq q ++ [.handle k.current]))
        (.handle x) →
      SelfLinked (dlistAppend k.wait (.queue q : WNode Tid Qid Pid)
        (.handle k.current)) (.handle x) := by
    intro x hxc hwx hx
    have hux : Unqueued s.waitq (.handle x) := by
      intro q' hq'
      refine hx q' ?_
      by_cases hqq : q' = q
      · subst hqq
        rw [update_self]
        exact mem_append.mpr (Or.inl hq')
      · rw [update_of_ne hqq]
        exact hq'
    exact (h.clean x hwx hux).append h.wait (fun _ hc => nomatch hc) hux
      (fun hc => hxc (by injection hc)) q
  have hcur : timeout ≠ kForever cfg →
      Unqueued (update s.waitq q (s.waitq q ++ [.handle k.current]))
        (.handle k.current) →
      SelfLinked (dlistAppend k.wait (.queue q : WNode Tid Qid Pid)
        (.handle k.current)) (.handle k.current) := by
    intro _ hx
    refine absurd ?_ (hx q)
    rw [update_self]
    exact mem_append.mpr (Or.inr (mem_singleton.mpr rfl))
  obtain ⟨hinv, hthread, -, hpoll⟩ := h.pend hc timeout hrep hqueue hclean hcur
  rw [hk]
  exact ⟨rfl, hinv, hthread, hpoll⟩

theorem KInv.sleep (h : KInv cfg k s) (hc : k.current ≠ cfg.idle)
    (timeout : cfg.Timeout)
    (hself : timeout ≠ kForever cfg → SelfLinked k.wait (.handle k.current)) :
    KInv cfg (kSleep cfg k timeout)
        { s with
          ring := lastFirst s.ring.tail,
          timeq := pendTimeq cfg k.current timeout s.timeq }
      ∧ (kSleep cfg k timeout).thread = update k.thread k.current
          ((k.thread k.current).blocked (decide (timeout ≠ kForever cfg)))
      ∧ (kSleep cfg k timeout).wait = k.wait
      ∧ (kSleep cfg k timeout).pollfd = k.pollfd :=
  h.pend hc timeout h.wait (fun _ _ hx _ => hx)
    (fun x _ hwx hx => h.clean x hwx hx) (fun hf _ => hself hf)

end Pend

section Yield

theorem KBase.scheduler {ring : List Tid} (h : KBase cfg k s)
    (hsched : SchedRep cfg (zScheduler k) ring s.timeq)
    (hmem : ∀ x, x ∈ ring ↔ x ∈ s.ring)
    (hcur : (zScheduler k).current = (zScheduler k).runQueue) :
    KInv cfg (zScheduler k) { s with ring := ring } := by
  have hsame : ∀ x, ((zScheduler k).thread x).state = (k.thread x).state
      ∧ ((zScheduler k).thread x).wakeupSched = (k.thread x).wakeupSched := by
    intro x
    rw [zScheduler_thread, update_apply]
    by_cases hx : x = k.current
    · rw [if_pos hx, hx]
      exact ⟨rfl, rfl⟩
    · rw [if_neg hx]
      exact ⟨rfl, rfl⟩
  refine ⟨⟨hsched, ?_, ?_, ?_, ?_, ?_, ?_, ?_, ?_⟩, ?_⟩
  · rw [zScheduler_wait]
    exact h.wait
  · intro x
    rw [(hsame x).1, ← h.ready]
    exact hmem x
  · intro x
    rw [(hsame x).2]
    exact h.timed x
  · intro x
    rw [(hsame x).1, (hsame x).2]
    exact h.wakeup x
  · intro x
    rw [(hsame x).1]
    exact h.idle x
  · intro q x
    rw [(hsame x).1]
    exact h.waiting q x
  · intro x
    rw [(hsame x).2, zScheduler_wait]
    exact h.clean x
  · intro x hx
    rw [(hsame x).1] at hx
    rw [zScheduler_thread, update_apply]
    by_cases hxc : x = k.current
    · rw [if_pos hxc]
      exact ⟨rfl, rfl⟩
    · rw [if_neg hxc]
      exact h.flags x hx
  · rw [hcur, hsched.runQueue]
    cases ring with
    | nil => exact Or.inl rfl
    | cons a l => exact Or.inr rfl

theorem KBase.switch (h : KBase cfg k s)
    (hs : (k.thread k.current).state ≠ .ready) : KInv cfg (zScheduler k) s := by
  have h1 := zScheduler_sched h.sched (fun hc => absurd hc hs)
  rw [if_neg hs] at h1
  exact h.scheduler h1.1 (fun _ => Iff.rfl) h1.2

theorem KInv.yield (h : KInv cfg k s) :
    KInv cfg (zScheduler k) { s with
      ring := if k.current = cfg.idle then s.ring else s.ring.rotate 1 } := by
  by_cases hc : k.current = cfg.idle
  · have hs : (k.thread k.current).state ≠ .ready := by
      rw [(h.idle k.current).mpr hc]
      exact fun hc => nomatch hc
    rw [if_pos hc]
    exact h.toKBase.switch hs
  · obtain ⟨hs, l, hl⟩ := h.current_ready hc
    have h1 := zScheduler_sched h.sched (fun _ => by
      rw [hl]
      exact cons_ne_nil _ _)
    rw [if_pos hs] at h1
    rw [if_neg hc]
    exact h.toKBase.scheduler h1.1 (fun _ => mem_rotate) h1.2

end Yield

section Start

def Thread.started (th : Thread D) : Thread D := { th with state := .ready }

theorem KInv.start (h : KInv cfg k s) (ht : (k.thread t).state = .stopped) :
    KInv cfg (kThreadStart cfg k t).1 { s with ring := insertReady t s.ring }
      ∧ (kThreadStart cfg k t).1.thread = update k.thread t (k.thread t).started
      ∧ (kThreadStart cfg k t).1.wait = k.wait
      ∧ (kThreadStart cfg k t).1.current = k.current
      ∧ (kThreadStart cfg k t).2 = 0 := by
  have hk : kThreadStart cfg k t = (zSchedule cfg k t, 0) := by
    rw [kThreadStart, if_neg (not_not_intro ht)]
  have hr : t ∉ s.ring := h.notMem_ring (by rw [ht]; exact fun hc => nomatch hc)
  have hidle : t ≠ cfg.idle := h.not_idle (by rw [ht]; exact fun hc => nomatch hc)
  have hnp : (k.thread t).state ≠ .pending := by
    rw [ht]
    exact fun hc => nomatch hc
  obtain ⟨hw, htq⟩ := h.not_timed hnp
  rw [hk]
  refine ⟨⟨h.toKBase.change (zSchedule_thread cfg k t) (zSchedule_sched h.sched hr htq)
    ?_ ?_ ?_ ?_ ?_ ?_ ?_ ?_, ?_⟩, zSchedule_thread cfg k t, zSchedule_wait cfg k t,
    zSchedule_current cfg k t, rfl⟩
  · rw [zSchedule_wait]
    exact h.wait
  · intro x
    rw [mem_insertReady_iff]
    simp
  · intro x
    by_cases hx : x = t
    · subst hx
      simp only [if_true, hw]
      exact ⟨fun hc => absurd hc htq, fun hc => nomatch hc⟩
    · rw [if_neg hx]
  · intro hc
    rw [hw] at hc
    exact nomatch hc
  · exact ⟨fun hc => (nomatch hc), fun hc => absurd hc hidle⟩
  · intro q x hx
    by_cases hxt : x = t
    · subst hxt
      exact absurd hx (h.unqueued hnp q)
    · rw [if_neg hxt]
      exact hx
  · intro x hwx hx
    rw [zSchedule_wait]
    by_cases hxt : x = t
    · rw [if_pos hxt, hw] at hwx
      exact nomatch hwx
    · rw [if_neg hxt] at hwx
      exact h.clean x hwx hx
  · exact fun hc => nomatch hc
  · rw [zSchedule_current]
    exact h.current_insertReady t

end Start

section Abort

def Thread.stop (th : Thread D) : Thread D :=
  { th with state := .stopped, wakeupSched := false }

def Suspendable (cfg : Config Tid Qid) (k : Kernel Tid Qid Pid D) (t : Tid) : Prop :=
  k.current = cfg.idle → t = k.runQueue → k.readyCount = 1
deriving Decidable

private theorem suspend_ready (h : KInv cfg k s) (hs : (k.thread t).state = .ready)
    (hc : Suspendable cfg k t) :
    ∃ ring, SchedRep cfg (zSuspend cfg k t) ring s.timeq ∧ (∀ x, x ∈ ring ↔ x ≠ t ∧ x ∈ s.ring)
      ∧ (t ≠ k.current → k.current = cfg.idle ∨ ring.head? = some k.current) := by
  have hnp : (k.thread t).state ≠ .pending := by
    rw [hs]
    exact fun hc => nomatch hc
  have hmem := (h.ready t).mpr hs
  obtain ⟨a, l, hal⟩ := exists_cons_of_ne_nil (ne_nil_of_mem hmem)
  have hsched := h.sched
  have hcur := h.current
  rw [hal] at hsched hmem hcur
  have hnd := nodup_cons.mp hsched.nodup
  by_cases hta : t = a
  · -- the first thread of the ring
    subst hta
    have hone : t = k.current ∨ l = [] := by
      by_cases htc : t = k.current
      · exact Or.inl htc
      · have hidle : k.current = cfg.idle := by
          refine hcur.resolve_right ?_
          intro hc
          injection hc with hc
          exact htc hc
        have h1 := hc hidle hsched.runQueue.symm
        rw [hsched.count, length_cons] at h1
        exact Or.inr (length_eq_zero_iff.mp (by omega))
    refine ⟨lastFirst l, zSuspend_first hsched hnp hone, ?_, ?_⟩
    · intro x
      rw [mem_lastFirst, hal, mem_cons]
      refine ⟨fun hx => ⟨fun hxt => hnd.1 (hxt ▸ hx), Or.inr hx⟩, ?_⟩
      rintro ⟨hxt, hx⟩
      exact hx.resolve_left hxt
    · intro htc
      refine Or.inl (hcur.resolve_right ?_)
      intro hc
      injection hc with hc
      exact htc hc
  · have htl : t ∈ l := (mem_cons.mp hmem).resolve_left hta
    have htc : t ≠ k.current := by
      rintro rfl
      rcases hcur with hidle | hhead
      · rw [(h.idle _).mpr hidle] at hs
        exact nomatch hs
      · injection hhead with hhead
        exact hta hhead.symm
    refine ⟨a :: l.erase t, zSuspend_other hsched hnp htl htc, ?_, fun _ => hcur⟩
    intro x
    rw [hal, mem_cons, mem_cons, hnd.2.mem_erase_iff]
    refine ⟨?_, ?_⟩
    · rintro (hx | hx)
      · exact ⟨fun hc => hta (hc ▸ hx), Or.inl hx⟩
      · exact ⟨hx.1, Or.inr hx.2⟩
    · rintro ⟨hxt, hx⟩
      exact hx.imp id fun hx => ⟨hxt, hx⟩

theorem KInv.stop (h : KInv cfg k s) (hi : (k.thread t).state ≠ .idle)
    (hs : (k.thread t).state ≠ .stopped) (hu : Unqueued s.waitq (.handle t))
    (hc : Suspendable cfg k t) :
    ∃ ring, KBase cfg (zSetThreadState (zSuspend cfg k t) t .stopped)
        ⟨ring, removeDelta t s.timeq, s.waitq⟩
      ∧ (t ≠ k.current → k.current = cfg.idle ∨ ring.head? = some k.current)
      ∧ (zSetThreadState (zSuspend cfg k t) t .stopped).thread
          = update k.thread t (k.thread t).stop
      ∧ (zSetThreadState (zSuspend cfg k t) t .stopped).wait = k.wait
      ∧ (zSetThreadState (zSuspend cfg k t) t .stopped).current = k.current := by
  have hrec : ∃ ring, SchedRep cfg (zSuspend cfg k t) ring (removeDelta t s.timeq)
      ∧ (∀ x, x ∈ ring ↔ x ≠ t ∧ x ∈ s.ring)
      ∧ (t ≠ k.current → k.current = cfg.idle ∨ ring.head? = some k.current)
      ∧ (zSuspend cfg k t).thread = update k.thread t
          { k.thread t with wakeupSched := false }
      ∧ (zSuspend cfg k t).wait = k.wait ∧ (zSuspend cfg k t).current = k.current := by
    cases hst : (k.thread t).state with
    | stopped => exact absurd hst hs
    | idle => exact absurd hst hi
    | pending =>
      have hk : zSuspend cfg k t = zCancelScheduledWakeUp cfg k t := by
        rw [zSuspend, if_pos hst]
      have htr : t ∉ s.ring := h.notMem_ring (by rw [hst]; exact ThreadState.noConfusion)
      rw [hk]
      refine ⟨s.ring, zCancelScheduledWakeUp_sched h.sched (h.timed t).symm, ?_,
        fun _ => h.current, zCancelScheduledWakeUp_thread cfg k t,
        zCancelScheduledWakeUp_wait cfg k t, zCancelScheduledWakeUp_current cfg k t⟩
      intro x
      exact ⟨fun hx => ⟨fun hxt => htr (hxt ▸ hx), hx⟩, fun hx => hx.2⟩
    | ready =>
      have hnp : (k.thread t).state ≠ .pending := by
        rw [hst]
        exact ThreadState.noConfusion
      obtain ⟨ring, hsched, hmem, hcur⟩ := suspend_ready h hst hc
      obtain ⟨hthread, hcu, hwait, -⟩ := zSuspend_ready_thread cfg hnp
      obtain ⟨hw, htq⟩ := h.not_timed hnp
      have hsame : ({ k.thread t with wakeupSched := false } : Thread D)
          = k.thread t := by
        rw [← hw]
      rw [removeDelta_of_notMem htq, hsame, update_eq_self]
      exact ⟨ring, hsched, hmem, hcur, hthread, hwait, hcu⟩
  obtain ⟨ring, hsched, hmem, hcur, hthread, hwait, hcu⟩ := hrec
  have hth : (zSetThreadState (zSuspend cfg k t) t .stopped).thread
      = update k.thread t (k.thread t).stop := by
    simp only [zSetThreadState, Kernel.modThread, hthread, update_self,
      update_idem]
    rfl
  refine ⟨ring, h.toKBase.change hth (hsched.modThread t _) ?_ ?_ ?_ ?_ ?_ ?_ ?_ ?_, hcur,
    hth, hwait, hcu⟩
  · show WaitRep (zSuspend cfg k t).wait s.waitq
    rw [hwait]
    exact h.wait
  · intro x
    rw [hmem]
    by_cases hx : x = t
    · rw [if_pos hx]
      exact ⟨fun hc => absurd hx hc.1, ThreadState.noConfusion⟩
    · rw [if_neg hx]
      exact ⟨fun hc => hc.2, fun hc => ⟨hx, hc⟩⟩
  · intro x
    rw [h.mem_removeDelta]
    by_cases hx : x = t
    · rw [if_pos hx, if_pos hx]
      exact ⟨fun hc => hc.elim, Bool.noConfusion⟩
    · rw [if_neg hx, if_neg hx]
  · exact Bool.noConfusion
  · exact ⟨ThreadState.noConfusion, fun hc => absurd ((h.idle t).mpr hc) hi⟩
  · intro q x hx
    by_cases hxt : x = t
    · subst hxt
      exact absurd hx (hu q)
    · rw [if_neg hxt]
      exact hx
  · intro x hwx hx
    show SelfLinked (zSuspend cfg k t).wait (.handle x)
    rw [hwait]
    by_cases hxt : x = t
    · rw [if_pos hxt] at hwx
      cases hwx
    · rw [if_neg hxt] at hwx
      exact h.clean x hwx hx
  · exact ThreadState.noConfusion

def Joiners (cfg : Config Tid Qid) (s : Shape Tid Qid Pid) (t : Tid)
    (joiners : List Tid) : Prop :=
  match cfg.joinWaitqueue with
  | some join => s.waitq (join t) = joiners.map .handle
  | none => joiners = []

def afterJoin (cfg : Config Tid Qid) (waitq : Qid → List (WNode Tid Qid Pid))
    (t : Tid) : Qid → List (WNode Tid Qid Pid) :=
  match cfg.joinWaitqueue with
  | some join => update waitq (join t) []
  | none => waitq

private theorem join_all (h : KBase cfg k s) {joiners : List Tid}
    (hj : Joiners cfg s t joiners) :
    ∃ ring timeq k', (match cfg.joinWaitqueue with
        | some join => (zUnpendAll cfg k (join t)).1
        | none => k) = k'
      ∧ KBase cfg k' ⟨ring, timeq, afterJoin cfg s.waitq t⟩
      ∧ (∀ x, k'.thread x = if x ∈ joiners then (k.thread x).woken else k.thread x)
      ∧ k'.current = k.current
      ∧ (∀ a, s.ring.head? = some a → ring.head? = some a)
      ∧ ∀ x, (x ∈ joiners ∨ Unqueued s.waitq (.handle x)
          ∧ SelfLinked k.wait (.handle x)) → SelfLinked k'.wait (.handle x) := by
  unfold Joiners at hj
  unfold afterJoin
  cases hcj : cfg.joinWaitqueue with
  | none =>
    rw [hcj] at hj
    refine ⟨s.ring, s.timeq, k, rfl, h, ?_, rfl, fun _ ha => ha, ?_⟩
    · intro x
      rw [hj]
      simp
    · rintro x (hx | hx)
      · rw [hj] at hx
        exact nomatch hx
      · exact hx.2
  | some join =>
    rw [hcj] at hj
    obtain ⟨ring, hinv, hthread, hcur, hhead, hlink, -⟩ :=
      h.unpendAllLoop marks_id 0 (h.wait.length_le hj) hj
    exact ⟨ring, _, _, rfl, hinv, hthread, hcur, hhead, hlink⟩

omit [DecidableEq Qid] [DecidableEq Pid] in
theorem zScheduler_current (k : Kernel Tid Qid Pid D) :
    (zScheduler k).current = (zScheduler k).runQueue := by
  by_cases h : (k.thread k.current).state = .ready
  · rw [zScheduler_of_ready h]
  · rw [zScheduler_of_not_ready h]
    rfl

theorem KInv.abort (h : KInv cfg k s) (hi : (k.thread t).state ≠ .idle)
    (hs : (k.thread t).state ≠ .stopped) (hu : Unqueued s.waitq (.handle t))
    (hc : Suspendable cfg k t) {joiners : List Tid} (hj : Joiners cfg s t joiners) :
    ∃ ring timeq, KInv cfg (kThreadAbort cfg k t).1
        ⟨ring, timeq, afterJoin cfg s.waitq t⟩
      ∧ (kThreadAbort cfg k t).2 = 0
      ∧ (∀ x, (kThreadAbort cfg k t).1.thread x =
          if x = t then
            (if t = k.current then (k.thread t).stop.clearFlags else (k.thread t).stop)
          else if x ∈ joiners then (k.thread x).woken else k.thread x)
      ∧ (kThreadAbort cfg k t).1.current
          = (if t = k.current then (kThreadAbort cfg k t).1.runQueue else k.current)
      ∧ ∀ x, (x ∈ joiners ∨ Unqueued s.waitq (.handle x) ∧ SelfLinked k.wait (.handle x)) →
          SelfLinked (kThreadAbort cfg k t).1.wait (.handle x) := by
  obtain ⟨ring, hinv, hcur, hthread, hwait, hcu⟩ := h.stop hi hs hu hc
  obtain ⟨ring', timeq', k', hk', hinv', hthread', hcu', hhead, hlink⟩ := join_all hinv hj
  have htj : t ∉ joiners := by
    intro hmem
    unfold Joiners at hj
    cases hcj : cfg.joinWaitqueue with
    | none =>
      rw [hcj] at hj
      rw [hj] at hmem
      exact nomatch hmem
    | some join =>
      rw [hcj] at hj
      refine hu (join t) ?_
      rw [hj]
      exact mem_map_of_mem hmem
  have hth : ∀ x, k'.thread x = if x = t then (k.thread t).stop
      else if x ∈ joiners then (k.thread x).woken else k.thread x := by
    intro x
    rw [hthread' x, hthread, update_apply]
    by_cases hx : x = t
    · subst hx
      rw [if_neg htj, if_pos rfl, if_pos rfl]
    · rw [if_neg hx, if_neg hx]
  have hk : kThreadAbort cfg k t = if t = k'.current then (zScheduler k', 0)
      else (k', 0) := by
    rw [← hk']
    refine (if_neg hs).trans ?_
    cases cfg.joinWaitqueue with
    | none => rfl
    | some join => rfl
  rw [hk, hcu'.trans hcu]
  rw [hwait] at hlink
  by_cases htc : t = k.current
  · -- the thread stops itself
    have hcur' : k'.current = t := (hcu'.trans hcu).trans htc.symm
    have hstop : (k'.thread k'.current).state ≠ .ready := by
      rw [hcur', hth, if_pos rfl]
      exact fun hc => nomatch hc
    simp only [if_pos htc]
    refine ⟨ring', timeq', hinv'.switch hstop, trivial, ?_, zScheduler_current k', ?_⟩
    · intro x
      rw [zScheduler_thread, hcur', update_apply, hth, if_pos rfl]
      by_cases hx : x = t
      · rw [if_pos hx, if_pos hx]
      · rw [if_neg hx, if_neg hx, hth, if_neg hx]
    · intro x hx
      rw [zScheduler_wait]
      exact hlink x hx
  · simp only [if_neg htc]
    refine ⟨ring', timeq', ⟨hinv', ?_⟩, trivial, hth, hcu'.trans hcu, hlink⟩
    rw [hcu', hcu]
    exact (hcur htc).imp_right fun hc => hhead _ hc

end Abort

end AvrtosKernel
