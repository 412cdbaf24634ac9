import Avrtos.WaitQueue

/-! # The run queue and the timeouts queue as lists

    `SchedRep` reads run queue and timeouts as lists, and the functions act on the lists. -/

namespace AvrtosKernel

open List AvrtosDefines AvrtosDlist AvrtosTqueue Cells LinkedRing LinkedChain DeltaList

variable {Tid Qid Pid D : Type} [Threads Tid]

structure SchedRep (cfg : Config Tid Qid) (k : Kernel Tid Qid Pid D)
    (ring : List Tid) (timeq : List (Tid × Nat)) : Prop where
  ringed : ring ≠ [] → Ring (next k.tie) (prev k.tie) ring
  runQueue : k.runQueue = ring.headD cfg.idle
  count : k.readyCount = ring.length
  timeouts : Rep k.timeouts timeq
  span_lt : span timeq < 2 ^ cfg.deltaBits
  disjoint : ∀ t ∈ ring, t ∉ timeq.map Prod.fst
  fault : k.fault = false

def insertReady (t : Tid) : List Tid → List Tid
  | [] => [t]
  | h :: l => h :: t :: l

def lastFirst (l : List Tid) : List Tid := l.rotate (l.length - 1)

omit [Threads Tid] in
theorem lastFirst_append (l : List Tid) (z : Tid) : lastFirst (l ++ [z]) = z :: l := by
  have hlen : (l ++ [z]).length - 1 = l.length := by simp
  rw [lastFirst, hlen, rotate_append_length_eq]
  rfl

omit [Threads Tid] in
@[simp] theorem mem_lastFirst {t : Tid} {l : List Tid} : t ∈ lastFirst l ↔ t ∈ l := mem_rotate

omit [Threads Tid] in
@[simp] theorem mem_insertReady {t x : Tid} {l : List Tid} :
    x ∈ insertReady t l ↔ x = t ∨ x ∈ l := by
  cases l with
  | nil => simp [insertReady]
  | cons h l =>
      simp only [insertReady, mem_cons]
      tauto

section Rep

variable {cfg : Config Tid Qid} {k : Kernel Tid Qid Pid D}
variable {ring l : List Tid} {timeq : List (Tid × Nat)} {t : Tid}

theorem SchedRep.nodup (h : SchedRep cfg k ring timeq) : ring.Nodup := by
  cases ring with
  | nil => exact nodup_nil
  | cons a l => exact (h.ringed (cons_ne_nil a l)).nodup

theorem length_lt_of_nodup (cfg : Config Tid Qid) (h : l.Nodup) : l.length < 2 ^ cfg.readyBits :=
  Nat.lt_of_le_of_lt h.length_le_card cfg.threads_lt

theorem SchedRep.timeq_length_le (h : SchedRep cfg k ring timeq) :
    timeq.length ≤ Fintype.card Tid := by
  have h1 := h.timeouts.chain.nodup.length_le_card
  rw [length_map] at h1
  exact h1

theorem SchedRep.modThread (h : SchedRep cfg k ring timeq) (t : Tid)
    (f : Thread D → Thread D) : SchedRep cfg (k.modThread t f) ring timeq :=
  ⟨h.ringed, h.runQueue, h.count, h.timeouts, h.span_lt, h.disjoint, h.fault⟩

theorem SchedRep.setWait (h : SchedRep cfg k ring timeq)
    (wait : WNode Tid Qid Pid → DNode (WNode Tid Qid Pid)) :
    SchedRep cfg { k with wait := wait } ring timeq :=
  ⟨h.ringed, h.runQueue, h.count, h.timeouts, h.span_lt, h.disjoint, h.fault⟩

theorem SchedRep.setPollfd (h : SchedRep cfg k ring timeq) (pollfd : Pid → Pollfd Tid) :
    SchedRep cfg { k with pollfd := pollfd } ring timeq :=
  ⟨h.ringed, h.runQueue, h.count, h.timeouts, h.span_lt, h.disjoint, h.fault⟩

theorem zSchedule_sched (h : SchedRep cfg k ring timeq) (hr : t ∉ ring)
    (ht : t ∉ timeq.map Prod.fst) :
    SchedRep cfg (zSchedule cfg k t) (insertReady t ring) timeq := by
  have hrun := h.runQueue
  have hcnt := h.count
  cases ring with
  | nil =>
    have h0 : k.readyCount = 0 := hcnt
    rw [zSchedule_of_zero h0]
    refine ⟨fun _ => dlistInit_ring, rfl, ?_, ?_, h.span_lt, ?_, h.fault⟩
    · exact Nat.mod_eq_of_lt (length_lt_of_nodup cfg (nodup_singleton t))
    · refine h.timeouts.of_writes (m := dlistInit k.tie t) dlistInit_writes ?_
      rintro x hx rfl
      exact ht hx
    · intro x hx
      rw [mem_singleton.mp hx]
      exact ht
  | cons a l =>
    have hring := h.ringed (cons_ne_nil a l)
    have hne : k.readyCount ≠ 0 := by
      rw [hcnt]
      exact Nat.succ_ne_zero _
    have ha : k.runQueue = a := hrun
    have hring' := dlistPrepend_ring hring hr
    rw [zSchedule_of_ne hne, ha]
    refine ⟨fun _ => hring', ha, ?_, ?_, h.span_lt, ?_, h.fault⟩
    · show (k.readyCount + 1) % 2 ^ cfg.readyBits = _
      rw [hcnt]
      exact Nat.mod_eq_of_lt (length_lt_of_nodup cfg hring'.nodup)
    · refine h.timeouts.of_writes (m := dlistPrepend k.tie a t) (dlistPrepend_writes hring) ?_
      rintro x hx (rfl | hc)
      · exact ht hx
      · exact h.disjoint x hc hx
    · intro x hx
      rcases mem_insertReady.mp hx with rfl | hmem
      · exact ht
      · exact h.disjoint x hmem

private theorem SchedRep.setTimeouts {q : TQueue (Tid → Tie Tid) Tid}
    {S : List Tid} {timeq' : List (Tid × Nat)} (h : SchedRep cfg k ring timeq)
    (hrep : Rep q timeq') (hframe : Frame S .root k.timeouts q)
    (hS : ∀ t ∈ ring, t ∉ S) (hspan : span timeq' < 2 ^ cfg.deltaBits)
    (hdisj : ∀ t ∈ ring, t ∉ timeq'.map Prod.fst) :
    SchedRep cfg (k.setTimeouts q) ring timeq' := by
  refine ⟨?_, h.runQueue, h.count, ⟨hrep.chain, hrep.delay⟩, hspan, hdisj, ?_⟩
  · intro hne
    refine (h.ringed hne).of_writes hframe.writes ?_
    rintro x hx (hc | hc)
    · exact hS x hx hc
    · exact nomatch hc
  · exact hframe.stuck.trans h.fault

theorem zCancelScheduledWakeUp_sched (h : SchedRep cfg k ring timeq)
    (ht : (k.thread t).wakeupSched = true ↔ t ∈ timeq.map Prod.fst) :
    SchedRep cfg (zCancelScheduledWakeUp cfg k t) ring (removeDelta t timeq) := by
  rw [zCancelScheduledWakeUp]
  by_cases hw : (k.thread t).wakeupSched = true
  · have hmem := ht.mp hw
    rw [if_pos hw]
    obtain ⟨hrep, -, hframe⟩ := tqueueRemove_spec cfg.argsChecks h.timeouts hmem
      h.timeq_length_le h.span_lt
    refine (h.modThread t _).setTimeouts hrep hframe h.disjoint
      (Nat.lt_of_le_of_lt (span_removeDelta_le t timeq) h.span_lt) ?_
    intro x hx hc
    rw [map_fst_removeDelta] at hc
    exact h.disjoint x hx (mem_of_mem_erase hc)
  · rw [if_neg hw, removeDelta_of_notMem (fun hc => hw (ht.mpr hc))]
    exact h

private theorem SchedRep.remove_timeouts (h : SchedRep cfg k ring timeq) (ht : t ∈ ring) :
    Rep ({ k with tie := dlistRemove k.tie t } : Kernel Tid Qid Pid D).timeouts
      timeq := by
  refine h.timeouts.of_writes (m := dlistRemove k.tie t)
    (dlistRemove_writes (h.ringed (ne_nil_of_mem ht)) ht) ?_
  intro x hx hc
  exact h.disjoint x hc hx

theorem zSuspend_first (h : SchedRep cfg k (t :: l) timeq)
    (hs : (k.thread t).state ≠ .pending) (hcur : t = k.current ∨ l = []) :
    SchedRep cfg (zSuspend cfg k t) (lastFirst l) timeq := by
  have hring := h.ringed (cons_ne_nil t l)
  have hlt := length_lt_of_nodup cfg h.nodup
  have htime := h.remove_timeouts mem_cons_self
  have hcnt : (k.readyCount + 2 ^ cfg.readyBits - 1) % 2 ^ cfg.readyBits = l.length := by
    rw [h.count, length_cons]
    rw [length_cons] at hlt
    have h1 : l.length + 1 + 2 ^ cfg.readyBits - 1 = l.length + 2 ^ cfg.readyBits := by omega
    rw [h1, Nat.add_mod_right, Nat.mod_eq_of_lt (by omega)]
  rw [zSuspend, if_neg hs]
  simp only [hcnt]
  rcases eq_nil_or_concat l with rfl | ⟨l', z, rfl⟩
  · exact ⟨fun hc => absurd rfl hc, rfl, rfl, htime, h.span_lt, fun x hx => (nomatch hx), h.fault⟩
  · -- the node of the running thread keeps its links; its old successor now
    -- points back to its old predecessor
    have hlen : (l'.concat z).length ≠ 0 := by simp
    have hcur' : t = k.current := hcur.resolve_right (by simp)
    rw [concat_eq_append] at hring hlen ⊢
    have hring' : Ring (next (dlistRemove k.tie t)) (prev (dlistRemove k.tie t))
        (l' ++ [z]) := dlistRemove_ring (u := []) hring (by simp)
    have hne : prev k.tie t ≠ t := by
      have hz : prev k.tie t = z := by
        have h1 : Ring (next k.tie) (prev k.tie) ((t :: l') ++ [z]) := hring
        exact h1.prev_head rfl
      rw [hz]
      rintro rfl
      exact (nodup_cons.mp hring.nodup).1 (by simp)
    have hnext : next (dlistRemove k.tie t) t = (l' ++ [z]).headD t := by
      rw [next_dlistRemove, Function.update_of_ne hne.symm]
      cases l' with
      | nil => exact hring.next_head
      | cons b l' => exact hring.next_head
    have hprev : prev (dlistRemove k.tie t) ((l' ++ [z]).headD t) = z := by
      refine hring'.prev_head ?_
      cases l' with
      | nil => rfl
      | cons b l' => rfl
    rw [if_neg hlen, if_pos hcur', lastFirst_append]
    have hswap : Ring (next (dlistRemove k.tie t)) (prev (dlistRemove k.tie t))
        ([z] ++ l') := hring'.swap
    refine ⟨fun _ => hswap, ?_, by simp, htime, h.span_lt, ?_, h.fault⟩
    · show prev (dlistRemove k.tie t) (next (dlistRemove k.tie t) t) = z
      rw [hnext, hprev]
    · intro x hx
      refine h.disjoint x (mem_cons_of_mem t ?_)
      simp only [concat_eq_append, mem_append, mem_singleton]
      rcases mem_cons.mp hx with rfl | hmem
      · exact Or.inr rfl
      · exact Or.inl hmem

theorem zSuspend_other {a : Tid} (h : SchedRep cfg k (a :: l) timeq)
    (hs : (k.thread t).state ≠ .pending) (ht : t ∈ l) (hcur : t ≠ k.current) :
    SchedRep cfg (zSuspend cfg k t) (a :: l.erase t) timeq := by
  have hring := h.ringed (cons_ne_nil a l)
  have hlt := length_lt_of_nodup cfg h.nodup
  have htime := h.remove_timeouts (mem_cons_of_mem a ht)
  have hnd : l.Nodup := (nodup_cons.mp hring.nodup).2
  obtain ⟨u, v, huv⟩ := append_of_mem ht
  have htu : t ∉ u := by
    intro hc
    rw [huv] at hnd
    exact (nodup_append.mp hnd).2.2 t hc t mem_cons_self rfl
  have herase : l.erase t = u ++ v := by
    rw [huv, erase_append_right _ htu, erase_cons_head]
  have hring' : Ring (next (dlistRemove k.tie t)) (prev (dlistRemove k.tie t)) ((a :: u) ++ v) := by
    refine dlistRemove_ring ?_ (cons_ne_nil a _)
    rw [cons_append, ← huv]
    exact hring
  have hcnt : (k.readyCount + 2 ^ cfg.readyBits - 1) % 2 ^ cfg.readyBits
      = (a :: l.erase t).length := by
    rw [h.count, length_cons, length_cons, length_erase_of_mem ht]
    rw [length_cons] at hlt
    have hpos : 0 < l.length := length_pos_of_mem ht
    have h1 : l.length + 1 + 2 ^ cfg.readyBits - 1 = l.length + 2 ^ cfg.readyBits := by omega
    rw [h1, Nat.add_mod_right, Nat.mod_eq_of_lt (by omega)]
    omega
  rw [zSuspend, if_neg hs]
  simp only [hcnt]
  rw [if_neg (by simp), if_neg hcur]
  refine ⟨fun _ => ?_, h.runQueue, rfl, htime, h.span_lt, ?_, h.fault⟩
  · rw [herase]
    exact hring'
  · intro x hx
    refine h.disjoint x ?_
    rcases mem_cons.mp hx with rfl | hmem
    · exact mem_cons_self
    · exact mem_cons_of_mem a (mem_of_mem_erase hmem)

theorem zScheduleWakeUp_sched (h : SchedRep cfg k ring timeq)
    (timeout : cfg.Timeout) (hf : timeout ≠ kForever cfg)
    (hr : k.current ∉ ring) (ht : k.current ∉ timeq.map Prod.fst) :
    SchedRep cfg (zScheduleWakeUp cfg k timeout) ring
      (insertDelta k.current timeout.toNat timeq) := by
  rw [zScheduleWakeUp, if_pos hf]
  -- the item is written first; that touches neither queue
  have hw1 : Writes (TItem Tid) (fun x => x = k.current) k.tie
      (setNextItem (setDelayShift k.tie k.current timeout.toNat) k.current none) := by
    refine Writes.trans (Writes.single ?_) (Writes.single ?_)
    · rfl
    · rfl
  have h1 : SchedRep cfg { k.modThread k.current fun th =>
        { th with wakeupSched := true } with
      tie := setNextItem (setDelayShift k.tie k.current timeout.toNat)
        k.current none } ring timeq := by
    refine ⟨?_, h.runQueue, h.count, ?_, h.span_lt, h.disjoint, h.fault⟩
    · intro hne
      refine (h.ringed hne).of_writes hw1 ?_
      rintro x hx rfl
      exact hr hx
    · refine h.timeouts.of_writes hw1 ?_
      rintro x hx rfl
      exact ht hx
  obtain ⟨hrep, hframe⟩ := zTqueueSchedule_spec (w := cfg.deltaBits)
    h1.timeouts ht h.timeq_length_le (t := timeout.toNat)
    (by
      show delayShift (setNextItem (setDelayShift k.tie k.current _) k.current none)
        k.current = timeout.toNat
      rw [delayShift_setNextItem, delayShift_setDelayShift, Function.update_self])
    timeout.isLt h.span_lt
    (by
      show nextItem (setNextItem (setDelayShift k.tie k.current _) k.current none) k.current = none
      rw [nextItem_setNextItem, Function.update_self])
  refine h1.setTimeouts hrep hframe ?_ ?_ ?_
  · intro x hx hc
    rcases mem_cons.mp hc with heq | hmem
    · exact hr (heq ▸ hx)
    · exact h.disjoint x hx hmem
  · rw [span_insertDelta]
    exact Nat.max_lt.mpr ⟨timeout.isLt, h.span_lt⟩
  · intro x hx hc
    rcases mem_cons.mp ((insertDelta_perm _ _ _).mem_iff.mp hc) with heq | hmem
    · exact hr (heq ▸ hx)
    · exact h.disjoint x hx hmem

theorem zScheduler_sched (h : SchedRep cfg k ring timeq)
    (hr : (k.thread k.current).state = .ready → ring ≠ []) :
    SchedRep cfg (zScheduler k)
        (if (k.thread k.current).state = .ready then ring.rotate 1 else ring) timeq
      ∧ (zScheduler k).current = (zScheduler k).runQueue := by
  refine ⟨?_, ?_⟩
  · by_cases hs : (k.thread k.current).state = .ready
    · have hne := hr hs
      obtain ⟨a, l, hal⟩ := exists_cons_of_ne_nil hne
      have hring := h.ringed hne
      have hrun : k.runQueue = a := by
        rw [h.runQueue, hal]
        rfl
      rw [zScheduler_of_ready hs, if_pos hs]
      refine ⟨fun _ => hring.rotate 1, ?_, ?_, h.timeouts, h.span_lt, ?_, h.fault⟩
      · show next k.tie k.runQueue = _
        rw [hrun, hal, rotate_cons_succ, rotate_zero]
        rw [hal] at hring
        cases l with
        | nil => exact hring.of_singleton.1
        | cons b l => exact hring.next_head
      · rw [length_rotate]
        exact h.count
      · intro x hx
        exact h.disjoint x (mem_rotate.mp hx)
    · rw [zScheduler_of_not_ready hs, if_neg hs]
      exact ⟨h.ringed, h.runQueue, h.count, h.timeouts, h.span_lt, h.disjoint, h.fault⟩
  · rfl

theorem zScheduler_switch (h : SchedRep cfg k ring timeq)
    (hs : (k.thread k.current).state ≠ .ready) :
    SchedRep cfg (zScheduler k) ring timeq ∧ (zScheduler k).current = ring.headD cfg.idle := by
  obtain ⟨hsch, hrun⟩ := zScheduler_sched h (fun hc => absurd hc hs)
  rw [if_neg hs] at hsch
  exact ⟨hsch, hrun.trans hsch.runQueue⟩

theorem tqueuePop_sched {timeq : List (Tid × Nat)} (h : SchedRep cfg k ring ((t, 0) :: timeq)) :
    (tqueuePop k.timeouts).2 = some t
      ∧ SchedRep cfg (k.setTimeouts (tqueuePop k.timeouts).1) ring timeq := by
  obtain ⟨hpop, hrep⟩ := tqueuePop_spec h.timeouts
  have hspan : span ((t, 0) :: timeq) = 0 + span timeq := rfl
  have hlt := h.span_lt
  rw [hpop]
  refine ⟨rfl, h.ringed, h.runQueue, h.count, ⟨hrep.chain, hrep.delay⟩, by omega, ?_, h.fault⟩
  intro x hx hc
  exact h.disjoint x hx (mem_cons_of_mem t hc)

theorem tqueueShift_sched (h : SchedRep cfg k ring timeq) (d : cfg.Timeout) :
    SchedRep cfg (k.setTimeouts (tqueueShift cfg.deltaBits (Fintype.card Tid)
      k.timeouts d.toNat)) ring (shiftDelta d.toNat timeq) := by
  obtain ⟨hrep, hframe⟩ := tqueueShift_spec h.timeouts h.timeq_length_le d.isLt h.span_lt
  refine h.setTimeouts hrep hframe h.disjoint
    (Nat.lt_of_le_of_lt (span_shiftDelta_le _ timeq) h.span_lt) ?_
  rw [map_fst_shiftDelta]
  exact h.disjoint

end Rep

end AvrtosKernel
