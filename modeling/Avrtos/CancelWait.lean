import Avrtos.Flags
import Avrtos.PollRuns

/-! # Cancelling the waits on an object

    `z_cancel_all_pending` stops at the first poll descriptor; without one it reaches all. -/

namespace AvrtosCancel

open Function List AvrtosDefines AvrtosDlist AvrtosKernel AvrtosSemaphore AvrtosMutex AvrtosFifo
open AvrtosMsgq AvrtosFlags AvrtosPoll Cells LinkedRing Runs

variable {Tid Qid Pid D : Type} [Threads Tid]
variable [DecidableEq Qid] [DecidableEq Pid]

def waiter (k : Kernel Tid Qid Pid D) : WNode Tid Qid Pid → Option Tid
  | .queue _ => none
  | .handle t => some t
  | .poll p => some (k.pollfd p).thread

/-- The threads in a wait queue. -/
def waiters (k : Kernel Tid Qid Pid D) (l : List (WNode Tid Qid Pid)) : List Tid :=
  l.filterMap (waiter k)

structure Queued (cfg : Config Tid Qid) (k : Kernel Tid Qid Pid D)
    (s : Shape Tid Qid Pid) (q : Qid) : Prop where
  base : KBase cfg k s
  pollers : ∀ p, .poll p ∈ s.waitq q →
    (k.thread (k.pollfd p).thread).state = .pending
      ∧ Unqueued s.waitq (.handle (k.pollfd p).thread)
  distinct : (waiters k (s.waitq q)).Nodup
  few : (waiters k (s.waitq q)).length < 128

/-- Everybody is reached. -/
structure CancelsAll (k' : Kernel Tid Qid Pid D) (ret : Int) (q : Qid) (l : List Tid) :
    Prop where
  empty : SelfLinked k'.wait (.queue q)
  ready : ∀ t ∈ l, (k'.thread t).state = .ready
  result : ∀ t ∈ l, zPendResult (k'.thread t) = -ECANCELED
  count : ret = l.length

section Loop

variable {cfg : Config Tid Qid} {k : Kernel Tid Qid Pid D} {s : Shape Tid Qid Pid} {q : Qid}

theorem unpendAllLoop_poll {mark : Thread D → Thread D} (hm : Marks mark) {l : List Tid}
    {p : Pid} {rest : List (WNode Tid Qid Pid)} {fuel : Nat} (count : Nat)
    (hl : l.length ≤ fuel) (h : KBase cfg k s)
    (hq : s.waitq q = l.map .handle ++ .poll p :: rest)
    (hp : (k.thread (k.pollfd p).thread).state = .pending)
    (hu : Unqueued s.waitq (.handle (k.pollfd p).thread)) :
    (zUnpendAllLoop cfg q mark fuel k count).1.thread (k.pollfd p).thread
      = (k.thread (k.pollfd p).thread).woken := by
  induction l generalizing fuel k s count with
  | nil =>
    obtain ⟨hnone, -, hthread, -⟩ := h.unpend_poll hq hp hu
    have hk : zUnpendAllLoop cfg q mark fuel k count = ((zUnpendFirstThread cfg k q).1, count) := by
      cases fuel with
      | zero => simp only [zUnpendAllLoop, hnone]
      | succ fuel => simp only [zUnpendAllLoop, hnone]
    rw [hk, hthread, update_self]
  | cons t l ih =>
    obtain ⟨fuel, rfl⟩ : ∃ n, fuel = n + 1 :=
      Nat.exists_eq_succ_of_ne_zero (Nat.ne_of_gt (Nat.lt_of_lt_of_le (Nat.succ_pos _) hl))
    obtain ⟨hsome, hinv, hthread, -, hpfd, -⟩ := h.unpend_handle hq
    have hk : zUnpendAllLoop cfg q mark (fuel + 1) k count
        = zUnpendAllLoop cfg q mark fuel ((zUnpendFirstThread cfg k q).1.modThread t mark)
          ((count + 1) % 256) := by
      simp only [zUnpendAllLoop, hsome]
    -- the polling thread is another one than the first waiter
    have hne : (k.pollfd p).thread ≠ t := by
      intro hc
      refine hu q ?_
      rw [hq, hc]
      exact mem_cons_self
    generalize (zUnpendFirstThread cfg k q).1 = k₁ at *
    have hinv₁ := hinv.modThread (t := t) mark (hm.state _) (hm.wakeupSched _) (by
      rw [hthread, update_self]
      exact fun hc => ThreadState.noConfusion hc)
    have hsame : (k₁.modThread t mark).thread (k.pollfd p).thread
        = k.thread (k.pollfd p).thread := by
      show update k₁.thread t _ _ = _
      rw [update_of_ne hne, hthread, update_of_ne hne]
    have hpfd' : (k₁.modThread t mark).pollfd = k.pollfd := hpfd
    have hrest := ih ((count + 1) % 256) (Nat.le_of_succ_le_succ hl) hinv₁
      (update_self ..) (by rw [hpfd', hsame]; exact hp)
      (by rw [hpfd']; exact hu.update hq)
    rw [hpfd', hsame] at hrest
    rw [hk]
    exact hrest

omit [Threads Tid] [DecidableEq Qid] [DecidableEq Pid] in
theorem handles_or_poll {l : List (WNode Tid Qid Pid)} (hl : ∀ n ∈ l, ∀ q, n ≠ .queue q) :
    (∃ ts : List Tid, l = ts.map .handle)
      ∨ ∃ (ts : List Tid) (p : Pid) (rest : List (WNode Tid Qid Pid)),
          l = ts.map .handle ++ .poll p :: rest := by
  induction l with
  | nil => exact Or.inl ⟨[], rfl⟩
  | cons n l ih =>
    cases n with
    | queue q => exact absurd rfl (hl _ mem_cons_self q)
    | handle t =>
      rcases ih fun n hn => hl n (mem_cons_of_mem _ hn) with
        ⟨ts, rfl⟩ | ⟨ts, p, rest, rfl⟩
      · exact Or.inl ⟨t :: ts, rfl⟩
      · exact Or.inr ⟨t :: ts, p, rest, rfl⟩
    | poll p => exact Or.inr ⟨[], p, l, rfl⟩

omit [Threads Tid] [DecidableEq Qid] [DecidableEq Pid] in
theorem waiters_handles (ts : List Tid) :
    waiters k (ts.map .handle : List (WNode Tid Qid Pid)) = ts := by
  rw [waiters, filterMap_map]
  exact filterMap_some

theorem zCancelAllPending_eq : zCancelAllPending cfg k q
    = zUnpendAllLoop cfg q Thread.cancel (Fintype.card Tid) k 0 := rfl

theorem Queued.cancel_handles (h : Queued cfg k s q) {ts : List Tid}
    (hq : s.waitq q = ts.map .handle) :
    CancelsAll (zCancelAllPending cfg k q).1 (int8 (zCancelAllPending cfg k q).2) q
      (waiters k (s.waitq q)) := by
  obtain ⟨ring, hinv, hthread, -, -, -, hcount⟩ :=
    h.base.unpendAllLoop marks_cancel 0 (h.base.wait.length_le hq) hq
  have hfew := h.few
  rw [hq, waiters_handles] at hfew ⊢
  have hmem : ∀ t ∈ ts, (k.thread t).state = .pending := by
    intro t ht
    refine h.base.waiting q t ?_
    rw [hq]
    exact mem_map_of_mem ht
  refine ⟨?_, ?_, ?_, ?_⟩
  · have hring := hinv.wait.ringed q
    simp only [update_self] at hring
    exact hring.of_singleton
  · intro t ht
    rw [zCancelAllPending_eq, hthread, if_pos ht]
    rfl
  · intro t ht
    rw [zCancelAllPending_eq, hthread, if_pos ht]
    have hflag := (h.base.flags t (hmem t ht)).1
    show zPendResult (k.thread t).woken.cancel = -ECANCELED
    simp only [zPendResult, Thread.woken, Thread.cancel, hflag, Bool.false_eq_true, if_false,
      if_true]
  · rw [zCancelAllPending_eq, hcount (by decide), Nat.zero_add, Nat.mod_eq_of_lt (by omega)]
    exact int8_of_lt hfew

theorem Queued.cancel_iff (h : Queued cfg k s q) :
    CancelsAll (zCancelAllPending cfg k q).1 (int8 (zCancelAllPending cfg k q).2) q
        (waiters k (s.waitq q))
      ↔ ∀ p, .poll p ∉ s.waitq q := by
  rcases handles_or_poll (h.base.wait.node q) with ⟨ts, hq⟩ | ⟨ts, p, rest, hq⟩
  · refine ⟨fun _ p hp => ?_, fun _ => h.cancel_handles hq⟩
    rw [hq] at hp
    obtain ⟨t, -, ht⟩ := mem_map.mp hp
    exact WNode.noConfusion rfl rfl rfl (heq_of_eq ht)
  · have hmem : .poll p ∈ s.waitq q := by
      rw [hq]
      exact mem_append_right _ mem_cons_self
    refine ⟨fun hc => ?_, fun hn => absurd hmem (hn p)⟩
    -- the polling thread wakes up without the mark
    obtain ⟨hp, hu⟩ := h.pollers p hmem
    have hlen : ts.length ≤ Fintype.card Tid := by
      have hnd := h.base.wait.nodup q
      rw [hq] at hnd
      exact hnd.of_append_left.of_map.length_le_card
    have hthread := unpendAllLoop_poll marks_cancel 0 hlen h.base hq hp hu
    have hres := hc.result (k.pollfd p).thread (mem_filterMap.mpr ⟨_, hmem, rfl⟩)
    obtain ⟨h1, h2⟩ := h.base.flags _ hp
    have hzero : zPendResult (k.thread (k.pollfd p).thread).woken = 0 :=
      zPendResult_eq_zero.mpr ⟨h1, h2⟩
    rw [zCancelAllPending_eq, hthread, hzero] at hres
    exact absurd hres (by decide)

end Loop

section Objects

variable {cfg : Config Tid Qid} {k : Kernel Tid Qid Pid Nat} {s : Shape Tid Qid Pid} {q : Qid}

def outcomes (cfg : Config Tid Qid) (k : Kernel Tid Qid Pid Nat) (m : Msgq) (q : Qid) :
    List (Kernel Tid Qid Pid Nat × Int) :=
  [kSemCancelWait cfg k q, kMutexCancelWait cfg k q, kFifoCancelWait cfg k q,
    ((kMsgqPurge cfg k m q).1, (kMsgqPurge cfg k m q).2.2)]

/-- **CANCELLING A WAIT** reaches everybody exactly when no poll descriptor is in the wait queue. -/
theorem cancel_wait_reaches_all_iff (h : Queued cfg k s q) (m : Msgq) :
    (∀ r ∈ outcomes cfg k m q,
        (CancelsAll r.1 r.2 q (waiters k (s.waitq q)) ↔ ∀ p, .poll p ∉ s.waitq q))
      ∧ ∀ (k₀ : Kernel Tid Qid Empty Nat) (s₀ : Shape Tid Qid Empty) (fl : Flags),
          Queued cfg k₀ s₀ q →
          CancelsAll (kFlagsReset cfg k₀ fl q).1 (kFlagsReset cfg k₀ fl q).2.2 q
            (waiters k₀ (s₀.waitq q)) := by
  refine ⟨?_, ?_⟩
  · intro r hr
    simp only [outcomes, mem_cons, not_mem_nil, or_false] at hr
    rcases hr with rfl | rfl | rfl | rfl
    · exact h.cancel_iff
    · exact h.cancel_iff
    · exact h.cancel_iff
    · exact h.cancel_iff
  · exact fun k₀ s₀ fl h₀ => h₀.cancel_iff.mpr fun p => p.elim

end Objects

/-- Thread 0 blocks on queue 0. -/
def blockedOne : Kernel (Fin 4) (Fin 2) (Fin 2) Nat :=
  (zPendCurrentOn (smallConfig (Fin 2)) (smallBoot (Fin 2) (Fin 2) Nat) (some 0)
    (kForever _)).1

def blockedTwo : Kernel (Fin 4) (Fin 2) (Fin 2) Nat :=
  (zPendCurrentOn (smallConfig (Fin 2)) blockedOne (some 0) 5).1

theorem blockedTwo_queued : ∃ s, s.waitq 0 = [.handle 0, .handle 2]
    ∧ Queued (smallConfig (Fin 2)) blockedTwo s 0 := by
  have hboot : ColdBoot (smallConfig (Fin 2)) (smallBoot (Fin 2) (Fin 2) Nat) [0, 1, 2] :=
    smallBoot_boot
  obtain ⟨-, hone, -⟩ := hboot.kinv.pendOn (by decide) 0 (kForever _) (by decide)
  obtain ⟨-, htwo, -⟩ := hone.pendOn (by decide) 0 5 (by decide)
  have hwaitq : [.handle 0, .handle 2] = ([.handle 0, .handle 2] :
      List (WNode (Fin 4) (Fin 2) (Fin 2))) := rfl
  refine ⟨_, hwaitq, htwo.toKBase, ?_, by decide, ?_⟩
  · intro p hp
    replace hp : .poll p ∈ ([.handle 0, .handle 2] : List (WNode (Fin 4) (Fin 2) (Fin 2))) := hp
    simp at hp
  · show 2 < 128
    decide

theorem cancel_wait_reaches_all_iff_two : ∃ s, Queued (smallConfig (Fin 2)) blockedTwo s 0
    ∧ CancelsAll (kSemCancelWait (smallConfig (Fin 2)) blockedTwo 0).1
        (kSemCancelWait (smallConfig (Fin 2)) blockedTwo 0).2 0 [0, 2] := by
  obtain ⟨s, hq, hs⟩ := blockedTwo_queued
  have h := ((cancel_wait_reaches_all_iff hs ⟨0, 0, 0, 0, 0, 0, 0⟩).1 _
    mem_cons_self).mpr (by rw [hq]; decide)
  rw [hq] at h
  exact ⟨s, hs, h⟩

def pollerThenTaker : PollSys (Fin 4) (Fin 2) (Fin 2) :=
  [pollOne, .semTake 0 (kForever _)].foldl (PollOp.run false)
    (pollBoot (smallBoot (Fin 2) (Fin 2) Nat))

/-- **BLOCKED FOR GOOD**: behind the descriptor of thread 0, thread 2 stays PENDING. -/
theorem cancel_wait_stops_at_poll :
    PollReach false (smallConfig (Fin 2)) (fun st op => op.Careful false st) pollerThenTaker
      ∧ next pollerThenTaker.polls.ker.wait (.queue 0 : WNode (Fin 4) (Fin 2) (Fin 2))
          = .poll 0
      ∧ next pollerThenTaker.polls.ker.wait (.poll 0 : WNode (Fin 4) (Fin 2) (Fin 2))
          = .handle 2
      ∧ next pollerThenTaker.polls.ker.wait (.handle 2 : WNode (Fin 4) (Fin 2) (Fin 2))
          = .queue 0
      ∧ (kSemCancelWait (smallConfig (Fin 2)) pollerThenTaker.polls.ker 0).2 = 0
      ∧ zPendResult ((kSemCancelWait (smallConfig (Fin 2)) pollerThenTaker.polls.ker
          0).1.thread 0) = 0
      ∧ ((kSemCancelWait (smallConfig (Fin 2)) pollerThenTaker.polls.ker 0).1.thread
          2).state = .pending :=
  ⟨Reach.foldl (.start ⟨_, smallBoot_boot, rfl⟩) (by decide), by decide, by decide,
    by decide, by decide, by decide, by decide⟩

end AvrtosCancel
