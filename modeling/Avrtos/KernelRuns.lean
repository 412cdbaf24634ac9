import Avrtos.Calls

/-! # Runs of the kernel from a cold start

    Any run over memory in which nobody has initialised the handles of the threads keeps the
    invariant. -/

namespace AvrtosKernel

open Function List AvrtosDefines AvrtosDlist AvrtosTqueue Cells LinkedRing LinkedChain DeltaList
open Runs

variable {Tid Qid Pid D : Type} [Threads Tid]
variable [DecidableEq Qid] [DecidableEq Pid]

/-- The operations of a run. -/
inductive KerOp (cfg : Config Tid Qid) (D : Type) where
  | pendOn (q : Qid) (timeout : cfg.Timeout)
  | sleep (timeout : cfg.Timeout)
  | unpend (q : Qid)
  | unpendAndSwap (q : Qid) (data : Option D)
  | cancelAll (q : Qid)
  | start (t : Tid)
  | yield
  | schedEnter

variable {cfg : Config Tid Qid}

def KerOp.Allowed (k : Kernel Tid Qid Pid D) : KerOp cfg D → Prop
  | .pendOn _ timeout => timeout ≠ kNoWait cfg → k.current ≠ cfg.idle
  | .sleep _ => k.current ≠ cfg.idle
  | _ => True

instance decKerAllowed (k : Kernel Tid Qid Pid D) :
    (op : KerOp cfg D) → Decidable (op.Allowed k)
  | .pendOn _ _ => inferInstanceAs (Decidable (_ → _))
  | .sleep _ => inferInstanceAs (Decidable (_ ≠ _))
  | .unpend _ | .unpendAndSwap _ _ | .cancelAll _ | .start _ | .yield | .schedEnter =>
      isTrue trivial

def KerOp.Careful (k : Kernel Tid Qid Pid D) : KerOp cfg D → Prop
  | .sleep timeout => timeout ≠ kForever cfg → SelfLinked k.wait (.handle k.current)
  | _ => True

instance decKerCareful (k : Kernel Tid Qid Pid D) :
    (op : KerOp cfg D) → Decidable (op.Careful k)
  | .sleep _ => inferInstanceAs (Decidable (_ → _))
  | .pendOn _ _ | .unpend _ | .unpendAndSwap _ _ | .cancelAll _ | .start _ | .yield
  | .schedEnter => isTrue trivial

/-- The state after an operation. -/
def KerOp.run (k : Kernel Tid Qid Pid D) : KerOp cfg D → Kernel Tid Qid Pid D
  | .pendOn q timeout => (zPendCurrentOn cfg k (some q) timeout).1
  | .sleep timeout => kSleep cfg k timeout
  | .unpend q => (zUnpendFirstThread cfg k q).1
  | .unpendAndSwap q data => (zUnpendFirstAndSwap cfg k q data).1
  | .cancelAll q => (zCancelAllPending cfg k q).1
  | .start t => (kThreadStart cfg k t).1
  | .yield => zScheduler k
  | .schedEnter => zSchedEnter cfg k

def KerOp.isCall : KerOp cfg D → Bool
  | .schedEnter => false
  | _ => true

def KerOp.timeout : KerOp cfg D → Option (cfg.Timeout)
  | .pendOn _ timeout => if timeout = kNoWait cfg then none else some timeout
  | .sleep timeout => some timeout
  | _ => none

def KerReach (cfg : Config Tid Qid) (ok : Kernel Tid Qid Pid D → KerOp cfg D → Prop) :
    Kernel Tid Qid Pid D → Prop :=
  Reach (fun k => ∃ ring, ColdBoot cfg k ring)
    (fun k (op : KerOp cfg D) => op.Allowed k ∧ ok k op) KerOp.run

def KerInv (cfg : Config Tid Qid) (k : Kernel Tid Qid Pid D) (timeq : List (Tid × Nat)) :
    Prop :=
  ∃ ring w, KInv cfg k ⟨ring, timeq, handles w⟩

structure KeepsDeadlines (cfg : Config Tid Qid) (k k' : Kernel Tid Qid Pid D)
    (timeq timeq' : List (Tid × Nat)) (timeout : Option (cfg.Timeout)) : Prop where
  other : ∀ t, t ≠ k.current → (k'.thread t).state = .pending →
    (k.thread t).state = .pending
      ∧ ∀ r, (t, r) ∈ deadlines timeq' ↔ (t, r) ∈ deadlines timeq
  running : (k'.thread k.current).state = .pending →
    ∃ T, timeout = some T
      ∧ ∀ r, (k.current, r) ∈ deadlines timeq' ↔ T ≠ kForever cfg ∧ r = T.toNat

section Step

variable {k k' : Kernel Tid Qid Pid D} {ring : List Tid} {timeq : List (Tid × Nat)}
variable {w : Qid → List Tid} {s : Shape Tid Qid Pid}

theorem KInv.current_not_pending (h : KInv cfg k s) : (k.thread k.current).state ≠ .pending := by
  by_cases hc : k.current = cfg.idle
  · rw [(h.idle _).mpr hc]
    exact fun hc => ThreadState.noConfusion hc
  · rw [(h.current_ready hc).1]
    exact fun hc => ThreadState.noConfusion hc

theorem KerInv.deadline_unique (h : KerInv cfg k timeq) {t : Tid} {d d' : Nat}
    (hd : (t, d) ∈ deadlines timeq)
    (hd' : (t, d') ∈ deadlines timeq) : d = d' := by
  obtain ⟨ring, w, hk⟩ := h
  have hnd := hk.timeq_nodup
  rw [← map_fst_deadlines] at hnd
  exact (Prod.mk.inj (inj_on_of_nodup_map hnd hd hd' rfl)).2

/-- Threads leave their waits. -/
theorem KInv.keepsDeadlines_release {R : List Tid} (h : KInv cfg k s)
    (hready : ∀ x ∈ R, (k'.thread x).state ≠ .pending)
    (hsame : ∀ x, x ∉ R → (k'.thread x).state = (k.thread x).state) :
    KeepsDeadlines cfg k k' s.timeq (removeDeltas R s.timeq) none := by
  refine ⟨?_, ?_⟩
  · intro t _ hp
    have htR : t ∉ R := fun hc => hready t hc hp
    refine ⟨(hsame t htR).symm.trans hp, fun r => ?_⟩
    rw [mem_deadlines_removeDeltas h.timeq_nodup]
    exact ⟨fun hr => hr.2, fun hr => ⟨htR, hr⟩⟩
  · intro hp
    have htR : k.current ∉ R := fun hc => hready _ hc hp
    exact absurd ((hsame _ htR).symm.trans hp) h.current_not_pending

/-- The running thread blocks. -/
theorem KInv.keepsDeadlines_pend {timeout : cfg.Timeout} (h : KInv cfg k s)
    (hth : k'.thread = update k.thread k.current
      ((k.thread k.current).blocked (decide (timeout ≠ kForever cfg)))) :
    KeepsDeadlines cfg k k' s.timeq (pendTimeq cfg k.current timeout s.timeq) (some timeout) := by
  have hcur := (h.not_timed h.current_not_pending).2
  refine ⟨?_, ?_⟩
  · intro t ht hp
    rw [hth, update_of_ne ht] at hp
    refine ⟨hp, fun r => ?_⟩
    unfold pendTimeq
    split_ifs
    · rw [mem_deadlines_insertDelta]
      exact ⟨fun hr => hr.resolve_left fun hc => ht (Prod.mk.inj hc).1, Or.inr⟩
    · exact Iff.rfl
  · intro _
    refine ⟨timeout, rfl, fun r => ?_⟩
    have hnone : (k.current, r) ∉ deadlines s.timeq := fun hr => hcur (mem_map_fst_iff.mpr ⟨r, hr⟩)
    unfold pendTimeq
    split_ifs with hf
    · rw [mem_deadlines_insertDelta]
      constructor
      · exact fun hr => ⟨hf, (Prod.mk.inj (hr.resolve_right hnone)).2⟩
      · rintro ⟨-, rfl⟩
        exact Or.inl rfl
    · exact ⟨fun hr => absurd hr hnone, fun hr => absurd hr.1 hf⟩

theorem KInv.unpendFirst (h : KInv cfg k ⟨ring, timeq, handles w⟩) (q : Qid) :
    (zUnpendFirstThread cfg k q).2 = (w q).head?
      ∧ KerInv cfg (zUnpendFirstThread cfg k q).1 (removeDeltas (w q).head?.toList timeq)
      ∧ ∀ x, (zUnpendFirstThread cfg k q).1.thread x
          = if x ∈ (w q).head?.toList then (k.thread x).woken else k.thread x := by
  cases hq : w q with
  | nil =>
    have hq' : handles w q = ([] : List (WNode Tid Qid Pid)) := by
      rw [handles, hq]
      rfl
    obtain ⟨hnone, hinv, hthread, hcur, -⟩ := h.toKBase.unpend_nil hq'
    refine ⟨hnone, ⟨ring, w, hinv, ?_⟩, fun x => ?_⟩
    · rw [hcur]
      exact h.current
    · rw [hthread]
      rfl
  | cons t rest =>
    have hq' : handles w q = (WNode.handle t :: rest.map .handle : List (WNode Tid Qid Pid)) := by
      rw [handles, hq]
      rfl
    obtain ⟨hsome, hinv, hthread, hcur, -⟩ := h.toKBase.unpend_handle hq'
    refine ⟨hsome, ⟨insertReady t ring, update w q rest, ?_, ?_⟩, fun x => ?_⟩
    · rw [handles_update]
      exact hinv
    · rw [hcur]
      exact h.current_insertReady t
    · rw [hthread, update_apply]
      simp only [List.head?_cons, Option.toList_some, mem_singleton]
      split_ifs with hx
      · rw [hx]
      · rfl

theorem KInv.unpendFirstAndSwap (h : KInv cfg k ⟨ring, timeq, handles w⟩) (q : Qid)
    (data : Option D) :
    KerInv cfg (zUnpendFirstAndSwap cfg k q data).1 (removeDeltas (w q).head?.toList timeq)
      ∧ ∀ x, ((zUnpendFirstAndSwap cfg k q data).1.thread x).state
          = ((zUnpendFirstThread cfg k q).1.thread x).state := by
  obtain ⟨hhead, hinv, -⟩ := h.unpendFirst q
  cases hw : (zUnpendFirstThread cfg k q).2 with
  | none =>
    simp only [zUnpendFirstAndSwap, hw]
    exact ⟨hinv, fun _ => trivial⟩
  | some t =>
    obtain ⟨ring', w', hk⟩ := hinv
    simp only [zUnpendFirstAndSwap, hw]
    refine ⟨⟨ring', w', ?_, hk.current⟩, fun x => ?_⟩
    · exact hk.toKBase.modThread _ rfl rfl (hk.flags t)
    · show (update (zUnpendFirstThread cfg k q).1.thread t _ x).state = _
      rw [update_apply]
      split_ifs with hx
      · rw [hx]
      · rfl

theorem KInv.cancelAll (h : KInv cfg k ⟨ring, timeq, handles w⟩) (q : Qid) :
    KerInv cfg (zCancelAllPending cfg k q).1 (removeDeltas (w q) timeq)
      ∧ ∀ x, (zCancelAllPending cfg k q).1.thread x
          = if x ∈ w q then (k.thread x).woken.cancel else k.thread x := by
  have hq : handles w q = ((w q).map .handle : List (WNode Tid Qid Pid)) := rfl
  obtain ⟨ring', hinv, hthread, hcur, hhead, -, -⟩ :=
    h.toKBase.unpendAllLoop marks_cancel 0 (h.wait.length_le hq) hq
  refine ⟨⟨ring', update w q [], ?_, ?_⟩, hthread⟩
  · rw [handles_update]
    exact hinv
  · rw [zCancelAllPending]
    refine Or.imp ?_ ?_ h.current
    · exact hcur.trans
    · intro hc
      exact hcur.symm ▸ hhead _ hc

theorem KerInv.call (h : KerInv cfg k timeq) {op : KerOp cfg D} (ha : op.Allowed k)
    (hc : op.Careful k) (hop : op.isCall = true) :
    ∃ timeq', KerInv cfg (op.run k) timeq'
      ∧ KeepsDeadlines cfg k (op.run k) timeq timeq' op.timeout := by
  obtain ⟨ring, w, hk⟩ := h
  have hstay : KeepsDeadlines cfg k k timeq timeq none :=
    hk.keepsDeadlines_release (R := []) (fun x hx => absurd hx not_mem_nil) (fun _ _ => rfl)
  cases op with
  | pendOn q timeout =>
    by_cases hn : timeout = kNoWait cfg
    · have hr : (KerOp.pendOn q timeout : KerOp cfg D).run k = k := by
        rw [KerOp.run, zPendCurrentOn, if_pos hn]
      rw [hr, KerOp.timeout, if_pos hn]
      exact ⟨timeq, ⟨ring, w, hk⟩, hstay⟩
    · obtain ⟨-, hinv, hth, -⟩ := hk.pendOn (ha hn) q timeout hn
      rw [KerOp.timeout, if_neg hn]
      refine ⟨_, ⟨lastFirst ring.tail, update w q (w q ++ [k.current]), ?_⟩,
        hk.keepsDeadlines_pend hth⟩
      rw [handles_update, map_append]
      exact hinv
  | sleep timeout =>
    obtain ⟨hinv, hth, -⟩ := hk.sleep ha timeout hc
    exact ⟨_, ⟨_, w, hinv⟩, hk.keepsDeadlines_pend hth⟩
  | unpend q =>
    obtain ⟨-, hinv, hth⟩ := hk.unpendFirst q
    refine ⟨_, hinv, hk.keepsDeadlines_release ?_ ?_⟩
    · intro x hx hp
      rw [KerOp.run, hth, if_pos hx] at hp
      exact ThreadState.noConfusion hp
    · intro x hx
      rw [KerOp.run, hth, if_neg hx]
  | unpendAndSwap q data =>
    obtain ⟨-, -, hth⟩ := hk.unpendFirst q
    obtain ⟨hinv, hst⟩ := hk.unpendFirstAndSwap q data
    refine ⟨_, hinv, hk.keepsDeadlines_release ?_ ?_⟩
    · intro x hx hp
      rw [KerOp.run, hst, hth, if_pos hx] at hp
      exact ThreadState.noConfusion hp
    · intro x hx
      rw [KerOp.run, hst, hth, if_neg hx]
  | cancelAll q =>
    obtain ⟨hinv, hth⟩ := hk.cancelAll q
    refine ⟨_, hinv, hk.keepsDeadlines_release ?_ ?_⟩
    · intro x hx hp
      rw [KerOp.run, hth, if_pos hx] at hp
      exact ThreadState.noConfusion hp
    · intro x hx
      rw [KerOp.run, hth, if_neg hx]
  | start t =>
    by_cases ht : (k.thread t).state = .stopped
    · obtain ⟨hinv, hth, -⟩ := hk.start ht
      refine ⟨timeq, ⟨_, w, hinv⟩, ?_⟩
      have hnp : (k.thread t).state ≠ .pending := by
        rw [ht]
        exact fun hc => ThreadState.noConfusion hc
      have hrem : removeDeltas [t] timeq = timeq := removeDelta_of_notMem (hk.not_timed hnp).2
      have hkeep : KeepsDeadlines cfg k (kThreadStart cfg k t).1 timeq
          (removeDeltas [t] timeq) none := by
        refine hk.keepsDeadlines_release ?_ ?_
        · intro x hx hp
          rw [mem_singleton.mp hx, hth, update_self] at hp
          exact ThreadState.noConfusion hp
        · intro x hx
          rw [hth, update_of_ne fun hc => hx (mem_singleton.mpr hc)]
      rw [hrem] at hkeep
      exact hkeep
    · have hr : (KerOp.start t : KerOp cfg D).run k = k := by
        rw [KerOp.run, kThreadStart, if_pos ht]
      rw [hr]
      exact ⟨timeq, ⟨ring, w, hk⟩, hstay⟩
  | yield =>
    refine ⟨timeq, ⟨_, w, hk.yield⟩, ?_⟩
    refine hk.keepsDeadlines_release (R := []) (fun x hx => absurd hx not_mem_nil) ?_
    intro x _
    rw [KerOp.run, zScheduler_thread, update_apply]
    split_ifs with hx
    · rw [hx]
      rfl
    · rfl
  | schedEnter => exact Bool.noConfusion hop

theorem KerInv.schedEnter (h : KerInv cfg k timeq) : ∃ timeq', KerInv cfg (zSchedEnter cfg k) timeq'
      ∧ (∀ t r, (t, r) ∈ deadlines timeq' ↔ 0 < r ∧ (t, r + cfg.sliceTicks.toNat) ∈ deadlines timeq)
      ∧ (∀ t, ((zSchedEnter cfg k).thread t).state = .pending ↔ (k.thread t).state = .pending
            ∧ ∀ r, (t, r) ∈ deadlines timeq → cfg.sliceTicks.toNat < r)
      ∧ ∀ t, ((zSchedEnter cfg k).thread t).state = (k.thread t).state
          ∨ ((zSchedEnter cfg k).thread t).state = .ready := by
  obtain ⟨ring, w, hk⟩ := h
  obtain ⟨⟨ring', timeq', waitq'⟩, E, hinv, hE, hshift, hdue⟩ := hk.schedEnter_due
  have hw : waitq' = handles fun q => (w q).filter fun t => t ∉ E :=
    hE.waitq.trans (dropHandles_handles w E)
  have hpos : ∀ t r, (t, r) ∈ deadlines timeq' → 0 < r := fun t r => pos_of_not_due hdue (t, r)
  -- the deadlines after the shift, by the two parts of the queue
  have hsplit : ∀ t r, (t ∈ E ∧ r = 0 ∨ (t, r) ∈ deadlines timeq') ↔
      ∃ r', (t, r') ∈ deadlines timeq ∧ r = r' - cfg.sliceTicks.toNat := by
    intro t r
    rw [← mem_deadlines_zeros_append, ← mem_deadlines_shiftDelta, ← hshift]
  refine ⟨timeq', ⟨ring', _, hw ▸ hinv⟩, ?_, ?_, ?_⟩
  · intro t r
    constructor
    · intro hr
      obtain ⟨r', hr', heq⟩ := (hsplit t r).mp (Or.inr hr)
      have h0 := hpos t r hr
      have hsum : r + cfg.sliceTicks.toNat = r' := by omega
      exact ⟨h0, hsum ▸ hr'⟩
    · rintro ⟨h0, hr⟩
      refine ((hsplit t r).mpr ⟨_, hr, (Nat.add_sub_cancel ..).symm⟩).resolve_left ?_
      exact fun hc => absurd hc.2 (Nat.pos_iff_ne_zero.mp h0)
  · intro t
    -- the threads that are due
    have hE' : t ∈ E ↔ ∃ r, (t, r) ∈ deadlines timeq ∧ r ≤ cfg.sliceTicks.toNat := by
      constructor
      · intro ht
        obtain ⟨r, hr, heq⟩ := (hsplit t 0).mp (Or.inl ⟨ht, rfl⟩)
        exact ⟨r, hr, by omega⟩
      · rintro ⟨r, hr, hle⟩
        have h0 := (hsplit t 0).mpr ⟨r, hr, by omega⟩
        exact (h0.resolve_right fun hc => absurd (hpos t 0 hc) (Nat.lt_irrefl 0)).1
    rw [hE.thread]
    by_cases ht : t ∈ E
    · rw [if_pos ht]
      obtain ⟨r, hr, hle⟩ := hE'.mp ht
      exact ⟨fun hc => ThreadState.noConfusion hc,
        fun hc => absurd (hc.2 r hr) (Nat.not_lt.mpr hle)⟩
    · rw [if_neg ht]
      refine ⟨fun hp => ⟨hp, fun r hr => ?_⟩, fun hc => hc.1⟩
      exact Nat.lt_of_not_le fun hle => ht (hE'.mpr ⟨r, hr, hle⟩)
  · intro t
    rw [hE.thread]
    split_ifs
    · exact Or.inr rfl
    · exact Or.inl rfl

end Step

/-- The address of a `dnode`. -/
def WNode.IsDnode : WNode Tid Qid Pid → Prop
  | .queue _ => True
  | .handle _ => True
  | .poll _ => False

instance decIsDnode : (n : WNode Tid Qid Pid) → Decidable n.IsDnode
  | .poll _ => inferInstanceAs (Decidable False)
  | .queue _ | .handle _ => isTrue trivial

def Linked (wait : WaitMem Tid Qid Pid) (n : WNode Tid Qid Pid) : Prop :=
  ((next wait n).IsDnode ∧ prev wait (next wait n) = n)
    ∧ (prev wait n).IsDnode ∧ next wait (prev wait n) = n
deriving Decidable

def LoopUnlinksLinked (cfg : Config Tid Qid) : Nat → Kernel Tid Qid Pid D → Prop
  | 0, _ => True
  | fuel + 1, k =>
      ∀ t, (tqueuePop k.timeouts).2 = some t →
        Linked k.wait (.handle t)
          ∧ LoopUnlinksLinked cfg fuel (zExpire cfg (k.setTimeouts (tqueuePop k.timeouts).1) t)

def UnlinksLinked (cfg : Config Tid Qid) (k : Kernel Tid Qid Pid D) : Prop :=
  LoopUnlinksLinked cfg (Fintype.card Tid) (k.setTimeouts
    (tqueueShift cfg.deltaBits (Fintype.card Tid) k.timeouts cfg.sliceTicks.toNat))

section Unlink

variable {k : Kernel Tid Qid Pid D} {ring : List Tid} {timeq : List (Tid × Nat)}
variable {w : Qid → List Tid} {t : Tid}

theorem SelfLinked.linked {wait : WaitMem Tid Qid Pid} (h : SelfLinked wait (.handle t)) :
    Linked wait (.handle t) := by
  rw [Linked, h.1, h.2]
  exact ⟨⟨trivial, rfl⟩, trivial, h.1⟩

theorem KInv.linked (h : KInv cfg k ⟨ring, timeq, handles w⟩)
    (hw : (k.thread t).wakeupSched = true) : Linked k.wait (.handle t) := by
  by_cases hu : Unqueued (handles w) (.handle t : WNode Tid Qid Pid)
  · exact (h.clean t hw hu).linked
  · obtain ⟨q, hq⟩ : ∃ q, (.handle t : WNode Tid Qid Pid) ∈ handles w q := by
      by_contra hc
      exact hu fun q hq => hc ⟨q, hq⟩
    have hring := h.wait.ringed q
    have hnode : ∀ n ∈ (.queue q : WNode Tid Qid Pid) :: handles w q, n.IsDnode := by
      intro n hn
      rcases mem_cons.mp hn with rfl | hn
      · trivial
      · obtain ⟨x, -, rfl⟩ := mem_map.mp hn
        trivial
    have hmem := mem_cons_of_mem (.queue q) hq
    exact ⟨⟨hnode _ (hring.next_mem hmem), hring.prev_next hmem⟩,
      hnode _ (hring.prev_mem hmem), hring.next_prev hmem⟩

theorem dropNode_handles (w : Qid → List Tid) (t : Tid) :
    dropNode (handles w) (.handle t : WNode Tid Qid Pid) = handles fun q => (w q).erase t := by
  funext q
  refine (map_erase ?_ (w q)).symm
  intro a b hab
  injection hab

theorem KerInv.loop {fuel : Nat} (h : KerInv cfg k timeq) : LoopUnlinksLinked cfg fuel k := by
  induction fuel generalizing k timeq with
  | zero => trivial
  | succ fuel ih =>
    intro t hpop
    obtain ⟨ring, w, hk⟩ := h
    have hrep := hk.sched.timeouts
    cases timeq with
    | nil =>
      rw [tqueuePop_nil hrep] at hpop
      exact absurd hpop.symm (Option.some_ne_none t)
    | cons hd rest =>
      obtain ⟨x, d⟩ := hd
      by_cases hd : d = 0
      · subst hd
        rw [(tqueuePop_spec hrep).1] at hpop
        obtain rfl : x = t := Option.some.inj hpop
        have hw : (k.thread x).wakeupSched = true := by
          rw [← hk.timed]
          exact mem_cons_self
        have hexp := hk.expire rfl
        rw [dropNode_handles] at hexp
        exact ⟨hk.linked hw, ih ⟨_, _, hexp⟩⟩
      · rw [tqueuePop_pending hrep hd] at hpop
        exact absurd hpop.symm (Option.some_ne_none t)

/-- **ONE OPERATION** keeps the invariant. -/
theorem KerInv.run (h : KerInv cfg k timeq) {op : KerOp cfg D} (ha : op.Allowed k)
    (hc : op.Careful k) : ∃ timeq', KerInv cfg (op.run k) timeq' := by
  by_cases hop : op.isCall = true
  · obtain ⟨timeq', hinv, -⟩ := h.call ha hc hop
    exact ⟨timeq', hinv⟩
  · cases op with
    | schedEnter =>
      obtain ⟨timeq', hinv, -⟩ := h.schedEnter
      exact ⟨timeq', hinv⟩
    | _ => exact absurd rfl hop

theorem ColdBoot.kerInv (h : ColdBoot cfg k ring) : KerInv cfg k [] := ⟨ring, fun _ => [], h.kinv⟩

/-- **EXPIRY** in a careful run: `z_sched_enter` only unlinks linked nodes. -/
theorem expiry_unlinks_linked (h : KerReach cfg (fun k op => op.Careful k) k) :
    UnlinksLinked cfg k := by
  obtain ⟨timeq, ring, w, hk⟩ : ∃ timeq, KerInv cfg k timeq := by
    refine Reach.invariant (P := fun k => ∃ timeq, KerInv cfg k timeq) h ?_ ?_
    · rintro k ⟨ring, hboot⟩
      exact ⟨[], hboot.kerInv⟩
    · rintro k op ⟨timeq, hinv⟩ hok
      exact hinv.run hok.1 hok.2
  exact KerInv.loop ⟨ring, w, hk.shift⟩

end Unlink

def zeroBoot : Kernel (Fin 4) Unit Unit Unit :=
  { smallBoot Unit Unit Unit with
    wait := fun n =>
      match n with
      | .queue q => ⟨.queue q, .queue q⟩
      | _ => ⟨.poll (), .poll ()⟩ }

theorem zeroBoot_cold : ColdBoot (smallConfig Unit) zeroBoot [0, 1, 2] := by
  have h := (smallBoot_boot : ColdBoot (smallConfig Unit) (smallBoot Unit Unit Unit) _)
  exact ⟨h.ringed, h.head, h.runQueue, h.count, h.idle, h.state, h.wakeup, h.timeouts,
    fun _ => ⟨rfl, rfl⟩, h.fault⟩

def zeroWaits : Kernel (Fin 4) Unit Unit Unit :=
  ([.pendOn () 1, .pendOn () (kForever _)] :
    List (KerOp (smallConfig Unit) Unit)).foldl KerOp.run zeroBoot

theorem expiry_unlinks_linked_waits :
    KerReach (smallConfig Unit) (fun k op => op.Careful k) zeroWaits
      ∧ ((zSchedEnter (smallConfig Unit) zeroWaits).thread 0).state = .ready
      ∧ UnlinksLinked (smallConfig Unit) zeroWaits := by
  have hreach : KerReach (smallConfig Unit) (fun k op => op.Careful k) zeroWaits :=
    Reach.foldl (.start ⟨_, zeroBoot_cold⟩) (by decide)
  exact ⟨hreach, by decide, expiry_unlinks_linked hreach⟩

/-- Thread 0 sleeps for one tick. -/
def zeroSleeps : Kernel (Fin 4) Unit Unit Unit :=
  (.sleep 1 : KerOp (smallConfig Unit) Unit).run zeroBoot

/-- **A HANDLE THAT WAS NEVER WRITTEN**: the end of the first sleep of a thread
    unlinks a node whose links are `NULL`. -/
theorem expiry_unlinks_null :
    KerReach (smallConfig Unit) (fun _ _ => True) zeroSleeps
      ∧ next zeroSleeps.wait (.handle 0 : WNode (Fin 4) Unit Unit) = .poll ()
      ∧ ¬ UnlinksLinked (smallConfig Unit) zeroSleeps := by
  have hstart : KerReach (smallConfig Unit) (fun _ _ => True) zeroBoot :=
    .start ⟨_, zeroBoot_cold⟩
  have hreach := Reach.step (.sleep 1 : KerOp (smallConfig Unit) Unit) hstart
    ⟨by decide, trivial⟩
  refine ⟨hreach, rfl, ?_⟩
  intro h
  have hlinked := (h 0 (by decide)).1
  exact absurd hlinked (by decide)

end AvrtosKernel
