import Avrtos.Calls

/-! # What the result of a wait says

    Two flags tell the cause; each step keeps flags and history in step. -/

namespace AvrtosKernel

open Function List AvrtosDefines AvrtosDlist AvrtosTqueue Cells LinkedRing LinkedChain DeltaList
open Runs

variable {Tid Qid Pid D : Type} [Threads Tid]
variable [DecidableEq Qid] [DecidableEq Pid]

section Released

variable (cfg : Config Tid Qid)

def unpendedBy (q : Qid) (mark : Thread D → Thread D) :
    Nat → Kernel Tid Qid Pid D → List Tid
  | 0, _ => []
  | fuel + 1, k =>
      let r := zUnpendFirstThread cfg k q
      match r.2 with
      | none => []
      | some t => t :: unpendedBy q mark fuel (r.1.modThread t mark)

def expiredBy : Nat → Kernel Tid Qid Pid D → List Tid
  | 0, _ => []
  | fuel + 1, k =>
      let r := tqueuePop k.timeouts
      match r.2 with
      | none => []
      | some t => t :: expiredBy fuel (zExpire cfg (k.setTimeouts r.1) t)

def schedEntered (k : Kernel Tid Qid Pid D) : List Tid :=
  expiredBy cfg (Fintype.card Tid) (k.setTimeouts
    (tqueueShift cfg.deltaBits (Fintype.card Tid) k.timeouts cfg.sliceTicks.toNat))

variable {cfg} {k : Kernel Tid Qid Pid D} {s : Shape Tid Qid Pid} {q : Qid}

theorem KBase.unpendedBy {mark : Thread D → Thread D} (hm : Marks mark) {l : List Tid}
    {fuel : Nat} (hl : l.length ≤ fuel) (h : KBase cfg k s)
    (hq : s.waitq q = l.map .handle) : unpendedBy cfg q mark fuel k = l := by
  induction l generalizing fuel k s with
  | nil =>
    obtain ⟨hnone, -⟩ := h.unpend_nil hq
    cases fuel with
    | zero => rfl
    | succ fuel => simp only [AvrtosKernel.unpendedBy, hnone]
  | cons t l ih =>
    obtain ⟨fuel, rfl⟩ : ∃ n, fuel = n + 1 :=
      Nat.exists_eq_succ_of_ne_zero (Nat.ne_of_gt (Nat.lt_of_lt_of_le (Nat.succ_pos _) hl))
    obtain ⟨hsome, hinv, hthread, -⟩ := h.unpend_handle hq
    have hinv₁ := hinv.modThread (t := t) mark (hm.state _) (hm.wakeupSched _) (by
      rw [hthread, update_self]
      exact fun hc => ThreadState.noConfusion hc)
    have hrest := ih (Nat.le_of_succ_le_succ hl) hinv₁ (update_self ..)
    simp only [AvrtosKernel.unpendedBy, hsome, hrest]

theorem KInv.expiredBy {E : List Tid} {rest : List (Tid × Nat)} {fuel : Nat}
    (hf : s.timeq.length ≤ fuel) (h : KInv cfg k s) (hq : s.timeq = E.map (·, 0) ++ rest)
    (hdue : ∀ a l, rest ≠ (a, 0) :: l) : expiredBy cfg fuel k = E := by
  induction fuel generalizing k s E with
  | zero =>
    have hnil : s.timeq = [] := length_eq_zero_iff.mp (Nat.le_zero.mp hf)
    rw [hnil] at hq
    have hE := (append_eq_nil_iff.mp hq.symm).1
    exact (map_eq_nil_iff.mp hE).symm
  | succ fuel ih =>
    have hrep := h.sched.timeouts
    cases E with
    | nil =>
      have hnone : (tqueuePop k.timeouts).2 = none := by
        rw [hq] at hrep
        cases rest with
        | nil => rw [tqueuePop_nil hrep]
        | cons hd rest =>
          obtain ⟨a, d⟩ := hd
          have hd : d ≠ 0 := fun hc => hdue a rest (by rw [hc])
          rw [tqueuePop_pending hrep hd]
      simp only [AvrtosKernel.expiredBy, hnone]
    | cons t E =>
      have hq' : s.timeq = (t, 0) :: (E.map (·, 0) ++ rest) := hq
      have hexp := h.expire hq'
      rw [hq'] at hrep hf
      have hpop : (tqueuePop k.timeouts).2 = some t := by
        rw [(tqueuePop_spec hrep).1]
      have hrest := ih (Nat.le_of_succ_le_succ hf) hexp rfl
      simp only [AvrtosKernel.expiredBy, hpop, hrest]

theorem KInv.schedEntered (h : KInv cfg k s) : (schedEntered cfg k).Nodup
      ∧ (∀ t ∈ schedEntered cfg k, (k.thread t).state = .pending)
      ∧ ∀ t, (zSchedEnter cfg k).thread t
          = if t ∈ schedEntered cfg k then (k.thread t).expired else k.thread t := by
  obtain ⟨s', E, hinv, hE, hq, hdue⟩ := h.schedEnter_due
  have hlist : AvrtosKernel.schedEntered cfg k = E :=
    h.shift.expiredBy h.shift.sched.timeq_length_le hq hdue
  rw [hlist]
  refine ⟨?_, fun t ht => h.wakeup t (hE.timed t ht), hE.thread⟩
  have hnd := h.shift.timeq_nodup
  replace hq : ((shiftDelta cfg.sliceTicks.toNat s.timeq).map Prod.fst)
      = E ++ s'.timeq.map Prod.fst := by
    rw [hq, map_append, map_map]
    exact congrArg (· ++ _) (map_id E)
  rw [hq] at hnd
  exact hnd.of_append_left

end Released

/-- What ends a wait. -/
inductive Cause where
  | granted
  | expired
  | cancelled
deriving DecidableEq, Repr

def Cause.result : Cause → Int
  | .granted => 0
  | .expired => -ETIMEDOUT
  | .cancelled => -ECANCELED

/-- A wait that has returned. -/
structure Return (Tid : Type) where
  thread : Tid
  value : Int
  causes : List Cause
deriving DecidableEq, Repr

structure CauseSys (Tid Qid D : Type) where
  calls : Calls Tid Qid D Unit
  causes : Tid → List Cause
  returns : List (Return Tid)

/-- The operations of a run. -/
inductive CauseOp (cfg : Config Tid Qid) (D : Type) where
  | pendOn (q : Qid) (timeout : cfg.Timeout)
  | unpend (q : Qid)
  | unpendAndSwap (q : Qid) (data : Option D)
  | cancelFirst (q : Qid)
  | cancelAll (q : Qid)
  | schedEnter
  | yield

variable {cfg : Config Tid Qid}

/-- Only threads block. -/
def CauseOp.Allowed (st : CauseSys Tid Qid D) : CauseOp cfg D → Prop
  | .pendOn _ timeout => timeout ≠ kNoWait cfg → st.calls.ker.current ≠ cfg.idle
  | _ => True

instance decCauseAllowed (st : CauseSys Tid Qid D) :
    (op : CauseOp cfg D) → Decidable (op.Allowed st)
  | .pendOn _ _ => inferInstanceAs (Decidable (_ → _))
  | .unpend _ | .unpendAndSwap _ _ | .cancelFirst _ | .cancelAll _ | .schedEnter | .yield =>
      isTrue trivial

def CauseSys.event (st : CauseSys Tid Qid D) (c : Cause) (l : List Tid)
    (k' : Kernel Tid Qid Empty D) : CauseSys Tid Qid D :=
  { st with
    calls := { st.calls with ker := k' }
    causes := fun t => st.causes t ++ replicate (l.count t) c }

def CauseSys.resume (st : CauseSys Tid Qid D) : CauseSys Tid Qid D :=
  let t := st.calls.ker.current
  match st.calls.frame t with
  | none => st
  | some _ =>
      { calls := st.calls.resume
        causes := update st.causes t []
        returns := ⟨t, zPendResult (st.calls.ker.thread t), st.causes t⟩ :: st.returns }

/-- The state after an operation. -/
def CauseOp.run (st : CauseSys Tid Qid D) : CauseOp cfg D → CauseSys Tid Qid D
  | .pendOn q timeout =>
      let r := zPendCurrentOn cfg st.calls.ker (some q) timeout
      match r.2 with
      | some _ => { st with calls := { st.calls with ker := r.1 } }
      | none => { st with calls := st.calls.leave r.1 q () }.resume
  | .unpend q =>
      let r := zUnpendFirstThread cfg st.calls.ker q
      st.event .granted r.2.toList r.1
  | .unpendAndSwap q data =>
      let r := zUnpendFirstAndSwap cfg st.calls.ker q data
      st.event .granted r.2.toList r.1
  | .cancelFirst q =>
      st.event .cancelled (zUnpendFirstThread cfg st.calls.ker q).2.toList
        (zCancelFirstPending cfg st.calls.ker q)
  | .cancelAll q =>
      st.event .cancelled (unpendedBy cfg q Thread.cancel (Fintype.card Tid) st.calls.ker)
        (zCancelAllPending cfg st.calls.ker q).1
  | .schedEnter =>
      st.event .expired (schedEntered cfg st.calls.ker) (zSchedEnter cfg st.calls.ker)
  | .yield => { st with calls := { st.calls with ker := zScheduler st.calls.ker } }.resume

def causeBoot (k : Kernel Tid Qid Empty D) : CauseSys Tid Qid D where
  calls := callsBoot k
  causes := fun _ => []
  returns := []

/-- The states of the runs. -/
def CauseReach (cfg : Config Tid Qid) : CauseSys Tid Qid D → Prop :=
  Reach (fun st => ∃ k ring, ColdBoot cfg k ring ∧ st = causeBoot k)
    (fun st (op : CauseOp cfg D) => op.Allowed st) CauseOp.run

def Return.Right (r : Return Tid) : Prop :=
  ∃ c, r.causes = [c] ∧ (r.value = 0 ↔ c = .granted)
    ∧ (r.value = -ETIMEDOUT ↔ c = .expired) ∧ (r.value = -ECANCELED ↔ c = .cancelled)

structure CauseInv (cfg : Config Tid Qid) (st : CauseSys Tid Qid D) (w : Qid → List Tid) :
    Prop where
  base : CallsBase cfg st.calls w
  framed : ∀ t, (st.calls.ker.thread t).state = .pending → st.calls.frame t ≠ none
  free : ∀ t, st.calls.frame t = none → st.causes t = []
  waiting : ∀ t, (st.calls.ker.thread t).state = .pending → st.causes t = []
  ended : ∀ t f, st.calls.frame t = some f → (st.calls.ker.thread t).state ≠ .pending →
    ∃ c, st.causes t = [c] ∧ zPendResult (st.calls.ker.thread t) = c.result
  returns : ∀ r ∈ st.returns, r.Right

section Steps

variable {st : CauseSys Tid Qid D} {w : Qid → List Tid}

omit [Threads Tid] in
theorem Cause.right (t : Tid) (c : Cause) : (⟨t, c.result, [c]⟩ : Return Tid).Right := by
  refine ⟨c, rfl, ?_⟩
  show (c.result = 0 ↔ _) ∧ (c.result = -ETIMEDOUT ↔ _) ∧ (c.result = -ECANCELED ↔ _)
  cases c <;> decide

theorem CauseInv.resume (h : CauseInv cfg st w) :
    CauseInv cfg st.resume w ∧ st.resume.calls.frame st.resume.calls.ker.current = none := by
  have hnp := h.base.current_not_pending
  cases hf : st.calls.frame st.calls.ker.current with
  | none =>
    have hs : st.resume = st := by
      simp only [CauseSys.resume, hf]
    rw [hs]
    exact ⟨h, hf⟩
  | some f =>
    have hs : st.resume
        = { calls := st.calls.resume
            causes := update st.causes st.calls.ker.current []
            returns := ⟨st.calls.ker.current,
              zPendResult (st.calls.ker.thread st.calls.ker.current),
              st.causes st.calls.ker.current⟩ :: st.returns } := by
      simp only [CauseSys.resume, hf]
    rw [hs]
    refine ⟨⟨h.base.resume.toCallsBase, ?_, ?_, ?_, ?_, ?_⟩, h.base.resume.running⟩
    · intro t ht
      have hne : t ≠ st.calls.ker.current := by
        rintro rfl
        exact hnp ht
      show update st.calls.frame st.calls.ker.current none t ≠ none
      rw [update_of_ne hne]
      exact h.framed t ht
    · intro t ht
      show update st.causes st.calls.ker.current [] t = []
      by_cases hne : t = st.calls.ker.current
      · rw [hne, update_self]
      · rw [update_of_ne hne]
        replace ht : update st.calls.frame st.calls.ker.current none t = none := ht
        rw [update_of_ne hne] at ht
        exact h.free t ht
    · intro t ht
      have hne : t ≠ st.calls.ker.current := by
        rintro rfl
        exact hnp ht
      show update st.causes st.calls.ker.current [] t = []
      rw [update_of_ne hne]
      exact h.waiting t ht
    · intro t f' hf' ht
      replace hf' : update st.calls.frame st.calls.ker.current none t = some f' := hf'
      have hne : t ≠ st.calls.ker.current := by
        rintro rfl
        rw [update_self] at hf'
        exact absurd hf'.symm (Option.some_ne_none f')
      rw [update_of_ne hne] at hf'
      show ∃ c, update st.causes st.calls.ker.current [] t = [c] ∧ _
      rw [update_of_ne hne]
      exact h.ended t f' hf' ht
    · intro r hr
      rcases mem_cons.mp hr with rfl | hr
      · obtain ⟨c, hc, hres⟩ := h.ended _ f hf hnp
        rw [hc, hres]
        exact Cause.right _ c
      · exact h.returns r hr

theorem CauseInv.event (h : CauseInv cfg st w) {k' : Kernel Tid Qid Empty D}
    {w' : Qid → List Tid} {l : List Tid} {c : Cause} (mark : Thread D → Thread D)
    (hbase : CallsBase cfg { st.calls with ker := k' } w') (hnd : l.Nodup)
    (hl : ∀ t ∈ l, (st.calls.ker.thread t).state = .pending)
    (hth : ∀ t, k'.thread t = if t ∈ l then mark (st.calls.ker.thread t)
      else st.calls.ker.thread t)
    (hready : ∀ th, (mark th).state = .ready)
    (hmark : ∀ th, th.timerExpired = false → th.pendCanceled = false →
      zPendResult (mark th) = c.result) :
    CauseInv cfg (st.event c l k') w' := by
  have hother : ∀ t, t ∉ l → k'.thread t = st.calls.ker.thread t
      ∧ (st.event c l k').causes t = st.causes t := by
    intro t ht
    refine ⟨by rw [hth, if_neg ht], ?_⟩
    show st.causes t ++ replicate (l.count t) c = st.causes t
    rw [count_eq_zero_of_not_mem ht, replicate_zero, append_nil]
  have hpend : ∀ t, (k'.thread t).state = .pending → t ∉ l := by
    intro t ht hc
    rw [hth, if_pos hc, hready] at ht
    exact ThreadState.noConfusion ht
  refine ⟨hbase, ?_, ?_, ?_, ?_, h.returns⟩
  · intro t ht
    have htl := hpend t ht
    replace ht : (k'.thread t).state = .pending := ht
    rw [(hother t htl).1] at ht
    exact h.framed t ht
  · intro t ht
    have htl : t ∉ l := fun hc => h.framed t (hl t hc) ht
    rw [(hother t htl).2]
    exact h.free t ht
  · intro t ht
    have htl := hpend t ht
    replace ht : (k'.thread t).state = .pending := ht
    rw [(hother t htl).1] at ht
    rw [(hother t htl).2]
    exact h.waiting t ht
  · intro t f hf ht
    replace ht : (k'.thread t).state ≠ .pending := ht
    by_cases htl : t ∈ l
    · refine ⟨c, ?_, ?_⟩
      · show st.causes t ++ replicate (l.count t) c = [c]
        rw [h.waiting t (hl t htl), count_eq_one_of_mem hnd htl]
        rfl
      · obtain ⟨h1, h2⟩ := h.base.flags (hl t htl)
        show zPendResult (k'.thread t) = _
        rw [hth, if_pos htl]
        exact hmark _ h1 h2
    · obtain ⟨hsame, hcauses⟩ := hother t htl
      rw [hsame] at ht
      obtain ⟨c', hc', hres⟩ := h.ended t f hf ht
      refine ⟨c', hcauses.trans hc', ?_⟩
      show zPendResult (k'.thread t) = _
      rw [hsame]
      exact hres

theorem CallsInv.cancelFirst {κ : Type} {c : Calls Tid Qid D κ} (h : CallsInv cfg c w)
    (q : Qid) :
    CallsInv cfg { c with ker := zCancelFirstPending cfg c.ker q }
        (update w q (w q).tail)
      ∧ ∀ x, (zCancelFirstPending cfg c.ker q).thread x
          = if (w q).head? = some x then (c.ker.thread x).woken.cancel
            else c.ker.thread x := by
  obtain ⟨hret, hinv, hth, -⟩ := h.unpend q
  cases hw : (w q).head? with
  | none =>
    rw [hw] at hret
    simp only [zCancelFirstPending, hret]
    refine ⟨hinv, fun x => ?_⟩
    rw [hth, hw]
    rfl
  | some t =>
    rw [hw] at hret
    have hready : ((zUnpendFirstThread cfg c.ker q).1.thread t) = (c.ker.thread t).woken := by
      rw [hth, if_pos hw]
    simp only [zCancelFirstPending, hret]
    refine ⟨hinv.modThread t rfl rfl ?_, fun x => ?_⟩
    · intro hp
      replace hp : ((zUnpendFirstThread cfg c.ker q).1.thread t).state = .pending := hp
      rw [hready] at hp
      exact ThreadState.noConfusion hp
    · show update (zUnpendFirstThread cfg c.ker q).1.thread t _ x = _
      rw [update_apply]
      by_cases hx : x = t
      · subst hx
        rw [if_pos rfl, if_pos rfl, hready]
        rfl
      · have hx' : ¬ some t = some x := fun hc => hx (Option.some.inj hc).symm
        rw [if_neg hx, if_neg hx', hth, hw, if_neg hx']

theorem zPendResult_woken_cancel (th : Thread D) (h1 : th.timerExpired = false)
    (_ : th.pendCanceled = false) :
    zPendResult th.woken.cancel = Cause.cancelled.result := by
  show zPendResult th.woken.cancel = -ECANCELED
  simp only [zPendResult, Thread.woken, Thread.cancel, h1, Bool.false_eq_true, if_false, if_true]

theorem CauseInv.switch (h : CauseInv cfg st w) {c' : Calls Tid Qid D Unit}
    {w' : Qid → List Tid} (hrun : st.calls.frame st.calls.ker.current = none)
    (hbase : CallsBase cfg c' w')
    (hpend : (c'.ker.thread st.calls.ker.current).state = .pending ∨
      c'.frame st.calls.ker.current = none)
    (hframed : (c'.ker.thread st.calls.ker.current).state = .pending →
      c'.frame st.calls.ker.current ≠ none)
    (hth : ∀ t, t ≠ st.calls.ker.current → c'.ker.thread t = st.calls.ker.thread t)
    (hfr : ∀ t, t ≠ st.calls.ker.current → c'.frame t = st.calls.frame t) :
    CauseInv cfg ({ st with calls := c' }).resume w'
      ∧ ({ st with calls := c' }).resume.calls.frame
        ({ st with calls := c' }).resume.calls.ker.current = none := by
  refine CauseInv.resume ⟨hbase, ?_, ?_, ?_, ?_, h.returns⟩
  · intro t ht
    by_cases hx : t = st.calls.ker.current
    · subst hx
      exact hframed ht
    · replace ht : (c'.ker.thread t).state = .pending := ht
      rw [hth t hx] at ht
      show c'.frame t ≠ none
      rw [hfr t hx]
      exact h.framed t ht
  · intro t ht
    by_cases hx : t = st.calls.ker.current
    · subst hx
      exact h.free _ hrun
    · replace ht : c'.frame t = none := ht
      rw [hfr t hx] at ht
      exact h.free t ht
  · intro t ht
    by_cases hx : t = st.calls.ker.current
    · subst hx
      exact h.free _ hrun
    · replace ht : (c'.ker.thread t).state = .pending := ht
      rw [hth t hx] at ht
      exact h.waiting t ht
  · intro t f hf ht
    have hx : t ≠ st.calls.ker.current := by
      rintro rfl
      rcases hpend with hp | hn
      · exact ht hp
      · exact Option.some_ne_none f (hf.symm.trans hn)
    replace hf : c'.frame t = some f := hf
    replace ht : (c'.ker.thread t).state ≠ .pending := ht
    rw [hfr t hx] at hf
    rw [hth t hx] at ht
    obtain ⟨c, hc, hres⟩ := h.ended t f hf ht
    refine ⟨c, hc, ?_⟩
    show zPendResult (c'.ker.thread t) = _
    rw [hth t hx]
    exact hres

def CauseOk (cfg : Config Tid Qid) (st : CauseSys Tid Qid D) : Prop :=
  (∃ w, CauseInv cfg st w) ∧ st.calls.frame st.calls.ker.current = none

/-- **ONE OPERATION** keeps the invariant. -/
theorem CauseOk.run (h : CauseOk cfg st) {op : CauseOp cfg D} (ha : op.Allowed st) :
    CauseOk cfg (op.run st) := by
  obtain ⟨⟨w, hi⟩, hrun⟩ := h
  have hc : CallsInv cfg st.calls w := ⟨hi.base, hrun⟩
  have hhead : ∀ q, (w q).head?.toList.Nodup
      ∧ ∀ t, t ∈ (w q).head?.toList ↔ (w q).head? = some t := by
    intro q
    refine ⟨?_, fun t => Option.mem_toList⟩
    cases (w q).head? with
    | none => exact nodup_nil
    | some t => exact nodup_singleton t
  have hpend : ∀ q, ∀ t ∈ (w q).head?.toList, (st.calls.ker.thread t).state = .pending :=
    fun q t ht => hi.base.pending_of_mem (mem_of_mem_head? (((hhead q).2 t).mp ht))
  cases op with
  | pendOn q timeout =>
    by_cases hn : timeout = kNoWait cfg
    · have hr : zPendCurrentOn cfg st.calls.ker (some q) timeout
          = (st.calls.ker, some (-EAGAIN)) := by
        rw [zPendCurrentOn, if_pos hn]
      simp only [CauseOp.run, hr]
      exact ⟨⟨w, hi⟩, hrun⟩
    · obtain ⟨hnone, hbase, hth, -⟩ := hc.leave (ha hn) q () hn
      simp only [CauseOp.run, hnone]
      have hself : ((zPendCurrentOn cfg st.calls.ker (some q) timeout).1.thread
          st.calls.ker.current).state = .pending := by
        rw [hth, if_pos rfl]
        rfl
      obtain ⟨hinv, hfree⟩ := hi.switch hrun hbase (Or.inl hself)
        (fun _ => by
          rw [Calls.frame_leave_self]
          exact Option.some_ne_none _)
        (fun t ht => (hth t).trans (if_neg ht))
        (fun t ht => Calls.frame_leave_of_ne ht)
      exact ⟨⟨_, hinv⟩, hfree⟩
  | unpend q =>
    obtain ⟨hret, hinv, hth, hcur⟩ := hc.unpend q
    simp only [CauseOp.run, hret]
    refine ⟨⟨_, hi.event Thread.woken hinv.toCallsBase (hhead q).1 (hpend q) ?_
      (fun _ => rfl) ?_⟩, hinv.running⟩
    · intro t
      rw [hth, if_congr ((hhead q).2 t) rfl rfl]
    · exact fun th h1 h2 => zPendResult_eq_zero.mpr ⟨h1, h2⟩
  | unpendAndSwap q data =>
    obtain ⟨hret, hinv, hth, hcur⟩ := hc.unpendAndSwap q data
    simp only [CauseOp.run, hret]
    refine ⟨⟨_, hi.event (fun th => { th.woken with swapData := data })
      hinv.toCallsBase (hhead q).1 (hpend q) ?_ (fun _ => rfl) ?_⟩, hinv.running⟩
    · intro t
      rw [hth, if_congr ((hhead q).2 t) rfl rfl]
    · exact fun th h1 h2 => zPendResult_eq_zero.mpr ⟨h1, h2⟩
  | cancelFirst q =>
    obtain ⟨hret, -, -, -⟩ := hc.unpend q
    obtain ⟨hinv, hth⟩ := hc.cancelFirst q
    simp only [CauseOp.run, hret]
    refine ⟨⟨_, hi.event (fun th => th.woken.cancel) hinv.toCallsBase (hhead q).1 (hpend q)
      ?_ (fun _ => rfl) zPendResult_woken_cancel⟩, hinv.running⟩
    intro t
    rw [hth, if_congr ((hhead q).2 t) rfl rfl]
  | cancelAll q =>
    obtain ⟨hinv, hth, hcur, -⟩ := hc.unpendAll marks_cancel q
    obtain ⟨ring, timeq, hk⟩ := hc.kernel
    have hq : handles w q = ((w q).map .handle : List (WNode Tid Qid Empty)) := rfl
    have hlist : unpendedBy cfg q Thread.cancel (Fintype.card Tid) st.calls.ker = w q :=
      hk.toKBase.unpendedBy marks_cancel (hk.wait.length_le hq) hq
    simp only [CauseOp.run, hlist]
    refine ⟨⟨_, hi.event (fun th => th.woken.cancel) hinv.toCallsBase
      hi.base.nodup (fun t ht => hi.base.pending_of_mem ht) hth (fun _ => rfl)
      zPendResult_woken_cancel⟩, hinv.running⟩
  | schedEnter =>
    obtain ⟨E, -, hinv, -, -⟩ := hc.schedEnter
    obtain ⟨ring, timeq, hk⟩ := hc.kernel
    obtain ⟨hnd, hp, hth⟩ := hk.schedEntered
    refine ⟨⟨_, hi.event Thread.expired hinv.toCallsBase hnd hp hth
      (fun _ => rfl) ?_⟩, hinv.running⟩
    exact fun th _ _ => if_pos rfl
  | yield =>
    obtain ⟨hbase, hth⟩ := hc.yield
    obtain ⟨hinv, hfree⟩ := hi.switch hrun hbase (Or.inr hrun)
      (fun hp => by
        refine absurd ?_ hi.base.current_not_pending
        replace hp : ((zScheduler st.calls.ker).thread st.calls.ker.current).state = .pending := hp
        rw [hth, if_pos rfl] at hp
        exact hp)
      (fun t ht => (hth t).trans (if_neg ht)) (fun _ _ => rfl)
    exact ⟨⟨_, hinv⟩, hfree⟩

end Steps

section Runs

variable {st : CauseSys Tid Qid D}

theorem CauseReach.ok (h : CauseReach cfg st) : CauseOk cfg st := by
  refine Reach.invariant h ?_ ?_
  · rintro st ⟨k, ring, hboot, rfl⟩
    refine ⟨⟨fun _ => [], hboot.callsInv.toCallsBase, ?_, fun _ _ => rfl, fun _ _ => rfl, ?_,
      ?_⟩, rfl⟩
    · exact fun t ht => absurd ht (hboot.not_pending t)
    · exact fun t f hf => absurd hf.symm (Option.some_ne_none f)
    · exact fun r hr => absurd hr not_mem_nil
  · exact fun st op hok ha => hok.run ha

/-- **CAUSES**: every wait that has returned was ended by one event, and the value says by which
    kind. -/
theorem wait_result_tells_cause (h : CauseReach cfg st) :
    (∀ r ∈ st.returns, r.Right)
      ∧ (∀ t, (st.calls.ker.thread t).state = .pending → st.causes t = []
          ∧ (st.calls.ker.thread t).timerExpired = false
          ∧ (st.calls.ker.thread t).pendCanceled = false)
      ∧ (∀ t f, st.calls.frame t = some f → (st.calls.ker.thread t).state ≠ .pending →
          ∃ c, st.causes t = [c])
      ∧ ∀ q, zPendCurrentOn cfg st.calls.ker (some q) (kNoWait cfg)
          = (st.calls.ker, some (-EAGAIN)) := by
  obtain ⟨⟨w, hi⟩, -⟩ := h.ok
  refine ⟨hi.returns, ?_, ?_, fun q => if_pos rfl⟩
  · exact fun t ht => ⟨hi.waiting t ht, hi.base.flags ht⟩
  · intro t f hf ht
    obtain ⟨c, hc, -⟩ := hi.ended t f hf ht
    exact ⟨c, hc⟩

end Runs

def waitsTwice : CauseSys (Fin 4) Unit Unit :=
  ([.pendOn () 1, .schedEnter, .yield, .pendOn () 2, .unpend (), .cancelAll (),
    .schedEnter, .schedEnter, .yield] :
    List (CauseOp (smallConfig Unit) Unit)).foldl CauseOp.run
      (causeBoot (smallBoot Unit Empty Unit))

theorem wait_result_tells_cause_twice :
    CauseReach (smallConfig Unit) waitsTwice
      ∧ waitsTwice.returns = [⟨0, 0, [.granted]⟩, ⟨0, -ETIMEDOUT, [.expired]⟩]
      ∧ ∀ r ∈ waitsTwice.returns, r.Right := by
  have hreach : CauseReach (smallConfig Unit) waitsTwice :=
    Reach.foldl (.start ⟨_, _, smallBoot_boot, rfl⟩) (by decide)
  exact ⟨hreach, by decide +kernel, (wait_result_tells_cause hreach).1⟩

end AvrtosKernel
