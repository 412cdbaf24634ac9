import Avrtos.StartAbort

/-! # Joining threads

    The joiners are released in the middle of a suspension; their flags say what they will be
    told. -/

namespace AvrtosJoin

open Function List
open AvrtosDefines AvrtosDlist AvrtosKernel AvrtosAbort AvrtosStartAbort Cells LinkedRing Runs

variable {Tid Qid : Type} [Threads Tid] [DecidableEq Qid]

/-- `k_thread_join`, up to a switch. -/
def kThreadJoin (cfg : Config Tid Qid) (join : Tid → Qid) (k : Kernel Tid Qid Empty Nat)
    (t : Tid) (timeout : cfg.Timeout) : Kernel Tid Qid Empty Nat × Option Int :=
  if (k.thread t).state = .stopped then (k, some 0)
  else zPendCurrentOn cfg k (some (join t)) timeout

structure JoinSys (Tid Qid : Type) where
  calls : Calls Tid Qid Nat Unit
  returned : Tid → List Int

def JoinSys.log (st : JoinSys Tid Qid) (ret : Int) : Tid → List Int :=
  update st.returned st.calls.ker.current
    (st.returned st.calls.ker.current ++ [ret])

def JoinSys.finish (st : JoinSys Tid Qid) : JoinSys Tid Qid :=
  match st.calls.frame st.calls.ker.current with
  | none => st
  | some _ =>
      { calls := st.calls.resume
        returned := st.log (zPendResult (st.calls.ker.thread st.calls.ker.current)) }

/-- The operations of a run. -/
inductive JoinOp (cfg : Config Tid Qid) where
  | join (t : Tid) (timeout : cfg.Timeout)
  | abort (t : Tid)
  | schedEnter
  | yield

def JoinOp.Allowed {cfg : Config Tid Qid} (st : JoinSys Tid Qid) : JoinOp cfg → Prop
  | .join _ _ => st.calls.ker.current ≠ cfg.idle
  | .abort t => st.calls.ker.current ≠ cfg.idle ∧ t ≠ cfg.idle
  | _ => True

def JoinOp.Careful {cfg : Config Tid Qid} (st : JoinSys Tid Qid) : JoinOp cfg → Prop
  | .abort t => (st.calls.ker.thread t).state ≠ .pending
  | _ => True

instance {cfg : Config Tid Qid} (st : JoinSys Tid Qid) :
    (op : JoinOp cfg) → Decidable (op.Allowed st)
  | .join _ _ => inferInstanceAs (Decidable (_ ≠ _))
  | .abort _ => inferInstanceAs (Decidable (_ ∧ _))
  | .schedEnter | .yield => isTrue trivial

instance {cfg : Config Tid Qid} (st : JoinSys Tid Qid) :
    (op : JoinOp cfg) → Decidable (op.Careful st)
  | .abort _ => inferInstanceAs (Decidable (_ ≠ _))
  | .join _ _ | .schedEnter | .yield => isTrue trivial

variable {cfg : Config Tid Qid} {join : Tid → Qid}

/-- The state after an operation. -/
def JoinOp.run (join : Tid → Qid) (st : JoinSys Tid Qid) : JoinOp cfg → JoinSys Tid Qid
  | .join t timeout =>
      let r := kThreadJoin cfg join st.calls.ker t timeout
      match r.2 with
      | some ret => { calls := { st.calls with ker := r.1 }, returned := st.log ret }
      | none => { st with calls := st.calls.leave r.1 (join t) () }.finish
  | .abort t =>
      { st with calls := { st.calls with ker := (kThreadAbort cfg st.calls.ker t).1 } }.finish
  | .schedEnter => { st with calls := { st.calls with ker := zSchedEnter cfg st.calls.ker } }
  | .yield => { st with calls := { st.calls with ker := zScheduler st.calls.ker } }.finish

def JoinReach (cfg : Config Tid Qid) (join : Tid → Qid)
    (ok : JoinSys Tid Qid → JoinOp cfg → Prop) : JoinSys Tid Qid → Prop :=
  Reach (fun st => ∃ k ring, ColdBoot cfg k ring ∧ st = ⟨callsBoot k, fun _ => []⟩)
    (fun st op => op.Allowed st ∧ ok st op) (JoinOp.run join)

variable {st st₁ : JoinSys Tid Qid} {w : Qid → List Tid} {t x : Tid} {v : Int}

omit [DecidableEq Qid] in
theorem JoinSys.finish_of_none (hf : st.calls.frame st.calls.ker.current = none) :
    st.finish = st := by
  simp only [JoinSys.finish, hf]

omit [DecidableEq Qid] in
theorem JoinSys.finish_of_some {f : CallFrame Qid Unit}
    (hf : st.calls.frame st.calls.ker.current = some f) :
    st.finish = ⟨st.calls.resume,
      st.log (zPendResult (st.calls.ker.thread st.calls.ker.current))⟩ := by
  simp only [JoinSys.finish, hf]

omit [DecidableEq Qid] in
theorem JoinSys.finish_ker : st.finish.calls.ker = st.calls.ker := by
  cases hf : st.calls.frame st.calls.ker.current with
  | none => rw [JoinSys.finish_of_none hf]
  | some f =>
    rw [JoinSys.finish_of_some hf]
    rfl

theorem JoinSys.finish_calls (hb : CallsBase cfg st.calls w) : CallsInv cfg st.finish.calls w := by
  cases hf : st.calls.frame st.calls.ker.current with
  | none =>
    rw [JoinSys.finish_of_none hf]
    exact ⟨hb, hf⟩
  | some f =>
    rw [JoinSys.finish_of_some hf]
    exact hb.resume

structure Due (st : JoinSys Tid Qid) (x : Tid) (v : Int) : Prop where
  frame : st.calls.frame x ≠ none
  state : (st.calls.ker.thread x).state ≠ .pending
  result : zPendResult (st.calls.ker.thread x) = v

def Told (base : List Int) (x : Tid) (v : Int) (st : JoinSys Tid Qid) : Prop :=
  (Due st x v ∧ st.returned x = base) ∨ ∃ rest, st.returned x = base ++ v :: rest

structure Undisturbed (st st₁ : JoinSys Tid Qid) : Prop where
  frame : ∀ x, x ≠ st.calls.ker.current → st₁.calls.frame x = st.calls.frame x
  returned : ∀ x, x ≠ st.calls.ker.current → st₁.returned x = st.returned x
  grows : ∀ x, st.returned x <+: st₁.returned x
  due : ∀ x, x ≠ st.calls.ker.current → (st.calls.ker.thread x).state ≠ .pending →
    (st₁.calls.ker.thread x).state ≠ .pending
      ∧ zPendResult (st₁.calls.ker.thread x) = zPendResult (st.calls.ker.thread x)

omit [DecidableEq Qid] in
theorem JoinSys.log_self (ret : Int) :
    st.log ret st.calls.ker.current = st.returned st.calls.ker.current ++ [ret] :=
  update_self ..

omit [DecidableEq Qid] in
theorem JoinSys.log_of_ne (ret : Int) (hx : x ≠ st.calls.ker.current) :
    st.log ret x = st.returned x := update_of_ne hx _ _

omit [DecidableEq Qid] in
theorem JoinSys.log_grows (ret : Int) : st.returned x <+: st.log ret x := by
  by_cases hx : x = st.calls.ker.current
  · rw [hx, JoinSys.log_self]
    exact prefix_append _ _
  · rw [JoinSys.log_of_ne ret hx]

omit [DecidableEq Qid] in
theorem JoinSys.finish_grows : st.returned x <+: st.finish.returned x := by
  cases hf : st.calls.frame st.calls.ker.current with
  | none => rw [JoinSys.finish_of_none hf]
  | some f =>
    rw [JoinSys.finish_of_some hf]
    exact JoinSys.log_grows _

omit [DecidableEq Qid] in
theorem Told.finish {base : List Int} (h : Told base x v st) : Told base x v st.finish := by
  rcases h with ⟨hdue, hlog⟩ | ⟨rest, hlog⟩
  · cases hf : st.calls.frame st.calls.ker.current with
    | none =>
      rw [JoinSys.finish_of_none hf]
      exact Or.inl ⟨hdue, hlog⟩
    | some f =>
      rw [JoinSys.finish_of_some hf]
      by_cases hx : x = st.calls.ker.current
      · refine Or.inr ⟨[], ?_⟩
        subst hx
        exact (JoinSys.log_self _).trans (by rw [hlog, hdue.result])
      · refine Or.inl ⟨⟨?_, hdue.state, hdue.result⟩, (JoinSys.log_of_ne _ hx).trans hlog⟩
        show update st.calls.frame st.calls.ker.current none x ≠ none
        rw [update_of_ne hx]
        exact hdue.frame
  · obtain ⟨more, hmore⟩ : st.returned x <+: st.finish.returned x := JoinSys.finish_grows
    refine Or.inr ⟨rest ++ more, ?_⟩
    rw [← hmore, hlog, append_assoc]
    rfl

theorem Told.undisturbed {base : List Int} (h : Told base x v st)
    (hi : CallsInv cfg st.calls w) (hun : Undisturbed st st₁) : Told base x v st₁ := by
  rcases h with ⟨hdue, hlog⟩ | ⟨rest, hlog⟩
  · have hx : x ≠ st.calls.ker.current := by
      rintro rfl
      exact hdue.frame hi.running
    obtain ⟨hstate, hresult⟩ := hun.due x hx hdue.state
    refine Or.inl ⟨⟨?_, hstate, hresult.trans hdue.result⟩, ?_⟩
    · rw [hun.frame x hx]
      exact hdue.frame
    · rw [hun.returned x hx]
      exact hlog
  · obtain ⟨more, hmore⟩ := hun.grows x
    refine Or.inr ⟨rest ++ more, ?_⟩
    rw [← hmore, hlog, append_assoc]
    rfl

omit [Threads Tid] [DecidableEq Qid] in
theorem Undisturbed.setKer {k' : Kernel Tid Qid Empty Nat}
    (hdue : ∀ x, x ≠ st.calls.ker.current → (st.calls.ker.thread x).state ≠ .pending →
      (k'.thread x).state ≠ .pending
        ∧ zPendResult (k'.thread x) = zPendResult (st.calls.ker.thread x)) :
    Undisturbed st { st with calls := { st.calls with ker := k' } } :=
  ⟨fun _ _ => rfl, fun _ _ => rfl, fun _ => prefix_rfl, hdue⟩

omit [DecidableEq Qid] in
theorem Undisturbed.log (ret : Int) : Undisturbed st { st with returned := st.log ret } :=
  ⟨fun _ _ => rfl, fun _ hx => JoinSys.log_of_ne ret hx, fun _ => JoinSys.log_grows ret,
    fun _ _ hs => ⟨hs, rfl⟩⟩

theorem zPendResult_stop (th : Thread Nat) : zPendResult th.stop = zPendResult th := rfl

def JoinSys.aborted (cfg : Config Tid Qid) (st : JoinSys Tid Qid) (t : Tid) :
    JoinSys Tid Qid :=
  { st with calls := { st.calls with ker := (kThreadAbort cfg st.calls.ker t).1 } }

omit [DecidableEq Qid] in
theorem suspendable_of_running (h : st.calls.ker.current ≠ cfg.idle) :
    Suspendable cfg st.calls.ker t := fun hc => absurd hc h

omit [Threads Tid] [DecidableEq Qid] in
theorem not_waiting (h : (st.calls.ker.thread t).state ≠ .pending) (q : Qid) :
    ¬ st.calls.Waiting q t := fun hc => h hc.1

theorem aborted_undisturbed (hi : CallsInv cfg st.calls w)
    (ha : (JoinOp.abort t : JoinOp cfg).Allowed st)
    (hc : (JoinOp.abort t : JoinOp cfg).Careful st) :
    (∃ w₁, CallsBase cfg (st.aborted cfg t).calls w₁) ∧ Undisturbed st (st.aborted cfg t) := by
  by_cases hs : (st.calls.ker.thread t).state = .stopped
  · have hk : st.aborted cfg t = st := by
      rw [JoinSys.aborted, kThreadAbort, if_pos hs]
    rw [hk]
    exact ⟨⟨w, hi.toCallsBase⟩, .setKer fun _ _ hx => ⟨hx, rfl⟩⟩
  · obtain ⟨hbase, -, -, hth, -⟩ := hi.abort ha.2 hs (not_waiting hc) (suspendable_of_running ha.1)
    refine ⟨⟨_, hbase⟩, .setKer fun x hx hp => ?_⟩
    rw [hth]
    by_cases hxt : x = t
    · subst hxt
      rw [if_pos rfl, if_neg hx]
      exact ⟨ThreadState.noConfusion, zPendResult_stop _⟩
    · rw [if_neg hxt, if_neg fun hj => hp (hi.joiner_pending hj)]
      exact ⟨hp, rfl⟩

variable (join) in
theorem JoinOp.run_spec (hi : CallsInv cfg st.calls w) (op : JoinOp cfg)
    (ha : op.Allowed st) (hc : op.Careful st) :
    ∃ st₁ w₁, CallsBase cfg st₁.calls w₁ ∧ op.run join st = st₁.finish ∧ Undisturbed st st₁ := by
  cases op with
  | join t timeout =>
    by_cases hs : (st.calls.ker.thread t).state = .stopped
    · refine ⟨{ st with returned := st.log 0 }, w, hi.toCallsBase, ?_, .log 0⟩
      rw [JoinSys.finish_of_none (by exact hi.running)]
      simp only [JoinOp.run, kThreadJoin, if_pos hs]
    · by_cases hne : timeout = kNoWait cfg
      · refine ⟨{ st with returned := st.log (-EAGAIN) }, w, hi.toCallsBase, ?_, .log _⟩
        rw [JoinSys.finish_of_none (by exact hi.running)]
        simp only [JoinOp.run, kThreadJoin, if_neg hs, zPendCurrentOn, if_pos hne]
      · obtain ⟨hnone, hcalls, hth, -⟩ := hi.leave ha (join t) () hne
        refine ⟨⟨st.calls.leave (zPendCurrentOn cfg st.calls.ker (some (join t)) timeout).1
          (join t) (), st.returned⟩, _, hcalls, ?_, ?_⟩
        · simp only [JoinOp.run, kThreadJoin, if_neg hs, hnone]
        · refine ⟨fun x hx => Calls.frame_leave_of_ne hx, fun _ _ => rfl,
            fun _ => prefix_rfl, fun x hx hp => ?_⟩
          show ((zPendCurrentOn cfg st.calls.ker (some (join t)) timeout).1.thread x).state
              ≠ .pending
            ∧ zPendResult ((zPendCurrentOn cfg st.calls.ker (some (join t)) timeout).1.thread x) = _
          rw [hth, if_neg hx]
          exact ⟨hp, rfl⟩
  | abort t =>
    obtain ⟨⟨w₁, hbase⟩, hun⟩ := aborted_undisturbed hi ha hc
    exact ⟨_, w₁, hbase, rfl, hun⟩
  | schedEnter =>
    obtain ⟨E, hE, hinv, hth, -⟩ := hi.schedEnter
    refine ⟨_, _, hinv.toCallsBase, (JoinSys.finish_of_none hinv.running).symm,
      .setKer fun x _ hp => ?_⟩
    rw [hth, if_neg fun hx => hp (hE x hx)]
    exact ⟨hp, rfl⟩
  | yield =>
    obtain ⟨hinv, hth⟩ := hi.yield
    refine ⟨_, w, hinv, rfl, .setKer fun x hx hp => ?_⟩
    rw [hth, if_neg hx]
    exact ⟨hp, rfl⟩

theorem JoinOp.run_calls (hi : CallsInv cfg st.calls w) (op : JoinOp cfg)
    (ha : op.Allowed st) (hc : op.Careful st) :
    ∃ w', CallsInv cfg (op.run join st).calls w' := by
  obtain ⟨st₁, w₁, hb, hrun, -⟩ := op.run_spec join hi ha hc
  rw [hrun]
  exact ⟨w₁, JoinSys.finish_calls hb⟩

/-- The states after `st`. -/
def After (cfg : Config Tid Qid) (join : Tid → Qid) (st : JoinSys Tid Qid) :
    JoinSys Tid Qid → Prop :=
  Reach (· = st) (fun st (op : JoinOp cfg) => op.Allowed st ∧ op.Careful st) (JoinOp.run join)

def Returns (cfg : Config Tid Qid) (join : Tid → Qid) (st st₁ : JoinSys Tid Qid) (x : Tid)
    (v : Int) : Prop :=
  ∀ st₂, After cfg join st₁ st₂ → Told (st.returned x) x v st₂

theorem JoinReach.inv (h : JoinReach cfg join (fun st op => op.Careful st) st) :
    ∃ w, CallsInv cfg st.calls w := by
  refine Reach.invariant (P := fun st : JoinSys Tid Qid => ∃ w, CallsInv cfg st.calls w) h ?_ ?_
  · rintro st ⟨k, ring, hboot, rfl⟩
    exact ⟨_, hboot.callsInv⟩
  · rintro st op ⟨w, hi⟩ hok
    exact op.run_calls hi hok.1 hok.2

theorem Told.returns (hi : CallsInv cfg st₁.calls w) (h : Told (st.returned x) x v st₁) :
    Returns cfg join st st₁ x v := by
  intro st₂ hafter
  have hinv : (∃ w, CallsInv cfg st₂.calls w) ∧ Told (st.returned x) x v st₂ := by
    refine Reach.invariant (P := fun s : JoinSys Tid Qid =>
      (∃ w, CallsInv cfg s.calls w) ∧ Told (st.returned x) x v s) hafter ?_ ?_
    · rintro _ rfl
      exact ⟨⟨w, hi⟩, h⟩
    · rintro s op ⟨⟨w, hi⟩, htold⟩ ⟨ha, hc⟩
      obtain ⟨s₁, w₁, hb, hrun, hun⟩ := op.run_spec join hi ha hc
      rw [hrun]
      exact ⟨⟨w₁, JoinSys.finish_calls hb⟩, (htold.undisturbed hi hun).finish⟩
  exact hinv.2

def dispatched (T : Tid) (st st₁ : JoinSys Tid Qid) : Tid :=
  if T = st.calls.ker.current then st₁.calls.ker.current
  else (zScheduler st₁.calls.ker).current

structure Released (cfg : Config Tid Qid) (join : Tid → Qid) (T : Tid)
    (st st₁ : JoinSys Tid Qid) : Prop where
  stopped : (st₁.calls.ker.thread T).state = .stopped
  removed : Removed st₁.calls.ker T
  empty : SelfLinked st₁.calls.ker.wait (.queue (join T))
  scheduler : SchedulerOk cfg st₁.calls.ker
  joiners : ∀ x, st.calls.Waiting (join T) x →
    (st₁.calls.ker.thread x).state = .ready ∧ Returns cfg join st st₁ x 0
  late : ∀ x, st.calls.queue x = some (join T) →
    (st.calls.ker.thread x).timerExpired = true → Returns cfg join st st₁ x (-ETIMEDOUT)
  dispatched : (∃ x, x ≠ T ∧ ((st.calls.ker.thread x).state = .ready
      ∨ st.calls.Waiting (join T) x)) →
    (st₁.calls.ker.thread (dispatched T st st₁)).state = .ready

/-- A READY thread exists, so `run_queue` points at one. -/
theorem runQueue_ready {k : Kernel Tid Qid Empty Nat} {s : Shape Tid Qid Empty}
    (h : KBase cfg k s) (hx : (k.thread x).state = .ready) :
    (k.thread k.runQueue).state = .ready := by
  rcases KBase.runQueueValid h with ⟨ring, -, hmem, hring⟩ | ⟨hnone, -⟩
  · exact (hring _).mp hmem
  · exact absurd hx (hnone x)

theorem due_of_expired (hi : CallsBase cfg st.calls w) {q : Qid}
    (hq : st.calls.queue x = some q) (hexp : (st.calls.ker.thread x).timerExpired = true) :
    Due st x (-ETIMEDOUT) := by
  refine ⟨?_, ?_, by rw [zPendResult, if_pos hexp]⟩
  · intro hf
    rw [Calls.queue, hf] at hq
    exact Option.some_ne_none _ hq.symm
  · intro hp
    rw [(hi.flags hp).1] at hexp
    exact Bool.noConfusion hexp

theorem due_of_woken (hi : CallsBase cfg st.calls w) {q : Qid} (hx : st.calls.Waiting q x)
    (hframe : st₁.calls.frame x = st.calls.frame x)
    (hth : st₁.calls.ker.thread x = (st.calls.ker.thread x).woken) : Due st₁ x 0 := by
  obtain ⟨f, hf, -⟩ := Option.map_eq_some_iff.mp hx.2
  obtain ⟨hexp, hcan⟩ := hi.flags hx.1
  refine ⟨?_, ?_, ?_⟩
  · rw [hframe, hf]
    exact Option.some_ne_none _
  · rw [hth]
    exact ThreadState.noConfusion
  · rw [hth, zPendResult_eq_zero]
    exact ⟨hexp, hcan⟩

theorem released_of_calls (hjoin : cfg.joinWaitqueue = some join)
    (hi : CallsInv cfg st.calls w) (hs : (st.calls.ker.thread t).state ≠ .stopped)
    (ha : (JoinOp.abort t : JoinOp cfg).Allowed st)
    (hc : (JoinOp.abort t : JoinOp cfg).Careful st) :
    Released cfg join t st ((JoinOp.abort t : JoinOp cfg).run join st) := by
  obtain ⟨hbase, -, hstop, hth, hcur⟩ := hi.abort ha.2 hs (not_waiting hc)
    (suspendable_of_running ha.1)
  obtain ⟨-, hun⟩ := aborted_undisturbed hi ha hc
  have hrun : (JoinOp.abort t : JoinOp cfg).run join st = (st.aborted cfg t).finish := rfl
  have hker : ((JoinOp.abort t : JoinOp cfg).run join st).calls.ker
      = (kThreadAbort cfg st.calls.ker t).1 := JoinSys.finish_ker
  have hcalls : CallsInv cfg ((JoinOp.abort t : JoinOp cfg).run join st).calls
      (afterJoiners cfg w t) := JoinSys.finish_calls hbase
  have hjoiners : joinersOf cfg w t = w (join t) := by rw [joinersOf, hjoin]
  have hwoken : ∀ x, st.calls.Waiting (join t) x →
      (kThreadAbort cfg st.calls.ker t).1.thread x = (st.calls.ker.thread x).woken := by
    intro x hx
    have hxt : x ≠ t := by
      rintro rfl
      exact hc hx.1
    rw [hth, if_neg hxt, hjoiners, if_pos ((hi.waits _ _).mpr hx)]
  have htold : ∀ x v, Told (st.returned x) x v (st.aborted cfg t) →
      Returns cfg join st ((JoinOp.abort t : JoinOp cfg).run join st) x v :=
    fun x v h => (hrun ▸ h.finish).returns hcalls
  obtain ⟨ring, timeq, hk⟩ := hcalls.kernel
  rw [hker] at hk
  refine ⟨?_, ?_, ?_, ?_, ?_, ?_, ?_⟩
  · rw [hker]
    exact hstop
  · rw [hker]
    exact KInv.removed hk hstop
  · have hring := hk.wait.ringed (join t)
    have hnil : handles (afterJoiners cfg w t) (join t) = ([] : List (WNode Tid Qid Empty)) := by
      rw [handles, afterJoiners, hjoin]
      simp only [update_self, map_nil]
    rw [hker]
    simp only [hnil] at hring
    exact hring.of_singleton
  · rw [hker]
    exact hk.schedulerOk
  · intro x hx
    refine ⟨by rw [hker, hwoken x hx]; rfl, htold x 0 (Or.inl ⟨?_, rfl⟩)⟩
    exact due_of_woken hi.toCallsBase hx rfl (hwoken x hx)
  · intro x hq hexp
    refine htold x _ (Told.undisturbed (Or.inl ⟨?_, rfl⟩) hi hun)
    exact due_of_expired hi.toCallsBase hq hexp
  · rintro ⟨x, hxt, hx⟩
    have hready : ((kThreadAbort cfg st.calls.ker t).1.thread x).state = .ready := by
      rcases hx with hx | hx
      · rw [hth, if_neg hxt]
        split_ifs
        · rfl
        · exact hx
      · rw [hwoken x hx]
        rfl
    rw [dispatched, hker]
    by_cases htc : t = st.calls.ker.current
    · rw [if_pos htc, hcur, if_pos htc]
      exact runQueue_ready hk.toKBase hready
    · rw [if_neg htc, ← zScheduler_state, zScheduler_current]
      exact runQueue_ready hk.yield.toKBase ((zScheduler_state _ _).trans hready)

/-- **JOINS**: an abort releases every joiner, and those whose timeout has expired are told so. -/
theorem join_releases (hjoin : cfg.joinWaitqueue = some join)
    (h : JoinReach cfg join (fun st op => op.Careful st) st) :
    (∀ T, (st.calls.ker.thread T).state ≠ .stopped → (JoinOp.abort T : JoinOp cfg).Allowed st →
        (JoinOp.abort T : JoinOp cfg).Careful st →
        Released cfg join T st ((JoinOp.abort T : JoinOp cfg).run join st))
      ∧ ∀ x q, st.calls.Waiting q x →
        (((JoinOp.schedEnter : JoinOp cfg).run join st).calls.ker.thread x).state ≠ .pending →
        Returns cfg join st ((JoinOp.schedEnter : JoinOp cfg).run join st) x (-ETIMEDOUT) := by
  obtain ⟨w, hi⟩ := h.inv
  refine ⟨fun T hs ha hc => released_of_calls hjoin hi hs ha hc, ?_⟩
  intro x q hx hp
  obtain ⟨E, -, hinv, hth, -⟩ := hi.schedEnter
  have hexp : (((JoinOp.schedEnter : JoinOp cfg).run join st).calls.ker.thread x).timerExpired
      = true := by
    have hthx : ((JoinOp.schedEnter : JoinOp cfg).run join st).calls.ker.thread x
        = if x ∈ E then (st.calls.ker.thread x).expired else st.calls.ker.thread x := hth x
    by_cases hxE : x ∈ E
    · rw [hthx, if_pos hxE]
      rfl
    · rw [hthx, if_neg hxE] at hp
      exact absurd hx.1 hp
  exact Told.returns hinv (Or.inl ⟨due_of_expired hinv.toCallsBase hx.2 hexp, rfl⟩)

def joinConfig : Config (Fin 4) (Fin 4) := { smallConfig (Fin 4) with joinWaitqueue := some id }

def joinBoot : Kernel (Fin 4) (Fin 4) Empty Nat :=
  (kThreadStart joinConfig (kThreadStart joinConfig (bootKernel joinConfig 0) 2).1 1).1

theorem joinBoot_boot : ColdBoot joinConfig joinBoot [0, 1, 2] :=
  (((bootKernel_boot (by show (0 : Fin 4) ≠ 3; decide)).start rfl).start rfl).toColdBoot

def bothJoin : JoinSys (Fin 4) (Fin 4) :=
  ([.join 1 (kForever _), .join 1 (kForever _)] : List (JoinOp joinConfig)).foldl
    (JoinOp.run id) ⟨callsBoot joinBoot, fun _ => []⟩

theorem bothJoin_reach : JoinReach joinConfig id (fun st op => op.Careful st) bothJoin :=
  Reach.foldl (.start ⟨_, _, joinBoot_boot, rfl⟩) (by decide)

theorem join_releases_both :
    bothJoin.calls.ker.current = 1 ∧ bothJoin.calls.ker.readyCount = 1
      ∧ bothJoin.calls.Waiting 1 0 ∧ bothJoin.calls.Waiting 1 2
      ∧ Released joinConfig id 1 bothJoin ((JoinOp.abort 1 : JoinOp joinConfig).run id bothJoin) :=
  ⟨by decide, by decide, by decide, by decide,
    (join_releases rfl bothJoin_reach).1 1 (by decide) (by decide) (by decide)⟩

def abortedJoiner : JoinSys (Fin 4) (Fin 4) :=
  ([.join 2 (kForever _), .abort 0] : List (JoinOp joinConfig)).foldl
    (JoinOp.run id) ⟨callsBoot joinBoot, fun _ => []⟩

/-- **NOT UNLINKED**: thread 0 is STOPPED and still in the queue of thread 2, and the end
    of thread 2 makes it READY. -/
theorem join_leaves_linked :
    JoinReach joinConfig id (fun _ _ => True) abortedJoiner
      ∧ (abortedJoiner.calls.ker.thread 0).state = .stopped
      ∧ ¬ Removed abortedJoiner.calls.ker 0
      ∧ (((JoinOp.abort 2 : JoinOp joinConfig).run id abortedJoiner).calls.ker.thread 0).state
        = .ready := by
  refine ⟨Reach.foldl (.start ⟨_, _, joinBoot_boot, rfl⟩) (by decide), by decide, ?_,
    by decide⟩
  intro h
  exact h.waitQueues 2 1 (by decide)

end AvrtosJoin
