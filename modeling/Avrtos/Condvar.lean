import Avrtos.KernelRuns
import Avrtos.Objects
import Avrtos.TqueueDeadlines

/-! # Waiting on a condition variable gives the mutex back

    A wait is followed through its stages: blocked, woken, relocking; the mutex comes back at the
    end. -/

namespace AvrtosCondvar

open Function List AvrtosDefines AvrtosKernel AvrtosMutex AvrtosObjects AvrtosTqueue DeltaList Runs

inductive CondQueue (Mid Cid : Type) where
  | mutex (m : Mid)
  | condvar (c : Cid)
deriving DecidableEq, Repr

/-- A call that has not returned. -/
structure CondWait (Mid : Type) where
  mutex : Mid
  depth : Nat
  woken : Bool
deriving DecidableEq, Repr

/-- A return of `k_condvar_wait`. -/
structure CondReturn (Tid : Type) where
  thread : Tid
  depth : Nat
  value : Int
  mutex : Mutex Tid
deriving DecidableEq, Repr

def CondReturn.Right {Tid : Type} (r : CondReturn Tid) : Prop :=
  r.value ≠ -EINVAL → r.mutex.owner = some r.thread ∧ r.mutex.lock = r.depth

structure CondSys (Tid Mid Cid D : Type) extends MutexSys Tid (CondQueue Mid Cid) D where
  cond : Tid → Option (CondWait Mid)
  returns : List (CondReturn Tid)

variable {Tid Mid Cid D : Type} [Threads Tid]
variable [DecidableEq Mid] [DecidableEq Cid]

def CondSys.ret (st : CondSys Tid Mid Cid D) (c : CondWait Mid) (value : Int) :
    CondSys Tid Mid Cid D :=
  { st with
    cond := update st.cond st.calls.ker.current none
    returns := ⟨st.calls.ker.current, c.depth, value, st.mutex (.mutex c.mutex)⟩
      :: st.returns }

def CondSys.finish (st : CondSys Tid Mid Cid D) : CondSys Tid Mid Cid D :=
  let cur := st.calls.ker.current
  let value := zPendResult (st.calls.ker.thread cur)
  match st.calls.frame cur, st.cond cur with
  | none, _ => st
  | some _, none => { st with toMutexSys := st.toMutexSys.finish }
  | some _, some c =>
      if c.woken then { st with toMutexSys := st.toMutexSys.finish }.ret c value
      else
        let st := { st with calls := st.calls.resume }
        -- k_mutex_lock is still to be called
        if value = 0 then
          { st with cond := update st.cond cur (some { c with woken := true }) }
        else st.ret c value

/-- `k_mutex_lock`, and what it returns unless it blocks. -/
def CondSys.lock {cfg : Config Tid (CondQueue Mid Cid)} (reentrancy : Bool)
    (st : CondSys Tid Mid Cid D) (m : Mid) (timeout : cfg.Timeout) :
    CondSys Tid Mid Cid D × Option Int :=
  let r := kMutexLock cfg reentrancy st.calls.ker (st.mutex (.mutex m)) (.mutex m) timeout
  let st' := { st with mutex := update st.mutex (.mutex m) r.2.1 }
  match r.2.2 with
  | some ret =>
      ({ st' with
          calls := { st.calls with ker := r.1 }
          depth :=
            if ret = 0 then
              st.setDepth (.mutex m) (st.depth st.calls.ker.current (.mutex m) + 1)
            else st.depth },
        some ret)
  | none => ({ st' with calls := st.calls.leave r.1 (.mutex m) () }, none)

/-- The operations of a run. -/
inductive CondOp (cfg : Config Tid (CondQueue Mid Cid)) where
  | lock (m : Mid) (timeout : cfg.Timeout)
  | unlock (m : Mid)
  | wait (c : Cid) (m : Mid) (timeout : cfg.Timeout)
  | relock
  | broadcast (c : Cid)
  | schedEnter
  | yield

def CondSys.Relocks (st : CondSys Tid Mid Cid D) : Prop :=
  (st.cond st.calls.ker.current).isSome = true
deriving Decidable

def CondOp.Allowed {cfg : Config Tid (CondQueue Mid Cid)} (st : CondSys Tid Mid Cid D) :
    CondOp cfg → Prop
  | .lock _ _ => ¬ st.Relocks ∧ st.calls.ker.current ≠ cfg.idle
  | .unlock _ => ¬ st.Relocks
  | .wait _ m _ => ¬ st.Relocks ∧ st.calls.ker.current ≠ cfg.idle
      ∧ st.Holds st.calls.ker.current (.mutex m)
  | .relock => st.Relocks
  | _ => True

instance decCondAllowed {cfg : Config Tid (CondQueue Mid Cid)} (st : CondSys Tid Mid Cid D) :
    (op : CondOp cfg) → Decidable (op.Allowed st)
  | .lock _ _ => inferInstanceAs (Decidable (_ ∧ _))
  | .unlock _ => inferInstanceAs (Decidable (¬ _))
  | .wait _ _ _ => inferInstanceAs (Decidable (_ ∧ _ ∧ 0 < _))
  | .relock => inferInstanceAs (Decidable (_ = _))
  | .broadcast _ | .schedEnter | .yield => isTrue trivial

def CondOp.Careful {cfg : Config Tid (CondQueue Mid Cid)} (reentrancy : Bool)
    (st : CondSys Tid Mid Cid D) : CondOp cfg → Prop
  | .lock m _ => (st.mutex (.mutex m)).owner = some st.calls.ker.current →
      st.Holds st.calls.ker.current (.mutex m) ∧ (st.mutex (.mutex m)).lock < 255
        ∧ reentrancy = true
  | .unlock m => (st.mutex (.mutex m)).owner = some st.calls.ker.current →
      st.Holds st.calls.ker.current (.mutex m)
  | .wait _ m timeout => st.depth st.calls.ker.current (.mutex m) = 1
      ∧ timeout ≠ kNoWait cfg
  | .relock => ∀ c ∈ st.cond st.calls.ker.current,
      (st.mutex (.mutex c.mutex)).owner ≠ some st.calls.ker.current
  | .schedEnter => ∀ e ∈ remaining st.calls.ker.timeouts, ∀ c ∈ st.cond e.1,
      c.woken = false → cfg.sliceTicks.toNat < e.2
  | _ => True

instance decCondCareful {cfg : Config Tid (CondQueue Mid Cid)} (reentrancy : Bool)
    (st : CondSys Tid Mid Cid D) : (op : CondOp cfg) → Decidable (op.Careful reentrancy st)
  | .lock _ _ => inferInstanceAs (Decidable (_ → 0 < _ ∧ _ ∧ _))
  | .unlock _ => inferInstanceAs (Decidable (_ → 0 < _))
  | .wait _ _ _ => inferInstanceAs (Decidable (_ ∧ _))
  | .relock => inferInstanceAs (Decidable (∀ c ∈ st.cond st.calls.ker.current,
      (st.mutex (.mutex c.mutex)).owner ≠ some st.calls.ker.current))
  | .schedEnter => inferInstanceAs (Decidable (∀ e ∈ remaining st.calls.ker.timeouts,
      ∀ c ∈ st.cond e.1, c.woken = false → cfg.sliceTicks.toNat < e.2))
  | .broadcast _ | .yield => isTrue trivial

/-- The state after an operation. -/
def CondOp.run {cfg : Config Tid (CondQueue Mid Cid)} (reentrancy : Bool)
    (st : CondSys Tid Mid Cid D) : CondOp cfg → CondSys Tid Mid Cid D
  | .lock m timeout =>
      match st.lock reentrancy m timeout with
      | (st, some _) => st
      | (st, none) => st.finish
  | .unlock m =>
      { st with
        toMutexSys := (MutexOp.unlock (.mutex m) : MutexOp cfg).run reentrancy st.toMutexSys }
  | .wait c m timeout =>
      let call : CondWait Mid := ⟨m, st.depth st.calls.ker.current (.mutex m), false⟩
      let r := kCondvarWait cfg reentrancy st.calls.ker (st.mutex (.mutex m)) (.condvar c)
        (.mutex m) timeout
      let st' := { st with
        mutex := update st.mutex (.mutex m) r.2.1
        depth := st.setDepth (.mutex m) (call.depth - 1) }
      match r.2.2 with
      | some ret => { st' with calls := { st.calls with ker := r.1 } }.ret call ret
      | none =>
          { st' with
            calls := st.calls.leave r.1 (.condvar c) ()
            cond := update st.cond st.calls.ker.current (some call) }.finish
  | .relock =>
      match st.cond st.calls.ker.current with
      | none => st
      | some call =>
          match st.lock reentrancy call.mutex (kForever cfg) with
          | (st, some ret) => st.ret call ret
          | (st, none) => st.finish
  | .broadcast c =>
      { st with
        calls := { st.calls with ker := (kCondvarBroadcast cfg st.calls.ker (.condvar c)).1 } }
  | .schedEnter =>
      { st with calls := { st.calls with ker := zSchedEnter cfg st.calls.ker } }
  | .yield =>
      { st with calls := { st.calls with ker := zScheduler st.calls.ker } }.finish

/-- Before the first operation. -/
def condBoot (k : Kernel Tid (CondQueue Mid Cid) Empty D) : CondSys Tid Mid Cid D where
  toMutexSys := mutexBoot k
  cond := fun _ => none
  returns := []

def CondReach (cfg : Config Tid (CondQueue Mid Cid)) (reentrancy : Bool)
    (ok : CondSys Tid Mid Cid D → CondOp cfg → Prop) : CondSys Tid Mid Cid D → Prop :=
  Reach (fun st => ∃ k ring, ColdBoot cfg k ring ∧ st = condBoot k)
    (fun st op => op.Allowed st ∧ ok st op) (CondOp.run reentrancy)

def CondSys.Blocked (st : CondSys Tid Mid Cid D) (t : Tid) (c : CondWait Mid) : Prop :=
  st.cond t = some c ∧ c.woken = false ∧ (st.calls.ker.thread t).state = .pending

def CondSys.Released (st : CondSys Tid Mid Cid D) (t : Tid) (c : CondWait Mid) : Prop :=
  ¬ st.Holds t (.mutex c.mutex)
    ∧ ((st.mutex (.mutex c.mutex)).lock ≠ 0 → ∃ t', t' ≠ t
      ∧ (st.Holds t' (.mutex c.mutex) ∨ t' ∈ st.calls.granted (.mutex c.mutex)))

structure CondSys.GivesBack (st : CondSys Tid Mid Cid D) : Prop where
  returned : ∀ r ∈ st.returns, r.Right
  blocked : ∀ t c, st.Blocked t c → st.Released t c

def lockAndWait (locks : Nat)
    (timeout : BitVec (smallConfig (CondQueue Unit Unit)).deltaBits) :
    List (CondOp (smallConfig (CondQueue Unit Unit))) :=
  replicate locks (.lock () (kForever _)) ++ [.wait () () timeout]

def condRun (reentrancy : Bool) (ops : List (CondOp (smallConfig (CondQueue Unit Unit)))) :
    CondSys (Fin 4) Unit Unit Unit :=
  ops.foldl (CondOp.run reentrancy) (condBoot (smallBoot _ Empty Unit))

/-- **THE MUTEX IS NOT GIVEN BACK** by a call that does not block or times out; held twice, it is
    kept while blocked. -/
theorem condvar_wait_keeps_mutex :
    (CondReach (smallConfig _) false (fun _ _ => True) (condRun false (lockAndWait 1 0))
        ∧ (condRun false (lockAndWait 1 0)).returns
          = [⟨0, 1, -EAGAIN, { lock := 0, owner := none }⟩]
        ∧ ¬ (condRun false (lockAndWait 1 0)).GivesBack)
      ∧ (CondReach (smallConfig _) false (fun _ _ => True)
          (condRun false (lockAndWait 1 1 ++ [.schedEnter, .yield, .yield]))
        ∧ (condRun false (lockAndWait 1 1 ++ [.schedEnter, .yield, .yield])).returns
          = [⟨0, 1, -ETIMEDOUT, { lock := 0, owner := none }⟩]
        ∧ ¬ (condRun false (lockAndWait 1 1 ++ [.schedEnter, .yield, .yield])).GivesBack)
      ∧ (CondReach (smallConfig _) true (fun _ _ => True)
          (condRun true (lockAndWait 2 (kForever _)))
        ∧ (condRun true (lockAndWait 2 (kForever _))).Blocked 0 ⟨(), 2, false⟩
        ∧ ¬ (condRun true (lockAndWait 2 (kForever _))).GivesBack) := by
  refine ⟨⟨Reach.foldl (.start ⟨_, _, smallBoot_boot, rfl⟩) (by decide), by decide, ?_⟩,
    ⟨Reach.foldl (.start ⟨_, _, smallBoot_boot, rfl⟩) (by decide), by decide, ?_⟩,
    ⟨Reach.foldl (.start ⟨_, _, smallBoot_boot, rfl⟩) (by decide),
      ⟨by decide, rfl, by decide⟩, ?_⟩⟩
  · intro h
    have hret : (condRun false (lockAndWait 1 0)).returns
        = [⟨0, 1, -EAGAIN, { lock := 0, owner := none }⟩] := by decide
    have hr := h.returned _ (hret ▸ mem_singleton_self _)
    exact absurd (hr (by decide)).1 (by decide)
  · intro h
    have hret : (condRun false (lockAndWait 1 1 ++ [.schedEnter, .yield, .yield])).returns
        = [⟨0, 1, -ETIMEDOUT, { lock := 0, owner := none }⟩] := by decide
    have hr := h.returned _ (hret ▸ mem_singleton_self _)
    exact absurd (hr (by decide)).1 (by decide)
  · intro h
    have hr := (h.blocked 0 ⟨(), 2, false⟩ ⟨by decide, rfl, by decide⟩).1
    have hholds : 0 < (condRun true (lockAndWait 2 (kForever _))).depth 0 (.mutex ()) := by
      decide
    exact hr hholds

variable {cfg : Config Tid (CondQueue Mid Cid)} {reentrancy : Bool}
variable {st : CondSys Tid Mid Cid D} {w : CondQueue Mid Cid → List Tid}
variable {t : Tid} {m : Mid}

/-- A call that goes well so far. -/
structure CondSys.Well (cfg : Config Tid (CondQueue Mid Cid)) (st : CondSys Tid Mid Cid D)
    (t : Tid) (c : CondWait Mid) : Prop where
  caller : t ≠ cfg.idle
  forever : kForever cfg ≠ kNoWait cfg
  depth : c.depth = 1
  released : st.depth t (.mutex c.mutex) = 0
  result : zPendResult (st.calls.ker.thread t) = 0
  waiting : c.woken = false → ∃ q, st.calls.queue t = some (.condvar q)
  relocking : c.woken = true → st.calls.frame t ≠ none →
    st.calls.queue t = some (.mutex c.mutex)
  untimed : c.woken = true → (st.calls.ker.thread t).wakeupSched = false

structure CondBase (cfg : Config Tid (CondQueue Mid Cid)) (reentrancy : Bool)
    (st : CondSys Tid Mid Cid D) (w : CondQueue Mid Cid → List Tid) : Prop where
  calls : CallsBase cfg st.calls w
  phase : ∀ m, Phase reentrancy st.toMutexSys (.mutex m)
  locking : ∀ t, st.cond t = none → ∀ q, st.calls.queue t ≠ some (.condvar q)
  well : ∀ t c, st.cond t = some c → st.Well cfg t c
  right : ∀ r ∈ st.returns, r.Right

omit [DecidableEq Mid] [DecidableEq Cid] in
theorem CondSys.Well.congr {st' : CondSys Tid Mid Cid D} {c : CondWait Mid}
    (h : st.Well cfg t c) (hdepth : st'.depth t = st.depth t)
    (hframe : st'.calls.frame t = st.calls.frame t)
    (hresult : zPendResult (st'.calls.ker.thread t) = zPendResult (st.calls.ker.thread t))
    (hwake : (st.calls.ker.thread t).wakeupSched = false →
      (st'.calls.ker.thread t).wakeupSched = false) : st'.Well cfg t c := by
  have hqueue := Calls.queue_congr hframe
  refine ⟨h.caller, h.forever, h.depth, ?_, hresult.trans h.result, ?_, ?_,
    fun hw => hwake (h.untimed hw)⟩
  · rw [hdepth]
    exact h.released
  · rw [hqueue]
    exact h.waiting
  · rw [hqueue, hframe]
    exact h.relocking

/-- A thread that is made READY keeps its result. -/
theorem woken_keeps {th th' : Thread D} (h : th' = th ∨ th' = th.woken) :
    zPendResult th' = zPendResult th ∧ (th.wakeupSched = false → th'.wakeupSched = false) := by
  rcases h with rfl | rfl
  · exact ⟨rfl, id⟩
  · exact ⟨rfl, fun _ => rfl⟩

theorem CondBase.kernel {k' : Kernel Tid (CondQueue Mid Cid) Empty D}
    {w' : CondQueue Mid Cid → List Tid} (h : CondBase cfg reentrancy st w)
    (hcalls : CallsBase cfg { st.calls with ker := k' } w')
    (hgranted : ∀ m, ({ st.calls with ker := k' } :
      Calls Tid (CondQueue Mid Cid) D Unit).granted (.mutex m) = st.calls.granted (.mutex m))
    (hresult : ∀ t c, st.cond t = some c →
      zPendResult (k'.thread t) = zPendResult (st.calls.ker.thread t))
    (hwake : ∀ t, (st.calls.ker.thread t).wakeupSched = false → (k'.thread t).wakeupSched = false) :
    CondBase cfg reentrancy { st with calls := { st.calls with ker := k' } } w' where
  calls := hcalls
  phase := fun m => (h.phase m).congr rfl (fun _ => rfl) (hgranted m)
  locking := h.locking
  well := fun t c hc => (h.well t c hc).congr rfl rfl (hresult t c hc) (hwake t)
  right := h.right

theorem CondSys.ret_right {c : CondWait Mid} {value : Int} (hdepth : c.depth = 1)
    (hphase : Phase reentrancy st.toMutexSys (.mutex c.mutex))
    (hone : st.depth st.calls.ker.current (.mutex c.mutex) = 1)
    (hright : ∀ r ∈ st.returns, r.Right) : ∀ r ∈ (st.ret c value).returns, r.Right := by
  have hholds : st.Holds st.calls.ker.current (.mutex c.mutex) := by
    rw [MutexSys.Holds, hone]
    exact Nat.one_pos
  obtain ⟨howner, hlock, -⟩ := hphase.of_holds hholds
  intro r hr
  rcases mem_cons.mp hr with rfl | hr
  · intro _
    refine ⟨howner, ?_⟩
    rw [hdepth]
    exact hlock.trans hone
  · exact hright r hr

omit [DecidableEq Mid] [DecidableEq Cid] in
theorem mutex_ne_condvar {c : Cid} : (.mutex m : CondQueue Mid Cid) ≠ .condvar c := by
  intro h
  cases h

omit [Threads Tid] [DecidableEq Mid] [DecidableEq Cid] in
theorem queue_ne_of_frame {c : Calls Tid (CondQueue Mid Cid) D Unit}
    (hf : c.frame t = none) (q : CondQueue Mid Cid) : c.queue t ≠ some q := by
  rw [Calls.queue, hf]
  exact Ne.symm (Option.some_ne_none q)

theorem CondBase.settle {st' : CondSys Tid Mid Cid D} {w' : CondQueue Mid Cid → List Tid}
    (h : CondBase cfg reentrancy st w) (hcalls : CallsBase cfg st'.calls w')
    (hphase : ∀ m, Phase reentrancy st'.toMutexSys (.mutex m))
    (hother : ∀ t, t ≠ st.calls.ker.current → st'.cond t = st.cond t
      ∧ st'.depth t = st.depth t ∧ st'.calls.frame t = st.calls.frame t
      ∧ st'.calls.ker.thread t = st.calls.ker.thread t)
    (hnone : st'.cond st.calls.ker.current = none →
      ∀ q, st'.calls.queue st.calls.ker.current ≠ some (.condvar q))
    (hsome : ∀ c, st'.cond st.calls.ker.current = some c → st'.Well cfg st.calls.ker.current c)
    (hright : ∀ r ∈ st'.returns, r.Right) : CondBase cfg reentrancy st' w' := by
  refine ⟨hcalls, hphase, ?_, ?_, hright⟩
  · intro t hc
    by_cases ht : t = st.calls.ker.current
    · subst ht
      exact hnone hc
    · obtain ⟨hcond, -, hframe, -⟩ := hother t ht
      rw [Calls.queue_congr hframe]
      exact h.locking t (hcond.symm.trans hc)
  · intro t c hc
    by_cases ht : t = st.calls.ker.current
    · subst ht
      exact hsome c hc
    · obtain ⟨hcond, hdepth, hframe, hthread⟩ := hother t ht
      refine (h.well t c (hcond.symm.trans hc)).congr hdepth hframe ?_ ?_
      · rw [hthread]
      · rw [hthread]
        exact id

theorem CondBase.finish_lock {st' : CondSys Tid Mid Cid D} (h : CondBase cfg reentrancy st w)
    (hsys : st'.toMutexSys = st.toMutexSys.finish)
    (hother : ∀ t, t ≠ st.calls.ker.current → st'.cond t = st.cond t)
    (hnone : st'.cond st.calls.ker.current = none)
    (hright : ∀ r ∈ st'.returns, r.Right) :
    CondBase cfg reentrancy st' w ∧ CallsInv cfg st'.calls w := by
  have hcalls : CallsInv cfg st'.calls w := by
    rw [hsys]
    exact MutexSys.finish_calls h.calls
  have hker : st'.calls.ker = st.calls.ker := by
    rw [hsys]
    exact MutexSys.finish_ker
  refine ⟨h.settle hcalls.toCallsBase ?_ ?_ ?_ ?_ hright, hcalls⟩
  · intro m
    rw [hsys]
    exact (h.phase m).finish h.calls
  · intro t ht
    obtain ⟨hframe, hdepth⟩ := MutexSys.finish_of_ne ht
    rw [← hsys] at hframe hdepth
    exact ⟨hother t ht, hdepth, hframe, by rw [hker]⟩
  · intro _ q
    have hframe := hcalls.running
    rw [hker] at hframe
    exact queue_ne_of_frame hframe _
  · exact fun c hc => absurd (hc.symm.trans hnone) (Option.some_ne_none c)

theorem CondBase.finish_wait {c : CondWait Mid} (h : CondBase cfg reentrancy st w)
    (hc : st.cond st.calls.ker.current = some c) (hw : c.woken = false) :
    CondBase cfg reentrancy { st with
      calls := st.calls.resume
      cond := update st.cond st.calls.ker.current (some { c with woken := true }) } w
      ∧ CallsInv cfg st.calls.resume w := by
  have hwell := h.well _ c hc
  have hresume : CallsInv cfg st.calls.resume w := h.calls.resume
  refine ⟨h.settle hresume.toCallsBase ?_ ?_ ?_ ?_ h.right, hresume⟩
  · intro m
    refine (h.phase m).congr rfl (fun _ => rfl) ?_
    rw [Calls.granted_resume]
    -- the frame that is given up is not one of a mutex
    refine Finset.erase_eq_of_notMem fun hmem => ?_
    obtain ⟨q, hq⟩ := hwell.waiting hw
    obtain ⟨f, hf, hfq⟩ := Option.map_eq_some_iff.mp hq
    obtain ⟨hqm, -⟩ := (h.calls.granted_current hf).mp hmem
    exact mutex_ne_condvar (hqm.symm.trans hfq)
  · exact fun t ht => ⟨update_of_ne ht _ _, rfl, update_of_ne ht _ _, rfl⟩
  · exact fun _ q => queue_ne_of_frame hresume.running _
  · intro c' hc'
    obtain rfl : c' = { c with woken := true } :=
      Option.some.inj (hc'.symm.trans (update_self ..))
    refine ⟨hwell.caller, hwell.forever, hwell.depth, hwell.released, hwell.result,
      fun hc => Bool.noConfusion hc, fun _ hc => absurd hresume.running hc, fun _ => ?_⟩
    obtain ⟨ring, timeq, hk⟩ := h.calls.kernel
    exact (hk.not_timed h.calls.current_not_pending).1

theorem CondBase.finish (h : CondBase cfg reentrancy st w) :
    CondBase cfg reentrancy st.finish w ∧ CallsInv cfg st.finish.calls w := by
  cases hf : st.calls.frame st.calls.ker.current with
  | none =>
    have hfin : st.finish = st := by
      simp only [CondSys.finish, hf]
    rw [hfin]
    exact ⟨h, h.calls, hf⟩
  | some f =>
    cases hc : st.cond st.calls.ker.current with
    | none =>
      have hfin : st.finish = { st with toMutexSys := st.toMutexSys.finish } := by
        simp only [CondSys.finish, hf, hc]
      rw [hfin]
      exact h.finish_lock rfl (fun _ _ => rfl) hc h.right
    | some c =>
      have hwell := h.well _ c hc
      cases hw : c.woken with
      | false =>
        have hfin : st.finish = { st with
            calls := st.calls.resume
            cond := update st.cond st.calls.ker.current
              (some { c with woken := true }) } := by
          simp only [CondSys.finish, hf, hc, hw, hwell.result, if_true, if_false,
            Bool.false_eq_true]
        rw [hfin]
        exact h.finish_wait hc hw
      | true =>
        have hfin : st.finish = CondSys.ret { st with toMutexSys := st.toMutexSys.finish } c 0 := by
          simp only [CondSys.finish, hf, hc, hw, hwell.result, if_true]
        have hker : st.toMutexSys.finish.calls.ker = st.calls.ker := MutexSys.finish_ker
        have hcond : (CondSys.ret { st with toMutexSys := st.toMutexSys.finish } c 0).cond
            = update st.cond st.calls.ker.current none := by
          rw [CondSys.ret, hker]
        have hfq : f.queue = .mutex c.mutex := by
          have hq := hwell.relocking hw (hf ▸ Option.some_ne_none f)
          rw [Calls.queue, hf] at hq
          exact Option.some.inj hq
        have hone : st.toMutexSys.finish.depth st.calls.ker.current (.mutex c.mutex) = 1 := by
          rw [MutexSys.finish_of_some hf]
          simp only [hwell.result, if_true, hfq, MutexSys.setDepth_self, hwell.released]
        rw [hfin]
        refine h.finish_lock rfl (fun t ht => ?_) ?_ ?_
        · rw [hcond, update_of_ne ht]
        · rw [hcond, update_self]
        · refine CondSys.ret_right hwell.depth ((h.phase c.mutex).finish h.calls) ?_ h.right
          rw [hker]
          exact hone

def CondInv (cfg : Config Tid (CondQueue Mid Cid)) (reentrancy : Bool)
    (st : CondSys Tid Mid Cid D) : Prop :=
  ∃ w, CondBase cfg reentrancy st w ∧ CallsInv cfg st.calls w

theorem CondInv.leave (h : CondInv cfg reentrancy st)
    (hcur : st.calls.ker.current ≠ cfg.idle) (q : CondQueue Mid Cid)
    {timeout : cfg.Timeout} (hne : timeout ≠ kNoWait cfg)
    (call : Option (CondWait Mid)) (hnone : call = none → ∀ c, q ≠ .condvar c)
    (hforever : call ≠ none → kForever cfg ≠ kNoWait cfg)
    (hsome : ∀ c, call = some c → c.depth = 1 ∧ st.depth st.calls.ker.current (.mutex c.mutex) = 0
        ∧ (c.woken = false → ∃ cv, q = .condvar cv)
        ∧ (c.woken = true → q = .mutex c.mutex ∧ timeout = kForever cfg)) :
    CondInv cfg reentrancy (CondSys.finish { st with
      calls := st.calls.leave (zPendCurrentOn cfg st.calls.ker (some q) timeout).1 q ()
      cond := update st.cond st.calls.ker.current call }) := by
  obtain ⟨w, hb, hi⟩ := h
  obtain ⟨-, hcalls, hth, -⟩ := hi.leave hcur q () hne
  generalize (zPendCurrentOn cfg st.calls.ker (some q) timeout).1 = k' at *
  have hblocked : k'.thread st.calls.ker.current
      = (st.calls.ker.thread st.calls.ker.current).blocked (decide (timeout ≠ kForever cfg)) := by
    rw [hth, if_pos rfl]
  have hother : ∀ x, x ≠ st.calls.ker.current → k'.thread x = st.calls.ker.thread x := by
    intro x hx
    rw [hth, if_neg hx]
  have hqueue : (st.calls.leave k' q ()).queue st.calls.ker.current = some q := by
    rw [Calls.queue, Calls.frame_leave_self]
    rfl
  have hself : update st.cond st.calls.ker.current call st.calls.ker.current
      = call := update_self ..
  refine ⟨_, CondBase.finish (hb.settle hcalls ?_ ?_ ?_ ?_ hb.right)⟩
  · intro m
    refine (hb.phase m).congr rfl (fun _ => rfl) (hi.granted_leave q ?_ hother)
    rw [hblocked]
    rfl
  · intro t ht
    exact ⟨update_of_ne ht _ _, rfl, Calls.frame_leave_of_ne ht, hother t ht⟩
  · intro hc cv hq
    exact hnone (hself.symm.trans hc) cv (Option.some.inj (hqueue.symm.trans hq))
  · intro c hc
    have hcall : call = some c := hself.symm.trans hc
    obtain ⟨hdepth, hzero, hwait, hrelock⟩ := hsome c hcall
    refine ⟨hcur, hforever (hcall ▸ Option.some_ne_none c), hdepth, hzero, ?_, ?_, ?_, ?_⟩
    · show zPendResult (k'.thread st.calls.ker.current) = 0
      rw [hblocked]
      rfl
    · intro hw
      obtain ⟨cv, hcv⟩ := hwait hw
      exact ⟨cv, hqueue.trans (congrArg some hcv)⟩
    · exact fun hw _ => hqueue.trans (congrArg some (hrelock hw).1)
    · intro hw
      show (k'.thread st.calls.ker.current).wakeupSched = false
      rw [hblocked, (hrelock hw).2]
      exact decide_eq_false (not_not_intro rfl)

theorem CondInv.setMutex {mutex : Mutex Tid} {n : Nat} (h : CondInv cfg reentrancy st)
    (hcond : st.cond st.calls.ker.current = none)
    (hphase : Phase reentrancy st.toMutexSys (.mutex m) → Phase reentrancy { st.toMutexSys with
        mutex := update st.mutex (.mutex m) mutex
        depth := st.setDepth (.mutex m) n } (.mutex m)) :
    CondInv cfg reentrancy { st with
      mutex := update st.mutex (.mutex m) mutex
      depth := st.setDepth (.mutex m) n } := by
  obtain ⟨w, hb, hi⟩ := h
  refine ⟨w, hb.settle hi.toCallsBase ?_ ?_ ?_ ?_ hb.right, hi⟩
  · exact fun m' => (hb.phase m').setMutex (hphase (hb.phase m))
  · exact fun t ht => ⟨rfl, update_of_ne ht _ _, rfl, rfl⟩
  · exact fun _ q => queue_ne_of_frame hi.running _
  · exact fun c hc => absurd (hc.symm.trans hcond) (Option.some_ne_none c)

theorem CondSys.lock_free (timeout : cfg.Timeout) (hl : (st.mutex (.mutex m)).lock = 0) :
    st.lock reentrancy m timeout = ({ st with
      mutex := update st.mutex (.mutex m)
        { lock := 1, owner := some st.calls.ker.current }
      depth := st.setDepth (.mutex m)
        (st.depth st.calls.ker.current (.mutex m) + 1) }, some 0) := by
  have hk : kMutexLock cfg reentrancy st.calls.ker (st.mutex (.mutex m)) (.mutex m) timeout
      = (st.calls.ker, { lock := 1, owner := some st.calls.ker.current }, some 0) := by
    rw [kMutexLock, if_pos hl]
  simp only [CondSys.lock, hk, if_true]

theorem CondSys.lock_owner (timeout : cfg.Timeout) (hl : (st.mutex (.mutex m)).lock ≠ 0)
    (ho : (st.mutex (.mutex m)).owner = some st.calls.ker.current)
    (hlt : (st.mutex (.mutex m)).lock < 255) (hre : reentrancy = true) :
    st.lock reentrancy m timeout = ({ st with
      mutex := update st.mutex (.mutex m)
        { st.mutex (.mutex m) with lock := (st.mutex (.mutex m)).lock + 1 }
      depth := st.setDepth (.mutex m)
        (st.depth st.calls.ker.current (.mutex m) + 1) }, some 0) := by
  have hmod : ((st.mutex (.mutex m)).lock + 1) % 256 = (st.mutex (.mutex m)).lock + 1 :=
    Nat.mod_eq_of_lt (by omega)
  have hk : kMutexLock cfg reentrancy st.calls.ker (st.mutex (.mutex m)) (.mutex m) timeout
      = (st.calls.ker,
        { st.mutex (.mutex m) with lock := (st.mutex (.mutex m)).lock + 1 }, some 0) := by
    rw [kMutexLock, if_neg hl, if_pos ho, if_pos hre, hmod]
  simp only [CondSys.lock, hk, if_true]

theorem CondSys.lock_busy (hl : (st.mutex (.mutex m)).lock ≠ 0)
    (ho : (st.mutex (.mutex m)).owner ≠ some st.calls.ker.current) :
    st.lock reentrancy m (kNoWait cfg) = (st, some (-EAGAIN)) := by
  have hk : kMutexLock cfg reentrancy st.calls.ker (st.mutex (.mutex m)) (.mutex m)
      (kNoWait cfg) = (st.calls.ker, st.mutex (.mutex m), some (-EAGAIN)) := by
    rw [kMutexLock, if_neg hl, if_neg ho, zPendCurrentOn, if_pos rfl]
  have hz : -EAGAIN ≠ 0 := by decide
  simp only [CondSys.lock, hk, update_eq_self, if_neg hz]

theorem CondSys.lock_blocks {timeout : cfg.Timeout} (hl : (st.mutex (.mutex m)).lock ≠ 0)
    (ho : (st.mutex (.mutex m)).owner ≠ some st.calls.ker.current)
    (hnone : (zPendCurrentOn cfg st.calls.ker (some (.mutex m)) timeout).2 = none) :
    st.lock reentrancy m timeout = ({ st with
      calls := st.calls.leave
        (zPendCurrentOn cfg st.calls.ker (some (.mutex m)) timeout).1 (.mutex m) () },
      none) := by
  have hk : kMutexLock cfg reentrancy st.calls.ker (st.mutex (.mutex m)) (.mutex m) timeout
      = ((zPendCurrentOn cfg st.calls.ker (some (.mutex m)) timeout).1,
        st.mutex (.mutex m), none) := by
    rw [kMutexLock, if_neg hl, if_neg ho, ← hnone]
  simp only [CondSys.lock, hk, update_eq_self]

theorem CondInv.lock (h : CondInv cfg reentrancy st) {timeout : cfg.Timeout}
    (ha : (CondOp.lock m timeout : CondOp cfg).Allowed st)
    (hc : (CondOp.lock m timeout : CondOp cfg).Careful reentrancy st) :
    CondInv cfg reentrancy ((CondOp.lock m timeout : CondOp cfg).run reentrancy st) := by
  obtain ⟨hnot, hcur⟩ := ha
  have hcond : st.cond st.calls.ker.current = none := Option.not_isSome_iff_eq_none.mp hnot
  by_cases hl : (st.mutex (.mutex m)).lock = 0
  · simp only [CondOp.run, CondSys.lock_free timeout hl]
    exact h.setMutex hcond fun hp => hp.acquire hl
  · by_cases ho : (st.mutex (.mutex m)).owner = some st.calls.ker.current
    · obtain ⟨hholds, hlt, hre⟩ := hc ho
      simp only [CondOp.run, CondSys.lock_owner timeout hl ho hlt hre]
      refine h.setMutex hcond fun hp => ?_
      obtain ⟨-, hlock, -⟩ := hp.of_holds hholds
      exact hp.nest hholds hre (Nat.succ_pos _) ho (congrArg (· + 1) hlock)
    · by_cases hne : timeout = kNoWait cfg
      · subst hne
        simp only [CondOp.run, CondSys.lock_busy hl ho]
        exact h
      · have hinv := h
        obtain ⟨w, hb, hi⟩ := hinv
        obtain ⟨hnone, -⟩ := hi.leave hcur (.mutex m) () hne
        simp only [CondOp.run, CondSys.lock_blocks hl ho hnone]
        have hleave := h.leave hcur (.mutex m) hne none
          (fun _ _ => mutex_ne_condvar) (fun hc => absurd rfl hc)
          (fun c hc => absurd hc.symm (Option.some_ne_none c))
        rw [← hcond, update_eq_self] at hleave
        exact hleave

theorem CondInv.relock (h : CondInv cfg reentrancy st)
    (ha : (CondOp.relock : CondOp cfg).Allowed st)
    (hc : (CondOp.relock : CondOp cfg).Careful reentrancy st) :
    CondInv cfg reentrancy ((CondOp.relock : CondOp cfg).run reentrancy st) := by
  obtain ⟨c, hcond⟩ := Option.isSome_iff_exists.mp ha
  have ⟨w, hb, hi⟩ := h
  have hwell := hb.well _ c hcond
  have ho : (st.mutex (.mutex c.mutex)).owner ≠ some st.calls.ker.current := hc c hcond
  by_cases hl : (st.mutex (.mutex c.mutex)).lock = 0
  · simp only [CondOp.run, hcond, CondSys.lock_free (kForever cfg) hl]
    have hphase := fun m => (hb.phase m).setMutex ((hb.phase c.mutex).acquire hl)
    refine ⟨w, hb.settle hi.toCallsBase hphase ?_ ?_ ?_ ?_, hi⟩
    · exact fun t ht =>
        ⟨update_of_ne ht _ _, update_of_ne ht _ _, rfl, rfl⟩
    · exact fun _ q => queue_ne_of_frame hi.running _
    · intro c' hc'
      have hnone : update st.cond st.calls.ker.current none st.calls.ker.current
          = none := update_self ..
      exact absurd (hc'.symm.trans hnone) (Option.some_ne_none c')
    · refine CondSys.ret_right hwell.depth (hphase c.mutex) ?_ hb.right
      simp only [MutexSys.setDepth_self, hwell.released]
  · obtain ⟨hnone, -⟩ := hi.leave hwell.caller (.mutex c.mutex) () hwell.forever
    simp only [CondOp.run, hcond, CondSys.lock_blocks hl ho hnone]
    have hleave := h.leave hwell.caller (.mutex c.mutex) hwell.forever (some c)
      (fun hc => absurd hc (Option.some_ne_none c)) (fun _ => hwell.forever) ?_
    · rw [← hcond, update_eq_self] at hleave
      exact hleave
    · intro c' hc'
      have hcc : c = c' := Option.some.inj hc'
      subst hcc
      refine ⟨hwell.depth, hwell.released, ?_, fun _ => ⟨rfl, rfl⟩⟩
      intro hw
      obtain ⟨q, hq⟩ := hwell.waiting hw
      exact absurd hq (queue_ne_of_frame hi.running _)

theorem CondInv.unlock (h : CondInv cfg reentrancy st) (hcond : st.cond st.calls.ker.current = none)
    (hholds : st.Holds st.calls.ker.current (.mutex m)) :
    CondInv cfg reentrancy ((CondOp.unlock m : CondOp cfg).run reentrancy st)
      ∧ ((CondOp.unlock m : CondOp cfg).run reentrancy st).calls.ker.current
          = st.calls.ker.current := by
  obtain ⟨w, hb, hi⟩ := h
  obtain ⟨w', hinv, hcur, hth⟩ := (hb.phase m).unlock_calls hi hholds
  refine ⟨⟨w', ⟨hinv.toCallsBase, ?_, hb.locking, ?_, hb.right⟩, hinv⟩, hcur⟩
  · exact fun m' => (hb.phase m).unlock hi hholds (hb.phase m')
  · intro t c hc
    have ht : t ≠ st.calls.ker.current := by
      rintro rfl
      exact absurd (hc.symm.trans hcond) (Option.some_ne_none c)
    obtain ⟨hresult, hwake⟩ := woken_keeps (hth t)
    exact (hb.well t c hc).congr (update_of_ne ht _ _) rfl hresult hwake

theorem CondInv.unlock_other (h : CondInv cfg reentrancy st)
    (ho : (st.mutex (.mutex m)).owner ≠ some st.calls.ker.current) :
    (CondOp.unlock m : CondOp cfg).run reentrancy st = st := by
  obtain ⟨w, hb, -⟩ := h
  have hzero : st.depth st.calls.ker.current (.mutex m) = 0 := by
    by_contra hpos
    exact ho ((hb.phase m).of_holds (Nat.pos_of_ne_zero hpos)).1
  have hdepth : st.setDepth (.mutex m) 0 = st.depth := by
    rw [MutexSys.setDepth, ← hzero, update_eq_self, update_eq_self]
  simp only [CondOp.run, MutexOp.run, kMutexUnlock, if_pos ho, hzero, Nat.zero_sub, hdepth,
    update_eq_self]

theorem CondInv.wait (h : CondInv cfg reentrancy st) {c : Cid} {timeout : cfg.Timeout}
    (ha : (CondOp.wait c m timeout : CondOp cfg).Allowed st)
    (hc : (CondOp.wait c m timeout : CondOp cfg).Careful reentrancy st) :
    CondInv cfg reentrancy ((CondOp.wait c m timeout : CondOp cfg).run reentrancy st) := by
  obtain ⟨hnot, hidle, hholds⟩ := ha
  obtain ⟨hone, hne⟩ := hc
  have hcond : st.cond st.calls.ker.current = none := Option.not_isSome_iff_eq_none.mp hnot
  obtain ⟨hinv, hcur⟩ := h.unlock hcond hholds
  have ⟨w, hb, hi⟩ := hinv
  obtain ⟨hnone, -⟩ := hi.leave (hcur ▸ hidle) (.condvar c) () hne
  have hforever : kForever cfg ≠ kNoWait cfg := by
    intro hc
    refine hne (BitVec.eq_of_toNat_eq ?_)
    have hz : 2 ^ cfg.deltaBits - 1 = 0 :=
      (BitVec.toNat_allOnes ..).symm.trans (congrArg BitVec.toNat hc)
    have hlt := timeout.isLt
    show timeout.toNat = 0
    omega
  have hleave := hinv.leave (hcur ▸ hidle) (.condvar c) hne
    (some ⟨m, st.depth st.calls.ker.current (.mutex m), false⟩)
    (fun hc => absurd hc (Option.some_ne_none _)) (fun _ => hforever) ?_
  · have hrun : (CondOp.wait c m timeout : CondOp cfg).run reentrancy st
        = CondSys.finish { (CondOp.unlock m : CondOp cfg).run reentrancy st with
            calls := ((CondOp.unlock m : CondOp cfg).run reentrancy st).calls.leave
              (zPendCurrentOn cfg ((CondOp.unlock m : CondOp cfg).run reentrancy st).calls.ker
                (some (.condvar c)) timeout).1 (.condvar c) ()
            cond := update st.cond st.calls.ker.current
              (some ⟨m, st.depth st.calls.ker.current (.mutex m), false⟩) } := by
      have hpend : (kCondvarWait cfg reentrancy st.calls.ker (st.mutex (.mutex m))
          (.condvar c) (.mutex m) timeout).2.2 = none := hnone
      simp only [CondOp.run, hpend, Calls.leave] at hcur ⊢
      rw [hcur]
      rfl
    rw [hrun]
    rw [hcur] at hleave
    exact hleave
  · intro call hcall
    have hcc := Option.some.inj hcall
    subst hcc
    refine ⟨hone, ?_, fun _ => ⟨c, rfl⟩, fun hc => Bool.noConfusion hc⟩
    rw [hcur]
    show st.setDepth (.mutex m) (st.depth st.calls.ker.current (.mutex m) - 1) _ _ = 0
    rw [MutexSys.setDepth_self, hone]

theorem granted_broadcast (hi : CallsInv cfg st.calls w) (c : Cid) :
    ({ st.calls with ker := (kCondvarBroadcast cfg st.calls.ker (.condvar c)).1 } :
      Calls Tid (CondQueue Mid Cid) D Unit).granted (.mutex m) = st.calls.granted (.mutex m) := by
  obtain ⟨-, hth, -⟩ := hi.unpendAll marks_id (.condvar c)
  ext t
  rw [Calls.mem_granted, Calls.mem_granted]
  by_cases ht : t ∈ w (.condvar c)
  · -- it waited for the condition variable
    obtain ⟨-, hq⟩ := (hi.waits _ t).mp ht
    have hne : st.calls.queue t ≠ some (.mutex m) := fun hc =>
      mutex_ne_condvar (Option.some.inj (hc.symm.trans hq))
    exact ⟨fun hg => absurd hg.2.1 hne, fun hg => absurd hg.2.1 hne⟩
  · refine Calls.granted_iff rfl ?_
    show (zUnpendAllLoop cfg _ id _ _ 0).1.thread t = _
    rw [hth, if_neg ht]

theorem CondInv.schedEnter (h : CondInv cfg reentrancy st)
    (hc : (CondOp.schedEnter : CondOp cfg).Careful reentrancy st) :
    CondInv cfg reentrancy ((CondOp.schedEnter : CondOp cfg).run reentrancy st) := by
  obtain ⟨w, hb, hi⟩ := h
  obtain ⟨E, hE, hinv, hth, -⟩ := hi.schedEnter
  obtain ⟨ring, timeq, hk⟩ := hi.kernel
  have hker : KerInv cfg st.calls.ker timeq := ⟨ring, w, hk⟩
  obtain ⟨-, -, -, hpend, -⟩ := hker.schedEnter
  have hsafe : ∀ t c, st.cond t = some c → t ∉ E := by
    intro t c hcond ht
    -- a thread that leaves its wait was due
    have hdue : ∃ r, (t, r) ∈ deadlines timeq ∧ ¬ cfg.sliceTicks.toNat < r := by
      by_contra hno
      have hlate : ∀ r, (t, r) ∈ deadlines timeq → cfg.sliceTicks.toNat < r :=
        fun r hr => not_not.mp fun hlt => hno ⟨r, hr, hlt⟩
      have hp := (hpend t).mpr ⟨hE t ht, hlate⟩
      rw [hth, if_pos ht] at hp
      exact ThreadState.noConfusion hp
    obtain ⟨r, hr, hle⟩ := hdue
    cases hw : c.woken with
    | false =>
      have hrem : (t, r) ∈ remaining st.calls.ker.timeouts := by
        rw [Rep.remaining_eq hk.sched.timeouts]
        exact hr
      exact hle (hc (t, r) hrem c hcond hw)
    | true =>
      have hsched := (hk.timed t).mp (mem_map_fst_iff.mpr ⟨r, hr⟩)
      rw [(hb.well t c hcond).untimed hw] at hsched
      exact Bool.noConfusion hsched
  refine ⟨_, hb.kernel hinv.toCallsBase (fun m => hi.granted_schedEnter) ?_ ?_, hinv⟩
  · intro t c hcond
    rw [hth, if_neg (hsafe t c hcond)]
  · intro t hw
    rw [hth]
    split_ifs
    · rfl
    · exact hw

/-- **ONE STEP** of a careful run keeps the invariant. -/
theorem CondInv.step (h : CondInv cfg reentrancy st) (op : CondOp cfg)
    (ha : op.Allowed st) (hc : op.Careful reentrancy st) :
    CondInv cfg reentrancy (op.run reentrancy st) := by
  cases op with
  | lock m timeout => exact h.lock ha hc
  | unlock m =>
    by_cases ho : (st.mutex (.mutex m)).owner = some st.calls.ker.current
    · exact (h.unlock (Option.not_isSome_iff_eq_none.mp ha) (hc ho)).1
    · rw [h.unlock_other ho]
      exact h
  | wait c m timeout => exact h.wait ha hc
  | relock => exact h.relock ha hc
  | broadcast c =>
    obtain ⟨w, hb, hi⟩ := h
    obtain ⟨hinv, hth, -⟩ := hi.unpendAll marks_id (.condvar c)
    have hwoken : ∀ t, (kCondvarBroadcast cfg st.calls.ker (.condvar c)).1.thread t
          = st.calls.ker.thread t
        ∨ (kCondvarBroadcast cfg st.calls.ker (.condvar c)).1.thread t
          = (st.calls.ker.thread t).woken := by
      intro t
      show (zUnpendAllLoop cfg _ id _ _ 0).1.thread t = _
        ∨ (zUnpendAllLoop cfg _ id _ _ 0).1.thread t = _
      rw [hth]
      split_ifs
      · exact Or.inr rfl
      · exact Or.inl rfl
    exact ⟨_, hb.kernel hinv.toCallsBase (fun m => granted_broadcast hi c)
      (fun t _ _ => (woken_keeps (hwoken t)).1) (fun t => (woken_keeps (hwoken t)).2), hinv⟩
  | schedEnter => exact h.schedEnter hc
  | yield =>
    obtain ⟨w, hb, hi⟩ := h
    obtain ⟨hbase, hth⟩ := hi.yield
    refine ⟨w, CondBase.finish (hb.kernel hbase (fun m => hi.granted_yield) ?_ ?_)⟩
    · intro t c hcond
      rw [hth]
      split_ifs
      · exact (hb.well t c hcond).result.symm
      · rfl
    · intro t hw
      rw [hth]
      split_ifs
      · exact hw
      · exact hw

theorem CondReach.inv (h : CondReach cfg reentrancy (fun st op => op.Careful reentrancy st) st) :
    CondInv cfg reentrancy st := by
  refine Reach.invariant h ?_ fun _ op ih ha => ih.step op ha.1 ha.2
  rintro st ⟨k, ring, hboot, rfl⟩
  refine ⟨fun _ => [], ⟨hboot.callsInv.toCallsBase, ?_, ?_, ?_, ?_⟩, hboot.callsInv⟩
  · exact fun m => .free rfl rfl (fun _ => rfl) granted_callsBoot
  · exact fun t _ q => queue_ne_of_frame rfl _
  · exact fun t c hc => absurd hc.symm (Option.some_ne_none c)
  · exact fun r hr => absurd hr not_mem_nil

theorem CondBase.released (h : CondBase cfg reentrancy st w) {c : CondWait Mid}
    (hb : st.Blocked t c) : st.Released t c := by
  obtain ⟨hcond, hw, hp⟩ := hb
  have hwell := h.well t c hcond
  refine ⟨fun hc => ?_, fun hl => ?_⟩
  · rw [MutexSys.Holds, hwell.released] at hc
    exact Nat.lt_irrefl 0 hc
  · cases h.phase c.mutex with
    | free hlock howner hdepth hgranted => exact absurd hlock hl
    | held a howner hlock hpos hone hdepth hgranted =>
      refine ⟨a, ?_, Or.inl hpos⟩
      rintro rfl
      rw [hwell.released] at hpos
      exact Nat.lt_irrefl 0 hpos
    | handed a hlock hdepth hgranted =>
      have ha : a ∈ st.calls.granted (.mutex c.mutex) := by
        rw [hgranted]
        exact Finset.mem_singleton_self a
      refine ⟨a, ?_, Or.inr ha⟩
      rintro rfl
      exact Calls.not_granted_of_pending hp (Calls.mem_granted.mp ha)

/-- **THE MUTEX IS GIVEN BACK** by waits at depth one that are not timed out, if owners that lock
    or unlock a mutex hold it. -/
theorem condvar_wait_gives_back
    (h : CondReach cfg reentrancy (fun st op => op.Careful reentrancy st) st) : st.GivesBack := by
  obtain ⟨w, hb, -⟩ := h.inv
  exact ⟨hb.right, fun t c => hb.released⟩

def broadcastAndUnlock : List (CondOp (smallConfig (CondQueue Unit Unit))) :=
  lockAndWait 1 5 ++ [.lock () (kForever _), .yield, .unlock (), .yield, .schedEnter,
    .broadcast (), .yield, .relock, .unlock (), .yield]

theorem condvar_wait_gives_back_broadcast :
    CondReach (smallConfig _) false (fun st op => op.Careful false st)
        (condRun false broadcastAndUnlock)
      ∧ (condRun false broadcastAndUnlock).GivesBack
      ∧ (condRun false broadcastAndUnlock).returns
          = [⟨0, 1, 0, { lock := 1, owner := some 0 }⟩] := by
  have hreach : CondReach (smallConfig _) false (fun st op => op.Careful false st)
      (condRun false broadcastAndUnlock) :=
    Reach.foldl (.start ⟨_, _, smallBoot_boot, rfl⟩) (by decide +kernel)
  exact ⟨hreach, condvar_wait_gives_back hreach, by decide +kernel⟩

end AvrtosCondvar
