import Avrtos.Calls

/-! # `mutex.c`

    `Phase` follows a mutex between its hand-over and the return of the new owner. -/

namespace AvrtosMutex

open Function AvrtosDefines AvrtosKernel Runs

structure Mutex (Tid : Type) where
  lock : Nat
  owner : Option Tid
deriving DecidableEq, Repr

/-- `k_mutex_init`. -/
def kMutexInit {Tid : Type} : Mutex Tid := { lock := 0, owner := none }

variable {Tid Mid Pid D : Type} [Threads Tid]
variable [DecidableEq Mid] [DecidableEq Pid]

/-- `k_mutex_lock`, up to a switch. -/
def kMutexLock (cfg : Config Tid Mid) (reentrancy : Bool) (k : Kernel Tid Mid Pid D)
    (mutex : Mutex Tid) (m : Mid) (timeout : cfg.Timeout) :
    Kernel Tid Mid Pid D × Mutex Tid × Option Int :=
  if mutex.lock = 0 then
    -- mutex is available, acquire it
    (k, { lock := 1, owner := some k.current }, some 0)
  else if mutex.owner = some k.current then
    -- already owned by the current thread
    if reentrancy then (k, { mutex with lock := (mutex.lock + 1) % 256 }, some 0)
    else (k, mutex, some 0)
  else
    let r := zPendCurrentOn cfg k (some m) timeout
    (r.1, mutex, r.2)

def kMutexLockEnd (mutex : Mutex Tid) (t : Tid) (ret : Int) : Mutex Tid :=
  if ret = 0 then { mutex with owner := some t } else mutex

/-- `k_mutex_unlock`. -/
def kMutexUnlock (cfg : Config Tid Mid) (reentrancy : Bool)
    (k : Kernel Tid Mid Pid D) (mutex : Mutex Tid) (m : Mid) :
    Kernel Tid Mid Pid D × Mutex Tid × Option Tid :=
  if mutex.owner ≠ some k.current then (k, mutex, none)
  else if reentrancy ∧ 1 < mutex.lock then
    (k, { mutex with lock := mutex.lock - 1 }, none)
  else
    let r := zUnpendFirstThread cfg k m
    match r.2 with
    | some t => (r.1, mutex, some t)
    | none => (r.1, { lock := 0, owner := none }, none)

/-- `k_mutex_cancel_wait`. -/
def kMutexCancelWait (cfg : Config Tid Mid) (k : Kernel Tid Mid Pid D) (m : Mid) :
    Kernel Tid Mid Pid D × Int :=
  let r := zCancelAllPending cfg k m
  (r.1, int8 r.2)

structure MutexSys (Tid Mid D : Type) where
  calls : Calls Tid Mid D Unit
  mutex : Mid → Mutex Tid
  depth : Tid → Mid → Nat

def MutexSys.Holds (st : MutexSys Tid Mid D) (t : Tid) (m : Mid) : Prop :=
  0 < st.depth t m

def MutexSys.setDepth (st : MutexSys Tid Mid D) (m : Mid) (n : Nat) :
    Tid → Mid → Nat :=
  update st.depth st.calls.ker.current
    (update (st.depth st.calls.ker.current) m n)

def MutexSys.finish (st : MutexSys Tid Mid D) : MutexSys Tid Mid D :=
  let cur := st.calls.ker.current
  match st.calls.frame cur with
  | none => st
  | some f =>
      let ret := zPendResult (st.calls.ker.thread cur)
      { calls := st.calls.resume
        mutex := update st.mutex f.queue
          (kMutexLockEnd (st.mutex f.queue) cur ret)
        depth :=
          if ret = 0 then st.setDepth f.queue (st.depth cur f.queue + 1)
          else st.depth }

/-- The operations of a run. -/
inductive MutexOp (cfg : Config Tid Mid) where
  | lock (m : Mid) (timeout : cfg.Timeout)
  | unlock (m : Mid)
  | cancelWait (m : Mid)
  | schedEnter
  | yield

def MutexOp.Allowed {cfg : Config Tid Mid} (reentrancy : Bool)
    (st : MutexSys Tid Mid D) : MutexOp cfg → Prop
  | .lock m _ => st.calls.ker.current ≠ cfg.idle
      ∧ (st.Holds st.calls.ker.current m → reentrancy = true)
  | .unlock m => st.Holds st.calls.ker.current m
  | _ => True

instance {cfg : Config Tid Mid} (reentrancy : Bool) (st : MutexSys Tid Mid D) :
    (op : MutexOp cfg) → Decidable (op.Allowed reentrancy st)
  | .lock _ _ => inferInstanceAs (Decidable (_ ∧ (0 < _ → _)))
  | .unlock _ => inferInstanceAs (Decidable (0 < _))
  | .cancelWait _ | .schedEnter | .yield => isTrue trivial

def MutexOp.Careful {cfg : Config Tid Mid} (st : MutexSys Tid Mid D) :
    MutexOp cfg → Prop
  | .lock m _ => (st.mutex m).owner = some st.calls.ker.current →
      st.Holds st.calls.ker.current m ∧ (st.mutex m).lock < 255
  | _ => True

instance {cfg : Config Tid Mid} (st : MutexSys Tid Mid D) :
    (op : MutexOp cfg) → Decidable (op.Careful st)
  | .lock _ _ => inferInstanceAs (Decidable (_ → 0 < _ ∧ _))
  | .unlock _ | .cancelWait _ | .schedEnter | .yield => isTrue trivial

/-- The state after an operation. -/
def MutexOp.run {cfg : Config Tid Mid} (reentrancy : Bool) (st : MutexSys Tid Mid D) :
    MutexOp cfg → MutexSys Tid Mid D
  | .lock m timeout =>
      let r := kMutexLock cfg reentrancy st.calls.ker (st.mutex m) m timeout
      let st' := { st with mutex := update st.mutex m r.2.1 }
      match r.2.2 with
      | some ret =>
          { st' with
            calls := { st.calls with ker := r.1 }
            depth :=
              if ret = 0 then st.setDepth m (st.depth st.calls.ker.current m + 1)
              else st.depth }
      | none => { st' with calls := st.calls.leave r.1 m () }.finish
  | .unlock m =>
      let r := kMutexUnlock cfg reentrancy st.calls.ker (st.mutex m) m
      { calls := { st.calls with ker := r.1 }
        mutex := update st.mutex m r.2.1
        depth := st.setDepth m (st.depth st.calls.ker.current m - 1) }
  | .cancelWait m =>
      { st with
        calls := { st.calls with ker := (kMutexCancelWait cfg st.calls.ker m).1 } }
  | .schedEnter =>
      { st with calls := { st.calls with ker := zSchedEnter cfg st.calls.ker } }
  | .yield =>
      { st with calls := { st.calls with ker := zScheduler st.calls.ker } }.finish

def mutexBoot (k : Kernel Tid Mid Empty D) : MutexSys Tid Mid D where
  calls := callsBoot k
  mutex := fun _ => kMutexInit
  depth := fun _ _ => 0

def MutexReach (cfg : Config Tid Mid) (reentrancy : Bool)
    (ok : MutexSys Tid Mid D → MutexOp cfg → Prop) : MutexSys Tid Mid D → Prop :=
  Reach (fun st => ∃ k ring, ColdBoot cfg k ring ∧ st = mutexBoot k)
    (fun st op => op.Allowed reentrancy st ∧ ok st op) (MutexOp.run reentrancy)

/-- No two threads hold the mutex. -/
def MutexSys.Exclusive (st : MutexSys Tid Mid D) (m : Mid) : Prop :=
  ∀ t t', st.Holds t m → st.Holds t' m → t = t'

def relocked (reentrancy : Bool) : MutexSys (Fin 4) Unit Unit :=
  ([.lock () (kForever _), .yield, .lock () (kForever _), .unlock (),
    .lock () (kForever _), .yield] : List (MutexOp (smallConfig Unit))).foldl
      (MutexOp.run reentrancy) (mutexBoot (smallBoot Unit Empty Unit))

/-- **TWO HOLDERS**: afterwards the calls of both threads have returned 0. -/
theorem mutex_held_twice :
    MutexReach (smallConfig Unit) false (fun _ _ => True) (relocked false)
      ∧ ¬ (relocked false).Exclusive ()
      ∧ MutexReach (smallConfig Unit) true (fun _ _ => True) (relocked true)
      ∧ ¬ (relocked true).Exclusive () := by
  refine ⟨Reach.foldl (.start ⟨_, _, smallBoot_boot, rfl⟩) (by decide), ?_,
    Reach.foldl (.start ⟨_, _, smallBoot_boot, rfl⟩) (by decide), ?_⟩
  · intro h
    have h0 : 0 < (relocked false).depth 0 () := by decide
    have h1 : 0 < (relocked false).depth 1 () := by decide
    exact absurd (h 0 1 h0 h1) (by decide)
  · intro h
    have h0 : 0 < (relocked true).depth 0 () := by decide
    have h1 : 0 < (relocked true).depth 1 () := by decide
    exact absurd (h 0 1 h0 h1) (by decide)

variable {cfg : Config Tid Mid} {reentrancy : Bool} {st : MutexSys Tid Mid D}
variable {w : Mid → List Tid} {m : Mid} {t : Tid}

/-- Where a mutex is in its life. -/
inductive Phase (reentrancy : Bool) (st : MutexSys Tid Mid D) (m : Mid) : Prop
  /-- nobody holds it and nobody was handed it -/
  | free (hlock : (st.mutex m).lock = 0) (howner : (st.mutex m).owner = none)
      (hdepth : ∀ x, st.depth x m = 0) (hgranted : st.calls.granted m = ∅)
  /-- `t` holds it -/
  | held (t : Tid) (howner : (st.mutex m).owner = some t)
      (hlock : (st.mutex m).lock = st.depth t m) (hpos : 0 < st.depth t m)
      (hone : reentrancy = false → st.depth t m = 1)
      (hdepth : ∀ x, x ≠ t → st.depth x m = 0) (hgranted : st.calls.granted m = ∅)
  /-- it was handed to `t`, which has not run since -/
  | handed (t : Tid) (hlock : (st.mutex m).lock = 1)
      (hdepth : ∀ x, st.depth x m = 0) (hgranted : st.calls.granted m = {t})

theorem Phase.of_holds (h : Phase reentrancy st m) (ht : st.Holds t m) :
    (st.mutex m).owner = some t ∧ (st.mutex m).lock = st.depth t m
      ∧ (reentrancy = false → st.depth t m = 1) ∧ (∀ x, x ≠ t → st.depth x m = 0)
      ∧ st.calls.granted m = ∅ := by
  unfold MutexSys.Holds at ht
  cases h with
  | free hlock howner hdepth hgranted =>
    rw [hdepth] at ht
    exact absurd ht (Nat.lt_irrefl 0)
  | handed a hlock hdepth hgranted =>
    rw [hdepth] at ht
    exact absurd ht (Nat.lt_irrefl 0)
  | held a howner hlock hpos hone hdepth hgranted =>
    have ha : t = a := by
      by_contra hne
      rw [hdepth t hne] at ht
      exact absurd ht (Nat.lt_irrefl 0)
    subst ha
    exact ⟨howner, hlock, hone, hdepth, hgranted⟩

theorem Phase.exclusive (h : Phase reentrancy st m) : st.Exclusive m := by
  intro t t' ht ht'
  obtain ⟨howner, -⟩ := h.of_holds ht
  obtain ⟨howner', -⟩ := h.of_holds ht'
  exact Option.some.inj (howner.symm.trans howner')

theorem Phase.congr {st' : MutexSys Tid Mid D} (h : Phase reentrancy st m)
    (hmutex : st'.mutex m = st.mutex m) (hdepth : ∀ x, st'.depth x m = st.depth x m)
    (hgranted : st'.calls.granted m = st.calls.granted m) : Phase reentrancy st' m := by
  cases h with
  | free hl ho hd hg =>
    exact .free (hmutex ▸ hl) (hmutex ▸ ho) (fun x => (hdepth x).trans (hd x))
      (hgranted.trans hg)
  | held a ho hl hp hone hd hg =>
    refine .held a (hmutex ▸ ho) ?_ ?_ ?_ (fun x hx => (hdepth x).trans (hd x hx))
      (hgranted.trans hg)
    · rw [hmutex, hdepth]
      exact hl
    · rw [hdepth]
      exact hp
    · rw [hdepth]
      exact hone
  | handed a hl hd hg =>
    exact .handed a (hmutex ▸ hl) (fun x => (hdepth x).trans (hd x))
      (hgranted.trans hg)

theorem MutexSys.setDepth_self (n : Nat) : st.setDepth m n st.calls.ker.current m = n := by
  rw [MutexSys.setDepth, update_self, update_self]

theorem MutexSys.setDepth_of_ne {x : Tid} {m' : Mid} (n : Nat)
    (h : x ≠ st.calls.ker.current ∨ m' ≠ m) :
    st.setDepth m n x m' = st.depth x m' := by
  rw [MutexSys.setDepth]
  by_cases hx : x = st.calls.ker.current
  · subst hx
    rw [update_self, update_of_ne (h.resolve_left fun hc => hc rfl)]
  · rw [update_of_ne hx]

theorem MutexSys.finish_of_none (hf : st.calls.frame st.calls.ker.current = none) :
    st.finish = st := by
  simp only [MutexSys.finish, hf]

theorem MutexSys.finish_of_some {f : CallFrame Mid Unit}
    (hf : st.calls.frame st.calls.ker.current = some f) :
    st.finish =
      { calls := st.calls.resume
        mutex := update st.mutex f.queue (kMutexLockEnd (st.mutex f.queue)
          st.calls.ker.current (zPendResult (st.calls.ker.thread st.calls.ker.current)))
        depth :=
          if zPendResult (st.calls.ker.thread st.calls.ker.current) = 0 then
            st.setDepth f.queue (st.depth st.calls.ker.current f.queue + 1)
          else st.depth } := by
  simp only [MutexSys.finish, hf]

theorem Phase.finish (h : Phase reentrancy st m) (hb : CallsBase cfg st.calls w) :
    Phase reentrancy st.finish m := by
  cases hf : st.calls.frame st.calls.ker.current with
  | none =>
    rw [MutexSys.finish_of_none hf]
    exact h
  | some f =>
    have hcur : st.calls.ker.current ∈ st.calls.granted m ↔ f.queue = m
        ∧ zPendResult (st.calls.ker.thread st.calls.ker.current) = 0 :=
      hb.granted_current hf
    rw [MutexSys.finish_of_some hf]
    by_cases hz : f.queue = m ∧ zPendResult (st.calls.ker.thread st.calls.ker.current) = 0
    · obtain ⟨rfl, hz⟩ := hz
      have hmem := hcur.mpr ⟨rfl, hz⟩
      simp only [hz, if_true, kMutexLockEnd]
      -- the thread is granted, so the mutex was handed to it
      cases h with
      | free hl ho hd hg =>
        rw [hg] at hmem
        exact absurd hmem (Finset.notMem_empty _)
      | held a ho hl hp hone hd hg =>
        rw [hg] at hmem
        exact absurd hmem (Finset.notMem_empty _)
      | handed a hl hd hg =>
        rw [hg, Finset.mem_singleton] at hmem
        refine .held st.calls.ker.current ?_ ?_ ?_ ?_ ?_ ?_
        · simp only [update_self]
        · simp only [update_self, MutexSys.setDepth_self, hd, hl]
        · simp only [MutexSys.setDepth_self, hd]
          decide
        · intro _
          simp only [MutexSys.setDepth_self, hd]
        · intro x hx
          simp only [MutexSys.setDepth_of_ne _ (Or.inl hx), hd]
        · rw [Calls.granted_resume, hg, hmem, Finset.erase_singleton]
    · refine h.congr ?_ ?_ ?_
      · by_cases hm : f.queue = m
        · subst hm
          simp only [update_self, kMutexLockEnd, if_neg fun hc => hz ⟨rfl, hc⟩]
        · simp only [update_of_ne fun hc => hm (Eq.symm hc)]
      · intro x
        split_ifs with hz'
        · have hm : m ≠ f.queue := fun hc => hz ⟨hc.symm, hz'⟩
          exact MutexSys.setDepth_of_ne _ (Or.inr hm)
        · rfl
      · rw [Calls.granted_resume]
        exact Finset.erase_eq_of_notMem fun hc => hz (hcur.mp hc)

theorem MutexSys.finish_calls (hb : CallsBase cfg st.calls w) : CallsInv cfg st.finish.calls w := by
  cases hf : st.calls.frame st.calls.ker.current with
  | none =>
    rw [MutexSys.finish_of_none hf]
    exact ⟨hb, hf⟩
  | some f =>
    rw [MutexSys.finish_of_some hf]
    exact hb.resume

theorem MutexSys.finish_ker : st.finish.calls.ker = st.calls.ker := by
  cases hf : st.calls.frame st.calls.ker.current with
  | none => rw [MutexSys.finish_of_none hf]
  | some f =>
    rw [MutexSys.finish_of_some hf]
    rfl

theorem MutexSys.finish_of_ne (ht : t ≠ st.calls.ker.current) :
    st.finish.calls.frame t = st.calls.frame t ∧ st.finish.depth t = st.depth t := by
  cases hf : st.calls.frame st.calls.ker.current with
  | none =>
    rw [MutexSys.finish_of_none hf]
    exact ⟨rfl, rfl⟩
  | some f =>
    rw [MutexSys.finish_of_some hf]
    refine ⟨update_of_ne ht _ _, ?_⟩
    split_ifs
    · exact update_of_ne ht _ _
    · rfl

theorem Phase.setMutex {m' : Mid} {mutex : Mutex Tid} {n : Nat}
    (h : Phase reentrancy st m')
    (hphase : Phase reentrancy { st with
      mutex := update st.mutex m mutex
      depth := st.setDepth m n } m) :
    Phase reentrancy { st with
      mutex := update st.mutex m mutex
      depth := st.setDepth m n } m' := by
  by_cases hm : m' = m
  · rw [hm]
    exact hphase
  · refine h.congr ?_ ?_ rfl
    · simp only [update_of_ne hm]
    · intro x
      exact MutexSys.setDepth_of_ne _ (Or.inr hm)

theorem Phase.nest (h : Phase reentrancy st m)
    (hholds : st.Holds st.calls.ker.current m) (hre : reentrancy = true) {n : Nat}
    (hn : 0 < n) {mutex : Mutex Tid} (howner : mutex.owner = some st.calls.ker.current)
    (hlock : mutex.lock = n) :
    Phase reentrancy { st with
      mutex := update st.mutex m mutex
      depth := st.setDepth m n } m := by
  obtain ⟨-, -, -, hdepth, hgranted⟩ := h.of_holds hholds
  refine .held st.calls.ker.current ?_ ?_ ?_ ?_ ?_ hgranted
  · simp only [update_self]
    exact howner
  · simp only [update_self, MutexSys.setDepth_self]
    exact hlock
  · simp only [MutexSys.setDepth_self]
    exact hn
  · intro hc
    rw [hre] at hc
    exact nomatch hc
  · intro x hx
    simp only [MutexSys.setDepth_of_ne _ (Or.inl hx), hdepth x hx]

theorem Phase.acquire (h : Phase reentrancy st m) (hl : (st.mutex m).lock = 0) :
    Phase reentrancy { st with
      mutex := update st.mutex m
        { lock := 1, owner := some st.calls.ker.current }
      depth := st.setDepth m (st.depth st.calls.ker.current m + 1) } m := by
  cases h with
  | free _ ho hd hg =>
    refine .held st.calls.ker.current ?_ ?_ ?_ ?_ ?_ hg
    · simp only [update_self]
    · simp only [update_self, MutexSys.setDepth_self, hd]
    · simp only [MutexSys.setDepth_self]
      exact Nat.succ_pos _
    · intro _
      simp only [MutexSys.setDepth_self, hd]
    · intro x hx
      simp only [MutexSys.setDepth_of_ne _ (Or.inl hx), hd]
  | held a ho hl' hp hone hd hg => omega
  | handed a hl' hd hg => omega

theorem kMutexUnlock_nested (ho : (st.mutex m).owner = some st.calls.ker.current)
    (hre : reentrancy = true ∧ 1 < (st.mutex m).lock) :
    (MutexOp.unlock m : MutexOp cfg).run reentrancy st = { st with
      mutex := update st.mutex m
        { st.mutex m with lock := (st.mutex m).lock - 1 }
      depth := st.setDepth m (st.depth st.calls.ker.current m - 1) } := by
  have hk : kMutexUnlock cfg reentrancy st.calls.ker (st.mutex m) m
      = (st.calls.ker, { st.mutex m with lock := (st.mutex m).lock - 1 }, none) := by
    rw [kMutexUnlock, if_neg (not_not_intro ho), if_pos hre]
  simp only [MutexOp.run, hk]

theorem kMutexUnlock_last (hi : CallsInv cfg st.calls w)
    (ho : (st.mutex m).owner = some st.calls.ker.current)
    (hre : ¬ (reentrancy = true ∧ 1 < (st.mutex m).lock)) :
    (MutexOp.unlock m : MutexOp cfg).run reentrancy st =
      { calls := { st.calls with ker := (zUnpendFirstThread cfg st.calls.ker m).1 }
        mutex := update st.mutex m
          (if w m = [] then { lock := 0, owner := none } else st.mutex m)
        depth := st.setDepth m (st.depth st.calls.ker.current m - 1) } := by
  obtain ⟨hhead, -⟩ := hi.unpend m
  have hk : kMutexUnlock cfg reentrancy st.calls.ker (st.mutex m) m
      = ((zUnpendFirstThread cfg st.calls.ker m).1,
        if w m = [] then { lock := 0, owner := none } else st.mutex m, (w m).head?) := by
    rw [kMutexUnlock, if_neg (not_not_intro ho), if_neg hre]
    cases hw : w m with
    | nil => simp only [hhead, hw, List.head?, if_true]
    | cons b rest => simp only [hhead, hw, List.head?, reduceCtorEq, if_false]
  simp only [MutexOp.run, hk]

theorem Phase.unlock_calls (h : Phase reentrancy st m) (hi : CallsInv cfg st.calls w)
    (hholds : st.Holds st.calls.ker.current m) :
    ∃ w', CallsInv cfg ((MutexOp.unlock m : MutexOp cfg).run reentrancy st).calls w'
      ∧ ((MutexOp.unlock m : MutexOp cfg).run reentrancy st).calls.ker.current
          = st.calls.ker.current
      ∧ ∀ x, ((MutexOp.unlock m : MutexOp cfg).run reentrancy st).calls.ker.thread x
            = st.calls.ker.thread x
          ∨ ((MutexOp.unlock m : MutexOp cfg).run reentrancy st).calls.ker.thread x
            = (st.calls.ker.thread x).woken := by
  obtain ⟨ho, -⟩ := h.of_holds hholds
  by_cases hre : reentrancy = true ∧ 1 < (st.mutex m).lock
  · rw [kMutexUnlock_nested ho hre]
    exact ⟨w, hi, rfl, fun _ => Or.inl rfl⟩
  · rw [kMutexUnlock_last hi ho hre]
    obtain ⟨-, hinv, hth, hcur⟩ := hi.unpend m
    refine ⟨_, hinv, hcur, fun x => ?_⟩
    rw [hth]
    split_ifs
    · exact Or.inr rfl
    · exact Or.inl rfl

theorem Phase.unlock (h : Phase reentrancy st m) (hi : CallsInv cfg st.calls w)
    (hholds : st.Holds st.calls.ker.current m) {m' : Mid} (h' : Phase reentrancy st m') :
    Phase reentrancy ((MutexOp.unlock m : MutexOp cfg).run reentrancy st) m' := by
  obtain ⟨ho, hl, hone, hd, hg⟩ := h.of_holds hholds
  by_cases hre : reentrancy = true ∧ 1 < (st.mutex m).lock
  · rw [kMutexUnlock_nested ho hre]
    exact h'.setMutex (h.nest hholds hre.1 (by omega) ho (congrArg (· - 1) hl))
  · rw [kMutexUnlock_last hi ho hre]
    have hdepth : st.depth st.calls.ker.current m = 1 := by
      have hpos : 0 < st.depth st.calls.ker.current m := hholds
      cases hr : reentrancy with
      | false => exact hone hr
      | true =>
        have h1 : ¬ 1 < (st.mutex m).lock := fun hc => hre ⟨hr, hc⟩
        omega
    have hzero : ∀ x, st.setDepth m (st.depth st.calls.ker.current m - 1) x m = 0 := by
      intro x
      by_cases hx : x = st.calls.ker.current
      · rw [hx, MutexSys.setDepth_self, hdepth]
      · rw [MutexSys.setDepth_of_ne _ (Or.inl hx)]
        exact hd x hx
    by_cases hm : m' = m
    · subst hm
      cases hw : w m' with
      | nil =>
        refine .free ?_ ?_ hzero ?_
        · simp only [update_self, if_true]
        · simp only [update_self, if_true]
        · rw [hi.granted_unpend, hw, hg]
          simp
      | cons b rest =>
        refine .handed b ?_ hzero ?_
        · simp only [update_self, reduceCtorEq, if_false]
          exact hl.trans hdepth
        · rw [hi.granted_unpend, hw, hg]
          simp
    · refine h'.congr ?_ ?_ ?_
      · simp only [update_of_ne hm]
      · intro x
        exact MutexSys.setDepth_of_ne _ (Or.inr hm)
      · rw [hi.granted_unpend, if_neg hm]

structure MutexBase (cfg : Config Tid Mid) (reentrancy : Bool)
    (st : MutexSys Tid Mid D) (w : Mid → List Tid) : Prop where
  calls : CallsBase cfg st.calls w
  phase : ∀ m, Phase reentrancy st m

def MutexInv (cfg : Config Tid Mid) (reentrancy : Bool) (st : MutexSys Tid Mid D) :
    Prop :=
  ∃ w, MutexBase cfg reentrancy st w ∧ CallsInv cfg st.calls w

/-- A lock of a free mutex. -/
theorem run_lock_free (timeout : cfg.Timeout) (hl : (st.mutex m).lock = 0) :
    (MutexOp.lock m timeout : MutexOp cfg).run reentrancy st = { st with
      mutex := update st.mutex m
        { lock := 1, owner := some st.calls.ker.current }
      depth := st.setDepth m (st.depth st.calls.ker.current m + 1) } := by
  simp only [MutexOp.run, kMutexLock, if_pos hl, if_true]

/-- A lock by the recorded owner. -/
theorem run_lock_owner (timeout : cfg.Timeout) (hl : (st.mutex m).lock ≠ 0)
    (ho : (st.mutex m).owner = some st.calls.ker.current) :
    (MutexOp.lock m timeout : MutexOp cfg).run reentrancy st = { st with
      mutex := update st.mutex m
        (if reentrancy then { st.mutex m with lock := ((st.mutex m).lock + 1) % 256 }
          else st.mutex m)
      depth := st.setDepth m (st.depth st.calls.ker.current m + 1) } := by
  cases reentrancy <;>
    simp only [MutexOp.run, kMutexLock, if_neg hl, if_pos ho, Bool.false_eq_true, if_true, if_false]

theorem run_lock_noWait (hl : (st.mutex m).lock ≠ 0)
    (ho : (st.mutex m).owner ≠ some st.calls.ker.current) :
    (MutexOp.lock m (kNoWait cfg) : MutexOp cfg).run reentrancy st = st := by
  have hz : -EAGAIN ≠ 0 := by decide
  simp only [MutexOp.run, kMutexLock, if_neg hl, if_neg ho, zPendCurrentOn, if_true,
    update_eq_self, if_neg hz]

theorem run_lock_wait {timeout : cfg.Timeout} (hl : (st.mutex m).lock ≠ 0)
    (ho : (st.mutex m).owner ≠ some st.calls.ker.current) (hne : timeout ≠ kNoWait cfg) :
    (MutexOp.lock m timeout : MutexOp cfg).run reentrancy st = MutexSys.finish { st with
      calls := st.calls.leave (zPendCurrentOn cfg st.calls.ker (some m) timeout).1 m () } := by
  simp only [MutexOp.run, kMutexLock, if_neg hl, if_neg ho, zPendCurrentOn, if_neg hne,
    update_eq_self]

/-- `k_mutex_unlock` by a thread that is not the recorded owner. -/
theorem run_unlock_other (ho : (st.mutex m).owner ≠ some st.calls.ker.current) :
    (MutexOp.unlock m : MutexOp cfg).run reentrancy st = { st with
      depth := st.setDepth m (st.depth st.calls.ker.current m - 1) } := by
  simp only [MutexOp.run, kMutexUnlock, if_pos ho, update_eq_self]

/-- Nothing about `m` differs. -/
structure Untouched (m : Mid) (st st₁ : MutexSys Tid Mid D) : Prop where
  mutex : st₁.mutex m = st.mutex m
  depth : ∀ x, st₁.depth x m = st.depth x m
  granted : st₁.calls.granted m = st.calls.granted m

def MutexOp.Bypasses {cfg : Config Tid Mid} (st : MutexSys Tid Mid D) (m : Mid) :
    MutexOp cfg → Prop
  | .lock m' _ => m' = m →
      (st.mutex m).lock ≠ 0 ∧ (st.mutex m).owner ≠ some st.calls.ker.current
  | .unlock m' => m' ≠ m
  | _ => True

theorem untouched_update {m' : Mid} (hm : m' ≠ m) (mutex : Mutex Tid) (n : Nat) :
    Untouched m st { st with
      mutex := update st.mutex m' mutex
      depth := st.setDepth m' n } :=
  ⟨update_of_ne hm.symm _ _, fun _ => MutexSys.setDepth_of_ne _ (Or.inr hm.symm), rfl⟩

/-- What an operation leaves when no thread returns from a call. -/
theorem MutexOp.run_spec_of_calls {op : MutexOp cfg} {st₁ : MutexSys Tid Mid D}
    {w₁ : Mid → List Tid} (hrun : op.run reentrancy st = st₁)
    (hinv : CallsInv cfg st₁.calls w₁) (hun : ∀ m, op.Bypasses st m → Untouched m st st₁) :
    ∃ st₁ w₁, CallsBase cfg st₁.calls w₁ ∧ op.run reentrancy st = st₁.finish
      ∧ ∀ m, op.Bypasses st m → Untouched m st st₁ :=
  ⟨st₁, w₁, hinv.toCallsBase, hrun.trans (MutexSys.finish_of_none hinv.running).symm, hun⟩

theorem MutexOp.run_spec (hi : CallsInv cfg st.calls w) (op : MutexOp cfg)
    (ha : op.Allowed reentrancy st) :
    ∃ st₁ w₁, CallsBase cfg st₁.calls w₁ ∧ op.run reentrancy st = st₁.finish
      ∧ ∀ m, op.Bypasses st m → Untouched m st st₁ := by
  cases op with
  | lock m' timeout =>
    by_cases hl : (st.mutex m').lock = 0
    · refine MutexOp.run_spec_of_calls (run_lock_free timeout hl) hi fun m hb =>
        untouched_update ?_ _ _
      rintro rfl
      exact (hb rfl).1 hl
    · by_cases ho : (st.mutex m').owner = some st.calls.ker.current
      · refine MutexOp.run_spec_of_calls (run_lock_owner timeout hl ho) hi fun m hb =>
          untouched_update ?_ _ _
        rintro rfl
        exact (hb rfl).2 ho
      · by_cases hne : timeout = kNoWait cfg
        · subst hne
          exact MutexOp.run_spec_of_calls (run_lock_noWait hl ho) hi fun m _ =>
            ⟨rfl, fun _ => rfl, rfl⟩
        · obtain ⟨-, hcalls, hth, -⟩ := hi.leave ha.1 m' () hne
          refine ⟨_, _, hcalls, run_lock_wait hl ho hne, fun m _ => ⟨rfl, fun _ => rfl, ?_⟩⟩
          refine hi.granted_leave m' ?_ fun x hx => ?_
          · rw [hth, if_pos rfl]
            rfl
          · rw [hth, if_neg hx]
  | unlock m' =>
    by_cases ho : (st.mutex m').owner = some st.calls.ker.current
    · by_cases hre : reentrancy = true ∧ 1 < (st.mutex m').lock
      · exact MutexOp.run_spec_of_calls (kMutexUnlock_nested ho hre) hi fun m hb =>
          untouched_update hb _ _
      · obtain ⟨-, hinv, -⟩ := hi.unpend m'
        refine MutexOp.run_spec_of_calls (kMutexUnlock_last hi ho hre) hinv fun m hb => ?_
        obtain ⟨hmutex, hdepth, -⟩ : Untouched m st _ := untouched_update hb
          (if w m' = [] then { lock := 0, owner := none } else st.mutex m')
          (st.depth st.calls.ker.current m' - 1)
        exact ⟨hmutex, hdepth, by rw [hi.granted_unpend, if_neg (Ne.symm hb)]⟩
    · refine MutexOp.run_spec_of_calls (run_unlock_other ho) hi fun m hb =>
        ⟨rfl, fun x => ?_, rfl⟩
      exact MutexSys.setDepth_of_ne _ (Or.inr (Ne.symm hb))
  | cancelWait m' =>
    obtain ⟨hinv, -⟩ := hi.unpendAll marks_cancel m'
    exact MutexOp.run_spec_of_calls rfl hinv fun m _ =>
      ⟨rfl, fun _ => rfl, hi.granted_cancel m'⟩
  | schedEnter =>
    obtain ⟨E, -, hinv, -⟩ := hi.schedEnter
    exact MutexOp.run_spec_of_calls rfl hinv fun m _ =>
      ⟨rfl, fun _ => rfl, hi.granted_schedEnter⟩
  | yield =>
    obtain ⟨hinv, -⟩ := hi.yield
    exact ⟨_, w, hinv, rfl, fun m _ => ⟨rfl, fun _ => rfl, hi.granted_yield⟩⟩

theorem MutexOp.run_calls (hi : CallsInv cfg st.calls w) (op : MutexOp cfg)
    (ha : op.Allowed reentrancy st) :
    ∃ w', CallsInv cfg (op.run reentrancy st).calls w' := by
  obtain ⟨st₁, w₁, hb, hrun, -⟩ := op.run_spec hi ha
  rw [hrun]
  exact ⟨w₁, MutexSys.finish_calls hb⟩

def MutexOp.CarefulFor {cfg : Config Tid Mid} (m : Mid) (st : MutexSys Tid Mid D) :
    MutexOp cfg → Prop
  | .lock m' timeout => m' = m → (MutexOp.lock m' timeout : MutexOp cfg).Careful st
  | _ => True

theorem Phase.step (h : Phase reentrancy st m) (hi : CallsInv cfg st.calls w)
    (op : MutexOp cfg) (ha : op.Allowed reentrancy st) (hc : op.CarefulFor m st) :
    Phase reentrancy (op.run reentrancy st) m := by
  have hbypass : op.Bypasses st m → Phase reentrancy (op.run reentrancy st) m := by
    intro hb
    obtain ⟨st₁, w₁, hbase, hrun, hun⟩ := op.run_spec hi ha
    obtain ⟨hmutex, hdepth, hgranted⟩ := hun m hb
    rw [hrun]
    exact (h.congr hmutex hdepth hgranted).finish hbase
  cases op with
  | lock m' timeout =>
    by_cases hm : m' = m
    · subst hm
      by_cases hl : (st.mutex m').lock = 0
      · rw [run_lock_free timeout hl]
        exact h.acquire hl
      · by_cases ho : (st.mutex m').owner = some st.calls.ker.current
        · obtain ⟨hholds, hlt⟩ := hc rfl ho
          obtain ⟨-, hlock, -⟩ := h.of_holds hholds
          have hre := ha.2 hholds
          rw [run_lock_owner timeout hl ho, if_pos hre, Nat.mod_eq_of_lt (by omega)]
          exact h.nest hholds hre (Nat.succ_pos _) ho (congrArg (· + 1) hlock)
        · exact hbypass fun _ => ⟨hl, ho⟩
    · exact hbypass fun hc => absurd hc hm
  | unlock m' =>
    by_cases hm : m' = m
    · subst hm
      exact h.unlock hi ha h
    · exact hbypass hm
  | cancelWait m' => exact hbypass trivial
  | schedEnter => exact hbypass trivial
  | yield => exact hbypass trivial

/-- **ONE STEP** of a careful run keeps the invariant. -/
theorem MutexInv.step (h : MutexInv cfg reentrancy st) (op : MutexOp cfg)
    (ha : op.Allowed reentrancy st) (hc : op.Careful st) :
    MutexInv cfg reentrancy (op.run reentrancy st) := by
  obtain ⟨w, hb, hi⟩ := h
  obtain ⟨w', hinv⟩ := op.run_calls hi ha
  refine ⟨w', ⟨hinv.toCallsBase, fun m => (hb.phase m).step hi op ha ?_⟩, hinv⟩
  cases op with
  | lock m' timeout => exact fun _ => hc
  | _ => trivial

theorem MutexReach.inv
    (h : MutexReach cfg reentrancy (fun st op => op.Careful st) st) :
    MutexInv cfg reentrancy st := by
  refine Reach.invariant h ?_ fun _ op ih ha => ih.step op ha.1 ha.2
  rintro st ⟨k, ring, hboot, rfl⟩
  exact ⟨fun _ => [], ⟨hboot.callsInv.toCallsBase, fun m =>
    .free rfl rfl (fun _ => rfl) granted_callsBoot⟩, hboot.callsInv⟩

/-- **MUTUAL EXCLUSION** in every state of every run in which no recorded
    owner locks a mutex that it does not hold, and none is locked 256 times. -/
theorem mutex_exclusive (h : MutexReach cfg reentrancy (fun st op => op.Careful st) st)
    (m : Mid) : st.Exclusive m := by
  obtain ⟨w, hb, -⟩ := h.inv
  exact (hb.phase m).exclusive

def passedOn : MutexSys (Fin 4) Unit Unit :=
  ([.lock () (kForever _), .lock () (kForever _), .yield, .lock () (kForever _),
    .unlock (), .unlock (), .yield] : List (MutexOp (smallConfig Unit))).foldl
      (MutexOp.run true) (mutexBoot (smallBoot Unit Empty Unit))

theorem mutex_exclusive_passedOn :
    MutexReach (smallConfig Unit) true (fun st op => op.Careful st) passedOn
      ∧ passedOn.Exclusive () ∧ passedOn.depth 1 () = 1 := by
  have hreach : MutexReach (smallConfig Unit) true (fun st op => op.Careful st)
      passedOn := Reach.foldl (.start ⟨_, _, smallBoot_boot, rfl⟩) (by decide)
  exact ⟨hreach, mutex_exclusive hreach (), by decide⟩

end AvrtosMutex
