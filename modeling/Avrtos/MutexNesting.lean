import Avrtos.Mutex

/-! # Nested locks of one mutex

    `lock` is the depth in 8 bits; below 256 as many unlocks as locks release the mutex. -/

namespace AvrtosMutex

open Function AvrtosDefines AvrtosKernel Runs

variable {Tid Mid D : Type} [Threads Tid] [DecidableEq Mid]
variable {cfg : Config Tid Mid} {st st₁ : MutexSys Tid Mid D} {w : Mid → List Tid}
variable {m : Mid} {A : Tid} {n : Nat}

/-- `A` holds `m` at depth `n`. -/
structure Held (st : MutexSys Tid Mid D) (m : Mid) (A : Tid) (n : Nat) : Prop where
  owner : (st.mutex m).owner = some A
  lock : (st.mutex m).lock = n
  depth : st.depth A m = n
  pos : 0 < n
  others : ∀ x, x ≠ A → st.depth x m = 0
  granted : st.calls.granted m = ∅

theorem Phase.held_of_depth (h : Phase true st m) (hn : st.depth A m = n) (hpos : 0 < n) :
    Held st m A n := by
  have hholds : st.Holds A m := by
    rw [MutexSys.Holds, hn]
    exact hpos
  obtain ⟨ho, hl, -, hd, hg⟩ := h.of_holds hholds
  exact ⟨ho, hl.trans hn, hn, hpos, hd, hg⟩

theorem Held.congr (h : Held st m A n) (hun : Untouched m st st₁) : Held st₁ m A n where
  owner := hun.mutex ▸ h.owner
  lock := hun.mutex ▸ h.lock
  depth := (hun.depth A).trans h.depth
  pos := h.pos
  others := fun x hx => (hun.depth x).trans (h.others x hx)
  granted := hun.granted.trans h.granted

theorem Held.untouched_finish (h : Held st m A n) (hb : CallsBase cfg st.calls w) :
    Untouched m st st.finish := by
  cases hf : st.calls.frame st.calls.ker.current with
  | none =>
    rw [MutexSys.finish_of_none hf]
    exact ⟨rfl, fun _ => rfl, rfl⟩
  | some f =>
    have hnot : ¬ (f.queue = m ∧ zPendResult (st.calls.ker.thread st.calls.ker.current) = 0) := by
      rw [← hb.granted_current hf, h.granted]
      exact Finset.notMem_empty _
    rw [MutexSys.finish_of_some hf]
    refine ⟨?_, fun x => ?_, ?_⟩
    · by_cases hm : f.queue = m
      · subst hm
        simp only [update_self, kMutexLockEnd, if_neg fun hc => hnot ⟨rfl, hc⟩]
      · simp only [update_of_ne fun hc => hm (Eq.symm hc)]
    · simp only
      split_ifs with hz
      · exact MutexSys.setDepth_of_ne _ (Or.inr fun hc => hnot ⟨hc.symm, hz⟩)
      · rfl
    · rw [Calls.granted_resume, h.granted]
      rfl

def MutexOp.Locks {cfg : Config Tid Mid} (A : Tid) (m : Mid) (st : MutexSys Tid Mid D) :
    MutexOp cfg → Bool
  | .lock m' _ => decide (m' = m ∧ st.calls.ker.current = A)
  | _ => false

def MutexOp.Unlocks {cfg : Config Tid Mid} (A : Tid) (m : Mid) (st : MutexSys Tid Mid D) :
    MutexOp cfg → Bool
  | .unlock m' => decide (m' = m ∧ st.calls.ker.current = A)
  | _ => false

theorem MutexOp.eq_unlock {op : MutexOp cfg} (h : op.Unlocks A m st = true) :
    op = .unlock m ∧ st.calls.ker.current = A := by
  cases op with
  | unlock m' =>
    obtain ⟨rfl, hcur⟩ := of_decide_eq_true h
    exact ⟨rfl, hcur⟩
  | _ => exact Bool.noConfusion h

/-- **THE OTHERS** can only wait. -/
theorem Held.step (h : Held st m A n) (hi : CallsInv cfg st.calls w) {op : MutexOp cfg}
    (ha : op.Allowed true st) (hlocks : op.Locks A m st = false)
    (hunlocks : op.Unlocks A m st = false) : Held (op.run true st) m A n := by
  have hbypass : op.Bypasses st m := by
    cases op with
    | lock m' timeout =>
      rintro rfl
      refine ⟨?_, ?_⟩
      · rw [h.lock]
        exact h.pos.ne'
      · rw [h.owner]
        intro hc
        exact of_decide_eq_false hlocks ⟨rfl, (Option.some.inj hc).symm⟩
    | unlock m' =>
      rintro rfl
      by_cases hcur : st.calls.ker.current = A
      · exact of_decide_eq_false hunlocks ⟨rfl, hcur⟩
      · have hholds : 0 < st.depth st.calls.ker.current m' := ha
        rw [h.others _ hcur] at hholds
        exact absurd hholds (Nat.lt_irrefl 0)
    | cancelWait m' => trivial
    | schedEnter => trivial
    | yield => trivial
  obtain ⟨st₁, w₁, hb, hrun, hun⟩ := op.run_spec hi ha
  have h₁ : Held st₁ m A n := h.congr (hun m hbypass)
  rw [hrun]
  exact h₁.congr (h₁.untouched_finish hb)

/-- `k_mutex_unlock` returns NULL, leaves the kernel as it is, and the mutex locked. -/
def Keeps (cfg : Config Tid Mid) (m : Mid) (st : MutexSys Tid Mid D) : Prop :=
  ∃ mutex, kMutexUnlock cfg true st.calls.ker (st.mutex m) m = (st.calls.ker, mutex, none)
    ∧ mutex.lock ≠ 0 ∧ mutex.owner = (st.mutex m).owner

/-- `k_mutex_unlock` makes the first waiter READY, for which the mutex stays locked, and returns
    it. -/
def Releases (cfg : Config Tid Mid) (m : Mid) (st : MutexSys Tid Mid D) : Prop :=
  ∃ w, CallsInv cfg st.calls w
    ∧ match w m with
      | [] => (kMutexUnlock cfg true st.calls.ker (st.mutex m) m).2 = (kMutexInit, none)
      | t :: _ => (kMutexUnlock cfg true st.calls.ker (st.mutex m) m).2
            = ({ st.mutex m with lock := 1 }, some t)
          ∧ ((kMutexUnlock cfg true st.calls.ker (st.mutex m) m).1.thread t).state = .ready

/-- Above the last level. -/
theorem Held.keeps (h : Held st m A (n + 1)) (hn : 0 < n)
    (hcur : st.calls.ker.current = A) : Keeps cfg m st := by
  have ho : (st.mutex m).owner = some st.calls.ker.current := hcur ▸ h.owner
  have hl : 1 < (st.mutex m).lock := by
    rw [h.lock]
    omega
  refine ⟨{ st.mutex m with lock := (st.mutex m).lock - 1 }, ?_, ?_, rfl⟩
  · rw [kMutexUnlock, if_neg (not_not_intro ho), if_pos ⟨rfl, hl⟩]
  · exact (Nat.sub_pos_of_lt hl).ne'

theorem Held.unlock (h : Held st m A (n + 1)) (hn : 0 < n) (hcur : st.calls.ker.current = A) :
    Held ((MutexOp.unlock m : MutexOp cfg).run true st) m A n := by
  have ho : (st.mutex m).owner = some st.calls.ker.current := hcur ▸ h.owner
  have hl : 1 < (st.mutex m).lock := by
    rw [h.lock]
    omega
  rw [kMutexUnlock_nested ho ⟨rfl, hl⟩]
  subst hcur
  refine ⟨?_, ?_, ?_, hn, fun x hx => ?_, h.granted⟩
  · simp only [update_self]
    exact h.owner
  · simp only [update_self, h.lock, Nat.add_sub_cancel]
  · simp only [MutexSys.setDepth_self, h.depth, Nat.add_sub_cancel]
  · exact (MutexSys.setDepth_of_ne _ (Or.inl hx)).trans (h.others x hx)

theorem Held.releases (h : Held st m A 1) (hi : CallsInv cfg st.calls w)
    (hcur : st.calls.ker.current = A) : Releases cfg m st := by
  have ho : (st.mutex m).owner = some st.calls.ker.current := hcur ▸ h.owner
  have hl : ¬ (True ∧ 1 < (st.mutex m).lock) := by
    rw [h.lock]
    omega
  refine ⟨w, hi, ?_⟩
  cases hw : w m with
  | nil =>
    obtain ⟨hnone, -⟩ := hi.unpend_nobody hw
    simp only [kMutexUnlock, if_neg (not_not_intro ho), if_neg hl, hnone]
    rfl
  | cons t rest =>
    obtain ⟨hsome, -, hth, -⟩ := hi.unpend_first hw
    simp only [kMutexUnlock, if_neg (not_not_intro ho), if_neg hl, hsome]
    refine ⟨?_, ?_⟩
    · rw [← h.lock]
    · rw [hth, if_pos rfl]
      rfl

theorem MutexReach.phase (h : MutexReach cfg true (fun st op => op.CarefulFor m st) st) :
    ∃ w, CallsInv cfg st.calls w ∧ Phase true st m := by
  refine Reach.invariant (P := fun st => ∃ w, CallsInv cfg st.calls w ∧ Phase true st m) h
    ?_ ?_
  · rintro st ⟨k, ring, hboot, rfl⟩
    exact ⟨_, hboot.callsInv, .free rfl rfl (fun _ => rfl) granted_callsBoot⟩
  · rintro st op ⟨w, hi, hp⟩ ⟨ha, hc⟩
    obtain ⟨w', hi'⟩ := op.run_calls hi ha
    exact ⟨w', hi', hp.step hi op ha hc⟩

def unlockStates (A : Tid) (m : Mid) :
    MutexSys Tid Mid D → List (MutexOp cfg) → List (MutexSys Tid Mid D)
  | _, [] => []
  | st, op :: ops =>
      if op.Unlocks A m st then st :: unlockStates A m (op.run true st) ops
      else unlockStates A m (op.run true st) ops

/-- A run goes on from a state in which `A` holds `m`. -/
theorem Held.run {ops : List (MutexOp cfg)} (h : Held st m A n) (hi : CallsInv cfg st.calls w)
    (hops : Allowed (fun st op => op.Allowed true st ∧ op.Locks A m st = false)
      (MutexOp.run true) st ops) :
    ((unlockStates A m st ops).length < n →
        ∀ x, x ≠ A → (ops.foldl (MutexOp.run true) st).depth x m = 0)
      ∧ ∀ i s, (unlockStates A m st ops)[i]? = some s →
        (i + 1 < n → Keeps cfg m s) ∧ (i + 1 = n → Releases cfg m s) := by
  induction ops generalizing st w n with
  | nil => exact ⟨fun _ => h.others, fun i s hs => absurd hs (by simp [unlockStates])⟩
  | cons op ops ih =>
    obtain ⟨⟨ha, hlocks⟩, hrest⟩ := hops
    obtain ⟨w', hi'⟩ := op.run_calls hi ha
    rw [unlockStates, List.foldl_cons]
    by_cases hunlocks : op.Unlocks A m st = true
    · rw [if_pos hunlocks]
      obtain ⟨rfl, hcur⟩ := MutexOp.eq_unlock hunlocks
      obtain ⟨n, rfl⟩ := Nat.exists_eq_add_one.mpr h.pos
      rcases Nat.eq_zero_or_pos n with rfl | hn
      · -- the last level
        refine ⟨fun hc => absurd hc (by simp), fun i s hs => ⟨fun hc => absurd hc (by omega), ?_⟩⟩
        intro hone
        obtain rfl : i = 0 := by omega
        obtain rfl : st = s := by simpa using hs
        exact h.releases hi hcur
      · obtain ⟨hothers, hstates⟩ := ih (h.unlock hn hcur) hi' hrest
        refine ⟨fun hc => hothers (by simpa using hc), ?_⟩
        rintro (_ | i) s hs
        · obtain rfl : st = s := by simpa using hs
          exact ⟨fun _ => h.keeps hn hcur, fun hc => absurd hc (by omega)⟩
        · obtain ⟨hkeeps, hreleases⟩ := hstates i s (by simpa using hs)
          exact ⟨fun hc => hkeeps (by omega), fun hc => hreleases (by omega)⟩
    · rw [if_neg hunlocks]
      exact ih (h.step hi ha hlocks (Bool.eq_false_of_not_eq_true hunlocks)) hi' hrest

/-- **NESTED LOCKS**: of the unlocks of a mutex locked `n` times the first `n - 1` release
    nothing, and the `n`-th one releases it. -/
theorem nested_locks (h : MutexReach cfg true (fun st op => op.CarefulFor m st) st)
    (hn : st.depth A m = n) (hpos : 1 ≤ n) {ops : List (MutexOp cfg)}
    (hops : Allowed (fun st op => op.Allowed true st ∧ op.Locks A m st = false)
      (MutexOp.run true) st ops) :
    ((unlockStates A m st ops).length < n →
        ∀ x, x ≠ A → (ops.foldl (MutexOp.run true) st).depth x m = 0)
      ∧ ∀ i s, (unlockStates A m st ops)[i]? = some s →
        (i + 1 < n → Keeps cfg m s) ∧ (i + 1 = n → Releases cfg m s) := by
  obtain ⟨w, hi, hp⟩ := h.phase
  exact (hp.held_of_depth hn hpos).run hi hops

def lockedTimes : Nat → MutexSys (Fin 4) Unit Unit
  | 0 => mutexBoot (smallBoot Unit Empty Unit)
  | n + 1 => (MutexOp.lock () (kNoWait _) : MutexOp (smallConfig Unit)).run true (lockedTimes n)

def waitAndUnlock : List (MutexOp (smallConfig Unit)) :=
  [.yield, .lock () (kForever _), .unlock (), .unlock ()]

theorem nested_locks_two :
    (unlockStates 0 () (lockedTimes 2) waitAndUnlock).length = 2
      ∧ ∀ i s, (unlockStates 0 () (lockedTimes 2) waitAndUnlock)[i]? = some s →
        (i + 1 < 2 → Keeps (smallConfig Unit) () s)
          ∧ (i + 1 = 2 → Releases (smallConfig Unit) () s) := by
  have hreach : MutexReach (smallConfig Unit) true (fun st op => op.CarefulFor () st)
      (lockedTimes 2) := by
    refine .step _ (.step _ (.start ⟨_, _, smallBoot_boot, rfl⟩) ⟨by decide, fun _ => ?_⟩)
      ⟨by decide, fun _ => ?_⟩
    · show (MutexOp.lock () (kNoWait _) : MutexOp (smallConfig Unit)).Careful (lockedTimes 0)
      decide
    · show (MutexOp.lock () (kNoWait _) : MutexOp (smallConfig Unit)).Careful (lockedTimes 1)
      decide
  exact ⟨by decide, (nested_locks hreach (by decide) (by decide) (by decide)).2⟩

theorem lockedTimes_succ {n : Nat} (hn : n < 256) : lockedTimes (n + 1) =
    { calls := callsBoot (smallBoot Unit Empty Unit)
      mutex := fun _ => ⟨(n + 1) % 256, some 0⟩
      depth := fun t _ => if t = 0 then n + 1 else 0 } := by
  induction n with
  | zero =>
    rw [lockedTimes, run_lock_free _ rfl]
    congr 1
    funext t m
    fin_cases t <;> rfl
  | succ n ih =>
    have hl : ((lockedTimes (n + 1)).mutex ()).lock ≠ 0 := by
      rw [ih (by omega)]
      show (n + 1) % 256 ≠ 0
      omega
    rw [lockedTimes, run_lock_owner _ hl (by rw [ih (by omega)]; rfl), ih (by omega)]
    congr 1
    · funext m
      simp
    · funext t m
      fin_cases t <;> rfl

theorem lockedTimes_reach {n : Nat} (hn : n ≤ 256) :
    MutexReach (smallConfig Unit) true (fun _ _ => True) (lockedTimes n) := by
  induction n with
  | zero => exact .start ⟨_, _, smallBoot_boot, rfl⟩
  | succ n ih =>
    refine .step _ (ih (by omega)) ⟨⟨?_, fun _ => rfl⟩, trivial⟩
    cases n with
    | zero => decide
    | succ n =>
      rw [lockedTimes_succ (by omega)]
      show (0 : Fin 4) ≠ 3
      decide

def overlocked : MutexSys (Fin 4) Unit Unit :=
  ([.yield, .lock () (kNoWait _)] : List (MutexOp (smallConfig Unit))).foldl
    (MutexOp.run true) (lockedTimes 256)

/-- **256 LEVELS** are none: thread 0 holds the mutex 256 times, and the lock of thread
    1 returns 0. -/
theorem overlocked_twice :
    MutexReach (smallConfig Unit) true (fun _ _ => True) overlocked
      ∧ overlocked.depth 0 () = 256 ∧ overlocked.depth 1 () = 1 := by
  have heq : lockedTimes 256 = _ := lockedTimes_succ (n := 255) (by decide)
  refine ⟨Reach.foldl (lockedTimes_reach le_rfl) ?_, ?_, ?_⟩
  · rw [heq]
    decide
  · rw [overlocked, heq]
    decide
  · rw [overlocked, heq]
    decide

end AvrtosMutex
