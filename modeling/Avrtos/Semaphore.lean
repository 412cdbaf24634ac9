import Avrtos.Calls

/-! # `semaphore.c`

    Units are taken, counted or on their way to a waiter, over any run. -/

namespace AvrtosSemaphore

open Function List AvrtosDefines AvrtosKernel Runs

structure Sem where
  count : Nat
  limit : Nat
deriving DecidableEq, Repr

/-- `k_sem_init`. -/
def kSemInit (argsChecks : Bool) (sem : Sem) (initialCount limit : BitVec 8) :
    Sem × Int :=
  if zUser argsChecks (limit ≠ 0) then
    ({ limit := limit.toNat, count := min limit.toNat initialCount.toNat }, 0)
  else (sem, -EINVAL)

variable {Tid Sid Pid D : Type} [Threads Tid]
variable [DecidableEq Sid] [DecidableEq Pid]

/-- `k_sem_take`. -/
def kSemTake (cfg : Config Tid Sid) (k : Kernel Tid Sid Pid D) (sem : Sem) (s : Sid)
    (timeout : cfg.Timeout) : Kernel Tid Sid Pid D × Sem × Option Int :=
  if 0 < sem.count then
    -- semaphore is available, decrement count
    (k, { sem with count := sem.count - 1 }, some 0)
  else
    let r := zPendCurrentOn cfg k (some s) timeout
    (r.1, sem, r.2)

/-- `k_sem_give`. -/
def kSemGive (cfg : Config Tid Sid) (k : Kernel Tid Sid Pid D) (sem : Sem) (s : Sid) :
    Kernel Tid Sid Pid D × Sem × Option Tid :=
  let r := zUnpendFirstThread cfg k s
  match r.2 with
  | some t => (r.1, sem, some t)
  | none =>
      -- no threads are waiting, increment the semaphore count
      if sem.count < sem.limit then
        (r.1, { sem with count := (sem.count + 1) % 256 }, none)
      else (r.1, sem, none)

/-- `k_sem_cancel_wait`. -/
def kSemCancelWait (cfg : Config Tid Sid) (k : Kernel Tid Sid Pid D) (s : Sid) :
    Kernel Tid Sid Pid D × Int :=
  let r := zCancelAllPending cfg k s
  (r.1, int8 r.2)

structure Take (Sid : Type) where
  sem : Sid
  ret : Int
  unit : Bool

structure SemSys (Tid Sid D : Type) where
  calls : Calls Tid Sid D Unit
  sem : Sid → Sem
  /-- gives that had an effect -/
  gives : Sid → Nat
  /-- a unit was handed to the thread in the call it is in -/
  unit : Tid → Bool
  log : List (Take Sid)

def SemSys.handed (st : SemSys Tid Sid D) (s : Sid) : Finset Tid :=
  Finset.univ.filter fun t => st.calls.queue t = some s ∧ st.unit t = true

def SemSys.taken (st : SemSys Tid Sid D) (s : Sid) : Nat :=
  (st.log.filter fun e => e.sem = s ∧ e.unit = true).length

def SemSys.finish (st : SemSys Tid Sid D) : SemSys Tid Sid D :=
  let cur := st.calls.ker.current
  match st.calls.frame cur with
  | none => st
  | some f =>
      { st with
        calls := st.calls.resume
        log := ⟨f.queue, zPendResult (st.calls.ker.thread cur), st.unit cur⟩ :: st.log }

/-- The operations of a run. -/
inductive SemOp (cfg : Config Tid Sid) where
  | take (s : Sid) (timeout : cfg.Timeout)
  | give (s : Sid)
  | cancelWait (s : Sid)
  | schedEnter
  | yield

def SemOp.Allowed {cfg : Config Tid Sid} (st : SemSys Tid Sid D) : SemOp cfg → Prop
  | .take _ timeout => timeout ≠ kNoWait cfg → st.calls.ker.current ≠ cfg.idle
  | _ => True

instance {cfg : Config Tid Sid} (st : SemSys Tid Sid D) :
    (op : SemOp cfg) → Decidable (op.Allowed st)
  | .take _ _ => inferInstanceAs (Decidable (_ → _))
  | .give _ | .cancelWait _ | .schedEnter | .yield => isTrue trivial

/-- The state after an operation. -/
def SemOp.run {cfg : Config Tid Sid} (st : SemSys Tid Sid D) :
    SemOp cfg → SemSys Tid Sid D
  | .take s timeout =>
      let r := kSemTake cfg st.calls.ker (st.sem s) s timeout
      let st' := { st with sem := update st.sem s r.2.1 }
      match r.2.2 with
      | some ret =>
          -- a unit is consumed where the counter goes down
          { st' with
            calls := { st.calls with ker := r.1 }
            log := ⟨s, ret, decide (r.2.1.count < (st.sem s).count)⟩ :: st.log }
      | none =>
          { st' with
            calls := st.calls.leave r.1 s ()
            unit := update st.unit st.calls.ker.current false }.finish
  | .give s =>
      let r := kSemGive cfg st.calls.ker (st.sem s) s
      { calls := { st.calls with ker := r.1 }
        sem := update st.sem s r.2.1
        -- without effect only when nobody waits and the counter is at its limit
        gives :=
          if (∀ t, ¬ st.calls.Waiting s t) ∧ (st.sem s).count = (st.sem s).limit then
            st.gives
          else update st.gives s (st.gives s + 1)
        unit :=
          match r.2.2 with
          | some t => update st.unit t true
          | none => st.unit
        log := st.log }
  | .cancelWait s =>
      { st with
        calls := { st.calls with ker := (kSemCancelWait cfg st.calls.ker s).1 } }
  | .schedEnter =>
      { st with calls := { st.calls with ker := zSchedEnter cfg st.calls.ker } }
  | .yield =>
      { st with calls := { st.calls with ker := zScheduler st.calls.ker } }.finish

def semBoot (k : Kernel Tid Sid Empty D) (init : Sid → Sem) : SemSys Tid Sid D where
  calls := callsBoot k
  sem := init
  gives := fun _ => 0
  unit := fun _ => false
  log := []

def SemReach (cfg : Config Tid Sid) (init : Sid → Sem) : SemSys Tid Sid D → Prop :=
  Reach (fun st => ∃ k ring, ColdBoot cfg k ring ∧ st = semBoot k init)
    (fun st (op : SemOp cfg) => op.Allowed st) SemOp.run

def Initialised (sem : Sem) : Prop :=
  ∃ argsChecks old initialCount limit,
    kSemInit argsChecks old initialCount limit = (sem, 0)

variable {cfg : Config Tid Sid} {init : Sid → Sem} {st : SemSys Tid Sid D}
variable {w : Sid → List Tid} {s : Sid} {t : Tid}

/-- What a finished take may say. -/
def Take.Ok (e : Take Sid) : Prop :=
  e.ret = 0 ∧ e.unit = true
    ∨ (e.ret = -EAGAIN ∨ e.ret = -ETIMEDOUT ∨ e.ret = -ECANCELED) ∧ e.unit = false

structure SemBase (cfg : Config Tid Sid) (init : Sid → Sem) (st : SemSys Tid Sid D)
    (w : Sid → List Tid) : Prop where
  calls : CallsBase cfg st.calls w
  bound : ∀ s, (st.sem s).count ≤ (st.sem s).limit ∧ (st.sem s).limit < 256
  empty : ∀ s, 0 < (st.sem s).count → w s = []
  handed : ∀ s, st.handed s = st.calls.granted s
  account : ∀ s, (init s).count + st.gives s
    = (st.sem s).count + st.taken s + (st.handed s).card
  results : ∀ e ∈ st.log, e.Ok

theorem SemSys.mem_handed : t ∈ st.handed s ↔ st.calls.queue t = some s ∧ st.unit t = true := by
  simp [SemSys.handed]

omit [Threads Tid] in
theorem SemSys.taken_cons {e : Take Sid} {log : List (Take Sid)} (hlog : st.log = e :: log) :
    st.taken s = (log.filter fun e => e.sem = s ∧ e.unit = true).length
      + if e.sem = s ∧ e.unit = true then 1 else 0 := by
  rw [SemSys.taken, hlog, filter_cons]
  by_cases he : e.sem = s ∧ e.unit = true
  · simp [he]
  · simp [he]

omit [DecidableEq Sid] in
theorem SemSys.finish_of_none (hf : st.calls.frame st.calls.ker.current = none) :
    st.finish = st := by
  simp only [SemSys.finish, hf]

omit [DecidableEq Sid] in
theorem SemSys.finish_of_some {f : CallFrame Sid Unit}
    (hf : st.calls.frame st.calls.ker.current = some f) :
    st.finish = { st with
      calls := st.calls.resume
      log := ⟨f.queue, zPendResult (st.calls.ker.thread st.calls.ker.current),
        st.unit st.calls.ker.current⟩ :: st.log } := by
  simp only [SemSys.finish, hf]

theorem SemSys.handed_resume (st : SemSys Tid Sid D) (f : CallFrame Sid Unit) (s : Sid) :
    SemSys.handed { st with
      calls := st.calls.resume
      log := ⟨f.queue, zPendResult (st.calls.ker.thread st.calls.ker.current),
        st.unit st.calls.ker.current⟩ :: st.log } s
      = (st.handed s).erase st.calls.ker.current := by
  ext x
  rw [Finset.mem_erase, SemSys.mem_handed, SemSys.mem_handed]
  by_cases hx : x = st.calls.ker.current
  · have hnone : st.calls.resume.queue x = none := by
      rw [hx]
      exact Calls.queue_resume_self
    rw [hnone]
    exact ⟨fun hc => (nomatch hc.1), fun hc => absurd hx hc.1⟩
  · rw [Calls.queue_resume_of_ne hx]
    exact ⟨fun hc => ⟨hx, hc⟩, fun hc => hc.2⟩

theorem SemSys.handed_finish : st.finish.handed s ⊆ st.handed s := by
  cases hf : st.calls.frame st.calls.ker.current with
  | none => rw [SemSys.finish_of_none hf]
  | some f =>
    rw [SemSys.finish_of_some hf, SemSys.handed_resume]
    exact Finset.erase_subset _ _

theorem SemBase.finish (h : SemBase cfg init st w) :
    SemBase cfg init st.finish w ∧ CallsInv cfg st.finish.calls w := by
  cases hf : st.calls.frame st.calls.ker.current with
  | none =>
    rw [SemSys.finish_of_none hf]
    exact ⟨h, h.calls, hf⟩
  | some f =>
    rw [SemSys.finish_of_some hf]
    have hmem : ∀ s, st.calls.ker.current ∈ st.handed s
        ↔ f.queue = s ∧ st.unit st.calls.ker.current = true := by
      intro s
      rw [SemSys.mem_handed, Calls.queue, hf]
      exact and_congr_left fun _ => ⟨Option.some.inj, fun hc => congrArg some hc⟩
    have hunit : st.unit st.calls.ker.current = true
        ↔ zPendResult (st.calls.ker.thread st.calls.ker.current) = 0 := by
      have h1 := hmem f.queue
      rw [h.handed, h.calls.granted_current hf] at h1
      exact ⟨fun hu => (h1.mpr ⟨rfl, hu⟩).2, fun hz => (h1.mp ⟨rfl, hz⟩).2⟩
    have hhanded := SemSys.handed_resume st f
    refine ⟨⟨h.calls.resume.toCallsBase, h.bound, h.empty, ?_, ?_, ?_⟩, h.calls.resume⟩
    · intro s
      rw [hhanded, h.handed]
      exact Calls.granted_resume.symm
    · intro s
      rw [hhanded, SemSys.taken_cons rfl]
      have hacc := h.account s
      rw [SemSys.taken] at hacc
      by_cases hc : st.calls.ker.current ∈ st.handed s
      · have hpos := Finset.card_pos.mpr ⟨_, hc⟩
        rw [Finset.card_erase_of_mem hc, if_pos ((hmem s).mp hc)]
        show (init s).count + st.gives s = (st.sem s).count + _ + _
        omega
      · rw [Finset.erase_eq_of_notMem hc, if_neg fun hc' => hc ((hmem s).mpr hc')]
        exact hacc
    · intro e he
      rcases mem_cons.mp he with rfl | he'
      · rcases zPendResult_cases (st.calls.ker.thread st.calls.ker.current) with
          hz | hz
        · exact Or.inl ⟨hz, hunit.mpr hz⟩
        · refine Or.inr ⟨Or.inr hz, ?_⟩
          rw [← Bool.not_eq_true, hunit]
          rcases hz with hz | hz
          · rw [hz]
            decide
          · rw [hz]
            decide
      · exact h.results e he'

def SemInv (cfg : Config Tid Sid) (init : Sid → Sem) (st : SemSys Tid Sid D) : Prop :=
  ∃ w, SemBase cfg init st w ∧ CallsInv cfg st.calls w

theorem SemInv.take_available (h : SemInv cfg init st)
    (timeout : cfg.Timeout) (hc : 0 < (st.sem s).count) :
    SemInv cfg init ((SemOp.take s timeout : SemOp cfg).run st) := by
  obtain ⟨w, hb, hi⟩ := h
  have hk : kSemTake cfg st.calls.ker (st.sem s) s timeout
      = (st.calls.ker, { st.sem s with count := (st.sem s).count - 1 }, some 0) := by
    rw [kSemTake, if_pos hc]
  have hrun : (SemOp.take s timeout : SemOp cfg).run st = { st with
      sem := update st.sem s { st.sem s with count := (st.sem s).count - 1 }
      log := ⟨s, 0, true⟩ :: st.log } := by
    have hlt : (st.sem s).count - 1 < (st.sem s).count := by omega
    simp only [SemOp.run, hk, hlt, decide_true]
  rw [hrun]
  refine ⟨w, ⟨hb.calls, ?_, ?_, hb.handed, ?_, ?_⟩, hi⟩
  · intro s'
    have h1 := hb.bound s'
    by_cases hs : s' = s
    · subst hs
      simp only [update_self]
      omega
    · simp only [update_of_ne hs]
      exact h1
  · intro s'
    by_cases hs : s' = s
    · subst hs
      exact fun _ => hb.empty s' hc
    · simp only [update_of_ne hs]
      exact hb.empty s'
  · intro s'
    have hacc := hb.account s'
    rw [SemSys.taken] at hacc
    rw [SemSys.taken_cons rfl]
    show (init s').count + st.gives s' = _ + _ + (st.handed s').card
    by_cases hs : s' = s
    · subst hs
      simp only [update_self, and_self, if_true]
      omega
    · have hs' : s ≠ s' := fun hc => hs hc.symm
      simp only [update_of_ne hs, hs', false_and, if_false]
      omega
  · intro e he
    rcases mem_cons.mp he with rfl | he'
    · exact Or.inl ⟨rfl, rfl⟩
    · exact hb.results e he'

theorem SemInv.take_noWait (h : SemInv cfg init st) (hc : ¬ 0 < (st.sem s).count) :
    SemInv cfg init ((SemOp.take s (kNoWait cfg) : SemOp cfg).run st) := by
  obtain ⟨w, hb, hi⟩ := h
  have hk : kSemTake cfg st.calls.ker (st.sem s) s (kNoWait cfg)
      = (st.calls.ker, st.sem s, some (-EAGAIN)) := by
    rw [kSemTake, if_neg hc, zPendCurrentOn, if_pos rfl]
  have hrun : (SemOp.take s (kNoWait cfg) : SemOp cfg).run st
      = { st with log := ⟨s, -EAGAIN, false⟩ :: st.log } := by
    have hlt : ¬ (st.sem s).count < (st.sem s).count := Nat.lt_irrefl _
    simp only [SemOp.run, hk, hlt, decide_false, update_eq_self]
  rw [hrun]
  refine ⟨w, ⟨hb.calls, hb.bound, hb.empty, hb.handed, ?_, ?_⟩, hi⟩
  · intro s'
    rw [SemSys.taken_cons rfl, if_neg fun hc => Bool.noConfusion hc.2]
    exact hb.account s'
  · intro e he
    rcases mem_cons.mp he with rfl | he'
    · exact Or.inr ⟨Or.inl rfl, rfl⟩
    · exact hb.results e he'

theorem SemSys.handed_leave (hf : st.calls.frame st.calls.ker.current = none)
    (k' : Kernel Tid Sid Empty D) (s s' : Sid) :
    SemSys.handed { st with
      calls := st.calls.leave k' s ()
      unit := update st.unit st.calls.ker.current false } s'
      = st.handed s' := by
  ext x
  rw [SemSys.mem_handed, SemSys.mem_handed]
  by_cases hx : x = st.calls.ker.current
  · have hq : st.calls.queue x = none := by
      rw [hx, Calls.queue, hf]
      rfl
    rw [hq, hx]
    simp only [update_self]
    simp
  · simp only [update_of_ne hx, Calls.queue_leave_of_ne hx]

theorem SemInv.take_wait (h : SemInv cfg init st) {timeout : cfg.Timeout}
    (hc : ¬ 0 < (st.sem s).count) (hne : timeout ≠ kNoWait cfg)
    (hcur : st.calls.ker.current ≠ cfg.idle) :
    SemInv cfg init ((SemOp.take s timeout : SemOp cfg).run st) := by
  obtain ⟨w, hb, hi⟩ := h
  obtain ⟨hnone, hcalls, hth, -⟩ := hi.leave hcur s () hne
  have hk : kSemTake cfg st.calls.ker (st.sem s) s timeout
      = ((zPendCurrentOn cfg st.calls.ker (some s) timeout).1, st.sem s, none) := by
    rw [kSemTake, if_neg hc, ← hnone]
  have hrun : (SemOp.take s timeout : SemOp cfg).run st = SemSys.finish { st with
      calls := st.calls.leave (zPendCurrentOn cfg st.calls.ker (some s) timeout).1 s ()
      unit := update st.unit st.calls.ker.current false } := by
    simp only [SemOp.run, hk, update_eq_self]
  rw [hrun]
  generalize (zPendCurrentOn cfg st.calls.ker (some s) timeout).1 = k' at *
  have hhanded := fun s' => SemSys.handed_leave hi.running k' s s'
  refine ⟨_, SemBase.finish (w := update w s (w s ++ [st.calls.ker.current]))
    ⟨hcalls, hb.bound, ?_, ?_, ?_, hb.results⟩⟩
  · intro s' hs'
    have hne' : s' ≠ s := fun heq => hc (heq ▸ hs')
    rw [update_of_ne hne']
    exact hb.empty s' hs'
  · intro s'
    rw [hhanded, hb.handed]
    refine (hi.granted_leave s ?_ ?_).symm
    · rw [hth, if_pos rfl]
      rfl
    · intro x hx
      rw [hth, if_neg hx]
  · intro s'
    rw [hhanded]
    exact hb.account s'

theorem kSemGive_result (h : CallsInv cfg st.calls w) :
    (kSemGive cfg st.calls.ker (st.sem s) s).2.2 = (w s).head? := by
  obtain ⟨hhead, -⟩ := h.unpend s
  rw [← hhead, kSemGive]
  cases hr : (zUnpendFirstThread cfg st.calls.ker s).2 with
  | some t => rfl
  | none =>
    simp only
    split_ifs <;> rfl

section Give

theorem SemBase.granted_nobody (hi : CallsInv cfg st.calls w) (hw : w s = []) (s' : Sid) :
    ({ st.calls with ker := (zUnpendFirstThread cfg st.calls.ker s).1 } :
      Calls Tid Sid D Unit).granted s' = st.calls.granted s' := by
  rw [hi.granted_unpend, hw]
  simp

theorem SemInv.give_counted (hb : SemBase cfg init st w) (hi : CallsInv cfg st.calls w)
    (hw : w s = []) (hlt : (st.sem s).count < (st.sem s).limit) :
    SemInv cfg init ((SemOp.give s : SemOp cfg).run st) := by
  obtain ⟨hnone, hinv, -, -⟩ := hi.unpend_nobody hw
  obtain ⟨-, hlim⟩ := hb.bound s
  have hmod : ((st.sem s).count + 1) % 256 = (st.sem s).count + 1 := Nat.mod_eq_of_lt (by omega)
  have hk : kSemGive cfg st.calls.ker (st.sem s) s = ((zUnpendFirstThread cfg st.calls.ker s).1,
        { st.sem s with count := (st.sem s).count + 1 }, none) := by
    rw [kSemGive, hnone]
    simp only [hlt, if_true, hmod]
  have heff : ¬ ((∀ t, ¬ st.calls.Waiting s t)
      ∧ (st.sem s).count = (st.sem s).limit) := fun hc => by omega
  have hrun : (SemOp.give s : SemOp cfg).run st = { st with
      calls := { st.calls with ker := (zUnpendFirstThread cfg st.calls.ker s).1 }
      sem := update st.sem s
        { st.sem s with count := (st.sem s).count + 1 }
      gives := update st.gives s (st.gives s + 1) } := by
    simp only [SemOp.run, hk, if_neg heff]
  rw [hrun]
  refine ⟨w, ⟨hinv.toCallsBase, ?_, ?_, ?_, ?_, hb.results⟩, hinv⟩
  · intro s'
    by_cases hs : s' = s
    · subst hs
      simp only [update_self]
      omega
    · simp only [update_of_ne hs]
      exact hb.bound s'
  · intro s'
    by_cases hs : s' = s
    · subst hs
      exact fun _ => hw
    · simp only [update_of_ne hs]
      exact hb.empty s'
  · intro s'
    rw [SemBase.granted_nobody hi hw]
    exact hb.handed s'
  · intro s'
    have hacc := hb.account s'
    show _ = _ + st.taken s' + (st.handed s').card
    by_cases hs : s' = s
    · subst hs
      simp only [update_self]
      omega
    · simp only [update_of_ne hs]
      exact hacc

theorem SemInv.give_lost (hb : SemBase cfg init st w) (hi : CallsInv cfg st.calls w)
    (hw : w s = []) (hlt : ¬ (st.sem s).count < (st.sem s).limit) :
    SemInv cfg init ((SemOp.give s : SemOp cfg).run st) := by
  obtain ⟨hnone, hinv, -, -⟩ := hi.unpend_nobody hw
  obtain ⟨hle, -⟩ := hb.bound s
  have hnobody : ∀ t, ¬ st.calls.Waiting s t := by
    intro t ht
    have hmem := (hb.calls.waits s t).mpr ht
    rw [hw] at hmem
    exact nomatch hmem
  have hk : kSemGive cfg st.calls.ker (st.sem s) s
      = ((zUnpendFirstThread cfg st.calls.ker s).1, st.sem s, none) := by
    rw [kSemGive, hnone]
    simp only [hlt, if_false]
  have heff : (∀ t, ¬ st.calls.Waiting s t)
      ∧ (st.sem s).count = (st.sem s).limit := ⟨hnobody, by omega⟩
  have hrun : (SemOp.give s : SemOp cfg).run st = { st with
      calls := { st.calls with ker := (zUnpendFirstThread cfg st.calls.ker s).1 } } := by
    simp only [SemOp.run, hk, if_pos heff, update_eq_self]
  rw [hrun]
  refine ⟨w, ⟨hinv.toCallsBase, hb.bound, hb.empty, ?_, hb.account, hb.results⟩, hinv⟩
  intro s'
  rw [SemBase.granted_nobody hi hw]
  exact hb.handed s'

theorem SemSys.handed_give (hwait : st.calls.Waiting s t) (k' : Kernel Tid Sid Empty D)
    (gives : Sid → Nat) (s' : Sid) :
    SemSys.handed { st with
      calls := { st.calls with ker := k' }
      gives := gives
      unit := update st.unit t true } s'
      = if s' = s then insert t (st.handed s') else st.handed s' := by
  ext x
  rw [SemSys.mem_handed]
  show st.calls.queue x = some s' ∧ update st.unit t true x = true ↔ _
  by_cases hx : x = t
  · subst hx
    rw [hwait.2, update_self]
    by_cases hs : s' = s
    · simp [hs]
    · have hs' : s ≠ s' := fun hc => hs hc.symm
      rw [if_neg hs, SemSys.mem_handed, hwait.2]
      simp [hs']
  · rw [update_of_ne hx]
    by_cases hs : s' = s
    · rw [if_pos hs, Finset.mem_insert, SemSys.mem_handed]
      exact ⟨fun hc => Or.inr hc, fun hc => hc.resolve_left hx⟩
    · rw [if_neg hs, SemSys.mem_handed]

theorem SemInv.give_waiter {rest : List Tid} (hb : SemBase cfg init st w)
    (hi : CallsInv cfg st.calls w) (hw : w s = t :: rest) :
    SemInv cfg init ((SemOp.give s : SemOp cfg).run st) := by
  obtain ⟨hsome, hinv, -, -⟩ := hi.unpend_first hw
  have hwait : st.calls.Waiting s t := by
    rw [← hb.calls.waits, hw]
    exact mem_cons_self
  have hk : kSemGive cfg st.calls.ker (st.sem s) s
      = ((zUnpendFirstThread cfg st.calls.ker s).1, st.sem s, some t) := by
    rw [kSemGive, hsome]
  have heff : ¬ ((∀ t, ¬ st.calls.Waiting s t)
      ∧ (st.sem s).count = (st.sem s).limit) := fun hc => hc.1 t hwait
  have hrun : (SemOp.give s : SemOp cfg).run st = { st with
      calls := { st.calls with ker := (zUnpendFirstThread cfg st.calls.ker s).1 }
      gives := update st.gives s (st.gives s + 1)
      unit := update st.unit t true } := by
    simp only [SemOp.run, hk, if_neg heff, update_eq_self]
  have hnew : t ∉ st.handed s := by
    rw [hb.handed, Calls.mem_granted]
    exact Calls.not_granted_of_pending hwait.1
  rw [hrun]
  refine ⟨_, ⟨hinv.toCallsBase, hb.bound, ?_, ?_, ?_, hb.results⟩, hinv⟩
  · intro s' hs'
    by_cases hs : s' = s
    · -- the counter is zero while there are waiters
      subst hs
      have h1 := hb.empty s' hs'
      rw [hw] at h1
      exact nomatch h1
    · rw [update_of_ne hs]
      exact hb.empty s' hs'
  · intro s'
    rw [SemSys.handed_give hwait, hi.granted_unpend]
    by_cases hs : s' = s
    · rw [if_pos hs, if_pos hs, hw, hb.handed]
      ext x
      simp
    · rw [if_neg hs, if_neg hs, hb.handed]
  · intro s'
    have hacc := hb.account s'
    rw [SemSys.handed_give hwait]
    show (init s').count + update st.gives s (st.gives s + 1) s'
      = (st.sem s').count + st.taken s' + _
    by_cases hs : s' = s
    · subst hs
      rw [if_pos rfl, Finset.card_insert_of_notMem hnew, update_self]
      omega
    · rw [if_neg hs, update_of_ne hs]
      exact hacc

end Give

/-- **ONE STEP** of a run keeps the accounts. -/
theorem SemInv.step (h : SemInv cfg init st) (op : SemOp cfg) (ha : op.Allowed st) :
    SemInv cfg init (op.run st) := by
  cases op with
  | take s timeout =>
    by_cases hc : 0 < (st.sem s).count
    · exact h.take_available timeout hc
    · by_cases hne : timeout = kNoWait cfg
      · rw [hne]
        exact h.take_noWait hc
      · exact h.take_wait hc hne (ha hne)
  | give s =>
    obtain ⟨w, hb, hi⟩ := h
    cases hw : w s with
    | nil =>
      by_cases hlt : (st.sem s).count < (st.sem s).limit
      · exact SemInv.give_counted hb hi hw hlt
      · exact SemInv.give_lost hb hi hw hlt
    | cons t rest => exact SemInv.give_waiter hb hi hw
  | cancelWait s =>
    obtain ⟨w, hb, hi⟩ := h
    obtain ⟨hinv, -⟩ := hi.unpendAll marks_cancel s
    refine ⟨_, ⟨hinv.toCallsBase, hb.bound, ?_, ?_, hb.account, hb.results⟩, hinv⟩
    · intro s' hs'
      by_cases hs : s' = s
      · rw [hs, update_self]
      · rw [update_of_ne hs]
        exact hb.empty s' hs'
    · intro s'
      exact (hb.handed s').trans (hi.granted_cancel s).symm
  | schedEnter =>
    obtain ⟨w, hb, hi⟩ := h
    obtain ⟨E, -, hinv, -⟩ := hi.schedEnter
    refine ⟨_, ⟨hinv.toCallsBase, hb.bound, ?_, ?_, hb.account, hb.results⟩, hinv⟩
    · intro s' hs'
      show (w s').filter _ = []
      rw [hb.empty s' hs']
      rfl
    · intro s'
      exact (hb.handed s').trans hi.granted_schedEnter.symm
  | yield =>
    obtain ⟨w, hb, hi⟩ := h
    obtain ⟨hinv, -⟩ := hi.yield
    exact ⟨w, SemBase.finish ⟨hinv, hb.bound, hb.empty,
      fun s' => (hb.handed s').trans hi.granted_yield.symm, hb.account, hb.results⟩⟩

theorem Initialised.bound {sem : Sem} (h : Initialised sem) :
    sem.count ≤ sem.limit ∧ sem.limit < 256 := by
  obtain ⟨argsChecks, old, initialCount, limit, heq⟩ := h
  rw [kSemInit] at heq
  split_ifs at heq with hu
  · injection heq with hsem
    rw [← hsem]
    exact ⟨Nat.min_le_left _ _, limit.isLt⟩
  · injection heq with _ hret
    exact absurd hret (by decide)

/-- The accounts balance along a run. -/
theorem SemReach.inv (hinit : ∀ s, Initialised (init s)) (h : SemReach cfg init st) :
    SemInv cfg init st := by
  refine Reach.invariant h ?_ fun _ op ih ha => ih.step op ha
  rintro st ⟨k, ring, hboot, rfl⟩
  have hhanded : ∀ s, (semBoot k init).handed s = ∅ := by
    intro s
    ext t
    rw [SemSys.mem_handed]
    exact ⟨fun hc => (nomatch hc.2), fun hc => absurd hc (Finset.notMem_empty t)⟩
  refine ⟨fun _ => [], ⟨hboot.callsInv.toCallsBase, fun s => (hinit s).bound,
    fun s _ => rfl, ?_, ?_, fun e he => nomatch he⟩, hboot.callsInv⟩
  · intro s
    rw [hhanded]
    exact granted_callsBoot.symm
  · intro s
    rw [hhanded]
    rfl

theorem SemInv.handed_order (h : SemInv cfg init st) (op : SemOp cfg)
    (ha : op.Allowed st) (hnew : t ∈ (op.run st).handed s) (hold : t ∉ st.handed s) :
    op = .give s ∧ st.calls.Waiting s t ∧ ∀ t', st.calls.Waiting s t' → t' ≠ t →
          st.calls.stamp t < st.calls.stamp t' := by
  obtain ⟨w, hb, hi⟩ := h
  cases op with
  | take s' timeout =>
    exfalso
    refine hold ?_
    revert hnew
    simp only [SemOp.run]
    cases hr : (kSemTake cfg st.calls.ker (st.sem s') s' timeout).2.2 with
    | some ret => exact id
    | none =>
      intro hnew
      have h1 := SemSys.handed_finish hnew
      have h2 := SemSys.handed_leave hi.running
        (kSemTake cfg st.calls.ker (st.sem s') s' timeout).1 s' s
      rw [← h2]
      exact h1
  | give s' =>
    have hres := kSemGive_result (s := s') hi
    have hmem : st.calls.queue t = some s ∧ (match (w s').head? with
        | some t => update st.unit t true
        | none => st.unit) t = true := by
      rw [← hres]
      exact SemSys.mem_handed.mp hnew
    cases hw : w s' with
    | nil =>
      rw [hw] at hmem
      exact absurd (SemSys.mem_handed.mpr hmem) hold
    | cons a rest =>
      rw [hw] at hmem
      have hta : t = a := by
        by_contra hne
        refine hold (SemSys.mem_handed.mpr ⟨hmem.1, ?_⟩)
        have h1 := hmem.2
        simp only [List.head?_cons, update_of_ne hne] at h1
        exact h1
      have hwait : st.calls.Waiting s' t := by
        rw [← hb.calls.waits, hw, hta]
        exact mem_cons_self
      have hs : s' = s := by
        have h1 := hwait.2
        rw [hmem.1] at h1
        exact (Option.some.inj h1).symm
      subst hs
      refine ⟨rfl, hwait, ?_⟩
      intro t' ht' hne
      have hord := hb.calls.order s'
      have hmem' := (hb.calls.waits s' t').mpr ht'
      rw [hw] at hord hmem'
      rw [hta] at hne ⊢
      exact (pairwise_cons.mp hord).1 t' ((mem_cons.mp hmem').resolve_left hne)
  | cancelWait s' => exact absurd hnew hold
  | schedEnter => exact absurd hnew hold
  | yield => exact absurd (SemSys.handed_finish hnew) hold

structure SemOk (cfg : Config Tid Sid) (init : Sid → Sem) (st : SemSys Tid Sid D)
    (s : Sid) : Prop where
  count_le : (st.sem s).count ≤ (st.sem s).limit
  nobody_waits : 0 < (st.sem s).count → ∀ t, ¬ st.calls.Waiting s t
  /-- the takes granted are the finished ones and those still on their way -/
  conserved : (init s).count + st.gives s
    = (st.sem s).count + (st.taken s + (st.handed s).card)
  /-- a thread was handed a unit when its call is going to return 0 -/
  handed : st.handed s = st.calls.granted s
  order : ∀ op : SemOp cfg, op.Allowed st → ∀ t ∈ (op.run st).handed s,
    t ∉ st.handed s → op = .give s ∧ st.calls.Waiting s t
      ∧ ∀ t', st.calls.Waiting s t' → t' ≠ t → st.calls.stamp t < st.calls.stamp t'
  results : ∀ e ∈ st.log, e.sem = s → e.Ok

/-- **SEMAPHORE ACCOUNTING**: initial count and effective gives equal the counter and the granted
    takes; units go to waiters in their order. -/
theorem sem_accounting (hinit : ∀ s, Initialised (init s))
    (h : SemReach cfg init st) (s : Sid) : SemOk cfg init st s := by
  have hinv := h.inv hinit
  obtain ⟨w, hb, hi⟩ := hinv
  refine ⟨(hb.bound s).1, ?_, ?_, hb.handed s, ?_, fun e he _ => hb.results e he⟩
  · intro hc t ht
    have hmem := (hb.calls.waits s t).mpr ht
    rw [hb.empty s hc] at hmem
    exact nomatch hmem
  · rw [← Nat.add_assoc]
    exact hb.account s
  · intro op ha t hnew hold
    exact SemInv.handed_order ⟨w, hb, hi⟩ op ha hnew hold

def handedOver : SemSys (Fin 4) Unit Unit :=
  ([.take () (kForever _), .give (), .yield] :
    List (SemOp (smallConfig Unit))).foldl SemOp.run
      (semBoot (smallBoot Unit Empty Unit) fun _ => ⟨0, 1⟩)

theorem sem_accounting_handedOver :
    Initialised ⟨0, 1⟩
      ∧ SemReach (smallConfig Unit) (fun _ => ⟨0, 1⟩) handedOver
      ∧ SemOk (smallConfig Unit) (fun _ => ⟨0, 1⟩) handedOver ()
      ∧ handedOver.gives () = 1 ∧ handedOver.taken () = 1 := by
  have hinit : Initialised ⟨0, 1⟩ := ⟨true, ⟨0, 0⟩, 0, 1, by decide⟩
  have hreach : SemReach (smallConfig Unit) (fun _ => ⟨0, 1⟩) handedOver :=
    Reach.foldl (.start ⟨_, _, smallBoot_boot, rfl⟩) (by decide)
  exact ⟨hinit, hreach, sem_accounting (fun _ => hinit) hreach (), by decide, by decide⟩

end AvrtosSemaphore
