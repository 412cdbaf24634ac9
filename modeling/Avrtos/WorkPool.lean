import Avrtos.Workqueue

/-! # Several workqueues

    `PoolBase` says where each item is at home, and that it is there once. -/

namespace AvrtosPool

open Function List AvrtosDefines AvrtosKernel AvrtosFifo AvrtosWorkqueue LinkedChain

structure PoolConfig (Tid Qid : Type) [Fintype Tid] extends Config Tid Qid where
  worker : Qid → Tid
  worker_inj : Injective worker
  worker_ne_idle : ∀ q, worker q ≠ idle

structure Pool (Tid Qid ι : Type) where
  calls : Calls Tid Qid ι Unit
  next : ι → Option ι
  queue : Qid → Slist ι
  pc : Qid → WorkerPc ι

variable {Tid Qid ι : Type} [Threads Tid]
variable [DecidableEq Qid] [DecidableEq ι]

/-- `z_work_submit`. -/
def zWorkSubmit (cfg : Config Tid Qid) (p : Pool Tid Qid ι) (q : Qid) (work : ι) :
    Pool Tid Qid ι :=
  let r := zFifoPut cfg p.calls.ker p.next (p.queue q) q work
  { p with
    calls := { p.calls with ker := r.1 }
    next := r.2.1
    queue := update p.queue q r.2.2.1 }

/-- `k_work_submit`. -/
def kWorkSubmit (cfg : Config Tid Qid) (p : Pool Tid Qid ι) (q : Qid) (work : ι) :
    Pool Tid Qid ι × Bool :=
  if zWorkSubmittable p.next work then (zWorkSubmit cfg p q work, true) else (p, false)

def Pool.finish (p : Pool Tid Qid ι) : Pool Tid Qid ι :=
  let cur := p.calls.ker.current
  match p.calls.frame cur with
  | none => p
  | some f =>
      { p with
        calls := p.calls.resume
        pc := update p.pc f.queue
          (match kFifoGetEnd (p.calls.ker.thread cur) with
          | some work => .got work
          | none => .get) }

def Pool.work (cfg : Config Tid Qid) (p : Pool Tid Qid ι) (q : Qid) : Pool Tid Qid ι :=
  match p.pc q with
  | .get =>
      let r := kFifoGet cfg p.calls.ker p.next (p.queue q) q (kForever cfg)
      let p' := { p with queue := update p.queue q r.2.1 }
      match r.2.2 with
      | none => { p' with calls := p.calls.leave r.1 q () }.finish
      | some none => { p' with calls := { p.calls with ker := r.1 } }
      | some (some work) =>
          { p' with
            calls := { p.calls with ker := r.1 }
            pc := update p.pc q (.got work) }
  | .got work =>
      -- mark the work item as submittable again
      { p with
        next := update p.next work none
        pc := update p.pc q (.reset work) }
  | .reset work => { p with pc := update p.pc q (.handler work) }
  | .handler _ => { p with pc := update p.pc q .get }

/-- `z_sched_enter`. -/
def Pool.schedEnter (cfg : Config Tid Qid) (p : Pool Tid Qid ι) : Pool Tid Qid ι :=
  { p with calls := { p.calls with ker := zSchedEnter cfg p.calls.ker } }

/-- `k_yield`. -/
def Pool.yield (p : Pool Tid Qid ι) : Pool Tid Qid ι :=
  { p with calls := { p.calls with ker := zScheduler p.calls.ker } }.finish

def poolBoot (k : Kernel Tid Qid Empty ι) : Pool Tid Qid ι where
  calls := callsBoot k
  next := fun _ => none
  queue := fun _ => slistInit
  pc := fun _ => .get

section Places

variable (cfg : PoolConfig Tid Qid) (p : Pool Tid Qid ι) (q : Qid)

def Pool.handed : Option ι :=
  if p.calls.Granted q (cfg.worker q) then (p.calls.ker.thread (cfg.worker q)).swapData
  else none

def Pool.inHand : Option ι :=
  match p.pc q with
  | .get => p.handed cfg q
  | .got work => some work
  | _ => none

def Pool.stock (l : Qid → List ι) : List ι := (p.inHand cfg q).toList ++ l q

end Places

def Pool.Loose (cfg : PoolConfig Tid Qid) (p : Pool Tid Qid ι) (x : ι) : Prop :=
  (∃ q, (p.queue q).tail = some x) ∨ p.next x = none ∧ ∃ q, p.inHand cfg q = some x

instance [Fintype Qid] (cfg : PoolConfig Tid Qid) (p : Pool Tid Qid ι) (x : ι) :
    Decidable (p.Loose cfg x) :=
  inferInstanceAs (Decidable (_ ∨ _))

def Pool.Due (p : Pool Tid Qid ι) (x : ι) : Prop := ∃ q, p.pc q = .reset x

instance [Fintype Qid] (p : Pool Tid Qid ι) (x : ι) : Decidable (p.Due x) :=
  inferInstanceAs (Decidable (∃ q, p.pc q = .reset x))

structure PoolBase (cfg : PoolConfig Tid Qid) (p : Pool Tid Qid ι) (w : Qid → List Tid)
    (l : Qid → List ι) (home : ι → Option Qid) : Prop where
  calls : CallsBase cfg.toConfig p.calls w
  rep : ∀ q, SlistRep p.next (p.queue q) (l q)
  stock : ∀ q x, x ∈ p.stock cfg q l ↔ home x = some q
  nodup : ∀ q, (p.stock cfg q l).Nodup
  /-- the links of all other items are `NULL` -/
  free : ∀ x, home x = none → p.next x = none
  frame : ∀ t f, p.calls.frame t = some f → t = cfg.worker f.queue ∧ p.pc f.queue = .get
  empty : ∀ q, p.calls.Waiting q (cfg.worker q) → l q = []

def PoolInv (cfg : PoolConfig Tid Qid) (p : Pool Tid Qid ι) (l : Qid → List ι)
    (home : ι → Option Qid) : Prop :=
  ∃ w, PoolBase cfg p w l home ∧ CallsInv cfg.toConfig p.calls w

variable {cfg : PoolConfig Tid Qid} {p p' : Pool Tid Qid ι} {w w' : Qid → List Tid}
variable {l l' : Qid → List ι} {home : ι → Option Qid} {q : Qid} {x : ι}

section Facts

omit [DecidableEq ι]

theorem Pool.handed_of_none (hf : p.calls.frame (cfg.worker q) = none) :
    p.handed cfg q = none := if_neg (Calls.not_granted_of_none hf)

theorem Pool.handed_of_pending
    (hp : (p.calls.ker.thread (cfg.worker q)).state = .pending) : p.handed cfg q = none :=
  if_neg (Calls.not_granted_of_pending hp)

theorem Pool.handed_congr
    (hg : p'.calls.Granted q (cfg.worker q) ↔ p.calls.Granted q (cfg.worker q))
    (hd : (p'.calls.ker.thread (cfg.worker q)).swapData
      = (p.calls.ker.thread (cfg.worker q)).swapData) :
    p'.handed cfg q = p.handed cfg q := by
  rw [Pool.handed, Pool.handed, hd]
  by_cases h : p.calls.Granted q (cfg.worker q)
  · rw [if_pos h, if_pos (hg.mpr h)]
  · rw [if_neg h, if_neg fun hc => h (hg.mp hc)]

theorem Pool.inHand_congr (hpc : p'.pc q = p.pc q)
    (hh : p'.handed cfg q = p.handed cfg q) : p'.inHand cfg q = p.inHand cfg q := by
  rw [Pool.inHand, Pool.inHand, hpc]
  cases p.pc q with
  | get => exact hh
  | got work => rfl
  | reset work => rfl
  | handler work => rfl

theorem Pool.inHand_of_get (hpc : p.pc q = .get) : p.inHand cfg q = p.handed cfg q := by
  rw [Pool.inHand, hpc]

theorem Pool.inHand_of_got (hpc : p.pc q = .got x) : p.inHand cfg q = some x := by
  rw [Pool.inHand, hpc]

theorem Pool.inHand_of_reset (hpc : p.pc q = .reset x ∨ p.pc q = .handler x) :
    p.inHand cfg q = none := by
  rcases hpc with hpc | hpc
  · rw [Pool.inHand, hpc]
  · rw [Pool.inHand, hpc]

theorem PoolBase.keep (h : PoolBase cfg p w l home) (hcalls : CallsBase cfg.toConfig p'.calls w')
    (hrep : ∀ q, SlistRep p'.next (p'.queue q) (l' q)) (hnext : p'.next = p.next)
    (hstock : ∀ q, p'.stock cfg q l' = p.stock cfg q l)
    (hframe : ∀ t f, p'.calls.frame t = some f → t = cfg.worker f.queue ∧ p'.pc f.queue = .get)
    (hempty : ∀ q, p'.calls.Waiting q (cfg.worker q) → l' q = []) :
    PoolBase cfg p' w' l' home := by
  refine ⟨hcalls, hrep, ?_, ?_, ?_, hframe, hempty⟩
  · intro q x
    rw [hstock]
    exact h.stock q x
  · intro q
    rw [hstock]
    exact h.nodup q
  · rw [hnext]
    exact h.free

theorem PoolBase.kernel (h : PoolBase cfg p w l home) {c' : Calls Tid Qid ι Unit}
    (hc : CallsBase cfg.toConfig c' w') (hf : c'.frame = p.calls.frame)
    (hg : ∀ q, c'.Granted q (cfg.worker q) ↔ p.calls.Granted q (cfg.worker q))
    (hd : ∀ t, (c'.ker.thread t).swapData = (p.calls.ker.thread t).swapData)
    (hw : ∀ q, c'.Waiting q (cfg.worker q) → p.calls.Waiting q (cfg.worker q)) :
    PoolBase cfg { p with calls := c' } w' l home ∧
      ∀ q, ({ p with calls := c' } : Pool Tid Qid ι).stock cfg q l = p.stock cfg q l := by
  have hstock : ∀ q, ({ p with calls := c' } : Pool Tid Qid ι).stock cfg q l
      = p.stock cfg q l := by
    intro q
    have hhand : ({ p with calls := c' } : Pool Tid Qid ι).inHand cfg q = p.inHand cfg q :=
      Pool.inHand_congr rfl (Pool.handed_congr (hg q) (hd _))
    rw [Pool.stock, Pool.stock, hhand]
  refine ⟨h.keep hc h.rep rfl hstock ?_ fun q hwait => h.empty q (hw q hwait), hstock⟩
  intro t f htf
  exact h.frame t f (hf ▸ htf)

theorem PoolBase.home_of_mem (h : PoolBase cfg p w l home) (hx : x ∈ l q) :
    home x = some q := (h.stock q x).mp (mem_append_right _ hx)

theorem PoolBase.home_of_inHand (h : PoolBase cfg p w l home)
    (hx : p.inHand cfg q = some x) : home x = some q := by
  refine (h.stock q x).mp (mem_append_left _ ?_)
  rw [hx]
  exact mem_singleton_self x

end Facts

omit [DecidableEq ι] in
theorem PoolBase.finish (h : PoolBase cfg p w l home) :
    PoolInv cfg p.finish l home ∧ ∀ q, p.finish.stock cfg q l = p.stock cfg q l := by
  cases hf : p.calls.frame p.calls.ker.current with
  | none =>
    have hfin : p.finish = p := by
      simp only [Pool.finish, hf]
    rw [hfin]
    exact ⟨⟨w, h, h.calls, hf⟩, fun _ => rfl⟩
  | some f =>
    obtain ⟨hcur, hpc⟩ := h.frame _ f hf
    have hfin : p.finish = { p with
        calls := p.calls.resume
        pc := update p.pc f.queue
          (match kFifoGetEnd (p.calls.ker.thread p.calls.ker.current) with
          | some work => .got work
          | none => .get) } := by
      simp only [Pool.finish, hf]
    have hresume : CallsInv cfg.toConfig p.calls.resume w := h.calls.resume
    have hend : kFifoGetEnd (p.calls.ker.thread p.calls.ker.current) = p.inHand cfg f.queue := by
      rw [Pool.inHand_of_get hpc, Pool.handed, ← hcur, kFifoGetEnd]
      have hgranted : p.calls.Granted f.queue p.calls.ker.current
          ↔ zPendResult (p.calls.ker.thread p.calls.ker.current) = 0 := by
        rw [← Calls.mem_granted, h.calls.granted_current hf]
        exact ⟨fun hc => hc.2, fun hc => ⟨rfl, hc⟩⟩
      by_cases hz : zPendResult (p.calls.ker.thread p.calls.ker.current) = 0
      · rw [if_pos hz, if_pos (hgranted.mpr hz)]
      · rw [if_neg hz, if_neg fun hc => hz (hgranted.mp hc)]
    have hnone : p.calls.resume.frame (cfg.worker f.queue) = none := by
      rw [← hcur]
      exact hresume.running
    have hother : ∀ q, q ≠ f.queue → cfg.worker q ≠ p.calls.ker.current := by
      intro q hq hc
      exact hq (cfg.worker_inj (hc.trans hcur))
    have hstock : ∀ q, p.finish.stock cfg q l = p.stock cfg q l := by
      intro q
      rw [hfin]
      by_cases hq : q = f.queue
      · subst hq
        rw [Pool.stock, Pool.stock, ← hend]
        congr 2
        cases hget : kFifoGetEnd (p.calls.ker.thread p.calls.ker.current) with
        | none =>
          rw [Pool.inHand_of_get (update_self ..)]
          exact Pool.handed_of_none hnone
        | some work => exact Pool.inHand_of_got (update_self ..)
      · rw [Pool.stock, Pool.stock]
        congr 2
        refine Pool.inHand_congr (update_of_ne hq ..) (Pool.handed_congr ?_ rfl)
        exact Calls.granted_iff (update_of_ne (hother q hq) ..) rfl
    refine ⟨⟨w, h.keep ?_ ?_ ?_ hstock ?_ ?_, ?_⟩, hstock⟩
    all_goals rw [hfin]
    · exact hresume.toCallsBase
    · exact h.rep
    · intro t f' hf'
      have ht : t ≠ p.calls.ker.current := by
        rintro rfl
        exact absurd (hf'.symm.trans hresume.running) (Option.some_ne_none f')
      have htf : p.calls.frame t = some f' := (update_of_ne ht ..).symm.trans hf'
      obtain ⟨htw, hget⟩ := h.frame t f' htf
      have hne : f'.queue ≠ f.queue := by
        intro hc
        rw [hc, ← hcur] at htw
        exact ht htw
      exact ⟨htw, (update_of_ne hne ..).trans hget⟩
    · intro q hwait
      by_cases hq : cfg.worker q = p.calls.ker.current
      · have hqn : p.calls.resume.queue (cfg.worker q) = none := by
          rw [hq]
          exact Calls.queue_resume_self
        exact absurd (hwait.2.symm.trans hqn) (Option.some_ne_none q)
      · exact h.empty q ⟨hwait.1, (Calls.queue_resume_of_ne hq).symm.trans hwait.2⟩
    · exact hresume

omit [DecidableEq ι] in
theorem inHand_of_running (hi : CallsInv cfg.toConfig p.calls w)
    (hcur : p.calls.ker.current = cfg.worker q) (hpc : p.pc q = .get) :
    p.inHand cfg q = none := by
  rw [Pool.inHand_of_get hpc]
  refine Pool.handed_of_none ?_
  rw [← hcur]
  exact hi.running

omit [DecidableEq ι] in
/-- A step of one worker does not move the items of the others. -/
theorem Pool.inHand_of_ne {q' : Qid} {pc : WorkerPc ι} (hcalls : p'.calls = p.calls)
    (hpc : p'.pc = update p.pc q pc) (hq : q' ≠ q) :
    p'.inHand cfg q' = p.inHand cfg q' := by
  refine Pool.inHand_congr ?_ ?_
  · rw [hpc, update_of_ne hq]
  · rw [Pool.handed, Pool.handed, hcalls]

omit [DecidableEq ι] in
theorem PoolBase.frame_update (h : PoolBase cfg p w l home) {pc : WorkerPc ι}
    (hpc : p.pc q ≠ .get ∨ p.calls.frame (cfg.worker q) = none) (t : Tid)
    (f : CallFrame Qid Unit) (hf : p.calls.frame t = some f) :
    t = cfg.worker f.queue ∧ update p.pc q pc f.queue = .get := by
  obtain ⟨ht, hget⟩ := h.frame t f hf
  have hne : f.queue ≠ q := by
    rintro rfl
    rcases hpc with hpc | hpc
    · exact hpc hget
    · rw [← ht, hf] at hpc
      exact Option.some_ne_none f hpc
  exact ⟨ht, (update_of_ne hne ..).trans hget⟩

theorem PoolBase.work_take (h : PoolBase cfg p w l home)
    (hi : CallsInv cfg.toConfig p.calls w) (hcur : p.calls.ker.current = cfg.worker q)
    (hpc : p.pc q = .get) {a : ι} {rest : List ι} (hl : l q = a :: rest) :
    PoolInv cfg (p.work cfg.toConfig q) (update l q rest) home ∧
      ∀ q', (p.work cfg.toConfig q).stock cfg q' (update l q rest) = p.stock cfg q' l := by
  have hrep := h.rep q
  rw [hl] at hrep
  obtain ⟨hget, hrep'⟩ := hrep.get
  have hwork : p.work cfg.toConfig q = { p with
      queue := update p.queue q (slistGet p.next (p.queue q)).1
      pc := update p.pc q (.got a) } := by
    simp only [Pool.work, hpc, kFifoGet, hget]
  have hnone : p.calls.frame (cfg.worker q) = none := by
    rw [← hcur]
    exact hi.running
  have hstock : ∀ q', (p.work cfg.toConfig q).stock cfg q' (update l q rest)
      = p.stock cfg q' l := by
    intro q'
    rw [hwork]
    by_cases hq : q' = q
    · subst hq
      rw [Pool.stock, Pool.stock, Pool.inHand_of_got (update_self ..),
        inHand_of_running hi hcur hpc, hl, update_self]
      rfl
    · rw [Pool.stock, Pool.stock, update_of_ne hq]
      congr 2
      exact Pool.inHand_of_ne rfl rfl hq
  rw [hwork] at hstock ⊢
  refine ⟨⟨w, h.keep h.calls ?_ rfl hstock (h.frame_update (Or.inr hnone)) ?_, hi⟩, hstock⟩
  · intro q'
    by_cases hq : q' = q
    · subst hq
      simp only [update_self]
      exact hrep'
    · simp only [update_of_ne hq]
      exact h.rep q'
  · intro q' hwait
    by_cases hq : q' = q
    · subst hq
      have hqn : p.calls.queue (cfg.worker q') = none := congrArg _ hnone
      exact absurd (hwait.2.symm.trans hqn) (Option.some_ne_none q')
    · rw [update_of_ne hq]
      exact h.empty q' hwait

theorem PoolBase.work_block (h : PoolBase cfg p w l home)
    (hi : CallsInv cfg.toConfig p.calls w) (hcur : p.calls.ker.current = cfg.worker q)
    (hpc : p.pc q = .get) (hl : l q = []) :
    PoolInv cfg (p.work cfg.toConfig q) l home ∧
      ∀ q', (p.work cfg.toConfig q).stock cfg q' l = p.stock cfg q' l := by
  have hrep := h.rep q
  rw [hl] at hrep
  have hget := hrep.get_nil
  by_cases hforever : kForever cfg.toConfig = kNoWait cfg.toConfig
  · have hwork : p.work cfg.toConfig q = p := by
      simp only [Pool.work, hpc, kFifoGet, hget, zPendCurrentOn, if_pos hforever,
        Option.map_some, update_eq_self]
    rw [hwork]
    exact ⟨⟨w, h, hi⟩, fun _ => rfl⟩
  · have hidle : p.calls.ker.current ≠ cfg.idle := by
      rw [hcur]
      exact cfg.worker_ne_idle q
    obtain ⟨hnone, hbase, hth, -⟩ := hi.leave hidle q () hforever
    have hwork : p.work cfg.toConfig q = Pool.finish { p with
        calls := p.calls.leave
          (zPendCurrentOn cfg.toConfig p.calls.ker (some q) (kForever cfg.toConfig)).1 q () } := by
      simp only [Pool.work, hpc, kFifoGet, hget, hnone, Option.map_none, update_eq_self]
    rw [hwork]
    generalize (zPendCurrentOn cfg.toConfig p.calls.ker (some q)
      (kForever cfg.toConfig)).1 = k' at *
    have hp : (k'.thread (cfg.worker q)).state = .pending := by
      rw [hth, if_pos hcur.symm]
      rfl
    have hother : ∀ q', q' ≠ q → cfg.worker q' ≠ p.calls.ker.current :=
      fun q' hq hc => hq (cfg.worker_inj (hc.trans hcur))
    have hstock : ∀ q', ({ p with calls := p.calls.leave k' q () } :
        Pool Tid Qid ι).stock cfg q' l = p.stock cfg q' l := by
      intro q'
      rw [Pool.stock, Pool.stock]
      congr 2
      by_cases hq : q' = q
      · subst hq
        rw [inHand_of_running hi hcur hpc]
        exact Eq.trans (Pool.inHand_of_get hpc) (Pool.handed_of_pending hp)
      · have hsame : k'.thread (cfg.worker q') = p.calls.ker.thread (cfg.worker q') := by
          rw [hth, if_neg (hother q' hq)]
        refine Pool.inHand_congr rfl (Pool.handed_congr ?_ (congrArg _ hsame))
        exact Calls.granted_iff (Calls.frame_leave_of_ne (hother q' hq)) hsame
    suffices hleft : PoolBase cfg { p with calls := p.calls.leave k' q () }
        (update w q (w q ++ [p.calls.ker.current])) l home by
      obtain ⟨hinv, hfinish⟩ := hleft.finish
      exact ⟨hinv, fun q' => (hfinish q').trans (hstock q')⟩
    refine h.keep hbase h.rep rfl hstock ?_ ?_
    · intro t f hf
      by_cases ht : t = p.calls.ker.current
      · subst ht
        have hfq : some ⟨q, p.calls.clock, ()⟩ = some f := Calls.frame_leave_self.symm.trans hf
        cases hfq
        exact ⟨hcur, hpc⟩
      · exact h.frame t f ((Calls.frame_leave_of_ne ht).symm.trans hf)
    · intro q' hwait
      by_cases hq : q' = q
      · rw [hq]
        exact hl
      · refine h.empty q' ⟨?_, ?_⟩
        · have hs := hwait.1
          rw [show (p.calls.leave k' q ()).ker = k' from rfl, hth, if_neg (hother q' hq)] at hs
          exact hs
        · exact (Calls.queue_leave_of_ne (hother q' hq)).symm.trans hwait.2

theorem PoolBase.work_reset (h : PoolBase cfg p w l home)
    (hi : CallsInv cfg.toConfig p.calls w) (hpc : p.pc q = .got x) :
    PoolInv cfg (p.work cfg.toConfig q) l (update home x none) ∧
      p.stock cfg q l = x :: (p.work cfg.toConfig q).stock cfg q l := by
  have hwork : p.work cfg.toConfig q = { p with
      next := update p.next x none
      pc := update p.pc q (.reset x) } := by
    simp only [Pool.work, hpc]
  have hhand : p.inHand cfg q = some x := Pool.inHand_of_got hpc
  have hhome : home x = some q := h.home_of_inHand hhand
  have hnodup := h.nodup q
  rw [Pool.stock, hhand] at hnodup
  have hx : ∀ q', x ∉ l q' := by
    intro q' hmem
    have hqq : q' = q := Option.some.inj ((h.home_of_mem hmem).symm.trans hhome)
    subst hqq
    exact (nodup_cons.mp hnodup).1 hmem
  rw [hwork]
  have hnew : ∀ q', ({ p with
      next := update p.next x none
      pc := update p.pc q (.reset x) } : Pool Tid Qid ι).stock cfg q' l
        = if q' = q then l q else p.stock cfg q' l := by
    intro q'
    by_cases hq : q' = q
    · subst hq
      rw [if_pos rfl, Pool.stock, Pool.inHand_of_reset (Or.inl (update_self ..))]
      rfl
    · rw [if_neg hq, Pool.stock, Pool.stock]
      congr 2
      exact Pool.inHand_of_ne rfl rfl hq
  refine ⟨⟨w, ⟨h.calls, ?_, ?_, ?_, ?_, ?_, h.empty⟩, hi⟩, ?_⟩
  · intro q'
    refine ⟨(h.rep q').chain.congr ?_, (h.rep q').tail⟩
    intro y hy
    have hyx : y ≠ x := by
      rintro rfl
      exact hx q' hy
    exact update_of_ne hyx ..
  · intro q' y
    rw [hnew]
    by_cases hy : y = x
    · subst hy
      rw [update_self]
      refine ⟨fun hc => ?_, fun hc => absurd hc.symm (Option.some_ne_none q')⟩
      split_ifs at hc with hq
      · exact absurd hc (hx q)
      · exact absurd (Option.some.inj (((h.stock q' y).mp hc).symm.trans hhome)) hq
    · rw [update_of_ne hy, ← h.stock]
      split_ifs with hq
      · subst hq
        rw [Pool.stock, hhand, Option.toList_some, singleton_append, mem_cons]
        exact ⟨Or.inr, fun hc => hc.resolve_left hy⟩
      · rfl
  · intro q'
    rw [hnew]
    split_ifs
    · exact (nodup_cons.mp hnodup).2
    · exact h.nodup q'
  · intro y hy
    by_cases hyx : y = x
    · rw [hyx]
      exact update_self ..
    · rw [update_of_ne hyx] at hy
      exact (update_of_ne hyx ..).trans (h.free y hy)
  · refine h.frame_update (Or.inl ?_)
    rw [hpc]
    intro hc
    cases hc
  · rw [hnew, if_pos rfl, Pool.stock, hhand]
    rfl

theorem PoolBase.work_handler (h : PoolBase cfg p w l home)
    (hi : CallsInv cfg.toConfig p.calls w) (hcur : p.calls.ker.current = cfg.worker q)
    (hpc : p.pc q = .reset x ∨ p.pc q = .handler x) :
    PoolInv cfg (p.work cfg.toConfig q) l home ∧
      ∀ q', (p.work cfg.toConfig q).stock cfg q' l = p.stock cfg q' l := by
  have hwork : ∃ pc, (pc = .handler x ∨ pc = .get) ∧ p.work cfg.toConfig q
      = { p with pc := update p.pc q pc } := by
    rcases hpc with hpc | hpc
    · exact ⟨.handler x, Or.inl rfl, by simp only [Pool.work, hpc]⟩
    · exact ⟨.get, Or.inr rfl, by simp only [Pool.work, hpc]⟩
  obtain ⟨pc, hnew, hwork⟩ := hwork
  have hnone : p.calls.frame (cfg.worker q) = none := by
    rw [← hcur]
    exact hi.running
  have hstock : ∀ q', (p.work cfg.toConfig q).stock cfg q' l = p.stock cfg q' l := by
    intro q'
    rw [hwork, Pool.stock, Pool.stock]
    congr 2
    by_cases hq : q' = q
    · subst hq
      rw [Pool.inHand_of_reset hpc]
      rcases hnew with rfl | rfl
      · exact Pool.inHand_of_reset (Or.inr (update_self ..))
      · rw [Pool.inHand_of_get (update_self ..)]
        exact Pool.handed_of_none hnone
    · exact Pool.inHand_of_ne rfl rfl hq
  rw [hwork] at hstock ⊢
  exact ⟨⟨w, h.keep h.calls h.rep rfl hstock (h.frame_update (Or.inr hnone)) h.empty, hi⟩, hstock⟩

theorem PoolBase.add (h : PoolBase cfg p w l home) (hx : home x = none)
    (hcalls : CallsBase cfg.toConfig p'.calls w')
    (hrep : ∀ q, SlistRep p'.next (p'.queue q) (l' q))
    (hother : ∀ q', q' ≠ q → p'.stock cfg q' l' = p.stock cfg q' l)
    (hself : p'.stock cfg q l' = p.stock cfg q l ++ [x])
    (hnext : ∀ y, y ≠ x → home y = none → p'.next y = p.next y)
    (hframe : p'.calls.frame = p.calls.frame) (hpc : p'.pc = p.pc)
    (hempty : ∀ q, p'.calls.Waiting q (cfg.worker q) → l' q = []) :
    PoolBase cfg p' w' l' (update home x (some q)) := by
  have hnot : ∀ q', x ∉ p.stock cfg q' l := by
    intro q' hc
    exact absurd (((h.stock q' x).mp hc).symm.trans hx) (Option.some_ne_none q')
  refine ⟨hcalls, hrep, ?_, ?_, ?_, ?_, hempty⟩
  · intro q' y
    by_cases hy : y = x
    · subst hy
      rw [update_self]
      by_cases hq : q' = q
      · subst hq
        rw [hself]
        exact ⟨fun _ => rfl, fun _ => mem_append_right _ (mem_singleton_self y)⟩
      · rw [hother q' hq]
        exact ⟨fun hc => absurd hc (hnot q'), fun hc => absurd (Option.some.inj hc).symm hq⟩
    · rw [update_of_ne hy, ← h.stock]
      by_cases hq : q' = q
      · subst hq
        rw [hself, mem_append, mem_singleton]
        exact ⟨fun hc => hc.resolve_right hy, Or.inl⟩
      · rw [hother q' hq]
  · intro q'
    by_cases hq : q' = q
    · subst hq
      rw [hself]
      refine (h.nodup q').append (nodup_singleton x) ?_
      exact disjoint_singleton.mpr (hnot q')
    · rw [hother q' hq]
      exact h.nodup q'
  · intro y hy
    have hyx : y ≠ x := by
      rintro rfl
      rw [update_self] at hy
      exact Option.some_ne_none q hy
    rw [update_of_ne hyx] at hy
    exact (hnext y hyx hy).trans (h.free y hy)
  · rw [hframe, hpc]
    exact h.frame

theorem PoolBase.put_handed (h : PoolBase cfg p w l home)
    (hi : CallsInv cfg.toConfig p.calls w) (hx : home x = none) {t : Tid}
    {rest : List Tid} (hw : w q = t :: rest) :
    PoolInv cfg (zWorkSubmit cfg.toConfig p q x) l (update home x (some q)) ∧
      (zWorkSubmit cfg.toConfig p q x).stock cfg q l = p.stock cfg q l ++ [x] := by
  obtain ⟨hhead, hinv, hth, -⟩ := hi.unpendAndSwap q (some x)
  rw [hw, List.head?_cons] at hhead hth
  have hmem : t ∈ w q := by
    rw [hw]
    exact mem_cons_self
  have hwait : p.calls.Waiting q t := (hi.waits q t).mp hmem
  obtain ⟨f, hf, hfq⟩ := Option.map_eq_some_iff.mp hwait.2
  obtain ⟨ht, hpc⟩ := h.frame t f hf
  rw [hfq] at ht hpc
  subst ht
  have hl : l q = [] := h.empty q hwait
  have hrun : zWorkSubmit cfg.toConfig p q x = { p with
      calls := { p.calls with
        ker := (zUnpendFirstAndSwap cfg.toConfig p.calls.ker q (some x)).1 } } := by
    simp only [zWorkSubmit, zFifoPut, hhead, update_eq_self]
  rw [hrun]
  generalize (zUnpendFirstAndSwap cfg.toConfig p.calls.ker q (some x)).1 = k' at *
  have hrec : k'.thread (cfg.worker q)
      = { (p.calls.ker.thread (cfg.worker q)).woken with swapData := some x } := by
    rw [hth, if_pos rfl]
  have hother : ∀ q', q' ≠ q → k'.thread (cfg.worker q') = p.calls.ker.thread (cfg.worker q') := by
    intro q' hq
    rw [hth, if_neg fun hc => hq (cfg.worker_inj (Option.some.inj hc)).symm]
  have hgranted : ({ p.calls with ker := k' } : Calls Tid Qid ι Unit).Granted q (cfg.worker q) := by
    refine ⟨?_, hwait.2, ?_⟩
    · show (k'.thread (cfg.worker q)).state = _
      rw [hrec]
      rfl
    · show zPendResult (k'.thread (cfg.worker q)) = _
      rw [hrec, zPendResult_eq_zero]
      exact hi.flags hwait.1
  have hself : ({ p with calls := { p.calls with ker := k' } } : Pool Tid Qid ι).stock cfg q l
      = p.stock cfg q l ++ [x] := by
    -- before, nothing was in the worker's hand; now it is the new item
    have hold : p.inHand cfg q = none :=
      (Pool.inHand_of_get hpc).trans (Pool.handed_of_pending hwait.1)
    have hnew : ({ p with calls := { p.calls with ker := k' } } :
        Pool Tid Qid ι).inHand cfg q = some x := by
      refine Eq.trans (Pool.inHand_of_get hpc) ((if_pos hgranted).trans ?_)
      show (k'.thread (cfg.worker q)).swapData = _
      rw [hrec]
    rw [Pool.stock, Pool.stock, hold, hnew, hl]
    rfl
  refine ⟨⟨_, h.add hx hinv.toCallsBase h.rep ?_ hself (fun _ _ _ => rfl) rfl rfl ?_, hinv⟩, hself⟩
  · intro q' hq
    rw [Pool.stock, Pool.stock]
    congr 2
    refine Pool.inHand_congr rfl (Pool.handed_congr ?_ (congrArg _ (hother q' hq)))
    exact Calls.granted_iff rfl (hother q' hq)
  · intro q' hwait'
    by_cases hq : q' = q
    · rw [hq]
      exact hl
    · refine h.empty q' ⟨?_, hwait'.2⟩
      have hs := hwait'.1
      rw [← hother q' hq]
      exact hs

theorem PoolBase.put_listed (h : PoolBase cfg p w l home)
    (hi : CallsInv cfg.toConfig p.calls w) (hx : home x = none) (hw : w q = []) :
    PoolInv cfg (zWorkSubmit cfg.toConfig p q x) (update l q (l q ++ [x]))
        (update home x (some q)) ∧
      (zWorkSubmit cfg.toConfig p q x).stock cfg q (update l q (l q ++ [x]))
        = p.stock cfg q l ++ [x] := by
  obtain ⟨hhead, hinv, hth, -⟩ := hi.unpendAndSwap q (some x)
  rw [hw, List.head?_nil] at hhead hth
  have hxl : ∀ q', x ∉ l q' := fun q' hc =>
    absurd ((h.home_of_mem hc).symm.trans hx) (Option.some_ne_none q')
  obtain ⟨hrep, hnext⟩ := (h.rep q).append (hxl q)
  have hrun : zWorkSubmit cfg.toConfig p q x = { p with
      calls := { p.calls with
        ker := (zUnpendFirstAndSwap cfg.toConfig p.calls.ker q (some x)).1 }
      next := (slistAppend p.next (p.queue q) x).1
      queue := update p.queue q (slistAppend p.next (p.queue q) x).2 } := by
    simp only [zWorkSubmit, zFifoPut, hhead]
  rw [hrun]
  generalize (zUnpendFirstAndSwap cfg.toConfig p.calls.ker q (some x)).1 = k' at *
  have hrec : ∀ t, k'.thread t = p.calls.ker.thread t := by
    intro t
    rw [hth, if_neg (Option.some_ne_none t).symm]
  have hhand : ∀ q', ({ p with
      calls := { p.calls with ker := k' }
      next := (slistAppend p.next (p.queue q) x).1
      queue := update p.queue q (slistAppend p.next (p.queue q) x).2 } :
        Pool Tid Qid ι).inHand cfg q' = p.inHand cfg q' := fun q' =>
    Pool.inHand_congr rfl (Pool.handed_congr (Calls.granted_iff rfl (hrec _)) (congrArg _ (hrec _)))
  refine ⟨⟨_, h.add hx hinv.toCallsBase ?_ ?_ ?_ ?_ rfl rfl ?_, hinv⟩, ?_⟩
  · intro q'
    by_cases hq : q' = q
    · subst hq
      simp only [update_self]
      exact hrep
    · simp only [update_of_ne hq]
      refine ⟨(h.rep q').chain.congr ?_, (h.rep q').tail⟩
      intro y hy
      refine hnext y ?_ ?_
      · rintro rfl
        exact hxl q' hy
      · intro hc
        exact hq (Option.some.inj ((h.home_of_mem hy).symm.trans (h.home_of_mem hc)))
  · intro q' hq
    rw [Pool.stock, Pool.stock, hhand, update_of_ne hq]
  · rw [Pool.stock, Pool.stock, hhand, update_self, append_assoc]
  · intro y hy hhome
    refine hnext y hy fun hc => ?_
    exact absurd ((h.home_of_mem hc).symm.trans hhome) (Option.some_ne_none q)
  · intro q' hwait
    have hmem := (hinv.waits q' _).mpr hwait
    by_cases hq : q' = q
    · subst hq
      rw [update_self, hw] at hmem
      exact absurd hmem not_mem_nil
    · rw [update_of_ne hq] at hmem ⊢
      exact h.empty q' ((hi.waits q' _).mp hmem)
  · rw [Pool.stock, Pool.stock, hhand, update_self, append_assoc]

theorem PoolInv.put (h : PoolInv cfg p l home) (q : Qid) (hx : home x = none) :
    ∃ l', PoolInv cfg (zWorkSubmit cfg.toConfig p q x) l' (update home x (some q)) ∧
      (zWorkSubmit cfg.toConfig p q x).stock cfg q l' = p.stock cfg q l ++ [x] := by
  obtain ⟨w, hb, hi⟩ := h
  cases hw : w q with
  | nil => exact ⟨_, hb.put_listed hi hx hw⟩
  | cons t rest => exact ⟨l, hb.put_handed hi hx hw⟩

theorem PoolInv.work_got (h : PoolInv cfg p l home) (hpc : p.pc q = .got x) :
    PoolInv cfg (p.work cfg.toConfig q) l (update home x none) ∧
      p.stock cfg q l = x :: (p.work cfg.toConfig q).stock cfg q l := by
  obtain ⟨w, hb, hi⟩ := h
  exact hb.work_reset hi hpc

theorem PoolInv.work_keep (h : PoolInv cfg p l home)
    (hcur : p.calls.ker.current = cfg.worker q) (hpc : ∀ x, p.pc q ≠ .got x) :
    ∃ l', PoolInv cfg (p.work cfg.toConfig q) l' home ∧
      ∀ q', (p.work cfg.toConfig q).stock cfg q' l' = p.stock cfg q' l := by
  obtain ⟨w, hb, hi⟩ := h
  cases hp : p.pc q with
  | get =>
    cases hl : l q with
    | nil => exact ⟨l, hb.work_block hi hcur hp hl⟩
    | cons a rest => exact ⟨_, hb.work_take hi hcur hp hl⟩
  | got y => exact absurd hp (hpc y)
  | reset y => exact ⟨l, hb.work_handler hi hcur (Or.inl hp)⟩
  | handler y => exact ⟨l, hb.work_handler hi hcur (Or.inr hp)⟩

omit [DecidableEq ι] in
theorem PoolInv.schedEnter (h : PoolInv cfg p l home) :
    PoolInv cfg (p.schedEnter cfg.toConfig) l home ∧
      ∀ q, (p.schedEnter cfg.toConfig).stock cfg q l = p.stock cfg q l := by
  obtain ⟨w, hb, hi⟩ := h
  obtain ⟨E, hE, hinv, hth, -⟩ := hi.schedEnter
  refine (hb.kernel hinv.toCallsBase rfl ?_ ?_ ?_).imp_left fun hbase => ⟨_, hbase, hinv⟩
  · intro q
    rw [← Calls.mem_granted, hi.granted_schedEnter, Calls.mem_granted]
  · intro t
    show ((zSchedEnter cfg.toConfig p.calls.ker).thread t).swapData = _
    rw [hth]
    split_ifs
    · rfl
    · rfl
  · intro q hwait
    have hmem := (hinv.waits q _).mpr hwait
    exact (hi.waits q _).mp (mem_of_mem_filter hmem)

omit [DecidableEq ι] in
theorem PoolInv.yield (h : PoolInv cfg p l home) :
    PoolInv cfg p.yield l home ∧ ∀ q, p.yield.stock cfg q l = p.stock cfg q l := by
  obtain ⟨w, hb, hi⟩ := h
  obtain ⟨hbase, hth⟩ := hi.yield
  suffices hker : PoolBase cfg { p with calls := { p.calls with ker := zScheduler p.calls.ker } }
      w l home ∧ ∀ q, _ = p.stock cfg q l by
    obtain ⟨hinv, hfinish⟩ := hker.1.finish
    exact ⟨hinv, fun q => (hfinish q).trans (hker.2 q)⟩
  refine hb.kernel hbase rfl ?_ ?_ ?_
  · intro q
    rw [← Calls.mem_granted, hi.granted_yield, Calls.mem_granted]
  · intro t
    show ((zScheduler p.calls.ker).thread t).swapData = _
    rw [hth]
    split_ifs
    · rfl
    · rfl
  · intro q hwait
    exact (hi.waits q _).mp ((hbase.waits q _).mpr hwait)

omit [DecidableEq ι] in
theorem poolBoot_inv {k : Kernel Tid Qid Empty ι} {ring : List Tid} (h : ColdBoot cfg.toConfig k ring) :
    PoolInv cfg (poolBoot k) (fun _ => []) (fun _ => none) := by
  have hnone : ∀ q, (poolBoot k).stock cfg q (fun _ => []) = [] := by
    intro q
    have hhand : (poolBoot k).inHand cfg q = none := Pool.handed_of_none rfl
    rw [Pool.stock, hhand]
    rfl
  refine ⟨_, ⟨h.callsInv.toCallsBase, fun _ => slistInit_rep, ?_, ?_, fun _ _ => rfl, ?_,
    fun _ _ => rfl⟩, h.callsInv⟩
  · intro q x
    rw [hnone]
    exact ⟨fun hc => absurd hc not_mem_nil, fun hc => absurd hc.symm (Option.some_ne_none q)⟩
  · intro q
    rw [hnone]
    exact nodup_nil
  · exact fun t f hf => absurd hf.symm (Option.some_ne_none f)

omit [DecidableEq ι] in
theorem PoolInv.home_of_submittable (h : PoolInv cfg p l home) (hnext : p.next x = none)
    (hloose : ¬ p.Loose cfg x) : home x = none := by
  obtain ⟨w, hb, -⟩ := h
  cases hhome : home x with
  | none => rfl
  | some q =>
    refine absurd ?_ hloose
    rcases mem_append.mp ((hb.stock q x).mpr hhome) with hhand | hlist
    · exact Or.inr ⟨hnext, q, Option.mem_toList.mp hhand⟩
    · refine Or.inl ⟨q, ?_⟩
      rw [(hb.rep q).tail]
      exact ((hb.rep q).chain.next_eq_none hlist).mp hnext

theorem PoolInv.sum_count [Fintype Qid] (h : PoolInv cfg p l home) (x : ι) :
    ∑ q, (p.stock cfg q l).count x = (home x).isSome.toNat := by
  obtain ⟨w, hb, -⟩ := h
  have hone : ∀ q, (p.stock cfg q l).count x = if home x = some q then 1 else 0 := by
    intro q
    rw [(hb.nodup q).count]
    simp only [hb.stock]
  rw [Finset.sum_congr rfl fun q _ => hone q]
  cases home x with
  | none => simp
  | some q => simp

omit [DecidableEq ι] in
theorem Pool.finish_pc (h : p'.finish.pc q = .reset x) (hpc : p'.pc = p.pc) :
    p.pc q = .reset x := by
  rw [← hpc]
  cases hf : p'.calls.frame p'.calls.ker.current with
  | none =>
    simp only [Pool.finish, hf] at h
    exact h
  | some f =>
    simp only [Pool.finish, hf] at h
    by_cases hq : q = f.queue
    · subst hq
      rw [update_self] at h
      cases hget : kFifoGetEnd (p'.calls.ker.thread p'.calls.ker.current) with
      | none =>
        rw [hget] at h
        cases h
      | some y =>
        rw [hget] at h
        cases h
    · rw [update_of_ne hq] at h
      exact h

omit [Threads Tid] [DecidableEq ι] in
theorem update_reset {q' : Qid} {pc : WorkerPc ι}
    (h : update p.pc q pc q' = .reset x) : p.pc q' = .reset x ∨ pc = .reset x := by
  by_cases hq : q' = q
  · subst hq
    rw [update_self] at h
    exact Or.inr h
  · rw [update_of_ne hq] at h
    exact Or.inl h

theorem Pool.work_pc {c : Config Tid Qid} {q' : Qid}
    (h : (p.work c q).pc q' = .reset x) : p.pc q' = .reset x ∨ p.pc q = .got x := by
  cases hpc : p.pc q with
  | get =>
    refine Or.inl ?_
    simp only [Pool.work, hpc] at h
    cases hr : (kFifoGet c p.calls.ker p.next (p.queue q) q (kForever c)).2.2 with
    | none =>
      rw [hr] at h
      exact Pool.finish_pc h rfl
    | some o =>
      rw [hr] at h
      cases o with
      | none => exact h
      | some y =>
        refine (update_reset h).resolve_right ?_
        intro hc
        cases hc
  | got y =>
    simp only [Pool.work, hpc] at h
    refine (update_reset h).imp_right ?_
    intro hc
    cases hc
    rfl
  | reset y =>
    simp only [Pool.work, hpc] at h
    refine (update_reset h).imp_right ?_
    intro hc
    cases hc
  | handler y =>
    simp only [Pool.work, hpc] at h
    refine (update_reset h).imp_right ?_
    intro hc
    cases hc

end AvrtosPool
