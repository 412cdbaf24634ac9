import Avrtos.Delayable

/-! # Where rescheduled work goes, and when

    A scheduled item keeps its old workqueue; others go where the call says. -/

namespace AvrtosDelayable

open Function List AvrtosDefines AvrtosKernel AvrtosTqueue AvrtosEvent AvrtosFifo AvrtosWorkqueue
open AvrtosPool DeltaList Runs

variable {Tid Qid Did Wid : Type} [Threads Tid]
variable [DecidableEq Qid] [DecidableEq Did] [Fintype Did] [DecidableEq Wid]

section Watch

variable {cfg : Config Tid Qid}

def DelayOp.puts (d : Did) (st : DelaySys Tid Qid Did Wid) : DelayOp cfg Did Wid → List Qid
  | .schedule q d' timeout =>
      if d' = d ∧ (kWorkDelayableSchedule cfg st q d timeout).2 = 0 ∧ timeout = kNoWait cfg then
        [q]
      else []
  | .reschedule q d' timeout =>
      if d' = d ∧ (kWorkDelayableReschedule cfg st q d timeout).2 = 1 ∧ timeout = kNoWait cfg then
        [q]
      else []
  | .expire => if (tqueuePop st.queue).2 = some d then (st.world.workqueue d).toList else []
  | _ => []

def DelayOp.Concerns (d : Did) (st : DelaySys Tid Qid Did Wid) : DelayOp cfg Did Wid → Prop
  | .schedule _ d' _ | .reschedule _ d' _ | .cancel d' => d' = d
  | .expire => (tqueuePop st.queue).2 = some d
  | _ => False

variable {st : DelaySys Tid Qid Did Wid} {d : Did}

theorem DelayOp.pool_of_concerns {op : DelayOp cfg Did Wid} (h : op.Concerns d st) :
    (op.run st).world.pool = (op.puts d st).foldl
      (fun pool q => zWorkSubmit cfg pool q (.delayable d)) st.world.pool := by
  cases op with
  | schedule q d' timeout =>
    obtain rfl : d' = d := h
    by_cases hbusy : (st.scheduled d'
        || !zWorkSubmittable st.world.pool.next (.delayable d')) = true
    · simp [DelayOp.run, DelayOp.puts, kWorkDelayableSchedule, hbusy, EBUSY]
    · by_cases ht : timeout = kNoWait cfg
      · simp [DelayOp.run, DelayOp.puts, kWorkDelayableSchedule, hbusy, ht,
          zWorkDelayableSchedule, setQuiet, setPool]
      · simp [DelayOp.run, DelayOp.puts, kWorkDelayableSchedule, hbusy, ht,
          zWorkDelayableSchedule, setQuiet, zEventSchedule]
  | reschedule q d' timeout =>
    obtain rfl : d' = d := h
    by_cases hbusy : (!zWorkSubmittable st.world.pool.next (.delayable d')) = true
    · simp [DelayOp.run, DelayOp.puts, kWorkDelayableReschedule, hbusy, EBUSY]
    · by_cases hs : st.scheduled d' = true
      · simp [DelayOp.run, DelayOp.puts, kWorkDelayableReschedule, hbusy, hs, setQuiet,
          zEventReschedule]
      · by_cases ht : timeout = kNoWait cfg
        · simp [DelayOp.run, DelayOp.puts, kWorkDelayableReschedule, hbusy, hs, ht,
            zWorkDelayableSchedule, setQuiet, setPool]
        · simp [DelayOp.run, DelayOp.puts, kWorkDelayableReschedule, hbusy, hs, ht,
            zWorkDelayableSchedule, setQuiet, zEventSchedule]
  | expire =>
    have hpop : (tqueuePop st.queue).2 = some d := h
    cases hq : st.world.workqueue d with
    | none => simp [DelayOp.run, DelayOp.puts, zEventQRound, zDelayableWorkTrigger, hpop, hq]
    | some q =>
      simp [DelayOp.run, DelayOp.puts, zEventQRound, zDelayableWorkTrigger, hpop, hq, setPool]
  | cancel d' =>
    obtain rfl : d' = d := h
    by_cases hs : st.scheduled d' = true
    · simp [DelayOp.run, DelayOp.puts, kWorkDelayableCancel, kEventCancel, hs, setQuiet, EAGAIN]
    · simp [DelayOp.run, DelayOp.puts, kWorkDelayableCancel, kEventCancel, hs]
  | cancelEnd d' => exact h.elim
  | submit q x => exact h.elim
  | shift => exact h.elim
  | step q => exact h.elim
  | schedEnter => exact h.elim
  | yield => exact h.elim

/-- The ticks that pass. -/
def DelayOp.ticks : DelayOp cfg Did Wid → Nat
  | .shift => cfg.sliceTicks.toNat
  | _ => 0

structure Passes (d : Did) (n : Nat) (st st' : DelaySys Tid Qid Did Wid)
    (l l' : List (Did × Nat)) : Prop where
  left : ∀ r, (d, r) ∈ deadlines l → (d, r - n) ∈ deadlines l'
  scheduled : st'.scheduled d = st.scheduled d
  workqueue : st'.world.workqueue d = st.world.workqueue d

def Destined (st : DelaySys Tid Qid Did Wid) (d : Did) : Prop :=
  st.scheduled d = true → st.world.workqueue d ≠ none

variable {st' : DelaySys Tid Qid Did Wid} {l l' : List (Did × Nat)}

omit [Threads Tid] [DecidableEq Qid] [DecidableEq Did] [Fintype Did] [DecidableEq Wid] in
theorem Passes.same (hs : st'.scheduled d = st.scheduled d)
    (hw : st'.world.workqueue d = st.world.workqueue d) : Passes d 0 st st' l l :=
  ⟨fun _ hr => hr, hs, hw⟩

omit [Threads Tid] [DecidableEq Qid] [Fintype Did] [DecidableEq Wid] in
theorem Destined.clear {e x : Did} (hd : Destined st x)
    (hs : st'.scheduled = update st.scheduled e false)
    (hw : st'.world.workqueue = st.world.workqueue) : Destined st' x := by
  intro hx
  rw [hs, update_apply] at hx
  rw [hw]
  split_ifs at hx
  exact hd hx

theorem zWorkDelayableSchedule_events (h : EventsRep cfg.deltaBits st l)
    (hs : st.scheduled d = false) (q : Qid) (timeout : cfg.Timeout) :
    ∃ l', EventsRep cfg.deltaBits (zWorkDelayableSchedule cfg st q d timeout) l'
      ∧ (∀ x, x ≠ d → Passes x 0 st (zWorkDelayableSchedule cfg st q d timeout) l l')
      ∧ (zWorkDelayableSchedule cfg st q d timeout).world.workqueue d = some q
      ∧ (timeout = kNoWait cfg → (zWorkDelayableSchedule cfg st q d timeout).scheduled d = false)
      ∧ (timeout ≠ kNoWait cfg → (zWorkDelayableSchedule cfg st q d timeout).scheduled d = true
          ∧ (d, timeout.toNat) ∈ deadlines l') := by
  by_cases ht : timeout = kNoWait cfg
  · simp only [zWorkDelayableSchedule, if_pos ht]
    exact ⟨l, ⟨h.queue, h.flag⟩, fun x hx => .same rfl (update_of_ne hx _ _),
      update_self .., fun _ => hs, fun hc => absurd ht hc⟩
  · simp only [zWorkDelayableSchedule, if_neg ht]
    have hrep := (h.setWorld { st.world with
      workqueue := update st.world.workqueue d (some q) }).schedule hs timeout
    refine ⟨_, hrep, fun x hx => ⟨fun r hr => ?_, ?_, ?_⟩,
      update_self .., fun hc => absurd hc ht, fun _ => ⟨update_self .., ?_⟩⟩
    · exact mem_deadlines_insertDelta.mpr (Or.inr hr)
    · exact update_of_ne hx _ _
    · exact update_of_ne hx _ _
    · exact mem_deadlines_insertDelta.mpr (Or.inl rfl)

theorem scheduled_afresh (h : EventsRep cfg.deltaBits st l) (hs : st.scheduled d = false)
    (q : Qid) (timeout : cfg.Timeout)
    (hst : st' = setQuiet (zWorkDelayableSchedule cfg st q d timeout) d false) :
    ∃ l', EventsRep cfg.deltaBits st' l' ∧ (∀ x, ¬ d = x → Passes x 0 st st' l l')
      ∧ ∀ x, Destined st x → Destined st' x := by
  obtain ⟨l', hrep, hpass, hwq, -⟩ := zWorkDelayableSchedule_events h hs q timeout
  subst hst
  refine ⟨l', ⟨hrep.queue, hrep.flag⟩, fun x hx => ?_, fun x hd => ?_⟩
  · obtain ⟨hl, hsx, hwx⟩ := hpass x (Ne.symm hx)
    exact ⟨hl, hsx, hwx⟩
  · by_cases hx : x = d
    · subst hx
      exact fun _ hc => Option.some_ne_none _ (hwq.symm.trans hc)
    · obtain ⟨-, hsx, hwx⟩ := hpass x hx
      exact fun hc hn => hd (hsx.symm.trans hc) (hwx.symm.trans hn)

omit [DecidableEq Qid] [Fintype Did] [DecidableEq Wid] in
theorem EventsRep.reschedule_deadline (h : EventsRep cfg.deltaBits st l) {x : Did} {r : Nat}
    (hx : x ≠ d) (hr : (x, r) ∈ deadlines l) (t : Nat) :
    (x, r) ∈ deadlines (insertDelta d t (removeDelta d l)) := by
  rw [mem_deadlines_insertDelta, deadlines_removeDelta d h.queue.rep.chain.nodup, mem_filter]
  exact Or.inr ⟨hr, by simpa using hx⟩

theorem zEventQRound_due (h : EventsRep cfg.deltaBits st ((d, 0) :: l)) :
    (tqueuePop st.queue).2 = some d ∧ EventsRep cfg.deltaBits (zEventQRound cfg st) l
      ∧ (zEventQRound cfg st).scheduled = update st.scheduled d false
      ∧ (zEventQRound cfg st).world.workqueue = st.world.workqueue := by
  obtain ⟨hpop, hrep⟩ := h.pop
  simp only [zEventQRound, hpop, zDelayableWorkTrigger]
  cases st.world.workqueue d with
  | none => exact ⟨trivial, hrep, rfl, rfl⟩
  | some q => exact ⟨trivial, ⟨hrep.queue, hrep.flag⟩, rfl, rfl⟩

theorem DelayOp.events_spec (h : EventsRep cfg.deltaBits st l) (op : DelayOp cfg Did Wid) :
    ∃ l', EventsRep cfg.deltaBits (op.run st) l'
      ∧ (∀ d, ¬ op.Concerns d st → Passes d op.ticks st (op.run st) l l')
      ∧ ∀ d, Destined st d → Destined (op.run st) d := by
  cases op with
  | schedule q d timeout =>
    by_cases hbusy : (st.scheduled d
        || !zWorkSubmittable st.world.pool.next (.delayable d)) = true
    · have hrun : (DelayOp.schedule q d timeout : DelayOp cfg Did Wid).run st = st := by
        simp [DelayOp.run, kWorkDelayableSchedule, hbusy, EBUSY]
      rw [hrun]
      exact ⟨l, h, fun _ _ => .same rfl rfl, fun _ hd => hd⟩
    · have hrun : (DelayOp.schedule q d timeout : DelayOp cfg Did Wid).run st
          = setQuiet (zWorkDelayableSchedule cfg st q d timeout) d false := by
        simp [DelayOp.run, kWorkDelayableSchedule, hbusy]
      have hs : st.scheduled d = false := by
        rw [Bool.or_eq_true, not_or] at hbusy
        simpa using hbusy.1
      exact scheduled_afresh h hs q timeout hrun
  | reschedule q d timeout =>
    by_cases hbusy : (!zWorkSubmittable st.world.pool.next (.delayable d)) = true
    · have hrun : (DelayOp.reschedule q d timeout : DelayOp cfg Did Wid).run st = st := by
        simp [DelayOp.run, kWorkDelayableReschedule, hbusy, EBUSY]
      rw [hrun]
      exact ⟨l, h, fun _ _ => .same rfl rfl, fun _ hd => hd⟩
    · by_cases hs : st.scheduled d = true
      · have hrun : (DelayOp.reschedule q d timeout : DelayOp cfg Did Wid).run st
            = setQuiet (zEventReschedule (eventConfig cfg) st d timeout) d false := by
          simp [DelayOp.run, kWorkDelayableReschedule, hbusy, hs]
        have hrep : EventsRep _ (zEventReschedule (eventConfig cfg) st d timeout) _ :=
          h.reschedule hs timeout
        rw [hrun]
        refine ⟨_, ⟨hrep.queue, hrep.flag⟩, fun x hx => ⟨fun r hr => ?_, rfl, rfl⟩, fun x hd => hd⟩
        exact EventsRep.reschedule_deadline h (fun hc => hx hc.symm) hr _
      · have hrun : (DelayOp.reschedule q d timeout : DelayOp cfg Did Wid).run st
            = setQuiet (zWorkDelayableSchedule cfg st q d timeout) d false := by
          simp [DelayOp.run, kWorkDelayableReschedule, hbusy, hs]
        exact scheduled_afresh h (Bool.eq_false_of_not_eq_true hs) q timeout hrun
  | cancel d =>
    cases hs : st.scheduled d with
    | false =>
      refine ⟨l, ?_, fun x _ => ?_, fun x hd => ?_⟩
      all_goals simp only [DelayOp.run, kWorkDelayableCancel,
        kEventCancel_idle (eventConfig cfg) hs]
      · exact ⟨h.queue, h.flag⟩
      · exact .same rfl rfl
      · exact hd
    | true =>
      obtain ⟨hret, hrep, hworld⟩ := h.cancel (eventConfig cfg) hs
      have hsched : (kEventCancel (eventConfig cfg) st d).1.scheduled
          = update st.scheduled d false := by
        simp [kEventCancel, hs]
      have hwq : (kEventCancel (eventConfig cfg) st d).1.world.workqueue = st.world.workqueue :=
        congrArg Works.workqueue hworld
      have hrun : (DelayOp.cancel d : DelayOp cfg Did Wid).run st
          = setQuiet (kEventCancel (eventConfig cfg) st d).1 d true := by
        simp [DelayOp.run, kWorkDelayableCancel, hret, EAGAIN]
      rw [hrun]
      refine ⟨_, ⟨hrep.queue, hrep.flag⟩, fun x hx => ⟨fun r hr => ?_, ?_, congrFun hwq x⟩,
        fun x hd => hd.clear (e := d) hsched hwq⟩
      · rw [deadlines_removeDelta d h.queue.rep.chain.nodup, mem_filter]
        exact ⟨hr, by simpa using fun hc : x = d => hx hc.symm⟩
      · show (kEventCancel (eventConfig cfg) st d).1.scheduled x = _
        rw [hsched, update_of_ne fun hc => hx hc.symm]
  | cancelEnd d =>
    simp only [DelayOp.run]
    split_ifs
    · exact ⟨l, ⟨h.queue, h.flag⟩, fun _ _ => .same rfl rfl, fun _ hd => hd⟩
    · exact ⟨l, ⟨h.queue, h.flag⟩, fun _ _ => .same rfl rfl, fun _ hd => hd⟩
  | submit q x => exact ⟨l, h.setWorld _, fun _ _ => .same rfl rfl, fun _ hd => hd⟩
  | shift =>
    have hrep : EventsRep _ (zEventQShift (eventConfig cfg) st) _ := h.shift
    refine ⟨_, hrep, fun x _ => ⟨fun r hr => ?_, rfl, rfl⟩, fun _ hd => hd⟩
    exact mem_deadlines_shiftDelta.mpr ⟨r, hr, rfl⟩
  | expire =>
    by_cases hdue : ∃ e l', l = (e, 0) :: l'
    · obtain ⟨e, l', rfl⟩ := hdue
      obtain ⟨hpop, hrep, hs, hw⟩ := zEventQRound_due h
      refine ⟨l', hrep, fun x hx => ?_, fun x hd => hd.clear hs hw⟩
      have hxe : x ≠ e := by
        rintro rfl
        exact hx hpop
      refine ⟨fun r hr => ?_, ?_, congrFun hw x⟩
      · rcases mem_cons.mp hr with hc | hr
        · exact absurd (Prod.mk.inj hc).1 hxe
        · exact hr
      · exact (congrFun hs x).trans (update_of_ne hxe _ _)
    · have hnone := h.pop_none fun a l' hc => hdue ⟨a, l', hc⟩
      have hrun : (DelayOp.expire : DelayOp cfg Did Wid).run st = st :=
        zEventQRound_of_none (congrArg Prod.snd hnone)
      rw [hrun]
      exact ⟨l, h, fun _ _ => .same rfl rfl, fun _ hd => hd⟩
  | step q => exact ⟨l, h.setWorld _, fun _ _ => .same rfl rfl, fun _ hd => hd⟩
  | schedEnter => exact ⟨l, h.setWorld _, fun _ _ => .same rfl rfl, fun _ hd => hd⟩
  | yield => exact ⟨l, h.setWorld _, fun _ _ => .same rfl rfl, fun _ hd => hd⟩

theorem DelayOp.puts_of_not_concerns {op : DelayOp cfg Did Wid} (h : ¬ op.Concerns d st) :
    op.puts d st = [] := by
  cases op with
  | schedule q d' timeout => exact if_neg fun hc => h hc.1
  | reschedule q d' timeout => exact if_neg fun hc => h hc.1
  | expire => exact if_neg h
  | cancel d' => rfl
  | cancelEnd d' => rfl
  | submit q x => rfl
  | shift => rfl
  | step q => rfl
  | schedEnter => rfl
  | yield => rfl

end Watch

structure Watched (Tid Qid Did Wid : Type) where
  st : DelaySys Tid Qid Did Wid
  put : List Qid
  passed : Nat

def Watched.after {cfg : Config Tid Qid} (d : Did) (s : Watched Tid Qid Did Wid)
    (op : DelayOp cfg Did Wid) : Watched Tid Qid Did Wid :=
  ⟨op.run s.st, s.put ++ op.puts d s.st, s.passed + op.ticks⟩

/-- A call on the item `d`. -/
def DelayOp.Calls {cfg : Config Tid Qid} (d : Did) : DelayOp cfg Did Wid → Prop
  | .schedule _ d' _ | .reschedule _ d' _ | .cancel d' => d' = d
  | _ => False

def Follows (cfg : PoolConfig Tid Qid) (d : Did) (s : Watched Tid Qid Did Wid) :
    Watched Tid Qid Did Wid → Prop :=
  Reach (· = s) (fun s (op : DelayOp cfg.toConfig Did Wid) => op.Allowed cfg s.st ∧ ¬ op.Calls d)
    (Watched.after d)

structure Served (q : Qid) (timeout : Nat) (s : Watched Tid Qid Did Wid) : Prop where
  once : s.put = [] ∨ s.put = [q]
  early : s.put = [q] → timeout ≤ s.passed
  late : timeout ≤ s.passed → (tqueuePop s.st.queue).2 = none → s.put = [q]
  noWait : timeout = 0 → s.put = [q]

variable {cfg : PoolConfig Tid Qid} {d : Did} {q : Qid} {t : Nat}
variable {s s' : Watched Tid Qid Did Wid} {l : List (Did × Nat)}

inductive Awaits (cfg : PoolConfig Tid Qid) (d : Did) (q : Qid) (t : Nat)
    (s : Watched Tid Qid Did Wid) (l : List (Did × Nat)) : Prop
  | waiting (rep : EventsRep cfg.deltaBits s.st l) (put : s.put = [])
      (scheduled : s.st.scheduled d = true) (workqueue : s.st.world.workqueue d = some q)
      (left : (d, t - s.passed) ∈ deadlines l)
  | done (rep : EventsRep cfg.deltaBits s.st l) (put : s.put = [q])
      (scheduled : s.st.scheduled d = false) (passed : t ≤ s.passed)

omit [DecidableEq Qid] [Fintype Did] [DecidableEq Wid] in
theorem Awaits.rep (h : Awaits cfg d q t s l) : EventsRep cfg.deltaBits s.st l := by
  cases h with
  | waiting rep => exact rep
  | done rep => exact rep

theorem Awaits.pass {op : DelayOp cfg.toConfig Did Wid} (h : Awaits cfg d q t s l)
    (hop : ¬ op.Concerns d s.st) : ∃ l', Awaits cfg d q t (s.after d op) l' := by
  obtain ⟨l', hrep, hpass, -⟩ := op.events_spec h.rep
  obtain ⟨hleft, hs, hw⟩ := hpass d hop
  have hput : (s.after d op).put = s.put := by
    simp only [Watched.after, DelayOp.puts_of_not_concerns hop, append_nil]
  refine ⟨l', ?_⟩
  cases h with
  | waiting _ put scheduled workqueue left =>
    refine .waiting hrep (hput.trans put) (hs.trans scheduled) (hw.trans workqueue) ?_
    show (d, t - (s.passed + op.ticks)) ∈ deadlines l'
    rw [← Nat.sub_sub]
    exact hleft _ left
  | done _ put scheduled passed =>
    exact .done hrep (hput.trans put) (hs.trans scheduled) (Nat.le_add_right_of_le passed)

theorem Awaits.fire (h : Awaits cfg d q t s ((d, 0) :: l)) :
    Awaits cfg d q t (s.after d (.expire : DelayOp cfg.toConfig Did Wid)) l
      ∧ (s.after d (.expire : DelayOp cfg.toConfig Did Wid)).put = [q] := by
  obtain ⟨hpop, hrep, hs, -⟩ := zEventQRound_due h.rep
  cases h with
  | waiting rep put scheduled workqueue left =>
    have hput : (s.after d (.expire : DelayOp cfg.toConfig Did Wid)).put = [q] := by
      simp only [Watched.after, DelayOp.puts, if_pos hpop, workqueue, put]
      rfl
    refine ⟨.done hrep hput ?_ ?_, hput⟩
    · exact (congrFun hs d).trans (update_self ..)
    · rcases mem_cons.mp left with hc | hc
      · exact Nat.sub_eq_zero_iff_le.mp (Prod.mk.inj hc).2
      · have hnd := (nodup_cons.mp rep.queue.rep.chain.nodup).1
        exact absurd (mem_map_fst_iff.mpr ⟨_, hc⟩) hnd
  | done rep put scheduled passed =>
    rw [(rep.flag d).mpr mem_cons_self] at scheduled
    exact Bool.noConfusion scheduled

/-- **ONE STEP** when no call on the item is made. -/
theorem Awaits.step {op : DelayOp cfg.toConfig Did Wid} (h : Awaits cfg d q t s l)
    (hop : ¬ op.Calls d) : ∃ l', Awaits cfg d q t (s.after d op) l' := by
  by_cases hc : op.Concerns d s.st
  · cases op with
    | expire =>
      have hpop : (tqueuePop s.st.queue).2 = some d := hc
      by_cases hdue : ∃ e l', l = (e, 0) :: l'
      · obtain ⟨e, l', rfl⟩ := hdue
        obtain rfl : e = d := Option.some.inj ((zEventQRound_due h.rep).1.symm.trans hpop)
        exact ⟨l', h.fire.1⟩
      · have hnone := h.rep.pop_none fun a l' hl => hdue ⟨a, l', hl⟩
        rw [hnone] at hpop
        exact absurd hpop.symm (Option.some_ne_none d)
    | schedule q' d' timeout => exact absurd hc hop
    | reschedule q' d' timeout => exact absurd hc hop
    | cancel d' => exact absurd hc hop
    | cancelEnd d' => exact hc.elim
    | submit q' x => exact hc.elim
    | shift => exact hc.elim
    | step q' => exact hc.elim
    | schedEnter => exact hc.elim
    | yield => exact hc.elim
  · exact h.pass hc

theorem Follows.awaits (h : Follows cfg d s s') (h₀ : Awaits cfg d q t s l) :
    ∃ l', Awaits cfg d q t s' l' := by
  refine Reach.invariant (P := fun s' => ∃ l', Awaits cfg d q t s' l') h ?_ ?_
  · rintro _ rfl
    exact ⟨l, h₀⟩
  · rintro s op ⟨l', hi⟩ hok
    exact hi.step hok.2

theorem Follows.put_grows (h : Follows cfg d s s') : s.put <+: s'.put := by
  refine Reach.invariant (P := fun s' => s.put <+: s'.put) h ?_ ?_
  · rintro _ rfl
    exact prefix_rfl
  · intro s₁ op hi _
    exact hi.trans (prefix_append _ _)

theorem Awaits.served (h : Awaits cfg d q t s l) (ht : t = 0 → s.put = [q]) : Served q t s := by
  cases h with
  | waiting rep put scheduled workqueue left =>
    refine ⟨Or.inl put, fun hc => ?_, fun hle hpop => ?_, ht⟩
    · rw [put] at hc
      exact absurd hc.symm (cons_ne_nil q [])
    · have hdue : ∀ a l', l ≠ (a, 0) :: l' := by
        rintro a l' rfl
        rw [(zEventQRound_due rep).1] at hpop
        exact Option.some_ne_none a hpop
      have hpos := pos_of_not_due hdue _ left
      rw [Nat.sub_eq_zero_iff_le.mpr hle] at hpos
      exact absurd hpos (Nat.lt_irrefl 0)
  | done rep put scheduled passed =>
    exact ⟨Or.inr put, fun _ => passed, fun _ _ => put, fun _ => put⟩

theorem Awaits.expires (h : Awaits cfg d q t s l) (hpassed : t ≤ s.passed) :
    ∃ s', Follows cfg d s s' ∧ s'.put = [q] := by
  induction l generalizing s with
  | nil =>
    cases h with
    | waiting rep put scheduled workqueue left => exact absurd left not_mem_nil
    | done rep put => exact ⟨s, .start rfl, put⟩
  | cons e l ih =>
    cases h with
    | done rep put => exact ⟨s, .start rfl, put⟩
    | waiting rep put scheduled workqueue left =>
      obtain ⟨a, r⟩ := e
      obtain rfl : r = 0 := by
        by_contra hr
        have hpos := pos_of_not_due (l := (a, r) :: l)
          (fun b l' hc => hr (Prod.mk.inj (List.cons.inj hc).1).2) _ left
        rw [Nat.sub_eq_zero_iff_le.mpr hpassed] at hpos
        exact Nat.lt_irrefl 0 hpos
      have hfirst : Follows cfg d s (s.after d (.expire : DelayOp cfg.toConfig Did Wid)) :=
        .step DelayOp.expire (.start rfl) ⟨trivial, id⟩
      by_cases ha : a = d
      · subst ha
        obtain ⟨-, hput⟩ := (Awaits.waiting rep put scheduled workqueue left).fire
        exact ⟨_, hfirst, hput⟩
      · obtain ⟨hpop, hrep, hs, hw⟩ := zEventQRound_due rep
        have hputs : (DelayOp.expire : DelayOp cfg.toConfig Did Wid).puts d s.st = [] := by
          refine DelayOp.puts_of_not_concerns fun hc => ?_
          exact ha (Option.some.inj (hpop.symm.trans hc))
        have hnext : Awaits cfg d q t (s.after d (.expire : DelayOp cfg.toConfig Did Wid)) l := by
          refine .waiting hrep ?_ ?_ ?_ ?_
          · simp only [Watched.after, hputs, put, append_nil]
          · exact (congrFun hs d).trans ((update_of_ne (Ne.symm ha) _ _).trans scheduled)
          · exact (congrFun hw d).trans workqueue
          · exact (mem_cons.mp left).resolve_left fun hc => ha (Prod.mk.inj hc).1.symm
        obtain ⟨s', hs', hput⟩ := ih hnext hpassed
        exact ⟨s', hfirst.trans hs', hput⟩

theorem Awaits.elapses (h : Awaits cfg d q t s l) (hperiod : 0 < cfg.sliceTicks.toNat) :
    ∃ s', Follows cfg d s s' ∧ s'.put = [q] := by
  induction hn : t - s.passed using Nat.strong_induction_on generalizing s l with
  | _ n ih =>
    by_cases hpassed : t ≤ s.passed
    · exact h.expires hpassed
    · obtain ⟨l', hnext⟩ := h.pass
        (show ¬ (DelayOp.shift : DelayOp cfg.toConfig Did Wid).Concerns d s.st from id)
      have hlt : t - (s.after d (.shift : DelayOp cfg.toConfig Did Wid)).passed < n := by
        show t - (s.passed + cfg.sliceTicks.toNat) < n
        omega
      obtain ⟨s', hs', hput⟩ := ih _ hlt hnext rfl
      have hfirst : Follows cfg d s (s.after d (.shift : DelayOp cfg.toConfig Did Wid)) :=
        .step DelayOp.shift (.start rfl) ⟨trivial, id⟩
      exact ⟨s', hfirst.trans hs', hput⟩

theorem DelayReach.events {st : DelaySys Tid Qid Did Wid}
    (h : DelayReach cfg (fun _ _ => True) st) :
    ∃ l, EventsRep cfg.deltaBits st l ∧ ∀ d, Destined st d := by
  refine Reach.invariant (P := fun st : DelaySys Tid Qid Did Wid =>
    ∃ l, EventsRep cfg.deltaBits st l ∧ ∀ d, Destined st d) h ?_ ?_
  · rintro st ⟨k, ring, tie, -, rfl⟩
    exact ⟨[], delayBoot_events k tie, fun d hc => Bool.noConfusion hc⟩
  · rintro st op ⟨l, hrep, hd⟩ -
    obtain ⟨l', hrep', -, hd'⟩ := op.events_spec hrep
    exact ⟨l', hrep', fun d => hd' d (hd d)⟩

def rescheduled (cfg : PoolConfig Tid Qid) (st : DelaySys Tid Qid Did Wid) (q : Qid) (d : Did)
    (timeout : cfg.Timeout) : Watched Tid Qid Did Wid :=
  Watched.after d ⟨st, [], 0⟩ (.reschedule q d timeout : DelayOp cfg.toConfig Did Wid)

theorem rescheduled_awaits {st : DelaySys Tid Qid Did Wid}
    (h : EventsRep cfg.deltaBits st l) (hd : Destined st d) {timeout : cfg.Timeout}
    (hret : (kWorkDelayableReschedule cfg.toConfig st q d timeout).2 = 0
      ∨ (kWorkDelayableReschedule cfg.toConfig st q d timeout).2 = 1) :
    (st.scheduled d = false
        ∧ (∃ l', Awaits cfg d q timeout.toNat (rescheduled cfg st q d timeout) l')
        ∧ (timeout = 0 → (rescheduled cfg st q d timeout).put = [q]))
      ∨ st.scheduled d = true ∧ (rescheduled cfg st q d timeout).put = []
        ∧ ∃ q' l', st.world.workqueue d = some q'
          ∧ Awaits cfg d q' timeout.toNat (rescheduled cfg st q d timeout) l' := by
  have hfree : ¬ (!zWorkSubmittable st.world.pool.next (.delayable d)) = true := by
    intro hc
    rw [kWorkDelayableReschedule, if_pos hc] at hret
    exact absurd hret (by simp [EBUSY])
  cases hs : st.scheduled d with
  | false =>
    have hrun : (DelayOp.reschedule q d timeout : DelayOp cfg.toConfig Did Wid).run st
        = setQuiet (zWorkDelayableSchedule cfg.toConfig st q d timeout) d false := by
      simp [DelayOp.run, kWorkDelayableReschedule, hfree, hs]
    have hone : (kWorkDelayableReschedule cfg.toConfig st q d timeout).2 = 1 := by
      simp [kWorkDelayableReschedule, hfree, hs]
    have hput : timeout = kNoWait cfg.toConfig → (rescheduled cfg st q d timeout).put = [q] :=
      fun ht => if_pos ⟨rfl, hone, ht⟩
    obtain ⟨l', hrep, -, hwq, hnow, hlater⟩ := zWorkDelayableSchedule_events h hs q timeout
    refine Or.inl ⟨rfl, ⟨l', ?_⟩, hput⟩
    · by_cases ht : timeout = kNoWait cfg.toConfig
      · refine .done ?_ ?_ ?_ ?_
        · simp only [rescheduled, Watched.after, hrun]
          exact ⟨hrep.queue, hrep.flag⟩
        · exact hput ht
        · simp only [rescheduled, Watched.after, hrun]
          exact hnow ht
        · rw [ht]
          exact Nat.zero_le _
      · obtain ⟨hsched, hleft⟩ := hlater ht
        refine .waiting ?_ ?_ ?_ ?_ hleft
        · simp only [rescheduled, Watched.after, hrun]
          exact ⟨hrep.queue, hrep.flag⟩
        · simp [rescheduled, Watched.after, DelayOp.puts, ht]
        · simp only [rescheduled, Watched.after, hrun]
          exact hsched
        · simp only [rescheduled, Watched.after, hrun]
          exact hwq
  | true =>
    have hrun : (DelayOp.reschedule q d timeout : DelayOp cfg.toConfig Did Wid).run st
        = setQuiet (zEventReschedule (eventConfig cfg.toConfig) st d timeout) d false := by
      simp [DelayOp.run, kWorkDelayableReschedule, hfree, hs]
    have hzero : (kWorkDelayableReschedule cfg.toConfig st q d timeout).2 = 0 := by
      simp [kWorkDelayableReschedule, hfree, hs]
    have hput : (rescheduled cfg st q d timeout).put = [] := by
      simp [rescheduled, Watched.after, DelayOp.puts, hzero]
    obtain ⟨q', hq'⟩ := Option.ne_none_iff_exists'.mp (hd hs)
    have hrep : EventsRep _ (zEventReschedule (eventConfig cfg.toConfig) st d timeout) _ :=
      h.reschedule hs timeout
    refine Or.inr ⟨rfl, hput, q', _, hq', .waiting (l := insertDelta d timeout.toNat
      (removeDelta d l)) ?_ hput ?_ ?_ ?_⟩
    · simp only [rescheduled, Watched.after, hrun]
      exact ⟨hrep.queue, hrep.flag⟩
    · simp only [rescheduled, Watched.after, hrun]
      exact hs
    · simp only [rescheduled, Watched.after, hrun]
      exact hq'
    · exact mem_deadlines_insertDelta.mpr (Or.inl rfl)

/-- **RESCHEDULED WORK** goes to the requested workqueue after the new delay exactly if the event
    was not scheduled, or was for that workqueue and the timeout is not `K_NO_WAIT`. -/
theorem rescheduled_served_iff {st : DelaySys Tid Qid Did Wid}
    (h : DelayReach cfg (fun _ _ => True) st) (d : Did) (q : Qid)
    (timeout : cfg.Timeout)
    (hret : (kWorkDelayableReschedule cfg.toConfig st q d timeout).2 = 0
      ∨ (kWorkDelayableReschedule cfg.toConfig st q d timeout).2 = 1) :
    ((st.scheduled d = true → st.world.workqueue d = some q ∧ timeout ≠ 0) →
        ∀ s, Follows cfg d (rescheduled cfg st q d timeout) s → Served q timeout.toNat s)
      ∧ (0 < cfg.sliceTicks.toNat →
        (∀ s, Follows cfg d (rescheduled cfg st q d timeout) s → Served q timeout.toNat s) →
        st.scheduled d = true → st.world.workqueue d = some q ∧ timeout ≠ 0)
      ∧ ∀ (st : DelaySys Tid Qid Did Wid) (op : DelayOp cfg.toConfig Did Wid),
        op.Concerns d st → (op.run st).world.pool = (op.puts d st).foldl
          (fun pool q => zWorkSubmit cfg.toConfig pool q (.delayable d)) st.world.pool := by
  obtain ⟨l, hrep, hd⟩ := h.events
  rcases rescheduled_awaits hrep (hd d) hret with
    ⟨hs, ⟨l', ha⟩, hnow⟩ | ⟨hs, hput, q', l', hq', ha⟩
  · refine ⟨fun _ s hf => ?_, fun _ _ hc => absurd (hs.symm.trans hc) Bool.false_ne_true,
      fun _ _ hop => DelayOp.pool_of_concerns hop⟩
    obtain ⟨l'', hs'⟩ := hf.awaits ha
    refine hs'.served fun ht => ?_
    have hgrows := hf.put_grows
    rw [hnow (BitVec.eq_of_toNat_eq ht)] at hgrows
    cases hs' with
    | waiting rep put =>
      rw [put] at hgrows
      exact absurd (prefix_nil.mp hgrows) (cons_ne_nil q [])
    | done rep put => exact put
  · refine ⟨fun hcond s hf => ?_, fun hperiod hserved _ => ?_,
      fun _ _ hop => DelayOp.pool_of_concerns hop⟩
    · obtain ⟨hwq, ht⟩ := hcond hs
      obtain rfl : q' = q := Option.some.inj (hq'.symm.trans hwq)
      obtain ⟨l'', hs'⟩ := hf.awaits ha
      exact hs'.served fun hc => absurd (BitVec.eq_of_toNat_eq hc) ht
    · have ht : timeout ≠ 0 := by
        rintro rfl
        have hc := (hserved _ (.start rfl)).noWait rfl
        rw [hput] at hc
        exact cons_ne_nil q [] hc.symm
      obtain ⟨s, hf, hs'⟩ := ha.elapses hperiod
      have honce := (hserved s hf).once
      rw [hs'] at honce
      have hqq : q' = q := by simpa using honce
      exact ⟨hq'.trans (by rw [hqq]), ht⟩

def twoWorkers : PoolConfig (Fin 4) (Fin 2) where
  toConfig := smallConfig (Fin 2)
  worker := fun q => if q = 0 then 1 else 2
  worker_inj := by decide
  worker_ne_idle := by decide

/-- A run with one delayable item. -/
def twoQueueRun (ops : List (DelayOp twoWorkers.toConfig Unit Unit)) :
    DelaySys (Fin 4) (Fin 2) Unit Unit :=
  ops.foldl DelayOp.run (delayBoot (smallBoot (Fin 2) Empty (Item Unit Unit)) fun _ => ⟨0, none⟩)

def scheduledFor : DelaySys (Fin 4) (Fin 2) Unit Unit := twoQueueRun [.schedule 0 () 5]

theorem scheduledFor_reach : DelayReach twoWorkers (fun _ _ => True) scheduledFor :=
  Reach.foldl (.start ⟨_, _, _, smallBoot_boot, rfl⟩) ⟨⟨trivial, trivial⟩, trivial⟩

theorem rescheduled_served_iff_same :
    (kWorkDelayableReschedule twoWorkers.toConfig scheduledFor 0 () 2).2 = 0
      ∧ ∀ s, Follows twoWorkers () (rescheduled twoWorkers scheduledFor 0 () 2) s →
        Served 0 2 s :=
  ⟨by decide, (rescheduled_served_iff scheduledFor_reach () 0 2 (by decide)).1 (by decide)⟩

/-- **THE WRONG WORKQUEUE**: rescheduled for 1, the item is put into 0; with `K_NO_WAIT` nowhere. -/
theorem rescheduled_misdirected :
    DelayReach twoWorkers (fun _ _ => True) scheduledFor
      ∧ (kWorkDelayableReschedule twoWorkers.toConfig scheduledFor 1 () 1).2 = 0
      ∧ ((([.shift, .expire] : List (DelayOp twoWorkers.toConfig Unit Unit)).foldl
          (Watched.after ()) (rescheduled twoWorkers scheduledFor 1 () 1)).put = [0])
      ∧ (kWorkDelayableReschedule twoWorkers.toConfig scheduledFor 0 () 0).2 = 0
      ∧ (rescheduled twoWorkers scheduledFor 0 () 0).put = [] :=
  ⟨scheduledFor_reach, by decide, by decide, by decide, by decide⟩

end AvrtosDelayable
