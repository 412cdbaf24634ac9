import Avrtos.Flags
import Avrtos.HandOff

/-! # What is notified is delivered

    A run records who was woken with which flags; each notification delivers in queue order. -/

namespace AvrtosFlags

open Function BitVec List AvrtosDefines AvrtosKernel BitDelivery Runs

structure PollArgs where
  mask : BitVec 8
  options : BitVec 8
deriving DecidableEq, Repr

structure Polled where
  ret : Int
  mask : BitVec 8
  args : PollArgs
  got : Option Nat
deriving DecidableEq, Repr

def Polled.Right (e : Polled) : Prop :=
  (∃ d, e.got = some d ∧ e.ret = 0 ∧ e.mask = getMask d)
    ∨ e.got = none ∧ e.ret ≠ 0 ∧ e.mask = e.args.mask

structure FlagsSys (Tid : Type) where
  hands : Hands Tid Unit Nat PollArgs
  flags : Flags
  log : List Polled

variable {Tid : Type} [Threads Tid]

def FlagsSys.mask (st : FlagsSys Tid) (t : Tid) : BitVec 8 :=
  ((st.hands.calls.frame t).map fun f => f.call.mask).getD 0

def FlagsSys.consume (st : FlagsSys Tid) (t : Tid) : Bool :=
  ((st.hands.calls.frame t).map fun f => decide (f.call.options &&& CONSUME ≠ 0)).getD false

def FlagsSys.finish (st : FlagsSys Tid) : FlagsSys Tid :=
  let cur := st.hands.calls.ker.current
  match st.hands.calls.frame cur with
  | none => st
  | some f =>
      { st with
        hands := st.hands.resume
        log := ⟨zPendResult (st.hands.calls.ker.thread cur),
          kFlagsPollEnd (st.hands.calls.ker.thread cur) f.call.mask, f.call,
          st.hands.got cur⟩ :: st.log }

/-- `k_flags_notify`, before the thread that was switched in, if any, goes on. -/
def FlagsSys.notify (cfg : Config Tid Unit) (st : FlagsSys Tid) (value options : BitVec 8) :
    FlagsSys Tid × Int :=
  let r := kFlagsNotify cfg st.hands.calls.ker st.flags () value options
  ({ st with hands := st.hands.wake r.1, flags := r.2.1 }, r.2.2)

/-- The operations of a run. -/
inductive FlagsOp (cfg : Config Tid Unit) where
  | poll (mask options : BitVec 8) (timeout : cfg.Timeout)
  | notify (value options : BitVec 8)
  | reset
  | schedEnter
  | yield

/-- Only threads block. -/
def FlagsOp.Allowed {cfg : Config Tid Unit} (st : FlagsSys Tid) : FlagsOp cfg → Prop
  | .poll _ _ timeout => timeout ≠ kNoWait cfg → st.hands.calls.ker.current ≠ cfg.idle
  | _ => True

/-- The state after an operation. -/
def FlagsOp.run {cfg : Config Tid Unit} (st : FlagsSys Tid) : FlagsOp cfg → FlagsSys Tid
  | .poll mask options timeout =>
      let r := kFlagsPoll cfg st.hands.calls.ker st.flags () mask options timeout
      match r.2.2.2 with
      | some _ => { st with hands := st.hands.setKer r.1, flags := r.2.1 }
      | none =>
          { st with hands := st.hands.leave r.1 () ⟨mask, options⟩, flags := r.2.1 }.finish
  | .notify value options => (st.notify cfg value options).1.finish
  | .reset =>
      let r := kFlagsReset cfg st.hands.calls.ker st.flags ()
      { st with hands := st.hands.setKer r.1, flags := r.2.1 }
  | .schedEnter => { st with hands := st.hands.setKer (zSchedEnter cfg st.hands.calls.ker) }
  | .yield => { st with hands := st.hands.setKer (zScheduler st.hands.calls.ker) }.finish

def flagsBoot (k : Kernel Tid Unit Empty Nat) (value : BitVec 8) : FlagsSys Tid where
  hands := handsBoot k
  flags := kFlagsInit value
  log := []

/-- The states of the runs. -/
def FlagsReach (cfg : Config Tid Unit) : FlagsSys Tid → Prop :=
  Reach (fun st => ∃ k ring value, ColdBoot cfg k ring ∧ st = flagsBoot k value)
    (fun st (op : FlagsOp cfg) => op.Allowed st) FlagsOp.run

variable {cfg : Config Tid Unit} {st st' : FlagsSys Tid} {w w' : Unit → List Tid}
variable {t : Tid} {value options : BitVec 8} {ret : Int}

theorem getMask_optAndMask (options mask : BitVec 8) :
    getMask (optAndMask options mask) = mask := by
  refine eq_of_toNat_eq ?_
  have hm := mask.isLt
  rw [getMask, optAndMask, toNat_ofNat]
  omega

theorem getOptions_optAndMask (options mask : BitVec 8) :
    getOptions (optAndMask options mask) = options := by
  refine eq_of_toNat_eq ?_
  have hm := mask.isLt
  have ho := options.isLt
  rw [getOptions, optAndMask, toNat_ofNat]
  omega

/-- `w` are the waiting threads. -/
structure FlagsBase (cfg : Config Tid Unit) (st : FlagsSys Tid) (w : Unit → List Tid) :
    Prop where
  hands : HandsBase cfg st.hands w
  /-- the arguments of a waiter are in its `swap_data` -/
  word : ∀ t f, st.hands.calls.frame t = some f → st.hands.calls.Waiting () t →
    (st.hands.calls.ker.thread t).swapData = some (optAndMask f.call.options f.call.mask)
  apart : ∀ t, st.hands.calls.Waiting () t → st.flags.flags &&& st.mask t = 0
  results : ∀ e ∈ st.log, e.Right

def FlagsInv (cfg : Config Tid Unit) (st : FlagsSys Tid) : Prop :=
  ∃ w, FlagsBase cfg st w ∧ HandsInv cfg st.hands w

theorem FlagsBase.frame (h : FlagsBase cfg st w) (hh : HandsBase cfg st'.hands w')
    (hwait : ∀ t, st'.hands.calls.Waiting () t → st.hands.calls.Waiting () t
      ∧ st'.hands.calls.frame t = st.hands.calls.frame t
      ∧ (st'.hands.calls.ker.thread t).swapData = (st.hands.calls.ker.thread t).swapData)
    (hapart : ∀ t, st'.hands.calls.Waiting () t → st'.flags.flags &&& st.mask t = 0)
    (hlog : ∀ e ∈ st'.log, e.Right) : FlagsBase cfg st' w' := by
  refine ⟨hh, ?_, ?_, hlog⟩
  · intro t f hf ht
    obtain ⟨hw, hframe, hs⟩ := hwait t ht
    rw [hs]
    exact h.word t f (hframe ▸ hf) hw
  · intro t ht
    obtain ⟨-, hframe, -⟩ := hwait t ht
    rw [FlagsSys.mask, hframe]
    exact hapart t ht

theorem FlagsSys.finish_of_none
    (hf : st.hands.calls.frame st.hands.calls.ker.current = none) : st.finish = st := by
  simp only [FlagsSys.finish, hf]

theorem FlagsBase.finish (h : FlagsBase cfg st w) :
    FlagsBase cfg st.finish w ∧ HandsInv cfg st.finish.hands w := by
  cases hf : st.hands.calls.frame st.hands.calls.ker.current with
  | none =>
    rw [FlagsSys.finish_of_none hf]
    exact ⟨h, h.hands, hf⟩
  | some f =>
    have hfin : st.finish = { st with
        hands := st.hands.resume
        log := ⟨zPendResult (st.hands.calls.ker.thread st.hands.calls.ker.current),
          kFlagsPollEnd (st.hands.calls.ker.thread st.hands.calls.ker.current) f.call.mask,
          f.call, st.hands.got st.hands.calls.ker.current⟩ :: st.log } := by
      simp only [FlagsSys.finish, hf]
    have hinv := h.hands.resume
    rw [hfin]
    refine ⟨h.frame hinv.toHandsBase ?_ ?_ ?_, hinv⟩
    · intro t ht
      have hne : t ≠ st.hands.calls.ker.current :=
        fun hc => h.hands.calls.current_not_pending (hc ▸ ht.1)
      have hw : t ∈ w () := (hinv.calls.waits () t).mpr ht
      exact ⟨(h.hands.calls.waits () t).mp hw, update_of_ne hne _ _, rfl⟩
    · intro t ht
      have hw : t ∈ w () := (hinv.calls.waits () t).mpr ht
      exact h.apart t ((h.hands.calls.waits () t).mp hw)
    · intro e he
      rcases mem_cons.mp he with rfl | he
      · rcases h.hands.result hf with ⟨hz, d, hg, hs⟩ | ⟨hz, hg⟩
        · refine Or.inl ⟨d, hg, hz, ?_⟩
          show kFlagsPollEnd _ _ = _
          rw [kFlagsPollEnd, if_pos hz, hs]
          rfl
        · exact Or.inr ⟨hg, hz, if_neg hz⟩
      · exact h.results e he

theorem FlagsBase.asks (h : FlagsBase cfg st w) (ht : t ∈ w ()) :
    st.mask t = pendMask st.hands.calls.ker t ∧ st.consume t = consumes st.hands.calls.ker t := by
  have hw := (h.hands.calls.waits () t).mp ht
  obtain ⟨f, hf, -⟩ := Option.map_eq_some_iff.mp hw.2
  have hs := h.word t f hf hw
  rw [FlagsSys.mask, FlagsSys.consume, pendMask, consumes, hf, hs]
  refine ⟨(getMask_optAndMask ..).symm, ?_⟩
  show decide _ = decide (getOptions (optAndMask _ _) &&& CONSUME ≠ 0)
  rw [getOptions_optAndMask]

theorem FlagsInv.poll_returns (hb : FlagsBase cfg st w) (hi : HandsInv cfg st.hands w)
    (kept : BitVec 8) :
    FlagsInv cfg { st with
      hands := st.hands.setKer st.hands.calls.ker
      flags := { st.flags with flags := st.flags.flags &&& kept } } := by
  refine ⟨w, hb.frame hi.toHandsBase (fun t ht => ⟨ht, rfl, rfl⟩) ?_ hb.results, hi⟩
  intro t ht
  have h0 := hb.apart t ht
  rw [and_eq_zero_iff] at h0 ⊢
  intro i hbit
  rw [getLsbD_and, Bool.and_eq_true] at hbit
  exact h0 i hbit.1

theorem FlagsInv.poll_noWait (hb : FlagsBase cfg st w) (hi : HandsInv cfg st.hands w)
    (mask options : BitVec 8) :
    FlagsInv cfg { st with
      hands := st.hands.setKer (pollFlags st.hands.calls.ker mask options) } := by
  have hinv := hi.swap (some (optAndMask options mask))
  have hsame : ∀ t, ((pollFlags st.hands.calls.ker mask options).thread t).state
      = (st.hands.calls.ker.thread t).state := by
    intro t
    show (update st.hands.calls.ker.thread st.hands.calls.ker.current _ t).state = _
    by_cases ht : t = st.hands.calls.ker.current
    · rw [ht, update_self]
    · rw [update_of_ne ht]
  have hwait : ∀ t, (st.hands.setKer (pollFlags st.hands.calls.ker mask
      options)).calls.Waiting () t → st.hands.calls.Waiting () t :=
    fun t ht => ⟨(hsame t).symm.trans ht.1, ht.2⟩
  refine ⟨w, hb.frame hinv.toHandsBase ?_ (fun t ht => hb.apart t (hwait t ht)) hb.results, hinv⟩
  intro t ht
  have hne : t ≠ st.hands.calls.ker.current :=
    fun hc => hb.hands.calls.current_not_pending (hc ▸ (hwait t ht).1)
  exact ⟨hwait t ht, rfl, congrArg Thread.swapData (update_of_ne hne _ _)⟩

theorem FlagsInv.poll_waits (hb : FlagsBase cfg st w) (hi : HandsInv cfg st.hands w)
    (options : BitVec 8) {mask : BitVec 8} (hmask : st.flags.flags &&& mask = 0)
    {timeout : cfg.Timeout} (hne : timeout ≠ kNoWait cfg)
    (hcur : st.hands.calls.ker.current ≠ cfg.idle) :
    (zPendCurrentOn cfg (pollFlags st.hands.calls.ker mask options) (some ()) timeout).2 = none
      ∧ FlagsInv cfg { st with
          hands := st.hands.leave (zPendCurrentOn cfg
            (pollFlags st.hands.calls.ker mask options) (some ()) timeout).1 ()
            ⟨mask, options⟩ }.finish := by
  have hinv := hi.swap (some (optAndMask options mask))
  obtain ⟨hnone, hbase⟩ := hinv.leave hcur () (⟨mask, options⟩ : PollArgs) hne
  obtain ⟨-, -, hth, -⟩ := hinv.callsInv.leave hcur () (⟨mask, options⟩ : PollArgs) hne
  refine ⟨hnone, ?_⟩
  replace hbase : HandsBase cfg (st.hands.leave (zPendCurrentOn cfg
    (pollFlags st.hands.calls.ker mask options) (some ()) timeout).1 () ⟨mask, options⟩) _ :=
    hbase
  replace hth : ∀ x, (zPendCurrentOn cfg (pollFlags st.hands.calls.ker mask options) (some ())
      timeout).1.thread x = if x = st.hands.calls.ker.current then
        ((pollFlags st.hands.calls.ker mask options).thread x).blocked _
      else (pollFlags st.hands.calls.ker mask options).thread x := hth
  generalize (zPendCurrentOn cfg (pollFlags st.hands.calls.ker mask options) (some ())
    timeout).1 = k' at hbase hth ⊢
  -- the thread that blocks, and the others
  have hself : (k'.thread st.hands.calls.ker.current).swapData
      = some (optAndMask options mask) := by
    rw [hth, if_pos rfl]
    show (update st.hands.calls.ker.thread st.hands.calls.ker.current _ _).swapData = _
    rw [update_self]
  have hother : ∀ t, t ≠ st.hands.calls.ker.current → k'.thread t = st.hands.calls.ker.thread t
        ∧ (st.hands.leave k' () ⟨mask, options⟩).calls.frame t = st.hands.calls.frame t := by
    intro t ht
    refine ⟨?_, update_of_ne ht _ _⟩
    rw [hth, if_neg ht]
    exact update_of_ne ht _ _
  have hframe : (st.hands.leave k' () ⟨mask, options⟩).calls.frame st.hands.calls.ker.current
      = some ⟨(), st.hands.calls.clock, ⟨mask, options⟩⟩ := update_self ..
  have hwait : ∀ t, t ≠ st.hands.calls.ker.current →
      (st.hands.leave k' () ⟨mask, options⟩).calls.Waiting () t → st.hands.calls.Waiting () t := by
    rintro t hne ⟨hp, hq⟩
    obtain ⟨h1, h2⟩ := hother t hne
    refine ⟨?_, ?_⟩
    · rw [← h1]
      exact hp
    · rw [← hq, Calls.queue, Calls.queue, h2]
  refine ⟨_, FlagsBase.finish ⟨hbase, ?_, ?_, hb.results⟩⟩
  · intro t f hf ht
    by_cases hc : t = st.hands.calls.ker.current
    · subst hc
      rw [hframe] at hf
      rw [← Option.some.inj hf]
      exact hself
    · obtain ⟨h1, h2⟩ := hother t hc
      show (k'.thread t).swapData = _
      rw [h1]
      exact hb.word t f (h2 ▸ hf) (hwait t hc ht)
  · intro t ht
    show st.flags.flags &&& (Option.map _ _).getD 0 = 0
    by_cases hc : t = st.hands.calls.ker.current
    · rw [hc, hframe]
      exact hmask
    · rw [(hother t hc).2]
      exact hb.apart t (hwait t hc ht)

theorem FlagsInv.poll (hb : FlagsBase cfg st w) (hi : HandsInv cfg st.hands w)
    (mask options : BitVec 8) (timeout : cfg.Timeout)
    (hcur : timeout ≠ kNoWait cfg → st.hands.calls.ker.current ≠ cfg.idle) :
    FlagsInv cfg ((FlagsOp.poll mask options timeout : FlagsOp cfg).run st) := by
  rcases kFlagsPoll_result cfg st.hands.calls.ker st.flags () mask options timeout
    with ⟨kept, trig, ret, hr⟩ | ⟨hmask, hr⟩
  · simp only [FlagsOp.run, hr]
    exact FlagsInv.poll_returns hb hi kept
  · by_cases hne : timeout = kNoWait cfg
    · have hz : zPendCurrentOn cfg (pollFlags st.hands.calls.ker mask options) (some ())
          timeout = (pollFlags st.hands.calls.ker mask options, some (-EAGAIN)) := by
        rw [zPendCurrentOn, if_pos hne]
      simp only [FlagsOp.run, hr, hz]
      exact FlagsInv.poll_noWait hb hi mask options
    · obtain ⟨hnone, hinv⟩ := FlagsInv.poll_waits hb hi options hmask hne (hcur hne)
      simp only [FlagsOp.run, hr, hnone]
      exact hinv

structure Delivered (cfg : Config Tid Unit) (st st' : FlagsSys Tid) (new : BitVec 8)
    (w : List Tid) (ret : Int) (D : List (Tid × BitVec 8)) : Prop where
  list : D = deliver st.mask st.consume w new
  base : FlagsBase cfg st' fun _ => w.filter fun t => t ∉ D.map Prod.fst
  flags : st'.flags.flags = st.flags.flags ||| left st.mask st.consume new w
  count : ret = int8 (D.length % 256)
  woken : ∀ e ∈ D, st'.hands.onWay e.1 = some e.2.toNat
  rest : ∀ t, t ∉ D.map Prod.fst → st'.hands.onWay t = st.hands.onWay t
    ∧ (st'.hands.calls.Waiting () t ↔ st.hands.calls.Waiting () t)

theorem FlagsBase.notify (hb : FlagsBase cfg st w) (hi : HandsInv cfg st.hands w)
    (harg : zUser cfg.argsChecks (options &&& ~~~(SET ||| SCHED) = 0) = true)
    {r : FlagsSys Tid × Int} (hst : r = st.notify cfg value options) :
    ∃ D, Delivered cfg st r.1 (~~~st.flags.flags &&& value) (w ()) r.2 D := by
  have hasks : ∀ t ∈ w (), st.mask t = pendMask st.hands.calls.ker t
      ∧ st.consume t = consumes st.hands.calls.ker t := fun t ht => hb.asks ht
  obtain ⟨D, hD⟩ : ∃ D, D = deliver (pendMask st.hands.calls.ker)
    (consumes st.hands.calls.ker) (w ()) (~~~st.flags.flags &&& value) := ⟨_, rfl⟩
  obtain ⟨hcalls, hsame, hwoken, hr⟩ := CallsInv.deliver hi.callsInv st.flags () harg rfl hD
  rw [FlagsSys.notify, hr] at hst
  generalize (kFlagsNotify cfg st.hands.calls.ker st.flags () value options).1 = k'
    at hcalls hsame hwoken hst
  subst hst
  have hmem : ∀ e ∈ D, e.1 ∈ w () := by
    intro e he
    rw [hD] at he
    exact map_fst_deliver_sublist.subset (mem_map_of_mem he)
  -- a thread in a call does not run: it was woken or is as before
  have hrun : ∀ t, st.hands.calls.frame t ≠ none → t ≠ st.hands.calls.ker.current :=
    fun t ht hc => ht (hc ▸ hi.running)
  have hawake : ∀ e ∈ D, Woken (st.hands.calls.ker.thread e.1) (k'.thread e.1) e.2.toNat := by
    intro e he
    have hw := (hb.hands.calls.waits () e.1).mp (hmem e he)
    obtain ⟨hte, hpc⟩ := hb.hands.calls.flags hw.1
    rw [hwoken e he]
    exact ⟨hw.1, rfl, rfl, zPendResult_eq_zero.mpr ⟨hte, hpc⟩⟩
  have hhands := hb.hands.wake hcalls fun t ht => by
    by_cases htD : t ∈ D.map Prod.fst
    · obtain ⟨e, he, rfl⟩ := mem_map.mp htD
      exact Or.inr ⟨_, hawake e he⟩
    · exact Or.inl (hsame t htD (hrun t ht))
  have hwait : ∀ t, t ∉ D.map Prod.fst →
      ((st.hands.wake k').calls.Waiting () t ↔ st.hands.calls.Waiting () t) := by
    intro t ht
    rw [← hhands.calls.waits, ← hb.hands.calls.waits, mem_filter, decide_eq_true_iff]
    exact and_iff_left ht
  have hstill : ∀ t, (st.hands.wake k').calls.Waiting () t → t ∉ D.map Prod.fst ∧ t ∈ w () := by
    intro t ht
    have hmem := (hhands.calls.waits () t).mpr ht
    rw [mem_filter, decide_eq_true_iff] at hmem
    exact ⟨hmem.2, hmem.1⟩
  refine ⟨D, hD.trans (deliver_congr hasks).symm, hb.frame hhands ?_ ?_ hb.results, ?_, rfl, ?_, ?_⟩
  · intro t ht
    obtain ⟨htD, -⟩ := hstill t ht
    have hw := (hwait t htD).mp ht
    have hne : t ≠ st.hands.calls.ker.current :=
      fun hc => hb.hands.calls.current_not_pending (hc ▸ hw.1)
    exact ⟨hw, rfl, congrArg Thread.swapData (hsame t htD hne)⟩
  · intro t ht
    obtain ⟨htD, htw⟩ := hstill t ht
    refine or_and_eq_zero (hb.apart t ((hwait t htD).mp ht)) ?_
    rw [hD] at htD
    rw [(hasks t htw).1]
    exact left_and_eq_zero_of_notMem (hi.callsInv.nodup (q := ())) htw htD
  · show _ ||| _ = _
    rw [left_congr hasks]
  · intro e he
    have hw := (hb.hands.calls.waits () e.1).mp (hmem e he)
    obtain ⟨f, hf, -⟩ := Option.map_eq_some_iff.mp hw.2
    exact Hands.onWay_woken (fun hn => nomatch hf.symm.trans hn) (hawake e he)
  · exact fun t ht => ⟨Hands.onWay_same fun hf => hsame t ht (hrun t hf), hwait t ht⟩

theorem FlagsSys.notify_rejected
    (harg : ¬ zUser cfg.argsChecks (options &&& ~~~(SET ||| SCHED) = 0) = true) :
    st.notify cfg value options = (st, -ENOTSUP) := by
  rw [FlagsSys.notify, kFlagsNotify_rejected st.flags harg, Hands.wake_self]

/-- **ONE STEP** of a run. -/
theorem FlagsInv.step (h : FlagsInv cfg st) (op : FlagsOp cfg) (ha : op.Allowed st) :
    FlagsInv cfg (op.run st) := by
  obtain ⟨w, hb, hi⟩ := h
  cases op with
  | poll mask options timeout => exact FlagsInv.poll hb hi mask options timeout ha
  | notify value options =>
    by_cases harg : zUser cfg.argsChecks (options &&& ~~~(SET ||| SCHED) = 0) = true
    · obtain ⟨D, hD⟩ := hb.notify hi harg rfl
      exact ⟨_, hD.base.finish⟩
    · rw [FlagsOp.run, FlagsSys.notify_rejected harg, FlagsSys.finish_of_none hi.running]
      exact ⟨w, hb, hi⟩
  | reset =>
    have hinv := hi.cancel ()
    have hnone : ∀ t, ¬ (st.hands.setKer (zCancelAllPending cfg st.hands.calls.ker
        ()).1).calls.Waiting () t := by
      intro t ht
      have hmem := (hinv.calls.waits () t).mpr ht
      rw [update_self] at hmem
      exact nomatch hmem
    exact ⟨_, hb.frame hinv.toHandsBase (fun t ht => absurd ht (hnone t))
      (fun t ht => absurd ht (hnone t)) hb.results, hinv⟩
  | schedEnter =>
    obtain ⟨w', hinv, -⟩ := hi.schedEnter
    obtain ⟨E, -, -, hth, -⟩ := hi.callsInv.schedEnter
    have hstill : ∀ t, (st.hands.setKer (zSchedEnter cfg st.hands.calls.ker)).calls.Waiting
        () t → (zSchedEnter cfg st.hands.calls.ker).thread t = st.hands.calls.ker.thread t := by
      intro t ht
      have hp : ((zSchedEnter cfg st.hands.calls.ker).thread t).state = .pending := ht.1
      rw [hth] at hp ⊢
      by_cases hE : t ∈ E
      · rw [if_pos hE] at hp
        exact nomatch hp
      · rw [if_neg hE]
    have hwait : ∀ t, (st.hands.setKer (zSchedEnter cfg st.hands.calls.ker)).calls.Waiting
        () t → st.hands.calls.Waiting () t :=
      fun t ht => ⟨hstill t ht ▸ ht.1, ht.2⟩
    exact ⟨w', hb.frame hinv.toHandsBase
      (fun t ht => ⟨hwait t ht, rfl, congrArg Thread.swapData (hstill t ht)⟩)
      (fun t ht => hb.apart t (hwait t ht)) hb.results, hinv⟩
  | yield =>
    have hbase := hi.yield
    obtain ⟨-, hth⟩ := hi.callsInv.yield
    have hwait : ∀ t, (st.hands.setKer (zScheduler st.hands.calls.ker)).calls.Waiting () t →
        st.hands.calls.Waiting () t := by
      intro t ht
      rw [← hb.hands.calls.waits]
      exact (hbase.calls.waits () t).mpr ht
    refine ⟨w, FlagsBase.finish (hb.frame hbase ?_ (fun t ht => hb.apart t (hwait t ht))
      hb.results)⟩
    intro t ht
    refine ⟨hwait t ht, rfl, ?_⟩
    show ((zScheduler st.hands.calls.ker).thread t).swapData = _
    rw [hth]
    split_ifs <;> rfl

theorem FlagsReach.inv (h : FlagsReach cfg st) : FlagsInv cfg st := by
  refine Reach.invariant h ?_ fun _ op ih ha => ih.step op ha
  rintro st ⟨k, ring, value, hboot, rfl⟩
  exact ⟨fun _ => [], ⟨hboot.handsInv.toHandsBase, fun t f hf => (nomatch hf),
    fun t ht => (nomatch ht.2), fun e he => nomatch he⟩, hboot.handsInv⟩

def FlagsSys.Took (st : FlagsSys Tid) (t : Tid) (i : Nat) : Prop :=
  ∃ trig : BitVec 8, st.hands.onWay t = some trig.toNat ∧ trig.getLsbD i = true

structure Notification (cfg : Config Tid Unit) (st st' : FlagsSys Tid) (new : BitVec 8)
    (w : List Tid) (ret : Int) : Prop where
  /-- a waiter is woken with the bits of its mask that the waiters in front of it
      have left -/
  woken : ∀ pre t post, w = pre ++ t :: post →
    left st.mask st.consume new pre &&& st.mask t ≠ 0 →
      st'.hands.onWay t = some (left st.mask st.consume new pre &&& st.mask t).toNat
  /-- if there are none it goes on waiting -/
  asleep : ∀ pre t post, w = pre ++ t :: post →
    left st.mask st.consume new pre &&& st.mask t = 0 →
      st'.hands.onWay t = none ∧ st'.hands.calls.Waiting () t
  others : ∀ t, t ∉ w → st'.hands.onWay t = st.hands.onWay t
  /-- the remaining waiters keep their order -/
  queue : CallsBase cfg st'.hands.calls fun _ => w.filter fun t => st'.hands.onWay t = none
  /-- a new bit is stored and nobody has consumed it, or one waiter has -/
  bits : ∀ i, new.getLsbD i = true →
    st'.flags.flags.getLsbD i = true
        ∧ (∀ t ∈ w, st.consume t = true → ¬ st'.Took t i)
      ∨ st'.flags.flags.getLsbD i = false
        ∧ ∃! t, t ∈ w ∧ st.consume t = true ∧ st'.Took t i
  kept : ∀ i, new.getLsbD i = false →
    st'.flags.flags.getLsbD i = st.flags.flags.getLsbD i
  count : w.length < 128 → ret = (w.filter fun t => st'.hands.onWay t ≠ none).length

section Delivered

variable {new : BitVec 8} {l : List Tid} {D : List (Tid × BitVec 8)}

theorem Delivered.sublist (h : Delivered cfg st st' new l ret D) : (D.map Prod.fst).Sublist l := by
  rw [h.list]
  exact map_fst_deliver_sublist

theorem Delivered.onWay_eq_none (h : Delivered cfg st st' new l ret D)
    (ht : st.hands.onWay t = none) : st'.hands.onWay t = none ↔ t ∉ D.map Prod.fst := by
  constructor
  · intro h1 h2
    obtain ⟨e, he, rfl⟩ := mem_map.mp h2
    rw [h.woken e he] at h1
    exact nomatch h1
  · exact fun h1 => (h.rest t h1).1.trans ht

theorem Delivered.took_iff (h : Delivered cfg st st' new l ret D)
    (ht : st.hands.onWay t = none) {i : Nat} :
    st'.Took t i ↔ ∃ x, (t, x) ∈ D ∧ x.getLsbD i = true := by
  constructor
  · rintro ⟨trig, h1, h2⟩
    have hmem : t ∈ D.map Prod.fst := by
      by_contra hc
      rw [(h.onWay_eq_none ht).mpr hc] at h1
      exact nomatch h1
    obtain ⟨⟨_, x⟩, he, rfl⟩ := mem_map.mp hmem
    rw [h.woken _ he] at h1
    have hx : x = trig := eq_of_toNat_eq (Option.some.inj h1)
    exact ⟨x, he, hx ▸ h2⟩
  · rintro ⟨x, h1, h2⟩
    exact ⟨x, h.woken _ h1, h2⟩

theorem Delivered.left_not_taken (h : Delivered cfg st st' new l ret D) (hnd : l.Nodup)
    {i : Nat} (hl : (left st.mask st.consume new l).getLsbD i = true) (ht : t ∈ l)
    (hc : st.consume t = true) {x : BitVec 8} (hx : (t, x) ∈ D) : x.getLsbD i = false := by
  have hm := (getLsbD_left.mp hl).2 t ht hc
  obtain ⟨pre, post, rfl⟩ := append_of_mem ht
  rw [h.list] at hx
  obtain ⟨rfl, -⟩ := (mem_deliver_iff hnd).mp hx
  rw [getLsbD_and, hm, Bool.and_false]

theorem Delivered.exists_unique (h : Delivered cfg st st' new l ret D) (hnd : l.Nodup)
    {i : Nat} (hi : new.getLsbD i = true)
    (hl : (left st.mask st.consume new l).getLsbD i = false) :
    ∃ t ∈ l, st.consume t = true ∧ (∃ x, (t, x) ∈ D ∧ x.getLsbD i = true)
      ∧ ∀ s, st.consume s = true → (∃ y, (s, y) ∈ D ∧ y.getLsbD i = true) → s = t := by
  obtain ⟨pre, t, post, rfl, hc, hti⟩ := exists_consumer hi hl
  have hin : (t, left st.mask st.consume new pre &&& st.mask t) ∈ D := by
    rw [h.list]
    refine (mem_deliver_iff hnd).mpr ⟨rfl, fun h0 => ?_⟩
    rw [h0] at hti
    exact nomatch getLsbD_zero.symm.trans hti
  refine ⟨t, mem_append_right _ mem_cons_self, hc, ⟨_, hin, hti⟩, ?_⟩
  rintro s hcs ⟨y, hy, hyi⟩
  rw [h.list] at hy hin
  exact consumer_unique hnd hy hin hcs hc hyi hti

theorem Delivered.bits (h : Delivered cfg st st' new l ret D) (hnd : l.Nodup)
    (hnone : ∀ t ∈ l, st.hands.onWay t = none) {i : Nat} (hi : new.getLsbD i = true)
    (hold : st.flags.flags.getLsbD i = false) :
    st'.flags.flags.getLsbD i = true ∧ (∀ t ∈ l, st.consume t = true → ¬ st'.Took t i)
      ∨ st'.flags.flags.getLsbD i = false ∧ ∃! t, t ∈ l ∧ st.consume t = true ∧ st'.Took t i := by
  rw [h.flags, getLsbD_or, hold, Bool.false_or]
  cases hl : (left st.mask st.consume new l).getLsbD i with
  | true =>
    refine Or.inl ⟨rfl, ?_⟩
    intro t ht hc htk
    obtain ⟨x, hx, hxi⟩ := (h.took_iff (hnone t ht)).mp htk
    rw [h.left_not_taken hnd hl ht hc hx] at hxi
    exact nomatch hxi
  | false =>
    obtain ⟨t, ht, hc, htk, huniq⟩ := h.exists_unique hnd hi hl
    refine Or.inr ⟨rfl, t, ⟨ht, hc, (h.took_iff (hnone t ht)).mpr htk⟩, ?_⟩
    rintro s ⟨hs, hcs, hts⟩
    exact huniq s hcs ((h.took_iff (hnone s hs)).mp hts)

theorem Delivered.ret_eq (h : Delivered cfg st st' new l ret D) (hnd : l.Nodup)
    (hnone : ∀ t ∈ l, st.hands.onWay t = none) (hlen : l.length < 128) :
    ret = (l.filter fun t => st'.hands.onWay t ≠ none).length := by
  have hperm : (l.filter fun t => st'.hands.onWay t ≠ none).Perm (D.map Prod.fst) := by
    refine (perm_ext_iff_of_nodup (hnd.filter _) (h.sublist.nodup hnd)).mpr fun t => ?_
    rw [mem_filter, decide_eq_true_iff]
    constructor
    · exact fun ht => by_contra fun hc => ht.2 ((h.onWay_eq_none (hnone t ht.1)).mpr hc)
    · intro ht
      have hl := h.sublist.subset ht
      exact ⟨hl, fun hc => (h.onWay_eq_none (hnone t hl)).mp hc ht⟩
  have hle := h.sublist.length_le
  have heq := hperm.length_eq
  rw [length_map] at hle heq
  rw [h.count, heq, Nat.mod_eq_of_lt (by omega), int8_of_lt (by omega)]

end Delivered

theorem FlagsBase.notification (hb : FlagsBase cfg st w) (hi : HandsInv cfg st.hands w)
    (harg : zUser cfg.argsChecks (options &&& ~~~(SET ||| SCHED) = 0) = true) :
    Notification cfg st (st.notify cfg value options).1 (~~~st.flags.flags &&& value) (w ())
      (st.notify cfg value options).2 := by
  obtain ⟨D, hD⟩ : ∃ D, Delivered cfg st (st.notify cfg value options).1
      (~~~st.flags.flags &&& value) (w ()) (st.notify cfg value options).2 D :=
    hb.notify hi harg rfl
  have hnd := hi.callsInv.nodup (q := ())
  have hnone : ∀ t ∈ w (), st.hands.onWay t = none :=
    fun t ht => hb.hands.onWay_waiting ((hb.hands.calls.waits () t).mp ht)
  refine ⟨?_, ?_, ?_, ?_, ?_, ?_, hD.ret_eq hnd hnone⟩
  · intro pre t post hw hne
    refine hD.woken (t, _) ?_
    rw [hD.list, hw]
    rw [hw] at hnd
    exact (mem_deliver_iff hnd).mpr ⟨rfl, hne⟩
  · intro pre t post hw h0
    have hmem : t ∈ w () := by
      rw [hw]
      exact mem_append_right _ mem_cons_self
    have hno : t ∉ D.map Prod.fst := by
      intro hc
      obtain ⟨⟨s, x⟩, he, hs⟩ := mem_map.mp hc
      subst hs
      rw [hD.list, hw] at he
      rw [hw] at hnd
      obtain ⟨hx, hx0⟩ := (mem_deliver_iff hnd).mp he
      exact hx0 (hx.trans h0)
    exact ⟨(hD.onWay_eq_none (hnone t hmem)).mpr hno,
      (hD.rest t hno).2.mpr ((hb.hands.calls.waits () t).mp hmem)⟩
  · exact fun t ht => (hD.rest t fun hc => ht (hD.sublist.subset hc)).1
  · have hfilter : ((w ()).filter fun t => t ∉ D.map Prod.fst)
        = (w ()).filter fun t => (st.notify cfg value options).1.hands.onWay t = none :=
      filter_congr fun t ht =>
        decide_eq_decide.mpr (hD.onWay_eq_none (hnone t ht)).symm
    rw [← hfilter]
    exact hD.base.hands.calls
  · intro i hbit
    refine hD.bits hnd hnone hbit ?_
    rw [getLsbD_and, getLsbD_not] at hbit
    simp only [Bool.and_eq_true, Bool.not_eq_true'] at hbit
    exact hbit.1.2
  · intro i hbit
    have hl : (left st.mask st.consume (~~~st.flags.flags &&& value) (w ())).getLsbD i = false := by
      rw [← Bool.not_eq_true]
      intro hc
      rw [(getLsbD_left.mp hc).1] at hbit
      exact nomatch hbit
    rw [hD.flags, getLsbD_or, hl, Bool.or_false]

structure FlagsOk (cfg : Config Tid Unit) (st : FlagsSys Tid) : Prop where
  /-- no waiter waits for a stored flag -/
  apart : ∀ t, st.hands.calls.Waiting () t → st.flags.flags &&& st.mask t = 0
  /-- a call is going to hand back the flags with which its thread was woken -/
  onWay : ∀ t trig, st.hands.onWay t = some trig → st.hands.calls.Granted () t
    ∧ ∀ mask, kFlagsPollEnd (st.hands.calls.ker.thread t) mask = getMask trig
  /-- and has, if it has returned -/
  results : ∀ e ∈ st.log, e.Right
  /-- the waiters, in the order in which they blocked, and what happens to them -/
  notify : ∃ w, CallsBase cfg st.hands.calls (fun _ => w)
    ∧ ∀ value options, zUser cfg.argsChecks (options &&& ~~~(SET ||| SCHED) = 0) = true →
        Notification cfg st (st.notify cfg value options).1 (~~~st.flags.flags &&& value) w
          (st.notify cfg value options).2
  rejected : ∀ value options,
    ¬ zUser cfg.argsChecks (options &&& ~~~(SET ||| SCHED) = 0) = true →
      st.notify cfg value options = (st, -ENOTSUP)

/-- **FLAGS DELIVERY**: a notification offers the bits that are not stored to the waiters in
    their order; what a waiter consumes goes to no other. -/
theorem flags_delivery (h : FlagsReach cfg st) : FlagsOk cfg st := by
  obtain ⟨w, hb, hi⟩ := h.inv
  refine ⟨hb.apart, ?_, hb.results, ⟨w (), hb.hands.calls, fun value options harg =>
    hb.notification hi harg⟩, fun value options harg => FlagsSys.notify_rejected harg⟩
  intro t trig ht
  obtain ⟨_, hg, hs⟩ := hb.hands.onWay_result ht
  refine ⟨hg, fun mask => ?_⟩
  rw [kFlagsPollEnd, if_pos hg.2.2, hs]
  rfl

def twoWaiting : FlagsSys (Fin 4) :=
  ([.poll 1 CONSUME (kForever _), .poll 3 0 (kForever _)] :
    List (FlagsOp (smallConfig Unit))).foldl FlagsOp.run
      (flagsBoot (smallBoot Unit Empty Nat) 0)

theorem flags_delivery_twoWaiting :
    FlagsOk (smallConfig Unit) twoWaiting
      ∧ (twoWaiting.notify (smallConfig Unit) 7 SET).2 = 2
      ∧ (twoWaiting.notify (smallConfig Unit) 7 SET).1.hands.onWay 0 = some 1
      ∧ (twoWaiting.notify (smallConfig Unit) 7 SET).1.hands.onWay 2 = some 2
      ∧ (twoWaiting.notify (smallConfig Unit) 7 SET).1.flags.flags = 6 := by
  have hreach : FlagsReach (smallConfig Unit) twoWaiting := by
    refine Reach.foldl (.start ⟨_, _, _, smallBoot_boot, rfl⟩) ?_
    exact ⟨fun _ => by decide, fun _ => by decide, trivial⟩
  exact ⟨flags_delivery hreach, by decide, by decide, by decide, by decide⟩

end AvrtosFlags
