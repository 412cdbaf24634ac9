import Avrtos.Base.BitDelivery
import Avrtos.Calls

/-! # `flags.c`

    `k_flags_notify` walks along the queue; the walk is `BitDelivery.deliver`. -/

namespace AvrtosFlags

open Function List AvrtosDefines AvrtosDlist AvrtosKernel BitDelivery Cells LinkedRing DeltaList

structure Flags where
  flags : BitVec 8
  resetValue : BitVec 8
deriving DecidableEq, Repr

/-- `K_FLAGS_SET_ANY`. -/
def SET_ANY : BitVec 8 := 0x01

/-- `K_FLAGS_CONSUME`. -/
def CONSUME : BitVec 8 := 0x10

/-- `K_FLAGS_SET`. -/
def SET : BitVec 8 := 0x20

/-- `K_FLAGS_SCHED`. -/
def SCHED : BitVec 8 := 0x80

/-- `Z_SWAP_DATA_INIT_OPT_N_MASK`. -/
def optAndMask (options mask : BitVec 8) : Nat := options.toNat * 256 + mask.toNat

/-- `Z_SWAP_DATA_GET_OPTIONS`. -/
def getOptions (word : Nat) : BitVec 8 := BitVec.ofNat 8 (word / 256)

/-- `Z_SWAP_DATA_GET_PEND_MASK` and `Z_SWAP_DATA_GET_TRIG_MASK`. -/
def getMask (word : Nat) : BitVec 8 := BitVec.ofNat 8 word

/-- `k_flags_init`. -/
def kFlagsInit (value : BitVec 8) : Flags := { flags := value, resetValue := value }

variable {Tid Qid Pid : Type} [Threads Tid]
variable [DecidableEq Qid] [DecidableEq Pid]

/-- `k_flags_poll`, up to a switch. -/
def kFlagsPoll (cfg : Config Tid Qid) (k : Kernel Tid Qid Pid Nat) (fl : Flags)
    (q : Qid) (mask options : BitVec 8) (timeout : cfg.Timeout) :
    Kernel Tid Qid Pid Nat × Flags × BitVec 8 × Option Int :=
  if !zUser cfg.argsChecks (options &&& ~~~(SET_ANY ||| CONSUME) = 0) then
    (k, fl, mask, some (-ENOTSUP))
  else if mask = 0 then (k, fl, mask, some 0)
  else
    let trig := fl.flags &&& mask
    if trig = 0 then
      -- no matching flags set, prepare to wait
      let k := k.modThread k.current fun th =>
        { th with swapData := some (optAndMask options mask) }
      let r := zPendCurrentOn cfg k (some q) timeout
      (r.1, fl, mask, r.2)
    else if options &&& CONSUME ≠ 0 then
      (k, { fl with flags := fl.flags &&& ~~~mask }, trig, some 0)
    else (k, fl, trig, some 0)

def kFlagsPollEnd (th : Thread Nat) (mask : BitVec 8) : BitVec 8 :=
  if zPendResult th = 0 then getMask (th.swapData.getD 0) else mask

def notifyThread (cfg : Config Tid Qid) (k : Kernel Tid Qid Pid Nat) (t : Tid)
    (trig : BitVec 8) : Kernel Tid Qid Pid Nat :=
  let k := k.modThread t fun th => { th with swapData := some trig.toNat }
  -- unpend thread
  let k := { k with wait := dlistRemove k.wait (.handle t : WNode Tid Qid Pid) }
  zWakeUp cfg k t

def kFlagsNotifyLoop (cfg : Config Tid Qid) (q : Qid) :
    Nat → Kernel Tid Qid Pid Nat → WNode Tid Qid Pid → BitVec 8 → Flags → Nat →
      Kernel Tid Qid Pid Nat × Flags × Nat
  | 0, k, _, _, fl, ret => ({ k with fault := true }, fl, ret)
  | fuel + 1, k, tie, notify, fl, ret =>
      if notify = 0 then (k, fl, ret)
      else if tie = .queue q then
        -- no more threads waiting; store remaining flags
        (k, { fl with flags := fl.flags ||| notify }, ret)
      else
        match tie with
        | .handle t =>
            let word := (k.thread t).swapData.getD 0
            let trig := notify &&& getMask word
            if trig ≠ 0 then
              let k := notifyThread cfg k t trig
              let notify :=
                if getOptions word &&& CONSUME ≠ 0 then notify &&& ~~~trig else notify
              kFlagsNotifyLoop cfg q fuel k (next k.wait tie) notify fl ((ret + 1) % 256)
            else kFlagsNotifyLoop cfg q fuel k (next k.wait tie) notify fl ret
        | _ => ({ k with fault := true }, fl, ret)

/-- `k_flags_notify`. -/
def kFlagsNotify (cfg : Config Tid Qid) (k : Kernel Tid Qid Pid Nat) (fl : Flags)
    (q : Qid) (notify options : BitVec 8) :
    Kernel Tid Qid Pid Nat × Flags × Int :=
  if !zUser cfg.argsChecks (options &&& ~~~(SET ||| SCHED) = 0) then
    (k, fl, -ENOTSUP)
  else
    let r := kFlagsNotifyLoop cfg q (Fintype.card Tid + 1) k
      (next k.wait (.queue q : WNode Tid Qid Pid)) (~~~fl.flags &&& notify) fl 0
    if 0 < int8 r.2.2 ∧ options &&& SCHED ≠ 0 then
      (zScheduler r.1, r.2.1, int8 r.2.2)
    else (r.1, r.2.1, int8 r.2.2)

/-- `k_flags_reset`. -/
def kFlagsReset (cfg : Config Tid Qid) (k : Kernel Tid Qid Pid Nat) (fl : Flags)
    (q : Qid) : Kernel Tid Qid Pid Nat × Flags × Int :=
  let r := zCancelAllPending cfg k q
  (r.1, { fl with flags := fl.resetValue }, int8 r.2)

variable {cfg : Config Tid Qid} {k : Kernel Tid Qid Pid Nat}
variable {s : Shape Tid Qid Pid} {t : Tid} {q : Qid}

def notified (th : Thread Nat) (trig : BitVec 8) : Thread Nat :=
  { th.woken with swapData := some trig.toNat }

variable (cfg) in
theorem notifyThread_thread (trig : BitVec 8) : (notifyThread cfg k t trig).thread
      = update k.thread t (notified (k.thread t) trig) := by
  simp [notifyThread, Kernel.modThread, notified, Thread.woken]

variable (cfg) in
theorem notifyThread_wait (trig : BitVec 8) : (notifyThread cfg k t trig).wait
      = dlistRemove k.wait (.handle t : WNode Tid Qid Pid) := by
  simp [notifyThread, Kernel.modThread]

variable (cfg) in
theorem notifyThread_current (trig : BitVec 8) :
    (notifyThread cfg k t trig).current = k.current := by
  simp [notifyThread, Kernel.modThread]

theorem KBase.notify (h : KBase cfg k s) (ht : .handle t ∈ s.waitq q) (trig : BitVec 8) :
    KBase cfg (notifyThread cfg k t trig)
      ⟨insertReady t s.ring, removeDelta t s.timeq, dropNode s.waitq (.handle t)⟩ := by
  have hp := h.waiting q t ht
  obtain ⟨hrep, hsub, hclean⟩ := h.drop_handle (t := t) fun hu => absurd ht (hu q)
  rw [← notifyThread_wait cfg trig] at hrep hclean
  -- the scheduler's lists do not depend on `swap_data` and on the links
  have hk : KBase cfg (k.modThread t fun th => { th with swapData := some trig.toNat })
      s := h.modThread _ rfl rfl (h.flags t)
  have hsched : SchedRep cfg (notifyThread cfg k t trig) (insertReady t s.ring)
      (removeDelta t s.timeq) := by
    refine zSchedule_sched (zCancelScheduledWakeUp_sched (hk.sched.setWait _) ?_) ?_ ?_
    · exact (hk.timed t).symm
    · exact h.notMem_ring (by rw [hp]; exact fun hc => nomatch hc)
    · intro hc
      have h1 := h.mem_removeDelta.mp hc
      rw [if_pos rfl] at h1
      exact h1
  exact h.toReady hp (notifyThread_thread cfg trig) rfl rfl hsched
    (fun _ => h.mem_removeDelta) hrep hsub hclean

def pendMask (k : Kernel Tid Qid Pid Nat) (t : Tid) : BitVec 8 :=
  getMask ((k.thread t).swapData.getD 0)

def consumes (k : Kernel Tid Qid Pid Nat) (t : Tid) : Bool :=
  getOptions ((k.thread t).swapData.getD 0) &&& CONSUME ≠ 0

structure Delivers (k k' : Kernel Tid Qid Pid Nat) (D : List (Tid × BitVec 8)) :
    Prop where
  thread : ∀ t, t ∉ D.map Prod.fst → k'.thread t = k.thread t
  notified : ∀ e ∈ D, k'.thread e.1 = AvrtosFlags.notified (k.thread e.1) e.2
  current : k'.current = k.current

omit [Threads Tid] [DecidableEq Qid] [DecidableEq Pid] in
theorem Delivers.refl : Delivers k k [] := ⟨fun _ _ => rfl, fun _ he => (nomatch he), rfl⟩

theorem Delivers.cons {k' : Kernel Tid Qid Pid Nat} {D : List (Tid × BitVec 8)}
    {trig : BitVec 8} (htD : t ∉ D.map Prod.fst)
    (h : Delivers (notifyThread cfg k t trig) k' D) : Delivers k k' ((t, trig) :: D) := by
  have hone : ∀ x, x ≠ t → (notifyThread cfg k t trig).thread x = k.thread x := by
    intro x hx
    rw [notifyThread_thread, update_of_ne hx]
  refine ⟨?_, ?_, h.current.trans (notifyThread_current cfg trig)⟩
  · intro x hx
    rw [map_cons, mem_cons, not_or] at hx
    rw [h.thread x hx.2, hone x hx.1]
  · intro e he
    rcases mem_cons.mp he with rfl | he
    · show k'.thread t = _
      rw [h.thread t htD, notifyThread_thread, update_self]
    · have hne : e.1 ≠ t := fun hc => htD (hc ▸ mem_map_of_mem he)
      rw [h.notified e he, hone e.1 hne]

section Equations

variable {fuel ret : Nat} {notify : BitVec 8} {fl : Flags}

private theorem loop_done (tie : WNode Tid Qid Pid) :
    kFlagsNotifyLoop cfg q (fuel + 1) k tie 0 fl ret = (k, fl, ret) := by
  cases tie with
  | queue q' => simp [kFlagsNotifyLoop]
  | handle t => simp [kFlagsNotifyLoop]
  | poll p => simp [kFlagsNotifyLoop]

private theorem loop_queue (hn : notify ≠ 0) :
    kFlagsNotifyLoop cfg q (fuel + 1) k (.queue q) notify fl ret
      = (k, { fl with flags := fl.flags ||| notify }, ret) := by
  simp only [kFlagsNotifyLoop, if_neg hn, if_true]

private theorem loop_skip (hn : notify ≠ 0) (ht : notify &&& pendMask k t = 0) :
    kFlagsNotifyLoop cfg q (fuel + 1) k (.handle t) notify fl ret
      = kFlagsNotifyLoop cfg q fuel k (next k.wait (.handle t : WNode Tid Qid Pid))
          notify fl ret := by
  rw [pendMask] at ht
  simp only [kFlagsNotifyLoop, if_neg hn, ht, ne_eq, not_true_eq_false, if_false, reduceCtorEq]

private theorem loop_notify (hn : notify ≠ 0) (ht : notify &&& pendMask k t ≠ 0) :
    kFlagsNotifyLoop cfg q (fuel + 1) k (.handle t) notify fl ret
      = kFlagsNotifyLoop cfg q fuel (notifyThread cfg k t (notify &&& pendMask k t))
          (next (notifyThread cfg k t (notify &&& pendMask k t)).wait
            (.handle t : WNode Tid Qid Pid))
          (if consumes k t then notify &&& ~~~(notify &&& pendMask k t) else notify) fl
          ((ret + 1) % 256) := by
  rw [pendMask] at ht ⊢
  simp only [kFlagsNotifyLoop, if_neg hn, if_pos ht, reduceCtorEq, if_false, consumes,
    decide_eq_true_eq]

end Equations

structure Walked (cfg : Config Tid Qid) (k : Kernel Tid Qid Pid Nat)
    (s : Shape Tid Qid Pid) (todo : List Tid) (notify : BitVec 8) (fl : Flags) (ret : Nat)
    (r : Kernel Tid Qid Pid Nat × Flags × Nat) : Prop where
  kernel : ∃ ring timeq, KBase cfg r.1 ⟨ring, timeq, dropHandles s.waitq
      ((deliver (pendMask k) (consumes k) todo notify).map Prod.fst)⟩
    ∧ ∀ a, s.ring.head? = some a → ring.head? = some a
  delivers : Delivers k r.1 (deliver (pendMask k) (consumes k) todo notify)
  flags : r.2.1 = { fl with flags := fl.flags ||| left (pendMask k) (consumes k) notify todo }
  count : ret < 256 →
    r.2.2 = (ret + (deliver (pendMask k) (consumes k) todo notify).length) % 256

section Walk

variable {todo : List Tid} {notify : BitVec 8} {fl : Flags} {ret : Nat}
variable {r : Kernel Tid Qid Pid Nat × Flags × Nat}

theorem Walked.stop (h : KBase cfg k s) (hD : deliver (pendMask k) (consumes k) todo notify = []) :
    Walked cfg k s todo notify fl ret
      (k, { fl with flags := fl.flags ||| left (pendMask k) (consumes k) notify todo }, ret) := by
  refine ⟨⟨s.ring, s.timeq, ?_, fun _ ha => ha⟩, ?_, rfl, ?_⟩
  · rw [hD, map_nil, dropHandles_nil]
    exact h
  · rw [hD]
    exact Delivers.refl
  · intro hret
    rw [hD]
    exact (Nat.mod_eq_of_lt hret).symm

theorem Walked.zero (h : KBase cfg k s) : Walked cfg k s todo 0 fl ret (k, fl, ret) := by
  have hflags : fl = { fl with
      flags := fl.flags ||| left (pendMask k) (consumes k) 0 todo } := by
    rw [left_zero]
    simp
  nth_rewrite 2 [hflags]
  exact Walked.stop h deliver_zero

theorem Walked.skip (ht : notify &&& pendMask k t = 0)
    (h : Walked cfg k s todo notify fl ret r) : Walked cfg k s (t :: todo) notify fl ret r := by
  have hD : deliver (pendMask k) (consumes k) (t :: todo) notify
      = deliver (pendMask k) (consumes k) todo notify := if_pos ht
  refine ⟨?_, ?_, ?_, ?_⟩
  · rw [hD]
    exact h.kernel
  · rw [hD]
    exact h.delivers
  · rw [left_cons, offered_eq_self ht]
    exact h.flags
  · rw [hD]
    exact h.count

/-- The first waiter is notified, and the walk goes on. -/
theorem Walked.step (hs : KBase cfg k s) (ht : notify &&& pendMask k t ≠ 0) (htodo : t ∉ todo)
    (h : Walked cfg (notifyThread cfg k t (notify &&& pendMask k t))
      ⟨insertReady t s.ring, removeDelta t s.timeq, dropNode s.waitq (.handle t)⟩ todo
      (if consumes k t then notify &&& ~~~(notify &&& pendMask k t) else notify) fl
      ((ret + 1) % 256) r) : Walked cfg k s (t :: todo) notify fl ret r := by
  obtain ⟨⟨ring, timeq, hinv, hhead⟩, hdel, hfl, hcount⟩ := h
  -- the words of the other waiters stay
  have hword : ∀ x ∈ todo,
      pendMask (notifyThread cfg k t (notify &&& pendMask k t)) x = pendMask k x
      ∧ consumes (notifyThread cfg k t (notify &&& pendMask k t)) x = consumes k x := by
    intro x hx
    have hth : (notifyThread cfg k t (notify &&& pendMask k t)).thread x = k.thread x := by
      have hne : x ≠ t := fun hc => htodo (hc ▸ hx)
      rw [notifyThread_thread, update_of_ne hne]
    rw [pendMask, consumes, hth]
    exact ⟨rfl, rfl⟩
  rw [deliver_congr hword] at hinv hdel hcount
  rw [left_congr hword] at hfl
  have hD : deliver (pendMask k) (consumes k) (t :: todo) notify
      = (t, notify &&& pendMask k t) :: deliver (pendMask k) (consumes k) todo
        (if consumes k t then notify &&& ~~~(notify &&& pendMask k t) else notify) := if_neg ht
  refine ⟨⟨ring, timeq, ?_, ?_⟩, ?_, ?_, fun _ => ?_⟩
  · rw [hD, map_cons, ← dropHandles_cons hs.wait.nodup]
    exact hinv
  · intro a ha
    refine hhead a ?_
    obtain ⟨l, hl⟩ := List.head?_eq_some_iff.mp ha
    rw [hl]
    rfl
  · rw [hD]
    exact hdel.cons fun hc => htodo (map_fst_deliver_sublist.subset hc)
  · rw [left_cons]
    exact hfl
  · rw [hD, hcount (Nat.mod_lt _ (by decide)), length_cons]
    omega

theorem KBase.deliverLoop {done : List Tid} {fuel : Nat} (fl : Flags)
    {tie : WNode Tid Qid Pid} (notify : BitVec 8) (ret : Nat) (hf : todo.length < fuel)
    (h : KBase cfg k s) (hq : s.waitq q = (done ++ todo).map .handle)
    (htie : tie = (todo.map .handle).headD (.queue q)) :
    Walked cfg k s todo notify fl ret (kFlagsNotifyLoop cfg q fuel k tie notify fl ret) := by
  induction todo generalizing fuel k s done notify ret tie with
  | nil =>
    obtain ⟨fuel, rfl⟩ : ∃ n, fuel = n + 1 := ⟨fuel - 1, by omega⟩
    by_cases hn : notify = 0
    · rw [hn, loop_done]
      exact Walked.zero h
    · have hstop : Walked cfg k s [] notify fl ret
          (k, { fl with flags := fl.flags ||| left (pendMask k) (consumes k) notify [] }, ret) :=
        Walked.stop h rfl
      rw [left_nil, ← loop_queue hn] at hstop
      rw [htie]
      exact hstop
  | cons t todo ih =>
    obtain ⟨fuel, rfl⟩ : ∃ n, fuel = n + 1 := ⟨fuel - 1, by omega⟩
    have hlen : todo.length < fuel := Nat.lt_of_succ_lt_succ hf
    have hhandle : tie = .handle t := htie
    subst hhandle
    have hnext : next k.wait (.handle t : WNode Tid Qid Pid)
        = (todo.map .handle).headD (.queue q) := by
      have hring := h.wait.ringed q
      rw [hq, map_append, map_cons] at hring
      exact Ring.next_mid (u := done.map .handle) hring
    by_cases hn : notify = 0
    · rw [hn, loop_done]
      exact Walked.zero h
    · by_cases ht : notify &&& pendMask k t = 0
      · have hq' : s.waitq q = (done ++ [t] ++ todo).map .handle := by
          rw [hq, append_assoc, singleton_append]
        rw [loop_skip hn ht]
        exact (ih notify ret hlen h hq' hnext).skip ht
      · have hmem : .handle t ∈ s.waitq q := by
          rw [hq]
          exact mem_map_of_mem (mem_append_right _ mem_cons_self)
        have hnd := h.wait.nodup q
        rw [hq] at hnd
        obtain ⟨-, htodo, hdone⟩ := nodup_append.mp (List.Nodup.of_map _ hnd)
        have hq' : dropNode s.waitq (.handle t) q = (done ++ todo).map .handle := by
          have hnt : (.handle t : WNode Tid Qid Pid) ∉ done.map .handle := by
            intro hc
            obtain ⟨x, hx, hxt⟩ := mem_map.mp hc
            injection hxt with hxt
            exact hdone x hx t mem_cons_self hxt
          rw [dropNode, hq, map_append, map_cons,
            erase_append_right _ hnt, erase_cons_head, map_append]
        have hnext' : next (notifyThread cfg k t (notify &&& pendMask k t)).wait
            (.handle t : WNode Tid Qid Pid)
            = (todo.map .handle).headD (.queue q) := by
          rw [notifyThread_wait, next_dlistRemove_self]
          exact hnext
        have hrest := KBase.notify h hmem (notify &&& pendMask k t)
        rw [loop_notify hn ht]
        exact (ih _ _ hlen hrest hq' hnext').step h ht (nodup_cons.mp htodo).1

end Walk

section Calls

variable {κ : Type} {c : Calls Tid Qid Nat κ} {w : Qid → List Tid}

theorem CallsInv.deliverLoop (h : CallsInv cfg c w) (q : Qid) (notify : BitVec 8)
    (fl : Flags) {r : Kernel Tid Qid Empty Nat × Flags × Nat}
    (hr : r = kFlagsNotifyLoop cfg q (Fintype.card Tid + 1) c.ker
      (next c.ker.wait (.queue q : WNode Tid Qid Empty)) notify fl 0)
    {D : List (Tid × BitVec 8)}
    (hD : D = deliver (pendMask c.ker) (consumes c.ker) (w q) notify) :
    CallsInv cfg { c with ker := r.1 } (fun q' => (w q').filter fun t => t ∉ D.map Prod.fst)
      ∧ Delivers c.ker r.1 D
      ∧ r.2 = ({ fl with
          flags := fl.flags ||| left (pendMask c.ker) (consumes c.ker) notify (w q) },
          D.length % 256) := by
  obtain ⟨ring, timeq, hk⟩ := h.kernel
  have hlen : (w q).length < Fintype.card Tid + 1 :=
    Nat.lt_succ_of_le (h.nodup (q := q)).length_le_card
  have htie : next c.ker.wait (.queue q : WNode Tid Qid Empty)
      = ((w q).map .handle).headD (.queue q) := (hk.wait.ringed q).next_first
  have hq : handles w q = ([] ++ w q).map (.handle : Tid → WNode Tid Qid Empty) := rfl
  obtain ⟨⟨ring', timeq', hinv, hhead⟩, hdel, hfl, hcount⟩ :=
    KBase.deliverLoop fl notify 0 hlen hk.toKBase hq htie
  rw [← hr, ← hD] at hinv hdel hcount
  rw [← hr] at hfl
  refine ⟨?_, hdel, Prod.ext hfl ?_⟩
  · refine h.release (fun x => x ∈ D.map Prod.fst) ⟨ring', timeq', ⟨?_, ?_⟩⟩ ?_ ?_ ?_ ?_
      hdel.current
    · rw [← dropHandles_handles]
      exact hinv
    · rw [hdel.current]
      exact hk.current.imp_right fun hc => hhead _ hc
    · intro q' t
      rw [mem_filter, decide_eq_true_iff]
    · exact fun q' => filter_sublist
    · intro t ht
      obtain ⟨e, he, rfl⟩ := mem_map.mp ht
      rw [hdel.notified e he]
      rfl
    · intro t ht
      rw [hdel.thread t ht]
  · rw [hcount (by decide), Nat.zero_add]

theorem CallsInv.deliver (h : CallsInv cfg c w) (fl : Flags) (q : Qid) {notify options : BitVec 8}
    (harg : zUser cfg.argsChecks (options &&& ~~~(SET ||| SCHED) = 0) = true)
    {r : Kernel Tid Qid Empty Nat × Flags × Int}
    (hr : r = kFlagsNotify cfg c.ker fl q notify options)
    {D : List (Tid × BitVec 8)}
    (hD : D = BitDelivery.deliver (pendMask c.ker) (consumes c.ker) (w q)
      (~~~fl.flags &&& notify)) :
    CallsBase cfg { c with ker := r.1 } (fun q' => (w q').filter fun t => t ∉ D.map Prod.fst)
      ∧ (∀ x, x ∉ D.map Prod.fst → x ≠ c.ker.current → r.1.thread x = c.ker.thread x)
      ∧ (∀ e ∈ D, r.1.thread e.1 = notified (c.ker.thread e.1) e.2)
      ∧ r.2 = ({ fl with
          flags := fl.flags
            ||| left (pendMask c.ker) (consumes c.ker) (~~~fl.flags &&& notify) (w q) },
          int8 (D.length % 256)) := by
  obtain ⟨hinv, hdel, hfl⟩ := CallsInv.deliverLoop h q (~~~fl.flags &&& notify) fl rfl hD
  rw [kFlagsNotify, harg] at hr
  simp only [Bool.not_true, Bool.false_eq_true, if_false, hfl] at hr
  split_ifs at hr with hs
  · obtain ⟨hbase, hth⟩ := hinv.yield
    rw [hr]
    refine ⟨hbase, ?_, ?_, rfl⟩
    · intro x hx hxc
      refine (hth x).trans ?_
      rw [if_neg (fun hc => hxc (hc.trans hdel.current))]
      exact hdel.thread x hx
    · intro e he
      -- the running thread does not wait
      have hmem : e.1 ∈ w q := by
        rw [hD] at he
        exact map_fst_deliver_sublist.subset (mem_map_of_mem he)
      have hne : e.1 ≠ c.ker.current := by
        intro hc
        refine h.current_not_pending ?_
        rw [← hc]
        exact ((h.waits q e.1).mp hmem).1
      refine (hth e.1).trans ?_
      rw [if_neg (fun hc => hne (hc.trans hdel.current))]
      exact hdel.notified e he
  · rw [hr]
    exact ⟨hinv.toCallsBase, fun x hx _ => hdel.thread x hx, hdel.notified, rfl⟩

theorem kFlagsNotify_rejected (fl : Flags) {notify options : BitVec 8}
    (harg : ¬ zUser cfg.argsChecks (options &&& ~~~(SET ||| SCHED) = 0) = true) :
    kFlagsNotify cfg k fl q notify options = (k, fl, -ENOTSUP) := by
  rw [Bool.not_eq_true] at harg
  rw [kFlagsNotify, harg]
  rfl

theorem CallsInv.notify (h : CallsInv cfg c w) (fl : Flags) (q : Qid) (notify options : BitVec 8) :
    ∃ N, N ⊆ w q ∧ CallsBase cfg { c with ker := (kFlagsNotify cfg c.ker fl q notify options).1 }
          (fun q' => (w q').filter fun t => t ∉ N)
      ∧ ∀ x, x ∉ N → x ≠ c.ker.current →
          (kFlagsNotify cfg c.ker fl q notify options).1.thread x = c.ker.thread x := by
  by_cases harg : zUser cfg.argsChecks (options &&& ~~~(SET ||| SCHED) = 0) = true
  · obtain ⟨hbase, hth, -, -⟩ := CallsInv.deliver h fl q harg rfl rfl
    exact ⟨_, map_fst_deliver_sublist.subset, hbase, hth⟩
  · rw [kFlagsNotify_rejected fl harg]
    refine ⟨[], nil_subset _, ?_, fun _ _ _ => rfl⟩
    have hw : (fun q' => (w q').filter fun t => t ∉ ([] : List Tid)) = w := by
      funext q'
      simp
    rw [hw]
    exact h.toCallsBase

def pollFlags (k : Kernel Tid Qid Pid Nat) (mask options : BitVec 8) :
    Kernel Tid Qid Pid Nat :=
  k.modThread k.current fun th => { th with swapData := some (optAndMask options mask) }

variable (cfg) in
theorem kFlagsPoll_result (k : Kernel Tid Qid Pid Nat) (fl : Flags) (q : Qid)
    (mask options : BitVec 8) (timeout : cfg.Timeout) :
    (∃ kept trig ret, kFlagsPoll cfg k fl q mask options timeout
        = (k, { fl with flags := fl.flags &&& kept }, trig, some ret))
      ∨ fl.flags &&& mask = 0 ∧ kFlagsPoll cfg k fl q mask options timeout
        = ((zPendCurrentOn cfg (pollFlags k mask options) (some q) timeout).1, fl, mask,
          (zPendCurrentOn cfg (pollFlags k mask options) (some q) timeout).2) := by
  have hall : fl = { fl with flags := fl.flags &&& BitVec.allOnes 8 } := by
    rw [BitVec.and_allOnes]
  by_cases harg : (!zUser cfg.argsChecks (options &&& ~~~(SET_ANY ||| CONSUME) = 0)) = true
  · rw [kFlagsPoll, if_pos harg]
    exact Or.inl ⟨BitVec.allOnes 8, mask, -ENOTSUP, by rw [← hall]⟩
  · rw [kFlagsPoll, if_neg harg]
    by_cases hm : mask = 0
    · rw [if_pos hm]
      exact Or.inl ⟨BitVec.allOnes 8, mask, 0, by rw [← hall]⟩
    · rw [if_neg hm]
      by_cases ht : fl.flags &&& mask = 0
      · exact Or.inr ⟨ht, if_pos ht⟩
      · refine Or.inl ?_
        by_cases hc : options &&& CONSUME ≠ 0
        · exact ⟨~~~mask, _, 0, (if_neg ht).trans (if_pos hc)⟩
        · refine ⟨BitVec.allOnes 8, fl.flags &&& mask, 0, ?_⟩
          rw [← hall]
          exact (if_neg ht).trans (if_neg hc)

theorem kFlagsPoll_cases (k : Kernel Tid Qid Pid Nat) (fl : Flags) (q : Qid)
    (mask options : BitVec 8) (timeout : cfg.Timeout) :
    (∃ fl' trig ret, kFlagsPoll cfg k fl q mask options timeout = (k, fl', trig, some ret))
      ∨ kFlagsPoll cfg k fl q mask options timeout
        = ((zPendCurrentOn cfg (pollFlags k mask options) (some q) timeout).1, fl, mask,
          (zPendCurrentOn cfg (pollFlags k mask options) (some q) timeout).2) := by
  rcases kFlagsPoll_result cfg k fl q mask options timeout with ⟨_, trig, ret, hr⟩ | ⟨-, hr⟩
  · exact Or.inl ⟨_, trig, ret, hr⟩
  · exact Or.inr hr

end Calls

end AvrtosFlags
