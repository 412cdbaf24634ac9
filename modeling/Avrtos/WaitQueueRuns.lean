import Avrtos.Flags

/-! # Wait queues over whole runs

    A thread whose handle still points into a queue must not sleep; then every queue is a ring of
    its waiters. -/

namespace AvrtosWaitQueue

open AvrtosDefines AvrtosDlist AvrtosKernel AvrtosFlags Cells LinkedRing Runs

variable {Tid Qid : Type} [Threads Tid]
variable [DecidableEq Qid]

structure WaitSys (Tid Qid : Type) where
  calls : Calls Tid Qid Nat Unit
  flags : Qid → Flags

/-- The operations of a run. -/
inductive WaitOp (cfg : Config Tid Qid) where
  | pendOn (q : Qid) (timeout : cfg.Timeout)
  | sleep (timeout : cfg.Timeout)
  | unpend (q : Qid)
  | cancelAll (q : Qid)
  | flagsPoll (q : Qid) (mask options : BitVec 8) (timeout : cfg.Timeout)
  | flagsNotify (q : Qid) (notify options : BitVec 8)
  | schedEnter
  | yield

def WaitOp.Allowed {cfg : Config Tid Qid} (st : WaitSys Tid Qid) : WaitOp cfg → Prop
  | .pendOn _ timeout | .flagsPoll _ _ _ timeout =>
      timeout ≠ kNoWait cfg → st.calls.ker.current ≠ cfg.idle
  | .sleep _ => st.calls.ker.current ≠ cfg.idle
  | _ => True

instance {cfg : Config Tid Qid} (st : WaitSys Tid Qid) :
    (op : WaitOp cfg) → Decidable (op.Allowed st)
  | .pendOn _ _ => inferInstanceAs (Decidable (_ → _))
  | .sleep _ => inferInstanceAs (Decidable (_ ≠ _))
  | .flagsPoll _ _ _ _ => inferInstanceAs (Decidable (_ → _))
  | .unpend _ | .cancelAll _ | .flagsNotify _ _ _ | .schedEnter | .yield =>
      isTrue trivial

def WaitOp.Careful {cfg : Config Tid Qid} (st : WaitSys Tid Qid) : WaitOp cfg → Prop
  | .sleep timeout => timeout ≠ kForever cfg →
      SelfLinked st.calls.ker.wait (.handle st.calls.ker.current)
  | _ => True

instance {cfg : Config Tid Qid} (st : WaitSys Tid Qid) :
    (op : WaitOp cfg) → Decidable (op.Careful st)
  | .sleep _ => inferInstanceAs (Decidable (_ → _))
  | .pendOn _ _ | .unpend _ | .cancelAll _ | .flagsPoll _ _ _ _ | .flagsNotify _ _ _
  | .schedEnter | .yield => isTrue trivial

def WaitSys.called (st : WaitSys Tid Qid) (q : Qid)
    (r : Kernel Tid Qid Empty Nat × Option Int) : WaitSys Tid Qid :=
  match r.2 with
  | some _ => { st with calls := { st.calls with ker := r.1 } }
  | none => { st with calls := (st.calls.leave r.1 q ()).resume }

/-- The state after an operation. -/
def WaitOp.run {cfg : Config Tid Qid} (st : WaitSys Tid Qid) :
    WaitOp cfg → WaitSys Tid Qid
  | .pendOn q timeout => st.called q (zPendCurrentOn cfg st.calls.ker (some q) timeout)
  | .sleep timeout =>
      { st with
        calls := { st.calls with ker := kSleep cfg st.calls.ker timeout }.resume }
  | .unpend q =>
      { st with
        calls := { st.calls with ker := (zUnpendFirstThread cfg st.calls.ker q).1 } }
  | .cancelAll q =>
      { st with
        calls := { st.calls with ker := (zCancelAllPending cfg st.calls.ker q).1 } }
  | .flagsPoll q mask options timeout =>
      let r := kFlagsPoll cfg st.calls.ker (st.flags q) q mask options timeout
      { st with flags := Function.update st.flags q r.2.1 }.called q (r.1, r.2.2.2)
  | .flagsNotify q notify options =>
      let r := kFlagsNotify cfg st.calls.ker (st.flags q) q notify options
      { calls := { st.calls with ker := r.1 }.resume
        flags := Function.update st.flags q r.2.1 }
  | .schedEnter =>
      { st with calls := { st.calls with ker := zSchedEnter cfg st.calls.ker } }
  | .yield =>
      { st with calls := { st.calls with ker := zScheduler st.calls.ker }.resume }

def waitBoot (k : Kernel Tid Qid Empty Nat) (flags : Qid → Flags) : WaitSys Tid Qid where
  calls := callsBoot k
  flags := flags

def WaitReach (cfg : Config Tid Qid) (ok : WaitSys Tid Qid → WaitOp cfg → Prop) :
    WaitSys Tid Qid → Prop :=
  Reach (fun st => ∃ k ring flags, ColdBoot cfg k ring ∧ st = waitBoot k flags)
    (fun st (op : WaitOp cfg) => op.Allowed st ∧ ok st op) WaitOp.run

structure WaitList (c : Calls Tid Qid Nat Unit) (q : Qid) (l : List Tid) : Prop where
  ring : Ring (next c.ker.wait) (prev c.ker.wait)
    ((.queue q : WNode Tid Qid Empty) :: l.map .handle)
  exact : ∀ t, t ∈ l ↔ c.Waiting q t
  nodup : l.Nodup
  arrival : l.Pairwise fun a b => c.stamp a < c.stamp b

variable {cfg : Config Tid Qid} {st : WaitSys Tid Qid} {w : Qid → List Tid}

def WaitInv (cfg : Config Tid Qid) (st : WaitSys Tid Qid) : Prop :=
  ∃ w, CallsInv cfg st.calls w

theorem CallsInv.called (h : CallsInv cfg st.calls w) (q : Qid) (timeout : cfg.Timeout)
    (hc : timeout ≠ kNoWait cfg → st.calls.ker.current ≠ cfg.idle) :
    WaitInv cfg (st.called q (zPendCurrentOn cfg st.calls.ker (some q) timeout)) := by
  by_cases hn : timeout = kNoWait cfg
  · have hr : zPendCurrentOn cfg st.calls.ker (some q) timeout
        = (st.calls.ker, some (-EAGAIN)) := by
      rw [zPendCurrentOn, if_pos hn]
    rw [hr]
    exact ⟨w, h⟩
  · obtain ⟨hnone, hbase, -⟩ := h.leave (hc hn) q () hn
    simp only [WaitSys.called, hnone]
    exact ⟨_, hbase.resume⟩

/-- **ONE OPERATION** keeps the wait queues in order. -/
theorem WaitInv.run {op : WaitOp cfg} (h : WaitInv cfg st) (ha : op.Allowed st)
    (hc : op.Careful st) : WaitInv cfg (op.run st) := by
  obtain ⟨w, hi⟩ := h
  cases op with
  | pendOn q timeout => exact CallsInv.called hi q timeout ha
  | sleep timeout =>
    obtain ⟨hbase, -⟩ := hi.sleep ha timeout hc
    exact ⟨w, hbase.resume⟩
  | unpend q =>
    obtain ⟨-, hinv, -⟩ := hi.unpend q
    exact ⟨_, hinv⟩
  | cancelAll q =>
    obtain ⟨hinv, -⟩ := hi.unpendAll marks_cancel q
    exact ⟨_, hinv⟩
  | flagsPoll q mask options timeout =>
    rcases kFlagsPoll_cases st.calls.ker (st.flags q) q mask options timeout with
      ⟨fl', trig, ret, hr⟩ | hr
    · simp only [WaitOp.run, hr, WaitSys.called]
      exact ⟨w, hi⟩
    · -- the options and the mask are left in `swap_data` first
      have hs := hi.swap st.calls.ker.current (some (optAndMask options mask))
      simp only [WaitOp.run, hr]
      replace hs : CallsInv cfg (WaitSys.calls ⟨{ st.calls with
        ker := pollFlags st.calls.ker mask options },
        Function.update st.flags q (st.flags q)⟩) w := hs
      exact CallsInv.called hs q timeout ha
  | flagsNotify q notify options =>
    obtain ⟨N, -, hbase, -⟩ := CallsInv.notify hi (st.flags q) q notify options
    exact ⟨_, hbase.resume⟩
  | schedEnter =>
    obtain ⟨E, -, hinv, -⟩ := hi.schedEnter
    exact ⟨_, hinv⟩
  | yield =>
    obtain ⟨hbase, -⟩ := hi.yield
    exact ⟨w, hbase.resume⟩

theorem CallsInv.waitList (h : CallsInv cfg st.calls w) (q : Qid) : WaitList st.calls q (w q) := by
  obtain ⟨ring, timeq, hk⟩ := h.kernel
  exact ⟨hk.wait.ringed q, h.waits q, h.nodup, h.order q⟩

/-- In a careful run, the wait queues are in order at all times. -/
theorem WaitReach.inv (h : WaitReach cfg (fun st op => op.Careful st) st) : WaitInv cfg st := by
  refine Reach.invariant h ?_ ?_
  · rintro st ⟨k, ring, flags, hboot, rfl⟩
    exact ⟨_, hboot.callsInv⟩
  · exact fun st op hinv hok => hinv.run hok.1 hok.2

/-- **WAIT QUEUES**: in a careful run each one is a ring of the threads that wait on it, in the
    order of their arrival. -/
theorem wait_queue_integrity (h : WaitReach cfg (fun st op => op.Careful st) st) :
    (∀ q, ∃ l, WaitList st.calls q l)
      ∧ ((∀ t, (st.calls.ker.thread t).state = .pending →
            ((zSchedEnter cfg st.calls.ker).thread t).state ≠ .pending →
            st.calls.queue t = none) →
          ∀ q, ∃ l, WaitList st.calls q l
            ∧ WaitList ((.schedEnter : WaitOp cfg).run st).calls q l) := by
  obtain ⟨w, hi⟩ := h.inv
  refine ⟨fun q => ⟨w q, CallsInv.waitList hi q⟩, ?_⟩
  intro hsleep q
  obtain ⟨E, hE, hinv, hth, -⟩ := hi.schedEnter
  have hw : (w q).filter (fun t => t ∉ E) = w q := by
    refine List.filter_eq_self.mpr ?_
    intro t ht
    have hwait := (hi.waits q t).mp ht
    refine decide_eq_true ?_
    intro htE
    have hnone := hsleep t hwait.1 (by rw [hth, if_pos htE]; exact fun hc => nomatch hc)
    rw [hwait.2] at hnone
    exact nomatch hnone
  refine ⟨w q, CallsInv.waitList hi q, ?_⟩
  have hl : WaitList ((.schedEnter : WaitOp cfg).run st).calls q _ :=
    CallsInv.waitList hinv q
  rw [hw] at hl
  exact hl

def timedOut : WaitSys (Fin 4) Unit :=
  ([.pendOn () 1, .pendOn () (kForever _), .schedEnter] :
    List (WaitOp (smallConfig Unit))).foldl WaitOp.run
      (waitBoot (smallBoot Unit Empty Nat) fun _ => kFlagsInit 0)

theorem wait_queue_integrity_timedOut :
    WaitReach (smallConfig Unit) (fun st op => op.Careful st) timedOut
      ∧ (∃ l, WaitList timedOut.calls () l)
      ∧ (∃ l, WaitList timedOut.calls () l
          ∧ WaitList ((.schedEnter : WaitOp (smallConfig Unit)).run timedOut).calls () l)
      ∧ timedOut.calls.Waiting () 2 ∧ ¬ timedOut.calls.Waiting () 0 := by
  have hreach : WaitReach (smallConfig Unit) (fun st op => op.Careful st) timedOut :=
    Reach.foldl (.start ⟨_, _, _, smallBoot_boot, rfl⟩) (by decide)
  obtain ⟨hlist, htick⟩ := wait_queue_integrity hreach
  exact ⟨hreach, hlist (), htick (by decide) (), by decide, by decide⟩

def staleHandle : WaitSys (Fin 4) Unit :=
  ([.pendOn () 1, .pendOn () (kForever _), .schedEnter, .unpend (), .yield, .yield,
    .sleep 1] : List (WaitOp (smallConfig Unit))).foldl WaitOp.run
      (waitBoot (smallBoot Unit Empty Nat) fun _ => kFlagsInit 0)

/-- **A STALE HANDLE**: nobody waits, and the end of the sleep of thread 0
    puts thread 2, which is READY, back into the wait queue. -/
theorem wait_queue_broken :
    WaitReach (smallConfig Unit) (fun _ _ => True)
        ((.schedEnter : WaitOp (smallConfig Unit)).run staleHandle)
      ∧ (staleHandle.calls.ker.thread 0).state = .pending
      ∧ (∀ t, ¬ staleHandle.calls.Waiting () t)
      ∧ ∀ l, ¬ WaitList
          ((.schedEnter : WaitOp (smallConfig Unit)).run staleHandle).calls () l := by
  have hreach : WaitReach (smallConfig Unit) (fun _ _ => True) staleHandle :=
    Reach.foldl (.start ⟨_, _, _, smallBoot_boot, rfl⟩) (by decide)
  have hstep := Reach.step (.schedEnter : WaitOp (smallConfig Unit)) hreach
    ⟨trivial, trivial⟩
  refine ⟨hstep, by decide, by decide, ?_⟩
  intro l hl
  have hnext : next ((.schedEnter : WaitOp (smallConfig Unit)).run
      staleHandle).calls.ker.wait (.queue () : WNode (Fin 4) Unit Empty) = .handle 2 := by
    decide
  have hready : ¬ ((.schedEnter : WaitOp (smallConfig Unit)).run
      staleHandle).calls.Waiting () 2 := by decide
  have hhead := hl.ring.next_first
  rw [hnext] at hhead
  cases l with
  | nil => exact nomatch hhead
  | cons a l =>
    have ha : WNode.handle 2 = WNode.handle a := hhead
    injection ha with ha
    exact hready ((hl.exact 2).mp (by rw [ha]; exact List.mem_cons_self ..))

end AvrtosWaitQueue
