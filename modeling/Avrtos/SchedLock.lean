import Avrtos.Ticks
import Avrtos.Base.Runs

/-! # Locking the scheduler (`kernel.c`)

    A locked thread stays `current` through any ticks. -/

namespace AvrtosTicks

open AvrtosKernel Runs

/-- The flag and `sched_lock_cnt`. -/
structure SchedLock where
  locked : Bool
  cnt : BitVec 8

/-- `k_sched_lock`. -/
def kSchedLock (reentrancy : Bool) (l : SchedLock) : SchedLock :=
  ⟨true, if reentrancy then l.cnt + 1 else l.cnt⟩

/-- `k_sched_unlock`. -/
def kSchedUnlock (reentrancy : Bool) (l : SchedLock) : SchedLock :=
  if reentrancy then
    if l.cnt = 0 then l
    else if l.cnt = 1 then ⟨false, 0⟩
    else { l with cnt := l.cnt - 1 }
  else { l with locked := false }

structure Locking extends SchedLock where
  depth : Nat

def Locking.call (reentrancy : Bool) (l : Locking) (lock : Bool) : Locking :=
  if lock then ⟨kSchedLock reentrancy l.toSchedLock, l.depth + 1⟩
  else ⟨kSchedUnlock reentrancy l.toSchedLock, if reentrancy then l.depth - 1 else 0⟩

def LockReach (reentrancy : Bool) : Locking → Prop :=
  Reach (· = ⟨⟨false, 0⟩, 0⟩) (fun l lock => lock = true → l.depth < 255) (Locking.call reentrancy)

def Counted (reentrancy : Bool) (l : Locking) : Prop :=
  (l.locked = true ↔ 0 < l.depth) ∧ (reentrancy = true → l.cnt.toNat = l.depth)

theorem LockReach.counted {reentrancy : Bool} {l : Locking} (h : LockReach reentrancy l) :
    Counted reentrancy l := by
  refine Reach.invariant h ?_ ?_
  · rintro l rfl
    exact ⟨by decide, fun _ => rfl⟩
  · rintro l lock ⟨hflag, hcnt⟩ hok
    cases reentrancy with
    | false => cases lock <;> simp [Counted, Locking.call, kSchedLock, kSchedUnlock]
    | true =>
      have hcnt := hcnt rfl
      cases lock with
      | true =>
        have hlt := hok rfl
        refine ⟨by simp [Locking.call, kSchedLock], fun _ => ?_⟩
        show (l.cnt + 1).toNat = l.depth + 1
        bv_omega
      | false =>
        simp only [Counted, Locking.call, kSchedUnlock, Bool.false_eq_true, if_false, if_true]
        split_ifs with h0 h1
        · have hd : l.depth = 0 := hcnt.symm.trans (congrArg BitVec.toNat h0)
          rw [hd] at hflag hcnt ⊢
          exact ⟨hflag, fun _ => hcnt⟩
        · have hd : l.depth = 1 := hcnt.symm.trans (congrArg BitVec.toNat h1)
          rw [hd]
          exact ⟨by decide, fun _ => rfl⟩
        · rw [hflag]
          refine ⟨?_, fun _ => ?_⟩ <;> bv_omega

variable {Tid Qid Pid D τ ε : Type} [Threads Tid]
variable [DecidableEq Qid] [DecidableEq Pid] [DecidableEq τ] [Fintype τ]
variable [DecidableEq ε] [Fintype ε] {cfg : TickConfig Tid Qid}

theorem zSchedEnterLoop_current (cfg : Config Tid Qid) (n : Nat) (k : Kernel Tid Qid Pid D) :
    (zSchedEnterLoop cfg n k).current = k.current := by
  induction n generalizing k with
  | zero =>
    simp only [zSchedEnterLoop]
    split <;> rfl
  | succ n ih =>
    simp only [zSchedEnterLoop]
    split
    · rfl
    · rw [ih, zExpire_current]
      rfl

theorem tick_keeps (hd : Handlers cfg.deltaBits τ ε) (s : TickSys Pid D τ ε cfg)
    (h : s.locked s.ker.current = true) :
    (s.tick hd).locked = s.locked ∧ (s.tick hd).ker.current = s.ker.current := by
  have hcur : (zSchedEnter cfg.toConfig s.ker).current = s.ker.current := zSchedEnterLoop_current ..
  unfold TickSys.tick TickSys.slice TickSys.schedEnter
  dsimp only
  split_ifs with hcount hcoop hflag
  · exact ⟨rfl, hcur⟩
  · rw [hcur, h, Bool.or_true] at hflag
    exact absurd rfl hflag
  · exact ⟨rfl, hcur⟩
  · exact ⟨rfl, rfl⟩

/-- **NO TICK SWITCHES A THREAD THAT HAS LOCKED THE SCHEDULER**, as long as a lock has not been
    undone. -/
theorem locked_not_preempted {reentrancy : Bool} {l : Locking} (h : LockReach reentrancy l)
    (hdepth : 0 < l.depth) (hd : Handlers cfg.deltaBits τ ε) (s : TickSys Pid D τ ε cfg)
    (hs : s.locked s.ker.current = l.locked) (n : Nat) :
    ((TickSys.tick hd)^[n] s).ker.current = s.ker.current := by
  rw [h.counted.1.mpr hdepth] at hs
  induction n generalizing s with
  | zero => rfl
  | succ n ih =>
    obtain ⟨hlocked, hcur⟩ := tick_keeps hd s hs
    rw [Function.iterate_succ_apply, ih _ (by rw [hlocked, hcur, hs]), hcur]

/-- Thread 0 has locked the scheduler once, and five ticks come. -/
theorem locked_not_preempted_five :
    LockReach true ⟨⟨true, 1⟩, 1⟩ ∧ ((TickSys.tick (noHandlers 16))^[5]
      { sliceBoot true with locked := fun _ => true }).ker.current = 0 := by
  have hstart : LockReach true ⟨⟨false, 0⟩, 0⟩ := .start rfl
  have hreach : LockReach true ⟨⟨true, 1⟩, 1⟩ := Reach.step true hstart fun _ => by decide
  exact ⟨hreach, locked_not_preempted hreach (by decide) _ _ rfl 5⟩

end AvrtosTicks
