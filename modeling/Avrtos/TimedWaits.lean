import Avrtos.KernelRuns
import Avrtos.Ticks

/-! # How long a timed wait lasts

    A whole slice is taken from a timeout, the first one included. -/

namespace AvrtosTicks

open AvrtosDefines AvrtosDlist AvrtosTqueue AvrtosKernel
open Cells LinkedRing LinkedChain DeltaList Runs

variable {Tid Qid Pid D : Type} [Threads Tid]
variable [DecidableEq Qid] [DecidableEq Pid]

/-- A wait with a timeout. -/
structure TimedWait where
  timeout : Nat
  phase : Nat
  since : Nat
deriving DecidableEq, Repr

structure ClockSys (Tid Qid Pid D : Type) where
  ker : Kernel Tid Qid Pid D
  remaining : BitVec 8
  now : Nat
  wait : Tid → Option TimedWait

inductive ClockOp (cfg : TickConfig Tid Qid) (D : Type) where
  | tick
  | call (op : KerOp cfg.toConfig D)

variable {cfg : TickConfig Tid Qid}

def ClockOp.Allowed (s : ClockSys Tid Qid Pid D) : ClockOp cfg D → Prop
  | .tick => True
  | .call op => op.isCall = true ∧ op.Allowed s.ker

instance decClockAllowed (s : ClockSys Tid Qid Pid D) :
    (op : ClockOp cfg D) → Decidable (op.Allowed s)
  | .call _ => inferInstanceAs (Decidable (_ ∧ _))
  | .tick => isTrue trivial

def ClockOp.Careful (s : ClockSys Tid Qid Pid D) : ClockOp cfg D → Prop
  | .tick => True
  | .call op => op.Careful s.ker

instance decClockCareful (s : ClockSys Tid Qid Pid D) :
    (op : ClockOp cfg D) → Decidable (op.Careful s)
  | .call _ => inferInstanceAs (Decidable (KerOp.Careful _ _))
  | .tick => isTrue trivial

def ClockSys.settle (s : ClockSys Tid Qid Pid D) : ClockSys Tid Qid Pid D :=
  { s with wait := fun t => if (s.ker.thread t).state = .pending then s.wait t else none }

def ClockSys.begin (cfg : TickConfig Tid Qid) (s : ClockSys Tid Qid Pid D) :
    Option (cfg.Timeout) → Tid → Option TimedWait
  | some timeout =>
      if timeout = kForever cfg.toConfig then s.wait
      else Function.update s.wait s.ker.current
        (some ⟨timeout.toNat, ticksLeft cfg s.remaining, s.now⟩)
  | none => s.wait

def ClockSys.tick (cfg : TickConfig Tid Qid) (s : ClockSys Tid Qid Pid D) :
    ClockSys Tid Qid Pid D :=
  let r := countTick cfg s.remaining
  let s := { s with now := s.now + 1, remaining := r.1 }
  if r.2 then
    { s with ker := zSchedEnter cfg.toConfig s.ker, remaining := reload cfg r.1 }.settle
  else s

/-- The state after an operation. -/
def ClockOp.run (s : ClockSys Tid Qid Pid D) : ClockOp cfg D → ClockSys Tid Qid Pid D
  | .tick => s.tick cfg
  | .call op => { s with ker := op.run s.ker, wait := s.begin cfg op.timeout }.settle

def clockBoot (cfg : TickConfig Tid Qid) (k : Kernel Tid Qid Pid D) :
    ClockSys Tid Qid Pid D where
  ker := k
  remaining := cfg.sliceTicks.setWidth 8
  now := 0
  wait := fun _ => none

def ClockReach (cfg : TickConfig Tid Qid)
    (ok : ClockSys Tid Qid Pid D → ClockOp cfg D → Prop) : ClockSys Tid Qid Pid D → Prop :=
  Reach (fun s => ∃ k ring, ColdBoot cfg.toConfig k ring ∧ s = clockBoot cfg k)
    (fun s (op : ClockOp cfg D) => op.Allowed s ∧ ok s op) ClockOp.run

structure TimedWait.On (cfg : TickConfig Tid Qid) (w : TimedWait) (now left d e : Nat) :
    Prop where
  pos : 0 < w.phase
  phase : w.phase ≤ cfg.sliceTicks.toNat
  deadline : d + e * cfg.sliceTicks.toNat = w.timeout
  running : e = 0 ∨ 0 < d
  ticks : now + left = w.since + w.phase + e * cfg.sliceTicks.toNat

/-- The invariant. -/
structure ClockInv (cfg : TickConfig Tid Qid) (s : ClockSys Tid Qid Pid D)
    (timeq : List (Tid × Nat)) : Prop where
  kernel : KerInv cfg.toConfig s.ker timeq
  left_pos : 0 < ticksLeft cfg s.remaining
  left_le : ticksLeft cfg s.remaining ≤ cfg.sliceTicks.toNat
  pending : ∀ t w, s.wait t = some w → (s.ker.thread t).state = .pending
  waits : ∀ t w, s.wait t = some w →
    ∃ d e, (t, d) ∈ deadlines timeq ∧ w.On cfg s.now (ticksLeft cfg s.remaining) d e

section Steps

variable {s : ClockSys Tid Qid Pid D} {timeq : List (Tid × Nat)} {t : Tid} {w : TimedWait}

omit [Threads Tid] [DecidableEq Qid] [DecidableEq Pid] in
theorem ClockSys.settle_eq_some : s.settle.wait t = some w ↔
    (s.ker.thread t).state = .pending ∧ s.wait t = some w := by
  show (if (s.ker.thread t).state = .pending then s.wait t else none) = some w ↔ _
  by_cases hp : (s.ker.thread t).state = .pending
  · rw [if_pos hp]
    exact ⟨fun hw => ⟨hp, hw⟩, fun hw => hw.2⟩
  · rw [if_neg hp]
    exact ⟨fun hw => absurd hw.symm (Option.some_ne_none w), fun hw => absurd hw.1 hp⟩

/-- **A TICK WITHIN THE SLICE** changes nothing but the countdown. -/
theorem ClockInv.tick_within (h : ClockInv cfg s timeq) (hl : 1 < ticksLeft cfg s.remaining) :
    (countTick cfg s.remaining).2 = false ∧ (s.tick cfg).ker = s.ker
      ∧ ClockInv cfg (s.tick cfg) timeq := by
  obtain ⟨hfalse, hcount⟩ := countTick_within hl
  have hs : s.tick cfg
      = { s with now := s.now + 1, remaining := (countTick cfg s.remaining).1 } := by
    simp only [ClockSys.tick, hfalse, Bool.false_eq_true, if_false]
  have hle := h.left_le
  have hpos : 0 < ticksLeft cfg (countTick cfg s.remaining).1 := by omega
  have hle' : ticksLeft cfg (countTick cfg s.remaining).1 ≤ cfg.sliceTicks.toNat := by omega
  rw [hs]
  refine ⟨hfalse, rfl, h.kernel, hpos, hle', h.pending, ?_⟩
  intro t w hw
  obtain ⟨d, e, hd, hon⟩ := h.waits t w hw
  refine ⟨d, e, hd, hon.pos, hon.phase, hon.deadline, hon.running, ?_⟩
  show s.now + 1 + ticksLeft cfg (countTick cfg s.remaining).1 = _
  rw [← hon.ticks]
  omega

/-- **THE LAST TICK OF THE SLICE**. -/
theorem ClockInv.tick_last (h : ClockInv cfg s timeq) (hl : ticksLeft cfg s.remaining = 1) :
    (countTick cfg s.remaining).2 = true
      ∧ (∀ t w d e, s.wait t = some w → (t, d) ∈ deadlines timeq → w.On cfg s.now 1 d e →
          (((s.tick cfg).ker.thread t).state = .ready ↔ d ≤ cfg.sliceTicks.toNat))
      ∧ ∃ timeq', ClockInv cfg (s.tick cfg) timeq' := by
  have htrue := countTick_last hl
  have hs : s.tick cfg = ClockSys.settle { s with
        ker := zSchedEnter cfg.toConfig s.ker
        remaining := reload cfg (countTick cfg s.remaining).1
        now := s.now + 1 } := by
    simp only [ClockSys.tick, htrue, if_true]
  obtain ⟨timeq', hinv, hdead, hpend, hstate⟩ := h.kernel.schedEnter
  have hpos := cfg.slice_pos
  rw [hs]
  refine ⟨htrue, ?_, timeq', ?_⟩
  · intro t w d e hw hd _
    have hp := h.pending t w hw
    show ((zSchedEnter cfg.toConfig s.ker).thread t).state = .ready ↔ _
    constructor
    · intro hr
      refine Nat.le_of_not_lt fun hlt => ?_
      have hstill := (hpend t).mpr ⟨hp, fun r hr' => ?_⟩
      · rw [hr] at hstill
        exact ThreadState.noConfusion hstill
      · rw [h.kernel.deadline_unique hr' hd]
        exact hlt
    · intro hle
      rcases hstate t with hsame | hready
      · rw [hp] at hsame
        exact absurd (((hpend t).mp hsame).2 d hd) (Nat.not_lt.mpr hle)
      · exact hready
  · have hleft : ticksLeft cfg (reload cfg (countTick cfg s.remaining).1)
        = cfg.sliceTicks.toNat := ticksLeft_reload
    refine ⟨hinv, hleft.symm ▸ hpos, Nat.le_of_eq hleft, ?_, ?_⟩
    · exact fun t w hw => (ClockSys.settle_eq_some.mp hw).1
    · intro t w hw
      obtain ⟨hp, hw⟩ := ClockSys.settle_eq_some.mp hw
      obtain ⟨d, e, hd, hon⟩ := h.waits t w hw
      have hlt := ((hpend t).mp hp).2 d hd
      have hticks := hon.ticks
      have hdeadline := hon.deadline
      have hmul : (e + 1) * cfg.sliceTicks.toNat
          = e * cfg.sliceTicks.toNat + cfg.sliceTicks.toNat := Nat.succ_mul ..
      refine ⟨d - cfg.sliceTicks.toNat, e + 1, (hdead t _).mpr ⟨by omega, ?_⟩, hon.pos,
        hon.phase, by omega, Or.inr (by omega), ?_⟩
      · rw [Nat.sub_add_cancel (Nat.le_of_lt hlt)]
        exact hd
      · show s.now + 1 + ticksLeft cfg (reload cfg (countTick cfg s.remaining).1) = _
        omega

theorem ClockInv.call (h : ClockInv cfg s timeq) {op : KerOp cfg.toConfig D}
    (hop : op.isCall = true) (ha : op.Allowed s.ker) (hc : op.Careful s.ker) :
    ∃ timeq', ClockInv cfg ((ClockOp.call op).run s) timeq' := by
  obtain ⟨timeq', hinv, hkeep⟩ := h.kernel.call ha hc hop
  refine ⟨timeq', hinv, h.left_pos, h.left_le, ?_, ?_⟩
  · exact fun t w hw => (ClockSys.settle_eq_some.mp hw).1
  · intro t w hw
    obtain ⟨hp, hw⟩ := ClockSys.settle_eq_some.mp hw
    replace hp : ((op.run s.ker).thread t).state = .pending := hp
    replace hw : s.begin cfg op.timeout t = some w := hw
    have hcur : s.wait s.ker.current = none := by
      obtain ⟨ring, wq, hk⟩ := h.kernel
      cases hsome : s.wait s.ker.current with
      | none => rfl
      | some w => exact absurd (h.pending _ w hsome) hk.current_not_pending
    by_cases ht : t = s.ker.current
    · -- the wait begins with this call
      subst ht
      obtain ⟨T, hT, hdead⟩ := hkeep.running hp
      rw [hT, ClockSys.begin] at hw
      split_ifs at hw with hf
      · rw [hcur] at hw
        exact absurd hw.symm (Option.some_ne_none w)
      · rw [Function.update_self] at hw
        obtain rfl := Option.some.inj hw
        refine ⟨T.toNat, 0, (hdead _).mpr ⟨hf, rfl⟩, h.left_pos, h.left_le, ?_, Or.inl rfl, ?_⟩
        · rw [Nat.zero_mul, Nat.add_zero]
        · rw [Nat.zero_mul, Nat.add_zero]
          rfl
    · have hold : s.wait t = some w := by
        rw [← hw]
        cases op.timeout with
        | none => rfl
        | some T =>
          rw [ClockSys.begin]
          split_ifs
          · rfl
          · rw [Function.update_of_ne ht]
      obtain ⟨d, e, hd, hon⟩ := h.waits t w hold
      exact ⟨d, e, ((hkeep.other t ht hp).2 d).mpr hd, hon⟩

/-- **ONE OPERATION** keeps the invariant. -/
theorem ClockInv.run (h : ClockInv cfg s timeq) {op : ClockOp cfg D} (ha : op.Allowed s)
    (hc : op.Careful s) : ∃ timeq', ClockInv cfg (op.run s) timeq' := by
  cases op with
  | tick =>
    by_cases hl : ticksLeft cfg s.remaining = 1
    · exact (h.tick_last hl).2.2
    · have hpos := h.left_pos
      exact ⟨timeq, (h.tick_within (by omega)).2.2⟩
  | call op => exact h.call ha.1 ha.2 hc

end Steps

section Runs

variable {s : ClockSys Tid Qid Pid D} {t : Tid} {w : TimedWait}

theorem clockBoot_inv {k : Kernel Tid Qid Pid D} {ring : List Tid}
    (h : ColdBoot cfg.toConfig k ring) : ClockInv cfg (clockBoot cfg k) [] := by
  have hleft : ticksLeft cfg (clockBoot cfg k).remaining = cfg.sliceTicks.toNat := by
    show ticksLeft cfg (cfg.sliceTicks.setWidth 8) = _
    unfold ticksLeft
    split_ifs with hm
    · rw [BitVec.toNat_setWidth]
      exact Nat.mod_eq_of_lt cfg.slice_lt
    · exact (cfg.single (Bool.eq_false_iff.mpr hm)).symm
  refine ⟨h.kerInv, ?_, ?_, ?_, ?_⟩
  · rw [hleft]
    exact cfg.slice_pos
  · exact Nat.le_of_eq hleft
  · exact fun t w hw => absurd hw.symm (Option.some_ne_none w)
  · exact fun t w hw => absurd hw.symm (Option.some_ne_none w)

/-- In a careful run, the deadlines are in order at all times. -/
theorem ClockReach.inv (h : ClockReach cfg (fun s op => op.Careful s) s) :
    ∃ timeq, ClockInv cfg s timeq := by
  refine Reach.invariant (P := fun s => ∃ timeq, ClockInv cfg s timeq) h ?_ ?_
  · rintro s ⟨k, ring, hboot, rfl⟩
    exact ⟨[], clockBoot_inv hboot⟩
  · rintro s op ⟨timeq, hinv⟩ hok
    exact hinv.run hok.1 hok.2

omit [DecidableEq Qid] in
theorem TimedWait.On.mod_lt_iff {now left d e : Nat} (h : w.On cfg now left d e)
    (hd : d ≤ cfg.sliceTicks.toNat) :
    (w.timeout - 1) % cfg.sliceTicks.toNat < w.phase ↔ d ≤ w.phase := by
  have hpos := h.pos
  rcases Nat.eq_zero_or_pos d with rfl | hd0
  · obtain rfl : e = 0 := h.running.resolve_right (Nat.lt_irrefl 0)
    have hN : w.timeout = 0 := by
      rw [← h.deadline, Nat.zero_mul]
    rw [hN, Nat.zero_sub, Nat.zero_mod]
    exact ⟨fun _ => Nat.zero_le _, fun _ => hpos⟩
  · have hN : w.timeout - 1 = (d - 1) + e * cfg.sliceTicks.toNat := by
      rw [← h.deadline]
      omega
    rw [hN, Nat.add_mul_mod_self_right, Nat.mod_eq_of_lt (by omega)]
    omega

omit [DecidableEq Qid] in
theorem TimedWait.On.reached_iff {now d e : Nat} (h : w.On cfg now 1 d e) :
    w.timeout ≤ now + 1 - w.since ↔ d ≤ w.phase := by
  have hticks := h.ticks
  rw [← h.deadline]
  omega

/-- **TIMED WAITS**: a wait that ends with a tick has lasted `N` ticks exactly when `(N - 1) % S
    < r`. -/
theorem timed_wait_lasts_iff (h : ClockReach cfg (fun s op => op.Careful s) s)
    (hw : s.wait t = some w) :
    ((w.timeout - 1) % cfg.sliceTicks.toNat < w.phase →
        (((s.tick cfg).ker.thread t).state = .ready ↔
          (countTick cfg s.remaining).2 = true ∧ w.timeout ≤ s.now + 1 - w.since))
      ∧ (((s.tick cfg).ker.thread t).state = .ready →
        (w.timeout ≤ s.now + 1 - w.since ↔
          (w.timeout - 1) % cfg.sliceTicks.toNat < w.phase)) := by
  obtain ⟨timeq, hinv⟩ := h.inv
  obtain ⟨d, e, hd, hon⟩ := hinv.waits t w hw
  by_cases hl : ticksLeft cfg s.remaining = 1
  · obtain ⟨htrue, hends, -⟩ := hinv.tick_last hl
    rw [hl] at hon
    have hready := hends t w d e hw hd hon
    have hphase := hon.phase
    refine ⟨fun hmod => ?_, fun hr => ?_⟩
    · rw [hready, hon.reached_iff]
      constructor
      · exact fun hle => ⟨htrue, (hon.mod_lt_iff hle).mp hmod⟩
      · exact fun hle => Nat.le_trans hle.2 hphase
    · rw [hon.reached_iff, hon.mod_lt_iff (hready.mp hr)]
  · -- the slice goes on, and the thread stays PENDING
    have hpos := hinv.left_pos
    obtain ⟨hfalse, hker, -⟩ := hinv.tick_within (by omega)
    have hnot : ((s.tick cfg).ker.thread t).state ≠ .ready := by
      rw [hker, hinv.pending t w hw]
      exact fun hc => ThreadState.noConfusion hc
    refine ⟨fun _ => ⟨fun hr => absurd hr hnot, fun hc => ?_⟩, fun hr => absurd hr hnot⟩
    rw [hfalse] at hc
    exact Bool.noConfusion hc.1

end Runs

def sleepsTwo (n : Nat) : ClockSys (Fin 4) Unit Empty Unit :=
  (List.replicate n .tick ++ [.call (.sleep 2)] :
    List (ClockOp (sliceConfig true) Unit)).foldl ClockOp.run
      (clockBoot (sliceConfig true) (smallBoot Unit Empty Unit))

theorem smallBoot_cold : ColdBoot (sliceConfig true).toConfig (smallBoot Unit Empty Unit)
    [0, 1, 2] := by
  have h := (smallBoot_boot : ColdBoot (smallConfig Unit) (smallBoot Unit Empty Unit) _)
  exact ⟨h.ringed, h.head, h.runQueue, h.count, h.idle, h.state, h.wakeup, h.timeouts,
    h.links, h.fault⟩

theorem timed_wait_lasts_iff_two :
    ClockReach (sliceConfig true) (fun s op => op.Careful s) (sleepsTwo 0)
      ∧ (sleepsTwo 0).wait 0 = some ⟨2, 2, 0⟩
      ∧ ((((sleepsTwo 0).tick (sliceConfig true)).ker.thread 0).state = .ready ↔
          (countTick (sliceConfig true) (sleepsTwo 0).remaining).2 = true
            ∧ 2 ≤ (sleepsTwo 0).now + 1 - 0) := by
  have hreach : ClockReach (sliceConfig true) (fun s op => op.Careful s) (sleepsTwo 0) :=
    Reach.foldl (.start ⟨_, _, smallBoot_cold, rfl⟩) (by decide)
  have hw : (sleepsTwo 0).wait 0 = some ⟨2, 2, 0⟩ := by decide
  exact ⟨hreach, hw, (timed_wait_lasts_iff hreach hw).1 (by decide)⟩

/-- **A WAIT THAT ENDS EARLY**: with one tick of the slice left, a sleep of two ticks
    is over after one tick. -/
theorem timed_wait_ends_early :
    ClockReach (sliceConfig true) (fun s op => op.Careful s) (sleepsTwo 1)
      ∧ (sleepsTwo 1).wait 0 = some ⟨2, 1, 1⟩
      ∧ (((sleepsTwo 1).tick (sliceConfig true)).ker.thread 0).state = .ready
      ∧ (sleepsTwo 1).now + 1 - 1 < 2 :=
  ⟨Reach.foldl (.start ⟨_, _, smallBoot_cold, rfl⟩) (by decide), by decide, by decide,
    by decide⟩

end AvrtosTicks
