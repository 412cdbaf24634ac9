import Avrtos.Base.Window
import Avrtos.Defines

/-! # `ring.c`: the byte ring buffer

    Runs behave as a bounded queue exactly when every push meets `PushExact`. -/

namespace AvrtosRingBuffer

open AvrtosDefines Window

/-- `struct k_ring`. -/
structure KRing where
  buffer : Nat → UInt8
  r : UInt8
  w : UInt8
  size : UInt8

/-- `k_ring_init`. -/
def kRingInit (argsChecks : Bool) (ring : KRing) (buffer : Nat → UInt8)
    (size : UInt8) : KRing × Int :=
  if !zUser argsChecks (size != 0) then (ring, -EINVAL)
  else ({ buffer := buffer, size := size, r := 0, w := 0 }, 0)

/-- `rem` of `k_ring_push`, truncated to eight bits. -/
def kRingRem (ring : KRing) : UInt8 := ring.size - (ring.w - ring.r) - 1

/-- `k_ring_push`. -/
def kRingPush (ring : KRing) (data : UInt8) : KRing × Int :=
  if kRingRem ring = 0 then (ring, -ENOMEM)
  else
    let buffer := Function.update ring.buffer ring.w.toNat data
    let w := ring.w + 1
    let w := if w = ring.size then 0 else w
    ({ ring with buffer := buffer, w := w }, 0)

/-- `k_ring_pop`. -/
def kRingPop (ring : KRing) : KRing × Int × Option UInt8 :=
  if ring.r = ring.w then (ring, -EAGAIN, none)
  else
    let data := ring.buffer ring.r.toNat
    let r := ring.r + 1
    let r := if r = ring.size then 0 else r
    ({ ring with r := r }, 0, some data)

def queuePush (cap : Nat) (q : List UInt8) (data : UInt8) : List UInt8 × Int :=
  if q.length = cap then (q, -ENOMEM) else (q ++ [data], 0)

/-- A pop from a queue. -/
def queuePop : List UInt8 → List UInt8 × Int × Option UInt8
  | [] => ([], -EAGAIN, none)
  | x :: q => (q, 0, some x)

inductive RingOp where
  | push (data : UInt8)
  | pop
deriving DecidableEq, Repr

def ringStep (ring : KRing) : RingOp → KRing × Int × Option UInt8
  | .push data => ((kRingPush ring data).1, (kRingPush ring data).2, none)
  | .pop => kRingPop ring

def queueStep (cap : Nat) (q : List UInt8) :
    RingOp → List UInt8 × Int × Option UInt8
  | .push data => ((queuePush cap q data).1, (queuePush cap q data).2, none)
  | .pop => queuePop q

def ringRun (ring : KRing) : List RingOp → KRing
  | [] => ring
  | op :: ops => ringRun (ringStep ring op).1 ops

def ringResults (ring : KRing) : List RingOp → List (Int × Option UInt8)
  | [] => []
  | op :: ops => (ringStep ring op).2 :: ringResults (ringStep ring op).1 ops

def queueRun (cap : Nat) (q : List UInt8) : List RingOp → List UInt8
  | [] => q
  | op :: ops => queueRun cap (queueStep cap q op).1 ops

def queueResults (cap : Nat) (q : List UInt8) :
    List RingOp → List (Int × Option UInt8)
  | [] => []
  | op :: ops =>
      (queueStep cap q op).2 :: queueResults cap (queueStep cap q op).1 ops

def used (ring : KRing) : Nat :=
  if ring.r.toNat ≤ ring.w.toNat then ring.w.toNat - ring.r.toNat
  else ring.size.toNat + ring.w.toNat - ring.r.toNat

def contents (ring : KRing) : List UInt8 :=
  window ring.buffer ring.size.toNat ring.r.toNat (used ring)

structure InBounds (ring : KRing) : Prop where
  r_lt : ring.r.toNat < ring.size.toNat
  w_lt : ring.w.toNat < ring.size.toNat

instance (ring : KRing) : Decidable (InBounds ring) :=
  decidable_of_iff
    (ring.r.toNat < ring.size.toNat ∧ ring.w.toNat < ring.size.toNat)
    ⟨fun h => ⟨h.1, h.2⟩, fun h => ⟨h.r_lt, h.w_lt⟩⟩

def PushExact (ring : KRing) : Prop :=
  ring.r.toNat ≤ ring.w.toNat ∨
    (ring.r.toNat ≠ ring.w.toNat + 1 ∧
      ring.size.toNat + ring.r.toNat ≠ ring.w.toNat + 257)
deriving Decidable

def PushesExact (ring : KRing) : List RingOp → Prop
  | [] => True
  | .push data :: ops =>
      PushExact ring ∧ PushesExact (ringStep ring (.push data)).1 ops
  | .pop :: ops => PushesExact (ringStep ring .pop).1 ops

section Step

variable {ring : KRing} {q : List UInt8} (data : UInt8)

theorem kRingRem_eq_zero_iff (h : InBounds ring) : kRingRem ring = 0 ↔ (ring.r.toNat ≤ ring.w.toNat
          ∧ ring.w.toNat + 1 = ring.size.toNat + ring.r.toNat)
        ∨ (ring.w.toNat < ring.r.toNat ∧ ring.size.toNat + ring.r.toNat = ring.w.toNat + 257) := by
  obtain ⟨hr, hw⟩ := h
  have hs := ring.size.toNat_lt
  rw [← UInt8.toNat_inj, kRingRem, UInt8.toNat_sub, UInt8.toNat_sub,
    UInt8.toNat_sub, UInt8.toNat_one, UInt8.toNat_zero]
  omega

theorem used_eq_iff (h : InBounds ring) :
    used ring = ring.size.toNat - 1 ↔ (ring.r.toNat ≤ ring.w.toNat
          ∧ ring.w.toNat + 1 = ring.size.toNat + ring.r.toNat)
        ∨ ring.r.toNat = ring.w.toNat + 1 := by
  obtain ⟨hr, hw⟩ := h
  unfold used
  split_ifs <;> omega

theorem pushExact_iff (h : InBounds ring) :
    PushExact ring ↔ (kRingRem ring = 0 ↔ used ring = ring.size.toNat - 1) := by
  rw [kRingRem_eq_zero_iff h, used_eq_iff h]
  obtain ⟨hr, hw⟩ := h
  have hs := ring.size.toNat_lt
  unfold PushExact
  omega

theorem used_lt (h : InBounds ring) : used ring < ring.size.toNat := by
  obtain ⟨hr, hw⟩ := h
  unfold used
  split_ifs <;> omega

@[simp] theorem length_contents : (contents ring).length = used ring := by
  simp [contents]

theorem w_eq (h : InBounds ring) : (ring.r.toNat + used ring) % ring.size.toNat = ring.w.toNat := by
  obtain ⟨hr, hw⟩ := h
  unfold used
  split_ifs with hle
  · rw [Nat.add_sub_cancel' hle, Nat.mod_eq_of_lt hw]
  · have h1 : ring.r.toNat + (ring.size.toNat + ring.w.toNat - ring.r.toNat)
        = ring.w.toNat + ring.size.toNat := by omega
    rw [h1, Nat.add_mod_right, Nat.mod_eq_of_lt hw]

private theorem cursor_toNat {c size : UInt8} (hc : c.toNat < size.toNat) :
    (if c + 1 = size then 0 else c + 1).toNat = advance size.toNat c.toNat := by
  have hs := size.toNat_lt
  have h1 : (c + 1).toNat = c.toNat + 1 := by
    rw [UInt8.toNat_add, UInt8.toNat_one]
    omega
  unfold advance
  by_cases h : c + 1 = size
  · rw [if_pos h, if_pos (by rw [← h1, h]), UInt8.toNat_zero]
  · have h2 : ¬ c.toNat + 1 = size.toNat := by
      rw [← h1]
      exact fun hc => h (UInt8.toNat_inj.mp hc)
    rw [if_neg h, if_neg h2, h1]

theorem kRingPush_of_rem_eq_zero (h : kRingRem ring = 0) :
    kRingPush ring data = (ring, -ENOMEM) := if_pos h

theorem kRingPush_unchanged (h : (kRingPush ring data).2 = -ENOMEM) :
    (kRingPush ring data).1 = ring := by
  by_cases hrem : kRingRem ring = 0
  · rw [kRingPush_of_rem_eq_zero data hrem]
  · rw [kRingPush, if_neg hrem] at h
    have h0 : (0 : Int) = -ENOMEM := h
    exact absurd h0 (by decide)

@[simp] theorem kRingPush_size : (kRingPush ring data).1.size = ring.size := by
  unfold kRingPush
  split_ifs <;> rfl

@[simp] theorem kRingPop_size : (kRingPop ring).1.size = ring.size := by
  unfold kRingPop
  split_ifs <;> rfl

theorem kRingPush_inBounds (h : InBounds ring) : InBounds (kRingPush ring data).1 := by
  unfold kRingPush
  split_ifs with hrem
  · exact h
  · refine ⟨h.r_lt, ?_⟩
    show (if ring.w + 1 = ring.size then 0 else ring.w + 1).toNat < _
    rw [cursor_toNat h.w_lt]
    exact advance_lt h.w_lt

theorem kRingPop_inBounds (h : InBounds ring) : InBounds (kRingPop ring).1 := by
  unfold kRingPop
  split_ifs with hrw
  · exact h
  · refine ⟨?_, h.w_lt⟩
    show (if ring.r + 1 = ring.size then 0 else ring.r + 1).toNat < _
    rw [cursor_toNat h.r_lt]
    exact advance_lt h.r_lt

theorem kRingPush_contents (h : InBounds ring) (hrem : kRingRem ring ≠ 0)
    (hroom : used ring ≠ ring.size.toNat - 1) :
    contents (kRingPush ring data).1 = contents ring ++ [data] := by
  have hlt : used ring < ring.size.toNat := used_lt h
  have hwn := cursor_toNat h.w_lt
  -- the new write cursor is one byte further from the read cursor
  have hused : used { ring with
      buffer := Function.update ring.buffer ring.w.toNat data,
      w := if ring.w + 1 = ring.size then 0 else ring.w + 1 }
      = used ring + 1 := by
    obtain ⟨hr, hw⟩ := h
    simp only [used, hwn] at hroom hlt ⊢
    unfold advance
    split_ifs at hroom hlt ⊢ <;> omega
  rw [kRingPush, if_neg hrem]
  show window _ _ _ (used _) = _
  rw [hused]
  show window (Function.update ring.buffer ring.w.toNat data) _ _ _ = _
  rw [← w_eq h]
  exact window_update hlt data

theorem kRingPop_of_contents_nil (h : InBounds ring) (hq : contents ring = []) :
    kRingPop ring = (ring, -EAGAIN, none) := by
  have hu : used ring = 0 := by
    rw [← length_contents, hq]
    rfl
  have hrw : ring.r = ring.w := by
    rw [← UInt8.toNat_inj, ← w_eq h, hu, Nat.add_zero, Nat.mod_eq_of_lt h.r_lt]
  rw [kRingPop, if_pos hrw]

theorem kRingPop_of_contents_cons (h : InBounds ring) {x : UInt8} (hq : contents ring = x :: q) :
    (kRingPop ring).2 = (0, some x) ∧ contents (kRingPop ring).1 = q := by
  have hu : used ring = q.length + 1 := by
    rw [← length_contents, hq]
    rfl
  have hrw : ring.r ≠ ring.w := by
    intro hc
    rw [used, hc, if_pos (Nat.le_refl _), Nat.sub_self] at hu
    omega
  have hrn := cursor_toNat h.r_lt
  have hused : used { ring with
      r := if ring.r + 1 = ring.size then 0 else ring.r + 1 } = q.length := by
    obtain ⟨hr, hw⟩ := h
    have hne : ring.r.toNat ≠ ring.w.toNat := fun hc =>
      hrw (UInt8.toNat_inj.mp hc)
    simp only [used, hrn] at hu ⊢
    unfold advance
    split_ifs at hu ⊢ <;> omega
  rw [contents, hu, window_succ h.r_lt] at hq
  obtain ⟨hx, hrest⟩ := List.cons.inj hq
  rw [kRingPop, if_neg hrw]
  refine ⟨by rw [hx], ?_⟩
  show window _ _ _ (used _) = _
  rw [hused]
  show window ring.buffer _ (if ring.r + 1 = ring.size then 0
    else ring.r + 1).toNat _ = _
  rw [hrn]
  exact hrest

end Step

section Run

variable {ring : KRing} {q : List UInt8}

theorem ringStep_inBounds (h : InBounds ring) (op : RingOp) : InBounds (ringStep ring op).1 := by
  cases op with
  | push data => exact kRingPush_inBounds data h
  | pop => exact kRingPop_inBounds h

@[simp] theorem ringStep_size (op : RingOp) : (ringStep ring op).1.size = ring.size := by
  cases op with
  | push data => exact kRingPush_size data
  | pop => exact kRingPop_size

theorem ringRun_inBounds (h : InBounds ring) (ops : List RingOp) : InBounds (ringRun ring ops) := by
  induction ops generalizing ring with
  | nil => exact h
  | cons op ops ih => exact ih (ringStep_inBounds h op)

theorem ringStep_push_refines (h : InBounds ring) (hx : PushExact ring) (data : UInt8) :
    (ringStep ring (.push data)).2
        = (queueStep (ring.size.toNat - 1) (contents ring) (.push data)).2
      ∧ contents (ringStep ring (.push data)).1
        = (queueStep (ring.size.toNat - 1) (contents ring) (.push data)).1 := by
  have hfull := (pushExact_iff h).mp hx
  simp only [ringStep, queueStep, queuePush, length_contents]
  by_cases hrem : kRingRem ring = 0
  · rw [kRingPush_of_rem_eq_zero data hrem, if_pos (hfull.mp hrem)]
    exact ⟨rfl, rfl⟩
  · have hroom : used ring ≠ ring.size.toNat - 1 := fun hc => hrem (hfull.mpr hc)
    rw [if_neg hroom, kRingPush_contents data h hrem hroom]
    refine ⟨?_, rfl⟩
    rw [kRingPush, if_neg hrem]

theorem ringStep_push_differs (h : InBounds ring) (hx : ¬ PushExact ring) (data : UInt8) :
    (ringStep ring (.push data)).2
      ≠ (queueStep (ring.size.toNat - 1) (contents ring) (.push data)).2 := by
  have hfull := (not_congr (pushExact_iff h)).mp hx
  simp only [ringStep, queueStep, queuePush, length_contents]
  by_cases hrem : kRingRem ring = 0
  · have hroom : used ring ≠ ring.size.toNat - 1 := fun hc =>
      hfull ⟨fun _ => hc, fun _ => hrem⟩
    rw [kRingPush_of_rem_eq_zero data hrem, if_neg hroom]
    show ((-ENOMEM, none) : Int × Option UInt8) ≠ (0, none)
    decide
  · have hfl : used ring = ring.size.toNat - 1 := by
      by_contra hc
      exact hfull ⟨fun h0 => absurd h0 hrem, fun h0 => absurd h0 hc⟩
    rw [if_pos hfl, kRingPush, if_neg hrem]
    show ((0, none) : Int × Option UInt8) ≠ (-ENOMEM, none)
    decide

theorem ringStep_pop_refines (h : InBounds ring) (cap : Nat) :
    (ringStep ring .pop).2 = (queueStep cap (contents ring) .pop).2
      ∧ contents (ringStep ring .pop).1 = (queueStep cap (contents ring) .pop).1 := by
  cases hq : contents ring with
  | nil =>
    rw [ringStep, kRingPop_of_contents_nil h hq]
    exact ⟨rfl, hq⟩
  | cons x q => exact kRingPop_of_contents_cons h hq

structure FifoRun (cap : Nat) (ring : KRing) (q : List UInt8)
    (ops : List RingOp) : Prop where
  results : ringResults ring ops = queueResults cap q ops
  stored : contents (ringRun ring ops) = queueRun cap q ops
  inBounds : ∀ pre, pre <+: ops → InBounds (ringRun ring pre)
  unchanged : ∀ pre data, pre ++ [RingOp.push data] <+: ops →
    (kRingPush (ringRun ring pre) data).2 = -ENOMEM →
      ringRun ring (pre ++ [.push data]) = ringRun ring pre

theorem ringRun_append (ring : KRing) (l₁ l₂ : List RingOp) :
    ringRun ring (l₁ ++ l₂) = ringRun (ringRun ring l₁) l₂ := by
  induction l₁ generalizing ring with
  | nil => rfl
  | cons op l₁ ih => exact ih _

theorem ringRun_refines (h : InBounds ring) (ops : List RingOp) (hx : PushesExact ring ops) :
    ringResults ring ops = queueResults (ring.size.toNat - 1) (contents ring) ops
      ∧ contents (ringRun ring ops) = queueRun (ring.size.toNat - 1) (contents ring) ops := by
  induction ops generalizing ring with
  | nil => exact ⟨rfl, rfl⟩
  | cons op ops ih =>
    have hstep : (ringStep ring op).2 = (queueStep (ring.size.toNat - 1) (contents ring) op).2
        ∧ contents (ringStep ring op).1
          = (queueStep (ring.size.toNat - 1) (contents ring) op).1 := by
      cases op with
      | push data => exact ringStep_push_refines h hx.1 data
      | pop => exact ringStep_pop_refines h _
    have hrest : PushesExact (ringStep ring op).1 ops := by
      cases op with
      | push data => exact hx.2
      | pop => exact hx
    obtain ⟨hres, hcon⟩ := ih (ringStep_inBounds h op) hrest
    rw [ringStep_size, hstep.2] at hres hcon
    refine ⟨?_, hcon⟩
    rw [ringResults, queueResults, hstep.1, hres]

theorem pushesExact_of_results (h : InBounds ring) (ops : List RingOp) (hres : ringResults ring ops
      = queueResults (ring.size.toNat - 1) (contents ring) ops) :
    PushesExact ring ops := by
  induction ops generalizing ring with
  | nil => trivial
  | cons op ops ih =>
    obtain ⟨hhd, htl⟩ := List.cons.inj hres
    have hin := ringStep_inBounds h op
    cases op with
    | push data =>
      have hx : PushExact ring := by
        by_contra hc
        exact ringStep_push_differs h hc data hhd
      refine ⟨hx, ih hin ?_⟩
      rw [ringStep_size, (ringStep_push_refines h hx data).2]
      exact htl
    | pop =>
      refine ih hin ?_
      rw [ringStep_size, (ringStep_pop_refines h (ring.size.toNat - 1)).2]
      exact htl

end Run

theorem kRingInit_ok (argsChecks : Bool) (ring : KRing) (buffer : Nat → UInt8)
    {size : UInt8} (hsize : size ≠ 0) :
    (kRingInit argsChecks ring buffer size).2 = 0
      ∧ InBounds (kRingInit argsChecks ring buffer size).1
      ∧ contents (kRingInit argsChecks ring buffer size).1 = []
      ∧ (kRingInit argsChecks ring buffer size).1.size = size := by
  have hu : zUser argsChecks (size != 0) = true := by
    cases argsChecks with
    | false => rfl
    | true => simpa [zUser] using hsize
  have hpos : 0 < size.toNat := by
    have h1 : size.toNat ≠ 0 := fun hc => hsize (UInt8.toNat_inj.mp hc)
    omega
  rw [kRingInit, hu]
  exact ⟨rfl, ⟨hpos, hpos⟩, rfl, rfl⟩

/-- **THE RING IS A FIFO exactly as long as no push meets a ring whose
    wrapped cursors spoil the full test.** -/
theorem kRing_fifo_iff (argsChecks : Bool) (ring : KRing)
    (buffer : Nat → UInt8) {size : UInt8} (hsize : size ≠ 0)
    (ops : List RingOp) :
    FifoRun (size.toNat - 1) (kRingInit argsChecks ring buffer size).1 [] ops
      ↔ PushesExact (kRingInit argsChecks ring buffer size).1 ops := by
  obtain ⟨-, hin, hnil, hsz⟩ := kRingInit_ok argsChecks ring buffer hsize
  constructor
  · intro h
    refine pushesExact_of_results hin ops ?_
    rw [hsz, hnil]
    exact h.results
  · intro h
    obtain ⟨hres, hcon⟩ := ringRun_refines hin ops h
    rw [hsz, hnil] at hres hcon
    refine ⟨hres, hcon, fun pre _ => ringRun_inBounds hin pre, ?_⟩
    intro pre data _ hret
    rw [ringRun_append]
    exact kRingPush_unchanged data hret

/-- Three bytes of buffer, one call after the other: the push of `4` finds
    two of two bytes stored, is accepted, and empties the ring. -/
theorem kRing_not_fifo :
    let ring := (kRingInit true ⟨fun _ => 0, 0, 0, 0⟩ (fun _ => 0) 3).1
    let ops := [RingOp.push 1, .push 2, .pop, .push 3, .push 4, .pop]
    ringResults ring ops = [(0, none), (0, none), (0, some 1), (0, none),
        (0, none), (-EAGAIN, none)]
      ∧ queueResults 2 [] ops = [(0, none), (0, none), (0, some 1), (0, none),
        (-ENOMEM, none), (0, some 2)]
      ∧ ¬ FifoRun 2 ring [] ops := by
  refine ⟨by decide, by decide, ?_⟩
  intro h
  exact absurd h.results (by decide)

/-- Without a wrap-around the ring serves two pushes and their pops. -/
theorem kRing_fifo_iff_two :
    let ring := (kRingInit true ⟨fun _ => 0, 0, 0, 0⟩ (fun _ => 0) 3).1
    FifoRun 2 ring [] [.push 1, .push 2, .pop, .pop, .pop] := by
  refine (kRing_fifo_iff true _ _ (show (3 : UInt8) ≠ 0 by decide) _).mpr ?_
  simp only [PushesExact, and_true]
  decide

end AvrtosRingBuffer
