import Avrtos.Base.Runs
import Avrtos.Tqueue

/-! # The time queue keeps absolute deadlines

    `remaining` adds the differences up; each call does to it what a user expects. -/

namespace AvrtosTqueue

open AvrtosDefines Cells LinkedChain DeltaList

variable {σ α : Type} [CellStore σ α (TItem α)]

def deltasFrom (m : σ) : Nat → Option α → List (α × Nat)
  | _, none => []
  | 0, some _ => []
  | fuel + 1, some a => (a, delayShift m a) :: deltasFrom m fuel (nextItem m a)

theorem deltasFrom_eq {m : σ} {fuel : Nat} {p : Option α} {l : List (α × Nat)}
    (hc : Chain (nextItem m) p (l.map Prod.fst))
    (hd : ∀ e ∈ l, delayShift m e.1 = e.2) (hfuel : l.length ≤ fuel) :
    deltasFrom m fuel p = l := by
  induction l generalizing fuel p with
  | nil =>
    rw [show p = none from hc]
    cases fuel <;> rfl
  | cons e l ih =>
    obtain ⟨a, d⟩ := e
    obtain ⟨fuel, rfl, hfuel'⟩ := exists_fuel hfuel
    rw [hc.1, deltasFrom, hd (a, d) List.mem_cons_self]
    rw [ih hc.2 (fun e he => hd e (List.mem_cons_of_mem _ he)) hfuel']

/-- The calls on a time queue. -/
inductive TqOp (w : Nat) (α : Type) where
  | schedule (item : α) (timeout : BitVec w)
  | shift (timePassed : BitVec w)
  | pop
  | popReschedule (timeout : BitVec w)
  | reschedule (item : α) (timeout : BitVec w)
  | remove (item : α)

/-- What a call returns. -/
inductive TqRet (α : Type) where
  | void
  | item (p : Option α)
  | code (ret : Int)
deriving DecidableEq

section System

variable [DecidableEq α] [Fintype α] {w : Nat}

def remaining (q : TQueue σ α) : List (α × Nat) :=
  deadlines (deltasFrom q.mem (Fintype.card α) q.root)

def tqStep (argsChecks : Bool) (q : TQueue σ α) :
    TqOp w α → TQueue σ α × TqRet α
  | .schedule item timeout =>
      (tqueueSchedule w (Fintype.card α) q (some item) timeout.toNat, .void)
  | .shift timePassed =>
      (tqueueShift w (Fintype.card α) q timePassed.toNat, .void)
  | .pop => ((tqueuePop q).1, .item (tqueuePop q).2)
  | .popReschedule timeout =>
      let r := tqueuePopReschedule w (Fintype.card α) q timeout.toNat
      (r.1, .item r.2)
  | .reschedule item timeout =>
      let r := tqueueReschedule argsChecks w (Fintype.card α) q (some item)
        timeout.toNat
      (r.1, .code r.2)
  | .remove item =>
      let r := tqueueRemove argsChecks w (Fintype.card α) q (some item)
      (r.1, .code r.2)

def Legal (q : TQueue σ α) : TqOp w α → Prop
  | .schedule item _ => item ∉ (remaining q).map Prod.fst
  | _ => True

inductive TqReach (argsChecks : Bool) (w : Nat) : TQueue σ α → Prop
  | empty (m : σ) : TqReach argsChecks w ⟨m, none, false, false⟩
  | step {q : TQueue σ α} (op : TqOp w α) : TqReach argsChecks w q →
      Legal q op → TqReach argsChecks w (tqStep argsChecks q op).1

def InsertedAt (x : α) (t : Nat) (before after : List (α × Nat)) : Prop :=
  ∃ pre post, before = pre ++ post ∧ after = pre ++ (x, t) :: post
    ∧ (∀ e ∈ pre, e.2 ≤ t) ∧ (∀ e ∈ post, t < e.2)

def Serves (q q' : TQueue σ α) : TqOp w α → TqRet α → Prop
  | .schedule item timeout, _ =>
      InsertedAt item timeout.toNat (remaining q) (remaining q')
  | .shift timePassed, _ =>
      remaining q' = (remaining q).map fun e => (e.1, e.2 - timePassed.toNat)
  | .pop, ret =>
      match remaining q with
      | (a, 0) :: rest => ret = .item (some a) ∧ remaining q' = rest
      | _ => ret = .item none ∧ q' = q
  | .popReschedule timeout, ret =>
      match remaining q with
      | (a, 0) :: rest => ret = .item (some a)
          ∧ InsertedAt a timeout.toNat rest (remaining q')
      | _ => ret = .item none ∧ q' = q
  | .reschedule item timeout, ret =>
      if item ∈ (remaining q).map Prod.fst then
        ret = .code 0 ∧ InsertedAt item timeout.toNat
          ((remaining q).filter fun e => e.1 ≠ item) (remaining q')
      else ret = .code (-ENOENT) ∧ q' = q
  | .remove item, ret =>
      if item ∈ (remaining q).map Prod.fst then
        ret = .code 0
          ∧ remaining q' = (remaining q).filter fun e => e.1 ≠ item
      else ret = .code (-ENOENT) ∧ q' = q

structure TqInv (w : Nat) (q : TQueue σ α) (l : List (α × Nat)) : Prop where
  rep : Rep q l
  span_lt : span l < 2 ^ w
  wrapped : q.wrapped = false
  stuck : q.stuck = false

section Inv

variable {argsChecks : Bool} {q : TQueue σ α} {l : List (α × Nat)} {item : α}

omit [CellStore σ α (TItem α)] [DecidableEq α] in
private theorem length_le_card (h : (l.map Prod.fst).Nodup) : l.length ≤ Fintype.card α := by
  have h1 := h.length_le_card
  rw [List.length_map] at h1
  exact h1

omit [DecidableEq α] in
theorem TqInv.length_le (h : TqInv w q l) : l.length ≤ Fintype.card α :=
  length_le_card h.rep.chain.nodup

omit [DecidableEq α] in
theorem Rep.remaining_eq (h : Rep q l) : remaining q = deadlines l :=
  congrArg deadlines (deltasFrom_eq (p := q.root) h.chain h.delay (length_le_card h.chain.nodup))

omit [DecidableEq α] in
theorem TqInv.remaining_eq (h : TqInv w q l) : remaining q = deadlines l := Rep.remaining_eq h.rep

omit [DecidableEq α] in
theorem TqInv.mem_remaining (h : TqInv w q l) :
    item ∈ (remaining q).map Prod.fst ↔ item ∈ l.map Prod.fst := by
  rw [h.remaining_eq, map_fst_deadlines]

omit [DecidableEq α] [Fintype α] in
theorem TqInv.of_frame {S : List α} {q' : TQueue σ α} {l' : List (α × Nat)}
    (h : TqInv w q l) (hrep : Rep q' l') (hframe : Frame S .root q q')
    (hspan : span l' < 2 ^ w) : TqInv w q' l' :=
  ⟨hrep, hspan, hframe.wrapped.trans h.wrapped, hframe.stuck.trans h.stuck⟩

theorem TqInv.schedule (h : TqInv w q l) (hitem : item ∉ l.map Prod.fst) (timeout : BitVec w) :
    TqInv w (tqueueSchedule w (Fintype.card α) q (some item) timeout.toNat)
        (insertDelta item timeout.toNat l)
      ∧ InsertedAt item timeout.toNat (remaining q) (remaining
          (tqueueSchedule w (Fintype.card α) q (some item) timeout.toNat)) := by
  obtain ⟨hrep, hframe⟩ := tqueueSchedule_spec h.rep hitem h.length_le timeout.isLt h.span_lt
  have hinv := h.of_frame hrep hframe (by
    rw [span_insertDelta]
    exact Nat.max_lt.mpr ⟨timeout.isLt, h.span_lt⟩)
  refine ⟨hinv, ?_⟩
  rw [hinv.remaining_eq, h.remaining_eq]
  exact deadlines_insertDelta item timeout.toNat

theorem TqInv.remove (h : TqInv w q l) (argsChecks : Bool) (hitem : item ∈ l.map Prod.fst) :
    TqInv w (tqueueRemove argsChecks w (Fintype.card α) q (some item)).1 (removeDelta item l)
      ∧ (tqueueRemove argsChecks w (Fintype.card α) q (some item)).2 = 0
      ∧ remaining (tqueueRemove argsChecks w (Fintype.card α) q (some item)).1
          = (remaining q).filter fun e => e.1 ≠ item := by
  obtain ⟨hrep, hret, hframe⟩ := tqueueRemove_spec argsChecks h.rep hitem h.length_le h.span_lt
  have hinv := h.of_frame hrep hframe (Nat.lt_of_le_of_lt (span_removeDelta_le item l) h.span_lt)
  refine ⟨hinv, hret, ?_⟩
  rw [hinv.remaining_eq, h.remaining_eq]
  exact deadlines_removeDelta item h.rep.chain.nodup

omit [DecidableEq α] in
theorem TqInv.pop {a : α} (h : TqInv w q ((a, 0) :: l)) :
    (tqueuePop q).2 = some a ∧ TqInv w (tqueuePop q).1 l
      ∧ remaining q = (a, 0) :: remaining (tqueuePop q).1 := by
  obtain ⟨hpop, hrep⟩ := tqueuePop_spec h.rep
  have hspan : span ((a, 0) :: l) = 0 + span l := rfl
  have hlt := h.span_lt
  have hinv : TqInv w (tqueuePop q).1 l := by
    rw [hpop]
    exact ⟨hrep, by omega, h.wrapped, h.stuck⟩
  refine ⟨by rw [hpop], hinv, ?_⟩
  rw [hinv.remaining_eq, h.remaining_eq]
  rfl

omit [DecidableEq α] in
theorem TqInv.pop_none (h : TqInv w q l) (hl : ∀ a l', l ≠ (a, 0) :: l') :
    tqueuePop q = (q, none) ∧ ∀ a l', remaining q ≠ (a, 0) :: l' := by
  cases l with
  | nil =>
    refine ⟨tqueuePop_nil h.rep, ?_⟩
    intro a l' hc
    rw [h.remaining_eq] at hc
    exact nomatch hc
  | cons e l =>
    obtain ⟨a, d⟩ := e
    have hd : d ≠ 0 := fun hc => hl a l (by rw [hc])
    refine ⟨tqueuePop_pending h.rep hd, ?_⟩
    intro b l' hc
    rw [h.remaining_eq] at hc
    have h1 : (a, 0 + d) = (b, 0) := (List.cons.inj hc).1
    have h2 : 0 + d = 0 := congrArg Prod.snd h1
    exact hd (by omega)

theorem TqInv.popReschedule (h : TqInv w q l) (timeout : BitVec w) :
    ∃ l', TqInv w (tqStep argsChecks q (.popReschedule timeout)).1 l'
      ∧ Serves q (tqStep argsChecks q (.popReschedule timeout)).1 (.popReschedule timeout)
          (tqStep argsChecks q (.popReschedule timeout)).2 := by
  by_cases hl : ∃ a l', l = (a, 0) :: l'
  · obtain ⟨a, l', rfl⟩ := hl
    obtain ⟨hret, hinv, hrem⟩ := h.pop
    have ha : a ∉ l'.map Prod.fst := (List.nodup_cons.mp h.rep.chain.nodup).1
    obtain ⟨hinv', hins⟩ := hinv.schedule ha timeout
    have hstep : tqStep argsChecks q (.popReschedule timeout)
        = (tqueueSchedule w (Fintype.card α) (tqueuePop q).1 (some a)
            timeout.toNat, .item (some a)) := by
      simp only [tqStep, tqueuePopReschedule, hret]
    rw [hstep]
    refine ⟨_, hinv', ?_⟩
    simp only [Serves, hrem]
    exact ⟨trivial, hins⟩
  · have hl' : ∀ a l', l ≠ (a, 0) :: l' := fun a l' hc => hl ⟨a, l', hc⟩
    obtain ⟨hpop, hrem⟩ := h.pop_none hl'
    have hstep : tqStep argsChecks q (.popReschedule timeout) = (q, .item none) := by
      simp only [tqStep, tqueuePopReschedule, hpop]
    rw [hstep]
    refine ⟨l, h, ?_⟩
    simp only [Serves]
    exact ⟨trivial, trivial⟩

theorem TqInv.reschedule (h : TqInv w q l) (item : α) (timeout : BitVec w) :
    ∃ l', TqInv w (tqStep argsChecks q (.reschedule item timeout)).1 l'
      ∧ Serves q (tqStep argsChecks q (.reschedule item timeout)).1 (.reschedule item timeout)
          (tqStep argsChecks q (.reschedule item timeout)).2 := by
  by_cases hitem : item ∈ l.map Prod.fst
  · obtain ⟨hinv, hret, hrem⟩ := h.remove argsChecks hitem
    have hout : item ∉ (removeDelta item l).map Prod.fst := by
      rw [map_fst_removeDelta]
      exact h.rep.chain.nodup.not_mem_erase
    obtain ⟨hinv', hins⟩ := hinv.schedule hout timeout
    have hstep : tqStep argsChecks q (.reschedule item timeout) = (tqueueSchedule w (Fintype.card α)
            (tqueueRemove argsChecks w (Fintype.card α) q (some item)).1
            (some item) timeout.toNat, .code 0) := by
      simp only [tqStep, tqueueReschedule, hret, ne_eq, not_true_eq_false, if_false]
    rw [hstep]
    refine ⟨_, hinv', ?_⟩
    simp only [Serves, if_pos (h.mem_remaining.mpr hitem)]
    rw [hrem] at hins
    exact ⟨trivial, hins⟩
  · have habs := tqueueRemove_absent (w := w) argsChecks h.rep hitem h.length_le
    have hne : (-ENOENT : Int) ≠ 0 := by decide
    have hstep : tqStep argsChecks q (.reschedule item timeout) = (q, .code (-ENOENT)) := by
      simp only [tqStep, tqueueReschedule, habs, if_pos hne]
    rw [hstep]
    refine ⟨l, h, ?_⟩
    simp only [Serves, if_neg (fun hc => hitem (h.mem_remaining.mp hc))]
    exact ⟨trivial, trivial⟩

/-- **ONE CALL** keeps the invariant and serves the deadlines. -/
theorem tqStep_serves (h : TqInv w q l) (op : TqOp w α) (hop : Legal q op) :
    ∃ l', TqInv w (tqStep argsChecks q op).1 l'
      ∧ Serves q (tqStep argsChecks q op).1 op (tqStep argsChecks q op).2 := by
  cases op with
  | schedule item timeout =>
    have hitem : item ∉ l.map Prod.fst := fun hc => hop (h.mem_remaining.mpr hc)
    obtain ⟨hinv, hins⟩ := h.schedule hitem timeout
    exact ⟨_, hinv, hins⟩
  | shift timePassed =>
    obtain ⟨hrep, hframe⟩ := tqueueShift_spec h.rep h.length_le timePassed.isLt h.span_lt
    have hinv := h.of_frame hrep hframe (Nat.lt_of_le_of_lt (span_shiftDelta_le _ l) h.span_lt)
    refine ⟨_, hinv, ?_⟩
    show remaining (tqueueShift w (Fintype.card α) q timePassed.toNat) = _
    rw [hinv.remaining_eq, h.remaining_eq, deadlines_shiftDelta]
  | pop =>
    by_cases hl : ∃ a l', l = (a, 0) :: l'
    · obtain ⟨a, l', rfl⟩ := hl
      obtain ⟨hret, hinv, hrem⟩ := h.pop
      refine ⟨l', hinv, ?_⟩
      simp only [tqStep, Serves, hrem, hret]
      exact ⟨trivial, trivial⟩
    · have hl' : ∀ a l', l ≠ (a, 0) :: l' := fun a l' hc => hl ⟨a, l', hc⟩
      obtain ⟨hpop, hrem⟩ := h.pop_none hl'
      simp only [tqStep, hpop]
      refine ⟨l, h, ?_⟩
      simp only [Serves]
      exact ⟨trivial, trivial⟩
  | popReschedule timeout => exact h.popReschedule timeout
  | reschedule item timeout => exact h.reschedule item timeout
  | remove item =>
    by_cases hitem : item ∈ l.map Prod.fst
    · obtain ⟨hinv, hret, hrem⟩ := h.remove argsChecks hitem
      refine ⟨_, hinv, ?_⟩
      simp only [tqStep, Serves, if_pos (h.mem_remaining.mpr hitem), hret]
      exact ⟨trivial, hrem⟩
    · have habs := tqueueRemove_absent (w := w) argsChecks h.rep hitem h.length_le
      simp only [tqStep, habs]
      refine ⟨l, h, ?_⟩
      simp only [Serves, if_neg (fun hc => hitem (h.mem_remaining.mp hc))]
      exact ⟨trivial, trivial⟩

/-- **EVERY RUN** from an empty queue keeps the invariant. -/
theorem TqReach.inv (h : TqReach argsChecks w q) : ∃ l, TqInv w q l := by
  induction h with
  | empty m =>
    refine ⟨[], ⟨rfl, fun e he => nomatch he⟩, ?_, rfl, rfl⟩
    exact Nat.two_pow_pos w
  | step op _ hop ih =>
    obtain ⟨l, hl⟩ := ih
    obtain ⟨l', hl', -⟩ := tqStep_serves hl op hop
    exact ⟨l', hl'⟩

end Inv

/-- **THE TIME QUEUE IMPLEMENTS DEADLINES**: every call does to the remaining times what it
    should, and every walk ends. -/
theorem tqueue_serves_deadlines (argsChecks : Bool) {q : TQueue σ α}
    (h : TqReach argsChecks w q) (op : TqOp w α) (hop : Legal q op) :
    Serves q (tqStep argsChecks q op).1 op (tqStep argsChecks q op).2
      ∧ ((remaining (tqStep argsChecks q op).1).map Prod.fst).Nodup
      ∧ (tqStep argsChecks q op).1.wrapped = false
      ∧ (tqStep argsChecks q op).1.stuck = false := by
  obtain ⟨l, hl⟩ := h.inv
  obtain ⟨l', hl', hserves⟩ := tqStep_serves hl op hop
  refine ⟨hserves, ?_, hl'.wrapped, hl'.stuck⟩
  rw [hl'.remaining_eq, map_fst_deadlines]
  exact hl'.rep.chain.nodup

/-- Two items: the later one is scheduled first. -/
theorem tqueue_serves_deadlines_two :
    let q₀ : TQueue (Fin 2 → TItem (Fin 2)) (Fin 2) :=
      ⟨fun _ => ⟨0, none⟩, none, false, false⟩
    let q₁ := (tqStep true q₀ (.schedule 0 5 : TqOp 16 (Fin 2))).1
    let op : TqOp 16 (Fin 2) := .schedule 1 3
    remaining q₁ = [(0, 5)]
      ∧ remaining (tqStep true q₁ op).1 = [(1, 3), (0, 5)]
      ∧ Serves q₁ (tqStep true q₁ op).1 op .void := by
  refine ⟨by decide, by decide, ?_⟩
  refine (tqueue_serves_deadlines true
    (TqReach.step (.schedule 0 5) (TqReach.empty _) ?_) (.schedule 1 3) ?_).1
  · show (0 : Fin 2) ∉ _
    decide
  · show (1 : Fin 2) ∉ _
    decide

end System

end AvrtosTqueue
