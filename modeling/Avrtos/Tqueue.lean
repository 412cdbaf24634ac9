import Avrtos.Base.Cells
import Avrtos.Base.DeltaList
import Avrtos.Base.LinkedChain
import Avrtos.Defines

/-! # `dstruct/tqueue.c`: the delta time queue

    The functions walk a pointer to a pointer; on delta lists they are those of `DeltaList`. -/

namespace AvrtosTqueue

open List hiding Chain next prev span
open Function AvrtosDefines Cells LinkedChain DeltaList

/-- `struct titem`. -/
structure TItem (α : Type) where
  delayShift : Nat
  next : Option α
deriving DecidableEq, Repr

variable {σ α : Type} [CellStore σ α (TItem α)]

/-- `item->delay_shift`. -/
def delayShift (m : σ) (a : α) : Nat :=
  (CellStore.load m a : TItem α).delayShift

/-- `item->next`. -/
def nextItem (m : σ) (a : α) : Option α := (CellStore.load m a : TItem α).next

/-- `item->delay_shift = d`. -/
def setDelayShift (m : σ) (a : α) (d : Nat) : σ :=
  CellStore.store m a { (CellStore.load m a : TItem α) with delayShift := d }

/-- `item->next = n`. -/
def setNextItem (m : σ) (a : α) (n : Option α) : σ :=
  CellStore.store m a { (CellStore.load m a : TItem α) with next := n }

def deltaSub (w a b : Nat) : Nat := (a + 2 ^ w - b) % 2 ^ w

def deltaAdd (w a b : Nat) : Nat := (a + b) % 2 ^ w

/-- A queue. -/
structure TQueue (σ α : Type) where
  mem : σ
  root : Option α
  wrapped : Bool
  stuck : Bool

inductive Slot (α : Type) where
  | root
  | next (a : α)
deriving DecidableEq, Repr

/-- `*slot`. -/
def TQueue.deref (q : TQueue σ α) : Slot α → Option α
  | .root => q.root
  | .next a => nextItem q.mem a

/-- `*slot = p`. -/
def TQueue.assign (q : TQueue σ α) (slot : Slot α) (p : Option α) : TQueue σ α :=
  match slot with
  | .root => { q with root := p }
  | .next a => { q with mem := setNextItem q.mem a p }

/-- `item->delay_shift -= d`. -/
def TQueue.subDelay (w : Nat) (q : TQueue σ α) (item : α) (d : Nat) :
    TQueue σ α :=
  { q with
    mem := setDelayShift q.mem item (deltaSub w (delayShift q.mem item) d)
    wrapped := q.wrapped || decide (delayShift q.mem item < d) }

/-- `item->delay_shift += d`. -/
def TQueue.addDelay (w : Nat) (q : TQueue σ α) (item : α) (d : Nat) :
    TQueue σ α :=
  { q with
    mem := setDelayShift q.mem item (deltaAdd w (delayShift q.mem item) d)
    wrapped := q.wrapped || decide (2 ^ w ≤ delayShift q.mem item + d) }

def zTqueueScheduleLoop (w : Nat) (item : α) :
    Nat → TQueue σ α → Slot α → TQueue σ α × Slot α
  | 0, q, slot =>
      match q.deref slot with
      | none => (q, slot)
      | some _ => ({ q with stuck := true }, slot)
  | fuel + 1, q, slot =>
      match q.deref slot with
      | none => (q, slot)
      | some cur =>
          -- items that expire at the same time keep their order: `<=`
          if delayShift q.mem cur ≤ delayShift q.mem item then
            let q := q.subDelay w item (delayShift q.mem cur)
            zTqueueScheduleLoop w item fuel q (.next cur)
          else
            let q := { q with mem := setNextItem q.mem item (some cur) }
            let q := q.subDelay w cur (delayShift q.mem item)
            (q, slot)

/-- `z_tqueue_schedule`, walking from a given place. -/
def zTqueueScheduleFrom (w fuel : Nat) (q : TQueue σ α) (slot : Slot α)
    (item : α) : TQueue σ α :=
  let r := zTqueueScheduleLoop w item fuel q slot
  r.1.assign r.2 (some item)

/-- `z_tqueue_schedule`. -/
def zTqueueSchedule (w fuel : Nat) (q : TQueue σ α) (item : α) : TQueue σ α :=
  zTqueueScheduleFrom w fuel q .root item

/-- `tqueue_schedule`. -/
def tqueueSchedule (w fuel : Nat) (q : TQueue σ α) (item : Option α)
    (timeout : Nat) : TQueue σ α :=
  match item with
  | none => q
  | some item =>
      -- last item doesn't have a "next" item
      let q := { q with mem := setNextItem q.mem item none }
      let q := { q with mem := setDelayShift q.mem item timeout }
      zTqueueSchedule w fuel q item

/-- The loop of `tqueue_shift`. -/
def tqueueShiftLoop (w : Nat) :
    Nat → TQueue σ α → Slot α → Nat → TQueue σ α
  | 0, q, slot, _ =>
      match q.deref slot with
      | none => q
      | some _ => { q with stuck := true }
  | fuel + 1, q, slot, timePassed =>
      match q.deref slot with
      | none => q
      | some cur =>
          let d := delayShift q.mem cur
          if d ≤ timePassed then
            if d ≠ 0 then
              let q := { q with
                mem := setDelayShift q.mem cur 0
                wrapped := q.wrapped || decide (timePassed < d) }
              tqueueShiftLoop w fuel q (.next cur) (deltaSub w timePassed d)
            else tqueueShiftLoop w fuel q (.next cur) timePassed
          else q.subDelay w cur timePassed

/-- `tqueue_shift`. -/
def tqueueShift (w fuel : Nat) (q : TQueue σ α) (timePassed : Nat) :
    TQueue σ α :=
  tqueueShiftLoop w fuel q .root timePassed

/-- `tqueue_pop`. -/
def tqueuePop (q : TQueue σ α) : TQueue σ α × Option α :=
  match q.root with
  | none => (q, none)
  | some item =>
      if delayShift q.mem item = 0 then
        ({ q with root := nextItem q.mem item }, some item)
      else (q, none)

/-- `tqueue_pop_reschedule`. -/
def tqueuePopReschedule (w fuel : Nat) (q : TQueue σ α) (timeout : Nat) :
    TQueue σ α × Option α :=
  let r := tqueuePop q
  match r.2 with
  | none => (r.1, none)
  | some item => (tqueueSchedule w fuel r.1 (some item) timeout, some item)

/-- The loop of `tqueue_remove`. -/
def tqueueRemoveLoop [DecidableEq α] (w : Nat) (item : Option α) :
    Nat → TQueue σ α → Slot α → TQueue σ α × Int
  | 0, q, slot =>
      match q.deref slot with
      | none => (q, -ENOENT)
      | some _ => ({ q with stuck := true }, -ENOENT)
  | fuel + 1, q, slot =>
      match q.deref slot with
      | none => (q, -ENOENT)
      | some cur =>
          if some cur = item then
            let q := q.assign slot (nextItem q.mem cur)
            -- add removed item remaining time to the next item if exists
            let q := match nextItem q.mem cur with
              | none => q
              | some n => q.addDelay w n (delayShift q.mem cur)
            ({ q with mem := setNextItem q.mem cur none }, 0)
          else tqueueRemoveLoop w item fuel q (.next cur)

/-- `tqueue_remove`. -/
def tqueueRemove [DecidableEq α] (argsChecks : Bool) (w fuel : Nat)
    (q : TQueue σ α) (item : Option α) : TQueue σ α × Int :=
  if !zUser argsChecks item.isSome then (q, -EINVAL)
  else tqueueRemoveLoop w item fuel q .root

/-- `tqueue_reschedule`. -/
def tqueueReschedule [DecidableEq α] (argsChecks : Bool) (w fuel : Nat)
    (q : TQueue σ α) (item : Option α) (timeout : Nat) : TQueue σ α × Int :=
  let r := tqueueRemove argsChecks w fuel q item
  if r.2 ≠ 0 then r
  else (tqueueSchedule w fuel r.1 item timeout, 0)

section Fields

variable [DecidableEq α] (m : σ) (a : α) (d : Nat) (n : Option α)

@[simp] theorem delayShift_setDelayShift : (delayShift (setDelayShift m a d) : α → Nat)
      = update (delayShift m) a d := by
  funext x
  by_cases hx : x = a
  · subst hx
    simp [delayShift, setDelayShift, CellStore.load_store_self]
  · simp [delayShift, setDelayShift, CellStore.load_store_of_ne _ _ _ _ hx, hx]

@[simp] theorem nextItem_setDelayShift :
    (nextItem (setDelayShift m a d) : α → Option α) = nextItem m := by
  funext x
  by_cases hx : x = a
  · subst hx
    simp [nextItem, setDelayShift, CellStore.load_store_self]
  · simp [nextItem, setDelayShift, CellStore.load_store_of_ne _ _ _ _ hx]

@[simp] theorem nextItem_setNextItem : (nextItem (setNextItem m a n) : α → Option α)
      = update (nextItem m) a n := by
  funext x
  by_cases hx : x = a
  · subst hx
    simp [nextItem, setNextItem, CellStore.load_store_self]
  · simp [nextItem, setNextItem, CellStore.load_store_of_ne _ _ _ _ hx, hx]

@[simp] theorem delayShift_setNextItem :
    (delayShift (setNextItem m a n) : α → Nat) = delayShift m := by
  funext x
  by_cases hx : x = a
  · subst hx
    simp [delayShift, setNextItem, CellStore.load_store_self]
  · simp [delayShift, setNextItem, CellStore.load_store_of_ne _ _ _ _ hx]

end Fields

theorem deltaSub_of_le {w a b : Nat} (hb : b ≤ a) (ha : a < 2 ^ w) : deltaSub w a b = a - b := by
  have h1 : a + 2 ^ w - b = a - b + 2 ^ w := by omega
  rw [deltaSub, h1, Nat.add_mod_right, Nat.mod_eq_of_lt (by omega)]

theorem deltaAdd_of_lt {w a b : Nat} (h : a + b < 2 ^ w) :
    deltaAdd w a b = a + b := Nat.mod_eq_of_lt h

structure RepAt (q : TQueue σ α) (slot : Slot α) (l : List (α × Nat)) : Prop where
  chain : Chain (nextItem q.mem) (q.deref slot) (l.map Prod.fst)
  delay : ∀ e ∈ l, delayShift q.mem e.1 = e.2

def Rep (q : TQueue σ α) (l : List (α × Nat)) : Prop := RepAt q .root l

def Slot.Outside (slot : Slot α) (l : List α) : Prop :=
  ∀ a, slot = .next a → a ∉ l

structure Frame (S : List α) (slot : Slot α) (q q' : TQueue σ α) : Prop where
  writes : Writes (TItem α) (fun x => x ∈ S ∨ slot = .next x) q.mem q'.mem
  delay : ∀ x, x ∉ S → delayShift q'.mem x = delayShift q.mem x
  root : slot ≠ .root → q'.root = q.root
  wrapped : q'.wrapped = q.wrapped
  stuck : q'.stuck = q.stuck

section Frames

variable {S S' : List α} {slot : Slot α} {q q' q'' : TQueue σ α} {x : α}

theorem Frame.refl (q : TQueue σ α) : Frame S slot q q :=
  ⟨Writes.refl _, fun _ _ => rfl, fun _ => rfl, rfl, rfl⟩

theorem Frame.trans (h : Frame S slot q q') (h' : Frame S slot q' q'') : Frame S slot q q'' where
  writes := h.writes.trans h'.writes
  delay := fun x hx => (h'.delay x hx).trans (h.delay x hx)
  root := fun hs => (h'.root hs).trans (h.root hs)
  wrapped := h'.wrapped.trans h.wrapped
  stuck := h'.stuck.trans h.stuck

theorem Frame.widen {a : α} (h : Frame S (.next a) q q') (ha : a ∈ S')
    (hS : ∀ x ∈ S, x ∈ S') : Frame S' slot q q' where
  writes := by
    refine h.writes.mono ?_
    rintro x (hx | hx)
    · exact Or.inl (hS x hx)
    · injection hx with hax
      exact Or.inl (hax ▸ ha)
  delay := fun x hx => h.delay x (fun hc => hx (hS x hc))
  root := fun _ => h.root (fun hc => nomatch hc)
  wrapped := h.wrapped
  stuck := h.stuck

theorem Frame.nextItem_eq (h : Frame S slot q q') (hS : x ∉ S)
    (hx : slot ≠ .next x) : nextItem q'.mem x = nextItem q.mem x := by
  have h1 : (CellStore.load q'.mem x : TItem α) = CellStore.load q.mem x :=
    h.writes.load_eq (by rintro (hc | hc); exacts [hS hc, hx hc])
  rw [nextItem, nextItem, h1]

theorem Frame.deref_eq {a : α} (h : Frame S (.next a) q q')
    (hout : slot.Outside (a :: S)) : q'.deref slot = q.deref slot := by
  cases slot with
  | root => exact h.root (fun hc => nomatch hc)
  | next b =>
    have hb := hout b rfl
    refine h.nextItem_eq (fun hc => hb (mem_cons_of_mem a hc)) ?_
    intro hc
    injection hc with hab
    exact hb (hab ▸ mem_cons_self ..)

end Frames

section Assign

variable [DecidableEq α] {S : List α} {slot : Slot α} (q : TQueue σ α)
variable (p : Option α)

@[simp] theorem deref_assign : (q.assign slot p).deref slot = p := by
  cases slot with
  | root => rfl
  | next a =>
      show nextItem (setNextItem q.mem a p) a = p
      rw [nextItem_setNextItem, update_self]

@[simp] theorem delayShift_assign :
    (delayShift (q.assign slot p).mem : α → Nat) = delayShift q.mem := by
  cases slot with
  | root => rfl
  | next a => exact delayShift_setNextItem q.mem a p

theorem nextItem_assign_of_ne {x : α} (hx : slot ≠ .next x) :
    nextItem (q.assign slot p).mem x = nextItem q.mem x := by
  cases slot with
  | root => rfl
  | next a =>
    have hxa : x ≠ a := fun hc => hx (by rw [hc])
    show nextItem (setNextItem q.mem a p) x = nextItem q.mem x
    rw [nextItem_setNextItem, update_of_ne hxa]

theorem frame_assign : Frame S slot q (q.assign slot p) := by
  refine ⟨?_, fun x _ => by rw [delayShift_assign], ?_, ?_, ?_⟩
  · cases slot with
    | root => exact Writes.refl _
    | next a => exact Writes.single (Or.inr rfl)
  · intro hs
    cases slot with
    | root => exact absurd rfl hs
    | next a => rfl
  · cases slot <;> rfl
  · cases slot <;> rfl

end Assign

theorem Rep.of_writes {β : Type} [CellStore σ α β] [Overlay σ α β (TItem α)]
    {S : α → Prop} {q : TQueue σ α} {l : List (α × Nat)} {m : σ} (h : Rep q l)
    (hw : Writes β S q.mem m) (hl : ∀ x ∈ l.map Prod.fst, ¬ S x) :
    Rep { q with mem := m } l := by
  have hload : ∀ x ∈ l.map Prod.fst, (CellStore.load m x : TItem α) = CellStore.load q.mem x :=
    fun x hx => hw.load_eq (hl x hx)
  refine ⟨h.chain.congr ?_, ?_⟩
  · intro x hx
    show (CellStore.load m x : TItem α).next = _
    rw [hload x hx]
    rfl
  · intro e he
    have hmem : e.1 ∈ l.map Prod.fst := mem_map_of_mem he
    show (CellStore.load m e.1 : TItem α).delayShift = e.2
    rw [hload e.1 hmem]
    exact h.delay e he

section Schedule

variable {w fuel t d : Nat} {q : TQueue σ α} {slot : Slot α}
variable {l : List (α × Nat)} {item a : α}

theorem subDelay_eq (h : d ≤ delayShift q.mem item) (hw : delayShift q.mem item < 2 ^ w) :
    q.subDelay w item d = { q with
      mem := setDelayShift q.mem item (delayShift q.mem item - d) } := by
  have h1 : decide (delayShift q.mem item < d) = false := by
    simp only [decide_eq_false_iff_not]
    omega
  rw [TQueue.subDelay, deltaSub_of_le h hw, h1, Bool.or_false]

theorem addDelay_eq (h : delayShift q.mem item + d < 2 ^ w) : q.addDelay w item d = { q with
      mem := setDelayShift q.mem item (delayShift q.mem item + d) } := by
  have h1 : decide (2 ^ w ≤ delayShift q.mem item + d) = false := by
    simp only [decide_eq_false_iff_not]
    omega
  rw [TQueue.addDelay, deltaAdd_of_lt h, h1, Bool.or_false]

theorem RepAt.tail (h : RepAt q slot ((a, d) :: l)) : RepAt q (.next a) l :=
  ⟨h.chain.2, fun e he => h.delay e (mem_cons_of_mem _ he)⟩

private theorem scheduleLoop_end (h : q.deref slot = none) :
    zTqueueScheduleLoop w item fuel q slot = (q, slot) := by
  cases fuel with
  | zero => rw [zTqueueScheduleLoop, h]
  | succ fuel => rw [zTqueueScheduleLoop, h]

private theorem scheduleFrom_pass (h : q.deref slot = some a)
    (hle : delayShift q.mem a ≤ delayShift q.mem item) :
    zTqueueScheduleFrom w (fuel + 1) q slot item
      = zTqueueScheduleFrom w fuel (q.subDelay w item (delayShift q.mem a)) (.next a) item := by
  rw [zTqueueScheduleFrom, zTqueueScheduleLoop, h]
  simp only [if_pos hle]
  rfl

variable [DecidableEq α]

theorem frame_setDelayShift {S : List α} (ha : a ∈ S) :
    Frame S slot q { q with mem := setDelayShift q.mem a d } := by
  refine ⟨Writes.single (Or.inl ha), ?_, fun _ => rfl, rfl, rfl⟩
  intro x hx
  have hxa : x ≠ a := by
    rintro rfl
    exact hx ha
  show delayShift (setDelayShift q.mem a d) x = delayShift q.mem x
  rw [delayShift_setDelayShift, update_of_ne hxa]

theorem frame_setNextItem {S : List α} {n : Option α} (ha : a ∈ S) :
    Frame S slot q { q with mem := setNextItem q.mem a n } := by
  refine ⟨Writes.single (Or.inl ha), ?_, fun _ => rfl, rfl, rfl⟩
  intro x _
  show delayShift (setNextItem q.mem a n) x = delayShift q.mem x
  rw [delayShift_setNextItem]

theorem RepAt.setDelayShift (h : RepAt q slot l) (ha : a ∉ l.map Prod.fst) :
    RepAt { q with mem := setDelayShift q.mem a d } slot l := by
  have hnext : (nextItem (AvrtosTqueue.setDelayShift q.mem a d) : α → Option α)
      = nextItem q.mem := nextItem_setDelayShift q.mem a d
  refine ⟨?_, ?_⟩
  · have hderef : ({ q with mem := AvrtosTqueue.setDelayShift q.mem a d } :
        TQueue σ α).deref slot = q.deref slot := by
      cases slot with
      | root => rfl
      | next b => exact congrFun hnext b
    rw [hderef]
    show Chain (nextItem (AvrtosTqueue.setDelayShift q.mem a d)) _ _
    rw [hnext]
    exact h.chain
  · intro e he
    have hne : e.1 ≠ a := by
      rintro rfl
      exact ha (mem_map_of_mem he)
    show delayShift (AvrtosTqueue.setDelayShift q.mem a d) e.1 = e.2
    rw [delayShift_setDelayShift, update_of_ne hne]
    exact h.delay e he

private theorem scheduleFrom_stop (h : q.deref slot = some a)
    (hle : ¬ delayShift q.mem a ≤ delayShift q.mem item) :
    zTqueueScheduleFrom w (fuel + 1) q slot item
      = (({ q with mem := setNextItem q.mem item (some a) } : TQueue σ α).subDelay
          w a (delayShift q.mem item)).assign slot (some item) := by
  rw [zTqueueScheduleFrom, zTqueueScheduleLoop, h]
  simp only [if_neg hle, delayShift_setNextItem]

private theorem chain_assign {n : Option α} {k : List α} {q₁ : TQueue σ α}
    (h : Chain (nextItem q.mem) n k)
    (hout : slot.Outside (item :: k))
    (hitem : nextItem q₁.mem item = n)
    (hnext : ∀ x ∈ k, nextItem q₁.mem x = nextItem q.mem x) :
    Chain (nextItem (q₁.assign slot (some item)).mem)
      ((q₁.assign slot (some item)).deref slot) (item :: k) := by
  refine ⟨deref_assign q₁ (some item), ?_⟩
  have hslot : ∀ x ∈ item :: k, slot ≠ .next x := fun x hx hc => hout x hc hx
  rw [nextItem_assign_of_ne q₁ _ (hslot item mem_cons_self), hitem]
  refine h.congr ?_
  intro x hx
  rw [nextItem_assign_of_ne q₁ _ (hslot x (mem_cons_of_mem item hx)), hnext x hx]

private theorem scheduleFrom_stop_spec (h : RepAt q slot ((a, d) :: l))
    (hitem : item ∉ ((a, d) :: l).map Prod.fst)
    (hout : slot.Outside (item :: ((a, d) :: l).map Prod.fst))
    (ht : delayShift q.mem item = t) (hlt : t < d) (hd : d < 2 ^ w) :
    RepAt (zTqueueScheduleFrom w (fuel + 1) q slot item) slot ((item, t) :: (a, d - t) :: l)
      ∧ Frame (item :: ((a, d) :: l).map Prod.fst) slot q
          (zTqueueScheduleFrom w (fuel + 1) q slot item) := by
  have hda : delayShift q.mem a = d := h.delay (a, d) mem_cons_self
  have hal : a ∉ l.map Prod.fst := (nodup_cons.mp h.chain.nodup).1
  have hia : a ≠ item := by
    rintro rfl
    exact hitem mem_cons_self
  have hda' : delayShift (setNextItem q.mem item (some a)) a = d := by
    rw [delayShift_setNextItem]
    exact hda
  rw [scheduleFrom_stop h.chain.1 (by rw [hda, ht]; omega), ht,
    subDelay_eq (by show t ≤ delayShift (setNextItem q.mem item (some a)) a; omega)
      (by show delayShift (setNextItem q.mem item (some a)) a < 2 ^ w; omega)]
  simp only [hda']
  refine ⟨⟨?_, ?_⟩, ?_⟩
  · have hc : Chain (nextItem q.mem) (some a) (a :: l.map Prod.fst) := ⟨rfl, h.chain.2⟩
    refine chain_assign hc hout ?_ ?_
    · show nextItem (setDelayShift (setNextItem q.mem item (some a)) a _) item = some a
      rw [nextItem_setDelayShift, nextItem_setNextItem, update_self]
    · intro x hx
      have hxi : x ≠ item := by
        rintro rfl
        exact hitem hx
      show nextItem (setDelayShift (setNextItem q.mem item (some a)) a _) x = _
      rw [nextItem_setDelayShift, nextItem_setNextItem, update_of_ne hxi]
  · intro e he
    rw [delayShift_assign]
    show delayShift (setDelayShift (setNextItem q.mem item (some a)) a _) e.1 = e.2
    rw [delayShift_setDelayShift, delayShift_setNextItem]
    rcases mem_cons.mp he with heq | hmem
    · rw [heq, update_of_ne hia.symm]
      exact ht
    rcases mem_cons.mp hmem with heq | hmem'
    · rw [heq, update_self]
    · have hea : e.1 ≠ a := by
        rintro rfl
        exact hal (mem_map_of_mem hmem')
      rw [update_of_ne hea]
      exact h.delay e (mem_cons_of_mem _ hmem')
  · have hfn : Frame (item :: a :: l.map Prod.fst) slot q
        { q with mem := setNextItem q.mem item (some a) } :=
      frame_setNextItem mem_cons_self
    refine (hfn.trans ?_).trans (frame_assign _ (some item))
    exact frame_setDelayShift (q := { q with mem := setNextItem q.mem item (some a) })
      (mem_cons_of_mem _ mem_cons_self)

theorem zTqueueScheduleFrom_spec (h : RepAt q slot l) (hitem : item ∉ l.map Prod.fst)
    (hout : slot.Outside (item :: l.map Prod.fst)) (hfuel : l.length ≤ fuel)
    (ht : delayShift q.mem item = t) (htw : t < 2 ^ w) (hlw : span l < 2 ^ w)
    (hnext : nextItem q.mem item = none) :
    RepAt (zTqueueScheduleFrom w fuel q slot item) slot (insertDelta item t l)
      ∧ Frame (item :: l.map Prod.fst) slot q (zTqueueScheduleFrom w fuel q slot item) := by
  induction l generalizing q slot fuel t with
  | nil =>
    have hend : q.deref slot = none := h.chain
    have hq' : zTqueueScheduleFrom w fuel q slot item = q.assign slot (some item) := by
      rw [zTqueueScheduleFrom, scheduleLoop_end hend]
    rw [hq']
    refine ⟨⟨?_, ?_⟩, frame_assign q (some item)⟩
    · exact chain_assign (q := q) (k := []) rfl hout hnext (fun x hx => nomatch hx)
    · intro e he
      rcases mem_cons.mp he with heq | hmem
      · rw [heq, delayShift_assign]
        exact ht
      · exact nomatch hmem
  | cons hd l ih =>
    obtain ⟨a, d⟩ := hd
    obtain ⟨fuel, rfl, hfuel'⟩ := exists_fuel hfuel
    have hda : delayShift q.mem a = d := h.delay (a, d) mem_cons_self
    have hspan : span ((a, d) :: l) = d + span l := rfl
    have hnd : (a :: l.map Prod.fst).Nodup := h.chain.nodup
    have hal : a ∉ l.map Prod.fst := (nodup_cons.mp hnd).1
    have hia : a ≠ item := by
      rintro rfl
      exact hitem mem_cons_self
    have hil : item ∉ l.map Prod.fst := fun hc =>
      hitem (mem_cons_of_mem a hc)
    rw [insertDelta]
    by_cases hle : d ≤ t
    · rw [if_pos hle, scheduleFrom_pass h.chain.1 (by rw [hda, ht]; exact hle),
        hda, subDelay_eq (by rw [ht]; exact hle) (by rw [ht]; exact htw), ht]
      -- the walk goes on behind `a` with the rest of the item's time
      have hitem' : item ∉ ((a, d) :: l).map Prod.fst := hitem
      have h1 := (h.setDelayShift (d := t - d) hitem').tail
      have hf1 : Frame (item :: a :: l.map Prod.fst) slot q
          { q with mem := setDelayShift q.mem item (t - d) } :=
        frame_setDelayShift mem_cons_self
      obtain ⟨hrep, hframe⟩ := ih (t := t - d) h1 hil (by
          intro b hb hc
          injection hb with hab
          subst hab
          rcases mem_cons.mp hc with heq | hmem
          · exact hia heq
          · exact hal hmem)
        hfuel'
        (by
          show delayShift (setDelayShift q.mem item (t - d)) item = t - d
          rw [delayShift_setDelayShift, update_self])
        (by omega) (by omega)
        (by
          show nextItem (setDelayShift q.mem item (t - d)) item = none
          rw [nextItem_setDelayShift]
          exact hnext)
      have hout' : slot.Outside (a :: item :: l.map Prod.fst) := by
        intro b hb hc
        refine hout b hb ?_
        simp only [map_cons, mem_cons] at hc ⊢
        tauto
      have hslot := hframe.deref_eq hout'
      refine ⟨⟨⟨?_, hrep.chain⟩, ?_⟩, hf1.trans (hframe.widen ?_ ?_)⟩
      · rw [hslot]
        cases slot with
        | root => exact h.chain.1
        | next b =>
          show nextItem (setDelayShift q.mem item (t - d)) b = some a
          rw [nextItem_setDelayShift]
          exact h.chain.1
      · intro e he
        rcases mem_cons.mp he with heq | hmem
        · have haS : a ∉ item :: l.map Prod.fst := by
            intro hc
            rcases mem_cons.mp hc with heq' | hmem'
            · exact hia heq'
            · exact hal hmem'
          rw [heq]
          show delayShift _ a = d
          rw [hframe.delay a haS]
          show delayShift (setDelayShift q.mem item (t - d)) a = d
          rw [delayShift_setDelayShift, update_of_ne hia]
          exact hda
        · exact hrep.delay e hmem
      · simp
      · intro x hx
        simp only [mem_cons] at hx ⊢
        tauto
    · rw [if_neg hle]
      exact scheduleFrom_stop_spec h hitem hout ht (by omega) (by omega)

theorem zTqueueSchedule_spec (h : Rep q l) (hitem : item ∉ l.map Prod.fst)
    (hfuel : l.length ≤ fuel) (ht : delayShift q.mem item = t)
    (htw : t < 2 ^ w) (hlw : span l < 2 ^ w)
    (hnext : nextItem q.mem item = none) :
    Rep (zTqueueSchedule w fuel q item) (insertDelta item t l)
      ∧ Frame (item :: l.map Prod.fst) .root q (zTqueueSchedule w fuel q item) :=
  zTqueueScheduleFrom_spec h hitem (fun _ hc => nomatch hc) hfuel ht htw hlw hnext

theorem tqueueSchedule_spec (h : Rep q l) (hitem : item ∉ l.map Prod.fst)
    (hfuel : l.length ≤ fuel) (htw : t < 2 ^ w) (hlw : span l < 2 ^ w) :
    Rep (tqueueSchedule w fuel q (some item) t) (insertDelta item t l)
      ∧ Frame (item :: l.map Prod.fst) .root q (tqueueSchedule w fuel q (some item) t) := by
  have hn : ∀ x ∈ l.map Prod.fst, nextItem
      (setDelayShift (setNextItem q.mem item none) item t) x = nextItem q.mem x := by
    intro x hx
    have hxi : x ≠ item := by
      rintro rfl
      exact hitem hx
    rw [nextItem_setDelayShift, nextItem_setNextItem, update_of_ne hxi]
  have h1 : Rep { q with mem := setDelayShift (setNextItem q.mem item none) item t }
      l := by
    refine ⟨h.chain.congr hn, ?_⟩
    intro e he
    have hei : e.1 ≠ item := by
      rintro rfl
      exact hitem (mem_map_of_mem he)
    show delayShift (setDelayShift (setNextItem q.mem item none) item t) e.1 = e.2
    rw [delayShift_setDelayShift, delayShift_setNextItem, update_of_ne hei]
    exact h.delay e he
  obtain ⟨hrep, hframe⟩ := zTqueueSchedule_spec h1 hitem hfuel (t := t) (by
      show delayShift (setDelayShift (setNextItem q.mem item none) item t) item = t
      rw [delayShift_setDelayShift, update_self])
    htw hlw
    (by
      show nextItem (setDelayShift (setNextItem q.mem item none) item t) item = none
      rw [nextItem_setDelayShift, nextItem_setNextItem, update_self])
  refine ⟨hrep, Frame.trans ?_ hframe⟩
  have hf1 : Frame (item :: l.map Prod.fst) .root q { q with mem := setNextItem q.mem item none } :=
    frame_setNextItem mem_cons_self
  exact hf1.trans (frame_setDelayShift
    (q := { q with mem := setNextItem q.mem item none }) mem_cons_self)

end Schedule

section Shift

variable {w fuel t : Nat} {q : TQueue σ α} {slot : Slot α} {l : List (α × Nat)}

private theorem shiftLoop_end (h : q.deref slot = none) : tqueueShiftLoop w fuel q slot t = q := by
  cases fuel with
  | zero => rw [tqueueShiftLoop, h]
  | succ fuel => rw [tqueueShiftLoop, h]

variable [DecidableEq α]

theorem tqueueShiftLoop_spec (h : RepAt q slot l) (hfuel : l.length ≤ fuel)
    (htw : t < 2 ^ w) (hlw : span l < 2 ^ w) :
    (∀ e ∈ shiftDelta t l, delayShift (tqueueShiftLoop w fuel q slot t).mem e.1 = e.2)
      ∧ (nextItem (tqueueShiftLoop w fuel q slot t).mem : α → Option α) = nextItem q.mem
      ∧ (tqueueShiftLoop w fuel q slot t).root = q.root
      ∧ Frame (l.map Prod.fst) slot q (tqueueShiftLoop w fuel q slot t) := by
  induction l generalizing q slot fuel t with
  | nil =>
    rw [shiftLoop_end h.chain]
    exact ⟨fun e he => (nomatch he), rfl, rfl, Frame.refl q⟩
  | cons hd l ih =>
    obtain ⟨a, d⟩ := hd
    obtain ⟨fuel, rfl, hfuel'⟩ := exists_fuel hfuel
    have hda : delayShift q.mem a = d := h.delay (a, d) mem_cons_self
    have hspan : span ((a, d) :: l) = d + span l := rfl
    have hal : a ∉ l.map Prod.fst := (nodup_cons.mp h.chain.nodup).1
    rw [tqueueShiftLoop, h.chain.1, shiftDelta]
    simp only [hda]
    by_cases hle : d ≤ t
    · -- both branches go on behind `a` with a delay of zero stored at `a`
      have key : ∀ q₁ : TQueue σ α, RepAt q₁ (.next a) l → delayShift q₁.mem a = 0 →
          (nextItem q₁.mem : α → Option α) = nextItem q.mem →
          q₁.root = q.root → Frame (a :: l.map Prod.fst) slot q q₁ →
          (∀ e ∈ (a, 0) :: shiftDelta (t - d) l,
              delayShift (tqueueShiftLoop w fuel q₁ (.next a) (t - d)).mem e.1 = e.2)
            ∧ (nextItem (tqueueShiftLoop w fuel q₁ (.next a) (t - d)).mem :
                α → Option α) = nextItem q.mem
            ∧ (tqueueShiftLoop w fuel q₁ (.next a) (t - d)).root = q.root
            ∧ Frame (a :: l.map Prod.fst) slot q (tqueueShiftLoop w fuel q₁ (.next a) (t - d)) := by
        intro q₁ h₁ ha₁ hn₁ hr₁ hf₁
        obtain ⟨hd', hn', hr', hf'⟩ := ih (t := t - d) h₁ hfuel' (by omega) (by omega)
        refine ⟨?_, hn'.trans hn₁, hr'.trans hr₁, hf₁.trans (hf'.widen ?_ ?_)⟩
        · intro e he
          rcases mem_cons.mp he with heq | hmem
          · rw [heq, hf'.delay a hal]
            exact ha₁
          · exact hd' e hmem
        · exact mem_cons_self
        · intro x hx
          exact mem_cons_of_mem a hx
      rw [if_pos hle, if_pos hle]
      by_cases hd0 : d ≠ 0
      · have hwr : decide (t < d) = false := by
          simp only [decide_eq_false_iff_not]
          omega
        rw [if_pos hd0, hwr, Bool.or_false, deltaSub_of_le hle htw]
        refine key _ (h.tail.setDelayShift hal) ?_ ?_ rfl
          (frame_setDelayShift mem_cons_self)
        · show delayShift (setDelayShift q.mem a 0) a = 0
          rw [delayShift_setDelayShift, update_self]
        · exact nextItem_setDelayShift q.mem a 0
      · have hd0' : d = 0 := not_not.mp hd0
        rw [if_neg hd0]
        have hkey := key q h.tail (by rw [hda, hd0']) rfl rfl (Frame.refl q)
        rw [hd0', Nat.sub_zero] at hkey ⊢
        exact hkey
    · rw [if_neg hle, if_neg hle, subDelay_eq (by omega) (by omega), hda]
      refine ⟨?_, nextItem_setDelayShift q.mem a (d - t), rfl,
        frame_setDelayShift mem_cons_self⟩
      intro e he
      show delayShift (setDelayShift q.mem a (d - t)) e.1 = e.2
      rw [delayShift_setDelayShift]
      rcases mem_cons.mp he with heq | hmem
      · rw [heq, update_self]
      · have hea : e.1 ≠ a := by
          rintro rfl
          exact hal (mem_map_of_mem hmem)
        rw [update_of_ne hea]
        exact h.delay e (mem_cons_of_mem _ hmem)

theorem tqueueShift_spec (h : Rep q l) (hfuel : l.length ≤ fuel)
    (htw : t < 2 ^ w) (hlw : span l < 2 ^ w) :
    Rep (tqueueShift w fuel q t) (shiftDelta t l)
      ∧ Frame (l.map Prod.fst) .root q (tqueueShift w fuel q t) := by
  obtain ⟨hd, hn, hr, hf⟩ := tqueueShiftLoop_spec (t := t) h hfuel htw hlw
  refine ⟨⟨?_, hd⟩, hf⟩
  show Chain (nextItem (tqueueShift w fuel q t).mem) (tqueueShift w fuel q t).root _
  rw [map_fst_shiftDelta, tqueueShift, hn, hr]
  exact h.chain

end Shift

section Remove

variable {w fuel d : Nat} {q : TQueue σ α} {slot : Slot α}
variable {l : List (α × Nat)} {a x : α} {n : Option α}

theorem tqueuePop_spec (h : Rep q ((a, 0) :: l)) :
    tqueuePop q = ({ q with root := nextItem q.mem a }, some a)
      ∧ Rep { q with root := nextItem q.mem a } l := by
  have hroot : q.root = some a := h.chain.1
  have hda : delayShift q.mem a = 0 := h.delay (a, 0) mem_cons_self
  refine ⟨?_, h.chain.2, fun e he => h.delay e (mem_cons_of_mem _ he)⟩
  rw [tqueuePop, hroot]
  exact if_pos hda

theorem tqueuePop_nil (h : Rep q []) : tqueuePop q = (q, none) := by
  have hroot : q.root = none := h.chain
  rw [tqueuePop, hroot]

theorem tqueuePop_pending (h : Rep q ((a, d) :: l)) (hd : d ≠ 0) : tqueuePop q = (q, none) := by
  have hroot : q.root = some a := h.chain.1
  have hda : delayShift q.mem a = d := h.delay (a, d) mem_cons_self
  rw [tqueuePop, hroot]
  exact if_neg (by rw [hda]; exact hd)

variable [DecidableEq α]

theorem tqueueRemoveLoop_absent (h : RepAt q slot l)
    (hx : ∀ y ∈ l.map Prod.fst, some y ≠ n) (hfuel : l.length ≤ fuel) :
    tqueueRemoveLoop w n fuel q slot = (q, -ENOENT) := by
  induction l generalizing slot fuel with
  | nil =>
    have hend : q.deref slot = none := h.chain
    cases fuel with
    | zero => rw [tqueueRemoveLoop, hend]
    | succ fuel => rw [tqueueRemoveLoop, hend]
  | cons hd l ih =>
    obtain ⟨a, d⟩ := hd
    obtain ⟨fuel, rfl, hfuel'⟩ := exists_fuel hfuel
    rw [tqueueRemoveLoop, h.chain.1]
    simp only [if_neg (hx a mem_cons_self)]
    exact ih h.tail (fun y hy => hx y (mem_cons_of_mem a hy)) hfuel'

theorem deref_setNextItem_of_ne (hs : slot ≠ .next a) :
    ({ q with mem := setNextItem q.mem a n } : TQueue σ α).deref slot = q.deref slot := by
  cases slot with
  | root => rfl
  | next b =>
    have hba : b ≠ a := fun hc => hs (by rw [hc])
    show nextItem (setNextItem q.mem a n) b = nextItem q.mem b
    rw [nextItem_setNextItem, update_of_ne hba]

private theorem unlink_spec (h : RepAt q slot ((a, d) :: l))
    (hout : slot.Outside (a :: l.map Prod.fst)) (hlw : d + span l < 2 ^ w) :
    RepAt (tqueueRemoveLoop w (some a) (fuel + 1) q slot).1 slot (prependDelay d l)
      ∧ (tqueueRemoveLoop w (some a) (fuel + 1) q slot).2 = 0
      ∧ Frame (a :: l.map Prod.fst) slot q (tqueueRemoveLoop w (some a) (fuel + 1) q slot).1 := by
  have hda : delayShift q.mem a = d := h.delay (a, d) mem_cons_self
  have hal : a ∉ l.map Prod.fst := (nodup_cons.mp h.chain.nodup).1
  have hsa : slot ≠ .next a := fun hc => hout a hc mem_cons_self
  have hsl : ∀ y ∈ l.map Prod.fst, slot ≠ .next y := fun y hy hc =>
    hout y hc (mem_cons_of_mem a hy)
  rw [tqueueRemoveLoop, h.chain.1]
  simp only [if_true, nextItem_assign_of_ne q _ hsa, delayShift_assign, hda]
  cases l with
  | nil =>
    have hnext : nextItem q.mem a = none := h.chain.2
    simp only [hnext]
    refine ⟨⟨?_, fun e he => nomatch he⟩, trivial,
      (frame_assign q none).trans (frame_setNextItem mem_cons_self)⟩
    show ({ q.assign slot none with mem := _ } : TQueue σ α).deref slot = none
    rw [deref_setNextItem_of_ne hsa, deref_assign]
  | cons hd l =>
    obtain ⟨b, e⟩ := hd
    have hnext : nextItem q.mem a = some b := h.chain.2.1
    have hdb : delayShift q.mem b = e :=
      h.delay (b, e) (mem_cons_of_mem _ mem_cons_self)
    have hbl : b ∉ l.map Prod.fst := (nodup_cons.mp (nodup_cons.mp h.chain.nodup).2).1
    have hspan : span ((b, e) :: l) = e + span l := rfl
    have hdb' : delayShift (q.assign slot (some b)).mem b = e := by
      rw [delayShift_assign]
      exact hdb
    simp only [hnext]
    rw [addDelay_eq (by rw [hdb']; omega), hdb']
    have hab : b ≠ a := by
      rintro rfl
      exact hal mem_cons_self
    refine ⟨⟨⟨?_, ?_⟩, ?_⟩, trivial, ?_⟩
    · rw [deref_setNextItem_of_ne (q := { q.assign slot (some b) with
          mem := setDelayShift (q.assign slot (some b)).mem b (e + d) }) hsa]
      cases slot with
      | root => rfl
      | next c =>
        show nextItem (setDelayShift (q.assign (.next c) (some b)).mem b _) c = some b
        rw [nextItem_setDelayShift]
        show (q.assign (.next c) (some b)).deref (.next c) = some b
        exact deref_assign q (some b)
    · have hlinks : ∀ y ∈ b :: l.map Prod.fst,
          nextItem (setNextItem (setDelayShift (q.assign slot (some b)).mem b
            (e + d)) a none) y = nextItem q.mem y := by
        intro y hy
        have hya : y ≠ a := by
          rintro rfl
          exact hal hy
        rw [nextItem_setNextItem, update_of_ne hya,
          nextItem_setDelayShift, nextItem_assign_of_ne q _ (hsl y hy)]
      show Chain (nextItem (setNextItem (setDelayShift _ b (e + d)) a none)) _ _
      rw [hlinks b mem_cons_self]
      exact h.chain.2.2.congr (fun y hy => hlinks y (mem_cons_of_mem b hy))
    · intro z hz
      show delayShift (setNextItem (setDelayShift (q.assign slot (some b)).mem b
        (e + d)) a none) z.1 = z.2
      rw [delayShift_setNextItem, delayShift_setDelayShift, delayShift_assign]
      rcases mem_cons.mp hz with heq | hmem
      · rw [heq, update_self]
      · have hzb : z.1 ≠ b := by
          rintro rfl
          exact hbl (mem_map_of_mem hmem)
        rw [update_of_ne hzb]
        exact h.delay z (mem_cons_of_mem _ (mem_cons_of_mem _ hmem))
    · refine (frame_assign q (some b)).trans (Frame.trans ?_
        (frame_setNextItem mem_cons_self))
      exact frame_setDelayShift (q := q.assign slot (some b))
        (mem_cons_of_mem a mem_cons_self)

theorem tqueueRemoveLoop_present (h : RepAt q slot l) (hx : x ∈ l.map Prod.fst)
    (hout : slot.Outside (l.map Prod.fst)) (hfuel : l.length ≤ fuel)
    (hlw : span l < 2 ^ w) :
    RepAt (tqueueRemoveLoop w (some x) fuel q slot).1 slot (removeDelta x l)
      ∧ (tqueueRemoveLoop w (some x) fuel q slot).2 = 0
      ∧ Frame (l.map Prod.fst) slot q (tqueueRemoveLoop w (some x) fuel q slot).1 := by
  induction l generalizing slot fuel with
  | nil => exact nomatch hx
  | cons hd l ih =>
    obtain ⟨a, d⟩ := hd
    obtain ⟨fuel, rfl, hfuel'⟩ := exists_fuel hfuel
    have hspan : span ((a, d) :: l) = d + span l := rfl
    have hal : a ∉ l.map Prod.fst := (nodup_cons.mp h.chain.nodup).1
    rw [removeDelta]
    by_cases hax : a = x
    · subst hax
      rw [if_pos rfl]
      exact unlink_spec h hout (by omega)
    · have hxl : x ∈ l.map Prod.fst := by
        rcases mem_cons.mp hx with heq | hmem
        · exact absurd heq.symm hax
        · exact hmem
      have hne : some a ≠ some x := fun hc => hax (Option.some.inj hc)
      rw [if_neg hax, tqueueRemoveLoop, h.chain.1]
      simp only [if_neg hne]
      obtain ⟨hrep, hret, hframe⟩ := ih h.tail hxl (by
          intro b hb
          injection hb with hab
          rw [← hab]
          exact hal)
        hfuel' (by omega)
      refine ⟨⟨⟨?_, hrep.chain⟩, ?_⟩, hret, hframe.widen mem_cons_self ?_⟩
      · rw [hframe.deref_eq hout]
        exact h.chain.1
      · intro e he
        rcases mem_cons.mp he with heq | hmem
        · rw [heq, hframe.delay a hal]
          exact h.delay (a, d) mem_cons_self
        · exact hrep.delay e hmem
      · intro y hy
        exact mem_cons_of_mem a hy

theorem tqueueRemove_spec (argsChecks : Bool) (h : Rep q l)
    (hx : x ∈ l.map Prod.fst) (hfuel : l.length ≤ fuel) (hlw : span l < 2 ^ w) :
    Rep (tqueueRemove argsChecks w fuel q (some x)).1 (removeDelta x l)
      ∧ (tqueueRemove argsChecks w fuel q (some x)).2 = 0
      ∧ Frame (l.map Prod.fst) .root q (tqueueRemove argsChecks w fuel q (some x)).1 := by
  have hu : (!zUser argsChecks (some x).isSome) = false := by
    cases argsChecks <;> rfl
  rw [tqueueRemove, hu]
  exact tqueueRemoveLoop_present h hx (fun _ hc => nomatch hc) hfuel hlw

theorem tqueueRemove_absent (argsChecks : Bool) (h : Rep q l)
    (hx : x ∉ l.map Prod.fst) (hfuel : l.length ≤ fuel) :
    tqueueRemove argsChecks w fuel q (some x) = (q, -ENOENT) := by
  have hu : (!zUser argsChecks (some x).isSome) = false := by
    cases argsChecks <;> rfl
  rw [tqueueRemove, hu]
  refine tqueueRemoveLoop_absent h ?_ hfuel
  intro y hy hc
  exact hx (Option.some.inj hc ▸ hy)

end Remove

end AvrtosTqueue
