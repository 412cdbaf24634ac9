import Avrtos.Dlist
import Avrtos.TqueueDeadlines

/-! # `dstruct/tdqueue.c`: the delta time queue on a doubly linked list

    Compared with `tqueue.c` call by call, through the delta list both stand for. -/

namespace AvrtosTdqueue

open List hiding Chain next prev span
open Function AvrtosDefines AvrtosDlist AvrtosTqueue Cells LinkedRing LinkedChain DeltaList Runs

structure TdItem (β : Type) where
  delayShift : Nat
  node : DNode β
deriving DecidableEq, Repr

variable {β : Type} [DecidableEq β]

instance nodeStore : CellStore (β → TdItem β) β (DNode β) where
  load := fun m a => (m a).node
  store := fun m a node => update m a { m a with node := node }
  load_store_self := fun m a node => by rw [update_self]
  load_store_of_ne := fun m a node x hx => by rw [update_of_ne hx]

/-- A queue. -/
structure TdQueue (β : Type) where
  mem : β → TdItem β
  stuck : Bool

def TdQueue.delay (q : TdQueue β) (node : β) : Nat := (q.mem node).delayShift

def TdQueue.setDelay (q : TdQueue β) (node : β) (d : Nat) : TdQueue β :=
  { q with mem := update q.mem node { q.mem node with delayShift := d } }

def TdQueue.insert (q : TdQueue β) (successor node : β) : TdQueue β :=
  { q with mem := dlistInsert q.mem successor node }

/-- `dlist_remove(node)`. -/
def TdQueue.unlink (q : TdQueue β) (node : β) : TdQueue β :=
  { q with mem := dlistRemove q.mem node }

def zTdqueueScheduleLoop (w : Nat) (tqueue item : β) :
    Nat → TdQueue β → β → TdQueue β
  | 0, q, node =>
      if node = tqueue then q.insert node item else { q with stuck := true }
  | fuel + 1, q, node =>
      if node = tqueue then q.insert node item
      else if q.delay node ≤ q.delay item then
        -- items that expire at the same time keep their order: `<=`
        let q := q.setDelay item (deltaSub w (q.delay item) (q.delay node))
        zTdqueueScheduleLoop w tqueue item fuel q (next q.mem node)
      else
        let q := q.insert node item
        q.setDelay node (deltaSub w (q.delay node) (q.delay item))

/-- `z_tdqueue_schedule`. -/
def zTdqueueSchedule (w fuel : Nat) (q : TdQueue β) (tqueue item : β) : TdQueue β :=
  zTdqueueScheduleLoop w tqueue item fuel q (next q.mem tqueue)

/-- `tdqueue_schedule`. -/
def tdqueueSchedule (w fuel : Nat) (q : TdQueue β) (tqueue : β) (item : Option β)
    (timeout : Nat) : TdQueue β :=
  match item with
  | none => q
  | some item =>
      let q := { q with mem := dlistInit q.mem item }
      let q := q.setDelay item timeout
      zTdqueueSchedule w fuel q tqueue item

/-- The loop of `tdqueue_shift`. -/
def tdqueueShiftLoop (w : Nat) (tqueue : β) :
    Nat → TdQueue β → β → Nat → TdQueue β
  | 0, q, node, _ => if node = tqueue then q else { q with stuck := true }
  | fuel + 1, q, node, timePassed =>
      if node = tqueue then q
      else
        let d := q.delay node
        if d ≤ timePassed then
          if d ≠ 0 then
            let q := q.setDelay node 0
            tdqueueShiftLoop w tqueue fuel q (next q.mem node) (deltaSub w timePassed d)
          else tdqueueShiftLoop w tqueue fuel q (next q.mem node) timePassed
        else q.setDelay node (deltaSub w d timePassed)

/-- `tdqueue_shift`. -/
def tdqueueShift (w fuel : Nat) (q : TdQueue β) (tqueue : β) (timePassed : Nat) :
    TdQueue β :=
  tdqueueShiftLoop w tqueue fuel q (next q.mem tqueue) timePassed

/-- `tdqueue_pop`. -/
def tdqueuePop (q : TdQueue β) (tqueue : β) : TdQueue β × Option β :=
  let head : β := next q.mem tqueue
  if q.delay head = 0 then (q.unlink head, some head) else (q, none)

/-- `tdqueue_pop_reschedule`. -/
def tdqueuePopReschedule (w fuel : Nat) (q : TdQueue β) (tqueue : β) (timeout : Nat) :
    TdQueue β × Option β :=
  let r := tdqueuePop q tqueue
  match r.2 with
  | none => (r.1, none)
  | some item => (tdqueueSchedule w fuel r.1 tqueue (some item) timeout, some item)

/-- `tdqueue_remove`. -/
def tdqueueRemove (w : Nat) (q : TdQueue β) (tqueue item : β) : TdQueue β :=
  let successor : β := next q.mem item
  let q := q.unlink item
  -- the successor, if there is one, takes over the item's time
  if successor ≠ tqueue then
    q.setDelay successor (deltaAdd w (q.delay successor) (q.delay item))
  else q

section Fields

def delays (m : β → TdItem β) (a : β) : Nat := (m a).delayShift

theorem delays_store (m : β → TdItem β) (a : β) (node : DNode β) :
    delays (CellStore.store m a node) = delays m := by
  funext x
  show (update m a _ x).delayShift = (m x).delayShift
  rw [update_apply]
  by_cases hx : x = a
  · rw [if_pos hx, hx]
  · rw [if_neg hx]

variable (q : TdQueue β) (a b : β) (d : Nat)

@[simp] theorem delay_insert : (q.insert a b).delay = q.delay := by
  show delays (dlistInsert q.mem a b) = delays q.mem
  simp only [dlistInsert, setNext, setPrev, delays_store]

@[simp] theorem delay_unlink : (q.unlink a).delay = q.delay := by
  show delays (dlistRemove q.mem a) = delays q.mem
  simp only [dlistRemove, setNext, setPrev, delays_store]

@[simp] theorem delay_dlistInit : TdQueue.delay { q with mem := dlistInit q.mem a } = q.delay := by
  show delays (dlistInit q.mem a) = delays q.mem
  simp only [dlistInit, setNext, setPrev, delays_store]

@[simp] theorem delay_setDelay : (q.setDelay a d).delay = update q.delay a d := by
  funext x
  show (update q.mem a _ x).delayShift = _
  rw [update_apply, update_apply]
  by_cases hx : x = a
  · rw [if_pos hx, if_pos hx]
  · rw [if_neg hx, if_neg hx]
    rfl

theorem node_setDelay (x : β) : ((q.setDelay a d).mem x).node = (q.mem x).node := by
  show (update q.mem a _ x).node = _
  rw [update_apply]
  by_cases hx : x = a
  · rw [if_pos hx, hx]
  · rw [if_neg hx]

@[simp] theorem next_setDelay : (next (q.setDelay a d).mem : β → β) = next q.mem := by
  funext x
  exact congrArg DNode.next (node_setDelay q a d x)

@[simp] theorem prev_setDelay : (prev (q.setDelay a d).mem : β → β) = prev q.mem := by
  funext x
  exact congrArg DNode.prev (node_setDelay q a d x)

end Fields

structure TdRep (q : TdQueue β) (tqueue : β) (l : List (β × Nat)) : Prop where
  ring : Ring (next q.mem) (prev q.mem) (tqueue :: l.map Prod.fst)
  delay : ∀ e ∈ l, q.delay e.1 = e.2

/-- What a call leaves alone. -/
structure Kept (tqueue : β) (q q' : TdQueue β) : Prop where
  word : q'.delay tqueue = q.delay tqueue
  stuck : q'.stuck = q.stuck

section Spec

variable {w fuel t d : Nat} {q q' q'' : TdQueue β} {tqueue item a : β}
variable {l pre suf : List (β × Nat)}

omit [DecidableEq β] in
theorem Kept.refl (q : TdQueue β) : Kept tqueue q q := ⟨rfl, rfl⟩

omit [DecidableEq β] in
theorem Kept.trans (h : Kept tqueue q q') (h' : Kept tqueue q' q'') : Kept tqueue q q'' :=
  ⟨h'.word.trans h.word, h'.stuck.trans h.stuck⟩

theorem kept_setDelay (ha : a ≠ tqueue) : Kept tqueue q (q.setDelay a d) := by
  refine ⟨?_, rfl⟩
  rw [delay_setDelay, update_of_ne ha.symm]

theorem kept_insert : Kept tqueue q (q.insert a item) := ⟨by rw [delay_insert], rfl⟩

theorem kept_unlink : Kept tqueue q (q.unlink a) := ⟨by rw [delay_unlink], rfl⟩

theorem TdRep.nodup (h : TdRep q tqueue l) : (tqueue :: l.map Prod.fst).Nodup := h.ring.nodup

theorem TdRep.ne_list (h : TdRep q tqueue l) (ha : a ∈ l.map Prod.fst) : a ≠ tqueue := by
  rintro rfl
  exact (nodup_cons.mp h.nodup).1 ha

theorem TdRep.next_item (h : TdRep q tqueue (pre ++ (a, d) :: suf)) :
    next q.mem a = (suf.map Prod.fst).headD tqueue := by
  have h1 := h.ring
  rw [map_append, map_cons, ← cons_append] at h1
  exact h1.next_mid

theorem TdRep.next_list (h : TdRep q tqueue l) :
    next q.mem tqueue = (l.map Prod.fst).headD tqueue := h.ring.next_first

theorem TdRep.notMem (h : TdRep q tqueue (pre ++ (a, d) :: suf)) :
    a ∉ pre.map Prod.fst ∧ a ∉ suf.map Prod.fst := by
  have h1 := (nodup_cons.mp h.nodup).2
  rw [map_append, map_cons, nodup_append] at h1
  obtain ⟨-, h2, h3⟩ := h1
  exact ⟨fun hc => h3 a hc a mem_cons_self rfl, (nodup_cons.mp h2).1⟩

theorem TdRep.setDelay (h : TdRep q tqueue l) (ha : a ∉ l.map Prod.fst) (d : Nat) :
    TdRep (q.setDelay a d) tqueue l := by
  refine ⟨?_, ?_⟩
  · rw [next_setDelay, prev_setDelay]
    exact h.ring
  · intro e he
    have hea : e.1 ≠ a := by
      rintro rfl
      exact ha (mem_map_of_mem he)
    rw [delay_setDelay, update_of_ne hea]
    exact h.delay e he

theorem TdRep.setItem (h : TdRep q tqueue (pre ++ (a, d) :: suf)) (d' : Nat) :
    TdRep (q.setDelay a d') tqueue (pre ++ (a, d') :: suf) := by
  obtain ⟨hpre, hsuf⟩ := h.notMem
  refine ⟨?_, ?_⟩
  · rw [next_setDelay, prev_setDelay]
    have h1 := h.ring
    rw [map_append, map_cons] at h1 ⊢
    exact h1
  · intro e he
    rw [delay_setDelay]
    rcases mem_append.mp he with hmem | hmem
    · have hea : e.1 ≠ a := by
        rintro rfl
        exact hpre (mem_map_of_mem hmem)
      rw [update_of_ne hea]
      exact h.delay e (mem_append_left _ hmem)
    rcases mem_cons.mp hmem with rfl | hmem'
    · exact update_self ..
    · have hea : e.1 ≠ a := by
        rintro rfl
        exact hsuf (mem_map_of_mem hmem')
      rw [update_of_ne hea]
      exact h.delay e (mem_append_right _ (mem_cons_of_mem _ hmem'))

theorem TdRep.insert (h : TdRep q tqueue (pre ++ suf))
    (hitem : item ∉ tqueue :: (pre ++ suf).map Prod.fst) (ht : q.delay item = t) :
    TdRep (q.insert ((suf.map Prod.fst).headD tqueue) item) tqueue (pre ++ (item, t) :: suf) := by
  refine ⟨?_, ?_⟩
  · have h1 := h.ring
    rw [map_append] at h1 hitem
    rw [map_append, map_cons]
    cases suf with
    | nil =>
      have h2 : Ring _ _ (item :: tqueue :: (pre.map Prod.fst ++ [])) :=
        dlistInsert_ring (u := []) h1 hitem
      rw [append_nil] at h2
      exact Ring.swap (u := [item]) h2
    | cons e suf => exact dlistInsert_ring (u := tqueue :: pre.map Prod.fst) h1 hitem
  · intro e he
    rw [delay_insert]
    rcases mem_append.mp he with hmem | hmem
    · exact h.delay e (mem_append_left _ hmem)
    rcases mem_cons.mp hmem with rfl | hmem'
    · exact ht
    · exact h.delay e (mem_append_right _ hmem')

theorem zTdqueueScheduleLoop_spec (h : TdRep q tqueue (pre ++ suf))
    (hitem : item ∉ tqueue :: (pre ++ suf).map Prod.fst) (hfuel : suf.length ≤ fuel)
    (ht : q.delay item = t) (htw : t < 2 ^ w) (hlw : span suf < 2 ^ w) :
    TdRep (zTdqueueScheduleLoop w tqueue item fuel q ((suf.map Prod.fst).headD tqueue))
        tqueue (pre ++ insertDelta item t suf)
      ∧ Kept tqueue q
          (zTdqueueScheduleLoop w tqueue item fuel q ((suf.map Prod.fst).headD tqueue)) := by
  have hil : item ≠ tqueue := by
    rintro rfl
    exact hitem mem_cons_self
  induction suf generalizing q pre fuel t with
  | nil =>
    have hloop : zTdqueueScheduleLoop w tqueue item fuel q tqueue = q.insert tqueue item := by
      cases fuel <;> rw [zTdqueueScheduleLoop, if_pos rfl]
    rw [map_nil, headD_nil, hloop]
    exact ⟨h.insert hitem ht, kept_insert⟩
  | cons e suf ih =>
    obtain ⟨a, d⟩ := e
    obtain ⟨fuel, rfl, hfuel'⟩ := exists_fuel hfuel
    have hda : q.delay a = d := h.delay (a, d) (mem_append_right _ mem_cons_self)
    have hmem : a ∈ (pre ++ (a, d) :: suf).map Prod.fst := by simp
    have hal : a ≠ tqueue := h.ne_list hmem
    have hai : a ≠ item := by
      rintro rfl
      exact hitem (mem_cons_of_mem _ hmem)
    have hspan : span ((a, d) :: suf) = d + span suf := rfl
    rw [map_cons, headD_cons, zTdqueueScheduleLoop, if_neg hal, insertDelta, hda, ht]
    by_cases hle : d ≤ t
    · -- the walk goes on behind `a` with the rest of the item's time
      rw [if_pos hle, if_pos hle, deltaSub_of_le hle htw]
      have h1 : TdRep (q.setDelay item (t - d)) tqueue (pre ++ (a, d) :: suf) :=
        h.setDelay (fun hc => hitem (mem_cons_of_mem _ hc)) _
      have hnext := h1.next_item
      have hl : pre ++ (a, d) :: suf = (pre ++ [(a, d)]) ++ suf := by simp
      rw [hl] at h1 hitem
      obtain ⟨hrep, hkept⟩ := ih (t := t - d) h1 hitem hfuel'
        (by rw [delay_setDelay, update_self]) (by omega) (by omega)
      rw [← hnext, append_assoc] at hrep
      rw [← hnext] at hkept
      exact ⟨hrep, (kept_setDelay hil).trans hkept⟩
    · have h1 := h.insert hitem ht
      have hlist : pre ++ (item, t) :: (a, d) :: suf
          = (pre ++ [(item, t)]) ++ (a, d) :: suf := by simp
      rw [map_cons, headD_cons, hlist] at h1
      have h2 := h1.setItem (d - t)
      simp only [if_neg hle, delay_insert, hda, ht]
      rw [deltaSub_of_le (by omega) (by omega)]
      rw [append_assoc] at h2
      exact ⟨h2, kept_insert.trans (kept_setDelay hal)⟩

theorem tdqueueSchedule_spec (h : TdRep q tqueue l)
    (hitem : item ∉ tqueue :: l.map Prod.fst) (hfuel : l.length ≤ fuel)
    (htw : t < 2 ^ w) (hlw : span l < 2 ^ w) :
    TdRep (tdqueueSchedule w fuel q tqueue (some item) t) tqueue (insertDelta item t l)
      ∧ Kept tqueue q (tdqueueSchedule w fuel q tqueue (some item) t) := by
  have hil : item ≠ tqueue := by
    rintro rfl
    exact hitem mem_cons_self
  -- the item is not linked to anything yet
  have h0 : TdRep { q with mem := dlistInit q.mem item } tqueue l := by
    refine ⟨h.ring.of_writes dlistInit_writes ?_, ?_⟩
    · rintro y hy rfl
      exact hitem hy
    · rw [delay_dlistInit]
      exact h.delay
  have h1 := h0.setDelay (a := item) (fun hc => hitem (mem_cons_of_mem _ hc)) t
  have hk : Kept tqueue q (TdQueue.setDelay { q with mem := dlistInit q.mem item } item t) := by
    have hinit : Kept tqueue q { q with mem := dlistInit q.mem item } :=
      ⟨by rw [delay_dlistInit], rfl⟩
    exact hinit.trans (kept_setDelay hil)
  have hstart : TdRep (TdQueue.setDelay { q with mem := dlistInit q.mem item } item t)
      tqueue ([] ++ l) := h1
  obtain ⟨hrep, hkept⟩ := zTdqueueScheduleLoop_spec hstart hitem hfuel
    (by rw [delay_setDelay, update_self]) htw hlw
  rw [← h1.next_list] at hrep hkept
  exact ⟨hrep, hk.trans hkept⟩

theorem tdqueueShiftLoop_spec (h : TdRep q tqueue (pre ++ suf)) (hfuel : suf.length ≤ fuel)
    (htw : t < 2 ^ w) (hlw : span suf < 2 ^ w) :
    TdRep (tdqueueShiftLoop w tqueue fuel q ((suf.map Prod.fst).headD tqueue) t)
        tqueue (pre ++ shiftDelta t suf)
      ∧ Kept tqueue q (tdqueueShiftLoop w tqueue fuel q ((suf.map Prod.fst).headD tqueue) t) := by
  induction suf generalizing q pre fuel t with
  | nil =>
    have hloop : tdqueueShiftLoop w tqueue fuel q tqueue t = q := by
      cases fuel <;> rw [tdqueueShiftLoop, if_pos rfl]
    rw [map_nil, headD_nil, hloop]
    exact ⟨h, Kept.refl q⟩
  | cons e suf ih =>
    obtain ⟨a, d⟩ := e
    obtain ⟨fuel, rfl, hfuel'⟩ := exists_fuel hfuel
    have hda : q.delay a = d := h.delay (a, d) (mem_append_right _ mem_cons_self)
    have hal : a ≠ tqueue := h.ne_list (by simp)
    have hspan : span ((a, d) :: suf) = d + span suf := rfl
    rw [map_cons, headD_cons, tdqueueShiftLoop, if_neg hal, shiftDelta]
    simp only [hda]
    by_cases hle : d ≤ t
    · -- both branches go on behind `a` with a delay of zero stored there
      have key : ∀ q₁ : TdQueue β, TdRep q₁ tqueue (pre ++ (a, 0) :: suf) → Kept tqueue q q₁ →
          TdRep (tdqueueShiftLoop w tqueue fuel q₁ (next q₁.mem a) (t - d)) tqueue
              (pre ++ (a, 0) :: shiftDelta (t - d) suf)
            ∧ Kept tqueue q (tdqueueShiftLoop w tqueue fuel q₁ (next q₁.mem a) (t - d)) := by
        intro q₁ h₁ hk₁
        have hnext := h₁.next_item
        have hl : pre ++ (a, 0) :: suf = (pre ++ [(a, 0)]) ++ suf := by simp
        rw [hl] at h₁
        obtain ⟨hrep, hkept⟩ := ih (t := t - d) h₁ hfuel' (by omega) (by omega)
        rw [← hnext, append_assoc] at hrep
        rw [← hnext] at hkept
        exact ⟨hrep, hk₁.trans hkept⟩
      rw [if_pos hle, if_pos hle]
      by_cases hd0 : d ≠ 0
      · rw [if_pos hd0, deltaSub_of_le hle htw]
        exact key _ (h.setItem 0) (kept_setDelay hal)
      · have hd0' : d = 0 := not_not.mp hd0
        subst hd0'
        rw [if_neg hd0]
        exact key q h (Kept.refl q)
    · rw [if_neg hle, if_neg hle, deltaSub_of_le (by omega) (by omega)]
      exact ⟨h.setItem (d - t), kept_setDelay hal⟩

theorem tdqueueShift_spec (h : TdRep q tqueue l) (hfuel : l.length ≤ fuel)
    (htw : t < 2 ^ w) (hlw : span l < 2 ^ w) :
    TdRep (tdqueueShift w fuel q tqueue t) tqueue (shiftDelta t l)
      ∧ Kept tqueue q (tdqueueShift w fuel q tqueue t) := by
  have hstart : TdRep q tqueue ([] ++ l) := h
  have h1 := tdqueueShiftLoop_spec hstart hfuel htw hlw
  rw [← h.next_list] at h1
  exact h1

theorem TdRep.unlink (h : TdRep q tqueue (pre ++ (a, d) :: suf)) :
    TdRep (q.unlink a) tqueue (pre ++ suf) := by
  refine ⟨?_, ?_⟩
  · have h1 := h.ring
    rw [map_append, map_cons] at h1
    rw [map_append]
    exact dlistRemove_ring (u := tqueue :: pre.map Prod.fst) h1 (cons_ne_nil _ _)
  · intro e he
    rw [delay_unlink]
    refine h.delay e ?_
    rcases mem_append.mp he with hmem | hmem
    · exact mem_append_left _ hmem
    · exact mem_append_right _ (mem_cons_of_mem _ hmem)

theorem tdqueuePop_spec (h : TdRep q tqueue ((a, d) :: l)) :
    tdqueuePop q tqueue = if d = 0 then (q.unlink a, some a) else (q, none) := by
  have hda : q.delay a = d := h.delay (a, d) mem_cons_self
  rw [tdqueuePop, h.next_list, map_cons, headD_cons, hda]

theorem tdqueuePop_nil (h : TdRep q tqueue []) : tdqueuePop q tqueue
      = if q.delay tqueue = 0 then (q.unlink tqueue, some tqueue) else (q, none) := by
  rw [tdqueuePop, h.next_list, map_nil, headD_nil]

theorem tdqueueRemove_spec (h : TdRep q tqueue (pre ++ (a, d) :: suf))
    (hlw : d + span suf < 2 ^ w) :
    TdRep (tdqueueRemove w q tqueue a) tqueue (pre ++ prependDelay d suf)
      ∧ Kept tqueue q (tdqueueRemove w q tqueue a) := by
  have hda : q.delay a = d := h.delay (a, d) (mem_append_right _ mem_cons_self)
  rw [tdqueueRemove, h.next_item]
  cases suf with
  | nil =>
    rw [map_nil, headD_nil]
    simp only [ne_eq, not_true_eq_false, if_false]
    exact ⟨h.unlink, kept_unlink⟩
  | cons e suf =>
    obtain ⟨b, c⟩ := e
    have hbl : b ≠ tqueue := h.ne_list (by simp)
    have hdb : q.delay b = c := h.delay (b, c) (by simp)
    have hspan : span ((b, c) :: suf) = c + span suf := rfl
    rw [map_cons, headD_cons]
    simp only [if_pos hbl, delay_unlink, hda, hdb]
    rw [deltaAdd_of_lt (by omega)]
    exact ⟨h.unlink.setItem (c + d), kept_unlink.trans (kept_setDelay hbl)⟩

end Spec

structure Pairing (α β : Type) where
  tqueue : β
  node : α → β
  inj : Injective node
  outside : ∀ a, node a ≠ tqueue

/-- A time queue of each kind. -/
structure Queues (α β : Type) where
  tq : TQueue (α → TItem α) α
  td : TdQueue β

/-- A call on both queues. -/
inductive PairOp (w : Nat) (α : Type) where
  | schedule (item : α) (timeout : BitVec w)
  | shift (timePassed : BitVec w)
  | pop
  | popReschedule (timeout : BitVec w)
  | remove (item : α)

def tdDeltasFrom (q : TdQueue β) (tqueue : β) : Nat → β → List (β × Nat)
  | 0, _ => []
  | fuel + 1, node =>
      if node = tqueue then []
      else (node, q.delay node) :: tdDeltasFrom q tqueue fuel (next q.mem node)

section Pairs

variable {α : Type} [DecidableEq α] [Fintype α] {w : Nat}

def deltas (q : TQueue (α → TItem α) α) : List (α × Nat) :=
  deltasFrom q.mem (Fintype.card α) q.root

def Pairing.deltas (p : Pairing α β) (q : TdQueue β) : List (β × Nat) :=
  tdDeltasFrom q p.tqueue (Fintype.card α) (next q.mem p.tqueue)

def PairOp.runTq (argsChecks : Bool) (q : TQueue (α → TItem α) α) :
    PairOp w α → TQueue (α → TItem α) α × Option α
  | .schedule item timeout =>
      (tqueueSchedule w (Fintype.card α) q (some item) timeout.toNat, none)
  | .shift timePassed => (tqueueShift w (Fintype.card α) q timePassed.toNat, none)
  | .pop => tqueuePop q
  | .popReschedule timeout => tqueuePopReschedule w (Fintype.card α) q timeout.toNat
  | .remove item => ((tqueueRemove argsChecks w (Fintype.card α) q (some item)).1, none)

def PairOp.runTd (p : Pairing α β) (q : TdQueue β) :
    PairOp w α → TdQueue β × Option β
  | .schedule item timeout =>
      (tdqueueSchedule w (Fintype.card α) q p.tqueue (some (p.node item)) timeout.toNat,
        none)
  | .shift timePassed =>
      (tdqueueShift w (Fintype.card α) q p.tqueue timePassed.toNat, none)
  | .pop => tdqueuePop q p.tqueue
  | .popReschedule timeout =>
      tdqueuePopReschedule w (Fintype.card α) q p.tqueue timeout.toNat
  | .remove item => (tdqueueRemove w q p.tqueue (p.node item), none)

/-- The call on both queues. -/
def PairOp.run (argsChecks : Bool) (p : Pairing α β) (s : Queues α β)
    (op : PairOp w α) : Queues α β :=
  ⟨(op.runTq argsChecks s.tq).1, (op.runTd p s.td).1⟩

def PairOp.Allowed (s : Queues α β) : PairOp w α → Prop
  | .schedule item _ => item ∉ (deltas s.tq).map Prod.fst
  | .remove item => item ∈ (deltas s.tq).map Prod.fst
  | _ => True

instance (s : Queues α β) : (op : PairOp w α) → Decidable (op.Allowed s)
  | .schedule _ _ => inferInstanceAs (Decidable (_ ∉ _))
  | .remove _ => inferInstanceAs (Decidable (_ ∈ _))
  | .shift _ | .pop | .popReschedule _ => isTrue trivial

def PairOp.Careful (p : Pairing α β) (s : Queues α β) : PairOp w α → Prop
  | .pop | .popReschedule _ =>
      next s.td.mem p.tqueue ≠ p.tqueue ∨ s.td.delay p.tqueue ≠ 0
  | _ => True

instance (p : Pairing α β) (s : Queues α β) :
    (op : PairOp w α) → Decidable (op.Careful p s)
  | .pop => inferInstanceAs (Decidable (_ ∨ _))
  | .popReschedule _ => inferInstanceAs (Decidable (_ ∨ _))
  | .schedule _ _ | .remove _ | .shift _ => isTrue trivial

structure PairBoot (p : Pairing α β) (s : Queues α β) : Prop where
  root : s.tq.root = none
  tqFlags : s.tq.wrapped = false ∧ s.tq.stuck = false
  links : next s.td.mem p.tqueue = p.tqueue ∧ prev s.td.mem p.tqueue = p.tqueue
  tdFlag : s.td.stuck = false

def PairReach (argsChecks : Bool) (w : Nat) (p : Pairing α β)
    (ok : Queues α β → PairOp w α → Prop) : Queues α β → Prop :=
  Reach (PairBoot p) (fun s op => op.Allowed s ∧ ok s op) (PairOp.run argsChecks p)

structure Agree (p : Pairing α β) (s : Queues α β) : Prop where
  same : p.deltas s.td = relabel p.node (deltas s.tq)
  ring : Ring (next s.td.mem) (prev s.td.mem)
    (p.tqueue :: (p.deltas s.td).map Prod.fst)
  ended : s.tq.stuck = false ∧ s.td.stuck = false

def PairOp.Matches (argsChecks : Bool) (p : Pairing α β) (s : Queues α β)
    (op : PairOp w α) : Prop :=
  (op.runTd p s.td).2 = (op.runTq argsChecks s.tq).2.map p.node
    ∧ Agree p (op.run argsChecks p s)

structure PairInv (w : Nat) (p : Pairing α β) (s : Queues α β)
    (l : List (α × Nat)) : Prop where
  tq : TqInv w s.tq l
  td : TdRep s.td p.tqueue (relabel p.node l)
  stuck : s.td.stuck = false

section Inv

variable {argsChecks : Bool} {p : Pairing α β} {s : Queues α β} {l : List (α × Nat)}
variable {a item : α}

theorem tdDeltasFrom_eq {q : TdQueue β} {tqueue : β} {pre suf : List (β × Nat)}
    {fuel : Nat} (h : TdRep q tqueue (pre ++ suf)) (hfuel : suf.length ≤ fuel) :
    tdDeltasFrom q tqueue fuel ((suf.map Prod.fst).headD tqueue) = suf := by
  induction suf generalizing pre fuel with
  | nil =>
    cases fuel with
    | zero => rfl
    | succ fuel => exact if_pos rfl
  | cons e suf ih =>
    obtain ⟨a, d⟩ := e
    obtain ⟨fuel, rfl, hfuel'⟩ := exists_fuel hfuel
    have hal : a ≠ tqueue := h.ne_list (by simp)
    have hda : q.delay a = d := h.delay (a, d) (by simp)
    rw [map_cons, headD_cons, tdDeltasFrom, if_neg hal, hda, h.next_item]
    have hl : pre ++ (a, d) :: suf = (pre ++ [(a, d)]) ++ suf := by simp
    rw [hl] at h
    rw [ih h hfuel']

theorem PairInv.deltas_tq (h : PairInv w p s l) : deltas s.tq = l :=
  deltasFrom_eq (p := s.tq.root) h.tq.rep.chain h.tq.rep.delay h.tq.length_le

theorem PairInv.length_le (h : PairInv w p s l) : (relabel p.node l).length ≤ Fintype.card α := by
  rw [length_relabel]
  exact h.tq.length_le

theorem PairInv.deltas_td (h : PairInv w p s l) : p.deltas s.td = relabel p.node l := by
  rw [Pairing.deltas, h.td.next_list]
  have hstart : TdRep s.td p.tqueue ([] ++ relabel p.node l) := h.td
  exact tdDeltasFrom_eq hstart h.length_le

theorem PairInv.agree (h : PairInv w p s l) : Agree p s := by
  refine ⟨?_, ?_, h.tq.stuck, h.stuck⟩
  · rw [h.deltas_td, h.deltas_tq]
  · rw [h.deltas_td]
    exact h.td.ring

omit [DecidableEq β] [DecidableEq α] [Fintype α] in
theorem Pairing.node_notMem (p : Pairing α β) (hitem : item ∉ l.map Prod.fst) :
    p.node item ∉ p.tqueue :: (relabel p.node l).map Prod.fst := by
  rw [map_fst_relabel, mem_cons, mem_map_of_injective p.inj]
  exact not_or.mpr ⟨p.outside item, hitem⟩

omit [Fintype α] in
theorem PairInv.span_lt (h : PairInv w p s l) : span (relabel p.node l) < 2 ^ w := by
  rw [span_relabel]
  exact h.tq.span_lt

theorem PairInv.schedule (h : PairInv w p s l) (hitem : item ∉ l.map Prod.fst)
    (timeout : BitVec w) :
    PairInv w p ⟨tqueueSchedule w (Fintype.card α) s.tq (some item) timeout.toNat,
        tdqueueSchedule w (Fintype.card α) s.td p.tqueue (some (p.node item)) timeout.toNat⟩
      (insertDelta item timeout.toNat l) := by
  obtain ⟨hrep, hkept⟩ := tdqueueSchedule_spec h.td (p.node_notMem hitem) h.length_le
    timeout.isLt h.span_lt
  rw [insertDelta_relabel] at hrep
  exact ⟨(h.tq.schedule hitem timeout).1, hrep, hkept.stuck.trans h.stuck⟩

theorem PairInv.pop (h : PairInv w p s ((a, 0) :: l)) : (tqueuePop s.tq).2 = some a
      ∧ tdqueuePop s.td p.tqueue = (s.td.unlink (p.node a), some (p.node a))
      ∧ PairInv w p ⟨(tqueuePop s.tq).1, s.td.unlink (p.node a)⟩ l := by
  obtain ⟨hret, hinv, -⟩ := h.tq.pop
  have htd : TdRep s.td p.tqueue ([] ++ (p.node a, 0) :: relabel p.node l) := h.td
  refine ⟨hret, ?_, hinv, htd.unlink, h.stuck⟩
  rw [tdqueuePop_spec htd, if_pos rfl]

theorem PairInv.pop_none (h : PairInv w p s l) (hl : ∀ a l', l ≠ (a, 0) :: l')
    (hc : next s.td.mem p.tqueue ≠ p.tqueue ∨ s.td.delay p.tqueue ≠ 0) :
    tqueuePop s.tq = (s.tq, none) ∧ tdqueuePop s.td p.tqueue = (s.td, none) := by
  refine ⟨(h.tq.pop_none hl).1, ?_⟩
  cases l with
  | nil =>
    have hword : s.td.delay p.tqueue ≠ 0 := hc.resolve_left (not_not.mpr h.td.next_list)
    rw [tdqueuePop_nil h.td, if_neg hword]
  | cons e l =>
    obtain ⟨a, d⟩ := e
    have hd : d ≠ 0 := fun hc => hl a l (by rw [hc])
    have htd : TdRep s.td p.tqueue ((p.node a, d) :: relabel p.node l) := h.td
    rw [tdqueuePop_spec htd, if_neg hd]

theorem PairInv.remove (h : PairInv w p s l) (hitem : item ∈ l.map Prod.fst) : PairInv w p
      ⟨(tqueueRemove argsChecks w (Fintype.card α) s.tq (some item)).1,
        tdqueueRemove w s.td p.tqueue (p.node item)⟩ (removeDelta item l) := by
  obtain ⟨hinv, -, -⟩ := h.tq.remove argsChecks hitem
  obtain ⟨⟨x, d⟩, he, rfl⟩ := mem_map.mp hitem
  obtain ⟨pre, suf, rfl⟩ := append_of_mem he
  have hpre : x ∉ pre.map Prod.fst := by
    have h1 := h.tq.rep.chain.nodup
    rw [map_append, map_cons, nodup_append] at h1
    exact fun hc => h1.2.2 x hc x mem_cons_self rfl
  have htd := h.td
  have hsplit : relabel p.node (pre ++ (x, d) :: suf)
      = relabel p.node pre ++ (p.node x, d) :: relabel p.node suf := by
    simp [relabel]
  have hspan : span (pre ++ (x, d) :: suf) = span pre + (d + span suf) := by
    simp [span]
  have hlt := h.tq.span_lt
  rw [hsplit] at htd
  obtain ⟨hrep, hkept⟩ := tdqueueRemove_spec (w := w) htd (by rw [span_relabel]; omega)
  have hjoin : relabel p.node pre ++ prependDelay d (relabel p.node suf)
      = relabel p.node (removeDelta x (pre ++ (x, d) :: suf)) := by
    rw [removeDelta_append hpre, prependDelay_relabel]
    simp [relabel]
  rw [hjoin] at hrep
  exact ⟨hinv, hrep, hkept.stuck.trans h.stuck⟩

/-- **ONE CALL**. -/
theorem PairInv.run {op : PairOp w α} (h : PairInv w p s l) (argsChecks : Bool)
    (ha : op.Allowed s) (hc : op.Careful p s) :
    (op.runTd p s.td).2 = (op.runTq argsChecks s.tq).2.map p.node
      ∧ ∃ l', PairInv w p (op.run argsChecks p s) l' := by
  cases op with
  | schedule item timeout =>
    have hitem : item ∉ l.map Prod.fst := h.deltas_tq ▸ ha
    exact ⟨rfl, _, h.schedule hitem timeout⟩
  | shift timePassed =>
    obtain ⟨hrep, hframe⟩ := tqueueShift_spec h.tq.rep h.tq.length_le timePassed.isLt h.tq.span_lt
    obtain ⟨htd, hkept⟩ := tdqueueShift_spec h.td h.length_le timePassed.isLt h.span_lt
    rw [shiftDelta_relabel] at htd
    refine ⟨rfl, _, h.tq.of_frame hrep hframe ?_, htd, hkept.stuck.trans h.stuck⟩
    exact Nat.lt_of_le_of_lt (span_shiftDelta_le _ l) h.tq.span_lt
  | pop =>
    by_cases hl : ∃ a l', l = (a, 0) :: l'
    · obtain ⟨a, l', rfl⟩ := hl
      obtain ⟨hret, htd, hinv⟩ := h.pop
      simp only [PairOp.runTd, PairOp.runTq, PairOp.run, htd, hret]
      exact ⟨rfl, l', hinv⟩
    · obtain ⟨htq, htd⟩ := h.pop_none (fun a l' hc => hl ⟨a, l', hc⟩) hc
      simp only [PairOp.runTd, PairOp.runTq, PairOp.run, htd, htq]
      exact ⟨rfl, l, h⟩
  | popReschedule timeout =>
    by_cases hl : ∃ a l', l = (a, 0) :: l'
    · obtain ⟨a, l', rfl⟩ := hl
      obtain ⟨hret, htd, hinv⟩ := h.pop
      have hal : a ∉ l'.map Prod.fst := (nodup_cons.mp h.tq.rep.chain.nodup).1
      simp only [PairOp.runTd, PairOp.runTq, PairOp.run, tdqueuePopReschedule,
        tqueuePopReschedule, htd, hret]
      exact ⟨rfl, _, hinv.schedule hal timeout⟩
    · obtain ⟨htq, htd⟩ := h.pop_none (fun a l' hc => hl ⟨a, l', hc⟩) hc
      simp only [PairOp.runTd, PairOp.runTq, PairOp.run, tdqueuePopReschedule,
        tqueuePopReschedule, htd, htq]
      exact ⟨rfl, l, h⟩
  | remove item =>
    have hitem : item ∈ l.map Prod.fst := h.deltas_tq ▸ ha
    exact ⟨rfl, _, h.remove hitem⟩

omit [Fintype α] in
theorem PairInv.pop_list (h : PairInv w p s l)
    (hc : ¬ (next s.td.mem p.tqueue ≠ p.tqueue ∨ s.td.delay p.tqueue ≠ 0)) :
    (tqueuePop s.tq).2 = none ∧ (tdqueuePop s.td p.tqueue).2 = some p.tqueue := by
  rw [not_or, not_not, not_not] at hc
  have hempty : l = [] := by
    cases l with
    | nil => rfl
    | cons e l => exact absurd (h.td.next_list.symm.trans hc.1) (p.outside e.1)
  subst hempty
  refine ⟨by rw [AvrtosTqueue.tqueuePop_nil h.tq.rep], ?_⟩
  rw [tdqueuePop_nil h.td, if_pos hc.2]

theorem PairInv.careful_of_matches {op : PairOp w α} (h : PairInv w p s l)
    (hm : (op.runTd p s.td).2 = (op.runTq argsChecks s.tq).2.map p.node) :
    op.Careful p s := by
  cases op with
  | schedule item timeout => trivial
  | shift timePassed => trivial
  | remove item => trivial
  | pop =>
    by_contra hc
    obtain ⟨htq, htd⟩ := h.pop_list hc
    have hm' : (tdqueuePop s.td p.tqueue).2 = (tqueuePop s.tq).2.map p.node := hm
    rw [htq, htd] at hm'
    cases hm'
  | popReschedule timeout =>
    by_contra hc
    obtain ⟨htq, htd⟩ := h.pop_list hc
    simp only [PairOp.runTd, PairOp.runTq, tdqueuePopReschedule, tqueuePopReschedule,
      htd, htq] at hm
    cases hm

theorem PairReach.inv (h : PairReach argsChecks w p (fun s op => op.Careful p s) s) :
    ∃ l, PairInv w p s l := by
  refine Reach.invariant (P := fun s => ∃ l, PairInv w p s l) h ?_ ?_
  · intro s hb
    refine ⟨[], ⟨⟨hb.root, fun e he => absurd he not_mem_nil⟩, ?_, hb.tqFlags.1,
      hb.tqFlags.2⟩, ⟨Ring.singleton hb.links.1 hb.links.2, ?_⟩, hb.tdFlag⟩
    · exact Nat.two_pow_pos w
    · exact fun e he => absurd he not_mem_nil
  · rintro s op ⟨l, hl⟩ ⟨ha, hc⟩
    exact (hl.run argsChecks ha hc).2

end Inv

/-- **BOTH QUEUES DO THE SAME** unless a call pops from an empty list that has a zero in front of
    it. -/
theorem tdqueue_agrees_iff (argsChecks : Bool) {p : Pairing α β} {s : Queues α β}
    (h : PairReach argsChecks w p (fun s op => op.Careful p s) s) :
    Agree p s
      ∧ ∀ op : PairOp w α, op.Allowed s → (op.Matches argsChecks p s ↔ op.Careful p s) := by
  obtain ⟨l, hl⟩ := h.inv
  refine ⟨hl.agree, ?_⟩
  intro op ha
  constructor
  · exact fun hm => hl.careful_of_matches hm.1
  · intro hc
    obtain ⟨hret, l', hl'⟩ := hl.run argsChecks ha hc
    exact ⟨hret, hl'.agree⟩

end Pairs

def twoItems : Pairing (Fin 2) (Option (Fin 2)) where
  tqueue := none
  node := some
  inj := Option.some_injective _
  outside := fun a => Option.some_ne_none a

def emptyQueues (word : Nat) : Queues (Fin 2) (Option (Fin 2)) where
  tq := ⟨fun _ => ⟨0, none⟩, none, false, false⟩
  td := ⟨fun a => ⟨if a = none then word else 0, ⟨a, a⟩⟩, false⟩

theorem emptyQueues_boot (word : Nat) : PairBoot twoItems (emptyQueues word) :=
  ⟨rfl, ⟨rfl, rfl⟩, ⟨rfl, rfl⟩, rfl⟩

/-- The later item is scheduled first, and the other one in front of it. -/
theorem tdqueue_agrees_iff_two :
    let s := ([.schedule 0 5, .schedule 1 3, .shift 3] : List (PairOp 16 (Fin 2))).foldl
      (PairOp.run true twoItems) (emptyQueues 0)
    PairReach true 16 twoItems (fun s op => op.Careful twoItems s) s
      ∧ deltas s.tq = [(1, 0), (0, 2)]
      ∧ twoItems.deltas s.td = [(some 1, 0), (some 0, 2)]
      ∧ PairOp.Matches true twoItems s (.pop : PairOp 16 (Fin 2)) := by
  intro s
  have hreach : PairReach true 16 twoItems (fun s op => op.Careful twoItems s) s :=
    Reach.foldl (.start (emptyQueues_boot 0)) (by decide)
  refine ⟨hreach, by decide, by decide, ?_⟩
  exact ((tdqueue_agrees_iff true hreach).2 .pop trivial).mpr (by decide)

/-- **POPPING FROM AN EMPTY LIST**: with a zero in front of the list,
    `tdqueue_pop` returns the list where `tqueue_pop` returns `NULL`. -/
theorem tdqueue_pop_returns_list :
    PairReach true 16 twoItems (fun _ _ => True) (emptyQueues 0)
      ∧ (tqueuePop (emptyQueues 0).tq).2 = none
      ∧ (tdqueuePop (emptyQueues 0).td twoItems.tqueue).2 = some twoItems.tqueue
      ∧ ¬ PairOp.Matches true twoItems (emptyQueues 0) (.pop : PairOp 16 (Fin 2)) := by
  refine ⟨.start (emptyQueues_boot 0), by decide, by decide, ?_⟩
  rintro ⟨hret, -⟩
  exact absurd hret (by decide)

end AvrtosTdqueue
