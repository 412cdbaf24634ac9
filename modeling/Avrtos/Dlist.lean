import Avrtos.Base.LinkedRing

/-! # `dstruct/dlist.c`: the doubly linked list

    The functions write the fields in the order of the source; on rings they are list operations. -/

namespace AvrtosDlist

open List hiding next prev
open Function Cells LinkedRing

variable {σ α : Type} [DecidableEq α] [CellStore σ α (DNode α)]

/-- `dlist_init`. -/
def dlistInit (m : σ) (list : α) : σ :=
  let m := setNext m list list
  setPrev m list list

/-- `dlist_append`. -/
def dlistAppend (m : σ) (list node : α) : σ :=
  let tail : α := prev m list
  -- link with tail
  let m := setNext m tail node
  let m := setPrev m node tail
  -- link with head
  let m := setPrev m list node
  setNext m node list

/-- `dlist_prepend`. -/
def dlistPrepend (m : σ) (list node : α) : σ :=
  let head : α := next m list
  -- link with head
  let m := setPrev m node list
  let m := setNext m node head
  -- link with successor
  let m := setPrev m head node
  setNext m list node

/-- `dlist_insert`. -/
def dlistInsert (m : σ) (successor node : α) : σ :=
  let p : α := prev m successor
  -- link with predecessor
  let m := setNext m p node
  let m := setPrev m node p
  -- link with successor
  let m := setNext m node successor
  setPrev m successor node

/-- `dlist_remove`. -/
def dlistRemove (m : σ) (node : α) : σ :=
  let p : α := prev m node
  let n : α := next m node
  let m := setNext m p n
  setPrev m n p

/-- `dlist_get`. -/
def dlistGet (m : σ) (list : α) : σ × α :=
  let item : α := next m list
  (dlistRemove m item, item)

section Links

variable (m : σ) (list node : α)

@[simp] theorem next_dlistInit :
    (next (dlistInit m list) : α → α) = update (next m) list list := by
  simp [dlistInit]

@[simp] theorem prev_dlistInit :
    (prev (dlistInit m list) : α → α) = update (prev m) list list := by
  simp [dlistInit]

theorem next_dlistAppend : (next (dlistAppend m list node) : α → α)
      = update (update (next m) (prev m list) node) node list := by
  simp [dlistAppend]

theorem prev_dlistAppend : (prev (dlistAppend m list node) : α → α)
      = update (update (prev m) node (prev m list)) list node := by
  simp [dlistAppend]

theorem next_dlistPrepend : (next (dlistPrepend m list node) : α → α)
      = update (update (next m) node (next m list)) list node := by
  simp [dlistPrepend]

theorem prev_dlistPrepend : (prev (dlistPrepend m list node) : α → α)
      = update (update (prev m) node list) (next m list) node := by
  simp [dlistPrepend]

theorem next_dlistInsert : (next (dlistInsert m list node) : α → α)
      = update (update (next m) (prev m list) node) node list := by
  simp [dlistInsert]

theorem prev_dlistInsert : (prev (dlistInsert m list node) : α → α)
      = update (update (prev m) node (prev m list)) list node := by
  simp [dlistInsert]

theorem next_dlistRemove : (next (dlistRemove m node) : α → α)
      = update (next m) (prev m node) (next m node) := by
  simp [dlistRemove]

theorem next_dlistRemove_self : next (dlistRemove m node) node = next m node := by
  rw [next_dlistRemove, update_apply]
  split_ifs <;> rfl

theorem prev_dlistRemove : (prev (dlistRemove m node) : α → α)
      = update (prev m) (next m node) (prev m node) := by
  simp [dlistRemove]

end Links

section Effect

variable {m : σ} {list node x : α} {l u v : List α}

theorem dlistInit_ring : Ring (next (dlistInit m list)) (prev (dlistInit m list)) [list] :=
  Ring.singleton (by simp) (by simp)

theorem dlistAppend_ring (h : Ring (next m) (prev m) (list :: l)) (hn : node ∉ list :: l) :
    Ring (next (dlistAppend m list node)) (prev (dlistAppend m list node))
      (list :: (l ++ [node])) := by
  have hne : node ≠ list := by
    rintro rfl
    exact hn mem_cons_self
  rw [next_dlistAppend, prev_dlistAppend, update_comm hne]
  exact h.insertLast hn

theorem dlistPrepend_ring (h : Ring (next m) (prev m) (list :: l)) (hn : node ∉ list :: l) :
    Ring (next (dlistPrepend m list node)) (prev (dlistPrepend m list node))
      (list :: node :: l) := by
  have hne : node ≠ list := by
    rintro rfl
    exact hn mem_cons_self
  rw [next_dlistPrepend, prev_dlistPrepend]
  -- seen from the successor of `list`, the node is inserted at the end
  have h1 : Ring (next m) (prev m) (l ++ [list]) := by
    have h2 : Ring (next m) (prev m) ([list] ++ l) := h
    exact h2.swap
  cases l with
  | nil =>
    obtain ⟨hnx, hpv⟩ := h.of_singleton
    have h2 := h.insertLast hn
    rw [hpv] at h2
    rw [hnx, update_comm hne, update_comm hne]
    exact h2
  | cons b l =>
    have hb : next m list = b := h.next_head
    have hpb : prev m b = list := h.prev_second
    have hnb : node ∉ b :: (l ++ [list]) := by
      intro hc
      refine hn ?_
      simp only [mem_cons, mem_append] at hc ⊢
      tauto
    have hneb : node ≠ b := by
      rintro rfl
      exact hnb mem_cons_self
    have h2 := Ring.insertLast (a := b) (t := l ++ [list]) h1 hnb
    rw [hpb] at h2
    rw [hb, update_comm hne, update_comm hneb]
    have hl : b :: (l ++ [list]) ++ [node] = (b :: l) ++ [list, node] := by
      simp
    rw [hl] at h2
    exact h2.swap

theorem dlistInsert_ring (h : Ring (next m) (prev m) (u ++ x :: v)) (hn : node ∉ u ++ x :: v) :
    Ring (next (dlistInsert m x node)) (prev (dlistInsert m x node)) (u ++ node :: x :: v) := by
  have hne : node ≠ x := by
    rintro rfl
    exact hn (mem_append_right u mem_cons_self)
  rw [next_dlistInsert, prev_dlistInsert, update_comm hne]
  exact h.insertMid hn

theorem dlistRemove_ring (h : Ring (next m) (prev m) (u ++ node :: v)) (huv : u ++ v ≠ []) :
    Ring (next (dlistRemove m node)) (prev (dlistRemove m node)) (u ++ v) := by
  rw [next_dlistRemove, prev_dlistRemove]
  exact h.eraseMid huv

end Effect

section Frame

variable {m : σ} {list node : α} {l u v : List α}

omit [DecidableEq α] in
theorem dlistInit_writes : Writes (DNode α) (fun x => x = list) m (dlistInit m list) := by
  refine Writes.trans (setNext_writes m list ?_) (setPrev_writes _ list ?_)
  · rfl
  · rfl

omit [DecidableEq α] in
theorem dlistAppend_writes (h : Ring (next m) (prev m) (list :: l)) :
    Writes (DNode α) (fun x => x = node ∨ x ∈ list :: l) m (dlistAppend m list node) := by
  have hlist : list ∈ list :: l := mem_cons_self ..
  have htail : (prev m list : α) ∈ list :: l := h.prev_mem hlist
  refine (setNext_writes m node (Or.inr htail)).trans ?_
  refine (setPrev_writes _ (prev m list) (Or.inl rfl)).trans ?_
  refine (setPrev_writes _ node (Or.inr hlist)).trans ?_
  exact setNext_writes _ list (Or.inl rfl)

omit [DecidableEq α] in
theorem dlistPrepend_writes (h : Ring (next m) (prev m) (list :: l)) :
    Writes (DNode α) (fun x => x = node ∨ x ∈ list :: l) m (dlistPrepend m list node) := by
  have hlist : list ∈ list :: l := mem_cons_self ..
  have hhead : (next m list : α) ∈ list :: l := h.next_mem hlist
  refine (setPrev_writes m list (Or.inl rfl)).trans ?_
  refine (setNext_writes _ (next m list) (Or.inl rfl)).trans ?_
  refine (setPrev_writes _ node (Or.inr hhead)).trans ?_
  exact setNext_writes _ node (Or.inr hlist)

omit [DecidableEq α] in
theorem dlistInsert_writes {x : α} (h : Ring (next m) (prev m) l) (hx : x ∈ l) :
    Writes (DNode α) (fun y => y = node ∨ y ∈ l) m (dlistInsert m x node) := by
  have hp : (prev m x : α) ∈ l := h.prev_mem hx
  refine (setNext_writes m node (Or.inr hp)).trans ?_
  refine (setPrev_writes _ (prev m x) (Or.inl rfl)).trans ?_
  refine (setNext_writes _ x (Or.inl rfl)).trans ?_
  exact setPrev_writes _ node (Or.inr hx)

omit [DecidableEq α] in
theorem dlistRemove_writes (h : Ring (next m) (prev m) l) (hn : node ∈ l) :
    Writes (DNode α) (fun x => x ∈ l) m (dlistRemove m node) :=
  (setNext_writes m _ (h.prev_mem hn)).trans (setPrev_writes _ _ (h.next_mem hn))

theorem dlistRemove_self (hn : next m node = node) (hp : prev m node = node) :
    (next (dlistRemove m node) : α → α) = next m
      ∧ (prev (dlistRemove m node) : α → α) = prev m := by
  refine ⟨?_, ?_⟩
  · rw [next_dlistRemove, hn, hp]
    exact (update_eq_self_iff).mpr hn.symm
  · rw [prev_dlistRemove, hn, hp]
    exact (update_eq_self_iff).mpr hp.symm

end Frame

end AvrtosDlist
