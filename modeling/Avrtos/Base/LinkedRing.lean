import Avrtos.Base.Cells

/-! # Rings: circular doubly linked lists in a memory

    `Ring next prev l` closes the list `l` to a circle; insertions and removals act on `l`. -/

namespace LinkedRing

open Function List Cells

variable {σ α : Type}

structure DNode (α : Type) where
  next : α
  prev : α
deriving DecidableEq, Repr

section Fields

variable [DecidableEq α] [CellStore σ α (DNode α)]

def next (m : σ) (a : α) : α := (CellStore.load m a : DNode α).next

def prev (m : σ) (a : α) : α := (CellStore.load m a : DNode α).prev

def setNext (m : σ) (a v : α) : σ :=
  CellStore.store m a { (CellStore.load m a : DNode α) with next := v }

def setPrev (m : σ) (a v : α) : σ :=
  CellStore.store m a { (CellStore.load m a : DNode α) with prev := v }

@[simp] theorem next_setNext (m : σ) (a v : α) :
    (next (setNext m a v) : α → α) = update (next m) a v := by
  funext x
  by_cases hx : x = a
  · subst hx
    simp [next, setNext, CellStore.load_store_self]
  · simp [next, setNext, CellStore.load_store_of_ne _ _ _ _ hx, hx]

@[simp] theorem prev_setNext (m : σ) (a v : α) : (prev (setNext m a v) : α → α) = prev m := by
  funext x
  by_cases hx : x = a
  · subst hx
    simp [prev, setNext, CellStore.load_store_self]
  · simp [prev, setNext, CellStore.load_store_of_ne _ _ _ _ hx]

@[simp] theorem prev_setPrev (m : σ) (a v : α) :
    (prev (setPrev m a v) : α → α) = update (prev m) a v := by
  funext x
  by_cases hx : x = a
  · subst hx
    simp [prev, setPrev, CellStore.load_store_self]
  · simp [prev, setPrev, CellStore.load_store_of_ne _ _ _ _ hx, hx]

@[simp] theorem next_setPrev (m : σ) (a v : α) : (next (setPrev m a v) : α → α) = next m := by
  funext x
  by_cases hx : x = a
  · subst hx
    simp [next, setPrev, CellStore.load_store_self]
  · simp [next, setPrev, CellStore.load_store_of_ne _ _ _ _ hx]

omit [DecidableEq α] in
theorem setNext_writes {S : α → Prop} (m : σ) {a : α} (v : α) (ha : S a) :
    Writes (DNode α) S m (setNext m a v) := Writes.single ha

omit [DecidableEq α] in
theorem setPrev_writes {S : α → Prop} (m : σ) {a : α} (v : α) (ha : S a) :
    Writes (DNode α) S m (setPrev m a v) := Writes.single ha

end Fields

structure Ring (next prev : α → α) (l : List α) : Prop where
  nodup : l.Nodup
  fwd : l.map next = l.rotate 1
  bwd : (l.rotate 1).map prev = l

variable {nx pv nx' pv' : α → α} {l t : List α} {a b n x : α}

theorem Ring.congr (h : Ring nx pv l) (hn : ∀ y ∈ l, nx' y = nx y)
    (hp : ∀ y ∈ l, pv' y = pv y) : Ring nx' pv' l := by
  refine ⟨h.nodup, ?_, ?_⟩
  · rw [← h.fwd]
    exact map_congr_left hn
  · refine Eq.trans ?_ h.bwd
    refine map_congr_left ?_
    intro y hy
    exact hp y (mem_rotate.mp hy)

theorem Ring.of_writes {β : Type} [CellStore σ α (DNode α)]
    [CellStore σ α β] [Overlay σ α β (DNode α)] {S : α → Prop} {m m' : σ}
    (h : Ring (next m) (prev m) l) (hw : Writes β S m m') (hl : ∀ y ∈ l, ¬ S y) :
    Ring (next m') (prev m') l := by
  have hload : ∀ y ∈ l, (CellStore.load m' y : DNode α) = CellStore.load m y :=
    fun y hy => hw.load_eq (hl y hy)
  refine h.congr ?_ ?_
  · intro y hy
    rw [next, next, hload y hy]
  · intro y hy
    rw [prev, prev, hload y hy]

theorem Ring.rotate (h : Ring nx pv l) (k : Nat) : Ring nx pv (l.rotate k) := by
  refine ⟨nodup_rotate.mpr h.nodup, ?_, ?_⟩
  · rw [map_rotate, h.fwd, rotate_rotate, rotate_rotate, Nat.add_comm]
  · rw [rotate_rotate, Nat.add_comm, ← rotate_rotate, map_rotate, h.bwd]

theorem Ring.swap {u v : List α} (h : Ring nx pv (u ++ v)) : Ring nx pv (v ++ u) := by
  have h1 := h.rotate u.length
  rw [rotate_append_length_eq] at h1
  exact h1

theorem Ring.singleton (hn : nx a = a) (hp : pv a = a) : Ring nx pv [a] :=
  ⟨nodup_singleton a, by simp [hn], by simp [hp]⟩

theorem Ring.of_singleton (h : Ring nx pv [a]) : nx a = a ∧ pv a = a := by
  have h1 := h.fwd
  have h2 := h.bwd
  simp only [map_cons, map_nil, rotate_singleton, List.cons.injEq, and_true] at h1 h2
  exact ⟨h1, h2⟩

theorem Ring.cons_eqs (h : Ring nx pv (a :: t)) :
    (a :: t).map nx = t ++ [a] ∧ (t ++ [a]).map pv = a :: t := by
  have h1 := h.fwd
  have h2 := h.bwd
  simp only [rotate_cons_succ, rotate_zero] at h1 h2
  exact ⟨h1, h2⟩

theorem Ring.next_head (h : Ring nx pv (a :: b :: t)) : nx a = b := by
  have h1 := h.cons_eqs.1
  simp only [map_cons, cons_append, List.cons.injEq] at h1
  exact h1.1

theorem Ring.next_first (h : Ring nx pv (a :: t)) : nx a = t.headD a := by
  cases t with
  | nil => exact h.of_singleton.1
  | cons b t => exact h.next_head

theorem Ring.prev_second (h : Ring nx pv (a :: b :: t)) : pv b = a := by
  have h1 := h.cons_eqs.2
  simp only [cons_append, map_cons, List.cons.injEq] at h1
  exact h1.1

theorem Ring.prev_head (h : Ring nx pv (t ++ [b])) (ha : (t ++ [b]).head? = some a) : pv a = b := by
  have h1 : Ring nx pv ([b] ++ t) := h.swap
  cases t with
  | nil =>
    have hba : b = a := by simpa using ha
    subst hba
    exact h1.of_singleton.2
  | cons c t =>
    have hca : c = a := by simpa using ha
    subst hca
    exact h1.prev_second

theorem Ring.next_last (h : Ring nx pv (t ++ [b])) (ha : (t ++ [b]).head? = some a) : nx b = a := by
  have h1 : Ring nx pv ([b] ++ t) := h.swap
  cases t with
  | nil =>
    have hba : b = a := by simpa using ha
    subst hba
    exact h1.of_singleton.1
  | cons c t =>
    have hca : c = a := by simpa using ha
    subst hca
    exact h1.next_head

theorem Ring.next_mid {u : List α} (h : Ring nx pv ((a :: u) ++ b :: t)) : nx b = t.headD a := by
  have h1 : Ring nx pv ((b :: t) ++ a :: u) := h.swap
  cases t with
  | nil => exact h1.next_head
  | cons c t => exact h1.next_head

theorem Ring.next_mem (h : Ring nx pv l) (hx : x ∈ l) : nx x ∈ l := by
  have h1 : nx x ∈ l.map nx := mem_map.mpr ⟨x, hx, rfl⟩
  rw [h.fwd] at h1
  exact mem_rotate.mp h1

theorem Ring.prev_mem (h : Ring nx pv l) (hx : x ∈ l) : pv x ∈ l := by
  have h1 : pv x ∈ (l.rotate 1).map pv := mem_map.mpr ⟨x, mem_rotate.mpr hx, rfl⟩
  rw [h.bwd] at h1
  exact h1

theorem Ring.prev_next (h : Ring nx pv l) (hx : x ∈ l) : pv (nx x) = x := by
  have h1 : l.map (pv ∘ nx) = l.map id := by
    rw [← map_map, h.fwd, h.bwd, map_id]
  exact map_inj_left.mp h1 x hx

theorem Ring.next_prev (h : Ring nx pv l) (hx : x ∈ l) : nx (pv x) = x := by
  have h1 : x ∈ l.map nx := by
    rw [h.fwd]
    exact mem_rotate.mpr hx
  obtain ⟨y, hy, rfl⟩ := mem_map.mp h1
  rw [h.prev_next hy]

theorem Ring.iterate_mem (h : Ring nx pv l) (hx : x ∈ l) (k : Nat) : nx^[k] x ∈ l := by
  induction k generalizing x with
  | zero => exact hx
  | succ k ih => exact ih (h.next_mem hx)

private theorem map_update_of_notMem [DecidableEq α] {f : α → α} {v : α}
    (hx : x ∉ l) : l.map (update f x v) = l.map f := by
  refine map_congr_left ?_
  intro y hy
  have hyx : y ≠ x := by
    rintro rfl
    exact hx hy
  exact update_of_ne hyx v f

theorem Ring.insertLast [DecidableEq α] (h : Ring nx pv (a :: t)) (hn : n ∉ a :: t) :
    Ring (update (update nx (pv a) n) n a)
      (update (update pv a n) n (pv a)) (a :: t ++ [n]) := by
  obtain ⟨hfwd, hbwd⟩ := h.cons_eqs
  -- name the last member: the list ends in it, and it precedes `a`
  obtain ⟨m, p, hmp⟩ : ∃ m p, a :: t = m ++ [p] :=
    ⟨_, _, (dropLast_append_getLast (cons_ne_nil a t)).symm⟩
  have hp : pv a = p := by
    rw [hmp] at h
    exact h.prev_head (by rw [← hmp]; rfl)
  have hnd : (m ++ [p]).Nodup := hmp ▸ h.nodup
  have hpm : p ∉ m := by
    intro hc
    exact (nodup_append.mp hnd).2.2 p hc p (by simp) rfl
  have hat : a ∉ t := (nodup_cons.mp h.nodup).1
  have hnp : n ∉ m ++ [p] := hmp ▸ hn
  have hnm : n ∉ m := fun hc => hnp (mem_append.mpr (Or.inl hc))
  have hne : p ≠ n := fun hc => hnp (by simp [hc])
  have hna : a ≠ n := fun hc => hn (by simp [hc])
  have hnt : n ∉ t := fun hc => hn (mem_cons_of_mem a hc)
  -- the links of the old members but the last, and of all but the first
  have hm : m.map nx = t := by
    rw [hmp, map_append] at hfwd
    exact (append_inj' hfwd rfl).1
  have ht : t.map pv = m := by
    rw [hmp, map_append] at hbwd
    exact (append_inj' hbwd rfl).1
  rw [hp]
  refine ⟨?_, ?_, ?_⟩
  · rw [hmp]
    exact nodup_append.mpr ⟨hnd, nodup_singleton n, by
      intro y hy z hz hyz
      rw [mem_singleton] at hz
      exact hnp (hz ▸ hyz ▸ hy)⟩
  · have hr : (a :: t ++ [n]).rotate 1 = t ++ [n] ++ [a] := by simp
    rw [hr, hmp, map_append, map_append,
      map_update_of_notMem hnm, map_update_of_notMem hpm, hm]
    simp [hne]
  · have hr : (a :: t ++ [n]).rotate 1 = t ++ [n] ++ [a] := by simp
    rw [hr, map_append, map_append, map_update_of_notMem hnt,
      map_update_of_notMem hat, ht, hmp]
    simp [hna]

theorem Ring.eraseHead [DecidableEq α] (h : Ring nx pv (x :: b :: t)) :
    Ring (update nx (pv x) (nx x)) (update pv (nx x) (pv x)) (b :: t) := by
  obtain ⟨hfwd, hbwd⟩ := h.cons_eqs
  obtain ⟨m, p, hmp⟩ : ∃ m p, b :: t = m ++ [p] :=
    ⟨_, _, (dropLast_append_getLast (cons_ne_nil b t)).symm⟩
  have hxb : nx x = b := h.next_head
  have hp : pv x = p := by
    have h1 : Ring nx pv ((x :: m) ++ [p]) := by
      rw [cons_append, ← hmp]
      exact h
    exact h1.prev_head rfl
  have hnd : (m ++ [p]).Nodup := by
    rw [← hmp]
    exact (nodup_cons.mp h.nodup).2
  have hpm : p ∉ m := by
    intro hc
    exact (nodup_append.mp hnd).2.2 p hc p (by simp) rfl
  have hbt : b ∉ t := (nodup_cons.mp (nodup_cons.mp h.nodup).2).1
  have hm : m.map nx = t := by
    have h1 : (b :: t).map nx = t ++ [x] := by
      rw [map_cons, hxb, cons_append] at hfwd
      exact (List.cons.inj hfwd).2
    rw [hmp, map_append] at h1
    exact (append_inj' h1 rfl).1
  have ht : t.map pv = m := by
    have h1 : (t ++ [x]).map pv = m ++ [p] := by
      rw [cons_append, map_cons] at hbwd
      rw [← hmp]
      exact (List.cons.inj hbwd).2
    rw [map_append] at h1
    exact (append_inj' h1 rfl).1
  rw [hxb, hp]
  refine ⟨(nodup_cons.mp h.nodup).2, ?_, ?_⟩
  · have hr : (b :: t).rotate 1 = t ++ [b] := by simp
    rw [hr, hmp, map_append, map_update_of_notMem hpm, hm]
    simp
  · have hr : (b :: t).rotate 1 = t ++ [b] := by simp
    rw [hr, map_append, map_update_of_notMem hbt, ht, hmp]
    simp

theorem Ring.insertMid [DecidableEq α] {u v : List α} (h : Ring nx pv (u ++ a :: v))
    (hn : n ∉ u ++ a :: v) :
    Ring (update (update nx (pv a) n) n a)
      (update (update pv a n) n (pv a)) (u ++ n :: a :: v) := by
  have h1 : Ring nx pv (a :: (v ++ u)) := h.swap
  have hn1 : n ∉ a :: (v ++ u) := by
    intro hc
    refine hn ?_
    simp only [mem_cons, mem_append] at hc ⊢
    tauto
  have h2 := h1.insertLast hn1
  have hl : a :: (v ++ u) ++ [n] = (a :: v) ++ (u ++ [n]) := by simp
  rw [hl] at h2
  have hr : u ++ n :: a :: v = (u ++ [n]) ++ a :: v := by simp
  rw [hr]
  exact h2.swap

theorem Ring.eraseMid [DecidableEq α] {u v : List α} (h : Ring nx pv (u ++ x :: v))
    (huv : u ++ v ≠ []) :
    Ring (update nx (pv x) (nx x)) (update pv (nx x) (pv x)) (u ++ v) := by
  have h1 : Ring nx pv (x :: (v ++ u)) := h.swap
  cases hvu : v ++ u with
  | nil =>
    obtain ⟨rfl, rfl⟩ := append_eq_nil_iff.mp hvu
    exact absurd rfl huv
  | cons b w =>
    rw [hvu] at h1
    have h2 := h1.eraseHead
    rw [← hvu] at h2
    exact h2.swap

theorem Ring.iterate_getElem? (h : Ring nx pv (a :: t)) :
    ∀ k, k < (a :: t).length → (a :: t)[k]? = some (nx^[k] a) := by
  intro k
  induction k with
  | zero => intro _; rfl
  | succ k ih =>
    intro hk
    have hk' : k < (a :: t).length := by omega
    have h1 := congrArg (fun w : List α => w[k]?) h.cons_eqs.1
    simp only [List.getElem?_map, ih hk', Option.map_some] at h1
    have h2 : (t ++ [a])[k]? = t[k]? := by
      refine List.getElem?_append_left ?_
      simp only [length_cons] at hk
      omega
    rw [h2] at h1
    rw [List.getElem?_cons_succ, ← h1, iterate_succ_apply']

theorem Ring.iterate_nx (h : Ring nx pv (a :: t)) : List.iterate nx a (a :: t).length = a :: t := by
  refine ext_getElem? ?_
  intro k
  by_cases hk : k < (a :: t).length
  · rw [h.iterate_getElem? k hk, List.getElem?_iterate _ _ _ _ hk]
  · have hk' : (a :: t).length ≤ k := Nat.le_of_not_lt hk
    rw [List.getElem?_eq_none hk', List.getElem?_eq_none]
    rw [length_iterate]
    exact hk'

theorem Ring.iterate_length (h : Ring nx pv (a :: t)) : nx^[(a :: t).length] a = a := by
  rcases eq_nil_or_concat t with rfl | ⟨u, z, rfl⟩
  · exact h.of_singleton.1
  · rw [concat_eq_append] at h ⊢
    have hz := h.iterate_getElem? (u.length + 1) (by simp)
    have hlast : (a :: (u ++ [z]))[u.length + 1]? = some z := by simp
    rw [hlast] at hz
    injection hz with hz
    have hnext : nx z = a := by
      have h1 : Ring nx pv ((a :: u) ++ [z]) := h
      exact h1.next_last rfl
    rw [length_cons, length_append, length_singleton,
      iterate_succ_apply', ← hz, hnext]

theorem Ring.flip (h : Ring nx pv (a :: t)) : Ring pv nx (a :: t.reverse) := by
  obtain ⟨hfwd, hbwd⟩ := h.cons_eqs
  have hr : (a :: t.reverse).rotate 1 = t.reverse ++ [a] := by simp
  refine ⟨?_, ?_, ?_⟩
  · have h1 : (a :: t).reverse.Nodup := nodup_reverse.mpr h.nodup
    rw [reverse_cons] at h1
    have h2 : (t.reverse ++ [a]).rotate t.reverse.length
        = a :: t.reverse := rotate_append_length_eq _ _
    rw [← h2]
    exact nodup_rotate.mpr h1
  · have h1 : (t ++ [a]).reverse.map pv = (a :: t).reverse := by
      rw [map_reverse, hbwd]
    rw [hr]
    simpa using h1
  · have h1 : (a :: t).reverse.map nx = (t ++ [a]).reverse := by
      rw [map_reverse, hfwd]
    rw [hr]
    simpa using h1

end LinkedRing
