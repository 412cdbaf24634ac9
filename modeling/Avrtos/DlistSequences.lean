import Avrtos.Base.Runs
import Avrtos.Dlist

/-! # Doubly linked lists are sequences (dstruct/dlist.c)

    Beside the memory a run carries the sequence that each list stands for. -/

namespace AvrtosDlistSequences

open List hiding next prev
open Function Cells LinkedRing Runs AvrtosDlist

variable {σ α : Type} [DecidableEq α] [CellStore σ α (DNode α)]

def dlistCountLoop (m : σ) (list : α) : Nat → α → BitVec 8 → Option (BitVec 8)
  | 0, _, _ => none
  | fuel + 1, cur, count =>
      if cur = list then some count else dlistCountLoop m list fuel (next m cur) (count + 1)

/-- `dlist_count`. -/
def dlistCount (m : σ) (fuel : Nat) (list : α) : Option (BitVec 8) :=
  dlistCountLoop m list fuel (next m list) 0

inductive DlistOp (α : Type)
  | init (list : α)
  | append (list node : α)
  | prepend (list node : α)
  | insert (successor node : α)
  | remove (node : α)
  | get (list : α)

def call (m : σ) : DlistOp α → σ × Option α
  | .init list => (dlistInit m list, none)
  | .append list node => (dlistAppend m list node, none)
  | .prepend list node => (dlistPrepend m list node, none)
  | .insert successor node => (dlistInsert m successor node, none)
  | .remove node => (dlistRemove m node, none)
  | .get list => ((dlistGet m list).1, some (dlistGet m list).2)

abbrev Sequences (α : Type) := α → Option (List α)

def before (successor node : α) (l : List α) : List α :=
  l.flatMap fun x => if x = successor then [node, x] else [x]

def insertBefore (list successor node : α) (l : List α) : List α :=
  if successor = list then l ++ [node] else before successor node l

/-- What the operations are for. -/
def specified (seqs : Sequences α) : DlistOp α → Sequences α × Option α
  | .init list => (update seqs list (some []), none)
  | .append list node => (update seqs list ((seqs list).map (· ++ [node])), none)
  | .prepend list node => (update seqs list ((seqs list).map (node :: ·)), none)
  | .insert successor node => (fun k => (seqs k).map (insertBefore k successor node), none)
  | .remove node => (fun k => (seqs k).map (·.erase node), none)
  | .get list =>
      match seqs list with
      | some (a :: l) => (update seqs list (some l), some a)
      | _ => (seqs, some list)

def Free (seqs : Sequences α) (node : α) : Prop :=
  ∀ k l, seqs k = some l → node ∉ k :: l

def Allowed (seqs : Sequences α) : DlistOp α → Prop
  | .init list => ∀ k l, seqs k = some l → k ≠ list → list ∉ l
  | .append list node => (∃ l, seqs list = some l) ∧ Free seqs node
  | .prepend list node => (∃ l, seqs list = some l) ∧ Free seqs node
  | .insert successor node => (∃ k l, seqs k = some l ∧ successor ∈ k :: l) ∧ Free seqs node
  | .remove node => ∃ k l, seqs k = some l ∧ node ∈ l
  | .get list => ∃ l, seqs list = some l

def Concerns (seqs : Sequences α) (k : α) : DlistOp α → Prop
  | .init list => k = list
  | .append list _ => k = list
  | .prepend list _ => k = list
  | .insert successor _ => ∃ l, seqs k = some l ∧ successor ∈ k :: l
  | .remove node => ∃ l, seqs k = some l ∧ node ∈ l
  | .get list => k = list

/-- A memory, and its sequences. -/
structure State (σ α : Type) where
  mem : σ
  seqs : Sequences α

def step (s : State σ α) (op : DlistOp α) : State σ α :=
  ⟨(call s.mem op).1, (specified s.seqs op).1⟩

structure Inv (m : σ) (seqs : Sequences α) : Prop where
  ring : ∀ k l, seqs k = some l → Ring (next m) (prev m) (k :: l)
  apart : ∀ k k' l l', seqs k = some l → seqs k' = some l' → k ≠ k' →
    ∀ x ∈ k :: l, x ∉ k' :: l'

structure Change (m m' : σ) (seqs seqs' : Sequences α) (k : α) (l : List α)
    (touched : α → Prop) : Prop where
  seqs_eq : seqs' = update seqs k (some l)
  ring : Ring (next m') (prev m') (k :: l)
  members : ∀ x ∈ k :: l, touched x
  writes : Writes (DNode α) touched m m'
  apart : ∀ x, touched x → ∀ k' l', seqs k' = some l' → k' ≠ k → x ∉ k' :: l'

variable {m m' : σ} {seqs seqs' : Sequences α} {k list node x : α} {l : List α}
variable {touched : α → Prop}

theorem Change.load_eq (hc : Change m m' seqs seqs' k l touched) {k' : α} {l' : List α}
    (hk : k' ≠ k) (hl : seqs k' = some l') (hx : x ∈ k' :: l') :
    (CellStore.load m' x : DNode α) = CellStore.load m x :=
  hc.writes.load_eq fun ht => hc.apart x ht k' l' hl hk hx

theorem Change.seqs_of_ne (hc : Change m m' seqs seqs' k l touched) {k' : α} (hk : k' ≠ k) :
    seqs' k' = seqs k' := by
  rw [hc.seqs_eq, update_of_ne hk]

theorem Change.seqs_self (hc : Change m m' seqs seqs' k l touched) : seqs' k = some l := by
  rw [hc.seqs_eq, update_self]

theorem Inv.change (h : Inv m seqs) (hc : Change m m' seqs seqs' k l touched) : Inv m' seqs' := by
  have hcases : ∀ k' l', seqs' k' = some l' → (k' = k ∧ l' = l) ∨ (k' ≠ k ∧ seqs k' = some l') := by
    intro k' l' hl'
    by_cases hk : k' = k
    · subst hk
      rw [hc.seqs_self] at hl'
      exact Or.inl ⟨rfl, (Option.some.inj hl').symm⟩
    · rw [hc.seqs_of_ne hk] at hl'
      exact Or.inr ⟨hk, hl'⟩
  refine ⟨?_, ?_⟩
  · intro k' l' hl'
    rcases hcases k' l' hl' with ⟨rfl, rfl⟩ | ⟨hk, hl'⟩
    · exact hc.ring
    · refine (h.ring k' l' hl').of_writes hc.writes ?_
      intro y hy ht
      exact hc.apart y ht k' l' hl' hk hy
  · intro k₁ k₂ l₁ l₂ h₁ h₂ hne y hy₁ hy₂
    rcases hcases k₁ l₁ h₁ with ⟨rfl, rfl⟩ | ⟨hk₁, h₁⟩
    · rcases hcases k₂ l₂ h₂ with ⟨rfl, rfl⟩ | ⟨hk₂, h₂⟩
      · exact hne rfl
      · exact hc.apart y (hc.members y hy₁) k₂ l₂ h₂ hk₂ hy₂
    · rcases hcases k₂ l₂ h₂ with ⟨rfl, rfl⟩ | ⟨hk₂, h₂⟩
      · exact hc.apart y (hc.members y hy₂) k₁ l₁ h₁ hk₁ hy₁
      · exact h.apart k₁ k₂ l₁ l₂ h₁ h₂ hne y hy₁ hy₂

omit [DecidableEq α] in
theorem Inv.apart_or (h : Inv m seqs) (hl : seqs k = some l) (hfree : Free seqs node) :
    ∀ x, (x = node ∨ x ∈ k :: l) → ∀ k' l', seqs k' = some l' → k' ≠ k → x ∉ k' :: l' := by
  rintro x (rfl | hx) k' l' hl' hk
  · exact hfree k' l' hl'
  · exact h.apart k k' l l' hl hl' hk.symm x hx

omit [DecidableEq α] in
theorem Inv.apart_mem (h : Inv m seqs) (hl : seqs k = some l) :
    ∀ x, x ∈ k :: l → ∀ k' l', seqs k' = some l' → k' ≠ k → x ∉ k' :: l' :=
  fun x hx k' l' hl' hk => h.apart k k' l l' hl hl' hk.symm x hx

theorem change_init (hinit : ∀ k l, seqs k = some l → k ≠ list → list ∉ l) :
    Change m (dlistInit m list) seqs (update seqs list (some [])) list [] (· = list) where
  seqs_eq := rfl
  ring := dlistInit_ring
  members _ hx := mem_singleton.mp hx
  writes := dlistInit_writes
  apart := by
    rintro x rfl k' l' hl' hk hx
    rcases mem_cons.mp hx with heq | hx
    · exact hk heq.symm
    · exact hinit k' l' hl' hk hx

theorem change_append (h : Inv m seqs) (hl : seqs list = some l) (hfree : Free seqs node) :
    Change m (dlistAppend m list node) seqs
      (update seqs list ((seqs list).map (· ++ [node]))) list (l ++ [node])
      (fun x => x = node ∨ x ∈ list :: l) where
  seqs_eq := by rw [hl, Option.map_some]
  ring := dlistAppend_ring (h.ring list l hl) (hfree list l hl)
  members x hx := by
    simp only [mem_cons, mem_append, not_mem_nil, or_false] at hx ⊢
    tauto
  writes := dlistAppend_writes (h.ring list l hl)
  apart := h.apart_or hl hfree

theorem change_prepend (h : Inv m seqs) (hl : seqs list = some l) (hfree : Free seqs node) :
    Change m (dlistPrepend m list node) seqs
      (update seqs list ((seqs list).map (node :: ·))) list (node :: l)
      (fun x => x = node ∨ x ∈ list :: l) where
  seqs_eq := by rw [hl, Option.map_some]
  ring := dlistPrepend_ring (h.ring list l hl) (hfree list l hl)
  members x hx := by
    simp only [mem_cons] at hx ⊢
    tauto
  writes := dlistPrepend_writes (h.ring list l hl)
  apart := h.apart_or hl hfree

theorem map_eq_update {f : α → List α → List α} (hl : seqs k = some l)
    (hf : ∀ k' l', seqs k' = some l' → k' ≠ k → f k' l' = l') :
    (fun k' => (seqs k').map (f k')) = update seqs k (some (f k l)) := by
  funext k'
  by_cases hk : k' = k
  · rw [hk, update_self, hl, Option.map_some]
  · rw [update_of_ne hk]
    cases hl' : seqs k' with
    | none => rfl
    | some l' => rw [Option.map_some, hf k' l' hl' hk]

theorem before_of_notMem {successor : α} (h : successor ∉ l) : before successor node l = l := by
  induction l with
  | nil => rfl
  | cons a l ih =>
    have ha : a ≠ successor := by
      rintro rfl
      exact h mem_cons_self
    have hrest := ih fun hl => h (mem_cons_of_mem a hl)
    rw [before] at hrest ⊢
    rw [flatMap_cons, if_neg ha, hrest]
    rfl

theorem before_mid {successor : α} {u v : List α} (h : (u ++ successor :: v).Nodup) :
    before successor node (u ++ successor :: v) = u ++ node :: successor :: v := by
  obtain ⟨-, hv, hdisj⟩ := nodup_append.mp h
  have hu : before successor node u = u :=
    before_of_notMem fun hu => hdisj _ hu _ mem_cons_self rfl
  have hv : before successor node v = v := before_of_notMem (nodup_cons.mp hv).1
  rw [before] at hu hv ⊢
  rw [flatMap_append, flatMap_cons, if_pos rfl, hu, hv]
  rfl

theorem insertBefore_of_notMem {successor : α} (h : successor ∉ k :: l) :
    insertBefore k successor node l = l := by
  have hk : successor ≠ k := by
    rintro rfl
    exact h mem_cons_self
  rw [insertBefore, if_neg hk, before_of_notMem fun hl => h (mem_cons_of_mem k hl)]

theorem mem_insertBefore {successor : α} (hx : x ∈ insertBefore k successor node l) :
    x = node ∨ x ∈ l := by
  rw [insertBefore] at hx
  split at hx
  · rcases mem_append.mp hx with hx | hx
    · exact Or.inr hx
    · exact Or.inl (mem_singleton.mp hx)
  · obtain ⟨y, hy, hx⟩ := mem_flatMap.mp hx
    split at hx
    · rcases mem_cons.mp hx with hx | hx
      · exact Or.inl hx
      · exact Or.inr (mem_singleton.mp hx ▸ hy)
    · exact Or.inr (mem_singleton.mp hx ▸ hy)

theorem dlistInsert_insertBefore {successor : α} (h : Ring (next m) (prev m) (k :: l))
    (hs : successor ∈ k :: l) (hn : node ∉ k :: l) :
    Ring (next (dlistInsert m successor node)) (prev (dlistInsert m successor node))
      (k :: insertBefore k successor node l) := by
  rcases mem_cons.mp hs with rfl | hsl
  · -- before the list's own node: the ring is closed there
    have hring : Ring (next m) (prev m) ([] ++ successor :: l) := h
    have hnew : Ring (next (dlistInsert m successor node)) (prev (dlistInsert m successor node))
        ([node] ++ successor :: l) := dlistInsert_ring hring hn
    rw [insertBefore, if_pos rfl]
    exact hnew.swap
  · obtain ⟨hk, hnodup⟩ := nodup_cons.mp h.nodup
    have hne : successor ≠ k := by
      rintro rfl
      exact hk hsl
    obtain ⟨u, v, rfl⟩ := append_of_mem hsl
    rw [insertBefore, if_neg hne, before_mid hnodup]
    exact dlistInsert_ring (u := k :: u) h hn

theorem change_insert {successor : α} (h : Inv m seqs) (hl : seqs k = some l)
    (hs : successor ∈ k :: l) (hfree : Free seqs node) :
    Change m (dlistInsert m successor node) seqs
      (fun k => (seqs k).map (insertBefore k successor node)) k
      (insertBefore k successor node l) (fun x => x = node ∨ x ∈ k :: l) where
  seqs_eq := map_eq_update hl fun k' l' hl' hk =>
    insertBefore_of_notMem (h.apart_mem hl successor hs k' l' hl' hk)
  ring := dlistInsert_insertBefore (h.ring k l hl) hs (hfree k l hl)
  members x hx := by
    rcases mem_cons.mp hx with rfl | hx
    · exact Or.inr mem_cons_self
    · exact (mem_insertBefore hx).imp_right (mem_cons_of_mem k)
  writes := dlistInsert_writes (h.ring k l hl) hs
  apart := h.apart_or hl hfree

theorem change_remove (h : Inv m seqs) (hl : seqs k = some l) (hn : node ∈ l) :
    Change m (dlistRemove m node) seqs (fun k => (seqs k).map (·.erase node)) k (l.erase node)
      (fun x => x ∈ k :: l) where
  seqs_eq := map_eq_update (f := fun _ l => l.erase node) hl fun k' l' hl' hk =>
    erase_of_not_mem fun hn' =>
      h.apart_mem hl node (mem_cons_of_mem k hn) k' l' hl' hk (mem_cons_of_mem k' hn')
  ring := by
    have hring := h.ring k l hl
    obtain ⟨u, v, rfl⟩ := append_of_mem hn
    have hnu : node ∉ u := by
      intro hu
      have hnodup := (nodup_cons.mp hring.nodup).2
      exact (nodup_append.mp hnodup).2.2 node hu node mem_cons_self rfl
    rw [erase_append_right _ hnu, erase_cons_head]
    exact dlistRemove_ring (u := k :: u) hring (cons_ne_nil _ _)
  members x hx := by
    rcases mem_cons.mp hx with rfl | hx
    · exact mem_cons_self
    · exact mem_cons_of_mem k (mem_of_mem_erase hx)
  writes := dlistRemove_writes (h.ring k l hl) (mem_cons_of_mem k hn)
  apart := h.apart_mem hl

omit [DecidableEq α] in
theorem dlistGet_cons {a : α} (h : Ring (next m) (prev m) (list :: a :: l)) :
    dlistGet m list = (dlistRemove m a, a) := by
  rw [dlistGet, h.next_head]

theorem dlistGet_nil (h : Ring (next m) (prev m) [list]) :
    (dlistGet m list).2 = list ∧ (next (dlistGet m list).1 : α → α) = next m ∧
      (prev (dlistGet m list).1 : α → α) = prev m := by
  obtain ⟨hnext, hprev⟩ := h.of_singleton
  rw [dlistGet, hnext]
  exact ⟨rfl, dlistRemove_self hnext hprev⟩

theorem exists_change (h : Inv m seqs) {op : DlistOp α} (hok : Allowed seqs op) :
    (call m op).2 = (specified seqs op).2 ∧ ∃ k l touched, Concerns seqs k op ∧
      Change m (call m op).1 seqs (specified seqs op).1 k l touched := by
  cases op with
  | init list => exact ⟨rfl, list, _, _, rfl, change_init hok⟩
  | append list node =>
    obtain ⟨⟨l, hl⟩, hfree⟩ := hok
    exact ⟨rfl, list, _, _, rfl, change_append h hl hfree⟩
  | prepend list node =>
    obtain ⟨⟨l, hl⟩, hfree⟩ := hok
    exact ⟨rfl, list, _, _, rfl, change_prepend h hl hfree⟩
  | insert successor node =>
    obtain ⟨⟨k, l, hl, hs⟩, hfree⟩ := hok
    exact ⟨rfl, k, _, _, ⟨l, hl, hs⟩, change_insert h hl hs hfree⟩
  | remove node =>
    obtain ⟨k, l, hl, hn⟩ := hok
    exact ⟨rfl, k, _, _, ⟨l, hl, hn⟩, change_remove h hl hn⟩
  | get list =>
    obtain ⟨l, hl⟩ := hok
    have hring := h.ring list l hl
    cases l with
    | nil =>
      obtain ⟨hret, hnext, hprev⟩ := dlistGet_nil hring
      have hself : (next m list : α) = list := hring.of_singleton.1
      simp only [call, specified, hl]
      refine ⟨congrArg some hret, list, [], (· ∈ [list]), rfl, ?_⟩
      exact
        { seqs_eq := (update_eq_self_iff.mpr hl.symm).symm
          ring := by
            rw [hnext, hprev]
            exact hring
          members := fun _ hx => hx
          writes := by
            rw [dlistGet, hself]
            exact dlistRemove_writes hring mem_cons_self
          apart := h.apart_mem hl }
    | cons a l =>
      have hchange := change_remove h hl (mem_cons_self (a := a))
      have herase : (a :: l).erase a = l := erase_cons_head a l
      rw [herase] at hchange
      simp only [call, specified, hl, dlistGet_cons hring]
      exact ⟨trivial, list, l, _, rfl,
        ⟨rfl, hchange.ring, hchange.members, hchange.writes, hchange.apart⟩⟩

variable {s : State σ α}

/-- Any memory, and no list in it. -/
def Initial (s : State σ α) : Prop := s.seqs = fun _ => none

theorem inv_of_reach (h : Reach Initial (fun s : State σ α => Allowed s.seqs) step s) :
    Inv s.mem s.seqs := by
  refine h.invariant (P := fun s : State σ α => Inv s.mem s.seqs) ?_ ?_
  · intro s hs
    have hnone : s.seqs = fun _ => none := hs
    rw [hnone]
    exact ⟨fun k l hl => (Option.some_ne_none l hl.symm).elim,
      fun k k' l l' hl => (Option.some_ne_none l hl.symm).elim⟩
  · intro s op hinv hok
    obtain ⟨-, k, l, touched, -, hc⟩ := exists_change hinv hok
    exact hinv.change hc

theorem dlistCountLoop_eq {u v : List α} {fuel : Nat}
    (h : Ring (next m) (prev m) (list :: (u ++ v))) (hfuel : v.length < fuel) (count : BitVec 8) :
    dlistCountLoop m list fuel (v.headD list) count = some (count + BitVec.ofNat 8 v.length) := by
  induction v generalizing u fuel count with
  | nil =>
    obtain ⟨n, rfl⟩ := Nat.exists_eq_add_one_of_ne_zero (Nat.ne_of_gt hfuel)
    rw [dlistCountLoop]
    exact (if_pos rfl).trans (congrArg some (BitVec.add_zero count).symm)
  | cons b v ih =>
    obtain ⟨n, rfl⟩ := Nat.exists_eq_add_one_of_ne_zero (Nat.ne_of_gt (Nat.zero_lt_of_lt hfuel))
    have hne : b ≠ list := by
      rintro rfl
      exact (nodup_cons.mp h.nodup).1 (mem_append_right u mem_cons_self)
    have hnext : next m b = v.headD list := Ring.next_mid (u := u) h
    have hrest : Ring (next m) (prev m) (list :: ((u ++ [b]) ++ v)) := by
      rw [append_assoc]
      exact h
    rw [headD_cons, dlistCountLoop, if_neg hne, hnext,
      ih hrest (Nat.lt_of_succ_lt_succ hfuel), length_cons, BitVec.ofNat_add, BitVec.add_assoc,
      BitVec.add_comm (BitVec.ofNat 8 v.length)]
    rfl

theorem dlistCount_eq (h : Ring (next m) (prev m) (list :: l)) {fuel : Nat}
    (hfuel : l.length < fuel) : dlistCount m fuel list = some (BitVec.ofNat 8 l.length) := by
  have hring : Ring (next m) (prev m) (list :: ([] ++ l)) := h
  rw [dlistCount, h.next_first, dlistCountLoop_eq hring hfuel]
  exact congrArg some (BitVec.zero_add _)

/-- A list in the memory. -/
structure ReadsOff (m : σ) (list : α) (l : List α) : Prop where
  nodup : (list :: l).Nodup
  inverse : ∀ x ∈ list :: l, prev m (next m x) = x ∧ next m (prev m x) = x
  walk : List.iterate (next m) list (l.length + 1) = list :: l
  circular : (next m)^[l.length + 1] list = list

omit [DecidableEq α] in
theorem readsOff_of_ring (h : Ring (next m) (prev m) (list :: l)) : ReadsOff m list l where
  nodup := h.nodup
  inverse _ hx := ⟨h.prev_next hx, h.next_prev hx⟩
  walk := h.iterate_nx
  circular := h.iterate_length

/-- **LISTS IMPLEMENT SEQUENCES**: in every run each list reads off its sequence, and each
    operation works on its own lists only. -/
theorem dlist_sequences
    (h : Reach Initial (fun s : State σ α => Allowed s.seqs) step s) :
    (∀ list l, s.seqs list = some l → ReadsOff s.mem list l ∧
      (l.length < 256 → ∀ fuel, l.length < fuel →
        ∃ n, dlistCount s.mem fuel list = some n ∧ n.toNat = l.length)) ∧
    ∀ op, Allowed s.seqs op →
      (call s.mem op).2 = (specified s.seqs op).2 ∧
      (∀ k l, s.seqs k = some l → ¬ Concerns s.seqs k op →
        (step s op).seqs k = some l ∧ ∀ x ∈ k :: l,
          (CellStore.load (step s op).mem x : DNode α) = CellStore.load s.mem x) ∧
      (∀ list, op = .get list → s.seqs list = some [] →
        (call s.mem op).2 = some list ∧ (step s op).seqs = s.seqs ∧
          (next (step s op).mem : α → α) = next s.mem ∧
          (prev (step s op).mem : α → α) = prev s.mem) := by
  have hinv := inv_of_reach h
  refine ⟨?_, ?_⟩
  · intro list l hl
    refine ⟨readsOff_of_ring (hinv.ring list l hl), fun hlen fuel hfuel => ?_⟩
    refine ⟨_, dlistCount_eq (hinv.ring list l hl) hfuel, ?_⟩
    rw [BitVec.toNat_ofNat]
    exact Nat.mod_eq_of_lt hlen
  · intro op hok
    obtain ⟨hret, k, l, touched, hconcerns, hc⟩ := exists_change hinv hok
    refine ⟨hret, ?_, ?_⟩
    · intro k' l' hl' hother
      have hk : k' ≠ k := by
        rintro rfl
        exact hother hconcerns
      refine ⟨(hc.seqs_of_ne hk).trans hl', ?_⟩
      intro x hx
      exact hc.load_eq hk hl' hx
    · rintro list rfl hl
      obtain ⟨hlist, hnext, hprev⟩ := dlistGet_nil (hinv.ring list [] hl)
      refine ⟨congrArg some hlist, ?_, hnext, hprev⟩
      simp only [step, specified, hl]

section Decidable

variable [Fintype α] (seqs : Sequences α)

instance decExistsSeq (list : α) : Decidable (∃ l, seqs list = some l) :=
  decidable_of_iff _ Option.isSome_iff_exists

instance (node : α) : Decidable (Free seqs node) :=
  inferInstanceAs (Decidable (∀ k, ∀ l ∈ seqs k, node ∉ k :: l))

instance : (op : DlistOp α) → Decidable (Allowed seqs op)
  | .init list => inferInstanceAs (Decidable (∀ k, ∀ l ∈ seqs k, k ≠ list → list ∉ l))
  | .append list _ => inferInstanceAs (Decidable ((∃ l, seqs list = some l) ∧ _))
  | .prepend list _ => inferInstanceAs (Decidable ((∃ l, seqs list = some l) ∧ _))
  | .insert successor _ =>
      inferInstanceAs (Decidable ((∃ k, ∃ l ∈ seqs k, successor ∈ k :: l) ∧ _))
  | .remove node => inferInstanceAs (Decidable (∃ k, ∃ l ∈ seqs k, node ∈ l))
  | .get list => inferInstanceAs (Decidable (∃ l, seqs list = some l))

end Decidable

def fresh : State (Fin 8 → DNode (Fin 8)) (Fin 8) := ⟨fun _ => ⟨7, 7⟩, fun _ => none⟩

def twoLists : State (Fin 8 → DNode (Fin 8)) (Fin 8) :=
  [DlistOp.init 0, .init 4, .append 0 1, .append 0 2, .append 4 5, .insert 2 3, .remove 1,
    .prepend 4 6, .get 0, .append 4 3].foldl step fresh

theorem dlist_sequences_two :
    ReadsOff twoLists.mem (0 : Fin 8) [2] ∧ ReadsOff twoLists.mem (4 : Fin 8) [6, 5, 3] ∧
      (call twoLists.mem (.get (4 : Fin 8))).2 = some 6 := by
  have hstart : Initial fresh := rfl
  have hreach : Reach Initial (fun s : State (Fin 8 → DNode (Fin 8)) (Fin 8) => Allowed s.seqs)
      step twoLists := (Reach.start hstart).foldl (by decide)
  obtain ⟨hlists, hnext⟩ := dlist_sequences hreach
  refine ⟨(hlists 0 [2] (by decide)).1, (hlists 4 [6, 5, 3] (by decide)).1, ?_⟩
  exact (hnext (.get 4) (by decide)).1.trans (by decide)

end AvrtosDlistSequences
