import Avrtos.Fifo

/-! # Singly linked lists are queues (dstruct/slist.c)

    Beside the pointers a run carries the queue that each list stands for. -/

namespace AvrtosSlistQueues

open Function LinkedChain Runs AvrtosFifo

variable {κ ι : Type} [DecidableEq κ] [DecidableEq ι]

/-- The operations. -/
inductive SlistOp (κ ι : Type)
  | init (list : κ)
  | append (list : κ) (node : ι)
  | get (list : κ)

structure State (κ ι : Type) where
  next : ι → Option ι
  lists : κ → Slist ι
  queues : κ → Option (List ι)

/-- The queues after an operation. -/
def specified (queues : κ → Option (List ι)) : SlistOp κ ι → κ → Option (List ι)
  | .init list => update queues list (some [])
  | .append list node => update queues list ((queues list).map (· ++ [node]))
  | .get list => update queues list ((queues list).map List.tail)

def step (s : State κ ι) : SlistOp κ ι → State κ ι
  | .init list =>
      ⟨s.next, update s.lists list slistInit, specified s.queues (.init list)⟩
  | .append list node =>
      let r := slistAppend s.next (s.lists list) node
      ⟨r.1, update s.lists list r.2, specified s.queues (.append list node)⟩
  | .get list =>
      let r := slistGet s.next (s.lists list)
      ⟨s.next, update s.lists list r.1, specified s.queues (.get list)⟩

def Allowed (s : State κ ι) : SlistOp κ ι → Prop
  | .init _ => True
  | .append list node =>
      (∃ l, s.queues list = some l) ∧ ∀ k l, s.queues k = some l → node ∉ l
  | .get list => ∃ l, s.queues list = some l

/-- Any memory, and no list in it. -/
def Initial (s : State κ ι) : Prop := s.queues = fun _ => none

def SlistOp.list : SlistOp κ ι → κ
  | .init list => list
  | .append list _ => list
  | .get list => list

structure Inv (s : State κ ι) : Prop where
  rep : ∀ k l, s.queues k = some l → SlistRep s.next (s.lists k) l
  apart : ∀ k k' l l', s.queues k = some l → s.queues k' = some l' → k ≠ k' → ∀ x ∈ l, x ∉ l'

structure Change (s s' : State κ ι) (k : κ) (l : List ι) : Prop where
  queues : s'.queues = update s.queues k (some l)
  lists : ∀ k' ≠ k, s'.lists k' = s.lists k'
  rep : SlistRep s'.next (s'.lists k) l
  links : ∀ k' ≠ k, ∀ l', s.queues k' = some l' → ∀ x ∈ l', s'.next x = s.next x ∧ x ∉ l

variable {s s' : State κ ι} {k : κ} {l : List ι} {op : SlistOp κ ι}

omit [DecidableEq ι] in
theorem Inv.change (h : Inv s) (hc : Change s s' k l) : Inv s' := by
  have hself : s'.queues k = some l := by rw [hc.queues, update_self]
  have hother : ∀ k' ≠ k, s'.queues k' = s.queues k' := by
    intro k' hk
    rw [hc.queues, update_of_ne hk]
  refine ⟨?_, ?_⟩
  · intro k' l' hl'
    by_cases hk : k' = k
    · subst hk
      rw [hself] at hl'
      rw [← Option.some.inj hl']
      exact hc.rep
    · rw [hother k' hk] at hl'
      rw [hc.lists k' hk]
      exact (h.rep k' l' hl').congr fun x hx => (hc.links k' hk l' hl' x hx).1
  · intro k₁ k₂ l₁ l₂ h₁ h₂ hne x hx₁ hx₂
    by_cases hk₁ : k₁ = k
    · have hk₂ : k₂ ≠ k := fun hk₂ => hne (hk₁.trans hk₂.symm)
      rw [hk₁, hself] at h₁
      rw [hother k₂ hk₂] at h₂
      exact (hc.links k₂ hk₂ l₂ h₂ x hx₂).2 (Option.some.inj h₁ ▸ hx₁)
    · rw [hother k₁ hk₁] at h₁
      by_cases hk₂ : k₂ = k
      · rw [hk₂, hself] at h₂
        exact (hc.links k₁ hk₁ l₁ h₁ x hx₁).2 (Option.some.inj h₂ ▸ hx₂)
      · rw [hother k₂ hk₂] at h₂
        exact h.apart k₁ k₂ l₁ l₂ h₁ h₂ hne x hx₁ hx₂

/-- **EVERY OPERATION** changes the list it works on as it is to. -/
theorem exists_change (h : Inv s) (hok : Allowed s op) : ∃ l, Change s (step s op) op.list l := by
  cases op with
  | init list =>
    refine ⟨[], rfl, ?_, ?_, ?_⟩
    · exact fun k' hk => update_of_ne hk _ _
    · have hlist : (step s (.init list)).lists list = slistInit := update_self _ _ _
      exact hlist ▸ slistInit_rep
    · exact fun k' _ l' _ x _ => ⟨rfl, List.not_mem_nil⟩
  | append list node =>
    obtain ⟨⟨l, hl⟩, hfree⟩ := hok
    obtain ⟨hrep, hlinks⟩ := (h.rep list l hl).append (hfree list l hl)
    have hlist : (step s (.append list node)).lists list =
        (slistAppend s.next (s.lists list) node).2 := update_self _ _ _
    refine ⟨l ++ [node], ?_, ?_, ?_, ?_⟩
    · exact congrArg (update s.queues list) (by rw [hl, Option.map_some])
    · exact fun k' hk => update_of_ne hk _ _
    · exact hlist ▸ hrep
    · intro k' hk l' hl' x hx
      have hne : x ≠ node := by
        rintro rfl
        exact hfree k' l' hl' hx
      have hnotin : x ∉ l := fun hxl => h.apart list k' l l' hl hl' (Ne.symm hk) x hxl hx
      refine ⟨hlinks x hne hnotin, fun hmem => ?_⟩
      rcases List.mem_append.mp hmem with hmem | hmem
      · exact hnotin hmem
      · exact hne (List.mem_singleton.mp hmem)
  | get list =>
    obtain ⟨l, hl⟩ := hok
    have hlist : (step s (.get list)).lists list = (slistGet s.next (s.lists list)).1 :=
      update_self _ _ _
    refine ⟨l.tail, ?_, ?_, ?_, ?_⟩
    · exact congrArg (update s.queues list) (by rw [hl, Option.map_some])
    · exact fun k' hk => update_of_ne hk _ _
    · have hrep := h.rep list l hl
      rw [SlistOp.list, hlist]
      cases l with
      | nil =>
        rw [hrep.get_nil]
        exact hrep
      | cons a l => exact hrep.get.2
    · intro k' hk l' hl' x hx
      exact ⟨rfl, fun hmem =>
        h.apart list k' l l' hl hl' (Ne.symm hk) x (List.mem_of_mem_tail hmem) hx⟩

theorem inv_of_reach (h : Reach Initial Allowed step s) : Inv s := by
  refine h.invariant ?_ ?_
  · intro s hs
    have hnone : s.queues = fun _ => none := hs
    refine ⟨fun k l hl => ?_, fun k k' l l' hl => ?_⟩
    · rw [hnone] at hl
      exact (Option.some_ne_none l hl.symm).elim
    · rw [hnone] at hl
      exact (Option.some_ne_none l hl.symm).elim
  · intro s op hinv hok
    obtain ⟨l, hc⟩ := exists_change hinv hok
    exact hinv.change hc

/-- **LISTS IMPLEMENT QUEUES**: in every run each list links the nodes of its queue, and each
    operation leaves the other lists alone. -/
theorem slist_queues (h : Reach Initial Allowed step s) :
    (∀ k l, s.queues k = some l →
      Chain s.next (s.lists k).head l ∧ (s.lists k).tail = l.getLast? ∧
      (l = [] → (s.lists k).head = none ∧ (s.lists k).tail = none) ∧
      (slistGet s.next (s.lists k)).2 = l.head?) ∧
    ∀ op, Allowed s op → ∀ k ≠ op.list, (step s op).lists k = s.lists k ∧
      (step s op).queues k = s.queues k ∧
      ∀ l, s.queues k = some l → ∀ x ∈ l, (step s op).next x = s.next x := by
  have hinv := inv_of_reach h
  refine ⟨?_, ?_⟩
  · intro k l hl
    have hrep := hinv.rep k l hl
    refine ⟨hrep.chain, hrep.tail, ?_, ?_⟩
    · rintro rfl
      exact ⟨hrep.chain, hrep.tail⟩
    · cases l with
      | nil => rw [hrep.get_nil]; rfl
      | cons a l => exact hrep.get.1
  · intro op hok k hk
    obtain ⟨l, hc⟩ := exists_change hinv hok
    refine ⟨hc.lists k hk, ?_, ?_⟩
    · rw [hc.queues, update_of_ne hk]
    · intro l' hl' x hx
      exact (hc.links k hk l' hl' x hx).1

def fresh : State Nat Nat := ⟨fun _ => some 7, fun _ => ⟨some 7, some 7⟩, fun _ => none⟩

/-- The list 0 after the nodes 1 and 2 were appended and one was taken. -/
theorem slist_queues_two :
    let s := [SlistOp.init 0, .append 0 1, .append 0 2, .get 0].foldl step fresh
    Chain s.next (s.lists 0).head [2] ∧ (s.lists 0).tail = ([2] : List Nat).getLast? ∧
      (([2] : List Nat) = [] → (s.lists 0).head = none ∧ (s.lists 0).tail = none) ∧
      (slistGet s.next (s.lists 0)).2 = ([2] : List Nat).head? := by
  have hfree : ∀ (s : State Nat Nat) (q : List Nat) (node : Nat),
      s.queues = update (fun _ => none) 0 (some q) → node ∉ q →
      Allowed s (.append 0 node) := by
    intro s q node hs hnode
    refine ⟨⟨q, by rw [hs, update_self]⟩, fun k l hl => ?_⟩
    rw [hs] at hl
    by_cases hk : k = 0
    · rw [hk, update_self] at hl
      rwa [← Option.some.inj hl]
    · rw [update_of_ne hk] at hl
      exact (Option.some_ne_none l hl.symm).elim
  have hqueues : ∀ q q' : Option (List Nat),
      update (update (fun _ => none) 0 q) 0 q' =
        update (fun _ : Nat => none) 0 q' := fun q q' => update_idem _ _ _
  have hone : Allowed (step fresh (.init 0)) (.append 0 1) := hfree _ [] 1 rfl (by decide)
  have htwo : Allowed (step (step fresh (.init 0)) (.append 0 1)) (.append 0 2) :=
    hfree _ [1] 2 (hqueues _ _) (by decide)
  have hrun : Runs.Allowed Allowed step fresh [SlistOp.init 0, .append 0 1, .append 0 2, .get 0] :=
    ⟨trivial, hone, htwo, ⟨[1, 2], rfl⟩, trivial⟩
  have hstart : Initial fresh := rfl
  exact (slist_queues ((Reach.start hstart).foldl hrun)).1 0 [2] rfl

end AvrtosSlistQueues
