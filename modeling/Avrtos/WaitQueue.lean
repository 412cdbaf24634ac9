import Avrtos.Kernel

/-! # Wait queues as lists of waiters

    `WaitRep` reads the queues as lists; the list operations act on the lists. -/

namespace AvrtosKernel

open List hiding next prev
open Function AvrtosDlist Cells LinkedRing

variable {Tid Qid Pid : Type} [DecidableEq Tid] [DecidableEq Qid] [DecidableEq Pid]

abbrev WaitMem (Tid Qid Pid : Type) : Type :=
  WNode Tid Qid Pid → DNode (WNode Tid Qid Pid)

structure WaitRep (wait : WaitMem Tid Qid Pid)
    (waitq : Qid → List (WNode Tid Qid Pid)) : Prop where
  ringed : ∀ q, Ring (next wait) (prev wait) (.queue q :: waitq q)
  node : ∀ q, ∀ n ∈ waitq q, ∀ q', n ≠ .queue q'
  disjoint : ∀ q q', q ≠ q' → ∀ n ∈ waitq q, n ∉ waitq q'

/-- The node is linked to itself. -/
def SelfLinked (wait : WaitMem Tid Qid Pid) (n : WNode Tid Qid Pid) : Prop :=
  next wait n = n ∧ prev wait n = n
deriving Decidable

/-- The node is in no queue. -/
def Unqueued (waitq : Qid → List (WNode Tid Qid Pid)) (n : WNode Tid Qid Pid) :
    Prop :=
  ∀ q, n ∉ waitq q

section Lemmas

variable {wait wait' : WaitMem Tid Qid Pid}
variable {waitq : Qid → List (WNode Tid Qid Pid)}
variable {q : Qid} {n x : WNode Tid Qid Pid} {rest : List (WNode Tid Qid Pid)}

theorem WaitRep.nodup (h : WaitRep wait waitq) (q : Qid) : (waitq q).Nodup :=
  (nodup_cons.mp (h.ringed q).nodup).2

theorem WaitRep.ring_disjoint (h : WaitRep wait waitq) {q q' : Qid} (hq : q ≠ q')
    (hx : x ∈ WNode.queue q :: waitq q) : x ∉ WNode.queue q' :: waitq q' := by
  intro hc
  rcases mem_cons.mp hx with heq | hmem
  · rcases mem_cons.mp hc with heq' | hmem'
    · rw [heq] at heq'
      injection heq' with hqq
      exact hq hqq
    · exact h.node q' x hmem' q heq
  · rcases mem_cons.mp hc with heq' | hmem'
    · exact h.node q x hmem q' heq'
    · exact h.disjoint q q' hq x hmem hmem'

theorem WaitRep.other (h : WaitRep wait waitq) {q q' : Qid} (hq : q' ≠ q)
    {S : WNode Tid Qid Pid → Prop}
    (hw : Writes (DNode (WNode Tid Qid Pid)) S wait wait')
    (hS : ∀ y, S y → y ∈ WNode.queue q :: waitq q ∨ Unqueued waitq y ∧ ∀ q'', y ≠ .queue q'') :
    Ring (next wait') (prev wait') (.queue q' :: waitq q') := by
  refine (h.ringed q').of_writes hw ?_
  intro y hy hy'
  rcases hS y hy' with hmem | ⟨hun, hnq⟩
  · exact h.ring_disjoint (Ne.symm hq) hmem hy
  · rcases mem_cons.mp hy with heq | hmem
    · exact hnq q' heq
    · exact hun q' hmem

theorem selfLinked_of_writes {S : WNode Tid Qid Pid → Prop}
    (hw : Writes (DNode (WNode Tid Qid Pid)) S wait wait') (hx : ¬ S x)
    (h : SelfLinked wait x) : SelfLinked wait' x := by
  have hload : (CellStore.load wait' x : DNode (WNode Tid Qid Pid))
      = CellStore.load wait x := hw.load_eq hx
  refine ⟨?_, ?_⟩
  · rw [next, hload]
    exact h.1
  · rw [prev, hload]
    exact h.2

theorem WaitRep.congr (h : WaitRep wait waitq)
    (hn : (next wait' : WNode Tid Qid Pid → WNode Tid Qid Pid) = next wait)
    (hp : (prev wait' : WNode Tid Qid Pid → WNode Tid Qid Pid) = prev wait) :
    WaitRep wait' waitq := by
  refine ⟨?_, h.node, h.disjoint⟩
  intro q
  rw [hn, hp]
  exact h.ringed q

private theorem waitRep_update {l : List (WNode Tid Qid Pid)} (h : WaitRep wait waitq)
    (hring : Ring (next wait') (prev wait') (.queue q :: l))
    (hother : ∀ q', q' ≠ q → Ring (next wait') (prev wait') (.queue q' :: waitq q'))
    (hl : ∀ y ∈ l, y ∈ waitq q ∨ (∀ q', y ≠ .queue q') ∧ Unqueued waitq y) :
    WaitRep wait' (update waitq q l) := by
  have hfresh : ∀ y ∈ l, ∀ q', q' ≠ q → y ∉ waitq q' := by
    intro y hy q' hq'
    rcases hl y hy with hmem | ⟨-, hun⟩
    · exact h.disjoint q q' (Ne.symm hq') y hmem
    · exact hun q'
  refine ⟨?_, ?_, ?_⟩
  · intro q'
    by_cases hq : q' = q
    · subst hq
      rw [update_self]
      exact hring
    · rw [update_of_ne hq]
      exact hother q' hq
  · intro q' y hy
    by_cases hq : q' = q
    · subst hq
      rw [update_self] at hy
      rcases hl y hy with hmem | ⟨hnq, -⟩
      · exact h.node q' y hmem
      · exact hnq
    · rw [update_of_ne hq] at hy
      exact h.node q' y hy
  · intro q₁ q₂ hne y hy
    by_cases h1 : q₁ = q
    · subst h1
      rw [update_self] at hy
      rw [update_of_ne (Ne.symm hne)]
      exact hfresh y hy q₂ (Ne.symm hne)
    · rw [update_of_ne h1] at hy
      by_cases h2 : q₂ = q
      · subst h2
        rw [update_self]
        intro hc
        exact hfresh y hc q₁ h1 hy
      · rw [update_of_ne h2]
        exact h.disjoint q₁ q₂ hne y hy

theorem WaitRep.append (h : WaitRep wait waitq) (q : Qid)
    (hn : ∀ q', n ≠ .queue q') (hu : Unqueued waitq n) :
    WaitRep (dlistAppend wait (.queue q) n) (update waitq q (waitq q ++ [n])) := by
  have hnew : n ∉ WNode.queue q :: waitq q := by
    intro hc
    rcases mem_cons.mp hc with heq | hmem
    · exact hn q heq
    · exact hu q hmem
  refine waitRep_update h (dlistAppend_ring (h.ringed q) hnew) ?_ ?_
  · intro q' hq'
    refine h.other hq' (dlistAppend_writes (h.ringed q)) ?_
    rintro y (rfl | hy)
    · exact Or.inr ⟨hu, hn⟩
    · exact Or.inl hy
  · intro y hy
    rcases mem_append.mp hy with hmem | hmem
    · exact Or.inl hmem
    · rw [mem_singleton] at hmem
      exact Or.inr (hmem ▸ ⟨hn, hu⟩)

theorem WaitRep.remove (h : WaitRep wait waitq) (hn : n ∈ waitq q) :
    WaitRep (dlistRemove wait n) (update waitq q ((waitq q).erase n)) := by
  obtain ⟨u, v, huv⟩ := append_of_mem hn
  have hring : Ring (next wait) (prev wait) ((WNode.queue q :: u) ++ n :: v) := by
    rw [cons_append, ← huv]
    exact h.ringed q
  have hnu : n ∉ u := by
    intro hc
    have hnd := h.nodup q
    rw [huv] at hnd
    exact (nodup_append.mp hnd).2.2 n hc n mem_cons_self rfl
  have herase : (waitq q).erase n = u ++ v := by
    rw [huv, erase_append_right _ hnu, erase_cons_head]
  rw [herase]
  refine waitRep_update h (dlistRemove_ring hring (cons_ne_nil _ _)) ?_ ?_
  · intro q' hq'
    refine h.other hq' (dlistRemove_writes (h.ringed q) (mem_cons_of_mem _ hn)) ?_
    intro y hy
    exact Or.inl hy
  · intro y hy
    left
    rw [huv]
    rcases mem_append.mp hy with hmem | hmem
    · exact mem_append.mpr (Or.inl hmem)
    · exact mem_append.mpr (Or.inr (mem_cons_of_mem n hmem))

theorem WaitRep.get_nil (h : WaitRep wait waitq) (hq : waitq q = []) :
    (dlistGet wait (WNode.queue q : WNode Tid Qid Pid)).2 = .queue q
      ∧ (next (dlistGet wait (WNode.queue q : WNode Tid Qid Pid)).1 :
          WNode Tid Qid Pid → WNode Tid Qid Pid) = next wait
      ∧ (prev (dlistGet wait (WNode.queue q : WNode Tid Qid Pid)).1 :
          WNode Tid Qid Pid → WNode Tid Qid Pid) = prev wait := by
  have hring := h.ringed q
  rw [hq] at hring
  obtain ⟨hnx, hpv⟩ := hring.of_singleton
  refine ⟨hnx, ?_⟩
  rw [dlistGet]
  simp only [hnx]
  exact dlistRemove_self hnx hpv

theorem WaitRep.get_cons (h : WaitRep wait waitq) (hq : waitq q = n :: rest) :
    dlistGet wait (WNode.queue q : WNode Tid Qid Pid) = (dlistRemove wait n, n)
      ∧ WaitRep (dlistRemove wait n) (update waitq q rest) := by
  have hring := h.ringed q
  rw [hq] at hring
  have hnx : next wait (WNode.queue q) = n := hring.next_head
  have hmem : n ∈ waitq q := by
    rw [hq]
    exact mem_cons_self
  refine ⟨?_, ?_⟩
  · rw [dlistGet]
    simp only [hnx]
  · have hrem := h.remove hmem
    rw [hq, erase_cons_head] at hrem
    exact hrem

theorem WaitRep.unqueued_head (h : WaitRep wait waitq) (hq : waitq q = n :: rest) :
    Unqueued (update waitq q rest) n := by
  intro q' hq'
  by_cases hqq : q' = q
  · subst hqq
    rw [update_self] at hq'
    have hnd := h.nodup q'
    rw [hq] at hnd
    exact (nodup_cons.mp hnd).1 hq'
  · rw [update_of_ne hqq] at hq'
    refine h.disjoint q q' (Ne.symm hqq) n ?_ hq'
    rw [hq]
    exact mem_cons_self

/-- **INIT** of a node that is in no queue. -/
theorem WaitRep.init (h : WaitRep wait waitq) (hn : ∀ q', n ≠ .queue q') (hu : Unqueued waitq n) :
    WaitRep (dlistInit wait n) waitq ∧ SelfLinked (dlistInit wait n) n := by
  refine ⟨⟨?_, h.node, h.disjoint⟩, ?_⟩
  · intro q
    refine (h.ringed q).of_writes dlistInit_writes ?_
    rintro y hy rfl
    rcases mem_cons.mp hy with heq | hmem
    · exact hn q heq
    · exact hu q hmem
  · exact ⟨by rw [next_dlistInit, update_self],
      by rw [prev_dlistInit, update_self]⟩

def dropNode (waitq : Qid → List (WNode Tid Qid Pid)) (n : WNode Tid Qid Pid) :
    Qid → List (WNode Tid Qid Pid) :=
  fun q => (waitq q).erase n

theorem dropNode_of_unqueued (hu : Unqueued waitq n) : dropNode waitq n = waitq :=
  funext fun q => erase_of_not_mem (hu q)

theorem WaitRep.dropNode_of_mem (h : WaitRep wait waitq) (hn : n ∈ waitq q) :
    dropNode waitq n = update waitq q ((waitq q).erase n) := by
  funext q'
  by_cases hq : q' = q
  · subst hq
    rw [update_self, dropNode]
  · rw [update_of_ne hq, dropNode]
    exact erase_of_not_mem (h.disjoint q q' (Ne.symm hq) n hn)

theorem WaitRep.drop (h : WaitRep wait waitq) (hn : Unqueued waitq n → SelfLinked wait n) :
    WaitRep (dlistRemove wait n) (dropNode waitq n) := by
  by_cases hu : Unqueued waitq n
  · obtain ⟨hnx, hpv⟩ := hn hu
    obtain ⟨h1, h2⟩ := dlistRemove_self hnx hpv
    rw [dropNode_of_unqueued hu]
    exact h.congr h1 h2
  · obtain ⟨q, hq⟩ : ∃ q, n ∈ waitq q := by
      by_contra hc
      exact hu (fun q hq => hc ⟨q, hq⟩)
    rw [h.dropNode_of_mem hq]
    exact h.remove hq

theorem SelfLinked.append (h : SelfLinked wait x) (hr : WaitRep wait waitq)
    (hx : ∀ q', x ≠ .queue q') (hu : Unqueued waitq x) (hxn : x ≠ n) (q : Qid) :
    SelfLinked (dlistAppend wait (.queue q) n) x := by
  refine selfLinked_of_writes (dlistAppend_writes (hr.ringed q)) ?_ h
  rintro (hc | hc)
  · exact hxn hc
  · rcases mem_cons.mp hc with heq | hmem
    · exact hx q heq
    · exact hu q hmem

theorem SelfLinked.drop (h : SelfLinked wait x) (hr : WaitRep wait waitq)
    (hx : ∀ q', x ≠ .queue q') (hu : Unqueued waitq x)
    (hn : Unqueued waitq n → SelfLinked wait n) :
    SelfLinked (dlistRemove wait n) x := by
  by_cases hun : Unqueued waitq n
  · obtain ⟨hnx, hpv⟩ := hn hun
    obtain ⟨h1, h2⟩ := dlistRemove_self hnx hpv
    exact ⟨by rw [h1]; exact h.1, by rw [h2]; exact h.2⟩
  · obtain ⟨q, hq⟩ : ∃ q, n ∈ waitq q := by
      by_contra hc
      exact hun (fun q hq => hc ⟨q, hq⟩)
    refine selfLinked_of_writes (dlistRemove_writes (hr.ringed q) (mem_cons_of_mem _ hq)) ?_ h
    intro hc
    rcases mem_cons.mp hc with heq | hmem
    · exact hx q heq
    · exact hu q hmem

/-- Self-linked nodes stay so when another node is initialised. -/
theorem SelfLinked.init (h : SelfLinked wait x) (hxn : x ≠ n) : SelfLinked (dlistInit wait n) x :=
  selfLinked_of_writes dlistInit_writes hxn h

end Lemmas

end AvrtosKernel
