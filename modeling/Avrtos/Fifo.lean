import Avrtos.Calls

/-! # `slist.c` and `fifo.c`

    An item that is put while a thread waits never enters the list. -/

namespace AvrtosFifo

open Function AvrtosDefines AvrtosKernel LinkedChain

/-- `struct slist`. -/
structure Slist (ι : Type) where
  head : Option ι
  tail : Option ι
deriving DecidableEq, Repr

/-- `slist_init`. -/
def slistInit {ι : Type} : Slist ι := { head := none, tail := none }

variable {Tid Qid Pid ι : Type} [Threads Tid]
variable [DecidableEq Qid] [DecidableEq Pid] [DecidableEq ι]

/-- `slist_append`. -/
def slistAppend (next : ι → Option ι) (list : Slist ι) (node : ι) :
    (ι → Option ι) × Slist ι :=
  -- safely set next item pointer to NULL
  let next := update next node none
  match list.head with
  | none => (next, { head := some node, tail := some node })
  | some _ =>
      let next :=
        match list.tail with
        | some t => update next t (some node)
        | none => next
      (next, { list with tail := some node })

/-- `slist_get`. -/
def slistGet (next : ι → Option ι) (list : Slist ι) : Slist ι × Option ι :=
  match list.head with
  | none => (list, none)
  | some node =>
      ({ head := next node, tail := if next node = none then none else list.tail },
        some node)

/-- `slist_peek_head`. -/
def slistPeekHead (list : Slist ι) : Option ι := list.head

def slistCountLoop (next : ι → Option ι) : Nat → Option ι → BitVec 8 → Option (BitVec 8)
  | _, none, count => some count
  | 0, some _, _ => none
  | fuel + 1, some node, count => slistCountLoop next fuel (next node) (count + 1)

/-- `slist_count`. -/
def slistCount (next : ι → Option ι) (fuel : Nat) (list : Slist ι) : Option (BitVec 8) :=
  slistCountLoop next fuel list.head 0

omit [DecidableEq ι] in
theorem slistCountLoop_chain {next : ι → Option ι} {start : Option ι} {l : List ι} {fuel : Nat}
    (h : Chain next start l) (hfuel : l.length ≤ fuel) (count : BitVec 8) :
    slistCountLoop next fuel start count = some (count + BitVec.ofNat 8 l.length) := by
  induction l generalizing start fuel count with
  | nil =>
    have hstart : start = none := h
    rw [hstart, slistCountLoop, List.length_nil, BitVec.add_zero]
  | cons a l ih =>
    obtain ⟨k, rfl, hk⟩ := exists_fuel hfuel
    rw [h.1, slistCountLoop, ih h.2 hk, List.length_cons, BitVec.ofNat_add, BitVec.add_assoc,
      BitVec.add_comm (BitVec.ofNat 8 l.length) (BitVec.ofNat 8 1)]
    rfl

/-- `z_fifo_put`. -/
def zFifoPut (cfg : Config Tid Qid) (k : Kernel Tid Qid Pid ι) (next : ι → Option ι)
    (list : Slist ι) (f : Qid) (item : ι) :
    Kernel Tid Qid Pid ι × (ι → Option ι) × Slist ι × Option Tid :=
  let r := zUnpendFirstAndSwap cfg k f (some item)
  match r.2 with
  | some t => (r.1, next, list, some t)
  | none =>
      -- otherwise, queue the item to the FIFO
      let a := slistAppend next list item
      (r.1, a.1, a.2, none)

/-- `k_fifo_get`. -/
def kFifoGet (cfg : Config Tid Qid) (k : Kernel Tid Qid Pid ι) (next : ι → Option ι)
    (list : Slist ι) (f : Qid) (timeout : cfg.Timeout) :
    Kernel Tid Qid Pid ι × Slist ι × Option (Option ι) :=
  let g := slistGet next list
  match g.2 with
  | some item => (k, g.1, some (some item))
  | none =>
      let r := zPendCurrentOn cfg k (some f) timeout
      (r.1, g.1, r.2.map fun _ => none)

def kFifoGetEnd (th : Thread ι) : Option ι :=
  if zPendResult th = 0 then th.swapData else none

/-- `k_fifo_cancel_wait`. -/
def kFifoCancelWait (cfg : Config Tid Qid) (k : Kernel Tid Qid Pid ι) (f : Qid) :
    Kernel Tid Qid Pid ι × Int :=
  let r := zCancelAllPending cfg k f
  (r.1, int8 r.2)

structure SlistRep (next : ι → Option ι) (list : Slist ι) (l : List ι) : Prop where
  chain : Chain next list.head l
  tail : list.tail = l.getLast?

variable {next : ι → Option ι} {list : Slist ι} {l : List ι} {x node : ι}

omit [DecidableEq ι] in
theorem slistInit_rep : SlistRep next slistInit [] := ⟨rfl, rfl⟩

omit [DecidableEq ι] in
theorem SlistRep.congr {next' : ι → Option ι} (h : SlistRep next list l)
    (hnext : ∀ x ∈ l, next' x = next x) : SlistRep next' list l :=
  ⟨h.chain.congr hnext, h.tail⟩

theorem SlistRep.append (h : SlistRep next list l) (hn : node ∉ l) :
    SlistRep (slistAppend next list node).1 (slistAppend next list node).2 (l ++ [node])
      ∧ ∀ x, x ≠ node → x ∉ l → (slistAppend next list node).1 x = next x := by
  rcases List.eq_nil_or_concat l with rfl | ⟨l', t, rfl⟩
  · have hhead : list.head = none := h.chain
    simp only [slistAppend, hhead]
    refine ⟨⟨⟨rfl, update_self ..⟩, rfl⟩, ?_⟩
    exact fun x hx _ => update_of_ne hx ..
  · rw [List.concat_eq_append] at h hn ⊢
    have htail : list.tail = some t := by
      rw [h.tail, List.getLast?_append]
      rfl
    obtain ⟨a, ha⟩ : ∃ a, list.head = some a := by
      cases l' with
      | nil => exact ⟨t, h.chain.1⟩
      | cons a l' => exact ⟨a, h.chain.1⟩
    have hchain := h.chain.append hn
    rw [ha] at hchain
    simp only [slistAppend, ha, htail]
    refine ⟨⟨hchain, ?_⟩, ?_⟩
    · rw [List.getLast?_append]
      rfl
    · intro x hx hxl
      have hxt : x ≠ t := fun hc => hxl (by simp [hc])
      rw [update_of_ne hxt, update_of_ne hx]

omit [DecidableEq ι] in
theorem SlistRep.get {a : ι} (h : SlistRep next list (a :: l)) :
    (slistGet next list).2 = some a ∧ SlistRep next (slistGet next list).1 l := by
  have hhead : list.head = some a := h.chain.1
  simp only [slistGet, hhead]
  refine ⟨trivial, h.chain.2, ?_⟩
  cases l with
  | nil => exact if_pos h.chain.2
  | cons b l =>
    have hb : next a = some b := h.chain.2.1
    show (if next a = none then none else list.tail) = _
    rw [if_neg (by rw [hb]; exact fun hc => nomatch hc), h.tail, List.getLast?_cons_cons]

omit [DecidableEq ι] in
theorem SlistRep.get_nil (h : SlistRep next list []) : slistGet next list = (list, none) := by
  have hhead : list.head = none := h.chain
  simp only [slistGet, hhead]

end AvrtosFifo
