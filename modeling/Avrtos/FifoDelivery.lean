import Avrtos.Fifo
import Avrtos.HandOff

/-! # What is put in a FIFO is delivered

    Items put are those handed out and those in the list, over any run. -/

namespace AvrtosFifo

open List AvrtosDefines AvrtosKernel LinkedChain Runs

structure Get (ι : Type) where
  ret : Option ι
  got : Option ι
deriving DecidableEq, Repr

structure FifoSys (Tid ι : Type) where
  hands : Hands Tid Unit ι Unit
  next : ι → Option ι
  queue : Slist ι
  puts : List ι
  handed : List ι
  log : List (Get ι)

variable {Tid ι : Type} [Threads Tid] [DecidableEq ι]

def FifoSys.finish (st : FifoSys Tid ι) : FifoSys Tid ι :=
  let cur := st.hands.calls.ker.current
  match st.hands.calls.frame cur with
  | none => st
  | some _ =>
      { st with
        hands := st.hands.resume
        log := ⟨kFifoGetEnd (st.hands.calls.ker.thread cur), st.hands.got cur⟩ :: st.log }

/-- The operations of a run. -/
inductive FifoOp (cfg : Config Tid Unit) (ι : Type) where
  | put (item : ι)
  | get (timeout : cfg.Timeout)
  | cancelWait
  | schedEnter
  | yield

/-- The item is in the list. -/
def FifoSys.InQueue (st : FifoSys Tid ι) (item : ι) : Prop :=
  ∃ l, Chain st.next st.queue.head l ∧ item ∈ l

def FifoOp.Allowed {cfg : Config Tid Unit} (st : FifoSys Tid ι) : FifoOp cfg ι → Prop
  | .put item => ¬ st.InQueue item
  | .get timeout => timeout ≠ kNoWait cfg → st.hands.calls.ker.current ≠ cfg.idle
  | _ => True

/-- The state after an operation. -/
def FifoOp.run {cfg : Config Tid Unit} (st : FifoSys Tid ι) :
    FifoOp cfg ι → FifoSys Tid ι
  | .put item =>
      let r := zFifoPut cfg st.hands.calls.ker st.next st.queue () item
      { st with
        hands := st.hands.record r.1 r.2.2.2 item
        next := r.2.1
        queue := r.2.2.1
        puts := st.puts ++ [item]
        handed :=
          match r.2.2.2 with
          | some _ => st.handed ++ [item]
          | none => st.handed }
  | .get timeout =>
      let r := kFifoGet cfg st.hands.calls.ker st.next st.queue () timeout
      match r.2.2 with
      | some ret =>
          -- what is taken out was the head of the list
          let got := if r.2.1.head = st.queue.head then none else st.queue.head
          { st with
            hands := st.hands.setKer r.1
            queue := r.2.1
            handed := st.handed ++ got.toList
            log := ⟨ret, got⟩ :: st.log }
      | none => { st with hands := st.hands.leave r.1 () (), queue := r.2.1 }.finish
  | .cancelWait =>
      { st with hands := st.hands.setKer (kFifoCancelWait cfg st.hands.calls.ker ()).1 }
  | .schedEnter => { st with hands := st.hands.setKer (zSchedEnter cfg st.hands.calls.ker) }
  | .yield => { st with hands := st.hands.setKer (zScheduler st.hands.calls.ker) }.finish

def fifoBoot (k : Kernel Tid Unit Empty ι) (next : ι → Option ι) : FifoSys Tid ι where
  hands := handsBoot k
  next := next
  queue := slistInit
  puts := []
  handed := []
  log := []

/-- The states of the runs. -/
def FifoReach (cfg : Config Tid Unit) : FifoSys Tid ι → Prop :=
  Reach (fun st => ∃ k ring next, ColdBoot cfg k ring ∧ st = fifoBoot k next)
    (fun st (op : FifoOp cfg ι) => op.Allowed st) FifoOp.run

variable {cfg : Config Tid Unit} {st : FifoSys Tid ι} {w : Unit → List Tid} {l : List ι}
variable {t : Tid} {x item : ι}

structure FifoBase (cfg : Config Tid Unit) (st : FifoSys Tid ι) (w : Unit → List Tid)
    (l : List ι) : Prop where
  hands : HandsBase cfg st.hands w
  rep : SlistRep st.next st.queue l
  order : st.puts = st.handed ++ l
  account : ∀ x, st.handed.count x
    = (st.log.map Get.ret).count (some x) + (carriers st.hands.onWay x).card
  empty : w () ≠ [] → l = []
  results : ∀ e ∈ st.log, e.ret = e.got

def FifoInv (cfg : Config Tid Unit) (st : FifoSys Tid ι) : Prop :=
  ∃ w l, FifoBase cfg st w l ∧ HandsInv cfg st.hands w

omit [DecidableEq ι] in
theorem FifoSys.finish_of_none
    (hf : st.hands.calls.frame st.hands.calls.ker.current = none) : st.finish = st := by
  simp only [FifoSys.finish, hf]

theorem FifoBase.finish (h : FifoBase cfg st w l) :
    FifoBase cfg st.finish w l ∧ HandsInv cfg st.finish.hands w := by
  cases hf : st.hands.calls.frame st.hands.calls.ker.current with
  | none =>
    rw [FifoSys.finish_of_none hf]
    exact ⟨h, h.hands, hf⟩
  | some f =>
    have hfin : st.finish = { st with
        hands := st.hands.resume
        log := ⟨kFifoGetEnd (st.hands.calls.ker.thread st.hands.calls.ker.current),
          st.hands.got st.hands.calls.ker.current⟩ :: st.log } := by
      simp only [FifoSys.finish, hf]
    have hret : kFifoGetEnd (st.hands.calls.ker.thread st.hands.calls.ker.current)
        = st.hands.got st.hands.calls.ker.current := by
      rw [kFifoGetEnd]
      rcases h.hands.result hf with ⟨hz, d, hg, hs⟩ | ⟨hz, hg⟩
      · rw [if_pos hz, hg, hs]
      · rw [if_neg hz, hg]
    have hway : st.hands.onWay st.hands.calls.ker.current
        = st.hands.got st.hands.calls.ker.current := by
      rw [Hands.onWay, hf]
      rfl
    have hinv := h.hands.resume
    rw [hfin]
    refine ⟨⟨hinv.toHandsBase, h.rep, h.order, ?_, h.empty, ?_⟩, hinv⟩
    · intro x
      show st.handed.count x = (_ :: st.log.map Get.ret).count (some x)
        + (carriers st.hands.resume.onWay x).card
      have hcard := card_carriers st.hands.onWay st.hands.calls.ker.current x
      rw [hway] at hcard
      rw [count_cons, Hands.onWay_resume, hret, h.account x, hcard]
      simp only [beq_iff_eq]
      omega
    · intro e he
      rcases mem_cons.mp he with rfl | he
      · exact hret
      · exact h.results e he

theorem FifoInv.put_waiter {rest : List Tid} (hb : FifoBase cfg st w l)
    (hi : HandsInv cfg st.hands w) (item : ι) (hw : w () = t :: rest) :
    FifoInv cfg ((FifoOp.put item : FifoOp cfg ι).run st) := by
  obtain ⟨hhead, hinv⟩ := hi.give () item
  have hwait : st.hands.calls.Waiting () t := by
    rw [← hb.hands.calls.waits, hw]
    exact mem_cons_self
  rw [hw] at hhead hinv
  have hr : zFifoPut cfg st.hands.calls.ker st.next st.queue () item
      = ((zUnpendFirstAndSwap cfg st.hands.calls.ker () (some item)).1, st.next, st.queue,
        some t) := by
    simp only [zFifoPut, hhead, List.head?_cons]
  have hl : l = [] := hb.empty (by rw [hw]; exact cons_ne_nil _ _)
  subst hl
  simp only [FifoOp.run, hr]
  refine ⟨_, [], ⟨hinv.toHandsBase, hb.rep, ?_, ?_, fun _ => rfl, hb.results⟩, hinv⟩
  · show st.puts ++ [item] = (st.handed ++ [item]) ++ []
    rw [hb.order, append_nil, append_nil]
  · intro x
    show (st.handed ++ [item]).count x = _ + (carriers (Hands.onWay _) x).card
    rw [Hands.onWay_record hwait, card_carriers_update (hb.hands.onWay_waiting hwait),
      count_append, hb.account x, count_singleton]
    simp only [beq_iff_eq]
    omega

theorem FifoInv.put_nobody (hb : FifoBase cfg st w l) (hi : HandsInv cfg st.hands w)
    (hitem : item ∉ l) (hw : w () = []) :
    FifoInv cfg ((FifoOp.put item : FifoOp cfg ι).run st) := by
  obtain ⟨hhead, hinv⟩ := hi.give () item
  rw [hw] at hhead hinv
  have hr : zFifoPut cfg st.hands.calls.ker st.next st.queue () item
      = ((zUnpendFirstAndSwap cfg st.hands.calls.ker () (some item)).1,
        (slistAppend st.next st.queue item).1, (slistAppend st.next st.queue item).2,
        none) := by
    simp only [zFifoPut, hhead, List.head?_nil]
  simp only [FifoOp.run, hr]
  refine ⟨_, l ++ [item], ⟨hinv.toHandsBase, (hb.rep.append hitem).1, ?_, hb.account, ?_,
    hb.results⟩, hinv⟩
  · show st.puts ++ [item] = st.handed ++ (l ++ [item])
    rw [hb.order, append_assoc]
  · exact fun hc => absurd rfl hc

theorem FifoInv.get_item {a : ι} (hb : FifoBase cfg st w (a :: l))
    (hi : HandsInv cfg st.hands w) (timeout : cfg.Timeout) :
    FifoInv cfg ((FifoOp.get timeout : FifoOp cfg ι).run st) := by
  obtain ⟨hget, hrep⟩ := hb.rep.get
  have hr : kFifoGet cfg st.hands.calls.ker st.next st.queue () timeout
      = (st.hands.calls.ker, (slistGet st.next st.queue).1, some (some a)) := by
    simp only [kFifoGet, hget]
  have hhead : st.queue.head = some a := hb.rep.chain.1
  have hne : (slistGet st.next st.queue).1.head ≠ st.queue.head := by
    rw [hhead]
    intro hc
    -- the first item is not in the rest of the list
    have hchain := hrep.chain
    rw [hc] at hchain
    obtain ⟨v, rfl, -⟩ := hchain.exists_cons
    exact (nodup_cons.mp hb.rep.chain.nodup).1 mem_cons_self
  have hw : w () = [] := by
    by_contra hc
    exact nomatch hb.empty hc
  simp only [FifoOp.run, hr, if_neg hne]
  rw [hhead]
  refine ⟨w, l, ⟨hi.toHandsBase, hrep, ?_, ?_, fun hc => absurd hw hc, ?_⟩, hi⟩
  · show st.puts = (st.handed ++ [a]) ++ l
    rw [hb.order, append_assoc]
    rfl
  · intro x
    show (st.handed ++ [a]).count x = (some a :: st.log.map Get.ret).count (some x)
      + (carriers st.hands.onWay x).card
    rw [count_append, count_singleton, count_cons, hb.account x]
    simp only [beq_iff_eq, Option.some.injEq]
    omega
  · intro e he
    rcases mem_cons.mp he with rfl | he
    · rfl
    · exact hb.results e he

theorem FifoInv.get_noWait (hb : FifoBase cfg st w []) (hi : HandsInv cfg st.hands w) :
    FifoInv cfg ((FifoOp.get (kNoWait cfg) : FifoOp cfg ι).run st) := by
  have hr : kFifoGet cfg st.hands.calls.ker st.next st.queue () (kNoWait cfg)
      = (st.hands.calls.ker, st.queue, some none) := by
    simp only [kFifoGet, hb.rep.get_nil, zPendCurrentOn, if_true, Option.map_some]
  simp only [FifoOp.run, hr, if_true, Option.toList_none, append_nil]
  refine ⟨w, [], ⟨hi.toHandsBase, hb.rep, hb.order, ?_, hb.empty, ?_⟩, hi⟩
  · intro x
    show st.handed.count x = (none :: st.log.map Get.ret).count (some x) + _
    have hne : (none : Option ι) ≠ some x := (Option.some_ne_none x).symm
    rw [count_cons_of_ne hne]
    exact hb.account x
  · intro e he
    rcases mem_cons.mp he with rfl | he
    · rfl
    · exact hb.results e he

theorem FifoInv.get_wait (hb : FifoBase cfg st w []) (hi : HandsInv cfg st.hands w)
    {timeout : cfg.Timeout} (hne : timeout ≠ kNoWait cfg)
    (hcur : st.hands.calls.ker.current ≠ cfg.idle) :
    FifoInv cfg ((FifoOp.get timeout : FifoOp cfg ι).run st) := by
  obtain ⟨hnone, hbase⟩ := hi.leave hcur () () hne
  have hr : kFifoGet cfg st.hands.calls.ker st.next st.queue () timeout
      = ((zPendCurrentOn cfg st.hands.calls.ker (some ()) timeout).1, st.queue, none) := by
    simp only [kFifoGet, hb.rep.get_nil, hnone, Option.map_none]
  simp only [FifoOp.run, hr]
  have hway := hi.onWay_leave (zPendCurrentOn cfg st.hands.calls.ker (some ()) timeout).1 () ()
  refine ⟨_, [], FifoBase.finish ⟨hbase, hb.rep, hb.order, ?_, fun _ => rfl, hb.results⟩⟩
  intro x
  show st.handed.count x = (st.log.map Get.ret).count (some x) + (carriers (Hands.onWay _) x).card
  rw [hway]
  exact hb.account x

/-- **ONE STEP** of a run. -/
theorem FifoInv.step (h : FifoInv cfg st) (op : FifoOp cfg ι) (ha : op.Allowed st) :
    FifoInv cfg (op.run st) := by
  obtain ⟨w, l, hb, hi⟩ := h
  cases op with
  | put item =>
    have hitem : item ∉ l := fun hc => ha ⟨l, hb.rep.chain, hc⟩
    cases hw : w () with
    | nil => exact FifoInv.put_nobody hb hi hitem hw
    | cons t rest => exact FifoInv.put_waiter hb hi item hw
  | get timeout =>
    cases l with
    | cons a l => exact FifoInv.get_item hb hi timeout
    | nil =>
      by_cases hne : timeout = kNoWait cfg
      · rw [hne]
        exact FifoInv.get_noWait hb hi
      · exact FifoInv.get_wait hb hi hne (ha hne)
  | cancelWait =>
    have hinv := hi.cancel ()
    exact ⟨_, l, ⟨hinv.toHandsBase, hb.rep, hb.order, hb.account,
      fun hc => absurd (Function.update_self ..) hc, hb.results⟩, hinv⟩
  | schedEnter =>
    obtain ⟨w', hinv, hsub⟩ := hi.schedEnter
    refine ⟨w', l, ⟨hinv.toHandsBase, hb.rep, hb.order, hb.account, ?_, hb.results⟩, hinv⟩
    intro hc
    refine hb.empty fun hc' => hc ?_
    exact eq_nil_of_sublist_nil (hc' ▸ hsub ())
  | yield =>
    exact ⟨w, l, FifoBase.finish ⟨hi.yield, hb.rep, hb.order, hb.account, hb.empty, hb.results⟩⟩

theorem FifoReach.inv (h : FifoReach cfg st) : FifoInv cfg st := by
  refine Reach.invariant h ?_ fun _ op ih ha => ih.step op ha
  rintro st ⟨k, ring, next, hboot, rfl⟩
  refine ⟨fun _ => [], [], ⟨hboot.handsInv.toHandsBase, slistInit_rep, rfl, ?_,
    fun hc => absurd rfl hc, fun e he => nomatch he⟩, hboot.handsInv⟩
  intro x
  show 0 = 0 + _
  rw [show (fifoBoot k next).hands = handsBoot k from rfl, card_carriers_handsBoot]

omit [DecidableEq ι] in
theorem FifoSys.onWay_finish (hx : st.finish.hands.onWay t = some x) :
    st.hands.onWay t = some x := by
  cases hf : st.hands.calls.frame st.hands.calls.ker.current with
  | none =>
    rw [FifoSys.finish_of_none hf] at hx
    exact hx
  | some f =>
    have hfin : st.finish.hands = st.hands.resume := by
      simp only [FifoSys.finish, hf]
    rw [hfin, Hands.onWay_resume, Function.update_apply] at hx
    split_ifs at hx
    exact hx

theorem FifoInv.served (h : FifoInv cfg st) (op : FifoOp cfg ι)
    (hnew : (op.run st).hands.onWay t = some x) (hold : st.hands.onWay t = none) :
    op = .put x ∧ st.hands.calls.Waiting () t ∧ ∀ t', st.hands.calls.Waiting () t' → t' ≠ t →
          st.hands.calls.stamp t < st.hands.calls.stamp t' := by
  obtain ⟨w, l, hb, hi⟩ := h
  have hno : st.hands.onWay t ≠ some x := by
    rw [hold]
    exact fun hc => nomatch hc
  cases op with
  | put item =>
    obtain ⟨hhead, -⟩ := hi.give () item
    have hr : (zFifoPut cfg st.hands.calls.ker st.next st.queue () item).2.2.2 = (w ()).head? := by
      rw [← hhead, zFifoPut]
      cases (zUnpendFirstAndSwap cfg st.hands.calls.ker () (some item)).2 with
      | none => rfl
      | some t => rfl
    replace hnew : (st.hands.record _ (zFifoPut cfg st.hands.calls.ker st.next st.queue ()
      item).2.2.2 item).onWay t = some x := hnew
    rw [hr] at hnew
    obtain ⟨rfl, hserved⟩ := hb.hands.served hnew hold
    exact ⟨rfl, hserved⟩
  | get timeout =>
    exfalso
    refine hno ?_
    revert hnew
    simp only [FifoOp.run]
    cases (kFifoGet cfg st.hands.calls.ker st.next st.queue () timeout).2.2 with
    | some ret => exact id
    | none =>
      intro hnew
      have h1 := FifoSys.onWay_finish hnew
      rw [← hi.onWay_leave _ () ()]
      exact h1
  | cancelWait => exact absurd hnew hno
  | schedEnter => exact absurd hnew hno
  | yield => exact absurd (FifoSys.onWay_finish hnew) hno

structure FifoOk (cfg : Config Tid Unit) (st : FifoSys Tid ι) : Prop where
  /-- the items handed out, and then those in the list, are the items put -/
  order : ∃ l, Chain st.next st.queue.head l ∧ st.puts = st.handed ++ l
  /-- each was returned by one call, or is on its way to one thread -/
  once : ∀ x, st.handed.count x
    = (st.log.map Get.ret).count (some x) + (carriers st.hands.onWay x).card
  /-- whose call is going to return it -/
  onWay : ∀ t x, st.hands.onWay t = some x →
    st.hands.calls.Granted () t ∧ kFifoGetEnd (st.hands.calls.ker.thread t) = some x
  served : ∀ (op : FifoOp cfg ι) t x, op.Allowed st →
    (op.run st).hands.onWay t = some x → st.hands.onWay t = none →
      op = .put x ∧ st.hands.calls.Waiting () t
        ∧ ∀ t', st.hands.calls.Waiting () t' → t' ≠ t →
            st.hands.calls.stamp t < st.hands.calls.stamp t'
  empty : ∀ t, st.hands.calls.Waiting () t → st.queue.head = none
  /-- a call returns what was taken out for it; `NULL` means nothing was -/
  results : ∀ e ∈ st.log, e.ret = e.got

/-- **FIFO DELIVERY**: items are handed out in the order in which they were put, each to one
    call; blocked threads are served in their order. -/
theorem fifo_delivery (h : FifoReach cfg st) : FifoOk cfg st := by
  have hinv := h.inv
  obtain ⟨w, l, hb, hi⟩ := hinv
  refine ⟨⟨l, hb.rep.chain, hb.order⟩, hb.account, ?_,
    fun op t x _ hnew hold => h.inv.served op hnew hold, ?_, hb.results⟩
  · intro t x ht
    obtain ⟨_, hg, hs⟩ := hb.hands.onWay_result ht
    refine ⟨hg, ?_⟩
    rw [kFifoGetEnd, if_pos hg.2.2, hs]
  · intro t ht
    have hmem := (hb.hands.calls.waits () t).mpr ht
    have hl := hb.empty (ne_nil_of_mem hmem)
    subst hl
    exact hb.rep.chain

omit [Threads Tid] [DecidableEq ι] in
theorem FifoSys.not_inQueue (h : st.queue.head = none) : ¬ st.InQueue item := by
  rintro ⟨l, hc, hmem⟩
  rw [h] at hc
  have hl : l = [] := hc.unique (v := []) rfl
  rw [hl] at hmem
  exact nomatch hmem

def handedAndQueued : FifoSys (Fin 4) (Fin 2) :=
  ([.get (kForever _), .put 0, .put 1, .yield] :
    List (FifoOp (smallConfig Unit) (Fin 2))).foldl FifoOp.run
      (fifoBoot (smallBoot Unit Empty (Fin 2)) fun _ => none)

theorem fifo_delivery_handedAndQueued :
    FifoOk (smallConfig Unit) handedAndQueued
      ∧ handedAndQueued.handed = [0] ∧ handedAndQueued.queue.head = some 1
      ∧ handedAndQueued.log = [⟨some 0, some 0⟩] := by
  have hreach : FifoReach (smallConfig Unit) handedAndQueued := by
    refine Reach.foldl (.start ⟨_, _, _, smallBoot_boot, rfl⟩) ?_
    exact ⟨fun _ => by decide, FifoSys.not_inQueue (by decide),
      FifoSys.not_inQueue (by decide), trivial, trivial⟩
  exact ⟨fifo_delivery hreach, by decide, by decide, by decide⟩

end AvrtosFifo
