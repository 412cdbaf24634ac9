import Avrtos.Base.Bytes
import Avrtos.HandOff
import Avrtos.Objects

/-! # Blocks of a memory slab are conserved

    Every block is free, owned or on its way to a waiter, over any run. -/

namespace AvrtosMemSlab

open List AvrtosDefines AvrtosKernel AvrtosObjects Bytes LinkedChain Runs

/-- The address of a block. -/
def blockAt (buffer blockSize i : Nat) : Nat := buffer + blockSize * i

/-- The blocks of a slab. -/
def blocks (buffer blockSize count : Nat) : List Nat :=
  (range count).map (blockAt buffer blockSize)

def finalizeLoop (blockSize : Nat) :
    Nat → (Nat → UInt8) → Nat → Option Nat → (Nat → UInt8) × Option Nat
  | 0, ram, _, freeList => (ram, freeList)
  | n + 1, ram, p, freeList =>
      -- link the current block to the next free block in the list
      finalizeLoop blockSize n (storePtr ram p freeList) (p + blockSize) (some p)

/-- `z_slab_alloc_finalize_init`. -/
def zSlabAllocFinalizeInit (ram : Nat → UInt8) (a : Slab) : (Nat → UInt8) × Slab :=
  let r := finalizeLoop a.blockSize a.count ram a.buffer none
  (r.1, { a with freeList := r.2 })

/-- `slab_init`. -/
def slabInit (argsChecks : Bool) (ram : Nat → UInt8) (a : Slab) (buffer : Nat)
    (blockSize : BitVec 16) (blocksCount : BitVec 8) : (Nat → UInt8) × Slab × Int :=
  if !zUser argsChecks (buffer ≠ 0 ∧ 2 ≤ blockSize.toNat ∧ blocksCount ≠ 0) then
    (ram, a, -EINVAL)
  else
    let r := zSlabAllocFinalizeInit ram
      { a with blockSize := blockSize.toNat, count := blocksCount.toNat, buffer := buffer }
    (r.1, r.2, 0)

/-- `slab_free`, with the link in the bytes of the block. -/
def slabFreeRam (ram : Nat → UInt8) (a : Slab) (ptr : Nat) : (Nat → UInt8) × Slab :=
  (storePtr ram ptr a.freeList, { a with freeList := some ptr })

variable {Tid : Type} [Threads Tid]

/-- `k_mem_slab_free`, with the link in the bytes of the block. -/
def kMemSlabFreeRam (cfg : Config Tid Unit) (k : Kernel Tid Unit Empty Nat)
    (ram : Nat → UInt8) (slab : Slab) (mem : Nat) :
    Kernel Tid Unit Empty Nat × (Nat → UInt8) × Slab × Option Tid :=
  if mem = 0 then (k, ram, slab, none)
  else
    -- if a thread is pending, give the block directly to the thread
    let r := zUnpendFirstAndSwap cfg k () (some mem)
    match r.2 with
    | some t => (r.1, ram, slab, some t)
    | none =>
        let a := slabFreeRam ram slab mem
        (r.1, a.1, a.2, none)

structure Alloc where
  ret : Int
  mem : Option Nat
  got : Option Nat
deriving DecidableEq, Repr

structure SlabSys (Tid : Type) where
  hands : Hands Tid Unit Nat Unit
  ram : Nat → UInt8
  slab : Slab
  owned : List (Tid × Nat)
  log : List Alloc

def SlabSys.allocated (st : SlabSys Tid) (t : Tid) (e : Alloc) : SlabSys Tid :=
  { st with
    owned := (e.mem.map (t, ·)).toList ++ st.owned
    log := e :: st.log }

def SlabSys.finish (st : SlabSys Tid) : SlabSys Tid :=
  let cur := st.hands.calls.ker.current
  let th := st.hands.calls.ker.thread cur
  match st.hands.calls.frame cur with
  | none => st
  | some _ =>
      { st with hands := st.hands.resume }.allocated cur
        ⟨zPendResult th, kMemSlabAllocEnd th, st.hands.got cur⟩

/-- The operations of a run. -/
inductive SlabOp (cfg : Config Tid Unit) where
  | alloc (timeout : cfg.Timeout)
  | free (t : Tid) (mem : Nat)
  | write (t : Tid) (mem i : Nat) (v : UInt8)
  | schedEnter
  | yield

def SlabOp.Allowed {cfg : Config Tid Unit} (st : SlabSys Tid) : SlabOp cfg → Prop
  | .alloc timeout => timeout ≠ kNoWait cfg → st.hands.calls.ker.current ≠ cfg.idle
  | .free t mem => (t, mem) ∈ st.owned
  | .write t mem i _ => (t, mem) ∈ st.owned ∧ i < st.slab.blockSize
  | _ => True

instance {cfg : Config Tid Unit} (st : SlabSys Tid) :
    (op : SlabOp cfg) → Decidable (op.Allowed st)
  | .alloc _ => inferInstanceAs (Decidable (_ → _))
  | .free _ _ => inferInstanceAs (Decidable (_ ∈ _))
  | .write _ _ _ _ => inferInstanceAs (Decidable (_ ∧ _))
  | .schedEnter | .yield => isTrue trivial

/-- The state after an operation. -/
def SlabOp.run {cfg : Config Tid Unit} (st : SlabSys Tid) : SlabOp cfg → SlabSys Tid
  | .alloc timeout =>
      let r := kMemSlabAlloc cfg st.hands.calls.ker (loadPtr st.ram) st.slab () timeout
      match r.2.2.2 with
      | some ret =>
          -- what is taken out was the head of the free list
          let got := if r.2.1.freeList = st.slab.freeList then none else st.slab.freeList
          { st with hands := st.hands.setKer r.1, slab := r.2.1 }.allocated
            st.hands.calls.ker.current ⟨ret, r.2.2.1, got⟩
      | none => { st with hands := st.hands.leave r.1 () (), slab := r.2.1 }.finish
  | .free t mem =>
      let r := kMemSlabFreeRam cfg st.hands.calls.ker st.ram st.slab mem
      { st with
        hands := st.hands.record r.1 r.2.2.2 mem
        ram := r.2.1
        slab := r.2.2.1
        owned := st.owned.erase (t, mem) }
  | .write _ mem i v => { st with ram := Function.update st.ram (mem + i) v }
  | .schedEnter => { st with hands := st.hands.setKer (zSchedEnter cfg st.hands.calls.ker) }
  | .yield => { st with hands := st.hands.setKer (zScheduler st.hands.calls.ker) }.finish

structure Geometry (buffer blockSize count : Nat) : Prop where
  buffer_pos : 0 < buffer
  two_le : 2 ≤ blockSize
  fits : buffer + blockSize * count ≤ 2 ^ 16

def SlabBoot (cfg : Config Tid Unit) (buffer : Nat) (blockSize : BitVec 16)
    (count : BitVec 8) (st : SlabSys Tid) : Prop :=
  ∃ k ring ram a, ColdBoot cfg k ring ∧ st.hands = handsBoot k ∧ st.owned = [] ∧ st.log = []
    ∧ slabInit cfg.argsChecks ram a buffer blockSize count = (st.ram, st.slab, 0)

/-- The states of the runs. -/
def SlabReach (cfg : Config Tid Unit) (buffer : Nat) (blockSize : BitVec 16)
    (count : BitVec 8) : SlabSys Tid → Prop :=
  Reach (SlabBoot cfg buffer blockSize count) (fun st (op : SlabOp cfg) => op.Allowed st)
    SlabOp.run

section Blocks

variable {buffer blockSize count b p : Nat} {ram ram' : Nat → UInt8} {free : List Nat}

theorem mem_blocks : b ∈ blocks buffer blockSize count
    ↔ ∃ i, i < count ∧ blockAt buffer blockSize i = b := by
  rw [blocks, mem_map]
  exact ⟨fun ⟨i, hi, hb⟩ => ⟨i, mem_range.mp hi, hb⟩,
    fun ⟨i, hi, hb⟩ => ⟨i, mem_range.mpr hi, hb⟩⟩

theorem apart_blocks (hb : b ∈ blocks buffer blockSize count)
    (hp : p ∈ blocks buffer blockSize count) (hne : b ≠ p) :
    Apart b blockSize p blockSize := by
  obtain ⟨i, -, rfl⟩ := mem_blocks.mp hb
  obtain ⟨j, -, rfl⟩ := mem_blocks.mp hp
  refine apart_slots fun hc => hne ?_
  rw [hc]

theorem Geometry.bounds (g : Geometry buffer blockSize count)
    (hb : b ∈ blocks buffer blockSize count) : 0 < b ∧ b < 2 ^ 16 := by
  obtain ⟨i, hi, rfl⟩ := mem_blocks.mp hb
  have hmul := Nat.mul_le_mul_left blockSize (Nat.succ_le_of_lt hi)
  rw [Nat.mul_succ] at hmul
  have h1 := g.buffer_pos
  have h2 := g.two_le
  have h3 := g.fits
  rw [blockAt]
  omega

theorem Geometry.nodup_blocks (g : Geometry buffer blockSize count) :
    (blocks buffer blockSize count).Nodup := by
  refine List.Nodup.map ?_ nodup_range
  intro i j hij
  have h2 := g.two_le
  exact Nat.eq_of_mul_eq_mul_left (by omega) (Nat.add_left_cancel hij)

theorem Geometry.chain_write (g : Geometry buffer blockSize count) {start : Option Nat}
    (hfree : ∀ p ∈ free, p ∈ blocks buffer blockSize count)
    (hb : b ∈ blocks buffer blockSize count) (hnb : b ∉ free)
    (hram : ∀ x, x < b ∨ b + blockSize ≤ x → ram' x = ram x)
    (h : Chain (loadPtr ram) start free) : Chain (loadPtr ram') start free := by
  refine h.congr fun p hp => ?_
  have hne : b ≠ p := fun hc => hnb (hc ▸ hp)
  have h2 := g.two_le
  refine loadPtr_congr fun x h1 h2 => hram x ?_
  rcases apart_blocks hb (hfree p hp) hne with ha | ha
  · right
    omega
  · left
    omega

theorem Geometry.chain_free (g : Geometry buffer blockSize count) {start : Option Nat}
    (hfree : ∀ p ∈ free, p ∈ blocks buffer blockSize count)
    (hb : b ∈ blocks buffer blockSize count) (hnb : b ∉ free)
    (h : Chain (loadPtr ram) start free) :
    Chain (loadPtr (storePtr ram b start)) (some b) (b :: free) := by
  have h2 := g.two_le
  refine ⟨rfl, ?_⟩
  have hstart : ∀ a, start = some a → 0 < a ∧ a < 2 ^ 16 := by
    rintro a rfl
    obtain ⟨v, rfl, -⟩ := h.exists_cons
    exact g.bounds (hfree a mem_cons_self)
  rw [loadPtr_storePtr_self hstart]
  refine g.chain_write hfree hb hnb ?_ h
  intro x hx
  exact storePtr_of_ne (by omega)

theorem blocks_succ (buffer blockSize n : Nat) : (blocks buffer blockSize (n + 1)).reverse
      = blockAt buffer blockSize n :: (blocks buffer blockSize n).reverse := by
  rw [blocks, range_succ, map_append, reverse_append]
  rfl

theorem Geometry.chain_finalizeLoop (g : Geometry buffer blockSize count) {n i : Nat}
    {freeList : Option Nat} (hi : i + n = count)
    (h : Chain (loadPtr ram) freeList (blocks buffer blockSize i).reverse) :
    Chain (loadPtr (finalizeLoop blockSize n ram (blockAt buffer blockSize i) freeList).1)
      (finalizeLoop blockSize n ram (blockAt buffer blockSize i) freeList).2
      (blocks buffer blockSize count).reverse := by
  induction n generalizing i ram freeList with
  | zero =>
    rw [Nat.add_zero] at hi
    rw [← hi]
    exact h
  | succ n ih =>
    have hlt : i < count := by omega
    have hsub : ∀ p ∈ (blocks buffer blockSize i).reverse, p ∈ blocks buffer blockSize count := by
      intro p hp
      obtain ⟨j, hj, rfl⟩ := mem_blocks.mp (mem_reverse.mp hp)
      exact mem_blocks.mpr ⟨j, by omega, rfl⟩
    have hmem : blockAt buffer blockSize i ∈ blocks buffer blockSize count :=
      mem_blocks.mpr ⟨i, hlt, rfl⟩
    have hnew : blockAt buffer blockSize i ∉ (blocks buffer blockSize i).reverse := by
      intro hc
      have hnd : (blocks buffer blockSize (i + 1)).Nodup :=
        Geometry.nodup_blocks ⟨g.buffer_pos, g.two_le,
          Nat.le_trans (Nat.add_le_add_left (Nat.mul_le_mul_left _ (by omega)) _) g.fits⟩
      rw [← nodup_reverse, blocks_succ] at hnd
      exact (nodup_cons.mp hnd).1 hc
    have hchain := g.chain_free hsub hmem hnew h
    rw [← blocks_succ] at hchain
    have hnext : blockAt buffer blockSize i + blockSize = blockAt buffer blockSize (i + 1) := by
      rw [blockAt, blockAt, Nat.mul_succ]
      omega
    rw [finalizeLoop, hnext]
    exact ih (by omega) hchain

end Blocks

variable {cfg : Config Tid Unit} {st : SlabSys Tid} {w : Unit → List Tid}
variable {buffer blockSize count b : Nat} {free : List Nat} {t : Tid}

structure SlabBase (cfg : Config Tid Unit) (buffer blockSize count : Nat)
    (st : SlabSys Tid) (w : Unit → List Tid) (free : List Nat) : Prop where
  hands : HandsBase cfg st.hands w
  size : st.slab.blockSize = blockSize
  chain : Chain (loadPtr st.ram) st.slab.freeList free
  account : ∀ b, free.count b + (st.owned.map Prod.snd).count b
    + (carriers st.hands.onWay b).card = (blocks buffer blockSize count).count b
  empty : w () ≠ [] → free = []
  results : ∀ e ∈ st.log, (e.ret = 0 ∧ ∃ b, e.mem = some b ∧ e.got = some b)
    ∨ (e.ret ≠ 0 ∧ e.mem = none ∧ e.got = none)

def SlabInv (cfg : Config Tid Unit) (buffer blockSize count : Nat) (st : SlabSys Tid) :
    Prop :=
  ∃ w free, SlabBase cfg buffer blockSize count st w free ∧ HandsInv cfg st.hands w

theorem SlabBase.free_blocks (h : SlabBase cfg buffer blockSize count st w free) :
    ∀ p ∈ free, p ∈ blocks buffer blockSize count := by
  intro p hp
  have hacc := h.account p
  have hpos := count_pos_iff.mpr hp
  exact count_pos_iff.mp (by omega)

theorem SlabBase.owned_block (h : SlabBase cfg buffer blockSize count st w free)
    (g : Geometry buffer blockSize count) (ho : (t, b) ∈ st.owned) :
    b ∈ blocks buffer blockSize count ∧ b ∉ free ∧ (st.owned.map Prod.snd).count b = 1 := by
  have hacc := h.account b
  have hpos : 0 < (st.owned.map Prod.snd).count b := count_pos_iff.mpr (mem_map_of_mem ho)
  have hle := nodup_iff_count_le_one.mp g.nodup_blocks b
  refine ⟨count_pos_iff.mp (by omega), fun hc => ?_, by omega⟩
  have := count_pos_iff.mpr hc
  omega

omit [Threads Tid] in
theorem SlabSys.map_snd_allocated (st : SlabSys Tid) (t : Tid) (e : Alloc) :
    (st.allocated t e).owned.map Prod.snd = e.mem.toList ++ st.owned.map Prod.snd := by
  show ((e.mem.map (t, ·)).toList ++ st.owned).map Prod.snd = _
  cases e.mem with
  | none => rfl
  | some b => rfl

theorem count_snd_erase {owned : List (Tid × Nat)} {mem : Nat} (ho : (t, mem) ∈ owned)
    (b : Nat) :
    (owned.map Prod.snd).count b
      = ((owned.erase (t, mem)).map Prod.snd).count b + if mem = b then 1 else 0 := by
  have hperm := (perm_cons_erase ho).map Prod.snd
  rw [hperm.count_eq, map_cons, count_cons]
  simp only [beq_iff_eq]

theorem SlabSys.finish_of_none
    (hf : st.hands.calls.frame st.hands.calls.ker.current = none) : st.finish = st := by
  simp only [SlabSys.finish, hf]

theorem SlabBase.finish (h : SlabBase cfg buffer blockSize count st w free) :
    SlabBase cfg buffer blockSize count st.finish w free ∧ HandsInv cfg st.finish.hands w := by
  cases hf : st.hands.calls.frame st.hands.calls.ker.current with
  | none =>
    rw [SlabSys.finish_of_none hf]
    exact ⟨h, h.hands, hf⟩
  | some f =>
    have hfin : st.finish = { st with hands := st.hands.resume }.allocated
        st.hands.calls.ker.current
        ⟨zPendResult (st.hands.calls.ker.thread st.hands.calls.ker.current),
          kMemSlabAllocEnd (st.hands.calls.ker.thread st.hands.calls.ker.current),
          st.hands.got st.hands.calls.ker.current⟩ := by
      simp only [SlabSys.finish, hf]
    have hres := h.hands.result hf
    have hmem : kMemSlabAllocEnd (st.hands.calls.ker.thread st.hands.calls.ker.current)
        = st.hands.got st.hands.calls.ker.current := by
      rw [kMemSlabAllocEnd]
      rcases hres with ⟨hz, d, hg, hs⟩ | ⟨hz, hg⟩
      · rw [if_pos hz, hg, hs]
      · rw [if_neg hz, hg]
    have hway : st.hands.onWay st.hands.calls.ker.current
        = st.hands.got st.hands.calls.ker.current := by
      rw [Hands.onWay, hf]
      rfl
    have hinv := h.hands.resume
    rw [hfin, hmem]
    refine ⟨⟨hinv.toHandsBase, h.size, h.chain, ?_, h.empty, ?_⟩, hinv⟩
    · intro b
      have hcard := card_carriers st.hands.onWay st.hands.calls.ker.current b
      have hacc := h.account b
      rw [hway] at hcard
      rw [SlabSys.map_snd_allocated]
      show free.count b + _ + (carriers st.hands.resume.onWay b).card = _
      rw [Hands.onWay_resume, count_append]
      show free.count b + ((st.hands.got st.hands.calls.ker.current).toList.count b
        + (st.owned.map Prod.snd).count b) + _ = _
      have hto : (st.hands.got st.hands.calls.ker.current).toList.count b
          = if st.hands.got st.hands.calls.ker.current = some b then 1 else 0 := by
        cases st.hands.got st.hands.calls.ker.current with
        | none => rfl
        | some d =>
          rw [Option.toList_some, count_singleton]
          simp only [beq_iff_eq, Option.some.injEq]
      omega
    · intro e he
      rcases mem_cons.mp he with rfl | he
      · rcases hres with ⟨hz, d, hg, -⟩ | ⟨hz, hg⟩
        · exact Or.inl ⟨hz, d, hg, hg⟩
        · exact Or.inr ⟨hz, hg, hg⟩
      · exact h.results e he

section Steps

variable (hb : SlabBase cfg buffer blockSize count st w free)
variable (hi : HandsInv cfg st.hands w)
include hb hi

theorem SlabBase.alloc_block {p : Nat} {rest : List Nat} (hfree : free = p :: rest)
    (timeout : cfg.Timeout) :
    SlabInv cfg buffer blockSize count ((SlabOp.alloc timeout : SlabOp cfg).run st) := by
  subst hfree
  have hhead : st.slab.freeList = some p := hb.chain.1
  have hr : kMemSlabAlloc cfg st.hands.calls.ker (loadPtr st.ram) st.slab () timeout
      = (st.hands.calls.ker, { st.slab with freeList := loadPtr st.ram p }, some p,
        some 0) := by
    simp only [kMemSlabAlloc, slabAlloc, hhead]
  have hne : loadPtr st.ram p ≠ st.slab.freeList := by
    rw [hhead]
    intro hc
    -- the first block is not in the rest of the list
    have hrest := hb.chain.2
    rw [hc] at hrest
    obtain ⟨v, rfl, -⟩ := hrest.exists_cons
    exact (nodup_cons.mp hb.chain.nodup).1 mem_cons_self
  have hw : w () = [] := by
    by_contra hc
    exact nomatch hb.empty hc
  simp only [SlabOp.run, hr, if_neg hne]
  rw [hhead]
  refine ⟨w, rest, ⟨hi.toHandsBase, hb.size, hb.chain.2, ?_, fun hc => absurd hw hc, ?_⟩, hi⟩
  · intro b
    have hacc := hb.account b
    rw [count_cons] at hacc
    rw [SlabSys.map_snd_allocated]
    show rest.count b + (p :: st.owned.map Prod.snd).count b
      + (carriers st.hands.onWay b).card = _
    rw [count_cons]
    omega
  · intro e he
    rcases mem_cons.mp he with rfl | he
    · exact Or.inl ⟨rfl, p, rfl, rfl⟩
    · exact hb.results e he

theorem SlabBase.alloc_noWait (hfree : free = []) : SlabInv cfg buffer blockSize count
      ((SlabOp.alloc (kNoWait cfg) : SlabOp cfg).run st) := by
  subst hfree
  have hhead : st.slab.freeList = none := hb.chain
  have hr : kMemSlabAlloc cfg st.hands.calls.ker (loadPtr st.ram) st.slab () (kNoWait cfg)
      = (st.hands.calls.ker, st.slab, none, some (-ENOMEM)) := by
    simp only [kMemSlabAlloc, slabAlloc, hhead, if_true]
  simp only [SlabOp.run, hr, if_true]
  refine ⟨w, [], ⟨hi.toHandsBase, hb.size, hb.chain, ?_, hb.empty, ?_⟩, hi⟩
  · intro b
    rw [SlabSys.map_snd_allocated]
    exact hb.account b
  · intro e he
    rcases mem_cons.mp he with rfl | he
    · exact Or.inr ⟨by decide, rfl, rfl⟩
    · exact hb.results e he

theorem SlabBase.alloc_wait (hfree : free = []) {timeout : cfg.Timeout}
    (hne : timeout ≠ kNoWait cfg) (hcur : st.hands.calls.ker.current ≠ cfg.idle) :
    SlabInv cfg buffer blockSize count ((SlabOp.alloc timeout : SlabOp cfg).run st) := by
  subst hfree
  have hhead : st.slab.freeList = none := hb.chain
  obtain ⟨hnone, hbase⟩ := hi.leave hcur () () hne
  have hr : kMemSlabAlloc cfg st.hands.calls.ker (loadPtr st.ram) st.slab () timeout
      = ((zPendCurrentOn cfg st.hands.calls.ker (some ()) timeout).1, st.slab, none, none) := by
    simp only [kMemSlabAlloc, slabAlloc, hhead, if_neg hne, hnone]
  have hway := hi.onWay_leave (zPendCurrentOn cfg st.hands.calls.ker (some ()) timeout).1
    () ()
  simp only [SlabOp.run, hr]
  refine ⟨_, [], SlabBase.finish ⟨hbase, hb.size, hb.chain, ?_, fun _ => rfl, hb.results⟩⟩
  intro b
  show [].count b + _ + (carriers (Hands.onWay _) b).card = _
  rw [hway]
  exact hb.account b

theorem SlabBase.free_waiter (g : Geometry buffer blockSize count) {x : Tid}
    {rest : List Tid} {mem : Nat} (ho : (t, mem) ∈ st.owned) (hw : w () = x :: rest) :
    SlabInv cfg buffer blockSize count ((SlabOp.free t mem : SlabOp cfg).run st) := by
  obtain ⟨hmem, -⟩ := hb.owned_block g ho
  obtain ⟨hhead, hinv⟩ := hi.give () mem
  have hwait : st.hands.calls.Waiting () x := by
    rw [← hb.hands.calls.waits, hw]
    exact mem_cons_self
  rw [hw] at hhead hinv
  have hr : kMemSlabFreeRam cfg st.hands.calls.ker st.ram st.slab mem
      = ((zUnpendFirstAndSwap cfg st.hands.calls.ker () (some mem)).1, st.ram, st.slab,
        some x) := by
    simp only [kMemSlabFreeRam, if_neg (Nat.ne_of_gt (g.bounds hmem).1), hhead, List.head?_cons]
  have hfree : free = [] := hb.empty (by rw [hw]; exact cons_ne_nil _ _)
  simp only [SlabOp.run, hr]
  refine ⟨_, free, ⟨hinv.toHandsBase, hb.size, hb.chain, ?_, fun _ => hfree, hb.results⟩, hinv⟩
  intro b
  have hacc := hb.account b
  have herase := count_snd_erase ho b
  show free.count b + ((st.owned.erase (t, mem)).map Prod.snd).count b
    + (carriers (Hands.onWay _) b).card = _
  rw [Hands.onWay_record hwait, card_carriers_update (hb.hands.onWay_waiting hwait)]
  omega

theorem SlabBase.free_nobody (g : Geometry buffer blockSize count) {mem : Nat}
    (ho : (t, mem) ∈ st.owned) (hw : w () = []) :
    SlabInv cfg buffer blockSize count ((SlabOp.free t mem : SlabOp cfg).run st) := by
  obtain ⟨hmem, hnf, -⟩ := hb.owned_block g ho
  obtain ⟨hhead, hinv⟩ := hi.give () mem
  rw [hw] at hhead hinv
  have hr : kMemSlabFreeRam cfg st.hands.calls.ker st.ram st.slab mem
      = ((zUnpendFirstAndSwap cfg st.hands.calls.ker () (some mem)).1,
        storePtr st.ram mem st.slab.freeList, { st.slab with freeList := some mem },
        none) := by
    simp only [kMemSlabFreeRam, if_neg (Nat.ne_of_gt (g.bounds hmem).1), hhead,
      List.head?_nil, slabFreeRam]
  simp only [SlabOp.run, hr]
  refine ⟨_, mem :: free, ⟨hinv.toHandsBase, hb.size,
    g.chain_free hb.free_blocks hmem hnf hb.chain, ?_, fun hc => absurd rfl hc, hb.results⟩,
    hinv⟩
  intro b
  have hacc := hb.account b
  have herase := count_snd_erase ho b
  show (mem :: free).count b + ((st.owned.erase (t, mem)).map Prod.snd).count b
    + (carriers st.hands.onWay b).card = _
  rw [count_cons]
  simp only [beq_iff_eq]
  omega

theorem SlabBase.write (g : Geometry buffer blockSize count) {mem i : Nat}
    (ho : (t, mem) ∈ st.owned) (hlt : i < st.slab.blockSize) (v : UInt8) :
    SlabInv cfg buffer blockSize count
      ((SlabOp.write t mem i v : SlabOp cfg).run st) := by
  obtain ⟨hmem, hnf, -⟩ := hb.owned_block g ho
  rw [hb.size] at hlt
  refine ⟨w, free, ⟨hi.toHandsBase, hb.size, ?_, hb.account, hb.empty, hb.results⟩, hi⟩
  refine g.chain_write hb.free_blocks hmem hnf ?_ hb.chain
  intro x hx
  exact Function.update_of_ne (by omega) ..

end Steps

/-- **ONE STEP** of a run. -/
theorem SlabInv.step (g : Geometry buffer blockSize count)
    (h : SlabInv cfg buffer blockSize count st) (op : SlabOp cfg) (ha : op.Allowed st) :
    SlabInv cfg buffer blockSize count (op.run st) := by
  obtain ⟨w, free, hb, hi⟩ := h
  cases op with
  | alloc timeout =>
    cases hfree : free with
    | cons p rest => exact hb.alloc_block hi hfree timeout
    | nil =>
      by_cases hne : timeout = kNoWait cfg
      · rw [hne]
        exact hb.alloc_noWait hi hfree
      · exact hb.alloc_wait hi hfree hne (ha hne)
  | free t mem =>
    cases hw : w () with
    | nil => exact hb.free_nobody hi g ha hw
    | cons x rest => exact hb.free_waiter hi g ha hw
  | write t mem i v => exact hb.write hi g ha.1 ha.2 v
  | schedEnter =>
    obtain ⟨w', hinv, hsub⟩ := hi.schedEnter
    refine ⟨w', free, ⟨hinv.toHandsBase, hb.size, hb.chain, hb.account, ?_, hb.results⟩, hinv⟩
    intro hc
    refine hb.empty fun hc' => hc ?_
    exact eq_nil_of_sublist_nil (hc' ▸ hsub ())
  | yield =>
    exact ⟨w, free, SlabBase.finish ⟨hi.yield, hb.size, hb.chain, hb.account, hb.empty, hb.results⟩⟩

/-- All blocks are free in the beginning. -/
theorem SlabBoot.inv {size : BitVec 16} {n : BitVec 8} (g : Geometry buffer size.toNat n.toNat)
    (h : SlabBoot cfg buffer size n st) : SlabInv cfg buffer size.toNat n.toNat st := by
  obtain ⟨k, ring, ram, a, hboot, hhands, howned, hlog, hinit⟩ := h
  rw [slabInit] at hinit
  split_ifs at hinit with hz
  · exact absurd (Prod.mk.inj (Prod.mk.inj hinit).2).2 (by decide)
  · obtain ⟨hram, hslab⟩ := Prod.mk.inj hinit
    replace hslab := (Prod.mk.inj hslab).1
    have hnone : Chain (loadPtr ram) none (blocks buffer size.toNat 0).reverse := rfl
    have hchain := g.chain_finalizeLoop (Nat.zero_add n.toNat) hnone
    refine ⟨fun _ => [], (blocks buffer size.toNat n.toNat).reverse,
      ⟨?_, ?_, ?_, ?_, fun hc => absurd rfl hc, ?_⟩, ?_⟩
    · rw [hhands]
      exact hboot.handsInv.toHandsBase
    · rw [← hslab]
      rfl
    · rw [← hslab, ← hram]
      exact hchain
    · intro b
      rw [hhands, card_carriers_handsBoot, howned, count_reverse]
      rfl
    · intro e he
      rw [hlog] at he
      exact nomatch he
    · rw [hhands]
      exact hboot.handsInv

theorem SlabSys.onWay_finish (hx : st.finish.hands.onWay t = some b) :
    st.hands.onWay t = some b := by
  cases hf : st.hands.calls.frame st.hands.calls.ker.current with
  | none =>
    rw [SlabSys.finish_of_none hf] at hx
    exact hx
  | some f =>
    have hfin : st.finish.hands = st.hands.resume := by
      simp only [SlabSys.finish, hf]
      rfl
    rw [hfin, Hands.onWay_resume, Function.update_apply] at hx
    split_ifs at hx
    exact hx

theorem SlabInv.served (h : SlabInv cfg buffer blockSize count st) (op : SlabOp cfg)
    (hnew : (op.run st).hands.onWay t = some b) (hold : st.hands.onWay t = none) :
    (∃ owner, op = .free owner b) ∧ st.hands.calls.Waiting () t
      ∧ ∀ t', st.hands.calls.Waiting () t' → t' ≠ t →
          st.hands.calls.stamp t < st.hands.calls.stamp t' := by
  obtain ⟨w, free, hb, hi⟩ := h
  have hno : st.hands.onWay t ≠ some b := by
    rw [hold]
    exact fun hc => nomatch hc
  cases op with
  | alloc timeout =>
    exfalso
    refine hno ?_
    revert hnew
    simp only [SlabOp.run]
    cases (kMemSlabAlloc cfg st.hands.calls.ker (loadPtr st.ram) st.slab () timeout).2.2.2 with
    | some ret => exact id
    | none =>
      intro hnew
      have h1 := SlabSys.onWay_finish hnew
      rw [← hi.onWay_leave _ () ()]
      exact h1
  | free owner mem =>
    by_cases h0 : mem = 0
    · simp only [SlabOp.run, kMemSlabFreeRam, if_pos h0] at hnew
      exact absurd hnew hno
    · obtain ⟨hhead, -⟩ := hi.give () mem
      have hr : (kMemSlabFreeRam cfg st.hands.calls.ker st.ram st.slab mem).2.2.2
          = (w ()).head? := by
        rw [← hhead, kMemSlabFreeRam, if_neg h0]
        cases hu : (zUnpendFirstAndSwap cfg st.hands.calls.ker () (some mem)).2 with
        | none => simp only [hu]
        | some t => simp only [hu]
      replace hnew : (st.hands.record _ (kMemSlabFreeRam cfg st.hands.calls.ker st.ram
        st.slab mem).2.2.2 mem).onWay t = some b := hnew
      rw [hr] at hnew
      obtain ⟨rfl, hserved⟩ := hb.hands.served hnew hold
      exact ⟨⟨owner, rfl⟩, hserved⟩
  | write t mem i v => exact absurd hnew hno
  | schedEnter => exact absurd hnew hno
  | yield => exact absurd (SlabSys.onWay_finish hnew) hno

structure SlabOk (cfg : Config Tid Unit) (buffer blockSize count : Nat)
    (st : SlabSys Tid) : Prop where
  /-- every block is in one place -/
  conserved : ∃ free, Chain (loadPtr st.ram) st.slab.freeList free ∧
    ∀ b, free.count b + (st.owned.map Prod.snd).count b
      + (carriers st.hands.onWay b).card
        = if b ∈ blocks buffer blockSize count then 1 else 0
  /-- and has one owner at most -/
  one_owner : ∀ t t' b, (t, b) ∈ st.owned → (t', b) ∈ st.owned → t = t'
  /-- a block on its way is going to be returned -/
  onWay : ∀ t b, st.hands.onWay t = some b →
    st.hands.calls.Granted () t
      ∧ kMemSlabAllocEnd (st.hands.calls.ker.thread t) = some b
  empty : ∀ t, st.hands.calls.Waiting () t → st.slab.freeList = none
  served : ∀ (op : SlabOp cfg) t b, op.Allowed st →
    (op.run st).hands.onWay t = some b → st.hands.onWay t = none →
      (∃ owner, op = .free owner b) ∧ st.hands.calls.Waiting () t
        ∧ ∀ t', st.hands.calls.Waiting () t' → t' ≠ t →
            st.hands.calls.stamp t < st.hands.calls.stamp t'
  /-- an allocation that fails obtains no block -/
  results : ∀ e ∈ st.log, (e.ret = 0 ∧ ∃ b, e.mem = some b ∧ e.got = some b)
    ∨ (e.ret ≠ 0 ∧ e.mem = none ∧ e.got = none)

/-- **BLOCK CONSERVATION**: every block is free, owned by one thread or on its way to one waiter;
    waiters obtain blocks in their order. -/
theorem slab_conservation {size : BitVec 16} {n : BitVec 8}
    (g : Geometry buffer size.toNat n.toNat) (h : SlabReach cfg buffer size n st) :
    SlabOk cfg buffer size.toNat n.toNat st := by
  have hinv : SlabInv cfg buffer size.toNat n.toNat st :=
    Reach.invariant h (fun _ hb => hb.inv g) fun _ op ih ha => ih.step g op ha
  have hserved := fun op t b => hinv.served (t := t) (b := b) op
  obtain ⟨w, free, hb, hi⟩ := hinv
  refine ⟨⟨free, hb.chain, ?_⟩, ?_, ?_, ?_, fun op t b _ => hserved op t b, hb.results⟩
  · intro b
    rw [hb.account b]
    by_cases hmem : b ∈ blocks buffer size.toNat n.toNat
    · rw [if_pos hmem, count_eq_one_of_mem g.nodup_blocks hmem]
    · rw [if_neg hmem, count_eq_zero_of_not_mem hmem]
  · intro t t' b ht ht'
    obtain ⟨-, -, hone⟩ := hb.owned_block g ht
    by_contra hne
    have herase := count_snd_erase ht b
    have hmem : (t', b) ∈ st.owned.erase (t, b) :=
      (mem_erase_of_ne fun hc => hne (Prod.mk.inj hc).1.symm).mpr ht'
    have hpos : 0 < ((st.owned.erase (t, b)).map Prod.snd).count b :=
      count_pos_iff.mpr (mem_map_of_mem hmem)
    rw [if_pos rfl] at herase
    omega
  · intro t b ht
    obtain ⟨_, hg, hs⟩ := hb.hands.onWay_result ht
    refine ⟨hg, ?_⟩
    rw [kMemSlabAllocEnd, if_pos hg.2.2, hs]
  · intro t ht
    have hmem := (hb.hands.calls.waits () t).mpr ht
    have hfree := hb.empty (ne_nil_of_mem hmem)
    subst hfree
    exact hb.chain

def slabBoot : SlabSys (Fin 4) where
  hands := handsBoot (smallBoot Unit Empty Nat)
  ram := (slabInit true (fun _ => 0) ⟨0, 0, 0, none⟩ 256 2 1).1
  slab := (slabInit true (fun _ => 0) ⟨0, 0, 0, none⟩ 256 2 1).2.1
  owned := []
  log := []

def blockOnWay : SlabSys (Fin 4) :=
  ([.alloc (kNoWait _), .yield, .alloc (kForever _), .write 0 256 1 7, .free 0 256] :
    List (SlabOp (smallConfig Unit))).foldl SlabOp.run slabBoot

theorem slab_conservation_blockOnWay :
    SlabOk (smallConfig Unit) 256 2 1 blockOnWay
      ∧ blockOnWay.slab.freeList = none ∧ blockOnWay.owned = []
      ∧ blockOnWay.hands.onWay 1 = some 256 := by
  have hboot : SlabBoot (smallConfig Unit) 256 2 1 slabBoot :=
    ⟨_, _, _, _, smallBoot_boot, rfl, rfl, rfl, rfl⟩
  have hreach : SlabReach (smallConfig Unit) 256 2 1 blockOnWay :=
    Reach.foldl (.start hboot) (by decide)
  exact ⟨slab_conservation ⟨by decide, by decide, by decide⟩ hreach, by decide, by decide,
    by decide⟩

end AvrtosMemSlab
