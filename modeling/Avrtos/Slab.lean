import Avrtos.Bump
import Avrtos.Fifo
import Avrtos.MemSlab

/-! # The slab allocator (`alloc/slab.c`)

    Free blocks are chained through their first bytes; any run keeps the chain. -/

namespace AvrtosSlab

open BitVec List AvrtosBump AvrtosFifo AvrtosMemSlab AvrtosObjects Bytes LinkedChain Runs

/-- `slab_reset`. -/
def slabReset (ram : Nat → UInt8) (a : Slab) : (Nat → UInt8) × Slab :=
  zSlabAllocFinalizeInit ram a

/-- `slab_stats`. -/
def slabStats (fuel : Nat) (ram : Nat → UInt8) (a : Slab) : Option AllocStats :=
  let freeNb : Option (BitVec 8) :=
    match a.freeList with
    | some p =>
        let list : Slist Nat := ⟨loadPtr ram p, loadPtr ram (p + 2)⟩
        (slistCount (loadPtr ram) fuel list).map fun count => (count.setWidth 16 + 1).setWidth 8
    | none => some 0
  freeNb.map fun n =>
    let total : BitVec 16 := BitVec.ofNat 16 a.blockSize * BitVec.ofNat 16 a.count
    let free : BitVec 16 := n.setWidth 16 * BitVec.ofNat 16 a.blockSize
    ⟨total, total - free, free⟩

structure SlabState where
  ram : Nat → UInt8
  slab : Slab
  allocated : List Nat

inductive Call where
  | alloc
  | free (b : Nat)
  | reset
  | write (b i : Nat) (v : UInt8)

def Call.Allowed (s : SlabState) : Call → Prop
  | .free b => b ∈ s.allocated
  | .write b i _ => b ∈ s.allocated ∧ i < s.slab.blockSize
  | _ => True

instance (s : SlabState) : (c : Call) → Decidable (c.Allowed s)
  | .free _ => inferInstanceAs (Decidable (_ ∈ _))
  | .write _ _ _ => inferInstanceAs (Decidable (_ ∧ _))
  | .alloc | .reset => isTrue trivial

/-- The state after a call. -/
def Call.run (s : SlabState) : Call → SlabState
  | .alloc =>
      let r := slabAlloc (loadPtr s.ram) s.slab
      { s with slab := r.1, allocated := r.2.toList ++ s.allocated }
  | .free b =>
      let r := slabFreeRam s.ram s.slab b
      ⟨r.1, r.2, s.allocated.erase b⟩
  | .reset =>
      let r := slabReset s.ram s.slab
      ⟨r.1, r.2, []⟩
  | .write b i v => { s with ram := Function.update s.ram (b + i) v }

def Initial (argsChecks : Bool) (buffer : Nat) (blockSize : BitVec 16) (count : BitVec 8)
    (s : SlabState) : Prop :=
  s.allocated = [] ∧
    ∃ ram a, slabInit argsChecks ram a buffer blockSize count = (s.ram, s.slab, 0)

structure Inv (buffer blockSize count : Nat) (s : SlabState) (free : List Nat) : Prop where
  at_buffer : s.slab.buffer = buffer
  size : s.slab.blockSize = blockSize
  number : s.slab.count = count
  chain : Chain (loadPtr s.ram) s.slab.freeList free
  account : (free ++ s.allocated).Perm (blocks buffer blockSize count)

variable {buffer blockSize count b : Nat} {s : SlabState} {free : List Nat}

theorem Inv.mem_blocks (h : Inv buffer blockSize count s free) :
    (∀ p ∈ free, p ∈ blocks buffer blockSize count) ∧
      ∀ p ∈ s.allocated, p ∈ blocks buffer blockSize count :=
  ⟨fun _ hp => h.account.mem_iff.mp (mem_append_left _ hp),
    fun _ hp => h.account.mem_iff.mp (mem_append_right _ hp)⟩

theorem Inv.nodup (h : Inv buffer blockSize count s free) (g : Geometry buffer blockSize count) :
    (free ++ s.allocated).Nodup := h.account.nodup_iff.mpr g.nodup_blocks

theorem Inv.not_free (h : Inv buffer blockSize count s free)
    (g : Geometry buffer blockSize count) (hb : b ∈ s.allocated) : b ∉ free :=
  fun hc => (disjoint_of_nodup_append (h.nodup g)) hc hb

theorem Inv.length (h : Inv buffer blockSize count s free) :
    free.length + s.allocated.length = count := by
  have hlen := h.account.length_eq
  rwa [length_append, blocks, length_map, length_range] at hlen

/-- A slab whose free list has just been made. -/
theorem inv_finalizeInit (g : Geometry buffer blockSize count) {a : Slab} (ram : Nat → UInt8)
    (hbuffer : a.buffer = buffer) (hsize : a.blockSize = blockSize) (hcount : a.count = count) :
    Inv buffer blockSize count ⟨(zSlabAllocFinalizeInit ram a).1, (zSlabAllocFinalizeInit ram a).2,
      []⟩ (blocks buffer blockSize count).reverse := by
  have hnone : Chain (loadPtr ram) none (blocks buffer blockSize 0).reverse := rfl
  have hchain := g.chain_finalizeLoop (Nat.zero_add count) hnone
  refine ⟨hbuffer, hsize, hcount, ?_, ?_⟩
  · subst hbuffer hsize hcount
    exact hchain
  · rw [append_nil]
    exact reverse_perm _

theorem Initial.inv {argsChecks : Bool} {size : BitVec 16} {n : BitVec 8}
    (g : Geometry buffer size.toNat n.toNat) (h : Initial argsChecks buffer size n s) :
    ∃ free, Inv buffer size.toNat n.toNat s free := by
  obtain ⟨halloc, ram, a, hinit⟩ := h
  rw [slabInit] at hinit
  split_ifs at hinit with hz
  · exact absurd (Prod.mk.inj (Prod.mk.inj hinit).2).2 (by decide)
  · obtain ⟨hram, hslab⟩ := Prod.mk.inj hinit
    have hs : s = ⟨s.ram, s.slab, []⟩ := by rw [← halloc]
    rw [hs, ← hram, ← (Prod.mk.inj hslab).1]
    exact ⟨_, inv_finalizeInit g ram rfl rfl rfl⟩

/-- **ONE CALL** keeps every block in one place. -/
theorem Inv.step (g : Geometry buffer blockSize count) (h : Inv buffer blockSize count s free)
    (c : Call) (hc : c.Allowed s) : ∃ free', Inv buffer blockSize count (c.run s) free' := by
  cases c with
  | alloc =>
    cases hfree : free with
    | nil =>
      have hhead : s.slab.freeList = none := by
        have := h.chain
        rwa [hfree] at this
      have hrun : slabAlloc (loadPtr s.ram) s.slab = (s.slab, none) := by
        simp only [slabAlloc, hhead]
      refine ⟨[], ?_⟩
      simp only [Call.run, hrun]
      exact hfree ▸ h
    | cons p rest =>
      obtain ⟨hhead, hrest⟩ : s.slab.freeList = some p ∧ Chain (loadPtr s.ram)
          (loadPtr s.ram p) rest := by
        have := h.chain
        rwa [hfree] at this
      have hrun : slabAlloc (loadPtr s.ram) s.slab =
          ({ s.slab with freeList := loadPtr s.ram p }, some p) := by
        simp only [slabAlloc, hhead]
      refine ⟨rest, ?_⟩
      simp only [Call.run, hrun]
      refine ⟨h.at_buffer, h.size, h.number, hrest, ?_⟩
      have haccount := h.account
      rw [hfree] at haccount
      exact perm_middle.trans haccount
  | free b =>
    obtain ⟨hblocks, halloc⟩ := h.mem_blocks
    refine ⟨b :: free, h.at_buffer, h.size, h.number,
      g.chain_free hblocks (halloc b hc) (h.not_free g hc) h.chain, ?_⟩
    have hperm : (b :: (free ++ s.allocated.erase b)).Perm (free ++ s.allocated) :=
      perm_middle.symm.trans ((perm_cons_erase hc).symm.append_left free)
    exact hperm.trans h.account
  | reset => exact ⟨_, inv_finalizeInit g s.ram h.at_buffer h.size h.number⟩
  | write b i v =>
    obtain ⟨hblocks, halloc⟩ := h.mem_blocks
    obtain ⟨hb, hi⟩ := hc
    rw [h.size] at hi
    refine ⟨free, h.at_buffer, h.size, h.number,
      g.chain_write hblocks (halloc b hb) (h.not_free g hb) (fun x hx => ?_) h.chain, h.account⟩
    exact Function.update_of_ne (by omega) ..

def statsFor (blockSize count n : Nat) : AllocStats :=
  let total : BitVec 16 := BitVec.ofNat 16 blockSize * BitVec.ofNat 16 count
  let free : BitVec 16 := BitVec.ofNat 16 n * BitVec.ofNat 16 blockSize
  ⟨total, total - free, free⟩

/-- The statistics, in bytes. -/
structure Reports (blockSize count n : Nat) (st : AllocStats) : Prop where
  total : st.total.toNat = blockSize * count
  free : st.free.toNat = blockSize * n
  used : st.used.toNat = blockSize * count - blockSize * n

theorem count_succ (n : Nat) :
    (((0 : BitVec 8) + BitVec.ofNat 8 n).setWidth 16 + 1).setWidth 8 = BitVec.ofNat 8 (n + 1) := by
  have hone : (1 : BitVec 16).toNat = 1 := rfl
  have hzero : (0 : BitVec 8).toNat = 0 := rfl
  apply eq_of_toNat_eq
  rw [toNat_setWidth, toNat_add, toNat_setWidth, toNat_add,
    toNat_ofNat, toNat_ofNat, hone, hzero]
  omega

theorem setWidth_ofNat {n : Nat} (h : n < 256) :
    (BitVec.ofNat 8 n).setWidth 16 = BitVec.ofNat 16 n := by
  apply eq_of_toNat_eq
  rw [toNat_setWidth, toNat_ofNat, toNat_ofNat]
  omega

theorem Inv.stats (h : Inv buffer blockSize count s free) (hcount : count < 256) {fuel : Nat}
    (hfuel : free.length ≤ fuel) :
    slabStats fuel s.ram s.slab = some (statsFor blockSize count free.length) := by
  have hlen := h.length
  unfold slabStats
  rw [h.size, h.number]
  cases free with
  | nil =>
    have hhead : s.slab.freeList = none := h.chain
    simp only [hhead, Option.map_some, length_nil]
    rfl
  | cons p rest =>
    have hhead : s.slab.freeList = some p := h.chain.1
    rw [length_cons] at hfuel hlen
    have hloop := slistCountLoop_chain h.chain.2 (show rest.length ≤ fuel by omega) 0
    simp only [hhead, slistCount, hloop, Option.map_some, count_succ,
      setWidth_ofNat (show rest.length + 1 < 256 by omega)]
    rfl

theorem reports_statsFor (g : Geometry buffer blockSize count) {n : Nat} (hn : n ≤ count) :
    Reports blockSize count n (statsFor blockSize count n) := by
  have hmul := Nat.mul_le_mul_left blockSize hn
  have hpos := g.buffer_pos
  have hfits := g.fits
  have htotal : (BitVec.ofNat 16 blockSize * BitVec.ofNat 16 count).toNat = blockSize * count := by
    rw [← ofNat_mul, toNat_ofNat, Nat.mod_eq_of_lt (by omega)]
  have hfree : (BitVec.ofNat 16 n * BitVec.ofNat 16 blockSize).toNat = blockSize * n := by
    rw [← ofNat_mul, toNat_ofNat, Nat.mul_comm, Nat.mod_eq_of_lt (by omega)]
  refine ⟨htotal, hfree, ?_⟩
  show (BitVec.ofNat 16 blockSize * BitVec.ofNat 16 count -
    BitVec.ofNat 16 n * BitVec.ofNat 16 blockSize).toNat = _
  rw [toNat_sub, htotal, hfree]
  omega

structure SlabCorrect (buffer blockSize count : Nat) (s : SlabState) : Prop where
  /-- `slab_alloc` returns `NULL` exactly when all blocks are allocated -/
  null_iff : (slabAlloc (loadPtr s.ram) s.slab).2 = none ↔ s.allocated.length = count
  /-- and otherwise a block that is not allocated -/
  block : ∀ p, (slabAlloc (loadPtr s.ram) s.slab).2 = some p →
    (∃ k, k < count ∧ p = buffer + k * blockSize) ∧ p ∉ s.allocated
  /-- the free list has the blocks that are not allocated, each once -/
  free_list : ∃ free, Chain (loadPtr s.ram) s.slab.freeList free ∧ free.Nodup ∧
    (∀ b, b ∈ free ↔ (∃ k, k < count ∧ b = buffer + k * blockSize) ∧ b ∉ s.allocated) ∧
    ∃ n, ∀ fuel, n ≤ fuel → ∃ st, slabStats fuel s.ram s.slab = some st ∧
      Reports blockSize count free.length st
  /-- an allocated block is a block, and is allocated once -/
  allocated : s.allocated.Nodup ∧
    ∀ b ∈ s.allocated, ∃ k, k < count ∧ b = buffer + k * blockSize

theorem mem_blocks_iff {b : Nat} :
    b ∈ blocks buffer blockSize count ↔ ∃ k, k < count ∧ b = buffer + k * blockSize := by
  rw [AvrtosMemSlab.mem_blocks]
  constructor
  · rintro ⟨k, hk, rfl⟩
    exact ⟨k, hk, by rw [blockAt, Nat.mul_comm]⟩
  · rintro ⟨k, hk, rfl⟩
    exact ⟨k, hk, by rw [blockAt, Nat.mul_comm]⟩

theorem Inv.correct (g : Geometry buffer blockSize count) (hcount : count < 256)
    (h : Inv buffer blockSize count s free) : SlabCorrect buffer blockSize count s := by
  have hlen := h.length
  have hnodup := h.nodup g
  obtain ⟨hfree, halloc⟩ := h.mem_blocks
  have hdisj := disjoint_of_nodup_append hnodup
  refine ⟨?_, ?_, ⟨free, h.chain, hnodup.of_append_left, fun b => ?_, free.length,
    fun fuel hfuel => ⟨_, h.stats hcount hfuel, reports_statsFor g (by omega)⟩⟩,
    hnodup.of_append_right, fun b hb => mem_blocks_iff.mp (halloc b hb)⟩
  · cases free with
    | nil =>
      have hhead : s.slab.freeList = none := h.chain
      rw [length_nil, Nat.zero_add] at hlen
      simp only [slabAlloc, hhead, hlen]
    | cons p rest =>
      have hhead : s.slab.freeList = some p := h.chain.1
      rw [length_cons] at hlen
      simp only [slabAlloc, hhead, reduceCtorEq, false_iff]
      omega
  · intro p hp
    cases free with
    | nil =>
      have hhead : s.slab.freeList = none := h.chain
      simp only [slabAlloc, hhead, reduceCtorEq] at hp
    | cons q rest =>
      have hhead : s.slab.freeList = some q := h.chain.1
      simp only [slabAlloc, hhead, Option.some.injEq] at hp
      subst hp
      exact ⟨mem_blocks_iff.mp (hfree q mem_cons_self), hdisj mem_cons_self⟩
  · rw [← mem_blocks_iff, ← h.account.mem_iff, mem_append]
    constructor
    · intro hb
      exact ⟨Or.inl hb, hdisj hb⟩
    · rintro ⟨hb | hb, hnb⟩
      · exact hb
      · exact absurd hb hnb

/-- **THE SLAB ALLOCATOR** returns blocks that are not allocated, or `NULL` when there is none,
    and reports their numbers of bytes. -/
theorem slab_correct {argsChecks : Bool} {size : BitVec 16} {n : BitVec 8}
    (g : Geometry buffer size.toNat n.toNat)
    (h : Reach (Initial argsChecks buffer size n) (fun s (c : Call) => c.Allowed s) Call.run s) :
    SlabCorrect buffer size.toNat n.toNat s := by
  have hinv : ∃ free, Inv buffer size.toNat n.toNat s free :=
    Reach.invariant (P := fun s => ∃ free, Inv buffer size.toNat n.toNat s free) h
      (fun _ h0 => h0.inv g) fun _ c ⟨_, ih⟩ hc => ih.step g c hc
  obtain ⟨free, hinv⟩ := hinv
  exact hinv.correct g n.isLt

def threeBlocks : SlabState where
  ram := (slabInit true (fun _ => 0) ⟨0, 0, 0, none⟩ 256 4 3).1
  slab := (slabInit true (fun _ => 0) ⟨0, 0, 0, none⟩ 256 4 3).2.1
  allocated := []

def oneAllocated : SlabState :=
  [Call.alloc, .alloc, .write 260 0 7, .write 260 1 7, .free 264].foldl Call.run threeBlocks

theorem slab_correct_oneAllocated :
    Geometry 256 4 3 ∧ SlabCorrect 256 4 3 oneAllocated ∧ oneAllocated.allocated = [260] ∧
      oneAllocated.slab.freeList = some 264 := by
  have hgeometry : Geometry 256 4 3 := ⟨by decide, by decide, by decide⟩
  have hreach : Reach (Initial true 256 4 3) (fun s (c : Call) => c.Allowed s) Call.run
      oneAllocated :=
    Reach.foldl (.start ⟨rfl, _, _, rfl⟩) (by decide)
  exact ⟨hgeometry, slab_correct hgeometry hreach, by decide, by decide⟩

end AvrtosSlab
