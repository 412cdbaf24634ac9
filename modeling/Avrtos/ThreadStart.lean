import Avrtos.ContextSwitch
import Avrtos.Defines

/-! # How threads start (`kernel.c`, `defines.h`, `thread_switch_preempt.S`)

    The stack that `k_thread_create` writes is the one a switch pops. -/

namespace AvrtosThreadStart

open List Avr Avr.Machine AvrtosDefines
open AvrtosContextSwitch (restoreContext restoreContext_spec)

abbrev Memory := Addr → Byte

structure StartConfig where
  /-- `__AVR_3_BYTE_PC__` -/
  wide : Bool
  /-- `CONFIG_THREAD_DEFAULT_SREG` -/
  defaultSreg : Byte
  /-- `CONFIG_KERNEL_THREAD_TERMINATION_TYPE` -/
  terminationType : Int
  /-- `CONFIG_KERNEL_ARGS_CHECKS` -/
  argsChecks : Bool
  /-- `CONFIG_THREAD_CANARIES` -/
  canaries : Bool
  /-- `CONFIG_THREAD_CANARIES_SYMBOL` -/
  canariesSymbol : Byte
  /-- `CONFIG_THREAD_STACK_SENTINEL` -/
  sentinel : Bool
  /-- `CONFIG_THREAD_STACK_SENTINEL_SIZE` -/
  sentinelSize : Nat
  /-- `CONFIG_THREAD_STACK_SENTINEL_SYMBOL` -/
  sentinelSymbol : Byte

/-- `Z_ARCH_PC_SIZE`. -/
def StartConfig.pcSize (cfg : StartConfig) : Nat := if cfg.wide then 3 else 2

/-- `Z_CALLSAVED_CTX_SIZE`. -/
def StartConfig.ctxSize (cfg : StartConfig) : Nat := 19 + cfg.pcSize

structure KThread where
  sp : Addr
  stackEnd : Addr
  stackSize : Nat
  flags : Byte
  symbol : Byte

def sregAt : Nat := 0
def regsAt : Nat := 1
def initSregAt : Nat := 14
def threadEntryAt : Nat := 15
def threadContextAt : Nat := 17
def pchAt : Nat := 19
def pcAt (cfg : StartConfig) : Nat := if cfg.wide then 20 else 19

/-- A byte of a structure. -/
def load (mem : Memory) (p : Addr) (offset : Nat) : Byte := mem (p + BitVec.ofNat 16 offset)

def store (mem : Memory) (p : Addr) (offset : Nat) (v : Byte) : Memory :=
  Function.update mem (p + BitVec.ofNat 16 offset) v

/-- Pointers lie low byte first. -/
def loadWord (mem : Memory) (p : Addr) (offset : Nat) : Addr :=
  join (load mem p (offset + 1)) (load mem p offset)

def storeWord (mem : Memory) (p : Addr) (offset : Nat) (v : Addr) : Memory :=
  store (store mem p offset (lo v)) p (offset + 1) (hi v)

/-- `K_SWAP_ENDIANNESS`, and `HTONS`. -/
def swapEndianness (n : Addr) : Addr := ((n &&& 0xFF) <<< 8) ||| ((n &&& 0xFF00) >>> 8)

/-- A loop that fills `n` bytes. -/
def fill (mem : Memory) (p : Addr) (n : Nat) (v : Byte) : Memory :=
  (range n).foldl (fun mem i => store mem p i v) mem

/-- `K_STACK_START`. -/
def stackStart (th : KThread) : Addr := th.stackEnd - BitVec.ofNat 16 th.stackSize + 1#16

/-- `Z_THREAD_STACK_START_USABLE`. -/
def stackStartUsable (cfg : StartConfig) (th : KThread) : Addr :=
  if cfg.sentinel then stackStart th + BitVec.ofNat 16 cfg.sentinelSize else stackStart th

/-- `z_init_thread_stack_canaries`. -/
def zInitThreadStackCanaries (cfg : StartConfig) (mem : Memory) (th : KThread) : Memory :=
  let start := stackStartUsable cfg th
  let last := th.stackEnd - BitVec.ofNat 16 cfg.ctxSize
  fill mem start (last.toNat + 1 - start.toNat) cfg.canariesSymbol

/-- `z_init_thread_stack_sentinel`. -/
def zInitThreadStackSentinel (cfg : StartConfig) (mem : Memory) (th : KThread) : Memory :=
  fill mem (stackStart th) cfg.sentinelSize cfg.sentinelSymbol

/-- `z_thread_stack_create`. -/
def zThreadStackCreate (cfg : StartConfig) (zThreadEntry : Addr) (mem : Memory)
    (stackEnd entry contextP : Addr) : Memory × Addr :=
  let ctx := stackEnd - BitVec.ofNat 16 cfg.ctxSize + 1#16
  let mem := (range 13).foldl (fun mem i => store mem ctx (regsAt + i) 0x00) mem
  let mem := store mem ctx sregAt 0
  let mem := store mem ctx initSregAt cfg.defaultSreg
  let mem := storeWord mem ctx threadContextAt (swapEndianness contextP)
  let mem := storeWord mem ctx threadEntryAt (swapEndianness entry)
  let mem := storeWord mem ctx (pcAt cfg) (swapEndianness zThreadEntry)
  let mem := if cfg.wide then store mem ctx pchAt 0 else mem
  (mem, ctx - 1#16)

/-- `Z_THREAD_PRIO_MSK`. -/
def Z_THREAD_PRIO_MSK : Byte := 0x18

/-- `k_thread_create`. -/
def kThreadCreate (cfg : StartConfig) (zThreadEntry : Addr) (mem : Memory) (entry stack : Addr)
    (stackSize : Nat) (prio : Byte) (contextP : Addr) (symbol : Byte) (th : KThread) :
    Option (KThread × Memory) :=
  if !zUser cfg.argsChecks
      (entry ≠ 0 ∧ stack ≠ 0 ∧ stackSize ≥ cfg.ctxSize + cfg.sentinelSize) then none
  else
    let th := { th with stackEnd := stack + BitVec.ofNat 16 (stackSize - 1), stackSize }
    let mem := if cfg.canaries then zInitThreadStackCanaries cfg mem th else mem
    let mem := if cfg.sentinel then zInitThreadStackSentinel cfg mem th else mem
    let r := zThreadStackCreate cfg zThreadEntry mem th.stackEnd entry contextP
    -- `Z_THREAD_STATE_STOPPED` is 0
    some ({ th with sp := r.2, flags := prio &&& Z_THREAD_PRIO_MSK, symbol }, r.1)

def word (a : Addr) : List Byte := [lo a, hi a]

/-- `Z_CORE_CONTEXT_INIT`. -/
def coreContextInit (cfg : StartConfig) (entry ctx zThreadEntry : Addr) : List Byte :=
  0x00 :: replicate 13 0 ++ [cfg.defaultSreg] ++ word entry ++ word ctx ++
    (if cfg.wide then [0x00] else []) ++ word zThreadEntry

/-- `Z_STACK_INITIALIZER`. -/
def stackInitializer (cfg : StartConfig) (stackSize : Nat) (entry ctx zThreadEntry : Addr) :
    List Byte :=
  replicate (stackSize - cfg.ctxSize) 0x00 ++ coreContextInit cfg entry ctx zThreadEntry

/-- `Z_THREAD_INITIALIZER` for a stack that the linker puts at `stack`. -/
def threadInitializer (cfg : StartConfig) (stack : Addr) (stackSize : Nat) (flags symbol : Byte) :
    KThread :=
  let stackEnd := stack + BitVec.ofNat 16 (stackSize - 1)
  ⟨stackEnd - BitVec.ofNat 16 cfg.ctxSize, stackEnd, stackSize, flags, symbol⟩

/-- `swap_endianness` on a field. -/
def swapField (mem : Memory) (ctx : Addr) (offset : Nat) : Memory :=
  storeWord mem ctx offset (swapEndianness (loadWord mem ctx offset))

/-- `z_thread_finalize_stack_init`. -/
def zThreadFinalizeStackInit (cfg : StartConfig) (mem : Memory) (th : KThread) : Memory :=
  let ctx := th.stackEnd - BitVec.ofNat 16 (cfg.ctxSize - 1)
  let mem := swapField mem ctx threadContextAt
  let mem := swapField mem ctx threadEntryAt
  let mem := swapField mem ctx (pcAt cfg)
  if cfg.wide then store mem ctx pchAt 0 else mem

/-- `z_thread_entry` up to the entry function. -/
def zThreadEntryCode {w : Nat} (terminationType : Int) (next : Fin (256 ^ w)) (m : Machine w) :
    Machine w :=
  let m := m |> movw 24 2 |> movw 30 4 |> sts SREG 6
  if terminationType = 0 then ijmp m else icall next m

def dispatch (cfg : StartConfig) (zThreadEntry : Addr) (next : Fin (256 ^ cfg.pcSize))
    (m : Machine cfg.pcSize) : Machine cfg.pcSize :=
  let m := restoreContext m
  if (m.pc : Nat) = zThreadEntry.toNat then zThreadEntryCode cfg.terminationType next m else m

theorem swapEndianness_eq_join (n : Addr) : swapEndianness n = join (lo n) (hi n) := by
  have hn := n.isLt
  have hlow : ((n &&& 0xFF) <<< 8).toNat = 2 ^ 8 * (n.toNat % 256) := by
    rw [BitVec.toNat_shiftLeft, BitVec.toNat_and]
    show (n.toNat &&& (2 ^ 8 - 1)) <<< 8 % 2 ^ 16 = _
    rw [Nat.and_two_pow_sub_one_eq_mod, Nat.shiftLeft_eq]
    omega
  have hhigh : ((n &&& 0xFF00) >>> 8).toNat = n.toNat / 256 := by
    rw [BitVec.ushiftRight_and_distrib, BitVec.toNat_and, BitVec.toNat_ushiftRight,
      Nat.shiftRight_eq_div_pow]
    show n.toNat / 2 ^ 8 &&& (2 ^ 8 - 1) = _
    rw [Nat.and_two_pow_sub_one_eq_mod]
    omega
  refine BitVec.eq_of_toNat_eq ?_
  rw [swapEndianness, BitVec.toNat_or, hlow, hhigh, ← Nat.two_pow_add_eq_or_of_lt (by omega),
    toNat_join, lo, hi, BitVec.toNat_ofNat, BitVec.toNat_ofNat]
  omega

theorem lo_swapEndianness (n : Addr) : lo (swapEndianness n) = hi n := by
  rw [swapEndianness_eq_join, lo_join]

theorem hi_swapEndianness (n : Addr) : hi (swapEndianness n) = lo n := by
  rw [swapEndianness_eq_join, hi_join]

variable {mem : Memory} {p : Addr} {i offset : Nat} {v : Byte}

theorem load_store (hi : i < 2 ^ 16) (ho : offset < 2 ^ 16) :
    load (store mem p offset v) p i = if i = offset then v else load mem p i := by
  have hiff : p + BitVec.ofNat 16 i = p + BitVec.ofNat 16 offset ↔ i = offset := by
    refine ⟨fun h => ?_, fun h => h ▸ rfl⟩
    have hnat := congrArg BitVec.toNat ((BitVec.add_right_inj p).mp h)
    rwa [BitVec.toNat_ofNat, BitVec.toNat_ofNat, Nat.mod_eq_of_lt hi, Nat.mod_eq_of_lt ho] at hnat
  rw [load, store, Function.update_apply]
  by_cases h : i = offset
  · rw [if_pos (hiff.mpr h), if_pos h]
  · rw [if_neg (fun hc => h (hiff.mp hc)), if_neg h]
    rfl

theorem load_storeWord (hi : i < 2 ^ 16) (ho : offset + 1 < 2 ^ 16) (a : Addr) :
    load (storeWord mem p offset a) p i =
      if i = offset + 1 then Avr.hi a else if i = offset then lo a else load mem p i := by
  rw [storeWord, load_store hi ho, load_store hi (by omega)]

/-- The loop over the registers. -/
theorem load_foldl_store (hi : i < 2 ^ 16) {n : Nat} (hn : offset + n < 2 ^ 16) :
    load ((range n).foldl (fun mem j => store mem p (offset + j) v) mem) p i =
      if offset ≤ i ∧ i < offset + n then v else load mem p i := by
  induction n with
  | zero =>
    rw [if_neg (by omega)]
    rfl
  | succ n ih =>
    rw [range_succ, foldl_append, foldl_cons, foldl_nil,
      load_store hi (by omega), ih (by omega)]
    split_ifs <;> first | rfl | omega

/-- The bytes `bs` lie at `p`. -/
def Holds (mem : Memory) (p : Addr) (bs : List Byte) : Prop :=
  bs.length < 2 ^ 16 ∧ ∀ i < bs.length, load mem p i = bs.getD i 0

theorem Holds.store {l r : List Byte} {b : Byte} (h : Holds mem p (l ++ b :: r)) (v : Byte) :
    Holds (store mem p l.length v) p (l ++ v :: r) := by
  obtain ⟨hlen, h⟩ := h
  have hlength : (l ++ v :: r).length = (l ++ b :: r).length := by
    rw [length_append, length_append, length_cons, length_cons]
  refine ⟨hlength ▸ hlen, fun i hi => ?_⟩
  rw [hlength] at hi
  have hl : l.length < (l ++ b :: r).length := by
    rw [length_append, length_cons]
    omega
  rw [load_store (by omega) (by omega)]
  rcases Nat.lt_trichotomy i l.length with hlt | rfl | hgt
  · rw [if_neg (by omega), h i hi, getD_append _ _ _ _ hlt, getD_append _ _ _ _ hlt]
  · rw [if_pos rfl, getD_append_right _ _ _ _ (Nat.le_refl _), Nat.sub_self]
    rfl
  · obtain ⟨k, rfl⟩ : ∃ k, i = l.length + (k + 1) := ⟨i - l.length - 1, by omega⟩
    rw [if_neg (by omega), h _ hi, getD_append_right _ _ _ _ (by omega),
      getD_append_right _ _ _ _ (by omega), Nat.add_sub_cancel_left]
    rfl

theorem Holds.swapField {l r : List Byte} {b c : Byte} (h : Holds mem p (l ++ b :: c :: r))
    (hl : l.length = offset) : Holds (swapField mem p offset) p (l ++ c :: b :: r) := by
  subst hl
  have hlen : (l ++ b :: c :: r).length = l.length + (r.length + 2) := length_append
  have hfirst : load mem p l.length = b := by
    rw [h.2 _ (by omega), getD_append_right _ _ _ _ (Nat.le_refl _), Nat.sub_self]
    rfl
  have hsecond : load mem p (l.length + 1) = c := by
    rw [h.2 _ (by omega), getD_append_right _ _ _ _ (by omega), Nat.add_sub_cancel_left]
    rfl
  have hstore := h.store c
  rw [append_cons] at hstore
  have hboth := hstore.store b
  rw [← append_cons, length_append] at hboth
  rw [AvrtosThreadStart.swapField, storeWord, lo_swapEndianness, hi_swapEndianness, loadWord,
    hfirst, hsecond, lo_join, hi_join]
  exact hboth

theorem Holds.stacked {sp : Addr} {bs : List Byte} (h : Holds mem (sp + 1#16) bs) :
    Stacked mem sp bs := by
  induction bs generalizing sp with
  | nil => exact stacked_nil
  | cons b bs ih =>
    obtain ⟨hlen, h⟩ := h
    rw [length_cons] at hlen h
    refine stacked_cons.mpr ⟨?_, ih ⟨by omega, fun i hi => ?_⟩⟩
    · exact (congrArg mem (BitVec.add_zero _)).symm.trans (h 0 (Nat.succ_pos _))
    · rw [← getD_cons_succ, ← h (i + 1) (Nat.succ_lt_succ hi), load, load,
        Nat.add_comm i 1, BitVec.ofNat_add, BitVec.add_assoc _ 1#16]

def startReg (cfg : StartConfig) (entry contextP : Addr) (r : Reg) : Byte :=
  if r = 2 then lo contextP
  else if r = 3 then hi contextP
  else if r = 4 then lo entry
  else if r = 5 then hi entry
  else if r = 6 then cfg.defaultSreg
  else 0

def returnBytes (cfg : StartConfig) (a : Addr) : List Byte :=
  (if cfg.wide then [0] else []) ++ [hi a, lo a]

def startContext (cfg : StartConfig) (zThreadEntry entry contextP : Addr) : List Byte :=
  0 :: (callSaved.reverse.map (startReg cfg entry contextP) ++ returnBytes cfg zThreadEntry)

variable {cfg : StartConfig} {zThreadEntry entry contextP stackEnd : Addr}

theorem startContext_eq : startContext cfg zThreadEntry entry contextP =
    replicate 14 0 ++ [cfg.defaultSreg, hi entry, lo entry, hi contextP, lo contextP] ++
      returnBytes cfg zThreadEntry := rfl

theorem length_startContext :
    (startContext cfg zThreadEntry entry contextP).length = cfg.ctxSize := by
  rw [startContext, returnBytes, StartConfig.ctxSize, StartConfig.pcSize]
  cases cfg.wide <;> rfl

theorem holds_zThreadStackCreate :
    Holds (zThreadStackCreate cfg zThreadEntry mem stackEnd entry contextP).1
      (stackEnd - BitVec.ofNat 16 cfg.ctxSize + 1#16)
      (startContext cfg zThreadEntry entry contextP) := by
  unfold zThreadStackCreate
  generalize stackEnd - BitVec.ofNat 16 cfg.ctxSize + 1#16 = ctx
  rw [startContext_eq, returnBytes]
  cases hwide : cfg.wide with
  | false =>
    refine ⟨Nat.le_of_ble_eq_true rfl, fun i hi => ?_⟩
    have hi' : i < 21 := hi
    simp only [pcAt, hwide, Bool.false_eq_true, if_false]
    rw [load_storeWord (by omega) (by decide), load_storeWord (by omega) (by decide),
      load_storeWord (by omega) (by decide), load_store (by omega) (by decide),
      load_store (by omega) (by decide), load_foldl_store (by omega) (by decide)]
    simp only [lo_swapEndianness, hi_swapEndianness]
    interval_cases i <;> rfl
  | true =>
    refine ⟨Nat.le_of_ble_eq_true rfl, fun i hi => ?_⟩
    have hi' : i < 22 := hi
    simp only [pcAt, hwide, if_true]
    rw [load_store (by omega) (by decide), load_storeWord (by omega) (by decide),
      load_storeWord (by omega) (by decide), load_storeWord (by omega) (by decide),
      load_store (by omega) (by decide), load_store (by omega) (by decide),
      load_foldl_store (by omega) (by decide)]
    simp only [lo_swapEndianness, hi_swapEndianness]
    interval_cases i <;> rfl

theorem holds_zThreadFinalizeStackInit {th : KThread}
    (h : Holds mem (th.stackEnd - BitVec.ofNat 16 (cfg.ctxSize - 1))
      (coreContextInit cfg entry contextP zThreadEntry)) :
    Holds (zThreadFinalizeStackInit cfg mem th) (th.stackEnd - BitVec.ofNat 16 (cfg.ctxSize - 1))
      (startContext cfg zThreadEntry entry contextP) := by
  unfold zThreadFinalizeStackInit
  generalize th.stackEnd - BitVec.ofNat 16 (cfg.ctxSize - 1) = ctx at h
  rw [startContext_eq, returnBytes]
  rw [coreContextInit] at h
  -- each field is turned round where it lies between the others
  let front : List Byte := replicate 14 0 ++ [cfg.defaultSreg]
  cases hwide : cfg.wide with
  | false =>
    rw [hwide] at h
    have h0 : Holds mem ctx (front ++ [lo entry, hi entry] ++
        lo contextP :: hi contextP :: [lo zThreadEntry, hi zThreadEntry]) := h
    have h1 : Holds _ ctx (front ++ lo entry :: hi entry ::
        [hi contextP, lo contextP, lo zThreadEntry, hi zThreadEntry]) := h0.swapField rfl
    have h2 : Holds _ ctx (front ++ [hi entry, lo entry, hi contextP, lo contextP] ++
        lo zThreadEntry :: hi zThreadEntry :: []) := h1.swapField rfl
    simp only [pcAt, hwide, Bool.false_eq_true, if_false]
    exact h2.swapField rfl
  | true =>
    rw [hwide] at h
    have h0 : Holds mem ctx (front ++ [lo entry, hi entry] ++
        lo contextP :: hi contextP :: [0, lo zThreadEntry, hi zThreadEntry]) := h
    have h1 : Holds _ ctx (front ++ lo entry :: hi entry ::
        [hi contextP, lo contextP, 0, lo zThreadEntry, hi zThreadEntry]) := h0.swapField rfl
    have h2 : Holds _ ctx (front ++ [hi entry, lo entry, hi contextP, lo contextP, 0] ++
        lo zThreadEntry :: hi zThreadEntry :: []) := h1.swapField rfl
    have h3 : Holds _ ctx (front ++ [hi entry, lo entry, hi contextP, lo contextP] ++
        0 :: [hi zThreadEntry, lo zThreadEntry]) := h2.swapField rfl
    simp only [pcAt, hwide, if_true]
    exact h3.store 0

theorem Holds.append_right {l r : List Byte} (h : Holds mem p (l ++ r)) :
    Holds mem (p + BitVec.ofNat 16 l.length) r := by
  obtain ⟨hlen, h⟩ := h
  rw [length_append] at hlen h
  refine ⟨by omega, fun i hi => ?_⟩
  have hload := h (l.length + i) (by omega)
  rw [getD_append_right _ _ _ _ (by omega), Nat.add_sub_cancel_left] at hload
  rw [← hload, load, load, BitVec.ofNat_add, BitVec.add_assoc]

structure IsStack (cfg : StartConfig) (stack : Addr) (size : Nat) : Prop where
  size_le : cfg.ctxSize ≤ size
  pos : 0 < stack.toNat
  fits : stack.toNat + size ≤ 2 ^ 16

def Inside (cfg : StartConfig) (stack : Addr) (size : Nat) (th : KThread) : Prop :=
  stack.toNat ≤ th.sp.toNat + 1 ∧ th.sp.toNat + cfg.ctxSize = th.stackEnd.toNat ∧
    th.stackEnd.toNat + 1 = stack.toNat + size

variable {stack : Addr} {size : Nat} {th : KThread}

theorem IsStack.inside (h : IsStack cfg stack size)
    (hend : th.stackEnd = stack + BitVec.ofNat 16 (size - 1))
    (hsp : th.sp = th.stackEnd - BitVec.ofNat 16 cfg.ctxSize) : Inside cfg stack size th := by
  obtain ⟨hsize, hpos, hfits⟩ := h
  have hctx : 0 < cfg.ctxSize := Nat.add_pos_left (by decide) _
  have hend' : th.stackEnd.toNat = stack.toNat + (size - 1) := by
    rw [hend, toNat_add_ofNat (by omega)]
  have hsp' : th.sp.toNat = th.stackEnd.toNat - cfg.ctxSize := by
    rw [hsp, BitVec.toNat_sub_of_le, BitVec.toNat_ofNat, Nat.mod_eq_of_lt (by omega)]
    rw [BitVec.le_def, BitVec.toNat_ofNat, Nat.mod_eq_of_lt (by omega)]
    omega
  refine ⟨?_, ?_, ?_⟩ <;> omega

theorem returnBytes_eq (a : Addr) (ha : a.toNat < 256 ^ cfg.pcSize) :
    returnBytes cfg a = pcStack ⟨a.toNat, ha⟩ := by
  have hlt := a.isLt
  show returnBytes cfg a = (pcBytes cfg.pcSize a.toNat).reverse
  rw [returnBytes]
  cases hwide : cfg.wide with
  | false =>
    rw [StartConfig.pcSize, hwide]
    rfl
  | true =>
    have hzero : BitVec.ofNat 8 (a.toNat / 256 / 256) = 0 := by
      rw [Nat.div_div_eq_div_mul, Nat.div_eq_of_lt hlt]
      rfl
    rw [StartConfig.pcSize, hwide]
    show _ = [BitVec.ofNat 8 (a.toNat / 256 / 256), hi a, lo a]
    rw [hzero]
    rfl

theorem toNat_lt_pow (cfg : StartConfig) (a : Addr) : a.toNat < 256 ^ cfg.pcSize := by
  have hlt := a.isLt
  rw [StartConfig.pcSize]
  split <;> omega

theorem zThreadEntryCode_spec (terminationType : Int) (next : Fin (256 ^ cfg.pcSize))
    {m : Machine cfg.pcSize} (hregs : ∀ r ∈ callSaved, m.reg r = startReg cfg entry contextP r) :
    let m' := zThreadEntryCode terminationType next m
    (m'.pc : Nat) = entry.toNat ∧ m'.word 24 = contextP ∧ m'.sreg = cfg.defaultSreg ∧
      (terminationType = 0 → m'.sp = m.sp) := by
  have harg : m.word 2 = contextP := by
    rw [Machine.word, hregs 2 (by decide), hregs (2 + 1#5) (by decide)]
    exact join_hi_lo contextP
  have hentry : (m.setWord 24 contextP).word 4 = entry := by
    rw [word_setWord_of_ne (by decide) (by decide) (by decide) (by decide), Machine.word,
      hregs 4 (by decide), hregs (4 + 1#5) (by decide)]
    exact join_hi_lo entry
  have hsreg : ((m.setWord 24 contextP).setWord 30 entry).reg 6 = cfg.defaultSreg := by
    rw [setWord_of_ne (by decide) (by decide), setWord_of_ne (by decide) (by decide)]
    exact hregs 6 (by decide)
  -- the machine before the jump
  obtain ⟨m₁, hm₁, h30, h24, hsreg₁, hsp⟩ : ∃ m₁, (m |> movw 24 2 |> movw 30 4 |> sts SREG 6) = m₁ ∧
      m₁.word 30 = entry ∧ m₁.word 24 = contextP ∧ m₁.sreg = cfg.defaultSreg ∧ m₁.sp = m.sp := by
    refine ⟨{ (m.setWord 24 contextP).setWord 30 entry with sreg := cfg.defaultSreg }, ?_, ?_⟩
    · simp only [movw, harg, hentry, sts, write_SREG, hsreg]
    · have hother : ((m.setWord 24 contextP).setWord 30 entry).word 24 =
          (m.setWord 24 contextP).word 24 :=
        word_setWord_of_ne (by decide) (by decide) (by decide) (by decide) _ entry
      exact ⟨word_setWord (m.setWord 24 contextP) 30 entry,
        hother.trans (word_setWord m 24 contextP), rfl, rfl⟩
  have hpc : entry.toNat % 256 ^ cfg.pcSize = entry.toNat :=
    Nat.mod_eq_of_lt (toNat_lt_pow cfg entry)
  simp only [zThreadEntryCode]
  rw [hm₁]
  by_cases hjump : terminationType = 0
  · rw [if_pos hjump]
    refine ⟨?_, h24, hsreg₁, fun _ => hsp⟩
    exact (congrArg (fun a : Addr => a.toNat % 256 ^ cfg.pcSize) h30).trans hpc
  · rw [if_neg hjump]
    have hreg : (m₁.pushPc next).reg = m₁.reg := pushBytes_reg
    have hword : ∀ r, (m₁.pushPc next).word r = m₁.word r := by
      intro r
      rw [Machine.word, hreg, Machine.word]
    refine ⟨?_, (hword 24).trans h24, pushBytes_sreg.trans hsreg₁, fun h => (hjump h).elim⟩
    exact (congrArg (fun a : Addr => a.toNat % 256 ^ cfg.pcSize) ((hword 30).trans h30)).trans hpc

theorem dispatch_spec (next : Fin (256 ^ cfg.pcSize)) {m : Machine cfg.pcSize} {sp : Addr}
    (hram : IsRam (m.word 30)) (hram' : IsRam (m.word 30 + 1#16))
    (hsp : join (m.mem (m.word 30 + 1#16)) (m.mem (m.word 30)) = sp)
    (h : Stacked m.mem sp (startContext cfg zThreadEntry entry contextP)) :
    let m' := dispatch cfg zThreadEntry next m
    (m'.pc : Nat) = entry.toNat ∧ m'.word 24 = contextP ∧ m'.sreg = cfg.defaultSreg ∧
      (cfg.terminationType = 0 → m'.sp = sp + BitVec.ofNat 16 cfg.ctxSize) := by
  subst hsp
  obtain ⟨m₁, hm₁, -, -, hregs, hrest, hsp₁⟩ := restoreContext_spec hram hram' h
  rw [returnBytes_eq zThreadEntry (toNat_lt_pow cfg zThreadEntry)] at hrest
  have hrest' : Stacked m₁.mem m₁.sp
      (pcStack ⟨zThreadEntry.toNat, toNat_lt_pow cfg zThreadEntry⟩ ++ []) := by
    rwa [append_nil]
  have hsp₂ : m₁.ret.sp = join (m.mem (m.word 30 + 1#16)) (m.mem (m.word 30)) +
      BitVec.ofNat 16 cfg.ctxSize := by
    show m₁.sp + BitVec.ofNat 16 cfg.pcSize = _
    rw [hsp₁, StartConfig.ctxSize, BitVec.ofNat_add, BitVec.add_assoc]
  have hentry := zThreadEntryCode_spec cfg.terminationType next (m := m₁.ret) hregs
  simp only [dispatch, hm₁]
  rw [if_pos (congrArg Fin.val (ret_pc hrest')), ← hsp₂]
  exact hentry

def Starts (cfg : StartConfig) (zThreadEntry entry contextP : Addr) (th : KThread)
    (mem : Memory) : Prop :=
  ∀ (next : Fin (256 ^ cfg.pcSize)) (m : Machine cfg.pcSize),
    IsRam (m.word 30) → IsRam (m.word 30 + 1#16) →
    join (m.mem (m.word 30 + 1#16)) (m.mem (m.word 30)) = th.sp →
    (∀ a : Addr, th.sp.toNat < a.toNat → a.toNat ≤ th.stackEnd.toNat → m.mem a = mem a) →
    let m' := dispatch cfg zThreadEntry next m
    (m'.pc : Nat) = entry.toNat ∧ m'.word 24 = contextP ∧ m'.sreg = cfg.defaultSreg ∧
      (cfg.terminationType = 0 → m'.sp = th.stackEnd)

theorem Inside.starts (hin : Inside cfg stack size th)
    (h : Stacked mem th.sp (startContext cfg zThreadEntry entry contextP)) :
    Starts cfg zThreadEntry entry contextP th mem := by
  intro next m hram hram' hsp hmem
  have hend := th.stackEnd.isLt
  have hlen : (startContext cfg zThreadEntry entry contextP).length = cfg.ctxSize :=
    length_startContext
  have hstacked : Stacked m.mem th.sp (startContext cfg zThreadEntry entry contextP) := by
    refine h.congr ?_ ?_
    · rw [hlen, hin.2.1]
      exact hend
    · rw [hlen, hin.2.1]
      exact hmem
  rw [← add_ofNat_eq hin.2.1]
  exact dispatch_spec next hram hram' hsp hstacked

theorem stacked_threadInitializer (hstack : IsStack cfg stack size) (flags symbol : Byte)
    (himage : Holds mem stack (stackInitializer cfg size entry contextP zThreadEntry)) :
    let th := threadInitializer cfg stack size flags symbol
    Inside cfg stack size th ∧ Stacked (zThreadFinalizeStackInit cfg mem th) th.sp
        (startContext cfg zThreadEntry entry contextP) := by
  intro th
  refine ⟨hstack.inside rfl rfl, ?_⟩
  have hsize := hstack.size_le
  have hctx : 0 < cfg.ctxSize := Nat.add_pos_left (by decide) _
  have hcore := himage.append_right
  rw [length_replicate] at hcore
  have hplace : stack + BitVec.ofNat 16 (size - cfg.ctxSize) =
      th.stackEnd - BitVec.ofNat 16 (cfg.ctxSize - 1) := by
    have hsum : size - 1 = size - cfg.ctxSize + (cfg.ctxSize - 1) := by omega
    show _ = stack + BitVec.ofNat 16 (size - 1) - BitVec.ofNat 16 (cfg.ctxSize - 1)
    rw [hsum, BitVec.ofNat_add, ← BitVec.add_assoc, BitVec.add_sub_cancel]
  have hfirst : th.stackEnd - BitVec.ofNat 16 (cfg.ctxSize - 1) = th.sp + 1#16 := by
    have hsum : cfg.ctxSize = cfg.ctxSize - 1 + 1 := by omega
    show _ = th.stackEnd - BitVec.ofNat 16 cfg.ctxSize + 1#16
    rw [hsum, BitVec.ofNat_add, Nat.add_sub_cancel]
    bv_omega
  rw [hplace] at hcore
  have hfinal := holds_zThreadFinalizeStackInit hcore
  rw [hfirst] at hfinal
  exact hfinal.stacked

theorem stacked_kThreadCreate (hstack : IsStack cfg stack size) {prio symbol : Byte}
    {th₀ : KThread} {mem' : Memory}
    (hcreate : kThreadCreate cfg zThreadEntry mem entry stack size prio contextP symbol th₀ =
      some (th, mem')) :
    Inside cfg stack size th ∧
      Stacked mem' th.sp (startContext cfg zThreadEntry entry contextP) := by
  rw [kThreadCreate] at hcreate
  split at hcreate
  · exact (Option.some_ne_none _ hcreate.symm).elim
  · obtain ⟨rfl, rfl⟩ := Prod.mk.inj (Option.some.inj hcreate)
    have hsp : ∀ a : Addr, a + 1#16 - 1#16 = a := fun a => BitVec.add_sub_cancel a 1#16
    refine ⟨hstack.inside rfl (hsp _), ?_⟩
    refine Holds.stacked ?_
    show Holds _ (_ + 1#16 - 1#16 + 1#16) _
    rw [hsp]
    exact holds_zThreadStackCreate

def Accepted (cfg : StartConfig) (entry stack : Addr) (size : Nat) : Prop :=
  cfg.argsChecks = true → entry ≠ 0 ∧ stack ≠ 0 ∧ cfg.ctxSize + cfg.sentinelSize ≤ size

theorem kThreadCreate_isSome (hargs : Accepted cfg entry stack size)
    (zThreadEntry contextP : Addr) (mem : Memory) (prio symbol : Byte) (th₀ : KThread) :
    ∃ th mem', kThreadCreate cfg zThreadEntry mem entry stack size prio contextP symbol th₀ =
      some (th, mem') := by
  have hchecked : zUser cfg.argsChecks
      (entry ≠ 0 ∧ stack ≠ 0 ∧ size ≥ cfg.ctxSize + cfg.sentinelSize) = true := by
    rw [zUser]
    split
    case isTrue hchecks => exact decide_eq_true (hargs hchecks)
    case isFalse => rfl
  rw [kThreadCreate, hchecked]
  exact ⟨_, _, rfl⟩

/-- **STATIC AND DYNAMIC THREADS START ALIKE**: arguments that pass the checks make
    `k_thread_create` succeed, with the same saved context, byte for byte. -/
theorem thread_start (flags symbol : Byte) {stack' : Addr} {size' : Nat}
    {memS memD : Memory} {th₀ : KThread} {prio symbol' : Byte}
    (hstack : IsStack cfg stack size) (hstack' : IsStack cfg stack' size')
    (himage : Holds memS stack (stackInitializer cfg size entry contextP zThreadEntry))
    (hargs : Accepted cfg entry stack' size') :
    let thS := threadInitializer cfg stack size flags symbol
    let mem := zThreadFinalizeStackInit cfg memS thS
    ∃ thD mem', kThreadCreate cfg zThreadEntry memD entry stack' size' prio contextP symbol' th₀ =
        some (thD, mem') ∧
      topBytes mem thS.sp cfg.ctxSize = topBytes mem' thD.sp cfg.ctxSize ∧
      (stack = stack' → size = size' → thS.sp = thD.sp) ∧
      Inside cfg stack size thS ∧ Inside cfg stack' size' thD ∧
      Starts cfg zThreadEntry entry contextP thS mem ∧
      Starts cfg zThreadEntry entry contextP thD mem' := by
  intro thS mem
  obtain ⟨thD, mem', hcreate⟩ :=
    kThreadCreate_isSome hargs zThreadEntry contextP memD prio symbol' th₀
  obtain ⟨hinS, hS⟩ := stacked_threadInitializer hstack flags symbol himage
  obtain ⟨hinD, hD⟩ := stacked_kThreadCreate hstack' hcreate
  refine ⟨thD, mem', hcreate, ?_, ?_, hinS, hinD, hinS.starts hS, hinD.starts hD⟩
  · rw [Stacked, length_startContext] at hS hD
    exact hS.trans hD.symm
  · rintro rfl rfl
    refine BitVec.eq_of_toNat_eq ?_
    obtain ⟨-, hspS, hendS⟩ : Inside cfg stack size thS := hinS
    obtain ⟨-, hspD, hendD⟩ := hinD
    omega

def wideConfig : StartConfig := ⟨true, 0x80, 0, true, false, 0xAA, false, 1, 0x55⟩

def staticMemory : Memory :=
  fun a => (stackInitializer wideConfig 30 0x1234 0x0456 0x0ABC).getD (a.toNat - 0x200) 0

/-- The thread, and one with the same stack that is created over a memory full of 0xFF. -/
theorem thread_start_wide :
    let thS := threadInitializer wideConfig 0x200 30 1 65
    let r := kThreadCreate wideConfig 0x0ABC (fun _ => 0xFF) 0x1234 0x200 30 0 0x0456 66
      ⟨0, 0, 0, 0, 0⟩
    ∃ thD mem', r = some (thD, mem') ∧
      topBytes (zThreadFinalizeStackInit wideConfig staticMemory thS) thS.sp wideConfig.ctxSize =
        topBytes mem' thD.sp wideConfig.ctxSize ∧ thS.sp = thD.sp := by
  have hstack : IsStack wideConfig 0x200 30 := ⟨by decide, by decide, by decide⟩
  have himage : Holds staticMemory 0x200
      (stackInitializer wideConfig 30 0x1234 0x0456 0x0ABC) := by
    refine ⟨by decide, ?_⟩
    decide
  have hargs : Accepted wideConfig 0x1234 0x200 30 :=
    fun _ => ⟨by decide, by decide, by decide⟩
  obtain ⟨thD, mem', hcreate, hbytes, hsp, -⟩ := thread_start 1 65 hstack hstack himage hargs
  exact ⟨thD, mem', hcreate, hbytes, hsp rfl rfl⟩

end AvrtosThreadStart
