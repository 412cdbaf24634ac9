import Avrtos.Base.Runs
import Avrtos.Base.SdCard
import Avrtos.SdInit

/-! # Blocks of an SD card

    Over an ideal card what was written is read back, within the block numbers that fit. -/

namespace AvrtosSd

open List hiding Vector
open AvrtosCrc AvrtosDefines Crc Runs SdCard SpiBus

theorem argument_be32 (c0 c5 : Byte) (arg : BitVec 32) :
    argument (c0 :: be32 arg ++ [c5]) = arg := by
  show (arg >>> 24).setWidth 8 ++ (arg >>> 16).setWidth 8 ++ (arg >>> 8).setWidth 8 ++
    arg.setWidth 8 = arg
  apply BitVec.eq_of_getLsbD_eq
  intro i hi
  simp only [BitVec.getLsbD_append, BitVec.getLsbD_setWidth, BitVec.getLsbD_ushiftRight]
  grind

theorem valid_sdCmdPrep (index : Byte) (arg : BitVec 32) : Valid (sdCmdPrep index arg) := by
  have hframe := remainder_frame ((0x40 ||| (index &&& 0x3F)) :: be32 arg)
  have hlen : (((0x40 ||| (index &&& 0x3F)) :: be32 arg).flatMap bits).length = 40 := by
    simp [be32, length_bits]
  rw [Valid, sdCmdPrep, flatMap_append, flatMap_singleton, take_append, hlen,
    take_of_length_le (by omega)]
  exact hframe

/-- The card answers in time. -/
structure Prompt (cfg : SdConfig) (t : Timing) : Prop where
  answer : t.answer < SD_R1_RESPONSE_RETRIES
  block : t.block < cfg.readTimeout.toNat
  response : t.response < cfg.readTimeout.toNat
  busy : t.busy < (cfg.writeTimeoutMs - 1).toNat

section Exchanges

variable {cfg : SdConfig} (timing : Nat → Timing)

theorem device_sdSendCmd_ideal (index : Byte) (arg : BitVec 32) (b : Bus Card) :
    (sdSendCmd (ideal timing) (sdCmdPrep index arg) (chipSelect (ideal timing) true b).2).2.device =
      execute (timing b.device.served) ⟨b.device.mem, .command [], [], b.device.served⟩
        (sdCmdPrep index arg) := by
  have hstart : ∀ index : Byte, (0x40 ||| (index &&& 0x3F)) >>> 6 = 1 := by decide +kernel
  rw [sdSendCmd, device_send (ideal timing) _ rfl]
  exact after_command timing b.device.mem b.device.served (hstart index) _ _ _ _ _

theorem sdReadR1_ideal {b : Bus Card} {rest : List Byte} {k : Nat} (hk : k < SD_R1_RESPONSE_RETRIES)
    (hmode : b.device.mode.Waits)
    (hout : b.device.out = replicate k 0xFF ++ [0x00] ++ rest) (hb : b.active = true) :
    (sdReadR1 (ideal timing) b).1 = 0 ∧ (sdReadR1 (ideal timing) b).2.device =
      ⟨b.device.mem, b.device.mode, rest, b.device.served⟩ := by
  obtain ⟨hres, hdevice⟩ := poll_answers hk (show (0x00 : Byte) ≠ 0xFF by decide)
    (answers_out timing hmode _ _ hout) hb
  exact ⟨congrArg (Option.getD · 0xFF) hres, hdevice⟩

theorem sdReadDataBlock_ideal {b : Bus Card} {data crc : List Byte} {k : Nat}
    (hk : k < cfg.readTimeout.toNat) (hmode : b.device.mode.Waits)
    (hout : b.device.out = replicate k 0xFF ++ [0xFE] ++ (data ++ crc))
    (hb : b.active = true) :
    (sdReadDataBlock (ideal timing) cfg data.length b).1 = (0, data) := by
  obtain ⟨hres, hdevice⟩ := poll_answers hk (show (0xFE : Byte) ≠ 0xFF by decide)
    (answers_out timing hmode _ _ hout) hb
  have hactive := active_poll (ideal timing) cfg.readTimeout.toNat b
  rw [hb] at hactive
  have hdata : Answers (ideal timing) (poll (ideal timing) cfg.readTimeout.toNat b).2.device data
      ⟨b.device.mem, b.device.mode, crc, b.device.served⟩ := by
    rw [hdevice]
    exact answers_out timing (c := ⟨_, _, data ++ crc, _⟩) hmode data crc rfl
  have hwait : sdWaitDataToken (ideal timing) cfg b =
      (0, (poll (ideal timing) cfg.readTimeout.toNat b).2) := by
    simp only [sdWaitDataToken, bind_apply, hres]
    rfl
  simp only [sdReadDataBlock, bind_apply, hwait, ite_apply_bus, pure_apply]
  rw [if_neg (not_not_intro rfl), (receive_answers hdata hactive).1]

theorem waitReadyLoop_answers {σ : Type} {d : Device σ} {k n : Nat} {b : Bus σ} {s' : σ}
    (hk : k < n) (h : Answers d b.device (replicate k 0x00 ++ [0xFF]) s')
    (hb : b.active = true) :
    (waitReadyLoop d n b).1 = 0 ∧ (waitReadyLoop d n b).2.device = s' := by
  induction k generalizing n b with
  | zero =>
    obtain ⟨n, rfl⟩ : ∃ m, n = m + 1 := ⟨n - 1, by omega⟩
    obtain ⟨hfirst, hrest⟩ := h
    rw [← hb] at hfirst hrest
    have hready : (transceive d 0xFF b).1 = 0xFF := hfirst
    rw [waitReadyLoop, bind_apply, hready, if_pos rfl]
    exact ⟨rfl, hrest⟩
  | succ k ih =>
    obtain ⟨n, rfl⟩ : ∃ m, n = m + 1 := ⟨n - 1, by omega⟩
    obtain ⟨hfirst, hrest⟩ := h
    rw [← hb] at hfirst hrest
    have hbusy : (transceive d 0xFF b).1 = 0x00 := hfirst
    rw [waitReadyLoop, bind_apply, hbusy, if_neg (by decide)]
    exact ih (b := (transceive d 0xFF b).2) (Nat.lt_of_succ_lt_succ hk) hrest hb

theorem sdWriteData_ideal {b : Bus Card} {mem : BitVec 32 → Byte} {addr : BitVec 32} {served : Nat}
    {data : List Byte} (hprompt : Prompt cfg (timing served)) (hdata : data.length = 512)
    (hdevice : b.device = ⟨mem, .token addr, [], served⟩) (hb : b.active = true) :
    (sdWriteData (ideal timing) cfg data b).1 = 0 ∧
      (sdWriteData (ideal timing) cfg data b).2.device.mem = write mem addr data := by
  obtain ⟨b₁, hb₁⟩ : ∃ b₁, b₁ = (send (ideal timing) (0xFE :: (data ++ [0xFF, 0xFF])) b).2 :=
    ⟨_, rfl⟩
  have hactive₁ : b₁.active = true := by
    rw [hb₁, active_send, hb]
  have hstored : b₁.device = ⟨write mem addr data, .command [],
      replicate (timing served).response 0xFF ++ [0x05] ++
        (replicate (timing served).busy 0x00 ++ [0xFF]), served + 1⟩ := by
    rw [hb₁, device_send (ideal timing) _ hb, hdevice]
    exact after_block timing mem served addr hdata 0xFF 0xFF
  have hwaits : b₁.device.mode.Waits := by
    rw [hstored]
    rfl
  obtain ⟨hres, hdevice₂⟩ := poll_answers hprompt.response (show (0x05 : Byte) ≠ 0xFF by decide)
    (answers_out timing hwaits _ _ (congrArg Card.out hstored)) hactive₁
  obtain ⟨b₂, hb₂⟩ : ∃ b₂, b₂ = (poll (ideal timing) cfg.readTimeout.toNat b₁).2 := ⟨_, rfl⟩
  rw [← hb₂] at hdevice₂
  have hactive₂ : b₂.active = true := by
    rw [hb₂, active_poll, hactive₁]
  have hready : Answers (ideal timing) b₂.device
      (replicate (timing served).busy 0x00 ++ [0xFF])
      ⟨b₁.device.mem, b₁.device.mode, [], b₁.device.served⟩ := by
    rw [hdevice₂]
    exact answers_out timing (c := ⟨_, _, _ ++ [0xFF], _⟩) hwaits _ [] (append_nil _).symm
  obtain ⟨hret, hdevice₃⟩ := waitReadyLoop_answers hprompt.busy hready hactive₂
  have hwrite : sdWriteData (ideal timing) cfg data b = sdWaitReady (ideal timing) cfg b₂ := by
    simp only [sdWriteData, bind_apply, ← hb₁, hres, ← hb₂]
    rfl
  rw [hwrite, sdWaitReady]
  refine ⟨hret, ?_⟩
  rw [hdevice₃, hstored]

end Exchanges

/-- The byte address of a block. -/
def byteAddr (block : BitVec 32) : BitVec 32 := block * BitVec.ofNat 32 SD_BLOCK_SIZE

def contents (mem : BitVec 32 → Byte) : BitVec 32 → List Byte :=
  fun block => read mem (byteAddr block) SD_BLOCK_SIZE

theorem getD_sdCmdPrep (index : Byte) (arg : BitVec 32) :
    (sdCmdPrep index arg).getD 0 0 = 0x40 ||| (index &&& 0x3F) := rfl

theorem execute_read (t : Timing) (c : Card) (arg : BitVec 32) : execute t c (sdCmdPrep 17 arg) =
      ⟨c.mem, .command [], replicate t.answer 0xFF ++ [0x00] ++
        (replicate t.block 0xFF ++ [0xFE] ++ (read c.mem arg 512 ++ [t.crc.1, t.crc.2])),
        c.served + 1⟩ := by
  have hindex : (sdCmdPrep 17 arg).getD 0 0 &&& 0x3F = 17 := by
    rw [getD_sdCmdPrep]
    decide
  have harg : argument (sdCmdPrep 17 arg) = arg := argument_be32 _ _ arg
  rw [execute, if_pos (valid_sdCmdPrep 17 arg), if_pos hindex, harg]

theorem execute_write (t : Timing) (c : Card) (arg : BitVec 32) : execute t c (sdCmdPrep 24 arg) =
      ⟨c.mem, .token arg, replicate t.answer 0xFF ++ [0x00], c.served⟩ := by
  have hindex : (sdCmdPrep 24 arg).getD 0 0 &&& 0x3F = 24 := by
    rw [getD_sdCmdPrep]
    decide
  have harg : argument (sdCmdPrep 24 arg) = arg := argument_be32 _ _ arg
  rw [execute, if_pos (valid_sdCmdPrep 24 arg), if_neg (by rw [hindex]; decide), if_pos hindex,
    harg]

section Operations

variable {cfg : SdConfig} (timing : Nat → Timing) {dev : SdDevice}

theorem sdTransaction_ideal {α : Type} {index : Byte} {arg : BitVec 32} {b : Bus Card}
    {mem : BitVec 32 → Byte} {mode : Mode} {rest : List Byte} {served : Nat} {k : Nat}
    (hk : k < SD_R1_RESPONSE_RETRIES) (hmode : mode.Waits)
    (hexecute : execute (timing b.device.served)
      ⟨b.device.mem, .command [], [], b.device.served⟩ (sdCmdPrep index arg) =
        ⟨mem, mode, replicate k 0xFF ++ [0x00] ++ rest, served⟩)
    (failed : α) (body : SpiBus.Action Card α) :
    ∃ b', b'.device = ⟨mem, mode, rest, served⟩ ∧ b'.active = true ∧
      (sdTransaction (ideal timing) (sdCmdPrep index arg) failed body b).1 = (body b').1 ∧
      (sdTransaction (ideal timing) (sdCmdPrep index arg) failed body b).2.device.mem =
        (body b').2.device.mem := by
  obtain ⟨b₁, hb₁⟩ : ∃ b₁, b₁ = (sdSendCmd (ideal timing) (sdCmdPrep index arg)
    (chipSelect (ideal timing) true b).2).2 := ⟨_, rfl⟩
  have hdevice₁ := device_sdSendCmd_ideal timing index arg b
  rw [hexecute, ← hb₁] at hdevice₁
  have hactive₁ : b₁.active = true := by
    rw [hb₁, sdSendCmd, active_send]
    rfl
  have hwaits : b₁.device.mode.Waits := by
    rw [hdevice₁]
    exact hmode
  obtain ⟨hres, hdevice⟩ := sdReadR1_ideal timing hk hwaits (congrArg Card.out hdevice₁) hactive₁
  rw [hdevice₁] at hdevice
  refine ⟨(sdReadR1 (ideal timing) b₁).2, hdevice, (active_sdReadR1 _ b₁).trans hactive₁, ?_⟩
  simp only [sdTransaction, bind_apply, ← hb₁, hres, ite_apply_bus, pure_apply]
  rw [if_neg (not_not_intro rfl)]
  exact ⟨rfl, rfl⟩

theorem sdReadBlock_ideal (hprompt : ∀ n, Prompt cfg (timing n)) (hargs : cfg.argsChecks = false)
    (block : BitVec 32) (b : Bus Card) :
    (sdReadBlock (ideal timing) cfg dev block b).1 = (0, contents b.device.mem block) := by
  have hguard : (!zUser cfg.argsChecks (dev.type = .unknown)) = false := by
    rw [hargs]
    rfl
  obtain ⟨b', hdevice, hactive, hret, -⟩ :=
    sdTransaction_ideal timing (hprompt b.device.served).answer
      (show (Mode.command []).Waits from rfl)
      (execute_read (timing b.device.served) _ (byteAddr block))
    (- AvrtosDefines.EIO, []) (sdReadDataBlock (ideal timing) cfg SD_BLOCK_SIZE)
  have hblock := sdReadDataBlock_ideal timing (hprompt b.device.served).block
    (show b'.device.mode.Waits by rw [hdevice]; rfl) (congrArg Card.out hdevice) hactive
  rw [length_read] at hblock
  rw [sdReadBlock, hguard, if_neg Bool.false_ne_true, ← byteAddr]
  exact hret.trans hblock

theorem sdWriteBlock_ideal (hprompt : ∀ n, Prompt cfg (timing n)) (hdev : dev.type = .sdscV1)
    (block : BitVec 32) {data : List Byte} (hdata : data.length = 512) (b : Bus Card) :
    (sdWriteBlock (ideal timing) cfg dev block data b).1 = 0 ∧
      (sdWriteBlock (ideal timing) cfg dev block data b).2.device.mem =
        write b.device.mem (byteAddr block) data := by
  have hguard : (!zUser cfg.argsChecks (dev.type ≠ .unknown)) = false := by
    rw [hdev]
    cases cfg.argsChecks <;> rfl
  obtain ⟨b', hdevice, hactive, hret, hmem⟩ := sdTransaction_ideal timing
    (hprompt b.device.served).answer
    (show (Mode.token (byteAddr block)).Waits from trivial)
    ((execute_write (timing b.device.served) _ (byteAddr block)).trans (by rw [append_nil]))
    (- AvrtosDefines.EIO) (sdWriteData (ideal timing) cfg data)
  obtain ⟨hdone, hstored⟩ := sdWriteData_ideal timing (hprompt _) hdata hdevice hactive
  rw [sdWriteBlock, hguard, if_neg Bool.false_ne_true, ← byteAddr]
  exact ⟨hret.trans hdone, hmem.trans hstored⟩

end Operations

theorem toNat_byteAddr (block : BitVec 32) :
    (byteAddr block).toNat = 512 * (block.toNat % 2 ^ 23) := by
  rw [byteAddr, BitVec.toNat_mul, BitVec.toNat_ofNat, SD_BLOCK_SIZE]
  omega

theorem contents_write (mem : BitVec 32 → Byte) (block block' : BitVec 32) {data : List Byte}
    (hdata : data.length = 512) :
    contents (write mem (byteAddr block) data) block' =
      if block.toNat % 2 ^ 23 = block'.toNat % 2 ^ 23 then data else contents mem block' := by
  have haddr := toNat_byteAddr block
  have haddr' := toNat_byteAddr block'
  by_cases h : block.toNat % 2 ^ 23 = block'.toNat % 2 ^ 23
  · have heq : byteAddr block = byteAddr block' := BitVec.eq_of_toNat_eq (by omega)
    have hself := read_write_self mem (byteAddr block') (show data.length < 2 ^ 32 by omega)
    rw [hdata] at hself
    rw [if_pos h, heq]
    exact hself
  · rw [if_neg h]
    refine read_write_of_disjoint mem fun i hi => ?_
    rw [SD_BLOCK_SIZE] at hi
    rw [hdata, BitVec.toNat_sub, BitVec.toNat_add, BitVec.toNat_ofNat]
    omega

structure BlockWrite where
  block : BitVec 32
  data : Vector Byte 512

def update (st : BitVec 32 → List Byte) (w : BlockWrite) : BitVec 32 → List Byte :=
  Function.update st w.block w.data.toList

section Store

variable (timing : Nat → Timing) (cfg : SdConfig) (dev : SdDevice)

def writeCall (b : Bus Card) (w : BlockWrite) : Bus Card :=
  (sdWriteBlock (ideal timing) cfg dev w.block w.data.toList b).2

def ReadsBack (b : Bus Card) (ws : List BlockWrite) (block : BitVec 32) : Prop :=
  (sdReadBlock (ideal timing) cfg dev block (ws.foldl (writeCall timing cfg dev) b)).1 =
    (0, ws.foldl update (contents b.device.mem) block)

variable {timing cfg dev}

theorem contents_writeCall (hprompt : ∀ n, Prompt cfg (timing n)) (hdev : dev.type = .sdscV1)
    (b : Bus Card) (w : BlockWrite) (block : BitVec 32) :
    contents (writeCall timing cfg dev b w).device.mem block =
      if w.block.toNat % 2 ^ 23 = block.toNat % 2 ^ 23 then w.data.toList
      else contents b.device.mem block := by
  have hdata : w.data.toList.length = 512 := Vector.length_toList
  rw [writeCall, (sdWriteBlock_ideal timing hprompt hdev w.block hdata b).2,
    contents_write _ _ _ hdata]

/-- **WRITES TO BLOCKS APART**. -/
theorem contents_foldl (hprompt : ∀ n, Prompt cfg (timing n)) (hdev : dev.type = .sdscV1)
    {block : BitVec 32} {ws : List BlockWrite}
    (hapart : ∀ w ∈ ws, w.block.toNat % 2 ^ 23 = block.toNat % 2 ^ 23 → w.block = block)
    {b : Bus Card} {st : BitVec 32 → List Byte} (hst : contents b.device.mem block = st block) :
    contents (ws.foldl (writeCall timing cfg dev) b).device.mem block =
      ws.foldl update st block := by
  induction ws generalizing b st with
  | nil => exact hst
  | cons w ws ih =>
    refine ih (fun w' hw' => hapart w' (mem_cons_of_mem _ hw')) ?_
    rw [contents_writeCall hprompt hdev]
    by_cases heq : w.block = block
    · rw [if_pos (by rw [heq]), update, ← heq, Function.update_self]
    · rw [if_neg fun h => heq (hapart w mem_cons_self h), update,
        Function.update_of_ne (Ne.symm heq), hst]

theorem block_mem_of_mem_zipWith {blocks : List (BitVec 32)} {data : List (Vector Byte 512)}
    {w : BlockWrite} (hw : w ∈ zipWith BlockWrite.mk blocks data) : w.block ∈ blocks := by
  induction blocks generalizing data with
  | nil => exact absurd hw not_mem_nil
  | cons block blocks ih =>
    cases data with
    | nil => exact absurd hw not_mem_nil
    | cons v data =>
      rcases mem_cons.mp hw with rfl | hw
      · exact mem_cons_self
      · exact mem_cons_of_mem _ (ih hw)

theorem not_readsBack_of_alias (hprompt : ∀ n, Prompt cfg (timing n)) (hdev : dev.type = .sdscV1)
    (hargs : cfg.argsChecks = false) {block : BitVec 32} {w : BlockWrite} {ws : List BlockWrite}
    {b : Bus Card} (halias : w.block.toNat % 2 ^ 23 = block.toNat % 2 ^ 23) (hne : w.block ≠ block)
    (hdata : w.data.toList ≠ ws.foldl update (contents b.device.mem) block) :
    ¬ ReadsBack timing cfg dev b (ws ++ [w]) block := by
  intro h
  have hread := h.symm.trans (sdReadBlock_ideal timing hprompt hargs block _)
  have hsame := (Prod.mk.inj hread).2
  rw [foldl_append, foldl_append, foldl_cons, foldl_nil, foldl_cons,
    foldl_nil, contents_writeCall hprompt hdev, if_pos halias, update,
    Function.update_of_ne (Ne.symm hne)] at hsame
  exact hdata hsame.symm

theorem sdReadBlock_refuses (hargs : cfg.argsChecks = true) (hdev : dev.type = .sdscV1)
    (block : BitVec 32) (b : Bus Card) :
    (sdReadBlock (ideal timing) cfg dev block b).1 = (-EINVAL, []) := by
  have hguard : (!zUser cfg.argsChecks (dev.type = .unknown)) = true := by
    rw [hargs, hdev]
    rfl
  rw [sdReadBlock, hguard, if_pos rfl]
  rfl

end Store

def Initialised (cfg : SdConfig) (dev : SdDevice) : Prop :=
  ∃ (σ : Type) (d : Device σ) (resp : Nat → Byte) (b : Bus σ), (sdInit d cfg resp b).1 = (0, dev)

theorem Initialised.type {cfg : SdConfig} {dev : SdDevice} (h : Initialised cfg dev) :
    dev.type = .sdscV1 := by
  obtain ⟨σ, d, resp, b, h⟩ := h
  have hio : - AvrtosDefines.EIO ≠ 0 := by decide
  have hnotsup : -ENOTSUP ≠ 0 := by decide
  simp only [sdInit, bind_apply, ite_apply_bus, pure_apply] at h
  split at h
  · exact absurd (Prod.mk.inj h).1 hio
  split at h
  · exact absurd (Prod.mk.inj h).1 hio
  split at h
  · exact absurd (Prod.mk.inj h).1 hnotsup
  split at h
  · exact absurd (Prod.mk.inj h).1 hio
  · rw [← (Prod.mk.inj h).2]

/-- A card with nothing on it. -/
def blank : Bus Card := ⟨⟨fun _ => 0, .command [], [], 0⟩, false, []⟩

def filled (x : Byte) : Vector Byte 512 := Vector.replicate 512 x

theorem toList_filled_ne {x y : Byte} (h : x ≠ y) : (filled x).toList ≠ (filled y).toList := by
  rw [filled, filled, Vector.toList_replicate, Vector.toList_replicate]
  exact fun heq => h (replicate_right_injective (by decide) heq)

/-- **BLOCKS ARE READ BACK** exactly when the argument checks are off and no two block numbers
    differ by a multiple of 2^23. -/
theorem sd_blocks_iff {timing : Nat → Timing} {cfg : SdConfig} {dev : SdDevice}
    (hprompt : ∀ n, Prompt cfg (timing n)) (hdev : Initialised cfg dev)
    (blocks : List (BitVec 32)) (block : BitVec 32) :
    (∀ (b : Bus Card) (ws : List BlockWrite),
        Allowed (fun b w => (sdWriteBlock (ideal timing) cfg dev w.block w.data.toList b).1 = 0)
          (writeCall timing cfg dev) b ws) ∧
      ((∀ (b : Bus Card) (data : List (Vector Byte 512)),
          ReadsBack timing cfg dev b (zipWith BlockWrite.mk blocks data) block) ↔
        cfg.argsChecks = false ∧
          ∀ a ∈ blocks, a.toNat % 2 ^ 23 = block.toNat % 2 ^ 23 → a = block) := by
  have htype := hdev.type
  have hreturns : ∀ (b : Bus Card) (w : BlockWrite),
      (sdWriteBlock (ideal timing) cfg dev w.block w.data.toList b).1 = 0 := fun b w =>
    (sdWriteBlock_ideal timing hprompt htype w.block Vector.length_toList b).1
  refine ⟨fun b ws => allowed_of_forall hreturns ws b, ?_, ?_⟩
  · intro h
    have hargs : cfg.argsChecks = false := by
      by_contra hon
      have hread := h blank []
      rw [ReadsBack, sdReadBlock_refuses (Bool.not_eq_false _ ▸ hon) htype] at hread
      exact absurd (Prod.mk.inj hread).1 (by decide)
    refine ⟨hargs, fun a ha halias => ?_⟩
    by_contra hne
    obtain ⟨pre, post, rfl⟩ := append_of_mem ha
    obtain ⟨ws, hws⟩ : ∃ ws, ws = zipWith BlockWrite.mk pre
      (replicate pre.length (filled 0)) := ⟨_, rfl⟩
    -- something else than what the block has to hold after the writes before
    obtain ⟨v, hv⟩ : ∃ v : Vector Byte 512,
        v.toList ≠ ws.foldl update (contents blank.device.mem) block := by
      by_cases hzero : (filled 0).toList = ws.foldl update (contents blank.device.mem) block
      · refine ⟨filled 1, ?_⟩
        rw [← hzero]
        exact toList_filled_ne (by decide)
      · exact ⟨_, hzero⟩
    have hread := h blank (replicate pre.length (filled 0) ++ [v])
    rw [zipWith_append (by rw [length_replicate]), ← hws, zipWith_cons_cons,
      zipWith_nil_right] at hread
    exact not_readsBack_of_alias (w := ⟨a, v⟩) hprompt htype hargs halias hne hv hread
  · rintro ⟨hargs, hapart⟩ b data
    rw [ReadsBack, sdReadBlock_ideal timing hprompt hargs]
    rw [contents_foldl hprompt htype
      (fun w hw => hapart w.block (block_mem_of_mem_zipWith hw)) rfl]

/-- A card that answers at once. -/
def atOnce : Nat → Timing := fun _ => ⟨0, 0, 0, 0, 0, 0⟩

theorem initialised_readyCard (argsChecks : Bool) :
    Initialised ⟨argsChecks, 1000, 1000, 1000⟩ ⟨.sdscV1, 0, 0⟩ := by
  refine ⟨Nat, stream readyCard, fun _ => 0, ⟨0, false, []⟩, ?_⟩
  cases argsChecks with
  | false => decide +kernel
  | true => decide +kernel

theorem prompt_atOnce (argsChecks : Bool) (n : Nat) :
    Prompt ⟨argsChecks, 1000, 1000, 1000⟩ (atOnce n) :=
  ⟨show 0 < 8 by decide, show 0 < 1000 by decide, show 0 < 1000 by decide, 
    show 0 < ((1000 : BitVec 16) - 1).toNat by decide⟩

/-- Three blocks of a card that answers at once. -/
theorem sd_blocks_iff_three :
    (∀ (b : Bus Card) (data : List (Vector Byte 512)),
        ReadsBack atOnce defaults ⟨.sdscV1, 0, 0⟩ b (zipWith BlockWrite.mk [0, 1, 2] data) 1) ↔
      defaults.argsChecks = false ∧
        ∀ a ∈ [(0 : BitVec 32), 1, 2], a.toNat % 2 ^ 23 = (1 : BitVec 32).toNat % 2 ^ 23 → a = 1 :=
  (sd_blocks_iff (prompt_atOnce false) (initialised_readyCard false) [0, 1, 2] 1).2

/-- With the argument checks, a block cannot be read at all; without them, what is
    written to block 2^23 is read from block 0. -/
theorem sd_blocks_lost :
    (sdReadBlock (ideal atOnce) ⟨true, 1000, 1000, 1000⟩ ⟨.sdscV1, 0, 0⟩ 0 blank).1 =
        (-EINVAL, []) ∧
      ¬ ReadsBack atOnce defaults ⟨.sdscV1, 0, 0⟩ blank
        ([⟨0, filled 1⟩] ++ [⟨0x800000, filled 2⟩]) 0 := by
  refine ⟨sdReadBlock_refuses rfl rfl 0 _, ?_⟩
  refine not_readsBack_of_alias (prompt_atOnce false) rfl rfl (by decide) (by decide) ?_
  rw [foldl_cons, foldl_nil, update, Function.update_self]
  exact toList_filled_ne (by decide)

end AvrtosSd
