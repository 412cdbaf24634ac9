import Avrtos.Base.SpiBus
import Avrtos.Crc
import Avrtos.Defines
import Avrtos.SdRegisters

/-! # The SD card driver (`devices/sd.c`)

    Commands and answers byte by byte; delays and logging are left out. -/

namespace AvrtosSd

open AvrtosCrc AvrtosDefines AvrtosSdRegisters SpiBus

/-- `sd_cmd_t`. -/
abbrev SdCmd := List Byte

/-- `sys_write_be32`. -/
def be32 (val : BitVec 32) : List Byte :=
  [(val >>> 24).setWidth 8, (val >>> 16).setWidth 8, (val >>> 8).setWidth 8, val.setWidth 8]

/-- `sys_read_be32`. -/
def readBe32 (data : Nat → Byte) : BitVec 32 :=
  (data 0).setWidth 32 <<< 24 ||| (data 1).setWidth 32 <<< 16 ||| (data 2).setWidth 32 <<< 8 |||
    (data 3).setWidth 32

/-- `sd_cmd_prep`. -/
def sdCmdPrep (index : Byte) (arg : BitVec 32) : SdCmd :=
  let front := (0x40 ||| (index &&& 0x3F)) :: be32 arg
  front ++ [crc7 front <<< 1 ||| 0x01]

theorem length_sdCmdPrep (index : Byte) (arg : BitVec 32) : (sdCmdPrep index arg).length = 6 := rfl

def SD_GO_IDLE_STATE : SdCmd := [0x40, 0x00, 0x00, 0x00, 0x00, 0x95]
def SD_READ_OCR : SdCmd := [0x7a, 0x00, 0x00, 0x00, 0x00, 0xfd]
def SD_APP_CMD : SdCmd := [0x77, 0x00, 0x00, 0x00, 0x00, 0x65]
def SD_SEND_OP_COND : SdCmd := [0x69, 0x40, 0x00, 0x00, 0x00, 0xe5]
def SD_SEND_CSD : SdCmd := [0x49, 0x00, 0x00, 0x00, 0x00, 0xaf]
def SD_SEND_CID : SdCmd := [0x4a, 0x00, 0x00, 0x00, 0x00, 0x1b]

/-- `enum sd_card_type`. -/
inductive CardType
  | unknown
  | sdscV1
deriving DecidableEq, Repr

/-- `struct sd_card_info`. -/
structure SdDevice where
  type : CardType
  ocr : BitVec 32
  voltageAccepted : Byte
deriving DecidableEq, Repr

/-- The settings. -/
structure SdConfig where
  argsChecks : Bool
  initTimeoutMs : Nat
  readTimeout : BitVec 16
  writeTimeoutMs : BitVec 16

def defaults : SdConfig := ⟨false, 1000, 1000, 1000⟩

def SD_R1_RESPONSE_RETRIES : Nat := 8
def SD_POWERUP_CLOCKS : Nat := 10
def SD_ACMD41_RETRY_DELAY_MS : Nat := 100
def SD_BLOCK_SIZE : Nat := 512
def SD_CSD_SIZE : Nat := 16
def SD_CID_SIZE : Nat := 16

variable {σ : Type} (d : Device σ)

/-- `sd_read_r1`. -/
def sdReadR1 : Action σ Byte := do
  let res ← poll d SD_R1_RESPONSE_RETRIES
  return res.getD 0xFF

def sdSendCmd (cmd : SdCmd) : Action σ Unit := send d (0xFF :: cmd)

/-- `sd_send_cmd_read_r1`. -/
def sdSendCmdReadR1 (cmd : SdCmd) : Action σ Byte := do
  chipSelect d true
  sdSendCmd d cmd
  let res ← sdReadR1 d
  chipSelect d false
  return res

/-- `sd_send_cmd_r3`. -/
def sdSendCmdR3 (cmd : SdCmd) (resp : Nat → Byte) :
    Action σ (Byte × (Nat → Byte)) := do
  chipSelect d true
  sdSendCmd d cmd
  let res ← sdReadR1 d
  let resp ← (if res ≤ 1 then (fun bytes i => bytes.getD i 0) <$> receive d 4 else pure resp)
  chipSelect d false
  return (res, resp)

def waitReadyLoop : Nat → Action σ Int
  | 0 => pure (-ETIMEDOUT)
  | n + 1 => do
      let rx ← transceive d 0xFF
      if rx = 0xFF then return 0 else waitReadyLoop n

/-- `sd_wait_ready`. -/
def sdWaitReady (cfg : SdConfig) : Action σ Int := waitReadyLoop d (cfg.writeTimeoutMs - 1).toNat

/-- `sd_wait_data_token`. -/
def sdWaitDataToken (cfg : SdConfig) : Action σ Int := do
  match ← poll d cfg.readTimeout.toNat with
  | some res => if res = 0xFE then return 0 else return - AvrtosDefines.EIO
  | none => return -ETIMEDOUT

/-- `sd_read_data_block`. -/
def sdReadDataBlock (cfg : SdConfig) (size : Nat) : Action σ (Int × List Byte) := do
  let ret ← sdWaitDataToken d cfg
  if ret ≠ 0 then return (ret, [])
  else do
    let buf ← receive d size
    -- the CRC is not validated
    let _ ← receive d 2
    return (0, buf)

def acmd41Loop : Nat → Action σ (Except Int (BitVec 16))
  | 0 => pure (.ok 0xFFFF)
  | n + 1 => do
      let res ← sdSendCmdReadR1 d SD_APP_CMD
      if res > 1 then return .error (- AvrtosDefines.EIO)
      else do
        let res ← sdSendCmdReadR1 d SD_SEND_OP_COND
        if res = 0 then return .ok (BitVec.ofNat 16 n)
        else if res > 1 then return .error (- AvrtosDefines.EIO)
        else acmd41Loop n

/-- `sd_init` after the loop, told what the loop ended with. -/
def sdInitEnd : Except Int (BitVec 16) → Action σ Int
  | .error ret => pure ret
  | .ok timeout =>
      if timeout = 0 then pure (-ETIMEDOUT)
      else do
        let res ← sdSendCmdReadR1 d (sdCmdPrep 16 (BitVec.ofNat 32 SD_BLOCK_SIZE))
        if res ≠ 0 then return - AvrtosDefines.EIO else return 0

def attempts (cfg : SdConfig) : Nat := cfg.initTimeoutMs / SD_ACMD41_RETRY_DELAY_MS % 2 ^ 16

/-- `sd_init` from the first ACMD41 on. -/
def sdInitCard (cfg : SdConfig) : Action σ Int := do
  let r ← acmd41Loop d (attempts cfg)
  sdInitEnd d r

/-- `sd_init`. -/
def sdInit (cfg : SdConfig) (resp : Nat → Byte) : Action σ (Int × SdDevice) := do
  let dev : SdDevice := ⟨.unknown, 0, 0⟩
  chipSelect d false
  let _ ← receive d SD_POWERUP_CLOCKS
  -- CMD0: reset card
  let res ← sdSendCmdReadR1 d SD_GO_IDLE_STATE
  if res &&& 0x01 = 0 then return (- AvrtosDefines.EIO, dev)
  else do
    -- CMD8: check voltage range
    let r ← sdSendCmdR3 d (sdCmdPrep 8 (0x01 <<< 8 ||| 0xAA)) resp
    if r.1 &&& 0x01 = 0 then return (- AvrtosDefines.EIO, dev)
    else if r.1 &&& 0x04 = 0 then return (-ENOTSUP, dev)
    else do
      let dev : SdDevice := { dev with type := .sdscV1, voltageAccepted := r.2 2 &&& 0x0F }
      -- CMD58: read OCR
      let r ← sdSendCmdR3 d SD_READ_OCR r.2
      if r.1 > 1 then return (- AvrtosDefines.EIO, dev)
      else do
        let dev : SdDevice := { dev with ocr := readBe32 r.2 }
        let ret ← sdInitCard d cfg
        return (ret, dev)

def sdTransaction {α : Type} (cmd : SdCmd) (failed : α) (body : Action σ α) : Action σ α := do
  chipSelect d true
  sdSendCmd d cmd
  let res ← sdReadR1 d
  let r ← (if res ≠ 0 then pure failed else body)
  chipSelect d false
  return r

/-- `sd_read_block`. -/
def sdReadBlock (cfg : SdConfig) (dev : SdDevice) (blockAddr : BitVec 32) :
    Action σ (Int × List Byte) :=
  if !zUser cfg.argsChecks (dev.type = .unknown) then return (-EINVAL, [])
  else
    sdTransaction d (sdCmdPrep 17 (blockAddr * BitVec.ofNat 32 SD_BLOCK_SIZE))
      (- AvrtosDefines.EIO, []) (sdReadDataBlock d cfg SD_BLOCK_SIZE)

/-- `sd_write_block` after the answer to its command. -/
def sdWriteData (cfg : SdConfig) (buf : List Byte) : Action σ Int := do
  send d (0xFE :: (buf ++ [0xFF, 0xFF]))
  match ← poll d cfg.readTimeout.toNat with
  | none => return -ETIMEDOUT
  | some res =>
      if res &&& 0x07 ≠ 0x05 then return - AvrtosDefines.EIO
      else sdWaitReady d cfg

/-- `sd_write_block`. -/
def sdWriteBlock (cfg : SdConfig) (dev : SdDevice) (blockAddr : BitVec 32)
    (buf : List Byte) : Action σ Int :=
  if !zUser cfg.argsChecks (dev.type ≠ .unknown) then return -ENODEV
  else
    sdTransaction d (sdCmdPrep 24 (blockAddr * BitVec.ofNat 32 SD_BLOCK_SIZE))
      (- AvrtosDefines.EIO) (sdWriteData d cfg buf)

/-- `sd_read_csd`. -/
def sdReadCsd (cfg : SdConfig) (dev : SdDevice) (csd : Csd) : Action σ (Int × Csd) :=
  if !zUser cfg.argsChecks (dev.type ≠ .unknown) then return (-ENODEV, csd)
  else do
    chipSelect d true
    sdSendCmd d SD_SEND_CSD
    let res ← sdReadR1 d
    if res ≠ 0 then do
      chipSelect d false
      return (- AvrtosDefines.EIO, csd)
    else do
      let r ← sdReadDataBlock d cfg SD_CSD_SIZE
      if r.1 ≠ 0 then do
        chipSelect d false
        return (r.1, csd)
      else
        let buf := fun i => r.2.getD i 0
        let csdStructure := buf 0 >>> 6 &&& 0x03
        if csdStructure ≠ 0 then return (-ENOTSUP, csd)
        else do
          let csd := sdParseCsdV1 buf { csd with csdStructure := csdStructure }
          chipSelect d false
          return (0, csd)

/-- `sd_read_cid`. -/
def sdReadCid (cfg : SdConfig) (dev : SdDevice) (cid : Cid) : Action σ (Int × Cid) :=
  if !zUser cfg.argsChecks (dev.type ≠ .unknown) then return (-ENODEV, cid)
  else
    sdTransaction d SD_SEND_CID (- AvrtosDefines.EIO, cid) do
      let r ← sdReadDataBlock d cfg SD_CID_SIZE
      if r.1 ≠ 0 then return (r.1, cid)
      else return (0, sdParseCid fun i => r.2.getD i 0)

theorem active_sdReadR1 (b : Bus σ) : (sdReadR1 d b).2.active = b.active := active_poll d 8 b

def answerAt (rx : Nat → Byte) (p : Nat) : Byte := (pollAt rx 8 (p + 7)).1.getD 0xFF

def nextAt (rx : Nat → Byte) (p : Nat) : Nat := (pollAt rx 8 (p + 7)).2

theorem sdReadR1_stream (rx : Nat → Byte) {p : Nat} {b : Bus Nat} (hb : b.device = p + 7) :
    (sdReadR1 (stream rx) b).1 = answerAt rx p ∧
      (sdReadR1 (stream rx) b).2.device = nextAt rx p := by
  obtain ⟨hres, hdevice⟩ := poll_stream rx 8 b
  rw [hb] at hres hdevice
  exact ⟨congrArg (Option.getD · 0xFF) hres, hdevice⟩

theorem device_sdSendCmd_stream (rx : Nat → Byte) {cmd : SdCmd} (h : cmd.length = 6)
    (b : Bus Nat) : (sdSendCmd (stream rx) cmd b).2.device = b.device + 7 := by
  rw [sdSendCmd, device_send_stream, List.length_cons, h]

end AvrtosSd
