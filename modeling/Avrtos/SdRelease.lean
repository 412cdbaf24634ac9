import Avrtos.Base.Runs
import Avrtos.Sd

/-! # The operations on an SD card release it

    Each operation ends with the card unselected, `sd_read_csd` apart. -/

namespace AvrtosSd

open AvrtosDefines AvrtosSdRegisters Runs SpiBus

section Parts

variable {σ : Type} (d : Device σ) (cfg : SdConfig)

theorem within_sdReadR1 : Within 8 (sdReadR1 d) :=
  (within_poll d 8).bind fun res => Within.pure (res.getD 0xFF) 0

theorem within_sdSendCmd {cmd : SdCmd} (h : cmd.length = 6) : Within 7 (sdSendCmd d cmd) := by
  have hsend := within_send d (0xFF :: cmd)
  rwa [List.length_cons, h] at hsend

theorem within_sdSendCmdReadR1 {cmd : SdCmd} (h : cmd.length = 6) :
    Within 15 (sdSendCmdReadR1 d cmd) :=
  (within_chipSelect d true).bind fun _ => (within_sdSendCmd d h).bind fun _ =>
    (within_sdReadR1 d).bind fun res => (within_chipSelect d false).bind fun _ => Within.pure res 0

theorem releases_sdSendCmdReadR1 (cmd : SdCmd) : Releases (sdSendCmdReadR1 d cmd) :=
  (Ends.bind fun _ => Ends.bind fun _ => Ends.bind fun res => ends_chipSelect_pure d res).releases

theorem within_sdSendCmdR3 {cmd : SdCmd} (h : cmd.length = 6) (resp : Nat → Byte) :
    Within 19 (sdSendCmdR3 d cmd resp) := by
  have hall : Within (0 + (7 + (8 + (4 + (0 + 0))))) (sdSendCmdR3 d cmd resp) := by
    unfold sdSendCmdR3
    refine (within_chipSelect d true).bind fun _ => (within_sdSendCmd d h).bind fun _ =>
      (within_sdReadR1 d).bind fun res => Within.bind (Within.ite ?_ (Within.pure resp 4))
        fun resp => (within_chipSelect d false).bind fun _ => Within.pure (res, resp) 0
    exact within_receive d 4
  exact hall

theorem releases_sdSendCmdR3 (cmd : SdCmd) (resp : Nat → Byte) :
    Releases (sdSendCmdR3 d cmd resp) := by
  unfold sdSendCmdR3
  exact (Ends.bind fun _ => Ends.bind fun _ => Ends.bind fun res => Ends.bind fun resp =>
    ends_chipSelect_pure d (res, resp)).releases

theorem within_waitReadyLoop (n : Nat) : Within n (waitReadyLoop d n) := by
  induction n with
  | zero => exact Within.pure _ _
  | succ n ih =>
    have h := (within_transceive d 0xFF).bind fun rx =>
      Within.ite (c := rx = 0xFF) (Within.pure (0 : Int) n) ih
    exact h.mono (by omega)

theorem within_sdReadDataBlock (size : Nat) :
    Within (cfg.readTimeout.toNat + (size + 2)) (sdReadDataBlock d cfg size) := by
  refine Within.bind ((within_poll d _).bind (k := 0) fun res => ?_) fun ret => ?_
  · cases res with
    | none => exact Within.pure _ 0
    | some res => exact Within.ite (Within.pure _ 0) (Within.pure _ 0)
  · exact Within.ite (Within.pure _ _) ((within_receive d size).bind fun buf =>
      (within_receive d 2).bind fun _ => Within.pure _ 0)

theorem within_acmd41Loop (n : Nat) : Within (30 * n) (acmd41Loop d n) := by
  induction n with
  | zero => exact Within.pure _ _
  | succ n ih =>
    have hround : Within (15 + (15 + 30 * n)) (acmd41Loop d (n + 1)) := by
      refine (within_sdSendCmdReadR1 d rfl).bind fun res => ?_
      refine Within.ite (Within.pure _ _) ((within_sdSendCmdReadR1 d rfl).bind fun res => ?_)
      exact Within.ite (Within.pure _ _) (Within.ite (Within.pure _ _) ih)
    exact hround.mono (by omega)

theorem releases_acmd41Loop (n : Nat) : Releases (acmd41Loop d n) := by
  induction n with
  | zero => exact Releases.pure _
  | succ n ih =>
    refine (releases_sdSendCmdReadR1 d _).bind fun res => ?_
    refine Releases.ite (Releases.pure _) ((releases_sdSendCmdReadR1 d _).bind fun res => ?_)
    exact Releases.ite (Releases.pure _) (Releases.ite (Releases.pure _) ih)

theorem within_sdInitCard : Within (30 * attempts cfg + 15) (sdInitCard d cfg) := by
  refine (within_acmd41Loop d _).bind fun r => ?_
  cases r with
  | error ret => exact Within.pure _ _
  | ok timeout =>
    refine Within.ite (Within.pure _ _) ?_
    exact (within_sdSendCmdReadR1 d (length_sdCmdPrep _ _)).bind fun res =>
      Within.ite (Within.pure _ 0) (Within.pure _ 0)

theorem releases_sdInitCard : Releases (sdInitCard d cfg) := by
  refine (releases_acmd41Loop d _).bind fun r => ?_
  cases r with
  | error ret => exact Releases.pure _
  | ok timeout =>
    refine Releases.ite (Releases.pure _) ?_
    exact (releases_sdSendCmdReadR1 d _).bind fun res =>
      Releases.ite (Releases.pure _) (Releases.pure _)

theorem within_sdTransaction {α : Type} {cmd : SdCmd} {failed : α} {body : Action σ α} {n : Nat}
    (hcmd : cmd.length = 6) (hbody : Within n body) :
    Within (15 + n) (sdTransaction d cmd failed body) := by
  have hall : Within (0 + (7 + (8 + (n + (0 + 0))))) (sdTransaction d cmd failed body) := by
    unfold sdTransaction
    exact (within_chipSelect d true).bind fun _ => (within_sdSendCmd d hcmd).bind fun _ =>
      (within_sdReadR1 d).bind fun _ => (Within.ite (Within.pure failed n) hbody).bind fun r =>
        (within_chipSelect d false).bind fun _ => Within.pure r 0
  exact hall.mono (by omega)

theorem releases_sdTransaction {α : Type} (cmd : SdCmd) (failed : α) (body : Action σ α) :
    Releases (sdTransaction d cmd failed body) := by
  unfold sdTransaction
  exact (Ends.bind fun _ => Ends.bind fun _ => Ends.bind fun _ => Ends.bind fun r =>
    ends_chipSelect_pure d r).releases

end Parts

inductive SdOp
  | init (resp : Nat → Byte)
  | readBlock (dev : SdDevice) (blockAddr : BitVec 32)
  | writeBlock (dev : SdDevice) (blockAddr : BitVec 32) (buf : Vector Byte 512)
  | readCsd (dev : SdDevice) (csd : Csd)
  | readCid (dev : SdDevice) (cid : Cid)

section Operations

variable {σ : Type} (d : Device σ) (cfg : SdConfig)

def SdOp.run : SdOp → Action σ Int
  | .init resp => do return (← sdInit d cfg resp).1
  | .readBlock dev blockAddr => do return (← sdReadBlock d cfg dev blockAddr).1
  | .writeBlock dev blockAddr buf => sdWriteBlock d cfg dev blockAddr buf.toList
  | .readCsd dev csd => do return (← sdReadCsd d cfg dev csd).1
  | .readCid dev cid => do return (← sdReadCid d cfg dev cid).1

def SdOp.bound : SdOp → Nat
  | .init _ => 63 + 30 * attempts cfg + 15
  | .readBlock _ _ => 15 + (cfg.readTimeout.toNat + 514)
  | .writeBlock _ _ _ => 15 + (515 + cfg.readTimeout.toNat + (cfg.writeTimeoutMs - 1).toNat)
  | .readCsd _ _ => 15 + (cfg.readTimeout.toNat + 18)
  | .readCid _ _ => 15 + (cfg.readTimeout.toNat + 18)

theorem within_sdInit (resp : Nat → Byte) :
    Within (63 + 30 * attempts cfg + 15) (sdInit d cfg resp) := by
  have h : Within (0 + (10 + (15 + (19 + (19 + (30 * attempts cfg + 15 + 0))))))
      (sdInit d cfg resp) := by
    refine (within_chipSelect d false).bind fun _ => (within_receive d 10).bind fun _ => ?_
    refine (within_sdSendCmdReadR1 d rfl).bind fun res => Within.ite (Within.pure _ _) ?_
    refine (within_sdSendCmdR3 d (length_sdCmdPrep _ _) resp).bind fun r => ?_
    refine Within.ite (Within.pure _ _) (Within.ite (Within.pure _ _) ?_)
    refine (within_sdSendCmdR3 d rfl r.2).bind fun r => Within.ite (Within.pure _ _) ?_
    exact (within_sdInitCard d cfg).bind fun ret => Within.pure _ 0
  exact h.mono (by omega)

theorem releases_sdInit (resp : Nat → Byte) : Releases (sdInit d cfg resp) := by
  refine (ends_chipSelect d).releases.bind fun _ => (releases_receive d 10).bind fun _ => ?_
  refine (releases_sdSendCmdReadR1 d _).bind fun res => Releases.ite (Releases.pure _) ?_
  refine (releases_sdSendCmdR3 d _ resp).bind fun r => ?_
  refine Releases.ite (Releases.pure _) (Releases.ite (Releases.pure _) ?_)
  refine (releases_sdSendCmdR3 d _ r.2).bind fun r => Releases.ite (Releases.pure _) ?_
  exact (releases_sdInitCard d cfg).bind fun ret => Releases.pure _

theorem within_sdWriteData (buf : Vector Byte 512) :
    Within (515 + cfg.readTimeout.toNat + (cfg.writeTimeoutMs - 1).toNat)
      (sdWriteData d cfg buf.toList) := by
  have hsend : Within 515 (send d (0xFE :: (buf.toList ++ [0xFF, 0xFF]))) := by
    have h := within_send d (0xFE :: (buf.toList ++ [0xFF, 0xFF]))
    rwa [List.length_cons, List.length_append, Vector.length_toList] at h
  have h : Within (515 + (cfg.readTimeout.toNat + (cfg.writeTimeoutMs - 1).toNat))
      (sdWriteData d cfg buf.toList) := by
    refine hsend.bind fun _ => (within_poll d _).bind fun res => ?_
    cases res with
    | none => exact Within.pure _ _
    | some res => exact Within.ite (Within.pure _ _) (within_waitReadyLoop d _)
  exact h.mono (by omega)

theorem within_sdReadCsd (dev : SdDevice) (csd : Csd) :
    Within (15 + (cfg.readTimeout.toNat + 18)) (sdReadCsd d cfg dev csd) := by
  refine Within.ite (Within.pure _ _) ?_
  have hrelease : ∀ (n : Nat) (r : Int × Csd),
      Within n (chipSelect d false >>= fun _ => (pure r : Action σ (Int × Csd))) := fun n r =>
    ((within_chipSelect d false).bind fun _ => Within.pure r 0).mono (Nat.zero_le n)
  refine Within.mono (n := 0 + (7 + (8 + (cfg.readTimeout.toNat + (16 + 2) + 0)))) ?_ (by omega)
  refine (within_chipSelect d true).bind fun _ => (within_sdSendCmd d rfl).bind fun _ =>
    (within_sdReadR1 d).bind fun res => Within.ite (hrelease _ _) ?_
  refine (within_sdReadDataBlock d cfg 16).bind fun r => Within.ite (hrelease _ _) ?_
  exact Within.ite (Within.pure _ _) (hrelease _ _)

theorem SdOp.within (op : SdOp) : Within (op.bound cfg) (op.run d cfg) := by
  cases op with
  | init resp => exact (within_sdInit d cfg resp).bind fun _ => Within.pure _ 0
  | readBlock dev blockAddr =>
    refine Within.bind (k := 0) ?_ fun _ => Within.pure _ 0
    exact Within.ite (Within.pure _ _)
      (within_sdTransaction d (length_sdCmdPrep _ _) (within_sdReadDataBlock d cfg 512))
  | writeBlock dev blockAddr buf =>
    exact Within.ite (Within.pure _ _)
      (within_sdTransaction d (length_sdCmdPrep _ _) (within_sdWriteData d cfg buf))
  | readCsd dev csd => exact (within_sdReadCsd d cfg dev csd).bind fun _ => Within.pure _ 0
  | readCid dev cid =>
    refine Within.bind (k := 0) ?_ fun _ => Within.pure _ 0
    refine Within.ite (Within.pure _ _) (within_sdTransaction (n := cfg.readTimeout.toNat + 18) d
      rfl ?_)
    exact (within_sdReadDataBlock d cfg 16).bind fun r =>
      Within.ite (Within.pure _ 0) (Within.pure _ 0)

theorem SdOp.releases {op : SdOp} (hop : ∀ dev csd, op ≠ .readCsd dev csd) :
    Releases (op.run d cfg) := by
  cases op with
  | init resp => exact (releases_sdInit d cfg resp).bind fun _ => Releases.pure _
  | readBlock dev blockAddr =>
    refine Releases.bind ?_ fun _ => Releases.pure _
    exact Releases.ite (Releases.pure _) (releases_sdTransaction d _ _ _)
  | writeBlock dev blockAddr buf =>
    exact Releases.ite (Releases.pure _) (releases_sdTransaction d _ _ _)
  | readCsd dev csd => exact absurd rfl (hop dev csd)
  | readCid dev cid =>
    refine Releases.bind ?_ fun _ => Releases.pure _
    exact Releases.ite (Releases.pure _) (releases_sdTransaction d _ _ _)

end Operations

section Stream

variable (rx : Nat → Byte) (cfg : SdConfig)

theorem sdWaitDataToken_stream (b : Bus Nat) : ((sdWaitDataToken (stream rx) cfg b).1 = 0 ↔
      (pollAt rx cfg.readTimeout.toNat b.device).1 = some 0xFE) ∧
    (sdWaitDataToken (stream rx) cfg b).2.device = (pollAt rx cfg.readTimeout.toNat b.device).2 ∧
    (sdWaitDataToken (stream rx) cfg b).2.active = b.active := by
  obtain ⟨hres, hdevice⟩ := poll_stream rx cfg.readTimeout.toNat b
  have hactive := active_poll (stream rx) cfg.readTimeout.toNat b
  rw [sdWaitDataToken, bind_apply, ← hres, ← hdevice, ← hactive]
  have htimedout : -ETIMEDOUT ≠ 0 := by decide
  have hio : - AvrtosDefines.EIO ≠ 0 := by decide
  cases (poll (stream rx) cfg.readTimeout.toNat b).1 with
  | none => exact ⟨iff_of_false htimedout (by simp), rfl, rfl⟩
  | some res =>
    simp only [ite_apply_bus, pure_apply]
    by_cases h : res = 0xFE
    · rw [if_pos h, h]
      exact ⟨iff_of_true rfl rfl, rfl, rfl⟩
    · rw [if_neg h]
      exact ⟨iff_of_false hio fun he => h (Option.some.inj he), rfl, rfl⟩

theorem sdReadDataBlock_stream (size : Nat) (b : Bus Nat) :
    ((sdReadDataBlock (stream rx) cfg size b).1.1 = 0 ↔
      (pollAt rx cfg.readTimeout.toNat b.device).1 = some 0xFE) ∧
    ((sdReadDataBlock (stream rx) cfg size b).1.1 = 0 →
      (sdReadDataBlock (stream rx) cfg size b).1.2 = (List.range size).map
        fun i => rx ((pollAt rx cfg.readTimeout.toNat b.device).2 + i)) ∧
    (sdReadDataBlock (stream rx) cfg size b).2.active = b.active := by
  obtain ⟨hres, hdevice, hactive⟩ := sdWaitDataToken_stream rx cfg b
  rw [← hres, ← hdevice, ← hactive]
  simp only [sdReadDataBlock, bind_apply, ite_apply_bus, pure_apply]
  by_cases hret : (sdWaitDataToken (stream rx) cfg b).1 = 0
  · rw [if_neg (not_not_intro hret)]
    refine ⟨⟨fun _ => hret, fun _ => rfl⟩, fun _ => (receive_stream rx size _).1, ?_⟩
    rw [active_receive, active_receive]
  · rw [if_pos hret]
    exact ⟨Iff.rfl, fun h => absurd h hret, rfl⟩

end Stream

theorem active_sdReadCsd_iff {σ : Type} (d : Device σ) (cfg : SdConfig) (dev : SdDevice)
    (csd : Csd) {b b' : Bus σ} {r : Byte × Bus σ} {blk : (Int × List Byte) × Bus σ}
    (hb : b.active = false) (hb' : b' = (sdSendCmd d SD_SEND_CSD (chipSelect d true b).2).2)
    (hr : r = sdReadR1 d b') (hblk : blk = sdReadDataBlock d cfg 16 r.2)
    (hactive : blk.2.active = true) :
    (sdReadCsd d cfg dev csd b).2.active = true ↔
      zUser cfg.argsChecks (dev.type ≠ .unknown) = true ∧ r.1 = 0 ∧ blk.1.1 = 0 ∧
        blk.1.2.getD 0 0 >>> 6 &&& 0x03 ≠ 0 := by
  have hreleased : ∀ b : Bus σ, (chipSelect d false b).2.active ≠ true :=
    fun _ => Bool.false_ne_true
  rw [hb'] at hr
  rw [sdReadCsd]
  simp only [bind_apply, ite_apply_bus, pure_apply, SD_CSD_SIZE, ← hr, ← hblk]
  cases hguard : zUser cfg.argsChecks (decide (dev.type ≠ .unknown)) with
  | false =>
    rw [Bool.not_false, if_pos rfl, hb]
    exact iff_of_false Bool.false_ne_true fun h => Bool.false_ne_true h.1
  | true =>
    rw [Bool.not_true, if_neg Bool.false_ne_true]
    by_cases hres : r.1 = 0
    · rw [if_neg (not_not_intro hres)]
      by_cases hret : blk.1.1 = 0
      · rw [if_neg (not_not_intro hret)]
        by_cases hversion : blk.1.2.getD 0 0 >>> 6 &&& 0x03 = 0
        · rw [if_neg (not_not_intro hversion)]
          exact iff_of_false (hreleased _) fun h => h.2.2.2 hversion
        · rw [if_pos hversion]
          exact iff_of_true hactive ⟨rfl, hres, hret, hversion⟩
      · rw [if_pos hret]
        exact iff_of_false (hreleased _) fun h => hret h.2.2.1
    · rw [if_pos hres]
      exact iff_of_false (hreleased _) fun h => hres h.2.1

section Calls

variable (rx : Nat → Byte) (cfg : SdConfig)

def SdOp.OtherVersion (p : Nat) : SdOp → Prop
  | .readCsd dev _ =>
      zUser cfg.argsChecks (dev.type ≠ .unknown) = true ∧
        answerAt rx p = 0 ∧
        (pollAt rx cfg.readTimeout.toNat (nextAt rx p)).1 = some 0xFE ∧
        rx (pollAt rx cfg.readTimeout.toNat (nextAt rx p)).2 >>> 6 &&& 0x03 ≠ 0
  | _ => False

theorem active_sdReadCsd_stream (dev : SdDevice) (csd : Csd) {b : Bus Nat} (hb : b.active = false) :
    (sdReadCsd (stream rx) cfg dev csd b).2.active = true ↔
      (SdOp.readCsd dev csd).OtherVersion rx cfg b.device := by
  obtain ⟨b', hb'⟩ : ∃ b', b' = (sdSendCmd (stream rx) SD_SEND_CSD
    (chipSelect (stream rx) true b).2).2 := ⟨_, rfl⟩
  have hpos : b'.device = b.device + 7 := by
    rw [hb']
    exact device_sdSendCmd_stream rx rfl _
  have hactive : b'.active = true := by
    rw [hb']
    exact active_send (stream rx) (0xFF :: SD_SEND_CSD) _
  obtain ⟨hanswer, hnext⟩ := sdReadR1_stream rx hpos
  obtain ⟨htoken, hdata, hkept⟩ := sdReadDataBlock_stream rx cfg 16 (sdReadR1 (stream rx) b').2
  rw [active_sdReadR1, hactive] at hkept
  rw [active_sdReadCsd_iff (stream rx) cfg dev csd hb hb' rfl rfl hkept, hanswer, htoken, hnext]
  refine and_congr_right fun _ => and_congr_right fun _ => and_congr_right fun hfound => ?_
  rw [hnext] at htoken hdata
  rw [hdata (htoken.mpr hfound)]
  rfl

/-- A call, and the bus after it. -/
def SdOp.call (b : Bus Nat) (op : SdOp) : Bus Nat := (op.run (stream rx) cfg b).2

theorem active_call_iff (op : SdOp) {b : Bus Nat} (hb : b.active = false) :
    (op.call rx cfg b).active = false ↔ ¬ op.OtherVersion rx cfg b.device := by
  have hother : (∀ dev csd, op ≠ .readCsd dev csd) → (op.call rx cfg b).active = false :=
    fun hop => SdOp.releases (stream rx) cfg hop b hb
  cases op with
  | readCsd dev csd =>
    rw [← active_sdReadCsd_stream rx cfg dev csd hb, Bool.not_eq_true]
    rfl
  | init resp => exact iff_of_true (hother (by simp)) id
  | readBlock dev blockAddr => exact iff_of_true (hother (by simp)) id
  | writeBlock dev blockAddr buf => exact iff_of_true (hother (by simp)) id
  | readCid dev cid => exact iff_of_true (hother (by simp)) id

/-- **THE CARD IS RELEASED** by all calls exactly when none of them finds a register of another
    version. -/
theorem sd_release_iff (ops : List SdOp) :
    Allowed (fun b op => (op.call rx cfg b).exchanged ≤ b.exchanged + op.bound cfg)
        (SdOp.call rx cfg) ⟨0, false, []⟩ ops ∧
      (Allowed (fun b op => (op.call rx cfg b).active = false) (SdOp.call rx cfg)
          ⟨0, false, []⟩ ops ↔
        Allowed (fun b op => ¬ op.OtherVersion rx cfg b.device) (SdOp.call rx cfg)
          ⟨0, false, []⟩ ops) :=
  ⟨allowed_of_forall (fun b op => SdOp.within (stream rx) cfg op b) ops _,
    allowed_congr (I := fun b => b.active = false) (fun _ op hb => active_call_iff rx cfg op hb)
      (fun _ _ _ h => h) rfl⟩

end Calls

def versionTwo : Nat → Byte := fun i =>
  [0xFF, 0xFF, 0xFF, 0xFF, 0xFF, 0xFF, 0xFF, 0x00, 0xFE, 0x40].getD i 0

/-- `sd_read_csd` reports that the register is not supported, and the card stays
    selected. -/
theorem sdReadCsd_leaves_selected :
    (sdReadCsd (stream versionTwo) defaults ⟨.sdscV1, 0, 0⟩ ⟨0, 0, 0, 0, 0⟩
        ⟨0, false, []⟩).1.1 = -ENOTSUP ∧
      ((SdOp.readCsd ⟨.sdscV1, 0, 0⟩ ⟨0, 0, 0, 0, 0⟩).call versionTwo defaults
        ⟨0, false, []⟩).active = true := by
  decide +kernel

end AvrtosSd
