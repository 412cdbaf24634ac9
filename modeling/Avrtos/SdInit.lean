import Avrtos.Sd

/-! # The retries of SD initialisation

    The loop is followed attempt by attempt; the counter ends at 0 or wraps. -/

namespace AvrtosSd

open AvrtosDefines SpiBus

section Commands

variable (rx : Nat → Byte)

theorem sdSendCmd_stream {cmd : SdCmd} (h : cmd.length = 6) (b : Bus Nat) :
    (sdReadR1 (stream rx) (sdSendCmd (stream rx) cmd (chipSelect (stream rx) true b).2).2).1 =
        answerAt rx b.device ∧
      (sdReadR1 (stream rx) (sdSendCmd (stream rx) cmd
        (chipSelect (stream rx) true b).2).2).2.device = nextAt rx b.device :=
  sdReadR1_stream rx (device_sdSendCmd_stream rx h _)

theorem sdSendCmdReadR1_stream {cmd : SdCmd} (h : cmd.length = 6) (b : Bus Nat) :
    (sdSendCmdReadR1 (stream rx) cmd b).1 = answerAt rx b.device ∧
      (sdSendCmdReadR1 (stream rx) cmd b).2.device = nextAt rx b.device :=
  sdSendCmd_stream rx h b

theorem sdSendCmdR3_stream {cmd : SdCmd} (h : cmd.length = 6) (resp : Nat → Byte) (b : Bus Nat) :
    (sdSendCmdR3 (stream rx) cmd resp b).1.1 = answerAt rx b.device ∧
      (sdSendCmdR3 (stream rx) cmd resp b).2.device =
        nextAt rx b.device + if answerAt rx b.device ≤ 1 then 4 else 0 := by
  obtain ⟨hres, hdevice⟩ := sdSendCmd_stream rx h b
  refine ⟨hres, ?_⟩
  simp only [sdSendCmdR3, bind_apply, pure_apply, hres, ite_apply_bus, device_chipSelect_stream]
  by_cases hle : answerAt rx b.device ≤ 1
  · rw [if_pos hle, if_pos hle, ← hdevice]
    exact (receive_stream rx 4 _).2
  · rw [if_neg hle, if_neg hle]
    exact hdevice

variable {σ : Type} (d : Device σ) {p : Byte → Bool}

theorem sent_sdSendCmd (hp : p 0xFF = false) (cmd : SdCmd) (b : Bus σ) :
    (sdReadR1 d (sdSendCmd d cmd (chipSelect d true b).2).2).2.sent p =
      b.sent p + cmd.countP p := by
  have hidle : ¬ p 0xFF = true := by
    rw [hp]
    exact Bool.false_ne_true
  rw [sdReadR1, bind_apply, pure_apply, sent_poll d p hp, sdSendCmd, sent_send, sent_chipSelect,
    List.countP_cons_of_neg hidle]

theorem sent_sdSendCmdReadR1 (hp : p 0xFF = false) (cmd : SdCmd) (b : Bus σ) :
    (sdSendCmdReadR1 d cmd b).2.sent p = b.sent p + cmd.countP p := by
  simp only [sdSendCmdReadR1, bind_apply, pure_apply, sent_chipSelect]
  exact sent_sdSendCmd d hp cmd b

theorem sent_sdSendCmdR3 (hp : p 0xFF = false) (cmd : SdCmd) (resp : Nat → Byte) (b : Bus σ) :
    (sdSendCmdR3 d cmd resp b).2.sent p = b.sent p + cmd.countP p := by
  have hcmd := sent_sdSendCmd d hp cmd b
  simp only [sdSendCmdR3, bind_apply, pure_apply, sent_chipSelect, ite_apply_bus]
  split
  · rw [← hcmd]
    exact sent_receive d p hp 4 _
  · exact hcmd

end Commands

def isAcmd41 (tx : Byte) : Bool := tx == 0x69

def isCmd16 (tx : Byte) : Bool := tx == 0x50

section Attempts

variable (rx : Nat → Byte)

def afterAttempt (p : Nat) : Nat := nextAt rx (nextAt rx p)

def attemptAt (p j : Nat) : Nat := (afterAttempt rx)^[j] p

def cmd55At (p j : Nat) : Byte := answerAt rx (attemptAt rx p j)

def acmd41At (p j : Nat) : Byte := answerAt rx (nextAt rx (attemptAt rx p j))

def IdleBefore (p k : Nat) : Prop := ∀ j < k, acmd41At rx p j = 1

def Accepts (p n : Nat) : Prop := ∀ j < n, IdleBefore rx p j → cmd55At rx p j ≤ 1

theorem IdleBefore.mono {rx : Nat → Byte} {p j k : Nat} (h : IdleBefore rx p k) (hle : j ≤ k) :
    IdleBefore rx p j := fun i hi => h i (Nat.lt_of_lt_of_le hi hle)

theorem first_unique {rx : Nat → Byte} {p k k' : Nat} (h : IdleBefore rx p k)
    (hk : acmd41At rx p k ≠ 1) (h' : IdleBefore rx p k') (hk' : acmd41At rx p k' ≠ 1) :
    k = k' := by
  rcases Nat.lt_trichotomy k k' with hlt | heq | hgt
  · exact absurd (h' k hlt) hk
  · exact heq
  · exact absurd (h k' hgt) hk'

theorem exists_first {rx : Nat → Byte} {p n : Nat} (h : ¬ IdleBefore rx p n) :
    ∃ k < n, IdleBefore rx p k ∧ acmd41At rx p k ≠ 1 := by
  induction n with
  | zero => exact absurd (fun _ hj => absurd hj (Nat.not_lt_zero _)) h
  | succ n ih =>
    by_cases hn : IdleBefore rx p n
    · refine ⟨n, Nat.lt_succ_self n, hn, fun heq => h fun j hj => ?_⟩
      rcases Nat.lt_succ_iff_lt_or_eq.mp hj with hlt | rfl
      · exact hn j hlt
      · exact heq
    · obtain ⟨k, hk, hfirst⟩ := ih hn
      exact ⟨k, Nat.lt_succ_of_lt hk, hfirst⟩

end Attempts

structure Sent (b b' : Bus Nat) (k m : Nat) : Prop where
  acmd41 : b'.sent isAcmd41 = b.sent isAcmd41 + k
  cmd16 : b'.sent isCmd16 = b.sent isCmd16 + m

theorem Sent.trans {b b' b'' : Bus Nat} {k k' m m' : Nat} (h : Sent b b' k m)
    (h' : Sent b' b'' k' m') : Sent b b'' (k + k') (m + m') :=
  ⟨by rw [h'.acmd41, h.acmd41, Nat.add_assoc], by rw [h'.cmd16, h.cmd16, Nat.add_assoc]⟩

theorem Sent.skip {b b' c : Bus Nat} {k m : Nat} (h : Sent b b' 0 0) :
    Sent b c k m ↔ Sent b' c k m := by
  have h41 : b'.sent isAcmd41 = b.sent isAcmd41 := h.acmd41
  have h16 : b'.sent isCmd16 = b.sent isCmd16 := h.cmd16
  constructor
  · intro hc
    refine ⟨?_, ?_⟩
    · rw [h41, hc.acmd41]
    · rw [h16, hc.cmd16]
  · intro hc
    refine ⟨?_, ?_⟩
    · rw [← h41, hc.acmd41]
    · rw [← h16, hc.cmd16]

section Loop

variable (rx : Nat → Byte)

theorem Sent.cmd (cmd : SdCmd) (b : Bus Nat) :
    Sent b (sdSendCmdReadR1 (stream rx) cmd b).2 (cmd.countP isAcmd41) (cmd.countP isCmd16) :=
  ⟨sent_sdSendCmdReadR1 _ rfl cmd b, sent_sdSendCmdReadR1 _ rfl cmd b⟩

theorem acmd41Loop_round (n : Nat) (b : Bus Nat) (h55 : answerAt rx b.device ≤ 1) :
    ∃ b', b'.device = afterAttempt rx b.device ∧ Sent b b' 1 0 ∧ acmd41Loop (stream rx) (n + 1) b =
        if answerAt rx (nextAt rx b.device) = 0 then (.ok (BitVec.ofNat 16 n), b')
        else if answerAt rx (nextAt rx b.device) > 1 then (.error (- AvrtosDefines.EIO), b')
        else acmd41Loop (stream rx) n b' := by
  obtain ⟨hres, hdevice⟩ := sdSendCmdReadR1_stream rx (show SD_APP_CMD.length = 6 from rfl) b
  obtain ⟨hres', hdevice'⟩ := sdSendCmdReadR1_stream rx
    (show SD_SEND_OP_COND.length = 6 from rfl) (sdSendCmdReadR1 (stream rx) SD_APP_CMD b).2
  rw [hdevice] at hres' hdevice'
  refine ⟨_, hdevice', (Sent.cmd rx SD_APP_CMD b).trans (Sent.cmd rx SD_SEND_OP_COND _), ?_⟩
  rw [acmd41Loop, bind_apply, hres, if_neg (BitVec.not_lt.mpr h55), bind_apply, hres']
  simp only [ite_apply_bus, pure_apply]

theorem acmd41Loop_idle (n k : Nat) (b : Bus Nat)
    (h55 : ∀ j < k, cmd55At rx b.device j ≤ 1) (hidle : IdleBefore rx b.device k) :
    ∃ b', b'.device = attemptAt rx b.device k ∧ Sent b b' k 0 ∧
      acmd41Loop (stream rx) (n + k) b = acmd41Loop (stream rx) n b' := by
  induction k generalizing b with
  | zero => exact ⟨b, rfl, ⟨rfl, rfl⟩, rfl⟩
  | succ k ih =>
    obtain ⟨b₁, hdevice₁, hsent₁, hround⟩ := acmd41Loop_round rx (n + k) b (h55 0 (Nat.succ_pos k))
    have hanswer : answerAt rx (nextAt rx b.device) = 1 := hidle 0 (Nat.succ_pos k)
    rw [hanswer, if_neg (by decide), if_neg (by decide)] at hround
    -- the attempts of the rest are those of the whole, one further
    have hshift : ∀ j, attemptAt rx b₁.device j = attemptAt rx b.device (j + 1) := fun j => by
      rw [hdevice₁]
      rfl
    obtain ⟨b₂, hdevice₂, hsent₂, hrest⟩ := ih b₁ (fun j hj => by
        rw [cmd55At, hshift]
        exact h55 (j + 1) (Nat.succ_lt_succ hj))
      (fun j hj => by
        rw [acmd41At, hshift]
        exact hidle (j + 1) (Nat.succ_lt_succ hj))
    refine ⟨b₂, hdevice₂.trans (hshift k), ?_, hround.trans hrest⟩
    rw [Nat.add_comm k 1]
    exact hsent₁.trans hsent₂

theorem acmd41Loop_end {n k : Nat} (hk : k < n) (b : Bus Nat)
    (h55 : Accepts rx b.device n) (hidle : IdleBefore rx b.device k)
    (hend : acmd41At rx b.device k ≠ 1) :
    ∃ b', b'.device = attemptAt rx b.device (k + 1) ∧ Sent b b' (k + 1) 0 ∧
      acmd41Loop (stream rx) n b =
        (if acmd41At rx b.device k = 0 then .ok (BitVec.ofNat 16 (n - (k + 1)))
          else .error (- AvrtosDefines.EIO), b') := by
  obtain ⟨b₁, hdevice₁, hsent₁, hrun⟩ := acmd41Loop_idle rx (n - (k + 1) + 1) k b
    (fun j hj => h55 j (Nat.lt_trans hj hk) (hidle.mono hj.le)) hidle
  obtain ⟨b₂, hdevice₂, hsent₂, hround⟩ := acmd41Loop_round rx (n - (k + 1)) b₁ (by
      rw [hdevice₁]
      exact h55 k hk hidle)
  have hanswer : answerAt rx (nextAt rx b₁.device) = acmd41At rx b.device k := by
    rw [hdevice₁]
    rfl
  refine ⟨b₂, ?_, hsent₁.trans hsent₂, ?_⟩
  · rw [hdevice₂, hdevice₁, attemptAt, attemptAt, Function.iterate_succ_apply']
  · rw [show n = n - (k + 1) + 1 + k by omega, hrun, hround, hanswer]
    by_cases hzero : acmd41At rx b.device k = 0
    · rw [if_pos hzero, if_pos hzero]
      congr 4
      omega
    · have hgt : acmd41At rx b.device k > 1 := by
        rw [gt_iff_lt, BitVec.lt_def]
        have h0 : (acmd41At rx b.device k).toNat ≠ 0 := fun h => hzero (BitVec.eq_of_toNat_eq h)
        have h1 : (acmd41At rx b.device k).toNat ≠ 1 := fun h => hend (BitVec.eq_of_toNat_eq h)
        have hone : (1 : Byte).toNat = 1 := rfl
        omega
      rw [if_neg hzero, if_pos hgt, if_neg hzero]

theorem acmd41Loop_exhausted (n : Nat) (b : Bus Nat)
    (h55 : Accepts rx b.device n) (hidle : IdleBefore rx b.device n) :
    ∃ b', b'.device = attemptAt rx b.device n ∧ Sent b b' n 0 ∧
      acmd41Loop (stream rx) n b = (.ok 0xFFFF, b') := by
  obtain ⟨b', hdevice, hsent, hrun⟩ := acmd41Loop_idle rx 0 n b
    (fun j hj => h55 j hj (hidle.mono hj.le)) hidle
  rw [Nat.zero_add] at hrun
  exact ⟨b', hdevice, hsent, hrun⟩

end Loop

def cmd16Ret (res : Byte) : Int := if res ≠ 0 then - AvrtosDefines.EIO else 0

theorem cmd16Ret_eq_zero_iff (res : Byte) : cmd16Ret res = 0 ↔ res = 0 := by
  rw [cmd16Ret]
  by_cases h : res = 0
  · rw [if_neg (not_not_intro h)]
    exact iff_of_true rfl h
  · rw [if_pos h]
    exact iff_of_false (by decide) h

theorem countP_cmd16 : (sdCmdPrep 16 (BitVec.ofNat 32 SD_BLOCK_SIZE)).countP isAcmd41 = 0 ∧
      (sdCmdPrep 16 (BitVec.ofNat 32 SD_BLOCK_SIZE)).countP isCmd16 = 1 := by decide +kernel

section Card

variable (rx : Nat → Byte) (cfg : SdConfig)

theorem sdInitCard_ok {b b' : Bus Nat} {timeout : BitVec 16} {k : Nat}
    (hloop : acmd41Loop (stream rx) (attempts cfg) b = (.ok timeout, b')) (hsent : Sent b b' k 0)
    (htimeout : timeout ≠ 0) :
    (sdInitCard (stream rx) cfg b).1 = cmd16Ret (answerAt rx b'.device) ∧
      Sent b (sdInitCard (stream rx) cfg b).2 k 1 := by
  have hcmd := Sent.cmd rx (sdCmdPrep 16 (BitVec.ofNat 32 SD_BLOCK_SIZE)) b'
  rw [countP_cmd16.1, countP_cmd16.2] at hcmd
  obtain ⟨hres, -⟩ :=
    sdSendCmdReadR1_stream rx (length_sdCmdPrep 16 (BitVec.ofNat 32 SD_BLOCK_SIZE)) b'
  have hall := hsent.trans hcmd
  simp only [sdInitCard, bind_apply, hloop, sdInitEnd, if_neg htimeout, hres, ite_apply_bus,
    pure_apply, cmd16Ret]
  -- the buses have to agree syntactically: the command is not to be computed
  split
  · dsimp only
    exact ⟨rfl, hall⟩
  · dsimp only
    exact ⟨rfl, hall⟩

theorem sdInitCard_success {k : Nat} (hk : k + 1 < attempts cfg) (b : Bus Nat)
    (h55 : Accepts rx b.device (attempts cfg)) (hidle : IdleBefore rx b.device k)
    (hend : acmd41At rx b.device k = 0) :
    (sdInitCard (stream rx) cfg b).1 = cmd16Ret (answerAt rx (attemptAt rx b.device (k + 1))) ∧
      Sent b (sdInitCard (stream rx) cfg b).2 (k + 1) 1 := by
  obtain ⟨b', hdevice, hsent, hloop⟩ := acmd41Loop_end rx (Nat.lt_of_succ_lt hk) b h55 hidle (by
      rw [hend]
      decide)
  rw [if_pos hend] at hloop
  have htimeout : BitVec.ofNat 16 (attempts cfg - (k + 1)) ≠ 0 := by
    intro h
    have hnat : (BitVec.ofNat 16 (attempts cfg - (k + 1))).toNat = 0 := congrArg BitVec.toNat h
    have hlt : attempts cfg < 2 ^ 16 := Nat.mod_lt _ (by decide)
    rw [BitVec.toNat_ofNat, Nat.mod_eq_of_lt (by omega)] at hnat
    omega
  rw [← hdevice]
  exact sdInitCard_ok rx cfg hloop hsent htimeout

theorem sdInitCard_last {k : Nat} (hk : k + 1 = attempts cfg) (b : Bus Nat)
    (h55 : Accepts rx b.device (attempts cfg)) (hidle : IdleBefore rx b.device k)
    (hend : acmd41At rx b.device k = 0) :
    Sent b (sdInitCard (stream rx) cfg b).2 (k + 1) 0 := by
  obtain ⟨b', -, hsent, hloop⟩ := acmd41Loop_end rx (Nat.lt_of_succ_le hk.le) b h55 hidle (by
      rw [hend]
      decide)
  rw [if_pos hend, hk, Nat.sub_self] at hloop
  rw [sdInitCard, bind_apply, hloop]
  exact hsent

theorem sdInitCard_error {k : Nat} (hk : k < attempts cfg) (b : Bus Nat)
    (h55 : Accepts rx b.device (attempts cfg)) (hidle : IdleBefore rx b.device k)
    (hend : acmd41At rx b.device k ≠ 1) (hzero : acmd41At rx b.device k ≠ 0) :
    (sdInitCard (stream rx) cfg b).1 = - AvrtosDefines.EIO := by
  obtain ⟨b', -, -, hloop⟩ := acmd41Loop_end rx hk b h55 hidle hend
  rw [if_neg hzero] at hloop
  rw [sdInitCard, bind_apply, hloop]
  rfl

theorem sdInitCard_exhausted (b : Bus Nat) (h55 : Accepts rx b.device (attempts cfg))
    (hidle : IdleBefore rx b.device (attempts cfg)) :
    (sdInitCard (stream rx) cfg b).1 =
        cmd16Ret (answerAt rx (attemptAt rx b.device (attempts cfg))) ∧
      Sent b (sdInitCard (stream rx) cfg b).2 (attempts cfg) 1 := by
  obtain ⟨b', hdevice, hsent, hloop⟩ := acmd41Loop_exhausted rx _ b h55 hidle
  rw [← hdevice]
  exact sdInitCard_ok rx cfg hloop hsent (by decide)

end Card

section Init

variable (rx : Nat → Byte) (cfg : SdConfig)

def cmd8At (p : Nat) : Nat := nextAt rx (p + SD_POWERUP_CLOCKS)
def cmd58At (p : Nat) : Nat := nextAt rx (cmd8At rx p)
def firstAttemptAt (p : Nat) : Nat := nextAt rx (cmd58At rx p) + 4

structure Passes (p : Nat) : Prop where
  cmd0 : answerAt rx (p + SD_POWERUP_CLOCKS) &&& 0x01 ≠ 0
  cmd8 : answerAt rx (cmd8At rx p) &&& 0x01 ≠ 0
  version : answerAt rx (cmd8At rx p) &&& 0x04 ≠ 0
  cmd58 : answerAt rx (cmd58At rx p) ≤ 1

theorem Passes.not_le {p : Nat} (h : Passes rx p) : ¬ answerAt rx (cmd8At rx p) ≤ 1 := by
  intro hle
  have hversion := h.version
  have hle' : (answerAt rx (cmd8At rx p)).toNat ≤ 1 := hle
  obtain h0 | h1 : answerAt rx (cmd8At rx p) = 0 ∨ answerAt rx (cmd8At rx p) = 1 := by
    rcases Nat.le_one_iff_eq_zero_or_eq_one.mp hle' with h | h
    · exact Or.inl (BitVec.eq_of_toNat_eq h)
    · exact Or.inr (BitVec.eq_of_toNat_eq h)
  · rw [h0] at hversion
    exact hversion (by decide)
  · rw [h1] at hversion
    exact hversion (by decide)

theorem countP_cmd8 : (sdCmdPrep 8 (0x01 <<< 8 ||| 0xAA)).countP isAcmd41 = 0 ∧
      (sdCmdPrep 8 (0x01 <<< 8 ||| 0xAA)).countP isCmd16 = 0 := by decide +kernel

theorem Sent.cmdR3 (cmd : SdCmd) (resp : Nat → Byte) (b : Bus Nat) :
    Sent b (sdSendCmdR3 (stream rx) cmd resp b).2 (cmd.countP isAcmd41) (cmd.countP isCmd16) :=
  ⟨sent_sdSendCmdR3 _ rfl cmd resp b, sent_sdSendCmdR3 _ rfl cmd resp b⟩

theorem sdInit_passes {b : Bus Nat} (h : Passes rx b.device) (resp : Nat → Byte) :
    ∃ b', b'.device = firstAttemptAt rx b.device ∧ Sent b b' 0 0 ∧
      (sdInit (stream rx) cfg resp b).1.1 = (sdInitCard (stream rx) cfg b').1 ∧
      (sdInit (stream rx) cfg resp b).2 = (sdInitCard (stream rx) cfg b').2 := by
  obtain ⟨b₁, hb₁⟩ : ∃ b₁, b₁ = (receive (stream rx) SD_POWERUP_CLOCKS
    (chipSelect (stream rx) false b).2).2 := ⟨_, rfl⟩
  have hdevice₁ : b₁.device = b.device + SD_POWERUP_CLOCKS := by
    rw [hb₁, (receive_stream rx _ _).2, device_chipSelect_stream]
  have hsent₁ : Sent b b₁ 0 0 := by
    rw [hb₁]
    exact ⟨by rw [sent_receive _ _ rfl, sent_chipSelect, Nat.add_zero],
      by rw [sent_receive _ _ rfl, sent_chipSelect, Nat.add_zero]⟩
  -- CMD0
  obtain ⟨r₀, hr₀⟩ : ∃ r, r = sdSendCmdReadR1 (stream rx) SD_GO_IDLE_STATE b₁ := ⟨_, rfl⟩
  obtain ⟨hres₀, hdevice₀⟩ :=
    sdSendCmdReadR1_stream rx (show SD_GO_IDLE_STATE.length = 6 from rfl) b₁
  have hsent₀ := Sent.cmd rx SD_GO_IDLE_STATE b₁
  rw [← hr₀] at hres₀ hdevice₀ hsent₀
  rw [hdevice₁] at hres₀ hdevice₀
  -- CMD8
  obtain ⟨r₈, hr₈⟩ : ∃ r, r = sdSendCmdR3 (stream rx) (sdCmdPrep 8 (0x01 <<< 8 ||| 0xAA)) resp
    r₀.2 := ⟨_, rfl⟩
  obtain ⟨hres₈, hdevice₈⟩ :=
    sdSendCmdR3_stream rx (length_sdCmdPrep 8 (0x01 <<< 8 ||| 0xAA)) resp r₀.2
  have hsent₈ := Sent.cmdR3 rx (sdCmdPrep 8 (0x01 <<< 8 ||| 0xAA)) resp r₀.2
  rw [← hr₈] at hres₈ hdevice₈ hsent₈
  rw [hdevice₀] at hres₈ hdevice₈
  rw [countP_cmd8.1, countP_cmd8.2] at hsent₈
  have hposition₈ : r₈.2.device = cmd58At rx b.device :=
    hdevice₈.trans (congrArg (nextAt rx (cmd8At rx b.device) + ·) (if_neg h.not_le))
  -- CMD58
  obtain ⟨r₅, hr₅⟩ : ∃ r, r = sdSendCmdR3 (stream rx) SD_READ_OCR r₈.1.2 r₈.2 := ⟨_, rfl⟩
  obtain ⟨hres₅, hdevice₅⟩ :=
    sdSendCmdR3_stream rx (show SD_READ_OCR.length = 6 from rfl) r₈.1.2 r₈.2
  have hsent₅ := Sent.cmdR3 rx SD_READ_OCR r₈.1.2 r₈.2
  rw [← hr₅] at hres₅ hdevice₅ hsent₅
  rw [hposition₈] at hres₅ hdevice₅
  rw [if_pos h.cmd58] at hdevice₅
  refine ⟨r₅.2, hdevice₅, ((hsent₁.trans hsent₀).trans hsent₈).trans hsent₅, ?_⟩
  have h₀ : ¬ r₀.1 &&& 0x01 = 0 := by
    rw [hres₀]
    exact h.cmd0
  have h₈ : ¬ r₈.1.1 &&& 0x01 = 0 := by
    rw [hres₈]
    exact h.cmd8
  have hversion : ¬ r₈.1.1 &&& 0x04 = 0 := by
    rw [hres₈]
    exact h.version
  have h₅ : ¬ r₅.1.1 > 1 := by
    rw [hres₅]
    exact BitVec.not_lt.mpr h.cmd58
  simp only [sdInit, bind_apply, ite_apply_bus, pure_apply, ← hb₁, ← hr₀, ← hr₈, ← hr₅, if_neg h₀,
    if_neg h₈, if_neg hversion, if_neg h₅, and_self]

def configured : Nat := cfg.initTimeoutMs / SD_ACMD41_RETRY_DELAY_MS

structure Retries (n p : Nat) (b b' : Bus Nat) (ret : Int) : Prop where
  success : ∀ k < n, IdleBefore rx p k → acmd41At rx p k = 0 →
    Sent b b' (k + 1) 1 ∧ (ret = 0 ↔ answerAt rx (attemptAt rx p (k + 1)) = 0)
  timeout : IdleBefore rx p n → Sent b b' n 0 ∧ ret = -ETIMEDOUT
  error : ∀ k < n, IdleBefore rx p k → acmd41At rx p k ≠ 0 → acmd41At rx p k ≠ 1 →
    ret = - AvrtosDefines.EIO

def InTime (n m p : Nat) : Prop :=
  ∃ k < n, IdleBefore rx p k ∧ acmd41At rx p k ≠ 1 ∧
    (acmd41At rx p k = 0 → k + 1 < m) ∧
    (acmd41At rx p k ≠ 0 → k < m ∨ answerAt rx (attemptAt rx p m) ≠ 0)

theorem attempts_le : attempts cfg ≤ configured cfg := Nat.mod_le _ _

theorem sdInitCard_retries_iff {b : Bus Nat} (h55 : Accepts rx b.device (attempts cfg)) :
    Retries rx (configured cfg) b.device b (sdInitCard (stream rx) cfg b).2
        (sdInitCard (stream rx) cfg b).1 ↔
      InTime rx (configured cfg) (attempts cfg) b.device := by
  have hle := attempts_le cfg
  constructor
  · intro h
    by_cases hall : IdleBefore rx b.device (configured cfg)
    · -- the countdown has wrapped and CMD16 is sent
      obtain ⟨-, hsent⟩ := sdInitCard_exhausted rx cfg b h55
        (hall.mono hle)
      have h16 := (h.timeout hall).1.cmd16
      rw [hsent.cmd16] at h16
      omega
    obtain ⟨k, hk, hidle, hne⟩ := exists_first hall
    have hexhausted : attempts cfg ≤ k → _ := fun hge =>
      sdInitCard_exhausted rx cfg b h55 (hidle.mono hge)
    refine ⟨k, hk, hidle, hne, fun hzero => ?_, fun hother => ?_⟩
    · have hsent := (h.success k hk hidle hzero).1
      rcases Nat.lt_trichotomy (k + 1) (attempts cfg) with hlt | heq | hgt
      · exact hlt
      · have h16 := (sdInitCard_last rx cfg heq b h55 hidle hzero).cmd16
        rw [hsent.cmd16] at h16
        omega
      · have h41 := (hexhausted (Nat.le_of_lt_succ hgt)).2.acmd41
        rw [hsent.acmd41] at h41
        omega
    · by_cases hlt : k < attempts cfg
      · exact Or.inl hlt
      · refine Or.inr fun hans => ?_
        have hret := h.error k hk hidle hother hne
        rw [(hexhausted (Nat.le_of_not_lt hlt)).1, (cmd16Ret_eq_zero_iff _).mpr hans] at hret
        exact absurd hret (by decide)
  · rintro ⟨k, hk, hidle, hne, hsuccess, herror⟩
    refine ⟨?_, fun hall => absurd (hall k hk) hne, ?_⟩
    · intro k' _ hidle' hzero
      obtain rfl := first_unique hidle hne hidle' (by
        rw [hzero]
        decide)
      obtain ⟨hret, hsent⟩ := sdInitCard_success rx cfg (hsuccess hzero) b h55 hidle hzero
      rw [hret]
      exact ⟨hsent, cmd16Ret_eq_zero_iff _⟩
    · intro k' _ hidle' hother hne'
      obtain rfl := first_unique hidle hne hidle' hne'
      by_cases hlt : k < attempts cfg
      · exact sdInitCard_error rx cfg hlt b h55 hidle hne hother
      · rw [(sdInitCard_exhausted rx cfg b h55 (hidle.mono (Nat.le_of_not_lt hlt))).1]
        exact if_pos ((herror hother).resolve_left hlt)

/-- **THE RETRIES OF `sd_init`** are right exactly when the card stops being idle in time. -/
theorem sdInit_retries_iff (b : Bus Nat) (resp : Nat → Byte) (hpass : Passes rx b.device)
    (h55 : Accepts rx (firstAttemptAt rx b.device) (attempts cfg)) :
    Retries rx (configured cfg) (firstAttemptAt rx b.device) b (sdInit (stream rx) cfg resp b).2
        (sdInit (stream rx) cfg resp b).1.1 ↔
      InTime rx (configured cfg) (attempts cfg) (firstAttemptAt rx b.device) := by
  obtain ⟨b', hdevice, hsent, hret, hbus⟩ := sdInit_passes rx cfg hpass resp
  rw [hret, hbus]
  rw [← hdevice] at h55 ⊢
  rw [← sdInitCard_retries_iff rx cfg h55]
  constructor
  · intro h
    refine ⟨fun k hk hidle hz => ?_, fun hall => ?_, h.error⟩
    · exact (h.success k hk hidle hz).imp_left hsent.skip.mp
    · exact (h.timeout hall).imp_left hsent.skip.mp
  · intro h
    refine ⟨fun k hk hidle hz => ?_, fun hall => ?_, h.error⟩
    · exact (h.success k hk hidle hz).imp_left hsent.skip.mpr
    · exact (h.timeout hall).imp_left hsent.skip.mpr

end Init

def readyCard : Nat → Byte := fun i => if i = 17 then 0x01 else if i = 25 then 0x05 else 0x00

theorem passes_readyCard : Passes readyCard 0 := ⟨by decide, by decide, by decide, by decide⟩

theorem accepts_readyCard (n : Nat) : Accepts readyCard (firstAttemptAt readyCard 0) n := by
  intro j _ hidle
  cases j with
  | zero => decide
  | succ j => exact absurd (hidle 0 (Nat.succ_pos j)) (by decide)

/-- The ready card with the default settings, ten attempts. -/
theorem sdInit_retries_iff_readyCard :
    configured defaults = 10 ∧
      (Retries readyCard 10 (firstAttemptAt readyCard 0) ⟨0, false, []⟩
          (sdInit (stream readyCard) defaults (fun _ => 0) ⟨0, false, []⟩).2
          (sdInit (stream readyCard) defaults (fun _ => 0) ⟨0, false, []⟩).1.1 ↔
        InTime readyCard 10 10 (firstAttemptAt readyCard 0)) :=
  ⟨rfl, sdInit_retries_iff readyCard defaults ⟨0, false, []⟩ (fun _ => 0) passes_readyCard
    (accepts_readyCard _)⟩

def idleCard : Nat → Byte := fun i => if i = 25 then 0x05 else if i = 61 then 0x00 else 0x01

/-- With one attempt, the ready card times out and the idle card is reported as initialised. -/
theorem sdInit_mistakes :
    (Passes readyCard 0 ∧ acmd41At readyCard (firstAttemptAt readyCard 0) 0 = 0 ∧
      (sdInit (stream readyCard) ⟨false, 100, 1000, 1000⟩ (fun _ => 0) ⟨0, false, []⟩).1.1 =
        -ETIMEDOUT) ∧
      Passes idleCard 0 ∧ acmd41At idleCard (firstAttemptAt idleCard 0) 0 = 1 ∧
      (sdInit (stream idleCard) ⟨false, 100, 1000, 1000⟩ (fun _ => 0) ⟨0, false, []⟩).1.1 = 0 ∧
      (sdInit (stream idleCard) ⟨false, 100, 1000, 1000⟩ (fun _ => 0)
        ⟨0, false, []⟩).2.sent isCmd16 = 1 := by
  refine ⟨⟨passes_readyCard, by decide, by decide +kernel⟩, ?_, by decide, ?_⟩
  · exact ⟨by decide, by decide, by decide, by decide⟩
  · decide +kernel

end AvrtosSd
