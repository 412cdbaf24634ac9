import Avrtos.Base.DoWhile
import Avrtos.Base.Runs
import Avrtos.Base.Twi
import Avrtos.Defines

/-! # The I2C driver (`drivers/i2c.c`)

    A transfer is a state machine: one lemma for each report of the interface. -/

namespace AvrtosI2c

open AvrtosDefines Twi

/-- The settings of the driver. -/
structure I2cConfig where
  /-- `CONFIG_I2C_MAX_BUF_LEN_BITS` -/
  maxBufLenBits : Nat
  /-- `CONFIG_I2C_INTERRUPT_DRIVEN` -/
  interruptDriven : Bool
  /-- `CONFIG_I2C_BLOCKING` -/
  blocking : Bool
  /-- `CONFIG_I2C_LAST_ERROR` -/
  lastError : Bool
  /-- `CONFIG_KERNEL_ARGS_CHECKS` -/
  argsChecks : Bool
  deriving DecidableEq, Repr

/-- `I2C_MAX_BUF_LEN` -/
def I2cConfig.maxBufLen (cfg : I2cConfig) : Nat := 2 ^ cfg.maxBufLenBits - 1

/-- `i2c_state_t` -/
inductive I2cState
  | uninitialized
  | ready
  | masterTx
  | masterRx
  deriving DecidableEq, Repr

/-- `i2c_error_t` -/
inductive I2cError
  | none
  | bus
  | addr
  | data
  | args
  deriving DecidableEq, Repr

/-- `struct i2c_context`. -/
structure Context (cfg : I2cConfig) where
  buf : Nat → Byte
  slaW : Byte
  cursor : BitVec cfg.maxBufLenBits
  state : I2cState
  writeLen : BitVec cfg.maxBufLenBits
  readLen : BitVec cfg.maxBufLenBits
  error : I2cError

inductive Action
  | write (r : Reg) (v : Byte)
  | store (i : Nat) (v : Byte)
  deriving DecidableEq, Repr

variable (cfg : I2cConfig)

/-- `set_error`. -/
def setError (x : Context cfg) (err : I2cError) : Context cfg :=
  if cfg.lastError then { x with error := err } else x

/-- `get_error` -/
def getError (x : Context cfg) : I2cError := if cfg.lastError then x.error else .none

/-- `TWI_INT_MASK` -/
def twiIntMask : Byte := if cfg.interruptDriven then bit TWIE else 0

/-- `TWI_ENABLE_MASK` -/
def twiEnableMask : Byte := bit TWINT ||| bit TWEN ||| twiIntMask cfg

/-- `TWI_START` -/
def twiStart : Action := .write .twcr (twiEnableMask cfg ||| bit TWSTA)

/-- `TWI_STOP` -/
def twiStop : Action := .write .twcr (twiEnableMask cfg ||| bit TWSTO)

/-- `TWI_REPLY` -/
def twiReply (ack : Bool) : Action :=
  .write .twcr (twiEnableMask cfg ||| if ack then bit TWEA else 0)

/-- `TW_WRITE` -/
def TW_WRITE : Byte := 0

/-- `TW_READ` -/
def TW_READ : Byte := 1

/-- `transfer_stop` -/
def transferStop (x : Context cfg) : List Action × Context cfg :=
  ([twiStop cfg], { x with state := .ready })

def mtSlaAck (x : Context cfg) : List Action × Context cfg :=
  if x.cursor < x.writeLen then
    ([.write .twdr (x.buf x.cursor.toNat), twiReply cfg true],
      { x with cursor := x.cursor + 1 })
  else if x.readLen ≠ 0 then
    -- switch to reception
    ([twiStart cfg],
      { x with
        state := .masterRx
        cursor := 0
        slaW := (x.slaW &&& ~~~TW_WRITE) ||| TW_READ })
  else transferStop cfg x

def mrSlaAck (x : Context cfg) : List Action × Context cfg :=
  ([twiReply cfg (decide ((x.readLen.toNat : Int) - x.cursor.toNat > 1))], x)

/-- `x->buf[x->cursor++] = v` -/
def Context.storeByte {cfg : I2cConfig} (x : Context cfg) (v : Byte) : Context cfg :=
  { x with
    buf := Function.update x.buf x.cursor.toNat v
    cursor := x.cursor + 1 }

/-- `i2c_state_machine`, on what the status and data registers hold. -/
def i2cStateMachine (twsr twdr : Byte) (x : Context cfg) : List Action × Context cfg :=
  match Status.ofCode (twsr &&& TW_STATUS_MASK) with
  | some .start | some .repStart => ([.write .twdr x.slaW, twiReply cfg true], x)
  | some .mtDataAck => mtSlaAck cfg { x with cursor := x.cursor + 1 }
  | some .mtSlaAck => mtSlaAck cfg x
  | some .mrDataAck =>
      let r := mrSlaAck cfg (x.storeByte twdr)
      (.store x.cursor.toNat twdr :: r.1, r.2)
  | some .mrSlaAck => mrSlaAck cfg x
  | some .mrDataNack =>
      let r := transferStop cfg (x.storeByte twdr)
      (.store x.cursor.toNat twdr :: r.1, r.2)
  | some .mtSlaNack => transferStop cfg (setError cfg x .addr)
  | some .mtDataNack => transferStop cfg (setError cfg x .data)
  | some .arbLost => ([twiStart cfg], x)
  | some .mrSlaNack => transferStop cfg (setError cfg x .addr)
  | some .noInfo | some .busError | none => transferStop cfg (setError cfg x .bus)

/-- A device. -/
structure I2cDevice where
  twi : Interface
  ctx : Context cfg
  stores : List (Nat × Byte)

variable {cfg}

def I2cDevice.perform (d : I2cDevice cfg) : Action → I2cDevice cfg
  | .write r v => { d with twi := d.twi.write r v }
  | .store i v => { d with stores := d.stores ++ [(i, v)] }

def I2cDevice.carryOut (d : I2cDevice cfg) (r : List Action × Context cfg) : I2cDevice cfg :=
  r.1.foldl I2cDevice.perform { d with ctx := r.2 }

def I2cDevice.serve (d : I2cDevice cfg) : I2cDevice cfg :=
  d.carryOut (i2cStateMachine cfg d.twi.twsr d.twi.twdr d.ctx)

/-- `poll_irq`. -/
def pollIrq (d : I2cDevice cfg) : Option (I2cDevice cfg) := if d.twi.twint then some d else none

def round (d : I2cDevice cfg) : Option (I2cDevice cfg) := (pollIrq d).map I2cDevice.serve

def busy (d : I2cDevice cfg) : Bool := decide (d.ctx.state ≠ .ready)

/-- `i2c_state_machine_loop`, at most `fuel` rounds of it. -/
def i2cStateMachineLoop (fuel : Nat) (d : I2cDevice cfg) : Option (I2cDevice cfg) :=
  DoWhile.loop round busy fuel d

/-- `poll_end`, with nobody to change the state while it waits. -/
def pollEnd (d : I2cDevice cfg) : Option (I2cDevice cfg) := if busy d then none else some d

variable (cfg)

def startContext (x : Context cfg) (addr : Byte) (data : Nat → Byte) (wLen rLen : Byte) :
    Context cfg :=
  setError cfg
    { x with
      slaW := (addr <<< 1) ||| if wLen = 0 then TW_READ else TW_WRITE
      state := if wLen = 0 then .masterRx else .masterTx
      buf := data
      writeLen := wLen.setWidth cfg.maxBufLenBits
      readLen := rLen.setWidth cfg.maxBufLenBits
      cursor := 0 } .none

/-- `i2c_run` up to its `TWI_START`. -/
def i2cStart (x : Context cfg) (addr : Byte) (data : Nat → Byte) (wLen rLen : Byte) :
    Except Int (List Action × Context cfg) :=
  if zUser cfg.argsChecks
      (decide (wLen.toNat ≤ cfg.maxBufLen) && decide (rLen.toNat ≤ cfg.maxBufLen)) = false then
    .error (-EINVAL)
  else if x.state ≠ .ready then .error (-EBUSY)
  else .ok ([twiStart cfg], startContext cfg x addr data wLen rLen)

def i2cResult (x : Context cfg) : Int := if getError cfg x ≠ .none then - AvrtosDefines.EIO else 0

variable {cfg}

/-- `i2c_run`, with at most `fuel` rounds of the polled loop. -/
def i2cRun (fuel : Nat) (d : I2cDevice cfg) (addr : Byte) (data : Nat → Byte)
    (wLen rLen : Byte) : Option (Int × I2cDevice cfg) :=
  match i2cStart cfg d.ctx addr data wLen rLen with
  | .error err => some (err, d)
  | .ok r =>
      if cfg.interruptDriven = false then
        (i2cStateMachineLoop fuel (d.carryOut r)).map fun d => (i2cResult cfg d.ctx, d)
      else if cfg.blocking then
        (pollEnd (d.carryOut r)).map fun d => (i2cResult cfg d.ctx, d)
      else some (0, d.carryOut r)

/-- `i2c_master_write` -/
def i2cMasterWrite (fuel : Nat) (d : I2cDevice cfg) (addr : Byte) (data : Nat → Byte)
    (len : Byte) : Option (Int × I2cDevice cfg) :=
  i2cRun fuel d addr data len 0

/-- `i2c_master_read` -/
def i2cMasterRead (fuel : Nat) (d : I2cDevice cfg) (addr : Byte) (data : Nat → Byte)
    (len : Byte) : Option (Int × I2cDevice cfg) :=
  i2cRun fuel d addr data 0 len

/-- `i2c_last_error` -/
def i2cLastError (d : I2cDevice cfg) : I2cError := getError cfg d.ctx

/-- `struct i2c_config`. -/
structure I2cTiming where
  prescaler : BitVec 2
  twbr : Byte

/-- `i2c_init`, without the pins and the power reduction register. -/
def i2cInit (d : I2cDevice cfg) (config : I2cTiming) : I2cDevice cfg :=
  d.carryOut
    ([.write .twcr 0, .write .twsr (config.prescaler.setWidth 8), .write .twbr config.twbr,
      .write .twar 0, .write .twamr 0, .write .twcr (bit TWINT ||| bit TWEN)],
      { d.ctx with state := .ready })

/-- `i2c_deinit`, without the pins. -/
def i2cDeinit (d : I2cDevice cfg) : Int × I2cDevice cfg :=
  if busy d then (-EBUSY, d)
  else
    (0, d.carryOut
      ([.write .twcr 0, .write .twbr 0, .write .twsr 0, .write .twar 2, .write .twdr 1,
        .write .twamr 0],
        { d.ctx with state := .uninitialized }))

variable {d e : I2cDevice cfg}

theorem perform_twiStart (d : I2cDevice cfg) :
    d.perform (twiStart cfg) = { d with twi := d.twi.start } := by
  unfold twiStart twiEnableMask twiIntMask
  cases cfg.interruptDriven <;> rfl

theorem perform_twiStop (d : I2cDevice cfg) :
    d.perform (twiStop cfg) = { d with twi := d.twi.stop } := by
  unfold twiStop twiEnableMask twiIntMask
  cases cfg.interruptDriven <;> rfl

theorem perform_twiReply (d : I2cDevice cfg) (ack : Bool) :
    d.perform (twiReply cfg ack) = { d with twi := d.twi.proceed ack } := by
  unfold twiReply twiEnableMask twiIntMask
  cases cfg.interruptDriven <;> cases ack <;> rfl

theorem serve_of_status {s : Status} (h : d.twi.status = some s) :
    d.serve = d.carryOut (i2cStateMachine cfg s.code d.twi.twdr d.ctx) := by
  have hcode : Status.ofCode (s.code &&& TW_STATUS_MASK) = some s := by
    rw [Status.code_and_mask, Status.ofCode_code]
  unfold I2cDevice.serve i2cStateMachine
  rw [hcode, show Status.ofCode (d.twi.twsr &&& TW_STATUS_MASK) = some s from h]

theorem serve_started (h : d.twi.status = some .start ∨ d.twi.status = some .repStart) :
    d.serve = { d with twi := Interface.proceed { d.twi with twdr := d.ctx.slaW } true } := by
  rcases h with h | h <;> rw [serve_of_status h] <;> exact perform_twiReply _ true

theorem serve_arbLost (h : d.twi.status = some .arbLost) :
    d.serve = { d with twi := d.twi.start } := by
  rw [serve_of_status h]
  exact perform_twiStart _

theorem carryOut_transferStop (d : I2cDevice cfg) (x : Context cfg) :
    d.carryOut (transferStop cfg x) =
      { d with ctx := { x with state := .ready }, twi := d.twi.stop } :=
  perform_twiStop _

theorem carryOut_mtSlaAck_of_lt (d : I2cDevice cfg) {x : Context cfg}
    (h : x.cursor < x.writeLen) :
    d.carryOut (mtSlaAck cfg x) =
      { d with
        ctx := { x with cursor := x.cursor + 1 }
        twi := Interface.proceed { d.twi with twdr := x.buf x.cursor.toNat } true } := by
  rw [mtSlaAck, if_pos h]
  exact perform_twiReply _ true

theorem carryOut_mtSlaAck_of_le (d : I2cDevice cfg) {x : Context cfg}
    (h : ¬ x.cursor < x.writeLen) (hread : x.readLen = 0) :
    d.carryOut (mtSlaAck cfg x) =
      { d with ctx := { x with state := .ready }, twi := d.twi.stop } := by
  rw [mtSlaAck, if_neg h, if_neg (not_not.mpr hread)]
  exact perform_twiStop _

theorem serve_mtSlaAck (h : d.twi.status = some .mtSlaAck) :
    d.serve = d.carryOut (mtSlaAck cfg d.ctx) :=
  serve_of_status h

theorem serve_mtDataAck (h : d.twi.status = some .mtDataAck) :
    d.serve = d.carryOut (mtSlaAck cfg { d.ctx with cursor := d.ctx.cursor + 1 }) :=
  serve_of_status h

def Context.more (x : Context cfg) : Bool :=
  decide ((x.readLen.toNat : Int) - x.cursor.toNat > 1)

theorem serve_mrSlaAck (h : d.twi.status = some .mrSlaAck) :
    d.serve = { d with twi := d.twi.proceed d.ctx.more } := by
  rw [serve_of_status h]
  exact perform_twiReply _ _

theorem serve_mrDataAck (h : d.twi.status = some .mrDataAck) : d.serve =
      { twi := d.twi.proceed (d.ctx.storeByte d.twi.twdr).more
        ctx := d.ctx.storeByte d.twi.twdr
        stores := d.stores ++ [(d.ctx.cursor.toNat, d.twi.twdr)] } := by
  rw [serve_of_status h]
  exact perform_twiReply _ _

theorem serve_mrDataNack (h : d.twi.status = some .mrDataNack) : d.serve =
      { twi := d.twi.stop
        ctx := { d.ctx.storeByte d.twi.twdr with state := .ready }
        stores := d.stores ++ [(d.ctx.cursor.toNat, d.twi.twdr)] } := by
  rw [serve_of_status h]
  exact perform_twiStop _

inductive Answers (x : Context cfg) : List Action × Context cfg → Prop
  | stop (acts : List Action) (y : Context cfg) : y.state = .ready →
      Answers x (acts ++ [twiStop cfg], y)
  | goOn (acts : List Action) (v : Byte) (y : Context cfg) :
      y.state = x.state ∨ y.state = .masterRx → Answers x (acts ++ [.write .twcr v], y)

theorem answers_transferStop (x y : Context cfg) : Answers x (transferStop cfg y) := .stop [] _ rfl

theorem answers_mtSlaAck (x : Context cfg) (y : Context cfg) (h : y.state = x.state) :
    Answers x (mtSlaAck cfg y) := by
  unfold mtSlaAck
  split
  · exact .goOn [_] _ _ (Or.inl h)
  · split
    · exact .goOn [] _ _ (Or.inr rfl)
    · exact answers_transferStop x y

theorem i2cStateMachine_answers (twsr twdr : Byte) (x : Context cfg) :
    Answers x (i2cStateMachine cfg twsr twdr x) := by
  unfold i2cStateMachine
  split
  · exact .goOn [_] _ _ (Or.inl rfl)
  · exact .goOn [_] _ _ (Or.inl rfl)
  · exact answers_mtSlaAck x _ rfl
  · exact answers_mtSlaAck x _ rfl
  · exact .goOn [_] _ _ (Or.inl rfl)
  · exact .goOn [] _ _ (Or.inl rfl)
  · exact .stop [_] _ rfl
  · exact answers_transferStop x _
  · exact answers_transferStop x _
  · exact .goOn [] _ _ (Or.inl rfl)
  all_goals exact answers_transferStop x _

theorem perform_ctx (d : I2cDevice cfg) (a : Action) : (d.perform a).ctx = d.ctx := by
  cases a <;> rfl

theorem foldl_perform_ctx (acts : List Action) (d : I2cDevice cfg) :
    (acts.foldl I2cDevice.perform d).ctx = d.ctx := by
  induction acts generalizing d with
  | nil => rfl
  | cons a acts ih => exact (ih _).trans (perform_ctx d a)

theorem carryOut_ctx (d : I2cDevice cfg) (r : List Action × Context cfg) :
    (d.carryOut r).ctx = r.2 :=
  foldl_perform_ctx r.1 _

theorem serve_idle (hbusy : d.ctx.state = .masterTx ∨ d.ctx.state = .masterRx)
    (hready : d.serve.ctx.state = .ready) : d.serve.twi.phase = .idle := by
  unfold I2cDevice.serve at hready ⊢
  rw [carryOut_ctx] at hready
  generalize hr : i2cStateMachine cfg d.twi.twsr d.twi.twdr d.ctx = r at hready ⊢
  have hans : Answers d.ctx r := hr ▸ i2cStateMachine_answers d.twi.twsr d.twi.twdr d.ctx
  cases hans with
  | stop acts y _ =>
    rw [I2cDevice.carryOut, List.foldl_append]
    exact congrArg (fun d : I2cDevice cfg => d.twi.phase) (perform_twiStop _)
  | goOn acts v y hstate =>
    have hy : y.state = .ready := hready
    grind

theorem serve_busy (hbusy : d.ctx.state = .masterTx ∨ d.ctx.state = .masterRx)
    (hready : d.serve.ctx.state ≠ .ready) :
    d.serve.ctx.state = .masterTx ∨ d.serve.ctx.state = .masterRx := by
  unfold I2cDevice.serve at hready ⊢
  rw [carryOut_ctx] at hready ⊢
  generalize hr : i2cStateMachine cfg d.twi.twsr d.twi.twdr d.ctx = r at hready ⊢
  have hans : Answers d.ctx r := hr ▸ i2cStateMachine_answers d.twi.twsr d.twi.twdr d.ctx
  cases hans with
  | stop acts y hy => exact absurd hy hready
  | goOn acts v y hstate =>
    have hy : y.state = d.ctx.state ∨ y.state = .masterRx := hstate
    show y.state = .masterTx ∨ y.state = .masterRx
    grind

def Ends (d e : I2cDevice cfg) : Prop := DoWhile.Ends round busy d e

theorem round_eq (h : d.twi.twint = true) : round d = some d.serve := by
  rw [round, pollIrq, if_pos h]
  rfl

theorem ends_iff_serve (hint : d.twi.twint = true) (hbusy : d.serve.ctx.state ≠ .ready) :
    Ends d e ↔ Ends d.serve e :=
  DoWhile.ends_iff_of_again (round_eq hint) (decide_eq_true hbusy)

theorem ends_iff_eq (hint : d.twi.twint = true) (hready : d.serve.ctx.state = .ready) :
    Ends d e ↔ e = d.serve :=
  DoWhile.ends_iff_of_done (round_eq hint) (decide_eq_false (not_not.mpr hready))

theorem round_cases (h : round d = some e) : d.twi.twint = true ∧ e = d.serve := by
  obtain ⟨d', hd', hserve⟩ := Option.map_eq_some_iff.mp h
  unfold pollIrq at hd'
  split at hd'
  · rename_i hint
    exact ⟨hint, by rw [← hserve, ← Option.some.inj hd']⟩
  · exact absurd hd'.symm (Option.some_ne_none d')

theorem Ends.released (h : Ends d e) (hbusy : d.ctx.state = .masterTx ∨ d.ctx.state = .masterRx) :
    e.ctx.state = .ready ∧ e.twi.phase = .idle := by
  refine DoWhile.Ends.induct (I := fun d => d.ctx.state = .masterTx ∨ d.ctx.state = .masterRx)
    (Q := fun e => e.ctx.state = .ready ∧ e.twi.phase = .idle) h hbusy ?_ ?_
  · intro s m hs hm hagain
    rw [(round_cases hm).2] at hagain ⊢
    exact serve_busy hs (of_decide_eq_true hagain)
  · intro s m hs hm hdone
    rw [(round_cases hm).2] at hdone ⊢
    have hready : s.serve.ctx.state = .ready := not_not.mp (of_decide_eq_false hdone)
    exact ⟨hready, serve_idle hs hready⟩

theorem toNat_succ {w : Nat} (c : BitVec w) :
    (c + 1).toNat = if c.toNat + 1 = 2 ^ w then 0 else c.toNat + 1 := by
  have hc := c.isLt
  rcases Nat.eq_zero_or_pos w with hw | hw
  · subst hw
    simp [BitVec.eq_nil c]
  · have hone : (1 : BitVec w).toNat = 1 := by simpa using hw
    rw [BitVec.toNat_add, hone]
    by_cases heq : c.toNat + 1 = 2 ^ w
    · rw [if_pos heq, heq, Nat.mod_self]
    · rw [if_neg heq]
      exact Nat.mod_eq_of_lt (by omega)

theorem toNat_setWidth_len {len : Byte} (hmax : len.toNat ≤ cfg.maxBufLen) :
    (len.setWidth cfg.maxBufLenBits).toNat = len.toNat := by
  have hpow : 0 < 2 ^ cfg.maxBufLenBits := Nat.two_pow_pos _
  have hlt : len.toNat < 2 ^ cfg.maxBufLenBits := by
    unfold I2cConfig.maxBufLen at hmax
    omega
  exact (BitVec.toNat_setWidth _ _).trans (Nat.mod_eq_of_lt hlt)

theorem startContext_eq (x : Context cfg) (addr : Byte) (data : Nat → Byte) (wLen rLen : Byte) :
    startContext cfg x addr data wLen rLen =
      { buf := data
        slaW := (addr <<< 1) ||| if wLen = 0 then TW_READ else TW_WRITE
        cursor := 0
        state := if wLen = 0 then .masterRx else .masterTx
        writeLen := wLen.setWidth cfg.maxBufLenBits
        readLen := rLen.setWidth cfg.maxBufLenBits
        error := if cfg.lastError then .none else x.error } := by
  unfold startContext setError
  split <;> rfl

theorem getError_startContext (x : Context cfg) (addr : Byte) (data : Nat → Byte)
    (wLen rLen : Byte) : getError cfg (startContext cfg x addr data wLen rLen) = .none := by
  rw [startContext_eq, getError]
  split <;> rfl

theorem i2cStart_ok {x : Context cfg} {addr : Byte} {data : Nat → Byte} {wLen rLen : Byte}
    (hready : x.state = .ready) (hw : wLen.toNat ≤ cfg.maxBufLen)
    (hr : rLen.toNat ≤ cfg.maxBufLen) :
    i2cStart cfg x addr data wLen rLen =
      .ok ([twiStart cfg], startContext cfg x addr data wLen rLen) := by
  have huser : zUser cfg.argsChecks
      (decide (wLen.toNat ≤ cfg.maxBufLen) && decide (rLen.toNat ≤ cfg.maxBufLen)) = true := by
    simp [zUser, hw, hr]
  rw [i2cStart, if_neg (by simp [huser]), if_neg (not_not.mpr hready)]

theorem run_returns_iff {addr : Byte} {data : Nat → Byte} {wLen rLen : Byte} {v : Int}
    {r : List Action × Context cfg} (hpolled : cfg.interruptDriven = false)
    (hstart : i2cStart cfg d.ctx addr data wLen rLen = .ok r) :
    (∃ fuel, i2cRun fuel d addr data wLen rLen = some (v, e)) ↔
      Ends (d.carryOut r) e ∧ v = i2cResult cfg e.ctx := by
  have hrun : ∀ fuel, i2cRun fuel d addr data wLen rLen =
      (i2cStateMachineLoop fuel (d.carryOut r)).map fun d => (i2cResult cfg d.ctx, d) := by
    intro fuel
    rw [i2cRun, hstart]
    exact if_pos hpolled
  constructor
  · rintro ⟨fuel, h⟩
    rw [hrun] at h
    obtain ⟨e', he', hpair⟩ := Option.map_eq_some_iff.mp h
    have hv : i2cResult cfg e'.ctx = v := congrArg Prod.fst hpair
    have hd : e' = e := congrArg Prod.snd hpair
    rw [hd] at hv he'
    exact ⟨⟨fuel, he'⟩, hv.symm⟩
  · rintro ⟨⟨fuel, h⟩, hv⟩
    refine ⟨fuel, ?_⟩
    rw [hrun, show i2cStateMachineLoop fuel (d.carryOut r) = some e from h, hv]
    rfl

theorem i2cStart_cases (x : Context cfg) (addr : Byte) (data : Nat → Byte) (wLen rLen : Byte) :
    (∃ err, i2cStart cfg x addr data wLen rLen = .error err) ∨
      ∃ r, i2cStart cfg x addr data wLen rLen = .ok r ∧
        (r.2.state = .masterTx ∨ r.2.state = .masterRx) := by
  unfold i2cStart
  split
  · exact Or.inl ⟨_, rfl⟩
  · split
    · exact Or.inl ⟨_, rfl⟩
    · refine Or.inr ⟨_, rfl, ?_⟩
      rw [startContext_eq]
      by_cases hw : wLen = 0
      · exact Or.inr (if_pos hw)
      · exact Or.inl (if_neg hw)

def AtRest (d : I2cDevice cfg) : Prop :=
  (d.ctx.state = .uninitialized ∨ d.ctx.state = .ready) ∧ d.twi.phase = .idle

inductive I2cOp
  | init (config : I2cTiming)
  | deinit
  | transfer (fuel : Nat) (addr : Byte) (data : Nat → Byte) (wLen rLen : Byte)

/-- A call that returns. -/
def I2cOp.Ok (d : I2cDevice cfg) : I2cOp → Prop
  | .transfer fuel addr data wLen rLen => (i2cRun fuel d addr data wLen rLen).isSome
  | _ => True

def I2cOp.run (d : I2cDevice cfg) : I2cOp → I2cDevice cfg
  | .init config => i2cInit d config
  | .deinit => (i2cDeinit d).2
  | .transfer fuel addr data wLen rLen =>
      ((i2cRun fuel d addr data wLen rLen).map Prod.snd).getD d

theorem AtRest.transfer (hpolled : cfg.interruptDriven = false) (hrest : AtRest d)
    {fuel : Nat} {addr : Byte} {data : Nat → Byte} {wLen rLen : Byte} {v : Int}
    (h : i2cRun fuel d addr data wLen rLen = some (v, e)) : AtRest e := by
  rcases i2cStart_cases d.ctx addr data wLen rLen with ⟨err, hstart⟩ | ⟨r, hstart, hbusy⟩
  · rw [i2cRun, hstart] at h
    have he : d = e := congrArg Prod.snd (Option.some.inj h)
    exact he ▸ hrest
  · obtain ⟨hends, -⟩ := (run_returns_iff hpolled hstart).mp ⟨fuel, h⟩
    obtain ⟨hready, hidle⟩ := hends.released (by rwa [carryOut_ctx])
    exact ⟨Or.inr hready, hidle⟩

/-- **BETWEEN CALLS THE BUS IS FREE**: in the polled build, after any sequence
    of calls that return, whatever the bus has answered in them. -/
theorem device_at_rest (hpolled : cfg.interruptDriven = false)
    (h : Runs.Reach AtRest I2cOp.Ok I2cOp.run d) : AtRest d := by
  refine h.invariant (fun _ h => h) ?_
  intro d op hrest hok
  cases op with
  | init config => exact ⟨Or.inr rfl, rfl⟩
  | deinit =>
    show AtRest (i2cDeinit d).2
    unfold i2cDeinit
    split
    · exact hrest
    · exact ⟨Or.inl rfl, rfl⟩
  | transfer fuel addr data wLen rLen =>
    obtain ⟨⟨v, e⟩, he⟩ := Option.isSome_iff_exists.mp hok
    show AtRest (((i2cRun fuel d addr data wLen rLen).map Prod.snd).getD d)
    rw [he]
    exact hrest.transfer hpolled he

def polledConfig : I2cConfig where
  maxBufLenBits := 3
  interruptDriven := false
  blocking := true
  lastError := true
  argsChecks := true

def readyDevice (cfg : I2cConfig) (plan : List Reply) (stream : Nat → Byte) : I2cDevice cfg where
  twi :=
    { twsr := 0xF8
      twdr := 0xFF
      twint := false
      phase := .idle
      plan := plan
      stream := stream
      taken := 0
      bus := [] }
  ctx :=
    { buf := fun _ => 0
      slaW := 0
      cursor := 0
      state := .ready
      writeLen := 0
      readLen := 0
      error := .none }
  stores := []

/-- After a write whose address nobody acknowledges. -/
theorem device_at_rest_nack :
    let d := I2cOp.run (readyDevice polledConfig [.nack] fun _ => 0) (.transfer 9 80 (fun _ => 0) 1 0)
    Runs.Reach AtRest I2cOp.Ok I2cOp.run d ∧ AtRest d := by
  intro d
  have hreach : Runs.Reach AtRest I2cOp.Ok I2cOp.run d :=
    .step _ (.start ⟨Or.inr rfl, rfl⟩) rfl
  exact ⟨hreach, device_at_rest rfl hreach⟩

end AvrtosI2c
