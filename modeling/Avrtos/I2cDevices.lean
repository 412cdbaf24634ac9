import Avrtos.I2c

/-! # Two I2C devices

    The vector of the second device hands the registers of the FIRST one to the state machine. -/

namespace AvrtosI2c

open Function List Twi

variable {cfg : I2cConfig}

/-- `I2C0_DEVICE`, `I2C1_DEVICE` -/
inductive DevId
  | i2c0
  | i2c1
  deriving DecidableEq, Repr

/-- The two devices. -/
structure Devices (cfg : I2cConfig) where
  twsr : DevId → Byte
  twdr : DevId → Byte
  writes : DevId → List (Reg × Byte)
  ctx : DevId → Context cfg
  stores : DevId → List (Nat × Byte)

def Devices.perform (dev x : DevId) (s : Devices cfg) : Action → Devices cfg
  | .write r v =>
      { s with
        twdr := if r = .twdr then update s.twdr dev v else s.twdr
        writes := update s.writes dev (s.writes dev ++ [(r, v)]) }
  | .store i v => { s with stores := update s.stores x (s.stores x ++ [(i, v)]) }

def Devices.carryOut (dev x : DevId) (s : Devices cfg) (r : List Action × Context cfg) :
    Devices cfg :=
  r.1.foldl (Devices.perform dev x) { s with ctx := update s.ctx x r.2 }

/-- `i2c_state_machine(dev, x)` -/
def Devices.stateMachine (dev x : DevId) (s : Devices cfg) : Devices cfg :=
  s.carryOut dev x (i2cStateMachine cfg (s.twsr dev) (s.twdr dev) (s.ctx x))

/-- `ISR(TWI0_vect)` -/
def twi0Vect (s : Devices cfg) : Devices cfg := s.stateMachine .i2c0 .i2c0

/-- `ISR(TWI1_vect)` -/
def twi1Vect (s : Devices cfg) : Devices cfg := s.stateMachine .i2c0 .i2c1

def DevId.vect : DevId → Devices cfg → Devices cfg
  | .i2c0 => twi0Vect
  | .i2c1 => twi1Vect

inductive DevOp
  | run (dev : DevId) (addr : Byte) (data : Nat → Byte) (wLen rLen : Byte)
  | interrupt (dev : DevId) (twsr twdr : Byte)

def DevOp.dev : DevOp → DevId
  | .run dev _ _ _ _ => dev
  | .interrupt dev _ _ => dev

/-- `i2c_run` up to the wait for the end of the transfer, which changes
    nothing, or the vector of the interrupt. -/
def DevOp.exec (s : Devices cfg) : DevOp → Devices cfg
  | .run dev addr data wLen rLen =>
      match i2cStart cfg (s.ctx dev) addr data wLen rLen with
      | .error _ => s
      | .ok r => s.carryOut dev dev r
  | .interrupt dev twsr twdr =>
      dev.vect
        { s with
          twsr := update s.twsr dev twsr
          twdr := update s.twdr dev twdr }

def DevOp.isTwi1 : DevOp → Bool
  | .interrupt .i2c1 _ _ => true
  | _ => false

def alone (dev : DevId) (ops : List DevOp) : List DevOp :=
  ops.filter fun op => decide (op.dev = dev)

def Action.asWrite : Action → Option (Reg × Byte)
  | .write r v => some (r, v)
  | .store _ _ => none

/-- The stores among them. -/
def Action.asStore : Action → Option (Nat × Byte)
  | .write _ _ => none
  | .store i v => some (i, v)

def Devices.view (dev : DevId) (s : Devices cfg) :
    Context cfg × List (Reg × Byte) × List (Nat × Byte) :=
  (s.ctx dev, s.writes dev, s.stores dev)

variable {s s' : Devices cfg} {dev x d : DevId}

theorem foldl_perform_devices (dev x : DevId) (acts : List Action) (s : Devices cfg) :
    (acts.foldl (Devices.perform dev x) s).ctx = s.ctx ∧
      (acts.foldl (Devices.perform dev x) s).writes =
        update s.writes dev (s.writes dev ++ acts.filterMap Action.asWrite) ∧
      (acts.foldl (Devices.perform dev x) s).stores =
        update s.stores x (s.stores x ++ acts.filterMap Action.asStore) := by
  induction acts generalizing s with
  | nil => simp
  | cons a acts ih =>
    obtain ⟨hctx, hwrites, hstores⟩ := ih (s.perform dev x a)
    rw [foldl_cons, hctx, hwrites, hstores]
    cases a with
    | write r v => simp [Devices.perform, Action.asWrite, Action.asStore, filterMap_cons]
    | store i v => simp [Devices.perform, Action.asWrite, Action.asStore, filterMap_cons]

theorem view_carryOut_self (r : List Action × Context cfg) : (s.carryOut dev dev r).view dev =
      (r.2, s.writes dev ++ r.1.filterMap Action.asWrite,
        s.stores dev ++ r.1.filterMap Action.asStore) := by
  obtain ⟨hctx, hwrites, hstores⟩ := foldl_perform_devices dev dev r.1
    { s with ctx := update s.ctx dev r.2 }
  rw [Devices.view, Devices.carryOut, hctx, hwrites, hstores]
  simp

theorem view_carryOut_of_ne (hd : d ≠ dev) (r : List Action × Context cfg) :
    (s.carryOut dev dev r).view d = s.view d := by
  obtain ⟨hctx, hwrites, hstores⟩ := foldl_perform_devices dev dev r.1
    { s with ctx := update s.ctx dev r.2 }
  rw [Devices.view, Devices.carryOut, hctx, hwrites, hstores]
  simp [Devices.view, hd]

def DevOp.answer (x : Context cfg) : DevOp → Option (List Action × Context cfg)
  | .run _ addr data wLen rLen => (i2cStart cfg x addr data wLen rLen).toOption
  | .interrupt _ twsr twdr => some (i2cStateMachine cfg twsr twdr x)

def DevOp.arrive (s : Devices cfg) : DevOp → Devices cfg
  | .run _ _ _ _ _ => s
  | .interrupt dev twsr twdr =>
      { s with
        twsr := update s.twsr dev twsr
        twdr := update s.twdr dev twdr }

theorem view_arrive (op : DevOp) : (op.arrive s).view d = s.view d := by
  cases op <;> rfl

theorem exec_eq {op : DevOp} (hop : op.isTwi1 = false) (s : Devices cfg) :
    op.exec s = ((op.answer (s.ctx op.dev)).map ((op.arrive s).carryOut op.dev op.dev)).getD s := by
  cases op with
  | run dev addr data wLen rLen =>
    simp only [DevOp.exec, DevOp.answer, DevOp.dev, DevOp.arrive]
    cases i2cStart cfg (s.ctx dev) addr data wLen rLen <;> rfl
  | interrupt dev twsr twdr =>
    cases dev with
    | i2c0 =>
      simp [DevOp.exec, DevId.vect, twi0Vect, Devices.stateMachine, DevOp.answer,
        DevOp.dev, DevOp.arrive]
    | i2c1 => exact Bool.noConfusion hop

theorem view_exec_of_ne {op : DevOp} (hop : op.isTwi1 = false) (hd : op.dev ≠ d)
    (s : Devices cfg) : (op.exec s).view d = s.view d := by
  rw [exec_eq hop]
  cases op.answer (s.ctx op.dev) with
  | none => rfl
  | some r => exact (view_carryOut_of_ne hd.symm r).trans (view_arrive op)

theorem view_exec_self {op : DevOp} (hop : op.isTwi1 = false)
    (hctx : s.ctx op.dev = s'.ctx op.dev) :
    ∃ y writes stores,
      (op.exec s).view op.dev = (y, s.writes op.dev ++ writes, s.stores op.dev ++ stores) ∧
      (op.exec s').view op.dev = (y, s'.writes op.dev ++ writes, s'.stores op.dev ++ stores) := by
  rw [exec_eq hop, exec_eq hop, hctx]
  cases op.answer (s'.ctx op.dev) with
  | none => exact ⟨s'.ctx op.dev, [], [], by simp [Devices.view, hctx], by simp [Devices.view]⟩
  | some r =>
    refine ⟨r.2, r.1.filterMap Action.asWrite, r.1.filterMap Action.asStore, ?_, ?_⟩
    · refine (view_carryOut_self r).trans ?_
      cases op <;> rfl
    · refine (view_carryOut_self r).trans ?_
      cases op <;> rfl

theorem view_alone {ops : List DevOp} (hops : ∀ op ∈ ops, op.isTwi1 = false) (dev : DevId)
    (s : Devices cfg) :
    (ops.foldl DevOp.exec s).view dev = ((alone dev ops).foldl DevOp.exec s).view dev := by
  refine Runs.foldl_filter (f := Devices.view dev) ?_ ?_ s s rfl
  · intro s op hmem hdev
    exact view_exec_of_ne (hops op hmem) (of_decide_eq_false hdev) s
  · intro s s' op hmem hdev hview
    have hd : op.dev = dev := of_decide_eq_true hdev
    subst hd
    obtain ⟨y, writes, stores, hs, hs'⟩ := view_exec_self (hops op hmem) (congrArg Prod.fst hview)
    have hwrites : s.writes op.dev = s'.writes op.dev := congrArg (fun v => v.2.1) hview
    have hstores : s.stores op.dev = s'.stores op.dev := congrArg (fun v => v.2.2) hview
    rw [hs, hs', hwrites, hstores]

theorem Answers.writes {y : Context cfg} {r : List Action × Context cfg} (h : Answers y r) :
    1 ≤ (r.1.filterMap Action.asWrite).length := by
  cases h with
  | stop acts y _ => simp [twiStop, Action.asWrite, filterMap_append]
  | goOn acts v y _ => simp [Action.asWrite, filterMap_append]

theorem exec_twi1 {op : DevOp} (hop : op.isTwi1 = true) (s : Devices cfg) :
    (op.exec s).ctx .i2c0 = s.ctx .i2c0 ∧
      (s.writes .i2c0).length + 1 ≤ ((op.exec s).writes .i2c0).length := by
  obtain ⟨twsr, twdr, rfl⟩ : ∃ twsr twdr, op = .interrupt .i2c1 twsr twdr := by
    cases op with
    | run dev addr data wLen rLen => exact Bool.noConfusion hop
    | interrupt dev twsr twdr =>
      cases dev with
      | i2c0 => exact Bool.noConfusion hop
      | i2c1 => exact ⟨twsr, twdr, rfl⟩
  have hans := i2cStateMachine_answers (s.twsr .i2c0) (s.twdr .i2c0) (s.ctx .i2c1)
  -- the registers of the first device are as they were before the interrupt
  have hexec : (DevOp.interrupt .i2c1 twsr twdr).exec s =
      (DevOp.arrive s (.interrupt .i2c1 twsr twdr)).carryOut .i2c0 .i2c1
        (i2cStateMachine cfg (s.twsr .i2c0) (s.twdr .i2c0) (s.ctx .i2c1)) := by
    simp [DevOp.exec, DevId.vect, twi1Vect, Devices.stateMachine, DevOp.arrive]
  rw [hexec]
  generalize i2cStateMachine cfg (s.twsr .i2c0) (s.twdr .i2c0) (s.ctx .i2c1) = r at hans
  obtain ⟨hctx, hwrites, -⟩ := foldl_perform_devices .i2c0 .i2c1 r.1
    { DevOp.arrive s (.interrupt .i2c1 twsr twdr) with
      ctx := update s.ctx .i2c1 r.2 }
  have hpos := hans.writes
  constructor
  · exact (congrFun hctx .i2c0).trans
      (update_of_ne (show DevId.i2c0 ≠ .i2c1 by decide) r.2 s.ctx)
  · have hlen := congrArg List.length (congrFun hwrites .i2c0)
    rw [update_self, length_append] at hlen
    have harrive : (DevOp.arrive s (.interrupt .i2c1 twsr twdr)).writes .i2c0 =
        s.writes .i2c0 := rfl
    refine Nat.le_trans ?_ hlen.symm.le
    rw [harrive]
    omega

theorem gap (ops : List DevOp) (s s' : Devices cfg) (hctx : s.ctx .i2c0 = s'.ctx .i2c0)
    {k : Nat} (hlen : (s'.writes .i2c0).length + k ≤ (s.writes .i2c0).length) :
    (((alone .i2c0 ops).foldl DevOp.exec s').writes .i2c0).length + k + ops.countP DevOp.isTwi1 ≤
      ((ops.foldl DevOp.exec s).writes .i2c0).length := by
  induction ops generalizing s s' k with
  | nil => exact hlen
  | cons op ops ih =>
    by_cases hop : op.isTwi1 = true
    · obtain ⟨hctx', hlen'⟩ := exec_twi1 hop s
      have hdev : op.dev ≠ .i2c0 := by
        intro hdev
        cases op with
        | run dev addr data wLen rLen => exact Bool.noConfusion hop
        | interrupt dev twsr twdr =>
          rw [show dev = .i2c0 from hdev] at hop
          exact Bool.noConfusion hop
      have hrest := ih (op.exec s) s' (hctx'.trans hctx) (k := k + 1) (by omega)
      rw [alone, filter_cons_of_neg (by simpa using hdev), countP_cons_of_pos hop]
      rw [alone] at hrest
      exact Nat.le_trans (by omega) hrest
    · rw [countP_cons_of_neg hop]
      have hop' : op.isTwi1 = false := Bool.eq_false_iff.mpr hop
      by_cases hdev : op.dev = .i2c0
      · rw [alone, filter_cons_of_pos (by simpa using hdev)]
        have hctx' : s.ctx op.dev = s'.ctx op.dev := by rw [hdev, hctx]
        obtain ⟨y, writes, stores, hs, hs'⟩ := view_exec_self hop' hctx'
        rw [hdev] at hs hs'
        have hw : (op.exec s).writes .i2c0 = s.writes .i2c0 ++ writes :=
          congrArg (fun v => v.2.1) hs
        have hw' : (op.exec s').writes .i2c0 = s'.writes .i2c0 ++ writes :=
          congrArg (fun v => v.2.1) hs'
        refine ih (op.exec s) (op.exec s')
          ((congrArg Prod.fst hs).trans (congrArg Prod.fst hs').symm) ?_
        rw [hw, hw', length_append, length_append]
        omega
      · rw [alone, filter_cons_of_neg (by simpa using hdev)]
        have hview := view_exec_of_ne hop' hdev s
        have hw : (op.exec s).writes .i2c0 = s.writes .i2c0 := congrArg (fun v => v.2.1) hview
        exact ih (op.exec s) s' ((congrArg Prod.fst hview).trans hctx) (by rwa [hw])

/-- **THE TWO DEVICES DO NOT INTERFERE** exactly if no interrupt of the second one is taken. -/
theorem devices_independent_iff (s : Devices cfg) (ops : List DevOp) :
    (∀ dev, (ops.foldl DevOp.exec s).writes dev =
        ((alone dev ops).foldl DevOp.exec s).writes dev ∧
      (ops.foldl DevOp.exec s).stores dev =
        ((alone dev ops).foldl DevOp.exec s).stores dev) ↔
      ∀ op ∈ ops, op.isTwi1 = false := by
  constructor
  · intro h
    have hgap := gap ops s s rfl (k := 0) (Nat.le_refl _)
    rw [(h .i2c0).1] at hgap
    have hcount : ops.countP DevOp.isTwi1 = 0 := by omega
    intro op hop
    exact Bool.eq_false_iff.mpr (countP_eq_zero.mp hcount op hop)
  · intro h dev
    have hview := view_alone h dev s
    exact ⟨congrArg (fun v => v.2.1) hview, congrArg (fun v => v.2.2) hview⟩

def interruptConfig : I2cConfig := { polledConfig with interruptDriven := true }

/-- Both devices ready. -/
def readyDevices : Devices interruptConfig where
  twsr := fun _ => 0xF8
  twdr := fun _ => 0xFF
  writes := fun _ => []
  ctx := fun _ => (readyDevice interruptConfig [] fun _ => 0).ctx
  stores := fun _ => []

def crossedRun : List DevOp :=
  [.run .i2c0 0x50 (fun _ => 1) 1 0, .run .i2c1 0x60 (fun _ => 2) 1 0,
    .interrupt .i2c0 0x08 0xFF, .interrupt .i2c1 0x08 0xFF]

/-- The first device is made to transmit the address of the other transfer too,
    the second one gets no answer to its start condition. -/
theorem devices_interfere :
    (crossedRun.foldl DevOp.exec readyDevices).writes .i2c0 =
        [(.twcr, 0xA5), (.twdr, 0xA0), (.twcr, 0xC5), (.twdr, 0xC0), (.twcr, 0xC5)] ∧
      (crossedRun.foldl DevOp.exec readyDevices).writes .i2c1 = [(.twcr, 0xA5)] ∧
      ((alone .i2c0 crossedRun).foldl DevOp.exec readyDevices).writes .i2c0 =
        [(.twcr, 0xA5), (.twdr, 0xA0), (.twcr, 0xC5)] ∧
      (crossedRun.foldl DevOp.exec readyDevices).writes .i2c0 ≠
        ((alone .i2c0 crossedRun).foldl DevOp.exec readyDevices).writes .i2c0 := by
  decide

end AvrtosI2c
