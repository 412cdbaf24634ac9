import Avrtos.I2c

/-! # What an I2C write puts on the bus

    A write is followed from stage to stage: start, address, data, lost arbitration. -/

namespace AvrtosI2c

open BitVec List AvrtosDefines Twi

variable {cfg : I2cConfig} {d e : I2cDevice cfg}

inductive Stage
  | started
  | addressed
  | acked
  | refused (err : I2cError)
  | lost
  deriving DecidableEq, Repr

/-- What is reported at a stage. -/
def Stage.statuses : Stage → List Status
  | .started => [.start, .repStart]
  | .addressed => [.mtSlaAck]
  | .acked => [.mtDataAck]
  | .refused .addr => [.mtSlaNack]
  | .refused _ => [.mtDataNack]
  | .lost => [.arbLost]

def Stage.phase : Stage → Phase
  | .started => .started
  | .lost => .idle
  | _ => .transmitting

def Stage.afterAddress : Reply → Stage
  | .ack => .addressed
  | .nack => .refused .addr
  | .lost => .lost

/-- The stage after a data byte. -/
def Stage.afterData : Reply → Stage
  | .ack => .acked
  | .nack => .refused .data
  | .lost => .lost

def Stage.index {w : Nat} : Stage → BitVec w → BitVec w
  | .acked, c => c + 1
  | _, c => c

structure Message (cfg : I2cConfig) where
  sla : Byte
  direction : sla.getLsbD 0 = false
  data : Nat → Byte
  len : BitVec cfg.maxBufLenBits

structure Writing (d : I2cDevice cfg) (msg : Message cfg) (stage : Stage)
    (c : BitVec cfg.maxBufLenBits) (plan : List Reply) (bus : List BusEvent) : Prop where
  buf : d.ctx.buf = msg.data
  slaW : d.ctx.slaW = msg.sla
  cursor : d.ctx.cursor = c
  state : d.ctx.state = .masterTx
  writeLen : d.ctx.writeLen = msg.len
  readLen : d.ctx.readLen = 0
  error : getError cfg d.ctx = .none
  status : ∃ s ∈ stage.statuses, d.twi.status = some s
  phase : d.twi.phase = stage.phase
  twint : d.twi.twint = true
  plan : d.twi.plan = plan
  bus : d.twi.bus = bus

variable {msg : Message cfg} {stage : Stage} {c : BitVec cfg.maxBufLenBits}
variable {plan : List Reply} {bus : List BusEvent}

theorem Writing.transmitted {x : Context cfg} {p : Interface} {acked nacked : Status}
    {after : Reply → Stage} (h : Writing d msg stage c plan bus)
    (hx : x = { d.ctx with cursor := x.cursor }) (hplan : p.plan = plan) (hbus : p.bus = bus)
    (hafter : ∀ r : Reply, r.status acked nacked ∈ (after r).statuses)
    (hphase : ∀ r : Reply, (after r).phase = if r = .lost then .idle else .transmitting) :
    Writing { d with ctx := x, twi := p.transmit .transmitting acked nacked } msg
      (after (plan.headD .ack)) x.cursor plan.tail
      (bus ++ [(plan.headD .ack).event p.twdr]) := by
  have hreply : p.reply = plan.headD .ack := by rw [Interface.reply, hplan]
  refine ⟨?_, ?_, rfl, ?_, ?_, ?_, ?_, ⟨_, hafter _, ?_⟩, ?_, rfl, ?_, ?_⟩
  · rw [hx]
    exact h.buf
  · rw [hx]
    exact h.slaW
  · rw [hx]
    exact h.state
  · rw [hx]
    exact h.writeLen
  · rw [hx]
    exact h.readLen
  · rw [hx]
    exact h.error
  · rw [← hreply]
    exact Interface.status_transmit p _ _ _
  · rw [hphase, ← hreply]
    rfl
  · rw [← hplan]
    rfl
  · rw [← hbus, ← hreply]
    rfl

theorem Writing.address (h : Writing d msg .started c plan bus) :
    Writing d.serve msg (.afterAddress (plan.headD .ack)) c plan.tail
      (bus ++ [(plan.headD .ack).event msg.sla]) := by
  have hstatus : d.twi.status = some .start ∨ d.twi.status = some .repStart := by
    obtain ⟨s, hs, hstatus⟩ := h.status
    simpa [Stage.statuses, hstatus] using hs
  have hproceed : Interface.proceed { d.twi with twdr := d.ctx.slaW } true = _ :=
    Interface.proceed_write h.phase (by rw [h.slaW, msg.direction])
  rw [serve_started hstatus, hproceed, ← h.cursor, ← h.slaW]
  exact h.transmitted rfl h.plan h.bus (fun r => by cases r <;> decide)
    (fun r => by cases r <;> rfl)

theorem Writing.serve_eq (h : Writing d msg stage c plan bus)
    (hstage : stage = .addressed ∨ stage = .acked) :
    d.serve = d.carryOut (mtSlaAck cfg { d.ctx with cursor := stage.index c }) := by
  obtain ⟨s, hs, hstatus⟩ := h.status
  rcases hstage with hst | hst
  · subst hst
    rw [mem_singleton.mp hs] at hstatus
    rw [serve_mtSlaAck hstatus, ← h.cursor]
    rfl
  · subst hst
    rw [mem_singleton.mp hs] at hstatus
    rw [serve_mtDataAck hstatus, ← h.cursor]
    rfl

theorem Writing.send (h : Writing d msg stage c plan bus)
    (hstage : stage = .addressed ∨ stage = .acked) (hlt : stage.index c < msg.len) :
    Writing d.serve msg (.afterData (plan.headD .ack)) (stage.index c + 1) plan.tail
      (bus ++ [(plan.headD .ack).event (msg.data (stage.index c).toNat)]) := by
  have hphase : d.twi.phase = .transmitting := by
    rcases hstage with hst | hst <;> subst hst <;> exact h.phase
  have hproceed :
      Interface.proceed { d.twi with twdr := msg.data (stage.index c).toNat } true = _ :=
    Interface.proceed_transmitting hphase
  have hserve : d.serve = { d with
        ctx := { d.ctx with cursor := stage.index c + 1 }
        twi := Interface.proceed { d.twi with twdr := msg.data (stage.index c).toNat } true } := by
    rw [h.serve_eq hstage, carryOut_mtSlaAck_of_lt d (by rwa [h.writeLen]), ← h.buf]
  rw [hserve, hproceed]
  exact h.transmitted rfl h.plan h.bus (fun r => by cases r <;> decide)
    (fun r => by cases r <;> rfl)

theorem Writing.finish (h : Writing d msg stage c plan bus)
    (hstage : stage = .addressed ∨ stage = .acked) (hle : ¬ stage.index c < msg.len) :
    d.serve.ctx.state = .ready ∧ i2cResult cfg d.serve.ctx = 0 ∧
      d.serve.twi.bus = bus ++ [.stop] := by
  have hphase : d.twi.phase = .transmitting := by
    rcases hstage with hst | hst <;> subst hst <;> exact h.phase
  have hserve : d.serve = { d with
        ctx := { d.ctx with cursor := stage.index c, state := .ready }
        twi := d.twi.stop } := by
    refine (h.serve_eq hstage).trans (carryOut_mtSlaAck_of_le d ?_ h.readLen)
    rwa [h.writeLen]
  rw [hserve]
  refine ⟨rfl, if_neg (not_not.mpr h.error), ?_⟩
  rw [← h.bus]
  exact if_neg (by simp [hphase])

theorem Writing.restart (h : Writing d msg .lost c plan bus) :
    Writing d.serve msg .started c plan (bus ++ [.start]) := by
  obtain ⟨s, hs, hstatus⟩ := h.status
  rw [mem_singleton.mp hs] at hstatus
  rw [serve_arbLost hstatus]
  refine ⟨h.buf, h.slaW, h.cursor, h.state, h.writeLen, h.readLen, h.error, ?_, rfl, rfl,
    h.plan, ?_⟩
  · rcases Interface.status_start d.twi with hst | hst
    · exact ⟨_, by decide, hst⟩
    · exact ⟨_, by decide, hst⟩
  · rw [← h.bus]
    rfl

theorem Writing.ends_iff {stage' : Stage} {c' : BitVec cfg.maxBufLenBits} {plan' : List Reply}
    {bus' : List BusEvent} (h : Writing d msg stage c plan bus)
    (h' : Writing d.serve msg stage' c' plan' bus') : Ends d e ↔ Ends d.serve e :=
  ends_iff_serve h.twint (by simp [h'.state])

theorem Writing.ends_finish (h : Writing d msg stage c plan bus)
    (hstage : stage = .addressed ∨ stage = .acked) (hle : ¬ stage.index c < msg.len) :
    Ends d e ↔ e = d.serve :=
  ends_iff_eq h.twint (h.finish hstage hle).1

def message (cfg : I2cConfig) (addr : Byte) (data : Nat → Byte) (len : Byte) : Message cfg where
  sla := addr <<< 1
  direction := by simp
  data := data
  len := len.setWidth cfg.maxBufLenBits

theorem write_started (addr : Byte) (data : Nat → Byte) {len : Byte}
    (hpolled : cfg.interruptDriven = false) (hready : d.ctx.state = .ready)
    (hlen : 1 ≤ len.toNat) (hmax : len.toNat ≤ cfg.maxBufLen) :
    ∃ d₀, Writing d₀ (message cfg addr data len) .started 0 d.twi.plan (d.twi.bus ++ [.start]) ∧
      ∀ v e, (∃ fuel, i2cMasterWrite fuel d addr data len = some (v, e)) ↔
        Ends d₀ e ∧ v = i2cResult cfg e.ctx := by
  have hne : len ≠ 0 := by
    rintro rfl
    exact absurd hlen (by decide)
  have hstart : i2cStart cfg d.ctx addr data len 0 = _ := i2cStart_ok hready hmax (Nat.zero_le _)
  refine ⟨_, ?_, fun v e => run_returns_iff hpolled hstart⟩
  have hcarry : d.carryOut ([twiStart cfg], startContext cfg d.ctx addr data len 0) =
      { d with ctx := startContext cfg d.ctx addr data len 0, twi := d.twi.start } :=
    perform_twiStart _
  rw [hcarry]
  refine ⟨?_, ?_, ?_, ?_, ?_, ?_, getError_startContext _ _ _ _ _, ?_, rfl, rfl, rfl, rfl⟩
  · rw [startContext_eq]
    rfl
  · rw [startContext_eq]
    show (addr <<< 1 ||| if len = 0 then TW_READ else TW_WRITE) = addr <<< 1
    rw [if_neg hne]
    exact or_zero
  · rw [startContext_eq]
  · rw [startContext_eq]
    exact if_neg hne
  · rw [startContext_eq]
    rfl
  · rw [startContext_eq]
    simp
  · rcases Interface.status_start d.twi with hst | hst
    · exact ⟨_, by decide, hst⟩
    · exact ⟨_, by decide, hst⟩

theorem Writing.every_second (hfit : msg.len.toNat + 1 < 2 ^ cfg.maxBufLenBits) (k n : Nat)
    (h : Writing d msg stage c [] bus) (hstage : stage = .addressed ∨ stage = .acked)
    (hn : (stage.index c).toNat = n) (hk : k = (msg.len.toNat + 1 - n) / 2)
    (hle : n ≤ msg.len.toNat + 1) :
    ∃ e, Ends d e ∧ i2cResult cfg e.ctx = 0 ∧
      e.twi.bus = bus ++ (range k).map (fun i => .sent (msg.data (n + 2 * i))) ++ [.stop] := by
  induction k generalizing d stage c bus n with
  | zero =>
    have hge : ¬ stage.index c < msg.len := by
      rw [lt_def]
      omega
    obtain ⟨-, hres, hbus⟩ := h.finish hstage hge
    exact ⟨d.serve, (h.ends_finish hstage hge).mpr rfl, hres, by simpa using hbus⟩
  | succ k ih =>
    have hlt : stage.index c < msg.len := by
      rw [lt_def]
      omega
    have hsend := h.send hstage hlt
    have hc : (stage.index c + 1).toNat = n + 1 := by
      rw [toNat_succ, hn, if_neg (by omega)]
    have hindex : (Stage.acked.index (stage.index c + 1)).toNat = n + 2 := by
      show (stage.index c + 1 + 1).toNat = n + 2
      rw [toNat_succ, hc, if_neg (by omega)]
    obtain ⟨e, hends, hres, hbus⟩ := ih (n + 2) hsend (Or.inr rfl) hindex (by omega) (by omega)
    refine ⟨e, (h.ends_iff hsend).mpr hends, hres, ?_⟩
    have hshift : ∀ i, n + 2 + 2 * i = n + 2 * (i + 1) := by omega
    rw [hbus, hn, range_succ_eq_map]
    simp [hshift, Reply.event]

theorem Writing.endless (hbits : 1 ≤ cfg.maxBufLenBits)
    (hmax : msg.len.toNat + 1 = 2 ^ cfg.maxBufLenBits)
    (h : Writing d msg stage c [] bus) (hstage : stage = .addressed ∨ stage = .acked)
    (heven : (stage.index c).toNat % 2 = 0) : ¬ Ends d e := by
  obtain ⟨half, hhalf⟩ : 2 ∣ 2 ^ cfg.maxBufLenBits := dvd_pow_self 2 (by omega)
  refine DoWhile.not_ends (I := fun d => ∃ stage c bus, Writing d msg stage c [] bus ∧
      (stage = .addressed ∨ stage = .acked) ∧ (stage.index c).toNat % 2 = 0)
    ⟨stage, c, bus, h, hstage, heven⟩ ?_
  rintro d ⟨stage, c, bus, h, hstage, heven⟩
  have hc := (stage.index c).isLt
  have hlt : stage.index c < msg.len := by
    rw [lt_def]
    omega
  have hsend := h.send hstage hlt
  refine ⟨d.serve, round_eq h.twint, decide_eq_true (by simp [hsend.state]), .acked, _, _, hsend,
    Or.inr rfl, ?_⟩
  show (stage.index c + 1 + 1).toNat % 2 = 0
  rw [toNat_succ, toNat_succ]
  split <;> split <;> omega

section Acknowledged

variable (addr : Byte) (data : Nat → Byte) {len : Byte}

theorem write_returns (hpolled : cfg.interruptDriven = false) (hready : d.ctx.state = .ready)
    (hplan : d.twi.plan = []) (hlen : 1 ≤ len.toNat) (hmax : len.toNat < cfg.maxBufLen) :
    ∃ e : I2cDevice cfg,
      (∀ v e', (∃ fuel, i2cMasterWrite fuel d addr data len = some (v, e')) ↔ v = 0 ∧ e' = e) ∧
      e.twi.bus = d.twi.bus ++ .start :: .sent (addr <<< 1) ::
        (range ((len.toNat + 1) / 2)).map (fun i => .sent (data (2 * i))) ++ [.stop] := by
  obtain ⟨d₀, h₀, hreturns⟩ := write_started addr data hpolled hready hlen hmax.le
  rw [hplan] at h₀
  have hmsg : (message cfg addr data len).len.toNat = len.toNat := toNat_setWidth_len hmax.le
  have h₁ := h₀.address
  obtain ⟨e, hends, hres, hbus⟩ := h₁.every_second (by
      unfold I2cConfig.maxBufLen at hmax
      omega)
    ((len.toNat + 1) / 2) 0 (Or.inl rfl) (by simp [Stage.index, Stage.afterAddress])
    (by rw [hmsg, Nat.sub_zero]) (Nat.zero_le _)
  have hends₀ : Ends d₀ e := (h₀.ends_iff h₁).mpr hends
  refine ⟨e, ?_, ?_⟩
  · intro v e'
    rw [hreturns]
    constructor
    · rintro ⟨he', hv⟩
      have heq : e' = e := DoWhile.Ends.unique hends₀ he'
      exact ⟨by rw [hv, heq, hres], heq⟩
    · rintro ⟨rfl, rfl⟩
      exact ⟨hends₀, hres.symm⟩
  · rw [hbus]
    simp [Reply.event, message]

theorem write_never_returns (hpolled : cfg.interruptDriven = false)
    (hready : d.ctx.state = .ready) (hplan : d.twi.plan = []) (hbits : 1 ≤ cfg.maxBufLenBits)
    (hmax : len.toNat = cfg.maxBufLen) {fuel : Nat} {v : Int} :
    i2cMasterWrite fuel d addr data len ≠ some (v, e) := by
  have hpow : 2 ^ 1 ≤ 2 ^ cfg.maxBufLenBits := Nat.pow_le_pow_right (by decide) hbits
  have hlen : len.toNat + 1 = 2 ^ cfg.maxBufLenBits := by
    rw [hmax, I2cConfig.maxBufLen]
    omega
  intro hcall
  obtain ⟨d₀, h₀, hreturns⟩ := write_started addr data hpolled hready (by omega) hmax.le
  rw [hplan] at h₀
  have h₁ := h₀.address
  obtain ⟨hends, -⟩ := (hreturns v e).mp ⟨fuel, hcall⟩
  have hmsg : (message cfg addr data len).len.toNat = len.toNat := toNat_setWidth_len hmax.le
  exact h₁.endless hbits (by rw [hmsg, hlen]) (Or.inl rfl)
    (by simp [Stage.index, Stage.afterAddress]) ((h₀.ends_iff h₁).mp hends)

/-- **THE WHOLE BUFFER IS SENT EXACTLY IF IT IS ONE BYTE**, and a cursor has more than one bit. -/
theorem write_whole_buffer_iff (hpolled : cfg.interruptDriven = false)
    (hready : d.ctx.state = .ready) (hplan : d.twi.plan = []) (hbits : 1 ≤ cfg.maxBufLenBits)
    (hlen : 1 ≤ len.toNat) (hmax : len.toNat ≤ cfg.maxBufLen) :
    (∃ fuel e, i2cMasterWrite fuel d addr data len = some (0, e) ∧
      e.twi.bus = d.twi.bus ++ .start :: .sent (addr <<< 1) ::
        (range len.toNat).map (fun i => .sent (data i)) ++ [.stop]) ↔
      len.toNat = 1 ∧ 2 ≤ cfg.maxBufLenBits := by
  have hpow : 2 ≤ cfg.maxBufLenBits → 2 ^ 2 ≤ 2 ^ cfg.maxBufLenBits := fun h =>
    Nat.pow_le_pow_right (by decide) h
  rcases Nat.lt_or_eq_of_le hmax with hlt | heq
  · obtain ⟨e, hreturns, hbus⟩ := write_returns addr data hpolled hready hplan hlen hlt
    constructor
    · rintro ⟨fuel, e', hcall, hbus'⟩
      rw [((hreturns 0 e').mp ⟨fuel, hcall⟩).2, hbus] at hbus'
      have hcount := congrArg List.length hbus'
      have hone : len.toNat = 1 := by
        simp at hcount
        omega
      refine ⟨hone, ?_⟩
      by_contra hbits'
      have hb : cfg.maxBufLenBits = 1 := by omega
      rw [I2cConfig.maxBufLen, hb, hone] at hlt
      exact absurd hlt (by decide)
    · rintro ⟨hone, -⟩
      obtain ⟨fuel, hcall⟩ := (hreturns 0 e).mpr ⟨rfl, rfl⟩
      exact ⟨fuel, e, hcall, by rw [hbus, hone]; rfl⟩
  · constructor
    · rintro ⟨fuel, e, hcall, -⟩
      exact absurd hcall (write_never_returns addr data hpolled hready hplan hbits heq)
    · rintro ⟨hone, hbits'⟩
      have := hpow hbits'
      rw [I2cConfig.maxBufLen] at heq
      omega

theorem write_whole_buffer_iff_one :
    ∃ fuel e, i2cMasterWrite fuel (readyDevice polledConfig [] fun _ => 0) 0x50
        (fun _ => 7) 1 = some (0, e) ∧
      e.twi.bus = [.start, .sent 0xA0, .sent 7, .stop] :=
  (write_whole_buffer_iff 0x50 (fun _ => 7) rfl rfl rfl (by decide) (by decide) (by decide)).mpr
    ⟨by decide, by decide⟩

/-- Of two bytes only the first one is sent. -/
theorem write_drops_second_byte :
    (i2cMasterWrite 10 (readyDevice polledConfig [] fun _ => 0) 0x50
        (fun i => BitVec.ofNat 8 i) 2).map (fun r => (r.1, r.2.twi.bus)) =
      some (0, [.start, .sent 0xA0, .sent 0, .stop]) ∧
    ¬ ∃ fuel e, i2cMasterWrite fuel (readyDevice polledConfig [] fun _ => 0) 0x50
        (fun i => BitVec.ofNat 8 i) 2 = some (0, e) ∧
      e.twi.bus = [.start, .sent 0xA0, .sent 0, .sent 1, .stop] := by
  refine ⟨by decide, ?_⟩
  rintro ⟨fuel, e, hcall, hbus⟩
  obtain ⟨e', hreturns, hbus'⟩ := write_returns 0x50 (fun i => BitVec.ofNat 8 i)
    (d := readyDevice polledConfig [] fun _ => 0) rfl rfl rfl
    (show 1 ≤ BitVec.toNat (2 : Byte) by decide) (by decide)
  rw [((hreturns 0 e).mp ⟨fuel, hcall⟩).2, hbus'] at hbus
  exact absurd hbus (by decide)

end Acknowledged

theorem Writing.refuse {err : I2cError} (herr : err = .addr ∨ err = .data)
    (h : Writing d msg (.refused err) c plan bus) :
    d.serve.ctx.state = .ready ∧ getError cfg d.serve.ctx = (if cfg.lastError then err else .none) ∧
      d.serve.twi.bus = bus ++ [.stop] := by
  have hserve : d.serve = { d with
        ctx := { setError cfg d.ctx err with state := .ready }
        twi := d.twi.stop } := by
    obtain ⟨s, hs, hstatus⟩ := h.status
    rcases herr with he | he
    · subst he
      rw [mem_singleton.mp hs] at hstatus
      exact (serve_of_status hstatus).trans (carryOut_transferStop d _)
    · subst he
      rw [mem_singleton.mp hs] at hstatus
      exact (serve_of_status hstatus).trans (carryOut_transferStop d _)
  have hphase : d.twi.phase = .transmitting := h.phase
  rw [hserve]
  refine ⟨rfl, ?_, ?_⟩
  · unfold getError setError
    cases cfg.lastError <;> rfl
  · rw [← h.bus]
    exact if_neg (by simp [hphase])

/-- **A REFUSED ADDRESS** ends the write at once.  The caller is told only where
    the last error is kept. -/
theorem write_address_refused (addr : Byte) (data : Nat → Byte) {len : Byte}
    (hpolled : cfg.interruptDriven = false) (hready : d.ctx.state = .ready)
    (hplan : d.twi.reply = .nack) (hlen : 1 ≤ len.toNat) (hmax : len.toNat ≤ cfg.maxBufLen) :
    ∃ e : I2cDevice cfg, (∀ v e', (∃ fuel, i2cMasterWrite fuel d addr data len = some (v, e')) ↔
        v = (if cfg.lastError then - AvrtosDefines.EIO else 0) ∧ e' = e) ∧
      i2cLastError e = (if cfg.lastError then .addr else .none) ∧
      e.twi.bus = d.twi.bus ++ [.start, .sent (addr <<< 1), .stop] := by
  obtain ⟨d₀, h₀, hreturns⟩ := write_started addr data hpolled hready hlen hmax
  have h₁ := h₀.address
  rw [show d.twi.plan.headD .ack = .nack from hplan] at h₁
  obtain ⟨hready', herror, hbus⟩ := h₁.refuse (Or.inl rfl)
  have hends : Ends d₀ d₀.serve.serve :=
    (h₀.ends_iff h₁).mpr ((ends_iff_eq h₁.twint hready').mpr rfl)
  have hresult : i2cResult cfg d₀.serve.serve.ctx =
      if cfg.lastError then - AvrtosDefines.EIO else 0 := by
    rw [i2cResult, herror]
    cases cfg.lastError <;> rfl
  refine ⟨d₀.serve.serve, ?_, herror, ?_⟩
  · intro v e'
    rw [hreturns]
    constructor
    · rintro ⟨he', hv⟩
      have heq : e' = d₀.serve.serve := DoWhile.Ends.unique hends he'
      exact ⟨by rw [hv, heq, hresult], heq⟩
    · rintro ⟨rfl, rfl⟩
      exact ⟨hends, hresult.symm⟩
  · rw [hbus]
    simp [Reply.event, message]

theorem write_address_refused_one :
    ∃ fuel e, i2cMasterWrite fuel (readyDevice polledConfig [.nack] fun _ => 0) 80
      (fun _ => 7) 1 = some (-AvrtosDefines.EIO, e) := by
  obtain ⟨e, hreturns, -⟩ := write_address_refused 80 (fun _ => 7)
    (d := readyDevice polledConfig [.nack] fun _ => 0) rfl rfl rfl
    (show 1 ≤ BitVec.toNat (1 : Byte) by decide) (by decide)
  obtain ⟨fuel, h⟩ := (hreturns _ e).mpr ⟨rfl, rfl⟩
  exact ⟨fuel, e, h⟩

inductive Attempt (msg : Message cfg) : Stage → BitVec cfg.maxBufLenBits → List BusEvent → Prop
  | started {c : BitVec cfg.maxBufLenBits} {bus : List BusEvent} :
      lastAttempt bus = [] → Attempt msg .started c bus
  | addressed {c : BitVec cfg.maxBufLenBits} {bus : List BusEvent} :
      (sentBytes (lastAttempt bus)).length = 1 → Attempt msg .addressed c bus
  | acked {c : BitVec cfg.maxBufLenBits} {bus : List BusEvent} (k : Nat) :
      (sentBytes (lastAttempt bus)).length = k + 1 → 2 * k ≤ c.toNat + 1 → 1 ≤ c.toNat →
      c.toNat ≤ msg.len.toNat → Attempt msg .acked c bus
  | wrapped {c : BitVec cfg.maxBufLenBits} {bus : List BusEvent} :
      msg.len.toNat + 1 = 2 ^ cfg.maxBufLenBits → c.toNat % 2 = 1 → Attempt msg .acked c bus
  | lost {c : BitVec cfg.maxBufLenBits} {bus : List BusEvent} : Attempt msg .lost c bus

def Bounded (msg : Message cfg) (e : I2cDevice cfg) : Prop :=
  ∃ k, (sentBytes (lastAttempt e.twi.bus)).length = k + 1 ∧
    (k = 0 ∨ 2 * k ≤ msg.len.toNat + 1 ∧ 2 ≤ cfg.maxBufLenBits)

def Attempting (msg : Message cfg) (d : I2cDevice cfg) : Prop :=
  ∃ stage c plan bus, Writing d msg stage c plan bus ∧ Reply.nack ∉ plan ∧ Attempt msg stage c bus

theorem headD_ne_nack {plan : List Reply} (h : Reply.nack ∉ plan) : plan.headD .ack ≠ .nack := by
  cases plan with
  | nil => simp
  | cons r rest =>
    intro hr
    exact h (hr ▸ mem_cons_self)

theorem Attempting.of_reply {after : Reply → Stage} {v : Byte} (hnack : Reply.nack ∉ plan)
    (h : Writing d msg (after (plan.headD .ack)) c plan.tail (bus ++ [(plan.headD .ack).event v]))
    (hafter : after .lost = .lost)
    (hack : Attempt msg (after .ack) c (bus ++ [.sent v])) : Attempting msg d := by
  refine ⟨_, c, plan.tail, _, h, fun hmem => hnack (mem_of_mem_tail hmem), ?_⟩
  cases hr : plan.headD .ack with
  | ack => exact hack
  | nack => exact absurd hr (headD_ne_nack hnack)
  | lost =>
    rw [hafter]
    exact .lost

theorem length_sentBytes_sent {v : Byte} {n : Nat} (h : (sentBytes (lastAttempt bus)).length = n) :
    (sentBytes (lastAttempt (bus ++ [.sent v]))).length = n + 1 := by
  rw [lastAttempt_append (by simp), sentBytes_append, length_append, h]
  rfl

theorem sentBytes_stop :
    sentBytes (lastAttempt (bus ++ [.stop])) = sentBytes (lastAttempt bus) := by
  rw [lastAttempt_append (by simp), sentBytes_append]
  exact append_nil _

theorem Bounded.finish (h : Writing d msg stage c plan bus)
    (hstage : stage = .addressed ∨ stage = .acked) (hle : ¬ stage.index c < msg.len) {k : Nat}
    (hk : (sentBytes (lastAttempt bus)).length = k + 1)
    (hbound : k = 0 ∨ 2 * k ≤ msg.len.toNat + 1 ∧ 2 ≤ cfg.maxBufLenBits) :
    Bounded msg d.serve := by
  refine ⟨k, ?_, hbound⟩
  rw [(h.finish hstage hle).2.2, sentBytes_stop, hk]

theorem Attempting.send (h : Writing d msg stage c plan bus)
    (hstage : stage = .addressed ∨ stage = .acked) (hlt : stage.index c < msg.len)
    (hnack : Reply.nack ∉ plan)
    (hack : Attempt msg .acked (stage.index c + 1)
      (bus ++ [.sent (msg.data (stage.index c).toNat)])) :
    d.serve.ctx.state ≠ .ready ∧ Attempting msg d.serve := by
  have h' := h.send hstage hlt
  exact ⟨by simp [h'.state], .of_reply hnack h' rfl hack⟩

theorem Attempting.data (h : Writing d msg stage c plan bus)
    (hstage : stage = .addressed ∨ stage = .acked) (hnack : Reply.nack ∉ plan) {k : Nat}
    (hsent : (sentBytes (lastAttempt bus)).length = k + 1)
    (hk : 2 * k ≤ (stage.index c).toNat)
    (hend : k = 0 ∨ (stage.index c).toNat ≤ msg.len.toNat + 1 ∧ 2 ≤ cfg.maxBufLenBits) :
    (d.serve.ctx.state ≠ .ready ∧ Attempting msg d.serve) ∨
      d.serve.ctx.state = .ready ∧ Bounded msg d.serve := by
  have hlen := msg.len.isLt
  by_cases hlt : stage.index c < msg.len
  · refine Or.inl (Attempting.send h hstage hlt hnack ?_)
    rw [lt_def] at hlt
    have hsucc : (stage.index c + 1).toNat = (stage.index c).toNat + 1 := by
      rw [toNat_succ, if_neg (by omega)]
    refine .acked (k + 1) (length_sentBytes_sent hsent) ?_ ?_ ?_ <;> omega
  · refine Or.inr ⟨(h.finish hstage hlt).1, Bounded.finish h hstage hlt hsent ?_⟩
    omega

theorem Attempting.goRound (hbits : 1 ≤ cfg.maxBufLenBits) (h : Writing d msg .acked c plan bus)
    (hnack : Reply.nack ∉ plan) (hmax : msg.len.toNat + 1 = 2 ^ cfg.maxBufLenBits)
    (hodd : c.toNat % 2 = 1) : d.serve.ctx.state ≠ .ready ∧ Attempting msg d.serve := by
  obtain ⟨half, hhalf⟩ : 2 ∣ 2 ^ cfg.maxBufLenBits := dvd_pow_self 2 (by omega)
  have hindex : (Stage.acked.index c).toNat = if c.toNat + 1 = 2 ^ cfg.maxBufLenBits then 0
      else c.toNat + 1 := toNat_succ c
  have hc := c.isLt
  have heven : (Stage.acked.index c).toNat % 2 = 0 ∧
      (Stage.acked.index c).toNat < msg.len.toNat := by
    rw [hindex]
    split <;> omega
  refine Attempting.send h (Or.inr rfl) (lt_def.mpr heven.2) hnack (.wrapped hmax ?_)
  rw [toNat_succ, if_neg (by omega)]
  omega

/-- One report of a write that may lose arbitration. -/
theorem Attempting.step (hbits : 1 ≤ cfg.maxBufLenBits) (h : Attempting msg d) :
    (d.serve.ctx.state ≠ .ready ∧ Attempting msg d.serve) ∨
      d.serve.ctx.state = .ready ∧ Bounded msg d.serve := by
  obtain ⟨half, hhalf⟩ : 2 ∣ 2 ^ cfg.maxBufLenBits := dvd_pow_self 2 (by omega)
  have hlen := msg.len.isLt
  obtain ⟨stage, c, plan, bus, h, hnack, hattempt⟩ := h
  cases hattempt with
  | started hbus =>
    have h' := h.address
    refine Or.inl ⟨by simp [h'.state], .of_reply hnack h' rfl (.addressed ?_)⟩
    exact length_sentBytes_sent (by rw [hbus]; rfl)
  | addressed hsent =>
    exact Attempting.data h (Or.inl rfl) hnack hsent (Nat.zero_le _) (Or.inl rfl)
  | acked k hsent hk hpos hle =>
    by_cases hround : c.toNat + 1 = 2 ^ cfg.maxBufLenBits
    · exact Or.inl (Attempting.goRound hbits h hnack (by omega) (by omega))
    · have hindex : (Stage.acked.index c).toNat = c.toNat + 1 := by
        show (c + 1).toNat = c.toNat + 1
        rw [toNat_succ, if_neg hround]
      have hbits' : 2 ≤ cfg.maxBufLenBits := by
        by_contra hlt
        have hone : 2 ^ cfg.maxBufLenBits = 2 := by
          rw [show cfg.maxBufLenBits = 1 by omega, pow_one]
        have := c.isLt
        omega
      exact Attempting.data h (Or.inr rfl) hnack hsent (by omega) (Or.inr ⟨by omega, hbits'⟩)
  | wrapped hmax hodd => exact Or.inl (Attempting.goRound hbits h hnack hmax hodd)
  | lost =>
    have h' := h.restart
    exact Or.inl ⟨by simp [h'.state], _, _, _, _, h', hnack, .started (lastAttempt_start bus)⟩

theorem Attempting.bounded (hbits : 1 ≤ cfg.maxBufLenBits) (h : Attempting msg d)
    (hends : Ends d e) : Bounded msg e := by
  refine DoWhile.Ends.induct (I := Attempting msg) (Q := Bounded msg) hends h ?_ ?_
  · intro s m hs hm hagain
    rw [(round_cases hm).2] at hagain ⊢
    rcases hs.step hbits with ⟨-, hnext⟩ | ⟨hready, -⟩
    · exact hnext
    · exact absurd hready (of_decide_eq_true hagain)
  · intro s m hs hm hdone
    rw [(round_cases hm).2] at hdone ⊢
    rcases hs.step hbits with ⟨hbusy, -⟩ | ⟨-, hnext⟩
    · exact absurd hbusy (of_decide_eq_false hdone)
    · exact hnext

def DataKept (plan : List Reply) : Prop :=
  (plan.dropWhile fun r => decide (r = .lost)).tail.head? ≠ some .lost
deriving Decidable

theorem Writing.finished (h : Writing d msg stage c plan bus)
    (hstage : stage = .addressed ∨ stage = .acked) (hle : ¬ stage.index c < msg.len)
    {sent : List Byte} (hsent : sentBytes (lastAttempt bus) = sent) :
    ∃ e, Ends d e ∧ i2cResult cfg e.ctx = 0 ∧ sentBytes (lastAttempt e.twi.bus) = sent := by
  obtain ⟨-, hres, hbus⟩ := h.finish hstage hle
  refine ⟨d.serve, (h.ends_finish hstage hle).mpr rfl, hres, ?_⟩
  rw [hbus, sentBytes_stop, hsent]

theorem sentBytes_sent {v : Byte} {sent : List Byte} (h : sentBytes (lastAttempt bus) = sent) :
    sentBytes (lastAttempt (bus ++ [.sent v])) = sent ++ [v] := by
  rw [lastAttempt_append (by simp), sentBytes_append, h]
  rfl

theorem Writing.spent (hle : msg.len.toNat ≤ c.toNat) (plan : List Reply)
    (hnack : Reply.nack ∉ plan) (h : Writing d msg .started c plan bus)
    (hbus : sentBytes (lastAttempt bus) = []) :
    ∃ e, Ends d e ∧ i2cResult cfg e.ctx = 0 ∧ sentBytes (lastAttempt e.twi.bus) = [msg.sla] := by
  have hge : ¬ Stage.addressed.index c < msg.len := by
    rw [lt_def]
    exact Nat.not_lt.mpr hle
  induction plan generalizing d bus with
  | nil =>
    obtain ⟨e, hends, he⟩ := h.address.finished (Or.inl rfl) hge (sentBytes_sent hbus)
    exact ⟨e, (h.ends_iff h.address).mpr hends, he⟩
  | cons r rest ih =>
    cases r with
    | ack =>
      obtain ⟨e, hends, he⟩ := h.address.finished (Or.inl rfl) hge (sentBytes_sent hbus)
      exact ⟨e, (h.ends_iff h.address).mpr hends, he⟩
    | nack => exact absurd mem_cons_self hnack
    | lost =>
      have h₁ := h.address
      have h₂ := h₁.restart
      obtain ⟨e, hends, he⟩ := ih (fun hmem => hnack (mem_cons_of_mem _ hmem)) h₂
        (by rw [lastAttempt_start]; rfl)
      exact ⟨e, (h.ends_iff h₁).mpr ((h₁.ends_iff h₂).mpr hends), he⟩

theorem Writing.single_data (hbits : 2 ≤ cfg.maxBufLenBits) (hone : msg.len.toNat = 1)
    (hnack : Reply.nack ∉ plan) (h : Writing d msg .addressed 0 plan bus)
    (hbus : sentBytes (lastAttempt bus) = [msg.sla]) :
    ∃ e, Ends d e ∧ i2cResult cfg e.ctx = 0 ∧ sentBytes (lastAttempt e.twi.bus) =
      if plan.head? = some .lost then [msg.sla] else [msg.sla, msg.data 0] := by
  have hpow : 2 ^ 2 ≤ 2 ^ cfg.maxBufLenBits := Nat.pow_le_pow_right (by decide) hbits
  have hzero : (0 : BitVec cfg.maxBufLenBits).toNat = 0 := by simp
  have hlt : (0 : BitVec cfg.maxBufLenBits) < msg.len := by
    rw [lt_def, hone, hzero]
    exact Nat.zero_lt_one
  have hc : (0 + 1 : BitVec cfg.maxBufLenBits).toNat = 1 := by
    rw [toNat_succ, hzero, if_neg (by omega)]
  have hge : ¬ (0 + 1 + 1 : BitVec cfg.maxBufLenBits) < msg.len := by
    rw [lt_def, hone, toNat_succ, hc, if_neg (by omega)]
    decide
  have h₁ : Writing d.serve msg (.afterData (plan.headD .ack)) (0 + 1) plan.tail
      (bus ++ [(plan.headD .ack).event (msg.data 0)]) := by
    have hsend := h.send (Or.inl rfl) hlt
    rwa [show (Stage.addressed.index (0 : BitVec cfg.maxBufLenBits)).toNat = 0 from hzero] at hsend
  have hacked : plan.headD .ack = .ack → ∃ e, Ends d e ∧ i2cResult cfg e.ctx = 0 ∧
      sentBytes (lastAttempt e.twi.bus) = [msg.sla, msg.data 0] := by
    intro hreply
    rw [hreply] at h₁
    obtain ⟨e, hends, he⟩ := h₁.finished (Or.inr rfl) hge (sentBytes_sent hbus)
    exact ⟨e, (h.ends_iff h₁).mpr hends, he⟩
  cases plan with
  | nil => exact hacked rfl
  | cons r rest =>
    cases r with
    | ack => exact hacked rfl
    | nack => exact absurd mem_cons_self hnack
    | lost =>
      have h₂ := h₁.restart
      obtain ⟨e, hends, he⟩ := h₂.spent (by rw [hone, hc]) rest
        (fun hmem => hnack (mem_cons_of_mem _ hmem)) (by rw [lastAttempt_start]; rfl)
      exact ⟨e, (h.ends_iff h₁).mpr ((h₁.ends_iff h₂).mpr hends), he⟩

theorem Writing.single (hbits : 2 ≤ cfg.maxBufLenBits) (hone : msg.len.toNat = 1)
    (plan : List Reply) (hnack : Reply.nack ∉ plan) (h : Writing d msg .started 0 plan bus)
    (hbus : sentBytes (lastAttempt bus) = []) :
    ∃ e, Ends d e ∧ i2cResult cfg e.ctx = 0 ∧ sentBytes (lastAttempt e.twi.bus) =
      if DataKept plan then [msg.sla, msg.data 0] else [msg.sla] := by
  induction plan generalizing d bus with
  | nil =>
    obtain ⟨e, hends, he⟩ := h.address.single_data hbits hone hnack (sentBytes_sent hbus)
    exact ⟨e, (h.ends_iff h.address).mpr hends, he⟩
  | cons r rest ih =>
    have hrest : Reply.nack ∉ rest := fun hmem => hnack (mem_cons_of_mem _ hmem)
    cases r with
    | ack =>
      obtain ⟨e, hends, hres, hsent⟩ := h.address.single_data hbits hone hrest (sentBytes_sent hbus)
      refine ⟨e, (h.ends_iff h.address).mpr hends, hres, ?_⟩
      rw [hsent]
      by_cases hlost : rest.head? = some .lost <;> simp [DataKept, hlost]
    | nack => exact absurd mem_cons_self hnack
    | lost =>
      have h₁ := h.address
      have h₂ := h₁.restart
      obtain ⟨e, hends, hres, hsent⟩ := ih hrest h₂ (by rw [lastAttempt_start]; rfl)
      exact ⟨e, (h.ends_iff h₁).mpr ((h₁.ends_iff h₂).mpr hends), hres, hsent⟩

/-- **ARBITRATION LOST**: the last attempt has sent everything exactly if the buffer is one byte
    and nothing is lost after it. -/
theorem write_after_loss_iff {addr : Byte} {data : Nat → Byte} {len : Byte}
    (hpolled : cfg.interruptDriven = false) (hready : d.ctx.state = .ready)
    (hplan : Reply.nack ∉ d.twi.plan) (hbits : 1 ≤ cfg.maxBufLenBits)
    (hlen : 1 ≤ len.toNat) (hmax : len.toNat ≤ cfg.maxBufLen) :
    (∃ fuel e, i2cMasterWrite fuel d addr data len = some (0, e) ∧
      sentBytes (lastAttempt e.twi.bus) = addr <<< 1 :: (range len.toNat).map data) ↔
      len.toNat = 1 ∧ 2 ≤ cfg.maxBufLenBits ∧ DataKept d.twi.plan := by
  obtain ⟨d₀, h₀, hreturns⟩ := write_started addr data hpolled hready hlen hmax
  have hmsg : (message cfg addr data len).len.toNat = len.toNat := toNat_setWidth_len hmax
  have hbus₀ : lastAttempt (d.twi.bus ++ [.start]) = [] := lastAttempt_start _
  have hsingle : len.toNat = 1 → 2 ≤ cfg.maxBufLenBits → ∃ e, Ends d₀ e ∧
      i2cResult cfg e.ctx = 0 ∧ sentBytes (lastAttempt e.twi.bus) =
        if DataKept d.twi.plan then [addr <<< 1, data 0] else [addr <<< 1] := fun hone hbits' =>
    h₀.single hbits' (hmsg.trans hone) _ hplan (by rw [hbus₀]; rfl)
  constructor
  · rintro ⟨fuel, e, hcall, hsent⟩
    obtain ⟨hends, -⟩ := (hreturns 0 e).mp ⟨fuel, hcall⟩
    obtain ⟨k, hk, hbound⟩ := Attempting.bounded hbits ⟨_, _, _, _, h₀, hplan, .started hbus₀⟩ hends
    have hcount : k = len.toNat := by
      rw [hsent] at hk
      simpa using hk.symm
    rw [hmsg] at hbound
    have hone : len.toNat = 1 := by omega
    have hbits' : 2 ≤ cfg.maxBufLenBits := by omega
    refine ⟨hone, hbits', ?_⟩
    obtain ⟨e', hends', -, hsent'⟩ := hsingle hone hbits'
    rw [DoWhile.Ends.unique hends' hends, hsent', hone] at hsent
    by_contra hkept
    rw [if_neg hkept] at hsent
    exact absurd (congrArg List.length hsent) (by simp)
  · rintro ⟨hone, hbits', hkept⟩
    obtain ⟨e, hends, hres, hsent⟩ := hsingle hone hbits'
    obtain ⟨fuel, hcall⟩ := (hreturns 0 e).mpr ⟨hends, hres.symm⟩
    refine ⟨fuel, e, hcall, ?_⟩
    rw [hsent, if_pos hkept, hone]
    rfl

theorem write_after_loss_iff_one :
    ∃ fuel e, i2cMasterWrite fuel (readyDevice polledConfig [.lost, .lost] fun _ => 0) 0x50
        (fun _ => 7) 1 = some (0, e) ∧
      sentBytes (lastAttempt e.twi.bus) = [0xA0, 7] :=
  (write_after_loss_iff rfl rfl (by decide) (by decide) (by decide) (by decide)).mpr
    ⟨by decide, by decide, by decide⟩

/-- Arbitration is lost after the only data byte: the second attempt has the
    address and nothing else, and the call returns 0. -/
theorem write_loses_byte :
    (i2cMasterWrite 10 (readyDevice polledConfig [.ack, .lost] fun _ => 0) 0x50
        (fun _ => 7) 1).map (fun r => (r.1, r.2.twi.bus)) =
      some (0, [.start, .sent 0xA0, .lost 7, .start, .sent 0xA0, .stop]) ∧
    ¬ ∃ fuel e, i2cMasterWrite fuel (readyDevice polledConfig [.ack, .lost] fun _ => 0) 0x50
        (fun _ => 7) 1 = some (0, e) ∧ sentBytes (lastAttempt e.twi.bus) = [0xA0, 7] := by
  refine ⟨by decide, ?_⟩
  rintro ⟨fuel, e, hcall, hsent⟩
  obtain ⟨d₀, h₀, hreturns⟩ := write_started 0x50 (fun _ => 7)
    (d := readyDevice polledConfig [.ack, .lost] fun _ => 0) rfl rfl
    (show 1 ≤ BitVec.toNat (1 : Byte) by decide) (by decide)
  obtain ⟨e', hends, -, hsent'⟩ := h₀.single (by decide) (by decide) _ (by decide) (by decide)
  rw [DoWhile.Ends.unique hends ((hreturns 0 e).mp ⟨fuel, hcall⟩).1, hsent'] at hsent
  exact absurd hsent (by decide)

end AvrtosI2c
