import Avrtos.I2c

/-! # What an I2C read stores

    A read is followed byte by byte; the acknowledgement is decided one report ahead. -/

namespace AvrtosI2c

open List AvrtosDefines Twi

variable {cfg : I2cConfig} {d e : I2cDevice cfg}

/-- What is asked for. -/
structure Request (cfg : I2cConfig) where
  len : BitVec cfg.maxBufLenBits
  byte : Nat → Byte
  stores : List (Nat × Byte)
  bus : List BusEvent

variable {req : Request cfg}

def Request.storesOf (req : Request cfg) (n : Nat) : List (Nat × Byte) :=
  req.stores ++ (range n).map fun i => (i, req.byte i)

def Request.busOf (req : Request cfg) (n : Nat) : List BusEvent :=
  req.bus ++ (range n).map fun i =>
    .received (req.byte i) (decide (i + 1 < req.len.toNat))

theorem Request.storesOf_succ (req : Request cfg) (n : Nat) :
    req.storesOf (n + 1) = req.storesOf n ++ [(n, req.byte n)] := by
  simp [storesOf, range_succ]

theorem Request.busOf_succ (req : Request cfg) (n : Nat) : req.busOf (n + 1) =
      req.busOf n ++ [.received (req.byte n) (decide (n + 1 < req.len.toNat))] := by
  simp [busOf, range_succ]

structure Holding (d : I2cDevice cfg) (req : Request cfg) (i : Nat) : Prop where
  cursor : d.ctx.cursor.toNat = i
  readLen : d.ctx.readLen = req.len
  state : d.ctx.state = .masterRx
  error : getError cfg d.ctx = .none
  buf : ∀ j < i, d.ctx.buf j = req.byte j
  stores : d.stores = req.storesOf i
  status : d.twi.status = some (if i + 1 < req.len.toNat then .mrDataAck else .mrDataNack)
  phase : d.twi.phase = .receiving
  twint : d.twi.twint = true
  twdr : d.twi.twdr = req.byte i
  supply : ∀ j, d.twi.stream (d.twi.taken + j) = req.byte (i + 1 + j)
  bus : d.twi.bus = req.busOf (i + 1)

theorem more_eq {x : Context cfg} {i : Nat} (hcursor : x.cursor.toNat = i)
    (hlen : x.readLen = req.len) : x.more = decide (i + 1 < req.len.toNat) := by
  rw [Context.more, hcursor, hlen]
  exact decide_eq_decide.mpr (by omega)

theorem Holding.received {x : Context cfg} {p : Interface} {stores : List (Nat × Byte)} {i : Nat}
    (hcursor : x.cursor.toNat = i) (hlen : x.readLen = req.len) (hstate : x.state = .masterRx)
    (herror : getError cfg x = .none) (hbuf : ∀ j < i, x.buf j = req.byte j)
    (hstores : stores = req.storesOf i) (hphase : p.phase = .receiving)
    (hsupply : ∀ j, p.stream (p.taken + j) = req.byte (i + j)) (hbus : p.bus = req.busOf i) :
    Holding ⟨p.proceed x.more, x, stores⟩ req i := by
  have hbyte : p.stream p.taken = req.byte i := hsupply 0
  rw [Interface.proceed_receiving hphase, more_eq hcursor hlen]
  refine ⟨hcursor, hlen, hstate, herror, hbuf, hstores, ?_, hphase, rfl, hbyte, ?_, ?_⟩
  · rw [Interface.status_receive]
    by_cases hmore : i + 1 < req.len.toNat <;> simp [hmore]
  · intro j
    have hnext := hsupply (1 + j)
    rw [← Nat.add_assoc, ← Nat.add_assoc] at hnext
    exact hnext
  · rw [req.busOf_succ, ← hbus, ← hbyte]
    rfl

theorem Holding.storeByte_buf {i : Nat} (h : Holding d req i) :
    ∀ j < i + 1, (d.ctx.storeByte d.twi.twdr).buf j = req.byte j := by
  intro j hj
  show Function.update d.ctx.buf d.ctx.cursor.toNat d.twi.twdr j = req.byte j
  rw [h.cursor, h.twdr, Function.update_apply]
  split
  · rename_i heq
    rw [heq]
  · exact h.buf j (by omega)

theorem Holding.storesOf {i : Nat} (h : Holding d req i) :
    d.stores ++ [(d.ctx.cursor.toNat, d.twi.twdr)] = req.storesOf (i + 1) := by
  rw [h.stores, h.cursor, h.twdr, req.storesOf_succ]

theorem Holding.next {i : Nat} (h : Holding d req i) (hmore : i + 1 < req.len.toNat) :
    Holding d.serve req (i + 1) := by
  have hlen := req.len.isLt
  have hstatus : d.twi.status = some .mrDataAck := by rw [h.status, if_pos hmore]
  have hcursor : (d.ctx.storeByte d.twi.twdr).cursor.toNat = i + 1 := by
    show (d.ctx.cursor + 1).toNat = i + 1
    rw [toNat_succ, h.cursor, if_neg (by omega)]
  rw [serve_mrDataAck hstatus]
  exact Holding.received hcursor h.readLen h.state h.error h.storeByte_buf h.storesOf h.phase
    h.supply h.bus

structure Stored (e : I2cDevice cfg) (req : Request cfg) (n : Nat) : Prop where
  result : i2cResult cfg e.ctx = 0
  buf : ∀ j < n, e.ctx.buf j = req.byte j
  stores : e.stores = req.storesOf n
  bus : e.twi.bus = req.busOf n ++ [.stop]

theorem Holding.last {i : Nat} (h : Holding d req i) (hend : ¬ i + 1 < req.len.toNat) :
    d.serve.ctx.state = .ready ∧ Stored d.serve req (i + 1) := by
  have hstatus : d.twi.status = some .mrDataNack := by rw [h.status, if_neg hend]
  have hphase := h.phase
  rw [serve_mrDataNack hstatus]
  refine ⟨rfl, if_neg (not_not.mpr h.error), h.storeByte_buf, h.storesOf, ?_⟩
  rw [← h.bus]
  exact if_neg (by simp [hphase])

theorem Holding.ends (k i : Nat) (hk : k = req.len.toNat - (i + 1)) (h : Holding d req i) :
    ∃ e, Ends d e ∧ Stored e req (i + 1 + k) := by
  induction k generalizing d i with
  | zero =>
    obtain ⟨hready, hstored⟩ := h.last (by omega)
    exact ⟨d.serve, (ends_iff_eq h.twint hready).mpr rfl, hstored⟩
  | succ k ih =>
    have hnext := h.next (by omega)
    obtain ⟨e, hends, hstored⟩ := ih (i + 1) (by omega) hnext
    refine ⟨e, (ends_iff_serve h.twint (by simp [hnext.state])).mpr hends, ?_⟩
    rwa [show i + 1 + (k + 1) = i + 1 + 1 + k by omega]

section Calls

variable (addr : Byte) (data : Nat → Byte) {len : Byte}

def request (d : I2cDevice cfg) (addr : Byte) (len : Byte) : Request cfg where
  len := len.setWidth cfg.maxBufLenBits
  byte := fun i => d.twi.stream (d.twi.taken + i)
  stores := d.stores
  bus := d.twi.bus ++ [.start, .sent (addr <<< 1 ||| TW_READ)]

theorem Holding.first (hreply : d.twi.reply = .ack) : ∃ d₂, Holding d₂ (request d addr len) 0 ∧
      ∀ e, Ends (d.carryOut ([twiStart cfg], startContext cfg d.ctx addr data 0 len)) e ↔
        Ends d₂ e := by
  generalize hx : startContext cfg d.ctx addr data 0 len = x
  have hfields := hx.symm.trans (startContext_eq d.ctx addr data 0 len)
  have herror : getError cfg x = .none := hx ▸ getError_startContext d.ctx addr data 0 len
  have hstate : x.state = .masterRx := by rw [hfields]; rfl
  have hsla : x.slaW = addr <<< 1 ||| TW_READ := by rw [hfields]; rfl
  -- the start condition
  have h₀ : d.carryOut ([twiStart cfg], x) = ⟨d.twi.start, x, d.stores⟩ := perform_twiStart _
  -- the address
  generalize hp : Interface.transmit { d.twi.start with twdr := x.slaW }
    .receiving .mrSlaAck .mrSlaNack = p
  have h₁ : I2cDevice.serve ⟨d.twi.start, x, d.stores⟩ = ⟨p, x, d.stores⟩ := by
    have hproceed : Interface.proceed { d.twi.start with twdr := x.slaW } true = p := by
      rw [← hp]
      exact Interface.proceed_read rfl (by simp [hsla, TW_READ])
    rw [serve_started (Interface.status_start d.twi), hproceed]
  have hreply' : Interface.reply { d.twi.start with twdr := x.slaW } = .ack := hreply
  have hstatus : p.status = some .mrSlaAck := by
    rw [← hp, Interface.status_transmit, hreply']
    rfl
  -- the first byte
  have h₂ : I2cDevice.serve ⟨p, x, d.stores⟩ = ⟨p.proceed x.more, x, d.stores⟩ :=
    serve_mrSlaAck hstatus
  refine ⟨⟨p.proceed x.more, x, d.stores⟩, ?_, ?_⟩
  · refine Holding.received ?_ ?_ hstate herror (fun j hj => absurd hj (Nat.not_lt_zero j)) ?_ ?_
      ?_ ?_
    · rw [hfields]
      simp
    · rw [hfields]
      rfl
    · simp [Request.storesOf, request]
    · rw [← hp]
      exact if_neg (by simp [hreply'])
    · intro j
      rw [Nat.zero_add, ← hp]
      rfl
    · rw [← hp]
      show d.twi.bus ++ [.start] ++
        [(Interface.reply { d.twi.start with twdr := x.slaW }).event x.slaW] = _
      rw [hreply', hsla]
      simp [Request.busOf, request, Reply.event]
  · intro e
    rw [h₀, ends_iff_serve rfl (by rw [h₁]; simp [hstate]), h₁,
      ends_iff_serve (by rw [← hp]; rfl) (by rw [h₂]; simp [hstate]), h₂]

theorem read_returns (hpolled : cfg.interruptDriven = false) (hready : d.ctx.state = .ready)
    (hreply : d.twi.reply = .ack) (hmax : len.toNat ≤ cfg.maxBufLen) :
    ∃ e : I2cDevice cfg,
      (∀ v e', (∃ fuel, i2cMasterRead fuel d addr data len = some (v, e')) ↔ v = 0 ∧ e' = e) ∧
      Stored e (request d addr len) (1 + (len.toNat - 1)) := by
  have hstart : i2cStart cfg d.ctx addr data 0 len = _ := i2cStart_ok hready (Nat.zero_le _) hmax
  have hreq : (request d addr len).len.toNat = len.toNat := toNat_setWidth_len hmax
  obtain ⟨d₂, h₂, hends₂⟩ := Holding.first addr data hreply
  obtain ⟨e, hends, hstored⟩ := h₂.ends (len.toNat - 1) 0 (by rw [hreq])
  refine ⟨e, ?_, by simpa using hstored⟩
  intro v e'
  refine (run_returns_iff hpolled hstart).trans ?_
  rw [hends₂]
  constructor
  · rintro ⟨he', hv⟩
    have heq : e' = e := DoWhile.Ends.unique hends he'
    exact ⟨by rw [hv, heq, hstored.result], heq⟩
  · rintro ⟨rfl, rfl⟩
    exact ⟨hends, hstored.result.symm⟩

theorem acknowledgements_range (byte : Nat → Byte) {n : Nat} (hn : 1 ≤ n) :
    acknowledgements ((range n).map fun i => .received (byte i) (decide (i + 1 < n))) =
      replicate (n - 1) true ++ [false] := by
  obtain ⟨m, rfl⟩ : ∃ m, n = m + 1 := ⟨n - 1, by omega⟩
  have hfront : (range m).map (fun i => decide (i + 1 < m + 1)) = replicate m true := by
    refine eq_replicate_iff.mpr ⟨by simp, fun b hb => ?_⟩
    obtain ⟨i, hi, rfl⟩ := mem_map.mp hb
    exact decide_eq_true (Nat.succ_lt_succ (mem_range.mp hi))
  have hall : BusEvent.acknowledged ∘ (fun i => .received (byte i) (decide (i + 1 < m + 1))) =
      fun i => some (decide (i + 1 < m + 1)) := rfl
  rw [acknowledgements, filterMap_map, hall, filterMap_eq_map', range_succ,
    map_append, hfront]
  simp

/-- **THE BYTES ASKED FOR, AND NO OTHERS**, are stored exactly if the length is not 0. -/
theorem read_stores_iff (hpolled : cfg.interruptDriven = false) (hready : d.ctx.state = .ready)
    (hreply : d.twi.reply = .ack) (hmax : len.toNat ≤ cfg.maxBufLen) :
    (∃ fuel e, i2cMasterRead fuel d addr data len = some (0, e) ∧
      (∀ i < len.toNat, e.ctx.buf i = d.twi.stream (d.twi.taken + i)) ∧
      (∃ stores, e.stores = d.stores ++ stores ∧ ∀ s ∈ stores, s.1 < len.toNat) ∧
      (1 ≤ len.toNat → ∃ events, e.twi.bus = d.twi.bus ++ events ∧
        acknowledgements events = replicate (len.toNat - 1) true ++ [false])) ↔
      1 ≤ len.toNat := by
  have hreq : (request d addr len).len.toNat = len.toNat := toNat_setWidth_len hmax
  obtain ⟨e, hreturns, hstored⟩ := read_returns addr data hpolled hready hreply hmax
  constructor
  · rintro ⟨fuel, e', hcall, -, ⟨stores, hstores, hbound⟩, -⟩
    rw [((hreturns 0 e').mp ⟨fuel, hcall⟩).2, hstored.stores] at hstores
    have hall := append_cancel_left hstores
    have hfirst := hbound (0, (request d addr len).byte 0) (by
      rw [← hall]
      exact mem_map.mpr ⟨0, mem_range.mpr (by omega), rfl⟩)
    exact hfirst
  · intro hlen
    have hn : 1 + (len.toNat - 1) = len.toNat := by omega
    rw [hn] at hstored
    obtain ⟨fuel, hcall⟩ := (hreturns 0 e).mpr ⟨rfl, rfl⟩
    refine ⟨fuel, e, hcall, hstored.buf, ⟨_, hstored.stores, ?_⟩, fun _ =>
      ⟨[.start, .sent (addr <<< 1 ||| TW_READ)] ++ (range len.toNat).map (fun i =>
        .received (d.twi.stream (d.twi.taken + i)) (decide (i + 1 < len.toNat))) ++ [.stop],
        ?_, ?_⟩⟩
    · intro s hs
      obtain ⟨i, hi, heq⟩ := mem_map.mp hs
      rw [← heq]
      exact mem_range.mp hi
    · rw [hstored.bus, Request.busOf, hreq]
      simp [request]
    · rw [acknowledgements_append, acknowledgements_append, acknowledgements_range _ hlen]
      exact append_nil _

theorem read_stores_iff_two :
    ∃ fuel e, i2cMasterRead fuel (readyDevice polledConfig [] (BitVec.ofNat 8)) 0x50
        (fun _ => 0xFF) 2 = some (0, e) ∧
      (∀ i < 2, e.ctx.buf i = BitVec.ofNat 8 (0 + i)) ∧
      (∃ stores, e.stores = [] ++ stores ∧ ∀ s ∈ stores, s.1 < 2) ∧
      (1 ≤ 2 → ∃ events, e.twi.bus = [] ++ events ∧ acknowledgements events = [true, false]) :=
  (read_stores_iff 0x50 (fun _ => 0xFF) (d := readyDevice polledConfig [] (BitVec.ofNat 8))
    rfl rfl rfl (show BitVec.toNat (2 : Byte) ≤ _ by decide)).mpr (by decide)

/-- A read of length 0 stores a byte at the start of the buffer. -/
theorem read_of_zero_stores :
    (i2cMasterRead 10 (readyDevice polledConfig [] fun _ => 7) 0x50 (fun _ => 0xFF) 0).map
        (fun r => (r.1, r.2.ctx.buf 0, r.2.stores)) = some (0, 7, [(0, 7)]) ∧
    ¬ ∃ fuel e, i2cMasterRead fuel (readyDevice polledConfig [] fun _ => 7) 0x50
        (fun _ => 0xFF) 0 = some (0, e) ∧ ∀ s ∈ e.stores, s.1 < 0 := by
  refine ⟨by decide, ?_⟩
  rintro ⟨fuel, e, hcall, hstores⟩
  obtain ⟨e', hreturns, hstored⟩ := read_returns 0x50 (fun _ => 0xFF)
    (d := readyDevice polledConfig [] fun _ => 7) rfl rfl rfl
    (show BitVec.toNat (0 : Byte) ≤ _ by decide)
  rw [((hreturns 0 e).mp ⟨fuel, hcall⟩).2, hstored.stores] at hstores
  exact absurd (hstores (0, 7) (by decide)) (by decide)

end Calls

end AvrtosI2c
