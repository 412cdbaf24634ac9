import Avrtos.Base.AvrInterrupts
import Avrtos.ContextSwitch

/-! # The ticks counter: `TIMERn_COMPA_vect` and `arch/arch_utils.S`

    Reads between any interrupts return one value that the counter had. -/

namespace AvrtosTickReads

open Function List Avr Avr.Machine AvrtosContextSwitch Runs

variable {c : Config} {T : Type} {l : Layout c T}

def kTicksGet32 (l : Layout c T) : List Instr :=
  [.lds 26 SREG,
   .cli,
   .lds 22 (l.ker 2),
   .lds 23 (l.ker 3),
   .lds 24 (l.ker 4),
   .sts SREG 26,
   .lds 25 (l.ker 5),
   .ret]

def kTicksGet64 (l : Layout c T) : List Instr :=
  [.lds 26 SREG,
   .cli,
   .lds 18 (l.ker 2),
   .lds 19 (l.ker 3),
   .lds 20 (l.ker 4),
   .lds 21 (l.ker 5),
   .sts SREG 26,
   if c.ticks40 then .lds 22 (l.ker 6) else .ldi 22 0x00,
   .ldi 23 0x00,
   .ldi 24 0x00,
   .ldi 25 0x00,
   .ret]

def returned {w : Nat} (m : Machine w) (rs : List Reg) : Nat := ofBytes (rs.map m.reg)

def value32 {w : Nat} (m : Machine w) : Nat := returned m [22, 23, 24, 25]

def value64 {w : Nat} (m : Machine w) : Nat := returned m [18, 19, 20, 21, 22, 23, 24, 25]

def lowTicks (l : Layout c T) (mem : Addr → Byte) (k : Nat) : Nat :=
  ofBytes ((range k).map fun i => mem (l.ker (2 + i)))

/-- `z_ker.ticks` as a number. -/
def ticks (l : Layout c T) (mem : Addr → Byte) : Nat := lowTicks l mem c.ticksSize

theorem lowTicks_succ (mem : Addr → Byte) (k : Nat) :
    lowTicks l mem (k + 1) = lowTicks l mem k + 256 ^ k * (mem (l.ker (2 + k))).toNat := by
  rw [lowTicks, range_succ, map_append, ofBytes_append, length_map,
    length_range]
  simp [lowTicks, ofBytes]

theorem lowTicks_lt (mem : Addr → Byte) (k : Nat) : lowTicks l mem k < 256 ^ k := by
  induction k with
  | zero => exact Nat.one_pos
  | succ k ih =>
    have hb := (mem (l.ker (2 + k))).isLt
    rw [lowTicks_succ, Nat.pow_succ]
    nlinarith

theorem lowTicks_congr {mem mem' : Addr → Byte} {k : Nat}
    (h : ∀ i < k, mem' (l.ker (2 + i)) = mem (l.ker (2 + i))) :
    lowTicks l mem' k = lowTicks l mem k := by
  refine congrArg ofBytes (map_congr_left ?_)
  intro i hi
  exact h i (mem_range.mp hi)

theorem lowTicks_mod (mem : Addr → Byte) {j k : Nat} (h : j ≤ k) :
    lowTicks l mem k % 256 ^ j = lowTicks l mem j := by
  induction k, h using Nat.le_induction with
  | base => exact Nat.mod_eq_of_lt (lowTicks_lt mem j)
  | succ k hk ih =>
    obtain ⟨d, rfl⟩ := Nat.exists_eq_add_of_le hk
    rw [lowTicks_succ, Nat.pow_add, Nat.mul_assoc, Nat.add_mul_mod_self_left, ih]

theorem add_carry_byte : ∀ (b : Byte) (cy : Bool), (b + 0 + (BitVec.ofBool cy).setWidth 8).toNat +
      256 * (carryOut 7 b 0 (b + 0 + (BitVec.ofBool cy).setWidth 8)).toNat =
    b.toNat + cy.toNat := by
  decide

theorem add_one_byte : ∀ b : Byte,
    (b + 1).toNat + 256 * (carryOut 7 b 1 (b + 1)).toNat = b.toNat + 1 := by
  decide

structure Rippled (l : Layout c T) (k : Nat) (m₀ m : Machine c.pcSize) : Prop where
  low : lowTicks l m.mem k + 256 ^ k * (carryFlag m.sreg).toNat = lowTicks l m₀.mem k + 1
  high : ∀ j, k ≤ j → j < 6 → m.mem (l.ker (2 + j)) = m₀.mem (l.ker (2 + j))
  zero : m.reg 1 = 0

variable {m m₀ : Machine c.pcSize} {k : Nat}

theorem addCarry_spec {i : Nat} (hi : i < 8) (hzero : m.reg 1 = 0) :
    (addCarry l i m).mem = update m.mem (l.ker i)
      (m.mem (l.ker i) + 0 + (BitVec.ofBool (carryFlag m.sreg)).setWidth 8) ∧
    carryFlag (addCarry l i m).sreg = carryOut 7 (m.mem (l.ker i)) 0
      (m.mem (l.ker i) + 0 + (BitVec.ofBool (carryFlag m.sreg)).setWidth 8) := by
  have hram : IsRam (l.ker i) := l.ker_ram i hi
  have h1 : (m.setReg 0 (m.mem (l.ker i))).reg 1 = 0 := by
    rw [setReg_of_ne (by decide), hzero]
  rw [addCarry, sts, write_of_isRam hram, adc, lds, read_of_isRam hram]
  simp only [setReg_self, h1, setReg_sreg]
  exact ⟨rfl, carryFlag_withFlags ..⟩

theorem Rippled.next {v : Byte} {m' : Machine c.pcSize} (h : Rippled l k m₀ m) (hk : k < 6)
    (hmem : m'.mem = update m.mem (l.ker (2 + k)) v) (hzero : m'.reg 1 = 0)
    (hv : v.toNat + 256 * (carryFlag m'.sreg).toNat =
      (m₀.mem (l.ker (2 + k))).toNat + (carryFlag m.sreg).toNat) : Rippled l (k + 1) m₀ m' := by
  have hlow : lowTicks l m'.mem k = lowTicks l m.mem k := by
    refine lowTicks_congr fun i hi => ?_
    rw [hmem, update_of_ne (Layout.ker_ne (by omega) (by omega) (by omega))]
  refine ⟨?_, ?_, hzero⟩
  · have hl := h.low
    rw [lowTicks_succ, lowTicks_succ, hlow, hmem, update_self, Nat.pow_succ]
    calc lowTicks l m.mem k + 256 ^ k * v.toNat + 256 ^ k * 256 * (carryFlag m'.sreg).toNat
        = lowTicks l m.mem k + 256 ^ k * (v.toNat + 256 * (carryFlag m'.sreg).toNat) := by ring
      _ = lowTicks l m.mem k + 256 ^ k * (carryFlag m.sreg).toNat +
            256 ^ k * (m₀.mem (l.ker (2 + k))).toNat := by rw [hv]; ring
      _ = lowTicks l m₀.mem k + 256 ^ k * (m₀.mem (l.ker (2 + k))).toNat + 1 := by
            rw [hl]; ring
  · intro j hj hj6
    rw [hmem, update_of_ne (Layout.ker_ne (by omega) (by omega) (by omega))]
    exact h.high j (by omega) hj6

theorem Rippled.addCarry (h : Rippled l k m₀ m) (hk : k < 6) :
    Rippled l (k + 1) m₀ (addCarry l (2 + k) m) := by
  obtain ⟨hmem, hcarry⟩ := addCarry_spec (l := l) (i := 2 + k) (by omega) h.zero
  refine h.next hk hmem ?_ ?_
  · rw [addCarry_reg (by decide), h.zero]
  · rw [hcarry, ← h.high k (Nat.le_refl k) hk]
    exact add_carry_byte _ _

theorem rippled_first (hzero : m.reg 1 = 0) :
    Rippled l 1 m (m |> ldi 18 0x01 |> lds 0 (l.ker 2) |> add 0 18 |> sts (l.ker 2) 0) := by
  have hram : IsRam (l.ker 2) := l.ker_ram 2 (by decide)
  have h0 : (m.setReg 18 0x01).read (l.ker 2) = m.mem (l.ker 2) := read_of_isRam hram
  have h18 : ((m.setReg 18 0x01).setReg 0 (m.mem (l.ker 2))).reg 18 = 0x01 := by
    rw [setReg_of_ne (by decide), setReg_self]
  have hm : (m |> ldi 18 0x01 |> lds 0 (l.ker 2) |> add 0 18 |> sts (l.ker 2) 0) =
      { (((m.setReg 18 0x01).setReg 0 (m.mem (l.ker 2))).setReg 0 (m.mem (l.ker 2) + 1)) with
        sreg := addFlags m.sreg (m.mem (l.ker 2)) 1 (m.mem (l.ker 2) + 1)
        mem := update m.mem (l.ker 2) (m.mem (l.ker 2) + 1) } := by
    simp only [ldi, lds, add, sts, h0, h18, setReg_self]
    rw [write_of_isRam hram]
    rfl
  rw [hm]
  refine ⟨?_, ?_, ?_⟩
  · have hone := add_one_byte (m.mem (l.ker 2))
    have hcarry : carryFlag (addFlags m.sreg (m.mem (l.ker 2)) 1 (m.mem (l.ker 2) + 1)) =
        carryOut 7 (m.mem (l.ker 2)) 1 (m.mem (l.ker 2) + 1) := carryFlag_withFlags ..
    rw [lowTicks_succ, lowTicks_succ]
    simp only [hcarry, update_self, lowTicks, range_zero, map_nil, ofBytes,
      Nat.pow_zero, Nat.pow_one, Nat.one_mul, Nat.zero_add, Nat.add_zero]
    exact hone
  · intro j hj hj6
    exact update_of_ne (Layout.ker_ne (by omega) (by omega) (by omega)) _ _
  · show (((m.setReg 18 0x01).setReg 0 (m.mem (l.ker 2))).setReg 0 (m.mem (l.ker 2) + 1)).reg 1 = 0
    rw [setReg_of_ne (by decide), setReg_of_ne (by decide), setReg_of_ne (by decide), hzero]

theorem Rippled.ticks (h : Rippled l k m₀ m) :
    lowTicks l m.mem k = (lowTicks l m₀.mem k + 1) % 256 ^ k := by
  rw [← h.low, Nat.add_mul_mod_self_left, Nat.mod_eq_of_lt (lowTicks_lt m.mem k)]

theorem countTick_ticks (hc : c.ticksCounter = true) (hzero : m.reg 1 = 0) :
    ticks l (countTick l m).mem = (ticks l m.mem + 1) % 256 ^ c.ticksSize := by
  have h4 := (((rippled_first (l := l) hzero).addCarry (by decide)).addCarry (by decide)).addCarry
    (by decide)
  rw [countTick, AvrtosTickReads.ticks, AvrtosTickReads.ticks, Config.ticksSize, if_pos hc]
  split_ifs with h40
  · exact (h4.addCarry (by decide)).ticks
  · exact h4.ticks

/-- The bytes of the counter. -/
def InTicks (l : Layout c T) (a : Addr) : Prop := ∃ i < c.ticksSize, a = l.ker (2 + i)

def KeepsTicks (l : Layout c T) (f : Machine c.pcSize → Machine c.pcSize)
    (m : Machine c.pcSize) : Prop := ∀ a, InTicks l a → (f m).mem a = m.mem a

theorem InTicks.ker {a : Addr} (h : InTicks l a) :
    ∃ i, 2 ≤ i ∧ i < 2 + c.ticksSize ∧ a = l.ker i := by
  obtain ⟨i, hi, rfl⟩ := h
  exact ⟨2 + i, by omega, by omega, rfl⟩

theorem ticks_congr {mem mem' : Addr → Byte} (h : ∀ a, InTicks l a → mem' a = mem a) :
    ticks l mem' = ticks l mem :=
  lowTicks_congr fun i hi => h _ ⟨i, hi, rfl⟩

variable {s : Sys c T} {n : Nat}

theorem room_ker {keep : Addr → Prop} (hs : s.Space l n)
    (hkeep : ∀ a, keep a → ∃ i < 8, a = l.ker i) : Room keep s.cpu.sp n := by
  have hbot := l.bot_ram s.running
  refine ⟨by have := hs.1; omega, ?_⟩
  intro a h1 h2 ha
  obtain ⟨i, hi, rfl⟩ := hkeep a ha
  rcases hs.out (l.ker_off i hi s.running) with ho | ho
  · rw [Layout.ker] at h2
    omega
  · rw [Layout.ker] at h1
    omega

theorem takes_ker {keep : Addr → Prop} (hs : s.Space l n) {e : Machine c.pcSize}
    (he : e.sp = s.cpu.sp) {i : Nat} (hi : i < 8) (hkeep : ¬ keep (l.ker i)) :
    Takes keep e n (l.ker i) := by
  refine ⟨l.ker_ram i hi, hkeep, ?_⟩
  rw [he]
  exact hs.out (l.ker_off i hi s.running)

theorem room_ticks (hs : s.Space l n) : Room (InTicks l) s.cpu.sp n := by
  have hsize := ticksSize_lt (c := c)
  refine room_ker hs fun a ha => ?_
  obtain ⟨i, -, hi, rfl⟩ := ha.ker
  exact ⟨i, by omega, rfl⟩

theorem takes_slice (hs : s.Space l n) {e : Machine c.pcSize} (he : e.sp = s.cpu.sp) :
    Takes (InTicks l) e n (l.ker (2 + c.ticksSize)) := by
  have hsize := ticksSize_lt (c := c)
  refine takes_ker hs he hsize fun ha => ?_
  obtain ⟨i, -, hi, heq⟩ := ha.ker
  exact Layout.ker_ne (l := l) hsize (by omega) (by omega) heq

/-- The bytes of `z_ker.current`. -/
def AtCurrent (l : Layout c T) (a : Addr) : Prop := a = l.ker 0 ∨ a = l.ker 1

theorem room_current (hs : s.Space l n) : Room (AtCurrent l) s.cpu.sp n := by
  refine room_ker hs ?_
  rintro a (rfl | rfl)
  · exact ⟨0, by decide, rfl⟩
  · exact ⟨1, by decide, rfl⟩

theorem takes_ker_current (hs : s.Space l n) {e : Machine c.pcSize} (he : e.sp = s.cpu.sp)
    {i : Nat} (h2 : 2 ≤ i) (hi : i < 8) : Takes (AtCurrent l) e n (l.ker i) := by
  refine takes_ker hs he hi ?_
  rintro (heq | heq)
  · exact Layout.ker_ne (l := l) hi (by decide) (by omega) heq
  · exact Layout.ker_ne (l := l) hi (by decide) (by omega) heq

theorem takes_sp_ticks (hs : s.Space l n) {e : Machine c.pcSize} (he : e.sp = s.cpu.sp) {i : Nat}
    (hi : i < 2) : Takes (InTicks l) e n (l.spByte s.running i) := by
  have hsize := ticksSize_lt (c := c)
  refine ⟨l.sp_ram _ i hi, ?_, ?_⟩
  · intro ha
    obtain ⟨j, -, hj, heq⟩ := ha.ker
    exact l.sp_ker s.running i hi j (by omega) heq
  · rw [he]
    exact hs.out (l.sp_off s.running i hi s.running)

theorem timerEntry_ticks (hc : c.ticksCounter = true) (hs : s.Space l n)
    (hn : c.pcSize + 4 ≤ n) :
    ticks l (timerEntry l s.cpu).mem = (ticks l s.cpu.mem + 1) % 256 ^ c.ticksSize := by
  have h := entry_pushed (m := s.cpu) (e := { s.cpu with sreg := s.cpu.sreg &&& 0x7F#8 })
    (room_ticks hs) hn rfl
  have hzero : (s.cpu.interrupt |> push 1 |> push 0 |> lds 0 SREG |> push 0 |> eor 1 1
      |> push 18).reg 1 = 0 := eor_self 1 _
  rw [timerEntry, if_pos hc, countTick_ticks hc hzero, ticks_congr h.mem]

theorem timerCompaVect_mem {zSchedEnter zScheduler : Machine c.pcSize → Machine c.pcSize}
    {e : Machine c.pcSize} (he : e.sp = s.cpu.sp) (hs : s.Space l (2 * c.pcSize + 34))
    (htick : TickPushed l (InTicks l) e s.cpu zSchedEnter)
    (hsch : ∀ m, m = (atSchedEnter l s.cpu |> zSchedEnter |> testLocked l |> pushRestore l) →
      Called (InTicks l) e.sp m (zScheduler m) ∧ (zScheduler m).word 24 = l.thread s.running)
    {a : Addr} (ha : InTicks l a) :
    (timerCompaVect l zSchedEnter zScheduler s.cpu).mem a = e.mem a := by
  obtain ⟨hslice, hentered, htested, hyields⟩ := htick
  have hroom := room_ticks hs
  rw [← he] at hroom
  rw [timerCompaVect]
  simp only
  split_ifs
  · rw [intctxRestoreMinimal_mem]
    exact hslice.mem a ha
  · rw [intctxRestore_mem]
    exact htested.mem a ha
  · obtain ⟨hcalled, hprev⟩ := hsch _ rfl
    rw [goOn_mem]
    refine zYield_mem hyields hroom ?_ hcalled ?_ ?_ ha
    · rw [length_append, length_restoreBytes, length_tickBytes]
      omega
    · rw [hprev, ← l.spByte_zero]
      exact takes_sp_ticks hs he (by decide)
    · rw [hprev]
      exact takes_sp_ticks hs he (i := 1) (by decide)
  · rw [intctxRestore_mem]
    exact hentered.mem a ha

/-- **ONE TICK PER INTERRUPT**. -/
theorem tick_counts [DecidableEq T] {zSchedEnter zScheduler : Machine c.pcSize → Machine c.pcSize}
    {next : T} (hcur : l.current s.cpu.mem = l.thread s.running) (hc : c.ticksCounter = true)
    (hok : s.Allowed l (.tick zSchedEnter zScheduler next))
    (henter : KeepsTicks l zSchedEnter (atSchedEnter l s.cpu))
    (hsch : KeepsTicks l zScheduler
      (atSchedEnter l s.cpu |> zSchedEnter |> testLocked l |> pushRestore l)) :
    ticks l (s.step l (.tick zSchedEnter zScheduler next)).cpu.mem =
      (ticks l s.cpu.mem + 1) % 256 ^ c.ticksSize := by
  obtain ⟨-, hspace, hce, ⟨hcs, hprev⟩, -⟩ := hok
  have htakes : ∀ i, 2 ≤ i → i < 8 → Takes (AtCurrent l)
      { s.cpu with sreg := s.cpu.sreg &&& 0x7F#8 } (2 * c.pcSize + 34) (l.ker i) := by
    intro i h2 h8
    refine takes_ker_current hspace ?_ h2 h8
    rfl
  have hroom : Room (AtCurrent l)
      { s.cpu with sreg := s.cpu.sreg &&& 0x7F#8 }.sp (2 * c.pcSize + 34) := room_current hspace
  have hentry := timerEntry_pushed hroom (by omega) rfl htakes
  have hkept := tickPushed hentry rfl hroom (by omega)
    (htakes _ (Nat.le_add_right 2 _) ticksSize_lt)
    { hce with mem := fun a ha => hce.mem a (.inr ha) }
  rw [← timerEntry_ticks hc hspace (by omega)]
  refine ticks_congr fun a ha => ?_
  refine timerCompaVect_mem (e := { s.cpu with
      sreg := s.cpu.sreg &&& 0x7F#8
      mem := (timerEntry l s.cpu).mem }) rfl hspace ?_ ?_ ha
  · refine tickPushed ⟨hentry.stacked, hentry.sp, fun _ _ => rfl, hentry.regs, hentry.irq⟩ rfl
      (room_ticks hspace) (by omega) (takes_slice hspace rfl) { hce with mem := henter }
  · rintro m rfl
    refine ⟨{ hcs with mem := hsch }, hprev.trans (Eq.trans ?_ hcur)⟩
    exact Layout.current_congr (hkept.yields.mem _ (.inl rfl)) (hkept.yields.mem _ (.inr rfl))

theorem SwitchReach.current [DecidableEq T] (h : SwitchReach l s) :
    l.current s.cpu.mem = l.thread s.running := by
  refine h.invariant (fun s hs => hs.2.1) ?_
  intro s op hs hok
  cases op with
  | code m =>
    refine Eq.trans ?_ hs
    exact Layout.current_congr (hok _ (.inr (.inl rfl))) (hok _ (.inr (.inr rfl)))
  | yield zScheduler next => exact hok.2.2.2
  | tick zSchedEnter zScheduler next => exact hok.2.2.2.2

theorem exec_lds {i : Nat} (hi : i < 8) (r : Reg) (m : Machine c.pcSize) :
    (Instr.lds r (l.ker i)).exec m = m.setReg r (m.mem (l.ker i)) := by
  rw [Instr.exec, lds, read_of_isRam (show IsRam (l.ker i) from l.ker_ram i hi)]

theorem exec_restore (r : Reg) (m : Machine c.pcSize) :
    (Instr.sts SREG r).exec m = { m with sreg := m.reg r } := by
  rw [Instr.exec, sts, write_SREG]

theorem exec_ldi (r : Reg) (k : Byte) (m : Machine c.pcSize) :
    (Instr.ldi r k).exec m = m.setReg r k := rfl

theorem exec_ret_reg (m : Machine c.pcSize) : (Instr.exec .ret m).reg = m.reg := rfl

theorem kTicksGet32_snapshot {m : Machine c.pcSize} {st : Code c.pcSize}
    (h : Code.Runs (kTicksGet32 l) m st) (hend : st.rest = []) :
    (∃ e ∈ st.seen, value32 st.m = lowTicks l e.mem 4) ∧ st.m.sreg = m.sreg := by
  have hcrit : ∀ i ∈ [Instr.lds 22 (l.ker 2), .lds 23 (l.ker 3), .lds 24 (l.ker 4)],
      i.Loads 26 := by
    simp [Instr.Loads]
  have hlast : (Instr.lds 25 (l.ker 5)).Loads 26 := by
    simp [Instr.Loads]
  obtain ⟨⟨e, he, hreg⟩, hsreg⟩ := snapshot hcrit hlast
    (show ∀ i ∈ [Instr.ret], i.Immediate by decide) h hend
  refine ⟨⟨e, he, ?_⟩, hsreg⟩
  rw [value32, returned, hreg]
  simp [exec_restore, exec_lds, exec_ret_reg, setReg, Instr.execAll, lowTicks, range_succ]

theorem kTicksGet64_snapshot {m : Machine c.pcSize} {st : Code c.pcSize}
    (hc : c.ticksCounter = true) (h : Code.Runs (kTicksGet64 l) m st) (hend : st.rest = []) :
    (∃ e ∈ st.seen, value64 st.m = ticks l e.mem) ∧ st.m.sreg = m.sreg := by
  have hcrit : ∀ i ∈ [Instr.lds 18 (l.ker 2), .lds 19 (l.ker 3), .lds 20 (l.ker 4),
      .lds 21 (l.ker 5)], i.Loads 26 := by
    simp [Instr.Loads]
  have hlast : (if c.ticks40 then Instr.lds 22 (l.ker 6) else .ldi 22 0x00).Loads 26 := by
    split_ifs <;> simp [Instr.Loads]
  obtain ⟨⟨e, he, hreg⟩, hsreg⟩ := snapshot hcrit hlast
    (show ∀ i ∈ [Instr.ldi 23 0x00, .ldi 24 0x00, .ldi 25 0x00, .ret], i.Immediate by decide)
    h hend
  refine ⟨⟨e, he, ?_⟩, hsreg⟩
  rw [value64, returned, hreg, ticks, Config.ticksSize, if_pos hc]
  split_ifs
  all_goals
    simp [exec_restore, exec_lds, exec_ldi, exec_ret_reg, setReg, Instr.execAll, lowTicks,
      range_succ, ofBytes]

/-- **CONSISTENT READS**: every interrupt counts one tick, and each read returns a value that the
    counter had between call and return. -/
theorem tick_reads_consistent [DecidableEq T] (hc : c.ticksCounter = true) :
    (∀ (s : Sys c T), SwitchReach l s → ∀ zSchedEnter zScheduler next,
      s.Allowed l (.tick zSchedEnter zScheduler next) →
      KeepsTicks l zSchedEnter (atSchedEnter l s.cpu) →
      KeepsTicks l zScheduler
        (atSchedEnter l s.cpu |> zSchedEnter |> testLocked l |> pushRestore l) →
      ticks l (s.step l (.tick zSchedEnter zScheduler next)).cpu.mem =
        (ticks l s.cpu.mem + 1) % 2 ^ (8 * c.ticksSize)) ∧
    (∀ (m : Machine c.pcSize) (st : Code c.pcSize), Code.Runs (kTicksGet32 l) m st →
      (∃ st', Code.Runs (kTicksGet32 l) m st' ∧ st'.rest = []) ∧
      (st.rest = [] → (∃ e ∈ st.seen, value32 st.m = ticks l e.mem % 2 ^ 32) ∧
        st.m.sreg = m.sreg)) ∧
    (∀ (m : Machine c.pcSize) (st : Code c.pcSize), Code.Runs (kTicksGet64 l) m st →
      (∃ st', Code.Runs (kTicksGet64 l) m st' ∧ st'.rest = []) ∧
      (st.rest = [] → (∃ e ∈ st.seen, value64 st.m = ticks l e.mem) ∧
        st.m.sreg = m.sreg)) := by
  refine ⟨?_, ?_, ?_⟩
  · intro s hs zSchedEnter zScheduler next hok henter hsch
    rw [Nat.pow_mul]
    exact tick_counts (SwitchReach.current hs) hc hok henter hsch
  · intro m st h
    refine ⟨h.finishes, fun hend => ?_⟩
    obtain ⟨⟨e, he, hval⟩, hsreg⟩ := kTicksGet32_snapshot h hend
    refine ⟨⟨e, he, ?_⟩, hsreg⟩
    have hsize : 4 ≤ c.ticksSize := by
      rw [Config.ticksSize, if_pos hc]
      split_ifs <;> decide
    rw [hval, ticks]
    exact (lowTicks_mod e.mem hsize).symm
  · intro m st h
    exact ⟨h.finishes, fun hend => kTicksGet64_snapshot hc h hend⟩

theorem choose_keepsTicks (next : T) (m : Machine c.pcSize) : KeepsTicks l (choose l next) m := by
  have hsize := ticksSize_lt (c := c)
  intro a ha
  obtain ⟨i, h2, hi, rfl⟩ := ha.ker
  exact (update_of_ne (Layout.ker_ne (by omega) (by decide) (by omega)) _ _).trans
    (update_of_ne (Layout.ker_ne (by omega) (by decide) (by omega)) _ _)

def lateMem (a : Addr) : Byte := if 0x102 ≤ a ∧ a ≤ 0x105 then 0xFF else 0
def nextMem (a : Addr) : Byte := if a = 0x106 then 1 else 0

def lateMachine (mem : Addr → Byte) : Machine allOptions.pcSize :=
  ⟨fun _ => 0, 0x80, 0x27F, ⟨0x50, Nat.le_of_ble_eq_true rfl⟩, mem⟩

/-- `k_ticks_get_64` is interrupted when it has saved the status register. -/
def lateRead : List (Event allOptions.pcSize) :=
  .instr :: .interrupt ((lateMachine nextMem).setReg 26 0x80) :: replicate 11 .instr

/-- The state at its end. -/
def lateReadEnd : Code allOptions.pcSize :=
  lateRead.foldl Code.step
    ⟨lateMachine lateMem, kTicksGet64 twoThreads, false, [lateMachine lateMem]⟩

theorem lateRead_runs : Code.Runs (kTicksGet64 twoThreads) (lateMachine lateMem) lateReadEnd := by
  have hne : ∀ (i : Instr) is, i :: is ≠ [] := cons_ne_nil
  refine Reach.foldl (.start rfl) ⟨hne _ _, ⟨rfl, rfl, rfl, rfl, rfl, rfl⟩, ?_⟩
  exact ⟨hne _ _, hne _ _, hne _ _, hne _ _, hne _ _, hne _ _, hne _ _, hne _ _, hne _ _,
    hne _ _, hne _ _, trivial⟩

/-- The interrupted read returns `2 ^ 32`, the counter after the interrupt; and an
    interrupt of the thread that runs first counts a tick. -/
theorem tick_reads_consistent_late :
    (value64 lateReadEnd.m = 2 ^ 32 ∧ ∃ e ∈ lateReadEnd.seen, value64 lateReadEnd.m =
      ticks twoThreads e.mem) ∧
    ticks twoThreads ((startSys.step twoThreads (yieldTo false)).step twoThreads
      (tickTo true)).cpu.mem = 1 := by
  have h := tick_reads_consistent (l := twoThreads) rfl
  refine ⟨⟨by decide +kernel, ((h.2.2 _ _ lateRead_runs).2 rfl).1⟩, ?_⟩
  have hreach : SwitchReach twoThreads (startSys.step twoThreads (yieldTo false)) :=
    (Reach.start startSys_start).step _ (startSys_yieldTo false)
  refine (h.1 _ hreach id (choose twoThreads true) true startSys_tickTo (fun _ _ => rfl)
    (choose_keepsTicks true _)).trans ?_
  decide +kernel

end AvrtosTickReads
