import Avrtos.Base.Runs

/-! # Asynchronous transmission (`drivers/usart.c`)

    `Phase` says what is sent, what is in the transmitter and what is to come. -/

namespace AvrtosUsartTx

open List Runs

abbrev Byte := BitVec 8

structure TxContext where
  buf : List Byte
  size : Nat
  cur : Nat
deriving DecidableEq, Repr

/-- What the driver gives out. -/
inductive Output
  | udr (byte : Byte)
  | txComplete
deriving DecidableEq, Repr

inductive Half
  | first
  | second
deriving DecidableEq, Repr

inductive Stage
  | buf (half : Half)
  | size (half : Half)
  | cur (half : Half)
  | enable
deriving DecidableEq, Repr

structure State where
  tx : TxContext
  udrie : Bool
  txcie : Bool
  udr : Option Byte
  shift : Option Byte
  txc : Bool
  call : Option (List Byte × Stage)
  torn : List Byte
  calls : List (List Byte)
  log : List Output

def storeByte (lowFirst : Bool) (half : Half) (old value : Nat) : Nat :=
  if lowFirst = decide (half = .first) then old / 256 * 256 + value % 256
  else value / 256 % 256 * 256 + old % 256

variable (lowFirst : Bool)

theorem storeByte_second {value : Nat} (h : value < 2 ^ 16) (old : Nat) :
    storeByte lowFirst .second (storeByte lowFirst .first old value) value = value := by
  cases lowFirst with
  | false =>
    show (value / 256 % 256 * 256 + old % 256) / 256 * 256 + value % 256 = value
    omega
  | true =>
    show value / 256 % 256 * 256 + (old / 256 * 256 + value % 256) % 256 = value
    omega

def assign (buf : List Byte) (s : State) : Stage → State
  | .buf .first => { s with tx := { s.tx with buf := s.torn } }
  | .buf .second => { s with tx := { s.tx with buf := buf } }
  | .size half =>
      { s with tx := { s.tx with size := storeByte lowFirst half s.tx.size buf.length } }
  | .cur half => { s with tx := { s.tx with cur := storeByte lowFirst half s.tx.cur 0 } }
  | .enable => { s with udrie := true, txcie := true }

/-- `usart_tx` without an interrupt in between. -/
def usartTx (buf : List Byte) (s : State) : State :=
  [Stage.buf .first, .buf .second, .size .first, .size .second, .cur .first, .cur .second,
    .enable].foldl (assign lowFirst buf) s

/-- `udre_interrupt`. -/
def udreInterrupt (s : State) : State :=
  if s.tx.cur < s.tx.size then
    let byte := s.tx.buf.getD s.tx.cur 0
    { s with tx := { s.tx with cur := s.tx.cur + 1 }, udr := some byte,
             log := s.log ++ [.udr byte] }
  else { s with udrie := false }

/-- `tx_interrupt`. -/
def txInterrupt (next : Option (List Byte)) (s : State) : State :=
  if s.tx.cur = s.tx.size then
    let s : State := { s with log := s.log ++ [.txComplete] }
    let s : State := match next with
      | none => s
      | some buf => usartTx lowFirst buf { s with calls := s.calls ++ [buf] }
    { s with tx := { s.tx with size := 0 } }
  else s

inductive Event
  | call (buf torn : List Byte)
  | thread
  | udre
  | tx (next : Option (List Byte))
  | load
  | leave
deriving DecidableEq, Repr

/-- The next store of a call. -/
def Stage.next : Stage → Option Stage
  | .buf .first => some (.buf .second)
  | .buf .second => some (.size .first)
  | .size .first => some (.size .second)
  | .size .second => some (.cur .first)
  | .cur .first => some (.cur .second)
  | .cur .second => some .enable
  | .enable => none

/-- The state after an event. -/
def step (s : State) : Event → State
  | .call buf torn =>
      { s with call := some (buf, .buf .first), torn := torn, calls := s.calls ++ [buf] }
  | .thread =>
      match s.call with
      | none => s
      | some (buf, stage) =>
          { assign lowFirst buf s stage with call := stage.next.map fun stage => (buf, stage) }
  | .udre => udreInterrupt s
  | .tx next => txInterrupt lowFirst next { s with txc := false }
  | .load => { s with udr := none, shift := s.udr }
  | .leave => { s with shift := none, txc := s.txc || s.udr.isNone }

def Sendable (buf : List Byte) : Prop := buf ≠ [] ∧ buf.length < 2 ^ 16
deriving Decidable

def Allowed (s : State) : Event → Prop
  | .call buf _ => s.call = none ∧ Sendable buf ∧ s.log.count .txComplete = s.calls.length
  | .thread => s.call ≠ none
  | .udre => s.udrie = true ∧ s.udr = none
  | .tx next => s.txcie = true ∧ s.txc = true ∧ ∀ buf ∈ next, Sendable buf
  | .load => s.udr ≠ none ∧ s.shift = none
  | .leave => s.shift ≠ none

instance (s : State) : (e : Event) → Decidable (Allowed s e)
  | .call _ _ => inferInstanceAs (Decidable (_ ∧ _ ∧ _))
  | .thread => inferInstanceAs (Decidable (_ ≠ _))
  | .udre => inferInstanceAs (Decidable (_ ∧ _))
  | .tx _ => inferInstanceAs (Decidable (_ ∧ _ ∧ _))
  | .load => inferInstanceAs (Decidable (_ ∧ _))
  | .leave => inferInstanceAs (Decidable (_ ≠ _))

def Initial (s : State) : Prop :=
  s.tx.size = 0 ∧ s.udrie = false ∧ s.txcie = false ∧ s.call = none ∧ s.calls = [] ∧ s.log = []

def expected (bufs : List (List Byte)) : List Output :=
  bufs.flatMap fun buf => buf.map .udr ++ [.txComplete]

def Quiescent (s : State) : Prop :=
  ¬ Allowed s .thread ∧ ¬ Allowed s .udre ∧ ¬ Allowed s (.tx none) ∧ ¬ Allowed s .load ∧
    ¬ Allowed s .leave
deriving Decidable

def Stage.within : Stage → Bool
  | .size .second => true
  | .cur _ => true
  | _ => false

def Between (s : State) : Prop := s.call.any (fun call => call.2.within) = true
deriving Decidable

def Orderly (s : State) : Event → Prop
  | .udre => ¬ Between s
  | .tx next => next = none ∧ ¬ Between s
  | _ => True

instance (s : State) : (e : Event) → Decidable (Orderly s e)
  | .udre => inferInstanceAs (Decidable (¬ _))
  | .tx _ => inferInstanceAs (Decidable (_ ∧ _))
  | .call _ _ | .thread | .load | .leave => isTrue trivial

theorem expected_append (bufs : List (List Byte)) (buf : List Byte) :
    expected (bufs ++ [buf]) = expected bufs ++ buf.map .udr ++ [.txComplete] := by
  rw [expected, flatMap_append, flatMap_singleton, append_assoc]
  rfl

theorem count_map_udr (buf : List Byte) : (buf.map Output.udr).count .txComplete = 0 := by
  rw [count_eq_zero]
  intro hmem
  obtain ⟨byte, -, hbyte⟩ := mem_map.mp hmem
  exact Output.noConfusion hbyte

theorem count_expected (bufs : List (List Byte)) :
    (expected bufs).count .txComplete = bufs.length := by
  induction bufs using List.reverseRecOn with
  | nil => rfl
  | append_singleton bufs buf ih =>
    rw [expected_append, count_append, count_append, ih, count_map_udr,
      length_append]
    rfl

def Stored (tx : TxContext) (buf : List Byte) : Stage → Prop
  | .size .second => ∃ old, tx.size = storeByte lowFirst .first old buf.length
  | .cur .first => tx.size = buf.length
  | .cur .second => tx.size = buf.length ∧ ∃ old, tx.cur = storeByte lowFirst .first old 0
  | _ => False

/-- Where a transmission is. -/
inductive Phase (s : State) : Prop
  | idle (hcall : ∀ buf stage, s.call = some (buf, stage) → stage = .enable)
      (hlog : s.log = expected s.calls) (hsize : s.tx.size = 0)
      (hcur : s.tx.cur ≠ 0 ∨ s.call = none ∧ s.txcie = false)
  | ready (bufs : List (List Byte)) (buf : List Byte)
      (hcall : (∃ half, s.call = some (buf, .buf half)) ∨
        s.call = some (buf, .size .first) ∧ s.tx.buf = buf)
      (hbuf : Sendable buf) (hcalls : s.calls = bufs ++ [buf]) (hlog : s.log = expected bufs)
      (hsize : s.tx.size = 0) (hcur : s.tx.cur ≠ 0 ∨ s.txcie = false)
  | gap (bufs : List (List Byte)) (buf : List Byte) (stage : Stage)
      (hcall : s.call = some (buf, stage)) (hbuf : Sendable buf)
      (hcalls : s.calls = bufs ++ [buf]) (hlog : s.log = expected bufs) (htx : s.tx.buf = buf)
      (hstored : Stored lowFirst s.tx buf stage)
  | sending (bufs : List (List Byte)) (buf : List Byte)
      (hcall : s.call = some (buf, .enable) ∨
        s.call = none ∧ s.txcie = true ∧ (s.tx.cur < s.tx.size → s.udrie = true))
      (hbuf : Sendable buf) (hcalls : s.calls = bufs ++ [buf]) (htx : s.tx.buf = buf)
      (hsize : s.tx.size = buf.length) (hcur : s.tx.cur ≤ buf.length)
      (hlog : s.log = expected bufs ++ (buf.take s.tx.cur).map .udr)
      (hflight : s.tx.cur = buf.length → s.udr ≠ none ∨ s.shift ≠ none ∨ s.txc = true)

variable {lowFirst} {s : State}

theorem Sendable.length_ne {buf : List Byte} (h : Sendable buf) : buf.length ≠ 0 :=
  fun hzero => h.1 (length_eq_zero_iff.mp hzero)

theorem Stored.between {tx : TxContext} {buf : List Byte} {stage : Stage}
    (h : Stored lowFirst tx buf stage) (hcall : s.call = some (buf, stage)) : Between s := by
  rw [Between, hcall, Option.any_some]
  cases stage with
  | buf half => exact h.elim
  | size half =>
    cases half with
    | first => exact h.elim
    | second => rfl
  | cur half => rfl
  | enable => exact h.elim

theorem ready_call_ne_none {buf : List Byte}
    (h : (∃ half, s.call = some (buf, .buf half)) ∨
      s.call = some (buf, .size .first) ∧ s.tx.buf = buf) : s.call ≠ none := by
  rcases h with ⟨half, hcall⟩ | ⟨hcall, -⟩
  · rw [hcall]
    exact Option.some_ne_none _
  · rw [hcall]
    exact Option.some_ne_none _

theorem Phase.call (h : Phase lowFirst s) {buf torn : List Byte}
    (hok : Allowed s (.call buf torn)) :
    Phase lowFirst (step lowFirst s (.call buf torn)) := by
  obtain ⟨hnone, hbuf, hcount⟩ := hok
  cases h with
  | idle hcall hlog hsize hcur =>
    exact .ready s.calls buf (.inl ⟨.first, rfl⟩) hbuf rfl hlog hsize (hcur.imp_right And.right)
  | ready bufs b hcall => exact (ready_call_ne_none hcall hnone).elim
  | gap bufs b stage hcall => exact (Option.some_ne_none _ (hcall.symm.trans hnone)).elim
  | sending bufs b _ _ hcalls _ _ _ hlog =>
    -- the end of the last buffer has not been given out
    rw [hlog, hcalls, count_append, count_expected, count_map_udr,
      length_append] at hcount
    exact absurd hcount (Nat.ne_of_lt (Nat.lt_succ_self _))

theorem Phase.store {bufs : List (List Byte)} {buf : List Byte} {stage : Stage}
    (hcall : s.call = some (buf, stage)) (hbuf : Sendable buf)
    (hcalls : s.calls = bufs ++ [buf]) (hlog : s.log = expected bufs) (htx : s.tx.buf = buf)
    (hstored : Stored lowFirst s.tx buf stage) :
    Phase lowFirst (step lowFirst s .thread) := by
  simp only [step, hcall]
  cases stage with
  | buf half => exact hstored.elim
  | enable => exact hstored.elim
  | size half =>
    cases half with
    | first => exact hstored.elim
    | second =>
      obtain ⟨old, hold⟩ := hstored
      refine .gap bufs buf (.cur .first) rfl hbuf hcalls hlog htx ?_
      show storeByte lowFirst .second s.tx.size buf.length = buf.length
      rw [hold]
      exact storeByte_second lowFirst hbuf.2 old
  | cur half =>
    cases half with
    | first => exact .gap bufs buf (.cur .second) rfl hbuf hcalls hlog htx ⟨hstored, _, rfl⟩
    | second =>
      obtain ⟨hsize, old, hold⟩ := hstored
      have hzero : storeByte lowFirst .second s.tx.cur 0 = 0 := by
        rw [hold]
        exact storeByte_second lowFirst (by decide) old
      refine .sending bufs buf (.inl rfl) hbuf hcalls htx hsize ?_ ?_ ?_
      · exact hzero.trans_le (Nat.zero_le _)
      · show s.log = expected bufs ++ (buf.take (storeByte lowFirst .second s.tx.cur 0)).map .udr
        rw [hzero]
        exact hlog.trans (append_nil _).symm
      · exact fun hlast => (hbuf.length_ne (hlast.symm.trans hzero)).elim

theorem Phase.thread (h : Phase lowFirst s) : Phase lowFirst (step lowFirst s .thread) := by
  cases h with
  | idle hcall hlog hsize hcur =>
    cases hc : s.call with
    | none => simpa only [step, hc] using Phase.idle hcall hlog hsize hcur
    | some c =>
      obtain ⟨buf, stage⟩ := c
      obtain rfl := hcall buf stage hc
      simp only [step, hc]
      refine .idle (fun _ _ hnone => nomatch hnone) hlog hsize (.inl ?_)
      rcases hcur with hcur | ⟨hnone, -⟩
      · exact hcur
      · exact (Option.some_ne_none _ (hc.symm.trans hnone)).elim
  | ready bufs buf hcall hbuf hcalls hlog hsize hcur =>
    rcases hcall with ⟨half, hcall⟩ | ⟨hcall, htx⟩
    · simp only [step, hcall]
      cases half with
      | first => exact .ready bufs buf (.inl ⟨.second, rfl⟩) hbuf hcalls hlog hsize hcur
      | second => exact .ready bufs buf (.inr ⟨rfl, rfl⟩) hbuf hcalls hlog hsize hcur
    · simp only [step, hcall]
      exact .gap bufs buf (.size .second) rfl hbuf hcalls hlog htx ⟨_, rfl⟩
  | gap bufs buf stage hcall hbuf hcalls hlog htx hstored =>
    exact Phase.store hcall hbuf hcalls hlog htx hstored
  | sending bufs buf hcall hbuf hcalls htx hsize hcur hlog hflight =>
    rcases hcall with hcall | hcall
    · simp only [step, hcall]
      exact .sending bufs buf (.inr ⟨rfl, rfl, fun _ => rfl⟩) hbuf hcalls htx hsize hcur hlog
        hflight
    · simp only [step, hcall.1]
      exact .sending bufs buf (.inr hcall) hbuf hcalls htx hsize hcur hlog hflight

theorem Phase.udre (h : Phase lowFirst s) (hord : Orderly s .udre) :
    Phase lowFirst (step lowFirst s .udre) := by
  cases h with
  | idle hcall hlog hsize hcur =>
    rw [step, udreInterrupt, if_neg (by omega)]
    exact .idle hcall hlog hsize hcur
  | ready bufs buf hcall hbuf hcalls hlog hsize hcur =>
    rw [step, udreInterrupt, if_neg (by omega)]
    exact .ready bufs buf hcall hbuf hcalls hlog hsize hcur
  | gap bufs buf stage hcall _ _ _ _ hstored => exact (hord (hstored.between hcall)).elim
  | sending bufs buf hcall hbuf hcalls htx hsize hcur hlog hflight =>
    by_cases hlt : s.tx.cur < s.tx.size
    · rw [step, udreInterrupt, if_pos hlt]
      have hlt' : s.tx.cur < buf.length := by omega
      refine .sending bufs buf (hcall.imp_right ?_) hbuf hcalls htx hsize hlt' ?_ ?_
      · exact fun ⟨hnone, htxcie, hudrie⟩ => ⟨hnone, htxcie, fun _ => hudrie hlt⟩
      · have hbyte : s.tx.buf.getD s.tx.cur 0 = buf[s.tx.cur] := by
          rw [htx, getD_eq_getElem _ _ hlt']
        show s.log ++ [Output.udr (s.tx.buf.getD s.tx.cur 0)] = _
        rw [hlog, hbyte, append_assoc, ← map_singleton, ← map_append,
          take_append_getElem]
      · exact fun _ => .inl (Option.some_ne_none _)
    · rw [step, udreInterrupt, if_neg hlt]
      refine .sending bufs buf (hcall.imp_right ?_) hbuf hcalls htx hsize hcur hlog hflight
      exact fun ⟨hnone, htxcie, _⟩ => ⟨hnone, htxcie, fun hc => (hlt hc).elim⟩

theorem Phase.tx (h : Phase lowFirst s) (hok : Allowed s (.tx none)) (hord : Orderly s (.tx none)) :
    Phase lowFirst (step lowFirst s (.tx none)) := by
  have htxcie : ¬ s.txcie = false := by
    rw [hok.1]
    exact Bool.noConfusion
  cases h with
  | idle hcall hlog hsize hcur =>
    have hne : s.tx.cur ≠ s.tx.size := by
      rw [hsize]
      exact hcur.resolve_right fun hc => htxcie hc.2
    rw [step, txInterrupt, if_neg hne]
    exact .idle hcall hlog hsize hcur
  | ready bufs buf hcall hbuf hcalls hlog hsize hcur =>
    have hne : s.tx.cur ≠ s.tx.size := by
      rw [hsize]
      exact hcur.resolve_right htxcie
    rw [step, txInterrupt, if_neg hne]
    exact .ready bufs buf hcall hbuf hcalls hlog hsize hcur
  | gap bufs buf stage hcall _ _ _ _ hstored => exact (hord.2 (hstored.between hcall)).elim
  | sending bufs buf hcall hbuf hcalls htx hsize hcur hlog hflight =>
    by_cases hend : s.tx.cur = s.tx.size
    · rw [step, txInterrupt, if_pos hend]
      refine .idle ?_ ?_ rfl (.inl ?_)
      · intro b stage hsome
        rcases hcall with hcall | ⟨hcall, -⟩
        · exact (Prod.mk.inj (Option.some.inj (hcall.symm.trans hsome))).2.symm
        · exact (Option.some_ne_none _ (hsome.symm.trans hcall)).elim
      · show s.log ++ [Output.txComplete] = expected s.calls
        rw [hlog, hcalls, expected_append, hend, hsize, take_length]
      · show s.tx.cur ≠ 0
        rw [hend, hsize]
        exact hbuf.length_ne
    · rw [step, txInterrupt, if_neg hend]
      refine .sending bufs buf hcall hbuf hcalls htx hsize hcur hlog fun hc => ?_
      exact (hend (hc.trans hsize.symm)).elim

theorem Phase.transmitter (h : Phase lowFirst s) {udr shift : Option Byte} {txc : Bool}
    (hflight : s.udr ≠ none ∨ s.shift ≠ none ∨ s.txc = true →
      udr ≠ none ∨ shift ≠ none ∨ txc = true) :
    Phase lowFirst { s with udr := udr, shift := shift, txc := txc } := by
  cases h with
  | idle hcall hlog hsize hcur => exact .idle hcall hlog hsize hcur
  | ready bufs buf hcall hbuf hcalls hlog hsize hcur =>
    exact .ready bufs buf hcall hbuf hcalls hlog hsize hcur
  | gap bufs buf stage hcall hbuf hcalls hlog htx hstored =>
    exact .gap bufs buf stage hcall hbuf hcalls hlog htx hstored
  | sending bufs buf hcall hbuf hcalls htx hsize hcur hlog hf =>
    exact .sending bufs buf hcall hbuf hcalls htx hsize hcur hlog fun hc => hflight (hf hc)

theorem Phase.event (h : Phase lowFirst s) {e : Event} (hok : Allowed s e) (hord : Orderly s e) :
    Phase lowFirst (step lowFirst s e) := by
  cases e with
  | call buf torn => exact h.call hok
  | thread => exact h.thread
  | udre => exact h.udre hord
  | tx next =>
    obtain ⟨rfl, hgap⟩ := hord
    exact h.tx hok ⟨rfl, hgap⟩
  | load =>
    have hfull : s.udr ≠ none := hok.1
    exact h.transmitter fun _ => .inr (.inl hfull)
  | leave =>
    refine h.transmitter fun _ => ?_
    cases hudr : s.udr with
    | none => exact .inr (.inr (Bool.or_true _))
    | some byte => exact .inl (Option.some_ne_none byte)

theorem Phase.log_of_quiescent (h : Phase lowFirst s) (hq : Quiescent s) :
    s.log = expected s.calls := by
  obtain ⟨hthread, hudre, htxi, hload, hleave⟩ := hq
  have hnone : s.call = none := not_not.mp hthread
  have hshift : s.shift = none := not_not.mp hleave
  have hudr : s.udr = none := by
    by_contra hfull
    exact hload ⟨hfull, hshift⟩
  cases h with
  | idle _ hlog => exact hlog
  | ready bufs buf hcall => exact (ready_call_ne_none hcall hnone).elim
  | gap bufs buf stage hcall => exact (Option.some_ne_none _ (hcall.symm.trans hnone)).elim
  | sending bufs buf hcall hbuf hcalls htx hsize hcur hlog hflight =>
    rcases hcall with hcall | ⟨-, htxcie, hudrie⟩
    · exact (Option.some_ne_none _ (hcall.symm.trans hnone)).elim
    · -- a byte is left to write, or the flag of the last one is up
      rcases Nat.lt_or_eq_of_le hcur with hlt | hend
      · exact (hudre ⟨hudrie (by omega), hudr⟩).elim
      · rcases hflight hend with hf | hf | hf
        · exact (hf hudr).elim
        · exact (hf hshift).elim
        · exact (htxi ⟨htxcie, hf, fun b hb => absurd hb (Option.not_mem_none b)⟩).elim

theorem Phase.log_isPrefix (h : Phase lowFirst s) : s.log <+: expected s.calls := by
  cases h with
  | idle _ hlog => exact hlog ▸ prefix_rfl
  | ready bufs buf _ _ hcalls hlog =>
    rw [hlog, hcalls, expected_append, append_assoc]
    exact prefix_append _ _
  | gap bufs buf _ _ _ hcalls hlog =>
    rw [hlog, hcalls, expected_append, append_assoc]
    exact prefix_append _ _
  | sending bufs buf _ _ hcalls _ _ _ hlog =>
    rw [hlog, hcalls, expected_append, append_assoc, prefix_append_right_inj]
    have htake := take_prefix s.tx.cur buf
    exact (htake.map _).trans (prefix_append _ _)

def bytesLeft (s : State) : Nat :=
  match s.call with
  | some (_, .enable) => s.tx.size - s.tx.cur
  | some (buf, _) => buf.length
  | none => s.tx.size - s.tx.cur

def Stage.left : Stage → Nat
  | .buf .first => 7
  | .buf .second => 6
  | .size .first => 5
  | .size .second => 4
  | .cur .first => 3
  | .cur .second => 2
  | .enable => 1

/-- The stores that are left. -/
def storesLeft (s : State) : Nat :=
  match s.call with
  | some (_, stage) => stage.left
  | none => 0

def work (s : State) : Nat :=
  4 * bytesLeft s + 2 * storesLeft s + 3 * s.udr.toList.length + 2 * s.shift.toList.length +
    s.txc.toNat + s.udrie.toNat

theorem Phase.size_of_cur (h : Phase lowFirst s) {buf : List Byte} {half : Half}
    (hcall : s.call = some (buf, .cur half)) : s.tx.size = buf.length := by
  have hstage : ∀ {b stage}, s.call = some (b, stage) → buf = b ∧ Stage.cur half = stage :=
    fun hc => Prod.mk.inj (Option.some.inj (hcall.symm.trans hc))
  cases h with
  | idle hc => exact Stage.noConfusion (hc buf _ hcall)
  | ready bufs b hc =>
    rcases hc with ⟨half, hc⟩ | ⟨hc, -⟩
    · exact Stage.noConfusion (hstage hc).2
    · exact Stage.noConfusion (hstage hc).2
  | gap bufs b stage hc _ _ _ _ hstored =>
    obtain ⟨rfl, rfl⟩ := hstage hc
    cases half with
    | first => exact hstored
    | second => exact hstored.1
  | sending bufs b hc =>
    rcases hc with hc | ⟨hc, -⟩
    · exact Stage.noConfusion (hstage hc).2
    · exact (Option.some_ne_none _ (hcall.symm.trans hc)).elim

theorem Phase.work_thread (h : Phase lowFirst s) (hok : Allowed s .thread) :
    work (step lowFirst s .thread) < work s := by
  obtain ⟨⟨buf, stage⟩, hcall⟩ := Option.ne_none_iff_exists'.mp hok
  have hudrie : s.udrie.toNat ≤ 1 := Bool.toNat_le s.udrie
  cases stage with
  | enable =>
    simp only [work, bytesLeft, storesLeft, Stage.left, step, assign, Stage.next, hcall,
      Option.map_none, Bool.toNat_true]
    omega
  | buf half | size half =>
    cases half
    all_goals
      simp only [work, bytesLeft, storesLeft, Stage.left, step, assign, Stage.next, hcall,
        Option.map_some]
      omega
  | cur half =>
    cases half with
    | first =>
      simp only [work, bytesLeft, storesLeft, Stage.left, step, assign, Stage.next, hcall,
        Option.map_some]
      omega
    | second =>
      have hsize := h.size_of_cur hcall
      simp only [work, bytesLeft, storesLeft, Stage.left, step, assign, Stage.next, hcall,
        Option.map_some]
      omega

theorem Phase.work_udre (h : Phase lowFirst s) (hok : Allowed s .udre) (hord : Orderly s .udre) :
    work (step lowFirst s .udre) < work s := by
  obtain ⟨hudrie, hudr⟩ := hok
  by_cases hlt : s.tx.cur < s.tx.size
  · have hleft : s.call = none ∨ ∃ buf, s.call = some (buf, .enable) := by
      cases h with
      | idle _ _ hsize => omega
      | ready _ _ _ _ _ _ hsize => omega
      | gap bufs buf stage hcall _ _ _ _ hstored => exact (hord (hstored.between hcall)).elim
      | sending bufs buf hcall =>
        rcases hcall with hcall | ⟨hcall, -⟩
        · exact .inr ⟨buf, hcall⟩
        · exact .inl hcall
    rw [step, udreInterrupt, if_pos hlt]
    rcases hleft with hcall | ⟨buf, hcall⟩
    · simp only [work, bytesLeft, storesLeft, hcall, hudr, Option.toList_some,
        Option.toList_none, length_singleton, length_nil]
      omega
    · simp only [work, bytesLeft, storesLeft, hcall, hudr, Option.toList_some,
        Option.toList_none, length_singleton, length_nil]
      omega
  · rw [step, udreInterrupt, if_neg hlt]
    simp only [work, bytesLeft, storesLeft, hudrie, Bool.toNat_true, Bool.toNat_false]
    omega

theorem work_tx (hok : Allowed s (.tx none)) :
    work (step lowFirst s (.tx none)) < work s := by
  have htxc : s.txc = true := hok.2.1
  rw [step, txInterrupt]
  by_cases hend : s.tx.cur = s.tx.size
  · rw [if_pos hend]
    have hbytes : bytesLeft
        { s with txc := false, log := s.log ++ [.txComplete], tx := { s.tx with size := 0 } } ≤
          bytesLeft s := by
      unfold bytesLeft
      split <;> simp_all
    simp only [work, storesLeft, htxc, Bool.toNat_true, Bool.toNat_false] at hbytes ⊢
    omega
  · rw [if_neg hend]
    simp only [work, bytesLeft, storesLeft, htxc, Bool.toNat_true, Bool.toNat_false]
    omega

theorem Phase.work_event (h : Phase lowFirst s) {e : Event}
    (hcall : ∀ buf torn, e ≠ .call buf torn)
    (hok : Allowed s e) (hord : Orderly s e) : work (step lowFirst s e) < work s := by
  cases e with
  | call buf torn => exact (hcall buf torn rfl).elim
  | thread => exact h.work_thread hok
  | udre => exact h.work_udre hok hord
  | tx next =>
    obtain ⟨rfl, -⟩ := hord
    exact work_tx hok
  | load =>
    obtain ⟨byte, hudr⟩ := Option.ne_none_iff_exists'.mp hok.1
    have hshift : s.shift = none := hok.2
    simp only [work, bytesLeft, storesLeft, step, hudr, hshift, Option.toList_some,
      Option.toList_none, length_singleton, length_nil]
    omega
  | leave =>
    obtain ⟨byte, hshift⟩ := Option.ne_none_iff_exists'.mp hok
    have htxc : (s.txc || s.udr.isNone).toNat ≤ 1 := Bool.toNat_le _
    simp only [work, bytesLeft, storesLeft, step, hshift, Option.toList_some,
      Option.toList_none, length_singleton, length_nil]
    omega

def OrderlyReach (lowFirst : Bool) : State → Prop :=
  Reach Initial (fun s e => Allowed s e ∧ Orderly s e) (step lowFirst)

theorem OrderlyReach.phase (h : OrderlyReach lowFirst s) : Phase lowFirst s := by
  refine Reach.invariant h ?_ ?_
  · rintro s ⟨hsize, -, htxcie, hcall, hcalls, hlog⟩
    refine .idle ?_ ?_ hsize (.inr ⟨hcall, htxcie⟩)
    · exact fun buf stage hsome => (Option.some_ne_none _ (hsome.symm.trans hcall)).elim
    · rw [hlog, hcalls]
      rfl
  · exact fun s e hphase hok => hphase.event hok.1 hok.2

/-- **BUFFERS ARE TRANSMITTED** one after the other, each followed by its end, unless the
    callback calls `usart_tx` or an interrupt comes while size and position are assigned. -/
theorem usart_tx_bytes (h : OrderlyReach lowFirst s) :
    s.log <+: expected s.calls ∧
      (Quiescent s → s.log = expected s.calls) ∧
      ∀ e, (∀ buf torn, e ≠ .call buf torn) → Allowed s e → Orderly s e →
        work (step lowFirst s e) < work s := by
  have hphase := h.phase
  refine ⟨hphase.log_isPrefix, hphase.log_of_quiescent, ?_⟩
  exact fun e hcall hok hord => hphase.work_event hcall hok hord

def fresh : State := ⟨⟨[], 0, 0⟩, false, false, none, none, false, none, [], [], []⟩

def calls (buf : List Byte) : List Event := .call buf [] :: replicate 7 .thread

def lateByte : List Event :=
  (calls [1, 2]).append [.udre, .load, .leave, .udre, .load, .udre, .leave, .tx none]

theorem usart_tx_bytes_late :
    (lateByte.foldl (step false) fresh).log = expected [[1, 2]] ∧
      (lateByte.foldl (step false) fresh).log = [.udr 1, .udr 2, .txComplete] := by
  have hstart : Initial fresh := ⟨rfl, rfl, rfl, rfl, rfl, rfl⟩
  have hreach : OrderlyReach false (lateByte.foldl (step false) fresh) :=
    (Reach.start hstart).foldl (by decide +kernel)
  exact ⟨(usart_tx_bytes hreach).2.1 (by decide +kernel), by decide +kernel⟩

def chained : List Event :=
  (calls [1]).append [.udre, .load, .udre, .leave, .tx (some [2]), .udre]

def overtaken (stores : Nat) : List Event :=
  (calls [1]).append
    ([.udre, .load, .leave, .tx none, .call [2, 3] []] ++ replicate stores .thread ++ [.udre])

/-- The buffer of the callback is never sent; a byte is taken from the wrong place after an
    interrupt between the stores. -/
theorem usart_tx_loses :
    (∀ lowFirst,
      let s := chained.foldl (step lowFirst) fresh
      Runs.Allowed Allowed (step lowFirst) fresh chained ∧ Quiescent s ∧ s.calls = [[1], [2]] ∧
        s.log = [.udr 1, .txComplete] ∧ s.log ≠ expected s.calls) ∧
    (∀ lowFirst,
      let s := (overtaken 4).foldl (step lowFirst) fresh
      Runs.Allowed Allowed (step lowFirst) fresh (overtaken 4) ∧ s.calls = [[1], [2, 3]] ∧
        s.log = [.udr 1, .txComplete, .udr 3] ∧ ¬ s.log <+: expected s.calls) ∧
    let s := (overtaken 3).foldl (step true) fresh
    Runs.Allowed Allowed (step true) fresh (overtaken 3) ∧
      s.log = [.udr 1, .txComplete, .udr 3] ∧ ¬ s.log <+: expected s.calls := by
  decide +kernel

end AvrtosUsartTx
