import Avrtos.Base.Runs

/-! # Asynchronous reception (`drivers/usart.c`)

    A byte is stored at the next position; the callback may change the buffer. -/

namespace AvrtosUsartRx

open List Runs

abbrev Byte := BitVec 8

structure RxContext where
  buf : Nat
  size : BitVec 16
  cur : BitVec 16

structure State where
  mem : Nat → Byte
  rx : RxContext
  rxen : Bool
  rxcie : Bool
  received : List Byte
  delivered : List (List Byte)

def State.contents (s : State) (n : BitVec 16) : List Byte :=
  (range n.toNat).map fun i => s.mem (s.rx.buf + i)

/-- `usart_rx_enable`. -/
def usartRxEnable (buf : Nat) (size : BitVec 16) (s : State) : State :=
  { s with rx := ⟨buf, size, 0⟩, rxen := true, rxcie := true }

/-- `usart_rx_disable`. -/
def usartRxDisable (s : State) : State := { s with rxen := false }

def store (chr : Byte) (s : State) : State :=
  { s with
    mem := Function.update s.mem (s.rx.buf + s.rx.cur.toNat) chr
    rx := { s.rx with cur := s.rx.cur + 1 }
    received := s.received ++ [chr] }

def rxComplete (next : Option (Nat × BitVec 16)) (s : State) : State :=
  let s := { s with delivered := s.delivered ++ [s.contents s.rx.size] }
  let s := match next with
    | none => s
    | some (buf, size) => usartRxEnable buf size s
  { s with rx := { s.rx with cur := 0 } }

/-- `rx_interrupt`. -/
def rxInterrupt (chr : Byte) (next : Option (Nat × BitVec 16)) (s : State) : State :=
  let s := store chr s
  if s.rx.cur = s.rx.size then rxComplete next s else s

inductive Event
  | enable (buf : Nat) (size : BitVec 16)
  | disable
  | byte (chr : Byte) (next : Option (Nat × BitVec 16))

def step (s : State) : Event → State
  | .enable buf size => { usartRxEnable buf size s with received := [], delivered := [] }
  | .disable => usartRxDisable s
  | .byte chr next => rxInterrupt chr next s

def Allowed (s : State) : Event → Prop
  | .enable _ size => s.rxen = false ∧ size ≠ 0
  | .disable => True
  | .byte _ next => s.rxen = true ∧ s.rxcie = true ∧ ∀ b ∈ next, b.2 ≠ 0

def Initial (s : State) : Prop := s.rxen = false ∧ s.rx.cur = 0 ∧ s.received = [] ∧ s.delivered = []

def InOrder (s : State) : Prop :=
  (s.rxen = true → s.rx.cur < s.rx.size) ∧
    s.delivered.flatten ++ s.contents s.rx.cur = s.received

variable {s : State}

theorem contents_store (chr : Byte) (h : s.rx.cur < s.rx.size) :
    (store chr s).contents (s.rx.cur + 1) = s.contents s.rx.cur ++ [chr] := by
  have hn : (s.rx.cur + 1).toNat = s.rx.cur.toNat + 1 := by bv_omega
  rw [State.contents, hn, range_succ, map_append]
  refine congrArg₂ (· ++ ·) ?_ (congrArg (fun b => [b]) (Function.update_self ..))
  refine map_congr_left fun i hi => Function.update_of_ne ?_ ..
  have hlt := mem_range.mp hi
  show s.rx.buf + i ≠ s.rx.buf + s.rx.cur.toNat
  omega

theorem InOrder.byte (h : InOrder s) {chr : Byte} {next : Option (Nat × BitVec 16)}
    (hok : Allowed s (.byte chr next)) : InOrder (rxInterrupt chr next s) := by
  obtain ⟨hrxen, -, hnext⟩ := hok
  have hcur := h.1 hrxen
  have hall : s.delivered.flatten ++ (store chr s).contents (s.rx.cur + 1) =
      s.received ++ [chr] := by
    rw [contents_store chr hcur, ← append_assoc, h.2]
  by_cases hfull : s.rx.cur + 1 = s.rx.size
  · have hrun : rxInterrupt chr next s = rxComplete next (store chr s) := if_pos hfull
    rw [hrun]
    -- the callback has seen the buffer, and nothing is stored before the position
    have hdone : (s.delivered ++ [(store chr s).contents s.rx.size]).flatten ++ [] =
        s.received ++ [chr] := by
      rw [← hall, hfull, flatten_append, append_nil, flatten_singleton]
    cases next with
    | none => exact ⟨fun _ => show 0 < s.rx.size by bv_omega, hdone⟩
    | some b =>
      have hb : b.2 ≠ 0 := hnext b rfl
      exact ⟨fun _ => show 0 < b.2 by bv_omega, hdone⟩
  · have hrun : rxInterrupt chr next s = store chr s := if_neg hfull
    rw [hrun]
    exact ⟨fun _ => show s.rx.cur + 1 < s.rx.size by bv_omega, hall⟩

/-- **BYTES ARRIVE ONCE, IN ORDER**: those received are those given to the callback and those
    stored so far. -/
theorem reception_in_order (h : Reach Initial Allowed step s) :
    s.delivered.flatten ++ s.contents s.rx.cur = s.received ∧
      (s.rxen = true → s.rx.cur < s.rx.size) := by
  refine And.symm (h.invariant (P := InOrder) ?_ ?_)
  · rintro s ⟨hrxen, hcur, hreceived, hdelivered⟩
    refine ⟨fun hc => absurd (hrxen.symm.trans hc) Bool.false_ne_true, ?_⟩
    rw [hcur, hreceived, hdelivered]
    rfl
  · intro s e hs hok
    cases e with
    | enable buf size =>
      have hsize : size ≠ 0 := hok.2
      exact ⟨fun _ => show 0 < size by bv_omega, rfl⟩
    | disable => exact ⟨fun hc => absurd hc Bool.false_ne_true, hs.2⟩
    | byte chr next => exact hs.byte hok

/-- A buffer of two bytes at address 16. -/
theorem reception_in_order_bytes :
    let s := [Event.enable 16 2, .byte 7 none, .byte 8 none, .byte 9 none].foldl step
      ⟨fun _ => 0, ⟨0, 0, 0⟩, false, false, [], []⟩
    Reach Initial Allowed step s ∧ s.delivered = [[7, 8]] ∧
      s.delivered.flatten ++ s.contents s.rx.cur = s.received := by
  intro s
  have hreach : Reach Initial Allowed step s :=
    Reach.foldl (.start ⟨rfl, rfl, rfl, rfl⟩) (by simp [Runs.Allowed, Allowed]; decide)
  exact ⟨hreach, by decide, (reception_in_order hreach).1⟩

end AvrtosUsartRx
