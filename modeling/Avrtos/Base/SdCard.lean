import Avrtos.Base.Crc
import Avrtos.Base.SpiBus

/-! # An ideal SD card in SPI mode

    A memory of bytes behind the SPI protocol; commands are checked by their checksum. -/

namespace SdCard

open List SpiBus Crc

structure Timing where
  answer : Nat
  block : Nat
  response : Nat
  busy : Nat
  crc : Byte × Byte

inductive Mode
  | command (received : List Byte)
  | token (addr : BitVec 32)
  | block (addr : BitVec 32) (received : List Byte)

structure Card where
  mem : BitVec 32 → Byte
  mode : Mode
  out : List Byte
  served : Nat

/-- `n` bytes from an address on. -/
def read (mem : BitVec 32 → Byte) (addr : BitVec 32) (n : Nat) : List Byte :=
  (range n).map fun i => mem (addr + BitVec.ofNat 32 i)

def write (mem : BitVec 32 → Byte) (addr : BitVec 32) (l : List Byte) : BitVec 32 → Byte :=
  fun a => (l[(a - addr).toNat]?).getD (mem a)

theorem length_read (mem : BitVec 32 → Byte) (addr : BitVec 32) (n : Nat) :
    (read mem addr n).length = n := by
  rw [read, length_map, length_range]

theorem read_write_self (mem : BitVec 32 → Byte) (addr : BitVec 32) {l : List Byte}
    (hl : l.length < 2 ^ 32) : read (write mem addr l) addr l.length = l := by
  apply ext_getElem?
  intro i
  by_cases hi : i < l.length
  · have hdiff : (addr + BitVec.ofNat 32 i - addr).toNat = i := by
      rw [add_sub_cancel_left, BitVec.toNat_ofNat, Nat.mod_eq_of_lt (by omega)]
    rw [read, List.getElem?_map, List.getElem?_range hi, Option.map_some, write, hdiff,
      List.getElem?_eq_getElem hi, Option.getD_some]
  · rw [List.getElem?_eq_none (by rw [length_read]; omega), List.getElem?_eq_none (by omega)]

theorem read_write_of_disjoint (mem : BitVec 32 → Byte) {addr addr' : BitVec 32} {l : List Byte}
    {n : Nat} (h : ∀ i < n, l.length ≤ (addr' + BitVec.ofNat 32 i - addr).toNat) :
    read (write mem addr l) addr' n = read mem addr' n := by
  refine map_congr_left fun i hi => ?_
  rw [write, List.getElem?_eq_none (h i (mem_range.mp hi)), Option.getD_none]

/-- The generator `x^7 + x^3 + 1`. -/
def generator : BitVec 7 := 0x09

def Valid (cmd : List Byte) : Prop := remainder generator ((cmd.flatMap bits).take 47) = 0#7

instance (cmd : List Byte) : Decidable (Valid cmd) := inferInstanceAs (Decidable (_ = _))

/-- The argument of a command. -/
def argument (cmd : List Byte) : BitVec 32 :=
  cmd.getD 1 0 ++ cmd.getD 2 0 ++ cmd.getD 3 0 ++ cmd.getD 4 0

/-- The card takes a command. -/
def execute (t : Timing) (c : Card) (cmd : List Byte) : Card :=
  let r1 := replicate t.answer 0xFF
  if Valid cmd then
    if cmd.getD 0 0 &&& 0x3F = 17 then
      { c with
        mode := .command []
        out := r1 ++ [0x00] ++ (replicate t.block 0xFF ++ [0xFE] ++
          (read c.mem (argument cmd) 512 ++ [t.crc.1, t.crc.2]))
        served := c.served + 1 }
    else if cmd.getD 0 0 &&& 0x3F = 24 then
      { c with mode := .token (argument cmd), out := r1 ++ [0x00] }
    else { c with mode := .command [], out := r1 ++ [0x00] }
  else { c with mode := .command [], out := r1 ++ [0x08] }

def store (t : Timing) (c : Card) (addr : BitVec 32) (received : List Byte) : Card where
  mem := write c.mem addr (received.take 512)
  mode := .command []
  out := replicate t.response 0xFF ++ [0x05] ++ (replicate t.busy 0x00 ++ [0xFF])
  served := c.served + 1

def step (timing : Nat → Timing) (c : Card) (tx : Byte) : Card :=
  match c.mode with
  | .command received =>
      if received = [] ∧ tx >>> 6 ≠ 1 then c
      else if received.length < 5 then { c with mode := .command (received ++ [tx]) }
      else execute (timing c.served) c (received ++ [tx])
  | .token addr => if tx = 0xFE then { c with mode := .block addr [] } else c
  | .block addr received =>
      if received.length < 513 then { c with mode := .block addr (received ++ [tx]) }
      else store (timing c.served) c addr (received ++ [tx])

def ideal (timing : Nat → Timing) : Device Card where
  exchange := fun c active tx =>
    if active then (c.out.headD 0xFF, step timing { c with out := c.out.tail } tx) else (0xFF, c)
  select := fun c _ => { c with mode := .command [], out := [] }

def Mode.Waits : Mode → Prop
  | .command received => received = []
  | .token _ => True
  | .block _ _ => False

variable (timing : Nat → Timing) {c : Card}

theorem answers_out (hmode : c.mode.Waits) (l rest : List Byte) (hout : c.out = l ++ rest) :
    Answers (ideal timing) c l ⟨c.mem, c.mode, rest, c.served⟩ := by
  induction l generalizing c with
  | nil =>
    obtain ⟨mem, mode, out, served⟩ := c
    rw [nil_append] at hout
    exact congrArg (Card.mk mem mode · served) hout
  | cons rx l ih =>
    have hstep : step timing { c with out := c.out.tail } 0xFF = { c with out := c.out.tail } := by
      unfold step
      dsimp only
      cases hm : c.mode with
      | command received =>
        rw [hm] at hmode
        exact if_pos ⟨hmode, by decide⟩
      | token addr => exact if_neg (by decide)
      | block addr received =>
        rw [hm] at hmode
        exact hmode.elim
    have hexchange : (ideal timing).exchange c true 0xFF = (rx, { c with out := l ++ rest }) := by
      show (c.out.headD 0xFF, step timing { c with out := c.out.tail } 0xFF) = _
      rw [hstep, hout]
      rfl
    refine ⟨by rw [hexchange], ?_⟩
    rw [hexchange]
    exact ih hmode rfl

theorem after_cons (c : Card) (tx : Byte) (l : List Byte) : (ideal timing).after c (tx :: l) =
      (ideal timing).after (step timing { c with out := c.out.tail } tx) l := rfl

theorem after_command (mem : BitVec 32 → Byte) (served : Nat) {c0 : Byte} (hstart : c0 >>> 6 = 1)
    (c1 c2 c3 c4 c5 : Byte) :
    (ideal timing).after ⟨mem, .command [], [], served⟩ [0xFF, c0, c1, c2, c3, c4, c5] =
      execute (timing served) ⟨mem, .command [], [], served⟩ [c0, c1, c2, c3, c4, c5] := by
  simp [after_cons, step, hstart]
  rfl

theorem after_bytes (mem : BitVec 32 → Byte) (served : Nat) (addr : BitVec 32)
    (received l : List Byte) (h : received.length + l.length ≤ 513) :
    (ideal timing).after ⟨mem, .block addr received, [], served⟩ l =
      ⟨mem, .block addr (received ++ l), [], served⟩ := by
  induction l generalizing received with
  | nil =>
    rw [append_nil]
    rfl
  | cons tx l ih =>
    rw [length_cons] at h
    have hstep : step timing ⟨mem, .block addr received, [], served⟩ tx =
        ⟨mem, .block addr (received ++ [tx]), [], served⟩ := if_pos (by omega)
    rw [after_cons, tail_nil, hstep, ih _ (by
      rw [length_append, length_singleton]
      omega), append_assoc, singleton_append]

theorem after_block (mem : BitVec 32 → Byte) (served : Nat) (addr : BitVec 32) {l : List Byte}
    (hl : l.length = 512) (x y : Byte) :
    (ideal timing).after ⟨mem, .token addr, [], served⟩ (0xFE :: (l ++ [x, y])) =
      ⟨write mem addr l, .command [], replicate (timing served).response 0xFF ++ [0x05] ++
          (replicate (timing served).busy 0x00 ++ [0xFF]), served + 1⟩ := by
  have htoken : step timing ⟨mem, .token addr, [], served⟩ 0xFE =
      ⟨mem, .block addr [], [], served⟩ := rfl
  have hlen : (l ++ [x]).length = 513 := by
    rw [length_append, hl, length_singleton]
  have hbytes : (ideal timing).after ⟨mem, .block addr [], [], served⟩ (l ++ [x]) =
      ⟨mem, .block addr (l ++ [x]), [], served⟩ :=
    after_bytes timing mem served addr [] (l ++ [x]) (by rw [hlen, length_nil])
  have hlast : step timing ⟨mem, .block addr (l ++ [x]), [], served⟩ y =
      store (timing served) ⟨mem, .block addr (l ++ [x]), [], served⟩ addr (l ++ [x] ++ [y]) :=
    if_neg (by rw [hlen]; decide)
  have hsplit : l ++ [x, y] = (l ++ [x]) ++ [y] := by simp
  rw [after_cons, tail_nil, htoken, hsplit, Device.after, foldl_append, ← Device.after,
    ← Device.after, hbytes, after_cons, tail_nil, hlast, store, append_assoc,
    take_left' hl]
  rfl

end SdCard
