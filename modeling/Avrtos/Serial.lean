import Avrtos.Base.DoWhile

/-! # Hexadecimal output on the serial line (misc/serial.c)

    The counter has 8 bits and the length 16. -/

namespace AvrtosSerial

open List DoWhile

abbrev Byte := BitVec 8

/-- What has been transmitted. -/
abbrev Output := List Byte

def serialTransmit (data : Byte) (out : Output) : Output := out ++ [data]

/-- A character constant. -/
def chr (c : Char) : Byte := BitVec.ofNat 8 c.toNat

def figure2hex (value : Byte) : Byte :=
  if value < 10 then value + chr '0' else value + chr 'A' - 10

def serialHex (val : Byte) (out : Output) : Output :=
  let high := figure2hex (val >>> 4)
  let low := figure2hex (val &&& 0xF)
  let out := serialTransmit high out
  serialTransmit low out

structure HexLoop where
  i : Byte
  out : Output

def HexLoop.body (buffer : Nat → Byte) (s : HexLoop) : HexLoop :=
  let out := serialHex (buffer s.i.toNat) s.out
  let out :=
    if 0xF = s.i &&& 0xF then serialTransmit (chr '\n') out -- EOL every 16 chars
    else serialTransmit (chr ' ') out
  ⟨s.i + 1, out⟩

def HexLoop.test (len : BitVec 16) (s : HexLoop) : Bool := s.i.setWidth 16 < len

/-- `serial_send_hex` ends, and has transmitted `out`. -/
def SerialSendHex (buffer : Nat → Byte) (len : BitVec 16) (out : Output) : Prop :=
  ∃ i, EndsWhile (fun s => some (s.body buffer)) (HexLoop.test len) ⟨0, []⟩ ⟨i, out⟩

/-- The hexadecimal digits. -/
def digits : List Char :=
  ['0', '1', '2', '3', '4', '5', '6', '7', '8', '9', 'A', 'B', 'C', 'D', 'E', 'F']

def digit (n : Nat) : Byte := chr (digits.getD n '?')

def cell (buffer : Nat → Byte) (i : Nat) : List Byte :=
  [digit ((buffer i).toNat / 16), digit ((buffer i).toNat % 16),
    if i % 16 = 15 then chr '\n' else chr ' ']

def dump (buffer : Nat → Byte) (n : Nat) : List Byte := (range n).flatMap (cell buffer)

theorem dump_succ (buffer : Nat → Byte) (n : Nat) :
    dump buffer (n + 1) = dump buffer n ++ cell buffer n := by
  rw [dump, range_succ, flatMap_append, flatMap_singleton, dump]

theorem figure2hex_eq {value : Byte} (h : value.toNat < 16) :
    figure2hex value = digit value.toNat := by
  revert value
  decide

theorem serialHex_eq (val : Byte) (out : Output) :
    serialHex val out = out ++ [digit (val.toNat / 16), digit (val.toNat % 16)] := by
  have hhigh : (val >>> 4).toNat = val.toNat / 16 := by
    rw [BitVec.toNat_ushiftRight, Nat.shiftRight_eq_div_pow]
  have hlow : (val &&& 0xF).toNat = val.toNat % 16 := by
    rw [BitVec.toNat_and]
    exact Nat.and_two_pow_sub_one_eq_mod val.toNat 4
  have hval := val.isLt
  rw [serialHex, figure2hex_eq (by omega), figure2hex_eq (by omega), hhigh, hlow]
  simp only [serialTransmit, append_assoc, singleton_append]

theorem body_eq (buffer : Nat → Byte) (s : HexLoop) :
    s.body buffer = ⟨s.i + 1, s.out ++ cell buffer s.i.toNat⟩ := by
  have hsep : 0xF = s.i &&& 0xF ↔ s.i.toNat % 16 = 15 := by
    have hlow : (s.i &&& 0xF).toNat = s.i.toNat % 16 := by
      rw [BitVec.toNat_and]
      exact Nat.and_two_pow_sub_one_eq_mod s.i.toNat 4
    rw [BitVec.toNat_eq, hlow, eq_comm]
    rfl
  rw [HexLoop.body, serialHex_eq, cell]
  by_cases h : s.i.toNat % 16 = 15
  · rw [if_pos (hsep.mpr h), if_pos h]
    simp [serialTransmit]
  · rw [if_neg fun hc => h (hsep.mp hc), if_neg h]
    simp [serialTransmit]

theorem test_iff {len : BitVec 16} {s : HexLoop} :
    HexLoop.test len s = true ↔ s.i.toNat < len.toNat := by
  rw [HexLoop.test, decide_eq_true_iff, BitVec.lt_def, BitVec.toNat_setWidth]
  have := s.i.isLt
  omega

theorem serialSendHex_of_le {buffer : Nat → Byte} {len : BitVec 16} (h : len.toNat ≤ 255) :
    SerialSendHex buffer len (dump buffer len.toNat) := by
  by_cases hzero : len.toNat = 0
  · refine ⟨0, ?_⟩
    have htest : ¬ HexLoop.test len ⟨0, []⟩ = true := by
      rw [test_iff, hzero]
      exact Nat.not_lt_zero _
    rw [EndsWhile, if_neg htest, hzero]
    rfl
  · -- after `k` rounds the counter is `k`, and `k` cells are transmitted
    have hpos : 0 < len.toNat := Nat.pos_of_ne_zero hzero
    have hround : ∀ k s, k < len.toNat → (s.i.toNat = k ∧ s.out = dump buffer k) →
        ∃ m, some (HexLoop.body buffer s) = some m ∧
          (m.i.toNat = k + 1 ∧ m.out = dump buffer (k + 1)) ∧
          (HexLoop.test len m = true ↔ k + 1 < len.toNat) := by
      rintro k s hk ⟨rfl, hout⟩
      have hi : (s.i + 1).toNat = s.i.toNat + 1 := by
        have hlt : s.i.toNat + 1 < 2 ^ 8 := by omega
        rw [BitVec.toNat_add]
        exact Nat.mod_eq_of_lt hlt
      refine ⟨_, rfl, ?_, ?_⟩
      · rw [body_eq, hout, dump_succ]
        exact ⟨hi, rfl⟩
      · rw [test_iff, body_eq, hi]
    have hstart : (0 : Byte).toNat = 0 ∧ ([] : Output) = dump buffer 0 := ⟨rfl, rfl⟩
    obtain ⟨⟨i, out⟩, hends, -, hout⟩ := exists_ends_of_count
      (J := fun k (s : HexLoop) => s.i.toNat = k ∧ s.out = dump buffer k) (s := ⟨0, []⟩)
      hstart hpos hround
    have htest : HexLoop.test len ⟨0, []⟩ = true := test_iff.mpr hpos
    refine ⟨i, ?_⟩
    rw [EndsWhile, if_pos htest]
    exact hout ▸ hends

theorem not_serialSendHex {buffer : Nat → Byte} {len : BitVec 16} (h : 255 < len.toNat)
    (out : Output) : ¬ SerialSendHex buffer len out := by
  have htest : ∀ s, HexLoop.test len s = true := by
    intro s
    have hi := s.i.isLt
    rw [test_iff]
    omega
  rintro ⟨i, hends⟩
  rw [EndsWhile, if_pos (htest _)] at hends
  exact not_ends (I := fun _ => True) trivial (fun s _ => ⟨_, rfl, htest _, trivial⟩) hends

/-- **THE DUMP IS COMPLETE** exactly when the length is at most 255. -/
theorem serial_send_hex_complete_iff (buffer : Nat → Byte) (len : BitVec 16) :
    SerialSendHex buffer len (dump buffer len.toNat) ↔ len.toNat ≤ 255 := by
  constructor
  · intro hends
    by_contra hlen
    exact not_serialSendHex (Nat.lt_of_not_le hlen) _ hends
  · exact serialSendHex_of_le

/-- A buffer of 256 zeros: the loop does not end. -/
theorem serial_send_hex_endless : ¬ ∃ out, SerialSendHex (fun _ => 0) 256#16 out := by
  rintro ⟨out, hends⟩
  exact not_serialSendHex (by decide) out hends

end AvrtosSerial
