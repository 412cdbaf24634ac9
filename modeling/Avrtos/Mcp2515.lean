import Avrtos.Base.BitFields
import Avrtos.Defines

/-! # CAN frames in the MCP2515 (`devices/mcp2515.c`)

    What `mcp2515_send` loads into a transmit buffer, `read_rx_buf` reads back as the same frame. -/

namespace AvrtosMcp2515

open List hiding Vector
open AvrtosDefines BitFields

abbrev Byte := BitVec 8

structure CanFrame where
  data : Vector Byte 8
  len : Byte
  id : BitVec 29
  rtr : Bool
  isExt : Bool
deriving DecidableEq, Repr

structure IdRegs where
  sidh : Byte
  sidl : Byte
  eid8 : Byte
  eid0 : Byte
deriving DecidableEq, Repr

def IdRegs.bytes (r : IdRegs) : List Byte := [r.sidh, r.sidl, r.eid8, r.eid0]

/-- `can_id_to_buf`. -/
def canIdToBuf (id : BitVec 32) (isExt : Bool) : IdRegs :=
  let half : BitVec 16 := id.setWidth 16
  if isExt then
    let eid0 : Byte := half.setWidth 8
    let eid8 : Byte := (half >>> 8).setWidth 8
    let half : BitVec 16 := (id >>> 16).setWidth 16
    let sidl : Byte := (half &&& 0x03).setWidth 8
    let sidl := sidl ||| 0x08
    let sidl := sidl ||| (half <<< 3 &&& 0xE0).setWidth 8
    ⟨(half >>> 5).setWidth 8, sidl, eid8, eid0⟩
  else
    ⟨(half >>> 3).setWidth 8, (half <<< 5 &&& 0xE0).setWidth 8, 0, 0⟩

/-- `MCP_LOAD_TX_BUFFER`. -/
def mcpLoadTxBuffer (a b c : Byte) : Byte := 0x40 ||| a <<< 5 ||| b <<< 6 ||| c <<< 7

/-- `MCP_RTS`. -/
def mcpRts (tx0 tx1 tx2 : Byte) : Byte := 0x80 ||| tx0 ||| tx1 <<< 1 ||| tx2 <<< 2

structure TxBuffer where
  txnif : Byte
  txload : Byte
  txrts : Byte
deriving DecidableEq, Repr

def freeTxBuffer (txreq : Byte) : Option TxBuffer :=
  if txreq &&& 0x04 = 0 then some ⟨0x04, mcpLoadTxBuffer 0 0 0, mcpRts 1 0 0⟩
  else if txreq &&& 0x10 = 0 then some ⟨0x08, mcpLoadTxBuffer 0 1 0, mcpRts 0 1 0⟩
  else if txreq &&& 0x40 = 0 then some ⟨0x10, mcpLoadTxBuffer 1 0 0, mcpRts 0 0 1⟩
  else none

abbrev Transaction := List Byte

/-- `modify_register`. -/
def modifyRegister (regAddr mask data : Byte) : Transaction := [0x05, regAddr, mask, data]

def txBytes (frame : CanFrame) : List Byte :=
  let id := canIdToBuf (frame.id.setWidth 32) frame.isExt
  let len : Byte := if frame.len < 8 then frame.len else 8
  let dlc : Byte := len ||| if frame.rtr then 0x40 else 0
  id.bytes ++ [dlc] ++ frame.data.toList.take len.toNat

/-- `mcp2515_send` against a controller that reports `status`. -/
def mcp2515Send (status : Byte) (frame : CanFrame) : Int × List Transaction :=
  match freeTxBuffer (status &&& 0x54) with
  | none => (-EBUSY, [[0xA0, 0x00]])
  | some tx => (0, [[0xA0, 0x00], modifyRegister 0x2C tx.txnif 0, tx.txload :: txBytes frame,
      [tx.txrts]])

def readData (rx : Nat → Byte) : Nat → Nat → Vector Byte 8 → Vector Byte 8
  | _, 0, data => data
  | i, n + 1, data => readData rx (i + 1) n (data.setIfInBounds i (rx (5 + i)))

def rxId (r : IdRegs) : Bool × BitVec 29 :=
  let id : BitVec 29 := (r.sidh.setWidth 16 <<< 3 ||| r.sidl.setWidth 16 >>> 5).setWidth 29
  if r.sidl &&& 0x08 ≠ 0 then
    let id := id <<< 2 ||| (r.sidl &&& 0x03).setWidth 29
    let id := id <<< 8 ||| r.eid8.setWidth 29
    (true, id <<< 8 ||| r.eid0.setWidth 29)
  else
    (false, id)

/-- `read_rx_buf`. -/
def readRxBuf (rx : Nat → Byte) (frame : CanFrame) : CanFrame :=
  let id : IdRegs := ⟨rx 0, rx 1, rx 2, rx 3⟩
  let dlc := rx 4
  let len : Byte := if dlc &&& 0x0F < 8 then dlc &&& 0x0F else 8
  { data := readData rx 0 len.toNat frame.data
    len := len
    id := (rxId id).2
    rtr := dlc &&& 0x40 ≠ 0
    isExt := (rxId id).1 }

theorem toNat_sidl_top (half : BitVec 16) (lo : Nat) {k : Nat} (hk : k + lo = 5) :
    ((half <<< k &&& 0xE0).setWidth 8).toNat = field half.toNat lo 3 * 2 ^ 5 := by
  have hmask : (0xE0 : BitVec 16) = (7 : BitVec 16) <<< (k + lo) := by
    rw [hk]
    rfl
  have hlt : field half.toNat lo 3 < 8 := field_lt _ _ _
  have hbits : (half >>> lo &&& 7).toNat = field half.toNat lo 3 :=
    toNat_shift_and half lo 3 (by decide)
  rw [hmask, shiftLeft_and_shiftLeft, hk, BitVec.toNat_setWidth,
    BitFields.toNat_shiftLeft _ _ (by rw [hbits]; omega), hbits]
  omega

theorem sidl_fields {a b : Nat} (ha : a < 8) (hb : b < 4) :
    (BitVec.ofNat 8 (a * 32 + 8 + b) &&& 0x08 : Byte) = 0x08 ∧
      (BitVec.ofNat 8 (a * 32 + 8 + b) &&& 0x03 : Byte) = BitVec.ofNat 8 b ∧
      ((BitVec.ofNat 8 (a * 32 + 8 + b)).setWidth 16 >>> 5 : BitVec 16) = BitVec.ofNat 16 a ∧
      (BitVec.ofNat 8 (a * 32) &&& 0x08 : Byte) = 0 ∧
      ((BitVec.ofNat 8 (a * 32)).setWidth 16 >>> 5 : BitVec 16) = BitVec.ofNat 16 a := by
  revert b
  revert a
  decide

section Identifier

variable (id : BitVec 29)

theorem toNat_id32 : (id.setWidth 32).toNat = id.toNat := toNat_widen id (by decide)

theorem canIdToBuf_ext : (canIdToBuf (id.setWidth 32) true).sidh.toNat = field id.toNat 21 8 ∧
      (canIdToBuf (id.setWidth 32) true).sidl =
        BitVec.ofNat 8 (field id.toNat 18 3 * 32 + 8 + field id.toNat 16 2) ∧
      (canIdToBuf (id.setWidth 32) true).eid8.toNat = field id.toNat 8 8 ∧
      (canIdToBuf (id.setWidth 32) true).eid0.toNat = field id.toNat 0 8 := by
  have hhalf : (((id.setWidth 32) >>> 16).setWidth 16).toNat = field id.toNat 16 16 := by
    rw [toNat_shift_narrow, toNat_id32]
  have hlow : ((id.setWidth 32).setWidth 16).toNat = field id.toNat 0 16 := by
    rw [toNat_narrow, toNat_id32]
  simp only [canIdToBuf, if_true]
  refine ⟨?_, ?_, ?_, ?_⟩
  · rw [toNat_shift_narrow, hhalf, field_field _ _ _ _ _ (by decide)]
  · apply BitVec.eq_of_toNat_eq
    have htop : ((((id.setWidth 32) >>> 16).setWidth 16 <<< 3 &&& 0xE0).setWidth 8).toNat =
        field id.toNat 18 3 * 2 ^ 5 := by
      rw [toNat_sidl_top _ 2 rfl, hhalf, field_field _ _ _ _ _ (by decide)]
    have hbot : ((((id.setWidth 32) >>> 16).setWidth 16 &&& 0x03).setWidth 8).toNat =
        field id.toNat 16 2 := by
      have hand : (((id.setWidth 32) >>> 16).setWidth 16 &&& 0x03).toNat =
          field (((id.setWidth 32) >>> 16).setWidth 16).toNat 0 2 := toNat_and_low _ 2 (by decide)
      have hlt : field (field id.toNat 16 16) 0 2 < 4 := field_lt _ _ _
      rw [BitVec.toNat_setWidth, hand, hhalf, Nat.mod_eq_of_lt (by omega),
        field_field _ _ _ _ _ (by decide)]
    have hlt : field id.toNat 16 2 < 4 := field_lt _ _ _
    have hlt' : field id.toNat 18 3 < 8 := field_lt _ _ _
    have hmid : ((0x08 : Byte) ||| (((id.setWidth 32) >>> 16).setWidth 16 &&& 0x03).setWidth 8).toNat =
        1 * 2 ^ 3 + field id.toNat 16 2 := by
      rw [toNat_or _ _ 3 1 rfl (by rw [hbot]; omega), hbot]
    rw [BitVec.or_comm, BitVec.or_comm _ (0x08 : Byte),
      toNat_or _ _ 5 _ htop (by rw [hmid]; omega), hmid, BitVec.toNat_ofNat]
    omega
  · rw [toNat_shift_narrow, hlow, field_field _ _ _ _ _ (by decide)]
  · rw [toNat_narrow, hlow, field_field _ _ _ _ _ (by decide)]

theorem canIdToBuf_std : (canIdToBuf (id.setWidth 32) false).sidh.toNat = field id.toNat 3 8 ∧
      (canIdToBuf (id.setWidth 32) false).sidl = BitVec.ofNat 8 (field id.toNat 0 3 * 32) := by
  have hlow : ((id.setWidth 32).setWidth 16).toNat = field id.toNat 0 16 := by
    rw [toNat_narrow, toNat_id32]
  simp only [canIdToBuf, Bool.false_eq_true, if_false]
  refine ⟨?_, ?_⟩
  · rw [toNat_shift_narrow, hlow, field_field _ _ _ _ _ (by decide)]
  · apply BitVec.eq_of_toNat_eq
    have htop : (((id.setWidth 32).setWidth 16 <<< 5 &&& 0xE0).setWidth 8).toNat =
        field id.toNat 0 3 * 2 ^ 5 := by
      rw [toNat_sidl_top _ 0 rfl, hlow, field_field _ _ _ _ _ (by decide)]
    have hlt : field id.toNat 0 3 < 8 := field_lt _ _ _
    rw [htop, BitVec.toNat_ofNat]
    omega

theorem toNat_rxSid (n lo : Nat) {sidh : Byte} {low : BitVec 16}
    (hsidh : sidh.toNat = field n (lo + 3) 8) (hlow : low = BitVec.ofNat 16 (field n lo 3)) :
    ((sidh.setWidth 16 <<< 3 ||| low).setWidth 29 : BitVec 29).toNat = field n lo 11 := by
  have hlt : field n lo 3 < 8 := field_lt _ _ _
  rw [toNat_widen _ (by decide)]
  have hhigh : (sidh.setWidth 16).toNat = field n (lo + 3) 8 := by
    rw [toNat_widen _ (by decide), hsidh]
  have hlow' : low.toNat = field n lo 3 := by
    rw [hlow, BitVec.toNat_ofNat]
    omega
  exact toNat_append hhigh hlow' (by decide)

theorem rxId_canIdToBuf_ext : rxId (canIdToBuf (id.setWidth 32) true) = (true, id) := by
  obtain ⟨hsidh, hsidl, heid8, heid0⟩ := canIdToBuf_ext id
  have hlt : field id.toNat 16 2 < 4 := field_lt _ _ _
  obtain ⟨hide, heid, hsid, -, -⟩ := sidl_fields (field_lt id.toNat 18 3) (field_lt id.toNat 16 2)
  simp only [rxId, hsidl, hide, heid, hsid]
  simp only [ne_eq, BitVec.reduceEq, not_false_eq_true, if_true, Prod.mk.injEq, true_and]
  -- one register after the other is appended to the standard part
  have hb16 : ((BitVec.ofNat 8 (field id.toNat 16 2)).setWidth 29).toNat = field id.toNat 16 2 := by
    rw [toNat_widen _ (by decide), BitVec.toNat_ofNat]
    omega
  have hb8 : ((canIdToBuf (id.setWidth 32) true).eid8.setWidth 29).toNat = field id.toNat 8 8 := by
    rw [toNat_widen _ (by decide), heid8]
  have hb0 : ((canIdToBuf (id.setWidth 32) true).eid0.setWidth 29).toNat = field id.toNat 0 8 := by
    rw [toNat_widen _ (by decide), heid0]
  have h18 := toNat_rxSid id.toNat 18 hsidh rfl
  have h0 := toNat_append (toNat_append (toNat_append h18 hb16 (by decide)) hb8 (by decide)) hb0
    (by decide)
  apply BitVec.eq_of_toNat_eq
  rw [h0, field, pow_zero, Nat.div_one, Nat.mod_eq_of_lt id.isLt]

theorem rxId_canIdToBuf_std (hid : id.toNat < 2 ^ 11) :
    rxId (canIdToBuf (id.setWidth 32) false) = (false, id) := by
  obtain ⟨hsidh, hsidl⟩ := canIdToBuf_std id
  obtain ⟨-, -, -, hide, hsid⟩ := sidl_fields (field_lt id.toNat 0 3) (show 0 < 4 by decide)
  simp only [rxId, hsidl, hide, hsid, ne_eq, not_true_eq_false, if_false, Prod.mk.injEq, true_and]
  apply BitVec.eq_of_toNat_eq
  rw [toNat_rxSid id.toNat 0 hsidh rfl, field, pow_zero, Nat.div_one, Nat.mod_eq_of_lt hid]

end Identifier

theorem rxId_canIdToBuf (id : BitVec 29) (isExt : Bool) (hid : isExt = false → id.toNat < 2 ^ 11) :
    rxId (canIdToBuf (id.setWidth 32) isExt) = (isExt, id) := by
  cases isExt with
  | true => exact rxId_canIdToBuf_ext id
  | false => exact rxId_canIdToBuf_std id (hid rfl)

theorem dlc_fields {len : Byte} (hlen : len.toNat ≤ 8) (rtr : Bool) :
    (len ||| if rtr then 0x40 else 0) &&& 0x0F = len ∧
      ((len ||| if rtr then 0x40 else 0) &&& (0x40 : Byte) ≠ 0 ↔ rtr = true) := by
  obtain ⟨n, hn, rfl⟩ : ∃ n, n ≤ 8 ∧ len = BitVec.ofNat 8 n := ⟨len.toNat, hlen, by simp⟩
  cases rtr <;> interval_cases n <;> decide

theorem min_len {len : Byte} (hlen : len.toNat ≤ 8) : (if len < 8 then len else 8) = len := by
  split
  · rfl
  · rename_i h
    have h8 : (8 : Byte).toNat = 8 := rfl
    rw [BitVec.lt_def, h8] at h
    apply BitVec.eq_of_toNat_eq
    omega

theorem readData_get (rx : Nat → Byte) (i n : Nat) (data : Vector Byte 8) (j : Nat) (hj : j < 8) :
    (readData rx i n data)[j] = if i ≤ j ∧ j < i + n then rx (5 + j) else data[j] := by
  induction n generalizing i data with
  | zero =>
    rw [readData, if_neg (by omega)]
  | succ n ih =>
    rw [readData, ih]
    by_cases h : i = j
    · subst h
      rw [if_neg (by omega), if_pos (by omega)]
      simp
    · rw [Vector.getElem_setIfInBounds_ne hj h]
      by_cases hlt : i + 1 ≤ j ∧ j < i + 1 + n
      · rw [if_pos hlt, if_pos (by omega)]
      · rw [if_neg hlt, if_neg (by omega)]

structure Valid (frame : CanFrame) : Prop where
  len : frame.len.toNat ≤ 8
  id : frame.isExt = false → frame.id.toNat < 2 ^ 11

/-- Two frames that say the same. -/
structure SameFrame (f g : CanFrame) : Prop where
  id : g.id = f.id
  isExt : g.isExt = f.isExt
  rtr : g.rtr = f.rtr
  len : g.len = f.len
  data : ∀ i (hi : i < 8), i < f.len.toNat → g.data[i] = f.data[i]

def txLoad : List Transaction → Option (List Byte)
  | [_, _, _ :: bytes, _] => some bytes
  | _ => none

theorem txLoad_mcp2515Send {status : Byte} {frame : CanFrame}
    (h : (mcp2515Send status frame).1 = 0) :
    txLoad (mcp2515Send status frame).2 = some (txBytes frame) := by
  unfold mcp2515Send at h ⊢
  split at h
  · exact absurd h (by decide)
  · rfl

theorem eq_of_txLoad {status : Byte} {frame : CanFrame} {bytes : List Byte}
    (h : txLoad (mcp2515Send status frame).2 = some bytes) : txBytes frame = bytes := by
  unfold mcp2515Send at h
  split at h
  · exact absurd h (by simp [txLoad])
  · exact Option.some.inj h

theorem txBytes_eq {frame : CanFrame} (hvalid : Valid frame) :
    txBytes frame = (canIdToBuf (frame.id.setWidth 32) frame.isExt).bytes ++
      (frame.len ||| if frame.rtr then 0x40 else 0) :: frame.data.toList.take frame.len.toNat := by
  simp only [txBytes, min_len hvalid.len, append_assoc, cons_append, nil_append]

theorem sameFrame_readRxBuf {frame : CanFrame} (hvalid : Valid frame) {rx : Nat → Byte}
    (hrx : ∀ i, i < (txBytes frame).length → (txBytes frame)[i]? = some (rx i)) (old : CanFrame) :
    SameFrame frame (readRxBuf rx old) := by
  have hlen := hvalid.len
  obtain ⟨hdlc, hrtr⟩ := dlc_fields hlen frame.rtr
  rw [txBytes_eq hvalid] at hrx
  have hlength : ((canIdToBuf (frame.id.setWidth 32) frame.isExt).bytes ++
      (frame.len ||| if frame.rtr then 0x40 else 0) ::
        frame.data.toList.take frame.len.toNat).length = 5 + frame.len.toNat := by
    simp [IdRegs.bytes]
    omega
  rw [hlength] at hrx
  have hregs : (⟨rx 0, rx 1, rx 2, rx 3⟩ : IdRegs) =
      canIdToBuf (frame.id.setWidth 32) frame.isExt := by
    have h0 := hrx 0 (by omega)
    have h1 := hrx 1 (by omega)
    have h2 := hrx 2 (by omega)
    have h3 := hrx 3 (by omega)
    simp only [IdRegs.bytes, cons_append, List.getElem?_cons_zero, List.getElem?_cons_succ,
      Option.some.injEq] at h0 h1 h2 h3
    rw [← h0, ← h1, ← h2, ← h3]
  have hrx4 : rx 4 = frame.len ||| if frame.rtr then 0x40 else 0 :=
    (Option.some.inj (hrx 4 (by omega))).symm
  have hrxlen : (if rx 4 &&& 0x0F < 8 then rx 4 &&& 0x0F else 8) = frame.len := by
    rw [hrx4, hdlc]
    exact min_len hlen
  have hid := rxId_canIdToBuf frame.id frame.isExt hvalid.id
  refine ⟨?_, ?_, ?_, hrxlen, fun i hi hlt => ?_⟩
  · simp only [readRxBuf, hregs, hid]
  · simp only [readRxBuf, hregs, hid]
  · simp only [readRxBuf, hrx4]
    cases hr : frame.rtr <;> simp [hr] at hrtr ⊢ <;> exact hrtr
  · simp only [readRxBuf, hrxlen]
    rw [readData_get, if_pos (by omega)]
    have hi5 := hrx (5 + i) (by omega)
    rw [Nat.add_comm, List.getElem?_append_right (by simp [IdRegs.bytes])] at hi5
    simp only [IdRegs.bytes, length_cons, length_nil, Nat.zero_add, Nat.reduceAdd,
      show i + 5 - 4 = i + 1 by omega, List.getElem?_cons_succ, List.getElem?_take, hlt, if_true,
      Vector.getElem?_toList, Vector.getElem?_eq_getElem hi, Option.some.injEq] at hi5
    rw [Nat.add_comm, hi5]

/-- **CAN FRAMES SURVIVE THE ENCODING**: the bytes loaded by a send are read as the same frame. -/
theorem mcp2515_roundtrip (frame : CanFrame) (hvalid : Valid frame) :
    (∀ status, (mcp2515Send status frame).1 = 0 →
      ∃ bytes, txLoad (mcp2515Send status frame).2 = some bytes ∧
        ∀ (rx : Nat → Byte) (old : CanFrame),
          (∀ i, i < bytes.length → bytes[i]? = some (rx i)) →
            SameFrame frame (readRxBuf rx old)) ∧
      ∀ (frame' : CanFrame) (status status' : Byte) (bytes : List Byte), Valid frame' →
        txLoad (mcp2515Send status frame).2 = some bytes →
        txLoad (mcp2515Send status' frame').2 = some bytes → SameFrame frame frame' := by
  refine ⟨fun status hsent => ⟨_, txLoad_mcp2515Send hsent, fun rx old hrx =>
    sameFrame_readRxBuf hvalid hrx old⟩, ?_⟩
  intro frame' status status' bytes hvalid' hload hload'
  -- both are what is read back from the one sequence of bytes
  have hbytes : txBytes frame' = txBytes frame :=
    (eq_of_txLoad hload').trans (eq_of_txLoad hload).symm
  have hrx : ∀ i, i < (txBytes frame).length →
      (txBytes frame)[i]? = some ((txBytes frame).getD i 0) := by
    intro i hi
    rw [getD_eq_getElem?_getD, List.getElem?_eq_getElem hi, Option.getD_some]
  obtain ⟨hid, hext, hrtr, hlen, hdata⟩ := sameFrame_readRxBuf hvalid hrx frame
  rw [← hbytes] at hrx
  obtain ⟨hid', hext', hrtr', hlen', hdata'⟩ := sameFrame_readRxBuf hvalid' hrx frame
  rw [hbytes] at hid' hext' hrtr' hlen' hdata'
  refine ⟨hid'.symm.trans hid, hext'.symm.trans hext, hrtr'.symm.trans hrtr,
    hlen'.symm.trans hlen, fun i hi hlt => ?_⟩
  have hlt' : i < frame'.len.toNat := by rwa [← hlen', hlen]
  exact (hdata' i hi hlt').symm.trans (hdata i hi hlt)

def remoteFrame : CanFrame := ⟨#v[1, 2, 3, 4, 5, 6, 7, 8], 2, 0x1ABCDEF5, true, true⟩

/-- The remote frame, sent through the second transmit buffer. -/
theorem mcp2515_roundtrip_remote :
    Valid remoteFrame ∧ (mcp2515Send 0x04 remoteFrame).1 = 0 ∧
      ∃ bytes, txLoad (mcp2515Send 0x04 remoteFrame).2 = some bytes ∧
        ∀ (rx : Nat → Byte) (old : CanFrame),
          (∀ i, i < bytes.length → bytes[i]? = some (rx i)) →
            SameFrame remoteFrame (readRxBuf rx old) := by
  have hvalid : Valid remoteFrame := ⟨by decide, by decide⟩
  exact ⟨hvalid, by decide, (mcp2515_roundtrip remoteFrame hvalid).1 0x04 (by decide)⟩

end AvrtosMcp2515
