import Avrtos.Base.BitFields

/-! # The registers of an SD card (`devices/sd.c`)

    Fields are taken apart by `BitFields`; the capacity is computed in 32 bits. -/

namespace AvrtosSdRegisters

open BitFields

/-- `struct sd_csd`. -/
structure Csd where
  capacityBytes : BitVec 32
  capacityBlocks : BitVec 32
  csdStructure : BitVec 8
  maxReadBlLen : BitVec 16
  maxWriteBlLen : BitVec 16
deriving DecidableEq, Repr

/-- `struct sd_cid`. -/
structure Cid where
  manufacturerId : BitVec 8
  oemId : Vector (BitVec 8) 3
  productName : Vector (BitVec 8) 6
  productRevision : BitVec 8
  serialNumber : BitVec 32
  manufacturingDate : BitVec 16
deriving DecidableEq, Repr

/-- A byte, promoted to `int`. -/
def int (b : BitVec 8) : BitVec 16 := b.setWidth 16

/-- `sd_parse_csd_v1`. -/
def sdParseCsdV1 (data : Nat → BitVec 8) (csd : Csd) : Csd :=
  let readBlLen : BitVec 8 := (int (data 5) &&& 0x0F).setWidth 8
  let maxReadBlLen : BitVec 16 := 1 <<< readBlLen.toNat
  let writeBlLen : BitVec 8 :=
    ((int (data 12) &&& 0x03) <<< 2 ||| (int (data 13) >>> 6 &&& 0x03)).setWidth 8
  let cSize : BitVec 16 :=
    (int (data 6) &&& 0x03) <<< 10 ||| int (data 7) <<< 2 ||| (int (data 8) >>> 6 &&& 0x03)
  let cSizeMult : BitVec 8 :=
    ((int (data 9) &&& 0x03) <<< 1 ||| (int (data 10) >>> 7 &&& 0x01)).setWidth 8
  let capacityBlocks : BitVec 32 := (cSize.setWidth 32 + 1) <<< (cSizeMult.toNat + 2)
  { csd with
    maxReadBlLen := maxReadBlLen
    maxWriteBlLen := 1 <<< writeBlLen.toNat
    capacityBlocks := capacityBlocks
    capacityBytes := capacityBlocks * maxReadBlLen.setWidth 32 }

/-- `sd_parse_cid`. -/
def sdParseCid (data : Nat → BitVec 8) : Cid where
  manufacturerId := data 0
  oemId := #v[data 1, data 2, 0]
  productName := #v[data 3, data 4, data 5, data 6, data 7, 0]
  productRevision := data 8
  serialNumber := (data 9).setWidth 32 <<< 24 ||| (data 10).setWidth 32 <<< 16 |||
    (data 11).setWidth 32 <<< 8 ||| (data 12).setWidth 32
  manufacturingDate := int (data 13) <<< 4 ||| (int (data 14) >>> 4 &&& 0x0F)

def presented (reg : BitVec 128) (i : Nat) : BitVec 8 :=
  BitVec.ofNat 8 (reg.toNat / 2 ^ (120 - 8 * i))

/-- `CSD_STRUCTURE`, bits 127:126. -/
def csdStructure (csd : BitVec 128) : Nat := field csd.toNat 126 2
/-- `READ_BL_LEN`, bits 83:80. -/
def readBlLen (csd : BitVec 128) : Nat := field csd.toNat 80 4
/-- `C_SIZE`, bits 73:62. -/
def cSize (csd : BitVec 128) : Nat := field csd.toNat 62 12
/-- `C_SIZE_MULT`, bits 49:47. -/
def cSizeMult (csd : BitVec 128) : Nat := field csd.toNat 47 3
/-- `WRITE_BL_LEN`, bits 25:22. -/
def writeBlLen (csd : BitVec 128) : Nat := field csd.toNat 22 4

structure Decoded (csd : BitVec 128) (r : Csd) : Prop where
  read : r.maxReadBlLen.toNat = 2 ^ readBlLen csd
  write : 9 ≤ writeBlLen csd → writeBlLen csd ≤ 11 → r.maxWriteBlLen.toNat = 2 ^ writeBlLen csd
  blocks : r.capacityBlocks.toNat = (cSize csd + 1) * 2 ^ (cSizeMult csd + 2)
  bytes : r.capacityBytes.toNat = (cSize csd + 1) * 2 ^ (cSizeMult csd + 2) * 2 ^ readBlLen csd

theorem toNat_presented (reg : BitVec 128) (i : Nat) :
    (presented reg i).toNat = field reg.toNat (120 - 8 * i) 8 := BitVec.toNat_ofNat _ _

theorem toNat_int_presented (reg : BitVec 128) (i : Nat) :
    (int (presented reg i)).toNat = field reg.toNat (120 - 8 * i) 8 := by
  rw [int, toNat_widen _ (by decide), toNat_presented]

theorem toNat_presented_shift (reg : BitVec 128) (i k : Nat) {v : Nat} (hv : 8 + k ≤ v) :
    ((presented reg i).setWidth v <<< k).toNat = field reg.toNat (120 - 8 * i) 8 * 2 ^ k := by
  have hwide : ((presented reg i).setWidth v).toNat = field reg.toNat (120 - 8 * i) 8 := by
    rw [toNat_widen _ (by omega), toNat_presented]
  rw [toNat_shiftLeft, hwide]
  rw [hwide]
  calc field reg.toNat (120 - 8 * i) 8 * 2 ^ k < 2 ^ 8 * 2 ^ k :=
        Nat.mul_lt_mul_of_pos_right (field_lt _ _ _) (Nat.two_pow_pos k)
    _ ≤ 2 ^ v := by
        rw [← pow_add]
        exact Nat.pow_le_pow_right (by decide) hv

theorem toNat_shift_mask (reg : BitVec 128) (i lo m : Nat) (h : lo + m ≤ 8) :
    (int (presented reg i) >>> lo &&& BitVec.ofNat 16 (2 ^ m - 1)).toNat =
      field reg.toNat (120 - 8 * i + lo) m := by
  rw [toNat_shift_and _ _ _ (by omega), toNat_int_presented, field_field _ _ _ _ _ h]

theorem toNat_mask (reg : BitVec 128) (i m : Nat) (h : m ≤ 8) :
    (int (presented reg i) &&& BitVec.ofNat 16 (2 ^ m - 1)).toNat =
      field reg.toNat (120 - 8 * i) m := by
  rw [toNat_and_low _ _ (by omega), toNat_int_presented, field_field _ _ _ _ _ (by omega)]
  rfl

theorem toNat_across (reg : BitVec 128) (i a b : Nat) (ha : a ≤ 8) (hb : b ≤ 8) (hi : i < 15) :
    ((int (presented reg i) &&& BitVec.ofNat 16 (2 ^ a - 1)) <<< b |||
      (int (presented reg (i + 1)) >>> (8 - b) &&& BitVec.ofNat 16 (2 ^ b - 1))).toNat =
      field reg.toNat (120 - 8 * i - b) (b + a) := by
  have hlow := toNat_mask reg i a ha
  have hlt : field reg.toNat (120 - 8 * i) a * 2 ^ b < 2 ^ 16 := by
    have h1 := Nat.mul_lt_mul_of_pos_right (field_lt reg.toNat (120 - 8 * i) a) (Nat.two_pow_pos b)
    have h2 : 2 ^ a * 2 ^ b ≤ 2 ^ 16 := by
      rw [← pow_add]
      exact Nat.pow_le_pow_right (by decide) (by omega)
    omega
  have hhigh := toNat_shift_mask reg (i + 1) (8 - b) b (by omega)
  rw [toNat_or _ _ b (field reg.toNat (120 - 8 * i) a), hhigh, field_add]
  · rw [show 120 - 8 * (i + 1) + (8 - b) = 120 - 8 * i - b by omega,
      show 120 - 8 * i - b + b = 120 - 8 * i by omega]
  · rw [toNat_shiftLeft _ _ (by rw [hlow]; exact hlt), hlow]
  · rw [hhigh]
    exact field_lt _ _ _

theorem toNat_one_shiftLeft {n : Nat} (h : n < 16) : ((1 : BitVec 16) <<< n).toNat = 2 ^ n := by
  have hone : (1 : BitVec 16).toNat = 1 := rfl
  rw [toNat_shiftLeft, hone, Nat.one_mul]
  rw [hone, Nat.one_mul]
  exact Nat.pow_lt_pow_right (by decide) h

section Csd

variable (csd : BitVec 128)

theorem toNat_readBlLen : ((int (presented csd 5) &&& 0x0F).setWidth 8).toNat = readBlLen csd := by
  have hmask : (int (presented csd 5) &&& 0x0F).toNat = readBlLen csd :=
    toNat_mask csd 5 4 (by decide)
  have hlt : readBlLen csd < 16 := field_lt _ _ _
  rw [BitVec.toNat_setWidth, hmask, Nat.mod_eq_of_lt (by omega)]

theorem toNat_writeBlLen : (((int (presented csd 12) &&& 0x03) <<< 2 |||
      (int (presented csd 13) >>> 6 &&& 0x03)).setWidth 8).toNat = writeBlLen csd := by
  have hacross : ((int (presented csd 12) &&& 0x03) <<< 2 |||
      (int (presented csd 13) >>> 6 &&& 0x03)).toNat = writeBlLen csd :=
    toNat_across csd 12 2 2 (by decide) (by decide) (by decide)
  have hlt : writeBlLen csd < 16 := field_lt _ _ _
  rw [BitVec.toNat_setWidth, hacross, Nat.mod_eq_of_lt (by omega)]

theorem toNat_cSizeMult : (((int (presented csd 9) &&& 0x03) <<< 1 |||
      (int (presented csd 10) >>> 7 &&& 0x01)).setWidth 8).toNat = cSizeMult csd := by
  have hacross : ((int (presented csd 9) &&& 0x03) <<< 1 |||
      (int (presented csd 10) >>> 7 &&& 0x01)).toNat = cSizeMult csd :=
    toNat_across csd 9 2 1 (by decide) (by decide) (by decide)
  have hlt : cSizeMult csd < 8 := field_lt _ _ _
  rw [BitVec.toNat_setWidth, hacross, Nat.mod_eq_of_lt (by omega)]

theorem toNat_cSize : ((int (presented csd 6) &&& 0x03) <<< 10 ||| int (presented csd 7) <<< 2 |||
      (int (presented csd 8) >>> 6 &&& 0x03)).toNat = cSize csd := by
  have h6 : (int (presented csd 6) &&& 0x03).toNat = field csd.toNat 72 2 :=
    toNat_mask csd 6 2 (by decide)
  have h8 : (int (presented csd 8) >>> 6 &&& 0x03).toNat = field csd.toNat 62 2 :=
    toNat_shift_mask csd 8 6 2 (by decide)
  have hlt6 : field csd.toNat 72 2 < 4 := field_lt _ _ _
  have hlt7 : field csd.toNat 64 8 < 256 := field_lt _ _ _
  have hlt8 : field csd.toNat 62 2 < 4 := field_lt _ _ _
  have hs6 : ((int (presented csd 6) &&& 0x03) <<< 10).toNat = field csd.toNat 72 2 * 2 ^ 10 := by
    rw [toNat_shiftLeft _ _ (by rw [h6]; omega), h6]
  have hs7 : (int (presented csd 7) <<< 2).toNat = field csd.toNat 64 8 * 2 ^ 2 :=
    toNat_presented_shift csd 7 2 (by decide)
  have hjoin : ((int (presented csd 6) &&& 0x03) <<< 10 ||| int (presented csd 7) <<< 2).toNat =
      field csd.toNat 64 (8 + 2) * 2 ^ 2 := by
    rw [toNat_or _ _ 10 _ hs6 (by rw [hs7]; omega), hs7, field_add, show 64 + 8 = 72 from rfl]
    omega
  rw [toNat_or _ _ 2 _ hjoin (by rw [h8]; omega), h8, cSize, field_add csd.toNat 62 2 10]

theorem capacityBlocks_lt : (cSize csd + 1) * 2 ^ (cSizeMult csd + 2) ≤ 2 ^ 21 := by
  have hsize : cSize csd < 2 ^ 12 := field_lt _ _ _
  have hmult : cSizeMult csd < 2 ^ 3 := field_lt _ _ _
  calc (cSize csd + 1) * 2 ^ (cSizeMult csd + 2) ≤ 2 ^ 12 * 2 ^ 9 :=
        Nat.mul_le_mul hsize (Nat.pow_le_pow_right (by decide) (by omega))
    _ = 2 ^ 21 := by norm_num

theorem toNat_capacityBlocks (old : Csd) : (sdParseCsdV1 (presented csd) old).capacityBlocks.toNat =
      (cSize csd + 1) * 2 ^ (cSizeMult csd + 2) := by
  have hblocks := capacityBlocks_lt csd
  have hsize : cSize csd < 2 ^ 12 := field_lt _ _ _
  have hplus : ∀ c : BitVec 16, c.toNat = cSize csd →
      (c.setWidth 32 + 1).toNat = cSize csd + 1 := by
    intro c hc
    have hone : (1 : BitVec 32).toNat = 1 := rfl
    rw [BitVec.toNat_add, toNat_widen _ (by decide), hc, hone, Nat.mod_eq_of_lt (by omega)]
  simp only [sdParseCsdV1, toNat_cSizeMult]
  have hsum := hplus _ (toNat_cSize csd)
  rw [toNat_shiftLeft, hsum]
  rw [hsum]
  omega

theorem toNat_maxReadBlLen (old : Csd) :
    (sdParseCsdV1 (presented csd) old).maxReadBlLen.toNat = 2 ^ readBlLen csd := by
  simp only [sdParseCsdV1, toNat_readBlLen]
  exact toNat_one_shiftLeft (field_lt _ _ _)

theorem toNat_maxWriteBlLen (old : Csd) :
    (sdParseCsdV1 (presented csd) old).maxWriteBlLen.toNat = 2 ^ writeBlLen csd := by
  simp only [sdParseCsdV1, toNat_writeBlLen]
  exact toNat_one_shiftLeft (field_lt _ _ _)

theorem toNat_capacityBytes (old : Csd) : (sdParseCsdV1 (presented csd) old).capacityBytes.toNat =
      (cSize csd + 1) * 2 ^ (cSizeMult csd + 2) * 2 ^ readBlLen csd % 2 ^ 32 := by
  have hbytes : (sdParseCsdV1 (presented csd) old).capacityBytes =
      (sdParseCsdV1 (presented csd) old).capacityBlocks *
        (sdParseCsdV1 (presented csd) old).maxReadBlLen.setWidth 32 := rfl
  rw [hbytes, BitVec.toNat_mul, toNat_widen _ (by decide), toNat_capacityBlocks, toNat_maxReadBlLen]

def Largest : Prop := cSize csd = 4095 ∧ cSizeMult csd = 7 ∧ readBlLen csd = 11

theorem capacity_lt_iff (hread : readBlLen csd ≤ 11) :
    (cSize csd + 1) * 2 ^ (cSizeMult csd + 2) * 2 ^ readBlLen csd < 2 ^ 32 ↔ ¬ Largest csd := by
  have hsize : cSize csd < 2 ^ 12 := field_lt _ _ _
  have hmult : cSizeMult csd < 2 ^ 3 := field_lt _ _ _
  unfold Largest
  generalize cSize csd = c at *
  generalize cSizeMult csd = m at *
  generalize readBlLen csd = r at *
  rw [Nat.mul_assoc, ← pow_add]
  by_cases htop : m + 2 + r = 20
  · rw [htop]
    omega
  · have hpow : 2 ^ (m + 2 + r) ≤ 2 ^ 19 := Nat.pow_le_pow_right (by decide) (by omega)
    have hle : (c + 1) * 2 ^ (m + 2 + r) ≤ 2 ^ 12 * 2 ^ 19 := Nat.mul_le_mul hsize hpow
    omega

end Csd

/-- **CSD DECODING** is exact, except for the capacity in bytes when all fields are at their
    largest. -/
theorem sdParseCsdV1_decoded_iff (csd : BitVec 128) (old : Csd)
    (hread : 9 ≤ readBlLen csd ∧ readBlLen csd ≤ 11) :
    Decoded csd (sdParseCsdV1 (presented csd) old) ↔ ¬ Largest csd := by
  rw [← capacity_lt_iff csd hread.2]
  constructor
  · intro h
    rw [← h.bytes]
    exact BitVec.isLt _
  · intro hlt
    refine ⟨toNat_maxReadBlLen csd old, fun _ _ => toNat_maxWriteBlLen csd old,
      toNat_capacityBlocks csd old, ?_⟩
    rw [toNat_capacityBytes, Nat.mod_eq_of_lt hlt]

def twoGiB : BitVec 128 := BitVec.ofNat 128 (10 * 2 ^ 80 + 4095 * 2 ^ 62 + 7 * 2 ^ 47 + 10 * 2 ^ 22)

/-- The 2 GiB card is decoded exactly. -/
theorem sdParseCsdV1_decoded_iff_twoGiB :
    (9 ≤ readBlLen twoGiB ∧ readBlLen twoGiB ≤ 11) ∧
      (Decoded twoGiB (sdParseCsdV1 (presented twoGiB) ⟨0, 0, 0, 0, 0⟩) ↔ ¬ Largest twoGiB) :=
  ⟨by decide, sdParseCsdV1_decoded_iff twoGiB ⟨0, 0, 0, 0, 0⟩ (by decide)⟩

def fourGiB : BitVec 128 :=
  BitVec.ofNat 128 (11 * 2 ^ 80 + 4095 * 2 ^ 62 + 7 * 2 ^ 47 + 11 * 2 ^ 22)

/-- The capacity of the 4 GiB card is decoded as 0 bytes. -/
theorem sdParseCsdV1_fourGiB :
    csdStructure fourGiB = 0 ∧ readBlLen fourGiB = 11 ∧
      (cSize fourGiB + 1) * 2 ^ (cSizeMult fourGiB + 2) * 2 ^ readBlLen fourGiB = 2 ^ 32 ∧
      (sdParseCsdV1 (presented fourGiB) ⟨0, 0, 0, 0, 0⟩).capacityBytes = 0 ∧
      ¬ Decoded fourGiB (sdParseCsdV1 (presented fourGiB) ⟨0, 0, 0, 0, 0⟩) := by
  have hexact : (cSize fourGiB + 1) * 2 ^ (cSizeMult fourGiB + 2) * 2 ^ readBlLen fourGiB =
      2 ^ 32 := by decide
  refine ⟨by decide, by decide, hexact, ?_, fun h => ?_⟩
  · apply BitVec.eq_of_toNat_eq
    rw [toNat_capacityBytes, hexact]
    rfl
  · have hlt := (sdParseCsdV1 (presented fourGiB) ⟨0, 0, 0, 0, 0⟩).capacityBytes.isLt
    rw [h.bytes, hexact] at hlt
    exact absurd hlt (lt_irrefl _)

/-- **CID DECODING**: the serial number is the field `PSN`, bits 55:24, and the
    date is taken from bits 23:12. -/
theorem sdParseCid_fields (cid : BitVec 128) :
    (sdParseCid (presented cid)).serialNumber.toNat = field cid.toNat 24 32 ∧
      (sdParseCid (presented cid)).manufacturingDate.toNat = field cid.toNat 12 12 := by
  have hlt : ∀ lo, field cid.toNat lo 8 < 256 := fun lo => field_lt _ _ _
  constructor
  · -- one byte after the other, from the top
    have h9 : ((presented cid 9).setWidth 32 <<< 24).toNat = field cid.toNat 48 8 * 2 ^ 24 :=
      toNat_presented_shift cid 9 24 (by decide)
    have h10 : ((presented cid 10).setWidth 32 <<< 16).toNat = field cid.toNat 40 8 * 2 ^ 16 :=
      toNat_presented_shift cid 10 16 (by decide)
    have h11 : ((presented cid 11).setWidth 32 <<< 8).toNat = field cid.toNat 32 8 * 2 ^ 8 :=
      toNat_presented_shift cid 11 8 (by decide)
    have h12 : ((presented cid 12).setWidth 32).toNat = field cid.toNat 24 8 := by
      rw [toNat_widen _ (by decide), toNat_presented]
    have hjoin2 : ((presented cid 9).setWidth 32 <<< 24 |||
        (presented cid 10).setWidth 32 <<< 16).toNat = field cid.toNat 40 16 * 2 ^ 16 := by
      rw [toNat_or _ _ 24 _ h9 (by rw [h10]; have := hlt 40; omega), h10,
        show field cid.toNat 40 16 = field cid.toNat 48 8 * 2 ^ 8 + field cid.toNat 40 8 from
          field_add cid.toNat 40 8 8]
      omega
    have hjoin3 : ((presented cid 9).setWidth 32 <<< 24 |||
        (presented cid 10).setWidth 32 <<< 16 ||| (presented cid 11).setWidth 32 <<< 8).toNat =
        field cid.toNat 32 24 * 2 ^ 8 := by
      rw [toNat_or _ _ 16 _ hjoin2 (by rw [h11]; have := hlt 32; omega), h11,
        show field cid.toNat 32 24 = field cid.toNat 40 16 * 2 ^ 8 + field cid.toNat 32 8 from
          field_add cid.toNat 32 8 16]
      omega
    rw [sdParseCid, toNat_or _ _ 8 _ hjoin3 (by rw [h12]; exact hlt _), h12,
      field_add cid.toNat 24 8 24]
  · have h13 : (int (presented cid 13) <<< 4).toNat = field cid.toNat 16 8 * 2 ^ 4 :=
      toNat_presented_shift cid 13 4 (by decide)
    have h14 : (int (presented cid 14) >>> 4 &&& 0x0F).toNat = field cid.toNat 12 4 :=
      toNat_shift_mask cid 14 4 4 (by decide)
    rw [sdParseCid, toNat_or _ _ 4 _ h13 (by rw [h14]; exact field_lt _ _ _), h14,
      field_add cid.toNat 12 4 8]

end AvrtosSdRegisters
