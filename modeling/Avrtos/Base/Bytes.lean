import Mathlib

/-! # Byte memory

    `bytes mem a n` is a region, `memcpy` copies one over another. -/

namespace Bytes

open Function List

variable {β : Type} {mem : Nat → β} {a b m n : Nat}

/-- The `n` bytes from `a` on. -/
def bytes (mem : Nat → β) (a n : Nat) : List β := (range n).map fun i => mem (a + i)

def memcpy (mem : Nat → β) (dst src n : Nat) : Nat → β := fun x =>
  if dst ≤ x ∧ x < dst + n then mem (src + (x - dst)) else mem x

def Apart (a n b m : Nat) : Prop := a + n ≤ b ∨ b + m ≤ a
deriving Decidable

theorem Apart.symm (h : Apart a n b m) : Apart b m a n := Or.symm h

theorem bytes_congr {mem' : Nat → β} (h : ∀ i < n, mem' (a + i) = mem (a + i)) :
    bytes mem' a n = bytes mem a n := by
  refine map_congr_left ?_
  intro i hi
  exact h i (mem_range.mp hi)

theorem bytes_memcpy_self (mem : Nat → β) (dst src n : Nat) :
    bytes (memcpy mem dst src n) dst n = bytes mem src n := by
  refine map_congr_left ?_
  intro i hi
  rw [mem_range] at hi
  rw [memcpy, if_pos ⟨Nat.le_add_right dst i, by omega⟩, Nat.add_sub_cancel_left]

theorem bytes_memcpy_of_apart {dst src : Nat} (h : Apart dst n a m) :
    bytes (memcpy mem dst src n) a m = bytes mem a m := by
  refine bytes_congr ?_
  intro i hi
  refine if_neg ?_
  rintro ⟨h1, h2⟩
  rcases h with h | h <;> omega

theorem bytes_update_of_apart {v : β} (h : Apart b 1 a n) :
    bytes (update mem b v) a n = bytes mem a n := by
  refine bytes_congr ?_
  intro i hi
  refine update_of_ne ?_ v mem
  rcases h with h | h <;> omega

def slot (mem : Nat → β) (base size i : Nat) : List β := bytes mem (base + size * i) size

theorem apart_slots {base size i j : Nat} (h : i ≠ j) :
    Apart (base + size * i) size (base + size * j) size := by
  rcases Nat.lt_or_gt_of_ne h with hlt | hlt
  · have hmul := Nat.mul_le_mul_left size (Nat.succ_le_of_lt hlt)
    rw [Nat.mul_succ] at hmul
    left
    omega
  · have hmul := Nat.mul_le_mul_left size (Nat.succ_le_of_lt hlt)
    rw [Nat.mul_succ] at hmul
    right
    omega

theorem Apart.slot {base size count i : Nat} (h : Apart a n base (size * count))
    (hi : i < count) : Apart a n (base + size * i) size := by
  have hmul := Nat.mul_le_mul_left size (Nat.succ_le_of_lt hi)
  rw [Nat.mul_succ] at hmul
  rcases h with h | h
  · left
    omega
  · right
    omega

theorem slot_memcpy (mem : Nat → β) (base size src i : Nat) :
    slot (memcpy mem (base + size * i) src size) base size
      = update (slot mem base size) i (bytes mem src size) := by
  funext j
  by_cases hj : j = i
  · subst hj
    rw [update_self]
    exact bytes_memcpy_self ..
  · rw [update_of_ne hj]
    exact bytes_memcpy_of_apart (apart_slots fun hc => hj hc.symm)

theorem slot_memcpy_of_apart {base size count dst src i : Nat}
    (h : Apart dst n base (size * count)) (hi : i < count) :
    slot (memcpy mem dst src n) base size i = slot mem base size i :=
  bytes_memcpy_of_apart (h.slot hi)

section Pointers

variable {ram ram' : Nat → UInt8} {p : Nat} {v : Option Nat}

/-- The pointer at address `p`. -/
def loadPtr (ram : Nat → UInt8) (p : Nat) : Option Nat :=
  let v := (ram p).toNat + 256 * (ram (p + 1)).toNat
  if v = 0 then none else some v

def storePtr (ram : Nat → UInt8) (p : Nat) (v : Option Nat) : Nat → UInt8 :=
  update (update ram p (UInt8.ofNat (v.getD 0))) (p + 1)
    (UInt8.ofNat (v.getD 0 / 256))

theorem loadPtr_congr (h : ∀ x, p ≤ x → x < p + 2 → ram' x = ram x) :
    loadPtr ram' p = loadPtr ram p := by
  rw [loadPtr, h p (Nat.le_refl p) (by omega), h (p + 1) (by omega) (by omega)]
  rfl

theorem storePtr_of_ne {x : Nat} (h : x < p ∨ p + 2 ≤ x) : storePtr ram p v x = ram x := by
  rw [storePtr, update_of_ne (by omega), update_of_ne (by omega)]

theorem loadPtr_storePtr_self (h : ∀ a, v = some a → 0 < a ∧ a < 2 ^ 16) :
    loadPtr (storePtr ram p v) p = v := by
  have hlo : storePtr ram p v p = UInt8.ofNat (v.getD 0) := by
    rw [storePtr, update_of_ne (by omega), update_self]
  have hhi : storePtr ram p v (p + 1) = UInt8.ofNat (v.getD 0 / 256) := by
    rw [storePtr, update_self]
  rw [loadPtr, hlo, hhi]
  cases v with
  | none => rfl
  | some a =>
    obtain ⟨hpos, hlt⟩ := h a rfl
    have hval : (UInt8.ofNat a).toNat + 256 * (UInt8.ofNat (a / 256)).toNat = a := by
      rw [UInt8.toNat_ofNat', UInt8.toNat_ofNat']
      omega
    simp only [Option.getD_some, hval]
    exact if_neg (Nat.ne_of_gt hpos)

end Pointers

end Bytes
