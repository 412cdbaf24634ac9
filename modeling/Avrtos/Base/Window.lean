import Mathlib

/-! # Windows of a circular buffer

    Putting a value behind a window and taking its first one are its two moves. -/

namespace Window

open List

variable {β : Type} {slot : Nat → β} {n r k : Nat}

def window (slot : Nat → β) (n r k : Nat) : List β :=
  (range k).map fun i => slot ((r + i) % n)

def advance (n i : Nat) : Nat := if i + 1 = n then 0 else i + 1

@[simp] theorem window_zero : window slot n r 0 = [] := rfl

@[simp] theorem length_window : (window slot n r k).length = k := by
  simp [window]

theorem advance_eq_mod (hr : r < n) : advance n r = (r + 1) % n := by
  unfold advance
  by_cases h : r + 1 = n
  · rw [if_pos h, h, Nat.mod_self]
  · rw [if_neg h, Nat.mod_eq_of_lt (by omega)]

theorem advance_lt (hr : r < n) : advance n r < n := by
  unfold advance
  by_cases h : r + 1 = n
  · rw [if_pos h]
    omega
  · rw [if_neg h]
    omega

theorem mod_advance (hr : r < n) : (advance n r + k) % n = (r + (k + 1)) % n := by
  rw [advance_eq_mod hr, Nat.mod_add_mod]
  congr 1
  omega

theorem window_succ (hr : r < n) :
    window slot n r (k + 1) = slot r :: window slot n (advance n r) k := by
  rw [window, range_succ_eq_map, map_cons, map_map, Nat.add_zero,
    Nat.mod_eq_of_lt hr]
  congr 1
  refine map_congr_left ?_
  intro i _
  show slot ((r + (i + 1)) % n) = slot ((advance n r + i) % n)
  rw [mod_advance hr]

theorem window_snoc : window slot n r (k + 1) = window slot n r k ++ [slot ((r + k) % n)] := by
  simp [window, range_succ]

theorem mod_ne_of_lt {i : Nat} (hi : i < k) (hk : k < n) : (r + i) % n ≠ (r + k) % n := by
  intro h
  have h1 : Nat.ModEq n i k := Nat.ModEq.add_left_cancel' r h
  have h2 : i % n = k % n := h1
  rw [Nat.mod_eq_of_lt (by omega), Nat.mod_eq_of_lt hk] at h2
  omega

theorem window_congr {slot' : Nat → β} (h : ∀ i < k, slot' ((r + i) % n) = slot ((r + i) % n)) :
    window slot' n r k = window slot n r k := by
  refine map_congr_left ?_
  intro i hi
  exact h i (mem_range.mp hi)

/-- **PUT**. -/
theorem window_update (hk : k < n) (v : β) :
    window (Function.update slot ((r + k) % n) v) n r (k + 1) = window slot n r k ++ [v] := by
  rw [window_snoc, Function.update_self, window_congr]
  intro i hi
  exact Function.update_of_ne (mod_ne_of_lt hi hk) v slot

end Window
