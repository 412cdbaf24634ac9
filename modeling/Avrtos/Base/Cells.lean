import Mathlib

/-! # Cells in a memory

    Cells of two types may share an address; the laws say what a write through one leaves to the
    other. -/

namespace Cells

class CellStore (σ α β : Type) where
  load : σ → α → β
  store : σ → α → β → σ
  load_store_self : ∀ (m : σ) (a : α) (b : β), load (store m a b) a = b
  load_store_of_ne : ∀ (m : σ) (a : α) (b : β) (x : α), x ≠ a →
    load (store m a b) x = load m x

instance functionStore {α β : Type} [DecidableEq α] :
    CellStore (α → β) α β where
  load := fun m a => m a
  store := fun m a b x => if x = a then b else m x
  load_store_self := fun _ _ _ => if_pos rfl
  load_store_of_ne := fun _ _ _ _ hx => if_neg hx

class Overlay (σ α β γ : Type) [CellStore σ α β] [CellStore σ α γ] : Prop where
  load_store_of_ne : ∀ (m : σ) (a : α) (b : β) (x : α), x ≠ a →
    (CellStore.load (CellStore.store m a b : σ) x : γ) = CellStore.load m x

instance overlaySelf {σ α β : Type} [CellStore σ α β] : Overlay σ α β β where
  load_store_of_ne := CellStore.load_store_of_ne

inductive Writes {σ α : Type} (β : Type) [CellStore σ α β] (S : α → Prop) :
    σ → σ → Prop
  | refl (m : σ) : Writes β S m m
  | store {m m' : σ} (a : α) (b : β) : S a →
      Writes β S (CellStore.store m a b) m' → Writes β S m m'

section Writes

variable {σ α β γ : Type} [CellStore σ α β] [CellStore σ α γ]
variable {S S' : α → Prop} {m m' m'' : σ}

theorem Writes.single {a : α} {b : β} (h : S a) : Writes β S m (CellStore.store m a b) :=
  Writes.store a b h (Writes.refl _)

theorem Writes.trans (h : Writes β S m m') (h' : Writes β S m' m'') : Writes β S m m'' := by
  induction h with
  | refl m => exact h'
  | store a b ha _ ih => exact Writes.store a b ha (ih h')

theorem Writes.mono (h : Writes β S m m') (hS : ∀ a, S a → S' a) : Writes β S' m m' := by
  induction h with
  | refl m => exact Writes.refl m
  | store a b ha _ ih => exact Writes.store a b (hS a ha) ih

theorem Writes.load_eq [Overlay σ α β γ] (h : Writes β S m m') {x : α}
    (hx : ¬ S x) : (CellStore.load m' x : γ) = CellStore.load m x := by
  induction h with
  | refl m => rfl
  | store a b ha _ ih =>
    have hxa : x ≠ a := by
      rintro rfl
      exact hx ha
    rw [ih, Overlay.load_store_of_ne _ _ _ _ hxa]

end Writes

end Cells
