import Mathlib

/-! # Runs of a system

    What holds initially and is kept by every allowed operation holds in every run. -/

namespace Runs

open List

variable {σ ο : Type} {init : σ → Prop} {ok ok' : σ → ο → Prop} {run : σ → ο → σ}
variable {P : σ → Prop} {s : σ}

/-- The states that runs reach. -/
inductive Reach (init : σ → Prop) (ok : σ → ο → Prop) (run : σ → ο → σ) : σ → Prop
  | start {s : σ} : init s → Reach init ok run s
  | step {s : σ} (op : ο) : Reach init ok run s → ok s op → Reach init ok run (run s op)

/-- **INVARIANTS**. -/
theorem Reach.invariant (h : Reach init ok run s) (h0 : ∀ s, init s → P s)
    (hstep : ∀ s op, P s → ok s op → P (run s op)) : P s := by
  induction h with
  | start hi => exact h0 _ hi
  | step op _ hok ih => exact hstep _ op ih hok

theorem Reach.mono (h : Reach init ok run s) (hok : ∀ s op, ok s op → ok' s op) :
    Reach init ok' run s := by
  induction h with
  | start hi => exact .start hi
  | step op _ ho ih => exact ih.step op (hok _ op ho)

theorem Reach.trans {s₁ s₂ : σ} (h₁ : Reach (· = s) ok run s₁) (h₂ : Reach (· = s₁) ok run s₂) :
    Reach (· = s) ok run s₂ := by
  induction h₂ with
  | start heq =>
    rw [heq]
    exact h₁
  | step op _ hok ih => exact ih.step op hok

def Allowed (ok : σ → ο → Prop) (run : σ → ο → σ) : σ → List ο → Prop
  | _, [] => True
  | s, op :: ops => ok s op ∧ Allowed ok run (run s op) ops

instance Allowed.decidable [h : ∀ s op, Decidable (ok s op)] :
    (s : σ) → (ops : List ο) → Decidable (Allowed ok run s ops)
  | _, [] => isTrue trivial
  | s, op :: ops =>
      haveI := Allowed.decidable (h := h) (run s op) ops
      inferInstanceAs (Decidable (_ ∧ _))

/-- Carrying out a list of operations. -/
theorem Reach.foldl {ops : List ο} (h : Reach init ok run s)
    (ha : Allowed ok run s ops) : Reach init ok run (ops.foldl run s) := by
  induction ops generalizing s with
  | nil => exact h
  | cons op ops ih => exact ih (h.step op ha.1) ha.2

/-- A condition that every operation meets. -/
theorem allowed_of_forall (h : ∀ s op, ok s op) (ops : List ο) (s : σ) : Allowed ok run s ops := by
  induction ops generalizing s with
  | nil => trivial
  | cons op ops ih => exact ⟨h s op, ih _⟩

theorem allowed_congr {I : σ → Prop} {ops : List ο} (hiff : ∀ s op, I s → (ok s op ↔ ok' s op))
    (hstep : ∀ s op, I s → ok s op → I (run s op)) (hs : I s) :
    Allowed ok run s ops ↔ Allowed ok' run s ops := by
  induction ops generalizing s with
  | nil => exact Iff.rfl
  | cons op ops ih =>
    constructor
    · rintro ⟨hok, hrest⟩
      exact ⟨(hiff s op hs).mp hok, (ih (hstep s op hs hok)).mp hrest⟩
    · rintro ⟨hok', hrest⟩
      have hok := (hiff s op hs).mpr hok'
      exact ⟨hok, (ih (hstep s op hs hok)).mpr hrest⟩

/-- **NO INTERFERENCE**. -/
theorem foldl_filter {ν : Type} {f : σ → ν} {mine : ο → Bool} {ops : List ο}
    (hother : ∀ s, ∀ op ∈ ops, mine op = false → f (run s op) = f s)
    (hmine : ∀ s s', ∀ op ∈ ops, mine op = true → f s = f s' → f (run s op) = f (run s' op))
    (s s' : σ) (hf : f s = f s') :
    f (ops.foldl run s) = f ((ops.filter mine).foldl run s') := by
  induction ops generalizing s s' with
  | nil => exact hf
  | cons op ops ih =>
    have hrest := ih (fun s op hop => hother s op (mem_cons_of_mem _ hop))
      (fun s s' op hop => hmine s s' op (mem_cons_of_mem _ hop))
    by_cases hop : mine op = true
    · rw [filter_cons_of_pos hop]
      exact hrest _ _ (hmine s s' op mem_cons_self hop hf)
    · rw [filter_cons_of_neg hop]
      exact hrest _ _ ((hother s op mem_cons_self (Bool.eq_false_iff.mpr hop)).trans hf)

instance neZeroTwo : NeZero 2 := ⟨two_ne_zero⟩

instance neZeroFour : NeZero 4 := ⟨four_ne_zero⟩

end Runs
