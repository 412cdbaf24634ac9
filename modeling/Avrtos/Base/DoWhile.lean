import Mathlib

/-! # Loops that test after their body

    A loop ENDS in a state when enough rounds lead there; an invariant is carried round by round. -/

namespace DoWhile

variable {σ : Type}

def loop (body : σ → Option σ) (again : σ → Bool) : Nat → σ → Option σ
  | 0, _ => none
  | n + 1, s => (body s).bind fun m => if again m then loop body again n m else some m

def Ends (body : σ → Option σ) (again : σ → Bool) (s t : σ) : Prop :=
  ∃ n, loop body again n s = some t

variable {body : σ → Option σ} {again : σ → Bool} {I Q : σ → Prop} {s m t : σ}

theorem ends_iff_of_again (hbody : body s = some m) (hagain : again m = true) :
    Ends body again s t ↔ Ends body again m t := by
  constructor
  · rintro ⟨n, hn⟩
    cases n with
    | zero => exact absurd hn.symm (Option.some_ne_none t)
    | succ n => exact ⟨n, by simpa [loop, hbody, hagain] using hn⟩
  · rintro ⟨n, hn⟩
    exact ⟨n + 1, by simpa [loop, hbody, hagain] using hn⟩

theorem ends_iff_of_done (hbody : body s = some m) (hdone : again m = false) :
    Ends body again s t ↔ t = m := by
  constructor
  · rintro ⟨n, hn⟩
    cases n with
    | zero => exact absurd hn.symm (Option.some_ne_none t)
    | succ n =>
      have hm : m = t := by simpa [loop, hbody, hdone] using hn
      exact hm.symm
  · intro ht
    exact ⟨1, by simp [loop, hbody, hdone, ht]⟩

theorem Ends.induct (h : Ends body again s t) (hI : I s)
    (hagain : ∀ s m, I s → body s = some m → again m = true → I m)
    (hdone : ∀ s m, I s → body s = some m → again m = false → Q m) : Q t := by
  obtain ⟨n, hn⟩ := h
  induction n generalizing s with
  | zero => exact absurd hn.symm (Option.some_ne_none t)
  | succ n ih =>
    obtain ⟨m, hbody, hrest⟩ := Option.bind_eq_some_iff.mp hn
    by_cases hm : again m = true
    · rw [if_pos hm] at hrest
      exact ih (hagain s m hI hbody hm) hrest
    · rw [if_neg hm] at hrest
      rw [← Option.some.inj hrest]
      exact hdone s m hI hbody (Bool.eq_false_iff.mpr hm)

theorem Ends.unique {t' : σ} (h : Ends body again s t) (h' : Ends body again s t') : t' = t :=
  h.induct (I := fun s => Ends body again s t') (Q := fun t => t' = t) h'
    (fun _ _ hs hbody hagain => (ends_iff_of_again hbody hagain).mp hs)
    (fun _ _ hs hbody hdone => (ends_iff_of_done hbody hdone).mp hs)

/-- **NO END**. -/
theorem not_ends (hI : I s) (hstep : ∀ s, I s → ∃ m, body s = some m ∧ again m = true ∧ I m) :
    ¬ Ends body again s t := by
  intro h
  refine h.induct (Q := fun _ => False) hI (fun s m hs hbody _ => ?_) (fun s m hs hbody hdone => ?_)
  · obtain ⟨m', hbody', -, hm'⟩ := hstep s hs
    rw [Option.some.inj (hbody.symm.trans hbody')]
    exact hm'
  · obtain ⟨m', hbody', hagain, -⟩ := hstep s hs
    rw [Option.some.inj (hbody.symm.trans hbody'), hagain] at hdone
    exact Bool.noConfusion hdone

theorem exists_ends_of_count {J : Nat → σ → Prop} {k n : Nat} (hJ : J k s) (hk : k < n)
    (hstep : ∀ k s, k < n → J k s →
      ∃ m, body s = some m ∧ J (k + 1) m ∧ (again m = true ↔ k + 1 < n)) :
    ∃ t, Ends body again s t ∧ J n t := by
  obtain ⟨d, rfl⟩ := Nat.exists_eq_add_of_lt hk
  -- `d` rounds are left after this one
  induction d generalizing k s with
  | zero =>
    obtain ⟨m, hbody, hm, hagain⟩ := hstep k s hk hJ
    have hdone : again m = false := Bool.eq_false_iff.mpr fun h => Nat.lt_irrefl _ (hagain.mp h)
    exact ⟨m, (ends_iff_of_done hbody hdone).mpr rfl, hm⟩
  | succ d ih =>
    obtain ⟨m, hbody, hm, hagain⟩ := hstep k s hk hJ
    have hlast : k + 1 < k + (d + 1) + 1 := by omega
    have hn : k + (d + 1) + 1 = k + 1 + d + 1 := by omega
    rw [hn] at hstep hlast hagain ⊢
    obtain ⟨t, hends, ht⟩ := ih hm hlast hstep
    exact ⟨t, (ends_iff_of_again hbody (hagain.mpr hlast)).mpr hends, ht⟩

def EndsWhile (body : σ → Option σ) (test : σ → Bool) (s t : σ) : Prop :=
  if test s then Ends body test s t else t = s

end DoWhile
