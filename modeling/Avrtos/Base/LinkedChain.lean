import Mathlib

/-! # Chains: null-terminated singly linked lists

    A chain follows `next` until it is null; its nodes are all different. -/

namespace LinkedChain

open Function List

variable {α : Type}

def Chain (next : α → Option α) : Option α → List α → Prop
  | start, [] => start = none
  | start, a :: l => start = some a ∧ Chain next (next a) l

variable {next next' : α → Option α} {start : Option α} {a : α} {l u v : List α}

theorem Chain.exists_cons (h : Chain next (some a) l) :
    ∃ v, l = a :: v ∧ Chain next (next a) v := by
  cases l with
  | nil => exact nomatch h
  | cons b v =>
    obtain ⟨hb, hv⟩ := h
    injection hb with hb
    subst hb
    exact ⟨v, rfl, hv⟩

theorem Chain.congr (h : Chain next start l) (hn : ∀ y ∈ l, next' y = next y) :
    Chain next' start l := by
  induction l generalizing start with
  | nil => exact h
  | cons a l ih =>
    refine ⟨h.1, ?_⟩
    rw [hn a mem_cons_self]
    exact ih h.2 (fun y hy => hn y (mem_cons_of_mem a hy))

theorem Chain.unique (hu : Chain next start u) (hv : Chain next start v) : u = v := by
  induction u generalizing start v with
  | nil =>
    cases v with
    | nil => rfl
    | cons b v =>
      have h1 : (none : Option α) = some b := (show start = none from hu) ▸ hv.1
      exact nomatch h1
  | cons a u ih =>
    cases v with
    | nil =>
      have h1 : (none : Option α) = some a := (show start = none from hv) ▸ hu.1
      exact nomatch h1
    | cons b v =>
      have hab : a = b := Option.some.inj (hu.1.symm.trans hv.1)
      subst hab
      rw [ih hu.2 hv.2]

theorem Chain.suffix (h : Chain next start (u ++ a :: v)) : Chain next (some a) (a :: v) := by
  induction u generalizing start with
  | nil => exact ⟨rfl, h.2⟩
  | cons b u ih => exact ih h.2

theorem Chain.nodup (h : Chain next start l) : l.Nodup := by
  induction l generalizing start with
  | nil => exact nodup_nil
  | cons a l ih =>
    refine nodup_cons.mpr ⟨?_, ih h.2⟩
    intro ha
    obtain ⟨u, v, huv⟩ := append_of_mem ha
    -- the chain from the second `a` would be both long and short
    have h1 : Chain next (some a) (a :: v) := by
      have h2 := h.2
      rw [huv] at h2
      exact h2.suffix
    have h3 : Chain next (some a) (a :: l) := ⟨rfl, h.2⟩
    have hlen := congrArg List.length (h1.unique h3)
    rw [huv] at hlen
    simp only [length_cons, length_append] at hlen
    omega

theorem Chain.append [DecidableEq α] {x node : α} (h : Chain next start (l ++ [x]))
    (hn : node ∉ l ++ [x]) :
    Chain (update (update next node none) x (some node)) start
      (l ++ [x] ++ [node]) := by
  induction l generalizing start with
  | nil =>
    have hx : node ≠ x := fun hc => hn (hc ▸ mem_singleton_self x)
    refine ⟨h.1, ?_, ?_⟩
    · rw [update_self]
    · rw [update_of_ne hx, update_self]
      rfl
  | cons a l ih =>
    have hnd := Chain.nodup h
    have hax : a ≠ x := by
      rintro rfl
      exact (nodup_cons.mp hnd).1 (by simp)
    have han : a ≠ node := by
      rintro rfl
      exact hn (by simp)
    refine ⟨h.1, ?_⟩
    rw [update_of_ne hax, update_of_ne han]
    exact ih h.2 fun hc => hn (mem_cons_of_mem a hc)

theorem Chain.next_eq_none {x : α} (h : Chain next start l) (hx : x ∈ l) :
    next x = none ↔ l.getLast? = some x := by
  induction l generalizing start with
  | nil => exact nomatch hx
  | cons a l ih =>
    cases l with
    | nil =>
      rw [mem_singleton.mp hx]
      exact ⟨fun _ => rfl, fun _ => h.2⟩
    | cons b l =>
      rw [List.getLast?_cons_cons]
      rcases mem_cons.mp hx with rfl | hx
      · have hb : next x = some b := h.2.1
        rw [hb]
        refine ⟨fun hc => (nomatch hc), fun hc => ?_⟩
        exact absurd (mem_of_getLast? hc) (nodup_cons.mp (Chain.nodup h)).1
      · exact ih h.2 hx

theorem exists_fuel {β : Type} {e : β} {l : List β} {fuel : Nat}
    (h : (e :: l).length ≤ fuel) : ∃ k, fuel = k + 1 ∧ l.length ≤ k := by
  obtain ⟨k, hk⟩ := Nat.exists_eq_add_of_le h
  refine ⟨l.length + k, ?_, Nat.le_add_right _ _⟩
  rw [hk, length_cons]
  omega

end LinkedChain
