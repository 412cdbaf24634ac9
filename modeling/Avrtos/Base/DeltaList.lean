import Mathlib

/-! # Delta lists: deadlines stored as differences

    `deadlines` adds the differences up; the mutations are then insertion, removal and passing
    time. -/

namespace DeltaList

open List

variable {α : Type}

def deadlinesFrom (base : Nat) : List (α × Nat) → List (α × Nat)
  | [] => []
  | (a, d) :: l => (a, base + d) :: deadlinesFrom (base + d) l

/-- The deadlines of a delta list. -/
def deadlines (l : List (α × Nat)) : List (α × Nat) := deadlinesFrom 0 l

def span (l : List (α × Nat)) : Nat := (l.map Prod.snd).sum

def insertDelta (x : α) : Nat → List (α × Nat) → List (α × Nat)
  | t, [] => [(x, t)]
  | t, (a, d) :: l =>
      if d ≤ t then (a, d) :: insertDelta x (t - d) l
      else (x, t) :: (a, d - t) :: l

/-- Let `s` units of time pass. -/
def shiftDelta : Nat → List (α × Nat) → List (α × Nat)
  | _, [] => []
  | s, (a, d) :: l =>
      if d ≤ s then (a, 0) :: shiftDelta (s - d) l else (a, d - s) :: l

def prependDelay (d : Nat) : List (α × Nat) → List (α × Nat)
  | [] => []
  | (b, e) :: l => (b, e + d) :: l

/-- Remove `x`. -/
def removeDelta [DecidableEq α] (x : α) : List (α × Nat) → List (α × Nat)
  | [] => []
  | (a, d) :: l =>
      if a = x then prependDelay d l else (a, d) :: removeDelta x l

section Members

variable (x : α) (l : List (α × Nat))

theorem map_fst_deadlinesFrom (base : Nat) :
    (deadlinesFrom base l).map Prod.fst = l.map Prod.fst := by
  induction l generalizing base with
  | nil => rfl
  | cons hd l ih =>
    obtain ⟨a, d⟩ := hd
    rw [deadlinesFrom, map_cons, map_cons, ih]

@[simp] theorem map_fst_deadlines : (deadlines l).map Prod.fst = l.map Prod.fst :=
  map_fst_deadlinesFrom l 0

theorem map_fst_shiftDelta (s : Nat) : (shiftDelta s l).map Prod.fst = l.map Prod.fst := by
  induction l generalizing s with
  | nil => rfl
  | cons hd l ih =>
    obtain ⟨a, d⟩ := hd
    rw [shiftDelta]
    by_cases h : d ≤ s
    · rw [if_pos h, map_cons, map_cons, ih]
    · rw [if_neg h, map_cons, map_cons]

@[simp] theorem map_fst_prependDelay (d : Nat) :
    (prependDelay d l).map Prod.fst = l.map Prod.fst := by
  cases l with
  | nil => rfl
  | cons hd l => rfl

theorem insertDelta_perm (t : Nat) :
    ((insertDelta x t l).map Prod.fst).Perm (x :: l.map Prod.fst) := by
  induction l generalizing t with
  | nil => exact List.Perm.refl _
  | cons hd l ih =>
    obtain ⟨a, d⟩ := hd
    rw [insertDelta]
    by_cases h : d ≤ t
    · rw [if_pos h, map_cons]
      exact (List.Perm.cons a (ih (t - d))).trans (List.Perm.swap x a _)
    · rw [if_neg h]
      exact List.Perm.refl _

theorem mem_insertDelta {x y : α} {l : List (α × Nat)} {t : Nat} :
    y ∈ (insertDelta x t l).map Prod.fst ↔ y = x ∨ y ∈ l.map Prod.fst :=
  (insertDelta_perm x l t).mem_iff.trans mem_cons

theorem map_fst_removeDelta [DecidableEq α] :
    (removeDelta x l).map Prod.fst = (l.map Prod.fst).erase x := by
  induction l with
  | nil => rfl
  | cons hd l ih =>
    obtain ⟨a, d⟩ := hd
    rw [removeDelta, map_cons]
    by_cases h : a = x
    · rw [if_pos h, map_fst_prependDelay, h, erase_cons_head]
    · rw [if_neg h, map_cons, ih, erase_cons_tail (by simpa using h)]

end Members

section Deadlines

variable {l : List (α × Nat)} {e : α × Nat} {base : Nat}

theorem le_of_mem_deadlinesFrom (h : e ∈ deadlinesFrom base l) : base ≤ e.2 := by
  induction l generalizing base with
  | nil => exact nomatch h
  | cons hd l ih =>
    obtain ⟨a, d⟩ := hd
    rcases mem_cons.mp h with heq | hmem
    · rw [heq]
      exact Nat.le_add_right base d
    · exact Nat.le_trans (Nat.le_add_right base d) (ih hmem)

theorem deadlinesFrom_insertDelta (x : α) (base t : Nat) :
    ∃ pre post, deadlinesFrom base l = pre ++ post
      ∧ deadlinesFrom base (insertDelta x t l) = pre ++ (x, base + t) :: post
      ∧ (∀ e ∈ pre, e.2 ≤ base + t) ∧ (∀ e ∈ post, base + t < e.2) := by
  induction l generalizing base t with
  | nil =>
    refine ⟨[], [], rfl, rfl, ?_, ?_⟩
    · intro e he
      exact nomatch he
    · intro e he
      exact nomatch he
  | cons hd l ih =>
    obtain ⟨a, d⟩ := hd
    rw [insertDelta]
    by_cases h : d ≤ t
    · rw [if_pos h]
      obtain ⟨pre, post, hl, hi, hpre, hpost⟩ := ih (base + d) (t - d)
      have ht : base + d + (t - d) = base + t := by omega
      rw [ht] at hi hpre hpost
      refine ⟨(a, base + d) :: pre, post, ?_, ?_, ?_, hpost⟩
      · rw [deadlinesFrom, hl, cons_append]
      · rw [deadlinesFrom, hi, cons_append]
      · intro e he
        rcases mem_cons.mp he with heq | hmem
        · rw [heq]
          exact Nat.add_le_add_left h base
        · exact hpre e hmem
    · rw [if_neg h]
      have hd' : base + t + (d - t) = base + d := by omega
      refine ⟨[], deadlinesFrom base ((a, d) :: l), rfl, ?_, ?_, ?_⟩
      · show (x, base + t) :: (a, base + t + (d - t)) :: deadlinesFrom (base + t + (d - t)) l = _
        rw [hd']
        rfl
      · intro e he
        exact nomatch he
      · intro e he
        rcases mem_cons.mp he with heq | hmem
        · rw [heq]
          show base + t < base + d
          omega
        · have := le_of_mem_deadlinesFrom hmem
          omega

theorem deadlines_insertDelta (x : α) (t : Nat) : ∃ pre post, deadlines l = pre ++ post
      ∧ deadlines (insertDelta x t l) = pre ++ (x, t) :: post
      ∧ (∀ e ∈ pre, e.2 ≤ t) ∧ (∀ e ∈ post, t < e.2) := by
  have h := deadlinesFrom_insertDelta (l := l) x 0 t
  rw [Nat.zero_add] at h
  exact h

theorem deadlinesFrom_add (base k : Nat) (l : List (α × Nat)) : deadlinesFrom (base + k) l
      = (deadlinesFrom base l).map fun e => (e.1, e.2 + k) := by
  induction l generalizing base with
  | nil => rfl
  | cons hd l ih =>
    obtain ⟨a, d⟩ := hd
    rw [deadlinesFrom, deadlinesFrom, map_cons, ← ih, Nat.add_right_comm base k d]

theorem deadlines_shiftDelta (s : Nat) (l : List (α × Nat)) :
    deadlines (shiftDelta s l) = (deadlines l).map fun e => (e.1, e.2 - s) := by
  unfold deadlines
  induction l generalizing s with
  | nil => rfl
  | cons hd l ih =>
    obtain ⟨a, d⟩ := hd
    rw [shiftDelta, deadlinesFrom, map_cons, deadlinesFrom_add 0 d l, map_map]
    by_cases h : d ≤ s
    · rw [if_pos h]
      show (a, 0 + 0) :: deadlinesFrom 0 (shiftDelta (s - d) l) = _
      rw [ih]
      have hd0 : 0 + d - s = 0 := by omega
      rw [hd0]
      congr 1
      refine map_congr_left ?_
      intro e _
      show (e.1, e.2 - (s - d)) = (e.1, e.2 + d - s)
      have he : e.2 - (s - d) = e.2 + d - s := by omega
      rw [he]
    · rw [if_neg h]
      show (a, 0 + (d - s)) :: deadlinesFrom (0 + (d - s)) l = _
      rw [deadlinesFrom_add 0 (d - s) l, Nat.zero_add, Nat.zero_add]
      congr 1
      refine map_congr_left ?_
      intro e _
      show (e.1, e.2 + (d - s)) = (e.1, e.2 + d - s)
      rw [Nat.add_sub_assoc (by omega)]

theorem deadlinesFrom_prependDelay (base d : Nat) (l : List (α × Nat)) :
    deadlinesFrom base (prependDelay d l) = deadlinesFrom (base + d) l := by
  cases l with
  | nil => rfl
  | cons hd l =>
    obtain ⟨b, e⟩ := hd
    show (b, base + (e + d)) :: deadlinesFrom (base + (e + d)) l
      = (b, base + d + e) :: deadlinesFrom (base + d + e) l
    have he : base + (e + d) = base + d + e := by omega
    rw [he]

theorem deadlinesFrom_removeDelta [DecidableEq α] (x : α) (hnd : (l.map Prod.fst).Nodup) :
    deadlinesFrom base (removeDelta x l) = (deadlinesFrom base l).filter fun e => e.1 ≠ x := by
  induction l generalizing base with
  | nil => rfl
  | cons hd l ih =>
    obtain ⟨a, d⟩ := hd
    rw [map_cons] at hnd
    obtain ⟨ha, hl⟩ := nodup_cons.mp hnd
    rw [removeDelta, deadlinesFrom]
    by_cases h : a = x
    · have hrest : (deadlinesFrom (base + d) l).filter (fun e => e.1 ≠ x)
          = deadlinesFrom (base + d) l := by
        refine filter_eq_self.mpr ?_
        intro e he
        have hmem : e.1 ∈ l.map Prod.fst := by
          rw [← map_fst_deadlinesFrom l (base + d)]
          exact mem_map_of_mem he
        have hne : e.1 ≠ x := by
          rintro rfl
          exact ha (h ▸ hmem)
        simpa using hne
      rw [if_pos h, filter_cons_of_neg (by simpa using h), hrest, deadlinesFrom_prependDelay]
    · rw [if_neg h, filter_cons_of_pos (by simpa using h), deadlinesFrom, ih hl]

theorem deadlines_removeDelta [DecidableEq α] (x : α) (hnd : (l.map Prod.fst).Nodup) :
    deadlines (removeDelta x l) = (deadlines l).filter fun e => e.1 ≠ x :=
  deadlinesFrom_removeDelta x hnd

theorem removeDelta_of_notMem [DecidableEq α] {x : α}
    (hx : x ∉ l.map Prod.fst) : removeDelta x l = l := by
  induction l with
  | nil => rfl
  | cons hd l ih =>
    obtain ⟨a, d⟩ := hd
    rw [map_cons] at hx
    have ha : a ≠ x := by
      rintro rfl
      exact hx mem_cons_self
    rw [removeDelta, if_neg ha, ih (fun hc => hx (mem_cons_of_mem a hc))]

theorem removeDelta_append [DecidableEq α] {x : α} {d : Nat} {u v : List (α × Nat)}
    (hx : x ∉ u.map Prod.fst) :
    removeDelta x (u ++ (x, d) :: v) = u ++ prependDelay d v := by
  induction u with
  | nil => rw [nil_append, removeDelta, if_pos rfl, nil_append]
  | cons hd u ih =>
    obtain ⟨a, e⟩ := hd
    rw [map_cons] at hx
    have ha : a ≠ x := by
      rintro rfl
      exact hx mem_cons_self
    rw [cons_append, removeDelta, if_neg ha,
      ih (fun hc => hx (mem_cons_of_mem a hc)), cons_append]

end Deadlines

section Relabel

variable {γ : Type} (f : α → γ)

def relabel (l : List (α × Nat)) : List (γ × Nat) := l.map fun e => (f e.1, e.2)

theorem map_fst_relabel (l : List (α × Nat)) :
    (relabel f l).map Prod.fst = (l.map Prod.fst).map f := by
  rw [relabel, map_map, map_map]
  rfl

theorem span_relabel (l : List (α × Nat)) : span (relabel f l) = span l := by
  rw [span, relabel, map_map]
  rfl

theorem length_relabel (l : List (α × Nat)) : (relabel f l).length = l.length := length_map _

theorem insertDelta_relabel (x : α) (t : Nat) (l : List (α × Nat)) :
    insertDelta (f x) t (relabel f l) = relabel f (insertDelta x t l) := by
  induction l generalizing t with
  | nil => rfl
  | cons hd l ih =>
    obtain ⟨a, d⟩ := hd
    show insertDelta (f x) t ((f a, d) :: relabel f l) = _
    rw [insertDelta, insertDelta]
    by_cases h : d ≤ t
    · rw [if_pos h, if_pos h, ih]
      rfl
    · rw [if_neg h, if_neg h]
      rfl

theorem shiftDelta_relabel (s : Nat) (l : List (α × Nat)) :
    shiftDelta s (relabel f l) = relabel f (shiftDelta s l) := by
  induction l generalizing s with
  | nil => rfl
  | cons hd l ih =>
    obtain ⟨a, d⟩ := hd
    show shiftDelta s ((f a, d) :: relabel f l) = _
    rw [shiftDelta, shiftDelta]
    by_cases h : d ≤ s
    · rw [if_pos h, if_pos h, ih]
      rfl
    · rw [if_neg h, if_neg h]
      rfl

theorem prependDelay_relabel (d : Nat) (l : List (α × Nat)) :
    prependDelay d (relabel f l) = relabel f (prependDelay d l) := by
  cases l with
  | nil => rfl
  | cons hd l => rfl

end Relabel

theorem le_span_of_mem {l : List (α × Nat)} {e : α × Nat} (h : e ∈ l) : e.2 ≤ span l :=
  single_le_sum (fun _ _ => Nat.zero_le _) _ (mem_map_of_mem h)

theorem span_insertDelta (x : α) (t : Nat) (l : List (α × Nat)) :
    span (insertDelta x t l) = max t (span l) := by
  induction l generalizing t with
  | nil => simp [insertDelta, span]
  | cons hd l ih =>
    obtain ⟨a, d⟩ := hd
    have hs : span ((a, d) :: l) = d + span l := rfl
    rw [insertDelta, hs]
    by_cases h : d ≤ t
    · rw [if_pos h]
      show d + span (insertDelta x (t - d) l) = _
      rw [ih]
      omega
    · rw [if_neg h]
      show t + (d - t + span l) = _
      omega

theorem span_shiftDelta_le (s : Nat) (l : List (α × Nat)) : span (shiftDelta s l) ≤ span l := by
  induction l generalizing s with
  | nil => exact Nat.le_refl _
  | cons hd l ih =>
    obtain ⟨a, d⟩ := hd
    have hs : span ((a, d) :: l) = d + span l := rfl
    rw [shiftDelta, hs]
    by_cases h : d ≤ s
    · rw [if_pos h]
      show 0 + span (shiftDelta (s - d) l) ≤ _
      have := ih (s - d)
      omega
    · rw [if_neg h]
      show d - s + span l ≤ _
      omega

theorem span_prependDelay_le (d : Nat) (l : List (α × Nat)) :
    span (prependDelay d l) ≤ d + span l := by
  cases l with
  | nil => exact Nat.zero_le _
  | cons hd l =>
    obtain ⟨b, e⟩ := hd
    show e + d + span l ≤ d + (e + span l)
    omega

theorem span_removeDelta_le [DecidableEq α] (x : α) (l : List (α × Nat)) :
    span (removeDelta x l) ≤ span l := by
  induction l with
  | nil => exact Nat.le_refl _
  | cons hd l ih =>
    obtain ⟨a, d⟩ := hd
    have hs : span ((a, d) :: l) = d + span l := rfl
    rw [removeDelta, hs]
    by_cases h : a = x
    · rw [if_pos h]
      exact span_prependDelay_le d l
    · rw [if_neg h]
      show d + span (removeDelta x l) ≤ _
      omega

section Expiry

variable {l : List (α × Nat)} {e : α × Nat} {x : α} {t : Nat}

theorem mem_map_fst_iff : x ∈ l.map Prod.fst ↔ ∃ r, (x, r) ∈ deadlines l := by
  rw [← map_fst_deadlines, mem_map]
  constructor
  · rintro ⟨⟨x, r⟩, he, rfl⟩
    exact ⟨r, he⟩
  · rintro ⟨r, he⟩
    exact ⟨(x, r), he, rfl⟩

theorem insertDelta_zeros_append (x : α) (t : Nat) (zs : List α) (l : List (α × Nat)) :
    insertDelta x t (zs.map (·, 0) ++ l) = zs.map (·, 0) ++ insertDelta x t l := by
  induction zs with
  | nil => rfl
  | cons z zs ih =>
    show insertDelta x t ((z, 0) :: (zs.map (·, 0) ++ l)) = _
    rw [insertDelta, if_pos (Nat.zero_le t), Nat.sub_zero, ih]
    rfl

theorem mem_deadlines_zeros_append {zs : List α} {r : Nat} :
    (x, r) ∈ deadlines (zs.map (·, 0) ++ l) ↔ x ∈ zs ∧ r = 0 ∨ (x, r) ∈ deadlines l := by
  induction zs with
  | nil => simp
  | cons z zs ih =>
    show (x, r) ∈ (z, 0) :: deadlines (zs.map (·, 0) ++ l) ↔ _
    rw [mem_cons, ih, mem_cons, Prod.mk.injEq, or_and_right, or_assoc]

theorem mem_deadlines_shiftDelta {s r : Nat} :
    (x, r) ∈ deadlines (shiftDelta s l) ↔ ∃ r', (x, r') ∈ deadlines l ∧ r = r' - s := by
  rw [deadlines_shiftDelta, mem_map]
  constructor
  · rintro ⟨⟨y, r'⟩, hr', heq⟩
    obtain ⟨rfl, rfl⟩ := Prod.mk.inj heq
    exact ⟨r', hr', rfl⟩
  · rintro ⟨r', hr', rfl⟩
    exact ⟨(x, r'), hr', rfl⟩

theorem mem_deadlines_insertDelta :
    e ∈ deadlines (insertDelta x t l) ↔ e = (x, t) ∨ e ∈ deadlines l := by
  obtain ⟨pre, post, hl, hi, -, -⟩ := deadlines_insertDelta (l := l) x t
  rw [hl, hi]
  simp only [mem_append, mem_cons]
  exact or_left_comm

/-- Remove several members. -/
def removeDeltas [DecidableEq α] (E : List α) (l : List (α × Nat)) : List (α × Nat) :=
  E.foldl (fun l x => removeDelta x l) l

theorem mem_deadlines_removeDeltas [DecidableEq α] {E : List α} (hnd : (l.map Prod.fst).Nodup) :
    e ∈ deadlines (removeDeltas E l) ↔ e.1 ∉ E ∧ e ∈ deadlines l := by
  induction E generalizing l with
  | nil => exact ⟨fun h => ⟨not_mem_nil, h⟩, fun h => h.2⟩
  | cons x E ih =>
    have hnd' : ((removeDelta x l).map Prod.fst).Nodup := by
      rw [map_fst_removeDelta]
      exact hnd.erase x
    show e ∈ deadlines (removeDeltas E (removeDelta x l)) ↔ _
    rw [ih hnd', deadlines_removeDelta x hnd, mem_filter, mem_cons, not_or]
    simp only [decide_eq_true_eq]
    constructor
    · exact fun h => ⟨⟨h.2.2, h.1⟩, h.2.1⟩
    · exact fun h => ⟨h.1.2, h.2, h.1.1⟩

/-- How many members are due. -/
def dueCount (l : List (α × Nat)) : Nat := (deadlines l).countP fun e => e.2 = 0

theorem dueCount_cons_zero (x : α) (l : List (α × Nat)) : dueCount ((x, 0) :: l) = dueCount l + 1 :=
  countP_cons_of_pos (by rfl)

theorem dueCount_le_length (l : List (α × Nat)) : dueCount l ≤ l.length := by
  refine Nat.le_trans countP_le_length ?_
  have h := congrArg List.length (map_fst_deadlines l)
  rw [length_map, length_map] at h
  exact Nat.le_of_eq h

theorem dueCount_insertDelta (ht : t ≠ 0) : dueCount (insertDelta x t l) = dueCount l := by
  obtain ⟨pre, post, hl, hi, -, -⟩ := deadlines_insertDelta (l := l) x t
  rw [dueCount, dueCount, hl, hi, countP_append, countP_append,
    countP_cons_of_neg (by simpa using ht)]

theorem dueCount_removeDelta_le [DecidableEq α] (hnd : (l.map Prod.fst).Nodup) :
    dueCount (removeDelta x l) ≤ dueCount l := by
  rw [dueCount, dueCount, deadlines_removeDelta x hnd]
  exact filter_sublist.countP_le

theorem pos_of_not_due (hl : ∀ a l', l ≠ (a, 0) :: l') : ∀ e ∈ deadlines l, 0 < e.2 := by
  intro e he
  cases l with
  | nil => exact absurd he not_mem_nil
  | cons hd l =>
    obtain ⟨a, d⟩ := hd
    have hd : d ≠ 0 := fun hc => hl a l (by rw [hc])
    rcases mem_cons.mp he with rfl | hmem
    · show 0 < 0 + d
      omega
    · have hle := le_of_mem_deadlinesFrom hmem
      omega

theorem shiftDelta_expired (s : Nat) (l : List (α × Nat)) :
    ∃ due later rest, deadlines l = due ++ later
      ∧ shiftDelta s l = (due.map Prod.fst).map (·, 0) ++ rest
      ∧ deadlines rest = later.map (fun e => (e.1, e.2 - s))
      ∧ (∀ e ∈ due, e.2 ≤ s) ∧ (∀ e ∈ later, s < e.2) := by
  induction l generalizing s with
  | nil => exact ⟨[], [], [], rfl, rfl, rfl, fun e he => (nomatch he), fun e he => nomatch he⟩
  | cons hd l ih =>
    obtain ⟨a, d⟩ := hd
    by_cases h : d ≤ s
    · obtain ⟨due, later, rest, hl, hs, hr, hdue, hlater⟩ := ih (s - d)
      let f : α × Nat → α × Nat := fun e => (e.1, e.2 + d)
      refine ⟨(a, d) :: due.map f, later.map f, rest, ?_, ?_, ?_, ?_, ?_⟩
      · show (a, 0 + d) :: deadlinesFrom (0 + d) l = _
        rw [deadlinesFrom_add 0 d l, Nat.zero_add, cons_append, ← map_append]
        exact congrArg (fun D => (a, d) :: D.map f) hl
      · have hfst : (due.map f).map Prod.fst = due.map Prod.fst := by
          rw [map_map]
          rfl
        rw [shiftDelta, if_pos h, hs, map_cons, hfst]
        rfl
      · rw [hr, map_map]
        refine map_congr_left fun e _ => ?_
        show (e.1, e.2 - (s - d)) = (e.1, e.2 + d - s)
        rw [show e.2 - (s - d) = e.2 + d - s by omega]
      · intro e he
        rcases mem_cons.mp he with rfl | he
        · exact h
        · obtain ⟨e', he', rfl⟩ := mem_map.mp he
          have := hdue e' he'
          show e'.2 + d ≤ s
          omega
      · intro e he
        obtain ⟨e', he', rfl⟩ := mem_map.mp he
        have := hlater e' he'
        show s < e'.2 + d
        omega
    · refine ⟨[], deadlines ((a, d) :: l), shiftDelta s ((a, d) :: l), rfl, rfl,
        deadlines_shiftDelta s _, fun e he => (nomatch he), ?_⟩
      intro e he
      rcases mem_cons.mp he with rfl | he
      · show s < 0 + d
        omega
      · have := le_of_mem_deadlinesFrom he
        omega

def insertAll (time : α → Nat) (keep : α → Bool) (zs : List α) (l : List (α × Nat)) :
    List (α × Nat) :=
  zs.foldl (fun l x => if keep x then insertDelta x (time x) l else l) l

theorem insertAll_cons (time : α → Nat) (keep : α → Bool) (z : α) (zs : List α)
    (l : List (α × Nat)) :
    insertAll time keep (z :: zs) l
      = insertAll time keep zs (if keep z then insertDelta z (time z) l else l) := rfl

theorem mem_deadlines_insertAll {time : α → Nat} {keep : α → Bool} {zs : List α} :
    e ∈ deadlines (insertAll time keep zs l)
      ↔ e ∈ deadlines l ∨ (e.1 ∈ zs ∧ keep e.1 = true ∧ e.2 = time e.1) := by
  induction zs generalizing l with
  | nil => exact ⟨Or.inl, fun h => h.resolve_right fun hc => nomatch hc.1⟩
  | cons z zs ih =>
    obtain ⟨a, r⟩ := e
    rw [insertAll_cons, ih]
    by_cases hk : keep z = true
    · rw [if_pos hk, mem_deadlines_insertDelta]
      simp only [Prod.mk.injEq, mem_cons]
      constructor
      · rintro ((⟨rfl, rfl⟩ | h) | ⟨hz, h⟩)
        · exact Or.inr ⟨Or.inl rfl, hk, rfl⟩
        · exact Or.inl h
        · exact Or.inr ⟨Or.inr hz, h⟩
      · rintro (h | ⟨rfl | hz, h⟩)
        · exact Or.inl (Or.inr h)
        · exact Or.inl (Or.inl ⟨rfl, h.2⟩)
        · exact Or.inr ⟨hz, h⟩
    · rw [if_neg hk]
      simp only [mem_cons]
      constructor
      · rintro (h | ⟨hz, h⟩)
        · exact Or.inl h
        · exact Or.inr ⟨Or.inr hz, h⟩
      · rintro (h | ⟨rfl | hz, h⟩)
        · exact Or.inl h
        · exact absurd h.1 hk
        · exact Or.inr ⟨hz, h⟩

structure Stamped (stamp : α → Nat) (c : Nat) (l : List (α × Nat)) : Prop where
  order : (deadlines l).Pairwise fun a b => a.2 = b.2 → stamp a.1 < stamp b.1
  lt : ∀ e ∈ deadlines l, stamp e.1 < c

variable {stamp : α → Nat} {c : Nat}

theorem Stamped.insertDelta (h : Stamped stamp c l) (hx : stamp x = c) :
    Stamped stamp (c + 1) (insertDelta x t l) := by
  refine ⟨?_, ?_⟩
  · obtain ⟨pre, post, hl, hi, -, hpost⟩ := deadlines_insertDelta (l := l) x t
    have horder := h.order
    have hlt := h.lt
    rw [hl] at horder hlt
    rw [hi]
    obtain ⟨hpre, hpost', hcross⟩ := pairwise_append.mp horder
    refine pairwise_append.mpr ⟨hpre, pairwise_cons.mpr ⟨?_, hpost'⟩, ?_⟩
    · intro e he heq
      have := hpost e he
      omega
    · intro a ha b hb
      rcases mem_cons.mp hb with rfl | hb
      · intro _
        show stamp a.1 < stamp x
        rw [hx]
        exact hlt a (mem_append_left _ ha)
      · exact hcross a ha b hb
  · intro e he
    rcases mem_deadlines_insertDelta.mp he with rfl | he
    · show stamp x < c + 1
      omega
    · exact Nat.lt_succ_of_lt (h.lt e he)

theorem Stamped.congr {stamp' : α → Nat} (h : Stamped stamp c l)
    (hs : ∀ e ∈ deadlines l, stamp' e.1 = stamp e.1) : Stamped stamp' c l := by
  refine ⟨h.order.imp_of_mem ?_, ?_⟩
  · intro a b ha hb hab heq
    rw [hs a ha, hs b hb]
    exact hab heq
  · intro e he
    rw [hs e he]
    exact h.lt e he

theorem Stamped.mono {c' : Nat} (h : Stamped stamp c l) (hc : c ≤ c') : Stamped stamp c' l :=
  ⟨h.order, fun e he => Nat.lt_of_lt_of_le (h.lt e he) hc⟩

theorem Stamped.insertAll {time : α → Nat} {keep : α → Bool} {zs : List α}
    (h : Stamped stamp c l) (hz : zs.map stamp = range' c zs.length) :
    Stamped stamp (c + zs.length) (insertAll time keep zs l) := by
  induction zs generalizing c l with
  | nil => exact h
  | cons z zs ih =>
    rw [map_cons, length_cons, range'_succ, List.cons.injEq] at hz
    have hnext : Stamped stamp (c + 1)
        (if keep z then DeltaList.insertDelta z (time z) l else l) := by
      split_ifs
      · exact h.insertDelta hz.1
      · exact h.mono (Nat.le_succ c)
    have := ih hnext hz.2
    rw [show c + 1 + zs.length = c + (z :: zs).length by rw [length_cons]; omega] at this
    exact this

end Expiry

end DeltaList
