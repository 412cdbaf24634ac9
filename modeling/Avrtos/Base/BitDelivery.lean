import Mathlib

/-! # Bits that are handed out along a list

    `deliver` says who gets which bits and `left` what is left, without looking at the walk. -/

namespace BitDelivery

open List

variable {τ : Type} {n : Nat} (mask : τ → BitVec n) (consume : τ → Bool)

def consumed : List τ → BitVec n
  | [] => 0
  | t :: l => if consume t then mask t ||| consumed l else consumed l

def left (v : BitVec n) (l : List τ) : BitVec n := v &&& ~~~ consumed mask consume l

def deliver : List τ → BitVec n → List (τ × BitVec n)
  | [], _ => []
  | t :: l, v =>
      if v &&& mask t = 0 then deliver l v
      else (t, v &&& mask t)
        :: deliver l (if consume t then v &&& ~~~(v &&& mask t) else v)

variable {mask consume} {v : BitVec n} {l pre post : List τ} {t : τ} {i : Nat}

theorem getLsbD_left : (left mask consume v l).getLsbD i = true
    ↔ v.getLsbD i = true ∧ ∀ t ∈ l, consume t = true → (mask t).getLsbD i = false := by
  induction l with
  | nil =>
    simp only [left, consumed, BitVec.getLsbD_and, BitVec.getLsbD_not, Bool.and_eq_true]
    constructor
    · exact fun h => ⟨h.1, fun t ht => nomatch ht⟩
    · exact fun h => ⟨h.1, by simpa using BitVec.lt_of_getLsbD h.1⟩
  | cons t l ih =>
    have hbit : (left mask consume v (t :: l)).getLsbD i = true
        ↔ (left mask consume v l).getLsbD i = true
          ∧ (consume t = true → (mask t).getLsbD i = false) := by
      simp only [left, consumed]
      cases consume t
      · simp
      · simp only [if_true, BitVec.getLsbD_and, BitVec.getLsbD_not, BitVec.getLsbD_or]
        grind
    rw [hbit, ih, forall_mem_cons]
    exact ⟨fun h => ⟨h.1.1, h.2, h.1.2⟩, fun h => ⟨⟨h.1, h.2.2⟩, h.2.1⟩⟩

theorem left_nil : left mask consume v [] = v := by
  refine BitVec.eq_of_getLsbD_eq fun i _ => Bool.eq_iff_iff.mpr ?_
  rw [getLsbD_left]
  exact ⟨fun h => h.1, fun h => ⟨h, fun t ht => nomatch ht⟩⟩

theorem offered_eq_self (h : v &&& mask t = 0) :
    (if consume t then v &&& ~~~(v &&& mask t) else v) = v := by
  rw [h]
  split_ifs
  · refine BitVec.eq_of_getLsbD_eq fun i hi => ?_
    simp [hi]
  · rfl

theorem left_cons : left mask consume v (t :: l)
    = left mask consume (if consume t then v &&& ~~~(v &&& mask t) else v) l := by
  refine BitVec.eq_of_getLsbD_eq fun i hi => Bool.eq_iff_iff.mpr ?_
  rw [getLsbD_left, getLsbD_left, forall_mem_cons]
  cases hc : consume t with
  | false => simp
  | true =>
    simp only [if_true, BitVec.getLsbD_and, BitVec.getLsbD_not]
    grind

theorem and_eq_zero_iff {a b : BitVec n} :
    a &&& b = 0 ↔ ∀ i, a.getLsbD i = true → b.getLsbD i = false := by
  constructor
  · intro h i ha
    have hi : (a &&& b).getLsbD i = false := by
      rw [h]
      exact BitVec.getLsbD_zero
    rw [BitVec.getLsbD_and, ha, Bool.true_and] at hi
    exact hi
  · intro h
    refine BitVec.eq_of_getLsbD_eq fun i _ => ?_
    have h0 : (0 : BitVec n).getLsbD i = false := BitVec.getLsbD_zero
    rw [BitVec.getLsbD_and, h0, Bool.and_eq_false_iff]
    cases ha : a.getLsbD i with
    | false => exact Or.inl rfl
    | true => exact Or.inr (h i ha)

theorem or_and_eq_zero {a b c : BitVec n} (ha : a &&& c = 0) (hb : b &&& c = 0) :
    (a ||| b) &&& c = 0 := by
  rw [and_eq_zero_iff] at ha hb ⊢
  intro i hi
  rw [BitVec.getLsbD_or, Bool.or_eq_true] at hi
  rcases hi with hi | hi
  · exact ha i hi
  · exact hb i hi

theorem left_and_eq_zero (h : left mask consume v pre &&& mask t = 0) :
    left mask consume v (pre ++ post) &&& mask t = 0 := by
  rw [and_eq_zero_iff] at h ⊢
  intro i hi
  rw [getLsbD_left] at hi
  exact h i (getLsbD_left.mpr ⟨hi.1, fun x hx => hi.2 x (mem_append_left _ hx)⟩)

theorem left_congr {mask' : τ → BitVec n} {consume' : τ → Bool}
    (h : ∀ t ∈ l, mask' t = mask t ∧ consume' t = consume t) :
    left mask' consume' v l = left mask consume v l := by
  induction l generalizing v with
  | nil => rfl
  | cons t l ih =>
    obtain ⟨⟨hm, hc⟩, hl⟩ := forall_mem_cons.mp h
    rw [left_cons, left_cons, hm, hc, ih hl]

theorem deliver_congr {mask' : τ → BitVec n} {consume' : τ → Bool}
    (h : ∀ t ∈ l, mask' t = mask t ∧ consume' t = consume t) :
    deliver mask' consume' l v = deliver mask consume l v := by
  induction l generalizing v with
  | nil => rfl
  | cons t l ih =>
    obtain ⟨⟨hm, hc⟩, hl⟩ := forall_mem_cons.mp h
    rw [deliver, deliver, hm, hc, ih hl, ih hl]

theorem left_zero : left mask consume 0 l = 0 := BitVec.zero_and

theorem deliver_zero : deliver mask consume l 0 = [] := by
  induction l with
  | nil => rfl
  | cons t l ih =>
    have h0 : (0 : BitVec n) &&& mask t = 0 := BitVec.zero_and
    rw [deliver, if_pos h0, ih]

theorem deliver_append : deliver mask consume (pre ++ post) v = deliver mask consume pre v
      ++ deliver mask consume post (left mask consume v pre) := by
  induction pre generalizing v with
  | nil => rw [left_nil]; rfl
  | cons t pre ih =>
    rw [cons_append, deliver, deliver, left_cons]
    by_cases h : v &&& mask t = 0
    · rw [if_pos h, if_pos h, ih, offered_eq_self h]
    · rw [if_neg h, if_neg h, ih, cons_append]

theorem map_fst_deliver_sublist : ((deliver mask consume l v).map Prod.fst).Sublist l := by
  induction l generalizing v with
  | nil => exact List.Sublist.refl _
  | cons t l ih =>
    rw [deliver]
    by_cases h : v &&& mask t = 0
    · rw [if_pos h]
      exact ih.cons t
    · rw [if_neg h, map_cons]
      exact ih.cons_cons t

theorem mem_deliver_iff {x : BitVec n} (hnd : (pre ++ t :: post).Nodup) :
    (t, x) ∈ deliver mask consume (pre ++ t :: post) v
      ↔ x = left mask consume v pre &&& mask t ∧ x ≠ 0 := by
  have hpre : t ∉ pre := fun hc =>
    (nodup_append.mp hnd).2.2 t hc t mem_cons_self rfl
  have hpost : t ∉ post := (nodup_cons.mp (nodup_append.mp hnd).2.1).1
  have hnot : ∀ (l : List τ) (v : BitVec n), t ∉ l → (t, x) ∉ deliver mask consume l v :=
    fun l v hl hc => hl (map_fst_deliver_sublist.subset (mem_map_of_mem hc))
  rw [deliver_append, mem_append, or_iff_right (hnot _ _ hpre), deliver]
  by_cases h : left mask consume v pre &&& mask t = 0
  · rw [if_pos h]
    refine ⟨fun hc => absurd hc (hnot _ _ hpost), ?_⟩
    rintro ⟨rfl, hx⟩
    exact absurd h hx
  · rw [if_neg h, mem_cons, or_iff_left (hnot _ _ hpost), Prod.mk.injEq]
    constructor
    · rintro ⟨-, rfl⟩
      exact ⟨rfl, h⟩
    · exact fun hx => ⟨rfl, hx.1⟩

theorem left_and_eq_zero_of_notMem (hnd : l.Nodup) (ht : t ∈ l)
    (h : t ∉ (deliver mask consume l v).map Prod.fst) : left mask consume v l &&& mask t = 0 := by
  obtain ⟨pre, post, rfl⟩ := append_of_mem ht
  refine left_and_eq_zero ?_
  by_contra hc
  exact h (mem_map_of_mem ((mem_deliver_iff hnd).mpr ⟨rfl, hc⟩))

theorem exists_consumer (hv : v.getLsbD i = true) (hl : (left mask consume v l).getLsbD i = false) :
    ∃ pre t post, l = pre ++ t :: post ∧ consume t = true
      ∧ (left mask consume v pre &&& mask t).getLsbD i = true := by
  induction l generalizing v with
  | nil =>
    rw [left_nil, hv] at hl
    exact nomatch hl
  | cons a l ih =>
    by_cases ha : consume a = true ∧ (mask a).getLsbD i = true
    · refine ⟨[], a, l, rfl, ha.1, ?_⟩
      rw [left_nil, BitVec.getLsbD_and, hv, ha.2]
      rfl
    · have hl' : (left mask consume v l).getLsbD i = false := by
        rw [← Bool.not_eq_true] at hl ⊢
        intro hc
        rw [getLsbD_left] at hc
        refine hl (getLsbD_left.mpr ⟨hv, forall_mem_cons.mpr ⟨fun hca => ?_, hc.2⟩⟩)
        exact Bool.not_eq_true _ ▸ fun hma => ha ⟨hca, hma⟩
      obtain ⟨pre, t, post, rfl, hct, hbit⟩ := ih hv hl'
      refine ⟨a :: pre, t, post, rfl, hct, ?_⟩
      rw [BitVec.getLsbD_and, Bool.and_eq_true] at hbit ⊢
      refine ⟨getLsbD_left.mpr ⟨hv, forall_mem_cons.mpr ⟨fun hca => ?_, ?_⟩⟩, hbit.2⟩
      · exact Bool.not_eq_true _ ▸ fun hma => ha ⟨hca, hma⟩
      · exact (getLsbD_left.mp hbit.1).2

theorem consumer_unique {s : τ} {x y : BitVec n} (hnd : l.Nodup)
    (ht : (t, x) ∈ deliver mask consume l v) (hs : (s, y) ∈ deliver mask consume l v)
    (hct : consume t = true) (hcs : consume s = true) (hx : x.getLsbD i = true)
    (hy : y.getLsbD i = true) : t = s := by
  have hmem : ∀ {a b : BitVec n} {t s : τ}, (t, a) ∈ deliver mask consume l v →
      consume t = true → a.getLsbD i = true → (s, b) ∈ deliver mask consume l v →
      b.getLsbD i = true → ∀ pre post, l = pre ++ s :: post → t ∉ pre := by
    rintro a b t s ha hct hai hb hbi pre post rfl htp
    -- behind a consumer of the bit it is not left
    obtain ⟨rfl, -⟩ := (mem_deliver_iff hnd).mp hb
    rw [BitVec.getLsbD_and, Bool.and_eq_true, getLsbD_left] at hbi
    have hm := hbi.1.2 t htp hct
    obtain ⟨u, u', hu⟩ := append_of_mem (mem_append_left (s :: post) htp)
    rw [hu] at ha hnd
    obtain ⟨rfl, -⟩ := (mem_deliver_iff hnd).mp ha
    rw [BitVec.getLsbD_and, hm, Bool.and_false] at hai
    exact nomatch hai
  by_contra hne
  have hsl : s ∈ l := map_fst_deliver_sublist.subset (mem_map_of_mem hs)
  have htl : t ∈ l := map_fst_deliver_sublist.subset (mem_map_of_mem ht)
  obtain ⟨pre, post, hl⟩ := append_of_mem hsl
  have h1 := hmem ht hct hx hs hy pre post hl
  have htpost : t ∈ post := by
    rw [hl] at htl
    rcases mem_append.mp htl with h | h
    · exact absurd h h1
    · exact (mem_cons.mp h).resolve_left hne
  obtain ⟨u, u', hu⟩ := append_of_mem htpost
  refine hmem hs hcs hy ht hx (pre ++ s :: u) u' ?_ (by simp)
  rw [hl, hu]
  simp

end BitDelivery
