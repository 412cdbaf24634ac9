import Mathlib

/-! # Operations that take effect at one instant

    `Order` puts all calls in an order in which each takes effect between its call and its
    return. -/

namespace Linear

open List

variable {ο ρ β : Type}

structure Call (ο : Type) where
  op : ο
  time : Nat

structure Return (ο ρ : Type) where
  call : Call ο
  result : ρ
  time : Nat

structure Effect (ο ρ : Type) where
  call : Call ο
  result : ρ
  instant : Nat

def Legal (apply : ο → β → β × ρ) : β → List (Effect ο ρ) → β → Prop
  | b, [], b' => b = b'
  | b, e :: l, b' => (apply e.call.op b).2 = e.result ∧ Legal apply (apply e.call.op b).1 l b'

structure Order (apply : ο → β → β × ρ) (b₀ b : β) (now : Nat) (history : List (Return ο ρ))
    (pending : Call ο → Prop) (l : List (Effect ο ρ)) : Prop where
  legal : Legal apply b₀ l b
  sorted : l.Pairwise fun e e' => e.instant < e'.instant
  past : ∀ e ∈ l, e.instant < now
  once : (l.map Effect.call).Nodup
  known : ∀ e ∈ l, (∃ r ∈ history, r.call = e.call) ∨ pending e.call
  distinct : (history.map Return.call).Nodup
  complete : ∀ r ∈ history, ∃ e ∈ l, e.call = r.call ∧ e.result = r.result ∧
    r.call.time < e.instant ∧ e.instant ≤ r.time

variable {apply : ο → β → β × ρ} {b₀ b b' : β} {now : Nat} {history : List (Return ο ρ)}
variable {pending pending' : Call ο → Prop} {l : List (Effect ο ρ)}

theorem Legal.snoc {e : Effect ο ρ} (h : Legal apply b₀ l b)
    (he : apply e.call.op b = (b', e.result)) : Legal apply b₀ (l ++ [e]) b' := by
  induction l generalizing b₀ with
  | nil =>
    obtain rfl : b₀ = b := h
    exact ⟨congrArg Prod.snd he, congrArg Prod.fst he⟩
  | cons e' l ih => exact ⟨h.1, ih h.2⟩

theorem Order.start (b : β) (now : Nat) (pending : Call ο → Prop) :
    Order apply b b now [] pending [] :=
  ⟨rfl, List.Pairwise.nil, fun _ he => absurd he not_mem_nil, nodup_nil,
    fun _ he => absurd he not_mem_nil, nodup_nil,
    fun _ hr => absurd hr not_mem_nil⟩

theorem Order.wait (h : Order apply b₀ b now history pending l) :
    Order apply b₀ b (now + 1) history pending l :=
  { h with past := fun e he => Nat.lt_succ_of_lt (h.past e he) }

theorem Order.mono (h : Order apply b₀ b now history pending l)
    (hpending : ∀ c, pending c → pending' c) : Order apply b₀ b now history pending' l :=
  { h with known := fun e he => (h.known e he).imp_right (hpending e.call) }

theorem Order.effect {c : Call ο} {r : ρ} (h : Order apply b₀ b now history pending l)
    (hc : c ∉ l.map Effect.call) (hpending : pending c) (hr : apply c.op b = (b', r)) :
    Order apply b₀ b' (now + 1) history pending (l ++ [⟨c, r, now⟩]) where
  legal := h.legal.snoc hr
  sorted := by
    refine pairwise_append.mpr ⟨h.sorted, pairwise_singleton _ _, ?_⟩
    intro e he e' he'
    rw [mem_singleton.mp he']
    exact h.past e he
  past := by
    intro e he
    rcases mem_append.mp he with he | he
    · exact Nat.lt_succ_of_lt (h.past e he)
    · rw [mem_singleton.mp he]
      exact Nat.lt_succ_self now
  once := by
    rw [map_append, map_singleton, ← concat_eq_append]
    exact h.once.concat hc
  known := by
    intro e he
    rcases mem_append.mp he with he | he
    · exact h.known e he
    · rw [mem_singleton.mp he]
      exact Or.inr hpending
  distinct := h.distinct
  complete := by
    intro r hr
    obtain ⟨e, he, hmatch⟩ := h.complete r hr
    exact ⟨e, mem_append_left _ he, hmatch⟩

theorem Order.return {e : Effect ο ρ} {time : Nat} (h : Order apply b₀ b now history pending l)
    (he : e ∈ l) (hcalled : e.call.time < e.instant) (htime : e.instant ≤ time)
    (hnew : e.call ∉ history.map Return.call)
    (hpending : ∀ c, pending c → c = e.call ∨ pending' c) :
    Order apply b₀ b now (history ++ [⟨e.call, e.result, time⟩]) pending' l :=
  { h with
    known := by
      intro e' he'
      rcases h.known e' he' with ⟨r, hr, heq⟩ | hp
      · exact Or.inl ⟨r, mem_append_left _ hr, heq⟩
      · rcases hpending _ hp with heq | hp
        · exact Or.inl ⟨_, mem_append_right _ mem_cons_self, heq.symm⟩
        · exact Or.inr hp
    distinct := by
      rw [map_append, map_singleton, ← concat_eq_append]
      exact h.distinct.concat hnew
    complete := by
      intro r hr
      rcases mem_append.mp hr with hr | hr
      · exact h.complete r hr
      · rw [mem_singleton.mp hr]
        exact ⟨e, he, rfl, rfl, hcalled, htime⟩ }

theorem Order.perm (h : Order apply b₀ b now history pending l) (hnone : ∀ c, ¬ pending c) :
    (l.map fun e => (e.call, e.result)).Perm (history.map fun r => (r.call, r.result)) := by
  -- both lists have each call once
  have hl : (l.map fun e => (e.call, e.result)).Nodup := by
    refine List.Nodup.of_map Prod.fst ?_
    rw [map_map]
    exact h.once
  have hh : (history.map fun r => (r.call, r.result)).Nodup := by
    refine List.Nodup.of_map Prod.fst ?_
    rw [map_map]
    exact h.distinct
  refine (perm_ext_iff_of_nodup hl hh).mpr ?_
  rintro ⟨c, x⟩
  rw [mem_map, mem_map]
  constructor
  · rintro ⟨e, he, heq⟩
    obtain ⟨rfl, rfl⟩ := Prod.mk.inj heq
    obtain ⟨r, hr, hcall⟩ := (h.known e he).resolve_right (hnone e.call)
    obtain ⟨e', he', hcall', hresult, -⟩ := h.complete r hr
    obtain rfl : e' = e := inj_on_of_nodup_map h.once he' he (hcall'.trans hcall)
    exact ⟨r, hr, Prod.ext hcall hresult.symm⟩
  · rintro ⟨r, hr, heq⟩
    obtain ⟨rfl, rfl⟩ := Prod.mk.inj heq
    obtain ⟨e, he, hcall, hresult, -⟩ := h.complete r hr
    exact ⟨e, he, Prod.ext hcall hresult⟩

end Linear
