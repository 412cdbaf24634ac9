import Avrtos.Msgq

/-! # The data of a message queue

    `Channel` relates accepted, delivered and stored messages, without the kernel. -/

namespace AvrtosMsgq

open List AvrtosDefines AvrtosKernel Bytes Window

def Msgq.at (i : Msgq) (r u : Nat) : Msgq :=
  { i with
    usedMsgs := u
    readCursor := i.bufStart + i.msgSize * r
    writeCursor := i.bufStart + i.msgSize * ((r + u) % i.maxMsgs) }

structure Fresh (i : Msgq) : Prop where
  size_pos : 0 < i.msgSize
  max_pos : 0 < i.maxMsgs
  max_lt : i.maxMsgs < 256
  bufEnd : i.bufEnd = i.bufStart + i.msgSize * i.maxMsgs
  start : i = i.at 0 0

theorem Initialised.fresh {q : Msgq} (h : Initialised q) : Fresh q := by
  obtain ⟨argsChecks, old, buffer, msgSize, maxMsgs, hs, hm, hq⟩ := h
  rw [kMsgqInit] at hq
  split_ifs at hq with hu
  · injection hq with _ hc
    exact absurd hc (by decide)
  · injection hq with hq _
    subst hq
    have hpos : 0 < maxMsgs.toNat := by
      refine Nat.pos_of_ne_zero ?_
      intro hc
      exact hm (BitVec.eq_of_toNat_eq hc)
    exact ⟨Nat.pos_of_ne_zero hs, hpos, maxMsgs.isLt, rfl, by simp [Msgq.at]⟩

variable {i : Msgq} {r u : Nat}

theorem nextSlot_slot (hi : Fresh i) (j : Nat) :
    nextSlot (i.at r u) (i.bufStart + i.msgSize * j)
      = i.bufStart + i.msgSize * advance i.maxMsgs j := by
  show (if i.bufStart + i.msgSize * j + i.msgSize = i.bufEnd then i.bufStart
    else i.bufStart + i.msgSize * j + i.msgSize) = _
  have hstep : i.bufStart + i.msgSize * j + i.msgSize = i.bufStart + i.msgSize * (j + 1) := by
    rw [Nat.mul_succ, Nat.add_assoc]
  have hend : i.bufStart + i.msgSize * (j + 1) = i.bufEnd ↔ j + 1 = i.maxMsgs := by
    rw [hi.bufEnd]
    refine ⟨fun hc => ?_, fun hc => by rw [hc]⟩
    exact Nat.eq_of_mul_eq_mul_left hi.size_pos (Nat.add_left_cancel hc)
  rw [hstep, advance]
  by_cases hl : j + 1 = i.maxMsgs
  · rw [if_pos (hend.mpr hl), if_pos hl, Nat.mul_zero, Nat.add_zero]
  · rw [if_neg fun hc => hl (hend.mp hc), if_neg hl]

theorem at_stored (hi : Fresh i) (hu : u < i.maxMsgs) : { i.at r u with
      writeCursor := nextSlot (i.at r u) (i.at r u).writeCursor
      usedMsgs := ((i.at r u).usedMsgs + 1) % 256 } = i.at r (u + 1) := by
  have hmod : (u + 1) % 256 = u + 1 := Nat.mod_eq_of_lt (by have := hi.max_lt; omega)
  have hw : nextSlot (i.at r u) (i.at r u).writeCursor = (i.at r (u + 1)).writeCursor := by
    refine (nextSlot_slot hi _).trans ?_
    rw [advance_eq_mod (Nat.mod_lt _ hi.max_pos), Nat.mod_add_mod]
    rfl
  rw [hw]
  show ({ i.at r (u + 1) with usedMsgs := (u + 1) % 256 } : Msgq) = _
  rw [hmod]
  rfl

theorem at_taken (hi : Fresh i) (hr : r < i.maxMsgs) : { i.at r (u + 1) with
      readCursor := nextSlot (i.at r (u + 1)) (i.at r (u + 1)).readCursor
      usedMsgs := u } = i.at (advance i.maxMsgs r) u := by
  have hread : nextSlot (i.at r (u + 1)) (i.at r (u + 1)).readCursor
      = (i.at (advance i.maxMsgs r) u).readCursor := nextSlot_slot hi r
  have hwrite : (i.at r (u + 1)).writeCursor = (i.at (advance i.maxMsgs r) u).writeCursor := by
    show i.bufStart + i.msgSize * ((r + (u + 1)) % i.maxMsgs) = _
    rw [← mod_advance hr]
    rfl
  rw [hread]
  show ({ i.at (advance i.maxMsgs r) u with
    writeCursor := (i.at r (u + 1)).writeCursor } : Msgq) = _
  rw [hwrite]

theorem at_refilled (hi : Fresh i) (hr : r < i.maxMsgs) : { i.at r u with
      readCursor := nextSlot (i.at r u) (i.at r u).readCursor
      writeCursor := nextSlot (i.at r u) (i.at r u).writeCursor }
      = i.at (advance i.maxMsgs r) u := by
  have hread : nextSlot (i.at r u) (i.at r u).readCursor
      = (i.at (advance i.maxMsgs r) u).readCursor := nextSlot_slot hi r
  have hwrite : nextSlot (i.at r u) (i.at r u).writeCursor
      = (i.at (advance i.maxMsgs r) u).writeCursor := by
    refine (nextSlot_slot hi _).trans ?_
    show _ = i.bufStart + i.msgSize * ((advance i.maxMsgs r + u) % i.maxMsgs)
    rw [mod_advance hr, advance_eq_mod (Nat.mod_lt _ hi.max_pos), Nat.mod_add_mod]
    rfl
  rw [hread, hwrite]
  rfl

/-- The messages in the buffer. -/
def stored (ram : Nat → UInt8) (i : Msgq) (r u : Nat) : List (List UInt8) :=
  window (slot ram i.bufStart i.msgSize) i.maxMsgs r u

section Buffer

variable {ram ram' : Nat → UInt8} {data : Nat}

def Outside (i : Msgq) (a n : Nat) : Prop := Apart a n i.bufStart (i.msgSize * i.maxMsgs)

theorem stored_congr (hpos : 0 < i.maxMsgs)
    (h : ∀ j < i.maxMsgs, slot ram' i.bufStart i.msgSize j = slot ram i.bufStart i.msgSize j) :
    stored ram' i r u = stored ram i r u :=
  window_congr fun _ _ => h _ (Nat.mod_lt _ hpos)

theorem stored_memcpy_of_outside (hi : Fresh i) {dst src n : Nat} (h : Outside i dst n) :
    stored (memcpy ram dst src n) i r u = stored ram i r u :=
  stored_congr hi.max_pos fun _ hj => slot_memcpy_of_apart h hj

theorem apart_writeCursor (hi : Fresh i) {a n : Nat} (h : Outside i a n) :
    Apart (i.at r u).writeCursor i.msgSize a n :=
  (h.slot (Nat.mod_lt _ hi.max_pos)).symm

/-- **PUT**. -/
theorem stored_put (hu : u < i.maxMsgs) (src : Nat) :
    stored (memcpy ram (i.at r u).writeCursor src i.msgSize) i r (u + 1)
      = stored ram i r u ++ [bytes ram src i.msgSize] := by
  have hslot : (i.at r u).writeCursor = i.bufStart + i.msgSize * ((r + u) % i.maxMsgs) := rfl
  rw [stored, stored, hslot, slot_memcpy, window_update hu]

theorem stored_get (hi : Fresh i) (hr : r < i.maxMsgs) (hdst : Outside i data i.msgSize)
    (hram : ram' = memcpy ram data (i.at r (u + 1)).readCursor i.msgSize) :
    stored ram i r (u + 1)
      = bytes ram' data i.msgSize :: stored ram' i (advance i.maxMsgs r) u := by
  rw [hram, bytes_memcpy_self, stored_memcpy_of_outside hi hdst, stored, window_succ hr]
  rfl

theorem stored_refill (hi : Fresh i) (hr : r < i.maxMsgs) (hu : u < i.maxMsgs)
    (hdst : Outside i data i.msgSize) {ram₁ ram₂ : Nat → UInt8}
    (hram₁ : ram₁ = memcpy ram data (i.at r (u + 1)).readCursor i.msgSize) {src : Nat}
    (hram₂ : ram₂ = memcpy ram₁ (i.at r (u + 1)).writeCursor src i.msgSize) :
    stored ram i r (u + 1) ++ [bytes ram₁ src i.msgSize]
      = bytes ram₂ data i.msgSize :: stored ram₂ i (advance i.maxMsgs r) (u + 1) := by
  have hcursor : (i.at r (u + 1)).writeCursor = (i.at (advance i.maxMsgs r) u).writeCursor := by
    show i.bufStart + i.msgSize * ((r + (u + 1)) % i.maxMsgs) = _
    rw [← mod_advance hr]
    rfl
  have hdata : bytes ram₂ data i.msgSize = bytes ram₁ data i.msgSize := by
    rw [hram₂]
    exact bytes_memcpy_of_apart (apart_writeCursor hi hdst)
  rw [hdata, hram₂, hcursor, stored_put hu, stored_get hi hr hdst hram₁]
  rfl

end Buffer

section Equations

variable {Tid Mid Pid : Type} [Threads Tid]
variable [DecidableEq Mid] [DecidableEq Pid]
variable {cfg : Config Tid Mid} {k : Kernel Tid Mid Pid Nat} {ram : Nat → UInt8}
variable {m : Mid} {data : Nat} {timeout : cfg.Timeout} {t : Tid}

section Released

variable (harg : zUser cfg.argsChecks (data ≠ 0) = true)
include harg

theorem kMsgqPut_handed (hu : u < i.maxMsgs) (ht : (zUnpendFirstThread cfg k m).2 = some t) :
    kMsgqPut cfg k ram (i.at r u) m data timeout = ((zUnpendFirstThread cfg k m).1,
        memcpy ram (swapAddr (zUnpendFirstThread cfg k m).1 t) data i.msgSize, i.at r u,
        some 0) := by
  have hused : (i.at r u).usedMsgs < (i.at r u).maxMsgs := hu
  simp only [kMsgqPut, harg, Bool.not_true, Bool.false_eq_true, if_false, hused, if_true, ht]
  rfl

theorem kMsgqPut_stored (hi : Fresh i) (hu : u < i.maxMsgs)
    (ht : (zUnpendFirstThread cfg k m).2 = none) :
    kMsgqPut cfg k ram (i.at r u) m data timeout = ((zUnpendFirstThread cfg k m).1,
        memcpy ram (i.at r u).writeCursor data i.msgSize, i.at r (u + 1), some 0) := by
  have hused : (i.at r u).usedMsgs < (i.at r u).maxMsgs := hu
  rw [← at_stored hi hu]
  simp only [kMsgqPut, harg, Bool.not_true, Bool.false_eq_true, if_false, hused, if_true, ht]
  rfl

theorem kMsgqGet_taken (hi : Fresh i) (hr : r < i.maxMsgs)
    (ht : (zUnpendFirstThread cfg k m).2 = none) :
    kMsgqGet cfg k ram (i.at r (u + 1)) m data timeout = ((zUnpendFirstThread cfg k m).1,
        memcpy ram data (i.at r (u + 1)).readCursor i.msgSize,
        i.at (advance i.maxMsgs r) u, some 0) := by
  have hpos : 0 < (i.at r (u + 1)).usedMsgs := Nat.succ_pos u
  rw [← at_taken hi hr]
  simp only [kMsgqGet, harg, Bool.not_true, Bool.false_eq_true, if_false, hpos, if_true, ht]
  rfl

theorem kMsgqGet_refilled (hi : Fresh i) (hr : r < i.maxMsgs)
    (ht : (zUnpendFirstThread cfg k m).2 = some t) :
    kMsgqGet cfg k ram (i.at r (u + 1)) m data timeout = ((zUnpendFirstThread cfg k m).1,
        memcpy (memcpy ram data (i.at r (u + 1)).readCursor i.msgSize)
          (i.at r (u + 1)).writeCursor (swapAddr (zUnpendFirstThread cfg k m).1 t) i.msgSize,
        i.at (advance i.maxMsgs r) (u + 1), some 0) := by
  have hpos : 0 < (i.at r (u + 1)).usedMsgs := Nat.succ_pos u
  rw [← at_refilled hi hr]
  simp only [kMsgqGet, harg, Bool.not_true, Bool.false_eq_true, if_false, hpos, if_true, ht]
  rfl

theorem kMsgqPut_waits {q : Msgq} (hu : ¬ q.usedMsgs < q.maxMsgs) (hn : timeout ≠ kNoWait cfg) :
    kMsgqPut cfg k ram q m data timeout = ((zPendCurrentOn cfg (k.modThread k.current
          fun th => { th with swapData := some data }) (some m) timeout).1, ram, q,
        (zPendCurrentOn cfg (k.modThread k.current
          fun th => { th with swapData := some data }) (some m) timeout).2) := by
  simp only [kMsgqPut, harg, Bool.not_true, Bool.false_eq_true, if_false, hu, if_neg hn]

theorem kMsgqGet_waits {q : Msgq} (hu : ¬ 0 < q.usedMsgs) (hn : timeout ≠ kNoWait cfg) :
    kMsgqGet cfg k ram q m data timeout = ((zPendCurrentOn cfg (k.modThread k.current
          fun th => { th with swapData := some data }) (some m) timeout).1, ram, q,
        (zPendCurrentOn cfg (k.modThread k.current
          fun th => { th with swapData := some data }) (some m) timeout).2) := by
  simp only [kMsgqGet, harg, Bool.not_true, Bool.false_eq_true, if_false, hu, if_neg hn]

end Released

theorem kMsgqPut_fails {q : Msgq} (h : zUser cfg.argsChecks (data ≠ 0) = false
      ∨ ¬ q.usedMsgs < q.maxMsgs ∧ timeout = kNoWait cfg) :
    ∃ ret : Int, ret ≠ 0 ∧ kMsgqPut cfg k ram q m data timeout = (k, ram, q, some ret) := by
  cases harg : zUser cfg.argsChecks (data ≠ 0) with
  | false =>
    refine ⟨-EINVAL, by decide, ?_⟩
    simp only [kMsgqPut, harg, Bool.not_false, if_true]
  | true =>
    obtain ⟨hu, hn⟩ := h.resolve_left fun hc => nomatch harg.symm.trans hc
    refine ⟨-ENOMEM, by decide, ?_⟩
    simp only [kMsgqPut, harg, Bool.not_true, Bool.false_eq_true, if_false, hu, if_pos hn]

theorem kMsgqGet_fails {q : Msgq} (h : zUser cfg.argsChecks (data ≠ 0) = false
      ∨ ¬ 0 < q.usedMsgs ∧ timeout = kNoWait cfg) :
    ∃ ret : Int, ret ≠ 0 ∧ kMsgqGet cfg k ram q m data timeout = (k, ram, q, some ret) := by
  cases harg : zUser cfg.argsChecks (data ≠ 0) with
  | false =>
    refine ⟨-EINVAL, by decide, ?_⟩
    simp only [kMsgqGet, harg, Bool.not_false, if_true]
  | true =>
    obtain ⟨hu, hn⟩ := h.resolve_left fun hc => nomatch harg.symm.trans hc
    refine ⟨-ENOMSG, by decide, ?_⟩
    simp only [kMsgqGet, harg, Bool.not_true, Bool.false_eq_true, if_false, hu, if_pos hn]

end Equations

structure Waiter where
  role : Role
  addr : Nat
  stamp : Nat
  issued : List UInt8
deriving DecidableEq, Repr

structure Channel (i : Msgq) (ram : Nat → UInt8) (accepted : List (Nat × List UInt8))
    (delivered : List (List UInt8)) (clock : Nat) (l : List Waiter) (r u : Nat) : Prop where
  lt : r < i.maxMsgs
  le : u ≤ i.maxMsgs
  content : accepted.map Prod.snd = delivered ++ stored ram i r u
  roles : ∀ x ∈ l, x.role = .get ∧ u = 0 ∨ x.role = .put ∧ u = i.maxMsgs
  outside : ∀ x ∈ l, Outside i x.addr i.msgSize
  held : ∀ x ∈ l, bytes ram x.addr i.msgSize = x.issued
  order : accepted.Pairwise fun a b => a.1 < b.1
  early : ∀ a ∈ accepted, a.1 < clock
  sorted : l.Pairwise fun x y => x.stamp < y.stamp
  fresh : ∀ x ∈ l, x.stamp < clock
  /-- producers that wait issued their puts after those that were accepted -/
  later : u = i.maxMsgs → ∀ a ∈ accepted, ∀ x ∈ l, a.1 < x.stamp

section Channel

variable {ram ram' : Nat → UInt8} {accepted : List (Nat × List UInt8)}
variable {delivered : List (List UInt8)} {clock data : Nat} {l l' : List Waiter} {x : Waiter}

theorem Channel.empty (hr : r < i.maxMsgs) : Channel i ram [] [] clock [] r 0 :=
  ⟨hr, Nat.zero_le _, rfl, fun _ hx => (nomatch hx), fun _ hx => (nomatch hx),
    fun _ hx => (nomatch hx), List.Pairwise.nil, fun _ ha => (nomatch ha), List.Pairwise.nil,
    fun _ hx => (nomatch hx), fun _ _ ha => (nomatch ha)⟩

theorem Channel.waiters (h : Channel i ram accepted delivered clock l r u) :
    (∀ x ∈ l, x.role = .get) ∧ u = 0 ∨ (∀ x ∈ l, x.role = .put) ∧ u = i.maxMsgs ∨ l = [] := by
  have hlt := h.lt
  by_cases hzero : u = 0
  · refine Or.inl ⟨fun x hx => ((h.roles x hx).resolve_right fun hc => ?_).1, hzero⟩
    have := hc.2
    omega
  · by_cases hmax : u = i.maxMsgs
    · exact Or.inr (Or.inl
        ⟨fun x hx => ((h.roles x hx).resolve_left fun hc => hzero hc.2).1, hmax⟩)
    · refine Or.inr (Or.inr (eq_nil_iff_forall_not_mem.mpr fun x hx => ?_))
      rcases h.roles x hx with hr | hr
      · exact hzero hr.2
      · exact hmax hr.2

theorem Channel.frame (h : Channel i ram accepted delivered clock l r u) {clock' : Nat}
    (hclock : clock ≤ clock') (hsub : l'.Sublist l)
    (hslot : ∀ j < i.maxMsgs, slot ram' i.bufStart i.msgSize j = slot ram i.bufStart i.msgSize j)
    (hbytes : ∀ x ∈ l', bytes ram' x.addr i.msgSize = bytes ram x.addr i.msgSize) :
    Channel i ram' accepted delivered clock' l' r u := by
  refine ⟨h.lt, h.le, ?_, fun x hx => h.roles x (hsub.subset hx),
    fun x hx => h.outside x (hsub.subset hx), ?_, h.order, ?_, h.sorted.sublist hsub, ?_,
    fun hu a ha x hx => h.later hu a ha x (hsub.subset hx)⟩
  · rw [stored_congr (Nat.lt_of_le_of_lt (Nat.zero_le r) h.lt) hslot]
    exact h.content
  · intro x hx
    rw [hbytes x hx]
    exact h.held x (hsub.subset hx)
  · exact fun a ha => Nat.lt_of_lt_of_le (h.early a ha) hclock
  · exact fun x hx => Nat.lt_of_lt_of_le (h.fresh x (hsub.subset hx)) hclock

theorem Channel.block (h : Channel i ram accepted delivered clock l r u)
    (hrole : x.role = .get ∧ u = 0 ∨ x.role = .put ∧ u = i.maxMsgs)
    (hout : Outside i x.addr i.msgSize) (hstamp : x.stamp = clock)
    (hissued : x.issued = bytes ram x.addr i.msgSize) :
    Channel i ram accepted delivered (clock + 1) (l ++ [x]) r u := by
  have hmem : ∀ {P : Waiter → Prop}, (∀ y ∈ l, P y) → P x → ∀ y ∈ l ++ [x], P y := by
    intro P hl hx y hy
    rcases mem_append.mp hy with hy | hy
    · exact hl y hy
    · rw [mem_singleton.mp hy]
      exact hx
  refine ⟨h.lt, h.le, h.content, hmem h.roles hrole, hmem h.outside hout,
    hmem h.held hissued.symm, h.order, fun a ha => Nat.lt_succ_of_lt (h.early a ha), ?_,
    hmem (fun y hy => Nat.lt_succ_of_lt (h.fresh y hy)) (by rw [hstamp]; exact Nat.lt_succ_self _),
    ?_⟩
  · rw [pairwise_append]
    refine ⟨h.sorted, pairwise_singleton _ _, ?_⟩
    intro y hy z hz
    rw [mem_singleton.mp hz, hstamp]
    exact h.fresh y hy
  · intro hu a ha
    refine hmem (h.later hu a ha) ?_
    rw [hstamp]
    exact h.early a ha

theorem Channel.accept (h : Channel i ram accepted delivered clock l r u) {clock' : Nat}
    (hclock : clock ≤ clock') {r' u' stamp : Nat} {msg : List UInt8}
    {delivered' : List (List UInt8)} (hlt : r' < i.maxMsgs) (hle : u' ≤ i.maxMsgs)
    (hcontent : accepted.map Prod.snd ++ [msg] = delivered' ++ stored ram' i r' u')
    (hsub : l'.Sublist l) (hstay : l' ≠ [] → u' = u)
    (hbytes : ∀ x ∈ l', bytes ram' x.addr i.msgSize = bytes ram x.addr i.msgSize)
    (hnew : ∀ a ∈ accepted, a.1 < stamp) (hstamp : stamp < clock')
    (hlater : u' = i.maxMsgs → ∀ x ∈ l', stamp < x.stamp) :
    Channel i ram' (accepted ++ [(stamp, msg)]) delivered' clock' l' r' u' := by
  have hu : ∀ x ∈ l', u' = u := fun x hx => hstay (ne_nil_of_mem hx)
  refine ⟨hlt, hle, ?_, ?_, fun x hx => h.outside x (hsub.subset hx), ?_, ?_, ?_,
    h.sorted.sublist hsub, ?_, ?_⟩
  · rw [map_append]
    exact hcontent
  · intro x hx
    rw [hu x hx]
    exact h.roles x (hsub.subset hx)
  · intro x hx
    rw [hbytes x hx]
    exact h.held x (hsub.subset hx)
  · rw [pairwise_append]
    refine ⟨h.order, pairwise_singleton _ _, ?_⟩
    intro a ha b hb
    rw [mem_singleton.mp hb]
    exact hnew a ha
  · intro a ha
    rcases mem_append.mp ha with ha | ha
    · exact Nat.lt_of_lt_of_le (h.early a ha) hclock
    · rw [mem_singleton.mp ha]
      exact hstamp
  · exact fun x hx => Nat.lt_of_lt_of_le (h.fresh x (hsub.subset hx)) hclock
  · intro hmax a ha x hx
    rcases mem_append.mp ha with ha | ha
    · exact h.later ((hu x hx).symm.trans hmax) a ha x (hsub.subset hx)
    · rw [mem_singleton.mp ha]
      exact hlater hmax x hx

theorem Channel.handed (h : Channel i ram accepted delivered clock (x :: l) r u)
    (hu : u < i.maxMsgs) (hram : ram' = memcpy ram x.addr data i.msgSize)
    (hrest : ∀ y ∈ l, Apart x.addr i.msgSize y.addr i.msgSize) :
    x.role = .get ∧ Channel i ram' (accepted ++ [(clock, bytes ram data i.msgSize)])
      (delivered ++ [bytes ram' x.addr i.msgSize]) (clock + 1) l r u := by
  obtain ⟨hrole, hzero⟩ := (h.roles x mem_cons_self).resolve_right
    fun hc => Nat.ne_of_lt hu hc.2
  refine ⟨hrole, h.accept (Nat.le_succ _) h.lt h.le ?_ (sublist_cons_self ..)
    (fun _ => rfl) ?_ h.early (Nat.lt_succ_self _) fun hc => absurd hc (Nat.ne_of_lt hu)⟩
  · have hc := h.content
    rw [hzero, stored, window_zero, append_nil] at hc
    rw [hc, hzero, stored, window_zero, append_nil, hram, bytes_memcpy_self]
  · intro y hy
    rw [hram]
    exact bytes_memcpy_of_apart (hrest y hy)

theorem Channel.store (h : Channel i ram accepted delivered clock [] r u) (hu : u < i.maxMsgs)
    (hram : ram' = memcpy ram (i.at r u).writeCursor data i.msgSize) :
    Channel i ram' (accepted ++ [(clock, bytes ram data i.msgSize)]) delivered (clock + 1) []
      r (u + 1) := by
  refine h.accept (Nat.le_succ _) h.lt hu ?_ (List.Sublist.refl _) (fun hc => absurd rfl hc)
    (fun y hy => nomatch hy) h.early (Nat.lt_succ_self _) fun _ y hy => nomatch hy
  rw [hram, stored_put hu, h.content, append_assoc]

theorem Channel.take (h : Channel i ram accepted delivered clock [] r (u + 1)) (hi : Fresh i)
    (hdst : Outside i data i.msgSize)
    (hram : ram' = memcpy ram data (i.at r (u + 1)).readCursor i.msgSize) :
    Channel i ram' accepted (delivered ++ [bytes ram' data i.msgSize]) (clock + 1) []
      (advance i.maxMsgs r) u := by
  refine ⟨advance_lt h.lt, Nat.le_of_succ_le h.le, ?_, fun y hy => (nomatch hy),
    fun y hy => (nomatch hy), fun y hy => (nomatch hy), h.order,
    fun a ha => Nat.lt_succ_of_lt (h.early a ha), List.Pairwise.nil, fun y hy => (nomatch hy),
    fun _ _ _ y hy => nomatch hy⟩
  rw [h.content, stored_get hi h.lt hdst hram, append_assoc]
  rfl

theorem Channel.refill (h : Channel i ram accepted delivered clock (x :: l) r (u + 1))
    (hi : Fresh i) (hdst : Outside i data i.msgSize)
    (hun : ∀ y ∈ x :: l, Apart data i.msgSize y.addr i.msgSize) {ram₁ ram₂ : Nat → UInt8}
    (hram₁ : ram₁ = memcpy ram data (i.at r (u + 1)).readCursor i.msgSize)
    (hram₂ : ram₂ = memcpy ram₁ (i.at r (u + 1)).writeCursor x.addr i.msgSize) :
    x.role = .put ∧ Channel i ram₂ (accepted ++ [(x.stamp, x.issued)])
      (delivered ++ [bytes ram₂ data i.msgSize]) (clock + 1) l (advance i.maxMsgs r)
      (u + 1) := by
  have hx : x ∈ x :: l := mem_cons_self ..
  obtain ⟨hrole, hmax⟩ := (h.roles x hx).resolve_left fun hc => nomatch hc.2
  have hcopy : ∀ y ∈ x :: l, bytes ram₁ y.addr i.msgSize = bytes ram y.addr i.msgSize := by
    intro y hy
    rw [hram₁]
    exact bytes_memcpy_of_apart (hun y hy)
  refine ⟨hrole, h.accept (Nat.le_succ _) (advance_lt h.lt) h.le ?_
    (sublist_cons_self ..) (fun _ => rfl) ?_ (fun a ha => h.later hmax a ha x hx)
    (Nat.lt_succ_of_lt (h.fresh x hx)) fun _ y hy => (pairwise_cons.mp h.sorted).1 y hy⟩
  · have hmsg : x.issued = bytes ram₁ x.addr i.msgSize := by
      rw [hcopy x hx, h.held x hx]
    rw [h.content, hmsg, append_assoc, append_assoc,
      stored_refill hi h.lt (Nat.lt_of_succ_le h.le) hdst hram₁ hram₂]
    rfl
  · intro y hy
    have hy' := mem_cons_of_mem x hy
    rw [← hcopy y hy', hram₂]
    exact bytes_memcpy_of_apart (apart_writeCursor hi (h.outside y hy'))

end Channel

end AvrtosMsgq
