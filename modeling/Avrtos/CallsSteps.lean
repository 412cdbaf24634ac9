import Avrtos.Calls

/-! # What kernel calls do to STOPPED threads

    `Keeps` says that a step keeps the invariant and the records of STOPPED threads. -/

namespace AvrtosKernel

open Function AvrtosDefines AvrtosDlist AvrtosTqueue Cells LinkedRing LinkedChain DeltaList

variable {Tid Qid D κ : Type} [Threads Tid]
variable [DecidableEq Qid]

def Calls.called {β : Type} (c : Calls Tid Qid D κ) (q : Qid) (call : κ)
    (k' : Kernel Tid Qid Empty D) : Option β → Calls Tid Qid D κ
  | some _ => { c with ker := k' }
  | none => (c.leave k' q call).resume

structure Keeps (cfg : Config Tid Qid) (c c' : Calls Tid Qid D κ) : Prop where
  inv : ∃ w, CallsInv cfg c' w
  stopped : ∀ t, (c.ker.thread t).state = .stopped → c'.ker.thread t = c.ker.thread t

variable {cfg : Config Tid Qid} {c c' c'' : Calls Tid Qid D κ} {w : Qid → List Tid}
variable {t : Tid}

omit [DecidableEq Qid] in
theorem Calls.called_setKer {β : Type} {k₁ : Kernel Tid Qid Empty D}
    (hcur : k₁.current = c.ker.current) (q : Qid) (call : κ) (k' : Kernel Tid Qid Empty D)
    (ret : Option β) :
    ({ c with ker := k₁ } : Calls Tid Qid D κ).called q call k' ret = c.called q call k' ret := by
  cases ret with
  | some r => rfl
  | none =>
    show (Calls.leave _ k' q call).resume = (c.leave k' q call).resume
    rw [Calls.leave, hcur]
    rfl

theorem Keeps.trans (h : Keeps cfg c c') (h' : Keeps cfg c' c'') : Keeps cfg c c'' := by
  refine ⟨h'.inv, ?_⟩
  intro t ht
  have h1 := h.stopped t ht
  rw [← h1]
  refine h'.stopped t ?_
  rw [h1]
  exact ht

section Steps

variable (h : CallsInv cfg c w)
include h

theorem CallsInv.current_not_stopped : (c.ker.thread c.ker.current).state ≠ .stopped := by
  rcases h.current_state with hs | hc
  · rw [hs]
    exact fun hc => nomatch hc
  · rw [(h.idle _).mpr hc]
    exact fun hc => nomatch hc

theorem CallsInv.keeps_refl : Keeps cfg c c := ⟨⟨w, h⟩, fun _ _ => rfl⟩

theorem CallsInv.keeps_unpend (q : Qid) :
    Keeps cfg c { c with ker := (zUnpendFirstThread cfg c.ker q).1 } := by
  obtain ⟨-, hinv, hth, -⟩ := h.unpend q
  refine ⟨⟨_, hinv⟩, ?_⟩
  intro t ht
  refine (hth t).trans (if_neg ?_)
  intro hhead
  have hp := h.pending_of_mem (List.mem_of_mem_head? hhead)
  rw [ht] at hp
  exact nomatch hp

theorem CallsInv.keeps_unpendAndSwap (q : Qid) (data : Option D) :
    Keeps cfg c { c with ker := (zUnpendFirstAndSwap cfg c.ker q data).1 } := by
  obtain ⟨-, hinv, hth, -⟩ := h.unpendAndSwap q data
  refine ⟨⟨_, hinv⟩, ?_⟩
  intro t ht
  refine (hth t).trans (if_neg ?_)
  intro hhead
  have hp := h.pending_of_mem (List.mem_of_mem_head? hhead)
  rw [ht] at hp
  exact nomatch hp

theorem CallsInv.keeps_unpendAll {mark : Thread D → Thread D} (hm : Marks mark) (q : Qid) :
    Keeps cfg c { c with ker := (zUnpendAllLoop cfg q mark (Fintype.card Tid) c.ker 0).1 } := by
  obtain ⟨hinv, hth, -⟩ := h.unpendAll hm q
  refine ⟨⟨_, hinv⟩, ?_⟩
  intro t ht
  refine (hth t).trans (if_neg ?_)
  intro hmem
  have hp := h.pending_of_mem hmem
  rw [ht] at hp
  exact nomatch hp

theorem CallsInv.keeps_schedEnter : Keeps cfg c { c with ker := zSchedEnter cfg c.ker } := by
  obtain ⟨E, hE, hinv, hth, -⟩ := h.schedEnter
  refine ⟨⟨_, hinv⟩, ?_⟩
  intro t ht
  refine (hth t).trans (if_neg ?_)
  intro hmem
  have hp := hE t hmem
  rw [ht] at hp
  exact nomatch hp

/-- The running thread leaves data in its own record. -/
theorem CallsInv.keeps_swap (data : Option D) : Keeps cfg c { c with
      ker := c.ker.modThread c.ker.current fun th => { th with swapData := data } } := by
  refine ⟨⟨w, h.swap _ data⟩, ?_⟩
  intro t ht
  refine update_of_ne ?_ ..
  rintro rfl
  exact h.current_not_stopped ht

/-- A switch, after which the thread that runs finishes its call. -/
theorem CallsInv.keeps_yield :
    Keeps cfg c ({ c with ker := zScheduler c.ker } : Calls Tid Qid D κ).resume := by
  obtain ⟨hbase, hth⟩ := h.yield
  refine ⟨⟨w, hbase.resume⟩, ?_⟩
  intro t ht
  refine (hth t).trans (if_neg ?_)
  rintro rfl
  exact h.current_not_stopped ht

/-- A call that may block. -/
theorem CallsInv.keeps_pendOn (q : Qid) (call : κ) (timeout : cfg.Timeout)
    (hidle : timeout ≠ kNoWait cfg → c.ker.current ≠ cfg.idle) :
    Keeps cfg c (c.called q call (zPendCurrentOn cfg c.ker (some q) timeout).1
      (zPendCurrentOn cfg c.ker (some q) timeout).2) := by
  by_cases hn : timeout = kNoWait cfg
  · have hr : zPendCurrentOn cfg c.ker (some q) timeout = (c.ker, some (-EAGAIN)) := by
      rw [zPendCurrentOn, if_pos hn]
    rw [hr]
    exact h.keeps_refl
  · obtain ⟨hnone, hbase, hth, -⟩ := h.leave (hidle hn) q call hn
    rw [hnone]
    refine ⟨⟨_, hbase.resume⟩, ?_⟩
    intro t ht
    refine (hth t).trans (if_neg ?_)
    rintro rfl
    exact h.current_not_stopped ht

theorem CallsInv.keeps_sleep (hc : c.ker.current ≠ cfg.idle) (timeout : cfg.Timeout)
    (hself : timeout ≠ kForever cfg → SelfLinked c.ker.wait (.handle c.ker.current)) :
    Keeps cfg c ({ c with ker := kSleep cfg c.ker timeout } : Calls Tid Qid D κ).resume := by
  obtain ⟨hbase, hth⟩ := h.sleep hc timeout hself
  refine ⟨⟨w, hbase.resume⟩, ?_⟩
  intro t ht
  refine (hth t).trans (if_neg ?_)
  rintro rfl
  exact h.current_not_stopped ht

end Steps

section Threads

theorem CallsInv.start (h : CallsInv cfg c w) (t : Tid) :
    CallsInv cfg { c with ker := (kThreadStart cfg c.ker t).1 } w
      ∧ ∀ x, x ≠ t → (kThreadStart cfg c.ker t).1.thread x = c.ker.thread x := by
  by_cases hs : (c.ker.thread t).state = .stopped
  · obtain ⟨ring, timeq, hk⟩ := h.kernel
    obtain ⟨hinv, hth, -, hcur, -⟩ := hk.start hs
    have hw : ∀ q, t ∉ w q := by
      intro q hq
      have hp := h.pending_of_mem hq
      rw [hs] at hp
      exact nomatch hp
    have hother : ∀ x, x ≠ t → (kThreadStart cfg c.ker t).1.thread x = c.ker.thread x := by
      intro x hx
      rw [hth, update_of_ne hx]
    refine ⟨?_, hother⟩
    refine h.release (fun x => x = t) ⟨_, _, hinv⟩ ?_ ?_ ?_ ?_ hcur
    · intro q x
      refine ⟨fun hx => ⟨hx, ?_⟩, fun hx => hx.1⟩
      rintro rfl
      exact hw q hx
    · exact fun q => List.Sublist.refl _
    · rintro x rfl
      rw [hth, update_self]
      rfl
    · intro x hx
      rw [hother x hx]
  · have hk : kThreadStart cfg c.ker t = (c.ker, -EAGAIN) := by
      rw [kThreadStart, if_pos hs]
    rw [hk]
    exact ⟨h, fun _ _ => rfl⟩

/-- The threads that join `t`. -/
def joinersOf (cfg : Config Tid Qid) (w : Qid → List Tid) (t : Tid) : List Tid :=
  match cfg.joinWaitqueue with
  | some join => w (join t)
  | none => []

def afterJoiners (cfg : Config Tid Qid) (w : Qid → List Tid) (t : Tid) :
    Qid → List Tid :=
  match cfg.joinWaitqueue with
  | some join => update w (join t) []
  | none => w

theorem handles_afterJoiners (w : Qid → List Tid) (t : Tid) :
    (handles (afterJoiners cfg w t) : Qid → List (WNode Tid Qid Empty))
      = afterJoin cfg (handles w) t := by
  unfold afterJoiners afterJoin
  cases cfg.joinWaitqueue with
  | none => rfl
  | some join => exact handles_update w (join t) []

theorem CallsBase.mem_afterJoiners (h : CallsBase cfg c w) (q : Qid) (x : Tid) :
    x ∈ afterJoiners cfg w t q ↔ x ∈ w q ∧ x ∉ joinersOf cfg w t := by
  unfold afterJoiners joinersOf
  cases cfg.joinWaitqueue with
  | none => exact ⟨fun hx => ⟨hx, fun hc => nomatch hc⟩, fun hx => hx.1⟩
  | some join =>
    show x ∈ update w (join t) [] q ↔ x ∈ w q ∧ x ∉ w (join t)
    by_cases hq : q = join t
    · subst hq
      rw [update_self]
      exact ⟨fun hx => (nomatch hx), fun hx => absurd hx.1 hx.2⟩
    · rw [update_of_ne hq]
      exact ⟨fun hx => ⟨hx, fun hc => hq (h.disjoint hc hx)⟩, fun hx => hx.1⟩

theorem afterJoiners_sublist (w : Qid → List Tid) (t : Tid) (q : Qid) :
    (afterJoiners cfg w t q).Sublist (w q) := by
  unfold afterJoiners
  cases cfg.joinWaitqueue with
  | none => exact List.Sublist.refl _
  | some join =>
    show (update w (join t) [] q).Sublist (w q)
    by_cases hq : q = join t
    · subst hq
      rw [update_self]
      exact List.nil_sublist _
    · rw [update_of_ne hq]

theorem CallsInv.abort (h : CallsInv cfg c w) (hi : t ≠ cfg.idle)
    (hs : (c.ker.thread t).state ≠ .stopped) (hw : ∀ q, ¬ c.Waiting q t)
    (hc : Suspendable cfg c.ker t) :
    CallsBase cfg { c with ker := (kThreadAbort cfg c.ker t).1 } (afterJoiners cfg w t)
      ∧ (kThreadAbort cfg c.ker t).2 = 0
      ∧ ((kThreadAbort cfg c.ker t).1.thread t).state = .stopped
      ∧ (∀ x, (kThreadAbort cfg c.ker t).1.thread x =
          if x = t then
            (if t = c.ker.current then (c.ker.thread t).stop.clearFlags
              else (c.ker.thread t).stop)
          else if x ∈ joinersOf cfg w t then (c.ker.thread x).woken
          else c.ker.thread x)
      ∧ (kThreadAbort cfg c.ker t).1.current
          = (if t = c.ker.current then (kThreadAbort cfg c.ker t).1.runQueue
            else c.ker.current) := by
  obtain ⟨ring, timeq, hk⟩ := h.kernel
  have hnw : ∀ q, t ∉ w q := fun q hq => hw q ((h.waits q t).mp hq)
  have hu : Unqueued (handles w : Qid → List (WNode Tid Qid Empty)) (.handle t) := by
    intro q hq
    obtain ⟨x, hx, hxt⟩ := List.mem_map.mp hq
    injection hxt with hxt
    exact hnw q (hxt ▸ hx)
  have hj : Joiners cfg (⟨ring, timeq, handles w⟩ : Shape Tid Qid Empty) t (joinersOf cfg w t) := by
    unfold Joiners joinersOf
    cases cfg.joinWaitqueue with
    | none => rfl
    | some join => rfl
  obtain ⟨ring', timeq', hinv, hret, hth, hcur, -⟩ :=
    hk.abort (fun hc' => hi ((h.idle t).mp hc')) hs hu hc hj
  have hstop : ((kThreadAbort cfg c.ker t).1.thread t).state = .stopped := by
    rw [hth, if_pos rfl]
    split_ifs <;> rfl
  refine ⟨⟨⟨ring', timeq', ?_⟩, ?_, ?_, h.fresh, h.idleFree⟩, hret, hstop, hth, hcur⟩
  · rw [handles_afterJoiners]
    exact hinv
  · intro q x
    rw [h.mem_afterJoiners, h.waits]
    show c.Waiting q x ∧ _ ↔ ((kThreadAbort cfg c.ker t).1.thread x).state = .pending
      ∧ c.queue x = some q
    by_cases hx : x = t
    · subst hx
      rw [hstop]
      exact ⟨fun hc' => absurd hc'.1 (hw q), fun hc' => nomatch hc'.1⟩
    · by_cases hxj : x ∈ joinersOf cfg w t
      · rw [hth, if_neg hx, if_pos hxj]
        exact ⟨fun hc' => absurd hxj hc'.2, fun hc' => nomatch hc'.1⟩
      · rw [hth, if_neg hx, if_neg hxj]
        exact ⟨fun hc' => hc'.1, fun hc' => ⟨hc', hxj⟩⟩
  · exact fun q => (h.order q).sublist (afterJoiners_sublist w t q)

theorem CallsBase.joiner_pending (h : CallsBase cfg c w) {x : Tid}
    (hx : x ∈ joinersOf cfg w t) : (c.ker.thread x).state = .pending := by
  unfold joinersOf at hx
  cases hj : cfg.joinWaitqueue with
  | none =>
    rw [hj] at hx
    exact nomatch hx
  | some join =>
    rw [hj] at hx
    exact h.pending_of_mem hx

end Threads

end AvrtosKernel
