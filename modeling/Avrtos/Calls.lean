import Avrtos.Boot

/-! # Threads inside blocking calls

    `Calls` records the blocking call each thread is in; `CallsInv` is kept by every step of the
    kernel. -/

namespace AvrtosKernel

open Function List AvrtosDefines AvrtosDlist AvrtosTqueue Cells LinkedRing LinkedChain DeltaList

structure CallFrame (Qid κ : Type) where
  queue : Qid
  stamp : Nat
  call : κ
deriving DecidableEq, Repr

structure Calls (Tid Qid D κ : Type) where
  ker : Kernel Tid Qid Empty D
  frame : Tid → Option (CallFrame Qid κ)
  clock : Nat

variable {Tid Qid D κ : Type} [Threads Tid]
variable [DecidableEq Qid]

/-- When the thread blocked. -/
def Calls.stamp (c : Calls Tid Qid D κ) (t : Tid) : Nat :=
  ((c.frame t).map CallFrame.stamp).getD 0

def Calls.queue (c : Calls Tid Qid D κ) (t : Tid) : Option Qid :=
  (c.frame t).map CallFrame.queue

def Calls.Waiting (c : Calls Tid Qid D κ) (q : Qid) (t : Tid) : Prop :=
  (c.ker.thread t).state = .pending ∧ c.queue t = some q

instance (c : Calls Tid Qid D κ) (q : Qid) (t : Tid) : Decidable (c.Waiting q t) :=
  inferInstanceAs (Decidable (_ ∧ _))

def Calls.Granted (c : Calls Tid Qid D κ) (q : Qid) (t : Tid) : Prop :=
  (c.ker.thread t).state = .ready ∧ c.queue t = some q
    ∧ zPendResult (c.ker.thread t) = 0

instance (c : Calls Tid Qid D κ) (q : Qid) (t : Tid) : Decidable (c.Granted q t) :=
  inferInstanceAs (Decidable (_ ∧ _))

def Calls.granted (c : Calls Tid Qid D κ) (q : Qid) : Finset Tid :=
  Finset.univ.filter (c.Granted q)

def handles {Pid : Type} (w : Qid → List Tid) : Qid → List (WNode Tid Qid Pid) :=
  fun q => (w q).map .handle

omit [Threads Tid] in
theorem handles_update {Pid : Type} (w : Qid → List Tid) (q : Qid) (l : List Tid) :
    (handles (update w q l) : Qid → List (WNode Tid Qid Pid))
      = update (handles w) q (l.map .handle) := by
  funext q'
  by_cases hq : q' = q
  · subst hq
    rw [handles, update_self, update_self]
  · rw [handles, update_of_ne hq, update_of_ne hq, handles]

structure CallsBase (cfg : Config Tid Qid) (c : Calls Tid Qid D κ)
    (w : Qid → List Tid) : Prop where
  kernel : ∃ ring timeq, KInv cfg c.ker ⟨ring, timeq, handles w⟩
  waits : ∀ q t, t ∈ w q ↔ c.Waiting q t
  order : ∀ q, (w q).Pairwise fun a b => c.stamp a < c.stamp b
  fresh : ∀ t f, c.frame t = some f → f.stamp < c.clock
  idleFree : c.frame cfg.idle = none

structure CallsInv (cfg : Config Tid Qid) (c : Calls Tid Qid D κ)
    (w : Qid → List Tid) : Prop extends CallsBase cfg c w where
  running : c.frame c.ker.current = none

variable {cfg : Config Tid Qid} {c : Calls Tid Qid D κ} {w : Qid → List Tid}
variable {t : Tid} {q : Qid}

section Facts

theorem CallsBase.idle (h : CallsBase cfg c w) (t : Tid) :
    (c.ker.thread t).state = .idle ↔ t = cfg.idle := by
  obtain ⟨ring, timeq, hk⟩ := h.kernel
  exact hk.idle t

theorem CallsBase.current_state (h : CallsBase cfg c w) :
    (c.ker.thread c.ker.current).state = .ready ∨ c.ker.current = cfg.idle := by
  obtain ⟨ring, timeq, hk⟩ := h.kernel
  by_cases hc : c.ker.current = cfg.idle
  · exact Or.inr hc
  · exact Or.inl (hk.current_ready hc).1

theorem CallsBase.current_not_pending (h : CallsBase cfg c w) :
    (c.ker.thread c.ker.current).state ≠ .pending := by
  rcases h.current_state with hs | hc
  · rw [hs]
    exact fun hc => nomatch hc
  · rw [(h.idle _).mpr hc]
    exact fun hc => nomatch hc

theorem CallsBase.flags (h : CallsBase cfg c w) (hp : (c.ker.thread t).state = .pending) :
    (c.ker.thread t).timerExpired = false ∧ (c.ker.thread t).pendCanceled = false := by
  obtain ⟨ring, timeq, hk⟩ := h.kernel
  exact hk.flags t hp

theorem CallsBase.pending_of_mem (h : CallsBase cfg c w) (ht : t ∈ w q) :
    (c.ker.thread t).state = .pending := ((h.waits q t).mp ht).1

theorem CallsBase.current_notMem (h : CallsBase cfg c w) : c.ker.current ∉ w q :=
  fun hc => h.current_not_pending (h.pending_of_mem hc)

theorem CallsBase.nodup (h : CallsBase cfg c w) : (w q).Nodup := by
  refine (h.order q).imp ?_
  intro a b hab heq
  rw [heq] at hab
  exact Nat.lt_irrefl _ hab

theorem CallsBase.disjoint (h : CallsBase cfg c w) {q' : Qid} (ht : t ∈ w q)
    (ht' : t ∈ w q') : q' = q := by
  have h1 := ((h.waits q t).mp ht).2
  have h2 := ((h.waits q' t).mp ht').2
  rw [h1] at h2
  injection h2 with h2
  exact h2.symm

omit [Threads Tid] [DecidableEq Qid] in
theorem Calls.stamp_congr {c' : Calls Tid Qid D κ} (hf : c'.frame t = c.frame t) :
    c'.stamp t = c.stamp t := by
  rw [Calls.stamp, hf]
  rfl

omit [Threads Tid] [DecidableEq Qid] in
theorem Calls.queue_congr {c' : Calls Tid Qid D κ} (hf : c'.frame t = c.frame t) :
    c'.queue t = c.queue t := by
  rw [Calls.queue, hf]
  rfl

theorem CallsBase.stamp_lt (h : CallsBase cfg c w) (ht : t ∈ w q) : c.stamp t < c.clock := by
  obtain ⟨f, hf, -⟩ := Option.map_eq_some_iff.mp ((h.waits q t).mp ht).2
  rw [Calls.stamp, hf]
  exact h.fresh t f hf

end Facts

section Release

variable {k' : Kernel Tid Qid Empty D} {w' : Qid → List Tid}

theorem CallsInv.release (R : Tid → Prop) (h : CallsInv cfg c w)
    (hk : ∃ ring timeq, KInv cfg k' ⟨ring, timeq, handles w'⟩)
    (hmem : ∀ q t, t ∈ w' q ↔ t ∈ w q ∧ ¬ R t)
    (hsub : ∀ q, (w' q).Sublist (w q))
    (hready : ∀ t, R t → (k'.thread t).state = .ready)
    (hsame : ∀ t, ¬ R t → (k'.thread t).state = (c.ker.thread t).state)
    (hcur : k'.current = c.ker.current) : CallsInv cfg { c with ker := k' } w' := by
  refine ⟨⟨hk, ?_, fun q => (h.order q).sublist (hsub q), h.fresh, h.idleFree⟩, ?_⟩
  · intro q t
    rw [hmem, h.waits]
    show c.Waiting q t ∧ ¬ R t ↔ (k'.thread t).state = .pending ∧ c.queue t = some q
    by_cases hR : R t
    · rw [hready t hR]
      exact ⟨fun hc => absurd hR hc.2, fun hc => nomatch hc.1⟩
    · rw [hsame t hR]
      exact ⟨fun hc => hc.1, fun hc => ⟨hc, hR⟩⟩
  · show c.frame k'.current = none
    rw [hcur]
    exact h.running

theorem CallsInv.unpend_nobody (h : CallsInv cfg c w) (hq : w q = []) :
    (zUnpendFirstThread cfg c.ker q).2 = none
      ∧ CallsInv cfg { c with ker := (zUnpendFirstThread cfg c.ker q).1 } w
      ∧ (∀ x, (zUnpendFirstThread cfg c.ker q).1.thread x = c.ker.thread x)
      ∧ (zUnpendFirstThread cfg c.ker q).1.current = c.ker.current := by
  obtain ⟨ring, timeq, hk⟩ := h.kernel
  have hq' : handles w q = ([] : List (WNode Tid Qid Empty)) := by
    rw [handles, hq]
    rfl
  obtain ⟨hnone, hinv, hthread, hcur, -, -⟩ := hk.toKBase.unpend_nil hq'
  refine ⟨hnone, ?_, fun x => congrFun hthread x, hcur⟩
  refine h.release (fun _ => False) ⟨ring, timeq, hinv, ?_⟩ ?_ ?_ ?_ ?_ hcur
  · rw [hcur]
    exact hk.current
  · exact fun q t => ⟨fun ht => ⟨ht, id⟩, fun ht => ht.1⟩
  · exact fun q => List.Sublist.refl _
  · exact fun t ht => ht.elim
  · intro t _
    rw [hthread]

theorem CallsInv.unpend_first (h : CallsInv cfg c w) {rest : List Tid} (hq : w q = t :: rest) :
    (zUnpendFirstThread cfg c.ker q).2 = some t
      ∧ CallsInv cfg { c with ker := (zUnpendFirstThread cfg c.ker q).1 } (update w q rest)
      ∧ (∀ x, (zUnpendFirstThread cfg c.ker q).1.thread x
          = if t = x then (c.ker.thread x).woken else c.ker.thread x)
      ∧ (zUnpendFirstThread cfg c.ker q).1.current = c.ker.current := by
  obtain ⟨ring, timeq, hk⟩ := h.kernel
  have hq' : handles w q = (WNode.handle t :: rest.map .handle : List (WNode Tid Qid Empty)) := by
    rw [handles, hq]
    rfl
  obtain ⟨hsome, hinv, hthread, hcur, -, -⟩ := hk.toKBase.unpend_handle hq'
  have hnd := h.nodup (q := q)
  rw [hq] at hnd
  have hth : ∀ x, (zUnpendFirstThread cfg c.ker q).1.thread x
      = if t = x then (c.ker.thread x).woken else c.ker.thread x := by
    intro x
    rw [hthread, update_apply]
    by_cases hx : t = x
    · rw [if_pos hx.symm, if_pos hx, hx]
    · rw [if_neg fun hc => hx hc.symm, if_neg hx]
  refine ⟨hsome, ?_, hth, hcur⟩
  refine h.release (fun x => t = x)
    ⟨insertReady t ring, removeDelta t timeq, ⟨?_, ?_⟩⟩ ?_ ?_ ?_ ?_ hcur
  · rw [handles_update]
    exact hinv
  · rw [hcur]
    exact hk.current_insertReady t
  · intro q' x
    by_cases hqq : q' = q
    · subst hqq
      rw [update_self, hq, mem_cons]
      refine ⟨fun hx => ⟨Or.inr hx, ?_⟩, fun hx => hx.1.resolve_left fun hc => hx.2 hc.symm⟩
      rintro rfl
      exact (nodup_cons.mp hnd).1 hx
    · rw [update_of_ne hqq]
      refine ⟨fun hx => ⟨hx, ?_⟩, fun hx => hx.1⟩
      rintro rfl
      exact hqq (h.disjoint (by rw [hq]; exact mem_cons_self ..) hx)
  · intro q'
    by_cases hqq : q' = q
    · subst hqq
      rw [update_self, hq]
      exact sublist_cons_self t rest
    · rw [update_of_ne hqq]
  · intro x hx
    rw [hth, if_pos hx]
    rfl
  · intro x hx
    rw [hth, if_neg hx]

theorem CallsInv.unpend (h : CallsInv cfg c w) (q : Qid) :
    (zUnpendFirstThread cfg c.ker q).2 = (w q).head?
      ∧ CallsInv cfg { c with ker := (zUnpendFirstThread cfg c.ker q).1 }
          (update w q (w q).tail)
      ∧ (∀ x, (zUnpendFirstThread cfg c.ker q).1.thread x
          = if (w q).head? = some x then (c.ker.thread x).woken else c.ker.thread x)
      ∧ (zUnpendFirstThread cfg c.ker q).1.current = c.ker.current := by
  cases hq : w q with
  | nil =>
    obtain ⟨hnone, hinv, hth, hcur⟩ := h.unpend_nobody hq
    have hw : update w q [].tail = w := by
      refine update_eq_self_iff.mpr ?_
      rw [hq]
      rfl
    rw [hw]
    refine ⟨hnone, hinv, fun x => ?_, hcur⟩
    rw [hth x, if_neg fun hc => nomatch hc]
  | cons t rest =>
    obtain ⟨hsome, hinv, hth, hcur⟩ := h.unpend_first hq
    refine ⟨hsome, hinv, fun x => ?_, hcur⟩
    simp only [hth x, List.head?_cons, Option.some_inj]

theorem CallsInv.unpendAll {mark : Thread D → Thread D} (hm : Marks mark)
    (h : CallsInv cfg c w) (q : Qid) :
    CallsInv cfg { c with ker := (zUnpendAllLoop cfg q mark (Fintype.card Tid) c.ker 0).1 }
        (update w q [])
      ∧ (∀ x, (zUnpendAllLoop cfg q mark (Fintype.card Tid) c.ker 0).1.thread x
          = if x ∈ w q then mark (c.ker.thread x).woken else c.ker.thread x)
      ∧ (zUnpendAllLoop cfg q mark (Fintype.card Tid) c.ker 0).1.current = c.ker.current
      ∧ (zUnpendAllLoop cfg q mark (Fintype.card Tid) c.ker 0).2 = (w q).length % 256 := by
  obtain ⟨ring, timeq, hk⟩ := h.kernel
  have hq : handles w q = ((w q).map .handle : List (WNode Tid Qid Empty)) := rfl
  obtain ⟨ring', hinv, hthread, hcur, hhead, -, hcount⟩ :=
    hk.toKBase.unpendAllLoop hm 0 (hk.wait.length_le hq) hq
  refine ⟨?_, hthread, hcur, ?_⟩
  · refine h.release (fun x => x ∈ w q) ⟨ring', removeDeltas (w q) timeq, ⟨?_, ?_⟩⟩ ?_ ?_ ?_ ?_ hcur
    · rw [handles_update]
      exact hinv
    · rw [hcur]
      exact hk.current.imp_right fun hc => hhead _ hc
    · intro q' x
      by_cases hqq : q' = q
      · subst hqq
        rw [update_self]
        exact ⟨fun hx => (nomatch hx), fun hx => absurd hx.1 hx.2⟩
      · rw [update_of_ne hqq]
        exact ⟨fun hx => ⟨hx, fun hc => hqq (h.disjoint hc hx)⟩, fun hx => hx.1⟩
    · intro q'
      by_cases hqq : q' = q
      · subst hqq
        rw [update_self]
        exact nil_sublist _
      · rw [update_of_ne hqq]
    · intro x hx
      rw [hthread, if_pos hx, hm.state]
      rfl
    · intro x hx
      rw [hthread, if_neg hx]
  · have h1 := hcount (by decide)
    rw [Nat.zero_add] at h1
    exact h1

theorem dropHandles_handles {Pid : Type} [DecidableEq Pid] (w : Qid → List Tid) (E : List Tid) :
    (dropHandles (handles w) E : Qid → List (WNode Tid Qid Pid))
      = handles fun q => (w q).filter fun t => t ∉ E := by
  funext q
  rw [dropHandles, handles, handles, filter_map]
  congr 1
  refine filter_congr ?_
  intro t _
  refine decide_eq_decide.mpr (not_congr (mem_map_of_injective ?_))
  intro a b hab
  injection hab

theorem CallsInv.schedEnter (h : CallsInv cfg c w) :
    ∃ E : List Tid, (∀ t ∈ E, (c.ker.thread t).state = .pending)
      ∧ CallsInv cfg { c with ker := zSchedEnter cfg c.ker } (fun q => (w q).filter fun t => t ∉ E)
      ∧ (∀ x, (zSchedEnter cfg c.ker).thread x
          = if x ∈ E then (c.ker.thread x).expired else c.ker.thread x)
      ∧ (zSchedEnter cfg c.ker).current = c.ker.current := by
  obtain ⟨ring, timeq, hk⟩ := h.kernel
  obtain ⟨⟨ring', timeq', waitq'⟩, E, hinv, hE⟩ := hk.schedEnter
  have hw : waitq' = handles fun q => (w q).filter fun t => t ∉ E :=
    hE.waitq.trans (dropHandles_handles w E)
  refine ⟨E, fun t ht => hk.wakeup t (hE.timed t ht), ?_, hE.thread, hE.current⟩
  refine h.release (fun x => x ∈ E) ⟨ring', timeq', ?_⟩ ?_ ?_ ?_ ?_ hE.current
  · rw [← hw]
    exact hinv
  · intro q t
    simp
  · exact fun q => filter_sublist
  · intro t ht
    rw [hE.thread, if_pos ht]
    rfl
  · intro t ht
    rw [hE.thread, if_neg ht]

theorem CallsInv.modThread (h : CallsInv cfg c w) (t : Tid) {f : Thread D → Thread D}
    (hs : (f (c.ker.thread t)).state = (c.ker.thread t).state)
    (hw : (f (c.ker.thread t)).wakeupSched = (c.ker.thread t).wakeupSched)
    (hf : (c.ker.thread t).state = .pending → (f (c.ker.thread t)).timerExpired = false
      ∧ (f (c.ker.thread t)).pendCanceled = false) :
    CallsInv cfg { c with ker := c.ker.modThread t f } w := by
  obtain ⟨ring, timeq, hk⟩ := h.kernel
  have hstate : ∀ x, ((c.ker.modThread t f).thread x).state = (c.ker.thread x).state := by
    intro x
    show (update c.ker.thread t (f (c.ker.thread t)) x).state = _
    rw [update_apply]
    by_cases hx : x = t
    · rw [if_pos hx, hs, hx]
    · rw [if_neg hx]
  refine h.release (fun _ => False) ⟨ring, timeq, ⟨?_, hk.current⟩⟩ ?_ ?_ ?_ ?_ rfl
  · exact hk.toKBase.modThread f hs hw hf
  · exact fun q t => ⟨fun ht => ⟨ht, id⟩, fun ht => ht.1⟩
  · exact fun q => List.Sublist.refl _
  · exact fun t ht => ht.elim
  · exact fun x _ => hstate x

theorem CallsInv.swap (h : CallsInv cfg c w) (t : Tid) (data : Option D) : CallsInv cfg
      { c with ker := c.ker.modThread t fun th => { th with swapData := data } } w :=
  h.modThread t rfl rfl h.flags

theorem CallsInv.unpendAndSwap (h : CallsInv cfg c w) (q : Qid) (data : Option D) :
    (zUnpendFirstAndSwap cfg c.ker q data).2 = (w q).head?
      ∧ CallsInv cfg { c with ker := (zUnpendFirstAndSwap cfg c.ker q data).1 }
          (update w q (w q).tail)
      ∧ (∀ x, (zUnpendFirstAndSwap cfg c.ker q data).1.thread x
          = if (w q).head? = some x then { (c.ker.thread x).woken with swapData := data }
            else c.ker.thread x)
      ∧ (zUnpendFirstAndSwap cfg c.ker q data).1.current = c.ker.current := by
  obtain ⟨hhead, hinv, hth, hcur⟩ := h.unpend q
  cases hw : (w q).head? with
  | none =>
    have hk : zUnpendFirstAndSwap cfg c.ker q data = zUnpendFirstThread cfg c.ker q := by
      rw [hw] at hhead
      simp only [zUnpendFirstAndSwap, hhead]
    rw [hk]
    refine ⟨hhead.trans hw, hinv, ?_, hcur⟩
    intro x
    rw [hth, hw, if_neg (fun hc => nomatch hc), if_neg (fun hc => nomatch hc)]
  | some t =>
    have hk : zUnpendFirstAndSwap cfg c.ker q data = ((zUnpendFirstThread cfg c.ker q).1.modThread t
          fun th => { th with swapData := data }, some t) := by
      rw [hw] at hhead
      simp only [zUnpendFirstAndSwap, hhead]
    rw [hk]
    refine ⟨rfl, hinv.swap t data, ?_, hcur⟩
    intro x
    show update (zUnpendFirstThread cfg c.ker q).1.thread t _ x = _
    rw [update_apply, hth t, hth x, hw]
    by_cases hx : x = t
    · subst hx
      simp only [if_true]
    · have hx' : ¬ some t = some x := fun hc => hx (Option.some.inj hc).symm
      rw [if_neg hx, if_neg hx', if_neg hx']

theorem CallsInv.count (h : CallsInv cfg c w) : CallsInv cfg { c with clock := c.clock + 1 } w :=
  ⟨⟨h.kernel, h.waits, h.order, fun t f hf => Nat.lt_succ_of_lt (h.fresh t f hf),
    h.idleFree⟩, h.running⟩

end Release

section Switch

def Calls.leave (c : Calls Tid Qid D κ) (k' : Kernel Tid Qid Empty D) (q : Qid)
    (call : κ) : Calls Tid Qid D κ where
  ker := k'
  frame := update c.frame c.ker.current (some ⟨q, c.clock, call⟩)
  clock := c.clock + 1

def Calls.resume (c : Calls Tid Qid D κ) : Calls Tid Qid D κ :=
  { c with frame := update c.frame c.ker.current none }

omit [DecidableEq Qid] in
theorem Calls.queue_resume_self : c.resume.queue c.ker.current = none :=
  congrArg _ (update_self c.ker.current none c.frame)

omit [DecidableEq Qid] in
theorem Calls.queue_resume_of_ne (ht : t ≠ c.ker.current) : c.resume.queue t = c.queue t :=
  Calls.queue_congr (update_of_ne ht _ _)

omit [DecidableEq Qid] in
theorem Calls.queue_leave_of_ne {k' : Kernel Tid Qid Empty D} {call : κ}
    (ht : t ≠ c.ker.current) : (c.leave k' q call).queue t = c.queue t :=
  Calls.queue_congr (update_of_ne ht _ _)

section Leave

variable {k' : Kernel Tid Qid Empty D} {call : κ}

omit [DecidableEq Qid] in
theorem Calls.frame_leave_self :
    (c.leave k' q call).frame c.ker.current = some ⟨q, c.clock, call⟩ :=
  update_self ..

omit [DecidableEq Qid] in
theorem Calls.frame_leave_of_ne (ht : t ≠ c.ker.current) :
    (c.leave k' q call).frame t = c.frame t := update_of_ne ht _ _

omit [DecidableEq Qid] in
theorem Calls.stamp_leave_self : (c.leave k' q call).stamp c.ker.current = c.clock := by
  rw [Calls.stamp, Calls.frame_leave_self]
  rfl

theorem CallsBase.waits_leave (h : CallsBase cfg c w)
    (hcur : (k'.thread c.ker.current).state = .pending)
    (hother : ∀ x, x ≠ c.ker.current → k'.thread x = c.ker.thread x) (q' : Qid) (x : Tid) :
    x ∈ update w q (w q ++ [c.ker.current]) q' ↔ (c.leave k' q call).Waiting q' x := by
  by_cases hx : x = c.ker.current
  · have hq : (c.leave k' q call).Waiting q' x ↔ q' = q := by
      rw [Calls.Waiting, Calls.queue, hx, Calls.frame_leave_self]
      show (k'.thread c.ker.current).state = .pending ∧ some q = some q' ↔ q' = q
      exact ⟨fun hc => (Option.some.inj hc.2).symm, fun hc => ⟨hcur, by rw [hc]⟩⟩
    rw [hq, hx]
    by_cases hqq : q' = q
    · rw [hqq, update_self]
      simp
    · rw [update_of_ne hqq]
      exact ⟨fun hc => absurd hc h.current_notMem, fun hc => absurd hc hqq⟩
  · have hq : (c.leave k' q call).Waiting q' x ↔ c.Waiting q' x := by
      rw [Calls.Waiting, Calls.queue_leave_of_ne hx]
      show (k'.thread x).state = .pending ∧ _ ↔ _
      rw [hother x hx]
      rfl
    rw [hq, ← h.waits]
    by_cases hqq : q' = q
    · rw [hqq, update_self]
      simp [hx]
    · rw [update_of_ne hqq]

theorem CallsBase.order_leave (h : CallsBase cfg c w) (q' : Qid) :
    (update w q (w q ++ [c.ker.current]) q').Pairwise fun a b =>
      (c.leave k' q call).stamp a < (c.leave k' q call).stamp b := by
  have hsame : ∀ q'', ∀ a ∈ w q'', (c.leave k' q call).stamp a = c.stamp a := by
    intro q'' a ha
    refine Calls.stamp_congr (Calls.frame_leave_of_ne ?_)
    rintro rfl
    exact h.current_notMem ha
  have hold : ∀ q'', (w q'').Pairwise fun a b =>
      (c.leave k' q call).stamp a < (c.leave k' q call).stamp b := by
    intro q''
    refine (h.order q'').imp_of_mem ?_
    intro a b ha hb hab
    rw [hsame q'' a ha, hsame q'' b hb]
    exact hab
  by_cases hqq : q' = q
  · rw [hqq, update_self, pairwise_append]
    refine ⟨hold q, pairwise_singleton _ _, ?_⟩
    intro a ha b hb
    rw [mem_singleton.mp hb, Calls.stamp_leave_self, hsame q a ha]
    exact h.stamp_lt ha
  · rw [update_of_ne hqq]
    exact hold q'

theorem CallsBase.fresh_leave (h : CallsBase cfg c w) (x : Tid) (f : CallFrame Qid κ)
    (hf : (c.leave k' q call).frame x = some f) : f.stamp < c.clock + 1 := by
  by_cases hx : x = c.ker.current
  · rw [hx, Calls.frame_leave_self] at hf
    injection hf with hf
    rw [← hf]
    exact Nat.lt_succ_self _
  · rw [Calls.frame_leave_of_ne hx] at hf
    exact Nat.lt_succ_of_lt (h.fresh x f hf)

end Leave

theorem CallsInv.leave (h : CallsInv cfg c w) (hc : c.ker.current ≠ cfg.idle)
    (q : Qid) (call : κ) {timeout : cfg.Timeout}
    (hne : timeout ≠ kNoWait cfg) :
    (zPendCurrentOn cfg c.ker (some q) timeout).2 = none
      ∧ CallsBase cfg (c.leave (zPendCurrentOn cfg c.ker (some q) timeout).1 q call)
          (update w q (w q ++ [c.ker.current]))
      ∧ (∀ x, (zPendCurrentOn cfg c.ker (some q) timeout).1.thread x = if x = c.ker.current then
              (c.ker.thread x).blocked (decide (timeout ≠ kForever cfg))
            else c.ker.thread x)
      ∧ (zPendCurrentOn cfg c.ker (some q) timeout).1.current ≠ c.ker.current := by
  obtain ⟨ring, timeq, hk⟩ := h.kernel
  obtain ⟨hnone, hinv, hthread, -⟩ := hk.pendOn hc q timeout hne
  have hth : ∀ x, (zPendCurrentOn cfg c.ker (some q) timeout).1.thread x = if x = c.ker.current then
          (c.ker.thread x).blocked (decide (timeout ≠ kForever cfg))
        else c.ker.thread x := by
    intro x
    rw [hthread, update_apply]
    by_cases hx : x = c.ker.current
    · rw [if_pos hx, if_pos hx, hx]
    · rw [if_neg hx, if_neg hx]
  generalize (zPendCurrentOn cfg c.ker (some q) timeout).1 = k' at *
  have hpending : (k'.thread c.ker.current).state = .pending := by
    rw [hth, if_pos rfl]
    rfl
  have hother : ∀ x, x ≠ c.ker.current → k'.thread x = c.ker.thread x := by
    intro x hx
    rw [hth, if_neg hx]
  refine ⟨hnone, ⟨⟨lastFirst ring.tail, pendTimeq cfg c.ker.current timeout timeq, ?_⟩,
    h.waits_leave hpending hother, h.order_leave, h.fresh_leave, ?_⟩, hth, ?_⟩
  · rw [handles_update, map_append]
    exact hinv
  · rw [Calls.frame_leave_of_ne (Ne.symm hc)]
    exact h.idleFree
  · -- a thread that is PENDING does not run
    intro hcc
    rcases hinv.current with hidle | hhead
    · rw [hcc] at hidle
      exact hc hidle
    · have hready := (hinv.ready k'.current).mp (mem_of_mem_head? hhead)
      rw [hcc, hpending] at hready
      exact nomatch hready

theorem CallsInv.yield (h : CallsInv cfg c w) : CallsBase cfg { c with ker := zScheduler c.ker } w
      ∧ ∀ x, (zScheduler c.ker).thread x = if x = c.ker.current then (c.ker.thread x).clearFlags
            else c.ker.thread x := by
  obtain ⟨ring, timeq, hk⟩ := h.kernel
  have hth : ∀ x, (zScheduler c.ker).thread x
      = if x = c.ker.current then (c.ker.thread x).clearFlags else c.ker.thread x := by
    intro x
    rw [zScheduler_thread, update_apply]
    by_cases hx : x = c.ker.current
    · rw [if_pos hx, if_pos hx, hx]
    · rw [if_neg hx, if_neg hx]
  refine ⟨⟨⟨_, _, hk.yield⟩, ?_, h.order, h.fresh, h.idleFree⟩, hth⟩
  intro q x
  rw [h.waits, Calls.Waiting, Calls.Waiting]
  show _ ↔ ((zScheduler c.ker).thread x).state = .pending ∧ c.queue x = some q
  rw [hth]
  by_cases hx : x = c.ker.current
  · rw [if_pos hx]
    rfl
  · rw [if_neg hx]

theorem CallsInv.sleep (h : CallsInv cfg c w) (hc : c.ker.current ≠ cfg.idle)
    (timeout : cfg.Timeout)
    (hself : timeout ≠ kForever cfg → SelfLinked c.ker.wait (.handle c.ker.current)) :
    CallsBase cfg { c with ker := kSleep cfg c.ker timeout } w
      ∧ ∀ x, (kSleep cfg c.ker timeout).thread x = if x = c.ker.current then
              (c.ker.thread x).blocked (decide (timeout ≠ kForever cfg))
            else c.ker.thread x := by
  obtain ⟨ring, timeq, hk⟩ := h.kernel
  obtain ⟨hinv, hthread, -⟩ := hk.sleep hc timeout hself
  have hth : ∀ x, (kSleep cfg c.ker timeout).thread x = if x = c.ker.current then
          (c.ker.thread x).blocked (decide (timeout ≠ kForever cfg))
        else c.ker.thread x := by
    intro x
    rw [hthread, update_apply]
    by_cases hx : x = c.ker.current
    · rw [if_pos hx, if_pos hx, hx]
    · rw [if_neg hx, if_neg hx]
  refine ⟨⟨⟨_, _, hinv⟩, ?_, h.order, h.fresh, h.idleFree⟩, hth⟩
  intro q x
  rw [h.waits, Calls.Waiting, Calls.Waiting]
  show _ ↔ ((kSleep cfg c.ker timeout).thread x).state = .pending ∧ c.queue x = some q
  by_cases hx : x = c.ker.current
  · have hq : c.queue x = none := by
      rw [hx, Calls.queue, h.running]
      rfl
    rw [hq]
    exact ⟨fun hc => (nomatch hc.2), fun hc => (nomatch hc.2)⟩
  · rw [hth, if_neg hx]

theorem CallsBase.resume (h : CallsBase cfg c w) : CallsInv cfg c.resume w := by
  have hframe : ∀ x, x ≠ c.ker.current → c.resume.frame x = c.frame x :=
    fun x hx => update_of_ne hx _ _
  have hnone : c.resume.frame c.ker.current = none := update_self ..
  refine ⟨⟨h.kernel, ?_, ?_, ?_, ?_⟩, hnone⟩
  · intro q x
    rw [h.waits]
    by_cases hx : x = c.ker.current
    · rw [hx]
      exact ⟨fun hc => absurd hc.1 h.current_not_pending,
        fun hc => absurd hc.1 h.current_not_pending⟩
    · rw [Calls.Waiting, Calls.Waiting, Calls.queue_congr (hframe x hx)]
      rfl
  · intro q
    refine (h.order q).imp_of_mem ?_
    intro a b ha hb hab
    have hca : a ≠ c.ker.current := fun hc => h.current_notMem (hc ▸ ha)
    have hcb : b ≠ c.ker.current := fun hc => h.current_notMem (hc ▸ hb)
    rw [Calls.stamp_congr (hframe a hca), Calls.stamp_congr (hframe b hcb)]
    exact hab
  · intro x f hf
    by_cases hx : x = c.ker.current
    · rw [hx, hnone] at hf
      exact nomatch hf
    · rw [hframe x hx] at hf
      exact h.fresh x f hf
  · by_cases hx : cfg.idle = c.ker.current
    · rw [hx]
      exact hnone
    · rw [hframe _ hx]
      exact h.idleFree

end Switch

section Granted

variable {c' : Calls Tid Qid D κ} {k' : Kernel Tid Qid Empty D}

theorem zPendResult_eq_zero {th : Thread D} :
    zPendResult th = 0 ↔ th.timerExpired = false ∧ th.pendCanceled = false := by
  rw [zPendResult]
  cases th.timerExpired <;> cases th.pendCanceled <;> decide

theorem zPendResult_cases (th : Thread D) :
    zPendResult th = 0 ∨ zPendResult th = -ETIMEDOUT ∨ zPendResult th = -ECANCELED := by
  rw [zPendResult]
  split_ifs
  · exact Or.inr (Or.inl rfl)
  · exact Or.inr (Or.inr rfl)
  · exact Or.inl rfl

theorem Calls.mem_granted : t ∈ c.granted q ↔ c.Granted q t := by
  simp [Calls.granted]

omit [Threads Tid] [DecidableEq Qid] in
theorem Calls.granted_iff (hf : c'.frame t = c.frame t)
    (ht : c'.ker.thread t = c.ker.thread t) : c'.Granted q t ↔ c.Granted q t := by
  rw [Calls.Granted, Calls.Granted, Calls.queue_congr hf, ht]

omit [Threads Tid] [DecidableEq Qid] in
theorem Calls.not_granted_of_none (hf : c.frame t = none) : ¬ c.Granted q t := by
  rintro ⟨-, hq, -⟩
  rw [Calls.queue, hf] at hq
  exact nomatch hq

omit [Threads Tid] [DecidableEq Qid] in
theorem Calls.not_granted_of_pending (hp : (c.ker.thread t).state = .pending) :
    ¬ c.Granted q t := by
  rintro ⟨hs, -⟩
  rw [hp] at hs
  exact nomatch hs

theorem Calls.granted_fail {R : Tid → Prop} [DecidablePred R]
    (mark : Thread D → Thread D) (hp : ∀ t, R t → (c.ker.thread t).state = .pending)
    (hm : ∀ th, zPendResult (mark th) ≠ 0)
    (hth : ∀ t, k'.thread t = if R t then mark (c.ker.thread t) else c.ker.thread t) :
    ({ c with ker := k' } : Calls Tid Qid D κ).granted q = c.granted q := by
  ext t
  rw [Calls.mem_granted, Calls.mem_granted]
  by_cases hR : R t
  · refine ⟨?_, fun hg => absurd hg (Calls.not_granted_of_pending (hp t hR))⟩
    rintro ⟨-, -, hz⟩
    have hz' : zPendResult (k'.thread t) = 0 := hz
    rw [hth, if_pos hR] at hz'
    exact absurd hz' (hm _)
  · refine Calls.granted_iff rfl ?_
    show k'.thread t = c.ker.thread t
    rw [hth, if_neg hR]

theorem zPendResult_expired (th : Thread D) : zPendResult th.expired ≠ 0 := by
  rw [Ne, zPendResult_eq_zero]
  rintro ⟨hc, -⟩
  exact nomatch hc

theorem zPendResult_cancel (th : Thread D) : zPendResult th.cancel ≠ 0 := by
  rw [Ne, zPendResult_eq_zero]
  rintro ⟨-, hc⟩
  exact nomatch hc

theorem CallsInv.granted_cancel (h : CallsInv cfg c w) (q' : Qid) :
    ({ c with ker := (zCancelAllPending cfg c.ker q').1 } :
      Calls Tid Qid D κ).granted q = c.granted q := by
  obtain ⟨-, hth, -⟩ := h.unpendAll marks_cancel q'
  exact Calls.granted_fail (R := fun t => t ∈ w q')
    (fun th => th.woken.cancel) (fun t ht => h.pending_of_mem ht)
    (fun th => zPendResult_cancel _) hth

theorem CallsInv.granted_schedEnter (h : CallsInv cfg c w) :
    ({ c with ker := zSchedEnter cfg c.ker } : Calls Tid Qid D κ).granted q = c.granted q := by
  obtain ⟨E, hE, -, hth, -⟩ := h.schedEnter
  exact Calls.granted_fail (R := fun t => t ∈ E) Thread.expired hE zPendResult_expired hth

theorem CallsInv.granted_unpend (h : CallsInv cfg c w) (q' : Qid) :
    ({ c with ker := (zUnpendFirstThread cfg c.ker q').1 } : Calls Tid Qid D κ).granted q
        = if q = q' then c.granted q ∪ (w q').head?.toFinset else c.granted q := by
  obtain ⟨-, -, hth, -⟩ := h.unpend q'
  have hother : ∀ t, (w q').head? ≠ some t →
      (({ c with ker := (zUnpendFirstThread cfg c.ker q').1 } :
        Calls Tid Qid D κ).Granted q t ↔ c.Granted q t) := by
    intro t ht
    refine Calls.granted_iff rfl ?_
    show (zUnpendFirstThread cfg c.ker q').1.thread t = c.ker.thread t
    rw [hth, if_neg ht]
  ext t
  rw [Calls.mem_granted]
  by_cases ht : (w q').head? = some t
  · -- the first waiter: its flags were clear
    have hw := (h.waits q' t).mp (mem_of_mem_head? ht)
    obtain ⟨hte, hpc⟩ := h.flags hw.1
    have hrec : (zUnpendFirstThread cfg c.ker q').1.thread t = (c.ker.thread t).woken := by
      rw [hth, if_pos ht]
    have hg : ({ c with ker := (zUnpendFirstThread cfg c.ker q').1 } :
        Calls Tid Qid D κ).Granted q t ↔ q = q' := by
      show ((zUnpendFirstThread cfg c.ker q').1.thread t).state = .ready ∧ c.queue t = some q
        ∧ zPendResult ((zUnpendFirstThread cfg c.ker q').1.thread t) = 0 ↔ q = q'
      rw [hrec, hw.2, zPendResult_eq_zero]
      exact ⟨fun hc => (Option.some.inj hc.2.1).symm, fun hc => ⟨rfl, by rw [hc], hte, hpc⟩⟩
    rw [hg]
    by_cases hq : q = q'
    · simp [hq, ht]
    · rw [if_neg hq]
      refine ⟨fun hc => absurd hc hq, fun hc => ?_⟩
      exact absurd (Calls.mem_granted.mp hc) (Calls.not_granted_of_pending hw.1)
  · rw [hother t ht, ← Calls.mem_granted]
    by_cases hq : q = q'
    · simp [hq, ht]
    · rw [if_neg hq]

theorem CallsInv.granted_leave (h : CallsInv cfg c w) {call : κ} (q' : Qid)
    (hp : (k'.thread c.ker.current).state = .pending)
    (hth : ∀ x, x ≠ c.ker.current → k'.thread x = c.ker.thread x) :
    (c.leave k' q' call).granted q = c.granted q := by
  ext t
  rw [Calls.mem_granted, Calls.mem_granted]
  by_cases ht : t = c.ker.current
  · rw [ht]
    exact ⟨fun hc => absurd hc (Calls.not_granted_of_pending hp),
      fun hc => absurd hc (Calls.not_granted_of_none h.running)⟩
  · exact Calls.granted_iff (update_of_ne ht _ _) (hth t ht)

theorem CallsInv.granted_yield (h : CallsInv cfg c w) :
    ({ c with ker := zScheduler c.ker } : Calls Tid Qid D κ).granted q = c.granted q := by
  obtain ⟨-, hth⟩ := h.yield
  ext t
  rw [Calls.mem_granted, Calls.mem_granted]
  by_cases ht : t = c.ker.current
  · have hnone : c.frame t = none := by
      rw [ht]
      exact h.running
    exact ⟨fun hc => absurd hc (Calls.not_granted_of_none hnone),
      fun hc => absurd hc (Calls.not_granted_of_none hnone)⟩
  · refine Calls.granted_iff rfl ?_
    show (zScheduler c.ker).thread t = c.ker.thread t
    rw [hth, if_neg ht]

theorem CallsBase.granted_current (h : CallsBase cfg c w) {f : CallFrame Qid κ}
    (hf : c.frame c.ker.current = some f) :
    c.ker.current ∈ c.granted q ↔ f.queue = q ∧ zPendResult (c.ker.thread c.ker.current) = 0 := by
  have hs : (c.ker.thread c.ker.current).state = .ready := by
    refine h.current_state.resolve_right ?_
    intro hc
    rw [hc, h.idleFree] at hf
    exact nomatch hf
  have hq : c.queue c.ker.current = some f.queue := by
    rw [Calls.queue, hf]
    rfl
  rw [Calls.mem_granted, Calls.Granted, hq]
  exact ⟨fun hg => ⟨Option.some.inj hg.2.1, hg.2.2⟩, fun hg => ⟨hs, by rw [hg.1], hg.2⟩⟩

theorem Calls.granted_resume : c.resume.granted q = (c.granted q).erase c.ker.current := by
  ext t
  rw [Finset.mem_erase, Calls.mem_granted, Calls.mem_granted]
  by_cases ht : t = c.ker.current
  · have hnone : c.resume.frame t = none := by
      rw [ht]
      exact update_self ..
    exact ⟨fun hc => absurd hc (Calls.not_granted_of_none hnone), fun hc => absurd ht hc.1⟩
  · have hiff : c.resume.Granted q t ↔ c.Granted q t :=
      Calls.granted_iff (update_of_ne ht _ _) rfl
    rw [hiff]
    exact ⟨fun hc => ⟨ht, hc⟩, fun hc => hc.2⟩

end Granted

section Init

/-- No thread is in a call. -/
def callsBoot (k : Kernel Tid Qid Empty D) : Calls Tid Qid D κ where
  ker := k
  frame := fun _ => none
  clock := 0

theorem ColdBoot.callsInv {k : Kernel Tid Qid Empty D} {ring : List Tid} (h : ColdBoot cfg k ring) :
    CallsInv cfg (callsBoot k : Calls Tid Qid D κ) (fun _ => []) := by
  refine ⟨⟨⟨ring, [], h.kinv⟩, ?_, fun _ => List.Pairwise.nil, ?_, rfl⟩, rfl⟩
  · intro q t
    exact ⟨fun hc => (nomatch hc), fun hc => absurd hc.1 (h.not_pending t)⟩
  · exact fun t f hf => nomatch hf

theorem granted_callsBoot {k : Kernel Tid Qid Empty D} :
    (callsBoot k : Calls Tid Qid D κ).granted q = ∅ := by
  ext t
  rw [Calls.mem_granted]
  exact ⟨fun hc => absurd hc (Calls.not_granted_of_none rfl),
    fun hc => absurd hc (Finset.notMem_empty t)⟩

end Init

end AvrtosKernel
