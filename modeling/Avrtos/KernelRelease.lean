import Avrtos.KernelInv

/-! # Releasing threads

    What the two loops do that make threads READY one by one. -/

namespace AvrtosKernel

open Function List AvrtosDefines AvrtosDlist AvrtosTqueue Cells LinkedRing LinkedChain DeltaList

variable {Tid Qid Pid D : Type} [Threads Tid]
variable [DecidableEq Qid] [DecidableEq Pid]

variable {cfg : Config Tid Qid} {k : Kernel Tid Qid Pid D}
variable {s : Shape Tid Qid Pid} {t : Tid} {q : Qid}

section UnpendAll

structure Marks (mark : Thread D → Thread D) : Prop where
  state : ∀ th, (mark th).state = th.state
  wakeupSched : ∀ th, (mark th).wakeupSched = th.wakeupSched

theorem marks_id : Marks (id : Thread D → Thread D) := ⟨fun _ => rfl, fun _ => rfl⟩

def Thread.cancel (th : Thread D) : Thread D := { th with pendCanceled := true }

theorem marks_cancel : Marks (Thread.cancel : Thread D → Thread D) := ⟨fun _ => rfl, fun _ => rfl⟩

theorem KBase.unpendAllLoop {mark : Thread D → Thread D} (hm : Marks mark)
    {l : List Tid} {fuel : Nat} (count : Nat) (hl : l.length ≤ fuel) (h : KBase cfg k s)
    (hq : s.waitq q = l.map .handle) :
    ∃ ring, KBase cfg (zUnpendAllLoop cfg q mark fuel k count).1
          ⟨ring, removeDeltas l s.timeq, update s.waitq q []⟩
        ∧ (∀ x, (zUnpendAllLoop cfg q mark fuel k count).1.thread x
            = if x ∈ l then mark (k.thread x).woken else k.thread x)
        ∧ (zUnpendAllLoop cfg q mark fuel k count).1.current = k.current
        ∧ (∀ a, s.ring.head? = some a → ring.head? = some a)
        ∧ (∀ x, (x ∈ l ∨ Unqueued s.waitq (.handle x) ∧ SelfLinked k.wait (.handle x)) →
            SelfLinked (zUnpendAllLoop cfg q mark fuel k count).1.wait (.handle x))
        ∧ (count < 256 → (zUnpendAllLoop cfg q mark fuel k count).2
            = (count + l.length) % 256) := by
  induction l generalizing fuel k s count with
  | nil =>
    obtain ⟨hnone, hinv, hthread, hcur, -, hlink⟩ := h.unpend_nil hq
    have hk : zUnpendAllLoop cfg q mark fuel k count = ((zUnpendFirstThread cfg k q).1, count) := by
      cases fuel with
      | zero => simp only [zUnpendAllLoop, hnone]
      | succ fuel => simp only [zUnpendAllLoop, hnone]
    have hw : update s.waitq q [] = s.waitq := by
      refine update_eq_self_iff.mpr ?_
      rw [hq]
      rfl
    rw [hk, hw]
    refine ⟨s.ring, hinv, ?_, hcur, fun _ ha => ha, ?_, ?_⟩
    · intro x
      rw [hthread]
      simp
    · rintro x (hx | hx)
      · exact nomatch hx
      · exact hlink _ hx.2
    · intro hc
      exact (Nat.mod_eq_of_lt hc).symm
  | cons t l ih =>
    obtain ⟨fuel, rfl⟩ : ∃ n, fuel = n + 1 := by
      refine ⟨fuel - 1, ?_⟩
      rw [length_cons] at hl
      omega
    obtain ⟨hsome, hinv, hthread, hcur, -, hlink⟩ := h.unpend_handle hq
    have hun := h.unqueued_head hq
    have htl : t ∉ l := by
      have hnd := h.wait.nodup q
      rw [hq, map_cons] at hnd
      intro hc
      exact (nodup_cons.mp hnd).1 (mem_map_of_mem hc)
    have hk : zUnpendAllLoop cfg q mark (fuel + 1) k count = zUnpendAllLoop cfg q mark fuel
          ((zUnpendFirstThread cfg k q).1.modThread t mark)
          ((count + 1) % 256) := by
      simp only [zUnpendAllLoop, hsome]
    generalize (zUnpendFirstThread cfg k q).1 = k₁ at *
    have hstate : (k₁.thread t).state = .ready := by
      rw [hthread, update_self]
      rfl
    have hinv₁ := hinv.modThread (t := t) mark (hm.state _) (hm.wakeupSched _)
      (by rw [hstate]; exact fun hc => nomatch hc)
    obtain ⟨ring, hinv', hthread', hcur', hhead, hlink', hcount⟩ :=
      ih ((count + 1) % 256) (Nat.le_of_succ_le_succ hl) hinv₁ (update_self ..)
    rw [hk]
    refine ⟨ring, ?_, ?_, hcur'.trans hcur, ?_, ?_, ?_⟩
    · rw [update_idem] at hinv'
      exact hinv'
    · intro x
      rw [hthread' x]
      by_cases hx : x = t
      · subst hx
        rw [if_neg htl, if_pos mem_cons_self]
        simp [Kernel.modThread, hthread]
      · have hone : (k₁.modThread t mark).thread x = k.thread x := by
          simp [Kernel.modThread, hthread, hx]
        rw [hone]
        simp [hx]
    · intro a ha
      refine hhead a ?_
      obtain ⟨r, hr⟩ := List.head?_eq_some_iff.mp ha
      rw [hr]
      rfl
    · intro x hx
      refine hlink' x ?_
      by_cases hxl : x ∈ l
      · exact Or.inl hxl
      · refine Or.inr ⟨?_, hlink x ?_⟩
        · by_cases hxt : x = t
          · rw [hxt]
            exact hun
          · exact (hx.resolve_left (by simp [hxt, hxl])).1.update hq
        · by_cases hxt : x = t
          · exact Or.inl hxt
          · exact Or.inr (hx.resolve_left (by simp [hxt, hxl]))
    · intro _
      rw [hcount (Nat.mod_lt _ (by decide)), length_cons, Nat.mod_add_mod]
      congr 1
      omega

theorem WaitRep.length_le {wait : WaitMem Tid Qid Pid}
    {waitq : Qid → List (WNode Tid Qid Pid)} {l : List Tid}
    (h : WaitRep wait waitq) (hq : waitq q = l.map .handle) :
    l.length ≤ Fintype.card Tid := by
  have hnd := h.nodup q
  rw [hq] at hnd
  exact hnd.of_map.length_le_card

end UnpendAll

section SchedEnter

def dropHandles (waitq : Qid → List (WNode Tid Qid Pid)) (E : List Tid) :
    Qid → List (WNode Tid Qid Pid) :=
  fun q => (waitq q).filter fun n => n ∉ E.map .handle

theorem dropHandles_nil (waitq : Qid → List (WNode Tid Qid Pid)) :
    dropHandles waitq [] = waitq := by
  funext q
  simp [dropHandles]

theorem dropHandles_cons {waitq : Qid → List (WNode Tid Qid Pid)}
    (hnd : ∀ q, (waitq q).Nodup) (t : Tid) (E : List Tid) :
    dropHandles (dropNode waitq (.handle t)) E = dropHandles waitq (t :: E) := by
  funext q
  simp only [dropHandles, dropNode]
  rw [(hnd q).erase_eq_filter, filter_filter]
  refine filter_congr ?_
  intro n _
  by_cases hn : n = .handle t
  · simp [hn]
  · simp [hn]

structure Expires (k k' : Kernel Tid Qid Pid D) (s s' : Shape Tid Qid Pid)
    (E : List Tid) : Prop where
  timed : ∀ t ∈ E, (k.thread t).wakeupSched = true
  thread : ∀ t, k'.thread t = if t ∈ E then (k.thread t).expired else k.thread t
  waitq : s'.waitq = dropHandles s.waitq E
  current : k'.current = k.current
  pollfd : k'.pollfd = k.pollfd
  selfLinked : ∀ t, Unqueued s.waitq (.handle t) → SelfLinked k.wait (.handle t) →
    SelfLinked k'.wait (.handle t)

theorem Expires.refl {k' : Kernel Tid Qid Pid D} {s' : Shape Tid Qid Pid}
    (hthread : k'.thread = k.thread) (hwait : k'.wait = k.wait)
    (hcur : k'.current = k.current) (hpoll : k'.pollfd = k.pollfd)
    (hw : s'.waitq = s.waitq) : Expires k k' s s' [] := by
  refine ⟨fun t ht => (nomatch ht), fun t => ?_, ?_, hcur, hpoll, ?_⟩
  · rw [hthread, if_neg (not_mem_nil)]
  · rw [hw, dropHandles_nil]
  · intro t _ ht
    rw [hwait]
    exact ht

theorem Expires.cons {k₁ k₂ : Kernel Tid Qid Pid D} {s₁ s₂ : Shape Tid Qid Pid}
    {E : List Tid} (h : KInv cfg k s) (hw : (k.thread t).wakeupSched = true)
    (hthread : k₁.thread = update k.thread t (k.thread t).expired)
    (hwait : k₁.wait = dlistRemove k.wait (.handle t : WNode Tid Qid Pid))
    (hcur : k₁.current = k.current) (hpoll : k₁.pollfd = k.pollfd)
    (hdrop : s₁.waitq = dropNode s.waitq (.handle t))
    (h₂ : Expires k₁ k₂ s₁ s₂ E) : Expires k k₂ s s₂ (t :: E) := by
  have hone : ∀ x, k₁.thread x = if x = t then (k.thread t).expired else k.thread x := by
    intro x
    rw [hthread, update_apply]
  have htE : t ∉ E := by
    intro hc
    have h1 := h₂.timed t hc
    rw [hone, if_pos rfl] at h1
    exact nomatch h1
  refine ⟨?_, ?_, ?_, h₂.current.trans hcur, h₂.pollfd.trans hpoll, ?_⟩
  · intro x hx
    rcases mem_cons.mp hx with heq | hmem
    · rw [heq]
      exact hw
    · have h1 := h₂.timed x hmem
      rw [hone, if_neg (fun hc : x = t => htE (hc ▸ hmem))] at h1
      exact h1
  · intro x
    rw [h₂.thread, hone]
    by_cases hx : x = t
    · subst hx
      rw [if_neg htE, if_pos rfl, if_pos mem_cons_self]
    · simp [hx]
  · rw [h₂.waitq, hdrop]
    exact dropHandles_cons h.wait.nodup t E
  · intro x hx hself
    have hn := h.clean t hw
    refine h₂.selfLinked x ?_ ?_
    · intro q hq
      rw [hdrop] at hq
      exact hx q (mem_of_mem_erase hq)
    · rw [hwait]
      exact hself.drop h.wait (fun _ hc => nomatch hc) hx hn

private theorem schedEnterLoop_stop {fuel : Nat} (h : KInv cfg k s)
    (hdue : ∀ a l, s.timeq ≠ (a, 0) :: l)
    (hpop : tqueuePop k.timeouts = (k.timeouts, none)) :
    ∃ s' E, KInv cfg (zSchedEnterLoop cfg fuel k) s' ∧ Expires k (zSchedEnterLoop cfg fuel k) s s' E
      ∧ s.timeq = E.map (·, 0) ++ s'.timeq ∧ ∀ a l, s'.timeq ≠ (a, 0) :: l := by
  have hk : zSchedEnterLoop cfg fuel k = k.setTimeouts k.timeouts := by
    cases fuel with
    | zero => simp only [zSchedEnterLoop, hpop]
    | succ fuel => simp only [zSchedEnterLoop, hpop]
  rw [hk]
  exact ⟨s, [], h, Expires.refl rfl rfl rfl rfl rfl, rfl, hdue⟩

theorem KInv.schedEnterLoop {fuel : Nat} (hf : s.timeq.length ≤ fuel) (h : KInv cfg k s) :
    ∃ s' E, KInv cfg (zSchedEnterLoop cfg fuel k) s' ∧ Expires k (zSchedEnterLoop cfg fuel k) s s' E
      ∧ s.timeq = E.map (·, 0) ++ s'.timeq ∧ ∀ a l, s'.timeq ≠ (a, 0) :: l := by
  induction fuel generalizing k s with
  | zero =>
    have hnil : s.timeq = [] := length_eq_zero_iff.mp (Nat.le_zero.mp hf)
    have hrep := h.sched.timeouts
    rw [hnil] at hrep
    refine schedEnterLoop_stop h (fun a l hc => ?_) (tqueuePop_nil hrep)
    rw [hnil] at hc
    exact cons_ne_nil _ _ hc.symm
  | succ fuel ih =>
    have hrep := h.sched.timeouts
    cases hq : s.timeq with
    | nil =>
      rw [hq] at hrep
      rw [← hq]
      refine schedEnterLoop_stop h (fun a l hc => ?_) (tqueuePop_nil hrep)
      rw [hq] at hc
      exact cons_ne_nil _ _ hc.symm
    | cons hd rest =>
      obtain ⟨t, d⟩ := hd
      rw [hq] at hrep
      by_cases hd : d = 0
      · -- the first timeout has expired
        subst hd
        have hexp := h.expire hq
        have hpop : (tqueuePop k.timeouts).2 = some t := by
          rw [(tqueuePop_spec hrep).1]
        have hw : (k.thread t).wakeupSched = true := by
          rw [← h.timed, hq]
          exact mem_cons_self
        have hk : zSchedEnterLoop cfg (fuel + 1) k = zSchedEnterLoop cfg fuel
            (zExpire cfg (k.setTimeouts (tqueuePop k.timeouts).1) t) := by
          simp only [zSchedEnterLoop, hpop]
        have hlen : rest.length ≤ fuel := by
          rw [hq] at hf
          exact Nat.le_of_succ_le_succ hf
        obtain ⟨s', E, hinv, hE, hrest, hdue⟩ := ih hlen hexp
        replace hrest : rest = E.map (·, 0) ++ s'.timeq := hrest
        rw [hk]
        refine ⟨s', t :: E, hinv, Expires.cons h hw
          (zExpire_thread (k.setTimeouts _)) (zExpire_wait (k.setTimeouts _))
          (zExpire_current (k.setTimeouts _)) (zExpire_pollfd (k.setTimeouts _))
          rfl hE, ?_, hdue⟩
        rw [hrest]
        rfl
      · rw [← hq]
        refine schedEnterLoop_stop h (fun a l hc => hd ?_) (tqueuePop_pending hrep hd)
        rw [hq] at hc
        injection hc with hc
        exact (Prod.mk.inj hc).2

theorem KInv.shift (h : KInv cfg k s) :
    KInv cfg (k.setTimeouts (tqueueShift cfg.deltaBits (Fintype.card Tid)
        k.timeouts cfg.sliceTicks.toNat))
      { s with timeq := shiftDelta cfg.sliceTicks.toNat s.timeq } := by
  refine ⟨⟨tqueueShift_sched h.sched cfg.sliceTicks, h.wait, h.ready, ?_, h.wakeup, h.idle,
    h.waiting, h.clean, h.flags⟩, h.current⟩
  intro t
  rw [map_fst_shiftDelta]
  exact h.timed t

theorem KInv.schedEnter_due (h : KInv cfg k s) : ∃ s' E, KInv cfg (zSchedEnter cfg k) s'
      ∧ Expires k (zSchedEnter cfg k) s s' E
      ∧ shiftDelta cfg.sliceTicks.toNat s.timeq = E.map (·, 0) ++ s'.timeq
      ∧ ∀ a l, s'.timeq ≠ (a, 0) :: l := by
  obtain ⟨s', E, hinv, hE, hrest, hdue⟩ := h.shift.schedEnterLoop h.shift.sched.timeq_length_le
  exact ⟨s', E, hinv, ⟨hE.timed, hE.thread, hE.waitq, hE.current, hE.pollfd,
    hE.selfLinked⟩, hrest, hdue⟩

theorem KInv.schedEnter (h : KInv cfg k s) : ∃ s' E, KInv cfg (zSchedEnter cfg k) s'
      ∧ Expires k (zSchedEnter cfg k) s s' E := by
  obtain ⟨s', E, hinv, hE, -⟩ := h.schedEnter_due
  exact ⟨s', E, hinv, hE⟩

end SchedEnter

end AvrtosKernel
