import Avrtos.Calls

/-! # Data handed to blocked threads

    `Hands` records the data given to a blocked thread; its call returns just that. -/

namespace AvrtosKernel

open Function List AvrtosDefines

variable {Tid Qid D κ : Type} [Threads Tid]
variable [DecidableEq Qid]

structure Hands (Tid Qid D κ : Type) where
  calls : Calls Tid Qid D κ
  got : Tid → Option D

def Hands.onWay (h : Hands Tid Qid D κ) (t : Tid) : Option D :=
  (h.calls.frame t).bind fun _ => h.got t

def Hands.setKer (h : Hands Tid Qid D κ) (k' : Kernel Tid Qid Empty D) :
    Hands Tid Qid D κ :=
  { h with calls := { h.calls with ker := k' } }

def Hands.record (h : Hands Tid Qid D κ) (k' : Kernel Tid Qid Empty D)
    (thread : Option Tid) (data : D) : Hands Tid Qid D κ where
  calls := { h.calls with ker := k' }
  got :=
    match thread with
    | some t => update h.got t (some data)
    | none => h.got

omit [DecidableEq Qid] in
theorem Hands.got_record (h : Hands Tid Qid D κ) (k' : Kernel Tid Qid Empty D)
    (thread : Option Tid) (data : D) (t : Tid) :
    (h.record k' thread data).got t = if thread = some t then some data else h.got t := by
  cases thread with
  | none => exact (if_neg fun hc => nomatch hc).symm
  | some x =>
    show update h.got x (some data) t = _
    by_cases hx : t = x
    · rw [hx, update_self, if_pos rfl]
    · rw [update_of_ne hx, if_neg fun hc => hx (Option.some.inj hc).symm]

def Hands.wake (h : Hands Tid Qid D κ) (k' : Kernel Tid Qid Empty D) :
    Hands Tid Qid D κ where
  calls := { h.calls with ker := k' }
  got := fun t =>
    if (h.calls.ker.thread t).state = .pending ∧ (k'.thread t).state = .ready then
      (k'.thread t).swapData
    else h.got t

omit [Threads Tid] [DecidableEq Qid] in
theorem Hands.got_wake {h : Hands Tid Qid D κ} {k' : Kernel Tid Qid Empty D} {t : Tid}
    (ht : k'.thread t = h.calls.ker.thread t) : (h.wake k').got t = h.got t := by
  refine if_neg fun hc => ?_
  rw [ht, hc.1] at hc
  exact nomatch hc.2

omit [Threads Tid] [DecidableEq Qid] in
theorem Hands.wake_self (h : Hands Tid Qid D κ) : h.wake h.calls.ker = h := by
  have hgot : (h.wake h.calls.ker).got = h.got := funext fun t => Hands.got_wake rfl
  show (⟨h.calls, (h.wake h.calls.ker).got⟩ : Hands Tid Qid D κ) = h
  rw [hgot]

def Hands.leave (h : Hands Tid Qid D κ) (k' : Kernel Tid Qid Empty D) (q : Qid)
    (call : κ) : Hands Tid Qid D κ where
  calls := h.calls.leave k' q call
  got := update h.got h.calls.ker.current none

def Hands.resume (h : Hands Tid Qid D κ) : Hands Tid Qid D κ :=
  { h with calls := h.calls.resume }

/-- The record is right. -/
structure HandsBase (cfg : Config Tid Qid) (h : Hands Tid Qid D κ) (w : Qid → List Tid) :
    Prop where
  calls : CallsBase cfg h.calls w
  handed : ∀ t f, h.calls.frame t = some f → h.calls.Granted f.queue t →
    ∃ d, h.got t = some d ∧ (h.calls.ker.thread t).swapData = some d
  nothing : ∀ t f, h.calls.frame t = some f → ¬ h.calls.Granted f.queue t → h.got t = none

structure HandsInv (cfg : Config Tid Qid) (h : Hands Tid Qid D κ) (w : Qid → List Tid) :
    Prop extends HandsBase cfg h w where
  running : h.calls.frame h.calls.ker.current = none

variable {cfg : Config Tid Qid} {h : Hands Tid Qid D κ} {w w' : Qid → List Tid}
variable {q : Qid} {t : Tid} {d : D}

theorem HandsInv.callsInv (i : HandsInv cfg h w) : CallsInv cfg h.calls w := ⟨i.calls, i.running⟩

theorem HandsBase.onWay_waiting (i : HandsBase cfg h w) (ht : h.calls.Waiting q t) :
    h.onWay t = none := by
  obtain ⟨f, hf, -⟩ := Option.map_eq_some_iff.mp ht.2
  have hg : ¬ h.calls.Granted f.queue t := Calls.not_granted_of_pending ht.1
  rw [Hands.onWay, hf]
  exact i.nothing t f hf hg

section OnWay

def carriers [DecidableEq D] (f : Tid → Option D) (x : D) : Finset Tid :=
  Finset.univ.filter fun t => f t = some x

theorem mem_carriers [DecidableEq D] {f : Tid → Option D} {x : D} :
    t ∈ carriers f x ↔ f t = some x := by
  simp [carriers]

theorem card_carriers [DecidableEq D] (f : Tid → Option D) (t : Tid) (x : D) :
    (carriers f x).card
      = (carriers (update f t none) x).card + if f t = some x then 1 else 0 := by
  have herase : carriers (update f t none) x = (carriers f x).erase t := by
    ext y
    rw [Finset.mem_erase, mem_carriers, mem_carriers]
    by_cases hy : y = t
    · rw [hy, update_self]
      exact ⟨fun hc => (nomatch hc), fun hc => absurd rfl hc.1⟩
    · rw [update_of_ne hy]
      exact ⟨fun hc => ⟨hy, hc⟩, fun hc => hc.2⟩
  rw [herase]
  by_cases ht : f t = some x
  · have hmem := mem_carriers.mpr ht
    have hpos := Finset.card_pos.mpr ⟨t, hmem⟩
    rw [if_pos ht, Finset.card_erase_of_mem hmem]
    omega
  · rw [if_neg ht, Finset.erase_eq_of_notMem fun hc => ht (mem_carriers.mp hc)]
    rfl

theorem card_carriers_update [DecidableEq D] {f : Tid → Option D} (ht : f t = none) (d x : D) :
    (carriers (update f t (some d)) x).card
      = (carriers f x).card + if d = x then 1 else 0 := by
  have hf : update (update f t (some d)) t none = f := by
    rw [update_idem, ← ht]
    exact update_eq_self t f
  have h1 := card_carriers (update f t (some d)) t x
  rw [hf, update_self] at h1
  rw [h1]
  simp only [Option.some.injEq]

omit [DecidableEq Qid] in
theorem Hands.onWay_record (ht : h.calls.Waiting q t) (k' : Kernel Tid Qid Empty D) (d : D) :
    (h.record k' (some t) d).onWay = update h.onWay t (some d) := by
  obtain ⟨f, hf, -⟩ := Option.map_eq_some_iff.mp ht.2
  funext x
  show (h.calls.frame x).bind (fun _ => update h.got t (some d) x) = _
  by_cases hx : x = t
  · rw [hx, hf, update_self, update_self]
    rfl
  · rw [update_of_ne hx, update_of_ne hx]
    rfl

theorem HandsInv.onWay_leave (i : HandsInv cfg h w) (k' : Kernel Tid Qid Empty D)
    (q : Qid) (call : κ) : (h.leave k' q call).onWay = h.onWay := by
  funext x
  by_cases hx : x = h.calls.ker.current
  · have h1 : (h.leave k' q call).onWay x = none := by
      show (update h.calls.frame h.calls.ker.current (some _) x).bind
        (fun _ => update h.got h.calls.ker.current none x) = none
      rw [hx, update_self, update_self]
      rfl
    rw [h1, Hands.onWay, hx, i.running]
    rfl
  · show (update h.calls.frame h.calls.ker.current (some _) x).bind
        (fun _ => update h.got h.calls.ker.current none x) = _
    rw [update_of_ne hx, update_of_ne hx]
    rfl

omit [DecidableEq Qid] in
theorem Hands.onWay_resume (h : Hands Tid Qid D κ) :
    h.resume.onWay = update h.onWay h.calls.ker.current none := by
  funext x
  show (update h.calls.frame h.calls.ker.current none x).bind (fun _ => h.got x) = _
  by_cases hx : x = h.calls.ker.current
  · rw [hx, update_self, update_self]
    rfl
  · rw [update_of_ne hx, update_of_ne hx]
    rfl

end OnWay

section Steps

theorem HandsBase.kernel (i : HandsBase cfg h w) {k' : Kernel Tid Qid Empty D}
    (hc : CallsBase cfg (h.setKer k').calls w')
    (hg : ∀ q, (h.setKer k').calls.granted q = h.calls.granted q)
    (hd : ∀ t, (k'.thread t).swapData = (h.calls.ker.thread t).swapData) :
    HandsBase cfg (h.setKer k') w' := by
  have hiff : ∀ q t, (h.setKer k').calls.Granted q t ↔ h.calls.Granted q t := by
    intro q t
    rw [← Calls.mem_granted, ← Calls.mem_granted, hg]
  refine ⟨hc, ?_, ?_⟩
  · intro t f hf hgr
    obtain ⟨d, h1, h2⟩ := i.handed t f hf ((hiff _ _).mp hgr)
    exact ⟨d, h1, (hd t).trans h2⟩
  · exact fun t f hf hgr => i.nothing t f hf fun hc => hgr ((hiff _ _).mpr hc)

def Woken (th th' : Thread D) (d : D) : Prop :=
  th.state = .pending ∧ th'.state = .ready ∧ th'.swapData = some d ∧ zPendResult th' = 0

omit [Threads Tid] [DecidableEq Qid] in
theorem Hands.onWay_woken {k' : Kernel Tid Qid Empty D} {d : D} (hf : h.calls.frame t ≠ none)
    (hw : Woken (h.calls.ker.thread t) (k'.thread t) d) : (h.wake k').onWay t = some d := by
  obtain ⟨f, hf⟩ := Option.ne_none_iff_exists'.mp hf
  obtain ⟨hp, hr, hd, -⟩ := hw
  show (h.calls.frame t).bind (fun _ => (h.wake k').got t) = _
  rw [hf]
  exact (if_pos ⟨hp, hr⟩).trans hd

omit [Threads Tid] [DecidableEq Qid] in
theorem Hands.onWay_same {k' : Kernel Tid Qid Empty D}
    (ht : h.calls.frame t ≠ none → k'.thread t = h.calls.ker.thread t) :
    (h.wake k').onWay t = h.onWay t := by
  show (h.calls.frame t).bind (fun _ => (h.wake k').got t) = _
  rw [Hands.onWay]
  cases hf : h.calls.frame t with
  | none => rfl
  | some f => exact Hands.got_wake (ht fun hn => nomatch hf.symm.trans hn)

theorem HandsBase.wake (i : HandsBase cfg h w) {k' : Kernel Tid Qid Empty D}
    (hc : CallsBase cfg { h.calls with ker := k' } w')
    (hth : ∀ t, h.calls.frame t ≠ none → k'.thread t = h.calls.ker.thread t
      ∨ ∃ d, Woken (h.calls.ker.thread t) (k'.thread t) d) :
    HandsBase cfg (h.wake k') w' := by
  have hiff : ∀ q t, k'.thread t = h.calls.ker.thread t →
      ((h.wake k').calls.Granted q t ↔ h.calls.Granted q t) :=
    fun q t ht => Calls.granted_iff rfl ht
  refine ⟨hc, ?_, ?_⟩
  · intro t f hf hg
    have hne : h.calls.frame t ≠ none := fun hn => nomatch hf.symm.trans hn
    rcases hth t hne with ht | ⟨d, hp, hr, hd, -⟩
    · obtain ⟨d, h1, h2⟩ := i.handed t f hf ((hiff _ t ht).mp hg)
      exact ⟨d, (Hands.got_wake ht).trans h1, (congrArg Thread.swapData ht).trans h2⟩
    · exact ⟨d, (if_pos ⟨hp, hr⟩).trans hd, hd⟩
  · intro t f hf hg
    have hne : h.calls.frame t ≠ none := fun hn => nomatch hf.symm.trans hn
    rcases hth t hne with ht | ⟨d, -, hr, -, hz⟩
    · exact (Hands.got_wake ht).trans (i.nothing t f hf fun hc => hg ((hiff _ t ht).mpr hc))
    · exact absurd ⟨hr, congrArg (Option.map CallFrame.queue) hf, hz⟩ hg

theorem HandsInv.swap (i : HandsInv cfg h w) (data : Option D) :
    HandsInv cfg (h.setKer (h.calls.ker.modThread h.calls.ker.current
      fun th => { th with swapData := data })) w := by
  have hinv := i.callsInv.swap h.calls.ker.current data
  have hth : ∀ t f, h.calls.frame t = some f → (h.calls.ker.modThread h.calls.ker.current
        fun th => { th with swapData := data }).thread t = h.calls.ker.thread t := by
    intro t f hf
    refine update_of_ne (fun hc => ?_) _ _
    rw [hc, i.running] at hf
    exact nomatch hf
  have hiff : ∀ q t f, h.calls.frame t = some f →
      ((h.setKer (h.calls.ker.modThread h.calls.ker.current
        fun th => { th with swapData := data })).calls.Granted q t ↔ h.calls.Granted q t) :=
    fun q t f hf => Calls.granted_iff rfl (hth t f hf)
  refine ⟨⟨hinv.toCallsBase, ?_, ?_⟩, hinv.running⟩
  · intro t f hf hg
    obtain ⟨d, h1, h2⟩ := i.handed t f hf ((hiff _ t f hf).mp hg)
    exact ⟨d, h1, (congrArg Thread.swapData (hth t f hf)).trans h2⟩
  · intro t f hf hg
    exact i.nothing t f hf fun hc => hg ((hiff _ t f hf).mpr hc)

theorem HandsInv.schedEnter (i : HandsInv cfg h w) :
    ∃ w', HandsInv cfg (h.setKer (zSchedEnter cfg h.calls.ker)) w' ∧ ∀ q, (w' q).Sublist (w q) := by
  obtain ⟨E, -, hinv, hth, -⟩ := i.callsInv.schedEnter
  refine ⟨_, ⟨i.toHandsBase.kernel hinv.toCallsBase (fun _ => i.callsInv.granted_schedEnter)
    ?_, hinv.running⟩, fun q => filter_sublist⟩
  intro t
  rw [hth]
  split_ifs <;> rfl

theorem HandsInv.cancel (i : HandsInv cfg h w) (q : Qid) :
    HandsInv cfg (h.setKer (zCancelAllPending cfg h.calls.ker q).1) (update w q []) := by
  obtain ⟨hinv, hth, -⟩ := i.callsInv.unpendAll marks_cancel q
  refine ⟨i.toHandsBase.kernel hinv.toCallsBase (fun _ => i.callsInv.granted_cancel q) ?_,
    hinv.running⟩
  intro t
  show ((zUnpendAllLoop cfg q Thread.cancel (Fintype.card Tid) h.calls.ker 0).1.thread
    t).swapData = _
  rw [hth]
  split_ifs <;> rfl

theorem HandsInv.yield (i : HandsInv cfg h w) :
    HandsBase cfg (h.setKer (zScheduler h.calls.ker)) w := by
  obtain ⟨hbase, hth⟩ := i.callsInv.yield
  refine i.toHandsBase.kernel hbase (fun _ => i.callsInv.granted_yield) ?_
  intro t
  rw [hth]
  split_ifs <;> rfl

theorem HandsInv.leave (i : HandsInv cfg h w) (hc : h.calls.ker.current ≠ cfg.idle)
    (q : Qid) (call : κ) {timeout : cfg.Timeout} (hne : timeout ≠ kNoWait cfg) :
    (zPendCurrentOn cfg h.calls.ker (some q) timeout).2 = none
      ∧ HandsBase cfg (h.leave (zPendCurrentOn cfg h.calls.ker (some q) timeout).1 q call)
          (update w q (w q ++ [h.calls.ker.current])) := by
  obtain ⟨hnone, hbase, hth, -⟩ := i.callsInv.leave hc q call hne
  generalize (zPendCurrentOn cfg h.calls.ker (some q) timeout).1 = k' at *
  have hpend : (k'.thread h.calls.ker.current).state = .pending := by
    rw [hth, if_pos rfl]
    rfl
  have hgranted : ∀ q', (h.calls.leave k' q call).granted q' = h.calls.granted q' :=
    fun q' => i.callsInv.granted_leave q hpend fun x hx => by rw [hth, if_neg hx]
  have hiff : ∀ q' x, (h.calls.leave k' q call).Granted q' x ↔ h.calls.Granted q' x := by
    intro q' x
    rw [← Calls.mem_granted, ← Calls.mem_granted, hgranted]
  have hother : ∀ x f, x ≠ h.calls.ker.current → (h.calls.leave k' q call).frame x = some f →
      h.calls.frame x = some f := by
    intro x f hx hf
    replace hf : update h.calls.frame h.calls.ker.current (some _) x = some f := hf
    rw [update_of_ne hx] at hf
    exact hf
  refine ⟨hnone, hbase, ?_, ?_⟩
  · intro x f hf hg
    have hx : x ≠ h.calls.ker.current := by
      rintro rfl
      exact Calls.not_granted_of_pending hpend hg
    obtain ⟨d, h1, h2⟩ := i.handed x f (hother x f hx hf) ((hiff _ _).mp hg)
    refine ⟨d, ?_, ?_⟩
    · exact (update_of_ne hx ..).trans h1
    · show (k'.thread x).swapData = some d
      rw [hth, if_neg hx]
      exact h2
  · intro x f hf hg
    show update h.got h.calls.ker.current none x = none
    by_cases hx : x = h.calls.ker.current
    · rw [hx, update_self]
    · rw [update_of_ne hx]
      exact i.nothing x f (hother x f hx hf) fun hc => hg ((hiff _ _).mpr hc)

theorem HandsInv.give (i : HandsInv cfg h w) (q : Qid) (d : D) :
    (zUnpendFirstAndSwap cfg h.calls.ker q (some d)).2 = (w q).head?
      ∧ HandsInv cfg (h.record (zUnpendFirstAndSwap cfg h.calls.ker q (some d)).1
          (w q).head? d) (update w q (w q).tail) := by
  obtain ⟨hhead, hinv, hth, hcur⟩ := i.callsInv.unpendAndSwap q (some d)
  generalize zUnpendFirstAndSwap cfg h.calls.ker q (some d) = r at *
  have hsame : ∀ q' x, (w q).head? ≠ some x →
      ((h.record r.1 (w q).head? d).calls.Granted q' x ↔ h.calls.Granted q' x) := by
    intro q' x hx
    refine Calls.granted_iff rfl ?_
    show r.1.thread x = h.calls.ker.thread x
    rw [hth, if_neg hx]
  refine ⟨hhead, ⟨hinv.toCallsBase, ?_, ?_⟩, hinv.running⟩
  · intro x f hf hg
    rw [Hands.got_record]
    show ∃ d', _ ∧ (r.1.thread x).swapData = some d'
    rw [hth]
    by_cases hx : (w q).head? = some x
    · rw [if_pos hx, if_pos hx]
      exact ⟨d, rfl, rfl⟩
    · rw [if_neg hx, if_neg hx]
      exact i.handed x f hf ((hsame _ x hx).mp hg)
  · intro x f hf hg
    rw [Hands.got_record]
    by_cases hx : (w q).head? = some x
    · -- the wait of the first waiter is successful
      refine absurd ?_ hg
      have hwait := (i.calls.waits q x).mp (mem_of_mem_head? hx)
      obtain ⟨hte, hpc⟩ := i.calls.flags hwait.1
      have hq : h.calls.queue x = some f.queue := congrArg (Option.map CallFrame.queue) hf
      show (r.1.thread x).state = .ready ∧ h.calls.queue x = some f.queue
        ∧ zPendResult (r.1.thread x) = 0
      rw [hth, if_pos hx, zPendResult_eq_zero]
      exact ⟨rfl, hq, hte, hpc⟩
    · rw [if_neg hx]
      exact i.nothing x f hf fun hc => hg ((hsame _ x hx).mpr hc)

theorem HandsBase.served (i : HandsBase cfg h w) {k' : Kernel Tid Qid Empty D} {x : D}
    (hnew : (h.record k' (w q).head? d).onWay t = some x) (hold : h.onWay t = none) :
    x = d ∧ h.calls.Waiting q t
      ∧ ∀ t', h.calls.Waiting q t' → t' ≠ t → h.calls.stamp t < h.calls.stamp t' := by
  have hno : h.onWay t ≠ some x := by
    rw [hold]
    exact fun hc => nomatch hc
  cases hw : w q with
  | nil =>
    rw [hw] at hnew
    exact absurd hnew hno
  | cons a rest =>
    have hwait : h.calls.Waiting q a := by
      rw [← i.calls.waits, hw]
      exact mem_cons_self
    rw [hw, List.head?_cons, Hands.onWay_record hwait] at hnew
    have hta : t = a := by
      by_contra hne
      rw [update_of_ne hne] at hnew
      exact hno hnew
    subst hta
    rw [update_self] at hnew
    injection hnew with hx
    refine ⟨hx.symm, hwait, ?_⟩
    intro t' ht' hne
    have hord := i.calls.order q
    have hmem := (i.calls.waits q t').mpr ht'
    rw [hw] at hord hmem
    exact (pairwise_cons.mp hord).1 t' ((mem_cons.mp hmem).resolve_left hne)

theorem HandsBase.onWay_result (i : HandsBase cfg h w) (ht : h.onWay t = some d) :
    ∃ q, h.calls.Granted q t ∧ (h.calls.ker.thread t).swapData = some d := by
  obtain ⟨f, hf, hgot⟩ := Option.bind_eq_some_iff.mp ht
  by_cases hg : h.calls.Granted f.queue t
  · obtain ⟨d', hd, hs⟩ := i.handed t f hf hg
    rw [hd] at hgot
    injection hgot with hgot
    exact ⟨f.queue, hg, hgot ▸ hs⟩
  · rw [i.nothing t f hf hg] at hgot
    exact nomatch hgot

theorem HandsBase.resume (i : HandsBase cfg h w) : HandsInv cfg h.resume w := by
  have hframe : ∀ x f, h.resume.calls.frame x = some f →
      x ≠ h.calls.ker.current ∧ h.calls.frame x = some f := by
    intro x f hf
    replace hf : update h.calls.frame h.calls.ker.current none x = some f := hf
    have hx : x ≠ h.calls.ker.current := by
      rintro rfl
      rw [update_self] at hf
      exact nomatch hf
    rw [update_of_ne hx] at hf
    exact ⟨hx, hf⟩
  have hiff : ∀ q x, x ≠ h.calls.ker.current →
      (h.resume.calls.Granted q x ↔ h.calls.Granted q x) := by
    intro q x hx
    exact Calls.granted_iff (update_of_ne hx _ _) rfl
  have hinv := i.calls.resume
  refine ⟨⟨hinv.toCallsBase, ?_, ?_⟩, hinv.running⟩
  · intro x f hf hg
    obtain ⟨hx, hf⟩ := hframe x f hf
    exact i.handed x f hf ((hiff _ x hx).mp hg)
  · intro x f hf hg
    obtain ⟨hx, hf⟩ := hframe x f hf
    exact i.nothing x f hf fun hc => hg ((hiff _ x hx).mpr hc)

theorem HandsBase.result (i : HandsBase cfg h w) {f : CallFrame Qid κ}
    (hf : h.calls.frame h.calls.ker.current = some f) :
    zPendResult (h.calls.ker.thread h.calls.ker.current) = 0
        ∧ (∃ d, h.got h.calls.ker.current = some d
          ∧ (h.calls.ker.thread h.calls.ker.current).swapData = some d)
      ∨ zPendResult (h.calls.ker.thread h.calls.ker.current) ≠ 0
        ∧ h.got h.calls.ker.current = none := by
  have hg := i.calls.granted_current (q := f.queue) hf
  rw [Calls.mem_granted] at hg
  by_cases hz : zPendResult (h.calls.ker.thread h.calls.ker.current) = 0
  · exact Or.inl ⟨hz, i.handed _ f hf (hg.mpr ⟨rfl, hz⟩)⟩
  · exact Or.inr ⟨hz, i.nothing _ f hf fun hc => hz (hg.mp hc).2⟩

end Steps

/-- Nothing is on its way. -/
def handsBoot (k : Kernel Tid Qid Empty D) : Hands Tid Qid D κ where
  calls := callsBoot k
  got := fun _ => none

theorem ColdBoot.handsInv {k : Kernel Tid Qid Empty D} {ring : List Tid} (hb : ColdBoot cfg k ring) :
    HandsInv cfg (handsBoot k : Hands Tid Qid D κ) (fun _ => []) :=
  ⟨⟨hb.callsInv.toCallsBase, fun _ _ hf => (nomatch hf), fun _ _ _ _ => rfl⟩, rfl⟩

omit [DecidableEq Qid] in
theorem card_carriers_handsBoot [DecidableEq D] (k : Kernel Tid Qid Empty D) (x : D) :
    (carriers (handsBoot k : Hands Tid Qid D κ).onWay x).card = 0 := by
  rw [Finset.card_eq_zero]
  ext t
  rw [mem_carriers]
  exact ⟨fun hc => (nomatch hc), fun hc => absurd hc (Finset.notMem_empty t)⟩

end AvrtosKernel
