import Avrtos.PollLoops

/-! # What the kernel does with descriptors in its wait queues

    Each step of the kernel with descriptors in its queues keeps `PollInv`. -/

namespace AvrtosPoll

open Function List AvrtosDefines AvrtosDlist AvrtosKernel Cells LinkedRing

variable {Tid Qid Pid : Type} [Threads Tid]
variable [DecidableEq Qid] [DecidableEq Pid]

variable {cfg : Config Tid Qid} {c c' : Pollers Tid Qid Pid} {k : Kernel Tid Qid Pid Nat}
variable {s s' : Shape Tid Qid Pid} {t : Tid} {q : Qid} {p : Pid} {r : Resource}
variable {rest : List (WNode Tid Qid Pid)}

private theorem resume_other (h : PollBase cfg c s)
    (hne : ∀ pfds, c.call c.ker.current ≠ some (.poll pfds)) (hker : c.resume.ker = c.ker) :
    PollInv cfg c.resume s ∧ SameThreads c.ker c.resume.ker s s := by
  have hcall : ∀ t, t ≠ c.ker.current → update c.call c.ker.current none t = c.call t :=
    fun t ht => update_of_ne ht _ _
  have hself : update c.call c.ker.current none c.ker.current = none :=
    update_self ..
  have hres : c.resume = ⟨c.resume.ker, update c.call c.ker.current none⟩ := rfl
  rw [hres, hker]
  refine ⟨⟨h.frame h.kernel rfl ?_ (fun _ _ => Iff.rfl) ?_, hself⟩, SameThreads.refl _ _⟩
  · intro q t
    rw [h.waits]
    refine exists_congr fun r => ?_
    by_cases ht : t = c.ker.current
    · subst ht
      exact ⟨fun hc => absurd hc.1 (KInv.current_not_pending h.kernel),
        fun hc => absurd hc.1 (KInv.current_not_pending h.kernel)⟩
    · simp only [Pollers.Blocked, hcall t ht]
  · intro t pfds
    show update c.call c.ker.current none t = _ ↔ _
    by_cases ht : t = c.ker.current
    · subst ht
      rw [hself]
      exact ⟨fun hc => absurd hc.symm (Option.some_ne_none _), fun hc => absurd hc (hne pfds)⟩
    · rw [hcall t ht]

theorem PollBase.resume (h : PollBase cfg c s) :
    ∃ s', PollInv cfg c.resume s' ∧ SameThreads c.ker c.resume.ker s s' := by
  cases hc : c.call c.ker.current with
  | none =>
    refine ⟨s, resume_other h (fun pfds hc' => ?_) (by simp only [Pollers.resume, hc])⟩
    rw [hc] at hc'
    exact nomatch hc'
  | some call =>
    cases call with
    | wait r q =>
      refine ⟨s, resume_other h (fun pfds hc' => ?_) (by simp only [Pollers.resume, hc])⟩
      rw [hc] at hc'
      exact nomatch hc'
    | sleep =>
      refine ⟨s, resume_other h (fun pfds hc' => ?_) (by simp only [Pollers.resume, hc])⟩
      rw [hc] at hc'
      exact nomatch hc'
    | poll pfds =>
      obtain ⟨s', hbase, hsame⟩ := h.cleanup hc
      have hres : c.resume = ⟨kPollCleanup pfds c.ker,
          update c.call c.ker.current none⟩ := by
        simp only [Pollers.resume, hc]
      rw [hres]
      refine ⟨s', ⟨hbase, ?_⟩, hsame⟩
      show update c.call c.ker.current none (kPollCleanup pfds c.ker).current = none
      rw [hsame.current, update_self]

theorem PollInv.frame_ker (h : PollInv cfg c s) (hk : KInv cfg k s')
    (hcur : k.current = c.ker.current) (hpollfd : k.pollfd = c.ker.pollfd)
    (hwaits : ∀ q t, .handle t ∈ s'.waitq q ↔ (k.thread t).state = .pending ∧ .handle t ∈ s.waitq q)
    (hpending : ∀ t, (k.thread t).state = .pending → (c.ker.thread t).state = .pending)
    (hpoll : ∀ q p, .poll p ∈ s'.waitq q ↔ .poll p ∈ s.waitq q) :
    PollInv cfg { c with ker := k } s' := by
  have hk' : KInv cfg ({ c with ker := k } : Pollers Tid Qid Pid).ker s' := hk
  refine ⟨h.toPollBase.frame hk' hpollfd ?_ hpoll (fun _ _ => Iff.rfl), ?_⟩
  · intro q t
    rw [hwaits, h.waits]
    constructor
    · rintro ⟨hp, r, -, hr⟩
      exact ⟨r, hp, hr⟩
    · rintro ⟨r, hp, hr⟩
      exact ⟨hp, r, hpending t hp, hr⟩
  · show c.call k.current = none
    rw [hcur]
    exact h.running

theorem PollBase.pending (h : PollBase cfg c s) (ht : .handle t ∈ s.waitq q) :
    (c.ker.thread t).state = .pending := h.kernel.waiting q t ht

theorem PollInv.unpend_nil (h : PollInv cfg c s) (hq : s.waitq q = []) :
    (zUnpendFirstThread cfg c.ker q).2 = none
      ∧ PollInv cfg { c with ker := (zUnpendFirstThread cfg c.ker q).1 } s
      ∧ (zUnpendFirstThread cfg c.ker q).1.thread = c.ker.thread := by
  obtain ⟨hnone, hbase, hthread, hcur, hpollfd, -⟩ := h.kernel.toKBase.unpend_nil hq
  have hk : KInv cfg (zUnpendFirstThread cfg c.ker q).1 s := by
    refine ⟨hbase, ?_⟩
    rw [hcur]
    exact h.kernel.current
  refine ⟨hnone, h.frame_ker hk hcur hpollfd ?_ ?_ fun _ _ => Iff.rfl, hthread⟩
  · intro q' t
    rw [hthread]
    exact ⟨fun ht => ⟨h.pending ht, ht⟩, fun ht => ht.2⟩
  · intro t
    rw [hthread]
    exact id

theorem KBase.mem_rest {n x : WNode Tid Qid Pid} {q' : Qid} (h : KBase cfg k s)
    (hq : s.waitq q = n :: rest) :
    x ∈ update s.waitq q rest q' ↔ x ≠ n ∧ x ∈ s.waitq q' := by
  constructor
  · intro hx
    refine ⟨?_, ?_⟩
    · rintro rfl
      exact h.unqueued_head hq q' hx
    · by_cases hqq : q' = q
      · subst hqq
        rw [update_self] at hx
        rw [hq]
        exact mem_cons_of_mem _ hx
      · rw [update_of_ne hqq] at hx
        exact hx
  · rintro ⟨hne, hx⟩
    by_cases hqq : q' = q
    · subst hqq
      rw [update_self]
      rw [hq] at hx
      exact (mem_cons.mp hx).resolve_left hne
    · rw [update_of_ne hqq]
      exact hx

theorem PollInv.unpend_handle (h : PollInv cfg c s) (hq : s.waitq q = .handle t :: rest) :
    (zUnpendFirstThread cfg c.ker q).2 = some t
      ∧ PollInv cfg { c with ker := (zUnpendFirstThread cfg c.ker q).1 }
          { ring := insertReady t s.ring, timeq := DeltaList.removeDelta t s.timeq,
            waitq := update s.waitq q rest }
      ∧ (zUnpendFirstThread cfg c.ker q).1.thread
          = update c.ker.thread t (c.ker.thread t).woken := by
  obtain ⟨hsome, hbase, hthread, hcur, hpollfd, -⟩ := h.kernel.toKBase.unpend_handle hq
  have hk : KInv cfg (zUnpendFirstThread cfg c.ker q).1
      { ring := insertReady t s.ring, timeq := DeltaList.removeDelta t s.timeq,
        waitq := update s.waitq q rest } := by
    refine ⟨hbase, ?_⟩
    rw [hcur]
    exact h.kernel.current_insertReady t
  have hstate : ∀ x, ((zUnpendFirstThread cfg c.ker q).1.thread x).state = .pending
      ↔ x ≠ t ∧ (c.ker.thread x).state = .pending := by
    intro x
    rw [hthread]
    by_cases hx : x = t
    · simp [hx]
    · rw [update_of_ne hx]
      simp [hx]
  refine ⟨hsome, h.frame_ker hk hcur hpollfd ?_ (fun x hx => ((hstate x).mp hx).2) ?_, hthread⟩
  · intro q' x
    rw [KBase.mem_rest h.kernel.toKBase hq, hstate]
    constructor
    · rintro ⟨hne, hx⟩
      exact ⟨⟨fun hc => hne (congrArg _ hc), h.pending hx⟩, hx⟩
    · rintro ⟨⟨hne, -⟩, hx⟩
      exact ⟨fun hc => hne (by injection hc), hx⟩
  · intro q' p
    rw [KBase.mem_rest h.kernel.toKBase hq]
    exact ⟨fun hp => hp.2, fun hp => ⟨fun hc => (nomatch hc), hp⟩⟩

theorem PollInv.unpend_poll (h : PollInv cfg c s) (hq : s.waitq q = .poll p :: rest)
    (hp : (c.ker.thread (c.ker.pollfd p).thread).state = .pending) :
    (zUnpendFirstThread cfg c.ker q).2 = none
      ∧ PollInv cfg { c with ker := (zUnpendFirstThread cfg c.ker q).1 }
          { ring := insertReady (c.ker.pollfd p).thread s.ring,
            timeq := DeltaList.removeDelta (c.ker.pollfd p).thread s.timeq,
            waitq := update s.waitq q rest }
      ∧ (zUnpendFirstThread cfg c.ker q).1.thread
          = update c.ker.thread (c.ker.pollfd p).thread
            (c.ker.thread (c.ker.pollfd p).thread).woken := by
  have hmem : .poll p ∈ s.waitq q := by
    rw [hq]
    exact mem_cons_self
  obtain ⟨hopen, pfds, hpfds, -⟩ := h.linked q p hmem
  have hu := h.poller_unqueued hpfds
  obtain ⟨hnone, hbase, hthread, hcur, hpollfd⟩ := h.kernel.toKBase.unpend_poll hq hp hu
  have hk : KInv cfg (zUnpendFirstThread cfg c.ker q).1
      { ring := insertReady (c.ker.pollfd p).thread s.ring,
        timeq := DeltaList.removeDelta (c.ker.pollfd p).thread s.timeq,
        waitq := update s.waitq q rest } := by
    refine ⟨hbase, ?_⟩
    rw [hcur]
    exact h.kernel.current_insertReady _
  have hnodes : ∀ q' n, n ∈ update s.waitq q rest q'
      ↔ n ≠ .poll p ∧ n ∈ s.waitq q' := fun q' n => KBase.mem_rest h.kernel.toKBase hq
  have hpfd : ∀ p', p' ≠ p → (zUnpendFirstThread cfg c.ker q).1.pollfd p' = c.ker.pollfd p' := by
    intro p' hne
    rw [hpollfd, update_of_ne hne]
  refine ⟨hnone, ⟨⟨hk, ?_, ?_, h.array, ?_⟩, ?_⟩, hthread⟩
  · intro q' x
    rw [hnodes, h.waits]
    have hne : (WNode.handle x : WNode Tid Qid Pid) ≠ .poll p := by simp
    simp only [ne_eq, hne, not_false_eq_true, true_and, Pollers.Blocked, hthread]
    by_cases hx : x = (c.ker.pollfd p).thread
    · -- the poller is in `k_poll`, before and after
      rw [hx, hpfds]
      simp
    · rw [update_of_ne hx]
  · intro q' p' hp'
    obtain ⟨hne, hp''⟩ := (hnodes q' _).mp hp'
    have hne' : p' ≠ p := fun hc => hne (congrArg _ hc)
    obtain ⟨hopen', hrest⟩ := h.linked q' p' hp''
    show Open ((zUnpendFirstThread cfg c.ker q).1.pollfd p') ∧ _
    rw [hpfd p' hne']
    exact ⟨hopen', hrest⟩
  · intro t pfds' ht item hitem hio
    replace hio : Open ((zUnpendFirstThread cfg c.ker q).1.pollfd item.pfd) := hio
    have hne : item.pfd ≠ p := by
      intro hc
      rw [hc, hpollfd, update_self] at hio
      cases hio.1
    show ((zUnpendFirstThread cfg c.ker q).1.pollfd item.pfd).thread = t ∧ _
    rw [hpfd _ hne] at hio ⊢
    obtain ⟨hth, htype, q', hq'⟩ := h.items t pfds' ht item hitem hio
    exact ⟨hth, htype, q', (hnodes q' _).mpr ⟨fun hc => hne (by injection hc), hq'⟩⟩
  · show c.call (zUnpendFirstThread cfg c.ker q).1.current = none
    rw [hcur]
    exact h.running

def firstPolled (k : Kernel Tid Qid Pid Nat) (q : Qid) : Option Pid :=
  match next k.wait (.queue q : WNode Tid Qid Pid) with
  | .poll p => some p
  | _ => none

def PollerPending (k : Kernel Tid Qid Pid Nat) (q : Qid) : Prop :=
  ∀ p ∈ firstPolled k q, (k.thread (k.pollfd p).thread).state = .pending

instance (k : Kernel Tid Qid Pid Nat) (q : Qid) : Decidable (PollerPending k q) :=
  Option.decidableForallMem _

theorem PollBase.firstPolled_eq (h : PollBase cfg c s) (hq : s.waitq q = .poll p :: rest) :
    firstPolled c.ker q = some p := by
  have hring := h.kernel.wait.ringed q
  rw [hq] at hring
  have hnx : next c.ker.wait (.queue q : WNode Tid Qid Pid) = .poll p := hring.next_head
  rw [firstPolled, hnx]

inductive Unpends (c : Pollers Tid Qid Pid) (q : Qid) (s s' : Shape Tid Qid Pid)
    (k' : Kernel Tid Qid Pid Nat) : Option Tid → Prop
  | thread (t : Tid) (head : direct (s.waitq q) = t :: direct (s'.waitq q))
      (others : ∀ q', q' ≠ q → direct (s'.waitq q') = direct (s.waitq q'))
      (record : k'.thread = update c.ker.thread t (c.ker.thread t).woken) :
      Unpends c q s s' k' (some t)
  | nobody (first : s.waitq q = [] ∨ (firstPolled c.ker q).isSome = true)
      (same : ∀ q', direct (s'.waitq q') = direct (s.waitq q'))
      (record : ∀ x, (∀ pfds, c.call x ≠ some (.poll pfds)) →
        k'.thread x = c.ker.thread x) :
      Unpends c q s s' k' none

theorem Unpends.pending {k' : Kernel Tid Qid Pid Nat} {ret : Option Tid} {x : Tid}
    (h : Unpends c q s s' k' ret) (hx : ∀ pfds, c.call x ≠ some (.poll pfds))
    (hp : (k'.thread x).state = .pending) : (c.ker.thread x).state = .pending := by
  cases h with
  | thread t _ _ hrec =>
    rw [hrec] at hp
    by_cases hxt : x = t
    · subst hxt
      rw [update_self] at hp
      exact nomatch hp
    · rw [update_of_ne hxt] at hp
      exact hp
  | nobody _ _ hrec =>
    rw [hrec x hx] at hp
    exact hp

theorem Unpends.swapData {k' : Kernel Tid Qid Pid Nat} {ret : Option Tid} {x : Tid}
    (h : Unpends c q s s' k' ret) (hx : ∀ pfds, c.call x ≠ some (.poll pfds)) :
    (k'.thread x).swapData = (c.ker.thread x).swapData := by
  cases h with
  | thread t _ _ hrec =>
    rw [hrec]
    by_cases hxt : x = t
    · rw [hxt, update_self]
      rfl
    · rw [update_of_ne hxt]
  | nobody _ _ hrec => rw [hrec x hx]

theorem PollBase.unpend_some (h : PollBase cfg c s)
    (ht : (zUnpendFirstThread cfg c.ker q).2 = some t) :
    ∃ rest, s.waitq q = .handle t :: rest := by
  cases hq : s.waitq q with
  | nil =>
    obtain ⟨hnone, -⟩ := h.kernel.toKBase.unpend_nil hq
    rw [hnone] at ht
    cases ht
  | cons n rest =>
    have hget := (h.kernel.wait.get_cons hq).1
    have hne : n ≠ .queue q := by
      refine h.kernel.wait.node q n ?_ q
      rw [hq]
      exact mem_cons_self
    rw [zUnpendFirstThread, hget] at ht
    simp only [if_neg hne] at ht
    cases n with
    | queue q' => cases ht
    | poll p => cases ht
    | handle x =>
      injection ht with ht
      exact ⟨rest, by rw [ht]⟩

theorem PollInv.unpend (h : PollInv cfg c s) (q : Qid) (hp : PollerPending c.ker q) :
    ∃ s', PollInv cfg { c with ker := (zUnpendFirstThread cfg c.ker q).1 } s'
      ∧ Unpends c q s s' (zUnpendFirstThread cfg c.ker q).1 (zUnpendFirstThread cfg c.ker q).2
      ∧ (zUnpendFirstThread cfg c.ker q).1.current = c.ker.current := by
  cases hq : s.waitq q with
  | nil =>
    obtain ⟨hnone, hinv, hthread⟩ := h.unpend_nil hq
    obtain ⟨-, -, -, hcur, -⟩ := h.kernel.toKBase.unpend_nil hq
    rw [hnone]
    exact ⟨s, hinv, .nobody (Or.inl hq) (fun _ => rfl) (fun x _ => by rw [hthread]), hcur⟩
  | cons n rest =>
    cases n with
    | queue q' =>
      refine absurd rfl (h.kernel.wait.node q (.queue q') ?_ q')
      rw [hq]
      exact mem_cons_self
    | handle t =>
      obtain ⟨hsome, hinv, hthread⟩ := h.unpend_handle hq
      obtain ⟨-, -, -, hcur, -⟩ := h.kernel.toKBase.unpend_handle hq
      rw [hsome]
      refine ⟨_, hinv, .thread t ?_ ?_ hthread, hcur⟩
      · show _ = t :: direct (update s.waitq q rest q)
        rw [hq, update_self]
        rfl
      · intro q' hne
        show direct (update s.waitq q rest q') = _
        rw [update_of_ne hne]
    | poll p =>
      have hmem : .poll p ∈ s.waitq q := by
        rw [hq]
        exact mem_cons_self
      obtain ⟨-, pfds, hpfds, -⟩ := h.linked q p hmem
      have hfirst := h.firstPolled_eq hq
      have hpend := hp p hfirst
      obtain ⟨hnone, hinv, hthread⟩ := h.unpend_poll hq hpend
      obtain ⟨-, -, -, hcur, -⟩ := h.kernel.toKBase.unpend_poll hq hpend (h.poller_unqueued hpfds)
      rw [hnone]
      refine ⟨_, hinv, .nobody (Or.inr (by rw [hfirst]; rfl)) ?_ ?_, hcur⟩
      · intro q'
        show direct (update s.waitq q rest q') = _
        by_cases hqq : q' = q
        · rw [hqq, hq, update_self]
          rfl
        · rw [update_of_ne hqq]
      · intro x hx
        rw [hthread, update_of_ne]
        rintro rfl
        exact hx pfds hpfds

theorem zUnpendFirstAndSwap_ret (cfg : Config Tid Qid) (k : Kernel Tid Qid Pid Nat) (q : Qid)
    (data : Option Nat) :
    (zUnpendFirstAndSwap cfg k q data).2 = (zUnpendFirstThread cfg k q).2 := by
  rw [zUnpendFirstAndSwap]
  cases hr : (zUnpendFirstThread cfg k q).2 with
  | some t => rfl
  | none => exact hr

omit [DecidableEq Qid] [DecidableEq Pid] in
theorem swap_state (k : Kernel Tid Qid Pid Nat) (t : Tid) (data : Option Nat) (x : Tid) :
    ((k.modThread t fun th => { th with swapData := data }).thread x).state
      = (k.thread x).state := by
  by_cases hx : x = t
  · subst hx
    simp [Kernel.modThread]
  · simp [Kernel.modThread, hx]

theorem PollInv.swap (h : PollInv cfg c s) (t : Tid) (data : Option Nat) : PollInv cfg { c with
      ker := c.ker.modThread t fun th => { th with swapData := data } } s := by
  have hstate := swap_state c.ker t data
  refine h.frame_ker ⟨h.kernel.toKBase.modThread _ rfl rfl (h.kernel.flags t),
    h.kernel.current⟩ rfl rfl ?_ ?_ fun _ _ => Iff.rfl
  · intro q x
    rw [hstate]
    exact ⟨fun hx => ⟨h.pending hx, hx⟩, fun hx => hx.2⟩
  · intro x
    rw [hstate]
    exact id

theorem PollInv.schedEnter (h : PollInv cfg c s) :
    ∃ s' E, PollInv cfg { c with ker := zSchedEnter cfg c.ker } s'
      ∧ Expires c.ker (zSchedEnter cfg c.ker) s s' E := by
  obtain ⟨s', E, hk, hE⟩ := h.kernel.schedEnter
  have hmem : ∀ q n, n ∈ s'.waitq q ↔ n ∈ s.waitq q ∧ n ∉ E.map .handle := by
    intro q n
    rw [hE.waitq, dropHandles, mem_filter]
    simp
  have hstate : ∀ t, ((zSchedEnter cfg c.ker).thread t).state = .pending
      ↔ t ∉ E ∧ (c.ker.thread t).state = .pending := by
    intro t
    rw [hE.thread]
    by_cases ht : t ∈ E
    · simp [ht]
    · simp [ht]
  refine ⟨s', E, h.frame_ker hk hE.current hE.pollfd ?_ (fun t ht => ((hstate t).mp ht).2) ?_, hE⟩
  · intro q t
    rw [hmem, hstate]
    constructor
    · rintro ⟨ht, htE⟩
      exact ⟨⟨fun hc => htE (mem_map_of_mem hc), h.pending ht⟩, ht⟩
    · rintro ⟨⟨htE, -⟩, ht⟩
      refine ⟨ht, fun hc => htE ?_⟩
      obtain ⟨x, hx, hxt⟩ := mem_map.mp hc
      injection hxt with hxt
      exact hxt ▸ hx
  · intro q p
    rw [hmem]
    refine ⟨fun hp => hp.1, fun hp => ⟨hp, fun hc => ?_⟩⟩
    obtain ⟨x, -, hx⟩ := mem_map.mp hc
    cases hx

theorem PollInv.start (h : PollInv cfg c s) (t : Tid) :
    ∃ s', PollInv cfg { c with ker := (kThreadStart cfg c.ker t).1 } s' := by
  by_cases ht : (c.ker.thread t).state = .stopped
  · obtain ⟨hk, hthread, -, hcur, -⟩ := h.kernel.start ht
    have hpollfd : (kThreadStart cfg c.ker t).1.pollfd = c.ker.pollfd := by
      rw [kThreadStart, if_neg (not_not_intro ht)]
      exact zSchedule_pollfd cfg c.ker t
    have hstate : ∀ x, ((kThreadStart cfg c.ker t).1.thread x).state = .pending
        ↔ (c.ker.thread x).state = .pending := by
      intro x
      rw [hthread]
      by_cases hx : x = t
      · rw [hx, update_self, ht]
        exact ⟨ThreadState.noConfusion, ThreadState.noConfusion⟩
      · rw [update_of_ne hx]
    refine ⟨_, h.frame_ker hk hcur hpollfd ?_ (fun x => (hstate x).mp) fun _ _ => Iff.rfl⟩
    intro q x
    rw [hstate]
    exact ⟨fun hx => ⟨h.pending hx, hx⟩, fun hx => hx.2⟩
  · have hk : kThreadStart cfg c.ker t = (c.ker, -EAGAIN) := by
      rw [kThreadStart, if_pos ht]
    rw [hk]
    exact ⟨s, h⟩

theorem PollInv.leave (h : PollInv cfg c s) (call : PollCall Pid Qid) {b : Bool}
    (hcall : ∀ pfds, call ≠ .poll pfds) (hk : KInv cfg k s')
    (hthread : k.thread = update c.ker.thread c.ker.current
      ((c.ker.thread c.ker.current).blocked b))
    (hpollfd : k.pollfd = c.ker.pollfd)
    (hhandle : ∀ q t, .handle t ∈ s'.waitq q ↔ .handle t ∈ s.waitq q
      ∨ t = c.ker.current ∧ ∃ r, call = .wait r q)
    (hpoll : ∀ q p, .poll p ∈ s'.waitq q ↔ .poll p ∈ s.waitq q) :
    PollBase cfg (c.leave call k) s' := by
  have hother : ∀ t, t ≠ c.ker.current → (c.leave call k).call t = c.call t :=
    fun t ht => update_of_ne ht _ _
  have hself : (c.leave call k).call c.ker.current = some call := update_self ..
  refine h.toPollBase.frame hk hpollfd ?_ hpoll ?_
  · intro q t
    rw [hhandle]
    show _ ↔ ∃ r, (k.thread t).state = .pending ∧ (c.leave call k).call t = _
    by_cases ht : t = c.ker.current
    · subst ht
      rw [hthread, update_self, hself]
      constructor
      · rintro (hc | ⟨-, r, hr⟩)
        · exact absurd hc (KInv.current_unqueued h.kernel q)
        · exact ⟨r, rfl, congrArg some hr⟩
      · rintro ⟨r, -, hr⟩
        injection hr with hr
        exact Or.inr ⟨rfl, r, hr⟩
    · rw [hthread, update_of_ne ht, hother t ht, h.waits]
      constructor
      · rintro (hr | ⟨hc, -⟩)
        · exact hr
        · exact absurd hc ht
      · exact Or.inl
  · intro t pfds
    by_cases ht : t = c.ker.current
    · subst ht
      rw [hself, h.running]
      refine ⟨fun hc => ?_, fun hc => nomatch hc⟩
      injection hc with hc
      exact absurd hc (hcall pfds)
    · rw [hother t ht]

theorem PollInv.block (h : PollInv cfg c s) (hc : c.ker.current ≠ cfg.idle) (r : Resource)
    (q : Qid) {timeout : cfg.Timeout} (hn : timeout ≠ kNoWait cfg) :
    (zPendCurrentOn cfg c.ker (some q) timeout).2 = none ∧ ∃ s', PollInv cfg
          (c.leave (.wait r q) (zPendCurrentOn cfg c.ker (some q) timeout).1).resume s'
        ∧ (c.leave (.wait r q) (zPendCurrentOn cfg c.ker (some q) timeout).1).resume.ker.thread
          = update c.ker.thread c.ker.current
            ((c.ker.thread c.ker.current).blocked (decide (timeout ≠ kForever cfg)))
        ∧ direct (s'.waitq q) = direct (s.waitq q) ++ [c.ker.current]
        ∧ ∀ q', q' ≠ q → direct (s'.waitq q') = direct (s.waitq q') := by
  obtain ⟨hnone, hk, hthread, hpollfd⟩ := h.kernel.pendOn hc q timeout hn
  have hbase := h.leave (.wait r q) (fun _ hc => nomatch hc) hk hthread hpollfd ?_ ?_
  · obtain ⟨s', hinv, hsame⟩ := hbase.resume
    refine ⟨hnone, s', hinv, hsame.thread.trans hthread, ?_, ?_⟩
    · rw [hsame.direct]
      show direct (update s.waitq q _ q) = _
      rw [update_self, direct, filterMap_append]
      rfl
    · intro q' hne
      rw [hsame.direct]
      show direct (update s.waitq q _ q') = _
      rw [update_of_ne hne]
  · intro q' t
    show _ ∈ update s.waitq q _ q' ↔ _
    rw [mem_appendNode]
    refine or_congr Iff.rfl ?_
    constructor
    · rintro ⟨rfl, ht⟩
      injection ht with ht
      exact ⟨ht, r, rfl⟩
    · rintro ⟨ht, r', hr⟩
      injection hr with _ hq
      exact ⟨hq.symm, congrArg _ ht⟩
  · intro q' p
    show _ ∈ update s.waitq q _ q' ↔ _
    rw [mem_appendNode]
    simp

theorem PollInv.sleep (h : PollInv cfg c s) (hc : c.ker.current ≠ cfg.idle)
    (timeout : cfg.Timeout)
    (hself : timeout ≠ kForever cfg → SelfLinked c.ker.wait (.handle c.ker.current)) :
    ∃ s', PollInv cfg (c.leave .sleep (kSleep cfg c.ker timeout)).resume s'
      ∧ (c.leave .sleep (kSleep cfg c.ker timeout)).resume.ker.thread
        = update c.ker.thread c.ker.current
          ((c.ker.thread c.ker.current).blocked (decide (timeout ≠ kForever cfg)))
      ∧ ∀ q, direct (s'.waitq q) = direct (s.waitq q) := by
  obtain ⟨hk, hthread, -, hpollfd⟩ := h.kernel.sleep hc timeout hself
  have hbase := h.leave .sleep (fun _ hc => nomatch hc) hk hthread hpollfd
    (fun q t => ⟨Or.inl, fun ht => ht.resolve_right ?_⟩) (fun _ _ => Iff.rfl)
  · obtain ⟨s', hinv, hsame⟩ := hbase.resume
    exact ⟨s', hinv, hsame.thread.trans hthread, hsame.direct⟩
  · rintro ⟨-, r, hr⟩
    exact nomatch hr

theorem PollInv.yield (h : PollInv cfg c s) :
    ∃ s', PollInv cfg (Pollers.resume { c with ker := zScheduler c.ker }) s'
      ∧ (Pollers.resume { c with ker := zScheduler c.ker }).ker.thread
        = update c.ker.thread c.ker.current (c.ker.thread c.ker.current).clearFlags
      ∧ ∀ q, direct (s'.waitq q) = direct (s.waitq q) := by
  have hstate : ∀ t, ((zScheduler c.ker).thread t).state = (c.ker.thread t).state := by
    intro t
    rw [zScheduler_thread]
    by_cases ht : t = c.ker.current
    · rw [ht, update_self]
      rfl
    · rw [update_of_ne ht]
  have hbase : PollBase cfg { c with ker := zScheduler c.ker } { s with
      ring := if c.ker.current = cfg.idle then s.ring else s.ring.rotate 1 } := by
    refine h.toPollBase.frame h.kernel.yield (zScheduler_pollfd _) ?_ (fun _ _ => Iff.rfl)
      fun _ _ => Iff.rfl
    intro q t
    simp only [h.waits, Pollers.Blocked, hstate]
  obtain ⟨s', hinv, hsame⟩ := hbase.resume
  exact ⟨s', hinv, hsame.thread.trans (zScheduler_thread _), hsame.direct⟩

theorem kPoll_cases (k : Kernel Tid Qid Pid Nat) (o : Objs Tid Qid)
    (pfds : List (PollItem Pid Qid)) (timeout : cfg.Timeout) :
    kPoll cfg k o pfds timeout = (k, some (-EINVAL)) ∨ (∃ ret, kPoll cfg k o pfds timeout
          = (kPollCleanup pfds (kPollSetup o pfds k 0).1, some ret))
      ∨ timeout ≠ kNoWait cfg ∧ kPoll cfg k o pfds timeout
          = (kSleep cfg (kPollSetup o pfds k 0).1 timeout, none) := by
  by_cases hu : (!zUser cfg.argsChecks (!pfds.isEmpty)) = true
  · exact Or.inl (by rw [kPoll, if_pos hu])
  · by_cases hr : (kPollSetup o pfds k 0).2 = 0
    · by_cases hn : timeout = kNoWait cfg
      · refine Or.inr (Or.inl ⟨-EAGAIN, ?_⟩)
        simp only [kPoll, if_neg hu, if_pos hr, zPendCurrentOn, if_pos hn]
      · refine Or.inr (Or.inr ⟨hn, ?_⟩)
        simp only [kPoll, if_neg hu, if_pos hr, zPendCurrentOn, if_neg hn]
        rfl
    · refine Or.inr (Or.inl ⟨(kPollSetup o pfds k 0).2.toInt, ?_⟩)
      simp only [kPoll, if_neg hu, if_neg hr]

theorem PollInv.poll (h : PollInv cfg c s) (o : Objs Tid Qid)
    {pfds : List (PollItem Pid Qid)} (hnd : (pfds.map PollItem.pfd).Nodup)
    (hp : ∀ item ∈ pfds, Unused c item.pfd) (timeout : cfg.Timeout)
    (hidle : timeout ≠ kNoWait cfg → c.ker.current ≠ cfg.idle)
    (hself : timeout ≠ kNoWait cfg → timeout ≠ kForever cfg →
      SelfLinked c.ker.wait (.handle c.ker.current)) :
    ∃ s', PollInv cfg (c.called (.poll pfds) (kPoll cfg c.ker o pfds timeout).1
        (kPoll cfg c.ker o pfds timeout).2) s'
      ∧ (∀ q, direct (s'.waitq q) = direct (s.waitq q))
      ∧ ((c.called (.poll pfds) (kPoll cfg c.ker o pfds timeout).1
            (kPoll cfg c.ker o pfds timeout).2).ker.thread = c.ker.thread
          ∧ (kPoll cfg c.ker o pfds timeout).2.isSome = true
        ∨ (c.called (.poll pfds) (kPoll cfg c.ker o pfds timeout).1
            (kPoll cfg c.ker o pfds timeout).2).ker.thread
            = update c.ker.thread c.ker.current
              ((c.ker.thread c.ker.current).blocked (decide (timeout ≠ kForever cfg)))
          ∧ (kPoll cfg c.ker o pfds timeout).2 = none) := by
  obtain ⟨s₁, hbase, hsame, hlink⟩ := h.setup o hnd hp
  have hcur : (kPollSetup o pfds c.ker 0).1.current = c.ker.current := hsame.current
  rcases kPoll_cases c.ker o pfds timeout with hk | ⟨ret, hk⟩ | ⟨hn, hk⟩
  · rw [hk]
    exact ⟨s, h, fun _ => rfl, Or.inl ⟨rfl, rfl⟩⟩
  · rw [hk]
    obtain ⟨s', hbase', hsame'⟩ := hbase.cleanup (update_self ..)
    have hcall : update c.call c.ker.current none = c.call :=
      update_eq_self_iff.mpr h.running.symm
    simp only [update_idem, hcall] at hbase'
    refine ⟨s', ⟨hbase', ?_⟩, fun q => (hsame'.direct q).trans (hsame.direct q),
      Or.inl ⟨hsame'.thread.trans hsame.thread, rfl⟩⟩
    show c.call (kPollCleanup pfds (kPollSetup o pfds c.ker 0).1).current = none
    rw [hsame'.current, hcur]
    exact h.running
  · rw [hk]
    have hidle' : (kPollSetup o pfds c.ker 0).1.current ≠ cfg.idle := by
      rw [hcur]
      exact hidle hn
    have hself' : timeout ≠ kForever cfg → SelfLinked (kPollSetup o pfds c.ker 0).1.wait
        (.handle (kPollSetup o pfds c.ker 0).1.current) := by
      intro hf
      rw [hcur]
      exact hlink _ (KInv.current_unqueued h.kernel) (hself hn hf)
    obtain ⟨hsleep, hthread, -, hpollfd⟩ := hbase.kernel.sleep hidle' timeout hself'
    replace hthread : (kSleep cfg (kPollSetup o pfds c.ker 0).1 timeout).thread
        = update c.ker.thread c.ker.current
          ((c.ker.thread c.ker.current).blocked (decide (timeout ≠ kForever cfg))) := by
      rw [hcur, hsame.thread] at hthread
      exact hthread
    have hbase' : PollBase cfg (c.leave (.poll pfds)
        (kSleep cfg (kPollSetup o pfds c.ker 0).1 timeout))
        { s₁ with
          ring := lastFirst s₁.ring.tail
          timeq := pendTimeq cfg (kPollSetup o pfds c.ker 0).1.current timeout s₁.timeq } := by
      refine hbase.frame hsleep hpollfd ?_ (fun _ _ => Iff.rfl) (fun _ _ => Iff.rfl)
      -- the running thread is in `k_poll`, so blocking changes no queue
      intro q t
      rw [hbase.waits]
      refine exists_congr fun r => and_congr_left fun hr => ?_
      have ht : t ≠ c.ker.current := by
        rintro rfl
        replace hr : update c.call c.ker.current (some (.poll pfds)) _ = _ := hr
        rw [update_self] at hr
        cases hr
      show ((kPollSetup o pfds c.ker 0).1.thread t).state = _
        ↔ ((kSleep cfg (kPollSetup o pfds c.ker 0).1 timeout).thread t).state = _
      rw [hthread, hsame.thread, update_of_ne ht]
    obtain ⟨s', hinv, hsame'⟩ := hbase'.resume
    exact ⟨s', hinv, fun q => (hsame'.direct q).trans (hsame.direct q),
      Or.inr ⟨hsame'.thread.trans hthread, rfl⟩⟩

end AvrtosPoll
