import Avrtos.Poll

/-! # The descriptors in the wait queues

    Both loops of `k_poll` are followed once, over the wait queues alone. -/

namespace AvrtosPoll

open List hiding next prev
open Function AvrtosDefines AvrtosDlist AvrtosKernel Cells LinkedRing

variable {Tid Qid Pid : Type} [Threads Tid]
variable [DecidableEq Qid] [DecidableEq Pid]

/-- The invariant of the kernel. -/
structure PollBase (cfg : Config Tid Qid) (c : Pollers Tid Qid Pid)
    (s : Shape Tid Qid Pid) : Prop where
  kernel : KInv cfg c.ker s
  waits : ∀ q t, .handle t ∈ s.waitq q ↔ ∃ r, c.Blocked t r q
  linked : ∀ q p, .poll p ∈ s.waitq q → Open (c.ker.pollfd p)
    ∧ ∃ pfds, c.call (c.ker.pollfd p).thread = some (.poll pfds)
      ∧ p ∈ pfds.map PollItem.pfd
  array : ∀ t pfds, c.call t = some (.poll pfds) → (pfds.map PollItem.pfd).Nodup
  items : ∀ t pfds, c.call t = some (.poll pfds) → ∀ item ∈ pfds,
    Open (c.ker.pollfd item.pfd) → (c.ker.pollfd item.pfd).thread = t
      ∧ item.type ≠ .other ∧ ∃ q, .poll item.pfd ∈ s.waitq q

structure PollInv (cfg : Config Tid Qid) (c : Pollers Tid Qid Pid)
    (s : Shape Tid Qid Pid) : Prop extends PollBase cfg c s where
  running : c.call c.ker.current = none

variable {cfg : Config Tid Qid} {c c' : Pollers Tid Qid Pid} {k k' : Kernel Tid Qid Pid Nat}
variable {s s' : Shape Tid Qid Pid} {t : Tid} {q : Qid} {p : Pid} {o : Objs Tid Qid}
variable {pfds : List (PollItem Pid Qid)} {item : PollItem Pid Qid}
variable {waitq waitq' : Qid → List (WNode Tid Qid Pid)} {n : WNode Tid Qid Pid}

omit [Threads Tid] [DecidableEq Pid] in
theorem mem_appendNode {waitq : Qid → List (WNode Tid Qid Pid)} {q' : Qid}
    {n x : WNode Tid Qid Pid} :
    x ∈ update waitq q (waitq q ++ [n]) q' ↔ x ∈ waitq q' ∨ q' = q ∧ x = n := by
  by_cases hq : q' = q
  · subst hq
    simp
  · simp [hq]

def own (pfds : List (PollItem Pid Qid)) : WNode Tid Qid Pid → Bool
  | .poll p => decide (p ∈ pfds.map PollItem.pfd)
  | _ => false

def others (pfds : List (PollItem Pid Qid)) (waitq : Qid → List (WNode Tid Qid Pid)) :
    Qid → List (WNode Tid Qid Pid) := fun q => (waitq q).filter (!own pfds ·)

omit [Threads Tid] [DecidableEq Qid] in
@[simp] theorem own_nil : own ([] : List (PollItem Pid Qid)) n = false := by
  cases n <;> simp [own]

theorem own_cons : own (item :: pfds) n = (decide (n = .poll item.pfd) || own pfds n) := by
  cases n <;> simp [own]

omit [Threads Tid] [DecidableEq Qid] in
@[simp] theorem others_nil : others ([] : List (PollItem Pid Qid)) waitq = waitq := by
  funext q
  simp [others]

theorem others_cons_of_unqueued (h : Unqueued waitq (.poll item.pfd)) :
    others (item :: pfds) waitq = others pfds waitq := by
  funext q
  refine filter_congr ?_
  intro n hn
  have hne : n ≠ .poll item.pfd := by
    rintro rfl
    exact h q hn
  simp [own_cons, hne]

theorem others_dropNode (hnd : ∀ q, (waitq q).Nodup) :
    others pfds (dropNode waitq (.poll item.pfd)) = others (item :: pfds) waitq := by
  funext q
  rw [others, others, dropNode, (hnd q).erase_eq_filter, filter_filter]
  refine filter_congr ?_
  intro n _
  rw [own_cons]
  by_cases hne : n = .poll item.pfd
  · simp [hne]
  · simp [hne]

omit [Threads Tid] [DecidableEq Qid] in
theorem mem_others : n ∈ others pfds waitq q ↔ n ∈ waitq q ∧ own pfds n = false := by
  simp [others]

theorem others_cons : others (item :: pfds) waitq = others [item] (others pfds waitq) := by
  funext q
  rw [others, others, others, filter_filter]
  refine filter_congr ?_
  intro n _
  simp [own_cons]

structure Tracked (k : Kernel Tid Qid Pid Nat) (waitq : Qid → List (WNode Tid Qid Pid))
    (item : PollItem Pid Qid) : Prop where
  linked : Open (k.pollfd item.pfd) → ∃ q, .poll item.pfd ∈ waitq q
  unlinked : ¬ Open (k.pollfd item.pfd) → Unqueued waitq (.poll item.pfd)
  type : Open (k.pollfd item.pfd) → item.type ≠ .other

omit [Threads Tid] [DecidableEq Qid] [DecidableEq Pid] in
theorem Tracked.congr {k₁ : Kernel Tid Qid Pid Nat} (h : Tracked k waitq item)
    (hpollfd : k₁.pollfd item.pfd = k.pollfd item.pfd)
    (hmem : ∀ q, .poll item.pfd ∈ waitq' q ↔ .poll item.pfd ∈ waitq q) :
    Tracked k₁ waitq' item := by
  refine ⟨?_, ?_, ?_⟩
  · rw [hpollfd]
    intro ho
    obtain ⟨q, hq⟩ := h.linked ho
    exact ⟨q, (hmem q).mpr hq⟩
  · rw [hpollfd]
    intro ho q hq
    exact h.unlinked ho q ((hmem q).mp hq)
  · rw [hpollfd]
    exact h.type

theorem kPollCleanup_wait (hrep : WaitRep k.wait waitq) (hnd : (pfds.map PollItem.pfd).Nodup)
    (h : ∀ item ∈ pfds, Tracked k waitq item) :
    WaitRep (kPollCleanup pfds k).wait (others pfds waitq) ∧
      ∀ t, Unqueued waitq (.handle t) → SelfLinked k.wait (.handle t) →
        SelfLinked (kPollCleanup pfds k).wait (.handle t) := by
  induction pfds generalizing k waitq with
  | nil =>
    rw [others_nil]
    exact ⟨hrep, fun _ _ hs => hs⟩
  | cons item pfds ih =>
    rw [map_cons, nodup_cons] at hnd
    have hitem := h item mem_cons_self
    have hrest : ∀ i ∈ pfds, Tracked k waitq i := fun i hi => h i (mem_cons_of_mem item hi)
    rw [kPollCleanup]
    split_ifs with hopen htype
    · rw [others_cons_of_unqueued (hitem.unlinked ?_)]
      · exact ih hrep hnd.2 hrest
      · rintro ⟨h1, h2⟩
        simp [h1, h2] at hopen
    · refine absurd htype (hitem.type ?_)
      simpa [Open] using hopen
    · have ho : Open (k.pollfd item.pfd) := by simpa [Open] using hopen
      obtain ⟨q, hq⟩ := hitem.linked ho
      have hn : Unqueued waitq (.poll item.pfd) → SelfLinked k.wait (.poll item.pfd) :=
        fun hu => absurd hq (hu q)
      have hdrop : ∀ i ∈ pfds, Tracked
          { k with wait := dlistRemove k.wait (.poll item.pfd : WNode Tid Qid Pid) }
          (dropNode waitq (.poll item.pfd)) i := by
        intro i hi
        refine (hrest i hi).congr rfl fun q' => mem_erase_of_ne ?_
        intro heq
        injection heq with heq'
        exact hnd.1 (heq' ▸ mem_map_of_mem hi)
      obtain ⟨hwait, hself⟩ := ih (hrep.drop hn) hnd.2 hdrop
      rw [← others_dropNode hrep.nodup]
      refine ⟨hwait, fun t ht hs => hself t ?_ (hs.drop hrep (by simp) ht hn)⟩
      exact fun q' hq' => ht q' (mem_of_mem_erase hq')

structure SetUp (k : Kernel Tid Qid Pid Nat) (waitq : Qid → List (WNode Tid Qid Pid))
    (pfds : List (PollItem Pid Qid)) (k' : Kernel Tid Qid Pid Nat)
    (waitq' : Qid → List (WNode Tid Qid Pid)) : Prop where
  rep : WaitRep k'.wait waitq'
  others : others pfds waitq' = waitq
  tracked : ∀ item ∈ pfds, Tracked k' waitq' item
  thread : ∀ item ∈ pfds, Open (k'.pollfd item.pfd) → (k'.pollfd item.pfd).thread = k.current
  pollfd : ∀ p, p ∉ pfds.map PollItem.pfd → k'.pollfd p = k.pollfd p
  current : k'.current = k.current
  self : ∀ t, Unqueued waitq (.handle t) → SelfLinked k.wait (.handle t) →
    SelfLinked k'.wait (.handle t)

theorem setUp_mark {f : Pollfd Tid → Pollfd Tid} (hrep : WaitRep k.wait waitq)
    (hu : Unqueued waitq (.poll item.pfd)) (hf : ¬ Open (f (k.pollfd item.pfd))) :
    SetUp k waitq [item] (modPollfd k item.pfd f) waitq := by
  have hself : (modPollfd k item.pfd f).pollfd item.pfd = f (k.pollfd item.pfd) :=
    update_self ..
  refine ⟨hrep, ?_, ?_, ?_, ?_, rfl, fun _ _ hs => hs⟩
  · rw [others_cons_of_unqueued hu, others_nil]
  · intro i hi
    rw [mem_singleton.mp hi]
    rw [← hself] at hf
    exact ⟨fun ho => absurd ho hf, fun _ => hu, fun ho => absurd ho hf⟩
  · intro i hi ho
    rw [mem_singleton.mp hi, hself] at ho
    exact absurd ho hf
  · intro p hp
    refine update_of_ne ?_ _ _
    rintro rfl
    exact hp mem_cons_self

omit [Threads Tid] [DecidableEq Qid] [DecidableEq Pid] in
theorem pollWaits_type {o : Objs Tid Qid} {b : Bool} (h : pollWaits o item = some b) :
    item.type ≠ .other := by
  intro hc
  simp only [pollWaits, hc] at h
  exact nomatch h

theorem setUp_link (hrep : WaitRep k.wait waitq) (hu : Unqueued waitq (.poll item.pfd))
    (htype : item.type ≠ .other) (q : Qid) :
    SetUp k waitq [item] { modPollfd k item.pfd (fun _ => ⟨false, false, k.current⟩) with
        wait := dlistAppend k.wait (.queue q : WNode Tid Qid Pid) (.poll item.pfd) }
      (update waitq q (waitq q ++ [.poll item.pfd])) := by
  have hself : (modPollfd k item.pfd fun _ => ⟨false, false, k.current⟩).pollfd item.pfd =
      ⟨false, false, k.current⟩ := update_self ..
  have hopen : Open ((modPollfd k item.pfd fun _ => ⟨false, false, k.current⟩).pollfd
      item.pfd) := by
    rw [hself]
    exact ⟨rfl, rfl⟩
  have hmem : .poll item.pfd ∈ update waitq q (waitq q ++ [.poll item.pfd]) q :=
    mem_appendNode.mpr (.inr ⟨rfl, rfl⟩)
  refine ⟨hrep.append q (by simp) hu, ?_, ?_, ?_, ?_, rfl,
    fun t ht hs => hs.append hrep (by simp) ht (by simp) q⟩
  · funext q'
    have hq' : others [item] waitq q' = waitq q' :=
      congrFun ((others_cons_of_unqueued hu).trans others_nil) q'
    by_cases hq : q' = q
    · subst hq
      rw [others] at hq' ⊢
      rw [update_self, filter_append, hq']
      simp [own]
    · rw [others, update_of_ne hq]
      exact hq'
  · intro i hi
    rw [mem_singleton.mp hi]
    exact ⟨fun _ => ⟨q, hmem⟩, fun hc => absurd hopen hc, fun _ => htype⟩
  · intro i hi _
    rw [mem_singleton.mp hi]
    exact congrArg Pollfd.thread hself
  · intro p hp
    refine update_of_ne ?_ _ _
    rintro rfl
    exact hp mem_cons_self

theorem SetUp.trans {k₁ : Kernel Tid Qid Pid Nat} {waitq₁ : Qid → List (WNode Tid Qid Pid)}
    (h₁ : SetUp k waitq [item] k₁ waitq₁) (h : SetUp k₁ waitq₁ pfds k' waitq')
    (hn : item.pfd ∉ pfds.map PollItem.pfd) : SetUp k waitq (item :: pfds) k' waitq' := by
  have hown : own pfds (.poll item.pfd : WNode Tid Qid Pid) = false := by simpa [own] using hn
  have hmem : ∀ q, .poll item.pfd ∈ waitq' q ↔ .poll item.pfd ∈ waitq₁ q := by
    intro q
    rw [← h.others, mem_others]
    exact ⟨fun hm => ⟨hm, hown⟩, fun hm => hm.1⟩
  have hpollfd := h.pollfd item.pfd hn
  refine ⟨h.rep, ?_, ?_, ?_, ?_, h.current.trans h₁.current, ?_⟩
  · rw [others_cons, h.others, h₁.others]
  · intro i hi
    rcases mem_cons.mp hi with rfl | hi
    · exact (h₁.tracked i mem_cons_self).congr hpollfd hmem
    · exact h.tracked i hi
  · intro i hi ho
    rcases mem_cons.mp hi with rfl | hi
    · rw [hpollfd] at ho ⊢
      exact h₁.thread i mem_cons_self ho
    · exact (h.thread i hi ho).trans h₁.current
  · intro p hp
    rw [map_cons, mem_cons, not_or] at hp
    rw [h.pollfd p hp.2]
    exact h₁.pollfd p (by simpa using hp.1)
  · intro t ht hs
    refine h.self t (fun q hq => ht q ?_) (h₁.self t ht hs)
    rw [← h₁.others, mem_others]
    exact ⟨hq, rfl⟩

theorem kPollSetup_wait (ret : BitVec 8) (hrep : WaitRep k.wait waitq)
    (hnd : (pfds.map PollItem.pfd).Nodup)
    (hu : ∀ item ∈ pfds, Unqueued waitq (.poll item.pfd)) :
    ∃ waitq', SetUp k waitq pfds (kPollSetup o pfds k ret).1 waitq' := by
  induction pfds generalizing k waitq ret with
  | nil =>
    exact ⟨waitq, hrep, others_nil, fun i hi => absurd hi not_mem_nil,
      fun i hi => absurd hi not_mem_nil, fun _ _ => rfl, rfl, fun _ _ hs => hs⟩
  | cons item pfds ih =>
    rw [map_cons, nodup_cons] at hnd
    have hui := hu item mem_cons_self
    obtain ⟨k₁, ret₁, waitq₁, h₁, heq⟩ : ∃ k₁ ret₁ waitq₁, SetUp k waitq [item] k₁ waitq₁ ∧
        kPollSetup o (item :: pfds) k ret = kPollSetup o pfds k₁ ret₁ := by
      rw [kPollSetup]
      rcases hw : pollWaits o item with _ | _ | _
      · exact ⟨_, _, _, setUp_mark hrep hui (fun ho => Bool.noConfusion ho.2), rfl⟩
      · exact ⟨_, _, _, setUp_mark hrep hui (fun ho => Bool.noConfusion ho.1), rfl⟩
      · exact ⟨_, _, _, setUp_link hrep hui (pollWaits_type hw) item.obj, rfl⟩
    have hu₁ : ∀ i ∈ pfds, Unqueued waitq₁ (.poll i.pfd) := by
      intro i hi q hq
      refine hu i (mem_cons_of_mem item hi) q ?_
      rw [← h₁.others, mem_others]
      refine ⟨hq, ?_⟩
      have hne : i.pfd ≠ item.pfd := by
        intro heq'
        exact hnd.1 (heq' ▸ mem_map_of_mem hi)
      simp [own, hne]
    obtain ⟨waitq', h⟩ := ih ret₁ h₁.rep hnd.2 hu₁
    rw [heq]
    exact ⟨waitq', h₁.trans h hnd.1⟩

/-- **THE FRAME**. -/
theorem PollBase.frame (h : PollBase cfg c s) (hk : KInv cfg c'.ker s')
    (hpollfd : c'.ker.pollfd = c.ker.pollfd)
    (hwaits : ∀ q t, .handle t ∈ s'.waitq q ↔ ∃ r, c'.Blocked t r q)
    (hpoll : ∀ q p, .poll p ∈ s'.waitq q ↔ .poll p ∈ s.waitq q)
    (hcall : ∀ t pfds, c'.call t = some (.poll pfds) ↔ c.call t = some (.poll pfds)) :
    PollBase cfg c' s' := by
  refine ⟨hk, hwaits, ?_, ?_, ?_⟩
  · intro q p hp
    obtain ⟨hopen, pfds, hpfds, hmem⟩ := h.linked q p ((hpoll q p).mp hp)
    rw [hpollfd]
    exact ⟨hopen, pfds, (hcall _ _).mpr hpfds, hmem⟩
  · exact fun t pfds ht => h.array t pfds ((hcall t pfds).mp ht)
  · intro t pfds ht item hitem hopen
    rw [hpollfd] at hopen ⊢
    obtain ⟨hth, htype, q, hq⟩ := h.items t pfds ((hcall t pfds).mp ht) item hitem hopen
    exact ⟨hth, htype, q, (hpoll q _).mpr hq⟩

theorem PollBase.poller_unqueued {pfds : List (PollItem Pid Qid)} (h : PollBase cfg c s)
    (ht : c.call t = some (.poll pfds)) : Unqueued s.waitq (.handle t) := by
  intro q hq
  obtain ⟨r, -, hr⟩ := (h.waits q t).mp hq
  rw [ht] at hr
  exact nomatch hr

theorem PollBase.unqueued_pfd (h : PollBase cfg c s) (hp : Unused c p) :
    Unqueued s.waitq (.poll p) := by
  intro q hq
  obtain ⟨-, pfds, hpfds, hmem⟩ := h.linked q p hq
  exact hp _ pfds hpfds hmem

section Loops

theorem KInv.current_not_pending (h : KInv cfg k s) : (k.thread k.current).state ≠ .pending := by
  by_cases hc : k.current = cfg.idle
  · rw [(h.idle _).mpr hc]
    exact fun hc => nomatch hc
  · rw [(h.current_ready hc).1]
    exact fun hc => nomatch hc

theorem KInv.current_unqueued (h : KInv cfg k s) : Unqueued s.waitq (.handle k.current) :=
  h.unqueued (KInv.current_not_pending h)

def direct (l : List (WNode Tid Qid Pid)) : List Tid :=
  l.filterMap fun
    | .handle t => some t
    | _ => none

omit [Threads Tid] [DecidableEq Qid] [DecidableEq Pid] in
theorem mem_direct {l : List (WNode Tid Qid Pid)} : t ∈ direct l ↔ .handle t ∈ l := by
  rw [direct, mem_filterMap]
  constructor
  · rintro ⟨n, hn, ht⟩
    cases n with
    | handle x =>
      injection ht with ht
      exact ht ▸ hn
    | queue q => exact nomatch ht
    | poll p => exact nomatch ht
  · exact fun h => ⟨_, h, rfl⟩

omit [Threads Tid] [DecidableEq Qid] in
theorem direct_others (pfds : List (PollItem Pid Qid)) (q : Qid) :
    direct (others pfds waitq q) = direct (waitq q) := by
  rw [others, direct, direct, filterMap_filter]
  refine filterMap_congr fun n _ => ?_
  cases n <;> simp [own]

structure SameThreads (k k' : Kernel Tid Qid Pid Nat) (s s' : Shape Tid Qid Pid) : Prop where
  thread : k'.thread = k.thread
  current : k'.current = k.current
  ring : s'.ring = s.ring
  timeq : s'.timeq = s.timeq
  direct : ∀ q, AvrtosPoll.direct (s'.waitq q) = AvrtosPoll.direct (s.waitq q)

omit [Threads Tid] [DecidableEq Qid] [DecidableEq Pid] in
theorem SameThreads.refl (k : Kernel Tid Qid Pid Nat) (s : Shape Tid Qid Pid) :
    SameThreads k k s s := ⟨rfl, rfl, rfl, rfl, fun _ => rfl⟩

theorem KInv.setLinks (h : KInv cfg k s)
    (hk : k' = { k with wait := k'.wait, pollfd := k'.pollfd }) (hrep : WaitRep k'.wait waitq')
    (hsame : ∀ q, direct (waitq' q) = direct (s.waitq q))
    (hself : ∀ t, Unqueued s.waitq (.handle t) → SelfLinked k.wait (.handle t) →
      SelfLinked k'.wait (.handle t)) :
    KInv cfg k' { s with waitq := waitq' } ∧ SameThreads k k' s { s with waitq := waitq' } := by
  have hmem : ∀ q t, .handle t ∈ waitq' q ↔ .handle t ∈ s.waitq q := by
    intro q t
    rw [← mem_direct, hsame, mem_direct]
  have hbase : KBase cfg { k with wait := k'.wait } { s with waitq := waitq' } := by
    refine h.toKBase.relink hrep (fun q t ht => (hmem q t).mp ht) fun t hw hu => ?_
    have hu' : Unqueued s.waitq (.handle t) := fun q hq => hu q ((hmem q t).mpr hq)
    exact hself t hu' (h.clean t hw hu')
  rw [hk]
  exact ⟨⟨⟨hbase.sched.setPollfd _, hbase.wait, hbase.ready, hbase.timed, hbase.wakeup, hbase.idle,
    hbase.waiting, hbase.clean, hbase.flags⟩, h.current⟩, rfl, rfl, rfl, rfl, hsame⟩

theorem kPollSetup_links (o : Objs Tid Qid) (pfds : List (PollItem Pid Qid))
    (k : Kernel Tid Qid Pid Nat) (ret : BitVec 8) :
    (kPollSetup o pfds k ret).1 = { k with
      wait := (kPollSetup o pfds k ret).1.wait, pollfd := (kPollSetup o pfds k ret).1.pollfd } := by
  induction pfds generalizing k ret with
  | nil => rfl
  | cons item pfds ih =>
    rw [kPollSetup]
    split
    · exact ih _ _
    · exact ih _ _
    · exact ih _ _

theorem kPollCleanup_links (pfds : List (PollItem Pid Qid)) (k : Kernel Tid Qid Pid Nat) :
    kPollCleanup pfds k = { k with
      wait := (kPollCleanup pfds k).wait, pollfd := (kPollCleanup pfds k).pollfd } ∧
      (kPollCleanup pfds k).pollfd = k.pollfd := by
  induction pfds generalizing k with
  | nil => exact ⟨rfl, rfl⟩
  | cons item pfds ih =>
    rw [kPollCleanup]
    split_ifs
    · exact ih _
    · exact ih _
    · exact ih _

theorem PollInv.setup (h : PollInv cfg c s) (o : Objs Tid Qid)
    (hnd : (pfds.map PollItem.pfd).Nodup) (hp : ∀ item ∈ pfds, Unused c item.pfd) :
    ∃ s', PollBase cfg ⟨(kPollSetup o pfds c.ker 0).1,
          update c.call c.ker.current (some (.poll pfds))⟩ s'
      ∧ SameThreads c.ker (kPollSetup o pfds c.ker 0).1 s s'
      ∧ ∀ x, Unqueued s.waitq (.handle x) → SelfLinked c.ker.wait (.handle x) →
        SelfLinked (kPollSetup o pfds c.ker 0).1.wait (.handle x) := by
  obtain ⟨waitq', hset⟩ := kPollSetup_wait (o := o) 0 h.kernel.wait hnd
    fun item hi => h.unqueued_pfd (hp item hi)
  have hlinks := kPollSetup_links o pfds c.ker 0
  generalize (kPollSetup o pfds c.ker 0).1 = k' at hset hlinks ⊢
  have hmem : ∀ q n, own pfds n = false → (n ∈ waitq' q ↔ n ∈ s.waitq q) := by
    intro q n hn
    rw [← hset.others, mem_others]
    exact ⟨fun hq => ⟨hq, hn⟩, fun hq => hq.1⟩
  have hdirect : ∀ q, direct (waitq' q) = direct (s.waitq q) := by
    intro q
    rw [← hset.others, direct_others]
  obtain ⟨hk, hsame⟩ := KInv.setLinks h.kernel hlinks hset.rep hdirect hset.self
  have hself : update c.call c.ker.current (some (.poll pfds)) c.ker.current = some (.poll pfds) :=
    update_self ..
  have hother : ∀ t, t ≠ c.ker.current →
      update c.call c.ker.current (some (.poll pfds)) t = c.call t := fun t ht => update_of_ne ht _ _
  have hcases : ∀ t arr, update c.call c.ker.current (some (.poll pfds)) t = some (.poll arr) →
      t = c.ker.current ∧ arr = pfds ∨ c.call t = some (.poll arr) := by
    intro t arr ht
    by_cases htc : t = c.ker.current
    · rw [htc, hself] at ht
      injection ht with ht
      injection ht with ht
      exact Or.inl ⟨htc, ht.symm⟩
    · exact Or.inr ((hother t htc).symm.trans ht)
  -- a thread that was in `k_poll` before is not the running one
  have hbefore : ∀ t arr, c.call t = some (.poll arr) → t ≠ c.ker.current := by
    rintro t arr ht rfl
    rw [h.running] at ht
    exact nomatch ht
  refine ⟨_, ⟨hk, ?_, ?_, ?_, ?_⟩, hsame, hset.self⟩
  · intro q t
    rw [hmem q _ rfl, h.waits]
    refine exists_congr fun r => ?_
    simp only [Pollers.Blocked, hsame.thread]
    refine and_congr_right fun hpending => ?_
    rw [hother t]
    rintro rfl
    exact KInv.current_not_pending h.kernel hpending
  · intro q p hq
    by_cases hpm : p ∈ pfds.map PollItem.pfd
    · obtain ⟨item, hi, rfl⟩ := mem_map.mp hpm
      have hopen : Open (k'.pollfd item.pfd) := by
        by_contra hc
        exact (hset.tracked item hi).unlinked hc q hq
      refine ⟨hopen, pfds, ?_, hpm⟩
      rw [hset.thread item hi hopen]
      exact hself
    · obtain ⟨hopen, arr, harr, hm⟩ := h.linked q p ((hmem q _ (by simpa [own] using hpm)).mp hq)
      simp only [hset.pollfd p hpm]
      exact ⟨hopen, arr, (hother _ (hbefore _ _ harr)).trans harr, hm⟩
  · intro t arr ht
    rcases hcases t arr ht with ⟨-, rfl⟩ | ht
    · exact hnd
    · exact h.array t arr ht
  · intro t arr ht item hi hopen
    rcases hcases t arr ht with ⟨rfl, rfl⟩ | ht
    · have htracked := hset.tracked item hi
      exact ⟨hset.thread item hi hopen, htracked.type hopen, htracked.linked hopen⟩
    · have hpm : item.pfd ∉ pfds.map PollItem.pfd := by
        intro hc
        obtain ⟨i, hi', heq⟩ := mem_map.mp hc
        exact hp i hi' t arr ht (heq ▸ mem_map_of_mem hi)
      simp only [hset.pollfd _ hpm] at hopen ⊢
      obtain ⟨hth, htype, q, hq⟩ := h.items t arr ht item hi hopen
      exact ⟨hth, htype, q, (hmem q _ (by simpa [own] using hpm)).mpr hq⟩

theorem PollBase.cleanup (h : PollBase cfg c s) (hc : c.call t = some (.poll pfds)) :
    ∃ s', PollBase cfg ⟨kPollCleanup pfds c.ker, update c.call t none⟩ s'
      ∧ SameThreads c.ker (kPollCleanup pfds c.ker) s s' := by
  have htracked : ∀ item ∈ pfds, Tracked c.ker s.waitq item := by
    intro item hi
    refine ⟨fun hopen => ?_, fun hopen q hq => hopen (h.linked q _ hq).1, fun hopen => ?_⟩
    · exact (h.items t pfds hc item hi hopen).2.2
    · exact (h.items t pfds hc item hi hopen).2.1
  obtain ⟨hrep, hself⟩ := kPollCleanup_wait h.kernel.wait (h.array t pfds hc) htracked
  obtain ⟨hlinks, hpollfd⟩ := kPollCleanup_links pfds c.ker
  generalize kPollCleanup pfds c.ker = k' at hrep hself hlinks hpollfd ⊢
  obtain ⟨hk, hsame⟩ := KInv.setLinks h.kernel hlinks hrep (direct_others pfds) hself
  have hother : ∀ x, x ≠ t → update c.call t none x = c.call x := fun x hx => update_of_ne hx _ _
  -- the calls of the other threads
  have hbefore : ∀ x call, update c.call t none x = some call → x ≠ t ∧ c.call x = some call := by
    intro x call hx
    have hxt : x ≠ t := by
      rintro rfl
      rw [update_self] at hx
      exact nomatch hx
    exact ⟨hxt, (hother x hxt).symm.trans hx⟩
  refine ⟨_, ⟨hk, ?_, ?_, ?_, ?_⟩, hsame⟩
  · intro q x
    rw [mem_others, h.waits]
    refine (and_iff_left rfl).trans (exists_congr fun r => ?_)
    simp only [Pollers.Blocked, hsame.thread]
    refine and_congr_right fun _ => ⟨fun hx => ?_, fun hx => (hbefore x _ hx).2⟩
    rw [hother x, hx]
    rintro rfl
    rw [hc] at hx
    exact nomatch hx
  · intro q p hq
    obtain ⟨hq', hown⟩ := mem_others.mp hq
    obtain ⟨hopen, arr, harr, hm⟩ := h.linked q p hq'
    simp only [hpollfd]
    refine ⟨hopen, arr, ?_, hm⟩
    rw [hother _, harr]
    intro hxt
    rw [hxt, hc] at harr
    injection harr with harr
    injection harr with harr
    rw [← harr] at hm
    exact of_decide_eq_false hown hm
  · exact fun x arr hx => h.array x arr (hbefore x _ hx).2
  · intro x arr hx item hi hopen
    obtain ⟨hxt, hx'⟩ := hbefore x _ hx
    simp only [hpollfd] at hopen ⊢
    obtain ⟨hth, htype, q, hq⟩ := h.items x arr hx' item hi hopen
    refine ⟨hth, htype, q, mem_others.mpr ⟨hq, decide_eq_false ?_⟩⟩
    -- open and shared with the array of `t`: it would belong to both
    intro hm
    obtain ⟨i, hi', heq⟩ := mem_map.mp hm
    rw [← heq] at hopen hth
    exact hxt (hth.symm.trans (h.items t pfds hc i hi' hopen).1)

end Loops

end AvrtosPoll
