import Avrtos.PollRuns
import Avrtos.RunOrder

/-! # What `k_poll` leaves behind and what it returns

    `LinkInv` follows a caller's descriptors through a run; then what the call returns. -/

namespace AvrtosPoll

open Function List AvrtosDefines AvrtosDlist AvrtosKernel AvrtosObjects Cells LinkedRing Runs

variable {Tid Qid Pid : Type} [Threads Tid]
variable [DecidableEq Qid] [DecidableEq Pid]
variable {cfg : Config Tid Qid} {k : Kernel Tid Qid Pid Nat} {o : Objs Tid Qid}
variable {pfds : List (PollItem Pid Qid)} {item : PollItem Pid Qid}
variable {waitq waitq' : Qid → List (WNode Tid Qid Pid)} {n : WNode Tid Qid Pid} {q : Qid}

structure LinkSys (Tid Qid Pid : Type) where
  ker : Kernel Tid Qid Pid Nat
  left : Qid → List (WNode Tid Qid Pid)

/-- What happens meanwhile. -/
inductive LinkOp (Tid Qid Pid : Type)
  | append (q : Qid) (n : WNode Tid Qid Pid)
  | remove (n : WNode Tid Qid Pid)
  | describe (p : Pid) (v : Pollfd Tid)
  | unpend (q : Qid)
  | expire
  | elsewhere (k : Kernel Tid Qid Pid Nat)

def LinkOp.run (cfg : Config Tid Qid) (pfds : List (PollItem Pid Qid)) (caller : Tid)
    (st : LinkSys Tid Qid Pid) : LinkOp Tid Qid Pid → LinkSys Tid Qid Pid
  | .append q n =>
      { ker := { st.ker with wait := dlistAppend st.ker.wait (.queue q) n }
        left := update st.left q (st.left q ++ [n]) }
  | .remove n =>
      { ker := { st.ker with wait := dlistRemove st.ker.wait n }
        left := dropNode st.left n }
  | .describe p v => { st with ker := modPollfd st.ker p fun _ => v }
  | .unpend q =>
      { ker := (zUnpendFirstThread cfg st.ker q).1
        left := if own pfds (next st.ker.wait (.queue q : WNode Tid Qid Pid)) then st.left
          else update st.left q (st.left q).tail }
  | .expire =>
      { st with
        ker := { st.ker with
          wait := dlistRemove st.ker.wait (.handle caller : WNode Tid Qid Pid) } }
  | .elsewhere k => { st with ker := k }

def Apart (caller : Tid) (left : Qid → List (WNode Tid Qid Pid)) (pollfd : Pid → Pollfd Tid) :
    Prop :=
  Unqueued left (.handle caller) ∧
    ∀ q p, .poll p ∈ left q → Unqueued left (.handle (pollfd p).thread)

def LinkOp.Allowed (pfds : List (PollItem Pid Qid)) (caller : Tid) (timed : Prop)
    (st : LinkSys Tid Qid Pid) : LinkOp Tid Qid Pid → Prop
  | .append q n => Unqueued st.left n ∧ own pfds n = false ∧ (∀ q', n ≠ .queue q') ∧
      Apart caller (update st.left q (st.left q ++ [n])) st.ker.pollfd
  | .remove n => ∃ q, n ∈ st.left q
  | .describe p _ => Unqueued st.left (.poll p) ∧ own pfds (.poll p : WNode Tid Qid Pid) = false
  | .unpend _ => True
  | .expire => timed
  | .elsewhere k => k.wait = st.ker.wait ∧ k.pollfd = st.ker.pollfd

def LinkReach (cfg : Config Tid Qid) (pfds : List (PollItem Pid Qid)) (caller : Tid)
    (timed : Prop) (st₀ : LinkSys Tid Qid Pid) : LinkSys Tid Qid Pid → Prop :=
  Reach (· = st₀) (LinkOp.Allowed pfds caller timed) (LinkOp.run cfg pfds caller)

structure LinkInv (pfds : List (PollItem Pid Qid)) (caller : Tid) (timed : Prop)
    (st : LinkSys Tid Qid Pid)
    (waitq : Qid → List (WNode Tid Qid Pid)) : Prop where
  rep : WaitRep st.ker.wait waitq
  left : others pfds waitq = st.left
  tracked : ∀ item ∈ pfds, Tracked st.ker waitq item
  thread : ∀ item ∈ pfds, Open (st.ker.pollfd item.pfd) →
    (st.ker.pollfd item.pfd).thread = caller
  apart : Apart caller st.left st.ker.pollfd
  self : timed → SelfLinked st.ker.wait (.handle caller)

namespace LinkInv

variable {caller : Tid} {timed : Prop} {st : LinkSys Tid Qid Pid}

theorem mem_left (h : LinkInv pfds caller timed st waitq) (hn : own pfds n = false) :
    n ∈ st.left q ↔ n ∈ waitq q := by
  rw [← h.left, mem_others]
  exact ⟨fun hm => hm.1, fun hm => ⟨hm, hn⟩⟩

theorem handle_unqueued (h : LinkInv pfds caller timed st waitq) {t : Tid}
    (ht : Unqueued st.left (.handle t)) : Unqueued waitq (.handle t) :=
  fun q hq => ht q ((h.mem_left rfl).mpr hq)

theorem caller_unqueued (h : LinkInv pfds caller timed st waitq) :
    Unqueued waitq (.handle caller) := h.handle_unqueued h.apart.1

omit [Threads Tid] [DecidableEq Qid] in
theorem ne_own (hn : own pfds n = false) (hitem : item ∈ pfds) : .poll item.pfd ≠ n := by
  rintro rfl
  rw [own, decide_eq_false_iff_not] at hn
  exact hn (mem_map_of_mem hitem)

theorem append (h : LinkInv pfds caller timed st waitq)
    (hok : LinkOp.Allowed pfds caller timed st (.append q n)) :
    LinkInv pfds caller timed (LinkOp.run cfg pfds caller st (.append q n))
      (update waitq q (waitq q ++ [n])) := by
  obtain ⟨hu, hown, hnq, hapart⟩ := hok
  have hne : .handle caller ≠ n := by
    rintro rfl
    refine hapart.1 q ?_
    rw [update_self]
    exact mem_append_right _ mem_cons_self
  refine ⟨h.rep.append q hnq fun q' hq' => hu q' ((h.mem_left hown).mpr hq'), ?_, ?_, h.thread,
    hapart, fun ht => (h.self ht).append h.rep (by simp) h.caller_unqueued hne q⟩
  · funext q'
    have hq' := congrFun h.left q'
    by_cases hq : q' = q
    · subst hq
      rw [others] at hq' ⊢
      rw [update_self, filter_append, hq']
      simp [LinkOp.run, hown]
    · rw [others, update_of_ne hq]
      simp only [LinkOp.run, update_of_ne hq]
      exact hq'
  · intro item hitem
    refine (h.tracked item hitem).congr rfl fun q' => ?_
    rw [mem_appendNode]
    refine or_iff_left ?_
    rintro ⟨-, heq⟩
    exact ne_own hown hitem heq

theorem remove (h : LinkInv pfds caller timed st waitq)
    (hok : LinkOp.Allowed pfds caller timed st (.remove n)) :
    LinkInv pfds caller timed (LinkOp.run cfg pfds caller st (.remove n)) (dropNode waitq n) := by
  obtain ⟨q, hq⟩ := hok
  rw [← h.left, mem_others] at hq
  have hsub : ∀ q' x, x ∈ dropNode st.left n q' → x ∈ st.left q' :=
    fun q' x hx => mem_of_mem_erase hx
  have hn : Unqueued waitq n → SelfLinked st.ker.wait n := fun hu => absurd hq.1 (hu q)
  refine ⟨h.rep.drop hn, ?_, ?_, h.thread, ⟨?_, ?_⟩,
    fun ht => (h.self ht).drop h.rep (by simp) h.caller_unqueued hn⟩
  · funext q'
    simp only [LinkOp.run, ← h.left]
    have hnd := h.rep.nodup q'
    rw [others, dropNode, dropNode, others, hnd.erase_eq_filter,
      (hnd.filter _).erase_eq_filter, filter_filter, filter_filter]
    exact filter_congr fun x _ => Bool.and_comm _ _
  · intro item hitem
    refine (h.tracked item hitem).congr rfl fun q' => ?_
    exact mem_erase_of_ne (ne_own hq.2 hitem)
  · exact fun q' hq' => h.apart.1 q' (hsub q' _ hq')
  · intro q' p hp q'' hq''
    exact h.apart.2 q' p (hsub q' _ hp) q'' (hsub q'' _ hq'')

theorem describe {p : Pid} {v : Pollfd Tid} (h : LinkInv pfds caller timed st waitq)
    (hok : LinkOp.Allowed pfds caller timed st (.describe p v)) :
    LinkInv pfds caller timed (LinkOp.run cfg pfds caller st (.describe p v)) waitq := by
  obtain ⟨hu, hown⟩ := hok
  have hpollfd : ∀ p', p' ≠ p → (modPollfd st.ker p fun _ => v).pollfd p' = st.ker.pollfd p' :=
    fun p' hp' => update_of_ne hp' _ _
  have hitem : ∀ item ∈ pfds, item.pfd ≠ p := by
    rintro item hitem rfl
    exact ne_own hown hitem rfl
  refine ⟨h.rep, h.left, ?_, ?_, ⟨h.apart.1, ?_⟩, h.self⟩
  · intro item hi
    exact (h.tracked item hi).congr (hpollfd _ (hitem item hi)) fun _ => Iff.rfl
  · intro item hi
    simp only [LinkOp.run, hpollfd _ (hitem item hi)]
    exact h.thread item hi
  · intro q' p' hp'
    have hne : p' ≠ p := by
      rintro rfl
      exact hu q' hp'
    simp only [LinkOp.run, hpollfd _ hne]
    exact h.apart.2 q' p' hp'

omit [Threads Tid] [DecidableEq Pid] in
theorem mem_pop {rest : List (WNode Tid Qid Pid)} {x : WNode Tid Qid Pid} {q' : Qid}
    (hq : waitq q = n :: rest) (hx : x ≠ n) :
    x ∈ update waitq q rest q' ↔ x ∈ waitq q' := by
  by_cases heq : q' = q
  · subst heq
    rw [update_self, hq, mem_cons]
    exact (or_iff_right hx).symm
  · rw [update_of_ne heq]

omit [Threads Tid] in
theorem others_pop {rest : List (WNode Tid Qid Pid)} (hq : waitq q = n :: rest) :
    others pfds (update waitq q rest) = if own pfds n then others pfds waitq
      else update (others pfds waitq) q (others pfds waitq q).tail := by
  funext q'
  by_cases heq : q' = q
  · subst heq
    split_ifs with hown
    · rw [others, update_self, others, hq]
      simp [hown]
    · rw [others, update_self, update_self, others, hq]
      simp [hown]
  · have hsame : others pfds (update waitq q rest) q' = others pfds waitq q' := by
      rw [others, update_of_ne heq, others]
    rw [hsame]
    split_ifs
    · rfl
    · rw [update_of_ne heq]

theorem pop {rest : List (WNode Tid Qid Pid)} {t : Tid} (h : LinkInv pfds caller timed st waitq)
    (hq : waitq q = n :: rest) (ht : Unqueued (update waitq q rest) (.handle t))
    (hwait : k.wait = dlistInit (dlistRemove st.ker.wait n) (.handle t : WNode Tid Qid Pid))
    (hpollfd : ∀ p, .poll p ≠ n → k.pollfd p = st.ker.pollfd p)
    (hpoll : ∀ p, .poll p = n → ¬ Open (k.pollfd p)) :
    LinkInv pfds caller timed
      ⟨k, if own pfds n then st.left else update st.left q (st.left q).tail⟩
      (update waitq q rest) := by
  have hleft : others pfds (update waitq q rest) =
      if own pfds n then st.left else update st.left q (st.left q).tail := by
    rw [← h.left]
    exact others_pop hq
  have hsub : ∀ q' x, x ∈ others pfds (update waitq q rest) q' →
      x ∈ st.left q' ∧ x ≠ n := by
    intro q' x hx
    rw [mem_others] at hx
    have hne : x ≠ n := by
      rintro rfl
      exact h.rep.unqueued_head hq q' hx.1
    exact ⟨(h.mem_left hx.2).mpr ((mem_pop hq hne).mp hx.1), hne⟩
  have hmem : n ∈ waitq q := by
    rw [hq]
    exact mem_cons_self
  have hrep := (h.rep.get_cons hq).2.init (by simp) ht
  rw [← hleft]
  refine ⟨?_, rfl, ?_, ?_, ⟨?_, ?_⟩, ?_⟩
  · show WaitRep k.wait _
    rw [hwait]
    exact hrep.1
  · intro item hitem
    by_cases hn : .poll item.pfd = n
    · refine ⟨fun ho => absurd ho (hpoll _ hn), fun _ => ?_, fun ho => absurd ho (hpoll _ hn)⟩
      rw [hn]
      exact h.rep.unqueued_head hq
    · exact (h.tracked item hitem).congr (hpollfd _ hn) fun _ => mem_pop hq hn
  · intro item hitem ho
    by_cases hn : .poll item.pfd = n
    · exact absurd ho (hpoll _ hn)
    · rw [hpollfd _ hn] at ho ⊢
      exact h.thread item hitem ho
  · exact fun q' hq' => h.apart.1 q' (hsub q' _ hq').1
  · intro q' p hp q'' hq''
    obtain ⟨hp', hne⟩ := hsub q' _ hp
    rw [hpollfd p hne] at hq''
    exact h.apart.2 q' p hp' q'' (hsub q'' _ hq'').1
  · intro htimed
    show SelfLinked k.wait _
    rw [hwait]
    by_cases heq : caller = t
    · rw [heq]
      exact hrep.2
    · refine SelfLinked.init ?_ (by simpa using heq)
      exact (h.self htimed).drop h.rep (by simp) h.caller_unqueued fun hu => absurd hmem (hu q)

theorem unpend (h : LinkInv pfds caller timed st waitq) (q : Qid) :
    ∃ waitq', LinkInv pfds caller timed (LinkOp.run cfg pfds caller st (.unpend q)) waitq' := by
  rcases hq : waitq q with _ | ⟨n, rest⟩
  · obtain ⟨hget, hnext, hprev⟩ := h.rep.get_nil hq
    have hring := h.rep.ringed q
    rw [hq] at hring
    have hfirst : next st.ker.wait (.queue q : WNode Tid Qid Pid) = .queue q := hring.of_singleton.1
    have hleft : update st.left q (st.left q).tail = st.left := by
      rw [← h.left, update_eq_self_iff, others, hq]
      rfl
    refine ⟨waitq, ?_⟩
    rw [LinkOp.run, hfirst, zUnpendFirstThread, if_pos hget, hleft]
    simp only [own, Bool.false_eq_true, if_false]
    exact { h with
      rep := h.rep.congr hnext hprev
      tracked := fun item hi => (h.tracked item hi).congr rfl fun _ => Iff.rfl
      self := fun ht => ⟨by rw [hnext]; exact (h.self ht).1, by rw [hprev]; exact (h.self ht).2⟩ }
  · obtain ⟨hget, hrep⟩ := h.rep.get_cons hq
    have hring := h.rep.ringed q
    rw [hq] at hring
    have hfirst : next st.ker.wait (.queue q : WNode Tid Qid Pid) = n := hring.next_head
    have hmem : n ∈ waitq q := by
      rw [hq]
      exact mem_cons_self
    rw [LinkOp.run, hfirst, zUnpendFirstThread, hget]
    cases n with
    | queue q' => exact absurd rfl (h.rep.node q _ hmem q')
    | handle t =>
      refine ⟨_, h.pop hq (t := t) (h.rep.unqueued_head hq) ?_ ?_ ?_⟩
      · simp
      · simp
      · simp
    | poll p =>
      have hopen : own pfds (.poll p : WNode Tid Qid Pid) = true →
          (st.ker.pollfd p).thread = caller := by
        intro hown
        rw [own, decide_eq_true_iff, mem_map] at hown
        obtain ⟨item, hitem, rfl⟩ := hown
        refine h.thread item hitem ?_
        by_contra hc
        exact (h.tracked item hitem).unlinked hc q hmem
      have hthread : Unqueued waitq (.handle (st.ker.pollfd p).thread) := by
        refine h.handle_unqueued ?_
        by_cases hown : own pfds (.poll p : WNode Tid Qid Pid) = true
        · rw [hopen hown]
          exact h.apart.1
        · exact h.apart.2 q p ((h.mem_left (by simpa using hown)).mpr hmem)
      refine ⟨_, h.pop hq (t := (st.ker.pollfd p).thread) ?_ ?_ ?_ ?_⟩
      · exact fun q' hq' => hthread q' ((mem_pop hq (by simp)).mp hq')
      · simp
      · intro p' hp'
        have hne : p' ≠ p := fun hc => hp' (hc ▸ rfl)
        simp [hne]
      · intro p' hp'
        injection hp' with hp'
        simp [hp', Open]

theorem expire (h : LinkInv pfds caller timed st waitq)
    (hok : LinkOp.Allowed pfds caller timed st .expire) :
    LinkInv pfds caller timed (LinkOp.run cfg pfds caller st .expire) waitq := by
  have hu := h.caller_unqueued
  have hrep := h.rep.drop fun _ => h.self hok
  rw [dropNode_of_unqueued hu] at hrep
  exact { h with
    rep := hrep
    tracked := fun item hi => (h.tracked item hi).congr rfl fun _ => Iff.rfl
    self := fun ht => (h.self ht).drop h.rep (by simp) hu fun _ => h.self ht }

variable (cfg) in
theorem elsewhere (h : LinkInv pfds caller timed st waitq)
    (hok : LinkOp.Allowed pfds caller timed st (.elsewhere k)) :
    LinkInv pfds caller timed (LinkOp.run cfg pfds caller st (.elsewhere k)) waitq := by
  obtain ⟨hwait, hpollfd⟩ := hok
  refine ⟨?_, h.left, ?_, ?_, ?_, ?_⟩
  · show WaitRep k.wait waitq
    rw [hwait]
    exact h.rep
  · intro item hitem
    exact (h.tracked item hitem).congr (congrFun hpollfd _) fun _ => Iff.rfl
  · show ∀ item ∈ pfds, Open (k.pollfd item.pfd) → (k.pollfd item.pfd).thread = caller
    rw [hpollfd]
    exact h.thread
  · show Apart caller st.left k.pollfd
    rw [hpollfd]
    exact h.apart
  · show timed → SelfLinked k.wait _
    rw [hwait]
    exact h.self

/-- **ONE STEP**. -/
theorem step (h : LinkInv pfds caller timed st waitq) (op : LinkOp Tid Qid Pid)
    (hok : op.Allowed pfds caller timed st) :
    ∃ waitq', LinkInv pfds caller timed (op.run cfg pfds caller st) waitq' := by
  cases op with
  | append q n => exact ⟨_, h.append hok⟩
  | remove n => exact ⟨_, h.remove hok⟩
  | describe p v => exact ⟨_, h.describe hok⟩
  | unpend q => exact h.unpend q
  | expire => exact ⟨_, h.expire hok⟩
  | elsewhere k => exact ⟨_, h.elsewhere cfg hok⟩

theorem of_setUp (h : SetUp k waitq pfds st.ker waitq')
    (hleft : st.left = waitq) (hu : ∀ item ∈ pfds, Unqueued waitq (.poll item.pfd))
    (hapart : Apart k.current waitq k.pollfd)
    (hself : timed → SelfLinked k.wait (.handle k.current)) :
    LinkInv pfds k.current timed st waitq' := by
  refine ⟨h.rep, h.others.trans hleft.symm, h.tracked, h.thread, ?_,
    fun ht => h.self _ hapart.1 (hself ht)⟩
  rw [hleft]
  refine ⟨hapart.1, ?_⟩
  intro q p hp
  have hp' : p ∉ pfds.map PollItem.pfd := by
    intro hc
    obtain ⟨item, hitem, rfl⟩ := mem_map.mp hc
    exact hu item hitem q hp
  rw [h.pollfd p hp']
  exact hapart.2 q p hp

theorem cleanup (h : LinkInv pfds caller timed st waitq) (hnd : (pfds.map PollItem.pfd).Nodup) :
    WaitRep (kPollCleanup pfds st.ker).wait st.left ∧
      ∀ item ∈ pfds, Unqueued st.left (.poll item.pfd) := by
  rw [← h.left]
  refine ⟨(kPollCleanup_wait h.rep hnd h.tracked).1, ?_⟩
  intro item hitem q hq
  obtain ⟨-, hown⟩ := mem_others.mp hq
  exact ne_own hown hitem rfl

end LinkInv

/-- **EVERY RUN**. -/
theorem LinkReach.inv {caller : Tid} {timed : Prop} {st₀ st : LinkSys Tid Qid Pid}
    (h : LinkReach cfg pfds caller timed st₀ st) (h₀ : LinkInv pfds caller timed st₀ waitq) :
    ∃ waitq', LinkInv pfds caller timed st waitq' := by
  refine Reach.invariant (P := fun st => ∃ waitq', LinkInv pfds caller timed st waitq') h ?_ ?_
  · rintro _ rfl
    exact ⟨waitq, h₀⟩
  · rintro st op ⟨waitq', hi⟩ hok
    exact hi.step op hok

omit [DecidableEq Qid] [DecidableEq Pid] in
theorem kSleep_links (k : Kernel Tid Qid Pid Nat) (timeout : cfg.Timeout) :
    (kSleep cfg k timeout).wait = k.wait ∧ (kSleep cfg k timeout).pollfd = k.pollfd := by
  have hpollfd : (zSuspend cfg k k.current).pollfd = k.pollfd := by
    by_cases hp : (k.thread k.current).state = .pending
    · rw [zSuspend, if_pos hp, zCancelScheduledWakeUp_pollfd]
    · exact (zSuspend_ready_thread cfg hp).2.2.2
  obtain ⟨-, -, hw, hp⟩ := zScheduleWakeUp_thread cfg (zSuspend cfg k k.current) timeout
  constructor
  · rw [kSleep, zPendCurrent, zScheduler_wait]
    exact hw.trans (zSuspend_wait k k.current)
  · rw [kSleep, zPendCurrent, zScheduler_pollfd]
    exact hp.trans hpollfd

def NothingBehind (pfds : List (PollItem Pid Qid)) (k : Kernel Tid Qid Pid Nat)
    (left : Qid → List (WNode Tid Qid Pid)) : Prop :=
  WaitRep k.wait left ∧ ∀ item ∈ pfds, Unqueued left (.poll item.pfd)

/-- **NOTHING LEFT BEHIND** by `k_poll`, if the caller's handle is linked to itself or it waits
    for ever. -/
theorem poll_leaves_nothing (hrep : WaitRep k.wait waitq) (hnd : (pfds.map PollItem.pfd).Nodup)
    (hu : ∀ item ∈ pfds, Unqueued waitq (.poll item.pfd))
    (hapart : Apart k.current waitq k.pollfd) (timeout : cfg.Timeout) :
    (∀ k' ret, kPoll cfg k o pfds timeout = (k', some ret) → NothingBehind pfds k' waitq) ∧
      ((timeout ≠ kForever cfg → SelfLinked k.wait (.handle k.current)) →
        ∀ k', kPoll cfg k o pfds timeout = (k', none) →
          ∀ st, LinkReach cfg pfds k.current (timeout ≠ kForever cfg) ⟨k', waitq⟩ st →
            NothingBehind pfds (kPollCleanup pfds st.ker) st.left) := by
  obtain ⟨waitq', hset⟩ := kPollSetup_wait (o := o) 0 hrep hnd hu
  have hinv : LinkInv pfds k.current False ⟨(kPollSetup o pfds k 0).1, waitq⟩ waitq' :=
    LinkInv.of_setUp hset rfl hu hapart False.elim
  rcases kPoll_cases k o pfds timeout with heq | ⟨v, heq⟩ | ⟨-, heq⟩
  · refine ⟨?_, ?_⟩
    · intro k' ret hk
      rw [heq, Prod.mk.injEq] at hk
      rw [← hk.1]
      exact ⟨hrep, hu⟩
    · intro _ k' hk
      rw [heq, Prod.mk.injEq] at hk
      exact absurd hk.2 (Option.some_ne_none _)
  · refine ⟨?_, ?_⟩
    · intro k' ret hk
      rw [heq, Prod.mk.injEq] at hk
      rw [← hk.1]
      exact hinv.cleanup hnd
    · intro _ k' hk
      rw [heq, Prod.mk.injEq] at hk
      exact absurd hk.2 (Option.some_ne_none _)
  · refine ⟨?_, ?_⟩
    · intro k' ret hk
      rw [heq, Prod.mk.injEq] at hk
      exact absurd hk.2.symm (Option.some_ne_none _)
    · intro hself k' hk st hst
      rw [heq, Prod.mk.injEq] at hk
      have hblocked : LinkInv pfds k.current (timeout ≠ kForever cfg)
          ⟨(kPollSetup o pfds k 0).1, waitq⟩ waitq' :=
        LinkInv.of_setUp hset rfl hu hapart hself
      have hsleep : LinkInv pfds k.current (timeout ≠ kForever cfg) ⟨k', waitq⟩ waitq' := by
        rw [← hk.1]
        exact hblocked.elsewhere cfg (kSleep_links _ timeout)
      obtain ⟨waitq'', hi⟩ := hst.inv hsleep
      exact hi.cleanup hnd

def sameTwice : List (PollItem (Fin 2) (Fin 2)) := [⟨0, .sem, 0⟩, ⟨1, .sem, 0⟩]

def asleepTwice : LinkSys (Fin 4) (Fin 2) (Fin 2) :=
  ⟨(kPoll (smallConfig (Fin 2)) (smallBoot (Fin 2) (Fin 2) Nat)
      (pollBoot (smallBoot (Fin 2) (Fin 2) Nat)).objs sameTwice 5).1, fun _ => []⟩

def servedOnce : LinkSys (Fin 4) (Fin 2) (Fin 2) :=
  ([.append 0 (.handle 1), .unpend 0, .expire] : List (LinkOp (Fin 4) (Fin 2) (Fin 2))).foldl
    (LinkOp.run (smallConfig (Fin 2)) sameTwice 0) asleepTwice

theorem poll_leaves_nothing_served :
    LinkReach (smallConfig (Fin 2)) sameTwice 0 ((5 : BitVec 16) ≠ BitVec.allOnes 16) asleepTwice
        servedOnce
      ∧ (servedOnce.ker.pollfd 0).ready = true
      ∧ (servedOnce.ker.pollfd 1).ready = false
      ∧ servedOnce.left 0 = [.handle 1]
      ∧ NothingBehind sameTwice (kPollCleanup sameTwice servedOnce.ker) servedOnce.left := by
  have hreach : LinkReach (smallConfig (Fin 2)) sameTwice 0
      ((5 : BitVec 16) ≠ BitVec.allOnes 16) asleepTwice servedOnce := by
    have hfinite : (5 : BitVec 16) ≠ BitVec.allOnes 16 := by decide
    refine Reach.step LinkOp.expire (Reach.step (LinkOp.unpend 0)
      (Reach.step (LinkOp.append 0 (.handle 1)) (.start rfl) ?_) trivial) hfinite
    refine ⟨by simp [Unqueued, asleepTwice], rfl, by simp, ?_, ?_⟩
    · show ∀ q : Fin 2, (.handle 0 : WNode (Fin 4) (Fin 2) (Fin 2)) ∉
        update (fun _ => []) 0 ([] ++ [.handle 1]) q
      decide
    · intro q p hp
      have hno : ∀ q p : Fin 2, (.poll p : WNode (Fin 4) (Fin 2) (Fin 2)) ∉
          update (fun _ => []) 0 ([] ++ [.handle 1]) q := by
        decide
      exact absurd hp (hno q p)
  refine ⟨hreach, by decide, by decide, by decide, ?_⟩
  have hblocked : (kPoll (smallConfig (Fin 2)) (smallBoot (Fin 2) (Fin 2) Nat)
      (pollBoot (smallBoot (Fin 2) (Fin 2) Nat)).objs sameTwice 5).2 = none := by
    decide
  refine (poll_leaves_nothing smallBoot_boot.kinv.wait (by decide) ?_ ?_ 5).2
    (fun _ => by decide) _ (Prod.ext rfl hblocked) _ hreach
  · simp [Unqueued]
  · simp [Apart, Unqueued]

def polledStale : PollSys (Fin 4) (Fin 2) (Fin 2) :=
  ([.semTake 0 1, .schedEnter, .semTake 0 (kForever _), .yield, .poll [⟨0, .sem, 0⟩] 1,
    .schedEnter, .yield] : List (PollOp (Fin 2) (smallConfig (Fin 2)))).foldl
      (PollOp.run false) (pollBoot (smallBoot (Fin 2) (Fin 2) Nat))

/-- **A WAITER IS LOST**: the handle of thread 0 still points into the queue after its first
    timeout, and the second one unlinks it there once more.  Thread 2 is blocked on the
    semaphore and is not found from its queue, which is no ring of any waiters. -/
theorem poll_unlinks_waiter :
    PollReach false (smallConfig (Fin 2)) (fun _ _ => True) polledStale
      ∧ polledStale.polls.ker.current = 0 ∧ polledStale.polls.call 0 = none
      ∧ polledStale.polls.Blocked 2 .unit 0
      ∧ next polledStale.polls.ker.wait (.queue 0 : WNode (Fin 4) (Fin 2) (Fin 2)) = .queue 0
      ∧ prev polledStale.polls.ker.wait (.queue 0 : WNode (Fin 4) (Fin 2) (Fin 2)) = .handle 2
      ∧ ∀ left, ¬ NothingBehind [⟨0, .sem, 0⟩] polledStale.polls.ker left := by
  have hnext : next polledStale.polls.ker.wait (.queue 0 : WNode (Fin 4) (Fin 2) (Fin 2))
      = .queue 0 := by decide
  have hprev : prev polledStale.polls.ker.wait (.queue 0 : WNode (Fin 4) (Fin 2) (Fin 2))
      = .handle 2 := by decide
  refine ⟨Reach.foldl (.start ⟨_, smallBoot_boot, rfl⟩) (by decide), by decide, by decide,
    by decide, hnext, hprev, ?_⟩
  rintro left ⟨hrep, -⟩
  have hring := hrep.ringed 0
  rcases hleft : left 0 with _ | ⟨n, rest⟩
  · rw [hleft] at hring
    have hcontra := hprev.symm.trans hring.of_singleton.2
    cases hcontra
  · have hn : n ∈ left 0 := by
      rw [hleft]
      exact mem_cons_self
    rw [hleft] at hring
    exact hrep.node 0 n hn 0 (hring.next_head.symm.trans hnext)

def readyCount (pfds : List (PollItem Pid Qid)) (k : Kernel Tid Qid Pid Nat) : Nat :=
  pfds.countP fun item => (k.pollfd item.pfd).ready

def readyNow (o : Objs Tid Qid) (pfds : List (PollItem Pid Qid)) : Nat :=
  pfds.countP fun item => pollWaits o item = some false

/-- `k_poll` up to its end. -/
def kPollReturns (cfg : Config Tid Qid) (k : Kernel Tid Qid Pid Nat) (o : Objs Tid Qid)
    (pfds : List (PollItem Pid Qid)) (timeout : cfg.Timeout)
    (resumed : Kernel Tid Qid Pid Nat) : Kernel Tid Qid Pid Nat × Int :=
  let r := kPoll cfg k o pfds timeout
  match r.2 with
  | some ret => (r.1, ret)
  | none => (kPollCleanup pfds resumed, zPendResult (resumed.thread k.current))

/-- What the caller is told. -/
structure Reports (pfds : List (PollItem Pid Qid)) (expired : Prop)
    (r : Kernel Tid Qid Pid Nat × Int) : Prop where
  ready : 0 ≤ r.2 → r.2 = readyCount pfds r.1 ∧ 1 ≤ readyCount pfds r.1
  timeout : r.2 = -ETIMEDOUT → readyCount pfds r.1 = 0 ∧ expired
  invalid : (∃ item ∈ pfds, item.type = .other) → r.2 = -EINVAL

/-- When it is told so. -/
structure Countable (cfg : Config Tid Qid) (caller : Tid) (o : Objs Tid Qid)
    (pfds : List (PollItem Pid Qid)) (timeout : cfg.Timeout)
    (resumed : Kernel Tid Qid Pid Nat) : Prop where
  invalid : (∃ item ∈ pfds, item.type = .other) → ∃ front bad back, pfds = front ++ bad :: back ∧
    bad.type = .other ∧ ∀ item ∈ back, pollWaits o item = some true
  wait : (∀ item ∈ pfds, pollWaits o item = some true) → timeout ≠ kNoWait cfg →
    if (resumed.thread caller).timerExpired then readyCount pfds resumed = 0
      else (resumed.thread caller).pendCanceled = true
  ready : (∀ item ∈ pfds, item.type ≠ .other) → (readyNow o pfds : Int) ≠ 256 - ETIMEDOUT

omit [Threads Tid] [DecidableEq Qid] [DecidableEq Pid] in
theorem pollWaits_eq_none : pollWaits o item = none ↔ item.type = .other := by
  rw [pollWaits]
  cases item.type <;> simp

theorem kPollSetup_append (front back : List (PollItem Pid Qid)) (ret : BitVec 8) :
    kPollSetup o (front ++ back) k ret
      = kPollSetup o back (kPollSetup o front k ret).1 (kPollSetup o front k ret).2 := by
  induction front generalizing k ret with
  | nil => rfl
  | cons item front ih =>
    rw [cons_append, kPollSetup, kPollSetup]
    rcases pollWaits o item with _ | _ | _
    · exact ih _
    · exact ih _
    · exact ih _

theorem kPollSetup_ret (h : ∀ item ∈ pfds, item.type ≠ .other) (ret : BitVec 8) :
    (kPollSetup o pfds k ret).2 = ret + BitVec.ofNat 8 (readyNow o pfds) := by
  induction pfds generalizing k ret with
  | nil => simp [kPollSetup, readyNow]
  | cons item pfds ih =>
    have hrest : ∀ i ∈ pfds, i.type ≠ .other := fun i hi => h i (mem_cons_of_mem item hi)
    rw [kPollSetup, readyNow, countP_cons]
    rcases hw : pollWaits o item with _ | _ | _
    · exact absurd (pollWaits_eq_none.mp hw) (h item mem_cons_self)
    · simp only [ih hrest, readyNow, decide_true, if_true, BitVec.ofNat_add]
      rw [BitVec.add_assoc, BitVec.add_comm 1]
      rfl
    · simpa [readyNow] using ih hrest ret

theorem kPollSetup_ret_invalid (front : List (PollItem Pid Qid))
    {back : List (PollItem Pid Qid)} {bad : PollItem Pid Qid}
    (hbad : bad.type = .other) (hback : ∀ item ∈ back, item.type ≠ .other) (ret : BitVec 8) :
    (kPollSetup o (front ++ bad :: back) k ret).2
      = BitVec.ofInt 8 (-EINVAL) + BitVec.ofNat 8 (readyNow o back) := by
  rw [kPollSetup_append, kPollSetup, pollWaits_eq_none.mpr hbad]
  exact kPollSetup_ret hback _

omit [DecidableEq Qid] [DecidableEq Pid] in
theorem exists_last_invalid (h : ∃ item ∈ pfds, item.type = .other) :
    ∃ front bad back, pfds = front ++ bad :: back ∧ bad.type = .other ∧
      ∀ item ∈ back, item.type ≠ .other := by
  induction pfds with
  | nil =>
    obtain ⟨item, hi, -⟩ := h
    exact absurd hi not_mem_nil
  | cons item pfds ih =>
    by_cases hrest : ∃ i ∈ pfds, i.type = .other
    · obtain ⟨front, bad, back, heq, hbad, hback⟩ := ih hrest
      exact ⟨item :: front, bad, back, by rw [heq, cons_append], hbad, hback⟩
    · push Not at hrest
      obtain ⟨i, hi, htype⟩ := h
      rcases mem_cons.mp hi with rfl | hi
      · exact ⟨[], i, pfds, rfl, htype, hrest⟩
      · exact absurd htype (hrest i hi)

theorem kPollSetup_pollfd {p : Pid} (hp : p ∉ pfds.map PollItem.pfd) (ret : BitVec 8) :
    (kPollSetup o pfds k ret).1.pollfd p = k.pollfd p := by
  induction pfds generalizing k ret with
  | nil => rfl
  | cons item pfds ih =>
    rw [map_cons, mem_cons, not_or] at hp
    rw [kPollSetup]
    rcases pollWaits o item with _ | _ | _
    · exact (ih hp.2 _).trans (update_of_ne hp.1 _ _)
    · exact (ih hp.2 _).trans (update_of_ne hp.1 _ _)
    · exact (ih hp.2 _).trans (update_of_ne hp.1 _ _)

theorem kPollSetup_ready (hnd : (pfds.map PollItem.pfd).Nodup)
    (h : ∀ item ∈ pfds, item.type ≠ .other) (ret : BitVec 8) :
    readyCount pfds (kPollSetup o pfds k ret).1 = readyNow o pfds := by
  induction pfds generalizing k ret with
  | nil => rfl
  | cons item pfds ih =>
    rw [map_cons, nodup_cons] at hnd
    have hrest : ∀ (k : Kernel Tid Qid Pid Nat) (ret : BitVec 8),
        pfds.countP (fun i => ((kPollSetup o pfds k ret).1.pollfd i.pfd).ready)
          = pfds.countP fun i => pollWaits o i = some false :=
      fun _ ret => ih hnd.2 (fun i hi => h i (mem_cons_of_mem item hi)) ret
    rw [kPollSetup, readyCount, readyNow, countP_cons, countP_cons]
    rcases hw : pollWaits o item with _ | _ | _
    · exact absurd (pollWaits_eq_none.mp hw) (h item mem_cons_self)
    · rw [hrest, kPollSetup_pollfd hnd.1]
      simp [modPollfd]
    · rw [hrest, kPollSetup_pollfd hnd.1]
      simp [modPollfd]

theorem kPollCleanup_pollfd : (kPollCleanup pfds k).pollfd = k.pollfd := by
  induction pfds generalizing k with
  | nil => rfl
  | cons item pfds ih =>
    rw [kPollCleanup]
    split_ifs
    · exact ih
    · exact ih
    · exact ih

theorem readyCount_cleanup : readyCount pfds (kPollCleanup pfds k) = readyCount pfds k := by
  rw [readyCount, readyCount, kPollCleanup_pollfd]

section Returns

variable (k : Kernel Tid Qid Pid Nat) (o : Objs Tid Qid) (timeout : cfg.Timeout)
variable (resumed : Kernel Tid Qid Pid Nat)

theorem kPollReturns_cases (hne : pfds ≠ []) :
    (kPollSetup o pfds k 0).2 ≠ 0 ∧ kPollReturns cfg k o pfds timeout resumed
        = (kPollCleanup pfds (kPollSetup o pfds k 0).1, (kPollSetup o pfds k 0).2.toInt)
      ∨ (kPollSetup o pfds k 0).2 = 0 ∧ timeout = kNoWait cfg
        ∧ kPollReturns cfg k o pfds timeout resumed
          = (kPollCleanup pfds (kPollSetup o pfds k 0).1, -EAGAIN)
      ∨ (kPollSetup o pfds k 0).2 = 0 ∧ timeout ≠ kNoWait cfg
        ∧ (kPoll cfg k o pfds timeout).2 = none
        ∧ kPollReturns cfg k o pfds timeout resumed
          = (kPollCleanup pfds resumed, zPendResult (resumed.thread k.current)) := by
  have hu : ¬ (!zUser cfg.argsChecks (!pfds.isEmpty)) = true := by
    cases pfds with
    | nil => exact absurd rfl hne
    | cons item pfds => simp [zUser]
  by_cases hr : (kPollSetup o pfds k 0).2 = 0
  · by_cases hn : timeout = kNoWait cfg
    · refine Or.inr (Or.inl ⟨hr, hn, ?_⟩)
      simp only [kPollReturns, kPoll, if_neg hu, if_pos hr, zPendCurrentOn, if_pos hn]
    · refine Or.inr (Or.inr ⟨hr, hn, ?_⟩)
      simp only [kPollReturns, kPoll, if_neg hu, if_pos hr, zPendCurrentOn, if_neg hn, and_self]
  · refine Or.inl ⟨hr, ?_⟩
    simp only [kPollReturns, kPoll, if_neg hu, if_neg hr]

end Returns

def Expired (cfg : Config Tid Qid) (k : Kernel Tid Qid Pid Nat) (o : Objs Tid Qid)
    (pfds : List (PollItem Pid Qid)) (timeout : cfg.Timeout)
    (resumed : Kernel Tid Qid Pid Nat) : Prop :=
  (kPoll cfg k o pfds timeout).2 = none ∧ (resumed.thread k.current).timerExpired = true

theorem einval_kept {c : Nat} (hc : c < 256) :
    (BitVec.ofInt 8 (-EINVAL) + BitVec.ofNat 8 c).toInt = -EINVAL ↔ c = 0 := by
  have heinval : (-EINVAL : Int) = (BitVec.ofInt 8 (-EINVAL)).toInt := by decide
  constructor
  · intro h
    rw [heinval, BitVec.toInt_inj] at h
    have hzero : BitVec.ofNat 8 c = 0 := BitVec.self_eq_add_right.mp h.symm
    have htoNat := congrArg BitVec.toNat hzero
    simpa [Nat.mod_eq_of_lt hc] using htoNat
  · rintro rfl
    decide

theorem zPendResult_ne_einval (th : Thread Nat) : zPendResult th ≠ -EINVAL := by
  rw [zPendResult]
  split_ifs <;> decide

omit [Threads Tid] [DecidableEq Qid] [DecidableEq Pid] in
theorem reports_invalid {expired : Prop} {r : Kernel Tid Qid Pid Nat × Int}
    (h : ∃ item ∈ pfds, item.type = .other) : Reports pfds expired r ↔ r.2 = -EINVAL := by
  constructor
  · exact fun hr => hr.invalid h
  · intro hr
    refine ⟨?_, ?_, fun _ => hr⟩
    · rw [hr]
      exact fun hc => absurd hc (by decide)
    · rw [hr]
      exact fun hc => absurd hc (by decide)

omit [Threads Tid] [DecidableEq Qid] [DecidableEq Pid] in
theorem reports_error {expired : Prop} {v : Int} (h : ¬ ∃ item ∈ pfds, item.type = .other)
    (hneg : v < 0) (hv : v ≠ -ETIMEDOUT) : Reports pfds expired (k, v) :=
  ⟨fun hc => absurd hc (not_le.mpr hneg), fun hc => absurd hc hv, fun hc => absurd hc h⟩

omit [Threads Tid] [DecidableEq Qid] [DecidableEq Pid] in
theorem readyNow_eq_zero (h : ∀ item ∈ pfds, item.type ≠ .other) :
    readyNow o pfds = 0 ↔ ∀ item ∈ pfds, pollWaits o item = some true := by
  rw [readyNow, countP_eq_zero]
  refine forall₂_congr fun item hi => ?_
  rcases hw : pollWaits o item with _ | _ | _
  · exact absurd (pollWaits_eq_none.mp hw) (h item hi)
  · simp
  · simp

section Cases

variable {timeout : cfg.Timeout} {resumed : Kernel Tid Qid Pid Nat}

theorem reports_iff_invalid (hlen : pfds.length ≤ 255) (h : ∃ item ∈ pfds, item.type = .other) :
    Reports pfds (Expired cfg k o pfds timeout resumed) (kPollReturns cfg k o pfds timeout resumed)
      ↔ Countable cfg k.current o pfds timeout resumed := by
  obtain ⟨front, bad, back, rfl, hbad, hback⟩ := exists_last_invalid h
  have hcount : readyNow o back < 256 := by
    have hle : readyNow o back ≤ back.length := countP_le_length
    rw [length_append, length_cons] at hlen
    omega
  have hret := kPollSetup_ret_invalid (k := k) (o := o) front hbad hback 0
  have hvalue : (kPollReturns cfg k o (front ++ bad :: back) timeout resumed).2 = -EINVAL
      ↔ readyNow o back = 0 := by
    rw [← einval_kept hcount, ← hret]
    rcases kPollReturns_cases k o timeout resumed (show front ++ bad :: back ≠ [] by simp) with
      ⟨-, heq⟩ | ⟨hzero, -, heq⟩ | ⟨hzero, -, -, heq⟩
    · rw [heq]
    · rw [heq, hzero]
      exact iff_of_false (by decide : (-EAGAIN : Int) ≠ -EINVAL) (by decide)
    · rw [heq, hzero]
      exact iff_of_false (zPendResult_ne_einval _) (by decide)
  rw [reports_invalid h, hvalue]
  constructor
  · intro hzero
    refine ⟨fun _ => ⟨front, bad, back, rfl, hbad, (readyNow_eq_zero hback).mp hzero⟩, ?_, ?_⟩
    · intro hwait
      exact absurd hbad (pollWaits_type (hwait bad (by simp)))
    · exact fun hvalid => absurd hbad (hvalid bad (by simp))
  · intro hc
    obtain ⟨front', bad', back', heq, hbad', hwait⟩ := hc.invalid h
    have hback' : ∀ item ∈ back', item.type ≠ .other :=
      fun item hi => pollWaits_type (hwait item hi)
    have hret' := kPollSetup_ret_invalid (k := k) (o := o) front' hbad' hback' 0
    rw [← heq, hret, (readyNow_eq_zero hback').mpr hwait] at hret'
    rw [← einval_kept hcount, hret', einval_kept (by decide)]

theorem reports_iff_ready (hnd : (pfds.map PollItem.pfd).Nodup) (hlen : pfds.length ≤ 255)
    (h : ∀ item ∈ pfds, item.type ≠ .other) (hready : readyNow o pfds ≠ 0) :
    Reports pfds (Expired cfg k o pfds timeout resumed) (kPollReturns cfg k o pfds timeout resumed)
      ↔ Countable cfg k.current o pfds timeout resumed := by
  have hcount : readyNow o pfds < 256 := by
    have hle : readyNow o pfds ≤ pfds.length := countP_le_length
    omega
  have hret : (kPollSetup o pfds k 0).2 = BitVec.ofNat 8 (readyNow o pfds) := by
    rw [kPollSetup_ret h]
    exact BitVec.zero_add _
  have hne : (kPollSetup o pfds k 0).2 ≠ 0 := by
    rw [hret]
    intro hc
    have htoNat : readyNow o pfds % 2 ^ 8 = 0 := congrArg BitVec.toNat hc
    omega
  have hpfds : pfds ≠ [] := by
    rintro rfl
    exact hready rfl
  have hvalue : (kPollSetup o pfds k 0).2.toInt
      = if readyNow o pfds < 128 then (readyNow o pfds : Int) else readyNow o pfds - 256 := by
    rw [hret, BitVec.toInt_eq_toNat_cond, BitVec.toNat_ofNat, Nat.mod_eq_of_lt hcount]
    split_ifs <;> omega
  rcases kPollReturns_cases k o timeout resumed hpfds with
    ⟨-, heq⟩ | ⟨hzero, -⟩ | ⟨hzero, -⟩
  · rw [heq, hvalue]
    have hflags : readyCount pfds (kPollCleanup pfds (kPollSetup o pfds k 0).1)
        = readyNow o pfds := by
      rw [readyCount_cleanup, kPollSetup_ready hnd h]
    constructor
    · intro hr
      refine ⟨?_, ?_, ?_⟩
      · rintro ⟨item, hi, hc⟩
        exact absurd hc (h item hi)
      · exact fun hwait => absurd ((readyNow_eq_zero h).mpr hwait) hready
      · intro _ hc
        have htimeout := hr.timeout
        simp only [hflags, ETIMEDOUT] at htimeout hc
        rw [if_neg (by omega)] at htimeout
        exact hready (htimeout (by omega)).1
    · intro hc
      have hno := hc.ready h
      refine ⟨?_, ?_, ?_⟩
      · simp only [hflags]
        intro hpos
        split_ifs at hpos ⊢
        · omega
        · omega
      · simp only [ETIMEDOUT] at hno ⊢
        intro hv
        split_ifs at hv
        omega
      · rintro ⟨item, hi, hb⟩
        exact absurd hb (h item hi)
  · exact absurd hzero hne
  · exact absurd hzero hne

theorem reports_iff_wait (hpfds : pfds ≠ []) (hwait : ∀ item ∈ pfds, pollWaits o item = some true) :
    Reports pfds (Expired cfg k o pfds timeout resumed) (kPollReturns cfg k o pfds timeout resumed)
      ↔ Countable cfg k.current o pfds timeout resumed := by
  have h : ∀ item ∈ pfds, item.type ≠ .other := fun item hi => pollWaits_type (hwait item hi)
  have hnone : readyNow o pfds = 0 := (readyNow_eq_zero h).mpr hwait
  have hzero : (kPollSetup o pfds k 0).2 = 0 := by
    rw [kPollSetup_ret h, hnone]
    rfl
  have hvalid : ¬ ∃ item ∈ pfds, item.type = .other := by
    rintro ⟨item, hi, hb⟩
    exact h item hi hb
  have hready : (readyNow o pfds : Int) ≠ 256 - ETIMEDOUT := by
    rw [hnone]
    decide
  rcases kPollReturns_cases k o timeout resumed hpfds with
    ⟨hne, -⟩ | ⟨-, hn, heq⟩ | ⟨-, hn, hblocked, heq⟩
  · exact absurd hzero hne
  · rw [heq]
    exact iff_of_true (reports_error hvalid (by decide) (by decide))
      ⟨fun hc => absurd hc hvalid, fun _ hc => absurd hn hc, fun _ => hready⟩
  · rw [heq]
    have hcountable : Countable cfg k.current o pfds timeout resumed ↔
        if (resumed.thread k.current).timerExpired then readyCount pfds resumed = 0
          else (resumed.thread k.current).pendCanceled = true :=
      ⟨fun hc => hc.wait hwait hn,
        fun hc => ⟨fun hb => absurd hb hvalid, fun _ _ => hc, fun _ => hready⟩⟩
    rw [hcountable]
    by_cases hexp : (resumed.thread k.current).timerExpired = true
    · rw [if_pos hexp, zPendResult, if_pos hexp]
      constructor
      · intro hr
        have := (hr.timeout rfl).1
        rwa [readyCount_cleanup] at this
      · intro hcount
        refine ⟨fun hc => absurd hc (by decide : ¬ (0 : Int) ≤ -ETIMEDOUT),
          fun _ => ⟨?_, hblocked, hexp⟩, fun hc => absurd hc hvalid⟩
        rw [readyCount_cleanup]
        exact hcount
    · rw [if_neg hexp, zPendResult, if_neg hexp]
      by_cases hcan : (resumed.thread k.current).pendCanceled = true
      · rw [if_pos hcan]
        exact iff_of_true (reports_error hvalid (by decide) (by decide)) hcan
      · rw [if_neg hcan]
        refine iff_of_false (fun hr => ?_) hcan
        obtain ⟨hcount, hpos⟩ := hr.ready le_rfl
        exact absurd (Int.natCast_eq_zero.mp hcount.symm) (Nat.one_le_iff_ne_zero.mp hpos)

end Cases

/-- **THE VALUE OF `k_poll`**: what the caller is told is right exactly under
    `Countable`. -/
theorem poll_reports_iff (hnd : (pfds.map PollItem.pfd).Nodup) (hpos : 1 ≤ pfds.length)
    (hlen : pfds.length ≤ 255) (k : Kernel Tid Qid Pid Nat) (o : Objs Tid Qid)
    (timeout : cfg.Timeout) (resumed : Kernel Tid Qid Pid Nat) :
    Reports pfds (Expired cfg k o pfds timeout resumed) (kPollReturns cfg k o pfds timeout resumed)
      ↔ Countable cfg k.current o pfds timeout resumed := by
  have hpfds : pfds ≠ [] := ne_nil_of_length_pos hpos
  by_cases hinvalid : ∃ item ∈ pfds, item.type = .other
  · exact reports_iff_invalid hlen hinvalid
  · push Not at hinvalid
    by_cases hready : readyNow o pfds = 0
    · exact reports_iff_wait hpfds ((readyNow_eq_zero hinvalid).mp hready)
    · exact reports_iff_ready hnd hlen hinvalid hready

def semAndMutex : List (PollItem (Fin 2) (Fin 2)) := [⟨0, .sem, 0⟩, ⟨1, .mutex, 1⟩]

theorem poll_reports_iff_mutex :
    (kPollReturns (smallConfig (Fin 2)) (smallBoot (Fin 2) (Fin 2) Nat)
        (pollBoot (smallBoot (Fin 2) (Fin 2) Nat)).objs semAndMutex (kForever _)
        (smallBoot (Fin 2) (Fin 2) Nat)).2 = 1
      ∧ Reports semAndMutex
        (Expired (smallConfig (Fin 2)) (smallBoot (Fin 2) (Fin 2) Nat)
          (pollBoot (smallBoot (Fin 2) (Fin 2) Nat)).objs semAndMutex (kForever _)
          (smallBoot (Fin 2) (Fin 2) Nat))
        (kPollReturns (smallConfig (Fin 2)) (smallBoot (Fin 2) (Fin 2) Nat)
          (pollBoot (smallBoot (Fin 2) (Fin 2) Nat)).objs semAndMutex (kForever _)
          (smallBoot (Fin 2) (Fin 2) Nat)) := by
  refine ⟨by decide, ?_⟩
  refine (poll_reports_iff (by decide) (by decide) (by decide) _ _ _ _).mpr ⟨?_, ?_, ?_⟩
  · exact fun hc => absurd hc (by decide)
  · exact fun hc => absurd hc (by decide)
  · decide

def givenOne : PollSys (Fin 4) (Fin 2) (Fin 2) :=
  [pollBoth, .semGive 1].foldl (PollOp.run false) (pollBoot (smallBoot (Fin 2) (Fin 2) Nat))

/-- **WOKEN, AND NOTHING READY**: thread 0 runs again with one descriptor ready, and
    `k_poll` returns 0. -/
theorem poll_returns_zero :
    PollReach false (smallConfig (Fin 2)) (fun st op => op.Careful false st) givenOne
      ∧ (zScheduler givenOne.polls.ker).current = 0
      ∧ readyCount [⟨0, .sem, 0⟩, ⟨1, .sem, 1⟩] (zScheduler givenOne.polls.ker) = 1
      ∧ (kPollReturns (smallConfig (Fin 2)) (smallBoot (Fin 2) (Fin 2) Nat)
          (pollBoot (smallBoot (Fin 2) (Fin 2) Nat)).objs [⟨0, .sem, 0⟩, ⟨1, .sem, 1⟩]
          (kForever _) (zScheduler givenOne.polls.ker)).2 = 0
      ∧ ¬ Reports [⟨0, .sem, 0⟩, ⟨1, .sem, 1⟩]
        (Expired (smallConfig (Fin 2)) (smallBoot (Fin 2) (Fin 2) Nat)
          (pollBoot (smallBoot (Fin 2) (Fin 2) Nat)).objs [⟨0, .sem, 0⟩, ⟨1, .sem, 1⟩]
          (kForever _) (zScheduler givenOne.polls.ker))
        (kPollReturns (smallConfig (Fin 2)) (smallBoot (Fin 2) (Fin 2) Nat)
          (pollBoot (smallBoot (Fin 2) (Fin 2) Nat)).objs [⟨0, .sem, 0⟩, ⟨1, .sem, 1⟩]
          (kForever _) (zScheduler givenOne.polls.ker)) := by
  refine ⟨Reach.foldl (.start ⟨_, smallBoot_boot, rfl⟩) (by decide), by decide, by decide,
    by decide, fun h => ?_⟩
  exact absurd (h.ready (by decide)).1 (by decide)

end AvrtosPoll
