import Avrtos.Channel

/-! # A message queue is a bounded FIFO channel

    Waiting threads are consumers of an empty or producers for a full queue; every operation
    keeps this. -/

namespace AvrtosMsgq

open Function List AvrtosDefines AvrtosKernel Bytes Window Runs

variable {Tid Mid : Type} [Threads Tid]
variable [DecidableEq Mid]

/-- The call a thread is in. -/
def MsgSys.role (st : MsgSys Tid Mid) (t : Tid) : Option Role :=
  (st.calls.frame t).map fun f => f.call.role

def MsgSys.waiter (st : MsgSys Tid Mid) (t : Tid) : Waiter where
  role := (st.role t).getD .get
  addr := st.addr t
  stamp := st.calls.stamp t
  issued := st.issued t

/-- One queue. -/
structure QueueOk (init : Mid → Msgq) (st : MsgSys Tid Mid) (m : Mid) (l : List Tid)
    (r u : Nat) : Prop extends Channel (init m) st.ram (st.accepted m) (st.delivered m)
      st.calls.clock (l.map st.waiter) r u where
  msgq : st.msgq m = (init m).at r u
  /-- messages of blocked threads are in no buffer -/
  bufs : ∀ t ∈ l, UserBuf init (st.addr t) (init m).msgSize

def CallEnd.Ok (e : CallEnd Mid) : Prop :=
  e.ret = 0 ∧ e.moved = true
    ∨ (e.ret = -ETIMEDOUT ∨ e.ret = -ECANCELED) ∧ e.moved = false

/-- All queues. -/
structure MsgBase (cfg : Config Tid Mid) (init : Mid → Msgq) (st : MsgSys Tid Mid)
    (w : Mid → List Tid) : Prop where
  calls : CallsBase cfg st.calls w
  queue : ∀ m, ∃ r u, QueueOk init st m (w m) r u
  moved : ∀ t f, st.calls.frame t = some f →
    (st.moved t = true ↔ (st.calls.ker.thread t).state = .ready
      ∧ zPendResult (st.calls.ker.thread t) = 0)
  results : ∀ e ∈ st.log, e.Ok

def MsgInv (cfg : Config Tid Mid) (init : Mid → Msgq) (st : MsgSys Tid Mid) : Prop :=
  ∃ w, MsgBase cfg init st w ∧ CallsInv cfg st.calls w

variable {cfg : Config Tid Mid} {init : Mid → Msgq} {st st' : MsgSys Tid Mid}
variable {w : Mid → List Tid} {m : Mid} {t : Tid} {l l' : List Tid} {r u : Nat}

omit [Threads Tid] [DecidableEq Mid] in
theorem MsgSys.waiter_congr (hframe : st'.calls.frame t = st.calls.frame t)
    (haddr : st'.addr t = st.addr t) : st'.waiter t = st.waiter t := by
  simp only [MsgSys.waiter, MsgSys.role, MsgSys.issued, Calls.stamp, hframe, haddr]

omit [Threads Tid] [DecidableEq Mid] in
theorem MsgSys.role_eq (h : st.calls.Waiting m t) : st.role t = some (st.waiter t).role := by
  obtain ⟨f, hf, -⟩ := Option.map_eq_some_iff.mp h.2
  simp only [MsgSys.waiter, MsgSys.role, hf]
  rfl

omit [Threads Tid] [DecidableEq Mid] in
theorem QueueOk.frame (h : QueueOk init st m l r u) (hq : st'.msgq m = st.msgq m)
    (ha : st'.accepted m = st.accepted m) (hd : st'.delivered m = st.delivered m)
    (hclock : st.calls.clock ≤ st'.calls.clock) (hsub : l'.Sublist l)
    (hslot : ∀ j < (init m).maxMsgs, slot st'.ram (init m).bufStart (init m).msgSize j
        = slot st.ram (init m).bufStart (init m).msgSize j)
    (hframe : ∀ t ∈ l', st'.calls.frame t = st.calls.frame t)
    (haddr : ∀ t ∈ l', st'.addr t = st.addr t)
    (hbytes : ∀ t ∈ l', bytes st'.ram (st.addr t) (init m).msgSize
      = bytes st.ram (st.addr t) (init m).msgSize) :
    QueueOk init st' m l' r u := by
  have hsame : ∀ t ∈ l', st'.waiter t = st.waiter t :=
    fun t ht => MsgSys.waiter_congr (hframe t ht) (haddr t ht)
  refine ⟨?_, hq.trans h.msgq, ?_⟩
  · rw [ha, hd, map_congr_left hsame]
    exact h.toChannel.frame hclock (hsub.map _) hslot (forall_mem_map.mpr hbytes)
  · intro t ht
    rw [haddr t ht]
    exact h.bufs t (hsub.subset ht)

omit [Threads Tid] [DecidableEq Mid] in
theorem QueueOk.block (h : QueueOk init st m l r u) {role : Role}
    {data : Nat} (hbuf : UserBuf init data (init m).msgSize)
    (hrole : role = .get ∧ u = 0 ∨ role = .put ∧ u = (init m).maxMsgs)
    (hmsgq : st'.msgq m = st.msgq m) (hram : st'.ram = st.ram)
    (ha : st'.accepted m = st.accepted m) (hd : st'.delivered m = st.delivered m)
    (hclock : st'.calls.clock = st.calls.clock + 1)
    (hold : ∀ x ∈ l, st'.calls.frame x = st.calls.frame x ∧ st'.addr x = st.addr x)
    (hframe : st'.calls.frame t
      = some ⟨m, st.calls.clock, role, bytes st.ram data (init m).msgSize⟩)
    (haddr : st'.addr t = data) : QueueOk init st' m (l ++ [t]) r u := by
  have hwaiter : st'.waiter t
      = ⟨role, data, st.calls.clock, bytes st.ram data (init m).msgSize⟩ := by
    simp only [MsgSys.waiter, MsgSys.role, MsgSys.issued, Calls.stamp, hframe, haddr]
    rfl
  have hsame : ∀ x ∈ l, st'.waiter x = st.waiter x :=
    fun x hx => MsgSys.waiter_congr (hold x hx).1 (hold x hx).2
  refine ⟨?_, hmsgq.trans h.msgq, ?_⟩
  · rw [map_append, map_singleton, hwaiter, map_congr_left hsame, hram, ha, hd, hclock]
    exact h.toChannel.block hrole (hbuf m) rfl rfl
  · intro x hx
    rcases mem_append.mp hx with hx | hx
    · rw [(hold x hx).2]
      exact h.bufs x hx
    · rw [mem_singleton.mp hx, haddr]
      exact hbuf

theorem MsgBase.msgSize (h : MsgBase cfg init st w) (m : Mid) :
    (st.msgq m).msgSize = (init m).msgSize := by
  obtain ⟨r, u, hq⟩ := h.queue m
  rw [hq.msgq]
  rfl

omit [Threads Tid] [DecidableEq Mid] in
theorem MsgSys.addr_congr (h : (st'.calls.ker.thread t).swapData
    = (st.calls.ker.thread t).swapData) : st'.addr t = st.addr t :=
  congrArg (fun d => Option.getD d 0) h

omit [DecidableEq Mid] in
theorem MsgSys.finish_of_none (hf : st.calls.frame st.calls.ker.current = none) :
    st.finish = st := by
  simp only [MsgSys.finish, hf]

omit [DecidableEq Mid] in
theorem MsgSys.finish_of_some {f : CallFrame Mid MsgCall}
    (hf : st.calls.frame st.calls.ker.current = some f) :
    st.finish = { st with
      calls := st.calls.resume
      log := ⟨f.queue, f.call.role, zPendResult (st.calls.ker.thread st.calls.ker.current),
        st.moved st.calls.ker.current⟩ :: st.log } := by
  simp only [MsgSys.finish, hf]

theorem MsgBase.finish (h : MsgBase cfg init st w) :
    MsgBase cfg init st.finish w ∧ CallsInv cfg st.finish.calls w := by
  cases hf : st.calls.frame st.calls.ker.current with
  | none =>
    rw [MsgSys.finish_of_none hf]
    exact ⟨h, h.calls, hf⟩
  | some f =>
    rw [MsgSys.finish_of_some hf]
    have hframe : ∀ x, x ≠ st.calls.ker.current → st.calls.resume.frame x = st.calls.frame x :=
      fun x hx => update_of_ne hx _ _
    refine ⟨⟨h.calls.resume.toCallsBase, ?_, ?_, ?_⟩, h.calls.resume⟩
    · intro m
      obtain ⟨r, u, hq⟩ := h.queue m
      refine ⟨r, u, hq.frame rfl rfl rfl (Nat.le_refl _) (List.Sublist.refl _)
        (fun _ _ => rfl) ?_ (fun _ _ => rfl) (fun _ _ => rfl)⟩
      intro t ht
      exact hframe t fun hc => h.calls.current_notMem (hc ▸ ht)
    · intro t f' hf'
      have ht : t ≠ st.calls.ker.current := by
        rintro rfl
        rw [show st.calls.resume.frame st.calls.ker.current = none from
          update_self ..] at hf'
        exact nomatch hf'
      rw [hframe t ht] at hf'
      exact h.moved t f' hf'
    · intro e he
      rcases mem_cons.mp he with rfl | he'
      · have hmoved := h.moved _ f hf
        rcases zPendResult_cases (st.calls.ker.thread st.calls.ker.current) with hz | hz
        · refine Or.inl ⟨hz, hmoved.mpr ⟨?_, hz⟩⟩
          refine h.calls.current_state.resolve_right ?_
          intro hc
          rw [hc, h.calls.idleFree] at hf
          exact nomatch hf
        · refine Or.inr ⟨hz, ?_⟩
          rw [← Bool.not_eq_true, hmoved]
          rintro ⟨-, hc⟩
          rcases hz with hz | hz
          · rw [hz] at hc
            exact absurd hc (by decide)
          · rw [hz] at hc
            exact absurd hc (by decide)
      · exact h.results e he'

theorem MsgBase.block (h : MsgBase cfg init st w) (hi : CallsInv cfg st.calls w)
    (hq : QueueOk init st m (w m) r u) (hc : st.calls.ker.current ≠ cfg.idle)
    {timeout : cfg.Timeout} (hne : timeout ≠ kNoWait cfg) {role : Role}
    {data : Nat} (hbuf : UserBuf init data (init m).msgSize)
    (hrole : role = .get ∧ u = 0 ∨ role = .put ∧ u = (init m).maxMsgs) :
    MsgInv cfg init (st.block (zPendCurrentOn cfg (st.calls.ker.modThread st.calls.ker.current
        fun th => { th with swapData := some data }) (some m) timeout).1 m role data) := by
  have hs := hi.swap st.calls.ker.current (some data)
  obtain ⟨-, hcalls, hth, -⟩ := hs.leave hc m ⟨role, bytes st.ram data (st.msgq m).msgSize⟩ hne
  generalize (zPendCurrentOn cfg (st.calls.ker.modThread st.calls.ker.current
    fun th => { th with swapData := some data }) (some m) timeout).1 = k' at *
  have hcur : k'.thread st.calls.ker.current
      = ({ st.calls.ker.thread st.calls.ker.current with swapData := some data } :
        Thread Nat).blocked (decide (timeout ≠ kForever cfg)) := by
    refine (hth st.calls.ker.current).trans ((if_pos rfl).trans ?_)
    exact congrArg _ (update_self ..)
  have hother : ∀ x, x ≠ st.calls.ker.current → k'.thread x = st.calls.ker.thread x := by
    intro x hx
    refine (hth x).trans ((if_neg hx).trans ?_)
    exact update_of_ne hx _ _
  have hwne : ∀ m', ∀ x ∈ w m', x ≠ st.calls.ker.current :=
    fun m' x hx hc => h.calls.current_notMem (hc ▸ hx)
  have haddr : ∀ m', ∀ x ∈ w m', swapAddr k' x = swapAddr st.calls.ker x := by
    intro m' x hx
    rw [swapAddr, hother x (hwne m' x hx)]
    rfl
  refine ⟨_, MsgBase.finish ⟨hcalls, ?_, ?_, h.results⟩⟩
  · intro m'
    by_cases hm : m' = m
    · subst hm
      rw [update_self]
      refine ⟨r, u, hq.block hbuf hrole rfl rfl rfl rfl rfl
        (fun x hx => ⟨Calls.frame_leave_of_ne (hwne m' x hx), haddr m' x hx⟩) ?_ ?_⟩
      · rw [← h.msgSize m']
        exact Calls.frame_leave_self
      · show swapAddr k' st.calls.ker.current = data
        rw [swapAddr, hcur]
        rfl
    · obtain ⟨r', u', hq'⟩ := h.queue m'
      rw [update_of_ne hm]
      exact ⟨r', u', hq'.frame rfl rfl rfl (Nat.le_succ _) (List.Sublist.refl _)
        (fun _ _ => rfl) (fun x hx => Calls.frame_leave_of_ne (hwne m' x hx)) (haddr m')
        (fun _ _ => rfl)⟩
  · intro x f hf
    by_cases hx : x = st.calls.ker.current
    · rw [hx]
      show update st.moved st.calls.ker.current false st.calls.ker.current = true
        ↔ (k'.thread st.calls.ker.current).state = .ready ∧ _
      rw [update_self, hcur]
      exact ⟨fun hc => (nomatch hc), fun hc => nomatch hc.1⟩
    · show update st.moved st.calls.ker.current false x = true
        ↔ (k'.thread x).state = .ready ∧ zPendResult (k'.thread x) = 0
      rw [update_of_ne hx, hother x hx]
      exact h.moved x f ((Calls.frame_leave_of_ne hx).symm.trans hf)

theorem MsgBase.userBuf (h : MsgBase cfg init st w) {a n : Nat}
    (hu : UserBuf st.msgq a n) : UserBuf init a n := by
  intro m
  obtain ⟨r, u, hq⟩ := h.queue m
  have h1 := hu m
  rw [hq.msgq] at h1
  exact h1

theorem MsgBase.untouched (h : MsgBase cfg init st w) {v : Option Tid} {a n : Nat}
    (hv : st.Untouched v a n) {m : Mid} (ht : t ∈ w m) (hne : v ≠ some t) :
    Apart a n (st.addr t) (init m).msgSize := by
  rw [← h.msgSize m]
  exact hv m t ((h.calls.waits m t).mp ht) hne

theorem MsgInv.write (h : MsgInv cfg init st) {ram' : Nat → UInt8}
    (hslot : ∀ m, ∀ j < (init m).maxMsgs, slot ram' (init m).bufStart (init m).msgSize j
        = slot st.ram (init m).bufStart (init m).msgSize j)
    (hbytes : ∀ m t, st.calls.Waiting m t →
      bytes ram' (st.addr t) (init m).msgSize = bytes st.ram (st.addr t) (init m).msgSize) :
    MsgInv cfg init { st with ram := ram' } := by
  obtain ⟨w, hb, hi⟩ := h
  refine ⟨w, ⟨hb.calls, ?_, hb.moved, hb.results⟩, hi⟩
  intro m
  obtain ⟨r, u, hq⟩ := hb.queue m
  exact ⟨r, u, hq.frame rfl rfl rfl (Nat.le_refl _) (List.Sublist.refl _) (hslot m)
    (fun _ _ => rfl) (fun _ _ => rfl)
    (fun t ht => hbytes m t ((hb.calls.waits m t).mp ht))⟩

theorem MsgInv.fail (h : MsgInv cfg init st) : MsgInv cfg init (st.done st.calls.ker none) := by
  obtain ⟨w, hb, hi⟩ := h
  refine ⟨w, ⟨hi.count.toCallsBase, ?_, hb.moved, hb.results⟩, hi.count⟩
  intro m
  obtain ⟨r, u, hq⟩ := hb.queue m
  exact ⟨r, u, hq.frame rfl rfl rfl (Nat.le_succ _) (List.Sublist.refl _) (fun _ _ => rfl)
    (fun _ _ => rfl) (fun _ _ => rfl) (fun _ _ => rfl)⟩

structure Releases (cfg : Config Tid Mid) (init : Mid → Msgq) (st st' : MsgSys Tid Mid)
    (w : Mid → List Tid) (m : Mid) : Prop where
  calls : st'.calls = { st.calls with
    ker := (zUnpendFirstThread cfg st.calls.ker m).1, clock := st.calls.clock + 1 }
  moved : st'.moved = match (w m).head? with
    | some t => update st.moved t true
    | none => st.moved
  log : st'.log = st.log
  msgq : ∀ m', m' ≠ m → st'.msgq m' = st.msgq m'
  accepted : ∀ m', m' ≠ m → st'.accepted m' = st.accepted m'
  delivered : ∀ m', m' ≠ m → st'.delivered m' = st.delivered m'
  slots : ∀ m', m' ≠ m → ∀ j < (init m').maxMsgs,
    slot st'.ram (init m').bufStart (init m').msgSize j
      = slot st.ram (init m').bufStart (init m').msgSize j
  bytes : ∀ m', ∀ t ∈ w m', (w m).head? ≠ some t →
    bytes st'.ram (st.addr t) (init m').msgSize = bytes st.ram (st.addr t) (init m').msgSize

theorem Releases.addr (hi : CallsInv cfg st.calls w) (hr : Releases cfg init st st' w m)
    (t : Tid) : st'.addr t = st.addr t := by
  obtain ⟨-, -, hth, -⟩ := hi.unpend m
  refine MsgSys.addr_congr ?_
  rw [hr.calls]
  show ((zUnpendFirstThread cfg st.calls.ker m).1.thread t).swapData = _
  rw [hth]
  by_cases ht : (w m).head? = some t
  · rw [if_pos ht]
    rfl
  · rw [if_neg ht]

theorem Releases.frame (hr : Releases cfg init st st' w m) (t : Tid) :
    st'.calls.frame t = st.calls.frame t := by
  rw [hr.calls]

theorem MsgBase.release (h : MsgBase cfg init st w) (hi : CallsInv cfg st.calls w)
    (hr : Releases cfg init st st' w m)
    (hq : ∃ r u, QueueOk init st' m (w m).tail r u) : MsgInv cfg init st' := by
  obtain ⟨-, hinv, hth, -⟩ := hi.unpend m
  have hinv' : CallsInv cfg st'.calls (update w m (w m).tail) := by
    rw [hr.calls]
    exact hinv.count
  refine ⟨_, ⟨hinv'.toCallsBase, ?_, ?_, ?_⟩, hinv'⟩
  · intro m'
    by_cases hm : m' = m
    · subst hm
      rw [update_self]
      exact hq
    · obtain ⟨r', u', hq'⟩ := h.queue m'
      rw [update_of_ne hm]
      refine ⟨r', u', hq'.frame (hr.msgq m' hm) (hr.accepted m' hm) (hr.delivered m' hm)
        ?_ (List.Sublist.refl _) (hr.slots m' hm) (fun t _ => hr.frame t)
        (fun t _ => hr.addr hi t) ?_⟩
      · rw [hr.calls]
        exact Nat.le_succ _
      · intro t ht
        refine hr.bytes m' t ht ?_
        intro hc
        exact hm (hi.disjoint (mem_of_mem_head? hc) ht)
  · intro t f hf
    rw [hr.frame t] at hf
    rw [hr.calls, hr.moved]
    show _ ↔ ((zUnpendFirstThread cfg st.calls.ker m).1.thread t).state = .ready
      ∧ zPendResult ((zUnpendFirstThread cfg st.calls.ker m).1.thread t) = 0
    rw [hth]
    by_cases ht : (w m).head? = some t
    · -- its flags were clear, so the call is going to return 0
      have hp := hi.pending_of_mem (mem_of_mem_head? ht)
      rw [if_pos ht, ht, zPendResult_eq_zero]
      simp only [update_self, true_iff]
      exact ⟨rfl, hi.flags hp⟩
    · rw [if_neg ht, ← h.moved t f hf]
      cases hhead : (w m).head? with
      | none => exact Iff.rfl
      | some a =>
        have hne : t ≠ a := by
          rintro rfl
          exact ht hhead
        simp only [update_of_ne hne]
  · rw [hr.log]
    exact h.results

theorem QueueOk.release (hq : QueueOk init st m (w m) r u)
    (hi : CallsInv cfg st.calls w) (hr : Releases cfg init st st' w m) {r' u' : Nat}
    (hmsgq : st'.msgq m = (init m).at r' u')
    (hc : Channel (init m) st'.ram (st'.accepted m) (st'.delivered m) (st.calls.clock + 1)
      ((w m).tail.map st.waiter) r' u') : QueueOk init st' m (w m).tail r' u' := by
  have hsame : ∀ t, st'.waiter t = st.waiter t :=
    fun t => MsgSys.waiter_congr (hr.frame t) (hr.addr hi t)
  refine ⟨?_, hmsgq, ?_⟩
  · rw [map_congr_left fun t _ => hsame t, hr.calls]
    exact hc
  · intro t ht
    rw [hr.addr hi]
    exact hq.bufs t (mem_of_mem_tail ht)

theorem snoc_self {β : Type} (f : Mid → List β) (x : β) : snoc f m x m = f m ++ [x] :=
  update_self ..

theorem snoc_of_ne {β : Type} (f : Mid → List β) (x : β) {m' : Mid} (h : m' ≠ m) :
    snoc f m x m' = f m' := update_of_ne h ..

theorem MsgBase.write_slot (hb : MsgBase cfg init st w) (hf : Fresh (init m))
    (hsep : Separate init) (r u : Nat) (ram : Nat → UInt8) (src : Nat) :
    (∀ m', m' ≠ m → ∀ j < (init m').maxMsgs,
      slot (memcpy ram ((init m).at r u).writeCursor src (init m).msgSize) (init m').bufStart
        (init m').msgSize j = slot ram (init m').bufStart (init m').msgSize j)
    ∧ ∀ m', ∀ x ∈ w m',
      bytes (memcpy ram ((init m).at r u).writeCursor src (init m).msgSize) (st.addr x)
        (init m').msgSize = bytes ram (st.addr x) (init m').msgSize := by
  constructor
  · intro m' hm j hj
    exact slot_memcpy_of_apart (apart_writeCursor hf (hsep m' m hm)) hj
  · intro m' x hx
    obtain ⟨r', u', hq⟩ := hb.queue m'
    exact bytes_memcpy_of_apart (apart_writeCursor hf (hq.bufs x hx m))

theorem MsgBase.copy_out (hb : MsgBase cfg init st w) {dst n : Nat}
    (hbuf : UserBuf init dst n) {v : Option Tid} (hun : st.Untouched v dst n) (src : Nat) :
    (∀ m', ∀ j < (init m').maxMsgs,
      slot (memcpy st.ram dst src n) (init m').bufStart (init m').msgSize j
        = slot st.ram (init m').bufStart (init m').msgSize j)
    ∧ ∀ m', ∀ x ∈ w m', v ≠ some x → bytes (memcpy st.ram dst src n) (st.addr x) (init m').msgSize
        = bytes st.ram (st.addr x) (init m').msgSize := by
  constructor
  · exact fun m' j hj => slot_memcpy_of_apart (hbuf m') hj
  · exact fun m' x hx hne => bytes_memcpy_of_apart (hb.untouched hun hx hne)

theorem MsgBase.first (hi : CallsInv cfg st.calls w) {rest : List Tid} (hw : w m = t :: rest) :
    (zUnpendFirstThread cfg st.calls.ker m).2 = some t
      ∧ swapAddr (zUnpendFirstThread cfg st.calls.ker m).1 t = st.addr t := by
  obtain ⟨hsome, -, hth, -⟩ := hi.unpend_first hw
  refine ⟨hsome, ?_⟩
  rw [swapAddr, hth, if_pos rfl]
  rfl

section Put

variable {data : Nat} {timeout : cfg.Timeout}

theorem MsgBase.put_handed (hb : MsgBase cfg init st w) (hi : CallsInv cfg st.calls w)
    (hq : QueueOk init st m (w m) r u) {rest : List Tid} (hw : w m = t :: rest)
    (harg : zUser cfg.argsChecks (data ≠ 0) = true) (hu : u < (init m).maxMsgs)
    (hun : st.Untouched (some t) (st.addr t) (init m).msgSize) :
    MsgInv cfg init ((MsgOp.put m data timeout : MsgOp cfg).run st) := by
  obtain ⟨hsome, haddr⟩ := MsgBase.first hi hw
  have htm : t ∈ w m := by
    rw [hw]
    exact mem_cons_self
  have hk : kMsgqPut cfg st.calls.ker st.ram (st.msgq m) m data timeout
      = ((zUnpendFirstThread cfg st.calls.ker m).1,
        memcpy st.ram (st.addr t) data (init m).msgSize, (init m).at r u, some 0) := by
    rw [hq.msgq, ← haddr]
    exact kMsgqPut_handed harg hu hsome
  have hrun : (MsgOp.put m data timeout : MsgOp cfg).run st = { st with
      calls := { st.calls with
        ker := (zUnpendFirstThread cfg st.calls.ker m).1, clock := st.calls.clock + 1 }
      ram := memcpy st.ram (st.addr t) data (init m).msgSize
      msgq := update st.msgq m ((init m).at r u)
      accepted := snoc st.accepted m
        (st.calls.clock, bytes st.ram data (init m).msgSize)
      delivered := snoc st.delivered m
        (bytes (memcpy st.ram (st.addr t) data (init m).msgSize) (st.addr t) (init m).msgSize)
      moved := update st.moved t true } := by
    simp only [MsgOp.run, hk, hsome, if_true, MsgSys.done, hb.msgSize m]
  obtain ⟨hslot, hbytes⟩ := hb.copy_out (hq.bufs t htm) hun data
  have hrel : Releases cfg init st ((MsgOp.put m data timeout : MsgOp cfg).run st) w m := by
    rw [hrun]
    refine ⟨rfl, by rw [hw]; rfl, rfl, fun m' hm => update_of_ne hm ..,
      fun m' hm => snoc_of_ne _ _ hm, fun m' hm => snoc_of_ne _ _ hm,
      fun m' _ => hslot m', ?_⟩
    intro m' x hx hne
    rw [hw] at hne
    exact hbytes m' x hx hne
  have hc := hq.toChannel
  have hnd := hi.nodup (q := m)
  rw [hw] at hc hnd
  have hapart : ∀ y ∈ rest.map st.waiter,
      Apart (st.addr t) (init m).msgSize y.addr (init m).msgSize := by
    refine forall_mem_map.mpr fun x hx => ?_
    have hxm : x ∈ w m := by
      rw [hw]
      exact mem_cons_of_mem t hx
    refine hb.untouched hun hxm fun hcon => ?_
    rw [← Option.some.inj hcon] at hx
    exact (nodup_cons.mp hnd).1 hx
  refine hb.release hi hrel ⟨r, u, hq.release hi hrel ?_ ?_⟩
  · rw [hrun]
    exact update_self ..
  · rw [hrun, hw]
    simp only [snoc_self]
    exact (hc.handed hu rfl hapart).2

theorem MsgBase.put_stored (hb : MsgBase cfg init st w) (hi : CallsInv cfg st.calls w)
    (hf : Fresh (init m)) (hsep : Separate init) (hq : QueueOk init st m (w m) r u)
    (hw : w m = []) (harg : zUser cfg.argsChecks (data ≠ 0) = true)
    (hu : u < (init m).maxMsgs) :
    MsgInv cfg init ((MsgOp.put m data timeout : MsgOp cfg).run st) := by
  obtain ⟨hnone, -⟩ := hi.unpend_nobody hw
  have hk : kMsgqPut cfg st.calls.ker st.ram (st.msgq m) m data timeout
      = ((zUnpendFirstThread cfg st.calls.ker m).1,
        memcpy st.ram ((init m).at r u).writeCursor data (init m).msgSize,
        (init m).at r (u + 1), some 0) := by
    rw [hq.msgq]
    exact kMsgqPut_stored harg hf hu hnone
  have hrun : (MsgOp.put m data timeout : MsgOp cfg).run st = { st with
      calls := { st.calls with
        ker := (zUnpendFirstThread cfg st.calls.ker m).1, clock := st.calls.clock + 1 }
      ram := memcpy st.ram ((init m).at r u).writeCursor data (init m).msgSize
      msgq := update st.msgq m ((init m).at r (u + 1))
      accepted := snoc st.accepted m
        (st.calls.clock, bytes st.ram data (init m).msgSize) } := by
    simp only [MsgOp.run, hk, hnone, if_true, MsgSys.done, hb.msgSize m]
  obtain ⟨hslot, hbytes⟩ := hb.write_slot hf hsep r u st.ram data
  have hrel : Releases cfg init st ((MsgOp.put m data timeout : MsgOp cfg).run st) w m := by
    rw [hrun]
    exact ⟨rfl, by rw [hw]; rfl, rfl, fun m' hm => update_of_ne hm ..,
      fun m' hm => snoc_of_ne _ _ hm, fun _ _ => rfl, hslot, fun m' x hx _ => hbytes m' x hx⟩
  have hc := hq.toChannel
  rw [hw] at hc
  refine hb.release hi hrel ⟨r, u + 1, hq.release hi hrel ?_ ?_⟩
  · rw [hrun]
    exact update_self ..
  · rw [hrun, hw]
    simp only [snoc_self]
    exact hc.store hu rfl

/-- **`k_msgq_put`** keeps the invariant. -/
theorem MsgInv.put (h : MsgInv cfg init st) (hf : ∀ m, Fresh (init m))
    (hsep : Separate init) (ha : (MsgOp.put m data timeout : MsgOp cfg).Allowed st) :
    MsgInv cfg init ((MsgOp.put m data timeout : MsgOp cfg).run st) := by
  obtain ⟨hidle, hbuf, hhand⟩ := ha
  have hfails : zUser cfg.argsChecks (data ≠ 0) = false
      ∨ ¬ (st.msgq m).usedMsgs < (st.msgq m).maxMsgs ∧ timeout = kNoWait cfg →
      MsgInv cfg init ((MsgOp.put m data timeout : MsgOp cfg).run st) := by
    intro hc
    obtain ⟨ret, hret, hk⟩ : ∃ ret : Int, ret ≠ 0
        ∧ kMsgqPut cfg st.calls.ker st.ram (st.msgq m) m data timeout
          = (st.calls.ker, st.ram, st.msgq m, some ret) := kMsgqPut_fails hc
    have hrun : (MsgOp.put m data timeout : MsgOp cfg).run st = st.done st.calls.ker none := by
      simp only [MsgOp.run, hk, if_neg hret, update_eq_self]
    rw [hrun]
    exact h.fail
  obtain ⟨w, hb, hi⟩ := h
  obtain ⟨r, u, hq⟩ := hb.queue m
  rw [hb.msgSize m] at hbuf hhand
  cases harg : zUser cfg.argsChecks (data ≠ 0) with
  | false => exact hfails (Or.inl harg)
  | true =>
    by_cases hu : u < (init m).maxMsgs
    · have hused : (st.msgq m).usedMsgs < (st.msgq m).maxMsgs := by
        rw [hq.msgq]
        exact hu
      cases hw : w m with
      | nil => exact hb.put_stored hi (hf m) hsep hq hw harg hu
      | cons t rest =>
        obtain ⟨hsome, -⟩ := MsgBase.first hi hw
        exact hb.put_handed hi hq hw harg hu (hhand hused t hsome).2
    · have hused : ¬ (st.msgq m).usedMsgs < (st.msgq m).maxMsgs := by
        rw [hq.msgq]
        exact hu
      by_cases hn : timeout = kNoWait cfg
      · exact hfails (Or.inr ⟨hused, hn⟩)
      · obtain ⟨hnone, -⟩ := (hi.swap st.calls.ker.current (some data)).leave (hidle hn) m
            (⟨.put, []⟩ : MsgCall) hn
        have hmax : u = (init m).maxMsgs := Nat.le_antisymm hq.le (Nat.le_of_not_lt hu)
        have hblock := hb.block hi hq (hidle hn) hn (hb.userBuf hbuf) (Or.inr ⟨rfl, hmax⟩)
        simp only [MsgOp.run, kMsgqPut_waits harg hused hn, hnone, update_eq_self]
        exact hblock

end Put

section Get

variable {data : Nat} {timeout : cfg.Timeout}

theorem MsgBase.get_refilled (hb : MsgBase cfg init st w) (hi : CallsInv cfg st.calls w)
    (hf : Fresh (init m)) (hsep : Separate init) (hq : QueueOk init st m (w m) r (u + 1))
    {rest : List Tid} (hw : w m = t :: rest)
    (harg : zUser cfg.argsChecks (data ≠ 0) = true)
    (hbuf : UserBuf init data (init m).msgSize)
    (hun : st.Untouched none data (init m).msgSize) :
    MsgInv cfg init ((MsgOp.get m data timeout : MsgOp cfg).run st) := by
  obtain ⟨hsome, haddr⟩ := MsgBase.first hi hw
  -- first the message is copied out, and then the slot at the end is written
  obtain ⟨ram₁, hram₁⟩ : ∃ ram₁, ram₁
      = memcpy st.ram data ((init m).at r (u + 1)).readCursor (init m).msgSize := ⟨_, rfl⟩
  obtain ⟨ram₂, hram₂⟩ : ∃ ram₂, ram₂
      = memcpy ram₁ ((init m).at r (u + 1)).writeCursor (st.addr t) (init m).msgSize :=
    ⟨_, rfl⟩
  have hk : kMsgqGet cfg st.calls.ker st.ram (st.msgq m) m data timeout
      = ((zUnpendFirstThread cfg st.calls.ker m).1, ram₂,
        (init m).at (advance (init m).maxMsgs r) (u + 1), some 0) := by
    rw [hq.msgq, hram₂, hram₁, ← haddr]
    exact kMsgqGet_refilled harg hf hq.lt hsome
  have hrun : (MsgOp.get m data timeout : MsgOp cfg).run st = { st with
      calls := { st.calls with
        ker := (zUnpendFirstThread cfg st.calls.ker m).1, clock := st.calls.clock + 1 }
      ram := ram₂
      msgq := update st.msgq m ((init m).at (advance (init m).maxMsgs r) (u + 1))
      accepted := snoc st.accepted m (st.calls.stamp t, st.issued t)
      delivered := snoc st.delivered m (bytes ram₂ data (init m).msgSize)
      moved := update st.moved t true } := by
    simp only [MsgOp.run, hk, hsome, if_true, MsgSys.done, hb.msgSize m]
  obtain ⟨hslot₁, hbytes₁⟩ := hb.copy_out hbuf hun ((init m).at r (u + 1)).readCursor
  obtain ⟨hslot₂, hbytes₂⟩ := hb.write_slot hf hsep r (u + 1) ram₁ (st.addr t)
  rw [← hram₁] at hslot₁ hbytes₁
  rw [← hram₂] at hslot₂ hbytes₂
  have hne : ∀ x : Tid, none ≠ some x := fun x hc => nomatch hc
  have hrel : Releases cfg init st ((MsgOp.get m data timeout : MsgOp cfg).run st) w m := by
    rw [hrun]
    exact ⟨rfl, by rw [hw]; rfl, rfl, fun m' hm => update_of_ne hm ..,
      fun m' hm => snoc_of_ne _ _ hm, fun m' hm => snoc_of_ne _ _ hm,
      fun m' hm j hj => (hslot₂ m' hm j hj).trans (hslot₁ m' j hj),
      fun m' x hx _ => (hbytes₂ m' x hx).trans (hbytes₁ m' x hx (hne x))⟩
  have hc := hq.toChannel
  have hapart : ∀ y ∈ (w m).map st.waiter, Apart data (init m).msgSize y.addr (init m).msgSize :=
    forall_mem_map.mpr fun x hx => hb.untouched hun hx (hne x)
  rw [hw] at hc hapart
  refine hb.release hi hrel ⟨advance (init m).maxMsgs r, u + 1, hq.release hi hrel ?_ ?_⟩
  · rw [hrun]
    exact update_self ..
  · rw [hrun, hw]
    simp only [snoc_self]
    exact (hc.refill hf (hbuf m) hapart hram₁ hram₂).2

theorem MsgBase.get_taken (hb : MsgBase cfg init st w) (hi : CallsInv cfg st.calls w)
    (hf : Fresh (init m)) (hq : QueueOk init st m (w m) r (u + 1)) (hw : w m = [])
    (harg : zUser cfg.argsChecks (data ≠ 0) = true)
    (hbuf : UserBuf init data (init m).msgSize)
    (hun : st.Untouched none data (init m).msgSize) :
    MsgInv cfg init ((MsgOp.get m data timeout : MsgOp cfg).run st) := by
  obtain ⟨hnone, -⟩ := hi.unpend_nobody hw
  obtain ⟨ram₁, hram₁⟩ : ∃ ram₁, ram₁
      = memcpy st.ram data ((init m).at r (u + 1)).readCursor (init m).msgSize := ⟨_, rfl⟩
  have hk : kMsgqGet cfg st.calls.ker st.ram (st.msgq m) m data timeout
      = ((zUnpendFirstThread cfg st.calls.ker m).1, ram₁,
        (init m).at (advance (init m).maxMsgs r) u, some 0) := by
    rw [hq.msgq, hram₁]
    exact kMsgqGet_taken harg hf hq.lt hnone
  have hrun : (MsgOp.get m data timeout : MsgOp cfg).run st = { st with
      calls := { st.calls with
        ker := (zUnpendFirstThread cfg st.calls.ker m).1, clock := st.calls.clock + 1 }
      ram := ram₁
      msgq := update st.msgq m ((init m).at (advance (init m).maxMsgs r) u)
      delivered := snoc st.delivered m (bytes ram₁ data (init m).msgSize) } := by
    simp only [MsgOp.run, hk, hnone, if_true, MsgSys.done, hb.msgSize m]
  obtain ⟨hslot, hbytes⟩ := hb.copy_out hbuf hun ((init m).at r (u + 1)).readCursor
  rw [← hram₁] at hslot hbytes
  have hrel : Releases cfg init st ((MsgOp.get m data timeout : MsgOp cfg).run st) w m := by
    rw [hrun]
    exact ⟨rfl, by rw [hw]; rfl, rfl, fun m' hm => update_of_ne hm ..,
      fun _ _ => rfl, fun m' hm => snoc_of_ne _ _ hm, fun m' _ => hslot m',
      fun m' x hx _ => hbytes m' x hx fun hc => nomatch hc⟩
  have hc := hq.toChannel
  rw [hw] at hc
  refine hb.release hi hrel ⟨advance (init m).maxMsgs r, u, hq.release hi hrel ?_ ?_⟩
  · rw [hrun]
    exact update_self ..
  · rw [hrun, hw]
    simp only [snoc_self]
    exact hc.take hf (hbuf m) hram₁

/-- **`k_msgq_get`** keeps the invariant. -/
theorem MsgInv.get (h : MsgInv cfg init st) (hf : ∀ m, Fresh (init m))
    (hsep : Separate init) (ha : (MsgOp.get m data timeout : MsgOp cfg).Allowed st) :
    MsgInv cfg init ((MsgOp.get m data timeout : MsgOp cfg).run st) := by
  obtain ⟨hidle, hbuf, huntouched⟩ := ha
  have hfails : zUser cfg.argsChecks (data ≠ 0) = false
      ∨ ¬ 0 < (st.msgq m).usedMsgs ∧ timeout = kNoWait cfg →
      MsgInv cfg init ((MsgOp.get m data timeout : MsgOp cfg).run st) := by
    intro hc
    obtain ⟨ret, hret, hk⟩ : ∃ ret : Int, ret ≠ 0
        ∧ kMsgqGet cfg st.calls.ker st.ram (st.msgq m) m data timeout
          = (st.calls.ker, st.ram, st.msgq m, some ret) := kMsgqGet_fails hc
    have hrun : (MsgOp.get m data timeout : MsgOp cfg).run st = st.done st.calls.ker none := by
      simp only [MsgOp.run, hk, if_neg hret, update_eq_self]
    rw [hrun]
    exact h.fail
  obtain ⟨w, hb, hi⟩ := h
  obtain ⟨r, u, hq⟩ := hb.queue m
  rw [hb.msgSize m] at hbuf huntouched
  have hused : (st.msgq m).usedMsgs = u := by
    rw [hq.msgq]
    rfl
  cases harg : zUser cfg.argsChecks (data ≠ 0) with
  | false => exact hfails (Or.inl harg)
  | true =>
    cases u with
    | succ v =>
      have hun := huntouched (by rw [hused]; exact Nat.succ_pos v)
      cases hw : w m with
      | nil => exact hb.get_taken hi (hf m) hq hw harg (hb.userBuf hbuf) hun
      | cons t rest =>
        exact hb.get_refilled hi (hf m) hsep hq hw harg (hb.userBuf hbuf) hun
    | zero =>
      have hzero : ¬ 0 < (st.msgq m).usedMsgs := by
        rw [hused]
        exact Nat.lt_irrefl 0
      by_cases hn : timeout = kNoWait cfg
      · exact hfails (Or.inr ⟨hzero, hn⟩)
      · obtain ⟨hnone, -⟩ := (hi.swap st.calls.ker.current (some data)).leave (hidle hn) m
            (⟨.get, []⟩ : MsgCall) hn
        have hblock := hb.block hi hq (hidle hn) hn (hb.userBuf hbuf) (Or.inl ⟨rfl, rfl⟩)
        simp only [MsgOp.run, kMsgqGet_waits harg hzero hn, hnone, update_eq_self]
        exact hblock

end Get

section Others

theorem MsgBase.leave_waits (hb : MsgBase cfg init st w) {k' : Kernel Tid Mid Empty Nat}
    {w' : Mid → List Tid} (hinv : CallsInv cfg { st.calls with ker := k' } w')
    (hsub : ∀ m, (w' m).Sublist (w m)) (R : Tid → Prop)
    (hsame : ∀ t, ¬ R t → k'.thread t = st.calls.ker.thread t)
    (hfail : ∀ t, R t → (st.calls.ker.thread t).state = .pending ∧ zPendResult (k'.thread t) ≠ 0
      ∧ (k'.thread t).swapData = (st.calls.ker.thread t).swapData) :
    MsgInv cfg init { st with calls := { st.calls with ker := k' } } := by
  have haddr : ∀ t, ({ st with calls := { st.calls with ker := k' } } :
      MsgSys Tid Mid).addr t = st.addr t := by
    intro t
    refine MsgSys.addr_congr ?_
    by_cases hR : R t
    · exact (hfail t hR).2.2
    · exact congrArg _ (hsame t hR)
  refine ⟨w', ⟨hinv.toCallsBase, ?_, ?_, hb.results⟩, hinv⟩
  · intro m
    obtain ⟨r, u, hq⟩ := hb.queue m
    exact ⟨r, u, hq.frame rfl rfl rfl (Nat.le_refl _) (hsub m) (fun _ _ => rfl)
      (fun _ _ => rfl) (fun t _ => haddr t) (fun _ _ => rfl)⟩
  · intro t f hf
    show st.moved t = true ↔ (k'.thread t).state = .ready ∧ zPendResult (k'.thread t) = 0
    by_cases hR : R t
    · obtain ⟨hp, hz, -⟩ := hfail t hR
      rw [hb.moved t f hf, hp]
      exact ⟨fun hc => (nomatch hc.1), fun hc => absurd hc.2 hz⟩
    · rw [hsame t hR]
      exact hb.moved t f hf

theorem MsgInv.schedEnter (h : MsgInv cfg init st) :
    MsgInv cfg init ((MsgOp.schedEnter : MsgOp cfg).run st) := by
  obtain ⟨w, hb, hi⟩ := h
  obtain ⟨E, hE, hinv, hth, -⟩ := hi.schedEnter
  refine hb.leave_waits hinv (fun m => filter_sublist) (fun t => t ∈ E) ?_ ?_
  · intro t ht
    rw [hth, if_neg ht]
  · intro t ht
    rw [hth, if_pos ht]
    exact ⟨hE t ht, zPendResult_expired _, rfl⟩

theorem MsgInv.yield (h : MsgInv cfg init st) :
    MsgInv cfg init ((MsgOp.yield : MsgOp cfg).run st) := by
  obtain ⟨w, hb, hi⟩ := h
  obtain ⟨hbase, hth⟩ := hi.yield
  have hdata : ∀ t, ((zScheduler st.calls.ker).thread t).swapData
      = (st.calls.ker.thread t).swapData := by
    intro t
    rw [hth]
    by_cases ht : t = st.calls.ker.current
    · rw [if_pos ht]
      rfl
    · rw [if_neg ht]
  refine ⟨w, MsgBase.finish ⟨hbase, ?_, ?_, hb.results⟩⟩
  · intro m
    obtain ⟨r, u, hq⟩ := hb.queue m
    exact ⟨r, u, hq.frame rfl rfl rfl (Nat.le_refl _) (List.Sublist.refl _)
      (fun _ _ => rfl) (fun _ _ => rfl) (fun t _ => MsgSys.addr_congr (hdata t))
      (fun _ _ => rfl)⟩
  · intro t f hf
    have ht : t ≠ st.calls.ker.current := by
      rintro rfl
      rw [show st.calls.frame st.calls.ker.current = none from hi.running] at hf
      exact nomatch hf
    show st.moved t = true ↔ ((zScheduler st.calls.ker).thread t).state = .ready ∧ _
    rw [hth, if_neg ht]
    exact hb.moved t f hf

theorem MsgInv.purge (h : MsgInv cfg init st) (hf : Fresh (init m)) :
    MsgInv cfg init ((MsgOp.purge m : MsgOp cfg).run st) := by
  obtain ⟨w, hb, hi⟩ := h
  obtain ⟨hinv, hth, -⟩ := hi.unpendAll marks_cancel m
  have hcancel : MsgInv cfg init
      { st with calls := { st.calls with ker := (zCancelAllPending cfg st.calls.ker m).1 } } := by
    refine hb.leave_waits hinv ?_ (fun t => t ∈ w m) ?_ ?_
    · intro m'
      by_cases hm : m' = m
      · rw [hm, update_self]
        exact nil_sublist _
      · rw [update_of_ne hm]
    · intro t ht
      exact (hth t).trans (if_neg ht)
    · intro t ht
      have hrec : (zCancelAllPending cfg st.calls.ker m).1.thread t
          = (st.calls.ker.thread t).woken.cancel := (hth t).trans (if_pos ht)
      rw [hrec]
      exact ⟨hi.pending_of_mem ht, zPendResult_cancel _, rfl⟩
  obtain ⟨w', hb', hi'⟩ := hcancel
  have hempty : ∀ t, t ∉ w' m := by
    intro t ht
    have h1 := (hi'.waits m t).mp ht
    have h2 := (hinv.waits m t).mpr h1
    rw [update_self] at h2
    cases h2
  refine ⟨w', ⟨hb'.calls, ?_, hb'.moved, hb'.results⟩, hi'⟩
  intro m'
  obtain ⟨r, u, hq⟩ := hb'.queue m'
  by_cases hm : m' = m
  · subst hm
    have hnil : w' m' = [] := eq_nil_iff_forall_not_mem.mpr hempty
    refine ⟨r, 0, ?_, ?_, fun t ht => absurd ht (hempty t)⟩
    · show Channel _ _ (update st.accepted m' [] m') (update st.delivered m' [] m') _ _ r 0
      rw [update_self, update_self, hnil]
      exact Channel.empty hq.lt
    · show update st.msgq m' _ m' = _
      have hmsgq : st.msgq m' = (init m').at r u := hq.msgq
      rw [update_self, kMsgqPurge, hmsgq]
      have hmod : (r + 0) % (init m').maxMsgs = r := Nat.mod_eq_of_lt hq.lt
      simp only [Msgq.at, hmod]
  · exact ⟨r, u, hq.frame (update_of_ne hm ..) (update_of_ne hm ..)
      (update_of_ne hm ..) (Nat.le_refl _) (List.Sublist.refl _) (fun _ _ => rfl)
      (fun _ _ => rfl) (fun _ _ => rfl) (fun _ _ => rfl)⟩

theorem MsgInv.copy (h : MsgInv cfg init st) {dst src n : Nat}
    (hbuf : UserBuf st.msgq dst n) (hun : st.Untouched none dst n) :
    MsgInv cfg init { st with ram := memcpy st.ram dst src n } := by
  have ⟨w, hb, _⟩ := h
  obtain ⟨hslot, hbytes⟩ := hb.copy_out (hb.userBuf hbuf) hun src
  exact h.write hslot fun m t ht =>
    hbytes m t ((hb.calls.waits m t).mpr ht) fun hc => nomatch hc

theorem MsgInv.peek {data : Nat} (h : MsgInv cfg init st)
    (ha : (MsgOp.peek m data : MsgOp cfg).Allowed st) :
    MsgInv cfg init ((MsgOp.peek m data : MsgOp cfg).run st) := by
  by_cases hu : 0 < (st.msgq m).usedMsgs
  · have hrun : (MsgOp.peek m data : MsgOp cfg).run st = { st with
        ram := memcpy st.ram data (st.msgq m).readCursor (st.msgq m).msgSize } := by
      simp only [MsgOp.run, kMsgqPeek, if_pos hu]
    rw [hrun]
    exact h.copy ha.1 (ha.2 hu)
  · have hrun : (MsgOp.peek m data : MsgOp cfg).run st = st := by
      simp only [MsgOp.run, kMsgqPeek, if_neg hu]
    rw [hrun]
    exact h

theorem MsgInv.userWrite {a : Nat} {v : UInt8} (h : MsgInv cfg init st)
    (ha : (MsgOp.write a v : MsgOp cfg).Allowed st) :
    MsgInv cfg init ((MsgOp.write a v : MsgOp cfg).run st) := by
  have ⟨w, hb, _⟩ := h
  refine h.write ?_ ?_
  · intro m j hj
    exact bytes_update_of_apart ((hb.userBuf ha.1 m).slot hj)
  · intro m t ht
    exact bytes_update_of_apart
      (hb.untouched ha.2 ((hb.calls.waits m t).mpr ht) (fun hc => nomatch hc))

end Others

/-- **ONE OPERATION** keeps the invariant. -/
theorem MsgInv.step (h : MsgInv cfg init st) (hf : ∀ m, Fresh (init m))
    (hsep : Separate init) (op : MsgOp cfg) (ha : op.Allowed st) :
    MsgInv cfg init (op.run st) := by
  cases op with
  | put m data timeout => exact h.put hf hsep ha
  | get m data timeout => exact h.get hf hsep ha
  | peek m data => exact h.peek ha
  | purge m => exact h.purge (hf m)
  | write a v => exact h.userWrite ha
  | schedEnter => exact h.schedEnter
  | yield => exact h.yield

/-- Before the first operation nothing is stored and nobody waits. -/
theorem msgBoot_inv {k : Kernel Tid Mid Empty Nat} {ring : List Tid}
    (hboot : ColdBoot cfg k ring) (ram : Nat → UInt8) (hf : ∀ m, Fresh (init m)) :
    MsgInv cfg init (msgBoot k ram init) := by
  refine ⟨fun _ => [], ⟨hboot.callsInv.toCallsBase, ?_, ?_, ?_⟩, hboot.callsInv⟩
  · intro m
    exact ⟨0, 0, Channel.empty (hf m).max_pos, (hf m).start, fun t ht => nomatch ht⟩
  · exact fun t f hf => nomatch hf
  · exact fun e he => nomatch he

theorem MsgReach.inv (h : MsgReach cfg init st) (hf : ∀ m, Fresh (init m))
    (hsep : Separate init) : MsgInv cfg init st := by
  refine Reach.invariant h ?_ fun _ op ih ha => ih.step hf hsep op ha
  rintro st ⟨k, ring, ram, hboot, rfl⟩
  exact msgBoot_inv hboot ram hf

theorem kMsgqPut_error {k : Kernel Tid Mid Empty Nat} {ram : Nat → UInt8} {q : Msgq}
    {data : Nat} {timeout : cfg.Timeout} {ret : Int} (hret : ret ≠ 0)
    (h : (kMsgqPut cfg k ram q m data timeout).2.2.2 = some ret) :
    kMsgqPut cfg k ram q m data timeout = (k, ram, q, some ret)
      ∧ (ret = -EINVAL ∨ ret = -ENOMEM) := by
  rw [kMsgqPut] at h ⊢
  by_cases harg : (!zUser cfg.argsChecks (data ≠ 0)) = true
  · rw [if_pos harg] at h ⊢
    injection h with h
    subst h
    exact ⟨rfl, Or.inl rfl⟩
  · rw [if_neg harg] at h ⊢
    by_cases hu : q.usedMsgs < q.maxMsgs
    · rw [if_pos hu] at h
      refine absurd ?_ hret
      simp only at h
      split at h <;> exact (Option.some.inj h).symm
    · rw [if_neg hu] at h ⊢
      by_cases hn : timeout = kNoWait cfg
      · rw [if_pos hn] at h ⊢
        injection h with h
        subst h
        exact ⟨rfl, Or.inr rfl⟩
      · rw [if_neg hn] at h
        simp only [zPendCurrentOn, if_neg hn] at h
        cases h

theorem kMsgqGet_error {k : Kernel Tid Mid Empty Nat} {ram : Nat → UInt8} {q : Msgq}
    {data : Nat} {timeout : cfg.Timeout} {ret : Int} (hret : ret ≠ 0)
    (h : (kMsgqGet cfg k ram q m data timeout).2.2.2 = some ret) :
    kMsgqGet cfg k ram q m data timeout = (k, ram, q, some ret)
      ∧ (ret = -EINVAL ∨ ret = -ENOMSG) := by
  rw [kMsgqGet] at h ⊢
  by_cases harg : (!zUser cfg.argsChecks (data ≠ 0)) = true
  · rw [if_pos harg] at h ⊢
    injection h with h
    subst h
    exact ⟨rfl, Or.inl rfl⟩
  · rw [if_neg harg] at h ⊢
    by_cases hu : 0 < q.usedMsgs
    · rw [if_pos hu] at h
      refine absurd ?_ hret
      simp only at h
      split at h <;> exact (Option.some.inj h).symm
    · rw [if_neg hu] at h ⊢
      by_cases hn : timeout = kNoWait cfg
      · rw [if_pos hn] at h ⊢
        injection h with h
        subst h
        exact ⟨rfl, Or.inr rfl⟩
      · rw [if_neg hn] at h
        simp only [zPendCurrentOn, if_neg hn] at h
        cases h

structure ChannelOk (cfg : Config Tid Mid) (init : Mid → Msgq) (st : MsgSys Tid Mid)
    (m : Mid) : Prop where
  used_le : (st.msgq m).usedMsgs ≤ (init m).maxMsgs
  /-- size, number and place of the messages stay -/
  fixed : (st.msgq m).msgSize = (init m).msgSize ∧ (st.msgq m).maxMsgs = (init m).maxMsgs
    ∧ (st.msgq m).bufStart = (init m).bufStart ∧ (st.msgq m).bufEnd = (init m).bufEnd
  /-- both cursors are at slots of the buffer, `used_msgs` slots apart; and
      nothing is lost: what was accepted and not delivered is between them -/
  cursors : ∃ i < (init m).maxMsgs, ∃ j < (init m).maxMsgs,
    j = (i + (st.msgq m).usedMsgs) % (init m).maxMsgs
      ∧ (st.msgq m).readCursor = (init m).bufStart + (init m).msgSize * i
      ∧ (st.msgq m).writeCursor = (init m).bufStart + (init m).msgSize * j
      ∧ (init m).bufEnd = (init m).bufStart + (init m).msgSize * (init m).maxMsgs
      ∧ (st.accepted m).map Prod.snd
        = st.delivered m ++ stored st.ram (init m) i (st.msgq m).usedMsgs
  waiters : (∀ t, st.calls.Waiting m t → st.role t = some .get)
      ∧ (st.msgq m).usedMsgs = 0
    ∨ (∀ t, st.calls.Waiting m t → st.role t = some .put)
      ∧ (st.msgq m).usedMsgs = (init m).maxMsgs
    ∨ ∀ t, ¬ st.calls.Waiting m t
  /-- since the last purge -/
  delivered : st.delivered m <+: (st.accepted m).map Prod.snd
  issued : (st.accepted m).Pairwise fun a b => a.1 < b.1
  /-- the message of a blocked thread is what it was when the thread blocked -/
  held : ∀ t, st.calls.Waiting m t →
    bytes st.ram (st.addr t) (init m).msgSize = st.issued t
  /-- calls that blocked return 0 or fail, and only then nothing was moved -/
  results : ∀ e ∈ st.log, e.queue = m → e.Ok
  /-- calls that return an error at once change nothing -/
  put_error : ∀ data timeout ret, ret ≠ 0 →
    (kMsgqPut cfg st.calls.ker st.ram (st.msgq m) m data timeout).2.2.2 = some ret →
    kMsgqPut cfg st.calls.ker st.ram (st.msgq m) m data timeout
      = (st.calls.ker, st.ram, st.msgq m, some ret) ∧ (ret = -EINVAL ∨ ret = -ENOMEM)
  get_error : ∀ data timeout ret, ret ≠ 0 →
    (kMsgqGet cfg st.calls.ker st.ram (st.msgq m) m data timeout).2.2.2 = some ret →
    kMsgqGet cfg st.calls.ker st.ram (st.msgq m) m data timeout
      = (st.calls.ker, st.ram, st.msgq m, some ret) ∧ (ret = -EINVAL ∨ ret = -ENOMSG)

/-- **A BOUNDED FIFO CHANNEL**: what was delivered since the last purge is a prefix of what was
    accepted, in the order of the puts; calls that fail move nothing. -/
theorem msgq_channel (hinit : ∀ m, Initialised (init m)) (hsep : Separate init)
    (h : MsgReach cfg init st) (m : Mid) : ChannelOk cfg init st m := by
  have hf := fun m => (hinit m).fresh
  obtain ⟨w, hb, hi⟩ := h.inv hf hsep
  obtain ⟨r, u, hq⟩ := hb.queue m
  have hused : (st.msgq m).usedMsgs = u := by
    rw [hq.msgq]
    rfl
  refine ⟨?_, ?_, ?_, ?_, ?_, hq.order, ?_, fun e he _ => hb.results e he,
    fun _ _ _ => kMsgqPut_error, fun _ _ _ => kMsgqGet_error⟩
  · rw [hused]
    exact hq.le
  · rw [hq.msgq]
    exact ⟨rfl, rfl, rfl, rfl⟩
  · refine ⟨r, hq.lt, (r + u) % (init m).maxMsgs, Nat.mod_lt _ (hf m).max_pos, ?_, ?_, ?_,
      (hf m).bufEnd, ?_⟩
    · rw [hused]
    · rw [hq.msgq]
      rfl
    · rw [hq.msgq]
      rfl
    · rw [hused]
      exact hq.content
  · rw [hused]
    have hmem : ∀ t, st.calls.Waiting m t → st.waiter t ∈ (w m).map st.waiter :=
      fun t ht => mem_map_of_mem ((hi.waits m t).mpr ht)
    have hrole : ∀ t, st.calls.Waiting m t → st.role t = some (st.waiter t).role :=
      fun t ht => MsgSys.role_eq ht
    rcases hq.waiters with hw | hw | hw
    · exact Or.inl ⟨fun t ht => (hrole t ht).trans (congrArg some (hw.1 _ (hmem t ht))), hw.2⟩
    · exact Or.inr (Or.inl
        ⟨fun t ht => (hrole t ht).trans (congrArg some (hw.1 _ (hmem t ht))), hw.2⟩)
    · refine Or.inr (Or.inr fun t ht => ?_)
      have hx := hmem t ht
      rw [hw] at hx
      exact nomatch hx
  · rw [hq.content]
    exact prefix_append _ _
  · exact fun t ht => hq.held _ (mem_map_of_mem ((hi.waits m t).mpr ht))

def oneMsg : Msgq := (kMsgqInit true ⟨0, 0, 0, 0, 0, 0, 0⟩ 100 2 1).1

def refilled : MsgSys (Fin 4) Unit :=
  ([.write 10 7, .put () 10 (kForever _), .write 10 8, .put () 10 (kForever _),
    .get () 20 (kForever _), .yield] : List (MsgOp (smallConfig Unit))).foldl MsgOp.run
      (msgBoot (smallBoot Unit Empty Nat) (fun _ => 0) fun _ => oneMsg)

theorem msgq_channel_refilled :
    Initialised oneMsg ∧ Separate (fun _ : Unit => oneMsg)
      ∧ MsgReach (smallConfig Unit) (fun _ => oneMsg) refilled
      ∧ ChannelOk (smallConfig Unit) (fun _ => oneMsg) refilled ()
      ∧ refilled.delivered () = [[7, 0]]
      ∧ refilled.accepted () = [(0, [7, 0]), (1, [8, 0])] := by
  have hinit : Initialised oneMsg :=
    ⟨true, ⟨0, 0, 0, 0, 0, 0, 0⟩, 100, 2, 1, by decide, by decide, rfl⟩
  have hsep : Separate (fun _ : Unit => oneMsg) := fun m m' hne => absurd rfl hne
  have hreach : MsgReach (smallConfig Unit) (fun _ => oneMsg) refilled :=
    Reach.foldl (.start ⟨_, _, _, smallBoot_boot, rfl⟩) (by decide)
  exact ⟨hinit, hsep, hreach, msgq_channel (fun _ => hinit) hsep hreach (), by decide,
    by decide⟩

end AvrtosMsgq
