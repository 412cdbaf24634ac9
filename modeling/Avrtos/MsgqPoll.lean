import Avrtos.MsgqChannel
import Avrtos.PollRuns

/-! # A message queue with pollers

    The record of messages goes by the calls that threads are in, and not by `used_msgs`. -/

namespace AvrtosPoll

open List
open Function AvrtosDefines AvrtosDlist AvrtosKernel AvrtosMsgq Bytes Cells LinkedRing Runs Window

variable {Tid Pid : Type} [Threads Tid] [DecidableEq Pid]

structure ChanSys (Tid Pid : Type) where
  sys : PollSys Tid Unit Pid
  accepted : List (Nat × List UInt8)
  delivered : List (List UInt8)
  issued : Tid → Nat × List UInt8
  clock : Nat

/-- The message queue. -/
def ChanSys.msgq (st : ChanSys Tid Pid) : Msgq := (st.sys.objs.obj ()).msgq

def ChanSys.addr (st : ChanSys Tid Pid) (t : Tid) : Nat := swapAddr st.sys.polls.ker t

def ChanSys.credit (st : ChanSys Tid Pid) : Option Tid → ChanSys Tid Pid
  | none => st
  | some t =>
      match st.sys.polls.call t with
      | some (.wait .slot _) => { st with accepted := st.accepted ++ [st.issued t] }
      | some (.wait .message _) =>
          { st with
            delivered := st.delivered
              ++ [bytes st.sys.objs.ram (st.addr t) st.msgq.msgSize] }
      | _ => st

/-- The type of a descriptor. -/
def pollType : Role → PollType
  | .put => .msgqPut
  | .get => .msgqGet

/-- The operations of a run. -/
inductive ChanOp (Pid : Type) (cfg : Config Tid Unit) where
  | put (data : Nat) (timeout : cfg.Timeout)
  | get (data : Nat) (timeout : cfg.Timeout)
  | poll (pfd : Pid) (role : Role) (timeout : cfg.Timeout)
  | write (a : Nat) (v : UInt8)
  | schedEnter
  | yield

def ChanOp.base {cfg : Config Tid Unit} : ChanOp Pid cfg → Option (PollOp Pid cfg)
  | .put data timeout => some (.msgqPut () data timeout)
  | .get data timeout => some (.msgqGet () data timeout)
  | .poll pfd role timeout => some (.poll [⟨pfd, pollType role, ()⟩] timeout)
  | .write _ _ => none
  | .schedEnter => some .schedEnter
  | .yield => some .yield

/-- The state after an operation. -/
def ChanOp.run {cfg : Config Tid Unit} (st : ChanSys Tid Pid) :
    ChanOp Pid cfg → ChanSys Tid Pid
  | .put data timeout =>
      let msg := bytes st.sys.objs.ram data st.msgq.msgSize
      let ret := (kMsgqPut cfg st.sys.polls.ker st.sys.objs.ram st.msgq () data timeout).2.2.2
      let st' := { st with
        sys := (PollOp.msgqPut () data timeout : PollOp Pid cfg).run false st.sys
        clock := st.clock + 1 }
      if ret = none then
        { st' with
          issued := update st.issued st.sys.polls.ker.current (st.clock, msg) }
      else if ret = some 0 then
        { st' with accepted := st.accepted ++ [(st.clock, msg)] }.credit
          (zUnpendFirstThread cfg st.sys.polls.ker ()).2
      else st'
  | .get data timeout =>
      let size := st.msgq.msgSize
      let msg := bytes st.sys.objs.ram data size
      let ret := (kMsgqGet cfg st.sys.polls.ker st.sys.objs.ram st.msgq () data timeout).2.2.2
      let st' := { st with
        sys := (PollOp.msgqGet () data timeout : PollOp Pid cfg).run false st.sys
        clock := st.clock + 1 }
      if ret = none then
        { st' with
          issued := update st.issued st.sys.polls.ker.current (st.clock, msg) }
      else if ret = some 0 then
        { st' with delivered := st.delivered ++ [bytes st'.sys.objs.ram data size] }.credit
          (zUnpendFirstThread cfg st.sys.polls.ker ()).2
      else st'
  | .poll pfd role timeout =>
      { st with
        sys := (PollOp.poll [⟨pfd, pollType role, ()⟩] timeout : PollOp Pid cfg).run false
          st.sys }
  | .write a v =>
      { st with
        sys := { st.sys with
          objs := { st.sys.objs with ram := update st.sys.objs.ram a v } } }
  | .schedEnter => { st with sys := (PollOp.schedEnter : PollOp Pid cfg).run false st.sys }
  | .yield => { st with sys := (PollOp.yield : PollOp Pid cfg).run false st.sys }

def ChanSys.Untouched (st : ChanSys Tid Pid) (u : Option Tid) (a n : Nat) : Prop :=
  ∀ t r, st.sys.polls.Blocked t r () → u ≠ some t → Apart a n (st.addr t) st.msgq.msgSize

instance (st : ChanSys Tid Pid) (u : Option Tid) (a n : Nat) :
    Decidable (st.Untouched u a n) :=
  inferInstanceAs (Decidable (∀ _ _, _ → _ → _))

instance (i : Msgq) (a n : Nat) : Decidable (Outside i a n) :=
  inferInstanceAs (Decidable (Apart _ _ _ _))

def ChanOp.Memory {cfg : Config Tid Unit} (st : ChanSys Tid Pid) : ChanOp Pid cfg → Prop
  | .put data _ =>
      Outside st.msgq data st.msgq.msgSize
        ∧ (st.msgq.usedMsgs < st.msgq.maxMsgs →
          ∀ t, (zUnpendFirstThread cfg st.sys.polls.ker ()).2 = some t →
            Apart (st.addr t) st.msgq.msgSize data st.msgq.msgSize
              ∧ st.Untouched (some t) (st.addr t) st.msgq.msgSize)
  | .get data _ =>
      Outside st.msgq data st.msgq.msgSize
        ∧ (0 < st.msgq.usedMsgs → st.Untouched none data st.msgq.msgSize)
  | .write a _ => Outside st.msgq a 1 ∧ st.Untouched none a 1
  | _ => True

instance {cfg : Config Tid Unit} (st : ChanSys Tid Pid) :
    (op : ChanOp Pid cfg) → Decidable (op.Memory st)
  | .put _ _ => inferInstanceAs (Decidable (_ ∧ (_ → ∀ _, _ → _)))
  | .get _ _ => inferInstanceAs (Decidable (_ ∧ _))
  | .write _ _ => inferInstanceAs (Decidable (_ ∧ _))
  | .poll _ _ _ | .schedEnter | .yield => isTrue trivial

def ChanOp.Allowed {cfg : Config Tid Unit} (st : ChanSys Tid Pid) (op : ChanOp Pid cfg) :
    Prop :=
  (∀ b ∈ op.base, b.Allowed st.sys) ∧ op.Memory st

instance {cfg : Config Tid Unit} (st : ChanSys Tid Pid) (op : ChanOp Pid cfg) :
    Decidable (op.Allowed st) :=
  @instDecidableAnd _ _ (Option.decidableForallMem op.base) inferInstance

def ChanOp.Careful {cfg : Config Tid Unit} (st : ChanSys Tid Pid) (op : ChanOp Pid cfg) :
    Prop :=
  ∀ b ∈ op.base, b.Careful false st.sys

instance {cfg : Config Tid Unit} (st : ChanSys Tid Pid) (op : ChanOp Pid cfg) :
    Decidable (op.Careful st) := Option.decidableForallMem op.base

def ChanOp.Served {cfg : Config Tid Unit} (st : ChanSys Tid Pid) (op : ChanOp Pid cfg) :
    Prop :=
  ∀ b ∈ op.base, b.Served false st.sys

instance {cfg : Config Tid Unit} (st : ChanSys Tid Pid) (op : ChanOp Pid cfg) :
    Decidable (op.Served st) := Option.decidableForallMem op.base

structure ChanBoot (cfg : Config Tid Unit) (i : Msgq) (st : ChanSys Tid Pid) : Prop where
  boot : ∃ ring, ColdBoot cfg st.sys.polls.ker ring
  call : st.sys.polls.call = fun _ => none
  msgq : st.msgq = i
  accepted : st.accepted = []
  delivered : st.delivered = []

def ChanReach (cfg : Config Tid Unit) (i : Msgq)
    (ok : ChanSys Tid Pid → ChanOp Pid cfg → Prop) : ChanSys Tid Pid → Prop :=
  Reach (ChanBoot cfg i) (fun st (op : ChanOp Pid cfg) => op.Allowed st ∧ ok st op) ChanOp.run

variable {cfg : Config Tid Unit} {i : Msgq} {st : ChanSys Tid Pid}
variable {s s' : Shape Tid Unit Pid} {r u : Nat} {t : Tid}

def ChanSys.waiter (st : ChanSys Tid Pid) (t : Tid) : Waiter where
  role := if st.sys.polls.call t = some (.wait .slot ()) then .put else .get
  addr := st.addr t
  stamp := (st.issued t).1
  issued := (st.issued t).2

def resourceOf : Role → Resource
  | .put => .slot
  | .get => .message

omit [Threads Tid] in
theorem waiter_role {role : Role} (h : st.sys.polls.call t = some (.wait (resourceOf role) ())) :
    (st.waiter t).role = role := by
  cases role with
  | put => exact if_pos h
  | get =>
    refine if_neg fun hc => ?_
    rw [h] at hc
    exact nomatch hc

structure ChanBase (cfg : Config Tid Unit) (i : Msgq) (st : ChanSys Tid Pid)
    (s : Shape Tid Unit Pid) (r u : Nat) : Prop where
  polls : PollInv cfg st.sys.polls s
  calls : ∀ t a q, st.sys.polls.call t = some (.wait a q) → a = .message ∨ a = .slot
  msgq : st.msgq = i.at r u
  channel : Channel i st.sys.objs.ram st.accepted st.delivered st.clock
    ((direct (s.waitq ())).map st.waiter) r u

def ChanInv (cfg : Config Tid Unit) (i : Msgq) (st : ChanSys Tid Pid) : Prop :=
  ∃ s r u, ChanBase cfg i st s r u

theorem ChanBase.blocked (h : ChanBase cfg i st s r u) (ht : t ∈ direct (s.waitq ())) :
    (st.waiter t).role = .get ∧ st.sys.polls.Blocked t .message () ∧ u = 0
      ∨ (st.waiter t).role = .put ∧ st.sys.polls.Blocked t .slot () ∧ u = i.maxMsgs := by
  obtain ⟨a, ha⟩ := (h.polls.waits () t).mp (mem_direct.mp ht)
  have hroles := h.channel.roles _ (mem_map_of_mem ht)
  rcases h.calls t a () ha.2 with rfl | rfl
  · have hrole : (st.waiter t).role = .get := waiter_role ha.2
    refine Or.inl ⟨hrole, ha, (hroles.resolve_right fun hc => ?_).2⟩
    rw [hrole] at hc
    exact nomatch hc.1
  · have hrole : (st.waiter t).role = .put := waiter_role ha.2
    refine Or.inr ⟨hrole, ha, (hroles.resolve_left fun hc => ?_).2⟩
    rw [hrole] at hc
    exact nomatch hc.1

omit [Threads Tid] in
theorem waiter_congr (st : ChanSys Tid Pid) {st' : ChanSys Tid Pid} {l : List Tid}
    (hcall : ∀ t ∈ l, st'.sys.polls.call t = st.sys.polls.call t)
    (hdata : ∀ t ∈ l, (st'.sys.polls.ker.thread t).swapData = (st.sys.polls.ker.thread t).swapData)
    (hissued : ∀ t ∈ l, st'.issued t = st.issued t) :
    l.map st'.waiter = l.map st.waiter := by
  refine map_congr_left fun t ht => ?_
  have haddr : st'.addr t = st.addr t :=
    congrArg (fun d => Option.getD d 0) (hdata t ht)
  rw [ChanSys.waiter, ChanSys.waiter, hcall t ht, hissued t ht, haddr]

theorem ChanBase.frame (h : ChanBase cfg i st s r u)
    {sys' : PollSys Tid Unit Pid} {clock' : Nat} (hp : PollInv cfg sys'.polls s')
    (hmsgq : (sys'.objs.obj ()).msgq = st.msgq) (hclock : st.clock ≤ clock')
    (hsub : (direct (s'.waitq ())).Sublist (direct (s.waitq ())))
    (hcall : ∀ t a q, sys'.polls.call t = some (.wait a q) → st.sys.polls.call t = some (.wait a q))
    (hdata : ∀ t ∈ direct (s'.waitq ()), (sys'.polls.ker.thread t).swapData
      = (st.sys.polls.ker.thread t).swapData)
    (hslot : ∀ j < i.maxMsgs, slot sys'.objs.ram i.bufStart i.msgSize j
      = slot st.sys.objs.ram i.bufStart i.msgSize j)
    (hbytes : ∀ t ∈ direct (s'.waitq ()), bytes sys'.objs.ram (st.addr t) i.msgSize
      = bytes st.sys.objs.ram (st.addr t) i.msgSize) :
    ChanBase cfg i { st with sys := sys', clock := clock' } s' r u := by
  have hsame : ∀ t ∈ direct (s'.waitq ()), sys'.polls.call t = st.sys.polls.call t := by
    intro t ht
    obtain ⟨a, -, ha⟩ := (hp.waits () t).mp (mem_direct.mp ht)
    rw [ha, hcall t a () ha]
  refine ⟨hp, fun t a q ha => h.calls t a q (hcall t a q ha), hmsgq.trans h.msgq, ?_⟩
  have hw : (direct (s'.waitq ())).map
      ({ st with sys := sys', clock := clock' } : ChanSys Tid Pid).waiter
        = (direct (s'.waitq ())).map st.waiter :=
    waiter_congr st hsame hdata fun _ _ => rfl
  rw [hw]
  refine h.channel.frame hclock (hsub.map _) hslot ?_
  intro x hx
  obtain ⟨t, ht, rfl⟩ := mem_map.mp hx
  exact hbytes t ht

theorem PollSys.finish_msgq (sys : PollSys Tid Unit Pid) :
    (sys.finish.objs.obj ()).msgq = (sys.objs.obj ()).msgq := by
  simp only [PollSys.finish]
  rcases sys.polls.call sys.polls.ker.current with _ | ⟨a, q⟩ | _ | _
  · rfl
  · cases a with
    | mutex =>
      simp only
      rw [update_self]
    | unit => rfl
    | item => rfl
    | message => rfl
    | slot => rfl
    | block => rfl
  · rfl
  · rfl

theorem Pollers.call_resume {c : Pollers Tid Unit Pid} {call : PollCall Pid Unit}
    (h : c.resume.call t = some call) : c.call t = some call := by
  replace h : update c.call c.ker.current none t = some call := h
  by_cases ht : t = c.ker.current
  · rw [ht, update_self] at h
    exact nomatch h
  · rw [update_of_ne ht] at h
    exact h

theorem Pollers.call_leave {c : Pollers Tid Unit Pid} {call call' : PollCall Pid Unit}
    {k' : Kernel Tid Unit Pid Nat} (h : (c.leave call k').resume.call t = some call') :
    t = c.ker.current ∧ call' = call ∨ t ≠ c.ker.current ∧ c.call t = some call' := by
  have h1 : update c.call c.ker.current (some call) t = some call' := Pollers.call_resume h
  by_cases ht : t = c.ker.current
  · rw [ht, update_self] at h1
    exact Or.inl ⟨ht, (Option.some.inj h1).symm⟩
  · rw [update_of_ne ht] at h1
    exact Or.inr ⟨ht, h1⟩

section Quiet

variable (h : ChanBase cfg i st s r u)
include h

theorem ChanBase.fails : ChanInv cfg i { st with clock := st.clock + 1 } :=
  ⟨s, r, u, h.frame h.polls rfl (Nat.le_succ _) (List.Sublist.refl _)
    (fun _ _ _ ha => ha) (fun _ _ => rfl) (fun _ _ => rfl) (fun _ _ => rfl)⟩

theorem ChanBase.write {a : Nat} {v : UInt8} (ha : (ChanOp.write a v : ChanOp Pid cfg).Memory st) :
    ChanInv cfg i ((ChanOp.write a v : ChanOp Pid cfg).run st) := by
  have hout : Outside i a 1 := by
    have h1 := ha.1
    rw [h.msgq] at h1
    exact h1
  refine ⟨s, r, u, h.frame h.polls rfl (Nat.le_refl _) (List.Sublist.refl _)
    (fun _ _ _ ha => ha) (fun _ _ => rfl) ?_ ?_⟩
  · exact fun j hj => bytes_update_of_apart (hout.slot hj)
  · intro t ht
    obtain ⟨b, hb⟩ := (h.polls.waits () t).mp (mem_direct.mp ht)
    have h1 := ha.2 t b hb fun hc => nomatch hc
    rw [h.msgq] at h1
    exact bytes_update_of_apart h1

theorem ChanBase.schedEnter : ChanInv cfg i ((ChanOp.schedEnter : ChanOp Pid cfg).run st) := by
  obtain ⟨s', E, hp, hE⟩ := h.polls.schedEnter
  refine ⟨s', r, u, h.frame hp rfl (Nat.le_refl _) ?_ (fun _ _ _ ha => ha) ?_
    (fun _ _ => rfl) (fun _ _ => rfl)⟩
  · rw [hE.waitq]
    exact List.Sublist.filterMap _ filter_sublist
  · intro t _
    show ((zSchedEnter cfg st.sys.polls.ker).thread t).swapData = _
    rw [hE.thread]
    split_ifs <;> rfl

theorem ChanBase.yield : ChanInv cfg i ((ChanOp.yield : ChanOp Pid cfg).run st) := by
  obtain ⟨s', hp, hthread, hdirect⟩ := h.polls.yield
  refine ⟨s', r, u, h.frame hp (PollSys.finish_msgq _) (Nat.le_refl _) ?_ ?_ ?_
    (fun _ _ => rfl) (fun _ _ => rfl)⟩
  · rw [hdirect]
  · intro t a q ha
    exact Pollers.call_resume (c := { st.sys.polls with ker := zScheduler st.sys.polls.ker }) ha
  · intro t _
    show ((Pollers.resume { st.sys.polls with
      ker := zScheduler st.sys.polls.ker }).ker.thread t).swapData = _
    rw [hthread, update_apply]
    split_ifs with ht
    · rw [ht]
      rfl
    · rfl

theorem ChanBase.poll {pfd : Pid} {role : Role} {timeout : cfg.Timeout}
    (ha : (ChanOp.poll pfd role timeout : ChanOp Pid cfg).Allowed st)
    (hc : (ChanOp.poll pfd role timeout : ChanOp Pid cfg).Careful st) :
    ChanInv cfg i ((ChanOp.poll pfd role timeout : ChanOp Pid cfg).run st) := by
  obtain ⟨hidle, hnd⟩ := ha.1 _ rfl
  obtain ⟨-, hunused, hself⟩ := hc _ rfl
  obtain ⟨pfds, hpfds⟩ : ∃ pfds : List (PollItem Pid Unit),
      pfds = [⟨pfd, pollType role, ()⟩] := ⟨_, rfl⟩
  have hrun : (ChanOp.poll pfd role timeout : ChanOp Pid cfg).run st = { st with
      sys := st.sys.called (.poll pfds) (kPoll cfg st.sys.polls.ker st.sys.objs pfds timeout).1
        (kPoll cfg st.sys.polls.ker st.sys.objs pfds timeout).2 } := by
    rw [hpfds]
    rfl
  replace hnd : (pfds.map PollItem.pfd).Nodup := by
    rw [hpfds]
    exact hnd
  replace hunused : ∀ item ∈ pfds, Unused st.sys.polls item.pfd := by
    rw [hpfds]
    exact hunused
  obtain ⟨s', hp, hdirect, hthread⟩ := h.polls.poll st.sys.objs hnd hunused timeout
    (fun hn => hidle timeout (if_neg hn)) fun hn => hself timeout (if_neg hn)
  have hsub : (direct (s'.waitq ())).Sublist (direct (s.waitq ())) := by
    rw [hdirect]
  rw [hrun]
  generalize (kPoll cfg st.sys.polls.ker st.sys.objs pfds timeout).2 = ret at *
  generalize (kPoll cfg st.sys.polls.ker st.sys.objs pfds timeout).1 = k' at *
  cases ret with
  | some v =>
    refine ⟨s', r, u, h.frame hp rfl (Nat.le_refl _) hsub (fun _ _ _ ha => ha) ?_
      (fun _ _ => rfl) (fun _ _ => rfl)⟩
    intro t _
    obtain ⟨hth, -⟩ := hthread.resolve_right fun hcon => nomatch hcon.2
    exact congrArg (fun f => (f t).swapData) hth
  | none =>
    refine ⟨s', r, u, h.frame hp (PollSys.finish_msgq _) (Nat.le_refl _) hsub ?_ ?_
      (fun _ _ => rfl) (fun _ _ => rfl)⟩
    · intro t a q ha
      replace ha : (st.sys.polls.leave (.poll pfds) k').resume.call t = some (.wait a q) := ha
      exact ((Pollers.call_leave ha).resolve_left fun hcon => nomatch hcon.2).2
    · intro t ht
      have hne : t ≠ st.sys.polls.ker.current := by
        rintro rfl
        exact KInv.current_unqueued h.polls.kernel () (mem_direct.mp (hsub.subset ht))
      obtain ⟨hth, -⟩ := hthread.resolve_left fun hcon => nomatch hcon.2
      exact congrArg Thread.swapData ((congrFun hth t).trans (update_of_ne hne _ _))

end Quiet

def ChanSys.leave (st : ChanSys Tid Pid) (role : Role) (k' : Kernel Tid Unit Pid Nat)
    (data : Nat) : ChanSys Tid Pid :=
  { st with
    sys := PollSys.finish { st.sys with
      polls := st.sys.polls.leave (.wait (resourceOf role) ()) k' }
    issued := update st.issued st.sys.polls.ker.current
      (st.clock, bytes st.sys.objs.ram data st.msgq.msgSize)
    clock := st.clock + 1 }

theorem ChanSys.waiter_leave {role : Role} {k' : Kernel Tid Unit Pid Nat} {data : Nat}
    (hcall : (st.leave role k' data).sys.polls.call st.sys.polls.ker.current
      = some (.wait (resourceOf role) ()))
    (hdata : ((st.leave role k' data).sys.polls.ker.thread st.sys.polls.ker.current).swapData
      = some data) :
    (st.leave role k' data).waiter st.sys.polls.ker.current
      = ⟨role, data, st.clock, bytes st.sys.objs.ram data st.msgq.msgSize⟩ := by
  have hissued : (st.leave role k' data).issued st.sys.polls.ker.current
      = (st.clock, bytes st.sys.objs.ram data st.msgq.msgSize) := update_self ..
  have haddr : (st.leave role k' data).addr st.sys.polls.ker.current = data :=
    congrArg (fun d => Option.getD d 0) hdata
  have hrole : ((st.leave role k' data).waiter st.sys.polls.ker.current).role = role :=
    waiter_role hcall
  rw [ChanSys.waiter] at hrole ⊢
  rw [Waiter.mk.injEq, hissued]
  exact ⟨hrole, haddr, rfl, rfl⟩

theorem ChanBase.block (h : ChanBase cfg i st s r u)
    (hcur : st.sys.polls.ker.current ≠ cfg.idle) {timeout : cfg.Timeout}
    (hn : timeout ≠ kNoWait cfg) {role : Role} {data : Nat}
    (hout : Outside i data i.msgSize)
    (hrole : role = .get ∧ u = 0 ∨ role = .put ∧ u = i.maxMsgs)
    {k' : Kernel Tid Unit Pid Nat}
    (hk : k' = (zPendCurrentOn cfg (st.sys.polls.ker.modThread st.sys.polls.ker.current
      fun th => { th with swapData := some data }) (some ()) timeout).1) :
    ChanInv cfg i (st.leave role k' data) := by
  obtain ⟨-, s', hp, hthread, hdirect, -⟩ :=
    (h.polls.swap st.sys.polls.ker.current (some data)).block hcur (resourceOf role) () hn
  rw [← hk] at hp hthread
  replace hdirect : direct (s'.waitq ()) = direct (s.waitq ()) ++ [st.sys.polls.ker.current] :=
    hdirect
  replace hp : PollInv cfg (st.sys.polls.leave (.wait (resourceOf role) ()) k').resume s' := hp
  have hcurrent : ((st.sys.polls.leave (.wait (resourceOf role) ()) k').resume.ker.thread
      st.sys.polls.ker.current).swapData = some data := by
    refine congrArg Thread.swapData ((congrFun hthread _).trans (update_self ..))
      |>.trans ?_
    exact congrArg Thread.swapData
      (update_self st.sys.polls.ker.current _ st.sys.polls.ker.thread)
  have hother : ∀ t, t ≠ st.sys.polls.ker.current →
      ((st.sys.polls.leave (.wait (resourceOf role) ()) k').resume.ker.thread t).swapData
        = (st.sys.polls.ker.thread t).swapData := by
    intro t ht
    refine congrArg Thread.swapData ((congrFun hthread t).trans (update_of_ne ht ..))
      |>.trans ?_
    exact congrArg Thread.swapData (update_of_ne ht ..)
  have hold : ∀ t ∈ direct (s.waitq ()), t ≠ st.sys.polls.ker.current := by
    rintro t ht rfl
    exact KInv.current_unqueued h.polls.kernel () (mem_direct.mp ht)
  -- the calls in which the threads of the wait queue are
  have hcall : ∀ t ∈ direct (s'.waitq ()), ∃ b,
      (st.sys.polls.leave (.wait (resourceOf role) ()) k').resume.call t = some (.wait b ()) := by
    intro t ht
    obtain ⟨b, -, hb⟩ := (hp.waits () t).mp (mem_direct.mp ht)
    exact ⟨b, hb⟩
  refine ⟨s', r, u, hp, ?_, (PollSys.finish_msgq _).trans h.msgq, ?_⟩
  · intro t a q ha
    rcases Pollers.call_leave ha with ⟨-, hcall⟩ | ⟨-, hcall⟩
    · injection hcall with hcall
      rw [hcall]
      cases role with
      | put => exact Or.inr rfl
      | get => exact Or.inl rfl
    · exact h.calls t a q hcall
  · have hnew : st.sys.polls.ker.current ∈ direct (s'.waitq ()) := by
      rw [hdirect]
      exact mem_append_right _ (mem_singleton_self _)
    obtain ⟨b, hb⟩ := hcall _ hnew
    obtain ⟨-, hb'⟩ := (Pollers.call_leave hb).resolve_right fun hc => hc.1 rfl
    rw [hb'] at hb
    have hsize : st.msgq.msgSize = i.msgSize := by
      rw [h.msgq]
      rfl
    rw [hdirect, map_append, waiter_congr st, map_singleton,
      ChanSys.waiter_leave hb hcurrent, hsize]
    · exact h.channel.block hrole hout rfl rfl
    · intro t ht
      obtain ⟨b, hb⟩ := hcall t (by rw [hdirect]; exact mem_append_left _ ht)
      exact hb.trans ((Pollers.call_leave hb).resolve_left fun hc => hold t ht hc.1).2.symm
    · exact fun t ht => hother t (hold t ht)
    · exact fun t ht => update_of_ne (hold t ht) ..

def PollSys.setMsgq (sys : PollSys Tid Unit Pid) (k' : Kernel Tid Unit Pid Nat)
    (ram' : Nat → UInt8) (q' : Msgq) : PollSys Tid Unit Pid where
  polls := { sys.polls with ker := k' }
  objs := { sys.objs with
    obj := update sys.objs.obj () { sys.objs.obj () with msgq := q' }
    ram := ram' }

omit [Threads Tid] [DecidableEq Pid] in
theorem PollSys.setMsgq_self (sys : PollSys Tid Unit Pid) :
    sys.setMsgq sys.polls.ker sys.objs.ram (sys.objs.obj ()).msgq = sys := by
  rw [PollSys.setMsgq, update_eq_self]

omit [Threads Tid] [DecidableEq Pid] in
theorem PollSys.setMsgq_msgq (sys : PollSys Tid Unit Pid) (k' : Kernel Tid Unit Pid Nat)
    (ram' : Nat → UInt8) (q' : Msgq) : ((sys.setMsgq k' ram' q').objs.obj ()).msgq = q' := rfl

omit [Threads Tid] [DecidableEq Pid] in
theorem ChanSys.credit_slot (h : st.sys.polls.call t = some (.wait .slot ())) :
    st.credit (some t) = { st with accepted := st.accepted ++ [st.issued t] } := by
  simp only [ChanSys.credit, h]

omit [Threads Tid] [DecidableEq Pid] in
theorem ChanSys.credit_message {a n : Nat}
    (h : st.sys.polls.call t = some (.wait .message ())) (ha : st.addr t = a)
    (hn : st.msgq.msgSize = n) :
    st.credit (some t) = { st with delivered := st.delivered ++ [bytes st.sys.objs.ram a n] } := by
  simp only [ChanSys.credit, h, ha, hn]

section Equations

variable {data : Nat} {timeout : cfg.Timeout} {k' : Kernel Tid Unit Pid Nat}
variable {ram' : Nat → UInt8} {q' : Msgq} {ret : Int}

theorem run_put_done (hk : kMsgqPut cfg st.sys.polls.ker st.sys.objs.ram st.msgq () data timeout
      = (k', ram', q', some 0)) :
    (ChanOp.put data timeout : ChanOp Pid cfg).run st = { st with
          sys := st.sys.setMsgq k' ram' q'
          accepted := st.accepted
            ++ [(st.clock, bytes st.sys.objs.ram data st.msgq.msgSize)]
          clock := st.clock + 1 }.credit
        (zUnpendFirstThread cfg st.sys.polls.ker ()).2 := by
  have hk' := hk
  rw [ChanSys.msgq] at hk'
  simp only [ChanOp.run, PollOp.run, hk, hk', if_true]
  rfl

theorem run_put_fails (hret : ret ≠ 0)
    (hk : kMsgqPut cfg st.sys.polls.ker st.sys.objs.ram st.msgq () data timeout
      = (st.sys.polls.ker, st.sys.objs.ram, st.msgq, some ret)) :
    (ChanOp.put data timeout : ChanOp Pid cfg).run st = { st with clock := st.clock + 1 } := by
  have hsys : (PollOp.msgqPut () data timeout : PollOp Pid cfg).run false st.sys = st.sys := by
    rw [ChanSys.msgq] at hk
    refine Eq.trans ?_ st.sys.setMsgq_self
    simp only [PollOp.run, hk]
    rfl
  have hne : some ret ≠ some (0 : Int) := fun hc => hret (Option.some.inj hc)
  have hsome : some ret ≠ none := Option.some_ne_none ret
  simp only [ChanOp.run, hk, hsys, if_neg hne, if_neg hsome]

theorem run_put_waits (hk : kMsgqPut cfg st.sys.polls.ker st.sys.objs.ram st.msgq () data timeout
      = (k', st.sys.objs.ram, st.msgq, none)) :
    (ChanOp.put data timeout : ChanOp Pid cfg).run st = st.leave .put k' data := by
  have hk' := hk
  rw [ChanSys.msgq] at hk'
  simp only [ChanOp.run, PollOp.run, hk, hk', if_true, PollSys.setObj, update_eq_self]
  rfl

theorem run_get_done (hk : kMsgqGet cfg st.sys.polls.ker st.sys.objs.ram st.msgq () data timeout
      = (k', ram', q', some 0)) :
    (ChanOp.get data timeout : ChanOp Pid cfg).run st = { st with
          sys := st.sys.setMsgq k' ram' q'
          delivered := st.delivered ++ [bytes ram' data st.msgq.msgSize]
          clock := st.clock + 1 }.credit
        (zUnpendFirstThread cfg st.sys.polls.ker ()).2 := by
  have hk' := hk
  rw [ChanSys.msgq] at hk'
  simp only [ChanOp.run, PollOp.run, hk, hk', if_true]
  rfl

theorem run_get_fails (hret : ret ≠ 0)
    (hk : kMsgqGet cfg st.sys.polls.ker st.sys.objs.ram st.msgq () data timeout
      = (st.sys.polls.ker, st.sys.objs.ram, st.msgq, some ret)) :
    (ChanOp.get data timeout : ChanOp Pid cfg).run st = { st with clock := st.clock + 1 } := by
  have hsys : (PollOp.msgqGet () data timeout : PollOp Pid cfg).run false st.sys = st.sys := by
    rw [ChanSys.msgq] at hk
    refine Eq.trans ?_ st.sys.setMsgq_self
    simp only [PollOp.run, hk]
    rfl
  have hne : some ret ≠ some (0 : Int) := fun hc => hret (Option.some.inj hc)
  have hsome : some ret ≠ none := Option.some_ne_none ret
  simp only [ChanOp.run, hk, hsys, if_neg hne, if_neg hsome]

theorem run_get_waits (hk : kMsgqGet cfg st.sys.polls.ker st.sys.objs.ram st.msgq () data timeout
      = (k', st.sys.objs.ram, st.msgq, none)) :
    (ChanOp.get data timeout : ChanOp Pid cfg).run st = st.leave .get k' data := by
  have hk' := hk
  rw [ChanSys.msgq] at hk'
  simp only [ChanOp.run, PollOp.run, hk, hk', if_true, PollSys.setObj, update_eq_self]
  rfl

end Equations

theorem ChanBase.release (h : ChanBase cfg i st s r u) {k' : Kernel Tid Unit Pid Nat}
    {t : Option Tid} (hp : PollInv cfg { st.sys.polls with ker := k' } s')
    (hun : Unpends st.sys.polls () s s' k' t) {ram' : Nat → UInt8} {r' u' clock' : Nat}
    {accepted' : List (Nat × List UInt8)} {delivered' : List (List UInt8)}
    (hc : Channel i ram' accepted' delivered' clock' ((direct (s'.waitq ())).map st.waiter) r' u') :
    ChanInv cfg i { st with
      sys := st.sys.setMsgq k' ram' (i.at r' u')
      accepted := accepted'
      delivered := delivered'
      clock := clock' } := by
  have hdata : ∀ x ∈ direct (s'.waitq ()), (k'.thread x).swapData
      = (st.sys.polls.ker.thread x).swapData := by
    intro x hx
    obtain ⟨a, -, ha⟩ := (hp.waits () x).mp (mem_direct.mp hx)
    refine hun.swapData fun pfds hcon => ?_
    rw [show st.sys.polls.call x = some (.wait a ()) from ha] at hcon
    exact nomatch hcon
  refine ⟨s', r', u', hp, h.calls, st.sys.setMsgq_msgq .., ?_⟩
  rw [waiter_congr st]
  · exact hc
  · exact fun _ _ => rfl
  · exact hdata
  · exact fun _ _ => rfl

section Moves

variable {data : Nat} {timeout : cfg.Timeout}

theorem ChanBase.nobody (h : ChanBase cfg i st s r u) {k' : Kernel Tid Unit Pid Nat}
    (hserved : (firstPolled st.sys.polls.ker ()).isSome = true →
      ∀ t a, ¬ st.sys.polls.Blocked t a ())
    (hun : Unpends st.sys.polls () s s' k' none) :
    direct (s.waitq ()) = [] ∧ direct (s'.waitq ()) = [] := by
  cases hun with
  | nobody hfirst hsame _ =>
    have hnil : direct (s.waitq ()) = [] := by
      rcases hfirst with hnil | hpolled
      · rw [hnil]
        rfl
      · refine eq_nil_iff_forall_not_mem.mpr fun t ht => ?_
        obtain ⟨a, ha⟩ := (h.polls.waits () t).mp (mem_direct.mp ht)
        exact hserved hpolled t a ha
    exact ⟨hnil, (hsame ()).trans hnil⟩

theorem ChanBase.msgSize (h : ChanBase cfg i st s r u) : st.msgq.msgSize = i.msgSize := by
  rw [h.msgq]
  rfl

theorem ChanBase.outside (h : ChanBase cfg i st s r u)
    (hout : Outside st.msgq data st.msgq.msgSize) : Outside i data i.msgSize := by
  rw [h.msgq] at hout
  exact hout

theorem ChanBase.nodup (h : ChanBase cfg i st s r u) : (direct (s.waitq ())).Nodup := by
  have hsorted := h.channel.sorted
  rw [pairwise_map] at hsorted
  refine hsorted.imp ?_
  intro a b hlt hc
  rw [hc] at hlt
  exact Nat.lt_irrefl _ hlt

theorem ChanBase.untouched (h : ChanBase cfg i st s r u) {v : Option Tid} {a n : Nat}
    (hun : st.Untouched v a n) (ht : t ∈ direct (s.waitq ())) (hne : v ≠ some t) :
    Apart a n (st.waiter t).addr i.msgSize := by
  obtain ⟨b, hb⟩ := (h.polls.waits () t).mp (mem_direct.mp ht)
  rw [← h.msgSize]
  exact hun t b hb hne

theorem ChanBase.first (h : ChanBase cfg i st s r u) {k' : Kernel Tid Unit Pid Nat}
    (hun : Unpends st.sys.polls () s s' k' (some t)) :
    direct (s.waitq ()) = t :: direct (s'.waitq ()) ∧ swapAddr k' t = st.addr t := by
  have hhead : direct (s.waitq ()) = t :: direct (s'.waitq ()) := by
    cases hun with
    | thread _ head _ _ => exact head
  have hmem : t ∈ direct (s.waitq ()) := by
    rw [hhead]
    exact mem_cons_self
  obtain ⟨a, -, ha⟩ := (h.polls.waits () t).mp (mem_direct.mp hmem)
  have hdata := hun.swapData (x := t) fun pfds hcon => by
    rw [ha] at hcon
    exact nomatch hcon
  exact ⟨hhead, congrArg (fun d => Option.getD d 0) hdata⟩

theorem ChanBase.put_stored (h : ChanBase cfg i st s r u) (hi : Fresh i)
    (harg : zUser cfg.argsChecks (data ≠ 0) = true) (hu : u < i.maxMsgs)
    (ht : (zUnpendFirstThread cfg st.sys.polls.ker ()).2 = none)
    (hp : PollInv cfg { st.sys.polls with
      ker := (zUnpendFirstThread cfg st.sys.polls.ker ()).1 } s')
    (hun : Unpends st.sys.polls () s s' (zUnpendFirstThread cfg st.sys.polls.ker ()).1 none)
    (hnil : direct (s.waitq ()) = []) (hnil' : direct (s'.waitq ()) = []) :
    ChanInv cfg i ((ChanOp.put data timeout : ChanOp Pid cfg).run st) := by
  have hk : kMsgqPut cfg st.sys.polls.ker st.sys.objs.ram st.msgq () data timeout
      = ((zUnpendFirstThread cfg st.sys.polls.ker ()).1,
        memcpy st.sys.objs.ram (i.at r u).writeCursor data i.msgSize, i.at r (u + 1),
        some 0) := by
    rw [h.msgq]
    exact kMsgqPut_stored harg hi hu ht
  have hc := h.channel
  rw [hnil] at hc
  rw [run_put_done hk, ht, h.msgSize]
  refine h.release hp hun ?_
  rw [hnil']
  exact hc.store hu rfl

theorem ChanBase.put_handed (h : ChanBase cfg i st s r u)
    (harg : zUser cfg.argsChecks (data ≠ 0) = true) (hu : u < i.maxMsgs)
    (hmem : (ChanOp.put data timeout : ChanOp Pid cfg).Memory st)
    (ht : (zUnpendFirstThread cfg st.sys.polls.ker ()).2 = some t)
    (hp : PollInv cfg { st.sys.polls with
      ker := (zUnpendFirstThread cfg st.sys.polls.ker ()).1 } s')
    (hun : Unpends st.sys.polls () s s' (zUnpendFirstThread cfg st.sys.polls.ker ()).1 (some t)) :
    ChanInv cfg i ((ChanOp.put data timeout : ChanOp Pid cfg).run st) := by
  obtain ⟨hhead, haddr⟩ := h.first hun
  have htm : t ∈ direct (s.waitq ()) := by
    rw [hhead]
    exact mem_cons_self
  have hused : st.msgq.usedMsgs < st.msgq.maxMsgs := by
    rw [h.msgq]
    exact hu
  obtain ⟨-, huntouched⟩ := hmem.2 hused t ht
  rw [h.msgSize] at huntouched
  have hk : kMsgqPut cfg st.sys.polls.ker st.sys.objs.ram st.msgq () data timeout
      = ((zUnpendFirstThread cfg st.sys.polls.ker ()).1,
        memcpy st.sys.objs.ram (st.addr t) data i.msgSize, i.at r u, some 0) := by
    rw [h.msgq, ← haddr]
    exact kMsgqPut_handed harg hu ht
  have hc := h.channel
  rw [hhead, map_cons] at hc
  have hapart : ∀ y ∈ (direct (s'.waitq ())).map st.waiter,
      Apart (st.waiter t).addr i.msgSize y.addr i.msgSize := by
    intro y hy
    obtain ⟨x, hx, rfl⟩ := mem_map.mp hy
    have hxm : x ∈ direct (s.waitq ()) := by
      rw [hhead]
      exact mem_cons_of_mem t hx
    refine h.untouched huntouched hxm fun hcon => ?_
    have hnd := h.nodup
    rw [hhead] at hnd
    rw [← Option.some.inj hcon] at hx
    exact (nodup_cons.mp hnd).1 hx
  have hcall : st.sys.polls.call t = some (.wait .message ()) := by
    rcases h.blocked htm with ⟨-, hb, -⟩ | ⟨-, -, hmax⟩
    · exact hb.2
    · exact absurd hmax (Nat.ne_of_lt hu)
  rw [run_put_done hk, ht, h.msgSize, ChanSys.credit_message (a := st.addr t) (n := i.msgSize)]
  · exact h.release hp hun (hc.handed hu rfl hapart).2
  · exact hcall
  · exact haddr
  · rfl

/-- **`k_msgq_put`** keeps the invariant. -/
theorem ChanBase.put (h : ChanBase cfg i st s r u) (hi : Fresh i)
    (ha : (ChanOp.put data timeout : ChanOp Pid cfg).Allowed st)
    (hcareful : (ChanOp.put data timeout : ChanOp Pid cfg).Careful st)
    (hserved : (ChanOp.put data timeout : ChanOp Pid cfg).Served st) :
    ChanInv cfg i ((ChanOp.put data timeout : ChanOp Pid cfg).run st) := by
  obtain ⟨hallowed, hmem⟩ := ha
  have hused : st.msgq.usedMsgs < st.msgq.maxMsgs ↔ u < i.maxMsgs := by
    rw [h.msgq]
    exact Iff.rfl
  have hfails : zUser cfg.argsChecks (data ≠ 0) = false
      ∨ ¬ st.msgq.usedMsgs < st.msgq.maxMsgs ∧ timeout = kNoWait cfg →
      ChanInv cfg i ((ChanOp.put data timeout : ChanOp Pid cfg).run st) := by
    intro hc
    obtain ⟨ret, hret, hk⟩ : ∃ ret : Int, ret ≠ 0
        ∧ kMsgqPut cfg st.sys.polls.ker st.sys.objs.ram st.msgq () data timeout
          = (st.sys.polls.ker, st.sys.objs.ram, st.msgq, some ret) := kMsgqPut_fails hc
    rw [run_put_fails hret hk]
    exact h.fails
  cases harg : zUser cfg.argsChecks (data ≠ 0) with
  | false => exact hfails (Or.inl harg)
  | true =>
    by_cases hu : u < i.maxMsgs
    · have hunpends : (PollOp.msgqPut () data timeout : PollOp Pid cfg).unpends? false st.sys
          = some () := if_pos ⟨harg, hused.mpr hu⟩
      have hnobody := (hserved _ rfl).1 () hunpends
      obtain ⟨s', hp, hun, -⟩ := h.polls.unpend () ((hcareful _ rfl).1 () hunpends)
      cases ht : (zUnpendFirstThread cfg st.sys.polls.ker ()).2 with
      | none =>
        rw [ht] at hun
        obtain ⟨hnil, hnil'⟩ := h.nobody hnobody hun
        exact h.put_stored hi harg hu ht hp hun hnil hnil'
      | some t =>
        rw [ht] at hun
        exact h.put_handed harg hu hmem ht hp hun
    · have hfull : ¬ st.msgq.usedMsgs < st.msgq.maxMsgs := fun hc => hu (hused.mp hc)
      by_cases hn : timeout = kNoWait cfg
      · exact hfails (Or.inr ⟨hfull, hn⟩)
      · have hidle := (hallowed _ rfl).1 timeout (if_neg hn)
        obtain ⟨hnone, -⟩ := (h.polls.swap st.sys.polls.ker.current (some data)).block hidle
          .slot () hn
        have hk : kMsgqPut cfg st.sys.polls.ker st.sys.objs.ram st.msgq () data timeout
            = ((zPendCurrentOn cfg (st.sys.polls.ker.modThread st.sys.polls.ker.current
              fun th => { th with swapData := some data }) (some ()) timeout).1,
              st.sys.objs.ram, st.msgq, none) := by
          rw [kMsgqPut_waits harg hfull hn, ← hnone]
        rw [run_put_waits hk]
        have hmax : u = i.maxMsgs := Nat.le_antisymm h.channel.le (Nat.le_of_not_lt hu)
        exact h.block hidle hn (h.outside hmem.1) (Or.inr ⟨rfl, hmax⟩) rfl

theorem ChanBase.get_taken (h : ChanBase cfg i st s r u) (hi : Fresh i)
    (harg : zUser cfg.argsChecks (data ≠ 0) = true) (hu : 0 < u)
    (hmem : (ChanOp.get data timeout : ChanOp Pid cfg).Memory st)
    (ht : (zUnpendFirstThread cfg st.sys.polls.ker ()).2 = none)
    (hp : PollInv cfg { st.sys.polls with
      ker := (zUnpendFirstThread cfg st.sys.polls.ker ()).1 } s')
    (hun : Unpends st.sys.polls () s s' (zUnpendFirstThread cfg st.sys.polls.ker ()).1 none)
    (hnil : direct (s.waitq ()) = []) (hnil' : direct (s'.waitq ()) = []) :
    ChanInv cfg i ((ChanOp.get data timeout : ChanOp Pid cfg).run st) := by
  obtain ⟨v, rfl⟩ : ∃ v, u = v + 1 := ⟨u - 1, by omega⟩
  have hk : kMsgqGet cfg st.sys.polls.ker st.sys.objs.ram st.msgq () data timeout
      = ((zUnpendFirstThread cfg st.sys.polls.ker ()).1,
        memcpy st.sys.objs.ram data (i.at r (v + 1)).readCursor i.msgSize,
        i.at (advance i.maxMsgs r) v, some 0) := by
    rw [h.msgq]
    exact kMsgqGet_taken harg hi h.channel.lt ht
  have hout := h.outside hmem.1
  have hc := h.channel
  rw [hnil] at hc
  rw [run_get_done hk, ht, h.msgSize]
  refine h.release hp hun ?_
  rw [hnil']
  exact hc.take hi hout rfl

theorem ChanBase.get_refilled (h : ChanBase cfg i st s r u) (hi : Fresh i)
    (harg : zUser cfg.argsChecks (data ≠ 0) = true) (hu : 0 < u)
    (hmem : (ChanOp.get data timeout : ChanOp Pid cfg).Memory st)
    (ht : (zUnpendFirstThread cfg st.sys.polls.ker ()).2 = some t)
    (hp : PollInv cfg { st.sys.polls with
      ker := (zUnpendFirstThread cfg st.sys.polls.ker ()).1 } s')
    (hun : Unpends st.sys.polls () s s' (zUnpendFirstThread cfg st.sys.polls.ker ()).1 (some t)) :
    ChanInv cfg i ((ChanOp.get data timeout : ChanOp Pid cfg).run st) := by
  obtain ⟨v, rfl⟩ : ∃ v, u = v + 1 := ⟨u - 1, by omega⟩
  obtain ⟨hhead, haddr⟩ := h.first hun
  have htm : t ∈ direct (s.waitq ()) := by
    rw [hhead]
    exact mem_cons_self
  have hk : kMsgqGet cfg st.sys.polls.ker st.sys.objs.ram st.msgq () data timeout
      = ((zUnpendFirstThread cfg st.sys.polls.ker ()).1,
        memcpy (memcpy st.sys.objs.ram data (i.at r (v + 1)).readCursor i.msgSize)
          (i.at r (v + 1)).writeCursor (st.addr t) i.msgSize,
        i.at (advance i.maxMsgs r) (v + 1), some 0) := by
    rw [h.msgq, ← haddr]
    exact kMsgqGet_refilled harg hi h.channel.lt ht
  have hout := h.outside hmem.1
  have huntouched : st.Untouched none data i.msgSize := by
    rw [← h.msgSize]
    refine hmem.2 ?_
    rw [h.msgq]
    exact hu
  have hapart : ∀ y ∈ st.waiter t :: (direct (s'.waitq ())).map st.waiter,
      Apart data i.msgSize y.addr i.msgSize := by
    intro y hy
    rw [← map_cons, ← hhead] at hy
    obtain ⟨x, hx, rfl⟩ := mem_map.mp hy
    exact h.untouched huntouched hx fun hc => nomatch hc
  have hc := h.channel
  rw [hhead, map_cons] at hc
  have hcall : st.sys.polls.call t = some (.wait .slot ()) := by
    rcases h.blocked htm with ⟨-, -, hzero⟩ | ⟨-, hb, -⟩
    · exact nomatch hzero
    · exact hb.2
  rw [run_get_done hk, ht, h.msgSize, ChanSys.credit_slot]
  · exact h.release hp hun (hc.refill hi hout hapart rfl rfl).2
  · exact hcall

/-- **`k_msgq_get`** keeps the invariant. -/
theorem ChanBase.get (h : ChanBase cfg i st s r u) (hi : Fresh i)
    (ha : (ChanOp.get data timeout : ChanOp Pid cfg).Allowed st)
    (hcareful : (ChanOp.get data timeout : ChanOp Pid cfg).Careful st)
    (hserved : (ChanOp.get data timeout : ChanOp Pid cfg).Served st) :
    ChanInv cfg i ((ChanOp.get data timeout : ChanOp Pid cfg).run st) := by
  obtain ⟨hallowed, hmem⟩ := ha
  have hused : 0 < st.msgq.usedMsgs ↔ 0 < u := by
    rw [h.msgq]
    exact Iff.rfl
  have hfails : zUser cfg.argsChecks (data ≠ 0) = false
      ∨ ¬ 0 < st.msgq.usedMsgs ∧ timeout = kNoWait cfg →
      ChanInv cfg i ((ChanOp.get data timeout : ChanOp Pid cfg).run st) := by
    intro hc
    obtain ⟨ret, hret, hk⟩ : ∃ ret : Int, ret ≠ 0
        ∧ kMsgqGet cfg st.sys.polls.ker st.sys.objs.ram st.msgq () data timeout
          = (st.sys.polls.ker, st.sys.objs.ram, st.msgq, some ret) := kMsgqGet_fails hc
    rw [run_get_fails hret hk]
    exact h.fails
  cases harg : zUser cfg.argsChecks (data ≠ 0) with
  | false => exact hfails (Or.inl harg)
  | true =>
    by_cases hu : 0 < u
    · have hunpends : (PollOp.msgqGet () data timeout : PollOp Pid cfg).unpends? false st.sys
          = some () := if_pos ⟨harg, hused.mpr hu⟩
      have hnobody := (hserved _ rfl).1 () hunpends
      obtain ⟨s', hp, hun, -⟩ := h.polls.unpend () ((hcareful _ rfl).1 () hunpends)
      cases ht : (zUnpendFirstThread cfg st.sys.polls.ker ()).2 with
      | none =>
        rw [ht] at hun
        obtain ⟨hnil, hnil'⟩ := h.nobody hnobody hun
        exact h.get_taken hi harg hu hmem ht hp hun hnil hnil'
      | some t =>
        rw [ht] at hun
        exact h.get_refilled hi harg hu hmem ht hp hun
    · have hfull : ¬ 0 < st.msgq.usedMsgs := fun hc => hu (hused.mp hc)
      by_cases hn : timeout = kNoWait cfg
      · exact hfails (Or.inr ⟨hfull, hn⟩)
      · have hidle := (hallowed _ rfl).1 timeout (if_neg hn)
        obtain ⟨hnone, -⟩ := (h.polls.swap st.sys.polls.ker.current (some data)).block hidle
          .message () hn
        have hk : kMsgqGet cfg st.sys.polls.ker st.sys.objs.ram st.msgq () data timeout
            = ((zPendCurrentOn cfg (st.sys.polls.ker.modThread st.sys.polls.ker.current
              fun th => { th with swapData := some data }) (some ()) timeout).1,
              st.sys.objs.ram, st.msgq, none) := by
          rw [kMsgqGet_waits harg hfull hn, ← hnone]
        rw [run_get_waits hk]
        exact h.block hidle hn (h.outside hmem.1) (Or.inl ⟨rfl, Nat.eq_zero_of_not_pos hu⟩) rfl

end Moves

/-- **ONE OPERATION** keeps the invariant. -/
theorem ChanInv.step (h : ChanInv cfg i st) (hi : Fresh i) (op : ChanOp Pid cfg)
    (ha : op.Allowed st) (hc : op.Careful st) (hs : op.Served st) :
    ChanInv cfg i (op.run st) := by
  obtain ⟨s, r, u, h⟩ := h
  cases op with
  | put data timeout => exact h.put hi ha hc hs
  | get data timeout => exact h.get hi ha hc hs
  | poll pfd role timeout => exact h.poll ha hc
  | write a v => exact h.write ha.2
  | schedEnter => exact h.schedEnter
  | yield => exact h.yield

/-- Before the first operation nothing is stored and nobody waits. -/
theorem ChanBoot.inv (h : ChanBoot cfg i st) (hi : Fresh i) : ChanInv cfg i st := by
  obtain ⟨ring, hboot⟩ := h.boot
  obtain ⟨s, hp⟩ := pollInv_boot hboot h.call
  have hnil : direct (s.waitq ()) = [] := by
    refine eq_nil_iff_forall_not_mem.mpr fun t ht => ?_
    obtain ⟨a, -, ha⟩ := (hp.waits () t).mp (mem_direct.mp ht)
    rw [h.call] at ha
    exact nomatch ha
  refine ⟨s, 0, 0, hp, ?_, h.msgq.trans hi.start, ?_⟩
  · intro t a q ha
    rw [h.call] at ha
    exact nomatch ha
  · rw [hnil, h.accepted, h.delivered]
    exact Channel.empty hi.max_pos

theorem ChanReach.inv (h : ChanReach cfg i (fun st op => op.Careful st ∧ op.Served st) st)
    (hi : Fresh i) : ChanInv cfg i st :=
  Reach.invariant h (fun _ hb => ChanBoot.inv hb hi)
    fun _ op ih hok => ih.step hi op hok.1 hok.2.1 hok.2.2

structure RolesOk (cfg : Config Tid Unit) (st : ChanSys Tid Pid) : Prop where
  /-- a thread that a get releases is in a put, and its message is what it was when
      the thread blocked -/
  get : ∀ t, 0 < st.msgq.usedMsgs → (zUnpendFirstThread cfg st.sys.polls.ker ()).2 = some t →
    st.sys.polls.Blocked t .slot ()
      ∧ bytes st.sys.objs.ram (st.addr t) st.msgq.msgSize = (st.issued t).2
  /-- a thread that a put releases is in a get -/
  put : ∀ t, st.msgq.usedMsgs < st.msgq.maxMsgs →
    (zUnpendFirstThread cfg st.sys.polls.ker ()).2 = some t →
    st.sys.polls.Blocked t .message ()
  /-- the gets have returned the messages of the oldest puts -/
  delivered : st.delivered <+: st.accepted.map Prod.snd
  issued : st.accepted.Pairwise fun a b => a.1 < b.1

/-- **ROLES**: where a call that finds a poller first finds nobody blocked, gets release
    producers and puts release consumers. -/
theorem msgq_roles (hinit : Initialised i)
    (h : ChanReach cfg i (fun st op => op.Careful st ∧ op.Served st) st) : RolesOk cfg st := by
  obtain ⟨s, r, u, hb⟩ := h.inv hinit.fresh
  have hfirst : ∀ t, (zUnpendFirstThread cfg st.sys.polls.ker ()).2 = some t →
      t ∈ direct (s.waitq ()) := by
    intro t ht
    obtain ⟨rest, hrest⟩ := hb.polls.unpend_some ht
    rw [hrest]
    exact mem_cons_self
  refine ⟨?_, ?_, ?_, hb.channel.order⟩
  · intro t hpos ht
    have hmem := hfirst t ht
    rw [hb.msgq] at hpos
    rcases hb.blocked hmem with ⟨-, -, hzero⟩ | ⟨-, hblocked, -⟩
    · exact absurd hzero (Nat.ne_of_gt hpos)
    · refine ⟨hblocked, ?_⟩
      rw [hb.msgSize]
      exact hb.channel.held _ (mem_map_of_mem hmem)
  · intro t hlt ht
    rw [hb.msgq] at hlt
    rcases hb.blocked (hfirst t ht) with ⟨-, hblocked, -⟩ | ⟨-, -, hmax⟩
    · exact hblocked
    · exact absurd hmax (Nat.ne_of_lt hlt)
  · rw [hb.channel.content]
    exact prefix_append _ _

def chanBoot : ChanSys (Fin 4) (Fin 1) where
  sys :=
    { polls := ⟨smallBoot Unit (Fin 1) Nat, fun _ => none⟩
      objs := { (pollBoot (smallBoot Unit (Fin 1) Nat)).objs with
        obj := fun _ => { (pollBoot (smallBoot Unit (Fin 1) Nat)).objs.obj () with
          msgq := oneMsg } } }
  accepted := []
  delivered := []
  issued := fun _ => (0, [])
  clock := 0

theorem chanBoot_boot : ChanBoot (smallConfig Unit) oneMsg chanBoot :=
  ⟨⟨_, smallBoot_boot⟩, rfl, rfl, rfl, rfl⟩

def polledAndRefilled : ChanSys (Fin 4) (Fin 1) :=
  ([.poll 0 .get (kForever _), .write 10 7, .put 10 (kForever _), .write 10 8,
    .put 10 (kForever _), .get 30 (kForever _)] :
    List (ChanOp (Fin 1) (smallConfig Unit))).foldl ChanOp.run chanBoot

theorem msgq_roles_polledAndRefilled :
    RolesOk (smallConfig Unit) polledAndRefilled
      ∧ polledAndRefilled.delivered = [[7, 0]]
      ∧ polledAndRefilled.accepted = [(0, [7, 0]), (1, [8, 0])] := by
  have hinit : Initialised oneMsg :=
    ⟨true, ⟨0, 0, 0, 0, 0, 0, 0⟩, 100, 2, 1, by decide, by decide, rfl⟩
  have hreach : ChanReach (smallConfig Unit) oneMsg
      (fun st op => op.Careful st ∧ op.Served st) polledAndRefilled :=
    Reach.foldl (.start chanBoot_boot) (by decide)
  exact ⟨msgq_roles hinit hreach, by decide, by decide⟩

def consumerBehindPoller : ChanSys (Fin 4) (Fin 1) :=
  ([.poll 0 .get (kForever _), .get 20 (kForever _), .write 10 7, .put 10 (kForever _),
    .yield] : List (ChanOp (Fin 1) (smallConfig Unit))).foldl ChanOp.run chanBoot

def consumerReleased : ChanSys (Fin 4) (Fin 1) :=
  ([.get 30 (kForever _), .get 40 (kForever _)] :
    List (ChanOp (Fin 1) (smallConfig Unit))).foldl ChanOp.run consumerBehindPoller

/-- **ROLES CONFUSED**: a get takes the buffer of another get for a message. -/
theorem msgq_roles_confused :
    ChanReach (smallConfig Unit) oneMsg (fun st op => op.Careful st) consumerBehindPoller
      ∧ 0 < consumerBehindPoller.msgq.usedMsgs
      ∧ (zUnpendFirstThread (smallConfig Unit) consumerBehindPoller.sys.polls.ker ()).2
        = some 2
      ∧ consumerBehindPoller.sys.polls.Blocked 2 .message ()
      ∧ ¬ consumerBehindPoller.sys.polls.Blocked 2 .slot ()
      ∧ ChanReach (smallConfig Unit) oneMsg (fun st op => op.Careful st) consumerReleased
      ∧ consumerReleased.accepted = [(1, [7, 0])]
      ∧ consumerReleased.delivered = [[7, 0], [0, 0], [0, 0]] := by
  have hreach : ChanReach (smallConfig Unit) oneMsg (fun st op => op.Careful st)
      consumerBehindPoller := Reach.foldl (.start chanBoot_boot) (by decide)
  have hreach' : ChanReach (smallConfig Unit) oneMsg (fun st op => op.Careful st)
      consumerReleased := Reach.foldl hreach (by decide)
  exact ⟨hreach, by decide, by decide, by decide, by decide, hreach', by decide, by decide⟩

end AvrtosPoll
