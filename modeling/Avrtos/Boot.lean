import Avrtos.Base.Runs
import Avrtos.KernelSwitch

/-! # The kernel after initialisation

    What `z_init_threads` leaves: all runs start from `ColdBoot`, in which nobody has linked the
    handles. -/

namespace AvrtosKernel

open AvrtosDefines AvrtosDlist AvrtosTqueue Cells LinkedRing LinkedChain DeltaList

variable {Tid Qid Pid D : Type} [Threads Tid]
variable [DecidableEq Qid] [DecidableEq Pid]

structure ColdBoot (cfg : Config Tid Qid) (k : Kernel Tid Qid Pid D)
    (ring : List Tid) : Prop where
  ringed : Ring (next k.tie) (prev k.tie) ring
  head : ring.head? = some k.current
  runQueue : k.runQueue = k.current
  count : k.readyCount = ring.length
  idle : cfg.idle ∉ ring
  state : ∀ t, (k.thread t).state =
    if t ∈ ring then .ready else if t = cfg.idle then .idle else .stopped
  wakeup : ∀ t, (k.thread t).wakeupSched = false
  timeouts : k.timeoutsQueue = none
  links : ∀ q, SelfLinked k.wait (.queue q)
  fault : k.fault = false

structure Boot (cfg : Config Tid Qid) (k : Kernel Tid Qid Pid D) (ring : List Tid) : Prop
    extends ColdBoot cfg k ring where
  handles : ∀ n, SelfLinked k.wait n

variable {cfg : Config Tid Qid} {k : Kernel Tid Qid Pid D} {ring : List Tid}

theorem ColdBoot.not_pending (h : ColdBoot cfg k ring) (t : Tid) :
    (k.thread t).state ≠ .pending := by
  rw [h.state]
  split_ifs <;> exact fun hc => nomatch hc

theorem ColdBoot.kinv (h : ColdBoot cfg k ring) : KInv cfg k ⟨ring, [], fun _ => []⟩ := by
  obtain ⟨l, hl⟩ := List.head?_eq_some_iff.mp h.head
  refine ⟨⟨⟨fun _ => h.ringed, ?_, h.count, ⟨?_, ?_⟩, ?_, ?_, h.fault⟩, ⟨?_, ?_, ?_⟩,
    ?_, ?_, ?_, ?_, ?_, ?_, ?_⟩, Or.inr h.head⟩
  · rw [h.runQueue, hl]
    rfl
  · exact h.timeouts
  · exact fun e he => nomatch he
  · exact Nat.two_pow_pos _
  · exact fun t _ hc => nomatch hc
  · intro q
    exact Ring.singleton (h.links _).1 (h.links _).2
  · exact fun q n hn => nomatch hn
  · exact fun q q' _ n hn => nomatch hn
  · intro t
    rw [h.state]
    by_cases ht : t ∈ ring
    · simp [ht]
    · rw [if_neg ht]
      refine ⟨fun hc => absurd hc ht, fun hc => ?_⟩
      split_ifs at hc
  · intro t
    rw [h.wakeup]
    exact ⟨fun hc => (nomatch hc), fun hc => nomatch hc⟩
  · intro t hc
    rw [h.wakeup] at hc
    exact nomatch hc
  · intro t
    rw [h.state]
    by_cases ht : t ∈ ring
    · rw [if_pos ht]
      refine ⟨fun hc => (nomatch hc), ?_⟩
      rintro rfl
      exact absurd ht h.idle
    · rw [if_neg ht]
      by_cases hi : t = cfg.idle
      · simp [hi]
      · simp [hi]
  · exact fun q t ht => nomatch ht
  · intro t hc
    rw [h.wakeup] at hc
    exact nomatch hc
  · exact fun t hc => absurd hc (h.not_pending t)

theorem Boot.start {t : Tid} (h : Boot cfg k ring) (ht : (k.thread t).state = .stopped) :
    Boot cfg (kThreadStart cfg k t).1 (insertReady t ring) := by
  obtain ⟨hinv, hthread, hwait, hcur, -⟩ := h.kinv.start ht
  obtain ⟨l, hl⟩ := List.head?_eq_some_iff.mp h.head
  have hne : insertReady t ring ≠ [] := by
    rw [hl]
    exact List.cons_ne_nil _ _
  have hhead : (insertReady t ring).head? = some k.current := by
    rw [hl]
    rfl
  have hth : ∀ x, (kThreadStart cfg k t).1.thread x
      = if x = t then (k.thread t).started else k.thread x := by
    intro x
    rw [hthread, Function.update_apply]
  refine ⟨⟨hinv.sched.ringed hne, ?_, ?_, hinv.sched.count, hinv.idle_notMem, ?_, ?_, ?_,
    ?_, hinv.sched.fault⟩, ?_⟩
  · rw [hcur]
    exact hhead
  · rw [hcur, hinv.sched.runQueue]
    exact List.headD_eq_head?_getD ▸ hhead ▸ rfl
  · intro x
    rw [hth]
    by_cases hx : x = t
    · simp [hx, Thread.started]
    · rw [if_neg hx, h.state]
      simp [hx]
  · intro x
    rw [hth]
    by_cases hx : x = t
    · rw [if_pos hx]
      exact h.wakeup t
    · rw [if_neg hx]
      exact h.wakeup x
  · exact hinv.sched.timeouts.chain
  · rw [hwait]
    exact h.links
  · rw [hwait]
    exact h.handles

def bootKernel (cfg : Config Tid Qid) (main : Tid) : Kernel Tid Qid Pid D where
  thread := fun t =>
    { state := if t = main then .ready else if t = cfg.idle then .idle else .stopped
      timerExpired := false
      pendCanceled := false
      wakeupSched := false
      swapData := none }
  tie := fun t => .runqueue ⟨t, t⟩
  wait := fun n => ⟨n, n⟩
  pollfd := fun _ => ⟨false, false, main⟩
  current := main
  readyCount := 1
  runQueue := main
  timeoutsQueue := none
  fault := false

theorem bootKernel_boot {main : Tid} (hm : main ≠ cfg.idle) :
    Boot cfg (bootKernel cfg main : Kernel Tid Qid Pid D) [main] where
  ringed := Ring.singleton rfl rfl
  head := rfl
  runQueue := rfl
  count := rfl
  idle := by
    rw [List.mem_singleton]
    exact hm.symm
  state := by
    intro t
    simp [bootKernel]
  wakeup := fun _ => rfl
  timeouts := rfl
  links := fun _ => ⟨rfl, rfl⟩
  fault := rfl
  handles := fun _ => ⟨rfl, rfl⟩

instance finThreads (n : Nat) : Threads (Fin (n + 1)) where
  asRunqueue := fun item => ⟨item.next.getD 0, 0⟩
  asEvent := fun node => ⟨0, some node.next⟩

def smallConfig (Qid : Type) : Config (Fin 4) Qid where
  idle := 3
  readyBits := 8
  threads_lt := by decide
  deltaBits := 16
  sliceTicks := 1
  argsChecks := true
  joinWaitqueue := none

def smallBoot (Qid Pid D : Type) [DecidableEq Qid] : Kernel (Fin 4) Qid Pid D :=
  (kThreadStart (smallConfig Qid)
    (kThreadStart (smallConfig Qid) (bootKernel (smallConfig Qid) 0) 2).1 1).1

theorem smallBoot_linked : Boot (smallConfig Qid) (smallBoot Qid Pid D) [0, 1, 2] :=
  ((bootKernel_boot (by show (0 : Fin 4) ≠ 3; decide)).start rfl).start rfl

theorem smallBoot_boot : ColdBoot (smallConfig Qid) (smallBoot Qid Pid D) [0, 1, 2] :=
  smallBoot_linked.toColdBoot

end AvrtosKernel
