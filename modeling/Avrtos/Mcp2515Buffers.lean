import Avrtos.Mcp2515
import Avrtos.Base.Runs

/-! # The transmit buffers of the MCP2515 (`devices/mcp2515.c`)

    A frame is loaded into the first buffer with no request; frames leave as they came. -/

namespace AvrtosMcp2515

open Function List AvrtosDefines Runs

structure Controller where
  tx : Fin 3 → List Byte
  req : Fin 3 → Bool
  accepted : List CanFrame
  sent : List (List Byte)

def Controller.status (c : Controller) (flags : Byte) : Byte :=
  flags &&& 0xAB ||| ((if c.req 0 then 0x04 else 0) ||| (if c.req 1 then 0x10 else 0) |||
    if c.req 2 then 0x40 else 0)

def loaded (instr : Byte) : Option (Fin 3) :=
  if instr = 0x40 then some 0 else if instr = 0x42 then some 1
  else if instr = 0x44 then some 2 else none

def Controller.execute (c : Controller) : Transaction → Controller
  | [] => c
  | instr :: bytes =>
      match loaded instr with
      | some n => { c with tx := update c.tx n (bytes ++ (c.tx n).drop bytes.length) }
      | none =>
          if instr &&& 0xF8 = 0x80 then { c with req := fun n => c.req n || instr.getLsbD n }
          else c

def Controller.send (c : Controller) (frame : CanFrame) (flags : Byte) : Controller :=
  let r := mcp2515Send (c.status flags) frame
  let c := r.2.foldl Controller.execute c
  if r.1 = 0 then { c with accepted := c.accepted ++ [frame] } else c

inductive TxOp
  | send (frame : CanFrame) (flags : Byte)
  | transmit (n : Fin 3)

def TxOp.run (c : Controller) : TxOp → Controller
  | .send frame flags => c.send frame flags
  | .transmit n => { c with req := update c.req n false, sent := c.sent ++ [c.tx n] }

def TxOp.Careful (c : Controller) : TxOp → Prop
  | .send frame _ => Valid frame ∧ c.req 0 = false
  | .transmit n => c.req n = true

def Controller.Initial (c : Controller) : Prop :=
  c.req = (fun _ => false) ∧ c.accepted = [] ∧ c.sent = []

def Controller.pending (c : Controller) : List (List Byte) :=
  ((List.finRange 3).filter c.req).map c.tx

def Carries (frame : CanFrame) (regs : List Byte) : Prop :=
  ∀ old, SameFrame frame (readRxBuf (fun i => regs.getD i 0) old)

variable {c : Controller} {frame : CanFrame}

theorem status_requests (c : Controller) (flags : Byte) : c.status flags &&& 0x54 =
    (if c.req 0 then 0x04 else 0) ||| (if c.req 1 then 0x10 else 0) |||
      if c.req 2 then 0x40 else 0 := by
  rw [Controller.status, BitVec.and_or_distrib_right, BitVec.and_assoc,
    show (0xAB &&& 0x54 : Byte) = 0#8 from rfl, BitVec.and_zero, BitVec.zero_or]
  cases c.req 0 <;> cases c.req 1 <;> cases c.req 2 <;> rfl

theorem carries_load (hvalid : Valid frame) (rest : List Byte) :
    Carries frame (txBytes frame ++ rest) := by
  intro old
  refine sameFrame_readRxBuf hvalid ?_ old
  intro i hi
  rw [getD_append _ _ _ _ hi, getD_eq_getElem _ _ hi, List.getElem?_eq_getElem hi]

theorem send_first (h0 : c.req 0 = false) (frame : CanFrame) (flags : Byte) :
    c.send frame flags = { c with
      tx := update c.tx 0 (txBytes frame ++ (c.tx 0).drop (txBytes frame).length)
      req := update c.req 0 true
      accepted := c.accepted ++ [frame] } := by
  have hfree : freeTxBuffer (c.status flags &&& 0x54) = some ⟨0x04, 0x40, 0x81⟩ := by
    rw [status_requests, h0]
    cases c.req 1 <;> cases c.req 2 <;> rfl
  have hreq : (fun n : Fin 3 => c.req n || (0x81 : Byte).getLsbD n) =
      update c.req 0 true := by
    funext n
    fin_cases n
    · exact Bool.or_true _
    · exact Bool.or_false _
    · exact Bool.or_false _
  rw [Controller.send, mcp2515Send, hfree, ← hreq]
  rfl

def Delivers (c : Controller) : Prop :=
  (∀ n, n ≠ 0 → c.req n = false) ∧ List.Forall₂ Carries c.accepted (c.sent ++ c.pending)

theorem pending_eq (h : ∀ n, n ≠ 0 → c.req n = false) :
    c.pending = if c.req 0 then [c.tx 0] else [] := by
  have h1 : c.req 1 = false := h 1 (by decide)
  have h2 : c.req 2 = false := h 2 (by decide)
  cases h0 : c.req 0 <;> simp [Controller.pending, finRange_succ, h0, h1, h2]

/-- **ONE OPERATION** of a careful run. -/
theorem Delivers.run (h : Delivers c) (op : TxOp) (hc : op.Careful c) : Delivers (op.run c) := by
  obtain ⟨hreq, hall⟩ := h
  rw [pending_eq hreq] at hall
  have hreq' : ∀ b n, n ≠ 0 → update c.req 0 b n = false := by
    intro b n hn
    rw [update_of_ne hn]
    exact hreq n hn
  cases op with
  | send frame flags =>
    obtain ⟨hvalid, h0⟩ := hc
    rw [h0, if_neg Bool.false_ne_true, append_nil] at hall
    rw [TxOp.run, send_first h0]
    refine ⟨hreq' true, ?_⟩
    rw [pending_eq (hreq' true)]
    simp only [update_self, if_true]
    exact rel_append hall (.cons (carries_load hvalid _) .nil)
  | transmit n =>
    have hn : n = 0 := by
      by_contra hne
      exact Bool.false_ne_true ((hreq n hne).symm.trans hc)
    subst hn
    have h0 : c.req 0 = true := hc
    rw [h0, if_pos rfl] at hall
    refine ⟨hreq' false, ?_⟩
    rw [TxOp.run, pending_eq (hreq' false)]
    simpa only [update_self, Bool.false_eq_true, if_false, append_nil] using hall

/-- **EVERY FRAME ONCE, IN ORDER**, where frames are sent when no request of the first buffer is
    pending. -/
theorem frames_delivered (h : Reach Controller.Initial TxOp.Careful TxOp.run c) :
    List.Forall₂ Carries c.accepted (c.sent ++ c.pending) := by
  refine (h.invariant (P := Delivers) ?_ fun _ op ih hc => ih.run op hc).2
  rintro c ⟨hreq, haccepted, hsent⟩
  have hnone : ∀ n, n ≠ 0 → c.req n = false := fun n _ => by rw [hreq]
  refine ⟨hnone, ?_⟩
  rw [pending_eq hnone, haccepted, hsent, hreq]
  exact .nil

def idleController : Controller := ⟨fun _ => [], fun _ => false, [], []⟩

def emptyFrame : CanFrame := ⟨#v[0, 0, 0, 0, 0, 0, 0, 0], 0, 0x123, false, false⟩

def twoFrames : Controller :=
  [TxOp.send remoteFrame 0, .transmit 0, .send emptyFrame 0].foldl TxOp.run idleController

theorem frames_delivered_two :
    Reach Controller.Initial TxOp.Careful TxOp.run twoFrames ∧
      twoFrames.sent.length = 1 ∧ twoFrames.pending.length = 1 ∧
      List.Forall₂ Carries [remoteFrame, emptyFrame] (twoFrames.sent ++ twoFrames.pending) := by
  have hremote : Valid remoteFrame := ⟨by decide, by decide⟩
  have hempty : Valid emptyFrame := ⟨by decide, by decide⟩
  have hstart : Reach Controller.Initial TxOp.Careful TxOp.run idleController :=
    .start ⟨rfl, rfl, rfl⟩
  have hsent := hstart.step (TxOp.send remoteFrame 0) ⟨hremote, rfl⟩
  have hrequested : (idleController.send remoteFrame 0).req 0 = true := by decide
  have hfree := hsent.step (TxOp.transmit 0) hrequested
  have hreach := hfree.step (TxOp.send emptyFrame 0) ⟨hempty, by decide⟩
  exact ⟨hreach, by decide, by decide, frames_delivered hreach⟩

/-- **A FRAME IS LOST**: while the first buffer is pending, a call that succeeds requests a
    buffer it has not loaded. -/
theorem send_not_loaded (frame : CanFrame) (flags : Byte) (h0 : c.req 0 = true)
    (hret : (mcp2515Send (c.status flags) frame).1 = 0) :
    ∃ n, c.req n = false ∧ (c.send frame flags).req n = true ∧
      (c.send frame flags).tx n = c.tx n ∧
      (n = 1 → (c.send frame flags).tx 0 =
        txBytes frame ++ (c.tx 0).drop (txBytes frame).length) ∧
      (n = 2 → (c.send frame flags).tx = c.tx) := by
  have hstatus := status_requests c flags
  rw [h0] at hstatus
  cases h1 : c.req 1 with
  | false =>
    have hfree : freeTxBuffer (c.status flags &&& 0x54) = some ⟨0x08, 0x40, 0x82⟩ := by
      rw [hstatus, h1]
      cases c.req 2 <;> rfl
    refine ⟨1, h1, ?_⟩
    rw [Controller.send, mcp2515Send, hfree]
    exact ⟨Bool.or_true _, rfl, fun _ => rfl, fun hn => absurd hn (by decide)⟩
  | true =>
    cases h2 : c.req 2 with
    | false =>
      have hfree : freeTxBuffer (c.status flags &&& 0x54) = some ⟨0x10, 0x60, 0x84⟩ := by
        rw [hstatus, h1, h2]
        rfl
      refine ⟨2, h2, ?_⟩
      rw [Controller.send, mcp2515Send, hfree]
      exact ⟨Bool.or_true _, rfl, fun hn => absurd hn (by decide), fun _ => rfl⟩
    | true =>
      have hfree : freeTxBuffer (c.status flags &&& 0x54) = none := by
        rw [hstatus, h1, h2]
        rfl
      rw [mcp2515Send, hfree] at hret
      have hbusy : -EBUSY = 0 := hret
      exact absurd hbusy (by decide)

/-- Three frames in a row; the third one is loaded nowhere. -/
theorem send_not_loaded_remote :
    let c := (idleController.send remoteFrame 0).send emptyFrame 0
    c.req 0 = true ∧ ∃ n, c.req n = false ∧ (c.send remoteFrame 0).req n = true ∧
      (c.send remoteFrame 0).tx n = c.tx n := by
  intro c
  have h0 : c.req 0 = true := by decide
  obtain ⟨n, hfree, hreq, htx, -⟩ := send_not_loaded (c := c) remoteFrame 0 h0 (by decide)
  exact ⟨h0, n, hfree, hreq, htx⟩

end AvrtosMcp2515
