import Mathlib

/-! # A two-wire bus and its master

    The interface as the program sees it: control, data and status register. -/

namespace Twi

open BitVec

abbrev Byte := BitVec 8

inductive Reg
  | twbr | twsr | twar | twdr | twcr | twamr
  deriving DecidableEq, Repr

def TWINT : Nat := 7
def TWEA : Nat := 6
def TWSTA : Nat := 5
def TWSTO : Nat := 4
def TWEN : Nat := 2
def TWIE : Nat := 0

/-- `BIT(n)`. -/
def bit (n : Nat) : Byte := 1#8 <<< n

inductive Status
  | start | repStart
  | mtSlaAck | mtSlaNack | mtDataAck | mtDataNack
  | arbLost
  | mrSlaAck | mrSlaNack | mrDataAck | mrDataNack
  | noInfo | busError
  deriving DecidableEq, Repr

def Status.code : Status → Byte
  | .start => 0x08
  | .repStart => 0x10
  | .mtSlaAck => 0x18
  | .mtSlaNack => 0x20
  | .mtDataAck => 0x28
  | .mtDataNack => 0x30
  | .arbLost => 0x38
  | .mrSlaAck => 0x40
  | .mrSlaNack => 0x48
  | .mrDataAck => 0x50
  | .mrDataNack => 0x58
  | .noInfo => 0xF8
  | .busError => 0x00

def Status.all : List Status :=
  [.start, .repStart, .mtSlaAck, .mtSlaNack, .mtDataAck, .mtDataNack, .arbLost,
    .mrSlaAck, .mrSlaNack, .mrDataAck, .mrDataNack, .noInfo, .busError]

def Status.ofCode (c : Byte) : Option Status := Status.all.find? fun s => s.code == c

/-- `TW_STATUS_MASK`. -/
def TW_STATUS_MASK : Byte := 0xF8

theorem Status.ofCode_code (s : Status) : Status.ofCode s.code = some s := by
  cases s <;> rfl

theorem Status.code_and_mask (s : Status) : s.code &&& TW_STATUS_MASK = s.code := by
  cases s <;> rfl

inductive Phase
  | idle
  | started
  | transmitting
  | receiving
  deriving DecidableEq, Repr

/-- How a transmitted byte ends. -/
inductive Reply
  | ack
  | nack
  | lost
  deriving DecidableEq, Repr

/-- What is seen on the bus. -/
inductive BusEvent
  | start
  | sent (v : Byte)
  | lost (v : Byte)
  | received (v : Byte) (ack : Bool)
  | stop
  deriving DecidableEq, Repr

def Reply.event (r : Reply) (v : Byte) : BusEvent := if r = .lost then .lost v else .sent v

def Reply.status (acked nacked : Status) : Reply → Status
  | .ack => acked
  | .nack => nacked
  | .lost => .arbLost

structure Interface where
  twsr : Byte
  twdr : Byte
  twint : Bool
  phase : Phase
  /-- How the bytes that are transmitted from now on end. -/
  plan : List Reply
  /-- The bytes the slave supplies, and how many of them it has supplied. -/
  stream : Nat → Byte
  taken : Nat
  bus : List BusEvent

namespace Interface

/-- The status the program reads. -/
def status (p : Interface) : Option Status := Status.ofCode (p.twsr &&& TW_STATUS_MASK)

def report (p : Interface) (s : Status) : Interface :=
  { p with twsr := (p.twsr &&& ~~~TW_STATUS_MASK) ||| s.code, twint := true }

def start (p : Interface) : Interface :=
  report { p with phase := .started, bus := p.bus ++ [.start] }
    (if p.phase = .idle then .start else .repStart)

def stop (p : Interface) : Interface :=
  { p with
    phase := .idle
    twint := false
    bus := if p.phase = .idle then p.bus else p.bus ++ [.stop] }

def reply (p : Interface) : Reply := p.plan.headD .ack

def transmit (p : Interface) (next : Phase) (acked nacked : Status) : Interface :=
  report
    { p with
      plan := p.plan.tail
      phase := if p.reply = .lost then .idle else next
      bus := p.bus ++ [p.reply.event p.twdr] }
    (p.reply.status acked nacked)

def receive (p : Interface) (ack : Bool) : Interface :=
  report
    { p with
      twdr := p.stream p.taken
      taken := p.taken + 1
      bus := p.bus ++ [.received (p.stream p.taken) ack] }
    (if ack then .mrDataAck else .mrDataNack)

def proceed (p : Interface) (ack : Bool) : Interface :=
  match p.phase with
  | .idle => { p with twint := false }
  | .started =>
      if p.twdr.getLsbD 0 then p.transmit .receiving .mrSlaAck .mrSlaNack
      else p.transmit .transmitting .mtSlaAck .mtSlaNack
  | .transmitting => p.transmit .transmitting .mtDataAck .mtDataNack
  | .receiving => p.receive ack

def control (p : Interface) (v : Byte) : Interface :=
  if v.getLsbD TWEN = false then { p with phase := .idle, twint := false }
  else if v.getLsbD TWINT = false then p
  else if v.getLsbD TWSTO then (if v.getLsbD TWSTA then p.stop.start else p.stop)
  else if v.getLsbD TWSTA then p.start
  else p.proceed (v.getLsbD TWEA)

def write (p : Interface) : Reg → Byte → Interface
  | .twdr, v => { p with twdr := v }
  | .twcr, v => p.control v
  | .twsr, v => { p with twsr := (p.twsr &&& TW_STATUS_MASK) ||| (v &&& ~~~TW_STATUS_MASK) }
  | _, _ => p

variable (p : Interface)

@[simp] theorem status_report (s : Status) : (p.report s).status = some s := by
  have hmask : ((p.twsr &&& ~~~TW_STATUS_MASK) ||| s.code) &&& TW_STATUS_MASK = s.code := by
    have hlow : TW_STATUS_MASK &&& (p.twsr &&& ~~~TW_STATUS_MASK) = 0 := by
      ext i
      simp only [getElem_and, getElem_not]
      cases TW_STATUS_MASK[i] <;> simp
    rw [BitVec.and_comm, BitVec.and_or_distrib_left, hlow, BitVec.and_comm _ s.code,
      Status.code_and_mask]
    exact zero_or
  rw [status, report, hmask, Status.ofCode_code]

theorem status_transmit (next : Phase) (acked nacked : Status) :
    (p.transmit next acked nacked).status = some (p.reply.status acked nacked) :=
  status_report _ _

theorem status_receive (ack : Bool) :
    (p.receive ack).status = some (if ack then .mrDataAck else .mrDataNack) :=
  status_report _ _

theorem status_start : p.start.status = some .start ∨ p.start.status = some .repStart := by
  unfold start
  split
  · exact Or.inl (status_report _ _)
  · exact Or.inr (status_report _ _)

variable {p} {ack : Bool}

theorem proceed_write (hphase : p.phase = .started) (hdir : p.twdr.getLsbD 0 = false) :
    p.proceed ack = p.transmit .transmitting .mtSlaAck .mtSlaNack := by
  unfold proceed
  rw [hphase]
  exact if_neg (Bool.eq_false_iff.mp hdir)

theorem proceed_read (hphase : p.phase = .started) (hdir : p.twdr.getLsbD 0 = true) :
    p.proceed ack = p.transmit .receiving .mrSlaAck .mrSlaNack := by
  unfold proceed
  rw [hphase]
  exact if_pos hdir

theorem proceed_transmitting (hphase : p.phase = .transmitting) :
    p.proceed ack = p.transmit .transmitting .mtDataAck .mtDataNack := by
  unfold proceed
  rw [hphase]

theorem proceed_receiving (hphase : p.phase = .receiving) : p.proceed ack = p.receive ack := by
  unfold proceed
  rw [hphase]

end Interface

def lastAttempt (bus : List BusEvent) : List BusEvent :=
  (bus.reverse.takeWhile fun e => decide (e ≠ .start)).reverse

def BusEvent.sentByte : BusEvent → Option Byte
  | .sent v => some v
  | _ => none

def sentBytes (bus : List BusEvent) : List Byte := bus.filterMap BusEvent.sentByte

def BusEvent.acknowledged : BusEvent → Option Bool
  | .received _ ack => some ack
  | _ => none

def acknowledgements (bus : List BusEvent) : List Bool := bus.filterMap BusEvent.acknowledged

@[simp] theorem lastAttempt_start (bus : List BusEvent) : lastAttempt (bus ++ [.start]) = [] := by
  simp [lastAttempt]

theorem lastAttempt_append {bus : List BusEvent} {e : BusEvent} (he : e ≠ .start) :
    lastAttempt (bus ++ [e]) = lastAttempt bus ++ [e] := by
  simp [lastAttempt, he]

@[simp] theorem sentBytes_append (l₁ l₂ : List BusEvent) :
    sentBytes (l₁ ++ l₂) = sentBytes l₁ ++ sentBytes l₂ :=
  List.filterMap_append

@[simp] theorem acknowledgements_append (l₁ l₂ : List BusEvent) :
    acknowledgements (l₁ ++ l₂) = acknowledgements l₁ ++ acknowledgements l₂ :=
  List.filterMap_append

end Twi
