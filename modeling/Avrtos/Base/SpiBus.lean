import Mathlib

/-! # A master and one device on an SPI bus

    Drivers are programs of exchanges with any device; an exchange adds to the trace. -/

namespace SpiBus

open List

abbrev Byte := BitVec 8

/-- A device. -/
structure Device (σ : Type) where
  exchange : σ → Bool → Byte → Byte × σ
  select : σ → Bool → σ

/-- What is seen on the wire. -/
inductive Event
  | chipSelect (active : Bool)
  | byte (tx rx : Byte)
deriving DecidableEq, Repr

structure Bus (σ : Type) where
  device : σ
  active : Bool
  trace : List Event

/-- A program of the master. -/
abbrev Action (σ α : Type) := StateM (Bus σ) α

variable {σ α β : Type}

/-- Exchange one byte. -/
def transceive (d : Device σ) (tx : Byte) : Action σ Byte := fun b =>
  let r := d.exchange b.device b.active tx
  (r.1, { b with device := r.2, trace := .byte tx r.1 :: b.trace })

/-- Set the chip select. -/
def chipSelect (d : Device σ) (active : Bool) : Action σ Unit := fun b =>
  ((), ⟨d.select b.device active, active, .chipSelect active :: b.trace⟩)

def send (d : Device σ) : List Byte → Action σ Unit
  | [] => pure ()
  | tx :: rest => do
      let _ ← transceive d tx
      send d rest

/-- Receive `n` bytes. -/
def receive (d : Device σ) : Nat → Action σ (List Byte)
  | 0 => pure []
  | n + 1 => do
      let rx ← transceive d 0xFF
      let rest ← receive d n
      return rx :: rest

def poll (d : Device σ) : Nat → Action σ (Option Byte)
  | 0 => pure none
  | n + 1 => do
      let rx ← transceive d 0xFF
      if rx ≠ 0xFF then return some rx else poll d n

@[simp] theorem pure_apply (a : α) (b : Bus σ) : (pure a : Action σ α) b = (a, b) := rfl

@[simp] theorem bind_apply (m : Action σ α) (f : α → Action σ β) (b : Bus σ) :
    (m >>= f) b = f (m b).1 (m b).2 := rfl

@[simp] theorem ite_apply_bus (c : Prop) [Decidable c] (m m' : Action σ α) (b : Bus σ) :
    (if c then m else m') b = if c then m b else m' b := by
  split <;> rfl

theorem active_send (d : Device σ) (l : List Byte) (b : Bus σ) :
    (send d l b).2.active = b.active := by
  induction l generalizing b with
  | nil => rfl
  | cons tx rest ih => exact ih _

theorem active_receive (d : Device σ) (n : Nat) (b : Bus σ) :
    (receive d n b).2.active = b.active := by
  induction n generalizing b with
  | zero => rfl
  | succ n ih => exact ih _

theorem active_poll (d : Device σ) (n : Nat) (b : Bus σ) : (poll d n b).2.active = b.active := by
  induction n generalizing b with
  | zero => rfl
  | succ n ih =>
    simp only [poll, bind_apply, ite_apply_bus, pure_apply]
    split
    · rfl
    · exact ih _

def Event.isSent (p : Byte → Bool) : Event → Bool
  | .chipSelect _ => false
  | .byte tx _ => p tx

def Bus.sent (p : Byte → Bool) (b : Bus σ) : Nat := b.trace.countP (Event.isSent p)

/-- How many bytes were exchanged. -/
def Bus.exchanged (b : Bus σ) : Nat := b.sent fun _ => true

@[simp] theorem sent_transceive (d : Device σ) (p : Byte → Bool) (tx : Byte) (b : Bus σ) :
    (transceive d tx b).2.sent p = b.sent p + if p tx then 1 else 0 :=
  countP_cons ..

@[simp] theorem sent_chipSelect (d : Device σ) (p : Byte → Bool) (active : Bool) (b : Bus σ) :
    (chipSelect d active b).2.sent p = b.sent p :=
  countP_cons_of_neg Bool.false_ne_true

theorem sent_send (d : Device σ) (p : Byte → Bool) (l : List Byte) (b : Bus σ) :
    (send d l b).2.sent p = b.sent p + l.countP p := by
  induction l generalizing b with
  | nil => rfl
  | cons tx rest ih =>
    rw [send, bind_apply, ih, sent_transceive, countP_cons]
    omega

theorem sent_receive (d : Device σ) (p : Byte → Bool) (hp : p 0xFF = false) (n : Nat)
    (b : Bus σ) : (receive d n b).2.sent p = b.sent p := by
  induction n generalizing b with
  | zero => rfl
  | succ n ih =>
    simp only [receive, bind_apply, pure_apply]
    rw [ih, sent_transceive, hp]
    rfl

theorem sent_poll (d : Device σ) (p : Byte → Bool) (hp : p 0xFF = false) (n : Nat) (b : Bus σ) :
    (poll d n b).2.sent p = b.sent p := by
  induction n generalizing b with
  | zero => rfl
  | succ n ih =>
    simp only [poll, bind_apply, ite_apply_bus, pure_apply]
    split
    · rw [sent_transceive, hp]
      rfl
    · rw [ih, sent_transceive, hp]
      rfl

def Within (n : Nat) (m : Action σ α) : Prop := ∀ b, (m b).2.exchanged ≤ b.exchanged + n

theorem Within.pure (a : α) (n : Nat) : Within (σ := σ) n (Pure.pure a) :=
  fun _ => Nat.le_add_right _ _

theorem Within.bind {n k : Nat} {m : Action σ α} {f : α → Action σ β} (hm : Within n m)
    (hf : ∀ a, Within k (f a)) : Within (n + k) (m >>= f) := by
  intro b
  have h1 := hm b
  have h2 := hf (m b).1 (m b).2
  rw [bind_apply]
  omega

theorem Within.mono {n n' : Nat} {m : Action σ α} (h : Within n m) (hle : n ≤ n') :
    Within n' m := fun b => Nat.le_trans (h b) (Nat.add_le_add_left hle _)

theorem Within.ite {n : Nat} {c : Prop} [Decidable c] {m m' : Action σ α} (h : Within n m)
    (h' : Within n m') : Within n (if c then m else m') := by
  split
  · exact h
  · exact h'

theorem within_transceive (d : Device σ) (tx : Byte) : Within 1 (transceive d tx) :=
  fun b => Nat.le_of_eq (sent_transceive d _ tx b)

theorem within_chipSelect (d : Device σ) (active : Bool) : Within 0 (chipSelect d active) :=
  fun b => Nat.le_of_eq (sent_chipSelect d _ active b)

theorem within_send (d : Device σ) (l : List Byte) : Within l.length (send d l) := by
  intro b
  rw [Bus.exchanged, sent_send, countP_true]
  exact Nat.le_refl _

theorem within_receive (d : Device σ) (n : Nat) : Within n (receive d n) := by
  induction n with
  | zero => exact Within.pure _ _
  | succ n ih =>
    have h := (within_transceive d 0xFF).bind fun rx =>
      ih.bind fun rest => Within.pure (rx :: rest) 0
    exact h.mono (by omega)

theorem within_poll (d : Device σ) (n : Nat) : Within n (poll d n) := by
  induction n with
  | zero => exact Within.pure _ _
  | succ n ih =>
    have h := (within_transceive d 0xFF).bind fun rx =>
      Within.ite (c := rx ≠ 0xFF) (Within.pure (some rx) n) ih
    exact h.mono (by omega)

def Releases (m : Action σ α) : Prop := ∀ b, b.active = false → (m b).2.active = false

theorem Releases.pure (a : α) : Releases (σ := σ) (Pure.pure a) := fun _ h => h

theorem Releases.bind {m : Action σ α} {f : α → Action σ β} (hm : Releases m)
    (hf : ∀ a, Releases (f a)) : Releases (m >>= f) :=
  fun b h => hf _ _ (hm b h)

theorem Releases.ite {c : Prop} [Decidable c] {m m' : Action σ α} (h : Releases m)
    (h' : Releases m') : Releases (if c then m else m') := by
  split
  · exact h
  · exact h'

theorem releases_receive (d : Device σ) (n : Nat) : Releases (receive d n) :=
  fun b h => (active_receive d n b).trans h

def Ends (m : Action σ α) : Prop := ∀ b, (m b).2.active = false

theorem Ends.releases {m : Action σ α} (h : Ends m) : Releases m := fun b _ => h b

theorem Ends.bind {m : Action σ α} {f : α → Action σ β} (hf : ∀ a, Ends (f a)) :
    Ends (m >>= f) := fun _ => hf _ _

theorem ends_chipSelect (d : Device σ) : Ends (chipSelect d false) := fun _ => rfl

theorem ends_chipSelect_pure (d : Device σ) (a : α) :
    Ends (chipSelect d false >>= fun _ => Pure.pure a) := fun _ => rfl

def Device.after (d : Device σ) (s : σ) (l : List Byte) : σ :=
  l.foldl (fun s tx => (d.exchange s true tx).2) s

def Answers (d : Device σ) : σ → List Byte → σ → Prop
  | s, [], s' => s = s'
  | s, rx :: l, s' => (d.exchange s true 0xFF).1 = rx ∧ Answers d (d.exchange s true 0xFF).2 l s'

theorem device_send (d : Device σ) (l : List Byte) {b : Bus σ} (hb : b.active = true) :
    (send d l b).2.device = d.after b.device l := by
  induction l generalizing b with
  | nil => rfl
  | cons tx rest ih =>
    have hdevice : (transceive d tx b).2.device = (d.exchange b.device true tx).2 := by
      rw [← hb]
      rfl
    rw [send, bind_apply, ih (show (transceive d tx b).2.active = true from hb), hdevice]
    rfl

theorem receive_answers {d : Device σ} {l : List Byte} {b : Bus σ} {s' : σ}
    (h : Answers d b.device l s') (hb : b.active = true) :
    (receive d l.length b).1 = l ∧ (receive d l.length b).2.device = s' := by
  induction l generalizing b with
  | nil => exact ⟨rfl, h⟩
  | cons rx l ih =>
    obtain ⟨hrx, hrest⟩ := h
    rw [← hb] at hrx hrest
    obtain ⟨hbytes, hdevice⟩ := ih (b := (transceive d 0xFF b).2) hrest hb
    rw [length_cons, receive, bind_apply, bind_apply, pure_apply, hbytes, hdevice]
    exact ⟨congrArg (· :: l) hrx, rfl⟩

theorem poll_answers {d : Device σ} {rx : Byte} {k n : Nat} {b : Bus σ} {s' : σ} (hk : k < n)
    (hrx : rx ≠ 0xFF) (h : Answers d b.device (replicate k 0xFF ++ [rx]) s')
    (hb : b.active = true) :
    (poll d n b).1 = some rx ∧ (poll d n b).2.device = s' := by
  induction k generalizing n b with
  | zero =>
    obtain ⟨n, rfl⟩ : ∃ m, n = m + 1 := ⟨n - 1, by omega⟩
    obtain ⟨hfirst, hrest⟩ := h
    rw [← hb] at hfirst hrest
    have hfound : (transceive d 0xFF b).1 = rx := hfirst
    rw [poll, bind_apply, hfound, if_pos hrx]
    exact ⟨rfl, hrest⟩
  | succ k ih =>
    obtain ⟨n, rfl⟩ : ∃ m, n = m + 1 := ⟨n - 1, by omega⟩
    obtain ⟨hfirst, hrest⟩ := h
    rw [← hb] at hfirst hrest
    have hidle : (transceive d 0xFF b).1 = 0xFF := hfirst
    rw [poll, bind_apply, hidle, if_neg (not_not_intro rfl)]
    exact ih (b := (transceive d 0xFF b).2) (Nat.lt_of_succ_lt_succ hk) hrest hb

def stream (rx : Nat → Byte) : Device Nat where
  exchange := fun i _ _ => (rx i, i + 1)
  select := fun i _ => i

def pollAt (rx : Nat → Byte) : Nat → Nat → Option Byte × Nat
  | 0, p => (none, p)
  | n + 1, p => if rx p ≠ 0xFF then (some (rx p), p + 1) else pollAt rx n (p + 1)

section Stream

variable (rx : Nat → Byte)

theorem poll_stream (n : Nat) (b : Bus Nat) : (poll (stream rx) n b).1 = (pollAt rx n b.device).1 ∧
      (poll (stream rx) n b).2.device = (pollAt rx n b.device).2 := by
  induction n generalizing b with
  | zero => exact ⟨rfl, rfl⟩
  | succ n ih =>
    have hrx : (transceive (stream rx) 0xFF b).1 = rx b.device := rfl
    have hdevice : (transceive (stream rx) 0xFF b).2.device = b.device + 1 := rfl
    simp only [poll, pollAt, bind_apply, ite_apply_bus, pure_apply, hrx]
    by_cases h : rx b.device ≠ 0xFF
    · rw [if_pos h, if_pos h]
      exact ⟨rfl, hdevice⟩
    · rw [if_neg h, if_neg h, ← hdevice]
      exact ih _

theorem device_chipSelect_stream (active : Bool) (b : Bus Nat) :
    (chipSelect (stream rx) active b).2.device = b.device := rfl

theorem device_send_stream (l : List Byte) (b : Bus Nat) :
    (send (stream rx) l b).2.device = b.device + l.length := by
  induction l generalizing b with
  | nil => rfl
  | cons tx rest ih =>
    have hdevice : (transceive (stream rx) tx b).2.device = b.device + 1 := rfl
    rw [send, bind_apply, ih, hdevice, length_cons]
    omega

theorem receive_stream (n : Nat) (b : Bus Nat) :
    (receive (stream rx) n b).1 = (range n).map (fun i => rx (b.device + i)) ∧
      (receive (stream rx) n b).2.device = b.device + n := by
  induction n generalizing b with
  | zero => exact ⟨rfl, rfl⟩
  | succ n ih =>
    have hrx : (transceive (stream rx) 0xFF b).1 = rx b.device := rfl
    have hdevice : (transceive (stream rx) 0xFF b).2.device = b.device + 1 := rfl
    obtain ⟨hbytes, hpos⟩ := ih (transceive (stream rx) 0xFF b).2
    simp only [receive, bind_apply, pure_apply, hbytes, hpos, hrx, hdevice]
    refine ⟨?_, by omega⟩
    rw [range_succ_eq_map, map_cons, map_map, Nat.add_zero]
    refine congrArg (rx b.device :: ·) (map_congr_left fun i _ => ?_)
    show rx (b.device + 1 + i) = rx (b.device + (i + 1))
    rw [Nat.add_assoc, Nat.add_comm 1 i]

end Stream

end SpiBus
