import Avrtos.Base.Alignment
import Avrtos.Base.Runs

/-! # The bump allocator (`alloc/bump.c`)

    Sizes have 16 bits; the allocator is right exactly on runs in which no sum wraps. -/

namespace AvrtosBump

open BitVec Alignment Runs

/-- `struct bump_allocator`. -/
structure BumpAllocator where
  buf : BitVec 16
  size : BitVec 16
  next : BitVec 16
deriving DecidableEq, Repr

/-- `struct alloc_stats`. -/
structure AllocStats where
  total : BitVec 16
  used : BitVec 16
  free : BitVec 16
deriving DecidableEq, Repr

/-- `Z_ALIGN_MASK`. -/
def zAlignMask (align : BitVec 8) : BitVec 16 := align.setWidth 16 - 1

/-- `Z_ALIGN_PTR`. -/
def zAlignPtr (ptr : BitVec 16) (align : BitVec 8) : BitVec 16 :=
  (ptr + zAlignMask align) &&& ~~~ zAlignMask align

/-- `bump_init`. -/
def bumpInit (buf size : BitVec 16) : BumpAllocator := ⟨buf, size, buf⟩

/-- `bump_alloc`. -/
def bumpAlloc (a : BumpAllocator) (size : BitVec 16) (align : BitVec 8) :
    BitVec 16 × BumpAllocator :=
  let ptr := zAlignPtr a.next align
  if ptr - a.buf + size > a.size then (0, a)
  else (ptr, { a with next := ptr + size })

/-- `bump_reset`. -/
def bumpReset (a : BumpAllocator) : BumpAllocator := { a with next := a.buf }

/-- `bump_stats`. -/
def bumpStats (a : BumpAllocator) : AllocStats :=
  let used := a.next - a.buf
  ⟨a.size, used, a.size - used⟩

/-- The arguments of `bump_alloc`. -/
structure Request where
  size : BitVec 16
  align : BitVec 8
  size_pos : 0 < size.toNat
  align_pow : ∃ k, align.toNat = 2 ^ k

inductive Op
  | alloc (req : Request)
  | reset

structure Region where
  start : Nat
  len : Nat
deriving DecidableEq, Repr

structure System where
  allocator : BumpAllocator
  live : List Region
deriving DecidableEq, Repr

def System.alloc (s : System) (req : Request) : BitVec 16 × BumpAllocator :=
  bumpAlloc s.allocator req.size req.align

def step (s : System) : Op → System
  | .alloc req =>
      let r := s.alloc req
      ⟨r.2, if r.1 = 0 then s.live else ⟨r.1.toNat, req.size.toNat⟩ :: s.live⟩
  | .reset => ⟨bumpReset s.allocator, []⟩

structure Placed (buf size : BitVec 16) : Prop where
  pos : 0 < buf.toNat
  fits : buf.toNat + size.toNat ≤ 2 ^ 16

def nextAddr (a : BumpAllocator) : Nat := a.buf.toNat + (a.next - a.buf).toNat

structure Served (s : System) (req : Request) (p : BitVec 16) (a : BumpAllocator) : Prop where
  aligned : p ≠ 0 → req.align.toNat ∣ p.toNat
  inside : p ≠ 0 → s.allocator.buf.toNat ≤ p.toNat ∧
    p.toNat + req.size.toNat ≤ s.allocator.buf.toNat + s.allocator.size.toNat
  apart : p ≠ 0 → ∀ r ∈ s.live,
    p.toNat + req.size.toNat ≤ r.start ∨ r.start + r.len ≤ p.toNat
  unchanged : p = 0 → a = s.allocator
  null_iff : p = 0 ↔ ∀ first,
    IsLeast {y | nextAddr s.allocator ≤ y ∧ req.align.toNat ∣ y} first →
      s.allocator.buf.toNat + s.allocator.size.toNat < first + req.size.toNat

/-- The statistics add up. -/
structure Consistent (st : AllocStats) : Prop where
  sum : st.used.toNat + st.free.toNat = st.total.toNat
  le : st.used.toNat ≤ st.total.toNat

def Correct (s : System) : Op → Prop
  | .alloc req => Served s req (s.alloc req).1 (s.alloc req).2 ∧
      Consistent (bumpStats (step s (.alloc req)).allocator)
  | .reset => Consistent (bumpStats (step s .reset).allocator)

def firstFit (s : System) (req : Request) : Nat :=
  alignUp req.align.toNat (nextAddr s.allocator)

def reach (s : System) (req : Request) : Nat :=
  firstFit s req - s.allocator.buf.toNat + req.size.toNat

def NoWrap (s : System) : Op → Prop
  | .alloc req => reach s req < 2 ^ 16 ∨ s.allocator.size.toNat < reach s req - 2 ^ 16 ∨
      (firstFit s req = 2 ^ 16 ∧ req.size.toNat = nextAddr s.allocator)
  | .reset => True

structure Inside (a : BumpAllocator) : Prop where
  placed : Placed a.buf a.size
  used : (a.next - a.buf).toNat ≤ a.size.toNat

/-- The regions lie below `next`. -/
structure Inv (s : System) : Prop where
  inside : Inside s.allocator
  live : ∀ r ∈ s.live, s.allocator.buf.toNat ≤ r.start ∧ r.start + r.len ≤ nextAddr s.allocator

theorem ofNat_nextAddr (a : BumpAllocator) : BitVec.ofNat 16 (nextAddr a) = a.next := by
  rw [nextAddr, ofNat_add, ofNat_toNat, ofNat_toNat, setWidth_eq,
    setWidth_eq, add_comm, sub_add_cancel]

theorem zAlignPtr_next (a : BumpAllocator) {align : BitVec 8} (h : ∃ k, align.toNat = 2 ^ k) :
    zAlignPtr a.next align = BitVec.ofNat 16 (alignUp align.toNat (nextAddr a)) := by
  obtain ⟨k, hk⟩ := h
  have hmask : zAlignMask align = BitVec.ofNat 16 (2 ^ k - 1) := by
    apply eq_of_toNat_eq
    have hlt := align.isLt
    have hone : (1 : BitVec 16).toNat = 1 := rfl
    rw [zAlignMask, toNat_sub, toNat_setWidth, toNat_ofNat, hone, ← hk]
    have hpos : 0 < align.toNat := by
      rw [hk]
      exact Nat.two_pow_pos k
    omega
  rw [zAlignPtr, hmask, hk, ← add_mask_and_not_mask, ofNat_nextAddr]

theorem align_dvd {align : BitVec 8} (h : ∃ k, align.toNat = 2 ^ k) : align.toNat ∣ 2 ^ 16 := by
  obtain ⟨k, hk⟩ := h
  have hlt := align.isLt
  rw [hk] at hlt ⊢
  exact Nat.pow_dvd_pow 2 (by
    have := (Nat.pow_lt_pow_iff_right (show 1 < 2 by decide)).mp hlt
    omega)

variable {s : System} {req : Request}

theorem Request.align_pos (req : Request) : 0 < req.align.toNat := by
  obtain ⟨k, hk⟩ := req.align_pow
  rw [hk]
  exact Nat.two_pow_pos k

theorem firstFit_bounds (h : Inside s.allocator) (req : Request) :
    nextAddr s.allocator ≤ firstFit s req ∧ firstFit s req ≤ 2 ^ 16 := by
  have hused := h.used
  have hfits := h.placed.fits
  refine ⟨le_alignUp req.align_pos _, alignUp_le req.align_pos ?_ (align_dvd req.align_pow)⟩
  rw [nextAddr]
  omega

theorem toNat_offset (h : Inside s.allocator) (req : Request) :
    (zAlignPtr s.allocator.next req.align - s.allocator.buf).toNat =
      firstFit s req - s.allocator.buf.toNat := by
  obtain ⟨hge, hle⟩ := firstFit_bounds h req
  have hpos := h.placed.pos
  rw [nextAddr] at hge
  rw [zAlignPtr_next _ req.align_pow, toNat_sub, toNat_ofNat]
  change (2 ^ 16 - s.allocator.buf.toNat + firstFit s req % 2 ^ 16) % 2 ^ 16 = _
  omega

/-- The sum of the bounds test, reduced to its 16 bits. -/
theorem toNat_reach (h : Inside s.allocator) (req : Request) :
    (zAlignPtr s.allocator.next req.align - s.allocator.buf + req.size).toNat =
      reach s req % 2 ^ 16 := by
  rw [toNat_add, toNat_offset h, reach]

theorem alloc_cases (h : Inside s.allocator) (req : Request) :
    (s.allocator.size.toNat < reach s req % 2 ^ 16 ∧ s.alloc req = (0, s.allocator)) ∨
      (reach s req % 2 ^ 16 ≤ s.allocator.size.toNat ∧
        s.alloc req = (BitVec.ofNat 16 (firstFit s req), ⟨s.allocator.buf, s.allocator.size,
          BitVec.ofNat 16 (firstFit s req) + req.size⟩)) := by
  have hptr : zAlignPtr s.allocator.next req.align = BitVec.ofNat 16 (firstFit s req) :=
    zAlignPtr_next _ req.align_pow
  by_cases hgt : zAlignPtr s.allocator.next req.align - s.allocator.buf + req.size >
      s.allocator.size
  · refine Or.inl ⟨?_, ?_⟩
    · rwa [gt_iff_lt, lt_def, toNat_reach h] at hgt
    · simp only [System.alloc, bumpAlloc, if_pos hgt]
  · refine Or.inr ⟨?_, ?_⟩
    · rwa [gt_iff_lt, lt_def, toNat_reach h, Nat.not_lt] at hgt
    · simp only [System.alloc, bumpAlloc, if_neg hgt]
      rw [hptr]

theorem toNat_next_sub (h : Inside s.allocator) (req : Request) :
    (BitVec.ofNat 16 (firstFit s req) + req.size - s.allocator.buf).toNat =
      reach s req % 2 ^ 16 := by
  have hptr : zAlignPtr s.allocator.next req.align = BitVec.ofNat 16 (firstFit s req) :=
    zAlignPtr_next _ req.align_pow
  rw [← toNat_reach h, hptr]
  congr 1
  rw [sub_eq_add_neg, sub_eq_add_neg, add_assoc, add_assoc,
    add_comm req.size]

/-- **EVERY STEP STAYS INSIDE**, wrapped sums included. -/
theorem inside_step (h : Inside s.allocator) (op : Op) : Inside (step s op).allocator := by
  cases op with
  | alloc req =>
    rcases alloc_cases h req with ⟨-, heq⟩ | ⟨hle, heq⟩
    · simp only [step, heq]
      exact h
    · simp only [step, heq]
      exact ⟨h.placed, by rw [toNat_next_sub h]; exact hle⟩
  | reset =>
    refine ⟨h.placed, ?_⟩
    show (s.allocator.buf - s.allocator.buf).toNat ≤ s.allocator.size.toNat
    rw [sub_self]
    exact Nat.zero_le _

theorem Inside.consistent {a : BumpAllocator} (h : Inside a) : Consistent (bumpStats a) := by
  have hused := h.used
  have hsize := a.size.isLt
  refine ⟨?_, hused⟩
  show (a.next - a.buf).toNat + (a.size - (a.next - a.buf)).toNat = a.size.toNat
  rw [toNat_sub a.size]
  omega

theorem null_iff_of_firstFit (s : System) (req : Request) :
    (∀ first, IsLeast {y | nextAddr s.allocator ≤ y ∧ req.align.toNat ∣ y} first →
        s.allocator.buf.toNat + s.allocator.size.toNat < first + req.size.toNat) ↔
      s.allocator.buf.toNat + s.allocator.size.toNat < firstFit s req + req.size.toNat := by
  have hleast := isLeast_alignUp req.align_pos (nextAddr s.allocator)
  constructor
  · intro h
    exact h _ hleast
  · intro h first hfirst
    rwa [hfirst.unique hleast]

section Step

variable (h : Inv s) (req : Request)
include h

theorem served_null (hgt : s.allocator.size.toNat < reach s req % 2 ^ 16) :
    Served s req 0 s.allocator := by
  obtain ⟨hge, -⟩ := firstFit_bounds h.inside req
  have hbuf : s.allocator.buf.toNat ≤ nextAddr s.allocator := Nat.le_add_right _ _
  have hle := Nat.mod_le (reach s req) (2 ^ 16)
  refine ⟨absurd rfl, absurd rfl, absurd rfl, fun _ => rfl, fun _ => ?_, fun _ => rfl⟩
  rw [null_iff_of_firstFit]
  rw [reach] at hgt hle
  omega

theorem served_fits (hle : reach s req ≤ s.allocator.size.toNat) (a : BumpAllocator) :
    Served s req (BitVec.ofNat 16 (firstFit s req)) a ∧
      (BitVec.ofNat 16 (firstFit s req)).toNat = firstFit s req ∧
      BitVec.ofNat 16 (firstFit s req) ≠ 0 := by
  obtain ⟨hge, -⟩ := firstFit_bounds h.inside req
  have hpos := h.inside.placed.pos
  have hfits := h.inside.placed.fits
  have hn := req.size_pos
  have hbuf : s.allocator.buf.toNat ≤ nextAddr s.allocator := Nat.le_add_right _ _
  rw [reach] at hle
  have hp : (BitVec.ofNat 16 (firstFit s req)).toNat = firstFit s req := by
    rw [toNat_ofNat, Nat.mod_eq_of_lt (by omega)]
  have hne : BitVec.ofNat 16 (firstFit s req) ≠ 0 := by
    intro hzero
    have hzero' : (BitVec.ofNat 16 (firstFit s req)).toNat = 0 := congrArg BitVec.toNat hzero
    omega
  refine ⟨⟨fun _ => ?_, fun _ => ?_, fun _ r hr => ?_, fun hzero => absurd hzero hne,
    fun hzero => absurd hzero hne, fun hnull => ?_⟩, hp, hne⟩
  · rw [hp]
    exact dvd_alignUp _ _
  · rw [hp]
    omega
  · have hend := (h.live r hr).2
    rw [hp]
    exact Or.inr (by omega)
  · rw [null_iff_of_firstFit] at hnull
    omega

theorem served_wrap_iff (hwrap : 2 ^ 16 ≤ reach s req) :
    Served s req (BitVec.ofNat 16 (firstFit s req)) ⟨s.allocator.buf, s.allocator.size,
        BitVec.ofNat 16 (firstFit s req) + req.size⟩ ↔
      firstFit s req = 2 ^ 16 ∧ req.size.toNat = nextAddr s.allocator := by
  obtain ⟨hge, hle⟩ := firstFit_bounds h.inside req
  have hpos := h.inside.placed.pos
  have hsize := s.allocator.size.isLt
  have hn := req.size_pos
  have hn' := req.size.isLt
  have hbuf : s.allocator.buf.toNat ≤ nextAddr s.allocator := Nat.le_add_right _ _
  rw [reach] at hwrap
  have hlarge : s.allocator.buf.toNat + s.allocator.size.toNat <
      firstFit s req + req.size.toNat := by omega
  have hzero : (0 : BitVec 16) + req.size = req.size := zero_add _
  constructor
  · intro hserved
    have hnull := hserved.null_iff.mpr ((null_iff_of_firstFit s req).mpr hlarge)
    have hend : firstFit s req % 2 ^ 16 = 0 := by
      have := congrArg BitVec.toNat hnull
      rwa [toNat_ofNat] at this
    have hnext : BitVec.ofNat 16 (firstFit s req) + req.size = s.allocator.next :=
      congrArg BumpAllocator.next (hserved.unchanged hnull)
    rw [hnull, hzero, ← ofNat_nextAddr] at hnext
    have hsame : req.size.toNat = nextAddr s.allocator % 2 ^ 16 := by
      rw [hnext, toNat_ofNat]
    omega
  · rintro ⟨hend, hsame⟩
    have hnull : BitVec.ofNat 16 (firstFit s req) = 0 := by
      rw [hend]
      rfl
    refine ⟨absurd hnull, absurd hnull, absurd hnull, fun _ => ?_, fun _ => ?_, fun _ => hnull⟩
    · rw [hnull, hzero, ← setWidth_eq req.size, ← ofNat_toNat, hsame, ofNat_nextAddr]
    · exact (null_iff_of_firstFit s req).mpr hlarge

theorem served_iff : Served s req (s.alloc req).1 (s.alloc req).2 ↔ NoWrap s (.alloc req) := by
  obtain ⟨-, hfirst⟩ := firstFit_bounds h.inside req
  have hpos := h.inside.placed.pos
  have hn := req.size.isLt
  have hreach : reach s req = firstFit s req - s.allocator.buf.toNat + req.size.toNat := rfl
  rcases alloc_cases h.inside req with ⟨hgt, heq⟩ | ⟨hle, heq⟩ <;> rw [heq]
  · refine ⟨fun _ => ?_, fun _ => served_null h req hgt⟩
    by_cases hlt : reach s req < 2 ^ 16
    · exact Or.inl hlt
    · exact Or.inr (Or.inl (by omega))
  · by_cases hlt : reach s req < 2 ^ 16
    · rw [Nat.mod_eq_of_lt hlt] at hle
      exact ⟨fun _ => Or.inl hlt, fun _ => (served_fits h req hle _).1⟩
    · have hmod : reach s req % 2 ^ 16 = reach s req - 2 ^ 16 := by omega
      rw [served_wrap_iff h req (Nat.not_lt.mp hlt)]
      refine ⟨fun hback => Or.inr (Or.inr hback), ?_⟩
      rintro (hcond | hcond | hcond)
      · exact absurd hcond hlt
      · omega
      · exact hcond

end Step

/-- **THE REGIONS STAY BELOW `next`** in a step that is served. -/
theorem inv_step (h : Inv s) {op : Op} (hcorrect : Correct s op) : Inv (step s op) := by
  refine ⟨inside_step h.inside op, ?_⟩
  cases op with
  | reset => exact fun r hr => absurd hr List.not_mem_nil
  | alloc req =>
    by_cases hnull : (s.alloc req).1 = 0
    · -- nothing is returned, so nothing has changed
      simp only [step, hnull, if_true, hcorrect.1.unchanged hnull]
      exact h.live
    · obtain ⟨hfit, -⟩ := firstFit_bounds h.inside req
      rcases alloc_cases h.inside req with ⟨-, heq⟩ | ⟨hle, heq⟩
      · exact absurd (by rw [heq]) hnull
      · have hserved := hcorrect.1
        rw [heq] at hserved hnull
        have hlt : reach s req < 2 ^ 16 := by
          by_contra hwrap
          have hend := ((served_wrap_iff h req (Nat.not_lt.mp hwrap)).mp hserved).1
          exact hnull (by rw [hend]; rfl)
        rw [Nat.mod_eq_of_lt hlt] at hle
        obtain ⟨-, hp, hne⟩ := served_fits h req hle s.allocator
        have hbuf : s.allocator.buf.toNat ≤ nextAddr s.allocator := Nat.le_add_right _ _
        have hnext : nextAddr (step s (.alloc req)).allocator =
            firstFit s req + req.size.toNat := by
          simp only [step, heq, nextAddr]
          rw [toNat_next_sub h.inside, Nat.mod_eq_of_lt hlt, reach]
          omega
        rw [hnext]
        simp only [step, heq, if_neg hne, hp]
        intro r hr
        rcases List.mem_cons.mp hr with rfl | hr
        · exact ⟨le_trans hbuf hfit, le_refl _⟩
        · obtain ⟨hstart, hend⟩ := h.live r hr
          exact ⟨hstart, by omega⟩

/-- The system after `bump_init`. -/
def start (buf size : BitVec 16) : System := ⟨bumpInit buf size, []⟩

theorem inv_start {buf size : BitVec 16} (h : Placed buf size) : Inv (start buf size) := by
  refine ⟨⟨h, ?_⟩, fun r hr => absurd hr List.not_mem_nil⟩
  show (buf - buf).toNat ≤ size.toNat
  rw [sub_self]
  exact Nat.zero_le _

theorem consistent_foldl {s : System} (h : Inside s.allocator) (ops : List Op) :
    Consistent (bumpStats (ops.foldl step s).allocator) := by
  induction ops generalizing s with
  | nil => exact h.consistent
  | cons op ops ih => exact ih (inside_step h op)

/-- A step is correct exactly when its bounds test is. -/
theorem correct_iff (h : Inv s) (op : Op) : Correct s op ↔ NoWrap s op := by
  cases op with
  | alloc req =>
    exact ⟨fun hcorrect => (served_iff h req).mp hcorrect.1, fun hcond =>
      ⟨(served_iff h req).mpr hcond, (inside_step h.inside (.alloc req)).consistent⟩⟩
  | reset => exact ⟨fun _ => trivial, fun _ => (inside_step h.inside .reset).consistent⟩

/-- **THE BUMP ALLOCATOR** is correct exactly when no bounds test is deceived by a sum that
    wraps. -/
theorem bump_correct_iff (buf size : BitVec 16) (hplaced : Placed buf size) (ops : List Op) :
    (Allowed Correct step (start buf size) ops ↔ Allowed NoWrap step (start buf size) ops) ∧
      Consistent (bumpStats (ops.foldl step (start buf size)).allocator) :=
  ⟨allowed_congr (fun _ op h => correct_iff h op) (fun _ _ h hcorrect => inv_step h hcorrect)
    (inv_start hplaced), consistent_foldl (inv_start hplaced).inside ops⟩

def bytes (n : BitVec 16) (hn : 0 < n.toNat) : Op := .alloc ⟨n, 1, hn, 0, rfl⟩

/-- A buffer of 50 bytes, two requests that fit and one that does not. -/
theorem bump_correct_iff_fifty :
    Placed 100 50 ∧
      (Allowed Correct step (start 100 50)
          [bytes 10 (by decide), bytes 30 (by decide), bytes 20 (by decide)] ↔
        Allowed NoWrap step (start 100 50)
          [bytes 10 (by decide), bytes 30 (by decide), bytes 20 (by decide)]) :=
  ⟨⟨by decide, by decide⟩, (bump_correct_iff 100 50 ⟨by decide, by decide⟩ _).1⟩

/-- In the same buffer, a request for 65530 bytes passes the bounds test and
    moves `next` back into the region returned before. -/
theorem bump_wraps :
    Placed 100 50 ∧
      ([bytes 10 (by decide), bytes 65530 (by decide), bytes 4 (by decide)].foldl step
        (start 100 50)).live = [⟨104, 4⟩, ⟨110, 65530⟩, ⟨100, 10⟩] ∧
      ¬ Allowed Correct step (start 100 50) [bytes 10 (by decide), bytes 65530 (by decide)] := by
  refine ⟨⟨by decide, by decide⟩, by decide, ?_⟩
  rintro ⟨-, hcorrect, -⟩
  have hinside := hcorrect.1.inside (by decide)
  exact absurd hinside.2 (by decide)

end AvrtosBump
