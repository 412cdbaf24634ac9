import Mathlib

/-! # `errno.h` and the argument checks of `defines.h`

    `z_user` evaluates its condition only when `CONFIG_KERNEL_ARGS_CHECKS` is set. -/

namespace AvrtosDefines

def ENOENT : Int := 2
def EIO : Int := 5
def EAGAIN : Int := 11
def ENOMEM : Int := 12
def EBUSY : Int := 16
def ENODEV : Int := 19
def EINVAL : Int := 22
def ENOMSG : Int := 35
def ENOTSUP : Int := 95
def ETIMEDOUT : Int := 110
def ECANCELED : Int := 125

/-- `z_user`, with the setting of `CONFIG_KERNEL_ARGS_CHECKS`. -/
def zUser (argsChecks cond : Bool) : Bool := if argsChecks then cond else true

/-- `(int8_t)n`. -/
def int8 (n : Nat) : Int := (BitVec.ofNat 8 n).toInt

theorem int8_of_lt {n : Nat} (h : n < 128) : int8 n = n := by
  rw [int8, BitVec.toInt_eq_toNat_of_lt, BitVec.toNat_ofNat, Nat.mod_eq_of_lt (by omega)]
  rw [BitVec.toNat_ofNat]
  omega

end AvrtosDefines
