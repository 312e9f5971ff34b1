import Mathlib.Data.Int.Basic

/-!
# Error numbers

What a kernel function returns instead of a result: a negative number that `ERR_PTR` can carry, so one
of the last 4095.
-/

namespace KernelSU.Lib

/-- A negative error number. -/
structure Errno where
  val : ℤ
  range : -4095 ≤ val ∧ val < 0
  deriving DecidableEq, Repr

namespace Errno

def EPERM : Errno := ⟨-1, by decide⟩
def ENOENT : Errno := ⟨-2, by decide⟩
def ESRCH : Errno := ⟨-3, by decide⟩
def EIO : Errno := ⟨-5, by decide⟩
def ENOMEM : Errno := ⟨-12, by decide⟩
def E2BIG : Errno := ⟨-7, by decide⟩
def EFAULT : Errno := ⟨-14, by decide⟩
def EEXIST : Errno := ⟨-17, by decide⟩
def EINVAL : Errno := ⟨-22, by decide⟩
def EINTR : Errno := ⟨-4, by decide⟩
def EAGAIN : Errno := ⟨-11, by decide⟩
def ENOTTY : Errno := ⟨-25, by decide⟩
def ENOSPC : Errno := ⟨-28, by decide⟩
def EPIPE : Errno := ⟨-32, by decide⟩
def ENAMETOOLONG : Errno := ⟨-36, by decide⟩
def ENOSYS : Errno := ⟨-38, by decide⟩
def EMSGSIZE : Errno := ⟨-90, by decide⟩
def EOPNOTSUPP : Errno := ⟨-95, by decide⟩
def EALREADY : Errno := ⟨-114, by decide⟩
def ERESTARTSYS : Errno := ⟨-512, by decide⟩

end Errno

end KernelSU.Lib
