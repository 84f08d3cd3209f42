/-!
The error numbers that the modelled functions set or return (`other` stands for
whatever a system call that is not modelled may report), and the two operations
on a semaphore's value.
-/

namespace NetworkProgramming

inductive Errno where
  | eagain
  | ebadf
  | ebusy
  | eexist
  | einval
  | emsgsize
  | enoent
  | esrch
  | etimedout
  | other (code : Nat)
  deriving DecidableEq

namespace Semaphore

/-- A wait that cannot go on blocks: it has no result. -/
def wait (value : Nat) : Option Nat := if value = 0 then none else some (value - 1)
def post (value : Nat) : Nat := value + 1

theorem wait_iff (value left : Nat) : wait value = some left ↔ value ≠ 0 ∧ value - 1 = left := by
  simp [wait]

theorem wait_none (value : Nat) : wait value = none ↔ value = 0 := by
  simp [wait]

end Semaphore

end NetworkProgramming
