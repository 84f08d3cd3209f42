import Mathlib.Algebra.Order.Ring.Nat
import Mathlib.Data.List.Basic

/-!
Calls of recv on a stream. How often a call is interrupted before it returns, and how many
bytes it then returns, is up to the network; at the end of the stream it returns 0.
-/

namespace NetworkProgramming.RecvCalls

/-- One call: how often it is interrupted, and how many bytes it brings, as far as it may. -/
structure Delivery where
  interrupts : Nat
  count : Nat

abbrev Network := Nat → Delivery

/-- What has not been received, the calls that have returned, and the interrupts to come
before the next one returns. -/
structure Socket where
  stream : List UInt8
  calls : Nat
  interrupts : Nat
  deriving DecidableEq

/-- `none` is the -1 of EINTR. -/
def recv (network : Network) (requested : Nat) : Socket → Option (List UInt8) × Socket
  | ⟨stream, calls, interrupts + 1⟩ => (none, ⟨stream, calls, interrupts⟩)
  | ⟨stream, calls, 0⟩ =>
      let count := min (max 1 (network calls).count) (min requested stream.length)
      (some (stream.take count), ⟨stream.drop count, calls + 1, (network (calls + 1)).interrupts⟩)

variable {network : Network} {requested : Nat} {s s' : Socket} {bytes : List UInt8}

theorem recv_interrupted (called : recv network requested s = (none, s')) :
    s'.stream = s.stream ∧ s'.interrupts < s.interrupts := by
  obtain ⟨stream, calls, interrupts⟩ := s
  cases interrupts with
  | zero => simp [recv] at called
  | succ interrupts =>
      obtain rfl : Socket.mk stream calls interrupts = s' := congrArg Prod.snd called
      exact ⟨rfl, Nat.lt_succ_self _⟩

theorem recv_returned (called : recv network requested s = (some bytes, s')) :
    bytes ++ s'.stream = s.stream ∧ bytes.length ≤ requested ∧
      (bytes = [] → requested = 0 ∨ s.stream = []) := by
  obtain ⟨stream, calls, interrupts⟩ := s
  cases interrupts with
  | succ interrupts => simp [recv] at called
  | zero =>
      simp only [recv, Prod.mk.injEq, Option.some.injEq] at called
      obtain ⟨rfl, rfl⟩ := called
      refine ⟨List.take_append_drop _ _, ?_, ?_⟩
      · rw [List.length_take]
        omega
      · intro none_
        rw [List.take_eq_nil_iff] at none_
        change requested = 0 ∨ stream = []
        rcases none_ with nothing | done
        · rw [← List.length_eq_zero_iff]
          omega
        · exact Or.inr done

theorem recv_zero (some_ : 0 < requested) (called : recv network requested s = (some [], s')) :
    s.stream = [] ∧ s'.stream = [] := by
  obtain ⟨whole, -, nothing⟩ := recv_returned called
  have done : s.stream = [] := (nothing rfl).resolve_left (by omega)
  rw [done, List.nil_append] at whole
  exact ⟨done, whole⟩

end NetworkProgramming.RecvCalls
