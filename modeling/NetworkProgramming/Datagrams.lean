import Mathlib.Data.Multiset.AddSub

/-!
An unreliable datagram service in one direction. Datagrams in flight may be
lost, duplicated, delayed and reordered without bound: any of them may arrive
next, and none has to.
-/

namespace NetworkProgramming.Datagrams

variable {Datagram : Type*} [DecidableEq Datagram]

inductive Fault (Datagram : Type*) where
  | lose (d : Datagram)
  | duplicate (d : Datagram)
  deriving DecidableEq

def receive (flight : Multiset Datagram) (d : Datagram) : Option (Multiset Datagram) :=
  if d ∈ flight then some (flight.erase d) else none

def disturb (flight : Multiset Datagram) : Fault Datagram → Option (Multiset Datagram)
  | .lose d => receive flight d
  | .duplicate d => if d ∈ flight then some (d ::ₘ flight) else none

theorem receive_mem {flight rest : Multiset Datagram} {d : Datagram}
    (received : receive flight d = some rest) : d ∈ flight ∧ ∀ x ∈ rest, x ∈ flight := by
  simp only [receive, Option.ite_none_right_eq_some, Option.some.injEq] at received
  obtain ⟨member, rfl⟩ := received
  exact ⟨member, fun _ => Multiset.mem_of_mem_erase⟩

theorem disturb_mem {flight rest : Multiset Datagram} {fault : Fault Datagram}
    (disturbed : disturb flight fault = some rest) : ∀ x ∈ rest, x ∈ flight := by
  cases fault with
  | lose d => exact (receive_mem disturbed).2
  | duplicate d =>
      simp only [disturb, Option.ite_none_right_eq_some, Option.some.injEq] at disturbed
      obtain ⟨member, rfl⟩ := disturbed
      intro x copy
      rcases Multiset.mem_cons.mp copy with rfl | old
      · exact member
      · exact old

end NetworkProgramming.Datagrams
