import Mathlib.Order.Basic
import Mathlib.Tactic.Common

/-!
Two ends that hold a bit each and tell each other every change of it. An end that is told
another bit takes it and tells the other end so; told its own, it does nothing. The
messages under way are lists in order of sending.
-/

namespace NetworkProgramming.EchoedBit

structure Ends where
  here : Bool
  there : Bool
  toHere : List Bool
  toThere : List Bool
  deriving DecidableEq

namespace Ends

def swap (s : Ends) : Ends := ⟨s.there, s.here, s.toThere, s.toHere⟩

def receive (s : Ends) : Option Ends :=
  match s.toThere with
  | [] => none
  | bit :: rest =>
      if bit = s.there then some { s with toThere := rest }
      else some { s with there := bit, toHere := s.toHere ++ [bit], toThere := rest }

end Ends

def changes : Bool → List Bool → Nat
  | _, [] => 0
  | held, bit :: rest => (if bit = held then 0 else 1) + changes bit rest

def final : Bool → List Bool → Bool
  | held, [] => held
  | _, bit :: rest => final bit rest

theorem final_snoc (held bit : Bool) (bits : List Bool) : final held (bits ++ [bit]) = bit := by
  induction bits generalizing held with
  | nil => rfl
  | cons first rest ih => exact ih first

theorem changes_snoc (held bit : Bool) (bits : List Bool) :
    changes held (bits ++ [bit]) = changes held bits + if bit = final held bits then 0 else 1 := by
  induction bits generalizing held with
  | nil => exact Nat.add_comm _ _
  | cons first rest ih =>
      rw [List.cons_append, changes, ih, changes, final, Nat.add_assoc]

namespace Ends

def pending (s : Ends) : Nat := changes s.here s.toHere + changes s.there s.toThere

/-- Whether what is under way to here leads it away from what there holds. -/
def astrayHere (s : Ends) : Nat := if final s.here s.toHere = s.there then 0 else 1

def astray (s : Ends) : Nat := s.astrayHere + s.swap.astrayHere

theorem pending_swap (s : Ends) : s.swap.pending = s.pending := Nat.add_comm _ _

theorem astray_swap (s : Ends) : s.swap.astray = s.astray := Nat.add_comm _ _

theorem receive_counts (s after : Ends) (received : s.receive = some after) :
    after.swap.astrayHere = s.swap.astrayHere ∧
    ((after.there = s.there ∧ after.astrayHere = s.astrayHere ∧
        changes after.here after.toHere = changes s.here s.toHere ∧
        changes after.there after.toThere = changes s.there s.toThere) ∨
      (after.there ≠ s.there ∧ after.astrayHere = 0 ∧
        changes after.here after.toHere + s.astrayHere = changes s.here s.toHere + 1 ∧
        changes after.there after.toThere + 1 = changes s.there s.toThere)) := by
  obtain ⟨here, there, toHere, toThere⟩ := s
  cases toThere with
  | nil => simp [receive] at received
  | cons bit rest =>
      by_cases same : bit = there
      · simp only [receive, if_pos same, Option.some.injEq] at received
        subst received
        subst same
        exact ⟨rfl, Or.inl ⟨rfl, rfl, rfl, by simp [changes]⟩⟩
      · simp only [receive, if_neg same, Option.some.injEq] at received
        subst received
        refine ⟨rfl, Or.inr ⟨same, ?_, ?_, ?_⟩⟩
        · exact if_pos (final_snoc here bit toHere)
        · -- of two bits, what is not the one that there held is the new one
          have other : bit = final here toHere ↔ ¬ final here toHere = there := by
            cases bit <;> cases there <;> cases final here toHere <;> simp_all
          simp only [changes_snoc, astrayHere, other, ite_not]
          split <;> rfl
        · simp only [changes, if_neg same]
          exact Nat.add_comm _ _

/-- The pending changes beyond those that will be swallowed are kept for ever. -/
theorem receive_balance (s after : Ends) (received : s.receive = some after) :
    after.pending + s.astray = s.pending + after.astray := by
  obtain ⟨others, counts⟩ := receive_counts s after received
  simp only [pending, astray, others]
  rcases counts with ⟨-, away, here, there⟩ | ⟨-, away, here, there⟩ <;> omega

def potential (s : Ends) : Nat :=
  2 * s.pending + s.astrayHere * changes s.here s.toHere +
    s.swap.astrayHere * changes s.there s.toThere

theorem potential_swap (s : Ends) : s.swap.potential = s.potential := by
  have pending := s.pending_swap
  rw [potential, pending, potential]
  exact Nat.add_right_comm _ _ _

theorem astray_here_le (s : Ends) : s.astrayHere ≤ 1 := by
  rw [astrayHere]
  split <;> decide

theorem receive_potential (s after : Ends) (received : s.receive = some after)
    (swallowed : s.pending ≤ s.astray) :
    after.potential + (if after.there = s.there then 0 else 1) ≤ s.potential := by
  obtain ⟨others, counts⟩ := receive_counts s after received
  have first := s.astray_here_le
  have second := s.swap.astray_here_le
  rw [pending, astray] at swallowed
  rcases counts with ⟨same, away, here, there⟩ | ⟨flipped, away, here, there⟩
  · rw [if_pos same, potential, pending, others, away, here, there]
    exact Nat.le_refl _
  · rw [if_neg flipped, potential, potential, pending, pending, others, away]
    generalize s.astrayHere = p at *
    generalize s.swap.astrayHere = q at *
    -- the message that there swallows, or, if none, the one that here will
    obtain rfl | rfl : p = 0 ∨ p = 1 := by omega
    · obtain rfl : q = 1 := by omega
      omega
    · obtain rfl | rfl : q = 0 ∨ q = 1 := by omega
      · omega
      · omega

/-- What one message can do, with the number of messages that answer it. -/
inductive Told (s : Ends) : Ends → Nat → Prop where
  | none : Told s s 0
  | there {after : Ends} (received : s.receive = some after) :
      Told s after (if after.there = s.there then 0 else 1)
  | here {after : Ends} (received : s.swap.receive = some after.swap) :
      Told s after (if after.here = s.here then 0 else 1)

theorem told_balance (s after : Ends) (answers : Nat) (told : Told s after answers) :
    after.pending + s.astray = s.pending + after.astray := by
  cases told with
  | none => rfl
  | there received => exact receive_balance s after received
  | here received =>
      have balance := receive_balance s.swap after.swap received
      rwa [pending_swap, pending_swap, astray_swap, astray_swap] at balance

theorem told_potential (s after : Ends) (answers : Nat) (told : Told s after answers)
    (swallowed : s.pending ≤ s.astray) : after.potential + answers ≤ s.potential := by
  cases told with
  | none => exact Nat.le_refl _
  | there received => exact receive_potential s after received swallowed
  | here received =>
      have potential := receive_potential s.swap after.swap received
        (by rwa [pending_swap, astray_swap])
      rwa [potential_swap, potential_swap] at potential

end Ends

end NetworkProgramming.EchoedBit
