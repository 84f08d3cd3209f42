import Mathlib.Data.Multiset.AddSub
import Mathlib.Logic.Function.Basic

/-!
The first `count` cells of an array as a multiset. A value is put in behind them, and one that is
taken out leaves its cell to the last.
-/

namespace NetworkProgramming.CountedArray

variable {Value : Type*}

def held (cells : Nat → Value) : Nat → Multiset Value
  | 0 => 0
  | count + 1 => cells count ::ₘ held cells count

theorem held_card (cells : Nat → Value) (count : Nat) : (held cells count).card = count := by
  induction count with
  | zero => rfl
  | succ count ih => rw [held, Multiset.card_cons, ih]

theorem held_mem_iff (cells : Nat → Value) (count : Nat) (value : Value) :
    value ∈ held cells count ↔ ∃ i < count, cells i = value := by
  induction count with
  | zero => simp [held]
  | succ count ih =>
      rw [held, Multiset.mem_cons, ih]
      constructor
      · rintro (last | ⟨i, below, here⟩)
        · exact ⟨count, Nat.lt_succ_self count, last.symm⟩
        · exact ⟨i, Nat.lt_succ_of_lt below, here⟩
      · intro ⟨i, below, here⟩
        rcases Nat.lt_succ_iff_lt_or_eq.mp below with earlier | rfl
        · exact Or.inr ⟨i, earlier, here⟩
        · exact Or.inl here.symm

theorem held_update_behind (cells : Nat → Value) (count i : Nat) (value : Value)
    (behind : count ≤ i) : held (Function.update cells i value) count = held cells count := by
  induction count with
  | zero => rfl
  | succ count ih =>
      have other : count ≠ i := by omega
      rw [held, held, ih (by omega), Function.update_of_ne other]

theorem held_push (cells : Nat → Value) (count : Nat) (value : Value) :
    held (Function.update cells count value) (count + 1) = value ::ₘ held cells count := by
  rw [held, Function.update_self, held_update_behind cells count count value (Nat.le_refl count)]

theorem held_update (cells : Nat → Value) (count i : Nat) (value : Value) (below : i < count) :
    cells i ::ₘ held (Function.update cells i value) count = value ::ₘ held cells count := by
  induction count with
  | zero => omega
  | succ count ih =>
      rcases Nat.lt_succ_iff_lt_or_eq.mp below with earlier | rfl
      · have other : count ≠ i := by omega
        rw [held, held, Function.update_of_ne other, Multiset.cons_swap, ih earlier,
          Multiset.cons_swap]
      · rw [held_push, held, Multiset.cons_swap]

theorem held_fill [DecidableEq Value] (cells : Nat → Value) (count i : Nat)
    (below : i < count + 1) :
    held (Function.update cells i (cells count)) count =
      (held cells (count + 1)).erase (cells i) := by
  rcases Nat.lt_succ_iff_lt_or_eq.mp below with earlier | rfl
  · rw [held, ← held_update cells count i (cells count) earlier, Multiset.erase_cons_head]
  · rw [held_update_behind cells i i (cells i) (Nat.le_refl i), held, Multiset.erase_cons_head]

end NetworkProgramming.CountedArray
