import Mathlib.Data.Fintype.EquivFin
import Mathlib.Logic.Function.Basic

/-!
Tables with numbered slots, each empty or holding a value. A new value goes into
the first empty slot below `size`, and no value is in two slots.
-/

namespace NetworkProgramming.SlotTable

variable {Value : Type*}

def firstFree (size : Nat) (slot : Nat → Option Value) : Option Nat :=
  (List.range size).find? fun i => (slot i).isNone

theorem first_free_some {size : Nat} {slot : Nat → Option Value} {i : Nat}
    (found : firstFree size slot = some i) : i < size ∧ slot i = none := by
  have inside := List.mem_of_find?_eq_some found
  have empty := List.find?_some found
  exact ⟨List.mem_range.mp inside, by simpa using empty⟩

theorem first_free_none {size : Nat} {slot : Nat → Option Value} :
    firstFree size slot = none ↔ ∀ i, i < size → slot i ≠ none := by
  simp [firstFree, List.find?_eq_none, Option.ne_none_iff_isSome]

/-- No value is in two slots. -/
def Distinct (slot : Nat → Option Value) : Prop :=
  ∀ i j v, slot i = some v → slot j = some v → i = j

theorem Distinct.put {slot : Nat → Option Value} (distinct : Distinct slot) (i : Nat) (v : Value)
    (fresh : ∀ j, slot j ≠ some v) : Distinct (Function.update slot i (some v)) := by
  intro a b w left right
  by_cases atLeft : a = i
  · by_cases atRight : b = i
    · rw [atLeft, atRight]
    · subst a
      rw [Function.update_self, Option.some.injEq] at left
      rw [Function.update_of_ne atRight, ← left] at right
      exact absurd right (fresh b)
  · rw [Function.update_of_ne atLeft] at left
    by_cases atRight : b = i
    · subst b
      rw [Function.update_self, Option.some.injEq] at right
      rw [← right] at left
      exact absurd left (fresh a)
    · rw [Function.update_of_ne atRight] at right
      exact distinct a b w left right

theorem Distinct.clear {slot : Nat → Option Value} (distinct : Distinct slot) (i : Nat) :
    Distinct (Function.update slot i none) := by
  intro a b w left right
  have from_old : ∀ c, Function.update slot i none c = some w → slot c = some w := by
    intro c here
    by_cases same : c = i
    · subst c
      simp at here
    · rwa [Function.update_of_ne same] at here
  exact distinct a b w (from_old a left) (from_old b right)

theorem holds_put {slot : Nat → Option Value} {i : Nat} (empty : slot i = none) (v w : Value) :
    (∃ j, Function.update slot i (some v) j = some w) ↔ w = v ∨ ∃ j, slot j = some w := by
  constructor
  · rintro ⟨j, here⟩
    by_cases same : j = i
    · subst j
      rw [Function.update_self, Option.some.injEq] at here
      exact Or.inl here.symm
    · rw [Function.update_of_ne same] at here
      exact Or.inr ⟨j, here⟩
  · rintro (rfl | ⟨j, here⟩)
    · exact ⟨i, Function.update_self _ _ _⟩
    · have other : j ≠ i := by
        rintro rfl
        rw [empty] at here
        cases here
      exact ⟨j, by rw [Function.update_of_ne other, here]⟩

theorem Distinct.holds_clear {slot : Nat → Option Value} (distinct : Distinct slot) {i : Nat}
    {v : Value} (filled : slot i = some v) (w : Value) :
    (∃ j, Function.update slot i none j = some w) ↔ w ≠ v ∧ ∃ j, slot j = some w := by
  constructor
  · rintro ⟨j, here⟩
    have other : j ≠ i := by
      rintro rfl
      simp at here
    rw [Function.update_of_ne other] at here
    refine ⟨?_, j, here⟩
    rintro rfl
    exact other (distinct j i w here filled)
  · rintro ⟨different, j, here⟩
    have other : j ≠ i := by
      rintro rfl
      rw [filled, Option.some.injEq] at here
      exact different here.symm
    exact ⟨j, by rw [Function.update_of_ne other, here]⟩

theorem Distinct.room {slot : Nat → Option Nat} (distinct : Distinct slot) (size unused : Nat)
    (small : ∀ i v, slot i = some v → v < size) (inside : unused < size)
    (absent : ∀ i, slot i ≠ some unused) : ∃ i, firstFree size slot = some i := by
  by_contra full
  have none_free : firstFree size slot = none := by
    cases found : firstFree size slot with
    | none => rfl
    | some i => exact absurd ⟨i, found⟩ full
  have filled : ∀ i : Fin size, ∃ v : Fin size, slot i = some v.val := by
    intro i
    obtain ⟨v, here⟩ := Option.ne_none_iff_exists'.mp (first_free_none.mp none_free i i.isLt)
    exact ⟨⟨v, small i v here⟩, here⟩
  choose value here using filled
  -- as many slots as numbers, so the unused one would be in the table
  have injective : Function.Injective value := by
    intro i j same
    exact Fin.ext (distinct i j (value i) (here i) (by rw [same]; exact here j))
  obtain ⟨i, reached⟩ := Finite.surjective_of_injective injective ⟨unused, inside⟩
  exact absent i (by rw [here i, reached])

end NetworkProgramming.SlotTable
