import Mathlib.Data.Nat.ModEq
import Mathlib.Logic.Function.Basic

/-!
Circular buffers. Items are numbered in the order in which they are put, and
item `k` belongs in cell `k % size`; as long as no more than `size` of them are
in use at a time, their cells are different.
-/

namespace NetworkProgramming.Ring

variable {Value : Type*}

def next (size cell : Nat) : Nat := if cell + 1 ≥ size then 0 else cell + 1

theorem next_mod (size item : Nat) (inhabited : 0 < size) :
    next size (item % size) = (item + 1) % size := by
  have small := Nat.mod_lt item inhabited
  have wrapped : (item % size + 1) % size = (item + 1) % size := Nat.mod_add_mod item size 1
  simp only [next]
  split
  · rename_i last
    have full : item % size + 1 = size := by omega
    rw [← wrapped, full, Nat.mod_self]
  · rename_i room
    have inside : (item % size + 1) % size = item % size + 1 := Nat.mod_eq_of_lt (by omega)
    rw [← wrapped, inside]

theorem cell_ne (size item other : Nat) (less : item < other) (near : other < size + item) :
    item % size ≠ other % size := by
  intro same
  have whole : size ∣ other - item := (Nat.modEq_iff_dvd' less.le).mp same
  have reach := Nat.le_of_dvd (by omega) whole
  omega

/-- Two items of one window of `size` items that share a cell are the same. -/
theorem cell_inj (size low item other : Nat) (here : low ≤ item ∧ item < size + low)
    (there : low ≤ other ∧ other < size + low) (same : item % size = other % size) :
    item = other := by
  rcases Nat.lt_trichotomy item other with less | equal | more
  · exact absurd same (cell_ne size item other less (by omega))
  · exact equal
  · exact absurd same.symm (cell_ne size other item more (by omega))

/-- The cell of the item after a window that is not full is used as often by the
items before the window as by all so far. -/
theorem cell_unused (size low high : Nat) (order : low ≤ high) (room : high < size + low) :
    ((List.range high).map (· % size)).count (high % size) =
      ((List.range low).map (· % size)).count (high % size) := by
  obtain ⟨more, rfl⟩ := Nat.exists_eq_add_of_le order
  have absent : (low + more) % size ∉ ((List.range more).map (low + ·)).map (· % size) := by
    intro member
    simp only [List.map_map, List.mem_map, List.mem_range, Function.comp_apply] at member
    obtain ⟨k, inside, same⟩ := member
    exact cell_ne size (low + k) (low + more) (by omega) (by omega) same
  rw [List.range_add, List.map_append, List.count_append, List.count_eq_zero.mpr absent,
    Nat.add_zero]

def Holds (size : Nat) (cells : Nat → Value) (items : List Value) (low : Nat) : Prop :=
  ∀ k, low ≤ k → k < items.length → items[k]? = some (cells (k % size))

theorem holds_nothing (size : Nat) (cells : Nat → Value) : Holds size cells [] 0 := by
  intro k _ below
  simp at below

theorem Holds.put {size low : Nat} {cells : Nat → Value} {items : List Value}
    (held : Holds size cells items low) (room : items.length < size + low) (value : Value) :
    Holds size (Function.update cells (items.length % size) value) (items ++ [value]) low := by
  intro k above below
  by_cases last : k = items.length
  · subst k
    simp
  · have earlier : k < items.length := by
      rw [List.length_append, List.length_singleton] at below
      omega
    rw [List.getElem?_append_left earlier,
      Function.update_of_ne (cell_ne size k items.length earlier (by omega))]
    exact held k above earlier

theorem Holds.free {size low : Nat} {cells : Nat → Value} {items : List Value}
    (held : Holds size cells items low) (room : items.length < size + low) (value : Value) :
    Holds size (Function.update cells (items.length % size) value) items low := by
  intro k above below
  rw [Function.update_of_ne (cell_ne size k items.length below (by omega))]
  exact held k above below

theorem Holds.get {size low : Nat} {cells : Nat → Value} {items : List Value}
    (held : Holds size cells items low) (stored : low < items.length) :
    items[low]? = some (cells (low % size)) ∧ Holds size cells items (low + 1) := by
  constructor
  · exact held low (Nat.le_refl _) stored
  · intro k above below
    exact held k (by omega) below

end NetworkProgramming.Ring
