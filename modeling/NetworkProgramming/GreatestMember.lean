import Mathlib.Data.Finset.Insert
import Mathlib.Data.Finset.Basic

/-!
A set of numbers, and a number that is remembered as its greatest member.
-/

namespace NetworkProgramming.GreatestMember

/-- An empty set has no greatest member; nothing is asked of `top` then. -/
def Greatest (set : Finset Nat) (top : Nat) : Prop :=
  (∀ n ∈ set, n ≤ top) ∧ (set.Nonempty → top ∈ set)

def highest (set : Finset Nat) (bound top : Nat) : Nat :=
  (List.range (bound + 1)).foldl (fun top j => if j ∈ set then j else top) top

theorem highest_succ (set : Finset Nat) (bound top : Nat) :
    highest set (bound + 1) top =
      if bound + 1 ∈ set then bound + 1 else highest set bound top := by
  rw [highest, List.range_succ, List.foldl_append]
  rfl

theorem highest_low (set : Finset Nat) (bound top : Nat) (low : ∃ n ∈ set, n ≤ bound) :
    highest set bound top ∈ set ∧ highest set bound top ≤ bound ∧
      ∀ n ∈ set, n ≤ bound → n ≤ highest set bound top := by
  induction bound with
  | zero =>
      obtain ⟨n, member, below⟩ := low
      have zero : n = 0 := by omega
      subst zero
      have same : highest set 0 top = 0 := by simp [highest, member]
      rw [same]
      exact ⟨member, Nat.le_refl 0, fun _ _ small => small⟩
  | succ bound ih =>
      rw [highest_succ]
      split
      · rename_i last
        exact ⟨last, Nat.le_refl _, fun _ _ small => small⟩
      · rename_i other
        have not_last (n : Nat) (member : n ∈ set) (below : n ≤ bound + 1) : n ≤ bound := by
          have different : n ≠ bound + 1 := fun same => other (same ▸ member)
          omega
        obtain ⟨n, member, below⟩ := low
        obtain ⟨found, within, most⟩ := ih ⟨n, member, not_last n member below⟩
        exact ⟨found, by omega, fun m here small => most m here (not_last m here small)⟩

theorem Greatest.insert {set : Finset Nat} {top : Nat} (greatest : Greatest set top)
    (some_ : set.Nonempty) (n : Nat) : Greatest (insert n set) (if n > top then n else top) := by
  have member := greatest.2 some_
  constructor
  · intro m here
    rcases Finset.mem_insert.mp here with same | old
    · split <;> omega
    · have below := greatest.1 m old
      split <;> omega
  · intro _
    split
    · exact Finset.mem_insert_self n set
    · exact Finset.mem_insert_of_mem member

theorem Greatest.erase_lower {set : Finset Nat} {top : Nat} (greatest : Greatest set top) (n : Nat)
    (lower : n ≠ top) : Greatest (set.erase n) top := by
  constructor
  · exact fun m here => greatest.1 m (Finset.mem_of_mem_erase here)
  · rintro ⟨m, here⟩
    have member := greatest.2 ⟨m, Finset.mem_of_mem_erase here⟩
    exact Finset.mem_erase.mpr ⟨lower.symm, member⟩

theorem greatest_highest (set : Finset Nat) (bound top : Nat) (within : ∀ n ∈ set, n ≤ bound) :
    Greatest set (highest set bound top) := by
  by_cases some_ : set.Nonempty
  · obtain ⟨n, member⟩ := some_
    obtain ⟨found, _, most⟩ := highest_low set bound top ⟨n, member, within n member⟩
    exact ⟨fun m here => most m here (within m here), fun _ => found⟩
  · have empty := Finset.not_nonempty_iff_eq_empty.mp some_
    exact ⟨fun m here => absurd (empty ▸ here) (Finset.notMem_empty m), fun here => absurd here some_⟩

theorem not_greatest_highest (set : Finset Nat) (bound top : Nat) (low : ∃ n ∈ set, n ≤ bound)
    (high : ∃ n ∈ set, bound < n) : ¬ Greatest set (highest set bound top) := by
  intro greatest
  obtain ⟨n, member, above⟩ := high
  have below := greatest.1 n member
  have within := (highest_low set bound top low).2.1
  omega

end NetworkProgramming.GreatestMember
