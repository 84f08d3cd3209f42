import Mathlib.Algebra.Order.Ring.Int

/-!
An `int` of 32 bits that counts. It has the number as its value while that is
below 2 ^ 31; one more makes it negative.
-/

namespace NetworkProgramming.IntCounter

theorem succ (k : Nat) : Int32.ofNat k + 1 = Int32.ofNat (k + 1) := (Int32.ofNat_add k 1).symm

theorem pred (k : Nat) (some_ : 0 < k) : Int32.ofNat k - 1 = Int32.ofNat (k - 1) :=
  (Int32.ofNat_sub k 1 some_).symm

theorem value (k : Nat) (room : k < 2 ^ 31) : (Int32.ofNat k).toInt = k :=
  Int32.toInt_ofNat_of_lt room

theorem add_value (start : Int32) (k : Nat) (room : start.toInt + k < 2 ^ 31) :
    (start + Int32.ofNat k).toInt = start.toInt + k := by
  have least := start.le_toInt
  have same : Int32.size = 2 ^ 32 := rfl
  rw [Int32.toInt_add, Int32.toInt_ofNat', same, Int.add_bmod_bmod]
  exact Int.bmod_eq_of_le (by omega) (by omega)

theorem not_negative (k : Nat) (room : k < 2 ^ 31) : ¬ Int32.ofNat k < 0 := by
  rw [Int32.lt_iff_toInt_lt, value k room, Int32.toInt_zero]
  omega

theorem positive_iff (k : Nat) (room : k < 2 ^ 31) : 0 < Int32.ofNat k ↔ 0 < k := by
  rw [Int32.lt_iff_toInt_lt, value k room, Int32.toInt_zero]
  omega

theorem wraps : Int32.ofNat (2 ^ 31) < 0 := by decide

theorem negative_iff (k : Nat) (most : k ≤ 2 ^ 31) : Int32.ofNat k < 0 ↔ k = 2 ^ 31 := by
  constructor
  · intro negative
    by_contra other
    exact not_negative k (by omega) negative
  · rintro rfl
    exact wraps

theorem zero_iff (k : Nat) (most : k ≤ 2 ^ 31) : Int32.ofNat k = 0 ↔ k = 0 := by
  constructor
  · intro zero
    by_contra other
    by_cases top : k = 2 ^ 31
    · have negative := (negative_iff k most).mpr top
      rw [zero] at negative
      exact absurd negative (by decide)
    · have positive := (positive_iff k (by omega)).mpr (by omega)
      rw [zero] at positive
      exact absurd positive (by decide)
  · rintro rfl
    rfl

theorem ne_minus_one (k : Nat) (most : k ≤ 2 ^ 31) : Int32.ofNat k ≠ -1 := by
  intro minus
  have negative : Int32.ofNat k < 0 := by
    rw [minus]
    decide
  rw [(negative_iff k most).mp negative] at minus
  exact absurd minus (by decide)

end NetworkProgramming.IntCounter
