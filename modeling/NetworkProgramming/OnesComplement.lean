import Mathlib.Algebra.BigOperators.Group.List.Basic
import Mathlib.Algebra.Order.Ring.Nat
import Mathlib.Data.Nat.ModEq

/-!
One's-complement sums of words up to `m`, with the carry added at once or at
the end, and texts of bytes as 16-bit words in either byte order.
-/

namespace NetworkProgramming.OnesComplement

def add (m a b : Nat) : Nat := if a + b ≤ m then a + b else a + b - m

def total (m : Nat) (words : List Nat) : Nat := words.foldl (add m) 0

def fold (m n : Nat) : Nat :=
  if n ≤ m ∨ m = 0 then n else fold m (n / (m + 1) + n % (m + 1))
termination_by n
decreasing_by
  rename_i large
  have carry : 0 < n / (m + 1) := Nat.div_pos (by omega) (by omega)
  have whole := Nat.div_add_mod n (m + 1)
  have more : n / (m + 1) < (m + 1) * (n / (m + 1)) :=
    (Nat.lt_mul_iff_one_lt_left carry).mpr (by omega)
  omega

/-- The one word of `[0, m]` that a sum stands for: zero is only the sum of zeros. -/
def Stands (m n word : Nat) : Prop := word ≤ m ∧ word ≡ n [MOD m] ∧ (word = 0 ↔ n = 0)

theorem stands_unique (m n first second : Nat) (one : Stands m n first)
    (other : Stands m n second) : first = second := by
  obtain ⟨oneFits, oneSame, oneZero⟩ := one
  obtain ⟨otherFits, otherSame, otherZero⟩ := other
  have same : first ≡ second [MOD m] := oneSame.trans otherSame.symm
  by_cases zero : n = 0
  · rw [oneZero.mpr zero, otherZero.mpr zero]
  · have positive : 0 < first := Nat.pos_of_ne_zero fun none_ => zero (oneZero.mp none_)
    have also : 0 < second := Nat.pos_of_ne_zero fun none_ => zero (otherZero.mp none_)
    rcases Nat.le_total first second with below | below
    · have multiple := (Nat.modEq_iff_dvd' below).mp same
      have short := Nat.eq_zero_of_dvd_of_lt multiple (by omega)
      omega
    · have multiple := (Nat.modEq_iff_dvd' below).mp same.symm
      have short := Nat.eq_zero_of_dvd_of_lt multiple (by omega)
      omega

theorem add_stands (m a b n : Nat) (first : Stands m n a) (fits : b ≤ m) :
    Stands m (n + b) (add m a b) := by
  obtain ⟨below, same, zero⟩ := first
  have sum : a + b ≡ n + b [MOD m] := same.add_right b
  unfold add
  split
  · rename_i small
    exact ⟨small, sum, by omega⟩
  · rename_i large
    have carried : a + b - m ≡ a + b [MOD m] := by
      refine (Nat.modEq_iff_dvd' (Nat.sub_le _ _)).mpr ⟨1, ?_⟩
      omega
    exact ⟨by omega, carried.trans sum, by omega⟩

theorem total_stands (m : Nat) (words : List Nat) (fit : ∀ w ∈ words, w ≤ m) :
    Stands m words.sum (total m words) := by
  have rest (words : List Nat) (fit : ∀ w ∈ words, w ≤ m) (n start : Nat)
      (here : Stands m n start) : Stands m (n + words.sum) (words.foldl (add m) start) := by
    induction words generalizing n start with
    | nil => exact here
    | cons w words ih =>
        have next := add_stands m start w n here (fit w List.mem_cons_self)
        have after := ih (fun x member => fit x (List.mem_cons_of_mem _ member)) _ _ next
        rwa [Nat.add_assoc, ← List.sum_cons] at after
  have whole := rest words fit 0 0 ⟨Nat.zero_le m, Nat.ModEq.rfl, Iff.rfl⟩
  rwa [Nat.zero_add] at whole

theorem fold_stands (m n : Nat) (positive : 0 < m) : Stands m n (fold m n) := by
  induction n using Nat.strongRecOn with
  | ind n ih =>
      rw [fold]
      split
      · exact ⟨by omega, Nat.ModEq.rfl, Iff.rfl⟩
      · rename_i large
        have whole := Nat.div_add_mod n (m + 1)
        have carry : 0 < n / (m + 1) := Nat.div_pos (by omega) (by omega)
        have more : n / (m + 1) < (m + 1) * (n / (m + 1)) :=
          (Nat.lt_mul_iff_one_lt_left carry).mpr (by omega)
        obtain ⟨below, same, zero⟩ := ih (n / (m + 1) + n % (m + 1)) (by omega)
        have high : n / (m + 1) ≡ (m + 1) * (n / (m + 1)) [MOD m] := by
          rw [Nat.add_mul, Nat.one_mul]
          exact (Nat.modEq_iff_dvd' (Nat.le_add_left _ _)).mpr ⟨n / (m + 1), by omega⟩
        have sum : n / (m + 1) + n % (m + 1) ≡ n [MOD m] := by
          have both := high.add_right (n % (m + 1))
          rwa [whole] at both
        exact ⟨below, same.trans sum, by omega⟩

theorem total_full (m : Nat) (words : List Nat) (positive : 0 < m) (fit : ∀ w ∈ words, w ≤ m) :
    total m words = m ↔ m ∣ words.sum ∧ 0 < words.sum := by
  have stands := total_stands m words fit
  constructor
  · intro full
    rw [full] at stands
    obtain ⟨-, same, zero⟩ := stands
    exact ⟨(Nat.modEq_zero_iff_dvd).mp (same.symm.trans ((Nat.modEq_zero_iff_dvd).mpr dvd_rfl)),
      by omega⟩
  · rintro ⟨multiple, some_⟩
    have full : Stands m words.sum m :=
      ⟨Nat.le_refl m, ((Nat.modEq_zero_iff_dvd).mpr dvd_rfl).trans
        ((Nat.modEq_zero_iff_dvd).mpr multiple).symm, by omega⟩
    exact stands_unique m words.sum _ _ stands full

/-- A sum that its own complement is added to is full, and a further word is then seen, if it is not
    a multiple of `m`. -/
theorem complemented_iff (m n word : Nat) (positive : 0 < m) :
    (m ∣ n + (m - fold m n) + word ∧ 0 < n + (m - fold m n) + word) ↔ m ∣ word := by
  obtain ⟨below, same, zero⟩ := fold_stands m n positive
  have full : m ∣ n + (m - fold m n) := by
    have sum : fold m n + (m - fold m n) ≡ n + (m - fold m n) [MOD m] := same.add_right _
    rw [Nat.add_sub_cancel' below] at sum
    exact (Nat.modEq_zero_iff_dvd).mp (sum.symm.trans ((Nat.modEq_zero_iff_dvd).mpr dvd_rfl))
  rw [Nat.dvd_add_right full]
  exact and_iff_left (by omega)

/-! Bytes in memory as words of a host. -/

inductive ByteOrder where
  | little
  | big
  deriving DecidableEq

def load : ByteOrder → UInt8 → UInt8 → Nat
  | .little, first, second => 256 * second.toNat + first.toNat
  | .big, first, second => 256 * first.toNat + second.toNat

def store : ByteOrder → UInt16 → List UInt8
  | .little, n => [UInt8.ofNat n.toNat, UInt8.ofNat (n.toNat / 256)]
  | .big, n => [UInt8.ofNat (n.toNat / 256), UInt8.ofNat n.toNat]

/-- The words, an odd byte at the end being left out. -/
def wholeWords (order : ByteOrder) : List UInt8 → List Nat
  | first :: second :: rest => load order first second :: wholeWords order rest
  | _ => []

/-- The words, an odd byte at the end being padded with a zero. -/
def paddedWords (order : ByteOrder) : List UInt8 → List Nat
  | [] => []
  | [last] => [load order last 0]
  | first :: second :: rest => load order first second :: paddedWords order rest

def oddByte : List UInt8 → UInt8
  | [] => 0
  | [last] => last
  | _ :: _ :: rest => oddByte rest

@[simp] theorem store_length (order : ByteOrder) (n : UInt16) : (store order n).length = 2 := by
  cases order <;> rfl

theorem load_le (order : ByteOrder) (first second : UInt8) : load order first second ≤ 65535 := by
  have high := first.toNat_lt
  have low := second.toNat_lt
  cases order <;> simp only [load] <;> omega

theorem padded_le (order : ByteOrder) (text : List UInt8) :
    ∀ w ∈ paddedWords order text, w ≤ 65535 := by
  fun_induction paddedWords order text with
  | case1 => exact fun w member => absurd member List.not_mem_nil
  | case2 last =>
      intro w member
      rw [List.mem_singleton.mp member]
      exact load_le order last 0
  | case3 first second rest ih =>
      intro w member
      rcases List.mem_cons.mp member with same | later
      · rw [same]
        exact load_le order first second
      · exact ih w later

theorem whole_sum_le (order : ByteOrder) (text : List UInt8) :
    (wholeWords order text).sum ≤ 65535 * text.length := by
  fun_induction wholeWords order text with
  | case1 first second rest ih =>
      have word := load_le order first second
      rw [List.sum_cons, List.length_cons, List.length_cons]
      omega
  | case2 => exact Nat.zero_le _

theorem load_store (order : ByteOrder) (n : UInt16) (rest : List UInt8) :
    wholeWords order (store order n ++ rest) = n.toNat :: wholeWords order rest := by
  have small := n.toNat_lt
  cases order <;> simp [store, wholeWords, load] <;> omega

theorem whole_append (order : ByteOrder) (front rest : List UInt8) (even : front.length % 2 = 0) :
    wholeWords order (front ++ rest) = wholeWords order front ++ wholeWords order rest := by
  fun_induction oddByte front with
  | case1 => rfl
  | case2 => simp at even
  | case3 first second front ih =>
      rw [List.length_cons, List.length_cons] at even
      rw [List.cons_append, List.cons_append, wholeWords, wholeWords, ih (by omega), List.cons_append]

theorem odd_append (front rest : List UInt8) (even : front.length % 2 = 0) :
    oddByte (front ++ rest) = oddByte rest := by
  fun_induction oddByte front with
  | case1 => rfl
  | case2 => simp at even
  | case3 first second front ih =>
      rw [List.length_cons, List.length_cons] at even
      rw [List.cons_append, List.cons_append, oddByte, ih (by omega)]

theorem odd_zero_iff (text : List UInt8) :
    oddByte text = 0 ↔ text.length % 2 = 0 ∨ text.getLast? = some 0 := by
  fun_induction oddByte text with
  | case1 => simp
  | case2 last => simp
  | case3 first second rest ih =>
      rw [ih, List.length_cons, List.length_cons, List.getLast?_cons_cons]
      cases rest with
      | nil => simp
      | cons third rest => rw [List.getLast?_cons_cons, Nat.add_assoc, Nat.add_mod_right]

theorem padded_sum (order : ByteOrder) (text : List UInt8) :
    (paddedWords order text).sum = (wholeWords order text).sum + load order (oddByte text) 0 := by
  fun_induction oddByte text with
  | case1 => cases order <;> rfl
  | case2 last => simp [paddedWords, wholeWords]
  | case3 first second rest ih =>
      rw [paddedWords, wholeWords, List.sum_cons, List.sum_cons, ih, Nat.add_assoc]

theorem swapped_sum (text : List UInt8) :
    (paddedWords .little text).sum ≡ 256 * (paddedWords .big text).sum [MOD 65535] ∧
      (paddedWords .little text).sum ≤ 256 * (paddedWords .big text).sum ∧
      (paddedWords .big text).sum ≤ 256 * (paddedWords .little text).sum := by
  have word (first second : UInt8) : load .little first second ≡ 256 * load .big first second [MOD 65535] := by
    refine (Nat.modEq_iff_dvd' ?_).mpr ⟨first.toNat, ?_⟩ <;> simp only [load] <;> omega
  fun_induction oddByte text with
  | case1 => exact ⟨Nat.ModEq.rfl, Nat.le_refl _, Nat.le_refl _⟩
  | case2 last =>
      refine ⟨?_, ?_, ?_⟩
      · simpa [paddedWords] using word last 0
      · simp [paddedWords, load]; omega
      · simp [paddedWords, load]
  | case3 first second rest ih =>
      obtain ⟨same, below, above⟩ := ih
      simp only [paddedWords, List.sum_cons, Nat.mul_add]
      refine ⟨(word first second).add same, ?_, ?_⟩ <;> simp only [load] <;> omega

theorem full_either (order : ByteOrder) (text : List UInt8) :
    total 65535 (paddedWords .big text) = 65535 ↔
      65535 ∣ (paddedWords order text).sum ∧ 0 < (paddedWords order text).sum := by
  rw [total_full 65535 _ (by omega) (padded_le .big text)]
  cases order with
  | big => exact Iff.rfl
  | little =>
      obtain ⟨same, below, above⟩ := swapped_sum text
      have coprime : Nat.Coprime 65535 256 := by decide
      have multiple : 65535 ∣ (paddedWords .little text).sum ↔ 65535 ∣ (paddedWords .big text).sum := by
        rw [same.dvd_iff dvd_rfl]
        exact coprime.dvd_mul_left
      rw [multiple]
      exact and_congr_right fun _ => by omega

end NetworkProgramming.OnesComplement
