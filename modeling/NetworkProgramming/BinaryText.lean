import Mathlib.Algebra.Order.Ring.Nat
import Mathlib.Data.List.Induction
import Mathlib.Data.List.TakeWhile
import Mathlib.Tactic.Ring

/-!
Numbers written in binary, and the operations on texts that Python has for them.
-/

namespace NetworkProgramming.BinaryText

def Binary (text : List Char) : Prop := ∀ c ∈ text, c = '0' ∨ c = '1'

instance (text : List Char) : Decidable (Binary text) :=
  inferInstanceAs (Decidable (∀ c ∈ text, c = '0' ∨ c = '1'))

def digit (c : Char) : Nat := if c = '1' then 1 else 0

def value (text : List Char) : Nat := text.foldl (fun high c => 2 * high + digit c) 0

def bin (n : Nat) : List Char := '0' :: 'b' :: Nat.toDigits 2 n

/-- Removes what is in `chars`, a set of characters, from the left. -/
def lstrip (chars text : List Char) : List Char := text.dropWhile (· ∈ chars)

/-- Zeros go between a sign and what follows it. -/
def zfill (width : Nat) (text : List Char) : List Char :=
  let zeros := List.replicate (width - text.length) '0'
  match text with
  | '+' :: rest => '+' :: (zeros ++ rest)
  | '-' :: rest => '-' :: (zeros ++ rest)
  | _ => zeros ++ text

/-- int(text, 2); `none` is the ValueError. -/
def int2 (text : List Char) : Option Nat :=
  if text ≠ [] ∧ Binary text then some (value text) else none

def everyOther : List α → List α
  | [] => []
  | [x] => [x]
  | x :: _ :: rest => x :: everyOther rest

theorem value_snoc (text : List Char) (c : Char) :
    value (text ++ [c]) = 2 * value text + digit c := by
  rw [value, List.foldl_append]
  rfl

theorem value_append (high low : List Char) :
    value (high ++ low) = value high * 2 ^ low.length + value low := by
  induction low using List.reverseRecOn with
  | nil => simp [value]
  | append_singleton low c ih =>
      rw [← List.append_assoc, value_snoc, value_snoc, ih, List.length_append,
        List.length_singleton, Nat.pow_succ]
      ring

theorem value_lt (text : List Char) : value text < 2 ^ text.length := by
  induction text using List.reverseRecOn with
  | nil => exact Nat.one_pos
  | append_singleton text c ih =>
      have bit : digit c ≤ 1 := by
        unfold digit
        split <;> omega
      rw [value_snoc, List.length_append, List.length_singleton, Nat.pow_succ]
      omega

theorem value_zeros (count : Nat) (text : List Char) :
    value (List.replicate count '0' ++ text) = value text := by
  induction count with
  | zero => rfl
  | succ count ih =>
      have first := value_append ['0'] (List.replicate count '0' ++ text)
      rw [ih] at first
      rw [List.replicate_succ, List.cons_append, ← List.singleton_append, first]
      simp [value, digit]

theorem binary_zeros (count : Nat) : Binary (List.replicate count '0') :=
  fun _ member => Or.inl (List.eq_of_mem_replicate member)

theorem binary_append (high low : List Char) (left : Binary high) (right : Binary low) :
    Binary (high ++ low) :=
  fun c member => (List.mem_append.mp member).elim (left c) (right c)

theorem to_digits_eq (n : Nat) : Nat.toDigits 2 n =
    if n < 2 then [Nat.digitChar n] else Nat.toDigits 2 (n / 2) ++ [Nat.digitChar (n % 2)] := by
  rw [Nat.toDigits_eq_if (by omega)]

theorem digit_char (n : Nat) (bit : n < 2) :
    (Nat.digitChar n = '0' ∨ Nat.digitChar n = '1') ∧ digit (Nat.digitChar n) = n := by
  have either : n = 0 ∨ n = 1 := by omega
  rcases either with zero | one
  · subst zero
    decide
  · subst one
    decide

theorem to_digits_binary (n : Nat) : Binary (Nat.toDigits 2 n) := by
  induction n using Nat.strongRecOn with
  | ind n ih =>
      have last (bit : Nat) (small : bit < 2) : Binary [Nat.digitChar bit] := by
        intro c member
        rw [List.mem_singleton.mp member]
        exact (digit_char bit small).1
      rw [to_digits_eq]
      split
      · rename_i small
        exact last n small
      · rename_i large
        exact binary_append _ _ (ih (n / 2) (by omega)) (last (n % 2) (Nat.mod_lt n (by omega)))

theorem to_digits_value (n : Nat) : value (Nat.toDigits 2 n) = n := by
  induction n using Nat.strongRecOn with
  | ind n ih =>
      rw [to_digits_eq]
      split
      · rename_i small
        have bit := (digit_char n small).2
        simp only [value, List.foldl_cons, List.foldl_nil]
        omega
      · rename_i large
        have bit := (digit_char (n % 2) (Nat.mod_lt n (by omega))).2
        rw [value_snoc, ih (n / 2) (by omega), bit]
        omega

theorem to_digits_leading (n : Nat) (positive : 0 < n) :
    ∃ rest, Nat.toDigits 2 n = '1' :: rest := by
  induction n using Nat.strongRecOn with
  | ind n ih =>
      rw [to_digits_eq]
      split
      · rename_i small
        have one : n = 1 := by omega
        subst one
        exact ⟨[], rfl⟩
      · rename_i large
        obtain ⟨rest, earlier⟩ := ih (n / 2) (by omega) (by omega)
        exact ⟨rest ++ [Nat.digitChar (n % 2)], by rw [earlier, List.cons_append]⟩

theorem to_digits_length (n width : Nat) (positive : 0 < n) (small : n < 2 ^ width) :
    (Nat.toDigits 2 n).length ≤ width := by
  have wide : 0 < width := by
    rcases Nat.eq_zero_or_pos width with none_ | some_
    · subst none_
      rw [Nat.pow_zero] at small
      omega
    · exact some_
  exact (Nat.length_toDigits_le_iff (by omega) wide).mpr small

/-- The set `0b` takes the digits of zero away too, of a positive number only what bin put in front. -/
theorem lstrip_bin (n : Nat) :
    lstrip ['0', 'b'] (bin n) = if n = 0 then [] else Nat.toDigits 2 n := by
  split
  · rename_i zero
    subst zero
    decide
  · rename_i positive
    obtain ⟨rest, leading⟩ := to_digits_leading n (Nat.pos_of_ne_zero positive)
    simp only [lstrip, bin, leading]
    rfl

theorem zfill_digits (width : Nat) (text : List Char) (binary : Binary text) :
    zfill width text = List.replicate (width - text.length) '0' ++ text := by
  rw [zfill.eq_def]
  split
  · rcases binary '+' List.mem_cons_self with same | same <;> cases same
  · rcases binary '-' List.mem_cons_self with same | same <;> cases same
  · rfl

theorem int2_some (text : List Char) (some_ : text ≠ []) (binary : Binary text) :
    int2 text = some (value text) :=
  if_pos ⟨some_, binary⟩

theorem mem_every_other (text : List α) (x : α) (member : x ∈ everyOther text) : x ∈ text := by
  fun_induction everyOther text with
  | case1 => exact member
  | case2 => exact member
  | case3 first second rest ih =>
      rcases List.mem_cons.mp member with same | later
      · exact List.mem_cons.mpr (Or.inl same)
      · exact List.mem_cons_of_mem _ (List.mem_cons_of_mem _ (ih later))

theorem binary_every_other (text : List Char) (binary : Binary text) : Binary (everyOther text) :=
  fun c member => binary c (mem_every_other text c member)

theorem every_other_length (text : List α) : (everyOther text).length = (text.length + 1) / 2 := by
  fun_induction everyOther text with
  | case1 => simp
  | case2 => simp
  | case3 first second rest ih =>
      simp only [List.length_cons, ih]
      omega

end NetworkProgramming.BinaryText
