import Mathlib.Order.BooleanAlgebra.Basic
import NetworkProgramming.BinaryText
import NetworkProgramming.CText

/-!
chapter08/queuepi.py: a publisher of random points, two subscribers that
decide about them, and a service for sums of squares. The sockets are those of
pyzmq, a parameter. Python's json refuses integers of many digits: what the two
subscribers push is right as long as json carries the numbers of the point.
-/

namespace NetworkProgramming.Queuepi

open BinaryText

inductive Json where
  | number (n : Nat)
  | numbers (ns : List Nat)
  deriving DecidableEq

def Json.ints : Json → List Nat
  | .number n => [n]
  | .numbers ns => ns

/-- The methods of the sockets; `none` where one raises. A SUB socket is given the messages that
its subscriptions admit, each of them once. -/
structure Zmq where
  send_string : List Char → List UInt8
  recv_string : List UInt8 → Option (List Char)
  subscribed : List (List UInt8) → List UInt8 → Bool
  send_json : Json → Option (List UInt8)
  recv_json : List UInt8 → Option Json

@[irreducible] def int_max_str_digits : Nat := 4300

def Ascii (text : List Char) : Prop := ∀ c ∈ text, c.toNat < 128

/-- Strings go as UTF-8, a subscription is a prefix, and json carries what it has written, which
includes all integers of at most `int_max_str_digits` digits. -/
structure Documented (z : Zmq) : Prop where
  sent : ∀ text, Ascii text → z.send_string text = text.map Char.toUInt8
  received : ∀ text, Ascii text → z.recv_string (text.map Char.toUInt8) = some text
  subscribed : ∀ subscriptions message, z.subscribed subscriptions message =
    subscriptions.any fun start => start.isPrefixOf message
  carried : ∀ value message, z.send_json value = some message → z.recv_json message = some value
  written : ∀ value, (∀ n ∈ value.ints, n < 10 ^ int_max_str_digits) → z.send_json value ≠ none

def ones_and_zeros (digits random : Nat) : List Char :=
  zfill digits (lstrip ['0', 'b'] (bin random))

def alwaysYesPrefixes : List (List UInt8) := [[48, 48]]
def judgePrefixes : List (List UInt8) := [[48, 49], [49, 48], [49, 49]]

/-- The message pushed; `none` where a call raises or the answer does not come. -/
def always_yes (z : Zmq) (message : List UInt8) : Option (List UInt8) :=
  (z.recv_string message).map fun _bits => z.send_string ['Y']

def pythagoras (z : Zmq) (message : List UInt8) : Option (List UInt8) :=
  match z.recv_json message with
  | some (.numbers numbers) => z.send_json (.number (numbers.map fun n => n * n).sum)
  | _ => none

def judge (z : Zmq) (B : Nat) (message : List UInt8) : Option (List UInt8) := do
  let unit := 2 ^ (B * 2)
  let bits ← z.recv_string message
  let n ← int2 (everyOther bits)
  let m ← int2 (everyOther (bits.drop 1))
  let request ← z.send_json (.numbers [n, m])
  let reply ← pythagoras z request
  match z.recv_json reply with
  | some (.number sumsquares) => some (z.send_string [if sumsquares < unit then 'Y' else 'N'])
  | _ => none

def pushed (z : Zmq) (B : Nat) (message : List UInt8) : List (List UInt8) :=
  (if z.subscribed alwaysYesPrefixes message then (always_yes z message).toList else []) ++
    if z.subscribed judgePrefixes message then (judge z B message).toList else []

def evenNumber (bits : List Char) : Nat := value (everyOther bits)
def oddNumber (bits : List Char) : Nat := value (everyOther (bits.drop 1))

def Inside (B : Nat) (bits : List Char) : Prop :=
  evenNumber bits ^ 2 + oddNumber bits ^ 2 < 2 ^ (2 * B)

instance (B : Nat) (bits : List Char) : Decidable (Inside B bits) :=
  inferInstanceAs (Decidable (evenNumber bits ^ 2 + oddNumber bits ^ 2 < 2 ^ (2 * B)))

theorem ones_and_zeros_length (digits random : Nat) (small : random < 2 ^ digits) :
    (ones_and_zeros digits random).length = digits := by
  rw [ones_and_zeros, lstrip_bin]
  split
  · simp [zfill]
  · rename_i positive
    have fits := to_digits_length random digits (Nat.pos_of_ne_zero positive) small
    rw [zfill_digits _ _ (to_digits_binary random), List.length_append, List.length_replicate]
    omega

theorem ones_and_zeros_binary (digits random : Nat) : Binary (ones_and_zeros digits random) := by
  rw [ones_and_zeros, lstrip_bin]
  split
  · rw [zfill_digits _ _ (fun _ member => absurd member List.not_mem_nil), List.append_nil]
    exact binary_zeros _
  · rw [zfill_digits _ _ (to_digits_binary random)]
    exact binary_append _ _ (binary_zeros _) (to_digits_binary random)

theorem ones_and_zeros_value (digits random : Nat) : value (ones_and_zeros digits random) = random := by
  rw [ones_and_zeros, lstrip_bin]
  split
  · rename_i zero
    rw [zfill_digits _ _ (fun _ member => absurd member List.not_mem_nil), value_zeros, zero]
    rfl
  · rw [zfill_digits _ _ (to_digits_binary random), value_zeros, to_digits_value]

theorem binary_ascii (bits : List Char) (binary : Binary bits) : Ascii bits := by
  intro c member
  rcases binary c member with rfl | rfl <;> decide

section

variable (z : Zmq) (documented : Documented z)

include documented

theorem recv_string_sent (bits : List Char) (ascii : Ascii bits) :
    z.recv_string (z.send_string bits) = some bits := by
  rw [documented.sent bits ascii, documented.received bits ascii]

/-- Two digits in front say which subscriber is given a text, and it is one of them only. -/
theorem subscribed_first (first second : Char) (rest : List Char)
    (binary : Binary (first :: second :: rest)) :
    (z.subscribed alwaysYesPrefixes (z.send_string (first :: second :: rest)) = true ↔
      first = '0' ∧ second = '0') ∧
    (z.subscribed judgePrefixes (z.send_string (first :: second :: rest)) = true ↔
      ¬ (first = '0' ∧ second = '0')) := by
  have zero : '0'.toUInt8 = 48 := by decide
  have one : '1'.toUInt8 = 49 := by decide
  have high := binary first List.mem_cons_self
  have low := binary second (List.mem_cons_of_mem _ List.mem_cons_self)
  rw [documented.subscribed, documented.subscribed, documented.sent _ (binary_ascii _ binary)]
  rcases high with rfl | rfl <;> rcases low with rfl | rfl <;>
    simp [alwaysYesPrefixes, judgePrefixes, zero, one]

end

/-- The lower-left quadrant: a zero in front of both numbers leaves them below half of the side. -/
theorem quadrant_inside (B : Nat) (rest : List Char) (length : rest.length + 2 = 2 * B) :
    Inside B ('0' :: '0' :: rest) := by
  have half (digits : List Char) (short : digits.length + 1 = B) :
      value ('0' :: digits) ^ 2 * 4 ≤ 2 ^ (2 * B) := by
    have below : value ('0' :: digits) < 2 ^ digits.length := by
      have same : value ('0' :: digits) = value digits := value_zeros 1 digits
      rw [same]
      exact value_lt digits
    have squares : value ('0' :: digits) ^ 2 ≤ (2 ^ digits.length) ^ 2 :=
      Nat.pow_le_pow_left (Nat.le_of_lt below) 2
    have side : 2 ^ (2 * B) = (2 ^ digits.length) ^ 2 * 4 := by
      rw [← short]
      ring
    omega
  have evens := half (everyOther rest) (by rw [every_other_length]; omega)
  have odds := half (everyOther (rest.drop 1)) (by
    rw [every_other_length, List.length_drop]
    omega)
  have split : everyOther ('0' :: rest) = '0' :: everyOther (rest.drop 1) := by
    cases rest <;> rfl
  have positive : 0 < 2 ^ (2 * B) := Nat.two_pow_pos _
  change value ('0' :: everyOther rest) ^ 2 + value (everyOther ('0' :: rest)) ^ 2 < _
  rw [split]
  omega

def Carried (z : Zmq) (bits : List Char) : Prop :=
  z.send_json (.numbers [evenNumber bits, oddNumber bits]) ≠ none ∧
    z.send_json (.number (evenNumber bits ^ 2 + oddNumber bits ^ 2)) ≠ none

instance (z : Zmq) (bits : List Char) : Decidable (Carried z bits) :=
  inferInstanceAs (Decidable (_ ∧ _))

def decision (B : Nat) (bits : List Char) : Char := if Inside B bits then 'Y' else 'N'

section

variable (z : Zmq) (documented : Documented z)

include documented

theorem pythagoras_answers (n m : Nat) (request : List UInt8)
    (sent : z.send_json (.numbers [n, m]) = some request) :
    pythagoras z request = z.send_json (.number (n ^ 2 + m ^ 2)) := by
  rw [pythagoras, documented.carried _ _ sent]
  simp [Nat.pow_two]

theorem judge_decides (B : Nat) (bits : List Char) (binary : Binary bits) (long : 2 ≤ bits.length) :
    judge z B (z.send_string bits) =
      if Carried z bits then some (z.send_string [decision B bits]) else none := by
  have read (digits : List Char) (within : ∀ c ∈ digits, c ∈ bits) (some_ : 0 < digits.length) :
      int2 (everyOther digits) = some (value (everyOther digits)) := by
    refine int2_some _ ?_ (binary_every_other digits fun c member => binary c (within c member))
    intro none_
    have count := every_other_length digits
    rw [none_, List.length_nil] at count
    omega
  have evens : int2 (everyOther bits) = some (evenNumber bits) :=
    read bits (fun _ member => member) (by omega)
  have odds : int2 (everyOther (bits.drop 1)) = some (oddNumber bits) :=
    read (bits.drop 1) (fun _ member => List.mem_of_mem_drop member) (by
      rw [List.length_drop]
      omega)
  simp only [judge, recv_string_sent z documented bits (binary_ascii bits binary), evens, odds,
    Option.bind_eq_bind, Option.bind_some]
  -- json may refuse the request, or the answer to it
  cases asked : z.send_json (.numbers [evenNumber bits, oddNumber bits]) with
  | none => rw [if_neg fun carried => carried.1 asked, Option.bind_none]
  | some request =>
      rw [Option.bind_some, pythagoras_answers z documented _ _ request asked]
      cases answered : z.send_json (.number (evenNumber bits ^ 2 + oddNumber bits ^ 2)) with
      | none => rw [if_neg fun carried => carried.2 answered, Option.bind_none]
      | some reply =>
          have carried : Carried z bits := ⟨by simp [asked], by simp [answered]⟩
          rw [Option.bind_some, documented.carried _ _ answered, if_pos carried, Nat.mul_comm B 2]
          rfl

theorem point_pushed (B : Nat) (bits : List Char) (precision : 1 ≤ B) (binary : Binary bits)
    (length : bits.length = 2 * B) :
    Xor (z.subscribed alwaysYesPrefixes (z.send_string bits) = true)
        (z.subscribed judgePrefixes (z.send_string bits) = true) ∧
      pushed z B (z.send_string bits) =
        if z.subscribed alwaysYesPrefixes (z.send_string bits) = true ∨ Carried z bits then
          [z.send_string [decision B bits]] else [] := by
  obtain ⟨first, second, rest, rfl⟩ : ∃ first second rest, bits = first :: second :: rest := by
    match bits, length with
    | [], none_ => simp only [List.length_nil] at none_; omega
    | [_], one => simp only [List.length_cons, List.length_nil] at one; omega
    | first :: second :: rest, _ => exact ⟨first, second, rest, rfl⟩
  have judged := judge_decides z documented B (first :: second :: rest) binary (by simp)
  have got := recv_string_sent z documented _ (binary_ascii _ binary)
  obtain ⟨yes, looked⟩ := subscribed_first z documented first second rest binary
  by_cases quadrant : first = '0' ∧ second = '0'
  · have chosen := yes.mpr quadrant
    have other : z.subscribed judgePrefixes (z.send_string (first :: second :: rest)) = false :=
      Bool.eq_false_iff.mpr fun both => looked.mp both quadrant
    obtain ⟨rfl, rfl⟩ := quadrant
    have inside := quadrant_inside B rest (by simp only [List.length_cons] at length; omega)
    refine ⟨Or.inl ⟨chosen, by rw [other]; exact Bool.false_ne_true⟩, ?_⟩
    rw [pushed, chosen, other, if_pos rfl, if_neg Bool.false_ne_true, List.append_nil,
      if_pos (Or.inl rfl), decision, if_pos inside, always_yes, got]
    rfl
  · have chosen := looked.mpr quadrant
    have other : z.subscribed alwaysYesPrefixes (z.send_string (first :: second :: rest)) = false :=
      Bool.eq_false_iff.mpr fun both => quadrant (yes.mp both)
    refine ⟨Or.inr ⟨chosen, by rw [other]; exact Bool.false_ne_true⟩, ?_⟩
    rw [pushed, chosen, other, if_neg Bool.false_ne_true, if_pos rfl, List.nil_append, judged]
    simp only [Bool.false_eq_true, false_or]
    split <;> rfl

end

/-- The numbers of a point, and the sum of their squares, have at most 4300 digits. -/
theorem carried_short (z : Zmq) (documented : Documented z) (B : Nat) (bits : List Char)
    (short : B ≤ 7141) (length : bits.length = 2 * B) : Carried z bits := by
  have below (digits : List Char) (count : digits.length ≤ B) : value digits < 2 ^ B :=
    Nat.lt_of_lt_of_le (value_lt digits) (Nat.pow_le_pow_right Nat.two_pos count)
  have even : evenNumber bits < 2 ^ B := below _ (by rw [every_other_length]; omega)
  have odd : oddNumber bits < 2 ^ B := below _ (by
    rw [every_other_length, List.length_drop]
    omega)
  have limit : 2 ^ B * 2 ^ B * 2 ≤ 10 ^ int_max_str_digits := by
    calc 2 ^ B * 2 ^ B * 2 = 2 ^ (2 * B + 1) := by ring
      _ ≤ 2 ^ 14283 := Nat.pow_le_pow_right Nat.two_pos (by omega)
      _ ≤ 10 ^ int_max_str_digits := by decide +kernel
  have squares : evenNumber bits ^ 2 + oddNumber bits ^ 2 < 2 ^ B * 2 ^ B * 2 := by
    have evens := Nat.mul_lt_mul'' even even
    have odds := Nat.mul_lt_mul'' odd odd
    rw [Nat.pow_two, Nat.pow_two]
    omega
  have side : 2 ^ B ≤ 2 ^ B * 2 ^ B := Nat.le_mul_of_pos_left _ (Nat.two_pow_pos B)
  refine ⟨documented.written _ ?_, documented.written _ ?_⟩
  · simp only [Json.ints, List.mem_cons, List.not_mem_nil, or_false, forall_eq_or_imp, forall_eq]
    omega
  · simp only [Json.ints, List.mem_singleton, forall_eq]
    omega

def elements : List Nat → List UInt8
  | [] => CText.bytes "]"
  | [n] => CText.decimal n ++ CText.bytes "]"
  | n :: rest => CText.decimal n ++ CText.bytes ", " ++ elements rest

def Json.dumps : Json → List UInt8
  | .number n => CText.decimal n
  | .numbers ns => 91 :: elements ns

def numbersFrom : Option Nat → List UInt8 → List Nat
  | word, [] => word.toList
  | word, b :: rest =>
      if CText.isdigit b then numbersFrom (some (10 * word.getD 0 + (b.toNat - 48))) rest
      else word.toList ++ numbersFrom none rest

def Json.loads (text : List UInt8) : Json :=
  match text with
  | 91 :: rest => .numbers (numbersFrom none rest)
  | _ => .number (CText.digitsValue text)

theorem numbers_from_digits (digits rest : List UInt8) (word : Option Nat) (some_ : digits ≠ [])
    (all : ∀ b ∈ digits, CText.isdigit b = true) : numbersFrom word (digits ++ rest) =
      numbersFrom (some (digits.foldl (fun value b => 10 * value + (b.toNat - 48))
        (word.getD 0))) rest := by
  induction digits generalizing word with
  | nil => exact absurd rfl some_
  | cons b digits ih =>
      obtain ⟨first, others⟩ := List.forall_mem_cons.mp all
      rw [List.cons_append, numbersFrom, if_pos first]
      cases digits with
      | nil => rfl
      | cons c digits =>
          rw [ih _ (List.cons_ne_nil c digits) others]
          rfl

theorem numbers_from_decimal (n : Nat) (b : UInt8) (rest : List UInt8)
    (other : CText.isdigit b = false) :
    numbersFrom none (CText.decimal n ++ b :: rest) = n :: numbersFrom none rest := by
  rw [numbers_from_digits _ _ _ (CText.decimal_ne_nil n) (CText.decimal_digits n), numbersFrom,
    if_neg (by rw [other]; exact Bool.false_ne_true)]
  have value := CText.decimal_value n
  rw [CText.digitsValue] at value
  rw [Option.getD_none, value]
  rfl

theorem numbers_from_elements (ns : List Nat) : numbersFrom none (elements ns) = ns := by
  fun_induction elements ns with
  | case1 => rfl
  | case2 n => exact numbers_from_decimal n 93 [] (by decide)
  | case3 n rest _ ih =>
      rw [List.append_assoc]
      refine (numbers_from_decimal n 44 (32 :: elements rest) (by decide)).trans ?_
      exact congrArg (n :: ·) ih

theorem loads_dumps (value : Json) : Json.loads value.dumps = value := by
  cases value with
  | number n =>
      obtain ⟨b, rest, same, digit⟩ := CText.decimal_head n
      have whole := CText.decimal_value n
      rw [Json.dumps, Json.loads.eq_def, same]
      rw [same] at whole
      split
      · rename_i bracket
        cases bracket
        cases digit
      · rw [whole]
  | numbers ns => exact congrArg Json.numbers (numbers_from_elements ns)

def cpython : Zmq where
  send_string text := text.map Char.toUInt8
  recv_string message := some (message.map fun b => Char.ofNat b.toNat)
  subscribed subscriptions message := subscriptions.any fun start => start.isPrefixOf message
  send_json value := if ∀ n ∈ value.ints, n < 10 ^ int_max_str_digits then some value.dumps else none
  recv_json message := some (Json.loads message)

theorem cpython_documented : Documented cpython where
  sent _ _ := rfl
  received text ascii := by
    refine congrArg some ((List.map_map ..).trans ((List.map_congr_left ?_).trans (List.map_id text)))
    intro c member
    have small : c.toNat % 256 = c.toNat := Nat.mod_eq_of_lt (by have := ascii c member; omega)
    change Char.ofNat (c.toNat % 256) = c
    rw [small, Char.ofNat_toNat]
  subscribed _ _ := rfl
  carried value message sent := by
    simp only [cpython, Option.ite_none_right_eq_some, Option.some.injEq] at sent
    obtain ⟨_, rfl⟩ := sent
    exact congrArg some (loads_dumps value)
  written value short := by
    simp only [cpython, if_pos short]
    exact Option.some_ne_none _

theorem number_refused (n : Nat) (large : 10 ^ int_max_str_digits ≤ n) :
    cpython.send_json (.number n) = none := by
  have long : ¬ ∀ k ∈ Json.ints (.number n), k < 10 ^ int_max_str_digits :=
    fun short => Nat.not_le.mpr (short n List.mem_cons_self) large
  simp only [cpython, if_neg long]

theorem even_number_large (B : Nat) (bits : List Char) (binary : Binary bits)
    (length : bits.length = 2 * B + 2) (high : 2 ^ (2 * B + 1) ≤ value bits) :
    (∃ rest, bits = '1' :: rest) ∧ 2 ^ B ≤ evenNumber bits := by
  obtain ⟨first, second, rest, rfl⟩ : ∃ first second rest, bits = first :: second :: rest := by
    match bits, length with
    | first :: second :: rest, _ => exact ⟨first, second, rest, rfl⟩
  simp only [List.length_cons] at length
  have one : first = '1' := by
    refine (binary first List.mem_cons_self).resolve_left ?_
    rintro rfl
    have same : value ('0' :: second :: rest) = value (second :: rest) := value_zeros 1 _
    have below := value_lt (second :: rest)
    have digits : (second :: rest).length = 2 * B + 1 := by
      rw [List.length_cons]
      omega
    rw [digits] at below
    omega
  subst one
  refine ⟨⟨_, rfl⟩, ?_⟩
  have split := value_append ['1'] (everyOther rest)
  have half : (everyOther rest).length = B := by
    rw [every_other_length]
    omega
  have digit : value ['1'] = 1 := by decide
  rw [half, digit, Nat.one_mul] at split
  change 2 ^ B ≤ value (['1'] ++ everyOther rest)
  rw [split]
  exact Nat.le_add_right _ _

theorem high_bit_uncounted (B : Nat) (long : 10 ^ int_max_str_digits ≤ 2 ^ (2 * B)) :
    2 ^ (2 * B + 1) < 2 ^ (2 * (B + 1)) ∧
      pushed cpython (B + 1)
        (cpython.send_string (ones_and_zeros ((B + 1) * 2) (2 ^ (2 * B + 1)))) = [] := by
  have drawn : 2 ^ (2 * B + 1) < 2 ^ (2 * (B + 1)) :=
    Nat.pow_lt_pow_right Nat.one_lt_two (by omega)
  refine ⟨drawn, ?_⟩
  have length := ones_and_zeros_length ((B + 1) * 2) (2 ^ (2 * B + 1))
    (by rwa [Nat.mul_comm (B + 1) 2])
  replace length := length.trans (Nat.mul_comm (B + 1) 2)
  have binary := ones_and_zeros_binary ((B + 1) * 2) (2 ^ (2 * B + 1))
  have whole := ones_and_zeros_value ((B + 1) * 2) (2 ^ (2 * B + 1))
  generalize ones_and_zeros ((B + 1) * 2) (2 ^ (2 * B + 1)) = bits at length binary whole
  obtain ⟨⟨rest, rfl⟩, large⟩ := even_number_large B bits binary length (le_of_eq whole.symm)
  rw [(point_pushed cpython cpython_documented (B + 1) _ (Nat.le_add_left 1 B) binary length).2,
    if_neg]
  rintro (looked | ⟨_, written⟩)
  · simp only [cpython, alwaysYesPrefixes, List.any_cons, List.any_nil, List.map_cons, Bool.or_false,
      List.isPrefixOf, Bool.and_eq_true, beq_iff_eq] at looked
    exact absurd looked.1 (by decide)
  · have square := Nat.pow_le_pow_left large 2
    rw [← Nat.pow_mul, Nat.mul_comm B 2] at square
    exact written (number_refused _ (long.trans (square.trans (Nat.le_add_right _ _))))

end NetworkProgramming.Queuepi
