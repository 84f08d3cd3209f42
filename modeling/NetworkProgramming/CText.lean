import Mathlib.Algebra.Order.Ring.Nat
import Mathlib.Data.List.TakeWhile

/-!
Bytes as the string functions of C see them: a string ends before its first
NUL, fgets stops after a newline, and numbers are written in decimal.
-/

namespace NetworkProgramming.CText

def newline : UInt8 := 10
def space : UInt8 := 32

def bytes (text : String) : List UInt8 := text.toList.map Char.toUInt8

/-- What strlen, strchr and fopen see of a buffer. -/
def cString (buffer : List UInt8) : List UInt8 := buffer.takeWhile (· ≠ 0)

def strchr (c : UInt8) : List UInt8 → Option (List UInt8 × List UInt8)
  | [] => none
  | b :: rest =>
      if b = c then some ([], rest)
      else if b = 0 then none
      else (strchr c rest).map fun r => (b :: r.1, r.2)

/-- snprintf into `size` bytes, the last of them for the NUL. -/
def snprintf (size : Nat) (text : List UInt8) : List UInt8 := text.take (size - 1)

def getsLine : Nat → List UInt8 → List UInt8 × List UInt8
  | 0, stream => ([], stream)
  | _ + 1, [] => ([], [])
  | count + 1, b :: rest =>
      if b = newline then ([b], rest)
      else (b :: (getsLine count rest).1, (getsLine count rest).2)

/-- fgets into `size` bytes; `none` is the NULL of an end of file. -/
def fgets (size : Nat) : List UInt8 → Option (List UInt8 × List UInt8)
  | [] => none
  | stream => some (getsLine (size - 1) stream)

def isdigit (b : UInt8) : Bool := decide (48 ≤ b.toNat ∧ b.toNat ≤ 57)
def isspace (b : UInt8) : Bool := decide (b = space ∨ 9 ≤ b.toNat ∧ b.toNat ≤ 13)

def decimal (n : Nat) : List UInt8 := (Nat.toDigits 10 n).map Char.toUInt8

def digitsValue (digits : List UInt8) : Nat :=
  digits.foldl (fun value b => 10 * value + (b.toNat - 48)) 0

/-- Leading white space, a sign, and digits up to the first other byte. -/
def atol (text : List UInt8) : Int :=
  match text.dropWhile isspace with
  | 45 :: rest => -(digitsValue (rest.takeWhile isdigit))
  | 43 :: rest => digitsValue (rest.takeWhile isdigit)
  | rest => digitsValue (rest.takeWhile isdigit)

def unsigned (text : List UInt8) : List UInt8 :=
  if text.head? = some 45 ∨ text.head? = some 43 then text.tail else text

def leading (text : List UInt8) : Option (Int × List UInt8) :=
  let magnitude := digitsValue ((unsigned text).takeWhile isdigit)
  if (unsigned text).takeWhile isdigit = [] then none
  else some (if text.head? = some 45 then -magnitude else magnitude,
    (unsigned text).dropWhile isdigit)

def tokensFrom : List UInt8 → List UInt8 → List (List UInt8)
  | word, [] => if word = [] then [] else [word]
  | word, b :: rest =>
      if isspace b then if word = [] then tokensFrom [] rest else word :: tokensFrom [] rest
      else tokensFrom (word ++ [b]) rest

def tokens (text : List UInt8) : List (List UInt8) := tokensFrom [] text

theorem c_string_whole (buffer : List UInt8) (free : 0 ∉ buffer) : cString buffer = buffer := by
  rw [cString, List.takeWhile_eq_self_iff]
  intro b member
  rw [decide_eq_true_eq]
  rintro rfl
  exact free member

theorem c_string_free (buffer : List UInt8) : 0 ∉ cString buffer := by
  intro member
  simpa using List.mem_takeWhile_imp member

theorem c_string_iff (buffer : List UInt8) : cString buffer = buffer ↔ 0 ∉ buffer := by
  constructor
  · intro whole
    rw [← whole]
    exact c_string_free buffer
  · exact c_string_whole buffer

theorem c_string_terminated (buffer : List UInt8) : cString (buffer ++ [0]) = cString buffer := by
  induction buffer with
  | nil => rfl
  | cons b buffer ih =>
      rw [cString, cString] at ih ⊢
      rw [List.cons_append, List.takeWhile_cons, List.takeWhile_cons, ih]

theorem c_string_append (before after : List UInt8) (free : 0 ∉ before) :
    cString (before ++ after) = before ++ cString after := by
  rw [cString, List.takeWhile_append_of_pos, cString]
  intro b member
  rw [decide_eq_true_eq]
  rintro rfl
  exact free member

theorem c_string_ends {buffer : List UInt8} (ends : 0 ∈ buffer) :
    ∃ rest, buffer = cString buffer ++ 0 :: rest := by
  induction buffer with
  | nil => cases ends
  | cons b buffer ih =>
      by_cases zero : b = 0
      · exact ⟨buffer, by simp [cString, zero]⟩
      · have behind : 0 ∈ buffer := by simpa [Ne.symm zero] using ends
        obtain ⟨rest, same⟩ := ih behind
        refine ⟨rest, ?_⟩
        rw [cString, List.takeWhile_cons, if_pos (by simpa using zero), List.cons_append]
        exact congrArg (b :: ·) same

theorem strchr_append (c : UInt8) (before rest : List UInt8) (absent : c ∉ before)
    (free : 0 ∉ before) : strchr c (before ++ c :: rest) = some (before, rest) := by
  induction before with
  | nil => simp [strchr]
  | cons b before ih =>
      simp only [List.mem_cons, not_or] at absent free
      rw [List.cons_append, strchr, if_neg (Ne.symm absent.1), if_neg (Ne.symm free.1),
        ih absent.2 free.2, Option.map_some]

theorem strchr_absent (c : UInt8) (text : List UInt8) (absent : c ∉ text) : strchr c text = none := by
  induction text with
  | nil => rfl
  | cons b text ih =>
      simp only [List.mem_cons, not_or] at absent
      rw [strchr, if_neg (Ne.symm absent.1), ih absent.2, Option.map_none]
      split <;> rfl

theorem gets_line_append (count : Nat) (stream : List UInt8) :
    (getsLine count stream).1 ++ (getsLine count stream).2 = stream := by
  induction count generalizing stream with
  | zero => rfl
  | succ count ih =>
      cases stream with
      | nil => rfl
      | cons b rest =>
          rw [getsLine]
          split
          · rfl
          · rw [List.cons_append, ih]

theorem gets_line_cons (count : Nat) (b : UInt8) (rest : List UInt8) :
    (getsLine (count + 1) (b :: rest)).1 ≠ [] := by
  rw [getsLine]
  split <;> exact List.cons_ne_nil _ _

theorem gets_line_text {text stream : List UInt8} (inside : newline ∉ text) {count : Nat}
    (short : text.length < count) :
    getsLine count (text ++ newline :: stream) = (text ++ [newline], stream) := by
  induction text generalizing count with
  | nil =>
      obtain ⟨more, rfl⟩ : ∃ more, count = more + 1 := ⟨count - 1, by simp at short; omega⟩
      simp [getsLine]
  | cons c text ih =>
      simp only [List.mem_cons, not_or] at inside
      obtain ⟨more, rfl⟩ : ∃ more, count = more + 1 := ⟨count - 1, by simp at short; omega⟩
      rw [List.cons_append, getsLine, if_neg (Ne.symm inside.1),
        ih inside.2 (by simpa using short)]
      rfl

theorem fgets_some (size : Nat) (stream line rest : List UInt8)
    (got : fgets (size + 2) stream = some (line, rest)) :
    line ++ rest = stream ∧ line ≠ [] ∧ rest.length < stream.length := by
  cases stream with
  | nil => cases got
  | cons b tail =>
      have taken : getsLine (size + 1) (b :: tail) = (line, rest) := Option.some.inj got
      have whole := gets_line_append (size + 1) (b :: tail)
      have inhabited := gets_line_cons size b tail
      rw [taken] at whole inhabited
      have positive := List.length_pos_iff.mpr inhabited
      refine ⟨whole, inhabited, ?_⟩
      rw [← whole, List.length_append]
      exact Nat.lt_add_of_pos_left positive

theorem fgets_none (size : Nat) (stream : List UInt8) : fgets size stream = none ↔ stream = [] := by
  cases stream <;> simp [fgets]

theorem digit_byte (n : Nat) (small : n < 10) : (Nat.digitChar n).toUInt8.toNat = 48 + n := by
  have value := Nat.toNat_digitChar_of_lt_ten small
  change (Nat.digitChar n).toNat % 256 = 48 + n
  rw [value]
  omega

theorem decimal_eq (n : Nat) : decimal n =
    if n < 10 then [(Nat.digitChar n).toUInt8]
    else decimal (n / 10) ++ [(Nat.digitChar (n % 10)).toUInt8] := by
  rw [decimal, Nat.toDigits_eq_if (by omega)]
  split
  · rfl
  · simp [decimal]

theorem decimal_ne_nil (n : Nat) : decimal n ≠ [] := by
  simp [decimal]

theorem decimal_digits (n : Nat) : ∀ b ∈ decimal n, isdigit b = true := by
  induction n using Nat.strongRecOn with
  | ind n ih =>
      rw [decimal_eq]
      intro b member
      split at member
      · rename_i small
        have value := digit_byte n small
        simp only [List.mem_singleton] at member
        subst b
        simp only [isdigit, decide_eq_true_eq]
        omega
      · rename_i large
        rcases List.mem_append.mp member with earlier | last
        · exact ih (n / 10) (by omega) b earlier
        · have value := digit_byte (n % 10) (Nat.mod_lt n (by omega))
          simp only [List.mem_singleton] at last
          subst b
          simp only [isdigit, decide_eq_true_eq]
          omega

theorem decimal_value (n : Nat) : digitsValue (decimal n) = n := by
  induction n using Nat.strongRecOn with
  | ind n ih =>
      rw [decimal_eq]
      split
      · rename_i small
        have value := digit_byte n small
        simp only [digitsValue, List.foldl_cons, List.foldl_nil]
        omega
      · rename_i large
        have value := digit_byte (n % 10) (Nat.mod_lt n (by omega))
        have earlier := ih (n / 10) (by omega)
        simp only [digitsValue] at earlier
        simp only [digitsValue, List.foldl_append, List.foldl_cons, List.foldl_nil, earlier]
        omega

theorem decimal_length (n digits : Nat) (some_ : 0 < digits) (small : n < 10 ^ digits) :
    (decimal n).length ≤ digits := by
  rw [decimal, List.length_map]
  exact (Nat.length_toDigits_le_iff (by omega) some_).mpr small

theorem not_mem_decimal (n : Nat) (b : UInt8) (other : isdigit b = false) : b ∉ decimal n := by
  intro member
  rw [decimal_digits n b member] at other
  cases other

theorem digit_visible (b : UInt8) (digit : isdigit b = true) : isspace b = false := by
  simp only [isdigit, decide_eq_true_eq] at digit
  refine decide_eq_false (not_or.mpr ⟨?_, by omega⟩)
  rintro rfl
  simp [space] at digit

theorem decimal_head (n : Nat) : ∃ b rest, decimal n = b :: rest ∧ isdigit b = true := by
  obtain ⟨b, rest, same⟩ := List.exists_cons_of_ne_nil (decimal_ne_nil n)
  exact ⟨b, rest, same, decimal_digits n b (by rw [same]; exact List.mem_cons_self)⟩

theorem decimal_whole (n : Nat) : (decimal n).takeWhile isdigit = decimal n :=
  List.takeWhile_eq_self_iff.mpr (decimal_digits n)

theorem decimal_visible (n : Nat) (rest : List UInt8) :
    (decimal n ++ rest).dropWhile isspace = decimal n ++ rest := by
  obtain ⟨b, others, same, digit⟩ := decimal_head n
  rw [same, List.cons_append, List.dropWhile_cons_of_neg (by simp [digit_visible b digit])]

theorem atol_decimal (n : Nat) : atol (decimal n) = n := by
  obtain ⟨b, rest, same, first⟩ := decimal_head n
  have visible := decimal_visible n []
  have value := decimal_value n
  rw [List.append_nil] at visible
  rw [← decimal_whole n] at value
  rw [atol, visible]
  split
  · rename_i minus
    rw [same] at minus
    cases minus
    cases first
  · rename_i plus
    rw [same] at plus
    cases plus
    cases first
  · rw [value]

/-! Words and numbers at the beginning of a text. -/

def WordEnds (after : List UInt8) : Prop := after = [] ∨ ∃ b rest, after = b :: rest ∧ isspace b = true

theorem drop_while_head (p : UInt8 → Bool) (text rest : List UInt8) (b : UInt8)
    (dropped : text.dropWhile p = b :: rest) : p b = false := by
  have head := List.head?_dropWhile_not p text
  rw [dropped] at head
  exact head

theorem word_ends_drop (text : List UInt8) : WordEnds (text.dropWhile fun b => !isspace b) := by
  cases dropped : text.dropWhile fun b => !isspace b with
  | nil => exact Or.inl rfl
  | cons b rest =>
      have blank := drop_while_head _ text rest b dropped
      exact Or.inr ⟨b, rest, rfl, by simpa using blank⟩

theorem tokens_from_word (word text : List UInt8) (some_ : word ≠ []) :
    tokensFrom word text = (word ++ text.takeWhile fun b => !isspace b) ::
      tokens (text.dropWhile fun b => !isspace b) := by
  induction text generalizing word with
  | nil => rw [tokensFrom, if_neg some_, List.takeWhile_nil, List.append_nil]; rfl
  | cons b text ih =>
      cases blank : isspace b with
      | true => simp [tokensFrom, tokens, blank, some_]
      | false =>
          rw [tokensFrom, blank, if_neg (by decide), ih _ (by simp)]
          simp [blank]

theorem tokens_skip (text : List UInt8) : tokens text = tokens (text.dropWhile isspace) := by
  induction text with
  | nil => rfl
  | cons b text ih =>
      rw [List.dropWhile_cons]
      split
      · rename_i blank
        rw [← ih, tokens, tokensFrom, if_pos blank, if_pos rfl]
        rfl
      · rfl

theorem tokens_cons (text token : List UInt8) (others : List (List UInt8))
    (split : tokens text = token :: others) :
    ∃ after, text.dropWhile isspace = token ++ after ∧ WordEnds after ∧ tokens after = others := by
  rw [tokens_skip] at split
  cases dropped : text.dropWhile isspace with
  | nil =>
      rw [dropped] at split
      cases split
  | cons b rest =>
      have visible := drop_while_head isspace text rest b dropped
      rw [dropped, tokens, tokensFrom, visible, if_neg (by decide),
        tokens_from_word _ rest (by simp)] at split
      obtain ⟨rfl, rfl⟩ := List.cons.inj split
      refine ⟨_, ?_, word_ends_drop rest, rfl⟩
      rw [List.nil_append, List.cons_append, List.nil_append, List.cons_append,
        List.takeWhile_append_dropWhile]

theorem digits_append (text after : List UInt8) (ends : WordEnds after) :
    (text ++ after).takeWhile isdigit = text.takeWhile isdigit ∧
      (text ++ after).dropWhile isdigit = text.dropWhile isdigit ++ after := by
  induction text with
  | nil =>
      rcases ends with rfl | ⟨b, rest, rfl, blank⟩
      · exact ⟨rfl, rfl⟩
      · have other : isdigit b = false := by
          simp only [isspace, isdigit, decide_eq_true_eq, decide_eq_false_iff_not] at blank ⊢
          rintro ⟨low, high⟩
          rcases blank with rfl | small
          · exact absurd low (by decide)
          · omega
        simp [other]
  | cons b text ih =>
      rw [List.cons_append, List.takeWhile_cons, List.dropWhile_cons, List.takeWhile_cons,
        List.dropWhile_cons]
      cases isdigit b with
      | true => exact ⟨by simp [ih.1], by simpa using ih.2⟩
      | false => exact ⟨rfl, rfl⟩

theorem leading_append (word after rest : List UInt8) (n : Int) (ends : WordEnds after)
    (number : leading word = some (n, rest)) :
    leading (word ++ after) = some (n, rest ++ after) := by
  have some_ : word ≠ [] := by
    rintro rfl
    cases number
  have sign : (word ++ after).head? = word.head? := by
    rw [List.head?_append, List.head?_eq_some_head some_]
    rfl
  have rest_ : unsigned (word ++ after) = unsigned word ++ after := by
    rw [unsigned, unsigned, sign, List.tail_append_of_ne_nil some_]
    split <;> rfl
  obtain ⟨taken, dropped⟩ := digits_append (unsigned word) after ends
  rw [leading] at number ⊢
  rw [rest_, taken, dropped, sign]
  split at number
  · cases number
  · rename_i digits
    simp only [Option.some.injEq, Prod.mk.injEq] at number
    obtain ⟨value, rfl⟩ := number
    simp only [digits, ↓reduceIte, value]

theorem leading_decimal (n : Nat) : leading (decimal n) = some ((n : Int), []) := by
  obtain ⟨b, rest, same, first⟩ := decimal_head n
  have signless : ¬ ((decimal n).head? = some 45 ∨ (decimal n).head? = some 43) := by
    rw [same]
    rintro (minus | plus)
    · cases minus
      cases first
    · cases plus
      cases first
  have behind : (decimal n).dropWhile isdigit = [] :=
    List.dropWhile_eq_nil_iff.mpr (decimal_digits n)
  rw [leading, unsigned, if_neg signless, decimal_whole, behind, if_neg (decimal_ne_nil n),
    if_neg fun minus => signless (Or.inl minus), decimal_value]

end NetworkProgramming.CText
