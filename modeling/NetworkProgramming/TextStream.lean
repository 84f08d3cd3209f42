import Mathlib.Data.List.TakeWhile

/-!
A stream over a text that is all there, as formatted input reads it: once the end has been hit
nothing is read any more, and a variable that was to be read keeps its value.
-/

namespace NetworkProgramming

variable {Symbol : Type*}

structure TextStream (Symbol : Type*) where
  text : List Symbol
  good : Bool
  deriving DecidableEq

namespace TextStream

/-- The next word, behind what counts as space. -/
def word (space : Symbol → Bool) (s : TextStream Symbol) (old : List Symbol) :
    List Symbol × TextStream Symbol :=
  if s.good then
    let text := s.text.dropWhile space
    if text.isEmpty then (old, ⟨[], false⟩)
    else
      let rest := text.dropWhile fun b => !space b
      (text.takeWhile fun b => !space b, ⟨rest, !rest.isEmpty⟩)
  else (old, s)

def getline [DecidableEq Symbol] (delim : Symbol) (s : TextStream Symbol) (old : List Symbol) :
    List Symbol × TextStream Symbol :=
  if s.good then
    match s.text.dropWhile (· ≠ delim) with
    | [] => (s.text, ⟨[], false⟩)
    | _ :: rest => (s.text.takeWhile (· ≠ delim), ⟨rest, true⟩)
  else (old, s)

def get (s : TextStream Symbol) : TextStream Symbol :=
  if s.good then
    match s.text with
    | [] => ⟨[], false⟩
    | _ :: rest => ⟨rest, true⟩
  else s

variable [DecidableEq Symbol]

theorem getline_end (delim : Symbol) (text old : List Symbol) (absent : delim ∉ text) :
    getline delim ⟨text, true⟩ old = (text, ⟨[], false⟩) := by
  have all : text.dropWhile (· ≠ delim) = [] :=
    List.dropWhile_eq_nil_iff.mpr fun b member => by
      simpa using fun same : b = delim => absent (same ▸ member)
  rw [getline]
  simp only [if_true, all]

theorem getline_line (delim : Symbol) (line rest old : List Symbol) (absent : delim ∉ line) :
    getline delim ⟨line ++ delim :: rest, true⟩ old = (line, ⟨rest, true⟩) := by
  have before : ∀ b ∈ line, decide (b ≠ delim) = true := fun b member => by
    simpa using fun same : b = delim => absent (same ▸ member)
  have left : (line ++ delim :: rest).dropWhile (· ≠ delim) = delim :: rest := by
    rw [List.dropWhile_append_of_pos before, List.dropWhile_cons_of_neg (by simp)]
  have taken : (line ++ delim :: rest).takeWhile (· ≠ delim) = line := by
    rw [List.takeWhile_append_of_pos before, List.takeWhile_cons_of_neg (by simp), List.append_nil]
  rw [getline]
  simp only [if_true, left, taken]

theorem getline_cases (delim : Symbol) (text old : List Symbol) :
    (∃ line rest, text = line ++ delim :: rest ∧ delim ∉ line ∧
      getline delim ⟨text, true⟩ old = (line, ⟨rest, true⟩)) ∨
    (delim ∉ text ∧ getline delim ⟨text, true⟩ old = (text, ⟨[], false⟩)) := by
  by_cases member : delim ∈ text
  · obtain ⟨line, rest, rfl, absent⟩ := List.eq_append_cons_of_mem member
    exact Or.inl ⟨line, rest, rfl, absent, getline_line delim line rest old absent⟩
  · exact Or.inr ⟨member, getline_end delim text old member⟩

omit [DecidableEq Symbol] in
theorem get_length (text : List Symbol) : (get ⟨text, true⟩).text.length ≤ text.length := by
  cases text with
  | nil => exact Nat.le_refl 0
  | cons b rest => exact Nat.le_succ rest.length

omit [DecidableEq Symbol] in
theorem solid_word (space : Symbol → Bool) (word : List Symbol) (none_ : word.any space = false) :
    ∀ c ∈ word, space c = false := by
  intro c member
  simpa using List.any_eq_false.mp none_ c member

omit [DecidableEq Symbol] in
theorem word_found (space : Symbol → Bool) (before word rest old : List Symbol) (b : Symbol)
    (blank : ∀ c ∈ before, space c = true) (solid : ∀ c ∈ word, space c = false)
    (some_ : word ≠ []) (ends : space b = true) :
    TextStream.word space ⟨before ++ word ++ b :: rest, true⟩ old = (word, ⟨b :: rest, true⟩) := by
  have left : (before ++ word ++ b :: rest).dropWhile space = word ++ b :: rest := by
    obtain ⟨c, word, rfl⟩ := List.exists_cons_of_ne_nil some_
    rw [List.append_assoc, List.dropWhile_append_of_pos blank, List.cons_append,
      List.dropWhile_cons_of_neg (by simp [solid c List.mem_cons_self])]
  have inside : ∀ c ∈ word, (!space c) = true := fun c member => by rw [solid c member]; rfl
  have taken : (word ++ b :: rest).takeWhile (fun c => !space c) = word := by
    rw [List.takeWhile_append_of_pos inside, List.takeWhile_cons_of_neg (by simp [ends]),
      List.append_nil]
  have behind : (word ++ b :: rest).dropWhile (fun c => !space c) = b :: rest := by
    rw [List.dropWhile_append_of_pos inside, List.dropWhile_cons_of_neg (by simp [ends])]
  have more : (word ++ b :: rest).isEmpty = false := by simp
  rw [TextStream.word]
  simp only [if_true, left, more, Bool.false_eq_true, if_false, taken, behind, List.isEmpty_cons,
    Bool.not_false]

theorem getline_bad (delim : Symbol) (text old : List Symbol) :
    getline delim ⟨text, false⟩ old = (old, ⟨text, false⟩) := rfl

omit [DecidableEq Symbol] in
theorem get_bad (text : List Symbol) : get ⟨text, false⟩ = ⟨text, false⟩ := rfl

end TextStream

end NetworkProgramming
