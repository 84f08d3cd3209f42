import Mathlib.Data.List.TakeWhile

/-!
strtok of the C library with a set of delimiters, on a string that ends in its array: what
is left of the string is the state between two calls. `Words` is what it finds.
-/

namespace NetworkProgramming.Delimited

/-- The next token, if there is one, and the string behind the delimiter that ends it. -/
def strtok (delim : UInt8 → Bool) (text : List UInt8) : Option (List UInt8) × List UInt8 :=
  match text.dropWhile delim with
  | [] => (none, [])
  | b :: rest =>
      (some ((b :: rest).takeWhile fun b => !delim b),
        ((b :: rest).dropWhile fun b => !delim b).drop 1)

inductive Words (delim : UInt8 → Bool) : List (List UInt8) → List UInt8 → Prop where
  | blank (text : List UInt8) (blank : ∀ b ∈ text, delim b = true) : Words delim [] text
  | word {words : List (List UInt8)} (skipped word rest : List UInt8)
      (skips : ∀ b ∈ skipped, delim b = true) (some_ : word ≠ [])
      (inside : ∀ b ∈ word, delim b = false) (ends : ∀ b ∈ rest.head?, delim b = true) :
      Words delim words rest → Words delim (word :: words) (skipped ++ word ++ rest)

variable {delim : UInt8 → Bool} {words : List (List UInt8)} {word text rest : List UInt8}

theorem drop_delimiters (skipped : List UInt8) (skips : ∀ b ∈ skipped, delim b = true) :
    (skipped ++ text).dropWhile delim = text.dropWhile delim := by
  rw [List.dropWhile_append, List.dropWhile_eq_nil_iff.mpr skips]
  rfl

theorem split_word (inside : ∀ b ∈ word, delim b = false) (ends : ∀ b ∈ rest.head?, delim b = true) :
    ((word ++ rest).takeWhile fun b => !delim b) = word ∧
      ((word ++ rest).dropWhile fun b => !delim b) = rest := by
  have free : ∀ b ∈ word, (!delim b) = true := fun b member => by rw [inside b member]; rfl
  have stops : (rest.takeWhile fun b => !delim b) = [] ∧
      (rest.dropWhile fun b => !delim b) = rest := by
    cases rest with
    | nil => exact ⟨rfl, rfl⟩
    | cons b rest =>
        have blank := ends b rfl
        simp [blank]
  constructor
  · rw [List.takeWhile_append_of_pos free, stops.1, List.append_nil]
  · rw [List.dropWhile_append_of_pos free, stops.2]

theorem Words.tail (found : Words delim words text) (ends : ∀ b ∈ text.head?, delim b = true) :
    Words delim words (text.drop 1) := by
  cases found with
  | blank text blank => exact .blank _ fun b member => blank b (List.mem_of_mem_drop member)
  | word skipped word rest skips some_ inside ends_ behind =>
      cases skipped with
      | nil =>
          obtain ⟨b, more, rfl⟩ := List.exists_cons_of_ne_nil some_
          have delimiter := ends b rfl
          rw [inside b List.mem_cons_self] at delimiter
          cases delimiter
      | cons b skipped =>
          exact .word skipped word rest (fun d member => skips d (List.mem_cons_of_mem b member))
            some_ inside ends_ behind

theorem Words.append (found : Words delim words text) (behind : List UInt8)
    (blank : ∀ b ∈ behind, delim b = true) : Words delim words (text ++ behind) := by
  induction found with
  | blank text blanks =>
      refine .blank _ fun b member => ?_
      rcases List.mem_append.mp member with before | after
      · exact blanks b before
      · exact blank b after
  | word skipped word rest skips some_ inside ends _ ih =>
      rw [List.append_assoc]
      refine .word skipped word _ skips some_ inside ?_ ih
      cases rest with
      | nil =>
          intro b head
          exact blank b (List.mem_of_mem_head? head)
      | cons d rest => exact ends

theorem Words.bytes (found : Words delim words text) :
    ∀ b ∈ text, delim b = true ∨ ∃ word ∈ words, b ∈ word := by
  induction found with
  | blank text blanks => exact fun b member => Or.inl (blanks b member)
  | word skipped word rest skips _ _ _ _ ih =>
      intro b member
      rw [List.mem_append, List.mem_append] at member
      rcases member with (before | inside) | behind
      · exact Or.inl (skips b before)
      · exact Or.inr ⟨word, List.mem_cons_self, inside⟩
      · rcases ih b behind with blank | ⟨other, member, inside⟩
        · exact Or.inl blank
        · exact Or.inr ⟨other, List.mem_cons_of_mem word member, inside⟩

theorem Words.length_le (found : Words delim words text) :
    ∀ word ∈ words, word.length ≤ text.length := by
  induction found with
  | blank text blanks => exact List.forall_mem_nil _
  | word skipped word rest _ _ _ _ _ ih =>
      intro other member
      simp only [List.length_append]
      rcases List.mem_cons.mp member with rfl | later
      · omega
      · have within := ih other later
        omega

theorem strtok_blank (found : Words delim [] text) : strtok delim text = (none, []) := by
  cases found with
  | blank text blank => rw [strtok, List.dropWhile_eq_nil_iff.mpr blank]

theorem strtok_word (found : Words delim (word :: words) text) :
    ∃ rest, strtok delim text = (some word, rest) ∧ Words delim words rest := by
  cases found with
  | word skipped word rest skips some_ inside ends behind =>
      obtain ⟨b, more, rfl⟩ := List.exists_cons_of_ne_nil some_
      have visible : (skipped ++ b :: more ++ rest).dropWhile delim = b :: (more ++ rest) := by
        rw [List.append_assoc, drop_delimiters skipped skips, List.cons_append,
          List.dropWhile_cons_of_neg (by simp [inside b List.mem_cons_self])]
      obtain ⟨taken, dropped⟩ := split_word inside ends
      rw [List.cons_append] at taken dropped
      refine ⟨rest.drop 1, ?_, behind.tail ends⟩
      rw [strtok, visible]
      simp only [taken, dropped]

theorem words_exist (delim : UInt8 → Bool) (text : List UInt8) : ∃ words, Words delim words text := by
  induction text with
  | nil => exact ⟨[], .blank [] (List.forall_mem_nil _)⟩
  | cons b text ih =>
      obtain ⟨words, found⟩ := ih
      cases blank : delim b with
      | true =>
          cases found with
          | blank text blanks => exact ⟨[], .blank _ (List.forall_mem_cons.mpr ⟨blank, blanks⟩)⟩
          | @word words skipped word rest skips some_ inside ends behind =>
              exact ⟨word :: words, .word (b :: skipped) word rest
                (List.forall_mem_cons.mpr ⟨blank, skips⟩) some_ inside ends behind⟩
      | false =>
          have alone : ∀ d ∈ [b], delim d = false := by simpa using blank
          cases found with
          | blank text blanks =>
              refine ⟨[[b]], .word [] [b] text (List.forall_mem_nil _) (by simp) alone ?_
                (.blank text blanks)⟩
              intro d head
              exact blanks d (List.mem_of_mem_head? head)
          | @word words skipped word rest skips some_ inside ends behind =>
              cases skipped with
              | nil =>
                  exact ⟨(b :: word) :: words, .word [] (b :: word) rest (List.forall_mem_nil _)
                    (by simp) (List.forall_mem_cons.mpr ⟨blank, inside⟩) ends behind⟩
              | cons d skipped =>
                  refine ⟨[b] :: word :: words, .word [] [b] (d :: skipped ++ word ++ rest)
                    (List.forall_mem_nil _) (by simp) alone ?_
                    (.word (d :: skipped) word rest skips some_ inside ends behind)⟩
                  rintro _ ⟨⟩
                  exact skips d List.mem_cons_self

theorem second_token {first second : List UInt8} {more : List (List UInt8)}
    (found : Words delim (first :: second :: more) text) :
    (strtok delim text).1 = some first ∧
      (strtok delim (strtok delim text).2).1 = some second := by
  obtain ⟨rest, token, words⟩ := strtok_word found
  obtain ⟨last, next, -⟩ := strtok_word words
  rw [token, next]
  exact ⟨rfl, rfl⟩

theorem second_token_some {second : List UInt8}
    (token : (strtok delim (strtok delim text).2).1 = some second) :
    ∃ first more, Words delim (first :: second :: more) text := by
  obtain ⟨words, found⟩ := words_exist delim text
  match words, found with
  | [], found =>
      have nothing : Words delim [] [] := .blank [] (List.forall_mem_nil _)
      rw [strtok_blank found, strtok_blank nothing] at token
      cases token
  | [first], found =>
      obtain ⟨rest, one, none_⟩ := strtok_word found
      rw [one, strtok_blank none_] at token
      cases token
  | first :: other :: more, found =>
      have same := (second_token found).2
      rw [token, Option.some.injEq] at same
      exact ⟨first, more, same ▸ found⟩

end NetworkProgramming.Delimited
