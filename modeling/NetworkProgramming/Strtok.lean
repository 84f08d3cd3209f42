import Mathlib.Data.List.Basic

/-!
strtok of the C library with one delimiter. The saved pointer cuts the array in
two, and a search that comes to the end of the array without an end of string
runs past it: that is `none`.
-/

namespace NetworkProgramming.Strtok

/-- What comes before the first byte that stops a search, and the rest from it on. -/
def until_ (stop : UInt8 → Bool) : List UInt8 → Option (List UInt8 × List UInt8)
  | [] => none
  | b :: rest =>
      if stop b then some ([], b :: rest)
      else (until_ stop rest).map fun r => (b :: r.1, r.2)

theorem until_split (stop : UInt8 → Bool) (text before after : List UInt8)
    (found : until_ stop text = some (before, after)) :
    before ++ after = text ∧ (∀ b ∈ before, stop b = false) ∧
      ∃ b rest, after = b :: rest ∧ stop b = true := by
  induction text generalizing before with
  | nil => simp [until_] at found
  | cons b text ih =>
      rw [until_] at found
      split at found
      · rename_i here
        simp only [Option.some.injEq, Prod.mk.injEq] at found
        obtain ⟨rfl, rfl⟩ := found
        exact ⟨rfl, by simp, b, text, rfl, here⟩
      · rename_i here
        obtain ⟨⟨tail, end_⟩, later, same⟩ := Option.map_eq_some_iff.mp found
        simp only [Prod.mk.injEq] at same
        obtain ⟨rfl, rfl⟩ := same
        obtain ⟨whole, free, last⟩ := ih tail later
        refine ⟨by rw [List.cons_append, whole], ?_, last⟩
        intro d member
        rcases List.mem_cons.mp member with rfl | inside
        · simpa using here
        · exact free d inside

theorem until_found (stop : UInt8 → Bool) (before : List UInt8) (b : UInt8) (rest : List UInt8)
    (free : ∀ d ∈ before, stop d = false) (here : stop b = true) :
    until_ stop (before ++ b :: rest) = some (before, b :: rest) := by
  induction before with
  | nil => rw [List.nil_append, until_, if_pos here]
  | cons d before ih =>
      rw [List.cons_append, until_, free d List.mem_cons_self, if_neg (by decide),
        ih fun c inside => free c (List.mem_cons_of_mem d inside), Option.map_some]

theorem until_none_iff (stop : UInt8 → Bool) (text : List UInt8) :
    until_ stop text = none ↔ ∀ b ∈ text, stop b = false := by
  induction text with
  | nil => simp [until_]
  | cons b text ih =>
      rw [until_]
      split
      · rename_i here
        simp [here]
      · rename_i here
        simp [here, ih]

structure Saved where
  passed : List UInt8
  ahead : List UInt8
  deriving DecidableEq

def Saved.array (s : Saved) : List UInt8 := s.passed ++ s.ahead

/-- The token, or NULL, and the pointer that is kept for the next call. -/
def strtok (delim : UInt8) (s : Saved) : Option (Option (List UInt8) × Saved) :=
  match until_ (fun b => decide (b ≠ delim)) s.ahead with
  | none => none
  | some (skipped, first) =>
      if first.head? = some 0 then some (none, ⟨s.passed ++ skipped, first⟩)
      else
        match until_ (fun b => decide (b = 0 ∨ b = delim)) first with
        | none => none
        | some (token, after) =>
            if after.head? = some 0 then some (some token, ⟨s.passed ++ skipped ++ token, after⟩)
            else some (some token, ⟨s.passed ++ skipped ++ token ++ [0], after.tail⟩)

inductive Returns (delim : UInt8) (s : Saved) : Option (List UInt8) → Saved → Prop where
  | null {skipped rest : List UInt8} :
      s.ahead = skipped ++ 0 :: rest → (∀ b ∈ skipped, b = delim) →
      Returns delim s none ⟨s.passed ++ skipped, 0 :: rest⟩
  /-- The last token of the string. -/
  | last {skipped token rest : List UInt8} :
      s.ahead = skipped ++ (token ++ 0 :: rest) → (∀ b ∈ skipped, b = delim) → token ≠ [] →
      (∀ b ∈ token, b ≠ 0 ∧ b ≠ delim) →
      Returns delim s (some token) ⟨s.passed ++ skipped ++ token, 0 :: rest⟩
  | token {skipped token rest : List UInt8} :
      s.ahead = skipped ++ (token ++ delim :: rest) → (∀ b ∈ skipped, b = delim) → token ≠ [] →
      (∀ b ∈ token, b ≠ 0 ∧ b ≠ delim) →
      Returns delim s (some token) ⟨s.passed ++ skipped ++ token ++ [0], rest⟩

theorem strtok_returns (delim : UInt8) (s : Saved) (token : Option (List UInt8)) (kept : Saved)
    (returned : strtok delim s = some (token, kept)) :
    Returns delim s token kept := by
  rw [strtok] at returned
  split at returned
  · cases returned
  · rename_i skipped first found
    obtain ⟨whole, blank, b, rest, rfl, visible⟩ := until_split _ _ _ _ found
    have skips : ∀ d ∈ skipped, d = delim := fun d member => by simpa using blank d member
    have other : b ≠ delim := by simpa using visible
    split at returned
    · rename_i ended
      simp only [Option.some.injEq, Prod.mk.injEq] at returned
      obtain ⟨rfl, rfl⟩ := returned
      obtain rfl : b = 0 := by simpa using ended
      exact .null whole.symm skips
    · rename_i more
      split at returned
      · cases returned
      · rename_i text after here
        obtain ⟨parts, free, d, tail, rfl, stopped⟩ := until_split _ _ _ _ here
        have word : ∀ c ∈ text, c ≠ 0 ∧ c ≠ delim := fun c member => by
          simpa using free c member
        -- the byte that ended the search for blanks is the token's first
        have some_ : text ≠ [] := by
          rintro rfl
          simp only [List.nil_append, List.cons.injEq] at parts
          obtain ⟨rfl, -⟩ := parts
          simp [other] at stopped
          simp [stopped] at more
        rw [← parts] at whole
        split at returned
        · rename_i ended
          simp only [Option.some.injEq, Prod.mk.injEq] at returned
          obtain ⟨rfl, rfl⟩ := returned
          obtain rfl : d = 0 := by simpa using ended
          exact .last whole.symm skips some_ word
        · rename_i cut
          simp only [Option.some.injEq, Prod.mk.injEq] at returned
          obtain ⟨rfl, rfl⟩ := returned
          have same : d = delim := by
            rcases of_decide_eq_true stopped with zero | blank
            · simp [zero] at cut
            · exact blank
          subst d
          exact .token whole.symm skips some_ word

theorem skip_found (delim : UInt8) (skipped : List UInt8) (b : UInt8) (rest : List UInt8)
    (skips : ∀ d ∈ skipped, d = delim) (other : b ≠ delim) :
    until_ (fun d => decide (d ≠ delim)) (skipped ++ b :: rest) = some (skipped, b :: rest) := by
  refine until_found _ skipped b rest (fun d member => ?_) (by simpa using other)
  simpa using skips d member

theorem word_found (delim : UInt8) (word : List UInt8) (b : UInt8) (rest : List UInt8)
    (free : ∀ d ∈ word, d ≠ 0 ∧ d ≠ delim) (ends : b = 0 ∨ b = delim) :
    until_ (fun d => decide (d = 0 ∨ d = delim)) (word ++ b :: rest) = some (word, b :: rest) := by
  refine until_found _ word b rest (fun d member => ?_) (decide_eq_true ends)
  simpa using free d member

theorem returns_strtok (delim : UInt8) (s kept : Saved) (token : Option (List UInt8))
    (nul : delim ≠ 0) (returned : Returns delim s token kept) :
    strtok delim s = some (token, kept) := by
  cases returned with
  | null whole skips =>
      rw [strtok, whole, skip_found delim _ 0 _ skips (Ne.symm nul)]
      rfl
  | @last skipped text rest whole skips some_ word =>
      have found := word_found delim text 0 rest word (Or.inl rfl)
      obtain ⟨b, more, rfl⟩ := List.exists_cons_of_ne_nil some_
      have first := word b List.mem_cons_self
      rw [List.cons_append] at whole found
      rw [strtok, whole, skip_found delim _ b _ skips first.2]
      simp only [List.head?_cons, Option.some.injEq, first.1, ↓reduceIte, found]
  | @token skipped text rest whole skips some_ word =>
      have found := word_found delim text delim rest word (Or.inr rfl)
      obtain ⟨b, more, rfl⟩ := List.exists_cons_of_ne_nil some_
      have first := word b List.mem_cons_self
      rw [List.cons_append] at whole found
      rw [strtok, whole, skip_found delim _ b _ skips first.2]
      simp only [List.head?_cons, Option.some.injEq, first.1, ↓reduceIte, found, nul,
        List.tail_cons]

/-- A call runs past the end where there are only blanks and a word before it. -/
theorem strtok_none_iff (delim : UInt8) (s : Saved) :
    strtok delim s = none ↔ ∃ skipped word, s.ahead = skipped ++ word ∧
      (∀ b ∈ skipped, b = delim) ∧ ∀ b ∈ word, b ≠ 0 ∧ b ≠ delim := by
  constructor
  · intro past
    rw [strtok] at past
    split at past
    · rename_i blank
      rw [until_none_iff] at blank
      exact ⟨s.ahead, [], (List.append_nil _).symm, fun b member => by simpa using blank b member,
        by simp⟩
    · rename_i skipped first found
      obtain ⟨whole, blank, -⟩ := until_split _ _ _ _ found
      split at past
      · cases past
      · split at past
        · rename_i unended
          rw [until_none_iff] at unended
          exact ⟨skipped, first, whole.symm, fun b member => by simpa using blank b member,
            fun b member => by simpa using unended b member⟩
        · split at past <;> cases past
  · rintro ⟨skipped, word, whole, skips, free⟩
    have unended : until_ (fun d => decide (d = 0 ∨ d = delim)) word = none :=
      (until_none_iff _ _).mpr fun b member => by simpa using free b member
    cases word with
    | nil =>
        have blank : until_ (fun d => decide (d ≠ delim)) s.ahead = none := by
          rw [until_none_iff, whole, List.append_nil]
          exact fun b member => by simpa using skips b member
        rw [strtok, blank]
    | cons b word =>
        have first := free b List.mem_cons_self
        rw [strtok, whole, skip_found delim _ b _ skips first.2]
        simp only [List.head?_cons, Option.some.injEq, first.1, ↓reduceIte, unended]

/-! What lies behind an array is of no account to a search that ends in it, and a
search that does not goes on there. -/

theorem strtok_append (delim : UInt8) (s : Saved) (tail : List UInt8) (nul : delim ≠ 0)
    (token : Option (List UInt8)) (kept : Saved) (returned : strtok delim s = some (token, kept)) :
    strtok delim ⟨s.passed, s.ahead ++ tail⟩ = some (token, ⟨kept.passed, kept.ahead ++ tail⟩) := by
  refine returns_strtok delim _ _ token nul ?_
  cases strtok_returns delim s token kept returned with
  | null whole skips => exact .null (by simp [whole]) skips
  | last whole skips some_ word => exact .last (by simp [whole]) skips some_ word
  | token whole skips some_ word => exact .token (by simp [whole]) skips some_ word

theorem strtok_past (delim : UInt8) (s : Saved) (tail : List UInt8)
    (word : ∀ b ∈ tail, b ≠ 0 ∧ b ≠ delim) (past : strtok delim s = none) :
    strtok delim ⟨s.passed, s.ahead ++ tail⟩ = none := by
  obtain ⟨skipped, first, whole, skips, free⟩ := (strtok_none_iff delim s).mp past
  refine (strtok_none_iff delim _).mpr ⟨skipped, first ++ tail, by simp [whole], skips, ?_⟩
  intro b member
  rcases List.mem_append.mp member with inside | behind
  · exact free b inside
  · exact word b behind

theorem strtok_terminated (delim : UInt8) (s : Saved) (nul : delim ≠ 0) (ended : 0 ∈ s.ahead) :
    ∃ token kept, strtok delim s = some (token, kept) ∧ 0 ∈ kept.ahead := by
  cases returned : strtok delim s with
  | none =>
      obtain ⟨skipped, word, whole, skips, free⟩ := (strtok_none_iff delim s).mp returned
      rw [whole, List.mem_append] at ended
      rcases ended with blank | inside
      · exact absurd (skips 0 blank).symm nul
      · exact absurd rfl (free 0 inside).1
  | some result =>
      obtain ⟨token, kept⟩ := result
      refine ⟨token, kept, rfl, ?_⟩
      cases strtok_returns delim s token kept returned with
      | null _ _ => exact List.mem_cons_self
      | last _ _ _ _ => exact List.mem_cons_self
      | token whole skips _ word =>
          rw [whole, List.mem_append, List.mem_append, List.mem_cons] at ended
          rcases ended with blank | inside | zero | later
          · exact absurd (skips 0 blank).symm nul
          · exact absurd rfl (word 0 inside).1
          · exact absurd zero.symm nul
          · exact later

/-! The words of a text that a delimiter follows. -/

def finished (delim : UInt8) : List UInt8 → List UInt8 → List (List UInt8)
  | _, [] => []
  | word, b :: rest =>
      if b = delim then
        if word = [] then finished delim [] rest else word :: finished delim [] rest
      else finished delim (word ++ [b]) rest

def words (delim : UInt8) (text : List UInt8) : List (List UInt8) := finished delim [] text

theorem words_skip (delim : UInt8) (skipped rest : List UInt8) (skips : ∀ b ∈ skipped, b = delim) :
    words delim (skipped ++ rest) = words delim rest := by
  induction skipped with
  | nil => rfl
  | cons b skipped ih =>
      obtain rfl := skips b List.mem_cons_self
      rw [List.cons_append, words, finished, if_pos rfl, if_pos rfl]
      exact ih fun d member => skips d (List.mem_cons_of_mem b member)

theorem finished_word (delim : UInt8) (word more rest : List UInt8)
    (free : ∀ b ∈ more, b ≠ delim) :
    finished delim word (more ++ rest) = finished delim (word ++ more) rest := by
  induction more generalizing word with
  | nil => rw [List.nil_append, List.append_nil]
  | cons b more ih =>
      rw [List.cons_append, finished, if_neg (free b List.mem_cons_self),
        ih _ fun d member => free d (List.mem_cons_of_mem b member), List.append_assoc,
        List.singleton_append]

theorem strtok_words (delim : UInt8) (s : Saved) (free : 0 ∉ s.ahead) :
    words delim s.ahead = [] ∧ strtok delim s = none ∨
      ∃ token kept, words delim s.ahead = token :: words delim kept.ahead ∧
        strtok delim s = some (some token, kept) ∧ 0 ∉ kept.ahead := by
  cases returned : strtok delim s with
  | none =>
      obtain ⟨skipped, word, whole, skips, inside⟩ := (strtok_none_iff delim s).mp returned
      refine Or.inl ⟨?_, rfl⟩
      rw [whole, words_skip delim skipped word skips, words, ← List.append_nil word,
        finished_word delim [] word [] fun b member => (inside b member).2]
      rfl
  | some result =>
      obtain ⟨token, kept⟩ := result
      cases strtok_returns delim s token kept returned with
      | null whole _ => exact absurd (by rw [whole]; simp) free
      | last whole _ _ _ => exact absurd (by rw [whole]; simp) free
      | @token skipped text rest whole skips some_ word =>
          refine Or.inr ⟨text, _, ?_, rfl, ?_⟩
          · rw [whole, words_skip delim skipped _ skips, words,
              finished_word delim [] text _ fun b member => (word b member).2, List.nil_append,
              finished, if_pos rfl, if_neg some_]
            rfl
          · intro member
            apply free
            rw [whole, List.mem_append, List.mem_append, List.mem_cons]
            exact Or.inr (Or.inr (Or.inr member))

end NetworkProgramming.Strtok
