import Mathlib.Data.List.Infix
import Mathlib.Logic.Function.Basic
import Mathlib.Tactic.Common

/-!
Lines of names and values, each with two symbols behind it that end the line, and
after the last of them an empty line. A reader who has seen an empty line has seen
all of them, and how much more is up to the connection.
-/

namespace NetworkProgramming.HeaderFields

variable {Symbol : Type*}

/-! The first place of a delimiter. -/

/-- Where a delimiter is not in a text without its last symbol, whoever has the delimiter has
the whole text. -/
theorem prefix_reaches (delim head seen rest : List Symbol) (none_ : ¬ delim <:+: head.dropLast)
    (has : delim <:+: seen) (within : seen <+: head ++ rest) : head <+: seen := by
  rcases List.prefix_or_prefix_of_prefix within (List.prefix_append head rest) with short | long
  · obtain ⟨more, rfl⟩ := short
    rcases List.eq_nil_or_concat more with rfl | ⟨init, last, rfl⟩
    · rw [List.append_nil]
    -- what has been seen ends before head does, and has the delimiter all the same
    · rw [List.concat_eq_append, ← List.append_assoc, List.dropLast_concat] at none_
      exact absurd (has.trans (List.prefix_append seen init).isInfix) none_
  · exact long

theorem infix_skip (first : Symbol) (delim line rest : List Symbol) (absent : first ∉ line)
    (has : first :: delim <:+: line ++ rest) : first :: delim <:+: rest := by
  induction line with
  | nil => exact has
  | cons b line ih =>
      rw [List.mem_cons, not_or] at absent
      rw [List.cons_append, List.infix_cons_iff] at has
      rcases has with here | later
      · rw [List.cons_prefix_cons] at here
        exact absurd here.1 absent.1
      · exact ih absent.2 later

variable {cr lf colon : Symbol}

theorem line_first (line seen rest : List Symbol) (absent : cr ∉ line)
    (has : [cr, lf] <:+: seen) (within : seen <+: line ++ [cr, lf] ++ rest) :
    line ++ [cr, lf] <+: seen := by
  refine prefix_reaches [cr, lf] _ seen rest (fun here => ?_) has within
  have short : (line ++ [cr, lf]).dropLast = line ++ [cr] :=
    List.dropLast_append_of_ne_nil (List.cons_ne_nil cr [lf])
  rw [short] at here
  have less := (infix_skip cr [lf] line [cr] absent here).length_le
  simp at less

/-! Lines. -/

def text (cr lf : Symbol) (lines : List (List Symbol)) : List Symbol :=
  lines.flatMap fun line => line ++ [cr, lf]

theorem text_cons (line : List Symbol) (lines : List (List Symbol)) :
    text cr lf (line :: lines) = line ++ cr :: lf :: text cr lf lines := by
  simp [text]

theorem text_length (lines : List (List Symbol)) : lines.length ≤ (text cr lf lines).length := by
  induction lines with
  | nil => exact Nat.le_refl 0
  | cons line lines ih =>
      rw [text_cons, List.length_append, List.length_cons, List.length_cons, List.length_cons]
      omega

def Plain (cr : Symbol) (lines : List (List Symbol)) : Prop :=
  ∀ line ∈ lines, line ≠ [] ∧ cr ∉ line

theorem no_blank (lines : List (List Symbol)) (apart : lf ≠ cr) (plain : Plain cr lines) :
    ¬ [cr, lf, cr, lf] <:+: text cr lf lines ++ [cr] ∧
      ¬ [cr, lf, cr, lf] <:+: cr :: lf :: (text cr lf lines ++ [cr]) := by
  induction lines with
  | nil =>
      constructor
      · intro here
        simpa [text] using here.length_le
      · intro here
        simpa [text] using here.length_le
  | cons line lines ih =>
      obtain ⟨⟨some_, absent⟩, others⟩ := List.forall_mem_cons.mp plain
      obtain ⟨-, behind⟩ := ih others
      rw [text_cons, List.append_assoc, List.cons_append, List.cons_append]
      constructor
      · intro here
        -- the delimiter begins behind the line, where the induction hypothesis is about it
        exact behind (infix_skip cr [lf, cr, lf] line _ absent here)
      · intro here
        rcases List.infix_cons_iff.mp here with now | later
        · -- the third symbol is the first one of the line
          obtain ⟨b, line, rfl⟩ := List.exists_cons_of_ne_nil some_
          simp only [List.cons_append, List.cons_prefix_cons, true_and] at now
          exact absent (now.1 ▸ List.mem_cons_self)
        · have skipped : cr ∉ lf :: line := by
            rw [List.mem_cons, not_or]
            exact ⟨apart.symm, absent⟩
          exact behind (infix_skip cr [lf, cr, lf] (lf :: line) _ skipped later)

/-- Whoever has seen an empty line behind some lines has seen all of them. -/
theorem blank_first (lines : List (List Symbol)) (seen rest : List Symbol) (apart : lf ≠ cr)
    (plain : Plain cr lines) (has : [cr, lf, cr, lf] <:+: seen)
    (within : seen <+: text cr lf lines ++ [cr, lf] ++ rest) :
    text cr lf lines ++ [cr, lf] <+: seen := by
  refine prefix_reaches _ _ seen rest (fun here => ?_) has within
  have short : (text cr lf lines ++ [cr, lf]).dropLast = text cr lf lines ++ [cr] :=
    List.dropLast_append_of_ne_nil (List.cons_ne_nil cr [lf])
  rw [short] at here
  exact (no_blank lines apart plain).1 here

theorem text_blank (lines : List (List Symbol)) (rest : List Symbol) (some_ : lines ≠ []) :
    [cr, lf, cr, lf] <:+: text cr lf lines ++ [cr, lf] ++ rest := by
  obtain ⟨front, line, rfl⟩ := (List.eq_nil_or_concat lines).resolve_left some_
  refine ⟨text cr lf front ++ line, rest, ?_⟩
  simp [text]

/-! Names and values. -/

structure Field (cr colon : Symbol) where
  name : List Symbol
  value : List Symbol
  name_line : cr ∉ name
  value_line : cr ∉ value
  name_ends : colon ∉ name

def Field.line (field : Field cr colon) : List Symbol := field.name ++ colon :: field.value

def fieldText (lf : Symbol) (fields : List (Field cr colon)) : List Symbol :=
  text cr lf (fields.map Field.line)

theorem fields_plain (fields : List (Field cr colon)) (apart : cr ≠ colon) :
    Plain cr (fields.map Field.line) := by
  intro line member
  obtain ⟨field, -, rfl⟩ := List.mem_map.mp member
  refine ⟨by simp [Field.line], ?_⟩
  simp only [Field.line, List.mem_append, List.mem_cons, not_or]
  exact ⟨field.name_line, apart, field.value_line⟩

variable [DecidableEq Symbol]

def enter (table : List Symbol → Option (List Symbol)) (fields : List (Field cr colon)) :
    List Symbol → Option (List Symbol) :=
  fields.foldl (fun table field => Function.update table field.name (some field.value)) table

theorem enter_cons (table : List Symbol → Option (List Symbol)) (field : Field cr colon)
    (fields : List (Field cr colon)) : enter table (field :: fields) =
      enter (Function.update table field.name (some field.value)) fields := rfl

theorem enter_other (table : List Symbol → Option (List Symbol)) (fields : List (Field cr colon))
    (name : List Symbol) (other : ∀ field ∈ fields, field.name ≠ name) :
    enter table fields name = table name := by
  induction fields generalizing table with
  | nil => rfl
  | cons field fields ih =>
      obtain ⟨apart, others⟩ := List.forall_mem_cons.mp other
      rw [enter_cons, ih _ others, Function.update_of_ne apart.symm]

theorem enter_distinct (fields : List (Field cr colon)) (distinct : (fields.map Field.name).Nodup)
    (table : List Symbol → Option (List Symbol)) (name value : List Symbol)
    (new : table name = none) :
    enter table fields name = some value ↔
      ∃ field ∈ fields, field.name = name ∧ field.value = value := by
  induction fields generalizing table with
  | nil => simp [enter, new]
  | cons field fields ih =>
      rw [List.map_cons, List.nodup_cons] at distinct
      rw [List.exists_mem_cons_iff, enter_cons]
      by_cases here : field.name = name
      · subst here
        have others : ∀ other ∈ fields, other.name ≠ field.name := fun other member same =>
          distinct.1 (same ▸ List.mem_map_of_mem member)
        rw [enter_other _ fields _ others, Function.update_self, Option.some.injEq]
        constructor
        · intro same
          exact Or.inl ⟨rfl, same⟩
        · rintro (⟨-, same⟩ | ⟨other, member, same, -⟩)
          · exact same
          · exact absurd same (others other member)
      · have still : Function.update table field.name (some field.value) name = none := by
          rw [Function.update_of_ne (Ne.symm here), new]
        rw [ih distinct.2 _ still]
        simp [here]

end NetworkProgramming.HeaderFields
