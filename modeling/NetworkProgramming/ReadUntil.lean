import Mathlib.Data.List.Infix
import Mathlib.Tactic.Common

/-!
Reading from a connection until a delimiter is in the buffer. The text comes in
chunks; of a chunk no more is taken than the buffer has room for, and what has
been read behind the delimiter stays in the buffer.
-/

namespace NetworkProgramming.ReadUntil

variable {Symbol : Type*} [DecidableEq Symbol]

/-- The delimiter is in the buffer, or the buffer is full, or nothing more comes. -/
inductive Ending where
  | found
  | full
  | ended
  deriving DecidableEq

structure Result (Symbol : Type*) where
  ending : Ending
  buffer : List Symbol
  rest : List (List Symbol)
  deriving DecidableEq

def full (size : Option Nat) (buffer : List Symbol) : Bool := size.any (· ≤ buffer.length)

def visible (size : Option Nat) (text : List Symbol) : List Symbol :=
  match size with
  | none => text
  | some n => text.take n

def readUntil (delim : List Symbol) (size : Option Nat) :
    List Symbol → List (List Symbol) → Result Symbol
  | buffer, [] =>
      ⟨if delim <:+: buffer then .found else if full size buffer then .full else .ended, buffer, []⟩
  | buffer, chunk :: chunks =>
      if delim <:+: buffer then ⟨.found, buffer, chunk :: chunks⟩
      else if full size buffer then ⟨.full, buffer, chunk :: chunks⟩
      else
        let taken := visible size (buffer ++ chunk)
        if taken = buffer ++ chunk then readUntil delim size (buffer ++ chunk) chunks
        else
          ⟨if delim <:+: taken then .found else .full, taken,
            (buffer ++ chunk).drop taken.length :: chunks⟩

omit [DecidableEq Symbol] in
theorem visible_start (size : Option Nat) (text : List Symbol) : visible size text <+: text := by
  cases size with
  | none => exact List.prefix_refl text
  | some n => exact List.take_prefix n text

omit [DecidableEq Symbol] in
theorem visible_rest (size : Option Nat) (text : List Symbol) :
    visible size text ++ text.drop (visible size text).length = text :=
  List.prefix_iff_eq_append.mp (visible_start size text)

omit [DecidableEq Symbol] in
theorem visible_append (size : Option Nat) (text more : List Symbol)
    (fits : visible size text = text) : text <+: visible size (text ++ more) := by
  cases size with
  | none => exact List.prefix_append text more
  | some n =>
      have short : text.length ≤ n := by
        rw [← fits, visible]
        exact List.length_take_le n text
      rw [visible, List.take_append, List.take_of_length_le short]
      exact List.prefix_append text _

omit [DecidableEq Symbol] in
theorem visible_cut (size : Option Nat) (text more : List Symbol)
    (large : visible size text ≠ text) : visible size (text ++ more) = visible size text := by
  cases size with
  | none => exact absurd rfl large
  | some n =>
      have long : n ≤ text.length := by
        by_contra short
        exact large (List.take_of_length_le (by omega))
      rw [visible, visible, List.take_append_of_le_length long]

omit [DecidableEq Symbol] in
theorem visible_full (size : Option Nat) (buffer more : List Symbol)
    (fits : visible size buffer = buffer) (all : full size buffer = true) :
    visible size (buffer ++ more) = buffer := by
  cases size with
  | none => simp [full] at all
  | some n =>
      have long : n ≤ buffer.length := by simpa [full] using all
      rw [visible, List.take_append_of_le_length long]
      exact fits

omit [DecidableEq Symbol] in
theorem visible_some (n : Nat) (text : List Symbol) :
    visible (some n) text = text ↔ text.length ≤ n := by
  rw [visible, List.take_eq_self_iff]

omit [DecidableEq Symbol] in
theorem visible_visible (size : Option Nat) (text : List Symbol) :
    visible size (visible size text) = visible size text := by
  cases size with
  | none => rfl
  | some n => exact (visible_some n _).mpr (List.length_take_le n text)

theorem read_until_whole (delim : List Symbol) (size : Option Nat) (buffer : List Symbol)
    (chunks : List (List Symbol)) :
    (readUntil delim size buffer chunks).buffer ++
      (readUntil delim size buffer chunks).rest.flatten = buffer ++ chunks.flatten := by
  induction chunks generalizing buffer with
  | nil => rfl
  | cons chunk chunks ih =>
      rw [readUntil]
      split
      · rfl
      · split
        · rfl
        · dsimp only
          split
          · rw [ih, List.flatten_cons, List.append_assoc]
          -- what the buffer has no room for is still to be read
          · rw [List.flatten_cons, List.flatten_cons, ← List.append_assoc, visible_rest,
              List.append_assoc]

theorem read_until_extends (delim : List Symbol) (size : Option Nat) (buffer : List Symbol)
    (chunks : List (List Symbol)) (fits : visible size buffer = buffer) :
    buffer <+: (readUntil delim size buffer chunks).buffer := by
  induction chunks generalizing buffer with
  | nil => exact List.prefix_refl buffer
  | cons chunk chunks ih =>
      rw [readUntil]
      split
      · exact List.prefix_refl buffer
      · split
        · exact List.prefix_refl buffer
        · dsimp only
          split
          · rename_i whole
            exact (List.prefix_append buffer chunk).trans (ih (buffer ++ chunk) whole)
          · exact visible_append size buffer chunk fits

theorem read_until_fits (delim : List Symbol) (size : Option Nat) (buffer : List Symbol)
    (chunks : List (List Symbol)) (fits : visible size buffer = buffer) :
    visible size (readUntil delim size buffer chunks).buffer =
      (readUntil delim size buffer chunks).buffer := by
  induction chunks generalizing buffer with
  | nil => exact fits
  | cons chunk chunks ih =>
      rw [readUntil]
      split
      · exact fits
      · split
        · exact fits
        · dsimp only
          split
          · rename_i whole
            exact ih (buffer ++ chunk) whole
          · exact visible_visible size (buffer ++ chunk)

theorem read_until_has (delim : List Symbol) (size : Option Nat) (buffer : List Symbol)
    (chunks : List (List Symbol)) :
    (readUntil delim size buffer chunks).ending = .found ↔
      delim <:+: (readUntil delim size buffer chunks).buffer := by
  induction chunks generalizing buffer with
  | nil =>
      rw [readUntil]
      by_cases here : delim <:+: buffer
      · simp [here]
      · by_cases all : full size buffer = true <;> simp [here, all]
  | cons chunk chunks ih =>
      rw [readUntil]
      by_cases here : delim <:+: buffer
      · simp [here]
      · rw [if_neg here]
        by_cases all : full size buffer = true
        · simp [here, all]
        · rw [if_neg all]
          dsimp only
          split
          · exact ih (buffer ++ chunk)
          · by_cases there : delim <:+: visible size (buffer ++ chunk) <;> simp [there]

theorem read_until_found (delim : List Symbol) (size : Option Nat) (buffer : List Symbol)
    (chunks : List (List Symbol)) (fits : visible size buffer = buffer) :
    (readUntil delim size buffer chunks).ending = .found ↔
      delim <:+: visible size (buffer ++ chunks.flatten) := by
  induction chunks generalizing buffer with
  | nil =>
      rw [read_until_has, readUntil, List.flatten_nil, List.append_nil, fits]
  | cons chunk chunks ih =>
      have shown : buffer <+: visible size (buffer ++ (chunk :: chunks).flatten) :=
        visible_append size buffer _ fits
      rw [readUntil]
      by_cases here : delim <:+: buffer
      · rw [if_pos here]
        exact iff_of_true rfl (here.trans shown.isInfix)
      · rw [if_neg here]
        by_cases all : full size buffer = true
        · rw [if_pos all, visible_full size buffer _ fits all]
          simp [here]
        -- a chunk goes into the buffer whole, or it fills the buffer and the loop ends there
        · rw [if_neg all, List.flatten_cons, ← List.append_assoc]
          dsimp only
          split
          · exact ih (buffer ++ chunk) ‹_›
          · rename_i large
            rw [visible_cut size (buffer ++ chunk) _ large]
            by_cases there : delim <:+: visible size (buffer ++ chunk) <;> simp [there]

end NetworkProgramming.ReadUntil
