import NetworkProgramming.CText
import NetworkProgramming.Machine

/-!
readline with a buffer of its own: lib/readline.c, where the buffer is static, and
unpv13e/threads/readline.c, where each thread has one. `lookAhead` is what
`read_ptr` and `read_cnt` leave of `read_buf`. A channel is what the next calls
of read on a descriptor return; at its end is end-of-file.
-/

namespace NetworkProgramming.Readline

open CText

/-- A read of at least one byte, an interrupted one, or one that fails. -/
inductive Read where
  | data (first : UInt8) (more : List UInt8)
  | eintr
  | error
  deriving DecidableEq

abbrev Channel := List Read

structure Reader where
  lookAhead : List UInt8
  channel : Channel
  deriving DecidableEq

inductive Got where
  | byte (c : UInt8)
  | eof
  | error
  deriving DecidableEq

-- The part of my_read from the label `again`.
def again : Channel → Got × Reader
  | [] => (.eof, ⟨[], []⟩)
  | .eintr :: rest => again rest
  | .error :: rest => (.error, ⟨[], rest⟩)
  | .data first more :: rest => (.byte first, ⟨more, rest⟩)

def myRead : Reader → Got × Reader
  | ⟨c :: lookAhead, channel⟩ => (.byte c, ⟨lookAhead, channel⟩)
  | ⟨[], channel⟩ => again channel

/-- What readline returns, and the bytes it has stored; `none` for -1. -/
abbrev Returned := Option (Nat × List UInt8)

def loop : Nat → Nat → Reader → Returned × Reader
  | 0, n, r => (some (n, []), r)
  | left + 1, n, r => match myRead r with
      | (.byte c, r') =>
          if c = newline then (some (n, [c]), r')
          else ((loop left (n + 1) r').1.map fun stored => (stored.1, c :: stored.2),
            (loop left (n + 1) r').2)
      | (.eof, r') => (some (n - 1, []), r')
      | (.error, r') => (none, r')

def readline (maxlen : Nat) (r : Reader) : Returned × Reader := loop (maxlen - 1) 1 r

/-! The stream a reader has before it. -/

def bytes : Channel → List UInt8
  | [] => []
  | .data first more :: rest => first :: more ++ bytes rest
  | .eintr :: rest => bytes rest
  | .error :: rest => bytes rest

def Reader.stream (r : Reader) : List UInt8 := r.lookAhead ++ bytes r.channel

theorem again_byte (channel : Channel) (c : UInt8) (r : Reader)
    (got : again channel = (.byte c, r)) : bytes channel = c :: r.stream := by
  induction channel with
  | nil => cases got
  | cons read rest ih =>
      cases read with
      | data first more =>
          simp only [again, Prod.mk.injEq, Got.byte.injEq] at got
          obtain ⟨rfl, rfl⟩ := got
          rfl
      | eintr => exact ih got
      | error => simp [again] at got

theorem again_eof (channel : Channel) (r : Reader) (got : again channel = (.eof, r)) :
    bytes channel = [] ∧ r = ⟨[], []⟩ := by
  induction channel with
  | nil =>
      simp only [again, Prod.mk.injEq, true_and] at got
      exact ⟨rfl, got.symm⟩
  | cons read rest ih =>
      cases read with
      | data first more => simp [again] at got
      | eintr => exact ih got
      | error => simp [again] at got

theorem my_read_byte (r r' : Reader) (c : UInt8) (got : myRead r = (.byte c, r')) :
    r.stream = c :: r'.stream := by
  obtain ⟨lookAhead, channel⟩ := r
  cases lookAhead with
  | nil => exact again_byte channel c r' got
  | cons first rest =>
      simp only [myRead, Prod.mk.injEq, Got.byte.injEq] at got
      obtain ⟨rfl, rfl⟩ := got
      rfl

theorem my_read_eof (r r' : Reader) (got : myRead r = (.eof, r')) :
    r.stream = [] ∧ r' = ⟨[], []⟩ := by
  obtain ⟨lookAhead, channel⟩ := r
  cases lookAhead with
  | nil => exact again_eof channel r' got
  | cons first rest => simp [myRead] at got

/-- However the stream comes in, the loop stores its next line, or as much of it
as it has rounds for, and leaves the rest. -/
theorem loop_line (left n : Nat) (r r' : Reader) (stored : Nat × List UInt8)
    (done : loop left n r = (some stored, r')) :
    (stored.2, r'.stream) = getsLine left r.stream := by
  induction left generalizing n r r' stored with
  | zero =>
      simp only [loop, Prod.mk.injEq, Option.some.injEq] at done
      obtain ⟨rfl, rfl⟩ := done
      rfl
  | succ left ih =>
      cases got : myRead r with
      | mk result next =>
          cases result with
          | byte c =>
              rw [my_read_byte r next c got, getsLine]
              simp only [loop, got] at done
              split at done
              · rename_i last
                simp only [Prod.mk.injEq, Option.some.injEq] at done
                obtain ⟨rfl, rfl⟩ := done
                rw [if_pos last]
              · rename_i inside
                simp only [Prod.mk.injEq, Option.map_eq_some_iff] at done
                obtain ⟨⟨later, found, rfl⟩, rfl⟩ := done
                have tail := ih (n + 1) next _ later (Prod.ext found rfl)
                rw [if_neg inside, ← tail]
          | eof =>
              obtain ⟨none_left, rfl⟩ := my_read_eof r next got
              simp only [loop, got, Prod.mk.injEq, Option.some.injEq] at done
              obtain ⟨rfl, rfl⟩ := done
              rw [none_left]
              rfl
          | error => simp [loop, got] at done

theorem readline_line (maxlen : Nat) (r r' : Reader) (stored : Nat × List UInt8)
    (done : readline maxlen r = (some stored, r')) :
    (stored.2, r'.stream) = getsLine (maxlen - 1) r.stream :=
  loop_line (maxlen - 1) 1 r r' stored done

theorem readline_stream (maxlen : Nat) (r r' : Reader) (stored : Nat × List UInt8)
    (done : readline maxlen r = (some stored, r')) : stored.2 ++ r'.stream = r.stream := by
  have line := readline_line maxlen r r' stored done
  have whole := gets_line_append (maxlen - 1) r.stream
  rw [← line] at whole
  exact whole

theorem loop_buffered (left n : Nat) (c : UInt8) (lookAhead : List UInt8) (channel : Channel)
    (stored : Nat × List UInt8) (r' : Reader)
    (done : loop (left + 1) n ⟨c :: lookAhead, channel⟩ = (some stored, r')) :
    ∃ more, stored.2 = c :: more := by
  have line := loop_line _ _ _ _ _ done
  have first : getsLine (left + 1) (Reader.stream ⟨c :: lookAhead, channel⟩) =
      if c = newline then ([c], lookAhead ++ bytes channel)
      else (c :: (getsLine left (lookAhead ++ bytes channel)).1,
        (getsLine left (lookAhead ++ bytes channel)).2) := rfl
  rw [first] at line
  split at line
  · exact ⟨[], congrArg Prod.fst line⟩
  · exact ⟨_, congrArg Prod.fst line⟩

end NetworkProgramming.Readline
