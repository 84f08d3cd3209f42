import NetworkProgramming.CText
import NetworkProgramming.Machine
import NetworkProgramming.Threads

/-!
unpv22e/lock/lockmain.c with the lock of locksvsem.c, run by any number of
processes. A step is one system call of a process with the code after it, up
to the next one. All of them name the same semaphore, which is not there at
first and is never removed.
-/

namespace NetworkProgramming.Lockmain

open CText

def MAX_TRIES : Nat := 10
def MAXLINE : Nat := 4096

def rounds : Nat := 20

/-! A long and its text. -/

def LONG_MAX : Int := 9223372036854775807
def LONG_MIN : Int := -9223372036854775808

/-- Sums of longs go round. -/
def toLong (n : Int) : Int := (n + 9223372036854775808) % 18446744073709551616 - 9223372036854775808

/-- What `%ld` makes of a number that is too large for a long. -/
def clamp (n : Int) : Int := if n > LONG_MAX then LONG_MAX else if n < LONG_MIN then LONG_MIN else n

/-- sscanf with `%ld` of a line that ends with its first NUL. -/
def sscanf (line : List UInt8) : Option Int :=
  (leading ((cString line).dropWhile isspace)).map fun number => clamp number.1

def long (n : Int) : List UInt8 :=
  (if n < 0 then [45] else []) ++ decimal n.natAbs ++ [newline]

def number (file : List UInt8) : Option Int := sscanf (file.take MAXLINE)

/-! A semaphore set of one, as semop and semctl see it. -/

/-- `undo` is what SEM_UNDO has noted down for each process. -/
structure Sem (Proc : Type*) where
  semval : Int
  otime : Bool
  undo : Proc → Int

inductive Place where
  | semgetExcl
  | setval
  | semget
  | stat (i : Nat)
  | sleep (i : Nat)
  | down
  | rewind
  | read
  | rewindAgain
  | write
  | up
  | exit
  | finished
  | gaveUp
  deriving DecidableEq

/-- `i` counts the rounds of main; `seqno` has any value before the first sscanf. -/
structure Task where
  place : Place
  initflag : Bool
  i : Nat
  seqno : Int
  line : List UInt8
  offset : Nat
  deriving DecidableEq

structure State (Proc : Type*) where
  task : Proc → Task
  sem : Option (Sem Proc)
  file : List UInt8

/-- The process that goes on, and the value that a new semaphore happens to have. -/
structure Action (Proc : Type*) where
  proc : Proc
  value : Int
  deriving DecidableEq

inductive Event (Proc : Type*) where
  | setval (p : Proc)
  | down (p : Proc)
  | quiet
  deriving DecidableEq

abbrev Step (Proc : Type*) := Transition (State Proc) (Action Proc) (Event Proc)

variable {Proc : Type*} [DecidableEq Proc]

structure Result (Proc : Type*) where
  task : Task
  sem : Option (Sem Proc)
  file : List UInt8
  event : Event Proc

def Task.lock (task : Task) : Task :=
  { task with place := if task.initflag = false then .semgetExcl else .down }

def Task.init (task : Task) : Task := { task with initflag := true, place := .down }

def Task.next (task : Task) : Task :=
  if task.i + 1 < rounds then { task with i := task.i + 1 }.lock
  else { task with i := task.i + 1, place := .exit }

def Task.increment (task : Task) (file : List UInt8) : Task :=
  let line := (file.drop task.offset).take MAXLINE
  let seqno := toLong ((sscanf line).getD task.seqno + 1)
  { task with
    place := .rewindAgain
    seqno := seqno
    line := snprintf (MAXLINE + 1) (long seqno)
    offset := task.offset + line.length }

def overwrite (file : List UInt8) (offset : Nat) (line : List UInt8) : List UInt8 :=
  file.take offset ++ line ++ file.drop (offset + line.length)

def Sem.semop (sem : Sem Proc) (p : Proc) (op : Int) : Sem Proc :=
  { semval := sem.semval + op, otime := true, undo := Function.update sem.undo p (sem.undo p - op) }

def lockmain (p : Proc) (task : Task) (sem : Option (Sem Proc)) (file : List UInt8) (value : Int) :
    Option (Result Proc) :=
  match task.place, sem with
  | .semgetExcl, none =>
      some ⟨{ task with place := .setval }, some ⟨value, false, fun _ => 0⟩, file, .quiet⟩
  | .semgetExcl, some sem => some ⟨{ task with place := .semget }, some sem, file, .quiet⟩
  | .setval, some sem =>
      some ⟨task.init, some { sem with semval := 1, undo := fun _ => 0 }, file, .setval p⟩
  | .semget, some sem => some ⟨{ task with place := .stat 0 }, some sem, file, .quiet⟩
  | .stat i, some sem =>
      some ⟨if sem.otime = true then task.init else { task with place := .sleep i }, some sem, file,
        .quiet⟩
  | .sleep i, sem =>
      some ⟨{ task with place := if i + 1 < MAX_TRIES then .stat (i + 1) else .gaveUp }, sem, file,
        .quiet⟩
  | .down, some sem =>
      if 1 ≤ sem.semval then
        some ⟨{ task with place := .rewind }, some (sem.semop p (-1)), file, .down p⟩
      else none
  | .rewind, sem => some ⟨{ task with place := .read, offset := 0 }, sem, file, .quiet⟩
  | .read, sem => some ⟨task.increment file, sem, file, .quiet⟩
  | .rewindAgain, sem => some ⟨{ task with place := .write, offset := 0 }, sem, file, .quiet⟩
  | .write, sem =>
      some ⟨{ task with place := .up, offset := task.offset + task.line.length }, sem,
        overwrite file task.offset task.line, .quiet⟩
  | .up, some sem => some ⟨task.next, some (sem.semop p 1), file, .quiet⟩
  | .exit, some sem =>
      some ⟨{ task with place := .finished }, some { sem with
        semval := sem.semval + sem.undo p
        undo := Function.update sem.undo p 0 }, file, .quiet⟩
  | _, _ => none

def step (s : State Proc) (a : Action Proc) : Option (State Proc × Event Proc) :=
  (lockmain a.proc (s.task a.proc) s.sem s.file a.value).map fun did =>
    (⟨Function.update s.task a.proc did.task, did.sem, did.file⟩, did.event)

def entering (seqno : Int) (line : List UInt8) : Task := ⟨.semgetExcl, false, 0, seqno, line, 0⟩

/-- All processes have opened the file; none has called my_lock. -/
def machine (Proc : Type*) [DecidableEq Proc] (file : List UInt8) :
    Machine (State Proc) (Action Proc) (Event Proc) where
  start s := (∀ p, ∃ seqno line, s.task p = entering seqno line) ∧ s.sem = none ∧ s.file = file
  step := step

def Task.inside (task : Task) : Bool :=
  match task.place with
  | .rewind | .read | .rewindAgain | .write | .up => true
  | _ => false

/-! What a number in a file is when it has been written. -/

theorem toLong_range (n : Int) : LONG_MIN ≤ toLong n ∧ toLong n ≤ LONG_MAX := by
  simp only [toLong, LONG_MIN, LONG_MAX]
  omega

theorem toLong_of (n : Int) (low : LONG_MIN ≤ n) (high : n ≤ LONG_MAX) : toLong n = n := by
  simp only [toLong, LONG_MIN, LONG_MAX] at *
  omega

theorem toLong_succ (n : Int) : toLong (toLong n + 1) = toLong (n + 1) := by
  simp only [toLong]
  omega

theorem clamp_of (n : Int) (low : LONG_MIN ≤ n) (high : n ≤ LONG_MAX) : clamp n = n := by
  rw [clamp, if_neg (not_lt.mpr high), if_neg (not_lt.mpr low)]

theorem clamp_range (n : Int) : LONG_MIN ≤ clamp n ∧ clamp n ≤ LONG_MAX := by
  have order : LONG_MIN ≤ LONG_MAX := by decide
  unfold clamp
  split
  · exact ⟨order, le_refl _⟩
  · rename_i below
    split
    · exact ⟨le_refl _, order⟩
    · rename_i above
      exact ⟨not_lt.mp above, not_lt.mp below⟩

theorem digits_whole (n : Nat) : (decimal n).takeWhile isdigit = decimal n :=
  List.takeWhile_eq_self_iff.mpr (decimal_digits n)

def signed (n : Int) : List UInt8 := (if n < 0 then [45] else []) ++ decimal n.natAbs

theorem leading_signed (n : Int) : leading (signed n) = some (n, []) := by
  have value := decimal_value n.natAbs
  have whole := digits_whole n.natAbs
  have rest : (decimal n.natAbs).dropWhile isdigit = [] :=
    List.dropWhile_eq_nil_iff.mpr (decimal_digits n.natAbs)
  by_cases negative : n < 0
  · have text : signed n = 45 :: decimal n.natAbs := by rw [signed, if_pos negative]; rfl
    have tail : unsigned (signed n) = decimal n.natAbs := by rw [text]; rfl
    rw [leading, tail, whole, if_neg (decimal_ne_nil _), rest, text, value]
    simp only [List.head?_cons, if_true]
    congr 2
    omega
  · have text : signed n = decimal n.natAbs := by rw [signed, if_neg negative]; rfl
    obtain ⟨b, digits, same⟩ := List.exists_cons_of_ne_nil (decimal_ne_nil n.natAbs)
    have digit : isdigit b = true := decimal_digits n.natAbs b (by rw [same]; exact List.mem_cons_self)
    have plain : ¬ ((decimal n.natAbs).head? = some 45 ∨ (decimal n.natAbs).head? = some 43) := by
      rw [same, List.head?_cons]
      rintro (minus | plus)
      · rw [Option.some.inj minus] at digit
        cases digit
      · rw [Option.some.inj plus] at digit
        cases digit
    have tail : unsigned (signed n) = decimal n.natAbs := by rw [text, unsigned, if_neg plain]
    rw [leading, tail, whole, if_neg (decimal_ne_nil _), rest, text, value,
      if_neg (fun minus => plain (Or.inl minus))]
    congr 2
    omega

theorem signed_visible (n : Int) : ∃ b rest, signed n = b :: rest ∧ isspace b = false := by
  by_cases negative : n < 0
  · exact ⟨45, decimal n.natAbs, by rw [signed, if_pos negative]; rfl, by decide⟩
  · obtain ⟨b, rest, same⟩ := List.exists_cons_of_ne_nil (decimal_ne_nil n.natAbs)
    refine ⟨b, rest, by rw [signed, if_neg negative]; exact same, ?_⟩
    have digit : isdigit b = true := decimal_digits n.natAbs b (by rw [same]; exact List.mem_cons_self)
    simp only [isdigit, decide_eq_true_eq] at digit
    refine decide_eq_false (not_or.mpr ⟨?_, by omega⟩)
    rintro rfl
    exact absurd digit.1 (by decide)

theorem signed_no_nul (n : Int) : ∀ b ∈ signed n ++ [newline], b ≠ 0 := by
  intro b member
  rcases List.mem_append.mp member with inside | last
  · rcases List.mem_append.mp inside with sign | digit
    · split at sign
      · rw [List.mem_singleton.mp sign]
        decide
      · exact absurd sign List.not_mem_nil
    · rintro rfl
      exact not_mem_decimal n.natAbs 0 (by decide) digit
  · rw [List.mem_singleton.mp last]
    decide

theorem sscanf_long (n : Int) (rest : List UInt8) (low : LONG_MIN ≤ n) (high : n ≤ LONG_MAX) :
    sscanf (long n ++ rest) = some n := by
  have seen : cString (long n ++ rest) = signed n ++ newline :: cString rest := by
    have all : ∀ b ∈ long n, decide (b ≠ 0) = true := fun b member =>
      decide_eq_true (signed_no_nul n b member)
    rw [cString, List.takeWhile_append_of_pos all, long, ← signed, List.append_assoc]
    rfl
  obtain ⟨b, digits, same, visible⟩ := signed_visible n
  have kept : (signed n ++ newline :: cString rest).dropWhile isspace =
      signed n ++ newline :: cString rest := by
    rw [same, List.cons_append, List.dropWhile_cons_of_neg (by rw [visible]; exact Bool.false_ne_true)]
  have ends : WordEnds (newline :: cString rest) := Or.inr ⟨newline, _, rfl, by decide⟩
  rw [sscanf, seen, kept, leading_append _ _ _ _ ends (leading_signed n), Option.map_some,
    clamp_of n low high]

theorem long_length (n : Int) (low : LONG_MIN ≤ n) (high : n ≤ LONG_MAX) :
    (long n).length ≤ MAXLINE := by
  have digits := decimal_length n.natAbs 19 (by omega) (by
    simp only [LONG_MIN, LONG_MAX] at low high
    omega)
  simp only [long, MAXLINE, List.length_append, List.length_singleton]
  split <;> simp only [List.length_singleton, List.length_nil] <;> omega

theorem number_written (n : Int) (file : List UInt8) (low : LONG_MIN ≤ n) (high : n ≤ LONG_MAX) :
    number (overwrite file 0 (long n)) = some n := by
  have short := long_length n low high
  rw [number, overwrite, List.take_zero, List.nil_append,
    List.take_append, List.take_of_length_le short]
  exact sscanf_long n _ low high

end NetworkProgramming.Lockmain
