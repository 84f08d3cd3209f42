import Mathlib.Data.List.Infix
import NetworkProgramming.Readline

/-!
One look-ahead buffer for all descriptors. readline takes the descriptor as an
argument and its buffer from where it is; what an earlier call read beyond its
line on one descriptor, the next call returns for whichever it is made on. The
callers end the process when readline fails.
-/

namespace NetworkProgramming.ReadlineShared

open CText Readline

variable {Fd : Type*} [DecidableEq Fd]

structure State (Fd : Type*) where
  lookAhead : List UInt8
  channel : Fd → Channel
  exited : Bool

structure Call (Fd : Type*) where
  fd : Fd
  maxlen : Nat
  deriving DecidableEq

abbrev Step (Fd : Type*) := Transition (State Fd) (Call Fd) Returned

def step (s : State Fd) (call : Call Fd) : Option (State Fd × Returned) :=
  if s.exited then none
  else
    let result := readline call.maxlen ⟨s.lookAhead, s.channel call.fd⟩
    some (⟨result.2.lookAhead, Function.update s.channel call.fd result.2.channel,
      result.1.isNone⟩, result.1)

def machine (channel : Fd → Channel) : Machine (State Fd) (Call Fd) Returned where
  start s := s = ⟨[], channel, false⟩
  step := step

def stored (e : Step Fd) : List UInt8 := (e.output.map Prod.snd).getD []

def returnedOn (fd : Fd) (trace : List (Step Fd)) : List UInt8 :=
  (trace.filter fun e => decide (e.action.fd = fd)).flatMap stored

def lastFd (trace : List (Step Fd)) : Option Fd :=
  ((trace.filter fun e => decide (2 ≤ e.action.maxlen)).getLast?).map fun e => e.action.fd

/-- The call finds the buffer empty, or filled for its own descriptor. -/
def Own (trace : List (Step Fd)) (e : Step Fd) : Prop :=
  2 ≤ e.action.maxlen → e.before.lookAhead = [] ∨ lastFd trace = some e.action.fd

instance (trace : List (Step Fd)) (e : Step Fd) : Decidable (Own trace e) :=
  inferInstanceAs (Decidable (_ → _))

theorem returned_on_snoc (fd : Fd) (trace : List (Step Fd)) (e : Step Fd) :
    returnedOn fd (trace ++ [e]) =
      returnedOn fd trace ++ if e.action.fd = fd then stored e else [] := by
  by_cases own : e.action.fd = fd
  · simp [returnedOn, List.filter_append, own]
  · simp [returnedOn, List.filter_append, own]

omit [DecidableEq Fd] in
theorem last_fd_snoc (trace : List (Step Fd)) (e : Step Fd) :
    lastFd (trace ++ [e]) = if 2 ≤ e.action.maxlen then some e.action.fd else lastFd trace := by
  by_cases room : 2 ≤ e.action.maxlen
  · simp [lastFd, List.filter_append, room]
  · simp [lastFd, List.filter_append, room]

def ahead (trace : List (Step Fd)) (s : State Fd) (fd : Fd) : List UInt8 :=
  (if lastFd trace = some fd then s.lookAhead else []) ++ bytes (s.channel fd)

structure Inv (channel : Fd → Channel) (trace : List (Step Fd)) (s : State Fd) : Prop where
  returned : ∀ fd, returnedOn fd trace <+: bytes (channel fd)
  whole : s.exited = false → ∀ fd, returnedOn fd trace ++ ahead trace s fd = bytes (channel fd)
  unread : lastFd trace = none → s.lookAhead = []

theorem step_done (channel : Fd → Channel) (e : Step Fd) (stepped : (machine channel).Stepped e) :
    e.before.exited = false ∧ ∃ r,
      readline e.action.maxlen ⟨e.before.lookAhead, e.before.channel e.action.fd⟩ =
        (e.output, r) ∧
      e.after = ⟨r.lookAhead, Function.update e.before.channel e.action.fd r.channel,
        e.output.isNone⟩ := by
  simp only [Machine.Stepped, machine, step, Option.ite_none_left_eq_some, Option.some.injEq,
    Prod.mk.injEq] at stepped
  obtain ⟨alive, after, output⟩ := stepped
  refine ⟨by simpa using alive, _, Prod.ext output rfl, ?_⟩
  rw [← after, ← output]

theorem readline_roomless (maxlen : Nat) (small : ¬ 2 ≤ maxlen) (r : Reader) :
    readline maxlen r = (some (1, []), r) := by
  have none_left : maxlen - 1 = 0 := by omega
  rw [readline, none_left]
  rfl

theorem own_ahead {trace : List (Step Fd)} {e : Step Fd} (own : Own trace e)
    (room : 2 ≤ e.action.maxlen) (fd : Fd) :
    ahead trace e.before fd =
      (if e.action.fd = fd then e.before.lookAhead else []) ++ bytes (e.before.channel fd) := by
  rcases own room with empty | filled
  · simp [ahead, empty]
  · simp [ahead, filled]

theorem room_whole (channel : Fd → Channel) (trace : List (Step Fd)) (e : Step Fd) (r : Reader)
    (line : Nat × List UInt8) (room : 2 ≤ e.action.maxlen) (own : Own trace e)
    (did : readline e.action.maxlen ⟨e.before.lookAhead, e.before.channel e.action.fd⟩ =
      (some line, r)) (done : e.output = some line)
    (after : e.after = ⟨r.lookAhead, Function.update e.before.channel e.action.fd r.channel, false⟩)
    (fd : Fd) (whole : returnedOn fd trace ++ ahead trace e.before fd = bytes (channel fd)) :
    returnedOn fd (trace ++ [e]) ++ ahead (trace ++ [e]) e.after fd = bytes (channel fd) := by
  have split := readline_stream _ _ r line did
  rw [← whole, returned_on_snoc, own_ahead own room, ahead, last_fd_snoc, if_pos room, after]
  simp only [Option.some.injEq]
  by_cases mine : e.action.fd = fd
  · subst fd
    simp only [Reader.stream] at split
    simp [stored, done, split]
  · simp [mine, Ne.symm mine]

theorem step_inv (channel : Fd → Channel) (trace : List (Step Fd)) (e : Step Fd)
    (stepped : (machine channel).Stepped e) (own : Own trace e) (inv : Inv channel trace e.before) :
    Inv channel (trace ++ [e]) e.after := by
  obtain ⟨alive, r, did, after⟩ := step_done channel e stepped
  have whole := inv.whole alive
  by_cases room : 2 ≤ e.action.maxlen
  · have used : lastFd (trace ++ [e]) ≠ none := by simp [last_fd_snoc, room]
    cases done : e.output with
    | none =>
        refine ⟨?_, ?_, fun unused => absurd unused used⟩
        · intro fd
          rw [returned_on_snoc]
          simpa [stored, done] using inv.returned fd
        · intro goes
          rw [after, done] at goes
          cases goes
    | some line =>
        rw [done] at did after
        have now := fun fd => room_whole channel trace e r line room own did done after fd (whole fd)
        exact ⟨fun fd => ⟨_, now fd⟩, fun _ => now, fun unused => absurd unused used⟩
  · rw [readline_roomless _ room] at did
    simp only [Prod.mk.injEq] at did
    obtain ⟨done, rfl⟩ := did
    rw [← done] at after
    have same : ∀ fd, returnedOn fd (trace ++ [e]) = returnedOn fd trace := by
      intro fd
      rw [returned_on_snoc]
      simp [stored, ← done]
    refine ⟨?_, ?_, ?_⟩
    · intro fd
      rw [same]
      exact inv.returned fd
    · intro _ fd
      rw [same, ahead, last_fd_snoc, if_neg room, after]
      simpa [ahead] using whole fd
    · rw [last_fd_snoc, if_neg room, after]
      exact inv.unread

theorem run_inv (channel : Fd → Channel) (trace : List (Step Fd)) (s : State Fd)
    (run : (machine channel).Run trace s)
    (met : ∀ pre e post, trace = pre ++ e :: post → Own pre e) : Inv channel trace s := by
  refine run.along (C := Own) ?_ (step_inv channel) met
  rintro s rfl
  exact ⟨fun fd => List.nil_prefix, fun _ fd => rfl, fun _ => rfl⟩

theorem foreign_byte (channel : Fd → Channel) (trace : List (Step Fd)) (e : Step Fd)
    (line : Nat × List UInt8) (run : (machine channel).Run trace e.before)
    (met : ∀ pre d post, trace = pre ++ d :: post → Own pre d)
    (stepped : (machine channel).Stepped e) (done : e.output = some line)
    (foreign : ¬ Own trace e) :
    ∃ other c more, other ≠ e.action.fd ∧ line.2 = c :: more ∧
      returnedOn other trace ++ [c] <+: bytes (channel other) := by
  obtain ⟨alive, r, did, _⟩ := step_done channel e stepped
  have inv := run_inv channel trace e.before run met
  simp only [Own, Classical.not_imp, not_or] at foreign
  obtain ⟨room, filled, elsewhere⟩ := foreign
  obtain ⟨c, rest, buffered⟩ := List.exists_cons_of_ne_nil filled
  obtain ⟨other, last⟩ := Option.ne_none_iff_exists'.mp (mt inv.unread filled)
  have left : e.action.maxlen - 1 = (e.action.maxlen - 2) + 1 := by omega
  rw [done, buffered, readline, left] at did
  obtain ⟨more, stored⟩ := loop_buffered _ _ _ _ _ _ _ did
  refine ⟨other, c, more, ?_, stored, ?_⟩
  · rintro rfl
    exact elsewhere last
  · have whole := inv.whole alive other
    rw [ahead, if_pos last, buffered] at whole
    exact ⟨rest ++ bytes (e.before.channel other), by simpa using whole⟩

/-- As long as every call finds the buffer empty or filled for its own
descriptor, each descriptor's calls return its own stream in order. The first
call that does not starts with the next byte of another descriptor's stream. -/
theorem readline_shared (channel : Fd → Channel) :
    (∀ (trace : List (Step Fd)) (s : State Fd), (machine channel).Run trace s →
      (∀ pre e post, trace = pre ++ e :: post → Own pre e) →
      ∀ fd, returnedOn fd trace <+: bytes (channel fd)) ∧
    (∀ (trace : List (Step Fd)) (e : Step Fd) (line : Nat × List UInt8),
      (machine channel).Run trace e.before →
      (∀ pre d post, trace = pre ++ d :: post → Own pre d) →
      (machine channel).Stepped e → e.output = some line → ¬ Own trace e →
      ∃ other c more, other ≠ e.action.fd ∧ line.2 = c :: more ∧
        returnedOn other trace ++ [c] <+: bytes (channel other)) :=
  ⟨fun trace s run met => (run_inv channel trace s run met).returned,
    fun trace e line run met stepped done foreign =>
      foreign_byte channel trace e line run met stepped done foreign⟩

/-! Two descriptors. Read one line at a time, their streams stay apart; with two
lines in one read, the second is returned for the other descriptor. -/

def alternating : Bool → Channel
  | false => [.data 97 [newline], .eintr, .data 98 [newline]]
  | true => [.data 120 [], .data newline []]

def twoLines : Bool → Channel
  | false => [.data 97 [newline, 98, newline]]
  | true => [.data 120 [newline]]

def ownCheck (steps : List (Step Bool)) : Bool :=
  (List.range steps.length).all fun i => (steps[i]?).all fun e => decide (Own (steps.take i) e)

theorem own_of_check (steps : List (Step Bool)) (checked : ownCheck steps = true)
    (pre : List (Step Bool)) (e : Step Bool) (post : List (Step Bool))
    (whole : steps = pre ++ e :: post) : Own pre e := by
  have here := List.all_eq_true.mp checked pre.length (by simp [whole])
  simpa [whole] using here

theorem alternating_apart :
    ∃ (trace : List (Step Bool)) (s : State Bool), (machine alternating).Run trace s ∧
      trace.length = 3 ∧ ∀ fd, returnedOn fd trace <+: bytes (alternating fd) := by
  obtain ⟨trace, s, run, checked⟩ := Machine.run_of_check (M := machine alternating) rfl
    [⟨false, 100⟩, ⟨true, 100⟩, ⟨false, 100⟩]
    (fun r => decide (r.1.length = 3 ∧ ownCheck r.1 = true)) (by decide +kernel)
  obtain ⟨three, own⟩ := of_decide_eq_true checked
  exact ⟨trace, s, run, three, (readline_shared alternating).1 trace s run
    (own_of_check trace own)⟩

theorem second_line_crosses :
    ∃ (trace : List (Step Bool)) (s : State Bool), (machine twoLines).Run trace s ∧
      returnedOn true trace = [98, newline] ∧
      ¬ ∀ fd, returnedOn fd trace <+: bytes (twoLines fd) := by
  obtain ⟨trace, s, run, checked⟩ := Machine.run_of_check (M := machine twoLines) rfl
    [⟨false, 100⟩, ⟨true, 100⟩]
    (fun r => decide (returnedOn true r.1 = [98, newline])) (by decide +kernel)
  have crossed := of_decide_eq_true checked
  refine ⟨trace, s, run, crossed, ?_⟩
  intro apart
  have wrong := apart true
  rw [crossed] at wrong
  exact absurd wrong (by decide)

end NetworkProgramming.ReadlineShared
