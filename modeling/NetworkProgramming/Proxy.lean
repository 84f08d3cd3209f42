import Mathlib.Tactic.Common
import NetworkProgramming.LinearBuffer
import NetworkProgramming.Machine

/-!
proxy.cpp: two connections, each with a buffer. What is read from one of them into its buffer
is written to the other one, and then the next bytes are read. async_read goes on until
read_complete says 0, whatever has become of the last read, and one async_write_some is all
there is for writing.
-/

namespace NetworkProgramming.Proxy

open LinearBuffer

def max_msg : Nat := 1024

inductive Side where
  | client
  | server
  deriving DecidableEq

def Side.other : Side → Side
  | .client => .server
  | .server => .client

/-- What is outstanding for the buffer of a side: its async_connect, an async_read that has
`total` bytes and has asked for so many more, or the write of so many bytes to the other side. -/
inductive Doing where
  | connecting
  | nothing
  | reading (asked total : Nat)
  | writing (size : Nat)
  deriving DecidableEq

/-- `terminated` is an exception out of a handler, which nobody catches. -/
structure State where
  started : Nat
  closed : Bool
  buff : Side → Nat → UInt8
  doing : Side → Doing
  terminated : Bool

/-- The handlers; `readSome` is that of one read of an async_read. `available` is what
available says after it. -/
inductive Action where
  | onConnect (sock : Side) (err : Bool) (available : Side → Nat)
  | readSome (sock : Side) (err : Bool) (chunk : List UInt8) (available : Nat)
  | onWrite (sock : Side) (bytes available : Nat)

inductive Answer where
  | read (sock : Side) (err : Bool) (chunk : List UInt8)
  | wrote (sock : Side) (chunk : List UInt8)
  | silent

namespace State

def go (s : State) (sock : Side) (doing : Doing) : State :=
  { s with doing := Function.update s.doing sock doing }

def stop (s : State) : State :=
  if s.started < 2 then s else { s with started := 0, closed := true }

def readComplete (s : State) (bytes available : Nat) : Option Nat :=
  if s.closed then none
  else some (if 0 < available then available else if 0 < bytes then 0 else 1)

/-- async_read begins with a call of the completion condition. -/
def doRead (s : State) (sock : Side) (available : Nat) : State :=
  match s.readComplete 0 available with
  | none => { s with terminated := true }
  | some asked => s.go sock (.reading (min asked max_msg) 0)

def doWrite (s : State) (source : Side) (size : Nat) : State :=
  if s.started = 2 then s.go source (.writing size) else s.go source .nothing

def onRead (s : State) (sock : Side) (err : Bool) (bytes : Nat) : State :=
  let checked := if err then s.stop else s
  if checked.started = 2 then checked.doWrite sock bytes else checked.go sock .nothing

def onStart (s : State) (available : Side → Nat) : State :=
  (s.doRead .client (available .client)).doRead .server (available .server)

def onConnect (s : State) (sock : Side) (err : Bool) (available : Side → Nat) : State :=
  let done := s.go sock .nothing
  if err then done.stop
  else
    let more := { done with started := done.started + 1 }
    if more.started = 2 then more.onStart available else more

def fill (s : State) (sock : Side) (total : Nat) (chunk : List UInt8) : State :=
  { s with buff := Function.update s.buff sock (store (s.buff sock) total chunk) }

/-- The loop of async_read after one read, with `bytes` in the buffer. A read of nothing and a
full buffer end it, and so does read_complete. -/
def readOn (s : State) (sock : Side) (err : Bool) (chunk : List UInt8) (bytes available : Nat) :
    State :=
  if err = false ∧ chunk = [] ∨ bytes = max_msg then s.onRead sock err bytes
  else match s.readComplete bytes available with
    | none => { s with terminated := true }
    | some asked =>
        if asked = 0 then s.onRead sock err bytes
        else s.go sock (.reading (min asked (max_msg - bytes)) bytes)

end State

/-- A read that fails reads nothing. -/
def step (s : State) : Action → Option (State × Answer)
  | .onConnect sock err available =>
      if s.terminated = false ∧ s.doing sock = .connecting then
        some (s.onConnect sock err available, .silent)
      else none
  | .readSome sock err chunk available =>
      match s.doing sock with
      | .reading asked total =>
          if s.terminated = false ∧ chunk.length ≤ asked ∧ (err = true → chunk = []) then
            some ((s.fill sock total chunk).readOn sock err chunk (total + chunk.length) available,
              .read sock err chunk)
          else none
      | _ => none
  | .onWrite sock bytes available =>
      match s.doing sock.other with
      | .writing size =>
          if s.terminated = false ∧ bytes ≤ size then
            some (s.doRead sock.other available, .wrote sock (load (s.buff sock.other) 0 bytes))
          else none
      | _ => none

abbrev Step := Transition State Action Answer

def machine : Machine State Action Answer where
  start s := s.started = 0 ∧ s.closed = false ∧ (∀ sock, s.doing sock = .connecting) ∧
    s.terminated = false
  step := step

inductive Moves (s : State) : Action → State → Answer → Prop where
  | onConnect (sock : Side) (err : Bool) (available : Side → Nat)
      (now : s.doing sock = .connecting) :
      Moves s (.onConnect sock err available) (s.onConnect sock err available) .silent
  | readSome (sock : Side) (err : Bool) (chunk : List UInt8) (available asked total : Nat)
      (now : s.doing sock = .reading asked total) (within : chunk.length ≤ asked)
      (failed : err = true → chunk = []) :
      Moves s (.readSome sock err chunk available)
        ((s.fill sock total chunk).readOn sock err chunk (total + chunk.length) available)
        (.read sock err chunk)
  | onWrite (sock : Side) (bytes available size : Nat)
      (now : s.doing sock.other = .writing size) (within : bytes ≤ size) :
      Moves s (.onWrite sock bytes available) (s.doRead sock.other available)
        (.wrote sock (load (s.buff sock.other) 0 bytes))

theorem moves_of_stepped (e : Step) (stepped : machine.Stepped e) :
    Moves e.before e.action e.after e.output := by
  obtain ⟨s, action, output, after⟩ := e
  change step s action = some (after, output) at stepped
  cases action with
  | onConnect sock err available =>
      rw [step] at stepped
      split at stepped
      · rename_i ready
        cases stepped
        exact .onConnect sock err available ready.2
      · cases stepped
  | readSome sock err chunk available =>
      rw [step] at stepped
      split at stepped
      · rename_i asked total now
        split at stepped
        · rename_i ready
          cases stepped
          exact .readSome sock err chunk available asked total now ready.2.1 ready.2.2
        · cases stepped
      · cases stepped
  | onWrite sock bytes available =>
      rw [step] at stepped
      split at stepped
      · rename_i size now
        split at stepped
        · rename_i ready
          cases stepped
          exact .onWrite sock bytes available size now ready.2
        · cases stepped
      · cases stepped

/-! What should be relayed. -/

def Answer.received (sock : Side) : Answer → List UInt8
  | .read from_ _ chunk => if from_ = sock then chunk else []
  | .wrote _ _ | .silent => []

def Answer.written (sock : Side) : Answer → List UInt8
  | .wrote target chunk => if target = sock then chunk else []
  | .read _ _ _ | .silent => []

def Answer.ends (sock : Side) : Answer → Bool
  | .read from_ err _ => from_ == sock && err
  | .wrote _ _ | .silent => false

def received (sock : Side) (trace : List Step) : List UInt8 :=
  trace.flatMap fun e => e.output.received sock

def written (sock : Side) (trace : List Step) : List UInt8 :=
  trace.flatMap fun e => e.output.written sock

def ended (sock : Side) (trace : List Step) : Bool := trace.any fun e => e.output.ends sock

def Relayed (trace : List Step) (s : State) : Prop :=
  (∀ sock : Side, written sock.other trace <+: received sock trace) ∧
    (s.closed = true ∨ s.terminated = true → ∀ sock : Side, ended sock trace = true →
      written sock.other trace = received sock trace)

/-- A write takes all bytes that it is given, and a read fails only where async_read has
nothing yet, or goes on because there is more. -/
def Met (e : Step) : Bool :=
  match e.action with
  | .onConnect _ _ _ => true
  | .readSome sock err _ available => match e.before.doing sock with
      | .reading _ total => !err || total == 0 || decide (0 < available)
      | _ => true
  | .onWrite sock bytes _ => match e.before.doing sock.other with
      | .writing size => bytes == size
      | _ => true

def State.pending (s : State) (sock : Side) : List UInt8 :=
  match s.doing sock with
  | .reading _ total => load (s.buff sock) 0 total
  | .writing size => load (s.buff sock) 0 size
  | .connecting | .nothing => []

def Doing.Busy : Doing → Prop
  | .reading _ _ | .writing _ => True
  | .connecting | .nothing => False

def State.waiting (s : State) (sock : Side) : Nat := if s.doing sock = .connecting then 1 else 0

structure Kept (trace : List Step) (s : State) : Prop where
  running : s.closed = false ∧ s.terminated = false
  ready : ∀ sock, (s.doing sock).Busy → s.started = 2 ∧ ∀ sock', s.doing sock' ≠ .connecting
  count : ∀ sock : Side, s.started + s.waiting sock + s.waiting sock.other ≤ 2
  room : ∀ sock asked total, s.doing sock = .reading asked total →
    total < max_msg ∧ asked + total ≤ max_msg
  bytes : ∀ sock : Side, received sock trace = written sock.other trace ++ s.pending sock

theorem received_snoc (sock : Side) (trace : List Step) (e : Step) :
    received sock (trace ++ [e]) = received sock trace ++ e.output.received sock := by
  simp [received]

theorem written_snoc (sock : Side) (trace : List Step) (e : Step) :
    written sock (trace ++ [e]) = written sock trace ++ e.output.written sock := by
  simp [written]

@[simp] theorem other_other (sock : Side) : sock.other.other = sock := by cases sock <;> rfl

theorem other_ne (sock : Side) : sock.other ≠ sock := by cases sock <;> exact nofun

theorem kept_start (s : State) (first : machine.start s) : Kept [] s := by
  obtain ⟨none_, closed, connecting, terminated⟩ := first
  refine ⟨⟨closed, terminated⟩, fun sock busy => ?_, fun sock => ?_, fun sock asked total now => ?_,
    fun sock => ?_⟩
  · rw [connecting sock] at busy
    exact busy.elim
  · simp [State.waiting, connecting, none_]
  · rw [connecting sock] at now
    cases now
  · rw [State.pending, connecting sock]
    rfl

@[simp] theorem go_self (s : State) (sock : Side) (doing : Doing) :
    (s.go sock doing).doing sock = doing := Function.update_self _ _ _

theorem go_other (s : State) (sock other : Side) (doing : Doing) (apart : other ≠ sock) :
    (s.go sock doing).doing other = s.doing other := Function.update_of_ne apart _ _

/-! The pieces of the handlers, while nothing is closed. -/

theorem do_read_open (s : State) (sock : Side) (available : Nat) (open_ : s.closed = false) :
    ∃ asked, asked ≤ max_msg ∧ s.doRead sock available = s.go sock (.reading asked 0) := by
  rw [State.doRead, State.readComplete, open_]
  exact ⟨_, Nat.min_le_right _ _, rfl⟩

theorem on_read_ready (s : State) (sock : Side) (bytes : Nat) (ready : s.started = 2) :
    s.onRead sock false bytes = s.go sock (.writing bytes) := by
  rw [State.onRead, State.doWrite]
  simp only [Bool.false_eq_true, if_false, ready, if_true]

theorem read_on_open (s : State) (sock : Side) (err : Bool) (chunk : List UInt8)
    (total available : Nat) (open_ : s.closed = false) (ready : s.started = 2)
    (room : total + chunk.length ≤ max_msg)
    (met : err = true → chunk = [] ∧ total < max_msg ∧ (total = 0 ∨ 0 < available)) :
    ∃ doing, s.readOn sock err chunk (total + chunk.length) available = s.go sock doing ∧
      (doing = .writing (total + chunk.length) ∨
        ∃ asked, doing = .reading asked (total + chunk.length) ∧
          total + chunk.length < max_msg ∧ asked + (total + chunk.length) ≤ max_msg) := by
  rw [State.readOn]
  cases err with
  | true =>
      obtain ⟨rfl, small, more⟩ := met rfl
      rw [List.length_nil, Nat.add_zero, if_neg (by simp; omega), State.readComplete, open_]
      simp only [Bool.false_eq_true, if_false]
      have some_ : (if 0 < available then available else if 0 < total then 0 else 1) ≠ 0 := by
        rcases more with rfl | more
        · split <;> simp; omega
        · rw [if_pos more]
          omega
      rw [if_neg some_]
      exact ⟨_, rfl, Or.inr ⟨_, rfl, small, by omega⟩⟩
  | false =>
      split
      · exact ⟨_, on_read_ready s sock _ ready, Or.inl rfl⟩
      · rename_i goes
        have small : total + chunk.length ≠ max_msg := fun full => goes (Or.inr full)
        rw [State.readComplete, open_]
        simp only [Bool.false_eq_true, if_false]
        by_cases done : (if 0 < available then available
            else if 0 < total + chunk.length then 0 else 1) = 0
        · rw [if_pos done]
          exact ⟨_, on_read_ready s sock _ ready, Or.inl rfl⟩
        · rw [if_neg done]
          exact ⟨_, rfl, Or.inr ⟨_, rfl, by omega, by omega⟩⟩

/-- The direction whose operation has ended. The other one, and with it all that was read from
there, stays as it is. -/
theorem kept_go (trace : List Step) (e : Step) (sock : Side) (doing : Doing)
    (kept : Kept trace e.before) (busy : (e.before.doing sock).Busy)
    (states : e.after.started = e.before.started ∧ e.after.closed = e.before.closed ∧
      e.after.terminated = e.before.terminated)
    (now : e.after.doing = Function.update e.before.doing sock doing)
    (goes : doing ≠ .connecting)
    (room : ∀ asked total, doing = .reading asked total →
      total < max_msg ∧ asked + total ≤ max_msg)
    (same : e.after.buff sock.other = e.before.buff sock.other)
    (quiet : e.output.received sock.other = [] ∧ e.output.written sock = [])
    (bytes : received sock trace ++ e.output.received sock =
      written sock.other trace ++ e.output.written sock.other ++ e.after.pending sock) :
    Kept (trace ++ [e]) e.after := by
  obtain ⟨ready, joined⟩ := kept.ready sock busy
  have here : e.after.doing sock = doing := by rw [now, Function.update_self]
  have there : e.after.doing sock.other = e.before.doing sock.other := by
    rw [now, Function.update_of_ne (other_ne sock)]
  have split (p : Side) : p = sock ∨ p = sock.other := by
    cases p <;> cases sock <;> simp [Side.other]
  have gone (q : Side) : e.after.doing q ≠ .connecting := by
    rcases split q with rfl | rfl
    · rwa [here]
    · rw [there]
      exact joined _
  refine ⟨⟨states.2.1.trans kept.running.1, states.2.2.trans kept.running.2⟩,
    fun p _ => ⟨states.1.trans ready, gone⟩, fun p => ?_, fun p asked total found => ?_, fun p => ?_⟩
  · simp only [State.waiting, if_neg (gone p), if_neg (gone p.other), states.1, ready, Nat.add_zero,
      Nat.le_refl]
  · rcases split p with rfl | rfl
    · exact room asked total (here.symm.trans found)
    · exact kept.room _ asked total (there.symm.trans found)
  · rw [received_snoc, written_snoc]
    rcases split p with rfl | rfl
    · exact bytes
    · have pending : e.after.pending sock.other = e.before.pending sock.other := by
        rw [State.pending, State.pending, there, same]
      rw [quiet.1, other_other, quiet.2, pending, List.append_nil, List.append_nil,
        kept.bytes sock.other, other_other]

theorem fill_self (s : State) (sock : Side) (total : Nat) (chunk : List UInt8) :
    (s.fill sock total chunk).buff sock = store (s.buff sock) total chunk :=
  Function.update_self _ _ _

theorem go_pending (s : State) (sock : Side) (total : Nat) (doing : Doing)
    (busy : doing = .writing total ∨ ∃ asked, doing = .reading asked total) :
    (s.go sock doing).pending sock = load (s.buff sock) 0 total := by
  rw [State.pending, go_self]
  rcases busy with rfl | ⟨asked, rfl⟩ <;> rfl

theorem kept_read (trace : List Step) (s : State) (sock : Side) (err : Bool) (chunk : List UInt8)
    (available asked total : Nat) (now : s.doing sock = .reading asked total)
    (within : chunk.length ≤ asked) (failed : err = true → chunk = []) (kept : Kept trace s)
    (met : err = true → total = 0 ∨ 0 < available) :
    Kept (trace ++ [⟨s, .readSome sock err chunk available, .read sock err chunk,
      (s.fill sock total chunk).readOn sock err chunk (total + chunk.length) available⟩])
      ((s.fill sock total chunk).readOn sock err chunk (total + chunk.length) available) := by
  have busy : (s.doing sock).Busy := by rw [now]; trivial
  obtain ⟨small, fits⟩ := kept.room sock asked total now
  obtain ⟨doing, next, goes⟩ := read_on_open (s.fill sock total chunk) sock err chunk total
    available kept.running.1 (kept.ready sock busy).1 (by omega)
    fun bad => ⟨failed bad, small, met bad⟩
  rw [next]
  refine kept_go trace ⟨s, .readSome sock err chunk available, .read sock err chunk,
    (s.fill sock total chunk).go sock doing⟩ sock doing kept busy ⟨rfl, rfl, rfl⟩ rfl ?_ ?_ ?_ ?_ ?_
  · rcases goes with rfl | ⟨more, rfl, -⟩ <;> exact nofun
  · rintro more sum rfl
    rcases goes with bad | ⟨more', same, bound⟩
    · cases bad
    · cases same
      exact bound
  · exact Function.update_of_ne (other_ne sock) _ _
  · exact ⟨if_neg (other_ne sock).symm, rfl⟩
  · have pending := go_pending (s.fill sock total chunk) sock (total + chunk.length) doing
      (goes.imp_right fun ⟨more, same, _⟩ => ⟨more, same⟩)
    have old : s.pending sock = load (s.buff sock) 0 total := by rw [State.pending, now]
    have arrived : (Answer.read sock err chunk).received sock = chunk := if_pos rfl
    have stored : load (store (s.buff sock) total chunk) 0 (total + chunk.length) =
        load (s.buff sock) 0 total ++ chunk := by
      rw [load_add, load_store_below _ _ _ _ _ (by omega), Nat.zero_add, load_store]
    dsimp only
    rw [pending, fill_self, stored, arrived, kept.bytes sock, old, List.append_assoc]
    simp [Answer.written]

theorem kept_write (trace : List Step) (s : State) (sock : Side) (bytes available : Nat)
    (now : s.doing sock.other = .writing bytes) (kept : Kept trace s) :
    Kept (trace ++ [⟨s, .onWrite sock bytes available,
      .wrote sock (load (s.buff sock.other) 0 bytes), s.doRead sock.other available⟩])
      (s.doRead sock.other available) := by
  have busy : (s.doing sock.other).Busy := by rw [now]; trivial
  obtain ⟨asked, fits, next⟩ := do_read_open s sock.other available kept.running.1
  rw [next]
  refine kept_go trace ⟨s, .onWrite sock bytes available,
    .wrote sock (load (s.buff sock.other) 0 bytes), s.go sock.other (.reading asked 0)⟩
    sock.other (.reading asked 0) kept busy ⟨rfl, rfl, rfl⟩ rfl nofun ?_ rfl ?_ ?_
  · rintro more sum same
    cases same
    exact ⟨by decide, fits⟩
  · exact ⟨rfl, if_neg (other_ne sock).symm⟩
  · have pending := go_pending s sock.other 0 (.reading asked 0) (Or.inr ⟨asked, rfl⟩)
    have old : s.pending sock.other = load (s.buff sock.other) 0 bytes := by
      rw [State.pending, now]
    have sent : (Answer.wrote sock (load (s.buff sock.other) 0 bytes)).written sock =
        load (s.buff sock.other) 0 bytes := if_pos rfl
    dsimp only
    rw [pending, other_other, sent, kept.bytes sock.other, old, other_other]
    simp [Answer.received, load]

theorem pending_calm (s : State) (p : Side) (calm : ¬ (s.doing p).Busy) : s.pending p = [] := by
  rw [State.pending]
  cases doing : s.doing p with
  | connecting => rfl
  | nothing => rfl
  | reading asked total => exact absurd trivial (doing ▸ calm : ¬ (Doing.reading asked total).Busy)
  | writing size => exact absurd trivial (doing ▸ calm : ¬ (Doing.writing size).Busy)

theorem bytes_silent (trace : List Step) (e : Step) (s' : State) (kept : Kept trace e.before)
    (silent : e.output = .silent) (p : Side) (calm : ¬ (e.before.doing p).Busy)
    (empty : s'.pending p = []) :
    received p (trace ++ [e]) = written p.other (trace ++ [e]) ++ s'.pending p := by
  have old := kept.bytes p
  rw [pending_calm _ p calm, List.append_nil] at old
  rw [received_snoc, written_snoc, silent, empty, old, List.append_nil]
  rfl

theorem kept_idle (trace : List Step) (e : Step) (s' : State) (kept : Kept trace e.before)
    (silent : e.output = .silent) (running : s'.closed = false ∧ s'.terminated = false)
    (calm : ∀ p, ¬ (e.before.doing p).Busy) (idle : ∀ p, ¬ (s'.doing p).Busy)
    (count : ∀ sock : Side, s'.started + s'.waiting sock + s'.waiting sock.other ≤ 2) :
    Kept (trace ++ [e]) s' := by
  refine ⟨running, fun p busy => absurd busy (idle p), count, fun p asked total found => ?_,
    fun p => ?_⟩
  · exact absurd trivial (found ▸ idle p : ¬ (Doing.reading asked total).Busy)
  · exact bytes_silent trace e s' kept silent p (calm p) (pending_calm s' p (idle p))

theorem kept_started (trace : List Step) (e : Step) (s : State) (available : Side → Nat)
    (kept : Kept trace e.before) (silent : e.output = .silent)
    (running : s.closed = false ∧ s.terminated = false)
    (calm : ∀ p, ¬ (e.before.doing p).Busy) (ready : s.started = 2) :
    Kept (trace ++ [e]) (s.onStart available) := by
  obtain ⟨asked, fits, first⟩ := do_read_open s .client (available .client) running.1
  obtain ⟨asked', fits', second⟩ := do_read_open (s.go .client (.reading asked 0)) .server
    (available .server) running.1
  rw [State.onStart, first, second]
  have both (p : Side) : ∃ more, more ≤ max_msg ∧ ((s.go .client (.reading asked 0)).go .server
      (.reading asked' 0)).doing p = .reading more 0 := by
    cases p with
    | client => exact ⟨asked, fits, rfl⟩
    | server => exact ⟨asked', fits', rfl⟩
  have joined (p : Side) : ((s.go .client (.reading asked 0)).go .server
      (.reading asked' 0)).doing p ≠ .connecting := by
    obtain ⟨more, -, found⟩ := both p
    rw [found]
    exact nofun
  refine ⟨running, fun p _ => ⟨ready, joined⟩, fun p => ?_, fun p more total found => ?_, fun p => ?_⟩
  · rw [State.waiting, State.waiting, if_neg (joined p), if_neg (joined p.other)]
    exact Nat.le_of_eq ready
  · obtain ⟨more', fits, same⟩ := both p
    cases same.symm.trans found
    exact ⟨by decide, fits⟩
  · refine bytes_silent trace e _ kept silent p (calm p) ?_
    obtain ⟨more, -, found⟩ := both p
    rw [State.pending, found]
    rfl

theorem kept_connect (trace : List Step) (s : State) (sock : Side) (err : Bool)
    (available : Side → Nat) (now : s.doing sock = .connecting) (kept : Kept trace s) :
    Kept (trace ++ [⟨s, .onConnect sock err available, .silent, s.onConnect sock err available⟩])
      (s.onConnect sock err available) := by
  -- a side that is still connecting keeps both from reading and writing
  have calm (p : Side) : ¬ (s.doing p).Busy := fun busy => (kept.ready p busy).2 sock now
  have idle (p : Side) : ¬ ((s.go sock .nothing).doing p).Busy := by
    by_cases mine : p = sock
    · rw [mine, go_self]
      exact not_false
    · rw [go_other _ _ _ _ mine]
      exact calm p
  have one : s.waiting sock = 1 := if_pos now
  have zero : (s.go sock .nothing).waiting sock = 0 := by
    rw [State.waiting, go_self]
    rfl
  have same : (s.go sock .nothing).waiting sock.other = s.waiting sock.other := by
    rw [State.waiting, State.waiting, go_other _ _ _ _ (other_ne sock)]
  have counted := kept.count sock
  have within (n : Nat) (less : n ≤ s.started + 1) (p : Side) :
      n + (s.go sock .nothing).waiting p + (s.go sock .nothing).waiting p.other ≤ 2 := by
    have split : p = sock ∨ p = sock.other := by cases p <;> cases sock <;> simp [Side.other]
    rcases split with rfl | rfl
    · rw [zero, same]
      omega
    · rw [other_other, zero, same]
      omega
  rw [State.onConnect]
  cases err with
  | true =>
      have small : (s.go sock .nothing).started < 2 := by
        change s.started < 2
        omega
      simp only [if_true, State.stop, if_pos small]
      exact kept_idle trace _ _ kept rfl kept.running calm idle (within s.started (by omega))
  | false =>
      simp only [Bool.false_eq_true, if_false]
      split
      · rename_i ready
        exact kept_started trace _ _ available kept rfl kept.running calm ready
      · exact kept_idle trace _ _ kept rfl kept.running calm idle (within _ (Nat.le_refl _))

theorem kept_run {trace : List Step} {s : State} (run : machine.Run trace s)
    (met : ∀ e ∈ trace, Met e = true) : Kept trace s := by
  refine run.history (C := fun e => Met e = true) (I := Kept) kept_start
    (fun trace e stepped ok kept => ?_) met
  have moved := moves_of_stepped e stepped
  obtain ⟨s, action, output, after⟩ := e
  dsimp only at moved kept ⊢
  cases moved with
  | onConnect sock err available now => exact kept_connect trace s sock err available now kept
  | readSome sock err chunk available asked total now within failed =>
      refine kept_read trace s sock err chunk available asked total now within failed kept ?_
      intro bad
      simpa [Met, now, bad] using ok
  | onWrite sock bytes available size now within =>
      have whole : bytes = size := by simpa [Met, now] using ok
      subst whole
      exact kept_write trace s sock bytes available now kept

/-- Every byte is relayed in order, as long as no write takes a part of its bytes only and no
read fails behind bytes that have not been written. -/
theorem bytes_relayed {trace : List Step} {s : State} (run : machine.Run trace s)
    (met : ∀ e ∈ trace, Met e = true) : Relayed trace s := by
  have kept := kept_run run met
  refine ⟨fun sock => ?_, fun stopped => ?_⟩
  · rw [kept.bytes sock]
    exact List.prefix_append _ _
  · rw [kept.running.1, kept.running.2] at stopped
    simp at stopped

/-! Bytes that reach the other side, and two bytes of which the second one does not. -/

def unconnected : State where
  started := 0
  closed := false
  buff := fun _ _ => 0
  doing := fun _ => .connecting
  terminated := false

def connect : List Action := [.onConnect .client false fun _ => 0, .onConnect .server false fun _ => 0]

theorem two_bytes_relayed : ∃ trace s, machine.Run trace s ∧
    (written .server trace, received .client trace) = ([97, 98], [97, 98]) ∧ Relayed trace s := by
  obtain ⟨trace, s, run, check⟩ := Machine.run_of_check (M := machine) (s := unconnected)
    ⟨rfl, rfl, fun _ => rfl, rfl⟩
    (connect ++ ([.readSome .client false [97] 1, .readSome .client false [98] 0,
      .onWrite .server 2 0, .readSome .client true [] 0] : List Action))
    (fun r => decide ((written .server r.1, received .client r.1) =
      (([97, 98], [97, 98]) : List UInt8 × List UInt8)) && r.1.all Met) (by decide +kernel)
  rw [Bool.and_eq_true] at check
  exact ⟨trace, s, run, of_decide_eq_true check.1,
    bytes_relayed run (List.all_eq_true.mp check.2)⟩

theorem second_byte_lost : ¬ ∀ trace s, machine.Run trace s → Relayed trace s := by
  intro claim
  obtain ⟨trace, s, run, check⟩ := Machine.run_of_check (M := machine) (s := unconnected)
    ⟨rfl, rfl, fun _ => rfl, rfl⟩
    (connect ++ ([.readSome .client false [97] 1, .readSome .client false [98] 0,
      .onWrite .server 1 0, .readSome .client false [99] 0, .onWrite .server 1 0] : List Action))
    (fun r => decide ((written .server r.1, received .client r.1) =
      (([97, 99], [97, 98, 99]) : List UInt8 × List UInt8))) (by decide +kernel)
  have same := of_decide_eq_true check
  rw [Prod.mk.injEq] at same
  have order := (claim trace s run).1 .client
  rw [Side.other, same.1, same.2] at order
  exact absurd order (by decide)

end NetworkProgramming.Proxy
