import NetworkProgramming.StrCli

/-!
What str_cli does to its bytes, over whole runs. Each direction is a queue whose
contents are what has been read and not yet written; the FIN follows the last
byte of standard input. The incoming direction has no such rule: the end of file
on the socket ends str_cli whatever is left of the queue.
-/

namespace NetworkProgramming.StrCli

open LinearBuffer

/-! The bytes and the end of file in a sequence of system calls. -/

def Syscall.input (fd : Fd) : Syscall → List UInt8
  | .read other _ (.data bytes) => if other = fd then bytes else []
  | _ => []

def Syscall.output (fd : Fd) : Syscall → List UInt8
  | .write other bytes (.wrote count) => if other = fd then bytes.take count else []
  | _ => []

def readFrom (fd : Fd) (calls : List Syscall) : List UInt8 := calls.flatMap (Syscall.input fd)
def writtenTo (fd : Fd) (calls : List Syscall) : List UInt8 := calls.flatMap (Syscall.output fd)

/-- Not a read of no bytes, which would look like the end of file. -/
def Syscall.Asks : Syscall → Prop
  | .read _ length _ => length ≠ 0
  | _ => True

def SawEof (calls : List Syscall) : Prop := ∃ length, Syscall.read .stdin length .eof ∈ calls

def syscalls (trace : List Step) : List Syscall := trace.flatMap (·.output)

/-! The bytes that the reads of a run are given. -/

def Place.source : Place → Option Fd
  | .readStdin => some .stdin
  | .readSocket => some .sockfd
  | _ => none

def given (fd : Fd) (e : Step) : List UInt8 :=
  match e.action with
  | .read (.data bytes) => if e.before.place.source = some fd then bytes else []
  | _ => []

def received (fd : Fd) (trace : List Step) : List UInt8 := trace.flatMap (given fd)

theorem step_given (fd : Fd) (e : Step) (stepped : machine.Stepped e) :
    readFrom fd e.output = given fd e := by
  obtain ⟨s, action, output, after⟩ := e
  have effect : Effect s action after output := step_effect s after action output stepped
  cases effect with
  | readStdin result here _ _ =>
      cases result with
      | eof =>
          simp only [readStdin]
          split <;> rfl
      | data bytes => simp [readStdin, readFrom, Syscall.input, given, here, Place.source]
      | _ => rfl
  | readSocket result here _ _ =>
      cases result with
      | data bytes => simp [readSocket, readFrom, Syscall.input, given, here, Place.source]
      | _ => rfl
  | writeStdout result _ _ => cases result <;> rfl
  | writeSocket result _ _ _ =>
      cases result with
      | wrote count =>
          simp only [writeSocket]
          split <;> rfl
      | _ => rfl
  | _ => rfl

theorem run_received (trace : List Step) (s : State) (run : machine.Run trace s) (fd : Fd) :
    readFrom fd (syscalls trace) = received fd trace := by
  have each : ∀ e ∈ trace, readFrom fd e.output = given fd e :=
    run.each fun _ e _ stepped => step_given fd e stepped
  rw [readFrom, syscalls, List.flatMap_assoc, received]
  exact List.flatMap_congr each

theorem syscalls_snoc (trace : List Step) (e : Step) :
    syscalls (trace ++ [e]) = syscalls trace ++ e.output := by
  simp [syscalls]

structure Buffers (calls : List Syscall) (s : State) : Prop where
  toFormed : s.toBuf.WellFormed maxline
  frFormed : s.frBuf.WellFormed maxline
  toRoom : s.place = .readStdin → s.rset .stdin = true →
    s.toBuf.iptr < maxline ∧ s.stdineof = false
  frRoom : s.place = .readStdin ∨ s.place = .readSocket → s.rset .sockfd = true →
    s.frBuf.iptr < maxline
  requests : ∀ call ∈ calls, call.Asks
  outgoing : writtenTo .sockfd calls ++ s.toBuf.pending = readFrom .stdin calls
  incoming : writtenTo .stdout calls ++ s.frBuf.pending = readFrom .sockfd calls

/-- Whoever has shut the connection down has seen the end of file before and
written everything. -/
def Closed (calls : List Syscall) : Prop :=
  ∀ before after, calls = before ++ .shutdown :: after →
    SawEof before ∧ writtenTo .sockfd before = readFrom .stdin before

structure Closing (calls : List Syscall) (s : State) : Prop where
  eof : s.stdineof = true ↔ SawEof calls
  shutdowns : calls.count .shutdown =
    if s.stdineof = true ∧ s.toBuf.optr = s.toBuf.iptr then 1 else 0
  closed : Closed calls

theorem saw_eof_append (calls more : List Syscall) :
    SawEof (calls ++ more) ↔ SawEof calls ∨ SawEof more := by
  simp [SawEof, exists_or]

theorem closed_append (calls more : List Syscall) (closed : Closed calls)
    (silent : Syscall.shutdown ∉ more) : Closed (calls ++ more) := by
  intro before after same
  rcases List.append_eq_append_iff.mp same with ⟨init, _, rest⟩ | ⟨init, split, rest⟩
  · rw [rest] at silent
    simp at silent
  · cases init with
    | nil =>
        rw [List.nil_append] at rest
        rw [← rest] at silent
        simp at silent
    | cons first init =>
        simp only [List.cons_append, List.cons.injEq] at rest
        obtain ⟨rfl, _⟩ := rest
        exact closed before init split

theorem closed_shutdown (calls : List Syscall) (closed : Closed calls) (eof : SawEof calls)
    (written : writtenTo .sockfd calls = readFrom .stdin calls) :
    Closed (calls ++ [.shutdown]) := by
  intro before after same
  rcases List.append_eq_append_iff.mp same with ⟨init, rfl, rest⟩ | ⟨init, split, rest⟩
  · cases init with
    | nil =>
        rw [List.append_nil]
        exact ⟨eof, written⟩
    | cons first init => simp at rest
  · cases init with
    | nil =>
        rw [List.append_nil] at split
        rw [← split]
        exact ⟨eof, written⟩
    | cons first init =>
        simp only [List.cons_append, List.cons.injEq] at rest
        obtain ⟨rfl, _⟩ := rest
        exact closed before init split

/-- A step keeps each direction a queue if what it writes comes off the front
and what it reads goes to the back. -/
theorem Buffers.step {calls : List Syscall} {s : State} (buffers : Buffers calls s)
    (more : List Syscall) (next : State)
    (toFormed : next.toBuf.WellFormed maxline) (frFormed : next.frBuf.WellFormed maxline)
    (later : next.place ≠ .readStdin)
    (frRoom : next.place = .readSocket → next.rset .sockfd = true → next.frBuf.iptr < maxline)
    (requests : ∀ call ∈ more, call.Asks)
    (outgoing : writtenTo .sockfd more ++ next.toBuf.pending =
      s.toBuf.pending ++ readFrom .stdin more)
    (incoming : writtenTo .stdout more ++ next.frBuf.pending =
      s.frBuf.pending ++ readFrom .sockfd more) : Buffers (calls ++ more) next := by
  constructor
  · exact toFormed
  · exact frFormed
  · intro here
    exact absurd here later
  · intro here
    exact frRoom (here.resolve_left later)
  · intro call member
    rcases List.mem_append.mp member with old | new
    · exact buffers.requests call old
    · exact requests call new
  · have before := buffers.outgoing
    simp only [writtenTo, readFrom, List.flatMap_append, List.append_assoc] at before outgoing ⊢
    rw [outgoing, ← List.append_assoc, before]
  · have before := buffers.incoming
    simp only [writtenTo, readFrom, List.flatMap_append, List.append_assoc] at before incoming ⊢
    rw [incoming, ← List.append_assoc, before]

theorem read_stdin_buffers (calls : List Syscall) (s : State) (result : ReadResult)
    (here : s.place = .readStdin) (ready : s.rset .stdin = true)
    (possible : result.Possible (maxline - s.toBuf.iptr)) (buffers : Buffers calls s) :
    Buffers (calls ++ (readStdin s result).2) (readStdin s result).1 := by
  obtain ⟨toFormed, frFormed, toRoom, frRoom, _, _, _⟩ := id buffers
  have room := (toRoom here ready).1
  -- stdin was put into rset only with room in the buffer
  have asked : maxline - s.toBuf.iptr ≠ 0 := by omega
  cases result with
  | data bytes =>
      apply buffers.step
      · exact Buffer.fill_formed toFormed bytes possible.2
      · exact frFormed
      · simp [readStdin]
      · intro _
        exact frRoom (Or.inl here)
      · simp [readStdin, Syscall.Asks, asked]
      · simp [readStdin, writtenTo, readFrom, Syscall.input, Syscall.output,
          Buffer.pending_fill toFormed]
      · simp [readStdin, writtenTo, readFrom, Syscall.input, Syscall.output]
  | eof =>
      apply buffers.step
      · exact toFormed
      · exact frFormed
      · simp [readStdin]
      · intro _
        exact frRoom (Or.inl here)
      · simp only [readStdin]
        split <;> simp [Syscall.Asks, asked]
      · simp only [readStdin]
        split <;> simp [writtenTo, readFrom, Syscall.input, Syscall.output]
      · simp only [readStdin]
        split <;> simp [writtenTo, readFrom, Syscall.input, Syscall.output]
  | ewouldblock =>
      apply buffers.step
      · exact toFormed
      · exact frFormed
      · simp [readStdin]
      · intro _
        exact frRoom (Or.inl here)
      · simp [readStdin, Syscall.Asks, asked]
      · simp [readStdin, writtenTo, readFrom, Syscall.input, Syscall.output]
      · simp [readStdin, writtenTo, readFrom, Syscall.input, Syscall.output]
  | error =>
      apply buffers.step
      · exact toFormed
      · exact frFormed
      · simp [readStdin]
      · simp [readStdin]
      · simp [readStdin, Syscall.Asks, asked]
      · simp [readStdin, writtenTo, readFrom, Syscall.input, Syscall.output]
      · simp [readStdin, writtenTo, readFrom, Syscall.input, Syscall.output]

theorem read_socket_buffers (calls : List Syscall) (s : State) (result : ReadResult)
    (here : s.place = .readSocket) (ready : s.rset .sockfd = true)
    (possible : result.Possible (maxline - s.frBuf.iptr)) (buffers : Buffers calls s) :
    Buffers (calls ++ (readSocket s result).2) (readSocket s result).1 := by
  obtain ⟨toFormed, frFormed, _, frRoom, _, _, _⟩ := id buffers
  have room := frRoom (Or.inr here) ready
  have asked : maxline - s.frBuf.iptr ≠ 0 := by omega
  cases result with
  | data bytes =>
      apply buffers.step
      · exact toFormed
      · exact Buffer.fill_formed frFormed bytes possible.2
      · simp [readSocket]
      · simp [readSocket]
      · simp [readSocket, Syscall.Asks, asked]
      · simp [readSocket, writtenTo, readFrom, Syscall.input, Syscall.output]
      · simp [readSocket, writtenTo, readFrom, Syscall.input, Syscall.output,
          Buffer.pending_fill frFormed]
  | _ =>
      apply buffers.step
      · exact toFormed
      · exact frFormed
      · cases ended : s.stdineof <;> simp [readSocket, ended]
      · cases ended : s.stdineof <;> simp [readSocket, ended]
      · simp [readSocket, Syscall.Asks, asked]
      · simp [readSocket, writtenTo, readFrom, Syscall.input, Syscall.output]
      · simp [readSocket, writtenTo, readFrom, Syscall.input, Syscall.output]

theorem write_stdout_buffers (calls : List Syscall) (s : State) (result : WriteResult)
    (possible : result.Possible s.frBuf.pending) (buffers : Buffers calls s) :
    Buffers (calls ++ (writeStdout s result).2) (writeStdout s result).1 := by
  obtain ⟨toFormed, frFormed, _, _, _, _, _⟩ := id buffers
  cases result with
  | wrote count =>
      have enough : count ≤ s.frBuf.iptr - s.frBuf.optr := by
        simpa [Buffer.pending] using possible.2
      apply buffers.step
      · exact toFormed
      · exact Buffer.drain_formed frFormed count enough
      · simp [writeStdout]
      · simp [writeStdout]
      · simp [writeStdout, Syscall.Asks]
      · simp [writeStdout, writtenTo, readFrom, Syscall.input, Syscall.output]
      · simp [writeStdout, writtenTo, readFrom, Syscall.input, Syscall.output,
          Buffer.pending_drain frFormed count enough]
  | _ =>
      apply buffers.step
      · exact toFormed
      · exact frFormed
      · simp [writeStdout]
      · simp [writeStdout]
      · simp [writeStdout, Syscall.Asks]
      · simp [writeStdout, writtenTo, readFrom, Syscall.input, Syscall.output]
      · simp [writeStdout, writtenTo, readFrom, Syscall.input, Syscall.output]

theorem write_socket_buffers (calls : List Syscall) (s : State) (result : WriteResult)
    (possible : result.Possible s.toBuf.pending) (buffers : Buffers calls s) :
    Buffers (calls ++ (writeSocket s result).2) (writeSocket s result).1 := by
  obtain ⟨toFormed, frFormed, _, _, _, _, _⟩ := id buffers
  cases result with
  | wrote count =>
      have enough : count ≤ s.toBuf.iptr - s.toBuf.optr := by
        simpa [Buffer.pending] using possible.2
      have drained := Buffer.pending_drain toFormed count enough
      apply buffers.step
      · exact Buffer.drain_formed toFormed count enough
      · exact frFormed
      · simp [writeSocket]
      · simp [writeSocket]
      · simp only [writeSocket]
        split <;> simp [Syscall.Asks]
      · simp only [writeSocket]
        split <;> simp [writtenTo, readFrom, Syscall.input, Syscall.output, drained]
      · simp only [writeSocket]
        split <;> simp [writtenTo, readFrom, Syscall.input, Syscall.output]
  | _ =>
      apply buffers.step
      · exact toFormed
      · exact frFormed
      · simp [writeSocket]
      · simp [writeSocket]
      · simp [writeSocket, Syscall.Asks]
      · simp [writeSocket, writtenTo, readFrom, Syscall.input, Syscall.output]
      · simp [writeSocket, writtenTo, readFrom, Syscall.input, Syscall.output]

theorem step_buffers (calls more : List Syscall) (s after : State) (action : Action)
    (effect : Effect s action after more) (buffers : Buffers calls s) :
    Buffers (calls ++ more) after := by
  cases effect with
  | select readable writable here =>
      obtain ⟨toFormed, frFormed, _, _, requests, outgoing, incoming⟩ := buffers
      rw [List.append_nil]
      constructor
      · exact toFormed
      · exact frFormed
      · intro _ ready
        simp only [select, wantRead, Bool.and_eq_true, Bool.not_eq_true',
          decide_eq_true_eq] at ready
        exact ⟨ready.1.2, ready.1.1⟩
      · intro _ ready
        simp only [select, wantRead, Bool.and_eq_true, decide_eq_true_eq] at ready
        exact ready.1
      · exact requests
      · exact outgoing
      · exact incoming
  | readStdin result here ready possible =>
      exact read_stdin_buffers calls s result here ready possible buffers
  | readSocket result here ready possible =>
      exact read_socket_buffers calls s result here ready possible buffers
  | writeStdout result here possible => exact write_stdout_buffers calls s result possible buffers
  | writeSocket result here _ possible =>
      exact write_socket_buffers calls s result possible buffers
  | pass next here =>
      -- a step without a system call moves the place only
      obtain ⟨toFormed, frFormed, _, frRoom, _, _, _⟩ := id buffers
      apply buffers.step
      · exact toFormed
      · exact frFormed
      · rcases here with ⟨_, rfl⟩ | ⟨_, rfl⟩ | ⟨_, rfl⟩ | ⟨_, rfl⟩ <;> simp
      · intro turned
        apply frRoom
        rcases here with ⟨was, _⟩ | ⟨was, _⟩ | ⟨_, rfl⟩ | ⟨_, rfl⟩
        · exact Or.inl was
        · exact Or.inr was
        · cases turned
        · cases turned
      · simp
      · simp [writtenTo, readFrom]
      · simp [writtenTo, readFrom]

/-! The end of file and the shutdown. -/

theorem Closing.quiet {calls : List Syscall} {s : State} (closing : Closing calls s)
    (more : List Syscall) (next : State) (silent : Syscall.shutdown ∉ more)
    (going : ¬ SawEof more) (same : next.stdineof = s.stdineof)
    (left : s.stdineof = true →
      (next.toBuf.optr = next.toBuf.iptr ↔ s.toBuf.optr = s.toBuf.iptr)) :
    Closing (calls ++ more) next := by
  obtain ⟨eof, shutdowns, closed⟩ := closing
  constructor
  · rw [saw_eof_append, same, eof, or_iff_left going]
  · rw [List.count_append, List.count_eq_zero.mpr silent, Nat.add_zero, shutdowns, same]
    by_cases ended : s.stdineof = true
    · simp only [ended, true_and, left ended]
    · rw [if_neg (by simp [ended]), if_neg (by simp [ended])]
  · exact closed_append calls more closed silent

theorem read_stdin_closing (calls : List Syscall) (s : State) (result : ReadResult)
    (here : s.place = .readStdin) (ready : s.rset .stdin = true) (buffers : Buffers calls s)
    (closing : Closing calls s) :
    Closing (calls ++ (readStdin s result).2) (readStdin s result).1 := by
  have going : s.stdineof = false := (buffers.toRoom here ready).2
  cases result with
  | eof =>
      obtain ⟨_, shutdowns, closed⟩ := closing
      have later : SawEof (calls ++ [Syscall.read .stdin (maxline - s.toBuf.iptr) .eof]) :=
        ⟨_, List.mem_append_right _ (List.mem_singleton_self _)⟩
      have reads := closed_append calls
        [Syscall.read .stdin (maxline - s.toBuf.iptr) .eof] closed (by simp)
      rw [going, if_neg (by simp)] at shutdowns
      by_cases empty : s.toBuf.optr = s.toBuf.iptr
      -- nothing is left to write, so the FIN goes out at once
      · have written : writtenTo .sockfd
            (calls ++ [Syscall.read .stdin (maxline - s.toBuf.iptr) .eof]) =
            readFrom .stdin (calls ++ [Syscall.read .stdin (maxline - s.toBuf.iptr) .eof]) := by
          have outgoing := buffers.outgoing
          rw [(Buffer.pending_nil_iff buffers.toFormed).mpr empty, List.append_nil] at outgoing
          simpa [writtenTo, readFrom, Syscall.input, Syscall.output] using outgoing
        have closed := closed_shutdown _ reads later written
        simp only [readStdin, if_pos empty]
        constructor
        · simp [SawEof]
        · simp [shutdowns, empty]
        · simpa using closed
      · simp only [readStdin, if_neg empty]
        constructor
        · simp [SawEof]
        · simp [shutdowns, empty]
        · exact reads
  | _ =>
      apply closing.quiet
      · simp [readStdin]
      · simp [SawEof, readStdin]
      · rfl
      · simp [going]

theorem write_socket_closing (calls : List Syscall) (s : State) (result : WriteResult)
    (some_left : s.toBuf.iptr - s.toBuf.optr > 0) (possible : result.Possible s.toBuf.pending)
    (buffers : Buffers calls s) (closing : Closing calls s) :
    Closing (calls ++ (writeSocket s result).2) (writeSocket s result).1 := by
  cases result with
  | wrote count =>
      have after := (write_socket_buffers calls s (.wrote count) possible buffers)
      obtain ⟨eof, shutdowns, closed⟩ := closing
      have writes := closed_append calls
        [Syscall.write .sockfd s.toBuf.pending (.wrote count)] closed (by simp)
      have seen : SawEof (calls ++ [Syscall.write .sockfd s.toBuf.pending (.wrote count)]) ↔
          s.stdineof = true := by
        rw [saw_eof_append, ← eof]
        simp [SawEof]
      rw [if_neg (by omega)] at shutdowns
      -- the FIN is sent here if the buffer is empty now and the input has ended
      by_cases last : s.toBuf.optr + count = s.toBuf.iptr ∧ s.stdineof = true
      · have empty := (Buffer.drain_empty_iff s.toBuf count).mpr last.1
        have written : writtenTo .sockfd
            (calls ++ [Syscall.write .sockfd s.toBuf.pending (.wrote count)]) =
            readFrom .stdin (calls ++ [Syscall.write .sockfd s.toBuf.pending (.wrote count)]) := by
          have outgoing := after.outgoing
          have drained := (Buffer.pending_nil_iff after.toFormed).mpr empty
          simp only [writeSocket, if_pos last] at outgoing drained
          rw [drained, List.append_nil] at outgoing
          simpa [writtenTo, readFrom, Syscall.input, Syscall.output] using outgoing
        have closed := closed_shutdown _ writes (seen.mpr last.2) written
        simp only [writeSocket, if_pos last]
        constructor
        · rw [← seen]
          simp [SawEof]
        · simp [shutdowns, last.2, empty]
        · simpa using closed
      · have unfinished : ¬ (s.stdineof = true ∧
            (s.toBuf.drain count).optr = (s.toBuf.drain count).iptr) := by
          rw [Buffer.drain_empty_iff]
          tauto
        simp only [writeSocket, if_neg last]
        constructor
        · exact seen.symm
        · simp [shutdowns, unfinished]
        · exact writes
  | _ =>
      apply closing.quiet
      · simp [writeSocket]
      · simp [SawEof, writeSocket]
      · rfl
      · simp [writeSocket]

theorem step_closing (calls more : List Syscall) (s after : State) (action : Action)
    (effect : Effect s action after more) (buffers : Buffers calls s)
    (closing : Closing calls s) : Closing (calls ++ more) after := by
  cases effect with
  | readStdin result here ready possible =>
      exact read_stdin_closing calls s result here ready buffers closing
  | writeSocket result here some_left possible =>
      exact write_socket_closing calls s result some_left possible buffers closing
  | select readable writable here =>
      apply closing.quiet <;> simp [select, SawEof]
  | readSocket result here ready possible =>
      cases result <;> apply closing.quiet <;> simp [readSocket, SawEof]
  | writeStdout result here possible =>
      cases result <;> apply closing.quiet <;> simp [writeStdout, SawEof]
  | pass next here =>
      apply closing.quiet <;> simp [SawEof]

theorem start_buffers : Buffers [] start := by
  constructor <;> simp [start, writtenTo, readFrom, Buffer.pending, load]
  · constructor <;> simp
  · constructor <;> simp

theorem start_closing : Closing [] start := by
  constructor
  · simp [start, SawEof]
  · simp [start]
  · intro before after same
    simp at same

theorem run_kept (trace : List Step) (s : State) (run : machine.Run trace s) :
    Buffers (syscalls trace) s ∧ Closing (syscalls trace) s := by
  apply run.history (C := fun _ => True)
    (I := fun trace s => Buffers (syscalls trace) s ∧ Closing (syscalls trace) s)
  · intro s first
    cases (first : s = start)
    exact ⟨start_buffers, start_closing⟩
  · intro trace e stepped _ kept
    have effect := step_effect e.before e.after e.action e.output stepped
    rw [syscalls_snoc]
    constructor
    · exact step_buffers _ _ _ _ _ effect kept.1
    · exact step_closing _ _ _ _ _ effect kept.1 kept.2
  · exact fun _ _ => trivial

/-- The outgoing direction: the pointers stay in order and in the buffers, no
read asks for nothing, what lies between the pointers is what has been read and
not written, and the FIN is sent once, after the end of file on standard input
and the last of its bytes, and as soon as both are through. -/
theorem str_cli_outgoing (trace : List Step) (s : State) (run : machine.Run trace s) :
    (s.toBuf.optr ≤ s.toBuf.iptr ∧ s.toBuf.iptr ≤ maxline) ∧
    (s.frBuf.optr ≤ s.frBuf.iptr ∧ s.frBuf.iptr ≤ maxline) ∧
    (∀ call ∈ syscalls trace, call.Asks) ∧
    (∀ fd, readFrom fd (syscalls trace) = received fd trace) ∧
    writtenTo .sockfd (syscalls trace) ++ s.toBuf.pending = received .stdin trace ∧
    writtenTo .stdout (syscalls trace) ++ s.frBuf.pending = received .sockfd trace ∧
    (syscalls trace).count .shutdown ≤ 1 ∧ Closed (syscalls trace) ∧
    (s.place = .top → s.stdineof = true → s.toBuf.optr = s.toBuf.iptr →
      .shutdown ∈ syscalls trace) := by
  obtain ⟨buffers, closing⟩ := run_kept trace s run
  have reads := run_received trace s run
  constructor
  · exact ⟨buffers.toFormed.ordered, buffers.toFormed.within⟩
  constructor
  · exact ⟨buffers.frFormed.ordered, buffers.frFormed.within⟩
  constructor
  · exact buffers.requests
  constructor
  · exact reads
  constructor
  · rw [← reads]
    exact buffers.outgoing
  constructor
  · rw [← reads]
    exact buffers.incoming
  constructor
  · rw [closing.shutdowns]
    split <;> omega
  constructor
  · exact closing.closed
  · intro _ ended empty
    apply List.count_pos_iff.mp
    rw [closing.shutdowns, if_pos ⟨ended, empty⟩]
    omega

theorem one_line_sent :
    ∃ (trace : List Step) (s : State), machine.Run trace s ∧ s.place = .top ∧
      writtenTo .sockfd (syscalls trace) = [104, 10] ∧ .shutdown ∈ syscalls trace := by
  obtain ⟨trace, last, run, checked⟩ := Machine.run_of_check (M := machine) (s := start) rfl
    [.select (fun _ => true) (fun _ => true), .read (.data [104, 10]), .read .ewouldblock, .pass,
      .write (.wrote 1), .select (fun _ => true) (fun _ => true), .read .eof, .read .ewouldblock,
      .pass, .write (.wrote 1)]
    (fun r => decide (r.2.place = .top ∧ r.2.stdineof = true ∧ r.2.toBuf.optr = r.2.toBuf.iptr ∧
      writtenTo .sockfd (syscalls r.1) = [104, 10]))
    (by decide +kernel)
  obtain ⟨here, ended, empty, written⟩ := of_decide_eq_true checked
  obtain ⟨_, _, _, _, _, _, _, _, shut⟩ := str_cli_outgoing trace last run
  exact ⟨trace, last, run, here, written, shut here ended empty⟩

/-- At its return str_cli has written all that came from the socket just when
the last read of the socket, the one that found the end of file, found no
remainder in the buffer. -/
theorem str_cli_incoming (trace : List Step) (s : State) (run : machine.Run trace s)
    (returned : s.place = .returned) :
    ∃ pre e, trace = pre ++ [e] ∧
      (writtenTo .stdout (syscalls trace) = received .sockfd trace ↔
        e.before.frBuf.optr = e.before.frBuf.iptr) := by
  have buffers := (run_kept trace s run).1
  have reads := run_received trace s run .sockfd
  cases run with
  | start first =>
      cases (first : s = start)
      cases returned
  | @next pre e _ stepped =>
      refine ⟨pre, e, rfl, ?_⟩
      have same : e.after.frBuf = e.before.frBuf := by
        obtain ⟨before, action, output, after⟩ := e
        have effect : Effect before action after output :=
          step_effect before after action output stepped
        cases effect with
        | readSocket result _ _ _ => cases result <;> first | rfl | cases returned
        | writeStdout result _ _ => cases result <;> cases returned
        | readStdin result _ _ _ => cases result <;> rfl
        | writeSocket result _ _ _ => cases result <;> rfl
        | _ => rfl
      rw [← reads, ← same, ← Buffer.pending_nil_iff buffers.frFormed, ← buffers.incoming]
      exact List.self_eq_append_right

/-- The server's reply comes while standard output is blocked, and its end of
file right after it. -/
theorem reply_dropped :
    ∃ (trace : List Step) (s : State), machine.Run trace s ∧ s.place = .returned ∧
      writtenTo .stdout (syscalls trace) ≠ received .sockfd trace := by
  obtain ⟨trace, last, run, checked⟩ := Machine.run_of_check (M := machine) (s := start) rfl
    [.select (fun _ => true) (fun _ => true), .read .eof, .read (.data [104, 10]),
      .write .ewouldblock, .pass, .select (fun _ => true) (fun _ => false), .pass, .read .eof]
    (fun r => decide (r.2.place = .returned ∧
      writtenTo .stdout (syscalls r.1) ≠ received .sockfd r.1))
    (by decide +kernel)
  obtain ⟨returned, dropped⟩ := of_decide_eq_true checked
  exact ⟨trace, last, run, returned, dropped⟩

theorem reply_printed :
    ∃ (trace : List Step) (s : State), machine.Run trace s ∧ s.place = .returned ∧
      ∃ pre e, trace = pre ++ [e] ∧
        (writtenTo .stdout (syscalls trace) = received .sockfd trace ↔
          e.before.frBuf.optr = e.before.frBuf.iptr) := by
  obtain ⟨trace, last, run, checked⟩ := Machine.run_of_check (M := machine) (s := start) rfl
    [.select (fun _ => true) (fun _ => true), .read .eof, .read (.data [104, 10]),
      .write (.wrote 2), .pass, .select (fun _ => true) (fun _ => false), .pass, .read .eof]
    (fun r => decide (r.2.place = .returned)) (by decide +kernel)
  have returned : last.place = .returned := of_decide_eq_true checked
  exact ⟨trace, last, run, returned, str_cli_incoming trace last run returned⟩

end NetworkProgramming.StrCli
