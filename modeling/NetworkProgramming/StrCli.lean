import NetworkProgramming.LinearBuffer
import NetworkProgramming.Machine

/-!
The nonblocking str_cli of unpv13e/nonblock/strclinonb.c. One pass of the loop
is Select and the four branches after it, a step each; the environment chooses
what Select finds ready and what read and write return. A step outputs the
system calls it makes.
-/

namespace NetworkProgramming.StrCli

open LinearBuffer

def maxline : Nat := 4096

inductive Fd where
  | stdin
  | stdout
  | sockfd
  deriving DecidableEq

/-- `error` is any errno but EWOULDBLOCK. -/
inductive ReadResult where
  | data (bytes : List UInt8)
  | eof
  | ewouldblock
  | error
  deriving DecidableEq

inductive WriteResult where
  | wrote (count : Nat)
  | ewouldblock
  | error
  deriving DecidableEq

inductive Syscall where
  | read (fd : Fd) (length : Nat) (result : ReadResult)
  | write (fd : Fd) (bytes : List UInt8) (result : WriteResult)
  | shutdown
  deriving DecidableEq

/-- Where str_cli stands: before the named part of the loop, or out of it. -/
inductive Place where
  | top
  | readStdin
  | readSocket
  | writeStdout
  | writeSocket
  | returned
  | failed
  deriving DecidableEq

/-- `toBuf` is `to` with `toiptr` and `tooptr`, `frBuf` is `fr` with `friptr` and
`froptr`. -/
structure State where
  toBuf : Buffer UInt8
  frBuf : Buffer UInt8
  stdineof : Bool
  rset : Fd → Bool
  wset : Fd → Bool
  place : Place

inductive Action where
  | select (readable writable : Fd → Bool)
  | read (result : ReadResult)
  | write (result : WriteResult)
  | pass

abbrev Step := Transition State Action (List Syscall)

def wantRead (s : State) : Fd → Bool
  | .stdin => !s.stdineof && decide (s.toBuf.iptr < maxline)
  | .sockfd => decide (s.frBuf.iptr < maxline)
  | .stdout => false

def wantWrite (s : State) : Fd → Bool
  | .sockfd => decide (s.toBuf.optr ≠ s.toBuf.iptr)
  | .stdout => decide (s.frBuf.optr ≠ s.frBuf.iptr)
  | .stdin => false

def select (s : State) (readable writable : Fd → Bool) : State :=
  { s with
    rset := fun fd => wantRead s fd && readable fd
    wset := fun fd => wantWrite s fd && writable fd
    place := .readStdin }

/-- What read may return for a request of `length` bytes. -/
def ReadResult.Possible (length : Nat) : ReadResult → Prop
  | .data bytes => bytes ≠ [] ∧ bytes.length ≤ length
  | _ => True

def WriteResult.Possible (bytes : List UInt8) : WriteResult → Prop
  | .wrote count => 0 < count ∧ count ≤ bytes.length
  | _ => True

instance (length : Nat) (result : ReadResult) : Decidable (result.Possible length) :=
  match result with
  | .data _ => inferInstanceAs (Decidable (_ ∧ _))
  | .eof | .ewouldblock | .error => isTrue trivial

instance (bytes : List UInt8) (result : WriteResult) : Decidable (result.Possible bytes) :=
  match result with
  | .wrote _ => inferInstanceAs (Decidable (_ ∧ _))
  | .ewouldblock | .error => isTrue trivial

def readStdin (s : State) (result : ReadResult) : State × List Syscall :=
  let call := Syscall.read .stdin (maxline - s.toBuf.iptr) result
  match result with
  | .error => ({ s with place := .failed }, [call])
  | .ewouldblock => ({ s with place := .readSocket }, [call])
  | .eof => ({ s with stdineof := true, place := .readSocket },
      if s.toBuf.optr = s.toBuf.iptr then [call, .shutdown] else [call])
  | .data bytes => ({ s with
      toBuf := s.toBuf.fill bytes
      wset := Function.update s.wset .sockfd true
      place := .readSocket }, [call])

def readSocket (s : State) (result : ReadResult) : State × List Syscall :=
  let call := Syscall.read .sockfd (maxline - s.frBuf.iptr) result
  match result with
  | .error => ({ s with place := .failed }, [call])
  | .ewouldblock => ({ s with place := .writeStdout }, [call])
  | .eof => ({ s with place := if s.stdineof then .returned else .failed }, [call])
  | .data bytes => ({ s with
      frBuf := s.frBuf.fill bytes
      wset := Function.update s.wset .stdout true
      place := .writeStdout }, [call])

def writeStdout (s : State) (result : WriteResult) : State × List Syscall :=
  let call := Syscall.write .stdout s.frBuf.pending result
  match result with
  | .error => ({ s with place := .failed }, [call])
  | .ewouldblock => ({ s with place := .writeSocket }, [call])
  | .wrote count => ({ s with frBuf := s.frBuf.drain count, place := .writeSocket }, [call])

def writeSocket (s : State) (result : WriteResult) : State × List Syscall :=
  let call := Syscall.write .sockfd s.toBuf.pending result
  match result with
  | .error => ({ s with place := .failed }, [call])
  | .ewouldblock => ({ s with place := .top }, [call])
  | .wrote count => ({ s with toBuf := s.toBuf.drain count, place := .top },
      if s.toBuf.optr + count = s.toBuf.iptr ∧ s.stdineof then [call, .shutdown] else [call])

def step (s : State) : Action → Option (State × List Syscall)
  | .select readable writable =>
      if s.place = .top then some (select s readable writable, []) else none
  | .read result =>
      match s.place with
      | .readStdin =>
          if s.rset .stdin ∧ result.Possible (maxline - s.toBuf.iptr) then some (readStdin s result)
          else none
      | .readSocket =>
          if s.rset .sockfd ∧ result.Possible (maxline - s.frBuf.iptr) then some (readSocket s result)
          else none
      | _ => none
  | .write result =>
      match s.place with
      | .writeStdout =>
          if s.wset .stdout ∧ s.frBuf.iptr - s.frBuf.optr > 0 ∧ result.Possible s.frBuf.pending then
            some (writeStdout s result)
          else none
      | .writeSocket =>
          if s.wset .sockfd ∧ s.toBuf.iptr - s.toBuf.optr > 0 ∧ result.Possible s.toBuf.pending then
            some (writeSocket s result)
          else none
      | _ => none
  | .pass =>
      match s.place with
      | .readStdin => if s.rset .stdin then none else some ({ s with place := .readSocket }, [])
      | .readSocket => if s.rset .sockfd then none else some ({ s with place := .writeStdout }, [])
      | .writeStdout =>
          if s.wset .stdout ∧ s.frBuf.iptr - s.frBuf.optr > 0 then none
          else some ({ s with place := .writeSocket }, [])
      | .writeSocket =>
          if s.wset .sockfd ∧ s.toBuf.iptr - s.toBuf.optr > 0 then none
          else some ({ s with place := .top }, [])
      | _ => none

def start : State where
  toBuf := ⟨fun _ => 0, 0, 0⟩
  frBuf := ⟨fun _ => 0, 0, 0⟩
  stdineof := false
  rset _ := false
  wset _ := false
  place := .top

def machine : Machine State Action (List Syscall) where
  start s := s = start
  step := step

inductive Effect (s : State) : Action → State → List Syscall → Prop where
  | select (readable writable : Fd → Bool) (here : s.place = .top) :
      Effect s (.select readable writable) (select s readable writable) []
  | readStdin (result : ReadResult) (here : s.place = .readStdin) (ready : s.rset .stdin = true)
      (possible : result.Possible (maxline - s.toBuf.iptr)) :
      Effect s (.read result) (readStdin s result).1 (readStdin s result).2
  | readSocket (result : ReadResult) (here : s.place = .readSocket)
      (ready : s.rset .sockfd = true) (possible : result.Possible (maxline - s.frBuf.iptr)) :
      Effect s (.read result) (readSocket s result).1 (readSocket s result).2
  | writeStdout (result : WriteResult) (here : s.place = .writeStdout)
      (possible : result.Possible s.frBuf.pending) :
      Effect s (.write result) (writeStdout s result).1 (writeStdout s result).2
  | writeSocket (result : WriteResult) (here : s.place = .writeSocket)
      (some_left : s.toBuf.iptr - s.toBuf.optr > 0) (possible : result.Possible s.toBuf.pending) :
      Effect s (.write result) (writeSocket s result).1 (writeSocket s result).2
  | pass (next : Place)
      (here : s.place = .readStdin ∧ next = .readSocket ∨
        s.place = .readSocket ∧ next = .writeStdout ∨
        s.place = .writeStdout ∧ next = .writeSocket ∨ s.place = .writeSocket ∧ next = .top) :
      Effect s .pass { s with place := next } []

theorem step_effect (s after : State) (action : Action) (calls : List Syscall)
    (stepped : step s action = some (after, calls)) : Effect s action after calls := by
  cases action with
  | select readable writable =>
      simp only [step, Option.ite_none_right_eq_some, Option.some.injEq, Prod.mk.injEq] at stepped
      obtain ⟨here, rfl, rfl⟩ := stepped
      exact .select readable writable here
  | read result =>
      cases here : s.place with
      | readStdin =>
          simp only [step, here, Option.ite_none_right_eq_some, Option.some.injEq] at stepped
          obtain ⟨⟨ready, possible⟩, same⟩ := stepped
          have did := Effect.readStdin result here ready possible
          rwa [same] at did
      | readSocket =>
          simp only [step, here, Option.ite_none_right_eq_some, Option.some.injEq] at stepped
          obtain ⟨⟨ready, possible⟩, same⟩ := stepped
          have did := Effect.readSocket result here ready possible
          rwa [same] at did
      | _ => simp [step, here] at stepped
  | write result =>
      cases here : s.place with
      | writeStdout =>
          simp only [step, here, Option.ite_none_right_eq_some, Option.some.injEq] at stepped
          obtain ⟨⟨_, _, possible⟩, same⟩ := stepped
          have did := Effect.writeStdout result here possible
          rwa [same] at did
      | writeSocket =>
          simp only [step, here, Option.ite_none_right_eq_some, Option.some.injEq] at stepped
          obtain ⟨⟨_, some_left, possible⟩, same⟩ := stepped
          have did := Effect.writeSocket result here some_left possible
          rwa [same] at did
      | _ => simp [step, here] at stepped
  | pass =>
      cases here : s.place with
      | top => simp [step, here] at stepped
      | returned => simp [step, here] at stepped
      | failed => simp [step, here] at stepped
      | _ =>
          simp only [step, here, Option.ite_none_left_eq_some, Option.some.injEq,
            Prod.mk.injEq] at stepped
          obtain ⟨_, rfl, rfl⟩ := stepped
          exact .pass _ (by simp [here])

end NetworkProgramming.StrCli
