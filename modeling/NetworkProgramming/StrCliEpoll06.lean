import NetworkProgramming.Readline

/-!
str_cli of unpv13e/advio/str_cli_epoll06.c against an echo server. A step is one
statement of the loop or one turn of my_read inside Readline; in between the
server sends back some of what it has, and its FIN once it has the client's and
has sent everything. `arrived` is all that has come in at the socket and
`pending` the part of it not read yet. The kernel says whether EPOLL_CTL_ADD
succeeds: it refuses a regular file (EPERM).
-/

namespace NetworkProgramming.StrCliEpoll06

open CText

def maxline : Nat := 4096

inductive Fd where
  | stdin
  | sockfd
  deriving DecidableEq

/-- `readable` is EPOLLIN or EPOLLRDHUP. -/
structure EpollEvent where
  fd : Fd
  readable : Bool
  deriving DecidableEq

/-- `readline` has the bytes that Readline has stored so far, and the events
that are left. -/
inductive Place where
  | addStdin
  | addSockfd
  | top
  | wait
  | events (evlist : List EpollEvent)
  | readline (stored : List UInt8) (evlist : List EpollEvent)
  | returned
  | terminatedPrematurely
  | epollCtlError
  deriving DecidableEq

structure State where
  registered : Fd → Bool
  stdineof : Bool
  input : List UInt8
  sent : List UInt8
  arrived : List UInt8
  pending : List UInt8
  fin : Bool
  lookAhead : List UInt8
  stdout : List UInt8
  place : Place

inductive Action where
  | add (added : Bool)
  | echo (count : Nat)
  | close
  | epollWait (evlist : List EpollEvent)
  | loop
  | read (count : Nat)
  | myRead
  | eof
  deriving DecidableEq

abbrev Step := Transition State Action Unit

/-- What epoll_wait may return: registered descriptors, each once, the socket
only when there is something to read or its end. -/
def Reported (s : State) (evlist : List EpollEvent) : Prop :=
  evlist ≠ [] ∧ (evlist.map EpollEvent.fd).Nodup ∧ (∀ ev ∈ evlist, s.registered ev.fd = true) ∧
    (⟨.sockfd, true⟩ ∈ evlist → s.pending ≠ [] ∨ s.fin = true)

instance (s : State) (evlist : List EpollEvent) : Decidable (Reported s evlist) :=
  inferInstanceAs (Decidable (_ ∧ _ ∧ _ ∧ _))

/-- Epoll_ctl with EPOLL_CTL_ADD; err_sys ends the process where it fails. -/
def addFd (s : State) (fd : Fd) (added : Bool) (place : Place) : State :=
  if added then { s with registered := Function.update s.registered fd true, place := place }
  else { s with place := .epollCtlError }

def add (s : State) (added : Bool) : Option State :=
  match s.place with
  | .addStdin => some (addFd s .stdin added .addSockfd)
  | .addSockfd => some (addFd s .sockfd added .top)
  | _ => none

def delStdin (s : State) : State :=
  if s.registered .stdin then
    { s with registered := Function.update s.registered .stdin false, place := .wait }
  else { s with place := .epollCtlError }

def readStdin (s : State) (evlist : List EpollEvent) : State :=
  match fgets maxline s.input with
  | none => { s with stdineof := true, place := .events evlist }
  | some (sendline, input) =>
      { s with input := input, sent := s.sent ++ cString sendline, place := .events evlist }

def readlineReturns (s : State) (stored : List UInt8) (evlist : List EpollEvent) : State :=
  match stored with
  | [] => { s with place := if s.stdineof then .returned else .terminatedPrematurely }
  | _ :: _ => { s with stdout := s.stdout ++ cString stored, place := .events evlist }

/-- Readline has room for `maxline - 1` bytes. -/
def Finished (stored : List UInt8) (c : UInt8) : Prop :=
  c = newline ∨ stored.length + 1 = maxline - 1

instance (stored : List UInt8) (c : UInt8) : Decidable (Finished stored c) :=
  inferInstanceAs (Decidable (_ ∨ _))

def loop (s : State) : Option State :=
  match s.place with
  | .top => some (if s.stdineof then delStdin s else { s with place := .wait })
  | .events [] => some { s with place := .top }
  | .events (⟨.sockfd, true⟩ :: evlist) => some { s with place := .readline [] evlist }
  | .events (⟨.stdin, true⟩ :: evlist) => some (readStdin s evlist)
  | .events (⟨_, false⟩ :: evlist) => some { s with place := .events evlist }
  | _ => none

def myRead (s : State) : Option State :=
  match s.place, s.lookAhead with
  | .readline stored evlist, c :: lookAhead =>
      some (if Finished stored c then
        readlineReturns { s with lookAhead := lookAhead } (stored ++ [c]) evlist
      else { s with lookAhead := lookAhead, place := .readline (stored ++ [c]) evlist })
  | _, _ => none

/-- my_read fills its buffer with the first `count` bytes of the socket. -/
def read (s : State) (count : Nat) : Option State :=
  match s.place, s.lookAhead with
  | .readline _ _, [] =>
      if 0 < count ∧ count ≤ maxline ∧ count ≤ s.pending.length then
        some { s with lookAhead := s.pending.take count, pending := s.pending.drop count }
      else none
  | _, _ => none

def readEof (s : State) : Option State :=
  match s.place, s.lookAhead with
  | .readline stored evlist, [] =>
      if s.pending = [] ∧ s.fin = true then some (readlineReturns s stored evlist) else none
  | _, _ => none

def next (s : State) : Action → Option State
  | .add added => add s added
  | .echo count =>
      if 0 < count ∧ count ≤ s.sent.length then
        some { s with
          sent := s.sent.drop count
          arrived := s.arrived ++ s.sent.take count
          pending := s.pending ++ s.sent.take count }
      else none
  | .close =>
      if s.stdineof ∧ s.sent = [] ∧ s.fin = false then some { s with fin := true } else none
  | .epollWait evlist =>
      if s.place = .wait ∧ Reported s evlist then some { s with place := .events evlist } else none
  | .loop => loop s
  | .read count => read s count
  | .myRead => myRead s
  | .eof => readEof s

def begin (input : List UInt8) : State where
  registered _ := false
  stdineof := false
  input := input
  sent := []
  arrived := []
  pending := []
  fin := false
  lookAhead := []
  stdout := []
  place := .addStdin

def machine (input : List UInt8) : Machine State Action Unit where
  start s := s = begin input
  step s a := (next s a).map fun after => (after, ())

/-! Everything a step can do. -/

inductive Does (s : State) : Action → State → Prop where
  | addStdin {added : Bool} (here : s.place = .addStdin) :
      Does s (.add added) (addFd s .stdin added .addSockfd)
  | addSockfd {added : Bool} (here : s.place = .addSockfd) :
      Does s (.add added) (addFd s .sockfd added .top)
  | echo {count : Nat} (some_ : 0 < count) (inside : count ≤ s.sent.length) :
      Does s (.echo count) { s with
        sent := s.sent.drop count
        arrived := s.arrived ++ s.sent.take count
        pending := s.pending ++ s.sent.take count }
  | close (ended : s.stdineof = true) (echoed : s.sent = []) : Does s .close { s with fin := true }
  | epollWait {evlist : List EpollEvent} (here : s.place = .wait) (reported : Reported s evlist) :
      Does s (.epollWait evlist) { s with place := .events evlist }
  | delStdin (here : s.place = .top) (ended : s.stdineof = true) : Does s .loop (delStdin s)
  | top (here : s.place = .top) (more : s.stdineof = false) :
      Does s .loop { s with place := .wait }
  | bottom (here : s.place = .events []) : Does s .loop { s with place := .top }
  | socket {evlist : List EpollEvent} (here : s.place = .events (⟨.sockfd, true⟩ :: evlist)) :
      Does s .loop { s with place := .readline [] evlist }
  | stdin {evlist : List EpollEvent} (here : s.place = .events (⟨.stdin, true⟩ :: evlist)) :
      Does s .loop (readStdin s evlist)
  | skip {fd : Fd} {evlist : List EpollEvent} (here : s.place = .events (⟨fd, false⟩ :: evlist)) :
      Does s .loop { s with place := .events evlist }
  | read {count : Nat} {stored : List UInt8} {evlist : List EpollEvent}
      (here : s.place = .readline stored evlist) (empty : s.lookAhead = [])
      (inside : count ≤ s.pending.length) :
      Does s (.read count) { s with
        lookAhead := s.pending.take count
        pending := s.pending.drop count }
  | finish {c : UInt8} {stored lookAhead : List UInt8} {evlist : List EpollEvent}
      (here : s.place = .readline stored evlist) (buffered : s.lookAhead = c :: lookAhead)
      (finished : Finished stored c) :
      Does s .myRead { s with
        lookAhead := lookAhead
        stdout := s.stdout ++ cString (stored ++ [c])
        place := .events evlist }
  | store {c : UInt8} {stored lookAhead : List UInt8} {evlist : List EpollEvent}
      (here : s.place = .readline stored evlist) (buffered : s.lookAhead = c :: lookAhead)
      (inside : ¬ Finished stored c) :
      Does s .myRead { s with
        lookAhead := lookAhead
        place := .readline (stored ++ [c]) evlist }
  | eof {stored : List UInt8} {evlist : List EpollEvent} (here : s.place = .readline stored evlist)
      (empty : s.lookAhead = []) (drained : s.pending = []) (ended : s.fin = true) :
      Does s .eof (readlineReturns s stored evlist)

theorem readline_returns_some (s : State) (stored : List UInt8) (c : UInt8)
    (evlist : List EpollEvent) : readlineReturns s (stored ++ [c]) evlist =
      { s with stdout := s.stdout ++ cString (stored ++ [c]), place := .events evlist } := by
  cases stored <;> rfl

theorem loop_does (s after : State) (went : loop s = some after) : Does s .loop after := by
  unfold loop at went
  split at went
  · rename_i here
    cases went
    split
    · rename_i ended
      exact .delStdin here ended
    · rename_i more
      exact .top here (by simpa using more)
  · rename_i here
    cases went
    exact .bottom here
  · rename_i evlist here
    cases went
    exact .socket here
  · rename_i evlist here
    cases went
    exact .stdin here
  · rename_i fd evlist here
    cases went
    exact .skip here
  · cases went

theorem my_read_does (s after : State) (went : myRead s = some after) : Does s .myRead after := by
  unfold myRead at went
  split at went
  · rename_i stored evlist c lookAhead here buffered
    cases went
    split
    · rename_i finished
      rw [readline_returns_some]
      exact .finish here buffered finished
    · rename_i inside
      exact .store here buffered inside
  · cases went

theorem step_does (input : List UInt8) (e : Step) (stepped : (machine input).Stepped e) :
    Does e.before e.action e.after := by
  obtain ⟨s, a, _, after⟩ := e
  simp only [Machine.Stepped, machine, Option.map_eq_some_iff, Prod.mk.injEq, and_true] at stepped
  obtain ⟨_, went, rfl⟩ := stepped
  cases a with
  | add added =>
      simp only [next, add] at went
      split at went
      · rename_i here
        cases went
        exact .addStdin here
      · rename_i here
        cases went
        exact .addSockfd here
      · cases went
  | echo count =>
      simp only [next, Option.ite_none_right_eq_some, Option.some.injEq] at went
      obtain ⟨⟨some_, inside⟩, rfl⟩ := went
      exact .echo some_ inside
  | close =>
      simp only [next, Option.ite_none_right_eq_some, Option.some.injEq] at went
      obtain ⟨⟨ended, echoed, _⟩, rfl⟩ := went
      exact .close ended echoed
  | epollWait evlist =>
      simp only [next, Option.ite_none_right_eq_some, Option.some.injEq] at went
      obtain ⟨⟨here, reported⟩, rfl⟩ := went
      exact .epollWait here reported
  | loop => exact loop_does s _ went
  | read count =>
      simp only [next, read] at went
      split at went
      · rename_i stored evlist here empty
        simp only [Option.ite_none_right_eq_some, Option.some.injEq] at went
        obtain ⟨⟨_, _, inside⟩, rfl⟩ := went
        exact .read here empty inside
      · cases went
  | myRead => exact my_read_does s _ went
  | eof =>
      simp only [next, readEof] at went
      split at went
      · rename_i stored evlist here empty
        simp only [Option.ite_none_right_eq_some, Option.some.injEq] at went
        obtain ⟨⟨drained, ended⟩, rfl⟩ := went
        exact .eof here empty drained ended
      · cases went

end NetworkProgramming.StrCliEpoll06
