import NetworkProgramming.Machine
import NetworkProgramming.Ring

/-!
The server of unpv13e/sigio/dgecho01.c. SIGIO stays pending while it is
blocked, by the mask or by its own handler; `main` is one statement of the main
loop, `read` one turn of the loop in sig_io, and datagrams come at any time.
-/

namespace NetworkProgramming.DgEcho01

def QSIZE : Nat := 8
def MAXDG : Nat := 4096

structure Datagram where
  sender : List UInt8
  data : List UInt8
  deriving DecidableEq

structure DG where
  dg_data : List UInt8
  dg_len : Nat
  dg_sa : List UInt8
  dg_salen : Nat
  deriving DecidableEq

def DG.datagram (ptr : DG) : Datagram := ⟨ptr.dg_sa.take ptr.dg_salen, ptr.dg_data.take ptr.dg_len⟩

/-- The statement that comes next in the main loop, `setup` before its first one. -/
inductive Place where
  | setup
  | test
  | suspend
  | unblock
  | send
  | advance
  | block
  | decrement
  deriving DecidableEq

def Place.blocked : Place → Bool
  | .test | .unblock | .decrement => true
  | _ => false

/-- `handler` is `nread` while sig_io runs; `socket` is what the kernel has queued. -/
structure State where
  dg : Nat → DG
  cntread : Nat → Nat
  iget : Nat
  iput : Nat
  nqueue : Nat
  place : Place
  handler : Option Nat
  sigio : Bool
  socket : List Datagram
  exited : Bool

inductive Action where
  | arrive (d : Datagram)
  | sigio
  | sighup
  | read
  | recvFails
  | main
  | sendFails
  deriving DecidableEq

/-- `slot` is the entry of `dg` that is written to. -/
inductive Event where
  | received (slot : Nat) (d : Datagram)
  | counted (slot nread : Nat)
  | overflow
  | sent (d : Datagram)
  | taken
  | failed (slot : Option Nat)
  | quiet
  deriving DecidableEq

abbrev Step := Transition State Action Event

def Event.writes : Event → Option Nat
  | .received slot _ => some slot
  | .counted slot _ => some slot
  | .failed slot => slot
  | _ => none

/-- recvfrom into a slot whose `dg_salen` has been set to `clilen`. -/
def recvfrom (ptr : DG) (d : Datagram) : DG :=
  let data := d.data.take MAXDG
  { dg_data := data, dg_len := data.length, dg_sa := d.sender.take ptr.dg_salen
    dg_salen := d.sender.length }

/-- sigsuspend returns when the handler of a signal has. -/
def Place.resumed : Place → Place
  | .suspend => .test
  | place => place

def sig_io (clilen : Nat) (s : State) (nread : Nat) : State × Event :=
  if s.nqueue ≥ QSIZE then ({ s with exited := true }, .overflow)
  else
    let ptr := { s.dg s.iput with dg_salen := clilen }
    match s.socket with
    | [] => ({ s with
        dg := Function.update s.dg s.iput ptr
        cntread := Function.update s.cntread nread (s.cntread nread + 1)
        handler := none
        place := s.place.resumed }, .counted s.iput nread)
    | d :: rest => ({ s with
        dg := Function.update s.dg s.iput (recvfrom ptr d)
        nqueue := s.nqueue + 1
        iput := Ring.next QSIZE s.iput
        handler := some (nread + 1)
        socket := rest }, .received s.iput ⟨d.sender, d.data.take MAXDG⟩)

def dg_echo (s : State) : Option (State × Event) :=
  match s.place with
  | .setup => some ({ s with place := .test }, .quiet)
  | .test => some ({ s with place := if s.nqueue = 0 then .suspend else .unblock }, .quiet)
  | .suspend => none
  | .unblock => some ({ s with place := .send }, .quiet)
  | .send => some ({ s with place := .advance }, .sent (s.dg s.iget).datagram)
  | .advance => some ({ s with iget := Ring.next QSIZE s.iget, place := .block }, .quiet)
  | .block => some ({ s with place := .decrement }, .quiet)
  | .decrement => some ({ s with nqueue := s.nqueue - 1, place := .test }, .taken)

def step (clilen : Nat) (s : State) (a : Action) : Option (State × Event) :=
  if s.exited = true then none
  else match a with
    | .arrive d =>
        if d.sender.length ≤ clilen then
          some ({ s with socket := s.socket ++ [d], sigio := true }, .quiet)
        else none
    | .sigio =>
        if s.sigio = true ∧ s.place.blocked = false ∧ s.handler = none then
          some ({ s with handler := some 0, sigio := false }, .quiet)
        else none
    | .sighup => if s.handler = none then some ({ s with place := s.place.resumed }, .quiet) else none
    | .read => match s.handler with
        | some nread => some (sig_io clilen s nread)
        | none => none
    | .recvFails =>
        if s.handler.isSome ∧ s.nqueue < QSIZE then
          some ({ s with
            dg := Function.update s.dg s.iput { s.dg s.iput with dg_salen := clilen }
            exited := true }, .failed (some s.iput))
        else none
    | .main => if s.handler = none then dg_echo s else none
    | .sendFails =>
        if s.handler = none ∧ s.place = .send then
          some ({ s with exited := true }, .failed none)
        else none

/-- sig_io is installed, and the socket is set up for signals. A datagram that
comes before FIOASYNC raises no SIGIO, and a handler that runs before FIONBIO
blocks in recvfrom: both windows are left out. -/
def machine (clilen : Nat) : Machine State Action Event where
  start s := s.iget = 0 ∧ s.iput = 0 ∧ s.nqueue = 0 ∧ s.place = .setup ∧ s.handler = none ∧
    s.sigio = false ∧ s.socket = [] ∧ s.exited = false
  step := step clilen

/-! What a run has done. -/

def Datagram.cut (d : Datagram) : Datagram := ⟨d.sender, d.data.take MAXDG⟩

def Action.arrival : Action → Option Datagram
  | .arrive d => some d.cut
  | _ => none

def Event.arrival : Event → Option Datagram
  | .received _ d => some d
  | _ => none

def Event.echo : Event → Option Datagram
  | .sent d => some d
  | _ => none

def arrived (trace : List Step) : List Datagram := trace.filterMap fun e => e.action.arrival

def received (trace : List Step) : List Datagram := trace.filterMap fun e => e.output.arrival

def sent (trace : List Step) : List Datagram := trace.filterMap fun e => e.output.echo

def taken (trace : List Step) : Nat := trace.countP fun e => e.output = .taken

def queued (trace : List Step) : List Datagram := (received trace).drop (taken trace)

/-- `nqueue`, less the datagram that `iget` has gone by already. -/
def State.waiting (s : State) : Nat :=
  match s.place with
  | .block | .decrement => s.nqueue - 1
  | _ => s.nqueue

def Sleeps (s : State) : Prop := s.place = .suspend ∧ s.handler = none ∧ s.exited = false

theorem arrived_snoc (trace : List Step) (e : Step) :
    arrived (trace ++ [e]) = arrived trace ++ e.action.arrival.toList := by
  rw [arrived, List.filterMap_append]
  cases found : e.action.arrival <;> simp [arrived, found]

theorem received_snoc (trace : List Step) (e : Step) :
    received (trace ++ [e]) = received trace ++ e.output.arrival.toList := by
  rw [received, List.filterMap_append]
  cases found : e.output.arrival <;> simp [received, found]

theorem sent_snoc (trace : List Step) (e : Step) :
    sent (trace ++ [e]) = sent trace ++ e.output.echo.toList := by
  rw [sent, List.filterMap_append]
  cases found : e.output.echo <;> simp [sent, found]

theorem taken_snoc (trace : List Step) (e : Step) :
    taken (trace ++ [e]) = taken trace + if e.output = .taken then 1 else 0 := by
  rw [taken, List.countP_append, List.countP_singleton]
  simp [taken]

theorem recvfrom_datagram (ptr : DG) (d : Datagram) (fits : d.sender.length ≤ ptr.dg_salen) :
    (recvfrom ptr d).datagram = ⟨d.sender, d.data.take MAXDG⟩ := by
  simp only [recvfrom, DG.datagram]
  rw [List.take_of_length_le fits, List.take_length, List.take_length]

end NetworkProgramming.DgEcho01
