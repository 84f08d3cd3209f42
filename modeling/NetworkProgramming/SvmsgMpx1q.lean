import NetworkProgramming.CText
import NetworkProgramming.Machine
import NetworkProgramming.MessageQueue

/-!
The file server of unpv22e/svmsgmpx1q: one System V queue for the requests of
all clients and for the replies to each of them. A step of a process takes it
from one msgsnd or msgrcv to the next; what it does in between touches nothing
that is shared. `capacity` is the number of messages that fit on the queue, and
`fopen` answers with the text of the file or the text of strerror.
-/

namespace NetworkProgramming.SvmsgMpx1q

open CText

def pipeBuf : Nat := 4096
def maxmesgdata : Nat := pipeBuf - 2 * 8

structure Mymesg where
  mesgType : Int
  mesgData : List UInt8
  deriving DecidableEq

/-- What the server has to send after the message in hand: the rest of the
file, only the message of length 0, or nothing. -/
inductive Left where
  | file (fp : List UInt8)
  | mark
  | nothing
  deriving DecidableEq

inductive Server where
  | receive
  | send (mesg : Mymesg) (left : Left)
  | errSys
  deriving DecidableEq

inductive Place where
  | send
  | receive
  | returned
  deriving DecidableEq

structure Client where
  place : Place
  written : List (List UInt8)
  deriving DecidableEq

/-- The clients have process ids of their own, greater than 1, and the files
have no NUL in them. -/
structure Setup (Proc : Type*) where
  capacity : Nat
  pid : Proc → Nat
  stdin : Proc → List UInt8
  fopen : List UInt8 → Except (List UInt8) (List UInt8)
  own : Function.Injective pid
  above : ∀ c, 1 < pid c
  fits : ∀ c, pid c < 2 ^ 31
  text : ∀ path file, fopen path = .ok file → 0 ∉ file

/-- What Fgets puts into the buffer; at end of file it leaves the NUL there. -/
def firstLine (size : Nat) (stdin : List UInt8) : List UInt8 :=
  match fgets size stdin with
  | some (line, _) => line
  | none => []

def request (pid : Nat) (stdin : List UInt8) : Mymesg :=
  let start := snprintf maxmesgdata (decimal pid ++ [space])
  let data := cString (start ++ firstLine (maxmesgdata - start.length) stdin)
  ⟨1, if data.getLast? = some newline then data.dropLast else data⟩

/-- Up to the next Mesg_send of the loop over the file, or the one after it. -/
def nextLine (pid : Int) (fp : List UInt8) : Server :=
  match fgets maxmesgdata fp with
  | some (line, rest) => .send ⟨pid, cString line⟩ (.file rest)
  | none => .send ⟨pid, []⟩ .nothing

def Left.next (pid : Int) : Left → Server
  | .file fp => nextLine pid fp
  | .mark => .send ⟨pid, []⟩ .nothing
  | .nothing => .receive

def canNotOpen (room : Nat) (strerror : List UInt8) : List UInt8 :=
  snprintf room (bytes ": can't open, " ++ strerror ++ [newline])

/-- What the server does with a request. An empty one and one without a blank
are only reported. -/
def serve (fopen : List UInt8 → Except (List UInt8) (List UInt8)) (data : List UInt8) : Server :=
  if data = [] then .receive
  else match strchr space data with
    | none => .receive
    | some (before, ptr) =>
        match fopen (cString ptr) with
        | .error strerror =>
            .send ⟨atol before, cString (ptr ++ canNotOpen (maxmesgdata - data.length) strerror)⟩
              .mark
        | .ok file => nextLine (atol before) file

variable {Proc : Type*} [DecidableEq Proc]

structure State (Proc : Type*) where
  queue : List Mymesg
  server : Server
  client : Proc → Client

inductive Action (Proc : Type*) where
  | server
  | client (c : Proc)
  deriving DecidableEq

abbrev Step (Proc : Type*) := Transition (State Proc) (Action Proc) Unit

/-- msgsnd blocks while the queue is full; a type that is not positive is an
error. -/
def serverStep (setup : Setup Proc) (s : State Proc) : Option (State Proc) :=
  match s.server with
  | .receive => (MessageQueue.receive Mymesg.mesgType 1 s.queue).map fun r =>
      { s with queue := r.2, server := serve setup.fopen r.1.mesgData }
  | .send mesg left =>
      if mesg.mesgType ≤ 0 then some { s with server := .errSys }
      else if s.queue.length < setup.capacity then
        some { s with queue := s.queue ++ [mesg], server := left.next mesg.mesgType }
      else none
  | .errSys => none

def clientStep (setup : Setup Proc) (s : State Proc) (c : Proc) : Option (State Proc) :=
  match (s.client c).place with
  | .send =>
      if s.queue.length < setup.capacity then
        some { s with
          queue := s.queue ++ [request (setup.pid c) (setup.stdin c)]
          client := Function.update s.client c ⟨.receive, (s.client c).written⟩ }
      else none
  | .receive => (MessageQueue.receive Mymesg.mesgType (setup.pid c) s.queue).map fun r =>
      { s with
        queue := r.2
        client := Function.update s.client c <|
          if r.1.mesgData = [] then ⟨.returned, (s.client c).written⟩
          else ⟨.receive, (s.client c).written ++ [r.1.mesgData]⟩ }
  | .returned => none

def step (setup : Setup Proc) (s : State Proc) : Action Proc → Option (State Proc × Unit)
  | .server => (serverStep setup s).map fun after => (after, ())
  | .client c => (clientStep setup s c).map fun after => (after, ())

def start : State Proc := ⟨[], .receive, fun _ => ⟨.send, []⟩⟩

def machine (setup : Setup Proc) : Machine (State Proc) (Action Proc) Unit where
  start s := s = start
  step := step setup

inductive Effect (setup : Setup Proc) (s : State Proc) : Action Proc → State Proc → Prop where
  | serve (mesg : Mymesg) (rest : List Mymesg) (here : s.server = .receive)
      (received : MessageQueue.receive Mymesg.mesgType 1 s.queue = some (mesg, rest)) :
      Effect setup s .server { s with queue := rest, server := serve setup.fopen mesg.mesgData }
  | refused (mesg : Mymesg) (left : Left) (here : s.server = .send mesg left)
      (bad : mesg.mesgType ≤ 0) : Effect setup s .server { s with server := .errSys }
  | reply (mesg : Mymesg) (left : Left) (here : s.server = .send mesg left)
      (room : s.queue.length < setup.capacity) :
      Effect setup s .server
        { s with queue := s.queue ++ [mesg], server := left.next mesg.mesgType }
  | request (c : Proc) (here : (s.client c).place = .send)
      (room : s.queue.length < setup.capacity) :
      Effect setup s (.client c) { s with
        queue := s.queue ++ [request (setup.pid c) (setup.stdin c)]
        client := Function.update s.client c ⟨.receive, (s.client c).written⟩ }
  | write (c : Proc) (mesg : Mymesg) (rest : List Mymesg) (here : (s.client c).place = .receive)
      (received : MessageQueue.receive Mymesg.mesgType (setup.pid c) s.queue = some (mesg, rest))
      (data : mesg.mesgData ≠ []) :
      Effect setup s (.client c) { s with
        queue := rest
        client := Function.update s.client c
          ⟨.receive, (s.client c).written ++ [mesg.mesgData]⟩ }
  | mark (c : Proc) (mesg : Mymesg) (rest : List Mymesg) (here : (s.client c).place = .receive)
      (received : MessageQueue.receive Mymesg.mesgType (setup.pid c) s.queue = some (mesg, rest))
      (empty : mesg.mesgData = []) :
      Effect setup s (.client c) { s with
        queue := rest
        client := Function.update s.client c ⟨.returned, (s.client c).written⟩ }

theorem step_effect (setup : Setup Proc) (s after : State Proc) (action : Action Proc)
    (output : Unit) (stepped : step setup s action = some (after, output)) :
    Effect setup s action after := by
  cases action with
  | server =>
      simp only [step, Option.map_eq_some_iff, Prod.mk.injEq, and_true] at stepped
      obtain ⟨after, ran, rfl⟩ := stepped
      cases here : s.server with
      | receive =>
          simp only [serverStep, here, Option.map_eq_some_iff] at ran
          obtain ⟨⟨mesg, rest⟩, received, rfl⟩ := ran
          exact .serve mesg rest here received
      | send mesg left =>
          simp only [serverStep, here] at ran
          split at ran
          · rename_i bad
            cases ran
            exact .refused mesg left here bad
          · split at ran
            · rename_i room
              cases ran
              exact .reply mesg left here room
            · cases ran
      | errSys => simp [serverStep, here] at ran
  | client c =>
      simp only [step, Option.map_eq_some_iff, Prod.mk.injEq, and_true] at stepped
      obtain ⟨after, ran, rfl⟩ := stepped
      cases here : (s.client c).place with
      | send =>
          simp only [clientStep, here, Option.ite_none_right_eq_some, Option.some.injEq] at ran
          obtain ⟨room, rfl⟩ := ran
          exact .request c here room
      | receive =>
          simp only [clientStep, here, Option.map_eq_some_iff] at ran
          obtain ⟨⟨mesg, rest⟩, received, rfl⟩ := ran
          split
          · rename_i empty
            exact .mark c mesg rest here received empty
          · rename_i data
            exact .write c mesg rest here received data
      | returned => simp [clientStep, here] at ran

end NetworkProgramming.SvmsgMpx1q
