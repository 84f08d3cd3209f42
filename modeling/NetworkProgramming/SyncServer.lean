import Mathlib.Tactic.Common
import NetworkProgramming.CText
import NetworkProgramming.LinearBuffer
import NetworkProgramming.Machine

/-!
sync_server.cpp: one thread accepts clients, the other goes through them again and again,
reads what has arrived of each, answers at most one message of it, and then erases those that
have timed out. Both hold `cs` meanwhile, so a round is not interrupted by an accept.
-/

namespace NetworkProgramming.SyncServer

open CText LinearBuffer

def max_msg : Nat := 1024

/-- `sock` is whether the socket is open, a time is in microseconds, and of buff_ only the first
max_msg places are used. -/
structure TalkToClient where
  sock : Bool
  alreadyRead : Nat
  buff : Nat → UInt8
  username : List UInt8
  clientsChanged : Bool
  lastPing : Int

inductive Phase where
  | asleep
  | answering (b : Nat)
  deriving DecidableEq

/-- `clients` holds pointers, as the array does; `object` is what they point to. -/
structure State where
  clients : List Nat
  object : Nat → TalkToClient
  created : Nat
  phase : Phase

/-- What available and read_some do: there is nothing, some bytes are read, or one of them
throws. -/
inductive Got where
  | nothing
  | bytes (chunk : List UInt8)
  | threw
  deriving DecidableEq

/-- What the outside adds to a call of answer_to_client: the two readings of the clock and
whether write_some returns. -/
structure Turn where
  got : Got
  now : Int
  sent : Bool
  later : Int
  deriving DecidableEq

def Got.chunk : Got → List UInt8
  | .bytes chunk => chunk
  | .nothing | .threw => []

inductive Action where
  | accept (fresh : TalkToClient)
  | wake
  | answer (turn : Turn)
  | erase (now : Nat → Int)

inductive Request where
  | login
  | ping
  | askClients
  | invalid
  deriving DecidableEq

def request (msg : List UInt8) : Request :=
  if (bytes "login ").isPrefixOf msg then .login
  else if (bytes "ping").isPrefixOf msg then .ping
  else if (bytes "ask_clients").isPrefixOf msg then .askClients
  else .invalid

def loginOk : List UInt8 := bytes "login ok\n"
def pingOk : List UInt8 := bytes "ping ok\n"
def pingChanged : List UInt8 := bytes "ping client_list_changed\n"

structure Report where
  client : Nat
  read : List UInt8
  handed : Option (List UInt8)
  reply : Option (List UInt8)
  deriving DecidableEq

inductive Answer where
  | accepted (client : Nat)
  | answered (report : Report)
  | erased (clients : List Nat)
  | silent
  deriving DecidableEq

/-- `in >> username_ >> username_`: where there is no second word the first one stays. -/
def secondWord (msg username : List UInt8) : List UInt8 :=
  match tokens msg with
  | [] => username
  | [word] => word
  | _ :: word :: _ => word

/-- `std::copy(buff_ + already_read_, buff_ + max_msg, buff_)` -/
def copied (buff : Nat → UInt8) (alreadyRead : Nat) (i : Nat) : UInt8 :=
  if i < max_msg - alreadyRead then buff (alreadyRead + i) else buff i

namespace TalkToClient

def timedOut (c : TalkToClient) (now : Int) : Bool :=
  decide ((now - c.lastPing).tdiv 1000 > 5000)

def stop (c : TalkToClient) : TalkToClient := { c with sock := false }

def unread (c : TalkToClient) : List UInt8 := load c.buff 0 c.alreadyRead

def Possible (c : TalkToClient) : Got → Prop
  | .threw => True
  | .nothing => c.sock = true
  | .bytes chunk => c.sock = true ∧ c.alreadyRead + chunk.length ≤ max_msg

instance (c : TalkToClient) (got : Got) : Decidable (c.Possible got) := by
  cases got <;> unfold Possible <;> infer_instance

def readRequest (c : TalkToClient) (chunk : List UInt8) : TalkToClient :=
  { c with
    buff := store c.buff c.alreadyRead chunk
    alreadyRead := c.alreadyRead + chunk.length }

def foundEnter (c : TalkToClient) : Option Nat := c.unread.idxOf? newline

def take (c : TalkToClient) (pos : Nat) (now : Int) : TalkToClient :=
  { c with
    lastPing := now
    buff := copied c.buff c.alreadyRead
    alreadyRead := c.alreadyRead - (pos + 1) }

end TalkToClient

namespace State

def set (s : State) (client : Nat) (c : TalkToClient) : State :=
  { s with object := Function.update s.object client c }

def updateClientsChanged (s : State) : State :=
  { s with object := fun p =>
      if p ∈ s.clients then { s.object p with clientsChanged := true } else s.object p }

def onLogin (s : State) (client : Nat) (msg : List UInt8) (sent : Bool) :
    State × Option (List UInt8) :=
  let c := s.object client
  let named := s.set client { c with username := secondWord msg c.username }
  if sent then (named.updateClientsChanged, some loginOk) else (named, none)

def onPing (s : State) (client : Nat) (sent : Bool) : State × Option (List UInt8) :=
  let c := s.object client
  let reply := if c.clientsChanged then pingChanged else pingOk
  if sent then (s.set client { c with clientsChanged := false }, some reply) else (s, none)

def clientsMsg (s : State) : List UInt8 :=
  bytes "clients " ++ (s.clients.flatMap fun p => (s.object p).username ++ [space]) ++ [newline]

def onClients (s : State) (sent : Bool) : State × Option (List UInt8) :=
  if sent then (s, some s.clientsMsg) else (s, none)

def dispatch (s : State) (client : Nat) (msg : List UInt8) (sent : Bool) :
    State × Option (List UInt8) :=
  match request msg with
  | .login => s.onLogin client msg sent
  | .ping => s.onPing client sent
  | .askClients => s.onClients sent
  | .invalid => (s, none)

/-- What follows once the newline has been found. A write that throws ends in the handler. -/
def processRequest (s : State) (client pos : Nat) (turn : Turn) : State × Report :=
  let c := s.object client
  let msg := load c.buff 0 pos
  let after := (s.set client (c.take pos turn.now)).dispatch client msg turn.sent
  let caught := request msg ≠ .invalid ∧ turn.sent = false
  (if caught then after.1.set client (after.1.object client).stop else after.1,
    ⟨client, turn.got.chunk, some msg, after.2⟩)

def attempt (s : State) (client : Nat) (turn : Turn) : State × Report :=
  let c := s.object client
  if turn.got = .threw then (s.set client c.stop, ⟨client, [], none, none⟩)
  else
    let read := s.set client (c.readRequest turn.got.chunk)
    match (read.object client).foundEnter with
    | none => (read, ⟨client, turn.got.chunk, none, none⟩)
    | some pos => read.processRequest client pos turn

def answerToClient (s : State) (client : Nat) (turn : Turn) : State × Report :=
  let after := s.attempt client turn
  let c := after.1.object client
  (if c.timedOut turn.later then after.1.set client c.stop else after.1, after.2)

def accept (s : State) (fresh : TalkToClient) : State :=
  { s.set s.created fresh with clients := s.clients ++ [s.created], created := s.created + 1 }

/-- Each client is asked once, at a time of its own. -/
def erase (s : State) (now : Nat → Int) : State :=
  { s with
    clients := s.clients.filter fun p => !(s.object p).timedOut (now p)
    phase := .asleep }

end State

@[simp] theorem set_self (s : State) (client : Nat) (c : TalkToClient) :
    (s.set client c).object client = c := Function.update_self _ _ _

theorem set_other (s : State) (client p : Nat) (c : TalkToClient) (other : p ≠ client) :
    (s.set client c).object p = s.object p := Function.update_of_ne other _ _

def step (s : State) : Action → Option (State × Answer)
  | .accept fresh =>
      if s.phase = .asleep ∧ fresh.sock = true ∧ fresh.alreadyRead = 0 ∧ fresh.username = [] then
        some (s.accept fresh, .accepted s.created)
      else none
  | .wake => if s.phase = .asleep then some ({ s with phase := .answering 0 }, .silent) else none
  | .answer turn =>
      match s.phase with
      | .asleep => none
      | .answering b =>
          match s.clients[b]? with
          | none => none
          | some client =>
              if (s.object client).Possible turn.got then
                let after := s.answerToClient client turn
                some ({ after.1 with phase := .answering (b + 1) }, .answered after.2)
              else none
  | .erase now =>
      if s.phase = .answering s.clients.length then
        some (s.erase now,
          .erased (s.clients.filter fun p => (s.object p).timedOut (now p)))
      else none

abbrev Step := Transition State Action Answer

def machine : Machine State Action Answer where
  start s := s.clients = [] ∧ s.created = 0 ∧ s.phase = .asleep
  step := step

def newcomer : TalkToClient where
  sock := true
  alreadyRead := 0
  buff := fun _ => 0
  username := []
  clientsChanged := false
  lastPing := 0

def noClients : State := { clients := [], object := fun _ => newcomer, created := 0, phase := .asleep }

/-! What a step can do. -/

inductive Moves (s : State) : Action → State → Answer → Prop where
  | accept (fresh : TalkToClient) (empty : fresh.alreadyRead = 0) :
      Moves s (.accept fresh) (s.accept fresh) (.accepted s.created)
  | wake : Moves s .wake { s with phase := .answering 0 } .silent
  | answer (turn : Turn) (b client : Nat) (now : s.phase = .answering b)
      (turns : s.clients[b]? = some client) (possible : (s.object client).Possible turn.got) :
      Moves s (.answer turn) { (s.answerToClient client turn).1 with phase := .answering (b + 1) }
        (.answered (s.answerToClient client turn).2)
  | erase (now : Nat → Int) :
      Moves s (.erase now) (s.erase now)
        (.erased (s.clients.filter fun p => (s.object p).timedOut (now p)))

theorem moves_of_stepped (e : Step) (stepped : machine.Stepped e) :
    Moves e.before e.action e.after e.output := by
  obtain ⟨s, action, output, after⟩ := e
  change step s action = some (after, output) at stepped
  cases action with
  | accept fresh =>
      simp only [step] at stepped
      split at stepped
      · rename_i ready
        cases stepped
        exact .accept fresh ready.2.2.1
      · cases stepped
  | wake =>
      simp only [step] at stepped
      split at stepped
      · cases stepped
        exact .wake
      · cases stepped
  | answer turn =>
      simp only [step] at stepped
      split at stepped
      · cases stepped
      · rename_i b now
        split at stepped
        · cases stepped
        · rename_i client turns
          split at stepped
          · rename_i possible
            cases stepped
            exact .answer turn b client now turns possible
          · cases stepped
  | erase now =>
      simp only [step] at stepped
      split at stepped
      · cases stepped
        exact .erase now
      · cases stepped

end NetworkProgramming.SyncServer
