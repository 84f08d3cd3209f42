import Mathlib.Data.List.FinRange
import Mathlib.Logic.Function.Basic
import NetworkProgramming.Broker
import NetworkProgramming.Machine

/-!
sol_04.py of chapter_06: remote calls over a broker with six topics. One RemoteRegistrar, `n`
RPCServices and `m` RPCClients with the topics of their constructors. A step is a call of the
user's, the delivery of one message to a start loop with its handler, up to where a service awaits
a remote function, or the end of such a function.
-/

namespace NetworkProgramming.RpcMqtt

open Broker

inductive Topic where
  | registerRemoteMethod
  | registerRemoteMethodResponse
  | getRemoteMethod
  | getRemoteMethodResponse
  | callRemoteMethod
  | callRemoteMethodResponse
  deriving DecidableEq

inductive Participant (n m : Nat) where
  | registrar
  | service (i : Fin n)
  | client (j : Fin m)
  deriving DecidableEq

namespace Participant

def all (n m : Nat) : List (Participant n m) :=
  registrar :: ((List.finRange n).map service ++ (List.finRange m).map client)

def topics {n m : Nat} : Participant n m → List Topic
  | .registrar => [.registerRemoteMethod, .getRemoteMethod]
  | .service _ => [.registerRemoteMethodResponse, .callRemoteMethod]
  | .client _ => [.callRemoteMethodResponse, .getRemoteMethodResponse]

end Participant

/-- The services have names of their own; a client has the name of the service it calls. -/
structure Names (n m : Nat) (Name : Type*) where
  service : Fin n → Name
  distinct : Function.Injective service
  client : Fin m → Name

/-- The Exceptions that the code makes itself, and those of the remote functions. -/
inductive Error (Data : Type*) where
  | registerRemoteMethod
  | getRemoteMethod
  | callRemoteMethod
  | other (d : Data)
  deriving DecidableEq

/-- What is pickled; `exception` are the instances of Exception. -/
inductive Obj (Data : Type*) where
  | true_
  | data (d : Data)
  | exception (e : Error Data)
  deriving DecidableEq

/-- What a coroutine ends with; it exits with a BaseException that is no Exception. -/
inductive Outcome (Data : Type*) where
  | returned (o : Obj Data)
  | raised (e : Error Data)
  | exits
  deriving DecidableEq

structure Key (Name : Type*) where
  service : Name
  function : Name
  uuid : Nat
  deriving DecidableEq

inductive Message (Name Data : Type*) where
  | registerRemoteMethod (key : Key Name) (signature : Data)
  | registerRemoteMethodResponse (key : Key Name) (result : Obj Data)
  | getRemoteMethod (key : Key Name)
  | getRemoteMethodResponse (key : Key Name) (result : Obj Data)
  | callRemoteMethod (key : Key Name) (args : Data)
  | callRemoteMethodResponse (key : Key Name) (result : Obj Data)
  deriving DecidableEq

namespace Message

variable {Name Data : Type*}

def key : Message Name Data → Key Name
  | registerRemoteMethod key _ | registerRemoteMethodResponse key _ | getRemoteMethod key
  | getRemoteMethodResponse key _ | callRemoteMethod key _ | callRemoteMethodResponse key _ => key

def topic : Message Name Data → Topic
  | registerRemoteMethod _ _ => .registerRemoteMethod
  | registerRemoteMethodResponse _ _ => .registerRemoteMethodResponse
  | getRemoteMethod _ => .getRemoteMethod
  | getRemoteMethodResponse _ _ => .getRemoteMethodResponse
  | callRemoteMethod _ _ => .callRemoteMethod
  | callRemoteMethodResponse _ _ => .callRemoteMethodResponse

end Message

inductive Future where
  | pending
  | cancelled
  | done
  deriving DecidableEq

inductive Raised where
  | attributeError
  | invalidStateError
  | typeError
  | notImplementedError
  deriving DecidableEq

/-- Not subscribed; subscribed, with its start loop running; the loop has ended with an
exception. -/
inductive Status where
  | outside
  | running
  | ended
  deriving DecidableEq

structure Running (Name Func Data : Type*) where
  key : Key Name
  args : Data
  remoteMethod : Func

structure State (n m : Nat) (Name Func Data : Type*) where
  status : Participant n m → Status
  flights : List (Flight (Participant n m) (Message Name Data))
  registrar : Name → Name → Option Data
  registerRemoteMethodRequests : Fin n → Key Name → Option Future
  remoteMethods : Fin n → Name → Name → Option Func
  running : Fin n → Option (Running Name Func Data)
  callRemoteMethodRequests : Fin m → Key Name → Option Future
  getRemoteMethodRequests : Fin m → Key Name → Option Future
  remoteMethod : Fin m → Name → Bool
  uuids : Nat

inductive Action (n m : Nat) (Name Func Data : Type*) where
  | join (w : Participant n m)
  | leave (w : Participant n m)
  | registerFunction (i : Fin n) (function : Name) (f : Func) (signature : Data)
  | getRemoteMethod (j : Fin m) (function : Name)
  | call (j : Fin m) (function : Name) (args : Data)
  | cancel (j : Fin m) (key : Key Name)
  | deliver (p w : Participant n m)
  | finish (i : Fin n) (outcome : Outcome Data)

inductive Event (n m : Nat) (Name Func Data : Type*) where
  | registers (i : Fin n) (function : Name) (f : Func)
  | called (j : Fin m) (key : Key Name) (args : Data)
  | ran (i : Fin n) (key : Key Name) (f : Func) (args : Data) (outcome : Outcome Data)
  | completes (j : Fin m) (key : Key Name) (outcome : Outcome Data)
  | quiet
  deriving DecidableEq

abbrev Step (n m : Nat) (Name Func Data : Type*) :=
  Transition (State n m Name Func Data) (Action n m Name Func Data) (Event n m Name Func Data)

/-- isinstance(result, Exception) decides what the future gets. -/
def Obj.outcome {Data : Type*} : Obj Data → Outcome Data
  | .exception e => .raised e
  | o => .returned o

/-- set_future_result, which goes on when there is no future. -/
def setFutureResult {Data : Type*} (fut : Option Future) (result : Obj Data) :
    Except Raised (Outcome Data) :=
  match fut with
  | none => .error .attributeError
  | some .pending => .ok result.outcome
  | some _ => .error .invalidStateError

def put {A B C : Type*} [DecidableEq A] [DecidableEq B] (table : A → B → C) (a : A) (b : B) (c : C) :
    A → B → C :=
  Function.update table a (Function.update (table a) b c)

variable {n m : Nat} {Name Func Data : Type*} [DecidableEq Name]

namespace State

def subscribed (s : State n m Name Func Data) (w : Participant n m) (topic : Topic) : Bool :=
  decide (s.status w ≠ .outside) && decide (topic ∈ w.topics)

def subscribers (s : State n m Name Func Data) (topic : Topic) : List (Participant n m) :=
  (Participant.all n m).filter fun w => s.subscribed w topic

def publish (s : State n m Name Func Data) (p : Participant n m) (message : Message Name Data) :
    State n m Name Func Data :=
  { s with flights := Broker.publish s.flights p (s.subscribers message.topic) message }

structure Handled (n m : Nat) (Name Func Data : Type*) where
  after : State n m Name Func Data
  event : Event n m Name Func Data
  raised : Option Raised

def returns (after : State n m Name Func Data) : Handled n m Name Func Data := ⟨after, .quiet, none⟩

def onRegisterRemoteMethod (s : State n m Name Func Data) (key : Key Name) (signature : Data) :
    State n m Name Func Data :=
  { s with registrar := put s.registrar key.service key.function (some signature) }.publish
    .registrar (.registerRemoteMethodResponse key .true_)

def onGetRemoteMethod (s : State n m Name Func Data) (key : Key Name) : State n m Name Func Data :=
  match s.registrar key.service key.function with
  | some signature => s.publish .registrar (.getRemoteMethodResponse key (.data signature))
  | none => s.publish .registrar (.getRemoteMethodResponse key (.exception .getRemoteMethod))

def onRegisterRemoteMethodResponse (s : State n m Name Func Data) (i : Fin n) (key : Key Name)
    (result : Obj Data) : Handled n m Name Func Data :=
  match setFutureResult (s.registerRemoteMethodRequests i key) result with
  | .ok _ =>
      returns { s with
        registerRemoteMethodRequests := put s.registerRemoteMethodRequests i key (some .done) }
  | .error e => ⟨s, .quiet, some e⟩

def onCallRemoteMethod (s : State n m Name Func Data) (i : Fin n) (key : Key Name) (args : Data) :
    State n m Name Func Data :=
  match s.remoteMethods i key.service key.function with
  | none => s.publish (.service i) (.callRemoteMethodResponse key (.exception .callRemoteMethod))
  | some f => { s with running := Function.update s.running i (some ⟨key, args, f⟩) }

def onGetRemoteMethodResponse (s : State n m Name Func Data) (j : Fin m) (key : Key Name)
    (result : Obj Data) : Handled n m Name Func Data :=
  let popped := { s with
    getRemoteMethodRequests := put s.getRemoteMethodRequests j key none }
  match setFutureResult (s.getRemoteMethodRequests j key) result with
  | .ok (.returned _) =>
      returns { popped with remoteMethod := put s.remoteMethod j key.function true }
  | .ok _ => returns popped
  | .error e => ⟨popped, .quiet, some e⟩

def onCallRemoteMethodResponse (s : State n m Name Func Data) (j : Fin m) (key : Key Name)
    (result : Obj Data) : Handled n m Name Func Data :=
  let popped := { s with
    callRemoteMethodRequests := put s.callRemoteMethodRequests j key none }
  match setFutureResult (s.callRemoteMethodRequests j key) result with
  | .ok outcome => ⟨popped, .completes j key outcome, none⟩
  | .error e => ⟨popped, .quiet, some e⟩

/-- The handlers; those that a class does not have raise NotImplementedError. -/
def handle (s : State n m Name Func Data) (w : Participant n m) (message : Message Name Data) :
    Handled n m Name Func Data :=
  match w, message with
  | .registrar, .registerRemoteMethod key signature => returns (s.onRegisterRemoteMethod key signature)
  | .registrar, .getRemoteMethod key => returns (s.onGetRemoteMethod key)
  | .service i, .registerRemoteMethodResponse key result => s.onRegisterRemoteMethodResponse i key result
  | .service i, .callRemoteMethod key args => returns (s.onCallRemoteMethod i key args)
  | .client j, .getRemoteMethodResponse key result => s.onGetRemoteMethodResponse j key result
  | .client j, .callRemoteMethodResponse key result => s.onCallRemoteMethodResponse j key result
  | _, _ => ⟨s, .quiet, some .notImplementedError⟩

/-- What start lets out of its try statement. -/
def escapes : Raised → Bool
  | .typeError | .notImplementedError => false
  | _ => true

def start (s : State n m Name Func Data) (w : Participant n m) (message : Message Name Data) :
    State n m Name Func Data × Event n m Name Func Data :=
  let handled := s.handle w message
  (if handled.raised.any escapes = true then
    { handled.after with status := Function.update handled.after.status w .ended }
  else handled.after, handled.event)

def awaiting (s : State n m Name Func Data) : Participant n m → Bool
  | .service i => (s.running i).isSome
  | _ => false

def deliver (s : State n m Name Func Data) (p w : Participant n m) :
    Option (State n m Name Func Data × Event n m Name Func Data) :=
  if s.status w = .running ∧ s.awaiting w = false then
    match next p w s.flights with
    | none => none
    | some (message, rest) => some ({ s with flights := rest }.start w message)
  else none

/-- The remote function ends. An Exception is published; another exception is not caught. -/
def finish (s : State n m Name Func Data) (i : Fin n) (outcome : Outcome Data) :
    Option (State n m Name Func Data × Event n m Name Func Data) :=
  (s.running i).map fun r =>
    let ended := { s with running := Function.update s.running i none }
    (match outcome with
      | .returned o => ended.publish (.service i) (.callRemoteMethodResponse r.key o)
      | .raised e => ended.publish (.service i) (.callRemoteMethodResponse r.key (.exception e))
      | .exits => { ended with status := Function.update s.status (.service i) .ended },
      .ran i r.key r.remoteMethod r.args outcome)

/-- stop and unsubscribe; a remote function that is awaited is cancelled. -/
def leave (s : State n m Name Func Data) (w : Participant n m) : State n m Name Func Data :=
  { s with
    status := Function.update s.status w .outside
    running := match w with
      | .service i => Function.update s.running i none
      | _ => s.running }

end State

def step (names : Names n m Name) (s : State n m Name Func Data) :
    Action n m Name Func Data → Option (State n m Name Func Data × Event n m Name Func Data)
  | .join w =>
      if s.status w = .outside then
        some ({ s with status := Function.update s.status w .running }, .quiet)
      else none
  | .leave w => if s.status w ≠ .outside then some (s.leave w, .quiet) else none
  | .registerFunction i function f signature =>
      let key : Key Name := ⟨names.service i, function, s.uuids⟩
      some ({ s with
        uuids := s.uuids + 1
        registerRemoteMethodRequests := put s.registerRemoteMethodRequests i key (some .pending)
        remoteMethods := Function.update s.remoteMethods i
          (put (s.remoteMethods i) key.service function (some f)) }.publish
          (.service i) (.registerRemoteMethod key signature), .registers i function f)
  | .getRemoteMethod j function =>
      let key : Key Name := ⟨names.client j, function, s.uuids⟩
      some ({ s with
        uuids := s.uuids + 1
        getRemoteMethodRequests := put s.getRemoteMethodRequests j key (some .pending) }.publish
          (.client j) (.getRemoteMethod key), .quiet)
  | .call j function args =>
      if s.remoteMethod j function = true then
        let key : Key Name := ⟨names.client j, function, s.uuids⟩
        some ({ s with
          uuids := s.uuids + 1
          callRemoteMethodRequests := put s.callRemoteMethodRequests j key (some .pending) }.publish
            (.client j) (.callRemoteMethod key args), .called j key args)
      else none
  | .cancel j key =>
      if s.callRemoteMethodRequests j key = some .pending then
        some ({ s with
          callRemoteMethodRequests := put s.callRemoteMethodRequests j key (some .cancelled) }, .quiet)
      else none
  | .deliver p w => s.deliver p w
  | .finish i outcome => s.finish i outcome

def begun : State n m Name Func Data where
  status _ := .outside
  flights := []
  registrar _ _ := none
  registerRemoteMethodRequests _ _ := none
  remoteMethods _ _ _ := none
  running _ := none
  callRemoteMethodRequests _ _ := none
  getRemoteMethodRequests _ _ := none
  remoteMethod _ _ := false
  uuids := 0

def machine (Func Data : Type*) (names : Names n m Name) :
    Machine (State n m Name Func Data) (Action n m Name Func Data) (Event n m Name Func Data) where
  start s := s = begun
  step := step names

end NetworkProgramming.RpcMqtt
