import Mathlib.Logic.Function.Basic
import NetworkProgramming.Machine

/-!
The event loop of chapter_14 with its CustomFuture and CustomTask. A coroutine is a tree of what it
does between its awaits and what it awaits, as large as it likes; the tree is given by its nodes
and what is at each of them. One step is one of these, one call of a method of a future, one turn
of a loop of EventLoop.run or one line of it.
-/

namespace NetworkProgramming.EventLoop

/-- A future of _register_socket_to_read or a CustomTask, each kind in the order of creation. -/
inductive FutureId where
  | socket (n : Nat)
  | task (n : Nat)
  deriving DecidableEq

inductive Value (Data : Type*) where
  | none
  | future (f : FutureId)
  | data (d : Data)
  deriving DecidableEq

def Value.isNone {Data : Type*} : Value Data → Bool
  | .none => true
  | _ => false

inductive Call where
  | sockRecv
  | sockAccept
  deriving DecidableEq

/-- What is at a node: the await of one of the two calls or of a CustomTask, the construction of a
CustomTask, or the end. -/
inductive Op (Node Sock Data : Type*) where
  | call (call : Call) (sock : Sock) (rest : Value Data → Node)
  | await (task : Nat) (rest : Value Data → Node)
  | create (coro : Node) (rest : Nat → Node)
  | result (v : Value Data)

inductive Who where
  | main
  | task (n : Nat)
  deriving DecidableEq

inductive Coro (Node Data : Type*) where
  | fresh (node : Node)
  | suspended (f : FutureId) (rest : Value Data → Node)
  | running
  | finished

def Coro.awaits {Node Data : Type*} : Coro Node Data → Option FutureId
  | .suspended f _ => some f
  | _ => none

/-- The callback of a future is main's _set_current_result or a task's _future_done. -/
structure Future (Data : Type*) where
  result : Value Data
  isFinished : Bool
  doneCallback : Option Who

def Future.new {Data : Type*} : Future Data := ⟨.none, false, none⟩

/-- Where run is: the first send, the look at current_result, the loop over the tasks with the
index of its next turn, select, the loop over the events with the futures still to come. -/
inductive Phase (Data : Type*) where
  | first
  | loop
  | tasks (i : Nat)
  | select
  | events (rest : List Nat)
  | returned (v : Value Data)
  | raised
  deriving DecidableEq

/-- What is being done within that. `own` says that step has called send, and not _future_done. -/
inductive Activity (Node Data : Type*) where
  | run
  | running (who : Who) (node : Node) (own : Bool)
  | setResult (f : FutureId) (v : Value Data)
  | callback (who : Who) (v : Value Data)
  deriving DecidableEq

structure State (Node Sock Data : Type*) where
  coro : Who → Coro Node Data
  future : FutureId → Future Data
  taskState : Nat → Option FutureId
  tasksToRun : List Nat
  tasks : Nat
  sockets : Nat
  registered : Sock → Option Nat
  currentResult : Value Data
  phase : Phase Data
  activity : Activity Node Data

/-- select finds sockets ready; a socket gives data, or a connection. -/
inductive Action (Sock Data : Type*) where
  | go
  | select (ready : List Sock)
  | event (d : Data)
  deriving DecidableEq

inductive Event (Data : Type*) where
  | completes (f : FutureId) (v : Value Data)
  | resumes (who : Who) (v : Value Data)
  | quiet
  deriving DecidableEq

abbrev Step (Node Sock Data : Type*) :=
  Transition (State Node Sock Data) (Action Sock Data) (Event Data)

variable {Node Sock Data : Type*} [DecidableEq Sock]

namespace State

def awaits (s : State Node Sock Data) (who : Who) : Option FutureId := (s.coro who).awaits

def setCoro (s : State Node Sock Data) (who : Who) (coro : Coro Node Data) : State Node Sock Data :=
  { s with coro := Function.update s.coro who coro }

def addDoneCallback (s : State Node Sock Data) (f : FutureId) (who : Who) : State Node Sock Data :=
  { s with future := Function.update s.future f { s.future f with doneCallback := some who } }

def yields (s : State Node Sock Data) (who : Who) (f : FutureId) (rest : Value Data → Node)
    (own : Bool) : State Node Sock Data :=
  let s := { s.setCoro who (.suspended f rest) with activity := .run }
  match who with
  | .main =>
      { s with
        currentResult := .future f
        phase := match s.phase with
          | .first => .loop
          | _ => .tasks 0 }
  | .task t =>
      let s := { s with taskState := Function.update s.taskState t (some f) }
      if own = true then s.addDoneCallback f (.task t) else s

def returns (s : State Node Sock Data) (who : Who) (v : Value Data) : State Node Sock Data :=
  let s := s.setCoro who .finished
  match who with
  | .main =>
      { s with
        activity := .run
        phase := match s.phase with
          | .first => .raised
          | _ => .returned v }
  | .task t => { s with activity := .setResult (.task t) v }

/-- send to a coroutine that has been started: __await__ returns what the future has then. -/
def resume (s : State Node Sock Data) (who : Who) : State Node Sock Data × Event Data :=
  match s.coro who with
  | .suspended f rest =>
      ({ s.setCoro who .running with
        activity := .running who (rest (s.future f).result) false },
        .resumes who (s.future f).result)
  | _ => ({ s with phase := .raised, activity := .run }, .quiet)

/-- _register_socket_to_read, where register and modify come to the same. -/
def registerSocketToRead (s : State Node Sock Data) (sock : Sock) : State Node Sock Data :=
  { s with
    sockets := s.sockets + 1
    future := Function.update s.future (.socket s.sockets) .new
    registered := Function.update s.registered sock (some s.sockets) }

def createTask (s : State Node Sock Data) (coro : Node) : State Node Sock Data :=
  { s.setCoro (.task s.tasks) (.fresh coro) with
    tasks := s.tasks + 1
    future := Function.update s.future (.task s.tasks) .new
    taskState := Function.update s.taskState s.tasks none
    tasksToRun := s.tasksToRun ++ [s.tasks] }

def execute (next : Node → Op Node Sock Data) (s : State Node Sock Data) (who : Who) (node : Node)
    (own : Bool) : Option (State Node Sock Data) :=
  match next node with
  | .call _ sock rest => some ((s.registerSocketToRead sock).yields who (.socket s.sockets) rest own)
  | .await task rest =>
      if task < s.tasks then
        if (s.future (.task task)).isFinished = true then
          some { s with activity := .running who (rest (s.future (.task task)).result) own }
        else some (s.yields who (.task task) rest own)
      else none
  | .create coro rest =>
      some { s.createTask coro with activity := .running who (rest s.tasks) own }
  | .result v => some (s.returns who v)

def stepTask (s : State Node Sock Data) (t : Nat) : State Node Sock Data :=
  match s.taskState t with
  | some f => s.addDoneCallback f (.task t)
  | none =>
      match s.coro (.task t) with
      | .fresh node =>
          { s.setCoro (.task t) .running with activity := .running (.task t) node true }
      | _ => { s with phase := .raised }

def run (s : State Node Sock Data) : Action Sock Data → Option (State Node Sock Data × Event Data)
  | .go =>
      match s.phase with
      | .first =>
          match s.coro .main with
          | .fresh node =>
              some ({ s.setCoro .main .running with activity := .running .main node true }, .quiet)
          | _ => none
      | .loop =>
          match s.currentResult with
          | .future f =>
              let waiting := s.addDoneCallback f .main
              if (s.future f).result.isNone = true then
                some ({ waiting with phase := .tasks 0 }, .quiet)
              else some (waiting.resume .main)
          | _ => some (s.resume .main)
      | .tasks i =>
          match s.tasksToRun[i]? with
          | some t => some ({ s with phase := .tasks (i + 1) }.stepTask t, .quiet)
          | none =>
              some ({ s with
                tasksToRun := s.tasksToRun.filter fun t => !(s.future (.task t)).isFinished
                phase := .select }, .quiet)
      | .events [] => some ({ s with phase := .loop }, .quiet)
      | _ => none
  | .select ready =>
      match s.phase with
      | .select =>
          if ready.Nodup then
            some ({ s with phase := .events (ready.filterMap s.registered) }, .quiet)
          else none
      | _ => none
  | .event d =>
      match s.phase with
      | .events (n :: rest) =>
          some ({ s with phase := .events rest, activity := .setResult (.socket n) (.data d) },
            .quiet)
      | _ => none

def setResult (s : State Node Sock Data) (f : FutureId) (v : Value Data) : State Node Sock Data :=
  { s with
    future := Function.update s.future f { s.future f with result := v, isFinished := true }
    activity := match (s.future f).doneCallback with
      | none => .run
      | some who => .callback who v }

end State

def step (next : Node → Op Node Sock Data) (s : State Node Sock Data) (a : Action Sock Data) :
    Option (State Node Sock Data × Event Data) :=
  match s.activity, a with
  | .run, a => s.run a
  | .running who node own, .go => (s.execute next who node own).map fun after => (after, .quiet)
  | .setResult f v, .go => some (s.setResult f v, .completes f v)
  | .callback .main v, .go => some ({ s with currentResult := v, activity := .run }, .quiet)
  | .callback (.task t) _, .go => some (s.resume (.task t))
  | _, _ => none

def begun (main : Node) : State Node Sock Data where
  coro
    | .main => .fresh main
    | .task _ => .finished
  future _ := .new
  taskState _ := none
  tasksToRun := []
  tasks := 0
  sockets := 0
  registered _ := none
  currentResult := .none
  phase := .first
  activity := .run

/-- run(main), where `next` says what is at the nodes. -/
def machine (next : Node → Op Node Sock Data) (main : Node) :
    Machine (State Node Sock Data) (Action Sock Data) (Event Data) where
  start s := s = begun main
  step := step next

end NetworkProgramming.EventLoop
