import NetworkProgramming.Machine
import NetworkProgramming.MutexWaits
import NetworkProgramming.TextStream

/-!
AsyncTCPClient.cpp and AsyncTCPClientMT.cpp. A step is one operation on a mutex with the code after
it, up to the next one. The threads that call io_context::run are the I/O threads, one in the first
program and any number in the second; they call the handlers, and the user's callback from within
a handler, which may call the client again.
-/

namespace NetworkProgramming.AsyncTcpClient

open MutexWaits

inductive Op where
  | connect
  | write
  | read
  deriving DecidableEq

inductive Ec where
  | success
  | operationAborted
  | other (value : Nat)
  deriving DecidableEq

/-- `pending` is the operation whose handler has not been called. -/
structure Session where
  response : List UInt8
  ec : Ec
  wasCancelled : Bool
  pending : Option Op
  deriving DecidableEq

/-- What comes next on a thread: `insert`, `find` and `erase` want the guard of the active
sessions, `cancel` and `check` the guard of the session. `locked` says that the handler has that
guard while it is in onRequestComplete. -/
inductive Place (Id : Type*) where
  | free
  | insert (id : Id)
  | inserted (id : Id)
  | find (id : Id)
  | cancel (id : Id)
  | cancelled (id : Id)
  | leave
  | check (id : Id) (next : Op)
  | release (id : Id)
  | erase (id : Id) (locked : Bool)
  | erased (id : Id) (locked : Bool)
  deriving DecidableEq

/-- `callback` is the request whose callback the thread is in. -/
structure Control (Id : Type*) where
  place : Place Id
  callback : Option (Id × Bool)
  deriving DecidableEq

inductive Guard (Id : Type*) where
  | activeSessions
  | cancel (id : Id)
  deriving DecidableEq

structure State (Thread Id : Type*) where
  control : Thread → Control Id
  activeSessionsGuard : Option Thread
  cancelGuard : Id → Option Thread
  activeSessions : Id → Bool
  requested : Id → Bool
  session : Id → Session

/-- A handler is called with an error or not, and with what is in the buffer of the response. -/
inductive Action (Thread Id : Type*) where
  | emulateLongComputationOp (t : Thread) (id : Id)
  | cancelRequest (t : Thread) (id : Id)
  | handle (t : Thread) (id : Id) (ec : Ec) (buf : List UInt8)
  | proceed (t : Thread)
  deriving DecidableEq

inductive Event (Id : Type*) where
  | callback (id : Id) (response : List UInt8) (ec : Ec)
  | quiet
  deriving DecidableEq

abbrev Step (Thread Id : Type*) := Transition (State Thread Id) (Action Thread Id) (Event Id)

def Session.completed (session : Session) (op : Op) (ec : Ec) (buf : List UInt8) : Session :=
  let session := { session with pending := none }
  if ec ≠ .success then { session with ec := ec }
  else if op = .read then
    { session with response := (TextStream.getline 10 ⟨buf, true⟩ session.response).1 }
  else session

def Place.completed {Id : Type*} (id : Id) (op : Op) (ec : Ec) : Place Id :=
  if ec ≠ .success then .erase id false
  else match op with
    | .connect => .check id .write
    | .write => .check id .read
    | .read => .erase id false

def Session.result (session : Session) : Ec :=
  if session.ec = .success ∧ session.wasCancelled = true then .operationAborted else session.ec

def Session.new : Session := ⟨[], .success, false, none⟩

variable {Thread Id : Type*} [DecidableEq Thread] [DecidableEq Id]

namespace State

def go (s : State Thread Id) (t : Thread) (place : Place Id) : State Thread Id :=
  { s with control := Function.update s.control t { s.control t with place := place } }

def setSession (s : State Thread Id) (id : Id) (session : Session) : State Thread Id :=
  { s with session := Function.update s.session id session }

def setCancelGuard (s : State Thread Id) (id : Id) (owner : Option Thread) : State Thread Id :=
  { s with cancelGuard := Function.update s.cancelGuard id owner }

def proceed (s : State Thread Id) (t : Thread) : Option (State Thread Id × Event Id) :=
  match (s.control t).place with
  | .insert id =>
      if s.activeSessionsGuard = none then
        some ({ s.go t (.inserted id) with
          activeSessionsGuard := some t
          activeSessions := Function.update s.activeSessions id true }, .quiet)
      else none
  | .inserted id =>
      some ({ s.go t .free with activeSessionsGuard := none }.setSession id
        { s.session id with pending := some .connect }, .quiet)
  | .find id =>
      if s.activeSessionsGuard = none then
        some ({ s.go t (if s.activeSessions id = true then .cancel id else .leave) with
          activeSessionsGuard := some t }, .quiet)
      else none
  | .cancel id =>
      if s.cancelGuard id = none then
        some (((s.go t (.cancelled id)).setCancelGuard id (some t)).setSession id
          { s.session id with wasCancelled := true }, .quiet)
      else none
  | .cancelled id => some ((s.go t .leave).setCancelGuard id none, .quiet)
  | .leave => some ({ s.go t .free with activeSessionsGuard := none }, .quiet)
  | .check id next =>
      if s.cancelGuard id = none then
        if (s.session id).wasCancelled = true then
          some ((s.go t (.erase id true)).setCancelGuard id (some t), .quiet)
        else
          some (((s.go t (.release id)).setCancelGuard id (some t)).setSession id
            { s.session id with pending := some next }, .quiet)
      else none
  | .release id => some ((s.go t .free).setCancelGuard id none, .quiet)
  | .erase id locked =>
      if s.activeSessionsGuard = none then
        some ({ s.go t (.erased id locked) with
          activeSessionsGuard := some t
          activeSessions := Function.update s.activeSessions id false }, .quiet)
      else none
  | .erased id locked =>
      some ({ s with
        control := Function.update s.control t ⟨.free, some (id, locked)⟩
        activeSessionsGuard := none },
        .callback id (s.session id).response (s.session id).result)
  | .free =>
      match (s.control t).callback with
      | none => none
      | some (id, locked) =>
          let returned := { s with control := Function.update s.control t ⟨.free, none⟩ }
          some (if locked = true then returned.setCancelGuard id none else returned, .quiet)

end State

def callsClient (io : Thread → Bool) (s : State Thread Id) (t : Thread) : Bool :=
  decide ((s.control t).place = .free) && (!io t || (s.control t).callback.isSome)

def step (io : Thread → Bool) (s : State Thread Id) :
    Action Thread Id → Option (State Thread Id × Event Id)
  | .emulateLongComputationOp t id =>
      if callsClient io s t = true ∧ s.requested id = false then
        some ({ s.go t (.insert id) with
          requested := Function.update s.requested id true }.setSession id .new, .quiet)
      else none
  | .cancelRequest t id =>
      if callsClient io s t = true then some (s.go t (.find id), .quiet) else none
  | .handle t id ec buf =>
      match (s.session id).pending with
      | none => none
      | some op =>
          if io t = true ∧ s.control t = ⟨.free, none⟩ then
            some ((s.go t (.completed id op ec)).setSession id
              ((s.session id).completed op ec buf), .quiet)
          else none
  | .proceed t => s.proceed t

/-- `io` says which threads are I/O threads. No request has been made, and each is to have an id
of its own. -/
def machine (Id : Type*) [DecidableEq Id] (io : Thread → Bool) :
    Machine (State Thread Id) (Action Thread Id) (Event Id) where
  start s := (∀ t, s.control t = ⟨.free, none⟩) ∧ s.activeSessionsGuard = none ∧
    (∀ id, s.cancelGuard id = none) ∧ (∀ id, s.activeSessions id = false) ∧
    (∀ id, s.requested id = false) ∧ ∀ id, (s.session id).pending = none
  step := step io

/-! What a thread has and wants. -/

def Control.wants (c : Control Id) : Option (Guard Id) :=
  match c.place with
  | .insert _ | .find _ | .erase _ _ => some .activeSessions
  | .cancel id | .check id _ => some (.cancel id)
  | _ => none

def Control.hasActiveSessions (c : Control Id) : Bool :=
  match c.place with
  | .inserted _ | .cancel _ | .cancelled _ | .leave | .erased _ _ => true
  | _ => false

def Place.hasCancel (id : Id) : Place Id → Bool
  | .cancelled i | .release i => decide (i = id)
  | .erase i locked | .erased i locked => locked && decide (i = id)
  | _ => false

def Control.hasCancel (id : Id) (c : Control Id) : Bool :=
  c.place.hasCancel id || decide (c.callback = some (id, true))

namespace State

def owner (s : State Thread Id) : Guard Id → Option Thread
  | .activeSessions => s.activeSessionsGuard
  | .cancel id => s.cancelGuard id

def Deadlocked (s : State Thread Id) : Prop := Deadlock (fun t => (s.control t).wants) s.owner

end State

end NetworkProgramming.AsyncTcpClient
