import NetworkProgramming.Zen
import NetworkProgramming.Machine
import Mathlib.Logic.Function.Basic

/-!
The poll server of fopnp-3/chapter07/srv_async.py. The dictionaries of serve have the sockets as
keys, sockets alone the numbers; the kernel has the numbers of the open sockets, and the poll
object its masks. A batch is what poll has returned and the loop has not come to yet.
-/

namespace NetworkProgramming.SrvAsync

open Zen

inductive Sock where
  | listener
  | client (i : Nat)
  deriving DecidableEq

inductive Mask where
  | pollin
  | pollout
  deriving DecidableEq

/-- `gone` is POLLHUP | POLLERR | POLLNVAL. -/
structure Event where
  fd : Nat
  gone : Bool
  readable : Bool
  writable : Bool
  deriving DecidableEq

inductive Raised where
  | keyError
  | osError
  deriving DecidableEq

/-- `fileno` is none for a socket that is closed, `own` are the other descriptors of the process and
`limit` is how many it can have. `sock` is the variable of the loop. -/
structure State where
  limit : Nat
  own : Nat → Bool
  fileno : Sock → Option Nat
  created : Nat
  sockets : Nat → Option Sock
  addresses : Sock → Bool
  bytesReceived : Sock → Option (List UInt8)
  bytesToSend : Sock → Option (List UInt8)
  registered : Nat → Option Mask
  batch : List Event
  sock : Option Sock
  raised : Option Raised

inductive Call where
  | quiet
  | accept (fd : Nat)
  | recv (data : List UInt8)
  | send (n : Nat)
  | error

inductive Action where
  | poll (events : List Event)
  | event (call : Call)

inductive Output where
  | silent
  | sent (sock : Sock) (data : List UInt8)
  deriving DecidableEq

namespace State

def used (s : State) (n : Nat) : Bool :=
  s.own n || s.fileno .listener = some n ||
    (List.range s.created).any fun i => s.fileno (.client i) = some n

/-- Some dictionary has the socket. An open one is in sockets under its number or not at all. -/
def held (s : State) (k : Sock) : Bool :=
  k = .listener || s.addresses k || (s.bytesReceived k).isSome || (s.bytesToSend k).isSome ||
    (s.fileno k).any fun n => s.sockets n = some k

/-- What poll can say about a registered number, by what the number denotes. A listening socket is
readable or not. -/
def Ready (s : State) (event : Event) : Prop :=
  match s.registered event.fd with
  | none => False
  | some mask =>
      if s.used event.fd then
        (event.gone || event.readable || event.writable) ∧
          (event.readable → mask = .pollin) ∧ (event.writable → mask = .pollout) ∧
          (s.fileno .listener = some event.fd → event.gone = false)
      else event = ⟨event.fd, true, false, false⟩

instance (s : State) (event : Event) : Decidable (s.Ready event) := by
  unfold Ready
  split <;> infer_instance

def Pending (s : State) (n : Nat) : Prop := s.registered n ≠ none ∧ s.used n = false

instance (s : State) (n : Nat) : Decidable (s.Pending n) :=
  inferInstanceAs (Decidable (_ ∧ _))

def Polled (s : State) (events : List Event) : Prop :=
  events ≠ [] ∧ (events.map Event.fd).Nodup ∧ (∀ event ∈ events, s.Ready event) ∧
    ∀ n < s.limit, s.Pending n → n ∈ events.map Event.fd

instance (s : State) (events : List Event) : Decidable (s.Polled events) :=
  inferInstanceAs (Decidable (_ ∧ _ ∧ _ ∧ _))

/-- The variable is bound, and the socket it has had is closed if no dictionary holds it. -/
def bind (s : State) (k : Sock) (rest : List Event) : State :=
  { s with
    batch := rest
    sock := some k
    fileno := fun j => if s.sock = some j ∧ j ≠ k ∧ s.held j = false then none else s.fileno j }

def raise (s : State) (exception : Raised) : State := { s with raised := some exception }

def clean (s : State) (k : Sock) (fd : Nat) : State :=
  { s with
    addresses := Function.update s.addresses k false
    bytesReceived := Function.update s.bytesReceived k none
    bytesToSend := Function.update s.bytesToSend k none
    registered := Function.update s.registered fd none
    sockets := Function.update s.sockets fd none }

def accepted (s : State) (fd : Nat) : State :=
  { s with
    created := s.created + 1
    fileno := Function.update s.fileno (.client s.created) (some fd)
    sock := some (.client s.created)
    sockets := Function.update s.sockets fd (some (.client s.created))
    addresses := Function.update s.addresses (.client s.created) true
    registered := Function.update s.registered fd (some .pollin) }

def close (s : State) (k : Sock) : State :=
  { s with fileno := Function.update s.fileno k none }

/-- modify of a number that is not registered fails. -/
def modify (s : State) (fd : Nat) (mask : Mask) : State :=
  if s.registered fd = none then s.raise .osError
  else { s with registered := Function.update s.registered fd (some mask) }

/-- Incoming data: keep receiving until we see the suffix. -/
def receive (s : State) (k : Sock) (fd : Nat) (moreData : List UInt8) : State :=
  let data := (s.bytesReceived k).getD [] ++ moreData
  if ends data then
    { s with
      bytesReceived := Function.update s.bytesReceived k none
      bytesToSend := Function.update s.bytesToSend k (some (getAnswer data)) }.modify fd .pollout
  else { s with bytesReceived := Function.update s.bytesReceived k (some data) }

def send (s : State) (k : Sock) (fd : Nat) (data : List UInt8) (n : Nat) : State :=
  if n < data.length then
    { s with bytesToSend := Function.update s.bytesToSend k (some (data.drop n)) }
  else
    { s with bytesToSend := Function.update s.bytesToSend k none }.modify fd .pollin

end State

open State

/-! The branches of the loop. -/

def socketClosed (s : State) (k : Sock) (event : Event) : Call → Option (State × Output)
  | .quiet =>
      if s.addresses k ∧ s.registered event.fd ≠ none then some (s.clean k event.fd, .silent)
      else some (s.raise .keyError, .silent)
  | _ => none

def newSocket (s : State) : Call → Option (State × Output)
  | .accept fd =>
      if fd < s.limit ∧ s.used fd = false ∧ ∀ n < fd, s.used n = true then
        some (s.accepted fd, .silent) else none
  | .error => some (s.raise .osError, .silent)
  | _ => none

def incomingData (s : State) (k : Sock) (call : Call) : Option (State × Output) :=
  match call, s.fileno k with
  | .recv data, some fd =>
      if data = [] then some (s.close k, .silent)
      else if data.length ≤ 4096 then some (s.receive k fd data, .silent) else none
  | .error, _ => some (s.raise .osError, .silent)
  | _, _ => none

def readyToSend (s : State) (k : Sock) (call : Call) : Option (State × Output) :=
  match s.bytesToSend k, call, s.fileno k with
  | none, .quiet, _ => some (s.raise .keyError, .silent)
  | some data, .send n, some fd =>
      if n ≤ data.length then some (s.send k fd data n, .sent k (data.take n)) else none
  | some _, .error, _ => some (s.raise .osError, .silent)
  | _, _, _ => none

def noBranch (s : State) : Call → Option (State × Output)
  | .quiet => some (s, .silent)
  | _ => none

def handle (s : State) (k : Sock) (event : Event) (call : Call) : Option (State × Output) :=
  if event.gone then socketClosed s k event call
  else if k = .listener then newSocket s call
  else if event.readable then incomingData s k call
  else if event.writable then readyToSend s k call
  else noBranch s call

def step (s : State) : Action → Option (State × Output)
  | .poll events =>
      if s.raised = none ∧ s.batch = [] ∧ s.Polled events then
        some ({ s with batch := events }, .silent) else none
  | .event call =>
      match s.raised, s.batch with
      | none, event :: rest =>
          match s.sockets event.fd, call with
          | none, .quiet => some (s.raise .keyError, .silent)
          | none, _ => none
          | some k, call => handle (s.bind k rest) k event call
      | _, _ => none

abbrev Step := Transition State Action Output

def machine : Machine State Action Output where
  start s := ∃ fd, fd < s.limit ∧ s.own fd = false ∧
    s.fileno = Function.update (fun _ => none) .listener (some fd) ∧ s.created = 0 ∧
    s.sockets = Function.update (fun _ => none) fd (some .listener) ∧
    (∀ k, s.addresses k = false) ∧ (∀ k, s.bytesReceived k = none) ∧
    (∀ k, s.bytesToSend k = none) ∧
    s.registered = Function.update (fun _ => none) fd (some .pollin) ∧
    s.batch = [] ∧ s.sock = none ∧ s.raised = none
  step := step

/-- A process with the standard streams and the listening socket. -/
def initial : State where
  limit := 64
  own n := decide (n < 3)
  fileno := Function.update (fun _ => none) .listener (some 3)
  created := 0
  sockets := Function.update (fun _ => none) 3 (some .listener)
  addresses _ := false
  bytesReceived _ := none
  bytesToSend _ := none
  registered := Function.update (fun _ => none) 3 (some .pollin)
  batch := []
  sock := none
  raised := none

theorem initial_start : machine.start initial :=
  ⟨3, by decide, by decide, rfl, rfl, rfl, fun _ => rfl, fun _ => rfl, fun _ => rfl, rfl, rfl, rfl,
    rfl⟩

/-! Everything a step can do. -/

inductive Handles (s : State) (k : Sock) (event : Event) : Call → Output → State → Prop where
  | clean (gone : event.gone = true) (known : s.addresses k = true)
      (registered : s.registered event.fd ≠ none) :
      Handles s k event .quiet .silent (s.clean k event.fd)
  | unknown (gone : event.gone = true)
      (missing : ¬ (s.addresses k = true ∧ s.registered event.fd ≠ none)) :
      Handles s k event .quiet .silent (s.raise .keyError)
  | accept {fd : Nat} (listener : k = .listener) (inside : fd < s.limit)
      (free : s.used fd = false) : Handles s k event (.accept fd) .silent (s.accepted fd)
  | eof {fd : Nat} (client : k ≠ .listener) (there : event.gone = false)
      (readable : event.readable = true) (number : s.fileno k = some fd) :
      Handles s k event (.recv []) .silent (s.close k)
  | recv {fd : Nat} {data : List UInt8} (client : k ≠ .listener) (there : event.gone = false)
      (readable : event.readable = true) (number : s.fileno k = some fd) (more : data ≠ [])
      (size : data.length ≤ 4096) :
      Handles s k event (.recv data) .silent (s.receive k fd data)
  | absent (client : k ≠ .listener) (there : event.gone = false)
      (writable : event.writable = true) (nothing : s.bytesToSend k = none) :
      Handles s k event .quiet .silent (s.raise .keyError)
  | send {fd n : Nat} {data : List UInt8} (client : k ≠ .listener) (there : event.gone = false)
      (writable : event.writable = true) (number : s.fileno k = some fd)
      (waiting : s.bytesToSend k = some data) (size : n ≤ data.length) :
      Handles s k event (.send n) (.sent k (data.take n)) (s.send k fd data n)
  | fails : Handles s k event .error .silent (s.raise .osError)
  | quiet : Handles s k event .quiet .silent s

theorem handle_handles (s s' : State) (k : Sock) (event : Event) (call : Call) (output : Output)
    (handled : handle s k event call = some (s', output)) : Handles s k event call output s' := by
  unfold handle at handled
  split at handled
  · rename_i gone
    unfold socketClosed at handled
    split at handled
    · split at handled
      · rename_i both
        cases handled
        exact .clean gone both.1 both.2
      · rename_i missing
        cases handled
        exact .unknown gone missing
    · cases handled
  · rename_i there
    rw [Bool.not_eq_true] at there
    split at handled
    · rename_i listener
      unfold newSocket at handled
      split at handled
      · split at handled
        · rename_i free
          cases handled
          exact .accept listener free.1 free.2.1
        · cases handled
      · cases handled
        exact .fails
      · cases handled
    · rename_i client
      split at handled
      · rename_i readable
        unfold incomingData at handled
        split at handled
        · rename_i data fd number
          split at handled
          · rename_i empty
            cases handled
            subst empty
            exact .eof client there readable number
          · rename_i more
            split at handled
            · rename_i size
              cases handled
              exact .recv client there readable number more size
            · cases handled
        · cases handled
          exact .fails
        · cases handled
      · split at handled
        · rename_i writable
          unfold readyToSend at handled
          split at handled
          · rename_i nothing
            cases handled
            exact .absent client there writable nothing
          · rename_i data n fd waiting number
            split at handled
            · rename_i size
              cases handled
              exact .send client there writable number waiting size
            · cases handled
          · cases handled
            exact .fails
          · cases handled
        · unfold noBranch at handled
          split at handled
          · cases handled
            exact .quiet
          · cases handled

inductive Does (s : State) : Action → Output → State → Prop where
  | poll {events : List Event} (idle : s.batch = []) (polled : s.Polled events) :
      Does s (.poll events) .silent { s with batch := events }
  | lost {event : Event} {rest : List Event} (batch : s.batch = event :: rest)
      (absent : s.sockets event.fd = none) : Does s (.event .quiet) .silent (s.raise .keyError)
  | event {call : Call} {event : Event} {rest : List Event} {k : Sock} {output : Output}
      {s' : State} (batch : s.batch = event :: rest) (found : s.sockets event.fd = some k)
      (handles : Handles (s.bind k rest) k event call output s') : Does s (.event call) output s'

theorem step_does (e : Step) (stepped : machine.Stepped e) :
    e.before.raised = none ∧ Does e.before e.action e.output e.after := by
  obtain ⟨s, action, output, s'⟩ := e
  change step s action = some (s', output) at stepped
  cases action with
  | poll events =>
      rw [step] at stepped
      split at stepped
      · rename_i ok
        cases stepped
        exact ⟨ok.1, .poll ok.2.1 ok.2.2⟩
      · cases stepped
  | event call =>
      rw [step] at stepped
      split at stepped
      · rename_i event rest running batch
        refine ⟨running, ?_⟩
        dsimp only
        split at stepped
        · rename_i absent
          cases stepped
          exact .lost batch absent
        · cases stepped
        · rename_i k found
          exact .event batch found (handle_handles _ s' k event _ output stepped)
      · cases stepped

end NetworkProgramming.SrvAsync
