import NetworkProgramming.Machine
import NetworkProgramming.Posix
import NetworkProgramming.Ring
import NetworkProgramming.Threads

/-!
The message log in shared memory of unpv22e/pxshm: client2 writes messages into
the slots that server2 prints. A slot is reserved while the mutex is held, but
the message is copied into it afterwards. A step is one semaphore operation or
the code between two of them. `history` is no data of the programs: it notes the
messages in the order of their reservations, which of them each client reserved
last, and what has been announced and printed since.
-/

namespace NetworkProgramming.Pxshm

def mesgsize : Nat := 256
def nmesg : Nat := 16

/-- What fits into one slot, terminating null included. -/
structure Mesg where
  text : List Char
  fits : text.length < mesgsize
  deriving DecidableEq

def snprintf (pid i : Nat) : Mesg where
  text := ("pid ".toList ++ Nat.toDigits 10 pid ++ ": message ".toList ++
    Nat.toDigits 10 i).take (mesgsize - 1)
  fits := Nat.lt_of_le_of_lt (List.length_take_le _ _) (by decide)

/-- `msgdata` is read and written at the offsets in `msgoff`, a slot apart. -/
structure Shmstruct where
  mutex : Nat
  nempty : Nat
  nstored : Nat
  nput : Nat
  noverflow : Nat
  noverflowmutex : Nat
  msgoff : Nat → Nat
  msgdata : Nat → Mesg

inductive Put where
  | loop
  | tryNempty
  | waitMutex
  | reserve
  | postMutex
  | strcpy
  | postNstored
  | waitOverflow
  | overflow
  | postOverflow
  | exited
  deriving DecidableEq

structure Client where
  place : Put
  i : Nat
  mesg : Mesg
  offset : Nat

inductive Get where
  | waitNstored
  | waitMutex
  | print
  | postMutex
  | postNempty
  | waitOverflow
  | fetch
  | postOverflow
  | report
  deriving DecidableEq

structure Server where
  place : Get
  index : Nat
  lastnoverflow : Nat
  temp : Nat

inductive Event where
  | quiet
  | reserved (mesg : Mesg)
  | posted
  | printed (index : Nat) (mesg : Mesg)
  | noverflow (temp : Nat)
  deriving DecidableEq

def client2 (pid nloop : Nat) (c : Client) (ptr : Shmstruct) :
    Option (Shmstruct × Client × Event) :=
  match c.place with
  | .loop =>
      if c.i < nloop then
        some (ptr, { c with place := .tryNempty, mesg := snprintf pid c.i }, .quiet)
      else some (ptr, { c with place := .exited }, .quiet)
  | .tryNempty =>
      match Semaphore.wait ptr.nempty with
      | some nempty => some ({ ptr with nempty := nempty }, { c with place := .waitMutex }, .quiet)
      | none => some (ptr, { c with place := .waitOverflow }, .quiet)
  | .waitMutex => (Semaphore.wait ptr.mutex).map fun mutex =>
      ({ ptr with mutex := mutex }, { c with place := .reserve }, .quiet)
  | .reserve => some ({ ptr with nput := Ring.next nmesg ptr.nput },
      { c with place := .postMutex, offset := ptr.msgoff ptr.nput }, .reserved c.mesg)
  | .postMutex => some ({ ptr with mutex := Semaphore.post ptr.mutex },
      { c with place := .strcpy }, .quiet)
  | .strcpy => some ({ ptr with msgdata := Function.update ptr.msgdata c.offset c.mesg },
      { c with place := .postNstored }, .quiet)
  | .postNstored => some ({ ptr with nstored := Semaphore.post ptr.nstored },
      { c with place := .loop, i := c.i + 1 }, .posted)
  | .waitOverflow => (Semaphore.wait ptr.noverflowmutex).map fun mutex =>
      ({ ptr with noverflowmutex := mutex }, { c with place := .overflow }, .quiet)
  | .overflow => some ({ ptr with noverflow := ptr.noverflow + 1 },
      { c with place := .postOverflow }, .quiet)
  | .postOverflow => some ({ ptr with noverflowmutex := Semaphore.post ptr.noverflowmutex },
      { c with place := .loop, i := c.i + 1 }, .quiet)
  | .exited => none

def server2 (s : Server) (ptr : Shmstruct) : Option (Shmstruct × Server × Event) :=
  match s.place with
  | .waitNstored => (Semaphore.wait ptr.nstored).map fun nstored =>
      ({ ptr with nstored := nstored }, { s with place := .waitMutex }, .quiet)
  | .waitMutex => (Semaphore.wait ptr.mutex).map fun mutex =>
      ({ ptr with mutex := mutex }, { s with place := .print }, .quiet)
  | .print => some (ptr, { s with place := .postMutex, index := Ring.next nmesg s.index },
      .printed s.index (ptr.msgdata (ptr.msgoff s.index)))
  | .postMutex => some ({ ptr with mutex := Semaphore.post ptr.mutex },
      { s with place := .postNempty }, .quiet)
  | .postNempty => some ({ ptr with nempty := Semaphore.post ptr.nempty },
      { s with place := .waitOverflow }, .quiet)
  | .waitOverflow => (Semaphore.wait ptr.noverflowmutex).map fun mutex =>
      ({ ptr with noverflowmutex := mutex }, { s with place := .fetch }, .quiet)
  | .fetch => some (ptr, { s with place := .postOverflow, temp := ptr.noverflow }, .quiet)
  | .postOverflow => some ({ ptr with noverflowmutex := Semaphore.post ptr.noverflowmutex },
      { s with place := .report }, .quiet)
  | .report =>
      if s.temp ≠ s.lastnoverflow then
        some (ptr, { s with place := .waitNstored, lastnoverflow := s.temp }, .noverflow s.temp)
      else some (ptr, { s with place := .waitNstored }, .quiet)

variable {Proc : Type*} [Fintype Proc] [DecidableEq Proc]

structure History (Proc : Type*) where
  reserved : List Mesg
  ticket : Proc → Nat
  posts : Nat
  printed : List Mesg

structure State (Proc : Type*) where
  ptr : Shmstruct
  client : Proc → Client
  server : Server
  history : History Proc

inductive Action (Proc : Type*) where
  | client (p : Proc)
  | server
  deriving DecidableEq

abbrev Step (Proc : Type*) := Transition (State Proc) (Action Proc) Event

def History.record (h : History Proc) (p : Proc) : Event → History Proc
  | .reserved mesg => { h with
      reserved := h.reserved ++ [mesg]
      ticket := Function.update h.ticket p h.reserved.length }
  | .posted => { h with posts := h.posts + 1 }
  | _ => h

def History.serve (h : History Proc) : Event → History Proc
  | .printed _ mesg => { h with printed := h.printed ++ [mesg] }
  | _ => h

/-- Shared memory starts out as zeros; server2 initializes it before any client
can map it. -/
def start : State Proc where
  ptr := ⟨1, nmesg, 0, 0, 0, 1, fun index => index * mesgsize, fun _ => ⟨[], by decide⟩⟩
  client _ := ⟨.loop, 0, ⟨[], by decide⟩, 0⟩
  server := ⟨.waitNstored, 0, 0, 0⟩
  history := ⟨[], fun _ => 0, 0, []⟩

def State.afterClient (s : State Proc) (p : Proc) (ptr : Shmstruct) (next : Client)
    (event : Event) : State Proc where
  ptr := ptr
  client := Function.update s.client p next
  server := s.server
  history := s.history.record p event

def State.afterServer (s : State Proc) (ptr : Shmstruct) (next : Server) (event : Event) :
    State Proc where
  ptr := ptr
  client := s.client
  server := next
  history := s.history.serve event

def step (pid nloop : Proc → Nat) (s : State Proc) :
    Action Proc → Option (State Proc × Event)
  | .client p => (client2 (pid p) (nloop p) (s.client p) s.ptr).map fun r =>
      (s.afterClient p r.1 r.2.1 r.2.2, r.2.2)
  | .server => (server2 s.server s.ptr).map fun r => (s.afterServer r.1 r.2.1 r.2.2, r.2.2)

def machine (pid nloop : Proc → Nat) : Machine (State Proc) (Action Proc) Event where
  start s := s = start
  step := step pid nloop

inductive Client2 (pid nloop : Nat) (ptr : Shmstruct) :
    Client → Shmstruct → Client → Event → Prop where
  | again (i : Nat) (mesg : Mesg) (offset : Nat) (more : i < nloop) :
      Client2 pid nloop ptr ⟨.loop, i, mesg, offset⟩ ptr
        ⟨.tryNempty, i, snprintf pid i, offset⟩ .quiet
  | exit (i : Nat) (mesg : Mesg) (offset : Nat) :
      Client2 pid nloop ptr ⟨.loop, i, mesg, offset⟩ ptr ⟨.exited, i, mesg, offset⟩ .quiet
  | claim (i : Nat) (mesg : Mesg) (offset : Nat) (free : ptr.nempty ≠ 0) :
      Client2 pid nloop ptr ⟨.tryNempty, i, mesg, offset⟩
        { ptr with nempty := ptr.nempty - 1 } ⟨.waitMutex, i, mesg, offset⟩ .quiet
  | full (i : Nat) (mesg : Mesg) (offset : Nat) :
      Client2 pid nloop ptr ⟨.tryNempty, i, mesg, offset⟩ ptr
        ⟨.waitOverflow, i, mesg, offset⟩ .quiet
  | lock (i : Nat) (mesg : Mesg) (offset : Nat) (free : ptr.mutex ≠ 0) :
      Client2 pid nloop ptr ⟨.waitMutex, i, mesg, offset⟩
        { ptr with mutex := ptr.mutex - 1 } ⟨.reserve, i, mesg, offset⟩ .quiet
  | reserve (i : Nat) (mesg : Mesg) (offset : Nat) :
      Client2 pid nloop ptr ⟨.reserve, i, mesg, offset⟩
        { ptr with nput := Ring.next nmesg ptr.nput }
        ⟨.postMutex, i, mesg, ptr.msgoff ptr.nput⟩ (.reserved mesg)
  | unlock (i : Nat) (mesg : Mesg) (offset : Nat) :
      Client2 pid nloop ptr ⟨.postMutex, i, mesg, offset⟩
        { ptr with mutex := ptr.mutex + 1 } ⟨.strcpy, i, mesg, offset⟩ .quiet
  | copy (i : Nat) (mesg : Mesg) (offset : Nat) :
      Client2 pid nloop ptr ⟨.strcpy, i, mesg, offset⟩
        { ptr with msgdata := Function.update ptr.msgdata offset mesg }
        ⟨.postNstored, i, mesg, offset⟩ .quiet
  | announce (i : Nat) (mesg : Mesg) (offset : Nat) :
      Client2 pid nloop ptr ⟨.postNstored, i, mesg, offset⟩
        { ptr with nstored := ptr.nstored + 1 } ⟨.loop, i + 1, mesg, offset⟩ .posted
  | lockOverflow (i : Nat) (mesg : Mesg) (offset : Nat) (free : ptr.noverflowmutex ≠ 0) :
      Client2 pid nloop ptr ⟨.waitOverflow, i, mesg, offset⟩
        { ptr with noverflowmutex := ptr.noverflowmutex - 1 } ⟨.overflow, i, mesg, offset⟩ .quiet
  | overflow (i : Nat) (mesg : Mesg) (offset : Nat) :
      Client2 pid nloop ptr ⟨.overflow, i, mesg, offset⟩
        { ptr with noverflow := ptr.noverflow + 1 } ⟨.postOverflow, i, mesg, offset⟩ .quiet
  | unlockOverflow (i : Nat) (mesg : Mesg) (offset : Nat) :
      Client2 pid nloop ptr ⟨.postOverflow, i, mesg, offset⟩
        { ptr with noverflowmutex := ptr.noverflowmutex + 1 } ⟨.loop, i + 1, mesg, offset⟩ .quiet

inductive Server2 (ptr : Shmstruct) : Server → Shmstruct → Server → Event → Prop where
  | claim (index last temp : Nat) (stored : ptr.nstored ≠ 0) :
      Server2 ptr ⟨.waitNstored, index, last, temp⟩
        { ptr with nstored := ptr.nstored - 1 } ⟨.waitMutex, index, last, temp⟩ .quiet
  | lock (index last temp : Nat) (free : ptr.mutex ≠ 0) :
      Server2 ptr ⟨.waitMutex, index, last, temp⟩
        { ptr with mutex := ptr.mutex - 1 } ⟨.print, index, last, temp⟩ .quiet
  | print (index last temp : Nat) :
      Server2 ptr ⟨.print, index, last, temp⟩ ptr
        ⟨.postMutex, Ring.next nmesg index, last, temp⟩
        (.printed index (ptr.msgdata (ptr.msgoff index)))
  | unlock (index last temp : Nat) :
      Server2 ptr ⟨.postMutex, index, last, temp⟩
        { ptr with mutex := ptr.mutex + 1 } ⟨.postNempty, index, last, temp⟩ .quiet
  | free (index last temp : Nat) :
      Server2 ptr ⟨.postNempty, index, last, temp⟩
        { ptr with nempty := ptr.nempty + 1 } ⟨.waitOverflow, index, last, temp⟩ .quiet
  | lockOverflow (index last temp : Nat) (free : ptr.noverflowmutex ≠ 0) :
      Server2 ptr ⟨.waitOverflow, index, last, temp⟩
        { ptr with noverflowmutex := ptr.noverflowmutex - 1 } ⟨.fetch, index, last, temp⟩ .quiet
  | fetch (index last temp : Nat) :
      Server2 ptr ⟨.fetch, index, last, temp⟩ ptr
        ⟨.postOverflow, index, last, ptr.noverflow⟩ .quiet
  | unlockOverflow (index last temp : Nat) :
      Server2 ptr ⟨.postOverflow, index, last, temp⟩
        { ptr with noverflowmutex := ptr.noverflowmutex + 1 } ⟨.report, index, last, temp⟩ .quiet
  | report (index last temp next : Nat) (event : Event)
      (silent : event = .quiet ∨ event = .noverflow temp) :
      Server2 ptr ⟨.report, index, last, temp⟩ ptr ⟨.waitNstored, index, next, temp⟩ event

theorem client2_did (pid nloop : Nat) (c next : Client) (ptr after : Shmstruct) (event : Event)
    (ran : client2 pid nloop c ptr = some (after, next, event)) :
    Client2 pid nloop ptr c after next event := by
  obtain ⟨place, i, mesg, offset⟩ := c
  cases place with
  | loop =>
      simp only [client2] at ran
      split at ran
      · rename_i more
        cases ran
        exact .again i mesg offset more
      · cases ran
        exact .exit i mesg offset
  | tryNempty =>
      simp only [client2] at ran
      split at ran
      · rename_i claimed
        obtain ⟨free, rfl⟩ := (Semaphore.wait_iff _ _).mp claimed
        cases ran
        exact .claim i mesg offset free
      · cases ran
        exact .full i mesg offset
  | waitMutex =>
      simp only [client2, Option.map_eq_some_iff, Semaphore.wait_iff] at ran
      obtain ⟨_, ⟨free, rfl⟩, same⟩ := ran
      cases same
      exact .lock i mesg offset free
  | waitOverflow =>
      simp only [client2, Option.map_eq_some_iff, Semaphore.wait_iff] at ran
      obtain ⟨_, ⟨free, rfl⟩, same⟩ := ran
      cases same
      exact .lockOverflow i mesg offset free
  | exited => simp [client2] at ran
  | _ =>
      cases ran
      constructor

theorem server2_did (s next : Server) (ptr after : Shmstruct) (event : Event)
    (ran : server2 s ptr = some (after, next, event)) : Server2 ptr s after next event := by
  obtain ⟨place, index, last, temp⟩ := s
  cases place with
  | waitNstored =>
      simp only [server2, Option.map_eq_some_iff, Semaphore.wait_iff] at ran
      obtain ⟨_, ⟨stored, rfl⟩, same⟩ := ran
      cases same
      exact .claim index last temp stored
  | waitMutex =>
      simp only [server2, Option.map_eq_some_iff, Semaphore.wait_iff] at ran
      obtain ⟨_, ⟨free, rfl⟩, same⟩ := ran
      cases same
      exact .lock index last temp free
  | waitOverflow =>
      simp only [server2, Option.map_eq_some_iff, Semaphore.wait_iff] at ran
      obtain ⟨_, ⟨free, rfl⟩, same⟩ := ran
      cases same
      exact .lockOverflow index last temp free
  | report =>
      simp only [server2] at ran
      split at ran <;> cases ran
      · exact .report index last temp temp _ (Or.inr rfl)
      · exact .report index last temp last _ (Or.inl rfl)
  | _ =>
      cases ran
      constructor

inductive Effect (pid nloop : Proc → Nat) (s : State Proc) :
    Action Proc → State Proc → Event → Prop where
  | client {p : Proc} {after : Shmstruct} {next : Client} {event : Event}
      (did : Client2 (pid p) (nloop p) s.ptr (s.client p) after next event) :
      Effect pid nloop s (.client p) (s.afterClient p after next event) event
  | server {after : Shmstruct} {next : Server} {event : Event}
      (did : Server2 s.ptr s.server after next event) :
      Effect pid nloop s .server (s.afterServer after next event) event

omit [Fintype Proc] in
theorem step_effect (pid nloop : Proc → Nat) (s after : State Proc) (action : Action Proc)
    (event : Event) (stepped : step pid nloop s action = some (after, event)) :
    Effect pid nloop s action after event := by
  cases action with
  | client p =>
      simp only [step, Option.map_eq_some_iff, Prod.mk.injEq] at stepped
      obtain ⟨⟨ptr, next, _⟩, ran, rfl, rfl⟩ := stepped
      exact .client (client2_did _ _ _ _ _ _ _ ran)
  | server =>
      simp only [step, Option.map_eq_some_iff, Prod.mk.injEq] at stepped
      obtain ⟨⟨ptr, next, _⟩, ran, rfl, rfl⟩ := stepped
      exact .server (server2_did _ _ _ _ _ ran)

end NetworkProgramming.Pxshm
