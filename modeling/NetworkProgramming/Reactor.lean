import NetworkProgramming.ThreadPoolQueue

/-!
The server of chapter14/reactor_tcp_server.c. The main reactor accepts, the sub-reactors read, and
each of their events becomes a task of the thread pool that sends a reply to a descriptor number.
The pool is the one of thread_pool.h; its steps are steps of the server.
-/

namespace NetworkProgramming.Reactor

def subReactorNum : Nat := 4
def poolSize : Nat := 8
def ackLen : Int := 1400

/-- What recv makes of an event: some bytes, 0, EAGAIN, another error. -/
inductive Recv where
  | data
  | eof
  | again
  | error
  deriving DecidableEq

def Recv.closes : Recv → Bool
  | .eof | .error => true
  | .data | .again => false

/-- An event of a sub-reactor: its descriptor, the connection that the descriptor denoted when it
was read, whether it has been closed, and for data which of the read events it is. The task has
the descriptor only. -/
structure Job where
  fd : Nat
  conn : Option Nat
  closed : Bool
  event : Option Nat
  deriving DecidableEq

abbrev PoolState (Task : Type*) := ThreadPool.State poolSize (Fin subReactorNum) Task
abbrev PoolAction (Task : Type*) := ThreadPool.Action poolSize (Fin subReactorNum) Task

/-- `fds` are the connections that the descriptors denote, `own` the other descriptors of the
process, `registered` those in the epoll sets of the sub-reactors. Between accept and epoll_add
the main reactor has a descriptor; a sub-reactor has the rest of what epoll_wait has returned, and
between read_handler and task_new an event. `arg` is what the tasks are about. -/
structure State (Task : Type*) where
  pool : PoolState Task
  fds : Nat → Option Nat
  own : Nat → Bool
  registered : Nat → Bool
  main : Option Nat
  batch : Fin subReactorNum → List Nat
  current : Fin subReactorNum → Option Job
  arg : Task → Job
  conns : Nat
  reads : Nat

inductive Action (Task : Type*) where
  | accept (fd : Nat)
  | epollAdd (works : Bool)
  | epollWait (j : Fin subReactorNum) (events : List Nat)
  | readHandler (j : Fin subReactorNum) (result : Recv)
  | taskNew (j : Fin subReactorNum) (task : Option Task)
  | add (j : Fin subReactorNum) (task : Task)
      (target : Option (ThreadPool.Thread poolSize (Fin subReactorNum)))
  | work (i : Fin poolSize) (action : PoolAction Task) (ret : Int)

/-- `denotes` is the connection that the descriptor of the job denotes when send is called. -/
inductive Output where
  | silent
  | replied (job : Job) (denotes : Option Nat) (ret : Int)
  deriving DecidableEq

variable {Task : Type*} [DecidableEq Task]

namespace State

def empty (s : State Task) (j : Fin subReactorNum) : Prop :=
  s.pool.phase (.inr j) = .outside (.client none)

instance (s : State Task) (j : Fin subReactorNum) : Decidable (s.empty j) :=
  inferInstanceAs (Decidable (_ = _))

def used (s : State Task) (fd : Nat) : Bool := s.own fd || (s.fds fd).isSome

def accepted (s : State Task) (fd : Nat) : State Task :=
  { s with
    fds := Function.update s.fds fd (some s.conns)
    main := some fd
    conns := s.conns + 1 }

def close (s : State Task) (fd : Nat) : State Task :=
  { s with
    fds := Function.update s.fds fd none
    registered := Function.update s.registered fd false }

def job (s : State Task) (fd : Nat) (result : Recv) : Job where
  fd := fd
  conn := s.fds fd
  closed := result.closes
  event := if result = .data then some s.reads else none

def read (s : State Task) (j : Fin subReactorNum) (fd : Nat) (rest : List Nat) (result : Recv) :
    State Task :=
  let s' := if result.closes then s.close fd else s
  { s' with
    batch := Function.update s.batch j rest
    current := Function.update s.current j (some (s.job fd result))
    reads := if result = .data then s.reads + 1 else s.reads }

def done (s : State Task) (j : Fin subReactorNum) : State Task :=
  { s with current := Function.update s.current j none }

def entered (s : State Task) (pool : PoolState Task) (t : Task) (job : Job) : State Task :=
  { s with pool := pool, arg := Function.update s.arg t job }

def reply (s : State Task) (output : Option (ThreadPool.Output Task)) (ret : Int) : Output :=
  match output with
  | some (.freed t) => .replied (s.arg t) (s.fds (s.arg t).fd) ret
  | _ => .silent

end State

def step (s : State Task) : Action Task → Option (State Task × Output)
  | .accept fd =>
      if s.main = none ∧ s.used fd = false ∧ ∀ k < fd, s.used k = true then
        some (s.accepted fd, .silent) else none
  | .epollAdd works =>
      match s.main with
      | none => none
      | some fd =>
          if works then some ({ s with
            main := none
            registered := Function.update s.registered fd true }, .silent)
          else some ({ s.close fd with main := none }, .silent)
  | .epollWait j events =>
      if s.empty j ∧ s.current j = none ∧ s.batch j = [] ∧ events.Nodup ∧
          ∀ fd ∈ events, s.registered fd = true ∧ fd % subReactorNum = j then
        some ({ s with batch := Function.update s.batch j events }, .silent) else none
  | .readHandler j result =>
      match s.batch j with
      | [] => none
      | fd :: rest =>
          if s.empty j ∧ s.current j = none ∧ (s.fds fd = none → result = .error) then
            some (s.read j fd rest result, .silent) else none
  | .taskNew j none => if (s.current j).isSome then some (s.done j, .silent) else none
  | .taskNew j (some t) =>
      match s.current j with
      | none => none
      | some job =>
          (ThreadPool.machine.step s.pool (.enter (.inr j) (.taskNew t) none)).map fun r =>
            ((s.done j).entered r.1 t job, .silent)
  | .add j t target =>
      (ThreadPool.machine.step s.pool (.enter (.inr j) (.add t) target)).map fun r =>
        ({ s with pool := r.1 }, .silent)
  | .work i a ret =>
      if ThreadPool.thread a = .inl i then
        (ThreadPool.machine.step s.pool a).map fun r => ({ s with pool := r.1 }, s.reply r.2 ret)
      else none

abbrev Step (Task : Type*) := Transition (State Task) (Action Task) Output

def machine : Machine (State Task) (Action Task) Output where
  start s := ThreadPool.machine.start s.pool ∧ (∀ fd, s.fds fd = none) ∧
    (∀ fd, s.registered fd = false) ∧ s.main = none ∧ (∀ j, s.batch j = []) ∧
    (∀ j, s.current j = none) ∧ s.conns = 0 ∧ s.reads = 0
  step := step

/-! Everything a step can do. -/

def Pooled (before : PoolState Task) (action : PoolAction Task)
    (output : Option (ThreadPool.Output Task)) (after : PoolState Task) : Prop :=
  ThreadPool.machine.Stepped ⟨before, action, output, after⟩

inductive Does (s : State Task) : Action Task → Output → State Task → Prop where
  | accept {fd : Nat} (free : s.fds fd = none) :
      Does s (.accept fd) .silent (s.accepted fd)
  | register {fd : Nat} (main : s.main = some fd) :
      Does s (.epollAdd true) .silent
        { s with main := none, registered := Function.update s.registered fd true }
  | refuse {fd : Nat} (main : s.main = some fd) :
      Does s (.epollAdd false) .silent { s.close fd with main := none }
  | epollWait {j : Fin subReactorNum} {events : List Nat} (distinct : events.Nodup)
      (registered : ∀ fd ∈ events, s.registered fd = true ∧ fd % subReactorNum = j) :
      Does s (.epollWait j events) .silent { s with batch := Function.update s.batch j events }
  | read {j : Fin subReactorNum} {fd : Nat} {rest : List Nat} {result : Recv}
      (batch : s.batch j = fd :: rest) (idle : s.current j = none) :
      Does s (.readHandler j result) .silent (s.read j fd rest result)
  | drop {j : Fin subReactorNum} {job : Job} (current : s.current j = some job) :
      Does s (.taskNew j none) .silent (s.done j)
  | enter {j : Fin subReactorNum} {t : Task} {job : Job} {output : Option (ThreadPool.Output Task)}
      {pool : PoolState Task} (current : s.current j = some job)
      (pooled : Pooled s.pool (.enter (.inr j) (.taskNew t) none) output pool) :
      Does s (.taskNew j (some t)) .silent ((s.done j).entered pool t job)
  | add {j : Fin subReactorNum} {t : Task}
      {target : Option (ThreadPool.Thread poolSize (Fin subReactorNum))}
      {output : Option (ThreadPool.Output Task)} {pool : PoolState Task}
      (pooled : Pooled s.pool (.enter (.inr j) (.add t) target) output pool) :
      Does s (.add j t target) .silent { s with pool := pool }
  | work {i : Fin poolSize} {a : PoolAction Task} {ret : Int}
      {output : Option (ThreadPool.Output Task)} {pool : PoolState Task}
      (own : ThreadPool.thread a = .inl i) (pooled : Pooled s.pool a output pool) :
      Does s (.work i a ret) (s.reply output ret) { s with pool := pool }

theorem step_does (e : Step Task) (stepped : machine.Stepped e) :
    Does e.before e.action e.output e.after := by
  obtain ⟨s, a, output, after⟩ := e
  change step s a = some (after, output) at stepped
  cases a with
  | accept fd =>
      simp only [step, Option.ite_none_right_eq_some, Option.some.injEq, Prod.mk.injEq] at stepped
      obtain ⟨⟨-, free, -⟩, rfl, rfl⟩ := stepped
      simp only [State.used, Bool.or_eq_false_iff, Option.isSome_eq_false_iff,
        Option.isNone_iff_eq_none] at free
      exact .accept free.2
  | epollAdd works =>
      cases main : s.main with
      | none => simp [step, main] at stepped
      | some fd =>
          cases works with
          | true =>
              simp only [step, main, if_true, Option.some.injEq, Prod.mk.injEq] at stepped
              obtain ⟨rfl, rfl⟩ := stepped
              exact .register main
          | false =>
              simp only [step, main, Bool.false_eq_true, if_false, Option.some.injEq,
                Prod.mk.injEq] at stepped
              obtain ⟨rfl, rfl⟩ := stepped
              exact .refuse main
  | epollWait j events =>
      simp only [step, Option.ite_none_right_eq_some, Option.some.injEq, Prod.mk.injEq] at stepped
      obtain ⟨⟨-, -, -, distinct, registered⟩, rfl, rfl⟩ := stepped
      exact .epollWait distinct registered
  | readHandler j result =>
      cases batch : s.batch j with
      | nil => simp [step, batch] at stepped
      | cons fd rest =>
          simp only [step, batch, Option.ite_none_right_eq_some, Option.some.injEq,
            Prod.mk.injEq] at stepped
          obtain ⟨⟨-, idle, -⟩, rfl, rfl⟩ := stepped
          exact .read batch idle
  | taskNew j task =>
      cases current : s.current j with
      | none => cases task <;> simp [step, current] at stepped
      | some job =>
          cases task with
          | none =>
              simp only [step, current, Option.isSome_some, if_true, Option.some.injEq,
                Prod.mk.injEq] at stepped
              obtain ⟨rfl, rfl⟩ := stepped
              exact .drop current
          | some t =>
              simp only [step, current, Option.map_eq_some_iff, Prod.mk.injEq] at stepped
              obtain ⟨⟨pool, output⟩, pooled, rfl, rfl⟩ := stepped
              exact .enter current pooled
  | add j t target =>
      simp only [step, Option.map_eq_some_iff, Prod.mk.injEq] at stepped
      obtain ⟨⟨pool, output⟩, pooled, rfl, rfl⟩ := stepped
      exact .add pooled
  | work i a ret =>
      simp only [step, Option.ite_none_right_eq_some, Option.map_eq_some_iff,
        Prod.mk.injEq] at stepped
      obtain ⟨own, ⟨pool, output⟩, pooled, rfl, rfl⟩ := stepped
      exact .work own pooled

end NetworkProgramming.Reactor
