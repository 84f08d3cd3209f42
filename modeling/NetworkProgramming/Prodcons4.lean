import Mathlib.Data.Fin.Basic
import NetworkProgramming.Machine
import NetworkProgramming.Threads

/-!
The bounded buffer of unpv22e/pxsem/prodcons4: producers and consumers over a
circular buffer, three counting semaphores and no condition variable. A step of
a thread is one semaphore operation or the code between the two operations on
`mutex`. `nitems` is not negative and no counter passes it, so the ints of the
program are naturals here.
-/

namespace NetworkProgramming.Prodcons4

def nbuff : Nat := 10

structure Shared where
  buff : Fin nbuff → Nat
  nput : Nat
  nputval : Nat
  nget : Nat
  ngetval : Nat
  mutex : Nat
  nempty : Nat
  nstored : Nat

def slot (item : Nat) : Fin nbuff := ⟨item % nbuff, Nat.mod_lt _ (by decide)⟩

/-- Where a producer stands: before the named operation, or returned. -/
inductive Produce where
  | waitNempty
  | waitMutex
  | store
  | postMutex
  | postNstored
  | endNstored
  | endNempty
  | endMutex
  | returned
  deriving DecidableEq

inductive Consume where
  | waitNstored
  | waitMutex
  | fetch
  | postMutex
  | postNempty
  | endNstored
  | endMutex
  | returned
  deriving DecidableEq

structure Task (Place : Type) where
  place : Place
  arg : Nat
  deriving DecidableEq

/-- What the check of a consumer compares. -/
structure Fetch where
  value : Nat
  ngetval : Nat
  deriving DecidableEq

def semWait (sem : Nat) : Option Nat := if sem = 0 then none else some (sem - 1)
def semPost (sem : Nat) : Nat := sem + 1

def produce (nitems : Nat) (task : Task Produce) (shared : Shared) :
    Option (Shared × Task Produce) :=
  match task.place with
  | .waitNempty => (semWait shared.nempty).map fun nempty =>
      ({ shared with nempty := nempty }, { task with place := .waitMutex })
  | .waitMutex => (semWait shared.mutex).map fun mutex =>
      ({ shared with mutex := mutex }, { task with place := .store })
  | .store =>
      if shared.nput ≥ nitems then some (shared, { task with place := .endNstored })
      else some ({ shared with
        buff := Function.update shared.buff (slot shared.nput) shared.nputval
        nput := shared.nput + 1
        nputval := shared.nputval + 1 }, { task with place := .postMutex })
  | .postMutex => some ({ shared with mutex := semPost shared.mutex },
      { task with place := .postNstored })
  | .postNstored => some ({ shared with nstored := semPost shared.nstored },
      { place := .waitNempty, arg := task.arg + 1 })
  | .endNstored => some ({ shared with nstored := semPost shared.nstored },
      { task with place := .endNempty })
  | .endNempty => some ({ shared with nempty := semPost shared.nempty },
      { task with place := .endMutex })
  | .endMutex => some ({ shared with mutex := semPost shared.mutex },
      { task with place := .returned })
  | .returned => none

def consume (nitems : Nat) (task : Task Consume) (shared : Shared) :
    Option (Shared × Task Consume × Option Fetch) :=
  match task.place with
  | .waitNstored => (semWait shared.nstored).map fun nstored =>
      ({ shared with nstored := nstored }, { task with place := .waitMutex }, none)
  | .waitMutex => (semWait shared.mutex).map fun mutex =>
      ({ shared with mutex := mutex }, { task with place := .fetch }, none)
  | .fetch =>
      if shared.nget ≥ nitems then some (shared, { task with place := .endNstored }, none)
      else some ({ shared with nget := shared.nget + 1, ngetval := shared.ngetval + 1 },
        { task with place := .postMutex },
        some ⟨shared.buff (slot shared.nget), shared.ngetval⟩)
  | .postMutex => some ({ shared with mutex := semPost shared.mutex },
      { task with place := .postNempty }, none)
  | .postNempty => some ({ shared with nempty := semPost shared.nempty },
      { place := .waitNstored, arg := task.arg + 1 }, none)
  | .endNstored => some ({ shared with nstored := semPost shared.nstored },
      { task with place := .endMutex }, none)
  | .endMutex => some ({ shared with mutex := semPost shared.mutex },
      { task with place := .returned }, none)
  | .returned => none

variable {Producer Consumer : Type*} [Fintype Producer] [DecidableEq Producer]
  [Fintype Consumer] [DecidableEq Consumer]

structure State (Producer Consumer : Type*) where
  shared : Shared
  producer : Producer → Task Produce
  consumer : Consumer → Task Consume

inductive Action (Producer Consumer : Type*) where
  | produce (p : Producer)
  | consume (c : Consumer)
  deriving DecidableEq

abbrev Step (Producer Consumer : Type*) :=
  Transition (State Producer Consumer) (Action Producer Consumer) (Option Fetch)

def start : State Producer Consumer where
  shared := ⟨fun _ => 0, 0, 0, 0, 0, 1, nbuff, 0⟩
  producer _ := ⟨.waitNempty, 0⟩
  consumer _ := ⟨.waitNstored, 0⟩

def step (nitems : Nat) (s : State Producer Consumer) :
    Action Producer Consumer → Option (State Producer Consumer × Option Fetch)
  | .produce p => (produce nitems (s.producer p) s.shared).map fun r =>
      ({ s with shared := r.1, producer := Function.update s.producer p r.2 }, none)
  | .consume c => (consume nitems (s.consumer c) s.shared).map fun r =>
      ({ s with shared := r.1, consumer := Function.update s.consumer c r.2.1 }, r.2.2)

def machine (nitems : Nat) :
    Machine (State Producer Consumer) (Action Producer Consumer) (Option Fetch) where
  start s := s = start
  step := step nitems

inductive Produced (nitems : Nat) (shared : Shared) :
    Task Produce → Shared → Task Produce → Prop where
  | claim (n : Nat) (free : shared.nempty ≠ 0) :
      Produced nitems shared ⟨.waitNempty, n⟩
        { shared with nempty := shared.nempty - 1 } ⟨.waitMutex, n⟩
  | lock (n : Nat) (free : shared.mutex ≠ 0) :
      Produced nitems shared ⟨.waitMutex, n⟩
        { shared with mutex := shared.mutex - 1 } ⟨.store, n⟩
  | done (n : Nat) (all : nitems ≤ shared.nput) :
      Produced nitems shared ⟨.store, n⟩ shared ⟨.endNstored, n⟩
  | store (n : Nat) (more : shared.nput < nitems) :
      Produced nitems shared ⟨.store, n⟩
        { shared with
          buff := Function.update shared.buff (slot shared.nput) shared.nputval
          nput := shared.nput + 1
          nputval := shared.nputval + 1 } ⟨.postMutex, n⟩
  | unlock (n : Nat) :
      Produced nitems shared ⟨.postMutex, n⟩
        { shared with mutex := shared.mutex + 1 } ⟨.postNstored, n⟩
  | announce (n : Nat) :
      Produced nitems shared ⟨.postNstored, n⟩
        { shared with nstored := shared.nstored + 1 } ⟨.waitNempty, n + 1⟩
  | endNstored (n : Nat) :
      Produced nitems shared ⟨.endNstored, n⟩
        { shared with nstored := shared.nstored + 1 } ⟨.endNempty, n⟩
  | endNempty (n : Nat) :
      Produced nitems shared ⟨.endNempty, n⟩
        { shared with nempty := shared.nempty + 1 } ⟨.endMutex, n⟩
  | endMutex (n : Nat) :
      Produced nitems shared ⟨.endMutex, n⟩
        { shared with mutex := shared.mutex + 1 } ⟨.returned, n⟩

inductive Consumed (nitems : Nat) (shared : Shared) :
    Task Consume → Shared → Task Consume → Option Fetch → Prop where
  | claim (n : Nat) (free : shared.nstored ≠ 0) :
      Consumed nitems shared ⟨.waitNstored, n⟩
        { shared with nstored := shared.nstored - 1 } ⟨.waitMutex, n⟩ none
  | lock (n : Nat) (free : shared.mutex ≠ 0) :
      Consumed nitems shared ⟨.waitMutex, n⟩
        { shared with mutex := shared.mutex - 1 } ⟨.fetch, n⟩ none
  | done (n : Nat) (all : nitems ≤ shared.nget) :
      Consumed nitems shared ⟨.fetch, n⟩ shared ⟨.endNstored, n⟩ none
  | fetch (n : Nat) (more : shared.nget < nitems) :
      Consumed nitems shared ⟨.fetch, n⟩
        { shared with nget := shared.nget + 1, ngetval := shared.ngetval + 1 }
        ⟨.postMutex, n⟩ (some ⟨shared.buff (slot shared.nget), shared.ngetval⟩)
  | unlock (n : Nat) :
      Consumed nitems shared ⟨.postMutex, n⟩
        { shared with mutex := shared.mutex + 1 } ⟨.postNempty, n⟩ none
  | free (n : Nat) :
      Consumed nitems shared ⟨.postNempty, n⟩
        { shared with nempty := shared.nempty + 1 } ⟨.waitNstored, n + 1⟩ none
  | endNstored (n : Nat) :
      Consumed nitems shared ⟨.endNstored, n⟩
        { shared with nstored := shared.nstored + 1 } ⟨.endMutex, n⟩ none
  | endMutex (n : Nat) :
      Consumed nitems shared ⟨.endMutex, n⟩
        { shared with mutex := shared.mutex + 1 } ⟨.returned, n⟩ none

theorem sem_wait_iff (sem left : Nat) : semWait sem = some left ↔ sem ≠ 0 ∧ sem - 1 = left := by
  simp [semWait]

theorem produce_produced (nitems : Nat) (shared after : Shared) (task next : Task Produce)
    (ran : produce nitems task shared = some (after, next)) :
    Produced nitems shared task after next := by
  obtain ⟨place, n⟩ := task
  cases place with
  | waitNempty =>
      simp only [produce, Option.map_eq_some_iff, sem_wait_iff, Prod.mk.injEq] at ran
      obtain ⟨_, ⟨free, rfl⟩, rfl, rfl⟩ := ran
      exact .claim n free
  | waitMutex =>
      simp only [produce, Option.map_eq_some_iff, sem_wait_iff, Prod.mk.injEq] at ran
      obtain ⟨_, ⟨free, rfl⟩, rfl, rfl⟩ := ran
      exact .lock n free
  | store =>
      simp only [produce] at ran
      split at ran
      · rename_i all
        simp only [Option.some.injEq, Prod.mk.injEq] at ran
        obtain ⟨rfl, rfl⟩ := ran
        exact .done n all
      · rename_i more
        simp only [Option.some.injEq, Prod.mk.injEq] at ran
        obtain ⟨rfl, rfl⟩ := ran
        exact .store n (by omega)
  | returned => simp [produce] at ran
  | _ =>
      simp only [produce, Option.some.injEq, Prod.mk.injEq] at ran
      obtain ⟨rfl, rfl⟩ := ran
      constructor

theorem consume_consumed (nitems : Nat) (shared after : Shared) (task next : Task Consume)
    (fetched : Option Fetch) (ran : consume nitems task shared = some (after, next, fetched)) :
    Consumed nitems shared task after next fetched := by
  obtain ⟨place, n⟩ := task
  cases place with
  | waitNstored =>
      simp only [consume, Option.map_eq_some_iff, sem_wait_iff, Prod.mk.injEq] at ran
      obtain ⟨_, ⟨free, rfl⟩, rfl, rfl, rfl⟩ := ran
      exact .claim n free
  | waitMutex =>
      simp only [consume, Option.map_eq_some_iff, sem_wait_iff, Prod.mk.injEq] at ran
      obtain ⟨_, ⟨free, rfl⟩, rfl, rfl, rfl⟩ := ran
      exact .lock n free
  | fetch =>
      simp only [consume] at ran
      split at ran
      · rename_i all
        simp only [Option.some.injEq, Prod.mk.injEq] at ran
        obtain ⟨rfl, rfl, rfl⟩ := ran
        exact .done n all
      · rename_i more
        simp only [Option.some.injEq, Prod.mk.injEq] at ran
        obtain ⟨rfl, rfl, rfl⟩ := ran
        exact .fetch n (by omega)
  | returned => simp [consume] at ran
  | _ =>
      simp only [consume, Option.some.injEq, Prod.mk.injEq] at ran
      obtain ⟨rfl, rfl, rfl⟩ := ran
      constructor

inductive Effect (nitems : Nat) (s : State Producer Consumer) :
    Action Producer Consumer → State Producer Consumer → Option Fetch → Prop where
  | produced {p : Producer} {after : Shared} {next : Task Produce}
      (did : Produced nitems s.shared (s.producer p) after next) :
      Effect nitems s (.produce p)
        { s with shared := after, producer := Function.update s.producer p next } none
  | consumed {c : Consumer} {after : Shared} {next : Task Consume} {fetched : Option Fetch}
      (did : Consumed nitems s.shared (s.consumer c) after next fetched) :
      Effect nitems s (.consume c)
        { s with shared := after, consumer := Function.update s.consumer c next } fetched

omit [Fintype Producer] [Fintype Consumer] in
theorem step_effect (nitems : Nat) (s after : State Producer Consumer)
    (action : Action Producer Consumer) (fetched : Option Fetch)
    (stepped : step nitems s action = some (after, fetched)) :
    Effect nitems s action after fetched := by
  cases action with
  | produce p =>
      simp only [step, Option.map_eq_some_iff, Prod.mk.injEq] at stepped
      obtain ⟨⟨shared, next⟩, ran, rfl, rfl⟩ := stepped
      exact .produced (produce_produced nitems s.shared shared _ next ran)
  | consume c =>
      simp only [step, Option.map_eq_some_iff, Prod.mk.injEq] at stepped
      obtain ⟨⟨shared, next, got⟩, ran, rfl, rfl⟩ := stepped
      exact .consumed (consume_consumed nitems s.shared shared _ next got ran)

end NetworkProgramming.Prodcons4
