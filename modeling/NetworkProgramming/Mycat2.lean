import NetworkProgramming.Machine
import NetworkProgramming.Posix
import NetworkProgramming.Ring

/-!
The copy with several buffers of unpv22e/pxsem/mycat2: a producer thread that
reads into a ring of buffers and a consumer thread that writes them out, both
outside the mutex. A step is one semaphore operation, one system call with the
code up to the next operation, or the test for the end of file. The environment
chooses how much each Read returns.
-/

namespace NetworkProgramming.Mycat2

def nbuff : Nat := 8
def buffsize : Nat := 8192

structure Buff where
  data : List UInt8
  n : Nat
  deriving DecidableEq

def Buff.bytes (b : Buff) : List UInt8 := b.data.take b.n

structure Shared where
  buff : Nat → Buff
  mutex : Nat
  nempty : Nat
  nstored : Nat

inductive Produce where
  | waitNempty
  | waitMutex
  | postMutex
  | read
  | postNstored
  | postLast
  | returned
  deriving DecidableEq

inductive Consume where
  | waitNstored
  | waitMutex
  | postMutex
  | check
  | write
  | postNempty
  | returned
  deriving DecidableEq

structure Thread (Place : Type) where
  place : Place
  i : Nat

structure State where
  shared : Shared
  producer : Thread Produce
  consumer : Thread Consume
  input : List UInt8
  output : List UInt8

inductive Action where
  | produce
  | read (n : Nat)
  | consume
  deriving DecidableEq

inductive Event where
  | quiet
  | read (i : Nat) (bytes : List UInt8)
  | wrote (i : Nat)
  deriving DecidableEq

abbrev Step := Transition State Action Event

/-- Read returns at least one byte, up to the whole buffer, or none at the end
of the file. -/
def Returns (input : List UInt8) (n : Nat) : Prop :=
  n ≤ buffsize ∧ n ≤ input.length ∧ (n = 0 → input = [])

instance (input : List UInt8) (n : Nat) : Decidable (Returns input n) :=
  inferInstanceAs (Decidable (_ ∧ _ ∧ _))

/-- Read leaves what lies behind the bytes it returns. -/
def Buff.fill (b : Buff) (bytes : List UInt8) : Buff :=
  ⟨bytes ++ b.data.drop bytes.length, bytes.length⟩

def produceRead (s : State) (n : Nat) : State where
  shared := { s.shared with
    buff := Function.update s.shared.buff s.producer.i
      ((s.shared.buff s.producer.i).fill (s.input.take n)) }
  producer := if n = 0 then { s.producer with place := .postLast }
    else ⟨.postNstored, Ring.next nbuff s.producer.i⟩
  consumer := s.consumer
  input := s.input.drop n
  output := s.output

def produce (s : State) : Option State :=
  match s.producer.place with
  | .waitNempty => (Semaphore.wait s.shared.nempty).map fun nempty =>
      { s with
        shared := { s.shared with nempty := nempty }
        producer := { s.producer with place := .waitMutex } }
  | .waitMutex => (Semaphore.wait s.shared.mutex).map fun mutex =>
      { s with
        shared := { s.shared with mutex := mutex }
        producer := { s.producer with place := .postMutex } }
  | .postMutex => some { s with
      shared := { s.shared with mutex := Semaphore.post s.shared.mutex }
      producer := { s.producer with place := .read } }
  | .postNstored => some { s with
      shared := { s.shared with nstored := Semaphore.post s.shared.nstored }
      producer := { s.producer with place := .waitNempty } }
  | .postLast => some { s with
      shared := { s.shared with nstored := Semaphore.post s.shared.nstored }
      producer := { s.producer with place := .returned } }
  | .read => none
  | .returned => none

def consume (s : State) : Option (State × Event) :=
  match s.consumer.place with
  | .waitNstored => (Semaphore.wait s.shared.nstored).map fun nstored =>
      ({ s with
        shared := { s.shared with nstored := nstored }
        consumer := { s.consumer with place := .waitMutex } }, .quiet)
  | .waitMutex => (Semaphore.wait s.shared.mutex).map fun mutex =>
      ({ s with
        shared := { s.shared with mutex := mutex }
        consumer := { s.consumer with place := .postMutex } }, .quiet)
  | .postMutex => some ({ s with
      shared := { s.shared with mutex := Semaphore.post s.shared.mutex }
      consumer := { s.consumer with place := .check } }, .quiet)
  | .check =>
      if (s.shared.buff s.consumer.i).n = 0 then
        some ({ s with consumer := { s.consumer with place := .returned } }, .quiet)
      else some ({ s with consumer := { s.consumer with place := .write } }, .quiet)
  | .write => some ({ s with
      output := s.output ++ (s.shared.buff s.consumer.i).bytes
      consumer := ⟨.postNempty, Ring.next nbuff s.consumer.i⟩ }, .wrote s.consumer.i)
  | .postNempty => some ({ s with
      shared := { s.shared with nempty := Semaphore.post s.shared.nempty }
      consumer := { s.consumer with place := .waitNstored } }, .quiet)
  | .returned => none

def step (s : State) : Action → Option (State × Event)
  | .produce => (produce s).map fun after => (after, .quiet)
  | .read n =>
      if s.producer.place = .read ∧ Returns s.input n then
        some (produceRead s n, .read s.producer.i (s.input.take n))
      else none
  | .consume => consume s

def start (input : List UInt8) : State where
  shared := ⟨fun _ => ⟨List.replicate buffsize 0, 0⟩, 1, nbuff, 0⟩
  producer := ⟨.waitNempty, 0⟩
  consumer := ⟨.waitNstored, 0⟩
  input := input
  output := []

def machine (input : List UInt8) : Machine State Action Event where
  start s := s = start input
  step := step

inductive Effect (s : State) : Action → State → Event → Prop where
  | claim (here : s.producer.place = .waitNempty) (free : s.shared.nempty ≠ 0) :
      Effect s .produce
        { s with
          shared := { s.shared with nempty := s.shared.nempty - 1 }
          producer := { s.producer with place := .waitMutex } } .quiet
  | lock (here : s.producer.place = .waitMutex) (free : s.shared.mutex ≠ 0) :
      Effect s .produce
        { s with
          shared := { s.shared with mutex := s.shared.mutex - 1 }
          producer := { s.producer with place := .postMutex } } .quiet
  | unlock (here : s.producer.place = .postMutex) :
      Effect s .produce
        { s with
          shared := { s.shared with mutex := s.shared.mutex + 1 }
          producer := { s.producer with place := .read } } .quiet
  | read (n : Nat) (here : s.producer.place = .read) (returns : Returns s.input n) :
      Effect s (.read n) (produceRead s n) (.read s.producer.i (s.input.take n))
  | announce (here : s.producer.place = .postNstored) :
      Effect s .produce
        { s with
          shared := { s.shared with nstored := s.shared.nstored + 1 }
          producer := { s.producer with place := .waitNempty } } .quiet
  | announceLast (here : s.producer.place = .postLast) :
      Effect s .produce
        { s with
          shared := { s.shared with nstored := s.shared.nstored + 1 }
          producer := { s.producer with place := .returned } } .quiet
  | take (here : s.consumer.place = .waitNstored) (stored : s.shared.nstored ≠ 0) :
      Effect s .consume
        { s with
          shared := { s.shared with nstored := s.shared.nstored - 1 }
          consumer := { s.consumer with place := .waitMutex } } .quiet
  | consumeLock (here : s.consumer.place = .waitMutex) (free : s.shared.mutex ≠ 0) :
      Effect s .consume
        { s with
          shared := { s.shared with mutex := s.shared.mutex - 1 }
          consumer := { s.consumer with place := .postMutex } } .quiet
  | consumeUnlock (here : s.consumer.place = .postMutex) :
      Effect s .consume
        { s with
          shared := { s.shared with mutex := s.shared.mutex + 1 }
          consumer := { s.consumer with place := .check } } .quiet
  | last (here : s.consumer.place = .check) (empty : (s.shared.buff s.consumer.i).n = 0) :
      Effect s .consume { s with consumer := { s.consumer with place := .returned } } .quiet
  | more (here : s.consumer.place = .check) (full : (s.shared.buff s.consumer.i).n ≠ 0) :
      Effect s .consume { s with consumer := { s.consumer with place := .write } } .quiet
  | write (here : s.consumer.place = .write) :
      Effect s .consume
        { s with
          output := s.output ++ (s.shared.buff s.consumer.i).bytes
          consumer := ⟨.postNempty, Ring.next nbuff s.consumer.i⟩ } (.wrote s.consumer.i)
  | free (here : s.consumer.place = .postNempty) :
      Effect s .consume
        { s with
          shared := { s.shared with nempty := s.shared.nempty + 1 }
          consumer := { s.consumer with place := .waitNstored } } .quiet

theorem produce_effect (s after : State) (ran : produce s = some after) :
    Effect s .produce after .quiet := by
  cases here : s.producer.place with
  | waitNempty =>
      simp only [produce, here, Option.map_eq_some_iff, Semaphore.wait_iff] at ran
      obtain ⟨_, ⟨free, rfl⟩, rfl⟩ := ran
      exact .claim here free
  | waitMutex =>
      simp only [produce, here, Option.map_eq_some_iff, Semaphore.wait_iff] at ran
      obtain ⟨_, ⟨free, rfl⟩, rfl⟩ := ran
      exact .lock here free
  | postMutex =>
      simp only [produce, here, Option.some.injEq] at ran
      subst after
      exact .unlock here
  | postNstored =>
      simp only [produce, here, Option.some.injEq] at ran
      subst after
      exact .announce here
  | postLast =>
      simp only [produce, here, Option.some.injEq] at ran
      subst after
      exact .announceLast here
  | read => simp [produce, here] at ran
  | returned => simp [produce, here] at ran

theorem consume_effect (s after : State) (event : Event) (ran : consume s = some (after, event)) :
    Effect s .consume after event := by
  cases here : s.consumer.place with
  | waitNstored =>
      simp only [consume, here, Option.map_eq_some_iff, Semaphore.wait_iff, Prod.mk.injEq] at ran
      obtain ⟨_, ⟨stored, rfl⟩, rfl, rfl⟩ := ran
      exact .take here stored
  | waitMutex =>
      simp only [consume, here, Option.map_eq_some_iff, Semaphore.wait_iff, Prod.mk.injEq] at ran
      obtain ⟨_, ⟨free, rfl⟩, rfl, rfl⟩ := ran
      exact .consumeLock here free
  | postMutex =>
      simp only [consume, here, Option.some.injEq, Prod.mk.injEq] at ran
      obtain ⟨rfl, rfl⟩ := ran
      exact .consumeUnlock here
  | check =>
      simp only [consume, here] at ran
      split at ran <;> simp only [Option.some.injEq, Prod.mk.injEq] at ran <;>
        obtain ⟨rfl, rfl⟩ := ran
      · rename_i empty
        exact .last here empty
      · rename_i full
        exact .more here full
  | write =>
      simp only [consume, here, Option.some.injEq, Prod.mk.injEq] at ran
      obtain ⟨rfl, rfl⟩ := ran
      exact .write here
  | postNempty =>
      simp only [consume, here, Option.some.injEq, Prod.mk.injEq] at ran
      obtain ⟨rfl, rfl⟩ := ran
      exact .free here
  | returned => simp [consume, here] at ran

theorem step_effect (s after : State) (action : Action) (event : Event)
    (stepped : step s action = some (after, event)) : Effect s action after event := by
  cases action with
  | produce =>
      simp only [step, Option.map_eq_some_iff, Prod.mk.injEq] at stepped
      obtain ⟨_, ran, rfl, rfl⟩ := stepped
      exact produce_effect s _ ran
  | read n =>
      simp only [step, Option.ite_none_right_eq_some, Option.some.injEq, Prod.mk.injEq] at stepped
      obtain ⟨⟨here, returns⟩, rfl, rfl⟩ := stepped
      exact .read n here returns
  | consume => exact consume_effect s after event stepped

end NetworkProgramming.Mycat2
