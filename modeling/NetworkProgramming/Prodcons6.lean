import NetworkProgramming.Machine
import NetworkProgramming.Threads

/-!
The bounded buffer of unpv22e/mutex/prodcons6.c: producers that store under
`put.mutex` and announce under `nready.mutex`, and one consumer that waits on
`nready.cond`. A step is one call on a mutex or the condition, or one access to
the shared data between two of them. The counters only grow up to `nitems`, so
`nput`, `nval` and the consumer's `i` are naturals.
-/

namespace NetworkProgramming.Prodcons6

/-- The struct `put`; `mutex` is whether it is locked. -/
structure Put where
  mutex : Bool
  nput : Nat
  nval : Nat
  deriving DecidableEq

structure Nready where
  mutex : Bool
  nready : Int
  deriving DecidableEq

structure Shared where
  buff : Nat → Nat
  put : Put
  nready : Nready

inductive Produce where
  | lockPut
  | testPut
  | storeBuff
  | incNput
  | incNval
  | unlockPut
  | lockNready
  | signal
  | incNready
  | unlockNready
  | unlockEnd
  | returned
  deriving DecidableEq

structure Task where
  place : Produce
  arg : Nat
  deriving DecidableEq

/-- What the consumer does next. `blocked` and `awakened` are inside the
condition wait. -/
inductive Consume where
  | loop
  | lock
  | test
  | blocked
  | awakened
  | unlock
  | check
  | returned
  deriving DecidableEq

structure Consumer where
  place : Consume
  i : Nat
  deriving DecidableEq

structure Check where
  i : Nat
  value : Nat
  deriving DecidableEq

structure Produced where
  shared : Shared
  task : Task
  signal : Bool

def produce (nitems : Int) (task : Task) (shared : Shared) : Option Produced :=
  match task.place with
  | .lockPut =>
      if shared.put.mutex then none
      else some ⟨{ shared with put := { shared.put with mutex := true } },
        { task with place := .testPut }, false⟩
  | .testPut =>
      if (shared.put.nput : Int) ≥ nitems then
        some ⟨shared, { task with place := .unlockEnd }, false⟩
      else some ⟨shared, { task with place := .storeBuff }, false⟩
  | .storeBuff =>
      some ⟨{ shared with buff := Function.update shared.buff shared.put.nput shared.put.nval },
        { task with place := .incNput }, false⟩
  | .incNput =>
      some ⟨{ shared with put := { shared.put with nput := shared.put.nput + 1 } },
        { task with place := .incNval }, false⟩
  | .incNval =>
      some ⟨{ shared with put := { shared.put with nval := shared.put.nval + 1 } },
        { task with place := .unlockPut }, false⟩
  | .unlockPut =>
      some ⟨{ shared with put := { shared.put with mutex := false } },
        { task with place := .lockNready }, false⟩
  | .lockNready =>
      if shared.nready.mutex then none
      else some ⟨{ shared with nready := { shared.nready with mutex := true } },
        { task with place := .signal }, false⟩
  | .signal =>
      some ⟨shared, { task with place := .incNready }, decide (shared.nready.nready = 0)⟩
  | .incNready =>
      some ⟨{ shared with nready := { shared.nready with nready := shared.nready.nready + 1 } },
        { task with place := .unlockNready }, false⟩
  | .unlockNready =>
      some ⟨{ shared with nready := { shared.nready with mutex := false } },
        { place := .lockPut, arg := task.arg + 1 }, false⟩
  | .unlockEnd =>
      some ⟨{ shared with put := { shared.put with mutex := false } },
        { task with place := .returned }, false⟩
  | .returned => none

def consume (nitems : Int) (c : Consumer) (shared : Shared) :
    Option (Shared × Consumer × Option Check) :=
  match c.place with
  | .loop =>
      if (c.i : Int) < nitems then some (shared, { c with place := .lock }, none)
      else some (shared, { c with place := .returned }, none)
  | .lock | .awakened =>
      if shared.nready.mutex then none
      else some ({ shared with nready := { shared.nready with mutex := true } },
        { c with place := .test }, none)
  | .test =>
      if shared.nready.nready = 0 then
        some ({ shared with nready := { shared.nready with mutex := false } },
          { c with place := .blocked }, none)
      else
        some ({ shared with nready := { shared.nready with nready := shared.nready.nready - 1 } },
          { c with place := .unlock }, none)
  | .unlock =>
      some ({ shared with nready := { shared.nready with mutex := false } },
        { c with place := .check }, none)
  | .check =>
      some (shared, { place := .loop, i := c.i + 1 }, some ⟨c.i, shared.buff c.i⟩)
  | .blocked | .returned => none

/-- The consumer is the only thread that waits, so a signal awakens it if it is blocked. -/
def Consumer.signalled (c : Consumer) : Consumer :=
  if c.place = .blocked then { c with place := .awakened } else c

variable {Producer : Type*} [Fintype Producer] [DecidableEq Producer]

structure State (Producer : Type*) where
  shared : Shared
  producer : Producer → Task
  consumer : Consumer

inductive Action (Producer : Type*) where
  | produce (p : Producer)
  | consume
  | spurious
  deriving DecidableEq

abbrev Step (Producer : Type*) :=
  Transition (State Producer) (Action Producer) (Option Check)

def start : State Producer where
  shared := ⟨fun _ => 0, ⟨false, 0, 0⟩, ⟨false, 0⟩⟩
  producer _ := ⟨.lockPut, 0⟩
  consumer := ⟨.loop, 0⟩

def State.afterProducer (s : State Producer) (p : Producer) (did : Produced) : State Producer where
  shared := did.shared
  producer := Function.update s.producer p did.task
  consumer := if did.signal then s.consumer.signalled else s.consumer

def step (nitems : Int) (s : State Producer) :
    Action Producer → Option (State Producer × Option Check)
  | .produce p => (produce nitems (s.producer p) s.shared).map fun did =>
      (s.afterProducer p did, none)
  | .consume => (consume nitems s.consumer s.shared).map fun r =>
      ({ s with shared := r.1, consumer := r.2.1 }, r.2.2)
  | .spurious =>
      if s.consumer.place = .blocked then some ({ s with consumer := s.consumer.signalled }, none)
      else none

def machine (nitems : Int) : Machine (State Producer) (Action Producer) (Option Check) where
  start s := s = start
  step := step nitems

inductive Produces (nitems : Int) (shared : Shared) : Task → Produced → Prop where
  | lockPut (n : Nat) (free : shared.put.mutex = false) :
      Produces nitems shared ⟨.lockPut, n⟩
        ⟨{ shared with put := { shared.put with mutex := true } }, ⟨.testPut, n⟩, false⟩
  | full (n : Nat) (all : nitems ≤ shared.put.nput) :
      Produces nitems shared ⟨.testPut, n⟩ ⟨shared, ⟨.unlockEnd, n⟩, false⟩
  | more (n : Nat) (more : shared.put.nput < nitems) :
      Produces nitems shared ⟨.testPut, n⟩ ⟨shared, ⟨.storeBuff, n⟩, false⟩
  | storeBuff (n : Nat) :
      Produces nitems shared ⟨.storeBuff, n⟩
        ⟨{ shared with buff := Function.update shared.buff shared.put.nput shared.put.nval },
          ⟨.incNput, n⟩, false⟩
  | incNput (n : Nat) :
      Produces nitems shared ⟨.incNput, n⟩
        ⟨{ shared with put := { shared.put with nput := shared.put.nput + 1 } },
          ⟨.incNval, n⟩, false⟩
  | incNval (n : Nat) :
      Produces nitems shared ⟨.incNval, n⟩
        ⟨{ shared with put := { shared.put with nval := shared.put.nval + 1 } },
          ⟨.unlockPut, n⟩, false⟩
  | unlockPut (n : Nat) :
      Produces nitems shared ⟨.unlockPut, n⟩
        ⟨{ shared with put := { shared.put with mutex := false } }, ⟨.lockNready, n⟩, false⟩
  | lockNready (n : Nat) (free : shared.nready.mutex = false) :
      Produces nitems shared ⟨.lockNready, n⟩
        ⟨{ shared with nready := { shared.nready with mutex := true } }, ⟨.signal, n⟩, false⟩
  | signal (n : Nat) :
      Produces nitems shared ⟨.signal, n⟩
        ⟨shared, ⟨.incNready, n⟩, decide (shared.nready.nready = 0)⟩
  | incNready (n : Nat) :
      Produces nitems shared ⟨.incNready, n⟩
        ⟨{ shared with nready := { shared.nready with nready := shared.nready.nready + 1 } },
          ⟨.unlockNready, n⟩, false⟩
  | unlockNready (n : Nat) :
      Produces nitems shared ⟨.unlockNready, n⟩
        ⟨{ shared with nready := { shared.nready with mutex := false } },
          ⟨.lockPut, n + 1⟩, false⟩
  | unlockEnd (n : Nat) :
      Produces nitems shared ⟨.unlockEnd, n⟩
        ⟨{ shared with put := { shared.put with mutex := false } }, ⟨.returned, n⟩, false⟩

inductive Consumes (nitems : Int) (shared : Shared) :
    Consumer → Shared → Consumer → Option Check → Prop where
  | next (i : Nat) (more : (i : Int) < nitems) :
      Consumes nitems shared ⟨.loop, i⟩ shared ⟨.lock, i⟩ none
  | over_ (i : Nat) (all : nitems ≤ i) :
      Consumes nitems shared ⟨.loop, i⟩ shared ⟨.returned, i⟩ none
  | lock (place : Consume) (i : Nat) (here : place = .lock ∨ place = .awakened)
      (free : shared.nready.mutex = false) :
      Consumes nitems shared ⟨place, i⟩
        { shared with nready := { shared.nready with mutex := true } } ⟨.test, i⟩ none
  | wait (i : Nat) (nothing : shared.nready.nready = 0) :
      Consumes nitems shared ⟨.test, i⟩
        { shared with nready := { shared.nready with mutex := false } } ⟨.blocked, i⟩ none
  | take (i : Nat) (some_ready : shared.nready.nready ≠ 0) :
      Consumes nitems shared ⟨.test, i⟩
        { shared with nready := { shared.nready with nready := shared.nready.nready - 1 } }
        ⟨.unlock, i⟩ none
  | unlock (i : Nat) :
      Consumes nitems shared ⟨.unlock, i⟩
        { shared with nready := { shared.nready with mutex := false } } ⟨.check, i⟩ none
  | check (i : Nat) :
      Consumes nitems shared ⟨.check, i⟩ shared ⟨.loop, i + 1⟩ (some ⟨i, shared.buff i⟩)

theorem produce_produces (nitems : Int) (shared : Shared) (task : Task) (did : Produced)
    (ran : produce nitems task shared = some did) : Produces nitems shared task did := by
  obtain ⟨place, n⟩ := task
  cases place with
  | lockPut =>
      simp only [produce, Option.ite_none_left_eq_some, Bool.not_eq_true, Option.some.injEq] at ran
      obtain ⟨free, rfl⟩ := ran
      exact .lockPut n free
  | testPut =>
      simp only [produce] at ran
      split at ran
      · rename_i all
        simp only [Option.some.injEq] at ran
        subst ran
        exact .full n all
      · rename_i more
        simp only [Option.some.injEq] at ran
        subst ran
        exact .more n (by omega)
  | lockNready =>
      simp only [produce, Option.ite_none_left_eq_some, Bool.not_eq_true, Option.some.injEq] at ran
      obtain ⟨free, rfl⟩ := ran
      exact .lockNready n free
  | returned => simp [produce] at ran
  | _ =>
      simp only [produce, Option.some.injEq] at ran
      subst ran
      constructor

theorem consume_consumes (nitems : Int) (shared after : Shared) (c next : Consumer)
    (checked : Option Check) (ran : consume nitems c shared = some (after, next, checked)) :
    Consumes nitems shared c after next checked := by
  obtain ⟨place, i⟩ := c
  cases place with
  | loop =>
      simp only [consume] at ran
      split at ran
      · rename_i more
        simp only [Option.some.injEq, Prod.mk.injEq] at ran
        obtain ⟨rfl, rfl, rfl⟩ := ran
        exact .next i more
      · rename_i all
        simp only [Option.some.injEq, Prod.mk.injEq] at ran
        obtain ⟨rfl, rfl, rfl⟩ := ran
        exact .over_ i (by omega)
  | lock =>
      simp only [consume, Option.ite_none_left_eq_some, Bool.not_eq_true, Option.some.injEq,
        Prod.mk.injEq] at ran
      obtain ⟨free, rfl, rfl, rfl⟩ := ran
      exact .lock _ i (Or.inl rfl) free
  | awakened =>
      simp only [consume, Option.ite_none_left_eq_some, Bool.not_eq_true, Option.some.injEq,
        Prod.mk.injEq] at ran
      obtain ⟨free, rfl, rfl, rfl⟩ := ran
      exact .lock _ i (Or.inr rfl) free
  | test =>
      simp only [consume] at ran
      split at ran
      · rename_i nothing
        simp only [Option.some.injEq, Prod.mk.injEq] at ran
        obtain ⟨rfl, rfl, rfl⟩ := ran
        exact .wait i nothing
      · rename_i some_ready
        simp only [Option.some.injEq, Prod.mk.injEq] at ran
        obtain ⟨rfl, rfl, rfl⟩ := ran
        exact .take i some_ready
  | unlock =>
      simp only [consume, Option.some.injEq, Prod.mk.injEq] at ran
      obtain ⟨rfl, rfl, rfl⟩ := ran
      exact .unlock i
  | check =>
      simp only [consume, Option.some.injEq, Prod.mk.injEq] at ran
      obtain ⟨rfl, rfl, rfl⟩ := ran
      exact .check i
  | blocked => simp [consume] at ran
  | returned => simp [consume] at ran

inductive Effect (nitems : Int) (s : State Producer) :
    Action Producer → State Producer → Option Check → Prop where
  | produced (p : Producer) (did : Produced)
      (ran : Produces nitems s.shared (s.producer p) did) :
      Effect nitems s (.produce p) (s.afterProducer p did) none
  | consumed (after : Shared) (next : Consumer) (checked : Option Check)
      (did : Consumes nitems s.shared s.consumer after next checked) :
      Effect nitems s .consume { s with shared := after, consumer := next } checked
  | spurious (here : s.consumer.place = .blocked) :
      Effect nitems s .spurious { s with consumer := s.consumer.signalled } none

omit [Fintype Producer] in
theorem step_effect (nitems : Int) (s after : State Producer) (action : Action Producer)
    (checked : Option Check) (stepped : step nitems s action = some (after, checked)) :
    Effect nitems s action after checked := by
  cases action with
  | produce p =>
      simp only [step, Option.map_eq_some_iff, Prod.mk.injEq] at stepped
      obtain ⟨did, ran, rfl, rfl⟩ := stepped
      exact .produced p did (produce_produces nitems s.shared _ did ran)
  | consume =>
      simp only [step, Option.map_eq_some_iff, Prod.mk.injEq] at stepped
      obtain ⟨⟨shared, next, got⟩, ran, rfl, rfl⟩ := stepped
      exact .consumed shared next got (consume_consumes nitems s.shared shared _ next got ran)
  | spurious =>
      simp only [step, Option.ite_none_right_eq_some, Option.some.injEq, Prod.mk.injEq] at stepped
      obtain ⟨here, rfl, rfl⟩ := stepped
      exact .spurious here

end NetworkProgramming.Prodcons6
