import NetworkProgramming.Machine
import NetworkProgramming.SemSets

/-!
mysem_open of unpv22e/my_pxsem_svsem/sem_open.c, called any number of times at
once. A step is one system call with the code after it, up to the next one. The
environment answers whether a call fails, which key ftok makes of the pathname,
and may leave a call where it is forever. What open does to the file is not
seen by the function and is left out.
-/

namespace NetworkProgramming.SvsemOpen

open SemSets

def maxTries : Nat := 10
def semvmx : Nat := 32767

/-- The arguments of one call; `value` is read only with O_CREAT. -/
structure Args where
  creat : Bool
  excl : Bool
  value : Nat
  deriving DecidableEq

inductive Place (Key : Type*) where
  | openFile
  | ftok
  | semgetExcl (key : Key)
  | setval
  | semop
  | ftokAgain
  | semget (key : Key)
  | stat (i : Nat)
  | sleep (i : Nat)
  | err
  | finish
  | returned
  deriving DecidableEq

/-- `semid` is `none` for -1. The function keeps no `created`: it is noted here
whether the first semget has succeeded. -/
structure Task (Key : Type*) where
  place : Place Key
  semid : Option Nat
  created : Bool
  deriving DecidableEq

inductive Answer (Key : Type*) where
  | ok
  | fail
  | key (key : Key)
  deriving DecidableEq

inductive Outcome where
  | quiet
  | created (semid : Nat)
  | initialised (semid : Nat)
  | removed (semid : Nat)
  | opened (semid : Option Nat)
  | failed
  deriving DecidableEq

structure Result (Key : Type*) where
  task : Task Key
  kernel : Kernel Key
  outcome : Outcome

variable {Key : Type*} [DecidableEq Key]

def Task.goto (task : Task Key) (kernel : Kernel Key) (place : Place Key) : Result Key :=
  ⟨{ task with place := place }, kernel, .quiet⟩

def Task.fails (task : Task Key) (kernel : Kernel Key) : Result Key :=
  ⟨{ task with place := .returned }, kernel, .failed⟩

def Task.set (task : Task Key) (kernel : Kernel Key) : Option (SemSet Key) :=
  task.semid.bind kernel.byId

def mysemOpen (args : Args) (task : Task Key) (kernel : Kernel Key) (answer : Answer Key) :
    Option (Result Key) :=
  match task.place, answer with
  | .openFile, .ok => some (task.goto kernel .ftok)
  | .openFile, .fail => some (task.fails kernel)
  | .ftok, .key key => some (task.goto kernel (.semgetExcl key))
  | .ftok, .fail => some (task.fails kernel)
  | .semgetExcl key, .ok =>
      match kernel.byKey key with
      | none => some ⟨⟨.setval, some kernel.next, true⟩, kernel.create key, .created kernel.next⟩
      | some _ => some (task.goto kernel (if args.excl then .err else .ftokAgain))
  | .semgetExcl _, .fail => some (task.goto kernel .err)
  | .setval, .ok =>
      match task.set kernel with
      | none => some (task.goto kernel .err)
      | some set =>
          some (task.goto (kernel.setval set.semid 0)
            (if args.value > semvmx then .err else .semop))
  | .setval, .fail => some (task.goto kernel .err)
  | .semop, .ok =>
      match task.set kernel with
      | none => some (task.goto kernel .err)
      | some set =>
          -- a `sem_op` of 0 waits for the value to be 0
          if args.value = 0 ∧ set.semval ≠ 0 then none
          else if set.semval + args.value > semvmx then some (task.goto kernel .err)
          else some ⟨{ task with place := .finish }, kernel.semop set.semid args.value,
            .initialised set.semid⟩
  | .semop, .fail => some (task.goto kernel .err)
  | .ftokAgain, .key key => some (task.goto kernel (.semget key))
  | .ftokAgain, .fail => some (task.goto kernel .err)
  -- no set of 0 semaphores is created, so this one never creates
  | .semget key, .ok =>
      match kernel.byKey key with
      | none => some (task.goto kernel .err)
      | some set =>
          some ⟨{ task with place := .stat 0, semid := some set.semid }, kernel, .quiet⟩
  | .semget _, .fail => some (task.goto kernel .err)
  | .stat i, .ok =>
      match task.set kernel with
      | none => some (task.goto kernel .err)
      | some set => some (task.goto kernel (if set.otime then .finish else .sleep i))
  | .stat _, .fail => some (task.goto kernel .err)
  | .sleep i, .ok => some (task.goto kernel (if i + 1 < maxTries then .stat (i + 1) else .err))
  | .err, .ok =>
      match task.set kernel with
      | none => some (task.fails kernel)
      | some set =>
          some ⟨{ task with place := .returned }, kernel.remove set.semid, .removed set.semid⟩
  | .err, .fail => some (task.fails kernel)
  | .finish, .ok => some ⟨{ task with place := .returned }, kernel, .opened task.semid⟩
  | .finish, .fail => some (task.goto kernel .err)
  | _, _ => none

variable {Call : Type*} [DecidableEq Call]

structure State (Call Key : Type*) where
  task : Call → Task Key
  kernel : Kernel Key

structure Action (Call Key : Type*) where
  call : Call
  answer : Answer Key
  deriving DecidableEq

structure Event (Call : Type*) where
  call : Call
  outcome : Outcome
  deriving DecidableEq

abbrev Step (Call Key : Type*) := Transition (State Call Key) (Action Call Key) (Event Call)

def enter (args : Args) : Task Key :=
  ⟨if args.creat then .openFile else .ftokAgain, none, false⟩

def start (args : Call → Args) : State Call Key where
  task c := enter (args c)
  kernel := empty

def step (args : Call → Args) (s : State Call Key) (action : Action Call Key) :
    Option (State Call Key × Event Call) :=
  (mysemOpen (args action.call) (s.task action.call) s.kernel action.answer).map fun did =>
    (⟨Function.update s.task action.call did.task, did.kernel⟩, ⟨action.call, did.outcome⟩)

def machine (args : Call → Args) :
    Machine (State Call Key) (Action Call Key) (Event Call) where
  start s := s = start args
  step := step args

/-! Stretches of the function. -/

def Place.early : Place Key → Bool
  | .openFile | .ftok | .semgetExcl _ | .ftokAgain | .semget _ => true
  | _ => false

def Place.owning : Place Key → Bool
  | .setval | .semop => true
  | _ => false

/-- Waiting for `sem_otime` of a set that was there. -/
def Place.watching : Place Key → Bool
  | .stat _ | .sleep _ => true
  | _ => false

/-- A call leaves for `err` although nothing has gone wrong with the set: IPC_STAT
fails, the last look was in vain, or malloc fails. -/
def GivesUp (place : Place Key) (answer : Answer Key) : Prop :=
  (∃ i, place = .stat i ∧ answer = .fail) ∨
  (∃ i, place = .sleep i ∧ ¬ i + 1 < maxTries) ∨
  (place = .finish ∧ answer = .fail)

inductive Did (task : Task Key) (kernel : Kernel Key) (answer : Answer Key) : Result Key → Prop where
  | early (place : Place Key) (here : task.place.early = true) (there : place.early = true) :
      Did task kernel answer (task.goto kernel place)
  | watch (place : Place Key) (here : task.place.watching = true)
      (there : place.watching = true) : Did task kernel answer (task.goto kernel place)
  | ready (set : SemSet Key) (here : task.place.watching = true)
      (found : task.set kernel = some set) (timed : set.otime = true) :
      Did task kernel answer (task.goto kernel .finish)
  | error (here : task.place.early = true ∨ task.place.owning = true ∨
      task.set kernel = none ∨ GivesUp task.place answer) :
      Did task kernel answer (task.goto kernel .err)
  | fails : Did task kernel answer (task.fails kernel)
  | created (key : Key) (here : task.place.early = true) :
      Did task kernel answer
        ⟨⟨.setval, some kernel.next, true⟩, kernel.create key, .created kernel.next⟩
  | setval (set : SemSet Key) (place : Place Key) (here : task.place.owning = true)
      (there : place = .err ∨ place = .semop) :
      Did task kernel answer (task.goto (kernel.setval set.semid 0) place)
  | initialised (set : SemSet Key) (value : Nat) (here : task.place.owning = true)
      (found : task.set kernel = some set) :
      Did task kernel answer ⟨{ task with place := .finish }, kernel.semop set.semid value,
        .initialised set.semid⟩
  | attached (set : SemSet Key) (here : task.place.early = true) (has : kernel.Has set.semid) :
      Did task kernel answer
        ⟨{ task with place := .stat 0, semid := some set.semid }, kernel, .quiet⟩
  | removed (set : SemSet Key) (here : task.place = .err) (found : task.set kernel = some set) :
      Did task kernel answer
        ⟨{ task with place := .returned }, kernel.remove set.semid, .removed set.semid⟩
  | opened (here : task.place = .finish) :
      Did task kernel answer ⟨{ task with place := .returned }, kernel, .opened task.semid⟩

theorem mysem_open_failed (args : Args) (task : Task Key) (kernel : Kernel Key) (did : Result Key)
    (ran : mysemOpen args task kernel .fail = some did) : Did task kernel .fail did := by
  obtain ⟨place, semid, created⟩ := task
  cases place with
  | openFile | ftok | err =>
      cases ran
      exact .fails
  | semgetExcl _ | ftokAgain | semget _ =>
      cases ran
      exact .error (Or.inl rfl)
  | setval | semop =>
      cases ran
      exact .error (Or.inr (Or.inl rfl))
  | stat i =>
      cases ran
      exact .error (Or.inr (Or.inr (Or.inr (Or.inl ⟨i, rfl, rfl⟩))))
  | finish =>
      cases ran
      exact .error (Or.inr (Or.inr (Or.inr (Or.inr (Or.inr ⟨rfl, rfl⟩)))))
  | sleep _ | returned => cases ran

theorem mysem_open_key (args : Args) (task : Task Key) (kernel : Kernel Key) (key : Key)
    (did : Result Key) (ran : mysemOpen args task kernel (.key key) = some did) :
    Did task kernel (.key key) did := by
  obtain ⟨place, semid, created⟩ := task
  cases place with
  | ftok | ftokAgain =>
      cases ran
      exact .early _ rfl rfl
  | _ => cases ran

theorem mysem_open_ok (args : Args) (task : Task Key) (kernel : Kernel Key) (did : Result Key)
    (ran : mysemOpen args task kernel .ok = some did) : Did task kernel .ok did := by
  obtain ⟨place, semid, created⟩ := task
  cases place with
  | openFile =>
      cases ran
      exact .early _ rfl rfl
  | semgetExcl key =>
      simp only [mysemOpen] at ran
      split at ran
      · cases ran
        exact .created key rfl
      · cases ran
        split
        · exact .error (Or.inl rfl)
        · exact .early _ rfl rfl
  | setval =>
      simp only [mysemOpen] at ran
      split at ran
      · cases ran
        exact .error (Or.inr (Or.inl rfl))
      · cases ran
        apply Did.setval _ _ rfl
        split
        · exact Or.inl rfl
        · exact Or.inr rfl
  | semop =>
      simp only [mysemOpen] at ran
      split at ran
      · cases ran
        exact .error (Or.inr (Or.inl rfl))
      · rename_i set found
        split at ran
        · cases ran
        · split at ran
          · cases ran
            exact .error (Or.inr (Or.inl rfl))
          · cases ran
            exact .initialised set args.value rfl found
  | semget key =>
      simp only [mysemOpen] at ran
      split at ran
      · cases ran
        exact .error (Or.inl rfl)
      · rename_i set found
        cases ran
        exact .attached set rfl (by_key_has found)
  | stat i =>
      simp only [mysemOpen] at ran
      split at ran
      · rename_i absent
        cases ran
        exact .error (Or.inr (Or.inr (Or.inl absent)))
      · rename_i set found
        cases ran
        split
        · rename_i timed
          exact .ready set rfl found timed
        · exact .watch _ rfl rfl
  | sleep i =>
      cases ran
      split
      · exact .watch _ rfl rfl
      · rename_i last
        exact .error (Or.inr (Or.inr (Or.inr (Or.inr (Or.inl ⟨i, rfl, last⟩)))))
  | err =>
      simp only [mysemOpen] at ran
      split at ran
      · cases ran
        exact .fails
      · rename_i set found
        cases ran
        exact .removed set rfl found
  | finish =>
      cases ran
      exact .opened rfl
  | ftok | ftokAgain | returned => cases ran

theorem mysem_open_did (args : Args) (task : Task Key) (kernel : Kernel Key)
    (answer : Answer Key) (did : Result Key)
    (ran : mysemOpen args task kernel answer = some did) : Did task kernel answer did := by
  cases answer with
  | ok => exact mysem_open_ok args task kernel did ran
  | fail => exact mysem_open_failed args task kernel did ran
  | key key => exact mysem_open_key args task kernel key did ran

theorem step_did (args : Call → Args) (s after : State Call Key) (action : Action Call Key)
    (event : Event Call) (stepped : step args s action = some (after, event)) :
    ∃ did, Did (s.task action.call) s.kernel action.answer did ∧
      after = ⟨Function.update s.task action.call did.task, did.kernel⟩ ∧
      event = ⟨action.call, did.outcome⟩ := by
  simp only [step, Option.map_eq_some_iff, Prod.mk.injEq] at stepped
  obtain ⟨did, ran, rfl, rfl⟩ := stepped
  exact ⟨did, mysem_open_did _ _ _ _ did ran, rfl, rfl⟩

end NetworkProgramming.SvsemOpen
