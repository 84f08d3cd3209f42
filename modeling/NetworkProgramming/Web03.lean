import Mathlib.Data.List.FinRange
import NetworkProgramming.Machine

/-!
The threaded web client of unpv13e/threads/web03.c: main with one worker for
every file, each at the next thing it does. Loads and stores of `f_flags`, the
calls on `ndone_mutex` and `ndone_cond` and the end of a thread are steps of
their own. A file gets a single worker, so the file stands for its `f_tid`, and
what the worker returns is the file it was given.
-/

namespace NetworkProgramming.Web03

inductive Flags where
  | zero
  | connecting
  | reading
  | done
  | joined
  deriving DecidableEq

/-- What the worker of a file does next; `absent` before main creates it. -/
inductive Worker where
  | absent
  | connect
  | read
  | lock
  | increment
  | signal
  | unlock
  | finish
  | terminated
  | joined
  deriving DecidableEq

/-- What main does next. `blocked` and `awakened` are inside the condition wait. -/
inductive Place (nfiles : Nat) where
  | outer
  | inner
  | lock
  | test
  | blocked
  | awakened
  | scan (i : Nat)
  | join (i : Fin nfiles)
  | exited
  | nothingFound
  deriving DecidableEq

inductive Holder (nfiles : Nat) where
  | free
  | main
  | worker (i : Fin nfiles)
  deriving DecidableEq

variable {nfiles : Nat}

structure State (nfiles : Nat) where
  flags : Fin nfiles → Flags
  worker : Fin nfiles → Worker
  nconn : Int
  nlefttoconn : Int
  nlefttoread : Int
  ndone : Int
  mutex : Holder nfiles
  place : Place nfiles

inductive Action (nfiles : Nat) where
  | main
  | spurious
  | worker (i : Fin nfiles) (more : Bool)
  deriving DecidableEq

inductive Event (nfiles : Nat) where
  | quiet
  | joined (i : Fin nfiles)
  deriving DecidableEq

abbrev Step (nfiles : Nat) := Transition (State nfiles) (Action nfiles) (Event nfiles)

def State.move (s : State nfiles) (i : Fin nfiles) (w : Worker) : State nfiles :=
  { s with worker := Function.update s.worker i w }

def State.store (s : State nfiles) (i : Fin nfiles) (flags : Flags) : State nfiles :=
  { s with flags := Function.update s.flags i flags }

def findFile (s : State nfiles) : Option (Fin nfiles) :=
  (List.finRange nfiles).find? fun i => s.flags i = .zero

def create (s : State nfiles) (i : Fin nfiles) : State nfiles :=
  { (s.store i .connecting).move i .connect with
    nconn := s.nconn + 1
    nlefttoconn := s.nlefttoconn - 1 }

def join (s : State nfiles) (i : Fin nfiles) : State nfiles :=
  { (s.store i .joined).move i .joined with
    ndone := s.ndone - 1
    nconn := s.nconn - 1
    nlefttoread := s.nlefttoread - 1
    place := .scan (i + 1) }

def mainStep (maxnconn : Int) (s : State nfiles) : Option (State nfiles × Event nfiles) :=
  match s.place with
  | .outer => some ({ s with place := if s.nlefttoread > 0 then .inner else .exited }, .quiet)
  | .inner =>
      if s.nconn < maxnconn ∧ s.nlefttoconn > 0 then
        match findFile s with
        | none => some ({ s with place := .nothingFound }, .quiet)
        | some i => some (create s i, .quiet)
      else some ({ s with place := .lock }, .quiet)
  | .lock | .awakened =>
      if s.mutex = .free then some ({ s with mutex := .main, place := .test }, .quiet) else none
  | .test =>
      if s.ndone = 0 then some ({ s with mutex := .free, place := .blocked }, .quiet)
      else some ({ s with place := .scan 0 }, .quiet)
  | .scan i =>
      if inside : i < nfiles then
        if s.flags ⟨i, inside⟩ = .done then some ({ s with place := .join ⟨i, inside⟩ }, .quiet)
        else some ({ s with place := .scan (i + 1) }, .quiet)
      else some ({ s with mutex := .free, place := .outer }, .quiet)
  | .join i => if s.worker i = .terminated then some (join s i, .joined i) else none
  | .blocked | .exited | .nothingFound => none

def Place.signalled : Place nfiles → Place nfiles
  | .blocked => .awakened
  | place => place

def workerStep (s : State nfiles) (i : Fin nfiles) (more : Bool) : Option (State nfiles) :=
  match s.worker i with
  | .connect => some ((s.store i .reading).move i .read)
  | .read => some (if more then s else (s.store i .done).move i .lock)
  | .lock =>
      if s.mutex = .free then some { s.move i .increment with mutex := .worker i } else none
  | .increment => some { s.move i .signal with ndone := s.ndone + 1 }
  | .signal => some { s.move i .unlock with place := s.place.signalled }
  | .unlock => some { s.move i .finish with mutex := .free }
  | .finish => some (s.move i .terminated)
  | .absent | .terminated | .joined => none

def step (maxnconn : Int) (s : State nfiles) :
    Action nfiles → Option (State nfiles × Event nfiles)
  | .main => mainStep maxnconn s
  | .spurious => if s.place = .blocked then some ({ s with place := .awakened }, .quiet) else none
  | .worker i more => (workerStep s i more).map fun after => (after, .quiet)

def start (nfiles : Nat) : State nfiles where
  flags _ := .zero
  worker _ := .absent
  nconn := 0
  nlefttoconn := nfiles
  nlefttoread := nfiles
  ndone := 0
  mutex := .free
  place := .outer

def machine (nfiles : Nat) (maxnconn : Int) :
    Machine (State nfiles) (Action nfiles) (Event nfiles) where
  start s := s = start nfiles
  step := step maxnconn

/-- What main does without touching anything but its own place. -/
inductive Turn (maxnconn : Int) (s : State nfiles) : Place nfiles → Prop where
  | enter (here : s.place = .outer) (left : s.nlefttoread > 0) : Turn maxnconn s .inner
  | exit (here : s.place = .outer) (nothing : ¬ s.nlefttoread > 0) : Turn maxnconn s .exited
  | nothingFound (left : s.nlefttoconn > 0) (absent : findFile s = none) :
      Turn maxnconn s .nothingFound
  | full (here : s.place = .inner) (full : ¬ (s.nconn < maxnconn ∧ s.nlefttoconn > 0)) :
      Turn maxnconn s .lock
  | ready (here : s.place = .test) (some_done : s.ndone ≠ 0) : Turn maxnconn s (.scan 0)
  | pass (i : Fin nfiles) (here : s.place = .scan i) (other : s.flags i ≠ .done) :
      Turn maxnconn s (.scan (i + 1))
  | found (i : Fin nfiles) (here : s.place = .scan i) (done : s.flags i = .done) :
      Turn maxnconn s (.join i)

inductive Effect (maxnconn : Int) (s : State nfiles) :
    Action nfiles → State nfiles → Event nfiles → Prop where
  | turn (place : Place nfiles) (turn : Turn maxnconn s place) :
      Effect maxnconn s .main { s with place := place } .quiet
  | create (i : Fin nfiles) (here : s.place = .inner) (found : findFile s = some i) :
      Effect maxnconn s .main (create s i) .quiet
  | acquire (here : s.place = .lock ∨ s.place = .awakened) (free : s.mutex = .free) :
      Effect maxnconn s .main { s with mutex := .main, place := .test } .quiet
  | wait (here : s.place = .test) (nobody : s.ndone = 0) :
      Effect maxnconn s .main { s with mutex := .free, place := .blocked } .quiet
  | release (i : Nat) (here : s.place = .scan i) :
      Effect maxnconn s .main { s with mutex := .free, place := .outer } .quiet
  | join (i : Fin nfiles) (here : s.place = .join i) (over_ : s.worker i = .terminated) :
      Effect maxnconn s .main (join s i) (.joined i)
  | spurious (here : s.place = .blocked) :
      Effect maxnconn s .spurious { s with place := .awakened } .quiet
  | data (i : Fin nfiles) (here : s.worker i = .read) : Effect maxnconn s (.worker i true) s .quiet
  | connect (i : Fin nfiles) (more : Bool) (here : s.worker i = .connect) :
      Effect maxnconn s (.worker i more) ((s.store i .reading).move i .read) .quiet
  | eof (i : Fin nfiles) (here : s.worker i = .read) :
      Effect maxnconn s (.worker i false) ((s.store i .done).move i .lock) .quiet
  | lock (i : Fin nfiles) (more : Bool) (here : s.worker i = .lock) (free : s.mutex = .free) :
      Effect maxnconn s (.worker i more) { s.move i .increment with mutex := .worker i } .quiet
  | increment (i : Fin nfiles) (more : Bool) (here : s.worker i = .increment) :
      Effect maxnconn s (.worker i more) { s.move i .signal with ndone := s.ndone + 1 } .quiet
  | signal (i : Fin nfiles) (more : Bool) (here : s.worker i = .signal) :
      Effect maxnconn s (.worker i more)
        { s.move i .unlock with place := s.place.signalled } .quiet
  | unlock (i : Fin nfiles) (more : Bool) (here : s.worker i = .unlock) :
      Effect maxnconn s (.worker i more) { s.move i .finish with mutex := .free } .quiet
  | finish (i : Fin nfiles) (more : Bool) (here : s.worker i = .finish) :
      Effect maxnconn s (.worker i more) (s.move i .terminated) .quiet

theorem main_effect (maxnconn : Int) (s after : State nfiles) (event : Event nfiles)
    (ran : mainStep maxnconn s = some (after, event)) : Effect maxnconn s .main after event := by
  cases here : s.place with
  | outer =>
      simp only [mainStep, here, Option.some.injEq, Prod.mk.injEq] at ran
      obtain ⟨rfl, rfl⟩ := ran
      split
      · rename_i left
        exact .turn _ (.enter here left)
      · rename_i nothing
        exact .turn _ (.exit here nothing)
  | inner =>
      simp only [mainStep, here] at ran
      split at ran
      · rename_i room
        cases found : findFile s with
        | none =>
            simp only [found, Option.some.injEq, Prod.mk.injEq] at ran
            obtain ⟨rfl, rfl⟩ := ran
            exact .turn _ (.nothingFound room.2 found)
        | some i =>
            simp only [found, Option.some.injEq, Prod.mk.injEq] at ran
            obtain ⟨rfl, rfl⟩ := ran
            exact .create i here found
      · rename_i full
        simp only [Option.some.injEq, Prod.mk.injEq] at ran
        obtain ⟨rfl, rfl⟩ := ran
        exact .turn _ (.full here full)
  | lock =>
      simp only [mainStep, here, Option.ite_none_right_eq_some, Option.some.injEq,
        Prod.mk.injEq] at ran
      obtain ⟨free, rfl, rfl⟩ := ran
      exact .acquire (Or.inl here) free
  | awakened =>
      simp only [mainStep, here, Option.ite_none_right_eq_some, Option.some.injEq,
        Prod.mk.injEq] at ran
      obtain ⟨free, rfl, rfl⟩ := ran
      exact .acquire (Or.inr here) free
  | test =>
      simp only [mainStep, here] at ran
      split at ran
      · rename_i nobody
        simp only [Option.some.injEq, Prod.mk.injEq] at ran
        obtain ⟨rfl, rfl⟩ := ran
        exact .wait here nobody
      · rename_i some_done
        simp only [Option.some.injEq, Prod.mk.injEq] at ran
        obtain ⟨rfl, rfl⟩ := ran
        exact .turn _ (.ready here some_done)
  | scan i =>
      simp only [mainStep, here] at ran
      split at ran
      · rename_i inside
        split at ran
        · rename_i done
          simp only [Option.some.injEq, Prod.mk.injEq] at ran
          obtain ⟨rfl, rfl⟩ := ran
          exact .turn _ (.found ⟨i, inside⟩ here done)
        · rename_i other
          simp only [Option.some.injEq, Prod.mk.injEq] at ran
          obtain ⟨rfl, rfl⟩ := ran
          exact .turn _ (.pass ⟨i, inside⟩ here other)
      · simp only [Option.some.injEq, Prod.mk.injEq] at ran
        obtain ⟨rfl, rfl⟩ := ran
        exact .release i here
  | join i =>
      simp only [mainStep, here, Option.ite_none_right_eq_some, Option.some.injEq,
        Prod.mk.injEq] at ran
      obtain ⟨over_, rfl, rfl⟩ := ran
      exact .join i here over_
  | blocked => simp [mainStep, here] at ran
  | exited => simp [mainStep, here] at ran
  | nothingFound => simp [mainStep, here] at ran

theorem worker_effect (maxnconn : Int) (s after : State nfiles) (i : Fin nfiles) (more : Bool)
    (ran : workerStep s i more = some after) :
    Effect maxnconn s (.worker i more) after .quiet := by
  cases here : s.worker i with
  | absent => simp [workerStep, here] at ran
  | connect =>
      simp only [workerStep, here, Option.some.injEq] at ran
      subst ran
      exact .connect i more here
  | read =>
      simp only [workerStep, here, Option.some.injEq] at ran
      subst ran
      cases more with
      | true => exact .data i here
      | false => exact .eof i here
  | lock =>
      simp only [workerStep, here, Option.ite_none_right_eq_some, Option.some.injEq] at ran
      obtain ⟨free, rfl⟩ := ran
      exact .lock i more here free
  | increment =>
      simp only [workerStep, here, Option.some.injEq] at ran
      subst ran
      exact .increment i more here
  | signal =>
      simp only [workerStep, here, Option.some.injEq] at ran
      subst ran
      exact .signal i more here
  | unlock =>
      simp only [workerStep, here, Option.some.injEq] at ran
      subst ran
      exact .unlock i more here
  | finish =>
      simp only [workerStep, here, Option.some.injEq] at ran
      subst ran
      exact .finish i more here
  | terminated => simp [workerStep, here] at ran
  | joined => simp [workerStep, here] at ran

theorem step_effect (maxnconn : Int) (s after : State nfiles) (action : Action nfiles)
    (event : Event nfiles) (stepped : step maxnconn s action = some (after, event)) :
    Effect maxnconn s action after event := by
  cases action with
  | main => exact main_effect maxnconn s after event stepped
  | spurious =>
      simp only [step, Option.ite_none_right_eq_some, Option.some.injEq, Prod.mk.injEq] at stepped
      obtain ⟨here, rfl, rfl⟩ := stepped
      exact .spurious here
  | worker i more =>
      simp only [step, Option.map_eq_some_iff, Prod.mk.injEq] at stepped
      obtain ⟨result, ran, rfl, rfl⟩ := stepped
      exact worker_effect maxnconn s result i more ran

end NetworkProgramming.Web03
