import Mathlib.Data.Finset.Basic
import Mathlib.Data.List.FinRange
import NetworkProgramming.Machine

/-!
The nonblocking web client of unpv13e/nonblock: the main loop of web.c with
start_connect and write_get_cmd. The environment chooses descriptors that are
not open, what Select finds ready, and the results of connect, write and read.
Names and hosts of the files are only printed and are left out.
-/

namespace NetworkProgramming.Web

/-- Every assignment to `f_flags` replaces the word, so no two F_xxx are ever
set together; `zero` is no flag. -/
inductive Flags where
  | zero
  | connecting
  | reading
  | done
  deriving DecidableEq

structure File where
  fd : Nat
  flags : Flags
  deriving DecidableEq

inductive Place where
  | outer
  | inner
  | scan (i : Nat) (rs ws : Finset Nat)
  | exited
  | errSys
  | nothingFound
  deriving DecidableEq

variable {nfiles : Nat}

structure State (nfiles : Nat) where
  file : Fin nfiles → File
  nconn : Int
  nlefttoconn : Int
  nlefttoread : Int
  maxfd : Int
  rset : Finset Nat
  wset : Finset Nat
  opened : Finset Nat
  place : Place

inductive ConnectResult where
  | einprogress
  | established
  | error
  deriving DecidableEq

/-- The result of the Writen or the Read for one file. -/
inductive Io where
  | ok
  | eof
  | error
  deriving DecidableEq

inductive Action where
  | loop
  | startConnect (fd : Nat) (result : ConnectResult)
  | select (readable writable : Nat → Bool)
  | visit (io : Io)

inductive Event (nfiles : Nat) where
  | quiet
  | eof (i : Fin nfiles)
  deriving DecidableEq

abbrev Step (nfiles : Nat) := Transition (State nfiles) Action (Event nfiles)

def State.setFlags (s : State nfiles) (i : Fin nfiles) (flags : Flags) : State nfiles :=
  { s with file := Function.update s.file i { s.file i with flags := flags } }

def writeGetCmd (s : State nfiles) (i : Fin nfiles) : State nfiles :=
  { s.setFlags i .reading with
    rset := insert (s.file i).fd s.rset
    maxfd := max s.maxfd (s.file i).fd }

/-- A Socket, and the nonblocking connect on it. An error of connect, or of the
write that follows at once, ends the program. -/
def startConnect (s : State nfiles) (i : Fin nfiles) (fd : Nat) (result : ConnectResult) :
    State nfiles :=
  let s := { s with
    file := Function.update s.file i { s.file i with fd := fd }
    opened := insert fd s.opened }
  match result with
  | .einprogress => { s.setFlags i .connecting with
      rset := insert fd s.rset
      wset := insert fd s.wset
      maxfd := max s.maxfd fd }
  | .established => writeGetCmd s i
  | .error => { s with place := .errSys }

def findFile (s : State nfiles) : Option (Fin nfiles) :=
  (List.finRange nfiles).find? fun i => (s.file i).flags = .zero

def connectNext (s : State nfiles) (fd : Nat) (result : ConnectResult) : State nfiles :=
  match findFile s with
  | none => { s with place := .nothingFound }
  | some i => { startConnect s i fd result with
      nconn := s.nconn + 1
      nlefttoconn := s.nlefttoconn - 1 }

def select (s : State nfiles) (readable writable : Nat → Bool) : State nfiles :=
  { s with
    place := .scan 0 (s.rset.filter fun fd => (fd : Int) ≤ s.maxfd ∧ readable fd = true)
      (s.wset.filter fun fd => (fd : Int) ≤ s.maxfd ∧ writable fd = true) }

def readEof (s : State nfiles) (i : Fin nfiles) : State nfiles :=
  { s.setFlags i .done with
    opened := s.opened.erase (s.file i).fd
    rset := s.rset.erase (s.file i).fd
    nconn := s.nconn - 1
    nlefttoread := s.nlefttoread - 1 }

/-- The body of the loop over the files. A failed connection is reported and
then treated like an established one. -/
def visit (s : State nfiles) (i : Fin nfiles) (rs ws : Finset Nat) (io : Io) :
    Option (State nfiles × Event nfiles) :=
  let fd := (s.file i).fd
  let next : State nfiles := { s with place := .scan (i + 1) rs ws }
  match (s.file i).flags with
  | .zero | .done => some (next, .quiet)
  | .connecting =>
      if fd ∈ rs ∨ fd ∈ ws then
        match io with
        | .ok => some (writeGetCmd { next with wset := s.wset.erase fd } i, .quiet)
        | .eof => none
        | .error => some ({ s with place := .errSys }, .quiet)
      else some (next, .quiet)
  | .reading =>
      if fd ∈ rs then
        match io with
        | .ok => some (next, .quiet)
        | .eof => some (readEof next i, .eof i)
        | .error => some ({ s with place := .errSys }, .quiet)
      else some (next, .quiet)

def step (maxnconn : Int) (s : State nfiles) : Action → Option (State nfiles × Event nfiles)
  | .loop =>
      if s.place = .outer then
        some ({ s with place := if s.nlefttoread > 0 then .inner else .exited }, .quiet)
      else none
  | .startConnect fd result =>
      if s.place = .inner ∧ s.nconn < maxnconn ∧ s.nlefttoconn > 0 ∧ fd ∉ s.opened then
        some (connectNext s fd result, .quiet)
      else none
  | .select readable writable =>
      if s.place = .inner ∧ ¬ (s.nconn < maxnconn ∧ s.nlefttoconn > 0) then
        some (select s readable writable, .quiet)
      else none
  | .visit io =>
      match s.place with
      | .scan i rs ws =>
          if inside : i < nfiles then visit s ⟨i, inside⟩ rs ws io
          else some ({ s with place := .outer }, .quiet)
      | _ => none

def start (nfiles : Nat) (opened : Finset Nat) : State nfiles where
  file _ := ⟨0, .zero⟩
  nconn := 0
  nlefttoconn := nfiles
  nlefttoread := nfiles
  maxfd := -1
  rset := ∅
  wset := ∅
  opened := opened
  place := .outer

def machine (nfiles : Nat) (maxnconn : Int) : Machine (State nfiles) Action (Event nfiles) where
  start s := ∃ opened, s = start nfiles opened
  step := step maxnconn

inductive Effect (maxnconn : Int) (s : State nfiles) :
    Action → State nfiles → Event nfiles → Prop where
  | loop (place : Place) (here : s.place = .outer)
      (turn : place = if s.nlefttoread > 0 then .inner else .exited) :
      Effect maxnconn s .loop { s with place := place } .quiet
  | nothingFound (fd : Nat) (result : ConnectResult) (left : s.nlefttoconn > 0)
      (absent : findFile s = none) :
      Effect maxnconn s (.startConnect fd result) { s with place := .nothingFound } .quiet
  | startConnect (fd : Nat) (result : ConnectResult) (i : Fin nfiles) (room : s.nconn < maxnconn)
      (fresh : fd ∉ s.opened) (found : findFile s = some i) :
      Effect maxnconn s (.startConnect fd result)
        { startConnect s i fd result with
          nconn := s.nconn + 1
          nlefttoconn := s.nlefttoconn - 1 } .quiet
  | select (readable writable : Nat → Bool) :
      Effect maxnconn s (.select readable writable) (select s readable writable) .quiet
  | pass (io : Io) (place : Place) (other : place = .outer ∨ place = .errSys ∨
      ∃ i rs ws, place = .scan i rs ws) :
      Effect maxnconn s (.visit io) { s with place := place } .quiet
  | connected (i : Fin nfiles) (place : Place) (here : (s.file i).flags = .connecting)
      (other : ∃ next rs ws, place = .scan next rs ws) :
      Effect maxnconn s (.visit .ok)
        (writeGetCmd { s with place := place, wset := s.wset.erase (s.file i).fd } i) .quiet
  | readEof (i : Fin nfiles) (place : Place) (here : (s.file i).flags = .reading)
      (other : ∃ next rs ws, place = .scan next rs ws) :
      Effect maxnconn s (.visit .eof) (readEof { s with place := place } i) (.eof i)

theorem visit_effect (maxnconn : Int) (s after : State nfiles) (i : Fin nfiles)
    (rs ws : Finset Nat) (io : Io) (event : Event nfiles)
    (ran : visit s i rs ws io = some (after, event)) :
    Effect maxnconn s (.visit io) after event := by
  have next : ∃ i' rs' ws', Place.scan (i + 1) rs ws = .scan i' rs' ws' := ⟨_, _, _, rfl⟩
  cases here : (s.file i).flags with
  | zero =>
      simp only [visit, here, Option.some.injEq, Prod.mk.injEq] at ran
      obtain ⟨rfl, rfl⟩ := ran
      exact .pass io _ (Or.inr (Or.inr next))
  | done =>
      simp only [visit, here, Option.some.injEq, Prod.mk.injEq] at ran
      obtain ⟨rfl, rfl⟩ := ran
      exact .pass io _ (Or.inr (Or.inr next))
  | connecting =>
      simp only [visit, here] at ran
      split at ran
      · cases io with
        | ok =>
            simp only [Option.some.injEq, Prod.mk.injEq] at ran
            obtain ⟨rfl, rfl⟩ := ran
            exact .connected i _ here next
        | eof => cases ran
        | error =>
            simp only [Option.some.injEq, Prod.mk.injEq] at ran
            obtain ⟨rfl, rfl⟩ := ran
            exact .pass _ _ (Or.inr (Or.inl rfl))
      · simp only [Option.some.injEq, Prod.mk.injEq] at ran
        obtain ⟨rfl, rfl⟩ := ran
        exact .pass io _ (Or.inr (Or.inr next))
  | reading =>
      simp only [visit, here] at ran
      split at ran
      · cases io with
        | ok =>
            simp only [Option.some.injEq, Prod.mk.injEq] at ran
            obtain ⟨rfl, rfl⟩ := ran
            exact .pass _ _ (Or.inr (Or.inr next))
        | eof =>
            simp only [Option.some.injEq, Prod.mk.injEq] at ran
            obtain ⟨rfl, rfl⟩ := ran
            exact .readEof i _ here next
        | error =>
            simp only [Option.some.injEq, Prod.mk.injEq] at ran
            obtain ⟨rfl, rfl⟩ := ran
            exact .pass _ _ (Or.inr (Or.inl rfl))
      · simp only [Option.some.injEq, Prod.mk.injEq] at ran
        obtain ⟨rfl, rfl⟩ := ran
        exact .pass io _ (Or.inr (Or.inr next))

theorem step_effect (maxnconn : Int) (s after : State nfiles) (action : Action)
    (event : Event nfiles) (stepped : step maxnconn s action = some (after, event)) :
    Effect maxnconn s action after event := by
  cases action with
  | loop =>
      simp only [step, Option.ite_none_right_eq_some, Option.some.injEq, Prod.mk.injEq] at stepped
      obtain ⟨here, rfl, rfl⟩ := stepped
      exact .loop _ here rfl
  | startConnect fd result =>
      simp only [step, Option.ite_none_right_eq_some, Option.some.injEq, Prod.mk.injEq] at stepped
      obtain ⟨⟨_, room, left, fresh⟩, rfl, rfl⟩ := stepped
      cases found : findFile s with
      | none =>
          simp only [connectNext, found]
          exact .nothingFound fd result left found
      | some i =>
          simp only [connectNext, found]
          exact .startConnect fd result i room fresh found
  | select readable writable =>
      simp only [step, Option.ite_none_right_eq_some, Option.some.injEq, Prod.mk.injEq] at stepped
      obtain ⟨_, rfl, rfl⟩ := stepped
      exact .select readable writable
  | visit io =>
      cases here : s.place with
      | scan i rs ws =>
          simp only [step, here] at stepped
          split at stepped
          · exact visit_effect maxnconn s after _ rs ws io event stepped
          · simp only [Option.some.injEq, Prod.mk.injEq] at stepped
            obtain ⟨rfl, rfl⟩ := stepped
            exact .pass io _ (Or.inl rfl)
      | _ => simp [step, here] at stepped

end NetworkProgramming.Web
