import Mathlib.Data.Finset.Card
import Mathlib.Data.List.FinRange
import NetworkProgramming.CText
import NetworkProgramming.Machine

/-!
The preforked server of unpv13e/server that passes descriptors: the main loop
of serv05.c with the children of child05.c and their web_child. Connections are
numbered as they arrive. The listening socket and the pipes have descriptors of
their own, so a descriptor set says which of them are in it. Select returns any
part of what is readable, with its number. A child's stderr is its end of the
stream pipe, so the text of an err_sys or err_quit in web_child goes up to
main. Nothing is modelled after main has ended, nor a failure of another call
of main or child_main.
-/

namespace NetworkProgramming.Serv05

open CText

inductive ChildPlace where
  | readFd
  | readline (conn : Nat)
  | writen (conn : Nat) (ntowrite : Int)
  | write
  | exit (conn : Nat)
  | exited (conn : Nat)
  deriving DecidableEq

/-- What Readline and Writen of web_child meet at the connection: a line or the
end of the stream, everything written, an error with its text, or a SIGPIPE. -/
inductive Met where
  | line (line : List UInt8)
  | closed
  | readError (strerror : List UInt8)
  | written
  | writeError (strerror : List UInt8)
  | sigpipe
  deriving DecidableEq

/-- A child: the parent's `child_status`, the connections on the way down the
stream pipe, what the child does, and the bytes on the way up. -/
structure Child where
  childStatus : Nat
  down : List Nat
  place : ChildPlace
  up : Nat
  deriving DecidableEq

variable {nchildren : Nat}

structure FdSet (nchildren : Nat) where
  listenfd : Bool
  pipefd : Finset (Fin nchildren)
  deriving DecidableEq

def FdSet.size (rset : FdSet nchildren) : Nat := rset.pipefd.card + rset.listenfd.toNat

inductive Place (nchildren : Nat) where
  | select
  | test (rset : FdSet nchildren) (nsel : Int)
  | writeFd (i : Fin nchildren) (connfd : Nat) (rset : FdSet nchildren) (nsel : Int)
  | scan (i : Nat) (rset : FdSet nchildren) (nsel : Int)
  | noAvailable
  | terminated (i : Fin nchildren)
  | sigpipe
  deriving DecidableEq

structure State (nchildren : Nat) where
  child : Fin nchildren → Child
  navail : Int
  arrived : Nat
  accepted : Nat
  place : Place nchildren

inductive Action (nchildren : Nat) where
  | arrive
  | select (rset : FdSet nchildren)
  | main
  | child (i : Fin nchildren)
  | web (i : Fin nchildren) (met : Met)
  deriving DecidableEq

inductive Event (nchildren : Nat) where
  | quiet
  | passed (i : Fin nchildren) (conn : Nat)
  | wrote (i : Fin nchildren)
  | freed (i : Fin nchildren)
  deriving DecidableEq

abbrev Step (nchildren : Nat) := Transition (State nchildren) (Action nchildren) (Event nchildren)

def State.set (s : State nchildren) (i : Fin nchildren) (c : Child) : State nchildren :=
  { s with child := Function.update s.child i c }

def ChildPlace.Exited : ChildPlace → Prop
  | .exited _ => True
  | _ => False

instance (place : ChildPlace) : Decidable place.Exited := by
  cases place <;> unfold ChildPlace.Exited <;> infer_instance

/-- The descriptors in `rset` on entry of Select are those of the pipes, and
listenfd unless it is turned off. A pipe is also readable at its end of file. -/
def Readable (s : State nchildren) (rset : FdSet nchildren) : Prop :=
  (rset.listenfd = true → 0 < s.navail ∧ s.accepted < s.arrived) ∧
    (∀ i ∈ rset.pipefd, 0 < (s.child i).up ∨ (s.child i).place.Exited) ∧ 0 < rset.size

instance (s : State nchildren) (rset : FdSet nchildren) : Decidable (Readable s rset) :=
  inferInstanceAs (Decidable (_ ∧ _ ∧ _))

def available (s : State nchildren) : Option (Fin nchildren) :=
  (List.finRange nchildren).find? fun i => (s.child i).childStatus = 0

def acceptNext (s : State nchildren) (rset : FdSet nchildren) (nsel : Int) : State nchildren :=
  match available s with
  | none => { s with accepted := s.accepted + 1, place := .noAvailable }
  | some i => { s.set i { s.child i with childStatus := 1 } with
      navail := s.navail - 1
      accepted := s.accepted + 1
      place := .writeFd i s.accepted rset nsel }

def Place.after (i : Nat) (rset : FdSet nchildren) (nsel : Int) : Place nchildren :=
  if nsel - 1 = 0 then .select else .scan i rset (nsel - 1)

/-- Write_fd; there is nobody at the other end of an exited child's pipe. -/
def writeFd (s : State nchildren) (i : Fin nchildren) (connfd : Nat) (place : Place nchildren) :
    State nchildren × Event nchildren :=
  if (s.child i).place.Exited then ({ s with place := .sigpipe }, .quiet)
  else
    ({ s.set i { s.child i with down := (s.child i).down ++ [connfd] } with place := place },
      .passed i connfd)

def free (s : State nchildren) (i : Fin nchildren) (place : Place nchildren) : State nchildren :=
  { s.set i { s.child i with childStatus := 0, up := (s.child i).up - 1 } with
    navail := s.navail + 1
    place := place }

def mainStep (s : State nchildren) : Option (State nchildren × Event nchildren) :=
  match s.place with
  | .test rset nsel =>
      if rset.listenfd then
        if s.accepted < s.arrived then some (acceptNext s rset nsel, .quiet) else none
      else some ({ s with place := .scan 0 rset nsel }, .quiet)
  | .writeFd i connfd rset nsel => some (writeFd s i connfd (.after 0 rset nsel))
  | .scan i rset nsel =>
      if inside : i < nchildren then
        if ⟨i, inside⟩ ∈ rset.pipefd then
          if 0 < (s.child ⟨i, inside⟩).up then
            some (free s ⟨i, inside⟩ (.after (i + 1) rset nsel), .freed ⟨i, inside⟩)
          else if (s.child ⟨i, inside⟩).place.Exited then
            some ({ s with place := .terminated ⟨i, inside⟩ }, .quiet)
          else none
        else some ({ s with place := .scan (i + 1) rset nsel }, .quiet)
      else some ({ s with place := .select }, .quiet)
  | .select | .noAvailable | .terminated _ | .sigpipe => none

def childStep (s : State nchildren) (i : Fin nchildren) :
    Option (State nchildren × Event nchildren) :=
  match (s.child i).place with
  | .readFd => match (s.child i).down with
      | [] => none
      | conn :: rest =>
          some (s.set i { s.child i with down := rest, place := .readline conn }, .quiet)
  | .write => some (s.set i { s.child i with place := .readFd, up := (s.child i).up + 1 }, .wrote i)
  | .exit conn => some (s.set i { s.child i with place := .exited conn }, .quiet)
  | .readline _ | .writen _ _ | .exited _ => none

def MAXLINE : Nat := 4096
def MAXN : Int := 16384

/-- `ntowrite = atol(line)`: glibc stops at the ends of a long, and an int has
the low bits of that. -/
def ntowrite (line : List UInt8) : Int :=
  (Int32.ofInt (max (-2 ^ 63) (min (2 ^ 63 - 1) (atol line)))).toInt

/-- err_doit, with the strerror text where errnoflag is set. -/
def errDoit (text : List UInt8) (strerror : Option (List UInt8)) : List UInt8 :=
  match strerror with
  | none => text ++ [newline]
  | some error => text ++ snprintf (MAXLINE - text.length) (bytes ": " ++ error) ++ [newline]

def clientRequest (ntowrite : Int) : List UInt8 :=
  bytes "client request for " ++ (if ntowrite < 0 then bytes "-" else []) ++
    decimal ntowrite.natAbs ++ bytes " bytes"

def Child.fail (c : Child) (conn : Nat) (message : List UInt8) : Child :=
  { c with place := .exit conn, up := c.up + message.length }

/-- One call of Readline or Writen in the loop of web_child, and what follows it
there. -/
def webChild (c : Child) (met : Met) : Option Child :=
  match c.place, met with
  | .readline _, .closed => some { c with place := .write }
  | .readline conn, .readError strerror =>
      some (c.fail conn (errDoit (bytes "readline error") (some strerror)))
  | .readline conn, .line line =>
      if ntowrite line ≤ 0 ∨ ntowrite line > MAXN then
        some (c.fail conn (errDoit (clientRequest (ntowrite line)) none))
      else some { c with place := .writen conn (ntowrite line) }
  | .writen conn _, .written => some { c with place := .readline conn }
  | .writen conn _, .writeError strerror =>
      some (c.fail conn (errDoit (bytes "writen error") (some strerror)))
  | .writen conn _, .sigpipe => some { c with place := .exited conn }
  | _, _ => none

def Place.Ended : Place nchildren → Prop
  | .noAvailable | .terminated _ | .sigpipe => True
  | _ => False

instance (place : Place nchildren) : Decidable place.Ended := by
  cases place <;> unfold Place.Ended <;> infer_instance

def step (s : State nchildren) (action : Action nchildren) :
    Option (State nchildren × Event nchildren) :=
  if s.place.Ended then none
  else match action with
    | .arrive => some ({ s with arrived := s.arrived + 1 }, .quiet)
    | .select rset =>
        if s.place = .select ∧ Readable s rset then
          some ({ s with place := .test rset rset.size }, .quiet)
        else none
    | .main => mainStep s
    | .child i => childStep s i
    | .web i met => (webChild (s.child i) met).map fun c => (s.set i c, .quiet)

def start (nchildren : Nat) : State nchildren where
  child _ := ⟨0, [], .readFd, 0⟩
  navail := nchildren
  arrived := 0
  accepted := 0
  place := .select

def machine (nchildren : Nat) :
    Machine (State nchildren) (Action nchildren) (Event nchildren) where
  start s := s = start nchildren
  step := step

def Place.Idle (place : Place nchildren) : Prop :=
  place = .select ∨ ∃ i rset nsel, place = .scan i rset nsel

theorem after_idle (i : Nat) (rset : FdSet nchildren) (nsel : Int) :
    (Place.after i rset nsel).Idle := by
  rw [Place.after]
  split
  · exact Or.inl rfl
  · exact Or.inr ⟨_, _, _, rfl⟩

inductive Effect (s : State nchildren) :
    Action nchildren → State nchildren → Event nchildren → Prop where
  | arrive : Effect s .arrive { s with arrived := s.arrived + 1 } .quiet
  | select (rset : FdSet nchildren) (here : s.place = .select) (readable : Readable s rset) :
      Effect s (.select rset) { s with place := .test rset rset.size } .quiet
  | pass (place : Place nchildren) (idle : place.Idle)
      (free : ∀ i connfd rset nsel, s.place ≠ .writeFd i connfd rset nsel) :
      Effect s .main { s with place := place } .quiet
  | noAvailable (rset : FdSet nchildren) (nsel : Int) (here : s.place = .test rset nsel)
      (listening : rset.listenfd = true) (absent : available s = none) :
      Effect s .main { s with accepted := s.accepted + 1, place := .noAvailable } .quiet
  | accept (i : Fin nchildren) (rset : FdSet nchildren) (nsel : Int)
      (here : s.place = .test rset nsel) (found : available s = some i) :
      Effect s .main
        { s.set i { s.child i with childStatus := 1 } with
          navail := s.navail - 1
          accepted := s.accepted + 1
          place := .writeFd i s.accepted rset nsel } .quiet
  | writeFd (i : Fin nchildren) (connfd : Nat) (rset : FdSet nchildren) (nsel : Int)
      (place : Place nchildren) (here : s.place = .writeFd i connfd rset nsel)
      (idle : place.Idle) :
      Effect s .main
        { s.set i { s.child i with down := (s.child i).down ++ [connfd] } with place := place }
        (.passed i connfd)
  | sigpipe (i : Fin nchildren) (connfd : Nat) (rset : FdSet nchildren) (nsel : Int)
      (here : s.place = .writeFd i connfd rset nsel) (gone : (s.child i).place.Exited) :
      Effect s .main { s with place := .sigpipe } .quiet
  | free (i : Fin nchildren) (rset : FdSet nchildren) (nsel : Int) (place : Place nchildren)
      (here : s.place = .scan i rset nsel) (idle : place.Idle) (byte : 0 < (s.child i).up) :
      Effect s .main (free s i place) (.freed i)
  | terminated (i : Fin nchildren) (rset : FdSet nchildren) (nsel : Int)
      (here : s.place = .scan i rset nsel) (gone : (s.child i).place.Exited) :
      Effect s .main { s with place := .terminated i } .quiet
  | readFd (i : Fin nchildren) (conn : Nat) (rest : List Nat)
      (here : (s.child i).place = .readFd) (sent : (s.child i).down = conn :: rest) :
      Effect s (.child i)
        (s.set i { s.child i with down := rest, place := .readline conn }) .quiet
  | write (i : Fin nchildren) (here : (s.child i).place = .write) :
      Effect s (.child i)
        (s.set i { s.child i with place := .readFd, up := (s.child i).up + 1 }) (.wrote i)
  | exit (i : Fin nchildren) (conn : Nat) (here : (s.child i).place = .exit conn) :
      Effect s (.child i) (s.set i { s.child i with place := .exited conn }) .quiet
  | web (i : Fin nchildren) (met : Met) (c : Child) (went : webChild (s.child i) met = some c) :
      Effect s (.web i met) (s.set i c) .quiet

theorem scan_effect (s after : State nchildren) (event : Event nchildren) (i : Nat)
    (rset : FdSet nchildren) (nsel : Int) (here : s.place = .scan i rset nsel)
    (ran : mainStep s = some (after, event)) : Effect s .main after event := by
  have free : ∀ j connfd rset nsel, s.place ≠ .writeFd j connfd rset nsel := by simp [here]
  simp only [mainStep, here] at ran
  split at ran
  · rename_i inside
    split at ran
    · split at ran
      · rename_i byte
        cases ran
        exact .free ⟨i, inside⟩ rset nsel _ here (after_idle (i + 1) rset nsel) byte
      · simp only [Option.ite_none_right_eq_some, Option.some.injEq, Prod.mk.injEq] at ran
        obtain ⟨gone, rfl, rfl⟩ := ran
        exact .terminated ⟨i, inside⟩ rset nsel here gone
    · cases ran
      exact .pass _ (Or.inr ⟨_, _, _, rfl⟩) free
  · cases ran
    exact .pass _ (Or.inl rfl) free

theorem main_effect (s after : State nchildren) (event : Event nchildren)
    (ran : mainStep s = some (after, event)) : Effect s .main after event := by
  cases here : s.place with
  | select | noAvailable | terminated _ | sigpipe => simp [mainStep, here] at ran
  | test rset nsel =>
      simp only [mainStep, here] at ran
      split at ran
      · rename_i listening
        simp only [Option.ite_none_right_eq_some, Option.some.injEq, Prod.mk.injEq] at ran
        obtain ⟨_, rfl, rfl⟩ := ran
        cases found : available s with
        | none =>
            simp only [acceptNext, found]
            exact .noAvailable rset nsel here listening found
        | some i =>
            simp only [acceptNext, found]
            exact .accept i rset nsel here found
      · simp only [Option.some.injEq, Prod.mk.injEq] at ran
        obtain ⟨rfl, rfl⟩ := ran
        exact .pass _ (Or.inr ⟨_, _, _, rfl⟩) (by simp [here])
  | writeFd i connfd rset nsel =>
      simp only [mainStep, here, writeFd, Option.some.injEq] at ran
      split at ran
      · rename_i gone
        cases ran
        exact .sigpipe i connfd rset nsel here gone
      · cases ran
        exact .writeFd i connfd rset nsel _ here (after_idle 0 rset nsel)
  | scan i rset nsel => exact scan_effect s after event i rset nsel here ran

theorem child_effect (s after : State nchildren) (i : Fin nchildren) (event : Event nchildren)
    (ran : childStep s i = some (after, event)) : Effect s (.child i) after event := by
  cases here : (s.child i).place with
  | readFd =>
      cases sent : (s.child i).down with
      | nil => simp [childStep, here, sent] at ran
      | cons conn rest =>
          have effect := Effect.readFd (s := s) i conn rest here sent
          simp only [childStep, here, sent, Option.some.injEq, Prod.mk.injEq] at ran
          obtain ⟨rfl, rfl⟩ := ran
          exact effect
  | write =>
      have effect := Effect.write (s := s) i here
      simp only [childStep, here, Option.some.injEq, Prod.mk.injEq] at ran
      obtain ⟨rfl, rfl⟩ := ran
      exact effect
  | exit conn =>
      have effect := Effect.exit (s := s) i conn here
      simp only [childStep, here, Option.some.injEq, Prod.mk.injEq] at ran
      obtain ⟨rfl, rfl⟩ := ran
      exact effect
  | readline _ | writen _ _ | exited _ => simp [childStep, here] at ran

theorem step_effect (s after : State nchildren) (action : Action nchildren)
    (event : Event nchildren) (stepped : step s action = some (after, event)) :
    Effect s action after event := by
  simp only [step, Option.ite_none_left_eq_some] at stepped
  obtain ⟨_, stepped⟩ := stepped
  cases action with
  | arrive =>
      simp only [Option.some.injEq, Prod.mk.injEq] at stepped
      obtain ⟨rfl, rfl⟩ := stepped
      exact .arrive
  | select rset =>
      simp only [Option.ite_none_right_eq_some, Option.some.injEq, Prod.mk.injEq] at stepped
      obtain ⟨⟨here, readable⟩, rfl, rfl⟩ := stepped
      exact .select rset here readable
  | main => exact main_effect s after event stepped
  | child i => exact child_effect s after i event stepped
  | web i met =>
      obtain ⟨c, went, same⟩ := Option.map_eq_some_iff.mp stepped
      cases same
      exact .web i met c went

end NetworkProgramming.Serv05
