import Mathlib.Data.Finset.Basic
import Mathlib.Data.List.Basic
import NetworkProgramming.Machine

/-!
The echo server of unpv13e/tcpcliserv/tcpservpoll01.c. Poll writes `revents` of
the entries up to `maxi`; an entry beyond it still has there what the memory
held. `OPEN_MAX` is the system's. Poll, Accept and each read are steps of their
own, and Accept returns any descriptor that is not in use.
-/

namespace NetworkProgramming.TcpServPoll01

structure Revents where
  pollrdnorm : Bool
  pollerr : Bool
  pollhup : Bool
  pollnval : Bool
  deriving DecidableEq

def Revents.zero : Revents := ⟨false, false, false, false⟩

def Revents.readable (r : Revents) : Bool := r.pollrdnorm || r.pollerr

/-- `fd` is `none` for -1. -/
structure Pollfd where
  fd : Option Nat
  revents : Revents
  deriving DecidableEq

inductive Place where
  | poll
  | test (nready : Int)
  | scan (i : Nat) (nready : Int)
  | tooManyClients
  | exited
  deriving DecidableEq

/-- `opened` is what the process has open, for the kernel. -/
structure State where
  client : Nat → Pollfd
  maxi : Nat
  opened : Finset Nat
  place : Place

inductive Received where
  | bytes (buf : List UInt8)
  | econnreset
  | error
  deriving DecidableEq

inductive Action where
  | poll (revents : Nat → Revents)
  | accept (connfd : Nat)
  | read (received : Received)
  | loop

inductive Event where
  | polled (maxi : Nat) (reported : List Nat)
  | accepted (connfd : Nat)
  | read (sockfd : Nat) (received : Received)
  | quiet
  deriving DecidableEq

abbrev Step := Transition State Action Event

def polled (client : Nat → Pollfd) (maxi : Nat) (revents : Nat → Revents) : Nat → Pollfd :=
  fun i =>
    if i ≤ maxi then
      { client i with revents := if (client i).fd.isSome then revents i else Revents.zero }
    else client i

/-- How many of the entries from `i` to `maxi` have anything in `revents`; from 0
on it is what Poll returns. -/
def touched (client : Nat → Pollfd) (i maxi : Nat) : Nat :=
  (List.range' i (maxi + 1 - i)).countP fun k => decide ((client k).revents ≠ Revents.zero)

def reportedFd (p : Pollfd) : Option Nat := if p.revents.readable then p.fd else none

def reported (client : Nat → Pollfd) (i maxi : Nat) : List Nat :=
  (List.range' i (maxi + 1 - i)).filterMap fun k => reportedFd (client k)

def available (openMax : Nat) (client : Nat → Pollfd) : Option Nat :=
  (List.range' 1 (openMax - 1)).find? fun i => (client i).fd.isNone

/-- A new client connection; `revents` of its entry stays as it is. -/
def acceptClient (openMax : Nat) (s : State) (connfd : Nat) (nready : Int) : State :=
  match available openMax s.client with
  | none => { s with opened := insert connfd s.opened, place := .tooManyClients }
  | some i =>
      { client := Function.update s.client i { s.client i with fd := some connfd }
        maxi := if i > s.maxi then i else s.maxi
        opened := insert connfd s.opened
        place := if nready - 1 ≤ 0 then .poll else .scan 1 (nready - 1) }

def Place.after (i : Nat) (nready : Int) : Place :=
  if nready - 1 ≤ 0 then .poll else .scan (i + 1) (nready - 1)

def closeClient (s : State) (i sockfd : Nat) (nready : Int) : State :=
  { s with
    client := Function.update s.client i { s.client i with fd := none }
    opened := s.opened.erase sockfd
    place := .after i nready }

def readClient (s : State) (i sockfd : Nat) (nready : Int) : Received → State
  | .error => { s with place := .exited }
  | .econnreset => closeClient s i sockfd nready
  | .bytes [] => closeClient s i sockfd nready
  | .bytes (_ :: _) => { s with place := .after i nready }

def step (openMax : Nat) (s : State) : Action → Option (State × Event)
  | .poll revents =>
      if s.place = .poll ∧ 0 < touched (polled s.client s.maxi revents) 0 s.maxi then
        some ({ s with
          client := polled s.client s.maxi revents
          place := .test (touched (polled s.client s.maxi revents) 0 s.maxi) },
          .polled s.maxi (reported (polled s.client s.maxi revents) 1 s.maxi))
      else none
  | .accept connfd => match s.place with
      | .test nready =>
          if (s.client 0).revents.pollrdnorm ∧ connfd ∉ s.opened then
            some (acceptClient openMax s connfd nready, .accepted connfd)
          else none
      | _ => none
  | .read received => match s.place with
      | .scan i nready =>
          if i ≤ s.maxi then
            match (s.client i).fd with
            | some sockfd =>
                if (s.client i).revents.readable then
                  some (readClient s i sockfd nready received, .read sockfd received)
                else none
            | none => none
          else none
      | _ => none
  | .loop => match s.place with
      | .test nready =>
          if (s.client 0).revents.pollrdnorm then none
          else some ({ s with place := .scan 1 nready }, .quiet)
      | .scan i nready =>
          if i ≤ s.maxi then
            match (s.client i).fd with
            | some _ =>
                if (s.client i).revents.readable then none
                else some ({ s with place := .scan (i + 1) nready }, .quiet)
            | none => some ({ s with place := .scan (i + 1) nready }, .quiet)
          else some ({ s with place := .poll }, .quiet)
      | _ => none

def machine (openMax listenfd : Nat) : Machine State Action Event where
  start s := (s.client 0).fd = some listenfd ∧ (∀ i, 1 ≤ i → (s.client i).fd = none) ∧
    s.maxi = 0 ∧ listenfd ∈ s.opened ∧ s.place = .poll
  step := step openMax

/-! Everything a step can do. -/

inductive Does (openMax : Nat) (s : State) : Action → Event → State → Prop where
  | poll {revents : Nat → Revents} (here : s.place = .poll)
      (some_ready : 0 < touched (polled s.client s.maxi revents) 0 s.maxi) :
      Does openMax s (.poll revents)
        (.polled s.maxi (reported (polled s.client s.maxi revents) 1 s.maxi))
        { s with
          client := polled s.client s.maxi revents
          place := .test (touched (polled s.client s.maxi revents) 0 s.maxi) }
  | accept {nready : Int} {connfd : Nat} (here : s.place = .test nready)
      (ready : (s.client 0).revents.pollrdnorm = true) (unused : connfd ∉ s.opened) :
      Does openMax s (.accept connfd) (.accepted connfd) (acceptClient openMax s connfd nready)
  | skip {nready : Int} (here : s.place = .test nready) :
      Does openMax s .loop .quiet { s with place := .scan 1 nready }
  | read {i sockfd : Nat} {nready : Int} (received : Received) (here : s.place = .scan i nready)
      (inside : i ≤ s.maxi) (filled : (s.client i).fd = some sockfd)
      (ready : (s.client i).revents.readable = true) :
      Does openMax s (.read received) (.read sockfd received)
        (readClient s i sockfd nready received)
  | pass {i : Nat} {nready : Int} (here : s.place = .scan i nready) (inside : i ≤ s.maxi)
      (unready : reportedFd (s.client i) = none) :
      Does openMax s .loop .quiet { s with place := .scan (i + 1) nready }
  | finish {i : Nat} {nready : Int} (here : s.place = .scan i nready) (last : s.maxi < i) :
      Does openMax s .loop .quiet { s with place := .poll }

theorem step_does (openMax listenfd : Nat) (e : Step)
    (stepped : (machine openMax listenfd).Stepped e) :
    Does openMax e.before e.action e.output e.after := by
  obtain ⟨s, a, output, after⟩ := e
  simp only [Machine.Stepped, machine] at stepped
  cases a with
  | poll revents =>
      simp only [step, Option.ite_none_right_eq_some, Option.some.injEq, Prod.mk.injEq] at stepped
      obtain ⟨⟨here, some_ready⟩, rfl, rfl⟩ := stepped
      exact .poll here some_ready
  | accept connfd =>
      simp only [step] at stepped
      split at stepped
      · rename_i nready here
        simp only [Option.ite_none_right_eq_some, Option.some.injEq, Prod.mk.injEq] at stepped
        obtain ⟨⟨ready, unused⟩, rfl, rfl⟩ := stepped
        exact .accept here ready unused
      · cases stepped
  | read received =>
      simp only [step] at stepped
      split at stepped
      · rename_i i nready here
        split at stepped
        · rename_i inside
          split at stepped
          · rename_i sockfd filled
            simp only [Option.ite_none_right_eq_some, Option.some.injEq, Prod.mk.injEq] at stepped
            obtain ⟨ready, rfl, rfl⟩ := stepped
            exact .read received here inside filled ready
          · cases stepped
        · cases stepped
      · cases stepped
  | loop =>
      simp only [step] at stepped
      split at stepped
      · rename_i nready here
        simp only [Option.ite_none_left_eq_some, Option.some.injEq, Prod.mk.injEq] at stepped
        obtain ⟨_, rfl, rfl⟩ := stepped
        exact .skip here
      · rename_i i nready here
        split at stepped
        · rename_i inside
          split at stepped
          · rename_i sockfd filled
            simp only [Option.ite_none_left_eq_some, Option.some.injEq, Prod.mk.injEq] at stepped
            obtain ⟨idle, rfl, rfl⟩ := stepped
            exact .pass here inside (if_neg idle)
          · rename_i empty
            simp only [Option.some.injEq, Prod.mk.injEq] at stepped
            obtain ⟨rfl, rfl⟩ := stepped
            exact .pass here inside (by rw [reportedFd, empty, ite_self])
        · rename_i last
          simp only [Option.some.injEq, Prod.mk.injEq] at stepped
          obtain ⟨rfl, rfl⟩ := stepped
          exact .finish here (Nat.not_le.mp last)
      · cases stepped

end NetworkProgramming.TcpServPoll01
