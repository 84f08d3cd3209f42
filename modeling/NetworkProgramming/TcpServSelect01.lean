import Mathlib.Data.Finset.Card
import NetworkProgramming.Machine
import NetworkProgramming.SlotTable

/-!
The echo server of unpv13e/tcpcliserv/tcpservselect01.c. `client[]` is a table
of slots, `none` for -1; `FD_SETSIZE` is the system's. Select returns any part
of `allset` that is not empty, with its number, Accept any descriptor that is
not in use. Select, Accept and each read are steps of their own.
-/

namespace NetworkProgramming.TcpServSelect01

inductive Place where
  | select
  | test (rset : Finset Nat) (nready : Int)
  | scan (i : Nat) (rset : Finset Nat) (nready : Int)
  | tooManyClients
  | exited
  deriving DecidableEq

structure State where
  client : Nat → Option Nat
  maxi : Int
  maxfd : Nat
  allset : Finset Nat
  opened : Finset Nat
  place : Place

/-- What Read returns, and `none` when it or Writen fails. No byte is the end. -/
abbrev Received := Option (List UInt8)

inductive Action where
  | select (rset : Finset Nat)
  | accept (connfd : Nat)
  | read (received : Received)
  | loop
  deriving DecidableEq

inductive Event where
  | selected (rset : Finset Nat)
  | accepted (connfd : Nat)
  | echoed (sockfd : Nat) (buf : List UInt8)
  | closed (sockfd : Nat)
  | errSys (sockfd : Nat)
  | quiet
  deriving DecidableEq

abbrev Step := Transition State Action Event

def selectSet (s : State) (rset : Finset Nat) : Option (State × Event) :=
  if s.place = .select ∧ rset ⊆ s.allset ∧ (∀ fd ∈ rset, fd < s.maxfd + 1) ∧ rset.Nonempty then
    some ({ s with place := .test rset rset.card }, .selected rset)
  else none

def acceptClient (fdSetsize : Nat) (s : State) (connfd : Nat) (rset : Finset Nat) (nready : Int) :
    State :=
  match SlotTable.firstFree fdSetsize s.client with
  | none => { s with opened := insert connfd s.opened, place := .tooManyClients }
  | some i =>
      { client := Function.update s.client i (some connfd)
        maxi := if i > s.maxi then i else s.maxi
        maxfd := if connfd > s.maxfd then connfd else s.maxfd
        allset := insert connfd s.allset
        opened := insert connfd s.opened
        place := if nready - 1 ≤ 0 then .select else .scan 0 rset (nready - 1) }

/-- Where the loop goes on after reading `client[i]`. -/
def Place.after (i : Nat) (rset : Finset Nat) (nready : Int) : Place :=
  if nready - 1 ≤ 0 then .select else .scan (i + 1) rset (nready - 1)

def readClient (s : State) (i sockfd : Nat) (rset : Finset Nat) (nready : Int) :
    Received → State × Event
  | none => ({ s with place := .exited }, .errSys sockfd)
  | some [] =>
      ({ s with
          client := Function.update s.client i none
          allset := s.allset.erase sockfd
          opened := s.opened.erase sockfd
          place := .after i rset nready }, .closed sockfd)
  | some (b :: buf) => ({ s with place := .after i rset nready }, .echoed sockfd (b :: buf))

def step (fdSetsize listenfd : Nat) (s : State) : Action → Option (State × Event)
  | .select rset => selectSet s rset
  | .accept connfd => match s.place with
      | .test rset nready =>
          if listenfd ∈ rset ∧ connfd ∉ s.opened ∧ connfd < fdSetsize then
            some (acceptClient fdSetsize s connfd rset nready, .accepted connfd)
          else none
      | _ => none
  | .read received => match s.place with
      | .scan i rset nready =>
          if (i : Int) ≤ s.maxi then
            match s.client i with
            | some sockfd =>
                if sockfd ∈ rset then some (readClient s i sockfd rset nready received) else none
            | none => none
          else none
      | _ => none
  | .loop => match s.place with
      | .test rset nready =>
          if listenfd ∈ rset then none else some ({ s with place := .scan 0 rset nready }, .quiet)
      | .scan i rset nready =>
          if (i : Int) ≤ s.maxi then
            match s.client i with
            | some sockfd =>
                if sockfd ∈ rset then none
                else some ({ s with place := .scan (i + 1) rset nready }, .quiet)
            | none => some ({ s with place := .scan (i + 1) rset nready }, .quiet)
          else some ({ s with place := .select }, .quiet)
      | _ => none

/-- Before the loop; the process may have descriptors of its own open. -/
def machine (fdSetsize listenfd : Nat) : Machine State Action Event where
  start s := (∀ i, s.client i = none) ∧ s.maxi = -1 ∧ s.maxfd = listenfd ∧
    s.allset = {listenfd} ∧ listenfd ∈ s.opened ∧ s.place = .select
  step := step fdSetsize listenfd

/-! Everything a step can do. -/

inductive Does (fdSetsize listenfd : Nat) (s : State) : Event → State → Prop where
  | select {rset : Finset Nat} (here : s.place = .select) (part : rset ⊆ s.allset)
      (some_ready : rset.Nonempty) :
      Does fdSetsize listenfd s (.selected rset) { s with place := .test rset rset.card }
  | accept {rset : Finset Nat} {nready : Int} {connfd : Nat} (here : s.place = .test rset nready)
      (ready : listenfd ∈ rset) (unused : connfd ∉ s.opened) (inside : connfd < fdSetsize) :
      Does fdSetsize listenfd s (.accepted connfd) (acceptClient fdSetsize s connfd rset nready)
  | skip {rset : Finset Nat} {nready : Int} (here : s.place = .test rset nready)
      (idle : listenfd ∉ rset) :
      Does fdSetsize listenfd s .quiet { s with place := .scan 0 rset nready }
  | read {i sockfd : Nat} {rset : Finset Nat} {nready : Int} (received : Received)
      (here : s.place = .scan i rset nready) (filled : s.client i = some sockfd)
      (ready : sockfd ∈ rset) :
      Does fdSetsize listenfd s (readClient s i sockfd rset nready received).2
        (readClient s i sockfd rset nready received).1
  | pass {i : Nat} {rset : Finset Nat} {nready : Int} (here : s.place = .scan i rset nready)
      (unready : ∀ sockfd, s.client i = some sockfd → sockfd ∉ rset) :
      Does fdSetsize listenfd s .quiet { s with place := .scan (i + 1) rset nready }
  | finish {i : Nat} {rset : Finset Nat} {nready : Int} (here : s.place = .scan i rset nready)
      (last : s.maxi < i) :
      Does fdSetsize listenfd s .quiet { s with place := .select }

theorem step_does (fdSetsize listenfd : Nat) (e : Step)
    (stepped : (machine fdSetsize listenfd).Stepped e) :
    Does fdSetsize listenfd e.before e.output e.after := by
  obtain ⟨s, a, output, after⟩ := e
  simp only [Machine.Stepped, machine] at stepped
  cases a with
  | select rset =>
      simp only [step, selectSet, Option.ite_none_right_eq_some, Option.some.injEq,
        Prod.mk.injEq] at stepped
      obtain ⟨⟨here, part, _, some_ready⟩, rfl, rfl⟩ := stepped
      exact .select here part some_ready
  | accept connfd =>
      simp only [step] at stepped
      split at stepped
      · rename_i rset nready here
        simp only [Option.ite_none_right_eq_some, Option.some.injEq, Prod.mk.injEq] at stepped
        obtain ⟨⟨ready, unused, inside⟩, rfl, rfl⟩ := stepped
        exact .accept here ready unused inside
      · cases stepped
  | read received =>
      simp only [step] at stepped
      split at stepped
      · rename_i i rset nready here
        split at stepped
        · split at stepped
          · rename_i sockfd filled
            simp only [Option.ite_none_right_eq_some, Option.some.injEq] at stepped
            obtain ⟨ready, result⟩ := stepped
            have did : Does fdSetsize listenfd s _ _ := .read received here filled ready
            rwa [result] at did
          · cases stepped
        · cases stepped
      · cases stepped
  | loop =>
      simp only [step] at stepped
      split at stepped
      · rename_i rset nready here
        simp only [Option.ite_none_left_eq_some, Option.some.injEq, Prod.mk.injEq] at stepped
        obtain ⟨idle, rfl, rfl⟩ := stepped
        exact .skip here idle
      · rename_i i rset nready here
        split at stepped
        · split at stepped
          · rename_i sockfd filled
            simp only [Option.ite_none_left_eq_some, Option.some.injEq, Prod.mk.injEq] at stepped
            obtain ⟨idle, rfl, rfl⟩ := stepped
            refine .pass here ?_
            intro other same
            rw [filled, Option.some.injEq] at same
            rwa [← same]
          · rename_i empty
            simp only [Option.some.injEq, Prod.mk.injEq] at stepped
            obtain ⟨rfl, rfl⟩ := stepped
            exact .pass here (by simp [empty])
        · rename_i last
          simp only [Option.some.injEq, Prod.mk.injEq] at stepped
          obtain ⟨rfl, rfl⟩ := stepped
          exact .finish here (Int.not_le.mp last)
      · cases stepped

end NetworkProgramming.TcpServSelect01
