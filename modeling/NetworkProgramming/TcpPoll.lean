import Mathlib.Data.Finset.Card
import Mathlib.Data.List.Nodup
import NetworkProgramming.Machine

/-!
chapter8/tcp_poll.c. Of the array `fds_bak` the first `nfds_bak` entries are
kept: those behind them are never read. A pass over `fds` is taken entry by
entry.
-/

namespace NetworkProgramming.TcpPoll

def MAX_FDS : Nat := 1024

/-- `fd` is `none` for -1; of `events` and `revents` the bit POLLIN is kept. -/
structure Pollfd where
  fd : Option Nat
  events : Bool
  revents : Bool
  deriving DecidableEq

def watching (fd : Nat) : Pollfd := ⟨some fd, true, false⟩

inductive Place where
  | poll
  | scan (i : Nat) (fds : List Pollfd)
  | exited
  deriving DecidableEq

structure State where
  fds_bak : List Pollfd
  connections : Finset Nat
  opened : Finset Nat
  place : Place

/-- What recv returns: a length above 0, -1 with EAGAIN, or 0 or another error. -/
inductive Received where
  | bytes (length : Nat)
  | again
  | ended
  deriving DecidableEq

inductive Action where
  /-- The entries that have POLLIN when poll returns. -/
  | poll (ready : Finset Nat)
  | timeout
  | pollFails
  | accept (new_sockfd : Option Nat)
  | recv (received : Received)
  | loop
  deriving DecidableEq

/-- A store into one entry of `fds_bak` is at `index`. -/
inductive Event where
  | accepted (index : Nat)
  | closed (fd index : Nat)
  | quiet
  deriving DecidableEq

def Event.stores : Event → Option Nat
  | .accepted index => some index
  | .closed _ index => some index
  | .quiet => none

abbrev Step := Transition State Action Event

def polled (fds : List Pollfd) (ready : Finset Nat) : List Pollfd :=
  fds.mapIdx fun k p => { p with revents := decide (k ∈ ready) }

def Reports (s : State) (ready : Finset Nat) : Prop :=
  ready.Nonempty ∧ ∀ k ∈ ready, ∃ fd ∈ s.opened, s.fds_bak[k]?.bind Pollfd.fd = some fd

instance (s : State) (ready : Finset Nat) : Decidable (Reports s ready) :=
  inferInstanceAs (Decidable (ready.Nonempty ∧
    ∀ k ∈ ready, ∃ fd ∈ s.opened, s.fds_bak[k]?.bind Pollfd.fd = some fd))

def compact (fds : List Pollfd) : List Pollfd :=
  fds.filter fun p => match p.fd with
    | some fd => decide (fd > 0)
    | none => false

def closeConnection (s : State) (i fd : Nat) : State :=
  { s with
    fds_bak := compact (s.fds_bak.set i ⟨none, false, false⟩)
    connections := s.connections.erase fd
    opened := s.opened.erase fd }

/-- Clients come while there are fewer than MAX_FDS - 1 connections. -/
def MayAccept (s : State) (new_sockfd : Option Nat) : Prop :=
  ∀ fd ∈ new_sockfd, fd ∉ s.opened ∧ s.connections.card + 1 ≤ MAX_FDS - 1

instance (s : State) (new_sockfd : Option Nat) : Decidable (MayAccept s new_sockfd) :=
  inferInstanceAs (Decidable (∀ fd ∈ new_sockfd,
    fd ∉ s.opened ∧ s.connections.card + 1 ≤ MAX_FDS - 1))

def acceptConnection (s : State) : Option Nat → State × Event
  | some fd => ({ s with
      fds_bak := s.fds_bak ++ [watching fd]
      connections := insert fd s.connections
      opened := insert fd s.opened }, .accepted s.fds_bak.length)
  | none => (s, .quiet)

def connection (s : State) (i fd : Nat) : Received → State × Event
  | .ended => (closeConnection s i fd, .closed fd i)
  | .again => (s, .quiet)
  | .bytes _ => (s, .quiet)

def readyFd (fds : List Pollfd) (i : Nat) : Option Nat :=
  match fds[i]? with
  | some p => if p.revents then p.fd else none
  | none => none

def scanStep (sockfd : Nat) (s : State) (i : Nat) (fds : List Pollfd) :
    Action → Option (State × Event)
  | .accept new_sockfd =>
      if readyFd fds i = some sockfd ∧ MayAccept s new_sockfd then
        let r := acceptConnection s new_sockfd
        some ({ r.1 with place := .scan (i + 1) fds }, r.2)
      else none
  | .recv received =>
      match readyFd fds i with
      | some fd =>
          if fd ≠ sockfd then
            let r := connection s i fd received
            some ({ r.1 with place := .scan (i + 1) fds }, r.2)
          else none
      | none => none
  | .loop =>
      if i < fds.length then
        if readyFd fds i = none then some ({ s with place := .scan (i + 1) fds }, .quiet) else none
      else some ({ s with place := .poll }, .quiet)
  | _ => none

def pollStep (s : State) : Action → Option (State × Event)
  | .poll ready =>
      if Reports s ready then some ({ s with place := .scan 0 (polled s.fds_bak ready) }, .quiet)
      else none
  | .timeout => some (s, .quiet)
  | .pollFails => some ({ s with place := .exited }, .quiet)
  | _ => none

def step (sockfd : Nat) (s : State) (a : Action) : Option (State × Event) :=
  match s.place with
  | .poll => pollStep s a
  | .scan i fds => scanStep sockfd s i fds a
  | .exited => none

/-- Before the loop. socket has returned the lowest descriptor that was not in use. -/
def machine (sockfd : Nat) : Machine State Action Event where
  start s := s.fds_bak = [watching sockfd] ∧ s.connections = ∅ ∧
    (∀ fd ≤ sockfd, fd ∈ s.opened) ∧ s.place = .poll
  step := step sockfd

def Table (sockfd : Nat) (s : State) : Prop :=
  ∃ rest : List Nat, s.fds_bak = (sockfd :: rest).map watching ∧ rest.Nodup ∧
    rest.toFinset = s.connections

def Inside (trace : List Step) : Prop :=
  ∀ e ∈ trace, ∀ index ∈ e.output.stores, index < MAX_FDS

/-- The entry that a step clears is that of the descriptor it closes, and the listening socket, which
    the loop that copies would drop otherwise, is not descriptor 0. -/
def Matching (sockfd : Nat) (e : Step) : Prop :=
  ∀ fd index, e.output = .closed fd index →
    e.before.fds_bak[index]? = some (watching fd) ∧ sockfd ≠ 0

/-! Compacting a table of descriptors. -/

theorem compact_watching (fds : List Nat) (positive : 0 ∉ fds) :
    compact (fds.map watching) = fds.map watching := by
  refine List.filter_eq_self.mpr ?_
  intro p member
  obtain ⟨fd, here, rfl⟩ := List.mem_map.mp member
  have some_ : fd ≠ 0 := fun zero => positive (zero ▸ here)
  exact decide_eq_true (Nat.pos_of_ne_zero some_)

theorem compact_cleared (fds : List Nat) (i : Nat) (positive : 0 ∉ fds) :
    compact ((fds.map watching).set i ⟨none, false, false⟩) = (fds.eraseIdx i).map watching := by
  induction fds generalizing i with
  | nil => rfl
  | cons fd rest ih =>
      obtain ⟨other, positive⟩ := not_or.mp (mt List.mem_cons.mpr positive)
      cases i with
      | zero => exact compact_watching rest positive
      | succ i =>
          have kept (others : List Pollfd) :
              compact (watching fd :: others) = watching fd :: compact others :=
            List.filter_cons_of_pos (decide_eq_true (Nat.pos_of_ne_zero (Ne.symm other)))
          rw [List.map_cons, List.set_cons_succ, kept, ih i positive, List.eraseIdx_cons_succ,
            List.map_cons]

theorem compact_zero (fds : List Pollfd) : ∀ p ∈ compact fds, p.fd ≠ some 0 := by
  intro p member zero
  have kept := (List.mem_filter.mp member).2
  rw [zero] at kept
  cases kept

theorem mem_compact {fds : List Pollfd} {fd : Nat} (member : watching fd ∈ fds) (positive : fd ≠ 0) :
    watching fd ∈ compact fds :=
  List.mem_filter.mpr ⟨member, decide_eq_true (Nat.pos_of_ne_zero positive)⟩

theorem ready_fd_some {fds : List Pollfd} {i fd : Nat} (ready : readyFd fds i = some fd) :
    ∃ p, fds[i]? = some p ∧ p.fd = some fd := by
  unfold readyFd at ready
  split at ready
  · rename_i p found
    exact ⟨p, found, (Option.ite_none_right_eq_some.mp ready).2⟩
  · cases ready

/-! What holds between the steps. -/

/-- The entries of a pass that are still to come are those of open sockets. -/
def Along (sockfd : Nat) (s : State) : Prop :=
  match s.place with
  | .scan i fds => ∃ order : List Nat, fds.map Pollfd.fd = order.map some ∧ order.Nodup ∧
      order.length ≤ MAX_FDS ∧ ∀ fd ∈ order.drop i, fd = sockfd ∨ fd ∈ s.connections
  | _ => True

structure Inv (sockfd : Nat) (s : State) : Prop where
  table : Table sockfd s
  along : Along sockfd s
  few : s.connections.card ≤ MAX_FDS - 1
  listens : sockfd ∈ s.opened ∧ sockfd ∉ s.connections
  connected : s.connections ⊆ s.opened
  /-- Descriptor 0 is in use from the beginning. -/
  zero : 0 ∈ s.opened ∧ 0 ∉ s.connections

theorem along_here {sockfd : Nat} {s : State} {place : Place} (along : Along sockfd s)
    (here : s.place = place) : Along sockfd { s with place := place } := by
  subst here
  exact along

theorem along_next {sockfd i : Nat} {s : State} {fds : List Pollfd}
    (along : Along sockfd { s with place := .scan i fds }) :
    Along sockfd { s with place := .scan (i + 1) fds } := by
  obtain ⟨order, same, nodup, short, remain⟩ := along
  refine ⟨order, same, nodup, short, fun fd member => remain fd ?_⟩
  rw [← List.drop_drop] at member
  exact List.mem_of_mem_drop member

theorem table_entry {sockfd fd i : Nat} {s : State} (table : Table sockfd s)
    (entry : s.fds_bak[i]? = some (watching fd)) (other : fd ≠ sockfd) :
    ∃ j rest, i = j + 1 ∧ s.fds_bak = (sockfd :: rest).map watching ∧ rest.Nodup ∧
      rest.toFinset = s.connections ∧ rest[j]? = some fd := by
  obtain ⟨rest, same, nodup, connections⟩ := table
  rw [same, List.getElem?_map, Option.map_eq_some_iff] at entry
  obtain ⟨found, at_, equal⟩ := entry
  have equal : found = fd := by
    simpa [watching] using equal
  subst equal
  cases i with
  | zero =>
      simp only [List.getElem?_cons_zero, Option.some.injEq] at at_
      exact absurd at_.symm other
  | succ j => exact ⟨j, rest, rfl, same, nodup, connections, by simpa using at_⟩

theorem close_table {sockfd fd i : Nat} {s : State} (inv : Inv sockfd s) (other : fd ≠ sockfd)
    (entry : s.fds_bak[i]? = some (watching fd)) (positive : sockfd ≠ 0) :
    Table sockfd (closeConnection s i fd) := by
  obtain ⟨j, rest, rfl, same, nodup, connections, at_⟩ := table_entry inv.table entry other
  obtain ⟨inside, rfl⟩ := List.getElem?_eq_some_iff.mp at_
  have zero : 0 ∉ sockfd :: rest := by
    intro member
    rcases List.mem_cons.mp member with equal | later
    · exact positive equal.symm
    · exact inv.zero.2 (connections ▸ List.mem_toFinset.mpr later)
  refine ⟨rest.eraseIdx j, ?_, nodup.eraseIdx j, ?_⟩
  · simp only [closeConnection, same]
    rw [compact_cleared _ _ zero, List.eraseIdx_cons_succ]
  · change _ = s.connections.erase rest[j]
    rw [← connections, ← nodup.erase_getElem j inside]
    ext fd
    rw [List.mem_toFinset, Finset.mem_erase, List.mem_toFinset, nodup.mem_erase_iff]

/-- An entry of another socket is cleared, or the one of descriptor 0 dropped. -/
theorem close_misses {sockfd fd i : Nat} {s : State} (inv : Inv sockfd s) (other : fd ≠ sockfd)
    (connected : fd ∈ s.connections)
    (unmatched : ¬ (s.fds_bak[i]? = some (watching fd) ∧ sockfd ≠ 0)) :
    ¬ Table sockfd (closeConnection s i fd) := by
  rintro ⟨rest, same, -, connections⟩
  have fds : compact (s.fds_bak.set i ⟨none, false, false⟩) = (sockfd :: rest).map watching := same
  have positive : fd ≠ 0 := fun zero => inv.zero.2 (zero ▸ connected)
  by_cases zero : sockfd = 0
  · have first : watching sockfd ∈ compact (s.fds_bak.set i ⟨none, false, false⟩) := by
      rw [fds]
      exact List.mem_cons_self
    exact compact_zero _ _ first (congrArg some zero)
  · have elsewhere : s.fds_bak[i]? ≠ some (watching fd) := fun entry => unmatched ⟨entry, zero⟩
    obtain ⟨before, whole, -, all⟩ := inv.table
    have member : watching fd ∈ s.fds_bak := by
      rw [whole]
      exact List.mem_map.mpr ⟨fd, List.mem_cons_of_mem _ (List.mem_toFinset.mp (all ▸ connected)), rfl⟩
    obtain ⟨k, inside, at_⟩ := List.getElem_of_mem member
    have apart : i ≠ k := by
      intro equal
      subst equal
      exact elsewhere (List.getElem?_eq_some_iff.mpr ⟨inside, at_⟩)
    have stays : watching fd ∈ s.fds_bak.set i ⟨none, false, false⟩ := by
      refine List.mem_iff_getElem?.mpr ⟨k, ?_⟩
      rw [List.getElem?_set_ne apart]
      exact List.getElem?_eq_some_iff.mpr ⟨inside, at_⟩
    have left := mem_compact stays positive
    rw [fds] at left
    obtain ⟨found, here, equal⟩ := List.mem_map.mp left
    have equal : found = fd := by
      simpa [watching] using equal
    subst equal
    rcases List.mem_cons.mp here with listens | later
    · exact other listens
    · have gone : found ∈ s.connections.erase found := by
        have after := List.mem_toFinset.mpr later
        rwa [connections] at after
      exact Finset.notMem_erase found _ gone

theorem table_length {sockfd : Nat} {s : State} (table : Table sockfd s) :
    s.fds_bak.length = s.connections.card + 1 := by
  obtain ⟨rest, same, nodup, connections⟩ := table
  rw [same, ← connections, List.toFinset_card_of_nodup nodup, List.length_map, List.length_cons]

theorem accept_inv {sockfd i fd : Nat} {s : State} {fds : List Pollfd} (inv : Inv sockfd s)
    (at_ : s.place = .scan i fds) (unused : fd ∉ s.opened)
    (room : s.connections.card + 1 ≤ MAX_FDS - 1) :
    Inv sockfd { (acceptConnection s (some fd)).1 with place := .scan (i + 1) fds } := by
  obtain ⟨rest, same, nodup, connections⟩ := inv.table
  have new : fd ∉ s.connections := fun old => unused (inv.connected old)
  have apart (n : Nat) (member : n ∈ s.opened) : n ≠ fd := fun equal => unused (equal ▸ member)
  refine ⟨⟨rest ++ [fd], ?_, ?_, ?_⟩, ?_, ?_, ⟨Finset.mem_insert_of_mem inv.listens.1, ?_⟩, ?_,
    ⟨Finset.mem_insert_of_mem inv.zero.1, ?_⟩⟩
  · simp [acceptConnection, same]
  · refine nodup.append (List.nodup_singleton fd) (List.disjoint_singleton.mpr fun old => new ?_)
    exact connections ▸ List.mem_toFinset.mpr old
  · ext n
    simp [acceptConnection, ← connections]
  · obtain ⟨order, names, distinct, short, remain⟩ := along_next (along_here inv.along at_)
    exact ⟨order, names, distinct, short,
      fun n member => (remain n member).imp_right Finset.mem_insert_of_mem⟩
  · exact (Finset.card_insert_le fd s.connections).trans room
  · exact fun member => (Finset.mem_insert.mp member).elim (apart sockfd inv.listens.1) inv.listens.2
  · exact Finset.insert_subset_insert fd inv.connected
  · exact fun member => (Finset.mem_insert.mp member).elim (apart 0 inv.zero.1) inv.zero.2

theorem ready_open {sockfd i fd : Nat} {s : State} {fds : List Pollfd} (inv : Inv sockfd s)
    (at_ : s.place = .scan i fds) (ready : readyFd fds i = some fd) (other : fd ≠ sockfd) :
    fd ∈ s.connections ∧ i < MAX_FDS ∧
      Along sockfd { closeConnection s i fd with place := .scan (i + 1) fds } := by
  obtain ⟨order, names, distinct, short, remain⟩ := along_here inv.along at_
  obtain ⟨p, found, named⟩ := ready_fd_some ready
  have at_i : order[i]? = some fd := by
    have both : (fds.map Pollfd.fd)[i]? = some (some fd) := by rw [List.getElem?_map, found, ← named]; rfl
    rw [names, List.getElem?_map, Option.map_eq_some_iff] at both
    obtain ⟨n, here, equal⟩ := both
    rwa [Option.some.inj equal] at here
  obtain ⟨inside, value⟩ := List.getElem?_eq_some_iff.mp at_i
  have split : order.drop i = fd :: order.drop (i + 1) := by
    rw [← value]
    exact List.drop_eq_getElem_cons inside
  have here := remain fd (by rw [split]; exact List.mem_cons_self)
  refine ⟨here.resolve_left other, Nat.lt_of_lt_of_le inside short, order, names, distinct, short, ?_⟩
  intro n member
  have old := remain n (by rw [split]; exact List.mem_cons_of_mem _ member)
  have ahead : (fd :: order.drop (i + 1)).Nodup := split ▸ distinct.drop
  have apart : n ≠ fd := fun equal => (List.nodup_cons.mp ahead).1 (equal ▸ member)
  exact old.imp_right fun connected => Finset.mem_erase.mpr ⟨apart, connected⟩

theorem close_inv {sockfd i fd : Nat} {s : State} {fds : List Pollfd} (inv : Inv sockfd s)
    (at_ : s.place = .scan i fds) (ready : readyFd fds i = some fd) (other : fd ≠ sockfd)
    (matching : s.fds_bak[i]? = some (watching fd) ∧ sockfd ≠ 0) :
    Inv sockfd { closeConnection s i fd with place := .scan (i + 1) fds } := by
  obtain ⟨here, -, along⟩ := ready_open inv at_ ready other
  have zero : 0 ≠ fd := fun equal => inv.zero.2 (equal ▸ here)
  exact {
    table := close_table inv other matching.1 matching.2
    along := along
    few := (Finset.card_erase_le).trans inv.few
    listens := ⟨Finset.mem_erase.mpr ⟨other.symm, inv.listens.1⟩,
      fun member => inv.listens.2 (Finset.mem_of_mem_erase member)⟩
    connected := Finset.erase_subset_erase fd inv.connected
    zero := ⟨Finset.mem_erase.mpr ⟨zero, inv.zero.1⟩,
      fun member => inv.zero.2 (Finset.mem_of_mem_erase member)⟩ }

theorem at_place {sockfd : Nat} {s : State} (inv : Inv sockfd s) {place : Place}
    (along : Along sockfd { s with place := place }) : Inv sockfd { s with place := place } :=
  ⟨inv.table, along, inv.few, inv.listens, inv.connected, inv.zero⟩

theorem poll_inv {sockfd : Nat} {s after : State} {a : Action} {output : Event} (inv : Inv sockfd s)
    (stepped : pollStep s a = some (after, output)) : Inv sockfd after ∧ output = .quiet := by
  cases a with
  | poll ready =>
      simp only [pollStep, Option.ite_none_right_eq_some, Option.some.injEq, Prod.mk.injEq] at stepped
      obtain ⟨_, rfl, rfl⟩ := stepped
      refine ⟨at_place inv ?_, rfl⟩
      have length := table_length inv.table
      obtain ⟨rest, same, nodup, connections⟩ := inv.table
      have fresh : sockfd ∉ rest :=
        fun old => inv.listens.2 (connections ▸ List.mem_toFinset.mpr old)
      refine ⟨sockfd :: rest, ?_, List.nodup_cons.mpr ⟨fresh, nodup⟩, ?_, ?_⟩
      · have kept (fds : List Nat) : (polled (fds.map watching) ready).map Pollfd.fd = fds.map some := by
          apply List.ext_getElem?
          intro k
          simp only [polled, List.getElem?_map, List.getElem?_mapIdx, Option.map_map]
          rfl
        rw [same]
        exact kept (sockfd :: rest)
      · rw [same, List.length_map] at length
        have few := inv.few
        simp only [MAX_FDS] at few ⊢
        omega
      · intro fd member
        rw [List.drop_zero] at member
        exact (List.mem_cons.mp member).imp_right fun later =>
          connections ▸ List.mem_toFinset.mpr later
  | timeout =>
      simp only [pollStep, Option.some.injEq, Prod.mk.injEq] at stepped
      exact ⟨stepped.1 ▸ inv, stepped.2.symm⟩
  | pollFails =>
      simp only [pollStep, Option.some.injEq, Prod.mk.injEq] at stepped
      obtain ⟨rfl, rfl⟩ := stepped
      exact ⟨at_place inv trivial, rfl⟩
  | accept _ | recv _ | loop => cases stepped

theorem scan_inv {sockfd i : Nat} {s after : State} {fds : List Pollfd} {a : Action}
    {output : Event} (inv : Inv sockfd s) (at_ : s.place = .scan i fds)
    (stepped : scanStep sockfd s i fds a = some (after, output))
    (matching : ∀ fd index, output = .closed fd index →
      s.fds_bak[index]? = some (watching fd) ∧ sockfd ≠ 0) :
    Inv sockfd after ∧ ∀ index ∈ output.stores, index < MAX_FDS := by
  have passed := at_place inv (along_next (along_here inv.along at_))
  have none_ (index : Nat) (member : index ∈ Event.quiet.stores) : index < MAX_FDS :=
    absurd member (Option.not_mem_none index)
  cases a with
  | accept new_sockfd =>
      simp only [scanStep, Option.ite_none_right_eq_some, Option.some.injEq, Prod.mk.injEq] at stepped
      obtain ⟨⟨_, may⟩, rfl, rfl⟩ := stepped
      cases new_sockfd with
      | none => exact ⟨passed, none_⟩
      | some fd =>
          -- the new entry goes behind the last one
          obtain ⟨unused, room⟩ := may fd rfl
          refine ⟨accept_inv inv at_ unused room, ?_⟩
          intro index member
          cases member
          rw [table_length inv.table]
          simp only [MAX_FDS] at room ⊢
          omega
  | recv received =>
      simp only [scanStep] at stepped
      split at stepped
      · rename_i fd ready
        simp only [Option.ite_none_right_eq_some, Option.some.injEq, Prod.mk.injEq] at stepped
        obtain ⟨other, rfl, rfl⟩ := stepped
        cases received with
        | ended =>
            refine ⟨close_inv inv at_ ready other (matching fd i rfl), ?_⟩
            intro index member
            cases member
            exact (ready_open inv at_ ready other).2.1
        | again => exact ⟨passed, none_⟩
        | bytes length => exact ⟨passed, none_⟩
      · cases stepped
  | loop =>
      simp only [scanStep] at stepped
      split at stepped
      · simp only [Option.ite_none_right_eq_some, Option.some.injEq, Prod.mk.injEq] at stepped
        obtain ⟨_, rfl, rfl⟩ := stepped
        exact ⟨passed, none_⟩
      · simp only [Option.some.injEq, Prod.mk.injEq] at stepped
        obtain ⟨rfl, rfl⟩ := stepped
        exact ⟨at_place inv trivial, none_⟩
  | poll _ | timeout | pollFails => cases stepped

theorem step_inv {sockfd : Nat} (e : Step) (stepped : (machine sockfd).Stepped e)
    (matching : Matching sockfd e) (inv : Inv sockfd e.before) :
    Inv sockfd e.after ∧ ∀ index ∈ e.output.stores, index < MAX_FDS := by
  obtain ⟨s, a, output, after⟩ := e
  simp only [Machine.Stepped, machine, step] at stepped
  split at stepped
  · obtain ⟨next, rfl⟩ := poll_inv inv stepped
    exact ⟨next, fun index member => absurd member (Option.not_mem_none index)⟩
  · rename_i i fds at_
    exact scan_inv inv at_ stepped matching
  · cases stepped

theorem start_inv {sockfd : Nat} (s : State) (first : (machine sockfd).start s) : Inv sockfd s := by
  obtain ⟨fds, none_, lower, here⟩ := first
  refine ⟨⟨[], fds, List.nodup_nil, none_.symm⟩, ?_, by rw [none_]; exact Nat.zero_le _,
    ⟨lower sockfd (Nat.le_refl _), by rw [none_]; exact Finset.notMem_empty _⟩,
    by rw [none_]; exact Finset.empty_subset _,
    ⟨lower 0 (Nat.zero_le _), by rw [none_]; exact Finset.notMem_empty _⟩⟩
  rw [Along, here]
  trivial

theorem run_inv {sockfd : Nat} {trace : List Step} {s : State} (run : (machine sockfd).Run trace s)
    (matching : ∀ e ∈ trace, Matching sockfd e) : Inv sockfd s ∧ Inside trace := by
  refine run.history (I := fun trace s => Inv sockfd s ∧ Inside trace)
    (fun s first => ⟨start_inv s first, fun e member => absurd member List.not_mem_nil⟩) ?_ matching
  intro trace e stepped matched ⟨inv, inside⟩
  obtain ⟨next, store⟩ := step_inv e stepped matched inv
  refine ⟨next, fun d member => ?_⟩
  rcases List.mem_append.mp member with old | new
  · exact inside d old
  · rw [List.mem_singleton.mp new]
    exact store

theorem scan_closed {sockfd i fd index : Nat} {s after : State} {fds : List Pollfd} {a : Action}
    (stepped : scanStep sockfd s i fds a = some (after, .closed fd index)) :
    index = i ∧ readyFd fds i = some fd ∧ fd ≠ sockfd ∧
      after = { closeConnection s i fd with place := .scan (i + 1) fds } := by
  cases a with
  | recv received =>
      simp only [scanStep] at stepped
      split at stepped
      · rename_i ready_ ready
        simp only [Option.ite_none_right_eq_some, Option.some.injEq, Prod.mk.injEq] at stepped
        obtain ⟨other, rfl, closed⟩ := stepped
        cases received with
        | ended =>
            obtain ⟨rfl, rfl⟩ := Event.closed.inj closed
            exact ⟨rfl, ready, other, rfl⟩
        | again => cases closed
        | bytes length => cases closed
      · cases stepped
  | accept new_sockfd =>
      simp only [scanStep, Option.ite_none_right_eq_some, Option.some.injEq, Prod.mk.injEq] at stepped
      obtain ⟨_, _, closed⟩ := stepped
      cases new_sockfd <;> cases closed
  | loop =>
      simp only [scanStep] at stepped
      split at stepped
      · simp only [Option.ite_none_right_eq_some, Option.some.injEq, Prod.mk.injEq, reduceCtorEq,
          and_false] at stepped
      · cases stepped
  | poll _ | timeout | pollFails => cases stepped

/-- The table is right all along a run, and the stores are inside the array, exactly when every close
    finds its own entry. -/
theorem table_kept_iff (sockfd : Nat) (trace : List Step) (s : State)
    (run : (machine sockfd).Run trace s) :
    (∀ e ∈ trace, Matching sockfd e) ↔ ∀ pre last, pre <+: trace → (machine sockfd).Run pre last →
      Table sockfd last ∧ Inside pre := by
  refine run.exactly (P := fun trace last => Table sockfd last ∧ Inside trace)
    (fun trace s run met => (run_inv run met).imp_left Inv.table) fun trace e run met stepped _ after => ?_
  intro fd index closed
  have inv := (run_inv run met).1
  obtain ⟨before, a, output, last⟩ := e
  simp only at closed
  simp only [Machine.Stepped, machine, step, closed] at stepped
  split at stepped
  · exact Event.noConfusion (poll_inv inv stepped).2
  · rename_i i fds at_
    obtain ⟨rfl, ready, other, result⟩ := scan_closed stepped
    simp only [result] at after
    by_contra unmatched
    exact close_misses inv other (ready_open inv at_ ready other).1 unmatched after.1
  · cases stepped

/-! Two connections that are closed in one pass. -/

def begun : State := ⟨[watching 3], ∅, {0, 1, 2, 3}, .poll⟩

theorem begun_start : (machine 3).start begun := ⟨rfl, rfl, by decide, rfl⟩

def twoArrive : List Action :=
  [.poll {0}, .accept (some 4), .loop, .poll {0}, .accept (some 5), .loop, .loop]

theorem one_closed : ∃ (trace : List Step) (s : State), (machine 3).Run trace s ∧
    (∀ e ∈ trace, Matching 3 e) ∧ Table 3 s ∧ s.place = .poll ∧ s.connections = {5} := by
  obtain ⟨trace, s, run, checked⟩ := Machine.run_of_check begun_start
    (twoArrive ++ [.poll {1}, .loop, .recv .ended, .loop, .loop])
    (fun r => decide ((∀ e ∈ r.1, ∀ k, e.output.stores = some k → e.output = .accepted k ∨
        e.output = .closed 4 1 ∧ e.before.fds_bak[1]? = some (watching 4)) ∧
      r.2.place = .poll ∧ r.2.connections = {5}))
    (by decide +kernel)
  obtain ⟨matches_, here, connections⟩ := of_decide_eq_true checked
  have matching : ∀ e ∈ trace, Matching 3 e := by
    intro e member fd index closed
    rcases matches_ e member index (by rw [closed]; rfl) with accepted | ⟨first, entry⟩
    · exact Event.noConfusion (accepted.symm.trans closed)
    · obtain ⟨rfl, rfl⟩ := Event.closed.inj (closed.symm.trans first)
      exact ⟨entry, by decide⟩
  have all := (table_kept_iff 3 trace s run).mp matching
  exact ⟨trace, s, run, matching, (all trace s (List.prefix_refl trace) run).1, here, connections⟩

theorem two_closed : ∃ (trace : List Step) (s : State), (machine 3).Run trace s ∧ s.place = .poll ∧
    s.connections = ∅ ∧ s.fds_bak = [watching 3, watching 5] ∧ ¬ Table 3 s := by
  obtain ⟨trace, s, run, checked⟩ := Machine.run_of_check begun_start
    (twoArrive ++ [.poll {1, 2}, .loop, .recv .ended, .recv .ended, .loop])
    (fun r => decide (r.2.place = .poll ∧ r.2.connections = ∅ ∧
      r.2.fds_bak = [watching 3, watching 5]))
    (by decide +kernel)
  obtain ⟨here, connections, fds⟩ := of_decide_eq_true checked
  refine ⟨trace, s, run, here, connections, fds, fun table => ?_⟩
  have length := table_length table
  rw [fds, connections] at length
  cases length

end NetworkProgramming.TcpPoll
