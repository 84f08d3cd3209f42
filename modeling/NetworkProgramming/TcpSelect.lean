import NetworkProgramming.GreatestMember
import NetworkProgramming.Machine

/-!
chapter8/tcp_select.c and chapter8/udp_select.c. The two programs treat
`rfds_bak` and `maxfd_bak` alike; what differs is where a new socket comes
from, and that the variable `sockfd` of the second goes on to it. A pass over
`rfds` is taken descriptor by descriptor.
-/

namespace NetworkProgramming.TcpSelect

open GreatestMember

inductive Program where
  | tcp_select
  | udp_select
  deriving DecidableEq

inductive Place where
  | select
  | scan (i : Nat) (rfds : Finset Nat) (maxfd : Nat)
  | exited
  deriving DecidableEq

/-- `sockfd` is `none` for -1. `connections` and `opened` are what the kernel knows: the sockets that
    peers are connected to, and all descriptors of the process. -/
structure State where
  sockfd : Option Nat
  rfds_bak : Finset Nat
  maxfd_bak : Nat
  connections : Finset Nat
  opened : Finset Nat
  place : Place

inductive Received where
  | bytes (length : Nat)
  | again
  | ended
  deriving DecidableEq

inductive Action where
  | select (rfds : Finset Nat)
  | timeout
  | selectFails
  /-- `none` when no socket comes of it. -/
  | accept (new_sockfd : Option Nat)
  /-- recvfrom of udp_select returns nothing. -/
  | nothing
  | recv (received : Received)
  | loop
  deriving DecidableEq

inductive Event where
  | closed (fd : Nat)
  | quiet
  deriving DecidableEq

abbrev Step := Transition State Action Event

def State.sockets (s : State) : Finset Nat :=
  match s.sockfd with
  | some sockfd => insert sockfd s.connections
  | none => s.connections

def Lowest (FD_SETSIZE : Nat) (opened : Finset Nat) (fd : Nat) : Prop :=
  fd ∉ opened ∧ (∀ lower < fd, lower ∈ opened) ∧ fd < FD_SETSIZE

instance (FD_SETSIZE : Nat) (opened : Finset Nat) (fd : Nat) :
    Decidable (Lowest FD_SETSIZE opened fd) :=
  inferInstanceAs (Decidable (fd ∉ opened ∧ (∀ lower < fd, lower ∈ opened) ∧ fd < FD_SETSIZE))

def State.watch (s : State) (new_sockfd : Nat) : State :=
  { s with
    rfds_bak := insert new_sockfd s.rfds_bak
    maxfd_bak := if new_sockfd > s.maxfd_bak then new_sockfd else s.maxfd_bak
    opened := insert new_sockfd s.opened }

/-- In udp_select the old socket has been connected to the peer, and `sockfd` is -1 after an error. -/
def listening (program : Program) (s : State) (i : Nat) (new_sockfd : Option Nat) : State :=
  match program, new_sockfd with
  | .tcp_select, some fd => { s.watch fd with connections := insert fd s.connections }
  | .tcp_select, none => s
  | .udp_select, some fd => { s.watch fd with sockfd := some fd, connections := insert i s.connections }
  | .udp_select, none => { s with sockfd := none, connections := insert i s.connections }

/-- close, FD_CLR, and the search for a new maximum when `i` was the highest descriptor. -/
def closeConnection (s : State) (i maxfd : Nat) : State :=
  let rfds_bak := s.rfds_bak.erase i
  { s with
    rfds_bak := rfds_bak
    maxfd_bak := if i = maxfd then highest rfds_bak maxfd s.maxfd_bak else s.maxfd_bak
    connections := s.connections.erase i
    opened := s.opened.erase i }

def connection (s : State) (i maxfd : Nat) : Received → State × Event
  | .ended => (closeConnection s i maxfd, .closed i)
  | .again => (s, .quiet)
  | .bytes _ => (s, .quiet)

def scanStep (program : Program) (FD_SETSIZE : Nat) (s : State) (i : Nat) (rfds : Finset Nat)
    (maxfd : Nat) : Action → Option (State × Event)
  | .accept new_sockfd =>
      if i ≤ maxfd ∧ i ∈ rfds ∧ s.sockfd = some i ∧
          ∀ fd ∈ new_sockfd, Lowest FD_SETSIZE s.opened fd then
        some ({ listening program s i new_sockfd with place := .scan (i + 1) rfds maxfd }, .quiet)
      else none
  | .nothing =>
      if i ≤ maxfd ∧ i ∈ rfds ∧ s.sockfd = some i ∧ program = .udp_select then
        some ({ s with place := .scan (i + 1) rfds maxfd }, .quiet)
      else none
  | .recv received =>
      if i ≤ maxfd ∧ i ∈ rfds ∧ s.sockfd ≠ some i then
        let r := connection s i maxfd received
        some ({ r.1 with place := .scan (i + 1) rfds maxfd }, r.2)
      else none
  | .loop =>
      if i ≤ maxfd then
        if i ∈ rfds then none else some ({ s with place := .scan (i + 1) rfds maxfd }, .quiet)
      else some ({ s with place := .select }, .quiet)
  | _ => none

def selectStep (s : State) : Action → Option (State × Event)
  | .select rfds =>
      if rfds ⊆ s.rfds_bak ∧ (∀ fd ∈ rfds, fd < s.maxfd_bak + 1) ∧ rfds.Nonempty then
        some ({ s with place := .scan 0 rfds s.maxfd_bak }, .quiet)
      else none
  | .timeout => some (s, .quiet)
  | .selectFails => some ({ s with place := .exited }, .quiet)
  | _ => none

def step (program : Program) (FD_SETSIZE : Nat) (s : State) (a : Action) : Option (State × Event) :=
  match s.place with
  | .select => selectStep s a
  | .scan i rfds maxfd => scanStep program FD_SETSIZE s i rfds maxfd a
  | .exited => none

/-- Before the loop; the process may have other descriptors open. -/
def machine (program : Program) (FD_SETSIZE sockfd : Nat) : Machine State Action Event where
  start s := s.sockfd = some sockfd ∧ s.rfds_bak = {sockfd} ∧ s.maxfd_bak = sockfd ∧
    s.connections = ∅ ∧ sockfd ∈ s.opened ∧ s.place = .select
  step := step program FD_SETSIZE

def Watched (s : State) : Prop :=
  s.rfds_bak = s.sockets ∧ Greatest s.rfds_bak s.maxfd_bak

/-- The descriptor a step closes is not that of the highest socket at the beginning of the pass, or no
    socket above it has been added in the pass. -/
def Within (e : Step) : Prop :=
  ∀ rfds maxfd, e.before.place = .scan maxfd rfds maxfd → e.output = .closed maxfd →
    ∀ fd ∈ e.before.rfds_bak, fd ≤ maxfd

/-- Where a pass stands: the highest socket of its beginning is still the one or below the new one
    until its turn comes, and a socket above it has come from one that the pass has gone by. -/
def Along (s : State) : Prop :=
  match s.place with
  | .scan i _ maxfd => (i ≤ maxfd → maxfd ≤ s.maxfd_bak) ∧
      ((∃ fd ∈ s.rfds_bak, maxfd < fd) → ∃ fd ∈ s.rfds_bak, fd < i)
  | _ => True

structure Inv (s : State) : Prop where
  watched : Watched s
  along : Along s

theorem along_here {s : State} {place : Place} (along : Along s) (here : s.place = place) :
    Along { s with place := place } := by
  subst here
  exact along

theorem along_next {s : State} {i maxfd : Nat} {rfds : Finset Nat}
    (along : Along { s with place := .scan i rfds maxfd }) :
    Along { s with place := .scan (i + 1) rfds maxfd } := by
  obtain ⟨still, from_lower⟩ := along
  refine ⟨fun inside => still (by omega), fun above => ?_⟩
  obtain ⟨fd, member, lower⟩ := from_lower above
  exact ⟨fd, member, by omega⟩

theorem listening_watched (program : Program) {s : State} {i : Nat} (watched : Watched s)
    (here : s.sockfd = some i) (new_sockfd : Option Nat) :
    Watched (listening program s i new_sockfd) := by
  obtain ⟨same, greatest⟩ := watched
  have sockets : s.rfds_bak = insert i s.connections := by rw [same, State.sockets, here]
  have some_ : s.rfds_bak.Nonempty := sockets ▸ Finset.insert_nonempty i s.connections
  cases new_sockfd with
  | none =>
      cases program with
      | tcp_select => exact ⟨same, greatest⟩
      | udp_select => exact ⟨sockets, greatest⟩
  | some fd =>
      have watched := greatest.insert some_ fd
      cases program with
      | tcp_select =>
          refine ⟨?_, watched⟩
          change insert fd s.rfds_bak = (match s.sockfd with
            | some sockfd => insert sockfd (insert fd s.connections)
            | none => insert fd s.connections)
          rw [here, sockets]
          exact Finset.insert_comm fd i s.connections
      | udp_select => exact ⟨congrArg (insert fd) sockets, watched⟩

theorem listening_along (program : Program) {s : State} {i maxfd : Nat} {rfds : Finset Nat}
    (inv : Inv s) (at_ : s.place = .scan i rfds maxfd) (here : s.sockfd = some i)
    (new_sockfd : Option Nat) :
    Along { listening program s i new_sockfd with place := .scan (i + 1) rfds maxfd } := by
  have along := along_here inv.along at_
  have member : i ∈ s.rfds_bak := by
    rw [inv.watched.1, State.sockets, here]
    exact Finset.mem_insert_self i s.connections
  obtain ⟨still, from_lower⟩ := along
  cases new_sockfd with
  | none => cases program <;> exact along_next ⟨still, from_lower⟩
  | some fd =>
      have raised : s.maxfd_bak ≤ if fd > s.maxfd_bak then fd else s.maxfd_bak := by
        split <;> omega
      have kept : (i + 1 ≤ maxfd → maxfd ≤ if fd > s.maxfd_bak then fd else s.maxfd_bak) ∧
          ((∃ other ∈ insert fd s.rfds_bak, maxfd < other) →
            ∃ other ∈ insert fd s.rfds_bak, other < i + 1) :=
        ⟨fun inside => (still (by omega)).trans raised,
          fun _ => ⟨i, Finset.mem_insert_of_mem member, Nat.lt_succ_self i⟩⟩
      cases program <;> exact kept

theorem close_watched {s : State} {i maxfd : Nat} {rfds : Finset Nat} (inv : Inv s)
    (at_ : s.place = .scan i rfds maxfd) (inside : i ≤ maxfd) (other : s.sockfd ≠ some i)
    (within : i = maxfd → ∀ fd ∈ s.rfds_bak, fd ≤ maxfd) :
    Watched (closeConnection s i maxfd) := by
  obtain ⟨same, greatest⟩ := inv.watched
  obtain ⟨still, -⟩ := along_here inv.along at_
  constructor
  · change s.rfds_bak.erase i = (match s.sockfd with
      | some sockfd => insert sockfd (s.connections.erase i)
      | none => s.connections.erase i)
    rw [same, State.sockets]
    cases listens : s.sockfd with
    | none => rfl
    | some sockfd =>
        have different : i ≠ sockfd := fun equal => other (by rw [listens, equal])
        exact Finset.erase_insert_of_ne different.symm
  · by_cases last : i = maxfd
    · have found := greatest_highest (s.rfds_bak.erase i) maxfd s.maxfd_bak
        fun fd member => within last fd (Finset.mem_of_mem_erase member)
      simpa only [closeConnection, if_pos last] using found
    · have lower : i ≠ s.maxfd_bak := by
        have high : maxfd ≤ s.maxfd_bak := still inside
        omega
      simpa only [closeConnection, if_neg last] using greatest.erase_lower i lower

theorem close_along {s : State} {i maxfd : Nat} {rfds : Finset Nat} (inv : Inv s)
    (at_ : s.place = .scan i rfds maxfd) (inside : i ≤ maxfd) :
    Along { closeConnection s i maxfd with place := .scan (i + 1) rfds maxfd } := by
  obtain ⟨still, from_lower⟩ := along_here inv.along at_
  constructor
  · intro more
    have other : i ≠ maxfd := by omega
    have high : maxfd ≤ s.maxfd_bak := still inside
    simpa only [closeConnection, if_neg other] using high
  · rintro ⟨fd, member, above⟩
    obtain ⟨lower, here, below⟩ := from_lower ⟨fd, Finset.mem_of_mem_erase member, above⟩
    have below : lower < i := below
    exact ⟨lower, Finset.mem_erase.mpr ⟨by omega, here⟩, by omega⟩

/-- Closing the highest descriptor of the pass hides one that was added above it. -/
theorem close_misses {s : State} {maxfd : Nat} {rfds : Finset Nat} (inv : Inv s)
    (at_ : s.place = .scan maxfd rfds maxfd) (above : ∃ fd ∈ s.rfds_bak, maxfd < fd) :
    ¬ Watched (closeConnection s maxfd maxfd) := by
  rintro ⟨-, greatest⟩
  obtain ⟨-, from_lower⟩ := along_here inv.along at_
  obtain ⟨lower, member, below⟩ := from_lower above
  have below : lower < maxfd := below
  obtain ⟨fd, here, high⟩ := above
  have low : ∃ n ∈ s.rfds_bak.erase maxfd, n ≤ maxfd :=
    ⟨lower, Finset.mem_erase.mpr ⟨by omega, member⟩, by omega⟩
  have hidden : ∃ n ∈ s.rfds_bak.erase maxfd, maxfd < n :=
    ⟨fd, Finset.mem_erase.mpr ⟨by omega, here⟩, high⟩
  refine not_greatest_highest _ maxfd s.maxfd_bak low hidden ?_
  simpa only [closeConnection, if_true] using greatest

theorem scan_inv {program : Program} {FD_SETSIZE : Nat} {s after : State} {a : Action}
    {output : Event} {i maxfd : Nat} {rfds : Finset Nat} (inv : Inv s)
    (at_ : s.place = .scan i rfds maxfd)
    (within : output = .closed i → i = maxfd → ∀ fd ∈ s.rfds_bak, fd ≤ maxfd)
    (stepped : scanStep program FD_SETSIZE s i rfds maxfd a = some (after, output)) : Inv after := by
  have passed := along_next (along_here inv.along at_)
  cases a with
  | accept new_sockfd =>
      simp only [scanStep, Option.ite_none_right_eq_some, Option.some.injEq, Prod.mk.injEq] at stepped
      obtain ⟨⟨_, _, here, _⟩, rfl, _⟩ := stepped
      exact ⟨listening_watched program inv.watched here new_sockfd,
        listening_along program inv at_ here new_sockfd⟩
  | nothing =>
      simp only [scanStep, Option.ite_none_right_eq_some, Option.some.injEq, Prod.mk.injEq] at stepped
      obtain ⟨_, rfl, _⟩ := stepped
      exact ⟨inv.watched, passed⟩
  | recv received =>
      simp only [scanStep, Option.ite_none_right_eq_some, Option.some.injEq, Prod.mk.injEq] at stepped
      obtain ⟨⟨inside, _, other⟩, rfl, closed⟩ := stepped
      cases received with
      | ended => exact ⟨close_watched inv at_ inside other (within closed.symm), close_along inv at_ inside⟩
      | again => exact ⟨inv.watched, passed⟩
      | bytes length => exact ⟨inv.watched, passed⟩
  | loop =>
      simp only [scanStep] at stepped
      split at stepped
      · simp only [Option.ite_none_left_eq_some, Option.some.injEq, Prod.mk.injEq] at stepped
        obtain ⟨_, rfl, _⟩ := stepped
        exact ⟨inv.watched, passed⟩
      · simp only [Option.some.injEq, Prod.mk.injEq] at stepped
        obtain ⟨rfl, _⟩ := stepped
        exact ⟨inv.watched, trivial⟩
  | select _ | timeout | selectFails => cases stepped

theorem select_inv {s after : State} {a : Action} {output : Event} (inv : Inv s)
    (stepped : selectStep s a = some (after, output)) : Inv after := by
  cases a with
  | select rfds =>
      simp only [selectStep, Option.ite_none_right_eq_some, Option.some.injEq, Prod.mk.injEq] at stepped
      obtain ⟨_, rfl, _⟩ := stepped
      refine ⟨inv.watched, fun _ => Nat.le_refl _, ?_⟩
      rintro ⟨fd, member, above⟩
      exact absurd (inv.watched.2.1 fd member) (by omega)
  | timeout =>
      simp only [selectStep, Option.some.injEq, Prod.mk.injEq] at stepped
      exact stepped.1 ▸ inv
  | selectFails =>
      simp only [selectStep, Option.some.injEq, Prod.mk.injEq] at stepped
      obtain ⟨rfl, _⟩ := stepped
      exact ⟨inv.watched, trivial⟩
  | accept _ | nothing | recv _ | loop => cases stepped

theorem step_inv {program : Program} {FD_SETSIZE sockfd : Nat} (e : Step)
    (stepped : (machine program FD_SETSIZE sockfd).Stepped e) (within : Within e)
    (inv : Inv e.before) : Inv e.after := by
  obtain ⟨s, a, output, after⟩ := e
  simp only [Machine.Stepped, machine, step] at stepped
  split at stepped
  · exact select_inv inv stepped
  · rename_i i rfds maxfd at_
    refine scan_inv inv at_ (fun closed last => ?_) stepped
    subst last
    exact within rfds i at_ closed
  · cases stepped

theorem start_inv {program : Program} {FD_SETSIZE sockfd : Nat} (s : State)
    (first : (machine program FD_SETSIZE sockfd).start s) : Inv s := by
  obtain ⟨listens, rfds, top, none_, -, here⟩ := first
  refine ⟨⟨?_, ?_⟩, ?_⟩
  · rw [rfds, State.sockets, listens, none_]
    rfl
  · rw [rfds, top]
    exact ⟨fun fd member => Nat.le_of_eq (Finset.mem_singleton.mp member),
      fun _ => Finset.mem_singleton_self sockfd⟩
  · rw [Along, here]
    trivial

theorem run_inv {program : Program} {FD_SETSIZE sockfd : Nat} {trace : List Step} {s : State}
    (run : (machine program FD_SETSIZE sockfd).Run trace s) (within : ∀ e ∈ trace, Within e) : Inv s :=
  run.preserves start_inv step_inv within

theorem scan_closed {program : Program} {FD_SETSIZE : Nat} {s after : State} {a : Action}
    {i fd maxfd : Nat} {rfds : Finset Nat}
    (stepped : scanStep program FD_SETSIZE s i rfds maxfd a = some (after, .closed fd)) :
    after = { closeConnection s i maxfd with place := .scan (i + 1) rfds maxfd } := by
  cases a with
  | recv received =>
      simp only [scanStep, Option.ite_none_right_eq_some, Option.some.injEq, Prod.mk.injEq] at stepped
      obtain ⟨_, rfl, closed⟩ := stepped
      cases received with
      | ended => rfl
      | again => cases closed
      | bytes length => cases closed
  | loop =>
      simp only [scanStep] at stepped
      split at stepped
      · split at stepped
        · cases stepped
        · cases stepped
      · cases stepped
  | accept _ | nothing =>
      simp only [scanStep, Option.ite_none_right_eq_some, Option.some.injEq, Prod.mk.injEq,
        reduceCtorEq, and_false] at stepped
  | select _ | timeout | selectFails => cases stepped

/-- A run keeps all sockets in the set and the highest of them in `maxfd_bak`, exactly when it never
    closes the highest one of a pass after it has added one above. -/
theorem sockets_watched_iff (program : Program) (FD_SETSIZE sockfd : Nat) (trace : List Step)
    (s : State) (run : (machine program FD_SETSIZE sockfd).Run trace s) :
    (∀ e ∈ trace, Within e) ↔ ∀ pre last, pre <+: trace →
      (machine program FD_SETSIZE sockfd).Run pre last → Watched last := by
  refine run.exactly (P := fun _ last => Watched last) (fun trace s run met => (run_inv run met).watched)
    fun trace e run met stepped _ after => ?_
  intro rfds maxfd at_ closed fd member
  have inv := run_inv run met
  by_contra above
  obtain ⟨before, a, output, last⟩ := e
  simp only at at_ closed
  simp only [Machine.Stepped, machine, step, at_, closed] at stepped
  have result := scan_closed stepped
  simp only at after
  rw [result] at after
  exact close_misses inv at_ ⟨fd, member, by omega⟩ after

/-! Three connections, the highest of which is closed in the pass that accepts one more. -/

def begun : State := ⟨some 3, {3}, 3, ∅, {0, 1, 2, 3}, .select⟩

theorem begun_start : (machine .tcp_select 1024 3).start begun :=
  ⟨rfl, rfl, rfl, rfl, by decide, rfl⟩

def twoArrive : List Action :=
  [.select {3}, .loop, .loop, .loop, .accept (some 4), .loop,
    .select {3}, .loop, .loop, .loop, .accept (some 5), .loop, .loop]

theorem two_watched : ∃ (trace : List Step) (s : State),
    (machine .tcp_select 1024 3).Run trace s ∧ (∀ e ∈ trace, Within e) ∧ Watched s ∧
      s.place = .select ∧ s.connections = {4, 5} ∧ s.maxfd_bak = 5 := by
  obtain ⟨trace, s, run, checked⟩ := Machine.run_of_check begun_start twoArrive
    (fun r => decide ((∀ e ∈ r.1, e.output = .quiet) ∧ r.2.place = .select ∧
      r.2.connections = {4, 5} ∧ r.2.maxfd_bak = 5))
    (by decide +kernel)
  obtain ⟨open_, here, connections, top⟩ := of_decide_eq_true checked
  have within : ∀ e ∈ trace, Within e := by
    intro e member _ _ _ closed
    exact Event.noConfusion ((open_ e member).symm.trans closed)
  have all := (sockets_watched_iff .tcp_select 1024 3 trace s run).mp within
  exact ⟨trace, s, run, within, all trace s (List.prefix_refl trace) run, here, connections, top⟩

theorem third_unwatched : ∃ (trace : List Step) (s : State),
    (machine .tcp_select 1024 3).Run trace s ∧ s.place = .select ∧ s.connections = {4, 6} ∧
      s.maxfd_bak = 4 ∧ ¬ Watched s := by
  obtain ⟨trace, s, run, checked⟩ := Machine.run_of_check begun_start
    (twoArrive ++ [.select {3, 5}, .loop, .loop, .loop, .accept (some 6), .loop, .recv .ended, .loop])
    (fun r => decide (r.2.place = .select ∧ r.2.connections = {4, 6} ∧ r.2.maxfd_bak = 4 ∧
      6 ∈ r.2.rfds_bak))
    (by decide +kernel)
  obtain ⟨here, connections, top, member⟩ := of_decide_eq_true checked
  refine ⟨trace, s, run, here, connections, top, ?_⟩
  rintro ⟨-, greatest⟩
  have below := greatest.1 6 member
  rw [top] at below
  omega

end NetworkProgramming.TcpSelect
