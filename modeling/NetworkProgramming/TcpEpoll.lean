import Mathlib.Data.List.Nodup
import Mathlib.Logic.Function.Basic
import NetworkProgramming.Machine

/-!
chapter8/tcp_epoll.c. All descriptors are registered with EPOLLET: what arrives
at a descriptor makes it ready, and epoll_wait reports it once and takes that
back. Arrivals come between any two steps of the server.
-/

namespace NetworkProgramming.TcpEpoll

def BUF_LEN : Nat := 4096
def ONCE_LEN : Nat := 1500
def MAX_EVENTS : Nat := 1024

/-- What has come in and has not been received. `ready`: some of it since the last report. -/
structure Conn where
  unread : Nat
  eof : Bool
  ready : Bool
  deriving DecidableEq

def Conn.arrives (c : Conn) (n : Nat) : Conn := { c with unread := c.unread + n, ready := true }
def Conn.ends (c : Conn) : Conn := { c with eof := true, ready := true }

/-- `events` is what is left of an array that epoll_wait has filled; `fd` is read from, with `pos` bytes
    in `buf`. After an overrun of `buf` nothing is known. -/
inductive Place where
  | wait
  | serve (events : List Nat)
  | read (fd pos : Nat) (events : List Nat)
  | overrun
  | exited
  deriving DecidableEq

def Place.events : Place → List Nat
  | .serve events => events
  | .read _ _ events => events
  | _ => []

def Place.reads : Place → Option Nat
  | .read fd _ _ => some fd
  | _ => none

structure State where
  queue : List Conn
  ready : Bool
  conns : Nat → Option Conn
  place : Place

inductive Received where
  | bytes (len : Nat)
  | again
  | ended
  | failed
  deriving DecidableEq

inductive Action where
  /-- Arrivals: of a connection, and on a connection in the queue or an open one. -/
  | connect
  | sendQueued (k n : Nat)
  | endQueued (k : Nat)
  | send (fd n : Nat)
  | endOpen (fd : Nat)
  | wait (events : List Nat)
  | timeout
  | waitFails
  | accept (new_sockfd : Option Nat)
  | recv (received : Received)
  | loop
  deriving DecidableEq

abbrev Step := Transition State Action Unit

def isReady (sockfd : Nat) (s : State) (fd : Nat) : Bool :=
  if fd = sockfd then s.ready else (s.conns fd).any Conn.ready

def reported (sockfd : Nat) (s : State) (events : List Nat) : State :=
  { s with
    ready := s.ready && !decide (sockfd ∈ events)
    conns := fun fd => (s.conns fd).map fun c => { c with ready := c.ready && !decide (fd ∈ events) }
    place := .serve events }

def arrive (s : State) : Action → Option State
  | .connect => some { s with queue := s.queue ++ [⟨0, false, false⟩], ready := true }
  | .sendQueued k n => some { s with queue := s.queue.modify k fun c => c.arrives n }
  | .endQueued k => some { s with queue := s.queue.modify k Conn.ends }
  | .send fd n => some { s with conns := fun other =>
      if other = fd then (s.conns fd).map fun c => c.arrives n else s.conns other }
  | .endOpen fd => some { s with conns := fun other =>
      if other = fd then (s.conns fd).map Conn.ends else s.conns other }
  | _ => none

/-- epoll_ctl reports a new descriptor that something has arrived at, as the first time. -/
def acceptConnection (sockfd : Nat) (s : State) (rest : List Nat) : Option Nat → Option State
  | none => some { s with place := .serve rest }
  | some fd => match s.queue with
      | [] => none
      | c :: queue =>
          if fd ≠ sockfd ∧ s.conns fd = none then
            some { s with
              queue := queue
              conns := Function.update s.conns fd (some c)
              place := .serve rest }
          else none

def closeConnection (s : State) (fd : Nat) (rest : List Nat) : State :=
  { s with conns := Function.update s.conns fd none, place := .serve rest }

def receive (s : State) (fd pos : Nat) (rest : List Nat) : Received → Option State
  | .bytes len => match s.conns fd with
      | some c =>
          if 0 < len ∧ len ≤ ONCE_LEN ∧ len ≤ c.unread then
            some { s with
              conns := Function.update s.conns fd (some { c with unread := c.unread - len })
              place := if pos + len ≤ BUF_LEN then .read fd (pos + len) rest else .overrun }
          else none
      | none => none
  | .again => match s.conns fd with
      | some c => if c.unread = 0 ∧ c.eof = false then some { s with place := .serve rest } else none
      | none => none
  | .ended => match s.conns fd with
      | some c => if c.unread = 0 ∧ c.eof = true then some (closeConnection s fd rest) else none
      | none => none
  | .failed => some (closeConnection s fd rest)

def serveStep (sockfd : Nat) (s : State) (events : List Nat) (a : Action) : Option State :=
  match events, a with
  | [], .loop => some { s with place := .wait }
  | fd :: rest, .accept new_sockfd =>
      if fd = sockfd then acceptConnection sockfd s rest new_sockfd else none
  | fd :: rest, .loop => if fd = sockfd then none else some { s with place := .read fd 0 rest }
  | _, _ => none

def waitStep (sockfd : Nat) (s : State) : Action → Option State
  | .wait events =>
      if events ≠ [] ∧ events.Nodup ∧ events.length ≤ MAX_EVENTS ∧
          ∀ fd ∈ events, isReady sockfd s fd = true then
        some (reported sockfd s events)
      else none
  | .timeout => some s
  | .waitFails => some { s with place := .exited }
  | _ => none

def serverStep (sockfd : Nat) (s : State) (a : Action) : Option State :=
  match s.place with
  | .wait => waitStep sockfd s a
  | .serve events => serveStep sockfd s events a
  | .read fd pos rest => match a with
      | .recv received => receive s fd pos rest received
      | _ => none
  | _ => none

def step (sockfd : Nat) (s : State) (a : Action) : Option (State × Unit) :=
  ((arrive s a).or (serverStep sockfd s a)).map fun after => (after, ())

def machine (sockfd : Nat) : Machine State Action Unit where
  start s := s.queue = [] ∧ s.ready = false ∧ (∀ fd, s.conns fd = none) ∧ s.place = .wait
  step := step sockfd

def Sleeps (sockfd : Nat) (s : State) : Prop :=
  s.place = .wait ∧ ∀ fd, isReady sockfd s fd = false

def Conn.Drained (c : Conn) : Prop := c.unread = 0 ∧ c.eof = false

/-- A connection arrives before the last arrival has been reported, or accept does not take one. -/
def strandsAt (s : State) : Action → Bool
  | .connect => s.ready
  | .accept none => true
  | _ => false

def strands (e : Step) : Bool := strandsAt e.before e.action

/-! Every connection in the queue has a report to come, or is one of those that were stranded. -/

structure Kept (sockfd stranded : Nat) (s : State) : Prop where
  counted : s.queue.length = s.ready.toNat + s.place.events.count sockfd + stranded
  queued : ∀ c ∈ s.queue, ¬ c.Drained → c.ready = true
  drained : ∀ fd c, s.conns fd = some c → ¬ c.Drained →
    c.ready = true ∨ fd ∈ s.place.events ∨ s.place.reads = some fd

structure Inv (sockfd stranded : Nat) (s : State) : Prop where
  listens : s.conns sockfd = none
  kept : s.place ≠ .overrun → Kept sockfd stranded s

theorem arrives_ready (c : Conn) (n : Nat) : (c.arrives n).ready = true := rfl
theorem ends_ready (c : Conn) : c.ends.ready = true := rfl

theorem queue_modified {queue : List Conn} (queued : ∀ c ∈ queue, ¬ c.Drained → c.ready = true)
    (k : Nat) (f : Conn → Conn) (ready : ∀ c, (f c).ready = true) :
    ∀ c ∈ queue.modify k f, ¬ c.Drained → c.ready = true := by
  intro c member undrained
  obtain ⟨i, at_⟩ := List.mem_iff_getElem?.mp member
  rw [List.getElem?_modify] at at_
  split at at_
  · obtain ⟨old, -, rfl⟩ := Option.map_eq_some_iff.mp at_
    exact ready old
  · rw [Option.map_eq_map, Option.map_id_fun'] at at_
    exact queued c (List.mem_of_getElem? at_) undrained

theorem arrive_inv {sockfd stranded : Nat} {s after : State} {a : Action}
    (arrived : arrive s a = some after) (inv : Inv sockfd stranded s) :
    Inv sockfd (stranded + (strandsAt s a).toNat) after := by
  have changed (fd : Nat) (f : Conn → Conn) (ready : ∀ c, (f c).ready = true) :
      Inv sockfd stranded { s with conns := fun other =>
        if other = fd then (s.conns fd).map f else s.conns other } := by
    refine ⟨?_, fun sound => ⟨(inv.kept sound).counted, (inv.kept sound).queued, ?_⟩⟩
    · by_cases same : sockfd = fd
      · simp [← same, inv.listens]
      · simp [same, inv.listens]
    · intro other c found undrained
      simp only at found
      split at found
      · obtain ⟨old, -, rfl⟩ := Option.map_eq_some_iff.mp found
        exact Or.inl (ready old)
      · exact (inv.kept sound).drained other c found undrained
  have modified (k : Nat) (f : Conn → Conn) (ready : ∀ c, (f c).ready = true) :
      Inv sockfd stranded { s with queue := s.queue.modify k f } := by
    refine ⟨inv.listens, fun sound => ⟨?_, ?_, (inv.kept sound).drained⟩⟩
    · rw [List.length_modify]
      exact (inv.kept sound).counted
    · exact queue_modified (inv.kept sound).queued k f ready
  cases a with
  | connect =>
      simp only [arrive, Option.some.injEq] at arrived
      subst arrived
      -- a second arrival before the first is reported makes one report of both
      refine ⟨inv.listens, fun sound => ?_⟩
      obtain ⟨counted, queued, drained⟩ := inv.kept sound
      refine ⟨?_, ?_, drained⟩
      · simp only [strandsAt, List.length_append, List.length_singleton, counted]
        cases s.ready <;> simp <;> omega
      · intro c member undrained
        rcases List.mem_append.mp member with old | new
        · exact queued c old undrained
        · rw [List.mem_singleton.mp new] at undrained
          exact absurd ⟨rfl, rfl⟩ undrained
  | sendQueued k n =>
      simp only [arrive, Option.some.injEq] at arrived
      exact arrived ▸ modified k _ fun c => arrives_ready c n
  | endQueued k =>
      simp only [arrive, Option.some.injEq] at arrived
      exact arrived ▸ modified k _ ends_ready
  | send fd n =>
      simp only [arrive, Option.some.injEq] at arrived
      exact arrived ▸ changed fd _ fun c => arrives_ready c n
  | endOpen fd =>
      simp only [arrive, Option.some.injEq] at arrived
      exact arrived ▸ changed fd _ ends_ready
  | wait _ | timeout | waitFails | accept _ | recv _ | loop => cases arrived

theorem wait_inv {sockfd stranded : Nat} {s after : State} {a : Action}
    (stepped : waitStep sockfd s a = some after) (here : s.place = .wait)
    (inv : Inv sockfd stranded s) : Inv sockfd (stranded + (strandsAt s a).toNat) after := by
  have sound : s.place ≠ .overrun := by
    rw [here]
    exact Place.noConfusion
  obtain ⟨counted, queued, drained⟩ := inv.kept sound
  simp only [here, Place.events, List.count_nil, Nat.add_zero] at counted
  cases a with
  | wait events =>
      simp only [waitStep, Option.ite_none_right_eq_some, Option.some.injEq] at stepped
      obtain ⟨⟨_, nodup, _, ready⟩, rfl⟩ := stepped
      refine ⟨by simp [reported, inv.listens], fun _ => ⟨?_, queued, ?_⟩⟩
      · change s.queue.length = (s.ready && !decide (sockfd ∈ events)).toNat + events.count sockfd + _
        rw [counted, nodup.count]
        by_cases member : sockfd ∈ events
        · have was := ready sockfd member
          simp only [isReady, if_true] at was
          simp [was, member, strandsAt]
        · simp [member, strandsAt]
      · intro fd c found undrained
        obtain ⟨old, was, rfl⟩ := Option.map_eq_some_iff.mp found
        -- at the wait nothing is in hand, so what is undrained is ready
        rcases drained fd old was undrained with ready | waiting | reading
        · by_cases member : fd ∈ events
          · exact Or.inr (Or.inl member)
          · exact Or.inl (by simp [ready, member])
        · rw [here] at waiting
          exact absurd waiting List.not_mem_nil
        · rw [here] at reading
          cases reading
  | timeout =>
      simp only [waitStep, Option.some.injEq] at stepped
      exact stepped ▸ inv
  | waitFails =>
      simp only [waitStep, Option.some.injEq] at stepped
      subst stepped
      refine ⟨inv.listens, fun _ => ⟨counted, queued, fun fd c found undrained => ?_⟩⟩
      have before := drained fd c found undrained
      rwa [here] at before
  | connect | sendQueued _ _ | endQueued _ | send _ _ | endOpen _ | accept _ | recv _ | loop =>
      cases stepped

theorem serve_inv {sockfd stranded : Nat} {s after : State} {events : List Nat} {a : Action}
    (stepped : serveStep sockfd s events a = some after) (here : s.place = .serve events)
    (inv : Inv sockfd stranded s) : Inv sockfd (stranded + (strandsAt s a).toNat) after := by
  have sound : s.place ≠ .overrun := by
    rw [here]
    exact Place.noConfusion
  obtain ⟨counted, queued, drained⟩ := inv.kept sound
  simp only [here, Place.events, Place.reads, reduceCtorEq, or_false] at counted drained
  unfold serveStep at stepped
  split at stepped
  · simp only [Option.some.injEq] at stepped
    subst stepped
    refine ⟨inv.listens, fun _ => ⟨counted, queued, fun fd c found undrained => ?_⟩⟩
    exact (drained fd c found undrained).imp_right Or.inl
  · rename_i fd rest new_sockfd
    obtain ⟨rfl, stepped⟩ := Option.ite_none_right_eq_some.mp stepped
    rw [List.count_cons_self] at counted
    -- the listening socket is no connection, so the rest has the others
    have others (other : Nat) (c : Conn) (found : s.conns other = some c) (undrained : ¬ c.Drained) :
        c.ready = true ∨ other ∈ rest := by
      have apart : other ≠ fd := by
        intro same
        rw [same, inv.listens] at found
        cases found
      exact (drained other c found undrained).imp_right fun member =>
        (List.mem_cons.mp member).resolve_left apart
    cases new_sockfd with
    | none =>
        simp only [acceptConnection, Option.some.injEq] at stepped
        subst stepped
        refine ⟨inv.listens, fun _ => ⟨?_, queued, fun other c found undrained =>
          (others other c found undrained).imp_right Or.inl⟩⟩
        simp only [strandsAt, Bool.toNat_true, Place.events]
        omega
    | some new =>
        simp only [acceptConnection] at stepped
        split at stepped
        · cases stepped
        · rename_i first queue head
          simp only [Option.ite_none_right_eq_some, Option.some.injEq] at stepped
          obtain ⟨⟨apart, _⟩, rfl⟩ := stepped
          rw [head] at counted queued
          refine ⟨?_, fun _ => ⟨?_, fun c member => queued c (List.mem_cons_of_mem first member), ?_⟩⟩
          · change Function.update s.conns new (some first) fd = none
            rw [Function.update_of_ne apart.symm]
            exact inv.listens
          · simp only [strandsAt, Bool.toNat_false, Place.events]
            rw [List.length_cons] at counted
            omega
          · intro other c found undrained
            by_cases same : other = new
            · subst same
              simp only [Function.update_self, Option.some.injEq] at found
              subst found
              exact Or.inl (queued first List.mem_cons_self undrained)
            · simp only [Function.update_of_ne same] at found
              exact (others other c found undrained).imp_right Or.inl
  · rename_i fd rest
    obtain ⟨other, stepped⟩ := Option.ite_none_left_eq_some.mp stepped
    simp only [Option.some.injEq] at stepped
    subst stepped
    rw [List.count_cons_of_ne (Ne.symm (Ne.symm other))] at counted
    refine ⟨inv.listens, fun _ => ⟨counted, queued, fun conn c found undrained => ?_⟩⟩
    rcases drained conn c found undrained with ready | member
    · exact Or.inl ready
    · rcases List.mem_cons.mp member with same | later
      · exact Or.inr (Or.inr (congrArg some same.symm))
      · exact Or.inr (Or.inl later)
  · cases stepped

theorem receive_inv {sockfd stranded fd pos : Nat} {rest : List Nat} {s after : State}
    {received : Received} (stepped : receive s fd pos rest received = some after)
    (here : s.place = .read fd pos rest) (inv : Inv sockfd stranded s) :
    Inv sockfd stranded after := by
  have sound : s.place ≠ .overrun := by
    rw [here]
    exact Place.noConfusion
  obtain ⟨counted, queued, drained⟩ := inv.kept sound
  simp only [here, Place.events, Place.reads, Option.some.injEq] at counted drained
  -- what is left at another connection is yet to be reported, or later in this batch
  have others (other : Nat) (c : Conn) (found : s.conns other = some c) (undrained : ¬ c.Drained)
      (apart : other ≠ fd) : c.ready = true ∨ other ∈ rest := by
    rcases drained other c found undrained with ready | later | same
    · exact Or.inl ready
    · exact Or.inr later
    · exact absurd same.symm apart
  have closed : Inv sockfd stranded (closeConnection s fd rest) := by
    refine ⟨?_, fun _ => ⟨counted, queued, ?_⟩⟩
    · by_cases same : sockfd = fd
      · simp [closeConnection, same]
      · simp [closeConnection, Function.update_of_ne same, inv.listens]
    · intro other c found undrained
      by_cases same : other = fd
      · subst same
        simp [closeConnection] at found
      · simp only [closeConnection, Function.update_of_ne same] at found
        exact (others other c found undrained same).imp_right Or.inl
  cases received with
  | bytes len =>
      simp only [receive] at stepped
      split at stepped
      · rename_i c was
        simp only [Option.ite_none_right_eq_some, Option.some.injEq] at stepped
        obtain ⟨_, rfl⟩ := stepped
        -- bytes: the loop stays at fd, unless buf is overrun
        refine ⟨?_, ?_⟩
        · have apart : sockfd ≠ fd := by
            intro same
            rw [← same, inv.listens] at was
            cases was
          simp [Function.update_of_ne apart, inv.listens]
        · intro within
          simp only at within
          split at within
          · rename_i fits
            refine ⟨by simpa [fits, Place.events] using counted, queued, ?_⟩
            intro other d found undrained
            by_cases same : other = fd
            · exact Or.inr (Or.inr (by simp [fits, same, Place.reads]))
            · simp only [Function.update_of_ne same] at found
              simp only [fits, if_true, Place.events]
              exact (others other d found undrained same).imp_right Or.inl
          · exact absurd rfl within
      · cases stepped
  | again =>
      simp only [receive] at stepped
      split at stepped
      · rename_i c was
        simp only [Option.ite_none_right_eq_some, Option.some.injEq] at stepped
        obtain ⟨empty, rfl⟩ := stepped
        refine ⟨inv.listens, fun _ => ⟨counted, queued, fun other d found undrained => ?_⟩⟩
        -- EAGAIN: nothing is left at fd
        have apart : other ≠ fd := by
          intro same
          rw [same, was, Option.some.injEq] at found
          exact undrained (found ▸ empty)
        exact (others other d found undrained apart).imp_right Or.inl
      · cases stepped
  | ended =>
      simp only [receive] at stepped
      split at stepped
      · simp only [Option.ite_none_right_eq_some, Option.some.injEq] at stepped
        exact stepped.2 ▸ closed
      · cases stepped
  | failed =>
      simp only [receive, Option.some.injEq] at stepped
      exact stepped ▸ closed

theorem step_inv {sockfd stranded : Nat} (e : Step) (stepped : (machine sockfd).Stepped e)
    (inv : Inv sockfd stranded e.before) :
    Inv sockfd (stranded + (strands e).toNat) e.after := by
  obtain ⟨s, a, output, after⟩ := e
  simp only [Machine.Stepped, machine, step, Option.map_eq_some_iff, Prod.mk.injEq] at stepped
  obtain ⟨result, moved, rfl, -⟩ := stepped
  rcases Option.or_eq_some_iff.mp moved with arrived | ⟨-, served⟩
  · exact arrive_inv arrived inv
  · simp only [serverStep] at served
    split at served
    · rename_i here
      exact wait_inv served here inv
    · rename_i events here
      exact serve_inv served here inv
    · rename_i fd pos rest here
      split at served
      · exact receive_inv served here inv
      · cases served
    · cases served

theorem start_inv {sockfd : Nat} (s : State) (first : (machine sockfd).start s) : Inv sockfd 0 s := by
  obtain ⟨queue, ready, conns, here⟩ := first
  refine ⟨conns sockfd, fun _ => ⟨?_, ?_, ?_⟩⟩
  · rw [queue, ready, here]
    rfl
  · intro c member
    rw [queue] at member
    exact absurd member List.not_mem_nil
  · intro fd c found
    rw [conns fd] at found
    cases found

theorem run_inv {sockfd : Nat} {trace : List Step} {s : State}
    (run : (machine sockfd).Run trace s) : Inv sockfd (trace.countP strands) s := by
  refine run.history (C := fun _ => True) (I := fun trace s => Inv sockfd (trace.countP strands) s)
    start_inv (fun trace e stepped _ inv => ?_) fun _ _ => trivial
  have next := step_inv e stepped inv
  rw [List.countP_append, List.countP_singleton]
  cases lost : strands e
  · simpa [lost] using next
  · simpa [lost] using next

/-- Where the server sleeps, nothing is left to do exactly when no connection was stranded: those
    that are open have always been read to the end of what there is. -/
theorem nothing_stranded_iff (sockfd : Nat) (trace : List Step) (s : State)
    (run : (machine sockfd).Run trace s) (sleeps : Sleeps sockfd s) :
    (s.queue = [] ∧ ∀ fd c, s.conns fd = some c → c.unread = 0 ∧ c.eof = false) ↔
      ∀ e ∈ trace, strands e = false := by
  obtain ⟨here, none_⟩ := sleeps
  have inv := run_inv run
  have sound : s.place ≠ .overrun := by
    rw [here]
    exact Place.noConfusion
  obtain ⟨counted, -, drained⟩ := inv.kept sound
  have unready := none_ sockfd
  simp only [isReady, if_true] at unready
  have all : s.queue.length = trace.countP strands := by
    simpa [unready, here, Place.events] using counted
  have read : ∀ fd c, s.conns fd = some c → c.unread = 0 ∧ c.eof = false := by
    intro fd c found
    by_contra undrained
    rcases drained fd c found undrained with ready | later | reading
    · have apart : fd ≠ sockfd := by
        intro same
        rw [same, inv.listens] at found
        cases found
      have quiet := none_ fd
      simp only [isReady, if_neg apart, found, Option.any_some] at quiet
      exact Bool.noConfusion (quiet.symm.trans ready)
    · rw [here] at later
      exact absurd later List.not_mem_nil
    · rw [here] at reading
      cases reading
  rw [and_iff_left read, ← List.length_eq_zero_iff, all, List.countP_eq_zero]
  simp only [Bool.not_eq_true]

/-! One connection at a time, and two at once. -/

def begun : State := ⟨[], false, fun _ => none, .wait⟩

theorem begun_start : (machine 3).start begun := ⟨rfl, rfl, fun _ => rfl, rfl⟩

theorem begun_sleeps {s : State} (here : s.place = .wait) (listens : s.ready = false)
    (quiet : ∀ fd c, s.conns fd = some c → c.ready = false) : Sleeps 3 s := by
  refine ⟨here, fun fd => ?_⟩
  unfold isReady
  split
  · exact listens
  · cases found : s.conns fd with
    | none => rfl
    | some c => exact quiet fd c found

def oneConnects : List Action := [.connect, .wait [3], .accept (some 4), .loop]
def twoConnect : List Action := [.connect, .connect, .wait [3], .accept (some 4), .loop]

theorem first_sleeps (queue : List Conn) :
    Sleeps 3 ⟨queue, false, Function.update (fun _ => none) 4 (some ⟨0, false, false⟩), .wait⟩ := by
  refine begun_sleeps rfl rfl fun fd c found => ?_
  change Function.update (fun _ => none) 4 (some ⟨0, false, false⟩) fd = some c at found
  by_cases same : fd = 4
  · rw [same, Function.update_self, Option.some.injEq] at found
    rw [← found]
  · rw [Function.update_of_ne same] at found
    cases found

theorem one_taken : ∃ (trace : List Step) (s : State), (machine 3).Run trace s ∧ Sleeps 3 s ∧
    (∀ e ∈ trace, strands e = false) ∧ s.queue = [] := by
  have run := Machine.replay_run (Machine.Run.start begun_start) oneConnects _ _ rfl
  have sleeps := first_sleeps []
  have none_ := (nothing_stranded_iff 3 _ _ run sleeps).mpr (by decide)
  exact ⟨_, _, run, sleeps, by decide, none_.1⟩

theorem second_stranded : ∃ (trace : List Step) (s : State), (machine 3).Run trace s ∧ Sleeps 3 s ∧
    s.queue.length = 1 := by
  have run := Machine.replay_run (Machine.Run.start begun_start) twoConnect _ _ rfl
  exact ⟨_, _, run, first_sleeps [⟨0, false, false⟩], rfl⟩

end NetworkProgramming.TcpEpoll
