import NetworkProgramming.DgEcho01

/-!
The queue of the signal-driven server between any two steps: datagrams are
numbered as they are received, and the slots hold those that have not been
taken off.
-/

namespace NetworkProgramming.DgEcho01

/-- A datagram has been sent that `iget` is still at, or that `nqueue` still counts. -/
def Place.ahead : Place → Nat
  | .advance => 1
  | _ => 0

def Place.uncounted : Place → Nat
  | .advance | .block | .decrement => 1
  | _ => 0

def Place.busy : Place → Bool
  | .unblock | .send | .advance | .block | .decrement => true
  | _ => false

def slots (s : State) : Nat → Datagram := fun k => (s.dg k).datagram

/-- `R` has been received, `S` sent, and `T` datagrams taken off. -/
structure Inv (clilen : Nat) (R S : List Datagram) (T : Nat) (s : State) : Prop where
  put : s.iput = R.length % QSIZE
  got : s.iget = (S.length - s.place.ahead) % QSIZE
  off : T + s.place.uncounted = S.length
  stored : R.length = T + s.nqueue
  full : s.nqueue ≤ QSIZE
  work : s.place.busy = true → 0 < s.nqueue
  held : Ring.Holds QSIZE (slots s) R T
  order : S = R.take S.length
  /-- What the handler that runs has read is still on the queue. -/
  reading : ∀ nread, s.handler = some nread → nread ≤ s.nqueue
  asleep : s.place = .suspend → s.handler = none → s.nqueue = 0
  unread : s.socket ≠ [] → s.sigio = true ∨ s.handler.isSome = true
  known : ∀ d ∈ s.socket, d.sender.length ≤ clilen

theorem slots_update (s : State) (slot : Nat) (ptr : DG) :
    (fun k => (Function.update s.dg slot ptr k).datagram) =
      Function.update (slots s) slot ptr.datagram := by
  funext k
  by_cases same : k = slot
  · rw [same, Function.update_self, Function.update_self]
  · rw [Function.update_of_ne same, Function.update_of_ne same, slots]

theorem resumed_place (place : Place) : place.resumed.ahead = place.ahead ∧
    place.resumed.uncounted = place.uncounted ∧ place.resumed.busy = place.busy ∧
    place.resumed ≠ .suspend := by
  cases place <;> decide

section

variable {clilen T : Nat} {R S : List Datagram} {s after : State} {output : Event}

/-- The slot that the handler writes to is that of no datagram that has not been sent. -/
theorem slot_free {k : Nat} (inv : Inv clilen R S T s) (room : s.nqueue < QSIZE)
    (unsent : S.length ≤ k) (known : k < R.length) : k % QSIZE ≠ s.iput := by
  have stored := inv.stored
  have off := inv.off
  rw [inv.put]
  exact Ring.cell_ne QSIZE k _ known (by omega)

theorem between (inv : Inv clilen R S T s) : s.iput = (s.iget + s.waiting) % QSIZE := by
  obtain ⟨put, got, off, stored, full, work, -, -, -, -, -, -⟩ := inv
  rw [put, got]
  unfold State.waiting
  cases here : s.place <;> rw [here] at off work <;>
    simp only [Place.ahead, Place.uncounted, Place.busy, QSIZE, forall_const] at * <;> omega

theorem arrive_inv (d : Datagram) (fits : d.sender.length ≤ clilen) (inv : Inv clilen R S T s) :
    Inv clilen R S T { s with socket := s.socket ++ [d], sigio := true } :=
  { inv with
    unread := fun _ => Or.inl rfl
    known := by
      intro other member
      rcases List.mem_append.mp member with old | new
      · exact inv.known other old
      · rw [List.mem_singleton.mp new]
        exact fits }

theorem deliver_inv (inv : Inv clilen R S T s) :
    Inv clilen R S T { s with handler := some 0, sigio := false } :=
  { inv with
    reading := by
      intro nread same
      rw [← Option.some.inj same]
      exact Nat.zero_le _
    asleep := fun _ none_ => absurd none_ (Option.some_ne_none 0)
    unread := fun _ => Or.inr rfl }

theorem resumed_inv (inv : Inv clilen R S T s) :
    Inv clilen R S T { s with place := s.place.resumed } := by
  obtain ⟨ahead, uncounted, busy, awake⟩ := resumed_place s.place
  exact { inv with
    got := by rw [ahead]; exact inv.got
    off := by rw [uncounted]; exact inv.off
    work := by rw [busy]; exact inv.work
    asleep := fun asleep => absurd asleep awake }

theorem length_held (inv : Inv clilen R S T s) (room : R.length < QSIZE + T) :
    Ring.Holds QSIZE (fun k => (Function.update s.dg s.iput
      { s.dg s.iput with dg_salen := clilen } k).datagram) R T := by
  rw [slots_update, inv.put]
  exact inv.held.free room _

theorem sig_io_inv {nread : Nat} (inv : Inv clilen R S T s) (runs : s.handler = some nread)
    (turned : sig_io clilen s nread = (after, output)) :
    Inv clilen (R ++ output.arrival.toList) (S ++ output.echo.toList)
      (T + if output = .taken then 1 else 0) after := by
  unfold sig_io at turned
  split at turned
  -- the queue is full, and the process ends
  · obtain ⟨rfl, rfl⟩ := Prod.mk.inj turned
    change Inv clilen (R ++ []) (S ++ []) T _
    rw [List.append_nil, List.append_nil]
    exact { inv with }
  · rename_i room
    have free : R.length < QSIZE + T := by
      have stored := inv.stored
      omega
    split at turned
    -- EWOULDBLOCK: the handler returns with nothing left at the socket
    · rename_i empty
      obtain ⟨rfl, rfl⟩ := Prod.mk.inj turned
      change Inv clilen (R ++ []) (S ++ []) T _
      rw [List.append_nil, List.append_nil]
      obtain ⟨ahead, uncounted, busy, awake⟩ := resumed_place s.place
      exact { inv with
        got := by rw [ahead]; exact inv.got
        off := by rw [uncounted]; exact inv.off
        work := by rw [busy]; exact inv.work
        held := length_held inv free
        reading := fun _ none_ => absurd none_.symm (Option.some_ne_none _)
        asleep := fun asleep => absurd asleep awake
        unread := fun some_ => absurd empty some_ }
    -- the datagram goes behind those received so far
    · rename_i d rest queued
      obtain ⟨rfl, rfl⟩ := Prod.mk.inj turned
      have fits : d.sender.length ≤ clilen := inv.known d (by rw [queued]; exact List.mem_cons_self)
      have read := inv.reading nread runs
      have held : Ring.Holds QSIZE (fun k => (Function.update s.dg s.iput
          (recvfrom { s.dg s.iput with dg_salen := clilen } d) k).datagram)
          (R ++ [⟨d.sender, d.data.take MAXDG⟩]) T := by
        rw [slots_update, inv.put, recvfrom_datagram _ d fits]
        exact inv.held.put free _
      have shorter : S.length ≤ R.length := by
        rw [inv.order, List.length_take]
        exact Nat.min_le_right _ _
      change Inv clilen (R ++ [_]) (S ++ []) T _
      rw [List.append_nil]
      exact {
        put := by
          rw [List.length_append]
          change Ring.next QSIZE s.iput = _
          rw [inv.put]
          exact Ring.next_mod QSIZE _ (by decide)
        got := inv.got
        off := inv.off
        stored := by
          have stored := inv.stored
          change (R ++ [_]).length = T + (s.nqueue + 1)
          rw [List.length_append, List.length_singleton]
          omega
        full := Nat.lt_of_not_le room
        work := fun _ => Nat.succ_pos _
        held := held
        order := by
          rw [List.take_append_of_le_length shorter]
          exact inv.order
        reading := by
          intro n same
          rw [← Option.some.inj same]
          exact Nat.succ_le_succ read
        asleep := fun _ none_ => absurd none_ (Option.some_ne_none _)
        unread := fun _ => Or.inr rfl
        known := fun other member =>
          inv.known other (by rw [queued]; exact List.mem_cons_of_mem d member) }

theorem send_inv (inv : Inv clilen R S T s) (here : s.place = .send) :
    Inv clilen R (S ++ [(s.dg s.iget).datagram]) T { s with place := .advance } := by
  have off := inv.off
  have got := inv.got
  have positive := inv.work (by rw [here]; rfl)
  simp only [here, Place.ahead, Place.uncounted, Nat.add_zero, Nat.sub_zero] at off got
  have stored := inv.stored
  have next : R[T]? = some ((s.dg s.iget).datagram) := by
    rw [got, ← off]
    exact inv.held T (Nat.le_refl T) (by omega)
  have longer : (S ++ [(s.dg s.iget).datagram]).length = S.length + 1 := by
    rw [List.length_append, List.length_singleton]
  exact { inv with
    got := by
      rw [longer]
      exact got
    off := by
      rw [longer]
      exact congrArg (· + 1) off
    work := fun _ => positive
    order := by
      rw [longer, List.take_add_one, ← inv.order, ← off, next]
      rfl
    asleep := fun asleep => by cases asleep }

theorem decrement_inv (inv : Inv clilen R S T s) (none_ : s.handler = none)
    (here : s.place = .decrement) :
    Inv clilen R S (T + 1) { s with nqueue := s.nqueue - 1, place := .test } := by
  have off := inv.off
  have got := inv.got
  have positive := inv.work (by rw [here]; rfl)
  have stored := inv.stored
  have full := inv.full
  simp only [here, Place.ahead, Place.uncounted, Nat.sub_zero] at off got
  exact { inv with
    got := got
    off := off
    stored := by
      change R.length = T + 1 + (s.nqueue - 1)
      omega
    full := (Nat.sub_le _ _).trans full
    work := fun busy => by cases busy
    held := (inv.held.get (by omega)).2
    reading := fun nread runs => absurd (none_.symm.trans runs) (Option.some_ne_none nread).symm
    asleep := fun asleep => by cases asleep }

theorem advance_inv (inv : Inv clilen R S T s) (here : s.place = .advance) :
    Inv clilen R S T { s with iget := Ring.next QSIZE s.iget, place := .block } := by
  have off := inv.off
  have got := inv.got
  have positive := inv.work (by rw [here]; rfl)
  simp only [here, Place.ahead, Place.uncounted] at off got
  exact { inv with
    got := by
      change Ring.next QSIZE s.iget = S.length % QSIZE
      rw [got, Ring.next_mod QSIZE _ (by decide), Nat.sub_add_cancel (by omega)]
    off := off
    work := fun _ => positive
    asleep := fun asleep => by cases asleep }

theorem moved_inv (inv : Inv clilen R S T s) (place : Place) (ahead : place.ahead = s.place.ahead)
    (uncounted : place.uncounted = s.place.uncounted) (work : place.busy = true → 0 < s.nqueue)
    (asleep : place = .suspend → s.nqueue = 0) : Inv clilen R S T { s with place := place } :=
  { inv with
    got := by rw [ahead]; exact inv.got
    off := by rw [uncounted]; exact inv.off
    work := work
    asleep := fun here _ => asleep here }

theorem dg_echo_inv (inv : Inv clilen R S T s) (none_ : s.handler = none)
    (stepped : dg_echo s = some (after, output)) :
    Inv clilen (R ++ output.arrival.toList) (S ++ output.echo.toList)
      (T + if output = .taken then 1 else 0) after := by
  have quiet {next : State} (kept : Inv clilen R S T next) :
      Inv clilen (R ++ []) (S ++ []) T next := by
    rwa [List.append_nil, List.append_nil]
  unfold dg_echo at stepped
  split at stepped
  · rename_i here
    obtain ⟨rfl, rfl⟩ := Prod.mk.inj (Option.some.inj stepped)
    exact quiet (moved_inv inv .test (by rw [here]; rfl) (by rw [here]; rfl)
      (fun busy => by cases busy) fun asleep => by cases asleep)
  · rename_i here
    obtain ⟨rfl, rfl⟩ := Prod.mk.inj (Option.some.inj stepped)
    by_cases empty : s.nqueue = 0
    · rw [if_pos empty]
      exact quiet (moved_inv inv .suspend (by rw [here]; rfl) (by rw [here]; rfl)
        (fun busy => by cases busy) fun _ => empty)
    · rw [if_neg empty]
      exact quiet (moved_inv inv .unblock (by rw [here]; rfl) (by rw [here]; rfl)
        (fun _ => Nat.pos_of_ne_zero empty) fun asleep => by cases asleep)
  · cases stepped
  · rename_i here
    obtain ⟨rfl, rfl⟩ := Prod.mk.inj (Option.some.inj stepped)
    exact quiet (moved_inv inv .send (by rw [here]; rfl) (by rw [here]; rfl)
      (fun _ => inv.work (by rw [here]; rfl)) fun asleep => by cases asleep)
  · rename_i here
    obtain ⟨rfl, rfl⟩ := Prod.mk.inj (Option.some.inj stepped)
    change Inv clilen (R ++ []) (S ++ [_]) T _
    rw [List.append_nil]
    -- the oldest datagram of the queue is echoed
    exact send_inv inv here
  · rename_i here
    obtain ⟨rfl, rfl⟩ := Prod.mk.inj (Option.some.inj stepped)
    exact quiet (advance_inv inv here)
  · rename_i here
    obtain ⟨rfl, rfl⟩ := Prod.mk.inj (Option.some.inj stepped)
    exact quiet (moved_inv inv .decrement (by rw [here]; rfl) (by rw [here]; rfl)
      (fun _ => inv.work (by rw [here]; rfl)) fun asleep => by cases asleep)
  · rename_i here
    obtain ⟨rfl, rfl⟩ := Prod.mk.inj (Option.some.inj stepped)
    change Inv clilen (R ++ []) (S ++ []) (T + 1) _
    rw [List.append_nil, List.append_nil]
    exact decrement_inv inv none_ here

end

theorem step_inv {clilen T : Nat} {R S : List Datagram} (e : Step)
    (stepped : (machine clilen).Stepped e) (inv : Inv clilen R S T e.before) :
    Inv clilen (R ++ e.output.arrival.toList) (S ++ e.output.echo.toList)
      (T + if e.output = .taken then 1 else 0) e.after := by
  obtain ⟨s, a, output, after⟩ := e
  simp only [Machine.Stepped, machine, step, Option.ite_none_left_eq_some] at stepped
  obtain ⟨_, stepped⟩ := stepped
  -- the outputs of all steps but those of the handler and the main loop
  have unchanged {next : State} (kept : Inv clilen R S T next) :
      Inv clilen (R ++ []) (S ++ []) (T + 0) next := by
    rwa [List.append_nil, List.append_nil]
  cases a with
  | arrive d =>
      simp only [Option.ite_none_right_eq_some, Option.some.injEq, Prod.mk.injEq] at stepped
      obtain ⟨fits, rfl, rfl⟩ := stepped
      exact unchanged (arrive_inv d fits inv)
  | sigio =>
      simp only [Option.ite_none_right_eq_some, Option.some.injEq, Prod.mk.injEq] at stepped
      obtain ⟨_, rfl, rfl⟩ := stepped
      exact unchanged (deliver_inv inv)
  | sighup =>
      simp only [Option.ite_none_right_eq_some, Option.some.injEq, Prod.mk.injEq] at stepped
      obtain ⟨_, rfl, rfl⟩ := stepped
      exact unchanged (resumed_inv inv)
  | read =>
      simp only at stepped
      split at stepped
      · rename_i nread runs
        exact sig_io_inv inv runs (Option.some.inj stepped)
      · cases stepped
  | recvFails =>
      simp only [Option.ite_none_right_eq_some, Option.some.injEq, Prod.mk.injEq] at stepped
      obtain ⟨⟨_, room⟩, rfl, rfl⟩ := stepped
      have stored : R.length = T + s.nqueue := inv.stored
      exact unchanged { inv with held := length_held inv (by omega) }
  | main =>
      simp only [Option.ite_none_right_eq_some] at stepped
      obtain ⟨none_, turned⟩ := stepped
      exact dg_echo_inv inv none_ turned
  | sendFails =>
      simp only [Option.ite_none_right_eq_some, Option.some.injEq, Prod.mk.injEq] at stepped
      obtain ⟨_, rfl, rfl⟩ := stepped
      exact unchanged { inv with }

theorem start_inv {clilen : Nat} (s : State) (first : (machine clilen).start s) :
    Inv clilen [] [] 0 s := by
  obtain ⟨iget, iput, nqueue, here, none_, -, socket, -⟩ := first
  exact {
    put := iput
    got := by rw [iget, here]; rfl
    off := by rw [here]; rfl
    stored := by rw [nqueue]; rfl
    full := by rw [nqueue]; exact Nat.zero_le _
    work := fun busy => by rw [here] at busy; cases busy
    held := Ring.holds_nothing QSIZE _
    order := rfl
    reading := fun nread runs => absurd (none_.symm.trans runs) (Option.some_ne_none nread).symm
    asleep := fun asleep => by rw [here] at asleep; cases asleep
    unread := fun some_ => absurd socket some_
    known := fun d member => by rw [socket] at member; exact absurd member List.not_mem_nil }

theorem run_inv {clilen : Nat} {trace : List Step} {s : State}
    (run : (machine clilen).Run trace s) :
    Inv clilen (received trace) (sent trace) (taken trace) s := by
  refine run.history (C := fun _ => True)
    (I := fun trace s => Inv clilen (received trace) (sent trace) (taken trace) s) start_inv
    (fun trace e stepped _ inv => ?_) fun _ _ => trivial
  rw [received_snoc, sent_snoc, taken_snoc]
  exact step_inv e stepped inv

theorem sig_io_takes {clilen nread : Nat} (s after : State) (output : Event)
    (turned : sig_io clilen s nread = (after, output)) :
    output.arrival.toList ++ after.socket.map Datagram.cut = s.socket.map Datagram.cut := by
  unfold sig_io at turned
  split at turned
  · cases turned
    rfl
  · split at turned
    · cases turned
      rfl
    · rename_i d rest queued
      cases turned
      rw [queued]
      rfl

theorem step_takes {clilen : Nat} (e : Step) (stepped : (machine clilen).Stepped e) :
    e.output.arrival.toList ++ e.after.socket.map Datagram.cut =
      e.before.socket.map Datagram.cut ++ e.action.arrival.toList := by
  obtain ⟨s, a, output, after⟩ := e
  simp only [Machine.Stepped, machine, step, Option.ite_none_left_eq_some] at stepped
  obtain ⟨_, stepped⟩ := stepped
  dsimp only
  cases a with
  | arrive d =>
      simp only [Option.ite_none_right_eq_some, Option.some.injEq, Prod.mk.injEq] at stepped
      obtain ⟨_, rfl, rfl⟩ := stepped
      simp [Event.arrival, Action.arrival]
  | read =>
      simp only at stepped
      split at stepped
      · rw [sig_io_takes s after output (Option.some.inj stepped)]
        simp [Action.arrival]
      · cases stepped
  | main =>
      simp only [Option.ite_none_right_eq_some] at stepped
      obtain ⟨_, turned⟩ := stepped
      unfold dg_echo at turned
      split at turned <;> cases turned <;> simp [Event.arrival, Action.arrival]
  | sigio | sighup | recvFails | sendFails =>
      simp only [Option.ite_none_right_eq_some, Option.some.injEq, Prod.mk.injEq] at stepped
      obtain ⟨_, rfl, rfl⟩ := stepped
      simp [Event.arrival, Action.arrival]

theorem run_arrived {clilen : Nat} {trace : List Step} {s : State}
    (run : (machine clilen).Run trace s) :
    arrived trace = received trace ++ s.socket.map Datagram.cut := by
  refine run.history (C := fun _ => True)
    (I := fun trace s => arrived trace = received trace ++ s.socket.map Datagram.cut)
    (fun s first => ?_) (fun trace e stepped _ before => ?_) fun _ _ => trivial
  · obtain ⟨_, _, _, _, _, _, socket, _⟩ := first
    rw [socket]
    rfl
  · rw [arrived_snoc, received_snoc, before, List.append_assoc, List.append_assoc,
      step_takes e stepped]

/-- A step writes to no slot of an unsent datagram, counts up to QSIZE, and ends the process when
QSIZE datagrams are on the queue. -/
structure Sound (pre : List Step) (e : Step) : Prop where
  spared : ∀ slot, e.output.writes = some slot → ∀ k, (sent pre).length ≤ k →
    k < (received pre).length → k % QSIZE ≠ slot
  histogram : ∀ slot nread, e.output = .counted slot nread → nread ≤ QSIZE
  overflow : e.output = .overflow → e.before.nqueue = QSIZE ∧ (queued pre).length = QSIZE

theorem sig_io_sound {clilen nread : Nat} {pre : List Step} {e : Step}
    (inv : Inv clilen (received pre) (sent pre) (taken pre) e.before)
    (runs : e.before.handler = some nread)
    (turned : sig_io clilen e.before nread = (e.after, e.output)) : Sound pre e := by
  unfold sig_io at turned
  split at turned
  · rename_i past
    have output := (Prod.mk.inj turned).2
    refine ⟨fun slot writes => ?_, fun slot nread counted => ?_, fun _ => ?_⟩
    · rw [← output] at writes
      cases writes
    · rw [← output] at counted
      cases counted
    · have exact_ : e.before.nqueue = QSIZE := Nat.le_antisymm inv.full past
      have stored := inv.stored
      refine ⟨exact_, ?_⟩
      rw [queued, List.length_drop]
      omega
  · rename_i room
    have free (k : Nat) (unsent : (sent pre).length ≤ k) (known : k < (received pre).length) :
        k % QSIZE ≠ e.before.iput := slot_free inv (Nat.lt_of_not_le room) unsent known
    split at turned
    · have output := (Prod.mk.inj turned).2
      refine ⟨fun slot writes => ?_, fun slot counted same => ?_, fun past => ?_⟩
      · rw [← output] at writes
        cases writes
        exact free
      · rw [← output] at same
        cases same
        exact (inv.reading nread runs).trans inv.full
      · rw [← output] at past
        cases past
    · have output := (Prod.mk.inj turned).2
      refine ⟨fun slot writes => ?_, fun slot counted same => ?_, fun past => ?_⟩
      · rw [← output] at writes
        cases writes
        exact free
      · rw [← output] at same
        cases same
      · rw [← output] at past
        cases past

theorem sound_of {pre : List Step} {e : Step} (writes : e.output.writes = none)
    (going : e.output ≠ .overflow) : Sound pre e := by
  refine ⟨fun slot some_ => ?_, fun slot nread counted => ?_, fun past => absurd past going⟩
  · exact absurd (writes.symm.trans some_) (Option.some_ne_none slot).symm
  · rw [counted] at writes
    cases writes

theorem dg_echo_output {s after : State} {output : Event}
    (stepped : dg_echo s = some (after, output)) :
    output.writes = none ∧ output ≠ .overflow := by
  unfold dg_echo at stepped
  split at stepped <;> cases stepped <;> exact ⟨rfl, Event.noConfusion⟩

theorem step_sound {clilen : Nat} (pre : List Step) (e : Step)
    (run : (machine clilen).Run pre e.before) (stepped : (machine clilen).Stepped e) :
    Sound pre e := by
  have inv := run_inv run
  obtain ⟨s, a, output, after⟩ := e
  simp only [Machine.Stepped, machine, step, Option.ite_none_left_eq_some] at stepped
  obtain ⟨_, stepped⟩ := stepped
  cases a with
  | read =>
      simp only at stepped
      split at stepped
      · rename_i nread runs
        exact sig_io_sound inv runs (Option.some.inj stepped)
      · cases stepped
  | main =>
      simp only [Option.ite_none_right_eq_some] at stepped
      obtain ⟨writes, going⟩ := dg_echo_output stepped.2
      exact sound_of writes going
  | recvFails =>
      simp only [Option.ite_none_right_eq_some, Option.some.injEq, Prod.mk.injEq] at stepped
      obtain ⟨⟨_, room⟩, _, rfl⟩ := stepped
      refine ⟨fun slot writes => ?_, fun _ _ counted => ?_, fun past => ?_⟩
      · cases writes
        exact fun k unsent known => slot_free inv room unsent known
      · cases counted
      · cases past
  | arrive _ | sigio | sighup | sendFails =>
      simp only [Option.ite_none_right_eq_some, Option.some.injEq, Prod.mk.injEq] at stepped
      obtain ⟨_, _, rfl⟩ := stepped
      exact sound_of rfl Event.noConfusion

theorem idle_sent {clilen T : Nat} {R S : List Datagram} {s : State} (inv : Inv clilen R S T s)
    (idle : s.nqueue = 0) : S = R := by
  have off := inv.off
  have stored := inv.stored
  have order := inv.order
  rwa [List.take_of_length_le (by omega)] at order

/-! The main loop gets on until nothing is on the queue. -/

def Place.rank : Place → Nat
  | .setup => 7
  | .test | .suspend => 6
  | .unblock => 5
  | .send => 4
  | .advance => 3
  | .block => 2
  | .decrement => 1

def remaining (s : State) : Nat :=
  if s.exited = true then 0
  else (if s.handler.isSome then 20 * s.socket.length + 1 else 0) +
    if s.nqueue = 0 then 0 else 8 * s.nqueue + s.place.rank

def Works (e : Step) : Prop := e.action = .read ∨ e.action = .main

theorem read_lowers {clilen nread : Nat} {s : State} (going : s.exited = false)
    (runs : s.handler = some nread) : remaining (sig_io clilen s nread).1 < remaining s := by
  have rank : s.place.rank ≤ 7 := by cases s.place <;> decide
  have resumed : s.place.resumed.rank = s.place.rank := by cases s.place <;> rfl
  unfold sig_io
  split
  · simp only [remaining, going, runs, if_true, Option.isSome_some, Bool.false_eq_true, if_false]
    omega
  · split
    · rename_i empty
      simp [remaining, going, runs, empty, resumed]
    · rename_i d rest queued
      simp only [remaining, going, runs, queued, List.length_cons, Option.isSome_some, if_true,
        Bool.false_eq_true, if_false]
      split <;> split <;> omega

theorem main_lowers {s : State} (going : s.exited = false) (none_ : s.handler = none)
    (some_ : s.nqueue ≠ 0) (awake : s.place ≠ .suspend) :
    ∃ next, dg_echo s = some next ∧ remaining next.1 < remaining s := by
  unfold dg_echo
  cases here : s.place with
  | suspend => exact absurd here awake
  | decrement =>
      refine ⟨_, rfl, ?_⟩
      simp only [remaining, going, none_, here, Place.rank, Option.isSome_none, Bool.false_eq_true,
        if_false, if_neg some_]
      split <;> omega
  | test => exact ⟨_, rfl, by simp [remaining, going, none_, here, some_, Place.rank]⟩
  | setup | unblock | send | advance | block =>
      exact ⟨_, rfl, by simp [remaining, going, none_, here, some_, Place.rank]⟩

theorem works_on {clilen : Nat} (trace : List Step) (s : State) (run : (machine clilen).Run trace s)
    (more : remaining s ≠ 0) : ∃ e : Step, e.before = s ∧ (machine clilen).Stepped e ∧ Works e ∧
      remaining e.after < remaining s := by
  have inv := run_inv run
  have going : s.exited = false := by
    cases exited : s.exited with
    | true => exact absurd (by simp [remaining, exited]) more
    | false => rfl
  cases runs : s.handler with
  | some nread =>
      have turn : (machine clilen).Stepped
          ⟨s, .read, (sig_io clilen s nread).2, (sig_io clilen s nread).1⟩ := by
        simp [Machine.Stepped, machine, step, going, runs]
      exact ⟨_, rfl, turn, Or.inl rfl, read_lowers going runs⟩
  | none =>
      have some_ : s.nqueue ≠ 0 := by
        intro idle
        exact more (by simp [remaining, runs, idle])
      have awake : s.place ≠ .suspend := fun asleep => some_ (inv.asleep asleep runs)
      obtain ⟨next, stepped, lower⟩ := main_lowers going runs some_ awake
      have turn : (machine clilen).Stepped ⟨s, .main, next.2, next.1⟩ := by
        simp [Machine.Stepped, machine, step, going, runs, stepped]
      exact ⟨_, rfl, turn, Or.inr rfl, lower⟩

/-- The indices, the slots, the order of the echoes, which is that of the arrivals, and where the
main loop sleeps. Unless the process ends, what has been received is sent by statements of its own. -/
theorem dg_echo_queue (clilen : Nat) (trace : List Step) (s : State)
    (run : (machine clilen).Run trace s) :
    s.iput = (s.iget + s.waiting) % QSIZE ∧
      sent trace <+: received trace ∧
      arrived trace = received trace ++ s.socket.map Datagram.cut ∧
      (∀ pre e post, trace = pre ++ e :: post → Sound pre e) ∧
      (Sleeps s → s.nqueue = 0 ∧ (s.socket ≠ [] → s.sigio = true) ∧ sent trace = received trace) ∧
      ∃ (more : List Step) (last : State), (machine clilen).Run (trace ++ more) last ∧
        (∀ e ∈ more, Works e) ∧
        (last.exited = true ∨ sent (trace ++ more) = received (trace ++ more)) := by
  have inv := run_inv run
  refine ⟨between inv, ?_, run_arrived run, ?_, ?_, ?_⟩
  · rw [inv.order]
    exact List.take_prefix _ _
  · intro pre e post whole
    subst whole
    exact step_sound pre e run.split.1 run.split.2
  · rintro ⟨asleep, none_, -⟩
    have idle := inv.asleep asleep none_
    refine ⟨idle, fun some_ => ?_, idle_sent inv idle⟩
    rcases inv.unread some_ with pending | runs
    · exact pending
    · rw [none_] at runs
      cases runs
  · obtain ⟨more, last, longer, works, -, done⟩ := run.drain (C := Works) (I := fun _ => True)
      remaining (fun trace s run _ more => by
        obtain ⟨e, before, stepped, works, lower⟩ := works_on trace s run more
        exact ⟨e, before, stepped, works, trivial, lower⟩) trivial
    refine ⟨more, last, longer, works, ?_⟩
    cases exited : last.exited with
    | true => exact Or.inl rfl
    | false =>
        refine Or.inr (idle_sent (run_inv longer) ?_)
        by_contra some_
        simp [remaining, exited, some_] at done

/-! Two datagrams, the second of which comes while the first is being sent. -/

def begun : State where
  dg := fun _ => ⟨[], 0, [], 16⟩
  cntread := fun _ => 0
  iget := 0
  iput := 0
  nqueue := 0
  place := .setup
  handler := none
  sigio := false
  socket := []
  exited := false

theorem begun_start : (machine 16).start begun := ⟨rfl, rfl, rfl, rfl, rfl, rfl, rfl, rfl⟩

def first : Datagram := ⟨[1], [104, 105]⟩
def second : Datagram := ⟨[2], [111, 107]⟩

theorem two_echoed : ∃ (trace : List Step) (s : State), (machine 16).Run trace s ∧ Sleeps s ∧
    s.iget = 2 ∧ sent trace = [first, second] ∧ sent trace = received trace ∧
    arrived trace = received trace := by
  obtain ⟨trace, s, run, checked⟩ := Machine.run_of_check begun_start
    ([.main, .main, .arrive first, .sigio, .read, .read, .main, .main, .main, .arrive second,
      .sigio, .read, .read] ++ List.replicate 10 .main)
    (fun r => decide (r.2.place = .suspend ∧ r.2.handler = none ∧ r.2.exited = false ∧
      r.2.iget = 2 ∧ sent r.1 = [first, second] ∧ r.2.socket = []))
    (by decide +kernel)
  obtain ⟨asleep, none_, going, iget, echoed, drained⟩ := of_decide_eq_true checked
  have sleeps : Sleeps s := ⟨asleep, none_, going⟩
  obtain ⟨_, _, arrivals, _, all, _⟩ := dg_echo_queue 16 trace s run
  rw [drained] at arrivals
  exact ⟨trace, s, run, sleeps, iget, echoed, (all sleeps).2.2,
    arrivals.trans (List.append_nil _)⟩

end NetworkProgramming.DgEcho01
