import NetworkProgramming.SrvAsyncConsistent

/-!
The tables of srv_async.py between the batches. A connection that is closed stays in them until the
next poll; when its number goes to a new connection before that, it stays for good.
-/

namespace NetworkProgramming.SrvAsync

open State

/-- Stored under its own descriptor, or closed and to be reported by the next poll. -/
def Stored (s : State) (k : Sock) : Prop :=
  (∃ n, s.fileno k = some n ∧ s.sockets n = some k) ∨
    s.fileno k = none ∧ ∃ n, s.sockets n = some k ∧ s.Pending n

structure Tables (s : State) : Prop where
  stored : ∀ k, s.addresses k = true → Stored s k
  disjoint : ∀ k, s.bytesReceived k = none ∨ s.bytesToSend k = none
  keys : ∀ k, s.bytesReceived k ≠ none ∨ s.bytesToSend k ≠ none → s.addresses k = true
  sound : s.raised ≠ some .keyError

/-- accept returns a number that the poll object does not have. -/
def Met (e : Step) : Prop :=
  match e.action with
  | .event (.accept fd) => e.before.registered fd = none
  | _ => True

instance (e : Step) : Decidable (Met e) := by
  unfold Met
  split <;> infer_instance

/-! With such numbers the tables are in order. -/

/-- Every socket of addresses is in sockets; a closed one under a free number. -/
def Filed (s : State) : Prop :=
  ∀ k, s.addresses k = true →
    ∃ n, s.sockets n = some k ∧ (s.fileno k = none → s.used n = false)

theorem filed_stored (s : State) (ok : Consistent s) (filed : Filed s) (k : Sock)
    (known : s.addresses k = true) : Stored s k := by
  obtain ⟨n, found, unused⟩ := filed k known
  cases k with
  | listener =>
      rw [ok.clients] at known
      cases known
  | client i =>
      rcases (ok.stored n i found).2 with closed | number
      · have registered : s.registered n ≠ none := (ok.polled n).mpr (by simp [found])
        exact Or.inr ⟨closed, n, found, registered, unused closed⟩
      · exact Or.inl ⟨n, number, found⟩

theorem unused_kept (s s' : State) (ok : Consistent s) (ok' : Consistent s') (n : Nat)
    (own : s'.own = s.own) (fileno : ∀ k, s'.fileno k = some n → s.fileno k = some n)
    (unused : s.used n = false) : s'.used n = false := by
  rw [← Bool.not_eq_true, used_iff s ok n] at unused
  rw [← Bool.not_eq_true, used_iff s' ok' n, own]
  exact fun used => unused (used.imp_right fun ⟨k, number⟩ => ⟨k, fileno k number⟩)

theorem Filed.kept (s s' : State) (filed : Filed s) (ok : Consistent s) (ok' : Consistent s')
    (own : s'.own = s.own) (fileno : ∀ k n, s'.fileno k = some n → s.fileno k = some n)
    (addresses : ∀ k, s'.addresses k = true → s.addresses k = true)
    (sockets : ∀ n k, s'.addresses k = true → s.sockets n = some k → s'.sockets n = some k)
    (closed : ∀ n k, s.sockets n = some k → s.fileno k ≠ none → s'.fileno k = none →
      s'.used n = false) : Filed s' := by
  intro k known
  obtain ⟨n, found, unused⟩ := filed k (addresses k known)
  refine ⟨n, sockets n k known found, fun now => ?_⟩
  by_cases before : s.fileno k = none
  · exact unused_kept s s' ok ok' n own (fun j => fileno j n) (unused before)
  · exact closed n k found before now

theorem bind_filed (s : State) (ok : Consistent s) (filed : Filed s) (event : Event)
    (rest : List Event) (k : Sock) (batch : s.batch = event :: rest)
    (found : s.sockets event.fd = some k) : Filed (s.bind k rest) := by
  have ok' := (bind_serving s ok event rest k batch found).consistent
  refine filed.kept s _ ok ok' rfl (fun j n => bind_number s k rest j n) (fun _ known => known)
    (fun _ _ _ stored => stored) fun n j stored open_ closed => ?_
  rw [bind_held s k rest j (stored_held s ok n j stored)] at closed
  exact absurd closed open_

theorem accepted_filed (s : State) (ok : Consistent s) (filed : Filed s) (fd : Nat)
    (inside : fd < s.limit) (free : s.used fd = false) (met : s.registered fd = none) :
    Filed (s.accepted fd) := by
  have ok' := accepted_consistent s ok fd inside free
  intro k known
  -- the new connection has the number; the others keep theirs, which are not registered anew
  by_cases new : k = .client s.created
  · subst new
    exact ⟨fd, Function.update_self .., by simp [State.accepted]⟩
  · simp only [State.accepted, Function.update_of_ne new] at known ⊢
    obtain ⟨n, found, unused⟩ := filed k known
    have other : n ≠ fd := by
      rintro rfl
      exact absurd met ((ok.polled n).mpr (by simp [found]))
    refine ⟨n, by rwa [Function.update_of_ne other], fun closed => ?_⟩
    have before := unused closed
    rw [← Bool.not_eq_true, used_iff s ok n] at before
    rw [← Bool.not_eq_true]
    intro used
    rcases (used_iff _ ok' n).mp used with own | ⟨j, number⟩
    · exact before (Or.inl own)
    · simp only [State.accepted, Function.update_apply] at number
      split at number
      · exact other (Option.some.inj number).symm
      · exact before (Or.inr ⟨j, number⟩)

theorem close_filed (s : State) (k : Sock) (event : Event) (at_ : Serving s k event)
    (filed : Filed s) (client : k ≠ .listener) (number : s.fileno k = some event.fd) :
    Filed (s.close k) := by
  have ok := at_.consistent
  have ok' := close_consistent s k event at_ client
  have closes : ∀ j n, (s.close k).fileno j = some n → j ≠ k ∧ s.fileno j = some n := by
    intro j n open_
    simp only [State.close, Function.update_apply] at open_
    split at open_
    · cases open_
    · rename_i other
      exact ⟨other, open_⟩
  refine filed.kept s _ ok ok' rfl (fun j n open_ => (closes j n open_).2) (fun _ known => known)
    (fun _ _ _ stored => stored) fun n j stored open_ closed => ?_
  have same : j = k := by
    by_contra other
    simp only [State.close, Function.update_of_ne other] at closed
    exact open_ closed
  subst same
  obtain rfl := ok.single n event.fd j stored at_.found
  rw [← Bool.not_eq_true, used_iff _ ok' event.fd]
  rintro (own | ⟨i, open'⟩)
  · have unowned := (ok.others event.fd at_.promised.registered).1
    rw [show s.own event.fd = true from own] at unowned
    cases unowned
  · obtain ⟨other, open'⟩ := closes i event.fd open'
    exact other (ok.numbers i j event.fd open' number)

theorem handles_filed (s s' : State) (k : Sock) (event : Event) (call : Call) (output : Output)
    (at_ : Serving s k event) (filed : Filed s) (handles : Handles s k event call output s')
    (met : ∀ fd, call = .accept fd → s.registered fd = none) : Filed s' := by
  have ok := at_.consistent
  have ok' := handles_consistent s s' k event call output at_ handles
  cases handles with
  | clean gone _ _ =>
      refine filed.kept s _ ok ok' rfl (fun _ _ open_ => open_) ?_ ?_ fun _ _ _ open_ closed =>
        absurd closed open_
      · intro j known
        simp only [State.clean, Function.update_apply] at known
        split at known
        · cases known
        · exact known
      · intro n j known stored
        have other : j ≠ k := by
          rintro rfl
          simp [State.clean] at known
        have away : n ≠ event.fd := by
          rintro rfl
          exact other (Option.some.inj (stored.symm.trans at_.found))
        simpa [State.clean, Function.update_of_ne away] using stored
  | accept _ inside free => exact accepted_filed s ok filed _ inside free (met _ rfl)
  | eof client there _ number =>
      rw [at_.number_here there _ number] at number
      exact close_filed s k event at_ filed client number
  | recv _ there readable number _ _ =>
      rw [at_.number_here there _ number, receive_exchange s k event at_ there readable]
      split <;> exact filed
  | send _ there _ number waiting _ =>
      rw [at_.number_here there _ number, send_exchange s k event at_ _ waiting]
      split <;> exact filed
  | unknown _ _ | absent _ _ _ _ | fails => exact filed
  | quiet => exact filed

theorem step_filed (e : Step) (stepped : machine.Stepped e) (met : Met e)
    (before : Consistent e.before ∧ Filed e.before) : Consistent e.after ∧ Filed e.after := by
  refine ⟨step_consistent e stepped before.1, ?_⟩
  obtain ⟨ok, filed⟩ := before
  obtain ⟨s, action, output, s'⟩ := e
  obtain ⟨_, does⟩ := step_does _ stepped
  dsimp only at does ok filed ⊢
  cases does with
  | poll _ _ => exact filed
  | lost _ _ => exact filed
  | event batch found handles =>
      refine handles_filed _ s' _ _ _ _ (bind_serving s ok _ _ _ batch found)
        (bind_filed s ok filed _ _ _ batch found) handles ?_
      rintro fd rfl
      exact met

/-! A socket that has lost its place has lost it for good. -/

def Orphan (s : State) (k : Sock) : Prop :=
  s.addresses k = true ∧ ∀ n, s.sockets n ≠ some k

theorem orphan_unstored (s : State) (k : Sock) (orphan : Orphan s k) : ¬ Stored s k := by
  rintro (⟨n, _, found⟩ | ⟨_, n, found, _⟩)
  · exact orphan.2 n found
  · exact orphan.2 n found

theorem accepted_orphan (s : State) (ok : Consistent s) (fd : Nat) (free : s.used fd = false)
    (registered : s.registered fd ≠ none) : ∃ k, Orphan (s.accepted fd) k := by
  obtain ⟨_, _, unlistened⟩ := free_number s ok fd free
  -- the socket stored under the number loses its place to the new one
  obtain ⟨k, found⟩ := Option.ne_none_iff_exists'.mp ((ok.polled fd).mp registered)
  cases k with
  | listener => exact absurd found unlistened
  | client i =>
      have known := (ok.stored fd i found).1
      have other : Sock.client i ≠ .client s.created := by
        intro same
        exact Nat.lt_irrefl _ (Sock.client.inj same ▸ ok.born i (Or.inl known))
      refine ⟨.client i, ?_, fun n stored => ?_⟩
      · simpa [State.accepted, Function.update_of_ne other] using known
      · simp only [State.accepted, Function.update_apply] at stored
        split at stored
        · exact other (Option.some.inj stored).symm
        · rename_i away
          exact away (ok.single n fd _ stored found)

theorem handles_orphan (s s' : State) (k : Sock) (event : Event) (call : Call) (output : Output)
    (at_ : Serving s k event) (handles : Handles s k event call output s') (lost : Sock)
    (orphan : Orphan s lost) : Orphan s' lost := by
  have other : lost ≠ k := by
    rintro rfl
    exact orphan.2 event.fd at_.found
  cases handles with
  | clean _ _ _ =>
      refine ⟨?_, fun n stored => ?_⟩
      · simpa [State.clean, Function.update_of_ne other] using orphan.1
      · simp only [State.clean, Function.update_apply] at stored
        split at stored
        · cases stored
        · exact orphan.2 n stored
  | @accept fd _ _ _ =>
      have old : lost ≠ .client s.created := by
        rintro rfl
        exact Nat.lt_irrefl _ (at_.consistent.born _ (Or.inl orphan.1))
      refine ⟨?_, fun n stored => ?_⟩
      · simpa [State.accepted, Function.update_of_ne old] using orphan.1
      · simp only [State.accepted, Function.update_apply] at stored
        split at stored
        · exact old (Option.some.inj stored).symm
        · exact orphan.2 n stored
  | eof _ _ _ _ => exact orphan
  | recv _ there readable number _ _ =>
      rw [at_.number_here there _ number, receive_exchange s k event at_ there readable]
      split <;> exact orphan
  | send _ there _ number waiting _ =>
      rw [at_.number_here there _ number, send_exchange s k event at_ _ waiting]
      split <;> exact orphan
  | unknown _ _ | absent _ _ _ _ | fails => exact orphan
  | quiet => exact orphan

theorem step_orphan (e : Step) (stepped : machine.Stepped e) (ok : Consistent e.before)
    (lost : (∃ k, Orphan e.before k) ∨ ¬ Met e) : ∃ k, Orphan e.after k := by
  obtain ⟨s, action, output, s'⟩ := e
  obtain ⟨_, does⟩ := step_does _ stepped
  dsimp only at does ok lost ⊢
  cases does with
  | poll _ _ => exact lost.resolve_right fun unmet => unmet trivial
  | lost batch absent => exact absurd absent (batch_found s ok _ _ batch)
  | @event call event rest k _ _ batch found handles =>
      have at_ := bind_serving s ok event rest k batch found
      rcases lost with ⟨j, orphan⟩ | unmet
      · exact ⟨j, handles_orphan _ s' k event call output at_ handles j orphan⟩
      · cases handles with
        | accept _ _ free => exact accepted_orphan _ at_.consistent _ free unmet
        | absent _ there writable nothing => exact absurd nothing ((at_.seen there).2.2 writable)
        | _ => exact absurd trivial unmet

/-- The tables are in order exactly in the runs where no number is given to a new connection while
it is still registered for one that is closed. -/
theorem tables_iff {trace : List Step} {s : State} (run : machine.Run trace s) :
    Tables s ↔ ∀ e ∈ trace, Met e := by
  constructor
  · intro tables
    by_contra unmet
    -- the first step that does not meet it leaves an orphan
    have orphan := run.history (C := fun _ => True)
      (I := fun trace s => Consistent s ∧ ((∀ e ∈ trace, Met e) ∨ ∃ k, Orphan s k))
      (fun s first => ⟨start_consistent s first, Or.inl (by simp)⟩)
      (fun trace e stepped _ before => by
        refine ⟨step_consistent e stepped before.1, ?_⟩
        by_cases met : Met e
        · refine before.2.imp (fun all d member => ?_) fun orphan =>
            step_orphan e stepped before.1 (Or.inl orphan)
          rcases List.mem_append.mp member with old | new
          · exact all d old
          · rwa [List.mem_singleton.mp new]
        · exact Or.inr (step_orphan e stepped before.1 (Or.inr met)))
      fun _ _ => trivial
    obtain ⟨k, orphan⟩ := orphan.2.resolve_left unmet
    exact orphan_unstored s k orphan (tables.stored k orphan.1)
  · intro met
    have filed := run.preserves (C := Met) (I := fun s => Consistent s ∧ Filed s)
      (fun s first => ⟨start_consistent s first, fun k known => by
        obtain ⟨_, _, _, _, _, _, addresses, _⟩ := first
        rw [addresses] at known
        cases known⟩)
      step_filed met
    exact ⟨filed_stored s filed.1 filed.2, filed.1.disjoint, filed.1.keys, filed.1.sound⟩

def ready (fd : Nat) : Event := ⟨fd, false, true, false⟩

def gone (fd : Nat) : Event := ⟨fd, true, false, false⟩

theorem reported_reused : ∃ (trace : List Step) (s : State), machine.Run trace s ∧
    s.fileno (.client 1) = some 4 ∧ Tables s := by
  obtain ⟨trace, s, run, checked⟩ := Machine.run_of_check initial_start
    ([.poll [ready 3], .event (.accept 4), .poll [ready 4], .event (.recv []), .poll [gone 4],
      .event .quiet, .poll [ready 3], .event (.accept 4)] : List Action)
    (fun r => decide (r.2.fileno (.client 1) = some 4 ∧ ∀ e ∈ r.1, Met e)) (by decide +kernel)
  obtain ⟨number, met⟩ := of_decide_eq_true checked
  exact ⟨trace, s, run, number, (tables_iff run).mpr met⟩

theorem unreported_left : ∃ (trace : List Step) (s : State), machine.Run trace s ∧ s.batch = [] ∧
    ¬ Tables s := by
  obtain ⟨trace, s, run, checked⟩ := Machine.run_of_check initial_start
    ([.poll [ready 3], .event (.accept 4), .poll [ready 4], .event (.recv []),
      .poll [ready 3, gone 4], .event (.accept 4), .event .quiet] : List Action)
    (fun r => decide (r.2.batch = [] ∧ r.2.limit = 64 ∧ r.2.addresses (.client 0) = true ∧
      ∀ n ∈ List.range 64, r.2.sockets n ≠ some (.client 0))) (by decide +kernel)
  obtain ⟨batch, limit, known, unstored⟩ := of_decide_eq_true checked
  refine ⟨trace, s, run, batch, fun tables => ?_⟩
  have ok := run_consistent run
  refine orphan_unstored s (.client 0) ⟨known, fun n found => ?_⟩ (tables.stored _ known)
  have registered : s.registered n ≠ none := (ok.polled n).mpr (by simp [found])
  exact unstored n (List.mem_range.mpr (limit ▸ (ok.others n registered).2)) found

end NetworkProgramming.SrvAsync
