import NetworkProgramming.SrvAsyncConsistent

/-!
What srv_async.py sends on a connection, against the callbacks of srv_asyncio1.py: bytes_received has
the data of the protocol object, and bytes_to_send what is written and not sent yet.
-/

namespace NetworkProgramming.SrvAsync

open Zen State

def State.current (s : State) : Option Sock := s.batch.head?.bind fun event => s.sockets event.fd

def Call.data : Call → Option (List UInt8)
  | .recv data => some data
  | _ => none

/-- What recv returns in the step, if it is called on the socket. -/
def chunk (k : Sock) (e : Step) : Option (List UInt8) :=
  match e.action with
  | .poll _ => none
  | .event call => if e.before.current = some k then call.data else none

def Output.bytes (k : Sock) : Output → List UInt8
  | .sent j data => if j = k then data else []
  | _ => []

def chunks (k : Sock) (trace : List Step) : List (List UInt8) :=
  trace.filterMap (chunk k)

def sent (k : Sock) (trace : List Step) : List UInt8 :=
  trace.flatMap fun e => e.output.bytes k

@[simp] theorem chunks_snoc (k : Sock) (trace : List Step) (e : Step) :
    chunks k (trace ++ [e]) = chunks k trace ++ (chunk k e).toList := by
  rw [chunks, List.filterMap_append]
  cases found : chunk k e <;> simp [chunks, found]

@[simp] theorem sent_snoc (k : Sock) (trace : List Step) (e : Step) :
    sent k (trace ++ [e]) = sent k trace ++ e.output.bytes k := by
  simp [sent]

/-- The step is about another socket, or receives and sends nothing. -/
def Silent (k : Sock) (e : Step) : Prop := chunk k e = none ∧ e.output.bytes k = []

def About (j : Sock) (call : Call) (e : Step) : Prop :=
  ∀ k, chunk k e = if j = k then call.data else none

theorem About.other {j k : Sock} {call : Call} {e : Step} (about : About j call e) (other : j ≠ k) :
    chunk k e = none := by
  rw [about k, if_neg other]

theorem About.nothing {j : Sock} {call : Call} {e : Step} (about : About j call e) (k : Sock)
    (none_ : call.data = none) : chunk k e = none := by
  rw [about k, none_, ite_self]

theorem About.same {j : Sock} {call : Call} {e : Step} (about : About j call e) :
    chunk j e = call.data := by
  rw [about j, if_pos rfl]

theorem sent_other (j k : Sock) (data : List UInt8) (other : j ≠ k) :
    Output.bytes k (.sent j data) = [] := if_neg other

/-! The conversation of one connection. -/

/-- As the protocol object that has received the same chunks, and in the end all has been sent. -/
structure Talk (i : Nat) (trace : List Step) (s : State) : Prop where
  fresh : s.created ≤ i → chunks (.client i) trace = [] ∧ sent (.client i) trace = []
  talking : s.addresses (.client i) = true → [] ∉ chunks (.client i) trace →
    (zenServer (chunks (.client i) trace)).data = (s.bytesReceived (.client i)).getD [] ∧
      (zenServer (chunks (.client i) trace)).written =
        sent (.client i) trace ++ (s.bytesToSend (.client i)).getD []
  ended : [] ∈ chunks (.client i) trace → s.fileno (.client i) = none ∧
    ∃ before, chunks (.client i) trace = before ++ [[]] ∧
      (zenServer before).written = sent (.client i) trace

theorem Talk.frame (i : Nat) (trace : List Step) (e : Step) (s : State)
    (talk : Talk i trace s) (silent : Silent (.client i) e)
    (created : e.after.created ≤ i → s.created ≤ i)
    (same : e.after.addresses (.client i) = true → s.addresses (.client i) = true ∧
      e.after.bytesReceived (.client i) = s.bytesReceived (.client i) ∧
      e.after.bytesToSend (.client i) = s.bytesToSend (.client i))
    (closed : s.fileno (.client i) = none → e.after.fileno (.client i) = none) :
    Talk i (trace ++ [e]) e.after := by
  have chunksSame : chunks (.client i) (trace ++ [e]) = chunks (.client i) trace := by
    simp [silent.1]
  have sentSame : sent (.client i) (trace ++ [e]) = sent (.client i) trace := by
    simp [silent.2]
  refine ⟨?_, ?_, ?_⟩ <;> rw [chunksSame, sentSame]
  · exact fun early => talk.fresh (created early)
  · intro known open_
    obtain ⟨before, received, sending⟩ := same known
    rw [received, sending]
    exact talk.talking before open_
  · exact fun finished => (talk.ended finished).imp_left closed

theorem zen_server_snoc (cs : List (List UInt8)) (data : List UInt8) :
    zenServer (cs ++ [data]) = (zenServer cs).dataReceived data := by
  simp [zenServer]

theorem receive_talk (s : State) (k : Sock) (event : Event) (at_ : Serving s k event)
    (there : event.gone = false) (readable : event.readable = true) (moreData sent' : List UInt8)
    (server : ZenServer) (data : server.data = (s.bytesReceived k).getD [])
    (written : server.written = sent' ++ (s.bytesToSend k).getD []) :
    (server.dataReceived moreData).data =
        ((s.receive k event.fd moreData).bytesReceived k).getD [] ∧
      (server.dataReceived moreData).written =
        sent' ++ ((s.receive k event.fd moreData).bytesToSend k).getD [] := by
  rw [(at_.seen there).2.1 readable, Option.getD_none, List.append_nil] at written
  rw [receive_exchange s k event at_ there readable, ZenServer.dataReceived, data, written]
  split <;> simp [State.exchange]

theorem Talk.going (i : Nat) (trace : List Step) (s : State) (event : Event) (fd : Nat)
    (talk : Talk i trace s) (at_ : Serving s (.client i) event)
    (number : s.fileno (.client i) = some fd) :
    ¬ s.created ≤ i ∧ [] ∉ chunks (.client i) trace ∧
      (zenServer (chunks (.client i) trace)).data = (s.bytesReceived (.client i)).getD [] ∧
        (zenServer (chunks (.client i) trace)).written =
          sent (.client i) trace ++ (s.bytesToSend (.client i)).getD [] := by
  have known := (at_.consistent.stored _ i at_.found).1
  have unended : [] ∉ chunks (.client i) trace := by
    intro finished
    rw [(talk.ended finished).1] at number
    cases number
  exact ⟨Nat.not_le.mpr (at_.consistent.born i (Or.inl known)), unended,
    talk.talking known unended⟩

theorem eof_talk (i : Nat) (trace : List Step) (e : Step) (s : State) (event : Event) (fd : Nat)
    (at_ : Serving s (.client i) event) (there : event.gone = false)
    (readable : event.readable = true) (number : s.fileno (.client i) = some fd)
    (talk : Talk i trace s) (got : chunk (.client i) e = some []) (output : e.output = .silent)
    (after : e.after = s.close (.client i)) : Talk i (trace ++ [e]) e.after := by
  obtain ⟨born, _, _, written⟩ := talk.going i trace s event fd at_ number
  rw [(at_.seen there).2.1 readable, Option.getD_none, List.append_nil] at written
  have chunksNow : chunks (.client i) (trace ++ [e]) = chunks (.client i) trace ++ [[]] := by
    simp [got]
  have sentNow : sent (.client i) (trace ++ [e]) = sent (.client i) trace := by
    simp [output, Output.bytes]
  refine ⟨?_, ?_, ?_⟩ <;> rw [chunksNow, sentNow]
  · intro early
    rw [after] at early
    exact absurd early born
  -- b'' is among the chunks now
  · exact fun _ open' => absurd (by simp) open'
  · intro _
    rw [after]
    exact ⟨Function.update_self .., _, rfl, written⟩

theorem recv_talk (i : Nat) (trace : List Step) (e : Step) (s : State) (event : Event) (fd : Nat)
    (data : List UInt8) (at_ : Serving s (.client i) event) (there : event.gone = false)
    (readable : event.readable = true) (number : s.fileno (.client i) = some fd)
    (more : data ≠ []) (talk : Talk i trace s) (got : chunk (.client i) e = some data)
    (output : e.output = .silent) (after : e.after = s.receive (.client i) event.fd data) :
    Talk i (trace ++ [e]) e.after := by
  obtain ⟨born, open_, same, written⟩ := talk.going i trace s event fd at_ number
  have created : (s.receive (.client i) event.fd data).created = s.created := by
    rw [receive_exchange s _ event at_ there readable]
    split <;> rfl
  have chunksNow : chunks (.client i) (trace ++ [e]) = chunks (.client i) trace ++ [data] := by
    simp [got]
  have sentNow : sent (.client i) (trace ++ [e]) = sent (.client i) trace := by
    simp [output, Output.bytes]
  refine ⟨?_, ?_, ?_⟩ <;> rw [chunksNow, sentNow]
  · intro early
    rw [after, created] at early
    exact absurd early born
  · intro _ _
    rw [zen_server_snoc, after]
    exact receive_talk s _ event at_ there readable data _ _ same written
  · intro finished
    rcases List.mem_append.mp finished with old | new
    · exact absurd old open_
    · exact absurd (List.mem_singleton.mp new).symm more

theorem send_talk (i : Nat) (trace : List Step) (e : Step) (s : State) (event : Event) (fd n : Nat)
    (data : List UInt8) (at_ : Serving s (.client i) event)
    (number : s.fileno (.client i) = some fd) (waiting : s.bytesToSend (.client i) = some data)
    (size : n ≤ data.length) (talk : Talk i trace s) (got : chunk (.client i) e = none)
    (output : e.output = .sent (.client i) (data.take n))
    (after : e.after = s.send (.client i) event.fd data n) : Talk i (trace ++ [e]) e.after := by
  obtain ⟨born, open_, same, written⟩ := talk.going i trace s event fd at_ number
  have idle : s.bytesReceived (.client i) = none :=
    (at_.consistent.disjoint _).resolve_right (by simp [waiting])
  rw [waiting, Option.getD_some] at written
  have chunksNow : chunks (.client i) (trace ++ [e]) = chunks (.client i) trace := by
    simp [got]
  have sentNow : sent (.client i) (trace ++ [e]) = sent (.client i) trace ++ data.take n := by
    simp [output, Output.bytes]
  rw [send_exchange s _ event at_ data waiting] at after
  refine ⟨?_, ?_, ?_⟩ <;> rw [chunksNow, sentNow]
  · intro early
    have created : e.after.created = s.created := by
      rw [after]
      split <;> rfl
    rw [created] at early
    exact absurd early born
  · intro _ _
    rw [after, same, written, idle]
    split
    · simp [State.exchange, List.append_assoc]
    -- all of it has been taken
    · have whole : data.take n = data := List.take_of_length_le (by omega)
      simp [State.exchange, whole]
  · exact fun finished => absurd finished open_

theorem bind_talk (i : Nat) (trace : List Step) (s : State) (k : Sock) (rest : List Event)
    (talk : Talk i trace s) : Talk i trace (s.bind k rest) where
  fresh := talk.fresh
  talking := talk.talking
  ended finished := by
    refine (talk.ended finished).imp_left fun closed => ?_
    rcases bind_fileno s k rest (.client i) with same | ⟨closed', _⟩
    · rw [same, closed]
    · exact closed'

theorem handles_talk (i : Nat) (trace : List Step) (e : Step) (s : State) (k : Sock) (event : Event)
    (call : Call) (at_ : Serving s k event) (handles : Handles s k event call e.output e.after)
    (about : About k call e) (talk : Talk i trace s) : Talk i (trace ++ [e]) e.after := by
  obtain ⟨before, action, output, after⟩ := e
  dsimp only at handles ⊢
  cases handles with
  | clean _ _ _ =>
      refine talk.frame i trace ⟨before, action, _, _⟩ s ⟨about.nothing _ rfl, rfl⟩
        (fun early => early) (fun known => ?_) fun closed => closed
      have other : Sock.client i ≠ k := by
        rintro rfl
        simp [State.clean] at known
      simpa [State.clean, Function.update_of_ne other] using known
  | @accept fd _ inside free =>
      by_cases new : i = s.created
      · subst new
        -- a connection begins as connection_made leaves the protocol object
        obtain ⟨noChunks, noneSent⟩ := talk.fresh (Nat.le_refl _)
        obtain ⟨_, bare⟩ := SrvAsync.fresh s at_.consistent
        refine ⟨?_, ?_, ?_⟩ <;>
          rw [chunks_snoc, sent_snoc, noChunks, noneSent, about.nothing _ rfl]
        · exact fun _ => ⟨rfl, rfl⟩
        · intro _ _
          simp [State.accepted, bare.1, bare.2, zenServer, ZenServer.connectionMade, Output.bytes]
        · exact fun finished => absurd finished List.not_mem_nil
      · have other : Sock.client i ≠ .client s.created := fun same => new (Sock.client.inj same)
        refine talk.frame i trace ⟨before, action, _, _⟩ s ⟨about.nothing _ rfl, rfl⟩
          (fun early => Nat.le_of_succ_le early) (fun known => ?_) fun closed => ?_
        · simpa [State.accepted, Function.update_of_ne other] using known
        · simpa [State.accepted, Function.update_of_ne other] using closed
  | eof client there readable number =>
      by_cases same : k = .client i
      · subst same
        exact eof_talk i trace ⟨before, action, _, _⟩ s event _ at_ there readable number talk
          about.same rfl rfl
      · exact talk.frame i trace ⟨before, action, _, _⟩ s ⟨about.other same, rfl⟩
          (fun early => early) (fun known => ⟨known, rfl, rfl⟩) fun closed => by
            simpa [State.close, Function.update_of_ne (Ne.symm same)] using closed
  | @recv fd data client there readable number more _ =>
      rw [at_.number_here there fd number] at *
      by_cases same : k = .client i
      · subst same
        exact recv_talk i trace ⟨before, action, _, _⟩ s event _ data at_ there readable number more
          talk about.same rfl rfl
      · rw [receive_exchange s k event at_ there readable]
        split <;>
          exact talk.frame i trace ⟨before, action, _, _⟩ s ⟨about.other same, rfl⟩
            (fun early => early) (fun known => ⟨known, Function.update_of_ne (Ne.symm same) _ _,
              Function.update_of_ne (Ne.symm same) _ _⟩) fun closed => closed
  | @send fd n data client there _ number waiting size =>
      rw [at_.number_here there fd number] at *
      by_cases same : k = .client i
      · subst same
        exact send_talk i trace ⟨before, action, _, _⟩ s event _ n data at_ number waiting size talk
          (about.nothing _ rfl) rfl rfl
      · rw [send_exchange s k event at_ data waiting]
        split <;>
          exact talk.frame i trace ⟨before, action, _, _⟩ s
            ⟨about.nothing _ rfl, sent_other k _ _ same⟩
            (fun early => early) (fun known => ⟨known, Function.update_of_ne (Ne.symm same) _ _,
              Function.update_of_ne (Ne.symm same) _ _⟩) fun closed => closed
  | unknown _ _ | absent _ _ _ _ | fails | quiet =>
      exact talk.frame i trace ⟨before, action, _, _⟩ s ⟨about.nothing _ rfl, rfl⟩
        (fun early => early) (fun known => ⟨known, rfl, rfl⟩) fun closed => closed

theorem event_about {call : Call} {output : Output} {s' : State} (s : State) {event : Event}
    {rest : List Event} (action : Action) (k : Sock) (batch : s.batch = event :: rest)
    (found : s.sockets event.fd = some k) (here : action = .event call) :
    About k call ⟨s, action, output, s'⟩ := by
  intro j
  have current : s.current = some k := by simp [State.current, batch, found]
  simp [chunk, here, current]

theorem step_talk (i : Nat) (trace : List Step) (e : Step) (stepped : machine.Stepped e)
    (before : Consistent e.before ∧ Talk i trace e.before) :
    Consistent e.after ∧ Talk i (trace ++ [e]) e.after := by
  refine ⟨step_consistent e stepped before.1, ?_⟩
  obtain ⟨ok, talk⟩ := before
  obtain ⟨_, does⟩ := step_does e stepped
  obtain ⟨s, action, output, s'⟩ := e
  dsimp only at does ok talk ⊢
  cases does with
  | poll _ _ =>
      exact talk.frame i trace ⟨s, _, _, _⟩ s ⟨rfl, rfl⟩ (fun early => early)
        (fun known => ⟨known, rfl, rfl⟩) fun closed => closed
  | lost _ _ =>
      exact talk.frame i trace ⟨s, _, _, _⟩ s ⟨ite_self _, rfl⟩ (fun early => early)
        (fun known => ⟨known, rfl, rfl⟩) fun closed => closed
  | @event call event rest k _ _ batch found handles =>
      exact handles_talk i trace ⟨s, _, output, s'⟩ _ k event call
        (bind_serving s ok event rest k batch found) handles (event_about s _ k batch found rfl)
        (bind_talk i trace s k rest talk)

theorem run_talk (i : Nat) {trace : List Step} {s : State} (run : machine.Run trace s) :
    Talk i trace s := by
  refine (run.history (C := fun _ => True)
    (I := fun trace s => Consistent s ∧ Talk i trace s) (fun s first => ?_)
    (fun trace e stepped _ => step_talk i trace e stepped) fun _ _ => trivial).2
  refine ⟨start_consistent s first, fun _ => ⟨rfl, rfl⟩, fun known => ?_, nofun⟩
  obtain ⟨_, _, _, _, _, _, addresses, _⟩ := first
  rw [addresses] at known
  cases known

/-- A connection that has come to its end has been sent what the protocol object writes. -/
theorem ended_sent {trace : List Step} {s : State} (run : machine.Run trace s) (i : Nat)
    (cs : List (List UInt8)) (received : chunks (.client i) trace = cs ++ [[]]) :
    sent (.client i) trace = (zenServer cs).written := by
  obtain ⟨_, before, same, written⟩ := (run_talk i run).ended (by simp [received])
  rw [received] at same
  rw [List.append_cancel_right same, written]

/-! Every sequence of chunks can come. -/

/-- The loop has nothing left to do, and poll only one connection to watch. -/
structure Served (s : State) (k : Sock) (n : Nat) (mask : Mask) : Prop where
  running : s.raised = none
  idle : s.batch = []
  bound : s.sock = some k
  client : k ≠ .listener
  found : s.sockets n = some k
  number : s.fileno k = some n
  used : s.used n = true
  registered : s.registered n = some mask
  reported : ∀ m, ¬ s.Pending m

def met (n : Nat) (mask : Mask) : Event :=
  ⟨n, false, decide (mask = .pollin), decide (mask = .pollout)⟩

theorem bind_same (s : State) (k : Sock) (bound : s.sock = some k) (rest : List Event) :
    s.bind k rest = { s with batch := rest } := by
  have fileno : (fun j => if s.sock = some j ∧ j ≠ k ∧ s.held j = false then none
      else s.fileno j) = s.fileno := by
    funext j
    rw [bound, if_neg]
    rintro ⟨same, other, _⟩
    exact other (Option.some.inj same).symm
  rw [State.bind, fileno, ← bound]

theorem step_handle (s : State) (k : Sock) (event : Event) (rest : List Event) (call : Call)
    (running : s.raised = none) (batch : s.batch = event :: rest)
    (found : s.sockets event.fd = some k) :
    step s (.event call) = handle (s.bind k rest) k event call := by
  simp only [step, running, batch, found]

theorem served_turn {trace : List Step} {s : State} (run : machine.Run trace s) (k : Sock) (n : Nat)
    (mask : Mask) (served : Served s k n mask) (call : Call) (s' : State) (output : Output)
    (handled : handle s k (met n mask) call = some (s', output)) :
    ∃ trace', machine.Run trace' s' ∧
      chunks k trace' = chunks k trace ++ call.data.toList := by
  have ready : s.Ready (met n mask) := by
    simp only [Ready, met, served.registered, served.used, if_true]
    cases mask <;> simp
  have polled : s.Polled [met n mask] :=
    ⟨by simp, by simp, by simpa using ready, fun m _ pending => absurd pending (served.reported m)⟩
  have first : step s (.poll [met n mask]) = some ({ s with batch := [met n mask] }, .silent) := by
    rw [step, if_pos ⟨served.running, served.idle, polled⟩]
  generalize called : ({ s with batch := [met n mask] } : State) = waiting at first
  have second : step waiting (.event call) = some (s', output) := by
    have same : waiting.bind k [] = s := by
      rw [← called]
      refine (bind_same { s with batch := [met n mask] } k served.bound []).trans ?_
      rw [← served.idle]
    have stepped := step_handle waiting k (met n mask) [] call
      (called ▸ served.running) (called ▸ rfl) (called ▸ served.found)
    rw [stepped, same, handled]
  have got : chunk k ⟨waiting, .event call, output, s'⟩ = call.data := by
    have batch : waiting.batch = [met n mask] := called ▸ rfl
    rw [event_about waiting _ k batch (called ▸ served.found) rfl k, if_pos rfl]
  have polling : machine.Stepped ⟨s, Action.poll [met n mask], Output.silent, waiting⟩ := first
  have serving : machine.Stepped ⟨waiting, Action.event call, output, s'⟩ := second
  have longer := (run.next _ polling).next _ serving
  refine ⟨_, longer, ?_⟩
  rw [chunks_snoc, chunks_snoc, got]
  simp [chunk]

theorem exchange_served (s : State) (k : Sock) (n : Nat) (mask mask' : Mask)
    (served : Served s k n mask) (received sending : Option (List UInt8)) :
    Served (s.exchange k n received sending mask') k n mask' := by
  have known : ∀ m, (s.exchange k n received sending mask').registered m ≠ none →
      s.registered m ≠ none := by
    intro m has
    simp only [State.exchange, Function.update_apply] at has
    split at has
    · rename_i here
      rw [here, served.registered]
      exact Option.some_ne_none mask
    · exact has
  exact
    { served with
      registered := Function.update_self ..
      reported := fun m pending => served.reported m ⟨known m pending.1, pending.2⟩ }

theorem recv_handled (s : State) (k : Sock) (n : Nat) (served : Served s k n .pollin)
    (data : List UInt8) (more : data ≠ []) (size : data.length ≤ 4096) :
    handle s k (met n .pollin) (.recv data) = some (s.receive k n data, .silent) := by
  simp [handle, incomingData, met, served.client, served.number, more, size]

theorem eof_handled (s : State) (k : Sock) (n : Nat) (served : Served s k n .pollin) :
    handle s k (met n .pollin) (.recv []) = some (s.close k, .silent) := by
  simp [handle, incomingData, met, served.client, served.number]

theorem send_handled (s : State) (k : Sock) (n : Nat) (served : Served s k n .pollout)
    (data : List UInt8) (waiting : s.bytesToSend k = some data) :
    handle s k (met n .pollout) (.send data.length) =
      some (s.send k n data data.length, .sent k (data.take data.length)) := by
  simp [handle, readyToSend, met, served.client, served.number, waiting]

theorem chunk_turn {trace : List Step} {s : State} (run : machine.Run trace s) (k : Sock) (n : Nat)
    (served : Served s k n .pollin) (data : List UInt8) (more : data ≠ [])
    (size : data.length ≤ 4096) :
    ∃ trace' s', machine.Run trace' s' ∧ chunks k trace' = chunks k trace ++ [data] ∧
      Served s' k n .pollin := by
  obtain ⟨trace₁, run₁, chunks₁⟩ :=
    served_turn run k n .pollin served _ _ _ (recv_handled s k n served data more size)
  have got : chunks k trace₁ = chunks k trace ++ [data] := by
    simpa [Call.data] using chunks₁
  have known : s.registered n ≠ none := by simp [served.registered]
  by_cases ended : ends ((s.bytesReceived k).getD [] ++ data)
  · have answered : s.receive k n data = s.exchange k n none
        (some (getAnswer ((s.bytesReceived k).getD [] ++ data))) .pollout := by
      simp [State.receive, ended, State.modify, known, State.exchange]
    rw [answered] at run₁
    have waits := exchange_served s k n .pollin .pollout served none
      (some (getAnswer ((s.bytesReceived k).getD [] ++ data)))
    have waiting : (s.exchange k n none
        (some (getAnswer ((s.bytesReceived k).getD [] ++ data))) .pollout).bytesToSend k = some _ :=
      Function.update_self ..
    obtain ⟨trace₂, run₂, chunks₂⟩ :=
      served_turn run₁ k n .pollout waits _ _ _ (send_handled _ k n waits _ waiting)
    refine ⟨trace₂, _, run₂, ?_, ?_⟩
    · simpa [Call.data, got] using chunks₂
    · have again : ∀ r, Served (State.exchange _ k n r none .pollin) k n .pollin :=
        fun r => exchange_served _ k n .pollout .pollin waits r none
      have idle := again none
      simpa [State.send, State.modify, waits.registered, State.exchange] using idle
  · have waits := exchange_served s k n .pollin .pollin served
      (some ((s.bytesReceived k).getD [] ++ data)) (s.bytesToSend k)
    refine ⟨trace₁, _, run₁, got, ?_⟩
    rw [State.exchange, Function.update_eq_self, ← served.registered,
      Function.update_eq_self] at waits
    simpa [State.receive, ended] using waits

theorem chunk_turns (k : Sock) (n : Nat) (cs : List (List UInt8))
    (sized : ∀ c ∈ cs, c ≠ [] ∧ c.length ≤ 4096) {trace : List Step} {s : State}
    (run : machine.Run trace s) (served : Served s k n .pollin) :
    ∃ trace' s', machine.Run trace' s' ∧ chunks k trace' = chunks k trace ++ cs ∧
      Served s' k n .pollin := by
  induction cs generalizing trace s with
  | nil => exact ⟨trace, s, run, (List.append_nil _).symm, served⟩
  | cons c cs ih =>
      obtain ⟨⟨more, size⟩, others⟩ := List.forall_mem_cons.mp sized
      obtain ⟨trace₁, s₁, run₁, got₁, served₁⟩ := chunk_turn run k n served c more size
      obtain ⟨trace₂, s₂, run₂, got₂, served₂⟩ := ih others run₁ served₁
      exact ⟨trace₂, s₂, run₂, by rw [got₂, got₁, List.append_assoc]; rfl, served₂⟩

theorem connected : ∃ (trace : List Step) (s : State), machine.Run trace s ∧
    chunks (.client 0) trace = [] ∧ Served s (.client 0) 4 .pollin := by
  obtain ⟨trace, s, run, checked⟩ := Machine.run_of_check initial_start
    ([.poll [⟨3, false, true, false⟩], .event (.accept 4)] : List Action)
    (fun r => decide (chunks (.client 0) r.1 = [] ∧ r.2.raised = none ∧ r.2.batch = [] ∧
      r.2.sock = some (.client 0) ∧ r.2.sockets 4 = some (.client 0) ∧
      r.2.fileno (.client 0) = some 4 ∧ r.2.used 4 = true ∧ r.2.registered 4 = some .pollin ∧
      r.2.limit = 64 ∧ ∀ n ∈ List.range 64, ¬ r.2.Pending n)) (by decide +kernel)
  obtain ⟨received, running, idle, bound, found, number, used, registered, limit, reported⟩ :=
    of_decide_eq_true checked
  have within : ∀ m, ¬ s.Pending m := by
    intro m pending
    have inside := ((run_consistent run).others m pending.1).2
    exact reported m (List.mem_range.mpr (limit ▸ inside)) pending
  exact ⟨trace, s, run, received, running, idle, bound, nofun, found, number, used, registered,
    within⟩

theorem chunks_come (cs : List (List UInt8)) (sized : ∀ c ∈ cs, c ≠ [] ∧ c.length ≤ 4096) :
    ∃ (trace : List Step) (s : State) (i : Nat), machine.Run trace s ∧
      chunks (.client i) trace = cs ++ [[]] := by
  obtain ⟨trace, s, run, none_, served⟩ := connected
  obtain ⟨trace₁, s₁, run₁, got, served₁⟩ := chunk_turns (.client 0) 4 cs sized run served
  obtain ⟨trace₂, run₂, ended⟩ := served_turn run₁ (.client 0) 4 .pollin served₁ _ _ _
    (eof_handled s₁ (.client 0) 4 served₁)
  refine ⟨trace₂, _, 0, run₂, ?_⟩
  rw [ended, got, none_]
  simp [Call.data]

/-- The three servers send the same. -/
theorem zen_servers_agree (cs : List (List UInt8))
    (sized : ∀ c ∈ cs, c ≠ [] ∧ c.length ≤ 4096) :
    (handleConversation cs).1 = (zenServer cs).written ∧
      (∀ (trace : List Step) (s : State) (i : Nat), machine.Run trace s →
        chunks (.client i) trace = cs ++ [[]] →
          sent (.client i) trace = (zenServer cs).written) ∧
      ∃ (trace : List Step) (s : State) (i : Nat), machine.Run trace s ∧
        chunks (.client i) trace = cs ++ [[]] := by
  refine ⟨?_, fun trace s i run => ended_sent run i cs, chunks_come cs sized⟩
  rw [handle_conversation_answers cs fun c member => (sized c member).1, zen_server_answers]

def twoQuestions : List (List UInt8) :=
  [CText.bytes "Simple is", CText.bytes " better than?", CText.bytes "Why?"]

theorem two_questions_agree :
    (handleConversation twoQuestions).1 = (zenServer twoQuestions).written ∧
      ∃ (trace : List Step) (s : State) (i : Nat), machine.Run trace s ∧
        chunks (.client i) trace = twoQuestions ++ [[]] ∧
        sent (.client i) trace = (zenServer twoQuestions).written := by
  obtain ⟨blocking, sends, trace, s, i, run, came⟩ := zen_servers_agree twoQuestions (by decide)
  exact ⟨blocking, trace, s, i, run, came, sends trace s i run came⟩

end NetworkProgramming.SrvAsync
