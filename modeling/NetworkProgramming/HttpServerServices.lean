import NetworkProgramming.HttpServer

/-!
The life of a Service: made for a connection, with one operation at a time, and deleted by its
last handler. A handler that an exception leaves deletes nothing and takes the process with it.
-/

namespace NetworkProgramming.HttpServer

open CText TextStream

/-! The exceptions. -/

def Accepted (s : Service) (requestLine : List UInt8) : Prop :=
  let method := TextStream.word isspace ⟨requestLine, true⟩ []
  let resource := method.2.word isspace s.requestedResource
  method.1 = bytes "GET" ∧ (resource.2.word isspace []).1 = bytes "HTTP/1.1"

/-- What a handler needs so that it is not left by an exception. -/
def Works (s : Service) (op : Op) (ec : Ec) (more : List UInt8) (shutdown : Bool)
    (files : List UInt8 → File) : Prop :=
  match op, ec with
  | .response, _ => shutdown = true
  | .requestLine, .success =>
      shutdown = true ∨ Accepted s (TextStream.getline cr ⟨s.request ++ more, true⟩ []).1
  | .headers, .success =>
      shutdown = true ∧ files (bytes "." ++ s.requestedResource) ≠ .oversized
  | _, .notFound => shutdown = true
  | _, .other _ => True

theorem send_response_works (s : Service) (shutdown : Bool)
    (known : (httpStatusTable s.responseStatusCode).isSome = true) :
    s.sendResponse shutdown ≠ .thrown ↔ shutdown = true := by
  obtain ⟨line, found⟩ := Option.isSome_iff_exists.mp known
  cases shutdown <;> simp [Service.sendResponse, found]

theorem parse_request_line_works (s : Service) (line : List UInt8) (shutdown : Bool) :
    s.parseRequestLine line shutdown ≠ .thrown ↔ shutdown = true ∨ Accepted s line := by
  rw [Service.parseRequestLine]
  dsimp only
  by_cases method : (TextStream.word isspace ⟨line, true⟩ []).1 = bytes "GET"
  · rw [if_neg (not_not.mpr method)]
    by_cases version : (((TextStream.word isspace ⟨line, true⟩ []).2.word isspace
        s.requestedResource).2.word isspace []).1 = bytes "HTTP/1.1"
    · rw [if_neg (not_not.mpr version)]
      exact iff_of_true Outcome.noConfusion (Or.inr ⟨method, version⟩)
    · rw [if_pos version, send_response_works _ shutdown rfl]
      exact (or_iff_left fun accepted => version accepted.2).symm
  · rw [if_pos method, send_response_works _ shutdown rfl]
    exact (or_iff_left fun accepted => method accepted.1).symm

theorem process_request_works (s : Service) (files : List UInt8 → File) (shutdown : Bool)
    (code : s.responseStatusCode = 200) :
    (match s.processRequest files with
      | none => Outcome.thrown
      | some s => s.sendResponse shutdown) ≠ .thrown ↔
    shutdown = true ∧ files (bytes "." ++ s.requestedResource) ≠ .oversized := by
  rw [Service.processRequest]
  cases files (bytes "." ++ s.requestedResource) with
  | missing =>
      dsimp only
      rw [send_response_works _ shutdown rfl]
      exact (and_iff_left nofun).symm
  | closed =>
      dsimp only
      rw [send_response_works _ shutdown rfl]
      exact (and_iff_left nofun).symm
  | opened content =>
      dsimp only
      rw [send_response_works _ shutdown (by rw [code]; rfl)]
      exact (and_iff_left nofun).symm
  | oversized => simp

theorem handle_works (s : Service) (op : Op) (ec : Ec) (more : List UInt8) (shutdown : Bool)
    (files : List UInt8 → File) (code : op ≠ .response → s.responseStatusCode = 200) :
    s.handle op ec more shutdown files ≠ .thrown ↔ Works s op ec more shutdown files := by
  cases op with
  | requestLine =>
      cases ec with
      | notFound =>
          exact send_response_works
            { s with request := s.request ++ more, responseStatusCode := 413 } shutdown rfl
      | other code => exact iff_of_true Outcome.noConfusion trivial
      | success => exact parse_request_line_works _ _ shutdown
  | headers =>
      cases ec with
      | notFound =>
          exact send_response_works
            { s with request := s.request ++ more, responseStatusCode := 413 } shutdown rfl
      | other code => exact iff_of_true Outcome.noConfusion trivial
      | success =>
          obtain ⟨left, headers, ended, -⟩ :=
            header_loop_ends ((s.request ++ more).length + 2) ⟨s.request ++ more, true⟩
              s.requestHeaders (Nat.le_refl _)
          simp only [Service.handle, Service.onHeadersReceived, ended]
          exact process_request_works { s with request := left, requestHeaders := headers } files
            shutdown (code Op.noConfusion)
  | response => cases shutdown <;> simp [Service.handle, Service.onResponseSent, Works]

/-! The runs. -/

def ofService (i : Nat) (e : Step) : Bool :=
  match e.action with
  | .complete j _ _ _ _ _ => j = i
  | .onAccept => false

def handlers (i : Nat) (trace : List Step) : Nat := trace.countP (ofService i)

def deletions (i : Nat) (trace : List Step) : Nat := trace.countP fun e => e.output = .deleted i

structure Alive (i : Nat) (trace : List Step) (s : State) (service : Service) (op : Op) :
    Prop where
  object : s.object i = some service
  pending : s.pending i = [op]
  code : op ≠ .response → service.responseStatusCode = 200
  kept : deletions i trace = 0
  few : handlers i trace + op.rank ≤ 2

structure Deleted (i : Nat) (trace : List Step) (s : State) : Prop where
  object : s.object i = none
  pending : s.pending i = []
  once : deletions i trace = 1

structure Unmade (i : Nat) (trace : List Step) (s : State) : Prop where
  pending : s.pending i = []
  kept : deletions i trace = 0
  none_ : handlers i trace = 0

structure Lived (trace : List Step) (s : State) : Prop where
  runs : s.terminated = false
  sound : s.misused = false
  made : ∀ i, i < s.created →
    (∃ service op, Alive i trace s service op) ∨ Deleted i trace s
  unmade : ∀ i, s.created ≤ i → Unmade i trace s

/-- No exception has left a handler, no handler has run behind the deletion of its Service, and
every Service has been deleted once, or still has an operation after at most two handlers. -/
structure Disposed (trace : List Step) (s : State) : Prop where
  runs : s.terminated = false
  sound : s.misused = false
  once : ∀ i, i < s.created →
    (deletions i trace = 1 ∧ s.pending i = []) ∨
    (deletions i trace = 0 ∧ handlers i trace ≤ 2 ∧ ∃ op, s.pending i = [op])

theorem Lived.disposed {trace : List Step} {s : State} (lived : Lived trace s) :
    Disposed trace s := by
  refine ⟨lived.runs, lived.sound, fun i there => ?_⟩
  rcases lived.made i there with ⟨service, op, alive⟩ | deleted
  · have few := alive.few
    exact Or.inr ⟨alive.kept, by omega, op, alive.pending⟩
  · exact Or.inl ⟨deleted.once, deleted.pending⟩

def Met (e : Step) : Prop :=
  ∀ i op ec more shutdown files service,
    e.action = .complete i op ec more shutdown files → e.before.object i = some service →
      Works service op ec more shutdown files

theorem handlers_snoc (i : Nat) (trace : List Step) (e : Step) :
    handlers i (trace ++ [e]) = handlers i trace + if ofService i e then 1 else 0 := by
  rw [handlers, List.countP_append, List.countP_singleton, handlers]

theorem deletions_snoc (i : Nat) (trace : List Step) (e : Step) :
    deletions i (trace ++ [e]) = deletions i trace + if e.output = .deleted i then 1 else 0 := by
  rw [deletions, List.countP_append, List.countP_singleton, deletions]
  simp

structure Apart (i : Nat) (e : Step) : Prop where
  object : e.after.object i = e.before.object i
  pending : e.after.pending i = e.before.pending i
  other : ofService i e = false
  stays : e.output ≠ .deleted i

section

variable {i : Nat} {trace : List Step} {e : Step}

theorem Apart.handlers_same (apart : Apart i e) : handlers i (trace ++ [e]) = handlers i trace := by
  rw [handlers_snoc, apart.other]
  rfl

theorem Apart.deletions_same (apart : Apart i e) :
    deletions i (trace ++ [e]) = deletions i trace := by
  rw [deletions_snoc, if_neg apart.stays, Nat.add_zero]

theorem Alive.apart {service : Service} {op : Op} (alive : Alive i trace e.before service op)
    (apart : Apart i e) : Alive i (trace ++ [e]) e.after service op :=
  ⟨apart.object.trans alive.object, apart.pending.trans alive.pending, alive.code,
    apart.deletions_same.trans alive.kept, (congrArg (· + op.rank) apart.handlers_same).trans_le alive.few⟩

theorem Deleted.apart (deleted : Deleted i trace e.before) (apart : Apart i e) :
    Deleted i (trace ++ [e]) e.after :=
  ⟨apart.object.trans deleted.object, apart.pending.trans deleted.pending,
    apart.deletions_same.trans deleted.once⟩

theorem Unmade.apart (unmade : Unmade i trace e.before) (apart : Apart i e) :
    Unmade i (trace ++ [e]) e.after :=
  ⟨apart.pending.trans unmade.pending, apart.deletions_same.trans unmade.kept,
    apart.handlers_same.trans unmade.none_⟩

end

theorem lived_accept (trace : List Step) (e : Step) (lived : Lived trace e.before)
    (action : e.action = .onAccept) (after : e.after = e.before.accept)
    (output : e.output = .created e.before.created) : Lived (trace ++ [e]) e.after := by
  have other (i : Nat) : ofService i e = false := by rw [ofService, action]
  have stays (i : Nat) : e.output ≠ .deleted i := by
    rw [output]
    exact Answer.noConfusion
  have apart (i : Nat) (old : i ≠ e.before.created) : Apart i e :=
    ⟨by simp [after, State.accept, old], by simp [after, State.accept, old], other i, stays i⟩
  have more : e.after.created = e.before.created + 1 := by rw [after, State.accept]
  refine ⟨?_, ?_, fun i there => ?_, fun i later => ?_⟩
  · rw [after, State.accept]
    exact lived.runs
  · rw [after, State.accept]
    exact lived.sound
  · by_cases here : i = e.before.created
    · have none_ := lived.unmade i (Nat.le_of_eq here.symm)
      refine Or.inl ⟨.new, .requestLine, ?_, ?_, fun _ => rfl, ?_, ?_⟩
      · simp [after, State.accept, here]
      · simp [after, State.accept, here]
      · rw [deletions_snoc, if_neg (stays i), none_.kept]
      · rw [handlers_snoc, other, none_.none_]
        decide
    · rcases lived.made i (by omega) with ⟨service, op, alive⟩ | deleted
      · exact Or.inl ⟨service, op, alive.apart (apart i here)⟩
      · exact Or.inr (deleted.apart (apart i here))
  · exact (lived.unmade i (by omega)).apart (apart i (by omega))

theorem lived_pending (trace : List Step) (s : State) (lived : Lived trace s) (i : Nat) (op : Op)
    (member : op ∈ s.pending i) : i < s.created ∧ ∃ service, Alive i trace s service op := by
  rcases Nat.lt_or_ge i s.created with there | later
  · rcases lived.made i there with ⟨service, op', alive⟩ | deleted
    · rw [alive.pending, List.mem_singleton] at member
      exact ⟨there, service, member ▸ alive⟩
    · simp [deleted.pending] at member
  · simp [(lived.unmade i later).pending] at member

theorem apart_finish (i j : Nat) (op : Op) (ec : Ec) (more : List UInt8) (shutdown : Bool)
    (files : List UInt8 → File) (e : Step) (outcome : Outcome) (old : j ≠ i)
    (action : e.action = .complete i op ec more shutdown files)
    (after : e.after = ((e.before.take i op).finish i outcome).1)
    (output : e.output = ((e.before.take i op).finish i outcome).2) : Apart j e := by
  obtain ⟨object, pending⟩ := finish_other e.before i j op outcome old
  refine ⟨by rw [after, object], by rw [after, pending], ?_, fun deleted => ?_⟩
  · simp only [ofService, action, decide_eq_false_iff_not]
    exact old.symm
  · rw [output] at deleted
    cases outcome <;> cases deleted
    exact old rfl

theorem alive_finish (i : Nat) (op : Op) (ec : Ec) (more : List UInt8) (shutdown : Bool)
    (files : List UInt8 → File) (trace : List Step) (e : Step) (service : Service)
    (alive : Alive i trace e.before service op)
    (action : e.action = .complete i op ec more shutdown files)
    (after : e.after = ((e.before.take i op).finish i
      (service.handle op ec more shutdown files)).1)
    (output : e.output = ((e.before.take i op).finish i
      (service.handle op ec more shutdown files)).2)
    (works : service.handle op ec more shutdown files ≠ .thrown) :
    (∃ service' op', Alive i (trace ++ [e]) e.after service' op') ∨
      Deleted i (trace ++ [e]) e.after := by
  have one : handlers i (trace ++ [e]) = handlers i trace + 1 := by
    rw [handlers_snoc]
    simp [ofService, action]
  have pending := finish_pending e.before i op (service.handle op ec more shutdown files) alive.pending
  rw [← after] at pending
  have kept := alive.kept
  have few := alive.few
  cases outcome : service.handle op ec more shutdown files with
  | waits service' op' =>
      obtain ⟨less, code⟩ := handle_waits _ _ _ _ _ _ _ _ outcome
      rw [outcome] at after output pending
      refine Or.inl ⟨service', op', ?_, pending, fun reads => ?_, ?_, ?_⟩
      · simp [after, State.finish, State.start]
      · rw [code reads]
        exact alive.code fun last => absurd less (by simp [last, Op.rank])
      · rw [deletions_snoc, output, kept]
        simp [State.finish]
      · omega
  | deleted =>
      rw [outcome] at after output pending
      refine Or.inr ⟨?_, pending, ?_⟩
      · simp [after, State.finish, State.delete]
      · rw [deletions_snoc, output, kept]
        simp [State.finish]
  | thrown => exact absurd outcome works

theorem lived_complete (i : Nat) (op : Op) (ec : Ec) (more : List UInt8) (shutdown : Bool)
    (files : List UInt8 → File) (trace : List Step) (e : Step) (lived : Lived trace e.before)
    (service : Service) (alive : Alive i trace e.before service op)
    (there : i < e.before.created)
    (action : e.action = .complete i op ec more shutdown files)
    (after : e.after = ((e.before.take i op).finish i
      (service.handle op ec more shutdown files)).1)
    (output : e.output = ((e.before.take i op).finish i
      (service.handle op ec more shutdown files)).2)
    (works : service.handle op ec more shutdown files ≠ .thrown) :
    Lived (trace ++ [e]) e.after := by
  have apart (j : Nat) (old : j ≠ i) : Apart j e :=
    apart_finish i j op ec more shutdown files e _ old action after output
  have created : e.after.created = e.before.created := by rw [after, finish_created]
  have flags : e.after.terminated = false ∧ e.after.misused = false := by
    rw [after]
    cases outcome : service.handle op ec more shutdown files with
    | waits service' op' => exact ⟨lived.runs, lived.sound⟩
    | deleted => exact ⟨lived.runs, lived.sound⟩
    | thrown => exact absurd outcome works
  refine ⟨flags.1, flags.2, fun j made => ?_, fun j later => ?_⟩
  · by_cases here : j = i
    · subst here
      exact alive_finish j op ec more shutdown files trace e service alive action after output works
    · rcases lived.made j (created ▸ made) with ⟨service', op', other⟩ | deleted
      · exact Or.inl ⟨service', op', other.apart (apart j here)⟩
      · exact Or.inr (deleted.apart (apart j here))
  · exact (lived.unmade j (created ▸ later)).apart (apart j (by omega))

theorem lived_step (trace : List Step) (e : Step) (lived : Lived trace e.before)
    (stepped : machine.Stepped e) :
    Lived (trace ++ [e]) e.after ∧ Met e ∨ e.after.terminated = true ∧ ¬ Met e := by
  rcases step_cases e stepped with ⟨action, after, output⟩ |
    ⟨i, op, ec, more, shutdown, files, action, member, run⟩
  · refine Or.inl ⟨lived_accept trace e lived action after output, ?_⟩
    intro i op ec more shutdown files service same
    rw [action] at same
    cases same
  · obtain ⟨there, service, alive⟩ := lived_pending trace e.before lived i op member
    -- an operation under way has a Service that is not deleted
    rcases run with ⟨gone, -⟩ | ⟨service', alive', result⟩
    · simp [alive.object] at gone
    · obtain rfl := Option.some.inj (alive.object.symm.trans alive')
      have after : e.after = ((e.before.take i op).finish i
          (service.handle op ec more shutdown files)).1 := congrArg Prod.fst result
      have output : e.output = ((e.before.take i op).finish i
          (service.handle op ec more shutdown files)).2 := congrArg Prod.snd result
      have exact_ := handle_works service op ec more shutdown files alive.code
      have met : Met e ↔ Works service op ec more shutdown files := by
        constructor
        · intro met
          exact met i op ec more shutdown files service action alive.object
        · intro works j op' ec' more' shutdown' files' service' action' there'
          rw [action] at action'
          cases action'
          obtain rfl := Option.some.inj (alive.object.symm.trans there')
          exact works
      rw [met, ← exact_]
      by_cases works : service.handle op ec more shutdown files = .thrown
      · refine Or.inr ⟨?_, not_not.mpr works⟩
        rw [after, works, State.finish]
      · exact Or.inl ⟨lived_complete i op ec more shutdown files trace e lived service alive there
          action after output works, works⟩

theorem running_met (trace : List Step) (s : State) (run : machine.Run trace s)
    (runs : s.terminated = false) : Lived trace s ∧ ∀ e ∈ trace, Met e := by
  induction run with
  | start first =>
      exact ⟨⟨first.2.2.1, first.2.2.2, fun i there => absurd there (by simp [first.1]),
        fun i _ => ⟨(first.2.1 i).2, rfl, rfl⟩⟩, List.forall_mem_nil _⟩
  | next e before stepped ih =>
      have running : e.before.terminated = false := by
        by_contra over_
        simp [Machine.Stepped, machine, step, over_] at stepped
      obtain ⟨lived, met⟩ := ih running
      rcases lived_step _ e lived stepped with ⟨kept, now⟩ | ⟨ended, -⟩
      · refine ⟨kept, fun d member => ?_⟩
        rcases List.mem_append.mp member with earlier | last
        · exact met d earlier
        · rwa [List.mem_singleton.mp last]
      · exact absurd (runs.symm.trans ended) Bool.false_ne_true

/-- Exactly when each Service is deleted once, no handler runs behind the deletion and no
exception leaves a handler: no shutdown fails that a handler calls, and there is memory for every
file. -/
theorem disposed_iff (trace : List Step) (s : State) (run : machine.Run trace s) :
    (∀ e ∈ trace, Met e) ↔
      ∀ pre last, pre <+: trace → machine.Run pre last → Disposed pre last := by
  have lived (trace : List Step) (s : State) (run : machine.Run trace s)
      (met : ∀ e ∈ trace, Met e) : Lived trace s := by
    refine run.history (C := Met) ?_ ?_ met
    · intro s first
      exact ⟨first.2.2.1, first.2.2.2, fun i there => absurd there (by simp [first.1]),
        fun i _ => ⟨(first.2.1 i).2, rfl, rfl⟩⟩
    · intro trace e stepped ok before
      exact (lived_step trace e before stepped).resolve_right (fun bad => bad.2 ok) |>.1
  refine run.exactly (fun trace s run met => (lived trace s run met).disposed) ?_
  intro trace e before met stepped _ after
  rcases lived_step trace e (lived trace e.before before met) stepped with ok | bad
  · exact ok.2
  · exact absurd (after.runs.symm.trans bad.1) Bool.false_ne_true

/-- A file is sent on one connection while the other ends before its request. -/
theorem two_connections_disposed : ∃ trace s, machine.Run trace s ∧ Disposed trace s ∧
    trace.map (·.output) = [.created 0, .created 1, .started 0 .headers, .deleted 1,
      .started 0 .response, .deleted 0] := by
  have first : machine.start idle := ⟨rfl, fun _ => ⟨rfl, rfl⟩, rfl, rfl⟩
  obtain ⟨trace, s, run, checked⟩ := Machine.run_of_check (M := machine) first
    [.onAccept, .onAccept,
      .complete 0 .requestLine .success (bytes "GET /a HTTP/1.1\r\n") true fun _ => .missing,
      .complete 1 .requestLine (.other 2) [] true fun _ => .missing,
      .complete 0 .headers .success (bytes "Host: b\r\n\r\n") true fun _ => .opened [97],
      .complete 0 .response .success [] true fun _ => .missing]
    (fun r => decide (r.2.terminated = false ∧ r.1.map (·.output) = [.created 0, .created 1,
      .started 0 .headers, .deleted 1, .started 0 .response, .deleted 0])) (by decide +kernel)
  obtain ⟨runs, outputs⟩ := of_decide_eq_true checked
  have met := (running_met trace s run runs).2
  exact ⟨trace, s, run, (disposed_iff trace s run).mp met trace s (List.prefix_refl trace) run,
    outputs⟩

def read (ec : Ec) (more : List UInt8) (shutdown : Bool) : Step :=
  completed accepted.after 0 .new .requestLine ec more shutdown fun _ => .missing

theorem read_run (ec : Ec) (more : List UInt8) (shutdown : Bool) :
    machine.Run [accepted, read ec more shutdown] (read ec more shutdown).after := by
  have stepped : machine.Stepped (read ec more shutdown) :=
    completed_stepped accepted.after 0 .new .requestLine ec more shutdown _ rfl (by decide) rfl
  exact accepted_run.next (read ec more shutdown) stepped

theorem reset_not_disposed : ∃ trace s, machine.Run trace s ∧ ¬ Disposed trace s := by
  refine ⟨_, _, read_run .success (bytes "POST / HTTP/1.1\r\n") false, fun disposed => ?_⟩
  have ended : (read .success (bytes "POST / HTTP/1.1\r\n") false).after.terminated = true := by decide
  exact absurd (disposed.runs.symm.trans ended) Bool.false_ne_true

end NetworkProgramming.HttpServer
