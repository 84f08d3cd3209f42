import NetworkProgramming.AsyncServer

/-!
The clients of the asynchronous server. Each of them is read or written at any time and has its
timer set, as long as every message is understood, every reply fits into write_buffer_ and a
timer that expires does so late enough for its client to be stopped.
-/

namespace NetworkProgramming.AsyncServer

open CText
open SyncServer (max_msg Request request)

def erasures (client : Nat) (trace : List Step) : Nat :=
  trace.countP fun e => decide (client ∈ e.before.clients ∧ client ∉ e.after.clients)

def Busy (c : TalkToClient) : Prop :=
  c.started = true ∧ c.reads + c.writes = 1 ∧ c.waiting = true

def Served (trace : List Step) (s : State) : Prop :=
  s.undefined = false ∧ (∀ client ∈ s.clients, Busy (s.object client)) ∧
    ∀ client, erasures client trace =
      if client < s.accepting ∧ client ∉ s.clients then 1 else 0

def Fitting (e : Step) : Bool :=
  match e.action with
  | .onRead client false msg =>
      !(e.before.object client).started || decide (Fits e.before msg)
  | _ => true

/-- A message of a client is understood, and a wait that has not been replaced is over more than
5 seconds after last_ping. -/
def Answering (e : Step) : Bool :=
  match e.action with
  | .onRead client false msg =>
      !(e.before.object client).started || decide (request msg ≠ .invalid)
  | .expired client now _ =>
      !(e.before.object client).started || (e.before.object client).timedOut now
  | _ => true

def Met (e : Step) : Bool := Fitting e && Answering e

/-! The array. -/

theorem clients_msg_ended (s : State) (client : Nat) :
    (s.readEnded client).clientsMsg = s.clientsMsg := by
  have names (p : Nat) : ((s.readEnded client).object p).username = (s.object p).username := by
    by_cases mine : p = client
    · rw [mine, State.readEnded, set_self]
    · rw [State.readEnded, set_other _ _ _ _ mine]
  simp only [State.clientsMsg, names]
  rfl

theorem ended_started (s : State) (client : Nat) (here : (s.object client).started = true) :
    ((s.readEnded client).object client).started = true := by
  rw [State.readEnded, set_self]
  exact here

inductive Outcome (s s' : State) : Prop where
  | joined (now : Int) (same : s' = s.handleAccept now)
  | framed (client : Nat) (frame : Frame client s s')
  | stopped (client : Nat) (stopped : Stopped client s s')

theorem written_frame (s : State) (client : Nat) (made : client < s.accepting) :
    Frame client s ((s.writeEnded client).onWrite client) := by
  have ended : Frame client s (s.writeEnded client) := frame_set s client _ made rfl
  exact frame_trans ended (frame_set _ client _ made rfl)

theorem checked_outcome (s t : State) (client : Nat) (now later : Int) (formed : Formed s)
    (made : client < s.accepting) (ended : Frame client s t) :
    Outcome s (t.onCheckPing client now later).1 := by
  have still : client < t.accepting := ended.accepting ▸ made
  by_cases late : (t.object client).timedOut now = true
  · have stopped := (check_ping_late t client now later (formed_frame formed ended) still late).1
    exact .stopped client (frame_stopped ended stopped)
  · rw [check_ping_early t client now later late]
    exact .framed client (frame_trans ended (frame_set _ client _ still rfl))

theorem outcome (e : Step) (stepped : machine.Stepped e) (formed : Formed e.before)
    (fitting : Fitting e = true) : Outcome e.before e.after := by
  have effect := effect_of_stepped e stepped formed
  obtain ⟨s, action, output, after⟩ := e
  dsimp only at effect formed
  cases effect with
  | joined now => exact .joined now rfl
  | failed client msg outstanding made =>
      have ended := read_ended_frame s client made
      exact .stopped client
        (frame_stopped ended (stop_stopped _ client (formed_frame formed ended)))
  | answered client msg outstanding made here =>
      have ended := read_ended_frame s client made
      have fits : Fits (s.readEnded client) msg := by
        have before : Fits s msg := by simpa [Fitting, here] using fitting
        rwa [Fits, clients_msg_ended]
      have dispatched := dispatch_frame _ client msg (formed_frame formed ended)
        (ended_started s client here) fits
      exact .framed client (frame_trans ended dispatched.1)
  | ignored client msg made gone => exact .framed client (read_ended_frame s client made)
  | written client outstanding made => exact .framed client (written_frame s client made)
  | expired client now later made =>
      exact checked_outcome s _ client now later formed made (frame_set s client _ made rfl)
  | replaced client now later made =>
      exact checked_outcome s _ client now later formed made (frame_set s client _ made rfl)

theorem joined_object (s : State) (now : Int) :
    (s.handleAccept now).object s.accepting =
      { s.object s.accepting with started := true, lastPing := now }.doRead :=
  set_self s s.accepting _

theorem formed_joined (s : State) (now : Int) (formed : Formed s) :
    Formed (s.handleAccept now) := by
  have absent : s.accepting ∉ s.clients := fun member =>
    Nat.lt_irrefl _ (formed.made s.accepting member)
  have other (p : Nat) (old : p ≠ s.accepting) :
      (s.handleAccept now).object p = s.object p := set_other s _ p _ old
  refine ⟨formed.defined, ?_, fun p => ?_, fun p member => ?_, fun p above => ?_⟩
  · exact List.nodup_append.mpr ⟨formed.nodup, List.pairwise_singleton _ _, fun p old q new => by
      rw [List.mem_singleton.mp new]
      exact fun same => absent (same ▸ old)⟩
  · change _ ↔ p ∈ s.clients ++ [s.accepting]
    rw [List.mem_append, List.mem_singleton]
    by_cases new : p = s.accepting
    · rw [new, joined_object]
      exact iff_of_true rfl (Or.inr rfl)
    · rw [other p new, formed.started p]
      simp [new]
  · rcases List.mem_append.mp member with old | new
    · exact Nat.lt_succ_of_lt (formed.made p old)
    · rw [List.mem_singleton.mp new]
      exact Nat.lt_succ_self _
  · change s.accepting + 1 ≤ p at above
    rw [other p (by omega)]
    exact formed.fresh p (by omega)

theorem formed_start (s : State) (first : machine.start s) : Formed s := by
  obtain ⟨nobody, new, none_, defined⟩ := first
  refine ⟨defined, by simp [nobody], fun p => ?_, by simp [nobody], fun p _ => new p⟩
  rw [(new p).2.2.2.2.1, nobody]
  simp

theorem formed_outcome {s s' : State} (formed : Formed s) (outcome : Outcome s s') : Formed s' := by
  cases outcome with
  | joined now same => exact same ▸ formed_joined s now formed
  | framed client frame => exact formed_frame formed frame
  | stopped client stopped => exact stopped.formed

theorem erasures_kept (trace : List Step) (e : Step) (formed : Formed e.before)
    (outcome : Outcome e.before e.after)
    (counted : ∀ client, erasures client trace =
      if client < e.before.accepting ∧ client ∉ e.before.clients then 1 else 0) (client : Nat) :
    erasures client (trace ++ [e]) =
      if client < e.after.accepting ∧ client ∉ e.after.clients then 1 else 0 := by
  have split : erasures client (trace ++ [e]) = erasures client trace +
      if client ∈ e.before.clients ∧ client ∉ e.after.clients then 1 else 0 := by
    simp [erasures, List.countP_append, List.countP_cons]
  rw [split, counted client]
  cases outcome with
  | joined now same =>
      have clients : e.after.clients = e.before.clients ++ [e.before.accepting] := by
        rw [same]
        rfl
      have accepting : e.after.accepting = e.before.accepting + 1 := by rw [same]; rfl
      have made := formed.made client
      rw [clients, accepting]
      by_cases member : client ∈ e.before.clients
      · simp [member]
      · by_cases new : client = e.before.accepting
        · simp [new]
        · have same : client < e.before.accepting + 1 ↔ client < e.before.accepting := by omega
          simp [member, new, same]
  | framed other frame =>
      rw [frame.clients, frame.accepting]
      simp
  | stopped other stopped =>
      rw [stopped.clients, stopped.accepting]
      by_cases mine : client = other
      · have gone : client ∉ e.before.clients.erase other := mine ▸ formed.nodup.not_mem_erase
        by_cases member : client ∈ e.before.clients
        · simp [member, gone, formed.made client member]
        · simp [member, gone]
      · simp [List.mem_erase_of_ne mine]

/-! The operations. -/

theorem busy_ops {c d : TalkToClient} (same : c.ops = d.ops) (busy : Busy d) : Busy c := by
  simp only [TalkToClient.ops, Prod.mk.injEq] at same
  rw [Busy, same.1, same.2.1, same.2.2.1, same.2.2.2]
  exact busy

theorem busy_frame {client : Nat} {s s' : State} (frame : Frame client s s')
    (busy : ∀ p ∈ s.clients, Busy (s.object p))
    (mine : client ∈ s.clients → Busy (s'.object client)) :
    ∀ p ∈ s'.clients, Busy (s'.object p) := by
  intro p member
  rw [frame.clients] at member
  by_cases here : p = client
  · exact here ▸ mine (here ▸ member)
  · exact busy_ops (frame.others p here) (busy p member)

theorem busy_stopped {client : Nat} {s s' : State} (formed : Formed s)
    (stopped : Stopped client s s') (busy : ∀ p ∈ s.clients, Busy (s.object p)) :
    ∀ p ∈ s'.clients, Busy (s'.object p) := by
  intro p member
  have other : p ≠ client := fun same => stopped_gone formed stopped (same ▸ member)
  rw [stopped.clients] at member
  exact busy_ops (stopped.others p other) (busy p (List.mem_of_mem_erase member))

theorem late_busy (s t : State) (client : Nat) (now later : Int) (formed : Formed s)
    (made : client < s.accepting) (ended : Frame client s t)
    (late : (t.object client).timedOut now = true) (busy : ∀ p ∈ s.clients, Busy (s.object p)) :
    ∀ p ∈ (t.onCheckPing client now later).1.clients,
      Busy ((t.onCheckPing client now later).1.object p) :=
  busy_stopped formed (frame_stopped ended (check_ping_late t client now later
    (formed_frame formed ended) (ended.accepting ▸ made) late).1) busy

theorem answered_busy (s : State) (client : Nat) (msg : List UInt8) (formed : Formed s)
    (made : client < s.accepting) (outstanding : 0 < (s.object client).reads)
    (here : (s.object client).started = true) (busy : Busy (s.object client))
    (fits : Fits s msg) :
    Frame client s ((s.readEnded client).dispatch client msg).1 ∧
      (Busy (((s.readEnded client).dispatch client msg).1.object client) ↔
        request msg ≠ .invalid) := by
  have ended := read_ended_frame s client made
  have fits' : Fits (s.readEnded client) msg := by rwa [Fits, clients_msg_ended]
  obtain ⟨frame, ops⟩ := dispatch_frame _ client msg (formed_frame formed ended)
    (ended_started s client here) fits'
  refine ⟨frame_trans ended frame, ?_⟩
  rw [State.readEnded, set_self] at ops
  dsimp only at ops
  obtain ⟨-, one, waiting⟩ := busy
  simp only [TalkToClient.ops, Prod.mk.injEq] at ops
  obtain ⟨reads, writes, wait, on⟩ := ops
  rw [Busy, State.readEnded, reads, writes, wait, on]
  by_cases known : request msg = .invalid
  · simp only [known, if_true, ne_eq, not_true, iff_false]
    omega
  · simp only [known, if_false, ne_eq, not_false_eq_true, iff_true]
    exact ⟨here, by omega, waiting⟩

theorem joined_busy (s : State) (now : Int) (formed : Formed s)
    (busy : ∀ p ∈ s.clients, Busy (s.object p)) :
    ∀ p ∈ (s.handleAccept now).clients, Busy ((s.handleAccept now).object p) := by
  intro p member
  by_cases new : p = s.accepting
  · obtain ⟨reads, writes, -⟩ := formed.fresh s.accepting (Nat.le_refl _)
    rw [new, joined_object]
    refine ⟨rfl, ?_, rfl⟩
    change (s.object s.accepting).reads + 1 + (s.object s.accepting).writes = 1
    rw [reads, writes]
  · have old : (s.handleAccept now).object p = s.object p := set_other s _ p _ new
    rw [old]
    rcases List.mem_append.mp member with inside | last
    · exact busy p inside
    · exact absurd (List.mem_singleton.mp last) new

theorem written_busy (s : State) (client : Nat) (outstanding : 0 < (s.object client).writes)
    (busy : Busy (s.object client)) :
    Busy (((s.writeEnded client).onWrite client).object client) := by
  obtain ⟨on, one, -⟩ := busy
  rw [State.onWrite, set_self, State.writeEnded, set_self]
  refine ⟨on, ?_, rfl⟩
  change (s.object client).reads + 1 + ((s.object client).writes - 1) = 1
  omega

theorem timed_out_ended (s : State) (client : Nat) (now : Int) :
    ((s.waitEnded client).object client).timedOut now = (s.object client).timedOut now := by
  rw [State.waitEnded, set_self]
  rfl

theorem busy_kept (e : Step) (stepped : machine.Stepped e) (formed : Formed e.before)
    (met : Met e = true) (busy : ∀ p ∈ e.before.clients, Busy (e.before.object p)) :
    ∀ p ∈ e.after.clients, Busy (e.after.object p) := by
  have effect := effect_of_stepped e stepped formed
  rw [Met, Bool.and_eq_true] at met
  obtain ⟨s, action, output, after⟩ := e
  dsimp only at effect formed busy
  cases effect with
  | joined now => exact joined_busy s now formed busy
  | failed client msg outstanding made =>
      have ended := read_ended_frame s client made
      exact busy_stopped formed
        (frame_stopped ended (stop_stopped _ client (formed_frame formed ended))) busy
  | answered client msg outstanding made here =>
      have fits : Fits s msg := by simpa [Fitting, here] using met.1
      have known : request msg ≠ .invalid := by simpa [Answering, here] using met.2
      have member := (formed.started client).mp here
      obtain ⟨frame, iff_⟩ := answered_busy s client msg formed made outstanding here
        (busy client member) fits
      exact busy_frame frame busy fun _ => iff_.mpr known
  | ignored client msg made gone =>
      exact busy_frame (read_ended_frame s client made) busy fun member =>
        absurd ((formed.started client).mpr member) gone
  | written client outstanding made =>
      exact busy_frame (written_frame s client made) busy fun member =>
        written_busy s client outstanding (busy client member)
  | expired client now later made =>
      have ended : Frame client s (s.waitEnded client) := frame_set s client _ made rfl
      by_cases late : ((s.waitEnded client).object client).timedOut now = true
      · exact late_busy s _ client now later formed made ended late busy
      · rw [check_ping_early _ client now later late]
        refine busy_frame (frame_trans ended (frame_set _ client _ made rfl)) busy fun member => ?_
        -- a client of the array would have been stopped
        rw [timed_out_ended] at late
        exact absurd met.2 (by simp [Answering, (formed.started client).mpr member, late])
  | replaced client now later made =>
      have ended : Frame client s (s.replacedEnded client) := frame_set s client _ made rfl
      by_cases late : ((s.replacedEnded client).object client).timedOut now = true
      · exact late_busy s _ client now later formed made ended late busy
      · rw [check_ping_early _ client now later late]
        refine busy_frame (frame_trans ended (frame_set _ client _ made rfl)) busy fun member => ?_
        rw [set_self, State.replacedEnded, set_self]
        exact busy_ops rfl (busy client member)

/-! Over a run. -/

theorem formed_busy_run {trace : List Step} {s : State} (run : machine.Run trace s)
    (met : ∀ e ∈ trace, Met e = true) :
    Formed s ∧ ∀ client ∈ s.clients, Busy (s.object client) :=
  run.preserves (C := fun e => Met e = true)
    (I := fun s => Formed s ∧ ∀ client ∈ s.clients, Busy (s.object client))
    (fun s first => ⟨formed_start s first, by simp [first.1]⟩)
    (fun e stepped ok kept =>
      have fitting := (Bool.and_eq_true _ _ ▸ ok : Fitting e = true ∧ Answering e = true).1
      ⟨formed_outcome kept.1 (outcome e stepped kept.1 fitting),
        busy_kept e stepped kept.1 ok kept.2⟩) met

theorem erasures_run {trace : List Step} {s : State} (run : machine.Run trace s)
    (fitting : ∀ e ∈ trace, Fitting e = true) : ∀ client, erasures client trace =
      if client < s.accepting ∧ client ∉ s.clients then 1 else 0 := by
  have both := run.history (C := fun e => Fitting e = true)
    (I := fun trace s => Formed s ∧ ∀ client, erasures client trace =
      if client < s.accepting ∧ client ∉ s.clients then 1 else 0)
    (fun s first => ⟨formed_start s first, fun client => by simp [erasures, first.2.2.1]⟩)
    (fun trace e stepped fits kept =>
      have moved := outcome e stepped kept.1 fits
      ⟨formed_outcome kept.1 moved, erasures_kept trace e kept.1 moved kept.2⟩) fitting
  exact both.2

theorem fitting_of_defined (e : Step) (stepped : machine.Stepped e) (formed : Formed e.before)
    (defined : e.after.undefined = false) : Fitting e = true := by
  have effect := effect_of_stepped e stepped formed
  obtain ⟨s, action, output, after⟩ := e
  dsimp only at effect formed defined
  cases effect with
  | joined now => rfl
  | failed client msg outstanding made => rfl
  | ignored client msg made gone => simp [Fitting, gone]
  | written client outstanding made => rfl
  | expired client now later made => rfl
  | replaced client now later made => rfl
  | answered client msg outstanding made here =>
      rw [Fitting, Bool.or_eq_true, decide_eq_true_eq]
      refine Or.inr fun kind => ?_
      by_contra long
      rw [State.dispatch, kind] at defined
      dsimp only at defined
      rw [State.onClients, State.doWrite, if_pos (ended_started s client here),
        clients_msg_ended, if_neg long] at defined
      cases defined

theorem answering_of_busy (e : Step) (stepped : machine.Stepped e) (formed : Formed e.before)
    (fitting : Fitting e = true) (before : ∀ p ∈ e.before.clients, Busy (e.before.object p))
    (after : ∀ p ∈ e.after.clients, Busy (e.after.object p)) : Answering e = true := by
  have effect := effect_of_stepped e stepped formed
  obtain ⟨s, action, output, last⟩ := e
  dsimp only at effect formed before after
  cases effect with
  | joined now => rfl
  | failed client msg outstanding made => rfl
  | ignored client msg made gone => simp [Answering, gone]
  | written client outstanding made => rfl
  | replaced client now later made => rfl
  | answered client msg outstanding made here =>
      have fits : Fits s msg := by simpa [Fitting, here] using fitting
      have member := (formed.started client).mp here
      obtain ⟨frame, iff_⟩ := answered_busy s client msg formed made outstanding here
        (before client member) fits
      have known := iff_.mp (after client (frame.clients ▸ member))
      simp [Answering, known]
  | expired client now later made =>
      by_cases here : (s.object client).started = true
      · by_cases late : (s.object client).timedOut now = true
        · simp [Answering, late]
        · rw [← timed_out_ended] at late
          have member := (formed.started client).mp here
          rw [check_ping_early _ client now later late] at after
          have busy := after client member
          rw [set_self, State.waitEnded, set_self] at busy
          exact absurd busy.2.2 (by simp)
      · simp [Answering, here]

/-- The asynchronous server reads, writes and times every client that it has until it stops it,
exactly as long as every handler goes on with its client. -/
theorem clients_served {trace : List Step} {s : State} (run : machine.Run trace s) :
    (∀ e ∈ trace, Met e = true) ↔
      ∀ pre last, pre <+: trace → machine.Run pre last → Served pre last := by
  refine run.exactly (fun pre last reached met => ?_)
    (fun pre e earlier met stepped before after => ?_)
  · obtain ⟨formed, busy⟩ := formed_busy_run reached met
    have fitting (e : Step) (member : e ∈ pre) : Fitting e = true :=
      ((Bool.and_eq_true _ _).mp (met e member)).1
    exact ⟨formed.defined, busy, erasures_run reached fitting⟩
  · obtain ⟨formed, busy⟩ := formed_busy_run earlier met
    have fitting := fitting_of_defined e stepped formed after.1
    have answering := answering_of_busy e stepped formed fitting busy after.2.1
    rw [Met, fitting, answering]
    rfl

/-! A client that is answered, and two that are forgotten. -/

def pingAndLeave : List Action :=
  [.handleAccept 0, .onRead 0 false (bytes "ping\n"), .onWrite 0, .replaced 0 1000000 1000000,
    .expired 0 5002000000 5002000000]

theorem ping_and_leave_served : ∃ trace s, machine.Run trace s ∧ erasures 0 trace = 1 ∧
    ∀ pre last, pre <+: trace → machine.Run pre last → Served pre last := by
  obtain ⟨trace, s, run, check⟩ := Machine.run_of_check no_clients_start pingAndLeave
    (fun r => decide (erasures 0 r.1 = 1) && r.1.all Met) (by decide +kernel)
  rw [Bool.and_eq_true] at check
  exact ⟨trace, s, run, of_decide_eq_true check.1,
    (clients_served run).mp (List.all_eq_true.mp check.2)⟩

theorem invalid_message_forgotten : ¬ ∀ trace s, machine.Run trace s → Served trace s := by
  intro always
  obtain ⟨trace, s, run, check⟩ := Machine.run_of_check no_clients_start
    [.handleAccept 0, .onRead 0 false (bytes "hello\n")]
    (fun r => decide (r.2.clients = [0] ∧ (r.2.object 0).reads + (r.2.object 0).writes = 0))
    (by decide +kernel)
  obtain ⟨listed, idle⟩ := of_decide_eq_true check
  have busy := (always trace s run).2.1 0 (listed ▸ List.mem_singleton_self 0)
  rw [Busy, idle] at busy
  exact absurd busy.2.1 (by decide)

end NetworkProgramming.AsyncServer
