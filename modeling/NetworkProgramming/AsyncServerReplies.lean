import Mathlib.Data.List.TakeDrop
import NetworkProgramming.AsyncServerClients

/-!
What the clients of the asynchronous server receive. do_write copies a reply into write_buffer_
and starts one async_write_some, and on_write reads the next request however many bytes that has
transferred.
-/

namespace NetworkProgramming.AsyncServer

open CText
open SyncServer (max_msg Request request loginOk)

/-- The server with what it was to reply to each client, what the client has received of it, and
what is in write_buffer_ for the write that is outstanding. -/
structure Session where
  server : State
  replied : Nat → List UInt8
  received : Nat → List UInt8
  writing : Nat → List UInt8

def Session.carry (s : Session) (server : State) (transferred : Nat) :
    Action → Answer → Option Session
  | .onWrite client, _ =>
      if 1 ≤ transferred ∧ transferred ≤ (s.writing client).length then
        some { s with
          server
          received := Function.update s.received client
            (s.received client ++ (s.writing client).take transferred)
          writing := Function.update s.writing client [] }
      else none
  | _, .handled client _ (some reply) => some { s with
      server
      replied := Function.update s.replied client (s.replied client ++ reply)
      writing := Function.update s.writing client reply }
  | _, _ => some { s with server }

def Session.step (s : Session) (a : Action × Nat) : Option (Session × Answer) :=
  (AsyncServer.step s.server a.1).bind fun ran =>
    (s.carry ran.1 a.2 a.1 ran.2).map fun after => (after, ran.2)

abbrev SessionStep := Transition Session (Action × Nat) Answer

def sessions : Machine Session (Action × Nat) Answer where
  start s := machine.start s.server ∧
    ∀ p, s.replied p = [] ∧ s.received p = [] ∧ s.writing p = []
  step := Session.step

def onServer (e : SessionStep) : Step := ⟨e.before.server, e.action.1, e.output, e.after.server⟩

/-- No copy runs past write_buffer_, and when a client is read again it has its replies. -/
def Delivered (e : SessionStep) : Prop :=
  (∀ client msg reply, e.output = .handled client msg (some reply) → reply.length ≤ max_msg) ∧
    ∀ client n, e.action = (.onWrite client, n) → e.after.received client = e.after.replied client

def wholeAt (s : Session) : Action × Nat → Bool
  | (.onWrite client, n) => decide (n = (s.writing client).length)
  | _ => true

def Whole (e : SessionStep) : Bool := Fitting (onServer e) && wholeAt e.before e.action

theorem carry_server {s after : Session} {server : State} {n : Nat} {a : Action} {answer : Answer}
    (took : s.carry server n a answer = some after) : after.server = server := by
  unfold Session.carry at took
  split at took
  · split at took <;> cases took
    rfl
  · cases took
    rfl
  · cases took
    rfl

theorem session_stepped {e : SessionStep} (stepped : sessions.Stepped e) :
    machine.Stepped (onServer e) ∧
      e.before.carry e.after.server e.action.2 e.action.1 e.output = some e.after := by
  obtain ⟨s, a, output, after⟩ := e
  change (AsyncServer.step s.server a.1).bind _ = some (after, output) at stepped
  obtain ⟨⟨server, answer⟩, ran, carried⟩ := Option.bind_eq_some_iff.mp stepped
  obtain ⟨t, took, same⟩ := Option.map_eq_some_iff.mp carried
  cases same
  have kept : after.server = server := carry_server took
  change AsyncServer.step s.server a.1 = some (after.server, answer) ∧
    s.carry after.server a.2 a.1 answer = some after
  rw [kept]
  exact ⟨ran, took⟩

/-! The operations that are outstanding. -/

def TalkToClient.io (c : TalkToClient) : Nat × Nat := (c.reads, c.writes)

theorem update_io (s : State) (p : Nat) :
    (s.updateClientsChanged.object p).io = (s.object p).io := by
  simp only [State.updateClientsChanged]
  split <;> rfl

theorem set_io (s : State) (client p : Nat) (c : TalkToClient) (same : c.io = (s.object client).io) :
    ((s.set client c).object p).io = (s.object p).io := by
  by_cases mine : p = client
  · rw [mine, set_self, same]
  · rw [set_other _ _ _ _ mine]

theorem stop_io (s : State) (client p : Nat) :
    ((s.stop client).object p).io = (s.object p).io := by
  have off : ((s.set client { s.object client with started := false }).object p).io =
      (s.object p).io := set_io s client p _ rfl
  rw [State.stop]
  split
  · dsimp only
    split
    · rw [update_io]
      exact off
    · exact off
  · rfl

theorem check_io (s : State) (client p : Nat) (now later : Int) :
    ((s.onCheckPing client now later).1.object p).io = (s.object p).io := by
  have noted (t : State) : ((t.set client { t.object client with lastPing := later }).object p).io =
      (t.object p).io := set_io t client p _ rfl
  refine (noted _).trans ?_
  split
  · exact stop_io s client p
  · rfl

/-- A client has at most one operation outstanding, and what is still owed to it is in
write_buffer_. -/
structure Inv (s : Session) : Prop where
  formed : Formed s.server
  single : ∀ p, (s.server.object p).reads + (s.server.object p).writes ≤ 1
  idle : ∀ p, (s.server.object p).writes = 0 → s.writing p = []
  owed : ∀ p, s.replied p = s.received p ++ s.writing p

theorem io_parts {c d : TalkToClient} (same : c.io = d.io) :
    c.reads = d.reads ∧ c.writes = d.writes :=
  ⟨congrArg Prod.fst same, congrArg Prod.snd same⟩

theorem inv_ended {s after : Session} (inv : Inv s) (formed : Formed after.server)
    (fewer : ∀ p, (after.server.object p).reads ≤ (s.server.object p).reads ∧
      (after.server.object p).writes = (s.server.object p).writes)
    (same : after.replied = s.replied ∧ after.received = s.received ∧ after.writing = s.writing) :
    Inv after := by
  obtain ⟨replied, received, writing⟩ := same
  refine ⟨formed, fun p => ?_, fun p none_ => ?_, fun p => ?_⟩
  · have single := inv.single p
    have less := fewer p
    omega
  · rw [writing]
    exact inv.idle p ((fewer p).2 ▸ none_)
  · rw [replied, received, writing]
    exact inv.owed p

theorem carry_silent {s after : Session} {server : State} {n : Nat} {a : Action} {answer : Answer}
    (took : s.carry server n a answer = some after) (other : ∀ client, a ≠ .onWrite client)
    (silent : ∀ client msg reply, answer ≠ .handled client msg (some reply)) :
    after = { s with server } := by
  unfold Session.carry at took
  split at took
  · exact absurd rfl (other _)
  · exact absurd rfl (silent _ _ _)
  · exact (Option.some.inj took).symm

theorem removal_silent (s : State) (client : Nat) :
    ∀ p m r, s.removal client ≠ .handled p m (some r) := by
  intro p m r same
  rw [State.removal] at same
  split at same <;> cases same

theorem check_silent (s : State) (client : Nat) (now later : Int) :
    ∀ p m r, (s.onCheckPing client now later).2 ≠ .handled p m (some r) := by
  intro p m r same
  rw [State.onCheckPing] at same
  dsimp only at same
  split at same
  · exact removal_silent s client p m r same
  · cases same

theorem reply_fits (s : State) (client : Nat) (msg : List UInt8) :
    (∀ reply, (s.dispatch client msg).2 = some reply → reply.length ≤ max_msg) ↔ Fits s msg := by
  rw [State.dispatch, Fits]
  cases request msg with
  | login => simp [show loginOk.length ≤ max_msg by decide]
  | ping => simp [ping_reply_fits s client]
  | askClients => simp
  | invalid => simp

theorem dispatch_reply (s : State) (client : Nat) (msg : List UInt8) :
    (s.dispatch client msg).2 = none ↔ request msg = .invalid := by
  rw [State.dispatch]
  cases request msg <;> simp

theorem ended_io (s : State) (client p : Nat) {c : TalkToClient}
    (reads : c.reads = ((s.readEnded client).object p).reads)
    (writes : c.writes = ((s.readEnded client).object p).writes) :
    c.reads ≤ (s.object p).reads ∧ c.writes = (s.object p).writes := by
  rw [reads, writes, State.readEnded]
  by_cases mine : p = client
  · rw [mine, set_self]
    exact ⟨Nat.sub_le _ _, rfl⟩
  · rw [set_other _ _ _ _ mine]
    exact ⟨Nat.le_refl _, rfl⟩

/-! What a step keeps. -/

theorem single_with {s : Session} {server : State} {client reads writes : Nat} (inv : Inv s)
    (mine : (server.object client).io = (reads, writes)) (few : reads + writes ≤ 1)
    (others : ∀ p, p ≠ client → (server.object p).io = (s.server.object p).io) (p : Nat) :
    (server.object p).reads + (server.object p).writes ≤ 1 := by
  by_cases same : p = client
  · obtain ⟨here, there⟩ := Prod.mk.inj mine
    rw [same, here, there]
    exact few
  · obtain ⟨here, there⟩ := io_parts (others p same)
    rw [here, there]
    exact inv.single p

theorem inv_answered {s after : Session} {server : State} {n client : Nat} {msg : List UInt8}
    (inv : Inv s) (formed : Formed server) (outstanding : 0 < (s.server.object client).reads)
    (here : (s.server.object client).started = true) (made : client < s.server.accepting)
    (fits : Fits s.server msg) (ran : server = ((s.server.readEnded client).dispatch client msg).1)
    (took : s.carry server n (.onRead client false msg)
      (.handled client msg ((s.server.readEnded client).dispatch client msg).2) = some after) :
    Inv after := by
  have ended := read_ended_frame s.server client made
  have within : Fits (s.server.readEnded client) msg := by rwa [Fits, clients_msg_ended]
  obtain ⟨frame, ops⟩ := dispatch_frame _ client msg (formed_frame inv.formed ended)
    (ended_started s.server client here) within
  rw [← ran] at frame ops
  have others (p : Nat) (other : p ≠ client) : (server.object p).io = (s.server.object p).io := by
    have same := (frame.others p other).trans (ended.others p other)
    exact congrArg (fun ops => (ops.1, ops.2.1)) same
  have mine : (server.object client).io = ((s.server.object client).reads - 1,
      (s.server.object client).writes + if request msg = .invalid then 0 else 1) := by
    have same := congrArg (fun ops => (ops.1, ops.2.1)) ops
    rw [State.readEnded, set_self] at same
    exact same
  have single := inv.single client
  -- a client has one operation outstanding, and here it was a read
  have nothing : s.writing client = [] := inv.idle client (by omega)
  have owed := inv.owed client
  rw [nothing, List.append_nil] at owed
  have one := single_with inv mine (by split <;> omega) others
  cases reply : ((s.server.readEnded client).dispatch client msg).2 with
  | none =>
      rw [reply] at took
      obtain rfl := carry_silent took (fun p => Action.noConfusion)
        (fun p m r same => by cases same)
      refine ⟨formed, one, fun p none_ => ?_, inv.owed⟩
      by_cases same : p = client
      · rw [same]
        exact nothing
      · exact inv.idle p ((io_parts (others p same)).2 ▸ none_)
  | some text =>
      rw [reply] at took
      obtain rfl := Option.some.inj took
      -- an invalid message is not answered
      have known : request msg ≠ .invalid := fun invalid => by
        rw [(dispatch_reply _ client msg).mpr invalid] at reply
        cases reply
      refine ⟨formed, one, fun p none_ => ?_, fun p => ?_⟩
      · by_cases same : p = client
        · have writes := (Prod.mk.inj mine).2
          have zero : (server.object p).writes = 0 := none_
          rw [if_neg known] at writes
          rw [same] at zero
          omega
        · change Function.update s.writing client text p = []
          rw [Function.update_of_ne same]
          exact inv.idle p ((io_parts (others p same)).2 ▸ none_)
      · change Function.update s.replied client _ p =
          s.received p ++ Function.update s.writing client text p
        by_cases same : p = client
        · rw [same, Function.update_self, Function.update_self, owed]
        · rw [Function.update_of_ne same, Function.update_of_ne same]
          exact inv.owed p

theorem inv_written {s after : Session} {server : State} {n client : Nat} {answer : Answer}
    (inv : Inv s) (formed : Formed server) (outstanding : 0 < (s.server.object client).writes)
    (ran : server = (s.server.writeEnded client).onWrite client)
    (all : n = (s.writing client).length)
    (took : s.carry server n (.onWrite client) answer = some after) : Inv after := by
  rw [Session.carry] at took
  obtain ⟨-, same⟩ := Option.ite_none_right_eq_some.mp took
  obtain rfl := Option.some.inj same
  have mine : (server.object client).io =
      ((s.server.object client).reads + 1, (s.server.object client).writes - 1) := by
    rw [ran, State.onWrite, set_self, State.writeEnded, set_self]
    rfl
  have others (p : Nat) (other : p ≠ client) : (server.object p).io = (s.server.object p).io := by
    rw [ran, State.onWrite, set_other _ _ _ _ other, State.writeEnded, set_other _ _ _ _ other]
  have single := inv.single client
  refine ⟨formed, single_with inv mine (by omega) others, fun p none_ => ?_, fun p => ?_⟩
  · change Function.update s.writing client [] p = []
    by_cases same : p = client
    · rw [same, Function.update_self]
    · rw [Function.update_of_ne same]
      exact inv.idle p ((io_parts (others p same)).2 ▸ none_)
  · change s.replied p = Function.update s.received client _ p ++
      Function.update s.writing client [] p
    by_cases same : p = client
    · rw [same, Function.update_self, Function.update_self, all, List.take_length,
        List.append_nil]
      exact inv.owed client
    · rw [Function.update_of_ne same, Function.update_of_ne same]
      exact inv.owed p

theorem fitting_read (s t : State) (client : Nat) (msg : List UInt8) (answer : Answer)
    (here : (s.object client).started = true) :
    Fitting ⟨s, .onRead client false msg, answer, t⟩ = true ↔ Fits s msg := by
  simp [Fitting, here]

theorem whole_fitting {e : SessionStep} (whole : Whole e = true) :
    Fitting (onServer e) = true ∧ wholeAt e.before e.action = true :=
  (Bool.and_eq_true _ _).mp whole

theorem inv_kept (e : SessionStep) (stepped : sessions.Stepped e) (whole : Whole e = true)
    (inv : Inv e.before) : Inv e.after := by
  obtain ⟨ran, took⟩ := session_stepped stepped
  obtain ⟨fitting, all⟩ := whole_fitting whole
  have formed : Formed e.after.server :=
    formed_outcome inv.formed (outcome (onServer e) ran inv.formed fitting)
  have effect := effect_of_stepped (onServer e) ran inv.formed
  obtain ⟨s, ⟨action, n⟩, output, after⟩ := e
  dsimp only [onServer] at effect formed took inv all
  -- one case for each handler
  generalize same : after.server = server at effect formed took
  cases effect with
  | joined now =>
      obtain rfl := carry_silent took (fun p => Action.noConfusion) (fun p m r same => by cases same)
      have new := inv.formed.fresh s.server.accepting (Nat.le_refl _)
      have io (p : Nat) : ((s.server.handleAccept now).object p).writes = (s.server.object p).writes ∧
          ((s.server.handleAccept now).object p).reads + ((s.server.handleAccept now).object p).writes
            ≤ 1 := by
        by_cases mine : p = s.server.accepting
        · rw [mine, joined_object]
          refine ⟨rfl, ?_⟩
          change (s.server.object s.server.accepting).reads + 1 +
            (s.server.object s.server.accepting).writes ≤ 1
          rw [new.1, new.2.1]
        · have other : (s.server.handleAccept now).object p = s.server.object p :=
            set_other s.server _ p _ mine
          rw [other]
          exact ⟨rfl, inv.single p⟩
      exact ⟨formed, fun p => (io p).2, fun p none_ => inv.idle p ((io p).1 ▸ none_), inv.owed⟩
  | failed client msg outstanding made =>
      obtain rfl := carry_silent took (fun p => Action.noConfusion) (removal_silent s.server client)
      refine inv_ended inv formed (fun p => ?_) ⟨rfl, rfl, rfl⟩
      obtain ⟨reads, writes⟩ := io_parts (stop_io (s.server.readEnded client) client p)
      exact ended_io s.server client p reads writes
  | answered client msg outstanding made here =>
      have fits : Fits s.server msg := (fitting_read s.server _ client msg _ here).mp fitting
      rw [← same] at took formed
      exact inv_answered inv formed outstanding here made fits same took
  | ignored client msg made gone =>
      obtain rfl := carry_silent took (fun p => Action.noConfusion) (fun p m r same => by cases same)
      exact inv_ended inv formed (fun p => ended_io s.server client p rfl rfl) ⟨rfl, rfl, rfl⟩
  | written client outstanding made =>
      exact inv_written inv formed outstanding rfl (of_decide_eq_true all) took
  | expired client now later made =>
      obtain rfl := carry_silent took (fun p => Action.noConfusion) (check_silent _ client now later)
      refine inv_ended inv formed (fun p => ?_) ⟨rfl, rfl, rfl⟩
      have ended : ((s.server.waitEnded client).object p).io = (s.server.object p).io :=
        set_io s.server client p _ rfl
      obtain ⟨reads, writes⟩ := io_parts ((check_io _ client p now later).trans ended)
      exact ⟨Nat.le_of_eq reads, writes⟩
  | replaced client now later made =>
      obtain rfl := carry_silent took (fun p => Action.noConfusion) (check_silent _ client now later)
      refine inv_ended inv formed (fun p => ?_) ⟨rfl, rfl, rfl⟩
      have ended : ((s.server.replacedEnded client).object p).io = (s.server.object p).io :=
        set_io s.server client p _ rfl
      obtain ⟨reads, writes⟩ := io_parts ((check_io _ client p now later).trans ended)
      exact ⟨Nat.le_of_eq reads, writes⟩

theorem delivered_iff (e : SessionStep) (stepped : sessions.Stepped e) (inv : Inv e.before) :
    Delivered e ↔ Whole e = true := by
  obtain ⟨ran, took⟩ := session_stepped stepped
  have effect := effect_of_stepped (onServer e) ran inv.formed
  obtain ⟨s, ⟨action, n⟩, output, after⟩ := e
  rw [Delivered, Whole, Bool.and_eq_true]
  dsimp only [onServer] at effect took inv ⊢
  generalize same : after.server = server at effect took
  -- a handler that is not given a message and writes nothing
  have idle (other : ∀ client, action ≠ .onWrite client)
      (silent : ∀ client msg reply, output ≠ .handled client msg (some reply)) :
      (∀ client msg reply, output = .handled client msg (some reply) → reply.length ≤ max_msg) ∧
        ∀ client m, (action, n) = (.onWrite client, m) →
          after.received client = after.replied client :=
    ⟨fun p m r same => absurd same (silent p m r),
      fun p m same => absurd (congrArg Prod.fst same) (other p)⟩
  cases effect with
  | joined now =>
      exact iff_of_true (idle (fun p => Action.noConfusion) (fun p m r same => by cases same))
        ⟨rfl, rfl⟩
  | failed client msg outstanding made =>
      exact iff_of_true (idle (fun p => Action.noConfusion) (removal_silent s.server client))
        ⟨rfl, rfl⟩
  | answered client msg outstanding made here =>
      have fits : (∀ reply, ((s.server.readEnded client).dispatch client msg).2 = some reply →
          reply.length ≤ max_msg) ↔ Fits s.server msg := by
        rw [reply_fits, Fits, Fits, clients_msg_ended]
      rw [fitting_read s.server _ client msg _ here, ← fits]
      constructor
      · rintro ⟨short, -⟩
        exact ⟨fun reply same => short client msg reply (by rw [same]), rfl⟩
      · rintro ⟨short, -⟩
        refine ⟨fun p m reply same => ?_, fun p m same => (by cases same)⟩
        simp only [Answer.handled.injEq] at same
        exact short reply same.2.2
  | ignored client msg made gone =>
      refine iff_of_true (idle (fun p => Action.noConfusion) (fun p m r same => by cases same))
        ⟨?_, rfl⟩
      simp [Fitting, gone]
  | written client outstanding made =>
      rw [Session.carry] at took
      obtain ⟨⟨-, most⟩, moved⟩ := Option.ite_none_right_eq_some.mp took
      have owed := inv.owed client
      have last : after.received client = after.replied client ↔
          n = (s.writing client).length := by
        rw [← Option.some.inj moved]
        change Function.update s.received client _ client = s.replied client ↔ _
        rw [Function.update_self, owed, List.append_cancel_left_eq, List.take_eq_self_iff]
        exact ⟨fun least => Nat.le_antisymm most least, fun same => Nat.le_of_eq same.symm⟩
      constructor
      · rintro ⟨-, all⟩
        exact ⟨rfl, decide_eq_true (last.mp (all client n rfl))⟩
      · rintro ⟨-, all⟩
        refine ⟨fun p m r same => (by cases same), fun p m same => ?_⟩
        cases same
        exact last.mpr (of_decide_eq_true all)
  | expired client now later made =>
      exact iff_of_true (idle (fun p => Action.noConfusion) (check_silent _ client now later))
        ⟨rfl, rfl⟩
  | replaced client now later made =>
      exact iff_of_true (idle (fun p => Action.noConfusion) (check_silent _ client now later))
        ⟨rfl, rfl⟩

theorem inv_start (s : Session) (first : sessions.start s) : Inv s := by
  obtain ⟨server, nothing⟩ := first
  have new := server.2.1
  refine ⟨formed_start s.server server, fun p => ?_, fun p _ => (nothing p).2.2, fun p => ?_⟩
  · rw [(new p).1, (new p).2.1]
    exact Nat.zero_le 1
  · rw [(nothing p).1, (nothing p).2.1, (nothing p).2.2]
    rfl

/-- Every reply fits and is received whole, exactly as long as the names of the clients leave
room for them and every write transfers all that it is given. -/
theorem replies_delivered_iff {trace : List SessionStep} {s : Session}
    (run : sessions.Run trace s) :
    (∀ e ∈ trace, Delivered e) ↔ ∀ e ∈ trace, Whole e = true := by
  have exact_ := run.exactly (C := fun e => Whole e = true) (P := fun pre _ => ∀ e ∈ pre, Delivered e)
    (fun pre last reached met => by
      have kept := reached.history (C := fun e => Whole e = true)
        (I := fun pre last => Inv last ∧ ∀ e ∈ pre, Delivered e)
        (fun s first => ⟨inv_start s first, List.forall_mem_nil _⟩)
        (fun pre e stepped whole kept => ⟨inv_kept e stepped whole kept.1, fun d member => by
          rcases List.mem_append.mp member with earlier | last
          · exact kept.2 d earlier
          · rw [List.mem_singleton.mp last]
            exact (delivered_iff e stepped kept.1).mpr whole⟩) met
      exact kept.2)
    (fun pre e earlier met stepped _ delivered => by
      have inv := earlier.preserves (C := fun e => Whole e = true) inv_start inv_kept met
      exact (delivered_iff e stepped inv).mp (delivered e (by simp)))
  rw [exact_]
  constructor
  · intro all pre last within _ e member
    exact all e (within.subset member)
  · intro all
    exact all trace s (List.prefix_refl trace) run

/-! A ping, whose reply is transferred whole or in part. -/

def noSession : Session := ⟨noClients, fun _ => [], fun _ => [], fun _ => []⟩

theorem no_session_start : sessions.start noSession :=
  ⟨no_clients_start, fun _ => ⟨rfl, rfl, rfl⟩⟩

def pinged (transferred : Nat) : List (Action × Nat) :=
  [(.handleAccept 0, 0), (.onRead 0 false (bytes "ping\n"), 0), (.onWrite 0, transferred)]

theorem ping_reply_delivered : ∃ trace s, sessions.Run trace s ∧ trace.length = 3 ∧
    ∀ e ∈ trace, Delivered e := by
  obtain ⟨trace, s, run, check⟩ := Machine.run_of_check no_session_start (pinged 8)
    (fun r => decide (r.1.length = 3) && r.1.all Whole) (by decide +kernel)
  rw [Bool.and_eq_true] at check
  exact ⟨trace, s, run, of_decide_eq_true check.1,
    (replies_delivered_iff run).mpr (List.all_eq_true.mp check.2)⟩

theorem ping_reply_cut : ∃ trace s, sessions.Run trace s ∧ ∃ e ∈ trace, ¬ Delivered e := by
  obtain ⟨trace, s, run, check⟩ := Machine.run_of_check no_session_start (pinged 1)
    (fun r => r.1.any fun e => decide (e.action = (.onWrite 0, 1)) &&
      decide (e.after.received 0 ≠ e.after.replied 0)) (by decide +kernel)
  obtain ⟨e, member, cut⟩ := List.any_eq_true.mp check
  rw [Bool.and_eq_true, decide_eq_true_eq, decide_eq_true_eq] at cut
  exact ⟨trace, s, run, e, member, fun delivered => cut.2 (delivered.2 0 1 cut.1)⟩

end NetworkProgramming.AsyncServer
