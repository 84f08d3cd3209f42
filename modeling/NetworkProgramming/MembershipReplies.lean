import NetworkProgramming.AsyncServerClients
import NetworkProgramming.ChangeNotice

/-!
What the two servers reply to a ping. The flag of a client is raised by update_clients_changed
only: the asynchronous server calls it whenever the array or a name changes, the other one
neither after a time-out nor after a login whose answer could not be written, and there the flag
starts with whatever is in the memory.
-/

namespace NetworkProgramming.MembershipReplies

open CText LinearBuffer ChangeNotice
open SyncServer (Request request loginOk pingOk pingChanged)

abbrev Seen := Event Nat (List UInt8)

def told (client : Nat) (request : Request) (reply : Option (List UInt8)) : List Seen :=
  match request, reply with
  | .login, _ => [.changed]
  | .ping, some reply => [.told client reply]
  | _, _ => []

def syncEvents : SyncServer.Answer → List Seen
  | .accepted client => [.joined client]
  | .answered report => match report.handed with
      | some msg => told report.client (request msg) report.reply
      | none => []
  | .erased clients => if clients = [] then [] else [.changed]
  | .silent => []

def asyncEvents : AsyncServer.Answer → List Seen
  | .accepted client => [.joined client]
  | .handled client msg reply => told client (request msg) reply
  | .removed _ => [.changed]
  | .silent => []

def syncSeen (trace : List SyncServer.Step) : List Seen :=
  trace.flatMap fun e => syncEvents e.output

def asyncSeen (trace : List AsyncServer.Step) : List Seen :=
  trace.flatMap fun e => asyncEvents e.output

/-! The asynchronous server. -/

namespace Async

open AsyncServer

def flag (s : State) (p : Nat) : Bool := (s.object p).clientsChanged

abbrev Kept (trace : List Step) (s : State) : Prop :=
  Noticed pingChanged pingOk (asyncSeen trace) (· ∈ s.clients) (flag s)

theorem seen_snoc (trace : List Step) (e : Step) :
    asyncSeen (trace ++ [e]) = asyncSeen trace ++ asyncEvents e.output := by
  simp [asyncSeen]

theorem flag_set (s : State) (client p : Nat) (c : TalkToClient)
    (same : c.clientsChanged = flag s client) : flag (s.set client c) p = flag s p := by
  by_cases mine : p = client
  · rw [mine, flag, set_self, same]
  · rw [flag, set_other _ _ _ _ mine]
    rfl

theorem flag_update (s : State) (p : Nat) (member : p ∈ s.clients) :
    flag s.updateClientsChanged p = true := by
  rw [flag, State.updateClientsChanged]
  simp only [if_pos member]

theorem flag_do_write (s : State) (client p : Nat) (msg : List UInt8) :
    flag (s.doWrite client msg) p = flag s p := by
  rw [State.doWrite]
  split
  · split
    · exact flag_set s client p _ rfl
    · rfl
  · rfl

theorem do_write_clients (s : State) (client : Nat) (msg : List UInt8) :
    (s.doWrite client msg).clients = s.clients := by
  rw [State.doWrite]
  split
  · split <;> rfl
  · rfl

theorem dispatch_noticed (trace : List Seen) (s : State) (client : Nat) (msg : List UInt8)
    (member : client ∈ s.clients)
    (noticed : Noticed pingChanged pingOk trace (· ∈ s.clients) (flag s)) :
    Noticed pingChanged pingOk (trace ++ told client (request msg) (s.dispatch client msg).2)
      (· ∈ (s.dispatch client msg).1.clients) (flag (s.dispatch client msg).1) := by
  rw [State.dispatch]
  cases kind : request msg with
  | login =>
      dsimp only [told]
      refine noticed.change fun p inside => ?_
      exact flag_update _ p inside
  | ping =>
      dsimp only [told]
      have clients : (s.onPing client).clients = s.clients := do_write_clients s client _
      rw [clients, State.pingReply]
      refine noticed.tell client member ?_ fun p other inside => ⟨inside, ?_⟩
      · rw [flag, State.onPing, set_self]
      · rw [State.onPing, flag, set_other _ _ _ _ other]
        exact flag_do_write s client p _
  | askClients =>
      dsimp only [told]
      rw [List.append_nil, State.onClients, do_write_clients]
      exact noticed.stay fun p inside => ⟨inside, flag_do_write s client p _⟩
  | invalid =>
      dsimp only [told]
      rw [List.append_nil]
      exact noticed

theorem stop_noticed (trace : List Seen) (s : State) (client : Nat) (formed : Formed s)
    (noticed : Noticed pingChanged pingOk trace (· ∈ s.clients) (flag s)) :
    Noticed pingChanged pingOk (trace ++ asyncEvents (s.removal client))
      (· ∈ (s.stop client).clients) (flag (s.stop client)) := by
  rw [State.removal, State.stop]
  by_cases here : (s.object client).started = true
  · have member := (formed.started client).mp here
    rw [if_pos here, if_pos here]
    dsimp only [asyncEvents]
    rw [if_pos member]
    exact noticed.change fun p inside => flag_update _ p inside
  · rw [if_neg here, if_neg here]
    dsimp only [asyncEvents]
    rw [List.append_nil]
    exact noticed

theorem set_noticed (trace : List Seen) (s : State) (client : Nat) (c : TalkToClient)
    (same : c.clientsChanged = flag s client)
    (noticed : Noticed pingChanged pingOk trace (· ∈ s.clients) (flag s)) :
    Noticed pingChanged pingOk trace (· ∈ (s.set client c).clients) (flag (s.set client c)) :=
  noticed.stay fun p inside => ⟨inside, flag_set s client p c same⟩

theorem check_noticed (trace : List Seen) (s : State) (client : Nat) (now later : Int)
    (formed : Formed s)
    (noticed : Noticed pingChanged pingOk trace (· ∈ s.clients) (flag s)) :
    Noticed pingChanged pingOk
      (trace ++ asyncEvents (s.onCheckPing client now later).2)
      (· ∈ (s.onCheckPing client now later).1.clients)
      (flag (s.onCheckPing client now later).1) := by
  rw [State.onCheckPing]
  by_cases late : (s.object client).timedOut now = true
  · simp only [late, if_true]
    exact set_noticed _ _ client _ rfl (stop_noticed trace s client formed noticed)
  · simp only [if_neg late]
    dsimp only [asyncEvents]
    rw [List.append_nil]
    exact set_noticed trace s client _ rfl noticed

theorem kept_step (trace : List Step) (e : Step) (stepped : machine.Stepped e)
    (formed : Formed e.before) (kept : Kept trace e.before) : Kept (trace ++ [e]) e.after := by
  have effect := effect_of_stepped e stepped formed
  rw [Kept, seen_snoc]
  obtain ⟨s, action, output, after⟩ := e
  dsimp only at effect formed kept ⊢
  cases effect with
  | joined now =>
      dsimp only [asyncEvents]
      have new : flag (s.handleAccept now) s.accepting = false := by
        rw [flag, joined_object]
        exact (formed.fresh s.accepting (Nat.le_refl _)).2.2.2.2.2.2
      refine kept.join s.accepting new fun p other inside => ?_
      rcases List.mem_append.mp inside with old | last
      · exact ⟨old, congrArg TalkToClient.clientsChanged (set_other s _ p _ other)⟩
      · exact absurd (List.mem_singleton.mp last) other
  | failed client msg outstanding made =>
      have ended := read_ended_frame s client made
      have removal : (s.readEnded client).removal client = s.removal client :=
        removal_ended s client _ rfl
      rw [← removal]
      exact stop_noticed _ _ client (formed_frame formed ended)
        (set_noticed _ s client _ rfl kept)
  | answered client msg outstanding made here =>
      exact dispatch_noticed _ (s.readEnded client) client msg ((formed.started client).mp here)
        (set_noticed _ s client _ rfl kept)
  | ignored client msg made gone =>
      dsimp only [asyncEvents]
      rw [List.append_nil]
      exact set_noticed _ s client _ rfl kept
  | written client outstanding made =>
      dsimp only [asyncEvents]
      rw [List.append_nil]
      exact set_noticed _ _ client _ rfl (set_noticed _ s client _ rfl kept)
  | expired client now later made =>
      have ended : Frame client s (s.waitEnded client) := frame_set s client _ made rfl
      exact check_noticed _ _ client now later (formed_frame formed ended)
        (set_noticed _ s client _ rfl kept)
  | replaced client now later made =>
      have ended : Frame client s (s.replacedEnded client) := frame_set s client _ made rfl
      exact check_noticed _ _ client now later (formed_frame formed ended)
        (set_noticed _ s client _ rfl kept)

theorem kept_run {trace : List Step} {s : State} (run : machine.Run trace s)
    (fitting : ∀ e ∈ trace, Fitting e = true) : Formed s ∧ Kept trace s :=
  run.history (C := fun e => Fitting e = true) (I := fun trace s => Formed s ∧ Kept trace s)
    (fun s first => ⟨formed_start s first, .empty fun m => by simp [first.1]⟩)
    (fun trace e stepped fits kept =>
      ⟨formed_outcome kept.1 (outcome e stepped kept.1 fits),
        kept_step trace e stepped kept.1 kept.2⟩) fitting

end Async

/-! The synchronous server. -/

namespace Sync

open SyncServer

def flag (s : State) (p : Nat) : Bool := (s.object p).clientsChanged

abbrev Kept (trace : List Step) (s : State) : Prop :=
  Noticed pingChanged pingOk (syncSeen trace) (· ∈ s.clients) (flag s)

def AllRaised (s : State) : Bool := s.clients.all fun p => flag s p

def LogsIn (c : TalkToClient) (got : Got) : Bool :=
  let read := c.readRequest got.chunk
  got != .threw && read.foundEnter.any fun pos => request (load read.buff 0 pos) == .login

/-- The flag of a new client is off, the answer to a login is written, and no client is erased;
or else those that are left have their flags raised already. -/
def Met (e : Step) : Bool :=
  let s := e.before
  match e.action with
  | .accept fresh => !fresh.clientsChanged
  | .wake => true
  | .answer turn => turn.sent || AllRaised s || match s.phase with
      | .asleep => true
      | .answering b => (s.clients[b]?).all fun client => !LogsIn (s.object client) turn.got
  | .erase now => (s.clients.all fun p => !(s.object p).timedOut (now p)) ||
      s.clients.all fun p => (s.object p).timedOut (now p) || flag s p

theorem seen_snoc (trace : List Step) (e : Step) :
    syncSeen (trace ++ [e]) = syncSeen trace ++ syncEvents e.output := by
  simp [syncSeen]

theorem flag_set (s : State) (client p : Nat) (c : TalkToClient)
    (same : c.clientsChanged = flag s client) : flag (s.set client c) p = flag s p := by
  by_cases mine : p = client
  · rw [mine, flag, set_self, same]
  · rw [flag, set_other _ _ _ _ mine]
    rfl

theorem flag_update (s : State) (p : Nat) (member : p ∈ s.clients) :
    flag s.updateClientsChanged p = true := by
  rw [flag, State.updateClientsChanged]
  simp only [if_pos member]

theorem set_noticed (trace : List Seen) (s : State) (client : Nat) (c : TalkToClient)
    (same : c.clientsChanged = flag s client)
    (noticed : Noticed pingChanged pingOk trace (· ∈ s.clients) (flag s)) :
    Noticed pingChanged pingOk trace (· ∈ (s.set client c).clients) (flag (s.set client c)) :=
  noticed.stay fun p inside => ⟨inside, flag_set s client p c same⟩

theorem dispatch_noticed (trace : List Seen) (s : State) (client : Nat) (msg : List UInt8)
    (sent : Bool) (member : client ∈ s.clients)
    (written : sent = true ∨ AllRaised s = true ∨ request msg ≠ .login)
    (noticed : Noticed pingChanged pingOk trace (· ∈ s.clients) (flag s)) :
    Noticed pingChanged pingOk
      (trace ++ told client (request msg) (s.dispatch client msg sent).2)
      (· ∈ (s.dispatch client msg sent).1.clients) (flag (s.dispatch client msg sent).1) := by
  rw [State.dispatch]
  cases kind : request msg with
  | login =>
      dsimp only [told]
      rw [State.onLogin]
      cases sent with
      | true => exact noticed.change fun p inside => flag_update _ p inside
      | false =>
          have raised : AllRaised s = true := by simpa [kind] using written
          have named (p : Nat) : flag (s.set client { s.object client with
              username := secondWord msg (s.object client).username }) p = flag s p :=
            flag_set s client p _ rfl
          refine noticed.change fun p inside => ?_
          exact (named p).trans (List.all_eq_true.mp raised p inside)
  | ping =>
      rw [State.onPing]
      cases sent with
      | true =>
          refine noticed.tell client member ?_ fun p other inside => ⟨inside, ?_⟩
          · exact congrArg TalkToClient.clientsChanged (set_self s client _)
          · exact congrArg TalkToClient.clientsChanged (set_other s client p _ other)
      | false =>
          simp only [told, Bool.false_eq_true, if_false, List.append_nil]
          exact noticed
  | askClients =>
      dsimp only [told]
      rw [List.append_nil, State.onClients]
      cases sent with
      | true => exact noticed
      | false => exact noticed
  | invalid =>
      dsimp only [told]
      rw [List.append_nil]
      exact noticed

theorem all_raised_set (s : State) (client : Nat) (c : TalkToClient)
    (same : c.clientsChanged = flag s client) : AllRaised (s.set client c) = AllRaised s :=
  congrArg (s.clients.all ·) (funext fun p => flag_set s client p c same)

theorem process_noticed (trace : List Seen) (s : State) (client pos : Nat) (turn : Turn)
    (member : client ∈ s.clients)
    (written : turn.sent = true ∨ AllRaised s = true ∨
      request (load (s.object client).buff 0 pos) ≠ .login)
    (noticed : Noticed pingChanged pingOk trace (· ∈ s.clients) (flag s)) :
    Noticed pingChanged pingOk
      (trace ++ syncEvents (.answered (s.processRequest client pos turn).2))
      (· ∈ (s.processRequest client pos turn).1.clients)
      (flag (s.processRequest client pos turn).1) := by
  rw [State.processRequest]
  have taken := set_noticed trace s client ((s.object client).take pos turn.now) rfl noticed
  have handled := dispatch_noticed trace (s.set client ((s.object client).take pos turn.now))
    client (load (s.object client).buff 0 pos) turn.sent member
    (by rwa [all_raised_set s client ((s.object client).take pos turn.now) rfl]) taken
  dsimp only [syncEvents]
  split
  · exact set_noticed _ _ client _ rfl handled
  · exact handled

theorem attempt_noticed (trace : List Seen) (s : State) (client : Nat) (turn : Turn)
    (member : client ∈ s.clients)
    (written : turn.sent = true ∨ AllRaised s = true ∨ LogsIn (s.object client) turn.got = false)
    (noticed : Noticed pingChanged pingOk trace (· ∈ s.clients) (flag s)) :
    Noticed pingChanged pingOk (trace ++ syncEvents (.answered (s.attempt client turn).2))
      (· ∈ (s.attempt client turn).1.clients) (flag (s.attempt client turn).1) := by
  rw [State.attempt]
  by_cases threw : turn.got = .threw
  · simp only [threw, if_true, syncEvents, List.append_nil]
    exact set_noticed trace s client _ rfl noticed
  · have read := set_noticed trace s client ((s.object client).readRequest turn.got.chunk) rfl
      noticed
    simp only [if_neg threw, set_self]
    split
    · dsimp only [syncEvents]
      rw [List.append_nil]
      exact read
    · rename_i pos found
      refine process_noticed trace _ client pos turn member ?_ read
      rw [all_raised_set s client ((s.object client).readRequest turn.got.chunk) rfl, set_self]
      refine written.imp_right (Or.imp_right fun other kind => ?_)
      simp [LogsIn, threw, found, kind] at other

theorem answer_noticed (trace : List Seen) (s : State) (client : Nat) (turn : Turn)
    (member : client ∈ s.clients)
    (written : turn.sent = true ∨ AllRaised s = true ∨ LogsIn (s.object client) turn.got = false)
    (noticed : Noticed pingChanged pingOk trace (· ∈ s.clients) (flag s)) :
    Noticed pingChanged pingOk
      (trace ++ syncEvents (.answered (s.answerToClient client turn).2))
      (· ∈ (s.answerToClient client turn).1.clients)
      (flag (s.answerToClient client turn).1) := by
  have attempted := attempt_noticed trace s client turn member written noticed
  rw [State.answerToClient]
  dsimp only
  split
  · exact set_noticed _ _ client _ rfl attempted
  · exact attempted

theorem erase_noticed (trace : List Seen) (s : State) (now : Nat → Int)
    (quiet : (s.clients.all fun p => !(s.object p).timedOut (now p)) = true ∨
      (s.clients.all fun p => (s.object p).timedOut (now p) || flag s p) = true)
    (noticed : Noticed pingChanged pingOk trace (· ∈ s.clients) (flag s)) :
    Noticed pingChanged pingOk
      (trace ++ syncEvents (.erased (s.clients.filter fun p => (s.object p).timedOut (now p))))
      (· ∈ (s.erase now).clients) (flag (s.erase now)) := by
  have kept (p : Nat) (inside : p ∈ (s.erase now).clients) :
      p ∈ s.clients ∧ (s.object p).timedOut (now p) = false := by
    have member := List.mem_filter.mp inside
    exact ⟨member.1, by simpa using member.2⟩
  dsimp only [syncEvents]
  split
  · rw [List.append_nil]
    exact noticed.stay fun p inside => ⟨(kept p inside).1, rfl⟩
  · rename_i some_
    refine noticed.change fun p inside => ?_
    rcases quiet with nobody | raised
    · refine absurd (List.filter_eq_nil_iff.mpr fun q member => ?_) some_
      have here := List.all_eq_true.mp nobody q member
      simpa using here
    · have here := List.all_eq_true.mp raised p (kept p inside).1
      rw [(kept p inside).2, Bool.false_or] at here
      exact here

theorem kept_step (trace : List Step) (e : Step) (stepped : machine.Stepped e)
    (met : Met e = true) (kept : Kept trace e.before) : Kept (trace ++ [e]) e.after := by
  have moved := moves_of_stepped e stepped
  rw [Kept, seen_snoc]
  obtain ⟨s, action, output, after⟩ := e
  dsimp only at moved kept ⊢
  cases moved with
  | accept fresh empty =>
      have new : flag (s.accept fresh) s.created = false := by
        rw [flag]
        have object : (s.accept fresh).object s.created = fresh := set_self s s.created fresh
        rw [object]
        simpa [Met] using met
      refine kept.join s.created new fun p other inside => ?_
      rcases List.mem_append.mp inside with old | last
      · exact ⟨old, congrArg TalkToClient.clientsChanged (set_other s _ p fresh other)⟩
      · exact absurd (List.mem_singleton.mp last) other
  | wake =>
      dsimp only [syncEvents]
      rw [List.append_nil]
      exact kept
  | answer turn b client now turns possible =>
      have member := List.mem_of_getElem? turns
      refine answer_noticed _ s client turn member ?_ kept
      simp only [Met, now, turns, Option.all_some, Bool.or_eq_true] at met
      rcases met with (sent | raised) | other
      · exact Or.inl sent
      · exact Or.inr (Or.inl raised)
      · exact Or.inr (Or.inr (by simpa using other))
  | erase now =>
      simp only [Met, Bool.or_eq_true] at met
      exact erase_noticed _ s now met kept

theorem kept_run {trace : List Step} {s : State} (run : machine.Run trace s)
    (met : ∀ e ∈ trace, Met e = true) : Kept trace s :=
  run.history (C := fun e => Met e = true) (I := Kept)
    (fun s first => .empty fun m => by simp [first.1]) kept_step met

end Sync

/-- In both servers what a client is told is right: in the synchronous one if flags start off
and no change goes by unannounced, in the other one if every reply fits. -/
theorem changes_told (trace : List SyncServer.Step) (s : SyncServer.State)
    (trace' : List AsyncServer.Step) (s' : AsyncServer.State) :
    (SyncServer.machine.Run trace s → (∀ e ∈ trace, Sync.Met e = true) →
      Truthful pingChanged pingOk (syncSeen trace)) ∧
    (AsyncServer.machine.Run trace' s' → (∀ e ∈ trace', AsyncServer.Fitting e = true) →
      Truthful pingChanged pingOk (asyncSeen trace') ∧ s'.undefined = false) := by
  refine ⟨fun run met => (Sync.kept_run run met).truthful, fun run fitting => ?_⟩
  obtain ⟨formed, kept⟩ := Async.kept_run run fitting
  exact ⟨kept.truthful, formed.defined⟩

/-! One client logs in and the other one is told; one is timed out and the other one is not. -/

def reads (text : String) (now : Int) : SyncServer.Action :=
  .answer { got := .bytes (bytes text), now := now, sent := true, later := now }

def silence (now : Int) : SyncServer.Action :=
  .answer { got := .nothing, now := now, sent := true, later := now }

theorem login_told :
    (∃ trace s, SyncServer.machine.Run trace s ∧ Truthful pingChanged pingOk (syncSeen trace) ∧
      syncSeen trace = [.joined 0, .joined 1, .changed, .told 1 pingChanged]) ∧
    ∃ trace s, AsyncServer.machine.Run trace s ∧ Truthful pingChanged pingOk (asyncSeen trace) ∧
      asyncSeen trace = [.joined 0, .joined 1, .changed, .told 1 pingChanged] := by
  obtain ⟨trace, s, run, check⟩ := Machine.run_of_check (M := SyncServer.machine)
    (s := SyncServer.noClients) ⟨rfl, rfl, rfl⟩
    [.accept SyncServer.newcomer, .accept SyncServer.newcomer, .wake, reads "login a\n" 0,
      reads "ping\n" 0]
    (fun r => decide (syncSeen r.1 = [.joined 0, .joined 1, .changed, .told 1 pingChanged]) &&
      r.1.all Sync.Met) (by decide +kernel)
  obtain ⟨trace', s', run', check'⟩ := Machine.run_of_check AsyncServer.no_clients_start
    [.handleAccept 0, .handleAccept 0, .onRead 0 false (bytes "login a\n"),
      .onRead 1 false (bytes "ping\n")]
    (fun r => decide (asyncSeen r.1 = [.joined 0, .joined 1, .changed, .told 1 pingChanged]) &&
      r.1.all AsyncServer.Fitting) (by decide +kernel)
  rw [Bool.and_eq_true] at check check'
  have told := changes_told trace s trace' s'
  have truthful := told.1 run (List.all_eq_true.mp check.2)
  have truthful' := told.2 run' (List.all_eq_true.mp check'.2)
  exact ⟨⟨trace, s, run, truthful, of_decide_eq_true check.1⟩,
    ⟨trace', s', run', truthful'.1, of_decide_eq_true check'.1⟩⟩

theorem time_out_not_told : ¬ ((∀ trace s, SyncServer.machine.Run trace s →
      Truthful pingChanged pingOk (syncSeen trace)) ∧
    ∀ trace s, AsyncServer.machine.Run trace s →
      Truthful pingChanged pingOk (asyncSeen trace)) := by
  intro always
  obtain ⟨trace, s, run, check⟩ := Machine.run_of_check (M := SyncServer.machine)
    (s := SyncServer.noClients) ⟨rfl, rfl, rfl⟩
    ([.accept SyncServer.newcomer, .accept SyncServer.newcomer, .wake, silence 6000000,
      reads "ping\n" 6000000, .erase fun _ => 6000000, .wake,
      reads "ping\n" 6000000] : List SyncServer.Action)
    (fun r => decide (syncSeen r.1 =
      [.joined 0, .joined 1, .told 1 pingOk, .changed] ++ [.told 1 pingOk]))
    (by decide +kernel)
  have seen := of_decide_eq_true check
  have truthful := (always.1 trace s run [.joined 0, .joined 1, .told 1 pingOk, .changed] 1 pingOk []
    seen).1 (news_changed 1 [.joined 0, .joined 1, .told 1 pingOk])
  exact absurd truthful (by decide)

end NetworkProgramming.MembershipReplies
