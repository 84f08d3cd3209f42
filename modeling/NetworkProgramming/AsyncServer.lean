import NetworkProgramming.SyncServer

/-!
async_server.cpp: the server of sync_server.cpp with handlers, which one thread runs one after
the other. A client is read, answered and read again, and each read sets its timer anew; the
wait that was there before then ends with an error, which its handler is not given.
-/

namespace NetworkProgramming.AsyncServer

open CText
open SyncServer (max_msg Request request secondWord loginOk pingOk pingChanged)

/-- `reads` and `writes` are the operations on the socket that are outstanding, `waiting` is
whether the last wait for the timer is, `replaced` are the waits before it whose handlers have
not run. Times are in nanoseconds. -/
structure TalkToClient where
  reads : Nat
  writes : Nat
  waiting : Bool
  replaced : Nat
  started : Bool
  username : List UInt8
  lastPing : Int
  clientsChanged : Bool

def TalkToClient.New (c : TalkToClient) : Prop :=
  c.reads = 0 ∧ c.writes = 0 ∧ c.waiting = false ∧ c.replaced = 0 ∧ c.started = false ∧
    c.username = [] ∧ c.clientsChanged = false

/-- `accepting` is the client of the pending async_accept. Nothing is known of what follows a
write behind the end of write_buffer_ or an erase of the end of the array. -/
structure State where
  clients : List Nat
  object : Nat → TalkToClient
  accepting : Nat
  undefined : Bool

/-- The handlers, each with what it is given and what it reads from the clock. An operation on a
socket may end with an error at any time, and does if the socket is closed. -/
inductive Action where
  | handleAccept (now : Int)
  | onRead (client : Nat) (err : Bool) (msg : List UInt8)
  | onWrite (client : Nat)
  | expired (client : Nat) (now later : Int)
  | replaced (client : Nat) (now later : Int)
  deriving DecidableEq

inductive Answer where
  | accepted (client : Nat)
  | handled (client : Nat) (msg : List UInt8) (reply : Option (List UInt8))
  | removed (client : Nat)
  | silent
  deriving DecidableEq

def readComplete (err : Bool) (readBuffer : List UInt8) : Nat :=
  if err then 0 else if newline ∈ readBuffer then 0 else 1

def Ends (err : Bool) (msg : List UInt8) : Prop :=
  msg.length ≤ max_msg ∧ (∀ n < msg.length, readComplete false (msg.take n) ≠ 0) ∧
    (readComplete err msg = 0 ∨ msg.length = max_msg)

instance (err : Bool) (msg : List UInt8) : Decidable (Ends err msg) := by
  unfold Ends
  infer_instance

namespace TalkToClient

def postCheckPing (c : TalkToClient) : TalkToClient :=
  { c with waiting := true, replaced := c.replaced + if c.waiting then 1 else 0 }

def doRead (c : TalkToClient) : TalkToClient := { c with reads := c.reads + 1 }.postCheckPing

def timedOut (c : TalkToClient) (now : Int) : Bool :=
  decide ((now - c.lastPing).tdiv 1000000 > 5000)

end TalkToClient

namespace State

def set (s : State) (client : Nat) (c : TalkToClient) : State :=
  { s with object := Function.update s.object client c }

def updateClientsChanged (s : State) : State :=
  { s with object := fun p =>
      if p ∈ s.clients then { s.object p with clientsChanged := true } else s.object p }

def start (s : State) (client : Nat) (now : Int) : State :=
  { s.set client ({ s.object client with started := true, lastPing := now }.doRead) with
    clients := s.clients ++ [client] }

def stop (s : State) (client : Nat) : State :=
  if (s.object client).started then
    let closed := s.set client { s.object client with started := false }
    if client ∈ s.clients then
      { closed with clients := s.clients.erase client }.updateClientsChanged
    else { closed with undefined := true }
  else s

def doWrite (s : State) (client : Nat) (msg : List UInt8) : State :=
  let c := s.object client
  if c.started then
    if msg.length ≤ max_msg then s.set client { c with writes := c.writes + 1 }
    else { s with undefined := true }
  else s

def onLogin (s : State) (client : Nat) (msg : List UInt8) : State :=
  let c := s.object client
  let named := s.set client { c with username := secondWord msg c.username }
  (named.doWrite client loginOk).updateClientsChanged

def pingReply (s : State) (client : Nat) : List UInt8 :=
  if (s.object client).clientsChanged then pingChanged else pingOk

def onPing (s : State) (client : Nat) : State :=
  let sent := s.doWrite client (s.pingReply client)
  sent.set client { sent.object client with clientsChanged := false }

def clientsMsg (s : State) : List UInt8 :=
  bytes "clients " ++ (s.clients.flatMap fun p => (s.object p).username ++ [space]) ++ [newline]

def onClients (s : State) (client : Nat) : State := s.doWrite client s.clientsMsg

def dispatch (s : State) (client : Nat) (msg : List UInt8) : State × Option (List UInt8) :=
  match request msg with
  | .login => (s.onLogin client msg, some loginOk)
  | .ping => (s.onPing client, some (s.pingReply client))
  | .askClients => (s.onClients client, some s.clientsMsg)
  | .invalid => (s, none)

def removal (s : State) (client : Nat) : Answer :=
  if (s.object client).started then .removed client else .silent

def onRead (s : State) (client : Nat) (err : Bool) (msg : List UInt8) : State × Answer :=
  let closed := if err then s.stop client else s
  if (closed.object client).started then
    ((closed.dispatch client msg).1, .handled client msg (closed.dispatch client msg).2)
  else (closed, if err then s.removal client else .silent)

def onWrite (s : State) (client : Nat) : State := s.set client (s.object client).doRead

def onCheckPing (s : State) (client : Nat) (now later : Int) : State × Answer :=
  let late := (s.object client).timedOut now
  let checked := if late then s.stop client else s
  (checked.set client { checked.object client with lastPing := later },
    if late then s.removal client else .silent)

def handleAccept (s : State) (now : Int) : State :=
  { s.start s.accepting now with accepting := s.accepting + 1 }

/-! The operation whose handler runs is not outstanding any more. -/

def readEnded (s : State) (client : Nat) : State :=
  s.set client { s.object client with reads := (s.object client).reads - 1 }

def writeEnded (s : State) (client : Nat) : State :=
  s.set client { s.object client with writes := (s.object client).writes - 1 }

def waitEnded (s : State) (client : Nat) : State :=
  s.set client { s.object client with waiting := false }

def replacedEnded (s : State) (client : Nat) : State :=
  s.set client { s.object client with replaced := (s.object client).replaced - 1 }

end State

def enabled (s : State) : Action → Prop
  | .handleAccept _ => True
  | .onRead client err msg => 0 < (s.object client).reads ∧ Ends err msg
  | .onWrite client => 0 < (s.object client).writes
  | .expired client _ _ => (s.object client).waiting = true
  | .replaced client _ _ => 0 < (s.object client).replaced

instance (s : State) (action : Action) : Decidable (enabled s action) := by
  cases action <;> unfold enabled <;> infer_instance

def run (s : State) : Action → State × Answer
  | .handleAccept now => (s.handleAccept now, .accepted s.accepting)
  | .onRead client err msg => (s.readEnded client).onRead client err msg
  | .onWrite client => ((s.writeEnded client).onWrite client, .silent)
  | .expired client now later => (s.waitEnded client).onCheckPing client now later
  | .replaced client now later => (s.replacedEnded client).onCheckPing client now later

def step (s : State) (action : Action) : Option (State × Answer) :=
  if s.undefined = false ∧ enabled s action then some (run s action) else none

abbrev Step := Transition State Action Answer

def machine : Machine State Action Answer where
  start s := s.clients = [] ∧ (∀ p, (s.object p).New) ∧ s.accepting = 0 ∧ s.undefined = false
  step := step

def newcomer : TalkToClient where
  reads := 0
  writes := 0
  waiting := false
  replaced := 0
  started := false
  username := []
  lastPing := 0
  clientsChanged := false

def noClients : State :=
  { clients := [], object := fun _ => newcomer, accepting := 0, undefined := false }

theorem no_clients_start : machine.start noClients :=
  ⟨rfl, fun _ => ⟨rfl, rfl, rfl, rfl, rfl, rfl, rfl⟩, rfl, rfl⟩

theorem stepped_run (e : Step) (stepped : machine.Stepped e) :
    e.before.undefined = false ∧ enabled e.before e.action ∧
      (e.after, e.output) = run e.before e.action := by
  change step e.before e.action = some (e.after, e.output) at stepped
  rw [step] at stepped
  split at stepped
  · rename_i ready
    exact ⟨ready.1, ready.2, (Option.some.inj stepped).symm⟩
  · cases stepped

@[simp] theorem set_self (s : State) (client : Nat) (c : TalkToClient) :
    (s.set client c).object client = c := Function.update_self _ _ _

theorem set_other (s : State) (client p : Nat) (c : TalkToClient) (other : p ≠ client) :
    (s.set client c).object p = s.object p := Function.update_of_ne other _ _

/-! What the functions leave as it is. -/

def TalkToClient.ops (c : TalkToClient) : Nat × Nat × Bool × Bool :=
  (c.reads, c.writes, c.waiting, c.started)

structure Frame (client : Nat) (s s' : State) : Prop where
  clients : s'.clients = s.clients
  accepting : s'.accepting = s.accepting
  undefined : s'.undefined = s.undefined
  others : ∀ q, q ≠ client → (s'.object q).ops = (s.object q).ops
  started : ∀ q, (s'.object q).started = (s.object q).started
  later : ∀ q, s.accepting ≤ q → s'.object q = s.object q

structure Formed (s : State) : Prop where
  defined : s.undefined = false
  nodup : s.clients.Nodup
  started : ∀ p, (s.object p).started = true ↔ p ∈ s.clients
  made : ∀ p ∈ s.clients, p < s.accepting
  fresh : ∀ p, s.accepting ≤ p → (s.object p).New

theorem frame_trans {client : Nat} {s t u : State} (first : Frame client s t)
    (second : Frame client t u) : Frame client s u where
  clients := second.clients.trans first.clients
  accepting := second.accepting.trans first.accepting
  undefined := second.undefined.trans first.undefined
  others q other := (second.others q other).trans (first.others q other)
  started q := (second.started q).trans (first.started q)
  later q above := (second.later q (first.accepting ▸ above)).trans (first.later q above)

theorem frame_set (s : State) (client : Nat) (c : TalkToClient) (made : client < s.accepting)
    (same : c.started = (s.object client).started) : Frame client s (s.set client c) where
  clients := rfl
  accepting := rfl
  undefined := rfl
  others q other := by rw [set_other _ _ _ _ other]
  started q := by
    by_cases mine : q = client
    · rw [mine, set_self, same]
    · rw [set_other _ _ _ _ mine]
  later q above := set_other _ _ _ _ (by omega)

theorem update_ops (s : State) (q : Nat) :
    (s.updateClientsChanged.object q).ops = (s.object q).ops := by
  simp only [State.updateClientsChanged]
  split <;> rfl

theorem frame_update (s : State) (client : Nat) (made : ∀ p ∈ s.clients, p < s.accepting) :
    Frame client s s.updateClientsChanged where
  clients := rfl
  accepting := rfl
  undefined := rfl
  others q _ := update_ops s q
  started q := congrArg (fun ops => ops.2.2.2) (update_ops s q)
  later q above := if_neg fun member => Nat.not_lt.mpr above (made q member)

theorem formed_frame {client : Nat} {s s' : State} (formed : Formed s)
    (frame : Frame client s s') : Formed s' where
  defined := frame.undefined.trans formed.defined
  nodup := frame.clients ▸ formed.nodup
  started p := by rw [frame.started, frame.clients, formed.started]
  made p member := by
    rw [frame.accepting]
    exact formed.made p (frame.clients ▸ member)
  fresh p above := by
    rw [frame.accepting] at above
    rw [frame.later p above]
    exact formed.fresh p above

/-! One lemma for each function that writes or stops. -/

theorem do_write_started (s : State) (client : Nat) (msg : List UInt8)
    (here : (s.object client).started = true) (fits : msg.length ≤ max_msg) :
    s.doWrite client msg =
      s.set client { s.object client with writes := (s.object client).writes + 1 } := by
  rw [State.doWrite, if_pos here, if_pos fits]

theorem ping_reply_fits (s : State) (client : Nat) : (s.pingReply client).length ≤ max_msg := by
  rw [State.pingReply]
  split <;> decide

def Fits (s : State) (msg : List UInt8) : Prop :=
  request msg = .askClients → s.clientsMsg.length ≤ max_msg

instance (s : State) (msg : List UInt8) : Decidable (Fits s msg) := by
  unfold Fits
  infer_instance

theorem dispatch_frame (s : State) (client : Nat) (msg : List UInt8) (formed : Formed s)
    (here : (s.object client).started = true) (fits : Fits s msg) :
    Frame client s (s.dispatch client msg).1 ∧
      (((s.dispatch client msg).1.object client).ops =
        ((s.object client).reads,
          (s.object client).writes + if request msg = .invalid then 0 else 1,
          (s.object client).waiting, (s.object client).started)) := by
  have made : client < s.accepting := formed.made client ((formed.started client).mp here)
  rw [State.dispatch]
  cases kind : request msg with
  | login =>
      have sent := do_write_started (s.set client
        { s.object client with username := secondWord msg (s.object client).username })
        client loginOk (by rw [set_self]; exact here) (by decide)
      refine ⟨?_, ?_⟩
      · dsimp only
        rw [State.onLogin, sent]
        refine frame_trans (frame_trans (frame_set s client _ made ?_)
          (frame_set _ client _ made ?_))
          (frame_update _ client fun p member => formed.made p member) <;> rfl
      · dsimp only
        rw [State.onLogin, sent, update_ops, set_self, set_self]
        rfl
  | ping =>
      have sent := do_write_started s client _ here (ping_reply_fits s client)
      refine ⟨?_, ?_⟩
      · dsimp only
        rw [State.onPing, sent]
        refine frame_trans (frame_set s client _ made ?_) (frame_set _ client _ made ?_) <;> rfl
      · dsimp only
        rw [State.onPing, sent, set_self, set_self]
        rfl
  | askClients =>
      have sent := do_write_started s client _ here (fits kind)
      refine ⟨?_, ?_⟩
      · dsimp only
        rw [State.onClients, sent]
        exact frame_set s client _ made rfl
      · dsimp only
        rw [State.onClients, sent, set_self]
        rfl
  | invalid => exact ⟨⟨rfl, rfl, rfl, fun _ _ => rfl, fun _ => rfl, fun _ _ => rfl⟩, rfl⟩

structure Stopped (client : Nat) (s s' : State) : Prop where
  formed : Formed s'
  clients : s'.clients = s.clients.erase client
  accepting : s'.accepting = s.accepting
  others : ∀ q, q ≠ client → (s'.object q).ops = (s.object q).ops

theorem stop_stopped (s : State) (client : Nat) (formed : Formed s) :
    Stopped client s (s.stop client) := by
  rw [State.stop]
  by_cases here : (s.object client).started = true
  · have member := (formed.started client).mp here
    have made := formed.made client member
    rw [if_pos here]
    dsimp only
    rw [if_pos member]
    have others (q : Nat) (other : q ≠ client) :
        (({ s.set client { s.object client with started := false } with
          clients := s.clients.erase client }.updateClientsChanged).object q).ops =
          (s.object q).ops := by
      rw [update_ops]
      exact congrArg TalkToClient.ops (set_other s client q _ other)
    refine ⟨⟨formed.defined, formed.nodup.erase client, fun p => ?_, fun p inside => ?_,
      fun p above => ?_⟩, rfl, rfl, others⟩
    · change _ ↔ p ∈ s.clients.erase client
      rw [formed.nodup.mem_erase_iff]
      by_cases mine : p = client
      · subst mine
        have ops := update_ops ({ s.set p { s.object p with started := false } with
          clients := s.clients.erase p }) p
        have off : ((s.set p { s.object p with started := false }).object p).started = false := by
          rw [set_self]
        have same := congrArg (fun ops => ops.2.2.2) ops
        change _ = ((s.set p { s.object p with started := false }).object p).started at same
        change (TalkToClient.ops _).2.2.2 = true ↔ _
        rw [same, off]
        simp
      · have same := congrArg (fun ops => ops.2.2.2) (others p mine)
        change (TalkToClient.ops _).2.2.2 = true ↔ _
        rw [same]
        change (s.object p).started = true ↔ _
        rw [formed.started p]
        simp [mine]
    · exact formed.made p (List.mem_of_mem_erase inside)
    -- an object not made yet is not in the list, so nothing sets its flag
    · have absent : p ∉ s.clients.erase client := fun inside =>
        Nat.not_lt.mpr above (formed.made p (List.mem_of_mem_erase inside))
      change s.accepting ≤ p at above
      change (if p ∈ s.clients.erase client then _ else _ : TalkToClient).New
      rw [if_neg absent]
      change ((s.set client _).object p).New
      rw [set_other _ _ _ _ (by omega)]
      exact formed.fresh p above
  · have absent : client ∉ s.clients := mt (formed.started client).mpr here
    rw [if_neg here]
    exact ⟨formed, (List.erase_of_not_mem absent).symm, rfl, fun _ _ => rfl⟩

theorem stopped_gone {client : Nat} {s s' : State} (formed : Formed s)
    (stopped : Stopped client s s') : client ∉ s'.clients := by
  rw [stopped.clients]
  exact formed.nodup.not_mem_erase

theorem frame_stopped {client : Nat} {s t u : State} (frame : Frame client s t)
    (stopped : Stopped client t u) : Stopped client s u where
  formed := stopped.formed
  clients := by rw [stopped.clients, frame.clients]
  accepting := stopped.accepting.trans frame.accepting
  others q other := (stopped.others q other).trans (frame.others q other)

theorem stopped_frame {client : Nat} {s t u : State} (stopped : Stopped client s t)
    (frame : Frame client t u) : Stopped client s u where
  formed := formed_frame stopped.formed frame
  clients := frame.clients.trans stopped.clients
  accepting := frame.accepting.trans stopped.accepting
  others q other := (frame.others q other).trans (stopped.others q other)

/-! What a handler can do. -/

theorem made_of_enabled (s : State) (client : Nat) (formed : Formed s)
    (outstanding : ¬ (s.object client).New) : client < s.accepting := by
  by_contra above
  exact outstanding (formed.fresh client (Nat.le_of_not_lt above))

inductive Effect (s : State) : Action → State → Answer → Prop where
  | joined (now : Int) :
      Effect s (.handleAccept now) (s.handleAccept now) (.accepted s.accepting)
  | failed (client : Nat) (msg : List UInt8) (outstanding : 0 < (s.object client).reads)
      (made : client < s.accepting) :
      Effect s (.onRead client true msg) ((s.readEnded client).stop client) (s.removal client)
  | answered (client : Nat) (msg : List UInt8) (outstanding : 0 < (s.object client).reads)
      (made : client < s.accepting) (here : (s.object client).started = true) :
      Effect s (.onRead client false msg) ((s.readEnded client).dispatch client msg).1
        (.handled client msg ((s.readEnded client).dispatch client msg).2)
  | ignored (client : Nat) (msg : List UInt8) (made : client < s.accepting)
      (gone : ¬ (s.object client).started = true) :
      Effect s (.onRead client false msg) (s.readEnded client) .silent
  | written (client : Nat) (outstanding : 0 < (s.object client).writes)
      (made : client < s.accepting) :
      Effect s (.onWrite client) ((s.writeEnded client).onWrite client) .silent
  | expired (client : Nat) (now later : Int) (made : client < s.accepting) :
      Effect s (.expired client now later) ((s.waitEnded client).onCheckPing client now later).1
        ((s.waitEnded client).onCheckPing client now later).2
  | replaced (client : Nat) (now later : Int) (made : client < s.accepting) :
      Effect s (.replaced client now later)
        ((s.replacedEnded client).onCheckPing client now later).1
        ((s.replacedEnded client).onCheckPing client now later).2

theorem read_ended_frame (s : State) (client : Nat) (made : client < s.accepting) :
    Frame client s (s.readEnded client) := frame_set s client _ made rfl

theorem removal_ended (s : State) (client : Nat) (c : TalkToClient)
    (same : c.started = (s.object client).started) :
    (s.set client c).removal client = s.removal client := by
  rw [State.removal, State.removal, set_self, same]

theorem effect_of_stepped (e : Step) (stepped : machine.Stepped e) (formed : Formed e.before) :
    Effect e.before e.action e.after e.output := by
  obtain ⟨-, ready, ran⟩ := stepped_run e stepped
  obtain ⟨s, action, output, after⟩ := e
  dsimp only at formed ready ran ⊢
  cases action with
  | handleAccept now =>
      cases ran
      exact .joined now
  | onRead client err msg =>
      have made : client < s.accepting := made_of_enabled s client formed fun new => by
        have none_ := new.1
        have some_ := ready.1
        omega
      have ended := formed_frame formed (read_ended_frame s client made)
      have same : ((s.readEnded client).object client).started = (s.object client).started := by
        rw [State.readEnded, set_self]
      have removal : (s.readEnded client).removal client = s.removal client :=
        removal_ended s client _ rfl
      rw [run, State.onRead] at ran
      cases err with
      | true =>
          have stopped := stop_stopped _ client ended
          have gone : ¬ (((s.readEnded client).stop client).object client).started = true := by
            rw [stopped.formed.started]
            exact stopped_gone ended stopped
          rw [if_pos rfl, if_neg gone, if_pos rfl, removal] at ran
          cases ran
          exact .failed client msg ready.1 made
      | false =>
          simp only [Bool.false_eq_true, if_false] at ran
          rw [same] at ran
          by_cases here : (s.object client).started = true
          · rw [if_pos here] at ran
            cases ran
            exact .answered client msg ready.1 made here
          · rw [if_neg here] at ran
            cases ran
            exact .ignored client msg made here
  | onWrite client =>
      have made : client < s.accepting := made_of_enabled s client formed fun new => by
        have none_ := new.2.1
        have some_ : 0 < (s.object client).writes := ready
        omega
      cases ran
      exact .written client ready made
  | expired client now later =>
      have made : client < s.accepting := made_of_enabled s client formed fun new => by
        have none_ := new.2.2.1
        have some_ : (s.object client).waiting = true := ready
        rw [none_] at some_
        cases some_
      have whole := congrArg Prod.fst ran
      have told := congrArg Prod.snd ran
      dsimp only [run] at whole told
      subst whole told
      exact .expired client now later made
  | replaced client now later =>
      have made : client < s.accepting := made_of_enabled s client formed fun new => by
        have none_ := new.2.2.2.1
        have some_ : 0 < (s.object client).replaced := ready
        omega
      have whole := congrArg Prod.fst ran
      have told := congrArg Prod.snd ran
      dsimp only [run] at whole told
      subst whole told
      exact .replaced client now later made

theorem check_ping_late (s : State) (client : Nat) (now later : Int) (formed : Formed s)
    (made : client < s.accepting) (late : (s.object client).timedOut now = true) :
    Stopped client s (s.onCheckPing client now later).1 ∧
      (s.onCheckPing client now later).2 = s.removal client := by
  rw [State.onCheckPing]
  simp only [late, if_true, and_true]
  have stopped := stop_stopped s client formed
  exact stopped_frame stopped (frame_set _ client _ (stopped.accepting ▸ made) rfl)

theorem check_ping_early (s : State) (client : Nat) (now later : Int)
    (early : ¬ (s.object client).timedOut now = true) :
    s.onCheckPing client now later =
      (s.set client { s.object client with lastPing := later }, .silent) := by
  rw [State.onCheckPing]
  simp only [if_neg early]

end NetworkProgramming.AsyncServer
