import Mathlib.Logic.Function.Basic
import NetworkProgramming.ChatSelect
import NetworkProgramming.Machine

/-!
ChatServer.run of chapter2/2_3_chat_server_with_select.py. A turn of its for loop is a step: what
accept, receive and each send give there is the step's. `live` is no variable of the server: the
clients that have logged in and whose connection it has not seen ended or failed.
-/

namespace NetworkProgramming.ChatSelect

structure Address where
  host : String
  port : Nat

inductive Input (Client : Type) where
  | server
  | stdin
  | client (c : Client)
  deriving DecidableEq

structure Server (Client : Type) where
  inputs : List (Input Client)
  outputs : List Client
  clients : Int
  clientmap : Client → Option (Address × String)

inductive Received where
  /-- What receive returns, or an exception other than socket.error, on a connection that is open. -/
  | returns (outcome : Outcome)
  /-- The recv of the header has returned no bytes. -/
  | closed
  /-- socket.error -/
  | error

namespace Received

/-- What receive returns; none is socket.error. -/
def outcome : Received → Option Outcome
  | returns o => some o
  | closed => some (.text "")
  | error => none

def over_ : Received → Bool
  | returns _ => false
  | closed | error => true

end Received

variable {Client : Type} [DecidableEq Client]

def getClientName (s : Server Client) (client : Client) : Option String :=
  (s.clientmap client).map fun info => info.2 ++ "@" ++ info.1.host

/-- A send to each client in turn, and the one whose send raises socket.error. -/
def sends (fails : Client → Bool) (msg : String) :
    List Client → List (Client × String) × Option Client
  | [] => ([], none)
  | output :: outputs =>
      if fails output then ([], some output)
      else
        let (sent, failed) := sends fails msg outputs
        ((output, msg) :: sent, failed)

/-- A turn: the server behind it, if no exception leaves it, what has been sent, and the client
whose send has failed. -/
structure Turn (Client : Type) where
  server : Option (Server Client)
  sent : List (Client × String)
  failed : Option Client

/-- `cname` is receive(client).split('NAME: ')[1], none where one of these raises. -/
def login (s : Server Client) (client : Client) (address : Address) (cname : Option String)
    (fails : Client → Bool) : Turn Client :=
  match cname with
  | none => ⟨none, [], none⟩
  | some cname =>
      let clients := s.clients + 1
      if fails client then ⟨none, [], some client⟩
      else
        let welcome := (client, "CLIENT: " ++ address.host)
        let s := { s with
          clients := clients
          inputs := s.inputs ++ [Input.client client]
          clientmap := Function.update s.clientmap client (some (address, cname)) }
        let msg := "\n(Connected: New client (" ++ toString clients ++ ") from " ++
          cname ++ "@" ++ address.host ++ ")"
        match sends fails msg s.outputs with
        | (sent, some output) => ⟨none, welcome :: sent, some output⟩
        | (sent, none) =>
            ⟨some { s with outputs := s.outputs ++ [client] }, welcome :: sent, none⟩

/-- inputs.remove and outputs.remove; none is a ValueError. -/
def remove (s : Server Client) (sock : Client) : Option (Server Client) :=
  if Input.client sock ∈ s.inputs ∧ sock ∈ s.outputs then
    some { s with inputs := s.inputs.erase (.client sock), outputs := s.outputs.erase sock }
  else none

def forward (s : Server Client) (sock : Client) (data : String) (fails : Client → Bool) :
    Turn Client :=
  match getClientName s sock with
  | none => ⟨none, [], none⟩
  | some name =>
      match sends fails ("\n#[" ++ name ++ "]>>" ++ data) (s.outputs.filter (· ≠ sock)) with
      | (sent, none) => ⟨some s, sent, none⟩
      | (sent, some output) => ⟨remove s sock, sent, some output⟩

/-- A send that fails here is caught too, but then the socket is removed a second time. -/
def hangUp (s : Server Client) (sock : Client) (fails : Client → Bool) : Turn Client :=
  match remove { s with clients := s.clients - 1 } sock with
  | none => ⟨none, [], none⟩
  | some s =>
      match getClientName s sock with
      | none => ⟨none, [], none⟩
      | some name =>
          match sends fails ("\n(Now hung up: Client from " ++ name ++ ")") s.outputs with
          | (sent, none) => ⟨some s, sent, none⟩
          | (sent, some output) => ⟨remove s sock, sent, some output⟩

def handle (s : Server Client) (sock : Client) (received : Received) (fails : Client → Bool) :
    Turn Client :=
  match received.outcome with
  | none => ⟨remove s sock, [], none⟩
  | some .other => ⟨none, [], none⟩
  | some (.text data) => if data ≠ "" then forward s sock data fails else hangUp s sock fails

structure State (Client : Type) where
  server : Server Client
  /-- what the for loop still has to do of what select has returned -/
  readable : List (Input Client)
  running : Bool
  /-- an exception has left run -/
  crashed : Bool
  live : List Client

inductive Action (Client : Type) where
  | select (readable : List (Input Client))
  | selectFails
  | accept (client : Client) (address : Address) (cname : Option String) (fails : Client → Bool)
  | readline
  | receive (received : Received) (fails : Client → Bool)

namespace State

def AtSelect (s : State Client) : Prop := s.readable = [] ∧ s.running = true ∧ s.crashed = false

def start : State Client where
  server := { inputs := [.server, .stdin], outputs := [], clients := 0, clientmap := fun _ => none }
  readable := []
  running := true
  crashed := false
  live := []

instance (s : State Client) : Decidable s.AtSelect := inferInstanceAs (Decidable (_ ∧ _ ∧ _))

def turn (s : State Client) (rest_ : List (Input Client)) (t : Turn Client) (live : List Client) :
    State Client where
  server := t.server.getD s.server
  readable := rest_
  running := s.running
  crashed := t.server.isNone
  live := live

end State

def seen (live : List Client) (sock : Client) (received : Received) (failed : Option Client) :
    List Client :=
  let live := if received.over_ then live.erase sock else live
  match failed with
  | none => live
  | some output => live.erase output

/-- accept returns a socket that is not one of the others. -/
def step (s : State Client) (action : Action Client) :
    Option (State Client × List (Client × String)) :=
  if s.crashed then none
  else match action, s.readable with
    | .select readable, _ =>
        if s.AtSelect ∧ readable ≠ [] ∧ readable.Sublist s.server.inputs then
          some ({ s with readable := readable }, [])
        else none
    | .selectFails, _ => if s.AtSelect then some ({ s with running := false }, []) else none
    | .accept client address cname fails, .server :: rest_ =>
        if s.server.clientmap client = none then
          let t := login s.server client address cname fails
          some (s.turn rest_ t (s.live ++ [client]), t.sent)
        else none
    | .readline, .stdin :: rest_ => some ({ s with readable := rest_, running := false }, [])
    | .receive received fails, .client sock :: rest_ =>
        let t := handle s.server sock received fails
        some (s.turn rest_ t (seen s.live sock received t.failed), t.sent)
    | _, _ => none

def machine : Machine (State Client) (Action Client) (List (Client × String)) where
  start s := s = State.start
  step := step

abbrev Step (Client : Type) := Transition (State Client) (Action Client) (List (Client × String))

structure Membership (trace : List (Step Client)) (s : State Client) : Prop where
  inputs : s.server.inputs = .server :: .stdin :: s.live.map Input.client
  outputs : s.server.outputs = s.live
  clients : s.server.clients = s.live.length
  removed : ∀ e ∈ trace, ∀ c, c ∈ e.before.server.outputs ∧ c ∉ e.after.server.outputs ∨
    .client c ∈ e.before.server.inputs ∧ .client c ∉ e.after.server.inputs → c ∉ e.after.live

/-- A client is handled: the message that it sends cannot be sent to another, or its connection
fails. -/
def Slips (s : State Client) (action : Action Client) : Prop :=
  ∃ sock rest_ received fails, s.readable = .client sock :: rest_ ∧
    action = .receive received fails ∧ (received = .error ∨
      ∃ data, received = .returns (.text data) ∧ data ≠ "" ∧
        ∃ output ∈ s.server.outputs, output ≠ sock ∧ fails output = true)

/-- A client is handled: receive returns the empty string though the connection is open. -/
def Mistakes (action : Action Client) : Prop :=
  ∃ fails, action = .receive (.returns (.text "")) fails

/-! What a turn does to the two lists, the counter and the clients that are live. -/

def Server.removed (s : Server Client) (sock : Client) : Server Client :=
  { s with inputs := s.inputs.erase (.client sock), outputs := s.outputs.erase sock }

inductive Did (s : State Client) : Action Client → State Client → Prop where
  | aside (action : Action Client) (readable : List (Input Client)) (running : Bool)
      (other : ∀ received fails, action ≠ .receive received fails) :
      Did s action { s with readable := readable, running := running }
  | login (client : Client) (address : Address) (cname : String) (fails : Client → Bool)
      (rest_ : List (Input Client)) (fresh : s.server.clientmap client = none) :
      Did s (.accept client address (some cname) fails) { s with
        server := {
          inputs := s.server.inputs ++ [Input.client client]
          outputs := s.server.outputs ++ [client]
          clients := s.server.clients + 1
          clientmap := Function.update s.server.clientmap client (some (address, cname)) }
        readable := rest_
        live := s.live ++ [client] }
  | forwarded (sock : Client) (data : String) (fails : Client → Bool) (rest_ : List (Input Client))
      (here : s.readable = .client sock :: rest_) (nonempty : data ≠ "")
      (fine : ∀ output ∈ s.server.outputs, output ≠ sock → fails output = false) :
      Did s (.receive (.returns (.text data)) fails) { s with readable := rest_ }
  | slipped (sock : Client) (received : Received) (fails : Client → Bool)
      (rest_ : List (Input Client)) (live : List Client) (here : s.readable = .client sock :: rest_)
      (member : sock ∈ s.server.outputs) (slips : received = .error ∨
        ∃ data, received = .returns (.text data) ∧ data ≠ "" ∧
          ∃ output ∈ s.server.outputs, output ≠ sock ∧ fails output = true) :
      Did s (.receive received fails) { s with
        server := s.server.removed sock, readable := rest_, live := live }
  | hungUp (sock : Client) (received : Received) (fails : Client → Bool)
      (rest_ : List (Input Client)) (here : s.readable = .client sock :: rest_)
      (member : sock ∈ s.server.outputs)
      (blank : received = .closed ∨ received = .returns (.text "")) :
      Did s (.receive received fails) { s with
        server := { s.server.removed sock with clients := s.server.clients - 1 }
        readable := rest_
        live := if received.over_ then s.live.erase sock else s.live }

omit [DecidableEq Client] in
theorem sends_none {fails : Client → Bool} {msg : String} {outputs : List Client}
    {sent : List (Client × String)} (all : sends fails msg outputs = (sent, none)) :
    ∀ output ∈ outputs, fails output = false := by
  induction outputs generalizing sent with
  | nil => simp
  | cons output outputs ih =>
      rw [sends] at all
      split at all
      · simp at all
      · rename_i works
        cases rest : sends fails msg outputs with
        | mk before failed =>
            rw [rest] at all
            cases all
            exact List.forall_mem_cons.mpr ⟨by simpa using works, ih rest⟩

omit [DecidableEq Client] in
theorem sends_some {fails : Client → Bool} {msg : String} {outputs : List Client}
    {sent : List (Client × String)} {failed : Client}
    (some_ : sends fails msg outputs = (sent, some failed)) :
    failed ∈ outputs ∧ fails failed = true := by
  induction outputs generalizing sent with
  | nil => simp [sends] at some_
  | cons output outputs ih =>
      rw [sends] at some_
      split at some_
      · rename_i fail
        cases some_
        exact ⟨List.mem_cons_self, fail⟩
      · cases rest : sends fails msg outputs with
        | mk before last =>
            rw [rest] at some_
            cases some_
            exact ⟨List.mem_cons_of_mem _ (ih rest).1, (ih rest).2⟩

theorem remove_some {s after : Server Client} {sock : Client} (gone : remove s sock = some after) :
    sock ∈ s.outputs ∧ after = s.removed sock := by
  rw [remove, Option.ite_none_right_eq_some] at gone
  exact ⟨gone.1.2, (Option.some.inj gone.2).symm⟩

omit [DecidableEq Client] in
theorem turn_some {s : State Client} (sound : s.crashed = false) {rest_ : List (Input Client)}
    {server : Server Client} {sent : List (Client × String)} {failed : Option Client}
    {live : List Client} : s.turn rest_ ⟨some server, sent, failed⟩ live =
      { s with server := server, readable := rest_, live := live } := by
  rw [State.turn, sound]
  rfl

def Goes (s : State Client) (action : Action Client) (after : State Client) : Prop :=
  after.crashed = false → Did s action after

theorem goes_crash {s after : State Client} {action : Action Client} (crashed : after.crashed = true) :
    Goes s action after :=
  fun sound => by cases crashed.symm.trans sound

theorem login_did (s : State Client) {client : Client} {address : Address} {cname : Option String}
    {fails : Client → Bool} {rest_ : List (Input Client)} (fresh : s.server.clientmap client = none)
    (sound : s.crashed = false) :
    Goes s (.accept client address cname fails)
      (s.turn rest_ (login s.server client address cname fails) (s.live ++ [client])) := by
  cases cname with
  | none => exact goes_crash rfl
  | some cname =>
      rw [login]
      dsimp only
      split
      · exact goes_crash rfl
      · split
        · exact goes_crash rfl
        · rw [turn_some sound]
          exact fun _ => .login client address cname fails rest_ fresh

theorem forward_did (s : State Client) {sock : Client} {data : String} {fails : Client → Bool}
    {rest_ : List (Input Client)} (live : Option Client → List Client)
    (here : s.readable = .client sock :: rest_) (nonempty : data ≠ "") (sound : s.crashed = false)
    (same : live none = s.live) : Goes s (.receive (.returns (.text data)) fails)
      (s.turn rest_ (forward s.server sock data fails)
        (live (forward s.server sock data fails).failed)) := by
  rw [forward]
  split
  · exact goes_crash rfl
  · split
    · rename_i sent all
      rw [turn_some sound, same]
      refine fun _ => .forwarded sock data fails rest_ here nonempty fun output member other => ?_
      exact sends_none all output (List.mem_filter.mpr ⟨member, by simpa using other⟩)
    · rename_i sent output failed
      obtain ⟨member, fail⟩ := sends_some failed
      obtain ⟨member, other⟩ := List.mem_filter.mp member
      cases gone : remove s.server sock with
      | none => exact goes_crash rfl
      | some after =>
          obtain ⟨present, rfl⟩ := remove_some gone
          rw [turn_some sound]
          exact fun _ => .slipped sock _ fails rest_ _ here present
            (Or.inr ⟨data, rfl, nonempty, output, member, by simpa using other, fail⟩)

theorem hangUp_did (s : State Client) {sock : Client} {received : Received} {fails : Client → Bool}
    {rest_ : List (Input Client)} (here : s.readable = .client sock :: rest_)
    (blank : received = .closed ∨ received = .returns (.text "")) (sound : s.crashed = false)
    (nodup : s.server.outputs.Nodup) : Goes s (.receive received fails)
      (s.turn rest_ (hangUp s.server sock fails)
        (seen s.live sock received (hangUp s.server sock fails).failed)) := by
  rw [hangUp]
  split
  · exact goes_crash rfl
  · rename_i after gone
    obtain ⟨present, rfl⟩ := remove_some gone
    split
    · exact goes_crash rfl
    · split
      · -- everybody else has been told
        rw [turn_some sound]
        exact fun _ => .hungUp sock received fails rest_ here present blank
      · -- the socket is not among the outputs any more
        rename_i sent output failed
        have again :
            remove (Server.removed { s.server with clients := s.server.clients - 1 } sock) sock =
              none := by
          rw [remove, if_neg]
          exact fun both => nodup.not_mem_erase both.2
        rw [again]
        exact goes_crash rfl

theorem handle_did (s : State Client) {sock : Client} {received : Received} {fails : Client → Bool}
    {rest_ : List (Input Client)} (here : s.readable = .client sock :: rest_)
    (sound : s.crashed = false) (nodup : s.server.outputs.Nodup) :
    Goes s (.receive received fails)
      (s.turn rest_ (handle s.server sock received fails)
        (seen s.live sock received (handle s.server sock received fails).failed)) := by
  cases received with
  | error =>
      simp only [handle, Received.outcome]
      cases gone : remove s.server sock with
      | none => exact goes_crash rfl
      | some after =>
          obtain ⟨present, rfl⟩ := remove_some gone
          rw [turn_some sound]
          exact fun _ => .slipped sock .error fails rest_ _ here present (Or.inl rfl)
  | closed => exact hangUp_did s here (Or.inl rfl) sound nodup
  | returns o =>
      cases o with
      | other => exact goes_crash rfl
      | text data =>
          by_cases nonempty : data ≠ ""
          · simp only [handle, Received.outcome, if_pos nonempty]
            exact forward_did s (seen s.live sock _) here nonempty sound rfl
          · simp only [handle, Received.outcome, if_neg nonempty]
            exact hangUp_did s here (Or.inr (by simpa using nonempty)) sound nodup

structure Sits (s : State Client) : Prop where
  nodup : s.server.outputs.Nodup
  known : ∀ c ∈ s.server.outputs, s.server.clientmap c ≠ none
  inputs : s.server.inputs = .server :: .stdin :: s.server.outputs.map Input.client

theorem step_did {s after : State Client} {action : Action Client} {sent : List (Client × String)}
    (ran : step s action = some (after, sent)) (sits : s.crashed = false → Sits s) :
    s.crashed = false ∧ Goes s action after := by
  unfold step at ran
  rw [Option.ite_none_left_eq_some] at ran
  obtain ⟨whole, ran⟩ := ran
  have sound : s.crashed = false := by simpa using whole
  refine ⟨sound, ?_⟩
  split at ran
  · obtain ⟨-, same⟩ := Option.ite_none_right_eq_some.mp ran
    cases same
    exact fun _ => .aside _ _ s.running (by simp)
  · obtain ⟨-, same⟩ := Option.ite_none_right_eq_some.mp ran
    cases same
    exact fun _ => .aside _ s.readable false (by simp)
  · obtain ⟨fresh, same⟩ := Option.ite_none_right_eq_some.mp ran
    cases same
    exact login_did s fresh sound
  · cases ran
    exact fun _ => .aside _ _ false (by simp)
  · rename_i here
    cases ran
    exact handle_did s here sound (sits sound).nodup
  · cases ran

theorem Sits.removed {s : State Client} (sits : Sits s) (sock : Client) :
    (s.server.removed sock).outputs.Nodup ∧
      (∀ c ∈ (s.server.removed sock).outputs, s.server.clientmap c ≠ none) ∧
      (s.server.removed sock).inputs =
        .server :: .stdin :: (s.server.removed sock).outputs.map Input.client := by
  refine ⟨sits.nodup.erase sock, fun c member => sits.known c (List.mem_of_mem_erase member), ?_⟩
  have injective : Function.Injective (Input.client : Client → Input Client) :=
    fun _ _ same => Input.client.inj same
  simp only [Server.removed, sits.inputs, List.map_erase injective]
  simp

theorem did_sits {s after : State Client} {action : Action Client} (did : Did s action after)
    (sits : Sits s) : Sits after := by
  cases did with
  | aside action readable running other => exact ⟨sits.nodup, sits.known, sits.inputs⟩
  | login client address cname fails rest_ fresh =>
      have absent : client ∉ s.server.outputs := fun member => sits.known client member fresh
      refine ⟨?_, ?_, ?_⟩
      · exact List.nodup_append.mpr ⟨sits.nodup, by simp, by
          rintro c member d single rfl
          exact absent (List.mem_singleton.mp single ▸ member)⟩
      · intro c member
        by_cases same : c = client
        · rw [same]
          simp
        · dsimp only
          rw [Function.update_of_ne same]
          refine sits.known c ((List.mem_append.mp member).resolve_right fun single => ?_)
          exact same (List.mem_singleton.mp single)
      · simp [sits.inputs]
  | forwarded sock data fails rest_ here nonempty fine => exact ⟨sits.nodup, sits.known, sits.inputs⟩
  | slipped sock received fails rest_ live here member slips =>
      obtain ⟨nodup, known, inputs⟩ := sits.removed sock
      exact ⟨nodup, known, inputs⟩
  | hungUp sock received fails rest_ here member blank =>
      obtain ⟨nodup, known, inputs⟩ := sits.removed sock
      exact ⟨nodup, known, inputs⟩

variable {trace : List (Step Client)} {s : State Client}

theorem run_sits (run : machine.Run trace s) : s.crashed = false → Sits s := by
  refine run.invariant (I := fun s => s.crashed = false → Sits s) ?_ ?_
  · rintro s rfl -
    exact ⟨List.nodup_nil, by simp [State.start], rfl⟩
  · intro e stepped sits sound
    have ran : step e.before e.action = some (e.after, e.output) := stepped
    obtain ⟨before, did⟩ := step_did ran sits
    exact did_sits (did sound) (sits before)

theorem run_did {e : Step Client} (run : machine.Run trace e.before) (stepped : machine.Stepped e) :
    e.before.crashed = false ∧ Goes e.before e.action e.after := by
  have ran : step e.before e.action = some (e.after, e.output) := stepped
  exact step_did ran (run_sits run)

theorem did_counts {s after : State Client} {action : Action Client} (did : Did s action after) :
    after.server.clients - after.server.outputs.length =
        s.server.clients - s.server.outputs.length ∧ ¬ Slips s action ∨
      after.server.clients - after.server.outputs.length =
        s.server.clients - s.server.outputs.length + 1 ∧ Slips s action := by
  -- clients is lowered by one where the socket leaves outputs, or else it slips
  have shorter {sock : Client} (member : sock ∈ s.server.outputs) :
      ((s.server.outputs.erase sock).length : Int) = s.server.outputs.length - 1 := by
    have positive := List.length_pos_of_mem member
    rw [List.length_erase_of_mem member]
    omega
  cases did with
  | aside action readable running other =>
      refine Or.inl ⟨rfl, ?_⟩
      rintro ⟨sock, rest_, received, fails, -, same, -⟩
      exact other received fails same
  | login client address cname fails rest_ fresh =>
      refine Or.inl ⟨?_, ?_⟩
      · simp only [List.length_append, List.length_singleton]
        omega
      · rintro ⟨sock, rest_, received, fails, -, same, -⟩
        cases same
  | forwarded sock data fails rest_ here nonempty fine =>
      refine Or.inl ⟨rfl, ?_⟩
      rintro ⟨other, after, received, fails, there, same, failed |
        ⟨-, -, -, output, member, differs, fail⟩⟩
      · cases same
        cases failed
      · cases same
        cases here.symm.trans there
        rw [fine output member differs] at fail
        cases fail
  | slipped sock received fails rest_ live here member slips =>
      refine Or.inr ⟨?_, sock, rest_, received, fails, here, rfl, slips⟩
      simp only [Server.removed, shorter member]
      omega
  | hungUp sock received fails rest_ here member blank =>
      refine Or.inl ⟨?_, ?_⟩
      · simp only [Server.removed, shorter member]
        omega
      · rintro ⟨other, after, received, fails, there, same, failed | ⟨data, text, nonempty, -⟩⟩
        · cases same
          cases failed
          rcases blank with blank | blank <;> cases blank
        · cases same
          cases text
          rcases blank with blank | blank <;> cases blank
          exact nonempty rfl

structure Counts (trace : List (Step Client)) (s : State Client) : Prop where
  sound : ∀ e ∈ trace, e.after.crashed = false
  atLeast : (s.server.outputs.length : Int) ≤ s.server.clients
  slipped : (∃ e ∈ trace, Slips e.before e.action) →
    (s.server.outputs.length : Int) < s.server.clients
  live : (∀ e ∈ trace, ¬ Slips e.before e.action) → ∀ c ∈ s.server.outputs, c ∈ s.live

theorem did_live {s after : State Client} {action : Action Client} (did : Did s action after)
    (sits : Sits s) (fine : ¬ Slips s action)
    (live : ∀ c ∈ s.server.outputs, c ∈ s.live) : ∀ c ∈ after.server.outputs, c ∈ after.live := by
  cases did with
  | aside action readable running other => exact live
  | login client address cname fails rest_ fresh =>
      intro c member
      exact List.mem_append.mpr ((List.mem_append.mp member).imp_left (live c))
  | forwarded sock data fails rest_ here nonempty fine => exact live
  | slipped sock received fails rest_ live here member slips =>
      exact absurd ⟨sock, rest_, received, fails, here, rfl, slips⟩ fine
  | hungUp sock received fails rest_ here member blank =>
      intro c member
      obtain ⟨other, member⟩ := sits.nodup.mem_erase_iff.mp member
      dsimp only
      split
      · exact (List.mem_erase_of_ne other).mpr (live c member)
      · exact live c member

theorem run_counts (run : machine.Run trace s) : s.crashed = false → Counts trace s := by
  induction run with
  | start first =>
      cases first
      intro _
      exact ⟨by simp, Int.le_refl 0, by simp, by simp [State.start]⟩
  | @next trace e run stepped ih =>
      intro sound
      obtain ⟨before, did⟩ := run_did run stepped
      have counts := ih before
      have step := did_counts (did sound)
      have atLeast := counts.atLeast
      refine ⟨?_, ?_, ?_, ?_⟩
      · intro d member
        rcases List.mem_append.mp member with old | new
        · exact counts.sound d old
        · exact List.mem_singleton.mp new ▸ sound
      · omega
      · rintro ⟨d, member, slips⟩
        rcases List.mem_append.mp member with old | new
        · have slipped := counts.slipped ⟨d, old, slips⟩
          omega
        · cases List.mem_singleton.mp new
          have slipped := step.resolve_left fun same => same.2 slips
          omega
      · intro fine
        refine did_live (did sound) (run_sits run before) (fine e (by simp)) (counts.live ?_)
        exact fun d member => fine d (List.mem_append_left _ member)

def Exact (s : State Client) : Prop :=
  s.server.outputs = s.live ∧ s.server.clients = s.live.length

theorem did_exact {s after : State Client} {action : Action Client} (did : Did s action after)
    (fine : ¬ Slips s action) (right : ¬ Mistakes action)
    (exact_ : Exact s) : Exact after := by
  obtain ⟨same, count⟩ := exact_
  cases did with
  | aside action readable running other => exact ⟨same, count⟩
  | login client address cname fails rest_ fresh =>
      refine ⟨by rw [same], ?_⟩
      simp [count]
  | forwarded sock data fails rest_ here nonempty fine => exact ⟨same, count⟩
  | slipped sock received fails rest_ live here member slips =>
      exact absurd ⟨sock, rest_, received, fails, here, rfl, slips⟩ fine
  | hungUp sock received fails rest_ here member blank =>
      rcases blank with rfl | rfl
      · refine ⟨congrArg (List.erase · sock) same, ?_⟩
        rw [same] at member
        have positive := List.length_pos_of_mem member
        simp only [Received.over_, if_pos, List.length_erase_of_mem member]
        omega
      · exact absurd ⟨fails, rfl⟩ right

theorem run_exact (run : machine.Run trace s)
    (met : ∀ e ∈ trace, ¬ Slips e.before e.action ∧ ¬ Mistakes e.action) :
    s.crashed = false → Exact s := by
  induction run with
  | start first =>
      cases first
      exact fun _ => ⟨rfl, rfl⟩
  | @next trace e run stepped ih =>
      intro sound
      obtain ⟨before, did⟩ := run_did run stepped
      obtain ⟨fine, right⟩ := met e (by simp)
      exact did_exact (did sound) fine right
        (ih (fun d member => met d (List.mem_append_left _ member)) before)

omit [DecidableEq Client] in
theorem mem_inputs {s : State Client} (sits : Sits s) (c : Client) :
    .client c ∈ s.server.inputs ↔ c ∈ s.server.outputs := by
  simp [sits.inputs]

theorem split_did {pre post : List (Step Client)} {e : Step Client}
    (run : machine.Run (pre ++ e :: post) s) (sound : s.crashed = false) :
    Did e.before e.action e.after ∧ Sits e.before ∧ Sits e.after ∧ e.before.crashed = false ∧
      e.after.crashed = false := by
  obtain ⟨earlier, stepped⟩ := run.split
  obtain ⟨before, did⟩ := run_did earlier stepped
  have after := (run_counts run sound).sound e (by simp)
  exact ⟨did after, run_sits earlier before, run_sits (earlier.next e stepped) after, before, after⟩

theorem mistake_removes {pre post : List (Step Client)} {e : Step Client}
    (run : machine.Run (pre ++ e :: post) s) (sound : s.crashed = false)
    (fine : ∀ d ∈ pre ++ e :: post, ¬ Slips d.before d.action) (mistakes : Mistakes e.action) :
    ∃ c, c ∈ e.before.server.outputs ∧ c ∉ e.after.server.outputs ∧ c ∈ e.after.live := by
  obtain ⟨did, sits, -, before, -⟩ := split_did run sound
  have live := (run_counts run.split.1 before).live fun d member =>
    fine d (List.mem_append_left _ member)
  have still := fine e (by simp)
  obtain ⟨s, action, sent, last⟩ := e
  obtain ⟨fails, rfl⟩ := mistakes
  dsimp only at did sits live still ⊢
  cases did with
  | aside _ readable running other => exact absurd rfl (other _ _)
  | forwarded sock data _ rest_ here nonempty works => exact absurd rfl nonempty
  | slipped sock _ _ rest_ left here member slips =>
      exact absurd ⟨sock, rest_, _, fails, here, rfl, slips⟩ still
  | hungUp sock _ _ rest_ here member blank =>
      exact ⟨sock, member, sits.nodup.not_mem_erase, live sock member⟩

def smooth (s : State Client) : Action Client → Bool
  | .receive .error _ => false
  | .receive (.returns (.text data)) fails => data != "" && !s.server.outputs.any fails
  | _ => true

omit [DecidableEq Client] in
theorem smooth_fine {s : State Client} {action : Action Client} (fine : smooth s action = true) :
    ¬ Slips s action ∧ ¬ Mistakes action := by
  constructor
  · rintro ⟨sock, rest_, received, fails, -, rfl, rfl | ⟨data, rfl, -, output, member, -, fail⟩⟩
    · cases fine
    · simp only [smooth, Bool.and_eq_true, Bool.not_eq_true', List.any_eq_false] at fine
      exact fine.2 output member fail
  · rintro ⟨fails, rfl⟩
    cases fine

def home : Address := ⟨"127.0.0.1", 50000⟩

def logins : List (Action Nat) :=
  [.select [.server], .accept 1 home (some "ann") fun _ => false,
    .select [.server], .accept 2 home (some "bob") fun _ => false]

abbrev numbered : Machine (State Nat) (Action Nat) (List (Nat × String)) := machine

end NetworkProgramming.ChatSelect
