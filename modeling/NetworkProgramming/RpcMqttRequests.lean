import NetworkProgramming.RpcMqtt

/-!
Where a message belongs and which future its answer is for, as long as a response is published only
while nobody but the one that has asked is subscribed to its topic.
-/

namespace NetworkProgramming.RpcMqtt

open Broker

variable {n m : Nat} {Name Func Data : Type*} [DecidableEq Name]

/-! The condition. -/

/-- The future that a response on the topic is for. -/
def State.request (s : State n m Name Func Data) (topic : Topic) (w : Participant n m)
    (key : Key Name) : Option Future :=
  match topic, w with
  | .registerRemoteMethodResponse, .service i => s.registerRemoteMethodRequests i key
  | .getRemoteMethodResponse, .client j => s.getRemoteMethodRequests j key
  | .callRemoteMethodResponse, .client j => s.callRemoteMethodRequests j key
  | _, _ => none

def askedAlone (s : State n m Name Func Data) (topic : Topic) (key : Key Name) : Bool :=
  (s.subscribers topic).all fun w => (s.request topic w key).isSome

/-- The response is published while nobody is subscribed that has not asked for it; it does not
arrive for a call that has been cancelled. -/
def meetsMessage (s : State n m Name Func Data) (w : Participant n m) (message : Message Name Data) :
    Bool :=
  match w, message with
  | .registrar, .registerRemoteMethod key _ => askedAlone s .registerRemoteMethodResponse key
  | .registrar, .getRemoteMethod key => askedAlone s .getRemoteMethodResponse key
  | .client j, .callRemoteMethodResponse key _ =>
      decide (s.callRemoteMethodRequests j key ≠ some .cancelled)
  | _, _ => true

/-- An instance of Exception is raised only, and no other exception is. -/
def Outcome.plain : Outcome Data → Bool
  | .returned (.exception _) | .exits => false
  | _ => true

def meetsAt (names : Names n m Name) (s : State n m Name Func Data) :
    Action n m Name Func Data → Bool
  | .call j _ _ =>
      (List.finRange n).all fun i =>
        !s.subscribed (.service i) .callRemoteMethod || decide (names.service i = names.client j)
  | .deliver p w => (next p w s.flights).all fun found => meetsMessage s w found.1
  | .finish i outcome =>
      (s.running i).all fun r => askedAlone s .callRemoteMethodResponse r.key && outcome.plain
  | _ => true

def meets (names : Names n m Name) (e : Step n m Name Func Data) : Bool :=
  meetsAt names e.before e.action

/-! What has happened. -/

def Registered (trace : List (Step n m Name Func Data)) (i : Fin n) (function : Name) (f : Func) :
    Prop :=
  ∃ e ∈ trace, e.output = .registers i function f

def Called (trace : List (Step n m Name Func Data)) (j : Fin m) (key : Key Name) (args : Data) :
    Prop :=
  ∃ e ∈ trace, e.output = .called j key args

def Ran (trace : List (Step n m Name Func Data)) (i : Fin n) (key : Key Name) (f : Func)
    (args : Data) (outcome : Outcome Data) : Prop :=
  ∃ e ∈ trace, e.output = .ran i key f args outcome

/-- The named function of the service that the client names has been run for this call, with its
arguments, and ended so. -/
def Answered (names : Names n m Name) (trace : List (Step n m Name Func Data)) (j : Fin m)
    (key : Key Name) (outcome : Outcome Data) : Prop :=
  ∃ i f args, names.service i = names.client j ∧ Registered trace i key.function f ∧
    Called trace j key args ∧ Ran trace i key f args outcome

def Known (names : Names n m Name) (s : State n m Name Func Data) (service function : Name) : Prop :=
  ∃ i, names.service i = service ∧ (s.remoteMethods i service function).isSome = true

/-- A message is under way to where it belongs. -/
def Fits (names : Names n m Name) (trace : List (Step n m Name Func Data))
    (s : State n m Name Func Data) (w : Participant n m) (message : Message Name Data) : Prop :=
  match w, message with
  | .registrar, .registerRemoteMethod key _ =>
      Known names s key.service key.function ∧
        ∃ u, s.request .registerRemoteMethodResponse u key = some .pending
  | .registrar, .getRemoteMethod key => ∃ u, s.request .getRemoteMethodResponse u key = some .pending
  | .service i, .callRemoteMethod key args =>
      names.service i = key.service ∧ Known names s key.service key.function ∧
        ∃ j, (s.request .callRemoteMethodResponse (.client j) key).isSome = true ∧
          Called trace j key args
  | .service i, .registerRemoteMethodResponse key _ =>
      s.request .registerRemoteMethodResponse (.service i) key = some .pending
  | .client j, .getRemoteMethodResponse key result =>
      s.request .getRemoteMethodResponse (.client j) key = some .pending ∧
        (result ≠ .exception .getRemoteMethod → Known names s key.service key.function)
  | .client j, .callRemoteMethodResponse key result =>
      (s.request .callRemoteMethodResponse (.client j) key).isSome = true ∧
        Answered names trace j key result.outcome
  | _, _ => False

structure Inv (names : Names n m Name) (trace : List (Step n m Name Func Data))
    (s : State n m Name Func Data) : Prop where
  alive : ∀ w, s.status w ≠ .ended
  apart : (s.flights.map fun f => f.message.key.uuid).Nodup
  fits : ∀ f ∈ s.flights, Fits names trace s f.subscriber f.message
  below : ∀ f ∈ s.flights, f.message.key.uuid < s.uuids
  asked : ∀ t w key, (s.request t w key).isSome = true → key.uuid < s.uuids
  owner : ∀ t w key u v k, (s.request t w key).isSome = true → (s.request u v k).isSome = true →
    key.uuid = k.uuid → t = u ∧ w = v ∧ key = k
  named : ∀ t j key, (s.request t (.client j) key).isSome = true → key.service = names.client j
  undone : ∀ w key, s.request .callRemoteMethodResponse w key ≠ some .done
  registrar : ∀ service function d, s.registrar service function = some d →
    Known names s service function
  methods : ∀ i service function f, s.remoteMethods i service function = some f →
    names.service i = service ∧ Registered trace i function f
  handles : ∀ j function, s.remoteMethod j function = true → Known names s (names.client j) function
  runs : ∀ i r, s.running i = some r →
    names.service i = r.key.service ∧ Registered trace i r.key.function r.remoteMethod ∧
      ∃ j, (s.request .callRemoteMethodResponse (.client j) r.key).isSome = true ∧
        Called trace j r.key r.args
  grounded : ∀ i r, s.running i = some r → ∀ f ∈ s.flights, f.message.key.uuid ≠ r.key.uuid
  single : ∀ i k r q, s.running i = some r → s.running k = some q → r.key.uuid = q.key.uuid → i = k
  answered : ∀ e ∈ trace, ∀ j key outcome, e.output = .completes j key outcome →
    Answered names trace j key outcome

/-! More has happened. -/

omit [DecidableEq Name] in
theorem Answered.longer {names : Names n m Name} {trace more : List (Step n m Name Func Data)}
    {j : Fin m} {key : Key Name} {outcome : Outcome Data} (grows : trace ⊆ more)
    (answered : Answered names trace j key outcome) : Answered names more j key outcome := by
  obtain ⟨i, f, args, name, ⟨d, first, registered⟩, ⟨e, second, called⟩, ⟨c, third, ran⟩⟩ := answered
  exact ⟨i, f, args, name, ⟨d, grows first, registered⟩, ⟨e, grows second, called⟩,
    ⟨c, grows third, ran⟩⟩

omit [DecidableEq Name] in
theorem Fits.frame {names : Names n m Name} {trace more : List (Step n m Name Func Data)}
    {s after : State n m Name Func Data} {w : Participant n m} {message : Message Name Data}
    (fits : Fits names trace s w message) (grows : trace ⊆ more)
    (known : ∀ service function, Known names s service function → Known names after service function)
    (same : ∀ t u, t ≠ .callRemoteMethodResponse →
      after.request t u message.key = s.request t u message.key)
    (some_ : ∀ u, (s.request .callRemoteMethodResponse u message.key).isSome = true →
      (after.request .callRemoteMethodResponse u message.key).isSome = true) :
    Fits names more after w message := by
  cases w with
  | registrar =>
      cases message with
      | registerRemoteMethod key d =>
          obtain ⟨here, u, pending⟩ := fits
          exact ⟨known _ _ here, u, (same _ u (by decide)).trans pending⟩
      | getRemoteMethod key =>
          obtain ⟨u, pending⟩ := fits
          exact ⟨u, (same _ u (by decide)).trans pending⟩
      | _ => exact fits.elim
  | service i =>
      cases message with
      | callRemoteMethod key args =>
          obtain ⟨name, here, j, asked, e, member, called⟩ := fits
          exact ⟨name, known _ _ here, j, some_ _ asked, e, grows member, called⟩
      | registerRemoteMethodResponse key result => exact (same _ _ (by decide)).trans fits
      | _ => exact fits.elim
  | client j =>
      cases message with
      | getRemoteMethodResponse key result =>
          exact ⟨(same _ _ (by decide)).trans fits.1, fun other => known _ _ (fits.2 other)⟩
      | callRemoteMethodResponse key result => exact ⟨some_ _ fits.1, fits.2.longer grows⟩
      | _ => exact fits.elim

omit [DecidableEq Name] in
theorem Inv.longer {names : Names n m Name} {trace : List (Step n m Name Func Data)}
    {s : State n m Name Func Data} (inv : Inv names trace s) (e : Step n m Name Func Data)
    (answered : ∀ j key outcome, e.output = .completes j key outcome →
      Answered names (trace ++ [e]) j key outcome) : Inv names (trace ++ [e]) s := by
  have grows : trace ⊆ trace ++ [e] := List.subset_append_left _ _
  exact {
    inv with
    fits := fun f member => (inv.fits f member).frame grows (fun _ _ here => here)
      (fun _ _ _ => rfl) (fun _ here => here)
    methods := fun i service function f found => by
      obtain ⟨name, d, member, registered⟩ := inv.methods i service function f found
      exact ⟨name, d, grows member, registered⟩
    runs := fun i r running => by
      obtain ⟨name, ⟨d, member, registered⟩, j, asked, c, also, called⟩ := inv.runs i r running
      exact ⟨name, ⟨d, grows member, registered⟩, j, asked, c, grows also, called⟩
    answered := fun d member j key outcome same => by
      rcases List.mem_append.mp member with old | new
      · exact (inv.answered d old j key outcome same).longer grows
      · rw [List.mem_singleton.mp new] at same
        exact answered j key outcome same }

/-! A message is published or taken. -/

omit [DecidableEq Name] in
theorem subscribers_apart (s : State n m Name Func Data) (topic : Topic) :
    (s.subscribers topic).Nodup := by
  refine List.Nodup.filter _ ?_
  have services : ((List.finRange n).map (Participant.service (m := m))).Nodup :=
    (List.nodup_finRange n).map fun a b same => by cases same; rfl
  have clients : ((List.finRange m).map (Participant.client (n := n))).Nodup :=
    (List.nodup_finRange m).map fun a b same => by cases same; rfl
  simp only [Participant.all, List.nodup_cons, List.nodup_append, List.mem_append, List.mem_map]
  refine ⟨?_, services, clients, ?_⟩
  · rintro (⟨i, _, same⟩ | ⟨j, _, same⟩) <;> cases same
  · rintro _ ⟨i, _, rfl⟩ _ ⟨j, _, rfl⟩ same
    cases same

omit [DecidableEq Name] in
theorem subscribers_topic {s : State n m Name Func Data} {topic : Topic} {w : Participant n m}
    (member : w ∈ s.subscribers topic) : topic ∈ w.topics := by
  have subscribed := (List.mem_filter.mp member).2
  simp only [State.subscribed, Bool.and_eq_true, decide_eq_true_eq] at subscribed
  exact subscribed.2

/-- No message is about the call with this uuid_, and no function runs for it. -/
structure Idle (s : State n m Name Func Data) (uuid : Nat) : Prop where
  below : uuid < s.uuids
  flights : ∀ f ∈ s.flights, f.message.key.uuid ≠ uuid
  running : ∀ i r, s.running i = some r → r.key.uuid ≠ uuid

omit [DecidableEq Name] in
theorem publish_inv {names : Names n m Name} {trace : List (Step n m Name Func Data)}
    {s : State n m Name Func Data} (inv : Inv names trace s) (p : Participant n m)
    (message : Message Name Data) (idle : Idle s message.key.uuid)
    (few : (s.subscribers message.topic).length ≤ 1)
    (fits : ∀ w ∈ s.subscribers message.topic, Fits names trace s w message) :
    Inv names trace (s.publish p message) :=
  { inv with
    apart := publish_nodup (fun m : Message Name Data => m.key.uuid) inv.apart idle.flights few
    fits := fun f member => by
      rcases mem_publish member with old | ⟨rfl, subscribed⟩
      · exact inv.fits f old
      · exact fits f.subscriber subscribed
    below := fun f member => by
      rcases mem_publish member with old | ⟨rfl, _⟩
      · exact inv.below f old
      · exact idle.below
    grounded := fun i r running f member => by
      rcases mem_publish member with old | ⟨rfl, _⟩
      · exact inv.grounded i r running f old
      · exact (idle.running i r running).symm }

omit [DecidableEq Name] in
theorem take_inv {names : Names n m Name} {trace : List (Step n m Name Func Data)}
    {s : State n m Name Func Data} (inv : Inv names trace s) {p w : Participant n m}
    {message : Message Name Data} {rest : List (Flight (Participant n m) (Message Name Data))}
    (found : next p w s.flights = some (message, rest)) :
    Inv names trace { s with flights := rest } ∧
      Fits names trace { s with flights := rest } w message ∧
      Idle { s with flights := rest } message.key.uuid := by
  have perm := next_perm found
  have here : ⟨p, w, message⟩ ∈ s.flights := perm.mem_iff.mpr List.mem_cons_self
  have left (f : Flight (Participant n m) (Message Name Data)) (member : f ∈ rest) : f ∈ s.flights :=
    perm.mem_iff.mpr (List.mem_cons_of_mem _ member)
  have apart := ((perm.map fun f => f.message.key.uuid).nodup_iff).mp inv.apart
  obtain ⟨new, others⟩ := List.nodup_cons.mp apart
  refine ⟨?_, inv.fits _ here, inv.below _ here, fun f member same => new ?_,
    fun i r running => (inv.grounded i r running _ here).symm⟩
  · exact { inv with
      apart := others
      fits := fun f member => inv.fits f (left f member)
      below := fun f member => inv.below f (left f member)
      grounded := fun i r running f member => inv.grounded i r running f (left f member) }
  · exact List.mem_map.mpr ⟨f, member, same⟩

omit [DecidableEq Name] in
theorem asked_few {names : Names n m Name} {trace : List (Step n m Name Func Data)}
    {s : State n m Name Func Data} (inv : Inv names trace s) {topic : Topic} {key : Key Name}
    (alone : askedAlone s topic key = true) :
    (s.subscribers topic).length ≤ 1 ∧
      ∀ w ∈ s.subscribers topic, (s.request topic w key).isSome = true := by
  have asked := List.all_eq_true.mp alone
  refine ⟨one_subscriber (subscribers_apart s topic) fun u first w second => ?_, asked⟩
  exact (inv.owner topic u key topic w key (asked u first) (asked w second) rfl).2.1

/-! A future is made, done or dropped. -/

def asks (topic : Topic) (w : Participant n m) : Bool :=
  match topic, w with
  | .registerRemoteMethodResponse, .service _ | .getRemoteMethodResponse, .client _
  | .callRemoteMethodResponse, .client _ => true
  | _, _ => false

def State.setRequest (s : State n m Name Func Data) (topic : Topic) (w : Participant n m)
    (key : Key Name) (fut : Option Future) : State n m Name Func Data :=
  match topic, w with
  | .registerRemoteMethodResponse, .service i =>
      { s with registerRemoteMethodRequests := put s.registerRemoteMethodRequests i key fut }
  | .getRemoteMethodResponse, .client j =>
      { s with getRemoteMethodRequests := put s.getRemoteMethodRequests j key fut }
  | .callRemoteMethodResponse, .client j =>
      { s with callRemoteMethodRequests := put s.callRemoteMethodRequests j key fut }
  | _, _ => s

theorem put_apply {A B C : Type*} [DecidableEq A] [DecidableEq B] (table : A → B → C) (a x : A)
    (b y : B) (c : C) : put table a b c x y = if x = a ∧ y = b then c else table x y := by
  by_cases here : x = a
  · subst here
    simp [put, Function.update_apply]
  · simp [put, here]

theorem request_set (s : State n m Name Func Data) {topic : Topic} {w : Participant n m}
    (made : asks topic w = true) (key : Key Name) (fut : Option Future) (t : Topic)
    (u : Participant n m) (k : Key Name) :
    (s.setRequest topic w key fut).request t u k =
      if t = topic ∧ u = w ∧ k = key then fut else s.request t u k := by
  cases topic <;> cases w <;> cases made <;> cases t <;> cases u <;>
    simp [State.setRequest, State.request, put_apply]

theorem setRequest_frame (s : State n m Name Func Data) (topic : Topic) (w : Participant n m)
    (key : Key Name) (fut : Option Future) :
    ∃ a b c, s.setRequest topic w key fut = { s with
      registerRemoteMethodRequests := a, getRemoteMethodRequests := b
      callRemoteMethodRequests := c } := by
  cases topic <;> cases w <;> exact ⟨_, _, _, rfl⟩

theorem request_earlier (s : State n m Name Func Data) {topic : Topic} {w : Participant n m}
    (made : asks topic w = true) (key : Key Name) (fut : Option Future) (t : Topic)
    (u : Participant n m) (k : Key Name) (differs : k.uuid ≠ key.uuid) :
    (s.setRequest topic w key fut).request t u k = s.request t u k := by
  rw [request_set s made, if_neg fun equal => differs (congrArg Key.uuid equal.2.2)]

theorem request_still (s : State n m Name Func Data) {topic : Topic} {w : Participant n m}
    (made : asks topic w = true) (key : Key Name) (fut : Option Future) (t : Topic)
    (u : Participant n m) (k : Key Name) (there : (s.request t u k).isSome = true)
    (safe : k.uuid ≠ key.uuid ∨ fut.isSome = true) :
    ((s.setRequest topic w key fut).request t u k).isSome = true := by
  rw [request_set s made]
  split
  · rename_i equal
    exact safe.resolve_left fun differs => differs (congrArg Key.uuid equal.2.2)
  · exact there

theorem request_before (s : State n m Name Func Data) {topic : Topic} {w : Participant n m}
    (made : asks topic w = true) (key : Key Name) (fut : Option Future) (t : Topic)
    (u : Participant n m) (k : Key Name)
    (there : ((s.setRequest topic w key fut).request t u k).isSome = true) :
    (t = topic ∧ u = w ∧ k = key) ∨ (s.request t u k).isSome = true := by
  rw [request_set s made] at there
  split at there
  · exact Or.inl ‹_›
  · exact Or.inr there

theorem setRequest_inv {names : Names n m Name} {trace : List (Step n m Name Func Data)}
    {s : State n m Name Func Data} (inv : Inv names trace s) {topic : Topic} {w : Participant n m}
    (made : asks topic w = true) (key : Key Name) (fut : Option Future) (below : key.uuid < s.uuids)
    (own : ∀ t u k, (s.request t u k).isSome = true → k.uuid = key.uuid →
      t = topic ∧ u = w ∧ k = key)
    (named : ∀ j, w = .client j → key.service = names.client j) (undone : fut ≠ some .done ∨
      topic ≠ .callRemoteMethodResponse)
    (kept : Idle s key.uuid ∨ topic = .callRemoteMethodResponse ∧ fut.isSome = true) :
    Inv names trace (s.setRequest topic w key fut) := by
  have request := request_set s made key fut
  have earlier := request_earlier s made key fut
  have still := request_still s made key fut
  have before := request_before s made key fut
  obtain ⟨a, b, c, same⟩ := setRequest_frame s topic w key fut
  rw [same] at request earlier still before ⊢
  exact {
    inv with
    fits := fun f member => by
      have fits := inv.fits f member
      rcases kept with idle | ⟨rfl, some_⟩
      · have differs := idle.flights f member
        exact fits.frame (fun _ here => here) (fun _ _ here => here)
          (fun t u _ => earlier t u _ differs) (fun u there => still _ u _ there (Or.inl differs))
      · refine fits.frame (fun _ here => here) (fun _ _ here => here) (fun t u other => ?_)
          (fun u there => still _ u _ there (Or.inr some_))
        rw [request, if_neg fun equal => other equal.1]
    asked := fun t u k there => by
      rcases before t u k there with ⟨-, -, rfl⟩ | old
      · exact below
      · exact inv.asked t u k old
    owner := fun t u k t' u' k' there also uuid => by
      rcases before t u k there with ⟨rfl, rfl, rfl⟩ | old
      · rcases before t' u' k' also with ⟨rfl, rfl, rfl⟩ | other
        · exact ⟨rfl, rfl, rfl⟩
        · obtain ⟨rfl, rfl, rfl⟩ := own t' u' k' other uuid.symm
          exact ⟨rfl, rfl, rfl⟩
      · rcases before t' u' k' also with ⟨rfl, rfl, rfl⟩ | other
        · exact own t u k old uuid
        · exact inv.owner t u k t' u' k' old other uuid
    named := fun t j k there => by
      rcases before t _ k there with ⟨-, rfl, rfl⟩ | old
      · exact named j rfl
      · exact inv.named t j k old
    undone := fun u k done => by
      rw [request] at done
      split at done
      · rename_i equal
        exact undone.elim (fun no => no done) fun no => no equal.1.symm
      · exact inv.undone u k done
    runs := fun i r running => by
      obtain ⟨name, registered, j, there, called⟩ := inv.runs i r running
      refine ⟨name, registered, j, still _ _ _ there ?_, called⟩
      rcases kept with idle | ⟨rfl, some_⟩
      · exact Or.inl (idle.running i r running)
      · exact Or.inr some_ }

theorem ask_inv {names : Names n m Name} {trace : List (Step n m Name Func Data)}
    {s : State n m Name Func Data} (inv : Inv names trace s) (topic : Topic) (w : Participant n m)
    (made : asks topic w = true) (service function : Name)
    (named : ∀ j, w = .client j → service = names.client j) :
    Inv names trace ({ s with uuids := s.uuids + 1 }.setRequest topic w ⟨service, function, s.uuids⟩
        (some .pending)) ∧
      Idle ({ s with uuids := s.uuids + 1 }.setRequest topic w ⟨service, function, s.uuids⟩
        (some .pending)) s.uuids ∧
      ({ s with uuids := s.uuids + 1 }.setRequest topic w ⟨service, function, s.uuids⟩
        (some .pending)).request topic w ⟨service, function, s.uuids⟩ = some .pending := by
  have more : Inv names trace { s with uuids := s.uuids + 1 } := { inv with
    below := fun f member => Nat.lt_succ_of_lt (inv.below f member)
    asked := fun t u k there => Nat.lt_succ_of_lt (inv.asked t u k there) }
  have idle : Idle { s with uuids := s.uuids + 1 } s.uuids := by
    refine ⟨Nat.lt_succ_self _, fun f member => (inv.below f member).ne, fun i r running => ?_⟩
    obtain ⟨_, _, j, there, _⟩ := inv.runs i r running
    exact (inv.asked _ _ _ there).ne
  refine ⟨setRequest_inv more made _ _ (Nat.lt_succ_self _) ?_ named (Or.inl (by simp))
    (Or.inl idle), ?_, ?_⟩
  · intro t u k there uuid
    exact absurd uuid (inv.asked t u k there).ne
  · obtain ⟨a, b, c, same⟩ := setRequest_frame { s with uuids := s.uuids + 1 } topic w
      ⟨service, function, s.uuids⟩ (some .pending)
    rw [same]
    exact ⟨idle.below, idle.flights, idle.running⟩
  · rw [request_set _ made, if_pos ⟨rfl, rfl, rfl⟩]

theorem settle_inv {names : Names n m Name} {trace : List (Step n m Name Func Data)}
    {s : State n m Name Func Data} (inv : Inv names trace s) (topic : Topic) (w : Participant n m)
    (made : asks topic w = true) {key : Key Name} (there : (s.request topic w key).isSome = true)
    (fut : Option Future) (undone : fut ≠ some .done ∨ topic ≠ .callRemoteMethodResponse)
    (kept : Idle s key.uuid ∨ topic = .callRemoteMethodResponse ∧ fut.isSome = true) :
    Inv names trace (s.setRequest topic w key fut) :=
  setRequest_inv inv made key fut (inv.asked _ _ _ there)
    (fun t u k other uuid => inv.owner t u k topic w key other there uuid)
    (fun j same => inv.named topic j key (same ▸ there)) undone kept

omit [DecidableEq Name] in
theorem fewer_inv {names : Names n m Name} {trace : List (Step n m Name Func Data)}
    {s : State n m Name Func Data} (inv : Inv names trace s) (status : Participant n m → Status)
    (running : Fin n → Option (Running Name Func Data)) (alive : ∀ w, status w ≠ .ended)
    (left : ∀ i r, running i = some r → s.running i = some r) :
    Inv names trace { s with status := status, running := running } :=
  { inv with
    alive := alive
    runs := fun i r here => inv.runs i r (left i r here)
    grounded := fun i r here => inv.grounded i r (left i r here)
    single := fun i k r q here there => inv.single i k r q (left i r here) (left k q there) }

theorem methods_inv {names : Names n m Name} {trace : List (Step n m Name Func Data)}
    {s : State n m Name Func Data} (inv : Inv names trace s) (i : Fin n) (function : Name) (f : Func)
    (registered : Registered trace i function f) :
    Inv names trace { s with
      remoteMethods := Function.update s.remoteMethods i
        (put (s.remoteMethods i) (names.service i) function (some f)) } := by
  have apply_ (k : Fin n) (service other : Name) :
      Function.update s.remoteMethods i (put (s.remoteMethods i) (names.service i) function (some f))
        k service other = if k = i ∧ service = names.service i ∧ other = function then some f
          else s.remoteMethods k service other := by
    by_cases here : k = i
    · subst here
      simp [put_apply]
    · simp [here]
  have known (service other : Name) (here : Known names s service other) :
      Known names { s with
        remoteMethods := Function.update s.remoteMethods i
          (put (s.remoteMethods i) (names.service i) function (some f)) } service other := by
    obtain ⟨k, name, found⟩ := here
    refine ⟨k, name, ?_⟩
    simp only [apply_]
    split
    · rfl
    · exact found
  exact { inv with
    fits := fun g member => (inv.fits g member).frame (fun _ here => here) known (fun _ _ _ => rfl)
      (fun _ here => here)
    registrar := fun service other d found => known _ _ (inv.registrar service other d found)
    handles := fun j other here => known _ _ (inv.handles j other here)
    methods := fun k service other g found => by
      simp only [apply_] at found
      split at found
      · rename_i equal
        obtain ⟨rfl, rfl, rfl⟩ := equal
        cases found
        exact ⟨rfl, registered⟩
      · exact inv.methods k service other g found }

end NetworkProgramming.RpcMqtt
