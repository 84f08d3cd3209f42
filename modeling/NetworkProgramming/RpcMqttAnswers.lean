import NetworkProgramming.RpcMqttRequests

/-!
What is published on a topic is read by all who are subscribed to it. As long as each response goes
only to the participant that has asked and each call only to the service that it names, every call
is answered by its function and no start loop ends.
-/

namespace NetworkProgramming.RpcMqtt

open Broker

variable {n m : Nat} {Name Func Data : Type*} [DecidableEq Name]

/-! What the handlers do. -/

omit [DecidableEq Name] in
theorem respond_inv {names : Names n m Name} {trace : List (Step n m Name Func Data)}
    {s : State n m Name Func Data} (inv : Inv names trace s) (p : Participant n m)
    (message : Message Name Data) (idle : Idle s message.key.uuid)
    (alone : askedAlone s message.topic message.key = true)
    (fits : ∀ w, message.topic ∈ w.topics → (s.request message.topic w message.key).isSome = true →
      Fits names trace s w message) : Inv names trace (s.publish p message) := by
  obtain ⟨few, asked⟩ := asked_few inv alone
  exact publish_inv inv p message idle few fun w member =>
    fits w (subscribers_topic member) (asked w member)

theorem onRegisterRemoteMethod_inv {names : Names n m Name} {trace : List (Step n m Name Func Data)}
    {s : State n m Name Func Data} (inv : Inv names trace s) {key : Key Name} {signature : Data}
    (fits : Fits names trace s .registrar (.registerRemoteMethod key signature))
    (idle : Idle s key.uuid) (alone : askedAlone s .registerRemoteMethodResponse key = true) :
    Inv names trace (s.onRegisterRemoteMethod key signature) := by
  obtain ⟨known, u, pending⟩ := fits
  have kept : Inv names trace { s with
      registrar := put s.registrar key.service key.function (some signature) } := { inv with
    registrar := fun service function d found => by
      simp only [put_apply] at found
      split at found
      · rename_i equal
        obtain ⟨rfl, rfl⟩ := equal
        exact known
      · exact inv.registrar service function d found }
  refine respond_inv kept _ _ ⟨idle.below, idle.flights, idle.running⟩ alone ?_
  intro w topic asked
  have same := (inv.owner _ u key _ w key (by rw [pending]; rfl) asked rfl).2.1
  subst same
  cases u with
  | service i => exact pending
  | registrar => cases pending
  | client j => cases pending

omit [DecidableEq Name] in
theorem onGetRemoteMethod_inv {names : Names n m Name} {trace : List (Step n m Name Func Data)}
    {s : State n m Name Func Data} (inv : Inv names trace s) {key : Key Name}
    (fits : Fits names trace s .registrar (.getRemoteMethod key)) (idle : Idle s key.uuid)
    (alone : askedAlone s .getRemoteMethodResponse key = true) :
    Inv names trace (s.onGetRemoteMethod key) := by
  obtain ⟨u, pending⟩ := fits
  have respond (result : Obj Data) (known : result ≠ .exception .getRemoteMethod →
      Known names s key.service key.function) :
      Inv names trace (s.publish .registrar (.getRemoteMethodResponse key result)) := by
    refine respond_inv inv _ _ idle alone ?_
    intro w topic asked
    have same := (inv.owner _ u key _ w key (by rw [pending]; rfl) asked rfl).2.1
    subst same
    cases u with
    | client j => exact ⟨pending, known⟩
    | registrar => cases pending
    | service i => cases pending
  simp only [State.onGetRemoteMethod]
  split
  · rename_i signature found
    exact respond _ fun _ => inv.registrar _ _ signature found
  · exact respond _ fun no => absurd rfl no

theorem onRegisterRemoteMethodResponse_inv {names : Names n m Name}
    {trace : List (Step n m Name Func Data)} {s : State n m Name Func Data}
    (inv : Inv names trace s) {i : Fin n} {key : Key Name} {result : Obj Data}
    (fits : Fits names trace s (.service i) (.registerRemoteMethodResponse key result))
    (idle : Idle s key.uuid) :
    ∃ after, s.onRegisterRemoteMethodResponse i key result = State.returns after ∧
      Inv names trace after := by
  have pending : s.registerRemoteMethodRequests i key = some .pending := fits
  refine ⟨_, by simp only [State.onRegisterRemoteMethodResponse, setFutureResult, pending]; rfl, ?_⟩
  exact settle_inv inv .registerRemoteMethodResponse (.service i) rfl
    (by rw [State.request, pending]; rfl) (some .done) (Or.inr (by simp)) (Or.inl idle)

omit [DecidableEq Name] in
theorem onCallRemoteMethod_inv {names : Names n m Name} {trace : List (Step n m Name Func Data)}
    {s : State n m Name Func Data} (inv : Inv names trace s) {i : Fin n} {key : Key Name} {args : Data}
    (fits : Fits names trace s (.service i) (.callRemoteMethod key args)) (idle : Idle s key.uuid) :
    Inv names trace (s.onCallRemoteMethod i key args) := by
  obtain ⟨name, ⟨k, same, found⟩, asked⟩ := fits
  have equal : k = i := names.distinct (same.trans name.symm)
  subst equal
  obtain ⟨f, method⟩ := Option.isSome_iff_exists.mp found
  simp only [State.onCallRemoteMethod, method]
  -- another function that runs has a uuid_ of its own
  have new (l : Fin n) (r : Running Name Func Data)
      (running : Function.update s.running k (some ⟨key, args, f⟩) l = some r) :
      (l = k ∧ r = ⟨key, args, f⟩) ∨ s.running l = some r := by
    rw [Function.update_apply] at running
    split at running
    · exact Or.inl ⟨‹_›, (Option.some.inj running).symm⟩
    · exact Or.inr running
  exact { inv with
    runs := fun l r running => by
      rcases new l r running with ⟨rfl, rfl⟩ | old
      · exact ⟨name, (inv.methods _ _ _ _ method).2, asked⟩
      · exact inv.runs l r old
    grounded := fun l r running f member => by
      rcases new l r running with ⟨rfl, rfl⟩ | old
      · exact idle.flights f member
      · exact inv.grounded l r old f member
    single := fun l h r q here there uuid => by
      rcases new l r here with ⟨rfl, rfl⟩ | old
      · rcases new h q there with ⟨rfl, rfl⟩ | other
        · rfl
        · exact absurd uuid.symm (idle.running h q other)
      · rcases new h q there with ⟨rfl, rfl⟩ | other
        · exact absurd uuid (idle.running l r old)
        · exact inv.single l h r q old other uuid }

theorem onGetRemoteMethodResponse_inv {names : Names n m Name}
    {trace : List (Step n m Name Func Data)} {s : State n m Name Func Data}
    (inv : Inv names trace s) {j : Fin m} {key : Key Name} {result : Obj Data}
    (fits : Fits names trace s (.client j) (.getRemoteMethodResponse key result))
    (idle : Idle s key.uuid) :
    ∃ after, s.onGetRemoteMethodResponse j key result = State.returns after ∧
      Inv names trace after := by
  obtain ⟨pending, known⟩ := fits
  have service := inv.named _ j key (by rw [pending]; rfl)
  have popped := settle_inv inv .getRemoteMethodResponse (.client j) rfl
    (by rw [pending]; rfl) none (Or.inl (by simp)) (Or.inl idle)
  replace pending : s.getRemoteMethodRequests j key = some .pending := pending
  simp only [State.onGetRemoteMethodResponse, setFutureResult, pending]
  cases result with
  | exception e => exact ⟨_, rfl, popped⟩
  | _ =>
      refine ⟨_, rfl, { popped with handles := fun k function here => ?_ }⟩
      simp only [put_apply] at here
      split at here
      · rename_i equal
        obtain ⟨rfl, rfl⟩ := equal
        exact service ▸ known (by simp)
      · exact inv.handles k function here

theorem onCallRemoteMethodResponse_inv {names : Names n m Name}
    {trace : List (Step n m Name Func Data)} {s : State n m Name Func Data}
    (inv : Inv names trace s) {j : Fin m} {key : Key Name} {result : Obj Data}
    (fits : Fits names trace s (.client j) (.callRemoteMethodResponse key result))
    (idle : Idle s key.uuid) (met : s.callRemoteMethodRequests j key ≠ some .cancelled) :
    ∃ after, s.onCallRemoteMethodResponse j key result =
        ⟨after, .completes j key result.outcome, none⟩ ∧ Inv names trace after := by
  have undone := inv.undone (.client j) key
  have pending : s.callRemoteMethodRequests j key = some .pending := by
    obtain ⟨fut, found⟩ := Option.isSome_iff_exists.mp fits.1
    simp only [State.request] at found undone
    cases fut with
    | pending => exact found
    | cancelled => exact absurd found met
    | done => exact absurd found undone
  refine ⟨_, by simp only [State.onCallRemoteMethodResponse, setFutureResult, pending]; rfl, ?_⟩
  exact settle_inv inv .callRemoteMethodResponse (.client j) rfl fits.1 none
    (Or.inl (by simp)) (Or.inl idle)

theorem start_inv {names : Names n m Name} {trace : List (Step n m Name Func Data)}
    {s : State n m Name Func Data} (inv : Inv names trace s) {w : Participant n m}
    {message : Message Name Data} (fits : Fits names trace s w message)
    (idle : Idle s message.key.uuid) (met : meetsMessage s w message = true) :
    Inv names trace (s.start w message).1 ∧ ∀ j key outcome,
      (s.start w message).2 = .completes j key outcome → Answered names trace j key outcome := by
  cases w with
  | registrar =>
      cases message with
      | registerRemoteMethod key signature =>
          exact ⟨onRegisterRemoteMethod_inv inv fits idle met, fun _ _ _ no => by cases no⟩
      | getRemoteMethod key =>
          exact ⟨onGetRemoteMethod_inv inv fits idle met, fun _ _ _ no => by cases no⟩
      | _ => exact fits.elim
  | service i =>
      cases message with
      | registerRemoteMethodResponse key result =>
          obtain ⟨after, handled, kept⟩ := onRegisterRemoteMethodResponse_inv inv fits idle
          simp only [State.start, State.handle, handled]
          exact ⟨kept, fun _ _ _ no => by cases no⟩
      | callRemoteMethod key args =>
          exact ⟨onCallRemoteMethod_inv inv fits idle, fun _ _ _ no => by cases no⟩
      | _ => exact fits.elim
  | client j =>
      cases message with
      | getRemoteMethodResponse key result =>
          obtain ⟨after, handled, kept⟩ := onGetRemoteMethodResponse_inv inv fits idle
          simp only [State.start, State.handle, handled]
          exact ⟨kept, fun _ _ _ no => by cases no⟩
      | callRemoteMethodResponse key result =>
          obtain ⟨after, handled, kept⟩ :=
            onCallRemoteMethodResponse_inv inv fits idle (of_decide_eq_true met)
          simp only [State.start, State.handle, handled]
          refine ⟨kept, fun k other outcome same => ?_⟩
          cases same
          exact fits.2
      | _ => exact fits.elim

/-! The steps. -/

omit [DecidableEq Name] in
theorem toRegistrar_inv {names : Names n m Name} {trace : List (Step n m Name Func Data)}
    {s : State n m Name Func Data} (inv : Inv names trace s) (p : Participant n m)
    (message : Message Name Data) (idle : Idle s message.key.uuid)
    (topic : message.topic = .registerRemoteMethod ∨ message.topic = .getRemoteMethod)
    (fits : Fits names trace s .registrar message) : Inv names trace (s.publish p message) := by
  have only (w : Participant n m) (member : w ∈ s.subscribers message.topic) : w = .registrar := by
    have listens := subscribers_topic member
    cases w with
    | registrar => rfl
    | service i => rcases topic with same | same <;> simp [same, Participant.topics] at listens
    | client j => rcases topic with same | same <;> simp [same, Participant.topics] at listens
  refine publish_inv inv p message idle (one_subscriber (subscribers_apart s _) ?_) ?_
  · intro u first w second
    rw [only u first, only w second]
  · intro w member
    rw [only w member]
    exact fits

theorem registerFunction_inv {names : Names n m Name} {trace : List (Step n m Name Func Data)}
    {s : State n m Name Func Data} (inv : Inv names trace s) {i : Fin n} {function : Name} {f : Func}
    {signature : Data} {after : State n m Name Func Data} {event : Event n m Name Func Data}
    (stepped : step names s (.registerFunction i function f signature) = some (after, event))
    (registered : Registered trace i function f) : Inv names trace after := by
  obtain ⟨asked, idle, pending⟩ := ask_inv inv .registerRemoteMethodResponse (.service i) rfl
    (names.service i) function (by simp)
  have known := methods_inv asked i function f registered
  simp only [step, Option.some.injEq, Prod.mk.injEq] at stepped
  obtain ⟨rfl, -⟩ := stepped
  refine toRegistrar_inv known _ _ ⟨idle.below, idle.flights, idle.running⟩ (Or.inl rfl) ?_
  refine ⟨⟨i, rfl, ?_⟩, .service i, pending⟩
  simp [put_apply]

theorem getRemoteMethod_inv {names : Names n m Name} {trace : List (Step n m Name Func Data)}
    {s : State n m Name Func Data} (inv : Inv names trace s) {j : Fin m} {function : Name}
    {after : State n m Name Func Data} {event : Event n m Name Func Data}
    (stepped : step names s (.getRemoteMethod j function) = some (after, event)) :
    Inv names trace after := by
  obtain ⟨asked, idle, pending⟩ := ask_inv inv .getRemoteMethodResponse (.client j) rfl
    (names.client j) function (by simp)
  simp only [step, Option.some.injEq, Prod.mk.injEq] at stepped
  obtain ⟨rfl, -⟩ := stepped
  exact toRegistrar_inv asked _ _ idle (Or.inr rfl) ⟨.client j, pending⟩

theorem call_inv {names : Names n m Name} {trace : List (Step n m Name Func Data)}
    {s : State n m Name Func Data} (inv : Inv names trace s) {j : Fin m} {function : Name}
    {args : Data} {after : State n m Name Func Data} {event : Event n m Name Func Data}
    (stepped : step names s (.call j function args) = some (after, event))
    (called : ∀ key, event = .called j key args → Called trace j key args)
    (met : meetsAt names s (.call j function args) = true) : Inv names trace after := by
  simp only [step] at stepped
  split at stepped
  · rename_i handle
    obtain ⟨asked, idle, pending⟩ := ask_inv inv .callRemoteMethodResponse (.client j) rfl
      (names.client j) function (by simp)
    have known := inv.handles j function handle
    simp only [Option.some.injEq, Prod.mk.injEq] at stepped
    obtain ⟨rfl, rfl⟩ := stepped
    -- whoever is subscribed to the topic is the service that the client names
    have only (w : Participant n m)
        (member : w ∈ s.subscribers .callRemoteMethod) :
        ∃ i, w = .service i ∧ names.service i = names.client j := by
      have listens := subscribers_topic member
      cases w with
      | service i =>
          have here := List.all_eq_true.mp met i (List.mem_finRange i)
          have subscribed := (List.mem_filter.mp member).2
          simp only [subscribed, Bool.not_true, Bool.false_or, decide_eq_true_eq] at here
          exact ⟨i, rfl, here⟩
      | registrar => simp [Participant.topics] at listens
      | client k => simp [Participant.topics] at listens
    refine publish_inv asked _ _ idle (one_subscriber (subscribers_apart s _) ?_) ?_
    · intro u first w second
      obtain ⟨i, rfl, name⟩ := only u first
      obtain ⟨k, rfl, same⟩ := only w second
      rw [names.distinct (name.trans same.symm)]
    · intro w member
      obtain ⟨i, rfl, name⟩ := only w member
      exact ⟨name, known, j, by rw [pending]; rfl, called _ rfl⟩
  · cases stepped

theorem cancel_inv {names : Names n m Name} {trace : List (Step n m Name Func Data)}
    {s : State n m Name Func Data} (inv : Inv names trace s) {j : Fin m} {key : Key Name}
    {after : State n m Name Func Data} {event : Event n m Name Func Data}
    (stepped : step names s (.cancel j key) = some (after, event)) : Inv names trace after := by
  simp only [step] at stepped
  split at stepped
  · rename_i pending
    simp only [Option.some.injEq, Prod.mk.injEq] at stepped
    obtain ⟨rfl, -⟩ := stepped
    exact settle_inv inv .callRemoteMethodResponse (.client j) rfl
      (by rw [State.request, pending]; rfl) (some .cancelled) (Or.inl (by simp)) (Or.inr ⟨rfl, rfl⟩)
  · cases stepped

theorem finish_inv {names : Names n m Name} {trace : List (Step n m Name Func Data)}
    {s : State n m Name Func Data} (inv : Inv names trace s) {i : Fin n} {outcome : Outcome Data}
    {after : State n m Name Func Data} {event : Event n m Name Func Data}
    (stepped : s.finish i outcome = some (after, event))
    (ran : ∀ key f args, event = .ran i key f args outcome → Ran trace i key f args outcome)
    (met : meetsAt names s (.finish i outcome) = true) : Inv names trace after := by
  obtain ⟨r, running, same⟩ := Option.map_eq_some_iff.mp stepped
  simp only [Prod.mk.injEq] at same
  obtain ⟨rfl, rfl⟩ := same
  simp only [meetsAt, running, Option.all_some, Bool.and_eq_true] at met
  obtain ⟨name, registered, j, asked, called⟩ := inv.runs i r running
  have others (k : Fin n) (q : Running Name Func Data)
      (here : Function.update s.running i none k = some q) : k ≠ i ∧ s.running k = some q := by
    rw [Function.update_apply] at here
    split at here
    · cases here
    · exact ⟨‹_›, here⟩
  have ended := fewer_inv inv s.status (Function.update s.running i none) inv.alive
    fun k q here => (others k q here).2
  have idle : Idle { s with running := Function.update s.running i none } r.key.uuid := by
    refine ⟨inv.asked _ _ _ asked, inv.grounded i r running, fun k q here uuid => ?_⟩
    obtain ⟨differs, there⟩ := others k q here
    exact differs (inv.single k i q r there running uuid)
  have respond (result : Obj Data) (same : result.outcome = outcome) :
      Inv names trace (State.publish { s with running := Function.update s.running i none }
        (.service i) (.callRemoteMethodResponse r.key result)) := by
    refine respond_inv ended _ _ idle met.1 fun w topic there => ?_
    have same_ := (inv.owner _ _ _ _ w _ asked there rfl).2.1
    subst same_
    exact ⟨there, i, r.remoteMethod, r.args, name.trans (inv.named _ j r.key asked), registered,
      called, same ▸ ran _ _ _ rfl⟩
  cases outcome with
  | returned o =>
      cases o with
      | exception e => cases met.2
      | _ => exact respond _ rfl
  | raised e => exact respond _ rfl
  | exits => cases met.2

theorem deliver_inv {names : Names n m Name} {trace : List (Step n m Name Func Data)}
    {s : State n m Name Func Data} (inv : Inv names trace s) {p w : Participant n m}
    {after : State n m Name Func Data} {event : Event n m Name Func Data}
    (stepped : s.deliver p w = some (after, event))
    (met : meetsAt names s (.deliver p w) = true) :
    Inv names trace after ∧ ∀ j key outcome, event = .completes j key outcome →
      Answered names trace j key outcome := by
  simp only [State.deliver] at stepped
  split at stepped
  · split at stepped
    · cases stepped
    · rename_i message rest found
      obtain ⟨taken, fits, idle⟩ := take_inv inv found
      simp only [meetsAt, found, Option.all_some] at met
      have started := start_inv taken fits idle met
      simp only [Option.some.injEq] at stepped
      rwa [stepped] at started
  · cases stepped

theorem step_inv {names : Names n m Name} {trace : List (Step n m Name Func Data)}
    {e : Step n m Name Func Data} (inv : Inv names trace e.before)
    (stepped : (machine Func Data names).Stepped e) (met : meets names e = true) :
    Inv names (trace ++ [e]) e.after := by
  obtain ⟨s, action, event, after⟩ := e
  have last {e : Step n m Name Func Data} : e ∈ trace ++ [e] := by simp
  replace stepped : step names s action = some (after, event) := stepped
  replace met : meetsAt names s action = true := met
  -- but for a delivery, no call completes, and the step is one more of the past
  have longer (quiet : ∀ j key outcome, event ≠ .completes j key outcome) :
      Inv names (trace ++ [⟨s, action, event, after⟩]) s :=
    inv.longer _ fun j key outcome same => absurd same (quiet j key outcome)
  cases action with
  | join w =>
      simp only [step] at stepped
      split at stepped
      · cases stepped
        refine fewer_inv (longer (by simp)) _ s.running (fun u => ?_) (fun _ _ here => here)
        rw [Function.update_apply]
        split
        · simp
        · exact inv.alive u
      · cases stepped
  | leave w =>
      simp only [step] at stepped
      split at stepped
      · cases stepped
        refine fewer_inv (longer (by simp)) _ _ (fun u => ?_) (fun i r running => ?_)
        · rw [Function.update_apply]
          split
          · simp
          · exact inv.alive u
        · cases w with
          | service k =>
              simp only [Function.update_apply] at running
              split at running
              · cases running
              · exact running
          | _ => exact running
      · cases stepped
  | registerFunction i function f signature =>
      have quiet : event = .registers i function f := by cases stepped; rfl
      exact registerFunction_inv (longer (by simp [quiet])) stepped ⟨_, last, quiet⟩
  | getRemoteMethod j function =>
      have quiet : event = .quiet := by cases stepped; rfl
      exact getRemoteMethod_inv (longer (by simp [quiet])) stepped
  | call j function args =>
      have quiet : ∃ key, event = .called j key args := by
        simp only [step] at stepped
        split at stepped
        · cases stepped
          exact ⟨_, rfl⟩
        · cases stepped
      refine call_inv (longer ?_) stepped (fun key same => ⟨_, last, same⟩) met
      obtain ⟨key, rfl⟩ := quiet
      simp
  | cancel j key =>
      have quiet : event = .quiet := by
        simp only [step] at stepped
        split at stepped
        · cases stepped
          rfl
        · cases stepped
      exact cancel_inv (longer (by simp [quiet])) stepped
  | deliver p w =>
      obtain ⟨kept, completes⟩ := deliver_inv inv stepped met
      exact kept.longer _ fun j key outcome same =>
        (completes j key outcome same).longer (List.subset_append_left _ _)
  | finish i outcome =>
      have quiet : ∃ key f args, event = .ran i key f args outcome := by
        obtain ⟨r, running, same⟩ := Option.map_eq_some_iff.mp stepped
        cases same
        exact ⟨_, _, _, rfl⟩
      refine finish_inv (longer ?_) stepped (fun key f args same => ⟨_, last, same⟩) met
      obtain ⟨key, f, args, rfl⟩ := quiet
      simp

/-! The runs. -/

omit [DecidableEq Name] in
theorem begun_inv (names : Names n m Name) :
    Inv names [] (begun : State n m Name Func Data) where
  alive _ := by simp [begun]
  apart := List.nodup_nil
  fits f member := by cases member
  below f member := by cases member
  asked t w key there := by cases t <;> cases w <;> cases there
  owner t w key u v k there := by cases t <;> cases w <;> cases there
  named t j key there := by cases t <;> cases there
  undone w key there := by cases w <;> cases there
  registrar service function d there := by cases there
  methods i service function f there := by cases there
  handles j function there := by cases there
  runs i r there := by cases there
  grounded i r there := by cases there
  single i k r q there := by cases there
  answered e member := by cases member

theorem calls_answered (names : Names n m Name) (trace : List (Step n m Name Func Data))
    (s : State n m Name Func Data) (run : (machine Func Data names).Run trace s)
    (met : ∀ e ∈ trace, meets names e = true) :
    (∀ w, s.status w ≠ .ended) ∧ ∀ e ∈ trace, ∀ j key outcome,
      e.output = .completes j key outcome → Answered names trace j key outcome := by
  have inv : Inv names trace s := by
    refine run.history (C := fun e => meets names e = true) (I := Inv names) ?_ ?_ met
    · rintro s rfl
      exact begun_inv names
    · exact fun trace e stepped met inv => step_inv inv stepped met
  exact ⟨inv.alive, inv.answered⟩

/-! One service and one client; and two of each, whose clients both name service 0. -/

def oneOfEach : Names 1 1 Nat := ⟨fun _ => 7, fun _ _ _ => Subsingleton.elim _ _, fun _ => 7⟩

theorem call_returns : ∃ (trace : List (Step 1 1 Nat Nat Nat)) (s : State 1 1 Nat Nat Nat),
    (machine Nat Nat oneOfEach).Run trace s ∧
      (∃ e ∈ trace, e.output = .completes 0 ⟨7, 5, 2⟩ (.returned (.data 8))) ∧
      (∀ w, s.status w ≠ .ended) ∧ ∀ e ∈ trace, ∀ j key outcome,
        e.output = .completes j key outcome → Answered oneOfEach trace j key outcome := by
  obtain ⟨trace, s, run, ends⟩ := Machine.run_of_check (M := machine Nat Nat oneOfEach) rfl
    [.join .registrar, .join (.service 0), .join (.client 0), .registerFunction 0 5 9 3,
      .deliver (.service 0) .registrar, .deliver .registrar (.service 0), .getRemoteMethod 0 5,
      .deliver (.client 0) .registrar, .deliver .registrar (.client 0), .call 0 5 4,
      .deliver (.client 0) (.service 0), .finish 0 (.returned (.data 8)),
      .deliver (.service 0) (.client 0)]
    (fun r => decide ((∃ e ∈ r.1, e.output = .completes 0 ⟨7, 5, 2⟩ (.returned (.data 8))) ∧
      ∀ e ∈ r.1, meets oneOfEach e = true)) (by decide +kernel)
  obtain ⟨returned, met⟩ := of_decide_eq_true ends
  exact ⟨trace, s, run, returned, calls_answered oneOfEach trace s run met⟩

def twoOfEach : Names 2 2 Nat := ⟨fun i => i.val, fun _ _ same => Fin.ext same, fun _ => 0⟩

theorem wrong_service_answers :
    ∃ (trace : List (Step 2 2 Nat Nat Nat)) (s : State 2 2 Nat Nat Nat),
      (machine Nat Nat twoOfEach).Run trace s ∧
        (∃ e ∈ trace, e.output = .completes 0 ⟨0, 5, 2⟩ (.raised .callRemoteMethod)) ∧
        ¬ Answered twoOfEach trace 0 ⟨0, 5, 2⟩ (.raised .callRemoteMethod) ∧
        s.status (.client 1) = .ended := by
  obtain ⟨trace, s, run, ends⟩ := Machine.run_of_check (M := machine Nat Nat twoOfEach) rfl
    [.join .registrar, .join (.service 0), .join (.client 0), .registerFunction 0 5 9 3,
      .deliver (.service 0) .registrar, .deliver .registrar (.service 0), .getRemoteMethod 0 5,
      .deliver (.client 0) .registrar, .deliver .registrar (.client 0), .join (.service 1),
      .join (.client 1), .call 0 5 4, .deliver (.client 0) (.service 1),
      .deliver (.service 1) (.client 0), .deliver (.service 1) (.client 1)]
    (fun r => decide (r.1.map (fun e => e.output) = [.quiet, .quiet, .quiet, .registers 0 5 9, .quiet,
      .quiet, .quiet, .quiet, .quiet, .quiet, .quiet, .called 0 ⟨0, 5, 2⟩ 4, .quiet,
      .completes 0 ⟨0, 5, 2⟩ (.raised .callRemoteMethod), .quiet] ∧
      r.2.status (.client 1) = .ended)) (by decide +kernel)
  obtain ⟨outputs, ended⟩ := of_decide_eq_true ends
  refine ⟨trace, s, run, ?_, ?_, ended⟩
  · have completes : Event.completes 0 ⟨0, 5, 2⟩ (.raised .callRemoteMethod) ∈
        trace.map fun e => e.output := by rw [outputs]; simp
    obtain ⟨e, member, same⟩ := List.mem_map.mp completes
    exact ⟨e, member, same⟩
  · rintro ⟨i, f, args, -, -, -, e, member, ran⟩
    have output : e.output ∈ trace.map fun e => e.output := List.mem_map_of_mem member
    rw [outputs, ran] at output
    simp at output

end NetworkProgramming.RpcMqtt
