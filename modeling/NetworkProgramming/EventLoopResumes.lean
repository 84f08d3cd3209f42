import Mathlib.Data.List.Nodup
import NetworkProgramming.EventLoopMoves

/-!
When the loop sleeps no coroutine could go on, as long as each future that is finished finds the
task that awaits it behind its callback, or main about to look at it. What an await gives is the
result of the future, once.
-/

namespace NetworkProgramming.EventLoop

variable {Node Sock Data : Type*} [DecidableEq Sock]

/-! The condition. -/

/-- set_result finds a coroutine behind the callback that awaits the future, and every task that
does; while main awaits it the call is for an event of the selector. When run looks at
current_result and main's future is finished, it does not find a future without a result. -/
def timely (s : State Node Sock Data) : Bool :=
  match s.activity with
  | .setResult f _ =>
      (s.future f).doneCallback.all (fun who => decide (s.awaits who = some f)) &&
        (List.range s.tasks).all (fun t => decide (s.awaits (.task t) = some f →
          (s.future f).doneCallback = some (.task t))) &&
        (decide (s.awaits .main ≠ some f) ||
          match s.phase with
          | .events _ => true
          | _ => false)
  | .run =>
      match s.phase, s.currentResult with
      | .loop, .future g => !((s.awaits .main).any s.isFinished) || !(s.result g).isNone
      | _, _ => true
  | _ => true

structure Met (s : State Node Sock Data) : Prop where
  callback : ∀ f v, s.activity = .setResult f v → ∀ who, (s.future f).doneCallback = some who →
    s.awaits who = some f
  task : ∀ f v, s.activity = .setResult f v → ∀ t, s.awaits (.task t) = some f →
    (s.future f).doneCallback = some (.task t)
  main : ∀ f v, s.activity = .setResult f v → s.awaits .main = some f →
    ∃ rest, s.phase = .events rest
  look : s.activity = .run → s.phase = .loop → ∀ f g, s.awaits .main = some f →
    s.isFinished f = true → s.currentResult = .future g → s.result g ≠ .none

omit [DecidableEq Sock] in
theorem timely_met {s : State Node Sock Data} (inv : Inv s) (met : timely s = true) : Met s := by
  have set (f : FutureId) (v : Value Data) (here : s.activity = .setResult f v) :
      ((s.future f).doneCallback.all (fun who => decide (s.awaits who = some f)) = true ∧
        ∀ t, t < s.tasks → s.awaits (.task t) = some f →
          (s.future f).doneCallback = some (.task t)) ∧
      (s.awaits .main = some f → ∃ rest, s.phase = .events rest) := by
    simp only [timely, here, Bool.and_eq_true, List.all_eq_true, List.mem_range,
      decide_eq_true_eq, Bool.or_eq_true] at met
    refine ⟨met.1, fun awaits => ?_⟩
    have events := met.2.resolve_left (not_not_intro awaits)
    split at events
    · rename_i rest phase
      exact ⟨rest, phase⟩
    · cases events
  constructor
  · intro f v here who some_
    have all := (set f v here).1.1
    rw [some_] at all
    exact of_decide_eq_true all
  · intro f v here t awaits
    refine (set f v here).1.2 t ?_ awaits
    by_contra late
    rw [State.awaits, inv.unborn t (by omega)] at awaits
    cases awaits
  · exact fun f v here => (set f v here).2
  · intro here phase f g awaits finished current none_
    simp [timely, here, phase, current, awaits, finished, none_, Value.isNone] at met

/-! What is owed and what is given. -/

def Event.gives (s : State Node Sock Data) (who : Who) : Event Data → List (Value Data)
  | .completes f v => if s.awaits who = some f then [v] else []
  | _ => []

def Event.takes (who : Who) : Event Data → List (Value Data)
  | .resumes w v => if w = who then [v] else []
  | _ => []

/-- What a step gives to the coroutines is what they get or still have to get. -/
def Pays (s : State Node Sock Data) (event : Event Data) (after : State Node Sock Data) : Prop :=
  ∀ who, s.owed who ++ event.gives s who = event.takes who ++ after.owed who

omit [DecidableEq Sock] in
theorem pays_quiet {s after : State Node Sock Data} (same : ∀ who, after.owed who = s.owed who) :
    Pays s .quiet after := by
  intro who
  rw [same who]
  simp [Event.gives, Event.takes]

omit [DecidableEq Sock] in
theorem Moves.quiet {s after : State Node Sock Data} {who : Who} {c : Coro Node Data}
    (moves : Moves s after who c) (inv : Inv s) (same : s.owes c = s.owed who) :
    Inv after ∧ Pays s .quiet after :=
  ⟨moves.inv inv, pays_quiet (moves.same_owed same)⟩

omit [DecidableEq Sock] in
theorem owed_running {s : State Node Sock Data} {who : Who} (running : s.coro who = .running) :
    s.owed who = [] := by
  rw [State.owed, running]
  rfl

omit [DecidableEq Sock] in
theorem resume_pays {s : State Node Sock Data} (inv : Inv s) {who : Who} {f : FutureId}
    (awaits : s.awaits who = some f) (finished : s.isFinished f = true)
    (idle : ∀ w node own, s.activity ≠ .running w node own) (unset : ∀ f v, s.activity ≠ .setResult f v)
    (called : ∀ t v, s.activity = .callback (.task t) v → who = .task t)
    (awake : s.phase ≠ .select) :
    Inv (s.resume who).1 ∧ Pays s (s.resume who).2 (s.resume who).1 := by
  obtain ⟨rest, suspended⟩ := awaits_suspended awaits
  obtain ⟨same, moves⟩ := resume_moves inv suspended idle unset called awake
  rw [same]
  refine ⟨moves.inv inv, fun w => ?_⟩
  rw [moves.owed]
  by_cases here : w = who
  · subst here
    simp [Event.gives, Event.takes, State.owed, State.owes, suspended, Coro.awaits, finished]
  · simp [Event.gives, Event.takes, here, Ne.symm here]

/-! Something is finished or created. -/

omit [DecidableEq Sock] in
theorem set_finished (s : State Node Sock Data) (f : FutureId) (v : Value Data) (g : FutureId) :
    (s.setResult f v).isFinished g = if g = f then true else s.isFinished g := by
  by_cases same : g = f
  · simp [State.isFinished, State.setResult, same]
  · simp [State.isFinished, State.setResult, same]

omit [DecidableEq Sock] in
theorem set_result (s : State Node Sock Data) (f : FutureId) (v : Value Data) (g : FutureId) :
    (s.setResult f v).result g = if g = f then v else s.result g := by
  by_cases same : g = f
  · simp [State.result, State.setResult, same]
  · simp [State.result, State.setResult, same]

omit [DecidableEq Sock] in
theorem set_activity (s : State Node Sock Data) (f : FutureId) (v : Value Data) :
    (s.setResult f v).activity = .run ∧ (s.future f).doneCallback = none ∨
      ∃ who, (s.setResult f v).activity = .callback who v ∧ (s.future f).doneCallback = some who := by
  cases callback : (s.future f).doneCallback with
  | none => exact Or.inl ⟨by simp [State.setResult, callback], rfl⟩
  | some who => exact Or.inr ⟨who, by simp [State.setResult, callback], rfl⟩

omit [DecidableEq Sock] in
theorem set_unset (s : State Node Sock Data) (f : FutureId) (v : Value Data) (g : FutureId)
    (w : Value Data) : (s.setResult f v).activity ≠ .setResult g w := by
  rcases set_activity s f v with ⟨run, _⟩ | ⟨who, called, _⟩
  · rw [run]
    simp
  · rw [called]
    simp

omit [DecidableEq Sock] in
theorem Inv.unfinished {s : State Node Sock Data} (inv : Inv s) (met : Met s) {f : FutureId}
    {v : Value Data} (here : s.activity = .setResult f v) {who : Who}
    (awaits : s.awaits who = some f) : s.isFinished f = false := by
  refine Bool.eq_false_iff.mpr fun finished => ?_
  have owing := (inv.awaiting awaits).2.1 finished
  cases who with
  | task t =>
      obtain ⟨w, called⟩ := owing
      rw [here] at called
      cases called
  | main =>
      obtain ⟨rest, events⟩ := met.main f v here awaits
      rcases owing with loop | ⟨_, _, _, apart⟩ | raised
      · rw [events] at loop
        cases loop
      · exact apart v here
      · rw [events] at raised
        cases raised

omit [DecidableEq Sock] in
theorem set_sits {s : State Node Sock Data} (inv : Inv s) (met : Met s) {f : FutureId}
    {v : Value Data} (here : s.activity = .setResult f v) (who : Who) :
    (s.setResult f v).Sits who (s.coro who) := by
  have sits := inv.sits who
  cases place : s.coro who with
  | fresh node =>
      rw [place] at sits
      cases who with
      | main => exact sits
      | task t => exact sits
  | running =>
      rw [place] at sits
      obtain ⟨_, _, there⟩ := sits
      rw [here] at there
      cases there
  | finished =>
      rw [place] at sits
      cases who with
      | main => exact sits
      | task t =>
          intro less
          refine Or.inl ?_
          rw [set_finished]
          split
          · rfl
          · rename_i differ
            refine (sits less).resolve_right ?_
            rintro ⟨w, there⟩
            rw [here] at there
            cases there
            exact differ rfl
  | suspended g rest =>
      have awaits : s.awaits who = some g := by rw [State.awaits, place]; rfl
      obtain ⟨made, owing, current⟩ := inv.awaiting awaits
      refine ⟨by cases g <;> exact made, fun finished => ?_, fun open_ main => ?_⟩
      · by_cases same : g = f
        · subst same
          cases who with
          | main =>
              -- main awaits a socket: it goes on after the events, none of which is for g again
              obtain ⟨rest, events⟩ := met.main g v here awaits
              refine Or.inr (Or.inl ⟨rest, events, ?_, set_unset s g v g⟩)
              rintro n member rfl
              exact (inv.batch rest events).2 n v here member
          | task t =>
              -- a task that awaits g is the callback of g
              rcases set_activity s g v with ⟨_, none_⟩ | ⟨w, called, some_⟩
              · rw [met.task g v here t awaits] at none_
                cases none_
              · rw [met.task g v here t awaits] at some_
                cases some_
                exact ⟨v, called⟩
        · rw [set_finished, if_neg same] at finished
          cases who with
          | main => exact excused_moves (owing finished) rfl (set_unset s f v g)
          | task t =>
              obtain ⟨w, called⟩ := owing finished
              rw [here] at called
              cases called
      · rw [set_finished] at open_
        split at open_
        · cases open_
        · exact current open_ main

omit [DecidableEq Sock] in
theorem set_inv {s : State Node Sock Data} (inv : Inv s) (met : Met s) {f : FutureId}
    {v : Value Data} (here : s.activity = .setResult f v) : Inv (s.setResult f v) where
  sits := set_sits inv met here
  ran who node own there := by
    rcases set_activity s f v with ⟨run, _⟩ | ⟨w, called, _⟩
    · rw [run] at there
      cases there
    · rw [called] at there
      cases there
  unborn := inv.unborn
  registered := inv.registered
  apart := inv.apart
  result g open_ := by
    rw [set_finished] at open_
    split at open_
    · cases open_
    · rename_i differ
      rw [set_result, if_neg differ]
      exact inv.result g open_
  closed t less finished := by
    rw [set_finished] at finished
    split at finished
    · rename_i same
      subst same
      exact (inv.setting t v here).2
    · exact inv.closed t less finished
  setting t w there := absurd there (set_unset s f v _ w)
  asleep select := by
    have idle := inv.asleep select
    rw [here] at idle
    cases idle
  index := inv.index
  callback who w there := by
    rcases set_activity s f v with ⟨run, _⟩ | ⟨u, called, some_⟩
    · rw [run] at there
      cases there
    · rw [called] at there
      cases there
      exact ⟨f, met.callback f v here who some_, by rw [set_finished, if_pos rfl]⟩
  batch rest events := ⟨(inv.batch rest events).1, fun n w there => absurd there (set_unset s f v _ w)⟩

omit [DecidableEq Sock] in
theorem set_pays {s : State Node Sock Data} (inv : Inv s) (met : Met s) {f : FutureId}
    {v : Value Data} (here : s.activity = .setResult f v) :
    Pays s (.completes f v) (s.setResult f v) := by
  intro who
  simp only [Event.gives, Event.takes, List.nil_append]
  have after : (s.setResult f v).owed who = (s.setResult f v).owes (s.coro who) := rfl
  rw [after, State.owed, State.owes, State.owes]
  cases awaits : (s.coro who).awaits with
  | none =>
      have none_ : ¬ s.awaits who = some f := by
        rw [State.awaits, awaits]
        simp
      simp [if_neg none_]
  | some g =>
      have same : s.awaits who = some g := awaits
      by_cases here_ : g = f
      · subst here_
        simp [same, inv.unfinished met here same, set_finished, set_result]
      · simp [same, here_, set_finished, set_result]

/-- A future that nobody has had yet is new, and the others are as before. -/
structure Grows (s after : State Node Sock Data) (new : FutureId) : Prop where
  isFinished : ∀ g, after.isFinished g = if g = new then false else s.isFinished g
  result : ∀ g, after.result g = if g = new then .none else s.result g
  unmade : ¬ s.Made new
  made : ∀ g, s.Made g → after.Made g

namespace Grows

variable {s after : State Node Sock Data} {new : FutureId}

omit [DecidableEq Sock] in
theorem old (grows : Grows s after new) {g : FutureId} (made : s.Made g) :
    after.isFinished g = s.isFinished g ∧ after.result g = s.result g := by
  have differ : g ≠ new := fun same => grows.unmade (same ▸ made)
  rw [grows.isFinished, grows.result, if_neg differ, if_neg differ]
  exact ⟨rfl, rfl⟩

omit [DecidableEq Sock] in
theorem unfinished (grows : Grows s after new) (inv : Inv s) (g : FutureId)
    (open_ : after.isFinished g = false) : after.result g = .none := by
  rw [grows.isFinished] at open_
  rw [grows.result]
  split
  · rfl
  · rename_i differ
    rw [if_neg differ] at open_
    exact inv.result g open_

omit [DecidableEq Sock] in
theorem suspended (grows : Grows s after new) {who : Who} {g : FutureId} {rest : Value Data → Node}
    (owing : s.Owing g who → after.Owing g who) (current : after.currentResult = s.currentResult)
    (sits : s.Sits who (.suspended g rest)) : after.Sits who (.suspended g rest) := by
  obtain ⟨made, owes, waits⟩ := sits
  refine ⟨grows.made g made, ?_, ?_⟩
  · rw [(grows.old made).1]
    exact fun finished => owing (owes finished)
  · rw [(grows.old made).1, current]
    exact waits

omit [DecidableEq Sock] in
theorem awaited (grows : Grows s after new) (inv : Inv s) {who : Who} {g : FutureId}
    (awaits : s.awaits who = some g) (finished : s.isFinished g = true) :
    after.isFinished g = true :=
  (grows.old (inv.awaiting awaits).1).1.trans finished

omit [DecidableEq Sock] in
theorem owes (grows : Grows s after new) (inv : Inv s) (who : Who) :
    after.owes (s.coro who) = s.owed who := by
  rw [State.owed, State.owes, State.owes]
  cases awaits : (s.coro who).awaits with
  | none => rfl
  | some g =>
      have waits : s.awaits who = some g := awaits
      have old := grows.old (inv.awaiting waits).1
      simp only [old.1, old.2]

end Grows

theorem register_grows (s : State Node Sock Data) (sock : Sock) :
    Grows s (s.registerSocketToRead sock) (.socket s.sockets) where
  isFinished g := by
    by_cases same : g = .socket s.sockets
    · simp [State.isFinished, State.registerSocketToRead, Future.new, same]
    · simp [State.isFinished, State.registerSocketToRead, same]
  result g := by
    by_cases same : g = .socket s.sockets
    · simp [State.result, State.registerSocketToRead, Future.new, same]
    · simp [State.result, State.registerSocketToRead, same]
  unmade := Nat.lt_irrefl _
  made g made := by
    cases g with
    | socket n => exact Nat.lt_succ_of_lt made
    | task t => exact made

theorem register_inv {s : State Node Sock Data} (inv : Inv s) (sock : Sock) :
    Inv (s.registerSocketToRead sock) where
  sits who := by
    change (s.registerSocketToRead sock).Sits who (s.coro who)
    have sits := inv.sits who
    cases place : s.coro who with
    | fresh node =>
        rw [place] at sits
        exact sits
    | running =>
        rw [place] at sits
        exact sits
    | finished =>
        rw [place] at sits
        cases who with
        | main => exact sits
        | task t =>
            intro less
            rw [(register_grows s sock).isFinished, if_neg (by simp)]
            exact sits less
    | suspended g rest =>
        rw [place] at sits
        exact (register_grows s sock).suspended (fun here => here) rfl sits
  ran := inv.ran
  unborn := inv.unborn
  registered a n found := by
    change n < s.sockets + 1
    by_cases same : a = sock
    · subst same
      simp only [State.registerSocketToRead, Function.update_self, Option.some.injEq] at found
      omega
    · simp only [State.registerSocketToRead, Function.update_of_ne same] at found
      exact Nat.lt_succ_of_lt (inv.registered a n found)
  apart a b n first second := by
    -- a socket number is new, so no other socket has it
    have old (c : Sock) (differ : c ≠ sock) (found : (s.registerSocketToRead sock).registered c = some n) :
        s.registered c = some n := by
      simpa only [State.registerSocketToRead, Function.update_of_ne differ] using found
    have new (c : Sock) (same : c = sock) (found : (s.registerSocketToRead sock).registered c = some n) :
        n = s.sockets := by
      subst same
      simpa [State.registerSocketToRead, eq_comm] using found
    by_cases one : a = sock
    · by_cases two : b = sock
      · rw [one, two]
      · have less := inv.registered b n (old b two second)
        have at_ := new a one first
        omega
    · by_cases two : b = sock
      · have less := inv.registered a n (old a one first)
        have at_ := new b two second
        omega
      · exact inv.apart a b n (old a one first) (old b two second)
  result := (register_grows s sock).unfinished inv
  closed t less finished := by
    rw [(register_grows s sock).isFinished, if_neg (by simp)] at finished
    exact inv.closed t less finished
  setting t v there := by
    rw [(register_grows s sock).isFinished, if_neg (by simp)]
    exact inv.setting t v there
  asleep := inv.asleep
  index := inv.index
  callback who v there := by
    obtain ⟨g, awaits, finished⟩ := inv.callback who v there
    exact ⟨g, awaits, (register_grows s sock).awaited inv awaits finished⟩
  batch := inv.batch

theorem register_owed {s : State Node Sock Data} (inv : Inv s) (sock : Sock) (who : Who) :
    (s.registerSocketToRead sock).owed who = s.owed who :=
  (register_grows s sock).owes inv who

omit [DecidableEq Sock] in
theorem create_grows (s : State Node Sock Data) (coro : Node) :
    Grows s (s.createTask coro) (.task s.tasks) where
  isFinished g := by
    by_cases same : g = .task s.tasks
    · simp [State.isFinished, State.createTask, Future.new, same]
    · simp [State.isFinished, State.createTask, State.setCoro, same]
  result g := by
    by_cases same : g = .task s.tasks
    · simp [State.result, State.createTask, Future.new, same]
    · simp [State.result, State.createTask, State.setCoro, same]
  unmade := Nat.lt_irrefl _
  made g made := by
    cases g with
    | socket n => exact made
    | task t => exact Nat.lt_succ_of_lt made

omit [DecidableEq Sock] in
theorem create_waiting {s : State Node Sock Data} (inv : Inv s) (awake : s.phase ≠ .select)
    (coro : Node) (t : Nat) :
    t ∈ (s.createTask coro).waiting ↔ t ∈ s.waiting ∨ t = s.tasks := by
  cases phase : s.phase with
  | tasks i =>
      have less := inv.index i phase
      simp [State.waiting, State.createTask, State.setCoro, phase, List.drop_append_of_le_length less]
  | select => exact absurd phase awake
  | first | loop | events _ | returned _ | raised =>
      simp [State.waiting, State.createTask, State.setCoro, phase]

omit [DecidableEq Sock] in
theorem create_coro (s : State Node Sock Data) (coro : Node) (who : Who) :
    (s.createTask coro).coro who = if who = .task s.tasks then .fresh coro else s.coro who := by
  by_cases same : who = .task s.tasks
  · simp [State.createTask, State.setCoro, same]
  · simp [State.createTask, State.setCoro, same]

omit [DecidableEq Sock] in
theorem create_inv {s : State Node Sock Data} (inv : Inv s) (awake : s.phase ≠ .select) (coro : Node)
    (unset : ∀ f v, s.activity ≠ .setResult f v) : Inv (s.createTask coro) where
  sits who := by
    rw [create_coro]
    split
    · rename_i same
      subst same
      exact ⟨Function.update_self _ _ _, (create_waiting inv awake coro _).mpr (Or.inr rfl)⟩
    · rename_i differ
      have sits := inv.sits who
      cases place : s.coro who with
      | fresh node =>
          rw [place] at sits
          cases who with
          | main => exact sits
          | task t =>
              refine ⟨(Function.update_of_ne (fun same => differ (by rw [same])) _ _).trans sits.1, ?_⟩
              exact (create_waiting inv awake coro t).mpr (Or.inl sits.2)
      | running =>
          rw [place] at sits
          exact sits
      | finished =>
          rw [place] at sits
          cases who with
          | main => exact sits
          | task t =>
              intro less
              have other : t ≠ s.tasks := fun same => differ (by rw [same])
              rw [(create_grows s coro).isFinished, if_neg (by simpa using other)]
              exact sits (Nat.lt_of_le_of_ne (Nat.le_of_lt_succ less) other)
      | suspended g rest =>
          rw [place] at sits
          exact (create_grows s coro).suspended (fun here => here) rfl sits
  ran who node own there := by
    have ran := inv.ran who node own there
    rw [create_coro, if_neg]
    · exact ran
    · rintro rfl
      rw [inv.unborn _ (Nat.le_refl _)] at ran
      cases ran
  unborn t late := by
    have late : s.tasks + 1 ≤ t := late
    rw [create_coro, if_neg (by simp; omega)]
    exact inv.unborn t (by omega)
  registered := inv.registered
  apart := inv.apart
  result := (create_grows s coro).unfinished inv
  closed t less finished := by
    have less : t < s.tasks + 1 := less
    rw [(create_grows s coro).isFinished] at finished
    split at finished
    · cases finished
    · rename_i differ
      have other : t ≠ s.tasks := by simpa using differ
      rw [create_coro, if_neg (by simpa using other)]
      exact inv.closed t (by omega) finished
  setting t v there := absurd there (unset _ v)
  asleep select := absurd select awake
  index i phase := by
    have less := inv.index i phase
    change i ≤ (s.tasksToRun ++ [s.tasks]).length
    rw [List.length_append]
    omega
  callback who v there := by
    obtain ⟨g, awaits, finished⟩ := inv.callback who v there
    refine ⟨g, ?_, (create_grows s coro).awaited inv awaits finished⟩
    rw [State.awaits, create_coro, if_neg]
    · exact awaits
    · rintro rfl
      rw [State.awaits, inv.unborn _ (Nat.le_refl _)] at awaits
      cases awaits
  batch := inv.batch

omit [DecidableEq Sock] in
theorem create_owed {s : State Node Sock Data} (inv : Inv s) (coro : Node) (who : Who) :
    (s.createTask coro).owed who = s.owed who := by
  rw [State.owed, create_coro]
  split
  · rename_i same
    rw [same, State.owed, inv.unborn _ (Nat.le_refl _)]
    rfl
  · exact (create_grows s coro).owes inv who

/-! One step. -/

omit [DecidableEq Sock] in
theorem pays_trans {s middle after : State Node Sock Data}
    (first : ∀ who, middle.owed who = s.owed who) (second : ∀ who, after.owed who = middle.owed who) :
    Pays s .quiet after :=
  pays_quiet fun who => (second who).trans (first who)

theorem execute_inv {next : Node → Op Node Sock Data} {s after : State Node Sock Data} (inv : Inv s)
    {who : Who} {node : Node} {own : Bool} (here : s.activity = .running who node own)
    (stepped : s.execute next who node own = some after) : Inv after ∧ Pays s .quiet after := by
  have ran := inv.ran who node own here
  have unset (f : FutureId) (v : Value Data) : s.activity ≠ .setResult f v := by simp [here]
  have awake : s.phase ≠ .select := fun select => by
    have idle := inv.asleep select
    rw [here] at idle
    cases idle
  unfold State.execute at stepped
  split at stepped
  · rename_i sock rest _
    cases stepped
    -- the socket is registered first, and then the coroutine yields its future
    have registered := register_inv inv sock
    have there : (s.registerSocketToRead sock).activity = .running who node own := here
    have moves := yields_moves registered there
      (.socket s.sockets) rest (Nat.lt_succ_self _) (by rw [(register_grows s sock).isFinished, if_pos rfl])
    refine ⟨moves.inv registered, pays_trans (register_owed inv sock) (moves.same_owed ?_)⟩
    rw [register_owed inv, owed_running ran]
    simp [State.owes, Coro.awaits, (register_grows s sock).isFinished]
  · rename_i task rest _
    split at stepped
    · rename_i less
      split at stepped
      · cases stepped
        have moves := goes_on inv here (rest (s.future (.task task)).result)
        exact moves.quiet inv (by rw [owed_running ran]; rfl)
      · rename_i open_
        cases stepped
        have unfinished : s.isFinished (.task task) = false := Bool.eq_false_iff.mpr open_
        have moves := yields_moves inv here (.task task) rest less unfinished
        refine moves.quiet inv ?_
        rw [owed_running ran]
        simp [State.owes, Coro.awaits, unfinished]
    · cases stepped
  · rename_i coro rest _
    cases stepped
    have created := create_inv inv awake coro unset
    have there : (s.createTask coro).activity = .running who node own := here
    have moves := goes_on created there (rest s.tasks)
    refine ⟨moves.inv created, pays_trans (create_owed inv coro) (moves.same_owed ?_)⟩
    rw [create_owed inv, owed_running ran]
    rfl
  · rename_i v _
    cases stepped
    have moves := returns_moves inv here v
    exact moves.quiet inv (by rw [owed_running ran]; rfl)

omit [DecidableEq Sock] in
theorem Moves.main_quiet {s after : State Node Sock Data} (inv : Inv s)
    (moves : Moves s after .main (s.coro .main)) : Inv after ∧ Pays s .quiet after :=
  moves.quiet inv rfl

omit [DecidableEq Sock] in
theorem loop_awaits {s : State Node Sock Data} (inv : Inv s) (here : s.activity = .run)
    (phase : s.phase = .loop) : ∃ f, s.awaits .main = some f := by
  have sits := inv.sits .main
  rw [State.awaits]
  cases place : s.coro .main with
  | suspended f rest => exact ⟨f, rfl⟩
  | fresh node =>
      rw [place] at sits
      cases phase.symm.trans sits
  | running =>
      rw [place] at sits
      obtain ⟨_, _, there⟩ := sits
      cases here.symm.trans there
  | finished =>
      rw [place] at sits
      have ended : s.phase.over = true := sits
      rw [phase] at ended
      cases ended

omit [DecidableEq Sock] in
theorem loop_inv {s after : State Node Sock Data} {event : Event Data} (inv : Inv s) (met : Met s)
    (here : s.activity = .run) (phase : s.phase = .loop)
    (stepped : (match s.currentResult with
      | .future f =>
          if (s.future f).result.isNone = true then
            some ({ s.addDoneCallback f .main with phase := .tasks 0 }, Event.quiet)
          else some ((s.addDoneCallback f .main).resume .main)
      | _ => some (s.resume .main)) = some (after, event)) :
    Inv after ∧ Pays s event after := by
  obtain ⟨f, awaits⟩ := loop_awaits inv here phase
  have current := (inv.awaiting awaits).2.2
  have resumed (finished : s.isFinished f = true) :
      Inv (s.resume .main).1 ∧ Pays s (s.resume .main).2 (s.resume .main).1 := by
    refine resume_pays inv awaits finished ?_ ?_ ?_ ?_ <;> simp [here, phase]
  have value (other : ∀ g, s.currentResult ≠ .future g) :
      Inv (s.resume .main).1 ∧ Pays s (s.resume .main).2 (s.resume .main).1 :=
    resumed (by_contra fun open_ => other f (current (Bool.eq_false_iff.mpr open_) rfl))
  -- current_result is the future that main awaits, unless that is finished
  cases result : s.currentResult with
  | future g =>
      simp only [result] at stepped
      split at stepped
      · rename_i none_
        cases stepped
        have moves : Moves s { s.addDoneCallback g .main with phase := .tasks 0 } .main
            (s.coro .main) := by
          refine stays inv here rfl (add_is_finished s g .main) (add_result s g .main) ⟨rfl, rfl⟩ rfl
            rfl ?_ ?_ ⟨by simp [phase], by simp [phase, Phase.over]⟩ (Or.inr here) ?_ ?_
          · intro t _ member
            simpa [State.waiting, phase, State.addDoneCallback] using member
          · intro h awaits_
            refine ⟨fun finished => ?_, fun _ => rfl⟩
            have some_ := met.look here phase h g awaits_ finished result
            refine absurd ?_ some_
            change (s.future g).result = .none
            cases value : (s.future g).result <;> rw [value] at none_ <;> first | rfl | cases none_
          · intro i tasks
            cases tasks
            exact Nat.zero_le _
          · intro rest events
            cases events
        exact moves.main_quiet inv
      · rename_i some_
        have finished : s.isFinished f = true := by
          by_contra open_
          have open_ := Bool.eq_false_iff.mpr open_
          rw [current open_ rfl] at result
          cases result
          have none_ : (s.future f).result = .none := inv.result f open_
          rw [none_] at some_
          exact some_ rfl
        have moves : Moves s (s.addDoneCallback g .main) .main (s.coro .main) :=
          stays inv here rfl (add_is_finished s g .main) (add_result s g .main) ⟨rfl, rfl⟩ rfl rfl
            (fun _ _ member => member) (fun h awaits_ => ⟨(inv.awaiting awaits_).2.1, fun _ => rfl⟩)
            ⟨by simp [phase], by simp [phase, Phase.over]⟩ (Or.inr here) inv.index inv.batch
        have added := moves.inv inv
        have waits : (s.addDoneCallback g .main).awaits .main = some f := awaits
        have paid := resume_pays added waits
          (by rw [add_is_finished]; exact finished) (by simp [State.addDoneCallback, here])
          (by simp [State.addDoneCallback, here]) (by simp [State.addDoneCallback, here])
          (by simp [State.addDoneCallback, phase])
        rw [Option.some.inj stepped] at paid
        refine ⟨paid.1, fun who => ?_⟩
        have pays := paid.2 who
        rw [moves.same_owed rfl who] at pays
        exact pays
  | none =>
      simp only [result] at stepped
      have paid := value fun g => by simp [result]
      rw [Option.some.inj stepped] at paid
      exact paid
  | data d =>
      simp only [result] at stepped
      have paid := value fun g => by simp [result]
      rw [Option.some.inj stepped] at paid
      exact paid

omit [DecidableEq Sock] in
theorem turn_inv {s : State Node Sock Data} (inv : Inv s) (here : s.activity = .run) {i t : Nat}
    (phase : s.phase = .tasks i) (turn : s.tasksToRun[i]? = some t) :
    Inv (({ s with phase := .tasks (i + 1) } : State Node Sock Data).stepTask t) ∧
      Pays s .quiet (({ s with phase := .tasks (i + 1) } : State Node Sock Data).stepTask t) := by
  have away (f : FutureId) (awaits : s.awaits .main = some f) : s.isFinished f ≠ true :=
    fun finished => not_excused phase ((inv.awaiting awaits).2.1 finished)
  have later : s.phase ≠ .first ∧ s.phase.over = false := by simp [phase, Phase.over]
  obtain ⟨less, same⟩ := List.getElem?_eq_some_iff.mp turn
  cases task : s.taskState t with
  | some f =>
      have moves : Moves s
          (({ s with phase := .tasks (i + 1) } : State Node Sock Data).addDoneCallback f (.task t))
          .main (s.coro .main) := by
        refine stays inv here rfl (add_is_finished _ f _) (add_result _ f _) ⟨rfl, rfl⟩ rfl rfl ?_ ?_
          later (Or.inr here) ?_ ?_
        · intro u none_ member
          simp only [State.waiting, phase] at member
          rw [List.drop_eq_getElem_cons less, same] at member
          refine (List.mem_cons.mp member).resolve_left ?_
          rintro rfl
          cases none_.symm.trans task
        · exact fun g awaits => ⟨fun finished => absurd finished (away g awaits), fun _ => rfl⟩
        · intro j phases
          cases phases
          exact less
        · intro rest events
          cases events
      simpa only [State.stepTask, task] using moves.main_quiet inv
  | none =>
      -- whatever is not a fresh coroutine makes the step raise
      have raises : Inv { s with phase := .raised } ∧ Pays s .quiet { s with phase := .raised } := by
        have moves : Moves s { s with phase := .raised } .main (s.coro .main) := by
          refine stays inv here rfl rfl rfl ⟨rfl, rfl⟩ rfl rfl ?_ ?_ later (Or.inr here) ?_ ?_
          · intro u _ member
            simp only [State.waiting, phase] at member
            exact List.mem_of_mem_drop member
          · exact fun g awaits => ⟨fun finished => absurd finished (away g awaits), fun _ => rfl⟩
          · intro j phases
            cases phases
          · intro rest events
            cases events
        exact moves.main_quiet inv
      cases place : s.coro (.task t) with
      | fresh node =>
          have moves := turn_moves inv here phase turn place
          have quiet := moves.quiet inv (by rw [State.owed, place]; rfl)
          simpa only [State.stepTask, task, place] using quiet
      | suspended f rest => simpa only [State.stepTask, task, place] using raises
      | running => simpa only [State.stepTask, task, place] using raises
      | finished => simpa only [State.stepTask, task, place] using raises

omit [DecidableEq Sock] in
theorem tasks_ended {s : State Node Sock Data} (inv : Inv s) (here : s.activity = .run) {i : Nat}
    (phase : s.phase = .tasks i) (ended : s.tasksToRun[i]? = none) (left : List Nat) :
    Inv { s with tasksToRun := left, phase := .select } ∧
      Pays s .quiet { s with tasksToRun := left, phase := .select } := by
  refine Moves.main_quiet inv (stays inv here rfl rfl rfl ⟨rfl, rfl⟩ rfl rfl ?_ ?_
    (by simp [phase, Phase.over]) (Or.inr here) ?_ ?_)
  · intro u _ member
    simp only [State.waiting, phase] at member
    rw [List.drop_eq_nil_of_le (List.getElem?_eq_none_iff.mp ended)] at member
    cases member
  · refine fun g awaits => ⟨fun finished => ?_, fun _ => rfl⟩
    exact absurd ((inv.awaiting awaits).2.1 finished) (not_excused phase)
  · intro j phases
    cases phases
  · intro rest events
    cases events

omit [DecidableEq Sock] in
theorem events_ended {s : State Node Sock Data} (inv : Inv s) (here : s.activity = .run)
    (phase : s.phase = .events []) :
    Inv { s with phase := .loop } ∧ Pays s .quiet { s with phase := .loop } := by
  refine Moves.main_quiet inv (stays inv here rfl rfl rfl ⟨rfl, rfl⟩ rfl rfl ?_ ?_
    (by simp [phase, Phase.over]) (Or.inr here) ?_ ?_)
  · intro u _ member
    simpa only [State.waiting, phase] using member
  · exact fun g _ => ⟨fun _ => Or.inl rfl, fun _ => rfl⟩
  · intro j phases
    cases phases
  · intro rest events
    cases events

omit [DecidableEq Sock] in
theorem selected_inv {s : State Node Sock Data} (inv : Inv s) (here : s.activity = .run)
    (phase : s.phase = .select) {ready : List Sock} (nodup : ready.Nodup) :
    Inv { s with phase := .events (ready.filterMap s.registered) } ∧
      Pays s .quiet { s with phase := .events (ready.filterMap s.registered) } := by
  refine Moves.main_quiet inv (stays inv here rfl rfl rfl ⟨rfl, rfl⟩ rfl rfl ?_ ?_
    (by simp [phase, Phase.over]) (Or.inr here) ?_ ?_)
  · intro u _ member
    simp [State.waiting, phase] at member
  · refine fun g awaits => ⟨fun finished => ?_, fun _ => rfl⟩
    rcases (inv.awaiting awaits).2.1 finished with loop | ⟨rest, events, _⟩ | raised
    · cases phase.symm.trans loop
    · cases phase.symm.trans events
    · cases phase.symm.trans raised
  · intro j phases
    cases phases
  · intro rest events
    cases events
    refine ⟨List.Nodup.filterMap (fun a b n => inv.apart a b n) nodup, ?_⟩
    intro n v there
    cases here.symm.trans there

omit [DecidableEq Sock] in
theorem event_inv {s : State Node Sock Data} (inv : Inv s) (here : s.activity = .run) {n : Nat}
    {rest : List Nat} (phase : s.phase = .events (n :: rest)) (d : Data) :
    Inv { s with phase := .events rest, activity := .setResult (.socket n) (.data d) } ∧
      Pays s .quiet
        { s with phase := .events rest, activity := .setResult (.socket n) (.data d) } := by
  refine Moves.main_quiet inv (stays inv here rfl rfl rfl ⟨rfl, rfl⟩ rfl rfl ?_ ?_
    (by simp [phase, Phase.over]) (Or.inl ⟨n, d, rfl, by simp⟩) ?_ ?_)
  · intro u _ member
    simpa only [State.waiting, phase] using member
  · refine fun g awaits => ⟨fun finished => ?_, fun _ => rfl⟩
    rcases (inv.awaiting awaits).2.1 finished with loop | ⟨batch, events, other, _⟩ | raised
    · cases phase.symm.trans loop
    · cases phase.symm.trans events
      refine Or.inr (Or.inl ⟨rest, rfl, fun m member => other m (List.mem_cons_of_mem _ member), ?_⟩)
      intro v there
      cases there
      exact other n List.mem_cons_self rfl
    · cases phase.symm.trans raised
  · intro j phases
    cases phases
  · intro batch events
    cases events
    obtain ⟨nodup, _⟩ := inv.batch _ phase
    refine ⟨nodup.of_cons, ?_⟩
    rintro m v there
    cases there
    exact (List.nodup_cons.mp nodup).1

theorem run_code_inv {s after : State Node Sock Data} {a : Action Sock Data}
    {event : Event Data} (inv : Inv s) (met : Met s) (here : s.activity = .run)
    (stepped : s.run a = some (after, event)) : Inv after ∧ Pays s event after := by
  unfold State.run at stepped
  split at stepped
  · split at stepped
    · rename_i phase
      split at stepped
      · rename_i node place
        cases stepped
        exact (first_moves inv here phase).quiet inv (by rw [State.owed, place]; rfl)
      · cases stepped
    · rename_i phase
      exact loop_inv inv met here phase stepped
    · rename_i i phase
      split at stepped
      · rename_i t turn
        cases stepped
        exact turn_inv inv here phase turn
      · rename_i ended
        cases stepped
        exact tasks_ended inv here phase ended _
    · rename_i phase
      cases stepped
      exact events_ended inv here phase
    · cases stepped
  · rename_i ready
    split at stepped
    · rename_i phase
      obtain ⟨nodup, same⟩ := Option.ite_none_right_eq_some.mp stepped
      cases same
      exact selected_inv inv here phase nodup
    · cases stepped
  · rename_i d
    split at stepped
    · rename_i n rest phase
      cases stepped
      exact event_inv inv here phase d
    · cases stepped

omit [DecidableEq Sock] in
theorem main_called {s : State Node Sock Data} (inv : Inv s) {v : Value Data}
    (here : s.activity = .callback .main v) :
    Moves s { s with currentResult := v, activity := .run } .main (s.coro .main) where
  coro := (Function.update_eq_self _ _).symm
  isFinished := rfl
  result := rfl
  tasks := rfl
  sockets := rfl
  registered := rfl
  alone w _ := inv.idle (by simp [here]) w
  unset f w there := by cases here.symm.trans there
  called t w there := by cases here.symm.trans there
  self := by
    obtain ⟨f, awaits, finished⟩ := inv.callback _ _ here
    obtain ⟨made, owing, _⟩ := inv.awaiting awaits
    obtain ⟨rest, suspended⟩ := awaits_suspended awaits
    rw [suspended]
    refine ⟨made, fun _ => ?_, fun (open_ : s.isFinished f = false) _ => ?_⟩
    · exact excused_moves (owing finished) rfl fun w there => by cases there
    · cases finished.symm.trans open_
  first _ := Or.inl rfl
  taskState _ _ := rfl
  waiting _ _ _ member := member
  excused other := absurd rfl other
  ended other := absurd rfl other
  current other := absurd rfl other
  born t same := by cases same
  closed t same := by cases same
  setting t w there := by cases there
  asleep _ := rfl
  index := inv.index
  batch rest events := ⟨(inv.batch rest events).1, fun n w there => by cases there⟩
  uncalled w u there := by cases there
  ran w node own there := by cases there

theorem step_inv {next : Node → Op Node Sock Data} {s after : State Node Sock Data}
    {a : Action Sock Data} {event : Event Data} (inv : Inv s) (met : Met s)
    (stepped : step next s a = some (after, event)) : Inv after ∧ Pays s event after := by
  unfold step at stepped
  split at stepped
  · rename_i here
    exact run_code_inv inv met here stepped
  · rename_i who node own here
    obtain ⟨result, executed, same⟩ := Option.map_eq_some_iff.mp stepped
    cases same
    exact execute_inv inv here executed
  · rename_i f v here
    cases stepped
    exact ⟨set_inv inv met here, set_pays inv met here⟩
  · rename_i v here
    cases stepped
    exact (main_called inv here).main_quiet inv
  · rename_i t v here
    obtain ⟨f, awaits, finished⟩ := inv.callback _ _ here
    have awake : s.phase ≠ .select := fun select => by cases here.symm.trans (inv.asleep select)
    have paid := resume_pays inv awaits finished (by simp [here]) (by simp [here])
      (fun u w there => by cases here.symm.trans there; rfl) awake
    rw [Option.some.inj stepped] at paid
    exact paid
  · cases stepped

/-! The runs. -/

def delivered (trace : List (Step Node Sock Data)) (who : Who) : List (Value Data) :=
  trace.flatMap fun e => e.output.gives e.before who

def resumed (trace : List (Step Node Sock Data)) (who : Who) : List (Value Data) :=
  trace.flatMap fun e => e.output.takes who

def Sleeps (s : State Node Sock Data) : Prop := s.activity = .run ∧ s.phase = .select

def Waits (s : State Node Sock Data) (who : Who) : Prop :=
  ∃ f, s.awaits who = some f ∧ s.isFinished f = false

/-- No await gives anything but the result of its future, once; when the loop sleeps all of them
have given theirs and nobody could go on. -/
def Sound (trace : List (Step Node Sock Data)) (s : State Node Sock Data) : Prop :=
  (∀ who, resumed trace who <+: delivered trace who) ∧
    (Sleeps s → (∀ who, resumed trace who = delivered trace who) ∧ Waits s .main ∧
      ∀ t, t < s.tasks → s.isFinished (.task t) = false → Waits s (.task t))

omit [DecidableEq Sock] in
theorem sleeps_waits {s : State Node Sock Data} (inv : Inv s) (sleeps : Sleeps s) (who : Who) :
    s.owed who = [] ∧ (who = .main ∨ (∃ t, who = .task t ∧ t < s.tasks ∧
      s.isFinished (.task t) = false) → Waits s who) := by
  obtain ⟨run, select⟩ := sleeps
  have sits := inv.sits who
  cases place : s.coro who with
  | fresh node =>
      rw [place] at sits
      refine ⟨by rw [State.owed, place]; rfl, fun _ => ?_⟩
      cases who with
      | main => cases select.symm.trans sits
      | task t =>
          have member := sits.2
          simp [State.waiting, select] at member
  | running =>
      rw [place] at sits
      obtain ⟨_, _, there⟩ := sits
      cases run.symm.trans there
  | finished =>
      rw [place] at sits
      refine ⟨by rw [State.owed, place]; rfl, fun who_ => ?_⟩
      rcases who_ with rfl | ⟨t, rfl, less, open_⟩
      · have ended : s.phase.over = true := sits
        rw [select] at ended
        cases ended
      · rcases sits less with done | ⟨v, there⟩
        · cases open_.symm.trans done
        · cases run.symm.trans there
  | suspended f rest =>
      have awaits : s.awaits who = some f := by rw [State.awaits, place]; rfl
      -- whoever is owed a result is called before the loop selects
      have open_ : s.isFinished f = false := Bool.eq_false_iff.mpr fun finished => by
        have owing := (inv.awaiting awaits).2.1 finished
        cases who with
        | main =>
            rcases owing with loop | ⟨_, events, _⟩ | raised
            · cases select.symm.trans loop
            · cases select.symm.trans events
            · cases select.symm.trans raised
        | task t =>
            obtain ⟨v, called⟩ := owing
            cases run.symm.trans called
      refine ⟨?_, fun _ => ⟨f, awaits, open_⟩⟩
      rw [State.owed, place]
      simp [State.owes, Coro.awaits, open_]

omit [DecidableEq Sock] in
theorem begun_inv (main : Node) : Inv (begun main : State Node Sock Data) where
  sits who := by
    cases who with
    | main => exact rfl
    | task t => exact fun less => absurd less (Nat.not_lt_zero t)
  ran who node own there := by cases there
  unborn _ _ := rfl
  registered sock n found := by cases found
  apart a b n found := by cases found
  result _ _ := rfl
  closed t less := absurd less (Nat.not_lt_zero t)
  setting t v there := by cases there
  asleep _ := rfl
  index i phase := by cases phase
  callback who v there := by cases there
  batch rest phase := by cases phase

theorem run_inv {next : Node → Op Node Sock Data} {main : Node} {trace : List (Step Node Sock Data)}
    {s : State Node Sock Data} (run : (machine next main).Run trace s)
    (met : ∀ e ∈ trace, timely e.before = true) :
    Inv s ∧ ∀ who, delivered trace who = resumed trace who ++ s.owed who := by
  refine run.history (C := fun e => timely e.before = true)
    (I := fun trace s => Inv s ∧ ∀ who, delivered trace who = resumed trace who ++ s.owed who)
    ?_ ?_ met
  · rintro s rfl
    refine ⟨begun_inv main, fun who => ?_⟩
    cases who with
    | main => rfl
    | task t => rfl
  · rintro trace e stepped met ⟨inv, balance⟩
    obtain ⟨after, pays⟩ := step_inv inv (timely_met inv met) stepped
    refine ⟨after, fun who => ?_⟩
    have paid := pays who
    simp only [delivered, resumed, List.flatMap_append, List.flatMap_singleton] at balance ⊢
    rw [balance who, List.append_assoc, paid, List.append_assoc]

theorem nothing_sleeps (next : Node → Op Node Sock Data) (main : Node)
    (trace : List (Step Node Sock Data)) (s : State Node Sock Data)
    (run : (machine next main).Run trace s) (met : ∀ e ∈ trace, timely e.before = true) :
    Sound trace s := by
  obtain ⟨inv, balance⟩ := run_inv run met
  refine ⟨fun who => ⟨_, (balance who).symm⟩, fun sleeps => ⟨fun who => ?_, ?_, ?_⟩⟩
  · rw [balance who, (sleeps_waits inv sleeps who).1, List.append_nil]
  · exact (sleeps_waits inv sleeps .main).2 (Or.inl rfl)
  · exact fun t less open_ => (sleeps_waits inv sleeps (.task t)).2 (Or.inr ⟨t, rfl, less, open_⟩)

/-! A main that receives from socket 3 for ever, and one that awaits a task of its own. -/

def receives : Nat → Op Nat Nat Nat := fun _ => .call .sockRecv 3 fun _ => 0

theorem data_received : ∃ (trace : List (Step Nat Nat Nat)) (s : State Nat Nat Nat),
    (machine receives 0).Run trace s ∧ Sleeps s ∧ resumed trace .main = [.data 7] ∧
      Sound trace s := by
  obtain ⟨trace, s, run, ends⟩ := Machine.run_of_check (M := machine receives 0) (s := begun 0) rfl
    [.go, .go, .go, .go, .select [3], .event 7, .go, .go, .go, .go, .go, .go]
    (fun r => decide ((r.2.activity = .run ∧ r.2.phase = .select) ∧
      resumed r.1 .main = [.data 7] ∧ ∀ e ∈ r.1, timely e.before = true)) (by decide +kernel)
  obtain ⟨sleeps, once, met⟩ := of_decide_eq_true ends
  exact ⟨trace, s, run, sleeps, once, nothing_sleeps receives 0 trace s run met⟩

def awaitsTask : Nat → Op Nat Nat Nat
  | 0 => .create 1 fun t => t + 2
  | 1 => .result (.data 5)
  | n + 2 => .await n fun _ => 1

theorem task_sleeps : ∃ (trace : List (Step Nat Nat Nat)) (s : State Nat Nat Nat),
    (machine awaitsTask 0).Run trace s ∧ Sleeps s ∧ s.awaits .main = some (.task 0) ∧
      s.isFinished (.task 0) = true := by
  obtain ⟨trace, s, run, ends⟩ := Machine.run_of_check (M := machine awaitsTask 0) (s := begun 0) rfl
    [.go, .go, .go, .go, .go, .go, .go, .go, .go]
    (fun r => decide ((r.2.activity = .run ∧ r.2.phase = .select) ∧
      r.2.awaits .main = some (.task 0) ∧ r.2.isFinished (.task 0) = true)) (by decide +kernel)
  obtain ⟨sleeps, awaits, finished⟩ := of_decide_eq_true ends
  exact ⟨trace, s, run, sleeps, awaits, finished⟩

end NetworkProgramming.EventLoop
