import Mathlib.Data.List.Basic
import NetworkProgramming.EventLoop

/-!
Where the coroutines are while the loop runs. Most steps take one coroutine from one place to
another and finish and create nothing, so that the others stay where they are.
-/

namespace NetworkProgramming.EventLoop

variable {Node Sock Data : Type*}

def Phase.over : Phase Data → Bool
  | .returned _ | .raised => true
  | _ => false

namespace State

def isFinished (s : State Node Sock Data) (f : FutureId) : Bool := (s.future f).isFinished

def result (s : State Node Sock Data) (f : FutureId) : Value Data := (s.future f).result

def Made (s : State Node Sock Data) : FutureId → Prop
  | .socket n => n < s.sockets
  | .task t => t < s.tasks

def waiting (s : State Node Sock Data) : List Nat :=
  match s.phase with
  | .tasks i => s.tasksToRun.drop i
  | .select => []
  | _ => s.tasksToRun

/-- Main is going to be resumed before the next select, and `f` is not finished once more. -/
def Excused (s : State Node Sock Data) (f : FutureId) : Prop :=
  s.phase = .loop ∨
  (∃ rest, s.phase = .events rest ∧ (∀ n ∈ rest, f ≠ .socket n) ∧ ∀ v, s.activity ≠ .setResult f v) ∨
  s.phase = .raised

/-- A coroutine may await a finished future, when it is about to be resumed. -/
def Owing (s : State Node Sock Data) (f : FutureId) : Who → Prop
  | .main => s.Excused f
  | .task t => ∃ v, s.activity = .callback (.task t) v

def Sits (s : State Node Sock Data) (who : Who) : Coro Node Data → Prop
  | .fresh _ =>
      match who with
      | .main => s.phase = .first
      | .task t => s.taskState t = none ∧ t ∈ s.waiting
  | .suspended f _ =>
      s.Made f ∧ (s.isFinished f = true → s.Owing f who) ∧
        (s.isFinished f = false → who = .main → s.currentResult = .future f)
  | .running => ∃ node own, s.activity = .running who node own
  | .finished =>
      match who with
      | .main => s.phase.over = true
      | .task t => t < s.tasks →
          s.isFinished (.task t) = true ∨ ∃ v, s.activity = .setResult (.task t) v

def owes (s : State Node Sock Data) (c : Coro Node Data) : List (Value Data) :=
  match c.awaits with
  | some f => if s.isFinished f = true then [s.result f] else []
  | none => []

def owed (s : State Node Sock Data) (who : Who) : List (Value Data) := s.owes (s.coro who)

end State

structure Inv (s : State Node Sock Data) : Prop where
  sits : ∀ who, s.Sits who (s.coro who)
  ran : ∀ who node own, s.activity = .running who node own → s.coro who = .running
  unborn : ∀ t, s.tasks ≤ t → s.coro (.task t) = .finished
  registered : ∀ sock n, s.registered sock = some n → n < s.sockets
  apart : ∀ a b n, s.registered a = some n → s.registered b = some n → a = b
  result : ∀ f, s.isFinished f = false → s.result f = .none
  closed : ∀ t, t < s.tasks → s.isFinished (.task t) = true → s.coro (.task t) = .finished
  setting : ∀ t v, s.activity = .setResult (.task t) v →
    s.isFinished (.task t) = false ∧ s.coro (.task t) = .finished
  asleep : s.phase = .select → s.activity = .run
  index : ∀ i, s.phase = .tasks i → i ≤ s.tasksToRun.length
  callback : ∀ who v, s.activity = .callback who v →
    ∃ f, s.awaits who = some f ∧ s.isFinished f = true
  batch : ∀ rest, s.phase = .events rest →
    rest.Nodup ∧ ∀ n v, s.activity = .setResult (.socket n) v → n ∉ rest

theorem awaits_suspended {c : Coro Node Data} {f : FutureId} (awaits : c.awaits = some f) :
    ∃ rest, c = .suspended f rest := by
  cases c with
  | suspended g rest =>
      cases awaits
      exact ⟨rest, rfl⟩
  | fresh _ => cases awaits
  | running => cases awaits
  | finished => cases awaits

theorem Inv.awaiting {s : State Node Sock Data} (inv : Inv s) {who : Who} {f : FutureId}
    (awaits : s.awaits who = some f) :
    s.Made f ∧ (s.isFinished f = true → s.Owing f who) ∧
      (s.isFinished f = false → who = .main → s.currentResult = .future f) := by
  obtain ⟨rest, same⟩ := awaits_suspended awaits
  have sits := inv.sits who
  rw [same] at sits
  exact sits

/-- One coroutine goes from one place to another, or none does; nothing is finished and nothing
created. -/
structure Moves (s after : State Node Sock Data) (who : Who) (c : Coro Node Data) : Prop where
  coro : after.coro = Function.update s.coro who c
  isFinished : after.isFinished = s.isFinished
  result : after.result = s.result
  tasks : after.tasks = s.tasks
  sockets : after.sockets = s.sockets
  registered : after.registered = s.registered
  alone : ∀ w, w ≠ who → s.coro w ≠ .running
  unset : ∀ f v, s.activity ≠ .setResult f v
  called : ∀ t v, s.activity = .callback (.task t) v → who = .task t
  self : after.Sits who c
  first : s.phase = .first → who = .main ∨ after.phase = .first
  taskState : ∀ t, .task t ≠ who → after.taskState t = s.taskState t
  waiting : ∀ t, .task t ≠ who → s.taskState t = none → t ∈ s.waiting → t ∈ after.waiting
  excused : who ≠ .main → ∀ f, s.isFinished f = true → s.Excused f → after.Excused f
  ended : who ≠ .main → s.phase.over = true → after.phase.over = true
  current : who ≠ .main → after.currentResult = s.currentResult
  born : ∀ t, who = .task t → t < s.tasks
  closed : ∀ t, who = .task t → s.isFinished (.task t) = true → c = .finished
  setting : ∀ t v, after.activity = .setResult (.task t) v →
    s.isFinished (.task t) = false ∧ who = .task t ∧ c = .finished
  asleep : after.phase = .select → after.activity = .run
  index : ∀ i, after.phase = .tasks i → i ≤ after.tasksToRun.length
  batch : ∀ rest, after.phase = .events rest →
    rest.Nodup ∧ ∀ n v, after.activity = .setResult (.socket n) v → n ∉ rest
  uncalled : ∀ w v, after.activity ≠ .callback w v
  ran : ∀ w node own, after.activity = .running w node own → w = who ∧ c = .running

theorem Moves.made {s after : State Node Sock Data} {who : Who} {c : Coro Node Data}
    (moves : Moves s after who c) {f : FutureId} (made : s.Made f) : after.Made f := by
  cases f with
  | socket n =>
      change n < after.sockets
      rw [moves.sockets]
      exact made
  | task t =>
      change t < after.tasks
      rw [moves.tasks]
      exact made

theorem Moves.others {s after : State Node Sock Data} {who : Who} {c : Coro Node Data}
    (moves : Moves s after who c) {w : Who} (differ : w ≠ who) (sits : s.Sits w (s.coro w)) :
    after.Sits w (s.coro w) := by
  have idle := moves.alone w differ
  cases place : s.coro w with
  | fresh node =>
      rw [place] at sits
      cases w with
      | main => exact (moves.first sits).resolve_left (Ne.symm differ)
      | task t =>
          exact ⟨(moves.taskState t differ).trans sits.1, moves.waiting t differ sits.1 sits.2⟩
  | suspended f rest =>
      rw [place] at sits
      obtain ⟨made, owing, current⟩ := sits
      refine ⟨moves.made made, fun finished => ?_, fun open_ main => ?_⟩
      · rw [moves.isFinished] at finished
        cases w with
        | main => exact moves.excused (Ne.symm differ) f finished (owing finished)
        | task t =>
            obtain ⟨v, called⟩ := owing finished
            exact absurd (moves.called t v called).symm differ
      · rw [moves.isFinished] at open_
        subst main
        exact (moves.current (Ne.symm differ)).trans (current open_ rfl)
  | running => exact absurd place idle
  | finished =>
      rw [place] at sits
      cases w with
      | main => exact moves.ended (Ne.symm differ) sits
      | task t =>
          intro less
          rw [moves.tasks] at less
          rcases sits less with done | ⟨v, set⟩
          · rw [moves.isFinished]
            exact Or.inl done
          · exact absurd set (moves.unset _ v)

theorem Moves.inv {s after : State Node Sock Data} {who : Who} {c : Coro Node Data}
    (moves : Moves s after who c) (inv : Inv s) : Inv after where
  sits w := by
    rw [moves.coro]
    by_cases same : w = who
    · rw [same, Function.update_self]
      exact moves.self
    · rw [Function.update_of_ne same]
      exact moves.others same (inv.sits w)
  ran w node own here := by
    obtain ⟨rfl, running⟩ := moves.ran w node own here
    rw [moves.coro, Function.update_self, running]
  unborn t late := by
    rw [moves.tasks] at late
    have differ : Who.task t ≠ who := fun same => by
      have less := moves.born t same.symm
      omega
    rw [moves.coro, Function.update_of_ne differ]
    exact inv.unborn t late
  registered := by
    rw [moves.registered, moves.sockets]
    exact inv.registered
  apart := by
    rw [moves.registered]
    exact inv.apart
  result := by
    rw [moves.isFinished, moves.result]
    exact inv.result
  closed t less done := by
    rw [moves.tasks] at less
    rw [moves.isFinished] at done
    rw [moves.coro]
    by_cases same : Who.task t = who
    · rw [same, Function.update_self]
      exact moves.closed t same.symm done
    · rw [Function.update_of_ne same]
      exact inv.closed t less done
  setting t v set := by
    obtain ⟨open_, rfl, finished⟩ := moves.setting t v set
    rw [moves.isFinished, moves.coro, Function.update_self]
    exact ⟨open_, finished⟩
  asleep := moves.asleep
  index := moves.index
  callback w v called := absurd called (moves.uncalled w v)
  batch := moves.batch

theorem owes_congr {s after : State Node Sock Data} (finished : after.isFinished = s.isFinished)
    (result : after.result = s.result) (c : Coro Node Data) : after.owes c = s.owes c := by
  rw [State.owes, State.owes, finished, result]

theorem Moves.owed {s after : State Node Sock Data} {who : Who} {c : Coro Node Data}
    (moves : Moves s after who c) (w : Who) :
    after.owed w = if w = who then s.owes c else s.owed w := by
  rw [State.owed, owes_congr moves.isFinished moves.result, moves.coro]
  split
  · rename_i same
    rw [same, Function.update_self]
  · rename_i differ
    rw [Function.update_of_ne differ]
    rfl

theorem Moves.same_owed {s after : State Node Sock Data} {who : Who} {c : Coro Node Data}
    (moves : Moves s after who c) (same : s.owes c = s.owed who) (w : Who) :
    after.owed w = s.owed w := by
  rw [moves.owed]
  split
  · rename_i here
    rw [here, same]
  · rfl

/-! A coroutine that runs. -/

theorem Inv.only {s : State Node Sock Data} (inv : Inv s) {who : Who} {node : Node} {own : Bool}
    (here : s.activity = .running who node own) (w : Who) (differ : w ≠ who) :
    s.coro w ≠ .running := by
  intro also
  have sits := inv.sits w
  rw [also] at sits
  obtain ⟨_, _, there⟩ := sits
  rw [here] at there
  cases there
  exact differ rfl

theorem Inv.idle {s : State Node Sock Data} (inv : Inv s)
    (here : ∀ who node own, s.activity ≠ .running who node own) (w : Who) : s.coro w ≠ .running := by
  intro also
  have sits := inv.sits w
  rw [also] at sits
  obtain ⟨node, own, there⟩ := sits
  exact here w node own there

theorem Inv.live {s : State Node Sock Data} (inv : Inv s) {t : Nat} {node : Node} {own : Bool}
    (here : s.activity = .running (.task t) node own) :
    t < s.tasks ∧ s.isFinished (.task t) = false := by
  have ran := inv.ran _ _ _ here
  have less : t < s.tasks := by
    by_contra late
    rw [inv.unborn t (by omega)] at ran
    cases ran
  refine ⟨less, Bool.eq_false_iff.mpr fun done => ?_⟩
  rw [inv.closed t less done] at ran
  cases ran

theorem excused_moves {s after : State Node Sock Data} {f : FutureId} (excused : s.Excused f)
    (phase : after.phase = s.phase) (apart : ∀ v, after.activity ≠ .setResult f v) :
    after.Excused f := by
  rcases excused with loop | ⟨rest, events, other, _⟩ | raised
  · exact Or.inl (phase.trans loop)
  · exact Or.inr (Or.inl ⟨rest, phase.trans events, other, apart⟩)
  · exact Or.inr (Or.inr (phase.trans raised))

theorem main_yields {s : State Node Sock Data} (inv : Inv s) {node : Node} {own : Bool}
    (here : s.activity = .running .main node own) (f : FutureId) (rest : Value Data → Node)
    (made : s.Made f) (open_ : s.isFinished f = false) (b : Bool) :
    Moves s (s.yields .main f rest b) .main (.suspended f rest) where
  coro := rfl
  isFinished := rfl
  result := rfl
  tasks := rfl
  sockets := rfl
  registered := rfl
  alone := inv.only here
  unset g v set := by
    rw [here] at set
    cases set
  called t v called := by
    rw [here] at called
    cases called
  self := by
    refine ⟨made, fun (finished : s.isFinished f = true) => ?_, fun _ _ => rfl⟩
    cases open_.symm.trans finished
  first _ := Or.inl rfl
  taskState _ _ := rfl
  waiting t _ _ member := by
    cases phase : s.phase with
    | first | loop | returned _ | raised | events _ =>
        simp only [State.waiting, phase] at member
        simpa [State.waiting, State.yields, State.setCoro, phase] using member
    | tasks i =>
        simp only [State.waiting, phase] at member
        simpa [State.waiting, State.yields, State.setCoro, phase] using List.mem_of_mem_drop member
    | select => simp [State.waiting, phase] at member
  excused other := absurd rfl other
  ended other := absurd rfl other
  current other := absurd rfl other
  born t same := by cases same
  closed t same := by cases same
  setting t v set := by cases set
  asleep _ := rfl
  index i phase := by
    have zero : i = 0 := by
      cases phases : s.phase <;> simp [State.yields, State.setCoro, phases] at phase <;> omega
    rw [zero]
    exact Nat.zero_le _
  batch rest phase := by
    cases phases : s.phase <;> simp [State.yields, State.setCoro, phases] at phase
  uncalled w v called := by cases called
  ran w node own running := by cases running

theorem task_yields {s : State Node Sock Data} (inv : Inv s) {t : Nat} {node : Node} {own : Bool}
    (here : s.activity = .running (.task t) node own) (f : FutureId) (rest : Value Data → Node)
    (made : s.Made f) (open_ : s.isFinished f = false) :
    Moves s { s.setCoro (.task t) (.suspended f rest) with
      activity := .run
      taskState := Function.update s.taskState t (some f) } (.task t) (.suspended f rest) where
  coro := rfl
  isFinished := rfl
  result := rfl
  tasks := rfl
  sockets := rfl
  registered := rfl
  alone := inv.only here
  unset g v set := by
    rw [here] at set
    cases set
  called u v called := by
    rw [here] at called
    cases called
  self := by
    refine ⟨made, fun (finished : s.isFinished f = true) => ?_, fun _ main => by cases main⟩
    cases open_.symm.trans finished
  first := Or.inr
  taskState u differ := Function.update_of_ne (fun same => differ (by rw [same])) _ _
  waiting _ _ _ member := member
  excused _ g _ excused := excused_moves excused rfl fun v set => by cases set
  ended _ over_ := over_
  current _ := rfl
  born u same := by
    cases same
    exact (inv.live here).1
  closed u same done := by
    cases same
    cases (inv.live here).2.symm.trans done
  setting u v set := by cases set
  asleep _ := rfl
  index := inv.index
  batch rest phase := ⟨(inv.batch rest phase).1, fun n v set => by cases set⟩
  uncalled w v called := by cases called
  ran w node own running := by cases running

theorem main_returns {s : State Node Sock Data} (inv : Inv s) {node : Node} {own : Bool}
    (here : s.activity = .running .main node own) (v : Value Data) :
    Moves s (s.returns .main v) .main .finished where
  coro := rfl
  isFinished := rfl
  result := rfl
  tasks := rfl
  sockets := rfl
  registered := rfl
  alone := inv.only here
  unset g v set := by
    rw [here] at set
    cases set
  called t v called := by
    rw [here] at called
    cases called
  self := by
    cases phase : s.phase <;> simp [State.Sits, State.returns, State.setCoro, phase, Phase.over]
  first _ := Or.inl rfl
  taskState _ _ := rfl
  waiting t _ _ member := by
    cases phase : s.phase with
    | first | loop | returned _ | raised | events _ =>
        simp only [State.waiting, phase] at member
        simpa [State.waiting, State.returns, State.setCoro, phase] using member
    | tasks i =>
        simp only [State.waiting, phase] at member
        simpa [State.waiting, State.returns, State.setCoro, phase] using List.mem_of_mem_drop member
    | select => simp [State.waiting, phase] at member
  excused other := absurd rfl other
  ended other := absurd rfl other
  current other := absurd rfl other
  born t same := by cases same
  closed t same := by cases same
  setting t v set := by cases set
  asleep _ := rfl
  index i phase := by
    cases phases : s.phase <;> simp [State.returns, State.setCoro, phases] at phase
  batch rest phase := by
    cases phases : s.phase <;> simp [State.returns, State.setCoro, phases] at phase
  uncalled w v called := by cases called
  ran w node own running := by cases running

theorem task_returns {s : State Node Sock Data} (inv : Inv s) {t : Nat} {node : Node} {own : Bool}
    (here : s.activity = .running (.task t) node own) (v : Value Data) :
    Moves s (s.returns (.task t) v) (.task t) .finished where
  coro := rfl
  isFinished := rfl
  result := rfl
  tasks := rfl
  sockets := rfl
  registered := rfl
  alone := inv.only here
  unset g v set := by
    rw [here] at set
    cases set
  called u v called := by
    rw [here] at called
    cases called
  self := fun _ => Or.inr ⟨v, rfl⟩
  first := Or.inr
  taskState _ _ := rfl
  waiting _ _ _ member := member
  excused _ g finished excused := excused_moves excused rfl fun w set => by
    cases set
    cases (inv.live here).2.symm.trans finished
  ended _ over_ := over_
  current _ := rfl
  born u same := by
    cases same
    exact (inv.live here).1
  closed _ _ _ := rfl
  setting u v set := by
    cases set
    exact ⟨(inv.live here).2, rfl, rfl⟩
  asleep phase := by
    have idle := inv.asleep phase
    rw [here] at idle
    cases idle
  index := inv.index
  batch rest phase := ⟨(inv.batch rest phase).1, fun n v set => by cases set⟩
  uncalled w v called := by cases called
  ran w node own running := by cases running

theorem goes_on {s : State Node Sock Data} (inv : Inv s) {who : Who} {node : Node} {own : Bool}
    (here : s.activity = .running who node own) (next : Node) :
    Moves s { s with activity := .running who next own } who .running where
  coro := by
    rw [← inv.ran who node own here]
    exact (Function.update_eq_self who s.coro).symm
  isFinished := rfl
  result := rfl
  tasks := rfl
  sockets := rfl
  registered := rfl
  alone := inv.only here
  unset g v set := by
    rw [here] at set
    cases set
  called u v called := by
    rw [here] at called
    cases called
  self := ⟨next, own, rfl⟩
  first := Or.inr
  taskState _ _ := rfl
  waiting _ _ _ member := member
  excused _ g _ excused := excused_moves excused rfl fun w set => by cases set
  ended _ over_ := over_
  current _ := rfl
  born u same := by
    subst same
    exact (inv.live here).1
  closed u same done := by
    subst same
    cases (inv.live here).2.symm.trans done
  setting u v set := by cases set
  asleep phase := by
    have idle := inv.asleep phase
    rw [here] at idle
    cases idle
  index := inv.index
  batch rest phase := ⟨(inv.batch rest phase).1, fun n v set => by cases set⟩
  uncalled w v called := by cases called
  ran w node own running := by
    cases running
    exact ⟨rfl, rfl⟩

/-! A coroutine that is resumed or started. -/

theorem resume_moves {s : State Node Sock Data} (inv : Inv s) {who : Who} {f : FutureId}
    {rest : Value Data → Node} (awaits : s.coro who = .suspended f rest)
    (idle : ∀ w node own, s.activity ≠ .running w node own) (unset : ∀ f v, s.activity ≠ .setResult f v)
    (called : ∀ t v, s.activity = .callback (.task t) v → who = .task t)
    (awake : s.phase ≠ .select) :
    s.resume who = ({ s.setCoro who .running with
      activity := .running who (rest (s.result f)) false }, .resumes who (s.result f)) ∧
    Moves s { s.setCoro who .running with
      activity := .running who (rest (s.result f)) false } who .running := by
  refine ⟨by simp only [State.resume, awaits]; rfl, ?_⟩
  exact {
    coro := rfl, isFinished := rfl, result := rfl, tasks := rfl, sockets := rfl, registered := rfl
    alone := fun w _ => inv.idle idle w
    unset := unset
    called := called
    self := ⟨_, false, rfl⟩
    first := Or.inr
    taskState := fun _ _ => rfl
    waiting := fun _ _ _ member => member
    excused := fun _ g _ excused => excused_moves excused rfl fun w set => by cases set
    ended := fun _ over_ => over_
    current := fun _ => rfl
    born := fun t same => by
      by_contra late
      rw [same, inv.unborn t (by omega)] at awaits
      cases awaits
    closed := fun t same done => by
      subst same
      have less : t < s.tasks := by
        by_contra late
        rw [inv.unborn t (by omega)] at awaits
        cases awaits
      rw [inv.closed t less done] at awaits
      cases awaits
    setting := fun t v set => by cases set
    asleep := fun phase => absurd phase awake
    index := inv.index
    batch := fun rest phase => ⟨(inv.batch rest phase).1, fun n v set => by cases set⟩
    uncalled := fun w v called => by cases called
    ran := fun w node own running => by
      cases running
      exact ⟨rfl, rfl⟩ }

theorem first_moves {s : State Node Sock Data} (inv : Inv s) {node : Node}
    (here : s.activity = .run) (phase : s.phase = .first) :
    Moves s { s.setCoro .main .running with activity := .running .main node true } .main .running where
  coro := rfl
  isFinished := rfl
  result := rfl
  tasks := rfl
  sockets := rfl
  registered := rfl
  alone w _ := inv.idle (fun _ _ _ there => by rw [here] at there; cases there) w
  unset g v set := by
    rw [here] at set
    cases set
  called u v called := by
    rw [here] at called
    cases called
  self := ⟨node, true, rfl⟩
  first := Or.inr
  taskState _ _ := rfl
  waiting _ _ _ member := member
  excused other := absurd rfl other
  ended other := absurd rfl other
  current other := absurd rfl other
  born t same := by cases same
  closed t same := by cases same
  setting t v set := by cases set
  asleep now := by cases phase.symm.trans now
  index := inv.index
  batch rest phase := ⟨(inv.batch rest phase).1, fun n v set => by cases set⟩
  uncalled w v called := by cases called
  ran w node own running := by
    cases running
    exact ⟨rfl, rfl⟩

theorem not_excused {s : State Node Sock Data} {i : Nat} {f : FutureId} (phase : s.phase = .tasks i) :
    ¬ s.Excused f := by
  rintro (loop | ⟨rest, events, _⟩ | raised)
  · rw [phase] at loop
    cases loop
  · rw [phase] at events
    cases events
  · rw [phase] at raised
    cases raised

theorem turn_moves {s : State Node Sock Data} (inv : Inv s) {i t : Nat} {node : Node}
    (here : s.activity = .run) (phase : s.phase = .tasks i) (turn : s.tasksToRun[i]? = some t)
    (fresh : s.coro (.task t) = .fresh node) :
    Moves s { ({ s with phase := .tasks (i + 1) } : State Node Sock Data).setCoro (.task t) .running with
      activity := .running (.task t) node true } (.task t) .running where
  coro := rfl
  isFinished := rfl
  result := rfl
  tasks := rfl
  sockets := rfl
  registered := rfl
  alone w _ := inv.idle (fun _ _ _ there => by rw [here] at there; cases there) w
  unset g v set := by
    rw [here] at set
    cases set
  called u v called := by
    rw [here] at called
    cases called
  self := ⟨node, true, rfl⟩
  first now := by
    rw [phase] at now
    cases now
  taskState _ _ := rfl
  waiting u differ _ member := by
    obtain ⟨less, same⟩ := List.getElem?_eq_some_iff.mp turn
    simp only [State.waiting, phase] at member
    -- task t has had its turn, the ones behind it still wait
    rw [List.drop_eq_getElem_cons less, same] at member
    exact (List.mem_cons.mp member).resolve_left fun also => differ (by rw [also])
  excused _ g _ excused := absurd excused (not_excused phase)
  ended _ over_ := by
    rw [phase] at over_
    cases over_
  current _ := rfl
  born u same := by
    cases same
    by_contra late
    rw [inv.unborn t (by omega)] at fresh
    cases fresh
  closed u same done := by
    cases same
    have less : t < s.tasks := by
      by_contra late
      rw [inv.unborn t (by omega)] at fresh
      cases fresh
    rw [inv.closed t less done] at fresh
    cases fresh
  setting u v set := by cases set
  asleep phases := by cases phases
  index j phases := by
    cases phases
    exact (List.getElem?_eq_some_iff.mp turn).1
  batch rest phases := by cases phases
  uncalled w v called := by cases called
  ran w node own running := by
    cases running
    exact ⟨rfl, rfl⟩

/-! A callback is registered. -/

theorem add_is_finished (s : State Node Sock Data) (f : FutureId) (who : Who) :
    (s.addDoneCallback f who).isFinished = s.isFinished := by
  funext g
  by_cases same : g = f
  · simp [State.isFinished, State.addDoneCallback, same]
  · simp [State.isFinished, State.addDoneCallback, same]

theorem add_result (s : State Node Sock Data) (f : FutureId) (who : Who) :
    (s.addDoneCallback f who).result = s.result := by
  funext g
  by_cases same : g = f
  · simp [State.result, State.addDoneCallback, same]
  · simp [State.result, State.addDoneCallback, same]

theorem Moves.add {s after : State Node Sock Data} {who : Who} {c : Coro Node Data}
    (moves : Moves s after who c) (f : FutureId) (w : Who) :
    Moves s (after.addDoneCallback f w) who c where
  coro := moves.coro
  isFinished := (add_is_finished after f w).trans moves.isFinished
  result := (add_result after f w).trans moves.result
  tasks := moves.tasks
  sockets := moves.sockets
  registered := moves.registered
  alone := moves.alone
  unset := moves.unset
  called := moves.called
  self := by
    have self := moves.self
    cases c with
    | fresh _ => exact self
    | running => exact self
    | suspended g rest =>
        obtain ⟨made, owing, current⟩ := self
        rw [← add_is_finished after f w] at owing current
        exact ⟨made, owing, current⟩
    | finished =>
        cases who with
        | main => exact self
        | task t =>
            intro less
            rw [add_is_finished]
            exact self less
  first := moves.first
  taskState := moves.taskState
  waiting := moves.waiting
  excused := moves.excused
  ended := moves.ended
  current := moves.current
  born := moves.born
  closed := moves.closed
  setting := moves.setting
  asleep := moves.asleep
  index := moves.index
  batch := moves.batch
  uncalled := moves.uncalled
  ran := moves.ran

theorem yields_moves {s : State Node Sock Data} (inv : Inv s) {who : Who} {node : Node} {own : Bool}
    (here : s.activity = .running who node own) (f : FutureId) (rest : Value Data → Node)
    (made : s.Made f) (open_ : s.isFinished f = false) :
    Moves s (s.yields who f rest own) who (.suspended f rest) := by
  cases who with
  | main => exact main_yields inv here f rest made open_ own
  | task t =>
      have moves := task_yields inv here f rest made open_
      cases own with
      | false => exact moves
      | true => exact moves.add f (.task t)

theorem returns_moves {s : State Node Sock Data} (inv : Inv s) {who : Who} {node : Node} {own : Bool}
    (here : s.activity = .running who node own) (v : Value Data) :
    Moves s (s.returns who v) who .finished := by
  cases who with
  | main => exact main_returns inv here v
  | task t => exact task_returns inv here v

/-! What run does itself. -/

theorem stays {s after : State Node Sock Data} (inv : Inv s) (here : s.activity = .run)
    (coro : after.coro = s.coro) (isFinished : after.isFinished = s.isFinished)
    (result : after.result = s.result) (counts : after.tasks = s.tasks ∧ after.sockets = s.sockets)
    (registered : after.registered = s.registered) (taskState : after.taskState = s.taskState)
    (waiting : ∀ t, s.taskState t = none → t ∈ s.waiting → t ∈ after.waiting)
    (self : ∀ f, s.awaits .main = some f → (s.isFinished f = true → after.Excused f) ∧
      (s.isFinished f = false → after.currentResult = s.currentResult))
    (phase : s.phase ≠ .first ∧ s.phase.over = false)
    (activity : (∃ n d, after.activity = .setResult (.socket n) (.data d) ∧ after.phase ≠ .select) ∨
      after.activity = .run)
    (index : ∀ i, after.phase = .tasks i → i ≤ after.tasksToRun.length)
    (batch : ∀ rest, after.phase = .events rest →
      rest.Nodup ∧ ∀ n v, after.activity = .setResult (.socket n) v → n ∉ rest) :
    Moves s after .main (s.coro .main) where
  coro := coro.trans (Function.update_eq_self _ _).symm
  isFinished := isFinished
  result := result
  tasks := counts.1
  sockets := counts.2
  registered := registered
  alone w _ := inv.idle (fun _ _ _ there => by rw [here] at there; cases there) w
  unset g v set := by
    rw [here] at set
    cases set
  called u v called := by
    rw [here] at called
    cases called
  self := by
    have sits := inv.sits .main
    cases place : s.coro .main with
    | fresh node =>
        rw [place] at sits
        exact absurd sits phase.1
    | running => exact absurd place (inv.idle (fun _ _ _ there => by rw [here] at there; cases there) _)
    | finished =>
        rw [place] at sits
        exact absurd phase.2 (by rw [show s.phase.over = true from sits]; decide)
    | suspended f rest =>
        have awaits : s.awaits .main = some f := by rw [State.awaits, place]; rfl
        obtain ⟨made, _, current⟩ := inv.awaiting awaits
        refine ⟨?_, ?_, ?_⟩
        · cases f with
          | socket n => exact lt_of_lt_of_eq made counts.2.symm
          | task t => exact lt_of_lt_of_eq made counts.1.symm
        · rw [isFinished]
          exact (self f awaits).1
        · rw [isFinished]
          intro open_ _
          exact ((self f awaits).2 open_).trans (current open_ rfl)
  first now := absurd now phase.1
  taskState t _ := congrFun taskState t
  waiting t _ := waiting t
  excused other := absurd rfl other
  ended other := absurd rfl other
  current other := absurd rfl other
  born t same := by cases same
  closed t same := by cases same
  setting t v set := by
    rcases activity with ⟨n, d, event, _⟩ | run
    · rw [event] at set
      cases set
    · rw [run] at set
      cases set
  asleep select := by
    rcases activity with ⟨n, d, event, awake⟩ | run
    · exact absurd select awake
    · exact run
  index := index
  batch := batch
  uncalled w v called := by
    rcases activity with ⟨n, d, event, _⟩ | run
    · rw [event] at called
      cases called
    · rw [run] at called
      cases called
  ran w node own ran := by
    rcases activity with ⟨n, d, event, _⟩ | run
    · rw [event] at ran
      cases ran
    · rw [run] at ran
      cases ran

end NetworkProgramming.EventLoop
