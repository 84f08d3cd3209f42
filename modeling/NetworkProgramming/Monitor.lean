import NetworkProgramming.Machine
import NetworkProgramming.Threads

/-!
A mutex with condition variables, shared by finitely many threads. Code between
acquiring the mutex and releasing it (by unlocking or by waiting) is one atomic
section. A thread that waits is blocked until a signal, a broadcast, a spurious
wake-up or a cancellation; awakened or cancelled, it still has to re-acquire
the mutex, and its next section runs only then. States are those in which no
thread holds the mutex.
-/

namespace NetworkProgramming

inductive Mode where
  | blocked
  | awakened
  | cancelled
  deriving DecidableEq

/-- `outside` keeps what the thread owns between calls, `waiting` the call that
is inside a condition wait. -/
inductive Phase (Local Waiting : Type*) where
  | outside (owned : Local)
  | waiting (mode : Mode) (call : Waiting)
  deriving DecidableEq

inductive Wake (Cond : Type*) where
  | quiet
  | signal (c : Cond)
  | broadcast (c : Cond)

inductive Exit (Local Waiting : Type*) where
  | leave (owned : Local)
  | wait (call : Waiting)

def Exit.phase {Local Waiting : Type*} : Exit Local Waiting → Phase Local Waiting
  | .leave owned => .outside owned
  | .wait call => .waiting .blocked call

/-- What one atomic section does: the shared data it leaves, whom it wakes,
what it reports, and whether it unlocks the mutex or waits. -/
structure Section (Shared Local Waiting Cond Output : Type*) where
  shared : Shared
  wake : Wake Cond
  output : Output
  exit : Exit Local Waiting

/-- `enter` refuses a call that the caller is not allowed to make. `cleanup` is
the cancellation handler of a wait; a monitor without one answers `none`. -/
structure Monitor (Shared Local Waiting Cond Call Result Output : Type*) where
  condOf : Waiting → Cond
  enter : Local → Call → Shared → Option (Section Shared Local Waiting Cond Output)
  resume : Result → Waiting → Shared → Section Shared Local Waiting Cond Output
  cleanup : Waiting → Shared → Option (Section Shared Local Waiting Cond Output)

namespace Monitor

variable {Thread Shared Local Waiting Cond Call Result Output : Type*}

/-- A section may name the thread its signal wakes. -/
inductive Action (Thread Call Result : Type*) where
  | enter (t : Thread) (call : Call) (target : Option Thread)
  | resume (t : Thread) (result : Result) (target : Option Thread)
  | cleanup (t : Thread) (target : Option Thread)
  | spurious (t : Thread)
  | cancel (t : Thread)
  deriving DecidableEq

structure State (Thread Shared Local Waiting : Type*) where
  shared : Shared
  phase : Thread → Phase Local Waiting

def blockedOn [DecidableEq Cond] (condOf : Waiting → Cond) (c : Cond) :
    Phase Local Waiting → Bool
  | .waiting .blocked call => decide (condOf call = c)
  | _ => false

def awaken : Phase Local Waiting → Phase Local Waiting
  | .waiting .blocked call => .waiting .awakened call
  | p => p

def awakenAll [DecidableEq Cond] (condOf : Waiting → Cond) (c : Cond)
    (phase : Thread → Phase Local Waiting) : Thread → Phase Local Waiting :=
  fun t => if blockedOn condOf c (phase t) then awaken (phase t) else phase t

variable [Fintype Thread] [DecidableEq Thread] [DecidableEq Cond]

/-- A signal wakes the named thread, which must be blocked on the condition; no
name is accepted only when nobody is. -/
def wakeUp (condOf : Waiting → Cond) (phase : Thread → Phase Local Waiting) :
    Wake Cond → Option Thread → Option (Thread → Phase Local Waiting)
  | .quiet, none => some phase
  | .signal c, some t =>
      if blockedOn condOf c (phase t) then
        some (Function.update phase t (awaken (phase t))) else none
  | .signal c, none =>
      if ∀ t, blockedOn condOf c (phase t) = false then some phase else none
  | .broadcast c, none => some (awakenAll condOf c phase)
  | _, some _ => none

def sectionOf (M : Monitor Shared Local Waiting Cond Call Result Output)
    (s : State Thread Shared Local Waiting) :
    Action Thread Call Result →
      Option (Thread × Option Thread × Section Shared Local Waiting Cond Output)
  | .enter t call target => match s.phase t with
      | .outside owned => (M.enter owned call s.shared).map fun sec => (t, target, sec)
      | _ => none
  | .resume t result target => match s.phase t with
      | .waiting .awakened call => some (t, target, M.resume result call s.shared)
      | _ => none
  | .cleanup t target => match s.phase t with
      | .waiting .cancelled call => (M.cleanup call s.shared).map fun sec => (t, target, sec)
      | _ => none
  | .spurious _ => none
  | .cancel _ => none

/-- A blocked thread leaves the wait queue without running code. -/
def shiftOf (M : Monitor Shared Local Waiting Cond Call Result Output)
    (s : State Thread Shared Local Waiting) :
    Action Thread Call Result → Option (Thread × Phase Local Waiting)
  | .spurious t => match s.phase t with
      | .waiting .blocked call => some (t, .waiting .awakened call)
      | _ => none
  | .cancel t => match s.phase t with
      | .waiting .blocked call =>
          if (M.cleanup call s.shared).isSome then some (t, .waiting .cancelled call) else none
      | _ => none
  | _ => none

def step (M : Monitor Shared Local Waiting Cond Call Result Output)
    (s : State Thread Shared Local Waiting) (a : Action Thread Call Result) :
    Option (State Thread Shared Local Waiting × Option Output) :=
  match M.sectionOf s a with
  | some (t, target, sec) =>
      (wakeUp M.condOf s.phase sec.wake target).map fun phase =>
        (⟨sec.shared, Function.update phase t sec.exit.phase⟩, some sec.output)
  | none => (M.shiftOf s a).map fun moved =>
      (⟨s.shared, Function.update s.phase moved.1 moved.2⟩, none)

def machine (M : Monitor Shared Local Waiting Cond Call Result Output)
    (owned : Local) (first : Shared → Prop) :
    Machine (State Thread Shared Local Waiting) (Action Thread Call Result) (Option Output) where
  start s := first s.shared ∧ ∀ t, s.phase t = .outside owned
  step := M.step

inductive Woken (condOf : Waiting → Cond) (phase : Thread → Phase Local Waiting) :
    Wake Cond → Option Thread → (Thread → Phase Local Waiting) → Prop where
  | quiet : Woken condOf phase .quiet none phase
  | nobody {c : Cond} (absent : ∀ t, blockedOn condOf c (phase t) = false) :
      Woken condOf phase (.signal c) none phase
  | signal {c : Cond} {t : Thread} {call : Waiting}
      (blocked : phase t = .waiting .blocked call) (on : condOf call = c) :
      Woken condOf phase (.signal c) (some t)
        (Function.update phase t (.waiting .awakened call))
  | broadcast {c : Cond} :
      Woken condOf phase (.broadcast c) none (awakenAll condOf c phase)

omit [Fintype Thread] [DecidableEq Thread] in
theorem blocked_on_iff (condOf : Waiting → Cond) (c : Cond) (p : Phase Local Waiting) :
    blockedOn condOf c p = true ↔ ∃ call, p = .waiting .blocked call ∧ condOf call = c := by
  cases p with
  | outside owned => simp [blockedOn]
  | waiting mode call => cases mode <;> simp [blockedOn]

theorem wake_up_woken (condOf : Waiting → Cond) (phase next : Thread → Phase Local Waiting)
    (wake : Wake Cond) (target : Option Thread)
    (woke : wakeUp condOf phase wake target = some next) :
    Woken condOf phase wake target next := by
  cases wake with
  | quiet =>
      cases target with
      | none =>
          simp only [wakeUp, Option.some.injEq] at woke
          subst next
          exact .quiet
      | some t => simp [wakeUp] at woke
  | signal c =>
      cases target with
      | none =>
          simp only [wakeUp, Option.ite_none_right_eq_some, Option.some.injEq] at woke
          obtain ⟨absent, rfl⟩ := woke
          exact .nobody absent
      | some t =>
          simp only [wakeUp, Option.ite_none_right_eq_some, Option.some.injEq] at woke
          obtain ⟨blocked, rfl⟩ := woke
          obtain ⟨call, here, on⟩ := (blocked_on_iff condOf c (phase t)).mp blocked
          simpa only [here, awaken] using Woken.signal here on
  | broadcast c =>
      cases target with
      | none =>
          simp only [wakeUp, Option.some.injEq] at woke
          subst next
          exact .broadcast
      | some t => simp [wakeUp] at woke

theorem signal_enabled (condOf : Waiting → Cond) (phase : Thread → Phase Local Waiting)
    (c : Cond) : ∃ target next, wakeUp condOf phase (.signal c) target = some next := by
  by_cases waits : ∃ t, blockedOn condOf c (phase t) = true
  · obtain ⟨t, blocked⟩ := waits
    exact ⟨some t, _, if_pos blocked⟩
  · exact ⟨none, phase, if_pos fun t => by simpa using not_exists.mp waits t⟩

inductive Effect (M : Monitor Shared Local Waiting Cond Call Result Output)
    (s : State Thread Shared Local Waiting) :
    Action Thread Call Result → State Thread Shared Local Waiting → Option Output → Prop where
  | enter {t : Thread} {owned : Local} {call : Call} {target : Option Thread}
      {sec : Section Shared Local Waiting Cond Output} {phase : Thread → Phase Local Waiting}
      (here : s.phase t = .outside owned) (ran : M.enter owned call s.shared = some sec)
      (woken : Woken M.condOf s.phase sec.wake target phase) :
      Effect M s (.enter t call target)
        ⟨sec.shared, Function.update phase t sec.exit.phase⟩ (some sec.output)
  | resume {t : Thread} {call : Waiting} {result : Result} {target : Option Thread}
      {phase : Thread → Phase Local Waiting}
      (here : s.phase t = .waiting .awakened call)
      (woken : Woken M.condOf s.phase (M.resume result call s.shared).wake target phase) :
      Effect M s (.resume t result target)
        ⟨(M.resume result call s.shared).shared,
          Function.update phase t (M.resume result call s.shared).exit.phase⟩
        (some (M.resume result call s.shared).output)
  | cleanup {t : Thread} {call : Waiting} {target : Option Thread}
      {sec : Section Shared Local Waiting Cond Output} {phase : Thread → Phase Local Waiting}
      (here : s.phase t = .waiting .cancelled call) (ran : M.cleanup call s.shared = some sec)
      (woken : Woken M.condOf s.phase sec.wake target phase) :
      Effect M s (.cleanup t target)
        ⟨sec.shared, Function.update phase t sec.exit.phase⟩ (some sec.output)
  | spurious {t : Thread} {call : Waiting} (here : s.phase t = .waiting .blocked call) :
      Effect M s (.spurious t)
        ⟨s.shared, Function.update s.phase t (.waiting .awakened call)⟩ none
  | cancel {t : Thread} {call : Waiting} (here : s.phase t = .waiting .blocked call)
      (handled : (M.cleanup call s.shared).isSome = true) :
      Effect M s (.cancel t)
        ⟨s.shared, Function.update s.phase t (.waiting .cancelled call)⟩ none

theorem step_effect (M : Monitor Shared Local Waiting Cond Call Result Output)
    (s after : State Thread Shared Local Waiting) (a : Action Thread Call Result)
    (output : Option Output) (stepped : M.step s a = some (after, output)) :
    Effect M s a after output := by
  cases a with
  | enter t call target =>
      cases here : s.phase t with
      | outside owned =>
          cases ran : M.enter owned call s.shared with
          | none => simp [step, sectionOf, shiftOf, here, ran] at stepped
          | some sec =>
              simp only [step, sectionOf, here, ran, Option.map_some,
                Option.map_eq_some_iff, Prod.mk.injEq] at stepped
              obtain ⟨phase, woke, rfl, rfl⟩ := stepped
              exact .enter here ran (wake_up_woken _ _ _ _ _ woke)
      | waiting mode call => simp [step, sectionOf, shiftOf, here] at stepped
  | resume t result target =>
      cases here : s.phase t with
      | outside owned => simp [step, sectionOf, shiftOf, here] at stepped
      | waiting mode call =>
          cases mode with
          | awakened =>
              simp only [step, sectionOf, here, Option.map_eq_some_iff,
                Prod.mk.injEq] at stepped
              obtain ⟨phase, woke, rfl, rfl⟩ := stepped
              exact .resume here (wake_up_woken _ _ _ _ _ woke)
          | blocked => simp [step, sectionOf, shiftOf, here] at stepped
          | cancelled => simp [step, sectionOf, shiftOf, here] at stepped
  | cleanup t target =>
      cases here : s.phase t with
      | outside owned => simp [step, sectionOf, shiftOf, here] at stepped
      | waiting mode call =>
          cases mode with
          | cancelled =>
              cases ran : M.cleanup call s.shared with
              | none => simp [step, sectionOf, shiftOf, here, ran] at stepped
              | some sec =>
                  simp only [step, sectionOf, here, ran, Option.map_some,
                    Option.map_eq_some_iff, Prod.mk.injEq] at stepped
                  obtain ⟨phase, woke, rfl, rfl⟩ := stepped
                  exact .cleanup here ran (wake_up_woken _ _ _ _ _ woke)
          | blocked => simp [step, sectionOf, shiftOf, here] at stepped
          | awakened => simp [step, sectionOf, shiftOf, here] at stepped
  | spurious t =>
      cases here : s.phase t with
      | outside owned => simp [step, sectionOf, shiftOf, here] at stepped
      | waiting mode call =>
          cases mode with
          | blocked =>
              simp only [step, sectionOf, shiftOf, here, Option.map_some,
                Option.some.injEq, Prod.mk.injEq] at stepped
              obtain ⟨rfl, rfl⟩ := stepped
              exact .spurious here
          | awakened => simp [step, sectionOf, shiftOf, here] at stepped
          | cancelled => simp [step, sectionOf, shiftOf, here] at stepped
  | cancel t =>
      cases here : s.phase t with
      | outside owned => simp [step, sectionOf, shiftOf, here] at stepped
      | waiting mode call =>
          cases mode with
          | blocked =>
              by_cases handled : (M.cleanup call s.shared).isSome = true
              · simp only [step, sectionOf, shiftOf, here, handled, ↓reduceIte,
                  Option.map_some, Option.some.injEq, Prod.mk.injEq] at stepped
                obtain ⟨rfl, rfl⟩ := stepped
                exact .cancel here handled
              · simp [step, sectionOf, shiftOf, here, handled] at stepped
          | awakened => simp [step, sectionOf, shiftOf, here] at stepped
          | cancelled => simp [step, sectionOf, shiftOf, here] at stepped

/-! A wake-up takes blocked threads out of the wait queue and does nothing else;
whoever runs a section is not blocked, so it is left alone. -/

omit [Fintype Thread] in
theorem woken_each {condOf : Waiting → Cond} {phase next : Thread → Phase Local Waiting}
    {wake : Wake Cond} {target : Option Thread} (woken : Woken condOf phase wake target next)
    (u : Thread) : next u = phase u ∨
      ∃ call, phase u = .waiting .blocked call ∧ next u = .waiting .awakened call := by
  cases woken with
  | quiet => exact Or.inl rfl
  | nobody _ => exact Or.inl rfl
  | @signal c t call blocked _ =>
      by_cases same : u = t
      · subst u
        exact Or.inr ⟨call, blocked, Function.update_self _ _ _⟩
      · exact Or.inl (Function.update_of_ne same _ _)
  | @broadcast c =>
      by_cases on : blockedOn condOf c (phase u) = true
      · obtain ⟨call, here, _⟩ := (blocked_on_iff condOf c (phase u)).mp on
        exact Or.inr ⟨call, here, by rw [awakenAll, if_pos on, here, awaken]⟩
      · exact Or.inl (if_neg on)

omit [Fintype Thread] in
theorem woken_quiet {condOf : Waiting → Cond} {phase next : Thread → Phase Local Waiting}
    {target : Option Thread} (woken : Woken condOf phase .quiet target next) : next = phase := by
  cases woken with
  | quiet => rfl

omit [Fintype Thread] in
theorem woken_runner {condOf : Waiting → Cond} {phase next : Thread → Phase Local Waiting}
    {wake : Wake Cond} {target : Option Thread} (woken : Woken condOf phase wake target next)
    (t : Thread) (running : ∀ call, phase t ≠ .waiting .blocked call) : next t = phase t := by
  rcases woken_each woken t with same | ⟨call, here, _⟩
  · exact same
  · exact absurd here (running call)

omit [Fintype Thread] [DecidableEq Thread] in
theorem weight_awaken_all (condOf : Waiting → Cond) (c : Cond)
    (phase : Thread → Phase Local Waiting) (weight : Phase Local Waiting → Nat)
    (blind : ∀ call, weight (.waiting .awakened call) = weight (.waiting .blocked call))
    (t : Thread) : weight (awakenAll condOf c phase t) = weight (phase t) := by
  simp only [awakenAll]
  split
  · rename_i blocked
    obtain ⟨call, here, _⟩ := (blocked_on_iff condOf c (phase t)).mp blocked
    simp only [here, awaken, blind]
  · rfl

/-- A weight that does not read the mode keeps its total when a blocked thread
leaves the wait queue. -/
theorem shift_total {phase : Thread → Phase Local Waiting} {t : Thread} {call : Waiting}
    (blocked : phase t = .waiting .blocked call) (mode : Mode)
    (weight : Phase Local Waiting → Nat)
    (blind : weight (.waiting mode call) = weight (.waiting .blocked call)) :
    Threads.total (Function.update phase t (.waiting mode call)) weight =
      Threads.total phase weight := by
  have moved := Threads.total_update phase t (.waiting mode call) weight
  rw [blocked, blind] at moved
  omega

/-- A weight that does not tell awakened threads from blocked ones has the same
total after a wake-up. -/
theorem woken_total {condOf : Waiting → Cond} {phase next : Thread → Phase Local Waiting}
    {wake : Wake Cond} {target : Option Thread} (woken : Woken condOf phase wake target next)
    (weight : Phase Local Waiting → Nat)
    (blind : ∀ call, weight (.waiting .awakened call) = weight (.waiting .blocked call)) :
    Threads.total next weight = Threads.total phase weight := by
  cases woken with
  | quiet => rfl
  | nobody _ => rfl
  | signal blocked _ => exact shift_total blocked .awakened weight (blind _)
  | @broadcast c =>
      exact Threads.total_congr _ _ _ (weight_awaken_all condOf c phase weight blind)

theorem section_total {condOf : Waiting → Cond} {phase next : Thread → Phase Local Waiting}
    {wake : Wake Cond} {target : Option Thread} (woken : Woken condOf phase wake target next)
    (t : Thread) (running : ∀ call, phase t ≠ .waiting .blocked call)
    (p : Phase Local Waiting) (weight : Phase Local Waiting → Nat)
    (blind : ∀ call, weight (.waiting .awakened call) = weight (.waiting .blocked call)) :
    Threads.total (Function.update next t p) weight + weight (phase t) =
      Threads.total phase weight + weight p := by
  have moved := Threads.total_update next t p weight
  rw [woken_runner woken t running, woken_total woken weight blind] at moved
  exact moved

/-! Where single threads stand after a section of thread `t` that leaves it at `p`. -/

omit [Fintype Thread] in
theorem blocked_before {condOf : Waiting → Cond} {phase next : Thread → Phase Local Waiting}
    {wake : Wake Cond} {target : Option Thread} (woken : Woken condOf phase wake target next)
    (u : Thread) (call : Waiting) (blocked : next u = .waiting .blocked call) :
    phase u = .waiting .blocked call := by
  rcases woken_each woken u with same | ⟨_, _, awake⟩
  · exact same ▸ blocked
  · rw [awake] at blocked
    cases blocked

omit [Fintype Thread] in
theorem section_blocked {condOf : Waiting → Cond} {phase next : Thread → Phase Local Waiting}
    {wake : Wake Cond} {target : Option Thread} (woken : Woken condOf phase wake target next)
    (t : Thread) (p : Phase Local Waiting) (u : Thread) (call : Waiting)
    (blocked : Function.update next t p u = .waiting .blocked call) :
    p = .waiting .blocked call ∨ phase u = .waiting .blocked call := by
  by_cases same : u = t
  · subst u
    exact Or.inl (by simpa using blocked)
  · rw [Function.update_of_ne same] at blocked
    exact Or.inr (blocked_before woken u call blocked)

omit [Fintype Thread] in
theorem section_waiting {condOf : Waiting → Cond} {phase next : Thread → Phase Local Waiting}
    {wake : Wake Cond} {target : Option Thread} (woken : Woken condOf phase wake target next)
    (t : Thread) (p : Phase Local Waiting) (u : Thread) (mode : Mode) (call : Waiting)
    (waiting : Function.update next t p u = .waiting mode call) :
    p = .waiting mode call ∨ ∃ before, phase u = .waiting before call := by
  by_cases here : u = t
  · subst u
    exact Or.inl (by simpa using waiting)
  · rw [Function.update_of_ne here] at waiting
    rcases woken_each woken u with same | ⟨w, before, awake⟩
    · exact Or.inr ⟨mode, same ▸ waiting⟩
    · rw [awake] at waiting
      cases waiting
      exact Or.inr ⟨.blocked, before⟩

omit [Fintype Thread] in
theorem signal_awakens {condOf : Waiting → Cond} {phase next : Thread → Phase Local Waiting}
    {c : Cond} {target : Option Thread} (woken : Woken condOf phase (.signal c) target next)
    (t : Thread) (running : ∀ call, phase t ≠ .waiting .blocked call) (p : Phase Local Waiting)
    (u : Thread) (call : Waiting) (blocked : phase u = .waiting .blocked call)
    (on : condOf call = c) :
    ∃ v call', Function.update next t p v = .waiting .awakened call' ∧ condOf call' = c := by
  cases woken with
  | nobody absent =>
      have here := absent u
      simp [blockedOn, blocked, on] at here
  | @signal _ v call' here onto =>
      have other : v ≠ t := by
        rintro rfl
        exact running _ here
      exact ⟨v, call', by rw [Function.update_of_ne other, Function.update_self], onto⟩

omit [Fintype Thread] in
theorem broadcast_unblocks {condOf : Waiting → Cond} {phase next : Thread → Phase Local Waiting}
    {c : Cond} {target : Option Thread} (woken : Woken condOf phase (.broadcast c) target next)
    (u : Thread) (call : Waiting) (blocked : next u = .waiting .blocked call) :
    condOf call ≠ c := by
  intro on
  have before := blocked_before woken u call blocked
  cases woken with
  | broadcast => simp [awakenAll, blockedOn, before, on, awaken] at blocked

/-! Counting who waits. `kind` picks the waiting calls of interest. -/

def atMode (mode : Mode) (kind : Waiting → Bool) : Phase Local Waiting → Bool
  | .outside _ => false
  | .waiting m call => decide (m = mode) && kind call

omit [DecidableEq Thread] [DecidableEq Cond] [Fintype Thread] in
@[simp] theorem at_mode_outside (mode : Mode) (kind : Waiting → Bool) (owned : Local) :
    atMode mode kind (.outside owned) = false := rfl

omit [DecidableEq Thread] [DecidableEq Cond] [Fintype Thread] in
@[simp] theorem at_mode_waiting (mode m : Mode) (kind : Waiting → Bool) (call : Waiting) :
    atMode mode kind (.waiting m call : Phase Local Waiting) = (decide (m = mode) && kind call) :=
  rfl

def waiters (s : State Thread Shared Local Waiting) (mode : Mode) (kind : Waiting → Bool) : Nat :=
  Threads.count s.phase (atMode mode kind)

omit [DecidableEq Thread] in
theorem waiters_pos (s : State Thread Shared Local Waiting) (mode : Mode)
    (kind : Waiting → Bool) :
    0 < waiters s mode kind ↔ ∃ t call, s.phase t = .waiting mode call ∧ kind call = true := by
  rw [waiters, Threads.count_pos]
  constructor
  · rintro ⟨t, found⟩
    cases here : s.phase t with
    | outside owned => simp [atMode, here] at found
    | waiting m call =>
        simp only [atMode, here, Bool.and_eq_true, decide_eq_true_eq] at found
        obtain ⟨rfl, chosen⟩ := found
        exact ⟨t, call, here, chosen⟩
  · rintro ⟨t, call, here, chosen⟩
    exact ⟨t, by simp [atMode, here, chosen]⟩

theorem count_awakened_one (phase : Thread → Phase Local Waiting) (t : Thread)
    (call : Waiting) (blocked : phase t = .waiting .blocked call) (kind : Waiting → Bool) :
    Threads.count (Function.update phase t (.waiting .awakened call)) (atMode .blocked kind) +
        (kind call).toNat = Threads.count phase (atMode .blocked kind) ∧
      Threads.count (Function.update phase t (.waiting .awakened call)) (atMode .awakened kind) =
        Threads.count phase (atMode .awakened kind) + (kind call).toNat := by
  have gone := Threads.count_update phase t (.waiting .awakened call) (atMode .blocked kind)
  have come := Threads.count_update phase t (.waiting .awakened call) (atMode .awakened kind)
  simp [atMode, blocked] at gone come
  omega

def called (phase : Thread → Phase Local Waiting) (target : Option Thread) : Option Waiting :=
  target.bind fun t => match phase t with
    | .waiting .blocked call => some call
    | _ => none

def Action.target : Action Thread Call Result → Option Thread
  | .enter _ _ target => target
  | .resume _ _ target => target
  | .cleanup _ target => target
  | .spurious _ => none
  | .cancel _ => none

def Action.thread : Action Thread Call Result → Thread
  | .enter t _ _ => t
  | .resume t _ _ => t
  | .cleanup t _ => t
  | .spurious t => t
  | .cancel t => t

theorem section_counts {condOf : Waiting → Cond} {phase next : Thread → Phase Local Waiting}
    {wake : Wake Cond} {target : Option Thread} (woken : Woken condOf phase wake target next)
    (single : ∀ c, wake ≠ .broadcast c) (t : Thread)
    (running : ∀ call, phase t ≠ .waiting .blocked call) (p : Phase Local Waiting)
    (kind : Waiting → Bool) :
    Threads.count (Function.update next t p) (atMode .blocked kind) +
        ((called phase target).any kind).toNat =
      Threads.count phase (atMode .blocked kind) + (atMode .blocked kind p).toNat ∧
    Threads.count (Function.update next t p) (atMode .awakened kind) +
        (atMode .awakened kind (phase t)).toNat =
      Threads.count phase (atMode .awakened kind) + ((called phase target).any kind).toNat +
        (atMode .awakened kind p).toNat := by
  have same := woken_runner woken t running
  have gone := Threads.count_update next t p (atMode .blocked kind)
  have come := Threads.count_update next t p (atMode .awakened kind)
  rw [same] at gone come
  -- the runner was not blocked, so only the woken thread leaves the blocked ones
  have unblocked : atMode .blocked kind (phase t) = false := by
    cases here : phase t with
    | outside owned => rfl
    | waiting mode call =>
        have other : mode ≠ .blocked := by
          rintro rfl
          exact running call here
        simp [atMode, other]
  rw [unblocked, Bool.toNat_false] at gone
  cases woken with
  | quiet =>
      simp only [called, Option.bind_none, Option.any_none, Bool.toNat_false]
      omega
  | nobody _ =>
      simp only [called, Option.bind_none, Option.any_none, Bool.toNat_false]
      omega
  | @signal c u call blocked _ =>
      obtain ⟨left, arrived⟩ := count_awakened_one phase u call blocked kind
      simp only [called, Option.bind_some, blocked, Option.any_some]
      omega
  | @broadcast c => exact absurd rfl (single c)

end Monitor

end NetworkProgramming
