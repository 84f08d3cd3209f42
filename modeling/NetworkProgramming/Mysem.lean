import NetworkProgramming.Monitor
import NetworkProgramming.Posix

/-!
The memory-mapped semaphore of unpv22e/my_pxsem_mmap: sem_post.c, sem_wait.c and
sem_trywait.c over one `mysem_t`. `locked` is what `pthread_mutex_lock`
returned, `none` for 0; past it each function is one section of the monitor
whose mutex is `sem_mutex` and whose only condition is `sem_cond`.
-/

namespace NetworkProgramming.Mysem

structure MysemT where
  semCount : UInt32
  semMagic : Nat
  deriving DecidableEq

def semMagic : Nat := 0x67458923

inductive Reply where
  | posted
  | waited
  | failed (error : Errno)
  | waits
  deriving DecidableEq

abbrev SemSection := Section MysemT Unit Unit Unit Reply

def fail (sem : MysemT) (error : Errno) : SemSection :=
  ⟨sem, .quiet, .failed error, .leave ()⟩

def mysemPost (locked : Option Errno) (sem : MysemT) : SemSection :=
  if sem.semMagic ≠ semMagic then fail sem .einval
  else match locked with
    | some n => fail sem n
    | none =>
        { shared := { sem with semCount := sem.semCount + 1 }
          wake := if sem.semCount = 0 then .signal () else .quiet
          output := .posted
          exit := .leave () }

-- `while (sem->sem_count == 0) pthread_cond_wait(..)`, from a test of its condition.
def waitLoop (sem : MysemT) : SemSection :=
  if sem.semCount = 0 then ⟨sem, .quiet, .waits, .wait ()⟩
  else ⟨{ sem with semCount := sem.semCount - 1 }, .quiet, .waited, .leave ()⟩

def mysemWait (locked : Option Errno) (sem : MysemT) : SemSection :=
  if sem.semMagic ≠ semMagic then fail sem .einval
  else match locked with
    | some n => fail sem n
    | none => waitLoop sem

def mysemTrywait (locked : Option Errno) (sem : MysemT) : SemSection :=
  if sem.semMagic ≠ semMagic then fail sem .einval
  else match locked with
    | some n => fail sem n
    | none =>
        if sem.semCount > 0 then
          ⟨{ sem with semCount := sem.semCount - 1 }, .quiet, .waited, .leave ()⟩
        else fail sem .eagain

inductive Call where
  | post (locked : Option Errno)
  | wait (locked : Option Errno)
  | trywait (locked : Option Errno)

def enter (sem : MysemT) : Call → SemSection
  | .post locked => mysemPost locked sem
  | .wait locked => mysemWait locked sem
  | .trywait locked => mysemTrywait locked sem

def monitor : Monitor MysemT Unit Unit Unit Call Unit Reply where
  condOf _ := ()
  enter _ call sem := some (enter sem call)
  resume _ _ sem := waitLoop sem
  cleanup _ _ := none

def posted (sem : MysemT) : SemSection :=
  ⟨{ sem with semCount := sem.semCount + 1 },
    if sem.semCount = 0 then .signal () else .quiet, .posted, .leave ()⟩

theorem enter_cases (sem : MysemT) (call : Call) :
    (∃ error, enter sem call = fail sem error) ∨
    (call = .post none ∧ sem.semMagic = semMagic ∧ enter sem call = posted sem) ∨
    enter sem call = waitLoop sem := by
  by_cases opened : sem.semMagic = semMagic
  · cases call with
    | post locked =>
        cases locked with
        | none => exact Or.inr (Or.inl ⟨rfl, opened, by simp [enter, mysemPost, opened, posted]⟩)
        | some n => exact Or.inl ⟨n, by simp [enter, mysemPost, opened]⟩
    | wait locked =>
        cases locked with
        | none => exact Or.inr (Or.inr (by simp [enter, mysemWait, opened]))
        | some n => exact Or.inl ⟨n, by simp [enter, mysemWait, opened]⟩
    | trywait locked =>
        cases locked with
        | none =>
            by_cases positive : sem.semCount > 0
            · have nonzero : sem.semCount ≠ 0 := UInt32.ne_of_lt positive |>.symm
              exact Or.inr (Or.inr (by
                simp [enter, mysemTrywait, opened, positive, waitLoop, nonzero]))
            · exact Or.inl ⟨.eagain, by simp [enter, mysemTrywait, opened, positive]⟩
        | some n => exact Or.inl ⟨n, by simp [enter, mysemTrywait, opened]⟩
  · exact Or.inl ⟨.einval, by
      cases call <;> simp [enter, mysemPost, mysemWait, mysemTrywait, opened]⟩

section Runs
variable {Thread : Type*} [Fintype Thread] [DecidableEq Thread]

abbrev State (Thread : Type*) := Monitor.State Thread MysemT Unit Unit
abbrev Step (Thread : Type*) :=
  Transition (State Thread) (Monitor.Action Thread Call Unit) (Option Reply)

def machine (value : UInt32) :
    Machine (State Thread) (Monitor.Action Thread Call Unit) (Option Reply) :=
  monitor.machine () fun sem => sem.semCount = value

def blocked (s : State Thread) : Nat := Monitor.waiters s .blocked fun _ => true
def awakened (s : State Thread) : Nat := Monitor.waiters s .awakened fun _ => true

/-- All that the wake-up argument sees of a state. -/
structure View where
  count : UInt32
  blocked : Nat
  awakened : Nat

def view (s : State Thread) : View := ⟨s.shared.semCount, blocked s, awakened s⟩

inductive Move : View → Option Reply → View → Prop where
  | refuse (v : View) (error : Errno) : Move v (some (.failed error)) v
  | spurious (n : UInt32) (b a : Nat) : Move ⟨n, b + 1, a⟩ none ⟨n, b, a + 1⟩
  | postWakes (b a : Nat) : Move ⟨0, b + 1, a⟩ (some .posted) ⟨0 + 1, b, a + 1⟩
  | postSilent (n : UInt32) (b a : Nat) (unneeded : n = 0 → b = 0) :
      Move ⟨n, b, a⟩ (some .posted) ⟨n + 1, b, a⟩
  | take (n : UInt32) (b a : Nat) (positive : n ≠ 0) :
      Move ⟨n, b, a⟩ (some .waited) ⟨n - 1, b, a⟩
  | takeAwakened (n : UInt32) (b a : Nat) (positive : n ≠ 0) :
      Move ⟨n, b, a + 1⟩ (some .waited) ⟨n - 1, b, a⟩
  | block (b a : Nat) : Move ⟨0, b, a⟩ (some .waits) ⟨0, b + 1, a⟩
  | blockAwakened (b a : Nat) : Move ⟨0, b, a + 1⟩ (some .waits) ⟨0, b + 1, a⟩

theorem quiet_counts (s : State Thread) (t : Thread) (here : s.phase t = .outside ())
    (sem : MysemT) (exit : Exit Unit Unit) :
    view ⟨sem, Function.update s.phase t exit.phase⟩ =
      ⟨sem.semCount, blocked s + (match exit with | .wait _ => 1 | .leave _ => 0), awakened s⟩ := by
  have asleep := Threads.count_update s.phase t exit.phase
    (Monitor.atMode .blocked fun _ => true)
  have ready := Threads.count_update s.phase t exit.phase
    (Monitor.atMode .awakened fun _ => true)
  cases exit <;>
    simp [Monitor.atMode, here, Exit.phase] at asleep ready <;>
    simp [view, blocked, awakened, Monitor.waiters, Exit.phase, asleep, ready]

theorem resumed_counts (s : State Thread) (t : Thread)
    (here : s.phase t = .waiting .awakened ()) (sem : MysemT) (exit : Exit Unit Unit) :
    view ⟨sem, Function.update s.phase t exit.phase⟩ =
        ⟨sem.semCount, blocked s + (match exit with | .wait _ => 1 | .leave _ => 0),
          awakened s - 1⟩ ∧ 0 < awakened s := by
  have asleep := Threads.count_update s.phase t exit.phase
    (Monitor.atMode .blocked fun _ => true)
  have ready := Threads.count_update s.phase t exit.phase
    (Monitor.atMode .awakened fun _ => true)
  have present : 0 < awakened s :=
    (Monitor.waiters_pos s .awakened _).mpr ⟨t, (), here, rfl⟩
  cases exit <;>
    simp [Monitor.atMode, here, Exit.phase] at asleep ready <;>
    simp [view, blocked, awakened, Monitor.waiters, Exit.phase, asleep] at present ⊢ <;>
    omega

theorem refused_move (s : State Thread) (t : Thread) (here : s.phase t = .outside ())
    (error : Errno) :
    Move (view s) (some (.failed error))
      (view ⟨s.shared, Function.update s.phase t (.outside ())⟩) := by
  have counts := quiet_counts s t here s.shared (.leave ())
  simp only [Exit.phase, Nat.add_zero] at counts
  rw [counts]
  exact .refuse _ error

theorem loop_move (s : State Thread) (t : Thread) (here : s.phase t = .outside ()) :
    Move (view s) (some (waitLoop s.shared).output)
      (view ⟨(waitLoop s.shared).shared,
        Function.update s.phase t (waitLoop s.shared).exit.phase⟩) := by
  rw [quiet_counts s t here]
  by_cases empty : s.shared.semCount = 0
  · simpa [waitLoop, empty, view] using Move.block (blocked s) (awakened s)
  · simpa [waitLoop, empty, view] using Move.take s.shared.semCount (blocked s) (awakened s) empty

theorem loop_again_move (s : State Thread) (t : Thread)
    (here : s.phase t = .waiting .awakened ()) :
    Move (view s) (some (waitLoop s.shared).output)
      (view ⟨(waitLoop s.shared).shared,
        Function.update s.phase t (waitLoop s.shared).exit.phase⟩) := by
  obtain ⟨counts, present⟩ := resumed_counts s t here (waitLoop s.shared).shared
    (waitLoop s.shared).exit
  obtain ⟨rest, same⟩ := Nat.exists_eq_add_of_lt present
  rw [counts]
  simp only [Nat.zero_add] at same
  by_cases empty : s.shared.semCount = 0
  · simpa [waitLoop, empty, view, same] using Move.blockAwakened (blocked s) rest
  · simpa [waitLoop, empty, view, same] using
      Move.takeAwakened s.shared.semCount (blocked s) rest empty

theorem signal_view (s : State Thread) (t u : Thread) (here : s.phase t = .outside ())
    (asleep : s.phase u = .waiting .blocked ()) (sem : MysemT) :
    view ⟨sem, Function.update (Function.update s.phase u (.waiting .awakened ())) t
        (.outside ())⟩ = ⟨sem.semCount, blocked s - 1, awakened s + 1⟩ ∧ 0 < blocked s := by
  have different : t ≠ u := by
    rintro rfl
    simp [here] at asleep
  obtain ⟨left, came⟩ := Monitor.count_awakened_one s.phase u () asleep fun _ => true
  let woken : State Thread := ⟨s.shared, Function.update s.phase u (.waiting .awakened ())⟩
  have still : woken.phase t = .outside () := by
    simp [woken, Function.update_of_ne different, here]
  have counts := quiet_counts woken t still sem (.leave ())
  simp only [Exit.phase, Nat.add_zero, woken] at counts
  rw [counts]
  simp only [Bool.toNat_true] at left came
  simp only [blocked, awakened, Monitor.waiters, View.mk.injEq, true_and]
  omega

theorem post_move (s : State Thread) (t : Thread) (here : s.phase t = .outside ())
    (target : Option Thread) (phase : Thread → Phase Unit Unit)
    (woken : Monitor.Woken monitor.condOf s.phase
      (if s.shared.semCount = 0 then .signal () else .quiet) target phase) :
    Move (view s) (some .posted)
      (view ⟨{ s.shared with semCount := s.shared.semCount + 1 },
        Function.update phase t (.outside ())⟩) := by
  have alone := quiet_counts s t here
    { s.shared with semCount := s.shared.semCount + 1 } (.leave ())
  simp only [Exit.phase, Nat.add_zero] at alone
  split at woken
  · rename_i empty
    cases woken with
    | nobody absent =>
        have none_blocked : blocked s = 0 := by
          apply Nat.eq_zero_of_not_pos
          intro some_blocked
          obtain ⟨u, call, asleep, _⟩ := (Monitor.waiters_pos s .blocked _).mp some_blocked
          simpa [Monitor.blockedOn, asleep, monitor] using absent u
        rw [alone]
        exact .postSilent _ _ _ fun _ => none_blocked
    | @signal _ u call asleep _ =>
        obtain ⟨counts, present⟩ := signal_view s t u here asleep
          { s.shared with semCount := s.shared.semCount + 1 }
        obtain ⟨rest, same⟩ := Nat.exists_eq_add_of_lt present
        rw [counts]
        simp only [Nat.zero_add] at same
        simpa [view, empty, same] using Move.postWakes rest (awakened s)
  · rename_i positive
    cases woken with
    | quiet =>
        rw [alone]
        exact .postSilent _ _ _ fun zero => absurd zero positive

def posts (e : Step Thread) : Bool :=
  match e.action with
  | .enter _ (.post none) _ => decide (e.before.shared.semMagic = semMagic)
  | _ => false

theorem wait_loop_quiet (sem : MysemT) : (waitLoop sem).wake = .quiet := by
  unfold waitLoop
  split <;> rfl

theorem wait_loop_silent (sem : MysemT) : (waitLoop sem).output ≠ .posted := by
  unfold waitLoop
  split <;> simp

theorem enter_move (s : State Thread) (t : Thread) (here : s.phase t = .outside ())
    (call : Call) (target : Option Thread) (phase : Thread → Phase Unit Unit)
    (woken : Monitor.Woken monitor.condOf s.phase (enter s.shared call).wake target phase) :
    Move (view s) (some (enter s.shared call).output)
      (view ⟨(enter s.shared call).shared,
        Function.update phase t (enter s.shared call).exit.phase⟩) := by
  rcases enter_cases s.shared call with ⟨error, form⟩ | ⟨_, _, form⟩ | form
  · rw [form] at woken ⊢
    cases woken with
    | quiet => exact refused_move s t here error
  · rw [form] at woken ⊢
    exact post_move s t here target phase woken
  · rw [form] at woken ⊢
    rw [wait_loop_quiet] at woken
    cases woken with
    | quiet => exact loop_move s t here

theorem step_move (value : UInt32) (e : Step Thread)
    (stepped : (machine value).Stepped e) : Move (view e.before) e.output (view e.after) := by
  obtain ⟨s, action, output, after⟩ := e
  cases Monitor.step_effect monitor s after action output stepped with
  | @enter t owned call target sec phase here ran woken =>
      simp only [monitor, Option.some.injEq] at ran
      subst sec
      exact enter_move s t here call target phase woken
  | @resume t call result target phase here woken =>
      simp only [monitor, wait_loop_quiet] at woken
      cases woken with
      | quiet => exact loop_again_move s t here
  | cleanup _ ran _ => simp [monitor] at ran
  | @spurious t call here =>
      obtain ⟨left, came⟩ := Monitor.count_awakened_one s.phase t call here fun _ => true
      simp only [Bool.toNat_true] at left came
      have spurious := Move.spurious s.shared.semCount
        (Threads.count (Function.update s.phase t (.waiting .awakened call))
          (Monitor.atMode .blocked fun _ => true)) (awakened s)
      simp only [view, blocked, Monitor.waiters, ← left]
      simpa only [awakened, Monitor.waiters, came] using spurious
  | cancel _ handled => simp [monitor] at handled

theorem posted_posts (value : UInt32) (e : Step Thread)
    (stepped : (machine value).Stepped e) (done : e.output = some .posted) : posts e = true := by
  obtain ⟨s, action, output, after⟩ := e
  cases Monitor.step_effect monitor s after action output stepped with
  | @enter t owned call target sec phase here ran woken =>
      simp only [monitor, Option.some.injEq] at ran
      subst sec
      simp only [Option.some.injEq] at done
      rcases enter_cases s.shared call with ⟨error, form⟩ | ⟨same, opened, _⟩ | form
      · simp [form, fail] at done
      · simp [posts, same, opened]
      · exact absurd (form ▸ done) (wait_loop_silent s.shared)
  | resume _ _ =>
      simp only [monitor, Option.some.injEq] at done
      exact absurd done (wait_loop_silent s.shared)
  | cleanup _ ran _ => simp [monitor] at ran
  | spurious _ => simp at done
  | cancel _ handled => simp [monitor] at handled

theorem posts_posted (value : UInt32) (e : Step Thread)
    (stepped : (machine value).Stepped e) (does : posts e = true) :
    e.output = some .posted := by
  obtain ⟨s, action, output, after⟩ := e
  cases Monitor.step_effect monitor s after action output stepped with
  | @enter t owned call target sec phase here ran woken =>
      simp only [monitor, Option.some.injEq] at ran
      subst sec
      cases call with
      | post locked =>
          cases locked with
          | none =>
              simp only [posts, decide_eq_true_eq] at does
              simp [enter, mysemPost, does]
          | some n => simp [posts] at does
      | wait locked => simp [posts] at does
      | trywait locked => simp [posts] at does
  | resume _ _ => simp [posts] at does
  | cleanup _ _ _ => simp [posts] at does
  | spurious _ => simp [posts] at does
  | cancel _ _ => simp [posts] at does

end Runs

end NetworkProgramming.Mysem
