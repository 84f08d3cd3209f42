import NetworkProgramming.DoublyLinked
import NetworkProgramming.Monitor

/-!
The thread pool of chapter14/thread_pool.h. Sections under the mutex are sections of a monitor;
so are the other steps of a thread, each of which reads or writes one thing that the threads
share. In the links `none` is the head of the list, so a list that comes back to its head is one
that ends. task_num is an int of 32 bits.
-/

namespace NetworkProgramming.ThreadPool

variable {Task : Type*} [DecidableEq Task]

/-! struct list_head -/

structure Links (Task : Type*) where
  prev : Option Task → Option Task
  next : Option Task → Option Task

namespace Links

def listAdd (new : Task) (links : Links Task) : Links Task :=
  let next := links.next none
  { next := Function.update (Function.update links.next none (some new)) (some new) next
    prev := Function.update (Function.update links.prev (some new) none) next (some new) }

def listDel (links : Links Task) : Option Task × Links Task :=
  match links.prev none with
  | none => (none, links)
  | some prev =>
      (some prev,
        { next := Function.update links.next (links.prev (some prev)) none
          prev := Function.update links.prev none (links.prev (some prev)) })

def isEmpty (links : Links Task) : Bool := links.next none = none

end Links

/-! struct thread_pool -/

/-- `made` are the tasks that task_new has given out and task_free has not taken back, `gone` the
threads of the pool that have returned. -/
structure Shared (Task : Type*) where
  links : Links Task
  taskNum : Int32
  shutdown : Bool
  made : Task → Bool
  gone : Nat → Bool

/-- Where a thread is outside the mutex: a thread of the program with a task or without, one of
the pool in `work`, one that joins the threads of the pool. -/
inductive Local (Task : Type*) where
  | client (task : Option Task)
  | test (i : Nat)
  | get (i : Nat)
  | run (i : Nat) (task : Task)
  | returned (i : Nat)
  | join (i : Nat)
  | destroyed
  | lost
  deriving DecidableEq

inductive Call (Task : Type*) where
  | taskNew (task : Task)
  | add (task : Task)
  | destroy
  | proceed
  deriving DecidableEq

inductive Output (Task : Type*) where
  | made (task : Task)
  | added (task : Task)
  | passed
  | waits
  | null
  | handed (i : Nat) (task : Task)
  | freed (task : Task)
  | returned
  | closing
  | joined (i : Nat)
  | outOfRange (i : Nat)
  | destroyed
  deriving DecidableEq

abbrev PoolSection (Task : Type*) := Section (Shared Task) (Local Task) Nat Unit (Output Task)

/-- malloc gives what is not in use. -/
def taskNew (t : Task) (sh : Shared Task) : Option (PoolSection Task) :=
  if sh.made t then none
  else some ⟨{ sh with made := Function.update sh.made t true }, .quiet, .made t,
    .leave (.client (some t))⟩

def threadPoolAdd (t : Task) (sh : Shared Task) : PoolSection Task :=
  ⟨{ sh with links := sh.links.listAdd t, taskNum := sh.taskNum + 1 }, .signal (), .added t,
    .leave (.client none)⟩

-- From a test of the condition of the loop. The call of thread `i` ends here or waits.
def threadPoolGet (i : Nat) (sh : Shared Task) : PoolSection Task :=
  if sh.links.isEmpty ∧ sh.shutdown = false then ⟨sh, .quiet, .waits, .wait i⟩
  else if sh.shutdown then ⟨sh, .quiet, .null, .leave (.test i)⟩
  else
    let sh' := { sh with links := sh.links.listDel.2, taskNum := sh.taskNum - 1 }
    match sh.links.listDel.1 with
    | none => ⟨sh', .quiet, .null, .leave (.test i)⟩
    | some t => ⟨sh', .quiet, .handed i t, .leave (.run i t)⟩

def test (i : Nat) (sh : Shared Task) : PoolSection Task :=
  if sh.shutdown then
    ⟨{ sh with gone := Function.update sh.gone i true }, .quiet, .returned, .leave (.returned i)⟩
  else ⟨sh, .quiet, .passed, .leave (.get i)⟩

def runTask (i : Nat) (t : Task) (sh : Shared Task) : PoolSection Task :=
  ⟨{ sh with made := Function.update sh.made t false }, .quiet, .freed t, .leave (.test i)⟩

def threadPoolDestroy (sh : Shared Task) : Option (PoolSection Task) :=
  if sh.shutdown then none
  else some ⟨{ sh with shutdown := true }, .broadcast (), .closing, .leave (.join 0)⟩

/-- The loop of thread_pool_destroy from a test of its condition. `th` has `poolSize` elements,
and pthread_join returns when the thread has returned. -/
def joinNext (poolSize i : Nat) (sh : Shared Task) : Option (PoolSection Task) :=
  if (i : Int) < sh.taskNum.toInt then
    if i < poolSize then
      if sh.gone i then some ⟨sh, .quiet, .joined i, .leave (.join (i + 1))⟩ else none
    else some ⟨sh, .quiet, .outOfRange i, .leave .lost⟩
  else some ⟨sh, .quiet, .destroyed, .leave .destroyed⟩

def enter (poolSize : Nat) :
    Local Task → Call Task → Shared Task → Option (PoolSection Task)
  | .client none, .taskNew t, sh => taskNew t sh
  | .client (some t), .add task, sh => if task = t then some (threadPoolAdd task sh) else none
  | .client none, .destroy, sh => threadPoolDestroy sh
  | .test i, .proceed, sh => some (test i sh)
  | .get i, .proceed, sh => some (threadPoolGet i sh)
  | .run i t, .proceed, sh => some (runTask i t sh)
  | .join i, .proceed, sh => joinNext poolSize i sh
  | _, _, _ => none

/-- Who waits is woken by a signal, a broadcast, or the time that it waits until. -/
def monitor (poolSize : Nat) :
    Monitor (Shared Task) (Local Task) Nat Unit (Call Task) Unit (Output Task) where
  condOf _ := ()
  enter := enter poolSize
  resume _ i sh := threadPoolGet i sh
  cleanup _ _ := none

variable {Client : Type*} {n : Nat} [Fintype Client] [DecidableEq Client]

abbrev Thread (n : Nat) (Client : Type*) := Fin n ⊕ Client

abbrev State (n : Nat) (Client Task : Type*) :=
  Monitor.State (Thread n Client) (Shared Task) (Local Task) Nat
abbrev Action (n : Nat) (Client Task : Type*) := Monitor.Action (Thread n Client) (Call Task) Unit
abbrev Step (n : Nat) (Client Task : Type*) :=
  Transition (State n Client Task) (Action n Client Task) (Option (Output Task))

def home : Thread n Client → Local Task
  | .inl i => .test i
  | .inr _ => .client none

def machine : Machine (State n Client Task) (Action n Client Task) (Option (Output Task)) where
  start s := s.shared.links.next none = none ∧ s.shared.links.prev none = none ∧
    s.shared.taskNum = 0 ∧ s.shared.shutdown = false ∧ (∀ t, s.shared.made t = false) ∧
    (∀ i, s.shared.gone i = false) ∧ ∀ u, s.phase u = .outside (home u)
  step := (monitor n).step

def initial : State n Client Task :=
  ⟨⟨⟨fun _ => none, fun _ => none⟩, 0, false, fun _ => false, fun _ => false⟩,
    fun u => .outside (home u)⟩

theorem initial_start : machine.start (initial : State n Client Task) :=
  ⟨rfl, rfl, rfl, rfl, fun _ => rfl, fun _ => rfl, fun _ => rfl⟩

/-! Everything a step can do. -/

/-- Thread `i` is about to test the condition of the loop of thread_pool_get. -/
def AtGet (p : Phase (Local Task) Nat) (i : Nat) : Prop :=
  p = .outside (.get i) ∨ p = .waiting .awakened i

inductive Does (s : State n Client Task) (u : Thread n Client) :
    Option (Output Task) → State n Client Task → Prop where
  | taskNew {t : Task} (here : s.phase u = .outside (.client none))
      (unused : s.shared.made t = false) :
      Does s u (some (.made t)) ⟨{ s.shared with made := Function.update s.shared.made t true },
        Function.update s.phase u (.outside (.client (some t)))⟩
  | add {t : Task} {target : Option (Thread n Client)}
      {phase : Thread n Client → Phase (Local Task) Nat}
      (here : s.phase u = .outside (.client (some t)))
      (woken : Monitor.Woken (fun _ => ()) s.phase (.signal ()) target phase) :
      Does s u (some (.added t))
        ⟨{ s.shared with links := s.shared.links.listAdd t, taskNum := s.shared.taskNum + 1 },
          Function.update phase u (.outside (.client none))⟩
  | destroy {target : Option (Thread n Client)}
      {phase : Thread n Client → Phase (Local Task) Nat}
      (here : s.phase u = .outside (.client none)) (open_ : s.shared.shutdown = false)
      (woken : Monitor.Woken (fun _ => ()) s.phase (.broadcast ()) target phase) :
      Does s u (some .closing) ⟨{ s.shared with shutdown := true },
        Function.update phase u (.outside (.join 0))⟩
  | pass {i : Nat} (here : s.phase u = .outside (.test i)) (open_ : s.shared.shutdown = false) :
      Does s u (some .passed) ⟨s.shared, Function.update s.phase u (.outside (.get i))⟩
  | leave {i : Nat} (here : s.phase u = .outside (.test i)) (shut : s.shared.shutdown = true) :
      Does s u (some .returned)
        ⟨{ s.shared with gone := Function.update s.shared.gone i true },
          Function.update s.phase u (.outside (.returned i))⟩
  | wait {i : Nat} (here : AtGet (s.phase u) i) (empty : s.shared.links.isEmpty = true)
      (open_ : s.shared.shutdown = false) :
      Does s u (some .waits) ⟨s.shared, Function.update s.phase u (.waiting .blocked i)⟩
  | null {i : Nat} (here : AtGet (s.phase u) i) (shut : s.shared.shutdown = true) :
      Does s u (some .null) ⟨s.shared, Function.update s.phase u (.outside (.test i))⟩
  | torn {i : Nat} (here : AtGet (s.phase u) i) (filled : s.shared.links.isEmpty = false)
      (open_ : s.shared.shutdown = false) (none_ : s.shared.links.listDel.1 = none) :
      Does s u (some .null)
        ⟨{ s.shared with links := s.shared.links.listDel.2, taskNum := s.shared.taskNum - 1 },
          Function.update s.phase u (.outside (.test i))⟩
  | get {i : Nat} {t : Task} (here : AtGet (s.phase u) i)
      (filled : s.shared.links.isEmpty = false) (open_ : s.shared.shutdown = false)
      (found : s.shared.links.listDel.1 = some t) :
      Does s u (some (.handed i t))
        ⟨{ s.shared with links := s.shared.links.listDel.2, taskNum := s.shared.taskNum - 1 },
          Function.update s.phase u (.outside (.run i t))⟩
  | run {i : Nat} {t : Task} (here : s.phase u = .outside (.run i t)) :
      Does s u (some (.freed t)) ⟨{ s.shared with made := Function.update s.shared.made t false },
        Function.update s.phase u (.outside (.test i))⟩
  | join {i : Nat} (here : s.phase u = .outside (.join i)) (more : (i : Int) < s.shared.taskNum.toInt)
      (within : i < n) (gone : s.shared.gone i = true) :
      Does s u (some (.joined i)) ⟨s.shared, Function.update s.phase u (.outside (.join (i + 1)))⟩
  | outOfRange {i : Nat} (here : s.phase u = .outside (.join i))
      (more : (i : Int) < s.shared.taskNum.toInt) (beyond : ¬ i < n) :
      Does s u (some (.outOfRange i)) ⟨s.shared, Function.update s.phase u (.outside .lost)⟩
  | destroyed {i : Nat} (here : s.phase u = .outside (.join i))
      (over_ : ¬ (i : Int) < s.shared.taskNum.toInt) :
      Does s u (some .destroyed) ⟨s.shared, Function.update s.phase u (.outside .destroyed)⟩
  | spurious {i : Nat} (here : s.phase u = .waiting .blocked i) :
      Does s u none ⟨s.shared, Function.update s.phase u (.waiting .awakened i)⟩

def thread : Action n Client Task → Thread n Client
  | .enter u _ _ => u
  | .resume u _ _ => u
  | .cleanup u _ => u
  | .spurious u => u
  | .cancel u => u

omit [Fintype Client] in
theorem get_does (s : State n Client Task) (u : Thread n Client) (i : Nat)
    (target : Option (Thread n Client)) (phase : Thread n Client → Phase (Local Task) Nat)
    (here : AtGet (s.phase u) i)
    (woken : Monitor.Woken (fun _ => ()) s.phase (threadPoolGet i s.shared).wake target phase) :
    Does s u (some (threadPoolGet i s.shared).output)
      ⟨(threadPoolGet i s.shared).shared,
        Function.update phase u (threadPoolGet i s.shared).exit.phase⟩ := by
  cases shut : s.shared.shutdown with
  | true =>
      have ends : threadPoolGet i s.shared = ⟨s.shared, .quiet, .null, .leave (.test i)⟩ := by
        simp [threadPoolGet, shut]
      rw [ends] at woken ⊢
      rw [Monitor.woken_quiet woken]
      exact .null here shut
  | false =>
      cases empty : s.shared.links.isEmpty with
      | true =>
          have waits : threadPoolGet i s.shared = ⟨s.shared, .quiet, .waits, .wait i⟩ := by
            simp [threadPoolGet, shut, empty]
          rw [waits] at woken ⊢
          rw [Monitor.woken_quiet woken]
          exact .wait here empty shut
      | false =>
          cases found : s.shared.links.listDel.1 with
          | none =>
              have tears : threadPoolGet i s.shared = ⟨{ s.shared with
                  links := s.shared.links.listDel.2, taskNum := s.shared.taskNum - 1 }, .quiet,
                  .null, .leave (.test i)⟩ := by
                simp [threadPoolGet, shut, empty, found]
              rw [tears] at woken ⊢
              rw [Monitor.woken_quiet woken]
              exact .torn here empty shut found
          | some t =>
              have gets : threadPoolGet i s.shared = ⟨{ s.shared with
                  links := s.shared.links.listDel.2, taskNum := s.shared.taskNum - 1 }, .quiet,
                  .handed i t, .leave (.run i t)⟩ := by
                simp [threadPoolGet, shut, empty, found]
              rw [gets] at woken ⊢
              rw [Monitor.woken_quiet woken]
              exact .get here empty shut found

omit [Fintype Client] in
theorem join_does (s : State n Client Task) (u : Thread n Client) (i : Nat)
    (sec : PoolSection Task) (target : Option (Thread n Client))
    (phase : Thread n Client → Phase (Local Task) Nat) (here : s.phase u = .outside (.join i))
    (ran : joinNext n i s.shared = some sec)
    (woken : Monitor.Woken (fun _ => ()) s.phase sec.wake target phase) :
    Does s u (some sec.output) ⟨sec.shared, Function.update phase u sec.exit.phase⟩ := by
  rw [joinNext] at ran
  -- the bound of the loop is task_num, and th has n entries
  by_cases more : (i : Int) < s.shared.taskNum.toInt
  · rw [if_pos more] at ran
    by_cases within : i < n
    · rw [if_pos within, Option.ite_none_right_eq_some, Option.some.injEq] at ran
      obtain ⟨gone, rfl⟩ := ran
      rw [Monitor.woken_quiet woken]
      exact .join here more within gone
    · rw [if_neg within, Option.some.injEq] at ran
      subst ran
      rw [Monitor.woken_quiet woken]
      exact .outOfRange here more within
  · rw [if_neg more, Option.some.injEq] at ran
    subst ran
    rw [Monitor.woken_quiet woken]
    exact .destroyed here more

omit [Fintype Client] in
theorem enter_does (s : State n Client Task) (u : Thread n Client) (owned : Local Task)
    (call : Call Task) (sec : PoolSection Task) (target : Option (Thread n Client))
    (phase : Thread n Client → Phase (Local Task) Nat) (here : s.phase u = .outside owned)
    (ran : enter n owned call s.shared = some sec)
    (woken : Monitor.Woken (fun _ => ()) s.phase sec.wake target phase) :
    Does s u (some sec.output) ⟨sec.shared, Function.update phase u sec.exit.phase⟩ := by
  unfold enter at ran
  split at ran
  · rename_i t
    simp only [taskNew, Option.ite_none_left_eq_some, Option.some.injEq] at ran
    obtain ⟨unused, rfl⟩ := ran
    rw [Monitor.woken_quiet woken]
    exact .taskNew here (by simpa using unused)
  · rename_i t task
    simp only [Option.ite_none_right_eq_some, Option.some.injEq] at ran
    obtain ⟨rfl, rfl⟩ := ran
    exact .add here woken
  · simp only [threadPoolDestroy, Option.ite_none_left_eq_some, Option.some.injEq] at ran
    obtain ⟨open_, rfl⟩ := ran
    exact .destroy here (by simpa using open_) woken
  · rename_i i
    cases ran
    cases shut : s.shared.shutdown with
    | true =>
        have leaves : test i s.shared = ⟨{ s.shared with
            gone := Function.update s.shared.gone i true }, .quiet, .returned,
            .leave (.returned i)⟩ := if_pos shut
        rw [leaves] at woken ⊢
        rw [Monitor.woken_quiet woken]
        exact .leave here shut
    | false =>
        have passes : test i s.shared = ⟨s.shared, .quiet, .passed, .leave (.get i)⟩ :=
          if_neg (by simp [shut])
        rw [passes] at woken ⊢
        rw [Monitor.woken_quiet woken]
        exact .pass here shut
  · cases ran
    exact get_does s u _ target phase (Or.inl here) woken
  · cases ran
    rw [Monitor.woken_quiet woken]
    exact .run here
  · exact join_does s u _ sec target phase here ran woken
  · cases ran

theorem step_does (e : Step n Client Task) (stepped : machine.Stepped e) :
    Does e.before (thread e.action) e.output e.after := by
  obtain ⟨s, a, output, after⟩ := e
  cases Monitor.step_effect (monitor n) s after a output stepped with
  | enter here ran woken => exact enter_does s _ _ _ _ _ _ here ran woken
  | resume here woken => exact get_does s _ _ _ _ (Or.inr here) woken
  | cleanup _ ran _ => simp [monitor] at ran
  | spurious here => exact .spurious here
  | cancel _ handled => simp [monitor] at handled

/-! Where the threads are. -/

inductive AtWork (shutdown : Bool) (i : Nat) : Phase (Local Task) Nat → Prop where
  | test : AtWork shutdown i (.outside (.test i))
  | get : AtWork shutdown i (.outside (.get i))
  | run (t : Task) : AtWork shutdown i (.outside (.run i t))
  | blocked : AtWork shutdown i (.waiting .blocked i)
  | awakened : AtWork shutdown i (.waiting .awakened i)
  | returned : shutdown = true → AtWork shutdown i (.outside (.returned i))

inductive AtCall : Phase (Local Task) Nat → Prop where
  | client (t : Option Task) : AtCall (.outside (.client t))
  | join (i : Nat) : AtCall (.outside (.join i))
  | destroyed : AtCall (.outside .destroyed)
  | lost : AtCall (.outside .lost)

/-- Each thread is at one of its places, and those of the pool that count as returned have. -/
structure Placed (s : State n Client Task) : Prop where
  workers : ∀ i : Fin n, AtWork s.shared.shutdown i (s.phase (.inl i))
  clients : ∀ c : Client, AtCall (s.phase (.inr c))
  gone : ∀ i : Fin n, s.shared.gone i = true ↔ s.phase (.inl i) = .outside (.returned i)

omit [DecidableEq Task] in
theorem AtWork.later {shutdown shutdown' : Bool} {i : Nat} {p : Phase (Local Task) Nat}
    (place : AtWork shutdown i p) (still : shutdown = true → shutdown' = true) :
    AtWork shutdown' i p := by
  cases place with
  | test => exact .test
  | get => exact .get
  | run t => exact .run t
  | blocked => exact .blocked
  | awakened => exact .awakened
  | returned shut => exact .returned (still shut)

section

variable {s : State n Client Task} {u : Thread n Client}

omit [DecidableEq Task] [Fintype Client] [DecidableEq Client] in
theorem Placed.worker {p : Phase (Local Task) Nat} {i : Nat} (placed : Placed s)
    (here : s.phase u = p) (place : AtWork true i p) : ∃ j : Fin n, u = .inl j ∧ i = j := by
  subst here
  cases u with
  | inl j =>
      have own := placed.workers j
      refine ⟨j, rfl, ?_⟩
      generalize s.phase (.inl j) = p at place own
      cases place <;> cases own <;> rfl
  | inr c =>
      have own := placed.clients c
      generalize s.phase (.inr c) = p at place own
      cases place <;> cases own

omit [DecidableEq Task] [Fintype Client] [DecidableEq Client] in
theorem Placed.client {p : Phase (Local Task) Nat} (placed : Placed s) (here : s.phase u = p)
    (place : AtCall p) : ∃ c, u = .inr c := by
  subst here
  cases u with
  | inl i =>
      have own := placed.workers i
      generalize s.phase (.inl i) = p at place own
      cases place <;> cases own
  | inr c => exact ⟨c, rfl⟩

omit [DecidableEq Task] [Fintype Client] in
theorem Placed.woken {wake : Wake Unit} {target : Option (Thread n Client)}
    {phase : Thread n Client → Phase (Local Task) Nat} (placed : Placed s)
    (woken : Monitor.Woken (fun _ => ()) s.phase wake target phase) :
    Placed ⟨s.shared, phase⟩ := by
  have moved (v : Thread n Client) := Monitor.woken_each woken v
  refine ⟨fun i => ?_, fun c => ?_, fun i => ?_⟩
  · have before := placed.workers i
    dsimp only
    rcases moved (.inl i) with same | ⟨call, blocked, awake⟩
    · rw [same]
      exact before
    · rw [blocked] at before
      cases before
      rw [awake]
      exact .awakened
  · have before := placed.clients c
    dsimp only
    rcases moved (.inr c) with same | ⟨call, blocked, -⟩
    · rw [same]
      exact before
    · rw [blocked] at before
      cases before
  · rw [placed.gone i]
    dsimp only
    rcases moved (.inl i) with same | ⟨call, blocked, awake⟩
    · rw [same]
    · rw [blocked, awake]
      simp

omit [DecidableEq Task] [Fintype Client] in
theorem Placed.works {i : Fin n} (placed : Placed s) (p : Phase (Local Task) Nat)
    (sh : Shared Task) (shut : sh.shutdown = s.shared.shutdown)
    (place : AtWork s.shared.shutdown i p) (mine : sh.gone i = true ↔ p = .outside (.returned i))
    (gone : ∀ j : Fin n, j ≠ i → sh.gone j = s.shared.gone j) :
    Placed ⟨sh, Function.update s.phase (.inl i) p⟩ := by
  have other (j : Fin n) (apart : j ≠ i) :
      Function.update s.phase (.inl i) p (.inl j) = s.phase (.inl j) :=
    Function.update_of_ne (fun same => apart (Sum.inl.inj same)) _ _
  refine ⟨fun j => ?_, fun c => ?_, fun j => ?_⟩
  · dsimp only
    by_cases here : j = i
    · rw [here, Function.update_self, shut]
      exact place
    · rw [other j here, shut]
      exact placed.workers j
  · dsimp only
    rw [Function.update_of_ne Sum.inr_ne_inl]
    exact placed.clients c
  · dsimp only
    by_cases here : j = i
    · rw [here, Function.update_self]
      exact mine
    · rw [other j here, gone j here]
      exact placed.gone j

omit [DecidableEq Task] [Fintype Client] in
theorem Placed.proceeds {i : Fin n} (placed : Placed s) (p : Phase (Local Task) Nat)
    (sh : Shared Task) (shut : sh.shutdown = s.shared.shutdown)
    (place : AtWork s.shared.shutdown i p) (gone : sh.gone = s.shared.gone)
    (before : s.phase (.inl i) ≠ .outside (.returned i)) (after : p ≠ .outside (.returned i)) :
    Placed ⟨sh, Function.update s.phase (.inl i) p⟩ := by
  refine placed.works p sh shut place ?_ fun j _ => by rw [gone]
  rw [gone, placed.gone i]
  exact iff_of_false before after

omit [DecidableEq Task] [Fintype Client] in
theorem Placed.calls {c : Client} (placed : Placed s) (p : Phase (Local Task) Nat)
    (sh : Shared Task) (shut : s.shared.shutdown = true → sh.shutdown = true) (place : AtCall p)
    (gone : sh.gone = s.shared.gone) :
    Placed ⟨sh, Function.update s.phase (.inr c) p⟩ := by
  have other (j : Fin n) : Function.update s.phase (.inr c) p (.inl j) = s.phase (.inl j) :=
    Function.update_of_ne Sum.inl_ne_inr _ _
  refine ⟨fun j => ?_, fun d => ?_, fun j => ?_⟩
  · dsimp only
    rw [other j]
    exact (placed.workers j).later shut
  · dsimp only
    by_cases here : d = c
    · rw [here, Function.update_self]
      exact place
    · rw [Function.update_of_ne fun same => here (Sum.inr.inj same)]
      exact placed.clients d
  · dsimp only
    rw [other j, gone]
    exact placed.gone j

omit [DecidableEq Task] [Fintype Client] in
theorem Placed.gets {i : Nat} (placed : Placed s) (here : AtGet (s.phase u) i)
    (p : Phase (Local Task) Nat) (sh : Shared Task) (shut : sh.shutdown = s.shared.shutdown)
    (place : AtWork s.shared.shutdown i p) (gone : sh.gone = s.shared.gone)
    (after : p ≠ .outside (.returned i)) : Placed ⟨sh, Function.update s.phase u p⟩ := by
  rcases here with here | here
  · obtain ⟨j, rfl, rfl⟩ := placed.worker here .get
    refine placed.proceeds p sh shut place gone ?_ after
    simp [here]
  · obtain ⟨j, rfl, rfl⟩ := placed.worker here .awakened
    refine placed.proceeds p sh shut place gone ?_ after
    simp [here]

end

theorem placed_step (e : Step n Client Task) (stepped : machine.Stepped e)
    (placed : Placed e.before) : Placed e.after := by
  have does := step_does e stepped
  obtain ⟨s, a, output, after⟩ := e
  dsimp only at does placed ⊢
  generalize thread a = u at does
  cases does with
  | taskNew here _ =>
      obtain ⟨c, rfl⟩ := placed.client here (.client none)
      exact placed.calls _ _ id (.client _) rfl
  | add here woken =>
      obtain ⟨c, rfl⟩ := placed.client here (.client _)
      exact (placed.woken woken).calls _ _ id (.client _) rfl
  | destroy here _ woken =>
      obtain ⟨c, rfl⟩ := placed.client here (.client none)
      exact (placed.woken woken).calls _ _ (fun _ => rfl) (.join 0) rfl
  | pass here open_ =>
      obtain ⟨i, rfl, rfl⟩ := placed.worker here .test
      exact placed.proceeds _ _ rfl .get rfl (by simp [here]) (by simp)
  | leave here shut =>
      obtain ⟨i, rfl, rfl⟩ := placed.worker here .test
      refine placed.works _ _ rfl (.returned shut) (by simp) fun j apart => ?_
      exact Function.update_of_ne (fun same => apart (Fin.ext same)) _ _
  | wait here empty open_ => exact placed.gets here _ _ rfl .blocked rfl (by simp)
  | null here shut => exact placed.gets here _ _ rfl .test rfl (by simp)
  | torn here filled open_ none_ => exact placed.gets here _ _ rfl .test rfl (by simp)
  | get here filled open_ found => exact placed.gets here _ _ rfl (.run _) rfl (by simp)
  | run here =>
      obtain ⟨i, rfl, rfl⟩ := placed.worker here (.run _)
      exact placed.proceeds _ _ rfl .test rfl (by simp [here]) (by simp)
  | join here more within gone =>
      obtain ⟨c, rfl⟩ := placed.client here (.join _)
      exact placed.calls _ _ id (.join _) rfl
  | outOfRange here more beyond =>
      obtain ⟨c, rfl⟩ := placed.client here (.join _)
      exact placed.calls _ _ id .lost rfl
  | destroyed here over_ =>
      obtain ⟨c, rfl⟩ := placed.client here (.join _)
      exact placed.calls _ _ id .destroyed rfl
  | spurious here =>
      obtain ⟨i, rfl, rfl⟩ := placed.worker here .blocked
      exact placed.proceeds _ _ rfl .awakened rfl (by simp [here]) (by simp)

theorem placed_run {trace : List (Step n Client Task)} {s : State n Client Task}
    (run : machine.Run trace s) : Placed s := by
  refine run.invariant ?_ fun e stepped placed => placed_step e stepped placed
  rintro s ⟨-, -, -, -, -, gone, phase⟩
  refine ⟨fun i => ?_, fun c => ?_, fun i => ?_⟩
  · rw [phase]
    exact .test
  · rw [phase]
    exact .client none
  · rw [phase, gone i]
    simp [home]

end NetworkProgramming.ThreadPool
