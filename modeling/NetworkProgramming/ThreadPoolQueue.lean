import NetworkProgramming.IntCounter
import NetworkProgramming.ThreadPool

/-!
The tasks of the pool. The list is read backwards: what list_add puts at its front list_del takes
from its back after everything that was there before.
-/

namespace NetworkProgramming.ThreadPool

open DoublyLinked

variable {Task : Type*} [DecidableEq Task]

/-! The circular list. -/

/-- From the head `next` leads through the tasks and back to the head, `prev` the other way
round. -/
def Holds (links : Links Task) (tasks : List Task) : Prop :=
  Linked (fun t => links.prev (some t)) (fun t => links.next (some t)) (links.next none)
    (links.prev none) tasks

omit [DecidableEq Task] in
theorem holds_empty (links : Links Task) (tasks : List Task) (holds : Holds links tasks) :
    links.isEmpty = true ↔ tasks = [] := by
  rw [Links.isEmpty, holds.ends.1]
  cases tasks <;> simp

theorem list_add_holds (links : Links Task) (tasks : List Task) (t : Task) (new : t ∉ tasks)
    (holds : Holds links tasks) : Holds (links.listAdd t) (t :: tasks) := by
  have start := holds.ends.1
  have other : links.next none ≠ some t := by
    rw [start]
    exact fun here => new (List.mem_of_mem_head? here)
  have forward : Walk (fun x => (links.listAdd t).next (some x)) (some t) (t :: tasks) none := by
    refine walk_push tasks t ?_ (fun y member => ?_) holds.forward
    · simp [Links.listAdd]
    · have apart : y ≠ t := fun same => new (same ▸ member)
      simp [Links.listAdd, apart]
  have patched : Patched (fun x => links.prev (some x))
      (fun x => (links.listAdd t).prev (some x)) (links.prev none) ((links.listAdd t).prev none) t
      tasks.reverse.getLast? ([] : List Task).head? := by
    rw [List.getLast?_reverse, ← start]
    constructor
    · intro empty
      simp [Links.listAdd, empty]
    · intro some_
      simp [Links.listAdd, Function.update_of_ne some_.symm]
    · intro z here
      simp [Links.listAdd, here]
    · simp [Links.listAdd, Function.update_of_ne other.symm]
    · intro y apart here
      simp [Links.listAdd, Function.update_of_ne (Ne.symm here), apart]
  have backward := walk_patched tasks.reverse [] t patched
    (by simpa using holds.distinct) (by simpa using new) (by simpa using holds.backward)
  refine ⟨?_, ?_, List.nodup_cons.mpr ⟨new, holds.distinct⟩⟩
  · have first : (links.listAdd t).next none = some t := by simp [Links.listAdd]
    rw [first]
    exact forward
  · rw [List.reverse_cons]
    exact backward

theorem list_del_holds (links : Links Task) (tasks : List Task) (t : Task)
    (holds : Holds links (tasks ++ [t])) :
    links.listDel.1 = some t ∧ Holds links.listDel.2 tasks := by
  have backward := holds.backward
  rw [List.reverse_append, List.reverse_singleton, List.singleton_append] at backward
  obtain ⟨last, behind⟩ := backward
  have before : links.prev (some t) = tasks.getLast? := by
    rw [← List.head?_reverse]
    exact walk_start tasks.reverse behind
  have distinct := (List.nodup_append.mp holds.distinct).1
  have redirected : Redirected (fun x => links.next (some x))
      (fun x => Function.update links.next (links.prev (some t)) none (some x)) (links.next none)
      (Function.update links.next (links.prev (some t)) none none) tasks none := by
    rw [before]
    constructor
    · rintro rfl
      simp
    · intro some_
      rw [Function.update_of_ne]
      exact fun none_ => some_ (List.getLast?_eq_none_iff.mp none_.symm)
    · intro z here
      rw [here, Function.update_self]
    · intro y _ other
      rw [Function.update_of_ne (Ne.symm other)]
  have forward := walk_cut tasks [t] distinct redirected holds.forward
  have result : links.listDel = (some t,
      { next := Function.update links.next (links.prev (some t)) none
        prev := Function.update links.prev none (links.prev (some t)) }) := by
    rw [Links.listDel, last]
  rw [result]
  refine ⟨rfl, forward, ?_, distinct⟩
  dsimp only
  rw [Function.update_self]
  refine walk_frame tasks.reverse (fun y _ => ?_) behind
  exact Function.update_of_ne (Option.some_ne_none y) _ _

/-! Whose a task is. -/

variable {Client : Type*} {n : Nat} [Fintype Client] [DecidableEq Client]

def owns : Phase (Local Task) Nat → Option Task
  | .outside (.client t) => t
  | .outside (.run _ t) => some t
  | _ => none

/-- A task that is in use is in the list, or one thread has it. -/
structure Owned (tasks : List Task) (s : State n Client Task) : Prop where
  live : ∀ t ∈ tasks, s.shared.made t = true
  held : ∀ u t, owns (s.phase u) = some t → s.shared.made t = true ∧ t ∉ tasks
  alone : ∀ u v t, owns (s.phase u) = some t → owns (s.phase v) = some t → u = v

omit [Fintype Client] [DecidableEq Task] in
theorem owns_moved {s : State n Client Task} {wake : Wake Unit}
    {target : Option (Thread n Client)} {phase : Thread n Client → Phase (Local Task) Nat}
    (woken : Monitor.Woken (fun _ => ()) s.phase wake target phase) (u v : Thread n Client)
    (p : Phase (Local Task) Nat) (apart : v ≠ u) :
    owns (Function.update phase u p v) = owns (s.phase v) := by
  rw [Function.update_of_ne apart]
  rcases Monitor.woken_each woken v with same | ⟨call, blocked, awake⟩
  · rw [same]
  · rw [blocked, awake]
    rfl

omit [Fintype Client] [DecidableEq Task] in
theorem Owned.moves {tasks tasks' : List Task} {s : State n Client Task} (owned : Owned tasks s)
    {wake : Wake Unit} {target : Option (Thread n Client)}
    {phase : Thread n Client → Phase (Local Task) Nat}
    (woken : Monitor.Woken (fun _ => ()) s.phase wake target phase) (u : Thread n Client)
    (p : Phase (Local Task) Nat) (sh : Shared Task)
    (live : ∀ t ∈ tasks', sh.made t = true)
    (mine : ∀ t, owns p = some t → sh.made t = true ∧ t ∉ tasks' ∧
      ∀ v, v ≠ u → owns (s.phase v) ≠ some t)
    (others : ∀ v t, v ≠ u → owns (s.phase v) = some t → sh.made t = true ∧ t ∉ tasks') :
    Owned tasks' ⟨sh, Function.update phase u p⟩ := by
  have at_ (v : Thread n Client) (t : Task) (has : owns (Function.update phase u p v) = some t) :
      (v = u ∧ owns p = some t) ∨ (v ≠ u ∧ owns (s.phase v) = some t) := by
    by_cases here : v = u
    · subst here
      rw [Function.update_self] at has
      exact Or.inl ⟨rfl, has⟩
    · rw [owns_moved woken u v p here] at has
      exact Or.inr ⟨here, has⟩
  refine ⟨live, fun v t has => ?_, fun v w t one two => ?_⟩
  · rcases at_ v t has with ⟨-, new⟩ | ⟨apart, old⟩
    · exact ⟨(mine t new).1, (mine t new).2.1⟩
    · exact others v t apart old
  · rcases at_ v t one with ⟨rfl, new⟩ | ⟨apart, old⟩
    · rcases at_ w t two with ⟨rfl, -⟩ | ⟨apart', old'⟩
      · rfl
      · exact absurd old' ((mine t new).2.2 w apart')
    · rcases at_ w t two with ⟨rfl, new⟩ | ⟨-, old'⟩
      · exact absurd old ((mine t new).2.2 v apart)
      · exact owned.alone v w t old old'

omit [Fintype Client] [DecidableEq Task] in
theorem Owned.rests {tasks : List Task} {s : State n Client Task} (owned : Owned tasks s)
    {wake : Wake Unit} {target : Option (Thread n Client)}
    {phase : Thread n Client → Phase (Local Task) Nat}
    (woken : Monitor.Woken (fun _ => ()) s.phase wake target phase) (u : Thread n Client)
    (p : Phase (Local Task) Nat) (sh : Shared Task) (made : sh.made = s.shared.made)
    (none_ : owns p = none) : Owned tasks ⟨sh, Function.update phase u p⟩ := by
  refine owned.moves woken u p sh ?_ ?_ ?_
  · rw [made]
    exact owned.live
  · intro t has
    rw [none_] at has
    cases has
  · intro v t _ has
    rw [made]
    exact owned.held v t has

omit [Fintype Client] in
theorem Owned.taskNew {tasks : List Task} {s : State n Client Task} (owned : Owned tasks s)
    (u : Thread n Client) (t : Task) (unused : s.shared.made t = false) :
    Owned tasks ⟨{ s.shared with made := Function.update s.shared.made t true },
      Function.update s.phase u (.outside (.client (some t)))⟩ := by
  have kept (t' : Task) (made : s.shared.made t' = true) :
      Function.update s.shared.made t true t' = true := by
    by_cases same : t' = t
    · rw [same, Function.update_self]
    · rw [Function.update_of_ne same, made]
  refine owned.moves .quiet u _ _ (fun t' member => kept t' (owned.live t' member)) ?_ ?_
  · rintro t' has
    cases has
    refine ⟨Function.update_self _ _ _, fun member => ?_, fun v _ has => ?_⟩
    · rw [owned.live t member] at unused
      cases unused
    · rw [(owned.held v t has).1] at unused
      cases unused
  · intro v t' _ has
    exact ⟨kept t' (owned.held v t' has).1, (owned.held v t' has).2⟩

omit [Fintype Client] [DecidableEq Task] in
theorem Owned.add {tasks : List Task} {s : State n Client Task} (owned : Owned tasks s)
    {wake : Wake Unit} {target : Option (Thread n Client)}
    {phase : Thread n Client → Phase (Local Task) Nat}
    (woken : Monitor.Woken (fun _ => ()) s.phase wake target phase) (u : Thread n Client)
    (t : Task) (here : s.phase u = .outside (.client (some t))) (sh : Shared Task)
    (made : sh.made = s.shared.made) :
    Owned (t :: tasks) ⟨sh, Function.update phase u (.outside (.client none))⟩ := by
  have mine : owns (s.phase u) = some t := by rw [here, owns]
  refine owned.moves woken u _ sh ?_ (fun _ has => by cases has) ?_
  · rw [made]
    exact List.forall_mem_cons.mpr ⟨(owned.held u t mine).1, owned.live⟩
  · intro v t' apart has
    rw [made, List.mem_cons, not_or]
    refine ⟨(owned.held v t' has).1, ?_, (owned.held v t' has).2⟩
    rintro rfl
    exact apart (owned.alone v u t' has mine)

omit [Fintype Client] [DecidableEq Task] in
theorem Owned.get {tasks : List Task} {t : Task} {s : State n Client Task}
    (owned : Owned (tasks ++ [t]) s) (new : t ∉ tasks) (u : Thread n Client) (i : Nat)
    (sh : Shared Task) (made : sh.made = s.shared.made) :
    Owned tasks ⟨sh, Function.update s.phase u (.outside (.run i t))⟩ := by
  refine owned.moves .quiet u _ sh ?_ ?_ ?_
  · rw [made]
    exact fun t' member => owned.live t' (List.mem_append_left [t] member)
  · intro t' has
    cases has
    rw [made]
    exact ⟨owned.live t (by simp), new, fun v _ has => (owned.held v t has).2 (by simp)⟩
  · intro v t' _ has
    rw [made]
    exact ⟨(owned.held v t' has).1, fun member =>
      (owned.held v t' has).2 (List.mem_append_left [t] member)⟩

omit [Fintype Client] in
theorem Owned.run {tasks : List Task} {s : State n Client Task} (owned : Owned tasks s)
    (u : Thread n Client) (i : Nat) (t : Task) (here : s.phase u = .outside (.run i t)) :
    Owned tasks ⟨{ s.shared with made := Function.update s.shared.made t false },
      Function.update s.phase u (.outside (.test i))⟩ := by
  have mine : owns (s.phase u) = some t := by rw [here, owns]
  refine owned.moves .quiet u _ _ ?_ (fun _ has => by cases has) ?_
  · intro t' member
    have apart : t' ≠ t := by
      rintro rfl
      exact (owned.held u t' mine).2 member
    exact (Function.update_of_ne apart _ _).trans (owned.live t' member)
  · intro v t' other has
    have apart : t' ≠ t := by
      rintro rfl
      exact other (owned.alone v u t' has mine)
    exact ⟨(Function.update_of_ne apart _ _).trans (owned.held v t' has).1, (owned.held v t' has).2⟩

/-! The runs. -/

def adds : Action n Client Task → Option Task
  | .enter _ (.add t) _ => some t
  | _ => none

/-- The tasks that thread_pool_add has been called with, in the order of the calls. -/
def added (trace : List (Step n Client Task)) : List Task :=
  trace.filterMap fun e => adds e.action

/-- The tasks that thread_pool_get has returned, in the order of the calls, each with the thread
that called it. -/
def handed (trace : List (Step n Client Task)) : List (Nat × Task) :=
  trace.filterMap fun e => match e.output with
    | some (.handed i t) => some (i, t)
    | _ => none

omit [DecidableEq Task] [Fintype Client] [DecidableEq Client] in
theorem added_snoc (trace : List (Step n Client Task)) (e : Step n Client Task) :
    added (trace ++ [e]) = added trace ++ (adds e.action).toList := by
  rw [added, List.filterMap_append]
  change added trace ++ _ = _
  cases asks : adds e.action <;> simp [asks]

def Output.task : Output Task → Option Task
  | .added t => some t
  | _ => none

theorem get_adds (i : Nat) (sh : Shared Task) : (threadPoolGet i sh).output.task = none := by
  rw [threadPoolGet]
  split
  · rfl
  · split
    · rfl
    · dsimp only
      split <;> rfl

omit [Fintype Client] [DecidableEq Client] in
theorem enter_adds (owned : Local Task) (call : Call Task) (sh : Shared Task)
    (sec : PoolSection Task) (u : Thread n Client) (target : Option (Thread n Client))
    (ran : enter n owned call sh = some sec) :
    adds (.enter u call target) = sec.output.task := by
  unfold enter at ran
  split at ran
  · simp only [taskNew, Option.ite_none_left_eq_some, Option.some.injEq] at ran
    obtain ⟨_, rfl⟩ := ran
    rfl
  · simp only [Option.ite_none_right_eq_some, Option.some.injEq] at ran
    obtain ⟨_, rfl⟩ := ran
    rfl
  · simp only [threadPoolDestroy, Option.ite_none_left_eq_some, Option.some.injEq] at ran
    obtain ⟨_, rfl⟩ := ran
    rfl
  · cases ran
    rw [test]
    split <;> rfl
  · cases ran
    exact (get_adds _ sh).symm
  · cases ran
    rfl
  · rw [joinNext] at ran
    split at ran
    · split at ran
      · simp only [Option.ite_none_right_eq_some, Option.some.injEq] at ran
        obtain ⟨_, rfl⟩ := ran
        rfl
      · cases ran
        rfl
    · cases ran
      rfl
  · cases ran

theorem adds_output (e : Step n Client Task) (stepped : machine.Stepped e) :
    adds e.action = e.output.bind Output.task := by
  obtain ⟨s, a, output, after⟩ := e
  cases Monitor.step_effect (monitor n) s after a output stepped with
  | enter here ran woken => exact enter_adds _ _ _ _ _ _ ran
  | resume here woken => exact (get_adds _ _).symm
  | cleanup _ ran _ => simp [monitor] at ran
  | spurious here => rfl
  | cancel _ handled => simp [monitor] at handled

/-- The list is well formed and task_num has counted its tasks, and with those that have been
handed out they are the ones that have been added, each once and in order. -/
structure Queued (tasks : List Task) (trace : List (Step n Client Task))
    (s : State n Client Task) : Prop where
  holds : Holds s.shared.links tasks
  num : s.shared.taskNum = Int32.ofNat tasks.length
  order : added trace = (handed trace).map Prod.snd ++ tasks.reverse

section

variable {tasks : List Task} {trace : List (Step n Client Task)} {s s' : State n Client Task}
variable {a : Action n Client Task} {output : Option (Output Task)}

omit [Fintype Client] [DecidableEq Client] [DecidableEq Task] in
theorem Queued.idle (queued : Queued tasks trace s) (links : s'.shared.links = s.shared.links)
    (num : s'.shared.taskNum = s.shared.taskNum) (asks : adds a = none)
    (hands : handed [(⟨s, a, output, s'⟩ : Step n Client Task)] = []) :
    Queued tasks (trace ++ [⟨s, a, output, s'⟩]) s' := by
  refine ⟨links ▸ queued.holds, num ▸ queued.num, ?_⟩
  rw [added_snoc, asks, Option.toList_none, List.append_nil, handed, List.filterMap_append]
  change added trace = (handed trace ++ handed _).map Prod.snd ++ tasks.reverse
  rw [hands, List.append_nil]
  exact queued.order

omit [Fintype Client] [DecidableEq Client] in
theorem Queued.add (queued : Queued tasks trace s) (t : Task) (new : t ∉ tasks)
    (asks : adds a = some t) (links : s'.shared.links = s.shared.links.listAdd t)
    (num : s'.shared.taskNum = s.shared.taskNum + 1) :
    Queued (t :: tasks) (trace ++ [⟨s, a, some (.added t), s'⟩]) s' := by
  refine ⟨?_, ?_, ?_⟩
  · rw [links]
    exact list_add_holds s.shared.links tasks t new queued.holds
  · rw [num, queued.num, List.length_cons, IntCounter.succ]
  · rw [added_snoc, asks, Option.toList_some, handed, List.filterMap_append]
    change added trace ++ [t] = (handed trace ++ []).map Prod.snd ++ (t :: tasks).reverse
    rw [queued.order, List.append_nil, List.reverse_cons, List.append_assoc]

omit [Fintype Client] [DecidableEq Client] in
theorem Queued.get {t : Task} (queued : Queued (tasks ++ [t]) trace s) (i : Nat)
    (asks : adds a = none) (links : s'.shared.links = s.shared.links.listDel.2)
    (num : s'.shared.taskNum = s.shared.taskNum - 1) :
    Queued tasks (trace ++ [⟨s, a, some (.handed i t), s'⟩]) s' := by
  refine ⟨?_, ?_, ?_⟩
  · rw [links]
    exact (list_del_holds s.shared.links tasks t queued.holds).2
  · rw [num, queued.num, List.length_append, List.length_singleton,
      IntCounter.pred _ (Nat.succ_pos _), Nat.add_one_sub_one]
  · rw [added_snoc, asks, Option.toList_none, List.append_nil, handed, List.filterMap_append]
    change added trace = (handed trace ++ [(i, t)]).map Prod.snd ++ tasks.reverse
    rw [queued.order, List.map_append, List.reverse_append, List.append_assoc]
    rfl

end

theorem queued_step (tasks : List Task) (trace : List (Step n Client Task))
    (e : Step n Client Task) (stepped : machine.Stepped e) (queued : Queued tasks trace e.before)
    (owned : Owned tasks e.before) :
    (∃ tasks', Queued tasks' (trace ++ [e]) e.after ∧ Owned tasks' e.after) ∧
      (e.output = some .null → e.before.shared.shutdown = true) := by
  have does := step_does e stepped
  have asks := adds_output e stepped
  obtain ⟨s, a, output, after⟩ := e
  dsimp only at does asks queued owned ⊢
  cases does with
  | @taskNew t here unused =>
      exact ⟨⟨tasks, queued.idle rfl rfl asks rfl, owned.taskNew _ t unused⟩, nofun⟩
  | @add t target phase here woken =>
      -- a task that its maker still holds is in no list
      have new : t ∉ tasks := (owned.held _ t (by rw [here, owns])).2
      exact ⟨⟨t :: tasks, queued.add t new asks rfl rfl, owned.add woken _ t here _ rfl⟩, nofun⟩
  | destroy here open_ woken =>
      exact ⟨⟨tasks, queued.idle rfl rfl asks rfl, owned.rests woken _ _ _ rfl rfl⟩, nofun⟩
  | pass here open_ =>
      exact ⟨⟨tasks, queued.idle rfl rfl asks rfl, owned.rests .quiet _ _ _ rfl rfl⟩, nofun⟩
  | leave here shut =>
      exact ⟨⟨tasks, queued.idle rfl rfl asks rfl, owned.rests .quiet _ _ _ rfl rfl⟩, nofun⟩
  | wait here empty open_ =>
      exact ⟨⟨tasks, queued.idle rfl rfl asks rfl, owned.rests .quiet _ _ _ rfl rfl⟩, nofun⟩
  | null here shut =>
      exact ⟨⟨tasks, queued.idle rfl rfl asks rfl, owned.rests .quiet _ _ _ rfl rfl⟩,
        fun _ => shut⟩
  | @torn i here filled open_ none_ =>
      -- head.prev of a list that is not empty is its last task, so it is never NULL
      rcases List.eq_nil_or_concat tasks with rfl | ⟨front, t, rfl⟩
      · rw [(holds_empty _ [] queued.holds).mpr rfl] at filled
        cases filled
      · rw [List.concat_eq_append] at queued
        rw [(list_del_holds _ front t queued.holds).1] at none_
        cases none_
  | @get i t here filled open_ found =>
      rcases List.eq_nil_or_concat tasks with rfl | ⟨front, last, rfl⟩
      · rw [(holds_empty _ [] queued.holds).mpr rfl] at filled
        cases filled
      · rw [List.concat_eq_append] at queued owned
        rw [(list_del_holds _ front last queued.holds).1] at found
        cases found
        have new : t ∉ front := fun member =>
          (List.nodup_append.mp queued.holds.distinct).2.2 t member t (by simp) rfl
        exact ⟨⟨front, queued.get i asks rfl rfl, owned.get new _ i _ rfl⟩, nofun⟩
  | @run i t here =>
      exact ⟨⟨tasks, queued.idle rfl rfl asks rfl, owned.run _ i t here⟩, nofun⟩
  | join here more within gone =>
      exact ⟨⟨tasks, queued.idle rfl rfl asks rfl, owned.rests .quiet _ _ _ rfl rfl⟩, nofun⟩
  | outOfRange here more beyond =>
      exact ⟨⟨tasks, queued.idle rfl rfl asks rfl, owned.rests .quiet _ _ _ rfl rfl⟩, nofun⟩
  | destroyed here over_ =>
      exact ⟨⟨tasks, queued.idle rfl rfl asks rfl, owned.rests .quiet _ _ _ rfl rfl⟩, nofun⟩
  | spurious here =>
      exact ⟨⟨tasks, queued.idle rfl rfl asks rfl, owned.rests .quiet _ _ _ rfl rfl⟩, nofun⟩

theorem queued_run {trace : List (Step n Client Task)} {s : State n Client Task}
    (run : machine.Run trace s) : ∃ tasks, Queued tasks trace s ∧ Owned tasks s := by
  refine run.history (C := fun _ => True)
    (I := fun trace s => ∃ tasks, Queued tasks trace s ∧ Owned tasks s) ?_ ?_ fun _ _ => trivial
  · intro s first
    obtain ⟨next, prev, num, -, made, -, phase⟩ := first
    have none_ (u : Thread n Client) : owns (s.phase u) = none := by
      rw [phase u]
      cases u <;> rfl
    refine ⟨[], ⟨⟨next, prev, List.nodup_nil⟩, num, rfl⟩, nofun, fun u t has => ?_, fun u v t has => ?_⟩
    · rw [none_ u] at has
      cases has
    · rw [none_ u] at has
      cases has
  · rintro trace e stepped - ⟨tasks, queued, owned⟩
    exact (queued_step tasks trace e stepped queued owned).1

/-! What is in use after a step. -/

theorem task_new_made {s after : State n Client Task} {u : Thread n Client} {t : Task}
    {target : Option (Thread n Client)} {output : Option (Output Task)}
    (stepped : machine.Stepped ⟨s, .enter u (.taskNew t) target, output, after⟩) :
    s.shared.made t = false ∧ after.shared.made = Function.update s.shared.made t true := by
  cases Monitor.step_effect (monitor n) s after _ output stepped with
  | @enter _ owned _ _ sec _ here ran _ =>
      change enter n owned (.taskNew t) s.shared = some sec at ran
      cases owned with
      | client task =>
          cases task with
          | none =>
              simp only [enter, taskNew, Option.ite_none_left_eq_some, Option.some.injEq,
                Bool.not_eq_true] at ran
              obtain ⟨unused, rfl⟩ := ran
              exact ⟨unused, rfl⟩
          | some _ => cases ran
      | _ => cases ran

theorem add_made {s after : State n Client Task} {u : Thread n Client} {t : Task}
    {target : Option (Thread n Client)} {output : Option (Output Task)}
    (stepped : machine.Stepped ⟨s, .enter u (.add t) target, output, after⟩) :
    after.shared.made = s.shared.made := by
  cases Monitor.step_effect (monitor n) s after _ output stepped with
  | @enter _ owned _ _ sec _ here ran _ =>
      change enter n owned (.add t) s.shared = some sec at ran
      cases owned with
      | client task =>
          cases task with
          | none => cases ran
          | some own =>
              simp only [enter, Option.ite_none_right_eq_some, Option.some.injEq] at ran
              obtain ⟨_, rfl⟩ := ran
              rfl
      | _ => cases ran

theorem work_made {trace : List (Step n Client Task)} {s after : State n Client Task}
    {a : Action n Client Task} {output : Option (Output Task)} {i : Fin n}
    (run : machine.Run trace s) (stepped : machine.Stepped ⟨s, a, output, after⟩)
    (own : thread a = .inl i) :
    (∃ j t, output = some (.freed t) ∧ s.phase (.inl i) = .outside (.run j t) ∧
      s.shared.made t = true ∧ after.shared.made = Function.update s.shared.made t false) ∨
    ((∀ t, output ≠ some (.freed t)) ∧ after.shared.made = s.shared.made) := by
  have does := step_does _ stepped
  dsimp only at does
  rw [own] at does
  cases does with
  | taskNew here _ =>
      obtain ⟨c, elsewhere⟩ := (placed_run run).client here (.client none)
      cases elsewhere
  | @run j t here =>
      obtain ⟨tasks, -, owned⟩ := queued_run run
      exact Or.inl ⟨j, t, rfl, here, (owned.held (.inl i) t (by rw [here, owns])).1, rfl⟩
  | add | destroy | pass | leave | wait | null | torn | get | join | outOfRange | destroyed
  | spurious => exact Or.inr ⟨by simp, rfl⟩

/-! A thread of the pool that goes on takes tasks until there are none. -/

/-- How many steps a thread of the pool is from taking a task. -/
def distance : Phase (Local Task) Nat → Nat
  | .outside (.run _ _) => 3
  | .outside (.test _) => 2
  | .waiting .blocked _ => 2
  | .outside (.get _) => 1
  | .waiting .awakened _ => 1
  | _ => 0

def outstanding (trace : List (Step n Client Task)) : Nat :=
  (added trace).length - (handed trace).length

omit [Fintype Client] [DecidableEq Client] [DecidableEq Task] in
theorem Queued.outstanding {tasks : List Task} {trace : List (Step n Client Task)}
    {s : State n Client Task} (queued : Queued tasks trace s) :
    outstanding trace = tasks.length := by
  have whole := congrArg List.length queued.order
  rw [List.length_append, List.length_map, List.length_reverse] at whole
  rw [ThreadPool.outstanding, whole, Nat.add_sub_cancel_left]

def left (w : Fin n) (trace : List (Step n Client Task)) (s : State n Client Task) : Nat :=
  if outstanding trace = 0 then 0 else 4 * outstanding trace + distance (s.phase (.inl w))

def quietly (s : State n Client Task) (u : Thread n Client) (call : Call Task)
    (sec : PoolSection Task) : Step n Client Task :=
  ⟨s, .enter u call none, some sec.output, ⟨sec.shared, Function.update s.phase u sec.exit.phase⟩⟩

theorem quietly_stepped (s : State n Client Task) (u : Thread n Client) (owned : Local Task)
    (call : Call Task) (sec : PoolSection Task) (here : s.phase u = .outside owned)
    (ran : enter n owned call s.shared = some sec) (quiet : sec.wake = .quiet) :
    machine.Stepped (quietly s u call sec) := by
  change (monitor n).step s (.enter u call none) = _
  have runs : (monitor n).enter owned call s.shared = some sec := ran
  simp only [Monitor.step, Monitor.sectionOf, here, runs, Option.map_some, quiet, Monitor.wakeUp]
  rfl

theorem get_found (i : Nat) (sh : Shared Task) (tasks : List Task) (t : Task)
    (holds : Holds sh.links (tasks ++ [t])) (open_ : sh.shutdown = false) :
    threadPoolGet i sh = ⟨{ sh with links := sh.links.listDel.2, taskNum := sh.taskNum - 1 },
      .quiet, .handed i t, .leave (.run i t)⟩ := by
  have filled : sh.links.isEmpty = false := by
    rw [Bool.eq_false_iff, ne_eq, holds_empty sh.links _ holds]
    simp
  simp [threadPoolGet, open_, filled, (list_del_holds sh.links tasks t holds).1]

/-- While there are tasks, a thread of the pool has a step to do that brings it nearer to one or
takes one. -/
theorem worker_moves (w : Fin n) {trace : List (Step n Client Task)} {s : State n Client Task}
    (run : machine.Run trace s) (open_ : s.shared.shutdown = false) (some_ : left w trace s ≠ 0) :
    ∃ e : Step n Client Task, e.before = s ∧ machine.Stepped e ∧
      adds e.action = none ∧ e.after.shared.shutdown = false ∧
      left w (trace ++ [e]) e.after < left w trace s := by
  have num : outstanding trace ≠ 0 := fun zero => some_ (if_pos zero)
  obtain ⟨tasks, queued, -⟩ := queued_run run
  obtain ⟨front, t, rfl⟩ : ∃ front t, tasks = front ++ [t] := by
    rcases List.eq_nil_or_concat tasks with rfl | ⟨front, t, rfl⟩
    · exact absurd queued.outstanding num
    · exact ⟨front, t, List.concat_eq_append⟩
  have now : left w trace s = 4 * outstanding trace + distance (s.phase (.inl w)) := if_neg num
  have taken (e : Step n Client Task) (after : State n Client Task)
      (next : Queued front (trace ++ [e]) after) (at_ : distance (after.phase (.inl w)) ≤ 3) :
      left w (trace ++ [e]) after < 4 * outstanding trace + 1 := by
    rw [left, next.outstanding, queued.outstanding, List.length_append, List.length_singleton]
    split <;> omega
  have nearer (e : Step n Client Task) (sh : Shared Task) (p : Phase (Local Task) Nat)
      (same : Queued (front ++ [t]) (trace ++ [e])
        ⟨sh, Function.update s.phase (.inl w) p⟩)
      (less : distance p < distance (s.phase (.inl w))) :
      left w (trace ++ [e]) (⟨sh, Function.update s.phase (.inl w) p⟩ : State n Client Task) <
        left w trace s := by
    rw [now, left, same.outstanding, ← queued.outstanding, if_neg num]
    dsimp only
    rw [Function.update_self]
    omega
  have place := (placed_run run).workers w
  have found := get_found w s.shared front t queued.holds open_
  -- one case for each place of the thread: it comes nearer to the list, or takes a task
  generalize here : s.phase (.inl w) = p at place
  cases place with
  | test =>
      have passes : test w s.shared = ⟨s.shared, .quiet, .passed, .leave (.get w)⟩ :=
        if_neg (by simp [open_])
      refine ⟨quietly s (.inl w) .proceed (test w s.shared), rfl, ?_, rfl, ?_, ?_⟩
      · exact quietly_stepped s _ _ _ _ here rfl (by rw [passes])
      · rw [passes]
        exact open_
      · rw [passes]
        exact nearer _ _ _ (queued.idle rfl rfl rfl rfl)
          (by rw [here]; exact Nat.lt_succ_self 1)
  | get =>
      refine ⟨quietly s (.inl w) .proceed (threadPoolGet w s.shared), rfl, ?_, rfl, ?_, ?_⟩
      · exact quietly_stepped s _ _ _ _ here rfl (by rw [found])
      · rw [found]
        exact open_
      · rw [found, now, here]
        exact taken _ _ (queued.get w rfl rfl rfl)
          (by simp only [quietly, Exit.phase, Function.update_self]; exact Nat.le_refl 3)
  | run t' =>
      refine ⟨quietly s (.inl w) .proceed (runTask w t' s.shared), rfl, ?_, rfl, open_, ?_⟩
      · exact quietly_stepped s _ _ _ _ here rfl rfl
      · exact nearer _ _ _ (queued.idle rfl rfl rfl rfl)
          (by rw [here]; exact Nat.lt_succ_self 2)
  | blocked =>
      refine ⟨⟨s, .spurious (.inl w), none,
        ⟨s.shared, Function.update s.phase (.inl w) (.waiting .awakened w)⟩⟩, rfl, ?_, rfl, open_, ?_⟩
      · change (monitor n).step s (.spurious (.inl w)) = _
        simp [Monitor.step, Monitor.sectionOf, Monitor.shiftOf, here]
      · exact nearer _ _ _ (queued.idle rfl rfl rfl rfl)
          (by rw [here]; exact Nat.lt_succ_self 1)
  | awakened =>
      refine ⟨⟨s, .resume (.inl w) () none, some (threadPoolGet w s.shared).output,
        ⟨(threadPoolGet w s.shared).shared, Function.update s.phase (.inl w)
          (threadPoolGet w s.shared).exit.phase⟩⟩, rfl, ?_, rfl, ?_, ?_⟩
      · change (monitor n).step s (.resume (.inl w) () none) = _
        have resumes : (monitor n).resume () w s.shared = threadPoolGet w s.shared := rfl
        simp only [Monitor.step, Monitor.sectionOf, here, resumes]
        rw [found]
        rfl
      · rw [found]
        exact open_
      · rw [found, now, here]
        exact taken _ _ (queued.get w rfl rfl rfl)
          (by simp only [Exit.phase, Function.update_self]; exact Nat.le_refl 3)
  | returned shut => exact absurd (open_.symm.trans shut) Bool.false_ne_true

omit [Fintype Client] [DecidableEq Client] [DecidableEq Task] in
theorem added_append (trace more : List (Step n Client Task))
    (none_ : ∀ e ∈ more, adds e.action = none) : added (trace ++ more) = added trace := by
  have empty : added more = [] := List.filterMap_eq_nil_iff.mpr none_
  rw [added, List.filterMap_append]
  change added trace ++ added more = added trace
  rw [empty, List.append_nil]

/-- In every run, with any threads in any order and with wake-ups at any time: the list is a
well-formed circular one with `task_num` tasks, as long as an int has room for their number; what
has been handed out is what was added, each task once and in order, up to those in the list; a
call without a task is one that has found the pool shut down; and a pool with threads that is not
shut down can hand out everything. -/
theorem tasks_handed (trace : List (Step n Client Task)) (s : State n Client Task)
    (run : machine.Run trace s) :
    (∃ tasks, Holds s.shared.links tasks ∧
      (tasks.length < 2 ^ 31 → s.shared.taskNum.toInt = tasks.length) ∧
      added trace = (handed trace).map Prod.snd ++ tasks.reverse) ∧
    (∀ e ∈ trace, e.output = some .null → e.before.shared.shutdown = true) ∧
    (0 < n → s.shared.shutdown = false → ∃ more last, machine.Run (trace ++ more) last ∧
      added (trace ++ more) = added trace ∧
      (handed (trace ++ more)).map Prod.snd = added trace) := by
  refine ⟨?_, ?_, fun some_ open_ => ?_⟩
  · obtain ⟨tasks, queued, -⟩ := queued_run run
    refine ⟨tasks, queued.holds, fun room => ?_, queued.order⟩
    rw [queued.num, IntCounter.value _ room]
  · refine run.each fun trace e before stepped => ?_
    obtain ⟨tasks, queued, owned⟩ := queued_run before
    exact (queued_step tasks trace e stepped queued owned).2
  · obtain ⟨more, last, longer, quiet, -, empty⟩ :=
      run.drain_history (C := fun e => adds e.action = none)
        (I := fun _ s => s.shared.shutdown = false) (left ⟨0, some_⟩)
        (fun _ _ run open_ => worker_moves ⟨0, some_⟩ run open_) open_
    have same := added_append trace more quiet
    refine ⟨more, last, longer, same, ?_⟩
    obtain ⟨tasks, queued, -⟩ := queued_run longer
    have count := queued.outstanding
    have none_ : outstanding (trace ++ more) = 0 := by
      by_contra some_
      rw [left, if_neg some_] at empty
      omega
    obtain rfl : tasks = [] := List.length_eq_zero_iff.mp (count.symm.trans none_)
    rw [← same, queued.order, List.reverse_nil, List.append_nil]

theorem two_tasks_handed : ∃ (trace : List (Step 1 Unit (Fin 3)))
    (last : State 1 Unit (Fin 3)), machine.Run trace last ∧
      (handed trace).map Prod.snd = [2, 1] := by
  obtain ⟨trace, s, run, checked⟩ := Machine.run_of_check
    (M := (machine : Machine (State 1 Unit (Fin 3)) _ _)) initial_start
    [.enter (.inl 0) .proceed none, .enter (.inl 0) .proceed none,
      .enter (.inr ()) (.taskNew 2) none, .enter (.inr ()) (.add 2) (some (.inl 0)),
      .enter (.inr ()) (.taskNew 1) none, .enter (.inr ()) (.add 1) none]
    (fun r => decide (added r.1 = [2, 1] ∧ r.2.shared.shutdown = false)) (by decide +kernel)
  obtain ⟨two, open_⟩ := of_decide_eq_true checked
  obtain ⟨more, last, longer, -, all⟩ := (tasks_handed trace s run).2.2 Nat.one_pos open_
  exact ⟨trace ++ more, last, longer, all.trans two⟩

theorem adds_go_on (k : Nat) : ∃ (trace : List (Step 1 Unit Nat)) (s : State 1 Unit Nat),
    machine.Run trace s ∧ s.phase = (fun u => .outside (home u)) ∧ s.shared.shutdown = false ∧
    (∀ t, k ≤ t → s.shared.made t = false) ∧ (added trace).length = k ∧ handed trace = [] := by
  -- one more task is made and added; the thread of the pool has not moved
  induction k with
  | zero => exact ⟨[], initial, .start initial_start, rfl, rfl, fun _ _ => rfl, rfl, rfl⟩
  | succ k ih =>
      obtain ⟨trace, s, run, phase, open_, unmade, count, none_⟩ := ih
      let makes : PoolSection Nat := ⟨{ s.shared with made := Function.update s.shared.made k true },
        .quiet, .made k, .leave (.client (some k))⟩
      let made : Step 1 Unit Nat := quietly s (.inr ()) (.taskNew k) makes
      have here : s.phase (.inr ()) = .outside (.client none) := by
        rw [phase]
        rfl
      have made_stepped : machine.Stepped made := by
        refine quietly_stepped s _ (.client none) _ makes here ?_ rfl
        exact if_neg (by rw [unmade k (Nat.le_refl k)]; exact Bool.false_ne_true)
      let adding : Step 1 Unit Nat := ⟨made.after, .enter (.inr ()) (.add k) none, some (.added k),
        ⟨(threadPoolAdd k made.after.shared).shared,
          Function.update made.after.phase (.inr ()) (.outside (.client none))⟩⟩
      have adding_stepped : machine.Stepped adding := by
        have nobody : ∀ u, Monitor.blockedOn (fun _ : Nat => ()) ()
            (Function.update s.phase (.inr ()) makes.exit.phase u) = false := by
          rw [phase]
          rintro (i | ⟨⟩) <;> rfl
        have there : Function.update s.phase (.inr ()) makes.exit.phase (.inr ()) =
            .outside (.client (some k)) := Function.update_self _ _ _
        have adds : (monitor 1).enter (.client (some k)) (.add k) makes.shared =
            some (threadPoolAdd k makes.shared) := if_pos rfl
        change (monitor 1).step ⟨makes.shared, Function.update s.phase (.inr ()) makes.exit.phase⟩
          (.enter (.inr ()) (.add k) none) = _
        simp only [Monitor.step, Monitor.sectionOf, there, adds, Option.map_some]
        have wakes : Monitor.wakeUp (@monitor Nat _ 1).condOf
            (Function.update s.phase (.inr ()) makes.exit.phase)
            (threadPoolAdd k makes.shared).wake none =
              some (Function.update s.phase (.inr ()) makes.exit.phase) := if_pos nobody
        rw [wakes]
        rfl
      refine ⟨trace ++ [made] ++ [adding], adding.after, (run.next made made_stepped).next adding
        adding_stepped, ?_, open_, ?_, ?_, ?_⟩
      · refine Eq.trans ?_ phase
        change Function.update (Function.update s.phase (.inr ()) _) (.inr ()) _ = s.phase
        rw [Function.update_idem, ← here, Function.update_eq_self]
      · intro t later
        exact (Function.update_of_ne (by omega) _ _).trans (unmade t (by omega))
      · rw [added_snoc, added_snoc, List.length_append, List.length_append, count]
        rfl
      · rw [handed, List.filterMap_append, List.filterMap_append]
        change handed trace ++ [] ++ [] = []
        rw [none_, List.append_nil, List.append_nil]

theorem task_num_negative : ∃ (trace : List (Step 1 Unit Nat)) (s : State 1 Unit Nat),
    machine.Run trace s ∧ s.shared.shutdown = false ∧
    ¬ ∃ tasks, Holds s.shared.links tasks ∧ s.shared.taskNum.toInt = tasks.length := by
  obtain ⟨trace, s, run, -, open_, -, count, none_⟩ := adds_go_on (2 ^ 31)
  refine ⟨trace, s, run, open_, ?_⟩
  rintro ⟨tasks, holds, value⟩
  obtain ⟨queue, queued, -⟩ := queued_run run
  obtain rfl : tasks = queue := walk_unique tasks queue holds.forward queued.holds.forward
  have length : tasks.length = 2 ^ 31 := by
    rw [← queued.outstanding, outstanding, count, none_]
    rfl
  rw [queued.num, length] at value
  exact absurd value (by decide)

end NetworkProgramming.ThreadPool
