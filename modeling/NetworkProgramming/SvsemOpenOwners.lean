import NetworkProgramming.SvsemOpen

/-!
Who created a set, who has initialised it, and who removes it. A call that gets
to `finish` without having created its set has seen `sem_otime` set, which only
the creator does. The label `err` removes whatever set the call holds; that is
its own exactly when no call gives up on somebody else's.
-/

namespace NetworkProgramming.SvsemOpen

open SemSets

variable {Call Key : Type*} [DecidableEq Call] [DecidableEq Key]

abbrev Trace (Call Key : Type*) := List (Step Call Key)

def Happened (trace : Trace Call Key) (call : Call) (outcome : Outcome) : Prop :=
  ∃ e ∈ trace, e.output = ⟨call, outcome⟩

def Created (trace : Trace Call Key) (call : Call) (semid : Nat) : Prop :=
  Happened trace call (.created semid)

/-- The call that created the set has executed its semop on it. -/
def Initialised (trace : Trace Call Key) (semid : Nat) : Prop :=
  ∃ call, Created trace call semid ∧ Happened trace call (.initialised semid)

omit [DecidableEq Call] [DecidableEq Key] in
theorem happened_next (trace : Trace Call Key) (e : Step Call Key) (call : Call)
    (outcome : Outcome) :
    Happened (trace ++ [e]) call outcome ↔
      Happened trace call outcome ∨ e.output = ⟨call, outcome⟩ := by
  simp only [Happened, List.mem_append, List.mem_singleton]
  constructor
  · rintro ⟨d, member | rfl, same⟩
    · exact Or.inl ⟨d, member, same⟩
    · exact Or.inr same
  · rintro (⟨d, member, same⟩ | last)
    · exact ⟨d, Or.inl member, same⟩
    · exact ⟨e, Or.inr rfl, last⟩

omit [DecidableEq Call] [DecidableEq Key] in
theorem initialised_next (trace : Trace Call Key) (e : Step Call Key) (semid : Nat)
    (before : Initialised trace semid) : Initialised (trace ++ [e]) semid := by
  obtain ⟨call, created, initialised⟩ := before
  refine ⟨call, ?_, ?_⟩
  · exact (happened_next trace e call _).mpr (Or.inl created)
  · exact (happened_next trace e call _).mpr (Or.inl initialised)

omit [DecidableEq Key] in
theorem set_some (task : Task Key) (kernel : Kernel Key) (set : SemSet Key)
    (found : task.set kernel = some set) :
    task.semid = some set.semid ∧ set ∈ kernel.sets := by
  obtain ⟨semid, held, there⟩ := Option.bind_eq_some_iff.mp found
  obtain ⟨member, same⟩ := by_id_some there
  exact ⟨by rw [held, same], member⟩

omit [DecidableEq Key] in
theorem set_none (task : Task Key) (kernel : Kernel Key) (semid : Nat)
    (held : task.semid = some semid) (absent : task.set kernel = none) :
    ¬ kernel.Has semid := by
  rw [Task.set, held] at absent
  exact by_id_none absent

/-! What a call knows about the set it holds. -/

structure Known (trace : Trace Call Key) (call : Call) (task : Task Key) : Prop where
  early : task.place.early = true → task.semid = none ∧ task.created = false
  owning : task.place.owning = true → task.created = true
  mine : ∀ semid, Created trace call semid ↔ task.created = true ∧ task.semid = some semid
  held : task.created = true → task.semid ≠ none
  finish : task.place = .finish → task.created = false →
    ∃ semid, task.semid = some semid ∧ Initialised trace semid

omit [DecidableEq Call] [DecidableEq Key] in
theorem moved_known (trace : Trace Call Key) (e : Step Call Key) (call : Call)
    (task : Task Key) (place : Place Key) (other : ∀ semid, e.output ≠ ⟨call, .created semid⟩)
    (early : place.early = true → task.place.early = true)
    (owning : place.owning = true → task.place.owning = true)
    (finish : place = .finish → task.created = false →
      ∃ semid, task.semid = some semid ∧ Initialised trace semid)
    (known : Known trace call task) :
    Known (trace ++ [e]) call { task with place := place } := by
  constructor
  · exact fun here => known.early (early here)
  · exact fun here => known.owning (owning here)
  · intro semid
    rw [← known.mine semid, Created, happened_next]
    constructor
    · rintro (before | now)
      · exact before
      · exact absurd now (other semid)
    · exact Or.inl
  · exact known.held
  · intro here apart
    obtain ⟨semid, held, initialised⟩ := finish here apart
    exact ⟨semid, held, initialised_next trace e semid initialised⟩

omit [DecidableEq Call] [DecidableEq Key] in
theorem still_known (trace : Trace Call Key) (e : Step Call Key) (call : Call)
    (task : Task Key) (other : ∀ semid, e.output ≠ ⟨call, .created semid⟩)
    (known : Known trace call task) : Known (trace ++ [e]) call task :=
  moved_known trace e call task task.place other id id known.finish known

def Ready (trace : Trace Call Key) (kernel : Kernel Key) : Prop :=
  ∀ semid, kernel.Timed semid → Initialised trace semid

omit [DecidableEq Call] [DecidableEq Key] in
theorem did_known (trace : Trace Call Key) (e : Step Call Key) (call : Call) (task : Task Key)
    (kernel : Kernel Key) (answer : Answer Key) (did : Result Key)
    (effect : Did task kernel answer did) (output : e.output = ⟨call, did.outcome⟩)
    (ready : Ready trace kernel) (known : Known trace call task) :
    Known (trace ++ [e]) call did.task := by
  cases effect with
  | early place here there =>
      refine moved_known trace e call task place (by simp [output, Task.goto]) (fun _ => here)
        ?_ ?_ known
      · cases place <;> simp [Place.early, Place.owning] at there ⊢
      · rintro rfl
        cases there
  | watch place here there =>
      refine moved_known trace e call task place (by simp [output, Task.goto]) ?_ ?_ ?_ known
      · cases place <;> simp [Place.early, Place.watching] at there ⊢
      · cases place <;> simp [Place.owning, Place.watching] at there ⊢
      · rintro rfl
        cases there
  | ready set here found timed =>
      refine moved_known trace e call task .finish (by simp [output, Task.goto]) ?_ ?_ ?_ known
      · simp [Place.early]
      · simp [Place.owning]
      · intro _ _
        obtain ⟨held, member⟩ := set_some task kernel set found
        exact ⟨set.semid, held, ready set.semid ⟨set, member, rfl, timed⟩⟩
  | error here =>
      refine moved_known trace e call task .err (by simp [output, Task.goto]) ?_ ?_ ?_ known
      · simp [Place.early]
      · simp [Place.owning]
      · simp
  | fails =>
      refine moved_known trace e call task .returned (by simp [output, Task.fails]) ?_ ?_ ?_ known
      · simp [Place.early]
      · simp [Place.owning]
      · simp
  | created key here =>
      obtain ⟨_, apart⟩ := known.early here
      constructor
      · simp [Place.early]
      · simp
      · intro semid
        rw [Created, happened_next, output]
        have before := known.mine semid
        simp only [apart, Bool.false_eq_true, false_and, iff_false] at before
        simp only [Created] at before
        simp [before]
      · simp
      · simp
  | setval set place here there =>
      refine moved_known trace e call task place (by simp [output, Task.goto]) ?_
        (fun _ => here) ?_ known
      · rcases there with rfl | rfl <;> simp [Place.early]
      · rcases there with rfl | rfl <;> simp
  | initialised set value here found =>
      refine moved_known trace e call task .finish (by simp [output]) ?_ ?_ ?_ known
      · simp [Place.early]
      · simp [Place.owning]
      · intro _ apart
        rw [known.owning here] at apart
        cases apart
  | attached set here has =>
      obtain ⟨_, apart⟩ := known.early here
      constructor
      · simp [Place.early]
      · simp [Place.owning]
      · intro semid
        rw [Created, happened_next, output]
        have before := known.mine semid
        simp only [apart, Bool.false_eq_true, false_and, iff_false] at before
        simp only [Created] at before
        simp [before, apart]
      · simp [apart]
      · simp
  | removed set here found =>
      refine moved_known trace e call task .returned (by simp [output]) ?_ ?_ ?_ known
      · simp [Place.early]
      · simp [Place.owning]
      · simp
  | opened here =>
      refine moved_known trace e call task .returned (by simp [output]) ?_ ?_ ?_ known
      · simp [Place.early]
      · simp [Place.owning]
      · simp

omit [DecidableEq Call] [DecidableEq Key] in
theorem did_ready (trace : Trace Call Key) (e : Step Call Key) (call : Call) (task : Task Key)
    (kernel : Kernel Key) (answer : Answer Key) (did : Result Key)
    (effect : Did task kernel answer did) (output : e.output = ⟨call, did.outcome⟩)
    (known : Known trace call task) (ready : Ready trace kernel) :
    Ready (trace ++ [e]) did.kernel := by
  have kept (semid : Nat) (timed : kernel.Timed semid) : Initialised (trace ++ [e]) semid :=
    initialised_next trace e semid (ready semid timed)
  intro semid timed
  cases effect with
  | created key here => exact kept semid (timed_create kernel key semid timed)
  | setval set place here there =>
      rcases timed_update kernel _ _ _ semid timed with before | ⟨_, never⟩
      · exact kept semid before
      · cases never
  | initialised set value here found =>
      rcases timed_update kernel _ _ _ semid timed with before | ⟨rfl, _⟩
      · exact kept semid before
      · obtain ⟨held, _⟩ := set_some task kernel set found
        have created := (known.mine set.semid).mpr ⟨known.owning here, held⟩
        refine ⟨call, ?_, ?_⟩
        · exact (happened_next trace e call _).mpr (Or.inl created)
        · exact (happened_next trace e call _).mpr (Or.inr output)
  | removed set here found => exact kept semid (timed_remove kernel _ semid timed)
  | _ => exact kept semid timed

/-! Identifiers are never reused. -/

omit [DecidableEq Key] in
theorem did_has (task : Task Key) (kernel : Kernel Key) (answer : Answer Key) (did : Result Key)
    (effect : Did task kernel answer did) (semid : Nat) (has : did.kernel.Has semid) :
    kernel.Has semid ∨ semid = kernel.next := by
  cases effect with
  | created key here => exact (has_create kernel key semid).mp has
  | setval set place here there => exact Or.inl ((has_update kernel _ _ _ semid).mp has)
  | initialised set value here found => exact Or.inl ((has_update kernel _ _ _ semid).mp has)
  | removed set here found => exact Or.inl ((has_remove kernel _ semid).mp has).1
  | _ => exact Or.inl has

omit [DecidableEq Key] in
theorem did_issued (task : Task Key) (kernel : Kernel Key) (answer : Answer Key)
    (did : Result Key) (effect : Did task kernel answer did)
    (issued : ∀ semid, task.semid = some semid → semid < kernel.next) :
    kernel.next ≤ did.kernel.next ∧
      ∀ semid, did.task.semid = some semid → semid < did.kernel.next := by
  cases effect with
  | created key here =>
      refine ⟨Nat.le_succ _, ?_⟩
      rintro semid same
      cases same
      exact Nat.lt_succ_self _
  | attached set here has =>
      refine ⟨Nat.le_refl _, ?_⟩
      rintro semid same
      cases same
      exact has_issued has
  | _ => exact ⟨Nat.le_refl _, issued⟩

/-! Runs. -/

structure Sound (trace : Trace Call Key) (s : State Call Key) : Prop where
  known : ∀ call, Known trace call (s.task call)
  ready : Ready trace s.kernel
  issued : ∀ call semid, (s.task call).semid = some semid → semid < s.kernel.next

omit [DecidableEq Call] [DecidableEq Key] in
theorem start_sound (args : Call → Args) : Sound [] (start args : State Call Key) := by
  constructor
  · intro call
    constructor
    · simp [start, enter]
    · cases creat : (args call).creat <;> simp [start, enter, creat, Place.owning]
    · simp [start, enter, Created, Happened]
    · simp [start, enter]
    · cases creat : (args call).creat <;> simp [start, enter, creat]
  · rintro semid ⟨set, member, _⟩
    cases member
  · simp [start, enter]

theorem step_sound (args : Call → Args) (trace : Trace Call Key) (e : Step Call Key)
    (stepped : (machine args).Stepped e) (sound : Sound trace e.before) :
    Sound (trace ++ [e]) e.after := by
  obtain ⟨did, effect, after, output⟩ :=
    step_did args e.before e.after e.action e.output stepped
  obtain ⟨known, ready, issued⟩ := sound
  obtain ⟨grown, mine⟩ := did_issued _ _ _ did effect (issued e.action.call)
  rw [after]
  constructor
  · intro call
    by_cases same : call = e.action.call
    · rw [same]
      simp only [Function.update_self]
      exact did_known trace e _ _ _ _ did effect output ready (known e.action.call)
    · simp only [Function.update_of_ne same]
      apply still_known trace e call _ _ (known call)
      intro semid created
      rw [output] at created
      simp only [Event.mk.injEq] at created
      exact same created.1.symm
  · exact did_ready trace e _ _ _ _ did effect output (known e.action.call) ready
  · intro call semid
    by_cases same : call = e.action.call
    · rw [same]
      simp only [Function.update_self]
      exact mine semid
    · simp only [Function.update_of_ne same]
      intro held
      exact Nat.lt_of_lt_of_le (issued call semid held) grown

theorem run_sound (args : Call → Args) (trace : Trace Call Key) (s : State Call Key)
    (run : (machine args).Run trace s) : Sound trace s := by
  apply run.history (C := fun _ => True) (I := fun trace s => Sound trace s)
  · rintro s rfl
    exact start_sound args
  · intro trace e stepped _ sound
    exact step_sound args trace e stepped sound
  · simp

/-! What `err` removes. -/

/-- A call gives up on a set that it did not create and that is still there. -/
def Abandons (e : Step Call Key) : Prop :=
  (e.before.task e.action.call).created = false ∧
  GivesUp (e.before.task e.action.call).place e.action.answer ∧
  ∃ semid, (e.before.task e.action.call).semid = some semid ∧ e.before.kernel.Has semid

def Clear (s : State Call Key) : Prop :=
  ∀ call, (s.task call).place = .err → (s.task call).created = false →
    ∀ semid, (s.task call).semid = some semid → ¬ s.kernel.Has semid

omit [DecidableEq Call] [DecidableEq Key] in
theorem did_clear (trace : Trace Call Key) (call : Call) (task : Task Key) (kernel : Kernel Key)
    (answer : Answer Key) (did : Result Key) (effect : Did task kernel answer did)
    (known : Known trace call task)
    (patient : task.created = false → GivesUp task.place answer →
      ∀ semid, task.semid = some semid → ¬ kernel.Has semid)
    (here : did.task.place = .err) (apart : did.task.created = false) (semid : Nat)
    (held : did.task.semid = some semid) : ¬ did.kernel.Has semid := by
  cases effect with
  | error why =>
      rcases why with early | owning | absent | gives
      · rw [Task.goto, (known.early early).1] at held
        cases held
      · rw [Task.goto, known.owning owning] at apart
        cases apart
      · exact set_none task kernel semid held absent
      · exact patient apart gives semid held
  | early place _ there =>
      simp only [Task.goto] at here
      simp [here, Place.early] at there
  | watch place _ there =>
      simp only [Task.goto] at here
      simp [here, Place.watching] at there
  | setval set place owning there =>
      rw [Task.goto, known.owning owning] at apart
      cases apart
  | _ => cases here

theorem step_clear (args : Call → Args) (trace : Trace Call Key) (e : Step Call Key)
    (stepped : (machine args).Stepped e) (patient : ¬ Abandons e) (sound : Sound trace e.before)
    (clear : Clear e.before) : Clear e.after := by
  obtain ⟨did, effect, after, output⟩ :=
    step_did args e.before e.after e.action e.output stepped
  have waits (apart : (e.before.task e.action.call).created = false)
      (gives : GivesUp (e.before.task e.action.call).place e.action.answer) (semid : Nat)
      (held : (e.before.task e.action.call).semid = some semid) :
      ¬ e.before.kernel.Has semid := by
    intro has
    exact patient ⟨apart, gives, semid, held, has⟩
  rw [after]
  intro call
  by_cases same : call = e.action.call
  · rw [same]
    simp only [Function.update_self]
    exact did_clear trace e.action.call _ _ _ did effect (sound.known e.action.call) waits
  · simp only [Function.update_of_ne same]
    intro here apart semid held has
    rcases did_has _ _ _ did effect semid has with before | fresh
    · exact clear call here apart semid held before
    · have old := sound.issued call semid held
      omega

theorem run_clear (args : Call → Args) (trace : Trace Call Key) (s : State Call Key)
    (run : (machine args).Run trace s) (patient : ∀ e ∈ trace, ¬ Abandons e) : Clear s := by
  have both := run.history (C := fun e => ¬ Abandons e)
    (I := fun trace s => Sound trace s ∧ Clear s)
    (by
      rintro s rfl
      refine ⟨start_sound args, ?_⟩
      intro call _ _ semid held
      simp [start, enter] at held)
    (by
      rintro trace e stepped met ⟨sound, clear⟩
      exact ⟨step_sound args trace e stepped sound,
        step_clear args trace e stepped met sound clear⟩)
    patient
  exact both.2

omit [DecidableEq Call] [DecidableEq Key] in
theorem opened_known (trace : Trace Call Key) (call : Call) (task : Task Key)
    (known : Known trace call task) (here : task.place = .finish) :
    ∃ semid, task.semid = some semid ∧
      (Created trace call semid ∨ Initialised trace semid) := by
  cases mine : task.created with
  | true =>
      obtain ⟨semid, held⟩ := Option.ne_none_iff_exists'.mp (known.held mine)
      exact ⟨semid, held, Or.inl ((known.mine semid).mpr ⟨mine, held⟩)⟩
  | false =>
      obtain ⟨semid, held, initialised⟩ := known.finish here mine
      exact ⟨semid, held, Or.inr initialised⟩

theorem step_opened (args : Call → Args) (trace : Trace Call Key) (e : Step Call Key)
    (stepped : (machine args).Stepped e) (sound : Sound trace e.before) (call : Call)
    (semid : Option Nat) (opened : e.output = ⟨call, .opened semid⟩) :
    ∃ id, semid = some id ∧ (Created trace call id ∨ Initialised trace id) := by
  obtain ⟨did, effect, _, output⟩ :=
    step_did args e.before e.after e.action e.output stepped
  rw [output] at opened
  simp only [Event.mk.injEq] at opened
  obtain ⟨rfl, outcome⟩ := opened
  cases effect with
  | opened here =>
      cases outcome
      exact opened_known trace _ _ (sound.known e.action.call) here
  | _ => cases outcome

theorem step_removed (args : Call → Args) (trace : Trace Call Key) (e : Step Call Key)
    (stepped : (machine args).Stepped e) (sound : Sound trace e.before)
    (clear : Clear e.before) (call : Call) (semid : Nat)
    (removed : e.output = ⟨call, .removed semid⟩) : Created trace call semid := by
  obtain ⟨did, effect, _, output⟩ :=
    step_did args e.before e.after e.action e.output stepped
  rw [output] at removed
  simp only [Event.mk.injEq] at removed
  obtain ⟨rfl, outcome⟩ := removed
  cases effect with
  | removed set here found =>
      cases outcome
      obtain ⟨held, member⟩ := set_some _ _ set found
      apply ((sound.known e.action.call).mine set.semid).mpr
      refine ⟨?_, held⟩
      cases mine : (e.before.task e.action.call).created with
      | true => rfl
      | false =>
          exact absurd ⟨set, member, rfl⟩ (clear e.action.call here mine set.semid held)
  | _ => cases outcome

theorem gives_up_err (args : Args) (task : Task Key) (kernel : Kernel Key) (answer : Answer Key)
    (did : Result Key) (ran : mysemOpen args task kernel answer = some did)
    (gives : GivesUp task.place answer) : did = task.goto kernel .err := by
  obtain ⟨place, semid, created⟩ := task
  rcases gives with ⟨i, rfl, rfl⟩ | ⟨i, rfl, last⟩ | ⟨rfl, rfl⟩
  · simpa [mysemOpen] using ran.symm
  · cases answer with
    | ok => simpa [mysemOpen, last] using ran.symm
    | _ => cases ran
  · simpa [mysemOpen] using ran.symm

/-- Right after a call has abandoned a set its IPC_RMID can remove it. -/
theorem abandoned_removed (args : Call → Args) (trace : Trace Call Key) (e : Step Call Key)
    (run : (machine args).Run trace e.before) (stepped : (machine args).Stepped e)
    (abandons : Abandons e) :
    ∃ d semid, (machine args).Run (trace ++ [e, d]) d.after ∧
      d.output = ⟨e.action.call, .removed semid⟩ ∧
      ¬ Created (trace ++ [e]) e.action.call semid := by
  obtain ⟨apart, gives, semid, held, has⟩ := abandons
  have first := run.next e stepped
  have sound := run_sound args _ _ first
  obtain ⟨did, ran, same⟩ := Option.map_eq_some_iff.mp stepped
  have left := gives_up_err _ _ _ _ did ran gives
  simp only [Prod.mk.injEq] at same
  obtain ⟨after, _⟩ := same
  obtain ⟨set, found, named⟩ := by_id_has has
  have task : e.after.task e.action.call =
      { e.before.task e.action.call with place := .err } := by
    rw [← after, left]
    simp [Task.goto]
  have kernel : e.after.kernel = e.before.kernel := by
    rw [← after, left]
    rfl
  have there : (e.after.task e.action.call).set e.after.kernel = some set := by
    rw [task, kernel]
    simpa [Task.set, held] using found
  -- at err the call removes the set whose id it holds, created by it or not
  let removal : Result Key := ⟨{ e.after.task e.action.call with place := .returned },
    e.after.kernel.remove set.semid, .removed set.semid⟩
  have removes : mysemOpen (args e.action.call) (e.after.task e.action.call) e.after.kernel .ok =
      some removal := by
    have here : (e.after.task e.action.call).place = .err := by
      rw [task]
    simp [mysemOpen, here, there, removal]
  refine ⟨⟨e.after, ⟨e.action.call, .ok⟩, ⟨e.action.call, .removed set.semid⟩,
    ⟨Function.update e.after.task e.action.call removal.task, removal.kernel⟩⟩, set.semid, ?_,
    rfl, ?_⟩
  · rw [List.append_cons]
    apply first.next
    simp [Machine.Stepped, machine, step, removes, removal]
  · intro created
    have mine := ((sound.known e.action.call).mine set.semid).mp created
    rw [task] at mine
    exact absurd mine.1 (by simp [apart])

/-- Whoever opens a set without having created it gets one that its creator has
initialised. As long as no call abandons a set, only the creator of a set
removes it; a call that does can remove it in its next step. -/
theorem mysem_open_owners (args : Call → Args) (trace : Trace Call Key) (s : State Call Key)
    (run : (machine args).Run trace s) :
    (∀ pre e post, trace = pre ++ e :: post → ∀ call semid, e.output = ⟨call, .opened semid⟩ →
      ∃ id, semid = some id ∧ (Created pre call id ∨ Initialised pre id)) ∧
    ((∀ e ∈ trace, ¬ Abandons e) →
      ∀ pre e post, trace = pre ++ e :: post → ∀ call semid,
        e.output = ⟨call, .removed semid⟩ → Created pre call semid) ∧
    (∀ pre e post, trace = pre ++ e :: post → Abandons e →
      ∃ d semid, (machine args).Run (pre ++ [e, d]) d.after ∧
        d.output = ⟨e.action.call, .removed semid⟩ ∧
        ¬ Created (pre ++ [e]) e.action.call semid) := by
  refine ⟨?_, ?_, ?_⟩
  · rintro pre e post rfl call semid opened
    obtain ⟨before, stepped⟩ := run.split
    exact step_opened args pre e stepped (run_sound args pre _ before) call semid opened
  · rintro patient pre e post rfl call semid removed
    obtain ⟨before, stepped⟩ := run.split
    have clear := run_clear args pre _ before fun d member =>
      patient d (List.mem_append_left _ member)
    exact step_removed args pre e stepped (run_sound args pre _ before) clear call semid removed
  · rintro pre e post rfl abandons
    obtain ⟨before, stepped⟩ := run.split
    exact abandoned_removed args pre e before stepped abandons

def creatorAndOpener : Bool → Args
  | true => ⟨true, false, 1⟩
  | false => ⟨false, false, 0⟩

theorem opener_finds_initialised :
    ∃ trace s, (machine creatorAndOpener : Machine (State (Bool) Unit) _ _).Run trace s ∧
      Happened trace false (.opened (some 0)) ∧
      (∀ pre e post, trace = pre ++ e :: post → ∀ call semid, e.output = ⟨call, .opened semid⟩ →
        ∃ id, semid = some id ∧ (Created pre call id ∨ Initialised pre id)) ∧
      ((∀ e ∈ trace, ¬ Abandons e) →
        ∀ pre e post, trace = pre ++ e :: post → ∀ call semid,
          e.output = ⟨call, .removed semid⟩ → Created pre call semid) ∧
      (∀ pre e post, trace = pre ++ e :: post → Abandons e →
        ∃ d semid, (machine creatorAndOpener).Run (pre ++ [e, d]) d.after ∧
          d.output = ⟨e.action.call, .removed semid⟩ ∧
          ¬ Created (pre ++ [e]) e.action.call semid) := by
  have ran := Machine.run_of_check
    (M := (machine creatorAndOpener : Machine (State (Bool) Unit) _ _))
    (s := start creatorAndOpener) rfl
    [⟨true, .ok⟩, ⟨true, .key ()⟩, ⟨true, .ok⟩, ⟨false, .key ()⟩, ⟨false, .ok⟩, ⟨false, .ok⟩,
      ⟨false, .ok⟩, ⟨true, .ok⟩, ⟨true, .ok⟩, ⟨true, .ok⟩, ⟨false, .ok⟩, ⟨false, .ok⟩]
    (fun r => r.1.any fun e => decide (e.output = ⟨false, .opened (some 0)⟩)) (by decide +kernel)
  obtain ⟨trace, s, run, found⟩ := ran
  obtain ⟨e, member, opened⟩ := List.any_eq_true.mp found
  exact ⟨trace, s, run, ⟨e, member, by simpa using opened⟩,
    mysem_open_owners creatorAndOpener trace s run⟩

/-- The creator stops after semget; the other call looks ten times and then
removes the set. -/
theorem opener_removes_set :
    ∃ trace s, (machine creatorAndOpener : Machine (State (Bool) Unit) _ _).Run trace s ∧
      Happened trace false (.removed 0) ∧ ¬ Created trace false 0 := by
  have ran := Machine.run_of_check
    (M := (machine creatorAndOpener : Machine (State (Bool) Unit) _ _))
    (s := start creatorAndOpener) rfl
    ([⟨true, .ok⟩, ⟨true, .key ()⟩, ⟨true, .ok⟩, ⟨false, .key ()⟩, ⟨false, .ok⟩] ++
      List.replicate 20 ⟨false, .ok⟩ ++ [⟨false, .ok⟩])
    (fun r => (r.1.any fun e => decide (e.output = ⟨false, .removed 0⟩)) &&
      r.1.all fun e => decide (e.output ≠ ⟨false, .created 0⟩)) (by decide +kernel)
  obtain ⟨trace, s, run, checked⟩ := ran
  obtain ⟨found, absent⟩ := Bool.and_eq_true_iff.mp checked
  obtain ⟨e, member, removed⟩ := List.any_eq_true.mp found
  refine ⟨trace, s, run, ⟨e, member, by simpa using removed⟩, ?_⟩
  rintro ⟨d, there, created⟩
  have other := List.all_eq_true.mp absent d there
  simp [created] at other

end NetworkProgramming.SvsemOpen
