import NetworkProgramming.Web03Accounts

/-!
When the threaded web client cannot deadlock. Main joins with `ndone_mutex`
held, and a worker that has stored F_DONE still has to lock it: once main goes
to join such a worker neither of them moves again.
-/

namespace NetworkProgramming.Web03

variable {nfiles : Nat}

/-! Joining a worker that has yet to lock `ndone_mutex`. -/

/-- The scan finds F_DONE set by a worker that does not have the mutex behind it. -/
def Early (e : Step nfiles) : Prop :=
  ∃ i : Fin nfiles, e.action = .main ∧ e.before.place = .scan i ∧ e.before.flags i = .done ∧
    e.before.worker i = .lock

def Stuck (s : State nfiles) : Prop :=
  ∃ i, s.place = .join i ∧ s.worker i = .lock

theorem not_stuck_moved (s next : State nfiles) (i : Fin nfiles) (w : Worker)
    (worker : next.worker = Function.update s.worker i w)
    (place : ∀ j, next.place = .join j → s.place = .join j)
    (unlocked : w = .lock → s.place ≠ .join i) (clear : ¬ Stuck s) : ¬ Stuck next := by
  rintro ⟨j, here, locking⟩
  have before := place j here
  rw [worker] at locking
  by_cases same : j = i
  · subst j
    rw [Function.update_self] at locking
    exact unlocked locking before
  · rw [Function.update_of_ne same] at locking
    exact clear ⟨j, before, locking⟩

theorem step_not_stuck (maxnconn : Int) (s after : State nfiles) (action : Action nfiles)
    (event : Event nfiles) (effect : Effect maxnconn s action after event)
    (placed : Placed maxnconn s) (late : ¬ Early ⟨s, action, event, after⟩)
    (clear : ¬ Stuck s) : ¬ Stuck after := by
  cases effect with
  | turn place turn =>
      rintro ⟨i, here, locking⟩
      simp only at here
      subst here
      cases turn with
      | found _ scan done => exact late ⟨i, rfl, scan, done, locking⟩
  | create i here found =>
      rintro ⟨j, joining, _⟩
      simp [create, State.move, State.store, here] at joining
  | acquire here free => simp [Stuck]
  | wait here nobody => simp [Stuck]
  | release i here => simp [Stuck]
  | join i here over_ => simp [Stuck, join, State.move, State.store]
  | spurious here => simp [Stuck]
  | data i here => exact clear
  | connect i more here =>
      exact not_stuck_moved s _ i .read rfl (fun _ => id) (by simp) clear
  | eof i here =>
      refine not_stuck_moved s _ i .lock rfl (fun _ => id) ?_ clear
      intro _ joining
      have done := placed.joining i joining
      rw [here] at done
      cases done
  | lock i more here free =>
      exact not_stuck_moved s _ i .increment rfl (fun _ => id) (by simp) clear
  | increment i more here =>
      exact not_stuck_moved s _ i .signal rfl (fun _ => id) (by simp) clear
  | signal i more here =>
      refine not_stuck_moved s _ i .unlock rfl ?_ (by simp) clear
      intro j joining
      exact signalled_other s.place _ (by simp) joining
  | unlock i more here =>
      exact not_stuck_moved s _ i .finish rfl (fun _ => id) (by simp) clear
  | finish i more here =>
      exact not_stuck_moved s _ i .terminated rfl (fun _ => id) (by simp) clear

theorem run_not_stuck (maxnconn : Int) (trace : List (Step nfiles)) (s : State nfiles)
    (run : (machine nfiles maxnconn).Run trace s) (late : ∀ e ∈ trace, ¬ Early e) :
    ¬ Stuck s := by
  have both := run.preserves (C := fun e => ¬ Early e) (I := fun s => Sound maxnconn s ∧ ¬ Stuck s)
    (by
      rintro s rfl
      exact ⟨start_sound maxnconn, by simp [Stuck, start]⟩)
    (by
      rintro ⟨s, action, event, after⟩ stepped met ⟨sound, clear⟩
      have effect : Effect maxnconn s action after event :=
        step_effect maxnconn s after action event stepped
      constructor
      · exact step_sound maxnconn _ stepped sound
      · exact step_not_stuck maxnconn s after action event effect sound.placed met clear)
    late
  exact both.2

/-! While main is not stuck somebody goes on, and no spurious wake-up is needed for it. -/

def GoesOn (maxnconn : Int) (s : State nfiles) : Prop :=
  ∃ action, action ≠ .spurious ∧ step maxnconn s action ≠ none

def Worker.moves : Worker → Bool
  | .connect | .read | .increment | .signal | .unlock | .finish => true
  | _ => false

theorem worker_goes_on (maxnconn : Int) (s : State nfiles) (i : Fin nfiles)
    (moves : (s.worker i).moves = true) : GoesOn maxnconn s := by
  refine ⟨.worker i false, by simp, ?_⟩
  cases here : s.worker i <;> simp [here, Worker.moves, step, workerStep] at moves ⊢

theorem main_goes_on (maxnconn : Int) (s : State nfiles) (goes : mainStep maxnconn s ≠ none) :
    GoesOn maxnconn s :=
  ⟨.main, by simp, goes⟩

theorem inner_goes (maxnconn : Int) (s : State nfiles) (here : s.place = .inner) :
    mainStep maxnconn s ≠ none := by
  simp only [mainStep, here]
  split
  · split <;> simp
  · simp

theorem scan_goes (maxnconn : Int) (s : State nfiles) (i : Nat) (here : s.place = .scan i) :
    mainStep maxnconn s ≠ none := by
  simp only [mainStep, here]
  split
  · split <;> simp
  · simp

theorem some_running (maxnconn : Int) (some_ : 1 ≤ maxnconn) (s : State nfiles)
    (sound : Sound maxnconn s) (left : s.nlefttoread > 0) (waiting : s.place.waiting = true) :
    ∃ i, (s.worker i).running = true := by
  obtain ⟨counted, _, placed⟩ := sound
  rcases placed.room waiting with full | created
  · have busy : 0 < workersAt s Worker.running := by
      have nconn := counted.nconn
      omega
    exact (Threads.count_pos s.worker _).mp busy
  · have unjoined : 0 < workersAt s Worker.unjoined := by
      have reads := counted.nlefttoread
      omega
    have none_absent : workersAt s (fun w => !w.created) = 0 := by
      have absent := counted.nlefttoconn
      omega
    obtain ⟨i, still⟩ := (Threads.count_pos s.worker _).mp unjoined
    have present := (Threads.count_eq_zero s.worker _).mp none_absent i
    refine ⟨i, ?_⟩
    cases at_ : s.worker i <;>
      simp [at_, Worker.unjoined, Worker.created, Worker.running] at still present ⊢

theorem goes_on (maxnconn : Int) (some_ : 1 ≤ maxnconn) (s : State nfiles)
    (sound : Sound maxnconn s) (clear : ¬ Stuck s) (left : s.nlefttoread > 0) :
    GoesOn maxnconn s := by
  have custody := sound.custody
  have placed := sound.placed
  cases holder : s.mutex with
  | worker i =>
      have holding := (custody (.worker i)).mpr ⟨by simp, holder⟩
      -- who has the mutex can move on
      apply worker_goes_on maxnconn s i
      cases at_ : s.worker i <;> simp [held, at_, Worker.holding, Worker.moves] at holding ⊢
  | main =>
      have holding := (custody .main).mpr ⟨by simp, holder⟩
      cases here : s.place with
      | test =>
          apply main_goes_on
          simp only [mainStep, here]
          split <;> simp
      | scan i => exact main_goes_on maxnconn s (scan_goes maxnconn s i here)
      | join i =>
          have done := placed.joining i here
          cases at_ : s.worker i with
          | terminated =>
              apply main_goes_on
              simp [mainStep, here, at_]
          -- main holds the mutex that the worker waits for: this is being stuck
          | lock => exact absurd ⟨i, here, at_⟩ clear
          | absent => simp [at_, Worker.flags] at done
          | joined => simp [at_, Worker.flags] at done
          | _ => exact worker_goes_on maxnconn s i (by rw [at_]; rfl)
      | _ => simp [held, here, Place.holding] at holding
  | free =>
      have nobody (h : Holder nfiles) : held s h = false := by
        cases at_ : held s h with
        | false => rfl
        | true =>
            have holds := (custody h).mp at_
            rw [holder] at holds
            exact absurd holds.2.symm holds.1
      cases here : s.place with
      | outer => exact main_goes_on maxnconn s (by simp [mainStep, here])
      | inner => exact main_goes_on maxnconn s (inner_goes maxnconn s here)
      | lock => exact main_goes_on maxnconn s (by simp [mainStep, here, holder])
      | awakened => exact main_goes_on maxnconn s (by simp [mainStep, here, holder])
      | blocked =>
          have waiting : s.place.waiting = true := by
            rw [here]
            rfl
          -- main waits for a signal: some worker has yet to send it
          obtain ⟨i, running⟩ := some_running maxnconn some_ s sound left waiting
          have silent := placed.blocked here i
          cases at_ : s.worker i with
          | lock => exact ⟨.worker i false, by simp, by simp [step, workerStep, at_, holder]⟩
          | terminated => simp [at_, Worker.announced] at silent
          | absent => simp [at_, Worker.running] at running
          | joined => simp [at_, Worker.running] at running
          | _ => exact worker_goes_on maxnconn s i (by rw [at_]; rfl)
      | test => simpa [held, here, Place.holding] using nobody .main
      | scan i => simpa [held, here, Place.holding] using nobody .main
      | join i => simpa [held, here, Place.holding] using nobody .main
      | exited =>
          have nothing := placed.exited here
          omega
      | nothingFound => exact absurd here placed.found

/-! Once main is stuck only workers that need no mutex move, until there is none. -/

def Worker.todo : Worker → Nat
  | .connect => 2
  | .read | .finish => 1
  | _ => 0

theorem stuck_holder (maxnconn : Int) (s : State nfiles) (i : Fin nfiles)
    (sound : Sound maxnconn s) (here : s.place = .join i) : s.mutex = .main := by
  apply ((sound.custody .main).mp _).2
  rw [held, here]
  rfl

theorem stuck_effect (maxnconn : Int) (s after : State nfiles) (action : Action nfiles)
    (event : Event nfiles) (effect : Effect maxnconn s action after event)
    (sound : Sound maxnconn s) (i : Fin nfiles) (joining : s.place = .join i)
    (locking : s.worker i = .lock) :
    ∃ j w, 0 < (s.worker j).todo ∧ after.place = s.place ∧
      after.worker = Function.update s.worker j w := by
  have main := stuck_holder maxnconn s i sound joining
  -- main has the mutex, so a worker moves only where it needs none
  have others (j : Fin nfiles) : (s.worker j).holding = false := by
    cases at_ : (s.worker j).holding with
    | false => rfl
    | true =>
        have mine := ((sound.custody (.worker j)).mp at_).2
        rw [main] at mine
        cases mine
  cases effect with
  | turn place turn =>
      cases turn with
      | nothingFound left absent => exact absurd absent (find_file_some s sound.counted left)
      | enter here _ => simp [joining] at here
      | exit here _ => simp [joining] at here
      | full here _ => simp [joining] at here
      | ready here _ => simp [joining] at here
      | pass _ here _ => simp [joining] at here
      | found _ here _ => simp [joining] at here
  | create _ here _ => simp [joining] at here
  | acquire here _ => simp [joining] at here
  | wait here _ => simp [joining] at here
  | release _ here => simp [joining] at here
  | spurious here => simp [joining] at here
  | join j here over_ =>
      rw [joining] at here
      cases here
      rw [locking] at over_
      cases over_
  | data j here => exact ⟨j, .read, by rw [here]; decide, rfl, by rw [← here]; simp⟩
  | connect j more here => exact ⟨j, .read, by rw [here]; decide, rfl, rfl⟩
  | eof j here => exact ⟨j, .lock, by rw [here]; decide, rfl, rfl⟩
  | finish j more here => exact ⟨j, .terminated, by rw [here]; decide, rfl, rfl⟩
  | lock j more here free =>
      rw [main] at free
      cases free
  | increment j more here => simpa [here, Worker.holding] using others j
  | signal j more here => simpa [here, Worker.holding] using others j
  | unlock j more here => simpa [here, Worker.holding] using others j

theorem step_stuck (maxnconn : Int) (e : Step nfiles)
    (stepped : (machine nfiles maxnconn).Stepped e) (sound : Sound maxnconn e.before)
    (stuck : Stuck e.before) : Stuck e.after := by
  obtain ⟨i, joining, locking⟩ := stuck
  have effect := step_effect maxnconn e.before e.after e.action e.output stepped
  obtain ⟨j, w, todo, place, worker⟩ :=
    stuck_effect maxnconn _ _ _ _ effect sound i joining locking
  have other : i ≠ j := by
    rintro rfl
    simp [locking, Worker.todo] at todo
  refine ⟨i, place.trans joining, ?_⟩
  rw [worker, Function.update_of_ne other, locking]

theorem early_stuck (maxnconn : Int) (e : Step nfiles)
    (stepped : (machine nfiles maxnconn).Stepped e) (early : Early e) : Stuck e.after := by
  obtain ⟨s, action, event, after⟩ := e
  obtain ⟨i, main, scan, done, locking⟩ := early
  simp only at main scan done locking
  subst main
  simp only [Machine.Stepped, machine, step, mainStep, scan, i.isLt, ↓reduceDIte, Fin.eta, done,
    ↓reduceIte, Option.some.injEq, Prod.mk.injEq] at stepped
  obtain ⟨rfl, _⟩ := stepped
  exact ⟨i, rfl, locking⟩

theorem run_stuck (maxnconn : Int) (trace : List (Step nfiles)) (s : State nfiles)
    (run : (machine nfiles maxnconn).Run trace s) (early : ∃ e ∈ trace, Early e) : Stuck s := by
  have both := run.history (C := fun _ => True)
    (I := fun trace s => Sound maxnconn s ∧ ((∃ e ∈ trace, Early e) → Stuck s))
    (by
      rintro s rfl
      exact ⟨start_sound maxnconn, by simp⟩)
    (by
      rintro trace e stepped _ ⟨sound, ih⟩
      refine ⟨step_sound maxnconn e stepped sound, ?_⟩
      rintro ⟨d, member, found⟩
      rcases List.mem_append.mp member with before | last
      · exact step_stuck maxnconn e stepped sound (ih ⟨d, before, found⟩)
      · rw [List.mem_singleton.mp last] at found
        exact early_stuck maxnconn e stepped found)
    (by simp)
  exact both.2 early

theorem todo_lowers (maxnconn : Int) (s : State nfiles)
    (busy : Threads.total s.worker Worker.todo ≠ 0) :
    ∃ e : Step nfiles, e.before = s ∧ (machine nfiles maxnconn).Stepped e ∧
      Threads.total e.after.worker Worker.todo < Threads.total s.worker Worker.todo := by
  have some_todo : ∃ i, (s.worker i).todo ≠ 0 := by
    by_contra nobody
    push Not at nobody
    exact busy ((Threads.total_eq_zero s.worker Worker.todo).mpr nobody)
  obtain ⟨i, todo⟩ := some_todo
  cases here : s.worker i with
  | connect =>
      refine ⟨⟨s, .worker i false, .quiet, (s.store i .reading).move i .read⟩, rfl, ?_, ?_⟩
      · simp [Machine.Stepped, machine, step, workerStep, here]
      · have moved := Threads.total_update s.worker i .read Worker.todo
        rw [here] at moved
        simp only [State.move, State.store, Worker.todo] at moved ⊢
        omega
  | read =>
      refine ⟨⟨s, .worker i false, .quiet, (s.store i .done).move i .lock⟩, rfl, ?_, ?_⟩
      · simp [Machine.Stepped, machine, step, workerStep, here]
      · have moved := Threads.total_update s.worker i .lock Worker.todo
        rw [here] at moved
        simp only [State.move, State.store, Worker.todo] at moved ⊢
        omega
  | finish =>
      refine ⟨⟨s, .worker i false, .quiet, s.move i .terminated⟩, rfl, ?_, ?_⟩
      · simp [Machine.Stepped, machine, step, workerStep, here]
      · have moved := Threads.total_update s.worker i .terminated Worker.todo
        rw [here] at moved
        simp only [State.move, Worker.todo] at moved ⊢
        omega
  | _ => simp [here, Worker.todo] at todo

theorem stuck_dead (maxnconn : Int) (s : State nfiles) (sound : Sound maxnconn s)
    (stuck : Stuck s) (idle : Threads.total s.worker Worker.todo = 0) :
    ¬ (machine nfiles maxnconn).CanStep s := by
  rintro ⟨action, ⟨after, event⟩, stepped⟩
  obtain ⟨i, joining, locking⟩ := stuck
  have effect := step_effect maxnconn s after action event stepped
  obtain ⟨j, w, todo, _⟩ := stuck_effect maxnconn _ _ _ _ effect sound i joining locking
  have none_todo := (Threads.total_eq_zero s.worker Worker.todo).mp idle j
  omega

theorem stuck_left (maxnconn : Int) (s : State nfiles) (sound : Sound maxnconn s)
    (stuck : Stuck s) : s.nlefttoread > 0 := by
  obtain ⟨i, _, locking⟩ := stuck
  have unjoined : 0 < workersAt s Worker.unjoined :=
    (Threads.count_pos s.worker _).mpr ⟨i, by rw [locking]; rfl⟩
  rw [sound.counted.nlefttoread]
  omega

/-- Every run in which main is stuck goes on to a deadlock. -/
theorem stuck_deadlock (maxnconn : Int) (trace : List (Step nfiles)) (s : State nfiles)
    (run : (machine nfiles maxnconn).Run trace s) (stuck : Stuck s) :
    ∃ more last, (machine nfiles maxnconn).Run (trace ++ more) last ∧ last.nlefttoread > 0 ∧
      ¬ (machine nfiles maxnconn).CanStep last := by
  have drained := run.drain (C := fun _ => True) (I := Stuck)
    (fun s => Threads.total s.worker Worker.todo)
    (by
      intro trace s here still busy
      obtain ⟨e, rfl, stepped, less⟩ := todo_lowers maxnconn s busy
      have sound := run_sound maxnconn trace e.before here
      exact ⟨e, rfl, stepped, trivial, step_stuck maxnconn e stepped sound still, less⟩)
    stuck
  obtain ⟨more, last, longer, _, still, idle⟩ := drained
  have sound := run_sound maxnconn _ last longer
  exact ⟨more, last, longer, stuck_left maxnconn last sound still,
    stuck_dead maxnconn last sound still idle⟩

theorem all_joined (s : State nfiles) (counted : Counted s) (nothing : s.nlefttoread ≤ 0)
    (i : Fin nfiles) : s.worker i = .joined := by
  have none_unjoined : workersAt s Worker.unjoined = 0 := by
    have reads := counted.nlefttoread
    omega
  have joined := (Threads.count_eq_zero s.worker _).mp none_unjoined i
  cases at_ : s.worker i <;> simp [at_, Worker.unjoined] at joined ⊢

/-- The accounts hold in every run. As long as main only finds workers done that
have the mutex behind them, no state with files left to read is a deadlock; once
it finds another one, the run goes on to a deadlock. -/
theorem web03_goes_on (maxnconn : Int) (some_ : 1 ≤ maxnconn) (trace : List (Step nfiles))
    (s : State nfiles) (run : (machine nfiles maxnconn).Run trace s) :
    (s.mutex = .free → 0 ≤ s.ndone) ∧
    (∀ i, joins trace i ≤ 1) ∧
    (s.place = .exited → ∀ i, joins trace i = 1) ∧
    ((∀ e ∈ trace, ¬ Early e) → s.nlefttoread > 0 → GoesOn maxnconn s) ∧
    ((∃ e ∈ trace, Early e) →
      ∃ more last, (machine nfiles maxnconn).Run (trace ++ more) last ∧ last.nlefttoread > 0 ∧
        ¬ (machine nfiles maxnconn).CanStep last) := by
  obtain ⟨sound, joined⟩ := run_joined maxnconn trace s run
  refine ⟨?_, ?_, ?_, ?_, ?_⟩
  · intro _
    rw [sound.counted.ndone]
    omega
  · intro i
    rw [joined i]
    split <;> omega
  · intro here i
    rw [joined i, all_joined s sound.counted (sound.placed.exited here) i]
    rfl
  · intro late left
    exact goes_on maxnconn some_ s sound (run_not_stuck maxnconn trace s run late) left
  · intro early
    exact stuck_deadlock maxnconn trace s run (run_stuck maxnconn trace s run early)

theorem two_files_joined : ∃ trace s, (machine 2 2).Run trace s ∧ s.place = .exited ∧
    (s.mutex = .free → 0 ≤ s.ndone) ∧
    (∀ i, joins trace i ≤ 1) ∧
    (s.place = .exited → ∀ i, joins trace i = 1) ∧
    ((∀ e ∈ trace, ¬ Early e) → s.nlefttoread > 0 → GoesOn 2 s) ∧
    ((∃ e ∈ trace, Early e) →
      ∃ more last, (machine 2 2).Run (trace ++ more) last ∧ last.nlefttoread > 0 ∧
        ¬ (machine 2 2).CanStep last) := by
  have ran := Machine.run_of_check (M := machine 2 2) (s := start 2) rfl
    (List.replicate 6 .main ++ [.worker 0 false, .worker 0 true, .worker 1 false] ++
      List.replicate 6 (.worker 0 false) ++ List.replicate 10 .main ++
      List.replicate 6 (.worker 1 false) ++ List.replicate 7 .main)
    (fun r => decide (r.2.place = .exited)) (by decide +kernel)
  obtain ⟨trace, s, run, here⟩ := ran
  exact ⟨trace, s, run, by simpa using here, web03_goes_on 2 (by omega) trace s run⟩

theorem second_worker_joined_early : ∃ trace s, (machine 2 2).Run trace s ∧
    s.nlefttoread > 0 ∧ ∀ action, step 2 s action = none := by
  have ran := Machine.run_of_check (M := machine 2 2) (s := start 2) rfl
    [.main, .main, .main, .main, .main, .main, .worker 0 false, .worker 0 false, .worker 0 false,
      .worker 0 false, .worker 0 false, .worker 0 false, .worker 0 false, .worker 1 false,
      .worker 1 false, .main, .main, .main, .main, .main]
    (fun r => decide (r.2.nlefttoread > 0 ∧ (step 2 r.2 .main).isNone ∧
      (step 2 r.2 .spurious).isNone ∧
      ∀ i : Fin 2, ∀ more : Bool, (step 2 r.2 (.worker i more)).isNone)) (by decide +kernel)
  obtain ⟨trace, s, run, checked⟩ := ran
  rw [decide_eq_true_eq] at checked
  obtain ⟨left, main, spurious, worker⟩ := checked
  refine ⟨trace, s, run, left, ?_⟩
  intro action
  cases action with
  | main => exact Option.isNone_iff_eq_none.mp main
  | spurious => exact Option.isNone_iff_eq_none.mp spurious
  | worker i more => exact Option.isNone_iff_eq_none.mp (worker i more)

end NetworkProgramming.Web03
