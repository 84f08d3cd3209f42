import NetworkProgramming.Lockmain

/-!
The lock excludes, and no increment of the number is lost. The semaphore is
absent, being made by one process, or made; what is in the file is the initial
number and one for each write.
-/

namespace NetworkProgramming.Lockmain

open CText

variable {Proc : Type*} [DecidableEq Proc]

/-- The semaphore is not taken from here without a look at `sem_otime`. -/
def Place.early : Place → Bool
  | .semgetExcl | .semget | .stat _ | .sleep _ | .gaveUp => true
  | _ => false

inductive Did (p : Proc) (task : Task) (sem : Option (Sem Proc)) (file : List UInt8) :
    Result Proc → Prop where
  | create (value : Int) (here : task.place = .semgetExcl) (absent : sem = none) :
      Did p task sem file
        ⟨{ task with place := .setval }, some ⟨value, false, fun _ => 0⟩, file, .quiet⟩
  | look (place : Place) (here : task.place.early = true) (there : place.early = true)
      (present : task.place = .semgetExcl → sem ≠ none) :
      Did p task sem file ⟨{ task with place := place }, sem, file, .quiet⟩
  | setval (m : Sem Proc) (here : task.place = .setval) (present : sem = some m) :
      Did p task sem file
        ⟨task.init, some { m with semval := 1, undo := fun _ => 0 }, file, .setval p⟩
  | found (m : Sem Proc) (here : task.place.early = true) (present : sem = some m)
      (timed : m.otime = true) : Did p task sem file ⟨task.init, sem, file, .quiet⟩
  | down (m : Sem Proc) (here : task.place = .down) (present : sem = some m)
      (free : 1 ≤ m.semval) :
      Did p task sem file
        ⟨{ task with place := .rewind }, some (m.semop p (-1)), file, .down p⟩
  | rewind (here : task.place = .rewind) :
      Did p task sem file ⟨{ task with place := .read, offset := 0 }, sem, file, .quiet⟩
  | read (here : task.place = .read) :
      Did p task sem file ⟨task.increment file, sem, file, .quiet⟩
  | rewindAgain (here : task.place = .rewindAgain) :
      Did p task sem file ⟨{ task with place := .write, offset := 0 }, sem, file, .quiet⟩
  | write (here : task.place = .write) :
      Did p task sem file
        ⟨{ task with place := .up, offset := task.offset + task.line.length }, sem,
          overwrite file task.offset task.line, .quiet⟩
  | up (m : Sem Proc) (here : task.place = .up) (present : sem = some m) :
      Did p task sem file ⟨task.next, some (m.semop p 1), file, .quiet⟩
  | exit (m : Sem Proc) (here : task.place = .exit) (present : sem = some m) :
      Did p task sem file ⟨{ task with place := .finished }, some { m with
        semval := m.semval + m.undo p
        undo := Function.update m.undo p 0 }, file, .quiet⟩

theorem lockmain_did {p : Proc} {task : Task} {sem : Option (Sem Proc)} {file : List UInt8}
    {value : Int} {result : Result Proc}
    (stepped : lockmain p task sem file value = some result) : Did p task sem file result := by
  unfold lockmain at stepped
  split at stepped
  · rename_i here
    cases stepped
    exact .create value here rfl
  · rename_i m here
    cases stepped
    exact .look .semget (by rw [here]; rfl) rfl fun _ => Option.some_ne_none m
  · rename_i m here
    cases stepped
    exact .setval m here rfl
  · rename_i m here
    cases stepped
    exact .look (.stat 0) (by rw [here]; rfl) rfl fun other => by rw [here] at other; cases other
  · rename_i i m here
    cases stepped
    split
    · rename_i timed
      exact .found m (by rw [here]; rfl) rfl timed
    · exact .look (.sleep i) (by rw [here]; rfl) rfl fun _ => Option.some_ne_none m
  · rename_i i here
    cases stepped
    refine .look _ (by rw [here]; rfl) ?_ fun other => by rw [here] at other; cases other
    split <;> rfl
  · rename_i m here
    obtain ⟨free, same⟩ := Option.ite_none_right_eq_some.mp stepped
    cases same
    exact .down m here rfl free
  · rename_i here
    cases stepped
    exact .rewind here
  · rename_i here
    cases stepped
    exact .read here
  · rename_i here
    cases stepped
    exact .rewindAgain here
  · rename_i here
    cases stepped
    exact .write here
  · rename_i m here
    cases stepped
    exact .up m here rfl
  · rename_i m here
    cases stepped
    exact .exit m here rfl
  · cases stepped

theorem step_did {file : List UInt8} (e : Step Proc) (stepped : (machine Proc file).Stepped e) :
    ∃ result : Result Proc,
      Did e.action.proc (e.before.task e.action.proc) e.before.sem e.before.file result ∧
      e.after = ⟨Function.update e.before.task e.action.proc result.task, result.sem, result.file⟩ ∧
      e.output = result.event := by
  obtain ⟨result, did, same⟩ := Option.map_eq_some_iff.mp stepped
  obtain ⟨after, event⟩ := Prod.mk.inj same
  exact ⟨result, lockmain_did did, after.symm, event.symm⟩

theorem did_early {p : Proc} {task : Task} {sem : Option (Sem Proc)} {file : List UInt8}
    {result : Result Proc} (did : Did p task sem file result) (early : task.place.early = true) :
    (sem = none ∧ ∃ value, result =
        ⟨{ task with place := .setval }, some ⟨value, false, fun _ => 0⟩, file, .quiet⟩) ∨
      (∃ place : Place, place.early = true ∧ (task.place = .semgetExcl → sem ≠ none) ∧
        result = ⟨{ task with place := place }, sem, file, .quiet⟩) ∨
      (∃ m, sem = some m ∧ m.otime = true ∧ result = ⟨task.init, sem, file, .quiet⟩) := by
  cases did with
  | create value _ absent => exact Or.inl ⟨absent, value, rfl⟩
  | look place _ there present => exact Or.inr (Or.inl ⟨place, there, present, rfl⟩)
  | found m _ present timed => exact Or.inr (Or.inr ⟨m, present, timed, rfl⟩)
  | setval _ here _ | down _ here _ _ | rewind here | read here | rewindAgain here | write here
  | up _ here _ | exit _ here _ =>
      rw [here] at early
      cases early

theorem did_setval {p : Proc} {task : Task} {m : Sem Proc} {file : List UInt8}
    {result : Result Proc} (did : Did p task (some m) file result) (setting : task.place = .setval) :
    result = ⟨task.init, some { m with semval := 1, undo := fun _ => 0 }, file, .setval p⟩ := by
  cases did with
  | setval n _ present =>
      cases present
      rfl
  | create _ here _ | look _ here _ _ | found _ here _ _ | down _ here _ _ | rewind here | read here
  | rewindAgain here | write here | up _ here _ | exit _ here _ =>
      rw [setting] at here
      cases here

section

variable [Fintype Proc]

def inside (s : State Proc) : Nat := Threads.count s.task Task.inside

/-- `set` says that SETVAL has been done. -/
inductive Stage (set : Prop) (s : State Proc) : Prop where
  | absent (none_ : s.sem = none) (all : ∀ p, (s.task p).place = .semgetExcl)
  | making (m : Sem Proc) (creator : Proc) (present : s.sem = some m) (untimed : m.otime = false)
      (setting : (s.task creator).place = .setval)
      (others : ∀ p, p ≠ creator → (s.task p).place.early = true)
  | made (m : Sem Proc) (present : s.sem = some m) (done : set)
      (none_ : ∀ p, (s.task p).place ≠ .setval) (positive : 0 ≤ m.semval)
      (sum : m.semval + inside s = 1)
      (undo : ∀ p, m.undo p = if (s.task p).inside = true then 1 else 0)

theorem early_outside {task : Task} (early : task.place.early = true) : task.inside = false := by
  unfold Task.inside
  cases here : task.place <;> rw [here] at early <;> first | rfl | cases early

theorem inside_at {task : Task} {place : Place} (here : task.place = place) :
    task.inside = ({ task with place := place } : Task).inside := by
  subst here
  rfl

theorem next_place (task : Task) : (task.next.place = .semgetExcl ∨ task.next.place = .down ∨
    task.next.place = .exit) ∧ task.next.inside = false := by
  unfold Task.next Task.lock
  split
  · split
    · exact ⟨Or.inl rfl, rfl⟩
    · exact ⟨Or.inr (Or.inl rfl), rfl⟩
  · exact ⟨Or.inr (Or.inr rfl), rfl⟩

theorem made_next {set : Prop} {s : State Proc} {p : Proc} {task : Task} {m : Sem Proc}
    {file : List UInt8} (next : Sem Proc) (done : set) (none_ : ∀ q, (s.task q).place ≠ .setval)
    (sum : m.semval + inside s = 1)
    (undo : ∀ q, m.undo q = if (s.task q).inside = true then 1 else 0)
    (place : task.place ≠ .setval) (positive : 0 ≤ next.semval)
    (moved : next.semval + task.inside.toNat = m.semval + (s.task p).inside.toNat)
    (others : ∀ q, q ≠ p → next.undo q = m.undo q)
    (own : next.undo p = if task.inside = true then 1 else 0) :
    Stage set ⟨Function.update s.task p task, some next, file⟩ := by
  have count := Threads.count_update s.task p task Task.inside
  refine .made next rfl done ?_ positive ?_ ?_
  · intro q
    by_cases here : q = p
    · simpa [here] using place
    · simpa [here] using none_ q
  · simp only [inside] at sum ⊢
    omega
  · intro q
    by_cases here : q = p
    · simpa [here] using own
    · simpa [here, others q here] using undo q

theorem stage_absent {later : Prop} {s : State Proc} {p : Proc} {result : Result Proc}
    (did : Did p (s.task p) s.sem s.file result) (none_ : s.sem = none)
    (all : ∀ p, (s.task p).place = .semgetExcl) :
    Stage later ⟨Function.update s.task p result.task, result.sem, result.file⟩ := by
  rcases did_early did (by rw [all p]; rfl) with ⟨-, value, rfl⟩ | ⟨_, _, present, _⟩ | ⟨m, present, _⟩
  · refine .making ⟨value, false, fun _ => 0⟩ p rfl rfl (by simp) ?_
    intro q other
    simp only [Function.update_of_ne other, all q]
    rfl
  · exact absurd none_ (present (all p))
  · rw [none_] at present
    cases present

theorem stage_making {later : Prop} {s : State Proc} {p creator : Proc} {result : Result Proc}
    {m : Sem Proc} (did : Did p (s.task p) s.sem s.file result)
    (setval : ∀ q, result.event = .setval q → later) (present : s.sem = some m)
    (untimed : m.otime = false) (setting : (s.task creator).place = .setval)
    (others : ∀ p, p ≠ creator → (s.task p).place.early = true) :
    Stage later ⟨Function.update s.task p result.task, result.sem, result.file⟩ := by
  by_cases same : p = creator
  · subst same
    rw [present] at did
    -- the creator gives the semaphore its value
    have result_ := did_setval did setting
    subst result_
    have outside : ∀ q, (Function.update s.task p (s.task p).init q).inside = false := by
      intro q
      by_cases here : q = p
      · rw [here, Function.update_self]
        rfl
      · rw [Function.update_of_ne here]
        exact early_outside (others q here)
    refine .made _ rfl (setval p rfl) ?_ (by simp) ?_ ?_
    · intro q
      by_cases here : q = p
      · simp only [here, Function.update_self, Task.init]
        exact Place.noConfusion
      · simp only [Function.update_of_ne here]
        intro also
        have early := others q here
        rw [also] at early
        cases early
    · have none_ := (Threads.count_eq_zero _ Task.inside).mpr outside
      simp only [inside, none_]
      rfl
    · intro q
      simp [outside q]
  -- the others look on: the set is there, and sem_otime still 0
  · rcases did_early did (others p same) with ⟨absent, _⟩ | ⟨place, there, _, rfl⟩ | ⟨n, found, timed, _⟩
    · rw [present] at absent
      cases absent
    · refine .making m creator present untimed ?_ ?_
      · simpa [Function.update_of_ne (Ne.symm same)] using setting
      · intro q other
        by_cases here : q = p
        · simpa [here] using there
        · simpa [here] using others q other
    · rw [present, Option.some.injEq] at found
      rw [← found, untimed] at timed
      cases timed

theorem stage_made {later : Prop} {s : State Proc} {p : Proc} {result : Result Proc} {m : Sem Proc}
    (did : Did p (s.task p) s.sem s.file result) (done : later) (present : s.sem = some m)
    (none_ : ∀ p, (s.task p).place ≠ .setval) (positive : 0 ≤ m.semval)
    (sum : m.semval + inside s = 1)
    (undo : ∀ p, m.undo p = if (s.task p).inside = true then 1 else 0) :
    Stage later ⟨Function.update s.task p result.task, result.sem, result.file⟩ := by
  have stays {task : Task} {file : List UInt8} (place : task.place ≠ .setval)
      (same : task.inside = (s.task p).inside) :
      Stage later ⟨Function.update s.task p task, s.sem, file⟩ := by
    rw [present]
    exact made_next m done none_ sum undo place positive (by rw [same]) (fun _ _ => rfl)
      (by rw [same]; exact undo p)
  cases did with
  | create _ _ absent => rw [present] at absent; cases absent
  | setval _ here _ => exact absurd here (none_ p)
  | look place here there _ =>
      refine stays (fun setting => ?_) ?_
      · simp only at setting
        rw [setting] at there
        cases there
      · have early : ({ s.task p with place := place } : Task).place.early = true := there
        rw [early_outside here, early_outside early]
  | found n here _ _ => exact stays Place.noConfusion (early_outside here).symm
  | rewind here => exact stays Place.noConfusion (by rw [inside_at here]; rfl)
  | read here => exact stays Place.noConfusion (by rw [inside_at here]; rfl)
  | rewindAgain here => exact stays Place.noConfusion (by rw [inside_at here]; rfl)
  | write here => exact stays Place.noConfusion (by rw [inside_at here]; rfl)
  | down n here there free =>
      rw [present, Option.some.injEq] at there
      subst there
      have out : (s.task p).inside = false := inside_at here
      have noted := undo p
      rw [out] at noted
      refine made_next (m.semop p (-1)) done none_ sum undo Place.noConfusion ?_ ?_ ?_ ?_
      · change 0 ≤ m.semval + -1
        omega
      · rw [out]
        change m.semval + -1 + 1 = m.semval + 0
        omega
      · exact fun q other => Function.update_of_ne other _ _
      · simp only [Sem.semop, Function.update_self, noted]
        rfl
  | up n here there =>
      rw [present, Option.some.injEq] at there
      subst there
      have in_ : (s.task p).inside = true := inside_at here
      have noted := undo p
      rw [in_] at noted
      obtain ⟨place, out⟩ := next_place (s.task p)
      refine made_next (m.semop p 1) done none_ sum undo ?_ ?_ ?_ ?_ ?_
      · rcases place with at_ | at_ | at_ <;> rw [at_] <;> exact Place.noConfusion
      · change 0 ≤ m.semval + 1
        omega
      · rw [in_, out]
        change m.semval + 1 + 0 = m.semval + 1
        omega
      · exact fun q other => Function.update_of_ne other _ _
      · rw [out]
        simp only [Sem.semop, Function.update_self, noted]
        rfl
  | exit n here there =>
      rw [present, Option.some.injEq] at there
      subst there
      have out : (s.task p).inside = false := inside_at here
      have noted := undo p
      rw [out] at noted
      -- nothing is left to be undone
      refine made_next { m with semval := m.semval + m.undo p, undo := Function.update m.undo p 0 }
        done none_ sum undo Place.noConfusion ?_ ?_ ?_ ?_
      · change 0 ≤ m.semval + m.undo p
        rw [noted]
        simpa using positive
      · rw [out]
        change m.semval + m.undo p + 0 = m.semval + 0
        rw [noted]
        simp
      · exact fun q other => Function.update_of_ne other _ _
      · simp only [Function.update_self]
        rfl

theorem stage_did {set later : Prop} {s : State Proc} {p : Proc} {result : Result Proc}
    (stage : Stage set s) (did : Did p (s.task p) s.sem s.file result) (grows : set → later)
    (setval : ∀ q, result.event = .setval q → later) :
    Stage later ⟨Function.update s.task p result.task, result.sem, result.file⟩ := by
  cases stage with
  | absent none_ all => exact stage_absent did none_ all
  | making m creator present untimed setting others =>
      exact stage_making did setval present untimed setting others
  | made m present done none_ positive sum undo =>
      exact stage_made did (grows done) present none_ positive sum undo

theorem stage_exclusive {set : Prop} {s : State Proc} (stage : Stage set s) (p q : Proc)
    (here : (s.task p).inside = true) (there : (s.task q).inside = true) : p = q := by
  cases stage with
  | absent none_ all =>
      have early : (s.task p).place.early = true := by rw [all p]; rfl
      rw [early_outside early] at here
      cases here
  | making m creator present untimed setting others =>
      have outside (r : Proc) : (s.task r).inside = false := by
        by_cases same : r = creator
        · rw [same, inside_at setting]
          rfl
        · exact early_outside (others r same)
      rw [outside p] at here
      cases here
  | made m present done none_ positive sum undo =>
      refine Threads.count_unique s.task Task.inside ?_ p q here there
      simp only [inside] at sum
      omega

/-! The number in the file. -/

def updates (task : Task) : Nat := task.i + if task.place = .up then 1 else 0

def written (s : State Proc) : Nat := Threads.total s.task updates

/-- What a process inside is to have: the file rewound, and the number that comes next. -/
def Task.Ready (task : Task) (next : List UInt8) : Prop :=
  match task.place with
  | .read => task.offset = 0
  | .rewindAgain => task.line = next
  | .write => task.offset = 0 ∧ task.line = next
  | _ => True

def Task.Counted (task : Task) : Prop :=
  match task.place with
  | .exit | .finished => task.i = rounds
  | _ => task.i < rounds

structure Data (initial : Int) (s : State Proc) : Prop where
  number : number s.file = some (toLong (initial + written s))
  ready : ∀ p, (s.task p).Ready (long (toLong (initial + written s + 1)))
  counted : ∀ p, (s.task p).Counted

theorem ready_outside {task : Task} (out : task.inside = false) (next : List UInt8) :
    task.Ready next := by
  unfold Task.inside at out
  unfold Task.Ready
  cases here : task.place <;> rw [here] at out <;> first | exact True.intro | cases out

theorem counted_at {task : Task} {place : Place} (counted : task.Counted) (here : task.place = place) :
    ({ task with place := place } : Task).Counted := by
  subst here
  exact counted

theorem written_update (s : State Proc) (p : Proc) (task : Task) (sem : Option (Sem Proc))
    (file : List UInt8) :
    written ⟨Function.update s.task p task, sem, file⟩ + updates (s.task p) =
      written s + updates task :=
  Threads.total_update s.task p task updates

theorem data_next {initial : Int} {s : State Proc} {p : Proc} {task : Task}
    {sem : Option (Sem Proc)} (data : Data initial s) (same : updates task = updates (s.task p))
    (ready : task.Ready (long (toLong (initial + written s + 1)))) (counted : task.Counted) :
    Data initial ⟨Function.update s.task p task, sem, s.file⟩ := by
  have total := written_update s p task sem s.file
  have kept : written ⟨Function.update s.task p task, sem, s.file⟩ = written s := by omega
  refine ⟨by rw [kept]; exact data.number, ?_, ?_⟩
  · intro q
    rw [kept]
    by_cases here : q = p
    · simpa [here] using ready
    · simpa [here] using data.ready q
  · intro q
    by_cases here : q = p
    · simpa [here] using counted
    · simpa [here] using data.counted q

theorem updates_at {task : Task} {place : Place} (here : task.place = place) (other : place ≠ .up) :
    updates task = task.i := by
  rw [updates, here, if_neg other, Nat.add_zero]

theorem updates_early {task : Task} (early : task.place.early = true) : updates task = task.i := by
  refine updates_at rfl fun up => ?_
  rw [up] at early
  cases early

theorem next_updates (task : Task) (up : task.place = .up) (below : task.i < rounds) :
    updates task.next = updates task ∧ task.next.Counted := by
  have before : updates task = task.i + 1 := by rw [updates, if_pos up]
  unfold Task.next
  split
  · rename_i more
    rw [before]
    unfold Task.lock
    split
    · exact ⟨rfl, more⟩
    · exact ⟨rfl, more⟩
  · rename_i last
    rw [before]
    refine ⟨rfl, ?_⟩
    change task.i + 1 = rounds
    omega

omit [DecidableEq Proc] in
theorem increment_ready {initial : Int} {s : State Proc} {p : Proc} (data : Data initial s)
    (here : (s.task p).place = .read) :
    ((s.task p).increment s.file).line = long (toLong (initial + written s + 1)) := by
  have ready := data.ready p
  simp only [Task.Ready, here] at ready
  have read : sscanf ((s.file.drop 0).take MAXLINE) = some (toLong (initial + written s)) := data.number
  have range := toLong_range (initial + written s + 1)
  have short := long_length _ range.1 range.2
  simp only [Task.increment, ready, read, Option.getD_some, toLong_succ, snprintf]
  exact List.take_of_length_le short

theorem data_write {initial : Int} {s : State Proc} {p : Proc} {sem : Option (Sem Proc)}
    (data : Data initial s) (here : (s.task p).place = .write)
    (alone : ∀ q, q ≠ p → (s.task q).inside = false) :
    Data initial ⟨Function.update s.task p { s.task p with
      place := .up, offset := (s.task p).offset + (s.task p).line.length }, sem,
      overwrite s.file (s.task p).offset (s.task p).line⟩ := by
  have ready := data.ready p
  simp only [Task.Ready, here] at ready
  obtain ⟨start, line⟩ := ready
  have total := written_update s p { s.task p with
    place := .up, offset := (s.task p).offset + (s.task p).line.length } sem
    (overwrite s.file (s.task p).offset (s.task p).line)
  rw [updates_at here Place.noConfusion] at total
  simp only [updates, if_true] at total
  have range := toLong_range (initial + written s + 1)
  have counted := counted_at (data.counted p) here
  refine ⟨?_, ?_, ?_⟩
  · simp only [start, line] at total ⊢
    rw [number_written _ _ range.1 range.2]
    congr 2
    omega
  · intro q
    by_cases same : q = p
    · simp only [same, Function.update_self]
      trivial
    · simp only [Function.update_of_ne same]
      exact ready_outside (alone q same) _
  · intro q
    by_cases same : q = p
    · simp only [same, Function.update_self]
      exact counted
    · simpa [same] using data.counted q

theorem data_did {initial : Int} {s : State Proc} {p : Proc} {result : Result Proc}
    (data : Data initial s) (did : Did p (s.task p) s.sem s.file result)
    (exclusive : ∀ q, (s.task p).inside = true → (s.task q).inside = true → p = q) :
    Data initial ⟨Function.update s.task p result.task, result.sem, result.file⟩ := by
  have counted := data.counted p
  have ready := data.ready p
  have below {place : Place} (here : (s.task p).place = place) (going : place ≠ .exit)
      (still : place ≠ .finished) : (s.task p).i < rounds := by
    unfold Task.Counted at counted
    rw [here] at counted
    cases place <;> first | exact counted | exact absurd rfl going | exact absurd rfl still
  cases did with
  | create value here _ =>
      exact data_next data (updates_at here Place.noConfusion).symm trivial
        (below here Place.noConfusion Place.noConfusion)
  | look place here there _ =>
      have i : (s.task p).i < rounds := by
        refine below rfl (fun exit => ?_) fun finished => ?_
        · rw [exit] at here
          cases here
        · rw [finished] at here
          cases here
      have early : ({ s.task p with place := place } : Task).place.early = true := there
      refine data_next data ?_ (ready_outside (early_outside early) _) ?_
      · exact (updates_early early).trans (updates_early here).symm
      · unfold Task.Counted
        cases place <;> first | exact i | cases there
  | setval m here _ =>
      exact data_next data (updates_at here Place.noConfusion).symm trivial
        (below here Place.noConfusion Place.noConfusion)
  | found m here _ _ =>
      have i : (s.task p).i < rounds := by
        refine below rfl (fun exit => ?_) fun finished => ?_
        · rw [exit] at here
          cases here
        · rw [finished] at here
          cases here
      exact data_next data (updates_early here).symm trivial i
  | down m here _ _ =>
      exact data_next data (updates_at here Place.noConfusion).symm trivial
        (below here Place.noConfusion Place.noConfusion)
  | rewind here =>
      exact data_next data (updates_at here Place.noConfusion).symm rfl
        (below here Place.noConfusion Place.noConfusion)
  | read here =>
      exact data_next data (updates_at here Place.noConfusion).symm (increment_ready data here)
        (below here Place.noConfusion Place.noConfusion)
  | rewindAgain here =>
      simp only [Task.Ready, here] at ready
      exact data_next data (updates_at here Place.noConfusion).symm ⟨rfl, ready⟩
        (below here Place.noConfusion Place.noConfusion)
  | write here =>
      have in_ : (s.task p).inside = true := inside_at here
      -- only p is inside, so nobody else has read the old number
      refine data_write data here fun q other => ?_
      cases also : (s.task q).inside with
      | false => rfl
      | true => exact absurd (exclusive q in_ also).symm other
  | up m here _ =>
      obtain ⟨same, next⟩ := next_updates _ here (below here Place.noConfusion Place.noConfusion)
      exact data_next data same (ready_outside (next_place _).2 _) next
  | exit m here _ =>
      -- the loop is over: the process has added each of its rounds
      have all : (s.task p).i = rounds := by
        unfold Task.Counted at counted
        rwa [here] at counted
      exact data_next data (updates_at here Place.noConfusion).symm trivial all

def WasSet (trace : List (Step Proc)) : Prop := ∃ d ∈ trace, ∃ c, d.output = .setval c

structure Inv (initial : Int) (trace : List (Step Proc)) (s : State Proc) : Prop where
  stage : Stage (WasSet trace) s
  data : Data initial s

theorem start_inv {file : List UInt8} {initial : Int} (read : number file = some initial)
    (s : State Proc) (first : (machine Proc file).start s) : Inv initial [] s := by
  obtain ⟨tasks, none_, same⟩ := first
  have fresh (p : Proc) : (s.task p).place = .semgetExcl ∧ (s.task p).i = 0 := by
    obtain ⟨seqno, line, task⟩ := tasks p
    rw [task]
    exact ⟨rfl, rfl⟩
  have nothing : written s = 0 := by
    refine (Threads.total_eq_zero s.task updates).mpr fun p => ?_
    rw [updates_at (fresh p).1 Place.noConfusion, (fresh p).2]
  refine ⟨.absent none_ fun p => (fresh p).1, ?_, ?_, ?_⟩
  · -- what sscanf gives is a long
    obtain ⟨found, -, clamped⟩ := Option.map_eq_some_iff.mp read
    have range := clamp_range found.1
    rw [clamped] at range
    have sum : initial + (0 : Nat) = initial := Int.add_zero initial
    rw [same, read, nothing, sum, toLong_of _ range.1 range.2]
  · exact fun p => ready_outside (early_outside (by rw [(fresh p).1]; rfl)) _
  · intro p
    unfold Task.Counted
    rw [(fresh p).1, (fresh p).2]
    decide

theorem run_inv {file : List UInt8} {initial : Int} (read : number file = some initial)
    {trace : List (Step Proc)} {s : State Proc} (run : (machine Proc file).Run trace s) :
    Inv initial trace s := by
  refine run.history (C := fun _ => True) (I := fun trace s => Inv initial trace s)
    (start_inv read) (fun trace e stepped _ inv => ?_) fun _ _ => trivial
  obtain ⟨result, did, after, event⟩ := step_did e stepped
  rw [after]
  refine ⟨stage_did inv.stage did ?_ ?_, data_did inv.data did ?_⟩
  · rintro ⟨d, member, set⟩
    exact ⟨d, List.mem_append_left _ member, set⟩
  · intro q set
    exact ⟨e, List.mem_append_right _ (List.mem_singleton_self e), q, event.trans set⟩
  · exact fun q here there => stage_exclusive inv.stage _ q here there

theorem down_set {file : List UInt8} {initial : Int} (read : number file = some initial)
    {pre : List (Step Proc)} {e : Step Proc} {p : Proc}
    (run : (machine Proc file).Run pre e.before) (stepped : (machine Proc file).Stepped e)
    (down : e.output = .down p) : WasSet pre := by
  have stage := (run_inv read run).stage
  obtain ⟨result, did, -, event⟩ := step_did e stepped
  have at_ : (e.before.task e.action.proc).place = .down := by
    have taken := event.symm.trans down
    cases did with
    | down m here _ _ => exact here
    | _ => cases taken
  cases stage with
  | absent none_ all =>
      have here := all e.action.proc
      rw [at_] at here
      cases here
  | making m creator present untimed setting others =>
      by_cases same : e.action.proc = creator
      · rw [← same, at_] at setting
        cases setting
      · have early := others e.action.proc same
        rw [at_] at early
        cases early
  | made m present done none_ positive sum undo => exact done

omit [DecidableEq Proc] in
theorem written_finished {initial : Int} {s : State Proc} (data : Data initial s)
    (finished : ∀ p, (s.task p).place = .finished) : written s = rounds * Fintype.card Proc := by
  have each (p : Proc) : updates (s.task p) = rounds := by
    have counted := data.counted p
    unfold Task.Counted at counted
    rw [finished p] at counted
    rw [updates_at (finished p) Place.noConfusion, counted]
  simp [written, Threads.total, each, Nat.mul_comm]

/-- One process at a time has the lock, none takes it before it has been set to 1, and at the end the
    number has grown by 20 for each process, as a long. -/
theorem no_lost_update (file : List UInt8) (initial : Int) (read : number file = some initial)
    (trace : List (Step Proc)) (s : State Proc) (run : (machine Proc file).Run trace s) :
    (∀ p q, (s.task p).inside = true → (s.task q).inside = true → p = q) ∧
      (∀ pre e post p, trace = pre ++ e :: post → e.output = .down p →
        ∃ d ∈ pre, ∃ c, d.output = .setval c) ∧
      ((∀ p, (s.task p).place = .finished) →
        number s.file = some (toLong (initial + 20 * Fintype.card Proc)) ∧
        (initial + 20 * Fintype.card Proc ≤ LONG_MAX →
          number s.file = some (initial + 20 * Fintype.card Proc))) := by
  have inv := run_inv read run
  refine ⟨stage_exclusive inv.stage, ?_, ?_⟩
  · intro pre e post p whole down
    subst whole
    exact down_set read run.split.1 run.split.2 down
  · intro finished
    have all : number s.file = some (toLong (initial + 20 * Fintype.card Proc)) := by
      have number := inv.data.number
      rw [written_finished inv.data finished] at number
      simpa [rounds] using number
    refine ⟨all, fun small => ?_⟩
    obtain ⟨found, -, clamped⟩ := Option.map_eq_some_iff.mp read
    have range := clamp_range found.1
    rw [clamped] at range
    rw [all, toLong_of _ (by omega) small]

end

/-! Two processes, one of which waits for the other to make the semaphore. -/

def begun : State (Fin 2) := ⟨fun _ => entering 0 [], none, bytes "-1\n"⟩

theorem begun_start : (machine (Fin 2) (bytes "-1\n")).start begun :=
  ⟨fun _ => ⟨0, [], rfl⟩, rfl, rfl⟩

def allRounds (p : Fin 2) : List (Action (Fin 2)) := List.replicate (20 * 6 + 1) ⟨p, 0⟩

theorem two_processes : ∃ (trace : List (Step (Fin 2))) (s : State (Fin 2)),
    (machine (Fin 2) (bytes "-1\n")).Run trace s ∧ number (bytes "-1\n") = some (-1) ∧
      number s.file = some 39 := by
  obtain ⟨trace, s, run, checked⟩ := Machine.run_of_check begun_start
    ([⟨0, 5⟩, ⟨1, 0⟩, ⟨1, 0⟩, ⟨1, 0⟩, ⟨0, 0⟩] ++ allRounds 0 ++ [⟨1, 0⟩, ⟨1, 0⟩] ++ allRounds 1)
    (fun r => decide (∀ p, (r.2.task p).place = .finished))
    (by decide +kernel)
  have finished := of_decide_eq_true checked
  have read : number (bytes "-1\n") = some (-1) := by decide +kernel
  have all := (no_lost_update (bytes "-1\n") (-1) read trace s run).2.2 finished
  exact ⟨trace, s, run, read, all.2 (by decide)⟩

end NetworkProgramming.Lockmain
