import NetworkProgramming.Reactor

/-!
The replies of the server. Each event is in the hands of its sub-reactor until it is a task, and
the task is in use until its reply has been sent; a descriptor that is closed in the meantime
takes the reply with it, to whoever has the number by then.
-/

namespace NetworkProgramming.Reactor

variable {Task : Type*} [DecidableEq Task]

/-! The descriptors. -/

structure Watched (s : State Task) : Prop where
  main : ∀ fd, s.main = some fd → s.fds fd ≠ none
  registered : ∀ fd, s.registered fd = true → s.fds fd ≠ none ∧ s.main ≠ some fd
  distinct : ∀ j, (s.batch j).Nodup
  batch : ∀ j, ∀ fd ∈ s.batch j, s.registered fd = true ∧ fd % subReactorNum = j

section

variable {s : State Task}

omit [DecidableEq Task] in
theorem Watched.accepted {fd : Nat} (watched : Watched s) (free : s.fds fd = none) :
    Watched (s.accepted fd) := by
  refine ⟨?_, fun fd' there => ?_, watched.distinct, watched.batch⟩
  · rintro fd' same
    cases same
    simp [State.accepted]
  · have apart : fd' ≠ fd := by
      rintro rfl
      exact (watched.registered fd' there).1 free
    constructor
    · simpa [State.accepted, apart] using (watched.registered fd' there).1
    · simpa [State.accepted] using apart.symm

omit [DecidableEq Task] in
theorem Watched.close {fd : Nat} (watched : Watched s) (elsewhere : ∀ j, fd ∉ s.batch j)
    (main : Option Nat) (nobody : main = none ∨ main = s.main ∧ s.main ≠ some fd) :
    Watched { s.close fd with main := main } := by
  refine ⟨fun fd' same => ?_, fun fd' there => ?_, watched.distinct, fun j fd' member => ?_⟩
  · rcases nobody with rfl | ⟨rfl, other⟩
    · cases same
    · have apart : fd' ≠ fd := by
        rintro rfl
        exact other same
      simpa [State.close, apart] using watched.main fd' same
  · have apart : fd' ≠ fd := by
      rintro rfl
      simp [State.close] at there
    have before : s.registered fd' = true := by simpa [State.close, apart] using there
    refine ⟨by simpa [State.close, apart] using (watched.registered fd' before).1, ?_⟩
    rcases nobody with rfl | ⟨rfl, -⟩
    · exact (Option.some_ne_none fd').symm
    · exact (watched.registered fd' before).2
  · have apart : fd' ≠ fd := by
      rintro rfl
      exact elsewhere j member
    simpa [State.close, apart] using watched.batch j fd' member

omit [DecidableEq Task] in
theorem Watched.batched (watched : Watched s) (j : Fin subReactorNum) (events : List Nat)
    (distinct : events.Nodup)
    (registered : ∀ fd ∈ events, s.registered fd = true ∧ fd % subReactorNum = j) :
    Watched { s with batch := Function.update s.batch j events } := by
  refine ⟨watched.main, watched.registered, fun i => ?_, fun i => ?_⟩
  · by_cases here : i = j
    · rw [here]
      simpa using distinct
    · simpa [here] using watched.distinct i
  · by_cases here : i = j
    · rw [here]
      simpa using registered
    · simpa [here] using watched.batch i

end

theorem watched_step (e : Step Task) (stepped : machine.Stepped e) (watched : Watched e.before) :
    Watched e.after := by
  have does := step_does e stepped
  obtain ⟨s, a, output, after⟩ := e
  dsimp only at does watched ⊢
  cases does with
  | accept free => exact watched.accepted free
  | @register fd main =>
      refine ⟨nofun, fun fd' there => ⟨?_, nofun⟩, watched.distinct, fun j fd' member => ?_⟩
      · by_cases here : fd' = fd
        · rw [here]
          exact watched.main fd main
        · exact (watched.registered fd' (by simpa [here] using there)).1
      · obtain ⟨before, place⟩ := watched.batch j fd' member
        have apart : fd' ≠ fd := by
          rintro rfl
          exact (watched.registered fd' before).2 main
        exact ⟨by simpa [apart] using before, place⟩
  | @refuse fd main =>
      refine watched.close (fun j member => ?_) none (Or.inl rfl)
      exact (watched.registered fd (watched.batch j fd member).1).2 main
  | epollWait distinct registered => exact watched.batched _ _ distinct registered
  | @read j fd rest result batch idle =>
      have distinct := watched.distinct j
      have registered := watched.batch j
      rw [batch] at distinct registered
      obtain ⟨absent, distinct⟩ := List.nodup_cons.mp distinct
      obtain ⟨here, others⟩ := List.forall_mem_cons.mp registered
      have shorter := watched.batched j rest distinct others
      cases closes : result.closes with
      | false =>
          have same : s.read j fd rest result = { s with
              batch := Function.update s.batch j rest
              current := Function.update s.current j (some (s.job fd result))
              reads := if result = .data then s.reads + 1 else s.reads } := by
            rw [State.read, closes]
            rfl
          rw [same]
          exact ⟨shorter.main, shorter.registered, shorter.distinct, shorter.batch⟩
      | true =>
          -- the descriptor is registered with one reactor, and once in its batch
          have elsewhere (i : Fin subReactorNum) : fd ∉ Function.update s.batch j rest i := by
            by_cases mine : i = j
            · rw [mine, Function.update_self]
              exact absent
            · rw [Function.update_of_ne mine]
              intro member
              exact mine (Fin.ext ((watched.batch i fd member).2.symm.trans here.2))
          have closed := shorter.close elsewhere s.main
            (Or.inr ⟨rfl, (watched.registered fd here.1).2⟩)
          rw [State.read, closes]
          exact ⟨closed.main, closed.registered, closed.distinct, closed.batch⟩
  | drop current => exact ⟨watched.main, watched.registered, watched.distinct, watched.batch⟩
  | enter current pooled =>
      exact ⟨watched.main, watched.registered, watched.distinct, watched.batch⟩
  | add pooled => exact ⟨watched.main, watched.registered, watched.distinct, watched.batch⟩
  | work own pooled => exact ⟨watched.main, watched.registered, watched.distinct, watched.batch⟩

theorem watched_run {trace : List (Step Task)} {s : State Task} (run : machine.Run trace s) :
    Watched s := by
  refine run.invariant ?_ fun e stepped watched => watched_step e stepped watched
  rintro s ⟨-, -, registered, main, batch, -⟩
  refine ⟨fun fd same => ?_, fun fd there => ?_, fun j => ?_, fun j fd member => ?_⟩
  · rw [main] at same
    cases same
  · rw [registered fd] at there
    cases there
  · rw [batch j]
    exact List.nodup_nil
  · rw [batch j] at member
    cases member

theorem pool_run {trace : List (Step Task)} {s : State Task} (run : machine.Run trace s) :
    ∃ past, ThreadPool.machine.Run past s.pool := by
  refine run.invariant (I := fun s => ∃ past, ThreadPool.machine.Run past s.pool) ?_ ?_
  · intro s first
    exact ⟨[], .start first.1⟩
  · rintro e stepped ⟨past, before⟩
    have does := step_does e stepped
    obtain ⟨s, a, output, after⟩ := e
    dsimp only at does before ⊢
    cases does with
    | enter _ pooled => exact ⟨_, before.next _ pooled⟩
    | add pooled => exact ⟨_, before.next _ pooled⟩
    | work _ pooled => exact ⟨_, before.next _ pooled⟩
    | @read j fd rest result _ _ =>
        refine ⟨past, ?_⟩
        rw [State.read]
        split <;> exact before
    | accept | register | refuse | epollWait | drop => exact ⟨past, before⟩

/-! The events. -/

section

variable {Place : Type*} {held : Place → Option Job} {fds : Nat → Option Nat} {main : Option Nat}
variable {reads : Nat}

/-- Each event is in one place, and where its descriptor has not been closed that is still its
connection. -/
structure Jobs (held : Place → Option Job) (fds : Nat → Option Nat) (main : Option Nat)
    (reads : Nat) : Prop where
  denotes : ∀ p job, held p = some job → job.closed = false →
    fds job.fd = job.conn ∧ job.conn ≠ none ∧ main ≠ some job.fd
  silent : ∀ p job, held p = some job → job.closed = true → job.event = none
  fresh : ∀ p job k, held p = some job → job.event = some k → k < reads
  alone : ∀ p q job job' k, held p = some job → held q = some job' → job.event = some k →
    job'.event = some k → p = q

def Outstanding (held : Place → Option Job) (k : Nat) : Prop :=
  ∃ p job, held p = some job ∧ job.event = some k

theorem Jobs.opened (jobs : Jobs held fds main reads) (fds' : Nat → Option Nat)
    (main' : Option Nat) (kept : ∀ p job, held p = some job → job.closed = false →
      fds' job.fd = fds job.fd ∧ main' ≠ some job.fd) : Jobs held fds' main' reads := by
  refine ⟨fun p job here unclosed => ?_, jobs.silent, jobs.fresh, jobs.alone⟩
  obtain ⟨same, conn, -⟩ := jobs.denotes p job here unclosed
  obtain ⟨still, other⟩ := kept p job here unclosed
  exact ⟨still.trans same, conn, other⟩

theorem Jobs.later {reads' : Nat} (jobs : Jobs held fds main reads) (more : reads ≤ reads') :
    Jobs held fds main reads' :=
  ⟨jobs.denotes, jobs.silent, fun p job k here event =>
    (jobs.fresh p job k here event).trans_le more, jobs.alone⟩

variable [DecidableEq Place]

theorem Jobs.dropped (jobs : Jobs held fds main reads) (p : Place) :
    Jobs (Function.update held p none) fds main reads := by
  have back (q : Place) (job : Job) (here : Function.update held p none q = some job) :
      held q = some job := by
    by_cases same : q = p
    · simp [same] at here
    · rwa [Function.update_of_ne same] at here
  exact ⟨fun q job here => jobs.denotes q job (back q job here),
    fun q job here => jobs.silent q job (back q job here),
    fun q job k here => jobs.fresh q job k (back q job here),
    fun q r job job' k here there => jobs.alone q r job job' k (back q job here) (back r job' there)⟩

theorem Jobs.taken (jobs : Jobs held fds main reads) (p : Place) (job : Job)
    (denotes : job.closed = false →
      fds job.fd = job.conn ∧ job.conn ≠ none ∧ main ≠ some job.fd)
    (silent : job.closed = true → job.event = none)
    (fresh : ∀ k, job.event = some k → k < reads ∧ ¬ Outstanding held k) :
    Jobs (Function.update held p (some job)) fds main reads := by
  have back (q : Place) (job' : Job) (here : Function.update held p (some job) q = some job') :
      (q = p ∧ job' = job) ∨ held q = some job' := by
    by_cases same : q = p
    · rw [same, Function.update_self] at here
      exact Or.inl ⟨same, (Option.some.inj here).symm⟩
    · rw [Function.update_of_ne same] at here
      exact Or.inr here
  refine ⟨fun q job' here => ?_, fun q job' here => ?_, fun q job' k here => ?_,
    fun q r job' job'' k here there one two => ?_⟩
  · rcases back q job' here with ⟨-, rfl⟩ | old
    · exact denotes
    · exact jobs.denotes q job' old
  · rcases back q job' here with ⟨-, rfl⟩ | old
    · exact silent
    · exact jobs.silent q job' old
  · rcases back q job' here with ⟨-, rfl⟩ | old
    · exact fun event => (fresh k event).1
    · exact jobs.fresh q job' k old
  · rcases back q job' here with ⟨rfl, rfl⟩ | old <;>
      rcases back r job'' there with ⟨rfl, rfl⟩ | old'
    · rfl
    · exact absurd ⟨r, job'', old', two⟩ (fresh k one).2
    · exact absurd ⟨q, job', old, one⟩ (fresh k two).2
    · exact jobs.alone q r job' job'' k old old' one two

theorem outstanding_dropped (jobs : Jobs held fds main reads) (p : Place) (job : Job)
    (here : held p = some job) (k : Nat) :
    Outstanding (Function.update held p none) k ↔ Outstanding held k ∧ job.event ≠ some k := by
  constructor
  · rintro ⟨q, job', there, event⟩
    by_cases same : q = p
    · simp [same] at there
    · rw [Function.update_of_ne same] at there
      exact ⟨⟨q, job', there, event⟩, fun own => same (jobs.alone q p job' job k there here event own)⟩
  · rintro ⟨⟨q, job', there, event⟩, other⟩
    refine ⟨q, job', ?_, event⟩
    rw [Function.update_of_ne, there]
    rintro rfl
    cases here.symm.trans there
    exact other event

theorem outstanding_taken (p : Place) (job : Job) (none_ : held p = none) (k : Nat) :
    Outstanding (Function.update held p (some job)) k ↔
      Outstanding held k ∨ job.event = some k := by
  constructor
  · rintro ⟨q, job', there, event⟩
    by_cases same : q = p
    · rw [same, Function.update_self] at there
      cases there
      exact Or.inr event
    · rw [Function.update_of_ne same] at there
      exact Or.inl ⟨q, job', there, event⟩
  · rintro (⟨q, job', there, event⟩ | event)
    · refine ⟨q, job', ?_, event⟩
      rw [Function.update_of_ne, there]
      rintro rfl
      cases none_.symm.trans there
    · exact ⟨p, job, Function.update_self _ _ _, event⟩

end

def held (s : State Task) : Fin subReactorNum ⊕ Task → Option Job
  | .inl j => s.current j
  | .inr t => if s.pool.shared.made t then some (s.arg t) else none

section

variable {s : State Task}

omit [DecidableEq Task] in
theorem held_same {s' : State Task} (current : s'.current = s.current)
    (made : s'.pool.shared.made = s.pool.shared.made) (arg : s'.arg = s.arg) :
    held s' = held s := by
  funext p
  cases p with
  | inl j => rw [held, held, current]
  | inr t => rw [held, held, made, arg]

theorem held_current {s' : State Task} (j : Fin subReactorNum) (job : Option Job)
    (current : s'.current = Function.update s.current j job)
    (made : s'.pool.shared.made = s.pool.shared.made) (arg : s'.arg = s.arg) :
    held s' = Function.update (held s) (.inl j) job := by
  funext p
  cases p with
  | inl i =>
      rw [held, current]
      by_cases same : i = j
      · rw [same, Function.update_self, Function.update_self]
      · rw [Function.update_of_ne same, Function.update_of_ne fun here => same (Sum.inl.inj here),
          held]
  | inr t => rw [held, made, arg, Function.update_of_ne Sum.inr_ne_inl, held]

theorem held_made {s' : State Task} (t : Task) (job : Job) (current : s'.current = s.current)
    (made : s'.pool.shared.made = Function.update s.pool.shared.made t true)
    (arg : s'.arg = Function.update s.arg t job) :
    held s' = Function.update (held s) (.inr t) (some job) := by
  funext p
  cases p with
  | inl i => rw [held, current, Function.update_of_ne Sum.inl_ne_inr, held]
  | inr t' =>
      rw [held, made, arg]
      by_cases same : t' = t
      · simp [same]
      · rw [Function.update_of_ne same, Function.update_of_ne same,
          Function.update_of_ne fun here => same (Sum.inr.inj here), held]

theorem held_freed {s' : State Task} (t : Task) (current : s'.current = s.current)
    (made : s'.pool.shared.made = Function.update s.pool.shared.made t false)
    (arg : s'.arg = s.arg) : held s' = Function.update (held s) (.inr t) none := by
  funext p
  cases p with
  | inl i => rw [held, current, Function.update_of_ne Sum.inl_ne_inr, held]
  | inr t' =>
      rw [held, made, arg]
      by_cases same : t' = t
      · simp [same]
      · rw [Function.update_of_ne same, Function.update_of_ne fun here => same (Sum.inr.inj here),
          held]

end

/-! The steps. -/

/-- A descriptor is closed only while no reply is to come for its connection, and no task is made
for it then; every other event gets its task, and send takes the whole of a reply to data. -/
def Met (e : Step Task) : Prop :=
  match e.action with
  | .readHandler j result =>
      result.closes = true → ∀ fd, (e.before.batch j).head? = some fd →
        ∀ p job, held e.before p = some job → job.closed = false → job.fd ≠ fd
  | .taskNew j none => ∀ job, e.before.current j = some job → job.event = none
  | .taskNew j (some _) => ∀ job, e.before.current j = some job → job.closed = false
  | .work i _ ret =>
      ∀ k t, e.before.pool.phase (.inl i) = .outside (.run k t) →
        (e.before.arg t).event ≠ none → ret = ackLen
  | _ => True

def Delivered (e : Step Task) : Prop :=
  ∀ job denotes ret, e.output = .replied job denotes ret → denotes = job.conn ∧ job.conn ≠ none

def answers (k : Nat) (e : Step Task) : Bool :=
  match e.output with
  | .replied job _ ret => job.event = some k ∧ ret = ackLen
  | .silent => false

def replies (k : Nat) (trace : List (Step Task)) : Nat := trace.countP (answers k)

/-- Each read event has had one reply, or its reply is still to come. -/
def Once (trace : List (Step Task)) (s : State Task) : Prop :=
  ∀ k, k < s.reads → (Outstanding (held s) k ∧ replies k trace = 0) ∨
    (¬ Outstanding (held s) k ∧ replies k trace = 1)

structure Sound (trace : List (Step Task)) (s : State Task) : Prop where
  jobs : Jobs (held s) s.fds s.main s.reads
  tasks : ∀ t, s.pool.shared.made t = true → (s.arg t).closed = false
  later : ∀ k, s.reads ≤ k → replies k trace = 0
  once : Once trace s

section

variable {trace : List (Step Task)} {e : Step Task}

omit [DecidableEq Task] in
theorem replies_snoc (k : Nat) :
    replies k (trace ++ [e]) = replies k trace + if answers k e then 1 else 0 := by
  rw [replies, List.countP_append, List.countP_singleton, replies]

omit [DecidableEq Task] in
theorem replies_silent (silent : ∀ k, answers k e = false) (k : Nat) :
    replies k (trace ++ [e]) = replies k trace := by
  rw [replies_snoc, silent k]
  rfl

omit [DecidableEq Task] in
theorem answers_silent (silent : e.output = .silent) (k : Nat) : answers k e = false := by
  rw [answers, silent]

omit [DecidableEq Task] in
theorem Sound.quiet (sound : Sound trace e.before) (silent : ∀ k, answers k e = false)
    (jobs : Jobs (held e.after) e.after.fds e.after.main e.after.reads)
    (tasks : ∀ t, e.after.pool.shared.made t = true → (e.after.arg t).closed = false)
    (reads : e.after.reads = e.before.reads)
    (same : ∀ k, Outstanding (held e.after) k ↔ Outstanding (held e.before) k) :
    Sound (trace ++ [e]) e.after := by
  refine ⟨jobs, tasks, fun k beyond => ?_, fun k within => ?_⟩
  · rw [replies_silent silent]
    exact sound.later k (reads ▸ beyond)
  · rw [replies_silent silent, same]
    exact sound.once k (reads ▸ within)

omit [DecidableEq Task] in
theorem Sound.opens (sound : Sound trace e.before) (silent : e.output = .silent)
    (current : e.after.current = e.before.current) (pool : e.after.pool = e.before.pool)
    (arg : e.after.arg = e.before.arg) (reads : e.after.reads = e.before.reads)
    (kept : ∀ p job, held e.before p = some job → job.closed = false →
      e.after.fds job.fd = e.before.fds job.fd ∧ e.after.main ≠ some job.fd) :
    Sound (trace ++ [e]) e.after := by
  have same : held e.after = held e.before := held_same current (by rw [pool]) arg
  refine sound.quiet (answers_silent silent) ?_ ?_ reads fun k => by rw [same]
  · rw [same, reads]
    exact sound.jobs.opened _ _ kept
  · rw [pool, arg]
    exact sound.tasks

end

theorem sound_read (trace : List (Step Task)) (e : Step Task) (j : Fin subReactorNum) (fd : Nat)
    (rest : List Nat) (result : Recv) (sound : Sound trace e.before) (watched : Watched e.before)
    (batch : e.before.batch j = fd :: rest) (idle : e.before.current j = none)
    (silent : e.output = .silent) (after : e.after = e.before.read j fd rest result)
    (alone : result.closes = true →
      ∀ p job, held e.before p = some job → job.closed = false → job.fd ≠ fd) :
    Sound (trace ++ [e]) e.after := by
  obtain ⟨s, a, output, s'⟩ := e
  dsimp only at *
  subst after
  obtain ⟨opened, other⟩ := watched.registered fd
    ((watched.batch j fd (batch ▸ List.mem_cons_self)).1)
  have fields : (s.read j fd rest result).pool = s.pool ∧ (s.read j fd rest result).arg = s.arg ∧
      (s.read j fd rest result).main = s.main ∧ (s.read j fd rest result).fds =
        if result.closes then Function.update s.fds fd none else s.fds := by
    rw [State.read]
    split <;> simp [State.close, *]
  obtain ⟨pool, arg, main, fds⟩ := fields
  have now : held (s.read j fd rest result) =
      Function.update (held s) (.inl j) (some (s.job fd result)) :=
    held_current j _ rfl (by rw [pool]) arg
  have before : held s (.inl j) = none := idle
  have reads : (s.read j fd rest result).reads =
      if result = .data then s.reads + 1 else s.reads := rfl
  have mono : s.reads ≤ (s.read j fd rest result).reads := by
    rw [reads]
    split
    · exact Nat.le_succ _
    · exact Nat.le_refl _
  have event (k : Nat) : (s.job fd result).event = some k ↔ result = .data ∧ k = s.reads := by
    rw [State.job]
    by_cases data : result = .data <;> simp [data, eq_comm]
  -- the event that has just been read is the only new one
  have outstanding (k : Nat) : Outstanding (held (s.read j fd rest result)) k ↔
      Outstanding (held s) k ∨ (result = .data ∧ k = s.reads) := by
    rw [now, outstanding_taken _ _ before, event]
  have count (k : Nat) :
      replies k (trace ++ [⟨s, a, output, s.read j fd rest result⟩]) = replies k trace :=
    replies_silent (answers_silent silent) k
  have below (k : Nat) (there : Outstanding (held s) k) : k < s.reads := by
    obtain ⟨p, job, here, event⟩ := there
    exact sound.jobs.fresh p job k here event
  refine ⟨?_, ?_, fun k beyond => ?_, fun k within => ?_⟩
  · rw [now, main]
    refine (((sound.jobs.opened (s.read j fd rest result).fds s.main ?_).later mono).taken _ _
      ?_ ?_ fun k own => ?_)
    · intro p job here unclosed
      refine ⟨?_, (sound.jobs.denotes p job here unclosed).2.2⟩
      rw [fds]
      split
      · rename_i closes
        -- the descriptor that is closed is that of no job with a reply to come
        exact Function.update_of_ne (alone closes p job here unclosed) _ _
      · rfl
    · intro unclosed
      have stays : result.closes = false := unclosed
      rw [fds, if_neg (by simp [stays])]
      exact ⟨rfl, opened, other⟩
    · intro closed
      have closes : result.closes = true := closed
      have data : result ≠ .data := by
        rintro rfl
        cases closes
      exact if_neg data
    · obtain ⟨data, rfl⟩ := (event k).mp own
      rw [reads, if_pos data]
      exact ⟨Nat.lt_succ_self _, fun there => absurd (below _ there) (Nat.lt_irrefl _)⟩
  · rw [pool, arg]
    exact sound.tasks
  · rw [count]
    exact sound.later k (mono.trans beyond)
  · rw [count, outstanding]
    rcases Nat.lt_or_ge k s.reads with old | new
    -- an earlier event is as outstanding as it was
    · have apart : ¬ (result = .data ∧ k = s.reads) := fun both => by omega
      rw [or_iff_left apart]
      exact sound.once k old
    · have data : result = .data := by
        by_contra other
        rw [reads, if_neg other] at within
        omega
      rw [reads, if_pos data] at within
      exact Or.inl ⟨Or.inr ⟨data, by omega⟩, sound.later k new⟩

theorem sound_drop (trace : List (Step Task)) (e : Step Task) (j : Fin subReactorNum) (job : Job)
    (sound : Sound trace e.before) (current : e.before.current j = some job)
    (silent : e.output = .silent) (after : e.after = e.before.done j) (event : job.event = none) :
    Sound (trace ++ [e]) e.after := by
  have now : held e.after = Function.update (held e.before) (.inl j) none :=
    held_current j none (by rw [after]; rfl) (by rw [after]; rfl) (by rw [after]; rfl)
  refine sound.quiet (answers_silent silent) ?_ ?_ (by rw [after]; rfl) fun k => ?_
  · rw [now, after]
    exact sound.jobs.dropped (.inl j)
  · rw [after]
    exact sound.tasks
  · rw [now, outstanding_dropped sound.jobs (.inl j) job current k, event]
    exact and_iff_left (Option.some_ne_none k).symm

theorem sound_enter (trace : List (Step Task)) (e : Step Task) (j : Fin subReactorNum) (t : Task)
    (job : Job) (pool : PoolState Task) (sound : Sound trace e.before)
    (current : e.before.current j = some job) (silent : e.output = .silent)
    (after : e.after = (e.before.done j).entered pool t job)
    (unused : e.before.pool.shared.made t = false)
    (made : pool.shared.made = Function.update e.before.pool.shared.made t true)
    (open_ : job.closed = false) : Sound (trace ++ [e]) e.after := by
  have dropped : held (e.before.done j) = Function.update (held e.before) (.inl j) none :=
    held_current j none rfl rfl rfl
  have now : held e.after =
      Function.update (Function.update (held e.before) (.inl j) none) (.inr t) (some job) := by
    rw [← dropped]
    refine held_made t job ?_ ?_ ?_
    · rw [after]
      rfl
    · rw [after]
      exact made
    · rw [after]
      rfl
  have free : Function.update (held e.before) (.inl j) none (.inr t) = none := by
    rw [Function.update_of_ne Sum.inr_ne_inl, held, if_neg (by simp [unused])]
  -- the job is out of the hands of the reactor before the pool has it
  have gone (k : Nat) := outstanding_dropped sound.jobs (.inl j) job current k
  refine sound.quiet (answers_silent silent) ?_ ?_ (by rw [after]; rfl) fun k => ?_
  · rw [now, after]
    refine (sound.jobs.dropped (.inl j)).taken (.inr t) job
      (sound.jobs.denotes (.inl j) job current) (sound.jobs.silent (.inl j) job current)
      fun k event => ⟨sound.jobs.fresh (.inl j) job k current event, ?_⟩
    rw [gone]
    exact fun both => both.2 event
  · intro t' there
    have args : e.after.arg = Function.update e.before.arg t job := by rw [after]; rfl
    have mades : e.after.pool.shared.made = Function.update e.before.pool.shared.made t true := by
      rw [after]
      exact made
    rw [args]
    by_cases same : t' = t
    · rw [same, Function.update_self]
      exact open_
    · rw [Function.update_of_ne same]
      rw [mades, Function.update_of_ne same] at there
      exact sound.tasks t' there
  · rw [now, outstanding_taken _ _ free, gone]
    constructor
    · rintro (old | event)
      · exact old.1
      · exact ⟨.inl j, job, current, event⟩
    · intro there
      by_cases event : job.event = some k
      · exact Or.inr event
      · exact Or.inl ⟨there, event⟩

theorem sound_reply (trace : List (Step Task)) (e : Step Task) (t : Task) (pool : PoolState Task)
    (ret : Int) (sound : Sound trace e.before) (after : e.after = { e.before with pool := pool })
    (output : e.output = .replied (e.before.arg t) (e.before.fds (e.before.arg t).fd) ret)
    (used : e.before.pool.shared.made t = true)
    (made : pool.shared.made = Function.update e.before.pool.shared.made t false)
    (whole : (e.before.arg t).event ≠ none → ret = ackLen) :
    Sound (trace ++ [e]) e.after ∧ Delivered e := by
  have here : held e.before (.inr t) = some (e.before.arg t) := by rw [held, if_pos used]
  have now : held e.after = Function.update (held e.before) (.inr t) none :=
    held_freed t (by rw [after]) (by rw [after]; exact made) (by rw [after])
  have reads : e.after.reads = e.before.reads := by rw [after]
  have gone (k : Nat) : Outstanding (held e.after) k ↔
      Outstanding (held e.before) k ∧ (e.before.arg t).event ≠ some k := by
    rw [now]
    exact outstanding_dropped sound.jobs (.inr t) _ here k
  have answer (k : Nat) : answers k e = true ↔ (e.before.arg t).event = some k := by
    rw [answers, output]
    dsimp only
    rw [decide_eq_true_eq]
    exact ⟨And.left, fun own => ⟨own, whole (by rw [own]; exact Option.some_ne_none k)⟩⟩
  refine ⟨⟨?_, fun t' there => ?_, fun k beyond => ?_, fun k within => ?_⟩, ?_⟩
  · rw [now, after]
    exact sound.jobs.dropped (.inr t)
  · have mades : e.after.pool.shared.made = Function.update e.before.pool.shared.made t false := by
      rw [after]
      exact made
    rw [mades] at there
    by_cases same : t' = t
    · simp [same] at there
    · rw [Function.update_of_ne same] at there
      rw [after]
      exact sound.tasks t' there
  · rw [replies_snoc, sound.later k (reads ▸ beyond), if_neg]
    rw [answer]
    intro own
    have less := sound.jobs.fresh _ _ k here own
    omega
  · rw [replies_snoc, gone]
    rw [reads] at within
    -- the event of this job is answered here, and no other one
    by_cases own : (e.before.arg t).event = some k
    · have old := (sound.once k within).resolve_right fun bad => bad.1 ⟨_, _, here, own⟩
      rw [if_pos ((answer k).mpr own), old.2]
      exact Or.inr ⟨fun both => both.2 own, rfl⟩
    · rw [if_neg (mt (answer k).mp own), and_iff_left own]
      exact sound.once k within
  · intro job denotes ret' same
    rw [output] at same
    cases same
    obtain ⟨fds, conn, -⟩ := sound.jobs.denotes _ _ here (sound.tasks t used)
    exact ⟨fds, conn⟩

theorem sound_step (trace : List (Step Task)) (e : Step Task) (stepped : machine.Stepped e)
    (watched : Watched e.before) (past : ∃ past, ThreadPool.machine.Run past e.before.pool)
    (sound : Sound trace e.before) (met : Met e) : Sound (trace ++ [e]) e.after ∧ Delivered e := by
  have does := step_does e stepped
  obtain ⟨s, a, output, after⟩ := e
  obtain ⟨past, run⟩ := past
  dsimp only at does watched run sound
  have quiet : output = .silent → Delivered (⟨s, a, output, after⟩ : Step Task) := by
    rintro rfl job denotes ret same
    cases same
  cases does with
  | @accept fd free =>
      refine ⟨sound.opens rfl rfl rfl rfl rfl fun p job here unclosed => ?_, quiet rfl⟩
      obtain ⟨same, conn, -⟩ := sound.jobs.denotes p job here unclosed
      have apart : job.fd ≠ fd := by
        rintro rfl
        exact conn (same.symm.trans free)
      exact ⟨Function.update_of_ne apart _ _, fun here => apart (Option.some.inj here).symm⟩
  | register main =>
      exact ⟨sound.opens rfl rfl rfl rfl rfl fun _ _ _ _ => ⟨rfl, (Option.some_ne_none _).symm⟩,
        quiet rfl⟩
  | @refuse fd main =>
      refine ⟨sound.opens rfl rfl rfl rfl rfl fun p job here unclosed => ⟨?_, ?_⟩, quiet rfl⟩
      · refine Function.update_of_ne (fun same => ?_) _ _
        exact (sound.jobs.denotes p job here unclosed).2.2 (main.trans (congrArg some same.symm))
      · exact (Option.some_ne_none _).symm
  | epollWait _ _ =>
      exact ⟨sound.opens rfl rfl rfl rfl rfl fun p job here unclosed =>
        ⟨rfl, (sound.jobs.denotes p job here unclosed).2.2⟩, quiet rfl⟩
  | @read j fd rest result batch idle =>
      refine ⟨sound_read trace _ j fd rest result sound watched batch idle rfl rfl ?_, quiet rfl⟩
      exact fun closes => met closes fd (congrArg List.head? batch)
  | @drop j job current =>
      exact ⟨sound_drop trace _ j job sound current rfl rfl (met job current), quiet rfl⟩
  | @enter j t job output pool current pooled =>
      obtain ⟨unused, made⟩ := ThreadPool.task_new_made pooled
      exact ⟨sound_enter trace _ j t job pool sound current rfl rfl unused made
        (met job current), quiet rfl⟩
  | @add j t target output pool pooled =>
      have same : held { s with pool := pool } = held s :=
        held_same rfl (ThreadPool.add_made pooled) rfl
      refine ⟨sound.quiet (answers_silent rfl) ?_ ?_ rfl fun k => by rw [same], quiet rfl⟩
      · rw [same]
        exact sound.jobs
      · rw [ThreadPool.add_made pooled]
        exact sound.tasks
  | @work i a ret output pool own pooled =>
      rcases ThreadPool.work_made run pooled own with ⟨k, t, rfl, here, used, made⟩ | ⟨other, made⟩
      · exact sound_reply trace _ t pool ret sound rfl rfl used made (met k t here)
      · have silent : s.reply output ret = .silent := by
          cases output with
          | none => rfl
          | some output => cases output <;> first | rfl | exact absurd rfl (other _)
        have same : held { s with pool := pool } = held s := held_same rfl made rfl
        refine ⟨sound.quiet (answers_silent silent) ?_ ?_ rfl fun k => by rw [same], quiet silent⟩
        · rw [same]
          exact sound.jobs
        · rw [made]
          exact sound.tasks

theorem sound_start (s : State Task) (first : machine.start s) : Sound [] s := by
  obtain ⟨pool, -, -, -, -, current, -, reads⟩ := first
  have unmade := pool.2.2.2.2.1
  have nothing (p : Fin subReactorNum ⊕ Task) : held s p = none := by
    cases p with
    | inl j => exact current j
    | inr t => rw [held, unmade t, if_neg Bool.false_ne_true]
  refine ⟨⟨fun p job here => ?_, fun p job here => ?_, fun p job k here => ?_,
    fun p q job job' k here => ?_⟩, fun t there => ?_, fun k _ => rfl, fun k within => ?_⟩
  · cases (nothing p).symm.trans here
  · cases (nothing p).symm.trans here
  · cases (nothing p).symm.trans here
  · cases (nothing p).symm.trans here
  · cases (unmade t).symm.trans there
  · rw [reads] at within
    exact absurd within (Nat.not_lt_zero k)

theorem sound_run {trace : List (Step Task)} {s : State Task} (run : machine.Run trace s)
    (met : ∀ e ∈ trace, Met e) : Sound trace s ∧ ∀ e ∈ trace, Delivered e := by
  induction run with
  | start first => exact ⟨sound_start _ first, fun e member => absurd member List.not_mem_nil⟩
  | @next trace e before stepped ih =>
      obtain ⟨sound, delivered⟩ := ih fun d member => met d (List.mem_append_left _ member)
      obtain ⟨after, here⟩ := sound_step trace e stepped (watched_run before) (pool_run before) sound
        (met e (by simp))
      refine ⟨after, fun d member => ?_⟩
      rcases List.mem_append.mp member with old | new
      · exact delivered d old
      · exact List.mem_singleton.mp new ▸ here

/-- Where no descriptor is closed that a reply is to come for, every send is on a descriptor of
the connection that the event was read from, and every read event has one reply, or will. -/
theorem replies_delivered (trace : List (Step Task)) (s : State Task) (run : machine.Run trace s)
    (met : ∀ e ∈ trace, Met e) : (∀ e ∈ trace, Delivered e) ∧ Once trace s :=
  ⟨(sound_run run met).2, (sound_run run met).1.once⟩

/-- Descriptors from 9 on are free: the others are for standard input and output, the listening
socket and the epoll instances. -/
def initial : State Task where
  pool := ThreadPool.initial
  fds := fun _ => none
  own := fun fd => fd < 9
  registered := fun _ => false
  main := none
  batch := fun _ => []
  current := fun _ => none
  arg := fun _ => ⟨0, none, true, none⟩
  conns := 0
  reads := 0

theorem initial_start : machine.start (initial : State Task) :=
  ⟨ThreadPool.initial_start, fun _ => rfl, fun _ => rfl, rfl, fun _ => rfl, fun _ => rfl, rfl, rfl⟩

def plain (e : Step Task) : Bool :=
  match e.action with
  | .readHandler _ result => !result.closes
  | .taskNew _ none => false
  | .taskNew j (some _) => (e.before.current j).all fun job => !job.closed
  | .work _ _ ret => ret = ackLen
  | _ => true

omit [DecidableEq Task] in
theorem plain_met (e : Step Task) (ok : plain e = true) : Met e := by
  obtain ⟨s, a, output, after⟩ := e
  cases a with
  | accept | epollAdd | epollWait | add => trivial
  | readHandler j result =>
      intro closes
      change (!result.closes) = true at ok
      rw [closes] at ok
      cases ok
  | taskNew j task =>
      cases task with
      | none => cases ok
      | some t =>
          intro job current
          change (s.current j).all _ = true at ok
          dsimp only at current
          simpa [current] using ok
  | work i a ret =>
      intro k t _ _
      exact of_decide_eq_true ok

def first : Fin subReactorNum := ⟨1, by decide⟩

def worker : Fin poolSize := ⟨0, by decide⟩

def works : Action (Fin 1) := .work worker (.enter (.inl worker) .proceed none) 1400

theorem data_replied : ∃ (trace : List (Step (Fin 1))) (s : State (Fin 1)),
    machine.Run trace s ∧ s.reads = 1 ∧ replies 0 trace = 1 ∧
      (∀ e ∈ trace, Delivered e) ∧ Once trace s := by
  obtain ⟨trace, s, run, checked⟩ := Machine.run_of_check
    (M := (machine : Machine (State (Fin 1)) _ _)) initial_start
    [.accept 9, .epollAdd true, .epollWait first [9], .readHandler first .data,
      .taskNew first (some 0), .add first 0 none, works, works, works]
    (fun r => decide (r.2.reads = 1 ∧ replies 0 r.1 = 1 ∧ ∀ e ∈ r.1, plain e = true))
    (by decide +kernel)
  obtain ⟨reads, one, ok⟩ := of_decide_eq_true checked
  exact ⟨trace, s, run, reads, one,
    replies_delivered trace s run fun e member => plain_met e (ok e member)⟩

theorem end_misdelivered : ∃ (trace : List (Step (Fin 1))) (s : State (Fin 1)),
    machine.Run trace s ∧ ¬ ((∀ e ∈ trace, Delivered e) ∧ Once trace s) := by
  obtain ⟨trace, s, run, checked⟩ := Machine.run_of_check
    (M := (machine : Machine (State (Fin 1)) _ _)) initial_start
    [.accept 9, .epollAdd true, .epollWait first [9], .readHandler first .eof,
      .taskNew first (some 0), .add first 0 none, .accept 9, works, works, works]
    (fun r => decide (∃ e ∈ r.1, e.output = .replied ⟨9, some 0, true, none⟩ (some 1) 1400))
    (by decide +kernel)
  obtain ⟨e, member, output⟩ := of_decide_eq_true checked
  refine ⟨trace, s, run, fun claim => ?_⟩
  have same := (claim.1 e member _ _ _ output).1
  cases same

end NetworkProgramming.Reactor
