import NetworkProgramming.IntCounter
import NetworkProgramming.RwLock

/-!
What the counters of a read-write lock mean. The ledger ties the two wait
counters to the threads inside the two wait loops; every section of either
variant keeps it, whatever `pthread_cond_wait` returns and whoever is cancelled.
`rw_refcount` counts the locks that threads hold as far as an `int` can: in
my_rwlock the last read lock there is room for makes it negative, and no reader
passes it then.
-/

namespace NetworkProgramming.RwLock

variable {Thread : Type*} [Fintype Thread] [DecidableEq Thread]

abbrev State (Thread : Type*) := Monitor.State Thread PthreadRwlock Holding Waiter
abbrev Step (Thread : Type*) :=
  Transition (State Thread) (Monitor.Action Thread Call (Option Errno)) (Option Reply)

def machine (v : Variant) :
    Machine (State Thread) (Monitor.Action Thread Call (Option Errno)) (Option Reply) :=
  (monitor v).machine ⟨0, 0⟩ fun rw => rw = pthreadRwlockInit

def holding : Phase Holding Waiter → Holding
  | .outside held => held
  | .waiting _ w => w.held

@[simp] theorem holding_outside (held : Holding) : holding (.outside held) = held := rfl

@[simp] theorem holding_waiting (mode : Mode) (w : Waiter) :
    holding (.waiting mode w) = w.held := rfl

/-- Inside the wait loop of this kind, blocked or on the way out. -/
def queued (kind : Kind) : Phase Holding Waiter → Bool
  | .outside _ => false
  | .waiting _ w => decide (w.kind = kind)

@[simp] theorem queued_outside (kind : Kind) (held : Holding) :
    queued kind (.outside held) = false := rfl

@[simp] theorem queued_waiting (kind : Kind) (mode : Mode) (w : Waiter) :
    queued kind (.waiting mode w) = decide (w.kind = kind) := rfl

def readLocks (s : State Thread) : Nat := Threads.total s.phase fun p => (holding p).reads
def writeLocks (s : State Thread) : Nat := Threads.total s.phase fun p => (holding p).writes

def readingThreads (s : State Thread) : Nat :=
  Threads.count s.phase fun p => decide (0 < (holding p).reads)
def writingThreads (s : State Thread) : Nat :=
  Threads.count s.phase fun p => decide (0 < (holding p).writes)

def waitingThreads (s : State Thread) (kind : Kind) : Nat := Threads.count s.phase (queued kind)

structure Ledger (s : State Thread) : Prop where
  readers : s.shared.rwNwaitreaders = waitingThreads s .reader
  writers : s.shared.rwNwaitwriters = waitingThreads s .writer

def Counted (s : State Thread) : Prop :=
  (s.shared.rwRefcount = Int32.ofNat (readLocks s) ∧ readLocks s ≤ 2 ^ 31 ∧ writeLocks s = 0) ∨
    (s.shared.rwRefcount = -1 ∧ writeLocks s = 1 ∧ readLocks s = 0)

/-- The lock as a section finds it once thread `t` no longer counts as waiting. -/
structure Entered (s : State Thread) (t : Thread) (rw : PthreadRwlock) (held : Holding) :
    Prop where
  owns : holding (s.phase t) = held
  refcount : rw.rwRefcount = s.shared.rwRefcount
  readers : rw.rwNwaitreaders + (queued .reader (s.phase t)).toNat = s.shared.rwNwaitreaders
  writers : rw.rwNwaitwriters + (queued .writer (s.phase t)).toNat = s.shared.rwNwaitwriters

omit [Fintype Thread] [DecidableEq Thread] in
theorem entered_outside (s : State Thread) (t : Thread) (held : Holding)
    (here : s.phase t = .outside held) : Entered s t s.shared held :=
  ⟨by simp [here], rfl, by simp [here], by simp [here]⟩

omit [Fintype Thread] [DecidableEq Thread] in
theorem entered_waiting (s : State Thread) (t : Thread) (mode : Mode) (w : Waiter)
    (here : s.phase t = .waiting mode w) : Entered s t (leaveQueue w.kind s.shared) w.held := by
  obtain ⟨kind, held⟩ := w
  cases kind <;>
    exact ⟨by simp [here], rfl, by simp [here, leaveQueue], by simp [here, leaveQueue]⟩

omit [DecidableEq Thread] in
theorem held_le (s : State Thread) (t : Thread) :
    (holding (s.phase t)).reads ≤ readLocks s ∧ (holding (s.phase t)).writes ≤ writeLocks s :=
  ⟨Threads.weight_le_total s.phase (fun p => (holding p).reads) t,
    Threads.weight_le_total s.phase (fun p => (holding p).writes) t⟩

theorem section_entries (v : Variant) (s : State Thread) (t : Thread)
    (running : ∀ call, s.phase t ≠ .waiting .blocked call)
    (wake : Wake Kind) (target : Option Thread) (phase : Thread → Phase Holding Waiter)
    (woken : Monitor.Woken (monitor v).condOf s.phase wake target phase)
    (p : Phase Holding Waiter) (after : State Thread)
    (same : after.phase = Function.update phase t p) :
    readLocks after + (holding (s.phase t)).reads = readLocks s + (holding p).reads ∧
    writeLocks after + (holding (s.phase t)).writes = writeLocks s + (holding p).writes ∧
    ∀ kind, waitingThreads after kind + (queued kind (s.phase t)).toNat =
      waitingThreads s kind + (queued kind p).toNat := by
  simp only [readLocks, writeLocks, waitingThreads, Threads.count, same]
  refine ⟨?_, ?_, ?_⟩
  · exact Monitor.section_total woken t running p (fun p => (holding p).reads) fun _ => rfl
  · exact Monitor.section_total woken t running p (fun p => (holding p).writes) fun _ => rfl
  · intro kind
    exact Monitor.section_total woken t running p (fun p => (queued kind p).toNat) fun _ => rfl

theorem did_ledger (v : Variant) (s after : State Thread) (t : Thread) (rw : PthreadRwlock)
    (held : Holding) (sec : LockSection) (target : Option Thread)
    (phase : Thread → Phase Holding Waiter) (entered : Entered s t rw held)
    (did : Did v rw held sec)
    (running : ∀ call, s.phase t ≠ .waiting .blocked call)
    (woken : Monitor.Woken (monitor v).condOf s.phase sec.wake target phase)
    (shared : after.shared = sec.shared)
    (moved : after.phase = Function.update phase t sec.exit.phase)
    (ledger : Ledger s) : Ledger after := by
  obtain ⟨_, _, waits⟩ := section_entries v s t running _ _ phase woken
    sec.exit.phase after moved
  have waitReaders := waits .reader
  have waitWriters := waits .writer
  obtain ⟨_, _, readers, writers⟩ := entered
  obtain ⟨countReaders, countWriters⟩ := ledger
  cases did with
  | blockReader busy =>
      simp only [Exit.phase, queued_waiting, reduceCtorEq, decide_true, decide_false,
        Bool.toNat_true, Bool.toNat_false] at waitReaders waitWriters shared
      constructor <;> rw [shared] <;> simp only <;> omega
  | blockWriter busy =>
      simp only [Exit.phase, queued_waiting, reduceCtorEq, decide_true, decide_false,
        Bool.toNat_true, Bool.toNat_false] at waitReaders waitWriters shared
      constructor <;> rw [shared] <;> simp only <;> omega
  -- the other sections leave the thread outside and the wait counters alone
  | _ =>
      simp only [leave, unlockAt, Exit.phase, queued_outside, Bool.toNat_false]
        at waitReaders waitWriters
      have kept : after.shared.rwNwaitreaders = rw.rwNwaitreaders ∧
          after.shared.rwNwaitwriters = rw.rwNwaitwriters := by
        rw [shared]
        exact ⟨rfl, rfl⟩
      exact ⟨by omega, by omega⟩

omit [DecidableEq Thread] in
theorem counted_kept (s after : State Thread) (count : after.shared.rwRefcount = s.shared.rwRefcount)
    (reads : readLocks after = readLocks s) (writes : writeLocks after = writeLocks s)
    (counted : Counted s) : Counted after := by
  rw [Counted, count, reads, writes]
  exact counted

theorem did_counted (s after : State Thread) (t : Thread) (rw : PthreadRwlock)
    (held : Holding) (sec : LockSection) (target : Option Thread)
    (phase : Thread → Phase Holding Waiter) (entered : Entered s t rw held)
    (did : Did myRwlock rw held sec)
    (running : ∀ call, s.phase t ≠ .waiting .blocked call)
    (woken : Monitor.Woken (monitor myRwlock).condOf s.phase sec.wake target phase)
    (shared : after.shared = sec.shared)
    (moved : after.phase = Function.update phase t sec.exit.phase)
    (counted : Counted s) : Counted after := by
  obtain ⟨reads, writes, _⟩ := section_entries myRwlock s t running _ _ phase woken
    sec.exit.phase after moved
  obtain ⟨mostReads, mostWrites⟩ := held_le s t
  obtain ⟨owns, refcount, _, _⟩ := entered
  rw [owns] at reads writes mostReads mostWrites
  have count : after.shared.rwRefcount = sec.shared.rwRefcount := by rw [shared]
  cases did with
  | refuse result =>
      simp only [leave, Exit.phase, holding_outside] at reads writes count
      exact counted_kept s after (count.trans refcount) (by omega) (by omega) counted
  | blockReader busy =>
      simp only [Exit.phase, holding_waiting] at reads writes count
      exact counted_kept s after (count.trans refcount) (by omega) (by omega) counted
  | takeRead result free calm =>
      simp only [leave, Exit.phase, holding_outside] at reads writes count
      have unwritten : ¬ s.shared.rwRefcount < 0 := refcount ▸ of_decide_eq_false free
      rcases counted with ⟨same, most, none_⟩ | ⟨minus, _, _⟩
      -- the count was not negative, so there was room for one more
      · have room : readLocks s ≠ 2 ^ 31 := fun top =>
          unwritten (same ▸ (IntCounter.negative_iff _ most).mpr top)
        have more : readLocks after = readLocks s + 1 := by omega
        refine Or.inl ⟨?_, by omega, by omega⟩
        rw [count, refcount, same, more, IntCounter.succ]
      · rw [minus] at unwritten
        exact absurd (by decide) unwritten
  | blockWriter busy =>
      simp only [Exit.phase, holding_waiting] at reads writes count
      exact counted_kept s after (count.trans refcount) (by omega) (by omega) counted
  | takeWrite result free =>
      simp only [leave, Exit.phase, holding_outside] at reads writes count
      rw [refcount] at free
      rcases counted with ⟨same, most, none_⟩ | ⟨minus, _, _⟩
      · have unread := (IntCounter.zero_iff _ most).mp (same.symm.trans free)
        exact Or.inr ⟨count, by omega, by omega⟩
      · rw [minus] at free
        exact absurd free (by decide)
  | releaseRead owner positive =>
      rw [refcount] at positive
      rcases counted with ⟨same, most, none_⟩ | ⟨minus, _, _⟩
      -- nobody writes, so what is released is a read lock
      · have unwritten : held.writes = 0 := by omega
        simp only [unlockAt, Exit.phase, released, unwritten, gt_iff_lt, Nat.lt_irrefl,
          ↓reduceIte, holding_outside] at reads writes count
        have fewer : readLocks after = readLocks s - 1 := by omega
        refine Or.inl ⟨?_, by omega, by omega⟩
        rw [count, refcount, same, fewer, IntCounter.pred _ (by omega)]
      · rw [minus] at positive
        exact absurd positive (by decide)
  | releaseWrite owner alone =>
      rw [refcount] at alone
      rcases counted with ⟨same, most, none_⟩ | ⟨_, one, unread⟩
      · exact absurd (same.symm.trans alone) (IntCounter.ne_minus_one _ most)
      · have written : held.writes = 1 := by omega
        simp only [unlockAt, Exit.phase, released, written, gt_iff_lt, Nat.zero_lt_one,
          ↓reduceIte, holding_outside] at reads writes count
        have nobody : readLocks after = 0 := by omega
        refine Or.inl ⟨?_, by omega, by omega⟩
        rw [count, nobody]
        rfl
  | dump owner unheld unwritten =>
      simp only [Exit.phase, holding_outside] at reads writes count
      exact counted_kept s after (count.trans refcount) (by omega) (by omega) counted

omit [DecidableEq Thread] in
theorem did_silent (s : State Thread) (t : Thread) (rw : PthreadRwlock)
    (held : Holding) (sec : LockSection) (entered : Entered s t rw held)
    (did : Did myRwlock rw held sec) (counted : Counted s) (room : readLocks s < 2 ^ 31) :
    sec.output ≠ .dumps := by
  obtain ⟨mostReads, mostWrites⟩ := held_le s t
  rw [entered.owns] at mostReads mostWrites
  cases did with
  | dump owner unheld unwritten =>
      rw [entered.refcount] at unheld unwritten
      rcases counted with ⟨same, _, none_⟩ | ⟨minus, _, _⟩
      · have positive : 0 < s.shared.rwRefcount := by
          rw [same, IntCounter.positive_iff _ room]
          omega
        exact absurd positive (Int32.not_lt.mpr unheld)
      · exact absurd minus unwritten
  | _ => simp [leave, unlockAt]

theorem shift_entries (s : State Thread) (t : Thread) (w : Waiter)
    (blocked : s.phase t = .waiting .blocked w) (mode : Mode) :
    let after : State Thread := ⟨s.shared, Function.update s.phase t (.waiting mode w)⟩
    readLocks after = readLocks s ∧ writeLocks after = writeLocks s ∧
      ∀ kind, waitingThreads after kind = waitingThreads s kind :=
  ⟨Monitor.shift_total blocked mode (fun p => (holding p).reads) rfl,
    Monitor.shift_total blocked mode (fun p => (holding p).writes) rfl,
    fun kind => Monitor.shift_total blocked mode (fun p => (queued kind p).toNat) rfl⟩

theorem shift_ledger (s : State Thread) (t : Thread) (w : Waiter)
    (blocked : s.phase t = .waiting .blocked w) (mode : Mode) (ledger : Ledger s) :
    Ledger ⟨s.shared, Function.update s.phase t (.waiting mode w)⟩ := by
  have kept := (shift_entries s t w blocked mode).2.2
  exact ⟨ledger.readers.trans (by rw [kept]), ledger.writers.trans (by rw [kept])⟩

theorem shift_counted (s : State Thread) (t : Thread) (w : Waiter)
    (blocked : s.phase t = .waiting .blocked w) (mode : Mode) (counted : Counted s) :
    Counted ⟨s.shared, Function.update s.phase t (.waiting mode w)⟩ := by
  obtain ⟨reads, writes, _⟩ := shift_entries s t w blocked mode
  exact counted_kept s _ rfl reads writes counted

omit [DecidableEq Thread] in
theorem start_entries (s : State Thread) (idle : ∀ t, s.phase t = .outside ⟨0, 0⟩) :
    readLocks s = 0 ∧ writeLocks s = 0 ∧ ∀ kind, waitingThreads s kind = 0 := by
  refine ⟨?_, ?_, fun kind => ?_⟩
  · exact (Threads.total_eq_zero s.phase _).mpr fun t => by rw [idle, holding_outside]
  · exact (Threads.total_eq_zero s.phase _).mpr fun t => by rw [idle, holding_outside]
  · exact (Threads.count_eq_zero s.phase _).mpr fun t => by rw [idle, queued_outside]

theorem start_ledger (v : Variant) (s : State Thread) (first : (machine v).start s) :
    Ledger s := by
  obtain ⟨fresh, idle⟩ := first
  obtain ⟨_, _, waits⟩ := start_entries s idle
  exact ⟨by rw [fresh, waits]; rfl, by rw [fresh, waits]; rfl⟩

theorem start_counted (s : State Thread) (first : (machine myRwlock).start s) : Counted s := by
  obtain ⟨fresh, idle⟩ := first
  obtain ⟨reads, writes, _⟩ := start_entries s idle
  exact Or.inl ⟨by rw [fresh, reads]; rfl, by omega, writes⟩

theorem step_ledger (v : Variant) (e : Step Thread) (stepped : (machine v).Stepped e)
    (ledger : Ledger e.before) : Ledger e.after := by
  obtain ⟨s, action, output, after⟩ := e
  cases Monitor.step_effect (monitor v) s after action output stepped with
  | @enter t held call target sec phase here ran woken =>
      exact did_ledger v s _ t _ held sec target phase (entered_outside s t held here)
        (enter_did v held call s.shared sec ran) (by simp [here]) woken rfl rfl ledger
  | @resume t w result target phase here woken =>
      exact did_ledger v s _ t _ w.held _ target phase (entered_waiting s t _ w here)
        (resume_did v result w s.shared) (by simp [here]) woken rfl rfl ledger
  | @cleanup t w target sec phase here ran woken =>
      exact did_ledger v s _ t _ w.held sec target phase (entered_waiting s t _ w here)
        (cleanup_did v w s.shared sec ran) (by simp [here]) woken rfl rfl ledger
  | spurious here => exact shift_ledger s _ _ here .awakened ledger
  | cancel here _ => exact shift_ledger s _ _ here .cancelled ledger

/-- Every step of my_rwlock keeps the count, and while there is room for one more
reader none runs into the `err_dump` of unlock. -/
theorem step_counted (e : Step Thread) (stepped : (machine myRwlock).Stepped e)
    (counted : Counted e.before) :
    Counted e.after ∧ (readLocks e.before < 2 ^ 31 → e.output ≠ some .dumps) := by
  obtain ⟨s, action, output, after⟩ := e
  cases Monitor.step_effect (monitor myRwlock) s after action output stepped with
  | @enter t held call target sec phase here ran woken =>
      have entered := entered_outside s t held here
      have did := enter_did myRwlock held call s.shared sec ran
      refine ⟨did_counted s _ t _ held sec target phase entered did (by simp [here]) woken
        rfl rfl counted, fun room => ?_⟩
      simpa using did_silent s t _ held sec entered did counted room
  | @resume t w result target phase here woken =>
      have entered := entered_waiting s t _ w here
      have did := resume_did myRwlock result w s.shared
      refine ⟨did_counted s _ t _ w.held _ target phase entered did (by simp [here]) woken
        rfl rfl counted, fun room => ?_⟩
      rw [ne_eq, Option.some.injEq]
      exact did_silent s t _ w.held _ entered did counted room
  | cleanup _ ran _ => simp [monitor, myRwlock] at ran
  | spurious here => exact ⟨shift_counted s _ _ here .awakened counted, by simp⟩
  | cancel here _ => exact ⟨shift_counted s _ _ here .cancelled counted, by simp⟩

theorem run_ledger (v : Variant) (trace : List (Step Thread)) (s : State Thread)
    (run : (machine v).Run trace s) : Ledger s :=
  run.invariant (start_ledger v) fun e stepped ledger => step_ledger v e stepped ledger

theorem run_counted (trace : List (Step Thread)) (s : State Thread)
    (run : (machine myRwlock).Run trace s) : Counted s :=
  run.invariant start_counted fun e stepped counted => (step_counted e stepped counted).1

omit [DecidableEq Thread] in
theorem single_write_locks (s : State Thread) (most : writeLocks s ≤ 1) :
    writingThreads s = writeLocks s :=
  Threads.count_eq_total s.phase (fun p => (holding p).writes)
    fun t => (held_le s t).2.trans most

omit [DecidableEq Thread] in
theorem single_read_locks (s : State Thread) (once : ∀ t, (holding (s.phase t)).reads ≤ 1) :
    readingThreads s = readLocks s :=
  Threads.count_eq_total s.phase (fun p => (holding p).reads) once

omit [DecidableEq Thread] in
theorem no_read_locks (s : State Thread) (none_held : readLocks s = 0) :
    readingThreads s = 0 := by
  rw [single_read_locks s fun t => ?_, none_held]
  have least := (held_le s t).1
  omega

/-- `rw_refcount` is -1 under the one writer and otherwise the number of read
locks held, whichever `held` counts them. -/
def Excludes (s : State Thread) (held : Nat) : Prop :=
  (s.shared.rwRefcount.toInt = held ∧ writingThreads s = 0) ∨
    (s.shared.rwRefcount = -1 ∧ writingThreads s = 1 ∧ readingThreads s = 0)

omit [DecidableEq Thread] in
theorem counted_excludes (s : State Thread) (counted : Counted s) (room : readLocks s < 2 ^ 31) :
    Excludes s (readLocks s) := by
  rcases counted with ⟨count, _, unwritten⟩ | ⟨count, written, unread⟩
  · exact Or.inl ⟨by rw [count, IntCounter.value _ room],
      by rw [single_write_locks s (by omega), unwritten]⟩
  · exact Or.inr ⟨count, by rw [single_write_locks s (by omega), written],
      no_read_locks s unread⟩

/-- A reader that locks twice counts twice; where nobody does, the count is the
number of threads that hold a read lock. An `int` has room for 2 ^ 31 - 1 read
locks. -/
theorem my_rwlock_excludes (trace : List (Step Thread)) (s : State Thread)
    (run : (machine myRwlock).Run trace s) :
    (readLocks s < 2 ^ 31 → Excludes s (readLocks s) ∧
      ((∀ t, (holding (s.phase t)).reads ≤ 1) → Excludes s (readingThreads s))) ∧
    s.shared.rwNwaitreaders = waitingThreads s .reader ∧
    s.shared.rwNwaitwriters = waitingThreads s .writer ∧
    ∀ e ∈ trace, readLocks e.before < 2 ^ 31 → e.output ≠ some .dumps := by
  have ledger := run_ledger myRwlock trace s run
  refine ⟨fun room => ?_, ledger.readers, ledger.writers, ?_⟩
  · have excludes := counted_excludes s (run_counted trace s run) room
    refine ⟨excludes, fun once => ?_⟩
    rwa [single_read_locks s once]
  · exact run.each fun earlier e before stepped =>
      (step_counted e stepped (run_counted earlier _ before)).2

def unlocked : State (Fin 3) := ⟨pthreadRwlockInit, fun _ => .outside ⟨0, 0⟩⟩

theorem reader_and_writer_exclude :
    ∃ (trace : List (Step (Fin 3))) (last : State (Fin 3)), (machine myRwlock).Run trace last ∧
      trace.length = 7 ∧ Excludes last (readLocks last) := by
  obtain ⟨trace, last, run, checked⟩ := Machine.run_of_check
    (M := machine myRwlock) (s := unlocked) ⟨rfl, fun _ => rfl⟩
    [.enter 0 .rdlock none, .enter 1 .wrlock none, .spurious 1, .resume 1 (some (.other 4)) none,
      .enter 1 .wrlock none, .enter 0 .unlock (some 1), .resume 1 none none]
    (fun r => decide (r.1.length = 7 ∧ readLocks r.2 = 0)) (by decide +kernel)
  have ended : trace.length = 7 ∧ readLocks last = 0 := of_decide_eq_true checked
  exact ⟨trace, last, run, ended.1, ((my_rwlock_excludes trace last run).1 (by omega)).1⟩

theorem second_rdlock_counted :
    ∃ (trace : List (Step (Fin 3))) (last : State (Fin 3)), (machine myRwlock).Run trace last ∧
      ¬ Excludes last (readingThreads last) := by
  obtain ⟨trace, last, run, checked⟩ := Machine.run_of_check
    (M := machine myRwlock) (s := unlocked) ⟨rfl, fun _ => rfl⟩
    [.enter 0 .rdlock none, .enter 0 .rdlock none]
    (fun r => decide (r.2.shared.rwRefcount.toInt = 2 ∧ readingThreads r.2 = 1))
    (by decide +kernel)
  have counted : last.shared.rwRefcount.toInt = 2 ∧ readingThreads last = 1 :=
    of_decide_eq_true checked
  refine ⟨trace, last, run, ?_⟩
  simp only [Excludes, counted]
  omega

end NetworkProgramming.RwLock
