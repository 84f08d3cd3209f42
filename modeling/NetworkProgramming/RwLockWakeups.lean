import NetworkProgramming.RwLockExclusion

/-!
Stranded waiters of the read-write locks. A writer that stays blocked while the
lock is free has an awakened writer ahead of it, and a reader stays blocked only
behind a writer; unlock restores both. The cancellation handler of a writer
breaks the second when it takes the last waiting writer away.
-/

namespace NetworkProgramming.RwLock

variable {Thread : Type*} [Fintype Thread] [DecidableEq Thread]

/-- No awakened or cancelled thread is still waiting for `rw_mutex`. -/
def Quiescent (s : State Thread) : Prop :=
  ∀ t w, s.phase t ≠ .waiting .awakened w ∧ s.phase t ≠ .waiting .cancelled w

def restless : Phase Holding Waiter → Bool
  | .waiting .awakened _ => true
  | .waiting .cancelled _ => true
  | _ => false

omit [DecidableEq Thread] in
theorem rest_quiescent (s : State Thread) (rest : Threads.count s.phase restless = 0) :
    Quiescent s := by
  intro t w
  have still := (Threads.count_eq_zero s.phase restless).mp rest t
  constructor
  · intro here
    simp [here, restless] at still
  · intro here
    simp [here, restless] at still

structure Served (s : State Thread) : Prop where
  writers : ∀ t held, s.phase t = .waiting .blocked ⟨.writer, held⟩ → s.shared.rwRefcount ≠ 0
  readers : ∀ t held, s.phase t = .waiting .blocked ⟨.reader, held⟩ →
    s.shared.rwRefcount < 0 ∨ 0 < s.shared.rwNwaitwriters

/-- The invariant behind `Served`, of every state between two sections. -/
structure Attended (s : State Thread) : Prop where
  writers : s.shared.rwRefcount = 0 → ∀ t held, s.phase t = .waiting .blocked ⟨.writer, held⟩ →
    ∃ u w, s.phase u = .waiting .awakened w ∧ w.kind = .writer
  readers : ∀ t held, s.phase t = .waiting .blocked ⟨.reader, held⟩ →
    s.shared.rwRefcount < 0 ∨ 0 < s.shared.rwNwaitwriters

def waitFails : Monitor.Action Thread Call (Option Errno) → Bool
  | .resume _ result _ => result.isSome
  | _ => false

def WaitSucceeds (e : Step Thread) : Prop := waitFails e.action = false

/-- The step is no cancellation of the last waiting writer that leaves blocked
readers behind a lock they could share. -/
def Heeded (e : Step Thread) : Prop :=
  ∀ t target held, e.action = .cleanup t target →
    e.before.phase t = .waiting .cancelled ⟨.writer, held⟩ →
    e.before.shared.rwNwaitwriters = 1 → 0 ≤ e.before.shared.rwRefcount →
    ∀ u w, e.before.phase u = .waiting .blocked w → w.kind ≠ .reader

omit [Fintype Thread] [DecidableEq Thread] in
theorem attended_served (s : State Thread) (attended : Attended s) (quiet : Quiescent s) :
    Served s := by
  refine ⟨?_, attended.readers⟩
  intro t held blocked free
  obtain ⟨u, w, awake, _⟩ := attended.writers free t held blocked
  exact (quiet u w).1 awake

omit [DecidableEq Thread] in
theorem queued_counted (s : State Thread) (ledger : Ledger s) (t : Thread) (mode : Mode)
    (held : Holding) (here : s.phase t = .waiting mode ⟨.writer, held⟩) :
    0 < s.shared.rwNwaitwriters := by
  have counted : 0 < waitingThreads s .writer :=
    (Threads.count_pos s.phase _).mpr ⟨t, by simp [here]⟩
  have same := ledger.writers
  omega

theorem unlock_attended (v : Variant) (s after : State Thread) (t : Thread)
    (held : Holding) (rw : PthreadRwlock) (target : Option Thread)
    (phase : Thread → Phase Holding Waiter)
    (here : ∀ mode w, s.phase t ≠ .waiting mode w)
    (waiters : rw.rwNwaitreaders = s.shared.rwNwaitreaders ∧
      rw.rwNwaitwriters = s.shared.rwNwaitwriters)
    (woken : Monitor.Woken (monitor v).condOf s.phase (unlockAt v held rw).wake target phase)
    (shared : after.shared = rw)
    (moved : after.phase = Function.update phase t (.outside (released held)))
    (ledger : Ledger s) : Attended after := by
  have earlier (u : Thread) (w : Waiter) (blocked : after.phase u = .waiting .blocked w) :
      s.phase u = .waiting .blocked w := by
    rw [moved] at blocked
    exact (Monitor.section_blocked woken t _ u w blocked).resolve_left (by simp)
  constructor
  · intro free u heldBy blocked
    have before := earlier u _ blocked
    have waiting := queued_counted s ledger u .blocked heldBy before
    rw [shared] at free
    -- a blocked writer is counted, so the signal goes to the writers
    have signals : (unlockAt v held rw).wake = .signal .writer := by
      simp only [unlockAt, unlockWake, waiters.2, gt_iff_lt, waiting, free, v.signals_free,
        ↓reduceIte]
    rw [signals] at woken
    rw [moved]
    exact Monitor.signal_awakens woken t (here .blocked) _ u _ before rfl
  · intro u heldBy blocked
    have before := earlier u _ blocked
    rw [shared]
    by_cases waiting : 0 < rw.rwNwaitwriters
    · exact Or.inr waiting
    -- no writer waits, so the broadcast leaves no reader blocked
    · have readers : 0 < rw.rwNwaitreaders := by
        have counted : 0 < waitingThreads s .reader :=
          (Threads.count_pos s.phase _).mpr ⟨u, by simp [before]⟩
        have same := ledger.readers
        omega
      have broadcasts : (unlockAt v held rw).wake = .broadcast .reader := by
        simp only [unlockAt, unlockWake, gt_iff_lt, waiting, readers, ↓reduceIte]
      rw [broadcasts] at woken
      have other : u ≠ t := by
        rintro rfl
        exact here _ _ before
      rw [moved, Function.update_of_ne other] at blocked
      exact absurd rfl (Monitor.broadcast_unblocks woken u _ blocked)

omit [Fintype Thread] in
/-- A section that wakes nobody keeps whoever was awakened, so it has to account
only for its own thread and for the counters it changes. -/
theorem quiet_attended (s after : State Thread) (t : Thread) (p : Phase Holding Waiter)
    (moved : after.phase = Function.update s.phase t p)
    (free : after.shared.rwRefcount = 0 → s.shared.rwRefcount = 0 ∧
      (∀ w, s.phase t = .waiting .awakened w → w.kind ≠ .writer) ∧
      ∀ held, p ≠ .waiting .blocked ⟨.writer, held⟩)
    (arrives : ∀ held, p = .waiting .blocked ⟨.reader, held⟩ →
      after.shared.rwRefcount < 0 ∨ 0 < after.shared.rwNwaitwriters)
    (stays : ∀ u held, s.phase u = .waiting .blocked ⟨.reader, held⟩ →
      s.shared.rwRefcount < 0 ∨ 0 < s.shared.rwNwaitwriters →
      after.shared.rwRefcount < 0 ∨ 0 < after.shared.rwNwaitwriters)
    (attended : Attended s) : Attended after := by
  have silent : Monitor.Woken Waiter.kind s.phase .quiet none s.phase := .quiet
  constructor
  · intro unheld u held blocked
    obtain ⟨before, other, left⟩ := free unheld
    rw [moved] at blocked ⊢
    have earlier := (Monitor.section_blocked silent t p u _ blocked).resolve_left (left held)
    obtain ⟨x, w, awake, writer⟩ := attended.writers before u held earlier
    -- the awakened writer is not the running thread, so it is still awakened
    have apart : x ≠ t := by
      rintro rfl
      exact other w awake writer
    exact ⟨x, w, by rw [Function.update_of_ne apart, awake], writer⟩
  · intro u held blocked
    rw [moved] at blocked
    rcases Monitor.section_blocked silent t p u _ blocked with here | earlier
    · exact arrives held here
    · exact stays u held earlier (attended.readers u held earlier)

theorem read_lock_count (n : Int32) (unwritten : n ≠ -1) :
    n + 1 ≠ 0 ∧ (n < 0 → n + 1 < 0) := by
  have least := n.le_toInt
  have most := n.toInt_lt
  have other : n.toInt ≠ -1 := fun minus => unwritten (Int32.toInt_inj.mp minus)
  have sum : (n + 1).toInt = (n.toInt + 1).bmod (2 ^ 32) := by
    rw [Int32.toInt_add, Int32.toInt_one]
  constructor
  · intro zero
    rw [zero, Int32.toInt_zero] at sum
    by_cases top : n.toInt = 2 ^ 31 - 1
    · rw [top] at sum
      exact absurd sum (by decide)
    · rw [Int.bmod_eq_of_le (by omega) (by omega)] at sum
      omega
  · rw [Int32.lt_iff_toInt_lt, Int32.lt_iff_toInt_lt, Int32.toInt_zero]
    intro negative
    rw [sum, Int.bmod_eq_of_le (by omega) (by omega)]
    omega

omit [Fintype Thread] in
theorem take_read_attended (s after : State Thread) (t : Thread) (held : Holding)
    (moved : after.phase = Function.update s.phase t (.outside held))
    (unwritten : s.shared.rwRefcount ≠ -1)
    (count : after.shared.rwRefcount = s.shared.rwRefcount + 1)
    (writers : after.shared.rwNwaitwriters = s.shared.rwNwaitwriters)
    (attended : Attended s) : Attended after := by
  obtain ⟨held_, negative⟩ := read_lock_count s.shared.rwRefcount unwritten
  refine quiet_attended s after t _ moved ?_ (fun _ here => by cases here) ?_ attended
  · rw [count]
    exact fun free => absurd free held_
  · rw [count, writers]
    intro _ _ _ busy
    exact busy.imp_left negative

theorem enter_attended (v : Variant) (s after : State Thread) (t : Thread) (held : Holding)
    (sec : LockSection) (target : Option Thread) (phase : Thread → Phase Holding Waiter)
    (here : s.phase t = .outside held) (did : Did v s.shared held sec)
    (woken : Monitor.Woken (monitor v).condOf s.phase sec.wake target phase)
    (shared : after.shared = sec.shared)
    (moved : after.phase = Function.update phase t sec.exit.phase)
    (ledger : Ledger s) (attended : Attended s) : Attended after := by
  have idle : ∀ mode w, s.phase t ≠ .waiting mode w := by simp [here]
  cases did with
  | refuse result =>
      cases woken
      refine quiet_attended s after t _ moved ?_ (fun _ here => by cases here) ?_ attended
      · intro free
        exact ⟨by rwa [shared] at free, fun w awake => absurd awake (idle _ w), fun _ here => by
          cases here⟩
      · exact fun _ _ _ busy => by rw [shared]; exact busy
  | blockReader busy =>
      cases woken
      refine quiet_attended s after t _ moved ?_ ?_ ?_ attended
      · intro free
        exact ⟨by rwa [shared] at free, fun w awake => absurd awake (idle _ w), fun _ here => by
          cases here⟩
      · exact fun _ _ => by rw [shared]; exact busy
      · exact fun _ _ _ _ => by rw [shared]; exact busy
  | takeRead result free calm =>
      cases woken
      -- a writer would have kept the reader out
      have unwritten : s.shared.rwRefcount ≠ -1 := by
        intro minus
        rw [minus, v.sees_writer] at free
        cases free
      exact take_read_attended s after t _ moved unwritten (by rw [shared]; rfl)
        (by rw [shared]; rfl) attended
  | blockWriter busy =>
      cases woken
      refine quiet_attended s after t _ moved ?_ (fun _ here => by cases here) ?_ attended
      · rw [shared]
        exact fun free => absurd free busy
      · rw [shared]
        exact fun _ _ _ busy => busy.imp_right fun waits => by simp only; omega
  | takeWrite result free =>
      cases woken
      refine quiet_attended s after t _ moved ?_ (fun _ here => by cases here) ?_ attended
      · rw [shared]
        intro free
        have minus : (-1 : Int32) = 0 := free
        exact absurd minus (by decide)
      · rw [shared]
        exact fun _ _ _ _ => Or.inl (by decide : (-1 : Int32) < 0)
  | releaseRead owner positive =>
      -- the only sections that wake anybody
      exact unlock_attended v s after t held
        { s.shared with rwRefcount := s.shared.rwRefcount - 1 } target phase idle ⟨rfl, rfl⟩
        woken shared moved ledger
  | releaseWrite owner alone =>
      exact unlock_attended v s after t held { s.shared with rwRefcount := 0 } target phase idle
        ⟨rfl, rfl⟩ woken shared moved ledger
  | dump owner unheld unwritten =>
      cases woken
      refine quiet_attended s after t _ moved ?_ (fun _ here => by cases here) ?_ attended
      · intro free
        exact ⟨by rwa [shared] at free, fun w awake => absurd awake (idle _ w), fun _ here => by
          cases here⟩
      · exact fun _ _ _ busy => by rw [shared]; exact busy

omit [Fintype Thread] in
theorem resume_reader_attended (v : Variant) (s after : State Thread) (t : Thread)
    (held : Holding) (here : s.phase t = .waiting .awakened ⟨.reader, held⟩)
    (shared : after.shared = (resume v none ⟨.reader, held⟩ s.shared).shared)
    (moved : after.phase =
      Function.update s.phase t (resume v none ⟨.reader, held⟩ s.shared).exit.phase)
    (attended : Attended s) : Attended after := by
  have reader : ∀ w, s.phase t = .waiting .awakened w → w.kind ≠ .writer := by
    simp only [here, Phase.waiting.injEq, true_and]
    rintro w rfl
    simp
  simp only [resume] at shared moved
  by_cases busy : s.shared.rwRefcount < 0 ∨ s.shared.rwNwaitwriters > 0
  · rw [rdlock_loop_busy v held (leaveQueue .reader s.shared) busy] at shared moved
    exact quiet_attended s after t _ moved
      (fun free => ⟨by rwa [shared] at free, reader, fun _ here => by cases here⟩)
      (fun _ _ => by rw [shared]; exact busy) (fun _ _ _ _ => by rw [shared]; exact busy)
      attended
  · rw [rdlock_loop_free v held (leaveQueue .reader s.shared) busy] at shared moved
    have unwritten : s.shared.rwRefcount ≠ -1 := fun minus =>
      (not_or.mp busy).1 (by rw [minus]; decide)
    exact take_read_attended s after t _ moved unwritten (by rw [shared]; rfl)
      (by rw [shared]; rfl) attended

omit [Fintype Thread] in
theorem resume_writer_attended (v : Variant) (s after : State Thread) (t : Thread)
    (held : Holding) (shared : after.shared = (resume v none ⟨.writer, held⟩ s.shared).shared)
    (moved : after.phase =
      Function.update s.phase t (resume v none ⟨.writer, held⟩ s.shared).exit.phase)
    (attended : Attended s) : Attended after := by
  simp only [resume] at shared moved
  by_cases busy : s.shared.rwRefcount ≠ 0
  · rw [wrlock_loop_busy v held (leaveQueue .writer s.shared) busy] at shared moved
    refine quiet_attended s after t _ moved ?_ (fun _ here => by cases here) ?_ attended
    · rw [shared]
      exact fun free => absurd free busy
    · rw [shared]
      exact fun _ _ _ busy => busy.imp_right fun waits => by simp only [leaveQueue]; omega
  · rw [wrlock_loop_free v held (leaveQueue .writer s.shared) busy] at shared moved
    refine quiet_attended s after t _ moved ?_ (fun _ here => by cases here) ?_ attended
    · rw [shared]
      intro free
      have minus : (-1 : Int32) = 0 := free
      exact absurd minus (by decide)
    · rw [shared]
      exact fun _ _ _ _ => Or.inl (by decide : (-1 : Int32) < 0)

omit [Fintype Thread] in
theorem cleanup_attended (s after : State Thread) (t : Thread) (w : Waiter)
    (here : s.phase t = .waiting .cancelled w)
    (shared : after.shared = leaveQueue w.kind s.shared)
    (moved : after.phase = Function.update s.phase t (.outside w.held))
    (heeded : w.kind = .writer → s.shared.rwNwaitwriters = 1 → 0 ≤ s.shared.rwRefcount →
      ∀ u x, s.phase u = .waiting .blocked x → x.kind ≠ .reader)
    (attended : Attended s) : Attended after := by
  obtain ⟨kind, held⟩ := w
  have cancelled : ∀ x, s.phase t = .waiting .awakened x → x.kind ≠ .writer := by simp [here]
  cases kind with
  | reader =>
      exact quiet_attended s after t _ moved
        (fun free => ⟨by rwa [shared] at free, cancelled, by simp⟩) (by simp)
        (fun _ _ _ busy => by rw [shared]; exact busy) attended
  | writer =>
      refine quiet_attended s after t _ moved
        (fun free => ⟨by rwa [shared] at free, cancelled, by simp⟩) (by simp) ?_ attended
      intro u reading blocked busy
      rw [shared]
      simp only [leaveQueue]
      by_contra stranded
      obtain ⟨free, calm⟩ := not_or.mp stranded
      have waits := busy.resolve_left free
      exact heeded rfl (by omega) (Int32.not_lt.mp free) u _ blocked rfl

omit [Fintype Thread] in
theorem shift_attended (s : State Thread) (t : Thread) (w : Waiter) (mode : Mode)
    (left : mode ≠ .blocked) (blocked : s.phase t = .waiting .blocked w)
    (attended : Attended s) :
    Attended ⟨s.shared, Function.update s.phase t (.waiting mode w)⟩ :=
  quiet_attended s _ t _ rfl (fun free => ⟨free, by simp [blocked], by simp [left]⟩)
    (by simp [left]) (fun _ _ _ busy => busy) attended

theorem resume_quiet (v : Variant) (w : Waiter) (rw : PthreadRwlock) :
    (resume v none w rw).wake = .quiet := by
  obtain ⟨kind, held⟩ := w
  cases kind with
  | reader =>
      simp only [resume, rdlockLoop]
      split <;> rfl
  | writer =>
      simp only [resume, wrlockLoop]
      split <;> rfl

theorem step_attended (v : Variant) (e : Step Thread) (stepped : (machine v).Stepped e)
    (waits : WaitSucceeds e) (heeded : Heeded e) (ledger : Ledger e.before)
    (attended : Attended e.before) : Attended e.after := by
  obtain ⟨s, action, output, after⟩ := e
  cases Monitor.step_effect (monitor v) s after action output stepped with
  | @enter t held call target sec phase here ran woken =>
      exact enter_attended v s _ t held sec target phase here
        (enter_did v held call s.shared sec ran) woken rfl rfl ledger attended
  | @resume t w result target phase here woken =>
      cases result with
      | some n => simp [WaitSucceeds, waitFails] at waits
      | none =>
          have quiet : ((monitor v).resume none w s.shared).wake = .quiet :=
            resume_quiet v w s.shared
          rw [quiet] at woken
          cases woken
          obtain ⟨kind, held⟩ := w
          cases kind with
          | reader => exact resume_reader_attended v s _ t held here rfl rfl attended
          | writer => exact resume_writer_attended v s _ t held rfl rfl attended
  | @cleanup t w target sec phase here ran woken =>
      simp only [monitor, Option.ite_none_right_eq_some, Option.some.injEq] at ran
      obtain ⟨_, rfl⟩ := ran
      cases woken
      refine cleanup_attended s _ t w here rfl rfl ?_ attended
      obtain ⟨kind, held⟩ := w
      rintro rfl
      exact heeded t none held rfl here
  | spurious here => exact shift_attended s _ _ .awakened (by simp) here attended
  | cancel here _ => exact shift_attended s _ _ .cancelled (by simp) here attended

theorem start_attended (v : Variant) (s : State Thread) (first : (machine v).start s) :
    Attended s := by
  have idle : ∀ t mode w, s.phase t ≠ .waiting mode w := by simp [first.2]
  exact ⟨fun _ t _ blocked => absurd blocked (idle t _ _), fun t _ blocked =>
    absurd blocked (idle t _ _)⟩

theorem run_served (v : Variant) (trace : List (Step Thread)) (s : State Thread)
    (run : (machine v).Run trace s) (met : ∀ e ∈ trace, WaitSucceeds e ∧ Heeded e)
    (quiet : Quiescent s) : Served s := by
  have kept : Ledger s ∧ Attended s :=
    run.preserves (C := fun e => WaitSucceeds e ∧ Heeded e) (I := fun s => Ledger s ∧ Attended s)
      (fun s first => ⟨start_ledger v s first, start_attended v s first⟩)
      (fun e stepped ok held => ⟨step_ledger v e stepped held.1,
        step_attended v e stepped ok.1 ok.2 held.1 held.2⟩) met
  exact attended_served s kept.2 quiet

theorem my_rwlock_served (trace : List (Step Thread)) (s : State Thread)
    (run : (machine myRwlock).Run trace s) (waits : ∀ e ∈ trace, WaitSucceeds e)
    (quiet : Quiescent s) : Served s := by
  have heeded : ∀ e ∈ trace, Heeded e := run.each fun _ e _ stepped t target held cleans => by
    obtain ⟨s, action, output, after⟩ := e
    subst cleans
    cases Monitor.step_effect (monitor myRwlock) s after _ output stepped with
    | cleanup _ ran _ => simp [monitor, myRwlock] at ran
  exact run_served myRwlock trace s run (fun e member => ⟨waits e member, heeded e member⟩) quiet

theorem waiting_writer_served :
    ∃ (trace : List (Step (Fin 3))) (last : State (Fin 3)), (machine myRwlock).Run trace last ∧
      trace.length = 3 ∧ Quiescent last ∧ Served last := by
  obtain ⟨trace, last, run, checked⟩ := Machine.run_of_check
    (M := machine myRwlock) (s := unlocked) ⟨rfl, fun _ => rfl⟩
    [.enter 0 .rdlock none, .enter 1 .wrlock none, .enter 2 .rdlock none]
    (fun r => decide (r.1.length = 3 ∧ (∀ e ∈ r.1, waitFails e.action = false) ∧
      Threads.count r.2.phase restless = 0)) (by decide +kernel)
  obtain ⟨steps, waits, rest⟩ := of_decide_eq_true checked
  have quiet := rest_quiescent last rest
  exact ⟨trace, last, run, steps, quiet, my_rwlock_served trace last run waits quiet⟩

/-! A cancelled writer that is not heeded strands the readers behind it: the
threads that still have to run are readers, and none of them wakes another. -/

/-- No writer waits and the lock can be shared, with a reader blocked, and the
count has room for everybody who is on the way to the lock. -/
structure Stranding (s : State Thread) : Prop where
  calm : s.shared.rwNwaitwriters = 0
  free : 0 ≤ s.shared.rwRefcount
  blocked : ∃ t held, s.phase t = .waiting .blocked ⟨.reader, held⟩
  room : s.shared.rwRefcount.toInt + Threads.count s.phase restless < 2 ^ 31

omit [DecidableEq Thread] in
theorem stranding_unserved (s : State Thread) (stranding : Stranding s) : ¬ Served s := by
  intro served
  obtain ⟨calm, free, ⟨t, held, blocked⟩, _⟩ := stranding
  rcases served.readers t held blocked with negative | waits
  · exact Int32.not_lt.mpr free negative
  · omega

theorem stranding_moves (s : State Thread) (ledger : Ledger s) (stranding : Stranding s)
    (u : Thread) (busy : restless (s.phase u) = true) :
    ∃ e : Step Thread, e.before = s ∧ (machine myRwlockCancel).Stepped e ∧ WaitSucceeds e ∧
      0 ≤ e.after.shared.rwRefcount ∧ e.after.shared.rwNwaitwriters = 0 ∧
      e.after.shared.rwRefcount.toInt ≤ s.shared.rwRefcount.toInt + 1 ∧
      ∃ held, e.after.phase = Function.update s.phase u (.outside held) := by
  obtain ⟨calm, free, _, room⟩ := stranding
  cases here : s.phase u with
  | outside held => simp [here, restless] at busy
  | waiting mode w =>
      obtain ⟨kind, held⟩ := w
      cases kind with
      -- a writer would still be counted
      | writer =>
          have counted := queued_counted s ledger u mode held here
          omega
      | reader =>
          cases mode with
          | blocked => simp [here, restless] at busy
          | awakened =>
              have unheld : ¬ (s.shared.rwRefcount < 0 ∨ s.shared.rwNwaitwriters > 0) :=
                not_or.mpr ⟨Int32.not_lt.mpr free, by omega⟩
              have taken := rdlock_loop_free myRwlockCancel held (leaveQueue .reader s.shared)
                unheld
              have some_busy := (Threads.count_pos s.phase restless).mpr ⟨u, busy⟩
              have least : 0 ≤ s.shared.rwRefcount.toInt := Int32.le_iff_toInt_le.mp free
              have sum : (s.shared.rwRefcount + 1).toInt = s.shared.rwRefcount.toInt + 1 := by
                rw [Int32.toInt_add, Int32.toInt_one, Int.bmod_eq_of_le (by omega) (by omega)]
              have positive : 0 ≤ s.shared.rwRefcount + 1 := by
                rw [Int32.le_iff_toInt_le, sum, Int32.toInt_zero]
                omega
              let reading : Holding := { held with reads := held.reads + 1 }
              refine ⟨⟨s, .resume u none none, some (.returns none),
                ⟨{ leaveQueue .reader s.shared with rwRefcount := s.shared.rwRefcount + 1 },
                  Function.update s.phase u (.outside reading)⟩⟩, rfl, ?_, rfl, positive, calm,
                sum.le, reading, rfl⟩
              simp only [Machine.Stepped, machine, Monitor.machine, Monitor.step,
                Monitor.sectionOf, here, monitor, resume, taken]
              rfl
          | cancelled =>
              refine ⟨⟨s, .cleanup u none, some (.returns none), ⟨leaveQueue .reader s.shared,
                Function.update s.phase u (.outside held)⟩⟩, rfl, ?_, rfl, free, calm,
                Int.le_add_one (le_refl _), held, rfl⟩
              simp only [Machine.Stepped, machine, Monitor.machine, Monitor.step,
                Monitor.sectionOf, here, monitor]
              rfl

theorem stranding_strands (trace : List (Step Thread)) (s : State Thread)
    (run : (machine myRwlockCancel).Run trace s) (stranding : Stranding s) :
    ∃ more last, (machine myRwlockCancel).Run (trace ++ more) last ∧
      (∀ e ∈ more, WaitSucceeds e) ∧ Quiescent last ∧ ¬ Served last := by
  have lowers : ∀ trace s, (machine myRwlockCancel).Run trace s → Stranding s →
      Threads.count s.phase restless ≠ 0 → ∃ e : Step Thread, e.before = s ∧
        (machine myRwlockCancel).Stepped e ∧ WaitSucceeds e ∧ Stranding e.after ∧
        Threads.count e.after.phase restless < Threads.count s.phase restless := by
    intro trace s run stranding some_busy
    obtain ⟨u, busy⟩ := (Threads.count_pos s.phase restless).mp (Nat.pos_of_ne_zero some_busy)
    obtain ⟨e, same, stepped, waits, free, calm, more, held, moved⟩ :=
      stranding_moves s (run_ledger myRwlockCancel trace s run) stranding u busy
    have fewer := Threads.count_update s.phase u (.outside held) restless
    rw [busy, ← moved] at fewer
    simp only [Bool.toNat_true, restless, Bool.toNat_false] at fewer
    have room := stranding.room
    refine ⟨e, same, stepped, waits, ⟨calm, free, ?_, by omega⟩, by omega⟩
    obtain ⟨t, owned, blocked⟩ := stranding.blocked
    have other : t ≠ u := by
      rintro rfl
      simp [blocked, restless] at busy
    exact ⟨t, owned, by rw [moved, Function.update_of_ne other, blocked]⟩
  obtain ⟨more, last, longer, waits, still, rest⟩ := run.drain
    (fun s => Threads.count s.phase restless) lowers stranding
  exact ⟨more, last, longer, waits, rest_quiescent last rest, stranding_unserved last still⟩

def Roomy (s : State Thread) : Prop :=
  s.shared.rwRefcount.toInt + Fintype.card Thread < 2 ^ 31

theorem unheeded_stranding (e : Step Thread) (stepped : (machine myRwlockCancel).Stepped e)
    (unheeded : ¬ Heeded e) (roomy : Roomy e.before) : Stranding e.after := by
  obtain ⟨s, action, output, after⟩ := e
  simp only [Heeded, not_forall, not_not] at unheeded
  obtain ⟨t, target, held, rfl, here, last, free, u, w, blocked, reader⟩ := unheeded
  cases Monitor.step_effect (monitor myRwlockCancel) s after _ output stepped with
  | @cleanup _ x _ sec phase there ran woken =>
      rw [here] at there
      cases there
      simp only [monitor, Option.ite_none_right_eq_some, Option.some.injEq] at ran
      obtain ⟨_, rfl⟩ := ran
      cases woken
      have other : u ≠ t := by
        rintro rfl
        rw [here] at blocked
        cases blocked
      obtain ⟨kind, owned⟩ := w
      simp only at reader
      subst kind
      refine ⟨?_, free, ⟨u, owned, (Function.update_of_ne other _ _).trans blocked⟩, ?_⟩
      · simp only [rwlockCancelwait, leave, leaveQueue]
        omega
      · have few := Threads.count_le_card (Function.update s.phase t (.outside held)) restless
        simp only [Roomy] at roomy
        simp only [rwlockCancelwait, leave, leaveQueue, Exit.phase]
        omega

/-- Every run whose cancellations are heeded leaves nobody blocked without a
reason. The condition is exact: a step that misses it leads to a reader stranded
behind no writer, unless the awakened readers before it make the count go round. -/
theorem my_rwlock_cancel_served_while_heeded :
    (∀ (trace : List (Step Thread)) (s : State Thread),
      (machine myRwlockCancel).Run trace s → (∀ e ∈ trace, WaitSucceeds e ∧ Heeded e) →
      Quiescent s → Served s) ∧
    (∀ (trace : List (Step Thread)) (e : Step Thread),
      (machine myRwlockCancel).Run trace e.before → (machine myRwlockCancel).Stepped e →
      ¬ Heeded e → Roomy e.before → ∃ more last, (machine myRwlockCancel).Run (trace ++ e :: more) last ∧
        (∀ d ∈ more, WaitSucceeds d) ∧ Quiescent last ∧ ¬ Served last) := by
  refine ⟨run_served myRwlockCancel, ?_⟩
  intro trace e run stepped unheeded roomy
  obtain ⟨more, last, longer, rest⟩ := stranding_strands (trace ++ [e]) e.after
    (run.next e stepped) (unheeded_stranding e stepped unheeded roomy)
  exact ⟨more, last, by simpa using longer, rest⟩

def unlockedByAll : State (Fin 4) := ⟨pthreadRwlockInit, fun _ => .outside ⟨0, 0⟩⟩

theorem cancelled_writer_served :
    ∃ (trace : List (Step (Fin 4))) (last : State (Fin 4)),
      (machine myRwlockCancel).Run trace last ∧ trace.length = 6 ∧ Served last := by
  obtain ⟨trace, last, run, checked⟩ := Machine.run_of_check
    (M := machine myRwlockCancel) (s := unlockedByAll) ⟨rfl, fun _ => rfl⟩
    [.enter 0 .rdlock none, .enter 1 .wrlock none, .enter 2 .wrlock none, .enter 3 .rdlock none,
      .cancel 1, .cleanup 1 none]
    (fun r => decide (r.1.length = 6 ∧ Threads.count r.2.phase restless = 0 ∧ ∀ e ∈ r.1,
      waitFails e.action = false ∧
      (e.action = .cleanup 1 none ∧ e.before.shared.rwNwaitwriters = 2 ∨
        ∀ t ∈ Finset.univ, ∀ target ∈ Finset.univ, e.action ≠ .cleanup t target)))
    (by decide +kernel)
  obtain ⟨steps, rest, met⟩ := of_decide_eq_true checked
  refine ⟨trace, last, run, steps, my_rwlock_cancel_served_while_heeded.1 trace last run ?_
    (rest_quiescent last rest)⟩
  intro e member
  refine ⟨(met e member).1, ?_⟩
  intro t target held cleans _ alone
  rcases (met e member).2 with ⟨_, two⟩ | never
  · omega
  · exact absurd cleans (never t (Finset.mem_univ t) target (Finset.mem_univ target))

theorem cancelled_writer_strands_reader :
    ∃ (trace : List (Step (Fin 4))) (last : State (Fin 4)),
      (machine myRwlockCancel).Run trace last ∧ (∀ e ∈ trace, WaitSucceeds e) ∧
      Quiescent last ∧ ¬ Served last := by
  obtain ⟨trace, last, run, checked⟩ := Machine.run_of_check
    (M := machine myRwlockCancel) (s := unlockedByAll) ⟨rfl, fun _ => rfl⟩
    [.enter 0 .rdlock none, .enter 1 .wrlock none, .enter 2 .rdlock none, .cancel 1,
      .cleanup 1 none]
    (fun r => decide ((∀ e ∈ r.1, waitFails e.action = false) ∧
      Threads.count r.2.phase restless = 0 ∧ r.2.phase 2 = .waiting .blocked ⟨.reader, ⟨0, 0⟩⟩ ∧
      r.2.shared.rwRefcount = 1 ∧ r.2.shared.rwNwaitwriters = 0)) (by decide +kernel)
  have stranded := of_decide_eq_true checked
  refine ⟨trace, last, run, stranded.1, rest_quiescent last stranded.2.1, ?_⟩
  intro served
  have counts : last.shared.rwRefcount = 1 ∧ last.shared.rwNwaitwriters = 0 := stranded.2.2.2
  rcases served.readers 2 _ stranded.2.2.1 with negative | waits
  · rw [counts.1] at negative
    exact absurd negative (by decide)
  · omega

end NetworkProgramming.RwLock
