import NetworkProgramming.RwLock

/-!
One call of pthread_rwlock_rdlock or pthread_rwlock_wrlock with the outcomes of
pthread_mutex_lock and of its waits, as numbers: 0, an error, or the -1 that the
wrlock of my_rwlock_cancel tests for. Between two sections of the call the lock is as
the other threads have left it. A wait that is begun without the mutex is undefined;
it is taken to end without it.
-/

namespace NetworkProgramming.RwLock.Returns

def einval : Int := 22

structure Source where
  kind : Kind
  /-- Whether the test of the result of pthread_mutex_lock returns it. -/
  givesUp : Int → Bool
  /-- What is returned behind the loop. -/
  returned : Int → Int

namespace Source

def busy (f : Source) (rw : PthreadRwlock) : Bool :=
  match f.kind with
  | .reader => decide (rw.rwRefcount < 0 ∨ rw.rwNwaitwriters > 0)
  | .writer => decide (rw.rwRefcount ≠ 0)

def enqueue (f : Source) (rw : PthreadRwlock) : PthreadRwlock :=
  match f.kind with
  | .reader => { rw with rwNwaitreaders := rw.rwNwaitreaders + 1 }
  | .writer => { rw with rwNwaitwriters := rw.rwNwaitwriters + 1 }

def acquire (f : Source) (rw : PthreadRwlock) : PthreadRwlock :=
  match f.kind with
  | .reader => { rw with rwRefcount := rw.rwRefcount + 1 }
  | .writer => { rw with rwRefcount := -1 }

end Source

inductive Point where
  | waiting
  | returned (code : Int)

def finish (f : Source) (result : Int) (rw : PthreadRwlock) : PthreadRwlock × Point :=
  (if result = 0 then f.acquire rw else rw, .returned (f.returned result))

def loop (f : Source) (result : Int) (rw : PthreadRwlock) : PthreadRwlock × Point :=
  if f.busy rw then (f.enqueue rw, .waiting) else finish f result rw

def enter (f : Source) (locked : Int) (rw : PthreadRwlock) : PthreadRwlock × Point :=
  if rw.rwMagic ≠ rwMagic then (rw, .returned einval)
  else if f.givesUp locked then (rw, .returned locked)
  else loop f locked rw

def resume (f : Source) (waited : Int) (rw : PthreadRwlock) : PthreadRwlock × Point :=
  if waited ≠ 0 then finish f waited (leaveQueue f.kind rw) else loop f 0 (leaveQueue f.kind rw)

def myRdlock : Source := ⟨.reader, fun locked => decide (locked ≠ 0), id⟩
def myWrlock : Source := ⟨.writer, fun locked => decide (locked ≠ 0), id⟩
def cancelRdlock : Source := ⟨.reader, fun locked => decide (locked ≠ 0), fun _ => 0⟩
def cancelWrlock : Source := ⟨.writer, fun locked => decide (locked = -1), fun _ => 0⟩

def myRwlockOf : Kind → Source
  | .reader => myRdlock
  | .writer => myWrlock

def myRwlockCancelOf : Kind → Source
  | .reader => cancelRdlock
  | .writer => cancelWrlock

/-- What the other threads left, what pthread_cond_wait returned. -/
structure Wait where
  found : PthreadRwlock
  waited : Int

structure Stretch where
  before : PthreadRwlock
  after : PthreadRwlock

structure Done where
  code : Int
  stretches : List Stretch

def goOn (f : Source) : Point → List Wait → Option Done
  | .returned code, [] => some ⟨code, []⟩
  | .waiting, w :: more =>
      (goOn f (resume f w.waited w.found).2 more).map fun d =>
        { d with stretches := ⟨w.found, (resume f w.waited w.found).1⟩ :: d.stretches }
  | _, _ => none

def run (f : Source) (locked : Int) (rw : PthreadRwlock) (waits : List Wait) : Option Done :=
  (goOn f (enter f locked rw).2 waits).map fun d =>
    { d with stretches := ⟨rw, (enter f locked rw).1⟩ :: d.stretches }

def Done.added {Count : Type} [OfNat Count 0] [Add Count] [Sub Count] (d : Done)
    (counter : PthreadRwlock → Count) : Count :=
  d.stretches.foldr (fun s total => counter s.after - counter s.before + total) 0

def share : Kind → Int32
  | .reader => 1
  | .writer => -1

/-- The count goes up by one for the caller, or from 0 to -1, with the mutex held. -/
def Acquired (kind : Kind) (locked : Int) (d : Done) : Prop :=
  locked = 0 ∧ d.added PthreadRwlock.rwRefcount = share kind

structure Law (kind : Kind) (locked : Int) (d : Done) (same : Option Done) : Prop where
  zero_iff : d.code = 0 ↔ Acquired kind locked d
  restored : d.code ≠ 0 → d.added PthreadRwlock.rwRefcount = 0 ∧
    d.added PthreadRwlock.rwNwaitreaders = 0 ∧ d.added PthreadRwlock.rwNwaitwriters = 0
  agrees : same = some d

def nwait : Kind → PthreadRwlock → Int
  | .reader => PthreadRwlock.rwNwaitreaders
  | .writer => PthreadRwlock.rwNwaitwriters

section Added

variable {Count : Type} [OfNat Count 0] [Add Count] [Sub Count]

@[simp] theorem added_cons (code : Int) (s : Stretch) (more : List Stretch)
    (counter : PthreadRwlock → Count) : Done.added ⟨code, s :: more⟩ counter =
      counter s.after - counter s.before + Done.added ⟨code, more⟩ counter := rfl

@[simp] theorem added_nil (code : Int) (counter : PthreadRwlock → Count) :
    Done.added ⟨code, []⟩ counter = 0 := rfl

end Added

/-! What is returned behind the loop makes no other difference. -/

def Point.map (g : Int → Int) : Point → Point
  | .waiting => .waiting
  | .returned code => .returned (g code)

def plain (kind : Kind) (givesUp : Int → Bool) : Source := ⟨kind, givesUp, id⟩

@[simp] theorem plain_kind (kind : Kind) (givesUp : Int → Bool) : (plain kind givesUp).kind = kind :=
  rfl

theorem loop_map (kind : Kind) (givesUp other : Int → Bool) (returned : Int → Int) (result : Int)
    (rw_ : PthreadRwlock) : loop ⟨kind, givesUp, returned⟩ result rw_ =
      ((loop (plain kind other) result rw_).1, (loop (plain kind other) result rw_).2.map returned) := by
  have same : Source.busy ⟨kind, givesUp, returned⟩ rw_ = (plain kind other).busy rw_ := rfl
  rw [loop, loop, same]
  cases (plain kind other).busy rw_ <;> rfl

theorem resume_map (kind : Kind) (givesUp other : Int → Bool) (returned : Int → Int) (waited : Int)
    (rw_ : PthreadRwlock) : resume ⟨kind, givesUp, returned⟩ waited rw_ =
      ((resume (plain kind other) waited rw_).1,
        (resume (plain kind other) waited rw_).2.map returned) := by
  unfold resume
  split
  · cases kind <;> rfl
  · exact loop_map kind givesUp other returned 0 _

theorem goOn_map (kind : Kind) (givesUp other : Int → Bool) (returned : Int → Int)
    (waits : List Wait) (point : Point) : goOn ⟨kind, givesUp, returned⟩ (point.map returned) waits =
      (goOn (plain kind other) point waits).map fun d => { d with code := returned d.code } := by
  induction waits generalizing point with
  | nil => cases point <;> rfl
  | cons w more ih =>
      cases point with
      | returned code => rfl
      | waiting =>
          have next := resume_map kind givesUp other returned w.waited w.found
          have tail := ih (resume (plain kind other) w.waited w.found).2
          change goOn _ .waiting (w :: more) = _
          rw [goOn, goOn, next, tail, Option.map_map, Option.map_map]
          rfl

/-- Past the first two tests a call of my_rwlock_cancel returns 0, where one of my_rwlock
that has the mutex returns its result. -/
theorem run_map (kind : Kind) (givesUp other : Int → Bool) (returned : Int → Int) {locked : Int}
    {rw_ : PthreadRwlock} (valid : rw_.rwMagic = rwMagic) (goes : givesUp locked = false)
    (also : other locked = false) (waits : List Wait) :
    run ⟨kind, givesUp, returned⟩ locked rw_ waits =
      (run (plain kind other) locked rw_ waits).map fun d => { d with code := returned d.code } := by
  have first : enter ⟨kind, givesUp, returned⟩ locked rw_ =
      loop ⟨kind, givesUp, returned⟩ locked rw_ := by
    rw [enter, if_neg (not_not.mpr valid), if_neg (by simp [goes])]
  have second : enter (plain kind other) locked rw_ = loop (plain kind other) locked rw_ := by
    rw [enter, if_neg (not_not.mpr valid), if_neg (by simp [plain, also])]
  rw [run, run, first, second, loop_map kind givesUp other returned, goOn_map kind givesUp other]
  simp only [Option.map_map]
  rfl

/-! The sections are those of the monitor of the lock. -/

theorem rdlock_loop_shared (v : Variant) (held : Holding) (givesUp : Int → Bool)
    (rw_ : PthreadRwlock) :
    (rdlockLoop v held rw_).shared = (loop (plain .reader givesUp) 0 rw_).1 := by
  by_cases busy : rw_.rwRefcount < 0 ∨ rw_.rwNwaitwriters > 0
  · have waits : (plain .reader givesUp).busy rw_ = true := decide_eq_true busy
    rw [rdlock_loop_busy v held rw_ busy, loop, if_pos waits]
    rfl
  · have free : (plain .reader givesUp).busy rw_ = false := decide_eq_false busy
    rw [rdlock_loop_free v held rw_ busy, loop, free]
    rfl

theorem wrlock_loop_shared (v : Variant) (held : Holding) (givesUp : Int → Bool)
    (rw_ : PthreadRwlock) :
    (wrlockLoop v held rw_).shared = (loop (plain .writer givesUp) 0 rw_).1 := by
  by_cases busy : rw_.rwRefcount ≠ 0
  · have waits : (plain .writer givesUp).busy rw_ = true := decide_eq_true busy
    rw [wrlock_loop_busy v held rw_ busy, loop, if_pos waits]
    rfl
  · have free : (plain .writer givesUp).busy rw_ = false := decide_eq_false busy
    rw [wrlock_loop_free v held rw_ busy, loop, free]
    rfl

theorem enter_shared (v : Variant) (held : Holding) {givesUp : Int → Bool}
    (goes : givesUp 0 = false) (rw_ : PthreadRwlock) :
    (rdlock v held rw_).shared = (enter (plain .reader givesUp) 0 rw_).1 ∧
      (wrlock v held rw_).shared = (enter (plain .writer givesUp) 0 rw_).1 := by
  have given : ∀ kind, (plain kind givesUp).givesUp 0 = false := fun _ => goes
  simp only [rdlock, wrlock, enter, given, Bool.false_eq_true, if_false]
  split
  · exact ⟨rfl, rfl⟩
  · exact ⟨rdlock_loop_shared v held givesUp rw_, wrlock_loop_shared v held givesUp rw_⟩

theorem resume_shared (v : Variant) (w : Waiter) (givesUp : Int → Bool) (rw_ : PthreadRwlock) :
    (RwLock.resume v none w rw_).shared = (resume (plain w.kind givesUp) 0 rw_).1 := by
  obtain ⟨kind, held⟩ := w
  rw [resume, if_neg (not_not.mpr rfl)]
  cases kind with
  | reader => exact rdlock_loop_shared v held givesUp _
  | writer => exact wrlock_loop_shared v held givesUp _

theorem resume_failed (v : Variant) (n : Errno) {waited : Int} (failed : waited ≠ 0) (w : Waiter)
    (givesUp : Int → Bool) (rw_ : PthreadRwlock) :
    (RwLock.resume v (some n) w rw_).shared = (resume (plain w.kind givesUp) waited rw_).1 := by
  simp [RwLock.resume, resume, failed, finish, leave]

/-! What a call of my_rwlock adds to the counters. -/

def outcome : List Wait → Int
  | [] => 0
  | w :: more => if w.waited ≠ 0 then w.waited else outcome more

theorem outcome_zero (waits : List Wait) : outcome waits = 0 ↔ ∀ w ∈ waits, w.waited = 0 := by
  induction waits with
  | nil => simp [outcome]
  | cons w more ih =>
      rw [outcome, List.forall_mem_cons]
      by_cases failed : w.waited = 0
      · rw [if_neg (not_not.mpr failed), ih]
        simp [failed]
      · rw [if_pos failed]
        simp [failed]

section Plain

variable {kind : Kind} {givesUp : Int → Bool}

theorem acquire_count {rw_ : PthreadRwlock} (free : (plain kind givesUp).busy rw_ = false) :
    ((plain kind givesUp).acquire rw_).rwRefcount - rw_.rwRefcount = share kind := by
  cases kind with
  | reader =>
      simp only [plain, Source.acquire, share]
      rw [Int32.add_comm, Int32.add_sub_cancel]
  | writer =>
      have zero : rw_.rwRefcount = 0 := by simpa [plain, Source.busy] using free
      simp [plain, Source.acquire, share, zero]

theorem acquire_nwait (rw_ : PthreadRwlock) (k : Kind) :
    nwait k ((plain kind givesUp).acquire rw_) = nwait k rw_ := by
  cases kind <;> cases k <;> rfl

theorem enqueue_count (rw_ : PthreadRwlock) :
    ((plain kind givesUp).enqueue rw_).rwRefcount = rw_.rwRefcount := by
  cases kind <;> rfl

theorem enqueue_nwait (kind : Kind) (givesUp : Int → Bool) (rw_ : PthreadRwlock) (k : Kind) :
    nwait k ((plain kind givesUp).enqueue rw_) - nwait k rw_ = if k = kind then 1 else 0 := by
  cases kind <;> cases k <;> simp [plain, Source.enqueue, nwait]

theorem dequeue_count (rw_ : PthreadRwlock) : (leaveQueue kind rw_).rwRefcount = rw_.rwRefcount := by
  cases kind <;> rfl

theorem dequeue_nwait (kind : Kind) (rw_ : PthreadRwlock) (k : Kind) :
    nwait k (leaveQueue kind rw_) - nwait k rw_ = if k = kind then -1 else 0 := by
  cases kind <;> cases k <;> simp [leaveQueue, nwait]

/-- The rest of a call, from a wait on or from its return: `added` is what the call
still adds, `result` the one it returns. -/
structure Ends (kind : Kind) (d : Done) (result : Int) (waiting : Bool) : Prop where
  code : d.code = result
  count : d.added PthreadRwlock.rwRefcount = if result = 0 then share kind else 0
  queue : ∀ k, d.added (nwait k) = if waiting ∧ k = kind then -1 else 0

theorem loop_ends {result : Int} {found rw_ : PthreadRwlock} {more : List Wait} {d : Done}
    (done : (goOn (plain kind givesUp) (loop (plain kind givesUp) result rw_).2 more).map
      (fun d => { d with
        stretches := ⟨found, (loop (plain kind givesUp) result rw_).1⟩ :: d.stretches }) = some d)
    (count : rw_.rwRefcount = found.rwRefcount) (waiting : Bool)
    (queue : ∀ k, nwait k rw_ - nwait k found = if waiting ∧ k = kind then -1 else 0)
    (rest : ∀ d, goOn (plain kind givesUp) .waiting more = some d → Ends kind d (outcome more) true) :
    Ends kind d (if more = [] then result else outcome more) waiting := by
  obtain ⟨tail, went, rfl⟩ := Option.map_eq_some_iff.mp done
  cases busy : (plain kind givesUp).busy rw_ with
  | true =>
      -- the counter of the queue goes up for one more wait, and down at its return
      have blocks : loop (plain kind givesUp) result rw_ =
          ((plain kind givesUp).enqueue rw_, .waiting) := by
        rw [loop, if_pos busy]
      rw [blocks] at went ⊢
      have later := rest tail went
      have some_wait : more ≠ [] := by
        rintro rfl
        cases went
      rw [if_neg some_wait]
      refine ⟨later.code, ?_, ?_⟩
      · rw [added_cons, enqueue_count, count, Int32.sub_self, Int32.zero_add]
        exact later.count
      · intro k
        have up := enqueue_nwait kind givesUp rw_ k
        have here := queue k
        have down := later.queue k
        rw [added_cons]
        change _ + tail.added (nwait k) = _
        rw [down]
        by_cases own : k = kind <;> cases waiting <;> simp [own] at up here ⊢ <;> omega
  | false =>
      -- the loop is left: the lock is taken if no wait has failed
      have ends : loop (plain kind givesUp) result rw_ = finish (plain kind givesUp) result rw_ := by
        rw [loop, busy, if_neg Bool.false_ne_true]
      rw [ends] at went ⊢
      cases more with
      | cons w more => cases went
      | nil =>
          cases went
          rw [if_pos rfl]
          by_cases zero : result = 0
          · refine ⟨rfl, ?_, ?_⟩
            · simp only [added_cons, added_nil, finish, if_pos zero, Int32.add_zero, ← count]
              exact acquire_count busy
            · intro k
              simp only [added_cons, added_nil, finish, if_pos zero, Int.add_zero, acquire_nwait]
              exact queue k
          · refine ⟨rfl, ?_, ?_⟩
            · simp only [added_cons, added_nil, finish, if_neg zero, Int32.add_zero, count,
                Int32.sub_self]
            · intro k
              simp only [added_cons, added_nil, finish, if_neg zero, Int.add_zero]
              exact queue k

theorem wait_ends {waits : List Wait} {d : Done}
    (done : goOn (plain kind givesUp) .waiting waits = some d) :
    Ends kind d (outcome waits) true := by
  induction waits generalizing d with
  | nil => cases done
  | cons w more ih =>
      have down := fun k => dequeue_nwait kind w.found k
      rw [goOn, resume] at done
      by_cases failed : w.waited = 0
      · rw [if_neg (not_not.mpr failed)] at done
        have ended := loop_ends done (dequeue_count w.found) true
          (by simpa using down) (fun d => ih)
        have result : (if more = [] then 0 else outcome more) = outcome (w :: more) := by
          rw [outcome, if_neg (not_not.mpr failed)]
          split
          · rename_i none_left
            rw [none_left]
            rfl
          · rfl
        rwa [result] at ended
      · rw [if_pos failed, finish, if_neg failed] at done
        cases more with
        | cons w more => cases done
        | nil =>
            cases done
            rw [outcome, if_pos failed]
            refine ⟨rfl, ?_, ?_⟩
            · simp only [added_cons, added_nil, if_neg failed]
              rw [plain, dequeue_count, Int32.sub_self, Int32.add_zero]
            · intro k
              simp only [added_cons, added_nil, Int.add_zero]
              simpa using down k

theorem run_ends {locked : Int} {rw_ : PthreadRwlock} (valid : rw_.rwMagic = rwMagic)
    (goes : givesUp locked = false) {waits : List Wait} {d : Done}
    (done : run (plain kind givesUp) locked rw_ waits = some d) :
    Ends kind d (if waits = [] then locked else outcome waits) false := by
  rw [run, enter, if_neg (not_not.mpr valid), if_neg (by simp [plain, goes])] at done
  exact loop_ends done rfl false (by simp) (fun d => wait_ends)

end Plain

theorem result_zero (waits : List Wait) :
    (if waits = [] then 0 else outcome waits) = 0 ↔ ∀ w ∈ waits, w.waited = 0 := by
  rw [← outcome_zero]
  split
  · rename_i none_made
    simp [none_made, outcome]
  · rfl

theorem shares (kind : Kind) : share kind ≠ 0 := by
  cases kind <;> decide

theorem plain_law {kind : Kind} {givesUp : Int → Bool} {rw_ : PthreadRwlock}
    (valid : rw_.rwMagic = rwMagic) (goes : givesUp 0 = false) {waits : List Wait} {d : Done}
    (done : run (plain kind givesUp) 0 rw_ waits = some d) :
    (d.code = 0 ↔ ∀ w ∈ waits, w.waited = 0) ∧ (d.code = 0 ↔ Acquired kind 0 d) ∧
      (d.code ≠ 0 → d.added PthreadRwlock.rwRefcount = 0 ∧
        d.added PthreadRwlock.rwNwaitreaders = 0 ∧ d.added PthreadRwlock.rwNwaitwriters = 0) := by
  have ends := run_ends valid goes done
  have count := ends.count
  refine ⟨by rw [ends.code, result_zero], ?_, ?_⟩
  · rw [Acquired, count, ← ends.code]
    by_cases zero : d.code = 0
    · simp [zero]
    · simp [zero, Ne.symm (shares kind)]
  · intro failed
    rw [ends.code] at failed
    rw [if_neg failed] at count
    have readers : d.added PthreadRwlock.rwNwaitreaders = _ := ends.queue .reader
    have writers : d.added PthreadRwlock.rwNwaitwriters = _ := ends.queue .writer
    exact ⟨count, by simpa using readers, by simpa using writers⟩

theorem refused_done {f : Source} {locked : Int} {rw_ : PthreadRwlock} {code : Int}
    (refused : enter f locked rw_ = (rw_, .returned code)) {waits : List Wait} {d : Done}
    (done : run f locked rw_ waits = some d) : waits = [] ∧ d = ⟨code, [⟨rw_, rw_⟩]⟩ := by
  rw [run, refused] at done
  cases waits with
  | nil => exact ⟨rfl, (Option.some.inj done).symm⟩
  | cons w more => cases done

theorem refused_law {kind : Kind} {locked : Int} {rw_ : PthreadRwlock} {code : Int}
    (nonzero : code ≠ 0) :
    Law kind locked ⟨code, [⟨rw_, rw_⟩]⟩ (some ⟨code, [⟨rw_, rw_⟩]⟩) := by
  refine ⟨?_, fun _ => by simp, rfl⟩
  constructor
  · exact fun zero => absurd zero nonzero
  · rintro ⟨-, added⟩
    exact absurd (by simpa using added.symm) (shares kind)

/-- The test of the result of pthread_mutex_lock sends back every error. -/
def Tested (kind : Kind) (locked : Int) : Prop :=
  match kind with
  | .reader => True
  | .writer => locked = 0 ∨ locked = -1

theorem locked_law_iff {kind : Kind} {givesUp : Int → Bool} (goes : givesUp 0 = false)
    {other : Int → Bool} (also : other 0 = false) {rw_ : PthreadRwlock}
    (valid : rw_.rwMagic = rwMagic) {waits : List Wait} {d : Done}
    (done : run ⟨kind, givesUp, fun _ => 0⟩ 0 rw_ waits = some d) :
    Law kind 0 d (run (plain kind other) 0 rw_ waits) ↔ ∀ w ∈ waits, w.waited = 0 := by
  rw [run_map kind givesUp other _ valid goes also] at done
  obtain ⟨same, ran, rfl⟩ := Option.map_eq_some_iff.mp done
  obtain ⟨decides, acquires, -⟩ := plain_law valid also ran
  constructor
  · intro law
    rw [← decides]
    have agrees := ran.symm.trans law.agrees
    rw [Option.some.inj agrees]
  · intro succeed
    have zero := decides.mpr succeed
    have whole : same = { same with code := 0 } := by rw [← zero]
    refine ⟨?_, fun failed => absurd rfl failed, ran.trans (congrArg some whole)⟩
    rw [← whole]
    exact acquires

theorem given_up_law (kind : Kind) {f : Source} (g : Source) {locked : Int} (failed : locked ≠ 0)
    (gives : f.givesUp locked = true) (also : g.givesUp locked = true) {rw_ : PthreadRwlock}
    (valid : rw_.rwMagic = rwMagic) {waits : List Wait} {d : Done}
    (done : run f locked rw_ waits = some d) :
    waits = [] ∧ Law kind locked d (run g locked rw_ waits) := by
  have refused : ∀ h : Source, h.givesUp locked = true →
      enter h locked rw_ = (rw_, .returned locked) := by
    intro h gives
    rw [enter, if_neg (not_not.mpr valid), if_pos gives]
  obtain ⟨rfl, rfl⟩ := refused_done (refused f gives) done
  have same : run g locked rw_ [] = some ⟨locked, [⟨rw_, rw_⟩]⟩ := by
    rw [run, refused g also]
    rfl
  rw [same]
  exact ⟨rfl, refused_law failed⟩

/-- wrlock goes on without the mutex, and returns 0 whatever becomes of it. -/
theorem untested_law {locked : Int} (failed : locked ≠ 0) (unseen : locked ≠ -1)
    {rw_ : PthreadRwlock} (valid : rw_.rwMagic = rwMagic) {waits : List Wait} {d : Done}
    (done : run cancelWrlock locked rw_ waits = some d) (same : Option Done) :
    ¬ Law .writer locked d same := by
  have goes : decide (locked = -1) = false := decide_eq_false unseen
  rw [cancelWrlock, run_map .writer _ (fun _ => false) _ valid goes rfl] at done
  obtain ⟨d, -, rfl⟩ := Option.map_eq_some_iff.mp done
  intro law
  exact failed (law.zero_iff.mp rfl).1

/-- A call of rdlock or wrlock of my_rwlock_cancel that has returned keeps the law exactly
when it was refused for the magic number, or its mutex test saw an error of
pthread_mutex_lock as one and no wait that it made has failed. -/
theorem returns_law_iff (kind : Kind) (locked : Int) (rw_ : PthreadRwlock) (waits : List Wait)
    (d : Done) (done : run (myRwlockCancelOf kind) locked rw_ waits = some d) :
    Law kind locked d (run (myRwlockOf kind) locked rw_ waits) ↔
      rw_.rwMagic ≠ rwMagic ∨ Tested kind locked ∧ ∀ w ∈ waits, w.waited = 0 := by
  by_cases valid : rw_.rwMagic = rwMagic
  · simp only [valid, ne_eq, not_true_eq_false, false_or]
    by_cases held : locked = 0
    · subst held
      cases kind with
      | reader =>
          have decided : Law .reader 0 d (run (myRwlockOf .reader) 0 rw_ waits) ↔
              ∀ w ∈ waits, w.waited = 0 := locked_law_iff rfl rfl valid done
          simp [Tested, decided]
      | writer =>
          have decided : Law .writer 0 d (run (myRwlockOf .writer) 0 rw_ waits) ↔
              ∀ w ∈ waits, w.waited = 0 := locked_law_iff rfl rfl valid done
          simp [Tested, decided]
    · have seen : decide (locked ≠ 0) = true := decide_eq_true held
      cases kind with
      | reader =>
          obtain ⟨rfl, law⟩ := given_up_law .reader myRdlock held seen seen valid done
          simp only [Tested, List.not_mem_nil, false_implies, implies_true, and_self, iff_true]
          exact law
      | writer =>
          by_cases minus : locked = -1
          · obtain ⟨rfl, law⟩ := given_up_law .writer myWrlock held
              (decide_eq_true minus) seen valid done
            simp only [Tested, minus, List.not_mem_nil, false_implies, implies_true, and_true, or_true,
              iff_true]
            exact minus ▸ law
          -- wrlock of my_rwlock_cancel compares with -1, and does not see an error number
          · have broken := untested_law held minus valid done
            simp only [Tested, held, minus, or_self, false_and, iff_false]
            exact broken _
  -- both functions refuse a lock without the magic number
  · have refused : ∀ f, enter f locked rw_ = (rw_, .returned einval) := fun f => if_pos valid
    obtain ⟨rfl, rfl⟩ := refused_done (refused _) done
    have same : run (myRwlockOf kind) locked rw_ [] = some ⟨einval, [⟨rw_, rw_⟩]⟩ := by
      rw [run, refused]
      rfl
    rw [same]
    simp only [valid, ne_eq, not_false_eq_true, true_or, iff_true]
    exact refused_law (by decide)

theorem wrlock_keeps_law : Law .writer 0
    ⟨0, [⟨⟨rwMagic, 0, 0, 0⟩, ⟨rwMagic, 0, 0, -1⟩⟩]⟩ (run myWrlock 0 ⟨rwMagic, 0, 0, 0⟩ []) :=
  (returns_law_iff .writer 0 ⟨rwMagic, 0, 0, 0⟩ [] _ rfl).mpr
    (Or.inr ⟨Or.inl rfl, by simp⟩)

/-- A reader whose wait for a writer fails is told that it has the lock. -/
theorem law_broken : ¬ ∀ (kind : Kind) (locked : Int) (rw_ : PthreadRwlock) (waits : List Wait)
    (d : Done), run (myRwlockCancelOf kind) locked rw_ waits = some d →
      Law kind locked d (run (myRwlockOf kind) locked rw_ waits) := by
  intro always
  have law := always .reader 0 ⟨rwMagic, 0, 0, -1⟩ [⟨⟨rwMagic, 1, 0, -1⟩, einval⟩] _ rfl
  exact absurd (law.zero_iff.mp rfl).2 (by decide)

end NetworkProgramming.RwLock.Returns
