import NetworkProgramming.Monitor
import NetworkProgramming.Posix

/-!
The read-write locks of unpv22e/my_rwlock and unpv22e/my_rwlock_cancel. The two
directories hold the same functions over the same `pthread_rwlock_t` up to the
points collected in `Variant`; each function is one section of the monitor whose
mutex is `rw_mutex` and whose conditions are `rw_condreaders` and
`rw_condwriters`. A result 0 is `none`. The model starts where
`pthread_mutex_lock` has succeeded. `rw_refcount` is an `int` that goes round,
since a thread may lock for reading as often as it likes; the two wait counters
count threads, of which no system has as many as an `int` counts.
-/

namespace NetworkProgramming.RwLock

structure PthreadRwlock where
  rwMagic : Nat
  rwNwaitreaders : Int
  rwNwaitwriters : Int
  rwRefcount : Int32
  deriving DecidableEq

def rwMagic : Nat := 0x19283746

def pthreadRwlockInit : PthreadRwlock := ⟨rwMagic, 0, 0, 0⟩

inductive Kind where
  | reader
  | writer
  deriving DecidableEq

structure Holding where
  reads : Nat
  writes : Nat
  deriving DecidableEq

structure Waiter where
  kind : Kind
  held : Holding
  deriving DecidableEq

inductive Reply where
  | waits
  | returns (result : Option Errno)
  /-- `err_dump`: the process prints a message and aborts. -/
  | dumps
  deriving DecidableEq

abbrev LockSection := Section PthreadRwlock Holding Waiter Kind Reply

/-- Where the two directories differ. -/
structure Variant where
  /-- The writer test of `pthread_rwlock_tryrdlock`. -/
  writerHolds : Int32 → Bool
  /-- Whether `pthread_rwlock_unlock` signals the waiting writers at this count. -/
  signalsWriters : Int32 → Bool
  /-- What `pthread_rwlock_rdlock` and `_wrlock` return after their loop. -/
  returned : Option Errno → Option Errno
  /-- Whether the waits push a cancellation handler. -/
  cancellable : Bool
  sees_writer : writerHolds (-1) = true
  sees_negative : ∀ count, writerHolds count = true → count < 0
  signals_free : signalsWriters 0 = true

def myRwlock : Variant where
  writerHolds count := decide (count < 0)
  signalsWriters count := decide (count = 0)
  returned result := result
  cancellable := false
  sees_writer := rfl
  sees_negative _ := of_decide_eq_true
  signals_free := rfl

def myRwlockCancel : Variant where
  writerHolds count := decide (count = -1)
  signalsWriters _ := true
  returned _ := none
  cancellable := true
  sees_writer := rfl
  sees_negative count holds := by
    rw [of_decide_eq_true holds]
    decide
  signals_free := rfl

def leave (rw : PthreadRwlock) (held : Holding) (result : Option Errno) : LockSection :=
  ⟨rw, .quiet, .returns result, .leave held⟩

def leaveQueue (kind : Kind) (rw : PthreadRwlock) : PthreadRwlock :=
  match kind with
  | .reader => { rw with rwNwaitreaders := rw.rwNwaitreaders - 1 }
  | .writer => { rw with rwNwaitwriters := rw.rwNwaitwriters - 1 }

-- From a test of the loop condition of `pthread_rwlock_rdlock` with `result` 0.
def rdlockLoop (v : Variant) (held : Holding) (rw : PthreadRwlock) : LockSection :=
  if rw.rwRefcount < 0 ∨ rw.rwNwaitwriters > 0 then
    ⟨{ rw with rwNwaitreaders := rw.rwNwaitreaders + 1 }, .quiet, .waits, .wait ⟨.reader, held⟩⟩
  else
    leave { rw with rwRefcount := rw.rwRefcount + 1 } { held with reads := held.reads + 1 }
      (v.returned none)

def wrlockLoop (v : Variant) (held : Holding) (rw : PthreadRwlock) : LockSection :=
  if rw.rwRefcount ≠ 0 then
    ⟨{ rw with rwNwaitwriters := rw.rwNwaitwriters + 1 }, .quiet, .waits, .wait ⟨.writer, held⟩⟩
  else
    leave { rw with rwRefcount := -1 } { held with writes := held.writes + 1 } (v.returned none)

theorem rdlock_loop_busy (v : Variant) (held : Holding) (rw : PthreadRwlock)
    (busy : rw.rwRefcount < 0 ∨ rw.rwNwaitwriters > 0) :
    rdlockLoop v held rw = ⟨{ rw with rwNwaitreaders := rw.rwNwaitreaders + 1 }, .quiet, .waits,
      .wait ⟨.reader, held⟩⟩ :=
  if_pos busy

theorem rdlock_loop_free (v : Variant) (held : Holding) (rw : PthreadRwlock)
    (free : ¬ (rw.rwRefcount < 0 ∨ rw.rwNwaitwriters > 0)) :
    rdlockLoop v held rw = leave { rw with rwRefcount := rw.rwRefcount + 1 }
      { held with reads := held.reads + 1 } (v.returned none) :=
  if_neg free

theorem wrlock_loop_busy (v : Variant) (held : Holding) (rw : PthreadRwlock)
    (busy : rw.rwRefcount ≠ 0) :
    wrlockLoop v held rw = ⟨{ rw with rwNwaitwriters := rw.rwNwaitwriters + 1 }, .quiet, .waits,
      .wait ⟨.writer, held⟩⟩ :=
  if_pos busy

theorem wrlock_loop_free (v : Variant) (held : Holding) (rw : PthreadRwlock)
    (free : ¬ rw.rwRefcount ≠ 0) :
    wrlockLoop v held rw = leave { rw with rwRefcount := -1 }
      { held with writes := held.writes + 1 } (v.returned none) :=
  if_neg free

def rdlock (v : Variant) (held : Holding) (rw : PthreadRwlock) : LockSection :=
  if rw.rwMagic ≠ rwMagic then leave rw held (some .einval) else rdlockLoop v held rw

def wrlock (v : Variant) (held : Holding) (rw : PthreadRwlock) : LockSection :=
  if rw.rwMagic ≠ rwMagic then leave rw held (some .einval) else wrlockLoop v held rw

def tryrdlock (v : Variant) (held : Holding) (rw : PthreadRwlock) : LockSection :=
  if rw.rwMagic ≠ rwMagic then leave rw held (some .einval)
  else if v.writerHolds rw.rwRefcount ∨ rw.rwNwaitwriters > 0 then leave rw held (some .ebusy)
  else leave { rw with rwRefcount := rw.rwRefcount + 1 } { held with reads := held.reads + 1 } none

def trywrlock (held : Holding) (rw : PthreadRwlock) : LockSection :=
  if rw.rwMagic ≠ rwMagic then leave rw held (some .einval)
  else if rw.rwRefcount ≠ 0 then leave rw held (some .ebusy)
  else leave { rw with rwRefcount := -1 } { held with writes := held.writes + 1 } none

def released (held : Holding) : Holding :=
  if held.writes > 0 then { held with writes := held.writes - 1 }
  else { held with reads := held.reads - 1 }

def unlockWake (v : Variant) (rw : PthreadRwlock) : Wake Kind :=
  if rw.rwNwaitwriters > 0 then
    if v.signalsWriters rw.rwRefcount then .signal .writer else .quiet
  else if rw.rwNwaitreaders > 0 then .broadcast .reader
  else .quiet

def unlockAt (v : Variant) (held : Holding) (rw : PthreadRwlock) : LockSection :=
  ⟨rw, unlockWake v rw, .returns none, .leave (released held)⟩

def unlock (v : Variant) (held : Holding) (rw : PthreadRwlock) : LockSection :=
  if rw.rwMagic ≠ rwMagic then leave rw held (some .einval)
  else if rw.rwRefcount > 0 then
    unlockAt v held { rw with rwRefcount := rw.rwRefcount - 1 }
  else if rw.rwRefcount = -1 then unlockAt v held { rw with rwRefcount := 0 }
  else ⟨rw, .quiet, .dumps, .leave held⟩

def resume (v : Variant) (result : Option Errno) (w : Waiter) (rw : PthreadRwlock) :
    LockSection :=
  match result with
  | some n => leave (leaveQueue w.kind rw) w.held (v.returned (some n))
  | none => match w.kind with
      | .reader => rdlockLoop v w.held (leaveQueue .reader rw)
      | .writer => wrlockLoop v w.held (leaveQueue .writer rw)

/-- `rwlock_cancelrdwait` and `rwlock_cancelwrwait`: the counter and the mutex,
and nobody is woken. The thread then exits; its name is free for another. -/
def rwlockCancelwait (w : Waiter) (rw : PthreadRwlock) : LockSection :=
  leave (leaveQueue w.kind rw) w.held none

inductive Call where
  | rdlock
  | tryrdlock
  | wrlock
  | trywrlock
  | unlock
  deriving DecidableEq

/-- A thread calls unlock only while it holds the lock. -/
def enter (v : Variant) (held : Holding) (call : Call) (rw : PthreadRwlock) :
    Option LockSection :=
  match call with
  | .rdlock => some (rdlock v held rw)
  | .tryrdlock => some (tryrdlock v held rw)
  | .wrlock => some (wrlock v held rw)
  | .trywrlock => some (trywrlock held rw)
  | .unlock => if held.reads = 0 ∧ held.writes = 0 then none else some (unlock v held rw)

def monitor (v : Variant) :
    Monitor PthreadRwlock Holding Waiter Kind Call (Option Errno) Reply where
  condOf := Waiter.kind
  enter := enter v
  resume := resume v
  cleanup w rw := if v.cancellable then some (rwlockCancelwait w rw) else none

namespace MyRwlock

def pthreadRwlockRdlock := rdlock myRwlock
def pthreadRwlockTryrdlock := tryrdlock myRwlock
def pthreadRwlockWrlock := wrlock myRwlock
def pthreadRwlockTrywrlock := trywrlock
def pthreadRwlockUnlock := unlock myRwlock

theorem enter_calls (held : Holding) (rw : PthreadRwlock) :
    enter myRwlock held .rdlock rw = some (pthreadRwlockRdlock held rw) ∧
    enter myRwlock held .tryrdlock rw = some (pthreadRwlockTryrdlock held rw) ∧
    enter myRwlock held .wrlock rw = some (pthreadRwlockWrlock held rw) ∧
    enter myRwlock held .trywrlock rw = some (pthreadRwlockTrywrlock held rw) ∧
    (held.reads ≠ 0 ∨ held.writes ≠ 0 →
      enter myRwlock held .unlock rw = some (pthreadRwlockUnlock held rw)) :=
  ⟨rfl, rfl, rfl, rfl, fun owns => if_neg (by omega)⟩

end MyRwlock

namespace MyRwlockCancel

def pthreadRwlockRdlock := rdlock myRwlockCancel
def pthreadRwlockTryrdlock := tryrdlock myRwlockCancel
def pthreadRwlockWrlock := wrlock myRwlockCancel
def pthreadRwlockTrywrlock := trywrlock
def pthreadRwlockUnlock := unlock myRwlockCancel
def rwlockCancelrdwait (held : Holding) := rwlockCancelwait ⟨.reader, held⟩
def rwlockCancelwrwait (held : Holding) := rwlockCancelwait ⟨.writer, held⟩

theorem enter_calls (held : Holding) (rw : PthreadRwlock) :
    enter myRwlockCancel held .rdlock rw = some (pthreadRwlockRdlock held rw) ∧
    enter myRwlockCancel held .tryrdlock rw = some (pthreadRwlockTryrdlock held rw) ∧
    enter myRwlockCancel held .wrlock rw = some (pthreadRwlockWrlock held rw) ∧
    enter myRwlockCancel held .trywrlock rw = some (pthreadRwlockTrywrlock held rw) ∧
    (held.reads ≠ 0 ∨ held.writes ≠ 0 →
      enter myRwlockCancel held .unlock rw = some (pthreadRwlockUnlock held rw)) :=
  ⟨rfl, rfl, rfl, rfl, fun owns => if_neg (by omega)⟩

theorem cleanup_handlers (held : Holding) (rw : PthreadRwlock) :
    (monitor myRwlockCancel).cleanup ⟨.reader, held⟩ rw = some (rwlockCancelrdwait held rw) ∧
    (monitor myRwlockCancel).cleanup ⟨.writer, held⟩ rw = some (rwlockCancelwrwait held rw) :=
  ⟨rfl, rfl⟩

end MyRwlockCancel

/-- Everything a section can do, from the lock as it stands once the running
thread is no longer counted as a waiter. -/
inductive Did (v : Variant) (rw : PthreadRwlock) (held : Holding) : LockSection → Prop where
  | refuse (result : Option Errno) : Did v rw held (leave rw held result)
  | blockReader (busy : rw.rwRefcount < 0 ∨ rw.rwNwaitwriters > 0) :
      Did v rw held ⟨{ rw with rwNwaitreaders := rw.rwNwaitreaders + 1 }, .quiet, .waits,
        .wait ⟨.reader, held⟩⟩
  | takeRead (result : Option Errno) (free : v.writerHolds rw.rwRefcount = false)
      (calm : rw.rwNwaitwriters ≤ 0) :
      Did v rw held (leave { rw with rwRefcount := rw.rwRefcount + 1 }
        { held with reads := held.reads + 1 } result)
  | blockWriter (busy : rw.rwRefcount ≠ 0) :
      Did v rw held ⟨{ rw with rwNwaitwriters := rw.rwNwaitwriters + 1 }, .quiet, .waits,
        .wait ⟨.writer, held⟩⟩
  | takeWrite (result : Option Errno) (free : rw.rwRefcount = 0) :
      Did v rw held (leave { rw with rwRefcount := -1 }
        { held with writes := held.writes + 1 } result)
  | releaseRead (owns : held.reads ≠ 0 ∨ held.writes ≠ 0) (shared : rw.rwRefcount > 0) :
      Did v rw held (unlockAt v held { rw with rwRefcount := rw.rwRefcount - 1 })
  | releaseWrite (owns : held.reads ≠ 0 ∨ held.writes ≠ 0) (alone : rw.rwRefcount = -1) :
      Did v rw held (unlockAt v held { rw with rwRefcount := 0 })
  | dump (owns : held.reads ≠ 0 ∨ held.writes ≠ 0) (unheld : rw.rwRefcount ≤ 0)
      (unwritten : rw.rwRefcount ≠ -1) : Did v rw held ⟨rw, .quiet, .dumps, .leave held⟩

theorem rdlock_loop_did (v : Variant) (held : Holding) (rw : PthreadRwlock) :
    Did v rw held (rdlockLoop v held rw) := by
  by_cases busy : rw.rwRefcount < 0 ∨ rw.rwNwaitwriters > 0
  · exact rdlock_loop_busy v held rw busy ▸ .blockReader busy
  · obtain ⟨unwritten, calm⟩ := not_or.mp busy
    have free : v.writerHolds rw.rwRefcount = false := by
      rw [Bool.eq_false_iff]
      exact fun holds => unwritten (v.sees_negative _ holds)
    exact rdlock_loop_free v held rw busy ▸ .takeRead _ free (by omega)

theorem wrlock_loop_did (v : Variant) (held : Holding) (rw : PthreadRwlock) :
    Did v rw held (wrlockLoop v held rw) := by
  by_cases busy : rw.rwRefcount ≠ 0
  · exact wrlock_loop_busy v held rw busy ▸ .blockWriter busy
  · exact wrlock_loop_free v held rw busy ▸ .takeWrite _ (not_not.mp busy)

theorem enter_did (v : Variant) (held : Holding) (call : Call) (rw : PthreadRwlock)
    (sec : LockSection) (ran : enter v held call rw = some sec) : Did v rw held sec := by
  by_cases opened : rw.rwMagic = rwMagic
  · have closed : ¬ rw.rwMagic ≠ rwMagic := not_not.mpr opened
    cases call with
    | rdlock =>
        simp only [enter, rdlock, if_neg closed, Option.some.injEq] at ran
        exact ran ▸ rdlock_loop_did v held rw
    | tryrdlock =>
        simp only [enter, tryrdlock, if_neg closed, Option.some.injEq] at ran
        split at ran
        · exact ran ▸ .refuse _
        · rename_i free
          subst sec
          obtain ⟨unwritten, calm⟩ := not_or.mp free
          exact .takeRead none (Bool.eq_false_iff.mpr unwritten) (by omega)
    | wrlock =>
        simp only [enter, wrlock, if_neg closed, Option.some.injEq] at ran
        exact ran ▸ wrlock_loop_did v held rw
    | trywrlock =>
        simp only [enter, trywrlock, if_neg closed, Option.some.injEq] at ran
        split at ran
        · exact ran ▸ .refuse _
        · rename_i free
          subst sec
          exact .takeWrite none (not_not.mp free)
    | unlock =>
        simp only [enter, unlock, if_neg closed] at ran
        split at ran
        · cases ran
        · rename_i owns
          rw [Option.some.injEq] at ran
          split at ran
          · rename_i shared
            subst sec
            exact .releaseRead (by omega) shared
          · rename_i unshared
            split at ran
            · rename_i alone
              subst sec
              exact .releaseWrite (by omega) alone
            · rename_i unwritten
              subst sec
              exact .dump (by omega) (Int32.not_lt.mp unshared) unwritten
  · have refused : sec = leave rw held (some .einval) := by
      cases call <;>
        simp [enter, rdlock, tryrdlock, wrlock, trywrlock, unlock, opened] at ran <;>
        first | exact ran.symm | exact ran.2.symm
    exact refused ▸ .refuse _

theorem resume_did (v : Variant) (result : Option Errno) (w : Waiter) (rw : PthreadRwlock) :
    Did v (leaveQueue w.kind rw) w.held (resume v result w rw) := by
  obtain ⟨kind, held⟩ := w
  cases result with
  | some n => exact .refuse _
  | none =>
      cases kind with
      | reader => exact rdlock_loop_did v held (leaveQueue .reader rw)
      | writer => exact wrlock_loop_did v held (leaveQueue .writer rw)

theorem cleanup_did (v : Variant) (w : Waiter) (rw : PthreadRwlock) (sec : LockSection)
    (ran : (monitor v).cleanup w rw = some sec) :
    Did v (leaveQueue w.kind rw) w.held sec := by
  simp only [monitor, Option.ite_none_right_eq_some, Option.some.injEq] at ran
  exact ran.2 ▸ .refuse none

end NetworkProgramming.RwLock
