import NetworkProgramming.Mysem

/-!
Runs of the memory-mapped semaphore. The count is exact as long as no post wraps
it. `mysem_post` signals only when it finds the count at 0, so a post that finds
it positive leaves blocked waiters to the threads awakened earlier; that is
enough exactly while those outnumber the count.
-/

namespace NetworkProgramming.Mysem

variable {Thread : Type*} [Fintype Thread] [DecidableEq Thread]

/-! The count. An unsigned counter that wraps loses 2^32 posts each time. -/

def completed (reply : Reply) (trace : List (Step Thread)) : Nat :=
  trace.countP fun e => decide (e.output = some reply)

def Fits (e : Step Thread) : Prop :=
  posts e = true → e.before.shared.semCount.toNat + 1 < 2 ^ 32

def Balance (value : UInt32) (lost : Nat) (trace : List (Step Thread)) (s : State Thread) : Prop :=
  value.toNat + completed .posted trace =
    s.shared.semCount.toNat + completed .waited trace + 2 ^ 32 * lost

omit [Fintype Thread] [DecidableEq Thread] in
theorem completed_snoc (reply : Reply) (trace : List (Step Thread)) (e : Step Thread) :
    completed reply (trace ++ [e]) =
      completed reply trace + if e.output = some reply then 1 else 0 := by
  simp [completed, List.countP_append, List.countP_singleton]

theorem count_succ (n : UInt32) :
    (n + 1).toNat = n.toNat + 1 ∨ (n.toNat + 1 = 2 ^ 32 ∧ (n + 1).toNat = 0) := by
  have bound := n.toNat_lt
  rw [UInt32.toNat_add, UInt32.toNat_one]
  omega

theorem count_pred (n : UInt32) (positive : n ≠ 0) : (n - 1).toNat + 1 = n.toNat := by
  have nonzero : n.toNat ≠ 0 := fun zero => positive (UInt32.toNat_inj.mp zero)
  have least : (1 : UInt32) ≤ n := by
    rw [UInt32.le_iff_toNat_le, UInt32.toNat_one]
    omega
  rw [UInt32.toNat_sub_of_le _ _ least, UInt32.toNat_one]
  omega

theorem move_count (v w : View) (output : Option Reply) (move : Move v output w) :
    (output = some .posted → w.count.toNat = v.count.toNat + 1 ∨
      (v.count.toNat + 1 = 2 ^ 32 ∧ w.count.toNat = 0)) ∧
    (output = some .waited → w.count.toNat + 1 = v.count.toNat) ∧
    (output ≠ some .posted → output ≠ some .waited → w.count = v.count) := by
  cases move with
  | refuse _ error => simp
  | spurious n b a => simp
  | postWakes b a => simp
  | postSilent n b a _ => simpa using count_succ n
  | take n b a positive => simpa using count_pred n positive
  | takeAwakened n b a positive => simpa using count_pred n positive
  | block b a => simp
  | blockAwakened b a => simp

theorem balance_step (value : UInt32) (lost : Nat) (trace : List (Step Thread))
    (e : Step Thread) (stepped : (machine value).Stepped e)
    (held : Balance value lost trace e.before) :
    Balance value lost (trace ++ [e]) e.after ∨
      (¬ Fits e ∧ Balance value (lost + 1) (trace ++ [e]) e.after) := by
  obtain ⟨post, wait, other⟩ := move_count _ _ _ (step_move value e stepped)
  simp only [Balance, completed_snoc] at held ⊢
  simp only [view] at post wait other
  by_cases didPost : e.output = some .posted
  · simp only [didPost, Option.some.injEq, reduceCtorEq, ↓reduceIte]
    rcases post didPost with up | ⟨full, wrapped⟩
    · left
      omega
    · right
      have beyond : ¬ Fits e := fun fits => by
        have := fits (posted_posts value e stepped didPost)
        omega
      exact ⟨beyond, by omega⟩
  · by_cases didWait : e.output = some .waited
    · simp only [didWait, Option.some.injEq, reduceCtorEq, ↓reduceIte]
      have down := wait didWait
      left
      omega
    · simp only [didPost, didWait, ↓reduceIte, other didPost didWait]
      left
      omega

/-! Lost wake-ups. -/

/-- A post that finds a waiter blocked either signals it or leaves the new unit
to a thread that is already awakened. -/
def Answered (e : Step Thread) : Prop :=
  posts e = true → blocked e.before = 0 ∨ e.before.shared.semCount = 0 ∨
    e.before.shared.semCount.toNat < awakened e.before

def Covered (v : View) : Prop := 0 < v.blocked → v.count.toNat ≤ v.awakened

theorem move_covered (v w : View) (output : Option Reply) (move : Move v output w)
    (answered : output = some .posted →
      v.blocked = 0 ∨ v.count = 0 ∨ v.count.toNat < v.awakened)
    (covered : Covered v) : Covered w := by
  intro waiting
  cases move with
  | refuse _ error => exact covered waiting
  | spurious n b a =>
      have := covered (Nat.succ_pos b)
      simp only at this ⊢
      omega
  | postWakes b a => simp
  -- without a signal the new unit needs an awakened thread to spare
  | postSilent n b a unneeded =>
      simp only [Covered] at covered waiting answered ⊢
      rcases answered trivial with idle | zero | more
      · omega
      · exact absurd (unneeded zero) (by omega)
      · have := count_succ n
        omega
  | take n b a positive =>
      have := covered waiting
      have := count_pred n positive
      simp only at *
      omega
  | takeAwakened n b a positive =>
      have := covered waiting
      have := count_pred n positive
      simp only at *
      omega
  | block b a => simp
  | blockAwakened b a => simp

def Quiescent (s : State Thread) : Prop := ∀ t, s.phase t ≠ .waiting .awakened ()

def LostWakeup (s : State Thread) : Prop :=
  Quiescent s ∧ ∃ t, s.phase t = .waiting .blocked () ∧ 0 < s.shared.semCount

omit [DecidableEq Thread] in
theorem quiescent_iff (s : State Thread) : Quiescent s ↔ awakened s = 0 := by
  constructor
  · intro quiet
    apply Nat.eq_zero_of_not_pos
    intro some_awake
    obtain ⟨t, call, here, _⟩ := (Monitor.waiters_pos s .awakened _).mp some_awake
    exact quiet t here
  · intro none_awake t here
    have present := (Monitor.waiters_pos s .awakened fun _ => true).mpr ⟨t, (), here, rfl⟩
    simp only [awakened] at none_awake
    omega

omit [DecidableEq Thread] in
theorem covered_not_lost (s : State Thread) (covered : Covered (view s)) : ¬ LostWakeup s := by
  rintro ⟨quiet, t, here, positive⟩
  have waiting := (Monitor.waiters_pos s .blocked fun _ => true).mpr ⟨t, (), here, rfl⟩
  have enough := covered waiting
  have none_awake := (quiescent_iff s).mp quiet
  have nonzero := UInt32.lt_iff_toNat_lt.mp positive
  simp only [view, none_awake, UInt32.toNat_zero] at enough nonzero
  omega

theorem awakened_takes (value : UInt32) (s : State Thread) (ready : awakened s ≠ 0)
    (positive : s.shared.semCount ≠ 0) :
    ∃ e : Step Thread, e.before = s ∧ (machine value).Stepped e ∧
      view e.after = ⟨s.shared.semCount - 1, blocked s, awakened s - 1⟩ := by
  obtain ⟨t, call, here, _⟩ :=
    (Monitor.waiters_pos s .awakened fun _ => true).mp (Nat.pos_of_ne_zero ready)
  have taken : waitLoop s.shared =
      ⟨{ s.shared with semCount := s.shared.semCount - 1 }, .quiet, .waited, .leave ()⟩ := by
    simp [waitLoop, positive]
  let after : State Thread :=
    ⟨{ s.shared with semCount := s.shared.semCount - 1 },
      Function.update s.phase t (.outside ())⟩
  refine ⟨⟨s, .resume t () none, some .waited, after⟩, rfl, ?_, ?_⟩
  · simp [Machine.Stepped, machine, Monitor.machine, Monitor.step, Monitor.sectionOf, here,
      monitor, taken, Monitor.wakeUp, after, Exit.phase]
  · exact (resumed_counts s t here after.shared (.leave ())).1

/-- From a state with more units than awakened threads, those threads alone
lead to a lost wake-up. -/
theorem short_loses (value : UInt32) (trace : List (Step Thread)) (s : State Thread)
    (run : (machine value).Run trace s) (waiting : 0 < blocked s)
    (short : awakened s < s.shared.semCount.toNat) :
    ∃ more last, (machine value).Run (trace ++ more) last ∧ LostWakeup last := by
  have lowers : ∀ (trace : List (Step Thread)) (s : State Thread), (machine value).Run trace s →
      0 < blocked s ∧ awakened s < s.shared.semCount.toNat → awakened s ≠ 0 →
      ∃ e, e.before = s ∧ (machine value).Stepped e ∧ True ∧
        (0 < blocked e.after ∧ awakened e.after < e.after.shared.semCount.toNat) ∧
        awakened e.after < awakened s := by
    rintro trace s run ⟨waiting, short⟩ ready
    have positive : s.shared.semCount ≠ 0 := by
      intro zero
      simp [zero] at short
    obtain ⟨e, before, stepped, counts⟩ := awakened_takes value s ready positive
    have fewer := count_pred _ positive
    have less : awakened e.after = awakened s - 1 := congrArg View.awakened counts
    have same : blocked e.after = blocked s := congrArg View.blocked counts
    have count : e.after.shared.semCount.toNat = (s.shared.semCount - 1).toNat :=
      congrArg (UInt32.toNat ∘ View.count) counts
    exact ⟨e, before, stepped, trivial, ⟨by omega, by omega⟩, by omega⟩
  obtain ⟨more, last, longer, _, ⟨still, left⟩, quiet⟩ :=
    run.drain awakened lowers ⟨waiting, short⟩
  obtain ⟨t, call, here, _⟩ := (Monitor.waiters_pos last .blocked _).mp still
  refine ⟨more, last, longer, (quiescent_iff last).mpr quiet, t, here, ?_⟩
  exact UInt32.lt_iff_toNat_lt.mpr (by simpa [quiet] using left)

/-! The semaphore's promise, and when it is kept. -/

structure Sound (value : UInt32) (trace : List (Step Thread)) (s : State Thread) : Prop where
  count : (s.shared.semCount.toNat : Int) =
    value.toNat + completed .posted trace - completed .waited trace
  answered : ¬ LostWakeup s

omit [Fintype Thread] [DecidableEq Thread] in
theorem sound_count_iff (value : UInt32) (lost : Nat) (trace : List (Step Thread))
    (s : State Thread) (held : Balance value lost trace s) :
    (s.shared.semCount.toNat : Int) =
      value.toNat + completed .posted trace - completed .waited trace ↔ lost = 0 := by
  simp only [Balance] at held
  omega

theorem start_balance (value : UInt32) (s : State Thread)
    (first : (machine value).start s) : Balance value 0 [] s := by
  simp [Balance, completed, first.1]

theorem start_covered (value : UInt32) (s : State Thread)
    (first : (machine value).start s) : Covered (view s) := by
  intro waiting
  obtain ⟨t, call, here, _⟩ := (Monitor.waiters_pos s .blocked _).mp waiting
  rw [first.2 t] at here
  cases here

theorem run_balance (value : UInt32) (trace : List (Step Thread)) (s : State Thread)
    (run : (machine value).Run trace s) : ∃ lost, Balance value lost trace s := by
  refine run.history (C := fun _ => True) (I := fun trace s => ∃ lost, Balance value lost trace s)
    (fun s first => ⟨0, start_balance value s first⟩) ?_ fun _ _ => trivial
  rintro trace e stepped _ ⟨lost, held⟩
  rcases balance_step value lost trace e stepped held with same | ⟨_, more⟩
  · exact ⟨lost, same⟩
  · exact ⟨lost + 1, more⟩

theorem run_sound (value : UInt32) (trace : List (Step Thread)) (s : State Thread)
    (run : (machine value).Run trace s) (met : ∀ e ∈ trace, Fits e ∧ Answered e) :
    Sound value trace s := by
  have balance : Balance value 0 trace s :=
    run.history (start_balance value)
      (fun trace e stepped fits held =>
        (balance_step value 0 trace e stepped held).resolve_right fun wrong => wrong.1 fits)
      fun e member => (met e member).1
  have covered : Covered (view s) :=
    run.preserves (start_covered value)
      (fun e stepped answered held => move_covered _ _ _ (step_move value e stepped)
        (fun done => answered (posted_posts value e stepped done)) held)
      fun e member => (met e member).2
  exact ⟨(sound_count_iff value 0 trace s balance).mpr rfl, covered_not_lost s covered⟩

theorem overflow_unsound (value : UInt32) (trace : List (Step Thread)) (e : Step Thread)
    (run : (machine value).Run trace e.before) (stepped : (machine value).Stepped e)
    (beyond : ¬ Fits e) : ¬ Sound value (trace ++ [e]) e.after := by
  rintro ⟨count, _⟩
  simp only [Fits, Classical.not_imp, Nat.not_lt] at beyond
  obtain ⟨lost, held⟩ := run_balance value trace e.before run
  have wrapped := (move_count _ _ _ (step_move value e stepped)).1
    (posts_posted value e stepped beyond.1)
  have bound := e.after.shared.semCount.toNat_lt
  have more : Balance value (lost + 1) (trace ++ [e]) e.after := by
    simp only [Balance, completed_snoc, posts_posted value e stepped beyond.1, Option.some.injEq,
      reduceCtorEq, ↓reduceIte] at held ⊢
    simp only [view] at wrapped
    omega
  have nonzero := (sound_count_iff value (lost + 1) _ _ more).mp count
  omega

theorem move_posted (v w : View) (move : Move v (some .posted) w) (positive : v.count ≠ 0) :
    w = ⟨v.count + 1, v.blocked, v.awakened⟩ := by
  cases move with
  | postWakes b a => simp at positive
  | postSilent n b a _ => rfl

theorem unanswered_unsound (value : UInt32) (trace : List (Step Thread)) (e : Step Thread)
    (run : (machine value).Run trace e.before) (stepped : (machine value).Stepped e)
    (fits : Fits e) (missed : ¬ Answered e) :
    ∃ more last, (machine value).Run (trace ++ e :: more) last ∧ LostWakeup last := by
  simp only [Answered, Classical.not_imp, not_or, Nat.not_lt] at missed
  obtain ⟨does, waiting, positive, few⟩ := missed
  have post := posts_posted value e stepped does
  have moved := step_move value e stepped
  rw [post] at moved
  have same := move_posted _ _ moved positive
  have room := fits does
  have up := (move_count _ _ _ moved).1 rfl
  have count : e.after.shared.semCount.toNat = e.before.shared.semCount.toNat + 1 := by
    simp only [view] at up
    omega
  have still : blocked e.after = blocked e.before := congrArg View.blocked same
  have ready : awakened e.after = awakened e.before := congrArg View.awakened same
  obtain ⟨more, last, longer, lost⟩ := short_loses value (trace ++ [e]) e.after (run.next e stepped)
    (by omega) (by omega)
  exact ⟨more, last, by simpa using longer, lost⟩

/-- Every run whose posts fit the counter and leave no waiter behind is sound.
The condition is exact: a run whose next step misses it has already lost a unit
or goes on to a state that has lost a wake-up. -/
theorem mysem_sound_while_answered (value : UInt32) :
    (∀ (trace : List (Step Thread)) (s : State Thread), (machine value).Run trace s →
      (∀ e ∈ trace, Fits e ∧ Answered e) → Sound value trace s) ∧
    (∀ (trace : List (Step Thread)) (e : Step Thread), (machine value).Run trace e.before →
      (machine value).Stepped e → ¬ (Fits e ∧ Answered e) →
      ∃ more last, (machine value).Run (trace ++ e :: more) last ∧
        ¬ Sound value (trace ++ e :: more) last) := by
  refine ⟨run_sound value, ?_⟩
  intro trace e run stepped missed
  by_cases fits : Fits e
  · obtain ⟨more, last, longer, lost⟩ := unanswered_unsound value trace e run stepped fits
      fun answered => missed ⟨fits, answered⟩
    exact ⟨more, last, longer, fun sound => sound.answered lost⟩
  · exact ⟨[], e.after, run.next e stepped, overflow_unsound value trace e run stepped fits⟩

/-! Two waiters, one of them signalled: the second post finds the count at 1. -/

def idle (value : UInt32) : State (Fin 4) := ⟨⟨value, semMagic⟩, fun _ => .outside ()⟩

theorem answered_run_sound :
    ∃ (trace : List (Step (Fin 4))) (last : State (Fin 4)), (machine 0).Run trace last ∧
      trace.length = 4 ∧ Sound 0 trace last := by
  obtain ⟨trace, last, run, checked⟩ := Machine.run_of_check
    (M := machine 0) (s := idle 0) ⟨rfl, fun _ => rfl⟩
    [.enter 0 (.wait none) none, .enter 2 (.post none) (some 0), .resume 0 () none,
      .enter 3 (.post none) none]
    (fun r => decide (r.1.length = 4 ∧ ∀ e ∈ r.1,
      (posts e = true → e.before.shared.semCount.toNat + 1 < 2 ^ 32) ∧
      (posts e = true → blocked e.before = 0 ∨ e.before.shared.semCount = 0 ∨
        e.before.shared.semCount.toNat < awakened e.before)))
    (by decide +kernel)
  have met := of_decide_eq_true checked
  exact ⟨trace, last, run, met.1, (mysem_sound_while_answered 0).1 trace last run met.2⟩

theorem second_post_lost :
    ∃ (trace : List (Step (Fin 4))) (last : State (Fin 4)), (machine 0).Run trace last ∧
      LostWakeup last := by
  obtain ⟨trace, last, run, checked⟩ := Machine.run_of_check
    (M := machine 0) (s := idle 0) ⟨rfl, fun _ => rfl⟩
    [.enter 0 (.wait none) none, .enter 1 (.wait none) none, .enter 2 (.post none) (some 0),
      .enter 3 (.post none) none, .resume 0 () none]
    (fun r => decide ((∀ t, r.2.phase t ≠ .waiting .awakened ()) ∧
      ∃ t, r.2.phase t = .waiting .blocked () ∧ 0 < r.2.shared.semCount))
    (by decide +kernel)
  have lost := of_decide_eq_true checked
  exact ⟨trace, last, run, lost⟩

end NetworkProgramming.Mysem
