import NetworkProgramming.ThreadPool

/-!
The end of a pool. thread_pool_destroy joins as many threads as there are tasks in the list at
each turn of its loop.
-/

namespace NetworkProgramming.ThreadPool

variable {Task : Type*} [DecidableEq Task] {Client : Type*} {n : Nat} [Fintype Client]
variable [DecidableEq Client]

def joins (e : Step n Client Task) : Bool :=
  match e.before.phase (thread e.action) with
  | .outside (.join i) => decide ((i : Int) < e.before.shared.taskNum.toInt ↔ i < n)
  | _ => true

/-- No thread identifier is read beyond `th`, and the mutex and the condition are destroyed when
all threads have returned. -/
def Ended (e : Step n Client Task) : Prop :=
  (∀ i, e.output ≠ some (.outOfRange i)) ∧
  (e.output = some .destroyed → ∀ j : Fin n, e.before.phase (.inl j) = .outside (.returned j))

def Joined (phase : Thread n Client → Phase (Local Task) Nat) : Prop :=
  ∀ u i, phase u = .outside (.join i) →
    i ≤ n ∧ ∀ j : Fin n, (j : Nat) < i → phase (.inl j) = .outside (.returned j)

omit [DecidableEq Task] [Fintype Client] in
theorem Joined.moves {phase next : Thread n Client → Phase (Local Task) Nat} {wake : Wake Unit}
    {target : Option (Thread n Client)} (joined : Joined phase)
    (woken : Monitor.Woken (fun _ => ()) phase wake target next) (u : Thread n Client)
    (p : Phase (Local Task) Nat) (mover : ∀ j, phase u ≠ .outside (.returned j))
    (own : ∀ i, p = .outside (.join i) →
      i ≤ n ∧ ∀ j : Fin n, (j : Nat) < i → phase (.inl j) = .outside (.returned j)) :
    Joined (Function.update next u p) := by
  have stays (j : Fin n) (back : phase (.inl j) = .outside (.returned j)) :
      Function.update next u p (.inl j) = .outside (.returned j) := by
    have apart : .inl j ≠ u := by
      rintro rfl
      exact mover j back
    rw [Function.update_of_ne apart, Monitor.woken_runner woken _ (by simp [back]), back]
  intro v i here
  by_cases same : v = u
  · subst same
    rw [Function.update_self] at here
    exact ⟨(own i here).1, fun j less => stays j ((own i here).2 j less)⟩
  · rw [Function.update_of_ne same] at here
    rcases Monitor.woken_each woken v with still | ⟨call, -, awake⟩
    · rw [still] at here
      exact ⟨(joined v i here).1, fun j less => stays j ((joined v i here).2 j less)⟩
    · rw [awake] at here
      cases here

theorem joined_step (e : Step n Client Task) (stepped : machine.Stepped e) (placed : Placed e.before)
    (joined : Joined e.before.phase) (met : joins e = true) : Ended e ∧ Joined e.after.phase := by
  have does := step_does e stepped
  obtain ⟨s, a, output, after⟩ := e
  dsimp only at does placed joined ⊢
  rw [joins] at met
  dsimp only at met
  generalize thread a = u at does met
  cases does with
  | taskNew here _ =>
      exact ⟨by simp [Ended], joined.moves .quiet u _ (by simp [here]) (by simp)⟩
  | add here woken =>
      exact ⟨by simp [Ended], joined.moves woken u _ (by simp [here]) (by simp)⟩
  | destroy here _ woken =>
      refine ⟨by simp [Ended], joined.moves woken u _ (by simp [here]) fun i same => ?_⟩
      cases same
      exact ⟨Nat.zero_le n, fun j less => absurd less (Nat.not_lt_zero j)⟩
  | pass here _ =>
      exact ⟨by simp [Ended], joined.moves .quiet u _ (by simp [here]) (by simp)⟩
  | leave here _ =>
      exact ⟨by simp [Ended], joined.moves .quiet u _ (by simp [here]) (by simp)⟩
  | wait here _ _ =>
      refine ⟨by simp [Ended], joined.moves .quiet u _ ?_ (by simp)⟩
      rcases here with here | here <;> simp [here]
  | null here _ =>
      refine ⟨by simp [Ended], joined.moves .quiet u _ ?_ (by simp)⟩
      rcases here with here | here <;> simp [here]
  | torn here _ _ _ =>
      refine ⟨by simp [Ended], joined.moves .quiet u _ ?_ (by simp)⟩
      rcases here with here | here <;> simp [here]
  | get here _ _ _ =>
      refine ⟨by simp [Ended], joined.moves .quiet u _ ?_ (by simp)⟩
      rcases here with here | here <;> simp [here]
  | run here =>
      exact ⟨by simp [Ended], joined.moves .quiet u _ (by simp [here]) (by simp)⟩
  | @join i here _ within gone =>
      refine ⟨by simp [Ended], joined.moves .quiet u _ (by simp [here]) fun i' same => ?_⟩
      cases same
      refine ⟨within, fun j less => ?_⟩
      rcases Nat.lt_succ_iff_lt_or_eq.mp less with before | now
      · exact (joined u i here).2 j before
      · exact (placed.gone j).mp (now ▸ gone)
  | @outOfRange i here more beyond =>
      rw [here] at met
      exact absurd ((of_decide_eq_true met).mp more) beyond
  | @destroyed i here over_ =>
      -- the loop has ended, so all threads have been joined
      rw [here] at met
      refine ⟨⟨by simp, fun _ j => ?_⟩, joined.moves .quiet u _ (by simp [here]) (by simp)⟩
      have all : ¬ i < n := fun within => over_ ((of_decide_eq_true met).mpr within)
      exact (joined u i here).2 j (by omega)
  | spurious here =>
      exact ⟨by simp [Ended], joined.moves .quiet u _ (by simp [here]) (by simp)⟩

/-- Where the loop of thread_pool_destroy runs over the threads, it reads no identifier that there
is not, and what it destroys nobody uses any more. -/
theorem destroy_ends (trace : List (Step n Client Task)) (s : State n Client Task)
    (run : machine.Run trace s) (met : ∀ e ∈ trace, joins e = true) : ∀ e ∈ trace, Ended e := by
  have all : Placed s ∧ Joined s.phase ∧ ∀ e ∈ trace, Ended e := by
    refine run.history (C := fun e => joins e = true)
      (I := fun trace s => Placed s ∧ Joined s.phase ∧ ∀ e ∈ trace, Ended e) ?_ ?_ met
    · intro s first
      have outside := first.2.2.2.2.2.2
      refine ⟨placed_run (Machine.Run.start first), fun u i here => ?_,
        fun e member => absurd member List.not_mem_nil⟩
      rw [outside u] at here
      cases u <;> cases here
    · rintro trace e stepped met ⟨placed, joined, ended⟩
      obtain ⟨here, after⟩ := joined_step e stepped placed joined met
      refine ⟨placed_step e stepped placed, after, fun d member => ?_⟩
      rcases List.mem_append.mp member with old | new
      · exact ended d old
      · exact List.mem_singleton.mp new ▸ here
  exact all.2.2

theorem one_left_ends : ∃ (trace : List (Step 1 Unit (Fin 1))) (s : State 1 Unit (Fin 1)),
    machine.Run trace s ∧ (∃ e ∈ trace, e.output = some .destroyed) ∧ ∀ e ∈ trace, Ended e := by
  obtain ⟨trace, s, run, checked⟩ := Machine.run_of_check
    (M := (machine : Machine (State 1 Unit (Fin 1)) _ _)) initial_start
    [.enter (.inr ()) (.taskNew 0) none, .enter (.inr ()) (.add 0) none,
      .enter (.inr ()) .destroy none, .enter (.inl 0) .proceed none,
      .enter (.inr ()) .proceed none, .enter (.inr ()) .proceed none]
    (fun r => decide ((∃ e ∈ r.1, e.output = some .destroyed) ∧ ∀ e ∈ r.1, joins e = true))
    (by decide +kernel)
  obtain ⟨done, met⟩ := of_decide_eq_true checked
  exact ⟨trace, s, run, done, destroy_ends trace s run met⟩

theorem none_left_destroys : ∃ (trace : List (Step 2 Unit (Fin 1))) (s : State 2 Unit (Fin 1)),
    machine.Run trace s ∧ ¬ ∀ e ∈ trace, Ended e := by
  obtain ⟨trace, s, run, checked⟩ := Machine.run_of_check
    (M := (machine : Machine (State 2 Unit (Fin 1)) _ _)) initial_start
    [.enter (.inr ()) .destroy none, .enter (.inr ()) .proceed none]
    (fun r => decide (∃ e ∈ r.1, e.output = some .destroyed ∧
      e.before.phase (.inl 0) = .outside (.test 0))) (by decide +kernel)
  obtain ⟨e, member, output, here⟩ := of_decide_eq_true checked
  refine ⟨trace, s, run, fun ended => ?_⟩
  have back := (ended e member).2 output 0
  rw [here] at back
  cases back

end NetworkProgramming.ThreadPool
