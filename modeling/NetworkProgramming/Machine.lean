import Mathlib.Data.List.Basic

/-!
Guarded machines and their finite runs. `step` refuses an action that is not
enabled, so one definition serves replay and proof. A run keeps every
transition together with the states around it: a condition on the steps of a
run and a law about what the steps output are both statements about its trace.
-/

namespace NetworkProgramming

structure Machine (State Action Output : Type*) where
  start : State → Prop
  step : State → Action → Option (State × Output)

structure Transition (State Action Output : Type*) where
  before : State
  action : Action
  output : Output
  after : State

namespace Machine

variable {State Action Output : Type*} {M : Machine State Action Output}

def Stepped (M : Machine State Action Output) (e : Transition State Action Output) : Prop :=
  M.step e.before e.action = some (e.after, e.output)

def CanStep (M : Machine State Action Output) (s : State) : Prop :=
  ∃ action result, M.step s action = some result

inductive Run (M : Machine State Action Output) :
    List (Transition State Action Output) → State → Prop where
  | start {s : State} : M.start s → Run M [] s
  | next {trace : List (Transition State Action Output)}
      (e : Transition State Action Output) :
      Run M trace e.before → M.Stepped e → Run M (trace ++ [e]) e.after

theorem Run.goes_on {trace : List (Transition State Action Output)} {s after : State}
    {action : Action} {output : Output} (run : M.Run trace s)
    (went : M.step s action = some (after, output)) :
    M.Run (trace ++ [⟨s, action, output, after⟩]) after :=
  run.next ⟨s, action, output, after⟩ went

/-- The run rule: what every start state has and every step meeting `C` keeps
holds at the end of every run whose steps all meet `C`. The invariant may speak
of the steps taken so far. -/
theorem Run.history {C : Transition State Action Output → Prop}
    {I : List (Transition State Action Output) → State → Prop}
    (base : ∀ s, M.start s → I [] s)
    (kept : ∀ trace e, M.Stepped e → C e → I trace e.before → I (trace ++ [e]) e.after)
    {trace : List (Transition State Action Output)} {s : State}
    (run : M.Run trace s) (met : ∀ e ∈ trace, C e) : I trace s := by
  induction run with
  | start first => exact base _ first
  | next e _ stepped ih =>
      have earlier := ih fun d member => met d (List.mem_append_left _ member)
      exact kept _ e stepped (met e (by simp)) earlier

theorem Run.preserves {C : Transition State Action Output → Prop} {I : State → Prop}
    (base : ∀ s, M.start s → I s)
    (kept : ∀ e, M.Stepped e → C e → I e.before → I e.after)
    {trace : List (Transition State Action Output)} {s : State}
    (run : M.Run trace s) (met : ∀ e ∈ trace, C e) : I s :=
  run.history (I := fun _ => I) base (fun _ e => kept e) met

theorem Run.invariant {I : State → Prop}
    (base : ∀ s, M.start s → I s)
    (kept : ∀ e, M.Stepped e → I e.before → I e.after)
    {trace : List (Transition State Action Output)} {s : State}
    (run : M.Run trace s) : I s :=
  run.preserves (C := fun _ => True) base (fun e stepped _ => kept e stepped)
    fun _ _ => trivial

theorem split_snoc {α : Type*} {pre post trace : List α} {e last : α}
    (whole : pre ++ e :: post = trace ++ [last]) :
    (post = [] ∧ pre = trace ∧ e = last) ∨
      ∃ init, post = init ++ [last] ∧ pre ++ e :: init = trace := by
  rcases List.eq_nil_or_concat post with rfl | ⟨init, final, rfl⟩
  · obtain ⟨same, lastSame⟩ := List.append_inj' whole rfl
    simp only [List.cons.injEq, and_true] at lastSame
    exact Or.inl ⟨rfl, same, lastSame⟩
  · have shifted : pre ++ e :: (init.concat final) = (pre ++ e :: init) ++ [final] := by
      simp
    rw [shifted] at whole
    obtain ⟨same, lastSame⟩ := List.append_inj' whole rfl
    simp only [List.cons.injEq, and_true] at lastSame
    exact Or.inr ⟨init, by rw [List.concat_eq_append, lastSame], same⟩

theorem last_filter_snoc {α : Type*} (p : α → Prop) [DecidablePred p] (trace : List α) (e : α) :
    ((trace ++ [e]).filter fun d => decide (p d)).getLast? =
      if p e then some e else (trace.filter fun d => decide (p d)).getLast? := by
  rw [List.filter_append]
  split
  · rename_i here
    rw [List.filter_cons_of_pos (by simpa using here), List.filter_nil, List.getLast?_concat]
  · rename_i other
    rw [List.filter_cons_of_neg (by simpa using other), List.filter_nil, List.append_nil]

/-- The run rule for a condition that looks back: each step has to meet it after
the steps before it. -/
theorem Run.along {C : List (Transition State Action Output) → Transition State Action Output → Prop}
    {I : List (Transition State Action Output) → State → Prop}
    (base : ∀ s, M.start s → I [] s)
    (kept : ∀ trace e, M.Stepped e → C trace e → I trace e.before → I (trace ++ [e]) e.after)
    {trace : List (Transition State Action Output)} {s : State} (run : M.Run trace s)
    (met : ∀ pre e post, trace = pre ++ e :: post → C pre e) : I trace s := by
  induction run with
  | start first => exact base _ first
  | @next trace e _ stepped ih =>
      have earlier := ih fun pre d post whole => met pre d (post ++ [e]) (by simp [whole])
      exact kept trace e stepped (met trace e [] rfl) earlier

theorem Run.split {pre post : List (Transition State Action Output)}
    {e : Transition State Action Output} {s : State}
    (run : M.Run (pre ++ e :: post) s) : M.Run pre e.before ∧ M.Stepped e := by
  generalize whole : pre ++ e :: post = trace at run
  -- the last step of the run is `e`, or `e` lies in the run before it
  induction run generalizing post with
  | start _ => simp at whole
  | next last earlier stepped ih =>
      rcases split_snoc whole with ⟨_, rfl, rfl⟩ | ⟨init, _, same⟩
      · exact ⟨earlier, stepped⟩
      · exact ih same

theorem Run.each {P : Transition State Action Output → Prop}
    (law : ∀ trace e, M.Run trace e.before → M.Stepped e → P e)
    {trace : List (Transition State Action Output)} {s : State}
    (run : M.Run trace s) : ∀ e ∈ trace, P e := by
  intro e member
  obtain ⟨pre, post, rfl⟩ := List.append_of_mem member
  exact law pre e run.split.1 run.split.2

/-- The rule for an exact condition: steps that meet it are enough for `P`, and the
first step that does not meet it leads to a state without `P`. -/
theorem Run.exactly {C : Transition State Action Output → Prop}
    {P : List (Transition State Action Output) → State → Prop}
    (enough : ∀ trace s, M.Run trace s → (∀ e ∈ trace, C e) → P trace s)
    (needed : ∀ trace e, M.Run trace e.before → (∀ d ∈ trace, C d) → M.Stepped e →
      P trace e.before → P (trace ++ [e]) e.after → C e)
    {trace : List (Transition State Action Output)} {s : State} (run : M.Run trace s) :
    (∀ e ∈ trace, C e) ↔ ∀ pre last, pre <+: trace → M.Run pre last → P pre last := by
  constructor
  · intro met pre last within reached
    exact enough pre last reached fun e member => met e (within.subset member)
  · intro kept
    induction run with
    | start _ => simp
    | @next trace e earlier stepped ih =>
        have met := ih fun pre last within => kept pre last (within.trans (List.prefix_append _ _))
        have here := needed trace e earlier met stepped
          (kept trace e.before (List.prefix_append _ _) earlier)
          (kept (trace ++ [e]) e.after (List.prefix_refl _) (earlier.next e stepped))
        intro d member
        rcases List.mem_append.mp member with old | new
        · exact met d old
        · exact List.mem_singleton.mp new ▸ here

/-- The drain rule: while the measure is not zero some step keeps `I` and lowers
it, so a run goes on to where it is zero. Both may speak of the steps taken. -/
theorem Run.drain_history {C : Transition State Action Output → Prop}
    {I : List (Transition State Action Output) → State → Prop}
    (measure : List (Transition State Action Output) → State → Nat)
    (lowers : ∀ trace s, M.Run trace s → I trace s → measure trace s ≠ 0 → ∃ e, e.before = s ∧
      M.Stepped e ∧ C e ∧ I (trace ++ [e]) e.after ∧
      measure (trace ++ [e]) e.after < measure trace s)
    {trace : List (Transition State Action Output)} {s : State}
    (run : M.Run trace s) (here : I trace s) :
    ∃ more last, M.Run (trace ++ more) last ∧ (∀ e ∈ more, C e) ∧ I (trace ++ more) last ∧
      measure (trace ++ more) last = 0 := by
  -- the induction is on the measure, for all runs that end in `I` at once
  induction bound : measure trace s using Nat.strongRecOn generalizing trace s with
  | ind n ih =>
      by_cases empty : measure trace s = 0
      · refine ⟨[], s, ?_, by simp, ?_, ?_⟩
        · simpa using run
        · simpa using here
        · simpa using empty
      · obtain ⟨e, rfl, stepped, ok, kept, less⟩ := lowers trace s run here empty
        obtain ⟨more, last, longer, met, done⟩ :=
          ih (measure (trace ++ [e]) e.after) (by omega) (run.next e stepped) kept rfl
        have whole : trace ++ e :: more = trace ++ [e] ++ more := by simp
        rw [← whole] at longer done
        refine ⟨e :: more, last, longer, ?_, done⟩
        intro d member
        rcases List.mem_cons.mp member with rfl | later
        · exact ok
        · exact met d later

theorem Run.drain {C : Transition State Action Output → Prop} {I : State → Prop}
    (measure : State → Nat)
    (lowers : ∀ trace s, M.Run trace s → I s → measure s ≠ 0 → ∃ e, e.before = s ∧
      M.Stepped e ∧ C e ∧ I e.after ∧ measure e.after < measure s)
    {trace : List (Transition State Action Output)} {s : State}
    (run : M.Run trace s) (here : I s) :
    ∃ more last, M.Run (trace ++ more) last ∧ (∀ e ∈ more, C e) ∧ I last ∧ measure last = 0 :=
  run.drain_history (I := fun _ => I) (fun _ => measure) lowers here

/-- Where every step lowers a measure, a run goes on until no action is enabled. -/
theorem Run.finishes (measure : State → Nat)
    (lowers : ∀ e, M.Stepped e → measure e.after < measure e.before)
    {trace : List (Transition State Action Output)} {s : State} (run : M.Run trace s) :
    ∃ more last, M.Run (trace ++ more) last ∧ ¬ M.CanStep last := by
  induction bound : measure s using Nat.strongRecOn generalizing trace s with
  | ind n ih =>
      by_cases can : M.CanStep s
      · obtain ⟨action, result, stepped⟩ := can
        have less := lowers ⟨s, action, result.2, result.1⟩ stepped
        obtain ⟨more, last, longer, stuck⟩ := ih (measure result.1) (bound ▸ less)
          (run.next ⟨s, action, result.2, result.1⟩ stepped) rfl
        exact ⟨⟨s, action, result.2, result.1⟩ :: more, last, by simpa using longer, stuck⟩
      · exact ⟨[], s, by simpa using run, can⟩

def replay (M : Machine State Action Output) :
    State → List Action → Option (List (Transition State Action Output) × State)
  | s, [] => some ([], s)
  | s, action :: rest =>
      match M.step s action with
      | none => none
      | some (after, output) =>
          (replay M after rest).map fun r => (⟨s, action, output, after⟩ :: r.1, r.2)

theorem replay_run {pre : List (Transition State Action Output)} {s : State}
    (run : M.Run pre s) (actions : List Action)
    (trace : List (Transition State Action Output)) (last : State)
    (replayed : M.replay s actions = some (trace, last)) :
    M.Run (pre ++ trace) last := by
  induction actions generalizing pre s trace with
  | nil =>
      simp only [replay, Option.some.injEq, Prod.mk.injEq] at replayed
      obtain ⟨rfl, rfl⟩ := replayed
      simpa using run
  | cons action rest ih =>
      simp only [replay] at replayed
      split at replayed
      · cases replayed
      · rename_i after output stepped
        obtain ⟨⟨tail, final⟩, found, same⟩ := Option.map_eq_some_iff.mp replayed
        simp only [Prod.mk.injEq] at same
        obtain ⟨rfl, rfl⟩ := same
        have more := ih (run.next ⟨s, action, output, after⟩ stepped) tail found
        simpa using more

theorem run_of_check {s : State} (first : M.start s) (actions : List Action)
    (check : List (Transition State Action Output) × State → Bool)
    (passed : (M.replay s actions).any check = true) :
    ∃ trace last, M.Run trace last ∧ check (trace, last) = true := by
  cases found : M.replay s actions with
  | none => simp [found] at passed
  | some result =>
      obtain ⟨trace, last⟩ := result
      have run := replay_run (Run.start first) actions trace last found
      exact ⟨trace, last, by simpa using run, by simpa [found] using passed⟩

end Machine

end NetworkProgramming
