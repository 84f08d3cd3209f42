import Mathlib.Logic.Function.Basic
import Mathlib.Logic.Relation

/-!
Threads that wait for mutexes. A cycle of threads each waiting for what the
next one has is excluded by a number that falls along every wait. Who has a
mutex is read off the phase of each thread; one thread moves in each step.
-/

namespace NetworkProgramming.MutexWaits

variable {Thread Guard Phase : Type*}

def Waits (wants : Thread → Option Guard) (owner : Guard → Option Thread) (t u : Thread) : Prop :=
  ∃ g, wants t = some g ∧ owner g = some u

def Deadlock (wants : Thread → Option Guard) (owner : Guard → Option Thread) : Prop :=
  ∃ t, Relation.TransGen (Waits wants owner) t t

theorem no_deadlock {wants : Thread → Option Guard} {owner : Guard → Option Thread}
    (rank : Thread → Nat) (falls : ∀ t u, Waits wants owner t u → rank u < rank t) :
    ¬ Deadlock wants owner := by
  rintro ⟨t, cycle⟩
  have below (u : Thread) (path : Relation.TransGen (Waits wants owner) t u) : rank u < rank t := by
    induction path with
    | single first => exact falls _ _ first
    | tail _ last ih => exact Nat.lt_trans (falls _ _ last) ih
  exact Nat.lt_irrefl _ (below t cycle)

theorem deadlock_of_two {wants : Thread → Option Guard} {owner : Guard → Option Thread}
    {t u : Thread} (forth : Waits wants owner t u) (back : Waits wants owner u t) :
    Deadlock wants owner :=
  ⟨t, .tail (.single forth) back⟩

def Owned (phase : Thread → Phase) (has : Phase → Bool) (owner : Option Thread) : Prop :=
  ∀ t, has (phase t) = true ↔ owner = some t

namespace Owned

variable {phase : Thread → Phase} {has : Phase → Bool} {owner : Option Thread}

theorem unique (owned : Owned phase has owner) {t u : Thread} (here : has (phase t) = true)
    (there : has (phase u) = true) : t = u :=
  Option.some.inj (((owned t).mp here).symm.trans ((owned u).mp there))

variable [DecidableEq Thread]

theorem moves (owned : Owned phase has owner) (t : Thread) (p : Phase)
    (same : has p = has (phase t)) : Owned (Function.update phase t p) has owner := by
  intro u
  by_cases here : u = t
  · subst here
    rw [Function.update_self, same]
    exact owned u
  · rw [Function.update_of_ne here]
    exact owned u

theorem locks (owned : Owned phase has none) (t : Thread) (p : Phase) (now : has p = true) :
    Owned (Function.update phase t p) has (some t) := by
  intro u
  by_cases here : u = t
  · subst here
    simp [now]
  · have out : has (phase u) ≠ true := fun other => Option.some_ne_none u ((owned u).mp other).symm
    simp [here, out, Ne.symm here]

theorem unlocks (owned : Owned phase has owner) (t : Thread) (p : Phase)
    (had : has (phase t) = true) (now : has p = false) :
    Owned (Function.update phase t p) has none := by
  intro u
  by_cases here : u = t
  · subst here
    simp [now]
  · have out : has (phase u) ≠ true := fun other => here (owned.unique other had)
    simp [here, out]

end Owned

end NetworkProgramming.MutexWaits
