import Mathlib.Algebra.BigOperators.Group.Finset.Basic
import Mathlib.Algebra.Order.BigOperators.Group.Finset
import Mathlib.Data.Fintype.BigOperators

/-!
Totals over a finite family of threads. An invariant of a concurrent program
speaks of how many threads are at some place, or of how much they hold there;
one thread moves in each step, so all that is needed is how a total changes
when a single thread's phase does.
-/

namespace NetworkProgramming.Threads

variable {Thread Phase : Type*} [Fintype Thread]

def total (phase : Thread → Phase) (weight : Phase → Nat) : Nat :=
  ∑ t, weight (phase t)

def count (phase : Thread → Phase) (at_ : Phase → Bool) : Nat :=
  total phase fun p => (at_ p).toNat

theorem total_update [DecidableEq Thread] (phase : Thread → Phase) (t : Thread) (p : Phase)
    (weight : Phase → Nat) :
    total (Function.update phase t p) weight + weight (phase t) =
      total phase weight + weight p := by
  have moved := Finset.add_sum_erase Finset.univ
    (fun u => weight (Function.update phase t p u)) (Finset.mem_univ t)
  have stayed := Finset.add_sum_erase Finset.univ
    (fun u => weight (phase u)) (Finset.mem_univ t)
  have others : ∑ u ∈ Finset.univ.erase t, weight (Function.update phase t p u) =
      ∑ u ∈ Finset.univ.erase t, weight (phase u) := by
    apply Finset.sum_congr rfl
    intro u member
    rw [Function.update_of_ne (Finset.ne_of_mem_erase member)]
  simp only [Function.update_self] at moved
  simp only [total]
  omega

theorem count_update [DecidableEq Thread] (phase : Thread → Phase) (t : Thread) (p : Phase)
    (at_ : Phase → Bool) :
    count (Function.update phase t p) at_ + (at_ (phase t)).toNat =
      count phase at_ + (at_ p).toNat :=
  total_update phase t p _

theorem total_congr (phase next : Thread → Phase) (weight : Phase → Nat)
    (same : ∀ t, weight (next t) = weight (phase t)) :
    total next weight = total phase weight :=
  Finset.sum_congr rfl fun t _ => same t

theorem total_le (phase : Thread → Phase) (weight more : Phase → Nat)
    (below : ∀ p, weight p ≤ more p) : total phase weight ≤ total phase more :=
  Finset.sum_le_sum fun t _ => below (phase t)

theorem weight_le_total (phase : Thread → Phase) (weight : Phase → Nat) (t : Thread) :
    weight (phase t) ≤ total phase weight :=
  Finset.single_le_sum (f := fun u => weight (phase u)) (fun _ _ => Nat.zero_le _)
    (Finset.mem_univ t)

theorem count_le_card (phase : Thread → Phase) (at_ : Phase → Bool) :
    count phase at_ ≤ Fintype.card Thread := by
  have most := Finset.sum_le_card_nsmul Finset.univ (fun t => (at_ (phase t)).toNat) 1
    fun t _ => Bool.toNat_le (at_ (phase t))
  simpa [count, total] using most

theorem total_eq_zero (phase : Thread → Phase) (weight : Phase → Nat) :
    total phase weight = 0 ↔ ∀ t, weight (phase t) = 0 := by
  simp [total, Finset.sum_eq_zero_iff]

theorem count_eq_zero (phase : Thread → Phase) (at_ : Phase → Bool) :
    count phase at_ = 0 ↔ ∀ t, at_ (phase t) = false := by
  simp [count, total_eq_zero]

theorem count_pos (phase : Thread → Phase) (at_ : Phase → Bool) :
    0 < count phase at_ ↔ ∃ t, at_ (phase t) = true := by
  rw [Nat.pos_iff_ne_zero, ne_eq, count_eq_zero]
  simp

theorem count_unique (phase : Thread → Phase) (at_ : Phase → Bool) (few : count phase at_ ≤ 1)
    (t u : Thread) (here : at_ (phase t) = true) (there : at_ (phase u) = true) : t = u := by
  classical
  by_contra differ
  have member : u ∈ Finset.univ.erase t := Finset.mem_erase.mpr ⟨Ne.symm differ, Finset.mem_univ u⟩
  have split := Finset.add_sum_erase Finset.univ (fun v => (at_ (phase v)).toNat) (Finset.mem_univ t)
  have other := Finset.single_le_sum (f := fun v => (at_ (phase v)).toNat)
    (fun _ _ => Nat.zero_le _) member
  simp only [here, there, Bool.toNat_true] at split other
  simp only [count, total] at few
  omega

theorem count_le (phase : Thread → Phase) (at_ more : Phase → Bool)
    (implies : ∀ p, at_ p = true → more p = true) : count phase at_ ≤ count phase more := by
  apply total_le
  intro p
  have covered := implies p
  cases here : at_ p with
  | false => exact Nat.zero_le _
  | true => rw [covered here]

theorem count_eq_total (phase : Thread → Phase) (weight : Phase → Nat)
    (small : ∀ t, weight (phase t) ≤ 1) :
    count phase (fun p => decide (0 < weight p)) = total phase weight := by
  apply Finset.sum_congr rfl
  intro t _
  have least := small t
  by_cases some_weight : 0 < weight (phase t)
  · simp only [some_weight, decide_true, Bool.toNat_true]
    omega
  · simp only [some_weight, decide_false, Bool.toNat_false]
    omega

end NetworkProgramming.Threads
