import Mathlib.Data.List.Nodup
import Mathlib.Logic.ExistsUnique
import Mathlib.Data.List.Count

/-!
Items that are handed from one custodian to another. Each custodian has a list of
what it keeps; every item that there is lies in exactly one of the lists, once.
-/

namespace NetworkProgramming

variable {Place Item : Type*} {inside : Item → Prop} {content next : Place → List Item}

structure Custody (inside : Item → Prop) (content : Place → List Item) : Prop where
  nodup : ∀ a, (content a).Nodup
  apart : ∀ a b i, i ∈ content a → i ∈ content b → a = b
  covers : ∀ i, inside i ↔ ∃ a, i ∈ content a

namespace Custody

theorem one (custody : Custody inside content) (i : Item) (here : inside i) :
    ∃! a, i ∈ content a := by
  obtain ⟨a, member⟩ := (custody.covers i).mp here
  exact ⟨a, member, fun b other => custody.apart b a i other member⟩

theorem perm (custody : Custody inside content) (same : ∀ a, (next a).Perm (content a)) :
    Custody inside next := by
  refine ⟨fun a => (same a).nodup_iff.mpr (custody.nodup a), fun a b i first second => ?_,
    fun i => (custody.covers i).trans (exists_congr fun a => (same a).mem_iff.symm)⟩
  exact custody.apart a b i ((same a).mem_iff.mp first) ((same b).mem_iff.mp second)

theorem congr {others : Item → Prop} (custody : Custody inside content)
    (same : ∀ i, others i ↔ inside i) : Custody others content :=
  ⟨custody.nodup, custody.apart, fun i => (same i).trans (custody.covers i)⟩

theorem move (custody : Custody inside content) (a b : Place) (x : Item) (rest : List Item)
    (other : a ≠ b) (had : (content a).Perm (x :: rest)) (left : (next a).Perm rest)
    (got : (next b).Perm (x :: content b))
    (kept : ∀ c, c ≠ a → c ≠ b → (next c).Perm (content c)) : Custody inside next := by
  have there : x ∈ content a := had.mem_iff.mpr List.mem_cons_self
  obtain ⟨gone, unique⟩ := List.nodup_cons.mp (had.nodup_iff.mp (custody.nodup a))
  have elsewhere (c : Place) (away : c ≠ a) : x ∉ content c := fun here =>
    away (custody.apart c a x here there)
  -- but for the item, everybody has what it had
  have same (c : Place) (i : Item) (apart : i ≠ x) : i ∈ next c ↔ i ∈ content c := by
    by_cases first : c = a
    · rw [first, left.mem_iff, had.mem_iff, List.mem_cons]
      simp [apart]
    · by_cases second : c = b
      · rw [second, got.mem_iff, List.mem_cons]
        simp [apart]
      · exact (kept c first second).mem_iff
  have holder (c : Place) : x ∈ next c ↔ c = b := by
    by_cases first : c = a
    · rw [first, left.mem_iff]
      exact ⟨fun here => absurd here gone, fun same => absurd same other⟩
    · by_cases second : c = b
      · rw [second, got.mem_iff]
        simp
      · rw [(kept c first second).mem_iff]
        exact ⟨fun here => absurd here (elsewhere c first), fun same => absurd same second⟩
  refine ⟨fun c => ?_, fun c d i first second => ?_, fun i => ?_⟩
  · by_cases first : c = a
    · rw [first]
      exact left.nodup_iff.mpr unique
    · by_cases second : c = b
      · rw [second]
        exact got.nodup_iff.mpr
          (List.nodup_cons.mpr ⟨elsewhere b other.symm, custody.nodup b⟩)
      · exact (kept c first second).nodup_iff.mpr (custody.nodup c)
  · by_cases moved : i = x
    · rw [moved] at first second
      exact ((holder c).mp first).trans ((holder d).mp second).symm
    · exact custody.apart c d i ((same c i moved).mp first) ((same d i moved).mp second)
  · by_cases moved : i = x
    · rw [moved]
      exact ⟨fun _ => ⟨b, (holder b).mpr rfl⟩, fun _ => (custody.covers x).mpr ⟨a, there⟩⟩
    · rw [custody.covers]
      exact exists_congr fun c => (same c i moved).symm

theorem add (custody : Custody inside content) (b : Place) (x : Item) (new : ¬ inside x)
    (got : (next b).Perm (x :: content b)) (kept : ∀ c, c ≠ b → (next c).Perm (content c)) :
    Custody (fun i => i = x ∨ inside i) next := by
  have nowhere (c : Place) : x ∉ content c := fun here =>
    new ((custody.covers x).mpr ⟨c, here⟩)
  have same (c : Place) (i : Item) : i ∈ next c ↔ i ∈ content c ∨ (i = x ∧ c = b) := by
    by_cases own : c = b
    · rw [own, got.mem_iff, List.mem_cons]
      simp [or_comm]
    · rw [(kept c own).mem_iff]
      simp [own]
  refine ⟨fun c => ?_, fun c d i first second => ?_, fun i => ?_⟩
  · by_cases own : c = b
    · rw [own]
      exact got.nodup_iff.mpr (List.nodup_cons.mpr ⟨nowhere b, custody.nodup b⟩)
    · exact (kept c own).nodup_iff.mpr (custody.nodup c)
  · rcases (same c i).mp first with old | ⟨rfl, here⟩
    · rcases (same d i).mp second with old' | ⟨rfl, -⟩
      · exact custody.apart c d i old old'
      · exact absurd old (nowhere c)
    · rcases (same d i).mp second with old' | ⟨-, there⟩
      · exact absurd old' (nowhere d)
      · rw [here, there]
  · constructor
    · rintro (rfl | old)
      · exact ⟨b, (same b i).mpr (Or.inr ⟨rfl, rfl⟩)⟩
      · obtain ⟨c, member⟩ := (custody.covers i).mp old
        exact ⟨c, (same c i).mpr (Or.inl member)⟩
    · rintro ⟨c, member⟩
      rcases (same c i).mp member with old | ⟨here, -⟩
      · exact Or.inr ((custody.covers i).mpr ⟨c, old⟩)
      · exact Or.inl here

theorem drop (custody : Custody inside content) (a : Place) (x : Item) (rest : List Item)
    (had : (content a).Perm (x :: rest)) (left : (next a).Perm rest)
    (kept : ∀ c, c ≠ a → (next c).Perm (content c)) :
    Custody (fun i => inside i ∧ i ≠ x) next := by
  have there : x ∈ content a := had.mem_iff.mpr List.mem_cons_self
  obtain ⟨gone, unique⟩ := List.nodup_cons.mp (had.nodup_iff.mp (custody.nodup a))
  have same (c : Place) (i : Item) : i ∈ next c ↔ i ∈ content c ∧ i ≠ x := by
    by_cases own : c = a
    · rw [own, left.mem_iff, had.mem_iff, List.mem_cons]
      constructor
      · exact fun member => ⟨Or.inr member, ne_of_mem_of_not_mem member gone⟩
      · rintro ⟨here | member, other⟩
        · exact absurd here other
        · exact member
    · rw [(kept c own).mem_iff]
      refine ⟨fun member => ⟨member, ?_⟩, fun member => member.1⟩
      rintro rfl
      exact own (custody.apart c a i member there)
  refine ⟨fun c => ?_, fun c d i first second => ?_, fun i => ?_⟩
  · by_cases own : c = a
    · rw [own]
      exact left.nodup_iff.mpr unique
    · exact (kept c own).nodup_iff.mpr (custody.nodup c)
  · exact custody.apart c d i ((same c i).mp first).1 ((same d i).mp second).1
  · constructor
    · rintro ⟨old, other⟩
      obtain ⟨c, member⟩ := (custody.covers i).mp old
      exact ⟨c, (same c i).mpr ⟨member, other⟩⟩
    · rintro ⟨c, member⟩
      obtain ⟨old, other⟩ := (same c i).mp member
      exact ⟨(custody.covers i).mpr ⟨c, old⟩, other⟩

end Custody

end NetworkProgramming
