import Mathlib.Data.List.Basic

/-!
System V semaphore sets of one semaphore each, as semget, semctl and semop see
them. Identifiers are handed out once, so what has been removed never comes
back under its old identifier.
-/

namespace NetworkProgramming.SemSets

/-- `otime` is whether `sem_otime` is not 0: semctl(SETVAL) leaves it alone and
every semop that succeeds sets it. -/
structure SemSet (Key : Type*) where
  semid : Nat
  key : Key
  semval : Nat
  otime : Bool
  deriving DecidableEq

structure Kernel (Key : Type*) where
  sets : List (SemSet Key)
  next : Nat
  issued : ∀ set ∈ sets, set.semid < next

variable {Key : Type*}

def Kernel.Has (kernel : Kernel Key) (semid : Nat) : Prop :=
  ∃ set ∈ kernel.sets, set.semid = semid

def Kernel.Timed (kernel : Kernel Key) (semid : Nat) : Prop :=
  ∃ set ∈ kernel.sets, set.semid = semid ∧ set.otime = true

def empty : Kernel Key := ⟨[], 0, by simp⟩

def Kernel.byKey [DecidableEq Key] (kernel : Kernel Key) (key : Key) : Option (SemSet Key) :=
  kernel.sets.find? fun set => set.key = key

def Kernel.byId (kernel : Kernel Key) (semid : Nat) : Option (SemSet Key) :=
  kernel.sets.find? fun set => set.semid = semid

def Kernel.create (kernel : Kernel Key) (key : Key) : Kernel Key where
  sets := kernel.sets ++ [⟨kernel.next, key, 0, false⟩]
  next := kernel.next + 1
  issued := by
    intro set member
    rcases List.mem_append.mp member with old | new
    · exact Nat.lt_succ_of_lt (kernel.issued set old)
    · rw [List.mem_singleton.mp new]
      exact Nat.lt_succ_self kernel.next

def Kernel.update (kernel : Kernel Key) (semid : Nat) (semval : Nat → Nat) (timed : Bool) :
    Kernel Key where
  sets := kernel.sets.map fun set =>
    if set.semid = semid then
      { set with semval := semval set.semval, otime := set.otime || timed }
    else set
  next := kernel.next
  issued := by
    intro set member
    obtain ⟨old, there, rfl⟩ := List.mem_map.mp member
    have bound := kernel.issued old there
    split <;> exact bound

def Kernel.setval (kernel : Kernel Key) (semid val : Nat) : Kernel Key :=
  kernel.update semid (fun _ => val) false

def Kernel.semop (kernel : Kernel Key) (semid op : Nat) : Kernel Key :=
  kernel.update semid (fun val => val + op) true

def Kernel.remove (kernel : Kernel Key) (semid : Nat) : Kernel Key where
  sets := kernel.sets.filter fun set => set.semid ≠ semid
  next := kernel.next
  issued := fun set member => kernel.issued set (List.mem_filter.mp member).1

theorem by_id_some {kernel : Kernel Key} {semid : Nat} {set : SemSet Key}
    (found : kernel.byId semid = some set) : set ∈ kernel.sets ∧ set.semid = semid := by
  constructor
  · exact List.mem_of_find?_eq_some found
  · simpa using List.find?_some found

theorem by_id_none {kernel : Kernel Key} {semid : Nat} (absent : kernel.byId semid = none) :
    ¬ kernel.Has semid := by
  rintro ⟨set, member, same⟩
  have test := List.find?_eq_none.mp absent set member
  simp [same] at test

theorem by_id_has {kernel : Kernel Key} {semid : Nat} (has : kernel.Has semid) :
    ∃ set, kernel.byId semid = some set ∧ set.semid = semid := by
  cases found : kernel.byId semid with
  | none => exact absurd has (by_id_none found)
  | some set => exact ⟨set, rfl, (by_id_some found).2⟩

theorem by_key_has [DecidableEq Key] {kernel : Kernel Key} {key : Key} {set : SemSet Key}
    (found : kernel.byKey key = some set) : kernel.Has set.semid :=
  ⟨set, List.mem_of_find?_eq_some found, rfl⟩

theorem has_issued {kernel : Kernel Key} {semid : Nat} (has : kernel.Has semid) :
    semid < kernel.next := by
  obtain ⟨set, member, rfl⟩ := has
  exact kernel.issued set member

/-! What the operations do to the sets that are there. -/

theorem has_create (kernel : Kernel Key) (key : Key) (semid : Nat) :
    (kernel.create key).Has semid ↔ kernel.Has semid ∨ semid = kernel.next := by
  simp only [Kernel.Has, Kernel.create, List.mem_append, List.mem_singleton]
  constructor
  · rintro ⟨set, old | rfl, same⟩
    · exact Or.inl ⟨set, old, same⟩
    · exact Or.inr same.symm
  · rintro (⟨set, old, same⟩ | rfl)
    · exact ⟨set, Or.inl old, same⟩
    · exact ⟨_, Or.inr rfl, rfl⟩

theorem has_update (kernel : Kernel Key) (semid : Nat) (semval : Nat → Nat) (timed : Bool)
    (other : Nat) : (kernel.update semid semval timed).Has other ↔ kernel.Has other := by
  simp only [Kernel.Has, Kernel.update, List.mem_map]
  constructor
  · rintro ⟨_, ⟨set, member, rfl⟩, same⟩
    refine ⟨set, member, ?_⟩
    split at same <;> exact same
  · rintro ⟨set, member, same⟩
    refine ⟨_, ⟨set, member, rfl⟩, ?_⟩
    split <;> exact same

theorem has_remove (kernel : Kernel Key) (semid other : Nat) :
    (kernel.remove semid).Has other ↔ kernel.Has other ∧ other ≠ semid := by
  simp only [Kernel.Has, Kernel.remove, List.mem_filter, ne_eq, decide_eq_true_eq]
  constructor
  · rintro ⟨set, ⟨member, differ⟩, rfl⟩
    exact ⟨⟨set, member, rfl⟩, differ⟩
  · rintro ⟨⟨set, member, rfl⟩, differ⟩
    exact ⟨set, ⟨member, differ⟩, rfl⟩

theorem timed_create (kernel : Kernel Key) (key : Key) (semid : Nat)
    (timed : (kernel.create key).Timed semid) : kernel.Timed semid := by
  obtain ⟨set, member, same, on⟩ := timed
  rcases List.mem_append.mp member with old | new
  · exact ⟨set, old, same, on⟩
  · rw [List.mem_singleton.mp new] at on
    cases on

theorem timed_update (kernel : Kernel Key) (semid : Nat) (semval : Nat → Nat) (timed : Bool)
    (other : Nat) (now : (kernel.update semid semval timed).Timed other) :
    kernel.Timed other ∨ (other = semid ∧ timed = true) := by
  obtain ⟨_, member, same, on⟩ := now
  obtain ⟨set, there, rfl⟩ := List.mem_map.mp member
  by_cases here : set.semid = semid
  · rw [if_pos here] at same on
    simp only [Bool.or_eq_true] at same on
    rcases on with before | added
    · exact Or.inl ⟨set, there, same, before⟩
    · exact Or.inr ⟨same.symm.trans here, added⟩
  · rw [if_neg here] at same on
    exact Or.inl ⟨set, there, same, on⟩

theorem timed_remove (kernel : Kernel Key) (semid other : Nat)
    (timed : (kernel.remove semid).Timed other) : kernel.Timed other := by
  obtain ⟨set, member, same, on⟩ := timed
  exact ⟨set, (List.mem_filter.mp member).1, same, on⟩

end NetworkProgramming.SemSets
