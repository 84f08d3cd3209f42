import Mathlib.Data.List.Basic

/-!
Doubly linked lists as two walks over the same cells, one from each end. A walk
is put on another way by the last cell before the change, or by its start if
there is none; with the ends exchanged that is the same for both links.
-/

namespace NetworkProgramming.DoublyLinked

variable {Node : Type*} {link next : Node → Option Node} {start start' last : Option Node}

/-- From a pointer the link leads through the cells in order, and then to `last`. -/
def Walk (link : Node → Option Node) : Option Node → List Node → Option Node → Prop
  | p, [], last => p = last
  | p, x :: rest, last => p = some x ∧ Walk link (link x) rest last

def cells (link : Node → Option Node) : Nat → Option Node → List Node
  | 0, _ | _ + 1, none => []
  | turns + 1, some x => x :: cells link turns (link x)

theorem cells_walk (list : List Node) (turns : Nat) (enough : list.length ≤ turns)
    (walk : Walk link start list none) : cells link turns start = list := by
  induction list generalizing turns start with
  | nil =>
      rw [show start = none from walk]
      cases turns <;> rfl
  | cons x list ih =>
      obtain ⟨rfl, walk⟩ := walk
      obtain ⟨turns, rfl⟩ : ∃ n, turns = n + 1 := ⟨turns - 1, by simp at enough; omega⟩
      rw [cells, ih turns (by simpa using enough) walk]

theorem walk_append (front back : List Node) :
    Walk link start (front ++ back) last ↔
      ∃ middle, Walk link start front middle ∧ Walk link middle back last := by
  induction front generalizing start with
  | nil => simp [Walk]
  | cons x front ih =>
      rw [List.cons_append, Walk, ih]
      constructor
      · rintro ⟨here, middle, before, behind⟩
        exact ⟨middle, ⟨here, before⟩, behind⟩
      · rintro ⟨middle, ⟨here, before⟩, behind⟩
        exact ⟨here, middle, before, behind⟩

theorem walk_start (cells : List Node) (walk : Walk link start cells none) :
    start = cells.head? := by
  cases cells with
  | nil => exact walk
  | cons x rest => exact walk.1

theorem walk_unique (first second : List Node) (one : Walk link start first none)
    (other : Walk link start second none) : first = second := by
  induction first generalizing start second with
  | nil =>
      cases second with
      | nil => rfl
      | cons y second =>
          rw [show start = none from one] at other
          cases other.1
  | cons x first ih =>
      obtain ⟨rfl, one⟩ := one
      cases second with
      | nil => cases other
      | cons y second =>
          obtain ⟨same, other⟩ := other
          obtain rfl := Option.some.inj same
          rw [ih second one other]

theorem walk_frame (cells : List Node) (kept : ∀ x ∈ cells, next x = link x)
    (walk : Walk link start cells last) : Walk next start cells last := by
  induction cells generalizing start with
  | nil => exact walk
  | cons x rest ih =>
      refine ⟨walk.1, ?_⟩
      rw [kept x List.mem_cons_self]
      exact ih (fun y member => kept y (List.mem_cons_of_mem x member)) walk.2

theorem walk_push (cells : List Node) (x : Node) (onward : next x = start)
    (kept : ∀ y ∈ cells, next y = link y) (walk : Walk link start cells last) :
    Walk next (some x) (x :: cells) last := by
  refine ⟨rfl, ?_⟩
  rw [onward]
  exact walk_frame cells kept walk

structure Redirected (link next : Node → Option Node) (start start' : Option Node)
    (cells : List Node) (last : Option Node) : Prop where
  empty : cells = [] → start' = last
  some_ : cells ≠ [] → start' = start
  ends : ∀ z, cells.getLast? = some z → next z = last
  kept : ∀ y ∈ cells, cells.getLast? ≠ some y → next y = link y

theorem walk_redirected (cells : List Node) (last' : Option Node) (distinct : cells.Nodup)
    (redirected : Redirected link next start start' cells last')
    (walk : Walk link start cells last) : Walk next start' cells last' := by
  induction cells generalizing start start' with
  | nil => exact redirected.empty rfl
  | cons x rest ih =>
      obtain ⟨absent, distinct⟩ := List.nodup_cons.mp distinct
      refine ⟨(redirected.some_ (List.cons_ne_nil x rest)).trans walk.1, ih distinct ?_ walk.2⟩
      constructor
      · rintro rfl
        exact redirected.ends x rfl
      · intro more
        apply redirected.kept x List.mem_cons_self
        rw [List.getLast?_cons_of_ne_nil more]
        intro here
        exact absent (List.mem_of_getLast? here)
      · intro z here
        have more : rest ≠ [] := by
          rintro rfl
          cases here
        exact redirected.ends z (by rwa [List.getLast?_cons_of_ne_nil more])
      · intro y member other
        have more : rest ≠ [] := List.ne_nil_of_mem member
        exact redirected.kept y (List.mem_cons_of_mem x member)
          (by rwa [List.getLast?_cons_of_ne_nil more])

theorem walk_splice (front back : List Node) (x : Node) (distinct : front.Nodup)
    (redirected : Redirected link next start start' front (some x))
    (onward : next x = back.head?) (kept : ∀ y ∈ back, next y = link y)
    (walk : Walk link start (front ++ back) none) :
    Walk next start' (front ++ x :: back) none := by
  obtain ⟨middle, before, behind⟩ := (walk_append front back).mp walk
  refine (walk_append front (x :: back)).mpr
    ⟨some x, walk_redirected front (some x) distinct redirected before, rfl, ?_⟩
  rw [onward, ← walk_start back behind]
  exact walk_frame back kept behind

structure Patched (link next : Node → Option Node) (start start' : Option Node) (x : Node)
    (before after : Option Node) : Prop where
  first : before = none → start' = some x
  first_kept : before ≠ none → start' = start
  inward : ∀ z, before = some z → next z = some x
  onward : next x = after
  kept : ∀ y, y ≠ x → before ≠ some y → next y = link y

theorem walk_patched (front back : List Node) (x : Node)
    (patched : Patched link next start start' x front.getLast? back.head?)
    (distinct : (front ++ back).Nodup) (new : x ∉ front ++ back)
    (walk : Walk link start (front ++ back) none) :
    Walk next start' (front ++ x :: back) none := by
  obtain ⟨unique, -, apart⟩ := List.nodup_append.mp distinct
  rw [List.mem_append, not_or] at new
  refine walk_splice front back x unique ⟨?_, ?_, patched.inward, ?_⟩ patched.onward ?_ walk
  · rintro rfl
    exact patched.first rfl
  · intro some_
    exact patched.first_kept (mt List.getLast?_eq_none_iff.mp some_)
  · intro y member other
    refine patched.kept y ?_ other
    rintro rfl
    exact new.1 member
  · intro y member
    refine patched.kept y ?_ fun here => apart y (List.mem_of_getLast? here) y member rfl
    rintro rfl
    exact new.2 member

theorem walk_cut (front back : List Node) (distinct : front.Nodup)
    (redirected : Redirected link next start start' front none)
    (walk : Walk link start (front ++ back) none) : Walk next start' front none := by
  obtain ⟨middle, before, -⟩ := (walk_append front back).mp walk
  exact walk_redirected front none distinct redirected before

theorem walk_drop (front back : List Node) (x : Node) (distinct : front.Nodup)
    (redirected : Redirected link next start start' front (link x))
    (kept : ∀ y ∈ back, next y = link y)
    (walk : Walk link start (front ++ x :: back) none) :
    Walk next start' (front ++ back) none := by
  obtain ⟨middle, before, -, behind⟩ := (walk_append front (x :: back)).mp walk
  exact (walk_append front back).mpr
    ⟨link x, walk_redirected front (link x) distinct redirected before,
      walk_frame back kept behind⟩

/-- The cells from the head to the tail: `prev` leads from the head, `next` from the
tail. -/
structure Linked (next prev : Node → Option Node) (head tail : Option Node)
    (cells : List Node) : Prop where
  forward : Walk prev head cells none
  backward : Walk next tail cells.reverse none
  distinct : cells.Nodup

theorem Linked.ends {prev : Node → Option Node} {head tail : Option Node} {cells : List Node}
    (linked : Linked next prev head tail cells) :
    head = cells.head? ∧ tail = cells.getLast? := by
  refine ⟨walk_start cells linked.forward, ?_⟩
  rw [walk_start cells.reverse linked.backward, List.head?_reverse]

theorem linked_nil (next prev : Node → Option Node) : Linked next prev none none [] :=
  ⟨rfl, rfl, List.nodup_nil⟩

end NetworkProgramming.DoublyLinked
