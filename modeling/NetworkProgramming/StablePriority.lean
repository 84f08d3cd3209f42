import Mathlib.Data.List.Sort

/-!
Stable priority queues. The ideal queue is a list in order of arrival: an item
is inserted at the end, and the oldest among those of highest rank is removed.
A list kept in order of falling rank represents it as long as both list the
items of each rank in the same order.
-/

namespace NetworkProgramming.StablePriority

variable {Item Rank : Type*} [LinearOrder Rank] (rank : Item → Rank)

/-- The oldest item that none outranks. -/
def oldest (queue : List Item) : Option Item :=
  queue.find? fun item => decide (∀ other ∈ queue, rank other ≤ rank item)

/-- Before the first item of lower rank. -/
def insert (stored : List Item) (item : Item) : List Item :=
  stored.orderedInsert (fun a b => rank b < rank a) item

theorem insert_first (first item : Item) (rest : List Item) (outranks : rank first < rank item) :
    insert rank (first :: rest) item = item :: first :: rest :=
  List.orderedInsert_cons_of_le (fun a b => rank b < rank a) rest outranks

theorem insert_later (first item : Item) (rest : List Item)
    (outranked : ¬ rank first < rank item) :
    insert rank (first :: rest) item = first :: insert rank rest item :=
  List.orderedInsert_of_not_le (fun a b => rank b < rank a) rest outranked

theorem insert_between (front back : List Item) (item : Item)
    (before : ∀ other ∈ front, ¬ rank other < rank item)
    (behind : ∀ other ∈ back, rank other < rank item) :
    insert rank (front ++ back) item = front ++ item :: back := by
  induction front with
  | nil =>
      cases back with
      | nil => rfl
      | cons other rest => exact insert_first rank other item rest (behind other List.mem_cons_self)
  | cons other front ih =>
      rw [List.cons_append, insert_later rank other item _ (before other List.mem_cons_self),
        ih fun more member => before more (List.mem_cons_of_mem other member), List.cons_append]

theorem mem_insert_iff (stored : List Item) (item other : Item) :
    other ∈ insert rank stored item ↔ other = item ∨ other ∈ stored :=
  List.mem_orderedInsert _

theorem insert_perm (stored : List Item) (item : Item) :
    (insert rank stored item).Perm (item :: stored) :=
  List.perm_orderedInsert _ item stored

theorem map_insert {Other : Type*} (other : Other → Rank) (f : Item → Other)
    (stored : List Item) (item : Item) (same : ∀ a ∈ item :: stored, other (f a) = rank a) :
    (insert rank stored item).map f = insert other (stored.map f) (f item) := by
  apply List.map_orderedInsert
  · intro a member
    rw [same a (List.mem_cons_of_mem item member), same item (by simp)]
  · intro a member
    rw [same a (List.mem_cons_of_mem item member), same item (by simp)]

structure Represents (stored queue : List Item) : Prop where
  sorted : stored.Pairwise fun a b => rank b ≤ rank a
  same : ∀ r, stored.filter (fun item => decide (rank item = r)) =
    queue.filter fun item => decide (rank item = r)

theorem insert_pairwise {R : Item → Item → Prop} (stored : List Item) (item : Item)
    (sorted : stored.Pairwise fun a b => rank b ≤ rank a) (order : stored.Pairwise R)
    (before : ∀ other ∈ stored, ¬ rank other < rank item → R other item)
    (behind : ∀ other ∈ stored, rank other < rank item → R item other) :
    (insert rank stored item).Pairwise R := by
  induction stored with
  | nil => simp [insert]
  | cons first rest ih =>
      obtain ⟨top, tail⟩ := List.pairwise_cons.mp sorted
      obtain ⟨ahead, order'⟩ := List.pairwise_cons.mp order
      by_cases outranks : rank first < rank item
      · rw [insert_first rank first item rest outranks, List.pairwise_cons]
        refine ⟨?_, order⟩
        intro other member
        apply behind other member
        rcases List.mem_cons.mp member with rfl | later
        · exact outranks
        · exact (top other later).trans_lt outranks
      · rw [insert_later rank first item rest outranks, List.pairwise_cons]
        refine ⟨?_, ih tail order' (fun other member => before other (List.mem_cons_of_mem _ member))
          fun other member => behind other (List.mem_cons_of_mem _ member)⟩
        intro other member
        rcases (mem_insert_iff rank rest item other).mp member with rfl | later
        · exact before first List.mem_cons_self outranks
        · exact ahead other later

theorem sorted_insert (stored : List Item) (item : Item)
    (sorted : stored.Pairwise fun a b => rank b ≤ rank a) :
    (insert rank stored item).Pairwise fun a b => rank b ≤ rank a :=
  insert_pairwise rank stored item sorted sorted (fun _ _ => not_lt.mp) fun _ _ => le_of_lt

/-- Among the items of one rank the new one comes last. -/
theorem filter_insert (stored : List Item) (item : Item) (r : Rank)
    (sorted : stored.Pairwise fun a b => rank b ≤ rank a) :
    (insert rank stored item).filter (fun other => decide (rank other = r)) =
      (stored ++ [item]).filter fun other => decide (rank other = r) := by
  induction stored with
  | nil => rfl
  | cons first rest ih =>
      obtain ⟨top, tail⟩ := List.pairwise_cons.mp sorted
      by_cases outranks : rank first < rank item
      · rw [insert_first rank first item rest outranks, List.filter_append]
        by_cases chosen : rank item = r
        · have lower : (first :: rest).filter (fun other => decide (rank other = r)) = [] := by
            rw [List.filter_eq_nil_iff]
            intro other member
            have below : rank other < r := by
              rcases List.mem_cons.mp member with rfl | later
              · exact chosen ▸ outranks
              · exact chosen ▸ (top other later).trans_lt outranks
            simpa using below.ne
          rw [List.filter_cons_of_pos (by simpa using chosen), lower]
          simp [chosen]
        · rw [List.filter_cons_of_neg (by simpa using chosen)]
          simp [chosen]
      · rw [insert_later rank first item rest outranks, List.cons_append, List.filter_cons,
          List.filter_cons, ih tail]

/-- Lists that have the items of each rank in the same order have the same items. -/
theorem perm_of_filter [DecidableEq Item] (first second : List Item)
    (same : ∀ r, first.filter (fun item => decide (rank item = r)) =
      second.filter fun item => decide (rank item = r)) : first.Perm second := by
  rw [List.perm_iff_count]
  intro item
  have here (items : List Item) :
      (items.filter fun other => decide (rank other = rank item)).count item = items.count item :=
    List.count_filter (by simp)
  rw [← here first, same, here]

theorem represents_nil : Represents rank [] [] := ⟨List.Pairwise.nil, fun _ => rfl⟩

theorem represents_insert (stored queue : List Item) (item : Item)
    (held : Represents rank stored queue) :
    Represents rank (insert rank stored item) (queue ++ [item]) := by
  refine ⟨sorted_insert rank stored item held.sorted, ?_⟩
  intro r
  rw [filter_insert rank stored item r held.sorted, List.filter_append, List.filter_append,
    held.same]

theorem represents_mem_iff (stored queue : List Item) (held : Represents rank stored queue)
    (item : Item) : item ∈ stored ↔ item ∈ queue := by
  have here := congrArg (item ∈ ·) (held.same (rank item))
  simpa using here

/-- The first stored item is the one the ideal queue removes. -/
theorem represents_oldest (item : Item) (rest queue : List Item)
    (held : Represents rank (item :: rest) queue) : oldest rank queue = some item := by
  have highest : ∀ other ∈ queue, rank other ≤ rank item := by
    intro other member
    have stored := (represents_mem_iff rank _ queue held other).mpr member
    rcases List.mem_cons.mp stored with rfl | later
    · exact le_refl _
    · exact (List.pairwise_cons.mp held.sorted).1 other later
  have present : item ∈ queue := (represents_mem_iff rank _ queue held item).mp (by simp)
  -- what no stored item outranks is what has the rank of the first one
  have top : queue.filter (fun other => decide (∀ b ∈ queue, rank b ≤ rank other)) =
      queue.filter fun other => decide (rank other = rank item) := by
    apply List.filter_congr
    intro other member
    rw [decide_eq_decide]
    constructor
    · intro unbeaten
      exact le_antisymm (highest other member) (unbeaten item present)
    · intro equal b inside
      exact equal ▸ highest b inside
  rw [oldest, ← List.head?_filter, top, ← held.same, List.filter_cons_of_pos (by simp)]
  rfl

theorem represents_remove [DecidableEq Item] (item : Item) (rest queue : List Item)
    (held : Represents rank (item :: rest) queue) : Represents rank rest (queue.erase item) := by
  refine ⟨(List.pairwise_cons.mp held.sorted).2, ?_⟩
  intro r
  rw [← List.erase_filter, ← held.same, List.filter_cons]
  split
  · simp
  · rename_i other
    rw [List.erase_of_not_mem]
    simp only [List.mem_filter, not_and]
    exact fun _ => other

end NetworkProgramming.StablePriority
