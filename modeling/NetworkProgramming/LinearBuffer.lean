import Mathlib.Logic.Function.Basic

/-!
A buffer between two pointers: bytes arrive at `iptr` and leave at `optr`, and
both go back to the beginning when the last byte has left. What lies between
them is a queue.
-/

namespace NetworkProgramming.LinearBuffer

variable {Value : Type*}

def store (cells : Nat → Value) (index : Nat) : List Value → Nat → Value
  | [] => cells
  | value :: rest => store (Function.update cells index value) (index + 1) rest

def load (cells : Nat → Value) (index : Nat) : Nat → List Value
  | 0 => []
  | count + 1 => cells index :: load cells (index + 1) count

@[simp] theorem load_length (cells : Nat → Value) (index count : Nat) :
    (load cells index count).length = count := by
  induction count generalizing index with
  | zero => rfl
  | succ count ih => simp [load, ih]

theorem load_add (cells : Nat → Value) (index first second : Nat) :
    load cells index (first + second) =
      load cells index first ++ load cells (index + first) second := by
  induction first generalizing index with
  | zero => simp [load]
  | succ first ih =>
      have shifted : index + (first + 1) = index + 1 + first := by omega
      rw [Nat.add_right_comm, load, load, ih, List.cons_append, shifted]

theorem load_get (cells : Nat → Value) (index count i : Nat) (below : i < count) :
    (load cells index count)[i]? = some (cells (index + i)) := by
  induction count generalizing index i with
  | zero => omega
  | succ count ih =>
      cases i with
      | zero => rfl
      | succ i =>
          rw [load, List.getElem?_cons_succ, ih _ _ (by omega), Nat.add_assoc, Nat.add_comm 1]

theorem load_take (cells : Nat → Value) (index count first : Nat) (within : first ≤ count) :
    (load cells index count).take first = load cells index first := by
  obtain ⟨rest, rfl⟩ := Nat.exists_eq_add_of_le within
  rw [load_add]
  exact List.take_left' (load_length cells index first)

theorem load_drop (cells : Nat → Value) (index count first : Nat) (within : first ≤ count) :
    (load cells index count).drop first = load cells (index + first) (count - first) := by
  obtain ⟨rest, rfl⟩ := Nat.exists_eq_add_of_le within
  rw [load_add, Nat.add_sub_cancel_left]
  exact List.drop_left' (load_length cells index first)

theorem load_eq_iff (cells others : Nat → Value) (index other count : Nat) :
    load cells index count = load others other count ↔
      ∀ i < count, cells (index + i) = others (other + i) := by
  induction count generalizing index other with
  | zero => simp [load]
  | succ count ih =>
      rw [load, load, List.cons.injEq, ih]
      constructor
      · rintro ⟨first, later⟩ i below
        cases i with
        | zero => exact first
        | succ i =>
            have shifted := later i (by omega)
            rwa [Nat.add_assoc, Nat.add_assoc, Nat.add_comm 1 i] at shifted
      · intro all
        refine ⟨all 0 (Nat.zero_lt_succ count), fun i below => ?_⟩
        rw [Nat.add_assoc, Nat.add_assoc, Nat.add_comm 1 i]
        exact all (i + 1) (by omega)

theorem store_append (cells : Nat → Value) (index : Nat) (first second : List Value) :
    store cells index (first ++ second) =
      store (store cells index first) (index + first.length) second := by
  induction first generalizing cells index with
  | nil => rfl
  | cons value first ih =>
      rw [List.cons_append, store, ih, store, List.length_cons, Nat.add_comm first.length,
        Nat.add_assoc]

theorem store_over (cells : Nat → Value) (index : Nat) (old new : Value) (rest : List Value) :
    store (store cells index [old]) index (new :: rest) = store cells index (new :: rest) := by
  rw [store, store, store, store, Function.update_idem]

theorem store_below (cells : Nat → Value) (index : Nat) (values : List Value) (other : Nat)
    (below : other < index) : store cells index values other = cells other := by
  induction values generalizing cells index with
  | nil => rfl
  | cons value rest ih =>
      rw [store, ih _ _ (by omega), Function.update_of_ne (by omega)]

theorem load_store_below (cells : Nat → Value) (index : Nat) (values : List Value)
    (start count : Nat) (below : start + count ≤ index) :
    load (store cells index values) start count = load cells start count := by
  induction count generalizing start with
  | zero => rfl
  | succ count ih =>
      rw [load, load, store_below _ _ _ _ (by omega), ih _ (by omega)]

theorem load_store (cells : Nat → Value) (index : Nat) (values : List Value) :
    load (store cells index values) index values.length = values := by
  induction values generalizing cells index with
  | nil => rfl
  | cons value rest ih =>
      rw [List.length_cons, load, store, ih, store_below _ _ _ _ (by omega), Function.update_self]

theorem load_store_append (cells : Nat → Value) (index : Nat) (values more : List Value) :
    load (store cells index (values ++ more)) index values.length = values := by
  have whole := load_store cells index (values ++ more)
  rw [List.length_append, load_add] at whole
  exact List.append_inj_left whole (load_length _ _ _)

structure Buffer (Value : Type*) where
  cells : Nat → Value
  iptr : Nat
  optr : Nat

namespace Buffer

def fill (b : Buffer Value) (values : List Value) : Buffer Value where
  cells := store b.cells b.iptr values
  iptr := b.iptr + values.length
  optr := b.optr

def drain (b : Buffer Value) (count : Nat) : Buffer Value :=
  if b.optr + count = b.iptr then { b with iptr := 0, optr := 0 }
  else { b with optr := b.optr + count }

def pending (b : Buffer Value) : List Value := load b.cells b.optr (b.iptr - b.optr)

structure WellFormed (size : Nat) (b : Buffer Value) : Prop where
  ordered : b.optr ≤ b.iptr
  within : b.iptr ≤ size

theorem pending_nil_iff {size : Nat} {b : Buffer Value} (formed : b.WellFormed size) :
    b.pending = [] ↔ b.optr = b.iptr := by
  have ordered := formed.ordered
  rw [← List.length_eq_zero_iff, pending, load_length]
  omega

theorem pending_fill {size : Nat} {b : Buffer Value} (formed : b.WellFormed size)
    (values : List Value) : (b.fill values).pending = b.pending ++ values := by
  have ordered := formed.ordered
  have size : b.iptr + values.length - b.optr = (b.iptr - b.optr) + values.length := by omega
  have after : b.optr + (b.iptr - b.optr) = b.iptr := by omega
  simp only [pending, fill]
  rw [size, load_add, load_store_below _ _ _ _ _ (by omega), after, load_store]

theorem fill_formed {size : Nat} {b : Buffer Value} (formed : b.WellFormed size)
    (values : List Value) (room : values.length ≤ size - b.iptr) :
    (b.fill values).WellFormed size := by
  obtain ⟨ordered, within⟩ := formed
  constructor <;> simp only [fill] <;> omega

theorem pending_drain {size : Nat} {b : Buffer Value} (formed : b.WellFormed size) (count : Nat)
    (enough : count ≤ b.iptr - b.optr) :
    b.pending.take count ++ (b.drain count).pending = b.pending := by
  have ordered := formed.ordered
  have parts : b.iptr - b.optr = count + (b.iptr - (b.optr + count)) := by omega
  have whole : b.pending =
      load b.cells b.optr count ++ load b.cells (b.optr + count) (b.iptr - (b.optr + count)) := by
    rw [pending, parts, load_add]
  have rest : (b.drain count).pending =
      load b.cells (b.optr + count) (b.iptr - (b.optr + count)) := by
    rw [drain]
    split
    · rename_i last
      simp [pending, last, load]
    · rfl
  rw [rest, whole]
  congr 1
  exact List.take_left' (load_length _ _ _)

theorem drain_formed {size : Nat} {b : Buffer Value} (formed : b.WellFormed size) (count : Nat)
    (enough : count ≤ b.iptr - b.optr) : (b.drain count).WellFormed size := by
  obtain ⟨ordered, within⟩ := formed
  rw [drain]
  split
  · constructor <;> simp
  · constructor <;> simp only <;> omega

theorem drain_empty_iff (b : Buffer Value) (count : Nat) :
    (b.drain count).optr = (b.drain count).iptr ↔ b.optr + count = b.iptr := by
  rw [drain]
  split
  · rename_i last
    simp [last]
  · rfl

end Buffer

end NetworkProgramming.LinearBuffer
