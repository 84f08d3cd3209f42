import Mathlib.Data.List.Basic

/-!
Calls in turn on one stream. What one side appends frame by frame the other side
takes off frame by frame, if each call finds its frame first and leaves what
follows it.
-/

namespace NetworkProgramming.Framing

variable {Item Input Token Answer Error : Type*}

/-- The answers to `inputs`, up to the first call that stops the program. -/
def inTurn (call : Input → List Token → Except Error (Answer × List Token)) :
    List Input → List Token → Except Error (List Answer × List Token)
  | [], stream => .ok ([], stream)
  | input :: inputs, stream => match call input stream with
      | .error stop => .error stop
      | .ok (answer, left) =>
          (inTurn call inputs left).map fun later => (answer :: later.1, later.2)

theorem in_turn_append (call : Input → List Token → Except Error (Answer × List Token))
    (first second : List Input) (stream middle : List Token) (answers : List Answer)
    (ran : inTurn call first stream = .ok (answers, middle)) :
    inTurn call (first ++ second) stream =
      (inTurn call second middle).map fun later => (answers ++ later.1, later.2) := by
  induction first generalizing stream answers with
  | nil =>
      cases ran
      rw [List.nil_append]
      cases inTurn call second middle <;> rfl
  | cons input inputs ih =>
      rw [List.cons_append, inTurn]
      rw [inTurn] at ran
      cases called : call input stream with
      | error stop => simp [called] at ran
      | ok got =>
          simp only [called] at ran ⊢
          cases tail : inTurn call inputs got.2 with
          | error stop => simp [tail, Except.map] at ran
          | ok later =>
              simp only [tail, Except.map, Except.ok.injEq, Prod.mk.injEq] at ran
              obtain ⟨rfl, rfl⟩ := ran
              rw [ih got.2 later.1 tail]
              cases inTurn call second later.2 <;> rfl

section Frames

variable (call : Input → List Token → Except Error (Answer × List Token))
  (input : Item → Input) (frame : Item → List Token) (answer : Item → Answer)

theorem in_turn_writes (items : List Item) (stream : List Token)
    (writes : ∀ item ∈ items, ∀ before,
      call (input item) before = .ok (answer item, before ++ frame item)) :
    inTurn call (items.map input) stream =
      .ok (items.map answer, stream ++ items.flatMap frame) := by
  induction items generalizing stream with
  | nil => simp [inTurn]
  | cons item items ih =>
      have now := writes item List.mem_cons_self stream
      have later := ih (stream ++ frame item)
        fun other member => writes other (List.mem_cons_of_mem item member)
      rw [List.map_cons, inTurn, now]
      simp only [later, Except.map, List.map_cons, List.flatMap_cons, List.append_assoc]

theorem in_turn_reads (items : List Item) (rest : List Token)
    (reads : ∀ item ∈ items, ∀ left,
      call (input item) (frame item ++ left) = .ok (answer item, left)) :
    inTurn call (items.map input) (items.flatMap frame ++ rest) =
      .ok (items.map answer, rest) := by
  induction items with
  | nil => rfl
  | cons item items ih =>
      have now := reads item List.mem_cons_self (items.flatMap frame ++ rest)
      have later := ih fun other member => reads other (List.mem_cons_of_mem item member)
      rw [List.map_cons, List.flatMap_cons, List.append_assoc, inTurn, now]
      simp only [later, Except.map, List.map_cons]

/-- Where the calls for the other frames stop the program, every frame read is a
good one. -/
theorem in_turn_reads_iff (good : Item → Prop) (items : List Item) (rest : List Token)
    (reads : ∀ item ∈ items, good item → ∀ left,
      call (input item) (frame item ++ left) = .ok (answer item, left))
    (stops : ∀ item ∈ items, ¬ good item → ∀ left,
      ∃ stop, call (input item) (frame item ++ left) = .error stop) :
    inTurn call (items.map input) (items.flatMap frame ++ rest) =
        .ok (items.map answer, rest) ↔ ∀ item ∈ items, good item := by
  constructor
  · intro ran
    induction items with
    | nil => exact List.forall_mem_nil _
    | cons item items ih =>
        rw [List.map_cons, List.flatMap_cons, List.append_assoc, inTurn] at ran
        have fine : good item := by
          by_contra bad
          obtain ⟨stop, stopped⟩ := stops item List.mem_cons_self bad (items.flatMap frame ++ rest)
          simp [stopped] at ran
        rw [reads item List.mem_cons_self fine] at ran
        refine List.forall_mem_cons.mpr ⟨fine, ih
          (fun other member => reads other (List.mem_cons_of_mem item member))
          (fun other member => stops other (List.mem_cons_of_mem item member)) ?_⟩
        cases tail : inTurn call (items.map input) (items.flatMap frame ++ rest) with
        | error stop => simp [tail, Except.map] at ran
        | ok later =>
            simp only [tail, Except.map, List.map_cons, Except.ok.injEq, Prod.mk.injEq,
              List.cons.injEq] at ran
            obtain ⟨⟨-, same⟩, left⟩ := ran
            exact congrArg Except.ok (Prod.ext same left)
  · intro all
    exact in_turn_reads call input frame answer items rest
      fun item member => reads item member (all item member)

end Frames

end NetworkProgramming.Framing
