import Mathlib.Data.Fintype.Card
import Mathlib.Data.Fintype.Sets
import Mathlib.Data.List.TakeWhile
import NetworkProgramming.DoublyLinked
import NetworkProgramming.Machine
import NetworkProgramming.StablePriority

/-!
The playback queue of rtpqueue.c. rln_next leads to the packet with the next lower
sequence number and ends at stm_qhead, rln_prev to the next greater one and ends at
stm_qtail; packets are taken at the head, and the place of a new one is searched
from the tail. A packet stands for its address.
-/

namespace NetworkProgramming.RtpQueue

open DoublyLinked

variable {Node : Type*} [DecidableEq Node]

/-- The fields of struct rtpln that the queue uses, for every packet, and the ends. -/
structure Queue (Node : Type*) where
  rlnSeq : Node → UInt32
  rlnNext : Node → Option Node
  rlnPrev : Node → Option Node
  stmQhead : Option Node
  stmQtail : Option Node

namespace Queue

def setNext (s : Queue Node) (p : Node) (q : Option Node) : Queue Node :=
  { s with rlnNext := Function.update s.rlnNext p q }

def setPrev (s : Queue Node) (p : Node) (q : Option Node) : Queue Node :=
  { s with rlnPrev := Function.update s.rlnPrev p q }

end Queue

def rtpqdequeue (s : Queue Node) : Queue Node × Option Node :=
  match s.stmQhead with
  | none => (s, none)
  | some pln =>
      match s.rlnPrev pln with
      | some p => ({ s with stmQhead := some p }.setNext p none, some pln)
      | none => ({ s with stmQtail := none, stmQhead := none }, some pln)

/-- The for loop, as long as it takes `turns` at most: `q` and `p` at its end. -/
def search (s : Queue Node) (seq : UInt32) :
    Nat → Option Node → Option Node → Option (Option Node × Option Node)
  | 0, _, _ => none
  | _ + 1, q, none => some (q, none)
  | turns + 1, q, some p =>
      if seq < s.rlnSeq p then search s seq turns (some p) (s.rlnNext p) else some (q, some p)

def splice (s : Queue Node) (pln : Node) (q p : Option Node) : Queue Node :=
  let s := match q with
    | some q => s.setNext q (some pln)
    | none => { s with stmQtail := some pln }
  let s := s.setPrev pln q
  let s := match p with
    | some p => s.setPrev p (some pln)
    | none => { s with stmQhead := some pln }
  s.setNext pln p

def rtpqinsert [Fintype Node] (s : Queue Node) (pln : Node) : Option (Queue Node × Bool) :=
  (search s (s.rlnSeq pln) (Fintype.card Node + 1) none s.stmQtail).map fun r =>
    let s := splice s pln r.1 r.2
    (s, decide (some pln = s.stmQhead))

/-- The caller has set rln_seq before it inserts a packet. -/
inductive Call (Node : Type*) where
  | insert (pln : Node) (seq : UInt32)
  | dequeue
  deriving DecidableEq

inductive Answer (Node : Type*) where
  | inserted (head : Bool)
  | dequeued (pln : Option Node)
  deriving DecidableEq

def step [Fintype Node] (s : Queue Node) : Call Node → Option (Queue Node × Answer Node)
  | .insert pln seq =>
      let s := { s with rlnSeq := Function.update s.rlnSeq pln seq }
      (rtpqinsert s pln).map fun r => (r.1, .inserted r.2)
  | .dequeue => some ((rtpqdequeue s).1, .dequeued (rtpqdequeue s).2)

abbrev Step (Node : Type*) := Transition (Queue Node) (Call Node) (Answer Node)

def machine (Node : Type*) [DecidableEq Node] [Fintype Node] :
    Machine (Queue Node) (Call Node) (Answer Node) where
  start s := s.stmQhead = none ∧ s.stmQtail = none
  step := step

def Holds (s : Queue Node) (cells : List Node) : Prop :=
  Linked s.rlnNext s.rlnPrev s.stmQhead s.stmQtail cells

theorem splice_seq (s : Queue Node) (pln : Node) (q p : Option Node) :
    (splice s pln q p).rlnSeq = s.rlnSeq := by
  cases q <;> cases p <;> rfl

theorem splice_head (s : Queue Node) (pln : Node) (q p : Option Node) :
    (splice s pln q p).stmQhead = if p = none then some pln else s.stmQhead := by
  cases q <;> cases p <;> rfl

theorem splice_prev (s : Queue Node) (pln : Node) (q p : Option Node) (other : p ≠ some pln) :
    Patched s.rlnPrev (splice s pln q p).rlnPrev s.stmQhead (splice s pln q p).stmQhead pln p q := by
  rw [splice_head]
  have prevs : (splice s pln q p).rlnPrev =
      match p with
      | some p => Function.update (Function.update s.rlnPrev pln q) p (some pln)
      | none => Function.update s.rlnPrev pln q := by
    cases q <;> cases p <;> rfl
  rw [prevs]
  cases p with
  | none => exact ⟨fun _ => rfl, fun some_ => absurd rfl some_, by rintro _ ⟨⟩, by simp,
      fun y new _ => by simp [new]⟩
  | some p =>
      have apart : pln ≠ p := fun same => other (by rw [same])
      refine ⟨by rintro ⟨⟩, fun _ => rfl, ?_, by simp [apart], ?_⟩
      · rintro z ⟨⟩
        simp
      · intro y new old
        have away : y ≠ p := fun same => old (by rw [same])
        simp [new, away]

theorem splice_next (s : Queue Node) (pln : Node) (q p : Option Node) (other : q ≠ some pln) :
    Patched s.rlnNext (splice s pln q p).rlnNext s.stmQtail (splice s pln q p).stmQtail pln q p := by
  have tails : (splice s pln q p).stmQtail = if q = none then some pln else s.stmQtail := by
    cases q <;> cases p <;> rfl
  have nexts : (splice s pln q p).rlnNext =
      Function.update (match q with
        | some q => Function.update s.rlnNext q (some pln)
        | none => s.rlnNext) pln p := by
    cases q <;> cases p <;> rfl
  rw [tails, nexts]
  cases q with
  | none => exact ⟨fun _ => rfl, fun some_ => absurd rfl some_, by rintro _ ⟨⟩, by simp,
      fun y new _ => by simp [new]⟩
  | some q =>
      have apart : q ≠ pln := fun same => other (by rw [same])
      refine ⟨by rintro ⟨⟩, fun _ => rfl, ?_, by simp, ?_⟩
      · rintro z ⟨⟩
        simp [apart]
      · intro y new old
        have away : y ≠ q := fun same => old (by rw [same])
        simp [new, away]

theorem holds_splice (s : Queue Node) (lows highs : List Node) (pln : Node)
    (new : pln ∉ lows ++ highs) (held : Holds s (lows ++ highs)) :
    Holds (splice s pln highs.head? lows.getLast?) (lows ++ pln :: highs) := by
  have low : lows.getLast? ≠ some pln := fun here =>
    new (List.mem_append_left _ (List.mem_of_getLast? here))
  have high : highs.head? ≠ some pln := fun here =>
    new (List.mem_append_right _ (List.mem_of_head? here))
  obtain ⟨forward, backward, distinct⟩ := held
  rw [List.reverse_append] at backward
  refine ⟨?_, ?_, ?_⟩
  · exact walk_patched lows highs pln (splice_prev s pln _ _ low) distinct new forward
  · -- the same from the tail, with the two parts exchanged
    have upside := walk_patched highs.reverse lows.reverse pln
      (by simpa using splice_next s pln _ _ high)
      (by simpa only [← List.reverse_append, List.nodup_reverse] using distinct)
      (by simpa [and_comm] using new) backward
    simpa using upside
  · exact List.nodup_middle.mpr (List.nodup_cons.mpr ⟨new, distinct⟩)

omit [DecidableEq Node] in
theorem search_found (s : Queue Node) (seq : UInt32) (down : List Node) (turns : Nat)
    (q start : Option Node) (walk : Walk s.rlnNext start down none) (enough : down.length < turns) :
    search s seq turns q start =
      some ((down.takeWhile fun p => decide (seq < s.rlnSeq p)).getLast?.or q,
        (down.dropWhile fun p => decide (seq < s.rlnSeq p)).head?) := by
  induction down generalizing turns q start with
  | nil =>
      obtain ⟨turns, rfl⟩ := Nat.exists_eq_add_of_lt enough
      obtain rfl : start = none := walk
      simp [search]
  | cons x down ih =>
      obtain ⟨turns, rfl⟩ : ∃ n, turns = n + 1 := ⟨turns - 1, by omega⟩
      obtain ⟨rfl, walk⟩ := walk
      rw [List.length_cons] at enough
      rw [search]
      by_cases greater : seq < s.rlnSeq x
      · rw [if_pos greater, ih turns (some x) _ walk (by omega),
          List.takeWhile_cons_of_pos (by simpa using greater),
          List.dropWhile_cons_of_pos (by simpa using greater), List.getLast?_cons]
        cases (down.takeWhile fun p => decide (seq < s.rlnSeq p)).getLast? <;> rfl
      · rw [if_neg greater, List.takeWhile_cons_of_neg (by simpa using greater),
          List.dropWhile_cons_of_neg (by simpa using greater)]
        rfl

/-! The queue is a stable priority queue in which low numbers come first. -/

def rank (seq : UInt32) : ℕᵒᵈ := OrderDual.toDual seq.toNat

theorem rank_lt (m n : UInt32) : rank m < rank n ↔ n < m := UInt32.lt_iff_toNat_lt.symm

theorem rank_le (m n : UInt32) : rank m ≤ rank n ↔ n ≤ m := UInt32.le_iff_toNat_le.symm

theorem rank_inj (m n : UInt32) : rank m = rank n ↔ m = n := by
  rw [rank, rank, OrderDual.toDual_inj, UInt32.toNat_inj]

/-- From the head to the tail the numbers do not fall. -/
def Ordered (s : Queue Node) (cells : List Node) : Prop :=
  cells.Pairwise fun p q => rank (s.rlnSeq q) ≤ rank (s.rlnSeq p)

omit [DecidableEq Node] in
theorem search_place (s : Queue Node) (seq : UInt32) (cells : List Node) (turns : Nat)
    (held : Holds s cells) (ordered : Ordered s cells) (enough : cells.length < turns) :
    ∃ lows highs, cells = lows ++ highs ∧
      search s seq turns none s.stmQtail = some (highs.head?, lows.getLast?) ∧
      (∀ p ∈ lows, ¬ seq < s.rlnSeq p) ∧ ∀ p ∈ highs, seq < s.rlnSeq p := by
  have found := search_found s seq cells.reverse turns none s.stmQtail held.backward
    (by rwa [List.length_reverse])
  have parts : cells.reverse = cells.reverse.takeWhile (fun p => decide (seq < s.rlnSeq p)) ++
      cells.reverse.dropWhile fun p => decide (seq < s.rlnSeq p) :=
    List.takeWhile_append_dropWhile.symm
  have above : ∀ p ∈ cells.reverse.takeWhile fun p => decide (seq < s.rlnSeq p),
      seq < s.rlnSeq p := fun p member => by simpa using List.mem_takeWhile_imp member
  have first := List.head?_dropWhile_not (fun p => decide (seq < s.rlnSeq p)) cells.reverse
  generalize cells.reverse.takeWhile (fun p => decide (seq < s.rlnSeq p)) = high
    at found parts above
  generalize cells.reverse.dropWhile (fun p => decide (seq < s.rlnSeq p)) = low
    at found parts first
  have whole : cells = low.reverse ++ high.reverse := by
    rw [← List.reverse_append, ← parts, List.reverse_reverse]
  refine ⟨low.reverse, high.reverse, whole, ?_, ?_, ?_⟩
  · rw [found, List.head?_reverse, List.getLast?_reverse, Option.or_none]
  · intro p member
    rw [List.mem_reverse] at member
    cases low with
    | nil => cases member
    | cons z low =>
        -- no lower packet has a greater number than the first one that stops the loop
        have top : ¬ seq < s.rlnSeq z := by simpa using first
        rcases List.mem_cons.mp member with rfl | later
        · exact top
        · rw [Ordered, whole, List.reverse_cons, List.append_assoc, List.pairwise_append] at ordered
          have below := (rank_le _ _).mp
            (ordered.2.2 p (List.mem_reverse.mpr later) z (by simp))
          exact fun greater => top (UInt32.lt_of_lt_of_le greater below)
  · intro p member
    exact above p (List.mem_reverse.mp member)

theorem rtpqinsert_held [Fintype Node] (s : Queue Node) (pln : Node) (cells : List Node)
    (held : Holds s cells) (ordered : Ordered s cells) (new : pln ∉ cells) :
    ∃ after, rtpqinsert s pln = some (after, decide (some pln = after.stmQhead)) ∧
      after.rlnSeq = s.rlnSeq ∧
      Holds after (StablePriority.insert (fun p => rank (s.rlnSeq p)) cells pln) := by
  have enough : cells.length < Fintype.card Node + 1 :=
    Nat.lt_succ_of_le (List.Nodup.length_le_card held.distinct)
  obtain ⟨lows, highs, rfl, found, low, high⟩ :=
    search_place s (s.rlnSeq pln) cells _ held ordered enough
  refine ⟨splice s pln highs.head? lows.getLast?, by rw [rtpqinsert, found]; rfl,
    splice_seq s pln _ _, ?_⟩
  rw [StablePriority.insert_between (fun p => rank (s.rlnSeq p)) lows highs pln
    (fun p member => by simpa only [rank_lt] using low p member)
    (fun p member => by simpa only [rank_lt] using high p member)]
  exact holds_splice s lows highs pln new held

theorem rtpqdequeue_empty (s : Queue Node) (held : Holds s []) : rtpqdequeue s = (s, none) := by
  have head : s.stmQhead = none := held.forward
  rw [rtpqdequeue, head]

theorem rtpqdequeue_first (s : Queue Node) (pln : Node) (cells : List Node)
    (held : Holds s (pln :: cells)) :
    ∃ after, rtpqdequeue s = (after, some pln) ∧ after.rlnSeq = s.rlnSeq ∧ Holds after cells := by
  obtain ⟨⟨head, forward⟩, backward, distinct⟩ := held
  obtain ⟨absent, distinct⟩ := List.nodup_cons.mp distinct
  rw [List.reverse_cons] at backward
  have onward := walk_start cells forward
  cases cells with
  | nil =>
      refine ⟨{ s with stmQtail := none, stmQhead := none }, ?_, rfl, linked_nil _ _⟩
      rw [rtpqdequeue, head]
      simp only [onward, List.head?_nil]
  | cons p cells =>
      refine ⟨{ s with stmQhead := some p }.setNext p none, ?_, rfl, ?_, ?_, distinct⟩
      · rw [rtpqdequeue, head]
        simp only [onward, List.head?_cons]
      · rwa [onward] at forward
      · refine walk_cut _ [pln] (List.nodup_reverse.mpr distinct) ⟨?_, fun _ => rfl, ?_, ?_⟩ backward
        · intro empty
          simp at empty
        · intro z last
          obtain rfl : p = z := by simpa using last
          exact Function.update_self _ _ _
        · intro y member other
          have away : y ≠ p := by
            rintro rfl
            simp at other
          exact Function.update_of_ne away _ _

/-! Runs. A packet may come back after it has been dequeued, with another number. -/

variable [Fintype Node]

abbrev Packet (Node : Type*) := Node × UInt32

def Queue.packet (s : Queue Node) (p : Node) : Packet Node := (p, s.rlnSeq p)

def inserted (trace : List (Step Node)) : List (Packet Node) :=
  trace.filterMap fun e => match e.action with
    | .insert pln seq => some (pln, seq)
    | .dequeue => none

def dequeued (trace : List (Step Node)) : List (Packet Node) :=
  trace.filterMap fun e => match e.output with
    | .dequeued (some pln) => some (e.before.packet pln)
    | .dequeued none | .inserted _ => none

def inside (trace : List (Step Node)) : List Node :=
  trace.foldl (fun packets e => match e.action, e.output with
    | .insert pln _, _ => pln :: packets
    | .dequeue, .dequeued (some pln) => packets.erase pln
    | .dequeue, _ => packets) []

def Call.New (packets : List Node) : Call Node → Prop
  | .insert pln _ => pln ∉ packets
  | .dequeue => True

instance (packets : List Node) : (call : Call Node) → Decidable (call.New packets)
  | .insert pln _ => inferInstanceAs (Decidable (pln ∉ packets))
  | .dequeue => inferInstanceAs (Decidable True)

def AllNew (steps : List (Step Node)) : Prop :=
  ∀ k (below : k < steps.length), steps[k].action.New (inside (steps.take k))

instance (steps : List (Step Node)) : Decidable (AllNew steps) :=
  inferInstanceAs (Decidable (∀ k (_ : k < steps.length), _))

structure Kept (trace : List (Step Node)) (s : Queue Node) (cells : List Node) : Prop where
  held : Holds s cells
  ordered : Ordered s cells
  fifo : ∀ r, (dequeued trace ++ cells.map s.packet).filter (fun p => decide (rank p.2 = r)) =
    (inserted trace).filter fun p => decide (rank p.2 = r)
  inside : (inside trace).Perm cells

theorem kept_start (s : Queue Node) (first : (machine Node).start s) : Kept [] s [] := by
  obtain ⟨head, tail⟩ := first
  refine ⟨?_, List.Pairwise.nil, fun _ => rfl, List.Perm.refl []⟩
  rw [Holds, head, tail]
  exact linked_nil _ _

def Lawful (e : Step Node) : Prop :=
  match e.action, e.output with
  | .insert pln _, .inserted head => head = true ↔ e.after.stmQhead = some pln
  | .dequeue, .dequeued none => e.before.stmQhead = none
  | .dequeue, .dequeued (some pln) => ∀ cells, Holds e.before cells →
      pln ∈ cells ∧ ∀ p ∈ cells, e.before.rlnSeq pln ≤ e.before.rlnSeq p
  | _, _ => False

theorem kept_insert (trace : List (Step Node)) (s : Queue Node) (cells : List Node) (pln : Node)
    (seq : UInt32) (kept : Kept trace s cells) (new : pln ∉ inside trace) :
    ∃ after, step s (.insert pln seq) =
        some (after, .inserted (decide (some pln = after.stmQhead))) ∧
      ∀ head, ∃ more, Kept (trace ++ [⟨s, .insert pln seq, .inserted head, after⟩]) after more := by
  have absent : pln ∉ cells := fun member => new (kept.inside.mem_iff.mpr member)
  have apart (p : Node) (member : p ∈ cells) : p ≠ pln := by
    rintro rfl
    exact absent member
  -- the number is written before the call, into a packet outside the queue
  let written : Queue Node := { s with rlnSeq := Function.update s.rlnSeq pln seq }
  have own : written.rlnSeq pln = seq := Function.update_self _ _ _
  have others (p : Node) (member : p ∈ cells) : written.rlnSeq p = s.rlnSeq p :=
    Function.update_of_ne (apart p member) _ _
  have ordered : Ordered written cells := by
    refine kept.ordered.imp_of_mem fun {p q} first second below => ?_
    rwa [others p first, others q second]
  obtain ⟨after, called, seqs, held⟩ :=
    rtpqinsert_held written pln cells kept.held ordered absent
  refine ⟨after, by rw [step, called]; rfl, fun head => ⟨_, held, ?_, ?_, ?_⟩⟩
  · rw [Ordered, seqs]
    exact StablePriority.sorted_insert _ cells pln ordered
  · intro r
    have packets : (StablePriority.insert (fun p => rank (written.rlnSeq p)) cells pln).map
        after.packet = StablePriority.insert (fun p => rank p.2) (cells.map s.packet) (pln, seq) := by
      have here : after.packet = written.packet := by
        funext p
        rw [Queue.packet, Queue.packet, seqs]
      rw [here, StablePriority.map_insert (fun p => rank (written.rlnSeq p)) (fun p => rank p.2)
        written.packet cells pln fun p _ => rfl, List.map_congr_left fun p member => by
          rw [Queue.packet, others p member], Queue.packet, own]
      rfl
    have stored : (cells.map s.packet).Pairwise fun a b => rank b.2 ≤ rank a.2 :=
      List.pairwise_map.mpr kept.ordered
    have calls : inserted (trace ++ [⟨s, .insert pln seq, .inserted head, after⟩]) =
        inserted trace ++ [(pln, seq)] := by simp [inserted]
    have answers : dequeued (trace ++ [⟨s, .insert pln seq, .inserted head, after⟩]) =
        dequeued trace := by simp [dequeued]
    rw [calls, answers, packets, List.filter_append, StablePriority.filter_insert _ _ _ r stored,
      ← List.filter_append, ← List.append_assoc, List.filter_append, kept.fifo r,
      ← List.filter_append]
  · rw [inside, List.foldl_append]
    exact (kept.inside.cons pln).trans
      (StablePriority.insert_perm (fun p => rank (written.rlnSeq p)) cells pln).symm

omit [Fintype Node] in
theorem kept_dequeue (trace : List (Step Node)) (s : Queue Node) (cells : List Node)
    (kept : Kept trace s cells) :
    ∃ more, Kept (trace ++ [⟨s, .dequeue, .dequeued (rtpqdequeue s).2, (rtpqdequeue s).1⟩])
      (rtpqdequeue s).1 more := by
  have calls (answer : Answer Node) (after : Queue Node) :
      inserted (trace ++ [⟨s, .dequeue, answer, after⟩]) = inserted trace := by simp [inserted]
  cases cells with
  | nil =>
      rw [rtpqdequeue_empty s kept.held]
      have answers : dequeued (trace ++ [⟨s, .dequeue, .dequeued none, s⟩]) = dequeued trace := by
        simp [dequeued]
      refine ⟨[], kept.held, kept.ordered, fun r => ?_, ?_⟩
      · rw [calls, answers]
        exact kept.fifo r
      · rw [inside, List.foldl_append]
        exact kept.inside
  | cons pln cells =>
      obtain ⟨after, called, seqs, held⟩ := rtpqdequeue_first s pln cells kept.held
      rw [called]
      have answers : dequeued (trace ++ [⟨s, .dequeue, .dequeued (some pln), after⟩]) =
          dequeued trace ++ [s.packet pln] := by simp [dequeued]
      have packets : after.packet = s.packet := by
        funext p
        rw [Queue.packet, Queue.packet, seqs]
      refine ⟨cells, held, ?_, fun r => ?_, ?_⟩
      · rw [Ordered, seqs]
        exact (List.pairwise_cons.mp kept.ordered).2
      · rw [calls, answers, packets, List.append_assoc, List.singleton_append]
        exact kept.fifo r
      · rw [inside, List.foldl_append]
        simpa [inside] using kept.inside.erase pln

omit [Fintype Node] in
/-- A dequeue takes the head, which no packet of the queue has a lower number than. -/
theorem dequeue_lawful (s : Queue Node) (cells : List Node) (held : Holds s cells)
    (ordered : Ordered s cells) :
    Lawful ⟨s, .dequeue, .dequeued (rtpqdequeue s).2, (rtpqdequeue s).1⟩ := by
  cases cells with
  | nil =>
      rw [rtpqdequeue_empty s held]
      exact held.forward
  | cons pln cells =>
      obtain ⟨after, called, -⟩ := rtpqdequeue_first s pln cells held
      rw [called]
      intro packets other
      obtain rfl := walk_unique packets _ other.forward held.forward
      refine ⟨List.mem_cons_self, fun p member => ?_⟩
      rcases List.mem_cons.mp member with rfl | later
      · exact UInt32.le_refl _
      · exact (rank_le _ _).mp ((List.pairwise_cons.mp ordered).1 p later)

theorem kept_step (trace : List (Step Node)) (e : Step Node) (stepped : (machine Node).Stepped e)
    (new : e.action.New (inside trace)) (cells : List Node)
    (kept : Kept trace e.before cells) :
    (∃ more, Kept (trace ++ [e]) e.after more) ∧ Lawful e := by
  obtain ⟨s, call, output, last⟩ := e
  change step s call = some (last, output) at stepped
  cases call with
  | insert pln seq =>
      obtain ⟨after, called, more⟩ := kept_insert trace s cells pln seq kept new
      rw [called] at stepped
      cases stepped
      refine ⟨more _, ?_⟩
      rw [Lawful]
      exact decide_eq_true_iff.trans eq_comm
  | dequeue =>
      cases stepped
      exact ⟨kept_dequeue trace s cells kept, dequeue_lawful s cells kept.held kept.ordered⟩

omit [Fintype Node] in
theorem all_new_at (pre post : List (Step Node)) (e : Step Node)
    (allNew : AllNew (pre ++ e :: post)) : e.action.New (inside pre) := by
  have here := allNew pre.length (by simp)
  simpa using here

theorem kept_run {trace : List (Step Node)} {s : Queue Node} (run : (machine Node).Run trace s)
    (allNew : AllNew trace) : ∃ cells, Kept trace s cells := by
  refine run.along (I := fun trace s => ∃ cells, Kept trace s cells)
    (C := fun pre e => e.action.New (inside pre))
    (fun s first => ⟨[], kept_start s first⟩) ?_ ?_
  · rintro pre e stepped new ⟨cells, kept⟩
    exact (kept_step pre e stepped new cells kept).1
  · rintro pre e post rfl
    exact all_new_at pre post e allNew

omit [Fintype Node] in
theorem all_new_front (pre post : List (Step Node)) (allNew : AllNew (pre ++ post)) :
    AllNew pre := by
  intro k below
  have here := allNew k (by rw [List.length_append]; omega)
  rwa [List.getElem_append_left below, List.take_append_of_le_length (by omega)] at here

/-- The queue after any run, what its calls have answered, and that the next call
returns. -/
theorem rtp_queue_kept {trace : List (Step Node)} {s : Queue Node}
    (run : (machine Node).Run trace s) (allNew : AllNew trace) :
    (∃ cells, Walk s.rlnPrev s.stmQhead cells none ∧ Walk s.rlnNext s.stmQtail cells.reverse none ∧
      (s.stmQhead = none ↔ s.stmQtail = none) ∧
      cells.Pairwise (fun p q => s.rlnSeq p ≤ s.rlnSeq q) ∧
      (dequeued trace ++ cells.map s.packet).Perm (inserted trace) ∧
      ∀ seq, (dequeued trace ++ cells.map s.packet).filter (fun p => decide (p.2 = seq)) =
        (inserted trace).filter fun p => decide (p.2 = seq)) ∧
    (∀ e ∈ trace, Lawful e) ∧
    ∀ call : Call Node, call.New (inside trace) → ∃ r, (machine Node).step s call = some r := by
  obtain ⟨cells, kept⟩ := kept_run run allNew
  refine ⟨⟨cells, kept.held.forward, kept.held.backward, ?_, ?_, ?_, ?_⟩, ?_, ?_⟩
  · obtain ⟨head, tail⟩ := kept.held.ends
    rw [head, tail, List.head?_eq_none_iff, List.getLast?_eq_none_iff]
  · exact kept.ordered.imp fun below => (rank_le _ _).mp below
  · exact StablePriority.perm_of_filter (fun p : Packet Node => rank p.2) _ _ kept.fifo
  · intro seq
    simpa only [rank_inj] using kept.fifo (rank seq)
  · intro e member
    obtain ⟨pre, post, rfl⟩ := List.append_of_mem member
    obtain ⟨before, stepped⟩ := run.split
    obtain ⟨earlier, held⟩ := kept_run before (all_new_front pre _ allNew)
    exact (kept_step pre e stepped (all_new_at pre post e allNew) earlier held).2
  · intro call new
    cases call with
    | insert pln seq =>
        obtain ⟨after, called, -⟩ := kept_insert trace s cells pln seq kept new
        exact ⟨_, called⟩
    | dequeue => exact ⟨_, rfl⟩

def calls (low first second : Fin 3) : List (Call (Fin 3)) :=
  [.insert first 5, .insert low 3, .insert second 5, .dequeue, .dequeue, .insert low 7]

theorem five_five_seven : ∃ trace s, (machine (Fin 3)).Run trace s ∧
    (dequeued trace = [(0, 3), (1, 5)] ∧ s.stmQhead = some 2) ∧
    (dequeued trace ++ [(2, 5), (0, 7)]).Perm (inserted trace) := by
  obtain ⟨trace, s, run, check⟩ := Machine.run_of_check (M := machine (Fin 3))
    (s := ⟨fun _ => 0, fun _ => none, fun _ => none, none, none⟩) ⟨rfl, rfl⟩ (calls 0 1 2)
    (fun r => decide (AllNew r.1 ∧ (dequeued r.1 = [(0, 3), (1, 5)] ∧ r.2.stmQhead = some 2) ∧
      r.2.rlnPrev 2 = some 0 ∧ r.2.rlnPrev 0 = none ∧ r.2.rlnSeq 2 = 5 ∧ r.2.rlnSeq 0 = 7))
    (by decide +kernel)
  obtain ⟨allNew, seen, second, last, five, seven⟩ :
      AllNew trace ∧ (dequeued trace = [(0, 3), (1, 5)] ∧ s.stmQhead = some 2) ∧
      s.rlnPrev 2 = some 0 ∧ s.rlnPrev 0 = none ∧ s.rlnSeq 2 = 5 ∧ s.rlnSeq 0 = 7 :=
    of_decide_eq_true check
  obtain ⟨⟨cells, forward, -, -, -, perm, -⟩, -⟩ := rtp_queue_kept run allNew
  have two : cells = [2, 0] :=
    walk_unique cells [2, 0] forward ⟨seen.2, second, last⟩
  rw [two] at perm
  simp only [List.map_cons, List.map_nil, Queue.packet, five, seven] at perm
  exact ⟨trace, s, run, seen, perm⟩

end NetworkProgramming.RtpQueue
