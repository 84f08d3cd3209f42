import NetworkProgramming.Mycat2

/-!
The copy is exact. The chunks that the producer reads pass through the ring in
order; the semaphores keep the two threads in different buffers although
neither holds the mutex while it reads or writes.
-/

namespace NetworkProgramming.Mycat2

/-! What the places count towards. -/

def Produce.inside : Produce → Bool
  | .postMutex => true
  | _ => false

/-- Holds a token of `nempty` and has not read into the buffer. -/
def Produce.claims : Produce → Bool
  | .waitMutex | .postMutex | .read => true
  | _ => false

/-- Has filled a buffer that `nstored` does not show yet. -/
def Produce.owes : Produce → Bool
  | .postNstored | .postLast => true
  | _ => false

def Produce.finished : Produce → Bool
  | .postLast | .returned => true
  | _ => false

def Consume.inside : Consume → Bool
  | .postMutex => true
  | _ => false

/-- Holds a token of `nstored` and has not written the buffer out. -/
def Consume.claims : Consume → Bool
  | .waitMutex | .postMutex | .check | .write | .returned => true
  | _ => false

/-- Has written a buffer that `nempty` does not show yet. -/
def Consume.owes : Consume → Bool
  | .postNempty => true
  | _ => false

/-! What has been read and written along a run. -/

def Event.chunk : Event → List (List UInt8)
  | .read _ bytes => [bytes]
  | _ => []

def Event.writes : Event → Nat
  | .wrote _ => 1
  | _ => 0

def chunks (trace : List Step) : List (List UInt8) := trace.flatMap (·.output.chunk)
def written (trace : List Step) : Nat := (trace.map (·.output.writes)).sum

theorem chunks_snoc (trace : List Step) (e : Step) :
    chunks (trace ++ [e]) = chunks trace ++ e.output.chunk := by
  simp [chunks]

theorem written_snoc (trace : List Step) (e : Step) :
    written (trace ++ [e]) = written trace + e.output.writes := by
  simp [written]

structure Tokens (read written : Nat) (s : State) : Prop where
  mutex : s.shared.mutex + s.producer.place.inside.toNat + s.consumer.place.inside.toNat = 1
  nempty : s.shared.nempty + s.producer.place.claims.toNat + read +
    s.consumer.place.owes.toNat = nbuff + written
  nstored : s.shared.nstored + s.consumer.place.claims.toNat + written +
    s.producer.place.owes.toNat = read

structure Contents (input : List UInt8) (chunks : List (List UInt8)) (written : Nat)
    (s : State) : Prop where
  file : chunks.flatten ++ s.input = input
  output : s.output = (chunks.take written).flatten
  ended : s.producer.place.finished = true → s.input = [] ∧ chunks.getLast? = some []
  full : ∀ k, chunks[k]? = some [] →
    s.producer.place.finished = true ∧ k + 1 = chunks.length
  turn : s.producer.place.finished = false → s.producer.i = chunks.length % nbuff
  index : s.consumer.i = written % nbuff
  ring : Ring.Holds nbuff (fun i => (s.shared.buff i).bytes) chunks written
  sized : ∀ i, (s.shared.buff i).bytes.length = (s.shared.buff i).n
  writing : s.consumer.place = .write → ∃ bytes, bytes ≠ [] ∧ chunks[written]? = some bytes
  stopped : s.consumer.place = .returned → chunks[written]? = some []
  wrote : ∀ k, k < written → chunks[k]? ≠ some []

theorem start_tokens (input : List UInt8) : Tokens 0 0 (start input) := by
  constructor <;> rfl

theorem start_contents (input : List UInt8) : Contents input [] 0 (start input) := by
  constructor <;> simp [start, Produce.finished, Buff.bytes, Ring.holds_nothing]

theorem step_tokens (read written : Nat) (s after : State) (action : Action) (event : Event)
    (effect : Effect s action after event) (tokens : Tokens read written s) :
    Tokens (read + event.chunk.length) (written + event.writes) after := by
  obtain ⟨mutex, nempty, nstored⟩ := tokens
  cases effect with
  | read n here returns =>
      by_cases last : n = 0 <;>
        constructor <;>
        simp_all only [produceRead, Produce.inside, Produce.claims, Produce.owes, Event.chunk,
          Event.writes, List.length_singleton, Bool.toNat_true, Bool.toNat_false, ↓reduceIte] <;>
        omega
  | _ =>
      constructor <;>
        simp_all only [Produce.inside, Produce.claims, Produce.owes, Consume.inside,
          Consume.claims, Consume.owes, Event.chunk, Event.writes, List.length_nil,
          Bool.toNat_true, Bool.toNat_false] <;>
        omega

theorem fill_bytes (b : Buff) (bytes : List UInt8) : (b.fill bytes).bytes = bytes := by
  simp [Buff.fill, Buff.bytes]

theorem produced_contents (input : List UInt8) (chunks : List (List UInt8)) (written : Nat)
    (s : State) (mutex nempty nstored : Nat) (place : Produce)
    (same : place.finished = s.producer.place.finished)
    (contents : Contents input chunks written s) :
    Contents input chunks written
      { s with
        shared := ⟨s.shared.buff, mutex, nempty, nstored⟩
        producer := ⟨place, s.producer.i⟩ } := by
  obtain ⟨file, output, ended, full, turn, index, ring, sized, writing, stopped, wrote⟩ := contents
  constructor <;> first | assumption | simpa only [same]

theorem consumed_contents (input : List UInt8) (chunks : List (List UInt8)) (written : Nat)
    (s : State) (mutex nempty nstored : Nat) (place : Consume)
    (writes : place = .write → ∃ bytes, bytes ≠ [] ∧ chunks[written]? = some bytes)
    (stops : place = .returned → chunks[written]? = some [])
    (contents : Contents input chunks written s) :
    Contents input chunks written
      { s with
        shared := ⟨s.shared.buff, mutex, nempty, nstored⟩
        consumer := ⟨place, s.consumer.i⟩ } := by
  obtain ⟨file, output, ended, full, turn, index, ring, sized, writing, stopped, wrote⟩ := contents
  constructor <;> assumption

theorem consumer_finds (input : List UInt8) (chunks : List (List UInt8)) (written : Nat)
    (s : State) (tokens : Tokens chunks.length written s)
    (contents : Contents input chunks written s) (here : s.consumer.place.claims = true) :
    written < chunks.length ∧
      chunks[written]? = some (s.shared.buff s.consumer.i).bytes := by
  have account := tokens.nstored
  rw [here, Bool.toNat_true] at account
  have stored : written < chunks.length := by omega
  constructor
  · exact stored
  · rw [contents.index]
    exact (contents.ring.get stored).1

theorem read_contents (input : List UInt8) (chunks : List (List UInt8)) (written : Nat)
    (s : State) (n : Nat) (here : s.producer.place = .read) (returns : Returns s.input n)
    (tokens : Tokens chunks.length written s) (contents : Contents input chunks written s) :
    Contents input (chunks ++ [s.input.take n]) written (produceRead s n) := by
  have room := tokens.nempty
  have least := tokens.nstored
  obtain ⟨file, output, ended, full, turn, index, ring, sized, writing, stopped, wrote⟩ := contents
  obtain ⟨_, enough, final⟩ := returns
  rw [here] at room least
  simp only [Produce.claims, Produce.owes, Bool.toNat_true, Bool.toNat_false] at room least
  have slot : s.producer.i = chunks.length % nbuff := turn (by rw [here]; rfl)
  have unfinished : ∀ k : Nat, chunks[k]? ≠ some [] := by
    intro k empty
    have early := (full k empty).1
    simp [here, Produce.finished] at early
  -- only the read at the end of the file returns nothing
  have nothing : s.input.take n = [] ↔ n = 0 := by
    constructor
    · intro empty
      rcases List.take_eq_nil_iff.mp empty with zero | ended
      · exact zero
      · simp only [ended, List.length_nil] at enough
        omega
    · rintro rfl
      rfl
  have done : (produceRead s n).producer.place.finished = true ↔ n = 0 := by
    by_cases zero : n = 0 <;> simp [produceRead, zero, Produce.finished]
  constructor
  · simp [produceRead, file]
  · rw [List.take_append_of_le_length (by omega)]
    exact output
  · intro last
    have zero := done.mp last
    constructor
    · simp [produceRead, zero, final zero]
    · simp [zero]
  · intro k empty
    rcases Nat.lt_trichotomy k chunks.length with before | rfl | beyond
    · rw [List.getElem?_append_left before] at empty
      exact absurd empty (unfinished k)
    · rw [List.getElem?_concat_length, Option.some.injEq] at empty
      exact ⟨done.mpr (nothing.mp empty), by simp⟩
    · rw [List.getElem?_eq_none (by simp; omega)] at empty
      cases empty
  · intro going
    have positive : n ≠ 0 := by
      intro zero
      rw [done.mpr zero] at going
      cases going
    simp only [produceRead, if_neg positive, List.length_append, List.length_singleton]
    rw [slot, Ring.next_mod _ _ (by decide)]
  · exact index
  · have filled := ring.put (by omega) (s.input.take n)
    have cells : (fun i => ((produceRead s n).shared.buff i).bytes) =
        Function.update (fun i => (s.shared.buff i).bytes) (chunks.length % nbuff)
          (s.input.take n) := by
      funext i
      by_cases same : i = chunks.length % nbuff
      · simp only [produceRead, slot, same, Function.update_self, fill_bytes]
      · simp only [produceRead, slot, Function.update_of_ne same]
    rw [cells]
    exact filled
  · intro i
    by_cases same : i = s.producer.i
    · simp only [produceRead, same, Function.update_self, fill_bytes]
      rfl
    · simp only [produceRead, Function.update_of_ne same]
      exact sized i
  · intro writes
    obtain ⟨bytes, some_bytes, found⟩ := writing writes
    have before := (List.getElem?_eq_some_iff.mp found).1
    exact ⟨bytes, some_bytes, by rw [List.getElem?_append_left before, found]⟩
  · intro stops
    have found := stopped stops
    exact absurd found (unfinished written)
  · intro k before
    rw [List.getElem?_append_left (by omega)]
    exact wrote k before

theorem step_contents (input : List UInt8) (chunks : List (List UInt8)) (written : Nat)
    (s after : State) (action : Action) (event : Event) (effect : Effect s action after event)
    (tokens : Tokens chunks.length written s) (contents : Contents input chunks written s) :
    Contents input (chunks ++ event.chunk) (written + event.writes) after := by
  cases effect with
  | read n here returns => exact read_contents input chunks written s n here returns tokens contents
  | last here empty =>
      obtain ⟨_, found⟩ := consumer_finds input chunks written s tokens contents (by rw [here]; rfl)
      -- an empty buffer is the mark that the producer leaves at the end of the file
      have nothing : (s.shared.buff s.consumer.i).bytes = [] := by
        apply List.eq_nil_of_length_eq_zero
        rw [contents.sized, empty]
      rw [nothing] at found
      simp only [Event.chunk, Event.writes, List.append_nil, Nat.add_zero]
      exact consumed_contents _ _ _ s _ _ _ _ (by simp) (fun _ => found) contents
  | more here full =>
      obtain ⟨_, found⟩ := consumer_finds input chunks written s tokens contents (by rw [here]; rfl)
      have something : (s.shared.buff s.consumer.i).bytes ≠ [] := by
        intro empty
        have size := contents.sized s.consumer.i
        rw [empty] at size
        exact full size.symm
      simp only [Event.chunk, Event.writes, List.append_nil, Nat.add_zero]
      exact consumed_contents _ _ _ s _ _ _ _ (fun _ => ⟨_, something, found⟩) (by simp) contents
  | write here =>
      obtain ⟨stored, found⟩ := consumer_finds input chunks written s tokens contents
        (by rw [here]; rfl)
      obtain ⟨file, output, ended, full, turn, index, ring, sized, writing, stopped, wrote⟩ := contents
      simp only [Event.chunk, Event.writes, List.append_nil]
      constructor
      · exact file
      · rw [List.take_add_one, found, Option.toList_some, List.flatten_append, ← output]
        simp
      · exact ended
      · exact full
      · exact turn
      · simp only [index]
        exact Ring.next_mod _ _ (by decide)
      · exact (ring.get stored).2
      · exact sized
      · simp
      · simp
      · obtain ⟨bytes, something, same⟩ := writing here
        intro k before
        by_cases this : k = written
        · rw [this, same]
          simpa using something
        · exact wrote k (by omega)
  | claim here _ | lock here _ | unlock here | announce here | announceLast here =>
      simp only [Event.chunk, Event.writes, List.append_nil, Nat.add_zero]
      exact produced_contents _ _ _ s _ _ _ _ (by rw [here]; rfl) contents
  | take here _ | consumeLock here _ | consumeUnlock here | free here =>
      simp only [Event.chunk, Event.writes, List.append_nil, Nat.add_zero]
      exact consumed_contents _ _ _ s _ _ _ _ (by simp) (by simp) contents

/-! Which buffers have been filled and written out, how many steps are left. -/

def Event.filled : Event → List Nat
  | .read i _ => [i]
  | _ => []

def Event.emptied : Event → List Nat
  | .wrote i => [i]
  | _ => []

def filled (trace : List Step) : List Nat := trace.flatMap (·.output.filled)
def emptied (trace : List Step) : List Nat := trace.flatMap (·.output.emptied)

def Free (trace : List Step) (i : Nat) : Prop := (filled trace).count i = (emptied trace).count i

def InTurn (trace : List Step) : Prop :=
  filled trace = (List.range (chunks trace).length).map (· % nbuff) ∧
    emptied trace = (List.range (written trace)).map (· % nbuff)

theorem step_in_turn (input : List UInt8) (trace : List Step) (e : Step)
    (stepped : (machine input).Stepped e)
    (contents : Contents input (chunks trace) (written trace) e.before) (turns : InTurn trace) :
    InTurn (trace ++ [e]) := by
  obtain ⟨s, action, event, after⟩ := e
  obtain ⟨reads, writes⟩ := turns
  have effect : Effect s action after event := step_effect s after action event stepped
  simp only [InTurn, chunks_snoc, written_snoc, filled, emptied, List.flatMap_append,
    List.flatMap_singleton] at reads writes ⊢
  rw [reads, writes]
  cases effect with
  | read n here _ =>
      have slot : s.producer.i = (chunks trace).length % nbuff :=
        contents.turn (by rw [here]; rfl)
      simp [Event.chunk, Event.writes, Event.filled, Event.emptied, List.range_succ, slot]
  | write here =>
      have slot : s.consumer.i = written trace % nbuff := contents.index
      simp [Event.chunk, Event.writes, Event.filled, Event.emptied, List.range_succ, slot]
  | _ => simp [Event.chunk, Event.writes, Event.filled, Event.emptied]

def Produce.left : Produce → Nat
  | .postNstored => 18
  | .waitNempty => 11
  | .waitMutex => 10
  | .postMutex => 9
  | .read => 8
  | .postLast => 7
  | .returned => 0

def Consume.left : Consume → Nat
  | .waitMutex => 5
  | .postMutex => 4
  | .check => 3
  | .write => 2
  | .postNempty => 1
  | .waitNstored => 0
  | .returned => 0

/-- No chunk is shorter than a byte, and none costs more than twelve steps. -/
def left (s : State) : Nat :=
  12 * s.input.length + s.producer.place.left + 6 * s.shared.nstored + s.consumer.place.left

theorem step_left (input : List UInt8) (e : Step) (stepped : (machine input).Stepped e) :
    left e.after < left e.before := by
  obtain ⟨s, action, event, after⟩ := e
  have effect : Effect s action after event := step_effect s after action event stepped
  cases effect with
  | read n here returns =>
      obtain ⟨_, enough, _⟩ := returns
      by_cases last : n = 0 <;>
        simp only [left, produceRead, here, last, ↓reduceIte, Produce.left, List.length_drop] <;>
        omega
  | _ =>
      simp only [left, Produce.left, Consume.left, *]
      omega

structure Copying (input : List UInt8) (trace : List Step) (s : State) : Prop where
  tokens : Tokens (chunks trace).length (written trace) s
  contents : Contents input (chunks trace) (written trace) s
  turns : InTurn trace
  steps : trace.length + left s ≤ 12 * input.length + 11

theorem start_copying (input : List UInt8) : Copying input [] (start input) := by
  constructor
  · exact start_tokens input
  · exact start_contents input
  · exact ⟨rfl, rfl⟩
  · exact Nat.le_of_eq (Nat.zero_add _)

theorem step_copying (input : List UInt8) (trace : List Step) (e : Step)
    (stepped : (machine input).Stepped e) (copying : Copying input trace e.before) :
    Copying input (trace ++ [e]) e.after := by
  obtain ⟨tokens, contents, turns, steps⟩ := copying
  have effect := step_effect e.before e.after e.action e.output stepped
  have fewer := step_left input e stepped
  constructor
  · rw [chunks_snoc, written_snoc, List.length_append]
    exact step_tokens _ _ _ _ _ _ effect tokens
  · rw [chunks_snoc, written_snoc]
    exact step_contents input _ _ _ _ _ _ effect tokens contents
  · exact step_in_turn input trace e stepped contents turns
  · rw [List.length_append, List.length_singleton]
    omega

theorem run_copying (input : List UInt8) (trace : List Step) (s : State)
    (run : (machine input).Run trace s) : Copying input trace s :=
  run.history (C := fun _ => True) (fun _ first => first ▸ start_copying input)
    (fun trace e stepped _ => step_copying input trace e stepped) fun _ _ => trivial

theorem read_free (input : List UInt8) (trace : List Step) (s : State)
    (copying : Copying input trace s) (here : s.producer.place = .read) :
    Free trace s.producer.i := by
  obtain ⟨tokens, contents, turns, _⟩ := copying
  have room := tokens.nempty
  have account := tokens.nstored
  rw [here] at room account
  simp only [Produce.claims, Produce.owes, Bool.toNat_true, Bool.toNat_false] at room account
  have slot : s.producer.i = (chunks trace).length % nbuff :=
    contents.turn (by rw [here]; rfl)
  rw [Free, turns.1, turns.2, slot]
  exact Ring.cell_unused nbuff (written trace) _ (by omega) (by omega)

def Returned (s : State) : Prop :=
  s.producer.place = .returned ∧ s.consumer.place = .returned

theorem returned_output (input : List UInt8) (trace : List Step) (s : State)
    (copying : Copying input trace s) (returned : Returned s) : s.output = input := by
  obtain ⟨tokens, contents, _, _⟩ := copying
  obtain ⟨produced, consumed⟩ := returned
  have found := contents.stopped consumed
  have last := (contents.full _ found).2
  obtain ⟨ended, _⟩ := contents.ended (by rw [produced]; rfl)
  have whole : (chunks trace).flatten = input := by
    rw [← contents.file, ended, List.append_nil]
  have split : chunks trace = (chunks trace).take (written trace) ++ [[]] := by
    have short := List.take_add_one (l := chunks trace) (i := written trace)
    rw [found, last, List.take_length] at short
    exact short
  rw [contents.output, ← whole]
  conv => rhs; rw [split]
  simp

/-! Neither thread can be kept from its end. -/

theorem stuck_producer (input : List UInt8) (s : State) (stuck : ¬ (machine input).CanStep s) :
    s.producer.place = .returned ∨
      (s.producer.place = .waitNempty ∧ s.shared.nempty = 0) ∨
      (s.producer.place = .waitMutex ∧ s.shared.mutex = 0) := by
  have refused : produce s = none := by
    by_contra enabled
    obtain ⟨result, ran⟩ := Option.ne_none_iff_exists'.mp enabled
    exact stuck ⟨.produce, (result, .quiet), by simp [machine, step, ran]⟩
  have blocked (n : Nat) (returns : Returns s.input n) : s.producer.place ≠ .read := by
    intro here
    exact stuck ⟨.read n, (produceRead s n, .read s.producer.i (s.input.take n)),
      by simp only [machine, step, here, returns, and_self, ↓reduceIte]⟩
  cases here : s.producer.place with
  | read =>
      cases rest : s.input with
      | nil => exact absurd here (blocked 0 (by simp [Returns, rest]))
      | cons byte more => exact absurd here (blocked 1 (by simp [Returns, rest, buffsize]))
  | _ => simp_all [produce, Semaphore.wait_none]

theorem stuck_consumer (input : List UInt8) (s : State) (stuck : ¬ (machine input).CanStep s) :
    s.consumer.place = .returned ∨
      (s.consumer.place = .waitNstored ∧ s.shared.nstored = 0) ∨
      (s.consumer.place = .waitMutex ∧ s.shared.mutex = 0) := by
  have refused : consume s = none := by
    by_contra enabled
    obtain ⟨result, ran⟩ := Option.ne_none_iff_exists'.mp enabled
    exact stuck ⟨.consume, result, by simp [machine, step, ran]⟩
  cases here : s.consumer.place with
  | check =>
      simp only [consume, here] at refused
      split at refused <;> cases refused
  | _ => simp_all [consume, Semaphore.wait_none]

theorem stuck_returned (input : List UInt8) (trace : List Step) (s : State)
    (copying : Copying input trace s) (stuck : ¬ (machine input).CanStep s) : Returned s := by
  obtain ⟨⟨mutex, nempty, nstored⟩, contents, _, _⟩ := copying
  have unlocked : s.shared.mutex = 1 := by
    rcases stuck_producer input s stuck with here | ⟨here, _⟩ | ⟨here, _⟩ <;>
      rcases stuck_consumer input s stuck with there | ⟨there, _⟩ | ⟨there, _⟩ <;>
      simpa [here, there, Produce.inside, Consume.inside] using mutex
  have producer := stuck_producer input s stuck
  have consumer := stuck_consumer input s stuck
  simp only [unlocked, one_ne_zero, and_false, or_false] at producer consumer
  rcases producer with here | ⟨here, full⟩ <;> rcases consumer with there | ⟨there, empty⟩
  · exact ⟨here, there⟩
  -- the consumer cannot have written the empty chunk at the end of the file
  · obtain ⟨_, last⟩ := contents.ended (by rw [here]; rfl)
    rw [here, there, empty] at nstored
    simp only [Consume.claims, Produce.owes, Bool.toNat_false] at nstored
    rw [List.getLast?_eq_getElem?] at last
    have nonempty := (List.getElem?_eq_some_iff.mp last).1
    exact absurd last (contents.wrote _ (by omega))
  -- the consumer only returns after the producer has seen the end of the file
  · have early := (contents.full _ (contents.stopped there)).1
    simp [here, Produce.finished] at early
  · rw [here, there, full] at nempty
    rw [here, there, empty] at nstored
    simp only [Produce.claims, Consume.owes, Consume.claims, Produce.owes, Bool.toNat_false,
      nbuff] at nempty nstored
    omega

/-- What has been written is the beginning of the input, and all of it once both
threads have returned; the producer only reads into buffers that have been
written out; until both threads have returned one of them can move, and every
run comes to its end. -/
theorem mycat2_copies (input : List UInt8) (trace : List Step) (s : State)
    (run : (machine input).Run trace s) :
    s.output <+: input ∧ (Returned s → s.output = input) ∧
    (s.producer.place = .read → Free trace s.producer.i) ∧
    (¬ Returned s → (machine input).CanStep s) ∧
    trace.length ≤ 12 * input.length + 11 := by
  have copying := run_copying input trace s run
  constructor
  · rw [copying.contents.output]
    have parts := List.take_append_drop (written trace) (chunks trace)
    have file := copying.contents.file
    rw [← parts, List.flatten_append, List.append_assoc] at file
    exact ⟨_, file⟩
  constructor
  · exact returned_output input trace s copying
  constructor
  · exact read_free input trace s copying
  constructor
  · intro unfinished
    by_contra stuck
    exact unfinished (stuck_returned input trace s copying stuck)
  · have bound := copying.steps
    omega

theorem two_bytes_copied :
    ∃ (trace : List Step) (s : State), (machine [104, 105]).Run trace s ∧ Returned s ∧
      s.output = [104, 105] := by
  obtain ⟨trace, last, run, checked⟩ := Machine.run_of_check (M := machine [104, 105]) rfl
    ([1, 1, 0].flatMap (fun n =>
      ([.produce, .produce, .produce, .read n, .produce] : List Action)) ++
      List.replicate 16 Action.consume)
    (fun r => decide (r.2.producer.place = .returned ∧ r.2.consumer.place = .returned))
    (by decide +kernel)
  have returned := of_decide_eq_true checked
  exact ⟨trace, last, run, returned, (mycat2_copies _ trace last run).2.1 returned⟩

end NetworkProgramming.Mycat2
