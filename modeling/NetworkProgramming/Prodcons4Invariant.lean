import NetworkProgramming.Prodcons4
import NetworkProgramming.Ring

/-!
Why the bounded buffer is safe and never stuck. Each semaphore's value is tied
to the places where threads hold, owe or have added a token; what the finishing
threads add is covered by the fact that there is then nothing left to do.
-/

namespace NetworkProgramming.Prodcons4

variable {Producer Consumer : Type*} [Fintype Producer] [DecidableEq Producer]
  [Fintype Consumer] [DecidableEq Consumer]

/-! The places that count towards each semaphore. -/

def Produce.inside : Produce → Bool
  | .store | .postMutex | .endNstored | .endNempty | .endMutex => true
  | _ => false

def Produce.claims : Produce → Bool
  | .waitMutex | .store | .endNstored | .endNempty => true
  | _ => false

/-- Has stored an item that `nstored` does not show yet. -/
def Produce.owes : Produce → Bool
  | .postMutex | .postNstored => true
  | _ => false

/-- Has added a token to `nstored` without an item. -/
def Produce.added : Produce → Bool
  | .endNempty | .endMutex | .returned => true
  | _ => false

def Produce.finished : Produce → Bool
  | .endNstored | .endNempty | .endMutex | .returned => true
  | _ => false

def Consume.inside : Consume → Bool
  | .fetch | .postMutex | .endNstored | .endMutex => true
  | _ => false

def Consume.claims : Consume → Bool
  | .waitMutex | .fetch | .endNstored => true
  | _ => false

/-- Has emptied a slot that `nempty` does not show yet. -/
def Consume.owes : Consume → Bool
  | .postMutex | .postNempty => true
  | _ => false

def Consume.finished : Consume → Bool
  | .endNstored | .endMutex | .returned => true
  | _ => false

def producersAt (s : State Producer Consumer) (at_ : Produce → Bool) : Nat :=
  Threads.count s.producer fun task => at_ task.place

def consumersAt (s : State Producer Consumer) (at_ : Consume → Bool) : Nat :=
  Threads.count s.consumer fun task => at_ task.place

structure Tokens (s : State Producer Consumer) : Prop where
  mutex : s.shared.mutex + producersAt s Produce.inside + consumersAt s Consume.inside = 1
  nempty : s.shared.nempty + producersAt s Produce.claims + consumersAt s Consume.owes +
    s.shared.nput = nbuff + s.shared.nget
  nstored : s.shared.nstored + producersAt s Produce.owes + consumersAt s Consume.claims +
    s.shared.nget = s.shared.nput + producersAt s Produce.added

structure Progress (nitems : Nat) (s : State Producer Consumer) : Prop where
  ordered : s.shared.nget ≤ s.shared.nput
  bounded : s.shared.nput ≤ nitems
  stored : 0 < producersAt s Produce.finished → s.shared.nput = nitems
  fetched : 0 < consumersAt s Consume.finished → s.shared.nget = nitems

structure Contents (shared : Shared) : Prop where
  nputval : shared.nputval = shared.nput
  ngetval : shared.ngetval = shared.nget
  slots : ∀ item, shared.nget ≤ item → item < shared.nput → shared.buff (slot item) = item

omit [DecidableEq Producer] [Fintype Consumer] [DecidableEq Consumer] in
theorem added_finished (s : State Producer Consumer) :
    producersAt s Produce.added ≤ producersAt s Produce.finished := by
  apply Threads.count_le
  rintro ⟨place, _⟩
  cases place <;> simp [Produce.added, Produce.finished]

omit [DecidableEq Producer] [Fintype Consumer] [DecidableEq Consumer] in
theorem producer_counted (s : State Producer Consumer) (p : Producer) (at_ : Produce → Bool)
    (here : at_ (s.producer p).place = true) : 0 < producersAt s at_ :=
  (Threads.count_pos s.producer _).mpr ⟨p, here⟩

omit [DecidableEq Consumer] [Fintype Producer] [DecidableEq Producer] in
theorem consumer_counted (s : State Producer Consumer) (c : Consumer) (at_ : Consume → Bool)
    (here : at_ (s.consumer c).place = true) : 0 < consumersAt s at_ :=
  (Threads.count_pos s.consumer _).mpr ⟨c, here⟩

omit [Fintype Consumer] [DecidableEq Consumer] in
theorem producers_after (s : State Producer Consumer) (shared : Shared) (p : Producer)
    (next : Task Produce) (at_ : Produce → Bool) :
    producersAt { s with shared := shared, producer := Function.update s.producer p next } at_ +
      (at_ (s.producer p).place).toNat = producersAt s at_ + (at_ next.place).toNat :=
  Threads.count_update s.producer p next fun task => at_ task.place

omit [Fintype Producer] [DecidableEq Producer] in
theorem consumers_after (s : State Producer Consumer) (shared : Shared) (c : Consumer)
    (next : Task Consume) (at_ : Consume → Bool) :
    consumersAt { s with shared := shared, consumer := Function.update s.consumer c next } at_ +
      (at_ (s.consumer c).place).toNat = consumersAt s at_ + (at_ next.place).toNat :=
  Threads.count_update s.consumer c next fun task => at_ task.place

omit [DecidableEq Producer] [DecidableEq Consumer] in
theorem room (s : State Producer Consumer) (tokens : Tokens s) (p : Producer)
    (here : Produce.claims (s.producer p).place = true) :
    s.shared.nput < nbuff + s.shared.nget := by
  have claims := producer_counted s p Produce.claims here
  have account := tokens.nempty
  omega

omit [DecidableEq Producer] [DecidableEq Consumer] in
/-- A consumer with items left to fetch finds one stored: a token that a
finishing producer added is only there when all items have been stored. -/
theorem item_stored (nitems : Nat) (s : State Producer Consumer) (tokens : Tokens s)
    (progress : Progress nitems s) (c : Consumer)
    (here : Consume.claims (s.consumer c).place = true) (more : s.shared.nget < nitems) :
    s.shared.nget < s.shared.nput := by
  have claims := consumer_counted s c Consume.claims here
  have account := tokens.nstored
  have covered := added_finished s
  -- before any producer finishes there are no added tokens
  by_cases finished : 0 < producersAt s Produce.finished
  · have all := progress.stored finished
    omega
  · omega

theorem slot_ne (item other : Nat) (less : item < other) (near : other < nbuff + item) :
    slot item ≠ slot other := by
  intro same
  exact Ring.cell_ne nbuff item other less near (congrArg Fin.val same)

omit [DecidableEq Consumer] in
theorem produced_tokens (nitems : Nat) (s : State Producer Consumer) (p : Producer)
    (after : Shared) (next : Task Produce)
    (did : Produced nitems s.shared (s.producer p) after next) (tokens : Tokens s) :
    Tokens { s with shared := after, producer := Function.update s.producer p next } := by
  have counts := producers_after s after p next
  have inside := counts Produce.inside
  have claims := counts Produce.claims
  have owes := counts Produce.owes
  have added := counts Produce.added
  obtain ⟨mutex, nempty, nstored⟩ := tokens
  generalize here : s.producer p = task at did inside claims owes added
  cases did <;>
    simp only [Produce.inside, Produce.claims, Produce.owes, Produce.added, Bool.toNat_true,
      Bool.toNat_false] at inside claims owes added <;>
    constructor <;> simp only [consumersAt] at * <;> omega

omit [DecidableEq Producer] in
theorem consumed_tokens (nitems : Nat) (s : State Producer Consumer) (c : Consumer)
    (after : Shared) (next : Task Consume) (fetched : Option Fetch)
    (did : Consumed nitems s.shared (s.consumer c) after next fetched) (tokens : Tokens s) :
    Tokens { s with shared := after, consumer := Function.update s.consumer c next } := by
  have counts := consumers_after s after c next
  have inside := counts Consume.inside
  have claims := counts Consume.claims
  have owes := counts Consume.owes
  obtain ⟨mutex, nempty, nstored⟩ := tokens
  generalize here : s.consumer c = task at did inside claims owes
  cases did <;>
    simp only [Consume.inside, Consume.claims, Consume.owes, Bool.toNat_true,
      Bool.toNat_false] at inside claims owes <;>
    constructor <;> simp only [producersAt] at * <;> omega

omit [DecidableEq Consumer] in
theorem produced_progress (nitems : Nat) (s : State Producer Consumer) (p : Producer)
    (after : Shared) (next : Task Produce)
    (did : Produced nitems s.shared (s.producer p) after next) (progress : Progress nitems s) :
    Progress nitems
      { s with shared := after, producer := Function.update s.producer p next } := by
  have finished := producers_after s after p next Produce.finished
  obtain ⟨ordered, bounded, stored, fetched⟩ := progress
  have counted := producer_counted s p Produce.finished
  generalize here : s.producer p = task at did finished counted
  cases did <;> simp only [Produce.finished, Bool.toNat_true, Bool.toNat_false, forall_const,
    Bool.false_eq_true, false_imp_iff] at finished counted <;>
    constructor <;> simp only [consumersAt] at * <;> omega

omit [DecidableEq Producer] in
theorem consumed_progress (nitems : Nat) (s : State Producer Consumer) (c : Consumer)
    (after : Shared) (next : Task Consume) (got : Option Fetch)
    (did : Consumed nitems s.shared (s.consumer c) after next got) (tokens : Tokens s)
    (progress : Progress nitems s) :
    Progress nitems
      { s with shared := after, consumer := Function.update s.consumer c next } := by
  have finished := consumers_after s after c next Consume.finished
  have present := item_stored nitems s tokens progress c
  obtain ⟨ordered, bounded, stored, fetched⟩ := progress
  have counted := consumer_counted s c Consume.finished
  generalize here : s.consumer c = task at did finished counted present
  cases did <;> simp only [Consume.finished, Consume.claims, Bool.toNat_true, Bool.toNat_false,
    forall_const, Bool.false_eq_true, false_imp_iff] at finished counted present <;>
    constructor <;> simp only [producersAt] at * <;> omega

theorem effect_tokens (nitems : Nat) (s after : State Producer Consumer)
    (action : Action Producer Consumer) (fetched : Option Fetch)
    (effect : Effect nitems s action after fetched) (tokens : Tokens s)
    (progress : Progress nitems s) : Tokens after ∧ Progress nitems after := by
  cases effect with
  | produced did =>
      exact ⟨produced_tokens nitems s _ _ _ did tokens,
        produced_progress nitems s _ _ _ did progress⟩
  | consumed did =>
      exact ⟨consumed_tokens nitems s _ _ _ _ did tokens,
        consumed_progress nitems s _ _ _ _ did tokens progress⟩

omit [Fintype Producer] [DecidableEq Producer] [Fintype Consumer] [DecidableEq Consumer] in
theorem stored_contents (shared : Shared) (contents : Contents shared)
    (room : shared.nput < nbuff + shared.nget) :
    Contents { shared with
      buff := Function.update shared.buff (slot shared.nput) shared.nputval
      nput := shared.nput + 1
      nputval := shared.nputval + 1 } := by
  obtain ⟨nputval, ngetval, slots⟩ := contents
  refine ⟨?_, ngetval, ?_⟩
  · simp only
    omega
  · intro item low high
    simp only at low high ⊢
    by_cases last : item = shared.nput
    · rw [last, Function.update_self, nputval]
    · rw [Function.update_of_ne (slot_ne item shared.nput (by omega) (by omega))]
      exact slots item low (by omega)

theorem effect_contents (nitems : Nat) (s after : State Producer Consumer)
    (action : Action Producer Consumer) (fetched : Option Fetch)
    (effect : Effect nitems s action after fetched) (tokens : Tokens s)
    (contents : Contents s.shared) : Contents after.shared := by
  have kept (next : Shared) (put : next.nput = s.shared.nput ∧ next.nputval = s.shared.nputval)
      (got : next.nget = s.shared.nget ∧ next.ngetval = s.shared.ngetval)
      (buff : next.buff = s.shared.buff) : Contents next := by
    obtain ⟨nputval, ngetval, slots⟩ := contents
    refine ⟨by rw [put.1, put.2, nputval], by rw [got.1, got.2, ngetval], ?_⟩
    rw [put.1, got.1, buff]
    exact slots
  cases effect with
  | @produced p next task did =>
      have free := room s tokens p
      generalize here : s.producer p = place at did free
      cases did with
      -- the slot is free, since the producer still holds its token
      | store n more => exact stored_contents s.shared contents (free rfl)
      | _ => exact kept _ ⟨rfl, rfl⟩ ⟨rfl, rfl⟩ rfl
  | @consumed c next task got did =>
      generalize s.consumer c = place at did
      cases did with
      | fetch n more =>
          obtain ⟨nputval, ngetval, slots⟩ := contents
          refine ⟨nputval, by simp only [ngetval], ?_⟩
          intro item low high
          exact slots item (by simp only at low; omega) high
      | _ => exact kept _ ⟨rfl, rfl⟩ ⟨rfl, rfl⟩ rfl

/-! What consumers fetch along a run, and how many steps any run has left. -/

def fetches (trace : List (Step Producer Consumer)) : List Fetch := trace.filterMap (·.output)

def InOrder (trace : List (Step Producer Consumer)) (s : State Producer Consumer) : Prop :=
  fetches trace = (List.range s.shared.nget).map fun item => ⟨item, item⟩

omit [Fintype Producer] [Fintype Consumer] [DecidableEq Producer] [DecidableEq Consumer] in
theorem fetches_snoc (trace : List (Step Producer Consumer)) (e : Step Producer Consumer) :
    fetches (trace ++ [e]) = fetches trace ++ e.output.toList := by
  cases output : e.output <;> simp [fetches, output]

theorem step_in_order (nitems : Nat) (trace : List (Step Producer Consumer))
    (e : Step Producer Consumer) (stepped : (machine nitems).Stepped e) (tokens : Tokens e.before)
    (progress : Progress nitems e.before) (contents : Contents e.before.shared)
    (ordered : InOrder trace e.before) : InOrder (trace ++ [e]) e.after := by
  obtain ⟨s, action, output, after⟩ := e
  simp only [InOrder, fetches_snoc] at ordered ⊢
  rw [ordered]
  cases step_effect nitems s after action output stepped with
  | @produced p next task did =>
      generalize s.producer p = place at did
      cases did <;> simp
  | @consumed c next task got did =>
      have present := item_stored nitems s tokens progress c
      generalize s.consumer c = place at did present
      cases did with
      | fetch n more =>
          have found : s.shared.buff (slot s.shared.nget) = s.shared.nget :=
            contents.slots s.shared.nget (Nat.le_refl _) (present rfl more)
          have expected : s.shared.ngetval = s.shared.nget := contents.ngetval
          simp [List.range_succ, found, expected]
      | _ => simp

def Produce.left : Produce → Nat
  | .postMutex => 8
  | .postNstored => 7
  | .waitNempty => 6
  | .waitMutex => 5
  | .store => 4
  | .endNstored => 3
  | .endNempty => 2
  | .endMutex => 1
  | .returned => 0

def Consume.left : Consume → Nat
  | .postMutex => 7
  | .postNempty => 6
  | .waitNstored => 5
  | .waitMutex => 4
  | .fetch => 3
  | .endNstored => 2
  | .endMutex => 1
  | .returned => 0

def left (nitems : Nat) (s : State Producer Consumer) : Nat :=
  5 * (nitems - s.shared.nput) + 5 * (nitems - s.shared.nget) +
    Threads.total s.producer (fun task => task.place.left) +
    Threads.total s.consumer (fun task => task.place.left)

theorem step_left (nitems : Nat) (e : Step Producer Consumer)
    (stepped : (machine nitems).Stepped e) : left nitems e.after + 1 = left nitems e.before := by
  obtain ⟨s, action, output, after⟩ := e
  cases step_effect nitems s after action output stepped with
  | @produced p next task did =>
      have moved := Threads.total_update s.producer p task fun task => task.place.left
      simp only [left]
      generalize s.producer p = place at did moved
      cases did <;> simp only [Produce.left] at moved ⊢ <;> omega
  | @consumed c next task got did =>
      have moved := Threads.total_update s.consumer c task fun task => task.place.left
      simp only [left]
      generalize s.consumer c = place at did moved
      cases did <;> simp only [Consume.left] at moved ⊢ <;> omega

structure Invariant (nitems : Nat) (trace : List (Step Producer Consumer))
    (s : State Producer Consumer) : Prop where
  tokens : Tokens s
  progress : Progress nitems s
  contents : Contents s.shared
  ordered : InOrder trace s
  steps : trace.length + left nitems s =
    10 * nitems + 6 * Fintype.card Producer + 5 * Fintype.card Consumer

omit [DecidableEq Producer] [DecidableEq Consumer] in
theorem start_invariant (nitems : Nat) :
    Invariant nitems [] (start : State Producer Consumer) := by
  have producers : ∀ at_ : Produce → Bool, at_ .waitNempty = false →
      producersAt (start : State Producer Consumer) at_ = 0 := fun at_ absent =>
    (Threads.count_eq_zero _ _).mpr fun _ => absent
  have consumers : ∀ at_ : Consume → Bool, at_ .waitNstored = false →
      consumersAt (start : State Producer Consumer) at_ = 0 := fun at_ absent =>
    (Threads.count_eq_zero _ _).mpr fun _ => absent
  refine ⟨⟨?_, ?_, ?_⟩, ⟨Nat.le_refl _, Nat.zero_le _, ?_, ?_⟩, ⟨rfl, rfl, by simp [start]⟩,
    rfl, ?_⟩
  · rw [producers _ rfl, consumers _ rfl]
    rfl
  · rw [producers _ rfl, consumers _ rfl]
    rfl
  · rw [producers _ rfl, producers _ rfl, consumers _ rfl]
    rfl
  · rw [producers _ rfl]
    simp
  · rw [consumers _ rfl]
    simp
  · simp [left, start, Threads.total, Produce.left, Consume.left]
    omega

theorem step_invariant (nitems : Nat) (trace : List (Step Producer Consumer))
    (e : Step Producer Consumer) (stepped : (machine nitems).Stepped e)
    (held : Invariant nitems trace e.before) : Invariant nitems (trace ++ [e]) e.after := by
  obtain ⟨tokens, progress, contents, ordered, steps⟩ := held
  have effect := step_effect nitems e.before e.after e.action e.output stepped
  have fewer := step_left nitems e stepped
  refine ⟨(effect_tokens nitems _ _ _ _ effect tokens progress).1,
    (effect_tokens nitems _ _ _ _ effect tokens progress).2,
    effect_contents nitems _ _ _ _ effect tokens contents,
    step_in_order nitems trace e stepped tokens progress contents ordered, ?_⟩
  simp only [List.length_append, List.length_singleton]
  omega

theorem run_invariant (nitems : Nat) (trace : List (Step Producer Consumer))
    (s : State Producer Consumer) (run : (machine nitems).Run trace s) :
    Invariant nitems trace s :=
  run.history (C := fun _ => True) (fun _ first => first ▸ start_invariant nitems)
    (fun trace e stepped _ => step_invariant nitems trace e stepped) fun _ _ => trivial

def Returned (s : State Producer Consumer) : Prop :=
  (∀ p, (s.producer p).place = .returned) ∧ ∀ c, (s.consumer c).place = .returned

/-! Who can take a step, and what it takes for nobody to. -/

omit [Fintype Producer] [Fintype Consumer] in
theorem stuck_producer (nitems : Nat) (s : State Producer Consumer)
    (stuck : ¬ (machine nitems).CanStep s) (p : Producer) :
    (s.producer p).place = .returned ∨
      ((s.producer p).place = .waitNempty ∧ s.shared.nempty = 0) ∨
      ((s.producer p).place = .waitMutex ∧ s.shared.mutex = 0) := by
  have refused : step nitems s (.produce p) = none := by
    by_contra enabled
    obtain ⟨result, ran⟩ := Option.ne_none_iff_exists'.mp enabled
    exact stuck ⟨.produce p, result, ran⟩
  simp only [step, Option.map_eq_none_iff] at refused
  generalize s.producer p = task at refused
  obtain ⟨place, n⟩ := task
  cases place with
  | store =>
      simp only [produce] at refused
      split at refused <;> cases refused
  | _ => simp_all [produce, semWait]

omit [Fintype Producer] [Fintype Consumer] in
theorem stuck_consumer (nitems : Nat) (s : State Producer Consumer)
    (stuck : ¬ (machine nitems).CanStep s) (c : Consumer) :
    (s.consumer c).place = .returned ∨
      ((s.consumer c).place = .waitNstored ∧ s.shared.nstored = 0) ∨
      ((s.consumer c).place = .waitMutex ∧ s.shared.mutex = 0) := by
  have refused : step nitems s (.consume c) = none := by
    by_contra enabled
    obtain ⟨result, ran⟩ := Option.ne_none_iff_exists'.mp enabled
    exact stuck ⟨.consume c, result, ran⟩
  simp only [step, Option.map_eq_none_iff] at refused
  generalize s.consumer c = task at refused
  obtain ⟨place, n⟩ := task
  cases place with
  | fetch =>
      simp only [consume] at refused
      split at refused <;> cases refused
  | _ => simp_all [consume, semWait]

omit [DecidableEq Producer] [DecidableEq Consumer] in
theorem idle_mutex (s : State Producer Consumer) (tokens : Tokens s)
    (producers : ∀ p, Produce.inside (s.producer p).place = false)
    (consumers : ∀ c, Consume.inside (s.consumer c).place = false) : s.shared.mutex = 1 := by
  have noProducer : producersAt s Produce.inside = 0 :=
    (Threads.count_eq_zero s.producer _).mpr producers
  have noConsumer : consumersAt s Consume.inside = 0 :=
    (Threads.count_eq_zero s.consumer _).mpr consumers
  have account := tokens.mutex
  omega

/-- Threads that cannot move have all returned: a producer without a free slot
and a consumer without a stored item would contradict the token accounts. -/
theorem stuck_returned [Nonempty Producer] [Nonempty Consumer] (nitems : Nat)
    (s : State Producer Consumer) (tokens : Tokens s) (progress : Progress nitems s)
    (stuck : ¬ (machine nitems).CanStep s) : Returned s := by
  have producers := stuck_producer nitems s stuck
  have consumers := stuck_consumer nitems s stuck
  have free : s.shared.mutex = 1 := by
    apply idle_mutex s tokens
    · intro p
      rcases producers p with here | ⟨here, _⟩ | ⟨here, _⟩ <;> rw [here] <;> rfl
    · intro c
      rcases consumers c with here | ⟨here, _⟩ | ⟨here, _⟩ <;> rw [here] <;> rfl
  have waitsEmpty (p : Producer) : (s.producer p).place = .returned ∨
      ((s.producer p).place = .waitNempty ∧ s.shared.nempty = 0) := by
    rcases producers p with here | here | ⟨_, locked⟩
    · exact Or.inl here
    · exact Or.inr here
    · omega
  have waitsStored (c : Consumer) : (s.consumer c).place = .returned ∨
      ((s.consumer c).place = .waitNstored ∧ s.shared.nstored = 0) := by
    rcases consumers c with here | here | ⟨_, locked⟩
    · exact Or.inl here
    · exact Or.inr here
    · omega
  have noProducer (at_ : Produce → Bool) (ended : at_ .returned = false)
      (begun : at_ .waitNempty = false) : producersAt s at_ = 0 := by
    apply (Threads.count_eq_zero s.producer _).mpr
    intro p
    rcases waitsEmpty p with here | ⟨here, _⟩ <;> simp [here, ended, begun]
  have noConsumer (at_ : Consume → Bool) (ended : at_ .returned = false)
      (begun : at_ .waitNstored = false) : consumersAt s at_ = 0 := by
    apply (Threads.count_eq_zero s.consumer _).mpr
    intro c
    rcases waitsStored c with here | ⟨here, _⟩ <;> simp [here, ended, begun]
  have nempty := tokens.nempty
  have nstored := tokens.nstored
  rw [noProducer _ rfl rfl, noConsumer _ rfl rfl] at nempty nstored
  have ordered := progress.ordered
  have bounded := progress.bounded
  constructor
  -- if a producer waits, the buffer is full and the consumers have ended, too early
  · intro p
    apply (waitsEmpty p).resolve_right
    rintro ⟨_, full⟩
    obtain ⟨c⟩ := ‹Nonempty Consumer›
    simp only [nbuff] at nempty
    have ended : (s.consumer c).place = .returned :=
      (waitsStored c).resolve_right fun blocked => by omega
    have all := progress.fetched (consumer_counted s c Consume.finished (by rw [ended]; rfl))
    omega
  -- if a consumer waits, no producer has ended, so one waits for a slot as well
  · intro c
    apply (waitsStored c).resolve_right
    rintro ⟨_, empty⟩
    obtain ⟨p⟩ := ‹Nonempty Producer›
    have unfinished : ¬ (s.producer p).place = .returned := by
      intro ended
      have added := producer_counted s p Produce.added (by rw [ended]; rfl)
      omega
    have full := ((waitsEmpty p).resolve_left unfinished).2
    simp only [nbuff] at nempty
    omega

omit [DecidableEq Producer] [DecidableEq Consumer] in
theorem returned_fetched [Nonempty Consumer] (nitems : Nat) (s : State Producer Consumer)
    (progress : Progress nitems s) (returned : Returned s) : s.shared.nget = nitems := by
  obtain ⟨c⟩ := ‹Nonempty Consumer›
  exact progress.fetched (consumer_counted s c Consume.finished (by rw [returned.2 c]; rfl))

/-- No check fails, the items come out once and in order, all of them by the
time every thread has returned; until then some thread can move, and every run
comes to its end. -/
theorem prodcons4_correct [Nonempty Producer] [Nonempty Consumer] (nitems : Nat)
    (trace : List (Step Producer Consumer)) (s : State Producer Consumer)
    (run : (machine nitems).Run trace s) :
    (∀ fetch ∈ fetches trace, fetch.value = fetch.ngetval) ∧
    (fetches trace).map Fetch.value = List.range s.shared.nget ∧ s.shared.nget ≤ nitems ∧
    (Returned s → (fetches trace).map Fetch.value = List.range nitems) ∧
    (¬ Returned s → (machine nitems).CanStep s) ∧
    trace.length ≤ 10 * nitems + 6 * Fintype.card Producer + 5 * Fintype.card Consumer := by
  obtain ⟨tokens, progress, contents, ordered, steps⟩ := run_invariant nitems trace s run
  have values : (fetches trace).map Fetch.value = List.range s.shared.nget := by
    rw [ordered, List.map_map]
    exact List.map_id _
  refine ⟨?_, values, progress.ordered.trans progress.bounded, ?_, ?_, by omega⟩
  · rw [ordered]
    simp
  · intro returned
    rw [values, returned_fetched nitems s progress returned]
  · intro unfinished
    by_contra stuck
    exact unfinished (stuck_returned nitems s tokens progress stuck)

/-- The extra tokens let all four threads finish. -/
theorem two_items_fetched :
    ∃ (trace : List (Step (Fin 2) (Fin 2))) (s : State (Fin 2) (Fin 2)),
      (machine 2).Run trace s ∧ Returned s ∧ (fetches trace).map Fetch.value = List.range 2 := by
  obtain ⟨trace, last, run, checked⟩ := Machine.run_of_check
    (M := machine 2) (s := (start : State (Fin 2) (Fin 2))) rfl
    (List.replicate 5 (.produce 0) ++ List.replicate 5 (.produce 1) ++ [.consume 0] ++
      List.replicate 5 (.consume 1) ++ List.replicate 4 (.consume 0) ++
      List.replicate 6 (.produce 0) ++ List.replicate 6 (.produce 1) ++
      List.replicate 5 (.consume 0) ++ List.replicate 5 (.consume 1))
    (fun r => decide ((∀ p, (r.2.producer p).place = .returned) ∧
      ∀ c, (r.2.consumer c).place = .returned)) (by decide +kernel)
  have returned := of_decide_eq_true checked
  exact ⟨trace, last, run, returned, (prodcons4_correct 2 trace last run).2.2.2.1 returned⟩

end NetworkProgramming.Prodcons4
