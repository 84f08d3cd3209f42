import NetworkProgramming.Prodcons6

/-!
What `nready.nready` counts, and why the consumer of prodcons6 finds every item
and loses no wake-up. Between the two sections of a producer an item is stored
and not announced, so the count lags behind `put.nput` by the producers there.
-/

namespace NetworkProgramming.Prodcons6

variable {Producer : Type*} [Fintype Producer] [DecidableEq Producer]

/-! The places that count. The holders of `put.mutex` are told apart by what of
a store is done; so at most one producer is in any of the four. -/

def Produce.rests : Produce → Bool
  | .testPut | .unlockPut | .unlockEnd => true
  | _ => false

def Produce.stores : Produce → Bool
  | .storeBuff => true
  | _ => false

def Produce.stored : Produce → Bool
  | .incNput => true
  | _ => false

def Produce.counted : Produce → Bool
  | .incNval => true
  | _ => false

/-- Holds `nready.mutex`, before the test or after the increment. -/
def Produce.announces : Produce → Bool
  | .signal | .unlockNready => true
  | _ => false

def Produce.increments : Produce → Bool
  | .incNready => true
  | _ => false

/-- Has an item in `put.nput` that is not yet in `nready.nready`. -/
def Produce.pending : Produce → Bool
  | .incNval | .unlockPut | .lockNready | .signal | .incNready => true
  | _ => false

def Consume.holds : Consume → Bool
  | .test | .unlock => true
  | _ => false

def Consume.took : Consume → Bool
  | .unlock | .check => true
  | _ => false

def Consumer.taken (c : Consumer) : Nat := c.i + c.place.took.toNat

def producersAt (s : State Producer) (at_ : Produce → Bool) : Nat :=
  Threads.count s.producer fun task => at_ task.place

structure Locks (s : State Producer) : Prop where
  put : producersAt s Produce.rests + producersAt s Produce.stores +
    producersAt s Produce.stored + producersAt s Produce.counted = s.shared.put.mutex.toNat
  nready : producersAt s Produce.announces + producersAt s Produce.increments +
    s.consumer.place.holds.toNat = s.shared.nready.mutex.toNat

structure Accounts (nitems : Int) (s : State Producer) : Prop where
  nval : s.shared.put.nput = s.shared.put.nval + producersAt s Produce.counted
  nready : s.shared.nready.nready + s.consumer.taken + producersAt s Produce.pending =
    s.shared.put.nput
  positive : 0 ≤ s.shared.nready.nready
  room : 0 < producersAt s Produce.stores + producersAt s Produce.stored →
    s.shared.put.nput < nitems
  full : (s.shared.put.nput : Int) ≤ max nitems 0

structure Contents (s : State Producer) : Prop where
  copied : 0 < producersAt s Produce.stored →
    s.shared.buff s.shared.put.nput = s.shared.put.nput
  items : ∀ item, item < s.shared.put.nput → s.shared.buff item = item

def Waits (s : State Producer) : Prop :=
  s.consumer.place = .blocked →
    s.shared.nready.nready = 0 ∧ producersAt s Produce.increments = 0

theorem signalled_holds (c : Consumer) : c.signalled.place.holds = c.place.holds := by
  simp only [Consumer.signalled]
  split
  · rename_i here
    rw [here]
    rfl
  · rfl

theorem signalled_taken (c : Consumer) : c.signalled.taken = c.taken := by
  simp only [Consumer.signalled]
  split
  · rename_i here
    simp [Consumer.taken, here, Consume.took]
  · rfl

theorem signalled_not_blocked (c : Consumer) : c.signalled.place ≠ .blocked := by
  simp only [Consumer.signalled]
  split
  · simp
  · assumption

omit [DecidableEq Producer] in
theorem producer_counted (s : State Producer) (p : Producer) (at_ : Produce → Bool)
    (here : at_ (s.producer p).place = true) : 0 < producersAt s at_ :=
  (Threads.count_pos s.producer _).mpr ⟨p, here⟩

theorem producers_after (s : State Producer) (p : Producer) (did : Produced)
    (at_ : Produce → Bool) :
    producersAt (s.afterProducer p did) at_ + (at_ (s.producer p).place).toNat =
      producersAt s at_ + (at_ did.task.place).toNat :=
  Threads.count_update s.producer p did.task fun task => at_ task.place

omit [Fintype Producer] in
theorem after_shared (s : State Producer) (p : Producer) (did : Produced) :
    (s.afterProducer p did).shared = did.shared := rfl

omit [Fintype Producer] in
theorem after_holds (s : State Producer) (p : Producer) (did : Produced) :
    (s.afterProducer p did).consumer.place.holds = s.consumer.place.holds := by
  simp only [State.afterProducer]
  split
  · exact signalled_holds s.consumer
  · rfl

omit [Fintype Producer] in
theorem after_taken (s : State Producer) (p : Producer) (did : Produced) :
    (s.afterProducer p did).consumer.taken = s.consumer.taken := by
  simp only [State.afterProducer]
  split
  · exact signalled_taken s.consumer
  · rfl

/-! A producer's step. -/

theorem produced_locks (nitems : Int) (s : State Producer) (p : Producer) (did : Produced)
    (ran : Produces nitems s.shared (s.producer p) did) (locks : Locks s) :
    Locks (s.afterProducer p did) := by
  have counts := producers_after s p did
  have rests := counts Produce.rests
  have stores := counts Produce.stores
  have stored := counts Produce.stored
  have counted := counts Produce.counted
  have announces := counts Produce.announces
  have increments := counts Produce.increments
  obtain ⟨put, nready⟩ := locks
  have bit := Bool.toNat_le s.shared.put.mutex
  have nreadyBit := Bool.toNat_le s.shared.nready.mutex
  constructor <;> simp only [after_shared, after_holds]
  · generalize s.producer p = task at ran rests stores stored counted
    cases ran with
    | lockPut n free =>
        rw [free] at put
        simp only [Produce.rests, Produce.stores, Produce.stored, Produce.counted,
          Bool.toNat_true, Bool.toNat_false] at rests stores stored counted put ⊢
        omega
    | _ =>
        simp only [Produce.rests, Produce.stores, Produce.stored, Produce.counted,
          Bool.toNat_true, Bool.toNat_false] at rests stores stored counted ⊢
        omega
  · generalize s.producer p = task at ran announces increments
    cases ran with
    | lockNready n free =>
        rw [free] at nready
        simp only [Produce.announces, Produce.increments, Bool.toNat_true,
          Bool.toNat_false] at announces increments nready ⊢
        omega
    | _ =>
        simp only [Produce.announces, Produce.increments, Bool.toNat_true,
          Bool.toNat_false] at announces increments ⊢
        omega

theorem produced_accounts (nitems : Int) (s : State Producer) (p : Producer) (did : Produced)
    (ran : Produces nitems s.shared (s.producer p) did) (locks : Locks s)
    (accounts : Accounts nitems s) : Accounts nitems (s.afterProducer p did) := by
  have counts := producers_after s p did
  have stores := counts Produce.stores
  have stored := counts Produce.stored
  have counted := counts Produce.counted
  have pending := counts Produce.pending
  have storing := producer_counted s p Produce.stored
  have put := locks.put
  obtain ⟨nval, nready, positive, room, full⟩ := accounts
  have bit := Bool.toNat_le s.shared.put.mutex
  generalize s.producer p = task at ran stores stored counted pending storing
  cases ran <;>
    simp only [Produce.stores, Produce.stored, Produce.counted, Produce.pending, Bool.toNat_true,
      Bool.toNat_false, forall_const] at stores stored counted pending storing <;>
    constructor <;> simp only [after_shared, after_taken] at * <;> omega

omit [DecidableEq Producer] in
/-- Whoever stores is alone with `put`, so the value stored is the index. -/
theorem storing_alone (nitems : Int) (s : State Producer) (locks : Locks s)
    (accounts : Accounts nitems s) (p : Producer)
    (here : Produce.stores (s.producer p).place = true) :
    s.shared.put.nval = s.shared.put.nput ∧ producersAt s Produce.stored = 0 := by
  have storing := producer_counted s p Produce.stores here
  have put := locks.put
  have bit := Bool.toNat_le s.shared.put.mutex
  have nval := accounts.nval
  omega

theorem produced_contents (nitems : Int) (s : State Producer) (p : Producer) (did : Produced)
    (ran : Produces nitems s.shared (s.producer p) did) (locks : Locks s)
    (accounts : Accounts nitems s) (contents : Contents s) :
    Contents (s.afterProducer p did) := by
  have stored := producers_after s p did Produce.stored
  have alone := storing_alone nitems s locks accounts p
  have here := producer_counted s p Produce.stored
  obtain ⟨copied, items⟩ := contents
  have put := locks.put
  have bit := Bool.toNat_le s.shared.put.mutex
  generalize s.producer p = task at ran stored alone here
  cases ran with
  | storeBuff n =>
      obtain ⟨nval, _⟩ := alone rfl
      constructor <;> simp only [after_shared]
      · intro _
        rw [Function.update_self, nval]
      · intro item less
        rw [Function.update_of_ne (by omega)]
        exact items item less
  | incNput n =>
      have last := copied (here rfl)
      constructor <;> simp only [after_shared]
      · intro another
        have one := here rfl
        simp only [Produce.stored, Bool.toNat_true, Bool.toNat_false] at stored
        omega
      · intro item less
        by_cases newest : item = s.shared.put.nput
        · rw [newest, last]
        · exact items item (by omega)
  | _ =>
      simp only [Produce.stored, Bool.toNat_false, Nat.add_zero] at stored
      exact ⟨fun another => copied (stored ▸ another), items⟩

theorem produced_waits (nitems : Int) (s : State Producer) (p : Producer) (did : Produced)
    (ran : Produces nitems s.shared (s.producer p) did) (waits : Waits s) :
    Waits (s.afterProducer p did) := by
  intro blocked
  have increments := producers_after s p did Produce.increments
  have here := producer_counted s p Produce.increments
  generalize s.producer p = task at ran increments here
  cases ran with
  | signal n =>
      -- a blocked consumer would have found the count at zero and been awakened
      by_cases nothing : s.shared.nready.nready = 0
      · simp only [State.afterProducer, nothing, decide_true, ↓reduceIte] at blocked
        exact absurd blocked (signalled_not_blocked s.consumer)
      · simp only [State.afterProducer, nothing, decide_false, Bool.false_eq_true,
          ↓reduceIte] at blocked
        exact absurd (waits blocked).1 nothing
  | incNready n =>
      obtain ⟨_, nobody⟩ := waits blocked
      have somebody := here rfl
      omega
  | _ =>
      obtain ⟨nothing, nobody⟩ := waits blocked
      simp only [Produce.increments, Bool.toNat_false, Nat.add_zero] at increments
      exact ⟨nothing, increments.trans nobody⟩

/-! The consumer's step. -/

omit [DecidableEq Producer] in
theorem consumed_locks (nitems : Int) (s : State Producer) (after : Shared) (next : Consumer)
    (checked : Option Check) (did : Consumes nitems s.shared s.consumer after next checked)
    (locks : Locks s) : Locks { s with shared := after, consumer := next } := by
  obtain ⟨put, nready⟩ := locks
  have bit := Bool.toNat_le s.shared.nready.mutex
  generalize s.consumer = c at did nready
  constructor
  · cases did <;> exact put
  · cases did with
    | lock place i here free =>
        have outside : place.holds = false := by
          rcases here with rfl | rfl <;> rfl
        rw [free, outside] at nready
        simp only [producersAt, Consume.holds, Bool.toNat_true, Bool.toNat_false] at nready ⊢
        omega
    | _ =>
        simp only [producersAt, Consume.holds, Bool.toNat_true, Bool.toNat_false] at nready ⊢
        omega

omit [DecidableEq Producer] in
theorem consumed_accounts (nitems : Int) (s : State Producer) (after : Shared) (next : Consumer)
    (checked : Option Check) (did : Consumes nitems s.shared s.consumer after next checked)
    (accounts : Accounts nitems s) :
    Accounts nitems { s with shared := after, consumer := next } := by
  obtain ⟨nval, nready, positive, room, full⟩ := accounts
  generalize s.consumer = c at did nready
  cases did with
  | lock place i here free =>
      have outside : place.took = false := by
        rcases here with rfl | rfl <;> rfl
      simp only [Consumer.taken, outside] at nready
      exact ⟨nval, nready, positive, room, full⟩
  | _ =>
      simp only [Consumer.taken, Consume.took, Bool.toNat_true, Bool.toNat_false] at nready
      refine ⟨nval, ?_, ?_, room, full⟩ <;>
        simp only [producersAt, Consumer.taken, Consume.took, Bool.toNat_true,
          Bool.toNat_false] at * <;> omega

omit [DecidableEq Producer] in
theorem consumed_contents (nitems : Int) (s : State Producer) (after : Shared) (next : Consumer)
    (checked : Option Check) (did : Consumes nitems s.shared s.consumer after next checked)
    (contents : Contents s) : Contents { s with shared := after, consumer := next } := by
  generalize s.consumer = c at did
  cases did <;> exact ⟨contents.copied, contents.items⟩

omit [DecidableEq Producer] in
theorem consumed_waits (nitems : Int) (s : State Producer) (after : Shared) (next : Consumer)
    (checked : Option Check) (did : Consumes nitems s.shared s.consumer after next checked)
    (locks : Locks s) : Waits { s with shared := after, consumer := next } := by
  intro blocked
  have nready := locks.nready
  have bit := Bool.toNat_le s.shared.nready.mutex
  generalize s.consumer = c at did nready
  cases did with
  | wait i nothing =>
      -- the consumer held the mutex, so no producer is about to increment
      refine ⟨nothing, ?_⟩
      simp only [producersAt, Consume.holds, Bool.toNat_true] at nready ⊢
      omega
  | _ => cases blocked

/-! Runs. -/

structure Sound (nitems : Int) (s : State Producer) : Prop where
  locks : Locks s
  accounts : Accounts nitems s
  contents : Contents s
  waits : Waits s

omit [DecidableEq Producer] in
theorem start_sound (nitems : Int) : Sound nitems (start : State Producer) := by
  constructor
  · constructor <;> simp [start, producersAt, Threads.count, Threads.total, Produce.rests,
      Produce.stores, Produce.stored, Produce.counted, Produce.announces, Produce.increments,
      Consume.holds]
  · constructor <;> simp [start, producersAt, Threads.count, Threads.total, Produce.stores,
      Produce.stored, Produce.counted, Produce.pending, Consumer.taken, Consume.took]
  · constructor <;> simp [start, producersAt, Threads.count, Threads.total, Produce.stored]
  · simp [Waits, start]

theorem step_sound (nitems : Int) (e : Step Producer) (stepped : (machine nitems).Stepped e)
    (sound : Sound nitems e.before) : Sound nitems e.after := by
  obtain ⟨s, action, checked, after⟩ := e
  have effect : Effect nitems s action after checked :=
    step_effect nitems s after action checked stepped
  obtain ⟨locks, accounts, contents, waits⟩ := sound
  cases effect with
  | produced p did ran =>
      constructor
      · exact produced_locks nitems s p did ran locks
      · exact produced_accounts nitems s p did ran locks accounts
      · exact produced_contents nitems s p did ran locks accounts contents
      · exact produced_waits nitems s p did ran waits
  | consumed after next _ did =>
      constructor
      · exact consumed_locks nitems s after next checked did locks
      · exact consumed_accounts nitems s after next checked did accounts
      · exact consumed_contents nitems s after next checked did contents
      · exact consumed_waits nitems s after next checked did locks
  | spurious here =>
      constructor
      · refine ⟨locks.put, ?_⟩
        simpa only [producersAt, signalled_holds] using locks.nready
      · refine ⟨accounts.nval, ?_, accounts.positive, accounts.room, accounts.full⟩
        simpa only [producersAt, signalled_taken] using accounts.nready
      · exact ⟨contents.copied, contents.items⟩
      · intro blocked
        exact absurd blocked (signalled_not_blocked s.consumer)

theorem run_sound (nitems : Int) (trace : List (Step Producer)) (s : State Producer)
    (run : (machine nitems).Run trace s) : Sound nitems s := by
  apply run.invariant (I := Sound nitems)
  · rintro s rfl
    exact start_sound nitems
  · exact step_sound nitems

theorem check_holds (nitems : Int) (s after : State Producer) (action : Action Producer)
    (i value : Nat) (effect : Effect nitems s action after (some ⟨i, value⟩))
    (accounts : Accounts nitems s) (contents : Contents s) : value = i := by
  cases effect with
  | consumed after next _ did =>
      have nready := accounts.nready
      have positive := accounts.positive
      generalize s.consumer = c at did nready
      cases did with
      | check _ =>
          simp only [Consumer.taken, Consume.took, Bool.toNat_true] at nready
          exact contents.items i (by omega)

/-- In every state of every run: no check fails, `nready.nready` is not negative
and counts the items announced and not taken, and the consumer is blocked only
while it is 0. -/
theorem prodcons6_accounts (nitems : Int) (trace : List (Step Producer)) (s : State Producer)
    (run : (machine nitems).Run trace s) :
    (∀ e ∈ trace, ∀ i value, e.output = some ⟨i, value⟩ → value = i) ∧
    0 ≤ s.shared.nready.nready ∧
    s.shared.nready.nready =
      s.shared.put.nput - s.consumer.taken - producersAt s Produce.pending ∧
    (s.consumer.place = .blocked → s.shared.nready.nready = 0) := by
  have sound := run_sound nitems trace s run
  refine ⟨?_, sound.accounts.positive, ?_, fun blocked => (sound.waits blocked).1⟩
  · apply run.each (P := fun e => ∀ i value, e.output = some ⟨i, value⟩ → value = i)
    intro pre e before stepped i value checked
    have sound := run_sound nitems pre e.before before
    have effect := step_effect nitems e.before e.after e.action e.output stepped
    rw [checked] at effect
    exact check_holds nitems e.before e.after e.action i value effect sound.accounts
      sound.contents
  · have nready := sound.accounts.nready
    omega

theorem two_items_checked : ∃ trace s, (machine 2 : Machine (State (Fin 2)) _ _).Run trace s ∧
    trace.filterMap (fun e => e.output) = [⟨0, 0⟩, ⟨1, 1⟩] ∧
    (∀ e ∈ trace, ∀ i value, e.output = some ⟨i, value⟩ → value = i) ∧
    0 ≤ s.shared.nready.nready ∧
    s.shared.nready.nready =
      s.shared.put.nput - s.consumer.taken - producersAt s Produce.pending ∧
    (s.consumer.place = .blocked → s.shared.nready.nready = 0) := by
  have ran := Machine.run_of_check (M := (machine 2 : Machine (State (Fin 2)) _ _)) (s := start) rfl
    (List.replicate 3 .consume ++ List.replicate 6 (.produce 0) ++
      List.replicate 10 (.produce 1) ++ List.replicate 4 .consume ++
      List.replicate 4 (.produce 0) ++ List.replicate 5 .consume)
    (fun r => decide (r.1.filterMap (fun e => e.output) = [⟨0, 0⟩, ⟨1, 1⟩])) (by decide +kernel)
  obtain ⟨trace, s, run, found⟩ := ran
  exact ⟨trace, s, run, by simpa using found, prodcons6_accounts 2 trace s run⟩

/-- One producer between its two sections, both mutexes free: its item is
stored, nobody has taken it, and `nready.nready` is 0. -/
theorem stored_not_announced : ∃ trace s, (machine 1 : Machine (State (Fin 1)) _ _).Run trace s ∧
    s.shared.put.mutex = false ∧ s.shared.nready.mutex = false ∧ s.consumer.place = .loop ∧
    s.shared.nready.nready ≠ s.shared.put.nput - s.consumer.taken := by
  have ran := Machine.run_of_check (M := (machine 1 : Machine (State (Fin 1)) _ _)) (s := start) rfl
    [.produce 0, .produce 0, .produce 0, .produce 0, .produce 0, .produce 0]
    (fun r => decide (r.2.shared.put.mutex = false ∧ r.2.shared.nready.mutex = false ∧
      r.2.consumer.place = .loop ∧
      r.2.shared.nready.nready ≠ r.2.shared.put.nput - r.2.consumer.taken)) (by decide +kernel)
  obtain ⟨trace, s, run, checked⟩ := ran
  exact ⟨trace, s, run, by simpa using checked⟩

end NetworkProgramming.Prodcons6
