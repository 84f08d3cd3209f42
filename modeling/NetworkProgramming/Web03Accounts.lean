import NetworkProgramming.Threads
import NetworkProgramming.Web03

/-!
The accounts of the threaded web client: its counters count workers by where
they are, `ndone_mutex` has one holder, and main joins each worker once.
-/

namespace NetworkProgramming.Web03

variable {nfiles : Nat}

def Worker.flags : Worker → Flags
  | .absent => .zero
  | .connect => .connecting
  | .read => .reading
  | .joined => .joined
  | _ => .done

def Worker.holding : Worker → Bool
  | .increment | .signal | .unlock => true
  | _ => false

def Worker.counted : Worker → Bool
  | .signal | .unlock | .finish | .terminated => true
  | _ => false

def Worker.announced : Worker → Bool
  | .unlock | .finish | .terminated => true
  | _ => false

def Worker.running : Worker → Bool
  | .absent | .joined => false
  | _ => true

def Worker.created : Worker → Bool
  | .absent => false
  | _ => true

def Worker.unjoined : Worker → Bool
  | .joined => false
  | _ => true

def Place.holding : Place nfiles → Bool
  | .test | .scan _ | .join _ => true
  | _ => false

def Place.waiting : Place nfiles → Bool
  | .lock | .test | .blocked | .awakened => true
  | _ => false

theorem signalled_holding (place : Place nfiles) : place.signalled.holding = place.holding := by
  cases place <;> rfl

theorem signalled_waiting (place : Place nfiles) : place.signalled.waiting = place.waiting := by
  cases place <;> rfl

theorem signalled_other (place next : Place nfiles) (other : next ≠ .awakened)
    (signalled : place.signalled = next) : place = next := by
  subst signalled
  cases place with
  | blocked => exact absurd rfl other
  | _ => rfl

theorem signalled_not_blocked (place : Place nfiles) : place.signalled ≠ .blocked := by
  cases place <;> simp [Place.signalled]

def workersAt (s : State nfiles) (at_ : Worker → Bool) : Nat :=
  Threads.count s.worker at_

/-! The counters. -/

structure Counted (s : State nfiles) : Prop where
  flags : ∀ i, s.flags i = (s.worker i).flags
  ndone : s.ndone = workersAt s Worker.counted
  nconn : s.nconn = workersAt s Worker.running
  nlefttoconn : s.nlefttoconn = workersAt s fun w => !w.created
  nlefttoread : s.nlefttoread = workersAt s Worker.unjoined

theorem moved_counted (s next : State nfiles) (i : Fin nfiles) (w : Worker)
    (worker : next.worker = Function.update s.worker i w)
    (flags : next.flags = Function.update s.flags i w.flags)
    (ndone : next.ndone + (s.worker i).counted.toNat = s.ndone + w.counted.toNat)
    (nconn : next.nconn + (s.worker i).running.toNat = s.nconn + w.running.toNat)
    (nlefttoconn : next.nlefttoconn + (!(s.worker i).created).toNat =
      s.nlefttoconn + (!w.created).toNat)
    (nlefttoread : next.nlefttoread + (s.worker i).unjoined.toNat =
      s.nlefttoread + w.unjoined.toNat)
    (counted : Counted s) : Counted next := by
  obtain ⟨match_, done, running, absent, unjoined⟩ := counted
  have moved (at_ : Worker → Bool) :
      workersAt next at_ + (at_ (s.worker i)).toNat = workersAt s at_ + (at_ w).toNat := by
    rw [workersAt, worker]
    exact Threads.count_update s.worker i w at_
  constructor
  · intro j
    rw [flags, worker]
    by_cases same : j = i
    · subst j
      simp
    · rw [Function.update_of_ne same, Function.update_of_ne same, match_]
  · have total := moved Worker.counted
    omega
  · have total := moved Worker.running
    omega
  · have total := moved fun w => !w.created
    omega
  · have total := moved Worker.unjoined
    omega

theorem find_file_absent (s : State nfiles) (i : Fin nfiles) (counted : Counted s)
    (found : findFile s = some i) : s.worker i = .absent := by
  have test := List.find?_some found
  rw [decide_eq_true_eq, counted.flags] at test
  cases here : s.worker i <;> simp [here, Worker.flags] at test ⊢

theorem find_file_some (s : State nfiles) (counted : Counted s) (left : s.nlefttoconn > 0) :
    findFile s ≠ none := by
  intro absent
  rw [counted.nlefttoconn] at left
  obtain ⟨i, here⟩ := (Threads.count_pos s.worker fun w => !w.created).mp (by
    simp only [workersAt] at left
    omega)
  have test := List.find?_eq_none.mp absent i (List.mem_finRange i)
  rw [decide_eq_true_eq, counted.flags] at test
  cases at_ : s.worker i <;> simp [at_, Worker.created, Worker.flags] at here test

theorem step_counted (maxnconn : Int) (s after : State nfiles) (action : Action nfiles)
    (event : Event nfiles) (effect : Effect maxnconn s action after event)
    (counted : Counted s) : Counted after := by
  have kept (i : Fin nfiles) (w : Worker) (same : w.flags = (s.worker i).flags) :
      s.flags = Function.update s.flags i w.flags := by
    rw [same, ← counted.flags i, Function.update_eq_self]
  cases effect with
  | turn place turn =>
      exact ⟨counted.flags, counted.ndone, counted.nconn, counted.nlefttoconn,
        counted.nlefttoread⟩
  | acquire here free =>
      exact ⟨counted.flags, counted.ndone, counted.nconn, counted.nlefttoconn,
        counted.nlefttoread⟩
  | wait here nobody =>
      exact ⟨counted.flags, counted.ndone, counted.nconn, counted.nlefttoconn,
        counted.nlefttoread⟩
  | release i here =>
      exact ⟨counted.flags, counted.ndone, counted.nconn, counted.nlefttoconn,
        counted.nlefttoread⟩
  | spurious here =>
      exact ⟨counted.flags, counted.ndone, counted.nconn, counted.nlefttoconn,
        counted.nlefttoread⟩
  | data i here => exact counted
  | create i here found =>
      -- the file found has no flag yet, and no thread
      have absent := find_file_absent s i counted found
      refine moved_counted s _ i .connect rfl rfl ?_ ?_ ?_ ?_ counted <;>
        simp [absent, create, State.move, State.store, Worker.counted, Worker.running,
          Worker.created, Worker.unjoined]
  | join i here over_ =>
      refine moved_counted s _ i .joined rfl rfl ?_ ?_ ?_ ?_ counted <;>
        simp [over_, join, State.move, State.store, Worker.counted, Worker.running,
          Worker.created, Worker.unjoined]
  | connect i more here =>
      refine moved_counted s _ i .read rfl rfl ?_ ?_ ?_ ?_ counted <;>
        simp [here, State.move, State.store, Worker.counted, Worker.running, Worker.created,
          Worker.unjoined]
  | eof i here =>
      refine moved_counted s _ i .lock rfl rfl ?_ ?_ ?_ ?_ counted <;>
        simp [here, State.move, State.store, Worker.counted, Worker.running, Worker.created,
          Worker.unjoined]
  | lock i more here free =>
      refine moved_counted s _ i .increment rfl (kept i _ (by rw [here]; rfl)) ?_ ?_ ?_ ?_ counted <;>
        simp [here, State.move, Worker.counted, Worker.running, Worker.created, Worker.unjoined]
  | increment i more here =>
      refine moved_counted s _ i .signal rfl (kept i _ (by rw [here]; rfl)) ?_ ?_ ?_ ?_ counted <;>
        simp [here, State.move, Worker.counted, Worker.running, Worker.created, Worker.unjoined]
  | signal i more here =>
      refine moved_counted s _ i .unlock rfl (kept i _ (by rw [here]; rfl)) ?_ ?_ ?_ ?_ counted <;>
        simp [here, State.move, Worker.counted, Worker.running, Worker.created, Worker.unjoined]
  | unlock i more here =>
      refine moved_counted s _ i .finish rfl (kept i _ (by rw [here]; rfl)) ?_ ?_ ?_ ?_ counted <;>
        simp [here, State.move, Worker.counted, Worker.running, Worker.created, Worker.unjoined]
  | finish i more here =>
      refine moved_counted s _ i .terminated rfl (kept i _ (by rw [here]; rfl)) ?_ ?_ ?_ ?_ counted <;>
        simp [here, State.move, Worker.counted, Worker.running, Worker.created, Worker.unjoined]

/-! Who holds `ndone_mutex`. -/

def held (s : State nfiles) : Holder nfiles → Bool
  | .free => false
  | .main => s.place.holding
  | .worker i => (s.worker i).holding

def Custody (s : State nfiles) : Prop :=
  ∀ h, held s h = true ↔ h ≠ .free ∧ s.mutex = h

theorem held_moved (s next : State nfiles) (i : Fin nfiles) (w : Worker)
    (worker : next.worker = Function.update s.worker i w)
    (place : next.place.holding = s.place.holding) (h : Holder nfiles)
    (other : h ≠ .worker i ∨ w.holding = (s.worker i).holding) : held next h = held s h := by
  cases h with
  | free => rfl
  | main => exact place
  | worker j =>
      simp only [held, worker]
      by_cases same : j = i
      · subst j
        rw [Function.update_self]
        exact other.resolve_left (fun differ => differ rfl)
      · rw [Function.update_of_ne same]

theorem held_placed (s next : State nfiles) (worker : next.worker = s.worker) (h : Holder nfiles)
    (other : h ≠ .main ∨ next.place.holding = s.place.holding) : held next h = held s h := by
  cases h with
  | free => rfl
  | main => exact other.resolve_left (fun differ => differ rfl)
  | worker j => simp only [held, worker]

theorem custody_kept (s next : State nfiles) (mutex : next.mutex = s.mutex)
    (same : ∀ h, held next h = held s h) (custody : Custody s) : Custody next := by
  intro h
  rw [same, mutex]
  exact custody h

/-- Worker `i` goes on without a call on the mutex. -/
theorem custody_moved (s next : State nfiles) (i : Fin nfiles) (w : Worker)
    (mutex : next.mutex = s.mutex) (worker : next.worker = Function.update s.worker i w)
    (place : next.place.holding = s.place.holding) (holding : w.holding = (s.worker i).holding)
    (custody : Custody s) : Custody next :=
  custody_kept s next mutex (fun h => held_moved s next i w worker place h (Or.inr holding))
    custody

theorem custody_taken (s next : State nfiles) (holder : Holder nfiles) (some_ : holder ≠ .free)
    (free : s.mutex = .free) (mutex : next.mutex = holder) (now : held next holder = true)
    (same : ∀ h, h ≠ holder → held next h = held s h) (custody : Custody s) :
    Custody next := by
  intro h
  rw [mutex]
  by_cases here : h = holder
  · subst h
    exact ⟨fun _ => ⟨some_, rfl⟩, fun _ => now⟩
  · rw [same h here, custody h, free]
    constructor
    · rintro ⟨some_holder, rfl⟩
      exact absurd rfl some_holder
    · rintro ⟨_, rfl⟩
      exact absurd rfl here

theorem custody_released (s next : State nfiles) (holder : Holder nfiles)
    (before : held s holder = true) (mutex : next.mutex = .free)
    (gone : held next holder = false) (same : ∀ h, h ≠ holder → held next h = held s h)
    (custody : Custody s) : Custody next := by
  have held_by := ((custody holder).mp before).2
  intro h
  rw [mutex]
  by_cases here : h = holder
  · subst h
    rw [gone]
    constructor
    · intro impossible
      cases impossible
    · rintro ⟨some_holder, rfl⟩
      exact absurd rfl some_holder
  · rw [same h here, custody h, held_by]
    constructor
    · rintro ⟨_, rfl⟩
      exact absurd rfl here
    · rintro ⟨some_holder, rfl⟩
      exact absurd rfl some_holder

theorem turn_holding (maxnconn : Int) (s : State nfiles) (place : Place nfiles)
    (inner : s.nlefttoconn > 0 → findFile s ≠ none) (turn : Turn maxnconn s place) :
    place.holding = s.place.holding := by
  cases turn with
  | nothingFound left absent => exact absurd absent (inner left)
  | enter here _ => rw [here]; rfl
  | exit here _ => rw [here]; rfl
  | full here _ => rw [here]; rfl
  | ready here _ => rw [here]; rfl
  | pass i here _ => rw [here]; rfl
  | found i here _ => rw [here]; rfl

theorem step_custody (maxnconn : Int) (s after : State nfiles) (action : Action nfiles)
    (event : Event nfiles) (effect : Effect maxnconn s action after event)
    (counted : Counted s) (custody : Custody s) : Custody after := by
  cases effect with
  | turn place turn =>
      refine custody_kept s _ rfl ?_ custody
      intro h
      apply held_placed s _ (by rfl) h
      exact Or.inr (turn_holding maxnconn s place (find_file_some s counted) turn)
  | create i here found =>
      refine custody_moved s _ i .connect rfl rfl rfl ?_ custody
      rw [find_file_absent s i counted found]
      rfl
  | acquire here free =>
      refine custody_taken s _ .main (by simp) free rfl rfl ?_ custody
      intro h other
      exact held_placed s _ (by rfl) h (Or.inl other)
  | wait here nobody =>
      refine custody_released s _ .main ?_ rfl rfl ?_ custody
      · rw [held, here]
        rfl
      · intro h other
        exact held_placed s _ (by rfl) h (Or.inl other)
  | release i here =>
      refine custody_released s _ .main ?_ rfl rfl ?_ custody
      · rw [held, here]
        rfl
      · intro h other
        exact held_placed s _ (by rfl) h (Or.inl other)
  | join i here over_ =>
      refine custody_moved s _ i .joined rfl rfl ?_ ?_ custody
      · rw [here]
        rfl
      · rw [over_]
        rfl
  | spurious here =>
      refine custody_kept s _ rfl ?_ custody
      intro h
      apply held_placed s _ (by rfl) h
      rw [here]
      exact Or.inr rfl
  | data i here => exact custody
  | connect i more here => exact custody_moved s _ i .read rfl rfl rfl (by rw [here]; rfl) custody
  | eof i here => exact custody_moved s _ i .lock rfl rfl rfl (by rw [here]; rfl) custody
  | lock i more here free =>
      refine custody_taken s _ (.worker i) (by simp) free rfl ?_ ?_ custody
      · simp [held, State.move, Worker.holding]
      · intro h other
        exact held_moved s _ i .increment (by rfl) (by rfl) h (Or.inl other)
  | increment i more here => exact custody_moved s _ i .signal rfl rfl rfl (by rw [here]; rfl) custody
  | signal i more here =>
      exact custody_moved s _ i .unlock rfl rfl (signalled_holding s.place) (by rw [here]; rfl)
        custody
  | unlock i more here =>
      refine custody_released s _ (.worker i) ?_ rfl ?_ ?_ custody
      · rw [held, here]
        rfl
      · simp [held, State.move, Worker.holding]
      · intro h other
        exact held_moved s _ i .finish (by rfl) (by rfl) h (Or.inl other)
  | finish i more here => exact custody_moved s _ i .terminated rfl rfl rfl (by rw [here]; rfl) custody

/-! Where main can be. -/

structure Placed (maxnconn : Int) (s : State nfiles) : Prop where
  blocked : s.place = .blocked → ∀ i, (s.worker i).announced = false
  room : s.place.waiting = true → maxnconn ≤ s.nconn ∨ s.nlefttoconn ≤ 0
  joining : ∀ i, s.place = .join i → (s.worker i).flags = .done
  exited : s.place = .exited → s.nlefttoread ≤ 0
  found : s.place ≠ .nothingFound

theorem placed_moved (maxnconn : Int) (s next : State nfiles) (i : Fin nfiles) (w : Worker)
    (worker : next.worker = Function.update s.worker i w) (place : next.place = s.place)
    (nconn : next.nconn = s.nconn) (nlefttoconn : next.nlefttoconn = s.nlefttoconn)
    (nlefttoread : next.nlefttoread = s.nlefttoread)
    (announced : w.announced = (s.worker i).announced)
    (done : (s.worker i).flags = .done → w.flags = .done) (placed : Placed maxnconn s) :
    Placed maxnconn next := by
  obtain ⟨blocked, room, joining, exited, found⟩ := placed
  constructor
  · intro here j
    rw [place] at here
    have silent := blocked here
    rw [worker]
    by_cases same : j = i
    · subst j
      rw [Function.update_self, announced]
      exact silent i
    · rw [Function.update_of_ne same]
      exact silent j
  · rw [place, nconn, nlefttoconn]
    exact room
  · intro j here
    rw [place] at here
    have before := joining j here
    rw [worker]
    by_cases same : j = i
    · subst j
      rw [Function.update_self]
      exact done before
    · rwa [Function.update_of_ne same]
  · rw [place, nlefttoread]
    exact exited
  · rw [place]
    exact found

theorem turn_placed (maxnconn : Int) (s : State nfiles) (place : Place nfiles)
    (counted : Counted s) (turn : Turn maxnconn s place) :
    Placed maxnconn { s with place := place } := by
  cases turn with
  | nothingFound left absent => exact absurd absent (find_file_some s counted left)
  | enter here left => constructor <;> simp [Place.waiting]
  | exit here nothing =>
      constructor <;> simp [Place.waiting]
      omega
  | full here full =>
      constructor <;> simp [Place.waiting]
      omega
  | ready here some_done => constructor <;> simp [Place.waiting]
  | pass i here other => constructor <;> simp [Place.waiting]
  | found i here done =>
      constructor <;> simp [Place.waiting]
      rw [← counted.flags i, done]

theorem step_placed (maxnconn : Int) (s after : State nfiles) (action : Action nfiles)
    (event : Event nfiles) (effect : Effect maxnconn s action after event)
    (counted : Counted s) (placed : Placed maxnconn s) : Placed maxnconn after := by
  cases effect with
  | turn place turn => exact turn_placed maxnconn s place counted turn
  | create i here found =>
      have absent := find_file_absent s i counted found
      constructor <;> simp [create, State.move, State.store, here, Place.waiting]
  | acquire here free =>
      have waiting : s.place.waiting = true := by
        rcases here with here | here <;> rw [here] <;> rfl
      have room := placed.room waiting
      constructor <;> simp [Place.waiting, room]
  | wait here nobody =>
      have room := placed.room (by rw [here]; rfl)
      constructor <;> simp [Place.waiting, room]
      -- nobody is counted in `ndone`, least of all past the signal
      intro i
      have uncounted : workersAt s Worker.counted = 0 := by
        have done := counted.ndone
        omega
      have idle := (Threads.count_eq_zero s.worker _).mp uncounted i
      cases at_ : s.worker i <;> simp [at_, Worker.counted, Worker.announced] at idle ⊢
  | release i here => constructor <;> simp [Place.waiting]
  | join i here over_ => constructor <;> simp [join, State.move, State.store, Place.waiting]
  | spurious here =>
      have room := placed.room (by rw [here]; rfl)
      constructor <;> simp [Place.waiting, room]
  | data i here => exact placed
  | connect i more here =>
      refine placed_moved maxnconn s _ i .read rfl rfl rfl rfl rfl ?_ ?_ placed <;>
        simp [here, Worker.announced, Worker.flags]
  | eof i here =>
      refine placed_moved maxnconn s _ i .lock rfl rfl rfl rfl rfl ?_ ?_ placed <;>
        simp [here, Worker.announced, Worker.flags]
  | lock i more here free =>
      refine placed_moved maxnconn s _ i .increment rfl rfl rfl rfl rfl ?_ ?_ placed <;>
        simp [here, Worker.announced, Worker.flags]
  | increment i more here =>
      refine placed_moved maxnconn s _ i .signal rfl rfl rfl rfl rfl ?_ ?_ placed <;>
        simp [here, Worker.announced, Worker.flags]
  | signal i more here =>
      obtain ⟨blocked, room, joining, exited, found⟩ := placed
      constructor
      · intro signalled
        exact absurd signalled (signalled_not_blocked s.place)
      · intro waiting
        exact room ((signalled_waiting s.place).symm.trans waiting)
      · intro j signalled
        have before := joining j (signalled_other s.place _ (by simp) signalled)
        by_cases same : j = i
        · subst j
          simp [State.move, Worker.flags]
        · simpa [State.move, Function.update_of_ne same] using before
      · intro signalled
        exact exited (signalled_other s.place _ (by simp) signalled)
      · intro signalled
        exact found (signalled_other s.place _ (by simp) signalled)
  | unlock i more here =>
      refine placed_moved maxnconn s _ i .finish rfl rfl rfl rfl rfl ?_ ?_ placed <;>
        simp [here, Worker.announced, Worker.flags]
  | finish i more here =>
      refine placed_moved maxnconn s _ i .terminated rfl rfl rfl rfl rfl ?_ ?_ placed <;>
        simp [here, Worker.announced, Worker.flags]

/-! Everything that holds in every reachable state. -/

structure Sound (maxnconn : Int) (s : State nfiles) : Prop where
  counted : Counted s
  custody : Custody s
  placed : Placed maxnconn s

theorem start_sound (maxnconn : Int) : Sound maxnconn (start nfiles) := by
  constructor
  · constructor
    · intro i
      rfl
    · simp [start, workersAt, Threads.count, Threads.total, Worker.counted]
    · simp [start, workersAt, Threads.count, Threads.total, Worker.running]
    · simp [start, workersAt, Threads.count, Threads.total, Worker.created]
    · simp [start, workersAt, Threads.count, Threads.total, Worker.unjoined]
  · intro h
    cases h <;> simp [held, start, Place.holding, Worker.holding]
  · constructor <;> simp [start, Place.waiting]

theorem step_sound (maxnconn : Int) (e : Step nfiles)
    (stepped : (machine nfiles maxnconn).Stepped e) (sound : Sound maxnconn e.before) :
    Sound maxnconn e.after := by
  have effect := step_effect maxnconn e.before e.after e.action e.output stepped
  obtain ⟨counted, custody, placed⟩ := sound
  constructor
  · exact step_counted maxnconn _ _ _ _ effect counted
  · exact step_custody maxnconn _ _ _ _ effect counted custody
  · exact step_placed maxnconn _ _ _ _ effect counted placed

theorem run_sound (maxnconn : Int) (trace : List (Step nfiles)) (s : State nfiles)
    (run : (machine nfiles maxnconn).Run trace s) : Sound maxnconn s := by
  apply run.invariant (I := Sound maxnconn)
  · rintro s rfl
    exact start_sound maxnconn
  · exact step_sound maxnconn

/-! Who has been joined. -/

def joins (trace : List (Step nfiles)) (i : Fin nfiles) : Nat :=
  trace.countP fun e => e.output = .joined i

def Joined (trace : List (Step nfiles)) (s : State nfiles) : Prop :=
  ∀ i, joins trace i = if s.worker i = .joined then 1 else 0

theorem joins_next (trace : List (Step nfiles)) (e : Step nfiles) (i : Fin nfiles) :
    joins (trace ++ [e]) i = joins trace i + if e.output = .joined i then 1 else 0 := by
  simp [joins, List.countP_append, List.countP_cons]

theorem quiet_joined (trace : List (Step nfiles)) (s after : State nfiles) (action : Action nfiles)
    (i : Fin nfiles) (w : Worker) (worker : after.worker = Function.update s.worker i w)
    (before : s.worker i ≠ .joined) (now : w ≠ .joined) (joined : Joined trace s) :
    Joined (trace ++ [⟨s, action, .quiet, after⟩]) after := by
  intro j
  rw [joins_next, joined j, worker]
  by_cases same : j = i
  · subst j
    simp [before, now]
  · simp [Function.update_of_ne same]

theorem still_joined (trace : List (Step nfiles)) (s after : State nfiles) (action : Action nfiles)
    (worker : after.worker = s.worker) (joined : Joined trace s) :
    Joined (trace ++ [⟨s, action, .quiet, after⟩]) after := by
  intro j
  rw [joins_next, joined j, worker]
  simp

theorem step_joined (maxnconn : Int) (trace : List (Step nfiles)) (s after : State nfiles)
    (action : Action nfiles) (event : Event nfiles)
    (effect : Effect maxnconn s action after event) (counted : Counted s)
    (joined : Joined trace s) : Joined (trace ++ [⟨s, action, event, after⟩]) after := by
  cases effect with
  | turn place turn => exact still_joined trace s _ _ rfl joined
  | acquire here free => exact still_joined trace s _ _ rfl joined
  | wait here nobody => exact still_joined trace s _ _ rfl joined
  | release i here => exact still_joined trace s _ _ rfl joined
  | spurious here => exact still_joined trace s _ _ rfl joined
  | data i here => exact still_joined trace s _ _ rfl joined
  | create i here found =>
      have absent := find_file_absent s i counted found
      exact quiet_joined trace s _ _ i .connect rfl (by simp [absent]) (by simp) joined
  | join i here over_ =>
      intro j
      rw [joins_next, joined j]
      by_cases same : j = i
      · subst j
        simp [over_, join, State.move]
      · have other : i ≠ j := fun equal => same equal.symm
        simp [join, State.move, State.store, Function.update_of_ne same, other]
  | connect i more here =>
      exact quiet_joined trace s _ _ i .read rfl (by simp [here]) (by simp) joined
  | eof i here => exact quiet_joined trace s _ _ i .lock rfl (by simp [here]) (by simp) joined
  | lock i more here free =>
      exact quiet_joined trace s _ _ i .increment rfl (by simp [here]) (by simp) joined
  | increment i more here =>
      exact quiet_joined trace s _ _ i .signal rfl (by simp [here]) (by simp) joined
  | signal i more here =>
      exact quiet_joined trace s _ _ i .unlock rfl (by simp [here]) (by simp) joined
  | unlock i more here =>
      exact quiet_joined trace s _ _ i .finish rfl (by simp [here]) (by simp) joined
  | finish i more here =>
      exact quiet_joined trace s _ _ i .terminated rfl (by simp [here]) (by simp) joined

theorem run_joined (maxnconn : Int) (trace : List (Step nfiles)) (s : State nfiles)
    (run : (machine nfiles maxnconn).Run trace s) : Sound maxnconn s ∧ Joined trace s := by
  apply run.history (C := fun _ => True) (I := fun trace s => Sound maxnconn s ∧ Joined trace s)
  · rintro s rfl
    exact ⟨start_sound maxnconn, fun i => by simp [joins, start]⟩
  · rintro trace ⟨s, action, event, after⟩ stepped _ ⟨sound, joined⟩
    have effect : Effect maxnconn s action after event :=
      step_effect maxnconn s after action event stepped
    constructor
    · exact step_sound maxnconn _ stepped sound
    · exact step_joined maxnconn trace s after action event effect sound.counted joined
  · simp

end NetworkProgramming.Web03
