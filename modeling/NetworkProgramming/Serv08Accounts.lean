import NetworkProgramming.Ring
import NetworkProgramming.Serv08

/-!
What becomes of the descriptors that serv08 accepts. `iput` and `iget` are the
numbers of descriptors stored and taken, so the ring holds at most 31 of them
and stands at `iput = iget` only when it is empty; the put that would make it 32
ends the process. A put always signals, so behind a blocked thread every stored
descriptor has an awakened thread of its own.
-/

namespace NetworkProgramming.Serv08

variable {Worker : Type*} [Fintype Worker] [DecidableEq Worker]

/-! What a run has done with descriptors, in order. -/

def acceptedFd : Output → Option Nat
  | .accepted connfd => some connfd
  | _ => none

def storedFd : Output → Option Nat
  | .put connfd => some connfd
  | .errQuit connfd => some connfd
  | _ => none

def gotFd : Output → Option Nat
  | .got connfd => some connfd
  | _ => none

def closedFd : Output → Option Nat
  | .closed connfd => some connfd
  | _ => none

def log (pick : Output → Option Nat) (trace : List (Step Worker)) : List Nat :=
  trace.filterMap fun e => e.output.bind pick

def logOf (t : Option Worker) (pick : Output → Option Nat) (trace : List (Step Worker)) :
    List Nat :=
  log pick (trace.filter fun e => decide (thread e.action = t))

omit [Fintype Worker] [DecidableEq Worker] in
theorem log_snoc (pick : Output → Option Nat) (trace : List (Step Worker)) (e : Step Worker) :
    log pick (trace ++ [e]) = log pick trace ++ (e.output.bind pick).toList := by
  rw [log, List.filterMap_append]
  cases picked : e.output.bind pick <;> simp [log, picked]

omit [Fintype Worker] in
theorem log_of_snoc (t : Option Worker) (pick : Output → Option Nat)
    (trace : List (Step Worker)) (e : Step Worker) :
    logOf t pick (trace ++ [e]) =
      logOf t pick trace ++ if thread e.action = t then (e.output.bind pick).toList else [] := by
  by_cases own : thread e.action = t
  · rw [logOf, List.filter_append, List.filter_singleton]
    simp only [own, decide_true, cond_true, if_true, log_snoc, logOf]
  · simp [logOf, List.filter_append, own]

def held : Phase Local Unit → List Nat
  | .outside (.put connfd) => [connfd]
  | .outside (.webChild connfd) => [connfd]
  | _ => []

/-! Only the main thread accepts, and only the others wait. -/

def AtHome : Option Worker → Phase Local Unit → Prop
  | none, .outside .accept => True
  | none, .outside (.put _) => True
  | some _, .outside .idle => True
  | some _, .outside (.webChild _) => True
  | some _, .waiting .blocked _ => True
  | some _, .waiting .awakened _ => True
  | _, _ => False

def Placed (s : State Worker) : Prop := ∀ t, AtHome t (s.phase t)

omit [Fintype Worker] [DecidableEq Worker] in
theorem main_of_accept {t : Option Worker} (home : AtHome t (.outside .accept)) : t = none := by
  cases t with
  | none => rfl
  | some w => exact home.elim

omit [Fintype Worker] [DecidableEq Worker] in
theorem main_of_put {t : Option Worker} {connfd : Nat} (home : AtHome t (.outside (.put connfd))) :
    t = none := by
  cases t with
  | none => rfl
  | some w => exact home.elim

omit [Fintype Worker] [DecidableEq Worker] in
theorem worker_of_loop {t : Option Worker} {p : Phase Local Unit} (here : AtLoop p)
    (home : AtHome t p) : ∃ w, t = some w := by
  cases t with
  | none => rcases here with rfl | rfl <;> exact home.elim
  | some w => exact ⟨w, rfl⟩

omit [Fintype Worker] [DecidableEq Worker] in
theorem worker_of_child {t : Option Worker} {connfd : Nat}
    (home : AtHome t (.outside (.webChild connfd))) : ∃ w, t = some w := by
  cases t with
  | none => exact home.elim
  | some w => exact ⟨w, rfl⟩

omit [Fintype Worker] in
theorem placed_update {phase : Option Worker → Phase Local Unit} (placed : ∀ t, AtHome t (phase t))
    (t : Option Worker) (p : Phase Local Unit) (home : AtHome t p) (u : Option Worker) :
    AtHome u (Function.update phase t p u) := by
  by_cases same : u = t
  · subst u
    rwa [Function.update_self]
  · rw [Function.update_of_ne same]
    exact placed u

omit [Fintype Worker] in
theorem placed_woken {phase next : Option Worker → Phase Local Unit} {wake : Wake Unit}
    {target : Option (Option Worker)}
    (woken : Monitor.Woken (fun _ => ()) phase wake target next)
    (placed : ∀ t, AtHome t (phase t)) (t : Option Worker) : AtHome t (next t) := by
  rcases Monitor.woken_each woken t with same | ⟨_, before, after⟩
  · rw [same]
    exact placed t
  · have here := placed t
    rw [before] at here
    rw [after]
    cases t with
    | none => exact here.elim
    | some w => trivial

omit [Fintype Worker] in
theorem does_placed {s after : State Worker} {t : Option Worker} {output : Option Output}
    (does : Does s t output after) (placed : Placed s) : Placed after := by
  have own := placed t
  cases does with
  | accept here _ =>
      rw [here] at own
      obtain rfl := main_of_accept own
      exact placed_update placed none _ trivial
  | put here _ woken =>
      rw [here] at own
      obtain rfl := main_of_put own
      exact placed_update (placed_woken woken placed) none _ trivial
  | errQuit here _ =>
      rw [here] at own
      obtain rfl := main_of_put own
      exact placed_update placed none _ trivial
  | get here _ =>
      obtain ⟨w, rfl⟩ := worker_of_loop here own
      exact placed_update placed (some w) _ trivial
  | wait here _ =>
      obtain ⟨w, rfl⟩ := worker_of_loop here own
      exact placed_update placed (some w) _ trivial
  | close here _ =>
      rw [here] at own
      obtain ⟨w, rfl⟩ := worker_of_child own
      exact placed_update placed (some w) _ trivial
  | errSys here _ =>
      rw [here] at own
      obtain ⟨w, rfl⟩ := worker_of_child own
      exact placed_update placed (some w) _ trivial
  | spurious here =>
      rw [here] at own
      cases t with
      | none => exact own.elim
      | some w => exact placed_update placed (some w) _ trivial

/-! The ring. -/

theorem advance_mod (n : Nat) : advance (n % maxNCli) = (n + 1) % maxNCli := by
  unfold advance
  split
  · rename_i last
    simp only [maxNCli] at *
    omega
  · rename_i inside
    simp only [maxNCli] at *
    omega

/-- The ring against the descriptors accepted, stored and taken so far; `rest`
is what the main thread has yet to store. -/
structure Queue (accepted stored got rest : List Nat) (sh : Shared) : Prop where
  order : accepted = stored ++ rest
  taken : got <+: stored
  iget : sh.iget = got.length % maxNCli
  iput : sh.iput = stored.length % maxNCli
  cells : Ring.Holds maxNCli sh.clifd stored got.length
  room : sh.exited = false → stored.length < maxNCli + got.length

section

variable {accepted stored got rest : List Nat} {sh : Shared}

theorem Queue.empty_iff (queue : Queue accepted stored got rest sh) (alive : sh.exited = false) :
    sh.iget = sh.iput ↔ stored.length = got.length := by
  have most := queue.room alive
  have least := queue.taken.length_le
  rw [queue.iget, queue.iput]
  simp only [maxNCli] at *
  omega

theorem Queue.full_iff (queue : Queue accepted stored got rest sh) (alive : sh.exited = false) :
    advance sh.iput = sh.iget ↔ stored.length + 1 = maxNCli + got.length := by
  have most := queue.room alive
  have least := queue.taken.length_le
  rw [queue.iput, advance_mod, queue.iget]
  simp only [maxNCli] at *
  omega

theorem Queue.put {connfd : Nat} (queue : Queue accepted stored got [connfd] sh)
    (alive : sh.exited = false) (exited : Bool)
    (leaves : exited = false → advance sh.iput ≠ sh.iget) :
    Queue accepted (stored ++ [connfd]) got [] { sh.put connfd with exited := exited } where
  order := by rw [queue.order, List.append_nil]
  taken := queue.taken.trans (List.prefix_append _ _)
  iget := queue.iget
  iput := by
    rw [List.length_append, List.length_singleton, ← advance_mod, ← queue.iput]
    rfl
  cells := by
    have stores := queue.cells.put (queue.room alive) connfd
    rwa [← queue.iput] at stores
  room := by
    intro goes
    have most := queue.room alive
    have notFull := mt (queue.full_iff alive).mpr (leaves goes)
    rw [List.length_append, List.length_singleton]
    omega

theorem Queue.next (queue : Queue accepted stored got rest sh) (alive : sh.exited = false)
    (filled : sh.iget ≠ sh.iput) :
    stored[got.length]? = some (sh.clifd sh.iget) := by
  have present := mt (queue.empty_iff alive).mpr filled
  have least := queue.taken.length_le
  rw [queue.iget]
  exact (queue.cells.get (by omega)).1

theorem Queue.get (queue : Queue accepted stored got rest sh) (alive : sh.exited = false)
    (filled : sh.iget ≠ sh.iput) :
    Queue accepted stored (got ++ [sh.clifd sh.iget]) rest { sh with iget := advance sh.iget } where
  order := queue.order
  taken := by
    have first := queue.next alive filled
    obtain ⟨later, rfl⟩ := queue.taken
    cases later with
    | nil => simp at first
    | cons connfd more =>
        simp only [Nat.le_refl, List.getElem?_append_right, Nat.sub_self, List.getElem?_cons_zero,
          Option.some.injEq] at first
        rw [← first]
        exact ⟨more, by simp⟩
  iget := by
    rw [List.length_append, List.length_singleton, ← advance_mod, ← queue.iget]
  iput := queue.iput
  cells := by
    rw [List.length_append, List.length_singleton]
    have present := mt (queue.empty_iff alive).mpr filled
    have least := queue.taken.length_le
    exact (queue.cells.get (by omega)).2
  room := by
    intro _
    have most := queue.room alive
    rw [List.length_append, List.length_singleton]
    omega

theorem Queue.waiting_get (queue : Queue accepted stored got rest sh) (alive : sh.exited = false)
    (filled : sh.iget ≠ sh.iput) :
    stored.drop got.length = sh.clifd sh.iget :: stored.drop (got.length + 1) := by
  obtain ⟨inside, same⟩ := List.getElem?_eq_some_iff.mp (queue.next alive filled)
  rw [List.drop_eq_getElem_cons inside, same]

end

def Queued (trace : List (Step Worker)) (s : State Worker) : Prop :=
  Queue (log acceptedFd trace) (log storedFd trace) (log gotFd trace) (held (s.phase none)) s.shared

theorem queued_step (trace : List (Step Worker)) (e : Step Worker) (stepped : machine.Stepped e)
    (placed : Placed e.before) (queued : Queued trace e.before) :
    Queued (trace ++ [e]) e.after := by
  obtain ⟨alive, does⟩ := step_does e stepped
  have own := placed (thread e.action)
  obtain ⟨s, a, output, after⟩ := e
  simp only [Queued, log_snoc] at queued ⊢
  simp only at does own alive
  cases does with
  | accept here _ =>
      rw [here] at own
      rw [main_of_accept own] at here ⊢
      simp only [here, held] at queued
      simpa [acceptedFd, storedFd, gotFd, held] using
        { queued with order := by simp [queued.order] }
  | put here room woken =>
      rw [here] at own
      rw [main_of_put own] at here ⊢
      simp only [here, held] at queued
      have stores : Queue _ _ _ _ (s.shared.put _) := queued.put alive s.shared.exited fun _ => room
      simpa [acceptedFd, storedFd, gotFd, held] using stores
  | errQuit here full =>
      rw [here] at own
      rw [main_of_put own] at here ⊢
      simp only [here, held] at queued
      simpa [acceptedFd, storedFd, gotFd, held] using queued.put alive true (by simp)
  | get here filled =>
      -- only a worker comes to the loop; main has its own places
      obtain ⟨w, worker⟩ := worker_of_loop here own
      simpa [acceptedFd, storedFd, gotFd, worker] using queued.get alive filled
  | wait here _ =>
      obtain ⟨w, worker⟩ := worker_of_loop here own
      simpa [acceptedFd, storedFd, gotFd, worker] using queued
  | close here _ =>
      rw [here] at own
      obtain ⟨w, worker⟩ := worker_of_child own
      simpa [acceptedFd, storedFd, gotFd, worker] using { queued with }
  | errSys here _ =>
      rw [here] at own
      obtain ⟨w, worker⟩ := worker_of_child own
      simpa [acceptedFd, storedFd, gotFd, worker] using { queued with room := by simp }
  | spurious here =>
      rw [here] at own
      cases main : thread a with
      | none => rw [main] at own; exact own.elim
      | some w => simpa [main] using queued

/-! Who has the open descriptors. -/

def owns (fd : Nat) (p : Phase Local Unit) : Nat := (held p).count fd

def Owned (trace : List (Step Worker)) (s : State Worker) : Prop :=
  ∀ fd, Threads.total s.phase (owns fd) +
      ((log storedFd trace).drop (log gotFd trace).length).count fd =
    (decide (fd ∈ s.shared.opened)).toNat

theorem owns_moved (phase : Option Worker → Phase Local Unit) (t : Option Worker)
    (p : Phase Local Unit) (fd : Nat) (before now : List Nat) (left : held (phase t) = before)
    (holds : held p = now) :
    Threads.total (Function.update phase t p) (owns fd) + before.count fd =
      Threads.total phase (owns fd) + now.count fd := by
  rw [← left, ← holds]
  exact Threads.total_update phase t p (owns fd)

theorem woken_owns {phase next : Option Worker → Phase Local Unit} {wake : Wake Unit}
    {target : Option (Option Worker)}
    (woken : Monitor.Woken (fun _ => ()) phase wake target next) (fd : Nat) :
    Threads.total next (owns fd) = Threads.total phase (owns fd) :=
  Monitor.woken_total woken _ fun _ => rfl

omit [DecidableEq Worker] in
theorem held_opened (trace : List (Step Worker)) (s : State Worker) (owned : Owned trace s)
    (t : Option Worker) (connfd : Nat) (here : held (s.phase t) = [connfd]) :
    connfd ∈ s.shared.opened := by
  have one := Threads.weight_le_total s.phase (owns connfd) t
  have all := owned connfd
  rw [owns, here, List.count_singleton_self] at one
  by_contra unused
  simp only [unused, decide_false, Bool.toNat_false] at all
  omega

theorem put_owned (trace : List (Step Worker)) (s : State Worker) (t : Option Worker)
    (connfd : Nat) (phase : Option Worker → Phase Local Unit) (owned : Owned trace s)
    (here : phase t = .outside (.put connfd))
    (same : ∀ fd, Threads.total phase (owns fd) = Threads.total s.phase (owns fd))
    (least : (log gotFd trace).length ≤ (log storedFd trace).length) (fd : Nat) :
    Threads.total (Function.update phase t (.outside .accept)) (owns fd) +
        ((log storedFd trace ++ [connfd]).drop (log gotFd trace).length).count fd =
      (decide (fd ∈ s.shared.opened)).toNat := by
  have before := owned fd
  have moved := owns_moved phase t (.outside .accept) fd [connfd] [] (by rw [here]; rfl) rfl
  rw [same, List.count_nil] at moved
  rw [List.drop_append_of_le_length least, List.count_append]
  omega

theorem held_loop {p : Phase Local Unit} (here : AtLoop p) : held p = [] := by
  rcases here with rfl | rfl <;> rfl

theorem owned_step (trace : List (Step Worker)) (e : Step Worker) (stepped : machine.Stepped e)
    (queued : Queued trace e.before) (owned : Owned trace e.before) :
    Owned (trace ++ [e]) e.after := by
  obtain ⟨alive, does⟩ := step_does e stepped
  have least := queued.taken.length_le
  obtain ⟨s, a, output, after⟩ := e
  intro fd
  have before := owned fd
  simp only [log_snoc]
  simp only at does alive before least
  cases does with
  | @accept connfd here unused =>
      have moved := owns_moved s.phase (thread a) (.outside (.put connfd)) fd [] [connfd]
        (by rw [here]; rfl) rfl
      rw [List.count_nil] at moved
      simp only [Option.bind_some, storedFd, gotFd, Option.toList_none, List.append_nil]
      by_cases same : connfd = fd
      · subst fd
        simp only [unused, decide_false, Bool.toNat_false, List.count_singleton_self,
          Finset.mem_insert_self, decide_true, Bool.toNat_true] at moved before ⊢
        omega
      · rw [List.count_singleton, if_neg (by simpa using same)] at moved
        simp only [Finset.mem_insert, Ne.symm same, false_or]
        omega
  | @put connfd target phase here _ woken =>
      have kept := Monitor.woken_runner woken (thread a) (by simp [here])
      simp only [Option.bind_some, storedFd, gotFd, Option.toList_some, Option.toList_none,
        List.append_nil]
      exact put_owned trace s (thread a) connfd phase owned (kept.trans here) (woken_owns woken)
        least fd
  | @errQuit connfd here full =>
      simp only [Option.bind_some, storedFd, gotFd, Option.toList_some, Option.toList_none,
        List.append_nil]
      exact put_owned trace s (thread a) connfd s.phase owned here (fun _ => rfl) least fd
  | get here filled =>
      -- the descriptor taken is the first of those that wait in the ring
      have moved := owns_moved s.phase (thread a)
        (.outside (.webChild (s.shared.clifd s.shared.iget))) fd []
        [s.shared.clifd s.shared.iget] (held_loop here) rfl
      have waits := queued.waiting_get alive filled
      simp only at waits
      rw [waits, List.count_cons] at before
      rw [List.count_nil, List.count_singleton] at moved
      simp only [Option.bind_some, storedFd, gotFd, Option.toList_some, Option.toList_none,
        List.append_nil, List.length_append, List.length_singleton]
      omega
  | wait here _ =>
      have moved := owns_moved s.phase (thread a) (.waiting .blocked ()) fd [] []
        (held_loop here) rfl
      simp only [Option.bind_some, storedFd, gotFd, Option.toList_none, List.append_nil]
      omega
  | @close connfd here opened =>
      have moved := owns_moved s.phase (thread a) (.outside .idle) fd [connfd] []
        (by rw [here]; rfl) rfl
      rw [List.count_nil] at moved
      simp only [Option.bind_some, storedFd, gotFd, Option.toList_none, List.append_nil]
      by_cases same : connfd = fd
      · subst fd
        simp only [opened, decide_true, Bool.toNat_true, List.count_singleton_self,
          Finset.notMem_erase, decide_false, Bool.toNat_false] at moved before ⊢
        omega
      · rw [List.count_singleton, if_neg (by simpa using same)] at moved
        simp only [Finset.mem_erase, Ne.symm same, ne_eq, not_false_eq_true, true_and]
        omega
  | @errSys connfd here unused =>
      -- what a thread holds is open, so Close does not fail
      exact absurd (held_opened trace s owned (thread a) connfd (by rw [here]; rfl)) unused
  | spurious here =>
      have moved := owns_moved s.phase (thread a) (.waiting .awakened ()) fd [] []
        (by rw [here]; rfl) rfl
      simp only [Option.bind_none, Option.toList_none, List.append_nil]
      omega

/-! What each thread takes, it closes before it takes the next. -/

def Serves (trace : List (Step Worker)) (s : State Worker) : Prop :=
  ∀ w, logOf (some w) gotFd trace = logOf (some w) closedFd trace ++ held (s.phase (some w))

omit [Fintype Worker] in
/-- A thread's step may wake another one, and changes nothing that it holds. -/
theorem does_others {s after : State Worker} {t u : Option Worker} {output : Option Output}
    (does : Does s t output after) (other : u ≠ t) : held (after.phase u) = held (s.phase u) := by
  cases does with
  | put _ _ woken =>
      simp only [Function.update_of_ne other]
      rcases Monitor.woken_each woken u with same | ⟨_, blocked, awake⟩
      · rw [same]
      · rw [blocked, awake]
        rfl
  | accept _ _ => simp only [Function.update_of_ne other]
  | errQuit _ _ => simp only [Function.update_of_ne other]
  | get _ _ => simp only [Function.update_of_ne other]
  | wait _ _ => simp only [Function.update_of_ne other]
  | close _ _ => simp only [Function.update_of_ne other]
  | errSys _ _ => simp only [Function.update_of_ne other]
  | spurious _ => simp only [Function.update_of_ne other]

theorem serves_step (trace : List (Step Worker)) (e : Step Worker) (stepped : machine.Stepped e)
    (placed : Placed e.before) (owned : Owned trace e.before) (serves : Serves trace e.before) :
    Serves (trace ++ [e]) e.after := by
  obtain ⟨_, does⟩ := step_does e stepped
  have own := placed (thread e.action)
  obtain ⟨s, a, output, after⟩ := e
  intro w
  have before := serves w
  simp only [log_of_snoc]
  simp only at does own before
  by_cases mine : thread a = some w
  · rw [if_pos mine, if_pos mine]
    rw [mine] at does own
    cases does with
    | accept here _ => rw [here] at own; exact own.elim
    | put here _ _ => rw [here] at own; exact own.elim
    | errQuit here _ => rw [here] at own; exact own.elim
    | get here _ =>
        rw [held_loop here] at before
        simpa [gotFd, closedFd, held] using before
    | wait here _ =>
        rw [held_loop here] at before
        simpa [gotFd, closedFd, held] using before
    | close here _ => simpa [gotFd, closedFd, held, here] using before
    | errSys here unused =>
        exact absurd (held_opened trace s owned (some w) _ (by rw [here]; rfl)) unused
    | spurious here => simpa [held, here] using before
  · rw [if_neg mine, if_neg mine, List.append_nil, List.append_nil, before,
      does_others does (Ne.symm mine)]

/-! Wake-ups. -/

def Quiescent (s : State Worker) : Prop := ∀ t, s.phase t ≠ .waiting .awakened ()

def LostWakeup (s : State Worker) : Prop :=
  s.shared.iget ≠ s.shared.iput ∧ Quiescent s ∧ ∃ w, s.phase (some w) = .waiting .blocked ()

def waiters (phase : Option Worker → Phase Local Unit) (mode : Mode) : Nat :=
  Threads.count phase (Monitor.atMode mode fun _ => true)

/-- Behind a blocked thread every stored descriptor has an awakened thread. -/
def Covered (trace : List (Step Worker)) (s : State Worker) : Prop :=
  s.shared.exited = false → 0 < waiters s.phase .blocked →
    (log storedFd trace).length ≤ (log gotFd trace).length + waiters s.phase .awakened

theorem waiters_moved (phase : Option Worker → Phase Local Unit) (t : Option Worker)
    (q p : Phase Local Unit) (here : phase t = q) (mode : Mode) :
    waiters (Function.update phase t p) mode +
        (Monitor.atMode mode (fun _ => true) q).toNat =
      waiters phase mode + (Monitor.atMode mode (fun _ => true) p).toNat := by
  rw [← here]
  exact Threads.count_update phase t p _

theorem waiters_same {phase : Option Worker → Phase Local Unit} {t : Option Worker}
    {owned : Local} (here : phase t = .outside owned) (next : Local) (mode : Mode) :
    waiters (Function.update phase t (.outside next)) mode = waiters phase mode :=
  waiters_moved phase t _ (.outside next) here mode

theorem signal_waiters {phase next : Option Worker → Phase Local Unit}
    {target : Option (Option Worker)}
    (woken : Monitor.Woken (fun _ => ()) phase (.signal ()) target next) :
    waiters next .blocked = 0 ∨
      (0 < waiters phase .blocked ∧
        waiters next .awakened = waiters phase .awakened + 1) := by
  cases woken with
  | nobody absent =>
      left
      rw [waiters, Threads.count_eq_zero]
      intro t
      have here := absent t
      cases at_ : phase t with
      | outside owned => rfl
      | waiting mode call =>
          cases mode with
          | blocked => simp [Monitor.blockedOn, at_] at here
          | awakened => rfl
          | cancelled => rfl
  | @signal _ t call blocked _ =>
      right
      have both := Monitor.count_awakened_one phase t call blocked fun _ => true
      simp only [Bool.toNat_true] at both
      simp only [waiters]
      omega

omit [DecidableEq Worker] in
theorem waiter_counted {s : State Worker} {t : Option Worker} {mode : Mode}
    (here : s.phase t = .waiting mode ()) : 0 < waiters s.phase mode :=
  (Monitor.waiters_pos s mode _).mpr ⟨t, (), here, rfl⟩

omit [DecidableEq Worker] in
theorem quiescent_waiters {s : State Worker} (quiet : Quiescent s) :
    waiters s.phase .awakened = 0 := by
  by_contra ready
  obtain ⟨t, call, here, _⟩ :=
    (Monitor.waiters_pos s .awakened _).mp (Nat.pos_of_ne_zero ready)
  exact quiet t here

theorem covered_step (trace : List (Step Worker)) (e : Step Worker) (stepped : machine.Stepped e)
    (queued : Queued trace e.before) (covered : Covered trace e.before) :
    Covered (trace ++ [e]) e.after := by
  obtain ⟨alive, does⟩ := step_does e stepped
  have before := covered alive
  have empty := queued.empty_iff alive
  obtain ⟨s, a, output, after⟩ := e
  intro goes waiting
  simp only [log_snoc, List.length_append]
  simp only at does before empty goes waiting
  cases does with
  | accept here _ =>
      rw [waiters_same here] at waiting ⊢
      exact before waiting
  | put here _ woken =>
      have kept := Monitor.woken_runner woken (thread a) (by simp [here])
      rw [waiters_same (kept.trans here)] at waiting ⊢
      -- one more descriptor waits, and one more thread is awake if any was blocked
      rcases signal_waiters woken with nobody | ⟨some_blocked, more⟩
      · omega
      · have enough := before some_blocked
        simp only [Option.bind_some, storedFd, gotFd, Option.toList_some, Option.toList_none,
          List.length_singleton, List.length_nil]
        omega
  | errQuit _ _ => simp at goes
  | get here filled =>
      simp only [Option.bind_some, storedFd, gotFd, Option.toList_some, Option.toList_none,
        List.length_singleton, List.length_nil]
      rcases here with idle | awake
      · rw [waiters_same idle] at waiting ⊢
        have enough := before waiting
        omega
      · have gone := waiters_moved s.phase (thread a) _
          (.outside (.webChild (s.shared.clifd s.shared.iget))) awake
        have blocked := gone .blocked
        have awakened := gone .awakened
        simp only [Monitor.at_mode_waiting, Monitor.at_mode_outside, reduceCtorEq, decide_false,
          decide_true, Bool.and_true, Bool.toNat_true, Bool.toNat_false] at blocked awakened
        simp only at waiting ⊢
        have enough := before (by omega)
        omega
  | wait here drained =>
      -- a thread goes to sleep only when nothing is stored
      have same := empty.mp drained
      simp only [Option.bind_some, storedFd, gotFd, Option.toList_none, List.length_nil]
      omega
  | close here _ =>
      rw [waiters_same here] at waiting ⊢
      exact before waiting
  | errSys _ _ => simp at goes
  | spurious here =>
      have awakened := waiters_moved s.phase (thread a) _ (.waiting .awakened ()) here .awakened
      simp only [Monitor.at_mode_waiting, reduceCtorEq, decide_false, decide_true, Bool.and_true,
        Bool.toNat_true, Bool.toNat_false] at awakened
      have enough := before (waiter_counted here)
      simp only [Option.bind_none, Option.toList_none, List.length_nil]
      omega

/-! The promise. -/

/-- The main thread gives up only with MAXNCLI accepted descriptors waiting. -/
def Quits (trace : List (Step Worker)) : Prop :=
  ∀ pre e post connfd, trace = pre ++ e :: post → e.output = some (.errQuit connfd) →
    ((log acceptedFd pre).drop (log gotFd pre).length).length = maxNCli

structure Sound (trace : List (Step Worker)) (s : State Worker) : Prop where
  order : log gotFd trace <+: log acceptedFd trace
  workers : ∀ e ∈ trace, (e.output.bind gotFd).isSome = true → ∃ w, thread e.action = some w
  served : ∀ w, logOf (some w) gotFd trace =
    logOf (some w) closedFd trace ++ held (s.phase (some w))
  closes : ∀ e ∈ trace, ∀ connfd, e.output ≠ some (.errSys connfd)
  quits : Quits trace
  awake : ¬ LostWakeup s

structure Inv (trace : List (Step Worker)) (s : State Worker) : Prop where
  placed : Placed s
  queued : Queued trace s
  owned : Owned trace s
  serves : Serves trace s
  covered : Covered trace s
  ended : s.shared.exited = true → s.shared.iget = s.shared.iput

theorem ended_step (trace : List (Step Worker)) (e : Step Worker) (stepped : machine.Stepped e)
    (owned : Owned trace e.before) (dead : e.after.shared.exited = true) :
    e.after.shared.iget = e.after.shared.iput := by
  obtain ⟨alive, does⟩ := step_does e stepped
  obtain ⟨s, a, output, after⟩ := e
  simp only at does alive dead owned ⊢
  cases does with
  | errQuit here full => exact full.symm
  | errSys here unused =>
      exact absurd (held_opened trace s owned (thread a) _ (by rw [here]; rfl)) unused
  | accept _ _ => simp [alive] at dead
  | put _ _ _ => simp [alive, Shared.put] at dead
  | get _ _ => simp [alive] at dead
  | wait _ _ => simp [alive] at dead
  | close _ _ => simp [alive] at dead
  | spurious _ => simp [alive] at dead

theorem start_inv (s : State Worker) (first : machine.start s) : Inv [] s := by
  obtain ⟨get, put, opened, alive, outside⟩ := first
  refine ⟨?_, ?_, ?_, ?_, ?_, ?_⟩
  · intro t
    rw [outside t]
    cases t <;> trivial
  · have nothing : held (s.phase none) = [] := by rw [outside]; rfl
    rw [Queued, nothing]
    exact ⟨rfl, List.prefix_rfl, get, put, Ring.holds_nothing _ _, by simp [log, maxNCli]⟩
  · intro fd
    have none_held : Threads.total s.phase (owns fd) = 0 := by
      rw [Threads.total_eq_zero]
      intro t
      rw [outside t]
      cases t <;> rfl
    simp [none_held, opened, log]
  · intro w
    rw [outside]
    rfl
  · intro _ waiting
    obtain ⟨t, call, here, _⟩ := (Monitor.waiters_pos s .blocked _).mp waiting
    rw [outside t] at here
    cases here
  · intro _
    rw [get, put]

theorem run_inv (trace : List (Step Worker)) (s : State Worker) (run : machine.Run trace s) :
    Inv trace s := by
  refine run.history (C := fun _ => True) start_inv ?_ fun _ _ => trivial
  intro trace e stepped _ inv
  exact ⟨does_placed (step_does e stepped).2 inv.placed,
    queued_step trace e stepped inv.placed inv.queued,
    owned_step trace e stepped inv.queued inv.owned,
    serves_step trace e stepped inv.placed inv.owned inv.serves,
    covered_step trace e stepped inv.queued inv.covered,
    ended_step trace e stepped inv.owned⟩

theorem run_workers (trace : List (Step Worker)) (s : State Worker) (run : machine.Run trace s) :
    ∀ e ∈ trace, (e.output.bind gotFd).isSome = true → ∃ w, thread e.action = some w := by
  refine run.each fun pre e earlier stepped => ?_
  have placed := (run_inv pre e.before earlier).placed
  have does := (step_does e stepped).2
  intro takes
  obtain ⟨s, a, output, after⟩ := e
  simp only at does takes
  cases does with
  | get here _ => exact worker_of_loop here (placed _)
  | accept _ _ => simp [gotFd] at takes
  | put _ _ _ => simp [gotFd] at takes
  | errQuit _ _ => simp [gotFd] at takes
  | wait _ _ => simp [gotFd] at takes
  | close _ _ => simp [gotFd] at takes
  | errSys _ _ => simp [gotFd] at takes
  | spurious _ => simp at takes

theorem run_closes (trace : List (Step Worker)) (s : State Worker) (run : machine.Run trace s) :
    ∀ e ∈ trace, ∀ connfd, e.output ≠ some (.errSys connfd) := by
  refine run.each fun pre e earlier stepped connfd failed => ?_
  have owned := (run_inv pre e.before earlier).owned
  have does := (step_does e stepped).2
  obtain ⟨s, a, output, after⟩ := e
  simp only at does failed owned
  subst output
  cases does with
  | errSys here unused => exact unused (held_opened pre s owned _ connfd (by rw [here]; rfl))

theorem run_quits (trace : List (Step Worker)) (s : State Worker) (run : machine.Run trace s) :
    Quits trace := by
  rintro pre e post connfd rfl failed
  obtain ⟨earlier, stepped⟩ := run.split
  have before := run_inv pre e.before earlier
  obtain ⟨alive, does⟩ := step_does e stepped
  obtain ⟨s, a, output, after⟩ := e
  simp only at does failed before alive
  subst output
  cases does with
  | errQuit here full =>
      have home := before.placed (thread a)
      rw [here] at home
      rw [main_of_put home] at here
      have queued := before.queued
      rw [Queued, here] at queued
      -- 31 in the ring, and the one in hand
      have least := queued.taken.length_le
      have filled := (queued.full_iff alive).mp full
      rw [List.length_drop, queued.order, List.length_append]
      simp only [held, List.length_singleton]
      omega

theorem run_awake (trace : List (Step Worker)) (s : State Worker) (run : machine.Run trace s) :
    ¬ LostWakeup s := by
  have inv := run_inv trace s run
  rintro ⟨filled, quiet, w, blocked⟩
  by_cases alive : s.shared.exited = false
  · have enough := inv.covered alive (waiter_counted blocked)
    rw [quiescent_waiters quiet] at enough
    have least := inv.queued.taken.length_le
    exact filled ((inv.queued.empty_iff alive).mpr (by omega))
  · exact filled (inv.ended (by simpa using alive))

theorem run_sound (trace : List (Step Worker)) (s : State Worker) (run : machine.Run trace s) :
    Sound trace s := by
  have inv := run_inv trace s run
  refine ⟨?_, run_workers trace s run, inv.serves, run_closes trace s run, run_quits trace s run,
    run_awake trace s run⟩
  rw [inv.queued.order]
  exact inv.queued.taken.trans (List.prefix_append _ _)

/-! Without further connections the threads finish what has been accepted. -/

def inRing (sh : Shared) : Nat := (sh.iput + maxNCli - sh.iget) % maxNCli

/-- A descriptor is put, taken and closed. -/
def toDo : Phase Local Unit → Nat
  | .outside (.put _) => 3
  | .outside (.webChild _) => 1
  | _ => 0

def work (s : State Worker) : Nat := 2 * inRing s.shared + Threads.total s.phase toDo

theorem in_ring_eq {accepted stored got rest : List Nat} {sh : Shared}
    (queue : Queue accepted stored got rest sh) (alive : sh.exited = false) :
    got.length + inRing sh = stored.length := by
  have most := queue.room alive
  have least := queue.taken.length_le
  rw [inRing, queue.iget, queue.iput]
  simp only [maxNCli] at *
  omega

theorem step_enter (s : State Worker) (t : Option Worker) (call : Call) (owned : Local)
    (target : Option (Option Worker)) (sec : ServSection) (phase : Option Worker → Phase Local Unit)
    (alive : s.shared.exited = false) (here : s.phase t = .outside owned)
    (ran : enter owned call s.shared = some sec)
    (woke : Monitor.wakeUp (fun _ => ()) s.phase sec.wake target = some phase) :
    step s (.enter t call target) =
      some (⟨sec.shared, Function.update phase t sec.exit.phase⟩, some sec.output) := by
  simp [step, alive, Monitor.step, Monitor.sectionOf, here, monitor, ran, woke]

theorem can_get (s : State Worker) (t : Option Worker) (alive : s.shared.exited = false)
    (here : AtLoop (s.phase t)) (filled : s.shared.iget ≠ s.shared.iput) :
    ∃ a, step s a = some (⟨{ s.shared with iget := advance s.shared.iget },
      Function.update s.phase t (.outside (.webChild (s.shared.clifd s.shared.iget)))⟩,
      some (.got (s.shared.clifd s.shared.iget))) := by
  have gets : getLoop s.shared = ⟨{ s.shared with iget := advance s.shared.iget }, .quiet,
      .got (s.shared.clifd s.shared.iget),
      .leave (.webChild (s.shared.clifd s.shared.iget))⟩ := if_neg filled
  rcases here with idle | awake
  · refine ⟨.enter t .get none, ?_⟩
    rw [step_enter s t .get .idle none _ s.phase alive idle rfl (by rw [gets]; rfl), gets]
    rfl
  · refine ⟨.resume t () none, ?_⟩
    simp [step, alive, Monitor.step, Monitor.sectionOf, awake, monitor, gets, Monitor.wakeUp,
      Exit.phase]

/-- Somebody can take what is in the ring, unless every worker is busy. -/
theorem some_at_loop [Nonempty Worker] (trace : List (Step Worker)) (s : State Worker)
    (run : machine.Run trace s) (filled : s.shared.iget ≠ s.shared.iput)
    (free : ∀ w connfd, s.phase (some w) ≠ .outside (.webChild connfd)) :
    ∃ t, AtLoop (s.phase t) := by
  have inv := run_inv trace s run
  by_contra! nobody
  obtain ⟨w⟩ := ‹Nonempty Worker›
  have blocked : s.phase (some w) = .waiting .blocked () := by
    have home := inv.placed (some w)
    cases here : s.phase (some w) with
    | outside owned =>
        cases owned with
        | accept => simp [here, AtHome] at home
        | put connfd => simp [here, AtHome] at home
        | idle => exact absurd (Or.inl here) (nobody (some w))
        | webChild connfd => exact absurd here (free w connfd)
    | waiting mode call =>
        cases mode with
        | blocked => rfl
        | awakened => exact absurd (Or.inr here) (nobody (some w))
        | cancelled => simp [here, AtHome] at home
  refine run_awake trace s run ⟨filled, ?_, w, blocked⟩
  intro t awake
  exact nobody t (Or.inr awake)

theorem work_less (s : State Worker) (t : Option Worker)
    (phase : Option Worker → Phase Local Unit) (p : Phase Local Unit) (sh : Shared)
    (same : Threads.total phase toDo = Threads.total s.phase toDo)
    (less : 2 * inRing sh + toDo p < 2 * inRing s.shared + toDo (phase t)) :
    work ⟨sh, Function.update phase t p⟩ < work s := by
  have moved := Threads.total_update phase t p toDo
  simp only [work]
  omega

theorem put_of_to_do {p : Phase Local Unit} (left : toDo p ≠ 0)
    (free : ∀ connfd, p ≠ .outside (.webChild connfd)) : ∃ connfd, p = .outside (.put connfd) := by
  unfold toDo at left
  split at left
  · exact ⟨_, rfl⟩
  · exact absurd rfl (free _)
  · exact absurd rfl left

def Lowers (s : State Worker) (e : Step Worker) : Prop :=
  e.before = s ∧ machine.Stepped e ∧ e.output.bind acceptedFd = none ∧
    e.after.shared.exited = false ∧ work e.after < work s

theorem close_lowers (trace : List (Step Worker)) (s : State Worker) (owned : Owned trace s)
    (alive : s.shared.exited = false) {t : Option Worker} {connfd : Nat}
    (here : s.phase t = .outside (.webChild connfd)) : ∃ e, Lowers s e := by
  have opened := held_opened trace s owned t connfd (by rw [here]; rfl)
  have closes : close connfd s.shared = ⟨{ s.shared with
      opened := s.shared.opened.erase connfd }, .quiet, .closed connfd, .leave .idle⟩ :=
    if_pos opened
  refine ⟨⟨s, .enter t .close none, _, _⟩, rfl,
    step_enter s t .close (.webChild connfd) none _ s.phase alive here rfl
      (by rw [closes]; rfl), ?_, ?_, ?_⟩
  · simp [closes, acceptedFd]
  · simpa only [closes] using alive
  · simp only [closes]
    refine work_less s t s.phase _ _ rfl ?_
    simp [here, toDo, Exit.phase, inRing]

theorem put_lowers (trace : List (Step Worker)) (s : State Worker) (inv : Inv trace s)
    (alive : s.shared.exited = false) (drained : s.shared.iget = s.shared.iput)
    {t : Option Worker} {connfd : Nat} (here : s.phase t = .outside (.put connfd)) :
    ∃ e, Lowers s e := by
  have stored := in_ring_eq inv.queued alive
  have empty := (inv.queued.empty_iff alive).mp drained
  obtain ⟨target, phase, woke⟩ := Monitor.signal_enabled (fun _ => ()) s.phase ()
  have woken := Monitor.wake_up_woken _ _ _ _ _ woke
  have kept := Monitor.woken_runner woken t (by simp [here])
  have main : t = none := main_of_put (here ▸ inv.placed t)
  have queued := inv.queued
  rw [Queued, ← main, here] at queued
  have room : advance s.shared.iput ≠ s.shared.iget := by
    intro full
    have most := (queued.full_iff alive).mp full
    simp only [maxNCli] at most
    omega
  have puts : putSection connfd s.shared = ⟨s.shared.put connfd, .signal (), .put connfd,
      .leave .accept⟩ := if_neg room
  refine ⟨⟨s, .enter t .put target, _, _⟩, rfl,
    step_enter s t .put (.put connfd) target _ phase alive here rfl
      (by rw [puts]; exact woke), ?_, ?_, ?_⟩
  · simp [puts, acceptedFd]
  · simpa only [puts, Shared.put] using alive
  · simp only [puts]
    refine work_less s t phase _ _ (Monitor.woken_total woken _ fun _ => rfl) ?_
    -- three steps of work become two and a descriptor in the ring
    have more := in_ring_eq (queued.put alive s.shared.exited fun _ => room) alive
    rw [List.length_append, List.length_singleton] at more
    have one : inRing (s.shared.put connfd) = inRing s.shared + 1 :=
      Nat.add_left_cancel (n := (log gotFd trace).length) (more.trans (by omega))
    rw [kept, here, one]
    simp only [toDo, Exit.phase]
    omega

theorem get_lowers (trace : List (Step Worker)) (s : State Worker) (queued : Queued trace s)
    (alive : s.shared.exited = false) (filled : s.shared.iget ≠ s.shared.iput)
    {t : Option Worker} (here : AtLoop (s.phase t)) : ∃ e, Lowers s e := by
  have stored := in_ring_eq queued alive
  obtain ⟨a, stepped⟩ := can_get s t alive here filled
  refine ⟨⟨s, a, _, _⟩, rfl, stepped, rfl, alive, ?_⟩
  refine work_less s t s.phase _ _ rfl ?_
  have fewer := in_ring_eq (queued.get alive filled) alive
  rw [List.length_append, List.length_singleton] at fewer
  have idle : toDo (s.phase t) = 0 := by
    rcases here with idle | awake
    · rw [idle]; rfl
    · rw [awake]; rfl
  rw [idle]
  simp only [toDo]
  omega

theorem work_lowers [Nonempty Worker] (trace : List (Step Worker)) (s : State Worker)
    (run : machine.Run trace s) (alive : s.shared.exited = false) (left : work s ≠ 0) :
    ∃ e, Lowers s e := by
  have inv := run_inv trace s run
  by_cases busy : ∃ t connfd, s.phase t = .outside (.webChild connfd)
  · obtain ⟨t, connfd, here⟩ := busy
    exact close_lowers trace s inv.owned alive here
  · push Not at busy
    by_cases drained : s.shared.iget = s.shared.iput
    · -- only the main thread's descriptor is left
      have stored := in_ring_eq inv.queued alive
      have empty := (inv.queued.empty_iff alive).mp drained
      have some_left : ¬ ∀ t, toDo (s.phase t) = 0 := by
        rw [← Threads.total_eq_zero]
        simp only [work] at left
        omega
      obtain ⟨t, remains⟩ := not_forall.mp some_left
      obtain ⟨connfd, here⟩ := put_of_to_do remains (busy t)
      exact put_lowers trace s inv alive drained here
    · obtain ⟨t, here⟩ := some_at_loop trace s run drained fun w => busy (some w)
      exact get_lowers trace s inv.queued alive drained here

structure Finished (trace : List (Step Worker)) (s : State Worker) : Prop where
  taken : log gotFd trace = log acceptedFd trace
  closed : ∀ w, logOf (some w) gotFd trace = logOf (some w) closedFd trace
  opened : s.shared.opened = ∅

omit [DecidableEq Worker] in
theorem idle_held {phase : Option Worker → Phase Local Unit}
    (idle : Threads.total phase toDo = 0) (t : Option Worker) : held (phase t) = [] := by
  have none_left := (Threads.total_eq_zero phase toDo).mp idle t
  unfold held
  split
  · rename_i here
    simp [here, toDo] at none_left
  · rename_i here
    simp [here, toDo] at none_left
  · rfl

theorem run_finishes [Nonempty Worker] (trace : List (Step Worker)) (s : State Worker)
    (run : machine.Run trace s) (alive : s.shared.exited = false) :
    ∃ more last, machine.Run (trace ++ more) last ∧
      (∀ e ∈ more, e.output.bind acceptedFd = none) ∧ Finished (trace ++ more) last := by
  obtain ⟨more, last, longer, quiet, goes, done⟩ :=
    run.drain (C := fun e => e.output.bind acceptedFd = none)
      (I := fun s => s.shared.exited = false) work work_lowers alive
  have inv := run_inv _ last longer
  have stored := in_ring_eq inv.queued goes
  simp only [work, Nat.add_eq_zero_iff, Nat.mul_eq_zero, OfNat.ofNat_ne_zero, false_or] at done
  have empty := idle_held done.2
  have all : log gotFd (trace ++ more) = log storedFd (trace ++ more) :=
    inv.queued.taken.eq_of_length (by omega)
  refine ⟨more, last, longer, quiet, ?_, ?_, ?_⟩
  · rw [inv.queued.order, empty none, List.append_nil, all]
  · intro w
    rw [inv.serves w, empty (some w), List.append_nil]
  · ext fd
    have none_open := inv.owned fd
    have nothing : Threads.total last.phase (owns fd) = 0 := by
      rw [Threads.total_eq_zero]
      intro t
      rw [owns, empty t, List.count_nil]
    rw [nothing, all, List.drop_length, List.count_nil] at none_open
    by_contra other
    have present : fd ∈ last.shared.opened := by simpa using other
    simp [present] at none_open

/-- Whatever the interleaving, the threads take the accepted descriptors in
order and close them, each its own; the main thread gives up only with a full
ring of them waiting, and no wake-up is lost. -/
theorem serv08_hands_over [Nonempty Worker] (trace : List (Step Worker)) (s : State Worker)
    (run : machine.Run trace s) :
    Sound trace s ∧ (s.shared.exited = false → ∃ more last, machine.Run (trace ++ more) last ∧
      (∀ e ∈ more, e.output.bind acceptedFd = none) ∧ Finished (trace ++ more) last) :=
  ⟨run_sound trace s run, run_finishes trace s run⟩

/-! Two workers: the first descriptor awakens one, but the other comes in ahead of
it; the second descriptor is there when the awakened one gets the mutex. -/

def started : State (Fin 2) :=
  ⟨⟨fun _ => 0, 0, 0, ∅, false⟩, fun t => .outside (home t)⟩

theorem two_handed_over :
    ∃ (trace : List (Step (Fin 2))) (s : State (Fin 2)), machine.Run trace s ∧
      trace.length = 7 ∧ log gotFd trace = [5, 6] ∧ Sound trace s ∧
      ∃ more last, machine.Run (trace ++ more) last ∧
        (∀ e ∈ more, e.output.bind acceptedFd = none) ∧ Finished (trace ++ more) last := by
  obtain ⟨trace, s, run, checked⟩ := Machine.run_of_check (M := machine) (s := started)
    ⟨rfl, rfl, rfl, rfl, fun _ => rfl⟩
    [.enter (some 1) .get none, .enter none (.accept 5) none, .enter none .put (some (some 1)),
      .enter (some 0) .get none, .enter none (.accept 6) none, .enter none .put none,
      .resume (some 1) () none]
    (fun r => decide (r.1.length = 7 ∧ log gotFd r.1 = [5, 6] ∧ r.2.shared.exited = false))
    (by decide +kernel)
  have met := of_decide_eq_true checked
  have done := serv08_hands_over trace s run
  exact ⟨trace, s, run, met.1, met.2.1, done.1, done.2 met.2.2⟩

end NetworkProgramming.Serv08
