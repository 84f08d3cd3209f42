import NetworkProgramming.Tselect

/-!
What becomes of the timers of a run. The function of a timer is called while its
node is still the first active one; as long as nothing is put before that node or
takes it away in the meantime, it is the node that is taken off afterwards.
-/

namespace NetworkProgramming.Tselect

open DoublyLinked

variable {Func Arg Mask : Type*}

structure Timer (Func Arg : Type*) where
  func : Func
  arg : Arg
  ms : Int
  now : Nat
  id : UInt32

/-- The timers of a run in the order of their creation, by whose numbers the others
speak: the timer each node was given to last, the timers whose function was called,
and those that untimeout was called for before. -/
structure Account (Func Arg : Type*) where
  timers : List (Timer Func Arg)
  holder : Nat → Nat
  called : List Nat
  cancelled : List Nat

namespace Account

def named (a : Account Func Arg) (id : UInt32) (n : Nat) : Bool :=
  a.timers[n]?.any fun timer => timer.id == id

def waiting (a : Account Func Arg) (id : UInt32) : List Nat :=
  (List.range a.timers.length).filter fun n =>
    a.named id n && !a.called.contains n && !a.cancelled.contains n

def create (a : Account Func Arg) (timer : Timer Func Arg) (tp : Nat) : Account Func Arg :=
  { a with
    timers := a.timers ++ [timer]
    holder := Function.update a.holder tp a.timers.length }

def record (a : Account Func Arg) (e : Step Func Arg Mask) : Account Func Arg :=
  match e.action, e.output with
  | .timeout func arg ms _ (some now), .created tp id => a.create ⟨func, arg, ms, now, id⟩ tp
  | .untimeout id, .cancelled _ => { a with cancelled := a.cancelled ++ a.waiting id }
  | .turn, .called tp _ _ => { a with called := a.called ++ [a.holder tp] }
  | _, _ => a

end Account

def account (trace : List (Step Func Arg Mask)) : Account Func Arg :=
  trace.foldl Account.record ⟨[], fun _ => 0, [], []⟩

theorem account_snoc (trace : List (Step Func Arg Mask)) (e : Step Func Arg Mask) :
    account (trace ++ [e]) = (account trace).record e := by
  rw [account, List.foldl_append]
  rfl

def Timer.event (timer : Timer Func Arg) : Tevent Func Arg :=
  ⟨expiry (gettimeofday timer.now) timer.ms, timer.func, timer.arg, timer.id⟩

/-- In the order of their times, and those of one time in the order of their creation. -/
def Earlier (a : Account Func Arg) (timers : Timers Func Arg) (p q : Nat) : Prop :=
  rank (timers.event q).tv < rank (timers.event p).tv ∨
    (timers.event q).tv = (timers.event p).tv ∧ a.holder p < a.holder q

structure Kept (a : Account Func Arg) (s : State Func Arg Mask) (active free : List Nat) :
    Prop where
  held : Held s.timers active free
  filled : ∀ p ∈ active, a.timers[a.holder p]?.map Timer.event = some (s.timers.event p)
  order : active.Pairwise (Earlier a s.timers)
  due : ∀ frame tvp, s.place = .select frame tvp →
    ∀ p ∈ active, timercmp (gettimeofday frame.now) (s.timers.event p).tv = true

theorem rank_inj (a b : Timeval) (same : rank a = rank b) : a = b := by
  have pair := toLex_inj.mp (OrderDual.toDual_inj.mp same)
  cases a
  cases b
  simpa using pair

theorem kept_start (s : State Func Arg Mask) (first : (machine Func Arg Mask).start s) :
    Kept (account ([] : List (Step Func Arg Mask))) s [] [] := by
  obtain ⟨noActive, noFree, -, noNode, -⟩ := first
  exact ⟨held_nil s.timers noActive noFree noNode, by simp, List.Pairwise.nil, by simp⟩

theorem Kept.held_by {a : Account Func Arg} {s : State Func Arg Mask} {active free : List Nat}
    (kept : Kept a s active free) (p : Nat) (member : p ∈ active) :
    a.holder p < a.timers.length := by
  have here := kept.filled p member
  by_contra beyond
  rw [List.getElem?_eq_none (by omega)] at here
  cases here

theorem Kept.create {a : Account Func Arg} {s : State Func Arg Mask} {active free : List Nat}
    (kept : Kept a s active free) (timer : Timer Func Arg) (tp : Nat) (timers : Timers Func Arg)
    (now : Nat) (user : s.place.user = true) (new : tp ∉ active)
    (event : timers.event = Function.update s.timers.event tp timer.event) (rest : List Nat)
    (held : Held timers (StablePriority.insert (fun p => rank (timers.event p).tv) active tp) rest) :
    Kept (a.create timer tp) { s with timers := timers, clock := now }
      (StablePriority.insert (fun p => rank (timers.event p).tv) active tp) rest := by
  have own : timers.event tp = timer.event := by rw [event, Function.update_self]
  have number : (a.create timer tp).holder tp = a.timers.length := Function.update_self _ _ _
  have others (p : Nat) (member : p ∈ active) : timers.event p = s.timers.event p ∧
      (a.create timer tp).holder p = a.holder p := by
    have apart : p ≠ tp := ne_of_mem_of_not_mem member new
    rw [event]
    exact ⟨Function.update_of_ne apart _ _, Function.update_of_ne apart _ _⟩
  refine ⟨held, ?_, ?_, ?_⟩
  · intro p member
    rcases (StablePriority.mem_insert_iff _ active tp p).mp member with rfl | old
    · rw [number, own, Account.create, List.getElem?_append_right (le_refl _), Nat.sub_self]
      rfl
    · rw [(others p old).1, (others p old).2, Account.create,
        List.getElem?_append_left (kept.held_by p old)]
      exact kept.filled p old
  · have sorted : active.Pairwise fun p q => rank (timers.event q).tv ≤ rank (timers.event p).tv := by
      refine kept.held.sorted.imp_of_mem fun {p q} first second below => ?_
      rwa [(others p first).1, (others q second).1]
    apply StablePriority.insert_pairwise _ active tp sorted
    · refine kept.order.imp_of_mem fun {p q} first second below => ?_
      rwa [Earlier, (others p first).1, (others q second).1, (others p first).2,
        (others q second).2]
    · -- the new timer has the greatest number
      intro p member here
      rcases lt_or_eq_of_le (not_lt.mp here) with earlier | same
      · exact Or.inl earlier
      · refine Or.inr ⟨rank_inj _ _ same, ?_⟩
        rw [number, (others p member).2]
        exact kept.held_by p member
    · intro p _ later
      exact Or.inl later
  · intro frame tvp here
    rw [show s.place = .select frame tvp from here] at user
    cases user

theorem Kept.timeout {a : Account Func Arg} {s : State Func Arg Mask} {active free : List Nat}
    (kept : Kept a s active free) (func : Func) (arg : Arg) (ms : Int) (now : Nat)
    (timers : Timers Func Arg) (tp : Nat) (user : s.place.user = true)
    (set : s.timers.timeout func arg ms (gettimeofday now) = some (timers, tp)) :
    tp ∉ active ∧
      timers.event = Function.update s.timers.event tp
        ⟨expiry (gettimeofday now) ms, func, arg, s.timers.nextId⟩ ∧
      ∃ rest, Kept (a.create ⟨func, arg, ms, now, (timers.event tp).id⟩ tp)
        { s with timers := timers, clock := now }
        (StablePriority.insert (fun p => rank (timers.event p).tv) active tp) rest := by
  obtain ⟨after, node, rest, called, new, event, -, held⟩ :=
    kept.held.timeout func arg ms (gettimeofday now)
  rw [called] at set
  cases set
  have id : (timers.event tp).id = s.timers.nextId := by rw [event, Function.update_self]
  refine ⟨new, event, rest, kept.create _ tp timers now user new ?_ rest held⟩
  rw [id]
  exact event

theorem Kept.shrink {a : Account Func Arg} {s : State Func Arg Mask} {active free : List Nat}
    (kept : Kept a s active free) {b : Account Func Arg} {after : State Func Arg Mask}
    {fewer more : List Nat} (held : Held after.timers fewer more) (sub : fewer.Sublist active)
    (event : after.timers.event = s.timers.event)
    (same : b.timers = a.timers ∧ b.holder = a.holder)
    (due : ∀ frame tvp, after.place = .select frame tvp →
      ∀ p ∈ active, timercmp (gettimeofday frame.now) (s.timers.event p).tv = true) :
    Kept b after fewer more := by
  obtain ⟨list, holder⟩ := same
  refine ⟨held, ?_, ?_, ?_⟩
  · intro p member
    rw [list, holder, event]
    exact kept.filled p (sub.subset member)
  · refine (kept.order.sublist sub).imp fun {p q} below => ?_
    rwa [Earlier, holder, event]
  · intro frame tvp here p member
    rw [event]
    exact due frame tvp here p (sub.subset member)

theorem Kept.stay {a : Account Func Arg} {s after : State Func Arg Mask} {active free : List Nat}
    (kept : Kept a s active free) {b : Account Func Arg} (timers : after.timers = s.timers)
    (same : b.timers = a.timers ∧ b.holder = a.holder)
    (apart : ∀ frame tvp, after.place ≠ .select frame tvp) : Kept b after active free := by
  have held : Held after.timers active free := by rw [timers]; exact kept.held
  exact kept.shrink held (List.Sublist.refl active) (by rw [timers]) same
    fun frame tvp here => absurd here (apart frame tvp)

def State.running (s : State Func Arg Mask) : Option Nat :=
  match s.place with
  | .callback _ => s.timers.active
  | _ => none

def pending (place : Place Mask) (active : List Nat) : List Nat :=
  match place with
  | .callback _ => active.tail
  | _ => active

/-- A function puts no timer before its own, and no call of untimeout names that timer
or has a choice of two. -/
def Unharmed (e : Step Func Arg Mask) : Bool :=
  let timers := e.before.timers
  match e.action with
  | .timeout _ _ ms _ (some now) =>
      e.before.running.all fun tp =>
        !timercmp (expiry (gettimeofday now) ms) (timers.event tp).tv
  | .untimeout id =>
      (timers.actives.filter fun p => (timers.event p).id == id).length ≤ 1 &&
        e.before.running.all fun tp => (timers.event tp).id != id
  | _ => true

/-- As long as the process runs, every timer is one of these, and only once. -/
structure Accounted (a : Account Func Arg) (s : State Func Arg Mask) (active : List Nat) :
    Prop where
  all : s.place ≠ .exited → (a.called ++ a.cancelled ++ (pending s.place active).map a.holder).Perm
    (List.range a.timers.length)
  running : ∀ frame, s.place = .callback frame → active ≠ []
  alive : s.place ≠ .crashed

theorem accounted_start (s : State Func Arg Mask) (first : (machine Func Arg Mask).start s) :
    Accounted (account ([] : List (Step Func Arg Mask))) s [] := by
  have here : s.place = .caller := first.2.2.2.2
  refine ⟨fun _ => ?_, by simp [here], by simp [here]⟩
  rw [here]
  exact List.Perm.refl []

theorem pending_subset (place : Place Mask) (active : List Nat) :
    (pending place active).Sublist active := by
  cases place with
  | callback frame => exact List.tail_sublist active
  | _ => exact List.Sublist.refl active

theorem Accounted.create {a : Account Func Arg} {s : State Func Arg Mask} {active : List Nat}
    (accounted : Accounted a s active) (timer : Timer Func Arg) (tp : Nat)
    (timers : Timers Func Arg) (now : Nat) (more : List Nat) (runs : s.place ≠ .exited)
    (new : tp ∉ active) (put : (pending s.place more).Perm (tp :: pending s.place active))
    (some_ : more ≠ []) :
    Accounted (a.create timer tp) { s with timers := timers, clock := now } more := by
  refine ⟨fun _ => ?_, fun _ _ => some_, accounted.alive⟩
  have old : (pending s.place active).map (a.create timer tp).holder =
      (pending s.place active).map a.holder := by
    apply List.map_congr_left
    intro p member
    exact Function.update_of_ne
      (ne_of_mem_of_not_mem ((pending_subset s.place active).subset member) new) _ _
  have number : (a.create timer tp).holder tp = a.timers.length := Function.update_self _ _ _
  have moved := put.map (a.create timer tp).holder
  rw [List.map_cons, old, number] at moved
  have size : (a.create timer tp).timers.length = a.timers.length + 1 := by
    rw [Account.create, List.length_append, List.length_singleton]
  rw [size, List.range_succ]
  refine (moved.append_left _).trans (List.perm_middle.trans ?_)
  exact ((accounted.all runs).cons _).trans (List.perm_append_singleton _ _).symm

theorem Accounted.pending_waits {a : Account Func Arg} {s : State Func Arg Mask}
    {active free : List Nat} (accounted : Accounted a s active) (kept : Kept a s active free)
    (runs : s.place ≠ .exited) (id : UInt32) (n : Nat) :
    n ∈ a.waiting id ↔ ∃ p ∈ pending s.place active, a.holder p = n ∧
      (s.timers.event p).id = id := by
  have distinct := (accounted.all runs).nodup_iff.mpr List.nodup_range
  have apart := (List.nodup_append.mp distinct).2.2
  have named (p : Nat) (member : p ∈ active) :
      a.named id (a.holder p) = true ↔ (s.timers.event p).id = id := by
    obtain ⟨timer, here, same⟩ := Option.map_eq_some_iff.mp (kept.filled p member)
    rw [Account.named, here, ← same]
    simp [Timer.event]
  have inside {p : Nat} (member : p ∈ pending s.place active) : p ∈ active :=
    (pending_subset s.place active).subset member
  simp only [Account.waiting, List.mem_filter, List.mem_range, Bool.and_eq_true,
    Bool.not_eq_true', List.contains_eq_mem, decide_eq_false_iff_not]
  constructor
  · rintro ⟨below, ⟨own, notCalled⟩, notCancelled⟩
    have somewhere := (accounted.all runs).mem_iff.mpr (List.mem_range.mpr below)
    simp only [List.mem_append, notCalled, notCancelled, false_or, List.mem_map] at somewhere
    obtain ⟨p, member, rfl⟩ := somewhere
    exact ⟨p, member, rfl, (named p (inside member)).mp own⟩
  · rintro ⟨p, member, rfl, own⟩
    have out (list : List Nat) (part : list ⊆ a.called ++ a.cancelled) : a.holder p ∉ list :=
      fun here => apart _ (part here) _ (List.mem_map_of_mem member) rfl
    exact ⟨kept.held_by p (inside member), ⟨(named p (inside member)).mpr own,
      out _ (List.subset_append_left _ _)⟩, out _ (List.subset_append_right _ _)⟩

theorem Accounted.drop {a : Account Func Arg} {s : State Func Arg Mask} {active free : List Nat}
    (accounted : Accounted a s active) (kept : Kept a s active free) (runs : s.place ≠ .exited)
    (id : UInt32) (tp : Nat) (timers : Timers Func Arg) (fewer : List Nat)
    (taken : (pending s.place active).Perm (tp :: pending s.place fewer))
    (own : (s.timers.event tp).id = id)
    (others : ∀ p ∈ pending s.place fewer, (s.timers.event p).id ≠ id)
    (running : ∀ frame, s.place = .callback frame → fewer ≠ []) :
    Accounted { a with cancelled := a.cancelled ++ a.waiting id } { s with timers := timers }
      fewer := by
  refine ⟨fun _ => ?_, running, accounted.alive⟩
  have only : (a.waiting id).Perm [a.holder tp] := by
    have unique : (a.waiting id).Nodup := List.nodup_range.filter _
    rw [List.perm_ext_iff_of_nodup unique (List.nodup_singleton _)]
    intro n
    rw [accounted.pending_waits kept runs, List.mem_singleton]
    constructor
    · rintro ⟨p, member, rfl, same⟩
      rcases List.mem_cons.mp (taken.mem_iff.mp member) with rfl | more
      · rfl
      · exact absurd same (others p more)
    · rintro rfl
      exact ⟨tp, taken.mem_iff.mpr List.mem_cons_self, rfl, own⟩
  have moved := taken.map a.holder
  rw [List.map_cons] at moved
  refine List.Perm.trans ?_ ((moved.symm.append_left _).trans (accounted.all runs))
  simpa [List.append_assoc] using (only.append_right _).append_left (a.called ++ a.cancelled)

theorem picked_once (pick : Nat → Bool) (front back : List Nat) (x : Nat) (picked : pick x = true)
    (once : ((front ++ x :: back).filter pick).length ≤ 1) :
    ∀ p ∈ front ++ back, pick p = false := by
  rw [List.filter_append, List.filter_cons_of_pos picked, List.length_append, List.length_cons]
    at once
  have none_ : (front ++ back).filter pick = [] := by
    rw [← List.length_eq_zero_iff, List.filter_append, List.length_append]
    omega
  intro p member
  simpa using List.filter_eq_nil_iff.mp none_ p member

theorem record_quiet (a : Account Func Arg) (s after : State Func Arg Mask)
    (action : Action Func Arg Mask) (answer : Answer Func Arg Mask)
    (quiet : answer = .silent ∨ ∃ n sets, answer = .returned n sets) :
    a.record ⟨s, action, answer, after⟩ = a := by
  rcases quiet with rfl | ⟨n, sets, rfl⟩
  · cases action with
    | timeout func arg ms malloc now => cases now <;> rfl
    | _ => rfl
  · cases action with
    | timeout func arg ms malloc now => cases now <;> rfl
    | _ => rfl

def Place.idle : Place Mask → Bool
  | .caller | .loop _ | .select _ _ => true
  | .callback _ | .exited | .crashed => false

theorem pending_idle (place : Place Mask) (active : List Nat) (idle : place.idle = true) :
    pending place active = active := by
  cases place with
  | callback frame => cases idle
  | _ => rfl

theorem Accounted.stay {a : Account Func Arg} {s after : State Func Arg Mask} {active : List Nat}
    (accounted : Accounted a s active) (idle : s.place.idle = true)
    (idle' : after.place.idle = true) : Accounted a after active := by
  have runs : s.place ≠ .exited := by
    intro here
    rw [here] at idle
    cases idle
  have all := accounted.all runs
  rw [pending_idle _ _ idle] at all
  refine ⟨fun _ => ?_, fun frame here => ?_, fun here => ?_⟩
  · rwa [pending_idle _ _ idle']
  · rw [here] at idle'
    cases idle'
  · rw [here] at idle'
    cases idle'

theorem timeout_accounted {a : Account Func Arg} {s : State Func Arg Mask} {active free : List Nat}
    (kept : Kept a s active free) (accounted : Accounted a s active) (func : Func) (arg : Arg)
    (ms : Int) (now : Nat) (timers : Timers Func Arg) (tp : Nat) (runs : s.place ≠ .exited)
    (new : tp ∉ active) (event : timers.event = Function.update s.timers.event tp
      ⟨expiry (gettimeofday now) ms, func, arg, s.timers.nextId⟩)
    (unharmed : (s.running.all fun tp =>
      !timercmp (expiry (gettimeofday now) ms) (s.timers.event tp).tv) = true)
    (timer : Timer Func Arg) :
    Accounted (a.create timer tp) { s with timers := timers, clock := now }
      (StablePriority.insert (fun p => rank (timers.event p).tv) active tp) := by
  have put := StablePriority.insert_perm (fun p => rank (timers.event p).tv) active tp
  have some_ : StablePriority.insert (fun p => rank (timers.event p).tv) active tp ≠ [] := by
    intro empty
    rw [empty] at put
    exact List.not_mem_nil (put.mem_iff.mpr List.mem_cons_self)
  refine accounted.create timer tp timers now _ runs new ?_ some_
  cases here : s.place with
  | callback frame =>
      cases active with
      | nil => exact absurd rfl (accounted.running frame here)
      | cons x rest =>
          -- the running timer is not later, and so it stays the first one
          have first : s.running = some x := by
            rw [State.running, here]
            exact kept.held.first
          have apart : x ≠ tp := ne_of_mem_of_not_mem List.mem_cons_self new
          have later : ¬ rank (timers.event x).tv < rank (timers.event tp).tv := by
            rw [← timercmp_iff, event, Function.update_self, Function.update_of_ne apart]
            simpa [first] using unharmed
          rw [StablePriority.insert_later _ x tp rest later]
          exact StablePriority.insert_perm _ rest tp
  | _ => exact put

theorem user_runs (place : Place Mask) (user : place.user = true) : place ≠ .exited := by
  rintro rfl
  cases user

theorem untimeout_kept {a : Account Func Arg} {s : State Func Arg Mask} {active free : List Nat}
    (kept : Kept a s active free) (id : UInt32) (timers : Timers Func Arg) (found : Bool)
    (user : s.place.user = true) (unset : s.timers.untimeout id = some (timers, found)) :
    ∃ fewer more,
      Kept { a with cancelled := a.cancelled ++ a.waiting id } { s with timers := timers }
        fewer more ∧ fewer.Sublist active ∧
      (Accounted a s active →
        (s.timers.actives.filter fun p => (s.timers.event p).id == id).length ≤ 1 →
        (s.running.all fun tp => (s.timers.event tp).id != id) = true →
        Accounted { a with cancelled := a.cancelled ++ a.waiting id } { s with timers := timers }
          fewer) := by
  have away : ∀ frame tvp, s.place ≠ .select frame tvp := by
    intro frame tvp here
    rw [here] at user
    cases user
  have runs := user_runs s.place user
  rcases kept.held.untimeout id with ⟨others, missing⟩ | ⟨front, tp, back, after, rfl, own, early,
    dropped, event, -, held⟩
  · rw [missing] at unset
    cases unset
    refine ⟨active, free, kept.stay rfl ⟨rfl, rfl⟩ away, List.Sublist.refl active,
      fun accounted _ _ => ?_⟩
    have empty : a.waiting id = [] := by
      rw [List.eq_nil_iff_forall_not_mem]
      intro n member
      obtain ⟨p, waits, -, same⟩ := (accounted.pending_waits kept runs id n).mp member
      exact others p ((pending_subset s.place active).subset waits) same
    rw [empty, List.append_nil]
    exact ⟨accounted.all, accounted.running, accounted.alive⟩
  · rw [dropped] at unset
    cases unset
    have sub : (front ++ back).Sublist (front ++ tp :: back) :=
      List.Sublist.append_left (List.sublist_cons_self tp back) front
    refine ⟨front ++ back, tp :: free, kept.shrink held sub event ⟨rfl, rfl⟩
      fun frame tvp here => absurd here (away frame tvp), sub, fun accounted once spared => ?_⟩
    rw [kept.held.actives] at once
    have single : ∀ p ∈ front ++ back, (s.timers.event p).id ≠ id := by
      intro p member
      have other := picked_once _ front back tp (by simpa using own) once p member
      simpa using other
    -- a timer whose function runs has another id, and so it is before the one taken off
    have first (frame : Frame Mask) (here : s.place = .callback frame) : front ≠ [] := by
      rintro rfl
      have head : s.running = some tp := by
        rw [State.running, here]
        exact kept.held.first
      rw [head] at spared
      simp [own] at spared
    refine accounted.drop kept runs id tp timers (front ++ back) ?_ own
      (fun p member => single p ((pending_subset s.place _).subset member))
      (fun frame here => by simp [first frame here])
    cases here : s.place with
    | callback frame =>
        obtain ⟨x, front, rfl⟩ := List.exists_cons_of_ne_nil (first frame here)
        exact List.perm_middle
    | _ => exact List.perm_middle

theorem call_kept {a : Account Func Arg} {s : State Func Arg Mask} {active free : List Nat}
    (kept : Kept a s active free) (frame : Frame Mask) (tp : Nat) (here : s.place = .loop frame)
    (due : s.timers.expired (gettimeofday frame.now) = some tp) :
    Kept { a with called := a.called ++ [a.holder tp] } { s with place := .callback frame }
      active free ∧
    (Accounted a s active → Accounted { a with called := a.called ++ [a.holder tp] }
      { s with place := .callback frame } active) := by
  obtain ⟨first, -⟩ := Option.filter_eq_some_iff.mp due
  rw [kept.held.first] at first
  obtain ⟨rest, rfl⟩ := List.head?_eq_some_iff.mp first
  constructor
  · exact kept.stay rfl ⟨rfl, rfl⟩ (by simp)
  · intro accounted
    refine ⟨fun _ => ?_, fun _ _ => List.cons_ne_nil tp rest, by simp⟩
    have all := accounted.all (by simp [here])
    rw [here] at all
    change (a.called ++ a.cancelled ++ a.holder tp :: rest.map a.holder).Perm _ at all
    change (a.called ++ [a.holder tp] ++ a.cancelled ++ rest.map a.holder).Perm _
    refine List.Perm.trans ?_ (List.perm_middle.symm.trans all)
    rw [List.append_assoc, List.append_assoc, List.append_assoc]
    exact List.perm_middle

theorem expired_none {s : Timers Func Arg} {active free : List Nat} (held : Held s active free)
    (now : Timeval) (none_ : s.expired now = none) :
    ∀ p ∈ active, timercmp now (s.event p).tv = true := by
  cases active with
  | nil => simp
  | cons x rest =>
      have later : timercmp now (s.event x).tv = true := by
        rw [Timers.expired, held.first] at none_
        simpa using none_
      intro p member
      rcases List.mem_cons.mp member with rfl | more
      · exact later
      · rw [timercmp_iff] at later ⊢
        exact ((List.pairwise_cons.mp held.sorted).1 p more).trans_lt later

/-- The timers that were set before are active only where they were. -/
def NoneBack (a b : Account Func Arg) (active more : List Nat) : Prop :=
  ∀ p ∈ more, b.holder p < a.timers.length → p ∈ active ∧ b.holder p = a.holder p

theorem none_back_sub (a : Account Func Arg) {active more : List Nat} (sub : more.Sublist active) :
    NoneBack a a active more :=
  fun _ member _ => ⟨sub.subset member, rfl⟩

theorem kept_moves {a : Account Func Arg} {s after : State Func Arg Mask} {active free : List Nat}
    {action : Action Func Arg Mask} {answer : Answer Func Arg Mask} (kept : Kept a s active free)
    (moved : Moves s action after answer) :
    ∃ more rest, Kept (a.record ⟨s, action, answer, after⟩) after more rest ∧
      NoneBack a (a.record ⟨s, action, answer, after⟩) active more ∧
      (Unharmed ⟨s, action, answer, after⟩ = true → Accounted a s active →
        Accounted (a.record ⟨s, action, answer, after⟩) after more) := by
  have same := kept.held
  have whole := List.Sublist.refl active
  have there := none_back_sub a whole
  cases moved with
  | exit =>
      rw [record_quiet a _ _ _ _ (Or.inl rfl)]
      refine ⟨active, free, kept.stay rfl ⟨rfl, rfl⟩ (by simp), there, fun _ accounted => ?_⟩
      exact ⟨fun runs => absurd rfl runs, by simp, by simp⟩
  | timeout func arg ms malloc now timers tp user forward set =>
      obtain ⟨new, event, rest, kept'⟩ := kept.timeout func arg ms now timers tp user set
      refine ⟨_, rest, kept', ?_, fun unharmed accounted => ?_⟩
      · intro p member old
        rcases (StablePriority.mem_insert_iff _ active tp p).mp member with rfl | before
        · exact absurd old (by simp [Account.record, Account.create])
        · exact ⟨before, Function.update_of_ne (ne_of_mem_of_not_mem before new) _ _⟩
      · exact timeout_accounted kept accounted func arg ms now timers tp (user_runs s.place user)
          new event unharmed _
  | untimeout id timers found user unset =>
      obtain ⟨fewer, more, kept', sub, accounts⟩ := untimeout_kept kept id timers found user unset
      refine ⟨fewer, more, kept', none_back_sub a sub, fun unharmed accounted => ?_⟩
      obtain ⟨once, spared⟩ := (Bool.and_eq_true _ _).mp unharmed
      exact accounts accounted (of_decide_eq_true once) spared
  | enter sets now here forward =>
      rw [record_quiet a _ _ _ _ (Or.inl rfl)]
      refine ⟨active, free, kept.stay rfl ⟨rfl, rfl⟩ (by simp), there, fun _ accounted => ?_⟩
      exact accounted.stay (by rw [here]; rfl) rfl
  | call frame tp here due =>
      obtain ⟨kept', accounts⟩ := call_kept kept frame tp here due
      exact ⟨active, free, kept', there, fun _ => accounts⟩
  | wait frame tp here due first =>
      rw [record_quiet a _ _ _ _ (Or.inl rfl)]
      refine ⟨active, free, kept.shrink same whole rfl ⟨rfl, rfl⟩ ?_, there,
        fun _ accounted => ?_⟩
      · rintro _ _ ⟨⟩
        -- select waits only when no timer has expired
        exact expired_none same _ due
      · exact accounted.stay (by rw [here]; rfl) rfl
  | block frame here first =>
      rw [record_quiet a _ _ _ _ (Or.inl rfl)]
      rw [same.first, List.head?_eq_none_iff] at first
      refine ⟨active, free, kept.shrink same whole rfl ⟨rfl, rfl⟩ ?_, there,
        fun _ accounted => ?_⟩
      · simp [first]
      · exact accounted.stay (by rw [here]; rfl) rfl
  | done frame here first =>
      rw [record_quiet a _ _ _ _ (Or.inr ⟨_, _, rfl⟩)]
      refine ⟨active, free, kept.stay rfl ⟨rfl, rfl⟩ (by simp), there, fun _ accounted => ?_⟩
      exact accounted.stay (by rw [here]; rfl) rfl
  | retire frame timers here popped =>
      rw [record_quiet a _ _ _ _ (Or.inl rfl)]
      cases active with
      | nil =>
          rw [Timers.retire, same.first] at popped
          cases popped
      | cons tp rest =>
          obtain ⟨timers', popped', event, -, held⟩ := same.retire
          rw [popped'] at popped
          cases popped
          have sub := List.sublist_cons_self tp rest
          refine ⟨rest, tp :: free, kept.shrink held sub event ⟨rfl, rfl⟩ (by simp),
            none_back_sub a sub, fun _ accounted => ⟨fun _ => ?_, by simp, by simp⟩⟩
          have all := accounted.all (by simp [here])
          rw [here] at all
          exact all
  | crash frame here empty =>
      rw [record_quiet a _ _ _ _ (Or.inl rfl)]
      refine ⟨active, free, kept.stay rfl ⟨rfl, rfl⟩ (by simp), there, fun _ accounted => ?_⟩
      -- the timer whose function has run is still active, so there is one to retire
      rw [Timers.retire, Option.map_eq_none_iff, same.first, List.head?_eq_none_iff] at empty
      exact absurd empty (accounted.running frame here)
  | back n r sets now frame tvp here =>
      rw [record_quiet a _ _ _ _ (Or.inr ⟨_, _, rfl⟩)]
      refine ⟨active, free, kept.stay rfl ⟨rfl, rfl⟩ (by simp), there, fun _ accounted => ?_⟩
      exact accounted.stay (by rw [here]; rfl) rfl
  | again sets now n frame tvp here forward =>
      rw [record_quiet a _ _ _ _ (Or.inl rfl)]
      refine ⟨active, free, kept.stay rfl ⟨rfl, rfl⟩ (by simp), there, fun _ accounted => ?_⟩
      exact accounted.stay (by rw [here]; rfl) rfl

/-! Runs. -/

variable {trace : List (Step Func Arg Mask)} {s : State Func Arg Mask}

theorem stepped_moves (e : Step Func Arg Mask) (stepped : (machine Func Arg Mask).Stepped e) :
    Moves e.before e.action e.after e.output :=
  step_moves e.before e.action e.after e.output stepped

theorem kept_run (run : (machine Func Arg Mask).Run trace s) :
    ∃ active free, Kept (account trace) s active free := by
  refine run.history (C := fun _ => True)
    (I := fun trace s => ∃ active free, Kept (account trace) s active free)
    (fun s first => ⟨[], [], kept_start s first⟩) ?_ fun _ _ => trivial
  rintro pre e stepped - ⟨active, free, kept⟩
  obtain ⟨more, rest, kept', -, -⟩ := kept_moves kept (stepped_moves e stepped)
  exact ⟨more, rest, account_snoc pre e ▸ kept'⟩

theorem accounted_run (run : (machine Func Arg Mask).Run trace s)
    (unharmed : ∀ e ∈ trace, Unharmed e = true) :
    ∃ active free, Kept (account trace) s active free ∧ Accounted (account trace) s active := by
  refine run.history (C := fun e => Unharmed e = true)
    (I := fun trace s => ∃ active free, Kept (account trace) s active free ∧
      Accounted (account trace) s active)
    (fun s first => ⟨[], [], kept_start s first, accounted_start s first⟩) ?_ unharmed
  rintro pre e stepped fine ⟨active, free, kept, accounted⟩
  obtain ⟨more, rest, kept', -, accounts⟩ := kept_moves kept (stepped_moves e stepped)
  exact ⟨more, rest, account_snoc pre e ▸ kept', account_snoc pre e ▸ accounts fine accounted⟩

theorem called_filled (run : (machine Func Arg Mask).Run trace s) (pre post : List (Step Func Arg Mask))
    (e : Step Func Arg Mask) (whole : trace = pre ++ e :: post) (tp : Nat) (func : Func) (arg : Arg)
    (called : e.output = .called tp func arg) :
    ∃ timer, (account pre).timers[(account pre).holder tp]? = some timer ∧
      timer.func = func ∧ timer.arg = arg := by
  subst whole
  obtain ⟨before, stepped⟩ := run.split
  obtain ⟨active, free, kept⟩ := kept_run before
  have moved := stepped_moves e stepped
  obtain ⟨state, action, output, after⟩ := e
  obtain rfl : output = .called tp func arg := called
  dsimp only at moved before
  cases moved with
  | call frame _ here due =>
      obtain ⟨first, -⟩ := Option.filter_eq_some_iff.mp due
      rw [kept.held.first] at first
      obtain ⟨timer, found, same⟩ :=
        Option.map_eq_some_iff.mp (kept.filled tp (List.mem_of_head? first))
      exact ⟨timer, found, congrArg Tevent.func same, congrArg Tevent.arg same⟩

theorem Accounted.once {a : Account Func Arg} {active : List Nat} (accounted : Accounted a s active)
    (runs : s.place ≠ .exited) (n : Nat) (created : n < a.timers.length) :
    if n ∈ a.cancelled then a.called.count n = 0
    else a.called.count n = 1 ∨ a.called.count n = 0 ∧ ∃ p ∈ active, a.holder p = n := by
  have one := (accounted.all runs).count_eq n
  rw [List.count_append, List.count_append, List.count_eq_one_of_mem List.nodup_range
    (List.mem_range.mpr created)] at one
  split
  · rename_i cancelled
    have some_ := List.count_pos_iff.mpr cancelled
    omega
  · rename_i apart
    rw [List.count_eq_zero_of_not_mem apart] at one
    by_cases waits : n ∈ (pending s.place active).map a.holder
    · obtain ⟨p, member, same⟩ := List.mem_map.mp waits
      have some_ := List.count_pos_iff.mpr waits
      exact Or.inr ⟨by omega, p, (pending_subset s.place active).subset member, same⟩
    · rw [List.count_eq_zero_of_not_mem waits] at one
      exact Or.inl (by omega)

theorem done_none (run : (machine Func Arg Mask).Run trace s) :
    ∀ e ∈ trace, e.action = .turn → e.after.place = .caller → e.after.timers.active = none := by
  refine run.each fun pre e _ stepped turned back => ?_
  have moved := stepped_moves e stepped
  obtain ⟨before, action, output, after⟩ := e
  obtain rfl : action = .turn := turned
  dsimp only at moved back
  cases moved with
  | exit => cases back
  | call => cases back
  | wait => cases back
  | block => cases back
  | done frame here first => exact first

/-- The lists after any steps, and in every unharmed run one call for each timer that is
not cancelled: it is made before tselect waits or returns past the time of the timer. -/
theorem timers_called_once (run : (machine Func Arg Mask).Run trace s)
    (unharmed : ∀ e ∈ trace, Unharmed e = true) :
    (∃ active free, Walk s.timers.next s.timers.active active none ∧
      Walk s.timers.next s.timers.freeList free none ∧
      (active ++ free).Perm (List.range s.timers.allocated) ∧
      (s.place ≠ .exited → ∀ n < (account trace).timers.length,
        if n ∈ (account trace).cancelled then (account trace).called.count n = 0
        else (account trace).called.count n = 1 ∨
          (account trace).called.count n = 0 ∧ ∃ p ∈ active, (account trace).holder p = n) ∧
      ∀ frame tvp, s.place = .select frame tvp →
        ∀ p ∈ active, timercmp (gettimeofday frame.now) (s.timers.event p).tv = true) ∧
    s.place ≠ .crashed ∧
    (∀ e ∈ trace, e.action = .turn → e.after.place = .caller → e.after.timers.active = none) ∧
    ∀ pre e post, trace = pre ++ e :: post → ∀ tp func arg, e.output = .called tp func arg →
      ∃ timer, (account pre).timers[(account pre).holder tp]? = some timer ∧
        timer.func = func ∧ timer.arg = arg := by
  obtain ⟨active, free, kept, accounted⟩ := accounted_run run unharmed
  exact ⟨⟨active, free, kept.held.activeWalk, kept.held.freeWalk, kept.held.all,
    accounted.once, kept.due⟩, accounted.alive, done_none run,
    fun pre e post whole => called_filled run pre post e whole⟩

def fresh : State Unit Bool Unit :=
  ⟨⟨fun _ => none, fun _ => ⟨⟨0, 0⟩, (), false, 0⟩, none, none, 1, 0⟩, .caller, 0⟩

theorem fresh_starts : (machine Unit Bool Unit).start fresh := ⟨rfl, rfl, rfl, rfl, rfl⟩

def twoDue (calls : List (Action Unit Bool Unit)) : List (Action Unit Bool Unit) :=
  [.timeout () false 0 true (some 5), .timeout () true 0 true (some 5),
    .tselect ⟨none, none, none⟩ (some 5), .turn] ++ calls ++ [.return_, .turn]

theorem two_due_unharmed : ∃ trace s, (machine Unit Bool Unit).Run trace s ∧
    (s.place = .select ⟨⟨none, none, none⟩, 5⟩ (some ⟨0, 7000⟩) ∧
      (account trace).cancelled = [1]) ∧ (account trace).called.count 1 = 0 := by
  obtain ⟨trace, s, run, check⟩ := Machine.run_of_check fresh_starts
    (twoDue [.timeout () true 7 true (some 5), .untimeout 2])
    (fun r => r.1.all Unharmed && decide
      ((r.2.place = .select ⟨⟨none, none, none⟩, 5⟩ (some ⟨0, 7000⟩) ∧
        (account r.1).cancelled = [1]) ∧ 1 < (account r.1).timers.length))
    (by decide +kernel)
  obtain ⟨unharmed, found⟩ := (Bool.and_eq_true _ _).mp check
  obtain ⟨seen, created⟩ := of_decide_eq_true found
  obtain ⟨⟨active, free, -, -, -, once, -⟩, -⟩ :=
    timers_called_once run (List.all_eq_true.mp unharmed)
  have here := once (by rw [seen.1]; nofun) 1 created
  rw [if_pos (by rw [seen.2]; exact List.mem_singleton_self 1)] at here
  exact ⟨trace, s, run, seen, here⟩

/-- A function that cancels its own timer has the next one taken off uncalled; and where
there is no next one, NULL is dereferenced. -/
theorem own_timer_cancelled :
    (∃ trace s, (machine Unit Bool Unit).Run trace s ∧ s.place = .caller ∧
      s.timers.active = none ∧ (account trace).timers.length = 2 ∧
      (account trace).called = [0] ∧ (account trace).cancelled = []) ∧
    ∃ trace s, (machine Unit Bool Unit).Run trace s ∧ s.place = .crashed := by
  obtain ⟨trace, s, run, check⟩ := Machine.run_of_check fresh_starts (twoDue [.untimeout 1])
    (fun r => decide (r.2.place = .caller ∧ r.2.timers.active = none ∧
      (account r.1).timers.length = 2 ∧ (account r.1).called = [0] ∧
      (account r.1).cancelled = [])) (by decide +kernel)
  obtain ⟨trace', s', run', check'⟩ := Machine.run_of_check fresh_starts
    [.timeout () false 0 true (some 5), .tselect ⟨none, none, none⟩ (some 5), .turn,
      .untimeout 1, .return_]
    (fun r => decide (r.2.place = .crashed)) (by decide +kernel)
  exact ⟨⟨trace, s, run, of_decide_eq_true check⟩, trace', s', run', of_decide_eq_true check'⟩

end NetworkProgramming.Tselect
