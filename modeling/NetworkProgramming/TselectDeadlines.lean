import NetworkProgramming.TselectTimers

/-!
The times of the timers. A time of two fields stands for a number of microseconds
as long as its product does not leave an int and its sum does not reach a full
second exactly: timeout normalises what is greater than a second only.
-/

namespace NetworkProgramming.Tselect

variable {Func Arg Mask : Type*}

structure Normal (tv : Timeval) : Prop where
  least : 0 ≤ tv.tvUsec
  below : tv.tvUsec < 1000000
  seconds : 0 ≤ tv.tvSec

/-- The clock reading at timeout plus the milliseconds, in microseconds. -/
def Timer.deadline (timer : Timer Func Arg) : Int := timer.now + timer.ms * 1000

/-- The product is an int, and the microseconds are not exactly a second. -/
def Representable (ms : Int) (now : Nat) : Prop :=
  0 ≤ ms ∧ ms ≤ 2147483 ∧ (now % 1000000 : Nat) + ms * 1000 ≠ 1000000

instance (ms : Int) (now : Nat) : Decidable (Representable ms now) :=
  inferInstanceAs (Decidable (_ ∧ _))

theorem gettimeofday_normal (micros : Nat) : Normal (gettimeofday micros) := by
  constructor <;> simp only [gettimeofday] <;> omega

theorem expiry_exact (ms : Int) (now : Nat) (exact_ : Representable ms now) :
    ∃ due : Nat, (due : Int) = now + ms * 1000 ∧ expiry (gettimeofday now) ms = gettimeofday due := by
  obtain ⟨least, most, other⟩ := exact_
  have product : int (ms * 1000) = ms * 1000 := by
    rw [int]
    omega
  refine ⟨(now + ms * 1000).toNat, by omega, ?_⟩
  simp only [expiry, gettimeofday, product]
  split
  · simp only [Timeval.mk.injEq]
    omega
  · simp only [Timeval.mk.injEq]
    omega

theorem rank_gettimeofday (a b : Nat) :
    rank (gettimeofday b) < rank (gettimeofday a) ↔ a < b := by
  rw [← timercmp_iff, timercmp]
  by_cases same : (gettimeofday a).tvSec = (gettimeofday b).tvSec
  · rw [if_pos same, decide_eq_true_iff]
    simp only [gettimeofday] at same ⊢
    omega
  · rw [if_neg same, decide_eq_true_iff]
    simp only [gettimeofday] at same ⊢
    omega

theorem remaining_exact (due now : Nat) (later : now ≤ due) :
    remaining (gettimeofday due) (gettimeofday now) = gettimeofday (due - now) := by
  rw [remaining]
  by_cases borrow : (gettimeofday due).tvUsec - (gettimeofday now).tvUsec < 0
  · rw [if_pos borrow]
    simp only [gettimeofday, Timeval.mk.injEq] at borrow ⊢
    omega
  · rw [if_neg borrow]
    simp only [gettimeofday, Timeval.mk.injEq] at borrow ⊢
    omega

def Account.deadline (a : Account Func Arg) (n : Nat) : Int :=
  (a.timers[n]?.map Timer.deadline).getD 0

def Exact (e : Step Func Arg Mask) : Bool :=
  match e.action with
  | .timeout _ _ ms _ (some now) => decide (Representable ms now)
  | _ => true

def AllExact (a : Account Func Arg) : Prop :=
  ∀ timer ∈ a.timers, Representable timer.ms timer.now

theorem record_exact (a : Account Func Arg) (e : Step Func Arg Mask) (fine : Exact e = true)
    (before : AllExact a) : AllExact (a.record e) := by
  intro timer member
  obtain ⟨s, action, output, after⟩ := e
  cases action with
  | timeout func arg ms malloc now =>
      cases now with
      | none => exact before timer member
      | some now =>
          cases output with
          | created tp id =>
              rcases List.mem_append.mp member with old | new
              · exact before timer old
              · rw [List.mem_singleton] at new
                rw [new]
                exact of_decide_eq_true fine
          | _ => exact before timer member
  | _ => cases output <;> exact before timer member

theorem all_exact_run {trace : List (Step Func Arg Mask)} {s : State Func Arg Mask}
    (run : (machine Func Arg Mask).Run trace s) (exact_ : ∀ e ∈ trace, Exact e = true) :
    AllExact (account trace) := by
  refine run.history (C := fun e => Exact e = true) (I := fun trace _ => AllExact (account trace))
    (fun _ _ => nofun) ?_ exact_
  intro pre e _ fine before
  rw [account_snoc]
  exact record_exact (account pre) e fine before

theorem Kept.time {a : Account Func Arg} {s : State Func Arg Mask} {active free : List Nat}
    (kept : Kept a s active free) (exact_ : AllExact a) (p : Nat) (member : p ∈ active) :
    ∃ due : Nat, a.deadline (a.holder p) = due ∧ (s.timers.event p).tv = gettimeofday due := by
  obtain ⟨timer, found, same⟩ := Option.map_eq_some_iff.mp (kept.filled p member)
  obtain ⟨due, equal, written⟩ := expiry_exact timer.ms timer.now
    (exact_ timer (List.mem_of_getElem? found))
  refine ⟨due, ?_, ?_⟩
  · rw [Account.deadline, found]
    exact equal.symm
  · rw [← same]
    exact written

theorem Kept.deadlines {a : Account Func Arg} {s : State Func Arg Mask} {active free : List Nat}
    (kept : Kept a s active free) (exact_ : AllExact a) :
    active.Pairwise fun p q => a.deadline (a.holder p) < a.deadline (a.holder q) ∨
      a.deadline (a.holder p) = a.deadline (a.holder q) ∧ a.holder p < a.holder q := by
  refine kept.order.imp_of_mem fun {p q} first second below => ?_
  obtain ⟨m, dueP, timeP⟩ := kept.time exact_ p first
  obtain ⟨n, dueQ, timeQ⟩ := kept.time exact_ q second
  rw [dueP, dueQ]
  rcases below with less | ⟨same, number⟩
  · rw [timeP, timeQ, rank_gettimeofday] at less
    exact Or.inl (by exact_mod_cast less)
  · rw [timeP, timeQ] at same
    have equal : m = n := by
      simp only [gettimeofday, Timeval.mk.injEq] at same
      omega
    exact Or.inr ⟨by rw [equal], number⟩

/-! Calls. -/

variable {trace : List (Step Func Arg Mask)} {s : State Func Arg Mask}

def Place.frame : Place Mask → Option (Frame Mask)
  | .loop frame | .callback frame | .select frame _ => some frame
  | .caller | .exited | .crashed => none

/-- The time tselect goes by has been read before, and what select waits for is what is left
of the first timer. -/
structure Punctual (s : State Func Arg Mask) : Prop where
  read : ∀ frame, s.place.frame = some frame → frame.now ≤ s.clock
  waits : ∀ frame tv, s.place = .select frame (some tv) → ∃ tp, s.timers.active = some tp ∧
    tv = remaining (s.timers.event tp).tv (gettimeofday frame.now)

theorem punctual_moves {s after : State Func Arg Mask} {action : Action Func Arg Mask}
    {answer : Answer Func Arg Mask} (punctual : Punctual s) (moved : Moves s action after answer) :
    Punctual after := by
  have user (timers : Timers Func Arg) (clock : Nat) (forward : s.clock ≤ clock)
      (here : s.place.user = true) : Punctual { s with timers := timers, clock := clock } := by
    refine ⟨fun frame same => (punctual.read frame same).trans forward, fun frame tv same => ?_⟩
    rw [show s.place = _ from same] at here
    cases here
  cases moved with
  | exit => exact ⟨nofun, nofun⟩
  | timeout func arg ms malloc now timers tp here forward _ => exact user timers now forward here
  | untimeout id timers found here _ => exact user timers s.clock (le_refl _) here
  | enter sets now _ _ => exact ⟨by rintro _ ⟨⟩; exact le_refl now, nofun⟩
  | call frame tp here _ =>
      exact ⟨by rintro _ ⟨⟩; exact punctual.read frame (by rw [here]; rfl), nofun⟩
  | wait frame tp here _ first =>
      refine ⟨by rintro _ ⟨⟩; exact punctual.read frame (by rw [here]; rfl), ?_⟩
      rintro _ _ ⟨⟩
      exact ⟨tp, first, rfl⟩
  | block frame here _ =>
      exact ⟨by rintro _ ⟨⟩; exact punctual.read frame (by rw [here]; rfl), nofun⟩
  | done => exact ⟨nofun, nofun⟩
  | retire frame timers here _ =>
      exact ⟨by rintro _ ⟨⟩; exact punctual.read frame (by rw [here]; rfl), nofun⟩
  | crash => exact ⟨nofun, nofun⟩
  | back => exact ⟨nofun, nofun⟩
  | again sets now n frame tvp _ _ => exact ⟨by rintro _ ⟨⟩; exact le_refl now, nofun⟩

theorem punctual_run (run : (machine Func Arg Mask).Run trace s) : Punctual s := by
  refine run.invariant (fun s first => ?_) fun e stepped punctual =>
    punctual_moves punctual (stepped_moves e stepped)
  have here : s.place = .caller := first.2.2.2.2
  exact ⟨by simp [here, Place.frame], by simp [here]⟩

theorem record_extends (a : Account Func Arg) (e : Step Func Arg Mask) :
    a.timers <+: (a.record e).timers := by
  obtain ⟨s, action, output, after⟩ := e
  cases action with
  | timeout func arg ms malloc now =>
      cases now with
      | none => exact List.prefix_refl _
      | some now =>
          cases output with
          | created tp id => exact List.prefix_append _ _
          | _ => exact List.prefix_refl _
  | _ => cases output <;> exact List.prefix_refl _

theorem account_extends (pre post : List (Step Func Arg Mask)) :
    (account pre).timers <+: (account (pre ++ post)).timers := by
  induction post generalizing pre with
  | nil =>
      simp only [List.append_nil, List.prefix_refl]
  | cons e post ih =>
      have further := ih (pre ++ [e])
      rw [List.append_assoc, List.singleton_append] at further
      refine List.IsPrefix.trans ?_ further
      rw [account_snoc]
      exact record_extends _ e

theorem deadline_kept (pre post : List (Step Func Arg Mask)) (n : Nat)
    (created : n < (account pre).timers.length) :
    (account (pre ++ post)).deadline n = (account pre).deadline n := by
  obtain ⟨more, same⟩ := account_extends pre post
  rw [Account.deadline, Account.deadline, ← same, List.getElem?_append_left created]

theorem active_since (run : (machine Func Arg Mask).Run trace s) :
    ∃ active free, Kept (account trace) s active free ∧
      ∀ pre d post, trace = pre ++ d :: post → ∃ before rest, Kept (account pre) d.before before rest ∧
        ∀ p ∈ active, (account trace).holder p < (account pre).timers.length →
          ∃ q ∈ before, (account pre).holder q = (account trace).holder p := by
  refine run.history (C := fun _ => True) (I := fun trace s =>
    ∃ active free, Kept (account trace) s active free ∧
      ∀ pre d post, trace = pre ++ d :: post → ∃ before rest, Kept (account pre) d.before before rest ∧
        ∀ p ∈ active, (account trace).holder p < (account pre).timers.length →
          ∃ q ∈ before, (account pre).holder q = (account trace).holder p)
    (fun s first => ⟨[], [], kept_start s first, by simp⟩) ?_ fun _ _ => trivial
  rintro trace e stepped - ⟨active, free, kept, since⟩
  obtain ⟨more, rest, kept', back, -⟩ := kept_moves kept (stepped_moves e stepped)
  rw [account_snoc]
  refine ⟨more, rest, kept', fun pre d post whole => ?_⟩
  rcases Machine.split_snoc whole.symm with ⟨-, rfl, rfl⟩ | ⟨init, -, earlier⟩
  · refine ⟨active, free, kept, fun p member old => ?_⟩
    obtain ⟨there, same⟩ := back p member old
    exact ⟨p, there, same.symm⟩
  · obtain ⟨before, unused, keptThen, old⟩ := since pre d init earlier.symm
    have shorter : (account pre).timers.length ≤ (account trace).timers.length := by
      rw [← earlier]
      exact (account_extends pre (d :: init)).length_le
    refine ⟨before, unused, keptThen, fun p member created => ?_⟩
    obtain ⟨there, same⟩ := back p member (created.trans_le shorter)
    rw [same] at created ⊢
    exact old p there created

theorem called_first {a : Account Func Arg} {active free : List Nat} (e : Step Func Arg Mask)
    (kept : Kept a e.before active free) (stepped : (machine Func Arg Mask).Stepped e) (tp : Nat)
    (func : Func) (arg : Arg) (called : e.output = .called tp func arg) :
    active.head? = some tp ∧ ∃ frame, e.before.place = .loop frame ∧
      timercmp (gettimeofday frame.now) (e.before.timers.event tp).tv = false := by
  have moved := stepped_moves e stepped
  obtain ⟨state, action, output, after⟩ := e
  obtain rfl : output = .called tp func arg := called
  dsimp only at moved kept ⊢
  cases moved with
  | call frame _ here due =>
      obtain ⟨first, expired⟩ := Option.filter_eq_some_iff.mp due
      exact ⟨kept.held.first.symm.trans first, frame, here, by simpa using expired⟩

theorem called_late (run : (machine Func Arg Mask).Run trace s)
    (exact_ : ∀ e ∈ trace, Exact e = true) (pre post : List (Step Func Arg Mask))
    (e : Step Func Arg Mask) (whole : trace = pre ++ e :: post) (tp : Nat) (func : Func) (arg : Arg)
    (called : e.output = .called tp func arg) :
    (account trace).deadline ((account pre).holder tp) ≤ e.before.clock := by
  subst whole
  obtain ⟨before, stepped⟩ := run.split
  obtain ⟨active, free, kept⟩ := kept_run before
  obtain ⟨first, frame, here, expired⟩ := called_first e kept stepped tp func arg called
  have member := List.mem_of_head? first
  have known := all_exact_run before fun d inside => exact_ d (List.mem_append_left _ inside)
  obtain ⟨due, equal, time⟩ := kept.time known tp member
  rw [deadline_kept pre _ _ (kept.held_by tp member), equal]
  rw [time, ← Bool.not_eq_true, timercmp_iff, rank_gettimeofday] at expired
  have read := (punctual_run before).read frame (by rw [here]; rfl)
  omega

/-- Of the timers that wait at one time the one of the earlier deadline is called first. -/
theorem called_in_order (run : (machine Func Arg Mask).Run trace s)
    (exact_ : ∀ e ∈ trace, Exact e = true) (pre mid post : List (Step Func Arg Mask))
    (d e : Step Func Arg Mask) (whole : trace = pre ++ d :: (mid ++ e :: post)) (tp tq : Nat)
    (func func' : Func) (arg arg' : Arg) (called : d.output = .called tp func arg)
    (later : e.output = .called tq func' arg')
    (created : (account (pre ++ d :: mid)).holder tq < (account pre).timers.length) :
    (account trace).deadline ((account pre).holder tp) ≤
      (account trace).deadline ((account (pre ++ d :: mid)).holder tq) := by
  subst whole
  have whole : pre ++ d :: (mid ++ e :: post) = (pre ++ d :: mid) ++ e :: post := by simp
  obtain ⟨before, stepped⟩ := run.split
  obtain ⟨before', stepped'⟩ := (whole ▸ run).split
  obtain ⟨active, free, kept, since⟩ := active_since before'
  obtain ⟨waiting, rest, keptThen, old⟩ := since pre d mid rfl
  obtain ⟨first, -⟩ := called_first d keptThen stepped tp func arg called
  obtain ⟨first', -⟩ := called_first e kept stepped' tq func' arg' later
  obtain ⟨q, member, same⟩ := old tq (List.mem_of_head? first') created
  have known := all_exact_run before fun d inside => exact_ d (List.mem_append_left _ inside)
  rw [← same] at created ⊢
  rw [deadline_kept pre _ _ created,
    deadline_kept pre _ _ (keptThen.held_by tp (List.mem_of_head? first))]
  obtain ⟨others, rfl⟩ := List.head?_eq_some_iff.mp first
  have order := (List.pairwise_cons.mp (keptThen.deadlines known)).1
  rcases List.mem_cons.mp member with rfl | behind
  · exact le_refl _
  · rcases order q behind with less | ⟨equal, -⟩
    · exact less.le
    · exact equal.le

theorem created_normal (run : (machine Func Arg Mask).Run trace s)
    (exact_ : ∀ e ∈ trace, Exact e = true) :
    ∀ e ∈ trace, ∀ tp id, e.output = .created tp id → Normal (e.after.timers.event tp).tv := by
  intro e member tp id created
  have fine := exact_ e member
  obtain ⟨pre, post, rfl⟩ := List.append_of_mem member
  obtain ⟨before, stepped⟩ := run.split
  obtain ⟨active, free, kept⟩ := kept_run before
  have moved := stepped_moves e stepped
  obtain ⟨state, action, output, after⟩ := e
  obtain rfl : output = .created tp id := created
  dsimp only at moved kept fine ⊢
  cases moved with
  | timeout func arg ms malloc now timers _ user forward set =>
      obtain ⟨-, event, -⟩ := kept.timeout func arg ms now timers tp user set
      obtain ⟨due, -, written⟩ := expiry_exact ms now (of_decide_eq_true fine)
      rw [event, Function.update_self, written]
      exact gettimeofday_normal due

theorem select_normal (run : (machine Func Arg Mask).Run trace s)
    (exact_ : ∀ e ∈ trace, Exact e = true) (frame : Frame Mask) (tv : Timeval)
    (here : s.place = .select frame (some tv)) : Normal tv := by
  obtain ⟨active, free, kept⟩ := kept_run run
  obtain ⟨tp, first, rfl⟩ := (punctual_run run).waits frame tv here
  have member := List.mem_of_head? (kept.held.first.symm.trans first)
  obtain ⟨due, -, time⟩ := kept.time (all_exact_run run exact_) tp member
  have later := kept.due frame _ here tp member
  rw [time, timercmp_iff, rank_gettimeofday] at later
  rw [time, remaining_exact due frame.now later.le]
  exact gettimeofday_normal _

theorem deadlines_kept (run : (machine Func Arg Mask).Run trace s)
    (exact_ : ∀ e ∈ trace, Exact e = true) :
    (∃ active, DoublyLinked.Walk s.timers.next s.timers.active active none ∧
      active.Pairwise (fun p q =>
        (account trace).deadline ((account trace).holder p) <
            (account trace).deadline ((account trace).holder q) ∨
          (account trace).deadline ((account trace).holder p) =
            (account trace).deadline ((account trace).holder q) ∧
          (account trace).holder p < (account trace).holder q) ∧
      ∀ p ∈ active, Normal (s.timers.event p).tv) ∧
    (∀ e ∈ trace, ∀ tp id, e.output = .created tp id → Normal (e.after.timers.event tp).tv) ∧
    (∀ frame tv, s.place = .select frame (some tv) → Normal tv) ∧
    (∀ pre e post, trace = pre ++ e :: post → ∀ tp func arg, e.output = .called tp func arg →
      (account trace).deadline ((account pre).holder tp) ≤ e.before.clock) ∧
    ∀ pre d mid e post, trace = pre ++ d :: (mid ++ e :: post) →
      ∀ tp func arg tq func' arg', d.output = .called tp func arg →
      e.output = .called tq func' arg' →
      (account (pre ++ d :: mid)).holder tq < (account pre).timers.length →
      (account trace).deadline ((account pre).holder tp) ≤
        (account trace).deadline ((account (pre ++ d :: mid)).holder tq) := by
  obtain ⟨active, free, kept⟩ := kept_run run
  have known := all_exact_run run exact_
  refine ⟨⟨active, kept.held.activeWalk, kept.deadlines known, ?_⟩, created_normal run exact_,
    select_normal run exact_,
    fun pre e post whole => called_late run exact_ pre post e whole, ?_⟩
  · intro p member
    obtain ⟨due, -, time⟩ := kept.time known p member
    rw [time]
    exact gettimeofday_normal due
  · intro pre d mid e post whole tp func arg tq func' arg'
    exact called_in_order run exact_ pre mid post d e whole tp tq func func' arg arg'

theorem half_second_first : ∃ trace s, (machine Unit Bool Unit).Run trace s ∧
    s.place = .select ⟨⟨none, none, none⟩, 1700000⟩ (some ⟨2, 299999⟩) ∧
    Normal ⟨2, 299999⟩ := by
  obtain ⟨trace, s, run, check⟩ := Machine.run_of_check fresh_starts
    [.timeout () false 3000 true (some 999999), .timeout () true 500 true (some 999999),
      .tselect ⟨none, none, none⟩ (some 1000000), .turn,
      .select 0 ⟨none, none, none⟩ (some 1700000), .turn, .return_, .turn]
    (fun r => r.1.all Exact && decide
      (r.2.place = .select ⟨⟨none, none, none⟩, 1700000⟩ (some ⟨2, 299999⟩)))
    (by decide +kernel)
  obtain ⟨exact_, found⟩ := (Bool.and_eq_true _ _).mp check
  have waiting := of_decide_eq_true found
  have kept := deadlines_kept run (List.all_eq_true.mp exact_)
  exact ⟨trace, s, run, waiting, kept.2.2.1 _ _ waiting⟩

/-- A time of exactly a second is stored, and passed to select, as no seconds and a million
microseconds; and a timer of 4294968 milliseconds is called within a millisecond. -/
theorem second_not_normal :
    (∃ trace s frame tv, (machine Unit Bool Unit).Run trace s ∧
      s.place = .select frame (some tv) ∧ tv.tvUsec = 1000000 ∧
      (s.timers.actives.map fun p => (s.timers.event p).tv.tvUsec) = [1000000]) ∧
    ∃ trace s, (machine Unit Bool Unit).Run trace s ∧ s.clock = 1000 ∧
      (account trace).called = [0] ∧ (account trace).deadline 0 = 4294968000 := by
  obtain ⟨trace, s, run, check⟩ := Machine.run_of_check fresh_starts
    [.timeout () false 1000 true (some 0), .tselect ⟨none, none, none⟩ (some 0), .turn]
    (fun r => decide (r.2.place = .select ⟨⟨none, none, none⟩, 0⟩ (some ⟨0, 1000000⟩) ∧
      (r.2.timers.actives.map fun p => (r.2.timers.event p).tv.tvUsec) = [1000000]))
    (by decide +kernel)
  obtain ⟨trace', s', run', check'⟩ := Machine.run_of_check fresh_starts
    [.timeout () false 4294968 true (some 0), .tselect ⟨none, none, none⟩ (some 1000), .turn]
    (fun r => decide (r.2.clock = 1000 ∧ (account r.1).called = [0] ∧
      (account r.1).deadline 0 = 4294968000)) (by decide +kernel)
  obtain ⟨waiting, stored⟩ := of_decide_eq_true check
  exact ⟨⟨trace, s, _, _, run, waiting, rfl, stored⟩, trace', s', run', of_decide_eq_true check'⟩

end NetworkProgramming.Tselect
