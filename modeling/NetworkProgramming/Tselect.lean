import Mathlib.Algebra.Order.Ring.Int
import Mathlib.Data.List.TakeWhile
import Mathlib.Data.Prod.Lex
import Mathlib.Tactic.Common
import NetworkProgramming.DoublyLinked
import NetworkProgramming.Machine
import NetworkProgramming.StablePriority

/-!
tselect.c: timers on a list in the order of their times, with their functions
called from the loop around select. A node stands for its address. A function
that is called may itself set and cancel timers while its own node is still the
first of the active ones.
-/

namespace NetworkProgramming.Tselect

open DoublyLinked

variable {Func Arg Mask : Type*}

def NTIMERS : Nat := 25

structure Timeval where
  tvSec : Int
  tvUsec : Int
  deriving DecidableEq

def timercmp (a b : Timeval) : Bool :=
  if a.tvSec = b.tvSec then decide (a.tvUsec < b.tvUsec) else decide (a.tvSec < b.tvSec)

def gettimeofday (micros : Nat) : Timeval :=
  ⟨(micros / 1000000 : Nat), (micros % 1000000 : Nat)⟩

/-- The value an int takes, with two's complement. -/
def int (n : Int) : Int := (n + 2 ^ 31) % 2 ^ 32 - 2 ^ 31

def expiry (now : Timeval) (ms : Int) : Timeval :=
  let usec := now.tvUsec + int (ms * 1000)
  if 1000000 < usec then ⟨now.tvSec + usec / 1000000, usec % 1000000⟩ else ⟨now.tvSec, usec⟩

/-- What tselect has select wait for. -/
def remaining (due now : Timeval) : Timeval :=
  let sec := due.tvSec - now.tvSec
  let usec := due.tvUsec - now.tvUsec
  if usec < 0 then ⟨sec - 1, usec + 1000000⟩ else ⟨sec, usec⟩

structure Tevent (Func Arg : Type*) where
  tv : Timeval
  func : Func
  arg : Arg
  id : UInt32

/-- The static data of the file. The nodes that malloc has given have the addresses
below `allocated`. -/
structure Timers (Func Arg : Type*) where
  next : Nat → Option Nat
  event : Nat → Tevent Func Arg
  active : Option Nat
  freeList : Option Nat
  nextId : UInt32
  allocated : Nat

/-- The for loop over a new block, with so many nodes behind `tp`. -/
def block (next : Nat → Option Nat) (tp : Nat) : Nat → Nat → Option Nat
  | 0 => Function.update next tp none
  | more + 1 => block (Function.update next tp (some (tp + 1))) (tp + 1) more

namespace Timers

def allocateTimer (s : Timers Func Arg) : Timers Func Arg × Nat :=
  match s.freeList with
  | some tp => ({ s with freeList := s.next tp }, tp)
  | none =>
      let next := block s.next s.allocated (NTIMERS - 1)
      ({ s with
        next := next
        allocated := s.allocated + NTIMERS
        freeList := next s.allocated }, s.allocated)

/-- `tprev = &active, tcur = active; tcur && go(tcur); tprev = &tcur->next, tcur = tcur->next`,
as long as it takes `turns` at most. A tprev of none is &active. -/
def seek (s : Timers Func Arg) (go : Nat → Bool) :
    Nat → Option Nat → Option Nat → Option (Option Nat × Option Nat)
  | 0, _, _ => none
  | _ + 1, tprev, none => some (tprev, none)
  | turns + 1, tprev, some tcur =>
      if go tcur then seek s go turns (some tcur) (s.next tcur) else some (tprev, some tcur)

def store (s : Timers Func Arg) (tprev p : Option Nat) : Timers Func Arg :=
  match tprev with
  | none => { s with active := p }
  | some q => { s with next := Function.update s.next q p }

def setNext (s : Timers Func Arg) (tp : Nat) (p : Option Nat) : Timers Func Arg :=
  { s with next := Function.update s.next tp p }

def setEvent (s : Timers Func Arg) (tp : Nat) (event : Tevent Func Arg) : Timers Func Arg :=
  { s with event := Function.update s.event tp event }

/-- Before the first active timer that is later. None: the loop does not end. -/
def enqueue (s : Timers Func Arg) (tp : Nat) : Option (Timers Func Arg) :=
  (s.seek (fun tcur => !timercmp (s.event tp).tv (s.event tcur).tv) (s.allocated + 1) none
    s.active).map fun r => (s.store r.1 (some tp)).setNext tp r.2

def timeout (s : Timers Func Arg) (func : Func) (arg : Arg) (ms : Int) (now : Timeval) :
    Option (Timers Func Arg × Nat) :=
  let tp := s.allocateTimer.2
  let s := s.allocateTimer.1
  let s := s.setEvent tp { s.event tp with tv := expiry now ms, func := func, arg := arg }
  (s.enqueue tp).map fun s =>
    let s := s.setEvent tp { s.event tp with id := s.nextId }
    ({ s with nextId := s.nextId + 1 }, tp)

def untimeout (s : Timers Func Arg) (id : UInt32) : Option (Timers Func Arg × Bool) :=
  (s.seek (fun tcur => id != (s.event tcur).id) (s.allocated + 1) none s.active).map fun r =>
    match r.2 with
    | none => (s, false)
    | some tcur =>
        let s := s.store r.1 (s.next tcur)
        ({ s.setNext tcur s.freeList with freeList := some tcur }, true)

def expired (s : Timers Func Arg) (now : Timeval) : Option Nat :=
  s.active.filter fun tp => !timercmp now (s.event tp).tv

/-- What the while loop does after a function has returned. None: active is NULL. -/
def retire (s : Timers Func Arg) : Option (Timers Func Arg) :=
  s.active.map fun tp =>
    let s := { s with active := s.next tp }
    { s.setNext tp s.freeList with freeList := some tp }

end Timers

structure Sets (Mask : Type*) where
  re : Option Mask
  we : Option Mask
  ee : Option Mask
  deriving DecidableEq

/-- The variables of tselect: the sets as they were given, and the last reading of the
clock. -/
structure Frame (Mask : Type*) where
  masks : Sets Mask
  now : Nat
  deriving DecidableEq

inductive Place (Mask : Type*) where
  | caller
  | loop (frame : Frame Mask)
  | callback (frame : Frame Mask)
  | select (frame : Frame Mask) (tvp : Option Timeval)
  | exited
  | crashed
  deriving DecidableEq

structure State (Func Arg Mask : Type*) where
  timers : Timers Func Arg
  place : Place Mask
  clock : Nat

inductive Action (Func Arg Mask : Type*) where
  | timeout (func : Func) (arg : Arg) (ms : Int) (malloc : Bool) (now : Option Nat)
  | untimeout (id : UInt32)
  | tselect (sets : Sets Mask) (now : Option Nat)
  | turn
  | return_
  | select (n : Int) (sets : Sets Mask) (now : Option Nat)

inductive Answer (Func Arg Mask : Type*) where
  | created (tp : Nat) (id : UInt32)
  | cancelled (found : Bool)
  | called (tp : Nat) (func : Func) (arg : Arg)
  | returned (n : Int) (sets : Sets Mask)
  | silent

def Sets.null (sets : Sets Mask) : Bool :=
  sets.re.isNone && sets.we.isNone && sets.ee.isNone

def Place.user : Place Mask → Bool
  | .caller | .callback _ => true
  | .loop _ | .select _ _ | .exited | .crashed => false

abbrev Result (Func Arg Mask : Type*) := Option (State Func Arg Mask × Answer Func Arg Mask)

/-- The clock does not go back. -/
def State.read (s : State Func Arg Mask) (now : Option Nat)
    (onward : Nat → Result Func Arg Mask) : Result Func Arg Mask :=
  match now with
  | none => some ({ s with place := .exited }, .silent)
  | some micros => if s.clock ≤ micros then onward micros else none

def turn (s : State Func Arg Mask) (frame : Frame Mask) :
    State Func Arg Mask × Answer Func Arg Mask :=
  let now := gettimeofday frame.now
  match s.timers.expired now with
  | some tp =>
      let event := s.timers.event tp
      ({ s with place := .callback frame }, .called tp event.func event.arg)
  | none =>
      match s.timers.active with
      | some tp =>
          let tv := remaining (s.timers.event tp).tv now
          ({ s with place := .select frame (some tv) }, .silent)
      | none =>
          if frame.masks.null then ({ s with place := .caller }, .returned 0 frame.masks)
          else ({ s with place := .select frame none }, .silent)

def step (s : State Func Arg Mask) : Action Func Arg Mask → Result Func Arg Mask
  | .timeout func arg ms malloc now =>
      if s.place.user then
        if s.timers.freeList.isNone && !malloc then some ({ s with place := .exited }, .silent)
        else
          s.read now fun micros =>
            (s.timers.timeout func arg ms (gettimeofday micros)).map fun r =>
              ({ s with timers := r.1, clock := micros }, .created r.2 (r.1.event r.2).id)
      else none
  | .untimeout id =>
      if s.place.user then
        (s.timers.untimeout id).map fun r => ({ s with timers := r.1 }, .cancelled r.2)
      else none
  | .tselect sets now =>
      match s.place with
      | .caller =>
          s.read now fun micros =>
            some ({ s with place := .loop ⟨sets, micros⟩, clock := micros }, .silent)
      | _ => none
  | .turn =>
      match s.place with
      | .loop frame => some (turn s frame)
      | _ => none
  | .return_ =>
      match s.place with
      | .callback frame =>
          match s.timers.retire with
          | some timers => some ({ s with timers := timers, place := .loop frame }, .silent)
          | none => some ({ s with place := .crashed }, .silent)
      | _ => none
  | .select n sets now =>
      match s.place with
      | .select frame _ =>
          if n < 0 then some ({ s with place := .caller }, .returned (-1) sets)
          else if 0 < n then some ({ s with place := .caller }, .returned n sets)
          -- select is called again with the sets as they were given
          else
            s.read now fun micros =>
              some ({ s with place := .loop { frame with now := micros }, clock := micros },
                .silent)
      | _ => none

abbrev Step (Func Arg Mask : Type*) :=
  Transition (State Func Arg Mask) (Action Func Arg Mask) (Answer Func Arg Mask)

def machine (Func Arg Mask : Type*) :
    Machine (State Func Arg Mask) (Action Func Arg Mask) (Answer Func Arg Mask) where
  start s := s.timers.active = none ∧ s.timers.freeList = none ∧ s.timers.nextId = 1 ∧
    s.timers.allocated = 0 ∧ s.place = .caller
  step := step

/-! The lists. -/

/-- A time that is later has the lower rank. -/
def rank (tv : Timeval) : (Lex (Int × Int))ᵒᵈ := OrderDual.toDual (toLex (tv.tvSec, tv.tvUsec))

theorem timercmp_iff (a b : Timeval) : timercmp a b = true ↔ rank b < rank a := by
  rw [rank, rank, OrderDual.toDual_lt_toDual, Prod.Lex.toLex_lt_toLex, timercmp]
  split
  · rename_i same
    simp [same]
  · rename_i other
    simp [other]

structure Held (s : Timers Func Arg) (active free : List Nat) : Prop where
  activeWalk : Walk s.next s.active active none
  freeWalk : Walk s.next s.freeList free none
  all : (active ++ free).Perm (List.range s.allocated)
  sorted : active.Pairwise fun p q => rank (s.event q).tv ≤ rank (s.event p).tv

theorem Held.distinct {s : Timers Func Arg} {active free : List Nat} (held : Held s active free) :
    (active ++ free).Nodup :=
  held.all.nodup_iff.mpr List.nodup_range

theorem block_walk (next : Nat → Option Nat) (tp more : Nat) :
    Walk (block next tp more) (some tp) (List.range' tp (more + 1)) none ∧
      ∀ p, p < tp → block next tp more p = next p := by
  induction more generalizing next tp with
  | zero =>
      refine ⟨⟨rfl, Function.update_self _ _ _⟩, fun p below => ?_⟩
      exact Function.update_of_ne (by omega) _ _
  | succ more ih =>
      obtain ⟨walk, kept⟩ := ih (Function.update next tp (some (tp + 1))) (tp + 1)
      constructor
      · rw [block, List.range'_succ]
        refine ⟨rfl, ?_⟩
        rw [kept tp (by omega), Function.update_self]
        exact walk
      · intro p below
        rw [block, kept p (by omega), Function.update_of_ne (by omega)]

namespace Timers

@[simp] theorem setEvent_event (s : Timers Func Arg) (tp : Nat) (event : Tevent Func Arg) :
    (s.setEvent tp event).event = Function.update s.event tp event := rfl

@[simp] theorem store_event (s : Timers Func Arg) (tprev p : Option Nat) :
    (s.store tprev p).event = s.event := by
  cases tprev <;> rfl

@[simp] theorem store_freeList (s : Timers Func Arg) (tprev p : Option Nat) :
    (s.store tprev p).freeList = s.freeList := by
  cases tprev <;> rfl

@[simp] theorem store_nextId (s : Timers Func Arg) (tprev p : Option Nat) :
    (s.store tprev p).nextId = s.nextId := by
  cases tprev <;> rfl

@[simp] theorem store_allocated (s : Timers Func Arg) (tprev p : Option Nat) :
    (s.store tprev p).allocated = s.allocated := by
  cases tprev <;> rfl

theorem store_next (s : Timers Func Arg) (tprev p : Option Nat) (y : Nat)
    (other : tprev ≠ some y) : (s.store tprev p).next y = s.next y := by
  cases tprev with
  | none => rfl
  | some q => exact Function.update_of_ne (fun same => other (by rw [same])) _ _

theorem store_redirected (s : Timers Func Arg) (front : List Nat) (p : Option Nat) :
    Redirected s.next (s.store front.getLast? p).next s.active (s.store front.getLast? p).active
      front p := by
  rcases List.eq_nil_or_concat front with rfl | ⟨init, q, rfl⟩
  · exact ⟨fun _ => rfl, fun some_ => absurd rfl some_, by rintro _ ⟨⟩, by rintro _ ⟨⟩⟩
  · have last : (init.concat q).getLast? = some q := by simp
    rw [last]
    refine ⟨by simp, fun _ => rfl, ?_, ?_⟩
    · intro z here
      obtain rfl : q = z := by simpa [last] using here
      exact Function.update_self _ _ _
    · intro y _ other
      exact s.store_next (some q) p y fun same => other (last.trans same)

theorem store_patched (s : Timers Func Arg) (tprev tcur : Option Nat) (tp : Nat)
    (other : tprev ≠ some tp) :
    Patched s.next ((s.store tprev (some tp)).setNext tp tcur).next s.active
      ((s.store tprev (some tp)).setNext tp tcur).active tp tprev tcur := by
  cases tprev with
  | none => exact ⟨fun _ => rfl, fun some_ => absurd rfl some_, by rintro _ ⟨⟩,
      Function.update_self _ _ _, fun y new _ => Function.update_of_ne new _ _⟩
  | some q =>
      have apart : q ≠ tp := fun same => other (by rw [same])
      refine ⟨by rintro ⟨⟩, fun _ => rfl, ?_, Function.update_self _ _ _, ?_⟩
      · rintro z ⟨⟩
        simp [setNext, store, apart]
      · intro y new old
        have away : y ≠ q := fun same => old (by rw [same])
        simp [setNext, store, new, away]

theorem seek_found (s : Timers Func Arg) (go : Nat → Bool) (cells : List Nat) (turns : Nat)
    (tprev tcur : Option Nat) (walk : Walk s.next tcur cells none)
    (enough : cells.length < turns) :
    s.seek go turns tprev tcur =
      some ((cells.takeWhile go).getLast?.or tprev, (cells.dropWhile go).head?) := by
  induction cells generalizing turns tprev tcur with
  | nil =>
      obtain ⟨turns, rfl⟩ : ∃ n, turns = n + 1 := ⟨turns - 1, by omega⟩
      obtain rfl : tcur = none := walk
      simp [seek]
  | cons x cells ih =>
      obtain ⟨turns, rfl⟩ : ∃ n, turns = n + 1 := ⟨turns - 1, by omega⟩
      obtain ⟨rfl, walk⟩ := walk
      rw [List.length_cons] at enough
      rw [seek]
      by_cases onward : go x = true
      · rw [if_pos onward, ih turns (some x) _ walk (by omega),
          List.takeWhile_cons_of_pos onward, List.dropWhile_cons_of_pos onward,
          List.getLast?_cons]
        cases (cells.takeWhile go).getLast? <;> rfl
      · rw [if_neg onward, List.takeWhile_cons_of_neg onward, List.dropWhile_cons_of_neg onward]
        rfl

end Timers

/-- The list is cut in two where a loop over it stops. -/
theorem seek_cut (s : Timers Func Arg) (active : List Nat) (go : Nat → Bool)
    (walk : Walk s.next s.active active none) (enough : active.length ≤ s.allocated) :
    ∃ front back, active = front ++ back ∧
      s.seek go (s.allocated + 1) none s.active = some (front.getLast?, back.head?) ∧
      (∀ p ∈ front, go p = true) ∧ ∀ p, back.head? = some p → go p = false := by
  refine ⟨active.takeWhile go, active.dropWhile go, List.takeWhile_append_dropWhile.symm, ?_,
    fun p member => List.mem_takeWhile_imp member, ?_⟩
  · rw [s.seek_found go active _ none s.active walk (Nat.lt_succ_of_le enough), Option.or_none]
  · intro p first
    have stops := List.head?_dropWhile_not go active
    rw [first] at stops
    simpa using stops

structure Taken (s : Timers Func Arg) (active : List Nat) (tp : Nat) (free : List Nat) :
    Prop where
  activeWalk : Walk s.next s.active active none
  freeWalk : Walk s.next s.freeList free none
  all : (active ++ tp :: free).Perm (List.range s.allocated)
  sorted : active.Pairwise fun p q => rank (s.event q).tv ≤ rank (s.event p).tv

theorem Held.allocate {s : Timers Func Arg} {active free : List Nat}
    (held : Held s active free) :
    s.allocateTimer.1.event = s.event ∧ s.allocateTimer.1.nextId = s.nextId ∧
      ∃ rest, Taken s.allocateTimer.1 active s.allocateTimer.2 rest := by
  cases free with
  | nil =>
      have none_ : s.freeList = none := held.freeWalk
      obtain ⟨walk, kept⟩ := block_walk s.next s.allocated (NTIMERS - 1)
      have below : ∀ p ∈ active, p < s.allocated := fun p member =>
        List.mem_range.mp (held.all.mem_iff.mp (List.mem_append_left _ member))
      rw [Timers.allocateTimer, none_]
      refine ⟨rfl, rfl, List.range' (s.allocated + 1) (NTIMERS - 1), ?_, walk.2, ?_, held.sorted⟩
      · exact walk_frame active (fun p member => kept p (below p member)) held.activeWalk
      · have old : active.Perm (List.range s.allocated) := by simpa using held.all
        have whole : List.range (s.allocated + NTIMERS) =
            List.range s.allocated ++ List.range' s.allocated NTIMERS := by
          have joined := @List.range'_append_1 0 s.allocated NTIMERS
          rw [Nat.zero_add] at joined
          rw [List.range_eq_range', List.range_eq_range', joined]
        exact (old.append_right _).trans (List.Perm.of_eq whole.symm)
  | cons tp rest =>
      obtain ⟨head, walk⟩ := held.freeWalk
      rw [Timers.allocateTimer, head]
      exact ⟨rfl, rfl, rest, held.activeWalk, walk, held.all, held.sorted⟩

theorem Taken.out {s : Timers Func Arg} {active free : List Nat} {tp : Nat}
    (taken : Taken s active tp free) : (active ++ free).Nodup ∧ tp ∉ active ∧ tp ∉ free := by
  have distinct := taken.all.nodup_iff.mpr List.nodup_range
  obtain ⟨out, others⟩ := List.nodup_cons.mp (List.nodup_middle.mp distinct)
  rw [List.mem_append, not_or] at out
  exact ⟨others, out⟩

theorem Taken.setEvent {s : Timers Func Arg} {active free : List Nat} {tp : Nat}
    (taken : Taken s active tp free) (event : Tevent Func Arg) :
    Taken (s.setEvent tp event) active tp free := by
  obtain ⟨-, out, -⟩ := taken.out
  refine ⟨taken.activeWalk, taken.freeWalk, taken.all, ?_⟩
  refine taken.sorted.imp_of_mem fun {p q} first second below => ?_
  have apart (r : Nat) (member : r ∈ active) : (s.setEvent tp event).event r = s.event r :=
    Function.update_of_ne (ne_of_mem_of_not_mem member out) _ _
  rwa [apart p first, apart q second]

theorem Taken.enqueue {s : Timers Func Arg} {active free : List Nat} {tp : Nat}
    (taken : Taken s active tp free) :
    ∃ after, s.enqueue tp = some after ∧ after.event = s.event ∧ after.nextId = s.nextId ∧
      Held after (StablePriority.insert (fun p => rank (s.event p).tv) active tp) free := by
  have enough : active.length ≤ s.allocated := by
    have size := taken.all.length_eq
    rw [List.length_append, List.length_range] at size
    omega
  obtain ⟨distinct, out, unused⟩ := taken.out
  obtain ⟨front, back, rfl, found, earlier, later⟩ := seek_cut s active
    (fun tcur => !timercmp (s.event tp).tv (s.event tcur).tv) taken.activeWalk enough
  have before : ∀ p ∈ front, ¬ rank (s.event p).tv < rank (s.event tp).tv := by
    intro p member
    have here := earlier p member
    rw [Bool.not_eq_true', ← Bool.not_eq_true, timercmp_iff] at here
    exact here
  have behind : ∀ p ∈ back, rank (s.event p).tv < rank (s.event tp).tv := by
    intro p member
    cases back with
    | nil => cases member
    | cons z back =>
        -- the timers behind the first later one are not earlier than it
        have first : rank (s.event z).tv < rank (s.event tp).tv := by
          rw [← timercmp_iff]
          simpa using later z rfl
        rcases List.mem_cons.mp member with rfl | more
        · exact first
        · have order := (List.pairwise_append.mp taken.sorted).2.1
          exact ((List.pairwise_cons.mp order).1 p more).trans_lt first
  have place := StablePriority.insert_between (fun p => rank (s.event p).tv) front back tp
    before behind
  obtain ⟨own, freeNodup, apart⟩ := List.nodup_append.mp distinct
  rw [List.mem_append, not_or] at out
  have patched := s.store_patched front.getLast? back.head? tp
    fun here => out.1 (List.mem_of_getLast? here)
  refine ⟨(s.store front.getLast? (some tp)).setNext tp back.head?, ?_, by simp [Timers.setNext],
    by simp [Timers.setNext], ?_⟩
  · rw [Timers.enqueue, found]
    rfl
  · rw [place]
    refine ⟨walk_patched front back tp patched own ?_ taken.activeWalk, ?_, ?_, ?_⟩
    · rw [List.mem_append, not_or]
      exact out
    · refine walk_frame free ?_ (by simpa [Timers.setNext] using taken.freeWalk)
      intro p member
      have last : front.getLast? ≠ some p := fun here =>
        apart p (List.mem_append_left back (List.mem_of_getLast? here)) p member rfl
      exact patched.kept p (ne_of_mem_of_not_mem member unused) last
    · simp only [Timers.setNext, Timers.store_allocated]
      refine List.Perm.trans ?_ taken.all
      exact ((List.perm_middle.append_right free).trans List.perm_middle.symm)
    · rw [← place]
      simp only [Timers.setNext, Timers.store_event]
      exact StablePriority.sorted_insert _ _ tp taken.sorted

theorem Held.timeout {s : Timers Func Arg} {active free : List Nat} (held : Held s active free)
    (func : Func) (arg : Arg) (ms : Int) (now : Timeval) :
    ∃ after tp rest, s.timeout func arg ms now = some (after, tp) ∧ tp ∉ active ∧
      after.event = Function.update s.event tp ⟨expiry now ms, func, arg, s.nextId⟩ ∧
      after.nextId = s.nextId + 1 ∧
      Held after (StablePriority.insert (fun p => rank (after.event p).tv) active tp) rest := by
  obtain ⟨events, ids, rest, taken⟩ := held.allocate
  rw [Timers.timeout]
  generalize s.allocateTimer = node at events ids taken
  obtain ⟨t, tp⟩ := node
  dsimp only at events ids taken ⊢
  obtain ⟨-, new, -⟩ := taken.out
  obtain ⟨after, put, event, nextId, kept⟩ := (taken.setEvent
    { t.event tp with tv := expiry now ms, func := func, arg := arg }).enqueue
  have fields : after.event tp = ⟨expiry now ms, func, arg, (t.event tp).id⟩ := by
    rw [event, Timers.setEvent_event, Function.update_self]
  have given : after.nextId = s.nextId := nextId.trans ids
  refine ⟨{ after.setEvent tp { after.event tp with id := after.nextId } with
    nextId := after.nextId + 1 }, tp, rest, by rw [put]; rfl, new, ?_, by rw [← given], ?_⟩
  · dsimp only
    rw [Timers.setEvent_event, fields, given, event, Timers.setEvent_event,
      Function.update_idem, events]
  · -- the id is written last and moves nothing
    have times (p : Nat) : ((after.setEvent tp
        { after.event tp with id := after.nextId }).event p).tv = (after.event p).tv := by
      by_cases same : p = tp
      · rw [same, Timers.setEvent_event, Function.update_self]
      · rw [Timers.setEvent_event, Function.update_of_ne same]
    simp only [times]
    rw [← event] at kept
    refine ⟨kept.activeWalk, kept.freeWalk, kept.all, ?_⟩
    simpa only [times] using kept.sorted

theorem Held.untimeout {s : Timers Func Arg} {active free : List Nat} (held : Held s active free)
    (id : UInt32) :
    ((∀ p ∈ active, (s.event p).id ≠ id) ∧ s.untimeout id = some (s, false)) ∨
    ∃ front tp back after, active = front ++ tp :: back ∧ (s.event tp).id = id ∧
      (∀ p ∈ front, (s.event p).id ≠ id) ∧ s.untimeout id = some (after, true) ∧
      after.event = s.event ∧ after.nextId = s.nextId ∧ Held after (front ++ back) (tp :: free) := by
  -- the loop ends, as the list has no more nodes than were allocated
  have enough : active.length ≤ s.allocated := by
    have size := held.all.length_eq
    rw [List.length_append, List.length_range] at size
    omega
  obtain ⟨front, back, rfl, found, earlier, stop⟩ := seek_cut s active
    (fun tcur => id != (s.event tcur).id) held.activeWalk enough
  have others : ∀ p ∈ front, (s.event p).id ≠ id := by
    intro p member same
    simpa [same] using earlier p member
  cases back with
  | nil =>
      refine Or.inl ⟨by simpa using others, ?_⟩
      rw [Timers.untimeout, found]
      rfl
  | cons tp back =>
      have here : (s.event tp).id = id := by
        have equal := stop tp rfl
        rw [bne_eq_false_iff_eq] at equal
        exact equal.symm
      obtain ⟨unique, -, apart⟩ := List.nodup_append.mp held.distinct
      obtain ⟨own, backNodup, cross⟩ := List.nodup_append.mp unique
      obtain ⟨absent, -⟩ := List.nodup_cons.mp backNodup
      have last {p : Nat} (out : p ∉ front) : front.getLast? ≠ some p := fun equal =>
        out (List.mem_of_getLast? equal)
      have inner : tp ∈ front ++ tp :: back := by simp
      have before : tp ∉ front := fun member => cross tp member tp List.mem_cons_self rfl
      refine Or.inr ⟨front, tp, back, { (s.store front.getLast? (s.next tp)).setNext tp
        (s.store front.getLast? (s.next tp)).freeList with freeList := some tp }, rfl, here, others,
        ?_, by simp [Timers.setNext], by simp [Timers.setNext], ?_, ?_, ?_, ?_⟩
      · rw [Timers.untimeout, found]
        rfl
      -- the node before tp, or the head, is redirected past it
      · have dropped := walk_drop front back tp own (s.store_redirected front (s.next tp))
          (fun p member => s.store_next _ _ p
            (last fun early => cross p early p (List.mem_cons_of_mem tp member) rfl))
          held.activeWalk
        refine walk_frame _ (fun p member => Function.update_of_ne ?_ _ _) dropped
        rintro rfl
        exact (List.mem_append.mp member).elim before absent
      · refine walk_push free tp (Function.update_self _ _ _) ?_
          (by simpa using held.freeWalk)
        intro p member
        have other : p ≠ tp := fun same => apart tp inner p member same.symm
        refine (Function.update_of_ne other _ _).trans (s.store_next _ _ p (last fun early => ?_))
        exact apart p (List.mem_append_left _ early) p member rfl
      · have moved : (front ++ back ++ tp :: free).Perm (front ++ tp :: back ++ free) :=
          List.perm_middle.trans (List.perm_middle.append_right free).symm
        simpa [Timers.setNext] using moved.trans held.all
      · simp only [Timers.setNext, Timers.store_event]
        exact held.sorted.sublist (List.Sublist.append_left (List.sublist_cons_self tp back) front)

/-- The first timer is taken off after its function has returned. -/
theorem Held.retire {s : Timers Func Arg} {active free : List Nat} {tp : Nat}
    (held : Held s (tp :: active) free) :
    ∃ after, s.retire = some after ∧ after.event = s.event ∧ after.nextId = s.nextId ∧
      Held after active (tp :: free) := by
  obtain ⟨head, walk⟩ := held.activeWalk
  have absent := (List.nodup_cons.mp held.distinct).1
  have other {p : Nat} (member : p ∈ active ++ free) : p ≠ tp :=
    ne_of_mem_of_not_mem member absent
  refine ⟨{ s with
    active := s.next tp
    next := Function.update s.next tp s.freeList
    freeList := some tp }, by rw [Timers.retire, head]; rfl, rfl, rfl, ?_, ?_, ?_, ?_⟩
  · exact walk_frame active (fun p member =>
      Function.update_of_ne (other (List.mem_append_left free member)) _ _) walk
  · exact walk_push free tp (Function.update_self _ _ _) (fun p member =>
      Function.update_of_ne (other (List.mem_append_right active member)) _ _) held.freeWalk
  · exact List.perm_middle.trans held.all
  · exact (List.pairwise_cons.mp held.sorted).2

def Timers.actives (s : Timers Func Arg) : List Nat :=
  cells s.next s.allocated s.active

theorem Held.actives {s : Timers Func Arg} {active free : List Nat} (held : Held s active free) :
    s.actives = active := by
  refine cells_walk active s.allocated ?_ held.activeWalk
  have size := held.all.length_eq
  rw [List.length_append, List.length_range] at size
  omega

theorem Held.first {s : Timers Func Arg} {active free : List Nat} (held : Held s active free) :
    s.active = active.head? :=
  walk_start active held.activeWalk

theorem held_nil (s : Timers Func Arg) (noActive : s.active = none) (noFree : s.freeList = none)
    (noNode : s.allocated = 0) : Held s [] [] := by
  refine ⟨noActive, noFree, ?_, List.Pairwise.nil⟩
  rw [noNode]
  exact List.Perm.refl []

/-! The steps, one case for each way that a step can go. -/

def Action.reads : Action Func Arg Mask → Bool
  | .timeout _ _ _ _ _ | .tselect _ _ | .select _ _ _ => true
  | .untimeout _ | .turn | .return_ => false

inductive Moves (s : State Func Arg Mask) :
    Action Func Arg Mask → State Func Arg Mask → Answer Func Arg Mask → Prop where
  | exit (action : Action Func Arg Mask) : action.reads = true →
      Moves s action { s with place := .exited } .silent
  | timeout (func : Func) (arg : Arg) (ms : Int) (malloc : Bool) (now : Nat)
      (timers : Timers Func Arg) (tp : Nat) :
      s.place.user = true → s.clock ≤ now →
      s.timers.timeout func arg ms (gettimeofday now) = some (timers, tp) →
      Moves s (.timeout func arg ms malloc (some now)) { s with timers := timers, clock := now }
        (.created tp (timers.event tp).id)
  | untimeout (id : UInt32) (timers : Timers Func Arg) (found : Bool) :
      s.place.user = true → s.timers.untimeout id = some (timers, found) →
      Moves s (.untimeout id) { s with timers := timers } (.cancelled found)
  | enter (sets : Sets Mask) (now : Nat) : s.place = .caller → s.clock ≤ now →
      Moves s (.tselect sets (some now)) { s with place := .loop ⟨sets, now⟩, clock := now } .silent
  | call (frame : Frame Mask) (tp : Nat) : s.place = .loop frame →
      s.timers.expired (gettimeofday frame.now) = some tp →
      Moves s .turn { s with place := .callback frame }
        (.called tp (s.timers.event tp).func (s.timers.event tp).arg)
  | wait (frame : Frame Mask) (tp : Nat) : s.place = .loop frame →
      s.timers.expired (gettimeofday frame.now) = none → s.timers.active = some tp →
      Moves s .turn
        { s with place := .select frame (some
          (remaining (s.timers.event tp).tv (gettimeofday frame.now))) } .silent
  | block (frame : Frame Mask) : s.place = .loop frame → s.timers.active = none →
      Moves s .turn { s with place := .select frame none } .silent
  | done (frame : Frame Mask) : s.place = .loop frame → s.timers.active = none →
      Moves s .turn { s with place := .caller } (.returned 0 frame.masks)
  | retire (frame : Frame Mask) (timers : Timers Func Arg) : s.place = .callback frame →
      s.timers.retire = some timers →
      Moves s .return_ { s with timers := timers, place := .loop frame } .silent
  | crash (frame : Frame Mask) : s.place = .callback frame → s.timers.retire = none →
      Moves s .return_ { s with place := .crashed } .silent
  | back (n r : Int) (sets : Sets Mask) (now : Option Nat) (frame : Frame Mask)
      (tvp : Option Timeval) : s.place = .select frame tvp →
      Moves s (.select n sets now) { s with place := .caller } (.returned r sets)
  | again (sets : Sets Mask) (now : Nat) (n : Int) (frame : Frame Mask) (tvp : Option Timeval) :
      s.place = .select frame tvp → s.clock ≤ now →
      Moves s (.select n sets (some now))
        { s with place := .loop { frame with now := now }, clock := now } .silent

theorem State.read_cases (s : State Func Arg Mask) (now : Option Nat)
    (onward : Nat → Result Func Arg Mask) (r : State Func Arg Mask × Answer Func Arg Mask)
    (read : s.read now onward = some r) :
    r = ({ s with place := .exited }, .silent) ∨
      ∃ micros, now = some micros ∧ s.clock ≤ micros ∧ onward micros = some r := by
  cases now with
  | none => exact Or.inl (Option.some.inj read).symm
  | some micros =>
      by_cases forward : s.clock ≤ micros
      · rw [State.read, if_pos forward] at read
        exact Or.inr ⟨micros, rfl, forward, read⟩
      · rw [State.read, if_neg forward] at read
        cases read

theorem turn_moves (s : State Func Arg Mask) (frame : Frame Mask) (here : s.place = .loop frame) :
    Moves s .turn (turn s frame).1 (turn s frame).2 := by
  rw [turn]
  cases due : s.timers.expired (gettimeofday frame.now) with
  | some tp => exact .call frame tp here due
  | none =>
      cases first : s.timers.active with
      | some tp => exact .wait frame tp here due first
      | none =>
          simp only
          split
          · exact .done frame here first
          · exact .block frame here first

theorem step_moves (s : State Func Arg Mask) (action : Action Func Arg Mask)
    (after : State Func Arg Mask) (answer : Answer Func Arg Mask)
    (stepped : step s action = some (after, answer)) : Moves s action after answer := by
  cases action with
  | timeout func arg ms malloc now =>
      simp only [step] at stepped
      split at stepped
      · rename_i user
        split at stepped
        · cases stepped
          exact .exit _ rfl
        · rcases s.read_cases now _ _ stepped with same | ⟨micros, rfl, forward, called⟩
          · cases same
            exact .exit _ rfl
          · obtain ⟨⟨timers, tp⟩, set, same⟩ := Option.map_eq_some_iff.mp called
            cases same
            exact .timeout func arg ms malloc micros timers tp user forward set
      · cases stepped
  | untimeout id =>
      simp only [step] at stepped
      split at stepped
      · rename_i user
        obtain ⟨⟨timers, found⟩, unset, same⟩ := Option.map_eq_some_iff.mp stepped
        cases same
        exact .untimeout id timers found user unset
      · cases stepped
  | tselect sets now =>
      simp only [step] at stepped
      split at stepped
      · rename_i here
        rcases s.read_cases now _ _ stepped with same | ⟨micros, rfl, forward, entered⟩
        · cases same
          exact .exit _ rfl
        · cases entered
          exact .enter sets micros here forward
      · cases stepped
  | turn =>
      simp only [step] at stepped
      split at stepped
      · rename_i frame here
        have moved := turn_moves s frame here
        rw [Option.some.inj stepped] at moved
        exact moved
      · cases stepped
  | return_ =>
      simp only [step] at stepped
      split at stepped
      · rename_i frame here
        split at stepped
        · rename_i timers popped
          cases stepped
          exact .retire frame timers here popped
        · rename_i empty
          cases stepped
          exact .crash frame here empty
      · cases stepped
  | select n sets now =>
      simp only [step] at stepped
      split at stepped
      · rename_i frame tvp here
        split at stepped
        · cases stepped
          exact .back n (-1) sets now frame tvp here
        · split at stepped
          · cases stepped
            exact .back n n sets now frame tvp here
          · rcases s.read_cases now _ _ stepped with same | ⟨micros, rfl, forward, again⟩
            · cases same
              exact .exit _ rfl
            · cases again
              exact .again sets micros n frame tvp here forward
      · cases stepped

end NetworkProgramming.Tselect
