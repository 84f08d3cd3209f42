import NetworkProgramming.Machine
import NetworkProgramming.Posix
import Mathlib.Logic.Function.Basic

/-!
mymq_open and what it holds while it runs: descriptors of the process, mappings, the
mymq_info, and the file under the name. Each call of a library function is a step with
any result it can have; between two of them other threads open and close descriptors,
and other processes take the name away or give it to a file of their own.
-/

namespace NetworkProgramming.Mymq.OpenErrors

def maxTries : Nat := 10

structure Args where
  oCreat : Bool
  oExcl : Bool
  attrValid : Bool

inductive Owner where
  | caller
  | others
  deriving DecidableEq

inductive File where
  | created
  | foreign
  deriving DecidableEq

/-- The call that comes next: first where the file is created, then where it exists,
then in the clean-up. -/
inductive Point where
  | openExcl
  | lseek
  | write
  | mmapNew
  | mallocNew
  | mutexattrInit
  | mutexInit
  | condattrInit
  | condInit
  | fchmod
  | closeNew
  | openOld
  | stat (i : Nat)
  | closeAgain
  | mmapOld
  | closeOld
  | mallocOld
  | errUnlink
  | errMunmap
  | errFree
  | errClose
  | returned
  | failed
  deriving DecidableEq

/-- What a call answers. `initializing` is a stat that sees the user-execute bit. -/
inductive Result where
  | ok
  | fd (k : Nat)
  | initializing
  | error (e : Errno)
  deriving DecidableEq

structure State where
  point : Point
  created : Bool
  mptr : Bool
  mqinfo : Bool
  fd : Option Nat
  owner : Nat → Option Owner
  mappings : Nat
  heap : Nat
  name : Option File

inductive Event where
  | quiet
  | opened (k : Nat)
  | closed (k : Nat) (owner : Owner)
  | unlinked (file : File)
  deriving DecidableEq

inductive Action where
  | call (result : Result)
  | othersOpen (k : Nat)
  | othersClose (k : Nat)
  | rename (file : Option File)
  deriving DecidableEq

namespace State

def goto (s : State) (point : Point) : State := { s with point := point }

/-- close of `fd`, which fails without an effect if nothing has the number. -/
def close (s : State) (next : Point) : State × Event :=
  match s.fd.bind s.owner, s.fd with
  | some owner, some k =>
      ({ s with owner := Function.update s.owner k none, point := next }, .closed k owner)
  | _, _ => (s.goto next, .quiet)

/-- open with the lowest or any other number that is free. -/
def open_ (s : State) (k : Nat) (next : Point) : State × Event :=
  ({ s with fd := some k, owner := Function.update s.owner k (some .caller), point := next },
    .opened k)

def orErr (s : State) (result : Result) (done : State) : Option (State × Event) :=
  match result with
  | .ok => some (done, .quiet)
  | .error _ => some (s.goto .errUnlink, .quiet)
  | _ => none

end State

def callStep (args : Args) (s : State) (result : Result) : Option (State × Event) :=
  match s.point with
  | .openExcl => match result with
      | .fd k =>
          if s.owner k = none ∧ s.name = none then
            some ({ s with created := true, name := some .created }.open_ k
              (if args.attrValid then .lseek else .errUnlink))
          else none
      | .error e =>
          let s := { s with fd := none }
          if e = .eexist ∧ args.oExcl = false then some (s.goto .openOld, .quiet)
          else some (s.goto .failed, .quiet)
      | _ => none
  | .lseek => s.orErr result (s.goto .write)
  | .write => s.orErr result (s.goto .mmapNew)
  | .mmapNew => s.orErr result { s with
      mptr := true, mappings := s.mappings + 1, point := .mallocNew }
  | .mallocNew => s.orErr result { s with
      mqinfo := true, heap := s.heap + 1, point := .mutexattrInit }
  | .mutexattrInit => s.orErr result (s.goto .mutexInit)
  | .mutexInit => s.orErr result (s.goto .condattrInit)
  | .condattrInit => s.orErr result (s.goto .condInit)
  | .condInit => s.orErr result (s.goto .fchmod)
  | .fchmod => s.orErr result (s.goto .closeNew)
  | .closeNew => some (s.close .returned)
  | .openOld => match result with
      | .fd k => if s.owner k = none then some (s.open_ k (.stat 0)) else none
      | .error e =>
          let s := { s with fd := none }
          if e = .enoent ∧ args.oCreat then some (s.goto .openExcl, .quiet)
          else some (s.goto .errUnlink, .quiet)
      | _ => none
  | .stat i => match result with
      | .ok => some (s.goto .mmapOld, .quiet)
      | .initializing =>
          some (s.goto (if i + 1 = maxTries then .errUnlink else .stat (i + 1)), .quiet)
      | .error e =>
          if e = .enoent ∧ args.oCreat then some (s.goto .closeAgain, .quiet)
          else some (s.goto .errUnlink, .quiet)
      | _ => none
  | .closeAgain => some (s.close .openExcl)
  | .mmapOld => s.orErr result { s with
      mptr := true, mappings := s.mappings + 1, point := .closeOld }
  | .closeOld => some (s.close .mallocOld)
  | .mallocOld => s.orErr result { s with
      mqinfo := true, heap := s.heap + 1, point := .returned }
  | .errUnlink =>
      match s.created, s.name with
      | true, some file => some ({ s with name := none, point := .errMunmap }, .unlinked file)
      | _, _ => some (s.goto .errMunmap, .quiet)
  | .errMunmap =>
      some ({ s with
        mappings := if s.mptr then s.mappings - 1 else s.mappings
        point := .errFree }, .quiet)
  | .errFree =>
      some ({ s with heap := if s.mqinfo then s.heap - 1 else s.heap, point := .errClose }, .quiet)
  | .errClose => some (s.close .failed)
  | .returned | .failed => none

/-- Others close what is theirs, and do not make the file of this call again. -/
def step (args : Args) (s : State) : Action → Option (State × Event)
  | .call result => callStep args s result
  | .othersOpen k =>
      if s.owner k = none then
        some ({ s with owner := Function.update s.owner k (some .others) }, .quiet)
      else none
  | .othersClose k =>
      if s.owner k = some .others then
        some ({ s with owner := Function.update s.owner k none }, .quiet)
      else none
  | .rename file =>
      if file = some .created then none else some ({ s with name := file }, .quiet)

structure Begins (args : Args) (s : State) : Prop where
  point : s.point = if args.oCreat then .openExcl else .openOld
  created : s.created = false
  mptr : s.mptr = false
  mqinfo : s.mqinfo = false
  owner : ∀ k, s.owner k ≠ some .caller
  mappings : s.mappings = 0
  heap : s.heap = 0
  name : s.name ≠ some .created

def machine (args : Args) : Machine State Action Event where
  start := Begins args
  step := step args

abbrev Step := Transition State Action Event

/-! What is so at each point. -/

namespace Point

def holds : Point → Bool
  | .lseek | .write | .mmapNew | .mallocNew | .mutexattrInit | .mutexInit | .condattrInit
  | .condInit | .fchmod | .closeNew | .stat _ | .closeAgain | .mmapOld | .closeOld => true
  | _ => false

def clear : Point → Bool
  | .openExcl | .openOld | .mallocOld | .returned | .failed => true
  | _ => false

def unmapped : Point → Bool
  | .openExcl | .lseek | .write | .mmapNew | .openOld | .stat _ | .closeAgain | .mmapOld => true
  | _ => false

def unallocated : Point → Bool
  | .mallocNew | .closeOld | .mallocOld => true
  | p => p.unmapped

def uncreated : Point → Bool
  | .openExcl | .openOld | .stat _ | .closeAgain | .mmapOld | .closeOld | .mallocOld => true
  | _ => false

def err : Point → Bool
  | .errUnlink | .errMunmap | .errFree | .errClose => true
  | _ => false

/-! The clean-up is past its unlink, its munmap, its free. -/

def pastUnlink : Point → Bool
  | .errMunmap | .errFree | .errClose | .failed => true
  | _ => false

def pastMunmap : Point → Bool
  | .errFree | .errClose | .failed => true
  | _ => false

def pastFree : Point → Bool
  | .errClose | .failed => true
  | _ => false

structure LeadsTo (p q : Point) : Prop where
  holds : q.holds = true → p.holds = true
  clear : q.clear = true → p.clear = true
  unmapped : q.unmapped = true → p.unmapped = true
  unallocated : q.unallocated = true → p.unallocated = true
  uncreated : q.uncreated = true → p.uncreated = true
  pastUnlink : q.pastUnlink = true → p.pastUnlink = true ∨ p.uncreated = true
  pastMunmap : q.pastMunmap = p.pastMunmap ∨ p.unmapped = true
  pastFree : q.pastFree = p.pastFree ∨ p.unallocated = true

def leadsTo (p q : Point) : Bool :=
  (!q.holds || p.holds) && (!q.clear || p.clear) && (!q.unmapped || p.unmapped) &&
    (!q.unallocated || p.unallocated) && (!q.uncreated || p.uncreated) &&
    (!q.pastUnlink || p.pastUnlink || p.uncreated) &&
    (q.pastMunmap == p.pastMunmap || p.unmapped) && (q.pastFree == p.pastFree || p.unallocated)

theorem LeadsTo.of {p q : Point} (checked : p.leadsTo q = true) : p.LeadsTo q := by
  simp only [leadsTo, Bool.and_eq_true, Bool.or_eq_true, Bool.not_eq_true', beq_iff_eq] at checked
  obtain ⟨⟨⟨⟨⟨⟨⟨holds, clear⟩, unmapped⟩, unallocated⟩, uncreated⟩, pastUnlink⟩, pastMunmap⟩,
    pastFree⟩ := checked
  refine ⟨?_, ?_, ?_, ?_, ?_, ?_, pastMunmap, pastFree⟩
  · exact fun there => holds.resolve_left (by simp [there])
  · exact fun there => clear.resolve_left (by simp [there])
  · exact fun there => unmapped.resolve_left (by simp [there])
  · exact fun there => unallocated.resolve_left (by simp [there])
  · exact fun there => uncreated.resolve_left (by simp [there])
  · intro there
    rcases pastUnlink with (before | past) | blank
    · simp [there] at before
    · exact Or.inl past
    · exact Or.inr blank

end Point

structure Sits (s : State) : Prop where
  own : ∀ k, s.owner k = some .caller → s.fd = some k
  holds : s.point.holds = true → ∃ k, s.fd = some k ∧ s.owner k = some .caller
  clear : s.point.clear = true → ∀ k, s.owner k ≠ some .caller
  unmapped : s.point.unmapped = true → s.mptr = false
  unallocated : s.point.unallocated = true → s.mqinfo = false
  uncreated : s.point.uncreated = true → s.created = false
  mappings : s.mappings = if s.mptr && !s.point.pastMunmap then 1 else 0
  heap : s.heap = if s.mqinfo && !s.point.pastFree then 1 else 0
  name : s.name = some .created → s.created = true ∧ s.point.pastUnlink = false

inductive Did (s : State) : State → Event → Prop where
  | goto (next : Point) (leads : s.point.LeadsTo next)
      (err : next.err = true → s.point.holds = true ∨ s.point = .mallocOld) :
      Did s (s.goto next) .quiet
  | refused (next : Point) (opens : s.point.clear = true) (leads : s.point.LeadsTo next) :
      Did s { s with fd := none, point := next } .quiet
  | created (k : Nat) (next : Point) (here : s.point = .openExcl)
      (there : next = .lseek ∨ next = .errUnlink) (free : s.owner k = none)
      (absent : s.name = none) :
      Did s { s with
        created := true
        name := some .created
        fd := some k
        owner := Function.update s.owner k (some .caller)
        point := next } (.opened k)
  | opened (k : Nat) (here : s.point = .openOld) (free : s.owner k = none) :
      Did s { s with
        fd := some k
        owner := Function.update s.owner k (some .caller)
        point := .stat 0 } (.opened k)
  | mapped (next : Point) (there : s.point = .mmapNew ∧ next = .mallocNew ∨
      s.point = .mmapOld ∧ next = .closeOld) :
      Did s { s with mptr := true, mappings := s.mappings + 1, point := next } .quiet
  | allocated (next : Point) (there : s.point = .mallocNew ∧ next = .mutexattrInit ∨
      s.point = .mallocOld ∧ next = .returned) :
      Did s { s with mqinfo := true, heap := s.heap + 1, point := next } .quiet
  | closed (next : Point) (there : s.point = .closeNew ∧ next = .returned ∨
      s.point = .closeAgain ∧ next = .openExcl ∨ s.point = .closeOld ∧ next = .mallocOld ∨
      s.point = .errClose ∧ next = .failed) :
      Did s (s.close next).1 (s.close next).2
  | unlinked (file : File) (here : s.point = .errUnlink) (made : s.created = true)
      (names : s.name = some file) :
      Did s { s with name := none, point := .errMunmap } (.unlinked file)
  | notUnlinked (here : s.point = .errUnlink) (nothing : s.created = false ∨ s.name = none) :
      Did s (s.goto .errMunmap) .quiet
  | unmapped (here : s.point = .errMunmap) :
      Did s { s with
        mappings := if s.mptr then s.mappings - 1 else s.mappings
        point := .errFree } .quiet
  | freed (here : s.point = .errFree) :
      Did s { s with heap := if s.mqinfo then s.heap - 1 else s.heap, point := .errClose } .quiet

theorem orErr_did {s after : State} {result : Result} {event : Event} {done : State}
    (ran : s.orErr result done = some (after, event)) (leaves : s.point.leadsTo .errUnlink = true)
    (held : s.point.holds = true ∨ s.point = .mallocOld) (goes : Did s done .quiet) :
    Did s after event := by
  cases result with
  | ok =>
      cases ran
      exact goes
  | error e =>
      cases ran
      exact .goto .errUnlink (.of leaves) fun _ => held
  | fd k => cases ran
  | initializing => cases ran

theorem close_did {s after : State} {event : Event} {next : Point}
    (ran : some (s.close next) = some (after, event))
    (there : s.point = .closeNew ∧ next = .returned ∨
      s.point = .closeAgain ∧ next = .openExcl ∨ s.point = .closeOld ∧ next = .mallocOld ∨
      s.point = .errClose ∧ next = .failed) : Did s after event := by
  have did := Did.closed next there
  rwa [Option.some.inj ran] at did

theorem goes_did {s after : State} {result : Result} {event : Event} (next : Point)
    (ran : s.orErr result (s.goto next) = some (after, event))
    (leaves : s.point.leadsTo .errUnlink = true) (held : s.point.holds = true)
    (leads : s.point.leadsTo next = true) (quiet : next.err = false) : Did s after event :=
  orErr_did ran leaves (Or.inl held)
    (.goto next (.of leads) fun there => nomatch quiet.symm.trans there)

section

variable {args : Args} {s after : State} {result : Result} {event : Event}
  (ran : callStep args s result = some (after, event))

include ran

theorem openExcl_did (here : s.point = .openExcl) : Did s after event := by
  obtain ⟨point, created, mptr, mqinfo, fd, owner, mappings, heap, name⟩ := s
  obtain rfl : point = .openExcl := here
  cases result with
  | fd k =>
      simp only [callStep, Option.ite_none_right_eq_some, State.open_, Option.some.injEq,
        Prod.mk.injEq] at ran
      obtain ⟨⟨free, absent⟩, rfl, rfl⟩ := ran
      refine .created k _ rfl ?_ free absent
      split
      · exact Or.inl rfl
      · exact Or.inr rfl
  | error e =>
      simp only [callStep] at ran
      split at ran
      · cases ran
        exact .refused .openOld rfl (.of rfl)
      · cases ran
        exact .refused .failed rfl (.of rfl)
  | ok => cases ran
  | initializing => cases ran

theorem openOld_did (here : s.point = .openOld) : Did s after event := by
  obtain ⟨point, created, mptr, mqinfo, fd, owner, mappings, heap, name⟩ := s
  obtain rfl : point = .openOld := here
  cases result with
  | fd k =>
      simp only [callStep, Option.ite_none_right_eq_some, State.open_, Option.some.injEq,
        Prod.mk.injEq] at ran
      obtain ⟨free, rfl, rfl⟩ := ran
      exact .opened k rfl free
  | error e =>
      simp only [callStep] at ran
      split at ran
      · cases ran
        exact .refused .openExcl rfl (.of rfl)
      · cases ran
        exact .refused .errUnlink rfl (.of rfl)
  | ok => cases ran
  | initializing => cases ran

theorem stat_did (i : Nat) (here : s.point = .stat i) : Did s after event := by
  obtain ⟨point, created, mptr, mqinfo, fd, owner, mappings, heap, name⟩ := s
  obtain rfl : point = .stat i := here
  cases result with
  | ok =>
      cases ran
      exact .goto .mmapOld (.of rfl) fun there => by cases there
  | initializing =>
      cases ran
      refine .goto _ ?_ fun _ => Or.inl rfl
      split
      · exact .of rfl
      · exact .of rfl
  | error e =>
      simp only [callStep] at ran
      split at ran
      · cases ran
        exact .goto .closeAgain (.of rfl) fun there => by cases there
      · cases ran
        exact .goto .errUnlink (.of rfl) fun _ => Or.inl rfl
  | fd k => cases ran

theorem errUnlink_did (here : s.point = .errUnlink) : Did s after event := by
  obtain ⟨point, created, mptr, mqinfo, fd, owner, mappings, heap, name⟩ := s
  obtain rfl : point = .errUnlink := here
  cases created with
  | false =>
      cases ran
      exact .notUnlinked rfl (Or.inl rfl)
  | true =>
      cases name with
      | none =>
          cases ran
          exact .notUnlinked rfl (Or.inr rfl)
      | some file =>
          cases ran
          exact .unlinked file rfl rfl rfl

end

theorem callStep_did {args : Args} {s after : State} {result : Result} {event : Event}
    (ran : callStep args s result = some (after, event)) : Did s after event := by
  obtain ⟨point, created, mptr, mqinfo, fd, owner, mappings, heap, name⟩ := s
  cases point with
  | openExcl => exact openExcl_did ran rfl
  | lseek => exact goes_did .write ran rfl rfl rfl rfl
  | write => exact goes_did .mmapNew ran rfl rfl rfl rfl
  | mmapNew => exact orErr_did ran rfl (Or.inl rfl) (.mapped .mallocNew (Or.inl ⟨rfl, rfl⟩))
  | mallocNew =>
      exact orErr_did ran rfl (Or.inl rfl)
        (.allocated .mutexattrInit (Or.inl ⟨rfl, rfl⟩))
  | mutexattrInit => exact goes_did .mutexInit ran rfl rfl rfl rfl
  | mutexInit => exact goes_did .condattrInit ran rfl rfl rfl rfl
  | condattrInit => exact goes_did .condInit ran rfl rfl rfl rfl
  | condInit => exact goes_did .fchmod ran rfl rfl rfl rfl
  | fchmod => exact goes_did .closeNew ran rfl rfl rfl rfl
  | closeNew => exact close_did ran (Or.inl ⟨rfl, rfl⟩)
  | openOld => exact openOld_did ran rfl
  | stat i => exact stat_did ran i rfl
  | closeAgain => exact close_did ran (Or.inr (Or.inl ⟨rfl, rfl⟩))
  | mmapOld => exact orErr_did ran rfl (Or.inl rfl) (.mapped .closeOld (Or.inr ⟨rfl, rfl⟩))
  | closeOld => exact close_did ran (Or.inr (Or.inr (Or.inl ⟨rfl, rfl⟩)))
  | mallocOld => exact orErr_did ran rfl (Or.inr rfl) (.allocated .returned (Or.inr ⟨rfl, rfl⟩))
  | errUnlink => exact errUnlink_did ran rfl
  | errMunmap =>
      cases ran
      exact .unmapped rfl
  | errFree =>
      cases ran
      exact .freed rfl
  | errClose => exact close_did ran (Or.inr (Or.inr (Or.inr ⟨rfl, rfl⟩)))
  | returned => cases ran
  | failed => cases ran

theorem close_cases (s : State) (next : Point) :
    (∃ k owner, s.fd = some k ∧ s.owner k = some owner ∧ s.close next =
      ({ s with owner := Function.update s.owner k none, point := next }, .closed k owner)) ∨
    ((∀ k, s.fd = some k → s.owner k = none) ∧ s.close next = (s.goto next, .quiet)) := by
  cases number : s.fd with
  | none => exact Or.inr ⟨by simp, by simp [State.close, number]⟩
  | some k =>
      cases holder : s.owner k with
      | none =>
          refine Or.inr ⟨?_, by simp [State.close, number, holder]⟩
          intro j same
          cases same
          exact holder
      | some owner => exact Or.inl ⟨k, owner, rfl, holder, by simp [State.close, number, holder]⟩

theorem Sits.goto {s : State} (sits : Sits s) {next : Point} (leads : s.point.LeadsTo next) :
    Sits (s.goto next) := by
  refine ⟨sits.own, fun there => sits.holds (leads.holds there),
    fun there => sits.clear (leads.clear there), fun there => sits.unmapped (leads.unmapped there),
    fun there => sits.unallocated (leads.unallocated there),
    fun there => sits.uncreated (leads.uncreated there), ?_, ?_, ?_⟩
  · change s.mappings = if s.mptr && !next.pastMunmap then 1 else 0
    rcases leads.pastMunmap with same | unmapped
    · rw [same, sits.mappings]
    · rw [sits.mappings, sits.unmapped unmapped]
      rfl
  · change s.heap = if s.mqinfo && !next.pastFree then 1 else 0
    rcases leads.pastFree with same | unallocated
    · rw [same, sits.heap]
    · rw [sits.heap, sits.unallocated unallocated]
      rfl
  · intro named
    obtain ⟨made, before⟩ := sits.name named
    refine ⟨made, ?_⟩
    cases past : next.pastUnlink with
    | false => exact past
    | true =>
        rcases leads.pastUnlink past with already | blank
        · rw [before] at already
          cases already
        · rw [sits.uncreated blank] at made
          cases made

theorem Point.holds_unclear {p : Point} (holds : p.holds = true) : p.clear = false := by
  cases p <;> first | rfl | cases holds

theorem own_opened {s : State} (clear : ∀ k, s.owner k ≠ some .caller) (k j : Nat)
    (owned : Function.update s.owner k (some .caller) j = some .caller) : some k = some j := by
  by_cases same : j = k
  · rw [same]
  · rw [Function.update_of_ne same] at owned
    exact absurd owned (clear j)

theorem Sits.created {s : State} (sits : Sits s) (k : Nat) {next : Point}
    (here : s.point = .openExcl) (there : next = .lseek ∨ next = .errUnlink) :
    Sits { s with
      created := true
      name := some .created
      fd := some k
      owner := Function.update s.owner k (some .caller)
      point := next } := by
  have unmapped : s.mptr = false := sits.unmapped (by rw [here]; rfl)
  have unallocated : s.mqinfo = false := sits.unallocated (by rw [here]; rfl)
  have mappings := sits.mappings
  have heap := sits.heap
  rw [unmapped] at mappings
  rw [unallocated] at heap
  refine ⟨own_opened (sits.clear (by rw [here]; rfl)) k,
    fun _ => ⟨k, rfl, Function.update_self _ _ _⟩, ?_, fun _ => unmapped, fun _ => unallocated, ?_,
    ?_, ?_, ?_⟩
  · rcases there with rfl | rfl <;> exact fun there => by cases there
  · rcases there with rfl | rfl <;> exact fun there => by cases there
  · simpa [unmapped] using mappings
  · simpa [unallocated] using heap
  · rcases there with rfl | rfl <;> exact fun _ => ⟨rfl, rfl⟩

theorem Sits.opened {s : State} (sits : Sits s) (k : Nat) (here : s.point = .openOld) :
    Sits { s with
      fd := some k
      owner := Function.update s.owner k (some .caller)
      point := .stat 0 } := by
  have unmapped : s.mptr = false := sits.unmapped (by rw [here]; rfl)
  have unallocated : s.mqinfo = false := sits.unallocated (by rw [here]; rfl)
  have mappings := sits.mappings
  have heap := sits.heap
  rw [unmapped] at mappings
  rw [unallocated] at heap
  refine ⟨own_opened (sits.clear (by rw [here]; rfl)) k,
    fun _ => ⟨k, rfl, Function.update_self _ _ _⟩, fun there => (by cases there), fun _ => unmapped,
    fun _ => unallocated, fun _ => sits.uncreated (by rw [here]; rfl), ?_, ?_,
    fun named => ⟨(sits.name named).1, rfl⟩⟩
  · simpa [unmapped] using mappings
  · simpa [unallocated] using heap

theorem Sits.mapped {s : State} (sits : Sits s) {next : Point}
    (there : s.point = .mmapNew ∧ next = .mallocNew ∨ s.point = .mmapOld ∧ next = .closeOld) :
    Sits { s with mptr := true, mappings := s.mappings + 1, point := next } := by
  have none_yet : s.mptr = false := by
    rcases there with ⟨here, -⟩ | ⟨here, -⟩ <;> exact sits.unmapped (by rw [here]; rfl)
  have unallocated : s.mqinfo = false := by
    rcases there with ⟨here, -⟩ | ⟨here, -⟩ <;> exact sits.unallocated (by rw [here]; rfl)
  have holds : ∃ k, s.fd = some k ∧ s.owner k = some .caller := by
    rcases there with ⟨here, -⟩ | ⟨here, -⟩ <;> exact sits.holds (by rw [here]; rfl)
  have mappings := sits.mappings
  have heap := sits.heap
  rw [none_yet] at mappings
  rw [unallocated] at heap
  have zero : s.mappings = 0 := by simpa using mappings
  have uncreated : next.uncreated = true → s.created = false := by
    rcases there with ⟨here, rfl⟩ | ⟨here, rfl⟩
    · exact fun there => by cases there
    · exact fun _ => sits.uncreated (by rw [here]; rfl)
  refine ⟨sits.own, fun _ => holds, ?_, ?_, fun _ => unallocated, uncreated, ?_, ?_, ?_⟩
  · rcases there with ⟨-, rfl⟩ | ⟨-, rfl⟩ <;> exact fun there => by cases there
  · rcases there with ⟨-, rfl⟩ | ⟨-, rfl⟩ <;> exact fun there => by cases there
  · rcases there with ⟨-, rfl⟩ | ⟨-, rfl⟩ <;> exact congrArg (· + 1) zero
  · simpa [unallocated] using heap
  · rcases there with ⟨-, rfl⟩ | ⟨-, rfl⟩ <;> exact fun named => ⟨(sits.name named).1, rfl⟩

theorem Sits.allocated {s : State} (sits : Sits s) {next : Point}
    (there : s.point = .mallocNew ∧ next = .mutexattrInit ∨
      s.point = .mallocOld ∧ next = .returned) :
    Sits { s with mqinfo := true, heap := s.heap + 1, point := next } := by
  have none_yet : s.mqinfo = false := by
    rcases there with ⟨here, -⟩ | ⟨here, -⟩ <;> exact sits.unallocated (by rw [here]; rfl)
  have heap := sits.heap
  rw [none_yet] at heap
  have zero : s.heap = 0 := by simpa using heap
  have mappings := sits.mappings
  refine ⟨sits.own, ?_, ?_, ?_, ?_, ?_, ?_, ?_, ?_⟩
  · rcases there with ⟨here, rfl⟩ | ⟨here, rfl⟩
    · exact fun _ => sits.holds (by rw [here]; rfl)
    · exact fun there => by cases there
  · rcases there with ⟨here, rfl⟩ | ⟨here, rfl⟩
    · exact fun there => by cases there
    · exact fun _ => sits.clear (by rw [here]; rfl)
  · rcases there with ⟨-, rfl⟩ | ⟨-, rfl⟩ <;> exact fun there => by cases there
  · rcases there with ⟨-, rfl⟩ | ⟨-, rfl⟩ <;> exact fun there => by cases there
  · rcases there with ⟨-, rfl⟩ | ⟨-, rfl⟩ <;> exact fun there => by cases there
  · rcases there with ⟨here, rfl⟩ | ⟨here, rfl⟩ <;> simpa [here, Point.pastMunmap] using mappings
  · rcases there with ⟨-, rfl⟩ | ⟨-, rfl⟩ <;> exact congrArg (· + 1) zero
  · rcases there with ⟨-, rfl⟩ | ⟨-, rfl⟩ <;> exact fun named => ⟨(sits.name named).1, rfl⟩

theorem Sits.closed {s : State} (sits : Sits s) {next : Point}
    (there : s.point = .closeNew ∧ next = .returned ∨
      s.point = .closeAgain ∧ next = .openExcl ∨ s.point = .closeOld ∧ next = .mallocOld ∨
      s.point = .errClose ∧ next = .failed) : Sits (s.close next).1 := by
  have leads : s.point.unmapped = next.unmapped ∧ s.point.pastMunmap = next.pastMunmap ∧
      s.point.pastFree = next.pastFree ∧ s.point.pastUnlink = next.pastUnlink ∧
      (next.unallocated = true → s.point.unallocated = true) ∧
      (next.uncreated = true → s.point.uncreated = true) ∧ next.holds = false := by
    rcases there with ⟨here, rfl⟩ | ⟨here, rfl⟩ | ⟨here, rfl⟩ | ⟨here, rfl⟩ <;> rw [here] <;> decide
  obtain ⟨unmapped, pastMunmap, pastFree, pastUnlink, unallocated, uncreated, lets⟩ := leads
  -- the caller has one descriptor at most, and this is the one that is closed
  have none_left : ∀ k, (s.close next).1.owner k ≠ some .caller := by
    rcases close_cases s next with ⟨j, owner, number, -, did⟩ | ⟨free, did⟩
    · intro k
      rw [did]
      by_cases same : k = j
      · rw [same]
        simp
      · dsimp only
        rw [Function.update_of_ne same]
        intro owned
        exact same (Option.some.inj ((sits.own k owned).symm.trans number))
    · intro k
      rw [did]
      intro owned
      cases (free k (sits.own k owned)).symm.trans owned
  have rest : (s.close next).1.point = next ∧ (s.close next).1.mptr = s.mptr ∧
      (s.close next).1.mqinfo = s.mqinfo ∧ (s.close next).1.created = s.created ∧
      (s.close next).1.mappings = s.mappings ∧ (s.close next).1.heap = s.heap ∧
      (s.close next).1.name = s.name := by
    rcases close_cases s next with ⟨j, owner, -, -, did⟩ | ⟨-, did⟩ <;> rw [did] <;>
      exact ⟨rfl, rfl, rfl, rfl, rfl, rfl, rfl⟩
  obtain ⟨point, mptr, mqinfo, created, mappings, heap, name⟩ := rest
  refine ⟨fun k owned => absurd owned (none_left k), ?_, fun _ => none_left, ?_, ?_, ?_, ?_, ?_, ?_⟩
  · rw [point, lets]
    exact fun there => by cases there
  · rw [point, mptr, ← unmapped]
    exact sits.unmapped
  · rw [point, mqinfo]
    exact fun there => sits.unallocated (unallocated there)
  · rw [point, created]
    exact fun there => sits.uncreated (uncreated there)
  · rw [mappings, mptr, point, ← pastMunmap]
    exact sits.mappings
  · rw [heap, mqinfo, point, ← pastFree]
    exact sits.heap
  · rw [name, created, point, ← pastUnlink]
    exact sits.name

theorem did_sits {s after : State} {event : Event} (did : Did s after event) (sits : Sits s) :
    Sits after := by
  cases did with
  | goto next leads => exact sits.goto leads
  | refused next opens leads =>
      have still := sits.goto leads
      -- open has failed, so the caller has no descriptor to close
      have none_open := sits.clear opens
      refine ⟨fun k owned => absurd owned (none_open k), ?_, still.clear, still.unmapped,
        still.unallocated, still.uncreated, still.mappings, still.heap, still.name⟩
      intro there
      rw [Point.holds_unclear (leads.holds there)] at opens
      cases opens
  | created k next here there => exact sits.created k here there
  | opened k here => exact sits.opened k here
  | mapped next there => exact sits.mapped there
  | allocated next there => exact sits.allocated there
  | closed next there => exact sits.closed there
  | unlinked file here made names =>
      have mappings := sits.mappings
      have heap := sits.heap
      rw [here] at mappings heap
      exact ⟨sits.own, fun there => (by cases there), fun there => (by cases there),
        fun there => (by cases there), fun there => (by cases there), fun there => (by cases there),
        mappings, heap, fun named => (by cases named)⟩
  | notUnlinked here nothing =>
      have mappings := sits.mappings
      have heap := sits.heap
      rw [here] at mappings heap
      refine ⟨sits.own, fun there => (by cases there), fun there => (by cases there),
        fun there => (by cases there), fun there => (by cases there), fun there => (by cases there),
        mappings, heap, ?_⟩
      intro named
      -- the name is left behind only by the call that has created it
      obtain ⟨made, -⟩ := sits.name named
      rcases nothing with unmade | absent
      · rw [made] at unmade
        cases unmade
      · exact absurd (absent.symm.trans named) (by simp)
  | unmapped here =>
      have mappings := sits.mappings
      have heap := sits.heap
      have name := sits.name
      rw [here] at mappings heap name
      refine ⟨sits.own, fun there => (by cases there), fun there => (by cases there),
        fun there => (by cases there), fun there => (by cases there), fun there => (by cases there),
        ?_, heap, fun named => (by cases (name named).2)⟩
      cases ptr : s.mptr with
      | true => simp [mappings, ptr, Point.pastMunmap]
      | false => simp [mappings, ptr]
  | freed here =>
      have mappings := sits.mappings
      have heap := sits.heap
      have name := sits.name
      rw [here] at mappings heap name
      refine ⟨sits.own, fun there => (by cases there), fun there => (by cases there),
        fun there => (by cases there), fun there => (by cases there), fun there => (by cases there),
        mappings, ?_, fun named => (by cases (name named).2)⟩
      cases info : s.mqinfo with
      | true => simp [heap, info, Point.pastFree]
      | false => simp [heap, info]

theorem Sits.beside {s : State} (sits : Sits s) {owner : Nat → Option Owner}
    (same : ∀ k, owner k = some .caller ↔ s.owner k = some .caller) {name : Option File}
    (foreign : name = some .created → s.name = some .created) :
    Sits { s with owner := owner, name := name } := by
  refine ⟨fun k owned => sits.own k ((same k).mp owned), ?_,
    fun there k owned => sits.clear there k ((same k).mp owned), sits.unmapped, sits.unallocated,
    sits.uncreated, sits.mappings, sits.heap, fun named => sits.name (foreign named)⟩
  intro there
  obtain ⟨k, number, owned⟩ := sits.holds there
  exact ⟨k, number, (same k).mpr owned⟩

theorem update_others {owner : Nat → Option Owner} {k : Nat} {before after : Option Owner}
    (found : owner k = before) (other : before ≠ some .caller) (also : after ≠ some .caller)
    (j : Nat) :
    Function.update owner k after j = some .caller ↔ owner j = some .caller := by
  by_cases same : j = k
  · rw [same, Function.update_self, found]
    simp [other, also]
  · rw [Function.update_of_ne same]

/-- The three actions of the others at once: the call's own entries stay as they are. -/
def Beside (s after : State) : Prop :=
  ∃ owner name, after = { s with owner := owner, name := name } ∧
    (∀ k, owner k = some .caller ↔ s.owner k = some .caller) ∧
    (name = some .created → s.name = some .created)

theorem step_cases {args : Args} {s after : State} {action : Action} {event : Event}
    (ran : step args s action = some (after, event)) :
    (∃ result, action = .call result) ∧ Did s after event ∨ event = .quiet ∧ Beside s after := by
  cases action with
  | call result => exact Or.inl ⟨⟨result, rfl⟩, callStep_did ran⟩
  | othersOpen k =>
      simp only [step, Option.ite_none_right_eq_some, Option.some.injEq, Prod.mk.injEq] at ran
      obtain ⟨free, rfl, rfl⟩ := ran
      exact Or.inr ⟨rfl, _, s.name, rfl, update_others free (by simp) (by simp), id⟩
  | othersClose k =>
      simp only [step, Option.ite_none_right_eq_some, Option.some.injEq, Prod.mk.injEq] at ran
      obtain ⟨theirs, rfl, rfl⟩ := ran
      exact Or.inr ⟨rfl, _, s.name, rfl, update_others theirs (by simp) (by simp), id⟩
  | rename file =>
      simp only [step, Option.ite_none_left_eq_some, Option.some.injEq, Prod.mk.injEq] at ran
      obtain ⟨foreign, rfl, rfl⟩ := ran
      exact Or.inr ⟨rfl, s.owner, _, rfl, fun _ => Iff.rfl, fun named => absurd named foreign⟩

theorem step_sits {args : Args} {s after : State} {action : Action} {event : Event}
    (ran : step args s action = some (after, event)) (sits : Sits s) : Sits after := by
  rcases step_cases ran with ⟨-, did⟩ | ⟨-, owner, name, rfl, same, foreign⟩
  · exact did_sits did sits
  · exact sits.beside same foreign

theorem begins_sits {args : Args} {s : State} (begins : Begins args s) : Sits s := by
  have point : s.point.holds = false ∧ s.point.pastMunmap = false ∧ s.point.pastFree = false := by
    rw [begins.point]
    cases args.oCreat <;> exact ⟨rfl, rfl, rfl⟩
  refine ⟨fun k owned => absurd owned (begins.owner k), ?_, fun _ => begins.owner,
    fun _ => begins.mptr, fun _ => begins.mqinfo, fun _ => begins.created, ?_, ?_,
    fun named => absurd named begins.name⟩
  · rw [point.1]
    exact fun there => by cases there
  · simp [begins.mappings, begins.mptr]
  · simp [begins.heap, begins.mqinfo]

theorem run_sits {args : Args} {trace : List Step} {s : State} (run : (machine args).Run trace s) :
    Sits s := by
  refine run.invariant (fun _ => begins_sits) fun e stepped sits => ?_
  have ran : step args e.before e.action = some (e.after, e.output) := stepped
  exact step_sits ran sits

/-! What the descriptors, the unlinks and the failing malloc leave in a trace. -/

def opened (trace : List Step) (k : Nat) : Nat := trace.countP fun e => e.output = .opened k

def closed (trace : List Step) (k : Nat) : Nat := trace.countP fun e => e.output = .closed k .caller

def Late (trace : List Step) : Prop :=
  ∃ d ∈ trace, d.before.point = .mallocOld ∧ d.after.point.err = true

def Created (trace : List Step) : Prop :=
  ∃ d ∈ trace, d.before.point = .openExcl ∧ ∃ k, d.output = .opened k

theorem Late.snoc {trace : List Step} (late : Late trace) (e : Step) : Late (trace ++ [e]) := by
  obtain ⟨d, member, failed⟩ := late
  exact ⟨d, List.mem_append_left _ member, failed⟩

theorem Created.snoc {trace : List Step} (created : Created trace) (e : Step) :
    Created (trace ++ [e]) := by
  obtain ⟨d, member, made⟩ := created
  exact ⟨d, List.mem_append_left _ member, made⟩

def one (owner : Option Owner) : Nat := if owner = some .caller then 1 else 0

theorem did_balance {s after : State} {event : Event} (did : Did s after event) (k : Nat) :
    (if event = .opened k then 1 else 0) + one (s.owner k) =
      (if event = .closed k .caller then 1 else 0) + one (after.owner k) := by
  cases did with
  | goto next leads err => simp [State.goto]
  | refused next opens leads => simp
  | created j next here there free absent =>
      by_cases same : k = j
      · subst same
        simp [one, free]
      · simp [Function.update_of_ne same, Ne.symm same]
  | opened j here free =>
      by_cases same : k = j
      · subst same
        simp [one, free]
      · simp [Function.update_of_ne same, Ne.symm same]
  | mapped next there => simp
  | allocated next there => simp
  | closed next there =>
      rcases close_cases s next with ⟨j, owner, number, held, did⟩ | ⟨-, did⟩
      · rw [did]
        by_cases same : k = j
        · subst same
          cases owner <;> simp [one, held]
        · simp [Function.update_of_ne same, Ne.symm same]
      · simp [did, State.goto]
  | unlinked file here made names => simp
  | notUnlinked here nothing => simp [State.goto]
  | unmapped here => simp
  | freed here => simp

theorem did_late {s after : State} {event : Event} (did : Did s after event) (sits : Sits s)
    (err : after.point.err = true) (k : Nat) (number : after.fd = some k) :
    after.owner k = some .caller ∨ s.point = .mallocOld ∨
      s.point.err = true ∧ s.fd = some k ∧ after.owner = s.owner := by
  cases did with
  | goto next leads held =>
      -- every way to the label but one comes from where `fd` is the call's
      rcases held err with holds | failed
      · obtain ⟨j, mine, owned⟩ := sits.holds holds
        cases mine.symm.trans number
        exact Or.inl owned
      · exact Or.inr (Or.inl failed)
  | refused next opens leads => cases number
  | created j next here there free absent =>
      cases number
      exact Or.inl (Function.update_self _ _ _)
  | opened j here free => cases err
  | mapped next there => rcases there with ⟨-, rfl⟩ | ⟨-, rfl⟩ <;> cases err
  | allocated next there => rcases there with ⟨-, rfl⟩ | ⟨-, rfl⟩ <;> cases err
  | closed next there =>
      have point : (s.close next).1.point = next := by
        rcases close_cases s next with ⟨j, owner, -, -, did⟩ | ⟨-, did⟩ <;>
          exact congrArg (·.1.point) did
      rw [point] at err
      rcases there with ⟨-, rfl⟩ | ⟨-, rfl⟩ | ⟨-, rfl⟩ | ⟨-, rfl⟩ <;> cases err
  | unlinked file here made names => exact Or.inr (Or.inr ⟨by rw [here]; rfl, number, rfl⟩)
  | notUnlinked here nothing => exact Or.inr (Or.inr ⟨by rw [here]; rfl, number, rfl⟩)
  | unmapped here => exact Or.inr (Or.inr ⟨by rw [here]; rfl, number, rfl⟩)
  | freed here => exact Or.inr (Or.inr ⟨by rw [here]; rfl, number, rfl⟩)

theorem did_created {s after : State} {event : Event} (did : Did s after event)
    (made : after.created = true) :
    s.created = true ∨ s.point = .openExcl ∧ ∃ k, event = .opened k := by
  cases did with
  | created k next here there free absent => exact Or.inr ⟨here, k, rfl⟩
  | closed next there =>
      rcases close_cases s next with ⟨j, owner, -, -, did⟩ | ⟨-, did⟩ <;> rw [did] at made <;>
        exact Or.inl made
  | goto _ _ _ | refused _ _ _ | opened _ _ _ | mapped _ _ | allocated _ _ | unlinked _ _ _ _
  | notUnlinked _ _ | unmapped _ | freed _ => exact Or.inl made

theorem did_unlinked {s after : State} {file : File} (did : Did s after (.unlinked file)) :
    s.point = .errUnlink ∧ s.created = true ∧ s.name = some file := by
  generalize same : Event.unlinked file = event at did
  cases did with
  | unlinked other here made names =>
      cases same
      exact ⟨here, made, names⟩
  | closed next there =>
      rcases close_cases s next with ⟨j, owner, -, -, did⟩ | ⟨-, did⟩ <;> rw [did] at same <;>
        cases same
  | goto _ _ _ | refused _ _ _ | created _ _ _ _ _ _ | opened _ _ _ | mapped _ _ | allocated _ _
  | notUnlinked _ _ | unmapped _ | freed _ => cases same

theorem did_closed {s after : State} {k : Nat} (did : Did s after (.closed k .others))
    (sits : Sits s) : s.point = .errClose ∧ s.fd = some k ∧ s.owner k = some .others := by
  generalize same : Event.closed k Owner.others = event at did
  cases did with
  | closed next there =>
      rcases close_cases s next with ⟨j, owner, number, held, did⟩ | ⟨-, did⟩
      · rw [did] at same
        cases same
        -- the other three close what the call itself holds
        have theirs : s.point.holds = true → False := by
          intro holds
          obtain ⟨i, mine, owned⟩ := sits.holds holds
          cases mine.symm.trans number
          cases owned.symm.trans held
        rcases there with ⟨here, -⟩ | ⟨here, -⟩ | ⟨here, -⟩ | ⟨here, -⟩
        · exact (theirs (by rw [here]; rfl)).elim
        · exact (theirs (by rw [here]; rfl)).elim
        · exact (theirs (by rw [here]; rfl)).elim
        · exact ⟨here, number, held⟩
      · rw [did] at same
        cases same
  | goto _ _ _ | refused _ _ _ | created _ _ _ _ _ _ | opened _ _ _ | mapped _ _ | allocated _ _
  | unlinked _ _ _ _ | notUnlinked _ _ | unmapped _ | freed _ => cases same

/-- The facts about a trace that its end does not show. -/
structure Kept (trace : List Step) (s : State) : Prop where
  balance : ∀ k, opened trace k = closed trace k + one (s.owner k)
  late : s.point.err = true → ∀ k, s.fd = some k → s.owner k = some .caller ∨ Late trace
  created : s.created = true → Created trace

theorem counted {trace : List Step} {e : Step} (k : Nat)
    (balance : opened trace k = closed trace k + one (e.before.owner k))
    (step : (if e.output = .opened k then 1 else 0) + one (e.before.owner k) =
      (if e.output = .closed k .caller then 1 else 0) + one (e.after.owner k)) :
    opened (trace ++ [e]) k = closed (trace ++ [e]) k + one (e.after.owner k) := by
  simp only [opened, closed, List.countP_append, List.countP_singleton, decide_eq_true_eq]
    at balance ⊢
  omega

theorem did_kept {trace : List Step} {e : Step} (did : Did e.before e.after e.output)
    (sits : Sits e.before) (kept : Kept trace e.before) : Kept (trace ++ [e]) e.after where
  balance k := counted k (kept.balance k) (did_balance did k)
  late := by
    intro err k number
    rcases did_late did sits err k number with owned | failed | ⟨before, same, table⟩
    · exact Or.inl owned
    · exact Or.inr ⟨e, List.mem_append_right _ List.mem_cons_self, failed, err⟩
    · rw [table]
      exact (kept.late before k same).imp_right fun earlier => earlier.snoc e
  created := by
    intro made
    rcases did_created did made with before | ⟨here, opens⟩
    · exact (kept.created before).snoc e
    · exact ⟨e, List.mem_append_right _ List.mem_cons_self, here, opens⟩

theorem beside_kept {trace : List Step} {e : Step} (quiet : e.output = .quiet)
    (beside : Beside e.before e.after) (kept : Kept trace e.before) :
    Kept (trace ++ [e]) e.after := by
  obtain ⟨owner, name, after, same, -⟩ := beside
  refine ⟨fun k => counted k (kept.balance k) ?_, ?_, ?_⟩
  · rw [quiet, after]
    simp [one, same]
  · rw [after]
    exact fun err k number =>
      (kept.late err k number).imp (same k).mpr fun earlier => earlier.snoc e
  · rw [after]
    exact fun made => (kept.created made).snoc e

theorem run_kept {args : Args} {trace : List Step} {s : State} (run : (machine args).Run trace s) :
    Kept trace s := by
  -- each step needs where its first state sits, so both go through one induction
  have both : Sits s ∧ Kept trace s := by
    refine run.history (C := fun _ => True) (I := fun trace s => Sits s ∧ Kept trace s) ?_ ?_
      fun _ _ => trivial
    · intro s begins
      have sits := begins_sits begins
      refine ⟨sits, fun k => ?_, fun err => ?_, fun made => ?_⟩
      · simp [opened, closed, one, begins.owner k]
      · rw [begins.point] at err
        split at err <;> cases err
      · rw [begins.created] at made
        cases made
    · rintro trace e stepped - ⟨sits, kept⟩
      have ran : step args e.before e.action = some (e.after, e.output) := stepped
      refine ⟨step_sits ran sits, ?_⟩
      rcases step_cases ran with ⟨-, did⟩ | ⟨quiet, beside⟩
      · exact did_kept did sits kept
      · exact beside_kept quiet beside kept
  exact both.2

/-! What a call that fails is to have left, and when it has. -/

structure Atomic (trace : List Step) (s : State) : Prop where
  table : ∀ k, s.owner k ≠ some .caller
  once : ∀ k, closed trace k = opened trace k
  own : ∀ e ∈ trace, ∀ k, e.output ≠ .closed k .others
  mappings : s.mappings = 0
  heap : s.heap = 0
  removed : s.name ≠ some .created
  spared : ∀ e ∈ trace, e.output ≠ .unlinked .foreign
  created : ∀ e ∈ trace, ∀ file, e.output = .unlinked file → Created trace

/-- The clean-up comes to its close after malloc has failed behind the early close, and another
thread has been given the number. -/
def Reused (pre : List Step) (e : Step) : Prop :=
  Late pre ∧ e.before.point = .errClose ∧ (∃ result, e.action = .call result) ∧
    ∃ k, e.before.fd = some k ∧ e.before.owner k = some .others

/-- The clean-up comes to its unlink and the name of the file it made is another file's. -/
def Displaced (e : Step) : Prop :=
  e.before.point = .errUnlink ∧ (∃ result, e.action = .call result) ∧
    e.before.created = true ∧ e.before.name = some .foreign

variable {args : Args} {trace pre post : List Step} {e : Step} {s : State}

theorem run_failed (run : (machine args).Run trace s) (failed : s.point = .failed) :
    (∀ k, s.owner k ≠ some .caller) ∧ (∀ k, closed trace k = opened trace k) ∧
      s.mappings = 0 ∧ s.heap = 0 ∧ s.name ≠ some .created := by
  have sits := run_sits run
  have kept := run_kept run
  have table := sits.clear (by rw [failed]; rfl)
  have mappings := sits.mappings
  have heap := sits.heap
  rw [failed] at mappings heap
  refine ⟨table, fun k => ?_, ?_, ?_, ?_⟩
  · have balance := kept.balance k
    rw [one, if_neg (table k)] at balance
    exact balance.symm
  · simpa [Point.pastMunmap] using mappings
  · simpa [Point.pastFree] using heap
  · intro named
    have past := (sits.name named).2
    rw [failed] at past
    cases past

theorem split_did (run : (machine args).Run (pre ++ e :: post) s) (loud : e.output ≠ .quiet) :
    (∃ result, e.action = .call result) ∧ Did e.before e.after e.output := by
  have ran : step args e.before e.action = some (e.after, e.output) := run.split.2
  rcases step_cases ran with did | ⟨quiet, -⟩
  · exact did
  · exact absurd quiet loud

theorem reused_of_closed (run : (machine args).Run (pre ++ e :: post) s) {k : Nat}
    (theirs : e.output = .closed k .others) : Reused pre e := by
  obtain ⟨called, did⟩ := split_did run (by simp [theirs])
  rw [theirs] at did
  obtain ⟨here, number, held⟩ := did_closed did (run_sits run.split.1)
  refine ⟨?_, here, called, k, number, held⟩
  rcases (run_kept run.split.1).late (by rw [here]; rfl) k number with owned | late
  · cases owned.symm.trans held
  · exact late

theorem closed_of_reused (run : (machine args).Run (pre ++ e :: post) s) (reused : Reused pre e) :
    ∃ k, e.output = .closed k .others := by
  obtain ⟨-, here, ⟨result, called⟩, k, number, held⟩ := reused
  have ran : step args e.before e.action = some (e.after, e.output) := run.split.2
  simp only [called, step, callStep, here, State.close, number, held, Option.bind_some,
    Option.some.injEq, Prod.mk.injEq] at ran
  exact ⟨k, ran.2.symm⟩

theorem displaced_iff (run : (machine args).Run (pre ++ e :: post) s) :
    Displaced e ↔ e.output = .unlinked .foreign := by
  constructor
  · rintro ⟨here, ⟨result, called⟩, made, names⟩
    have ran : step args e.before e.action = some (e.after, e.output) := run.split.2
    simp only [called, step, callStep, here, made, names, Option.some.injEq, Prod.mk.injEq] at ran
    exact ran.2.symm
  · intro foreign
    obtain ⟨called, did⟩ := split_did run (by simp [foreign])
    rw [foreign] at did
    obtain ⟨here, made, names⟩ := did_unlinked did
    exact ⟨here, called, made, names⟩

theorem created_of_unlinked (run : (machine args).Run (pre ++ e :: post) s) {file : File}
    (gone : e.output = .unlinked file) : Created (pre ++ e :: post) := by
  obtain ⟨-, did⟩ := split_did run (by simp [gone])
  rw [gone] at did
  obtain ⟨d, member, made⟩ := (run_kept run.split.1).created (did_unlinked did).2.1
  exact ⟨d, List.mem_append_left _ member, made⟩

def fresh (args : Args) : State where
  point := if args.oCreat then .openExcl else .openOld
  created := false
  mptr := false
  mqinfo := false
  fd := none
  owner := fun _ => none
  mappings := 0
  heap := 0
  name := some .foreign

theorem fresh_begins (args : Args) : Begins args (fresh args) :=
  ⟨rfl, rfl, rfl, rfl, by simp [fresh], rfl, rfl, by simp [fresh]⟩

end NetworkProgramming.Mymq.OpenErrors
