import NetworkProgramming.OpenHandshakeInodes

/-!
Runs of the opening handshake. The bit of an inode is off exactly when its
creator is through, so an opener that looks at the inode it has open is never
early. It looks at the pathname, which may name another inode by then.
-/

namespace NetworkProgramming.OpenHandshake

variable {Init : Type*} {Proc : Type*} [DecidableEq Proc]

/-- The creator of the inode has got to its `fchmod` and done it. -/
def Initialised (trace : List (Step Proc Init)) (ino : Nat) : Prop :=
  ∃ d ∈ trace, d.output = some (.created ino)

def Handshake (P : Program Init) (trace : List (Step Proc Init)) : Prop :=
  ∀ pre e post ino, trace = pre ++ e :: post → e.output = some (.found ino) →
    Initialised pre ino ∧ (e.before.fs.inode ino).contents = P.creates

/-- The action is a `stat` that finds the bit off in another inode than the one
the process has open, whose own bit is on. -/
def misled (s : State Proc Init) : Action Proc Init → Bool
  | .proceed p none => match s.pc p, s.fs.dir with
      | .checking _ ino _, some named =>
          !(s.fs.inode named).xusr && (s.fs.inode ino).xusr
      | _, _ => false
  | _ => false

inductive Moved (P : Program Init) (s : State Proc Init) :
    Action Proc Init → State Proc Init → Option Outcome → Prop where
  | acts {action : Action Proc Init} {p : Proc} {error : Option Errno} {went : Went Init}
      (effect : Effect P s.fs error (s.pc p) went)
      (asked : ∀ args ino i, s.pc p = .checking args ino i → action = .proceed p error) :
      Moved P s action ⟨went.1, Function.update s.pc p went.2.1⟩ went.2.2
  | unlinks {action : Action Proc Init} : Moved P s action ⟨s.fs.unlink, s.pc⟩ (some .unlinked)
  | refuses {action : Action Proc Init} (errno : Errno) :
      Moved P s action s (some (.failed errno))

theorem step_moved (P : Program Init) (e : Step Proc Init) (stepped : (machine P).Stepped e) :
    Moved P e.before e.action e.after e.output := by
  obtain ⟨s, action, output, after⟩ := e
  change step P s action = some (after, output) at stepped
  cases action with
  | call p args =>
      simp only [step] at stepped
      split at stepped
      · rename_i here
        cases stepped
        have goes : ∀ next : Pc Init, next = (if args.creat then .again args else .exists args) →
            Effect P s.fs none (s.pc p) (s.fs, next, none) := by
          rintro next rfl
          split <;> exact silent_effect P s.fs none _ _ rfl rfl (by simp)
        refine .acts (goes _ rfl) ?_
        intro args' ino i checking
        rw [here] at checking
        cases checking
      · cases stepped
  | proceed p error =>
      obtain ⟨went, proceeds, same⟩ := Option.map_eq_some_iff.mp stepped
      cases same
      exact .acts (proceed_effect P s.fs error (s.pc p) went proceeds) fun _ _ _ _ => rfl
  | unlink error =>
      simp only [step, unlinkFile] at stepped
      split at stepped <;> cases stepped
      · exact .unlinks
      · exact .refuses _

structure Kept (P : Program Init) (trace : List (Step Proc Init)) (s : State Proc Init) :
    Prop where
  entry : ∀ ino, s.fs.dir = some ino → ino < s.fs.next
  ready : ∀ ino, s.fs.Off ino ↔ Initialised trace ino
  complete : Complete P s.fs
  fits : ∀ p, Fits P s.fs (s.pc p)
  alone : ∀ p q ino, (s.pc p).owns = some ino → (s.pc q).owns = some ino → p = q

def Passed (s : State Proc Init) : Prop :=
  ∀ p ino rest, s.pc p = .finishing ino rest → s.fs.Off ino

omit [DecidableEq Proc] in
theorem initialised_snoc (trace : List (Step Proc Init)) (e : Step Proc Init) (ino : Nat) :
    Initialised (trace ++ [e]) ino ↔ Initialised trace ino ∨ e.output = some (.created ino) := by
  simp only [Initialised, List.mem_append, List.mem_singleton, or_and_right, exists_or,
    exists_eq_left]

theorem start_kept (P : Program Init) (s : State Proc Init) (first : (machine P).start s) :
    Kept P [] s := by
  obtain ⟨gone, none, idle⟩ := first
  have old (ino : Nat) : ¬ ino < s.fs.next := by omega
  constructor
  · intro ino named
    rw [gone] at named
    cases named
  · intro ino
    simp [FileSystem.Off, old, Initialised]
  · intro ino off
    exact absurd off.1 (old ino)
  · intro p
    rw [idle p]
    exact fits_without P s.fs .idle rfl rfl (by simp)
  · intro p q ino owner
    rw [idle p] at owner
    cases owner

theorem acts_alone (P : Program Init) (s : State Proc Init) (error : Option Errno) (p : Proc)
    (went : Went Init) (effect : Effect P s.fs error (s.pc p) went)
    (fits : ∀ p, Fits P s.fs (s.pc p))
    (alone : ∀ p q ino, (s.pc p).owns = some ino → (s.pc q).owns = some ino → p = q)
    (q : Proc) (ino : Nat) (mine : went.2.1.owns = some ino) (yours : (s.pc q).owns = some ino) :
    p = q := by
  rcases effect_owns P s.fs error (s.pc p) went effect ino mine with before | new
  · exact alone p q ino before yours
  · cases here : s.pc q with
    | creating args own rest =>
        rw [here] at yours
        cases yours
        have old := ((fits q).owned args ino rest here).1
        omega
    | _ =>
        rw [here] at yours
        cases yours

theorem acts_fits (P : Program Init) (s : State Proc Init) (error : Option Errno) (p : Proc)
    (went : Went Init) (effect : Effect P s.fs error (s.pc p) went)
    (entry : ∀ ino, s.fs.dir = some ino → ino < s.fs.next) (fits : ∀ p, Fits P s.fs (s.pc p))
    (alone : ∀ p q ino, (s.pc p).owns = some ino → (s.pc q).owns = some ino → p = q) (q : Proc) :
    Fits P went.1 (Function.update s.pc p went.2.1 q) := by
  by_cases same : q = p
  · subst q
    rw [Function.update_self]
    exact effect_fits P s.fs error (s.pc p) went effect entry (fits p)
  · rw [Function.update_of_ne same]
    exact (fits q).grows (effect_grows P s.fs error (s.pc p) went effect)
      fun ino yours mine => same (alone q p ino yours mine)

theorem step_kept (P : Program Init) (trace : List (Step Proc Init)) (e : Step Proc Init)
    (stepped : (machine P).Stepped e) (kept : Kept P trace e.before) :
    Kept P (trace ++ [e]) e.after := by
  obtain ⟨entry, ready, complete, fits, alone⟩ := kept
  have snoc := initialised_snoc trace e
  obtain ⟨s, action, output, after⟩ := e
  have moved : Moved P s action after output := step_moved P ⟨s, action, output, after⟩ stepped
  cases moved with
  | @acts p error went effect asked =>
      constructor
      · exact effect_entry P s.fs error (s.pc p) went effect entry
      · intro ino
        rw [snoc, ← ready]
        exact effect_off P s.fs error (s.pc p) went effect (fits p) ino
      · exact effect_complete P s.fs error (s.pc p) went effect (fits p) complete
      · exact acts_fits P s error p went effect entry fits alone
      -- two owners: neither, one or both of them may be the process that moved
      · intro q r ino mine yours
        have others := acts_alone P s error p went effect fits alone
        by_cases first : q = p
        · by_cases second : r = p
          · rw [first, second]
          · subst q
            simp only [Function.update_self, Function.update_of_ne second] at mine yours
            exact others r ino mine yours
        · by_cases second : r = p
          · subst r
            simp only [Function.update_self, Function.update_of_ne first] at mine yours
            exact (others q ino yours mine).symm
          · simp only [Function.update_of_ne first, Function.update_of_ne second] at mine yours
            exact alone q r ino mine yours
  | unlinks =>
      refine ⟨by simp [FileSystem.unlink], ?_, complete, ?_, alone⟩
      · intro ino
        rw [snoc, ← ready]
        simp [FileSystem.Off, FileSystem.unlink]
      · intro p
        have grows : Grows s.fs s.fs.unlink none := ⟨Nat.le_refl _, fun _ _ _ => rfl⟩
        exact (fits p).grows grows (by simp)
  | refuses errno =>
      refine ⟨entry, ?_, complete, fits, alone⟩
      intro ino
      rw [snoc, ← ready]
      simp

theorem run_kept (P : Program Init) (trace : List (Step Proc Init)) (s : State Proc Init)
    (run : (machine P).Run trace s) : Kept P trace s :=
  run.history (C := fun _ => True) (start_kept P)
    (fun trace e stepped _ => step_kept P trace e stepped) fun _ _ => trivial

theorem step_passed (P : Program Init) (trace : List (Step Proc Init)) (e : Step Proc Init)
    (stepped : (machine P).Stepped e) (kept : Kept P trace e.before)
    (seen : misled e.before e.action = false) (passed : Passed e.before) : Passed e.after := by
  obtain ⟨s, action, output, after⟩ := e
  have moved : Moved P s action after output := step_moved P ⟨s, action, output, after⟩ stepped
  cases moved with
  | @acts p error went effect asked =>
      have still (ino : Nat) (off : s.fs.Off ino) : went.1.Off ino :=
        (effect_off P s.fs error (s.pc p) went effect (kept.fits p) ino).mpr (.inl off)
      have beheld : ∀ args ino i named, s.pc p = .checking args ino i → error = none →
          s.fs.dir = some named → (s.fs.inode named).xusr = false →
          (s.fs.inode ino).xusr = false := by
        rintro args ino i named here rfl names off
        have asks := asked args ino i here
        subst asks
        simpa [misled, here, names, off] using seen
      intro q ino rest here
      by_cases same : q = p
      · subst q
        simp only [Function.update_self] at here
        exact still ino (effect_passed P s.fs error (s.pc p) went effect (kept.fits p) beheld
          (passed p) ino rest here)
      · simp only [Function.update_of_ne same] at here
        exact still ino (passed q ino rest here)
  | unlinks => exact passed
  | refuses errno => exact passed

theorem step_found (P : Program Init) (e : Step Proc Init) (stepped : (machine P).Stepped e)
    (ino : Nat) (found : e.output = some (.found ino)) :
    ∃ p, e.before.pc p = .finishing ino [] := by
  obtain ⟨s, action, output, after⟩ := e
  have moved : Moved P s action after output := step_moved P ⟨s, action, output, after⟩ stepped
  cases moved with
  | @acts p error went effect asked =>
      cases effect with
      | goes next output owns awaits early quiet => exact absurd found (quiet ino).2
      | returns own here =>
          cases found
          exact ⟨p, here⟩
      | _ => cases found
  | unlinks => cases found
  | refuses errno => cases found

theorem run_handshake (P : Program Init) (trace : List (Step Proc Init)) (s : State Proc Init)
    (run : (machine P).Run trace s) (seen : ∀ e ∈ trace, misled e.before e.action = false) :
    Handshake P trace := by
  rintro pre e post ino rfl found
  obtain ⟨before, stepped⟩ := run.split
  have kept := run_kept P pre e.before before
  have passed : Kept P pre e.before ∧ Passed e.before :=
    before.history (C := fun e => misled e.before e.action = false)
      (I := fun trace s => Kept P trace s ∧ Passed s)
      (fun s first => ⟨start_kept P s first, fun p ino rest here => by
        rw [first.2.2 p] at here
        cases here⟩)
      (fun trace e stepped clear held => ⟨step_kept P trace e stepped held.1,
        step_passed P trace e stepped held.1 clear held.2⟩)
      fun d member => seen d (List.mem_append_left _ member)
  obtain ⟨p, here⟩ := step_found P e stepped ino found
  have off := passed.2 p ino [] here
  exact ⟨(kept.ready ino).mp off, kept.complete ino off⟩

theorem finishing_returns (P : Program Init) (p : Proc) (ino : Nat) (rest : List Stage)
    (trace : List (Step Proc Init)) (s : State Proc Init) (run : (machine P).Run trace s)
    (here : s.pc p = .finishing ino rest) :
    ∃ more d, (machine P).Run (trace ++ more) d.before ∧ (machine P).Stepped d ∧
      d.before.fs = s.fs ∧ d.output = some (.found ino) := by
  induction rest generalizing trace s with
  | nil =>
      refine ⟨[], ⟨s, .proceed p none, some (.found ino), ⟨s.fs, Function.update s.pc p .idle⟩⟩,
        by simpa using run, ?_, rfl, rfl⟩
      simp [Machine.Stepped, machine, step, here, proceed]
  | cons stage rest ih =>
      have stepped : (machine P).Stepped ⟨s, .proceed p none, none,
          ⟨s.fs, Function.update s.pc p (.finishing ino rest)⟩⟩ := by
        simp [Machine.Stepped, machine, step, here, proceed]
      obtain ⟨more, d, longer, last, same, found⟩ :=
        ih _ _ (run.next _ stepped) (Function.update_self ..)
      exact ⟨_ :: more, d, by simpa using longer, last, same, found⟩

theorem misled_passes (P : Program Init) (e : Step Proc Init) (stepped : (machine P).Stepped e)
    (astray : misled e.before e.action = true) :
    ∃ p ino, e.after.fs = e.before.fs ∧ e.after.pc p = .finishing ino P.finishes ∧
      (e.before.fs.inode ino).xusr = true := by
  obtain ⟨s, action, output, after⟩ := e
  cases action with
  | call p args => cases astray
  | unlink error => cases astray
  | proceed p error =>
      cases error with
      | some errno => cases astray
      | none =>
          simp only [misled] at astray
          split at astray
          · rename_i args ino i named here names
            simp only [Bool.and_eq_true, Bool.not_eq_true'] at astray
            change step P s (.proceed p none) = some (after, output) at stepped
            simp only [step, here, proceed, FileSystem.lookup, names, astray.1, if_true,
              Option.map_some, Option.some.injEq, Prod.mk.injEq] at stepped
            obtain ⟨rfl, _⟩ := stepped
            exact ⟨p, ino, rfl, Function.update_self .., astray.2⟩
          · cases astray

theorem misled_breaks (P : Program Init) (trace : List (Step Proc Init)) (e : Step Proc Init)
    (run : (machine P).Run trace e.before) (stepped : (machine P).Stepped e)
    (astray : misled e.before e.action = true) :
    ∃ more last, (machine P).Run (trace ++ e :: more) last ∧
      ¬ Handshake P (trace ++ e :: more) := by
  obtain ⟨p, ino, same, here, on⟩ := misled_passes P e stepped astray
  obtain ⟨more, d, longer, last, unchanged, found⟩ :=
    finishing_returns P p ino P.finishes _ _ (run.next e stepped) here
  refine ⟨more ++ [d], d.after, by simpa using longer.next d last, ?_⟩
  intro handshake
  have ready := (handshake (trace ++ [e] ++ more) d [] ino (by simp) found).1
  -- nobody ran in between, so the bit is still on
  have off := ((run_kept P _ _ longer).ready ino).mpr ready
  rw [unchanged, same] at off
  exact Bool.noConfusion (on.symm.trans off.2)

/-! ### How a `stat` comes to be misled -/

def Strands (e : Step Proc Init) : Prop :=
  ∃ q ino, (e.before.pc q).awaits = some ino ∧ e.before.fs.dir = some ino ∧
    (e.before.fs.inode ino).xusr = true ∧ e.after.fs.dir = none

def Beheld (s : State Proc Init) : Prop :=
  ∀ q ino, (s.pc q).awaits = some ino → s.fs.dir = some ino ∨ s.fs.Off ino

theorem effect_awaits (P : Program Init) (fs : FileSystem) (error : Option Errno) (pc : Pc Init)
    (went : Went Init) (effect : Effect P fs error pc went) (ino : Nat)
    (waits : went.2.1.awaits = some ino) :
    pc.awaits = some ino ∨ went.1 = fs ∧ fs.dir = some ino := by
  cases effect with
  | goes next output owns awaits early quiet => cases awaits.symm.trans waits
  | opens args own named =>
      cases waits
      exact .inr ⟨rfl, named⟩
  | waits next own here still =>
      cases still.symm.trans waits
      exact .inl here
  | _ => cases waits

theorem effect_named (P : Program Init) (fs : FileSystem) (error : Option Errno) (pc : Pc Init)
    (went : Went Init) (effect : Effect P fs error pc went) (ino : Nat)
    (named : fs.dir = some ino) : went.1.dir = some ino ∨ went.1.dir = none := by
  cases effect with
  | unlinks errno => exact .inr rfl
  | creates args gone => cases gone.symm.trans named
  | _ => exact .inl named

theorem step_beheld (P : Program Init) (trace : List (Step Proc Init)) (e : Step Proc Init)
    (stepped : (machine P).Stepped e) (kept : Kept P trace e.before) (holds : ¬ Strands e)
    (beheld : Beheld e.before) : Beheld e.after := by
  obtain ⟨s, action, output, after⟩ := e
  have moved : Moved P s action after output := step_moved P ⟨s, action, output, after⟩ stepped
  -- a waiting process keeps its inode named, or the bit was off when the name went
  have loses (fs : FileSystem) (pc : Proc → Pc Init) (same : after = ⟨fs, pc⟩) (q : Proc)
      (ino : Nat) (waits : (s.pc q).awaits = some ino) (old : ino < s.fs.next)
      (gone : s.fs.dir = some ino → fs.dir = some ino ∨ fs.dir = none)
      (still : s.fs.Off ino → fs.Off ino) : fs.dir = some ino ∨ fs.Off ino := by
    subst same
    rcases beheld q ino waits with named | off
    · rcases gone named with keeps | lost
      · exact .inl keeps
      · cases bit : (s.fs.inode ino).xusr with
        | true => exact absurd ⟨q, ino, waits, named, bit, lost⟩ holds
        | false => exact .inr (still ⟨old, bit⟩)
    · exact .inr (still off)
  cases moved with
  | @acts p error went effect asked =>
      have still (ino : Nat) (off : s.fs.Off ino) : went.1.Off ino :=
        (effect_off P s.fs error (s.pc p) went effect (kept.fits p) ino).mpr (.inl off)
      have named (ino : Nat) := effect_named P s.fs error (s.pc p) went effect ino
      intro q ino waits
      by_cases mine : q = p
      · subst q
        simp only [Function.update_self] at waits
        rcases effect_awaits P s.fs error (s.pc p) went effect ino waits with before | ⟨fs, found⟩
        · exact loses _ _ rfl p ino before ((kept.fits p).awaited ino before) (named ino)
            (still ino)
        · exact .inl (by simpa only [fs] using found)
      · simp only [Function.update_of_ne mine] at waits
        exact loses _ _ rfl q ino waits ((kept.fits q).awaited ino waits) (named ino) (still ino)
  | unlinks =>
      intro q ino waits
      exact loses _ _ rfl q ino waits ((kept.fits q).awaited ino waits) (fun _ => .inr rfl) id
  | refuses errno => exact beheld

omit [DecidableEq Proc] in
theorem beheld_not_misled (s : State Proc Init) (beheld : Beheld s) (action : Action Proc Init) :
    misled s action = false := by
  by_contra astray
  rw [Bool.not_eq_false] at astray
  cases action with
  | call p args => cases astray
  | unlink error => cases astray
  | proceed p error =>
      cases error with
      | some errno => cases astray
      | none =>
          simp only [misled] at astray
          split at astray
          · rename_i args ino i named here names
            simp only [Bool.and_eq_true, Bool.not_eq_true'] at astray
            rcases beheld p ino (by rw [here]; rfl) with same | off
            · cases names.symm.trans same
              cases astray.1.symm.trans astray.2
            · cases off.2.symm.trans astray.2
          · cases astray

theorem handshake_unless_stranded (P : Program Init) (trace : List (Step Proc Init))
    (s : State Proc Init) (run : (machine P).Run trace s) (holds : ∀ e ∈ trace, ¬ Strands e) :
    Handshake P trace := by
  apply run_handshake P trace s run
  intro e member
  obtain ⟨pre, post, rfl⟩ := List.append_of_mem member
  have beheld : Kept P pre e.before ∧ Beheld e.before :=
    run.split.1.history (C := fun e => ¬ Strands e)
      (I := fun trace s => Kept P trace s ∧ Beheld s)
      (fun s first => ⟨start_kept P s first, fun p ino waits => by
        rw [first.2.2 p] at waits
        cases waits⟩)
      (fun trace e stepped safe held => ⟨step_kept P trace e stepped held.1,
        step_beheld P trace e stepped held.1 safe held.2⟩)
      fun d earlier => holds d (List.mem_append_left _ earlier)
  exact beheld_not_misled e.before beheld.2 e.action

/-- The handshake of an opening function holds in the runs in which no `stat` is
misled, and a run with a misled `stat` breaks it or can go on to break it. None
is misled where nobody unlinks under the eyes of a waiting process. -/
structure GuardedByStat (Proc : Type*) [DecidableEq Proc] (P : Program Init) : Prop where
  kept : ∀ (trace : List (Step Proc Init)) (s : State Proc Init), (machine P).Run trace s →
    (∀ e ∈ trace, misled e.before e.action = false) → Handshake P trace
  unstranded : ∀ (trace : List (Step Proc Init)) (s : State Proc Init),
    (machine P).Run trace s → (∀ e ∈ trace, ¬ Strands e) → Handshake P trace
  broken : ∀ (trace : List (Step Proc Init)) (e : Step Proc Init),
    (machine P).Run trace e.before → (machine P).Stepped e →
    misled e.before e.action = true →
    ∃ more last, (machine P).Run (trace ++ e :: more) last ∧ ¬ Handshake P (trace ++ e :: more)

theorem open_handshake_guarded (semValueMax : Int) :
    GuardedByStat Proc mymqOpen ∧ GuardedByStat Proc (mysemOpen semValueMax) :=
  ⟨⟨run_handshake _, handshake_unless_stranded _, misled_breaks _⟩,
    ⟨run_handshake _, handshake_unless_stranded _, misled_breaks _⟩⟩

/-! Process 2 opens the inode of process 0 and waits. In the first run process 0
comes to its end; in the others it fails and unlinks, and process 1 creates the
file anew. -/

def noFile (Proc Init : Type*) : State Proc Init :=
  ⟨⟨none, fun _ => ⟨true, []⟩, 0⟩, fun _ => .idle⟩

def proceeds (p : Proc) (times : Nat) : List (Action Proc Init) :=
  List.replicate times (.proceed p none)

/-- `p` creates the file, `q` opens it and comes to the loop, with `stages` to do
on the way. -/
def waitsFor (p q : Proc) (args : Args Init) (stages : Nat) : List (Action Proc Init) :=
  [.call p args, .proceed p none, .call q args] ++ proceeds q (3 + stages)

/-- `p` has no space to write and unlinks, `q` creates the file. -/
def createsAnew (p q : Proc) (args : Args Init) (stages : Nat) : List (Action Proc Init) :=
  [.proceed p (some (.other 28)), .proceed p none, .call q args] ++ proceeds q (2 + stages)

def defaultQueue : Args (Option Mymq.MymqAttr) := ⟨true, false, none⟩

def unitSemaphore : Args UInt32 := ⟨true, false, 1⟩

theorem waiting_opener_finds :
    ∃ (trace : List (Step (Fin 3) (Option Mymq.MymqAttr)))
      (last : State (Fin 3) (Option Mymq.MymqAttr)),
      (machine mymqOpen).Run trace last ∧
      trace.filterMap Transition.output = [.created 0, .found 0] ∧ Handshake mymqOpen trace := by
  obtain ⟨trace, last, run, checked⟩ := Machine.run_of_check
    (M := machine mymqOpen) (s := noFile (Fin 3) _) ⟨rfl, rfl, fun _ => rfl⟩
    (waitsFor 0 2 defaultQueue 0 ++ proceeds 0 11 ++ proceeds 2 4)
    (fun r => decide (r.1.filterMap Transition.output = [.created 0, .found 0] ∧
      ∀ e ∈ r.1, misled e.before e.action = false)) (by decide +kernel)
  obtain ⟨outputs, seen⟩ := of_decide_eq_true checked
  exact ⟨trace, last, run, outputs, (open_handshake_guarded 1).1.kept trace last run seen⟩

omit [DecidableEq Proc] in
theorem found_uncreated_breaks (P : Program Init) (trace : List (Step Proc Init)) (ino : Nat)
    (found : .found ino ∈ trace.filterMap Transition.output)
    (never : .created ino ∉ trace.filterMap Transition.output) : ¬ Handshake P trace := by
  intro handshake
  obtain ⟨e, member, output⟩ := List.mem_filterMap.mp found
  obtain ⟨pre, post, rfl⟩ := List.append_of_mem member
  obtain ⟨d, earlier, created⟩ := (handshake pre e post ino rfl output).1
  exact never (List.mem_filterMap.mpr ⟨d, List.mem_append_left _ earlier, created⟩)

theorem unlinked_inode_found :
    (∃ (trace : List (Step (Fin 3) (Option Mymq.MymqAttr)))
      (last : State (Fin 3) (Option Mymq.MymqAttr)),
      (machine mymqOpen).Run trace last ∧ ¬ Handshake mymqOpen trace) ∧
    ∃ (trace : List (Step (Fin 3) UInt32)) (last : State (Fin 3) UInt32),
      (machine (mysemOpen 2147483647)).Run trace last ∧
      ¬ Handshake (mysemOpen 2147483647) trace := by
  constructor
  · obtain ⟨trace, last, run, checked⟩ := Machine.run_of_check
      (M := machine mymqOpen) (s := noFile (Fin 3) _) ⟨rfl, rfl, fun _ => rfl⟩
      (waitsFor 0 2 defaultQueue 0 ++ proceeds 0 2 ++ createsAnew 0 1 defaultQueue 10 ++
        proceeds 2 4)
      (fun r => decide (r.1.filterMap Transition.output =
        [.failed (.other 28), .created 1, .found 0])) (by decide +kernel)
    have outputs := of_decide_eq_true checked
    exact ⟨trace, last, run, found_uncreated_breaks _ trace 0 (by simp [outputs])
      (by simp [outputs])⟩
  · obtain ⟨trace, last, run, checked⟩ := Machine.run_of_check
      (M := machine (mysemOpen 2147483647)) (s := noFile (Fin 3) _) ⟨rfl, rfl, fun _ => rfl⟩
      (waitsFor 0 2 unitSemaphore 1 ++ createsAnew 0 1 unitSemaphore 7 ++ proceeds 2 2)
      (fun r => decide (r.1.filterMap Transition.output =
        [.failed (.other 28), .created 1, .found 0])) (by decide +kernel)
    have outputs := of_decide_eq_true checked
    exact ⟨trace, last, run, found_uncreated_breaks _ trace 0 (by simp [outputs])
      (by simp [outputs])⟩

end NetworkProgramming.OpenHandshake
