import Mathlib.Data.Finset.Basic
import NetworkProgramming.Monitor

/-!
The prethreaded server of unpv13e/server whose main thread accepts and hands the
descriptors over: the main loop of serv08.c with the threads of pthread08.c. The
sections under `clifd_mutex` are sections of a monitor with the one condition
`clifd_cond`; Accept and Close, which run without the mutex, touch only the
descriptor table, and each is a section of its own. A descriptor number comes
back once it is closed.
-/

namespace NetworkProgramming.Serv08

def maxNCli : Nat := 32

/-- What the threads share, the descriptors that Accept has opened, and whether
the process has ended. -/
structure Shared where
  clifd : Nat → Nat
  iget : Nat
  iput : Nat
  opened : Finset Nat
  exited : Bool

/-- Where a thread is outside the mutex, with the descriptor it owns: the main
thread at Accept or past it, another at the top of its loop or in `web_child`. -/
inductive Local where
  | accept
  | put (connfd : Nat)
  | idle
  | webChild (connfd : Nat)
  deriving DecidableEq

inductive Call where
  | accept (connfd : Nat)
  | put
  | get
  | close
  deriving DecidableEq

inductive Output where
  | accepted (connfd : Nat)
  | put (connfd : Nat)
  | errQuit (connfd : Nat)
  | got (connfd : Nat)
  | waits
  | closed (connfd : Nat)
  | errSys (connfd : Nat)
  deriving DecidableEq

abbrev ServSection := Section Shared Local Unit Unit Output

def advance (i : Nat) : Nat := if i + 1 = maxNCli then 0 else i + 1

def accept (connfd : Nat) (sh : Shared) : Option ServSection :=
  if connfd ∈ sh.opened then none
  else some ⟨{ sh with opened := insert connfd sh.opened }, .quiet, .accepted connfd,
    .leave (.put connfd)⟩

def Shared.put (sh : Shared) (connfd : Nat) : Shared :=
  { sh with
    clifd := Function.update sh.clifd sh.iput connfd
    iput := advance sh.iput }

def putSection (connfd : Nat) (sh : Shared) : ServSection :=
  if (sh.put connfd).iput = sh.iget then
    ⟨{ sh.put connfd with exited := true }, .quiet, .errQuit connfd, .leave .accept⟩
  else ⟨sh.put connfd, .signal (), .put connfd, .leave .accept⟩

-- `while (iget == iput) Pthread_cond_wait(..)`, from a test of its condition.
def getLoop (sh : Shared) : ServSection :=
  if sh.iget = sh.iput then ⟨sh, .quiet, .waits, .wait ()⟩
  else ⟨{ sh with iget := advance sh.iget }, .quiet, .got (sh.clifd sh.iget),
    .leave (.webChild (sh.clifd sh.iget))⟩

def close (connfd : Nat) (sh : Shared) : ServSection :=
  if connfd ∈ sh.opened then
    ⟨{ sh with opened := sh.opened.erase connfd }, .quiet, .closed connfd, .leave .idle⟩
  else ⟨{ sh with exited := true }, .quiet, .errSys connfd, .leave .idle⟩

def enter : Local → Call → Shared → Option ServSection
  | .accept, .accept connfd, sh => accept connfd sh
  | .put connfd, .put, sh => some (putSection connfd sh)
  | .idle, .get, sh => some (getLoop sh)
  | .webChild connfd, .close, sh => some (close connfd sh)
  | _, _, _ => none

def monitor : Monitor Shared Local Unit Unit Call Unit Output where
  condOf _ := ()
  enter := enter
  resume _ _ sh := getLoop sh
  cleanup _ _ := none

variable {Worker : Type*} [Fintype Worker] [DecidableEq Worker]

/-- The main thread is `none`. -/
abbrev State (Worker : Type*) := Monitor.State (Option Worker) Shared Local Unit
abbrev Action (Worker : Type*) := Monitor.Action (Option Worker) Call Unit
abbrev Step (Worker : Type*) := Transition (State Worker) (Action Worker) (Option Output)

def step (s : State Worker) (a : Action Worker) : Option (State Worker × Option Output) :=
  if s.shared.exited then none else monitor.step s a

def home : Option Worker → Local
  | none => .accept
  | some _ => .idle

def machine : Machine (State Worker) (Action Worker) (Option Output) where
  start s := s.shared.iget = 0 ∧ s.shared.iput = 0 ∧ s.shared.opened = ∅ ∧
    s.shared.exited = false ∧ ∀ t, s.phase t = .outside (home t)
  step := step

/-! Everything a step can do. -/

def AtLoop (p : Phase Local Unit) : Prop := p = .outside .idle ∨ p = .waiting .awakened ()

inductive Does (s : State Worker) (t : Option Worker) : Option Output → State Worker → Prop where
  | accept {connfd : Nat} (here : s.phase t = .outside .accept)
      (unused : connfd ∉ s.shared.opened) :
      Does s t (some (.accepted connfd))
        ⟨{ s.shared with opened := insert connfd s.shared.opened },
          Function.update s.phase t (.outside (.put connfd))⟩
  | put {connfd : Nat} {target : Option (Option Worker)}
      {phase : Option Worker → Phase Local Unit}
      (here : s.phase t = .outside (.put connfd))
      (room : advance s.shared.iput ≠ s.shared.iget)
      (woken : Monitor.Woken (fun _ => ()) s.phase (.signal ()) target phase) :
      Does s t (some (.put connfd))
        ⟨s.shared.put connfd, Function.update phase t (.outside .accept)⟩
  | errQuit {connfd : Nat} (here : s.phase t = .outside (.put connfd))
      (full : advance s.shared.iput = s.shared.iget) :
      Does s t (some (.errQuit connfd))
        ⟨{ s.shared.put connfd with exited := true },
          Function.update s.phase t (.outside .accept)⟩
  | get (here : AtLoop (s.phase t)) (filled : s.shared.iget ≠ s.shared.iput) :
      Does s t (some (.got (s.shared.clifd s.shared.iget)))
        ⟨{ s.shared with iget := advance s.shared.iget },
          Function.update s.phase t (.outside (.webChild (s.shared.clifd s.shared.iget)))⟩
  | wait (here : AtLoop (s.phase t)) (empty : s.shared.iget = s.shared.iput) :
      Does s t (some .waits) ⟨s.shared, Function.update s.phase t (.waiting .blocked ())⟩
  | close {connfd : Nat} (here : s.phase t = .outside (.webChild connfd))
      (opened : connfd ∈ s.shared.opened) :
      Does s t (some (.closed connfd))
        ⟨{ s.shared with opened := s.shared.opened.erase connfd },
          Function.update s.phase t (.outside .idle)⟩
  | errSys {connfd : Nat} (here : s.phase t = .outside (.webChild connfd))
      (unused : connfd ∉ s.shared.opened) :
      Does s t (some (.errSys connfd))
        ⟨{ s.shared with exited := true }, Function.update s.phase t (.outside .idle)⟩
  | spurious (here : s.phase t = .waiting .blocked ()) :
      Does s t none ⟨s.shared, Function.update s.phase t (.waiting .awakened ())⟩

def thread : Action Worker → Option Worker
  | .enter t _ _ => t
  | .resume t _ _ => t
  | .cleanup t _ => t
  | .spurious t => t
  | .cancel t => t

omit [Fintype Worker] in
theorem loop_does (s : State Worker) (t : Option Worker) (target : Option (Option Worker))
    (phase : Option Worker → Phase Local Unit) (here : AtLoop (s.phase t))
    (woken : Monitor.Woken (fun _ => ()) s.phase (getLoop s.shared).wake target phase) :
    Does s t (some (getLoop s.shared).output)
      ⟨(getLoop s.shared).shared, Function.update phase t (getLoop s.shared).exit.phase⟩ := by
  by_cases empty : s.shared.iget = s.shared.iput
  · have waits : getLoop s.shared = ⟨s.shared, .quiet, .waits, .wait ()⟩ := if_pos empty
    rw [waits] at woken ⊢
    rw [Monitor.woken_quiet woken]
    exact .wait here empty
  · have gets : getLoop s.shared = ⟨{ s.shared with iget := advance s.shared.iget }, .quiet,
        .got (s.shared.clifd s.shared.iget),
        .leave (.webChild (s.shared.clifd s.shared.iget))⟩ := if_neg empty
    rw [gets] at woken ⊢
    rw [Monitor.woken_quiet woken]
    exact .get here empty

omit [Fintype Worker] in
theorem enter_does (s : State Worker) (t : Option Worker) (owned : Local) (call : Call)
    (sec : ServSection) (target : Option (Option Worker))
    (phase : Option Worker → Phase Local Unit) (here : s.phase t = .outside owned)
    (ran : enter owned call s.shared = some sec)
    (woken : Monitor.Woken (fun _ => ()) s.phase sec.wake target phase) :
    Does s t (some sec.output) ⟨sec.shared, Function.update phase t sec.exit.phase⟩ := by
  unfold enter at ran
  split at ran
  · rename_i connfd
    simp only [accept, Option.ite_none_left_eq_some, Option.some.injEq] at ran
    obtain ⟨unused, rfl⟩ := ran
    rw [Monitor.woken_quiet woken]
    exact .accept here unused
  · rename_i connfd
    cases ran
    by_cases full : (s.shared.put connfd).iput = s.shared.iget
    · have quits : putSection connfd s.shared = ⟨{ s.shared.put connfd with exited := true },
          .quiet, .errQuit connfd, .leave .accept⟩ := if_pos full
      rw [quits] at woken ⊢
      rw [Monitor.woken_quiet woken]
      exact .errQuit here full
    · have puts : putSection connfd s.shared = ⟨s.shared.put connfd, .signal (), .put connfd,
          .leave .accept⟩ := if_neg full
      rw [puts] at woken ⊢
      exact .put here full woken
  · cases ran
    exact loop_does s t target phase (Or.inl here) woken
  · rename_i connfd
    cases ran
    by_cases opened : connfd ∈ s.shared.opened
    · have closes : close connfd s.shared = ⟨{ s.shared with
          opened := s.shared.opened.erase connfd }, .quiet, .closed connfd, .leave .idle⟩ :=
        if_pos opened
      rw [closes] at woken ⊢
      rw [Monitor.woken_quiet woken]
      exact .close here opened
    · have fails : close connfd s.shared = ⟨{ s.shared with exited := true }, .quiet,
          .errSys connfd, .leave .idle⟩ := if_neg opened
      rw [fails] at woken ⊢
      rw [Monitor.woken_quiet woken]
      exact .errSys here opened
  · cases ran

theorem step_does (e : Step Worker) (stepped : machine.Stepped e) :
    e.before.shared.exited = false ∧ Does e.before (thread e.action) e.output e.after := by
  obtain ⟨s, a, output, after⟩ := e
  simp only [Machine.Stepped, machine, step] at stepped
  split at stepped
  · cases stepped
  · rename_i alive
    refine ⟨by simpa using alive, ?_⟩
    cases Monitor.step_effect monitor s after a output stepped with
    | enter here ran woken => exact enter_does s _ _ _ _ _ _ here ran woken
    | resume here woken => exact loop_does s _ _ _ (Or.inr here) woken
    | cleanup _ ran _ => simp [monitor] at ran
    | spurious here => exact .spurious here
    | cancel _ handled => simp [monitor] at handled

end NetworkProgramming.Serv08
