import Mathlib.Data.List.Nodup
import Mathlib.Logic.Function.Basic
import NetworkProgramming.Machine

/-!
The ChatServer of chapter_08/listing_8_13.py. A step is what a task does between two awaits: the
handler of a connection once its command is CONNECT, and the listener that it makes. The dictionary
of the writers is its keys, in the order in which they have been put in, and the number of its
changes: a dictionary that has its old keys again need not have them at their old places.
-/

namespace NetworkProgramming.ChatRegistry

structure Registry where
  users : List String
  version : Nat
  deriving DecidableEq

/-- A call of _notify_all. `start` are the keys at the head of its loop and `version` is that of the
dictionary there, `todo` what the loop still has to visit, and `written` whom it has written to. -/
structure Broadcast where
  message : String
  start : List String
  version : Nat
  todo : List String
  inactive : List String
  written : List String
  /-- the user whose drain is awaited; none while a writer that is closed is waited for -/
  current : Option String
  deriving DecidableEq

inductive Flow where
  | raised
  | returned
  | waiting (b : Broadcast)

inductive Drain where
  | ok
  | connectionError
  | otherError
  deriving DecidableEq

/-- What the loop finds in a dictionary that has changed and is of the same size: this is not
determined. -/
inductive Changed where
  | raises
  | stops
  | visits (username : String)
  deriving DecidableEq

inductive Handler where
  | absent
  | greeting
  | notifying (b : Broadcast)
  | done

inductive Listener where
  | absent
  | reading
  | notifying (b : Broadcast)
  | leaving (b : Broadcast)
  | removing
  | ended

/-- What readline gives within the minute. A line that is malformed is too long, or not UTF-8. -/
inductive Read where
  | line (data : String)
  | eof
  | timeout
  | failed
  | malformed
  deriving DecidableEq

structure State where
  registry : Registry
  handlers : String → Handler
  listeners : String → Listener

inductive Action where
  | connect (username : String)
  | greeted (username : String) (drained : Bool)
  | handler (username : String) (drain : Drain) (changed : Changed)
  | read (username : String) (read : Read)
  | listener (username : String) (drain : Drain) (changed : Changed)
  | closed (username : String)

def Registry.add (registry : Registry) (username : String) : Registry :=
  ⟨registry.users ++ [username], registry.version + 1⟩

def Registry.erase (registry : Registry) (username : String) : Registry :=
  ⟨registry.users.erase username, registry.version + 1⟩

def addUser (registry : Registry) (username : String) : Registry :=
  if username ∈ registry.users then registry else registry.add username

/-- None is a KeyError. -/
def removeUser (registry : Registry) (username : String) : Option Registry :=
  if username ∈ registry.users then some (registry.erase username) else none

def removeInactive (registry : Registry) (b : Broadcast) : Registry × Flow :=
  match b.inactive with
  | [] => (registry, .returned)
  | username :: inactive => match removeUser registry username with
      | none => (registry, .raised)
      | some registry => (registry, .waiting { b with inactive := inactive, current := none })

def visit (b : Broadcast) (username : String) (todo : List String) : Broadcast :=
  { b with todo := todo, written := b.written ++ [username], current := some username }

/-- The loop goes on. A dictionary that has changed its size raises a RuntimeError. -/
def advance (registry : Registry) (b : Broadcast) (changed : Changed) : Registry × Flow :=
  if registry.version = b.version then
    match b.todo with
    | [] => removeInactive registry b
    | username :: todo => (registry, .waiting (visit b username todo))
  else if registry.users.length ≠ b.start.length then (registry, .raised)
  else match changed with
    | .raises => (registry, .raised)
    | .stops => removeInactive registry b
    | .visits username => (registry, .waiting (visit b username (b.todo.erase username)))

def Registry.broadcast (registry : Registry) (message : String) : Broadcast :=
  ⟨message, registry.users, registry.version, registry.users, [], [], none⟩

def notifyAll (registry : Registry) (message : String) : Registry × Flow :=
  advance registry (registry.broadcast message) .raises

def resume (registry : Registry) (b : Broadcast) (drain : Drain) (changed : Changed) :
    Registry × Flow :=
  match b.current, drain with
  | none, _ => removeInactive registry b
  | some _, .ok => advance registry b changed
  | some username, .connectionError =>
      advance registry { b with inactive := b.inactive ++ [username] } changed
  | some _, .otherError => (registry, .raised)

namespace State

def setListener (s : State) (registry : Registry) (username : String) (listener : Listener) : State :=
  { s with registry := registry, listeners := Function.update s.listeners username listener }

def setHandler (s : State) (registry : Registry) (username : String) (handler : Handler) : State :=
  { s with registry := registry, handlers := Function.update s.handlers username handler }

/-- except Exception of _listen_for_messages. -/
def caught (s : State) (registry : Registry) (username : String) : State :=
  match removeUser registry username with
  | none => s.setListener registry username .ended
  | some registry => s.setListener registry username .removing

def notified (s : State) (username : String) (result : Registry × Flow) : State :=
  match result.2 with
  | .raised => s.caught result.1 username
  | .returned => s.setListener result.1 username .reading
  | .waiting b => s.setListener result.1 username (.notifying b)

def left_ (s : State) (username : String) (result : Registry × Flow) : State :=
  match result.2 with
  | .raised => s.caught result.1 username
  | .returned => s.setListener result.1 username .ended
  | .waiting b => s.setListener result.1 username (.leaving b)

def announced (s : State) (username : String) (result : Registry × Flow) : State :=
  match result.2 with
  | .raised | .returned => s.setHandler result.1 username .done
  | .waiting b => s.setHandler result.1 username (.notifying b)

end State

/-- The names of the users are distinct: a connection comes with one that has not been there. -/
def step (s : State) : Action → Option State
  | .connect username => match s.handlers username, s.listeners username with
      | .absent, .absent => some {
          registry := addUser s.registry username
          handlers := Function.update s.handlers username .greeting
          listeners := Function.update s.listeners username .reading }
      | _, _ => none
  | .greeted username drained => match s.handlers username with
      | .greeting =>
          if drained then
            some (s.announced username (notifyAll s.registry (username ++ " connected!\n")))
          else some (s.setHandler s.registry username .done)
      | _ => none
  | .handler username drain changed => match s.handlers username with
      | .notifying b => some (s.announced username (resume s.registry b drain changed))
      | _ => none
  | .read username read => match s.listeners username, read with
      | .reading, .line data =>
          some (s.notified username (notifyAll s.registry (username ++ ": " ++ data)))
      | .reading, .eof =>
          some (s.left_ username (notifyAll s.registry (username ++ " has left the chat\n")))
      | .reading, _ => some (s.caught s.registry username)
      | _, _ => none
  | .listener username drain changed => match s.listeners username with
      | .notifying b => some (s.notified username (resume s.registry b drain changed))
      | .leaving b => some (s.left_ username (resume s.registry b drain changed))
      | _ => none
  | .closed username => match s.listeners username with
      | .removing => some (s.setListener s.registry username .ended)
      | _ => none

def machine : Machine State Action Unit where
  start s := s = ⟨⟨[], 0⟩, fun _ => .absent, fun _ => .absent⟩
  step s action := (step s action).map fun after => (after, ())

abbrev Step := Transition State Action Unit

def Listener.runs : Listener → Bool
  | reading | notifying _ | leaving _ => true
  | absent | removing | ended => false

/-- The connection of `username` has timed out, failed, or ended: its read says so, or a write of a
broadcast has. -/
def Own (e : Step) (username : String) : Prop :=
  e.action = .read username .timeout ∨ e.action = .read username .failed ∨
    (∃ b, e.before.listeners username = .leaving b) ∨
    ∃ other b drain changed,
      (e.action = .handler other drain changed ∧ e.before.handlers other = .notifying b ∨
        e.action = .listener other drain changed ∧
          (e.before.listeners other = .notifying b ∨ e.before.listeners other = .leaving b)) ∧
      (username ∈ b.inactive ∨ b.current = some username ∧ drain ≠ .ok)

structure Registered (trace : List Step) (s : State) : Prop where
  keys : ∀ username, username ∈ s.registry.users ↔ (s.listeners username).runs = true
  said : ∀ e ∈ trace, ∀ username data, e.action = .read username (.line data) →
    ∃ b, e.after.listeners username = .notifying b ∧ b.message = username ++ ": " ++ data ∧
      b.start = e.before.registry.users
  carried : ∀ e ∈ trace, ∀ username b b', e.before.listeners username = .notifying b →
    e.after.listeners username = .notifying b' → b'.message = b.message ∧ b'.start = b.start
  written : ∀ e ∈ trace, ∀ username b, e.before.listeners username = .notifying b →
    (∀ b', e.after.listeners username ≠ .notifying b') →
    ∀ other ∈ b.start, other ∈ e.after.registry.users → b.written.count other = 1
  removed : ∀ e ∈ trace, ∀ username, username ∈ e.before.registry.users →
    username ∉ e.after.registry.users → Own e username

def Ends (registry : Registry) (b : Broadcast) (changed : Changed) : Prop :=
  registry.version = b.version ∧ b.todo = [] ∨
    registry.version ≠ b.version ∧ registry.users.length = b.start.length ∧ changed = .stops

/-- No farewell comes to its end, no write to a user fails with a ConnectionError, and while a line
is broadcast the dictionary is not changed and no other exception is raised but in the last write,
to the user who has sent the line. -/
def Smooth (s : State) : Action → Prop
  | .connect _ | .greeted _ _ | .closed _ => True
  | .handler _ drain _ => drain ≠ .connectionError
  | .read _ read => read ≠ .malformed
  | .listener username drain changed => drain ≠ .connectionError ∧
      (∀ b, s.listeners username = .notifying b → drain = .ok ∧ s.registry.version = b.version ∨
        drain = .otherError ∧ b.current = some username ∧ b.todo = []) ∧
      (∀ b, s.listeners username = .leaving b → ¬ (drain = .ok ∧ Ends s.registry b changed))

/-! A broadcast while no write fails. -/

def Lively (b : Broadcast) : Prop := b.inactive = [] ∧ b.current ≠ none

theorem lively_visit {b : Broadcast} (none_ : b.inactive = []) (username : String)
    (todo : List String) : Lively (visit b username todo) :=
  ⟨none_, by simp [visit]⟩

theorem notifyAll_cons {registry : Registry} {username : String} {rest_ : List String}
    (all : registry.users = username :: rest_) (message : String) :
    notifyAll registry message =
      (registry, .waiting (visit (registry.broadcast message) username rest_)) := by
  have todo : (registry.broadcast message).todo = username :: rest_ := all
  have same : registry.version = (registry.broadcast message).version := rfl
  rw [notifyAll, advance, if_pos same, todo]

theorem notifyAll_nil {registry : Registry} (all : registry.users = []) (message : String) :
    notifyAll registry message = (registry, .returned) := by
  have todo : (registry.broadcast message).todo = [] := all
  have same : registry.version = (registry.broadcast message).version := rfl
  rw [notifyAll, advance, if_pos same, todo]
  rfl

theorem removeInactive_lively {b : Broadcast} (lively : b.inactive = []) (registry : Registry) :
    removeInactive registry b = (registry, .returned) := by
  rw [removeInactive, lively]

theorem resume_ok {b : Broadcast} (lively : Lively b) (registry : Registry) (changed : Changed) :
    resume registry b .ok changed = advance registry b changed := by
  obtain ⟨username, drained⟩ := Option.ne_none_iff_exists'.mp lively.2
  simp only [resume, drained]

theorem resume_line {registry : Registry} {b : Broadcast} (lively : Lively b)
    (same : registry.version = b.version) (changed : Changed) :
    b.todo = [] ∧ resume registry b .ok changed = (registry, .returned) ∨
      ∃ username todo, b.todo = username :: todo ∧
        resume registry b .ok changed = (registry, .waiting (visit b username todo)) := by
  rw [resume_ok lively]
  unfold advance
  rw [if_pos same]
  cases left : b.todo with
  | nil => exact Or.inl ⟨rfl, removeInactive_lively lively.1 registry⟩
  | cons username todo => exact Or.inr ⟨username, todo, rfl, rfl⟩

theorem resume_lively (registry : Registry) {b : Broadcast} (lively : Lively b) {drain : Drain}
    (works : drain ≠ .connectionError) (changed : Changed) :
    resume registry b drain changed = (registry, .raised) ∨
      drain = .ok ∧ Ends registry b changed ∧
        resume registry b drain changed = (registry, .returned) ∨
      ∃ username todo,
        resume registry b drain changed = (registry, .waiting (visit b username todo)) := by
  cases drain with
  | connectionError => exact absurd rfl works
  | otherError =>
      obtain ⟨username, drained⟩ := Option.ne_none_iff_exists'.mp lively.2
      exact Or.inl (by simp only [resume, drained])
  | ok =>
      by_cases same : registry.version = b.version
      · rcases resume_line lively same changed with ⟨done, result⟩ | ⟨username, todo, -, result⟩
        · exact Or.inr (Or.inl ⟨rfl, Or.inl ⟨same, done⟩, result⟩)
        · exact Or.inr (Or.inr ⟨username, todo, result⟩)
      · rw [resume_ok lively]
        unfold advance
        rw [if_neg same]
        by_cases size : registry.users.length = b.start.length
        · rw [if_neg (not_not.mpr size)]
          cases changed with
          | raises => exact Or.inl rfl
          | stops =>
              exact Or.inr (Or.inl ⟨rfl, Or.inr ⟨same, size, rfl⟩,
                removeInactive_lively lively.1 registry⟩)
          | visits username => exact Or.inr (Or.inr ⟨username, _, rfl⟩)
        · rw [if_pos size]
          exact Or.inl rfl

/-! The states of the runs whose steps are smooth. -/

structure Sits (s : State) : Prop where
  nodup : s.registry.users.Nodup
  keys : ∀ username, username ∈ s.registry.users ↔ (s.listeners username).runs = true
  lines : ∀ username b, s.listeners username = .notifying b →
    Lively b ∧ b.written ++ b.todo = b.start ∧ b.start.Nodup
  farewells : ∀ username b, s.listeners username = .leaving b → Lively b
  handlers : ∀ username b, s.handlers username = .notifying b → Lively b

inductive Did (s : State) : Action → State → Prop where
  | joined (username : String) (fresh : s.listeners username = .absent) :
      Did s (.connect username) {
        registry := s.registry.add username
        handlers := Function.update s.handlers username .greeting
        listeners := Function.update s.listeners username .reading }
  | handled (action : Action) (username : String) (handler : Handler)
      (silent : ∀ username data, action ≠ .read username (.line data))
      (lively : ∀ b, handler = .notifying b → Lively b) :
      Did s action (s.setHandler s.registry username handler)
  | said (username data first : String) (rest_ : List String) (here : s.listeners username = .reading)
      (all : s.registry.users = first :: rest_) :
      Did s (.read username (.line data)) (s.setListener s.registry username
        (.notifying (visit (s.registry.broadcast (username ++ ": " ++ data)) first rest_)))
  | wrote (username : String) (drain : Drain) (changed : Changed) (b : Broadcast) (other : String)
      (todo : List String) (here : s.listeners username = .notifying b)
      (next : b.todo = other :: todo) :
      Did s (.listener username drain changed) (s.setListener s.registry username
        (.notifying (visit b other todo)))
  | finished (username : String) (drain : Drain) (changed : Changed) (b : Broadcast)
      (here : s.listeners username = .notifying b) (done : b.todo = []) :
      Did s (.listener username drain changed) (s.setListener s.registry username .reading)
  | parting (action : Action) (username : String) (b : Broadcast)
      (silent : ∀ username data, action ≠ .read username (.line data))
      (here : s.listeners username = .reading ∨ ∃ b, s.listeners username = .leaving b)
      (lively : Lively b) : Did s action (s.setListener s.registry username (.leaving b))
  | removed (action : Action) (username : String)
      (silent : ∀ username data, action ≠ .read username (.line data))
      (here : s.listeners username = .reading ∧ (action = .read username .timeout ∨
        action = .read username .failed) ∨ (∃ b, s.listeners username = .leaving b) ∨
        ∃ b changed, s.listeners username = .notifying b ∧ b.current = some username ∧ b.todo = [] ∧
          action = .listener username .otherError changed) :
      Did s action (s.setListener (s.registry.erase username) username .removing)
  | closed (username : String) (here : s.listeners username = .removing) :
      Did s (.closed username) (s.setListener s.registry username .ended)

theorem caught_eq {s : State} {username : String} (there : username ∈ s.registry.users) :
    s.caught s.registry username = s.setListener (s.registry.erase username) username .removing := by
  rw [State.caught, removeUser, if_pos there]

section

variable {s after : State} {username : String}

theorem Sits.there (sits : Sits s) (runs : (s.listeners username).runs = true) :
    username ∈ s.registry.users :=
  (sits.keys username).mpr runs

theorem Sits.somebody (sits : Sits s) (runs : (s.listeners username).runs = true) :
    ∃ first rest_, s.registry.users = first :: rest_ :=
  List.exists_cons_of_ne_nil (List.ne_nil_of_mem (sits.there runs))

theorem connect_did (ran : step s (.connect username) = some after) (sits : Sits s) :
    Did s (.connect username) after := by
  simp only [step] at ran
  split at ran
  · rename_i fresh
    -- a key of the dictionary has a listener, and this name has none
    have absent : username ∉ s.registry.users := fun member => by
      have runs := (sits.keys username).mp member
      rw [fresh] at runs
      cases runs
    rw [addUser, if_neg absent] at ran
    cases ran
    exact .joined username fresh
  · cases ran

theorem greeted_did {drained : Bool} (ran : step s (.greeted username drained) = some after) :
    Did s (.greeted username drained) after := by
  simp only [step] at ran
  split at ran
  · split at ran
    · cases ran
      cases all : s.registry.users with
      | nil =>
          rw [notifyAll_nil all]
          exact .handled _ username .done (by simp) (by simp)
      | cons first rest_ =>
          rw [notifyAll_cons all]
          refine .handled _ username _ (by simp) ?_
          rintro b same
          cases same
          exact lively_visit rfl _ _
    · cases ran
      exact .handled _ username .done (by simp) (by simp)
  · cases ran

theorem handler_did {drain : Drain} {changed : Changed}
    (ran : step s (.handler username drain changed) = some after) (sits : Sits s)
    (works : drain ≠ .connectionError) : Did s (.handler username drain changed) after := by
  simp only [step] at ran
  split at ran
  · rename_i b here
    have lively := sits.handlers username b here
    cases ran
    rcases resume_lively s.registry lively works changed with
      result | ⟨-, -, result⟩ | ⟨other, todo, result⟩
    · rw [result]
      exact .handled _ username .done (by simp) (by simp)
    · rw [result]
      exact .handled _ username .done (by simp) (by simp)
    · rw [result]
      refine .handled _ username _ (by simp) ?_
      rintro b' same
      cases same
      exact lively_visit lively.1 _ _
  · cases ran

theorem read_did {given : Read} (ran : step s (.read username given) = some after) (sits : Sits s)
    (formed : given ≠ .malformed) : Did s (.read username given) after := by
  have runs (here : s.listeners username = .reading) : (s.listeners username).runs = true := by
    rw [here]
    rfl
  simp only [step] at ran
  split at ran
  · rename_i data here
    cases ran
    obtain ⟨first, rest_, all⟩ := sits.somebody (runs here)
    rw [notifyAll_cons all]
    exact .said username data first rest_ here all
  · rename_i here
    cases ran
    obtain ⟨first, rest_, all⟩ := sits.somebody (runs here)
    rw [notifyAll_cons all]
    exact .parting _ username _ (by simp) (Or.inl here) (lively_visit rfl _ _)
  · rename_i given _ _ here other ending
    cases ran
    rw [caught_eq (sits.there (runs here))]
    refine .removed _ username ?_ (Or.inl ⟨here, ?_⟩)
    · rintro name data same
      cases same
      exact other data rfl
    · cases given with
      | line data => exact absurd rfl (other data)
      | eof => exact absurd rfl ending
      | timeout => exact Or.inl rfl
      | failed => exact Or.inr rfl
      | malformed => exact absurd rfl formed
  · cases ran

theorem notifying_did {drain : Drain} (changed : Changed) {b : Broadcast} (sits : Sits s)
    (here : s.listeners username = .notifying b)
    (line : drain = .ok ∧ s.registry.version = b.version ∨
      drain = .otherError ∧ b.current = some username ∧ b.todo = []) :
    Did s (.listener username drain changed)
      (s.notified username (resume s.registry b drain changed)) := by
  rcases line with ⟨rfl, same⟩ | ⟨rfl, last, done⟩
  · rcases resume_line (sits.lines username b here).1 same changed with
      ⟨done, result⟩ | ⟨other, todo, next, result⟩
    · rw [result]
      exact .finished username .ok changed b here done
    · rw [result]
      exact .wrote username .ok changed b other todo here next
  · have raised : resume s.registry b .otherError changed = (s.registry, .raised) := by
      simp only [resume, last]
    have same : s.notified username (s.registry, .raised) = s.caught s.registry username := rfl
    rw [raised, same, caught_eq (sits.there (by rw [here]; rfl))]
    exact .removed _ username (by simp) (Or.inr (Or.inr ⟨b, changed, here, last, done, rfl⟩))

theorem leaving_did {drain : Drain} (changed : Changed) {b : Broadcast} (sits : Sits s)
    (here : s.listeners username = .leaving b) (works : drain ≠ .connectionError)
    (farewell : ¬ (drain = .ok ∧ Ends s.registry b changed)) :
    Did s (.listener username drain changed)
      (s.left_ username (resume s.registry b drain changed)) := by
  have lively := sits.farewells username b here
  rcases resume_lively s.registry lively works changed with
    result | ⟨drained, ends, -⟩ | ⟨other, todo, result⟩
  · have same : s.left_ username (s.registry, .raised) = s.caught s.registry username := rfl
    rw [result, same, caught_eq (sits.there (by rw [here]; rfl))]
    exact .removed _ username (by simp) (Or.inr (Or.inl ⟨b, here⟩))
  · exact absurd ⟨drained, ends⟩ farewell
  · rw [result]
    exact .parting _ username _ (by simp) (Or.inr ⟨b, here⟩) (lively_visit lively.1 _ _)

end

theorem step_did {s after : State} {action : Action} (ran : step s action = some after)
    (sits : Sits s) (smooth : Smooth s action) : Did s action after := by
  cases action with
  | connect username => exact connect_did ran sits
  | greeted username drained => exact greeted_did ran
  | handler username drain changed => exact handler_did ran sits smooth
  | read username given => exact read_did ran sits smooth
  | listener username drain changed =>
      obtain ⟨works, line, farewell⟩ := smooth
      simp only [step] at ran
      split at ran
      · rename_i b here
        cases ran
        exact notifying_did changed sits here (line b here)
      · rename_i b here
        cases ran
        exact leaving_did changed sits here works (farewell b here)
      · cases ran
  | closed username =>
      simp only [step] at ran
      split at ran
      · rename_i here
        cases ran
        exact .closed username here
      · cases ran

theorem setListener_self (s : State) (registry : Registry) (username : String)
    (listener : Listener) :
    (s.setListener registry username listener).listeners username = listener :=
  Function.update_self _ _ _

theorem setListener_other (s : State) (registry : Registry) {username other : String}
    (listener : Listener) (differs : other ≠ username) :
    (s.setListener registry username listener).listeners other = s.listeners other :=
  Function.update_of_ne differs _ _

theorem Sits.listens {s : State} (sits : Sits s) {username : String} {listener : Listener}
    (runs : listener.runs = (s.listeners username).runs)
    (line : ∀ b, listener = .notifying b →
      Lively b ∧ b.written ++ b.todo = b.start ∧ b.start.Nodup)
    (farewell : ∀ b, listener = .leaving b → Lively b) :
    Sits (s.setListener s.registry username listener) := by
  refine ⟨sits.nodup, fun other => ?_, fun other b here => ?_, fun other b here => ?_, sits.handlers⟩
  · by_cases same : other = username
    · rw [same, setListener_self, runs]
      exact sits.keys username
    · rw [setListener_other _ _ _ same]
      exact sits.keys other
  · by_cases same : other = username
    · rw [same, setListener_self] at here
      exact line b here
    · rw [setListener_other _ _ _ same] at here
      exact sits.lines other b here
  · by_cases same : other = username
    · rw [same, setListener_self] at here
      exact farewell b here
    · rw [setListener_other _ _ _ same] at here
      exact sits.farewells other b here

theorem Sits.drops {s : State} (sits : Sits s) (username : String) :
    Sits (s.setListener (s.registry.erase username) username .removing) := by
  refine ⟨sits.nodup.erase username, fun other => ?_, fun other b here => ?_, fun other b here => ?_,
    sits.handlers⟩
  · by_cases same : other = username
    · rw [same, setListener_self]
      exact iff_of_false sits.nodup.not_mem_erase (by simp [Listener.runs])
    · rw [setListener_other _ _ _ same]
      exact (List.mem_erase_of_ne same).trans (sits.keys other)
  · by_cases same : other = username
    · rw [same, setListener_self] at here
      cases here
    · rw [setListener_other _ _ _ same] at here
      exact sits.lines other b here
  · by_cases same : other = username
    · rw [same, setListener_self] at here
      cases here
    · rw [setListener_other _ _ _ same] at here
      exact sits.farewells other b here

theorem Sits.joins {s : State} (sits : Sits s) {username : String}
    (fresh : s.listeners username = .absent) : Sits {
      registry := s.registry.add username
      handlers := Function.update s.handlers username .greeting
      listeners := Function.update s.listeners username .reading } := by
  have absent : username ∉ s.registry.users := fun member => by
    have runs := (sits.keys username).mp member
    rw [fresh] at runs
    cases runs
  refine ⟨?_, fun other => ?_, fun other b here => ?_, fun other b here => ?_, fun other b here => ?_⟩
  · exact List.nodup_append.mpr ⟨sits.nodup, by simp, by
      rintro c member d single rfl
      exact absent (List.mem_singleton.mp single ▸ member)⟩
  · by_cases same : other = username
    · rw [same]
      simp [Registry.add, Listener.runs]
    · simp [Registry.add, same, sits.keys]
  · by_cases same : other = username
    · rw [same] at here
      simp at here
    · simp only [Function.update_of_ne same] at here
      exact sits.lines other b here
  · by_cases same : other = username
    · rw [same] at here
      simp at here
    · simp only [Function.update_of_ne same] at here
      exact sits.farewells other b here
  · by_cases same : other = username
    · rw [same] at here
      simp at here
    · simp only [Function.update_of_ne same] at here
      exact sits.handlers other b here

theorem Sits.handles {s : State} (sits : Sits s) {username : String} {handler : Handler}
    (lively : ∀ b, handler = .notifying b → Lively b) :
    Sits (s.setHandler s.registry username handler) := by
  refine ⟨sits.nodup, sits.keys, sits.lines, sits.farewells, fun other b here => ?_⟩
  by_cases same : other = username
  · simp only [State.setHandler, same, Function.update_self] at here
    exact lively b here
  · simp only [State.setHandler, Function.update_of_ne same] at here
    exact sits.handlers other b here

theorem did_sits {s after : State} {action : Action} (did : Did s action after) (sits : Sits s) :
    Sits after := by
  cases did with
  | joined username fresh => exact sits.joins fresh
  | handled action username handler silent lively => exact sits.handles lively
  | said username data first rest_ here all =>
      refine sits.listens (by rw [here]; rfl) ?_ (by simp)
      rintro b same
      cases same
      exact ⟨lively_visit rfl _ _, all.symm, sits.nodup⟩
  | wrote username drain changed b other todo here next =>
      obtain ⟨lively, split, nodup⟩ := sits.lines username b here
      refine sits.listens (by rw [here]; rfl) ?_ (by simp)
      rintro b' same
      cases same
      have moved : b.written ++ [other] ++ todo = b.start := by
        rw [← split, next, List.append_assoc]
        rfl
      exact ⟨lively_visit lively.1 _ _, moved, nodup⟩
  | finished username drain changed b here done =>
      exact sits.listens (by rw [here]; rfl) (by simp) (by simp)
  | parting action username b silent here lively =>
      refine sits.listens ?_ (by simp) ?_
      · rcases here with here | ⟨before, here⟩ <;> rw [here] <;> rfl
      · rintro b' same
        cases same
        exact lively
  | removed action username silent here => exact sits.drops username
  | closed username here => exact sits.listens (by rw [here]; rfl) (by simp) (by simp)

/-! What a smooth step does to the lines and to the dictionary. -/

theorem did_said {s after : State} {username data : String}
    (did : Did s (.read username (.line data)) after) :
    ∃ b, after.listeners username = .notifying b ∧ b.message = username ++ ": " ++ data ∧
      b.start = s.registry.users := by
  generalize spoken : Action.read username (.line data) = action at did
  cases did with
  | joined _ _ => cases spoken
  | handled _ _ _ silent _ => exact absurd spoken.symm (silent _ _)
  | said name line first rest_ here all =>
      cases spoken
      exact ⟨_, setListener_self _ _ _ _, rfl, rfl⟩
  | wrote _ _ _ _ _ _ _ _ => cases spoken
  | finished _ _ _ _ _ _ => cases spoken
  | parting _ _ _ silent _ _ => exact absurd spoken.symm (silent _ _)
  | removed _ _ silent _ => exact absurd spoken.symm (silent _ _)
  | closed _ _ => cases spoken

theorem did_line {s after : State} {action : Action} (did : Did s action after) {username : String}
    {b : Broadcast} (here : s.listeners username = .notifying b) :
    (∃ b', after.listeners username = .notifying b' ∧ b'.message = b.message ∧ b'.start = b.start) ∨
      (∀ b', after.listeners username ≠ .notifying b') ∧ b.todo = [] := by
  have stays {registry : Registry} {name : String} {listener : Listener}
      (differs : username ≠ name) : ∃ b',
      (s.setListener registry name listener).listeners username = .notifying b' ∧
        b'.message = b.message ∧ b'.start = b.start :=
    ⟨b, (setListener_other _ _ _ differs).trans here, rfl, rfl⟩
  cases did with
  | joined name fresh =>
      have differs : username ≠ name := by
        rintro rfl
        cases fresh.symm.trans here
      exact Or.inl ⟨b, (Function.update_of_ne differs _ _).trans here, rfl, rfl⟩
  | handled _ name handler silent lively => exact Or.inl ⟨b, here, rfl, rfl⟩
  | said name data first rest_ there all =>
      refine Or.inl (stays ?_)
      rintro rfl
      cases there.symm.trans here
  | wrote name drain changed b' other todo there next =>
      by_cases same : username = name
      · subst same
        cases there.symm.trans here
        exact Or.inl ⟨_, setListener_self _ _ _ _, rfl, rfl⟩
      · exact Or.inl (stays same)
  | finished name drain changed b' there done =>
      by_cases same : username = name
      · subst same
        cases there.symm.trans here
        refine Or.inr ⟨fun b' again => ?_, done⟩
        cases (setListener_self _ _ _ _).symm.trans again
      · exact Or.inl (stays same)
  | parting _ name b' silent there lively =>
      refine Or.inl (stays ?_)
      rintro rfl
      rcases there with there | ⟨_, there⟩ <;> cases there.symm.trans here
  | removed _ name silent there =>
      by_cases same : username = name
      · subst same
        rcases there with ⟨there, -⟩ | ⟨_, there⟩ | ⟨b', changed, there, last, done, -⟩
        · cases there.symm.trans here
        · cases there.symm.trans here
        · cases there.symm.trans here
          refine Or.inr ⟨fun b' again => ?_, done⟩
          cases (setListener_self _ _ _ _).symm.trans again
      · exact Or.inl (stays same)
  | closed name there =>
      refine Or.inl (stays ?_)
      rintro rfl
      cases there.symm.trans here

theorem did_removed {e : Step} (did : Did e.before e.action e.after) {username : String}
    (there : username ∈ e.before.registry.users) (gone : username ∉ e.after.registry.users) :
    Own e username := by
  obtain ⟨s, action, output, after⟩ := e
  dsimp only at did there gone
  cases did with
  | joined name fresh => exact absurd (List.mem_append_left _ there) gone
  | removed _ name silent here =>
      have same : username = name := by
        by_contra differs
        exact gone ((List.mem_erase_of_ne differs).mpr there)
      subst same
      rcases here with ⟨-, timeout | failed⟩ | ⟨b, leaving⟩ | ⟨b, changed, here, last, -, written⟩
      · exact Or.inl timeout
      · exact Or.inr (Or.inl failed)
      · exact Or.inr (Or.inr (Or.inl ⟨b, leaving⟩))
      · refine Or.inr (Or.inr (Or.inr ⟨username, b, .otherError, changed, ?_, ?_⟩))
        · exact Or.inr ⟨written, Or.inl here⟩
        · exact Or.inr ⟨last, by simp⟩
  | handled _ _ _ _ _ | said _ _ _ _ _ _ | wrote _ _ _ _ _ _ _ _ | finished _ _ _ _ _ _
  | parting _ _ _ _ _ _ | closed _ _ => exact absurd there gone

variable {trace : List Step} {s : State}

theorem stepped_step {e : Step} (stepped : machine.Stepped e) :
    step e.before e.action = some e.after := by
  have ran : (step e.before e.action).map (fun after => (after, ())) = some (e.after, e.output) :=
    stepped
  obtain ⟨after, ran, same⟩ := Option.map_eq_some_iff.mp ran
  rw [ran, (Prod.mk.inj same).1]

theorem run_sits (run : machine.Run trace s) (met : ∀ e ∈ trace, Smooth e.before e.action) :
    Sits s := by
  refine run.preserves ?_ (fun e stepped smooth sits => ?_) met
  · rintro s rfl
    exact ⟨List.nodup_nil, by simp [Listener.runs], by simp, by simp, by simp⟩
  · exact did_sits (step_did (stepped_step stepped) sits smooth) sits

theorem split_did {pre post : List Step} {e : Step} (run : machine.Run (pre ++ e :: post) s)
    (met : ∀ d ∈ pre ++ e :: post, Smooth d.before d.action) :
    Sits e.before ∧ Did e.before e.action e.after := by
  obtain ⟨earlier, stepped⟩ := run.split
  have sits := run_sits earlier fun d member => met d (List.mem_append_left _ member)
  exact ⟨sits, step_did (stepped_step stepped) sits (met e (by simp))⟩

theorem users_registered (run : machine.Run trace s) (met : ∀ e ∈ trace, Smooth e.before e.action) :
    Registered trace s := by
  have each {e : Step} (member : e ∈ trace) : Sits e.before ∧ Did e.before e.action e.after := by
    obtain ⟨pre, post, rfl⟩ := List.append_of_mem member
    exact split_did run met
  refine ⟨(run_sits run met).keys, ?_, ?_, ?_, ?_⟩
  · intro e member username data action
    have did := (each member).2
    rw [action] at did
    exact did_said did
  · intro e member username b b' before after
    rcases did_line (each member).2 before with ⟨_, still, message, start⟩ | ⟨done, -⟩
    · cases still.symm.trans after
      exact ⟨message, start⟩
    · exact absurd after (done b')
  · intro e member username b before ends other listed _
    obtain ⟨sits, did⟩ := each member
    obtain ⟨-, split, nodup⟩ := sits.lines username b before
    -- the loop has visited everybody: `written` is the dictionary it began with
    rcases did_line did before with ⟨b', still, -⟩ | ⟨-, done⟩
    · exact absurd still (ends b')
    · rw [done, List.append_nil] at split
      rw [split]
      exact List.count_eq_one_of_mem nodup listed
  · intro e member username there gone
    exact did_removed (each member).2 there gone

/-! Two users, ann and bob. -/

theorem nobody : machine.start ⟨⟨[], 0⟩, fun _ => .absent, fun _ => .absent⟩ := rfl

def joining (username : String) : List Action := [.connect username, .greeted username true]

def Calm (s : State) : Action → Bool
  | .handler _ drain _ => drain == .ok
  | .read _ read => read != .malformed
  | .listener username drain _ => drain == .ok && match s.listeners username with
      | .notifying b => s.registry.version == b.version
      | .leaving _ => false
      | _ => true
  | _ => true

theorem calm_smooth {s : State} {action : Action} (calm : Calm s action = true) :
    Smooth s action := by
  cases action with
  | connect username => trivial
  | greeted username drained => trivial
  | closed username => trivial
  | handler username drain changed =>
      have works : drain = .ok := by simpa [Calm] using calm
      rw [works]
      exact fun failed => by cases failed
  | read username read => simpa [Calm, Smooth] using calm
  | listener username drain changed =>
      simp only [Calm, Bool.and_eq_true, beq_iff_eq] at calm
      obtain ⟨rfl, calm⟩ := calm
      refine ⟨by simp, fun b here => ?_, fun b here => ?_⟩
      · rw [here] at calm
        exact Or.inl ⟨rfl, by simpa using calm⟩
      · rw [here] at calm
        cases calm

theorem registered_both : ∃ trace s, machine.Run trace s ∧ Registered trace s ∧
    s.registry.users = ["ann"] := by
  obtain ⟨trace, s, run, checked⟩ := Machine.run_of_check nobody
    (joining "ann" ++ [.handler "ann" .ok .stops] ++ joining "bob" ++
      [.read "ann" (.line "hi\n"), .handler "bob" .ok .stops, .listener "ann" .ok .stops,
        .handler "bob" .ok .stops, .listener "ann" .ok .stops, .read "bob" .timeout])
    (fun r => decide (r.2.registry.users = ["ann"]) && r.1.all fun e => Calm e.before e.action)
    (by decide +kernel)
  simp only [Bool.and_eq_true, decide_eq_true_eq, List.all_eq_true] at checked
  obtain ⟨registry, calm⟩ := checked
  exact ⟨trace, s, run, users_registered run fun e member => calm_smooth (calm e member), registry⟩

/-- ann closes her connection and stays in the dictionary. -/
theorem left_registered : ∃ trace s, machine.Run trace s ∧ ¬ Registered trace s := by
  obtain ⟨trace, s, run, checked⟩ := Machine.run_of_check nobody
    (joining "ann" ++ [.handler "ann" .ok .stops, .read "ann" .eof, .listener "ann" .ok .stops])
    (fun r => decide (r.2.registry.users = ["ann"]) && !(r.2.listeners "ann").runs)
    (by decide +kernel)
  simp only [Bool.and_eq_true, decide_eq_true_eq, Bool.not_eq_true'] at checked
  obtain ⟨registry, ended⟩ := checked
  refine ⟨trace, s, run, fun registered => ?_⟩
  have runs := (registered.keys "ann").mp (by simp [registry])
  rw [ended] at runs
  cases runs

end NetworkProgramming.ChatRegistry
