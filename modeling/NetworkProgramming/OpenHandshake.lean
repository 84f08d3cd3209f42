import NetworkProgramming.Machine
import NetworkProgramming.Mymq

/-!
`mymq_open` and `mysem_open`: who creates the file initializes it, with the
user-execute bit on until it is done; who finds it there waits for the bit to go
off. The file system is one pathname, the inode it names and all inodes there
ever were. Every system call is one step and may also fail for reasons outside
the model. Explicit unlinks and creators that fail remove the name.
-/

namespace NetworkProgramming.OpenHandshake

inductive Stage where
  | checkAttr
  | lseek
  | write
  | mmap
  | malloc
  | storeHeader
  | mutexattrInit
  | mutexInit
  | condattrInit
  | condInit
  | storeCount
  deriving DecidableEq

def Stage.calls : Stage → Bool
  | .checkAttr | .storeHeader | .storeCount => false
  | _ => true

/-- What tells one function from the other. `creates` runs from the exclusive
open to `fchmod`, `opens` from the open at `exists` to the loop that waits for
the bit, `finishes` from there to the return. -/
structure Program (Init : Type*) where
  creates : List Stage
  refuses : Init → Stage → Option Errno
  opens : List Stage
  finishes : List Stage

def mymqOpen : Program (Option Mymq.MymqAttr) where
  creates := [.checkAttr, .lseek, .write, .mmap, .malloc, .storeHeader, .mutexattrInit,
    .mutexInit, .condattrInit, .condInit]
  refuses
    | some attr, .checkAttr =>
        if attr.mqMaxmsg ≤ 0 ∨ attr.mqMsgsize ≤ 0 then some .einval else none
    | _, _ => none
  opens := []
  finishes := [.mmap, .malloc]

/-- `semValueMax` is what `sysconf(_SC_SEM_VALUE_MAX)` returns. -/
def mysemOpen (semValueMax : Int) : Program UInt32 where
  creates := [.write, .mmap, .mutexattrInit, .mutexInit, .condattrInit, .condInit, .storeCount]
  refuses
    | value, .storeCount => if (value.toNat : Int) > semValueMax then some .einval else none
    | _, _ => none
  opens := [.mmap]
  finishes := []

/-- `contents` are the stages whose work is in the file. -/
structure Inode where
  xusr : Bool
  contents : List Stage
  deriving DecidableEq

structure FileSystem where
  dir : Option Nat
  inode : Nat → Inode
  next : Nat

def FileSystem.create (fs : FileSystem) : FileSystem :=
  ⟨some fs.next, Function.update fs.inode fs.next ⟨true, []⟩, fs.next + 1⟩

def FileSystem.set (fs : FileSystem) (ino : Nat) (inode : Inode) : FileSystem :=
  { fs with inode := Function.update fs.inode ino inode }

def FileSystem.store (fs : FileSystem) (ino : Nat) (stage : Stage) : FileSystem :=
  fs.set ino { fs.inode ino with contents := (fs.inode ino).contents ++ [stage] }

/-- `fchmod` to a mode without `S_IXUSR`. -/
def FileSystem.fchmod (fs : FileSystem) (ino : Nat) : FileSystem :=
  fs.set ino { fs.inode ino with xusr := false }

def FileSystem.unlink (fs : FileSystem) : FileSystem := { fs with dir := none }

/-- `open` with `O_CREAT | O_EXCL`. In all three `error` is a failure that the
file system does not explain. -/
def FileSystem.openExcl (fs : FileSystem) : Option Errno → Except Errno (FileSystem × Nat)
  | some errno => .error errno
  | none => match fs.dir with
      | some _ => .error .eexist
      | none => .ok (fs.create, fs.next)

/-- `open` without them, or `stat`: the inode that the pathname names now. -/
def FileSystem.lookup (fs : FileSystem) : Option Errno → Except Errno Nat
  | some errno => .error errno
  | none => match fs.dir with
      | some ino => .ok ino
      | none => .error .enoent

structure Args (Init : Type*) where
  creat : Bool
  excl : Bool
  init : Init

/-- Where a process is, under the labels of the source. From `opening` on it has
the inode open; `created` is set in `creating` and `err` only. -/
inductive Pc (Init : Type*) where
  | idle
  | again (args : Args Init)
  | creating (args : Args Init) (ino : Nat) (rest : List Stage)
  | err (errno : Errno)
  | exists (args : Args Init)
  | opening (args : Args Init) (ino : Nat) (rest : List Stage)
  | checking (args : Args Init) (ino : Nat) (i : Nat)
  | finishing (ino : Nat) (rest : List Stage)

inductive Outcome where
  /-- `fchmod` has turned the bit off, and the creator returns. -/
  | created (ino : Nat)
  /-- Success through `exists`, with this inode mapped. -/
  | found (ino : Nat)
  | failed (errno : Errno)
  | unlinked
  deriving DecidableEq

variable {Init : Type*}

def maxTries : Nat := 10

abbrev Went (Init : Type*) := FileSystem × Pc Init × Option Outcome

def fail (fs : FileSystem) (errno : Errno) : Went Init := (fs, .idle, some (.failed errno))

-- `if (errno == ENOENT && (oflag & O_CREAT)) goto again;`
def missing (args : Args Init) (fs : FileSystem) (errno : Errno) : Went Init :=
  if errno = .enoent ∧ args.creat then (fs, .again args, none) else fail fs errno

def proceed (P : Program Init) (fs : FileSystem) (error : Option Errno) :
    Pc Init → Option (Went Init)
  | .idle => none
  | .again args => some <| match fs.openExcl error with
      | .ok (after, ino) => (after, .creating args ino P.creates, none)
      | .error errno =>
          if errno = .eexist ∧ args.excl = false then (fs, .exists args, none) else fail fs errno
  | .creating args ino (stage :: rest) => match P.refuses args.init stage, error with
      | none, none => some (fs.store ino stage, .creating args ino rest, none)
      | some errno, none => some (fs, .err errno, none)
      | none, some errno => if stage.calls then some (fs, .err errno, none) else none
      | some _, some _ => none
  | .creating _ ino [] => some <| match error with
      | none => (fs.fchmod ino, .idle, some (.created ino))
      | some errno => (fs, .err errno, none)
  -- nobody looks at what `unlink` returns here
  | .err errno => some <| fail (if error.isSome then fs else fs.unlink) errno
  | .exists args => some <| match fs.lookup error with
      | .ok ino => (fs, .opening args ino P.opens, none)
      | .error errno => missing args fs errno
  | .opening args ino (_ :: rest) => some <| match error with
      | none => (fs, .opening args ino rest, none)
      | some errno => fail fs errno
  | .opening args ino [] => some (fs, .checking args ino 0, none)
  | .checking args ino i => some <| match fs.lookup error with
      | .ok named =>
          if (fs.inode named).xusr = false then (fs, .finishing ino P.finishes, none)
          else if i + 1 = maxTries then fail fs .etimedout
          else (fs, .checking args ino (i + 1), none)
      | .error errno => missing args fs errno
  | .finishing ino (_ :: rest) => some <| match error with
      | none => (fs, .finishing ino rest, none)
      | some errno => fail fs errno
  | .finishing ino [] => some (fs, .idle, some (.found ino))

def unlinkFile (fs : FileSystem) (error : Option Errno) : FileSystem × Outcome :=
  match fs.lookup error with
  | .ok _ => (fs.unlink, .unlinked)
  | .error errno => (fs, .failed errno)

inductive Action (Proc Init : Type*) where
  | call (p : Proc) (args : Args Init)
  | proceed (p : Proc) (error : Option Errno)
  | unlink (error : Option Errno)

structure State (Proc Init : Type*) where
  fs : FileSystem
  pc : Proc → Pc Init

variable {Proc : Type*} [DecidableEq Proc]

def step (P : Program Init) (s : State Proc Init) :
    Action Proc Init → Option (State Proc Init × Option Outcome)
  | .call p args => match s.pc p with
      | .idle => some (⟨s.fs, Function.update s.pc p
          (if args.creat then .again args else .exists args)⟩, none)
      | _ => none
  | .proceed p error => (proceed P s.fs error (s.pc p)).map fun went =>
      (⟨went.1, Function.update s.pc p went.2.1⟩, went.2.2)
  | .unlink error =>
      let (fs, outcome) := unlinkFile s.fs error
      some (⟨fs, s.pc⟩, some outcome)

abbrev Step (Proc Init : Type*) :=
  Transition (State Proc Init) (Action Proc Init) (Option Outcome)

/-- Any processes, each calling as often as it likes, from the time when there
is no file. -/
def machine (P : Program Init) :
    Machine (State Proc Init) (Action Proc Init) (Option Outcome) where
  start s := s.fs.dir = none ∧ s.fs.next = 0 ∧ ∀ p, s.pc p = .idle
  step := step P

end NetworkProgramming.OpenHandshake
