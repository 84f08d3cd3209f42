import Mathlib.Algebra.Order.Ring.Int
import Mathlib.Tactic.Common
import NetworkProgramming.Custody
import NetworkProgramming.DoublyLinked
import NetworkProgramming.Machine

/-!
smb.c: buffers in memory that processes share. The first int of a free buffer is
the index of the next one, and the list starts in one int more behind the last
buffer; of a buffer in use that int belongs to the data. Each access to the
shared memory is a step of its own.
-/

namespace NetworkProgramming.Smb

open DoublyLinked

variable {Proc Sock : Type*} [DecidableEq Proc] [DecidableEq Sock]

inductive Place where
  | user
  | alloc
  | test
  | next (bp : Int)
  | store (bp next : Int)
  | unlock (bp : Int)
  | free (b : Int)
  | link (b : Int)
  | head (b : Int)
  | freed
  | exited
  deriving DecidableEq

/-- What a process has that has locked the semaphore. -/
def Place.locked : Place → Bool
  | .test | .next _ | .store _ _ | .unlock _ | .link _ | .head _ | .freed => true
  | .user | .alloc | .free _ | .exited => false

def Place.buffer : Place → List Int
  | .unlock b | .free b | .link b | .head b => [b]
  | .user | .alloc | .test | .next _ | .store _ _ | .freed | .exited => []

/-- The ints of smbarray, the semaphore, and the indices on their way. `held` lists for each
process the buffers that smballoc and smbrecv have returned to it and that it has not freed
or sent since. -/
structure State (Proc Sock : Type*) where
  nexti : Int → Int
  mutex : Nat
  place : Proc → Place
  held : Proc → List Int
  channel : Sock → List Int

inductive Action (Proc Sock : Type*) where
  | smballoc (p : Proc)
  | smbfree (p : Proc) (b : Int)
  | smbsend (p : Proc) (s : Sock) (b : Int) (sent : Bool)
  | smbrecv (p : Proc) (s : Sock) (read : Bool)
  | write (p : Proc) (b n : Int)
  | lock (p : Proc) (ok : Bool)
  | run (p : Proc)
  | unlock (p : Proc) (ok : Bool)

inductive Answer where
  | outOfBuffers
  | silent
  deriving DecidableEq

namespace State

def at_ (s : State Proc Sock) (p : Proc) (place : Place) : State Proc Sock :=
  { s with place := Function.update s.place p place }

def hold (s : State Proc Sock) (p : Proc) (buffers : List Int) : State Proc Sock :=
  { s with held := Function.update s.held p buffers }

def put (s : State Proc Sock) (i n : Int) : State Proc Sock :=
  { s with nexti := Function.update s.nexti i n }

def hands (s : State Proc Sock) (p : Proc) : List Int := (s.place p).buffer ++ s.held p

/-- With SEM_UNDO the lock of a process that exits is given back. -/
def exit (s : State Proc Sock) (p : Proc) : State Proc Sock :=
  { (s.at_ p .exited).hold p (s.hands p) with
    mutex := if (s.place p).locked then s.mutex + 1 else s.mutex }

end State

/-- FREE_LIST is the int behind the buffers. -/
def FREE_LIST (NSMB : Nat) : Int := NSMB

def run (NSMB : Nat) (s : State Proc Sock) (p : Proc) : Option (State Proc Sock × Answer) :=
  match s.place p with
  | .test =>
      if s.nexti (FREE_LIST NSMB) < 0 then some (s.exit p, .outOfBuffers)
      else some (s.at_ p (.next (s.nexti (FREE_LIST NSMB))), .silent)
  | .next bp => some (s.at_ p (.store bp (s.nexti bp)), .silent)
  | .store bp next => some ((s.put (FREE_LIST NSMB) next).at_ p (.unlock bp), .silent)
  | .link b => some ((s.put b (s.nexti (FREE_LIST NSMB))).at_ p (.head b), .silent)
  | .head b => some ((s.put (FREE_LIST NSMB) b).at_ p .freed, .silent)
  | .user | .alloc | .unlock _ | .free _ | .freed | .exited => none

/-- A process frees, sends and writes only what it holds. -/
def step (NSMB : Nat) (s : State Proc Sock) : Action Proc Sock → Option (State Proc Sock × Answer)
  | .smballoc p => if s.place p = .user then some (s.at_ p .alloc, .silent) else none
  | .smbfree p b =>
      if s.place p = .user ∧ b ∈ s.held p then
        some ((s.at_ p (.free b)).hold p ((s.held p).erase b), .silent)
      else none
  | .smbsend p k b sent =>
      if s.place p = .user ∧ b ∈ s.held p then
        if sent then
          some ({ s.hold p ((s.held p).erase b) with
            channel := Function.update s.channel k (s.channel k ++ [b]) }, .silent)
        else some (s.exit p, .silent)
      else none
  | .smbrecv p k read =>
      if s.place p = .user then
        if read then
          match s.channel k with
          | [] => none
          | index :: rest =>
              some ({ s.hold p (index :: s.held p) with
                channel := Function.update s.channel k rest }, .silent)
        else some (s.exit p, .silent)
      else none
  | .write p b n =>
      if s.place p = .user ∧ b ∈ s.held p then some (s.put b n, .silent) else none
  | .lock p ok =>
      match s.place p with
      | .alloc =>
          if !ok then some (s.exit p, .silent)
          else if s.mutex = 0 then none
          else some ({ s.at_ p .test with mutex := s.mutex - 1 }, .silent)
      | .free b =>
          if !ok then some (s.exit p, .silent)
          else if s.mutex = 0 then none
          else some ({ s.at_ p (.link b) with mutex := s.mutex - 1 }, .silent)
      | _ => none
  | .run p => run NSMB s p
  | .unlock p ok =>
      match s.place p with
      | .unlock bp =>
          if !ok then some (s.exit p, .silent)
          else some ({ (s.at_ p .user).hold p (bp :: s.held p) with mutex := s.mutex + 1 }, .silent)
      | .freed =>
          if !ok then some (s.exit p, .silent)
          else some ({ s.at_ p .user with mutex := s.mutex + 1 }, .silent)
      | _ => none

def initFreelist (NSMB : Nat) (nexti : Int → Int) : Int → Int :=
  let linked := (List.range (NSMB - 1)).foldl
    (fun (f : Int → Int) (i : Nat) => Function.update f i (i + 1)) nexti
  Function.update (Function.update linked (NSMB - 1 : Nat) (-1)) (FREE_LIST NSMB) 0

abbrev Step (Proc Sock : Type*) := Transition (State Proc Sock) (Action Proc Sock) Answer

def machine (Proc Sock : Type*) [DecidableEq Proc] [DecidableEq Sock] (NSMB : Nat) :
    Machine (State Proc Sock) (Action Proc Sock) Answer where
  start s := (∃ memory, s.nexti = initFreelist NSMB memory) ∧ s.mutex = 1 ∧
    (∀ p, s.place p = .user ∧ s.held p = []) ∧ ∀ k, s.channel k = []
  step := step NSMB

/-! Who has the buffers. -/

inductive Custodian (Proc Sock : Type*) where
  | free
  | process (p : Proc)
  | message (k : Sock)

def content (s : State Proc Sock) (cells : List Int) : Custodian Proc Sock → List Int
  | .free => cells
  | .process p => s.hands p
  | .message k => s.channel k

def Inside (NSMB : Nat) (i : Int) : Prop := 0 ≤ i ∧ i < NSMB

/-- From FREE_LIST the indices lead through the free buffers to -1. -/
def Chain (NSMB : Nat) (nexti : Int → Int) (cells : List Int) : Prop :=
  Walk (fun i => some (nexti i)) (some (nexti (FREE_LIST NSMB))) cells (some (-1))

def Exclusive (s : State Proc Sock) : Prop :=
  (s.mutex = 1 ∧ ∀ p, (s.place p).locked = false) ∨
    (s.mutex = 0 ∧ ∃ p, (s.place p).locked = true ∧ ∀ q, (s.place q).locked = true → q = p)

/-- What a process that has the lock has read or written. -/
def Local (NSMB : Nat) (nexti : Int → Int) : Place → Prop
  | .next bp => nexti (FREE_LIST NSMB) = bp ∧ 0 ≤ bp
  | .store bp next => nexti (FREE_LIST NSMB) = bp ∧ 0 ≤ bp ∧ nexti bp = next
  | .head b => nexti b = nexti (FREE_LIST NSMB)
  | _ => True

structure Kept (NSMB : Nat) (s : State Proc Sock) (cells : List Int) : Prop where
  custody : Custody (Inside NSMB) (content s cells)
  chain : Chain NSMB s.nexti cells
  exclusive : Exclusive s
  known : ∀ p, Local NSMB s.nexti (s.place p)

omit [DecidableEq Proc] [DecidableEq Sock] in
theorem Kept.inside {NSMB : Nat} {s : State Proc Sock} {cells : List Int} (kept : Kept NSMB s cells)
    (c : Custodian Proc Sock) (i : Int) (member : i ∈ content s cells c) : Inside NSMB i :=
  (kept.custody.covers i).mpr ⟨c, member⟩

theorem inside_ne (NSMB : Nat) (i : Int) (inside : Inside NSMB i) : i ≠ FREE_LIST NSMB :=
  inside.2.ne

theorem chain_cons (NSMB : Nat) (nexti : Int → Int) (cells : List Int)
    (chain : Chain NSMB nexti cells) (some_ : 0 ≤ nexti (FREE_LIST NSMB)) :
    ∃ rest, cells = nexti (FREE_LIST NSMB) :: rest ∧
      Walk (fun i => some (nexti i)) (some (nexti (nexti (FREE_LIST NSMB)))) rest (some (-1)) := by
  cases cells with
  | nil =>
      have last := Option.some.inj (show some (nexti (FREE_LIST NSMB)) = some (-1) from chain)
      omega
  | cons x rest =>
      obtain ⟨first, walk⟩ := chain
      obtain rfl := Option.some.inj first
      exact ⟨rest, rfl, walk⟩

theorem chain_nil (NSMB : Nat) (nexti : Int → Int) (cells : List Int)
    (chain : Chain NSMB nexti cells) (inside : ∀ i ∈ cells, Inside NSMB i)
    (none_ : nexti (FREE_LIST NSMB) < 0) : cells = [] := by
  cases cells with
  | nil => rfl
  | cons x rest =>
      obtain rfl := Option.some.inj chain.1
      have least := (inside _ List.mem_cons_self).1
      omega

theorem chain_put (NSMB : Nat) (nexti : Int → Int) (cells : List Int) (i n : Int)
    (chain : Chain NSMB nexti cells) (out : i ∉ cells) (other : i ≠ FREE_LIST NSMB) :
    Chain NSMB (Function.update nexti i n) cells := by
  rw [Chain, Function.update_of_ne other.symm]
  refine walk_frame cells (fun y member => ?_) chain
  rw [Function.update_of_ne (ne_of_mem_of_not_mem member out)]

structure Moved (s t : State Proc Sock) (p : Proc) (place : Place) (held : List Int) : Prop where
  place : t.place = Function.update s.place p place
  held : t.held = Function.update s.held p held

section
variable {s t : State Proc Sock} {p : Proc} {place : Place} {held : List Int}

omit [DecidableEq Sock] in
theorem Moved.own (moved : Moved s t p place held) : t.hands p = place.buffer ++ held := by
  rw [State.hands, moved.place, moved.held, Function.update_self, Function.update_self]

omit [DecidableEq Sock] in
theorem Moved.other (moved : Moved s t p place held) (q : Proc) (other : q ≠ p) :
    t.hands q = s.hands q ∧ t.place q = s.place q := by
  rw [State.hands, moved.place, moved.held, Function.update_of_ne other,
    Function.update_of_ne other]
  exact ⟨rfl, rfl⟩

omit [DecidableEq Sock] in
theorem Moved.stay (moved : Moved s t p place held) (exclusive : Exclusive s)
    (locked : place.locked = (s.place p).locked) (mutex : t.mutex = s.mutex) : Exclusive t := by
  have same (q : Proc) : (t.place q).locked = (s.place q).locked := by
    by_cases own : q = p
    · rw [own, moved.place, Function.update_self, locked]
    · rw [(moved.other q own).2]
  simp only [Exclusive, mutex, same]
  exact exclusive

omit [DecidableEq Sock] in
theorem Moved.take (moved : Moved s t p place held) (exclusive : Exclusive s)
    (locked : place.locked = true) (free : s.mutex ≠ 0) (mutex : t.mutex = s.mutex - 1) :
    Exclusive t := by
  rcases exclusive with ⟨one, others⟩ | ⟨zero, -⟩
  · refine Or.inr ⟨by omega, p, by rwa [moved.place, Function.update_self], fun q here => ?_⟩
    by_contra other
    rw [(moved.other q other).2, others q] at here
    cases here
  · exact absurd zero free

omit [DecidableEq Sock] in
theorem Moved.give (moved : Moved s t p place held) (exclusive : Exclusive s)
    (had : (s.place p).locked = true) (locked : place.locked = false)
    (mutex : t.mutex = s.mutex + 1) : Exclusive t := by
  rcases exclusive with ⟨-, others⟩ | ⟨zero, q, -, only⟩
  · rw [others p] at had
    cases had
  · refine Or.inl ⟨by omega, fun r => ?_⟩
    by_cases own : r = p
    · rw [own, moved.place, Function.update_self, locked]
    · rw [(moved.other r own).2]
      by_contra here
      have first := only r (by simpa using here)
      exact own (first.trans (only p had).symm)

/-- A place outside the lock knows nothing of the memory. -/
theorem local_unlocked (NSMB : Nat) (nexti : Int → Int) (outside : place.locked = false) :
    Local NSMB nexti place := by
  cases place with
  | next bp => cases outside
  | store bp next => cases outside
  | head b => cases outside
  | _ => trivial

omit [DecidableEq Sock] in
theorem Moved.known (moved : Moved s t p place held) (NSMB : Nat) (same : t.nexti = s.nexti)
    (known : ∀ q, Local NSMB s.nexti (s.place q)) (own : Local NSMB s.nexti place) :
    ∀ q, Local NSMB t.nexti (t.place q) := by
  intro q
  rw [same]
  by_cases here : q = p
  · rw [here, moved.place, Function.update_self]
    exact own
  · rw [(moved.other q here).2]
    exact known q

omit [DecidableEq Proc] [DecidableEq Sock] in
theorem Exclusive.alone (exclusive : Exclusive s) (q r : Proc) (first : (s.place q).locked = true)
    (other : r ≠ q) : (s.place r).locked = false := by
  rcases exclusive with ⟨-, others⟩ | ⟨-, p, -, only⟩
  · exact others r
  · by_contra second
    exact other ((only r (by simpa using second)).trans (only q first).symm)

omit [DecidableEq Sock] in
theorem Moved.written (moved : Moved s t p place held) (NSMB : Nat) (exclusive : Exclusive s)
    (had : (s.place p).locked = true) (own : Local NSMB t.nexti place) :
    ∀ q, Local NSMB t.nexti (t.place q) := by
  intro q
  by_cases here : q = p
  · rw [here, moved.place, Function.update_self]
    exact own
  · rw [(moved.other q here).2]
    exact local_unlocked NSMB t.nexti (exclusive.alone p q had here)

omit [DecidableEq Sock] in
theorem Moved.custody (moved : Moved s t p place held) (NSMB : Nat) (cells : List Int)
    (custody : Custody (Inside NSMB) (content s cells))
    (hands : (place.buffer ++ held).Perm (s.hands p)) (channel : t.channel = s.channel) :
    Custody (Inside NSMB) (content t cells) := by
  refine custody.perm fun c => ?_
  cases c with
  | free => exact List.Perm.refl _
  | process q =>
      by_cases own : q = p
      · rw [own, content, content, moved.own]
        exact hands
      · rw [content, content, (moved.other q own).1]
  | message k => rw [content, content, channel]

end

/-! Steps. -/

section
variable {NSMB : Nat} {s t : State Proc Sock} {cells : List Int} {p : Proc} {place : Place}
  {held : List Int}

omit [DecidableEq Sock] in
theorem Kept.quiet (kept : Kept NSMB s cells) (moved : Moved s t p place held)
    (hands : (place.buffer ++ held).Perm (s.hands p)) (nexti : t.nexti = s.nexti)
    (channel : t.channel = s.channel) (exclusive : Exclusive t)
    (own : Local NSMB s.nexti place) : Kept NSMB t cells := by
  refine ⟨moved.custody NSMB cells kept.custody hands channel, ?_, exclusive,
    moved.known NSMB nexti kept.known own⟩
  rw [nexti]
  exact kept.chain

omit [DecidableEq Sock] in
theorem exit_kept (kept : Kept NSMB s cells) (p : Proc) : Kept NSMB (s.exit p) cells := by
  have moved : Moved s (s.exit p) p .exited (s.hands p) := ⟨rfl, rfl⟩
  refine kept.quiet moved (List.Perm.refl _) rfl rfl ?_ trivial
  by_cases locked : (s.place p).locked = true
  · exact moved.give kept.exclusive locked rfl (by simp [State.exit, locked])
  · rw [Bool.not_eq_true] at locked
    exact moved.stay kept.exclusive locked.symm (by simp [State.exit, locked])

theorem send_kept (kept : Kept NSMB s cells) (p : Proc) (k : Sock) (b : Int)
    (user : s.place p = .user) (has : b ∈ s.held p) :
    Kept NSMB { s.hold p ((s.held p).erase b) with
      channel := Function.update s.channel k (s.channel k ++ [b]) } cells := by
  have moved : Moved s { s.hold p ((s.held p).erase b) with
      channel := Function.update s.channel k (s.channel k ++ [b]) } p .user ((s.held p).erase b) :=
    ⟨by rw [← user, Function.update_eq_self]; rfl, rfl⟩
  have hands : s.hands p = s.held p := by rw [State.hands, user]; rfl
  refine ⟨?_, kept.chain, moved.stay kept.exclusive (by rw [user]) rfl,
    moved.known NSMB rfl kept.known trivial⟩
  refine kept.custody.move (.process p) (.message k) b ((s.held p).erase b) nofun ?_ ?_ ?_ ?_
  · rw [content, hands]
    exact List.perm_cons_erase has
  · rw [content, moved.own]
    exact List.Perm.refl _
  · simp only [content, Function.update_self]
    exact List.perm_append_singleton b _
  · intro c first second
    cases c with
    | free => exact List.Perm.refl _
    | process q =>
        rw [content, content, (moved.other q fun same => first (by rw [same])).1]
    | message l =>
        simp only [content]
        rw [Function.update_of_ne fun same => second (by rw [same])]

theorem recv_kept (kept : Kept NSMB s cells) (p : Proc) (k : Sock) (index : Int) (rest : List Int)
    (user : s.place p = .user) (first : s.channel k = index :: rest) :
    Kept NSMB { s.hold p (index :: s.held p) with
      channel := Function.update s.channel k rest } cells := by
  have moved : Moved s { s.hold p (index :: s.held p) with
      channel := Function.update s.channel k rest } p .user (index :: s.held p) :=
    ⟨by rw [← user, Function.update_eq_self]; rfl, rfl⟩
  have hands : s.hands p = s.held p := by rw [State.hands, user]; rfl
  refine ⟨?_, kept.chain, moved.stay kept.exclusive (by rw [user]) rfl,
    moved.known NSMB rfl kept.known trivial⟩
  refine kept.custody.move (.message k) (.process p) index rest nofun ?_ ?_ ?_ ?_
  · rw [content, first]
  · simp only [content, Function.update_self]
    exact List.Perm.refl _
  · rw [content, content, moved.own, hands]
    exact List.Perm.refl _
  · intro c away other
    cases c with
    | free => exact List.Perm.refl _
    | process q =>
        rw [content, content, (moved.other q fun same => other (by rw [same])).1]
    | message l =>
        simp only [content]
        rw [Function.update_of_ne fun same => away (by rw [same])]

omit [DecidableEq Proc] [DecidableEq Sock] in
theorem write_kept (kept : Kept NSMB s cells) (p : Proc) (b n : Int) (user : s.place p = .user)
    (has : b ∈ s.held p) : Kept NSMB (s.put b n) cells := by
  have mine : b ∈ content s cells (.process p) := by
    rw [content, State.hands, user]
    exact has
  have inside := inside_ne NSMB b (kept.inside _ b mine)
  have out : b ∉ cells := fun free => nomatch kept.custody.apart .free (.process p) b free mine
  refine ⟨kept.custody, chain_put NSMB s.nexti cells b n kept.chain out inside, kept.exclusive, ?_⟩
  intro q
  have known := kept.known q
  change Local NSMB (Function.update s.nexti b n) (s.place q)
  cases here : s.place q with
  | next bp =>
      rw [here] at known
      simpa only [Local, Function.update_of_ne inside.symm] using known
  | store bp next =>
      rw [here] at known
      obtain ⟨first, least, onward⟩ := known
      -- the buffer that is being taken is still the first free one
      obtain ⟨rest, whole, -⟩ := chain_cons NSMB s.nexti cells kept.chain (first ▸ least)
      have apart : bp ≠ b := by
        rintro rfl
        exact out (by rw [whole, first]; exact List.mem_cons_self)
      simp only [Local, Function.update_of_ne inside.symm, Function.update_of_ne apart]
      exact ⟨first, least, onward⟩
  | head c =>
      rw [here] at known
      have apart : c ≠ b := by
        rintro rfl
        have other : c ∈ content s cells (.process q) := by
          rw [content, State.hands, here]
          exact List.mem_cons_self
        have same := kept.custody.apart (.process p) (.process q) c mine other
        cases same
        rw [user] at here
        cases here
      simpa only [Local, Function.update_of_ne inside.symm, Function.update_of_ne apart] using known
  | _ => trivial

omit [DecidableEq Sock] in
theorem moved_at (s : State Proc Sock) (p : Proc) (place : Place) :
    Moved s (s.at_ p place) p place (s.held p) :=
  ⟨rfl, (Function.update_eq_self _ _).symm⟩

omit [DecidableEq Sock] in
/-- FREE_LIST is written, and the first buffer is out. -/
theorem store_kept (kept : Kept NSMB s cells) (p : Proc) (bp next : Int)
    (here : s.place p = .store bp next) :
    ∃ rest, Kept NSMB ((s.put (FREE_LIST NSMB) next).at_ p (.unlock bp)) rest := by
  have moved : Moved s ((s.put (FREE_LIST NSMB) next).at_ p (.unlock bp)) p (.unlock bp)
      (s.held p) := ⟨rfl, (Function.update_eq_self _ _).symm⟩
  have known := kept.known p
  rw [here] at known
  obtain ⟨first, least, onward⟩ := known
  obtain ⟨rest, rfl, walk⟩ := chain_cons NSMB s.nexti cells kept.chain (first ▸ least)
  rw [first, onward] at walk
  have locked : (s.place p).locked = true := by rw [here]; rfl
  refine ⟨rest, ?_, ?_, moved.stay kept.exclusive locked.symm rfl,
    moved.written NSMB kept.exclusive locked trivial⟩
  · refine kept.custody.move .free (.process p) bp rest nofun ?_ (List.Perm.refl _) ?_ ?_
    · rw [content, first]
    · rw [content, content, moved.own, State.hands, here]
      exact List.Perm.refl _
    · intro c away other
      cases c with
      | free => exact absurd rfl away
      | process q =>
          rw [content, content, (moved.other q fun same => other (by rw [same])).1]
      | message k => exact List.Perm.refl _
  · change Walk _ (some (Function.update s.nexti (FREE_LIST NSMB) next (FREE_LIST NSMB))) rest _
    rw [Function.update_self]
    refine walk_frame rest (fun y member => ?_) walk
    have inside := inside_ne NSMB y (kept.inside .free y (List.mem_cons_of_mem _ member))
    exact congrArg some (Function.update_of_ne inside _ _)

omit [DecidableEq Sock] in
/-- A buffer that is freed gets its link while nobody else can see it. -/
theorem link_kept (kept : Kept NSMB s cells) (p : Proc) (b : Int) (here : s.place p = .link b) :
    Kept NSMB ((s.put b (s.nexti (FREE_LIST NSMB))).at_ p (.head b)) cells := by
  have moved : Moved s ((s.put b (s.nexti (FREE_LIST NSMB))).at_ p (.head b)) p (.head b)
      (s.held p) := ⟨rfl, (Function.update_eq_self _ _).symm⟩
  have mine : b ∈ content s cells (.process p) := by
    rw [content, State.hands, here]
    exact List.mem_cons_self
  have inside := inside_ne NSMB b (kept.inside _ b mine)
  have out : b ∉ cells := fun free => nomatch kept.custody.apart .free (.process p) b free mine
  have locked : (s.place p).locked = true := by rw [here]; rfl
  refine ⟨moved.custody NSMB cells kept.custody (by rw [State.hands, here]; rfl) rfl,
    chain_put NSMB s.nexti cells b _ kept.chain out inside,
    moved.stay kept.exclusive locked.symm rfl, moved.written NSMB kept.exclusive locked ?_⟩
  change Function.update s.nexti b _ b = Function.update s.nexti b _ (FREE_LIST NSMB)
  rw [Function.update_self, Function.update_of_ne inside.symm]

omit [DecidableEq Sock] in
theorem head_kept (kept : Kept NSMB s cells) (p : Proc) (b : Int) (here : s.place p = .head b) :
    Kept NSMB ((s.put (FREE_LIST NSMB) b).at_ p .freed) (b :: cells) := by
  have moved : Moved s ((s.put (FREE_LIST NSMB) b).at_ p .freed) p .freed
      (s.held p) := ⟨rfl, (Function.update_eq_self _ _).symm⟩
  have mine : b ∈ content s cells (.process p) := by
    rw [content, State.hands, here]
    exact List.mem_cons_self
  have known := kept.known p
  rw [here] at known
  have locked : (s.place p).locked = true := by rw [here]; rfl
  refine ⟨?_, ?_, moved.stay kept.exclusive locked.symm rfl,
    moved.written NSMB kept.exclusive locked trivial⟩
  · refine kept.custody.move (.process p) .free b (s.held p) nofun ?_ ?_ (List.Perm.refl _) ?_
    · rw [content, State.hands, here]
      exact List.Perm.refl _
    · rw [content, moved.own]
      exact List.Perm.refl _
    · intro c away other
      cases c with
      | free => exact absurd rfl other
      | process q =>
          rw [content, content, (moved.other q fun same => away (by rw [same])).1]
      | message k => exact List.Perm.refl _
  · have same (i : Int) (inside : Inside NSMB i) :
        Function.update s.nexti (FREE_LIST NSMB) b i = s.nexti i :=
      Function.update_of_ne (inside_ne NSMB i inside) _ _
    change Walk _ (some (Function.update s.nexti (FREE_LIST NSMB) b (FREE_LIST NSMB))) _ _
    rw [Function.update_self]
    refine walk_push cells b ?_ (fun y member => ?_) kept.chain
    · exact congrArg some ((same b (kept.inside _ b mine)).trans known)
    · exact congrArg some (same y (kept.inside .free y member))

omit [DecidableEq Sock] in
theorem run_kept (kept : Kept NSMB s cells) (p : Proc) (answer : Answer)
    (ran : run NSMB s p = some (t, answer)) :
    (∃ more, Kept NSMB t more) ∧ (answer = .outOfBuffers → Chain NSMB s.nexti []) := by
  have known := kept.known p
  rw [run] at ran
  split at ran
  · rename_i here
    split at ran
    · rename_i none_
      cases ran
      -- the first index is -1, so the chain is empty
      have empty := chain_nil NSMB s.nexti cells kept.chain (kept.inside .free) none_
      exact ⟨⟨cells, exit_kept kept p⟩, fun _ => empty ▸ kept.chain⟩
    · rename_i some_
      cases ran
      have moved := moved_at s p (.next (s.nexti (FREE_LIST NSMB)))
      refine ⟨⟨cells, kept.quiet moved ?_ rfl rfl (moved.stay kept.exclusive ?_ rfl)
        ⟨rfl, not_lt.mp some_⟩⟩, nofun⟩
      · rw [State.hands, here]
        exact List.Perm.refl _
      · rw [here]
        rfl
  · rename_i bp here
    cases ran
    rw [here] at known
    have moved := moved_at s p (.store bp (s.nexti bp))
    refine ⟨⟨cells, kept.quiet moved ?_ rfl rfl (moved.stay kept.exclusive ?_ rfl)
      ⟨known.1, known.2, rfl⟩⟩, nofun⟩
    · rw [State.hands, here]
      exact List.Perm.refl _
    · rw [here]
      rfl
  · rename_i bp next here
    cases ran
    exact ⟨store_kept kept p bp next here, nofun⟩
  · rename_i b here
    cases ran
    exact ⟨⟨cells, link_kept kept p b here⟩, nofun⟩
  · rename_i b here
    cases ran
    exact ⟨⟨b :: cells, head_kept kept p b here⟩, nofun⟩
  all_goals cases ran

omit [DecidableEq Sock] in
theorem lock_kept (kept : Kept NSMB s cells) (p : Proc) (place : Place)
    (buffer : place.buffer = (s.place p).buffer) (locked : place.locked = true)
    (free : s.mutex ≠ 0) (own : Local NSMB s.nexti place) :
    Kept NSMB { s.at_ p place with mutex := s.mutex - 1 } cells := by
  have moved : Moved s { s.at_ p place with mutex := s.mutex - 1 } p place (s.held p) :=
    ⟨rfl, (Function.update_eq_self _ _).symm⟩
  exact kept.quiet moved (by rw [buffer, State.hands]) rfl rfl
    (moved.take kept.exclusive locked free rfl) own

omit [DecidableEq Sock] in
theorem give_kept (kept : Kept NSMB s cells) (p : Proc) (held : List Int)
    (locked : (s.place p).locked = true) (same : held.Perm (s.hands p)) :
    Kept NSMB { (s.at_ p .user).hold p held with mutex := s.mutex + 1 } cells := by
  have moved : Moved s { (s.at_ p .user).hold p held with mutex := s.mutex + 1 } p .user held :=
    ⟨rfl, rfl⟩
  exact kept.quiet moved same rfl rfl (moved.give kept.exclusive locked rfl rfl) trivial

/-! The actions; all but those of `run` leave the free list as it is. -/

section

variable {answer : Answer}

theorem smballoc_kept (kept : Kept NSMB s cells) (p : Proc)
    (stepped : step NSMB s (.smballoc p) = some (t, answer)) :
    Kept NSMB t cells ∧ answer = .silent := by
  simp only [step] at stepped
  split at stepped
  · rename_i user
    cases stepped
    have moved := moved_at s p .alloc
    refine ⟨kept.quiet moved ?_ rfl rfl (moved.stay kept.exclusive ?_ rfl) trivial, rfl⟩
    · rw [State.hands, user]
      exact List.Perm.refl _
    · rw [user]
      rfl
  · cases stepped

theorem smbfree_kept (kept : Kept NSMB s cells) (p : Proc) (b : Int)
    (stepped : step NSMB s (.smbfree p b) = some (t, answer)) :
    Kept NSMB t cells ∧ answer = .silent := by
  simp only [step] at stepped
  split at stepped
  · rename_i may
    obtain ⟨user, has⟩ := may
    cases stepped
    have moved : Moved s ((s.at_ p (.free b)).hold p ((s.held p).erase b)) p (.free b)
        ((s.held p).erase b) := ⟨rfl, rfl⟩
    refine ⟨kept.quiet moved ?_ rfl rfl (moved.stay kept.exclusive ?_ rfl) trivial, rfl⟩
    · rw [State.hands, user]
      exact (List.perm_cons_erase has).symm
    · rw [user]
      rfl
  · cases stepped

theorem smbsend_kept (kept : Kept NSMB s cells) (p : Proc) (k : Sock) (b : Int) (sent : Bool)
    (stepped : step NSMB s (.smbsend p k b sent) = some (t, answer)) :
    Kept NSMB t cells ∧ answer = .silent := by
  simp only [step] at stepped
  split at stepped
  · rename_i may
    split at stepped
    · cases stepped
      exact ⟨send_kept kept p k b may.1 may.2, rfl⟩
    · cases stepped
      exact ⟨exit_kept kept p, rfl⟩
  · cases stepped

theorem smbrecv_kept (kept : Kept NSMB s cells) (p : Proc) (k : Sock) (read : Bool)
    (stepped : step NSMB s (.smbrecv p k read) = some (t, answer)) :
    Kept NSMB t cells ∧ answer = .silent := by
  simp only [step] at stepped
  split at stepped
  · rename_i user
    split at stepped
    · split at stepped
      · cases stepped
      · rename_i index rest first
        cases stepped
        exact ⟨recv_kept kept p k index rest user first, rfl⟩
    · cases stepped
      exact ⟨exit_kept kept p, rfl⟩
  · cases stepped

theorem step_write_kept (kept : Kept NSMB s cells) (p : Proc) (b n : Int)
    (stepped : step NSMB s (.write p b n) = some (t, answer)) :
    Kept NSMB t cells ∧ answer = .silent := by
  simp only [step] at stepped
  split at stepped
  · rename_i may
    cases stepped
    exact ⟨write_kept kept p b n may.1 may.2, rfl⟩
  · cases stepped

theorem step_lock_kept (kept : Kept NSMB s cells) (p : Proc) (ok : Bool)
    (stepped : step NSMB s (.lock p ok) = some (t, answer)) :
    Kept NSMB t cells ∧ answer = .silent := by
  simp only [step] at stepped
  split at stepped
  · rename_i here
    split at stepped
    · cases stepped
      exact ⟨exit_kept kept p, rfl⟩
    · split at stepped
      · cases stepped
      · rename_i free
        cases stepped
        exact ⟨lock_kept kept p .test (by rw [here]; rfl) rfl free trivial, rfl⟩
  · rename_i b here
    split at stepped
    · cases stepped
      exact ⟨exit_kept kept p, rfl⟩
    · split at stepped
      · cases stepped
      · rename_i free
        cases stepped
        exact ⟨lock_kept kept p (.link b) (by rw [here]; rfl) rfl free trivial, rfl⟩
  · cases stepped

theorem step_unlock_kept (kept : Kept NSMB s cells) (p : Proc) (ok : Bool)
    (stepped : step NSMB s (.unlock p ok) = some (t, answer)) :
    Kept NSMB t cells ∧ answer = .silent := by
  simp only [step] at stepped
  split at stepped
  · rename_i bp here
    split at stepped
    · cases stepped
      exact ⟨exit_kept kept p, rfl⟩
    · cases stepped
      refine ⟨give_kept kept p _ (by rw [here]; rfl) ?_, rfl⟩
      rw [State.hands, here]
      exact List.Perm.refl _
  · rename_i here
    split at stepped
    · cases stepped
      exact ⟨exit_kept kept p, rfl⟩
    · cases stepped
      have same : Function.update s.held p (s.held p) = s.held := Function.update_eq_self _ _
      have held : (s.at_ p .user).hold p (s.held p) = s.at_ p .user := by
        simp only [State.hold, State.at_, same]
      rw [← held]
      refine ⟨give_kept kept p _ (by rw [here]; rfl) ?_, rfl⟩
      rw [State.hands, here]
      exact List.Perm.refl _
  · cases stepped

theorem step_kept (kept : Kept NSMB s cells) (action : Action Proc Sock) (answer : Answer)
    (stepped : step NSMB s action = some (t, answer)) :
    (∃ more, Kept NSMB t more) ∧ (answer = .outOfBuffers → Chain NSMB s.nexti []) := by
  have quiet (same : Kept NSMB t cells ∧ answer = .silent) :
      (∃ more, Kept NSMB t more) ∧ (answer = .outOfBuffers → Chain NSMB s.nexti []) :=
    ⟨⟨cells, same.1⟩, fun out => nomatch same.2.symm.trans out⟩
  cases action with
  | smballoc p => exact quiet (smballoc_kept kept p stepped)
  | smbfree p b => exact quiet (smbfree_kept kept p b stepped)
  | smbsend p k b sent => exact quiet (smbsend_kept kept p k b sent stepped)
  | smbrecv p k read => exact quiet (smbrecv_kept kept p k read stepped)
  | write p b n => exact quiet (step_write_kept kept p b n stepped)
  | lock p ok => exact quiet (step_lock_kept kept p ok stepped)
  | run p => exact run_kept kept p answer stepped
  | unlock p ok => exact quiet (step_unlock_kept kept p ok stepped)

end

end

/-! The start and the runs. -/

theorem linked_at (nexti : Int → Int) (m k : Nat) (below : k < m) :
    (List.range m).foldl (fun (f : Int → Int) (i : Nat) => Function.update f i (i + 1)) nexti k =
      k + 1 := by
  induction m with
  | zero => cases below
  | succ m ih =>
      rw [List.range_succ, List.foldl_append]
      simp only [List.foldl_cons, List.foldl_nil]
      by_cases last : k = m
      · rw [last, Function.update_self]
      · rw [Function.update_of_ne (by exact_mod_cast last), ih (by omega)]

theorem init_at (NSMB : Nat) (nexti : Int → Int) (k : Nat) (below : k < NSMB) :
    initFreelist NSMB nexti k = if k + 1 = NSMB then -1 else (k : Int) + 1 := by
  have inner : (k : Int) ≠ FREE_LIST NSMB := by
    rw [FREE_LIST]
    omega
  simp only [initFreelist, Function.update_of_ne inner]
  by_cases last : k + 1 = NSMB
  · rw [if_pos last, show k = NSMB - 1 by omega, Function.update_self]
  · rw [if_neg last, Function.update_of_ne (by omega)]
    exact linked_at nexti (NSMB - 1) k (by omega)

theorem init_walk (NSMB : Nat) (nexti : Int → Int) (k more : Nat) (whole : k + (more + 1) = NSMB) :
    Walk (fun i => some (initFreelist NSMB nexti i)) (some (k : Int))
      ((List.range' k (more + 1)).map Nat.cast) (some (-1)) := by
  induction more generalizing k with
  | zero =>
      refine ⟨rfl, ?_⟩
      change Walk _ (some (initFreelist NSMB nexti k)) _ _
      rw [init_at NSMB nexti k (by omega), if_pos (by omega)]
      exact rfl
  | succ more ih =>
      rw [List.range'_succ, List.map_cons]
      refine ⟨rfl, ?_⟩
      change Walk _ (some (initFreelist NSMB nexti k)) _ _
      rw [init_at NSMB nexti k (by omega), if_neg (by omega)]
      exact_mod_cast ih (k + 1) (by omega)

variable {NSMB : Nat} {trace : List (Step Proc Sock)} {s : State Proc Sock}

theorem kept_start (some_ : 1 ≤ NSMB) (first : (machine Proc Sock NSMB).start s) :
    Kept NSMB s ((List.range NSMB).map Nat.cast) := by
  obtain ⟨⟨memory, nexti⟩, mutex, users, empty⟩ := first
  have places (p : Proc) : s.place p = .user := (users p).1
  have hands (p : Proc) : s.hands p = [] := by
    rw [State.hands, places, (users p).2]
    rfl
  refine ⟨⟨?_, ?_, ?_⟩, ?_, Or.inl ⟨mutex, fun p => by rw [places]; rfl⟩, fun p => ?_⟩
  · intro c
    cases c with
    | free => exact List.nodup_range.map Nat.cast_injective
    | process p =>
        rw [content, hands]
        exact List.nodup_nil
    | message k =>
        rw [content, empty]
        exact List.nodup_nil
  · intro c d i first second
    cases c with
    | free =>
        cases d with
        | free => rfl
        | process p => simp [content, hands] at second
        | message k => simp [content, empty] at second
    | process p => simp [content, hands] at first
    | message k => simp [content, empty] at first
  · intro i
    constructor
    · rintro ⟨least, below⟩
      refine ⟨.free, List.mem_map.mpr ⟨i.toNat, List.mem_range.mpr (by omega), ?_⟩⟩
      exact Int.toNat_of_nonneg least
    · rintro ⟨c, member⟩
      cases c with
      | free =>
          obtain ⟨k, below, rfl⟩ := List.mem_map.mp member
          rw [List.mem_range] at below
          exact ⟨by omega, by omega⟩
      | process p => simp [content, hands] at member
      | message k => simp [content, empty] at member
  · obtain ⟨more, rfl⟩ : ∃ more, NSMB = more + 1 := ⟨NSMB - 1, by omega⟩
    rw [Chain, nexti, List.range_eq_range']
    -- the loop links each buffer to the next one and the last to -1
    have walk := init_walk (more + 1) memory 0 more (by omega)
    simpa [initFreelist, FREE_LIST] using walk
  · rw [places]
    trivial

theorem kept_run (some_ : 1 ≤ NSMB) (run : (machine Proc Sock NSMB).Run trace s) :
    ∃ cells, Kept NSMB s cells := by
  refine run.invariant (I := fun s => ∃ cells, Kept NSMB s cells)
    (fun s first => ⟨_, kept_start some_ first⟩) ?_
  rintro e stepped ⟨cells, kept⟩
  exact (step_kept kept e.action e.output stepped).1

/-- Every buffer is free, in the hands of one process or on its way, and nothing else is;
and smballoc gives up when none is free. -/
theorem buffers_kept (some_ : 1 ≤ NSMB) (run : (machine Proc Sock NSMB).Run trace s) :
    (∃ cells, Walk (fun i => some (s.nexti i)) (some (s.nexti (FREE_LIST NSMB))) cells (some (-1)) ∧
      (∀ c, (content s cells c).Nodup) ∧
      (∀ i, Inside NSMB i → ∃! c, i ∈ content s cells c) ∧
      ∀ c i, i ∈ content s cells c → Inside NSMB i) ∧
    (∀ p q i, i ∈ s.hands p → i ∈ s.hands q → p = q) ∧
    ∀ e ∈ trace, e.output = .outOfBuffers → ∀ i, Inside NSMB i →
      (∃ p, i ∈ e.before.hands p) ∨ ∃ k, i ∈ e.before.channel k := by
  obtain ⟨cells, kept⟩ := kept_run some_ run
  refine ⟨⟨cells, kept.chain, kept.custody.nodup, kept.custody.one, kept.inside⟩, ?_, ?_⟩
  · intro p q i first second
    have same := kept.custody.apart (.process p) (.process q) i first second
    cases same
    rfl
  · refine run.each fun pre e before stepped out i inside => ?_
    obtain ⟨cells, kept⟩ := kept_run some_ before
    have empty := (step_kept kept e.action e.output stepped).2 out
    have last := Option.some.inj
      (show some (e.before.nexti (FREE_LIST NSMB)) = some (-1) from empty)
    have none_ := chain_nil NSMB e.before.nexti cells kept.chain (kept.inside .free) (by omega)
    obtain ⟨c, member⟩ := (kept.custody.covers i).mp inside
    cases c with
    | free =>
        rw [none_] at member
        cases member
    | process p => exact Or.inl ⟨p, member⟩
    | message k => exact Or.inr ⟨k, member⟩

theorem one_buffer : ∃ trace s, (machine Bool Unit 1).Run trace s ∧
    (trace.getLast?.map fun e => (e.output, e.before.hands true)) = some (.outOfBuffers, []) ∧
    ∀ p q i, i ∈ s.hands p → i ∈ s.hands q → p = q := by
  obtain ⟨trace, s, run, check⟩ := Machine.run_of_check (M := machine Bool Unit 1)
    (s := ⟨initFreelist 1 fun _ => 0, 1, fun _ => .user, fun _ => [], fun _ => []⟩)
    ⟨⟨_, rfl⟩, rfl, fun _ => ⟨rfl, rfl⟩, fun _ => rfl⟩
    [.smballoc true, .lock true true, .run true, .run true, .run true, .unlock true true,
      .write true 0 77, .smbsend true () 0 true, .smbrecv false () true, .smballoc true,
      .lock true true, .run true]
    (fun r => decide ((r.1.getLast?.map fun e => (e.output, e.before.hands true)) =
      some (.outOfBuffers, []))) (by decide +kernel)
  exact ⟨trace, s, run, of_decide_eq_true check, (buffers_kept (le_refl 1) run).2.1⟩

end NetworkProgramming.Smb
