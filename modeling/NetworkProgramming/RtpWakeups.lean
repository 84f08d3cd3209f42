import NetworkProgramming.PlayAudio
import NetworkProgramming.RtpQueue

/-!
The player of playaudio.c and the receiver of rtprecv.c, one statement at a time. Each
of the queue's functions is one step, by stm_qmutex; stm_rmutex is held by the player
except while it waits, and by the receiver in rtpnewdata.
-/

namespace NetworkProgramming.RtpWakeups

open RtpQueue PlayAudio

variable {Node : Type*} [DecidableEq Node]

def RTP_JITTHRESH : UInt32 := 8000

inductive Party where
  | player
  | receiver
  deriving DecidableEq

inductive Playing (Node : Type*) where
  /-- pthread_mutex_lock, or the same at the end of a wait. -/
  | locking
  /-- the test of stm_buffering. -/
  | testing
  | dequeuing
  | playing (pln : Node)
  /-- rtpqinsert of a packet that is too early. -/
  | postponing (pln : Node)
  /-- pthread_cond_wait or pthread_cond_timedwait. -/
  | waiting (timed : Bool)
  | blocked (timed : Bool)
  deriving DecidableEq

/-- What rtprecv does next, and rtpnewdata from `calling` on. -/
inductive Receiving (Node : Type*) where
  | receiving
  | inserting (pln : Node)
  /-- the tests of what rtpqinsert has returned and of stm_buffering. -/
  | inserted (head : Bool)
  /-- pthread_mutex_lock. -/
  | calling
  /-- the test of stm_buffering. -/
  | locked
  | reading
  /-- the test of end - begin. -/
  | spanning (span : UInt32)
  | signalling
  | unlocking
  deriving DecidableEq

structure State (Node : Type*) where
  queue : Queue Node
  rtp : Node → Rtpln
  /-- The buffers that bpget can give. -/
  free : Node → Bool
  stmBuffering : Bool
  stmRmutex : Option Party
  player : Playing Node
  receiver : Receiving Node

def Playing.signalled : Playing Node → Playing Node
  | .blocked _ => .locking
  | player => player

/-- end - begin, unless an end of the queue is missing where it is read. -/
def span (s : State Node) : Option UInt32 :=
  match s.queue.stmQhead with
  | none => some 0
  | some first => s.queue.stmQtail.map fun last => (s.rtp last).rtpTime - (s.rtp first).rtpTime

variable [Fintype Node]

def playaudioStep (s : State Node) (mnow : UInt32) : Option (State Node) :=
  match s.player with
  | .locking =>
      if s.stmRmutex = none then
        some { s with stmRmutex := some .player, player := .testing }
      else none
  | .testing => some { s with player := if s.stmBuffering then .waiting false else .dequeuing }
  | .dequeuing =>
      match rtpqdequeue s.queue with
      | (queue, none) => some { s with queue := queue, player := .waiting false }
      | (queue, some pln) => some { s with queue := queue, player := .playing pln }
  | .playing pln =>
      match playaudio (s.rtp pln) mnow with
      | .postpone _ => some { s with player := .postponing pln }
      | .free | .write _ _ =>
          some { s with free := Function.update s.free pln true, player := .testing }
  | .postponing pln => (rtpqinsert s.queue pln).map fun r =>
      { s with queue := r.1, player := .waiting true }
  | .waiting timed => some { s with stmRmutex := none, player := .blocked timed }
  | .blocked _ => none

def rtprecvStep (s : State Node) : Option (State Node) :=
  match s.receiver with
  | .receiving => none
  | .inserting pln => (rtpqinsert s.queue pln).map fun r =>
      { s with queue := r.1, receiver := .inserted r.2 }
  | .inserted head =>
      some { s with receiver := if head || s.stmBuffering then .calling else .receiving }
  | .calling =>
      if s.stmRmutex = none then
        some { s with stmRmutex := some .receiver, receiver := .locked }
      else none
  | .locked => some { s with receiver := if s.stmBuffering then .reading else .signalling }
  | .reading => (span s).map fun span => { s with receiver := .spanning span }
  | .spanning span => some { s with
      stmBuffering := if RTP_JITTHRESH ≤ span then false else s.stmBuffering
      receiver := .signalling }
  | .signalling => some { s with player := s.player.signalled, receiver := .unlocking }
  | .unlocking => some { s with stmRmutex := none, receiver := .receiving }

inductive Action (Node : Type*) where
  | playaudio (mnow : UInt32)
  | rtprecv
  /-- A buffer of the pool, the datagram that rtprecv accepts in it, and its rln_seq. One that
  is thrown away gives its buffer back and changes nothing. -/
  | recv (pln : Node) (packet : Rtpln) (seq : UInt32)
  | spurious
  | timeout
  deriving DecidableEq

def step (s : State Node) : Action Node → Option (State Node)
  | .playaudio mnow => playaudioStep s mnow
  | .rtprecv => rtprecvStep s
  | .recv pln packet seq =>
      if s.receiver = .receiving ∧ s.free pln = true ∧ Accepted packet then
        some { s with
          queue := { s.queue with rlnSeq := Function.update s.queue.rlnSeq pln seq }
          rtp := Function.update s.rtp pln packet
          free := Function.update s.free pln false
          receiver := .inserting pln }
      else none
  | .spurious =>
      match s.player with
      | .blocked _ => some { s with player := .locking }
      | _ => none
  | .timeout => if s.player = .blocked true then some { s with player := .locking } else none

def machine (Node : Type*) [DecidableEq Node] [Fintype Node] :
    Machine (State Node) (Action Node) Unit where
  start s := s.queue.stmQhead = none ∧ s.queue.stmQtail = none ∧ (∀ pln, s.free pln = true) ∧
    s.stmBuffering = true ∧ s.stmRmutex = none ∧ s.player = .locking ∧ s.receiver = .receiving
  step s action := (step s action).map fun after => (after, ())

/-- From an insertion that requires rtpnewdata to the signal of that call. -/
def Receiving.Obliged : Receiving Node → Prop
  | .inserted head => head = true
  | .calling | .locked | .reading | .spanning _ | .signalling => True
  | .receiving | .inserting _ | .unlocking => False

inductive Did (s : State Node) : State Node → Prop where
  | lock (here : s.player = .locking) (open_ : s.stmRmutex = none) :
      Did s { s with stmRmutex := some .player, player := .testing }
  | stillBuffering (here : s.player = .testing) (on : s.stmBuffering = true) :
      Did s { s with player := .waiting false }
  | buffered (here : s.player = .testing) : Did s { s with player := .dequeuing }
  | empty {queue : Queue Node} (here : s.player = .dequeuing)
      (took : rtpqdequeue s.queue = (queue, none)) :
      Did s { s with queue := queue, player := .waiting false }
  | dequeued {queue : Queue Node} {pln : Node} (here : s.player = .dequeuing)
      (took : rtpqdequeue s.queue = (queue, some pln)) :
      Did s { s with queue := queue, player := .playing pln }
  | played {pln : Node} (here : s.player = .playing pln) :
      Did s { s with free := Function.update s.free pln true, player := .testing }
  | early {pln : Node} (here : s.player = .playing pln) :
      Did s { s with player := .postponing pln }
  | postponed {pln : Node} {r : Queue Node × Bool} (here : s.player = .postponing pln)
      (put : rtpqinsert s.queue pln = some r) :
      Did s { s with queue := r.1, player := .waiting true }
  | waits {timed : Bool} (here : s.player = .waiting timed) :
      Did s { s with stmRmutex := none, player := .blocked timed }
  | woke {timed : Bool} (here : s.player = .blocked timed) : Did s { s with player := .locking }
  | received {pln : Node} {packet : Rtpln} {seq : UInt32} (here : s.receiver = .receiving)
      (unused : s.free pln = true) :
      Did s { s with
        queue := { s.queue with rlnSeq := Function.update s.queue.rlnSeq pln seq }
        rtp := Function.update s.rtp pln packet
        free := Function.update s.free pln false
        receiver := .inserting pln }
  | inserted {pln : Node} {r : Queue Node × Bool} (here : s.receiver = .inserting pln)
      (put : rtpqinsert s.queue pln = some r) :
      Did s { s with queue := r.1, receiver := .inserted r.2 }
  | calls {head : Bool} (here : s.receiver = .inserted head) :
      Did s { s with receiver := .calling }
  | returns (here : s.receiver = .inserted false) : Did s { s with receiver := .receiving }
  | locked (here : s.receiver = .calling) (open_ : s.stmRmutex = none) :
      Did s { s with stmRmutex := some .receiver, receiver := .locked }
  | reads (here : s.receiver = .locked) : Did s { s with receiver := .reading }
  | skips (here : s.receiver = .locked) : Did s { s with receiver := .signalling }
  | spans {span : UInt32} (here : s.receiver = .reading) :
      Did s { s with receiver := .spanning span }
  | decides {span : UInt32} {buffering : Bool} (here : s.receiver = .spanning span) :
      Did s { s with stmBuffering := buffering, receiver := .signalling }
  | signals (here : s.receiver = .signalling) :
      Did s { s with player := s.player.signalled, receiver := .unlocking }
  | unlocks (here : s.receiver = .unlocking) :
      Did s { s with stmRmutex := none, receiver := .receiving }

theorem playaudio_did (s after : State Node) (mnow : UInt32)
    (stepped : playaudioStep s mnow = some after) : Did s after := by
  cases here : s.player with
  | locking =>
      simp only [playaudioStep, here, Option.ite_none_right_eq_some, Option.some.injEq] at stepped
      obtain ⟨open_, rfl⟩ := stepped
      exact .lock here open_
  | testing =>
      simp only [playaudioStep, here, Option.some.injEq] at stepped
      obtain rfl := stepped
      by_cases on : s.stmBuffering = true
      · rw [if_pos on]
        exact .stillBuffering here on
      · rw [if_neg on]
        exact .buffered here
  | dequeuing =>
      simp only [playaudioStep, here] at stepped
      split at stepped
      · rename_i queue took
        obtain rfl := Option.some.inj stepped
        exact .empty here took
      · rename_i queue pln took
        obtain rfl := Option.some.inj stepped
        exact .dequeued here took
  | playing pln =>
      simp only [playaudioStep, here] at stepped
      cases chosen : playaudio (s.rtp pln) mnow with
      | postpone delay =>
          rw [chosen] at stepped
          obtain rfl := Option.some.inj stepped
          exact .early here
      | free =>
          rw [chosen] at stepped
          obtain rfl := Option.some.inj stepped
          exact .played here
      | write start count =>
          rw [chosen] at stepped
          obtain rfl := Option.some.inj stepped
          exact .played here
  | postponing pln =>
      simp only [playaudioStep, here, Option.map_eq_some_iff] at stepped
      obtain ⟨r, put, rfl⟩ := stepped
      exact .postponed here put
  | waiting timed =>
      simp only [playaudioStep, here, Option.some.injEq] at stepped
      obtain rfl := stepped
      exact .waits here
  | blocked timed =>
      simp only [playaudioStep, here] at stepped
      cases stepped

theorem rtprecv_did (s after : State Node) (stepped : rtprecvStep s = some after) :
    Did s after := by
  cases here : s.receiver with
  | receiving =>
      simp only [rtprecvStep, here] at stepped
      cases stepped
  | inserting pln =>
      simp only [rtprecvStep, here, Option.map_eq_some_iff] at stepped
      obtain ⟨r, put, rfl⟩ := stepped
      exact .inserted here put
  | inserted head =>
      simp only [rtprecvStep, here, Option.some.injEq] at stepped
      obtain rfl := stepped
      cases required : head || s.stmBuffering with
      | true => exact .calls here
      | false =>
          obtain rfl : head = false := (Bool.or_eq_false_iff.mp required).1
          exact .returns here
  | calling =>
      simp only [rtprecvStep, here, Option.ite_none_right_eq_some, Option.some.injEq] at stepped
      obtain ⟨open_, rfl⟩ := stepped
      exact .locked here open_
  | locked =>
      simp only [rtprecvStep, here, Option.some.injEq] at stepped
      obtain rfl := stepped
      split
      · exact .reads here
      · exact .skips here
  | reading =>
      simp only [rtprecvStep, here, Option.map_eq_some_iff] at stepped
      obtain ⟨span, _, rfl⟩ := stepped
      exact .spans here
  | spanning span =>
      simp only [rtprecvStep, here, Option.some.injEq] at stepped
      obtain rfl := stepped
      exact .decides here
  | signalling =>
      simp only [rtprecvStep, here, Option.some.injEq] at stepped
      obtain rfl := stepped
      exact .signals here
  | unlocking =>
      simp only [rtprecvStep, here, Option.some.injEq] at stepped
      obtain rfl := stepped
      exact .unlocks here

theorem step_did (s after : State Node) (action : Action Node)
    (stepped : step s action = some after) : Did s after := by
  cases action with
  | playaudio mnow => exact playaudio_did s after mnow stepped
  | rtprecv => exact rtprecv_did s after stepped
  | recv pln packet seq =>
      simp only [step, Option.ite_none_right_eq_some, Option.some.injEq] at stepped
      obtain ⟨⟨here, unused, _⟩, rfl⟩ := stepped
      exact .received here unused
  | spurious =>
      simp only [step] at stepped
      split at stepped
      · rename_i timed here
        obtain rfl := Option.some.inj stepped
        exact .woke here
      · cases stepped
  | timeout =>
      simp only [step, Option.ite_none_right_eq_some, Option.some.injEq] at stepped
      obtain ⟨here, rfl⟩ := stepped
      exact .woke here

/-! stm_rmutex: who is inside. -/

def Playing.Inside : Playing Node → Prop
  | .locking | .blocked _ => False
  | .testing | .dequeuing | .playing _ | .postponing _ | .waiting _ => True

def Receiving.Inside : Receiving Node → Prop
  | .receiving | .inserting _ | .inserted _ | .calling => False
  | .locked | .reading | .spanning _ | .signalling | .unlocking => True

structure Custody (s : State Node) : Prop where
  player : s.player.Inside ↔ s.stmRmutex = some .player
  receiver : s.receiver.Inside ↔ s.stmRmutex = some .receiver

omit [DecidableEq Node] [Fintype Node] in
theorem signalled_inside (player : Playing Node) : player.signalled.Inside ↔ player.Inside := by
  cases player <;> exact Iff.rfl

omit [DecidableEq Node] [Fintype Node] in
theorem custody_kept {s after : State Node} (custody : Custody s)
    (same : after.stmRmutex = s.stmRmutex) (player : after.player.Inside ↔ s.player.Inside)
    (receiver : after.receiver.Inside ↔ s.receiver.Inside) : Custody after := by
  constructor
  · rw [player, same]
    exact custody.player
  · rw [receiver, same]
    exact custody.receiver

omit [DecidableEq Node] [Fintype Node] in
theorem custody_apart {s : State Node} (custody : Custody s) (player : s.player.Inside)
    (receiver : s.receiver.Inside) : False := by
  have mine := custody.player.mp player
  rw [custody.receiver.mp receiver] at mine
  cases mine

theorem custody_step (s after : State Node) (did : Did s after) (custody : Custody s) :
    Custody after := by
  cases did with
  | lock here open_ =>
      have outside : ¬ s.receiver.Inside := by
        rw [custody.receiver, open_]
        simp
      exact ⟨iff_of_true trivial rfl, iff_of_false outside (by simp)⟩
  | locked here open_ =>
      have outside : ¬ s.player.Inside := by
        rw [custody.player, open_]
        simp
      exact ⟨iff_of_false outside (by simp), iff_of_true trivial rfl⟩
  | waits here =>
      have inside : s.player.Inside := by
        rw [here]
        trivial
      have outside : ¬ s.receiver.Inside := custody_apart custody inside
      exact ⟨iff_of_false id (by simp), iff_of_false outside (by simp)⟩
  | unlocks here =>
      have inside : s.receiver.Inside := by
        rw [here]
        trivial
      exact ⟨iff_of_false (fun other => custody_apart custody other inside) (by simp),
        iff_of_false id (by simp)⟩
  | signals here =>
      exact custody_kept custody rfl (signalled_inside s.player) (by simp [Receiving.Inside, here])
  | stillBuffering here | buffered here | empty here | dequeued here | played here | early here
  | postponed here | woke here =>
      exact custody_kept custody rfl (by simp [Playing.Inside, here]) Iff.rfl
  | received here | inserted here | calls here | returns here | reads here | skips here
  | spans here | decides here =>
      exact custody_kept custody rfl Iff.rfl (by simp [Receiving.Inside, here])

/-! Every packet in use is in one place. -/

def Playing.packet : Playing Node → Option Node
  | .playing pln | .postponing pln => some pln
  | .locking | .testing | .dequeuing | .waiting _ | .blocked _ => none

def Receiving.packet : Receiving Node → Option Node
  | .inserting pln => some pln
  | _ => none

structure Packets (s : State Node) (cells : List Node) : Prop where
  held : Holds s.queue cells
  ordered : Ordered s.queue cells
  queued : ∀ p ∈ cells, s.free p = false ∧ s.player.packet ≠ some p ∧ s.receiver.packet ≠ some p
  played : ∀ p, s.player.packet = some p → s.free p = false ∧ s.receiver.packet ≠ some p
  received : ∀ p, s.receiver.packet = some p → s.free p = false

omit [DecidableEq Node] [Fintype Node] in
theorem packets_kept {s after : State Node} {cells : List Node} (packets : Packets s cells)
    (queue : after.queue = s.queue) (free : after.free = s.free)
    (player : after.player.packet = s.player.packet)
    (receiver : after.receiver.packet = s.receiver.packet) : Packets after cells := by
  obtain ⟨held, ordered, queued, played, received⟩ := packets
  constructor
  · rwa [queue]
  · rwa [queue]
  · rwa [free, player, receiver]
  · rwa [free, player, receiver]
  · rwa [free, receiver]

theorem rtpqinsert_stored (queue : Queue Node) (pln : Node) (cells : List Node)
    (r : Queue Node × Bool) (held : Holds queue cells) (ordered : Ordered queue cells)
    (absent : pln ∉ cells) (put : rtpqinsert queue pln = some r) :
    ∃ more, Holds r.1 more ∧ Ordered r.1 more ∧ (∀ p, p ∈ more ↔ p = pln ∨ p ∈ cells) ∧
      r.2 = decide (some pln = r.1.stmQhead) := by
  obtain ⟨after, called, seqs, stored⟩ := rtpqinsert_held queue pln cells held ordered absent
  obtain rfl : (after, decide (some pln = after.stmQhead)) = r :=
    Option.some.inj (called.symm.trans put)
  refine ⟨_, stored, ?_, StablePriority.mem_insert_iff _ cells pln, rfl⟩
  rw [Ordered, seqs]
  exact StablePriority.sorted_insert _ cells pln ordered

omit [Fintype Node] in
theorem rtpqdequeue_none (queue after : Queue Node) (cells : List Node)
    (held : Holds queue cells) (took : rtpqdequeue queue = (after, none)) :
    cells = [] ∧ after = queue := by
  cases cells with
  | nil =>
      rw [rtpqdequeue_empty queue held] at took
      exact ⟨rfl, (congrArg Prod.fst took).symm⟩
  | cons pln cells =>
      obtain ⟨_, first, -⟩ := rtpqdequeue_first queue pln cells held
      simp [first] at took

omit [Fintype Node] in
theorem rtpqdequeue_some (queue after : Queue Node) (pln : Node) (cells : List Node)
    (held : Holds queue cells) (took : rtpqdequeue queue = (after, some pln)) :
    ∃ rest, cells = pln :: rest ∧ Holds after rest ∧ after.rlnSeq = queue.rlnSeq := by
  cases cells with
  | nil =>
      rw [rtpqdequeue_empty queue held] at took
      cases took
  | cons first rest =>
      obtain ⟨other, called, seqs, left⟩ := rtpqdequeue_first queue first rest held
      obtain ⟨rfl, rfl⟩ : other = after ∧ first = pln := by simpa [called] using took
      exact ⟨rest, rfl, left, seqs⟩

omit [Fintype Node] in
theorem dequeued_packets {s : State Node} {cells : List Node} {queue : Queue Node} {pln : Node}
    (took : rtpqdequeue s.queue = (queue, some pln)) (packets : Packets s cells) :
    ∃ more, Packets { s with queue := queue, player := .playing pln } more := by
  obtain ⟨held, ordered, queued, -, received⟩ := packets
  obtain ⟨rest, rfl, left, seqs⟩ := rtpqdequeue_some s.queue queue pln cells held took
  have absent : pln ∉ rest := (List.nodup_cons.mp held.distinct).1
  refine ⟨rest, left, ?_, ?_, ?_, received⟩
  · rw [Ordered, seqs]
    exact (List.pairwise_cons.mp ordered).2
  · intro p member
    obtain ⟨used, -, other⟩ := queued p (List.mem_cons_of_mem pln member)
    refine ⟨used, ?_, other⟩
    rintro ⟨⟩
    exact absent member
  · rintro p ⟨⟩
    obtain ⟨used, -, other⟩ := queued pln List.mem_cons_self
    exact ⟨used, other⟩

omit [Fintype Node] in
theorem played_packets {s : State Node} {cells : List Node} {pln : Node}
    (mine : s.player.packet = some pln) (packets : Packets s cells) :
    Packets { s with free := Function.update s.free pln true, player := .testing } cells := by
  obtain ⟨held, ordered, queued, played, received⟩ := packets
  refine ⟨held, ordered, ?_, ?_, ?_⟩
  · intro p member
    obtain ⟨used, other, away⟩ := queued p member
    have apart : p ≠ pln := by
      rintro rfl
      exact other mine
    exact ⟨by simpa [apart] using used, by simp [Playing.packet], away⟩
  · rintro p ⟨⟩
  · intro p here
    have apart : p ≠ pln := by
      rintro rfl
      exact (played p mine).2 here
    simpa [apart] using received p here

theorem postponed_packets {s : State Node} {cells : List Node} {pln : Node} {r : Queue Node × Bool}
    (mine : s.player.packet = some pln) (put : rtpqinsert s.queue pln = some r)
    (packets : Packets s cells) :
    ∃ more, Packets { s with queue := r.1, player := .waiting true } more := by
  obtain ⟨held, ordered, queued, played, received⟩ := packets
  have absent : pln ∉ cells := fun member => (queued pln member).2.1 mine
  obtain ⟨more, stored, sorted, members, -⟩ :=
    rtpqinsert_stored s.queue pln cells r held ordered absent put
  refine ⟨more, stored, sorted, ?_, ?_, received⟩
  · intro p member
    rcases (members p).mp member with rfl | old
    · obtain ⟨used, away⟩ := played p mine
      exact ⟨used, by simp [Playing.packet], away⟩
    · obtain ⟨used, -, away⟩ := queued p old
      exact ⟨used, by simp [Playing.packet], away⟩
  · rintro p ⟨⟩

omit [Fintype Node] in
/-- A packet that is not in use is nowhere yet. -/
theorem received_packets {s : State Node} {cells : List Node} {pln : Node} (packet : Rtpln)
    (seq : UInt32) (unused : s.free pln = true) (packets : Packets s cells) :
    Packets { s with
      queue := { s.queue with rlnSeq := Function.update s.queue.rlnSeq pln seq }
      rtp := Function.update s.rtp pln packet
      free := Function.update s.free pln false
      receiver := .inserting pln } cells := by
  obtain ⟨held, ordered, queued, played, -⟩ := packets
  have apart (p : Node) (used : s.free p = false) : p ≠ pln := by
    rintro rfl
    rw [unused] at used
    cases used
  refine ⟨held, ?_, ?_, ?_, ?_⟩
  · refine ordered.imp_of_mem fun {p q} first second below => ?_
    simpa [apart p (queued p first).1, apart q (queued q second).1] using below
  · intro p member
    obtain ⟨used, other, -⟩ := queued p member
    have new := apart p used
    exact ⟨by simpa [new] using used, other, by simpa [Receiving.packet] using new.symm⟩
  · intro p mine
    obtain ⟨used, -⟩ := played p mine
    have new := apart p used
    exact ⟨by simpa [new] using used, by simpa [Receiving.packet] using new.symm⟩
  · rintro p ⟨⟩
    exact Function.update_self _ _ _

theorem inserted_packets {s : State Node} {cells : List Node} {pln : Node} {r : Queue Node × Bool}
    (mine : s.receiver.packet = some pln) (put : rtpqinsert s.queue pln = some r)
    (packets : Packets s cells) :
    ∃ more, Packets { s with queue := r.1, receiver := .inserted r.2 } more := by
  obtain ⟨held, ordered, queued, played, received⟩ := packets
  have absent : pln ∉ cells := fun member => (queued pln member).2.2 mine
  obtain ⟨more, stored, sorted, members, -⟩ :=
    rtpqinsert_stored s.queue pln cells r held ordered absent put
  refine ⟨more, stored, sorted, ?_, ?_, ?_⟩
  · intro p member
    rcases (members p).mp member with rfl | old
    · exact ⟨received p mine, fun other => (played p other).2 mine, by simp [Receiving.packet]⟩
    · obtain ⟨used, other, -⟩ := queued p old
      exact ⟨used, other, by simp [Receiving.packet]⟩
  · intro p other
    exact ⟨(played p other).1, by simp [Receiving.packet]⟩
  · rintro p ⟨⟩

theorem packets_step (s after : State Node) (cells : List Node) (did : Did s after)
    (packets : Packets s cells) : ∃ more, Packets after more := by
  cases did with
  | @empty queue here took =>
      obtain ⟨rfl, rfl⟩ := rtpqdequeue_none s.queue queue cells packets.held took
      exact ⟨[], packets_kept packets rfl rfl (by simp [Playing.packet, here]) rfl⟩
  | dequeued here took => exact dequeued_packets took packets
  | played here => exact ⟨cells, played_packets (by rw [here, Playing.packet]) packets⟩
  | postponed here put => exact postponed_packets (by rw [here, Playing.packet]) put packets
  | received here unused => exact ⟨cells, received_packets _ _ unused packets⟩
  | inserted here put => exact inserted_packets (by rw [here, Receiving.packet]) put packets
  | signals here =>
      have same : s.player.signalled.packet = s.player.packet := by cases s.player <;> rfl
      exact ⟨cells, packets_kept packets rfl rfl same (by simp [Receiving.packet, here])⟩
  | lock here | stillBuffering here | buffered here | waits here | woke here | early here =>
      exact ⟨cells, packets_kept packets rfl rfl (by simp [Playing.packet, here]) rfl⟩
  | calls here | returns here | locked here | reads here | skips here | spans here | decides here
  | unlocks here =>
      exact ⟨cells, packets_kept packets rfl rfl rfl (by simp [Receiving.packet, here])⟩

/-! The player sleeps without a time-out only while there is nothing to play. -/

def Playing.Asleep : Playing Node → Prop
  | .waiting timed | .blocked timed => timed = false
  | .locking | .testing | .dequeuing | .playing _ | .postponing _ => False

def Awake (s : State Node) : Prop :=
  s.player.Asleep → s.stmBuffering = false → s.queue.stmQhead = none ∨ s.receiver.Obliged

omit [DecidableEq Node] [Fintype Node] in
theorem awake_kept {s after : State Node} (awake : Awake s)
    (player : after.player.Asleep → s.player.Asleep)
    (buffering : after.stmBuffering = s.stmBuffering)
    (queue : after.queue.stmQhead = s.queue.stmQhead)
    (receiver : s.receiver.Obliged → after.receiver.Obliged) : Awake after := by
  intro asleep off
  rw [buffering] at off
  rw [queue]
  exact (awake (player asleep) off).imp id receiver

theorem awake_step (s after : State Node) (cells : List Node) (did : Did s after)
    (custody : Custody s) (packets : Packets s cells) (awake : Awake s) : Awake after := by
  cases did with
  | stillBuffering here on =>
      intro _ off
      rw [on] at off
      cases off
  | @empty queue here took =>
      intro _ _
      -- the queue was empty, and what has come since obliges the receiver
      obtain ⟨rfl, rfl⟩ := rtpqdequeue_none s.queue queue cells packets.held took
      exact Or.inl packets.held.ends.1
  | @inserted pln r here put =>
      intro asleep off
      have absent : pln ∉ cells := fun member => (packets.queued pln member).2.2 (by
        rw [here, Receiving.packet])
      obtain ⟨more, stored, sorted, members, head⟩ :=
        rtpqinsert_stored s.queue pln cells r packets.held packets.ordered absent put
      have free : ¬ s.receiver.Obliged := by
        rw [here]
        exact id
      have none_ : s.queue.stmQhead = none := (awake asleep off).resolve_right free
      -- a packet in an empty queue is its head
      obtain rfl : cells = [] := by
        rw [packets.held.ends.1] at none_
        exact List.head?_eq_none_iff.mp none_
      have only : more.head? = some pln := by
        cases more with
        | nil => simpa using (members pln).mpr (Or.inl rfl)
        | cons p more =>
            have same := (members p).mp List.mem_cons_self
            simpa using same
      refine Or.inr ?_
      rw [Receiving.Obliged, head, stored.ends.1, only]
      exact decide_eq_true rfl
  | calls here | locked here | reads here | skips here | spans here | decides here =>
      exact fun _ _ => Or.inr trivial
  | signals here =>
      intro asleep off
      -- the signal has woken the player, who was not on its way to the wait
      have inside : s.receiver.Inside := by
        rw [here]
        trivial
      have outside : ¬ s.player.Inside := fun other => custody_apart custody other inside
      cases player : s.player with
      | waiting timed =>
          rw [player] at outside
          exact absurd trivial outside
      | _ => simp [player, Playing.signalled, Playing.Asleep] at asleep
  | dequeued here | postponed here =>
      intro asleep
      simp [Playing.Asleep] at asleep
  | lock here | buffered here | played here | early here | waits here | woke here =>
      exact awake_kept awake (by simp [Playing.Asleep, here]) rfl rfl id
  | received here | returns here | unlocks here =>
      exact awake_kept awake id rfl rfl (by simp [Receiving.Obliged, here])

structure Invariant (s : State Node) : Prop where
  custody : Custody s
  packets : ∃ cells, Packets s cells
  awake : Awake s

theorem invariant_start (s : State Node) (first : (machine Node).start s) : Invariant s := by
  obtain ⟨head, tail, free, buffering, rmutex, player, receiver⟩ := first
  refine ⟨⟨?_, ?_⟩, ⟨[], ?_, List.Pairwise.nil, ?_, ?_, ?_⟩, ?_⟩
  · simp [player, rmutex, Playing.Inside]
  · simp [receiver, rmutex, Receiving.Inside]
  · rw [Holds, head, tail]
    exact DoublyLinked.linked_nil _ _
  · simp
  · simp [player, Playing.packet]
  · simp [receiver, Receiving.packet]
  · intro _ off
    rw [buffering] at off
    cases off

theorem invariant_step (e : Transition (State Node) (Action Node) Unit)
    (stepped : (machine Node).Stepped e) (invariant : Invariant e.before) : Invariant e.after := by
  obtain ⟨after, stepped, same⟩ := Option.map_eq_some_iff.mp stepped
  obtain rfl : after = e.after := congrArg Prod.fst same
  have did := step_did e.before e.after e.action stepped
  obtain ⟨custody, ⟨cells, packets⟩, awake⟩ := invariant
  exact ⟨custody_step e.before e.after did custody,
    packets_step e.before e.after cells did packets,
    awake_step e.before e.after cells did custody packets awake⟩

theorem invariant_run {trace : List (Transition (State Node) (Action Node) Unit)}
    {s : State Node} (run : (machine Node).Run trace s) : Invariant s :=
  run.invariant invariant_start invariant_step

theorem threads_run {trace : List (Transition (State Node) (Action Node) Unit)}
    {s : State Node} (run : (machine Node).Run trace s) (mnow : UInt32) :
    (playaudioStep s mnow = none →
      (∃ timed, s.player = .blocked timed) ∨ (s.player = .locking ∧ s.stmRmutex ≠ none)) ∧
    (rtprecvStep s = none →
      s.receiver = .receiving ∨ (s.receiver = .calling ∧ s.stmRmutex ≠ none)) := by
  obtain ⟨cells, packets⟩ := (invariant_run run).packets
  -- rtpqinsert answers on a queue that is held, if the packet is in none of its cells
  have inserts (pln : Node) (absent : pln ∉ cells) : rtpqinsert s.queue pln ≠ none := by
    obtain ⟨after, called, -⟩ :=
      rtpqinsert_held s.queue pln cells packets.held packets.ordered absent
    simp [called]
  constructor
  · intro refused
    cases here : s.player with
    | locking => simpa [playaudioStep, here] using refused
    | postponing pln =>
        have absent : pln ∉ cells := fun member => (packets.queued pln member).2.1 (by
          rw [here, Playing.packet])
        simp [playaudioStep, here, inserts pln absent] at refused
    | blocked timed => exact Or.inl ⟨timed, rfl⟩
    | dequeuing =>
        simp only [playaudioStep, here] at refused
        split at refused <;> cases refused
    | playing pln =>
        simp only [playaudioStep, here] at refused
        split at refused <;> cases refused
    | testing | waiting timed => simp [playaudioStep, here] at refused
  · intro refused
    cases here : s.receiver with
    | receiving => exact Or.inl rfl
    | inserting pln =>
        have absent : pln ∉ cells := fun member => (packets.queued pln member).2.2 (by
          rw [here, Receiving.packet])
        simp [rtprecvStep, here, inserts pln absent] at refused
    | calling => simpa [rtprecvStep, here] using refused
    | reading =>
        -- the chain ends, so span finds its last cell
        have ends := packets.held.ends
        cases cells with
        | nil => simp [rtprecvStep, here, span, ends] at refused
        | cons p cells => simp [rtprecvStep, here, span, ends] at refused
    | inserted head | locked | spanning found | signalling | unlocking =>
        simp [rtprecvStep, here] at refused

theorem no_lost_wakeup {trace : List (Transition (State Node) (Action Node) Unit)}
    {s : State Node} (run : (machine Node).Run trace s) :
    ¬ (s.player = .blocked false ∧ s.stmBuffering = false ∧ s.queue.stmQhead ≠ none ∧
      ¬ s.receiver.Obliged) := by
  rintro ⟨blocked, off, some_, free⟩
  have asleep : s.player.Asleep := by rw [blocked, Playing.Asleep]
  rcases (invariant_run run).awake asleep off with none_ | obliged
  · exact some_ none_
  · exact free obliged

/-- Two packets end the buffering; the player finds both late, and sees an empty queue just
before a third one comes. -/
def missed : List (Action Bool) :=
  let rtpnewdata : List (Action Bool) := List.replicate 6 .rtprecv
  let empty (rtpTime : UInt32) : Rtpln := { counted with rlnLen := 12, rtpTime := rtpTime }
  ([.recv false (empty 0) 1, .rtprecv, .rtprecv] : List (Action Bool)) ++ rtpnewdata ++
    ([.recv true (empty 8000) 2, .rtprecv, .rtprecv] : List (Action Bool)) ++ rtpnewdata ++
    List.replicate 9 (Action.playaudio 9000) ++
    ([.recv false (empty 9000) 3, .rtprecv, .playaudio 0] : List (Action Bool))

def first : State Bool :=
  ⟨⟨fun _ => 0, fun _ => none, fun _ => none, none, none⟩, fun _ => counted, fun _ => true,
    true, none, .locking, .receiving⟩

theorem third_obliges : ∃ trace s, (machine Bool).Run trace s ∧
    (s.player = .blocked false ∧ s.stmBuffering = false ∧ s.queue.stmQhead = some false ∧
      s.receiver = .inserted true) ∧
    ¬ (s.player = .blocked false ∧ s.stmBuffering = false ∧ s.queue.stmQhead ≠ none ∧
      ¬ s.receiver.Obliged) := by
  obtain ⟨trace, s, run, check⟩ := Machine.run_of_check (M := machine Bool) (s := first)
    (by simp [machine, first]) missed
    (fun r => decide (r.2.player = .blocked false ∧ r.2.stmBuffering = false ∧
      r.2.queue.stmQhead = some false ∧ r.2.receiver = .inserted true)) (by decide +kernel)
  exact ⟨trace, s, run, of_decide_eq_true check, no_lost_wakeup run⟩

end NetworkProgramming.RtpWakeups
