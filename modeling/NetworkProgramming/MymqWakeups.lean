import NetworkProgramming.MymqRuns

/-!
Wake-ups in the message queue. Senders and receivers wait on one condition, and
it is signalled only when the queue stops being empty or full. As long as every
message that comes in while a receiver is blocked is matched by an awakened
receiver, and every slot that comes free while a sender is blocked by an
awakened sender, nobody is left behind; the code does not see to either.
-/

namespace NetworkProgramming.Mymq

variable {Handle : Type*} [DecidableEq Handle]
variable {Thread : Type*} [Fintype Thread] [DecidableEq Thread]

def receives : Waiter → Bool
  | .send _ => false
  | .receive _ => true

def sends : Waiter → Bool
  | .send _ => true
  | .receive _ => false

def curmsgs (s : State Thread Handle) : Int := s.shared.file.hdr.mqhAttr.mqCurmsgs
def maxmsg (s : State Thread Handle) : Int := s.shared.file.hdr.mqhAttr.mqMaxmsg

def Quiescent (s : State Thread Handle) : Prop := ∀ t w, s.phase t ≠ .waiting .awakened w

def LostWakeup (s : State Thread Handle) : Prop :=
  Quiescent s ∧
    ((∃ t priop, s.phase t = .waiting .blocked (.receive priop)) ∧ 0 < curmsgs s ∨
      (∃ t m, s.phase t = .waiting .blocked (.send m)) ∧ curmsgs s < maxmsg s)

def linking (s : State Thread Handle) : Monitor.Action Thread (Call Handle) Unit → Bool
  | .enter _ call _ => links s.shared call
  | .resume t _ _ => match s.phase t with
      | .waiting .awakened w => linksAgain s.shared w
      | _ => false
  | _ => false

def taking (s : State Thread Handle) : Monitor.Action Thread (Call Handle) Unit → Bool
  | .enter _ call _ => takes s.shared call
  | .resume t _ _ => match s.phase t with
      | .waiting .awakened w => takesAgain s.shared w
      | _ => false
  | _ => false

/-- The step links no message that a blocked receiver is left waiting for: there
are awakened receivers for all of them, or its signal wakes one. -/
def Delivers (e : Step Thread Handle) : Prop :=
  linking e.before e.action = true →
    Monitor.waiters e.before .blocked receives = 0 ∨
    curmsgs e.before < Monitor.waiters e.before .awakened receives ∨
    (Monitor.called e.before.phase e.action.target).any receives = true

/-- The step frees no slot that a blocked sender is left waiting for. -/
def Yields (e : Step Thread Handle) : Prop :=
  taking e.before e.action = true →
    Monitor.waiters e.before .blocked sends = 0 ∨
    maxmsg e.before - curmsgs e.before < Monitor.waiters e.before .awakened sends ∨
    (Monitor.called e.before.phase e.action.target).any sends = true

instance (e : Step Thread Handle) : Decidable (Delivers e) :=
  inferInstanceAs (Decidable (_ → _))

instance (e : Step Thread Handle) : Decidable (Yields e) :=
  inferInstanceAs (Decidable (_ → _))

/-- Behind a blocked thread no message, or no slot, is without an awakened
thread to take it. -/
structure Covered (s : State Thread Handle) : Prop where
  receivers : 0 < Monitor.waiters s .blocked receives →
    curmsgs s ≤ Monitor.waiters s .awakened receives
  senders : 0 < Monitor.waiters s .blocked sends →
    maxmsg s - curmsgs s ≤ Monitor.waiters s .awakened sends

omit [DecidableEq Handle] [DecidableEq Thread] in
theorem quiescent_waiters (s : State Thread Handle) (quiet : Quiescent s)
    (kind : Waiter → Bool) : Monitor.waiters s .awakened kind = 0 := by
  by_contra some_awake
  obtain ⟨t, w, here, _⟩ :=
    (Monitor.waiters_pos s .awakened kind).mp (Nat.pos_of_ne_zero some_awake)
  exact quiet t w here

omit [DecidableEq Handle] [DecidableEq Thread] in
theorem covered_not_lost (s : State Thread Handle) (covered : Covered s) : ¬ LostWakeup s := by
  rintro ⟨quiet, ⟨⟨t, priop, here⟩, stored⟩ | ⟨⟨t, m, here⟩, room⟩⟩
  · have enough := covered.receivers
      ((Monitor.waiters_pos s .blocked receives).mpr ⟨t, _, here, rfl⟩)
    rw [quiescent_waiters s quiet] at enough
    omega
  · have enough := covered.senders
      ((Monitor.waiters_pos s .blocked sends).mpr ⟨t, _, here, rfl⟩)
    rw [quiescent_waiters s quiet] at enough
    omega

structure Tally (s after : State Thread Handle) (t : Thread) (target : Option Thread)
    (p : Phase Unit Waiter) (more : Int) : Prop where
  curmsgs : curmsgs after = curmsgs s + more
  maxmsg : maxmsg after = maxmsg s
  counts : ∀ kind,
    Monitor.waiters after .blocked kind + ((Monitor.called s.phase target).any kind).toNat =
      Monitor.waiters s .blocked kind + (Monitor.atMode .blocked kind p).toNat ∧
    Monitor.waiters after .awakened kind + (Monitor.atMode .awakened kind (s.phase t)).toNat =
      Monitor.waiters s .awakened kind + ((Monitor.called s.phase target).any kind).toNat +
        (Monitor.atMode .awakened kind p).toNat

omit [DecidableEq Handle] in
theorem section_tally (s : State Thread Handle) (sec : MqSection Handle) (t : Thread)
    (target : Option Thread) (phase : Thread → Phase Unit Waiter) (more : Int)
    (running : ∀ w, s.phase t ≠ .waiting .blocked w)
    (woken : Monitor.Woken (fun _ => ()) s.phase sec.wake target phase)
    (single : ∀ c, sec.wake ≠ .broadcast c)
    (count : sec.shared.file.hdr.mqhAttr.mqCurmsgs = curmsgs s + more)
    (most : sec.shared.file.hdr.mqhAttr.mqMaxmsg = maxmsg s) :
    Tally s ⟨sec.shared, Function.update phase t sec.exit.phase⟩ t target sec.exit.phase more :=
  ⟨count, most, fun kind => Monitor.section_counts woken single t running sec.exit.phase kind⟩

inductive Delta (s : State Thread Handle) (t : Thread) (linking taking : Bool) :
    Exit Unit Waiter → Int → Prop where
  | aside (own : ∀ kind, Monitor.atMode .awakened kind (s.phase t) = false) :
      Delta s t linking taking (.leave ()) 0
  | link (does : linking = true)
      (own : Monitor.atMode .awakened receives (s.phase t) = false) :
      Delta s t linking taking (.leave ()) 1
  | take (does : taking = true) (own : Monitor.atMode .awakened sends (s.phase t) = false) :
      Delta s t linking taking (.leave ()) (-1)
  | blockSend (m : Message) (full : maxmsg s ≤ curmsgs s)
      (own : Monitor.atMode .awakened receives (s.phase t) = false) :
      Delta s t linking taking (.wait (.send m)) 0
  | blockReceive (priop : Bool) (empty : curmsgs s = 0)
      (own : Monitor.atMode .awakened sends (s.phase t) = false) :
      Delta s t linking taking (.wait (.receive priop)) 0

structure Counts (s : State Thread Handle) (t : Thread) (linking taking : Bool)
    (sec : MqSection Handle) (more : Int) : Prop where
  delta : Delta s t linking taking sec.exit more
  curmsgs : sec.shared.file.hdr.mqhAttr.mqCurmsgs = curmsgs s + more
  maxmsg : sec.shared.file.hdr.mqhAttr.mqMaxmsg = maxmsg s
  single : ∀ c, sec.wake ≠ .broadcast c

omit [DecidableEq Handle] [Fintype Thread] [DecidableEq Thread] in
theorem send_link_counts (s : State Thread Handle) (t : Thread) (linking taking : Bool)
    (before : Shared Handle) (queue free : List Nat) (m : Message) (sigqueued : Option Sigqueue)
    (beside : Beside s.shared.file before.file) (layout : Layout s.shared.file queue free)
    (room : curmsgs s < maxmsg s)
    (fits : (m.bytes.length : Int) ≤ s.shared.file.hdr.mqhAttr.mqMsgsize) (does : linking = true)
    (own : Monitor.atMode .awakened receives (s.phase t) = false) :
    Counts s t linking taking (sendLink m sigqueued before) 1 := by
  obtain ⟨after, queue', free', linked, _, counted, _⟩ := send_link_links before queue free m
    sigqueued (beside.layout layout) (by rw [beside.attr]; exact room)
    (by rw [beside.attr]; exact fits)
  rw [linked]
  refine ⟨.link does own, ?_, ?_, ?_⟩
  · simp only [counted.attr, beside.attr, curmsgs]
  · simp only [counted.attr, beside.attr, maxmsg]
  · intro c
    dsimp only
    split <;> simp

omit [DecidableEq Handle] [Fintype Thread] [DecidableEq Thread] in
theorem receive_take_counts (s : State Thread Handle) (t : Thread) (linking taking : Bool)
    (before : Shared Handle) (queue free : List Nat) (priop : Bool)
    (beside : Beside s.shared.file before.file) (layout : Layout s.shared.file queue free)
    (present : curmsgs s ≠ 0) (does : taking = true)
    (own : Monitor.atMode .awakened sends (s.phase t) = false) :
    Counts s t linking taking (receiveTake priop before) (-1) := by
  obtain ⟨m, after, rest, free', taken, _, counted, _⟩ := receive_take_takes before queue free
    priop (beside.layout layout) (by rw [beside.attr]; exact present)
  rw [taken]
  refine ⟨.take does own, ?_, ?_, ?_⟩
  · simp only [counted.attr, beside.attr, curmsgs]
  · simp only [counted.attr, beside.attr, maxmsg]
  · intro c
    dsimp only
    split <;> simp

omit [DecidableEq Handle] [Fintype Thread] [DecidableEq Thread] in
theorem enter_counts (s : State Thread Handle) (t : Thread) (op : Op) (linking taking : Bool)
    (sec : MqSection Handle) (queue free : List Nat) (layout : Layout s.shared.file queue free)
    (here : s.phase t = .outside ()) (did : Did s.shared op linking taking sec) :
    ∃ more, Counts s t linking taking sec more := by
  have own : ∀ kind, Monitor.atMode .awakened kind (s.phase t) = false := by
    intro kind
    rw [here]
    rfl
  cases did with
  | aside after reply beside plain =>
      refine ⟨0, .aside own, ?_, ?_, by simp [finish]⟩
      · simp only [finish, beside.attr, curmsgs, Int.add_zero]
      · simp only [finish, beside.attr, maxmsg]
  | send before m sigqueued beside room fits _ does =>
      exact ⟨1, send_link_counts s t linking taking before queue free m sigqueued beside layout
        room fits does (own _)⟩
  | take before maxlen priop beside present _ does =>
      exact ⟨-1, receive_take_counts s t linking taking before queue free priop beside layout
        present does (own _)⟩
  | blockSend m full fits _ =>
      exact ⟨0, .blockSend m full (own _), by simp only [curmsgs, Int.add_zero], rfl, by simp⟩
  | blockReceive before maxlen priop beside empty _ =>
      refine ⟨0, .blockReceive priop empty (own _), ?_, ?_, by simp⟩
      · simp only [beside.attr, curmsgs, Int.add_zero]
      · simp only [beside.attr, maxmsg]

omit [DecidableEq Handle] [Fintype Thread] [DecidableEq Thread] in
theorem resume_counts (s : State Thread Handle) (t : Thread) (w : Waiter)
    (queue free : List Nat) (layout : Layout s.shared.file queue free) (fit : WaitersFit s)
    (here : s.phase t = .waiting .awakened w) :
    ∃ more, Counts s t (linksAgain s.shared w) (takesAgain s.shared w) (resume s.shared w)
      more := by
  cases w with
  | send m =>
      have own : Monitor.atMode .awakened receives (s.phase t) = false := by
        rw [here]
        rfl
      simp only [resume, sendLoop]
      split
      · rename_i full
        exact ⟨0, .blockSend m full own, by simp only [curmsgs, Int.add_zero], rfl, by simp⟩
      · rename_i full
        have room : curmsgs s < maxmsg s := Int.not_le.mp full
        exact ⟨1, send_link_counts s t _ _ s.shared queue free m none (.refl _) layout room
          (fit t .awakened m here) (decide_eq_true room) own⟩
  | receive priop =>
      have own : Monitor.atMode .awakened sends (s.phase t) = false := by
        rw [here]
        rfl
      simp only [resume, receiveLoop]
      split
      · rename_i empty
        exact ⟨0, .blockReceive priop empty own, by simp only [curmsgs, Int.add_zero], rfl, by simp⟩
      · rename_i present
        exact ⟨-1, receive_take_counts s t _ _ _ queue free priop ⟨rfl, rfl, rfl, rfl, rfl⟩ layout
          present (decide_eq_true present) own⟩

omit [DecidableEq Handle] [DecidableEq Thread] in
/-- A section keeps the cover if its links are delivered and its takes yield. -/
theorem tally_covered (s after : State Thread Handle) (t : Thread) (linking taking : Bool)
    (target : Option Thread) (exit : Exit Unit Waiter) (more : Int)
    (delta : Delta s t linking taking exit more)
    (tally : Tally s after t target exit.phase more)
    (delivers : linking = true → Monitor.waiters s .blocked receives = 0 ∨
      curmsgs s < Monitor.waiters s .awakened receives ∨
      (Monitor.called s.phase target).any receives = true)
    (yields : taking = true → Monitor.waiters s .blocked sends = 0 ∨
      maxmsg s - curmsgs s < Monitor.waiters s .awakened sends ∨
      (Monitor.called s.phase target).any sends = true)
    (covered : Covered s) : Covered after := by
  obtain ⟨fewRead, moreRead⟩ := tally.counts receives
  obtain ⟨fewSend, moreSend⟩ := tally.counts sends
  obtain ⟨receivers, senders⟩ := covered
  have count := tally.curmsgs
  have size := tally.maxmsg
  have reader : (Monitor.called s.phase target).any receives = true →
      ((Monitor.called s.phase target).any receives).toNat = 1 := fun any => by rw [any]; rfl
  have writer : (Monitor.called s.phase target).any sends = true →
      ((Monitor.called s.phase target).any sends).toNat = 1 := fun any => by rw [any]; rfl
  have ownReads := Bool.toNat_le (Monitor.atMode .awakened receives (s.phase t))
  have ownSends := Bool.toNat_le (Monitor.atMode .awakened sends (s.phase t))
  cases delta with
  | aside own =>
      simp only [Exit.phase, Monitor.at_mode_outside, own, Bool.toNat_false]
        at fewRead moreRead fewSend moreSend
      constructor <;> omega
  -- one message more: one more receiver is awakened, or there was one to spare
  | link does own =>
      have delivered := (delivers does).imp_right (Or.imp_right reader)
      simp only [Exit.phase, Monitor.at_mode_outside, own, Bool.toNat_false]
        at fewRead moreRead fewSend moreSend
      constructor <;> omega
  -- one message and perhaps one awakened receiver less
  | take does own =>
      have yielded := (yields does).imp_right (Or.imp_right writer)
      simp only [Exit.phase, Monitor.at_mode_outside, own, Bool.toNat_false]
        at fewRead moreRead fewSend moreSend
      constructor <;> omega
  -- who blocks has found the queue full, or empty
  | blockSend m full own =>
      simp only [Exit.phase, Monitor.at_mode_waiting, receives, sends, own, Bool.and_false,
        Bool.and_true, decide_true, reduceCtorEq, decide_false, Bool.toNat_false, Bool.toNat_true]
        at fewRead moreRead fewSend moreSend
      constructor <;> omega
  | blockReceive priop empty own =>
      simp only [Exit.phase, Monitor.at_mode_waiting, receives, sends, own, Bool.and_false,
        Bool.and_true, decide_true, reduceCtorEq, decide_false, Bool.toNat_false, Bool.toNat_true]
        at fewRead moreRead fewSend moreSend
      constructor <;> omega

omit [DecidableEq Handle] in
theorem awoke_covered (s : State Thread Handle) (t : Thread) (w : Waiter)
    (blocked : s.phase t = .waiting .blocked w) (covered : Covered s) :
    Covered ⟨s.shared, Function.update s.phase t (.waiting .awakened w)⟩ := by
  have reads := Monitor.count_awakened_one s.phase t w blocked receives
  have writes := Monitor.count_awakened_one s.phase t w blocked sends
  obtain ⟨receivers, senders⟩ := covered
  simp only [Monitor.waiters] at receivers senders
  constructor
  · simp only [Monitor.waiters, curmsgs] at *
    omega
  · simp only [Monitor.waiters, curmsgs, maxmsg] at *
    omega

theorem step_covered (attr : Option MymqAttr) (e : Step Thread Handle)
    (stepped : (machine attr).Stepped e) (queue free : List Nat)
    (layout : Layout e.before.shared.file queue free) (fit : WaitersFit e.before)
    (delivers : Delivers e) (yields : Yields e) (covered : Covered e.before) :
    Covered e.after := by
  obtain ⟨s, action, output, after⟩ := e
  cases Monitor.step_effect monitor s after action output stepped with
  | @enter t owned call target sec phase here ran woken =>
      simp only [monitor, Option.some.injEq] at ran
      subst sec
      obtain ⟨more, counts⟩ := enter_counts s t _ _ _ _ queue free layout here
        (enter_did s.shared call queue free layout)
      exact tally_covered s _ t _ _ target _ more counts.delta
        (section_tally s _ t target phase more (by simp [here]) woken counts.single
          counts.curmsgs counts.maxmsg) delivers yields covered
  | @resume t w result target phase here woken =>
      obtain ⟨more, counts⟩ := resume_counts s t w queue free layout fit here
      have same : linking s (.resume t result target) = linksAgain s.shared w := by
        simp only [linking, here]
      have alike : taking s (.resume t result target) = takesAgain s.shared w := by
        simp only [taking, here]
      exact tally_covered s _ t _ _ target _ more counts.delta
        (section_tally s _ t target phase more (by simp [here]) woken counts.single
          counts.curmsgs counts.maxmsg) (fun does => delivers (same.trans does))
        (fun does => yields (alike.trans does)) covered
  | cleanup _ ran _ => simp [monitor] at ran
  | spurious here => exact awoke_covered s _ _ here covered
  | cancel _ handled => simp [monitor] at handled

theorem start_covered (attr : Option MymqAttr) (s : State Thread Handle)
    (first : (machine attr).start s) : Covered s := by
  have idle (kind : Waiter → Bool) : Monitor.waiters s .blocked kind = 0 := by
    by_contra some_blocked
    obtain ⟨t, w, here, _⟩ :=
      (Monitor.waiters_pos s .blocked kind).mp (Nat.pos_of_ne_zero some_blocked)
    rw [first.2 t] at here
    cases here
  exact ⟨fun waiting => by rw [idle] at waiting; omega, fun waiting => by
    rw [idle] at waiting; omega⟩

/-- In a run whose steps all deliver what they link and yield what they free
nobody is left blocked who could go on. -/
theorem mymq_no_lost_wakeup (attr : Option MymqAttr) (trace : List (Step Thread Handle))
    (s : State Thread Handle) (run : (machine attr).Run trace s)
    (met : ∀ e ∈ trace, Delivers e ∧ Yields e) : ¬ LostWakeup s := by
  have kept : Kept attr trace s ∧ Covered s :=
    run.history (C := fun e => Delivers e ∧ Yields e)
      (I := fun trace s => Kept attr trace s ∧ Covered s)
      (fun s first => ⟨start_kept attr s first, start_covered attr s first⟩)
      (fun trace e stepped ok held => by
        obtain ⟨queue, free, layout, _⟩ := held.1.stored
        exact ⟨step_kept attr trace e stepped held.1,
          step_covered attr e stepped queue free layout held.1.fit ok.1 ok.2 held.2⟩) met
  exact covered_not_lost s kept.2

/-! Three slots and two blocked receivers: the second message comes in while the
first receiver is awakened but has not run, and nobody is signalled for it. -/

def threeSlots : State (Fin 4) (Fin 1) :=
  ⟨⟨initialized ⟨0, 3, 4, 0⟩, fun _ => ⟨mqiMagic, 0⟩⟩, fun _ => .outside ()⟩

def receiveBlocked : List (Monitor.Action (Fin 4) (Call (Fin 1)) Unit) :=
  [.enter 0 (quietly (.receive 4 true)) none, .enter 1 (quietly (.receive 4 true)) none,
    .enter 2 (quietly (letters 97 5)) (some 0)]

theorem signalled_receiver_served :
    ∃ (trace : List (Step (Fin 4) (Fin 1))) (last : State (Fin 4) (Fin 1)),
      (machine (some ⟨0, 3, 4, 0⟩)).Run trace last ∧ trace.length = 5 ∧ ¬ LostWakeup last := by
  obtain ⟨trace, last, run, checked⟩ := Machine.run_of_check
    (M := machine (some ⟨0, 3, 4, 0⟩)) (s := threeSlots) ⟨rfl, fun _ => rfl⟩
    (receiveBlocked ++ [.resume 0 () none, .enter 3 (quietly (letters 98 7)) (some 1)])
    (fun r => decide (r.1.length = 5 ∧ ∀ e ∈ r.1, Delivers e ∧ Yields e)) (by decide +kernel)
  have met := of_decide_eq_true checked
  exact ⟨trace, last, run, met.1, mymq_no_lost_wakeup _ trace last run met.2⟩

theorem second_message_unannounced :
    ∃ (trace : List (Step (Fin 4) (Fin 1))) (last : State (Fin 4) (Fin 1)),
      (machine (some ⟨0, 3, 4, 0⟩)).Run trace last ∧ LostWakeup last := by
  obtain ⟨trace, last, run, checked⟩ := Machine.run_of_check
    (M := machine (some ⟨0, 3, 4, 0⟩)) (s := threeSlots) ⟨rfl, fun _ => rfl⟩
    (receiveBlocked ++ [.enter 3 (quietly (letters 98 7)) none, .resume 0 () none])
    (fun r => decide ((∀ t, Monitor.atMode .awakened (fun _ => true) (r.2.phase t) = false) ∧
      r.2.phase 1 = .waiting .blocked (.receive true) ∧ 0 < curmsgs r.2)) (by decide +kernel)
  obtain ⟨quiet, blocked, stored⟩ := of_decide_eq_true checked
  refine ⟨trace, last, run, ?_, .inl ⟨⟨1, true, blocked⟩, stored⟩⟩
  intro t w here
  have awake := quiet t
  rw [here] at awake
  cases awake

end NetworkProgramming.Mymq
