import NetworkProgramming.MymqSplice

/-!
Runs of the message queue. Whatever the handles, the calls and the order of
their sections, the file keeps its layout, and what the receivers get is what an
ideal stable priority queue would have given them.
-/

namespace NetworkProgramming.Mymq

variable {Handle : Type*} [DecidableEq Handle]

structure Beside (file after : MappedFile) : Prop where
  attr : after.hdr.mqhAttr = file.hdr.mqhAttr
  head : after.hdr.mqhHead = file.hdr.mqhHead
  free : after.hdr.mqhFree = file.hdr.mqhFree
  msg : after.msg = file.msg
  byte : after.byte = file.byte

theorem Beside.refl (file : MappedFile) : Beside file file := ⟨rfl, rfl, rfl, rfl, rfl⟩

theorem Beside.layout {file after : MappedFile} (beside : Beside file after)
    {queue free : List Nat} (layout : Layout file queue free) : Layout after queue free := by
  obtain ⟨attr, head, unused, msg, byte⟩ := beside
  refine ⟨?_, ?_, attr ▸ layout.shared_out, attr ▸ layout.curmsgs, msg ▸ layout.ordered, ?_,
    attr ▸ layout.maxmsg_pos, attr ▸ layout.msgsize_pos, attr ▸ layout.msgsize_max⟩
  · refine layout.queued.frame none queue ?_ ?_
    · exact head
    · exact fun i _ => by simp only [MappedFile.next, msg]
  · refine layout.unused.frame none free ?_ ?_
    · exact unused
    · exact fun i _ => by simp only [MappedFile.nextFree, msg]
  · rw [msg, attr]
    exact layout.lens

theorem Beside.contents {file after : MappedFile} (beside : Beside file after)
    (queue : List Nat) : contents after queue = contents file queue := by
  apply List.map_congr_left
  intro i _
  simp only [messageAt, beside.msg, beside.byte]

/-- Replies that leave the queue alone, with the calls that get them. -/
inductive Plain (shared after : Shared Handle) : Op → Reply → Prop where
  | failed (op : Op) (error : Errno) (same : after = shared) :
      Plain shared after op (.failed error)
  | notified (pid : Int) (notification : Option Sigevent) (gone : Bool) :
      Plain shared after (.notify pid notification gone) .notified
  | setattr (mqFlags : BitVec 64) (wanted : Bool) (mqstat : Option MymqAttr) :
      Plain shared after (.setattr mqFlags wanted) (.attributes mqstat)
  | getattr (mqstat : Option MymqAttr) : Plain shared after .getattr (.attributes mqstat)

/-! Whether a section links or takes a message shows in the state before it. -/

def admitted (shared : Shared Handle) (call : Call Handle) : Bool :=
  decide ((shared.info call.handle).mqiMagic = mqiMagic ∧ call.locked = none)

def links (shared : Shared Handle) (call : Call Handle) : Bool :=
  let attr := shared.file.hdr.mqhAttr
  match call.op with
  | .send m => admitted shared call &&
      decide (m.bytes.length ≤ sizeT attr.mqMsgsize ∧ attr.mqCurmsgs < attr.mqMaxmsg)
  | _ => false

def takes (shared : Shared Handle) (call : Call Handle) : Bool :=
  let attr := shared.file.hdr.mqhAttr
  match call.op with
  | .receive maxlen _ => admitted shared call &&
      decide (sizeT attr.mqMsgsize ≤ maxlen ∧ attr.mqCurmsgs ≠ 0)
  | _ => false

def linksAgain (shared : Shared Handle) : Waiter → Bool
  | .send _ => decide (shared.file.hdr.mqhAttr.mqCurmsgs < shared.file.hdr.mqhAttr.mqMaxmsg)
  | .receive _ => false

def takesAgain (shared : Shared Handle) : Waiter → Bool
  | .send _ => false
  | .receive _ => decide (shared.file.hdr.mqhAttr.mqCurmsgs ≠ 0)

/-- Everything a section of the call `op` can do. The lists are those of `before`,
where only the registration or the number of waiting receivers may have changed
already. -/
inductive Did (shared : Shared Handle) (op : Op) (linking taking : Bool) :
    MqSection Handle → Prop where
  | aside (after : Shared Handle) (reply : Reply) (beside : Beside shared.file after.file)
      (plain : Plain shared after op reply) : Did shared op linking taking (finish after reply)
  | send (before : Shared Handle) (m : Message) (sigqueued : Option Sigqueue)
      (beside : Beside shared.file before.file)
      (room : shared.file.hdr.mqhAttr.mqCurmsgs < shared.file.hdr.mqhAttr.mqMaxmsg)
      (fits : (m.bytes.length : Int) ≤ shared.file.hdr.mqhAttr.mqMsgsize)
      (asked : op = .send m) (does : linking = true) :
      Did shared op linking taking (sendLink m sigqueued before)
  | take (before : Shared Handle) (maxlen : Nat) (priop : Bool)
      (beside : Beside shared.file before.file)
      (present : shared.file.hdr.mqhAttr.mqCurmsgs ≠ 0)
      (asked : op = .receive maxlen priop) (does : taking = true) :
      Did shared op linking taking (receiveTake priop before)
  | blockSend (m : Message)
      (full : shared.file.hdr.mqhAttr.mqMaxmsg ≤ shared.file.hdr.mqhAttr.mqCurmsgs)
      (fits : (m.bytes.length : Int) ≤ shared.file.hdr.mqhAttr.mqMsgsize)
      (asked : op = .send m) :
      Did shared op linking taking ⟨shared, .quiet, ⟨.waits, none⟩, .wait (.send m)⟩
  | blockReceive (before : Shared Handle) (maxlen : Nat) (priop : Bool)
      (beside : Beside shared.file before.file)
      (empty : shared.file.hdr.mqhAttr.mqCurmsgs = 0) (asked : op = .receive maxlen priop) :
      Did shared op linking taking ⟨before, .quiet, ⟨.waits, none⟩, .wait (.receive priop)⟩

inductive Waits : Op → Waiter → Prop where
  | send (m : Message) : Waits (.send m) (.send m)
  | receive (maxlen : Nat) (priop : Bool) : Waits (.receive maxlen priop) (.receive priop)

omit [DecidableEq Handle] in
theorem send_loop_did (shared : Shared Handle) (m : Message)
    (fits : (m.bytes.length : Int) ≤ shared.file.hdr.mqhAttr.mqMsgsize) :
    Did shared (.send m) (linksAgain shared (.send m)) false (sendLoop m shared) := by
  simp only [sendLoop]
  split
  · rename_i full
    exact .blockSend m full fits rfl
  · rename_i room
    exact .send shared m none (.refl _) (by omega) fits rfl (decide_eq_true (by omega))

omit [DecidableEq Handle] in
theorem receive_loop_did (shared before : Shared Handle) (maxlen : Nat) (priop : Bool)
    (beside : Beside shared.file before.file) :
    Did shared (.receive maxlen priop) false (takesAgain shared (.receive priop))
      (receiveLoop priop before) := by
  simp only [receiveLoop]
  split
  · rename_i empty
    exact .blockReceive before maxlen priop beside (beside.attr ▸ empty) rfl
  · rename_i some_there
    have present : shared.file.hdr.mqhAttr.mqCurmsgs ≠ 0 := beside.attr ▸ some_there
    exact .take _ maxlen priop ⟨beside.attr, beside.head, beside.free, beside.msg, beside.byte⟩
      present rfl (decide_eq_true present)

omit [DecidableEq Handle] in
theorem with_lock_did (call : Call Handle) (shared : Shared Handle) (body : MqSection Handle)
    (linking taking : Bool)
    (did : admitted shared call = true → Did shared call.op linking taking body) :
    Did shared call.op linking taking (withLock call.handle call.locked shared body) := by
  obtain ⟨handle, locked, op⟩ := call
  by_cases opened : (shared.info handle).mqiMagic = mqiMagic
  · cases locked with
    | none =>
        simp only [withLock, if_neg (not_not.mpr opened)]
        exact did (decide_eq_true ⟨opened, rfl⟩)
    | some n =>
        simp only [withLock, if_neg (not_not.mpr opened)]
        exact .aside shared _ (.refl _) (.failed _ _ rfl)
  · simp only [withLock, if_pos opened]
    exact .aside shared _ (.refl _) (.failed _ _ rfl)

theorem size_t_of_msgsize (n : Int) (positive : 0 < n) (most : n ≤ longMax) :
    (sizeT n : Int) = n := by
  simp only [sizeT, longMax] at *
  omega

omit [DecidableEq Handle] in
theorem notify_registered_beside (shared : Shared Handle) :
    Beside shared.file { shared.file with hdr := (notifyRegistered shared.file.hdr).1 } := by
  simp only [notifyRegistered]
  split <;> exact ⟨rfl, rfl, rfl, rfl, rfl⟩

omit [DecidableEq Handle] in
theorem send_did (shared : Shared Handle) (handle : Handle) (locked : Option Errno) (m : Message)
    (queue free : List Nat) (layout : Layout shared.file queue free) :
    Did shared (.send m) (links shared ⟨handle, locked, .send m⟩) false
      (mymqSend handle locked m shared) := by
  have size := size_t_of_msgsize _ layout.msgsize_pos layout.msgsize_max
  have positive := layout.maxmsg_pos
  apply with_lock_did ⟨handle, locked, .send m⟩ shared
  intro admission
  dsimp only
  split
  · exact .aside shared _ (.refl _) (.failed _ _ rfl)
  · rename_i small
    have fits : (m.bytes.length : Int) ≤ shared.file.hdr.mqhAttr.mqMsgsize := by omega
    have linking (room : shared.file.hdr.mqhAttr.mqCurmsgs < shared.file.hdr.mqhAttr.mqMaxmsg) :
        links shared ⟨handle, locked, .send m⟩ = true := by
      simp only [links, admission, Bool.true_and, decide_eq_true_eq]
      exact ⟨by omega, room⟩
    split
    · rename_i empty
      exact .send _ m _ (notify_registered_beside shared) (by omega) fits rfl
        (linking (by omega))
    · split
      · rename_i full
        split
        · exact .aside shared _ (.refl _) (.failed _ _ rfl)
        · rw [sendLoop, if_pos full]
          exact .blockSend m full fits rfl
      · exact .send shared m none (.refl _) (by omega) fits rfl (linking (by omega))

omit [DecidableEq Handle] in
theorem receive_did (shared : Shared Handle) (handle : Handle) (locked : Option Errno)
    (maxlen : Nat) (priop : Bool) :
    Did shared (.receive maxlen priop) false
      (takes shared ⟨handle, locked, .receive maxlen priop⟩)
      (mymqReceive handle locked maxlen priop shared) := by
  apply with_lock_did ⟨handle, locked, .receive maxlen priop⟩ shared
  intro admission
  dsimp only
  split
  · exact .aside shared _ (.refl _) (.failed _ _ rfl)
  · rename_i large
    split
    · rename_i empty
      split
      · exact .aside shared _ (.refl _) (.failed _ _ rfl)
      · have stillEmpty : (shared.file.addNwait 1).hdr.mqhAttr.mqCurmsgs = 0 := empty
        rw [receiveLoop, if_pos stillEmpty]
        exact .blockReceive _ maxlen priop ⟨rfl, rfl, rfl, rfl, rfl⟩ empty rfl
    · rename_i present
      refine .take shared maxlen priop (.refl _) present rfl ?_
      simp only [takes, admission, Bool.true_and, decide_eq_true_eq]
      exact ⟨by omega, present⟩

omit [DecidableEq Handle] in
theorem notify_did (shared : Shared Handle) (handle : Handle) (locked : Option Errno) (pid : Int)
    (notification : Option Sigevent) (gone : Bool) :
    Did shared (.notify pid notification gone) false false
      (mymqNotify handle locked pid notification gone shared) := by
  apply with_lock_did ⟨handle, locked, .notify pid notification gone⟩ shared
  intro _
  cases notification with
  | none =>
      dsimp only
      split <;> exact .aside _ _ ⟨rfl, rfl, rfl, rfl, rfl⟩ (.notified _ _ _)
  | some event =>
      dsimp only
      split
      · exact .aside shared _ (.refl _) (.failed _ _ rfl)
      · exact .aside _ _ ⟨rfl, rfl, rfl, rfl, rfl⟩ (.notified _ _ _)

theorem enter_did (shared : Shared Handle) (call : Call Handle) (queue free : List Nat)
    (layout : Layout shared.file queue free) :
    Did shared call.op (links shared call) (takes shared call) (enter shared call) := by
  obtain ⟨handle, locked, op⟩ := call
  cases op with
  | send m => exact send_did shared handle locked m queue free layout
  | receive maxlen priop => exact receive_did shared handle locked maxlen priop
  | notify pid notification gone => exact notify_did shared handle locked pid notification gone
  | setattr mqFlags wanted =>
      apply with_lock_did ⟨handle, locked, .setattr mqFlags wanted⟩ shared
      intro _
      exact .aside _ _ (.refl _) (.setattr _ _ _)
  | getattr =>
      apply with_lock_did ⟨handle, locked, .getattr⟩ shared
      intro _
      exact .aside _ _ (.refl _) (.getattr _)

omit [DecidableEq Handle] in
theorem resume_did (shared : Shared Handle) (op : Op) (w : Waiter) (asked : Waits op w)
    (fits : ∀ m, w = .send m → (m.bytes.length : Int) ≤ shared.file.hdr.mqhAttr.mqMsgsize) :
    Did shared op (linksAgain shared w) (takesAgain shared w) (resume shared w) := by
  cases asked with
  | send m => exact send_loop_did shared m (fits m rfl)
  | receive maxlen priop => exact receive_loop_did shared shared maxlen priop (.refl _)

inductive Exchange (stored : List Message) : Op → Reply → List Message → Prop where
  | sent (m : Message) :
      Exchange stored (.send m) .sent (StablePriority.insert Message.rank stored m)
  | received (m : Message) (rest : List Message) (maxlen : Nat) (priop : Bool)
      (first : stored = m :: rest) :
      Exchange stored (.receive maxlen priop) (receipt priop m) rest
  | failed (op : Op) (error : Errno) : Exchange stored op (.failed error) stored
  | notified (pid : Int) (notification : Option Sigevent) (gone : Bool) :
      Exchange stored (.notify pid notification gone) .notified stored
  | setattr (mqFlags : BitVec 64) (wanted : Bool) (mqstat : Option MymqAttr) :
      Exchange stored (.setattr mqFlags wanted) (.attributes mqstat) stored
  | getattr (mqstat : Option MymqAttr) : Exchange stored .getattr (.attributes mqstat) stored
  | waits (op : Op) : Exchange stored op .waits stored

structure Exchanged (shared : Shared Handle) (op : Op) (queue : List Nat)
    (sec : MqSection Handle) (queue' free' : List Nat) : Prop where
  layout : Layout sec.shared.file queue' free'
  exchange : Exchange (contents shared.file queue) op sec.output.reply
    (contents sec.shared.file queue')
  asked : ∀ w, sec.exit = .wait w → Waits op w
  maxmsg : sec.shared.file.hdr.mqhAttr.mqMaxmsg = shared.file.hdr.mqhAttr.mqMaxmsg
  msgsize : sec.shared.file.hdr.mqhAttr.mqMsgsize = shared.file.hdr.mqhAttr.mqMsgsize
  failed : ∀ error, sec.output.reply = .failed error → sec.shared = shared
  waits : ∀ m, sec.exit = .wait (.send m) →
    (m.bytes.length : Int) ≤ shared.file.hdr.mqhAttr.mqMsgsize

omit [DecidableEq Handle] in
theorem did_exchanged (shared : Shared Handle) (op : Op) (sec : MqSection Handle)
    (queue free : List Nat) (layout : Layout shared.file queue free) (linking taking : Bool)
    (did : Did shared op linking taking sec) :
    ∃ queue' free', Exchanged shared op queue sec queue' free' := by
  cases did with
  | aside after reply beside plain =>
      refine ⟨queue, free, beside.layout layout, ?_, by simp [finish],
        by simp only [finish, beside.attr], by simp only [finish, beside.attr], ?_,
        by simp [finish]⟩
      -- a call that only looks at the queue, or fails, leaves the messages alone
      · simp only [finish, beside.contents]
        cases plain with
        | failed op error same => exact .failed op error
        | notified pid notification gone => exact .notified pid notification gone
        | setattr mqFlags wanted mqstat => exact .setattr mqFlags wanted mqstat
        | getattr mqstat => exact .getattr mqstat
      · intro error failing
        cases plain with
        | failed op error same => exact same
        | notified pid notification gone => cases failing
        | setattr mqFlags wanted mqstat => cases failing
        | getattr mqstat => cases failing
  | send before m sigqueued beside room fits asked _ =>
      -- the message of the call is linked in behind those of its priority
      obtain ⟨after, queue', free', links, kept, counted, inserted⟩ :=
        send_link_links before queue free m sigqueued (beside.layout layout)
          (by rw [beside.attr]; exact room) (by rw [beside.attr]; exact fits)
      rw [links]
      subst op
      refine ⟨queue', free', kept, ?_, by simp, by simp only [counted.attr, beside.attr],
        by simp only [counted.attr, beside.attr], by simp, by simp⟩
      simp only [inserted, beside.contents]
      exact .sent m
  | take before maxlen priop beside present asked _ =>
      -- the first message is the oldest of the highest priority
      obtain ⟨m, after, rest, free', takes, kept, counted, taken⟩ :=
        receive_take_takes before queue free priop (beside.layout layout)
          (by rw [beside.attr]; exact present)
      rw [takes]
      subst op
      refine ⟨rest, free', kept, ?_, by simp, by simp only [counted.attr, beside.attr],
        by simp only [counted.attr, beside.attr], by simp [receipt], by simp⟩
      rw [beside.contents] at taken
      exact .received m _ maxlen priop taken
  | blockSend m full fits asked =>
      subst op
      refine ⟨queue, free, layout, .waits _, ?_, rfl, rfl, by simp, ?_⟩
      · intro w same
        cases same
        exact .send m
      · intro other same
        cases same
        exact fits
  | blockReceive before maxlen priop beside empty asked =>
      subst op
      refine ⟨queue, free, beside.layout layout, ?_, ?_, by simp only [beside.attr],
        by simp only [beside.attr], by simp, by simp⟩
      · simp only [beside.contents]
        exact .waits _
      · intro w same
        cases same
        exact .receive maxlen priop

section Runs
variable {Thread : Type*} [Fintype Thread] [DecidableEq Thread]

def WaitersFit (s : State Thread Handle) : Prop :=
  ∀ t mode m, s.phase t = .waiting mode (.send m) →
    (m.bytes.length : Int) ≤ s.shared.file.hdr.mqhAttr.mqMsgsize

/-! What was asked for: the calls as the threads made them. -/

def made (asked : Thread → Option Op) :
    Monitor.Action Thread (Call Handle) Unit → Thread → Option Op
  | .enter t call _ => Function.update asked t (some call.op)
  | _ => asked

def Recorded (asked : Thread → Option Op) (s : State Thread Handle) : Prop :=
  ∀ t mode w, s.phase t = .waiting mode w → ∃ op, asked t = some op ∧ Waits op w

omit [DecidableEq Handle] [Fintype Thread] in
theorem made_other (asked : Thread → Option Op)
    (action : Monitor.Action Thread (Call Handle) Unit) (u : Thread) (other : u ≠ action.thread) :
    made asked action u = asked u := by
  cases action with
  | enter t call target => exact Function.update_of_ne other _ _
  | resume t result target => rfl
  | cleanup t target => rfl
  | spurious t => rfl
  | cancel t => rfl

/-- A step is a section of the call of a thread that was not blocked, or takes a
blocked thread out of the wait queue. -/
inductive Moved (s : State Thread Handle) (asked : Thread → Option Op)
    (action : Monitor.Action Thread (Call Handle) Unit) :
    State Thread Handle → Option Output → Prop where
  | ran {t : Thread} {op : Op} {sec : MqSection Handle} {target : Option Thread}
      {phase : Thread → Phase Unit Waiter} {linking taking : Bool} (mover : action.thread = t)
      (found : made asked action t = some op) (did : Did s.shared op linking taking sec)
      (running : ∀ w, s.phase t ≠ .waiting .blocked w)
      (woken : Monitor.Woken (fun _ => ()) s.phase sec.wake target phase) :
      Moved s asked action ⟨sec.shared, Function.update phase t sec.exit.phase⟩
        (some sec.output)
  | awoke {t : Thread} {w : Waiter} (same : made asked action = asked)
      (blocked : s.phase t = .waiting .blocked w) :
      Moved s asked action ⟨s.shared, Function.update s.phase t (.waiting .awakened w)⟩ none

theorem step_moved (attr : Option MymqAttr) (e : Step Thread Handle)
    (stepped : (machine attr).Stepped e) (queue free : List Nat)
    (layout : Layout e.before.shared.file queue free) (fit : WaitersFit e.before)
    (asked : Thread → Option Op) (recorded : Recorded asked e.before) :
    Moved e.before asked e.action e.after e.output := by
  obtain ⟨s, action, output, after⟩ := e
  cases Monitor.step_effect monitor s after action output stepped with
  | @enter t owned call target sec phase here ran woken =>
      simp only [monitor, Option.some.injEq] at ran
      subst sec
      exact .ran rfl (Function.update_self _ _ _) (enter_did s.shared call queue free layout)
        (by simp [here]) woken
  | @resume t w result target phase here woken =>
      obtain ⟨op, found, waits⟩ := recorded t .awakened w here
      exact .ran rfl found
        (resume_did s.shared op w waits fun m same => fit t .awakened m (same ▸ here))
        (by simp [here]) woken
  | cleanup _ ran _ => simp [monitor] at ran
  | spurious here => exact .awoke rfl here
  | cancel _ handled => simp [monitor] at handled

omit [DecidableEq Handle] [Fintype Thread] in
theorem moved_fit (s after : State Thread Handle) (asked : Thread → Option Op)
    (action : Monitor.Action Thread (Call Handle) Unit) (output : Option Output)
    (queue free : List Nat) (layout : Layout s.shared.file queue free)
    (moved : Moved s asked action after output) (fit : WaitersFit s) : WaitersFit after := by
  intro u mode m waiting
  cases moved with
  | @ran t op sec target phase _ _ _ _ did running woken =>
      obtain ⟨queue', free', exchanged⟩ := did_exchanged s.shared op sec queue free layout _ _ did
      simp only [exchanged.msgsize]
      rcases Monitor.section_waiting woken t _ u mode _ waiting with here | ⟨before, earlier⟩
      · cases exit : sec.exit with
        | leave owned => rw [exit] at here; cases here
        | wait w =>
            rw [exit] at here
            cases here
            exact exchanged.waits m exit
      · exact fit u before m earlier
  | @awoke t w _ blocked =>
      by_cases same : u = t
      · subst u
        simp only [Function.update_self, Phase.waiting.injEq] at waiting
        exact fit t .blocked m (waiting.2 ▸ blocked)
      · simp only [Function.update_of_ne same] at waiting
        exact fit u mode m waiting

omit [DecidableEq Handle] [Fintype Thread] in
theorem moved_recorded (s after : State Thread Handle) (asked : Thread → Option Op)
    (action : Monitor.Action Thread (Call Handle) Unit) (output : Option Output)
    (queue free : List Nat) (layout : Layout s.shared.file queue free)
    (moved : Moved s asked action after output) (recorded : Recorded asked s) :
    Recorded (made asked action) after := by
  intro u mode w waiting
  cases moved with
  | @ran t op sec target phase _ _ mover found did running woken =>
      obtain ⟨queue', free', exchanged⟩ := did_exchanged s.shared op sec queue free layout _ _ did
      by_cases own : u = t
      -- the mover waits in the call whose section it is
      · subst u
        refine ⟨op, found, exchanged.asked w ?_⟩
        simp only [Function.update_self] at waiting
        cases exit : sec.exit with
        | leave owned => rw [exit] at waiting; cases waiting
        | wait w' =>
            rw [exit] at waiting
            cases waiting
            rfl
      · rw [made_other asked action u (mover ▸ own)]
        simp only [Function.update_of_ne own] at waiting
        rcases Monitor.woken_each woken u with same | ⟨call, before, awake⟩
        · exact recorded u mode w (same ▸ waiting)
        · rw [awake] at waiting
          cases waiting
          exact recorded u .blocked w before
  | @awoke t w' same blocked =>
      rw [same]
      by_cases own : u = t
      · subst u
        simp only [Function.update_self, Phase.waiting.injEq] at waiting
        exact recorded t .blocked w (waiting.2 ▸ blocked)
      · simp only [Function.update_of_ne own] at waiting
        exact recorded u mode w waiting

/-! ### The ideal queue -/

/-- The call that each thread made last, and the calls that have returned without
an error, in the order of their last sections. -/
structure History (Thread : Type*) where
  asked : Thread → Option Op
  done : List Op

def succeeded : Reply → Bool
  | .sent => true
  | .received _ _ _ => true
  | .notified => true
  | .attributes _ => true
  | _ => false

def History.next (h : History Thread) (e : Step Thread Handle) : History Thread :=
  { asked := made h.asked e.action
    done := if e.output.any fun output => succeeded output.reply then
        h.done ++ (made h.asked e.action e.action.thread).toList
      else h.done }

def history (trace : List (Step Thread Handle)) : History Thread :=
  trace.foldl History.next ⟨fun _ => none, []⟩

/-- What the receivers got so far, and the messages left, in order of arrival. -/
def idealStep (r : List Reply × List Message) : Op → List Reply × List Message
  | .send m => (r.1, r.2 ++ [m])
  | .receive _ priop =>
      match StablePriority.oldest Message.rank r.2 with
      | none => r
      | some m => (r.1 ++ [receipt priop m], r.2.erase m)
  | _ => r

/-- The ideal queue is told the successful calls, as they were made, and nothing
of what they answered. -/
def ideal (trace : List (Step Thread Handle)) : List Reply × List Message :=
  (history trace).done.foldl idealStep ([], [])

def isReceipt : Reply → Bool
  | .received _ _ _ => true
  | _ => false

def receipts (trace : List (Step Thread Handle)) : List Reply :=
  (trace.filterMap fun e => e.output.map Output.reply).filter isReceipt

omit [DecidableEq Handle] [Fintype Thread] in
theorem history_snoc (trace : List (Step Thread Handle)) (e : Step Thread Handle) :
    history (trace ++ [e]) = (history trace).next e := by
  rw [history, List.foldl_append]
  rfl

omit [DecidableEq Handle] [Fintype Thread] [DecidableEq Thread] in
theorem receipts_snoc (trace : List (Step Thread Handle)) (e : Step Thread Handle) :
    receipts (trace ++ [e]) =
      receipts trace ++ (e.output.map Output.reply).toList.filter isReceipt := by
  cases output : e.output <;> simp [receipts, output]

theorem exchange_ideal (stored after : List Message) (op : Op) (reply : Reply) (got : List Reply)
    (messages : List Message) (exchange : Exchange stored op reply after)
    (represents : StablePriority.Represents Message.rank stored messages) :
    ((if succeeded reply then [op] else []).foldl idealStep (got, messages)).1 =
      got ++ [reply].filter isReceipt ∧
    StablePriority.Represents Message.rank after
      ((if succeeded reply then [op] else []).foldl idealStep (got, messages)).2 := by
  cases exchange with
  | sent m =>
      refine ⟨(List.append_nil got).symm, ?_⟩
      exact StablePriority.represents_insert Message.rank stored messages m represents
  | received m rest maxlen priop first =>
      subst stored
      have oldest := StablePriority.represents_oldest Message.rank m after messages represents
      have step : idealStep (got, messages) (.receive maxlen priop) =
          (got ++ [receipt priop m], messages.erase m) := by
        simp [idealStep, oldest]
      have does : (if succeeded (receipt priop m) then [Op.receive maxlen priop] else []) =
          [.receive maxlen priop] := rfl
      rw [does, List.foldl_cons, List.foldl_nil, step]
      exact ⟨rfl, StablePriority.represents_remove Message.rank m after messages represents⟩
  | failed op error => exact ⟨(List.append_nil got).symm, represents⟩
  | notified pid notification gone => exact ⟨(List.append_nil got).symm, represents⟩
  | setattr mqFlags wanted mqstat => exact ⟨(List.append_nil got).symm, represents⟩
  | getattr mqstat => exact ⟨(List.append_nil got).symm, represents⟩
  | waits op => exact ⟨(List.append_nil got).symm, represents⟩

structure Kept (attr : Option MymqAttr) (trace : List (Step Thread Handle))
    (s : State Thread Handle) : Prop where
  stored : ∃ queue free, Layout s.shared.file queue free ∧
    StablePriority.Represents Message.rank (contents s.shared.file queue) (ideal trace).2
  receipts : receipts trace = (ideal trace).1
  recorded : Recorded (history trace).asked s
  fit : WaitersFit s
  maxmsg : s.shared.file.hdr.mqhAttr.mqMaxmsg = (attr.getD defattr).mqMaxmsg
  msgsize : s.shared.file.hdr.mqhAttr.mqMsgsize = (attr.getD defattr).mqMsgsize

theorem start_kept (attr : Option MymqAttr) (s : State Thread Handle)
    (first : (machine attr).start s) : Kept attr [] s := by
  obtain ⟨opened, idle⟩ := first
  have created := (mymq_open_created attr s.shared.file opened).1
  refine ⟨⟨[], _, mymq_open_layout attr _ opened, StablePriority.represents_nil _⟩, rfl, ?_, ?_,
    by rw [created]; rfl, by rw [created]; rfl⟩
  · intro t mode w waiting
    rw [idle t] at waiting
    cases waiting
  · intro t mode m waiting
    rw [idle t] at waiting
    cases waiting

omit [DecidableEq Handle] [Fintype Thread] in
theorem ideal_ran (trace : List (Step Thread Handle)) (e : Step Thread Handle) (op : Op)
    (output : Output) (found : made (history trace).asked e.action e.action.thread = some op)
    (out : e.output = some output) :
    ideal (trace ++ [e]) =
      (if succeeded output.reply then [op] else []).foldl idealStep (ideal trace) := by
  rw [ideal, history_snoc, History.next, out, found, ideal]
  cases ended : succeeded output.reply <;> simp [ended]

omit [DecidableEq Handle] [Fintype Thread] in
theorem ideal_silent (trace : List (Step Thread Handle)) (e : Step Thread Handle)
    (silent : e.output = none) : ideal (trace ++ [e]) = ideal trace := by
  rw [ideal, history_snoc, History.next, silent, ideal]
  rfl

theorem step_kept (attr : Option MymqAttr) (trace : List (Step Thread Handle))
    (e : Step Thread Handle) (stepped : (machine attr).Stepped e)
    (kept : Kept attr trace e.before) : Kept attr (trace ++ [e]) e.after := by
  obtain ⟨⟨queue, free, layout, represents⟩, got, recorded, fit, maxmsg, msgsize⟩ := kept
  obtain ⟨s, action, output, after⟩ := e
  have moved : Moved s (history trace).asked action after output :=
    step_moved attr ⟨s, action, output, after⟩ stepped queue free layout fit _ recorded
  have fitting := moved_fit s after _ action output queue free layout moved fit
  have recording : Recorded (history (trace ++ [⟨s, action, output, after⟩])).asked after := by
    rw [history_snoc]
    exact moved_recorded s after _ action output queue free layout moved recorded
  cases moved with
  | @ran t op sec target phase _ _ mover found did running woken =>
      subst t
      obtain ⟨queue', free', exchanged⟩ := did_exchanged s.shared op sec queue free layout _ _ did
      obtain ⟨received, left⟩ := exchange_ideal _ _ op _ (ideal trace).1 _ exchanged.exchange
        represents
      have more := ideal_ran trace ⟨s, action, some sec.output,
        ⟨sec.shared, Function.update phase action.thread sec.exit.phase⟩⟩ op sec.output found rfl
      refine ⟨⟨queue', free', exchanged.layout, by rw [more]; exact left⟩, ?_, recording, fitting,
        exchanged.maxmsg.trans maxmsg, exchanged.msgsize.trans msgsize⟩
      rw [more, received, receipts_snoc, got]
      rfl
  | awoke _ blocked =>
      refine ⟨⟨queue, free, layout, ?_⟩, ?_, recording, fitting, maxmsg, msgsize⟩
      · rw [ideal_silent trace _ rfl]
        exact represents
      · rw [ideal_silent trace _ rfl, receipts_snoc, got]
        exact List.append_nil _

theorem run_kept (attr : Option MymqAttr) (trace : List (Step Thread Handle))
    (s : State Thread Handle) (run : (machine attr).Run trace s) : Kept attr trace s :=
  run.history (C := fun _ => True) (start_kept attr)
    (fun trace e stepped _ => step_kept attr trace e stepped) fun _ _ => trivial

theorem step_reply (attr : Option MymqAttr) (trace : List (Step Thread Handle))
    (e : Step Thread Handle) (run : (machine attr).Run trace e.before)
    (stepped : (machine attr).Stepped e) (output : Output) (some_output : e.output = some output) :
    output.reply ≠ .dumps ∧ output.reply ≠ .loops ∧
      ∀ error, output.reply = .failed error → e.after.shared = e.before.shared := by
  obtain ⟨⟨queue, free, layout, _⟩, _, recorded, fit, _, _⟩ := run_kept attr trace e.before run
  obtain ⟨s, action, result, after⟩ := e
  have moved := step_moved attr ⟨s, action, result, after⟩ stepped queue free layout fit _ recorded
  dsimp only at moved
  cases moved with
  | @ran t op sec target phase _ _ _ _ did running woken =>
      obtain ⟨queue', free', exchanged⟩ := did_exchanged s.shared op sec queue free layout _ _ did
      simp only [Option.some.injEq] at some_output
      subst output
      refine ⟨?_, ?_, exchanged.failed⟩
      · intro dumps
        have exchange := exchanged.exchange
        rw [dumps] at exchange
        cases exchange
      · intro loops
        have exchange := exchanged.exchange
        rw [loops] at exchange
        cases exchange
  | awoke _ blocked => cases some_output

/-- The representation invariant: the two lists run to 0 and share out the slots
that `mymq_open` laid out, which do not overlap, and no run gets to an `err_dump`
or to a search without end. -/
theorem mymq_wellformed (attr : Option MymqAttr) (trace : List (Step Thread Handle))
    (s : State Thread Handle) (run : (machine attr).Run trace s) :
    (∃ queue free, Layout s.shared.file queue free ∧ (queue ++ free).Nodup ∧
      Separate s.shared.file.hdr.mqhAttr (queue ++ free)) ∧
    0 ≤ s.shared.file.hdr.mqhAttr.mqCurmsgs ∧
    s.shared.file.hdr.mqhAttr.mqCurmsgs ≤ s.shared.file.hdr.mqhAttr.mqMaxmsg ∧
    s.shared.file.hdr.mqhAttr.mqMaxmsg = (attr.getD defattr).mqMaxmsg ∧
    s.shared.file.hdr.mqhAttr.mqMsgsize = (attr.getD defattr).mqMsgsize ∧
    ∀ e ∈ trace, ∀ output, e.output = some output →
      output.reply ≠ .dumps ∧ output.reply ≠ .loops := by
  obtain ⟨⟨queue, free, layout, _⟩, _, _, _, maxmsg, msgsize⟩ := run_kept attr trace s run
  have total := layout.curmsgs_le
  have count := layout.curmsgs
  have separate : Separate s.shared.file.hdr.mqhAttr (queue ++ free) := by
    have whole := slots_separate s.shared.file.hdr.mqhAttr
    refine ⟨fun i member => ?_, fun i here j there => ?_⟩
    · exact whole.inside i (layout.shared_out.mem_iff.mp member)
    · exact whole.apart i (layout.shared_out.mem_iff.mp here) j (layout.shared_out.mem_iff.mp there)
  refine ⟨⟨queue, free, layout, layout.distinct, separate⟩, by omega, by omega, maxmsg, msgsize, ?_⟩
  exact run.each fun earlier e before stepped output found =>
    ⟨(step_reply attr earlier e before stepped output found).1,
      (step_reply attr earlier e before stepped output found).2.1⟩

/-! Two slots of four bytes: three senders of equal priority, the last one
blocked until the first message is taken. -/

def twoSlots : MymqAttr := ⟨0, 2, 4, 0⟩

def opened : Shared (Fin 1) := ⟨initialized twoSlots, fun _ => ⟨mqiMagic, 0⟩⟩

def quietly (op : Op) : Call (Fin 1) := ⟨0, none, op⟩

def letters (letter : UInt8) (prio : UInt32) : Op := .send ⟨[letter, letter], prio⟩

def blockedSender : List (Monitor.Action (Fin 3) (Call (Fin 1)) Unit) :=
  [.enter 0 (quietly (letters 97 5)) none, .enter 0 (quietly (letters 98 5)) none,
    .enter 1 (quietly (letters 99 5)) none, .enter 2 (quietly (.receive 4 true)) (some 1),
    .resume 1 () none, .enter 2 (quietly (.receive 4 true)) none]

theorem blocked_sender_wellformed :
    ∃ (trace : List (Step (Fin 3) (Fin 1))) (last : State (Fin 3) (Fin 1)),
      (machine (some twoSlots)).Run trace last ∧ trace.length = 6 ∧
      last.shared.file.hdr.mqhAttr.mqCurmsgs ≤ last.shared.file.hdr.mqhAttr.mqMaxmsg := by
  obtain ⟨trace, last, run, checked⟩ := Machine.run_of_check
    (M := machine (some twoSlots)) (s := (⟨opened, fun _ => .outside ()⟩ : State (Fin 3) (Fin 1)))
    ⟨rfl, fun _ => rfl⟩ blockedSender (fun r => decide (r.1.length = 6)) (by decide +kernel)
  exact ⟨trace, last, run, of_decide_eq_true checked,
    (mymq_wellformed (some twoSlots) trace last run).2.2.1⟩

/-- What the receivers get is what the ideal queue gives for the successful calls
as they were made, the stored messages are the ones it has left, and a call that
fails changes nothing. -/
theorem mymq_refines (attr : Option MymqAttr) (trace : List (Step Thread Handle))
    (s : State Thread Handle) (run : (machine attr).Run trace s) :
    receipts trace = (ideal trace).1 ∧
    (∃ queue free, Layout s.shared.file queue free ∧
      StablePriority.Represents Message.rank (contents s.shared.file queue) (ideal trace).2) ∧
    ∀ e ∈ trace, ∀ output error, e.output = some output → output.reply = .failed error →
      e.after.shared = e.before.shared := by
  have kept := run_kept attr trace s run
  refine ⟨kept.receipts, kept.stored, ?_⟩
  exact run.each fun earlier e before stepped output error found =>
    (step_reply attr earlier e before stepped output found).2.2 error

theorem blocked_sender_refines :
    ∃ (trace : List (Step (Fin 3) (Fin 1))) (last : State (Fin 3) (Fin 1)),
      (machine (some twoSlots)).Run trace last ∧
      receipts trace = [.received [97, 97] 2 (some 5), .received [98, 98] 2 (some 5)] ∧
      (ideal trace).1 = receipts trace := by
  obtain ⟨trace, last, run, checked⟩ := Machine.run_of_check
    (M := machine (some twoSlots)) (s := (⟨opened, fun _ => .outside ()⟩ : State (Fin 3) (Fin 1)))
    ⟨rfl, fun _ => rfl⟩ blockedSender
    (fun r => decide (receipts r.1 =
      [.received [97, 97] 2 (some 5), .received [98, 98] 2 (some 5)])) (by decide +kernel)
  exact ⟨trace, last, run, of_decide_eq_true checked,
    (mymq_refines (some twoSlots) trace last run).1.symm⟩

end Runs

end NetworkProgramming.Mymq
