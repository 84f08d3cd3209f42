import NetworkProgramming.MymqWakeups

/-!
The notification of a registered process. `mymq_send` looks for a registration
before its wait loop and links its message after it, so a sender that had to
wait never looks again when the queue has been emptied meanwhile.
-/

namespace NetworkProgramming.Mymq

variable {Handle : Type*} [DecidableEq Handle]
variable {Thread : Type*} [Fintype Thread] [DecidableEq Thread]

def Pending (hdr : MymqHdr) : Prop :=
  hdr.mqhAttr.mqCurmsgs = 0 ∧ hdr.mqhPid ≠ 0 ∧ hdr.mqhNwait = 0

instance (hdr : MymqHdr) : Decidable (Pending hdr) :=
  inferInstanceAs (Decidable (_ ∧ _))

def announcement (hdr : MymqHdr) : Option Sigqueue :=
  if hdr.mqhEvent.sigevNotify = sigevSignal then
    some ⟨hdr.mqhPid, hdr.mqhEvent.sigevSigno, hdr.mqhEvent.sigevValue⟩
  else none

def sendingAgain (s : State Thread Handle) : Monitor.Action Thread (Call Handle) Unit → Bool
  | .resume t _ _ => match s.phase t with
      | .waiting .awakened w => sends w
      | _ => false
  | _ => false

def sending (s : State Thread Handle) : Monitor.Action Thread (Call Handle) Unit → Bool
  | .enter _ call _ => match call.op with
      | .send _ => true
      | _ => false
  | action => sendingAgain s action

/-- A message that meets a registration is announced. -/
def Notifies (hdr after : MymqHdr) (output : Output) : Prop :=
  output.reply = .sent → Pending hdr →
    after.mqhPid = 0 ∧ output.sigqueued = announcement hdr

/-- A section that does not end the queue's being empty announces nothing. -/
def Keeps (hdr after : MymqHdr) (output : Output) : Prop :=
  ¬ (hdr.mqhAttr.mqCurmsgs = 0 ∧ 0 < after.mqhAttr.mqCurmsgs) →
    after.mqhPid = hdr.mqhPid ∧ output.sigqueued = none

def Announces (e : Step Thread Handle) : Prop :=
  ∀ output, e.output = some output →
    Notifies e.before.shared.file.hdr e.after.shared.file.hdr output ∧
    (sending e.before e.action = true →
      Keeps e.before.shared.file.hdr e.after.shared.file.hdr output)

/-- The step is not that of a sender back from its wait to a queue that is empty
and watched. -/
def Prompt (e : Step Thread Handle) : Prop :=
  sendingAgain e.before e.action = true → ¬ Pending e.before.shared.file.hdr

instance (e : Step Thread Handle) : Decidable (Prompt e) :=
  inferInstanceAs (Decidable (_ → _))

theorem notify_registered_pending (hdr : MymqHdr) (pending : Pending hdr) :
    notifyRegistered hdr = ({ hdr with mqhPid := 0 }, announcement hdr) := by
  rw [notifyRegistered, if_pos pending.2, announcement]

theorem notify_registered_attr (hdr : MymqHdr) :
    (notifyRegistered hdr).1.mqhAttr = hdr.mqhAttr := by
  rw [notifyRegistered]
  split <;> rfl

omit [DecidableEq Handle] in
theorem send_link_registration (before : Shared Handle) (queue free : List Nat) (m : Message)
    (sigqueued : Option Sigqueue) (layout : Layout before.file queue free)
    (room : before.file.hdr.mqhAttr.mqCurmsgs < before.file.hdr.mqhAttr.mqMaxmsg)
    (fits : (m.bytes.length : Int) ≤ before.file.hdr.mqhAttr.mqMsgsize) :
    (sendLink m sigqueued before).output = ⟨.sent, sigqueued⟩ ∧
    (sendLink m sigqueued before).shared.file.hdr.mqhPid = before.file.hdr.mqhPid ∧
    (sendLink m sigqueued before).shared.file.hdr.mqhAttr.mqCurmsgs =
      before.file.hdr.mqhAttr.mqCurmsgs + 1 := by
  obtain ⟨after, _, _, linked, _, counted, _⟩ :=
    send_link_links before queue free m sigqueued layout room fits
  rw [linked]
  refine ⟨rfl, counted.pid, ?_⟩
  simp only [counted.attr]

omit [DecidableEq Handle] in
theorem send_announces (shared : Shared Handle) (handle : Handle) (locked : Option Errno)
    (m : Message) (queue free : List Nat) (layout : Layout shared.file queue free) :
    Notifies shared.file.hdr (mymqSend handle locked m shared).shared.file.hdr
      (mymqSend handle locked m shared).output ∧
    Keeps shared.file.hdr (mymqSend handle locked m shared).shared.file.hdr
      (mymqSend handle locked m shared).output := by
  have size := size_t_of_msgsize _ layout.msgsize_pos layout.msgsize_max
  have positive := layout.maxmsg_pos
  have refused (error : Errno) :
      Notifies shared.file.hdr shared.file.hdr ⟨.failed error, none⟩ ∧
        Keeps shared.file.hdr shared.file.hdr ⟨.failed error, none⟩ :=
    ⟨by simp [Notifies], fun _ => ⟨rfl, rfl⟩⟩
  simp only [mymqSend, withLock]
  split
  · exact refused _
  cases locked with
  | some n => exact refused n
  | none =>
      dsimp only
      split
      · exact refused _
      rename_i small
      have fits : (m.bytes.length : Int) ≤ shared.file.hdr.mqhAttr.mqMsgsize := by omega
      split
      -- the queue is empty: the registration is looked at before the link
      · rename_i empty
        have beside := notify_registered_beside shared
        obtain ⟨output, pid, count⟩ := send_link_registration
          { shared with file := { shared.file with hdr := (notifyRegistered shared.file.hdr).1 } }
          queue free m (notifyRegistered shared.file.hdr).2 (beside.layout layout)
          (by rw [beside.attr]; omega) (by rw [beside.attr]; exact fits)
        constructor
        · intro _ pending
          rw [output, pid, notify_registered_pending _ pending]
          exact ⟨rfl, rfl⟩
        · intro still
          rw [count, notify_registered_attr] at still
          omega
      · rename_i stored
        split
        · rename_i full
          split
          · exact refused _
          · rw [sendLoop, if_pos full]
            exact ⟨by simp [Notifies], fun _ => ⟨rfl, rfl⟩⟩
        · obtain ⟨output, pid, count⟩ := send_link_registration shared queue free m none layout
            (by omega) fits
          rw [output]
          exact ⟨fun _ pending => absurd pending.1 stored, fun _ => ⟨pid, rfl⟩⟩

omit [DecidableEq Handle] in
theorem send_loop_keeps (shared : Shared Handle) (m : Message) (queue free : List Nat)
    (layout : Layout shared.file queue free)
    (fits : (m.bytes.length : Int) ≤ shared.file.hdr.mqhAttr.mqMsgsize) :
    (sendLoop m shared).shared.file.hdr.mqhPid = shared.file.hdr.mqhPid ∧
    (sendLoop m shared).output.sigqueued = none ∧
    (shared.file.hdr.mqhAttr.mqCurmsgs < shared.file.hdr.mqhAttr.mqMaxmsg →
      (sendLoop m shared).output.reply = .sent) := by
  simp only [sendLoop]
  split
  · rename_i full
    exact ⟨rfl, rfl, fun room => absurd full (by omega)⟩
  · rename_i room
    obtain ⟨output, pid, _⟩ := send_link_registration shared queue free m none layout
      (by omega) fits
    rw [output, pid]
    exact ⟨rfl, rfl, fun _ => rfl⟩

omit [DecidableEq Handle] in
theorem did_sent (shared : Shared Handle) (op : Op) (sec : MqSection Handle)
    (linking taking : Bool) (did : Did shared op linking taking sec)
    (sent : sec.output.reply = .sent) : linking = true := by
  cases did with
  | aside after reply beside plain =>
      cases plain <;> cases sent
  | send before m sigqueued beside room fits _ does => exact does
  | take before maxlen priop beside present _ does =>
      simp only [receiveTake] at sent
      split at sent <;> cases sent
  | blockSend m full fits _ => cases sent
  | blockReceive before maxlen priop beside empty _ => cases sent

omit [DecidableEq Handle] in
theorem links_send (shared : Shared Handle) (call : Call Handle)
    (links : links shared call = true) :
    ∃ m, call.op = .send m := by
  obtain ⟨handle, locked, op⟩ := call
  cases op with
  | send m => exact ⟨m, rfl⟩
  | receive maxlen priop => cases links
  | notify pid notification gone => cases links
  | setattr mqFlags wanted => cases links
  | getattr => cases links

omit [Fintype Thread] [DecidableEq Thread] in
theorem enter_announces (s : State Thread Handle) (t : Thread) (call : Call Handle)
    (target : Option Thread) (queue free : List Nat) (layout : Layout s.shared.file queue free) :
    Notifies s.shared.file.hdr (enter s.shared call).shared.file.hdr
      (enter s.shared call).output ∧
    (sending s (.enter t call target) = true →
      Keeps s.shared.file.hdr (enter s.shared call).shared.file.hdr
        (enter s.shared call).output) := by
  by_cases send : ∃ m, call.op = .send m
  · obtain ⟨handle, locked, op⟩ := call
    obtain ⟨m, rfl⟩ := send
    obtain ⟨notifies, keeps⟩ := send_announces s.shared handle locked m queue free layout
    exact ⟨notifies, fun _ => keeps⟩
  · constructor
    · intro sent _
      exact absurd (links_send _ _ (did_sent _ _ _ _ _ (enter_did s.shared call queue free layout)
        sent)) send
    · intro sends
      obtain ⟨handle, locked, op⟩ := call
      cases op with
      | send m => exact absurd ⟨m, rfl⟩ send
      | receive maxlen priop => cases sends
      | notify pid notification gone => cases sends
      | setattr mqFlags wanted => cases sends
      | getattr => cases sends

/-! `mqh_nwait`, which a sender looks at as well, counts the receivers in their
wait loop, blocked or awakened. -/

def receiving : Phase Unit Waiter → Nat
  | .waiting _ (.receive _) => 1
  | _ => 0

def nwait (shared : Shared Handle) : Int := shared.file.hdr.mqhNwait

/-- The section of a thread that counts `own` before it counts itself right. -/
def CountsItself (shared : Shared Handle) (own : Nat) (sec : MqSection Handle) : Prop :=
  nwait sec.shared + own = nwait shared + receiving sec.exit.phase

omit [DecidableEq Handle] in
theorem with_lock_counts (handle : Handle) (locked : Option Errno) (shared : Shared Handle)
    (body : MqSection Handle) (counts : CountsItself shared 0 body) :
    CountsItself shared 0 (withLock handle locked shared body) := by
  simp only [withLock]
  split
  · rfl
  · cases locked with
    | some n => rfl
    | none => exact counts

omit [DecidableEq Handle] in
theorem send_link_nwait (shared before : Shared Handle) (queue free : List Nat) (m : Message)
    (sigqueued : Option Sigqueue) (layout : Layout before.file queue free)
    (room : before.file.hdr.mqhAttr.mqCurmsgs < before.file.hdr.mqhAttr.mqMaxmsg)
    (fits : (m.bytes.length : Int) ≤ before.file.hdr.mqhAttr.mqMsgsize)
    (same : nwait before = nwait shared) : CountsItself shared 0 (sendLink m sigqueued before) := by
  obtain ⟨after, _, _, linked, _, counted, _⟩ :=
    send_link_links before queue free m sigqueued layout room fits
  rw [linked]
  have kept := counted.nwait.trans same
  simp only [CountsItself, nwait, Exit.phase, receiving] at kept ⊢
  omega

omit [DecidableEq Handle] in
theorem receive_take_nwait (shared before : Shared Handle) (own : Nat) (priop : Bool)
    (less : nwait before + own = nwait shared) :
    CountsItself shared own (receiveTake priop before) := by
  have kept : nwait (receiveTake priop before).shared = nwait before ∧
      (receiveTake priop before).exit = .leave () := by
    simp only [receiveTake]
    split <;> exact ⟨rfl, rfl⟩
  simp only [CountsItself, kept.1, kept.2, less, Exit.phase, receiving]
  omega

omit [DecidableEq Handle] in
theorem send_nwait (shared : Shared Handle) (handle : Handle) (locked : Option Errno)
    (m : Message) (queue free : List Nat) (layout : Layout shared.file queue free) :
    CountsItself shared 0 (mymqSend handle locked m shared) := by
  have size := size_t_of_msgsize _ layout.msgsize_pos layout.msgsize_max
  have positive := layout.maxmsg_pos
  apply with_lock_counts
  dsimp only
  split
  · rfl
  rename_i small
  have fits : (m.bytes.length : Int) ≤ shared.file.hdr.mqhAttr.mqMsgsize := by omega
  split
  · rename_i empty
    have beside := notify_registered_beside shared
    apply send_link_nwait shared _ queue free m _ (beside.layout layout)
    · rw [beside.attr]
      omega
    · rw [beside.attr]
      exact fits
    · simp only [nwait, notifyRegistered]
      split <;> rfl
  · split
    · rename_i full
      split
      · rfl
      · rw [sendLoop, if_pos full]
        rfl
    · exact send_link_nwait shared shared queue free m none layout (by omega) fits rfl

omit [DecidableEq Handle] in
theorem receive_nwait (shared : Shared Handle) (handle : Handle) (locked : Option Errno)
    (maxlen : Nat) (priop : Bool) :
    CountsItself shared 0 (mymqReceive handle locked maxlen priop shared) := by
  apply with_lock_counts
  dsimp only
  split
  · rfl
  · split
    · rename_i empty
      split
      · rfl
      · have stillEmpty : (shared.file.addNwait 1).hdr.mqhAttr.mqCurmsgs = 0 := empty
        rw [receiveLoop, if_pos stillEmpty]
        simp [CountsItself, nwait, MappedFile.addNwait, Exit.phase, receiving]
    · exact receive_take_nwait shared shared 0 priop (by omega)

theorem enter_nwait (shared : Shared Handle) (call : Call Handle) (queue free : List Nat)
    (layout : Layout shared.file queue free) : CountsItself shared 0 (enter shared call) := by
  obtain ⟨handle, locked, op⟩ := call
  cases op with
  | send m => exact send_nwait shared handle locked m queue free layout
  | receive maxlen priop => exact receive_nwait shared handle locked maxlen priop
  | notify pid notification gone =>
      apply with_lock_counts
      cases notification with
      | none =>
          dsimp only
          split <;> rfl
      | some event =>
          dsimp only
          split <;> rfl
  | setattr mqFlags wanted =>
      apply with_lock_counts
      rfl
  | getattr =>
      apply with_lock_counts
      rfl

omit [DecidableEq Handle] in
theorem resume_nwait (shared : Shared Handle) (w : Waiter) (queue free : List Nat)
    (layout : Layout shared.file queue free)
    (fits : ∀ m, w = .send m → (m.bytes.length : Int) ≤ shared.file.hdr.mqhAttr.mqMsgsize) :
    CountsItself shared (receiving (.waiting .awakened w)) (resume shared w) := by
  cases w with
  | send m =>
      simp only [resume, sendLoop]
      split
      · rfl
      · exact send_link_nwait shared shared queue free m none layout (by omega) (fits m rfl) rfl
  | receive priop =>
      simp only [resume, receiveLoop]
      split
      · rfl
      · apply receive_take_nwait
        simp only [nwait, MappedFile.addNwait, receiving]
        omega

def receivers (s : State Thread Handle) : Nat := Threads.total s.phase receiving

theorem step_nwait (attr : Option MymqAttr) (e : Step Thread Handle)
    (stepped : (machine attr).Stepped e) (queue free : List Nat)
    (layout : Layout e.before.shared.file queue free) (fit : WaitersFit e.before)
    (counted : nwait e.before.shared = receivers e.before) :
    nwait e.after.shared = receivers e.after := by
  obtain ⟨s, action, output, after⟩ := e
  -- the weight does not tell a blocked receiver from an awakened one
  have blind : ∀ w, receiving (.waiting .awakened w) = receiving (.waiting .blocked w) := by
    intro w
    cases w <;> rfl
  simp only [receivers] at counted ⊢
  cases Monitor.step_effect monitor s after action output stepped with
  | @enter t owned call target sec phase here ran woken =>
      simp only [monitor, Option.some.injEq] at ran
      subst sec
      have own := enter_nwait s.shared call queue free layout
      have moved := Monitor.section_total woken t (by simp [here])
        (enter s.shared call).exit.phase receiving blind
      rw [here] at moved
      change _ + 0 = _ + _ at moved
      simp only [CountsItself] at own
      change nwait (enter s.shared call).shared = (Threads.total (Function.update phase t
        (enter s.shared call).exit.phase) receiving : Int)
      omega
  | @resume t w result target phase here woken =>
      have own := resume_nwait s.shared w queue free layout
        fun m same => fit t .awakened m (same ▸ here)
      have moved := Monitor.section_total woken t (by simp [here])
        (resume s.shared w).exit.phase receiving blind
      rw [here] at moved
      simp only [CountsItself] at own
      change nwait (resume s.shared w).shared = (Threads.total (Function.update phase t
        (resume s.shared w).exit.phase) receiving : Int)
      omega
  | cleanup _ ran _ => simp [monitor] at ran
  | @spurious t w here =>
      rw [Monitor.shift_total here .awakened receiving (blind w)]
      exact counted
  | cancel _ handled => simp [monitor] at handled

theorem start_nwait (attr : Option MymqAttr) (s : State Thread Handle)
    (first : (machine attr).start s) : nwait s.shared = receivers s := by
  obtain ⟨opened, idle⟩ := first
  have none_waits : receivers s = 0 := by
    apply (Threads.total_eq_zero s.phase receiving).mpr
    intro t
    rw [idle t]
    rfl
  rw [none_waits, nwait, (mymq_open_created attr s.shared.file opened).1]
  rfl

theorem run_nwait (attr : Option MymqAttr) (trace : List (Step Thread Handle))
    (s : State Thread Handle) (run : (machine attr).Run trace s) :
    nwait s.shared = receivers s := by
  have both : Kept attr trace s ∧ nwait s.shared = receivers s :=
    run.history (C := fun _ => True)
      (I := fun trace s => Kept attr trace s ∧ nwait s.shared = receivers s)
      (fun s first => ⟨start_kept attr s first, start_nwait attr s first⟩)
      (fun trace e stepped _ held => by
        obtain ⟨queue, free, layout, _⟩ := held.1.stored
        exact ⟨step_kept attr trace e stepped held.1,
          step_nwait attr e stepped queue free layout held.1.fit held.2⟩) fun _ _ => trivial
  exact both.2

theorem step_announces (attr : Option MymqAttr) (e : Step Thread Handle)
    (stepped : (machine attr).Stepped e) (queue free : List Nat)
    (layout : Layout e.before.shared.file queue free) (fit : WaitersFit e.before) :
    Announces e ↔ Prompt e := by
  obtain ⟨s, action, output, after⟩ := e
  have positive := layout.maxmsg_pos
  cases Monitor.step_effect monitor s after action output stepped with
  | @enter t owned call target sec phase here ran woken =>
      simp only [monitor, Option.some.injEq] at ran
      subst sec
      have announces := enter_announces s t call target queue free layout
      constructor
      · intro _ again
        cases again
      · intro _ output found
        cases found
        exact announces
  | @resume t w result target phase here woken =>
      cases w with
      | receive priop =>
          have silent : sendingAgain s (.resume t result target) = false := by
            simp only [sendingAgain, here, sends]
          constructor
          · intro _ again
            rw [silent] at again
            cases again
          · intro _ output found
            cases found
            constructor
            · intro sent _
              cases did_sent _ _ _ _ _
                (receive_loop_did s.shared s.shared 0 priop (.refl _)) sent
            · intro sending
              cases silent.symm.trans sending
      | send m =>
          have again : sendingAgain s (.resume t result target) = true := by
            simp only [sendingAgain, here, sends]
          obtain ⟨pid, silent, sent⟩ := send_loop_keeps s.shared m queue free layout
            (fit t .awakened m here)
          constructor
          -- the section links its message and leaves the registration as it is
          · intro law _ pending
            have room : s.shared.file.hdr.mqhAttr.mqCurmsgs <
                s.shared.file.hdr.mqhAttr.mqMaxmsg := by
              have empty := pending.1
              dsimp only at empty positive
              omega
            have cleared := ((law _ rfl).1 (sent room) pending).1
            exact pending.2.1 (pid.symm.trans cleared)
          · intro prompt output found
            cases found
            exact ⟨fun _ pending => absurd pending (prompt again), fun _ _ => ⟨pid, silent⟩⟩
  | cleanup _ ran _ => simp [monitor] at ran
  | spurious here =>
      constructor
      · intro _ again
        cases again
      · intro _ output found
        cases found
  | cancel _ handled => simp [monitor] at handled

/-- Along every run the steps that break the law of notification are those of
senders back from their wait to an empty queue for which a process is
registered and no receiver waits; `mqh_nwait` is the number that wait. -/
theorem mymq_notification_law (attr : Option MymqAttr) (trace : List (Step Thread Handle))
    (s : State Thread Handle) (run : (machine attr).Run trace s) :
    ∀ e ∈ trace, (Announces e ↔ Prompt e) ∧ nwait e.before.shared = receivers e.before := by
  refine run.each fun earlier e before stepped => ⟨?_, run_nwait attr earlier e.before before⟩
  have kept := run_kept attr earlier e.before before
  obtain ⟨queue, free, layout, _⟩ := kept.stored
  exact step_announces attr e stepped queue free layout kept.fit

/-! One slot: the queue is filled, a second sender waits, the message is taken
and a process registers. In the first run nobody waits to send. -/

def oneSlot : State (Fin 3) (Fin 1) :=
  ⟨⟨initialized ⟨0, 1, 4, 0⟩, fun _ => ⟨mqiMagic, 0⟩⟩, fun _ => .outside ()⟩

def register : Op := .notify 42 (some ⟨sigevSignal, 10, 7⟩) false

theorem registered_process_notified :
    ∃ (trace : List (Step (Fin 3) (Fin 1))) (last : State (Fin 3) (Fin 1)),
      (machine (some ⟨0, 1, 4, 0⟩)).Run trace last ∧
      (trace.filterMap fun e => e.output.bind Output.sigqueued) = [⟨42, 10, 7⟩] ∧
      ∀ e ∈ trace, Announces e := by
  obtain ⟨trace, last, run, checked⟩ := Machine.run_of_check
    (M := machine (some ⟨0, 1, 4, 0⟩)) (s := oneSlot) ⟨rfl, fun _ => rfl⟩
    [.enter 2 (quietly register) none, .enter 0 (quietly (letters 97 5)) none,
      .enter 2 (quietly (.receive 4 true)) none, .enter 1 (quietly (letters 98 5)) none]
    (fun r => decide ((r.1.filterMap fun e => e.output.bind Output.sigqueued) = [⟨42, 10, 7⟩] ∧
      ∀ e ∈ r.1, Prompt e)) (by decide +kernel)
  obtain ⟨signals, prompt⟩ := of_decide_eq_true checked
  refine ⟨trace, last, run, signals, ?_⟩
  intro e member
  exact (mymq_notification_law _ trace last run e member).1.mpr (prompt e member)

theorem blocked_sender_unannounced :
    ∃ (trace : List (Step (Fin 3) (Fin 1))) (last : State (Fin 3) (Fin 1)),
      (machine (some ⟨0, 1, 4, 0⟩)).Run trace last ∧ ∃ e ∈ trace, ¬ Announces e := by
  obtain ⟨trace, last, run, checked⟩ := Machine.run_of_check
    (M := machine (some ⟨0, 1, 4, 0⟩)) (s := oneSlot) ⟨rfl, fun _ => rfl⟩
    [.enter 0 (quietly (letters 97 5)) none, .enter 1 (quietly (letters 98 5)) none,
      .enter 2 (quietly (.receive 4 true)) (some 1), .enter 2 (quietly register) none,
      .resume 1 () none]
    (fun r => decide (∃ e ∈ r.1, e.output = some ⟨.sent, none⟩ ∧
      Pending e.before.shared.file.hdr ∧ e.after.shared.file.hdr.mqhPid = 42)) (by decide +kernel)
  obtain ⟨e, member, output, pending, left⟩ := of_decide_eq_true checked
  refine ⟨trace, last, run, e, member, ?_⟩
  intro announces
  have cleared := ((announces _ output).1 rfl pending).1
  rw [left] at cleared
  cases cleared

end NetworkProgramming.Mymq
