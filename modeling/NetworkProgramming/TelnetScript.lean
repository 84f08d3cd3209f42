import Mathlib.Logic.Function.Basic
import NetworkProgramming.Machine
import NetworkProgramming.TelnetFsm

/-!
The keyboard side of the telnet client: the table of sofsm.c, and sowrite with the
actions that set the modes of the terminal or touch the name of a script file. What an
action prints, or puts on the socket, is left out.
-/

namespace NetworkProgramming.TelnetScript

open Telnet

def KSREMOTE : Nat := 0
def KSLOCAL : Nat := 1
def KSCOLLECT : Nat := 2
def NKSTATES : Nat := 3

def KCESCAPE : UInt8 := 0x1d
def KCDCON : UInt8 := 46
def KCSUSP : UInt8 := 0x1a
def KCSCRIPT : UInt8 := 115
def KCUNSCRIPT : UInt8 := 117
def KCSTATUS : UInt8 := 0x14
def KCNL : UInt8 := 10
def KCANY : Nat := NCHRS + 1

def SFBUFSZ : Nat := 2048

inductive SoAction where
  | noOp
  | soputc
  | scrinit
  | unscript
  | dcon
  | suspend
  | status
  | sonotsup
  | scrwrap
  | scrgetc
  | tnabort
  deriving DecidableEq

def sostab : List (FsmTrans SoAction) :=
  [⟨KSREMOTE, KCESCAPE.toNat, KSLOCAL, .noOp⟩,
    ⟨KSREMOTE, KCANY, KSREMOTE, .soputc⟩,
    ⟨KSLOCAL, KCSCRIPT.toNat, KSCOLLECT, .scrinit⟩,
    ⟨KSLOCAL, KCUNSCRIPT.toNat, KSREMOTE, .unscript⟩,
    ⟨KSLOCAL, KCESCAPE.toNat, KSREMOTE, .soputc⟩,
    ⟨KSLOCAL, KCDCON.toNat, KSREMOTE, .dcon⟩,
    ⟨KSLOCAL, KCSUSP.toNat, KSREMOTE, .suspend⟩,
    ⟨KSLOCAL, KCSTATUS.toNat, KSREMOTE, .status⟩,
    ⟨KSLOCAL, KCANY, KSREMOTE, .sonotsup⟩,
    ⟨KSCOLLECT, KCNL.toNat, KSREMOTE, .scrwrap⟩,
    ⟨KSCOLLECT, KCANY, KSCOLLECT, .scrgetc⟩,
    ⟨FSINVALID, KCANY, FSINVALID, .tnabort⟩]

def sofsm : Fsm := fsminit (fun _ _ => 0) sostab NKSTATES

structure Termios where
  flags : Nat
  cCc : Nat → UInt8

def VINTR : Nat := 0
def VQUIT : Nat := 1
def VSUSP : Nat := 10
def POSIX_VDISABLE : UInt8 := 0

def Termios.disable (t : Termios) (control : Nat) : Termios :=
  { t with cCc := Function.update t.cCc control POSIX_VDISABLE }

structure State where
  sostate : Nat
  /-- The modes that are set. -/
  tty : Termios
  oldtty : Termios
  tntty : Termios
  scrname : Nat → UInt8
  scrindex : Nat
  /-- Is it not NULL? -/
  scrfp : Bool
  doecho : Bool
  running : Bool

/-- What the system answers while a byte is handled. -/
structure Reply where
  /-- The call on the terminal that fails, of those made, if one does. -/
  failing : Option Nat
  /-- `none` where open fails, and whether fdopen returns a stream. -/
  opened : Option Bool
  /-- The modes after a suspension. -/
  resumed : Termios

def Reply.fails (reply : Reply) (call : Nat) : Bool := decide (reply.failing = some call)

/-- The value that an action returns, `none` from one that exits, and where in scrname
it has stored. -/
structure Handled where
  s : State
  value : Option Int
  stores : List Nat

def exits (s : State) : Handled := ⟨{ s with running := false }, none, []⟩

def scrinit (s : State) (reply : Reply) : Handled :=
  if !s.doecho then ⟨s, some (-1), []⟩
  else if s.scrfp then ⟨s, some (-1), []⟩
  else
    let s := { s with scrindex := 0 }
    if reply.fails 0 then exits s
    else
      let s := { s with tntty := s.tty }
      let newtty := ((s.oldtty.disable VINTR).disable VQUIT).disable VSUSP
      if reply.fails 1 then exits s else ⟨{ s with tty := newtty }, some 0, []⟩

def scrgetc (s : State) (reply : Reply) (c : UInt8) : Handled :=
  let index := s.scrindex
  let s := { s with scrname := Function.update s.scrname index c, scrindex := index + 1 }
  if SFBUFSZ ≤ s.scrindex then
    -- The modes of before the session, and not those that scrinit has saved.
    if reply.fails 0 then { exits s with stores := [index] }
    else ⟨{ s with tty := s.oldtty }, some (-1), [index]⟩
  else ⟨s, some 0, [index]⟩

def scrwrap (s : State) (reply : Reply) : Handled :=
  let stores := if s.scrindex ≠ 0 then [s.scrindex] else []
  let s := if s.scrindex ≠ 0 then
      { s with
        scrname := Function.update s.scrname s.scrindex 0
        scrindex := 0
        scrfp := reply.opened.getD s.scrfp }
    else s
  if reply.fails 0 then { exits s with stores := stores }
  else ⟨{ s with tty := s.tntty }, some 0, stores⟩

def suspend (s : State) (reply : Reply) : Handled :=
  if reply.fails 0 then exits s
  else
    let s := { s with tntty := s.tty }
    if reply.fails 1 then exits s
    else
      let s := { s with tty := reply.resumed }
      if reply.fails 2 then exits s
      else
        let s := { s with oldtty := s.tty }
        if reply.fails 3 then exits s else ⟨{ s with tty := s.tntty }, some 0, []⟩

def unscript (s : State) : Handled := ⟨{ s with scrfp := false }, some 0, []⟩

/-- The failure of its call is not looked at. -/
def dcon (s : State) (reply : Reply) : Handled :=
  exits (if reply.fails 0 then s else { s with tty := s.oldtty })

def runAction (action : SoAction) (s : State) (reply : Reply) (c : UInt8) : Handled :=
  match action with
  | .noOp | .soputc | .status | .sonotsup => ⟨s, some 0, []⟩
  | .scrinit => scrinit s reply
  | .unscript => unscript s
  | .dcon => dcon s reply
  | .suspend => suspend s reply
  | .scrwrap => scrwrap s reply
  | .scrgetc => scrgetc s reply c
  | .tnabort => exits s

def sowrite (s : State) (c : UInt8) (reply : Reply) : Option (State × List Nat) :=
  if s.running then
    (sostab[sofsm s.sostate c.toNat]?).map fun pt =>
      let r := runAction pt.ftAction s reply c
      match r.value with
      | none => (r.s, r.stores)
      | some value =>
          ({ r.s with sostate := if value < 0 then KSREMOTE else pt.ftNext }, r.stores)
  else none

structure Key where
  c : UInt8
  reply : Reply

inductive Action where
  | key (key : Key)
  /-- do_echo, for a command of the remote side between two bytes. -/
  | echo (tty : Termios) (doecho : Bool)

abbrev Step := Transition State Action (List Nat)

def machine : Machine State Action (List Nat) where
  start s := s.sostate = KSREMOTE ∧ s.running = true
  step s action :=
    match action with
    | .key key => sowrite s key.c key.reply
    | .echo tty doecho =>
        if s.running then some ({ s with tty := tty, doecho := doecho }, []) else none

def sorow (state cn : Nat) : Nat × SoAction :=
  match state with
  | 0 => if cn = 29 then (KSLOCAL, .noOp) else (KSREMOTE, .soputc)
  | 1 =>
      if cn = 115 then (KSCOLLECT, .scrinit)
      else (KSREMOTE, if cn = 117 then .unscript else if cn = 29 then .soputc
        else if cn = 46 then .dcon else if cn = 26 then .suspend else if cn = 20 then .status
        else .sonotsup)
  | 2 => if cn = 10 then (KSREMOTE, .scrwrap) else (KSCOLLECT, .scrgetc)
  | _ => (FSINVALID, .tnabort)

theorem sorow_unnamed (state cn : Nat) (other : ∀ k ∈ sostab.map (·.ftChar), cn ≠ k) :
    sorow state cn = sorow state 2 := by
  unfold sorow
  split <;> simp [other 29 (by decide), other 115 (by decide), other 117 (by decide),
    other 46 (by decide), other 26 (by decide), other 20 (by decide), other 10 (by decide)]

theorem sostab_compiled : ∀ state < NKSTATES, ∀ cn < NCHRS,
    (sostab[sofsm state cn]?.map fun pt => (pt.ftNext, pt.ftAction)) = some (sorow state cn) :=
  fsminit_rows sostab NKSTATES (fun ti => sostab[ti]?.map fun pt => (pt.ftNext, pt.ftAction)) sorow
    (by unfold Unnamed; decide) sorow_unnamed (by decide +kernel)

def Handled.next (r : Handled) (ftNext : Nat) : State :=
  match r.value with
  | none => r.s
  | some value => { r.s with sostate := if value < 0 then KSREMOTE else ftNext }

theorem sowrite_eq (s : State) (c : UInt8) (reply : Reply) (inside : s.sostate < NKSTATES)
    (running : s.running = true) :
    sowrite s c reply =
      let row := sorow s.sostate c.toNat
      let r := runAction row.2 s reply c
      some (r.next row.1, r.stores) := by
  obtain ⟨pt, picked, row⟩ :=
    Option.map_eq_some_iff.mp (sostab_compiled s.sostate inside c.toNat c.toNat_lt)
  rw [sowrite, if_pos running, picked, Option.map_some, ← row]
  simp only [Handled.next]
  split <;> rfl

/-! A collection, from scrinit on. -/

def Begins (e : Step) : Prop := e.before.sostate ≠ KSCOLLECT ∧ e.after.sostate = KSCOLLECT

instance (e : Step) : Decidable (Begins e) := inferInstanceAs (Decidable (_ ∧ _))

/-- The modes that were set when the last collection began. -/
def saved (trace : List Step) : Option Termios :=
  (trace.filter fun e => decide (Begins e)).getLast?.map fun e => e.before.tty

def Action.Letter : Action → Prop
  | .key k => k.c ≠ KCNL ∧ k.reply.fails 0 = false
  | .echo _ _ => False

instance : ∀ action : Action, Decidable action.Letter
  | .key _ => inferInstanceAs (Decidable (_ ∧ _))
  | .echo _ _ => isFalse id

/-- scrgetc has stored the last byte that there is room for, and returns an error. -/
def TooLong (e : Step) : Prop :=
  e.before.sostate = KSCOLLECT ∧ SFBUFSZ ≤ e.before.scrindex + 1 ∧ e.action.Letter

instance (e : Step) : Decidable (TooLong e) := inferInstanceAs (Decidable (_ ∧ _ ∧ _))

inductive Did (e : Step) : Prop where
  | outside : e.before.sostate ≠ KSCOLLECT → e.after.sostate ≠ KSCOLLECT →
      e.after.sostate < NKSTATES → e.output = [] → Did e
  | began : Begins e → e.after.scrindex = 0 → e.after.tntty = e.before.tty → e.output = [] → Did e
  | collected : e.before.sostate = KSCOLLECT → e.after.sostate = KSCOLLECT →
      e.after.scrindex = e.before.scrindex + 1 → e.after.scrindex < SFBUFSZ →
      e.after.tntty = e.before.tntty → e.output = [e.before.scrindex] → ¬ TooLong e → Did e
  | wrapped : e.before.sostate = KSCOLLECT → e.after.sostate = KSREMOTE →
      e.after.tty = e.before.tntty → (∀ i ∈ e.output, i = e.before.scrindex) → ¬ TooLong e → Did e
  | tooLong : TooLong e → e.after.sostate = KSREMOTE → e.after.tty = e.before.oldtty →
      e.output = [e.before.scrindex] → Did e
  | echoed : e.before.sostate = KSCOLLECT → e.after.sostate = KSCOLLECT →
      e.after.scrindex = e.before.scrindex → e.after.tntty = e.before.tntty → e.output = [] →
      ¬ TooLong e → Did e
  /-- errexit, in a collection. -/
  | exited : e.before.sostate = KSCOLLECT → e.after.sostate = KSCOLLECT →
      e.after.running = false → (∀ i ∈ e.output, i = e.before.scrindex) → ¬ TooLong e → Did e

theorem scrwrap_did (s : State) (c : UInt8) (reply : Reply) (here : s.sostate = KSCOLLECT)
    (newline : c = KCNL) :
    Did ⟨s, .key ⟨c, reply⟩, (scrwrap s reply).stores, (scrwrap s reply).next KSREMOTE⟩ := by
  have short : ¬ TooLong ⟨s, .key ⟨c, reply⟩, (scrwrap s reply).stores,
      (scrwrap s reply).next KSREMOTE⟩ := fun long => long.2.2.1 newline
  have stores : ∀ i ∈ (scrwrap s reply).stores, i = s.scrindex := by
    rw [scrwrap]
    dsimp only
    split
    · dsimp only
      split <;> simp
    · dsimp only
      split <;> simp
  by_cases fails : reply.fails 0 = true
  · refine .exited here ?_ ?_ stores short
    · simp only [Handled.next, scrwrap, fails, if_true, exits]
      split <;> exact here
    · simp only [Handled.next, scrwrap, fails, if_true]
      rfl
  · refine .wrapped here ?_ ?_ stores short
    · simp [Handled.next, scrwrap, fails]
    · simp only [Handled.next, scrwrap, fails, if_false, Bool.false_eq_true]
      split <;> rfl

theorem scrgetc_did (s : State) (c : UInt8) (reply : Reply) (here : s.sostate = KSCOLLECT)
    (other : c ≠ KCNL) :
    Did ⟨s, .key ⟨c, reply⟩, (scrgetc s reply c).stores, (scrgetc s reply c).next KSCOLLECT⟩ := by
  by_cases full : SFBUFSZ ≤ s.scrindex + 1
  · by_cases fails : reply.fails 0 = true
    · have short (stores : List Nat) (after : State) :
          ¬ TooLong ⟨s, .key ⟨c, reply⟩, stores, after⟩ := by
        rintro ⟨-, -, -, works⟩
        rw [fails] at works
        cases works
      simp only [Handled.next, scrgetc, full, fails, if_true, exits]
      exact .exited here here rfl (by simp) (short _ _)
    · simp only [Handled.next, scrgetc, full, fails, if_true, if_false, Bool.false_eq_true]
      exact .tooLong ⟨here, full, other, by simpa using fails⟩ rfl rfl rfl
  · have short (stores : List Nat) (after : State) :
        ¬ TooLong ⟨s, .key ⟨c, reply⟩, stores, after⟩ := fun long => full long.2.1
    simp only [Handled.next, scrgetc, full, if_false]
    exact .collected here rfl rfl (Nat.not_le.mp full) rfl rfl (short _ _)

/-- The actions outside of a collection, but for the one that begins it. -/
structure Aside (s : State) (r : Handled) : Prop where
  sostate : r.s.sostate = s.sostate
  stores : r.stores = []

theorem aside_did (s : State) (key : Key) (r : Handled) (ftNext : Nat) (aside : Aside s r)
    (away : s.sostate ≠ KSCOLLECT) (inside : s.sostate < NKSTATES) (next : ftNext ≠ KSCOLLECT)
    (small : ftNext < NKSTATES) : Did ⟨s, .key key, r.stores, r.next ftNext⟩ := by
  obtain ⟨sostate, stores⟩ := aside
  refine .outside away ?_ ?_ stores
  · simp only [Handled.next]
    split
    · rwa [sostate]
    · dsimp only
      split
      · decide
      · exact next
  · simp only [Handled.next]
    split
    · rwa [sostate]
    · dsimp only
      split
      · decide
      · exact small

theorem suspend_aside (s : State) (reply : Reply) : Aside s (suspend s reply) := by
  rw [suspend]
  split
  · exact ⟨rfl, rfl⟩
  · dsimp only
    split
    · exact ⟨rfl, rfl⟩
    · split
      · exact ⟨rfl, rfl⟩
      · split <;> exact ⟨rfl, rfl⟩

theorem dcon_aside (s : State) (reply : Reply) : Aside s (dcon s reply) := by
  rw [dcon]
  split <;> exact ⟨rfl, rfl⟩

theorem scrinit_did (s : State) (key : Key) (away : s.sostate ≠ KSCOLLECT)
    (inside : s.sostate < NKSTATES) :
    Did ⟨s, .key key, (scrinit s key.reply).stores, (scrinit s key.reply).next KSCOLLECT⟩ := by
  by_cases echo : s.doecho = true
  · by_cases scripting : s.scrfp = true
    · simp only [scrinit, echo, scripting, Bool.not_true, Bool.false_eq_true, if_false, if_true,
        Handled.next]
      exact .outside away (show KSREMOTE ≠ KSCOLLECT by decide)
        (show KSREMOTE < NKSTATES by decide) rfl
    · by_cases unread : key.reply.fails 0 = true
      · simp only [scrinit, echo, scripting, unread, Bool.not_true, Bool.false_eq_true, if_false,
          if_true, Handled.next, exits]
        exact .outside away away inside rfl
      · by_cases unset : key.reply.fails 1 = true
        · simp only [scrinit, echo, scripting, unread, unset, Bool.not_true, Bool.false_eq_true,
            if_false, if_true, Handled.next, exits]
          exact .outside away away inside rfl
        · simp only [scrinit, echo, scripting, unread, unset, Bool.not_true, Bool.false_eq_true,
            if_false, Handled.next]
          exact .began ⟨away, rfl⟩ rfl rfl rfl
  · simp only [scrinit, echo, Bool.not_false, if_true, Handled.next]
    exact .outside away (show KSREMOTE ≠ KSCOLLECT by decide)
      (show KSREMOTE < NKSTATES by decide) rfl

theorem key_did (s after : State) (c : UInt8) (reply : Reply) (stores : List Nat)
    (ran : sowrite s c reply = some (after, stores)) (inside : s.sostate < NKSTATES) :
    Did ⟨s, .key ⟨c, reply⟩, stores, after⟩ := by
  by_cases running : s.running = true
  · rw [sowrite_eq s c reply inside running] at ran
    obtain ⟨rfl, rfl⟩ := Prod.mk.inj (Option.some.inj ran)
    have three : s.sostate = 0 ∨ s.sostate = 1 ∨ s.sostate = 2 := by
      rw [NKSTATES] at inside
      omega
    rcases three with remote | local_ | collect
    · have away : s.sostate ≠ KSCOLLECT := by
        rw [remote]
        decide
      simp only [remote, sorow]
      split
      · exact aside_did s _ _ _ ⟨rfl, rfl⟩ away inside (by decide) (by decide)
      · exact aside_did s _ _ _ ⟨rfl, rfl⟩ away inside (show KSREMOTE ≠ KSCOLLECT by decide)
          (show KSREMOTE < NKSTATES by decide)
    · have away : s.sostate ≠ KSCOLLECT := by
        rw [local_]
        decide
      simp only [local_, sorow]
      split
      · exact scrinit_did s ⟨c, reply⟩ away inside
      · refine aside_did s _ _ _ ?_ away inside (show KSREMOTE ≠ KSCOLLECT by decide)
          (show KSREMOTE < NKSTATES by decide)
        -- all the other commands leave scrname alone
        repeat' split
        · exact ⟨rfl, rfl⟩
        · exact ⟨rfl, rfl⟩
        · exact dcon_aside s reply
        · exact suspend_aside s reply
        · exact ⟨rfl, rfl⟩
        · exact ⟨rfl, rfl⟩
    · simp only [collect, sorow]
      have newline : c.toNat = 10 ↔ c = KCNL := UInt8.toNat_inj (b := KCNL)
      split
      · rename_i ends
        exact scrwrap_did s c reply collect (newline.mp ends)
      · rename_i goes
        exact scrgetc_did s c reply collect fun same => goes (newline.mpr same)
  · rw [sowrite, if_neg running] at ran
    cases ran

theorem did (e : Step) (stepped : machine.Stepped e) (inside : e.before.sostate < NKSTATES) :
    Did e := by
  obtain ⟨s, action, stores, after⟩ := e
  cases action with
  | key key => exact key_did s after key.c key.reply stores stepped inside
  | echo tty doecho =>
      have ran : (if s.running then some ({ s with tty := tty, doecho := doecho }, []) else none) =
          some (after, stores) := stepped
      split at ran
      · cases ran
        by_cases here : s.sostate = KSCOLLECT
        · exact .echoed here here rfl rfl rfl fun long => long.2.2
        · exact .outside here here inside rfl
      · cases ran

/-! What a run keeps. -/

structure Collecting (trace : List Step) (s : State) : Prop where
  sostate : s.sostate < NKSTATES
  collects : s.sostate = KSCOLLECT → s.running = true →
    s.scrindex < SFBUFSZ ∧ saved trace = some s.tntty

theorem saved_snoc (trace : List Step) (e : Step) :
    saved (trace ++ [e]) = if Begins e then some e.before.tty else saved trace := by
  rw [saved, Machine.last_filter_snoc, saved]
  split <;> rfl

theorem running_before (e : Step) (stepped : machine.Stepped e) : e.before.running = true := by
  by_contra stopped
  have ran : machine.step e.before e.action = some (e.after, e.output) := stepped
  cases action : e.action with
  | key key =>
      rw [action] at ran
      simp only [machine, sowrite, if_neg stopped] at ran
      cases ran
  | echo tty doecho =>
      rw [action] at ran
      simp only [machine, if_neg stopped] at ran
      cases ran

theorem collecting_remote (trace : List Step) (s : State) (remote : s.sostate = KSREMOTE) :
    Collecting trace s := by
  refine ⟨by rw [remote]; decide, fun here => ?_⟩
  rw [remote] at here
  exact absurd here (by decide)

theorem collecting_step (trace : List Step) (e : Step) (stepped : machine.Stepped e)
    (collecting : Collecting trace e.before) : Collecting (trace ++ [e]) e.after := by
  have running := running_before e stepped
  have kept := fun here => collecting.collects here running
  cases did e stepped collecting.sostate with
  | outside away gone small _ => exact ⟨small, fun here => absurd here gone⟩
  | began begins index tntty _ =>
      refine ⟨by rw [begins.2]; decide, fun _ _ => ?_⟩
      rw [saved_snoc, if_pos begins, index, tntty]
      exact ⟨by decide, rfl⟩
  | collected here there _ small tntty _ _ =>
      have goes : ¬ Begins e := fun begins => begins.1 here
      refine ⟨by rw [there]; decide, fun _ _ => ?_⟩
      rw [saved_snoc, if_neg goes, tntty]
      exact ⟨small, (kept here).2⟩
  | wrapped _ there _ _ _ => exact collecting_remote _ _ there
  | tooLong _ there _ _ => exact collecting_remote _ _ there
  | echoed here there index tntty _ _ =>
      have goes : ¬ Begins e := fun begins => begins.1 here
      refine ⟨by rw [there]; decide, fun _ _ => ?_⟩
      rw [saved_snoc, if_neg goes, tntty, index]
      exact kept here
  | exited _ there stopped _ _ =>
      refine ⟨by rw [there]; decide, fun _ on => ?_⟩
      rw [stopped] at on
      cases on

theorem collecting_run {trace : List Step} {s : State} (run : machine.Run trace s) :
    Collecting trace s := by
  refine run.history (C := fun _ => True) ?_ (fun pre e stepped _ => collecting_step pre e stepped)
    fun _ _ => trivial
  rintro s ⟨remote, -⟩
  exact collecting_remote [] s remote

def Restored (pre : List Step) (e : Step) : Prop :=
  e.before.sostate = KSCOLLECT → e.after.sostate ≠ KSCOLLECT → saved pre = some e.after.tty

theorem restored_iff (pre : List Step) (e : Step) (stepped : machine.Stepped e)
    (collecting : Collecting pre e.before) :
    Restored pre e ↔ (TooLong e → e.before.tntty = e.before.oldtty) := by
  have kept := fun here => (collecting.collects here (running_before e stepped)).2
  cases did e stepped collecting.sostate with
  | outside away _ _ _ =>
      exact iff_of_true (fun here => absurd here away) fun long => absurd long.1 away
  | began begins _ _ _ =>
      exact iff_of_true (fun here => absurd here begins.1) fun long => absurd long.1 begins.1
  | collected _ there _ _ _ _ short =>
      exact iff_of_true (fun _ gone => absurd there gone) fun long => absurd long short
  | wrapped here _ tty _ short =>
      exact iff_of_true (fun _ _ => by rw [kept here, tty]) fun long => absurd long short
  | tooLong long there tty _ =>
      have gone : e.after.sostate ≠ KSCOLLECT := by
        rw [there]
        decide
      constructor
      · intro restored _
        have same := restored long.1 gone
        rw [kept long.1, tty] at same
        exact Option.some.inj same
      · intro same _ _
        rw [kept long.1, tty, same long]
  | echoed _ there _ _ _ short =>
      exact iff_of_true (fun _ gone => absurd there gone) fun long => absurd long short
  | exited _ there _ _ short =>
      exact iff_of_true (fun _ gone => absurd there gone) fun long => absurd long short

theorem stores_inside (pre : List Step) (e : Step) (stepped : machine.Stepped e)
    (collecting : Collecting pre e.before) : ∀ i ∈ e.output, i < SFBUFSZ := by
  have kept := fun here => (collecting.collects here (running_before e stepped)).1
  cases did e stepped collecting.sostate with
  | outside _ _ _ none_ =>
      rw [none_]
      exact List.forall_mem_nil _
  | began _ _ _ none_ =>
      rw [none_]
      exact List.forall_mem_nil _
  | collected here _ _ _ _ one _ =>
      rw [one]
      simpa using kept here
  | wrapped here _ _ stores _ => exact fun i member => stores i member ▸ kept here
  | tooLong long _ _ one =>
      rw [one]
      simpa using kept long.1
  | echoed _ _ _ _ none_ _ =>
      rw [none_]
      exact List.forall_mem_nil _
  | exited here _ _ stores _ => exact fun i member => stores i member ▸ kept here

/-- Every store is inside of scrname; and every collection ends with the modes that were
saved, if and only if each that is broken off as too long had saved those of oldtty. -/
theorem script_name_collected {trace : List Step} {s : State} (run : machine.Run trace s) :
    (∀ e ∈ trace, ∀ i ∈ e.output, i < SFBUFSZ) ∧
    ((∀ pre e post, trace = pre ++ e :: post → Restored pre e) ↔
      ∀ e ∈ trace, TooLong e → e.before.tntty = e.before.oldtty) := by
  have each (pre : List Step) (e : Step) (post : List Step) (whole : trace = pre ++ e :: post) :
      machine.Stepped e ∧ Collecting pre e.before := by
    subst whole
    exact ⟨run.split.2, collecting_run run.split.1⟩
  refine ⟨?_, ?_, ?_⟩
  · intro e member
    obtain ⟨pre, post, whole⟩ := List.append_of_mem member
    obtain ⟨stepped, collecting⟩ := each pre e post whole
    exact stores_inside pre e stepped collecting
  · intro restored e member
    obtain ⟨pre, post, whole⟩ := List.append_of_mem member
    obtain ⟨stepped, collecting⟩ := each pre e post whole
    exact (restored_iff pre e stepped collecting).mp (restored pre e post whole)
  · intro met pre e post whole
    obtain ⟨stepped, collecting⟩ := each pre e post whole
    exact (restored_iff pre e stepped collecting).mpr (met e (by simp [whole]))

/-- A session that has set modes of its own, and a system in which every call succeeds. -/
def session : State :=
  { sostate := KSREMOTE
    tty := ⟨1, fun _ => 0⟩
    oldtty := ⟨0, fun _ => 3⟩
    tntty := ⟨1, fun _ => 0⟩
    scrname := fun _ => 0
    scrindex := 0
    scrfp := false
    doecho := true
    running := true }

def granted : Reply := ⟨none, some true, ⟨0, fun _ => 3⟩⟩

theorem short_name_collected :
    ∃ trace last, machine.Run trace last ∧
      (trace.map fun e => e.after.sostate) = [KSLOCAL, KSCOLLECT, KSCOLLECT, KSREMOTE] ∧
      (∀ e ∈ trace, ∀ i ∈ e.output, i < SFBUFSZ) ∧
      ∀ pre e post, trace = pre ++ e :: post → Restored pre e := by
  obtain ⟨trace, last, run, found⟩ :=
    Machine.run_of_check (M := machine) (s := session) ⟨rfl, rfl⟩
      [.key ⟨KCESCAPE, granted⟩, .key ⟨KCSCRIPT, granted⟩, .key ⟨97, granted⟩, .key ⟨KCNL, granted⟩]
      (fun r => decide ((r.1.map fun e => e.after.sostate) =
          [KSLOCAL, KSCOLLECT, KSCOLLECT, KSREMOTE]) && decide (∀ e ∈ r.1, ¬ TooLong e))
      (by decide +kernel)
  simp only [Bool.and_eq_true, decide_eq_true_eq] at found
  have law := script_name_collected run
  exact ⟨trace, last, run, found.1, law.1,
    law.2.mpr fun e member long => absurd long (found.2 e member)⟩

theorem letters_collected (n : Nat) (room : n < SFBUFSZ) :
    ∃ trace s, machine.Run trace s ∧ s.sostate = KSCOLLECT ∧ s.running = true ∧ s.scrindex = n ∧
      s.tntty.flags = 1 ∧ s.oldtty.flags = 0 := by
  induction n with
  | zero =>
      obtain ⟨trace, last, run, found⟩ :=
        Machine.run_of_check (M := machine) (s := session) ⟨rfl, rfl⟩
          [.key ⟨KCESCAPE, granted⟩, .key ⟨KCSCRIPT, granted⟩]
          (fun r => decide (r.2.sostate = KSCOLLECT ∧ r.2.running = true ∧ r.2.scrindex = 0 ∧
            r.2.tntty.flags = 1 ∧ r.2.oldtty.flags = 0))
          (by decide +kernel)
      exact ⟨trace, last, run, of_decide_eq_true found⟩
  | succ n ih =>
      obtain ⟨trace, s, run, here, running, index, modes⟩ := ih (by omega)
      have stepped := sowrite_eq s 97 granted (by rw [here]; decide) running
      have goes : ¬ SFBUFSZ ≤ s.scrindex + 1 := by omega
      have row : sorow KSCOLLECT (97 : UInt8).toNat = (KSCOLLECT, .scrgetc) := by decide
      simp only [here, row, runAction, scrgetc, goes, if_false, Handled.next] at stepped
      have went : machine.step s (.key ⟨97, granted⟩) = _ := stepped
      exact ⟨_, _, run.goes_on went, rfl, running, congrArg (· + 1) index, modes⟩

theorem long_name_unrestored :
    ¬ ∀ (trace : List Step) (s : State), machine.Run trace s →
      (∀ e ∈ trace, ∀ i ∈ e.output, i < SFBUFSZ) ∧
        ∀ pre e post, trace = pre ++ e :: post → Restored pre e := by
  intro claim
  obtain ⟨trace, s, run, here, running, index, new, old⟩ := letters_collected 2047 (by decide)
  have went : machine.step s (.key ⟨97, granted⟩) = _ :=
    sowrite_eq s 97 granted (by rw [here]; decide) running
  have longer := run.goes_on went
  have restored := (claim _ _ longer).2 trace _ [] rfl
  have met := (restored_iff trace _ longer.split.2 (collecting_run run)).mp restored
  have room : SFBUFSZ ≤ s.scrindex + 1 := by
    rw [index]
    decide
  have same := met ⟨here, room, show (97 : UInt8) ≠ KCNL by decide, rfl⟩
  have flags : s.tntty.flags = s.oldtty.flags := congrArg Termios.flags same
  rw [new, old] at flags
  cases flags

end NetworkProgramming.TelnetScript
