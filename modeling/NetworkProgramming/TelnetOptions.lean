import NetworkProgramming.EchoedBit
import NetworkProgramming.Machine
import NetworkProgramming.Telnet

/-!
Two telnet clients that talk to each other: what one says about options reaches the other
in order, and the other answers it. A message is what recopt and then a handler of ttfsm.c
make of three characters.
-/

namespace NetworkProgramming.Telnet

open EchoedBit

def handle (env : Environment) (ok : Bool) (action : TtAction) (s : Client) (c : UInt8) :
    Client × List Message :=
  match action with
  | .doEcho => doEcho ok s c
  | .doNoga => doNoga s c
  | .doTxbinary => doTxbinary s c
  | .doNotsup => doNotsup s c
  | .willTermtype => willTermtype env s c
  | .willTxbinary => willTxbinary s c
  | .willNotsup => willNotsup s c
  | _ => (s, [])

def Command.ttstate : Command → Nat
  | .will | .wont => TSWOPT
  | .do_ | .dont => TSDOPT

def Message.action (m : Message) : TtAction := (ttrow m.command.ttstate m.option.toNat).2

def answer (env : Environment) (ok : Bool) (s : Client) (m : Message) : Client × List Message :=
  handle env ok m.action (recopt s m.command.code) m.option

structure Net where
  client : Bool → Client
  /-- What is under way to each. -/
  inbox : Bool → List Message

/-- Client `t` takes its next message; `ok` as in do_echo. -/
def Net.step (env : Bool → Environment) (s : Net) (t ok : Bool) :
    Option (Net × Message × List Message) :=
  match s.inbox t with
  | [] => none
  | m :: rest =>
      let r := answer (env t) ok (s.client t) m
      some ({ client := Function.update s.client t r.1
              inbox := Function.update (Function.update s.inbox t rest) (!t)
                (s.inbox (!t) ++ r.2) }, m, r.2)

abbrev Exchange := Transition Net (Bool × Bool) (Message × List Message)

def network (env : Bool → Environment) (first : Net) :
    Machine Net (Bool × Bool) (Message × List Message) where
  start s := s = first
  step s action := s.step env action.1 action.2

def sent (trace : List Exchange) : Nat := (trace.flatMap fun e => e.output.2).length

def Client.options (s : Client) : List Bool :=
  [s.doecho, s.noga, s.rcvbinary, s.sndbinary, s.termtype]

/-- A refusal of a refusal, by a client that has nothing to change. -/
def Contradicts (e : Exchange) : Prop :=
  (e.after.client e.action.1).options = (e.before.client e.action.1).options ∧
    ((e.output.1.command = .wont ∧ ∃ r ∈ e.output.2, r.command = .dont) ∨
      (e.output.1.command = .dont ∧ ∃ r ∈ e.output.2, r.command = .wont))

def Ending (env : Bool → Environment) (first : Net) : Prop :=
  (∃ most, ∀ trace s, (network env first).Run trace s → sent trace ≤ most) ∧
    ∀ trace s, (network env first).Run trace s → ∀ e ∈ trace, ¬ Contradicts e

/-! A message is answered by what ttwrite makes of its characters. -/

theorem negotiate_ttstate (f : Flag) (s : Client) (c : UInt8) (n : Nat)
    (settled : f.settled { s with ttstate := n } = f.settled s)
    (get : ∀ s : Client, f.get { s with ttstate := n } = f.get s)
    (set : ∀ b, f.set { s with ttstate := n } b = { f.set s b with ttstate := n }) :
    f.negotiate { s with ttstate := n } c =
      ({ (f.negotiate s c).1 with ttstate := n }, (f.negotiate s c).2) := by
  rw [Flag.negotiate, Flag.negotiate, settled]
  split
  · rfl
  · simp only [get, set]

theorem setUpBinary_ttstate (s : Client) (n : Nat) :
    setUpBinary { s with ttstate := n } =
      ({ (setUpBinary s).1 with ttstate := n }, (setUpBinary s).2) := by
  let asked : Client := { s with optionCmd := TCWILL }
  let between : Client := { (doTxbinary asked TOTXBINARY).1 with optionCmd := TCDO }
  have first : doTxbinary { asked with ttstate := n } TOTXBINARY =
      ({ (doTxbinary asked TOTXBINARY).1 with ttstate := n }, (doTxbinary asked TOTXBINARY).2) :=
    negotiate_ttstate rcvbinaryFlag asked TOTXBINARY n rfl (fun _ => rfl) fun _ => rfl
  have second : willTxbinary { between with ttstate := n } TOTXBINARY =
      ({ (willTxbinary between TOTXBINARY).1 with ttstate := n },
        (willTxbinary between TOTXBINARY).2) :=
    negotiate_ttstate sndbinaryFlag between TOTXBINARY n rfl (fun _ => rfl) fun _ => rfl
  rw [setUpBinary, setUpBinary]
  simp only [asked] at first
  simp only [first]
  simp only [between, asked] at second
  simp only [second]

theorem handle_ttstate (env : Environment) (ok : Bool) (action : TtAction) (s : Client)
    (c : UInt8) (n : Nat) :
    handle env ok action { s with ttstate := n } c =
      ({ (handle env ok action s c).1 with ttstate := n }, (handle env ok action s c).2) := by
  cases action with
  | doNoga => exact negotiate_ttstate nogaFlag s c n rfl (fun _ => rfl) fun _ => rfl
  | doTxbinary => exact negotiate_ttstate rcvbinaryFlag s c n rfl (fun _ => rfl) fun _ => rfl
  | willTxbinary => exact negotiate_ttstate sndbinaryFlag s c n rfl (fun _ => rfl) fun _ => rfl
  | doEcho =>
      have same : echoFlag.settled { s with ttstate := n } = echoFlag.settled s := rfl
      rw [handle, handle, doEcho, doEcho, same]
      split_ifs <;> rfl
  | willTermtype =>
      let moved : Client := { s with ttstate := n }
      change willTermtype env moved c =
        ({ (willTermtype env s c).1 with ttstate := n }, (willTermtype env s c).2)
      by_cases settled : termtypeFlag.settled s = true
      · rw [willTermtype_settled env s c settled, willTermtype_settled env moved c settled]
      · by_cases agreed : s.termtype = true
        · rw [willTermtype_dropped env s c settled agreed,
            willTermtype_dropped env moved c settled agreed]
        · have open_ : s.termtype = false := (Bool.not_eq_true _).mp agreed
          cases known : s.term.or env.term with
          | none =>
              rw [willTermtype_refused env s c settled open_ known,
                willTermtype_refused env moved c settled open_ known]
          | some name =>
              have binary := setUpBinary_ttstate { s with termtype := true, term := some name } n
              rw [willTermtype_agreed env s c name settled open_ known,
                willTermtype_agreed env moved c name settled open_ known]
              simp only at binary
              simp only [moved, binary]
  | _ => rfl

theorem handle_frame {α : Type*} (get : Client → α) (env : Environment) (ok : Bool)
    (action : TtAction) (s : Client) (c : UInt8)
    (echo : action = .doEcho → ∀ s b, get { s with doecho := b } = get s)
    (noga : action = .doNoga → ∀ s b, get { s with noga := b } = get s)
    (rcvbinary : action = .doTxbinary ∨ action = .willTermtype →
      ∀ s b, get { s with rcvbinary := b } = get s)
    (sndbinary : action = .willTxbinary ∨ action = .willTermtype →
      ∀ s b, get { s with sndbinary := b } = get s)
    (termtype : action = .willTermtype → ∀ s b name code,
      get { s with termtype := b, term := name, optionCmd := code } = get s) :
    get (handle env ok action s c).1 = get s := by
  cases action with
  | doNoga => exact negotiate_frame get nogaFlag s c (noga rfl)
  | doTxbinary => exact negotiate_frame get rcvbinaryFlag s c (rcvbinary (Or.inl rfl))
  | willTxbinary => exact negotiate_frame get sndbinaryFlag s c (sndbinary (Or.inl rfl))
  | doEcho =>
      rw [handle, doEcho]
      split_ifs
      · rfl
      · exact echo rfl s _
      · rfl
  | willTermtype =>
      rw [handle]
      by_cases settled : termtypeFlag.settled s = true
      · rw [willTermtype_settled env s c settled]
      · by_cases agreed : s.termtype = true
        · rw [willTermtype_dropped env s c settled agreed]
          exact termtype rfl s false s.term s.optionCmd
        · have open_ : s.termtype = false := (Bool.not_eq_true _).mp agreed
          cases known : s.term.or env.term with
          | none => rw [willTermtype_refused env s c settled open_ known]
          | some name =>
              rw [willTermtype_agreed env s c name settled open_ known]
              have binary := setUpBinary_frame get { s with termtype := true, term := some name }
                (rcvbinary (Or.inr rfl)) (sndbinary (Or.inr rfl))
                fun s code => termtype rfl s s.termtype s.term code
              exact binary.trans (termtype rfl s true (some name) s.optionCmd)
  | _ => rfl

theorem handle_keeps (env : Environment) (ok : Bool) (action : TtAction) (s : Client) (c : UInt8) :
    (handle env ok action s c).1.ttstate = s.ttstate :=
  handle_frame Client.ttstate env ok action s c (fun _ _ _ => rfl) (fun _ _ _ => rfl)
    (fun _ _ _ => rfl) (fun _ _ _ => rfl) fun _ _ _ _ _ => rfl

theorem runAction_handle (env : Environment) (ok : Bool) (m : Message) (s : Client) (c : UInt8) :
    runAction m.action env ok s c = onSocket (handle env ok m.action s c) := by
  rw [Message.action]
  cases m.command <;> simp only [Command.ttstate, TSWOPT, TSDOPT, ttrow] <;> split_ifs <;> rfl

theorem ttwrite_message (env : Environment) (ok : Nat → Bool) (s : Client) (m : Message)
    (data : s.ttstate = TSDATA) (running : s.running = true) :
    ttwrite env ok s m.bytes =
      let r := answer env (ok 2) s m
      (r.1, [(.noOp, []), (.recopt, []), (m.action, (r.2.flatMap Message.bytes).map .putc)]) := by
  let escaped : Client := { s with ttstate := TSIAC }
  let asked : Client := { recopt s m.command.code with ttstate := m.command.ttstate }
  have escapes : ttrow s.ttstate TCIAC.toNat = (TSIAC, .noOp) := by
    rw [data]
    rfl
  have records : ttrow escaped.ttstate m.command.code.toNat = (m.command.ttstate, .recopt) := by
    change ttrow TSIAC m.command.code.toNat = _
    cases m.command <;> rfl
  have inside : asked.ttstate < NTSTATES := by
    change m.command.ttstate < NTSTATES
    cases m.command <;> decide
  have handled : ttrow asked.ttstate m.option.toNat = (TSDATA, m.action) := by
    change ttrow m.command.ttstate m.option.toNat = (TSDATA, (ttrow m.command.ttstate _).2)
    cases m.command <;> rfl
  have moved := handle_ttstate env (ok 2) m.action (recopt s m.command.code) m.option
    m.command.ttstate
  have kept : (answer env (ok 2) s m).1.ttstate = TSDATA :=
    (handle_keeps env (ok 2) m.action (recopt s m.command.code) m.option).trans data
  have back : { (answer env (ok 2) s m).1 with ttstate := TSDATA } = (answer env (ok 2) s m).1 := by
    rw [← kept]
  -- the three bytes from the last one back: each call leaves the state the next one needs
  have third : ttwrite env (fun i => ok (i + 1 + 1)) asked [m.option] =
      ((answer env (ok 2) s m).1,
        [(m.action, ((answer env (ok 2) s m).2.flatMap Message.bytes).map .putc)]) := by
    rw [ttwrite_cons env _ asked m.option [] running inside, handled]
    simp only [runAction_handle, asked, moved, onSocket, ttwrite]
    rw [← back]
    rfl
  have second : ttwrite env (fun i => ok (i + 1)) escaped [m.command.code, m.option] =
      ((answer env (ok 2) s m).1, [(.recopt, []),
        (m.action, ((answer env (ok 2) s m).2.flatMap Message.bytes).map .putc)]) := by
    rw [ttwrite_cons env _ escaped m.command.code [m.option] running
      (show TSIAC < NTSTATES by decide), records]
    change ((ttwrite env (fun i => ok (i + 1 + 1)) asked [m.option]).1, (.recopt, []) ::
      (ttwrite env (fun i => ok (i + 1 + 1)) asked [m.option]).2) = _
    rw [third]
  rw [Message.bytes, ttwrite_cons env ok s TCIAC _ running (by rw [data]; decide), escapes]
  change ((ttwrite env (fun i => ok (i + 1)) escaped [m.command.code, m.option]).1, (.noOp, []) ::
    (ttwrite env (fun i => ok (i + 1)) escaped [m.command.code, m.option]).2) = _
  rw [second]

end NetworkProgramming.Telnet
