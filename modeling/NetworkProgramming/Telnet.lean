import NetworkProgramming.TelnetFsm

/-!
The socket side of the telnet client: the tables of ttfsm.c and subfsm.c, the actions
they name, and ttwrite. A handler of options returns the messages it puts on the socket.
-/

namespace NetworkProgramming.Telnet

def TSDATA : Nat := 0
def TSIAC : Nat := 1
def TSWOPT : Nat := 2
def TSDOPT : Nat := 3
def TSSUBNEG : Nat := 4
def TSSUBIAC : Nat := 5

def SS_START : Nat := 0
def SS_TERMTYPE : Nat := 1
def SS_END : Nat := 2

def TCSE : UInt8 := 240
def TCNOP : UInt8 := 241
def TCDM : UInt8 := 242
def TCIP : UInt8 := 244
def TCAO : UInt8 := 245
def TCEC : UInt8 := 247
def TCEL : UInt8 := 248
def TCSB : UInt8 := 250
def TCWILL : UInt8 := 251
def TCWONT : UInt8 := 252
def TCDO : UInt8 := 253
def TCDONT : UInt8 := 254
def TCIAC : UInt8 := 255

def TOTXBINARY : UInt8 := 0
def TOECHO : UInt8 := 1
def TONOGA : UInt8 := 3
def TOTERMTYPE : UInt8 := 24

def TT_IS : UInt8 := 0
def TT_SEND : UInt8 := 1

def VPBEL : UInt8 := 7
def VPBS : UInt8 := 8
def VPHT : UInt8 := 9
def VPLF : UInt8 := 10
def VPVT : UInt8 := 11
def VPFF : UInt8 := 12
def VPCR : UInt8 := 13

inductive TtAction where
  | noOp
  | ttputc
  | tcdm
  | recopt
  | subopt
  | subend
  | doEcho
  | doNoga
  | doTxbinary
  | doNotsup
  | willTermtype
  | willTxbinary
  | willNotsup
  | tnabort
  deriving DecidableEq

def ttstab : List (FsmTrans TtAction) :=
  [⟨TSDATA, TCIAC.toNat, TSIAC, .noOp⟩,
    ⟨TSDATA, TCANY, TSDATA, .ttputc⟩,
    ⟨TSIAC, TCIAC.toNat, TSDATA, .ttputc⟩,
    ⟨TSIAC, TCSB.toNat, TSSUBNEG, .noOp⟩,
    ⟨TSIAC, TCNOP.toNat, TSDATA, .noOp⟩,
    ⟨TSIAC, TCDM.toNat, TSDATA, .tcdm⟩,
    ⟨TSIAC, TCWILL.toNat, TSWOPT, .recopt⟩,
    ⟨TSIAC, TCWONT.toNat, TSWOPT, .recopt⟩,
    ⟨TSIAC, TCDO.toNat, TSDOPT, .recopt⟩,
    ⟨TSIAC, TCDONT.toNat, TSDOPT, .recopt⟩,
    ⟨TSIAC, TCANY, TSDATA, .noOp⟩,
    ⟨TSSUBNEG, TCIAC.toNat, TSSUBIAC, .noOp⟩,
    ⟨TSSUBNEG, TCANY, TSSUBNEG, .subopt⟩,
    ⟨TSSUBIAC, TCSE.toNat, TSDATA, .subend⟩,
    ⟨TSSUBIAC, TCANY, TSSUBNEG, .subopt⟩,
    ⟨TSWOPT, TOECHO.toNat, TSDATA, .doEcho⟩,
    ⟨TSWOPT, TONOGA.toNat, TSDATA, .doNoga⟩,
    ⟨TSWOPT, TOTXBINARY.toNat, TSDATA, .doTxbinary⟩,
    ⟨TSWOPT, TCANY, TSDATA, .doNotsup⟩,
    ⟨TSDOPT, TOTERMTYPE.toNat, TSDATA, .willTermtype⟩,
    ⟨TSDOPT, TOTXBINARY.toNat, TSDATA, .willTxbinary⟩,
    ⟨TSDOPT, TCANY, TSDATA, .willNotsup⟩,
    ⟨FSINVALID, TCANY, FSINVALID, .tnabort⟩]

inductive SubAction where
  | noOp
  | subtermtype
  | tnabort
  deriving DecidableEq

def substab : List (FsmTrans SubAction) :=
  [⟨SS_START, TOTERMTYPE.toNat, SS_TERMTYPE, .noOp⟩,
    ⟨SS_START, TCANY, SS_END, .noOp⟩,
    ⟨SS_TERMTYPE, TT_SEND.toNat, SS_END, .subtermtype⟩,
    ⟨SS_TERMTYPE, TCANY, SS_END, .noOp⟩,
    ⟨SS_END, TCANY, SS_END, .noOp⟩,
    ⟨FSINVALID, TCANY, FSINVALID, .tnabort⟩]

/-- The arrays are zero before fsmbuild. -/
def ttfsm : Fsm := fsminit (fun _ _ => 0) ttstab NTSTATES

def subfsm : Fsm := fsminit (fun _ _ => 0) substab NSSTATES

/-! What the compiled tables say. -/

def ttrow (state cn : Nat) : Nat × TtAction :=
  match state with
  | 0 => if cn = 255 then (TSIAC, .noOp) else (TSDATA, .ttputc)
  | 1 =>
      if cn = 255 then (TSDATA, .ttputc)
      else if cn = 250 then (TSSUBNEG, .noOp)
      else if cn = 242 then (TSDATA, .tcdm)
      else if cn = 251 ∨ cn = 252 then (TSWOPT, .recopt)
      else if cn = 253 ∨ cn = 254 then (TSDOPT, .recopt)
      else (TSDATA, .noOp)
  | 2 => (TSDATA, if cn = 0 then .doTxbinary else if cn = 1 then .doEcho
      else if cn = 3 then .doNoga else .doNotsup)
  | 3 => (TSDATA, if cn = 0 then .willTxbinary else if cn = 24 then .willTermtype
      else .willNotsup)
  | 4 => if cn = 255 then (TSSUBIAC, .noOp) else (TSSUBNEG, .subopt)
  | 5 => if cn = 240 then (TSDATA, .subend) else (TSSUBNEG, .subopt)
  | _ => (FSINVALID, .tnabort)

def subrow (state cn : Nat) : Nat × SubAction :=
  match state with
  | 0 => (if cn = 24 then SS_TERMTYPE else SS_END, .noOp)
  | 1 => (SS_END, if cn = 1 then .subtermtype else .noOp)
  | 2 => (SS_END, .noOp)
  | _ => (FSINVALID, .tnabort)

theorem ttrow_unnamed (state cn : Nat) (other : ∀ k ∈ ttstab.map (·.ftChar), cn ≠ k) :
    ttrow state cn = ttrow state 2 := by
  unfold ttrow
  split <;> simp [other 255 (by decide), other 250 (by decide), other 242 (by decide),
    other 251 (by decide), other 252 (by decide), other 253 (by decide), other 254 (by decide),
    other 240 (by decide), other 0 (by decide), other 1 (by decide), other 3 (by decide),
    other 24 (by decide)]

theorem ttstab_compiled : ∀ state < NTSTATES, ∀ cn < NCHRS,
    (ttstab[ttfsm state cn]?.map fun pt => (pt.ftNext, pt.ftAction)) = some (ttrow state cn) :=
  fsminit_rows ttstab NTSTATES (fun ti => ttstab[ti]?.map fun pt => (pt.ftNext, pt.ftAction)) ttrow
    (by unfold Unnamed; decide) ttrow_unnamed (by decide +kernel)

theorem subrow_unnamed (state cn : Nat) (other : ∀ k ∈ substab.map (·.ftChar), cn ≠ k) :
    subrow state cn = subrow state 2 := by
  unfold subrow
  split <;> simp [other 24 (by decide), other 1 (by decide)]

theorem substab_compiled : ∀ state < NSSTATES, ∀ cn < NCHRS,
    (substab[subfsm state cn]?.map fun pt => (pt.ftNext, pt.ftAction)) =
      some (subrow state cn) :=
  fsminit_rows substab NSSTATES (fun ti => substab[ti]?.map fun pt => (pt.ftNext, pt.ftAction))
    subrow (by unfold Unnamed; decide) subrow_unnamed (by decide +kernel)

/-! The state between two characters, and the actions. -/

structure Client where
  ttstate : Nat
  substate : Nat
  optionCmd : UInt8
  doecho : Bool
  noga : Bool
  rcvbinary : Bool
  sndbinary : Bool
  termtype : Bool
  term : Option (List UInt8)
  synching : Int8
  /-- The static variable of ttputc. -/
  lastChar : UInt8
  /-- Neither has errexit been called nor a null pointer read. -/
  running : Bool
  deriving DecidableEq

def fsmbuild : Client :=
  ⟨TSDATA, SS_START, 0, false, false, false, false, false, none, 0, 0, true⟩

inductive Capability where
  | cr
  | do_
  | bl
  | bc
  | ta
  | cl
  deriving DecidableEq

structure Environment where
  /-- getenv("TERM"). -/
  term : Option (List UInt8)
  /-- The string that tgetstr finds, if tgetent finds the terminal. -/
  tgetstr : Capability → Option (List UInt8)

inductive Command where
  | will
  | wont
  | do_
  | dont
  deriving DecidableEq

def Command.code : Command → UInt8
  | .will => TCWILL
  | .wont => TCWONT
  | .do_ => TCDO
  | .dont => TCDONT

structure Message where
  command : Command
  option : UInt8
  deriving DecidableEq

def Message.bytes (m : Message) : List UInt8 := [TCIAC, m.command.code, m.option]

def recopt (s : Client) (c : UInt8) : Client := { s with optionCmd := c }

structure Flag where
  get : Client → Bool
  set : Client → Bool → Client
  on : Command
  off : Command
  yes : Command
  no : Command
  get_set : ∀ s b, get (set s b) = b
  apart : on ≠ off

def Flag.settled (f : Flag) (s : Client) : Bool :=
  if f.get s then decide (s.optionCmd = f.on.code) else decide (s.optionCmd = f.off.code)

def Flag.negotiate (f : Flag) (s : Client) (c : UInt8) : Client × List Message :=
  if f.settled s then (s, [])
  else
    let s := f.set s (!f.get s)
    (s, [⟨if f.get s then f.yes else f.no, c⟩])

def nogaFlag : Flag :=
  { get := Client.noga, set := fun s b => { s with noga := b }
    on := .will, off := .wont, yes := .do_, no := .dont
    get_set := fun _ _ => rfl, apart := by decide }

def rcvbinaryFlag : Flag :=
  { get := Client.rcvbinary, set := fun s b => { s with rcvbinary := b }
    on := .will, off := .wont, yes := .do_, no := .dont
    get_set := fun _ _ => rfl, apart := by decide }

def sndbinaryFlag : Flag :=
  { get := Client.sndbinary, set := fun s b => { s with sndbinary := b }
    on := .do_, off := .dont, yes := .will, no := .wont
    get_set := fun _ _ => rfl, apart := by decide }

def echoFlag : Flag :=
  { get := Client.doecho, set := fun s b => { s with doecho := b }
    on := .will, off := .wont, yes := .do_, no := .dont
    get_set := fun _ _ => rfl, apart := by decide }

def termtypeFlag : Flag :=
  { get := Client.termtype, set := fun s b => { s with termtype := b }
    on := .do_, off := .dont, yes := .will, no := .wont
    get_set := fun _ _ => rfl, apart := by decide }

def doNoga : Client → UInt8 → Client × List Message := nogaFlag.negotiate

def doTxbinary : Client → UInt8 → Client × List Message := rcvbinaryFlag.negotiate

def willTxbinary : Client → UInt8 → Client × List Message := sndbinaryFlag.negotiate

def doNotsup (s : Client) (c : UInt8) : Client × List Message := (s, [⟨.dont, c⟩])

def willNotsup (s : Client) (c : UInt8) : Client × List Message := (s, [⟨.wont, c⟩])

/-- `ok`: both tcgetattr and tcsetattr succeed. -/
def doEcho (ok : Bool) (s : Client) (c : UInt8) : Client × List Message :=
  if echoFlag.settled s then (s, [])
  else
    let s := if ok then { s with doecho := !s.doecho } else s
    (s, [⟨if s.doecho then .do_ else .dont, c⟩])

def setUpBinary (s : Client) : Client × List Message :=
  let r := doTxbinary { s with optionCmd := TCWILL } TOTXBINARY
  let q := willTxbinary { r.1 with optionCmd := TCDO } TOTXBINARY
  (q.1, r.2 ++ q.2)

def willTermtype (env : Environment) (s : Client) (c : UInt8) : Client × List Message :=
  if termtypeFlag.settled s then (s, [])
  else
    let s := { s with termtype := !s.termtype }
    let s :=
      if s.termtype ∧ s.term = none then
        match env.term with
        | none => { s with termtype := !s.termtype }
        | some name => { s with term := some name }
      else s
    if s.termtype then
      let r := setUpBinary s
      (r.1, ⟨.will, c⟩ :: r.2)
    else (s, [⟨.wont, c⟩])

inductive Output where
  /-- putc on the socket. -/
  | putc (c : UInt8)
  | xputc (c : UInt8)
  | xfputs (str : List UInt8)
  deriving DecidableEq

def tcout (env : Environment) (cap : Capability) : List Output × Bool :=
  match env.tgetstr cap with
  | some str => ([.xfputs str], true)
  | none => ([], false)

def special (env : Environment) (c : UInt8) : List Output × Bool :=
  if c = VPLF ∨ c = VPCR then ([], true)
  else if c = VPBEL then tcout env .bl
  else if c = VPBS then tcout env .bc
  else if c = VPHT then tcout env .ta
  else if c = VPVT then tcout env .do_
  else if c = VPFF then tcout env .cl
  else ([], true)

def ttputc (env : Environment) (s : Client) (c : UInt8) : Client × List Output :=
  if s.rcvbinary then (s, [.xputc c])
  else if s.synching ≠ 0 then (s, [])
  else if (s.lastChar = VPCR ∧ c = VPLF) ∨ (s.lastChar = VPLF ∧ c = VPCR) then
    ({ s with lastChar := 0 }, [.xputc VPLF])
  else
    let moved :=
      if s.lastChar = VPCR then (tcout env .cr).1
      else if s.lastChar = VPLF then (tcout env .do_).1
      else []
    let shown :=
      if 32 ≤ c ∧ c < TCIAC then [.xputc c]
      else (special env c).1 ++ if (special env c).2 then [] else [.xputc c]
    ({ s with lastChar := c }, moved ++ shown)

def tcdm (s : Client) : Client :=
  if 0 < s.synching then { s with synching := s.synching - 1 } else s

/-- fputs of a null pointer ends the process. -/
def subtermtype (s : Client) : Client × List Output :=
  let head := [.putc TCIAC, .putc TCSB, .putc TOTERMTYPE, .putc TT_IS]
  match s.term with
  | some term => (s, head ++ term.map .putc ++ [.putc TCIAC, .putc TCSE])
  | none => ({ s with running := false }, head)

def runSub (action : SubAction) (s : Client) : Client × List Output :=
  match action with
  | .noOp => (s, [])
  | .subtermtype => subtermtype s
  | .tnabort => ({ s with running := false }, [])

def pick {Action : Type*} (tab : List (FsmTrans Action)) (fsm : Fsm) (state : Nat) (c : UInt8) :
    Option (FsmTrans Action) :=
  tab[fsm state c.toNat]?

def subopt (s : Client) (c : UInt8) : Client × List Output :=
  match pick substab subfsm s.substate c with
  | none => ({ s with running := false }, [])
  | some pt =>
      let r := runSub pt.ftAction s
      ({ r.1 with substate := pt.ftNext }, r.2)

def subend (s : Client) : Client := { s with substate := SS_START }

def onSocket (r : Client × List Message) : Client × List Output :=
  (r.1, (r.2.flatMap Message.bytes).map .putc)

def runAction (action : TtAction) (env : Environment) (ok : Bool) (s : Client) (c : UInt8) :
    Client × List Output :=
  match action with
  | .noOp => (s, [])
  | .ttputc => ttputc env s c
  | .tcdm => (tcdm s, [])
  | .recopt => (recopt s c, [])
  | .subopt => subopt s c
  | .subend => (subend s, [])
  | .doEcho => onSocket (doEcho ok s c)
  | .doNoga => onSocket (doNoga s c)
  | .doTxbinary => onSocket (doTxbinary s c)
  | .doNotsup => onSocket (doNotsup s c)
  | .willTermtype => onSocket (willTermtype env s c)
  | .willTxbinary => onSocket (willTxbinary s c)
  | .willNotsup => onSocket (willNotsup s c)
  | .tnabort => ({ s with running := false }, [])

/-- One turn of ttwrite: the action it calls, the state after it and what it put out. -/
def ttchar (env : Environment) (ok : Bool) (s : Client) (c : UInt8) :
    Client × Option TtAction × List Output :=
  match pick ttstab ttfsm s.ttstate c with
  | none => ({ s with running := false }, none, [])
  | some pt =>
      let r := runAction pt.ftAction env ok s c
      ({ r.1 with ttstate := pt.ftNext }, some pt.ftAction, r.2)

def ttwrite (env : Environment) : (Nat → Bool) → Client → List UInt8 →
    Client × List (TtAction × List Output)
  | _, s, [] => (s, [])
  | ok, s, c :: rest =>
      if s.running then
        let r := ttchar env (ok 0) s c
        let q := ttwrite env (fun i => ok (i + 1)) r.1 rest
        (q.1, r.2.1.toList.map (fun action => (action, r.2.2)) ++ q.2)
      else (s, [])

theorem ttchar_eq (env : Environment) (ok : Bool) (s : Client) (c : UInt8)
    (inside : s.ttstate < NTSTATES) :
    ttchar env ok s c =
      let row := ttrow s.ttstate c.toNat
      let r := runAction row.2 env ok s c
      ({ r.1 with ttstate := row.1 }, some row.2, r.2) := by
  obtain ⟨pt, picked, row⟩ :=
    Option.map_eq_some_iff.mp (ttstab_compiled s.ttstate inside c.toNat c.toNat_lt)
  rw [ttchar, pick, picked, ← row]

theorem subopt_eq (s : Client) (c : UInt8) (inside : s.substate < NSSTATES) :
    subopt s c =
      let row := subrow s.substate c.toNat
      let r := runSub row.2 s
      ({ r.1 with substate := row.1 }, r.2) := by
  obtain ⟨pt, picked, row⟩ :=
    Option.map_eq_some_iff.mp (substab_compiled s.substate inside c.toNat c.toNat_lt)
  rw [subopt, pick, picked, ← row]

theorem ttwrite_cons (env : Environment) (ok : Nat → Bool) (s : Client) (c : UInt8)
    (rest : List UInt8) (running : s.running = true) (inside : s.ttstate < NTSTATES) :
    ttwrite env ok s (c :: rest) =
      let row := ttrow s.ttstate c.toNat
      let r := runAction row.2 env (ok 0) s c
      let q := ttwrite env (fun i => ok (i + 1)) { r.1 with ttstate := row.1 } rest
      (q.1, (row.2, r.2) :: q.2) := by
  rw [ttwrite, if_pos running, ttchar_eq env (ok 0) s c inside]
  rfl

/-! The handlers of options, by what has been asked. -/

theorem Command.code_inj (a b : Command) : a.code = b.code ↔ a = b := by
  cases a <;> cases b <;> decide

theorem Flag.settled_on (f : Flag) (s : Client) (asked : s.optionCmd = f.on.code) :
    f.settled s = f.get s := by
  have other : f.on.code ≠ f.off.code := fun same => f.apart ((Command.code_inj _ _).mp same)
  rw [Flag.settled, asked]
  cases f.get s with
  | true => exact decide_eq_true rfl
  | false => exact decide_eq_false other

theorem Flag.settled_off (f : Flag) (s : Client) (asked : s.optionCmd = f.off.code) :
    f.settled s = !f.get s := by
  have other : f.off.code ≠ f.on.code := fun same =>
    f.apart ((Command.code_inj _ _).mp same).symm
  rw [Flag.settled, asked]
  cases f.get s with
  | true => exact decide_eq_false other
  | false => exact decide_eq_true rfl

theorem willTermtype_settled (env : Environment) (s : Client) (c : UInt8)
    (settled : termtypeFlag.settled s = true) : willTermtype env s c = (s, []) := if_pos settled

theorem willTermtype_dropped (env : Environment) (s : Client) (c : UInt8)
    (settled : ¬ termtypeFlag.settled s = true) (agreed : s.termtype = true) :
    willTermtype env s c = ({ s with termtype := false }, [⟨.wont, c⟩]) := by
  rw [willTermtype, if_neg settled]
  simp [agreed]

theorem willTermtype_refused (env : Environment) (s : Client) (c : UInt8)
    (settled : ¬ termtypeFlag.settled s = true) (open_ : s.termtype = false)
    (unknown : s.term.or env.term = none) : willTermtype env s c = (s, [⟨.wont, c⟩]) := by
  obtain ⟨here, there⟩ := Option.or_eq_none_iff.mp unknown
  have back : { s with termtype := false, term := none } = s := by rw [← open_, ← here]
  rw [willTermtype, if_neg settled]
  simp [open_, here, there, back]

theorem willTermtype_agreed (env : Environment) (s : Client) (c : UInt8) (name : List UInt8)
    (settled : ¬ termtypeFlag.settled s = true) (open_ : s.termtype = false)
    (known : s.term.or env.term = some name) :
    willTermtype env s c =
      let r := setUpBinary { s with termtype := true, term := some name }
      (r.1, ⟨.will, c⟩ :: r.2) := by
  rw [willTermtype, if_neg settled]
  cases here : s.term with
  | none =>
      have there : env.term = some name := by simpa [here] using known
      simp [open_, there]
  | some other =>
      obtain rfl : other = name := by simpa [here] using known
      simp [open_]

/-! What the handlers leave alone: whatever does not depend on the fields that they set. -/

theorem negotiate_frame {α : Type*} (get : Client → α) (f : Flag) (s : Client) (c : UInt8)
    (sets : ∀ s b, get (f.set s b) = get s) : get (f.negotiate s c).1 = get s := by
  rw [Flag.negotiate]
  split
  · rfl
  · exact sets s _

theorem setUpBinary_frame {α : Type*} (get : Client → α) (s : Client)
    (rcvbinary : ∀ s b, get { s with rcvbinary := b } = get s)
    (sndbinary : ∀ s b, get { s with sndbinary := b } = get s)
    (optionCmd : ∀ s code, get { s with optionCmd := code } = get s) :
    get (setUpBinary s).1 = get s := by
  let asked : Client := { s with optionCmd := TCWILL }
  let between := (doTxbinary asked TOTXBINARY).1
  calc get (setUpBinary s).1
      = get { between with optionCmd := TCDO } :=
        negotiate_frame get sndbinaryFlag _ TOTXBINARY sndbinary
    _ = get between := optionCmd between TCDO
    _ = get asked := negotiate_frame get rcvbinaryFlag asked TOTXBINARY rcvbinary
    _ = get s := optionCmd s TCWILL

end NetworkProgramming.Telnet
