import Mathlib.Tactic.IntervalCases
import NetworkProgramming.Machine
import NetworkProgramming.Telnet

/-!
Subnegotiation over a whole session: what the server sends goes through the table of
ttfsm.c into that of subfsm.c, and asks for the terminal's name whether or not the option
has been agreed.
-/

namespace NetworkProgramming.Telnet

inductive Input where
  /-- A character from the server; `ok` as in ttwrite. -/
  | received (c : UInt8) (ok : Bool)
  /-- SIGURG: rcvurg. -/
  | urgent
  deriving DecidableEq

abbrev Turn := Transition Client Input (List Output)

def session (env : Environment) : Machine Client Input (List Output) where
  start s := s = fsmbuild
  step s input :=
    match input with
    | .received c ok =>
        if s.running then
          let r := ttchar env ok s c
          some (r.1, r.2.2)
        else none
    | .urgent => some ({ s with synching := s.synching + 1 }, [])

def called (e : Turn) : Option TtAction :=
  match e.action with
  | .received c _ => (pick ttstab ttfsm e.before.ttstate c).map FsmTrans.ftAction
  | .urgent => none

def subcalled (e : Turn) : Option SubAction :=
  match e.action with
  | .received c _ =>
      if called e = some .subopt then
        (pick substab subfsm e.before.substate c).map FsmTrans.ftAction
      else none
  | .urgent => none

/-- Neither machine aborts, and the terminal's name is there when it is sent. -/
structure Safe (e : Turn) : Prop where
  ttwrite : called e ≠ some .tnabort
  subopt : subcalled e ≠ some .tnabort
  name : subcalled e = some .subtermtype → e.before.term ≠ none

def Outside (s : Client) : Prop :=
  s.ttstate ≠ TSSUBNEG → s.ttstate ≠ TSSUBIAC → s.substate = SS_START

structure Agrees (env : Environment) (e : Turn) : Prop where
  handled : called e = some .willTermtype
  asked : e.before.optionCmd = TCDO
  known : env.term ≠ none

/-! What the rows have in common. -/

theorem ttrow_inside (state cn : Nat) (inside : state < NTSTATES) :
    (ttrow state cn).1 < NTSTATES ∧ (ttrow state cn).2 ≠ .tnabort := by
  rw [NTSTATES] at inside
  interval_cases state <;> simp only [ttrow] <;> split_ifs <;> decide

theorem ttrow_subneg (state cn : Nat) (inside : state < NTSTATES) :
    ((ttrow state cn).2 = .subopt → (ttrow state cn).1 = TSSUBNEG) ∧
      ((ttrow state cn).2 ≠ .subend → (ttrow state cn).1 ≠ TSSUBNEG →
        (ttrow state cn).1 ≠ TSSUBIAC → state ≠ TSSUBNEG ∧ state ≠ TSSUBIAC) := by
  rw [NTSTATES] at inside
  interval_cases state <;> simp only [ttrow] <;> split_ifs <;> decide

/-- will_termtype answers what recopt has recorded for TSDOPT. -/
theorem ttrow_dopt (state cn : Nat) (inside : state < NTSTATES) :
    ((ttrow state cn).2 = .willTermtype → state = TSDOPT) ∧
      ((ttrow state cn).1 = TSDOPT → (ttrow state cn).2 = .recopt ∧ (cn = 253 ∨ cn = 254)) := by
  rw [NTSTATES] at inside
  interval_cases state <;> simp only [ttrow] <;> split_ifs <;>
    simp_all [TSDATA, TSIAC, TSWOPT, TSDOPT, TSSUBNEG, TSSUBIAC]

theorem subrow_inside (state cn : Nat) (inside : state < NSSTATES) :
    (subrow state cn).1 < NSSTATES ∧ (subrow state cn).2 ≠ .tnabort := by
  rw [NSSTATES] at inside
  interval_cases state <;> simp only [subrow] <;> try split_ifs
  all_goals decide

/-! What the actions leave alone. -/

/-- The part of the state that the name and the subnegotiation depend on. -/
structure SameName (s after : Client) : Prop where
  substate : after.substate = s.substate
  term : after.term = s.term
  termtype : after.termtype = s.termtype

theorem negotiate_same (f : Flag) (s : Client) (c : UInt8)
    (sets : ∀ s b, SameName s (f.set s b)) : SameName s (f.negotiate s c).1 :=
  ⟨negotiate_frame Client.substate f s c fun s b => (sets s b).substate,
    negotiate_frame Client.term f s c fun s b => (sets s b).term,
    negotiate_frame Client.termtype f s c fun s b => (sets s b).termtype⟩

theorem setUpBinary_same (s : Client) : SameName s (setUpBinary s).1 :=
  ⟨setUpBinary_frame Client.substate s (fun _ _ => rfl) (fun _ _ => rfl) fun _ _ => rfl,
    setUpBinary_frame Client.term s (fun _ _ => rfl) (fun _ _ => rfl) fun _ _ => rfl,
    setUpBinary_frame Client.termtype s (fun _ _ => rfl) (fun _ _ => rfl) fun _ _ => rfl⟩

theorem runAction_same (action : TtAction) (env : Environment) (ok : Bool) (s : Client)
    (c : UInt8) (subopt : action ≠ .subopt) (subend : action ≠ .subend)
    (termtype : action ≠ .willTermtype) : SameName s (runAction action env ok s c).1 := by
  cases action with
  | noOp | recopt | doNotsup | willNotsup | tnabort => exact ⟨rfl, rfl, rfl⟩
  | ttputc =>
      simp only [runAction, ttputc]
      split_ifs <;> exact ⟨rfl, rfl, rfl⟩
  | tcdm =>
      simp only [runAction, tcdm]
      split_ifs <;> exact ⟨rfl, rfl, rfl⟩
  | doEcho =>
      simp only [runAction, onSocket, doEcho]
      split_ifs <;> exact ⟨rfl, rfl, rfl⟩
  | doNoga => exact negotiate_same nogaFlag s c fun _ _ => ⟨rfl, rfl, rfl⟩
  | doTxbinary => exact negotiate_same rcvbinaryFlag s c fun _ _ => ⟨rfl, rfl, rfl⟩
  | willTxbinary => exact negotiate_same sndbinaryFlag s c fun _ _ => ⟨rfl, rfl, rfl⟩
  | subopt => exact absurd rfl subopt
  | subend => exact absurd rfl subend
  | willTermtype => exact absurd rfl termtype

theorem willTermtype_name (env : Environment) (s : Client) (c : UInt8)
    (asked : s.optionCmd = TCDO ∨ s.optionCmd = TCDONT)
    (named : s.termtype = true → s.term ≠ none) :
    let after := (willTermtype env s c).1
    after.substate = s.substate ∧ (after.termtype = true → after.term ≠ none) ∧
      (after.term ≠ none ↔ s.term ≠ none ∨ (s.optionCmd = TCDO ∧ env.term ≠ none)) := by
  rcases asked with do_ | dont
  · have settled : termtypeFlag.settled s = s.termtype := termtypeFlag.settled_on s do_
    cases agreed : s.termtype with
    | true =>
        have name := named agreed
        rw [willTermtype_settled env s c (settled.trans agreed)]
        exact ⟨rfl, fun _ => name, iff_of_true name (Or.inl name)⟩
    | false =>
        have asks : ¬ termtypeFlag.settled s = true := by simp [settled, agreed]
        -- the first agreement looks for the name: in the session, then in the environment
        cases known : s.term.or env.term with
        | none =>
            obtain ⟨here, there⟩ := Option.or_eq_none_iff.mp known
            rw [willTermtype_refused env s c asks agreed known]
            exact ⟨rfl, named, by simp [here, there]⟩
        | some name =>
            rw [willTermtype_agreed env s c name asks agreed known]
            obtain ⟨substate, term, -⟩ :=
              setUpBinary_same { s with termtype := true, term := some name }
            have some_ : s.term ≠ none ∨ env.term ≠ none := by
              by_contra neither
              simp only [not_or, not_not] at neither
              simp [neither.1, neither.2] at known
            have set : (setUpBinary { s with termtype := true, term := some name }).1.term ≠ none := by
              rw [term]
              simp
            exact ⟨substate, fun _ => set, iff_of_true set (some_.imp id fun there => ⟨do_, there⟩)⟩
  · have settled : termtypeFlag.settled s = !s.termtype := termtypeFlag.settled_off s dont
    have other : s.optionCmd ≠ TCDO := by
      rw [dont]
      decide
    cases agreed : s.termtype with
    | true =>
        rw [willTermtype_dropped env s c (by simp [settled, agreed]) agreed]
        exact ⟨rfl, fun again => by simp at again, by simp [other]⟩
    | false =>
        rw [willTermtype_settled env s c (by simp [settled, agreed])]
        exact ⟨rfl, named, by simp [other]⟩

/-! The invariant, and what each turn keeps of it. -/

structure Session (env : Environment) (trace : List Turn) (s : Client) : Prop where
  ttstate : s.ttstate < NTSTATES
  substate : s.substate < NSSTATES
  outside : Outside s
  asked : s.ttstate = TSDOPT → s.optionCmd = TCDO ∨ s.optionCmd = TCDONT
  named : s.termtype = true → s.term ≠ none
  agreed : s.term ≠ none ↔ ∃ e ∈ trace, Agrees env e

theorem session_start (env : Environment) (s : Client) (first : (session env).start s) :
    Session env [] s := by
  obtain rfl : s = fsmbuild := first
  refine ⟨by decide, by decide, fun _ _ => rfl, ?_, ?_, ?_⟩
  · intro dopt
    exact absurd dopt (by decide)
  · intro agreed
    exact absurd agreed (by decide)
  · simp [fsmbuild]

theorem called_eq (e : Turn) (c : UInt8) (ok : Bool) (received : e.action = .received c ok)
    (inside : e.before.ttstate < NTSTATES) :
    called e = some (ttrow e.before.ttstate c.toNat).2 := by
  obtain ⟨pt, picked, row⟩ :=
    Option.map_eq_some_iff.mp (ttstab_compiled e.before.ttstate inside c.toNat c.toNat_lt)
  simp only [called, received, pick, picked, Option.map_some, ← row]

theorem subcalled_eq (e : Turn) (c : UInt8) (ok : Bool) (received : e.action = .received c ok)
    (inside : e.before.substate < NSSTATES) (subopt : called e = some .subopt) :
    subcalled e = some (subrow e.before.substate c.toNat).2 := by
  obtain ⟨pt, picked, row⟩ :=
    Option.map_eq_some_iff.mp (substab_compiled e.before.substate inside c.toNat c.toNat_lt)
  simp only [subcalled, received, if_pos subopt, pick, picked, Option.map_some, ← row]

theorem runSub_same (action : SubAction) (s : Client) : SameName s (runSub action s).1 := by
  cases action with
  | noOp | tnabort => exact ⟨rfl, rfl, rfl⟩
  | subtermtype =>
      rw [runSub, subtermtype]
      split <;> exact ⟨rfl, rfl, rfl⟩

theorem agrees_snoc (env : Environment) (trace : List Turn) (e : Turn) :
    (∃ d ∈ trace ++ [e], Agrees env d) ↔ (∃ d ∈ trace, Agrees env d) ∨ Agrees env e := by
  simp only [List.mem_append, List.mem_singleton, or_and_right, exists_or, exists_eq_left]

theorem session_urgent (env : Environment) (trace : List Turn) (e : Turn)
    (urgent : e.action = .urgent) (stepped : (session env).Stepped e)
    (held : Session env trace e.before) : Session env (trace ++ [e]) e.after := by
  have after : e.after = { e.before with synching := e.before.synching + 1 } := by
    simp only [Machine.Stepped, session, urgent, Option.some.injEq, Prod.mk.injEq] at stepped
    exact stepped.1.symm
  have other : ¬ Agrees env e := fun agrees => by
    have handled := agrees.handled
    simp [called, urgent] at handled
  rw [after]
  refine ⟨held.ttstate, held.substate, held.outside, held.asked, held.named, ?_⟩
  rw [agrees_snoc, or_iff_left other]
  exact held.agreed

theorem ttchar_same (env : Environment) (ok : Bool) (s after : Client) (c : UInt8)
    (moved : after = { (runAction (ttrow s.ttstate c.toNat).2 env ok s c).1 with
      ttstate := (ttrow s.ttstate c.toNat).1 })
    (inside : s.ttstate < NTSTATES) (small : s.substate < NSSTATES) (outside : Outside s)
    (other : (ttrow s.ttstate c.toNat).2 ≠ .willTermtype) :
    after.term = s.term ∧ after.termtype = s.termtype ∧ after.substate < NSSTATES ∧
      Outside after := by
  obtain ⟨subneg, leaves⟩ := ttrow_subneg s.ttstate c.toNat inside
  generalize ttrow s.ttstate c.toNat = row at *
  by_cases sub : row.2 = .subopt
  · have state : after = { (Telnet.subopt s c).1 with ttstate := row.1 } := by
      rw [moved, sub]
      rfl
    rw [subopt_eq s c small] at state
    obtain ⟨-, term, termtype⟩ := runSub_same (subrow s.substate c.toNat).2 s
    rw [state]
    refine ⟨term, termtype, (subrow_inside _ c.toNat small).1, ?_⟩
    intro one
    exact absurd (subneg sub) one
  · by_cases ends : row.2 = .subend
    · have state : after = { subend s with ttstate := row.1 } := by
        rw [moved, ends]
        rfl
      rw [state]
      exact ⟨rfl, rfl, show SS_START < NSSTATES by decide, fun _ _ => rfl⟩
    · obtain ⟨substate, term, termtype⟩ := runAction_same row.2 env ok s c sub ends other
      rw [moved]
      refine ⟨term, termtype, substate.trans_lt small, ?_⟩
      intro one two
      obtain ⟨first, second⟩ := leaves ends one two
      exact substate.trans (outside first second)

theorem session_received (env : Environment) (trace : List Turn) (e : Turn) (c : UInt8)
    (ok : Bool) (received : e.action = .received c ok) (stepped : (session env).Stepped e)
    (held : Session env trace e.before) : Session env (trace ++ [e]) e.after := by
  have inside := held.ttstate
  have calls := called_eq e c ok received inside
  have after : e.after =
      { (runAction (ttrow e.before.ttstate c.toNat).2 env ok e.before c).1 with
        ttstate := (ttrow e.before.ttstate c.toNat).1 } := by
    simp only [Machine.Stepped, session, received, Option.ite_none_right_eq_some,
      Option.some.injEq, Prod.mk.injEq, ttchar_eq env ok e.before c inside] at stepped
    exact stepped.2.1.symm
  obtain ⟨next, -⟩ := ttrow_inside e.before.ttstate c.toNat inside
  obtain ⟨-, leaves⟩ := ttrow_subneg e.before.ttstate c.toNat inside
  obtain ⟨handles, dopt⟩ := ttrow_dopt e.before.ttstate c.toNat inside
  have kept := ttchar_same env ok e.before e.after c after inside held.substate held.outside
  generalize ttrow e.before.ttstate c.toNat = row at *
  -- the option is read in TSDOPT, which only DO and DONT lead to
  have asked : e.after.ttstate = TSDOPT →
      e.after.optionCmd = TCDO ∨ e.after.optionCmd = TCDONT := by
    intro here
    rw [after] at here
    obtain ⟨recopt_, command⟩ := dopt here
    rw [after, recopt_]
    exact command.imp (fun same => UInt8.toNat_inj.mp same) fun same => UInt8.toNat_inj.mp same
  by_cases handled : row.2 = .willTermtype
  · obtain ⟨substate, named, term⟩ :=
      willTermtype_name env e.before c (held.asked (handles handled)) held.named
    have state : e.after = { (willTermtype env e.before c).1 with ttstate := row.1 } := by
      rw [after, handled]
      rfl
    have agrees : Agrees env e ↔ e.before.optionCmd = TCDO ∧ env.term ≠ none :=
      ⟨fun a => ⟨a.asked, a.known⟩, fun a => ⟨calls.trans (congrArg some handled), a.1, a.2⟩⟩
    refine ⟨by rw [state]; exact next, ?_, ?_, asked, by rw [state]; exact named, ?_⟩
    · rw [state]
      exact substate.trans_lt held.substate
    · rw [state]
      intro one two
      obtain ⟨first, second⟩ := leaves (by rw [handled]; decide) one two
      exact substate.trans (held.outside first second)
    · rw [agrees_snoc, ← held.agreed, agrees, state]
      exact term
  -- no other action touches the name
  · have other : ¬ Agrees env e := fun agrees =>
      handled (Option.some.inj (calls.symm.trans agrees.handled))
    obtain ⟨term, termtype, substate, outside⟩ := kept handled
    refine ⟨by rw [after]; exact next, substate, outside, asked, ?_, ?_⟩
    · rw [term, termtype]
      exact held.named
    · rw [agrees_snoc, or_iff_left other, term]
      exact held.agreed

theorem session_run (env : Environment) {trace : List Turn} {s : Client}
    (run : (session env).Run trace s) : Session env trace s := by
  refine run.history (C := fun _ => True) (I := Session env) (session_start env) ?_
    fun _ _ => trivial
  intro trace e stepped _ held
  cases received : e.action with
  | received c ok => exact session_received env trace e c ok received stepped held
  | urgent => exact session_urgent env trace e received stepped held

/-- Whatever the server sends, neither machine aborts; the name is sent after an agreement,
or from a null pointer. -/
theorem turn_safe_iff (env : Environment) (trace : List Turn) (e : Turn)
    (held : Session env trace e.before) :
    Safe e ↔ (subcalled e = some .subtermtype → ∃ d ∈ trace, Agrees env d) := by
  rw [← held.agreed]
  constructor
  · exact Safe.name
  · intro name
    cases received : e.action with
    | urgent => exact ⟨by simp [called, received], by simp [subcalled, received], name⟩
    | received c ok =>
        have calls := called_eq e c ok received held.ttstate
        refine ⟨?_, ?_, name⟩
        · rw [calls]
          exact fun aborts => (ttrow_inside _ c.toNat held.ttstate).2 (Option.some.inj aborts)
        · intro aborts
          by_cases sub : called e = some .subopt
          · rw [subcalled_eq e c ok received held.substate sub] at aborts
            exact (subrow_inside _ c.toNat held.substate).2 (Option.some.inj aborts)
          · simp [subcalled, received, sub] at aborts

theorem subnegotiation_safe_iff (env : Environment) {trace : List Turn} {s : Client}
    (run : (session env).Run trace s) :
    ((∀ e ∈ trace, Safe e) ∧ Outside s) ↔
      ∀ pre e post, trace = pre ++ e :: post → subcalled e = some .subtermtype →
        ∃ d ∈ pre, Agrees env d := by
  constructor
  · rintro ⟨safe, -⟩ pre e post rfl
    exact (turn_safe_iff env pre e (session_run env run.split.1)).mp (safe e (by simp))
  · intro agreed
    refine ⟨?_, (session_run env run).outside⟩
    intro e member
    obtain ⟨pre, post, rfl⟩ := List.append_of_mem member
    exact (turn_safe_iff env pre e (session_run env run.split.1)).mpr (agreed pre e post rfl)

def fromServer (bytes : List UInt8) : List Input := bytes.map fun c => .received c true

def vt : Environment := ⟨some [118, 116], fun _ => none⟩

theorem agreed_then_asked : ∃ trace s, (session vt).Run trace s ∧
    (∃ e ∈ trace, subcalled e = some .subtermtype) ∧
    (((∀ e ∈ trace, Safe e) ∧ Outside s) ↔
      ∀ pre e post, trace = pre ++ e :: post → subcalled e = some .subtermtype →
        ∃ d ∈ pre, Agrees vt d) := by
  obtain ⟨trace, s, run, check⟩ := Machine.run_of_check (M := session vt) (s := fsmbuild) rfl
    (fromServer [255, 253, 24, 255, 250, 24, 1, 255, 240])
    (fun r => r.1.any fun e => decide (subcalled e = some .subtermtype)) (by decide +kernel)
  obtain ⟨e, member, asked⟩ := List.any_eq_true.mp check
  exact ⟨trace, s, run, ⟨e, member, of_decide_eq_true asked⟩, subnegotiation_safe_iff vt run⟩

theorem asked_unagreed : ∃ trace s, (session vt).Run trace s ∧
    trace.map Transition.action = fromServer [255, 250, 24, 1] ∧
    ¬ ((∀ e ∈ trace, Safe e) ∧ Outside s) := by
  obtain ⟨trace, s, run, check⟩ := Machine.run_of_check (M := session vt) (s := fsmbuild) rfl
    (fromServer [255, 250, 24, 1])
    (fun r => decide (r.1.map Transition.action = fromServer [255, 250, 24, 1]) &&
      r.1.any fun e => decide (subcalled e = some .subtermtype ∧ e.before.term = none))
    (by decide +kernel)
  obtain ⟨inputs, found⟩ := Bool.and_eq_true_iff.mp check
  obtain ⟨e, member, asked⟩ := List.any_eq_true.mp found
  obtain ⟨sends, unknown⟩ := of_decide_eq_true asked
  exact ⟨trace, s, run, of_decide_eq_true inputs, fun safe => (safe.1 e member).name sends unknown⟩

end NetworkProgramming.Telnet
