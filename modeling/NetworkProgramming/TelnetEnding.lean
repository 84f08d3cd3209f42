import NetworkProgramming.TelnetNegotiation

/-!
The negotiation of two telnet clients ends, without a contradiction, exactly if what is
under way is quiet.
-/

namespace NetworkProgramming.Telnet

open EchoedBit

theorem both_sides {P : Bool → Prop} (t : Bool) (here : P t) (there : P (!t)) (u : Bool) : P u := by
  by_cases same : u = t
  · exact same ▸ here
  · exact Bool.eq_not.mpr same ▸ there

theorem OneSided.unique {f g : Flag} {x : UInt8} (first : OneSided f x) (second : OneSided g x) :
    f = g := by
  cases first <;> cases second <;> rfl

theorem OneSided.not_binary {f : Flag} {x : UInt8} (one : OneSided f x) : x ≠ TOTXBINARY := by
  cases one <;> decide

theorem OneSided.commands {f : Flag} {x : UInt8} (one : OneSided f x) :
    f.off ≠ f.no ∧ f.off ≠ f.on ∧ f.off ≠ f.yes ∧ f.yes ≠ .wont ∧ f.yes ≠ .dont := by
  cases one <;> decide

def asks (m : Message) : Bool :=
  decide (m = ⟨.do_, TOECHO⟩ ∨ m = ⟨.do_, TONOGA⟩ ∨ m = ⟨.will, TOTERMTYPE⟩)

theorem OneSided.asks_yes {f : Flag} {x : UInt8} (one : OneSided f x) :
    asks ⟨f.yes, x⟩ = true ∧ asks ⟨f.off, x⟩ = false := by
  cases one <;> decide

theorem asks_binary (m : Message) (binary : m.option = TOTXBINARY) : asks m = false := by
  obtain ⟨c, x⟩ := m
  obtain rfl : x = TOTXBINARY := binary
  cases c <;> decide

/-- Bounds what will be sent. -/
def Net.potential (s : Net) : Nat :=
  (s.inbox false).countP asks + (s.inbox true).countP asks +
    ((s.ends false).potential + (s.ends true).potential)

theorem potential_sides (s : Net) (t : Bool) :
    s.potential = (s.inbox t).countP asks + (s.inbox (!t)).countP asks +
      ((s.ends t).potential + (s.ends (!t)).potential) := by
  rw [Net.potential]
  cases t with
  | false => rfl
  | true =>
      rw [Nat.add_comm (List.countP asks (s.inbox false)), Nat.add_comm (Ends.potential _)]
      rfl

section Exchange
variable {env : Bool → Environment} {s after : Net} {t ok : Bool} {m : Message}
  {replies : List Message}

theorem took_settled {f : Flag} {x : UInt8} (negotiated : Negotiated f x)
    (took : Took env s after t ok m replies) (option : m.option = x)
    (harmless : f.Harmless s t m.command) :
    after.client t = recopt (s.client t) m.command.code ∧
      (replies = [] ∨ (m.command = f.yes ∧ replies = [⟨f.off, x⟩])) := by
  obtain ⟨c, y⟩ := m
  obtain rfl : y = x := option
  have answered := took.answered
  rcases negotiated.commands c with rfl | rfl | rfl | rfl
  · rw [negotiated.kept _ _ _ (harmless.on rfl), Prod.mk.injEq] at answered
    exact ⟨answered.1.symm, Or.inl answered.2.symm⟩
  · rw [negotiated.silent _ _ _ (harmless.off rfl), Prod.mk.injEq] at answered
    exact ⟨answered.1.symm, Or.inl answered.2.symm⟩
  · rw [negotiated.refused _ _ _ _ (Or.inl rfl), Prod.mk.injEq] at answered
    exact ⟨answered.1.symm, Or.inr ⟨rfl, answered.2.symm⟩⟩
  · exact absurd rfl harmless.no

theorem took_harmless {f : Flag} {x : UInt8} (took : Took env s after t ok m replies)
    (same : f.get (after.client t) = f.get (s.client t))
    (told : ∀ r ∈ replies, r.option = x → f.Harmless s (!t) r.command)
    (settled : f.Settled x s) : f.Settled x after := by
  have flags : ∀ u, f.get (after.client u) = f.get (s.client u) :=
    both_sides t same (congrArg f.get took.other)
  have messages : ∀ u, ∀ r ∈ after.inbox u, r.option = x → f.Harmless s u r.command := by
    refine both_sides t ?_ ?_
    · intro r member
      exact settled t r (by rw [took.inbox]; exact List.mem_cons_of_mem m member)
    · intro r member
      rw [took.outbox, List.mem_append] at member
      rcases member with old | new
      · exact settled (!t) r old
      · exact told r new
  intro u r member option
  obtain ⟨no, on, off, yes⟩ := messages u r member option
  exact ⟨no, fun same => (flags u).trans (on same), fun same => (flags u).trans (off same),
    fun same => (flags (!u)).trans (yes same)⟩

theorem took_supported (took : Took env s after t ok m replies)
    (options : ∀ r ∈ replies, r.option = m.option)
    (supported : ∀ u, ∀ r ∈ s.inbox u, r.option = TOTXBINARY ∨ ∃ f, OneSided f r.option) :
    ∀ u, ∀ r ∈ after.inbox u, r.option = TOTXBINARY ∨ ∃ f, OneSided f r.option := by
  have taken : m ∈ s.inbox t := by
    rw [took.inbox]
    exact List.mem_cons_self
  refine both_sides t ?_ ?_
  · intro r member
    exact supported t r (by rw [took.inbox]; exact List.mem_cons_of_mem m member)
  · intro r member
    rw [took.outbox, List.mem_append] at member
    rcases member with old | new
    · exact supported (!t) r old
    · rw [options r new]
      exact supported t m taken

/-- What the taking of a harmless message about an option of one side does. -/
structure Passed (s after : Net) (t : Bool) (m : Message) (replies : List Message) : Prop where
  ends : ∀ d, after.ends d = s.ends d
  settled : ∀ f x, OneSided f x → f.Settled x after
  options : ∀ r ∈ replies, r.option = m.option
  asked : replies.length + replies.countP asks ≤ if asks m then 1 else 0
  agrees : (m.command ≠ .wont ∧ m.command ≠ .dont) ∨ replies = []

theorem took_passed {f : Flag} (one : OneSided f m.option)
    (took : Took env s after t ok m replies)
    (settled : ∀ f x, OneSided f x → f.Settled x s) : Passed s after t m replies := by
  have taken : m ∈ s.inbox t := by
    rw [took.inbox]
    exact List.mem_cons_self
  have harmless := settled f m.option one t m taken rfl
  obtain ⟨client, told⟩ := took_settled one.negotiated took rfl harmless
  have options : ∀ r ∈ replies, r.option = m.option := by
    rcases told with rfl | ⟨-, rfl⟩ <;> simp
  refine ⟨?_, ?_, options, ?_, ?_⟩
  · refine took_ends took one.not_binary (fun r member => ?_) (by rw [client]; rfl)
      (by rw [client]; rfl)
    rw [options r member]
    exact one.not_binary
  · intro g y other
    refine took_harmless took (by rw [client, other.negotiated.recorded]) ?_ (settled g y other)
    intro r member about
    rcases told with rfl | ⟨yes, rfl⟩
    · cases member
    · obtain rfl := List.mem_singleton.mp member
      obtain rfl : m.option = y := about
      obtain rfl := other.unique one
      obtain ⟨no, on, off, -⟩ := one.commands
      exact ⟨no, fun same => absurd same on, fun _ => harmless.yes yes,
        fun same => absurd same off⟩
  · rcases told with rfl | ⟨yes, rfl⟩
    · exact Nat.zero_le _
    · have counts := one.asks_yes
      rw [← yes] at counts
      rw [if_pos (show asks m = true from counts.1), List.countP_singleton, counts.2]
      exact Nat.le_refl 1
  · rcases told with rfl | ⟨yes, rfl⟩
    · exact Or.inr rfl
    · rw [yes]
      exact Or.inl one.commands.2.2.2

theorem took_settled_binary (took : Took env s after t ok m replies)
    (binary : m.option = TOTXBINARY) (settled : ∀ f x, OneSided f x → f.Settled x s) :
    ∀ f x, OneSided f x → f.Settled x after := by
  intro f x one
  have apart : m.option ≠ x := by
    rw [binary]
    exact one.not_binary.symm
  have client : (answer (env t) ok (s.client t) m).1 = after.client t := by rw [took.answered]
  refine took_harmless took ?_ ?_ (settled f x one)
  · rw [← client]
    exact one.negotiated.others _ ok _ m apart
  · intro r member about
    have told := (took_binary took binary).2.1 r member
    exact absurd (told.symm.trans about) one.not_binary.symm

theorem took_balance (took : Took env s after t ok m replies)
    (supported : ∀ u, ∀ r ∈ s.inbox u, r.option = TOTXBINARY ∨ ∃ f, OneSided f r.option)
    (settled : ∀ f x, OneSided f x → f.Settled x s) (d : Bool) :
    (after.ends d).pending + (s.ends d).astray = (s.ends d).pending + (after.ends d).astray := by
  have taken : m ∈ s.inbox t := by
    rw [took.inbox]
    exact List.mem_cons_self
  rcases supported t m taken with binary | ⟨f, one⟩
  · obtain ⟨⟨a, b, here, there, -⟩, -⟩ := took_binary took binary
    exact both_sides (P := fun d => (after.ends d).pending + (s.ends d).astray =
      (s.ends d).pending + (after.ends d).astray) t (Ends.told_balance _ _ a here)
      (Ends.told_balance _ _ b there) d
  · rw [(took_passed one took settled).ends d]

/-- A quiet step is paid for out of the potential, and contradicts nobody. -/
theorem took_quiet (took : Took env s after t ok m replies) (quiet : Quiet s) :
    Quiet after ∧ replies.length + after.potential ≤ s.potential ∧
      ((after.client t).options = (s.client t).options →
        (m.command ≠ .wont ∧ m.command ≠ .dont) ∨ replies = []) := by
  obtain ⟨supported, settled, swallowed⟩ := quiet
  have taken : m ∈ s.inbox t := by
    rw [took.inbox]
    exact List.mem_cons_self
  have balanced : ∀ d, (after.ends d).pending ≤ (after.ends d).astray := by
    intro d
    have balance := took_balance took supported settled d
    have before := swallowed d
    omega
  rw [potential_sides s t, potential_sides after t, took.outbox, took.inbox, List.countP_append,
    List.countP_cons]
  rcases supported t m taken with binary | ⟨f, one⟩
  · obtain ⟨⟨a, b, here, there, count⟩, options, same⟩ := took_binary took binary
    refine ⟨⟨took_supported took (fun r member => (options r member).trans binary.symm) supported,
      took_settled_binary took binary settled, balanced⟩, ?_, fun kept => Or.inr (same kept)⟩
    have silent : replies.countP asks = 0 := by
      rw [List.countP_eq_zero]
      intro r member
      rw [asks_binary r (options r member)]
      exact Bool.false_ne_true
    have first := Ends.told_potential _ _ a here (swallowed t)
    have second := Ends.told_potential _ _ b there (swallowed !t)
    omega
  · obtain ⟨ends, settled, options, asked, agrees⟩ := took_passed one took settled
    refine ⟨⟨took_supported took options supported, settled, balanced⟩, ?_, fun _ => agrees⟩
    rw [ends t, ends (!t)]
    omega

end Exchange

section Runs
variable {env : Bool → Environment} {first : Net} {trace : List Exchange} {s : Net}

theorem stepped_took {e : Exchange} (stepped : (network env first).Stepped e) :
    Took env e.before e.after e.action.1 e.action.2 e.output.1 e.output.2 :=
  step_took env e.before e.after e.action.1 e.action.2 e.output.1 e.output.2 stepped

theorem sent_snoc (trace : List Exchange) (e : Exchange) :
    sent (trace ++ [e]) = sent trace + e.output.2.length := by
  simp [sent]

theorem quiet_run (quiet : Quiet first) (run : (network env first).Run trace s) :
    Quiet s ∧ sent trace + s.potential ≤ first.potential := by
  refine run.history (C := fun _ => True)
    (I := fun trace s => Quiet s ∧ sent trace + s.potential ≤ first.potential) ?_ ?_
    fun _ _ => trivial
  · rintro s rfl
    exact ⟨quiet, Nat.le_of_eq (Nat.zero_add _)⟩
  · rintro trace e stepped - ⟨before, paid⟩
    obtain ⟨after, pays, -⟩ := took_quiet (stepped_took stepped) before
    rw [sent_snoc]
    exact ⟨after, by omega⟩

theorem ending_of_quiet (env : Bool → Environment) (quiet : Quiet first) : Ending env first := by
  refine ⟨⟨first.potential, fun trace s run => ?_⟩, fun trace s run => ?_⟩
  · exact Nat.le_trans (Nat.le_add_right _ _) (quiet_run quiet run).2
  · refine run.each fun trace e earlier stepped => ?_
    rintro ⟨same, refusal⟩
    obtain ⟨-, -, agrees⟩ := took_quiet (stepped_took stepped) (quiet_run quiet earlier).1
    rcases refusal with ⟨wont, r, member, -⟩ | ⟨dont, r, member, -⟩
    · rcases agrees same with ⟨apart, -⟩ | none
      · exact apart wont
      · simp [none] at member
    · rcases agrees same with ⟨-, apart⟩ | none
      · exact apart dont
      · simp [none] at member

theorem reaches {P : Client → Prop} {t : Bool} {m : Message} {pre rest : List Message}
    (run : (network env first).Run trace s) (inbox : s.inbox t = pre ++ m :: rest)
    (here : P (s.client t)) (kept : ∀ r ∈ pre, ∀ c, P c → P (answer (env t) true c r).1) :
    ∃ more before after replies,
      (network env first).Run (more ++ [⟨before, (t, true), (m, replies), after⟩]) after ∧
        Took env before after t true m replies ∧ P (before.client t) ∧
        before.client (!t) = s.client (!t) := by
  induction pre generalizing trace s with
  | nil =>
      obtain ⟨after, replies, stepped⟩ := step_inbox env s t true m rest inbox
      exact ⟨trace, s, after, replies, run.next ⟨s, (t, true), (m, replies), after⟩ stepped,
        step_took env s after t true m replies stepped, here, rfl⟩
  | cons r pre ih =>
      obtain ⟨after, replies, stepped⟩ := step_inbox env s t true r (pre ++ m :: rest) inbox
      have took := step_took env s after t true r replies stepped
      have left : after.inbox t = pre ++ m :: rest := (List.cons.inj (took.inbox.symm.trans inbox)).2
      have client : (answer (env t) true (s.client t) r).1 = after.client t := by
        rw [took.answered]
      have later := ih (run.next ⟨s, (t, true), (r, replies), after⟩ stepped) left
        (by rw [← client]; exact kept r List.mem_cons_self _ here)
        fun r member => kept r (List.mem_cons_of_mem _ member)
      rwa [took.other] at later

def Calm (env : Bool → Environment) (first : Net) : Prop :=
  ∀ trace s, (network env first).Run trace s → ∀ e ∈ trace, ¬ Contradicts e

theorem Calm.no_refusal (calm : Calm env first) (run : (network env first).Run trace s)
    {t : Bool} {m : Message} {c : Command}
    (opposed : (m.command = .wont ∧ c = .dont) ∨ (m.command = .dont ∧ c = .wont))
    (refused : ∀ s, answer (env t) true s m = (recopt s m.command.code, [⟨c, m.option⟩])) :
    m ∉ s.inbox t := by
  intro member
  obtain ⟨pre, rest, inbox⟩ := List.append_of_mem member
  obtain ⟨more, before, after, replies, longer, took, -⟩ :=
    reaches (P := fun _ => True) run inbox trivial fun _ _ _ _ => trivial
  have answered := took.answered
  rw [refused, Prod.mk.injEq] at answered
  refine calm _ _ longer _ List.mem_concat_self ⟨?_, ?_⟩
  · simp only [← answered.1]
    rfl
  · simp only [← answered.2, List.mem_singleton, exists_eq_left]
    exact opposed

/-- A flag changes only when the other value is asked for. -/
theorem Negotiated.held {f : Flag} {x : UInt8} (negotiated : Negotiated f x) (env : Environment)
    (s : Client) (r : Message) (apart : r ≠ ⟨f.asking (!f.get s), x⟩) :
    f.get (answer env true s r).1 = f.get s := by
  by_cases other : r.option = x
  · obtain ⟨c, y⟩ := r
    obtain rfl : y = x := other
    rcases negotiated.commands c with rfl | rfl | rfl | rfl
    · cases value : f.get s with
      | true => rw [negotiated.kept _ _ _ value, negotiated.recorded, value]
      | false => exact absurd (by rw [value]; rfl) apart
    · cases value : f.get s with
      | true => exact absurd (by rw [value]; rfl) apart
      | false => rw [negotiated.silent _ _ _ value, negotiated.recorded, value]
    · rw [negotiated.refused _ _ _ _ (Or.inl rfl), negotiated.recorded]
    · rw [negotiated.refused _ _ _ _ (Or.inr rfl), negotiated.recorded]
  · exact negotiated.others env true s r other

theorem reaches_asking {f : Flag} {x : UInt8} (negotiated : Negotiated f x)
    (run : (network env first).Run trace s) {t : Bool} (bit : Bool)
    (value : f.get (s.client t) = !bit)
    (member : (⟨f.asking bit, x⟩ : Message) ∈ s.inbox t) :
    ∃ more before after replies,
      (network env first).Run
          (more ++ [⟨before, (t, true), (⟨f.asking bit, x⟩, replies), after⟩]) after ∧
        Took env before after t true ⟨f.asking bit, x⟩ replies ∧
        f.get (before.client t) = !bit := by
  obtain ⟨pre, rest, inbox, before⟩ := List.eq_append_cons_of_mem member
  obtain ⟨more, middle, after, replies, longer, took, kept, -⟩ :=
    reaches (P := fun c => f.get c = !bit) run inbox value fun r earlier c held => by
      refine (negotiated.held (env t) c r ?_).trans held
      rw [held, Bool.not_not]
      rintro rfl
      exact before earlier
  exact ⟨more, middle, after, replies, longer, took, kept⟩

theorem Calm.no (calm : Calm env first) {f : Flag} {x : UInt8} (negotiated : Negotiated f x)
    (run : (network env first).Run trace s) (t : Bool) :
    (⟨f.no, x⟩ : Message) ∉ s.inbox t :=
  calm.no_refusal run (c := f.off) negotiated.refusals fun c =>
    negotiated.refused (env t) true c f.no (Or.inr rfl)

theorem Calm.off (calm : Calm env first) {f : Flag} {x : UInt8} (negotiated : Negotiated f x)
    (run : (network env first).Run trace s) {t : Bool}
    (member : (⟨f.off, x⟩ : Message) ∈ s.inbox t) : f.get (s.client t) = false := by
  by_contra value
  obtain ⟨more, before, after, replies, longer, took, held⟩ :=
    reaches_asking negotiated run false ((Bool.not_eq_false _).mp value) member
  have told := negotiated.dropped (env t) (before.client t) held
  have answered : answer (env t) true (before.client t) ⟨f.off, x⟩ = (after.client t, replies) :=
    took.answered
  rw [answered] at told
  refine calm.no negotiated longer (!t) ?_
  rw [took.outbox]
  exact List.mem_append_right _ told

theorem Calm.yes (calm : Calm env first) {f : Flag} {x : UInt8} (negotiated : Negotiated f x)
    (run : (network env first).Run trace s) {t : Bool}
    (member : (⟨f.yes, x⟩ : Message) ∈ s.inbox t) : f.get (s.client (!t)) = false := by
  obtain ⟨pre, rest, inbox⟩ := List.append_of_mem member
  obtain ⟨more, before, after, replies, longer, took, -, same⟩ :=
    reaches (P := fun _ => True) run inbox trivial fun _ _ _ _ => trivial
  have answered := took.answered
  rw [negotiated.refused _ _ _ _ (Or.inl rfl), Prod.mk.injEq] at answered
  have told : (⟨f.off, x⟩ : Message) ∈ after.inbox (!t) := by
    rw [took.outbox, ← answered.2]
    exact List.mem_concat_self
  rw [← same, ← took.other]
  exact calm.off negotiated longer told

theorem Calm.on (calm : Calm env first) {f : Flag} {x : UInt8} (negotiated : Negotiated f x)
    (run : (network env first).Run trace s) {t : Bool}
    (member : (⟨f.on, x⟩ : Message) ∈ s.inbox t) : f.get (s.client t) = true := by
  by_contra value
  obtain ⟨more, before, after, replies, longer, took, held⟩ :=
    reaches_asking negotiated run true ((Bool.not_eq_true _).mp value) member
  have answered : answer (env t) true (before.client t) ⟨f.on, x⟩ = (after.client t, replies) :=
    took.answered
  have told : ∀ r ∈ replies, r ∈ after.inbox (!t) := fun r new => by
    rw [took.outbox]
    exact List.mem_append_right _ new
  have taken := negotiated.taken (env t) (before.client t) held
  rw [answered] at taken
  rcases taken with ⟨agreed, new⟩ | new
  · have off := calm.yes negotiated longer (told _ new)
    rw [Bool.not_not, agreed] at off
    exact Bool.noConfusion off
  · exact calm.no negotiated longer (!t) (told _ new)

theorem Calm.settled (calm : Calm env first) (run : (network env first).Run trace s)
    (f : Flag) (x : UInt8) (one : OneSided f x) : f.Settled x s := by
  intro t m member option
  obtain ⟨c, y⟩ := m
  obtain rfl : y = x := option
  refine ⟨?_, ?_, ?_, ?_⟩
  · rintro rfl
    exact calm.no one.negotiated run t member
  · rintro rfl
    exact calm.on one.negotiated run member
  · rintro rfl
    exact calm.off one.negotiated run member
  · rintro rfl
    exact calm.yes one.negotiated run member

/-- How an option that is not supported is refused. -/
def Command.refusal : Command → Command
  | .will | .wont => .dont
  | .do_ | .dont => .wont

theorem answer_unsupported (env : Environment) (ok : Bool) (s : Client) (m : Message)
    (binary : m.option ≠ TOTXBINARY) (none : ¬ ∃ f, OneSided f m.option) :
    answer env ok s m = (recopt s m.command.code, [⟨m.command.refusal, m.option⟩]) := by
  obtain ⟨c, x⟩ := m
  have echo : x ≠ TOECHO := fun same => none ⟨echoFlag, same ▸ .echo⟩
  have noga : x ≠ TONOGA := fun same => none ⟨nogaFlag, same ▸ .noga⟩
  have termtype : x ≠ TOTERMTYPE := fun same => none ⟨termtypeFlag, same ▸ .termtype⟩
  replace binary : x ≠ TOTXBINARY := binary
  rw [answer, action_eq]
  cases c <;> simp [binary, echo, noga, termtype, handle, doNotsup, willNotsup, Command.refusal]

theorem Calm.supported (calm : Calm env first) (run : (network env first).Run trace s)
    (t : Bool) (m : Message) (member : m ∈ s.inbox t) :
    m.option = TOTXBINARY ∨ ∃ f, OneSided f m.option := by
  by_contra unsupported
  rw [not_or] at unsupported
  obtain ⟨binary, none⟩ := unsupported
  have refused (u : Bool) (c : Command) (s : Client) :=
    answer_unsupported (env u) true s ⟨c, m.option⟩ binary none
  -- whatever `m` is, its answer is a refusal, and refused in its turn
  have absent (trace : List Exchange) (s : Net) (run : (network env first).Run trace s)
      (u : Bool) (c : Command) (refusal : c = .wont ∨ c = .dont) :
      (⟨c, m.option⟩ : Message) ∉ s.inbox u := by
    refine calm.no_refusal run (c := c.refusal) ?_ (refused u c)
    rcases refusal with rfl | rfl
    · exact Or.inl ⟨rfl, rfl⟩
    · exact Or.inr ⟨rfl, rfl⟩
  obtain ⟨pre, rest, inbox⟩ := List.append_of_mem member
  obtain ⟨more, before, after, replies, longer, took, -⟩ :=
    reaches (P := fun _ => True) run inbox trivial fun _ _ _ _ => trivial
  have answered := took.answered
  rw [refused t m.command, Prod.mk.injEq] at answered
  refine absent _ after longer (!t) m.command.refusal ?_ ?_
  · cases m.command <;> simp [Command.refusal]
  · rw [took.outbox, ← answered.2]
    exact List.mem_concat_self

theorem Calm.goes_on (calm : Calm env first) (run : (network env first).Run trace s) (d : Bool)
    (surplus : (s.ends d).astray < (s.ends d).pending) :
    ∃ more last, (network env first).Run more last ∧
      (last.ends d).astray < (last.ends d).pending ∧ sent trace < sent more := by
  -- on what is under way: a message that is not answered leaves less
  induction under : (s.inbox false).length + (s.inbox true).length generalizing trace s with
  | zero =>
      have empty : ∀ u, s.inbox u = [] :=
        both_sides false (List.length_eq_zero_iff.mp (by omega))
          (List.length_eq_zero_iff.mp (show (s.inbox true).length = 0 by omega))
      have idle : (s.ends d).pending = 0 := by
        simp [Ends.pending, Net.ends, empty, bits, changes]
      omega
  | succ n ih =>
      have waiting : ∃ t, s.inbox t ≠ [] := by
        by_contra none
        simp only [not_exists, not_not] at none
        rw [none, none] at under
        cases under
      obtain ⟨t, waiting⟩ := waiting
      obtain ⟨m, rest, inbox⟩ := List.exists_cons_of_ne_nil waiting
      obtain ⟨after, replies, stepped⟩ := step_inbox env s t true m rest inbox
      have took := step_took env s after t true m replies stepped
      have longer := run.next ⟨s, (t, true), (m, replies), after⟩ stepped
      have balance := took_balance took (calm.supported run) (calm.settled run) d
      have left : (after.ends d).astray < (after.ends d).pending := by omega
      have count := sent_snoc trace ⟨s, (t, true), (m, replies), after⟩
      cases replies with
      | nil =>
          have fewer : (after.inbox false).length + (after.inbox true).length = n := by
            have here := congrArg List.length took.inbox
            have there := congrArg List.length took.outbox
            rw [List.length_cons] at here
            rw [List.append_nil] at there
            cases t <;> simp only [Bool.not_true, Bool.not_false] at there <;> omega
          obtain ⟨more, last, runs, still, larger⟩ := ih longer left fewer
          rw [count] at larger
          exact ⟨more, last, runs, still, larger⟩
      | cons r others =>
          refine ⟨_, after, longer, left, ?_⟩
          rw [count]
          exact Nat.lt_add_of_pos_right (Nat.succ_pos _)

theorem quiet_of_ending (ending : Ending env first) : Quiet first := by
  obtain ⟨⟨most, bound⟩, calm⟩ := ending
  have start : (network env first).Run [] first := .start rfl
  refine ⟨Calm.supported calm start, Calm.settled calm start, fun d => ?_⟩
  by_contra swallowed
  have surplus : (first.ends d).astray < (first.ends d).pending := Nat.not_le.mp swallowed
  have endless : ∀ n, ∃ trace s, (network env first).Run trace s ∧
      (s.ends d).astray < (s.ends d).pending ∧ n ≤ sent trace := by
    intro n
    induction n with
    | zero => exact ⟨[], first, start, surplus, Nat.zero_le _⟩
    | succ n ih =>
        obtain ⟨trace, s, run, still, many⟩ := ih
        obtain ⟨more, last, longer, surplus, larger⟩ := Calm.goes_on calm run d still
        exact ⟨more, last, longer, surplus, by omega⟩
  obtain ⟨trace, s, run, -, many⟩ := endless (most + 1)
  have few := bound trace s run
  omega

end Runs

/-- The total of the messages sent is bounded, and nobody contradicts, exactly if what is
under way at first is quiet. -/
theorem negotiation_ends_iff (env : Bool → Environment) (first : Net) :
    Ending env first ↔ Quiet first :=
  ⟨quiet_of_ending, ending_of_quiet env⟩

def surprised : Net where
  client _ := fsmbuild
  inbox t := if t then [⟨.will, 5⟩] else []

/-- WILL, DONT, WONT, DONT, and so on for ever, with one message under way. -/
theorem unsupported_endless :
    (∀ n, ∃ trace s, (network (fun _ => ⟨none, fun _ => none⟩) surprised).Run trace s ∧
      sent trace = n) ∧ ¬ Ending (fun _ => ⟨none, fun _ => none⟩) surprised := by
  have refused (ok : Bool) (s : Client) (c : Command) :=
    answer_unsupported ⟨none, fun _ => none⟩ ok s ⟨c, 5⟩ (show (5 : UInt8) ≠ 0 by decide)
      fun ⟨_, one⟩ => nomatch one
  have passing : ∀ n, ∃ trace s, (network (fun _ => ⟨none, fun _ => none⟩) surprised).Run trace s ∧
      sent trace = n ∧ ∃ t c, s.inbox t = [⟨c, 5⟩] ∧ s.inbox (!t) = [] := by
    intro n
    induction n with
    | zero => exact ⟨[], surprised, .start rfl, rfl, true, .will, rfl, rfl⟩
    | succ n ih =>
        obtain ⟨trace, s, run, count, t, c, inbox, empty⟩ := ih
        obtain ⟨after, replies, stepped⟩ :=
          step_inbox (fun _ => ⟨none, fun _ => none⟩) s t true ⟨c, 5⟩ [] inbox
        have took := step_took _ s after t true ⟨c, 5⟩ replies stepped
        have answered := took.answered
        rw [refused, Prod.mk.injEq] at answered
        have outbox := took.outbox
        have rest := (List.cons.inj (took.inbox.symm.trans inbox)).2
        rw [empty, ← answered.2] at outbox
        refine ⟨_, after, run.next ⟨s, (t, true), ((⟨c, 5⟩ : Message), replies), after⟩ stepped, ?_, !t,
          c.refusal, outbox, by rw [Bool.not_not, rest]⟩
        rw [sent_snoc, count, ← answered.2]
        rfl
  have endless (n : Nat) : ∃ trace s,
      (network (fun _ => ⟨none, fun _ => none⟩) surprised).Run trace s ∧ sent trace = n := by
    obtain ⟨trace, s, run, count, -⟩ := passing n
    exact ⟨trace, s, run, count⟩
  refine ⟨endless, ?_⟩
  rintro ⟨⟨most, bound⟩, -⟩
  obtain ⟨trace, s, run, count⟩ := endless (most + 1)
  have few := bound trace s run
  omega

end NetworkProgramming.Telnet
