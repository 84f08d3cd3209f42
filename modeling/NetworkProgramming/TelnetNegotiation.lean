import NetworkProgramming.TelnetOptions

/-!
When the negotiation of two telnet clients ends. An option is supported at one of its two
sides only, except for binary transmission; the other side refuses whatever it is told,
refusals too.
-/

namespace NetworkProgramming.Telnet

open EchoedBit

/-! The handlers of a supported option, as its flag is asked for and against. -/

theorem Flag.negotiate_settled (f : Flag) (s : Client) (c : UInt8)
    (settled : f.settled s = true) : f.negotiate s c = (s, []) := if_pos settled

theorem Flag.negotiate_flip (f : Flag) (s : Client) (c : UInt8)
    (settled : ¬ f.settled s = true) :
    f.negotiate s c = (f.set s (!f.get s), [⟨if !f.get s then f.yes else f.no, c⟩]) := by
  rw [negotiate, if_neg settled]
  simp only [f.get_set]

theorem doEcho_settled (ok : Bool) (s : Client) (c : UInt8)
    (settled : echoFlag.settled s = true) : doEcho ok s c = (s, []) := if_pos settled

theorem doEcho_ok (s : Client) (c : UInt8) : doEcho true s c = echoFlag.negotiate s c := rfl

/-- The handler of each option, of both pairs of commands. -/
theorem action_eq (c : Command) (x : UInt8) :
    (⟨c, x⟩ : Message).action =
      if c = .will ∨ c = .wont then
        if x = TOTXBINARY then .doTxbinary
        else if x = TOECHO then .doEcho
        else if x = TONOGA then .doNoga
        else .doNotsup
      else
        if x = TOTXBINARY then .willTxbinary
        else if x = TOTERMTYPE then .willTermtype
        else .willNotsup := by
  have number (y : UInt8) (n : Nat) (same : y.toNat = n) : x.toNat = n ↔ x = y := by
    rw [← same, UInt8.toNat_inj]
  have zero := number TOTXBINARY 0 rfl
  have one := number TOECHO 1 rfl
  have three := number TONOGA 3 rfl
  have termtype := number TOTERMTYPE 24 rfl
  cases c <;>
    simp only [Message.action, Command.ttstate, TSWOPT, TSDOPT, ttrow, zero, one, three,
      termtype, reduceCtorEq, or_false, false_or, or_self, if_true, if_false]

structure Negotiated (f : Flag) (x : UInt8) : Prop where
  refusals : (f.no = .wont ∧ f.off = .dont) ∨ (f.no = .dont ∧ f.off = .wont)
  commands : ∀ c : Command, c = f.on ∨ c = f.off ∨ c = f.yes ∨ c = f.no
  distinct : [f.on, f.off, f.yes, f.no].Nodup
  recorded : ∀ s c, f.get (recopt s c) = f.get s
  others : ∀ env ok s (m : Message), m.option ≠ x → f.get (answer env ok s m).1 = f.get s
  kept : ∀ env ok s, f.get s = true →
    answer env ok s ⟨f.on, x⟩ = (recopt s f.on.code, [])
  silent : ∀ env ok s, f.get s = false →
    answer env ok s ⟨f.off, x⟩ = (recopt s f.off.code, [])
  dropped : ∀ env s, f.get s = true → ⟨f.no, x⟩ ∈ (answer env true s ⟨f.off, x⟩).2
  taken : ∀ env s, f.get s = false →
    (f.get (answer env true s ⟨f.on, x⟩).1 = true ∧
        ⟨f.yes, x⟩ ∈ (answer env true s ⟨f.on, x⟩).2) ∨
      ⟨f.no, x⟩ ∈ (answer env true s ⟨f.on, x⟩).2
  refused : ∀ env ok s c, c = f.yes ∨ c = f.no →
    answer env ok s ⟨c, x⟩ = (recopt s c.code, [⟨f.off, x⟩])

theorem action_option (m : Message) :
    (m.action = .doEcho → m.option = TOECHO) ∧ (m.action = .doNoga → m.option = TONOGA) ∧
      (m.action = .willTermtype → m.option = TOTERMTYPE) ∧
      (m.action = .doTxbinary ∨ m.action = .willTxbinary → m.option = TOTXBINARY) := by
  rw [show m = ⟨m.command, m.option⟩ from rfl, action_eq]
  split_ifs <;> simp_all

/-- A handler that does nothing when there is nothing to change, and else, at least when the
terminal lets it, what `negotiate` does. -/
theorem negotiated_of_flips (f : Flag) (x : UInt8)
    (refusals : (f.no = .wont ∧ f.off = .dont) ∨ (f.no = .dont ∧ f.off = .wont))
    (commands : ∀ c : Command, c = f.on ∨ c = f.off ∨ c = f.yes ∨ c = f.no)
    (distinct : [f.on, f.off, f.yes, f.no].Nodup)
    (recorded : ∀ s c, f.get (recopt s c) = f.get s)
    (others : ∀ env ok s (m : Message), m.option ≠ x → f.get (answer env ok s m).1 = f.get s)
    (settled : ∀ env ok s c, c = f.on ∨ c = f.off → f.settled (recopt s c.code) = true →
      answer env ok s ⟨c, x⟩ = (recopt s c.code, []))
    (flips : ∀ env s c, c = f.on ∨ c = f.off →
      answer env true s ⟨c, x⟩ = f.negotiate (recopt s c.code) x)
    (refused : ∀ env ok s c, c = f.yes ∨ c = f.no →
      answer env ok s ⟨c, x⟩ = (recopt s c.code, [⟨f.off, x⟩])) : Negotiated f x := by
  have on_ (s : Client) : f.settled (recopt s f.on.code) = f.get s :=
    (f.settled_on _ rfl).trans (recorded s _)
  have off_ (s : Client) : f.settled (recopt s f.off.code) = !f.get s :=
    (f.settled_off _ rfl).trans (congrArg (!·) (recorded s _))
  refine ⟨refusals, commands, distinct, recorded, others, ?_, ?_, ?_, ?_, refused⟩
  · intro env ok s on
    exact settled env ok s f.on (Or.inl rfl) ((on_ s).trans on)
  · intro env ok s off
    exact settled env ok s f.off (Or.inr rfl) (by rw [off_, off]; rfl)
  · intro env s on
    rw [flips env s f.off (Or.inr rfl), f.negotiate_flip _ x (by simp [off_, on])]
    simp [recorded, on]
  · intro env s off
    rw [flips env s f.on (Or.inl rfl), f.negotiate_flip _ x (by simp [on_, off])]
    simp [recorded, off, f.get_set]

theorem negotiated_of_will (f : Flag) (x : UInt8)
    (handler : Bool → Client → UInt8 → Client × List Message)
    (sides : f.on = .will ∧ f.off = .wont ∧ f.yes = .do_ ∧ f.no = .dont)
    (foreign : x ≠ TOTXBINARY ∧ x ≠ TOTERMTYPE)
    (recorded : ∀ s c, f.get (recopt s c) = f.get s)
    (others : ∀ env ok s (m : Message), m.option ≠ x → f.get (answer env ok s m).1 = f.get s)
    (handled : ∀ env ok s c, c = .will ∨ c = .wont →
      answer env ok s ⟨c, x⟩ = handler ok (recopt s c.code) x)
    (settled : ∀ ok s, f.settled s = true → handler ok s x = (s, []))
    (flips : ∀ s, handler true s x = f.negotiate s x) : Negotiated f x := by
  obtain ⟨on, off, yes, no⟩ := sides
  apply negotiated_of_flips f x
  · exact Or.inr ⟨no, off⟩
  · rw [on, off, yes, no]
    intro c
    cases c <;> decide
  · rw [on, off, yes, no]
    decide
  · exact recorded
  · exact others
  · intro env ok s c asked nothing
    rw [on, off] at asked
    rw [handled env ok s c asked, settled ok _ nothing]
  · intro env s c asked
    rw [on, off] at asked
    rw [handled env true s c asked, flips]
  · intro env ok s c answers
    rw [yes, no] at answers
    have do_ : ¬ (c = .will ∨ c = .wont) := by
      rcases answers with rfl | rfl <;> decide
    rw [answer, action_eq, if_neg do_, if_neg foreign.1, if_neg foreign.2, off]
    rfl

theorem echo_negotiated : Negotiated echoFlag TOECHO := by
  refine negotiated_of_will echoFlag TOECHO doEcho ⟨rfl, rfl, rfl, rfl⟩ (by decide) (fun _ _ => rfl)
    ?_ ?_ (fun ok s => doEcho_settled ok s TOECHO) fun s => doEcho_ok s TOECHO
  · intro env ok s m other
    have apart : m.action ≠ .doEcho := fun here => other ((action_option m).1 here)
    exact handle_frame Client.doecho env ok m.action (recopt s m.command.code) m.option
      (fun here => absurd here apart) (fun _ _ _ => rfl) (fun _ _ _ => rfl) (fun _ _ _ => rfl)
      fun _ _ _ _ _ => rfl
  · intro env ok s c will
    rw [answer, action_eq, if_pos will]
    rfl

theorem noga_negotiated : Negotiated nogaFlag TONOGA := by
  refine negotiated_of_will nogaFlag TONOGA (fun _ => doNoga) ⟨rfl, rfl, rfl, rfl⟩ (by decide)
    (fun _ _ => rfl) ?_ ?_ (fun _ s => nogaFlag.negotiate_settled s TONOGA) fun _ => rfl
  · intro env ok s m other
    have apart : m.action ≠ .doNoga := fun here => other ((action_option m).2.1 here)
    exact handle_frame Client.noga env ok m.action (recopt s m.command.code) m.option
      (fun _ _ _ => rfl) (fun here => absurd here apart) (fun _ _ _ => rfl) (fun _ _ _ => rfl)
      fun _ _ _ _ _ => rfl
  · intro env ok s c will
    rw [answer, action_eq, if_pos will]
    rfl

/-- Without a name for the terminal the option is refused, whatever is asked. -/
theorem termtype_negotiated : Negotiated termtypeFlag TOTERMTYPE := by
  have asks (env : Environment) (ok : Bool) (s : Client) (c : Command)
      (do_ : c = .do_ ∨ c = .dont) :
      answer env ok s ⟨c, TOTERMTYPE⟩ = willTermtype env (recopt s c.code) TOTERMTYPE := by
    have other : ¬ (c = .will ∨ c = .wont) := by
      rcases do_ with rfl | rfl <;> decide
    rw [answer, action_eq, if_neg other]
    rfl
  have on_ (s : Client) : termtypeFlag.settled (recopt s termtypeFlag.on.code) = s.termtype :=
    termtypeFlag.settled_on _ rfl
  have off_ (s : Client) :
      termtypeFlag.settled (recopt s termtypeFlag.off.code) = !s.termtype :=
    termtypeFlag.settled_off _ rfl
  constructor
  · exact Or.inl ⟨rfl, rfl⟩
  · intro c
    cases c <;> decide
  · decide
  · exact fun _ _ => rfl
  · intro env ok s m other
    have apart : m.action ≠ .willTermtype := fun here => other ((action_option m).2.2.1 here)
    exact handle_frame Client.termtype env ok m.action (recopt s m.command.code) m.option
      (fun _ _ _ => rfl) (fun _ _ _ => rfl) (fun _ _ _ => rfl) (fun _ _ _ => rfl)
      fun here => absurd here apart
  · intro env ok s on
    rw [asks env ok s termtypeFlag.on (Or.inl rfl)]
    exact willTermtype_settled env _ _ ((on_ s).trans on)
  · intro env ok s off
    rw [asks env ok s termtypeFlag.off (Or.inr rfl)]
    exact willTermtype_settled env _ _ ((off_ s).trans (congrArg (!·) off))
  · intro env s on
    have asked : ¬ termtypeFlag.settled (recopt s termtypeFlag.off.code) = true := by
      rw [off_, show s.termtype = true from on]
      decide
    rw [asks env true s termtypeFlag.off (Or.inr rfl), willTermtype_dropped env _ _ asked on]
    exact List.mem_singleton_self _
  · intro env s off
    have asked : ¬ termtypeFlag.settled (recopt s termtypeFlag.on.code) = true := by
      rw [on_, show s.termtype = false from off]
      decide
    rw [asks env true s termtypeFlag.on (Or.inl rfl)]
    cases known : (recopt s termtypeFlag.on.code).term.or env.term with
    | none =>
        rw [willTermtype_refused env _ _ asked off known]
        exact Or.inr (List.mem_singleton_self _)
    | some name =>
        rw [willTermtype_agreed env _ _ name asked off known]
        have agreed := setUpBinary_frame Client.termtype
          { recopt s termtypeFlag.on.code with termtype := true, term := some name }
          (fun _ _ => rfl) (fun _ _ => rfl) fun _ _ => rfl
        exact Or.inl ⟨agreed, List.mem_cons_self⟩
  · intro env ok s c answers
    have will : c = .will ∨ c = .wont := answers
    rw [answer, action_eq, if_pos will]
    rfl

/-! One exchange. -/

structure Took (env : Bool → Environment) (s after : Net) (t ok : Bool) (m : Message)
    (replies : List Message) : Prop where
  inbox : s.inbox t = m :: after.inbox t
  answered : answer (env t) ok (s.client t) m = (after.client t, replies)
  other : after.client (!t) = s.client (!t)
  outbox : after.inbox (!t) = s.inbox (!t) ++ replies

theorem step_took (env : Bool → Environment) (s after : Net) (t ok : Bool) (m : Message)
    (replies : List Message) (stepped : s.step env t ok = some (after, m, replies)) :
    Took env s after t ok m replies := by
  rw [Net.step] at stepped
  cases here : s.inbox t with
  | nil => simp [here] at stepped
  | cons first rest =>
      simp only [here, Option.some.injEq, Prod.mk.injEq] at stepped
      obtain ⟨rfl, rfl, rfl⟩ := stepped
      exact ⟨by cases t <;> simpa using here, by simp, by simp, by simp⟩

theorem step_inbox (env : Bool → Environment) (s : Net) (t ok : Bool) (m : Message)
    (rest : List Message) (here : s.inbox t = m :: rest) :
    ∃ after replies, s.step env t ok = some (after, m, replies) := by
  rw [Net.step, here]
  exact ⟨_, _, rfl⟩

/-! Binary transmission: each direction is a bit at each end. -/

def bits (on off : Command) (messages : List Message) : List Bool :=
  messages.filterMap fun m =>
    if m = ⟨on, TOTXBINARY⟩ then some true
    else if m = ⟨off, TOTXBINARY⟩ then some false
    else none

def Net.ends (s : Net) (d : Bool) : Ends where
  here := (s.client d).sndbinary
  there := (s.client (!d)).rcvbinary
  toHere := bits .do_ .dont (s.inbox d)
  toThere := bits .will .wont (s.inbox (!d))

theorem bits_append (on off : Command) (front back : List Message) :
    bits on off (front ++ back) = bits on off front ++ bits on off back :=
  List.filterMap_append

theorem bits_other (on off : Command) (m : Message) (rest : List Message)
    (other : m ≠ ⟨on, TOTXBINARY⟩ ∧ m ≠ ⟨off, TOTXBINARY⟩) :
    bits on off (m :: rest) = bits on off rest := by
  simp [bits, other.1, other.2]

theorem bits_none (on off : Command) (messages : List Message)
    (other : ∀ m ∈ messages, m ≠ ⟨on, TOTXBINARY⟩ ∧ m ≠ ⟨off, TOTXBINARY⟩) :
    bits on off messages = [] := by
  induction messages with
  | nil => rfl
  | cons m rest ih =>
      rw [bits_other on off m rest (other m List.mem_cons_self)]
      exact ih fun r member => other r (List.mem_cons_of_mem m member)

def Flag.asking (f : Flag) (bit : Bool) : Command := if bit then f.on else f.off

def Flag.telling (f : Flag) (bit : Bool) : Command := if bit then f.yes else f.no

theorem Flag.negotiate_bit (f : Flag) (s : Client) (bit : Bool) (x : UInt8)
    (recorded : ∀ c, f.get (recopt s c) = f.get s) :
    f.negotiate (recopt s (f.asking bit).code) x =
      if bit = f.get s then (recopt s (f.asking bit).code, [])
      else (f.set (recopt s (f.asking bit).code) bit, [⟨f.telling bit, x⟩]) := by
  have settled : f.settled (recopt s (f.asking bit).code) = decide (bit = f.get s) := by
    cases bit with
    | true =>
        rw [f.settled_on (recopt s (f.asking true).code) rfl, recorded]
        cases f.get s <;> rfl
    | false =>
        rw [f.settled_off (recopt s (f.asking false).code) rfl, recorded]
        cases f.get s <;> rfl
  by_cases same : bit = f.get s
  · rw [if_pos same, f.negotiate_settled _ x (settled.trans (decide_eq_true same))]
  · have flipped : (!f.get s) = bit := by
      revert same
      cases bit <;> cases f.get s <;> decide
    rw [if_neg same, f.negotiate_flip _ x (by simp [settled, same]), recorded, flipped]
    rfl

theorem answer_binary (env : Environment) (ok : Bool) (s : Client) (bit : Bool) :
    answer env ok s ⟨rcvbinaryFlag.asking bit, TOTXBINARY⟩ =
        rcvbinaryFlag.negotiate (recopt s (rcvbinaryFlag.asking bit).code) TOTXBINARY ∧
      answer env ok s ⟨sndbinaryFlag.asking bit, TOTXBINARY⟩ =
        sndbinaryFlag.negotiate (recopt s (sndbinaryFlag.asking bit).code) TOTXBINARY := by
  cases bit <;> exact ⟨rfl, rfl⟩

section Exchange
variable {env : Bool → Environment} {s after : Net} {t ok : Bool} {m : Message}
  {replies : List Message}

def Net.view (s : Net) (g f : Flag) (t : Bool) : Ends where
  here := g.get (s.client (!t))
  there := f.get (s.client t)
  toHere := bits g.on g.off (s.inbox (!t))
  toThere := bits f.on f.off (s.inbox t)

theorem ends_receives (s : Net) (t : Bool) :
    s.ends (!t) = s.view sndbinaryFlag rcvbinaryFlag t := by
  simp only [Net.ends, Bool.not_not]
  rfl

/-- What is asked about `f` is told about as `g` is asked for. -/
structure Twins (g f : Flag) : Prop where
  recorded : ∀ s c, f.get (recopt s c) = f.get s ∧ g.get (recopt s c) = g.get s
  apart : ∀ s b, g.get (f.set s b) = g.get s
  asked : ∀ env ok s bit, answer env ok s ⟨f.asking bit, TOTXBINARY⟩ =
    f.negotiate (recopt s (f.asking bit).code) TOTXBINARY
  read : ∀ bit rest, bits f.on f.off (⟨f.asking bit, TOTXBINARY⟩ :: rest) =
      bit :: bits f.on f.off rest ∧
    bits g.on g.off (⟨f.asking bit, TOTXBINARY⟩ :: rest) = bits g.on g.off rest
  told : ∀ bit, bits g.on g.off [⟨f.telling bit, TOTXBINARY⟩] = [bit] ∧
    bits f.on f.off [⟨f.telling bit, TOTXBINARY⟩] = []

theorem twins_receive : Twins sndbinaryFlag rcvbinaryFlag where
  recorded _ _ := ⟨rfl, rfl⟩
  apart _ _ := rfl
  asked env ok s bit := (answer_binary env ok s bit).1
  read bit _ := by cases bit <;> exact ⟨rfl, rfl⟩
  told bit := by cases bit <;> exact ⟨rfl, rfl⟩

theorem twins_send : Twins rcvbinaryFlag sndbinaryFlag where
  recorded _ _ := ⟨rfl, rfl⟩
  apart _ _ := rfl
  asked env ok s bit := (answer_binary env ok s bit).2
  read bit _ := by cases bit <;> exact ⟨rfl, rfl⟩
  told bit := by cases bit <;> exact ⟨rfl, rfl⟩

theorem took_asking {g f : Flag} (twins : Twins g f) (bit : Bool)
    (took : Took env s after t ok ⟨f.asking bit, TOTXBINARY⟩ replies) :
    (s.view g f t).receive = some (after.view g f t) ∧ after.view f g t = s.view f g t ∧
      replies.length = (if f.get (after.client t) = f.get (s.client t) then 0 else 1) ∧
      ∀ r ∈ replies, r.option = TOTXBINARY := by
  obtain ⟨inbox, answered, other, outbox⟩ := took
  rw [twins.asked, f.negotiate_bit _ _ _ fun c => (twins.recorded _ c).1] at answered
  obtain ⟨read, unread⟩ := twins.read bit (after.inbox t)
  rw [← inbox] at read unread
  have recorded := twins.recorded (s.client t) (f.asking bit).code
  by_cases same : bit = f.get (s.client t)
  · rw [if_pos same, Prod.mk.injEq] at answered
    obtain ⟨client, rfl⟩ := answered
    rw [client] at recorded
    rw [List.append_nil] at outbox
    refine ⟨?_, ?_, by simp [recorded], by simp⟩
    · simp [Ends.receive, Net.view, read, same, recorded, other, outbox]
    · simp [Net.view, unread, recorded, other, outbox]
  · rw [if_neg same, Prod.mk.injEq] at answered
    obtain ⟨client, rfl⟩ := answered
    have held : f.get (after.client t) = bit := by rw [← client, f.get_set]
    have kept : g.get (after.client t) = g.get (s.client t) := by
      rw [← client, twins.apart, recorded.2]
    obtain ⟨told, untold⟩ := twins.told bit
    refine ⟨?_, ?_, by simp [held, same], by simp⟩
    · simp [Ends.receive, Net.view, read, same, held, other, outbox, bits_append, told]
    · simp [Net.view, unread, kept, other, outbox, bits_append, untold]

/-- Whatever is said about binary transmission is one message for one of the directions,
and an answer tells of a change. -/
theorem took_binary (took : Took env s after t ok m replies) (binary : m.option = TOTXBINARY) :
    (∃ a b, Ends.Told (s.ends t) (after.ends t) a ∧ Ends.Told (s.ends (!t)) (after.ends (!t)) b ∧
      replies.length = a + b) ∧
    (∀ r ∈ replies, r.option = TOTXBINARY) ∧
    ((after.client t).options = (s.client t).options → replies = []) := by
  obtain ⟨c, x⟩ := m
  obtain rfl : x = TOTXBINARY := binary
  have asks : (∃ bit, c = rcvbinaryFlag.asking bit) ∨ ∃ bit, c = sndbinaryFlag.asking bit := by
    cases c with
    | will => exact Or.inl ⟨true, rfl⟩
    | wont => exact Or.inl ⟨false, rfl⟩
    | do_ => exact Or.inr ⟨true, rfl⟩
    | dont => exact Or.inr ⟨false, rfl⟩
  rcases asks with ⟨bit, rfl⟩ | ⟨bit, rfl⟩
  · obtain ⟨received, idle, count, options⟩ := took_asking twins_receive bit took
    rw [← ends_receives, ← ends_receives] at received
    have same : after.ends t = s.ends t := congrArg Ends.swap idle
    refine ⟨⟨0, _, by rw [same]; exact .none, .there received, ?_⟩, options, fun kept => ?_⟩
    · simpa [ends_receives, Net.view] using count
    · have held : rcvbinaryFlag.get (after.client t) = rcvbinaryFlag.get (s.client t) :=
        (List.cons.inj (List.cons.inj (List.cons.inj kept).2).2).1
      rw [if_pos held] at count
      exact List.length_eq_zero_iff.mp count
  · obtain ⟨received, idle, count, options⟩ := took_asking twins_send bit took
    rw [← ends_receives, ← ends_receives] at idle
    refine ⟨⟨_, 0, .here received, by rw [idle]; exact .none, count⟩, options, fun kept => ?_⟩
    have held : sndbinaryFlag.get (after.client t) = sndbinaryFlag.get (s.client t) :=
      (List.cons.inj (List.cons.inj (List.cons.inj (List.cons.inj kept).2).2).2).1
    rw [if_pos held] at count
    exact List.length_eq_zero_iff.mp count

theorem took_ends (took : Took env s after t ok m replies) (other : m.option ≠ TOTXBINARY)
    (options : ∀ r ∈ replies, r.option ≠ TOTXBINARY)
    (receives : (after.client t).rcvbinary = (s.client t).rcvbinary)
    (sends : (after.client t).sndbinary = (s.client t).sndbinary) (d : Bool) :
    after.ends d = s.ends d := by
  obtain ⟨inbox, answered, client, outbox⟩ := took
  have apart (r : Message) (away : r.option ≠ TOTXBINARY) (c : Command) :
      r ≠ ⟨c, TOTXBINARY⟩ := fun same => away (congrArg Message.option same)
  have read (on off : Command) : bits on off (s.inbox t) = bits on off (after.inbox t) := by
    rw [inbox, bits_other on off m _ ⟨apart m other on, apart m other off⟩]
  have told (on off : Command) : bits on off (after.inbox (!t)) = bits on off (s.inbox (!t)) := by
    rw [outbox, bits_append, bits_none on off replies fun r member =>
      ⟨apart r (options r member) on, apart r (options r member) off⟩, List.append_nil]
  by_cases side : d = t
  · subst side
    simp only [Net.ends, sends, client, read, told]
  · obtain rfl : d = !t := Bool.eq_not.mpr side
    simp only [Net.ends, Bool.not_not, receives, client, read, told]

end Exchange

/-! What has to be under way for nobody to contradict. -/

/-- A message that changes nothing, and that is not answered, or whose answer is not. -/
structure Flag.Harmless (f : Flag) (s : Net) (t : Bool) (c : Command) : Prop where
  no : c ≠ f.no
  on : c = f.on → f.get (s.client t) = true
  off : c = f.off → f.get (s.client t) = false
  yes : c = f.yes → f.get (s.client (!t)) = false

def Flag.Settled (f : Flag) (x : UInt8) (s : Net) : Prop :=
  ∀ t, ∀ m ∈ s.inbox t, m.option = x → f.Harmless s t m.command

inductive OneSided : Flag → UInt8 → Prop where
  | echo : OneSided echoFlag TOECHO
  | noga : OneSided nogaFlag TONOGA
  | termtype : OneSided termtypeFlag TOTERMTYPE

theorem OneSided.negotiated {f : Flag} {x : UInt8} (one : OneSided f x) : Negotiated f x := by
  cases one with
  | echo => exact echo_negotiated
  | noga => exact noga_negotiated
  | termtype => exact termtype_negotiated

/-- Only supported options are spoken of, what is said about those of one side is harmless,
and in either direction of binary transmission no more changes are under way than will be
swallowed. -/
structure Quiet (s : Net) : Prop where
  supported : ∀ t, ∀ m ∈ s.inbox t, m.option = TOTXBINARY ∨ ∃ f, OneSided f m.option
  settled : ∀ f x, OneSided f x → f.Settled x s
  binary : ∀ d, (s.ends d).pending ≤ (s.ends d).astray

end NetworkProgramming.Telnet
