import NetworkProgramming.SyncServer

/-!
The messages of the synchronous server. The copy that should bring what follows a message to
the front of buff_ starts where the read bytes end, so the messages are those of the stream as
long as each is taken out before anything that follows it has been read.
-/

namespace NetworkProgramming.SyncServer

open CText LinearBuffer

def Answer.read (client : Nat) : Answer → List UInt8
  | .answered report => if report.client = client then report.read else []
  | .accepted _ | .erased _ | .silent => []

def Answer.handed (client : Nat) : Answer → List (List UInt8)
  | .answered report => if report.client = client then report.handed.toList else []
  | .accepted _ | .erased _ | .silent => []

/-- The bytes that read_some has returned. -/
def received (client : Nat) (trace : List Step) : List UInt8 :=
  trace.flatMap fun e => e.output.read client

def handed (client : Nat) (trace : List Step) : List (List UInt8) :=
  trace.flatMap fun e => e.output.handed client

def consumed (client : Nat) (trace : List Step) : List UInt8 :=
  (handed client trace).flatMap (· ++ [newline])

/-- For a stream of which `received` has arrived so far. -/
def InOrder (client : Nat) (trace : List Step) (s : State) : Prop :=
  let c := s.object client
  let read := received client trace
  let done := consumed client trace
  (∀ stream, read <+: stream → handed client trace <+: stream.splitOn newline) ∧
    read.length = done.length + c.alreadyRead ∧ c.unread = read.drop done.length

/-- The bytes after the newline at `pos` are the same as those that the copy finds. -/
def Alike (c : TalkToClient) (pos : Nat) : Bool :=
  (List.range (c.alreadyRead - (pos + 1))).all fun i =>
    (if c.alreadyRead + i < max_msg then c.buff (c.alreadyRead + i) else c.buff i) ==
      c.buff (pos + 1 + i)

def Met (e : Step) : Bool :=
  match e.action, e.before.phase with
  | .answer turn, .answering b =>
      match e.before.clients[b]? with
      | none => true
      | some client =>
          let c := (e.before.object client).readRequest turn.got.chunk
          turn.got == .threw || c.foundEnter.all (Alike c)
  | _, _ => true

/-! The buffer. -/

theorem unread_read (c : TalkToClient) (chunk : List UInt8) :
    (c.readRequest chunk).unread = c.unread ++ chunk := by
  have old := load_store_below c.buff c.alreadyRead chunk 0 c.alreadyRead (by omega)
  have new := load_store c.buff c.alreadyRead chunk
  simp only [TalkToClient.unread, TalkToClient.readRequest]
  rw [load_add, old, Nat.zero_add, new]

theorem found_enter (c : TalkToClient) (pos : Nat) (found : c.foundEnter = some pos) :
    pos < c.alreadyRead ∧ newline ∉ load c.buff 0 pos ∧
      c.unread = load c.buff 0 pos ++ newline :: c.unread.drop (pos + 1) := by
  obtain ⟨within, here, before⟩ := List.idxOf?_eq_some_iff.mp found
  have below : pos < c.alreadyRead := by simpa [TalkToClient.unread] using within
  have front : c.unread.take pos = load c.buff 0 pos := load_take _ _ _ _ (by omega)
  refine ⟨below, fun member => ?_, ?_⟩
  · rw [← front] at member
    obtain ⟨j, inside, same⟩ := List.getElem_of_mem member
    rw [List.getElem_take] at same
    have earlier : j < pos := by simp only [List.length_take] at inside; omega
    exact absurd same (before j earlier)
  · have cut := (List.take_append_drop pos c.unread).symm
    rw [List.drop_eq_getElem_cons within, here, front] at cut
    exact cut

theorem unread_take (c : TalkToClient) (pos : Nat) (now : Int) (found : c.foundEnter = some pos) :
    (c.take pos now).unread = c.unread.drop (pos + 1) ↔ Alike c pos = true := by
  obtain ⟨below, -, -⟩ := found_enter c pos found
  simp only [TalkToClient.unread, TalkToClient.take]
  rw [load_drop _ _ _ _ (by omega), load_eq_iff, Alike, List.all_eq_true]
  constructor
  · intro same i member
    have here := same i (List.mem_range.mp member)
    rw [Nat.zero_add, copied] at here
    rw [beq_iff_eq, ← Nat.zero_add (pos + 1), ← here]
    split <;> split <;> first | rfl | omega
  · intro alike i within
    have here := alike i (List.mem_range.mpr within)
    rw [beq_iff_eq] at here
    rw [Nat.zero_add, Nat.zero_add, copied, ← here]
    split <;> split <;> first | rfl | omega

/-! What a call of answer_to_client does to the buffers. -/

def TalkToClient.framing (c : TalkToClient) : Nat × (Nat → UInt8) := (c.alreadyRead, c.buff)

theorem framing_set (s : State) (client p : Nat) (c : TalkToClient)
    (same : c.framing = (s.object client).framing) :
    ((s.set client c).object p).framing = (s.object p).framing := by
  by_cases here : p = client
  · subst here
    rw [set_self, same]
  · rw [set_other _ _ _ _ here]

theorem framing_stop (s : State) (client p : Nat) :
    ((s.set client (s.object client).stop).object p).framing = (s.object p).framing :=
  framing_set _ _ _ _ rfl

theorem framing_update (s : State) (p : Nat) :
    (s.updateClientsChanged.object p).framing = (s.object p).framing := by
  simp only [State.updateClientsChanged]
  split <;> rfl

theorem framing_dispatch (s : State) (client p : Nat) (msg : List UInt8) (sent : Bool) :
    ((s.dispatch client msg sent).1.object p).framing = (s.object p).framing := by
  rw [State.dispatch]
  split
  · rw [State.onLogin]
    split
    · rw [framing_update]
      exact framing_set _ _ _ _ rfl
    · exact framing_set _ _ _ _ rfl
  · rw [State.onPing]
    split
    · exact framing_set _ _ _ _ rfl
    · rfl
  · rw [State.onClients]
    split <;> rfl
  · rfl

theorem framing_process (s : State) (client pos p : Nat) (turn : Turn) :
    ((s.processRequest client pos turn).1.object p).framing =
      ((s.set client ((s.object client).take pos turn.now)).object p).framing := by
  simp only [State.processRequest]
  split
  · rw [framing_stop, framing_dispatch]
  · rw [framing_dispatch]

theorem framing_answer (s : State) (client p : Nat) (turn : Turn) :
    ((s.answerToClient client turn).1.object p).framing =
      ((s.attempt client turn).1.object p).framing := by
  simp only [State.answerToClient]
  split
  · exact framing_stop _ _ _
  · rfl

inductive Called (c : TalkToClient) (client : Nat) (turn : Turn) :
    Report → Nat × (Nat → UInt8) → Prop where
  | threw (got : turn.got = .threw) : Called c client turn ⟨client, [], none, none⟩ c.framing
  | partial_ (got : turn.got ≠ .threw)
      (none_ : (c.readRequest turn.got.chunk).foundEnter = none) :
      Called c client turn ⟨client, turn.got.chunk, none, none⟩
        (c.readRequest turn.got.chunk).framing
  | whole (pos : Nat) (reply : Option (List UInt8)) (got : turn.got ≠ .threw)
      (found : (c.readRequest turn.got.chunk).foundEnter = some pos) :
      Called c client turn
        ⟨client, turn.got.chunk, some (load (c.readRequest turn.got.chunk).buff 0 pos), reply⟩
        ((c.readRequest turn.got.chunk).take pos turn.now).framing

theorem called (s : State) (client : Nat) (turn : Turn) :
    Called (s.object client) client turn (s.answerToClient client turn).2
      (((s.answerToClient client turn).1.object client).framing) := by
  rw [framing_answer]
  by_cases threw : turn.got = .threw
  · simp only [State.answerToClient, State.attempt, if_pos threw]
    rw [framing_stop]
    exact .threw threw
  · simp only [State.answerToClient, State.attempt, if_neg threw, set_self]
    split
    · rename_i none_
      rw [set_self]
      exact .partial_ threw none_
    · rename_i pos found
      rw [framing_process, set_self, set_self]
      simp only [State.processRequest, set_self]
      exact .whole pos _ threw found

theorem answer_other (s : State) (client p : Nat) (turn : Turn) (other : p ≠ client) :
    ((s.answerToClient client turn).1.object p).framing = (s.object p).framing := by
  have apart (t : State) (c : TalkToClient) : (t.set client c).object p = t.object p :=
    set_other t client p c other
  rw [framing_answer, State.attempt]
  dsimp only
  split
  · rw [apart]
  · split
    · rw [apart]
    · rw [framing_process, apart, apart]

/-! The invariant. -/

structure Framed (read : List UInt8) (handed : List (List UInt8)) (c : TalkToClient) : Prop where
  stream : read = handed.flatMap (· ++ [newline]) ++ c.unread
  lines : ∀ msg ∈ handed, newline ∉ msg

theorem framed_congr {read : List UInt8} {handed : List (List UInt8)} {c d : TalkToClient}
    (framed : Framed read handed c) (same : d.framing = c.framing) : Framed read handed d := by
  simp only [TalkToClient.framing, Prod.mk.injEq] at same
  have unread : d.unread = c.unread := by rw [TalkToClient.unread, same.1, same.2]; rfl
  exact ⟨unread ▸ framed.stream, framed.lines⟩

theorem framed_read {read : List UInt8} {handed : List (List UInt8)} {c : TalkToClient}
    (framed : Framed read handed c) (chunk : List UInt8) :
    Framed (read ++ chunk) handed (c.readRequest chunk) := by
  refine ⟨?_, framed.lines⟩
  rw [unread_read, ← List.append_assoc, ← framed.stream]

theorem framed_take {read : List UInt8} {handed : List (List UInt8)} {c : TalkToClient}
    (framed : Framed read handed c) (pos : Nat) (now : Int) (found : c.foundEnter = some pos)
    (alike : Alike c pos = true) :
    Framed read (handed ++ [load c.buff 0 pos]) (c.take pos now) := by
  obtain ⟨-, free, cut⟩ := found_enter c pos found
  refine ⟨?_, ?_⟩
  · rw [(unread_take c pos now found).mpr alike, List.flatMap_append, List.flatMap_singleton,
      List.append_assoc, List.append_assoc, List.singleton_append, ← cut]
    exact framed.stream
  · intro msg member
    rcases List.mem_append.mp member with earlier | last
    · exact framed.lines msg earlier
    · rwa [List.mem_singleton.mp last]

/-! Over a run. -/

theorem received_snoc (client : Nat) (trace : List Step) (e : Step) :
    received client (trace ++ [e]) = received client trace ++ e.output.read client := by
  simp [received]

theorem handed_snoc (client : Nat) (trace : List Step) (e : Step) :
    handed client (trace ++ [e]) = handed client trace ++ e.output.handed client := by
  simp [handed]

theorem consumed_snoc (client : Nat) (trace : List Step) (e : Step) :
    consumed client (trace ++ [e]) =
      consumed client trace ++ (e.output.handed client).flatMap (· ++ [newline]) := by
  simp [consumed, handed_snoc]

structure Listed (trace : List Step) (s : State) : Prop where
  made : ∀ client ∈ s.clients, client < s.created
  unheard : ∀ client, s.created ≤ client → received client trace = [] ∧ handed client trace = []

theorem dispatch_array (s : State) (client : Nat) (msg : List UInt8) (sent : Bool) :
    (s.dispatch client msg sent).1.created = s.created ∧
      (s.dispatch client msg sent).1.clients = s.clients := by
  rw [State.dispatch]
  split
  · rw [State.onLogin]
    split <;> exact ⟨rfl, rfl⟩
  · rw [State.onPing]
    split <;> exact ⟨rfl, rfl⟩
  · rw [State.onClients]
    split <;> exact ⟨rfl, rfl⟩
  · exact ⟨rfl, rfl⟩

theorem attempt_array (s : State) (client : Nat) (turn : Turn) :
    (s.attempt client turn).1.created = s.created ∧
      (s.attempt client turn).1.clients = s.clients := by
  simp only [State.attempt]
  split
  · exact ⟨rfl, rfl⟩
  · split
    · exact ⟨rfl, rfl⟩
    · simp only [State.processRequest]
      split
      · exact dispatch_array _ _ _ _
      · exact dispatch_array _ _ _ _

theorem answer_array (s : State) (client : Nat) (turn : Turn) :
    (s.answerToClient client turn).1.created = s.created ∧
      (s.answerToClient client turn).1.clients = s.clients := by
  simp only [State.answerToClient]
  split
  · exact attempt_array s client turn
  · exact attempt_array s client turn

/-- The report of a call is about the client that is called. -/
theorem report_client (s : State) (client : Nat) (turn : Turn) :
    (s.answerToClient client turn).2.client = client := by
  have call := called s client turn
  generalize (s.answerToClient client turn).2 = report at call
  generalize ((s.answerToClient client turn).1.object client).framing = framing at call
  cases call <;> rfl

theorem answered_other (report : Report) (client : Nat) (other : report.client ≠ client) :
    (Answer.answered report).read client = [] ∧ (Answer.answered report).handed client = [] := by
  simp [Answer.read, Answer.handed, other]

theorem listed_kept (trace : List Step) (e : Step) (stepped : machine.Stepped e)
    (listed : Listed trace e.before) : Listed (trace ++ [e]) e.after := by
  have moved := moves_of_stepped e stepped
  have silent (client : Nat) (read : e.output.read client = [])
      (given : e.output.handed client = []) (above : e.before.created ≤ client) :
      received client (trace ++ [e]) = [] ∧ handed client (trace ++ [e]) = [] := by
    rw [received_snoc, handed_snoc, read, given, List.append_nil, List.append_nil]
    exact listed.unheard client above
  obtain ⟨s, action, output, after⟩ := e
  dsimp only at moved listed silent
  cases moved with
  | accept fresh empty =>
      refine ⟨fun client member => ?_, fun client above => ?_⟩
      · rcases List.mem_append.mp member with old | new
        · exact Nat.lt_succ_of_lt (listed.made client old)
        · rw [List.mem_singleton.mp new]
          exact Nat.lt_succ_self _
      · exact silent client rfl rfl (Nat.le_of_succ_le above)
  | wake => exact ⟨listed.made, fun client => silent client rfl rfl⟩
  | answer turn b client now turns possible =>
      have same := answer_array s client turn
      have mine : client < s.created := listed.made client (List.mem_of_getElem? turns)
      refine ⟨fun p member => ?_, fun p above => ?_⟩
      · change p ∈ (s.answerToClient client turn).1.clients at member
        rw [same.2] at member
        change p < (s.answerToClient client turn).1.created
        rw [same.1]
        exact listed.made p member
      · change (s.answerToClient client turn).1.created ≤ p at above
        rw [same.1] at above
        have other : (s.answerToClient client turn).2.client ≠ p := by
          rw [report_client]
          omega
        exact silent p (answered_other _ p other).1 (answered_other _ p other).2 above
  | erase now =>
      exact ⟨fun client member => listed.made client (List.mem_of_mem_filter member),
        fun client => silent client rfl rfl⟩

theorem listed_run {trace : List Step} {s : State} (run : machine.Run trace s) : Listed trace s :=
  run.history (C := fun _ => True)
    (fun s first => ⟨by simp [first.1], fun _ _ => ⟨rfl, rfl⟩⟩)
    (fun trace e stepped _ => listed_kept trace e stepped) fun _ _ => trivial

theorem answered_self (report : Report) :
    (Answer.answered report).read report.client = report.read ∧
      (Answer.answered report).handed report.client = report.handed.toList := by
  simp [Answer.read, Answer.handed]

theorem framed_called {read : List UInt8} {handed : List (List UInt8)} {c d : TalkToClient}
    {client : Nat} {turn : Turn} {report : Report} (framed : Framed read handed c)
    (call : Called c client turn report d.framing)
    (met : turn.got = .threw ∨ ∀ pos, (c.readRequest turn.got.chunk).foundEnter = some pos →
      Alike (c.readRequest turn.got.chunk) pos = true) :
    Framed (read ++ report.read) (handed ++ report.handed.toList) d := by
  generalize same : d.framing = framing at call
  cases call with
  | threw got =>
      simp only [Option.toList_none, List.append_nil]
      exact framed_congr framed same
  | partial_ got none_ =>
      simp only [Option.toList_none, List.append_nil]
      exact framed_congr (framed_read framed turn.got.chunk) same
  | whole pos reply got found =>
      have alike := met.resolve_left got pos found
      exact framed_congr
        (framed_take (framed_read framed turn.got.chunk) pos turn.now found alike) same

theorem met_answer (s : State) (turn : Turn) (b client : Nat) (output : Answer) (after : State)
    (now : s.phase = .answering b) (turns : s.clients[b]? = some client) :
    Met ⟨s, .answer turn, output, after⟩ = true ↔ turn.got = .threw ∨
      ∀ pos, ((s.object client).readRequest turn.got.chunk).foundEnter = some pos →
        Alike ((s.object client).readRequest turn.got.chunk) pos = true := by
  simp only [Met, now, turns, Bool.or_eq_true, beq_iff_eq, Option.all_eq_true]

theorem framed_kept (trace : List Step) (e : Step) (stepped : machine.Stepped e)
    (met : Met e = true) (listed : Listed trace e.before)
    (framed : ∀ client < e.before.created,
      Framed (received client trace) (handed client trace) (e.before.object client)) :
    ∀ client < e.after.created,
      Framed (received client (trace ++ [e])) (handed client (trace ++ [e]))
        (e.after.object client) := by
  have moved := moves_of_stepped e stepped
  have silent (client : Nat) (read : e.output.read client = [])
      (given : e.output.handed client = [])
      (made : Framed (received client trace) (handed client trace) (e.after.object client)) :
      Framed (received client (trace ++ [e])) (handed client (trace ++ [e]))
        (e.after.object client) := by
    rwa [received_snoc, handed_snoc, read, given, List.append_nil, List.append_nil]
  obtain ⟨s, action, output, after⟩ := e
  dsimp only at moved framed silent listed
  cases moved with
  | accept fresh empty =>
      intro client below
      -- the newcomer has read nothing, and its buffer is empty
      by_cases new : client = s.created
      · subst new
        obtain ⟨nothing, none_⟩ := listed.unheard s.created (Nat.le_refl _)
        have object : (s.accept fresh).object s.created = fresh := set_self s s.created fresh
        have unread : fresh.unread = [] := by rw [TalkToClient.unread, empty]; rfl
        refine silent _ rfl rfl ?_
        rw [object, nothing, none_]
        exact ⟨by rw [unread]; rfl, by simp⟩
      · have old : client < s.created := Nat.lt_of_le_of_ne (Nat.lt_succ_iff.mp below) new
        have object : (s.accept fresh).object client = s.object client := set_other s _ _ fresh new
        refine silent client rfl rfl ?_
        rw [object]
        exact framed client old
  | wake => exact fun client below => silent client rfl rfl (framed client below)
  | answer turn b client now turns possible =>
      intro p below
      change p < (s.answerToClient client turn).1.created at below
      rw [(answer_array s client turn).1] at below
      have about := report_client s client turn
      by_cases mine : p = client
      · subst mine
        have both := answered_self (s.answerToClient p turn).2
        rw [about] at both
        rw [received_snoc, handed_snoc, both.1, both.2]
        exact framed_called (framed p below) (called s p turn)
          ((met_answer s turn b p _ _ now turns).mp met)
      · have none_ := answered_other (s.answerToClient client turn).2 p
          (fun same => mine (same.symm.trans about))
        exact silent p none_.1 none_.2
          (framed_congr (framed p below) (answer_other s client p turn mine))
  | erase now => exact fun client below => silent client rfl rfl (framed client below)

theorem framed_run {trace : List Step} {s : State} (run : machine.Run trace s)
    (met : ∀ e ∈ trace, Met e = true) : ∀ client < s.created,
      Framed (received client trace) (handed client trace) (s.object client) := by
  have both := run.history (C := fun e => Met e = true)
    (I := fun trace s => Listed trace s ∧ ∀ client < s.created,
      Framed (received client trace) (handed client trace) (s.object client))
    (fun s first => ⟨⟨by simp [first.1], fun _ _ => ⟨rfl, rfl⟩⟩, by simp [first.2.1]⟩)
    (fun trace e stepped ok kept =>
      ⟨listed_kept trace e stepped kept.1, framed_kept trace e stepped ok kept.1 kept.2⟩) met
  exact both.2

theorem split_lines (lines : List (List UInt8)) (rest : List UInt8)
    (free : ∀ msg ∈ lines, newline ∉ msg) :
    (lines.flatMap (· ++ [newline]) ++ rest).splitOn newline = lines ++ rest.splitOn newline := by
  induction lines with
  | nil => rfl
  | cons msg lines ih =>
      have later := ih fun other member => free other (List.mem_cons_of_mem msg member)
      rw [List.flatMap_cons, List.append_assoc, List.append_assoc, List.singleton_append,
        List.splitOn_append_cons_self_of_not_mem (free msg List.mem_cons_self), later,
        List.cons_append]

theorem in_order_framed (client : Nat) (trace : List Step) (s : State)
    (framed : Framed (received client trace) (handed client trace) (s.object client)) :
    InOrder client trace s := by
  have stream : received client trace = consumed client trace ++ (s.object client).unread :=
    framed.stream
  refine ⟨?_, ?_, ?_⟩
  · rintro whole ⟨later, rfl⟩
    rw [framed.stream, List.append_assoc, split_lines _ _ framed.lines]
    exact List.prefix_append _ _
  · rw [stream, List.length_append, TalkToClient.unread, load_length]
  · rw [stream, List.drop_left' rfl]

/-- A message after which the buffer is as it should be was taken out with nothing unlike it
behind it. -/
theorem alike_of_in_order (trace : List Step) (e : Step) (stepped : machine.Stepped e)
    (before : ∀ client < e.before.created, InOrder client trace e.before)
    (after : ∀ client < e.after.created, InOrder client (trace ++ [e]) e.after)
    (listed : Listed trace e.before) : Met e = true := by
  have moved := moves_of_stepped e stepped
  obtain ⟨s, action, output, last⟩ := e
  dsimp only at moved before after listed
  cases moved with
  | accept fresh empty => rfl
  | wake => rfl
  | erase now => rfl
  | answer turn b client now turns possible =>
      rw [met_answer s turn b client _ _ now turns]
      refine or_iff_not_imp_left.mpr fun got pos found => ?_
      have below : client < s.created := listed.made client (List.mem_of_getElem? turns)
      have still : client < (s.answerToClient client turn).1.created := by
        rw [(answer_array s client turn).1]
        exact below
      obtain ⟨-, counted, rest⟩ := before client below
      obtain ⟨-, -, left⟩ := after client still
      have both := answered_self (s.answerToClient client turn).2
      rw [report_client s client turn] at both
      have call := called s client turn
      rw [received_snoc, consumed_snoc, both.1, both.2] at left
      generalize (s.answerToClient client turn).2 = report at call left
      generalize same : ((s.answerToClient client turn).1.object client).framing = framing at call
      cases call with
      | threw other => exact absurd other got
      | partial_ _ none_ =>
          rw [none_] at found
          cases found
      | whole at_ reply _ again =>
          rw [found] at again
          cases again
          -- what is in the buffer after the message is what the stream has there
          refine (unread_take _ pos turn.now found).mp ?_
          obtain ⟨room, -, -⟩ := found_enter _ pos found
          have unread : (((s.object client).readRequest turn.got.chunk).take pos turn.now).unread =
              ((s.answerToClient client turn).1.object client).unread := by
            simp only [TalkToClient.framing, Prod.mk.injEq] at same
            rw [TalkToClient.unread, TalkToClient.unread, same.1, same.2]
          have msg : ((some (load ((s.object client).readRequest turn.got.chunk).buff 0
              pos)).toList.flatMap (· ++ [newline])).length = pos + 1 := by simp
          rw [unread]
          change ((s.answerToClient client turn).1.object client).unread = _ at left
          rw [left, List.length_append, msg, ← List.drop_drop, List.drop_append_of_le_length
            (by omega), ← rest, unread_read]

/-- The synchronous server hands over the lines of a stream in order and keeps what it has of
the next ones exactly as long as no message is followed by bytes that the copy does not
find. -/
theorem lines_in_order {trace : List Step} {s : State} (run : machine.Run trace s) :
    (∀ e ∈ trace, Met e = true) ↔ ∀ pre last, pre <+: trace → machine.Run pre last →
      ∀ client < last.created, InOrder client pre last := by
  refine run.exactly (fun pre last reached met client below => ?_)
    (fun pre e earlier _ stepped before after => ?_)
  · exact in_order_framed client pre last (framed_run reached met client below)
  · exact alike_of_in_order pre e stepped before after (listed_run earlier)

/-! Two messages, read one at a time and at once. -/

def reading (chunk : List UInt8) : Action :=
  .answer { got := .bytes chunk, now := 0, sent := true, later := 0 }

theorem two_lines_in_order : ∃ trace s, machine.Run trace s ∧
    handed 0 trace = [[112, 105, 110, 103], [97]] ∧
    ∀ pre last, pre <+: trace → machine.Run pre last →
      ∀ client < last.created, InOrder client pre last := by
  obtain ⟨trace, s, run, check⟩ := Machine.run_of_check (M := machine) (s := noClients)
    ⟨rfl, rfl, rfl⟩
    [.accept newcomer, .wake, reading [112, 105, 110, 103, newline], .erase fun _ => 0, .wake,
      reading [97], .erase fun _ => 0, .wake, reading [newline]]
    (fun r => decide (handed 0 r.1 = [[112, 105, 110, 103], [97]]) && r.1.all Met)
    (by decide +kernel)
  rw [Bool.and_eq_true] at check
  exact ⟨trace, s, run, of_decide_eq_true check.1,
    (lines_in_order run).mp (List.all_eq_true.mp check.2)⟩

theorem second_line_lost : ¬ ∀ trace s, machine.Run trace s →
    ∀ client < s.created, InOrder client trace s := by
  intro always
  obtain ⟨trace, s, run, check⟩ := Machine.run_of_check (M := machine) (s := noClients)
    ⟨rfl, rfl, rfl⟩
    [.accept newcomer, .wake, reading [112, 105, 110, 103, newline, 97, newline],
      .erase fun _ => 0, .wake, reading [newline]]
    (fun r => decide (received 0 r.1 = [112, 105, 110, 103, newline, 97, newline, newline] ∧
      handed 0 r.1 = [[112, 105, 110, 103], [0, 0]] ∧ 0 < r.2.created))
    (by decide +kernel)
  obtain ⟨read, given, made⟩ := of_decide_eq_true check
  have order := (always trace s run 0 made).1 _ (List.prefix_refl _)
  rw [read, given] at order
  exact absurd order (by decide)

end NetworkProgramming.SyncServer
