import NetworkProgramming.HeaderFields
import NetworkProgramming.HttpClientCallbacks
import NetworkProgramming.ReadUntil

/-!
What a request makes of a response. Its three reads take the status line, the headers and the
rest; what one of them has read too much is left in the buffer to the next one. The headers are
read up to an empty line with the end of a line before it, and where there are no headers that
end has gone with the status line.
-/

namespace NetworkProgramming.HttpClient

open CText TextStream HeaderFields ReadUntil

def lf : UInt8 := 10
def colon : UInt8 := 58

structure Message where
  code : List UInt8
  reason : List UInt8
  fields : List (Field cr colon)
  body : List UInt8
  three : code.length = 3
  digits : ∀ b ∈ code, isdigit b = true
  line : cr ∉ reason
  distinct : (fields.map Field.name).Nodup

namespace Message

def statusLine (message : Message) : List UInt8 :=
  bytes "HTTP/1.1" ++ space :: message.code ++ space :: message.reason

def rest (message : Message) : List UInt8 :=
  fieldText lf message.fields ++ crlf ++ message.body

def text (message : Message) : List UInt8 := message.statusLine ++ crlf ++ message.rest

def table (message : Message) : Headers := enter (fun _ => none) message.fields

end Message

/-! The parsers. -/

theorem digit_solid (b : UInt8) (digit : isdigit b = true) : isspace b = false := by
  simp only [isdigit, decide_eq_true_eq] at digit
  simp only [isspace, decide_eq_false_iff_not, not_or]
  refine ⟨?_, by omega⟩
  rintro rfl
  exact absurd digit.1 (by decide)

theorem digits_value_three (code : List UInt8) (three : code.length = 3)
    (digits : ∀ b ∈ code, isdigit b = true) : digitsValue code < 1000 := by
  match code, three with
  | [a, b, c], _ =>
      have bound (d : UInt8) (member : d ∈ [a, b, c]) : d.toNat - 48 ≤ 9 := by
        have digit := digits d member
        simp only [isdigit, decide_eq_true_eq] at digit
        omega
      have first := bound a (by simp)
      have second := bound b (by simp)
      have third := bound c (by simp)
      simp only [digitsValue, List.foldl_cons, List.foldl_nil]
      omega

theorem stoul_digits (code : List UInt8) (three : code.length = 3)
    (digits : ∀ b ∈ code, isdigit b = true) : stoul code = some (digitsValue code) := by
  have some_ : code ≠ [] := by
    rintro rfl
    cases three
  obtain ⟨d, code, rfl⟩ := List.exists_cons_of_ne_nil some_
  have digit := digits d List.mem_cons_self
  have minus : d ≠ 45 := by
    rintro rfl
    exact absurd digit (by decide)
  have plus : d ≠ 43 := by
    rintro rfl
    exact absurd digit (by decide)
  have whole : unsigned (d :: code) = d :: code := by simp [unsigned, minus, plus]
  have taken : (d :: code).takeWhile isdigit = d :: code := List.takeWhile_eq_self_iff.mpr digits
  have small := digits_value_three (d :: code) three digits
  have read : leading (d :: code) =
      some ((digitsValue (d :: code) : Int), (d :: code).dropWhile isdigit) := by
    rw [leading, whole, taken, if_neg (List.cons_ne_nil d code), List.head?_cons,
      if_neg (by simp [minus])]
  rw [stoul, read]
  dsimp only
  rw [if_pos (by omega)]
  exact congrArg some (by omega)

theorem parse_status_line (message : Message) (look : List UInt8) (response : Response) :
    parseStatusLine (message.statusLine ++ crlf ++ look) response =
      (some { response with
        statusCode := digitsValue message.code, statusMessage := space :: message.reason },
        look) := by
  have solid : ∀ b ∈ message.code, isspace b = false := fun b member =>
    digit_solid b (message.digits b member)
  have some_ : message.code ≠ [] := by
    intro none_
    have three := message.three
    rw [none_] at three
    cases three
  have version := word_found isspace [] (bytes "HTTP/1.1")
    (message.code ++ space :: message.reason ++ crlf ++ look) [] space (by simp)
    (solid_word _ _ (by decide)) (by decide) (by decide)
  have code := word_found isspace [space] message.code (message.reason ++ crlf ++ look) [] space
    (List.all_eq_true.mp (by decide)) solid some_ (by decide)
  have free : cr ∉ space :: message.reason := by
    rw [List.mem_cons, not_or]
    exact ⟨by decide, message.line⟩
  have reason := getline_line cr (space :: message.reason) (lf :: look) [] free
  have start : message.statusLine ++ crlf ++ look = [] ++ bytes "HTTP/1.1" ++
      space :: (message.code ++ space :: message.reason ++ crlf ++ look) := by
    simp [Message.statusLine]
  have middle : space :: (message.code ++ space :: message.reason ++ crlf ++ look) =
      [space] ++ message.code ++ space :: (message.reason ++ crlf ++ look) := by simp
  have last : space :: (message.reason ++ crlf ++ look) =
      space :: message.reason ++ cr :: lf :: look := by simp [crlf, cr, lf]
  rw [parseStatusLine, start, version]
  dsimp only
  rw [if_neg (by simp), middle, code]
  dsimp only
  rw [stoul_digits message.code message.three message.digits]
  dsimp only
  rw [last, reason]
  rfl

theorem add_header_line (field : Field cr colon) (headers : Headers) :
    addHeader field.line headers = Function.update headers field.name (some field.value) := by
  have found : field.line.idxOf? 58 = some field.name.length := by
    rw [List.idxOf?_eq_some_iff]
    refine ⟨by simp [Field.line], by simp [Field.line, colon], fun j before => ?_⟩
    have bound : j < field.line.length := by
      simp [Field.line]
      omega
    have inside : field.line[j] = field.name[j] := by
      simp [Field.line, before]
    rw [inside]
    have member : field.name[j] ∈ field.name := List.getElem_mem before
    have other : field.name[j] ≠ colon := ne_of_mem_of_not_mem member field.name_ends
    simpa [colon] using other
  rw [addHeader, found]
  dsimp only
  have name : field.line.take field.name.length = field.name := by simp [Field.line]
  have value : field.line.drop (field.name.length + 1) = field.value := by simp [Field.line]
  rw [name, value]
  split
  · rfl
  · rename_i short
    have none_ : field.value = [] := by
      simp only [Field.line, List.length_append, List.length_cons] at short
      exact List.eq_nil_of_length_eq_zero (by omega)
    rw [none_]

theorem header_loop_fields (fields : List (Field cr colon)) (turns : Nat) (look header : List UInt8)
    (headers : Headers) (enough : fields.length < turns) :
    headerLoop turns ⟨fieldText lf fields ++ crlf ++ look, true⟩ header headers =
      some (look, enter headers fields) := by
  induction fields generalizing turns header headers with
  | nil =>
      -- the empty line: its name is empty, and the loop ends
      obtain ⟨turns, rfl⟩ : ∃ n, turns = n + 1 := ⟨turns - 1, by simp at enough; omega⟩
      exact (header_loop_line turns [] (lf :: look) header headers (List.not_mem_nil)).trans rfl
  | cons field fields ih =>
      obtain ⟨turns, rfl⟩ : ∃ n, turns = n + 1 := ⟨turns - 1, by simp at enough; omega⟩
      have plain := fields_plain (field :: fields) (by decide) field.line
        (List.mem_map_of_mem List.mem_cons_self)
      have cut : fieldText lf (field :: fields) ++ crlf ++ look =
          field.line ++ cr :: lf :: (fieldText lf fields ++ crlf ++ look) := by
        simp [fieldText, text_cons]
      rw [cut, header_loop_line turns _ _ header headers plain.2, if_neg plain.1, add_header_line,
        enter_cons]
      exact ih turns field.line _ (by simpa using enough)

theorem parse_headers (fields : List (Field cr colon)) (look : List UInt8) (headers : Headers) :
    parseHeaders (fieldText lf fields ++ crlf ++ look) headers =
      some (look, enter headers fields) := by
  refine header_loop_fields fields _ look [] headers ?_
  have short : (fields.map Field.line).length ≤ (text cr lf (fields.map Field.line)).length :=
    text_length _
  rw [List.length_map] at short
  simp only [fieldText, List.length_append]
  omega

/-! A request whose operations work, on a connection that carries a response. -/

/-- What an operation ends with and reads, and what is left of the chunks that arrive. -/
def Op.receive (op : Op) (buf : List UInt8) (chunks : List (List UInt8)) :
    Ec × List UInt8 × List (List UInt8) :=
  let upTo (delim : List UInt8) :=
    let read := readUntil delim none buf chunks
    (if read.ending = .found then Ec.success else .eof, read.buffer.drop buf.length, read.rest)
  match op with
  | .resolve | .connect | .write => (.success, [], chunks)
  | .statusLine => upTo crlf
  | .headers => upTo (crlf ++ crlf)
  | .body => (.eof, chunks.flatten, [])

structure Session where
  client : State
  network : List (List UInt8)

def Session.feed (p : Session) : Action → Option (List (List UInt8))
  | .complete ec more shutdown =>
      match p.client.pending with
      | none => none
      | some op =>
          let got := op.receive p.client.responseBuf p.network
          if ec = got.1 ∧ more = got.2.1 ∧ shutdown = true then some got.2.2 else none
  | .cancel _ | .cancelLocks _ | .cancelReturns _ => none
  | .execute | .checkFirst | .executeReturns | .check | .callback | .callbackFirst => some p.network

def session (chunks : List (List UInt8)) : Machine Session Action Answer where
  start p := machine.start p.client ∧ p.client.responseBuf = [] ∧
    p.client.response.headers = (fun _ => none) ∧ p.network = chunks
  step p action := (p.feed action).bind fun network =>
    (step p.client action).map fun r => (⟨r.1, network⟩, r.2)

abbrev Turn := Transition Session Action Answer

def called (trace : List Turn) : List Ec := trace.flatMap fun e => e.output.call

structure Accepted (message : Message) (trace : List Turn) (p : Session) : Prop where
  called : called trace = [.success]
  status : p.client.response.statusCode = digitsValue message.code
  headers : ∀ name value, p.client.response.headers name = some value ↔
    ∃ field ∈ message.fields, field.name = name ∧ field.value = value
  body : p.client.responseBuf = message.body

/-- The headers end in an empty line, or the empty line is followed by another one. -/
def Message.Readable (message : Message) : Prop :=
  message.fields ≠ [] ∨ crlf ++ crlf <:+: crlf ++ message.body

def Ready (message : Message) (op : Op) (p : Session) : Prop :=
  match op with
  | .resolve | .connect | .write | .statusLine =>
      p.client.responseBuf = [] ∧ p.network.flatten = message.text ∧
        p.client.response.headers = fun _ => none
  | .headers =>
      p.client.responseBuf ++ p.network.flatten = message.rest ∧
        p.client.response.statusCode = digitsValue message.code ∧
        p.client.response.headers = fun _ => none
  | .body =>
      message.Readable ∧ p.client.responseBuf ++ p.network.flatten = message.body ∧
        p.client.response.statusCode = digitsValue message.code ∧
        p.client.response.headers = message.table

def Ended (message : Message) (ec : Ec) (s : State) : Prop :=
  (message.Readable ∧ ec = .success ∧ s.response.statusCode = digitsValue message.code ∧
    s.response.headers = message.table ∧ s.responseBuf = message.body) ∨
  (¬ message.Readable ∧ ec = .eof)

structure Handled (message : Message) (s : State) (network : List (List UInt8)) (s' : State) :
    Prop where
  alive : s'.terminated = s.terminated
  goes : (∃ op, s'.handler = .checking op ∧ Ready message op ⟨s', network⟩) ∨
    ∃ ec, s'.handler = .finishing ec ∧ Ended message ec s'

theorem readable_iff (message : Message) :
    message.Readable ↔ crlf ++ crlf <:+: message.rest := by
  rw [Message.Readable, Message.rest]
  by_cases none_ : message.fields = []
  · simp [none_, fieldText, HeaderFields.text]
  · have blank : [cr, lf, cr, lf] <:+:
        HeaderFields.text cr lf (message.fields.map Field.line) ++ [cr, lf] ++ message.body :=
      text_blank _ _ (by simpa using none_)
    exact iff_of_true (Or.inl none_) blank

theorem received (buf : List UInt8) (chunks : List (List UInt8)) (delim : List UInt8) :
    buf ++ (readUntil delim none buf chunks).buffer.drop buf.length =
      (readUntil delim none buf chunks).buffer :=
  List.prefix_iff_eq_append.mp (read_until_extends delim none buf chunks rfl)

theorem handled_status_line (message : Message) (s : State) (network : List (List UInt8))
    (ready : Ready message .statusLine ⟨s, network⟩) :
    let got := Op.statusLine.receive s.responseBuf network
    Handled message s got.2.2 (s.completed .statusLine got.1 got.2.1 true) := by
  obtain ⟨empty, whole, fresh⟩ := ready
  dsimp only at empty whole fresh
  have found : (readUntil crlf none [] network).ending = .found := by
    rw [read_until_found crlf none [] network rfl]
    refine ⟨message.statusLine, message.rest, ?_⟩
    rw [List.nil_append, whole]
    rfl
  have has := (read_until_has crlf none [] network).mp found
  have all := read_until_whole crlf none [] network
  rw [List.nil_append, whole] at all
  have solid : cr ∉ message.statusLine := by
    simp only [Message.statusLine, List.mem_append, List.mem_cons, not_or]
    refine ⟨⟨by decide, by decide, fun member => ?_⟩, by decide, message.line⟩
    exact absurd (message.digits cr member) (by decide)
  obtain ⟨look, seen⟩ : message.statusLine ++ crlf <+: (readUntil crlf none [] network).buffer :=
    line_first message.statusLine _ message.rest solid has ⟨_, all⟩
  rw [← seen, Message.text, List.append_assoc] at all
  have parsed := parse_status_line message look s.response
  dsimp only [Op.receive]
  rw [empty, found, if_pos rfl, List.length_nil, List.drop_zero, ← seen]
  simp only [State.completed, ne_eq, not_true_eq_false, and_false, if_false,
    State.onStatusLineReceived, empty, List.nil_append, parsed]
  exact ⟨rfl, Or.inl ⟨.headers, rfl, List.append_cancel_left all, rfl, fresh⟩⟩

theorem handled_headers (message : Message) (s : State) (network : List (List UInt8))
    (ready : Ready message .headers ⟨s, network⟩) :
    let got := Op.headers.receive s.responseBuf network
    Handled message s got.2.2 (s.completed .headers got.1 got.2.1 true) := by
  obtain ⟨whole, status, fresh⟩ := ready
  dsimp only at whole status fresh
  have iff := read_until_found (crlf ++ crlf) none s.responseBuf network rfl
  rw [visible, whole, ← readable_iff] at iff
  dsimp only [Op.receive]
  by_cases readable : message.Readable
  · have found := iff.mpr readable
    have has := (read_until_has (crlf ++ crlf) none s.responseBuf network).mp found
    have all := read_until_whole (crlf ++ crlf) none s.responseBuf network
    rw [whole] at all
    obtain ⟨look, seen⟩ : fieldText lf message.fields ++ crlf <+:
        (readUntil (crlf ++ crlf) none s.responseBuf network).buffer :=
      blank_first _ _ message.body (by decide) (fields_plain message.fields (by decide)) has ⟨_, all⟩
    rw [← seen, Message.rest, List.append_assoc] at all
    have buffered := (received s.responseBuf network (crlf ++ crlf)).trans seen.symm
    have parsed := parse_headers message.fields look s.response.headers
    rw [found, if_pos rfl]
    simp only [State.completed, ne_eq, not_true_eq_false, and_false, if_false,
      State.onHeadersReceived, buffered, parsed]
    refine ⟨rfl, Or.inl ⟨.body, rfl, readable, List.append_cancel_left all, status, ?_⟩⟩
    dsimp only [State.next]
    rw [fresh]
    rfl
  · rw [if_neg fun found => readable (iff.mp found)]
    exact ⟨rfl, Or.inr ⟨.eof, rfl, Or.inr ⟨readable, rfl⟩⟩⟩

theorem handled_op (message : Message) (op : Op) (s : State) (network : List (List UInt8))
    (ready : Ready message op ⟨s, network⟩) :
    let got := op.receive s.responseBuf network
    Handled message s got.2.2 (s.completed op got.1 got.2.1 true) := by
  cases op with
  | resolve =>
      obtain ⟨empty, whole, fresh⟩ := ready
      exact ⟨rfl, Or.inl ⟨.connect, rfl, (List.append_nil _).trans empty, whole, fresh⟩⟩
  | connect =>
      obtain ⟨empty, whole, fresh⟩ := ready
      exact ⟨rfl, Or.inl ⟨.write, rfl, (List.append_nil _).trans empty, whole, fresh⟩⟩
  | write =>
      obtain ⟨empty, whole, fresh⟩ := ready
      exact ⟨rfl, Or.inl ⟨.statusLine, rfl, (List.append_nil _).trans empty, whole, fresh⟩⟩
  | statusLine => exact handled_status_line message s network ready
  | headers => exact handled_headers message s network ready
  | body =>
      obtain ⟨readable, whole, status, table⟩ := ready
      exact ⟨rfl, Or.inr ⟨.success, rfl, Or.inl ⟨readable, rfl, status, table, whole⟩⟩⟩

/-! Runs. -/

def State.Begun (s : State) : Prop := s.execute = .started ∨ s.execute = .returned

inductive Stage (message : Message) (p : Session) : List Ec → Prop
  | first (now : p.client.execute = .uncalled ∨ p.client.execute = .checking)
      (idle : p.client.handler = .idle) (none_ : p.client.pending = none)
      (ready : Ready message .resolve p) : Stage message p []
  | pending (op : Op) (begun : p.client.Begun) (idle : p.client.handler = .idle)
      (now : p.client.pending = some op) (ready : Ready message op p) : Stage message p []
  | checking (op : Op) (begun : p.client.Begun) (now : p.client.handler = .checking op)
      (none_ : p.client.pending = none) (ready : Ready message op p) : Stage message p []
  | finishing (ec : Ec) (begun : p.client.Begun) (now : p.client.handler = .finishing ec)
      (none_ : p.client.pending = none) (ended : Ended message ec p.client) : Stage message p []
  | over_ (ec : Ec) (begun : p.client.Begun) (idle : p.client.handler = .idle)
      (none_ : p.client.pending = none) (ended : Ended message ec p.client) : Stage message p [ec]

structure Going (message : Message) (made : List Ec) (p : Session) : Prop where
  alive : p.client.terminated = false
  flag : p.client.wasCancelled = false
  mux : p.client.cancelMux = none ∨
    p.client.cancelMux = some .execute ∧ p.client.execute = .started
  stage : Stage message p made

/-! The stage is known from where the request is. -/

theorem Stage.early {message : Message} {p : Session} {made : List Ec} (stage : Stage message p made)
    (now : ¬ p.client.Begun) : made = [] ∧ p.client.handler = .idle ∧ p.client.pending = none ∧
      Ready message .resolve p := by
  cases stage with
  | first _ idle none_ ready => exact ⟨rfl, idle, none_, ready⟩
  | pending _ begun _ _ _ => exact absurd begun now
  | checking _ begun _ _ _ => exact absurd begun now
  | finishing _ begun _ _ _ => exact absurd begun now
  | over_ _ begun _ _ _ => exact absurd begun now

theorem Stage.of_pending {message : Message} {p : Session} {made : List Ec} {op : Op}
    (stage : Stage message p made) (now : p.client.pending = some op) :
    made = [] ∧ p.client.Begun ∧ Ready message op p := by
  cases stage with
  | pending _ begun _ now' ready => exact Option.some.inj (now'.symm.trans now) ▸ ⟨rfl, begun, ready⟩
  | first _ _ none_ _ => cases none_.symm.trans now
  | checking _ _ _ none_ _ => cases none_.symm.trans now
  | finishing _ _ _ none_ _ => cases none_.symm.trans now
  | over_ _ _ _ none_ _ => cases none_.symm.trans now

theorem Stage.of_checking {message : Message} {p : Session} {made : List Ec} {op : Op}
    (stage : Stage message p made) (now : p.client.handler = .checking op) :
    made = [] ∧ p.client.Begun ∧ Ready message op p := by
  cases stage with
  | checking _ begun now' _ ready =>
      cases now'.symm.trans now
      exact ⟨rfl, begun, ready⟩
  | first _ idle _ _ => cases idle.symm.trans now
  | pending _ _ idle _ _ => cases idle.symm.trans now
  | finishing _ _ other _ _ => cases other.symm.trans now
  | over_ _ _ idle _ _ => cases idle.symm.trans now

theorem Stage.of_finishing {message : Message} {p : Session} {made : List Ec} {ec : Ec}
    (stage : Stage message p made) (now : p.client.handler = .finishing ec) :
    made = [] ∧ p.client.Begun ∧ p.client.pending = none ∧ Ended message ec p.client := by
  cases stage with
  | finishing _ begun now' none_ ended =>
      cases now'.symm.trans now
      exact ⟨rfl, begun, none_, ended⟩
  | first _ idle _ _ => cases idle.symm.trans now
  | pending _ _ idle _ _ => cases idle.symm.trans now
  | checking _ _ other _ _ => cases other.symm.trans now
  | over_ _ _ idle _ _ => cases idle.symm.trans now

variable {chunks : List (List UInt8)}

theorem turn_moves (e : Turn) (stepped : (session chunks).Stepped e) :
    e.before.feed e.action = some e.after.network ∧
      machine.Stepped ⟨e.before.client, e.action, e.output, e.after.client⟩ := by
  obtain ⟨p, action, output, after⟩ := e
  change (p.feed action).bind _ = some (after, output) at stepped
  obtain ⟨network, fed, stepped⟩ := Option.bind_eq_some_iff.mp stepped
  obtain ⟨r, ran, same⟩ := Option.map_eq_some_iff.mp stepped
  obtain ⟨rfl, rfl⟩ := Prod.mk.inj same
  exact ⟨fed, ran⟩

theorem turn_own (e : Turn) (stepped : (session chunks).Stepped e) : e.action.own = true := by
  obtain ⟨fed, -⟩ := turn_moves e stepped
  obtain ⟨p, action, output, after⟩ := e
  cases action with
  | cancel i => cases fed
  | cancelLocks i => cases fed
  | cancelReturns i => cases fed
  | _ => rfl

theorem turn_left (e : Turn) (stepped : (session chunks).Stepped e) :
    e.after.client.left < e.before.client.left := by
  obtain ⟨-, ran⟩ := turn_moves e stepped
  have less := left_step _ ran
  dsimp only at less
  rw [turn_own e stepped, if_pos rfl] at less
  exact less

theorem short_run {trace : List Turn} {p : Session} (run : (session chunks).Run trace p) :
    trace.length + p.client.left ≤ 17 := by
  refine run.history (C := fun _ => True) (I := fun trace p => trace.length + p.client.left ≤ 17)
    (fun p first => ?_) (fun trace e stepped _ kept => ?_) fun _ _ => trivial
  · obtain ⟨⟨-, -, execute, handler, pending, -⟩, -⟩ := first
    simp [State.left, execute, handler, pending, Execute.left, Handler.left]
  · have less := turn_left e stepped
    rw [List.length_append, List.length_singleton]
    omega

theorem going_complete (message : Message) (made : List Ec) (p : Session) (op : Op) (ec : Ec)
    (more : List UInt8) (shutdown : Bool) (network : List (List UInt8))
    (now : p.client.pending = some op)
    (fed : p.feed (.complete ec more shutdown) = some network) (going : Going message made p) :
    Going message made ⟨p.client.completed op ec more shutdown, network⟩ := by
  simp only [Session.feed, now, Option.ite_none_right_eq_some, Option.some.injEq] at fed
  obtain ⟨⟨rfl, rfl, rfl⟩, rfl⟩ := fed
  obtain ⟨alive, flag, mux, stage⟩ := going
  obtain ⟨rfl, begun, ready⟩ := stage.of_pending now
  have handled := handled_op message op p.client p.network ready
  obtain ⟨same, none_⟩ := completed_same p.client op
    (op.receive p.client.responseBuf p.network).1 (op.receive p.client.responseBuf p.network).2.1 true
  have begun' : State.Begun (p.client.completed op (op.receive p.client.responseBuf p.network).1
      (op.receive p.client.responseBuf p.network).2.1 true) := by
    rwa [State.Begun, same.execute]
  refine ⟨handled.alive.trans alive, same.flag.trans flag, ?_, ?_⟩
  · rwa [same.mux, same.execute]
  · rcases handled.goes with ⟨next, checks, ready'⟩ | ⟨code, finishes, ended⟩
    · exact .checking next begun' checks none_ ready'
    · exact .finishing code begun' finishes none_ ended

theorem going_step (message : Message) (made : List Ec) (e : Turn)
    (stepped : (session chunks).Stepped e) (going : Going message made e.before) :
    Going message (made ++ e.output.call) e.after := by
  obtain ⟨fed, ran⟩ := turn_moves e stepped
  obtain ⟨-, moved⟩ := moves_of_stepped _ ran
  obtain ⟨⟨s, network⟩, action, output, ⟨s', network'⟩⟩ := e
  dsimp only at fed moved going ⊢
  obtain ⟨alive, flag, mux, stage⟩ := going
  cases moved with
  | execute now =>
      cases fed
      -- before the first check there is no operation
      obtain ⟨rfl, idle, none_, ready⟩ := stage.early (by simp [State.Begun, now])
      refine ⟨alive, flag, ?_, .first (Or.inr rfl) idle none_ ready⟩
      exact mux.imp_right fun held => absurd held.2 (by simp [now])
  | checkFirst now free =>
      cases fed
      obtain ⟨rfl, idle, none_, ready⟩ := stage.early (by simp [State.Begun, now])
      rw [State.checkFirst, if_neg (by simpa using flag)]
      exact ⟨alive, flag, Or.inr ⟨rfl, rfl⟩, .pending .resolve (Or.inl rfl) idle rfl ready⟩
  | executeReturns now =>
      cases fed
      refine ⟨alive, flag, Or.inl rfl, ?_⟩
      rw [Answer.call, List.append_nil]
      cases stage with
      | first early _ _ _ => simp [now] at early
      | pending op _ idle some_ ready => exact .pending op (Or.inr rfl) idle some_ ready
      | checking op _ checks none_ ready => exact .checking op (Or.inr rfl) checks none_ ready
      | finishing ec _ finishes none_ ended => exact .finishing ec (Or.inr rfl) finishes none_ ended
      | over_ ec _ idle none_ ended => exact .over_ ec (Or.inr rfl) idle none_ ended
  | complete op ec more shutdown now idle possible =>
      rw [Answer.call, List.append_nil]
      -- an operation completes with the part of the response that the server has sent
      exact going_complete message made ⟨s, network⟩ op ec more shutdown network' now fed
        ⟨alive, flag, mux, stage⟩
  | check op now free =>
      cases fed
      obtain ⟨rfl, begun, ready⟩ := stage.of_checking now
      rw [State.check, if_neg (by simpa using flag)]
      exact ⟨alive, flag, mux, .pending op begun rfl rfl ready⟩
  | callback ec now =>
      cases fed
      obtain ⟨rfl, begun, none_, ended⟩ := stage.of_finishing now
      exact ⟨alive, flag, mux, .over_ ec begun rfl none_ ended⟩
  | callbackFirst now =>
      cases stage with
      | first early _ _ _ => simp [now] at early
      | pending _ begun _ _ _ => simp [State.Begun, now] at begun
      | checking _ begun _ _ _ => simp [State.Begun, now] at begun
      | finishing _ begun _ _ _ => simp [State.Begun, now] at begun
      | over_ _ begun _ _ _ => simp [State.Begun, now] at begun
  | cancel i now => cases fed
  | cancelLocks i now free => cases fed
  | cancelReturns i now => cases fed

theorem called_snoc (trace : List Turn) (e : Turn) :
    called (trace ++ [e]) = called trace ++ e.output.call := by
  simp [called]

theorem going_run (message : Message) (whole : chunks.flatten = message.text) {trace : List Turn}
    {p : Session} (run : (session chunks).Run trace p) : Going message (called trace) p := by
  refine run.history (C := fun _ => True) (I := fun trace p => Going message (called trace) p)
    (fun p first => ?_) (fun trace e stepped _ going => ?_) fun _ _ => trivial
  · obtain ⟨⟨flag, mux, execute, handler, pending, -, alive⟩, empty, fresh, rfl⟩ := first
    exact ⟨alive, flag, Or.inl mux, .first (Or.inl execute) handler pending ⟨empty, whole, fresh⟩⟩
  · rw [called_snoc]
    exact going_step message _ e stepped going

/-! The end of a run. -/

theorem receive_possible (op : Op) (buf : List UInt8) (chunks : List (List UInt8)) :
    Possible op (op.receive buf chunks).1 buf (op.receive buf chunks).2.1 := by
  have upTo (delim : List UInt8)
      (found : (if (readUntil delim none buf chunks).ending = .found then Ec.success else .eof) =
        .success) : delim <:+: buf ++ (readUntil delim none buf chunks).buffer.drop buf.length := by
    rw [received, ← read_until_has]
    by_contra other
    rw [if_neg other] at found
    cases found
  cases op with
  | resolve => rfl
  | connect => rfl
  | write => rfl
  | statusLine => exact upTo crlf
  | headers => exact upTo (crlf ++ crlf)
  | body => trivial

theorem can_step {p : Session} (action : Action) (network : List (List UInt8)) (r : State × Answer)
    (alive : p.client.terminated = false) (fed : p.feed action = some network)
    (ran : act p.client action = some r) : (session chunks).CanStep p := by
  refine ⟨action, (⟨r.1, network⟩, r.2), ?_⟩
  change (p.feed action).bind _ = _
  rw [fed, Option.bind_some, step_alive p.client action alive, ran]
  rfl

theorem stuck_over {message : Message} {made : List Ec} {p : Session} (going : Going message made p)
    (stuck : ¬ (session chunks).CanStep p) : ∃ ec, made = [ec] ∧ Ended message ec p.client := by
  obtain ⟨alive, -, mux, stage⟩ := going
  have free : p.client.cancelMux = none := by
    rcases mux with free | ⟨-, started⟩
    · exact free
    · exact absurd (can_step .executeReturns _ _ alive rfl (if_pos started)) stuck
  -- each stage but the last one enables an action of its own
  cases stage with
  | first now _ _ _ =>
      rcases now with now | now
      · exact absurd (can_step .execute _ _ alive rfl (if_pos now)) stuck
      · exact absurd (can_step .checkFirst _ _ alive rfl (if_pos ⟨now, free⟩)) stuck
  | pending op _ idle now _ =>
      have possible := receive_possible op p.client.responseBuf p.network
      exact absurd (can_step
        (.complete (op.receive p.client.responseBuf p.network).1
          (op.receive p.client.responseBuf p.network).2.1 true)
        (op.receive p.client.responseBuf p.network).2.2
        (p.client.completed op (op.receive p.client.responseBuf p.network).1
          (op.receive p.client.responseBuf p.network).2.1 true, .silent)
        alive (by simp [Session.feed, now]) (by simp [act, now, idle, possible])) stuck
  | checking op _ now _ _ =>
      exact absurd (can_step .check _ (p.client.check op, .silent) alive rfl
        (by simp [act, now, free])) stuck
  | finishing ec _ now _ _ =>
      exact absurd (can_step .callback _ ({ p.client with handler := .idle }, .called ec) alive rfl
        (by simp [act, now])) stuck
  | over_ ec _ _ _ ended => exact ⟨ec, rfl, ended⟩

theorem accepted_iff {message : Message} {trace : List Turn} {p : Session} {ec : Ec}
    (made : called trace = [ec]) (ended : Ended message ec p.client) :
    Accepted message trace p ↔ message.Readable := by
  rcases ended with ⟨readable, rfl, status, table, body⟩ | ⟨unreadable, rfl⟩
  · refine iff_of_true ⟨made, status, fun name value => ?_, body⟩ readable
    rw [table]
    exact enter_distinct message.fields message.distinct _ name value rfl
  · refine iff_of_false (fun accepted => ?_) unreadable
    cases made.symm.trans accepted.called

/-- A request comes to an end with every response, and accepts those that have a header, or else
two ends of lines somewhere behind the status line, one after the other. -/
theorem response_accepted_iff (message : Message) (chunks : List (List UInt8))
    (whole : chunks.flatten = message.text) :
    (∀ trace p, (session chunks).Run trace p → trace.length ≤ 17 ∧ ∃ more last,
      (session chunks).Run (trace ++ more) last ∧ ¬ (session chunks).CanStep last) ∧
    ((∀ trace p, (session chunks).Run trace p → ¬ (session chunks).CanStep p →
      Accepted message trace p) ↔ message.fields ≠ [] ∨ crlf ++ crlf <:+: crlf ++ message.body) := by
  have finishes (trace : List Turn) (p : Session) (run : (session chunks).Run trace p) :
      ∃ more last, (session chunks).Run (trace ++ more) last ∧ ¬ (session chunks).CanStep last :=
    run.finishes (fun p => p.client.left) (fun e stepped => turn_left e stepped)
  have exact_ (trace : List Turn) (p : Session) (run : (session chunks).Run trace p)
      (stuck : ¬ (session chunks).CanStep p) : Accepted message trace p ↔ message.Readable := by
    obtain ⟨ec, made, ended⟩ := stuck_over (going_run message whole run) stuck
    exact accepted_iff made ended
  have short (trace : List Turn) (p : Session) (run : (session chunks).Run trace p) :
      trace.length ≤ 17 := Nat.le_of_add_right_le (short_run run)
  refine ⟨fun trace p run => ⟨short trace p run, finishes trace p run⟩, fun accepts => ?_,
    fun readable trace p run stuck => (exact_ trace p run stuck).mpr readable⟩
  obtain ⟨more, last, run, stuck⟩ := finishes [] ⟨fresh, chunks⟩ (.start ⟨fresh_start, rfl, rfl, rfl⟩)
  exact (exact_ _ last run stuck).mp (accepts _ last run stuck)

/-! A response with a header and one without, each in two chunks. -/

def withFields (fields : List (Field cr colon)) (distinct : (fields.map Field.name).Nodup) :
    Message where
  code := bytes "200"
  reason := bytes "OK"
  fields := fields
  body := bytes "hello"
  three := by decide
  digits := List.all_eq_true.mp (by decide)
  line := by decide
  distinct := distinct

def aField : Field cr colon where
  name := bytes "A"
  value := bytes " b"
  name_line := by decide
  value_line := by decide
  name_ends := by decide

theorem header_accepted : ∃ trace p,
    (session [bytes "HTTP/1.1 200 OK\r", bytes "\nA: b\r\n\r\nhello"]).Run trace p ∧
    Accepted (withFields [aField] (by decide)) trace p := by
  have result := response_accepted_iff (withFields [aField] (by decide))
    [bytes "HTTP/1.1 200 OK\r", bytes "\nA: b\r\n\r\nhello"] (by decide)
  obtain ⟨-, more, last, run, stuck⟩ :=
    result.1 [] ⟨fresh, _⟩ (.start ⟨fresh_start, rfl, rfl, rfl⟩)
  exact ⟨_, last, run, result.2.mpr (Or.inl (by decide)) _ last run stuck⟩

theorem no_header_refused : ¬ ∀ (message : Message) (chunks : List (List UInt8)),
    chunks.flatten = message.text → ∀ trace p, (session chunks).Run trace p →
      ¬ (session chunks).CanStep p → Accepted message trace p := by
  intro claim
  obtain ⟨more, last, run, stuck⟩ := Machine.Run.finishes (fun p : Session => p.client.left)
    (fun e stepped => turn_left e stepped)
    (.start (⟨fresh_start, rfl, rfl, rfl⟩ :
      (session [(withFields [] (by decide)).text]).start ⟨fresh, _⟩))
  have whole : [(withFields [] (by decide)).text].flatten = (withFields [] (by decide)).text :=
    List.append_nil _
  obtain ⟨ec, made, ended⟩ := stuck_over (going_run _ whole run) stuck
  have readable := (accepted_iff made ended).mp (claim _ _ whole _ last run stuck)
  rw [readable_iff] at readable
  exact absurd readable (by decide)

end NetworkProgramming.HttpClient
