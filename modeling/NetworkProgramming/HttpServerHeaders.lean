import NetworkProgramming.HeaderFields
import NetworkProgramming.HttpServer
import NetworkProgramming.ReadUntil

/-!
What the server makes of a request. The loop over the headers goes on to the end of the buffer,
into what has been read behind the empty line; and as in the client, the empty line is not found
where the request line is the only one before it.
-/

namespace NetworkProgramming.HttpServer

open CText TextStream HeaderFields ReadUntil

structure Request where
  resource : List UInt8
  fields : List (Field cr colon)
  some_ : resource ≠ []
  solid : ∀ b ∈ resource, isspace b = false

namespace Request

def line (request : Request) : List UInt8 :=
  bytes "GET" ++ space :: request.resource ++ space :: bytes "HTTP/1.1"

def head (request : Request) : List UInt8 := fieldText lf request.fields ++ crlf

def text (request : Request) (further : List UInt8) : List UInt8 :=
  request.line ++ crlf ++ (request.head ++ further)

def table (request : Request) : Headers := enter (fun _ => none) request.fields

theorem line_free (request : Request) : cr ∉ request.line := by
  simp only [line, List.mem_append, List.mem_cons, not_or]
  refine ⟨⟨by decide, by decide, fun member => ?_⟩, by decide, by decide⟩
  exact absurd (request.solid cr member) (by decide)

end Request

/-! The reads of a Service on a connection that carries some chunks and then ends. -/

/-- asio::error::eof is 2. -/
def ecOf : Ending → Ec
  | .found => .success
  | .full => .notFound
  | .ended => .other 2

def readLine (chunks : List (List UInt8)) : Result UInt8 := readUntil crlf (some maxRequest) [] chunks

def readHead (request : List UInt8) (chunks : List (List UInt8)) : Result UInt8 :=
  readUntil (crlf ++ crlf) (some maxRequest) request chunks

def serve (files : List UInt8 → File) (shutdown : Bool) (chunks : List (List UInt8)) : Outcome :=
  let read := readLine chunks
  match Service.new.handle .requestLine (ecOf read.ending) read.buffer shutdown files with
  | .waits s .headers =>
      let read := readHead s.request read.rest
      s.handle .headers (ecOf read.ending) (read.buffer.drop s.request.length) shutdown files
  | outcome => outcome

/-- What has been read behind the empty line by the time that it is found. -/
def lookahead (request : Request) (chunks : List (List UInt8)) : List UInt8 :=
  let behind := (readLine chunks).buffer.drop (request.line ++ crlf).length
  (readHead behind (readLine chunks).rest).buffer.drop request.head.length

def File.status : File → Nat
  | .missing => 404
  | .closed => 500
  | .opened _ | .oversized => 200

def Answers (request : Request) (files : List UInt8 → File) (s : Service) : Prop :=
  s.responseStatusCode = (files (bytes "." ++ request.resource)).status ∧
    s.requestHeaders = request.table

def Answered (request : Request) (files : List UInt8 → File) (outcome : Outcome) : Prop :=
  ∃ s, outcome = .waits s .response ∧ Answers request files s

/-! The parsers. -/

theorem parse_request_line (request : Request) (s : Service) (shutdown : Bool) :
    s.parseRequestLine request.line shutdown =
      .waits { s with requestedResource := request.resource } .headers := by
  have method := word_found isspace [] (bytes "GET")
    (request.resource ++ space :: bytes "HTTP/1.1") [] space (by simp)
    (solid_word _ _ (by decide)) (by decide) (by decide)
  have resource := word_found isspace [space] request.resource (bytes "HTTP/1.1")
    s.requestedResource space (List.all_eq_true.mp (by decide)) request.solid request.some_
    (by decide)
  have start : request.line =
      [] ++ bytes "GET" ++ space :: (request.resource ++ space :: bytes "HTTP/1.1") := by
    simp [Request.line]
  have middle : space :: (request.resource ++ space :: bytes "HTTP/1.1") =
      [space] ++ request.resource ++ space :: bytes "HTTP/1.1" := by simp
  rw [Service.parseRequestLine, start, method]
  dsimp only
  rw [if_neg (by simp), middle, resource]
  dsimp only
  rw [if_neg (by decide)]

theorem header_loop_fields (fields : List (Field cr colon)) (turns : Nat) (rest : List UInt8)
    (headers : Headers) :
    headerLoop (fields.length + turns) ⟨fieldText lf fields ++ rest, true⟩ headers =
      headerLoop turns ⟨rest, true⟩ (enter headers fields) := by
  induction fields generalizing headers with
  | nil => rw [List.length_nil, Nat.zero_add]; rfl
  | cons field fields ih =>
      have cut : fieldText lf (field :: fields) ++ rest =
          field.name ++ colon :: (field.value ++ cr :: lf :: (fieldText lf fields ++ rest)) := by
        simp [fieldText, text_cons, Field.line]
      rw [List.length_cons, Nat.add_right_comm, cut,
        header_loop_name _ field.name _ headers field.name_ends,
        getline_line cr field.value _ [] field.value_line, enter_cons]
      exact ih _

/-- Behind the empty line the loop finds nothing if and only if there is no colon. -/
theorem header_loop_head (request : Request) (look : List UInt8) :
    ∃ left headers, headerLoop ((request.head ++ look).length + 2) ⟨request.head ++ look, true⟩
        (fun _ => none) = some (left, headers) ∧ (headers = request.table ↔ colon ∉ look) := by
  have short : (request.fields.map Field.line).length ≤ (fieldText lf request.fields).length :=
    text_length _
  rw [List.length_map] at short
  obtain ⟨turns, enough⟩ : ∃ turns, (request.head ++ look).length + 2 = request.fields.length + turns ∧
      (crlf ++ look).length + 2 ≤ turns := by
    refine ⟨(request.head ++ look).length + 2 - request.fields.length, ?_, ?_⟩
    · rw [Request.head, List.length_append, List.length_append]
      omega
    · rw [Request.head, List.length_append, List.length_append, List.length_append]
      omega
  rw [enough.1, show request.head ++ look = fieldText lf request.fields ++ (crlf ++ look) from
    List.append_assoc _ _ _, header_loop_fields]
  by_cases member : colon ∈ look
  · obtain ⟨name, rest, rfl, absent⟩ := List.eq_append_cons_of_mem member
    have plain : colon ∉ crlf ++ name := by
      rw [List.mem_append, not_or]
      exact ⟨by decide, absent⟩
    have long := enough.2
    rw [← List.append_assoc] at long ⊢
    obtain ⟨left, headers, ended, entered⟩ :=
      header_loop_enters turns (crlf ++ name) rest (enter (fun _ => none) request.fields) plain long
    refine ⟨left, headers, ended, iff_of_false (fun same => entered ?_) fun none_ => none_ member⟩
    -- no name of a header begins with the end of a line
    rw [same]
    refine enter_other _ request.fields _ fun field _ here => field.name_line ?_
    rw [here]
    exact List.mem_cons_self
  · have plain : colon ∉ crlf ++ look := by
      rw [List.mem_append, not_or]
      exact ⟨by decide, member⟩
    obtain ⟨turns, rfl⟩ : ∃ n, turns = n + 2 := ⟨turns - 2, by have := enough.2; omega⟩
    exact ⟨[], _, header_loop_end turns _ _ plain, iff_of_true rfl member⟩

/-! The handlers. -/

theorem send_response_answered (request : Request) (files : List UInt8 → File) (s : Service)
    (shutdown : Bool) (known : (httpStatusTable s.responseStatusCode).isSome = true) :
    Answered request files (s.sendResponse shutdown) ↔ shutdown = true ∧
      s.responseStatusCode = (files (bytes "." ++ request.resource)).status ∧
      s.requestHeaders = request.table := by
  obtain ⟨statusLine, found⟩ := Option.isSome_iff_exists.mp known
  cases shutdown with
  | false => simp [Answered, Service.sendResponse]
  | true =>
      rw [Answered, Service.sendResponse, if_pos rfl, found]
      constructor
      · rintro ⟨s', same, status, headers⟩
        cases same
        exact ⟨rfl, status, headers⟩
      · rintro ⟨-, status, headers⟩
        exact ⟨_, rfl, status, headers⟩

theorem unfound_refused (request : Request) (files : List UInt8 → File) (s : Service) (op : Op)
    (ending : Ending) (more : List UInt8) (shutdown : Bool) (reads : op ≠ .response)
    (unfound : ending ≠ .found) :
    (∀ s' op', s.handle op (ecOf ending) more shutdown files = .waits s' op' → op' = .response) ∧
      ¬ Answered request files (s.handle op (ecOf ending) more shutdown files) := by
  have refused (s : Service) : (∀ s' op', { s with responseStatusCode := 413 }.sendResponse shutdown =
        .waits s' op' → op' = .response) ∧
      ¬ Answered request files ({ s with responseStatusCode := 413 }.sendResponse shutdown) := by
    constructor
    · intro s' op' same
      cases shutdown <;> cases same
      rfl
    · rw [send_response_answered request files _ shutdown rfl]
      rintro ⟨-, status, -⟩
      dsimp only at status
      cases found : files (bytes "." ++ request.resource) <;> rw [found] at status <;> cases status
  have deleted : (∀ s' op', Outcome.deleted = .waits s' op' → op' = .response) ∧
      ¬ Answered request files .deleted := ⟨nofun, fun ⟨_, same, _⟩ => nomatch same⟩
  cases op with
  | response => exact absurd rfl reads
  | requestLine =>
      cases ending with
      | found => exact absurd rfl unfound
      | full => exact refused _
      | ended => exact deleted
  | headers =>
      cases ending with
      | found => exact absurd rfl unfound
      | full => exact refused _
      | ended => exact deleted

theorem headers_answered (request : Request) (files : List UInt8 → File) (s : Service)
    (more look : List UInt8) (shutdown : Bool) (buffer : s.request ++ more = request.head ++ look)
    (resource : s.requestedResource = request.resource) (fresh : s.requestHeaders = fun _ => none)
    (code : s.responseStatusCode = 200) :
    Answered request files (s.handle .headers .success more shutdown files) ↔
      colon ∉ look ∧ files (bytes "." ++ request.resource) ≠ .oversized ∧ shutdown = true := by
  obtain ⟨left, headers, ended, exact_⟩ := header_loop_head request look
  simp only [Service.handle, Service.onHeadersReceived, buffer, fresh, ended]
  rw [Service.processRequest, resource]
  cases found : files (bytes "." ++ request.resource) with
  | missing =>
      dsimp only
      rw [send_response_answered request files _ shutdown rfl, found]
      simp [File.status, exact_, and_comm]
  | closed =>
      dsimp only
      rw [send_response_answered request files _ shutdown rfl, found]
      simp [File.status, exact_, and_comm]
  | opened content =>
      dsimp only
      rw [send_response_answered request files _ shutdown (by rw [code]; rfl), found]
      simp [File.status, exact_, code, and_comm]
  | oversized =>
      simp [Answered]

theorem line_found (request : Request) (further : List UInt8) (chunks : List (List UInt8))
    (whole : chunks.flatten = request.text further) :
    (readLine chunks).ending = .found ↔ request.line.length + 2 ≤ maxRequest := by
  have size : (request.line ++ crlf).length = request.line.length + 2 := by
    simp [crlf]
  rw [readLine, read_until_found crlf (some maxRequest) [] chunks rfl, List.nil_append, whole,
    ← size, ← visible_some]
  constructor
  · intro here
    have first : request.line ++ crlf <+: visible (some maxRequest) (request.text further) :=
      line_first request.line _ (request.head ++ further) request.line_free here
        (visible_start _ _)
    have short := first.length_le.trans (List.length_take_le maxRequest _)
    exact (visible_some maxRequest _).mpr short
  · intro fits
    have shown := visible_append (some maxRequest) _ (request.head ++ further) fits
    rw [Request.text]
    exact (List.suffix_append request.line crlf).isInfix.trans shown.isInfix

theorem line_handled (request : Request) (look : List UInt8) (shutdown : Bool)
    (files : List UInt8 → File) :
    Service.new.handle .requestLine .success (request.line ++ crlf ++ look) shutdown files =
      .waits { Service.new with request := look, requestedResource := request.resource }
        .headers := by
  have cut : Service.new.request ++ (request.line ++ crlf ++ look) =
      request.line ++ cr :: (lf :: look) := by simp [Service.new, crlf]
  rw [Service.handle]
  dsimp only
  rw [Service.onRequestLineReceived, cut]
  dsimp only
  rw [getline_line cr request.line _ [] request.line_free]
  exact parse_request_line request { Service.new with request := look } shutdown

/-- Exactly when a request is answered with all of its headers and no others: its line and its
headers fit into the buffer, an empty line is found at all, nothing that has been read behind it
has a colon in it, and nothing throws. -/
theorem request_answered_iff (request : Request) (further : List UInt8) (files : List UInt8 → File)
    (shutdown : Bool) (chunks : List (List UInt8)) (whole : chunks.flatten = request.text further) :
    Answered request files (serve files shutdown chunks) ↔
      request.line.length + 2 ≤ maxRequest ∧
      crlf ++ crlf <:+: (request.head ++ further).take maxRequest ∧
      colon ∉ lookahead request chunks ∧
      files (bytes "." ++ request.resource) ≠ .oversized ∧ shutdown = true := by
  rw [← line_found request further chunks whole]
  by_cases found : (readLine chunks).ending = .found
  · have all := read_until_whole crlf (some maxRequest) [] chunks
    have fits := read_until_fits crlf (some maxRequest) [] chunks rfl
    rw [List.nil_append, whole] at all
    -- `look` is what has come along behind the request line
    obtain ⟨look, seen⟩ : request.line ++ crlf <+: (readLine chunks).buffer :=
      line_first request.line _ (request.head ++ further) request.line_free
        ((read_until_has crlf (some maxRequest) [] chunks).mp found) ⟨_, all⟩
    change (readLine chunks).buffer ++ (readLine chunks).rest.flatten = _ at all
    change visible _ (readLine chunks).buffer = (readLine chunks).buffer at fits
    rw [← seen, Request.text, List.append_assoc, List.append_right_inj] at all
    rw [← seen, visible_some, List.length_append] at fits
    have room : visible (some maxRequest) look = look :=
      (visible_some maxRequest look).mpr (Nat.le_of_add_left_le fits)
    have behind : (readLine chunks).buffer.drop (request.line ++ crlf).length = look := by
      rw [← seen, List.drop_left]
    have served : serve files shutdown chunks =
        { Service.new with request := look, requestedResource := request.resource }.handle .headers
          (ecOf (readHead look (readLine chunks).rest).ending)
          ((readHead look (readLine chunks).rest).buffer.drop look.length) shutdown files := by
      rw [serve, found, ← seen]
      dsimp only
      rw [ecOf, line_handled]
    have empty : (readHead look (readLine chunks).rest).ending = .found ↔
        crlf ++ crlf <:+: (request.head ++ further).take maxRequest := by
      rw [readHead, read_until_found _ _ look _ room, all, visible]
    rw [served, lookahead, behind, ← empty]
    generalize read : readHead look (readLine chunks).rest = result
    obtain ⟨more, extended⟩ : look <+: result.buffer := by
      rw [← read]
      exact read_until_extends _ _ look _ room
    -- whether an empty line is found at all decides between the headers and a refusal
    by_cases headers : result.ending = .found
    · have within : result.buffer <+: request.head ++ further := by
        rw [← all, ← read_until_whole (crlf ++ crlf) (some maxRequest) look]
        exact ⟨_, by rw [← read]; rfl⟩
      obtain ⟨look', ended⟩ : request.head <+: result.buffer := by
        refine blank_first _ _ further (by decide) (fields_plain request.fields (by decide)) ?_ within
        rw [← read] at headers ⊢
        exact (read_until_has _ _ _ _).mp headers
      have more_ : result.buffer.drop look.length = more := by rw [← extended, List.drop_left]
      have look_ : result.buffer.drop request.head.length = look' := by rw [← ended, List.drop_left]
      rw [more_, look_, headers, ecOf,
        headers_answered request files _ more look' shutdown (extended.trans ended.symm) rfl rfl rfl]
      simp [found]
    · have reads : Op.headers ≠ .response := Op.noConfusion
      refine iff_of_false (unfound_refused request files _ .headers _ _ shutdown reads headers).2 ?_
      rintro ⟨-, there, -⟩
      exact headers there
  · refine iff_of_false ?_ fun both => found both.1
    have reads : Op.requestLine ≠ .response := Op.noConfusion
    obtain ⟨ends, refused⟩ := unfound_refused request files .new .requestLine
      (readLine chunks).ending (readLine chunks).buffer shutdown reads found
    rw [serve]
    dsimp only
    split
    · rename_i s same
      cases ends s .headers same
    · exact refused

/-! A connection among others. -/

/-- A step runs a handler of the Service with what the reads find in its chunks. -/
def Fed (i : Nat) (chunks : List (List UInt8)) (shutdown : Bool) (files : List UInt8 → File)
    (e : Step) : Prop :=
  ∀ op ec more down found, e.action = .complete i op ec more down found →
    match op with
    | .requestLine =>
        ec = ecOf (readLine chunks).ending ∧ more = (readLine chunks).buffer ∧
          shutdown = down ∧ files = found
    | .headers =>
        ∀ service, e.before.object i = some service →
          let read := readHead service.request (readLine chunks).rest
          ec = ecOf read.ending ∧ more = read.buffer.drop service.request.length ∧
            shutdown = down ∧ files = found
    | .response => True

def AnsweredIn (request : Request) (files : List UInt8 → File) (i : Nat) (trace : List Step) :
    Prop :=
  ∃ e ∈ trace, ∃ s, e.output = .started i .response ∧ e.after.object i = some s ∧
    Answers request files s

def Unanswered (i : Nat) (trace : List Step) : Prop :=
  ∀ e ∈ trace, e.output ≠ .started i .response

def ReadOver (i : Nat) (s : State) : Prop := i < s.created ∧ ∀ op ∈ s.pending i, op = .response

inductive Stage (i : Nat) (chunks : List (List UInt8)) (shutdown : Bool)
    (files : List UInt8 → File) (request : Request) (trace : List Step) (s : State) : Prop where
  | before : s.created ≤ i → s.pending i = [] → Unanswered i trace →
      Stage i chunks shutdown files request trace s
  | line : i < s.created → s.object i = some .new → s.pending i = [.requestLine] →
      Unanswered i trace → Stage i chunks shutdown files request trace s
  | headers (service : Service) : i < s.created →
      Service.new.handle .requestLine (ecOf (readLine chunks).ending) (readLine chunks).buffer
        shutdown files = .waits service .headers →
      s.object i = some service → s.pending i = [.headers] → Unanswered i trace →
      Stage i chunks shutdown files request trace s
  | finished : i < s.created → (∀ op ∈ s.pending i, op = .response) →
      (AnsweredIn request files i trace ↔ Answered request files (serve files shutdown chunks)) →
      Stage i chunks shutdown files request trace s

theorem answered_last (request : Request) (files : List UInt8 → File) (i : Nat)
    (trace : List Step) (e : Step) :
    AnsweredIn request files i (trace ++ [e]) ↔ AnsweredIn request files i trace ∨
      ∃ s, e.output = .started i .response ∧ e.after.object i = some s ∧
        Answers request files s := by
  simp only [AnsweredIn, List.mem_append, List.mem_singleton, or_and_right, exists_or,
    exists_eq_left]

theorem answered_snoc (request : Request) (files : List UInt8 → File) (i : Nat)
    (trace : List Step) (e : Step) (silent : e.output ≠ .started i .response) :
    AnsweredIn request files i (trace ++ [e]) ↔ AnsweredIn request files i trace := by
  rw [answered_last]
  exact or_iff_left fun ⟨_, started, _⟩ => silent started

theorem unanswered_snoc (i : Nat) (trace : List Step) (e : Step)
    (silent : e.output ≠ .started i .response) (none_ : Unanswered i trace) :
    Unanswered i (trace ++ [e]) := by
  intro d member
  rcases List.mem_append.mp member with old | new
  · exact none_ d old
  · exact List.mem_singleton.mp new ▸ silent

section

variable {i : Nat} {chunks : List (List UInt8)} {shutdown : Bool} {files : List UInt8 → File}
variable {request : Request} {trace : List Step} {e : Step}

theorem Stage.idle (stage : Stage i chunks shutdown files request trace e.before)
    (object : e.after.object i = e.before.object i)
    (pending : e.after.pending i = e.before.pending i)
    (created : i < e.after.created ↔ i < e.before.created)
    (silent : e.output ≠ .started i .response) :
    Stage i chunks shutdown files request (trace ++ [e]) e.after := by
  cases stage with
  | before later none_ quiet =>
      exact .before (Nat.not_lt.mp fun here => absurd (created.mp here) (Nat.not_lt.mpr later))
        (pending.trans none_) (unanswered_snoc i trace e silent quiet)
  | line there new waits quiet =>
      exact .line (created.mpr there) (object.trans new) (pending.trans waits)
        (unanswered_snoc i trace e silent quiet)
  | headers service there first alive waits quiet =>
      exact .headers service (created.mpr there) first (object.trans alive) (pending.trans waits)
        (unanswered_snoc i trace e silent quiet)
  | finished there last same =>
      refine .finished (created.mpr there) ?_ ((answered_snoc request files i trace e silent).trans same)
      rw [pending]
      exact last

theorem Stage.ends {op : Op} (there : i < e.before.created) (waits : e.before.pending i = [op])
    (quiet : Unanswered i trace)
    (result : (e.after, e.output) =
      (e.before.take i op).finish i (serve files shutdown chunks))
    (last : ∀ s op', serve files shutdown chunks = .waits s op' → op' = .response) :
    Stage i chunks shutdown files request (trace ++ [e]) e.after := by
  have after : e.after = ((e.before.take i op).finish i (serve files shutdown chunks)).1 :=
    congrArg Prod.fst result
  have output : e.output = ((e.before.take i op).finish i (serve files shutdown chunks)).2 :=
    congrArg Prod.snd result
  have still : i < e.after.created := by
    rw [after, finish_created]
    exact there
  have pending := finish_pending e.before i op (serve files shutdown chunks) waits
  rw [← after] at pending
  have before : ¬ AnsweredIn request files i trace := by
    rintro ⟨d, member, _, started, _⟩
    exact quiet d member started
  -- the response is started by this handler or not at all: there was none before it
  cases found : serve files shutdown chunks with
  | waits s op' =>
      obtain rfl := last s op' found
      rw [found] at after output pending
      refine .finished still ?_ ?_
      · rw [pending]
        exact fun op' member => List.mem_singleton.mp member
      · have here : e.after.object i = some s := by
          rw [after]
          simp [State.finish, State.start]
        have started : e.output = .started i .response := output
        rw [found]
        rw [answered_last]
        constructor
        · rintro (old | ⟨s', -, same, answers⟩)
          · exact absurd old before
          · obtain rfl := Option.some.inj (here.symm.trans same)
            exact ⟨s, rfl, answers⟩
        · rintro ⟨s', same, answers⟩
          cases same
          exact Or.inr ⟨s, started, here, answers⟩
  | deleted =>
      rw [found] at output pending
      have silent : e.output ≠ .started i .response := by
        rw [output]
        exact Answer.noConfusion
      refine .finished still ?_ ?_
      · simp [pending]
      · rw [answered_snoc request files i trace e silent, found]
        refine iff_of_false before ?_
        rintro ⟨_, same, _⟩
        cases same
  | thrown =>
      rw [found] at output pending
      have silent : e.output ≠ .started i .response := by
        rw [output]
        exact Answer.noConfusion
      refine .finished still ?_ ?_
      · simp [pending]
      · rw [answered_snoc request files i trace e silent, found]
        refine iff_of_false before ?_
        rintro ⟨_, same, _⟩
        cases same

end

theorem serve_line (files : List UInt8 → File) (shutdown : Bool) (chunks : List (List UInt8))
    (other : ∀ s, Service.new.handle .requestLine (ecOf (readLine chunks).ending)
      (readLine chunks).buffer shutdown files ≠ .waits s .headers) :
    serve files shutdown chunks = Service.new.handle .requestLine (ecOf (readLine chunks).ending)
      (readLine chunks).buffer shutdown files := by
  rw [serve]
  dsimp only
  split
  · rename_i s same
    exact absurd same (other s)
  · rfl

theorem serve_headers (files : List UInt8 → File) (shutdown : Bool) (chunks : List (List UInt8))
    (s : Service) (first : Service.new.handle .requestLine (ecOf (readLine chunks).ending)
      (readLine chunks).buffer shutdown files = .waits s .headers) :
    serve files shutdown chunks = s.handle .headers
      (ecOf (readHead s.request (readLine chunks).rest).ending)
      ((readHead s.request (readLine chunks).rest).buffer.drop s.request.length) shutdown files := by
  rw [serve]
  dsimp only
  rw [first]

theorem response_ends (i : Nat) (e : Step) (ec : Ec) (more : List UInt8) (down : Bool)
    (found : List UInt8 → File)
    (run : (e.before.object i = none ∧
        e.after = { e.before.take i .response with misused := true } ∧ e.output = .silent) ∨
      ∃ service, e.before.object i = some service ∧ (e.after, e.output) =
        (e.before.take i .response).finish i (service.handle .response ec more down found)) :
    e.after.created = e.before.created ∧
      e.after.pending i = (e.before.pending i).erase .response ∧
      e.output ≠ .started i .response := by
  rcases run with ⟨-, after, output⟩ | ⟨service, -, result⟩
  · rw [after, output]
    exact ⟨rfl, Function.update_self _ _ _, Answer.noConfusion⟩
  · cases down with
    | true =>
        have after : e.after = ((e.before.take i .response).finish i .deleted).1 :=
          congrArg Prod.fst result
        have output : e.output = .deleted i := congrArg Prod.snd result
        rw [after, output]
        exact ⟨rfl, Function.update_self _ _ _, Answer.noConfusion⟩
    | false =>
        have after : e.after = ((e.before.take i .response).finish i .thrown).1 :=
          congrArg Prod.fst result
        have output : e.output = .silent := congrArg Prod.snd result
        rw [after, output]
        exact ⟨rfl, Function.update_self _ _ _, Answer.noConfusion⟩

section

variable {i : Nat} {chunks : List (List UInt8)} {shutdown : Bool} {files : List UInt8 → File}
variable {request : Request} {trace : List Step} {e : Step}

theorem Stage.accepted (stage : Stage i chunks shutdown files request trace e.before)
    (after : e.after = e.before.accept) (output : e.output = .created e.before.created) :
    Stage i chunks shutdown files request (trace ++ [e]) e.after := by
  have silent : e.output ≠ .started i .response := by
    rw [output]
    exact Answer.noConfusion
  by_cases here : i = e.before.created
  · cases stage with
    | before _ _ quiet =>
        refine .line ?_ ?_ ?_ (unanswered_snoc i trace e silent quiet) <;>
          simp [after, State.accept, here]
    | line there => exact absurd there (by omega)
    | headers _ there => exact absurd there (by omega)
    | finished there => exact absurd there (by omega)
  · refine stage.idle ?_ ?_ ?_ silent
    · simp [after, State.accept, here]
    · simp [after, State.accept, here]
    · have more : e.after.created = e.before.created + 1 := by rw [after, State.accept]
      rw [more]
      exact ⟨fun there => by omega, fun there => by omega⟩

/-- The request line leads to the headers, or to a response at once. -/
theorem Stage.line_done (there : i < e.before.created) (waits : e.before.pending i = [.requestLine])
    (quiet : Unanswered i trace)
    (result : (e.after, e.output) = (e.before.take i .requestLine).finish i
      (Service.new.handle .requestLine (ecOf (readLine chunks).ending) (readLine chunks).buffer
        shutdown files)) :
    Stage i chunks shutdown files request (trace ++ [e]) e.after := by
  by_cases more : ∃ s, Service.new.handle .requestLine (ecOf (readLine chunks).ending)
      (readLine chunks).buffer shutdown files = .waits s .headers
  · obtain ⟨s, first⟩ := more
    rw [first] at result
    have after : e.after = ((e.before.take i .requestLine).finish i (.waits s .headers)).1 :=
      congrArg Prod.fst result
    have output : e.output = .started i .headers := congrArg Prod.snd result
    refine .headers s ?_ first ?_ ?_ (unanswered_snoc i trace e ?_ quiet)
    · rw [after, finish_created]
      exact there
    · simp [after, State.finish, State.start]
    · simp [after, State.finish, State.start, State.take, waits]
    · rw [output]
      simp
  · rw [not_exists] at more
    rw [← serve_line files shutdown chunks more] at result
    refine .ends there waits quiet result fun s op' same => ?_
    rw [serve_line files shutdown chunks more] at same
    have less := (handle_waits _ _ _ _ _ _ _ _ same).1
    cases op' with
    | requestLine => exact absurd less (Nat.lt_irrefl 2)
    | headers => exact absurd same (more s)
    | response => rfl

theorem Stage.headers_done {service : Service} (there : i < e.before.created)
    (first : Service.new.handle .requestLine (ecOf (readLine chunks).ending)
      (readLine chunks).buffer shutdown files = .waits service .headers)
    (waits : e.before.pending i = [.headers]) (quiet : Unanswered i trace)
    (result : (e.after, e.output) = (e.before.take i .headers).finish i
      (service.handle .headers (ecOf (readHead service.request (readLine chunks).rest).ending)
        ((readHead service.request (readLine chunks).rest).buffer.drop service.request.length)
        shutdown files)) :
    Stage i chunks shutdown files request (trace ++ [e]) e.after := by
  rw [← serve_headers files shutdown chunks service first] at result
  refine .ends there waits quiet result fun s op' same => ?_
  rw [serve_headers files shutdown chunks service first] at same
  have less := (handle_waits _ _ _ _ _ _ _ _ same).1
  cases op' with
  | requestLine => exact absurd less (by decide)
  | headers => exact absurd less (Nat.lt_irrefl 1)
  | response => rfl

theorem Stage.other {j : Nat} {op : Op} {ec : Ec} {more : List UInt8} {down : Bool}
    {found : List UInt8 → File} (stage : Stage i chunks shutdown files request trace e.before)
    (here : i ≠ j)
    (run : (e.before.object j = none ∧
        e.after = { e.before.take j op with misused := true } ∧ e.output = .silent) ∨
      ∃ service, e.before.object j = some service ∧ (e.after, e.output) =
        (e.before.take j op).finish j (service.handle op ec more down found)) :
    Stage i chunks shutdown files request (trace ++ [e]) e.after := by
  rcases run with ⟨-, after, output⟩ | ⟨service, -, result⟩
  · refine stage.idle ?_ ?_ ?_ ?_
    · rw [after, State.take]
    · simp [after, State.take, here]
    · rw [after, State.take]
    · rw [output]
      exact Answer.noConfusion
  · have after : e.after = ((e.before.take j op).finish j
        (service.handle op ec more down found)).1 := congrArg Prod.fst result
    have output : e.output = ((e.before.take j op).finish j
        (service.handle op ec more down found)).2 := congrArg Prod.snd result
    have others := finish_other e.before j i op (service.handle op ec more down found) here
    refine stage.idle ?_ ?_ ?_ fun started => ?_
    · rw [after, others.1]
    · rw [after, others.2]
    · rw [after, finish_created]
    · rw [output] at started
      exact here (finish_started _ _ _ _ _ started)

end

theorem stage_step (i : Nat) (chunks : List (List UInt8)) (shutdown : Bool)
    (files : List UInt8 → File) (request : Request) (trace : List Step) (e : Step)
    (stepped : machine.Stepped e) (fed : Fed i chunks shutdown files e)
    (stage : Stage i chunks shutdown files request trace e.before) :
    Stage i chunks shutdown files request (trace ++ [e]) e.after := by
  rcases step_cases e stepped with ⟨-, after, output⟩ |
    ⟨j, op, ec, more, down, found, action, member, run⟩
  · exact stage.accepted after output
  by_cases here : i = j
  · subst here
    cases stage with
    | before _ none_ => simp [none_] at member
    | line there new waits quiet =>
        rw [waits, List.mem_singleton] at member
        subst member
        rcases run with ⟨gone, -⟩ | ⟨service, alive, result⟩
        · simp [new] at gone
        · obtain rfl := Option.some.inj (new.symm.trans alive)
          obtain ⟨rfl, rfl, rfl, rfl⟩ := fed _ _ _ _ _ action
          exact .line_done there waits quiet result
    | headers service there first alive waits quiet =>
        rw [waits, List.mem_singleton] at member
        subst member
        rcases run with ⟨gone, -⟩ | ⟨service', alive', result⟩
        · simp [alive] at gone
        · obtain rfl := Option.some.inj (alive.symm.trans alive')
          obtain ⟨rfl, rfl, rfl, rfl⟩ := fed _ _ _ _ _ action service alive
          exact .headers_done there first waits quiet result
    | finished there last same =>
        obtain rfl := last op member
        obtain ⟨created, pending, silent⟩ := response_ends i e ec more down found run
        refine .finished (created ▸ there) (fun op' left => last op' ?_)
          ((answered_snoc request files i trace e silent).trans same)
        rw [pending] at left
        exact List.mem_of_mem_erase left
  · exact stage.other here run

theorem stage_run (i : Nat) (chunks : List (List UInt8)) (shutdown : Bool)
    (files : List UInt8 → File) (request : Request) (trace : List Step) (s : State)
    (run : machine.Run trace s) (fed : ∀ e ∈ trace, Fed i chunks shutdown files e) :
    Stage i chunks shutdown files request trace s := by
  refine run.history (C := Fed i chunks shutdown files) ?_ ?_ fed
  · intro s first
    exact .before (first.1 ▸ Nat.zero_le i) (first.2.1 i).2 fun e member => by cases member
  · intro trace e stepped met stage
    exact stage_step i chunks shutdown files request trace e stepped met stage

def left (i : Nat) (s : State) : Nat := ((s.pending i).map Op.rank).sum

theorem read_steps (i : Nat) (chunks : List (List UInt8)) (shutdown : Bool)
    (files : List UInt8 → File) (service : Service) (op : Op) (s : State)
    (runs : s.terminated = false) (waits : s.pending i = [op]) (alive : s.object i = some service)
    (reads : left i s ≠ 0) :
    ∃ e : Step, e.before = s ∧ machine.Stepped e ∧ Fed i chunks shutdown files e ∧
      e.after.created = s.created ∧ (left i e.after ≠ 0 → e.after.terminated = false) ∧
      left i e.after < left i s := by
  have now : left i s = op.rank := by simp [left, waits]
  -- whatever the handler is given, it leaves less to read
  have less (ec : Ec) (more : List UInt8) :
      let e := completed s i service op ec more shutdown files
      e.after.created = s.created ∧ (left i e.after ≠ 0 → e.after.terminated = false) ∧
        left i e.after < left i s := by
    have pending := finish_pending s i op (service.handle op ec more shutdown files) waits
    dsimp only [completed]
    rw [finish_created, left, pending, now]
    rw [now] at reads
    cases found : service.handle op ec more shutdown files with
    | waits s' op' =>
        have lower := (handle_waits service op ec more shutdown files s' op' found).1
        exact ⟨rfl, fun _ => runs, by simpa using lower⟩
    | deleted => exact ⟨rfl, fun some_ => absurd rfl some_, Nat.pos_of_ne_zero reads⟩
    | thrown => exact ⟨rfl, fun some_ => absurd rfl some_, Nat.pos_of_ne_zero reads⟩
  have stepped (ec : Ec) (more : List UInt8) :=
    completed_stepped s i service op ec more shutdown files runs
      (waits ▸ List.mem_singleton_self op) alive
  cases op with
  | requestLine =>
      refine ⟨_, rfl, stepped (ecOf (readLine chunks).ending) (readLine chunks).buffer, ?_, less _ _⟩
      intro op ec more down found same
      cases same
      exact ⟨rfl, rfl, rfl, rfl⟩
  | headers =>
      refine ⟨_, rfl, stepped (ecOf (readHead service.request (readLine chunks).rest).ending)
        ((readHead service.request (readLine chunks).rest).buffer.drop service.request.length), ?_,
        less _ _⟩
      intro op ec more down found same
      cases same
      intro service' alive'
      obtain rfl := Option.some.inj (alive.symm.trans alive')
      exact ⟨rfl, rfl, rfl, rfl⟩
  | response => exact absurd now reads

def Reading (i : Nat) (chunks : List (List UInt8)) (shutdown : Bool) (files : List UInt8 → File)
    (request : Request) (s : State) : Prop :=
  i < s.created ∧ (left i s ≠ 0 → s.terminated = false) ∧
    ∃ trace, Stage i chunks shutdown files request trace s

theorem reading_step (i : Nat) (chunks : List (List UInt8)) (shutdown : Bool)
    (files : List UInt8 → File) (request : Request) (s : State)
    (reading : Reading i chunks shutdown files request s) (some_ : left i s ≠ 0) :
    ∃ e : Step, e.before = s ∧ machine.Stepped e ∧ Fed i chunks shutdown files e ∧
      Reading i chunks shutdown files request e.after ∧ left i e.after < left i s := by
  obtain ⟨there, runs, trace, stage⟩ := reading
  have goes (service : Service) (op : Op) (waits : s.pending i = [op])
      (alive : s.object i = some service) :
      ∃ e : Step, e.before = s ∧ machine.Stepped e ∧ Fed i chunks shutdown files e ∧
        Reading i chunks shutdown files request e.after ∧ left i e.after < left i s := by
    obtain ⟨e, rfl, stepped, fed, created, still, less⟩ :=
      read_steps i chunks shutdown files service op s (runs some_) waits alive some_
    have next := stage_step i chunks shutdown files request trace e stepped fed stage
    exact ⟨e, rfl, stepped, fed, ⟨created ▸ there, still, _, next⟩, less⟩
  cases stage with
  | before later => exact absurd there (Nat.not_lt.mpr later)
  | line _ new waits => exact goes .new .requestLine waits new
  | headers service _ _ alive waits => exact goes service .headers waits alive
  | finished _ last =>
      have zero : left i s = 0 := by
        rw [left, List.sum_eq_zero_iff_forall_eq_nat]
        intro rank member
        obtain ⟨op, waits, rfl⟩ := List.mem_map.mp member
        rw [last op waits, Op.rank]
      exact absurd zero some_

theorem reads_end (i : Nat) (chunks : List (List UInt8)) (shutdown : Bool)
    (files : List UInt8 → File) (request : Request) (trace : List Step) (s : State)
    (run : machine.Run trace s) (reading : Reading i chunks shutdown files request s) :
    ∃ more last, machine.Run (trace ++ more) last ∧
      (∀ e ∈ more, Fed i chunks shutdown files e) ∧ ReadOver i last := by
  obtain ⟨more, last, longer, fed, there, none_⟩ :=
    run.drain (C := Fed i chunks shutdown files) (left i)
      (fun _ s _ => reading_step i chunks shutdown files request s) reading
  refine ⟨more, last, longer, fed, there.1, fun op member => ?_⟩
  rw [left, List.sum_eq_zero_iff_forall_eq_nat] at none_
  have zero := none_ op.rank (List.mem_map_of_mem member)
  cases op with
  | requestLine => cases zero
  | headers => cases zero
  | response => rfl

theorem read_over_answered (i : Nat) (chunks : List (List UInt8)) (shutdown : Bool)
    (files : List UInt8 → File) (request : Request) (trace : List Step) (s : State)
    (stage : Stage i chunks shutdown files request trace s) (done : ReadOver i s) :
    AnsweredIn request files i trace ↔ Answered request files (serve files shutdown chunks) := by
  cases stage with
  | before later => exact absurd done.1 (Nat.not_lt.mpr later)
  | line _ _ waits => exact absurd (done.2 .requestLine (by simp [waits])) nofun
  | headers _ _ _ _ waits => exact absurd (done.2 .headers (by simp [waits])) nofun
  | finished _ _ same => exact same

/-- Exactly when a connection is answered with the headers of its request, whatever comes behind
them and in whatever chunks, and whatever the other connections do: the request fits into the
buffer, the empty line is found, nothing that has been read behind it has a colon in it, and
nothing throws. -/
theorem connection_answered_iff (request : Request) (further : List UInt8)
    (chunks : List (List UInt8)) (whole : chunks.flatten = request.text further) (shutdown : Bool)
    (files : List UInt8 → File) (i : Nat) (trace : List Step) (s : State)
    (run : machine.Run trace s) (fed : ∀ e ∈ trace, Fed i chunks shutdown files e)
    (begun : i < s.created) :
    (s.terminated = false → ∃ more last, machine.Run (trace ++ more) last ∧
      (∀ e ∈ more, Fed i chunks shutdown files e) ∧ ReadOver i last) ∧
    (ReadOver i s → (AnsweredIn request files i trace ↔
      request.line.length + 2 ≤ maxRequest ∧
      crlf ++ crlf <:+: (request.head ++ further).take maxRequest ∧
      colon ∉ lookahead request chunks ∧
      files (bytes "." ++ request.resource) ≠ .oversized ∧ shutdown = true)) := by
  have stage := stage_run i chunks shutdown files request trace s run fed
  constructor
  · intro runs
    exact reads_end i chunks shutdown files request trace s run
      ⟨begun, fun _ => runs, trace, stage⟩
  · intro done
    rw [← request_answered_iff request further files shutdown chunks whole]
    exact read_over_answered i chunks shutdown files request trace s stage done

/-! A request for the root with one header. -/

def getRoot : Request where
  resource := bytes "/"
  fields := [⟨bytes "A", bytes " b", by decide, by decide, by decide⟩]
  some_ := by decide
  solid := TextStream.solid_word _ _ (by decide)

theorem accepted_fed (i : Nat) (chunks : List (List UInt8)) (shutdown : Bool)
    (files : List UInt8 → File) :
    ∀ e ∈ [accepted],
      Fed i chunks shutdown files e := by
  intro e member op ec more down found action
  rw [List.mem_singleton.mp member] at action
  cases action

theorem get_root_answered : ∃ trace s, machine.Run trace s ∧ ReadOver 0 s ∧
    AnsweredIn getRoot (fun _ => .missing) 0 trace := by
  have fed := accepted_fed 0 [bytes "GET / HTTP/1.1\r", bytes "\nA: b\r\n\r\nC"] true fun _ => .missing
  obtain ⟨more, last, run, later, done⟩ := (connection_answered_iff getRoot (bytes "C") _ (by decide)
    true _ 0 _ _ accepted_run fed Nat.one_pos).1 rfl
  have whole : ∀ e ∈ [accepted] ++ more,
      Fed 0 [bytes "GET / HTTP/1.1\r", bytes "\nA: b\r\n\r\nC"] true (fun _ => .missing) e :=
    List.forall_mem_append.mpr ⟨fed, later⟩
  refine ⟨_, last, run, done, ((connection_answered_iff getRoot (bytes "C") _ (by decide) true _ 0 _ _
    run whole done.1).2 done).mpr ⟨by decide, by decide, by decide, nofun, rfl⟩⟩

theorem get_root_not_answered : ∃ trace s,
    [bytes "GET / HTTP/1.1\r\nA: b\r\n\r\nC: d\r\n"].flatten = getRoot.text (bytes "C: d\r\n") ∧
    machine.Run trace s ∧ (∀ e ∈ trace, Fed 0 [bytes "GET / HTTP/1.1\r\nA: b\r\n\r\nC: d\r\n"] true
      (fun _ => .missing) e) ∧
    ReadOver 0 s ∧ ¬ AnsweredIn getRoot (fun _ => .missing) 0 trace := by
  have fed := accepted_fed 0 [bytes "GET / HTTP/1.1\r\nA: b\r\n\r\nC: d\r\n"] true fun _ => .missing
  have stage := stage_run 0 _ true _ getRoot _ _ accepted_run fed
  obtain ⟨more, last, run, later, done⟩ := reads_end 0 _ true _ getRoot _ _ accepted_run
    ⟨Nat.one_pos, fun _ => rfl, _, stage⟩
  have whole := List.forall_mem_append.mpr ⟨fed, later⟩
  refine ⟨_, last, by decide, run, whole, done, ?_⟩
  rw [read_over_answered 0 _ true _ getRoot _ last (stage_run 0 _ true _ getRoot _ last run whole) done,
    request_answered_iff getRoot (bytes "C: d\r\n") _ true _ (by decide)]
  rintro ⟨-, -, absent, -⟩
  exact absent (by decide)

end NetworkProgramming.HttpServer
