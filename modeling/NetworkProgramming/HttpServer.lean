import Mathlib.Logic.Function.Basic
import NetworkProgramming.CText
import NetworkProgramming.Machine
import NetworkProgramming.TextStream

/-!
HTTPServer.cpp: a Service for each connection. Each of its handlers starts one operation more,
deletes the Service, or is left by an exception, which ends the process. The threads of the pool
run the handlers of several connections in any order; what a handler does is one step.
-/

namespace NetworkProgramming.HttpServer

open CText TextStream

def cr : UInt8 := 13
def lf : UInt8 := 10
def colon : UInt8 := 58
def crlf : List UInt8 := [cr, lf]

def maxRequest : Nat := 4096

inductive Op where
  | requestLine
  | headers
  | response
  deriving DecidableEq

inductive Ec where
  | success
  | notFound
  | other (code : Int)
  deriving DecidableEq

/-- What process_request comes upon: a file of a size for which there is no memory makes new
throw. -/
inductive File where
  | missing
  | closed
  | opened (content : List UInt8)
  | oversized

abbrev Headers := List UInt8 → Option (List UInt8)

structure Service where
  request : List UInt8
  requestHeaders : Headers
  requestedResource : List UInt8
  resourceBuffer : List UInt8
  responseStatusCode : Nat
  resourceSizeBytes : Nat
  responseHeaders : List UInt8
  responseStatusLine : List UInt8

def Service.new : Service where
  request := []
  requestHeaders := fun _ => none
  requestedResource := []
  resourceBuffer := []
  responseStatusCode := 200
  resourceSizeBytes := 0
  responseHeaders := []
  responseStatusLine := []

/-- How a handler ends: an operation is started, the Service is deleted, an exception leaves the
handler. -/
inductive Outcome where
  | waits (service : Service) (op : Op)
  | deleted
  | thrown

def httpStatusTable (code : Nat) : Option (List UInt8) :=
  [(200, "200 OK"), (404, "404 Not Found"), (413, "413 Request Entity Too Large"),
    (500, "500 Server Error"), (501, "501 Not Implemented"),
    (505, "505 HTTP Version Not Supported")].lookup code |>.map bytes

/-- The loop of on_headers_received, in so many turns at most, and what it leaves of the text. -/
def headerLoop : Nat → TextStream UInt8 → Headers → Option (List UInt8 × Headers)
  | 0, _, _ => none
  | turns + 1, stream, headers =>
      if stream.good then
        let name := stream.getline colon []
        if name.2.good then
          let value := name.2.getline cr []
          headerLoop turns value.2.get (Function.update headers name.1 (some value.1))
        else headerLoop turns name.2 headers
      else some (stream.text, headers)

namespace Service

def response (s : Service) : List UInt8 :=
  s.responseStatusLine ++ s.responseHeaders ++
    if s.resourceSizeBytes > 0 then s.resourceBuffer else []

def sendResponse (s : Service) (shutdown : Bool) : Outcome :=
  if shutdown then
    match httpStatusTable s.responseStatusCode with
    | none => .thrown
    | some statusLine =>
        .waits { s with
          responseStatusLine := bytes "HTTP/1.1 " ++ statusLine ++ crlf
          responseHeaders := s.responseHeaders ++ crlf } .response
  else .thrown

/-- None is an exception. -/
def processRequest (s : Service) (files : List UInt8 → File) : Option Service :=
  match files (bytes "." ++ s.requestedResource) with
  | .missing => some { s with responseStatusCode := 404 }
  | .closed => some { s with responseStatusCode := 500 }
  | .opened content =>
      some { s with
        resourceSizeBytes := content.length
        resourceBuffer := content
        responseHeaders := s.responseHeaders ++ bytes "content-length" ++ bytes ": " ++
          decimal content.length ++ crlf }
  | .oversized => none

def parseRequestLine (s : Service) (requestLine : List UInt8) (shutdown : Bool) : Outcome :=
  let method := TextStream.word isspace ⟨requestLine, true⟩ []
  if method.1 ≠ bytes "GET" then { s with responseStatusCode := 501 }.sendResponse shutdown
  else
    let resource := method.2.word isspace s.requestedResource
    let s := { s with requestedResource := resource.1 }
    let version := resource.2.word isspace []
    if version.1 ≠ bytes "HTTP/1.1" then { s with responseStatusCode := 505 }.sendResponse shutdown
    else .waits s .headers

def onRequestLineReceived (s : Service) (ec : Ec) (shutdown : Bool) : Outcome :=
  match ec with
  | .notFound => { s with responseStatusCode := 413 }.sendResponse shutdown
  | .other _ => .deleted
  | .success =>
      let line := TextStream.getline cr ⟨s.request, true⟩ []
      { s with request := line.2.get.text }.parseRequestLine line.1 shutdown

/-- A loop that does not end would leave the Service waiting; see `header_loop_ends`. -/
def onHeadersReceived (s : Service) (ec : Ec) (shutdown : Bool) (files : List UInt8 → File) :
    Outcome :=
  match ec with
  | .notFound => { s with responseStatusCode := 413 }.sendResponse shutdown
  | .other _ => .deleted
  | .success =>
      match headerLoop (s.request.length + 2) ⟨s.request, true⟩ s.requestHeaders with
      | none => .waits s .headers
      | some (left, headers) =>
          match { s with request := left, requestHeaders := headers }.processRequest files with
          | none => .thrown
          | some s => s.sendResponse shutdown

def onResponseSent (shutdown : Bool) : Outcome := if shutdown then .deleted else .thrown

def handle (s : Service) (op : Op) (ec : Ec) (more : List UInt8) (shutdown : Bool)
    (files : List UInt8 → File) : Outcome :=
  let s := { s with request := s.request ++ more }
  match op with
  | .requestLine => s.onRequestLineReceived ec shutdown
  | .headers => s.onHeadersReceived ec shutdown files
  | .response => onResponseSent shutdown

end Service

/-- `object` are the Services that have not been deleted, `pending` the operations with handlers
that have the address of a Service, deleted or not. `terminated` is an exception that has left a
handler, `misused` a handler that has run after its Service was deleted. -/
structure State where
  created : Nat
  object : Nat → Option Service
  pending : Nat → List Op
  terminated : Bool
  misused : Bool

inductive Action where
  | onAccept
  | complete (service : Nat) (op : Op) (ec : Ec) (more : List UInt8) (shutdown : Bool)
      (files : List UInt8 → File)

inductive Answer where
  | created (service : Nat)
  | started (service : Nat) (op : Op)
  | deleted (service : Nat)
  | silent
  deriving DecidableEq

namespace State

def accept (s : State) : State :=
  { s with
    created := s.created + 1
    object := Function.update s.object s.created (some .new)
    pending := Function.update s.pending s.created [.requestLine] }

def take (s : State) (i : Nat) (op : Op) : State :=
  { s with pending := Function.update s.pending i ((s.pending i).erase op) }

def start (s : State) (i : Nat) (service : Service) (op : Op) : State :=
  { s with
    object := Function.update s.object i (some service)
    pending := Function.update s.pending i (op :: s.pending i) }

def delete (s : State) (i : Nat) : State := { s with object := Function.update s.object i none }

def finish (s : State) (i : Nat) : Outcome → State × Answer
  | .waits service op => (s.start i service op, .started i op)
  | .deleted => (s.delete i, .deleted i)
  | .thrown => ({ s with terminated := true }, .silent)

end State

def step (s : State) (action : Action) : Option (State × Answer) :=
  if s.terminated then none
  else match action with
  | .onAccept => some (s.accept, .created s.created)
  | .complete i op ec more shutdown files =>
      if op ∈ s.pending i then
        match s.object i with
        | none => some ({ s.take i op with misused := true }, .silent)
        | some service =>
            some ((s.take i op).finish i (service.handle op ec more shutdown files))
      else none

abbrev Step := Transition State Action Answer

def machine : Machine State Action Answer where
  start s := s.created = 0 ∧ (∀ i, s.object i = none ∧ s.pending i = []) ∧
    s.terminated = false ∧ s.misused = false
  step := step

def idle : State := ⟨0, fun _ => none, fun _ => [], false, false⟩

def accepted : Step := ⟨idle, .onAccept, .created 0, idle.accept⟩

theorem accepted_run : machine.Run [accepted] accepted.after := by
  have first : machine.start idle := ⟨rfl, fun _ => ⟨rfl, rfl⟩, rfl, rfl⟩
  exact (Machine.Run.start first).next accepted rfl

/-! The loop of on_headers_received. -/

theorem header_loop_bad (turns : Nat) (text : List UInt8) (headers : Headers) :
    headerLoop (turns + 1) ⟨text, false⟩ headers = some (text, headers) := rfl

theorem header_loop_end (turns : Nat) (text : List UInt8) (headers : Headers)
    (absent : colon ∉ text) :
    headerLoop (turns + 2) ⟨text, true⟩ headers = some ([], headers) := by
  rw [headerLoop, if_pos rfl, getline_end colon text [] absent]
  dsimp only
  rw [if_neg Bool.false_ne_true, header_loop_bad]

theorem header_loop_name (turns : Nat) (name rest : List UInt8) (headers : Headers)
    (absent : colon ∉ name) :
    headerLoop (turns + 1) ⟨name ++ colon :: rest, true⟩ headers =
      headerLoop turns (TextStream.getline cr ⟨rest, true⟩ []).2.get
        (Function.update headers name (some (TextStream.getline cr ⟨rest, true⟩ []).1)) := by
  rw [headerLoop, if_pos rfl, getline_line colon name rest [] absent]
  dsimp only
  rw [if_pos rfl]

theorem value_length (rest : List UInt8) :
    (TextStream.getline cr ⟨rest, true⟩ []).2.get.text.length ≤ rest.length := by
  rcases getline_cases cr rest [] with ⟨line, more, rfl, -, read⟩ | ⟨-, read⟩
  · have short := get_length more
    rw [read, List.length_append, List.length_cons]
    dsimp only
    omega
  · rw [read]
    exact Nat.zero_le _

theorem header_loop_ends (turns : Nat) (stream : TextStream UInt8) (headers : Headers)
    (enough : stream.text.length + 2 ≤ turns) :
    ∃ left headers', headerLoop turns stream headers = some (left, headers') ∧
      ∀ name, headers name ≠ none → headers' name ≠ none := by
  induction turns generalizing stream headers with
  | zero => exact absurd enough (by omega)
  | succ turns ih =>
      obtain ⟨text, good⟩ := stream
      cases good with
      | false => exact ⟨text, headers, header_loop_bad turns text headers, fun _ some_ => some_⟩
      | true =>
          by_cases member : colon ∈ text
          · obtain ⟨name, rest, rfl, absent⟩ := List.eq_append_cons_of_mem member
            rw [header_loop_name turns name rest headers absent]
            have short := value_length rest
            rw [List.length_append, List.length_cons] at enough
            -- each turn takes the colon at least, so fewer turns are enough for the rest
            obtain ⟨left, headers', ended, kept⟩ :=
              ih (TextStream.getline cr ⟨rest, true⟩ []).2.get
                (Function.update headers name (some (TextStream.getline cr ⟨rest, true⟩ []).1))
                (by omega)
            refine ⟨left, headers', ended, fun key some_ => kept key ?_⟩
            by_cases same : key = name
            · rw [same, Function.update_self]
              exact Option.some_ne_none _
            · rwa [Function.update_of_ne same]
          -- without a colon getline comes to the end of the buffer
          · obtain ⟨turns, rfl⟩ : ∃ n, turns = n + 1 := ⟨turns - 1, by omega⟩
            exact ⟨[], headers, header_loop_end turns text headers member, fun _ some_ => some_⟩

theorem header_loop_enters (turns : Nat) (name rest : List UInt8) (headers : Headers)
    (absent : colon ∉ name) (enough : (name ++ colon :: rest).length + 2 ≤ turns) :
    ∃ left headers', headerLoop turns ⟨name ++ colon :: rest, true⟩ headers = some (left, headers') ∧
      headers' name ≠ none := by
  obtain ⟨turns, rfl⟩ : ∃ n, turns = n + 1 := ⟨turns - 1, by omega⟩
  have short := value_length rest
  rw [List.length_append, List.length_cons] at enough
  obtain ⟨left, headers', ended, kept⟩ :=
    header_loop_ends turns (TextStream.getline cr ⟨rest, true⟩ []).2.get
      (Function.update headers name (some (TextStream.getline cr ⟨rest, true⟩ []).1)) (by omega)
  refine ⟨left, headers', ?_, kept name ?_⟩
  · rw [header_loop_name turns name rest headers absent, ended]
  · rw [Function.update_self]
    exact Option.some_ne_none _

/-! What a handler starts. -/

/-- How many operations of a Service may come after this one. -/
def Op.rank : Op → Nat
  | .requestLine => 2
  | .headers => 1
  | .response => 0

theorem send_response_waits (s : Service) (shutdown : Bool) (s' : Service) (op : Op)
    (waits : s.sendResponse shutdown = .waits s' op) : op = .response := by
  rw [Service.sendResponse] at waits
  split at waits
  · split at waits <;> cases waits
    rfl
  · cases waits

theorem parse_request_line_waits (s : Service) (line : List UInt8) (shutdown : Bool) (s' : Service)
    (op : Op) (waits : s.parseRequestLine line shutdown = .waits s' op) :
    op = .response ∨ op = .headers ∧ s'.responseStatusCode = s.responseStatusCode := by
  rw [Service.parseRequestLine] at waits
  dsimp only at waits
  split at waits
  · exact Or.inl (send_response_waits _ shutdown s' op waits)
  · split at waits
    · exact Or.inl (send_response_waits _ shutdown s' op waits)
    · cases waits
      exact Or.inr ⟨rfl, rfl⟩

/-- The operations of a Service come in their order, and until the response the status is the one
that the Service has been made with. -/
theorem handle_waits (s : Service) (op : Op) (ec : Ec) (more : List UInt8) (shutdown : Bool)
    (files : List UInt8 → File) (s' : Service) (op' : Op)
    (waits : s.handle op ec more shutdown files = .waits s' op') :
    op'.rank < op.rank ∧ (op' ≠ .response → s'.responseStatusCode = s.responseStatusCode) := by
  have responds (first : 0 < op.rank) (last : op' = .response) : op'.rank < op.rank ∧
      (op' ≠ .response → s'.responseStatusCode = s.responseStatusCode) := by
    rw [last]
    exact ⟨first, fun other => absurd rfl other⟩
  cases op with
  | requestLine =>
      cases ec with
      | notFound => exact responds Nat.two_pos (send_response_waits
          { s with request := s.request ++ more, responseStatusCode := 413 } shutdown s' op' waits)
      | other code => cases waits
      | success =>
          rcases parse_request_line_waits _ _ shutdown s' op' waits with last | ⟨rfl, same⟩
          · exact responds Nat.two_pos last
          · exact ⟨Nat.one_lt_two, fun _ => same⟩
  | headers =>
      cases ec with
      | notFound => exact responds Nat.one_pos (send_response_waits
          { s with request := s.request ++ more, responseStatusCode := 413 } shutdown s' op' waits)
      | other code => cases waits
      | success =>
          obtain ⟨left, headers, ended, -⟩ :=
            header_loop_ends ((s.request ++ more).length + 2) ⟨s.request ++ more, true⟩
              s.requestHeaders (Nat.le_refl _)
          simp only [Service.handle, Service.onHeadersReceived, ended] at waits
          split at waits
          · cases waits
          · exact responds Nat.one_pos (send_response_waits _ shutdown s' op' waits)
  | response =>
      cases shutdown <;> cases waits

/-! What a step does. -/

theorem step_cases (e : Step) (stepped : machine.Stepped e) :
    (e.action = .onAccept ∧ e.after = e.before.accept ∧ e.output = .created e.before.created) ∨
    ∃ i op ec more shutdown files, e.action = .complete i op ec more shutdown files ∧
      op ∈ e.before.pending i ∧
      ((e.before.object i = none ∧ e.after = { e.before.take i op with misused := true } ∧
        e.output = .silent) ∨
      ∃ service, e.before.object i = some service ∧ (e.after, e.output) =
        (e.before.take i op).finish i (service.handle op ec more shutdown files)) := by
  obtain ⟨before, action, output, after⟩ := e
  change step before action = some (after, output) at stepped
  unfold step at stepped
  split at stepped
  · cases stepped
  · cases action with
    | onAccept =>
        cases stepped
        exact Or.inl ⟨rfl, rfl, rfl⟩
    | complete i op ec more shutdown files =>
        dsimp only at stepped
        split at stepped
        · rename_i member
          refine Or.inr ⟨i, op, ec, more, shutdown, files, rfl, member, ?_⟩
          cases found : before.object i with
          | none =>
              rw [found] at stepped
              cases stepped
              exact Or.inl ⟨rfl, rfl, rfl⟩
          | some service =>
              rw [found] at stepped
              exact Or.inr ⟨service, rfl, (Option.some.inj stepped).symm⟩
        · cases stepped

theorem finish_other (s : State) (i j : Nat) (op : Op) (outcome : Outcome) (apart : j ≠ i) :
    ((s.take i op).finish i outcome).1.object j = s.object j ∧
      ((s.take i op).finish i outcome).1.pending j = s.pending j := by
  cases outcome with
  | waits service op' =>
      exact ⟨Function.update_of_ne apart _ _,
        (Function.update_of_ne apart _ _).trans (Function.update_of_ne apart _ _)⟩
  | deleted =>
      exact ⟨Function.update_of_ne apart _ _, Function.update_of_ne apart _ _⟩
  | thrown => exact ⟨rfl, Function.update_of_ne apart _ _⟩

theorem finish_created (s : State) (i : Nat) (op : Op) (outcome : Outcome) :
    ((s.take i op).finish i outcome).1.created = s.created := by
  cases outcome <;> rfl

theorem finish_started (s : State) (i j : Nat) (outcome : Outcome) (op : Op)
    (started : (s.finish i outcome).2 = .started j op) : j = i := by
  cases outcome <;> cases started
  rfl

theorem finish_pending (s : State) (i : Nat) (op : Op) (outcome : Outcome)
    (waits : s.pending i = [op]) : ((s.take i op).finish i outcome).1.pending i =
      match outcome with
      | .waits _ op' => [op']
      | .deleted => []
      | .thrown => [] := by
  have taken : (s.take i op).pending i = [] := by simp [State.take, waits]
  cases outcome with
  | waits service op' => simp [State.finish, State.start, taken]
  | deleted => exact taken
  | thrown => exact taken

def completed (s : State) (i : Nat) (service : Service) (op : Op) (ec : Ec) (more : List UInt8)
    (shutdown : Bool) (files : List UInt8 → File) : Step :=
  let result := (s.take i op).finish i (service.handle op ec more shutdown files)
  ⟨s, .complete i op ec more shutdown files, result.2, result.1⟩

theorem completed_stepped (s : State) (i : Nat) (service : Service) (op : Op) (ec : Ec)
    (more : List UInt8) (shutdown : Bool) (files : List UInt8 → File)
    (runs : s.terminated = false) (waits : op ∈ s.pending i) (alive : s.object i = some service) :
    machine.Stepped (completed s i service op ec more shutdown files) := by
  simp [completed, Machine.Stepped, machine, step, runs, waits, alive]

end NetworkProgramming.HttpServer
