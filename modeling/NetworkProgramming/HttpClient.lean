import Mathlib.Data.List.Infix
import Mathlib.Tactic.Common
import NetworkProgramming.CText
import NetworkProgramming.Machine
import NetworkProgramming.TextStream

/-!
HTTPClient.cpp: one request. execute and the six handlers after it each look at the flag of
cancel, under its mutex, before they start the next operation; on_finish calls the user. One
thread runs the handlers, execute and any number of cancels run on others. What is done while a
handler has the mutex is one step.
-/

namespace NetworkProgramming.HttpClient

open CText

def cr : UInt8 := 13
def crlf : List UInt8 := [13, 10]

inductive Op where
  | resolve
  | connect
  | write
  | statusLine
  | headers
  | body
  deriving DecidableEq

inductive Ec where
  | success
  | operationAborted
  | eof
  | invalidResponse
  | other (value : Nat)
  deriving DecidableEq

/-- execute waits for the mutex, has it and has started the first operation, is about to call
the user, or is done. -/
inductive Execute where
  | uncalled
  | checking
  | started
  | finishing
  | returned
  deriving DecidableEq

/-- The thread of the handlers: it waits for the mutex, or is about to call the user, or is in
the loop of on_headers_received for ever. -/
inductive Handler where
  | idle
  | checking (next : Op)
  | finishing (ec : Ec)
  | spinning
  deriving DecidableEq

inductive Cancel where
  | uncalled
  | waiting
  | inside
  | returned
  deriving DecidableEq

inductive Holder where
  | execute
  | cancel (i : Nat)
  deriving DecidableEq

abbrev Headers := List UInt8 → Option (List UInt8)

structure Response where
  statusCode : Nat
  statusMessage : List UInt8
  headers : Headers

/-- `pending` is the operation that is outstanding. `terminated` is an exception that has left
the thread of the handlers. -/
structure State where
  host : List UInt8
  uri : List UInt8
  requestBuf : List UInt8
  responseBuf : List UInt8
  response : Response
  wasCancelled : Bool
  cancelMux : Option Holder
  execute : Execute
  handler : Handler
  pending : Option Op
  cancel : Nat → Cancel
  terminated : Bool

/-- An operation ends with an error or not, with `more` read into the buffer; the one that has
sent the request is followed by a shutdown, which may throw. -/
inductive Action where
  | execute
  | checkFirst
  | executeReturns
  | complete (ec : Ec) (more : List UInt8) (shutdown : Bool)
  | check
  | callback
  | callbackFirst
  | cancel (i : Nat)
  | cancelLocks (i : Nat)
  | cancelReturns (i : Nat)
  deriving DecidableEq

inductive Answer where
  | called (ec : Ec)
  | silent
  deriving DecidableEq

/-! The two parsers. -/

def stoul (text : List UInt8) : Option Nat :=
  match leading text with
  | none => none
  | some (n, _) => if n.natAbs < 2 ^ 64 then some (n % 2 ^ 32).toNat else none

def parseStatusLine (buf : List UInt8) (response : Response) : Option Response × List UInt8 :=
  let version := TextStream.word isspace ⟨buf, true⟩ []
  if version.1 ≠ bytes "HTTP/1.1" then (none, version.2.text)
  else
    let code := version.2.word isspace []
    match stoul code.1 with
    | none => (none, code.2.text)
    | some statusCode =>
        let message := code.2.getline cr []
        (some { response with statusCode := statusCode, statusMessage := message.1 },
          message.2.get.text)

def addHeader (header : List UInt8) (headers : Headers) : Headers :=
  match header.idxOf? 58 with
  | none => headers
  | some pos =>
      Function.update headers (header.take pos)
        (some (if pos < header.length - 1 then header.drop (pos + 1) else []))

/-- The loop of on_headers_received, in so many turns at most. -/
def headerLoop : Nat → TextStream UInt8 → List UInt8 → Headers → Option (List UInt8 × Headers)
  | 0, _, _, _ => none
  | turns + 1, stream, header, headers =>
      let line := stream.getline cr header
      if line.1 = [] then some (line.2.get.text, headers)
      else headerLoop turns line.2.get line.1 (addHeader line.1 headers)

def parseHeaders (buf : List UInt8) (headers : Headers) : Option (List UInt8 × Headers) :=
  headerLoop (buf.length + 1) ⟨buf, true⟩ [] headers

/-- Cut at each \r, with the symbol behind it dropped, the text has an empty piece before it
ends within a line; `start` is at the beginning of a piece. -/
def blank : Bool → List UInt8 → Bool
  | start, [] => start
  | start, [b] => start && b == cr
  | start, b :: c :: rest =>
      if b = cr then start || blank true rest else blank false (c :: rest)

namespace State

def finish (s : State) (ec : Ec) : State := { s with handler := .finishing ec }

def next (s : State) (op : Op) : State := { s with handler := .checking op }

def onConnectionEstablished (s : State) : State :=
  { s with requestBuf := s.requestBuf ++ (bytes "GET " ++ s.uri ++ bytes " HTTP/1.1\r\n") ++
      (bytes "Host: " ++ s.host ++ crlf) ++ crlf }.next .write

def onRequestSent (s : State) (shutdown : Bool) : State :=
  if shutdown then s.next .statusLine else { s with terminated := true }

def onStatusLineReceived (s : State) : State :=
  let parsed := parseStatusLine s.responseBuf s.response
  let left := { s with responseBuf := parsed.2 }
  match parsed.1 with
  | none => left.finish .invalidResponse
  | some response => { left with response := response }.next .headers

def onHeadersReceived (s : State) : State :=
  match parseHeaders s.responseBuf s.response.headers with
  | none => { s with handler := .spinning }
  | some (left, headers) =>
      { s with responseBuf := left, response := { s.response with headers := headers } }.next .body

def onResponseBodyReceived (s : State) (ec : Ec) : State :=
  s.finish (if ec = .eof then .success else ec)

def completed (s : State) (op : Op) (ec : Ec) (more : List UInt8) (shutdown : Bool) : State :=
  let s := { s with pending := none, responseBuf := s.responseBuf ++ more }
  if op ≠ .body ∧ ec ≠ .success then s.finish ec
  else match op with
    | .resolve => s.next .connect
    | .connect => s.onConnectionEstablished
    | .write => s.onRequestSent shutdown
    | .statusLine => s.onStatusLineReceived
    | .headers => s.onHeadersReceived
    | .body => s.onResponseBodyReceived ec

def check (s : State) (op : Op) : State :=
  if s.wasCancelled then s.finish .operationAborted
  else { s with handler := .idle, pending := some op }

/-- The check of the mark in execute, which has the mutex until it returns. -/
def checkFirst (s : State) : State :=
  if s.wasCancelled then { s with execute := .finishing }
  else { s with execute := .started, cancelMux := some .execute, pending := some .resolve }

end State

/-- async_read_until ends without an error once the delimiter is in the buffer, and the two
operations before it read nothing. -/
def Possible (op : Op) (ec : Ec) (buf more : List UInt8) : Prop :=
  match op with
  | .resolve | .connect | .write => more = []
  | .statusLine => ec = .success → crlf <:+: buf ++ more
  | .headers => ec = .success → crlf ++ crlf <:+: buf ++ more
  | .body => True

instance (op : Op) (ec : Ec) (buf more : List UInt8) : Decidable (Possible op ec buf more) := by
  cases op <;> unfold Possible <;> infer_instance

def act (s : State) : Action → Option (State × Answer)
  | .execute =>
      if s.execute = .uncalled then some ({ s with execute := .checking }, .silent) else none
  | .checkFirst =>
      if s.execute = .checking ∧ s.cancelMux = none then some (s.checkFirst, .silent) else none
  | .executeReturns =>
      if s.execute = .started then
        some ({ s with execute := .returned, cancelMux := none }, .silent)
      else none
  | .complete ec more shutdown =>
      match s.pending with
      | none => none
      | some op =>
          if s.handler = .idle ∧ Possible op ec s.responseBuf more then
            some (s.completed op ec more shutdown, .silent)
          else none
  | .check =>
      match s.handler with
      | .checking op => if s.cancelMux = none then some (s.check op, .silent) else none
      | _ => none
  | .callback =>
      match s.handler with
      | .finishing ec => some ({ s with handler := .idle }, .called ec)
      | _ => none
  | .callbackFirst =>
      if s.execute = .finishing then
        some ({ s with execute := .returned }, .called .operationAborted)
      else none
  | .cancel i =>
      if s.cancel i = .uncalled then
        some ({ s with cancel := Function.update s.cancel i .waiting }, .silent)
      else none
  | .cancelLocks i =>
      if s.cancel i = .waiting ∧ s.cancelMux = none then
        some ({ s with
          cancel := Function.update s.cancel i .inside
          cancelMux := some (.cancel i)
          wasCancelled := true }, .silent)
      else none
  | .cancelReturns i =>
      if s.cancel i = .inside then
        some ({ s with cancel := Function.update s.cancel i .returned, cancelMux := none }, .silent)
      else none

def step (s : State) (action : Action) : Option (State × Answer) :=
  if s.terminated then none else act s action

abbrev Step := Transition State Action Answer

def machine : Machine State Action Answer where
  start s := s.wasCancelled = false ∧ s.cancelMux = none ∧ s.execute = .uncalled ∧
    s.handler = .idle ∧ s.pending = none ∧ (∀ i, s.cancel i = .uncalled) ∧ s.terminated = false
  step := step

inductive Moves (s : State) : Action → State → Answer → Prop where
  | execute (now : s.execute = .uncalled) :
      Moves s .execute { s with execute := .checking } .silent
  | checkFirst (now : s.execute = .checking) (free : s.cancelMux = none) :
      Moves s .checkFirst s.checkFirst .silent
  | executeReturns (now : s.execute = .started) :
      Moves s .executeReturns { s with execute := .returned, cancelMux := none } .silent
  | complete (op : Op) (ec : Ec) (more : List UInt8) (shutdown : Bool) (now : s.pending = some op)
      (idle : s.handler = .idle) (possible : Possible op ec s.responseBuf more) :
      Moves s (.complete ec more shutdown) (s.completed op ec more shutdown) .silent
  | check (op : Op) (now : s.handler = .checking op) (free : s.cancelMux = none) :
      Moves s .check (s.check op) .silent
  | callback (ec : Ec) (now : s.handler = .finishing ec) :
      Moves s .callback { s with handler := .idle } (.called ec)
  | callbackFirst (now : s.execute = .finishing) :
      Moves s .callbackFirst { s with execute := .returned } (.called .operationAborted)
  | cancel (i : Nat) (now : s.cancel i = .uncalled) :
      Moves s (.cancel i) { s with cancel := Function.update s.cancel i .waiting } .silent
  | cancelLocks (i : Nat) (now : s.cancel i = .waiting) (free : s.cancelMux = none) :
      Moves s (.cancelLocks i) { s with
        cancel := Function.update s.cancel i .inside
        cancelMux := some (.cancel i)
        wasCancelled := true } .silent
  | cancelReturns (i : Nat) (now : s.cancel i = .inside) :
      Moves s (.cancelReturns i)
        { s with cancel := Function.update s.cancel i .returned, cancelMux := none } .silent

theorem moves_of_stepped (e : Step) (stepped : machine.Stepped e) :
    e.before.terminated = false ∧ Moves e.before e.action e.after e.output := by
  obtain ⟨s, action, output, after⟩ := e
  change step s action = some (after, output) at stepped
  rw [step] at stepped
  split at stepped
  · cases stepped
  · rename_i alive
    refine ⟨by simpa using alive, ?_⟩
    dsimp only
    cases action <;> rw [act] at stepped
    case execute =>
      split at stepped
      · cases stepped
        exact .execute ‹_›
      · cases stepped
    case checkFirst =>
      split at stepped
      · rename_i ready
        cases stepped
        exact .checkFirst ready.1 ready.2
      · cases stepped
    case executeReturns =>
      split at stepped
      · cases stepped
        exact .executeReturns ‹_›
      · cases stepped
    case complete ec more shutdown =>
      split at stepped
      · cases stepped
      · rename_i op now
        split at stepped
        · rename_i ready
          cases stepped
          exact .complete op ec more shutdown now ready.1 ready.2
        · cases stepped
    case check =>
      split at stepped
      · rename_i op now
        split at stepped
        · cases stepped
          exact .check op now ‹_›
        · cases stepped
      · cases stepped
    case callback =>
      split at stepped
      · rename_i ec now
        cases stepped
        exact .callback ec now
      · cases stepped
    case callbackFirst =>
      split at stepped
      · cases stepped
        exact .callbackFirst ‹_›
      · cases stepped
    case cancel i =>
      split at stepped
      · cases stepped
        exact .cancel i ‹_›
      · cases stepped
    case cancelLocks i =>
      split at stepped
      · rename_i ready
        cases stepped
        exact .cancelLocks i ready.1 ready.2
      · cases stepped
    case cancelReturns i =>
      split at stepped
      · cases stepped
        exact .cancelReturns i ‹_›
      · cases stepped

end NetworkProgramming.HttpClient
