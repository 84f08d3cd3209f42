import NetworkProgramming.CText

/-!
The Zen conversation of fopnp-3/chapter07: zen_utils.py, and the callbacks of srv_asyncio1.py. What
a connection carries are the chunks that recv returns; behind the last of them it returns b''.
-/

namespace NetworkProgramming.Zen

open CText

def question : UInt8 := 63

def aphorisms : List (List UInt8 × List UInt8) :=
  [(bytes "Beautiful is better than?", bytes "Ugly."),
    (bytes "Explicit is better than?", bytes "Implicit."),
    (bytes "Simple is better than?", bytes "Complex.")]

def getAnswer (aphorism : List UInt8) : List UInt8 :=
  (aphorisms.lookup aphorism).getD (bytes "Error: unknown aphorism.")

def ends (data : List UInt8) : Bool := data.getLast? = some question

/-! A conversation that blocks. -/

inductive Stop where
  /-- EOFError: socket closed -/
  | eof
  /-- IOError: received so much, then socket closed -/
  | io (message : List UInt8)
  deriving DecidableEq

/-- The loop of recv_until: the message, and the chunks behind it. -/
def recvMore : List UInt8 → List (List UInt8) → Except Stop (List UInt8 × List (List UInt8))
  | message, [] => if ends message then .ok (message, []) else .error (.io message)
  | message, data :: chunks =>
      if ends message then .ok (message, data :: chunks)
      else if data = [] then .error (.io message)
      else recvMore (message ++ data) chunks

def recvUntil : List (List UInt8) → Except Stop (List UInt8 × List (List UInt8))
  | [] => .error .eof
  | message :: chunks => if message = [] then .error .eof else recvMore message chunks

theorem recv_more_shorter (message : List UInt8) (chunks : List (List UInt8))
    (got : List UInt8 × List (List UInt8)) (ok : recvMore message chunks = .ok got) :
    got.2.length ≤ chunks.length := by
  induction chunks generalizing message with
  | nil =>
      rw [recvMore] at ok
      split at ok
      · cases ok
        exact Nat.le_refl 0
      · cases ok
  | cons data chunks ih =>
      rw [recvMore] at ok
      split at ok
      · cases ok
        exact Nat.le_refl _
      · split at ok
        · cases ok
        · exact (ih _ ok).trans (Nat.le_succ _)

theorem recv_until_shorter (chunks : List (List UInt8)) (got : List UInt8 × List (List UInt8))
    (ok : recvUntil chunks = .ok got) : got.2.length < chunks.length := by
  cases chunks with
  | nil => cases ok
  | cons message chunks =>
      rw [recvUntil] at ok
      split at ok
      · cases ok
      · exact Nat.lt_succ_of_le (recv_more_shorter message chunks got ok)

def handleConversation (chunks : List (List UInt8)) : List UInt8 × Stop :=
  match _request : recvUntil chunks with
  | .error stop => ([], stop)
  | .ok got =>
      let rest := handleConversation got.2
      (getAnswer got.1 ++ rest.1, rest.2)
termination_by chunks.length
decreasing_by exact recv_until_shorter chunks got _request

/-! A conversation of callbacks. -/

/-- `written` is what the transport has been given. -/
structure ZenServer where
  data : List UInt8
  written : List UInt8
  deriving DecidableEq

namespace ZenServer

def connectionMade : ZenServer := ⟨[], []⟩

def dataReceived (server : ZenServer) (data : List UInt8) : ZenServer :=
  let data := server.data ++ data
  if ends data then ⟨[], server.written ++ getAnswer data⟩ else { server with data := data }

end ZenServer

def zenServer (chunks : List (List UInt8)) : ZenServer :=
  chunks.foldl ZenServer.dataReceived .connectionMade

/-! Both say the same. -/

def answers : List UInt8 → List (List UInt8) → List UInt8
  | _, [] => []
  | data, chunk :: chunks =>
      if ends (data ++ chunk) then getAnswer (data ++ chunk) ++ answers [] chunks
      else answers (data ++ chunk) chunks

theorem written_answers (server : ZenServer) (chunks : List (List UInt8)) :
    (chunks.foldl ZenServer.dataReceived server).written =
      server.written ++ answers server.data chunks := by
  induction chunks generalizing server with
  | nil => exact (List.append_nil _).symm
  | cons chunk chunks ih =>
      rw [List.foldl_cons, ih, ZenServer.dataReceived, answers]
      split
      · rw [List.append_assoc]
      · rfl

theorem zen_server_answers (chunks : List (List UInt8)) :
    (zenServer chunks).written = answers [] chunks := by
  rw [zenServer, written_answers]
  rfl

theorem recv_more_answers (message : List UInt8) (chunks : List (List UInt8))
    (some_ : ∀ chunk ∈ chunks, chunk ≠ []) (unended : ends message = false) :
    answers message chunks =
      match recvMore message chunks with
      | .error _ => []
      | .ok got => getAnswer got.1 ++ answers [] got.2 := by
  induction chunks generalizing message with
  | nil => rw [recvMore, unended, answers, if_neg Bool.false_ne_true]
  | cons chunk chunks ih =>
      obtain ⟨first, others⟩ := List.forall_mem_cons.mp some_
      rw [recvMore, unended, if_neg Bool.false_ne_true, if_neg first, answers]
      cases ended : ends (message ++ chunk) with
      | true =>
          have whole : recvMore (message ++ chunk) chunks = .ok (message ++ chunk, chunks) := by
            cases chunks <;> simp [recvMore, ended]
          rw [whole]
          rfl
      | false =>
          rw [if_neg Bool.false_ne_true]
          exact ih (message ++ chunk) others ended

theorem recv_more_rest (message : List UInt8) (chunks : List (List UInt8))
    (got : List UInt8 × List (List UInt8)) (ok : recvMore message chunks = .ok got) :
    ∀ chunk ∈ got.2, chunk ∈ chunks := by
  induction chunks generalizing message with
  | nil =>
      rw [recvMore] at ok
      split at ok
      · cases ok
        exact fun _ member => member
      · cases ok
  | cons data chunks ih =>
      rw [recvMore] at ok
      split at ok
      · cases ok
        exact fun _ member => member
      · split at ok
        · cases ok
        · exact fun chunk member => List.mem_cons_of_mem data (ih _ ok chunk member)

theorem handle_conversation_answers (chunks : List (List UInt8))
    (some_ : ∀ chunk ∈ chunks, chunk ≠ []) : (handleConversation chunks).1 = answers [] chunks := by
  induction size : chunks.length using Nat.strongRecOn generalizing chunks with
  | ind n ih =>
      subst size
      -- the first call of recv_until is one of its loop with nothing received yet
      have start : ∀ got, recvUntil chunks = .ok got ↔ recvMore [] chunks = .ok got := by
        intro got
        cases chunks with
        | nil => simp [recvUntil, recvMore, ends]
        | cons message chunks =>
            have first := some_ message List.mem_cons_self
            simp [recvUntil, recvMore, ends, first]
      rw [handleConversation, recv_more_answers [] chunks some_ rfl]
      split
      · rename_i stop failed
        cases loop : recvMore [] chunks with
        | error _ => rfl
        | ok got =>
            rw [(start got).mpr loop] at failed
            cases failed
      · rename_i got ok
        have loop := (start got).mp ok
        rw [loop]
        dsimp only
        rw [ih got.2.length (recv_until_shorter chunks got ok) got.2
          (fun chunk member => some_ chunk (recv_more_rest [] chunks got loop chunk member)) rfl]

end NetworkProgramming.Zen
