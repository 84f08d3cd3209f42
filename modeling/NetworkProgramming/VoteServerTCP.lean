import NetworkProgramming.VoteFraming

/-!
VoteServerTCP.c while a client is connected. All messages of the connection are
read into one inBuf, and what is behind a message in it is left from longer ones
before it, as their decoder left them.
-/

namespace NetworkProgramming.VoteServerTCP

open CText Framer Strtok VoteProtocol VoteFraming

/-- `none` is a decoder that reads past the end of inBuf. -/
def decode : EncodingFile → List UInt8 → Nat → VoteInfo → Option Decoded
  | .voteEncodingText => VoteEncodingText.decode
  | .voteEncodingBin => fun inBuf mSize v => some (VoteEncodingBin.decode inBuf mSize v)

structure Server where
  counts : Nat → UInt64
  inBuf : List UInt8
  input : Stream
  output : Stream

inductive Halt where
  | stop (how : Stop)
  | overread
  deriving DecidableEq

def process (v : VoteInfo) (counts : Nat → UInt64) : VoteInfo × (Nat → UInt64) :=
  if v.isResponse then (v, counts)
  else
    let v := { v with isResponse := true }
    if 0 ≤ v.candidate ∧ v.candidate ≤ MAX_CANDIDATE then
      let candidate := v.candidate.toNat
      let counts := if v.isInquiry then counts
        else Function.update counts candidate (counts candidate + 1)
      ({ v with count := counts candidate }, counts)
    -- Ignore invalid candidates.
    else (v, counts)

/-- The answer is put together in outBuf, whatever is there. -/
def answer (encoding : EncodingFile) (framer : FramerFile) (outBuf : Nat → UInt8) (v : VoteInfo)
    (s : Server) : Except Halt (Server × Bool) :=
  let (v, counts) := process v s.counts
  match encoding.encoding.encode v MAX_WIRE_SIZE with
  | .error how => .error (.stop how)
  | .ok e =>
      match framer.framer.putMsg (e.message outBuf) s.output with
      | .error how => .error (.stop how)
      | .ok (result, output) =>
          .ok ({ s with counts := counts, output := output }, decide (0 ≤ result))

def turn (encoding : EncodingFile) (framer : FramerFile) (outBuf : Nat → UInt8) (s : Server) :
    Except Halt (Server × Bool) :=
  match framer.framer.getNextMsg MAX_WIRE_SIZE s.input with
  | .error how => .error (.stop how)
  | .ok (r, input) =>
      let s := { s with input := input, inBuf := received r.buf s.inBuf }
      if r.result ≤ 0 then .ok (s, false)
      else
        match decode encoding s.inBuf r.result.toNat zeroed with
        | none => .error .overread
        | some d =>
            let s := { s with inBuf := d.inBuf }
            -- Parse error, closing connection.
            if d.result then answer encoding framer outBuf d.v s else .ok (s, false)

def turns (encoding : EncodingFile) (framer : FramerFile) (outBuf : Nat → UInt8) :
    Nat → Server → Except Halt Server
  | 0, s => .ok s
  | count + 1, s =>
      match turn encoding framer outBuf s with
      | .error halt => .error halt
      | .ok (s, again) => if again then turns encoding framer outBuf count s else .ok s

theorem framer_positive (framer : FramerFile) (bufSize : Nat) (stream rest : Stream) (r : Received)
    (read : framer.framer.getNextMsg bufSize stream = .ok (r, rest)) (some_ : 0 < r.result) :
    r.result.toNat = r.buf.length ∧ r.buf.length ≤ bufSize := by
  cases framer with
  | delimFramer =>
      have counted := DelimFramer.get_next_msg_positive bufSize stream rest r read some_
      omega
  | lengthFramer =>
      have counted := LengthFramer.get_next_msg_positive bufSize stream rest r read some_
      omega

/-! What a decoder makes of a message should not depend on what is behind it. -/

def Determined (encoding : EncodingFile) (message : List UInt8) (mSize : Nat) : Prop :=
  ∃ outcome, ∀ previous, previous.length = MAX_WIRE_SIZE →
    (decode encoding (received message previous) mSize zeroed).map Decoded.outcome = some outcome

/-- The string ends in the message, or the words that a decoder of text needs do. -/
def SelfContained (encoding : EncodingFile) (message : List UInt8) : Prop :=
  encoding = .voteEncodingText → 0 ∈ message ∨
    VoteEncodingText.needed (words space message) ≤ (words space message).length

theorem text_self_contained (message : List UInt8) (mSize : Nat) (v : VoteInfo) :
    SelfContained .voteEncodingText message ↔
      VoteEncodingText.decode message mSize v ≠ none := by
  by_cases ended : 0 ∈ message
  · exact iff_of_true (fun _ => Or.inl ended)
      ((VoteEncodingText.lazy_magic v).terminated ⟨[], message⟩ ended)
  · rw [Ne, VoteEncodingText.decode_none_iff message mSize v ended]
    constructor
    · intro contained
      exact Nat.not_lt.mpr ((contained rfl).resolve_left ended)
    · intro enough _
      exact Or.inr (Nat.not_lt.mp enough)

theorem decode_received (encoding : EncodingFile) (message previous : List UInt8)
    (contained : SelfContained encoding message) :
    ∃ d, decode encoding message message.length zeroed = some d ∧
      (decode encoding (received message previous) message.length zeroed).map Decoded.outcome =
        some d.outcome := by
  cases encoding with
  | voteEncodingText =>
      have found := (text_self_contained message message.length zeroed).mp contained
      obtain ⟨d, decoded⟩ := Option.ne_none_iff_exists'.mp found
      refine ⟨d, decoded, ?_⟩
      have more := (VoteEncodingText.lazy_magic zeroed).append ⟨[], message⟩
        (previous.drop message.length) d decoded
      change (VoteEncodingText.magic zeroed ⟨[], message ++ _⟩).map Decoded.outcome = _
      rw [more]
      rfl
  | voteEncodingBin =>
      refine ⟨_, rfl, ?_⟩
      exact congrArg some (VoteEncodingBin.decode_append message _ zeroed)

def unended : List UInt8 := List.replicate MAX_WIRE_SIZE 120

theorem decode_unended (message : List UInt8)
    (cut : ¬ SelfContained .voteEncodingText message) :
    decode .voteEncodingText (received message unended) message.length zeroed = none := by
  rw [text_self_contained message message.length zeroed, not_not] at cut
  refine (VoteEncodingText.lazy_magic zeroed).past ⟨[], message⟩ _ (fun b member => ?_) cut
  have same := List.eq_of_mem_replicate (List.mem_of_mem_drop member)
  subst b
  decide

theorem decode_determined_iff (encoding : EncodingFile) (framer : FramerFile)
    (stream rest : Stream) (r : Received)
    (read : framer.framer.getNextMsg MAX_WIRE_SIZE stream = .ok (r, rest)) (some_ : 0 < r.result) :
    Determined encoding r.buf r.result.toNat ↔ SelfContained encoding r.buf := by
  rw [(framer_positive framer _ stream rest r read some_).1]
  constructor
  · rintro ⟨outcome, determined⟩
    by_contra cut
    cases encoding with
    | voteEncodingText =>
        have whatever := determined unended (List.length_replicate)
        rw [decode_unended r.buf cut] at whatever
        cases whatever
    | voteEncodingBin =>
        refine cut fun text => ?_
        cases text
  · intro contained
    obtain ⟨d, decoded, -⟩ := decode_received encoding r.buf [] contained
    refine ⟨d.outcome, fun previous _ => ?_⟩
    obtain ⟨same, decoded', outcome⟩ := decode_received encoding r.buf previous contained
    rw [decoded] at decoded'
    rw [outcome, ← Option.some.inj decoded']

def spaced : List UInt8 := bytes "Voting v 7 "

theorem spaced_determined : Determined .voteEncodingText spaced 11 :=
  (decode_determined_iff .voteEncodingText .delimFramer (spaced ++ [newline]) [] (whole spaced)
    (DelimFramer.get_next_msg_delimiter MAX_WIRE_SIZE spaced [] (by decide) (by decide) (by decide))
    (by decide)).mpr fun _ => Or.inr (by decide)

def vote (candidate : Int) : List UInt8 :=
  VoteEncodingText.wire { count := 0, candidate := candidate, isInquiry := false, isResponse := false }

def twoVotes : Server where
  counts := fun _ => 0
  inBuf := List.replicate MAX_WIRE_SIZE 0
  input := vote 99 ++ newline :: (vote 1 ++ [newline])
  output := []

/-- The second vote is counted for 19: its 1 is before the last digit of the first. -/
theorem stale_digit_counted :
    DelimFramer.getNextMsg MAX_WIRE_SIZE (vote 1 ++ [newline]) = .ok (whole (vote 1), []) ∧
    ¬ Determined .voteEncodingText (vote 1) (vote 1).length ∧
    (turns .voteEncodingText .delimFramer (fun _ => 0) 2 twoVotes).toOption.map
      (fun s => (s.counts 99, s.counts 19, s.counts 1)) = some (1, 1, 0) := by
  refine ⟨by decide +kernel, ?_, by decide +kernel⟩
  rintro ⟨outcome, determined⟩
  have whatever := determined unended (List.length_replicate)
  rw [decode_unended (vote 1) (fun contained => absurd (contained rfl) (by decide +kernel))]
    at whatever
  cases whatever

/-! A connection whose messages are all self-contained goes the same way from any
inBuf. -/

def Server.visible (s : Server) : (Nat → UInt64) × Stream × Stream := (s.counts, s.input, s.output)

def AllSelfContained (encoding : EncodingFile) (framer : FramerFile) : Nat → Stream → Prop
  | 0, _ => True
  | count + 1, stream =>
      ∀ r rest, framer.framer.getNextMsg MAX_WIRE_SIZE stream = .ok (r, rest) →
        (0 < r.result → SelfContained encoding r.buf) ∧
          AllSelfContained encoding framer count rest

theorem answer_visible (encoding : EncodingFile) (framer : FramerFile) (outBuf : Nat → UInt8)
    (v : VoteInfo) (s t : Server) (same : s.visible = t.visible) :
    (answer encoding framer outBuf v s).map (fun r => (r.1.visible, r.2)) =
      (answer encoding framer outBuf v t).map fun r => (r.1.visible, r.2) := by
  obtain ⟨counts, inBuf, input, output⟩ := s
  simp only [Server.visible, Prod.mk.injEq] at same
  obtain ⟨rfl, rfl, rfl⟩ := same
  simp only [answer]
  generalize encoding.encoding.encode (process v t.counts).1 MAX_WIRE_SIZE = encoded
  cases encoded with
  | error how => rfl
  | ok e =>
      simp only
      generalize framer.framer.putMsg (e.message outBuf) t.output = written
      cases written <;> rfl

theorem turn_visible (encoding : EncodingFile) (framer : FramerFile) (outBuf : Nat → UInt8)
    (s t : Server) (same : s.visible = t.visible)
    (contained : ∀ r rest, framer.framer.getNextMsg MAX_WIRE_SIZE s.input = .ok (r, rest) →
      0 < r.result → SelfContained encoding r.buf) :
    (turn encoding framer outBuf s).map (fun r => (r.1.visible, r.2)) =
      (turn encoding framer outBuf t).map fun r => (r.1.visible, r.2) := by
  obtain ⟨counts, inBuf, input, output⟩ := s
  simp only [Server.visible, Prod.mk.injEq] at same
  obtain ⟨rfl, rfl, rfl⟩ := same
  rw [turn, turn]
  cases read : framer.framer.getNextMsg MAX_WIRE_SIZE t.input with
  | error how => rfl
  | ok got =>
      obtain ⟨r, rest⟩ := got
      simp only
      by_cases ended : r.result ≤ 0
      · rw [if_pos ended, if_pos ended]
        rfl
      · have some_ : 0 < r.result := by omega
        have size := (framer_positive framer _ _ rest r read some_).1
        -- both decode the same vote, whatever is behind the message in inBuf
        obtain ⟨d, decoded, left⟩ := decode_received encoding r.buf inBuf (contained r rest read some_)
        obtain ⟨d', decoded', right⟩ :=
          decode_received encoding r.buf t.inBuf (contained r rest read some_)
        obtain rfl := Option.some.inj (decoded.symm.trans decoded')
        rw [if_neg ended, if_neg ended, size]
        obtain ⟨first, found, outcome⟩ := Option.map_eq_some_iff.mp left
        obtain ⟨second, found', outcome'⟩ := Option.map_eq_some_iff.mp right
        rw [found, found']
        rw [← outcome', Decoded.outcome, Decoded.outcome] at outcome
        simp only
        by_cases valid : first.result
        · rw [if_pos valid] at outcome ⊢
          split at outcome
          · rename_i also
            rw [if_pos also, Option.some.inj outcome]
            exact answer_visible _ _ _ _ _ _ rfl
          · cases outcome
        · rw [if_neg valid] at outcome ⊢
          split at outcome
          · cases outcome
          · rename_i also
            rw [if_neg also]
            rfl

theorem answer_input (encoding : EncodingFile) (framer : FramerFile) (outBuf : Nat → UInt8)
    (v : VoteInfo) (s after : Server) (again : Bool)
    (ran : answer encoding framer outBuf v s = .ok (after, again)) : after.input = s.input := by
  simp only [answer] at ran
  split at ran
  · cases ran
  · split at ran
    · cases ran
    · cases ran
      rfl

theorem turn_input (encoding : EncodingFile) (framer : FramerFile) (outBuf : Nat → UInt8)
    (s after : Server) (again : Bool) (ran : turn encoding framer outBuf s = .ok (after, again)) :
    ∃ r, framer.framer.getNextMsg MAX_WIRE_SIZE s.input = .ok (r, after.input) := by
  rw [turn] at ran
  split at ran
  · cases ran
  · rename_i r rest read
    refine ⟨r, ?_⟩
    split at ran
    · cases ran
      exact read
    · dsimp only at ran
      split at ran
      · cases ran
      · split at ran
        · rw [answer_input _ _ _ _ _ _ _ ran]
          exact read
        · cases ran
          exact read

theorem turns_visible (encoding : EncodingFile) (framer : FramerFile) (outBuf : Nat → UInt8)
    (count : Nat) (s t : Server) (same : s.visible = t.visible)
    (contained : AllSelfContained encoding framer count s.input) :
    (turns encoding framer outBuf count s).map Server.visible =
      (turns encoding framer outBuf count t).map Server.visible := by
  induction count generalizing s t with
  | zero => simp only [turns, Except.map, same]
  | succ count ih =>
      have step := turn_visible encoding framer outBuf s t same fun r rest read =>
        (contained r rest read).1
      rw [turns, turns]
      cases first : turn encoding framer outBuf s with
      | error halt =>
          cases second : turn encoding framer outBuf t with
          | error other =>
              rw [first, second] at step
              cases step
              rfl
          | ok after =>
              rw [first, second] at step
              cases step
      | ok after =>
          obtain ⟨s', again⟩ := after
          cases second : turn encoding framer outBuf t with
          | error halt =>
              rw [first, second] at step
              cases step
          | ok other =>
              obtain ⟨t', more⟩ := other
              rw [first, second] at step
              simp only [Except.map, Except.ok.injEq, Prod.mk.injEq] at step
              obtain ⟨alike, rfl⟩ := step
              obtain ⟨r, read⟩ := turn_input encoding framer outBuf s s' again first
              cases again with
              | false => simp only [Bool.false_eq_true, ↓reduceIte, Except.map, alike]
              | true => exact ih s' t' alike (contained r s'.input read).2

end NetworkProgramming.VoteServerTCP
