import NetworkProgramming.Blocks

/-!
send and receive of chapter2/2_3_chat_server_with_select.py, between a little-endian peer with
64-bit longs and another: the header is a native long that holds the length of the pickle in
network order. What pickle does is a parameter; a send and a recv move as much as they like.
-/

namespace NetworkProgramming.ChatSelect

open NetworkOrder

structure Pickle where
  /-- dumps(args), where `args` is one string -/
  dumps : String → List UInt8
  /-- loads(buf)[0], if nothing is raised and it is a string -/
  loads : List UInt8 → Option String
  inverse : ∀ text, loads (dumps text) = some text

/-! The sender. -/

def calcsize : Nat := 8

def swap (n : Nat) : Nat := value (toBytes 4 n).reverse

/-- None is the OverflowError of an integer that has more than 32 bits. -/
def htonl (n : Nat) : Option Nat := if n < 2 ^ 32 then some (swap n) else none

def ntohl (n : Nat) : Option Nat := if n < 2 ^ 32 then some (swap n) else none

def pack (n : Nat) : List UInt8 := (toBytes calcsize n).reverse

/-- None is a struct.error. -/
def unpack (bytes : List UInt8) : Option Nat :=
  if bytes.length = calcsize then some (value bytes.reverse) else none

variable (pickle : Pickle)

/-- A call of send, and how much of the header and of the pickle its two sends transmit. -/
structure Message where
  text : String
  size : Nat
  buffer : Nat

def send (m : Message) : Option (List UInt8) :=
  let buffer := pickle.dumps m.text
  (htonl buffer.length).map fun value => (pack value).take m.size ++ buffer.take m.buffer

/-- What a peer sends until it closes: messages, and so many bytes of a last one that it closes
inside. -/
structure Sender where
  messages : List Message
  inside : Option (String × Nat)

def tail : Option (String × Nat) → List UInt8
  | none => []
  | some (text, count) =>
      let buffer := pickle.dumps text
      ((htonl buffer.length).map fun value => (pack value ++ buffer).take count).getD []

/-- An OverflowError ends the sender. -/
def wire (inside : Option (String × Nat)) : List Message → List UInt8
  | [] => tail pickle inside
  | m :: rest => match send pickle m with
      | none => []
      | some bytes => bytes ++ wire inside rest

/-! The receiver. -/

variable (chosen : Nat → Nat)

inductive Outcome where
  | text (s : String)
  /-- an exception, or an object that is no string -/
  | other
  deriving DecidableEq

def recv (n : Nat) (stream : List UInt8) : List UInt8 × List UInt8 :=
  Blocks.recv chosen n stream

/-- while len(buf) < size. -/
def body : Nat → Nat → List UInt8 → List UInt8 → Option (List UInt8 × List UInt8)
  | 0, _, _, _ => none
  | fuel + 1, size, buf, stream =>
      if buf.length < size then
        let (got, left) := recv chosen (size - buf.length) stream
        body fuel size (buf ++ got) left
      else some (buf, stream)

def loaded (buf : List UInt8) : Outcome :=
  match pickle.loads buf with
  | some text => .text text
  | none => .other

def receive (fuel : Nat) (stream : List UInt8) : Option (Outcome × List UInt8) :=
  let (header, left) := recv chosen calcsize stream
  match unpack header with
  | none => some (.text "", left)
  | some packed => match ntohl packed with
      | none => some (.other, left)
      | some size => (body chosen fuel size [] left).map fun (buf, left) => (loaded pickle buf, left)

def receives (fuel : Nat) (stream : List UInt8) : Nat → Option (List Outcome × List UInt8)
  | 0 => some ([], stream)
  | count + 1 => match receives fuel stream count with
      | none => none
      | some (outcomes, left) =>
          (receive pickle chosen fuel left).map fun (outcome, left) => (outcomes ++ [outcome], left)

/-- The strings come back in order, after them empty ones if the peer has not closed inside a
message, and each receive returns. -/
def Transported (sender : Sender) : Prop :=
  ∀ count, ∃ fuel outcomes left,
    receives pickle chosen fuel (wire pickle sender.inside sender.messages) count =
        some (outcomes, left) ∧
      outcomes.take sender.messages.length =
        (sender.messages.map fun m => Outcome.text m.text).take count ∧
      (sender.inside = none → ∀ o ∈ outcomes.drop sender.messages.length, o = .text "")

def Starved (stream : List UInt8) : Prop :=
  ∃ packed size, unpack (recv chosen calcsize stream).1 = some packed ∧ ntohl packed = some size ∧
    (recv chosen calcsize stream).2.length < size

def Message.Whole (m : Message) : Prop :=
  calcsize ≤ m.size ∧ (pickle.dumps m.text).length ≤ m.buffer

structure Carried (sender : Sender) : Prop where
  whole : ∀ m ∈ sender.messages, m.Whole pickle
  fits : ∀ m ∈ sender.messages, (pickle.dumps m.text).length < 2 ^ 32
  /-- the recv at the head of each message returns the whole header -/
  headers : ∀ pre m post, sender.messages = pre ++ m :: post →
    calcsize ≤ chosen (wire pickle sender.inside (m :: post)).length + 1
  ends : ∀ fuel count outcomes stream,
    receives pickle chosen fuel (tail pickle sender.inside) count = some (outcomes, stream) →
    ¬ Starved chosen stream

/-! The header. -/

theorem swap_lt (n : Nat) : swap n < 2 ^ 32 := by
  have bytes := value_to_bytes 4 (swap n)
  have same : toBytes 4 (swap n) = (toBytes 4 n).reverse := by
    have back := to_bytes_value (toBytes 4 n).reverse
    rwa [List.length_reverse, to_bytes_length] at back
  rw [same] at bytes
  have small : swap n = swap n % 256 ^ 4 := bytes
  omega

theorem swap_swap (n : Nat) (small : n < 2 ^ 32) : swap (swap n) = n := by
  have back := to_bytes_value (toBytes 4 n).reverse
  rw [List.length_reverse, to_bytes_length] at back
  rw [swap, swap, back, List.reverse_reverse, value_to_bytes]
  exact Nat.mod_eq_of_lt small

theorem pack_length (n : Nat) : (pack n).length = calcsize := by
  rw [pack, List.length_reverse, to_bytes_length]

theorem unpack_pack (n : Nat) (small : n < 2 ^ 32) : unpack (pack n) = some n := by
  rw [unpack, if_pos (pack_length n), pack, List.reverse_reverse, value_to_bytes]
  exact congrArg some (Nat.mod_eq_of_lt (Nat.lt_of_lt_of_le small (by decide)))

/-! One receive, without the turns of its loop. -/

theorem recv_eq (n : Nat) (stream : List UInt8) : recv chosen n stream =
    (stream.take (min n (chosen stream.length + 1)),
      stream.drop (min n (chosen stream.length + 1))) := by
  rw [recv, Blocks.recv, List.splitAt_eq]

theorem body_ends {fuel size : Nat} (buf : List UInt8) {stream : List UInt8}
    (enough : size ≤ buf.length + stream.length)
    (within : buf.length ≤ size) (fuelled : stream.length < fuel) :
    body chosen fuel size buf stream = some (buf ++ stream.take (size - buf.length),
      stream.drop (size - buf.length)) := by
  induction fuel generalizing buf stream with
  | zero => omega
  | succ fuel ih =>
      rw [body]
      by_cases more : buf.length < size
      · rw [if_pos more, recv_eq]
        obtain ⟨portion, same⟩ :
            ∃ portion, min (size - buf.length) (chosen stream.length + 1) = portion := ⟨_, rfl⟩
        rw [same]
        have got : (stream.take portion).length = min portion stream.length := List.length_take
        dsimp only
        rw [ih _ (by rw [List.length_append, got, List.length_drop]; omega)
          (by rw [List.length_append, got]; omega) (by rw [List.length_drop]; omega)]
        -- what the next turns still have to read
        have split : size - buf.length = min portion stream.length +
            (size - (buf ++ stream.take portion).length) := by
          rw [List.length_append, got]
          omega
        have left : stream.drop portion = stream.drop (min portion stream.length) :=
          List.drop_eq_drop_iff.mpr (by omega)
        rw [split, List.take_add, List.append_assoc, ← List.drop_drop, ← left,
          ← List.take_eq_take_min]
      · have all : size - buf.length = 0 := by omega
        rw [if_neg more, all, List.take_zero, List.append_nil, List.drop_zero]

theorem body_starves (fuel : Nat) {size : Nat} (buf : List UInt8) {stream : List UInt8}
    (short : buf.length + stream.length < size) : body chosen fuel size buf stream = none := by
  induction fuel generalizing buf stream with
  | zero => rfl
  | succ fuel ih =>
      rw [body, if_pos (by omega), recv_eq]
      refine ih _ ?_
      rw [List.length_append, List.length_take, List.length_drop]
      omega

variable {chosen}

theorem body_longer {fuel size : Nat} (more : Nat) {buf stream : List UInt8}
    {result : List UInt8 × List UInt8} (ended : body chosen fuel size buf stream = some result) :
    body chosen (fuel + more) size buf stream = some result := by
  induction fuel generalizing buf stream with
  | zero => cases ended
  | succ fuel ih =>
      rw [body] at ended
      rw [Nat.succ_add, body]
      split at ended
      · rename_i going
        rw [if_pos going]
        exact ih ended
      · rename_i complete
        rw [if_neg complete]
        exact ended

variable (chosen)

def took (stream : List UInt8) : Outcome × List UInt8 :=
  let (header, left) := recv chosen calcsize stream
  match unpack header with
  | none => (.text "", left)
  | some packed => match ntohl packed with
      | none => (.other, left)
      | some size => (loaded pickle (left.take size), left.drop size)

def taken (stream : List UInt8) : Nat → List Outcome × List UInt8
  | 0 => ([], stream)
  | count + 1 =>
      let (outcomes, left) := taken stream count
      (outcomes ++ [(took pickle chosen left).1], (took pickle chosen left).2)

variable {pickle chosen}

theorem receive_took {fuel : Nat} {stream : List UInt8} (fed : ¬ Starved chosen stream)
    (fuelled : stream.length < fuel) :
    receive pickle chosen fuel stream = some (took pickle chosen stream) := by
  rw [receive, took]
  cases unpacked : unpack (recv chosen calcsize stream).1 with
  | none => simp only [unpacked]
  | some packed =>
      cases swapped : ntohl packed with
      | none => simp only [unpacked, swapped]
      | some size =>
          have enough : size ≤ (recv chosen calcsize stream).2.length :=
            Nat.le_of_not_lt fun short => fed ⟨packed, size, unpacked, swapped, short⟩
          have within : (recv chosen calcsize stream).2.length ≤ stream.length := by
            rw [recv_eq, List.length_drop]
            omega
          have ends := body_ends chosen [] (by simpa using enough)
            (Nat.zero_le size) (Nat.lt_of_le_of_lt within fuelled)
          simp only [unpacked, swapped, ends, List.nil_append, List.length_nil, Nat.sub_zero,
            Option.map_some]

theorem receive_starves (fuel : Nat) {stream : List UInt8} (starved : Starved chosen stream) :
    receive pickle chosen fuel stream = none := by
  obtain ⟨packed, size, unpacked, swapped, short⟩ := starved
  have never := body_starves chosen fuel [] (by simpa using short)
  simp only [receive, unpacked, swapped, never, Option.map_none]

theorem receive_longer {fuel : Nat} (more : Nat) {stream : List UInt8}
    {result : Outcome × List UInt8} (got : receive pickle chosen fuel stream = some result) :
    receive pickle chosen (fuel + more) stream = some result := by
  simp only [receive] at got ⊢
  split at got
  · exact got
  · split at got
    · exact got
    · obtain ⟨ended, looped, rfl⟩ := Option.map_eq_some_iff.mp got
      rw [body_longer more looped]
      rfl

theorem took_of_receive {fuel : Nat} {stream : List UInt8} {result : Outcome × List UInt8}
    (got : receive pickle chosen fuel stream = some result) :
    ¬ Starved chosen stream ∧ result = took pickle chosen stream := by
  have fed : ¬ Starved chosen stream := fun starved => by
    rw [receive_starves fuel starved] at got
    cases got
  have longer := receive_longer (stream.length + 1) got
  rw [receive_took fed (by omega)] at longer
  exact ⟨fed, (Option.some.inj longer).symm⟩

theorem took_length (stream : List UInt8) :
    (took pickle chosen stream).2.length ≤ stream.length := by
  rw [took, recv_eq]
  dsimp only
  have dropped (n : Nat) : (stream.drop n).length ≤ stream.length := by
    rw [List.length_drop]
    exact Nat.sub_le _ _
  split
  · exact dropped _
  · split
    · exact dropped _
    · rw [List.drop_drop]
      exact dropped _

theorem taken_length (stream : List UInt8) (count : Nat) :
    (taken pickle chosen stream count).2.length ≤ stream.length := by
  induction count with
  | zero => exact Nat.le_refl _
  | succ count ih => exact Nat.le_trans (took_length _) ih

theorem receives_taken {fuel : Nat} {stream : List UInt8} (fuelled : stream.length < fuel)
    {count : Nat}
    (fed : ∀ i < count, ¬ Starved chosen (taken pickle chosen stream i).2) :
    receives pickle chosen fuel stream count = some (taken pickle chosen stream count) := by
  induction count with
  | zero => rfl
  | succ count ih =>
      have earlier := ih fun i before => fed i (Nat.lt_succ_of_lt before)
      have last : receive pickle chosen fuel (taken pickle chosen stream count).2 =
          some (took pickle chosen (taken pickle chosen stream count).2) :=
        receive_took (fed count (Nat.lt_succ_self count))
        (Nat.lt_of_le_of_lt (taken_length stream count) fuelled)
      simp only [receives, earlier, last, Option.map_some, taken]

theorem taken_of_receives {fuel count : Nat} {stream : List UInt8} {outcomes : List Outcome}
    {left : List UInt8} (got : receives pickle chosen fuel stream count = some (outcomes, left)) :
    (∀ i < count, ¬ Starved chosen (taken pickle chosen stream i).2) ∧
      (outcomes, left) = taken pickle chosen stream count := by
  induction count generalizing outcomes left with
  | zero =>
      cases got
      exact ⟨fun i below => absurd below (Nat.not_lt_zero i), rfl⟩
  | succ count ih =>
      rw [receives] at got
      cases earlier : receives pickle chosen fuel stream count with
      | none => simp [earlier] at got
      | some r =>
          obtain ⟨before, same⟩ := ih (earlier.trans rfl : _ = some (r.1, r.2))
          simp only [earlier] at got
          obtain ⟨last, received, appended⟩ := Option.map_eq_some_iff.mp got
          obtain ⟨fed, rfl⟩ := took_of_receive received
          rw [taken, ← same, ← appended]
          refine ⟨fun i below => ?_, rfl⟩
          rcases Nat.lt_succ_iff_lt_or_eq.mp below with old | rfl
          · exact before i old
          · rw [← same]
            exact fed

theorem taken_cons (stream : List UInt8) (count : Nat) : taken pickle chosen stream (count + 1) =
    ((took pickle chosen stream).1 :: (taken pickle chosen (took pickle chosen stream).2 count).1,
      (taken pickle chosen (took pickle chosen stream).2 count).2) := by
  induction count with
  | zero => rfl
  | succ count ih =>
      rw [taken, ih]
      rfl

def Comes (pickle : Pickle) (chosen : Nat → Nat) (texts : List String) (silent : Prop)
    (stream : List UInt8) : Prop :=
  ∀ count, ¬ Starved chosen (taken pickle chosen stream count).2 ∧
    (taken pickle chosen stream count).1.take texts.length = (texts.map Outcome.text).take count ∧
    (silent → ∀ o ∈ (taken pickle chosen stream count).1.drop texts.length, o = .text "")

theorem transported_iff_comes (sender : Sender) : Transported pickle chosen sender ↔
    Comes pickle chosen (sender.messages.map Message.text) (sender.inside = none)
      (wire pickle sender.inside sender.messages) := by
  have texts : (sender.messages.map Message.text).map Outcome.text =
      sender.messages.map fun m => Outcome.text m.text := List.map_map
  rw [Comes, texts, List.length_map]
  constructor
  · intro transported count
    obtain ⟨fuel, outcomes, left, got, same, rest⟩ := transported count
    obtain ⟨-, run⟩ := taken_of_receives got
    obtain ⟨fuel', outcomes', left', next, -⟩ := transported (count + 1)
    rw [← run]
    refine ⟨?_, same, rest⟩
    have fed := (taken_of_receives next).1 count (Nat.lt_succ_self count)
    rwa [← run] at fed
  · intro comes count
    obtain ⟨-, same, rest⟩ := comes count
    exact ⟨_, _, _, receives_taken (Nat.lt_succ_self _) fun i _ => (comes i).1, same, rest⟩

theorem comes_cons {text : String} {texts : List String} {silent : Prop} {stream : List UInt8} :
    Comes pickle chosen (text :: texts) silent stream ↔ ¬ Starved chosen stream ∧
      (took pickle chosen stream).1 = .text text ∧
      Comes pickle chosen texts silent (took pickle chosen stream).2 := by
  constructor
  · intro comes
    have first := (comes 1).2.1
    have now : (took pickle chosen stream).1 = .text text := by simpa [taken] using first
    refine ⟨(comes 0).1, now, fun count => ?_⟩
    obtain ⟨fed, same, rest⟩ := comes (count + 1)
    rw [taken_cons] at fed same rest
    refine ⟨fed, ?_, ?_⟩
    · simpa [now] using same
    · simpa using rest
  · rintro ⟨fed, now, later⟩ count
    cases count with
    | zero => exact ⟨fed, by simp [taken], by simp [taken]⟩
    | succ count =>
        obtain ⟨fed, same, rest⟩ := later count
        rw [taken_cons]
        exact ⟨fed, by simpa [now] using same, by simpa using rest⟩

/-! The receive at the head of a message. -/

def frame (pickle : Pickle) (text : String) : List UInt8 :=
  pack (swap (pickle.dumps text).length) ++ pickle.dumps text

theorem send_whole {m : Message} (whole : m.Whole pickle)
    (fits : (pickle.dumps m.text).length < 2 ^ 32) :
    send pickle m = some (frame pickle m.text) := by
  have header : calcsize ≤ m.size := whole.1
  rw [← pack_length (swap (pickle.dumps m.text).length)] at header
  simp only [send, htonl, if_pos fits, Option.map_some, frame, List.take_of_length_le header,
    List.take_of_length_le whole.2]

theorem send_overflows {m : Message} (large : ¬ (pickle.dumps m.text).length < 2 ^ 32) :
    send pickle m = none := by
  simp only [send, htonl, if_neg large, Option.map_none]

theorem took_frame {text : String} {left : List UInt8} (fits : (pickle.dumps text).length < 2 ^ 32)
    (header : calcsize ≤ chosen (frame pickle text ++ left).length + 1) :
    ¬ Starved chosen (frame pickle text ++ left) ∧
      took pickle chosen (frame pickle text ++ left) = (.text text, left) := by
  have got : recv chosen calcsize (frame pickle text ++ left) =
      (pack (swap (pickle.dumps text).length), pickle.dumps text ++ left) := by
    rw [recv_eq, Nat.min_eq_left header, frame, List.append_assoc,
      ← pack_length (swap (pickle.dumps text).length), List.take_left, List.drop_left]
  have swapped : ntohl (swap (pickle.dumps text).length) = some (pickle.dumps text).length := by
    rw [ntohl, if_pos (swap_lt _), swap_swap _ fits]
  have unpacked := unpack_pack (swap (pickle.dumps text).length) (swap_lt _)
  constructor
  · rintro ⟨packed, size, found, decoded, short⟩
    rw [got] at found short
    cases unpacked.symm.trans found
    cases swapped.symm.trans decoded
    rw [List.length_append] at short
    exact absurd short (by omega)
  · simp only [took, got, unpacked, swapped, List.take_left, List.drop_left, loaded, pickle.inverse]

/-- Less than a header at once: the receive takes it for the end. -/
theorem took_short (pickle : Pickle) {stream : List UInt8}
    (short : (recv chosen calcsize stream).1.length < calcsize) :
    took pickle chosen stream = (.text "", (recv chosen calcsize stream).2) := by
  have refused : unpack (recv chosen calcsize stream).1 = none := by
    rw [unpack, if_neg (Nat.ne_of_lt short)]
  simp only [took, refused]

theorem taken_nil (count : Nat) : (taken pickle chosen [] count).2 = [] ∧
    ∀ o ∈ (taken pickle chosen [] count).1, o = .text "" := by
  induction count with
  | zero => exact ⟨rfl, by simp [taken]⟩
  | succ count ih =>
      have silent : took pickle chosen [] = (.text "", []) := by
        rw [took_short pickle (by simp [recv_eq, calcsize]), recv_eq, List.drop_nil]
      rw [taken_cons, silent]
      exact ⟨ih.1, List.forall_mem_cons.mpr ⟨rfl, ih.2⟩⟩

theorem comes_tail (inside : Option (String × Nat)) :
    Comes pickle chosen [] (inside = none) (tail pickle inside) ↔
      ∀ fuel count outcomes stream,
        receives pickle chosen fuel (tail pickle inside) count = some (outcomes, stream) →
        ¬ Starved chosen stream := by
  constructor
  · intro comes fuel count outcomes stream got
    have fed := (comes count).1
    rwa [← (taken_of_receives got).2] at fed
  · intro ends count
    have fed : ∀ count, ¬ Starved chosen (taken pickle chosen (tail pickle inside) count).2 := by
      intro count
      induction count using Nat.strongRecOn with
      | ind count ih => exact ends _ count _ _ (receives_taken (Nat.lt_succ_self _) ih)
    refine ⟨fed count, by simp, ?_⟩
    rintro rfl o member
    exact (taken_nil count).2 o member

theorem split_cons {α : Type} {first : α} {others : List α} {P : α → List α → Prop} :
    (∀ pre m post, first :: others = pre ++ m :: post → P m post) ↔
      P first others ∧ ∀ pre m post, others = pre ++ m :: post → P m post := by
  constructor
  · intro all
    exact ⟨all [] first others rfl,
      fun pre m post same => all (first :: pre) m post (by rw [same]; rfl)⟩
  · rintro ⟨now, later⟩ pre m post same
    cases pre with
    | nil =>
        cases same
        exact now
    | cons other pre =>
        cases same
        exact later pre m post rfl

theorem comes_wire {inside : Option (String × Nat)} {messages : List Message}
    (nonempty : ∀ m ∈ messages, m.text ≠ "") (whole : ∀ m ∈ messages, m.Whole pickle) :
    Comes pickle chosen (messages.map Message.text) (inside = none) (wire pickle inside messages) ↔
      (∀ m ∈ messages, (pickle.dumps m.text).length < 2 ^ 32) ∧
      (∀ pre m post, messages = pre ++ m :: post →
        calcsize ≤ chosen (wire pickle inside (m :: post)).length + 1) ∧
      Comes pickle chosen [] (inside = none) (tail pickle inside) := by
  induction messages with
  | nil => simp [wire]
  | cons m messages ih =>
      obtain ⟨said, others⟩ := List.forall_mem_cons.mp nonempty
      obtain ⟨here, later⟩ := List.forall_mem_cons.mp whole
      have rest := ih others later
      rw [List.map_cons, comes_cons, List.forall_mem_cons,
        split_cons (P := fun m post => calcsize ≤ chosen (wire pickle inside (m :: post)).length + 1)]
      by_cases fits : (pickle.dumps m.text).length < 2 ^ 32
      · have sent : wire pickle inside (m :: messages) =
            frame pickle m.text ++ wire pickle inside messages := by
          rw [wire, send_whole here fits]
        by_cases header : calcsize ≤ chosen (wire pickle inside (m :: messages)).length + 1
        · have ahead := header
          rw [sent] at ahead
          have came := took_frame fits ahead
          rw [← sent] at came
          rw [came.2, rest]
          constructor
          · rintro ⟨-, -, small, headers, ends⟩
            exact ⟨⟨fits, small⟩, ⟨header, headers⟩, ends⟩
          · rintro ⟨⟨-, small⟩, ⟨-, headers⟩, ends⟩
            exact ⟨came.1, rfl, small, headers, ends⟩
        · -- the header comes in parts, and the first of them is taken for the end
          have few : (recv chosen calcsize (wire pickle inside (m :: messages))).1.length <
              calcsize := by
            rw [recv_eq, List.length_take]
            omega
          have cut := took_short pickle few
          constructor
          · rintro ⟨-, now, -⟩
            rw [cut] at now
            exact absurd (Outcome.text.inj now).symm said
          · exact fun ⟨_, ⟨whole, _⟩, _⟩ => absurd whole header
      · -- the sender has raised, and the stream ends here
        have sent : wire pickle inside (m :: messages) = [] := by
          rw [wire, send_overflows fits]
        have few : (recv chosen calcsize []).1.length < calcsize := by simp [recv_eq, calcsize]
        have cut := took_short pickle few
        constructor
        · rintro ⟨-, now, -⟩
          rw [sent, cut] at now
          exact absurd (Outcome.text.inj now).symm said
        · exact fun ⟨⟨small, _⟩, _⟩ => absurd small fits

/-! Sends that transmit less than everything, counted. -/

theorem took_text {text : String} {stream : List UInt8} (said : text ≠ "")
    (fed : ¬ Starved chosen stream) (got : (took pickle chosen stream).1 = .text text) :
    ∃ buf, stream.length = calcsize + buf.length + (took pickle chosen stream).2.length ∧
      pickle.loads buf = some text ∧ buf <:+: stream ∧ (took pickle chosen stream).2 <:+ stream := by
  cases unpacked : unpack (recv chosen calcsize stream).1 with
  | none =>
      simp only [took, unpacked] at got
      exact absurd (Outcome.text.inj got).symm said
  | some packed =>
      have header : (recv chosen calcsize stream).1.length = calcsize := by
        rw [unpack] at unpacked
        by_contra short
        rw [if_neg short] at unpacked
        cases unpacked
      have split : (recv chosen calcsize stream).1 ++ (recv chosen calcsize stream).2 = stream := by
        rw [recv_eq, List.take_append_drop]
      cases swapped : ntohl packed with
      | none =>
          simp only [took, unpacked, swapped] at got
          cases got
      | some size =>
          simp only [took, unpacked, swapped] at got ⊢
          have enough : size ≤ (recv chosen calcsize stream).2.length :=
            Nat.le_of_not_lt fun short => fed ⟨packed, size, unpacked, swapped, short⟩
          have behind : (recv chosen calcsize stream).2 <:+ stream := ⟨_, split⟩
          refine ⟨(recv chosen calcsize stream).2.take size, ?_, ?_,
            (List.take_prefix _ _).isInfix.trans behind.isInfix,
            (List.drop_suffix _ _).trans behind⟩
          · have lengths := congrArg List.length split
            rw [List.length_append, header] at lengths
            rw [List.length_take, List.length_drop]
            omega
          · rw [loaded] at got
            split at got
            · rename_i found loads
              rw [loads, Outcome.text.inj got]
            · cases got

def due (pickle : Pickle) : List Message → Nat
  | [] => 0
  | m :: messages => calcsize + (pickle.dumps m.text).length + due pickle messages

theorem comes_due {messages : List Message} {silent : Prop} {stream : List UInt8}
    (nonempty : ∀ m ∈ messages, m.text ≠ "")
    (honest : ∀ m ∈ messages, ∀ buf, buf <:+: stream → pickle.loads buf = some m.text →
      (pickle.dumps m.text).length ≤ buf.length)
    (comes : Comes pickle chosen (messages.map Message.text) silent stream) :
    due pickle messages ≤ stream.length := by
  induction messages generalizing stream with
  | nil => exact Nat.zero_le _
  | cons m messages ih =>
      obtain ⟨said, others⟩ := List.forall_mem_cons.mp nonempty
      obtain ⟨here, later⟩ := List.forall_mem_cons.mp honest
      obtain ⟨fed, now, rest⟩ := comes_cons.mp comes
      obtain ⟨buf, lengths, loads, within, behind⟩ := took_text said fed now
      -- no string has come out of fewer bytes than its pickle has
      have least := here buf within loads
      have more := ih others
        (fun m member buf part => later m member buf (part.trans behind.isInfix)) rest
      rw [due]
      omega

theorem send_length {m : Message} {bytes : List UInt8} (sent : send pickle m = some bytes) :
    bytes.length = min m.size calcsize + min m.buffer (pickle.dumps m.text).length := by
  obtain ⟨value, -, rfl⟩ := Option.map_eq_some_iff.mp sent
  rw [List.length_append, List.length_take, List.length_take, pack_length]

theorem wire_length (pickle : Pickle) (messages : List Message) :
    (wire pickle none messages).length ≤ due pickle messages := by
  induction messages with
  | nil => exact Nat.le_refl 0
  | cons m messages ih =>
      rw [wire, due]
      cases sent : send pickle m with
      | none => exact Nat.zero_le _
      | some bytes =>
          have size := send_length sent
          dsimp only
          rw [List.length_append]
          omega

theorem wire_whole {messages : List Message}
    (all : due pickle messages ≤ (wire pickle none messages).length) :
    ∀ m ∈ messages, m.Whole pickle := by
  induction messages with
  | nil => exact List.forall_mem_nil _
  | cons m messages ih =>
      have later := wire_length pickle messages
      rw [wire, due] at all
      cases sent : send pickle m with
      | none =>
          rw [sent, calcsize] at all
          exact absurd all (by simp)
      | some bytes =>
          have size := send_length sent
          rw [sent] at all
          dsimp only at all
          rw [List.length_append] at all
          exact List.forall_mem_cons.mpr ⟨⟨by omega, by omega⟩, ih (by omega)⟩

/-! Both sides. -/

/-- Other bytes may be taken for what a send has left out: those of a message that the peer closes
inside, if they are enough for all that is due, or fewer than the pickle of a string that load to
the string. -/
def StandIn (pickle : Pickle) (sender : Sender) : Prop :=
  (sender.inside ≠ none ∧
    due pickle sender.messages ≤ (wire pickle sender.inside sender.messages).length) ∨
  ∃ m ∈ sender.messages, ∃ buf, buf <:+: wire pickle sender.inside sender.messages ∧
    buf.length < (pickle.dumps m.text).length ∧ pickle.loads buf = some m.text

theorem transported_iff_carried {sender : Sender} (nonempty : ∀ m ∈ sender.messages, m.text ≠ "")
    (whole : ∀ m ∈ sender.messages, m.Whole pickle) :
    Transported pickle chosen sender ↔ Carried pickle chosen sender := by
  rw [transported_iff_comes, comes_wire nonempty whole, comes_tail]
  constructor
  · rintro ⟨fits, headers, ends⟩
    exact ⟨whole, fits, headers, ends⟩
  · rintro ⟨-, fits, headers, ends⟩
    exact ⟨fits, headers, ends⟩

theorem whole_of_transported {sender : Sender} (nonempty : ∀ m ∈ sender.messages, m.text ≠ "")
    (transported : Transported pickle chosen sender) (alone : ¬ StandIn pickle sender) :
    ∀ m ∈ sender.messages, m.Whole pickle := by
  obtain ⟨messages, inside⟩ := sender
  obtain ⟨closed, honest⟩ := not_or.mp alone
  have enough : due pickle messages ≤ (wire pickle inside messages).length := by
    refine comes_due nonempty ?_ ((transported_iff_comes _).mp transported)
    intro m member buf within loads
    by_contra fewer
    exact honest ⟨m, member, buf, within, Nat.lt_of_not_le fewer, loads⟩
  cases inside with
  | some message => exact absurd ⟨by simp, enough⟩ closed
  | none => exact wire_whole enough

/-- Exactly when the strings come through, but for sends that leave something out and are made
good by other bytes. -/
theorem objects_transported_iff (pickle : Pickle) (chosen : Nat → Nat) (sender : Sender)
    (nonempty : ∀ m ∈ sender.messages, m.text ≠ "") :
    (Carried pickle chosen sender → Transported pickle chosen sender) ∧
      (Transported pickle chosen sender → Carried pickle chosen sender ∨
        (∃ m ∈ sender.messages, ¬ m.Whole pickle) ∧ StandIn pickle sender) := by
  constructor
  · exact fun carried => (transported_iff_carried nonempty carried.whole).mpr carried
  · intro transported
    by_cases whole : ∀ m ∈ sender.messages, m.Whole pickle
    · exact Or.inl ((transported_iff_carried nonempty whole).mp transported)
    · refine Or.inr ⟨by simpa using whole, ?_⟩
      by_contra alone
      exact whole (whole_of_transported nonempty transported alone)

/-- Protocol 4 of a tuple of one string of 1 to 255 bytes: the frame and its length, the string
and its length, memoized, and the tuple. -/
def protocol4 : Pickle where
  dumps text :=
    [0x80, 4, 0x95] ++ (toBytes 8 (text.toUTF8.data.toList.length + 6)).reverse ++
      [0x8c, UInt8.ofNat text.toUTF8.data.toList.length] ++ text.toUTF8.data.toList ++
      [0x94, 0x85, 0x94, 0x2e]
  loads buf :=
    String.fromUTF8? ⟨((buf.drop 13).take (buf.length - 17)).toArray⟩
  inverse text := by
    have head (n : Nat) (b : UInt8) :
        ([0x80, 4, 0x95] ++ (toBytes 8 n).reverse ++ [0x8c, b]).length = 13 := by
      simp
    have size : ([0x80, 4, 0x95] ++ (toBytes 8 (text.toUTF8.data.toList.length + 6)).reverse ++
        [0x8c, UInt8.ofNat text.toUTF8.data.toList.length] ++ text.toUTF8.data.toList ++
        [0x94, 0x85, 0x94, 0x2e]).length - 17 = text.toUTF8.data.toList.length := by
      rw [List.length_append, List.length_append, head]
      simp
    rw [size, List.append_assoc _ text.toUTF8.data.toList, ← head _ _, List.drop_left,
      List.take_left, Array.toArray_toList]
    exact dif_pos text.isValidUTF8

def greeting : Sender := ⟨[⟨"hi", 8, 19⟩], none⟩

theorem greeting_nonempty : ∀ m ∈ greeting.messages, m.text ≠ "" := by
  simp [greeting]

theorem greeting_whole : ∀ m ∈ greeting.messages, m.Whole protocol4 := by
  rw [greeting, List.forall_mem_singleton]
  exact ⟨Nat.le_refl 8, by decide +kernel⟩

theorem greeting_transported : Transported protocol4 (fun _ => 7) greeting := by
  refine (objects_transported_iff protocol4 (fun _ => 7) greeting greeting_nonempty).1
    ⟨greeting_whole, ?_, fun _ _ _ _ => Nat.le_refl _, ?_⟩
  · rw [greeting, List.forall_mem_singleton]
    decide +kernel
  · intro fuel count outcomes stream got
    have left := (taken_of_receives got).2
    have empty : stream = [] := (congrArg Prod.snd left).trans (taken_nil count).1
    rintro ⟨packed, size, found, -⟩
    rw [empty, recv_eq, List.take_nil] at found
    cases found

theorem objects_not_transported : (∀ m ∈ greeting.messages, m.text ≠ "" ∧ m.Whole protocol4) ∧
    ¬ Transported protocol4 (fun _ => 0) greeting := by
  refine ⟨fun m member => ⟨greeting_nonempty m member, greeting_whole m member⟩, ?_⟩
  intro transported
  have carried := (transported_iff_carried greeting_nonempty greeting_whole).mp transported
  have header := carried.headers [] _ [] rfl
  exact absurd header (by decide)

end NetworkProgramming.ChatSelect
