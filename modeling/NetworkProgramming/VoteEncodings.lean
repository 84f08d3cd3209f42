import NetworkProgramming.VoteServerTCP

/-!
VoteEncoding.h with either of its two files: what Decode makes of what Encode has
written, and where Encode writes.
-/

namespace NetworkProgramming.VoteEncodings

open CText LinearBuffer VoteProtocol VoteFraming VoteServerTCP

/-! There and back. -/

def roundTrip (encoding : EncodingFile) (v old : VoteInfo) : Option VoteInfo :=
  match encoding.encoding.encode v MAX_WIRE_SIZE with
  | .error _ => none
  | .ok e =>
      (decode encoding (load (e.stores.after fun _ => 0) 0 MAX_WIRE_SIZE) e.size old).bind
        Decoded.outcome

/-- A count that strtoll has room for, and the count of a request left at zero. -/
def Returned (v old : VoteInfo) : EncodingFile → Prop
  | .voteEncodingText => v.isResponse = true → v.count.toNat < 2 ^ 63
  | .voteEncodingBin => v.isResponse = false → old.count = 0

theorem text_returned (v old : VoteInfo) (valid : v.Valid) :
    roundTrip .voteEncodingText v old =
      some { v with count := if v.isResponse then VoteEncodingText.parsed v.count else 0 } := by
  let cells := (VoteEncodingText.encode v MAX_WIRE_SIZE).stores.after fun _ => 0
  have short := VoteEncodingText.wire_length v valid
  have size : MAX_WIRE_SIZE = ((VoteEncodingText.wire v).length + 1) +
      (MAX_WIRE_SIZE - ((VoteEncodingText.wire v).length + 1)) := by
    rw [MAX_WIRE_SIZE]
    omega
  -- The NUL that snprintf stores is where the message ends.
  have text : load cells 0 ((VoteEncodingText.wire v).length + 1) =
      VoteEncodingText.wire v ++ [0] := by
    have stored := load_store (fun _ => 0) 0 (VoteEncodingText.wire v ++ [0])
    rw [List.length_append, List.length_singleton] at stored
    rw [← stored]
    exact congrArg (load · 0 _) (VoteEncodingText.encode_stores v valid _)
  have whole : ∃ tail, load cells 0 MAX_WIRE_SIZE = VoteEncodingText.wire v ++ 0 :: tail := by
    rw [size, load_add, text, List.append_assoc]
    exact ⟨_, rfl⟩
  obtain ⟨tail, whole⟩ := whole
  change (VoteEncodingText.decode (load cells 0 MAX_WIRE_SIZE)
    (VoteEncodingText.encode v MAX_WIRE_SIZE).size old).bind Decoded.outcome = _
  rw [whole, VoteEncodingText.decode_wire v old valid]

theorem bin_returned (v old : VoteInfo) (valid : v.Valid) :
    roundTrip .voteEncodingBin v old =
      some { v with count := if v.isResponse then v.count else old.count } := by
  obtain ⟨e, encoded, message⟩ := VoteEncodingBin.encode_message v fun _ => 0
  have sized : e.size = (VoteEncodingBin.wire v).length := by
    rw [← message, Encoded.message, load_length]
  have short := VoteEncodingBin.wire_length v
  have size : MAX_WIRE_SIZE = (VoteEncodingBin.wire v).length +
      (MAX_WIRE_SIZE - (VoteEncodingBin.wire v).length) := by
    rw [MAX_WIRE_SIZE]
    rw [VoteEncodingBin.RESPONSE_SIZE] at short
    omega
  rw [Encoded.message, sized] at message
  have run : EncodingFile.voteEncodingBin.encoding.encode v MAX_WIRE_SIZE = .ok e := encoded
  rw [roundTrip, run]
  dsimp only
  rw [size, load_add, message, sized]
  exact VoteEncodingBin.decode_wire v old valid _

theorem vote_round_trip (encoding : EncodingFile) (v old : VoteInfo) (valid : v.Valid) :
    roundTrip encoding v old = some v ↔ Returned v old encoding := by
  obtain ⟨count, candidate, isInquiry, isResponse⟩ := v
  have silent := valid.count
  dsimp only at silent
  cases encoding with
  | voteEncodingText =>
      rw [text_returned _ old valid, Option.some.injEq, Returned]
      cases isResponse with
      | false => simp [silent rfl]
      | true => simp [VoteEncodingText.parsed_iff]
  | voteEncodingBin =>
      rw [bin_returned _ old valid, Option.some.injEq, Returned]
      cases isResponse with
      | false => simp [silent rfl]
      | true => simp

def tally (count : UInt64) : VoteInfo :=
  { count := count, candidate := 10, isInquiry := true, isResponse := true }

theorem tally_valid (count : UInt64) : (tally count).Valid := by
  constructor
  · exact ⟨show (0 : Int) ≤ 10 by decide, show (10 : Int) ≤ 1000 by decide⟩
  · rintro ⟨⟩

theorem small_tally_returned : roundTrip .voteEncodingText (tally 5) zeroed = some (tally 5) :=
  (vote_round_trip .voteEncodingText (tally 5) zeroed (tally_valid 5)).mpr fun _ => by decide

theorem large_tally_lost : (tally 9223372036854775808).Valid ∧
    roundTrip .voteEncodingText (tally 9223372036854775808) zeroed =
      some (tally 9223372036854775807) := by
  refine ⟨tally_valid _, ?_⟩
  have read : VoteEncodingText.parsed 9223372036854775808 = 9223372036854775807 := by
    decide +kernel
  rw [text_returned _ zeroed (tally_valid _)]
  change some { tally 9223372036854775808 with
    count := VoteEncodingText.parsed 9223372036854775808 } = _
  rw [read]
  rfl

/-! The space that Encode is given. -/

/-- No byte at outBuf + bufSize or behind it is stored, and the size is within. -/
def Respects (e : Encoded) (bufSize : Nat) : Prop :=
  (∀ s ∈ e.stores, ∀ i < s.2.length, s.1 + i < bufSize) ∧ e.size ≤ bufSize

def digits (n : Nat) : Nat := (Nat.toDigits 10 n).length

def textLength (v : VoteInfo) : Nat :=
  if v.isResponse then 12 + digits v.candidate.natAbs + digits v.count.toNat
  else 10 + digits v.candidate.natAbs

/-- A binary request, too, needs the twelve bytes that are cleared. -/
def Room (v : VoteInfo) (bufSize : Nat) : EncodingFile → Prop
  | .voteEncodingText => textLength v ≤ bufSize
  | .voteEncodingBin => VoteEncodingBin.sizeofMsg ≤ bufSize

theorem text_length (v : VoteInfo) (valid : v.Valid) :
    (VoteEncodingText.wire v).length = textLength v := by
  have least := valid.candidate.1
  have signed : (VoteEncodingText.signed v.candidate).length = digits v.candidate.natAbs := by
    rw [VoteEncodingText.signed, if_neg (by omega), decimal, List.length_map, digits]
  have magic : VoteEncodingText.MAGIC.length = 6 := by decide
  have set : (bytes "R").length = 1 := by decide
  have clear : (bytes "").length = 0 := by decide
  rw [VoteEncodingText.wire, List.length_append, VoteEncodingText.vote, textLength]
  cases v.isResponse with
  | false =>
      simp only [Bool.false_eq_true, ↓reduceIte, List.length_append, List.length_cons,
        List.length_nil, magic, clear, signed]
      omega
  | true =>
      simp only [↓reduceIte, VoteEncodingText.votes, List.length_append, List.length_cons, magic,
        set, signed, decimal, List.length_map, digits]
      omega

theorem snprintf_within (bufPtr : Nat) (size : Int) (text : List UInt8)
    (s : Nat × List UInt8) (stored : s ∈ VoteEncodingText.snprintf bufPtr size text) :
    s.1 + s.2.length ≤ bufPtr + VoteEncodingText.sizeT size := by
  rw [VoteEncodingText.snprintf] at stored
  split at stored
  · cases stored
  · rename_i some_
    rw [List.mem_singleton] at stored
    subst stored
    simp only [CText.snprintf, List.length_append, List.length_take, List.length_singleton]
    omega

theorem mem_text_stores (v : VoteInfo) (bufSize : Nat) (s : Nat × List UInt8)
    (stored : s ∈ (VoteEncodingText.encode v bufSize).stores) :
    s ∈ VoteEncodingText.snprintf 0 (VoteEncodingText.long bufSize) (VoteEncodingText.vote v) ∨
      v.isResponse = true ∧ s ∈ VoteEncodingText.snprintf (VoteEncodingText.vote v).length
        (VoteEncodingText.long (VoteEncodingText.long bufSize - (VoteEncodingText.vote v).length))
        (VoteEncodingText.votes v) := by
  simp only [VoteEncodingText.encode] at stored
  split at stored
  · rename_i response
    exact (List.mem_append.mp stored).imp id fun second => ⟨response, second⟩
  · dsimp only at stored
    exact Or.inl stored

theorem size_t_long (bufSize : Nat) (small : bufSize < 2 ^ 64) :
    VoteEncodingText.sizeT (VoteEncodingText.long bufSize) = bufSize := by
  rw [VoteEncodingText.sizeT, VoteEncodingText.long]
  omega

theorem size_t_left (bufSize used : Nat) (small : bufSize < 2 ^ 64) (room : used ≤ bufSize) :
    VoteEncodingText.sizeT (VoteEncodingText.long (VoteEncodingText.long bufSize - used)) =
      bufSize - used := by
  rw [VoteEncodingText.sizeT, VoteEncodingText.long, VoteEncodingText.long]
  omega

theorem text_respects_iff (v : VoteInfo) (valid : v.Valid) (bufSize : Nat)
    (small : bufSize < 2 ^ 64) :
    Respects (VoteEncodingText.encode v bufSize) bufSize ↔ textLength v ≤ bufSize := by
  rw [← text_length v valid, Respects, VoteEncodingText.encode_size, and_iff_right_iff_imp]
  intro room s stored i inside
  have first : (VoteEncodingText.vote v).length ≤ bufSize := by
    rw [VoteEncodingText.wire, List.length_append] at room
    exact Nat.le_trans (Nat.le_add_right _ _) room
  rcases mem_text_stores v bufSize s stored with vote | ⟨-, votes⟩
  · have within := snprintf_within 0 (VoteEncodingText.long bufSize) _ s vote
    rw [size_t_long bufSize small] at within
    omega
  · have within := snprintf_within _ _ _ s votes
    rw [size_t_left bufSize _ small first] at within
    omega

theorem bin_stores (v : VoteInfo) (bufSize : Nat) (e : Encoded)
    (encoded : VoteEncodingBin.encode v bufSize = .ok e) :
    (∀ s ∈ e.stores, s.1 + s.2.length ≤ VoteEncodingBin.sizeofMsg) ∧
      e.size ≤ VoteEncodingBin.sizeofMsg ∧
      (0, List.replicate VoteEncodingBin.sizeofMsg 0) ∈ e.stores := by
  simp only [VoteEncodingBin.encode] at encoded
  split at encoded
  · cases encoded
  · split at encoded
    · obtain rfl := Except.ok.inj encoded
      simp [VoteEncodingBin.sizeofMsg, VoteEncodingBin.RESPONSE_SIZE]
    · obtain rfl := Except.ok.inj encoded
      simp [VoteEncodingBin.sizeofMsg, VoteEncodingBin.REQUEST_SIZE]

theorem bin_respects_iff (v : VoteInfo) (bufSize : Nat) (e : Encoded)
    (encoded : VoteEncodingBin.encode v bufSize = .ok e) :
    Respects e bufSize ↔ VoteEncodingBin.sizeofMsg ≤ bufSize := by
  obtain ⟨stores, size, cleared⟩ := bin_stores v bufSize e encoded
  constructor
  · rintro ⟨within, -⟩
    exact within _ cleared 11 (by decide)
  · intro room
    refine ⟨fun s stored i inside => ?_, Nat.le_trans size room⟩
    have last := stores s stored
    omega

theorem encode_respects_iff (encoding : EncodingFile) (v : VoteInfo) (valid : v.Valid)
    (bufSize : UInt64) (e : Encoded)
    (encoded : encoding.encoding.encode v bufSize.toNat = .ok e) :
    Respects e bufSize.toNat ↔ Room v bufSize.toNat encoding := by
  cases encoding with
  | voteEncodingText =>
      obtain rfl := Except.ok.inj encoded
      exact text_respects_iff v valid bufSize.toNat bufSize.toNat_lt
  | voteEncodingBin => exact bin_respects_iff v bufSize.toNat e encoded

theorem tenth_respects : ∃ e, EncodingFile.voteEncodingBin.encoding.encode tenth 12 = .ok e ∧
    Respects e 12 :=
  ⟨_, rfl, (encode_respects_iff .voteEncodingBin tenth tenth_valid 12 _ rfl).mpr (Nat.le_refl 12)⟩

/-- Four bytes are enough for a request not to be refused, and twelve are cleared; and
the count of a response is put behind a buffer that the vote does not fit in. -/
theorem encoders_overrun :
    (∃ e, EncodingFile.voteEncodingBin.encoding.encode tenth 4 = .ok e ∧
      (0, List.replicate 12 0) ∈ e.stores ∧ ¬ Respects e 4) ∧
    ∃ e, EncodingFile.voteEncodingText.encoding.encode (tally 5) 8 = .ok e ∧
      (13, bytes " 5" ++ [0]) ∈ e.stores ∧ e.size = 15 ∧ ¬ Respects e 8 := by
  constructor
  · refine ⟨_, rfl, by decide, fun respects => ?_⟩
    exact absurd (respects.1 (0, List.replicate 12 0) (by decide) 11 (by decide)) (by decide)
  · refine ⟨_, rfl, by decide, by decide, fun respects => ?_⟩
    exact absurd respects.2 (by decide)

end NetworkProgramming.VoteEncodings
