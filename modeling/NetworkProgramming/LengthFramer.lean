import NetworkProgramming.Framer
import NetworkProgramming.NetworkOrder

/-!
LengthFramer.c: two bytes of length, then the message. What does not fit into the
reader's buffer goes into an array of BUFSIZE bytes, so that the stream is at the
next frame; a message that leaves more than that over goes past its end.
-/

namespace NetworkProgramming.LengthFramer

open Framing Framer NetworkOrder

def BUFSIZE : Nat := 512
def UINT16_MAX : Nat := 65535

def getNextMsg (bufSize : Nat) (stream : Stream) : Except Stop (Received × Stream) := do
  let (header, stream) ← fread 2 2 stream
  if header.length ≠ 2 then
    return ({ result := -1, buf := [] }, stream)
  else
    let indicated := ntohs header
    let extra := if bufSize < indicated.toNat then UInt16.ofNat (indicated.toNat - bufSize) else 0
    -- Truncate.
    let mSize := if bufSize < indicated.toNat then UInt16.ofNat bufSize else indicated
    let size := mSize.toNat
    let (buf, stream) ← fread bufSize size stream
    if buf.length ≠ size then
      return ({ result := -1, buf := buf,
                stderr := s!"Framing error: expected {size}, read less\n" }, stream)
    else if 0 < extra then
      let (_waste, stream) ← fread BUFSIZE extra.toNat stream
      return ({ result := -(size + extra.toNat : Int), buf := buf }, stream)
    else
      return ({ result := size, buf := buf }, stream)

def putMsg (buf : List UInt8) (out : Stream) : Except Stop (Int × Stream) :=
  if UINT16_MAX < buf.length then .ok (-1, out)
  else
    let payloadSize := htons (UInt16.ofNat buf.length)
    .ok (buf.length, out ++ (payloadSize ++ buf))

def framer : Framer := ⟨getNextMsg, putMsg⟩

def frame (message : List UInt8) : Stream := htons (UInt16.ofNat message.length) ++ message

/-- What a reader gets of a message: all of it, or as much as it has room for. -/
def answer (message : List UInt8) (bufSize : Nat) : Received :=
  if message.length ≤ bufSize then whole message
  else { result := -message.length, buf := message.take bufSize }

theorem put_msg_frame (message : List UInt8) (out : Stream) (short : message.length ≤ UINT16_MAX) :
    putMsg message out = .ok (message.length, out ++ frame message) := by
  rw [putMsg, if_neg (by omega)]
  rfl

theorem put_msg_rejects (message : List UInt8) (out : Stream) (long : UINT16_MAX < message.length) :
    putMsg message out = .ok (-1, out) := by
  rw [putMsg, if_pos long]

theorem uint16_exact (n : Nat) (short : n ≤ UINT16_MAX) : (UInt16.ofNat n).toNat = n := by
  have below : n < UInt16.size := Nat.lt_succ_of_le short
  exact UInt16.toNat_ofNat_of_lt' below

theorem get_next_msg_header (bufSize : Nat) (message : List UInt8) (body : Stream)
    (short : message.length ≤ UINT16_MAX) :
    getNextMsg bufSize (htons (UInt16.ofNat message.length) ++ body) = (do
      let size := if bufSize < message.length then bufSize else message.length
      let (buf, rest) ← fread bufSize size body
      if buf.length ≠ size then
        return ({ result := -1, buf := buf,
                  stderr := s!"Framing error: expected {size}, read less
" }, rest)
      else if bufSize < message.length then
        let (_, rest) ← fread BUFSIZE (message.length - bufSize) rest
        return ({ result := -message.length, buf := buf }, rest)
      else return ({ result := message.length, buf := buf }, rest)) := by
  have header := fread_append 2 (htons (UInt16.ofNat message.length)) body
  have size := htons_length (UInt16.ofNat message.length)
  have indicated := uint16_exact message.length short
  rw [size, if_neg (Nat.lt_irrefl 2)] at header
  rw [getNextMsg, header]
  simp only [bind, Except.bind, size, ne_eq, not_true_eq_false, if_false, ntohs_htons, indicated]
  by_cases long : bufSize < message.length
  · have room := uint16_exact bufSize (by omega)
    have excess := uint16_exact (message.length - bufSize) (by omega)
    have positive : 0 < UInt16.ofNat (message.length - bufSize) := by
      rw [UInt16.lt_iff_toNat_lt, excess]
      exact Nat.sub_pos_of_lt long
    have sum : (bufSize + (message.length - bufSize : Nat) : Int) = message.length := by omega
    simp only [if_pos long, room, excess, if_pos positive, sum]
  · simp only [if_neg long, indicated]
    rfl

/-- A frame is read whole, or cut to the buffer with the rest of it thrown away, as
long as there is room for that. -/
theorem get_next_msg_frame (message : List UInt8) (bufSize : Nat) (rest : Stream)
    (short : message.length ≤ UINT16_MAX) :
    getNextMsg bufSize (frame message ++ rest) =
      if message.length ≤ bufSize + BUFSIZE then .ok (answer message bufSize, rest)
      else .error .overrun := by
  rw [frame, List.append_assoc, get_next_msg_header bufSize message _ short]
  by_cases long : bufSize < message.length
  · have taken : (message.take bufSize).length = bufSize :=
      List.length_take_of_le (Nat.le_of_lt long)
    have left : (message.drop bufSize).length = message.length - bufSize := List.length_drop
    have split : message ++ rest = message.take bufSize ++ (message.drop bufSize ++ rest) := by
      rw [← List.append_assoc, List.take_append_drop]
    have first := fread_append bufSize (message.take bufSize) (message.drop bufSize ++ rest)
    have flushed := fread_append BUFSIZE (message.drop bufSize) rest
    rw [taken, if_neg (Nat.lt_irrefl bufSize), ← split] at first
    rw [left] at flushed
    simp only [if_pos long, first, bind, Except.bind, taken, ne_eq, not_true_eq_false, if_false,
      flushed, answer, if_neg (Nat.not_le_of_lt long)]
    by_cases room : message.length ≤ bufSize + BUFSIZE
    · rw [if_pos room, if_neg (by omega)]
      rfl
    · rw [if_neg room, if_pos (by omega)]
  · have fits : message.length ≤ bufSize := Nat.le_of_not_lt long
    have body := fread_append bufSize message rest
    rw [if_neg long] at body
    simp only [if_neg long, body, bind, Except.bind, ne_eq, not_true_eq_false, if_false, answer,
      if_pos fits, if_pos (Nat.le_add_right_of_le fits : message.length ≤ bufSize + BUFSIZE)]
    rfl

theorem fread_ok (size count : Nat) (stream bytes rest : List UInt8)
    (read : fread size count stream = .ok (bytes, rest)) : bytes.length ≤ size := by
  rw [fread] at read
  split at read
  · cases read
  · simp only [Except.ok.injEq, Prod.mk.injEq] at read
    obtain ⟨rfl, -⟩ := read
    omega

theorem get_next_msg_positive (bufSize : Nat) (stream rest : Stream) (r : Received)
    (read : getNextMsg bufSize stream = .ok (r, rest)) (some_ : 0 < r.result) :
    r.result = r.buf.length ∧ r.buf.length ≤ bufSize := by
  rw [getNextMsg] at read
  cases header : fread 2 2 stream with
  | error stop =>
      rw [header] at read
      cases read
  | ok first =>
      obtain ⟨length, body⟩ := first
      rw [header] at read
      simp only [bind, Except.bind] at read
      -- whatever is left out of the message and whatever is read of it
      generalize (if bufSize < (ntohs length).toNat then UInt16.ofNat bufSize
        else ntohs length) = mSize at read
      generalize (if bufSize < (ntohs length).toNat then
        UInt16.ofNat ((ntohs length).toNat - bufSize) else 0) = extra at read
      split at read
      · cases read
        exact absurd some_ (by decide)
      · split at read
        · cases read
        · rename_i second got
          have within := fread_ok _ _ _ _ _ got
          split at read
          · cases read
            simp only at some_
            omega
          · rename_i full
            split at read
            · -- too long a message is answered with a negative number
              split at read
              · cases read
              · cases read
                simp only at some_
                omega
            · cases read
              simp only at some_ ⊢
              omega

theorem length_framer_carries (bufSize : Nat) (message : List UInt8)
    (fits : message.length ≤ bufSize) (short : message.length ≤ UINT16_MAX) :
    framer.Carries bufSize message := by
  refine ⟨frame message, put_msg_frame message [] short, fun later => ?_⟩
  have read := get_next_msg_frame message bufSize later short
  rwa [if_pos (Nat.le_add_right_of_le fits), answer, if_pos fits] at read

/-- Whatever follows, the messages written in turn are read in turn, each with a
buffer of its own size, just when none leaves more over than the array for it holds. -/
theorem length_framer_reads (calls : List (List UInt8 × Nat))
    (short : ∀ call ∈ calls, call.1.length ≤ UINT16_MAX) :
    ∃ stream, inTurn putMsg (calls.map Prod.fst) [] =
        .ok (calls.map fun call => (call.1.length : Int), stream) ∧
      ∀ later, inTurn getNextMsg (calls.map Prod.snd) (stream ++ later) =
          .ok (calls.map fun call => answer call.1 call.2, later) ↔
        ∀ call ∈ calls, call.1.length ≤ call.2 + BUFSIZE := by
  refine ⟨calls.flatMap fun call => frame call.1, ?_, fun later => ?_⟩
  · exact in_turn_writes putMsg Prod.fst (fun call => frame call.1) _ calls []
      fun call member before => put_msg_frame call.1 before (short call member)
  · apply in_turn_reads_iff getNextMsg Prod.snd (fun call => frame call.1)
      (fun call => answer call.1 call.2) (fun call => call.1.length ≤ call.2 + BUFSIZE)
    · intro call member fits left
      rw [get_next_msg_frame call.1 call.2 left (short call member), if_pos fits]
    · intro call member excess left
      exact ⟨.overrun, by rw [get_next_msg_frame call.1 call.2 left (short call member), if_neg excess]⟩

theorem messages_read_or_cut :
    ∃ stream, inTurn putMsg [[1, 2, 3], [], [4]] [] = .ok ([3, 0, 1], stream) ∧
      ∀ later, inTurn getNextMsg [2, 1, 1] (stream ++ later) =
        .ok ([{ result := -3, buf := [1, 2] }, whole [], whole [4]], later) := by
  obtain ⟨stream, written, read⟩ :=
    length_framer_reads [([1, 2, 3], 2), ([], 1), ([4], 1)] (by decide)
  exact ⟨stream, written, fun later => (read later).mpr (by decide)⟩

theorem waste_overrun :
    ∃ stream, putMsg (List.replicate 514 0) [] = .ok (514, stream) ∧
      getNextMsg 1 stream = .error .overrun := by
  have short : (List.replicate 514 (0 : UInt8)).length ≤ UINT16_MAX := by
    rw [List.length_replicate]
    decide
  have read := get_next_msg_frame (List.replicate 514 0) 1 [] short
  rw [List.append_nil, List.length_replicate, if_neg (by decide)] at read
  refine ⟨frame (List.replicate 514 0), ?_, read⟩
  rw [put_msg_frame _ _ short, List.length_replicate]
  rfl

end NetworkProgramming.LengthFramer
