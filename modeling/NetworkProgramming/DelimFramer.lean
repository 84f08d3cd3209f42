import NetworkProgramming.Framer

/-!
DelimFramer.c: a message ends at the first delimiter, so it may not contain one.
The loop of GetNextMsg ends at the delimiter, at the end of the stream or with
the buffer full, and `nextChar` tells afterwards which it was.
-/

namespace NetworkProgramming.DelimFramer

open CText Framing Framer

def DELIMITER : Int := 10

-- What follows the loop.
def afterLoop (nextChar count : Int) : Int := if nextChar ≠ DELIMITER then -count else count

def stored (b : UInt8) (r : Received × Stream) : Received × Stream :=
  ({ r.1 with buf := b :: r.1.buf }, r.2)

/-- The loop with `count` bytes in buf and room for `left` more. -/
def loop : Nat → Int → Int → Stream → Except Stop (Received × Stream)
  | 0, nextChar, count, stream => .ok ({ result := afterLoop nextChar count, buf := [] }, stream)
  | left + 1, _, count, stream =>
      let (nextChar, rest) := getc stream
      if nextChar = EOF then
        if 0 < count then .error (.died "GetNextMsg()" "Stream ended prematurely")
        else .ok ({ result := -1, buf := [] }, rest)
      else if nextChar = DELIMITER then
        .ok ({ result := afterLoop nextChar count, buf := [] }, rest)
      else if count = INT_MAX then .error .overflow
      else (loop left nextChar (count + 1) rest).map (stored (UInt8.ofInt nextChar))

-- nextChar starts with whatever is there; a buffer of no bytes gives 0 for each value.
def getNextMsg (bufSize : Nat) (stream : Stream) : Except Stop (Received × Stream) :=
  loop bufSize 0 0 stream

-- Is there a delimiter in the message, from index `i` on?
def check : Int → List UInt8 → Except Stop Bool
  | _, [] => .ok false
  | i, b :: rest =>
      if (b.toNat : Int) = DELIMITER then .ok true
      else if i = INT_MAX then .error .overflow
      else check (i + 1) rest

def putMsg (buf : List UInt8) (out : Stream) : Except Stop (Int × Stream) :=
  match check 0 buf with
  | .error stop => .error stop
  | .ok true => .ok (-1, out)
  -- The check has counted to msgSize, so it is an int.
  | .ok false => .ok (buf.length, out ++ (buf ++ [newline]))

def framer : Framer := ⟨getNextMsg, putMsg⟩

theorem byte_delimiter (b : UInt8) : (b.toNat : Int) = DELIMITER ↔ b = newline := by
  rw [← UInt8.toNat_inj]
  exact Int.natCast_inj (n := 10)

theorem byte_eof (b : UInt8) : (b.toNat : Int) ≠ EOF := by
  rw [EOF]
  omega

theorem byte_stored (b : UInt8) : UInt8.ofInt (b.toNat : Int) = b := by
  have small := b.toNat_lt
  have same : ((b.toNat : Int) % 2 ^ 8).toNat = b.toNat := by omega
  rw [UInt8.ofInt, same, UInt8.ofNat_toNat]

theorem loop_byte (left : Nat) (nextChar count : Int) (b : UInt8) (rest : Stream)
    (other : b ≠ newline) (below : count ≠ INT_MAX) :
    loop (left + 1) nextChar count (b :: rest) =
      (loop left b.toNat (count + 1) rest).map (stored b) := by
  rw [loop, getc]
  simp only [if_neg (byte_eof b), if_neg (mt (byte_delimiter b).mp other), if_neg below, byte_stored]

def storedAll (bytes : List UInt8) (r : Received × Stream) : Received × Stream :=
  ({ r.1 with buf := bytes ++ r.1.buf }, r.2)

theorem loop_bytes (bytes : List UInt8) (left : Nat) (nextChar count : Int) (rest : Stream)
    (free : newline ∉ bytes) (below : count + bytes.length ≤ INT_MAX) :
    loop (bytes.length + left) nextChar count (bytes ++ rest) =
      (loop left (bytes.foldl (fun _ b => (b.toNat : Int)) nextChar) (count + bytes.length)
        rest).map (storedAll bytes) := by
  induction bytes generalizing nextChar count with
  | nil =>
      have none_more : count + (([] : List UInt8).length : Int) = count := Int.add_zero count
      rw [none_more, List.length_nil, Nat.zero_add, List.nil_append, List.foldl_nil]
      cases loop left nextChar count rest <;> rfl
  | cons b bytes ih =>
      simp only [List.mem_cons, not_or] at free
      rw [List.length_cons] at below
      have rounds : (b :: bytes).length + left = bytes.length + left + 1 := by
        rw [List.length_cons]
        omega
      have total : count + ((b :: bytes).length : Int) = count + 1 + bytes.length := by
        rw [List.length_cons]
        omega
      rw [rounds, total, List.cons_append, loop_byte _ _ _ _ _ (Ne.symm free.1) (by omega),
        ih _ _ free.2 (by omega), List.foldl_cons]
      cases loop left _ _ rest <;> rfl

/-! Two ends of the loop: the delimiter, and the end of the stream. -/

theorem get_next_msg_delimiter (bufSize : Nat) (message : List UInt8) (rest : Stream)
    (free : newline ∉ message) (fits : message.length < bufSize)
    (counted : message.length ≤ INT_MAX) :
    getNextMsg bufSize (message ++ newline :: rest) = .ok (whole message, rest) := by
  obtain ⟨left, rfl⟩ := Nat.exists_eq_add_of_lt fits
  rw [getNextMsg, Nat.add_assoc, loop_bytes message (left + 1) 0 0 _ free (by omega)]
  have ended (nextChar count : Int) : loop (left + 1) nextChar count (newline :: rest) =
      .ok ({ result := count, buf := [] }, rest) := rfl
  rw [ended]
  simp [Except.map, storedAll, whole]

theorem get_next_msg_premature (bufSize : Nat) (message : List UInt8) (free : newline ∉ message)
    (fits : message.length < bufSize) (counted : message.length ≤ INT_MAX) :
    getNextMsg bufSize message =
      if message = [] then .ok ({ result := -1, buf := [] }, [])
      else .error (.died "GetNextMsg()" "Stream ended prematurely") := by
  obtain ⟨left, rfl⟩ := Nat.exists_eq_add_of_lt fits
  have ran := loop_bytes message (left + 1) 0 0 [] free (by omega)
  rw [List.append_nil, ← Nat.add_assoc] at ran
  rw [getNextMsg, ran]
  cases message with
  | nil => rfl
  | cons b message =>
      have positive : 0 < (0 : Int) + ((b :: message).length : Nat) := by
        rw [List.length_cons]
        omega
      simp only [loop, getc, if_pos positive, if_neg (List.cons_ne_nil b message)]
      rfl

theorem after_loop_positive (nextChar count : Int) (start : 0 ≤ count)
    (some_ : 0 < afterLoop nextChar count) : afterLoop nextChar count = count := by
  rw [afterLoop] at some_ ⊢
  split at some_
  · omega
  · rename_i same
    rw [if_neg same]

theorem loop_positive (left : Nat) (nextChar count : Int) (stream rest : Stream) (r : Received)
    (start : 0 ≤ count) (ran : loop left nextChar count stream = .ok (r, rest))
    (some_ : 0 < r.result) : r.result = count + r.buf.length ∧ r.buf.length ≤ left := by
  induction left generalizing nextChar count stream r with
  | zero =>
      simp only [loop, Except.ok.injEq, Prod.mk.injEq] at ran
      obtain ⟨rfl, -⟩ := ran
      exact ⟨by simpa using after_loop_positive _ _ start some_, Nat.le_refl 0⟩
  | succ left ih =>
      rw [loop] at ran
      dsimp only at ran
      split at ran
      · split at ran
        · cases ran
        · simp only [Except.ok.injEq, Prod.mk.injEq] at ran
          obtain ⟨rfl, -⟩ := ran
          exact absurd some_ (by decide)
      · split at ran
        · simp only [Except.ok.injEq, Prod.mk.injEq] at ran
          obtain ⟨rfl, -⟩ := ran
          exact ⟨by simpa using after_loop_positive _ _ start some_, Nat.zero_le _⟩
        · split at ran
          · cases ran
          · cases later : loop left (getc stream).1 (count + 1) (getc stream).2 with
            | error stop =>
                rw [later] at ran
                cases ran
            | ok read =>
                obtain ⟨tail, left_⟩ := read
                rw [later] at ran
                simp only [Except.map, stored, Except.ok.injEq, Prod.mk.injEq] at ran
                obtain ⟨rfl, rfl⟩ := ran
                have more := ih _ (count + 1) _ tail (by omega) later some_
                simp only [List.length_cons] at some_ ⊢
                omega

theorem get_next_msg_positive (bufSize : Nat) (stream rest : Stream) (r : Received)
    (read : getNextMsg bufSize stream = .ok (r, rest)) (some_ : 0 < r.result) :
    r.result = r.buf.length ∧ r.buf.length ≤ bufSize := by
  have counted := loop_positive bufSize 0 0 stream rest r (Int.le_refl 0) read some_
  rwa [Int.zero_add] at counted

/-! The check of PutMsg. -/

theorem check_free (message : List UInt8) (i : Int) (free : newline ∉ message)
    (counted : i + message.length ≤ INT_MAX) : check i message = .ok false := by
  induction message generalizing i with
  | nil => rfl
  | cons b message ih =>
      simp only [List.mem_cons, not_or] at free
      rw [List.length_cons] at counted
      rw [check, if_neg (mt (byte_delimiter b).mp (Ne.symm free.1)), if_neg (by omega),
        ih (i + 1) free.2 (by omega)]

theorem check_delimiter (before after : List UInt8) (i : Int) (free : newline ∉ before)
    (counted : i + before.length ≤ INT_MAX) :
    check i (before ++ newline :: after) = .ok true := by
  induction before generalizing i with
  | nil => rfl
  | cons b before ih =>
      simp only [List.mem_cons, not_or] at free
      rw [List.length_cons] at counted
      rw [List.cons_append, check, if_neg (mt (byte_delimiter b).mp (Ne.symm free.1)),
        if_neg (by omega), ih (i + 1) free.2 (by omega)]

theorem check_overflow (message after : List UInt8) (i : Int) (free : newline ∉ message)
    (start : i ≤ INT_MAX) (long : INT_MAX < i + message.length) :
    check i (message ++ after) = .error .overflow := by
  induction message generalizing i with
  | nil =>
      rw [List.length_nil] at long
      omega
  | cons b message ih =>
      simp only [List.mem_cons, not_or] at free
      rw [List.length_cons] at long
      rw [List.cons_append, check, if_neg (mt (byte_delimiter b).mp (Ne.symm free.1))]
      split
      · rfl
      · exact ih (i + 1) free.2 (by omega) (by omega)

theorem put_msg_free (message : List UInt8) (out : Stream) (free : newline ∉ message)
    (counted : message.length ≤ INT_MAX) :
    putMsg message out = .ok (message.length, out ++ (message ++ [newline])) := by
  rw [putMsg, check_free message 0 free (by omega)]

theorem put_msg_rejects (message : List UInt8) (out : Stream)
    (delimiter : newline ∈ message.take (2 ^ 31)) : putMsg message out = .ok (-1, out) := by
  -- Split the message at its first delimiter.
  obtain ⟨before, after, split, free⟩ := List.eq_append_cons_of_mem delimiter
  have whole : message = before ++ newline :: (after ++ message.drop (2 ^ 31)) := by
    rw [← List.cons_append, ← List.append_assoc, ← split, List.take_append_drop]
  have short : (message.take (2 ^ 31)).length ≤ 2 ^ 31 := List.length_take_le _ _
  rw [split, List.length_append, List.length_cons] at short
  have counted : (0 : Int) + before.length ≤ INT_MAX := by
    rw [INT_MAX]
    omega
  rw [putMsg, whole, check_delimiter before _ 0 free counted]

theorem put_msg_overflow (message after : List UInt8) (out : Stream) (free : newline ∉ message)
    (long : INT_MAX < message.length) : putMsg (message ++ after) out = .error .overflow := by
  rw [putMsg, check_overflow message after 0 free (by decide) (by omega)]

def frame (message : List UInt8) : Stream := message ++ [newline]

theorem delim_framer_carries (bufSize : Nat) (message : List UInt8)
    (fits : message.length < bufSize) (counted : message.length ≤ INT_MAX) :
    framer.Carries bufSize message ↔ newline ∉ message := by
  constructor
  · rintro ⟨stream, written, -⟩ member
    have short : message.length ≤ 2 ^ 31 := by
      rw [INT_MAX] at counted
      omega
    have rejected := put_msg_rejects message [] (by rwa [List.take_of_length_le short])
    have result := congrArg Prod.fst (Except.ok.inj (rejected.symm.trans written))
    -- A length is not -1.
    simp only at result
    omega
  · intro free
    refine ⟨frame message, put_msg_free message [] free counted, fun later => ?_⟩
    rw [frame, List.append_assoc]
    exact get_next_msg_delimiter bufSize message later free fits counted

/-- The messages written in turn are the messages read in turn, and then there is
nothing to read. -/
theorem delim_framer_round_trip (bufSize : Nat) (messages : List (List UInt8))
    (room : 0 < bufSize) (free : ∀ message ∈ messages, newline ∉ message)
    (short : ∀ message ∈ messages, message.length < bufSize ∧ message.length ≤ INT_MAX) :
    (∃ stream, inTurn putMsg messages [] =
        .ok (messages.map fun message => (message.length : Int), stream) ∧
      inTurn getNextMsg (List.replicate (messages.length + 1) bufSize) stream =
        .ok (messages.map whole ++ [{ result := -1, buf := [] }], [])) ∧
    ∀ message out, newline ∈ message.take (2 ^ 31) → putMsg message out = .ok (-1, out) := by
  refine ⟨⟨messages.flatMap frame, ?_, ?_⟩, put_msg_rejects⟩
  · have written := in_turn_writes putMsg id frame (fun message => (message.length : Int))
      messages [] fun message member before =>
        put_msg_free message before (free message member) (short message member).2
    rwa [List.map_id] at written
  · have read := in_turn_reads getNextMsg (fun _ => bufSize) frame whole messages []
      fun message member left => by
        rw [frame, List.append_assoc]
        exact get_next_msg_delimiter bufSize message left (free message member)
          (short message member).1 (short message member).2
    have ended := get_next_msg_premature bufSize [] List.not_mem_nil room (by decide)
    rw [List.append_nil, List.map_const'] at read
    rw [List.replicate_succ', in_turn_append _ _ _ _ _ _ read, inTurn, ended]
    simp [inTurn, Except.map]

theorem three_messages_read :
    (∃ stream, inTurn putMsg [[], [255], [1, 2]] [] = .ok ([0, 1, 2], stream) ∧
      inTurn getNextMsg (List.replicate 4 3) stream =
        .ok ([whole [], whole [255], whole [1, 2], { result := -1, buf := [] }], [])) ∧
    ∀ message out, newline ∈ message.take (2 ^ 31) → putMsg message out = .ok (-1, out) :=
  delim_framer_round_trip 3 [[], [255], [1, 2]] (by decide) (by decide) (by decide)

/-- A reader without a buffer takes the end of the stream for an empty message, and
a message of 2^31 bytes is not written, nor rejected for a delimiter after them. -/
theorem delim_framer_limits :
    inTurn getNextMsg (List.replicate 1 0) [] = .ok ([{ result := 0, buf := [] }], []) ∧
    putMsg (List.replicate (2 ^ 31) 0) [] = .error .overflow ∧
    putMsg (List.replicate (2 ^ 31) 0 ++ [newline]) [] = .error .overflow := by
  have free : newline ∉ List.replicate (2 ^ 31) (0 : UInt8) := by
    rw [List.mem_replicate]
    exact fun both => absurd both.2 (by decide)
  have long : INT_MAX < ((List.replicate (2 ^ 31) (0 : UInt8)).length : Int) := by
    rw [List.length_replicate]
    decide
  refine ⟨by decide, ?_, put_msg_overflow _ _ _ free long⟩
  rw [← List.append_nil (List.replicate (2 ^ 31) (0 : UInt8))]
  exact put_msg_overflow _ _ _ free long

end NetworkProgramming.DelimFramer
