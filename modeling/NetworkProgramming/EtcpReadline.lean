import NetworkProgramming.CText
import NetworkProgramming.Readvrec

/-!
readline of Effective TCP/IP Programming, with a buffer that stays between the calls. cnt is
one more than the bytes left in the buffer, since it is decremented before it is tested; an
interrupted recv leaves it at -1.
-/

namespace NetworkProgramming.EtcpReadline

open CText RecvCalls
open Readvrec (int int_small)

/-- The static variables, `bp` with the bytes received from there on, and the socket. -/
structure Reader where
  cnt : Int
  bp : List UInt8
  fd : Socket
  deriving DecidableEq

inductive Fetched where
  | byte (c : UInt8)
  | interrupted
  | eof
  /-- A byte of b behind those received. -/
  | stale
  deriving DecidableEq

def fetch (network : Network) (r : Reader) : Fetched × Reader :=
  if r.cnt - 1 ≤ 0 then
    match recv network 1500 r.fd with
    | (none, fd) => (.interrupted, ⟨-1, r.bp, fd⟩)
    | (some [], fd) => (.eof, ⟨0, r.bp, fd⟩)
    | (some (c :: b), fd) => (.byte c, ⟨(c :: b).length, b, fd⟩)
  else
    match r.bp with
    | c :: b => (.byte c, ⟨r.cnt - 1, b, r.fd⟩)
    | [] => (.stale, r)

inductive Returned where
  | line (stored : List UInt8) (length : Int)
  | eof (stored : List UInt8)
  | emsgsize (stored : List UInt8)
  deriving DecidableEq

theorem fetch_interrupted {network : Network} {r r' : Reader}
    (fetched : fetch network r = (.interrupted, r')) : r'.bp = r.bp ∧ r.cnt ≤ 1 ∧ r'.cnt = -1 ∧
      r'.fd.stream = r.fd.stream ∧ r'.fd.interrupts < r.fd.interrupts := by
  rw [fetch] at fetched
  split at fetched
  · rename_i empty
    split at fetched <;> cases fetched
    rename_i fd called
    exact ⟨rfl, by omega, rfl, recv_interrupted called⟩
  · split at fetched <;> cases fetched

theorem rounds_left {len : UInt64} (more : len - 1 > 0) :
    (len - 1 - 1).toNat + 1 = (len - 1).toNat := by
  rw [gt_iff_lt, UInt64.lt_iff_toNat_lt, UInt64.toNat_zero] at more
  have one : (1 : UInt64) ≤ len - 1 := by
    rw [UInt64.le_iff_toNat_le]
    exact more
  rw [UInt64.toNat_sub_of_le _ _ one]
  exact Nat.sub_add_cancel more

def loop (network : Network) (len : UInt64) (bufptr : List UInt8) (r : Reader) :
    Option (Returned × Reader) :=
  if len - 1 > 0 then
    match _fetched : fetch network r with
    | (.byte c, r) =>
        if c = newline then some (.line (bufptr ++ [c, 0]) (int (bufptr ++ [c]).length), r)
        else loop network (len - 1) (bufptr ++ [c]) r
    -- the while will decrement
    | (.interrupted, r) => loop network (len - 1 + 1) bufptr r
    | (.eof, r) => some (.eof bufptr, r)
    | (.stale, _) => none
  else some (.emsgsize bufptr, r)
termination_by ((len - 1).toNat, r.fd.interrupts)
decreasing_by
  · apply Prod.Lex.left
    have fewer := rounds_left ‹len - 1 > 0›
    omega
  · rw [UInt64.sub_add_cancel]
    apply Prod.Lex.right
    exact (fetch_interrupted _fetched).2.2.2.2

def readline (network : Network) (len : UInt64) (r : Reader) : Option (Returned × Reader) :=
  loop network len [] r

/-! A call by the stream before it. -/

def Reader.stream (r : Reader) : List UInt8 := r.bp ++ r.fd.stream

/-- cnt is one more than the bytes left, or there are none. -/
def Sound (r : Reader) : Prop := r.bp.length = (r.cnt - 1).toNat

/-- What a call that has stored `bufptr` returns and leaves, with `count` rounds to go. -/
inductive Outcome (count : Nat) (bufptr stream : List UInt8) : Returned → List UInt8 → Prop where
  | line (text rest : List UInt8) (free : newline ∉ text) (room : text.length < count)
      (begins : stream = text ++ newline :: rest) :
      Outcome count bufptr stream (.line (bufptr ++ text ++ [newline, 0])
        (int (bufptr ++ text ++ [newline]).length)) rest
  | eof (free : newline ∉ stream) (room : stream.length < count) :
      Outcome count bufptr stream (.eof (bufptr ++ stream)) []
  | emsgsize (text rest : List UInt8) (free : newline ∉ text) (full : text.length = count)
      (begins : stream = text ++ rest) :
      Outcome count bufptr stream (.emsgsize (bufptr ++ text)) rest

theorem fetch_byte {network : Network} {r r' : Reader} {c : UInt8} (sound : Sound r)
    (fetched : fetch network r = (.byte c, r')) : r.stream = c :: r'.stream ∧ Sound r' := by
  obtain ⟨cnt, bp, fd⟩ := r
  simp only [fetch, Sound] at fetched sound
  split at fetched
  · rename_i empty
    split at fetched <;> cases fetched
    rename_i b fd' called
    obtain rfl : bp = [] := List.length_eq_zero_iff.mp (by omega)
    obtain ⟨whole, -⟩ := recv_returned called
    have one (n : Nat) : n = (((n + 1 : Nat) : Int) - 1).toNat := by omega
    exact ⟨whole.symm, one b.length⟩
  · split at fetched <;> cases fetched
    rename_i b
    rw [List.length_cons] at sound
    have one : b.length = (cnt - 1 - 1).toNat := by omega
    exact ⟨rfl, one⟩

theorem fetch_again {network : Network} {r r' : Reader} (sound : Sound r)
    (fetched : fetch network r = (.interrupted, r')) : r'.stream = r.stream ∧ Sound r' := by
  obtain ⟨same, empty, cnt, stream, -⟩ := fetch_interrupted fetched
  rw [Sound] at sound
  exact ⟨by rw [Reader.stream, Reader.stream, same, stream], by rw [Sound, same, cnt]; omega⟩

theorem fetch_eof {network : Network} {r r' : Reader} (sound : Sound r)
    (fetched : fetch network r = (.eof, r')) : r.stream = [] ∧ r'.stream = [] ∧ Sound r' := by
  obtain ⟨cnt, bp, fd⟩ := r
  simp only [fetch, Sound] at fetched sound
  split at fetched
  · split at fetched <;> cases fetched
    rename_i fd' called
    obtain rfl : bp = [] := List.length_eq_zero_iff.mp (by omega)
    obtain ⟨done, left⟩ := recv_zero (by decide) called
    exact ⟨done, left, rfl⟩
  · split at fetched <;> cases fetched

theorem fetch_fresh {network : Network} {r r' : Reader} (sound : Sound r) :
    fetch network r ≠ (.stale, r') := by
  obtain ⟨cnt, bp, fd⟩ := r
  simp only [fetch, Sound] at sound ⊢
  intro fetched
  split at fetched
  · split at fetched <;> cases fetched
  · split at fetched <;> cases fetched
    rw [List.length_nil] at sound
    omega

theorem Outcome.cons {count : Nat} {bufptr stream rest : List UInt8} {returned : Returned}
    {c : UInt8} (inside : c ≠ newline) (outcome : Outcome count (bufptr ++ [c]) stream returned rest) :
    Outcome (count + 1) bufptr (c :: stream) returned rest := by
  have onto (text : List UInt8) : bufptr ++ [c] ++ text = bufptr ++ c :: text := by simp
  cases outcome with
  | line text rest free room begins =>
      rw [onto]
      exact .line (c :: text) rest (by simp [Ne.symm inside, free])
        (by rw [List.length_cons]; omega) (by rw [begins]; rfl)
  | eof free room =>
      rw [onto]
      exact .eof (by simp [Ne.symm inside, free]) (by rw [List.length_cons]; omega)
  | emsgsize text rest free full begins =>
      rw [onto]
      exact .emsgsize (c :: text) rest (by simp [Ne.symm inside, free])
        (by rw [List.length_cons, full]) (by rw [begins]; rfl)

theorem loop_outcome (network : Network) (len : UInt64) (bufptr : List UInt8) (r : Reader)
    (sound : Sound r) : ∃ returned r', loop network len bufptr r = some (returned, r') ∧
      Sound r' ∧ Outcome (len - 1).toNat bufptr r.stream returned r'.stream := by
  -- the rounds of the while loop, by what is fetched in each
  induction len, bufptr, r using loop.induct network with
  | case1 len bufptr r more r' fetched =>
      obtain ⟨begins, sound'⟩ := fetch_byte sound fetched
      have rounds := rounds_left more
      have last : Outcome (len - 1).toNat bufptr r.stream _ r'.stream :=
        .line [] r'.stream List.not_mem_nil (by rw [List.length_nil]; omega) begins
      rw [List.append_nil] at last
      refine ⟨_, r', ?_, sound', last⟩
      rw [loop, if_pos more]
      split <;> rename_i here <;> rw [fetched] at here <;> cases here
      rw [if_pos rfl]
  | case2 len bufptr r more c r' fetched inside ih =>
      obtain ⟨begins, sound'⟩ := fetch_byte sound fetched
      obtain ⟨returned, last, ran, kept, outcome⟩ := ih sound'
      refine ⟨returned, last, ?_, kept, ?_⟩
      · rw [loop, if_pos more]
        split <;> rename_i here <;> rw [fetched] at here <;> cases here
        rw [if_neg inside, ran]
      · rw [begins, ← rounds_left more]
        exact outcome.cons inside
  | case3 len bufptr r more r' fetched ih =>
      obtain ⟨same, sound'⟩ := fetch_again sound fetched
      obtain ⟨returned, last, ran, kept, outcome⟩ := ih sound'
      rw [UInt64.sub_add_cancel] at ran outcome
      refine ⟨returned, last, ?_, kept, same ▸ outcome⟩
      rw [loop, if_pos more]
      split <;> rename_i here <;> rw [fetched] at here <;> cases here
      rw [UInt64.sub_add_cancel, ran]
  | case4 len bufptr r more r' fetched =>
      obtain ⟨done, left, sound'⟩ := fetch_eof sound fetched
      have rounds := rounds_left more
      refine ⟨.eof bufptr, r', ?_, sound', ?_⟩
      · rw [loop, if_pos more]
        split <;> rename_i here <;> rw [fetched] at here <;> cases here
        rfl
      · rw [done, left]
        have ended : Outcome (len - 1).toNat bufptr [] (.eof (bufptr ++ [])) [] :=
          .eof List.not_mem_nil (by rw [List.length_nil]; omega)
        rwa [List.append_nil] at ended
  | case5 len bufptr r more r' fetched => exact absurd fetched (fetch_fresh sound)
  | case6 len bufptr r done =>
      have none_ : (len - 1).toNat = 0 := by
        rw [gt_iff_lt, UInt64.lt_iff_toNat_lt, UInt64.toNat_zero] at done
        omega
      refine ⟨.emsgsize bufptr, r, by rw [loop, if_neg done], sound, ?_⟩
      have full : Outcome (len - 1).toNat bufptr r.stream (.emsgsize (bufptr ++ [])) r.stream :=
        .emsgsize [] r.stream List.not_mem_nil none_.symm rfl
      rwa [List.append_nil] at full

/-! Calls in turn. -/

def initially (fd : Socket) : Reader := ⟨0, [], fd⟩

def called (network : Network) (len : UInt64) (r : Reader) : Nat → Option Reader
  | 0 => some r
  | k + 1 => (called network len r k).bind fun r => (readline network len r).map (·.2)

/-- What a call has stored for a line or with EMSGSIZE, without the NUL. -/
def Returned.bytes : Returned → List UInt8
  | .line stored _ => stored.dropLast
  | .eof _ => []
  | .emsgsize stored => stored

def consumed (network : Network) (len : UInt64) (r : Reader) : Nat → Option (List UInt8 × Reader)
  | 0 => some ([], r)
  | k + 1 => (consumed network len r k).bind fun (bytes, before) =>
      (readline network len before).map fun (returned, after) => (bytes ++ returned.bytes, after)

theorem readline_outcome (network : Network) (len : UInt64) (r : Reader) (sound : Sound r) :
    ∃ returned r', readline network len r = some (returned, r') ∧ Sound r' ∧
      Outcome (len - 1).toNat [] r.stream returned r'.stream := by
  rw [readline]
  exact loop_outcome network len [] r sound

theorem Outcome.bytes {count : Nat} {stream rest : List UInt8} {returned : Returned}
    (outcome : Outcome count [] stream returned rest) :
    returned.bytes <+: stream ∧ (rest ≠ [] → returned.bytes ++ rest = stream) := by
  cases outcome with
  | line text rest free room begins =>
      have without : (text ++ [newline, 0]).dropLast = text ++ [newline] := by
        rw [List.dropLast_append_of_ne_nil (List.cons_ne_nil _ _)]
        rfl
      have same : (text ++ [newline, 0]).dropLast ++ rest = stream := by
        rw [without, begins, List.append_assoc, List.singleton_append]
      exact ⟨⟨rest, same⟩, fun _ => same⟩
  | eof free room => exact ⟨List.nil_prefix, fun more => absurd rfl more⟩
  | emsgsize text rest free full begins => exact ⟨⟨rest, begins.symm⟩, fun _ => begins.symm⟩

/-- Nothing is lost before the end of the stream, and after it nothing comes. -/
theorem consumed_prefix (network : Network) (len : UInt64) (r : Reader) (sound : Sound r) (k : Nat) :
    ∃ bytes after, consumed network len r k = some (bytes, after) ∧ Sound after ∧
      bytes <+: r.stream ∧ (after.stream ≠ [] → bytes ++ after.stream = r.stream) := by
  induction k with
  | zero => exact ⟨[], r, rfl, sound, List.nil_prefix, fun _ => rfl⟩
  | succ k ih =>
      obtain ⟨bytes, before, ran, kept, part, whole⟩ := ih
      obtain ⟨returned, after, returns, sound', outcome⟩ := readline_outcome network len before kept
      have goes : consumed network len r (k + 1) = some (bytes ++ returned.bytes, after) := by
        simp only [consumed, ran, Option.bind_some, returns, Option.map_some]
      obtain ⟨stored, left⟩ := outcome.bytes
      refine ⟨bytes ++ returned.bytes, after, goes, sound', ?_⟩
      by_cases nothing : before.stream = []
      · rw [nothing] at stored left
        have none_ : returned.bytes = [] := List.prefix_nil.mp stored
        rw [none_, List.append_nil]
        refine ⟨part, fun more => absurd ?_ more⟩
        have both := left more
        rw [none_, List.nil_append] at both
        exact both
      · have all := whole nothing
        constructor
        · rw [← all]
          exact (List.prefix_append_right_inj bytes).mpr stored
        · intro more
          rw [List.append_assoc, left more, all]

theorem first_line {text line rest more : List UInt8} (free : newline ∉ text)
    (inside : newline ∉ line) (same : text ++ newline :: rest = line ++ newline :: more) :
    text = line ∧ rest = more := by
  have cut (front behind : List UInt8) (absent : newline ∉ front) :
      (front ++ newline :: behind).takeWhile (· ≠ newline) = front := by
    rw [List.takeWhile_append_of_pos (by
      intro c member
      rw [decide_eq_true_eq]
      rintro rfl
      exact absent member)]
    simp
  have front : text = line := by rw [← cut text rest free, same, cut line more inside]
  rw [front] at same
  exact ⟨front, (List.cons.inj (List.append_cancel_left same)).2⟩

theorem outcome_line {count : Nat} {line more rest : List UInt8} {returned : Returned}
    (inside : newline ∉ line) (room : line.length < count)
    (outcome : Outcome count [] (line ++ newline :: more) returned rest) :
    returned = .line (line ++ [newline, 0]) (int (line ++ [newline]).length) ∧ rest = more := by
  generalize stream : line ++ newline :: more = before at outcome
  cases outcome with
  | line text rest free _ begins =>
      obtain ⟨rfl, rfl⟩ := first_line free inside (begins.symm.trans stream.symm)
      exact ⟨rfl, rfl⟩
  | eof free _ =>
      rw [← stream] at free
      exact absurd (List.mem_append_right line List.mem_cons_self) free
  | emsgsize text rest free full begins =>
      have longer : line ++ [newline] <+: text := by
        have first : line ++ [newline] <+: before := ⟨more, by rw [← stream]; simp⟩
        apply List.prefix_of_prefix_length_le first ⟨rest, begins.symm⟩
        rw [List.length_append, List.length_singleton]
        omega
      exact absurd (longer.subset (List.mem_append_right line List.mem_cons_self)) free

theorem outcome_tail {count : Nat} {tail rest : List UInt8} {returned : Returned}
    (free : newline ∉ tail) (outcome : Outcome count [] tail returned rest) :
    newline ∉ rest ∧ ∀ stored length, returned ≠ .line stored length := by
  cases outcome with
  | line text rest _ _ begins =>
      rw [begins] at free
      exact absurd (List.mem_append_right text List.mem_cons_self) free
  | eof _ _ =>
      exact ⟨List.not_mem_nil, fun stored length => Returned.noConfusion⟩
  | emsgsize text rest _ _ begins =>
      rw [begins] at free
      exact ⟨fun member => free (List.mem_append_right text member),
        fun stored length => Returned.noConfusion⟩

def whole (lines : List (List UInt8)) (tail : List UInt8) : List UInt8 :=
  lines.flatMap (· ++ [newline]) ++ tail

theorem whole_cons (line : List UInt8) (lines : List (List UInt8)) (tail : List UInt8) :
    whole (line :: lines) tail = line ++ newline :: whole lines tail := by
  simp [whole]

theorem called_behind (network : Network) (len : UInt64) (lines : List (List UInt8))
    (tail : List UInt8) (r : Reader) (sound : Sound r) (last : newline ∉ tail)
    (fit : ∀ line ∈ lines, newline ∉ line ∧ line.length < (len - 1).toNat)
    (stream : r.stream = whole lines tail) (k : Nat) :
    ∃ before rest, called network len r k = some before ∧ Sound before ∧
      newline ∉ rest ∧ before.stream = whole (lines.drop k) rest := by
  induction k with
  | zero => exact ⟨r, tail, rfl, sound, last, stream⟩
  | succ k ih =>
      obtain ⟨before, rest, reached, kept, free, left⟩ := ih
      obtain ⟨returned, after, ran, sound', outcome⟩ := readline_outcome network len before kept
      have goes : called network len r (k + 1) = some after := by
        rw [called, reached, Option.bind_some, ran, Option.map_some]
      have others : lines.drop (k + 1) = (lines.drop k).tail := List.drop_add_one_eq_tail_drop
      rw [others]
      rw [left] at outcome
      cases behind : lines.drop k with
      | nil =>
          rw [behind] at outcome
          exact ⟨after, after.stream, goes, sound', (outcome_tail free outcome).1, rfl⟩
      | cons line later =>
          have member : line ∈ lines :=
            List.mem_of_mem_drop (by rw [behind]; exact List.mem_cons_self)
          rw [behind, whole_cons] at outcome
          have room := fit line member
          exact ⟨after, rest, goes, sound', free, (outcome_line room.1 room.2 outcome).2⟩

theorem readline_in_turn (network : Network) (len : UInt64) (fd : Socket) (k : Nat) :
    (∃ bytes after, consumed network len (initially fd) k = some (bytes, after) ∧
      bytes <+: fd.stream ∧ (after.stream ≠ [] → bytes ++ after.stream = fd.stream)) ∧
    ∀ lines tail, 2 ≤ len → newline ∉ tail → fd.stream = whole lines tail →
      (∀ line ∈ lines, newline ∉ line ∧ line.length ≤ len.toNat - 2 ∧
        line.length ≤ 2 ^ 31 - 2) →
      ∃ before returned after, called network len (initially fd) k = some before ∧
        readline network len before = some (returned, after) ∧
        (∀ line, lines[k]? = some line →
          returned = .line (line ++ [newline, 0]) (line.length + 1) ∧
            (line ++ [newline, 0]).length ≤ len.toNat) ∧
        (lines[k]? = none → ∀ stored length, returned ≠ .line stored length) := by
  have sound : Sound (initially fd) := rfl
  constructor
  · obtain ⟨bytes, after, ran, -, part, whole⟩ := consumed_prefix network len _ sound k
    exact ⟨bytes, after, ran, part, whole⟩
  · intro lines tail two last stream fit
    have least : 2 ≤ len.toNat := by
      rw [UInt64.le_iff_toNat_le] at two
      exact two
    have rounds : (len - 1).toNat = len.toNat - 1 :=
      UInt64.toNat_sub_of_le _ _ (by rw [UInt64.le_iff_toNat_le]; exact Nat.le_of_succ_le least)
    have room (line : List UInt8) (member : line ∈ lines) :
        newline ∉ line ∧ line.length < (len - 1).toNat := by
      obtain ⟨inside, most, -⟩ := fit line member
      exact ⟨inside, by omega⟩
    -- the calls before the k-th have taken the lines before it, and nothing else
    obtain ⟨before, rest, reached, kept, free, left⟩ :=
      called_behind network len lines tail (initially fd) sound last room stream k
    obtain ⟨returned, after, ran, -, outcome⟩ := readline_outcome network len before kept
    have first : lines[k]? = (lines.drop k).head? := by rw [List.head?_drop]
    refine ⟨before, returned, after, reached, ran, ?_⟩
    rw [first]
    rw [left] at outcome
    cases behind : lines.drop k with
    | nil =>
        rw [behind] at outcome
        exact ⟨fun line none_ => (Option.some_ne_none line none_.symm).elim,
          fun _ => (outcome_tail free outcome).2⟩
    | cons line later =>
        have member : line ∈ lines :=
          List.mem_of_mem_drop (by rw [behind]; exact List.mem_cons_self)
        obtain ⟨inside, most, counted⟩ := fit line member
        rw [behind, whole_cons] at outcome
        obtain ⟨rfl, -⟩ := outcome_line inside (room line member).2 outcome
        have length : int (line ++ [newline]).length = line.length + 1 := by
          rw [List.length_append, List.length_singleton, int_small (by omega) (by omega)]
          rfl
        constructor
        · rintro _ ⟨⟩
          rw [length, List.length_append, List.length_cons, List.length_singleton]
          exact ⟨rfl, by omega⟩
        · intro none_
          cases none_

theorem second_line_read :
    (∃ bytes after,
      consumed (fun n => ⟨n, n⟩) 4 (initially ⟨whole [[97], [98, 99]] [100], 0, 1⟩) 1 =
        some (bytes, after) ∧
      bytes <+: whole [[97], [98, 99]] [100] ∧
      (after.stream ≠ [] → bytes ++ after.stream = whole [[97], [98, 99]] [100])) ∧
    ∃ before returned after,
      called (fun n => ⟨n, n⟩) 4 (initially ⟨whole [[97], [98, 99]] [100], 0, 1⟩) 1 = some before ∧
      readline (fun n => ⟨n, n⟩) 4 before = some (returned, after) ∧
      returned = .line [98, 99, newline, 0] 3 := by
  obtain ⟨stored, lines⟩ := readline_in_turn (fun n => ⟨n, n⟩) 4
    ⟨whole [[97], [98, 99]] [100], 0, 1⟩ 1
  obtain ⟨before, returned, after, reached, ran, line, -⟩ :=
    lines [[97], [98, 99]] [100] (by decide) (by decide) rfl (by decide)
  exact ⟨stored, before, returned, after, reached, ran, (line [98, 99] rfl).1⟩

theorem longest_line_wraps (network : Network) (line : List UInt8) (inside : newline ∉ line)
    (length : line.length = 2 ^ 31 - 1) : ∃ after,
      readline network 2147483649 (initially ⟨whole [line] [], 0, 0⟩) =
        some (.line (line ++ [newline, 0]) (-2 ^ 31), after) := by
  have rounds : ((2147483649 : UInt64) - 1).toNat = 2 ^ 31 := rfl
  obtain ⟨returned, after, ran, -, outcome⟩ := readline_outcome network 2147483649
    (initially ⟨whole [line] [], 0, 0⟩) rfl
  have begins : (initially ⟨whole [line] [], 0, 0⟩).stream = line ++ newline :: [] := by
    simp [initially, Reader.stream, whole]
  have wrapped : int (line ++ [newline]).length = -2 ^ 31 := by
    rw [List.length_append, List.length_singleton, length]
    decide
  rw [begins, rounds] at outcome
  obtain ⟨rfl, -⟩ := outcome_line inside (by omega) outcome
  rw [wrapped] at ran
  exact ⟨after, ran⟩

theorem length_not_returned : ∃ stored length after,
    readline (fun _ => ⟨0, 1⟩) 2147483649
        (initially ⟨whole [List.replicate (2 ^ 31 - 1) 97] [], 0, 0⟩) =
      some (.line stored length, after) ∧
    ¬ (length : Int) = (List.replicate (2 ^ 31 - 1) (97 : UInt8)).length + 1 := by
  have inside : newline ∉ List.replicate (2 ^ 31 - 1) 97 := by
    intro member
    exact absurd (List.eq_of_mem_replicate member) (by decide)
  obtain ⟨after, ran⟩ := longest_line_wraps (fun _ => ⟨0, 1⟩) _ inside List.length_replicate
  refine ⟨_, _, after, ran, ?_⟩
  rw [List.length_replicate]
  decide

end NetworkProgramming.EtcpReadline
