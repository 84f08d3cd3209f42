import Mathlib.Algebra.Order.Ring.Int
import NetworkProgramming.CText
import NetworkProgramming.Strtok
import NetworkProgramming.VoteProtocol

/-!
VoteEncodingText.c. The space left is a long that snprintf takes as a size_t, and
snprintf answers with the length of the whole text even if it stores less of it.
The decoder reads inBuf as a C string, from token to token.
-/

namespace NetworkProgramming.VoteEncodingText

open CText LinearBuffer Strtok VoteProtocol

def long (n : Int) : Int := (n + 2 ^ 63) % 2 ^ 64 - 2 ^ 63
def sizeT (n : Int) : Nat := (n % 2 ^ 64).toNat

-- The conversion %d.
def signed (n : Int) : List UInt8 :=
  if n < 0 then 45 :: decimal n.natAbs else decimal n.natAbs

def snprintf (bufPtr : Nat) (size : Int) (text : List UInt8) : Stores :=
  if sizeT size = 0 then [] else [(bufPtr, CText.snprintf (sizeT size) text ++ [0])]

def MAGIC : List UInt8 := bytes "Voting"

-- "%s %c %s %d"
def vote (v : VoteInfo) : List UInt8 :=
  MAGIC ++ space :: (if v.isInquiry then 105 else 118) :: space ::
    (bytes (if v.isResponse then "R" else "") ++ space :: signed v.candidate)

-- " %llu"
def votes (v : VoteInfo) : List UInt8 := space :: decimal v.count.toNat

def encode (v : VoteInfo) (bufSize : Nat) : Encoded :=
  let size := long bufSize
  let rv := (vote v).length
  let first := snprintf 0 size (vote v)
  if v.isResponse then
    { size := rv + (votes v).length, stores := first ++ snprintf rv (long (size - rv)) (votes v) }
  else { size := rv, stores := first }

def encoding : VoteEncoding := ⟨fun v bufSize => .ok (encode v bufSize)⟩

def wire (v : VoteInfo) : List UInt8 := vote v ++ if v.isResponse then votes v else []

/-! A text that snprintf has room for. -/

theorem snprintf_fits (bufPtr : Nat) (size : Nat) (text : List UInt8) (room : text.length < size)
    (small : size < 2 ^ 63) : snprintf bufPtr size text = [(bufPtr, text ++ [0])] := by
  have exact_ : sizeT size = size := by
    rw [sizeT]
    omega
  rw [snprintf, exact_, if_neg (by omega), CText.snprintf, List.take_of_length_le (by omega)]

theorem signed_length (n : Int) (valid : 0 ≤ n ∧ n ≤ MAX_CANDIDATE) : (signed n).length ≤ 4 := by
  rw [signed, if_neg (by omega)]
  refine decimal_length _ 4 (by omega) ?_
  rw [MAX_CANDIDATE] at valid
  omega

theorem vote_length (v : VoteInfo) (valid : v.Valid) : (vote v).length ≤ 15 := by
  have number := signed_length v.candidate valid.candidate
  have flag : (bytes (if v.isResponse then "R" else "")).length ≤ 1 := by
    cases v.isResponse <;> decide
  have magic : MAGIC.length = 6 := by decide
  simp only [vote, List.length_append, List.length_cons, magic]
  omega

theorem votes_length (v : VoteInfo) : (votes v).length ≤ 21 := by
  have number : (decimal v.count.toNat).length ≤ 20 :=
    decimal_length _ 20 (by omega) (Nat.lt_trans v.count.toNat_lt (by decide))
  rw [votes, List.length_cons]
  omega

theorem wire_length (v : VoteInfo) (valid : v.Valid) : (wire v).length ≤ 36 := by
  have first := vote_length v valid
  have second := votes_length v
  rw [wire, List.length_append]
  split
  · omega
  · rw [List.length_nil]
    omega

theorem encode_size (v : VoteInfo) (bufSize : Nat) : (encode v bufSize).size = (wire v).length := by
  rw [encode, wire]
  split
  · rw [List.length_append]
  · rw [List.append_nil]

theorem encode_stores (v : VoteInfo) (valid : v.Valid) (outBuf : Nat → UInt8) :
    (encode v MAX_WIRE_SIZE).stores.after outBuf = store outBuf 0 (wire v ++ [0]) := by
  have first := vote_length v valid
  have second := votes_length v
  have size : long MAX_WIRE_SIZE = (500 : Nat) := by decide
  have left : long ((500 : Nat) - (vote v).length) = (500 - (vote v).length : Nat) := by
    rw [long]
    omega
  rw [encode, wire, size]
  simp only [snprintf_fits 0 500 (vote v) (by omega) (by omega), left,
    snprintf_fits _ _ (votes v) (show (votes v).length < 500 - (vote v).length by omega)
      (by omega)]
  split
  · -- The second text starts over the NUL of the first.
    simp only [Stores.after, List.cons_append, List.nil_append, List.foldl_cons, List.foldl_nil,
      votes]
    rw [List.append_assoc, store_append, store_append, Nat.zero_add, List.cons_append, store_over]
  · simp only [Stores.after, List.foldl_cons, List.foldl_nil, List.append_nil]

theorem encode_message (v : VoteInfo) (valid : v.Valid) (outBuf : Nat → UInt8) :
    (encode v MAX_WIRE_SIZE).message outBuf = wire v := by
  rw [Encoded.message, encode_stores v valid, encode_size, load_store_append]

/-! The bytes of a text are printable. -/

theorem newline_not_signed (n : Int) : newline ∉ signed n := by
  have digits := not_mem_decimal n.natAbs newline (by decide)
  rw [signed]
  split
  · rw [List.mem_cons, not_or]
    exact ⟨by decide, digits⟩
  · exact digits

theorem newline_not_wire (v : VoteInfo) : newline ∉ wire v := by
  have magic : newline ∉ MAGIC := by decide
  have flag : newline ∉ bytes (if v.isResponse then "R" else "") := by
    cases v.isResponse <;> decide
  have kind : newline ≠ if v.isInquiry then 105 else 118 := by
    cases v.isInquiry <;> decide
  have blank : newline ≠ space := by decide
  have candidate := newline_not_signed v.candidate
  have count := not_mem_decimal v.count.toNat newline (by decide)
  rw [wire, List.mem_append, not_or]
  constructor
  · simp only [vote, List.mem_append, List.mem_cons, magic, flag, kind, blank, candidate, or_self,
      not_false_eq_true]
  · split
    · rw [votes, List.mem_cons, not_or]
      exact ⟨blank, count⟩
    · exact List.not_mem_nil

/-! Decode, token by token. `none` is a strtok that runs past the end of inBuf. -/

def VOTESTR : List UInt8 := bytes "v"
def INQSTR : List UInt8 := bytes "i"
def RESPONSESTR : List UInt8 := bytes "R"
def DELIMSTR : UInt8 := space

-- strtoll, and strtol where a long has 64 bits.
def strtoll (text : List UInt8) : Int := max (-2 ^ 63) (min (2 ^ 63 - 1) (atol text))

-- The long is cut to an int.
def atoi (text : List UInt8) : Int := (strtoll text + 2 ^ 31) % 2 ^ 32 - 2 ^ 31

def fails (v : VoteInfo) (s : Saved) : Option Decoded := some ⟨false, v, s.array⟩
def succeeds (v : VoteInfo) (s : Saved) : Option Decoded := some ⟨true, v, s.array⟩

def next (use : Option (List UInt8) → Saved → Option Decoded) (s : Saved) : Option Decoded :=
  (strtok DELIMSTR s).bind fun r => use r.1 r.2

-- Response message should contain a count value.
def count (v : VoteInfo) : Saved → Option Decoded :=
  next fun token s =>
    match token with
    | none => fails v s
    | some token => succeeds { v with count := UInt64.ofInt (strtoll token) } s

def candidate (v : VoteInfo) : Saved → Option Decoded :=
  next fun token s =>
    match token with
    | none => fails v s
    | some token => count { v with candidate := atoi token } s

-- Next token is either Response flag or candidate ID.
def responseFlag (v : VoteInfo) : Saved → Option Decoded :=
  next fun token s =>
    match token with
    | none => fails v s
    | some token =>
        if token = RESPONSESTR then candidate { v with isResponse := true } s
        else succeeds { v with isResponse := false, candidate := atoi token, count := 0 } s

def indicator (v : VoteInfo) : Saved → Option Decoded :=
  next fun token s =>
    match token with
    | none => fails v s
    | some token =>
        if token = VOTESTR then responseFlag { v with isInquiry := false } s
        else if token = INQSTR then responseFlag { v with isInquiry := true } s
        else fails v s

def magic (v : VoteInfo) : Saved → Option Decoded :=
  next fun token s =>
    match token with
    | none => fails v s
    | some token => if token ≠ MAGIC then fails v s else indicator v s

/-- mSize is not used. -/
def decode (inBuf : List UInt8) (_mSize : Nat) (v : VoteInfo) : Option Decoded :=
  magic v ⟨[], inBuf⟩

/-! A decoder reads only as far as its tokens. -/

structure Lazy (f : Saved → Option Decoded) : Prop where
  append : ∀ s tail d, f s = some d →
    f ⟨s.passed, s.ahead ++ tail⟩ = some { d with inBuf := d.inBuf ++ tail }
  past : ∀ s tail, (∀ b ∈ tail, b ≠ 0 ∧ b ≠ DELIMSTR) → f s = none →
    f ⟨s.passed, s.ahead ++ tail⟩ = none
  terminated : ∀ s, 0 ∈ s.ahead → f s ≠ none

theorem lazy_some (result : Bool) (v : VoteInfo) : Lazy fun s => some ⟨result, v, s.array⟩ where
  append s tail d returned := by
    obtain rfl := Option.some.inj returned
    simp [Saved.array]
  past s tail _ none_ := by cases none_
  terminated s _ none_ := by cases none_

theorem lazy_ite (p : Prop) [Decidable p] (f g : Saved → Option Decoded) (yes : Lazy f)
    (no : Lazy g) : Lazy fun s => if p then f s else g s := by
  by_cases chosen : p
  · simpa only [if_pos chosen] using yes
  · simpa only [if_neg chosen] using no

theorem lazy_next (use : Option (List UInt8) → Saved → Option Decoded)
    (each : ∀ token, Lazy (use token)) : Lazy (next use) where
  append s tail d returned := by
    obtain ⟨⟨token, kept⟩, found, used⟩ := Option.bind_eq_some_iff.mp returned
    rw [next, strtok_append DELIMSTR s tail (by decide) token kept found]
    exact (each token).append kept tail d used
  past s tail word none_ := by
    rw [next, Option.bind_eq_none_iff] at none_
    cases found : strtok DELIMSTR s with
    | none => rw [next, strtok_past DELIMSTR s tail word found, Option.bind_none]
    | some r =>
        rw [next, strtok_append DELIMSTR s tail (by decide) r.1 r.2 found]
        exact (each r.1).past r.2 tail word (none_ r found)
  terminated s ended none_ := by
    obtain ⟨token, kept, found, still⟩ := strtok_terminated DELIMSTR s (by decide) ended
    rw [next, found, Option.bind_some] at none_
    exact (each token).terminated kept still none_

theorem lazy_count (v : VoteInfo) : Lazy (count v) := by
  refine lazy_next _ fun token => ?_
  cases token <;> exact lazy_some _ _

theorem lazy_candidate (v : VoteInfo) : Lazy (candidate v) := by
  refine lazy_next _ fun token => ?_
  cases token with
  | none => exact lazy_some _ _
  | some token => exact lazy_count _

theorem lazy_response_flag (v : VoteInfo) : Lazy (responseFlag v) := by
  refine lazy_next _ fun token => ?_
  cases token with
  | none => exact lazy_some _ _
  | some token => exact lazy_ite _ _ _ (lazy_candidate _) (lazy_some _ _)

theorem lazy_indicator (v : VoteInfo) : Lazy (indicator v) := by
  refine lazy_next _ fun token => ?_
  cases token with
  | none => exact lazy_some _ _
  | some token =>
      exact lazy_ite _ _ _ (lazy_response_flag _)
        (lazy_ite _ _ _ (lazy_response_flag _) (lazy_some _ _))

theorem lazy_magic (v : VoteInfo) : Lazy (magic v) := by
  refine lazy_next _ fun token => ?_
  cases token with
  | none => exact lazy_some _ _
  | some token => exact lazy_ite _ _ _ (lazy_some _ _) (lazy_indicator _)

/-! How many words that is. -/

def needed (words : List (List UInt8)) : Nat :=
  if words[0]? ≠ some MAGIC then 1
  else if words[1]? ≠ some VOTESTR ∧ words[1]? ≠ some INQSTR then 2
  else if words[2]? ≠ some RESPONSESTR then 3
  else 5

theorem next_words (use : Option (List UInt8) → Saved → Option Decoded) (s : Saved)
    (free : 0 ∉ s.ahead) :
    words DELIMSTR s.ahead = [] ∧ next use s = none ∨
      ∃ token kept, words DELIMSTR s.ahead = token :: words DELIMSTR kept.ahead ∧
        next use s = use (some token) kept ∧ 0 ∉ kept.ahead := by
  rcases strtok_words DELIMSTR s free with ⟨nothing, past⟩ | ⟨token, kept, split, found, still⟩
  · exact Or.inl ⟨nothing, by rw [next, past, Option.bind_none]⟩
  · exact Or.inr ⟨token, kept, split, by rw [next, found, Option.bind_some], still⟩

theorem count_none_iff (v : VoteInfo) (s : Saved) (free : 0 ∉ s.ahead) :
    count v s = none ↔ (words DELIMSTR s.ahead).length < 1 := by
  rcases next_words _ s free with ⟨nothing, past⟩ | ⟨token, kept, split, used, -⟩
  · rw [count, past, nothing]
    simp
  · rw [count, used, split]
    simp [succeeds]

theorem candidate_none_iff (v : VoteInfo) (s : Saved) (free : 0 ∉ s.ahead) :
    candidate v s = none ↔ (words DELIMSTR s.ahead).length < 2 := by
  rcases next_words _ s free with ⟨nothing, past⟩ | ⟨token, kept, split, used, still⟩
  · rw [candidate, past, nothing]
    simp
  · rw [candidate, used, split, List.length_cons]
    simp only [count_none_iff _ kept still]
    omega

theorem response_flag_none_iff (v : VoteInfo) (s : Saved) (free : 0 ∉ s.ahead) :
    responseFlag v s = none ↔ (words DELIMSTR s.ahead).length <
      if (words DELIMSTR s.ahead)[0]? ≠ some RESPONSESTR then 1 else 3 := by
  rcases next_words _ s free with ⟨nothing, past⟩ | ⟨token, kept, split, used, still⟩
  · rw [responseFlag, past, nothing]
    simp
  · rw [responseFlag, used, split, List.length_cons, List.getElem?_cons_zero]
    by_cases flag : token = RESPONSESTR
    · simp only [flag, ↓reduceIte, candidate_none_iff _ kept still, ne_eq, not_true]
      omega
    · simp [flag, succeeds]

theorem indicator_none_iff (v : VoteInfo) (s : Saved) (free : 0 ∉ s.ahead) :
    indicator v s = none ↔ (words DELIMSTR s.ahead).length <
      if (words DELIMSTR s.ahead)[0]? ≠ some VOTESTR ∧ (words DELIMSTR s.ahead)[0]? ≠ some INQSTR
      then 1 else if (words DELIMSTR s.ahead)[1]? ≠ some RESPONSESTR then 2 else 4 := by
  rcases next_words _ s free with ⟨nothing, past⟩ | ⟨token, kept, split, used, still⟩
  · rw [indicator, past, nothing]
    simp
  · have rest := fun v => response_flag_none_iff v kept still
    rw [indicator, used, split, List.length_cons, List.getElem?_cons_zero, List.getElem?_cons_succ]
    by_cases vote : token = VOTESTR
    · simp only [vote, ↓reduceIte, rest, ne_eq, not_true, false_and]
      split <;> omega
    · by_cases inquiry : token = INQSTR
      · have other : ¬ INQSTR = VOTESTR := inquiry ▸ vote
        simp only [inquiry, other, ↓reduceIte, rest, ne_eq, not_true, and_false]
        split <;> omega
      · simp [vote, inquiry, fails]

theorem decode_none_iff (message : List UInt8) (mSize : Nat) (v : VoteInfo) (free : 0 ∉ message) :
    decode message mSize v = none ↔
      (words DELIMSTR message).length < needed (words DELIMSTR message) := by
  rcases next_words _ ⟨[], message⟩ free with ⟨nothing, past⟩ | ⟨token, kept, split, used, still⟩
  · rw [decode, magic, past, nothing]
    simp [needed]
  · have rest := indicator_none_iff v kept still
    rw [decode, magic, used, split, needed, List.length_cons, List.getElem?_cons_zero,
      List.getElem?_cons_succ, List.getElem?_cons_succ]
    by_cases same : token = MAGIC
    · simp only [same, ne_eq, not_true, ↓reduceIte] at rest ⊢
      rw [rest]
      split
      · omega
      · split <;> omega
    · simp [same, fails]

/-! A message that Encode has written, with its NUL. -/

theorem next_token (use : Option (List UInt8) → Saved → Option Decoded)
    (passed token rest : List UInt8) (some_ : token ≠ [])
    (free : ∀ b ∈ token, b ≠ 0 ∧ b ≠ space) :
    next use ⟨passed, token ++ space :: rest⟩ = use (some token) ⟨passed ++ token ++ [0], rest⟩ := by
  have found := returns_strtok DELIMSTR ⟨passed, token ++ space :: rest⟩ _ (some token) (by decide)
    (.token (List.nil_append _).symm (by simp) some_ free)
  rw [next, found, Option.bind_some, List.append_nil]

theorem next_last (use : Option (List UInt8) → Saved → Option Decoded)
    (passed skipped token rest : List UInt8) (skips : ∀ b ∈ skipped, b = space)
    (some_ : token ≠ []) (free : ∀ b ∈ token, b ≠ 0 ∧ b ≠ space) :
    next use ⟨passed, skipped ++ (token ++ 0 :: rest)⟩ =
      use (some token) ⟨passed ++ skipped ++ token, 0 :: rest⟩ := by
  have found := returns_strtok DELIMSTR ⟨passed, skipped ++ (token ++ 0 :: rest)⟩ _
    (some token) (by decide) (.last rfl skips some_ free)
  rw [next, found, Option.bind_some]

theorem fixed_token : ∀ text ∈ ["Voting", "v", "i", "R"],
    bytes text ≠ [] ∧ ∀ b ∈ bytes text, b ≠ 0 ∧ b ≠ space := by
  have checked : ∀ text ∈ ["Voting", "v", "i", "R"],
      bytes text ≠ [] ∧ (bytes text).all (fun b => decide (b ≠ 0 ∧ b ≠ space)) = true := by
    decide +kernel
  intro text member
  obtain ⟨some_, all⟩ := checked text member
  refine ⟨some_, ?_⟩
  intro b inside
  exact of_decide_eq_true (List.all_eq_true.mp all b inside)

theorem decimal_token (n : Nat) : ∀ b ∈ decimal n, b ≠ 0 ∧ b ≠ space := by
  intro b member
  have digit := decimal_digits n b member
  constructor
  · rintro rfl
    cases digit
  · rintro rfl
    cases digit

theorem atoi_decimal (n : Nat) (small : n < 2 ^ 31) : atoi (decimal n) = n := by
  rw [atoi, strtoll, atol_decimal]
  omega

def parsed (count : UInt64) : UInt64 := UInt64.ofInt (strtoll (decimal count.toNat))

theorem parsed_iff (count : UInt64) : parsed count = count ↔ count.toNat < 2 ^ 63 := by
  have small := count.toNat_lt
  have value : (parsed count).toNat = min (2 ^ 63 - 1) count.toNat := by
    rw [parsed, strtoll, atol_decimal, UInt64.ofInt, UInt64.toNat_ofNat']
    omega
  rw [← UInt64.toNat_inj, value]
  omega

theorem count_read (v : VoteInfo) (passed tail : List UInt8) (votes : UInt64) :
    (count v ⟨passed, decimal votes.toNat ++ 0 :: tail⟩).bind Decoded.outcome =
      some { v with count := parsed votes } := by
  rw [count, ← List.nil_append (decimal votes.toNat ++ 0 :: tail),
    next_last _ passed [] _ tail (by simp) (decimal_ne_nil _) (decimal_token _)]
  rfl

theorem response_read (v : VoteInfo) (passed tail : List UInt8) (n : Nat) (small : n < 2 ^ 31)
    (votes : UInt64) :
    (responseFlag v ⟨passed, RESPONSESTR ++
        space :: (decimal n ++ space :: (decimal votes.toNat ++ 0 :: tail))⟩).bind Decoded.outcome =
      some { v with isResponse := true, candidate := n, count := parsed votes } := by
  obtain ⟨some_, free⟩ := fixed_token "R" (by simp)
  rw [responseFlag, next_token _ _ RESPONSESTR _ some_ free]
  simp only [↓reduceIte]
  rw [candidate, next_token _ _ _ _ (decimal_ne_nil n) (decimal_token n)]
  dsimp only
  rw [count_read, atoi_decimal n small]

theorem request_read (v : VoteInfo) (passed tail : List UInt8) (n : Nat) (small : n < 2 ^ 31) :
    (responseFlag v ⟨passed, [space] ++ (decimal n ++ 0 :: tail)⟩).bind Decoded.outcome =
      some { v with isResponse := false, candidate := n, count := 0 } := by
  have other : decimal n ≠ RESPONSESTR := by
    intro same
    have digit := decimal_digits n 82 (by rw [same]; decide)
    cases digit
  rw [responseFlag, next_last _ _ _ _ _ (by simp) (decimal_ne_nil n) (decimal_token n)]
  simp only [if_neg other, atoi_decimal n small]
  rfl

theorem indicator_read (v : VoteInfo) (passed rest : List UInt8) (isInquiry : Bool) :
    ∃ kept, indicator v ⟨passed, (if isInquiry then 105 else 118) :: space :: rest⟩ =
      responseFlag { v with isInquiry := isInquiry } ⟨kept, rest⟩ := by
  cases isInquiry with
  | false =>
      obtain ⟨some_, free⟩ := fixed_token "v" (by simp)
      exact ⟨_, next_token _ passed VOTESTR rest some_ free⟩
  | true =>
      obtain ⟨some_, free⟩ := fixed_token "i" (by simp)
      exact ⟨_, next_token _ passed INQSTR rest some_ free⟩

theorem decode_wire (v old : VoteInfo) (valid : v.Valid) (mSize : Nat) (tail : List UInt8) :
    (decode (wire v ++ 0 :: tail) mSize old).bind Decoded.outcome =
      some { v with count := if v.isResponse then parsed v.count else 0 } := by
  obtain ⟨votes_, candidate_, isInquiry, isResponse⟩ := v
  obtain ⟨⟨least, most⟩, -⟩ := valid
  dsimp only at least most
  obtain ⟨n, rfl⟩ := Int.eq_ofNat_of_zero_le least
  have digits : signed n = decimal n := by
    rw [signed, if_neg (by omega), Int.natAbs_natCast]
  have small : n < 2 ^ 31 := by
    rw [MAX_CANDIDATE] at most
    omega
  -- MAGIC and the indicator are the same in both kinds of message.
  have begun (rest : List UInt8) : ∃ kept,
      decode (MAGIC ++ space :: (if isInquiry then 105 else 118) :: space :: rest) mSize old =
        responseFlag { old with isInquiry := isInquiry } ⟨kept, rest⟩ := by
    obtain ⟨kept, read⟩ := indicator_read old (MAGIC ++ [0]) rest isInquiry
    refine ⟨kept, ?_⟩
    obtain ⟨some_, free⟩ := fixed_token "Voting" (by simp)
    rw [decode, magic, next_token _ [] MAGIC _ some_ free]
    simpa using read
  cases isResponse with
  | true =>
      have text : wire ⟨votes_, n, isInquiry, true⟩ ++ 0 :: tail =
          MAGIC ++ space :: (if isInquiry then 105 else 118) :: space :: (RESPONSESTR ++
            space :: (decimal n ++ space :: (decimal votes_.toNat ++ 0 :: tail))) := by
        simp [wire, vote, votes, digits, RESPONSESTR]
      obtain ⟨kept, read⟩ := begun _
      rw [text, read, response_read _ _ _ n small]
      rfl
  | false =>
      have text : wire ⟨votes_, n, isInquiry, false⟩ ++ 0 :: tail =
          MAGIC ++ space :: (if isInquiry then 105 else 118) :: space ::
            ([space] ++ (decimal n ++ 0 :: tail)) := by
        simp [wire, vote, digits, bytes]
      obtain ⟨kept, read⟩ := begun _
      rw [text, read, request_read _ _ _ n small]
      rfl

end NetworkProgramming.VoteEncodingText
