import NetworkProgramming.CText

/-!
The text of a survey: conductSurvey of SurveyServer2.cpp writes it and readSurvey of
SurveyCommon.cpp reads it. Formatted extraction skips white space before a number, and
leaves what is behind it; getline skips nothing.
-/

namespace NetworkProgramming.SurveyFile

open CText

def INT_MAX : Int := 2147483647
def INT_MIN : Int := -2147483648

structure IStream where
  text : List UInt8
  eofbit : Bool
  failbit : Bool
  deriving DecidableEq

def IStream.good (s : IStream) : Bool := !s.eofbit && !s.failbit

/-- stream >> count; what is left of the text after a failure is never read. -/
def extract (s : IStream) (count : Int) : Int × IStream :=
  if !s.good then (count, { s with failbit := true })
  else
    match s.text.dropWhile isspace with
    | [] => (count, ⟨[], true, true⟩)
    | first =>
        match leading first with
        | none => (0, ⟨first, false, true⟩)
        | some (n, rest) =>
            if INT_MAX < n then (INT_MAX, ⟨rest, decide (rest = []), true⟩)
            else if n < INT_MIN then (INT_MIN, ⟨rest, decide (rest = []), true⟩)
            else (n, ⟨rest, decide (rest = []), false⟩)

def ignore (s : IStream) : IStream :=
  if !s.good then { s with failbit := true }
  else
    match s.text with
    | [] => ⟨[], true, false⟩
    | _ :: rest => ⟨rest, false, false⟩

/-- The text before the next newline, which is taken; at the end of the file all the
text there is, and a failure if there is none. -/
def getline (s : IStream) (old : List UInt8) : List UInt8 × IStream :=
  if !s.good then (old, { s with failbit := true })
  else
    match s.text.dropWhile (· ≠ newline) with
    | [] => (s.text, ⟨[], true, decide (s.text = [])⟩)
    | _ :: rest => (s.text.takeWhile (· ≠ newline), ⟨rest, false, false⟩)

structure Question where
  qText : List UInt8
  rList : List (List UInt8)
  deriving DecidableEq

inductive Thrown where
  | lengthError
  deriving DecidableEq

def readResponses : Nat → IStream → List (List UInt8) × IStream
  | 0, s => ([], s)
  | count + 1, s =>
      let line := getline s []
      let others := readResponses count line.2
      (line.1 :: others.1, others.2)

def readQuestion (s : IStream) : Except Thrown (Question × IStream) :=
  let line := getline s []
  -- Read number of responses, and skip past newline.
  let (count, s) := extract line.2 0
  if count < 0 then .error .lengthError
  else
    let responses := readResponses count.toNat (ignore s)
    .ok (⟨line.1, responses.1⟩, responses.2)

def readQuestions : Nat → IStream → Except Thrown (List Question × IStream)
  | 0, s => .ok ([], s)
  | count + 1, s =>
      match readQuestion s with
      | .error thrown => .error thrown
      | .ok (question, s) => (readQuestions count s).map fun r => (question :: r.1, r.2)

/-- What is returned, and left in qList. -/
def readSurvey (s : IStream) : Except Thrown (Bool × List Question) :=
  let (count, s) := extract s 0
  if count < 0 then .error .lengthError
  else (readQuestions count.toNat (ignore s)).map fun r => (!r.2.failbit, r.1)

def writtenQuestion (q : Question) : List UInt8 :=
  q.qText ++ newline :: (decimal q.rList.length ++ newline ::
    q.rList.flatMap fun response => response ++ [newline])

def written (qList : List Question) : List UInt8 :=
  decimal qList.length ++ newline :: qList.flatMap writtenQuestion

structure Question.Lines (q : Question) : Prop where
  qText : newline ∉ q.qText
  rList : ∀ response ∈ q.rList, newline ∉ response

theorem extract_decimal (n : Nat) (rest : List UInt8) (old : Int) :
    extract ⟨decimal n ++ newline :: rest, false, false⟩ old =
      if INT_MAX < (n : Int) then (INT_MAX, ⟨newline :: rest, false, true⟩)
      else ((n : Int), ⟨newline :: rest, false, false⟩) := by
  have ends : WordEnds (newline :: rest) := Or.inr ⟨newline, rest, rfl, by decide⟩
  have number := leading_append (decimal n) (newline :: rest) [] n ends (leading_decimal n)
  obtain ⟨b, digits, same, -⟩ := decimal_head n
  have visible := decimal_visible n (newline :: rest)
  have low : ¬ (n : Int) < INT_MIN := by
    rw [INT_MIN]
    omega
  rw [extract]
  simp only [IStream.good, Bool.not_false, Bool.and_self, Bool.not_true, Bool.false_eq_true,
    if_false, visible]
  rw [same, List.cons_append] at number ⊢
  simp only [number, low, if_false, List.nil_append, reduceCtorEq, decide_false]

/-! Where the counts fit in an int. -/

theorem extract_number (n : Nat) (rest : List UInt8) (old : Int) (fits : (n : Int) ≤ INT_MAX) :
    extract ⟨decimal n ++ newline :: rest, false, false⟩ old =
      ((n : Int), ⟨newline :: rest, false, false⟩) := by
  rw [extract_decimal, if_neg (Int.not_lt.mpr fits)]

theorem ignore_newline (rest : List UInt8) :
    ignore ⟨newline :: rest, false, false⟩ = ⟨rest, false, false⟩ := rfl

theorem getline_line (line rest old : List UInt8) (absent : newline ∉ line) :
    getline ⟨line ++ newline :: rest, false, false⟩ old = (line, ⟨rest, false, false⟩) := by
  have before : ∀ b ∈ line, decide (b ≠ newline) = true := fun b member => by
    simpa using fun same : b = newline => absent (same ▸ member)
  have left : (line ++ newline :: rest).dropWhile (· ≠ newline) = newline :: rest := by
    rw [List.dropWhile_append_of_pos before, List.dropWhile_cons_of_neg (by simp)]
  have taken : (line ++ newline :: rest).takeWhile (· ≠ newline) = line := by
    rw [List.takeWhile_append_of_pos before, List.takeWhile_cons_of_neg (by simp), List.append_nil]
  rw [getline]
  simp only [IStream.good, Bool.not_false, Bool.and_self, Bool.not_true, Bool.false_eq_true,
    if_false, left, taken]

theorem read_responses_written (rList : List (List UInt8)) (rest : List UInt8)
    (lines : ∀ response ∈ rList, newline ∉ response) :
    readResponses rList.length
        ⟨(rList.flatMap fun response => response ++ [newline]) ++ rest, false, false⟩ =
      (rList, ⟨rest, false, false⟩) := by
  induction rList with
  | nil => rfl
  | cons response rList ih =>
      have here := lines response List.mem_cons_self
      have others := ih fun r member => lines r (List.mem_cons_of_mem response member)
      rw [List.flatMap_cons, List.append_assoc, List.append_assoc, List.singleton_append,
        List.length_cons, readResponses, getline_line response _ [] here]
      simp only [others]

theorem read_question_written (q : Question) (rest : List UInt8) (lines : q.Lines)
    (fits : (q.rList.length : Int) ≤ INT_MAX) :
    readQuestion ⟨writtenQuestion q ++ rest, false, false⟩ = .ok (q, ⟨rest, false, false⟩) := by
  have responses := read_responses_written q.rList rest lines.rList
  have count : ¬ (q.rList.length : Int) < 0 := by omega
  rw [writtenQuestion, List.append_assoc, List.cons_append, List.append_assoc, List.cons_append,
    readQuestion, getline_line q.qText _ [] lines.qText, extract_number _ _ 0 fits]
  simp only [count, if_false, ignore_newline, Int.toNat_natCast, responses]

theorem read_questions_written (qList : List Question) (rest : List UInt8)
    (lines : ∀ q ∈ qList, q.Lines) (fits : ∀ q ∈ qList, (q.rList.length : Int) ≤ INT_MAX) :
    readQuestions qList.length ⟨qList.flatMap writtenQuestion ++ rest, false, false⟩ =
      .ok (qList, ⟨rest, false, false⟩) := by
  induction qList with
  | nil => rfl
  | cons q qList ih =>
      have others := ih (fun p member => lines p (List.mem_cons_of_mem q member))
        fun p member => fits p (List.mem_cons_of_mem q member)
      rw [List.flatMap_cons, List.append_assoc, List.length_cons, readQuestions,
        read_question_written q _ (lines q List.mem_cons_self) (fits q List.mem_cons_self)]
      simp only [others, Except.map]

/-! A count that does not fit fails the stream, and a failed stream stays so. -/

theorem extract_large (n : Nat) (rest : List UInt8) (old : Int) (large : INT_MAX < (n : Int)) :
    extract ⟨decimal n ++ newline :: rest, false, false⟩ old =
      (INT_MAX, ⟨newline :: rest, false, true⟩) := by
  rw [extract_decimal, if_pos large]

theorem ignore_failed (text : List UInt8) (eof : Bool) :
    ignore ⟨text, eof, true⟩ = ⟨text, eof, true⟩ := by
  simp [ignore, IStream.good]

theorem getline_failed (text old : List UInt8) (eof : Bool) :
    getline ⟨text, eof, true⟩ old = (old, ⟨text, eof, true⟩) := by
  simp [getline, IStream.good]

theorem read_responses_failed (count : Nat) (text : List UInt8) (eof : Bool) :
    (readResponses count ⟨text, eof, true⟩).2 = ⟨text, eof, true⟩ := by
  induction count with
  | zero => rfl
  | succ count ih => rw [readResponses, getline_failed, ih]

theorem extract_failed (text : List UInt8) (eof : Bool) (old : Int) :
    extract ⟨text, eof, true⟩ old = (old, ⟨text, eof, true⟩) := by
  simp [extract, IStream.good]

theorem read_question_failed (text : List UInt8) (eof : Bool) :
    readQuestion ⟨text, eof, true⟩ = .ok (⟨[], []⟩, ⟨text, eof, true⟩) := by
  rw [readQuestion, getline_failed]
  dsimp only
  rw [extract_failed]
  simp only [Int.lt_irrefl, if_false, ignore_failed, Int.toNat_zero, readResponses]

theorem read_questions_failed (count : Nat) (text : List UInt8) (eof : Bool) :
    ∃ qList, readQuestions count ⟨text, eof, true⟩ = .ok (qList, ⟨text, eof, true⟩) := by
  induction count with
  | zero => exact ⟨[], rfl⟩
  | succ count ih =>
      obtain ⟨qList, others⟩ := ih
      refine ⟨⟨[], []⟩ :: qList, ?_⟩
      simp only [readQuestions, read_question_failed, others, Except.map]

theorem read_question_large (q : Question) (rest : List UInt8) (lines : q.Lines)
    (large : INT_MAX < (q.rList.length : Int)) :
    ∃ question text, readQuestion ⟨writtenQuestion q ++ rest, false, false⟩ =
      .ok (question, ⟨text, false, true⟩) := by
  have count : ¬ INT_MAX < 0 := by decide
  rw [writtenQuestion, List.append_assoc, List.cons_append, List.append_assoc, List.cons_append,
    readQuestion, getline_line q.qText _ [] lines.qText, extract_large _ _ 0 large]
  simp only [count, if_false, ignore_failed, read_responses_failed]
  exact ⟨_, _, rfl⟩

theorem read_questions_large (qList : List Question) (rest : List UInt8)
    (lines : ∀ q ∈ qList, q.Lines) (large : ∃ q ∈ qList, INT_MAX < (q.rList.length : Int)) :
    ∃ questions text eof,
      readQuestions qList.length ⟨qList.flatMap writtenQuestion ++ rest, false, false⟩ =
        .ok (questions, ⟨text, eof, true⟩) := by
  induction qList with
  | nil =>
      obtain ⟨q, member, -⟩ := large
      cases member
  | cons q qList ih =>
      have here := lines q List.mem_cons_self
      rw [List.flatMap_cons, List.append_assoc, List.length_cons, readQuestions]
      by_cases fits : (q.rList.length : Int) ≤ INT_MAX
      · have later : ∃ p ∈ qList, INT_MAX < (p.rList.length : Int) := by
          obtain ⟨p, member, long⟩ := large
          rcases List.mem_cons.mp member with rfl | behind
          · exact absurd fits (Int.not_le.mpr long)
          · exact ⟨p, behind, long⟩
        obtain ⟨questions, text, eof, read⟩ :=
          ih (fun p member => lines p (List.mem_cons_of_mem q member)) later
        rw [read_question_written q _ here fits]
        exact ⟨q :: questions, text, eof, by simp only [read, Except.map]⟩
      · obtain ⟨question, text, first⟩ :=
          read_question_large q (qList.flatMap writtenQuestion ++ rest) here (Int.not_le.mp fits)
        obtain ⟨questions, others⟩ := read_questions_failed qList.length text false
        rw [first]
        exact ⟨question :: questions, text, false, by simp only [others, Except.map]⟩

/-- The counts are read into an int. -/
def Countable (qList : List Question) : Prop :=
  (qList.length : Int) ≤ INT_MAX ∧ ∀ q ∈ qList, (q.rList.length : Int) ≤ INT_MAX

theorem read_survey_counted (s after : IStream) (count : Int)
    (extracted : extract s 0 = (count, after)) (positive : ¬ count < 0) :
    readSurvey s = (readQuestions count.toNat (ignore after)).map fun r => (!r.2.failbit, r.1) := by
  rw [readSurvey, extracted]
  exact if_neg positive

theorem read_survey_large (qList : List Question) (large : INT_MAX < (qList.length : Int)) :
    ∃ questions, readSurvey ⟨written qList, false, false⟩ = .ok (false, questions) := by
  have extracted := extract_large qList.length (qList.flatMap writtenQuestion) 0 large
  have read := read_survey_counted ⟨written qList, false, false⟩ _ INT_MAX extracted (by decide)
  generalize INT_MAX.toNat = count at read
  obtain ⟨questions, failed⟩ :=
    read_questions_failed count (newline :: qList.flatMap writtenQuestion) false
  exact ⟨questions, by rw [read, ignore_failed, failed]; rfl⟩

theorem survey_read_back_iff (qList : List Question) (lines : ∀ q ∈ qList, q.Lines) :
    readSurvey ⟨written qList, false, false⟩ = .ok (true, qList) ↔ Countable qList := by
  constructor
  · intro read
    by_contra other
    by_cases fits : (qList.length : Int) ≤ INT_MAX
    · have large : ∃ q ∈ qList, INT_MAX < (q.rList.length : Int) := by
        by_contra none_
        refine other ⟨fits, fun q member => ?_⟩
        by_contra long
        exact none_ ⟨q, member, Int.not_le.mp long⟩
      obtain ⟨questions, text, eof, failed⟩ := read_questions_large qList [] lines large
      have count : ¬ (qList.length : Int) < 0 := by omega
      rw [List.append_nil] at failed
      rw [readSurvey, written, extract_number _ _ 0 fits] at read
      simp [count, ignore_newline, failed, Except.map] at read
    · obtain ⟨questions, failed⟩ := read_survey_large qList (Int.not_le.mp fits)
      rw [failed] at read
      cases read
  · rintro ⟨fits, each⟩
    have questions := read_questions_written qList [] lines each
    have count : ¬ (qList.length : Int) < 0 := by omega
    rw [List.append_nil] at questions
    rw [readSurvey, written, extract_number _ _ 0 fits]
    simp only [count, if_false, ignore_newline, Int.toNat_natCast, questions, Except.map]
    rfl

def twoQuestions : List Question :=
  [⟨bytes " 12", []⟩, ⟨bytes "", [bytes "", bytes "  7 ", bytes "no"]⟩]

theorem two_questions_read_back :
    readSurvey ⟨written twoQuestions, false, false⟩ = .ok (true, twoQuestions) := by
  refine (survey_read_back_iff twoQuestions ?_).mpr ⟨by decide, by decide⟩
  intro q member
  simp only [twoQuestions, List.mem_cons, List.not_mem_nil, or_false] at member
  rcases member with rfl | rfl
  · exact ⟨by decide, by decide⟩
  · exact ⟨by decide, by decide⟩

theorem many_questions_fail :
    ∃ questions, readSurvey ⟨written (List.replicate (2 ^ 31) ⟨[], []⟩), false, false⟩ =
      .ok (false, questions) := by
  apply read_survey_large
  rw [List.length_replicate]
  decide

end NetworkProgramming.SurveyFile
