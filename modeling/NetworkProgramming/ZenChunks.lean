import NetworkProgramming.SrvAsyncAnswers
import Mathlib.Data.List.Basic

/-!
The answers of the Zen servers and the chunks that a client's questions come in. The end of a
question is looked for at the end of what has been received only: a chunk that holds the end of one
and the start of the next makes one question of both.
-/

namespace NetworkProgramming.Zen

def Asks (q : List UInt8) : Prop := ends q = true ∧ question ∉ q.dropLast

instance (q : List UInt8) : Decidable (Asks q) := inferInstanceAs (Decidable (_ ∧ _))

/-- No question ends within the chunk. -/
def Aligned (chunks : List (List UInt8)) : Prop := ∀ chunk ∈ chunks, question ∉ chunk.dropLast

instance (chunks : List (List UInt8)) : Decidable (Aligned chunks) :=
  inferInstanceAs (Decidable (∀ _ ∈ _, _))

theorem ends_iff (data : List UInt8) : ends data = true ↔ data.dropLast ++ [question] = data := by
  rw [ends, decide_eq_true_eq]
  constructor
  · exact fun last => List.dropLast_append_getLast? question (Option.mem_def.mpr last)
  · intro whole
    rw [← whole, List.getLast?_concat]

theorem ends_append (data chunk : List UInt8) (more : chunk ≠ []) :
    ends (data ++ chunk) = ends chunk := by
  rw [ends, ends, List.getLast?_append_of_ne_nil data more]

/-! Aligned chunks: each end of a question is the end of a chunk. -/

theorem first_question (a b r s : List UInt8) (here : question ∉ a) (there : question ∉ b)
    (same : a ++ question :: r = b ++ question :: s) : a = b ∧ r = s := by
  rcases List.append_eq_append_iff.mp same with ⟨c, rfl, rest⟩ | ⟨c, rfl, rest⟩
  · cases c with
    | nil => exact ⟨(List.append_nil a).symm, (List.cons.inj rest).2⟩
    | cons x c =>
        obtain ⟨rfl, _⟩ := List.cons.inj rest
        exact absurd (List.mem_append_right a List.mem_cons_self) there
  · cases c with
    | nil => exact ⟨List.append_nil b, (List.cons.inj rest).2.symm⟩
    | cons x c =>
        obtain ⟨rfl, _⟩ := List.cons.inj rest
        exact absurd (List.mem_append_right b List.mem_cons_self) here

theorem aligned_answers (chunks questions : List (List UInt8)) (data : List UInt8)
    (asked : ∀ q ∈ questions, Asks q) (some_ : ∀ chunk ∈ chunks, chunk ≠ [])
    (aligned : Aligned chunks) (unended : question ∉ data)
    (whole : data ++ chunks.flatten = questions.flatten) :
    answers data chunks = (questions.map getAnswer).flatten := by
  induction chunks generalizing data questions with
  | nil =>
      rw [List.flatten_nil, List.append_nil] at whole
      have none_ : questions = [] := by
        refine List.eq_nil_iff_forall_not_mem.mpr fun q member => unended ?_
        have last := (ends_iff q).mp (asked q member).1
        rw [whole, List.mem_flatten]
        exact ⟨q, member, by rw [← last]; simp⟩
      rw [none_]
      rfl
  | cons chunk chunks ih =>
      obtain ⟨more, others⟩ := List.forall_mem_cons.mp some_
      obtain ⟨within, alignedRest⟩ := List.forall_mem_cons.mp aligned
      rw [List.flatten_cons, ← List.append_assoc] at whole
      rw [answers, ends_append data chunk more]
      cases ended : ends chunk with
      | false =>
          rw [if_neg Bool.false_ne_true]
          refine ih questions (data ++ chunk) asked others alignedRest ?_ whole
          rw [List.mem_append, not_or]
          refine ⟨unended, fun member => ?_⟩
          -- a question mark that is not the last byte of the chunk is within it
          have parts := List.dropLast_concat_getLast more
          rw [← parts, List.mem_append, List.mem_singleton] at member
          rcases member with inner | last
          · exact within inner
          · have now := (ends_iff chunk).mpr (by rw [last, parts])
            rw [ended] at now
            cases now
      | true =>
          rw [if_pos rfl]
          have parts := (ends_iff chunk).mp ended
          cases questions with
          | nil =>
              rw [← parts] at whole
              simp at whole
          | cons q questions =>
              obtain ⟨⟨qEnds, qWithin⟩, askedRest⟩ := List.forall_mem_cons.mp asked
              have qParts := (ends_iff q).mp qEnds
              have same : (data ++ chunk.dropLast) ++ question :: chunks.flatten =
                  q.dropLast ++ question :: questions.flatten := by
                rw [← parts, List.flatten_cons, ← qParts] at whole
                simpa using whole
              obtain ⟨body, rest⟩ := first_question _ _ _ _
                (by rw [List.mem_append, not_or]; exact ⟨unended, within⟩) qWithin same
              have first : data ++ chunk = q := by
                rw [← parts, ← List.append_assoc, body, qParts]
              rw [first, List.map_cons, List.flatten_cons,
                ih questions [] askedRest others alignedRest List.not_mem_nil rest]

/-! Chunks that are not aligned: too few answers. Every answer has one full stop. -/

def fullStop : UInt8 := 46

theorem answer_one (q : List UInt8) : (getAnswer q).count fullStop = 1 := by
  have known : ∀ pair ∈ aphorisms, pair.2.count fullStop = 1 := by decide +kernel
  rw [getAnswer]
  cases found : aphorisms.lookup q with
  | none => decide
  | some answer =>
      rw [List.lookup_eq_some_iff] at found
      obtain ⟨before, after, whole, _⟩ := found
      exact known (q, answer) (by rw [whole]; simp)

theorem answers_count (chunks : List (List UInt8)) (data : List UInt8)
    (some_ : ∀ chunk ∈ chunks, chunk ≠ []) :
    (answers data chunks).count fullStop = (chunks.filter ends).length := by
  induction chunks generalizing data with
  | nil => rfl
  | cons chunk chunks ih =>
      obtain ⟨more, others⟩ := List.forall_mem_cons.mp some_
      rw [answers, ends_append data chunk more]
      cases ended : ends chunk with
      | false =>
          rw [if_neg Bool.false_ne_true, ih (data ++ chunk) others,
            List.filter_cons_of_neg (by simp [ended])]
      | true =>
          rw [if_pos rfl, List.count_append, answer_one, ih [] others,
            List.filter_cons_of_pos ended, List.length_cons, Nat.add_comm]

theorem chunk_count (chunk : List UInt8) (more : chunk ≠ []) :
    chunk.count question = chunk.dropLast.count question + if ends chunk then 1 else 0 := by
  conv_lhs => rw [← List.dropLast_concat_getLast more]
  rw [List.count_append, List.count_singleton]
  congr 1
  have last : ends chunk = (chunk.getLast more == question) := by
    rw [ends, List.getLast?_eq_getLast_of_ne_nil more]
    by_cases same : chunk.getLast more = question <;> simp [same]
  rw [last]

theorem chunks_count (chunks : List (List UInt8)) (some_ : ∀ chunk ∈ chunks, chunk ≠ []) :
    chunks.flatten.count question =
      (chunks.map fun chunk => chunk.dropLast.count question).sum +
        (chunks.filter ends).length := by
  induction chunks with
  | nil => rfl
  | cons chunk chunks ih =>
      obtain ⟨more, others⟩ := List.forall_mem_cons.mp some_
      rw [List.flatten_cons, List.count_append, chunk_count chunk more, ih others, List.map_cons,
        List.sum_cons]
      cases ended : ends chunk <;> simp [ended] <;> omega

theorem aligned_iff (chunks : List (List UInt8)) :
    Aligned chunks ↔ (chunks.map fun chunk => chunk.dropLast.count question).sum = 0 := by
  rw [List.sum_eq_zero_iff_forall_eq_nat]
  simp [Aligned, List.count_eq_zero]

/-- One answer for every question, exactly when no question ends within a chunk. -/
theorem answers_iff (chunks questions : List (List UInt8)) (asked : ∀ q ∈ questions, Asks q)
    (some_ : ∀ chunk ∈ chunks, chunk ≠ []) (whole : chunks.flatten = questions.flatten) :
    answers [] chunks = (questions.map getAnswer).flatten ↔ Aligned chunks := by
  refine ⟨fun all => ?_, fun aligned =>
    aligned_answers chunks questions [] asked some_ aligned List.not_mem_nil whole⟩
  have nonempty : ∀ q ∈ questions, q ≠ [] := by
    rintro q member rfl
    exact absurd (asked [] member).1 (by decide)
  have stops : (chunks.filter ends).length = questions.length := by
    rw [← answers_count chunks [] some_, all, List.count_flatten, List.map_map]
    have ones : ∀ q ∈ questions, (List.count fullStop ∘ getAnswer) q = 1 := fun q _ => answer_one q
    rw [List.map_congr_left ones]
    simp
  have marks : chunks.flatten.count question = questions.length := by
    rw [whole, chunks_count questions nonempty]
    have inner := (aligned_iff questions).mp fun q member => (asked q member).2
    rw [inner, List.filter_eq_self.mpr fun q member => (asked q member).1, Nat.zero_add]
  rw [aligned_iff]
  have total := chunks_count chunks some_
  omega

/-! The three servers. -/

def Answered (questions chunks : List (List UInt8)) : Prop :=
  (handleConversation chunks).1 = (questions.map getAnswer).flatten ∧
    (zenServer chunks).written = (questions.map getAnswer).flatten ∧
    ∀ (trace : List SrvAsync.Step) (s : SrvAsync.State) (i : Nat),
      SrvAsync.machine.Run trace s → SrvAsync.chunks (.client i) trace = chunks ++ [[]] →
        SrvAsync.sent (.client i) trace = (questions.map getAnswer).flatten

theorem answered_answers (questions chunks : List (List UInt8))
    (some_ : ∀ chunk ∈ chunks, chunk ≠ []) :
    Answered questions chunks ↔ answers [] chunks = (questions.map getAnswer).flatten := by
  rw [Answered, handle_conversation_answers chunks some_, zen_server_answers]
  refine ⟨fun all => all.1, fun same => ⟨same, same, fun trace s i run received => ?_⟩⟩
  rw [SrvAsync.ended_sent run i chunks received, zen_server_answers, same]

/-- The servers answer two splittings of the same questions alike, each question for itself, exactly
when no question ends within a chunk of either. -/
theorem splittings_answered_iff (questions one two : List (List UInt8))
    (asked : ∀ q ∈ questions, Asks q)
    (some₁ : ∀ chunk ∈ one, chunk ≠ []) (some₂ : ∀ chunk ∈ two, chunk ≠ [])
    (whole₁ : one.flatten = questions.flatten) (whole₂ : two.flatten = questions.flatten) :
    (Answered questions one ∧ Answered questions two) ↔ (Aligned one ∧ Aligned two) := by
  rw [answered_answers questions one some₁, answered_answers questions two some₂,
    answers_iff one questions asked some₁ whole₁, answers_iff two questions asked some₂ whole₂]

theorem question_in_two_answered :
    Answered [CText.bytes "Simple is better than?"] [CText.bytes "Simple is better than?"] ∧
      Answered [CText.bytes "Simple is better than?"]
        [CText.bytes "Simple is", CText.bytes " better than?"] :=
  (splittings_answered_iff [CText.bytes "Simple is better than?"]
    [CText.bytes "Simple is better than?"] [CText.bytes "Simple is", CText.bytes " better than?"]
    (by decide +kernel) (by decide +kernel) (by decide +kernel) (by decide +kernel)
    (by decide +kernel)).mpr (by decide +kernel)

/-- Two questions in one chunk have one answer, that it is no aphorism. -/
theorem two_in_one_unanswered :
    let questions := [CText.bytes "Simple is better than?", CText.bytes "Explicit is better than?"]
    (∀ q ∈ questions, Asks q) ∧ zenServer [questions.flatten] =
        ⟨[], CText.bytes "Error: unknown aphorism."⟩ ∧
      Answered questions questions ∧ ¬ Answered questions [questions.flatten] := by
  intro questions
  have asked : ∀ q ∈ questions, Asks q := by decide +kernel
  have merged : zenServer [questions.flatten] = ⟨[], CText.bytes "Error: unknown aphorism."⟩ := by
    decide +kernel
  refine ⟨asked, merged, ?_, fun answered => ?_⟩
  · rw [answered_answers questions questions (by decide)]
    decide +kernel
  · have sent := answered.2.1
    rw [merged] at sent
    exact absurd sent (by decide +kernel)

end NetworkProgramming.Zen
